import PulseEngine.Library.Fallible

/-!
# Computations that keep their state on errors

A computation with a state that ends with a value or an error, and in both cases in a state. `Leaves` is for what holds
after it; `forget` is the computation without the states of its errors.
-/

namespace PulseEngine.Library

abbrev Keeping (ε σ : Type) := ExceptT ε (StateT σ Option)

variable {ε σ α β ι : Type}

def runFrom (x : Keeping ε σ α) (s : σ) : Option (Except ε α × σ) := StateT.run (ExceptT.run x) s

def attempt (left : σ → σ) (f : σ → Fallible ε σ) : Keeping ε σ Unit :=
  ExceptT.mk fun s => (f s).run.map fun
    | .ok s' => (.ok (), s')
    | .error e => (.error e, left s)

def apart (x : Fallible ε α) : Keeping ε σ α := ExceptT.mk fun s => x.run.map fun result => (result, s)

def orUndo (undo : σ → σ) (x : Keeping ε σ α) : Keeping ε σ α :=
  tryCatch x fun e => do
    modify undo
    throw e

variable {x : Keeping ε σ α} {f : α → Keeping ε σ β} {a : α} {e : ε} {s : σ}

lemma runFrom_attempt {left : σ → σ} {g : σ → Fallible ε σ} : runFrom (attempt left g) s = (g s).run.map fun
    | .ok s' => (.ok (), s')
    | .error e => (.error e, left s) := rfl

lemma runFrom_apart {y : Fallible ε α} : runFrom (apart y : Keeping ε σ α) s = y.run.map fun result => (result, s) :=
  rfl

lemma runFrom_bind : runFrom (x >>= f) s = (runFrom x s).bind fun
    | (.ok a, s') => runFrom (f a) s'
    | (.error e, s') => some (.error e, s') := by
  rw [runFrom, ExceptT.run_bind, StateT.run_bind]
  refine congrArg (Option.bind _) (funext fun r => ?_)
  obtain ⟨result, s'⟩ := r
  cases result <;> rfl

lemma runFrom_orUndo {undo : σ → σ} : runFrom (orUndo undo x) s = (runFrom x s).map fun
    | (.ok a, s') => (.ok a, s')
    | (.error e, s') => (.error e, undo s') := by
  change (runFrom x s).bind _ = _
  rw [Option.map_eq_bind]
  refine congrArg (Option.bind _) (funext fun r => ?_)
  obtain ⟨result, s'⟩ := r
  cases result <;> rfl

/-! ### What holds afterwards -/

def Leaves (x : Keeping ε σ α) (s : σ) (Q : α → σ → Prop) (E : σ → Prop) : Prop :=
  ∀ result s', runFrom x s = some (result, s') → match result with
    | .ok a => Q a s'
    | .error _ => E s'

section Leaves

variable {P : σ → Prop} {Q Q' : α → σ → Prop} {R : β → σ → Prop} {E E' : σ → Prop}

lemma leaves_pure (h : Q a s) : Leaves (pure a : Keeping ε σ α) s Q E := by
  rintro _ _ ⟨⟩
  exact h

lemma leaves_modify {g : σ → σ} {Q : PUnit → σ → Prop} (h : Q ⟨⟩ (g s)) : Leaves (modify g : Keeping ε σ PUnit) s Q E := by
  rintro _ _ ⟨⟩
  exact h

lemma leaves_apart {y : Fallible ε α} (h : ∀ a, Returns y a → Q a s) (fails : E s) : Leaves (apart y) s Q E := by
  intro result s' run
  obtain ⟨_, hy, eq⟩ := Option.map_eq_some_iff.mp run
  cases eq
  cases result with
  | ok a => exact h a hy
  | error e => exact fails

lemma leaves_attempt {left : σ → σ} {g : σ → Fallible ε σ} {Q : Unit → σ → Prop} (h : ∀ s', Returns (g s) s' → Q () s')
    (fails : E (left s)) : Leaves (attempt left g) s Q E := by
  intro result s' run
  obtain ⟨r, hg, eq⟩ := Option.map_eq_some_iff.mp run
  cases r with
  | ok s₁ =>
    cases eq
    exact h _ hg
  | error e =>
    cases eq
    exact fails

lemma Leaves.imp (h : Leaves x s Q E) (ok : ∀ a s, Q a s → Q' a s) (error : ∀ s, E s → E' s) : Leaves x s Q' E' := by
  intro result s' run
  have h := h result s' run
  cases result with
  | ok a => exact ok a s' h
  | error e => exact error s' h

lemma Leaves.bind (h : Leaves x s Q E) (hf : ∀ a s, Q a s → Leaves (f a) s R E) : Leaves (x >>= f) s R E := by
  intro result s' run
  rw [runFrom_bind] at run
  obtain ⟨⟨first, s₁⟩, hx, run⟩ := Option.bind_eq_some_iff.mp run
  have h := h first s₁ hx
  cases first with
  | ok a => exact hf a s₁ h result s' run
  | error e =>
    cases run
    exact h

lemma leaves_forM {I : σ → Prop} {g : ι → Keeping ε σ Unit} {as : List ι}
    (step : ∀ a ∈ as, ∀ s, I s → Leaves (g a) s (fun _ => I) E) (h : I s) : Leaves (as.forM g) s (fun _ => I) E := by
  induction as generalizing s with
  | nil => exact leaves_pure h
  | cons a as ih =>
    obtain ⟨first, rest⟩ := List.forall_mem_cons.mp step
    exact (first s h).bind fun _ s' h' => ih rest h'

lemma leaves_orUndo {undo : σ → σ} (h : Leaves x s Q fun s => E (undo s)) : Leaves (orUndo undo x) s Q E := by
  intro result s' run
  rw [runFrom_orUndo] at run
  obtain ⟨⟨first, s₁⟩, hx, eq⟩ := Option.map_eq_some_iff.mp run
  have h := h first s₁ hx
  cases first with
  | ok a =>
    cases eq
    exact h
  | error e =>
    cases eq
    exact h

end Leaves

/-! ### The computation without the states of errors -/

def forget (x : Keeping ε σ α) (s : σ) : Fallible ε (α × σ) :=
  ExceptT.mk ((runFrom x s).map fun
    | (.ok a, s') => .ok (a, s')
    | (.error e, _) => .error e)

lemma forget_bind : forget (x >>= f) s = forget x s >>= fun r => forget (f r.1) r.2 := by
  refine ExceptT.ext ?_
  rw [run_bind, forget, ExceptT.run_mk, runFrom_bind, forget, ExceptT.run_mk]
  cases runFrom x s with
  | none => rfl
  | some r =>
    obtain ⟨result, s'⟩ := r
    cases result <;> rfl

lemma forget_pure : forget (pure a : Keeping ε σ α) s = pure (a, s) := rfl

lemma forget_get : forget (get : Keeping ε σ σ) s = pure (s, s) := rfl

lemma forget_modify {g : σ → σ} : forget (modify g : Keeping ε σ PUnit) s = pure (⟨⟩, g s) := rfl

lemma forget_orUndo {undo : σ → σ} : forget (orUndo undo x) s = forget x s := by
  refine ExceptT.ext ?_
  rw [forget, ExceptT.run_mk, runFrom_orUndo, forget, ExceptT.run_mk]
  cases runFrom x s with
  | none => rfl
  | some r =>
    obtain ⟨result, s'⟩ := r
    cases result <;> rfl

lemma forget_attempt {left : σ → σ} {g : σ → Fallible ε σ} :
    forget (attempt left g) s = g s >>= fun s' => pure ((), s') := by
  refine ExceptT.ext ?_
  rw [forget, ExceptT.run_mk, runFrom_attempt, run_bind]
  cases (g s).run with
  | none => rfl
  | some r => cases r <;> rfl

lemma forget_apart {y : Fallible ε α} : forget (apart y : Keeping ε σ α) s = y >>= fun a => pure (a, s) := by
  refine ExceptT.ext ?_
  rw [forget, ExceptT.run_mk, runFrom_apart, run_bind]
  cases y.run with
  | none => rfl
  | some r => cases r <;> rfl

lemma forget_forM {g : ι → Keeping ε σ Unit} {step : σ → ι → Fallible ε σ} {as : List ι}
    (same : ∀ a s, forget (g a) s = step s a >>= fun s' => pure ((), s')) :
    forget (as.forM g) s = as.foldlM step s >>= fun s' => pure ((), s') := by
  induction as generalizing s with
  | nil => rfl
  | cons a as ih =>
    rw [List.foldlM_cons, bind_assoc]
    refine forget_bind.trans ?_
    rw [same, bind_assoc]
    exact congrArg _ (funext fun s' => (pure_bind _ _).trans ih)

end PulseEngine.Library
