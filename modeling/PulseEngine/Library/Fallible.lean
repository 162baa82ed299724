import Mathlib.Tactic

/-!
# Computations that fail or do not end

A computation has a value, an error, or no result when its fuel is used up. `Returns` is for a value
and `Ends` for any result; both go through sequences and loops.
-/

namespace PulseEngine.Library

abbrev Fallible (ε : Type*) := ExceptT ε Option

universe u

variable {ε α β σ : Type u}

def unended : Fallible ε α := (none : Option (Except ε α))

def Returns (x : Fallible ε α) (a : α) : Prop := x.run = some (.ok a)

def Ends (x : Fallible ε α) : Prop := x.run ≠ none

def Fails (x : Fallible ε α) : Prop := ∃ e, x.run = some (.error e)

variable {x : Fallible ε α} {f : α → Fallible ε β} {a a' : α} {b : β} {e : ε}

lemma Returns.unique (h : Returns x a) (h' : Returns x a') : a = a' := by
  rw [Returns, h] at h'
  injection h' with h'
  injection h'

lemma Returns.ends (h : Returns x a) : Ends x := by
  rw [Ends, h]
  exact Option.some_ne_none _

lemma Fails.ends (h : Fails x) : Ends x := by
  obtain ⟨e, h⟩ := h
  rw [Ends, h]
  exact Option.some_ne_none _

lemma Ends.cases (h : Ends x) : (∃ a, Returns x a) ∨ Fails x := by
  obtain ⟨result, hresult⟩ := Option.ne_none_iff_exists'.mp h
  cases result with
  | error e => exact .inr ⟨e, hresult⟩
  | ok a => exact .inl ⟨a, hresult⟩

lemma Returns.not_fails (h : Returns x a) : ¬ Fails x := by
  rintro ⟨e, h'⟩
  rw [Returns, h'] at h
  injection h with h
  injection h

@[simp]
lemma not_ends_unended : ¬ Ends (unended : Fallible ε α) := fun h => h rfl

@[simp]
lemma ends_pure : Ends (pure a : Fallible ε α) := Option.some_ne_none _

@[simp]
lemma ends_throw : Ends (throw e : Fallible ε α) := Option.some_ne_none _

@[simp]
lemma returns_pure : Returns (pure a' : Fallible ε α) a ↔ a' = a := by
  refine ⟨fun h => ?_, fun h => by rw [h]; rfl⟩
  injection h with h
  injection h

@[simp]
lemma not_returns_throw : ¬ Returns (throw e : Fallible ε α) a := by
  intro h
  injection h with h
  injection h

@[simp]
lemma not_returns_unended : ¬ Returns (unended : Fallible ε α) a := fun h => nomatch h

lemma run_bind : (x >>= f).run = x.run.bind fun
    | .ok a => (f a).run
    | .error e => some (.error e) := by
  rw [ExceptT.run_bind]
  cases x.run with
  | none => rfl
  | some result => cases result <;> rfl

lemma returns_bind : Returns (x >>= f) b ↔ ∃ a, Returns x a ∧ Returns (f a) b := by
  simp only [Returns, run_bind]
  cases hx : x.run with
  | none => simp
  | some result => cases result <;> simp

lemma ends_bind : Ends (x >>= f) ↔ Ends x ∧ ∀ a, Returns x a → Ends (f a) := by
  simp only [Ends, Returns, run_bind]
  cases hx : x.run with
  | none => simp
  | some result => cases result <;> simp

lemma fails_bind : Fails (x >>= f) ↔ Fails x ∨ ∃ a, Returns x a ∧ Fails (f a) := by
  simp only [Fails, Returns, run_bind]
  cases hx : x.run with
  | none => simp
  | some result => cases result <;> simp

lemma bind_congr {g : α → Fallible ε β} (h : ∀ a, Returns x a → f a = g a) :
    x >>= f = x >>= g := by
  refine ExceptT.ext ?_
  rw [run_bind, run_bind]
  cases hx : x.run with
  | none => rfl
  | some result =>
    cases result with
    | error e => rfl
    | ok a => exact congrArg ExceptT.run (h a hx)

def Total (x : Fallible ε α) (P : α → Prop) : Prop := Ends x ∧ ∀ a, Returns x a → P a

section Total

variable {P Q : α → Prop} {R : β → Prop}

lemma total_pure (h : P a) : Total (pure a : Fallible ε α) P :=
  ⟨ends_pure, fun _ ha => returns_pure.mp ha ▸ h⟩

lemma total_throw : Total (throw e : Fallible ε α) P :=
  ⟨ends_throw, fun _ ha => absurd ha not_returns_throw⟩

lemma Total.imp (h : Total x P) (imp : ∀ a, P a → Q a) : Total x Q :=
  ⟨h.1, fun a ha => imp a (h.2 a ha)⟩

lemma Total.bind (h : Total x P) (hf : ∀ a, P a → Total (f a) R) : Total (x >>= f) R := by
  refine ⟨ends_bind.mpr ⟨h.1, fun a ha => (hf a (h.2 a ha)).1⟩, fun b hb => ?_⟩
  obtain ⟨a, ha, hb⟩ := returns_bind.mp hb
  exact (hf a (h.2 a ha)).2 b hb

lemma total_foldlM {I : σ → Prop} {step : σ → α → Fallible ε σ} :
    ∀ {as : List α} {s : σ}, I s → (∀ a ∈ as, ∀ s, I s → Total (step s a) I) →
      Total (as.foldlM step s) I := by
  intro as
  induction as with
  | nil => exact fun hs _ => total_pure hs
  | cons a as ih =>
    intro s hs hstep
    rw [List.foldlM_cons]
    exact (hstep a List.mem_cons_self s hs).bind fun s' hs' =>
      ih hs' fun a ha => hstep a (.tail _ ha)

end Total

lemma returns_foldlM {I : σ → Prop} {step : σ → α → Fallible ε σ} :
    ∀ {as : List α} {s s' : σ}, Returns (as.foldlM step s) s' → I s →
      (∀ a ∈ as, ∀ s s', I s → Returns (step s a) s' → I s') → I s' := by
  intro as
  induction as with
  | nil =>
    intro s s' h hs _
    rwa [← returns_pure.mp h]
  | cons a as ih =>
    intro s s' h hs hstep
    rw [List.foldlM_cons, returns_bind] at h
    obtain ⟨s₁, h₁, h⟩ := h
    exact ih h (hstep a List.mem_cons_self s s₁ hs h₁) fun a ha => hstep a (.tail _ ha)

def each (go : α → Fallible ε (List β)) : List α → Fallible ε (List β)
  | [] => pure []
  | a :: as => do
    let bs ← go a
    let rest ← each go as
    pure (bs ++ rest)

section Each

variable {go : α → Fallible ε (List β)} {as : List α}

lemma ends_each_cons :
    Ends (each go (a :: as)) ↔ Ends (go a) ∧ ((∃ bs, Returns (go a) bs) → Ends (each go as)) := by
  rw [each, ends_bind]
  refine and_congr_right fun _ => ⟨?_, ?_⟩
  · rintro h ⟨bs, hbs⟩
    exact (ends_bind.mp (h bs hbs)).1
  · exact fun h bs hbs => ends_bind.mpr ⟨h ⟨bs, hbs⟩, fun _ _ => ends_pure⟩

lemma ends_each (h : ∀ a, Ends (go a)) : Ends (each go as) := by
  induction as with
  | nil => exact ends_pure
  | cons a as ih => exact ends_each_cons.mpr ⟨h a, fun _ => ih⟩

lemma each_map {γ : Type u} {f : γ → α} {go' : γ → Fallible ε (List β)} : ∀ {cs : List γ},
    (∀ c ∈ cs, go' c = go (f c)) → each go' cs = each go (cs.map f) := by
  intro cs
  induction cs with
  | nil => exact fun _ => rfl
  | cons c cs ih =>
    intro same
    rw [List.map_cons, each, each, same c List.mem_cons_self, ih fun d hd => same d (.tail _ hd)]

lemma returns_each : (∃ bs, Returns (each go as) bs) ↔ ∀ a ∈ as, ∃ bs, Returns (go a) bs := by
  induction as with
  | nil => exact ⟨fun _ _ ha => absurd ha List.not_mem_nil, fun _ => ⟨[], returns_pure.mpr rfl⟩⟩
  | cons a as ih =>
    rw [List.forall_mem_cons, ← ih]
    refine ⟨?_, ?_⟩
    · rintro ⟨bs, h⟩
      rw [each, returns_bind] at h
      obtain ⟨bs₁, h₁, h⟩ := h
      obtain ⟨rest, h₂, -⟩ := returns_bind.mp h
      exact ⟨⟨bs₁, h₁⟩, rest, h₂⟩
    · rintro ⟨⟨bs₁, h₁⟩, rest, h₂⟩
      exact ⟨bs₁ ++ rest,
        returns_bind.mpr ⟨bs₁, h₁, returns_bind.mpr ⟨rest, h₂, returns_pure.mpr rfl⟩⟩⟩

lemma fails_each (h : Fails (each go as)) : ∃ a ∈ as, Fails (go a) := by
  induction as with
  | nil => exact absurd h (Returns.not_fails (returns_pure.mpr rfl))
  | cons a as ih =>
    rw [each, fails_bind] at h
    rcases h with h | ⟨bs, _, h⟩
    · exact ⟨a, List.mem_cons_self, h⟩
    · rcases fails_bind.mp h with h | ⟨rest, _, h⟩
      · obtain ⟨c, hc, h⟩ := ih h
        exact ⟨c, .tail _ hc, h⟩
      · exact absurd h (Returns.not_fails (returns_pure.mpr rfl))

end Each

lemma mapM_some {f : α → Option β} {g : α → β} {as : List α} (h : ∀ a ∈ as, f a = some (g a)) :
    as.mapM f = some (as.map g) := by
  induction as with
  | nil => rfl
  | cons a as ih =>
    rw [List.mapM_cons, h a List.mem_cons_self, ih fun b hb => h b (List.mem_cons_of_mem _ hb)]
    rfl

lemma mapM_ne_none {f : α → Option β} {as : List α} (h : ∀ a ∈ as, f a ≠ none) : as.mapM f ≠ none := by
  induction as with
  | nil => exact Option.some_ne_none _
  | cons a as ih =>
    obtain ⟨b, hb⟩ := Option.ne_none_iff_exists'.mp (h a List.mem_cons_self)
    obtain ⟨bs, hbs⟩ := Option.ne_none_iff_exists'.mp (ih fun a ha => h a (List.mem_cons_of_mem _ ha))
    rw [List.mapM_cons, hb, hbs]
    exact Option.some_ne_none _

end PulseEngine.Library
