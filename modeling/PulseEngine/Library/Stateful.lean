import Mathlib.Tactic
import PulseEngine.Library.Fallible

/-!
# Pre- and postconditions of computations with a state

A computation with a state that can fail or not end meets a postcondition from a state. What is
asked of errors, and whether it has to end, is the mode: the rules are the same for all modes.
-/

namespace PulseEngine.Library

variable {ε α β σ : Type}

structure Mode (ε : Type) where
  unended : Prop
  error : ε → Prop

def Mode.weak : Mode ε := ⟨True, fun _ => True⟩

def Mode.strong (error : ε → Prop) : Mode ε := ⟨False, error⟩

def Yields (mode : Mode ε) (x : Fallible ε α) (Q : α → Prop) : Prop :=
  match x.run with
  | none => mode.unended
  | some (.error e) => mode.error e
  | some (.ok a) => Q a

variable {mode : Mode ε}

section Yields

variable {x : Fallible ε α} {f : α → Fallible ε β} {P Q : α → Prop} {R : β → Prop} {a : α} {e : ε}

lemma yields_pure (h : Q a) : Yields mode (pure a) Q := h

lemma yields_unended (h : mode.unended) : Yields mode (unended : Fallible ε α) Q := h

lemma Yields.imp (h : Yields mode x P) (imp : ∀ a, P a → Q a) : Yields mode x Q := by
  rw [Yields] at h ⊢
  cases hx : x.run with
  | none => rwa [hx] at h
  | some result =>
    rw [hx] at h
    cases result with
    | error e => exact h
    | ok a => exact imp a h

lemma Yields.bind (h : Yields mode x P) (hf : ∀ a, P a → Yields mode (f a) R) :
    Yields mode (x >>= f) R := by
  rw [Yields] at h ⊢
  rw [run_bind]
  cases hx : x.run with
  | none => rwa [hx] at h
  | some result =>
    rw [hx] at h
    cases result with
    | error e => exact h
    | ok a => exact hf a h

lemma Yields.returns (h : Yields mode x Q) (hx : Returns x a) : Q a := by
  rwa [Yields, hx] at h

lemma Yields.ends {error : ε → Prop} (h : Yields (.strong error) x Q) : Ends x := by
  intro hx
  rwa [Yields, hx] at h

lemma Yields.error {error : ε → Prop} (h : Yields (.strong error) x Q)
    (hx : x.run = some (.error e)) : error e := by
  rwa [Yields, hx] at h

end Yields

def Meets (mode : Mode ε) (x : StateT σ (Fallible ε) α) (s : σ) (Q : α → σ → Prop) : Prop :=
  Yields mode (x s) fun r => Q r.1 r.2

section Meets

variable {x : StateT σ (Fallible ε) α} {f : α → StateT σ (Fallible ε) β} {s s' : σ} {a : α}
  {P Q : α → σ → Prop} {R : β → σ → Prop} {e : ε}

lemma meets_pure (h : Q a s) : Meets mode (pure a) s Q := h

lemma meets_throw (h : mode.error e) : Meets mode (throw e : StateT σ (Fallible ε) α) s Q := h

lemma Meets.imp (h : Meets mode x s P) (imp : ∀ a s', P a s' → Q a s') : Meets mode x s Q :=
  Yields.imp h fun r => imp r.1 r.2

lemma Meets.bind (h : Meets mode x s P) (hf : ∀ a s', P a s' → Meets mode (f a) s' R) :
    Meets mode (x >>= f) s R :=
  Yields.bind h fun r => hf r.1 r.2

lemma meets_get {f : σ → StateT σ (Fallible ε) β} (h : Meets mode (f s) s R) :
    Meets mode (get >>= f) s R := h

lemma meets_lift {y : Fallible ε α} (h : Yields mode y fun a => Q a s) :
    Meets mode (StateT.lift y) s Q :=
  Yields.bind h fun _ ha => yields_pure ha

lemma Meets.returns (h : Meets (.strong fun _ => False) x s Q) :
    ∃ a s', Returns (x s) (a, s') ∧ Q a s' := by
  rw [Meets, Yields] at h
  split at h
  · exact h.elim
  · exact h.elim
  · exact ⟨_, _, ‹_›, h⟩

end Meets

end PulseEngine.Library

/-!
## Loops with a measure

`loop` repeats a body as long as it has a next state. The fuel bounds the number of turns: a result
does not depend on it (`loop_mono`), and where a measure falls with every turn some fuel is enough
(`loop_ends`). An invariant of the body holds of the result (`loop_invariant`).
-/

namespace PulseEngine.Library

variable {σ : Type*} {body : σ → Option σ} {s s' : σ} {fuel fuel' : ℕ}

def loop (body : σ → Option σ) : ℕ → σ → Option σ
  | 0, _ => none
  | fuel + 1, s =>
    match body s with
    | none => some s
    | some s' => loop body fuel s'

lemma loop_succ_of_none (h : body s = none) : loop body (fuel + 1) s = some s := by
  rw [loop, h]

lemma loop_succ_of_some (h : body s = some s') :
    loop body (fuel + 1) s = loop body fuel s' := by
  rw [loop, h]

lemma loop_mono (hle : fuel ≤ fuel') (h : loop body fuel s = some s') :
    loop body fuel' s = some s' := by
  induction fuel generalizing s fuel' with
  | zero => exact nomatch h
  | succ fuel ih =>
    obtain ⟨fuel', rfl⟩ : ∃ f, fuel' = f + 1 := ⟨fuel' - 1, by omega⟩
    cases next : body s with
    | none =>
      rw [loop_succ_of_none next] at h ⊢
      exact h
    | some s'' =>
      rw [loop_succ_of_some next] at h ⊢
      exact ih (by omega) h

/-- What every turn preserves holds at the end, where there is no next turn. -/
theorem loop_invariant (inv : σ → Prop) (step : ∀ s s', inv s → body s = some s' → inv s')
    (hs : inv s) (h : loop body fuel s = some s') : inv s' ∧ body s' = none := by
  induction fuel generalizing s with
  | zero => exact nomatch h
  | succ fuel ih =>
    cases next : body s with
    | none =>
      rw [loop_succ_of_none next] at h
      obtain rfl := Option.some.inj h
      exact ⟨hs, next⟩
    | some s'' =>
      rw [loop_succ_of_some next] at h
      exact ih (step s s'' hs next) h

/-- A loop ends when every turn that starts in the invariant makes the measure smaller. -/
theorem loop_ends (inv : σ → Prop) (measure : σ → ℕ)
    (step : ∀ s s', inv s → body s = some s' → inv s' ∧ measure s' < measure s)
    (hs : inv s) (hfuel : measure s < fuel) : ∃ s', loop body fuel s = some s' := by
  induction fuel generalizing s with
  | zero => exact absurd hfuel (Nat.not_lt_zero _)
  | succ fuel ih =>
    cases next : body s with
    | none => exact ⟨s, loop_succ_of_none next⟩
    | some s'' =>
      obtain ⟨hs'', hlt⟩ := step s s'' hs next
      rw [loop_succ_of_some next]
      exact ih hs'' (by omega)

def Visits (body : σ → Option σ) : σ → σ → Prop := Relation.ReflTransGen fun s s' => body s = some s'

/-- **What a loop collects.** When every turn that starts in the invariant keeps what is good exactly under a
condition, what is good at the end was good at the start, and all turns met the condition. -/
theorem loop_iff {inv good cond : σ → Prop}
    (step : ∀ s s', inv s → body s = some s' → inv s' ∧ (good s' ↔ good s ∧ cond s))
    (hs : inv s) (h : loop body fuel s = some s') :
    good s' ↔ good s ∧ ∀ t t', Visits body s t → body t = some t' → cond t := by
  induction fuel generalizing s with
  | zero => exact nomatch h
  | succ fuel ih =>
    cases next : body s with
    | none =>
      rw [loop_succ_of_none next] at h
      obtain rfl := Option.some.inj h
      refine ⟨fun good => ⟨good, fun t t' visit turn => ?_⟩, And.left⟩
      rcases Relation.ReflTransGen.cases_head visit with rfl | ⟨_, turn', -⟩
      · exact nomatch next.symm.trans turn
      · exact nomatch next.symm.trans turn'
    | some s'' =>
      rw [loop_succ_of_some next] at h
      obtain ⟨hs'', same⟩ := step s s'' hs next
      rw [ih hs'' h, same, and_assoc]
      refine and_congr_right fun _ => ⟨fun ⟨here, later⟩ t t' visit turn => ?_, fun all =>
        ⟨all s s'' .refl next, fun t t' visit => all t t' (.head next visit)⟩⟩
      rcases Relation.ReflTransGen.cases_head visit with rfl | ⟨t'', turn', visit⟩
      · exact here
      · obtain rfl := Option.some.inj (next.symm.trans turn')
        exact later t t' visit turn

end PulseEngine.Library
