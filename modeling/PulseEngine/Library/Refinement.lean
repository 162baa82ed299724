import Mathlib.Tactic
import PulseEngine.Library.Run

/-!
# A program that follows another one

The same program over two implementations of a data structure. `Follows` compares their outcomes:
when the first one ends, the second one ends in a related state. Whether the first one may run on
for ever where the second one ends is the parameter `d`, so that one proof gives partial correctness
and, with another reading of the relation, termination.
-/

namespace PulseEngine.Library

variable {σ τ σ' τ' α : Type*} {d : Prop} {R : σ → τ → Prop} {R' : σ' → τ' → Prop}

/-- The outcome `x` is related to the outcome `y`; it may be missing when `d` holds. -/
def Follows (d : Prop) (R : σ → τ → Prop) : Option σ → Option τ → Prop
  | none, y => d ∨ y = none
  | some s, y => ∃ s', y = some s' ∧ R s s'

lemma Follows.pure {s : σ} {s' : τ} (h : R s s') : Follows d R (some s) (some s') := ⟨s', rfl, h⟩

lemma Follows.of_eq {x : Option σ} {y : Option τ} {s' : τ} (ended : y = some s')
    (related : ∀ s, x = some s → R s s') (total : x = none → d) : Follows d R x y := by
  cases x with
  | none => exact .inl (total rfl)
  | some s => exact ⟨s', ended, related s rfl⟩

lemma Follows.none : Follows d R .none .none := .inr rfl

lemma Follows.bind {x : Option σ} {y : Option τ} {f : σ → Option σ'} {g : τ → Option τ'}
    (h : Follows d R x y)
    (next : ∀ s s', R s s' → x = some s → y = some s' → Follows d R' (f s) (g s')) :
    Follows d R' (x.bind f) (y.bind g) := by
  cases x with
  | none =>
    rcases h with may | rfl
    · exact .inl may
    · exact .inr rfl
  | some s =>
    obtain ⟨s', rfl, related⟩ := h
    exact next s s' related rfl rfl

lemma Follows.map {x : Option σ} {y : Option τ} {f : σ → σ'} {g : τ → τ'} (h : Follows d R x y)
    (next : ∀ s s', R s s' → y = some s' → R' (f s) (g s')) :
    Follows d R' (x.map f) (y.map g) := by
  rw [Option.map_eq_bind, Option.map_eq_bind]
  exact h.bind fun s s' related _ ended => .pure (next s s' related ended)

lemma Follows.same {x : Option α} {f : α → Option σ} {g : α → Option τ}
    (next : ∀ a, x = some a → Follows d R (f a) (g a)) : Follows d R (x.bind f) (x.bind g) := by
  cases x with
  | none => exact .inr rfl
  | some a => exact next a rfl

lemma Follows.matched {x : Option σ} {y : Option τ} {s : σ} (h : Follows d R x y)
    (ended : x = some s) : ∃ s', y = some s' ∧ R s s' := by
  subst ended
  exact h

lemma Follows.ends {x : Option σ} {y : Option τ} {s' : τ} (h : Follows False R x y)
    (ended : y = some s') : ∃ s, x = some s ∧ R s s' := by
  cases x with
  | none =>
    rcases h with may | missing
    · exact may.elim
    · rw [ended] at missing
      cases missing
  | some s =>
    obtain ⟨s'', found, related⟩ := h
    rw [ended] at found
    cases found
    exact ⟨s, rfl, related⟩

/-- **Run rule.** When every step under the condition `P` follows the other machine, every run whose
steps all meet `P` does. -/
theorem Follows.run {step : σ → α → Option σ} {step' : τ → α → Option τ} {P : σ → α → Prop}
    (next : ∀ s s' a, R s s' → P s a → Follows d R (step s a) (step' s' a)) :
    ∀ {as : List α} {s : σ} {s' : τ}, R s s' → Along step P s as →
      Follows d R (Library.run step s as) (Library.run step' s' as) := by
  intro as
  induction as with
  | nil => exact fun related _ => .pure related
  | cons a as ih =>
    intro s s' related along
    rw [run_cons, run_cons]
    exact (next s s' a related along.1).bind fun s₁ s₁' related₁ stepped _ =>
      ih related₁ (along.2 s₁ stepped)

end PulseEngine.Library

/-!
## Partial specifications

A partial function asks for one result where it has one, and for nothing where it has none. A result agrees with
it when it is the one that is asked for.
-/

namespace PulseEngine.Library

variable {α β : Type} {o o' : Option α} {f : α → Option β} {a : α} {b : β}

def Agrees (o : Option α) (a : α) : Prop := ∀ a', o = some a' → a' = a

lemma agrees_some : Agrees (some a) a := fun _ h => (Option.some.inj h).symm

lemma agrees_none : Agrees none a := fun _ h => nomatch h

lemma Agrees.bind (h : Agrees o a) (hf : Agrees (f a) b) : Agrees (o >>= f) b := by
  intro b' hb'
  obtain ⟨a', ha', hb'⟩ := Option.bind_eq_some_iff.mp hb'
  cases h a' ha'
  exact hf b' hb'

lemma agrees_guard {p : Prop} [Decidable p] {f : PUnit → Option β} (hf : p → Agrees (f ⟨⟩) b) :
    Agrees (guard p >>= f) b := by
  unfold guard
  split
  · rename_i hp
    exact hf hp
  · exact agrees_none

lemma Agrees.ite_pos {p : Prop} [Decidable p] (hp : p) (h : Agrees o a) :
    Agrees (if p then o else o') a := by
  rwa [if_pos hp]

lemma Agrees.ite_neg {p : Prop} [Decidable p] (hp : ¬ p) (h : Agrees o' a) :
    Agrees (if p then o else o') a := by
  rwa [if_neg hp]

lemma Agrees.map {g : α → β} (h : Agrees o a) : Agrees (o.map g) (g a) := by
  intro b' hb'
  obtain ⟨a', ha', rfl⟩ := Option.map_eq_some_iff.mp hb'
  rw [h a' ha']

end PulseEngine.Library
