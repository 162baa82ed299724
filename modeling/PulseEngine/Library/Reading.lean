import Mathlib.Tactic

/-!
# Lists that are read from left to right

A step looks at an element of a list and at what follows it, and reads a value from the element and from
some of those behind it, or an error. Two steps read a list in the same way exactly when they agree
wherever one of them comes by.
-/

namespace PulseEngine.Library

variable {α β ε : Type*}

/-- What is read of a list: the values, each with the number of elements behind its own that belong to it,
and the error at which the reading ends. -/
structure Reading (β ε : Type*) where
  pieces : List (β × ℕ)
  error : Option ε

def Reading.cons (piece : β × ℕ) (r : Reading β ε) : Reading β ε :=
  { r with pieces := piece :: r.pieces }

def Reading.value (r : Reading β ε) : Except ε (List β) :=
  match r.error with
  | none => .ok (r.pieces.map Prod.fst)
  | some e => .error e

variable (step f g : α → List α → Except ε (β × ℕ))

/-- The first `taken` elements belong to the value before. -/
def reading : ℕ → List α → Reading β ε
  | _, [] => ⟨[], none⟩
  | taken + 1, _ :: rest => reading taken rest
  | 0, a :: rest =>
    match step a rest with
    | .error e => ⟨[], some e⟩
    | .ok (b, taken) => (reading taken rest).cons (b, taken)

def visits : ℕ → List α → List (α × List α)
  | _, [] => []
  | taken + 1, _ :: rest => visits taken rest
  | 0, a :: rest =>
    (a, rest) ::
      match step a rest with
      | .error _ => []
      | .ok (_, taken) => visits taken rest

variable {step f g} {l : List α}

lemma visits_of_preserved {P : List α → Prop}
    (preserved : ∀ {a rest b taken}, P (a :: rest) → step a rest = .ok (b, taken) →
      P (rest.drop taken))
    {taken : ℕ} (start : P (l.drop taken)) :
    ∀ visit ∈ visits step taken l, P (visit.1 :: visit.2) := by
  induction l generalizing taken with
  | nil => cases taken <;> exact fun _ h => absurd h List.not_mem_nil
  | cons a rest ih =>
    cases taken with
    | succ taken => exact ih start
    | zero =>
      intro visit hvisit
      rw [visits, List.mem_cons] at hvisit
      rcases hvisit with rfl | hvisit
      · exact start
      · cases hstep : step a rest with
        | error e =>
          rw [hstep] at hvisit
          cases hvisit
        | ok piece =>
          rw [hstep] at hvisit
          exact ih (preserved start hstep) visit hvisit

/-- Two steps read the same exactly when they agree wherever one of them is taken. -/
theorem reading_eq_iff {taken : ℕ} :
    reading f taken l = reading g taken l ↔
      ∀ visit ∈ visits g taken l, f visit.1 visit.2 = g visit.1 visit.2 := by
  induction l generalizing taken with
  | nil => cases taken <;> exact iff_of_true rfl fun _ h => absurd h List.not_mem_nil
  | cons a rest ih =>
    cases taken with
    | succ taken => exact ih
    | zero =>
      rw [visits, List.forall_mem_cons, reading, reading]
      cases hf : f a rest with
      | error e =>
        cases hg : g a rest with
        | error e' => simp
        | ok piece => simp [Reading.cons]
      | ok piece =>
        cases hg : g a rest with
        | error e' => simp [Reading.cons]
        | ok piece' =>
          obtain ⟨b, k⟩ := piece
          obtain ⟨b', k'⟩ := piece'
          simp only [Reading.cons, Reading.mk.injEq, List.cons.injEq, Prod.mk.injEq,
            Except.ok.injEq]
          constructor
          · rintro ⟨⟨⟨rfl, rfl⟩, hpieces⟩, herror⟩
            refine ⟨⟨rfl, rfl⟩, ih.mp ?_⟩
            cases hr : reading f k rest
            cases hr' : reading g k rest
            simp_all
          · rintro ⟨⟨rfl, rfl⟩, h⟩
            rw [ih.mpr h]
            exact ⟨⟨⟨rfl, rfl⟩, rfl⟩, rfl⟩

end PulseEngine.Library
