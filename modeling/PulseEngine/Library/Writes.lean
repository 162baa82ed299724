import Mathlib.Tactic

/-!
# Writes to memory

Memory is a function on addresses. What some writes leave at an address is what the last one of them put there, and what
was there before if none of them did.
-/

namespace PulseEngine.Library

variable {α : Type}

structure Write (α : Type) where
  offset : ℕ
  values : List α
  deriving DecidableEq, Repr

def Write.Holds (w : Write α) (i : ℕ) : Prop := w.offset ≤ i ∧ i < w.offset + w.values.length

instance (w : Write α) (i : ℕ) : Decidable (w.Holds i) := inferInstanceAs (Decidable (_ ∧ _))

def store (base : ℕ) (memory : ℕ → α) (w : Write α) : ℕ → α := fun a =>
  if base + w.offset ≤ a then (w.values[a - (base + w.offset)]?).getD (memory a) else memory a

def lastWritten (i : ℕ) : List (Write α) → Option α
  | [] => none
  | w :: writes => (lastWritten i writes).or (if w.offset ≤ i then w.values[i - w.offset]? else none)

variable {base i a : ℕ} {memory : ℕ → α} {w : Write α} {writes : List (Write α)}

lemma store_apply : store base memory w (base + i) =
    (if w.offset ≤ i then w.values[i - w.offset]? else none).getD (memory (base + i)) := by
  rw [store]
  by_cases le : w.offset ≤ i
  · rw [if_pos (Nat.add_le_add_left le base), if_pos le, Nat.add_sub_add_left]
  · rw [if_neg (fun h => le (Nat.le_of_add_le_add_left h)), if_neg le]
    rfl

lemma foldl_store_apply :
    writes.foldl (store base) memory (base + i) = (lastWritten i writes).getD (memory (base + i)) := by
  induction writes generalizing memory with
  | nil => rfl
  | cons w writes ih =>
    rw [List.foldl_cons, ih, lastWritten, store_apply]
    cases lastWritten i writes <;> rfl

lemma lastWritten_eq_none : lastWritten i writes = none ↔ ∀ w ∈ writes, ¬ w.Holds i := by
  induction writes with
  | nil => exact ⟨fun _ => List.forall_mem_nil _, fun _ => rfl⟩
  | cons w writes ih =>
    have head : (if w.offset ≤ i then w.values[i - w.offset]? else none) = none ↔ ¬ w.Holds i := by
      rw [Write.Holds]
      split
      · rw [List.getElem?_eq_none_iff]
        omega
      · rename_i lt
        exact iff_of_true rfl fun h => lt h.1
    rw [lastWritten, Option.or_eq_none_iff, ih, head, List.forall_mem_cons, and_comm]

lemma foldl_store_other {size : ℕ} (inside : ∀ w ∈ writes, w.offset + w.values.length ≤ size)
    (other : ¬ (base ≤ a ∧ a < base + size)) : writes.foldl (store base) memory a = memory a := by
  induction writes generalizing memory with
  | nil => rfl
  | cons w writes ih =>
    rw [List.foldl_cons, ih fun w hw => inside w (List.mem_cons_of_mem _ hw), store]
    have fits := inside w List.mem_cons_self
    split
    · rw [List.getElem?_eq_none (by omega)]
      rfl
    · rfl

def serial (offset : ℕ) : List (ℕ × List α) → List (Write α)
  | [] => []
  | (size, values) :: blocks => ⟨offset, values⟩ :: serial (offset + size) blocks

variable {offset size : ℕ} {values : List α} {blocks before after : List (ℕ × List α)}

lemma serial_inside (fits : ∀ b ∈ blocks, b.2.length ≤ b.1) (h : w ∈ serial offset blocks) :
    offset ≤ w.offset ∧ w.offset + w.values.length ≤ offset + (blocks.map Prod.fst).sum := by
  induction blocks generalizing offset with
  | nil => cases h
  | cons b blocks ih =>
    obtain ⟨here, rest⟩ := List.forall_mem_cons.mp fits
    rw [List.map_cons, List.sum_cons]
    rcases List.mem_cons.mp h with rfl | h
    · exact ⟨le_rfl, by dsimp only; omega⟩
    · have inside := ih rest h
      omega

lemma serial_apart (fits : ∀ b ∈ blocks, b.2.length ≤ b.1) :
    (serial offset blocks).Pairwise fun w w' => w.offset + w.values.length ≤ w'.offset := by
  induction blocks generalizing offset with
  | nil => exact .nil
  | cons b blocks ih =>
    obtain ⟨here, rest⟩ := List.forall_mem_cons.mp fits
    refine List.pairwise_cons.mpr ⟨fun w hw => ?_, ih rest⟩
    have inside := serial_inside rest hw
    dsimp only
    omega

lemma lastWritten_serial (lt : i < values.length) (fits : values.length ≤ size)
    (rest : ∀ b ∈ after, b.2.length ≤ b.1) :
    lastWritten (offset + (before.map Prod.fst).sum + i) (serial offset (before ++ (size, values) :: after)) =
      values[i]? := by
  induction before generalizing offset with
  | nil =>
    have later : lastWritten (offset + i) (serial (offset + size) after) = none := by
      refine lastWritten_eq_none.mpr fun w hw holds => ?_
      have inside := serial_inside rest hw
      have start := holds.1
      omega
    rw [List.map_nil, List.sum_nil, add_zero, List.nil_append, serial, lastWritten, later, Option.none_or]
    dsimp only
    rw [if_pos (Nat.le_add_right _ _), Nat.add_sub_cancel_left]
  | cons b before ih =>
    have same : offset + ((b :: before).map Prod.fst).sum + i = offset + b.1 + (before.map Prod.fst).sum + i := by
      rw [List.map_cons, List.sum_cons, ← add_assoc offset]
    rw [same, List.cons_append, serial, lastWritten, ih, List.getElem?_eq_getElem lt, Option.some_or]

end PulseEngine.Library
