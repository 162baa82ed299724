import Mathlib.Data.List.Basic
import Mathlib.Tactic

/-!
# Copying ranges

A range of a list is replaced by another list. A copy from a range of one list to a range of another one has
no result when a range is not inside of its list.
-/

namespace PulseEngine.Library

variable {α : Type*}

/-- The list `bytes` in place of what is at `offset`. -/
def splice (dst : List α) (offset : ℕ) (bytes : List α) : List α :=
  dst.take offset ++ bytes ++ dst.drop (offset + bytes.length)

/-- A copy of `size` things from one range to another. -/
def copyRange (src : List α) (srcOffset : ℕ) (dst : List α) (dstOffset size : ℕ) : Option (List α) :=
  if srcOffset + size ≤ src.length ∧ dstOffset + size ≤ dst.length then
    some (splice dst dstOffset ((src.drop srcOffset).take size))
  else none

variable {src dst bytes : List α} {offset srcOffset dstOffset size : ℕ}

lemma length_splice (h : offset + bytes.length ≤ dst.length) :
    (splice dst offset bytes).length = dst.length := by
  unfold splice
  rw [List.length_append, List.length_append, List.length_take, List.length_drop]
  omega

/-- What is in the range is replaced, and the rest stays. -/
theorem getElem?_splice (h : offset + bytes.length ≤ dst.length) (i : ℕ) :
    (splice dst offset bytes)[i]? =
      if offset ≤ i ∧ i < offset + bytes.length then bytes[i - offset]? else dst[i]? := by
  have front : (dst.take offset).length = offset := by
    rw [List.length_take]
    omega
  unfold splice
  rw [List.append_assoc]
  rcases Nat.lt_or_ge i offset with before | from_
  · rw [List.getElem?_append_left (by omega), List.getElem?_take_of_lt before, if_neg (by omega)]
  · rw [List.getElem?_append_right (by omega), front]
    rcases Nat.lt_or_ge (i - offset) bytes.length with inside | after
    · rw [List.getElem?_append_left inside, if_pos (by omega)]
    · rw [List.getElem?_append_right after, List.getElem?_drop, if_neg (by omega)]
      congr 1
      omega

lemma length_range (h : srcOffset + size ≤ src.length) : ((src.drop srcOffset).take size).length = size := by
  rw [List.length_take, List.length_drop]
  omega

/-- **A copy**: when it has a result, and what that is. -/
theorem copyRange_eq_some {result : List α} :
    copyRange src srcOffset dst dstOffset size = some result ↔
      (srcOffset + size ≤ src.length ∧ dstOffset + size ≤ dst.length) ∧
        splice dst dstOffset ((src.drop srcOffset).take size) = result := by
  unfold copyRange
  split
  · rename_i inside
    rw [Option.some_inj, and_iff_right inside]
  · rename_i outside
    exact iff_of_false nofun fun h => outside h.1

end PulseEngine.Library

/-!
## Places of a grid

The rows of a grid one after the other: a place is its row times the width, plus its column.
-/

namespace PulseEngine.Library

variable {w h x x' y y' : ℕ}

lemma place_lt (hx : x < w) (hy : y < h) : y * w + x < h * w := by
  have hle : (y + 1) * w ≤ h * w := Nat.mul_le_mul_right w hy
  rw [Nat.succ_mul] at hle
  omega

lemma place_inj (hx : x < w) (hx' : x' < w) : y * w + x = y' * w + x' ↔ x = x' ∧ y = y' := by
  constructor
  · intro heq
    have hmod := congrArg (· % w) heq
    simp only [Nat.mul_add_mod_self_right, Nat.mod_eq_of_lt hx, Nat.mod_eq_of_lt hx'] at hmod
    subst hmod
    exact ⟨rfl, Nat.eq_of_mul_eq_mul_right (Nat.zero_lt_of_lt hx) (Nat.add_right_cancel heq)⟩
  · rintro ⟨rfl, rfl⟩
    rfl

end PulseEngine.Library
