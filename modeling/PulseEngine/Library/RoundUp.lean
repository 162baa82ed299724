import Mathlib.Data.Nat.Size
import Mathlib.Tactic

/-!
# Rounding up to a power of two

The highest bit of a number is spread over the bits below it: an or with the number shifted by 1 fills two
bits, one with that shifted by 2 fills four, and so on. What is filled and one more is a power of two.
-/

namespace PulseEngine.Library

def spread (k n : ℕ) : ℕ := n ||| n >>> k

variable {k n s : ℕ}

/-- No bit from `s` on is set, and the `k` bits below are. -/
structure Filled (s k n : ℕ) : Prop where
  high : ∀ i, s ≤ i → n.testBit i = false
  low : ∀ i < s, s ≤ i + k → n.testBit i = true

lemma Filled.size (h : n ≠ 0) : Filled n.size 1 n := by
  refine ⟨fun i hi => Nat.testBit_lt_two_pow (Nat.size_le.mp hi), fun i lt le => ?_⟩
  have hlog : n.size = n.log2 + 1 := by
    refine le_antisymm (Nat.size_le.mpr Nat.lt_log2_self) ?_
    exact Nat.lt_size.mpr (Nat.log2_self_le h)
  obtain rfl : i = n.log2 := by omega
  exact Nat.testBit_log2 h

lemma Filled.spread (h : Filled s k n) : Filled s (2 * k) (spread k n) := by
  refine ⟨fun i hi => ?_, fun i lt le => ?_⟩
  · rw [Library.spread, Nat.testBit_or, Nat.testBit_shiftRight, h.high i hi,
      h.high (k + i) (hi.trans (Nat.le_add_left i k)), Bool.or_false]
  · rw [Library.spread, Nat.testBit_or, Nat.testBit_shiftRight, Bool.or_eq_true]
    rcases Nat.lt_or_ge (i + k) s with short | long
    · exact Or.inr (h.low (k + i) (by omega) (by omega))
    · exact Or.inl (h.low i lt long)

lemma Filled.eq (h : Filled s k n) (le : s ≤ k) : n + 1 = 2 ^ s := by
  have bits : n = 2 ^ s - 1 := by
    refine Nat.eq_of_testBit_eq fun i => ?_
    rw [Nat.testBit_two_pow_sub_one]
    rcases Nat.lt_or_ge i s with lt | ge
    · rw [h.low i lt (le.trans (Nat.le_add_left k i)), decide_eq_true lt]
    · rw [h.high i ge, decide_eq_false (Nat.not_lt.mpr ge)]
  rw [bits, Nat.sub_add_cancel Nat.one_le_two_pow]

def fillBits (n : ℕ) : ℕ := spread 16 (spread 8 (spread 4 (spread 2 (spread 1 n))))

/-- **Five steps fill 32 bits.** -/
theorem fillBits_add_one (h : n < 2 ^ 32) : fillBits n + 1 = 2 ^ n.size := by
  rcases eq_or_ne n 0 with rfl | ne
  · rfl
  · have filled : Filled n.size 32 (fillBits n) := (Filled.size ne).spread.spread.spread.spread.spread
    exact filled.eq (Nat.size_le.mpr h)

end PulseEngine.Library
