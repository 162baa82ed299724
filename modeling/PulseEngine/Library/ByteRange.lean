import Mathlib.Tactic

/-!
# Ranges of bytes

A range is an offset and a size. Two ranges are apart when no byte is in both. Of ranges in ascending order of
their offsets, two are apart exactly when the first one ends where the second one begins, or before.
-/

namespace PulseEngine.Library

structure ByteRange where
  offset : ℕ
  size : ℕ
  deriving DecidableEq, Repr

namespace ByteRange

def stop (r : ByteRange) : ℕ := r.offset + r.size

def Holds (r : ByteRange) (i : ℕ) : Prop := r.offset ≤ i ∧ i < r.stop

instance (r : ByteRange) (i : ℕ) : Decidable (r.Holds i) := inferInstanceAs (Decidable (_ ∧ _))

def Apart (r s : ByteRange) : Prop := ∀ i, r.Holds i → ¬ s.Holds i

variable {r s : ByteRange}

lemma Apart.symm (h : r.Apart s) : s.Apart r := fun i hs hr => h i hr hs

def Inside (r s : ByteRange) : Prop := s.offset ≤ r.offset ∧ r.stop ≤ s.stop

lemma Inside.holds (h : r.Inside s) {i : ℕ} (hi : r.Holds i) : s.Holds i :=
  ⟨h.1.trans hi.1, hi.2.trans_le h.2⟩

lemma Apart.mono {r' s' : ByteRange} (h : r.Apart s) (hr : r'.Inside r) (hs : s'.Inside s) : r'.Apart s' :=
  fun i hi hi' => h i (hr.holds hi) (hs.holds hi')

lemma apart_of_le (h : r.stop ≤ s.offset) : r.Apart s := fun _ hr hs =>
  absurd (hr.2.trans_le (h.trans hs.1)) (lt_irrefl _)

lemma le_of_apart (h : r.Apart s) (hs : s.size ≠ 0) (le : r.offset ≤ s.offset) : r.stop ≤ s.offset := by
  by_contra hlt
  exact h s.offset ⟨le, not_le.mp hlt⟩ ⟨le_rfl, Nat.lt_add_of_pos_right (Nat.pos_of_ne_zero hs)⟩

lemma apart_iff_of_le (hs : s.size ≠ 0) (le : r.offset ≤ s.offset) : r.Apart s ↔ r.stop ≤ s.offset :=
  ⟨fun h => le_of_apart h hs le, apart_of_le⟩

end ByteRange

end PulseEngine.Library
