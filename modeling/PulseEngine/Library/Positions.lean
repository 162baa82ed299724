import Mathlib.Tactic

/-!
# Where a value stands in a list

The positions of a value, counted from a number, in ascending order. They are a range of numbers exactly when the value
stands together: when nothing else stands between two of them.
-/

namespace PulseEngine.Library

variable {α : Type} [DecidableEq α]

def positionsFrom (a : α) : ℕ → List α → List ℕ
  | _, [] => []
  | n, x :: xs => if x = a then n :: positionsFrom a (n + 1) xs else positionsFrom a (n + 1) xs

def Together (xs : List α) : Prop :=
  ∀ (i j k : ℕ) (a : α), i < j → j < k → xs[i]? = some a → xs[k]? = some a → xs[j]? = some a

variable {a : α} {n p : ℕ} {xs ys : List α}

lemma mem_positionsFrom : p ∈ positionsFrom a n xs ↔ n ≤ p ∧ xs[p - n]? = some a := by
  induction xs generalizing n with
  | nil =>
    rw [positionsFrom, List.getElem?_nil]
    constructor
    · intro h
      cases h
    · rintro ⟨-, h⟩
      cases h
  | cons x xs ih =>
    have rest : p ∈ positionsFrom a (n + 1) xs ↔ n + 1 ≤ p ∧ (x :: xs)[p - n]? = some a := by
      rw [ih]
      refine and_congr_right fun le => ?_
      rw [show p - n = p - (n + 1) + 1 by omega, List.getElem?_cons_succ]
    rw [positionsFrom]
    split
    · rename_i eq
      rw [List.mem_cons, rest]
      constructor
      · rintro (rfl | ⟨le, h⟩)
        · rw [Nat.sub_self, List.getElem?_cons_zero, eq]
          exact ⟨le_rfl, rfl⟩
        · exact ⟨by omega, h⟩
      · rintro ⟨le, h⟩
        rcases Nat.eq_or_lt_of_le le with rfl | lt
        · exact .inl rfl
        · exact .inr ⟨lt, h⟩
    · rename_i ne
      rw [rest]
      refine ⟨fun ⟨le, h⟩ => ⟨by omega, h⟩, fun ⟨le, h⟩ => ⟨?_, h⟩⟩
      rcases Nat.eq_or_lt_of_le le with rfl | lt
      · rw [Nat.sub_self, List.getElem?_cons_zero] at h
        exact absurd (Option.some.inj h) ne
      · exact lt

lemma positionsFrom_pairwise : (positionsFrom a n xs).Pairwise (· < ·) := by
  induction xs generalizing n with
  | nil => exact .nil
  | cons x xs ih =>
    rw [positionsFrom]
    split
    · exact .cons (fun p hp => (mem_positionsFrom.mp hp).1) ih
    · exact ih

lemma length_positionsFrom [BEq α] [LawfulBEq α] : (positionsFrom a n xs).length = xs.count a := by
  induction xs generalizing n with
  | nil => rfl
  | cons x xs ih =>
    rw [positionsFrom, List.count_cons]
    split
    · rename_i eq
      rw [List.length_cons, ih, if_pos (beq_iff_eq.mpr eq)]
    · rename_i ne
      rw [ih, if_neg (fun eq => ne (beq_iff_eq.mp eq)), Nat.add_zero]

lemma eq_range'_of_convex {ps : List ℕ} (sorted : ps.Pairwise (· < ·))
    (convex : ∀ p q r, p ∈ ps → q ∈ ps → p < r → r < q → r ∈ ps) :
    ps = List.range' (ps.head?.getD 0) ps.length := by
  induction ps with
  | nil => rfl
  | cons p ps ih =>
    obtain ⟨below, sorted⟩ := List.pairwise_cons.mp sorted
    have rest := ih sorted fun q r t hq hr lt lt' => by
      rcases List.mem_cons.mp (convex q r t (List.mem_cons_of_mem p hq) (List.mem_cons_of_mem p hr) lt lt') with rfl | h
      · exact absurd (below q hq) (Nat.lt_asymm lt)
      · exact h
    cases ps with
    | nil => rfl
    | cons q ps =>
      have lt := below q List.mem_cons_self
      have next : q = p + 1 := by
        by_contra ne
        rcases List.mem_cons.mp (convex p q (p + 1) List.mem_cons_self (by simp) (by omega) (by omega)) with h | h
        · omega
        · rcases List.mem_cons.mp h with h | h
          · omega
          · have above := (List.pairwise_cons.mp sorted).1 _ h
            omega
      subst next
      rw [List.head?_cons, Option.getD_some] at rest ⊢
      rw [List.length_cons, List.range'_succ, ← rest]

/-- **A value stands together** when its positions are a range. -/
theorem together_iff : Together xs ↔
    ∀ a, positionsFrom a n xs = List.range' ((positionsFrom a n xs).head?.getD 0) (positionsFrom a n xs).length := by
  constructor
  · intro together a
    refine eq_range'_of_convex positionsFrom_pairwise fun p q r hp hq lt lt' => ?_
    obtain ⟨le, hp⟩ := mem_positionsFrom.mp hp
    obtain ⟨-, hq⟩ := mem_positionsFrom.mp hq
    exact mem_positionsFrom.mpr ⟨by omega, together (p - n) (r - n) (q - n) a (by omega) (by omega) hp hq⟩
  · intro ranges i j k a lt lt' hi hk
    have mem : ∀ l, xs[l]? = some a → n + l ∈ positionsFrom a n xs := fun l hl =>
      mem_positionsFrom.mpr ⟨Nat.le_add_right n l, by rwa [Nat.add_sub_cancel_left]⟩
    have hi := mem i hi
    have hk := mem k hk
    rw [ranges a, List.mem_range'_1] at hi hk
    have hj : n + j ∈ positionsFrom a n xs := by
      rw [ranges a, List.mem_range'_1]
      omega
    have hj := (mem_positionsFrom.mp hj).2
    rwa [Nat.add_sub_cancel_left] at hj

end PulseEngine.Library
