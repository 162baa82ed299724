import Mathlib.Tactic

/-!
# Binary search and sorting by a key

`lowerBound` halves a range until it is empty. On an ascending list it is where the values are no longer below
the one that is sought; on any other list it is some place. `StdSort` is what a sort by a key promises: the same
things, in ascending order of their keys; the order of equal keys is open.
-/

namespace PulseEngine.Library

variable {α : Type} {xs : List ℕ} {a : ℕ}

/-- The loop of a binary search over the `count` values from `first` on. -/
def lowerBoundFrom (xs : List ℕ) (a : ℕ) : ℕ → ℕ → ℕ → ℕ
  | 0, first, _ => first
  | fuel + 1, first, count =>
    if count = 0 then first
    else if xs.getD (first + count / 2) 0 < a then
      lowerBoundFrom xs a fuel (first + count / 2 + 1) (count - (count / 2 + 1))
    else lowerBoundFrom xs a fuel first (count / 2)

def lowerBound (xs : List ℕ) (a : ℕ) : ℕ := lowerBoundFrom xs a xs.length 0 xs.length

def binarySearch (xs : List ℕ) (a : ℕ) : Option ℕ :=
  if xs[lowerBound xs a]? = some a then some (lowerBound xs a) else none

lemma getD_of_lt {xs : List α} {d : α} {i : ℕ} (h : i < xs.length) : xs.getD i d = xs[i] := by
  rw [List.getD_eq_getElem?_getD, List.getElem?_eq_getElem h, Option.getD_some]

lemma getD_le_getD (ascending : xs.Pairwise (· ≤ ·)) {i j : ℕ} (hij : i ≤ j) (hj : j < xs.length) :
    xs.getD i 0 ≤ xs.getD j 0 := by
  rw [getD_of_lt (hij.trans_lt hj), getD_of_lt hj]
  rcases Nat.lt_or_eq_of_le hij with hlt | rfl
  · exact List.pairwise_iff_getElem.mp ascending i j _ hj hlt
  · exact le_rfl

/-- **Binary search**: on an ascending list the values in front are below `a`, the others are not. -/
lemma lowerBoundFrom_spec (ascending : xs.Pairwise (· ≤ ·)) {fuel first count : ℕ} (hfuel : count ≤ fuel)
    (hend : first + count ≤ xs.length) (below : ∀ i < first, xs.getD i 0 < a)
    (above : ∀ i, first + count ≤ i → i < xs.length → a ≤ xs.getD i 0) :
    (∀ i < lowerBoundFrom xs a fuel first count, xs.getD i 0 < a) ∧
      ∀ i, lowerBoundFrom xs a fuel first count ≤ i → i < xs.length → a ≤ xs.getD i 0 := by
  induction fuel generalizing first count with
  | zero =>
    obtain rfl : count = 0 := by omega
    exact ⟨below, above⟩
  | succ fuel ih =>
    rw [lowerBoundFrom]
    by_cases hnone : count = 0
    · subst hnone
      rw [if_pos rfl]
      exact ⟨below, above⟩
    · rw [if_neg hnone]
      by_cases hless : xs.getD (first + count / 2) 0 < a
      · rw [if_pos hless]
        refine ih (by omega) (by omega) (fun i hi => ?_) fun i hi => above i (by omega)
        exact (getD_le_getD ascending (by omega) (by omega)).trans_lt hless
      · rw [if_neg hless]
        refine ih (by omega) (by omega) below fun i hi hlt => ?_
        exact (not_lt.mp hless).trans (getD_le_getD ascending hi hlt)

/-- **A value is found** where it stands, if the values are distinct and ascending. -/
theorem binarySearch_eq (ascending : xs.Pairwise (· < ·)) {i : ℕ} (hi : xs[i]? = some a) :
    binarySearch xs a = some i := by
  obtain ⟨below, above⟩ := lowerBoundFrom_spec (a := a) (ascending.imp le_of_lt) le_rfl
    (Nat.zero_add xs.length).le nofun (fun i hge hlt => absurd hge (by omega))
  have hlt : i < xs.length := (List.getElem?_eq_some_iff.mp hi).1
  have hget : xs.getD i 0 = a := by rw [List.getD_eq_getElem?_getD, hi, Option.getD_some]
  have heq : lowerBound xs a = i := by
    rcases Nat.lt_trichotomy (lowerBound xs a) i with hless | heq | hmore
    · have hge := above (lowerBound xs a) le_rfl (hless.trans hlt)
      have hstrict := List.pairwise_iff_getElem.mp ascending _ _ (hless.trans hlt) hlt hless
      rw [← getD_of_lt (d := 0), ← getD_of_lt (d := 0), hget] at hstrict
      exact absurd hge (not_le.mpr hstrict)
    · exact heq
    · exact absurd hget (below i hmore).ne
  rw [binarySearch, heq, if_pos hi]

structure StdSort where
  sortBy : {α : Type} → (α → ℕ) → List α → List α
  perm : ∀ {α : Type} (key : α → ℕ) (xs : List α), (sortBy key xs).Perm xs
  ascending : ∀ {α : Type} (key : α → ℕ) (xs : List α), (sortBy key xs).Pairwise (key · ≤ key ·)

def StdSort.insertion : StdSort where
  sortBy key xs := xs.insertionSort (key · ≤ key ·)
  perm key xs := List.perm_insertionSort _ xs
  ascending key xs := by
    have : Std.Total (α := _) fun a b => key a ≤ key b := ⟨fun a b => le_total (key a) (key b)⟩
    have : IsTrans _ fun a b => key a ≤ key b := ⟨fun _ _ _ => le_trans⟩
    exact List.pairwise_insertionSort _ xs

lemma StdSort.perm_range (std : StdSort) (key : ℕ → ℕ) (xs : List α) (d : α) :
    ((std.sortBy key (List.range xs.length)).map fun i => xs.getD i d).Perm xs := by
  refine ((std.perm key _).map _).trans (.of_eq ?_)
  refine List.ext_getElem (by rw [List.length_map, List.length_range]) fun i _ hi => ?_
  rw [List.getElem_map, List.getElem_range, getD_of_lt hi]

end PulseEngine.Library
