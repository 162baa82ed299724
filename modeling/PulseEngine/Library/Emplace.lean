import Mathlib.Logic.Function.Basic
import Mathlib.Tactic

/-!
# Maps that keep the first value

A finite map as a function into `Option`, with the insertion that leaves a key alone that is there
already, and the removal of every key with a given value.
-/

namespace PulseEngine.Library

variable {κ α : Type*} [DecidableEq κ]

def emplace (m : κ → Option α) (k : κ) (a : α) : κ → Option α :=
  match m k with
  | some _ => m
  | none => Function.update m k (some a)

def eraseValue [DecidableEq α] (m : κ → Option α) (a : α) : κ → Option α :=
  fun k => if m k = some a then none else m k

lemma emplace_of_isSome {m : κ → Option α} {k : κ} (h : (m k).isSome) (a : α) :
    emplace m k a = m := by
  unfold emplace
  cases hk : m k with
  | none => rw [hk] at h; cases h
  | some _ => rfl

lemma emplace_of_none {m : κ → Option α} {k : κ} (h : m k = none) (a : α) :
    emplace m k a = Function.update m k (some a) := by
  unfold emplace
  rw [h]

lemma emplace_ne {k k' : κ} (h : k' ≠ k) (m : κ → Option α) (a : α) :
    emplace m k a k' = m k' := by
  unfold emplace
  cases m k with
  | none => exact Function.update_of_ne h _ _
  | some _ => rfl

lemma emplace_self_isSome (m : κ → Option α) (k : κ) (a : α) : (emplace m k a k).isSome := by
  cases hk : m k with
  | none => rw [emplace_of_none hk, Function.update_self]; rfl
  | some b => rw [emplace_of_isSome (by simp [hk]), hk]; rfl

lemma eq_or_eq_of_emplace {m : κ → Option α} {k k' : κ} {a b : α} (h : emplace m k a k' = some b) :
    m k' = some b ∨ b = a := by
  cases hk : m k with
  | some old =>
    rw [emplace_of_isSome (by rw [hk]; rfl)] at h
    exact .inl h
  | none =>
    rw [emplace_of_none hk] at h
    by_cases same : k' = k
    · subst same
      rw [Function.update_self] at h
      exact .inr (Option.some.inj h).symm
    · rw [Function.update_of_ne same] at h
      exact .inl h

lemma emplace_self_eq_iff {m : κ → Option α} {k : κ} {a : α} (new : m k ≠ some a) :
    emplace m k a k = some a ↔ m k = none := by
  cases hk : m k with
  | none => simp [emplace_of_none hk]
  | some b =>
    rw [emplace_of_isSome (by simp [hk]), hk]
    simpa [hk] using new

lemma eraseValue_emplace [DecidableEq α] {m : κ → Option α} {a : α} (new : ∀ k, m k ≠ some a)
    (k : κ) : eraseValue (emplace m k a) a = m := by
  funext k'
  unfold eraseValue
  cases hk : m k with
  | none =>
    rw [emplace_of_none hk]
    by_cases h : k' = k
    · subst h
      rw [Function.update_self, if_pos rfl, hk]
    · rw [Function.update_of_ne h, if_neg (new k')]
  | some _ =>
    rw [emplace_of_isSome (by simp [hk]), if_neg (new k')]

def emplaceAll (m : κ → Option Nat) : Nat → List κ → Option (κ → Option Nat)
  | _, [] => some m
  | n, k :: ks =>
    match m k with
    | some _ => none
    | none => emplaceAll (emplace m k n) (n + 1) ks

lemma emplaceAll_cons_of_none {m : κ → Option Nat} {k : κ} {n : Nat} {ks : List κ} (h : m k = none) :
    emplaceAll m n (k :: ks) = emplaceAll (emplace m k n) (n + 1) ks := by
  rw [emplaceAll, h]

lemma emplaceAll_isSome : ∀ {ks : List κ} {m : κ → Option Nat} {n : Nat},
    (emplaceAll m n ks).isSome ↔ ks.Nodup ∧ ∀ k ∈ ks, m k = none := by
  intro ks
  induction ks with
  | nil => simp [emplaceAll]
  | cons k ks ih =>
    intro m n
    unfold emplaceAll
    cases hk : m k with
    | some a => simp [hk]
    | none =>
      have hother : (∀ k' ∈ ks, emplace m k n k' = none) ↔ k ∉ ks ∧ ∀ k' ∈ ks, m k' = none := by
        constructor
        · intro h
          refine ⟨fun hm => ?_, fun k' hk' => ?_⟩
          · have hsome := emplace_self_isSome m k n
            rw [h k hm] at hsome
            cases hsome
          · by_cases he : k' = k
            · exact he ▸ hk
            · rw [← emplace_ne he m n]
              exact h k' hk'
        · rintro ⟨hnot, hm⟩ k' hk'
          have hne : k' ≠ k := by
            rintro rfl
            exact hnot hk'
          rw [emplace_ne hne]
          exact hm k' hk'
      simp only [ih, hother, List.nodup_cons, List.forall_mem_cons, hk, true_and]
      tauto

lemma emplaceAll_eq_some_iff {ks : List κ} {m m' : κ → Option Nat} {n : Nat} (h : emplaceAll m n ks = some m') (k : κ)
    (i : Nat) : m' k = some i ↔ m k = some i ∨ ∃ j, ks[j]? = some k ∧ i = n + j := by
  induction ks generalizing m n with
  | nil =>
    cases h
    simp
  | cons k₀ ks ih =>
    unfold emplaceAll at h
    split at h
    · cases h
    · rename_i new
      have later : (∃ j, (k₀ :: ks)[j]? = some k ∧ i = n + j) ↔
          k₀ = k ∧ i = n ∨ ∃ j, ks[j]? = some k ∧ i = n + 1 + j := by
        constructor
        · rintro ⟨_ | j, at_j, rfl⟩
          · exact .inl ⟨Option.some.inj at_j, rfl⟩
          · exact .inr ⟨j, at_j, by omega⟩
        · rintro (⟨rfl, rfl⟩ | ⟨j, at_j, rfl⟩)
          · exact ⟨0, rfl, rfl⟩
          · exact ⟨j + 1, at_j, by omega⟩
      rw [ih h, later, ← or_assoc]
      refine or_congr_left ?_
      by_cases same : k = k₀
      · subst same
        rw [emplace_of_none new, Function.update_self, new]
        simp [eq_comm]
      · rw [emplace_ne same]
        exact (or_iff_left fun first => same first.1.symm).symm

end PulseEngine.Library

/-!
## Two tables that name each other

Two partial functions are inverse to each other when the one leads from `a` to `b` exactly when the
other leads back. Such a pair is changed at both ends at once: a new pair is linked, or the two ends
of a pair are cleared.
-/

namespace PulseEngine.Library

variable {α β : Type*} {f f' : α → Option β} {g g' : β → Option α} {a a' : α} {b : β}

def Inverse (f : α → Option β) (g : β → Option α) : Prop := ∀ a b, f a = some b ↔ g b = some a

lemma Inverse.injective (h : Inverse f g) (fa : f a = some b) (fa' : f a' = some b) : a = a' := by
  have ga := (h a b).mp fa
  rw [(h a' b).mp fa'] at ga
  exact (Option.some.inj ga).symm

lemma Inverse.symm (h : Inverse f g) : Inverse g f := fun b a => (h a b).symm

lemma Inverse.congr (h : Inverse f g) (left : ∀ a, f' a = f a) (right : ∀ b, g' b = g b) :
    Inverse f' g' := by
  intro a b
  rw [left, right]
  exact h a b

lemma Inverse.link [DecidableEq α] [DecidableEq β] (h : Inverse f g) (free : f a = none)
    (new : g b = none) : Inverse (Function.update f a (some b)) (Function.update g b (some a)) := by
  intro x y
  by_cases ex : x = a
  · subst ex
    rw [Function.update_self]
    by_cases ey : y = b
    · subst ey
      simp
    · rw [Function.update_of_ne ey, ← h x y, free]
      simpa using fun e : b = y => ey e.symm
  · rw [Function.update_of_ne ex]
    by_cases ey : y = b
    · subst ey
      rw [Function.update_self, h, new]
      simpa using fun e : a = x => ex e.symm
    · rw [Function.update_of_ne ey]
      exact h x y

lemma Inverse.unlink [DecidableEq α] [DecidableEq β] (h : Inverse f g) (linked : f a = some b) :
    Inverse (Function.update f a none) (Function.update g b none) := by
  intro x y
  by_cases ex : x = a
  · subst ex
    rw [Function.update_self]
    by_cases ey : y = b
    · subst ey
      simp
    · rw [Function.update_of_ne ey, ← h x y, linked]
      simpa using fun e : b = y => ey e.symm
  · rw [Function.update_of_ne ex]
    by_cases ey : y = b
    · subst ey
      rw [Function.update_self, h, (h a y).mp linked]
      simpa using fun e : a = x => ex e.symm
    · rw [Function.update_of_ne ey]
      exact h x y

lemma Inverse.restrict {p : α → Prop} {q : β → Prop} [DecidablePred p] [DecidablePred q]
    (h : Inverse f g) (same : ∀ a b, f a = some b → (p a ↔ q b)) :
    Inverse (fun a => if p a then none else f a) (fun b => if q b then none else g b) := by
  intro x y
  by_cases fx : f x = some y
  · have gy := (h x y).mp fx
    by_cases px : p x
    · simp [px, (same x y fx).mp px]
    · have qy : ¬ q y := fun qy => px ((same x y fx).mpr qy)
      simp [px, qy, fx, gy]
  · have gy : g y ≠ some x := fun gy => fx ((h x y).mpr gy)
    by_cases px : p x <;> by_cases qy : q y <;> simp [px, qy, fx, gy]

end PulseEngine.Library
