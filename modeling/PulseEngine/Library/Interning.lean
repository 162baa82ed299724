import Mathlib.Data.List.Nodup
import Mathlib.Logic.Function.Basic
import Mathlib.Tactic

/-!
# Numbering by first occurrence

The keys of a list are numbered in the order in which they occur first. A key that was seen gets its number again;
a new one gets the next number, and a value is made for it, which may fail. The numbers are given in a type of their
own, in which two of them may be the same.
-/

namespace PulseEngine.Library

variable {K V N : Type*}

lemma exists_of_forall₂ {α β : Type*} {R : α → β → Prop} {xs : List α} {ys : List β} {j : ℕ} {y : β}
    (h : List.Forall₂ R xs ys) (hy : ys[j]? = some y) : ∃ x, xs[j]? = some x ∧ R x y := by
  obtain ⟨hj, rfl⟩ := List.getElem?_eq_some_iff.mp hy
  have hx : j < xs.length := h.length_eq ▸ hj
  exact ⟨xs.get ⟨j, hx⟩, List.getElem?_eq_getElem hx, h.get hx hj⟩

/-- The values by number, the numbers of the keys that were seen, and the numbers that were given. -/
structure Interning (K V N : Type*) where
  items : List V := []
  number : K → Option N := fun _ => none
  given : List N := []

namespace Interning

variable {name : ℕ → N} {make : K → Option V} {s s' : Interning K V N} {k : K} {keys origins : List K}

/-- What is known after some keys: `origins` are the keys that were numbered, each once. -/
structure Interned (name : ℕ → N) (make : K → Option V) (keys origins : List K) (s : Interning K V N) : Prop where
  nodup : origins.Nodup
  mem_iff : ∀ k, k ∈ origins ↔ k ∈ keys
  made : origins.map make = s.items.map some
  number : ∀ k, s.number k = none ∧ k ∉ origins ∨ ∃ i, origins[i]? = some k ∧ s.number k = some (name i)
  given : List.Forall₂ (fun n k => ∃ i, origins[i]? = some k ∧ n = name i) s.given keys

lemma interned_nil : Interned name make [] [] ({} : Interning K V N) :=
  ⟨.nil, fun _ => Iff.rfl, rfl, fun _ => Or.inl ⟨rfl, List.not_mem_nil⟩, .nil⟩

lemma Interned.length_items (h : Interned name make keys origins s) : s.items.length = origins.length := by
  have := congrArg List.length h.made
  rw [List.length_map, List.length_map] at this
  exact this.symm

lemma Interned.length_le (h : Interned name make keys origins s) : s.items.length ≤ keys.length := by
  rw [h.length_items]
  exact (h.nodup.subperm fun k hk => (h.mem_iff k).mp hk).length_le

lemma Interned.item {i : ℕ} (h : Interned name make keys origins s) (hi : origins[i]? = some k) :
    s.items[i]? = make k := by
  have hmade := congrArg (·[i]?) h.made
  simp only [List.getElem?_map, hi, Option.map_some] at hmade
  cases hitem : s.items[i]? with
  | none =>
    rw [hitem] at hmade
    cases hmade
  | some v =>
    rw [hitem] at hmade
    exact (Option.some.inj hmade).symm

lemma given_append {given : List N} {more : List K}
    (h : List.Forall₂ (fun n k => ∃ i, origins[i]? = some k ∧ n = name i) given keys) :
    List.Forall₂ (fun n k => ∃ i, (origins ++ more)[i]? = some k ∧ n = name i) given keys :=
  h.imp fun _ _ ⟨i, hi, hn⟩ =>
    ⟨i, (List.getElem?_append_left (List.getElem?_eq_some_iff.mp hi).1).trans hi, hn⟩

variable [DecidableEq K]

def intern (name : ℕ → N) (make : K → Option V) (s : Interning K V N) (k : K) : Option (Interning K V N) :=
  match s.number k with
  | some n => some { s with given := s.given ++ [n] }
  | none => (make k).map fun v =>
    { items := s.items ++ [v]
      number := Function.update s.number k (some (name s.items.length))
      given := s.given ++ [name s.items.length] }

lemma Interned.intern (h : Interned name make keys origins s) (hs : s.intern name make k = some s') :
    ∃ origins', Interned name make (keys ++ [k]) origins' s' := by
  unfold Interning.intern at hs
  rcases h.number k with ⟨hnone, hnew⟩ | ⟨i, hi, hsome⟩
  · rw [hnone] at hs
    obtain ⟨v, hv, rfl⟩ := Option.map_eq_some_iff.mp hs
    have hlast : (origins ++ [k])[origins.length]? = some k := List.getElem?_concat_length ..
    refine ⟨origins ++ [k], ?_, ?_, ?_, fun k' => ?_, ?_⟩
    · exact List.nodup_append.mpr ⟨h.nodup, List.nodup_singleton k, fun a ha b hb hab =>
        hnew (List.mem_singleton.mp hb ▸ hab ▸ ha)⟩
    · intro k'
      rw [List.mem_append, List.mem_append, h.mem_iff]
    · rw [List.map_append, List.map_append, h.made, List.map_singleton, List.map_singleton, hv]
    · rw [h.length_items]
      by_cases heq : k' = k
      · subst heq
        exact Or.inr ⟨origins.length, hlast, Function.update_self ..⟩
      · simp only [Function.update_of_ne heq]
        refine (h.number k').imp (fun hk => ⟨hk.1, ?_⟩) fun ⟨i, hi, hn⟩ => ⟨i, ?_, hn⟩
        · rw [List.mem_append, List.mem_singleton]
          exact fun hor => hor.elim hk.2 heq
        · exact (List.getElem?_append_left (List.getElem?_eq_some_iff.mp hi).1).trans hi
    · refine List.rel_append (given_append h.given) (.cons ?_ .nil)
      exact ⟨origins.length, hlast, by rw [h.length_items]⟩
  · rw [hsome] at hs
    cases hs
    refine ⟨origins, h.nodup, fun k' => ?_, h.made, h.number, List.rel_append h.given (.cons ⟨i, hi, rfl⟩ .nil)⟩
    rw [List.mem_append, List.mem_singleton, h.mem_iff, iff_self_or]
    rintro rfl
    exact (h.mem_iff k').mp (List.mem_of_getElem? hi)

/-- **All keys are numbered**, from what is known already. -/
theorem Interned.run {more : List K} (h : Interned name make keys origins s)
    (hs : more.foldlM (Interning.intern name make) s = some s') :
    ∃ origins', Interned name make (keys ++ more) origins' s' := by
  induction more generalizing keys origins s with
  | nil =>
    cases hs
    exact ⟨origins, by rwa [List.append_nil]⟩
  | cons k more ih =>
    rw [List.foldlM_cons, Option.bind_eq_bind, Option.bind_eq_some_iff] at hs
    obtain ⟨s₁, hk, hs⟩ := hs
    obtain ⟨origins₁, h₁⟩ := h.intern hk
    obtain ⟨origins', h'⟩ := ih h₁ hs
    exact ⟨origins', by rwa [List.append_assoc] at h'⟩

lemma intern_isSome (h : Interned name make keys origins s) (hk : (make k).isSome) :
    ∃ s', s.intern name make k = some s' := by
  unfold Interning.intern
  obtain ⟨v, hv⟩ := Option.isSome_iff_exists.mp hk
  rcases h.number k with ⟨hnone, -⟩ | ⟨i, -, hsome⟩
  · rw [hnone, hv]
    exact ⟨_, rfl⟩
  · rw [hsome]
    exact ⟨_, rfl⟩

/-- **When all keys can be numbered**: when a value can be made for each of them. -/
theorem run_isSome_iff : (∃ s', keys.foldlM (Interning.intern name make) ({} : Interning K V N) = some s') ↔
    ∀ k ∈ keys, (make k).isSome := by
  constructor
  · rintro ⟨s', hs⟩ k hk
    obtain ⟨origins, h⟩ := interned_nil.run hs
    rw [List.nil_append] at h
    have hmem := List.mem_map_of_mem (f := make) ((h.mem_iff k).mpr hk)
    rw [h.made] at hmem
    obtain ⟨v, -, hv⟩ := List.mem_map.mp hmem
    rw [← hv]
    rfl
  · have hrun : ∀ (seen origins more : List K) (s : Interning K V N), Interned name make seen origins s →
        (∀ k ∈ more, (make k).isSome) → ∃ s', more.foldlM (Interning.intern name make) s = some s' := by
      intro seen origins more
      induction more generalizing seen origins with
      | nil => exact fun s _ _ => ⟨s, rfl⟩
      | cons k more ih =>
        intro s h hall
        obtain ⟨s₁, hs₁⟩ := intern_isSome h (hall k (List.mem_cons_self ..))
        obtain ⟨origins₁, h₁⟩ := h.intern hs₁
        obtain ⟨s', hs'⟩ := ih _ _ _ h₁ fun k hk => hall k (List.mem_cons_of_mem _ hk)
        exact ⟨s', by rw [List.foldlM_cons, hs₁]; exact hs'⟩
    exact hrun [] [] keys {} interned_nil

end Interning

end PulseEngine.Library
