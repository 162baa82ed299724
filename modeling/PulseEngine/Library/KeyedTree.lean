import Mathlib.Tactic

/-!
# Trees with keys

A tree whose children have keys. `override` puts the entries of a second tree into the first one: key by key where
both sides are objects, and as a whole everywhere else.
-/

namespace PulseEngine.Library

variable {K V α β : Type*}

inductive KeyedTree (K V : Type*)
  | node (value : V) (children : List (K × KeyedTree K V))

namespace KeyedTree

def value : KeyedTree K V → V
  | .node value _ => value

def children : KeyedTree K V → List (K × KeyedTree K V)
  | .node _ children => children

mutual

/-- **Induction** over a tree and its children. -/
@[elab_as_elim]
theorem induction {motive : KeyedTree K V → Prop}
    (step : ∀ value children, (∀ child ∈ children, motive child.2) → motive (.node value children)) :
    ∀ t, motive t
  | .node value children => step value children (inductionAll step children)

theorem inductionAll {motive : KeyedTree K V → Prop}
    (step : ∀ value children, (∀ child ∈ children, motive child.2) → motive (.node value children)) :
    ∀ children : List (K × KeyedTree K V), ∀ child ∈ children, motive child.2
  | [], _, mem => nomatch mem
  | (_, t) :: _, _, .head _ => induction step t
  | _ :: children, child, .tail _ mem => inductionAll step children child mem

end

mutual

def height : KeyedTree K V → ℕ
  | .node _ children => heights children + 1

def heights : List (K × KeyedTree K V) → ℕ
  | [] => 0
  | (_, t) :: children => max t.height (heights children)

end

mutual

def Keys (P : K → Prop) : KeyedTree K V → Prop
  | .node _ children => KeysAll P children

def KeysAll (P : K → Prop) : List (K × KeyedTree K V) → Prop
  | [] => True
  | (key, t) :: children => (P key ∧ t.Keys P) ∧ KeysAll P children

end

lemma keysAll_iff {P : K → Prop} {children : List (K × KeyedTree K V)} :
    KeysAll P children ↔ ∀ child ∈ children, P child.1 ∧ child.2.Keys P := by
  induction children with
  | nil => exact iff_of_true trivial (List.forall_mem_nil _)
  | cons child children ih => rw [KeysAll, ih, List.forall_mem_cons]

lemma heights_le {children : List (K × KeyedTree K V)} {n : ℕ} :
    heights children ≤ n ↔ ∀ child ∈ children, child.2.height ≤ n := by
  induction children with
  | nil => exact iff_of_true (Nat.zero_le n) (List.forall_mem_nil _)
  | cons child children ih => rw [heights, max_le_iff, ih, List.forall_mem_cons]

end KeyedTree

section Entries

variable [DecidableEq K]

def put (key : K) (x : α) : List (K × α) → List (K × α)
  | [] => [(key, x)]
  | entry :: rest => if entry.1 = key then (entry.1, x) :: rest else entry :: put key x rest

lemma put_of_mem {key : K} {x : α} {entries : List (K × α)} (mem : key ∈ entries.map Prod.fst) :
    (put key x entries).map Prod.fst = entries.map Prod.fst := by
  induction entries with
  | nil => exact absurd mem List.not_mem_nil
  | cons entry rest ih =>
    rw [put]
    split_ifs with here
    · rfl
    · rw [List.map_cons, List.map_cons, ih ((List.mem_cons.mp mem).resolve_left fun eq => here eq.symm)]

lemma put_of_not_mem {key : K} {x : α} {entries : List (K × α)} (absent : key ∉ entries.map Prod.fst) :
    put key x entries = entries ++ [(key, x)] := by
  induction entries with
  | nil => rfl
  | cons entry rest ih =>
    obtain ⟨ne, absent⟩ := not_or.mp fun mem => absent (List.mem_cons.mpr mem)
    rw [put, if_neg fun eq => ne eq.symm, ih absent]
    rfl

lemma mem_put {key k : K} {x : α} {entries : List (K × α)} :
    k ∈ (put key x entries).map Prod.fst ↔ k ∈ entries.map Prod.fst ∨ k = key := by
  by_cases mem : key ∈ entries.map Prod.fst
  · rw [put_of_mem mem]
    exact ⟨.inl, fun h => h.elim id fun eq => eq ▸ mem⟩
  · rw [put_of_not_mem mem, List.map_append, List.mem_append]
    exact or_congr_right List.mem_singleton

lemma lookup_put [BEq K] [LawfulBEq K] {key k : K} {x : α} {entries : List (K × α)} :
    (put key x entries).lookup k = if k = key then some x else entries.lookup k := by
  induction entries with
  | nil =>
    rw [put, List.lookup_cons]
    by_cases same : k = key
    · simp [same]
    · simp [same, beq_false_of_ne same]
  | cons entry rest ih =>
    obtain ⟨k', y⟩ := entry
    rw [put]
    by_cases here : k' = key
    · subst here
      rw [if_pos rfl, List.lookup_cons, List.lookup_cons]
      by_cases same : k = k'
      · simp [same]
      · simp [same, beq_false_of_ne same]
    · rw [if_neg here, List.lookup_cons, List.lookup_cons, ih]
      by_cases same : k = k'
      · subst same
        simp [here]
      · rw [beq_false_of_ne same]

lemma forall_mem_put {P : α → Prop} {key : K} {x : α} {entries : List (K × α)} (all : ∀ entry ∈ entries, P entry.2)
    (new : P x) : ∀ entry ∈ put key x entries, P entry.2 := by
  induction entries with
  | nil => exact List.forall_mem_singleton.mpr new
  | cons entry rest ih =>
    obtain ⟨first, all⟩ := List.forall_mem_cons.mp all
    rw [put]
    split_ifs
    · exact List.forall_mem_cons.mpr ⟨new, all⟩
    · exact List.forall_mem_cons.mpr ⟨first, ih all⟩

lemma forall₂_put {R : α → β → Prop} {key : K} {x : α} {y : β} {xs : List (K × α)} {ys : List (K × β)}
    (all : List.Forall₂ (fun a b => a.1 = b.1 ∧ R a.2 b.2) xs ys) (new : R x y) :
    List.Forall₂ (fun a b => a.1 = b.1 ∧ R a.2 b.2) (put key x xs) (put key y ys) := by
  induction all with
  | nil => exact .cons ⟨rfl, new⟩ .nil
  | @cons a b xs ys first rest ih =>
    rw [put, put, ← first.1]
    split_ifs
    · exact .cons ⟨first.1 ▸ rfl, new⟩ rest
    · exact .cons first ih

omit [DecidableEq K] in
lemma forall₂_lookup [BEq K] {R : α → β → Prop} (key : K) {xs : List (K × α)} {ys : List (K × β)}
    (all : List.Forall₂ (fun a b => a.1 = b.1 ∧ R a.2 b.2) xs ys) :
    (xs.lookup key = none ∧ ys.lookup key = none) ∨
      ∃ x y, xs.lookup key = some x ∧ ys.lookup key = some y ∧ R x y := by
  induction all with
  | nil => exact .inl ⟨rfl, rfl⟩
  | @cons a b xs ys first rest ih =>
    obtain ⟨k, x⟩ := a
    obtain ⟨k', y⟩ := b
    obtain ⟨rfl, agree⟩ := first
    rw [List.lookup_cons, List.lookup_cons]
    cases key == k with
    | true => exact .inr ⟨x, y, rfl, rfl, agree⟩
    | false => exact ih

end Entries

namespace KeyedTree

section Override

variable [DecidableEq K] [BEq K] (isObject : V → Bool) (cut : K → K)

mutual

def overrideBy (t : KeyedTree K V) : KeyedTree K V → KeyedTree K V
  | .node value children =>
    if isObject t.value && isObject value then .node t.value (overrideAll t.children children)
    else .node value children

def overrideAll : List (K × KeyedTree K V) → List (K × KeyedTree K V) → List (K × KeyedTree K V)
  | merged, [] => merged
  | merged, (key, t) :: entries =>
    overrideAll (put (cut key) (match merged.lookup (cut key) with
      | none => t
      | some old => overrideBy old t) merged) entries

end

def override (t : KeyedTree K V) : KeyedTree K V → KeyedTree K V := overrideBy isObject id t

variable {isObject cut}

lemma overrideBy_of_not {t t' : KeyedTree K V} (plain : (isObject t.value && isObject t'.value) = false) :
    t.overrideBy isObject cut t' = t' := by
  cases t'
  rw [value] at plain
  rw [overrideBy, if_neg (by rw [plain]; exact Bool.false_ne_true)]

lemma mem_overrideAll {k : K} {entries : List (K × KeyedTree K V)} : ∀ {merged : List (K × KeyedTree K V)},
    k ∈ (overrideAll isObject cut merged entries).map Prod.fst ↔
      k ∈ merged.map Prod.fst ∨ ∃ entry ∈ entries, k = cut entry.1 := by
  induction entries with
  | nil => exact (or_iff_left fun h => by obtain ⟨_, mem, -⟩ := h; cases mem).symm
  | cons entry entries ih =>
    obtain ⟨key, t⟩ := entry
    intro merged
    rw [overrideAll, ih, mem_put, or_assoc, List.exists_mem_cons_iff]

lemma overrideBy_whole {t' : KeyedTree K V} (whole : t'.Keys fun key => cut key = key) (t : KeyedTree K V) :
    t.overrideBy isObject cut t' = t.override isObject t' := by
  induction t' using KeyedTree.induction generalizing t with
  | step value children ih =>
    rw [Keys, keysAll_iff] at whole
    have same : ∀ merged, overrideAll isObject cut merged children = overrideAll isObject id merged children := by
      induction children with
      | nil => exact fun _ => rfl
      | cons child children step =>
        obtain ⟨key, t'⟩ := child
        obtain ⟨⟨hkey, first⟩, whole⟩ := List.forall_mem_cons.mp whole
        obtain ⟨ih_first, ih⟩ := List.forall_mem_cons.mp ih
        intro merged
        rw [overrideAll, overrideAll, hkey, id, step ih whole]
        cases merged.lookup key with
        | none => rfl
        | some old =>
          dsimp only
          rw [ih_first first old, override]
    rw [override, overrideBy, overrideBy, same]

variable [LawfulBEq K]

lemma forall_mem_overrideAll {P : KeyedTree K V → Prop} {entries : List (K × KeyedTree K V)}
    (kept : ∀ entry ∈ entries, ∀ t, P t → P (t.overrideBy isObject cut entry.2)) :
    ∀ {merged : List (K × KeyedTree K V)}, (∀ entry ∈ merged, P entry.2) → (∀ entry ∈ entries, P entry.2) →
      ∀ entry ∈ overrideAll isObject cut merged entries, P entry.2 := by
  induction entries with
  | nil => exact fun old _ => old
  | cons entry entries ih =>
    obtain ⟨key, t⟩ := entry
    intro merged old new
    obtain ⟨first, new⟩ := List.forall_mem_cons.mp new
    obtain ⟨kept_first, kept⟩ := List.forall_mem_cons.mp kept
    rw [overrideAll]
    refine ih kept (forall_mem_put old ?_) new
    cases found : merged.lookup (cut key) with
    | none => exact first
    | some t' =>
      obtain ⟨_, _, split, -⟩ := List.lookup_eq_some_iff.mp found
      exact kept_first t' (old (cut key, t') (split ▸ List.mem_append_right _ List.mem_cons_self))

lemma overrideBy_height (t' : KeyedTree K V) {n : ℕ} {t : KeyedTree K V} (low : t.height ≤ n)
    (low' : t'.height ≤ n) : (t.overrideBy isObject cut t').height ≤ n := by
  induction t' using KeyedTree.induction generalizing n t with
  | step value children ih =>
    rw [overrideBy]
    split_ifs
    · cases t with
      | node value₁ merged =>
      cases n with
      | zero => exact absurd low (Nat.not_succ_le_zero _)
      | succ n =>
        have old := heights_le.mp (Nat.le_of_succ_le_succ low)
        have new := heights_le.mp (Nat.le_of_succ_le_succ low')
        refine Nat.succ_le_succ (heights_le.mpr ?_)
        refine forall_mem_overrideAll (P := fun t => t.height ≤ n) (fun entry mem t low => ?_) old new
        exact ih entry mem low (new entry mem)
    · exact low'

end Override

end KeyedTree

end PulseEngine.Library
