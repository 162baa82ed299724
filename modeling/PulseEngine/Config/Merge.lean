import Mathlib.Data.List.TakeWhile
import PulseEngine.Config.Balance
import PulseEngine.Config.Trees

/-!
# Merges of configs

`pulse_config_merge` makes the override of the trees of its inputs, with one difference: it takes the keys of the
overrides by `c_str()`, which cuts them at the first NUL.
-/

namespace PulseEngine.Config

open Library

variable {s s' s₀ : Store} {P : ℕ → Prop} {base n d o left : ℕ} {live : Finset ℕ} {own : Multiset ℕ} {node : Node}
  {value : Value} {t t' : ConfigTree} {children rest : List (Text × ConfigTree)} {key : Text}

def TooDeep (left : ℕ) (defaults overrides : ConfigTree) : Prop :=
  left < overrides.height ∨ defaults.value.isObject ∧ overrides.value.isObject ∧ left < defaults.height

/-- The override that `merge_nodes` makes. -/
abbrev cutOverride (defaults overrides : ConfigTree) : ConfigTree := defaults.overrideBy Value.isObject cString overrides

def Merges (left : ℕ) : Prop :=
  ∀ {s d o t t'}, Fresh s → Denotes s (fun _ => True) d t → Denotes s (fun _ => True) o t' →
    Builds (¬ TooDeep left t t') s (cutOverride t t') (Store.mergeNodes left s (some d) (some o))

lemma isObject_iff : value.isObject = true ↔ value.type = .object := decide_eq_true_iff

lemma overrideChild_builds (merges : Merges left) (owns : Owns s base live own)
    (h : Denotes s P n (.node value children)) (htype : value.type = .object)
    (low : ∀ child ∈ children, child.2.height ≤ left) (ho : Denotes s (fun _ => True) o t') (key : Text) :
    Builds (t'.height ≤ left) s ((children.lookup key).elim t' fun old => cutOverride old t')
      (Store.overrideChild (fun s d o => Store.mergeNodes left s (some d) (some o)) (Store.copyNode left) s n key o) := by
  obtain ⟨-, node, hnode, rfl, hall⟩ := denotes_node.mp h
  have find : findChild node key = node.entries.lookup key := by
    rw [Node.entries_object htype]
    exact if_pos htype
  rw [Store.overrideChild, hnode, Option.bind_eq_bind, Option.bind_some, find]
  rcases forall₂_lookup key hall with ⟨none, none'⟩ | ⟨existing, old, found, found', hold⟩
  · rw [none, none']
    exact copyNode_builds owns.fresh ho
  · obtain ⟨oldNode, holdNode, holdValue⟩ := hold.exists_node
    obtain ⟨newNode, hnewNode, hnewValue⟩ := ho.exists_node
    have type_old : old.value.isObject = true ↔ oldNode.type = .object := by rw [← holdValue, isObject_iff]; rfl
    have type_new : t'.value.isObject = true ↔ newNode.type = .object := by rw [← hnewValue, isObject_iff]; rfl
    simp only [found, found', holdNode, hnewNode, Option.bind_some, Option.elim_some]
    split_ifs with both
    · refine (merges owns.fresh (hold.mono fun _ _ => trivial) ho).congr ?_
      obtain ⟨before, after, split, -⟩ := List.lookup_eq_some_iff.mp found'
      have low_old : old.height ≤ left := low (key, old) (split ▸ List.mem_append_right _ List.mem_cons_self)
      rw [TooDeep, or_iff_left fun deep => deep.2.2.not_ge low_old, not_lt]
    · have plain : (old.value.isObject && t'.value.isObject) = false := by
        rw [← type_old, ← type_new, ← Bool.and_eq_true] at both
        exact Bool.eq_false_iff.mpr both
      rw [cutOverride, KeyedTree.overrideBy_of_not plain]
      exact copyNode_builds owns.fresh ho

lemma overrideAll_cons : KeyedTree.overrideAll Value.isObject cString children ((key, t') :: rest) =
    KeyedTree.overrideAll Value.isObject cString (put (cString key)
      ((children.lookup (cString key)).elim t' fun old => cutOverride old t') children) rest := by
  rw [KeyedTree.overrideAll]
  cases children.lookup (cString key) <;> rfl

/-- **The loop of `merge_nodes`**: every entry of the overrides comes into the merged object. -/
theorem mergeEntries_builds (merges : Merges left) (fresh : Fresh s₀) (htype : value.type = .object)
    {entries : List (Text × ℕ)} {rest : List (Text × ConfigTree)}
    (hrest : List.Forall₂ (Holds s₀ fun _ => True) entries rest) :
    ∀ {s : Store} {live : Finset ℕ} {children : List (Text × ConfigTree)}, Extends s₀ s →
      Owns s s₀.next live {n} → Denotes s (s₀.next ≤ ·) n (.node value children) →
      (∀ child ∈ children, child.2.height ≤ left) →
      Builds (∀ child ∈ rest, child.2.height ≤ left) s₀
        (.node value (KeyedTree.overrideAll Value.isObject cString children rest))
        (Store.mergeEntries (fun s d o => Store.mergeNodes left s (some d) (some o)) (Store.copyNode left) n s
          entries) := by
  induction hrest with
  | nil =>
    intro s live children ext owns h _
    exact ⟨s, some n, rfl, ⟨ext, live, owns⟩, .inl ⟨List.forall_mem_nil _, n, rfl, h⟩⟩
  | @cons entry child entries rest first _ ih =>
    intro s live children ext owns h low
    obtain ⟨key, o⟩ := entry
    obtain ⟨key', t⟩ := child
    obtain ⟨rfl, ho⟩ := first
    have hn : n ∈ live := owns.counted.owned n (Multiset.mem_singleton_self n)
    obtain ⟨s₁, result, hchild, made, hmade⟩ :=
      overrideChild_builds merges owns h htype low (ho.extends fresh ext) (cString key)
    obtain ⟨live₁, owns₁, hsub⟩ := made.owns owns
    have ext₁ : Extends s₀ s₁ := ext.trans made.1
    rcases hmade with ⟨fits, c, rfl, hc⟩ | ⟨unfit, rfl⟩
    · rw [given, Multiset.add_comm, Multiset.singleton_add] at owns₁
      obtain ⟨s₂, live₂, hs₂, owns₂, hnext, outside, h₂⟩ := replaceChild_denotes owns₁ (hsub hn)
        (made.not_reaches (owns.below n hn)) (h.extends owns.fresh made.1) htype
        (hc.mono fun m hm => ext.next_le.trans hm) (cString key)
      have merged : Store.mergeEntries (fun s d o => Store.mergeNodes left s (some d) (some o)) (Store.copyNode left) n
          s ((key, o) :: entries) = Store.mergeEntries (fun s d o => Store.mergeNodes left s (some d) (some o))
            (Store.copyNode left) n s₂ entries := by
        rw [Store.mergeEntries, hchild]
        simp only [Option.bind_eq_bind, Option.bind_some, hs₂]
      rw [merged, overrideAll_cons]
      refine (ih (ext₁.of_outside owns₁.above hnext outside) owns₂ h₂ 
        (forall_mem_put (P := (KeyedTree.height · ≤ left)) low ?_)).congr ?_
      · cases found : children.lookup (cString key) with
        | none => exact fits
        | some old =>
          obtain ⟨before, after, split, -⟩ := List.lookup_eq_some_iff.mp found
          exact KeyedTree.overrideBy_height t
            (low (cString key, old) (split ▸ List.mem_append_right _ List.mem_cons_self)) fits
      · rw [List.forall_mem_cons, and_iff_right fits]
    · rw [given, add_zero] at owns₁
      obtain ⟨s₂, hs₂, made₂⟩ := made_release ext₁ owns₁
      refine ⟨s₂, none, ?_, made₂, .inr ⟨fun all => unfit (all (key, t) List.mem_cons_self), rfl⟩⟩
      rw [Store.mergeEntries, hchild]
      simp only [Option.bind_eq_bind, Option.bind_some, hs₂]
      rfl

/-- **`merge_nodes`** in terms of trees. -/
theorem mergeNodes_builds : ∀ left : ℕ, Merges left := by
  intro left
  induction left with
  | zero =>
    intro s d o t t' fresh _ _
    exact ⟨_, none, rfl, made_error fresh _, .inr ⟨not_not.mpr (.inl (height_pos t')), rfl⟩⟩
  | succ left ih =>
    intro s d o t t' fresh hd ho
    cases t with
    | node defaults children =>
    cases t' with
    | node overrides rest =>
    obtain ⟨-, dNode, hdNode, rfl, -⟩ := denotes_node.mp hd
    obtain ⟨-, oNode, hoNode, rfl, hrest⟩ := denotes_node.mp ho
    simp only [Store.mergeNodes, hdNode, hoNode, Option.bind_eq_bind, Option.bind_some]
    split_ifs with either
    · have plain : (dNode.value.isObject && oNode.value.isObject) = false := by
        rw [Bool.and_eq_false_iff, ← Bool.not_eq_true, ← Bool.not_eq_true, isObject_iff, isObject_iff]
        exact either
      rw [cutOverride, KeyedTree.overrideBy_of_not plain]
      refine (copyNode_builds fresh ho).congr ?_
      rw [TooDeep, or_iff_left, not_lt]
      rintro ⟨object, object', -⟩
      exact either.elim (· (isObject_iff.mp object)) (· (isObject_iff.mp object'))
    · obtain ⟨hd_type, ho_type⟩ := not_or.mp either
      rw [not_not] at hd_type ho_type
      rw [Node.entries_object ho_type] at hrest
      obtain ⟨s₁, merged, hs₁, made, hmade⟩ : Builds _ s (.node dNode.value children) (Store.copyNode (left + 1) s d) :=
        copyNode_builds fresh hd
      simp only [hs₁, Option.bind_some]
      have deep : ¬ TooDeep (left + 1) (.node dNode.value children) (.node oNode.value rest) ↔
          (∀ child ∈ children, child.2.height ≤ left) ∧ ∀ child ∈ rest, child.2.height ≤ left := by
        have object : dNode.value.isObject = true := isObject_iff.mpr hd_type
        have object' : oNode.value.isObject = true := isObject_iff.mpr ho_type
        rw [TooDeep, KeyedTree.value, KeyedTree.value, and_iff_right object, and_iff_right object', not_or, not_lt,
          not_lt, height_node_le, height_node_le, and_comm]
      rcases hmade with ⟨fits, copy, rfl, hcopy⟩ | ⟨unfit, rfl⟩
      · obtain ⟨ext, live, owns⟩ := made
        have objects : (dNode.value.isObject && oNode.value.isObject) = true := by
          rw [Bool.and_eq_true, isObject_iff, isObject_iff]
          exact ⟨hd_type, ho_type⟩
        rw [height_node_le] at fits
        have built := mergeEntries_builds ih fresh hd_type hrest ext owns hcopy fits
        rw [cutOverride, KeyedTree.overrideBy, KeyedTree.value, if_pos objects]
        exact built.congr (by rw [deep, and_iff_right fits])
      · refine ⟨s₁, none, rfl, made, .inr ⟨fun fits => unfit ?_, rfl⟩⟩
        exact height_node_le.mpr (deep.mp fits).1

/-! ### The whole merge -/

/-- What a merge of two trees is to do: the override is made of new nodes, or where the trees have too many levels
nothing is; and all that was there stays as it is. -/
def MergesRight (s : Store) (d o : ℕ) (t t' : ConfigTree) : Prop :=
  ∃ s' result, s.merge (some d) (some o) = some (s', result) ∧
    (∀ n node, s.nodes n = some node → s'.nodes n = some node) ∧
    (TooDeep (kMaxDepth + 1) t t' → result = none ∧ s'.nodes = s.nodes) ∧
    (¬ TooDeep (kMaxDepth + 1) t t' → ∃ m, result = some m ∧
      Denotes s' (fun _ => True) m (t.override Value.isObject t') ∧ ∀ n, Reaches s'.kids m n → s.nodes n = none)

lemma mergesRight_iff (fresh : Fresh s) (hd : Denotes s (fun _ => True) d t) (ho : Denotes s (fun _ => True) o t') :
    MergesRight s d o t t' ↔
      TooDeep (kMaxDepth + 1) t t' ∨ t.overrideBy Value.isObject cString t' = t.override Value.isObject t' := by
  have cleared : Extends s (s.setError "") := ⟨le_rfl, fun _ _ => rfl⟩
  have merged : Builds (¬ TooDeep (kMaxDepth + 1) t t') (s.setError "") (cutOverride t t')
      (s.merge (some d) (some o)) :=
    mergeNodes_builds (kMaxDepth + 1) (s := s.setError "") fresh (hd.extends fresh cleared)
      (ho.extends fresh cleared)
  obtain ⟨s', result, hmerge, made, hmade⟩ := merged
  constructor
  · rintro ⟨s'', result', hmerge', -, -, right⟩
    cases hmerge.symm.trans hmerge'
    rcases hmade with ⟨fits, c, rfl, hc⟩ | ⟨unfit, -⟩
    · obtain ⟨m, eq, hm, -⟩ := right fits
      cases eq
      exact .inr (hc.unique hm)
    · exact .inl (not_not.mp unfit)
  · intro when
    refine ⟨s', result, hmerge, fun n node hnode => ?_, fun deep => ?_, fun fits => ?_⟩
    · have lt : n < s.next := by
        by_contra hge
        rw [fresh n (Nat.le_of_not_lt hge)] at hnode
        cases hnode
      exact (made.1.same n lt).trans hnode
    · rcases hmade with ⟨fits, -⟩ | ⟨-, rfl⟩
      · exact absurd deep fits
      · exact ⟨rfl, made.nothing fresh⟩
    · rcases hmade with ⟨-, c, rfl, hc⟩ | ⟨unfit, -⟩
      · refine ⟨c, rfl, when.resolve_left fits ▸ hc.mono fun _ _ => trivial, fun n path => ?_⟩
        obtain ⟨-, live, owns⟩ := made
        have hn : n ∈ live :=
          Reaches.mem owns.counted.closed path (owns.counted.owned c (Multiset.mem_singleton_self c))
        exact fresh n (owns.above n hn)
      · exact absurd fits unfit

/-- In every state that the callers come to, the nodes that they pass stand for trees. -/
theorem World.Sound.inputs {w : World} (sound : w.Sound) (valid : w.Valid (.merge (some d) (some o))) :
    Fresh w.store ∧ (∃ t, Denotes w.store (fun _ => True) d t) ∧ ∃ t', Denotes w.store (fun _ => True) o t' := by
  obtain ⟨live, owns⟩ := sound
  have tree : ∀ n ∈ [d, o], ∃ t, Denotes w.store (fun _ => True) n t := fun n hn =>
    owns.exists_denotes ((owns.alive n (Nat.zero_le n)).mp (Option.isSome_iff_exists.mp (valid.1 n hn)))
  exact ⟨owns.fresh, tree d (by simp), tree o (by simp)⟩

lemma cutOverride_ne (object : t.value.isObject) (object' : t'.value.isObject) {key : Text}
    (new : key ∈ t'.children.map Prod.fst) (absent : key ∉ t.children.map Prod.fst) (nul : cString key ≠ key) :
    cutOverride t t' ≠ t.override Value.isObject t' := by
  cases t' with
  | node value' children' =>
  intro eq
  have both : (t.value.isObject && value'.isObject) = true := by
    rw [object, Bool.true_and]
    exact object'
  rw [cutOverride, KeyedTree.override, KeyedTree.overrideBy, KeyedTree.overrideBy, if_pos both, if_pos both] at eq
  injection eq with _ eq
  obtain ⟨entry, mem, rfl⟩ := List.mem_map.mp new
  have kept : entry.1 ∈ (KeyedTree.overrideAll Value.isObject cString t.children children').map Prod.fst := by
    rw [eq]
    exact KeyedTree.mem_overrideAll.mpr (.inr ⟨entry, mem, rfl⟩)
  obtain ⟨other, -, cut⟩ := (KeyedTree.mem_overrideAll.mp kept).resolve_left absent
  refine nul ?_
  rw [cut]
  exact List.takeWhile_idem

/-- **Merge of configs.** A merge makes the override of the trees from new nodes alone, or fails with nothing changed
where they have too many levels, exactly when the override does not depend on the bytes of its keys behind a NUL. -/
theorem merge_matches (fresh : Fresh s) (hd : Denotes s (fun _ => True) d t) (ho : Denotes s (fun _ => True) o t') :
    MergesRight s d o t t' ↔
      TooDeep (kMaxDepth + 1) t t' ∨ t.overrideBy Value.isObject cString t' = t.override Value.isObject t' :=
  mergesRight_iff fresh hd ho

def sharedStore : Store where
  nodes n := match n with
    | 0 => some { Node.ofType .object with object := [([97], 1), ([98], 1)] }
    | 1 => some { Node.ofType .int with refCount := 2, i := 1 }
    | _ => none
  next := 2
  lastError := ""

def one : ConfigTree := .node ⟨.int, false, 1, 0, []⟩ []

def object (children : List (Text × ConfigTree)) : ConfigTree := .node ⟨.object, false, 0, 0, []⟩ children

/-- The shared number comes twice into the merged object. -/
theorem merge_matches_shared :
    MergesRight sharedStore 0 0 (object [([97], one), ([98], one)]) (object [([97], one), ([98], one)]) := by
  have leaf : Denotes sharedStore (fun _ => True) 1 one := denotes_node.mpr ⟨trivial, _, rfl, rfl, .nil⟩
  have tree : Denotes sharedStore (fun _ => True) 0 (object [([97], one), ([98], one)]) :=
    denotes_node.mpr ⟨trivial, _, rfl, rfl, .cons ⟨rfl, leaf⟩ (.cons ⟨rfl, leaf⟩ .nil)⟩
  refine (merge_matches (fun n hn => ?_) tree tree).mpr (.inr (KeyedTree.overrideBy_whole ?_ _))
  · match n, hn with
    | n + 2, _ => rfl
  · exact ⟨⟨rfl, trivial⟩, ⟨rfl, trivial⟩, trivial⟩

/-- The heap with the objects of `{}` and of `{"a\x00b": 1}`. -/
def nulStore : Store :=
  let s := (Store.empty.newNode (.ofType .object)).1
  let s := (s.newNode (.ofType .object)).1
  let s := (s.newNode { Node.ofType .int with i := 1 }).1
  s.write 1 (some { Node.ofType .object with object := [([97, 0, 98], 2)] })

/-- The merge of the two parsed objects has the key `a`. -/
theorem not_merge_matches : ∃ s t t', Store.jsonToNode (kMaxDepth + 1) .empty (.object []) = some (s, some 0) ∧
    s.jsonToNode (kMaxDepth + 1) (.object [([97, 0, 98], .integer 1)]) = some (nulStore, some 1) ∧
    Fresh nulStore ∧ Denotes nulStore (fun _ => True) 0 t ∧ Denotes nulStore (fun _ => True) 1 t' ∧
    ¬ MergesRight nulStore 0 1 t t' := by
  refine ⟨_, object [], object [([97, 0, 98], one)], rfl, rfl, ?_⟩
  have fresh : Fresh nulStore := fun n hn => by
    match n, hn with
    | n + 3, _ => rfl
  have empty : Denotes nulStore (fun _ => True) 0 (object []) := denotes_node.mpr ⟨trivial, _, rfl, rfl, .nil⟩
  have number : Denotes nulStore (fun _ => True) 2 one := denotes_node.mpr ⟨trivial, _, rfl, rfl, .nil⟩
  have full : Denotes nulStore (fun _ => True) 1 (object [([97, 0, 98], one)]) :=
    denotes_node.mpr ⟨trivial, _, rfl, rfl, .cons ⟨rfl, number⟩ .nil⟩
  refine ⟨fresh, empty, full, fun right => ?_⟩
  rcases (mergesRight_iff fresh empty full).mp right with deep | eq
  · rcases deep with high | ⟨-, -, high⟩
    · exact absurd high (by decide)
    · exact absurd high (by decide)
  · exact cutOverride_ne rfl rfl List.mem_cons_self List.not_mem_nil (by decide) eq

end PulseEngine.Config
