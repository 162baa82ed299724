import PulseEngine.Prefab.Entries

/-!
# The definitions of a prefab are a forest

When a prefab is loaded, its references were scanned without an error, so no node that a definition
comes to is below itself. `build_prefab_parent` then gives every child of a definition that
definition as its parent, and a parent is only given once.
-/

namespace PulseEngine.Prefab

open Datalist Library

variable {δ : Type} {parsed : Parsed δ} {doc : Document δ} {library library' : PrefabLibrary}
  {i j p : ℕ} {d d' : Definition} {node child : NodeId}

namespace PrefabLibrary

def nodeOf (library : PrefabLibrary) (i : ℕ) : Option NodeId :=
  library.definitions[i]?.map Definition.node

/-- The definition `i` is the parent of the definition `j`. -/
def ParentOf (library : PrefabLibrary) (i j : ℕ) : Prop := library.parentOf j = some i

lemma At.nodeOf (h : library.At i d) : library.nodeOf i = some d.node := by
  rw [PrefabLibrary.nodeOf, h]
  rfl

lemma nodeOf_some (h : library.nodeOf i = some node) : ∃ d, library.At i d ∧ d.node = node :=
  Option.map_eq_some_iff.mp h

end PrefabLibrary

/-- The hierarchy of a prefab: the parent of a definition is the one definition that has it among
its children, no definition is above itself, and a single root is above all others. -/
structure Forest (parsed : Parsed δ) (library : PrefabLibrary) : Prop where
  parents : ∀ {i j}, library.ParentOf i j ↔ ∃ n c, library.nodeOf i = some n ∧
    library.nodeOf j = some c ∧ c ∈ childrenOf parsed.doc n
  onlyParent : ∀ {i i' j n n' c}, library.nodeOf i = some n → library.nodeOf i' = some n' →
    library.nodeOf j = some c → c ∈ childrenOf parsed.doc n → c ∈ childrenOf parsed.doc n' → i = i'
  defined : ∀ {i n c}, library.nodeOf i = some n → c ∈ childrenOf parsed.doc n →
    ∃ j, library.nodeOf j = some c
  acyclic : ∀ i, ¬ Relation.TransGen library.ParentOf i i
  rooted : SingleRoot parsed library → ∃ r, library.root = some r ∧
    ∀ {j c}, library.nodeOf j = some c → Relation.ReflTransGen library.ParentOf r j

/-! ### All definitions are expanded -/

/-- What the loop of `build_prefab_library` over some definitions gives. -/
structure Expanded (doc : Document δ) (inside : Set NodeId) (library : PrefabLibrary)
    (indices : List ℕ) (library' : PrefabLibrary) : Prop where
  linked : Linked doc inside library'
  grown : Grown doc library library'
  settled : Settled library'
  expanded : ∀ i ∈ indices, library'.ExpandedAt i

lemma buildParents_total {inside : Set NodeId} {nodes : Finset NodeId} {fuel : ℕ}
    (closed : ∀ n ∈ inside, ∀ c ∈ childrenOf doc n, c ∈ inside)
    (finite : ∀ n ∈ inside, n ∈ nodes) (hfuel : nodes.card < fuel) :
    ∀ {indices : List ℕ} {library : PrefabLibrary}, Linked doc inside library → Settled library →
      (∀ i ∈ indices, i < library.definitions.length) →
      Total (indices.foldlM (buildPrefabParent doc fuel) library)
        (Expanded doc inside library indices) := by
  intro indices
  induction indices with
  | nil =>
    intro library linked settled _
    exact total_pure ⟨linked, .refl library, settled, fun i hi => absurd hi List.not_mem_nil⟩
  | cons index indices ih =>
    intro library linked settled hlt
    obtain ⟨d, hd⟩ := PrefabLibrary.exists_at (hlt index List.mem_cons_self)
    have hbound : unexpanded nodes library < fuel :=
      lt_of_le_of_lt (Finset.card_filter_le _ _) hfuel
    rw [List.foldlM_cons]
    refine (buildPrefabParent_total closed finite linked hd (fun hd _ => settled hd) hbound).bind
      fun library₁ first => ?_
    have hlt₁ : ∀ i ∈ indices, i < library₁.definitions.length := fun i hi =>
      (hlt i (.tail _ hi)).trans_le first.grown.length_le
    refine (ih first.linked first.settled hlt₁).imp fun library₂ rest => ?_
    refine ⟨rest.linked, first.grown.trans rest.grown, rest.settled, fun i hi => ?_⟩
    rcases List.mem_cons.mp hi with rfl | hi
    · exact rest.grown.expandedAt first.expanded
    · exact rest.expanded i hi

lemma expanded_of_comes (complete : ∀ {i}, library.ExpandedAt i → Complete doc library i)
    (hd : library.At i d) (hexpanded : d.expanded = true) (path : Comes doc d.node node) :
    ∃ j d', library.At j d' ∧ d'.node = node ∧ d'.expanded = true := by
  induction path with
  | refl => exact ⟨i, d, hd, rfl, hexpanded⟩
  | tail _ hstep ih =>
    obtain ⟨j, d', hd', rfl, hexpanded'⟩ := ih
    obtain ⟨k, d'', hd'', hnode, -, hexpanded''⟩ := complete ⟨d', hd', hexpanded'⟩ d' hd' _ hstep
    exact ⟨k, d'', hd'', hnode, hexpanded''⟩

lemma all_expanded {indices : List ℕ} (gathered : Gathered parsed library)
    (acyclic : ∀ {i d}, library.At i d →
      ¬ Relation.TransGen (ChildOf (childrenOf parsed.doc)) d.node d.node)
    (built : Expanded parsed.doc (reached parsed.doc library) library indices library')
    (roots : ∀ {i d}, library.At i d → i ∈ indices ∨ Referred parsed.doc library d.node)
    (hd : library'.At i d) : d.expanded = true := by
  have complete : ∀ {i}, library'.ExpandedAt i → Complete parsed.doc library' i := by
    intro i hexpanded
    refine (built.grown.done hexpanded).resolve_left ?_
    rintro ⟨d₀, hd₀, h⟩
    rw [(gathered.fresh hd₀).2] at h
    exact nomatch h
  -- the nodes of entries that were left out
  let lost : Set NodeId := {n | ∃ i d, library.At i d ∧ d.node = n ∧ ¬ library'.ExpandedAt i}
  have finite : lost.Finite := by
    refine parsed.nodes.finite_toSet.subset ?_
    rintro n ⟨i, d, hd, rfl, -⟩
    exact gathered.inside hd
  have leads : ∀ n ∈ lost, ∃ m ∈ lost,
      Function.swap (Relation.TransGen (ChildOf (childrenOf parsed.doc))) n m := by
    rintro n ⟨i, d, hd, rfl, hnot⟩
    have referred := (roots hd).resolve_left fun hi => hnot (built.expanded i hi)
    obtain ⟨j, dj, m, hj, path, hchild⟩ := referred
    refine ⟨dj.node, ⟨j, dj, hj, rfl, fun hexpanded => hnot ?_⟩, .tail' path hchild⟩
    -- an entry that was not left out is above no entry that was
    obtain ⟨dj', hj', hexpandedj⟩ := hexpanded
    obtain ⟨dj₁, hj₁, hnodej, -⟩ := built.grown.kept hj
    rw [← hnodej, ← hj'.unique hj₁] at path
    obtain ⟨k, dm, hm, rfl, hexpandedm⟩ := expanded_of_comes complete hj' hexpandedj path
    obtain ⟨l, dl, hl, hnodel, -, hexpandedl⟩ := complete ⟨dm, hm, hexpandedm⟩ dm hm _ hchild
    obtain ⟨d', hd', hnode, -⟩ := built.grown.kept hd
    cases built.linked.distinct hl hd' (hnodel.trans hnode.symm)
    exact ⟨dl, hl, hexpandedl⟩
  have none_lost : ∀ {i d}, library.At i d → library'.ExpandedAt i := by
    intro i d hd
    by_contra hnot
    obtain ⟨n, ⟨k, dk, hk, rfl, -⟩, circle⟩ :=
      circle_within finite ⟨d.node, i, d, hd, rfl, hnot⟩ leads
    rw [Relation.transGen_swap, Relation.transGen_eq_self] at circle
    exact acyclic hk circle
  rcases Nat.lt_or_ge i library.definitions.length with hlt | hle
  · obtain ⟨d₀, hd₀⟩ := PrefabLibrary.exists_at hlt
    obtain ⟨d₁, hd₁, hexpanded⟩ := none_lost hd₀
    rwa [hd.unique hd₁]
  · exact built.settled hd (built.grown.new hd hle)

/-! ### Parents and children -/

structure Full (doc : Document δ) (inside : Set NodeId) (library : PrefabLibrary) : Prop where
  linked : Linked doc inside library
  complete : ∀ i, Complete doc library i

namespace Full

variable {inside : Set NodeId}

lemma isParent (full : Full doc inside library) (hi : library.nodeOf i = some node)
    (hj : library.nodeOf j = some child) (hchild : child ∈ childrenOf doc node) :
    library.ParentOf i j := by
  obtain ⟨d, hd, rfl⟩ := PrefabLibrary.nodeOf_some hi
  obtain ⟨d', hd', rfl⟩ := PrefabLibrary.nodeOf_some hj
  obtain ⟨k, dk, hk, hnode, hparent, -⟩ := full.complete i d hd _ hchild
  cases full.linked.distinct hk hd' hnode
  exact hk.parentOf.trans hparent

lemma parents (full : Full doc inside library) :
    library.ParentOf i j ↔ ∃ n c, library.nodeOf i = some n ∧ library.nodeOf j = some c ∧
      c ∈ childrenOf doc n := by
  refine ⟨fun h => ?_, fun ⟨n, c, hn, hj, hc⟩ => full.isParent hn hj hc⟩
  obtain ⟨d, hd, hparent⟩ := PrefabLibrary.parentOf_some h
  obtain ⟨d', hd', -, hchild⟩ := full.linked.parents hd hparent
  exact ⟨d'.node, d.node, hd'.nodeOf, hd.nodeOf, hchild⟩

lemma below (full : Full doc inside library) (h : Relation.TransGen library.ParentOf i j) :
    ∃ n c, library.nodeOf i = some n ∧ library.nodeOf j = some c ∧
      Relation.TransGen (ChildOf (childrenOf doc)) n c := by
  induction h with
  | single h =>
    obtain ⟨n, c, hn, hc, hchild⟩ := full.parents.mp h
    exact ⟨n, c, hn, hc, .single hchild⟩
  | tail _ h ih =>
    obtain ⟨n, m, hn, hm, path⟩ := ih
    obtain ⟨m', c, hm', hc, hchild⟩ := full.parents.mp h
    cases Option.some.inj (hm.symm.trans hm')
    exact ⟨n, c, hn, hc, path.tail hchild⟩

lemma acyclic (full : Full doc inside library)
    (acyclic : ∀ n ∈ inside, ¬ Relation.TransGen (ChildOf (childrenOf doc)) n n) (i : ℕ) :
    ¬ Relation.TransGen library.ParentOf i i := by
  intro circle
  obtain ⟨n, c, hn, hc, path⟩ := full.below circle
  cases Option.some.inj (hn.symm.trans hc)
  obtain ⟨d, hd, rfl⟩ := PrefabLibrary.nodeOf_some hn
  exact acyclic d.node (full.linked.inside hd) path

lemma rooted (full : Full doc inside library)
    (acyclic : ∀ i, ¬ Relation.TransGen library.ParentOf i i) {r : ℕ}
    (hasParent : ∀ k < library.definitions.length, k ≠ r → ∃ l, library.ParentOf l k)
    (hj : library.nodeOf j = some child) : Relation.ReflTransGen library.ParentOf r j := by
  by_contra hnot
  -- a definition that is not below has a parent that is not below either
  let astray : Set ℕ := {k | k < library.definitions.length ∧
    ¬ Relation.ReflTransGen library.ParentOf r k}
  have finite : astray.Finite := (Set.finite_lt_nat _).subset fun k hk => hk.1
  have leads : ∀ k ∈ astray, ∃ l ∈ astray, Function.swap library.ParentOf k l := by
    rintro k ⟨hlt, hk⟩
    obtain ⟨l, hl⟩ := hasParent k hlt fun e => hk (e ▸ .refl)
    obtain ⟨n, -, hn, -⟩ := full.parents.mp hl
    obtain ⟨dl, hdl, -⟩ := PrefabLibrary.nodeOf_some hn
    exact ⟨l, ⟨hdl.lt, fun path => hk (path.tail hl)⟩, hl⟩
  obtain ⟨d, hd, -⟩ := PrefabLibrary.nodeOf_some hj
  obtain ⟨k, -, circle⟩ := circle_within finite ⟨j, hd.lt, hnot⟩ leads
  exact acyclic k (Relation.transGen_swap.mp circle)

end Full

/-- **The definitions are a forest** when those of the loop are expanded, the others are referred to,
and nothing they come to is below itself. -/
theorem forest_of_expanded {indices : List ℕ} (collected : Collected parsed library)
    (acyclic : ∀ n ∈ reached parsed.doc library,
      ¬ Relation.TransGen (ChildOf (childrenOf parsed.doc)) n n)
    (built : Expanded parsed.doc (reached parsed.doc library) library indices library')
    (roots : ∀ {i d}, library.At i d → i ∈ indices ∨ Referred parsed.doc library d.node) :
    Forest parsed library' := by
  have expanded : ∀ {i d}, library'.At i d → d.expanded = true := fun hd =>
    all_expanded collected.toGathered (fun {i d} hd => acyclic d.node ⟨i, d, hd, .refl⟩) built roots
      hd
  have full : Full parsed.doc (reached parsed.doc library) library' := by
    refine ⟨built.linked, fun i d hd => ?_⟩
    rcases built.grown.done ⟨d, hd, expanded hd⟩ with ⟨d₀, hd₀, h⟩ | complete
    · rw [(collected.fresh hd₀).2] at h
      exact nomatch h
    · exact complete d hd
  have noCircle := full.acyclic acyclic
  refine ⟨full.parents, fun hn hn' hj hc hc' => ?_, fun hn hc => ?_, noCircle, fun single => ?_⟩
  · exact Option.some.inj ((full.isParent hn hj hc).symm.trans (full.isParent hn' hj hc'))
  · obtain ⟨d, hd, rfl⟩ := PrefabLibrary.nodeOf_some hn
    obtain ⟨j, dj, hj, rfl, -⟩ := full.complete _ d hd _ hc
    exact ⟨j, hj.nodeOf⟩
  · rw [SingleRoot, built.grown.singleRoot] at single
    obtain ⟨r, hroot, hr, referred⟩ := collected.root single
    refine ⟨r, built.grown.root.trans hroot, full.rooted noCircle fun k hlt hne => ?_⟩
    rcases Nat.lt_or_ge k library.definitions.length with hlt₀ | hle
    · obtain ⟨dk, hk⟩ := PrefabLibrary.exists_at hlt₀
      obtain ⟨i, di, m, hi, path, hchild⟩ := referred hk hne
      obtain ⟨di', hi', hnode, -⟩ := built.grown.kept hi
      obtain ⟨dk', hk', hnode', -⟩ := built.grown.kept hk
      rw [← hnode] at path
      rw [← hnode'] at hchild
      obtain ⟨l, dl, hl, rfl, -⟩ :=
        expanded_of_comes (fun {i} _ => full.complete i) hi' (expanded hi') path
      exact ⟨l, full.isParent hl.nodeOf hk'.nodeOf hchild⟩
    · obtain ⟨d, hd⟩ := PrefabLibrary.exists_at hlt
      obtain ⟨l, hl⟩ := Option.ne_none_iff_exists'.mp (built.grown.new hd hle)
      exact ⟨l, hd.parentOf.trans hl⟩

end PulseEngine.Prefab
