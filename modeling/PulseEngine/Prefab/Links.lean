import PulseEngine.Prefab.Scan

/-!
# Links between the definitions of a prefab

What `build_prefab_parent` does to the definitions: every definition that it has expanded has all its
children as definitions, each with it as the parent and expanded itself. It marks a definition as
expanded before it goes down, so it goes down at most once for every node.
-/

namespace PulseEngine.Prefab

open Datalist Library

variable {δ : Type} {doc : Document δ} {library library' library'' : PrefabLibrary}
  {i j p index : ℕ} {d d' : Definition} {node child : NodeId} {inside : Set NodeId}

namespace PrefabLibrary

def At (library : PrefabLibrary) (i : ℕ) (d : Definition) : Prop := library.definitions[i]? = some d

def ExpandedAt (library : PrefabLibrary) (i : ℕ) : Prop := ∃ d, library.At i d ∧ d.expanded = true

lemma At.unique (h : library.At i d) (h' : library.At i d') : d = d' :=
  Option.some.inj (h.symm.trans h')

lemma At.lt (h : library.At i d) : i < library.definitions.length :=
  (List.getElem?_eq_some_iff.mp h).1

lemma exists_at (h : i < library.definitions.length) : ∃ d, library.At i d :=
  ⟨library.definitions[i], List.getElem?_eq_getElem h⟩

lemma At.parentOf (h : library.At i d) : library.parentOf i = d.parent := by
  rw [PrefabLibrary.parentOf, h]
  rfl

lemma parentOf_some (h : library.parentOf i = some p) : ∃ d, library.At i d ∧ d.parent = some p :=
  Option.bind_eq_some_iff.mp h

lemma at_modify {f : Definition → Definition} :
    (library.modify index f).At i d ↔ ∃ d₀, library.At i d₀ ∧ d = if index = i then f d₀ else d₀ := by
  rw [At, modify, List.getElem?_modify]
  cases h : library.definitions[i]? with
  | none => simp [At, h]
  | some d₀ =>
    simp only [At, h, Option.map_eq_map, Option.map_some, Option.some.injEq]
    refine ⟨fun e => ⟨d₀, rfl, e.symm⟩, ?_⟩
    rintro ⟨_, rfl, e⟩
    exact e.symm

lemma at_modify_self {f : Definition → Definition} (h : library.At i d) :
    (library.modify i f).At i (f d) :=
  at_modify.mpr ⟨d, h, by rw [if_pos rfl]⟩

lemma at_modify_ne {f : Definition → Definition} (h : library.At i d) (hne : i ≠ index) :
    (library.modify index f).At i d :=
  at_modify.mpr ⟨d, h, by rw [if_neg hne.symm]⟩

@[simp]
lemma length_modify {f : Definition → Definition} :
    (library.modify index f).definitions.length = library.definitions.length :=
  List.length_modify ..

lemma at_push : (library.push d').At i d ↔
    library.At i d ∨ i = library.definitions.length ∧ d = d' := by
  rw [At, push, List.getElem?_append]
  split
  · rename_i h
    exact (or_iff_left fun hi => absurd hi.1 h.ne).symm
  · rename_i h
    have hnone : ¬ library.At i d := fun hi => h hi.lt
    rw [or_iff_right hnone, List.getElem?_singleton]
    split
    · rename_i hi
      rw [Option.some.injEq, eq_comm]
      exact (and_iff_right (by omega)).symm
    · rename_i hi
      refine ⟨fun e => absurd e (Option.some_ne_none _).symm, fun ⟨e, _⟩ => absurd ?_ hi⟩
      omega

lemma findByNode_some (h : library.findByNode node = some i) :
    ∃ d, library.At i d ∧ d.node = node := by
  obtain ⟨hlt, hnode, -⟩ := List.findIdx?_eq_some_iff_getElem.mp h
  exact ⟨_, List.getElem?_eq_getElem hlt, by simpa using hnode⟩

lemma findByNode_none (h : library.findByNode node = none) (hd : library.At i d) :
    d.node ≠ node := by
  have hmem : d ∈ library.definitions := List.mem_of_getElem? hd
  simpa using List.findIdx?_eq_none_iff.mp h d hmem

end PrefabLibrary

/-- The definitions are of different nodes of a set, and the parent of a definition is an expanded
one that has it among its children. -/
structure Linked (doc : Document δ) (inside : Set NodeId) (library : PrefabLibrary) : Prop where
  inside : ∀ {i d}, library.At i d → d.node ∈ inside
  distinct : ∀ {i j d d'}, library.At i d → library.At j d' → d.node = d'.node → i = j
  parents : ∀ {i p d}, library.At i d → d.parent = some p →
    ∃ d', library.At p d' ∧ d'.expanded = true ∧ d.node ∈ childrenOf doc d'.node

def Settled (library : PrefabLibrary) : Prop :=
  ∀ {i d}, library.At i d → d.parent ≠ none → d.expanded = true

/-- A definition of the node has the definition `i` as its parent and is expanded. -/
def HasChild (library : PrefabLibrary) (i : ℕ) (child : NodeId) : Prop :=
  ∃ j d, library.At j d ∧ d.node = child ∧ d.parent = some i ∧ d.expanded = true

def Complete (doc : Document δ) (library : PrefabLibrary) (i : ℕ) : Prop :=
  ∀ d, library.At i d → ∀ child ∈ childrenOf doc d.node, HasChild library i child

/-- Definitions keep their nodes and parents, the new ones have parents, and what was expanded is
complete. -/
structure Grown (doc : Document δ) (library library' : PrefabLibrary) : Prop where
  root : library'.root = library.root
  singleRoot : library'.singleRoot = library.singleRoot
  length_le : library.definitions.length ≤ library'.definitions.length
  kept : ∀ {i d}, library.At i d → ∃ d', library'.At i d' ∧ d'.node = d.node ∧
    (d.expanded = true → d'.expanded = true) ∧ ∀ p, d.parent = some p → d'.parent = some p
  new : ∀ {i d}, library'.At i d → library.definitions.length ≤ i → d.parent ≠ none
  done : ∀ {i}, library'.ExpandedAt i → library.ExpandedAt i ∨ Complete doc library' i

lemma HasChild.grown (h : HasChild library i child) (grown : Grown doc library library') :
    HasChild library' i child := by
  obtain ⟨j, d, hd, hnode, hparent, hexpanded⟩ := h
  obtain ⟨d', hd', hnode', hexpanded', hparent'⟩ := grown.kept hd
  exact ⟨j, d', hd', hnode'.trans hnode, hparent' i hparent, hexpanded' hexpanded⟩

lemma Grown.expandedAt (grown : Grown doc library library') (h : library.ExpandedAt i) :
    library'.ExpandedAt i := by
  obtain ⟨d, hd, hexpanded⟩ := h
  obtain ⟨d', hd', -, hexpanded', -⟩ := grown.kept hd
  exact ⟨d', hd', hexpanded' hexpanded⟩

lemma Complete.grown (h : Complete doc library i) (hd : library.At i d)
    (grown : Grown doc library library') : Complete doc library' i := by
  intro d' hd' child hchild
  obtain ⟨d₁, hd₁, hnode, -⟩ := grown.kept hd
  rw [hd'.unique hd₁, hnode] at hchild
  exact (h d hd child hchild).grown grown

lemma Grown.refl (library : PrefabLibrary) : Grown doc library library := by
  refine ⟨rfl, rfl, le_rfl, fun {i d} hd => ⟨d, hd, rfl, id, fun _ => id⟩, ?_, .inl⟩
  exact fun {i d} hd hle => absurd hd.lt (Nat.not_lt_of_le hle)

lemma Grown.trans (h : Grown doc library library') (h' : Grown doc library' library'') :
    Grown doc library library'' := by
  refine ⟨h'.root.trans h.root, h'.singleRoot.trans h.singleRoot,
    h.length_le.trans h'.length_le, ?_, ?_, ?_⟩
  · intro i d hd
    obtain ⟨d₁, hd₁, hnode₁, hexpanded₁, hparent₁⟩ := h.kept hd
    obtain ⟨d₂, hd₂, hnode₂, hexpanded₂, hparent₂⟩ := h'.kept hd₁
    exact ⟨d₂, hd₂, hnode₂.trans hnode₁, hexpanded₂ ∘ hexpanded₁,
      fun p hp => hparent₂ p (hparent₁ p hp)⟩
  · intro i d hd hle
    by_cases hlt : i < library'.definitions.length
    · obtain ⟨d₁, hd₁⟩ := PrefabLibrary.exists_at hlt
      obtain ⟨p, hp⟩ := Option.ne_none_iff_exists'.mp (h.new hd₁ hle)
      obtain ⟨d₂, hd₂, -, -, hparent⟩ := h'.kept hd₁
      rw [hd.unique hd₂, hparent p hp]
      exact Option.some_ne_none p
    · exact h'.new hd (Nat.le_of_not_lt hlt)
  · intro i hexpanded
    rcases h'.done hexpanded with hexpanded | complete
    · rcases h.done hexpanded with hexpanded | complete
      · exact .inl hexpanded
      · obtain ⟨d, hd, -⟩ := hexpanded
        exact .inr (complete.grown hd h')
    · exact .inr complete

/-! ### The steps of the links -/

def PrefabLibrary.expand (library : PrefabLibrary) (index : ℕ) : PrefabLibrary :=
  library.modify index fun d => { d with expanded := true }

lemma Linked.expand (linked : Linked doc inside library) :
    Linked doc inside (library.expand index) := by
  have same : ∀ {i d}, (library.expand index).At i d → ∃ d₀, library.At i d₀ ∧ d.node = d₀.node ∧
      d.parent = d₀.parent := by
    intro i d hd
    obtain ⟨d₀, hd₀, rfl⟩ := PrefabLibrary.at_modify.mp hd
    refine ⟨d₀, hd₀, ?_⟩
    split <;> exact ⟨rfl, rfl⟩
  refine ⟨?_, ?_, ?_⟩
  · intro i d hd
    obtain ⟨d₀, hd₀, hnode, -⟩ := same hd
    rw [hnode]
    exact linked.inside hd₀
  · intro i j d d' hd hd' e
    obtain ⟨d₀, hd₀, hnode, -⟩ := same hd
    obtain ⟨d₁, hd₁, hnode', -⟩ := same hd'
    exact linked.distinct hd₀ hd₁ (hnode.symm.trans (e.trans hnode'))
  · intro i p d hd hp
    obtain ⟨d₀, hd₀, hnode, hparent⟩ := same hd
    obtain ⟨d₁, hd₁, hexpanded, hchild⟩ := linked.parents hd₀ (hparent.symm.trans hp)
    refine ⟨_, PrefabLibrary.at_modify.mpr ⟨d₁, hd₁, rfl⟩, ?_⟩
    rw [hnode]
    split
    · exact ⟨rfl, hchild⟩
    · exact ⟨hexpanded, hchild⟩

def PrefabLibrary.adopt (library : PrefabLibrary) (index child : ℕ) : PrefabLibrary :=
  library.modify child fun d => { d with parent := some index }

lemma Linked.adopt {existing : ℕ} {dc : Definition} (linked : Linked doc inside library)
    (hd : library.At index d) (hexpanded : d.expanded = true) (hc : library.At existing dc)
    (hchild : dc.node ∈ childrenOf doc d.node) : Linked doc inside (library.adopt index existing) := by
  have same : ∀ {i d}, (library.adopt index existing).At i d → ∃ d₀, library.At i d₀ ∧
      d.node = d₀.node ∧ d.parent = if existing = i then some index else d₀.parent := by
    intro i d hd
    obtain ⟨d₀, hd₀, rfl⟩ := PrefabLibrary.at_modify.mp hd
    refine ⟨d₀, hd₀, ?_⟩
    split <;> exact ⟨rfl, rfl⟩
  have kept : ∀ {i d}, library.At i d → ∃ d', (library.adopt index existing).At i d' ∧
      d'.node = d.node ∧ d'.expanded = d.expanded := by
    intro i d hd
    refine ⟨_, PrefabLibrary.at_modify.mpr ⟨d, hd, rfl⟩, ?_⟩
    split <;> exact ⟨rfl, rfl⟩
  refine ⟨?_, ?_, ?_⟩
  · intro i d hd
    obtain ⟨d₀, hd₀, hnode, -⟩ := same hd
    rw [hnode]
    exact linked.inside hd₀
  · intro i j d d' hd hd' e
    obtain ⟨d₀, hd₀, hnode, -⟩ := same hd
    obtain ⟨d₁, hd₁, hnode', -⟩ := same hd'
    exact linked.distinct hd₀ hd₁ (hnode.symm.trans (e.trans hnode'))
  · intro i p d' hd' hp
    obtain ⟨d₀, hd₀, hnode, hparent⟩ := same hd'
    rw [hparent] at hp
    split at hp
    · rename_i e
      subst e
      cases hp
      obtain ⟨d₁, hd₁, hnode₁, hexpanded₁⟩ := kept hd
      refine ⟨d₁, hd₁, hexpanded₁.trans hexpanded, ?_⟩
      rw [hnode, hnode₁, hd₀.unique hc]
      exact hchild
    · obtain ⟨d₁, hd₁, hexpanded₁, hchild₁⟩ := linked.parents hd₀ hp
      obtain ⟨d₂, hd₂, hnode₂, hexpanded₂⟩ := kept hd₁
      refine ⟨d₂, hd₂, hexpanded₂.trans hexpanded₁, ?_⟩
      rw [hnode, hnode₂]
      exact hchild₁

lemma Grown.adopt {existing : ℕ} {dc : Definition} (hc : library.At existing dc)
    (hparent : dc.parent = none) : Grown doc library (library.adopt index existing) := by
  refine ⟨rfl, rfl, PrefabLibrary.length_modify.ge, ?_, ?_, ?_⟩
  · intro i d hd
    refine ⟨_, PrefabLibrary.at_modify.mpr ⟨d, hd, rfl⟩, ?_⟩
    split
    · rename_i e
      subst e
      refine ⟨rfl, id, fun p hp => ?_⟩
      rw [hd.unique hc, hparent] at hp
      exact nomatch hp
    · exact ⟨rfl, id, fun p => id⟩
  · intro i d hd hle
    have hlt := hd.lt
    rw [PrefabLibrary.adopt, PrefabLibrary.length_modify] at hlt
    exact absurd hlt (Nat.not_lt_of_le hle)
  · rintro i ⟨d, hd, hexpanded⟩
    obtain ⟨d₀, hd₀, rfl⟩ := PrefabLibrary.at_modify.mp hd
    refine .inl ⟨d₀, hd₀, ?_⟩
    split at hexpanded <;> exact hexpanded

lemma Linked.push {nested : Definition} (linked : Linked doc inside library)
    (hd : library.At index d) (hexpanded : d.expanded = true) (hinside : nested.node ∈ inside)
    (hfresh : library.findByNode nested.node = none) (hparent : nested.parent = some index)
    (hchild : nested.node ∈ childrenOf doc d.node) : Linked doc inside (library.push nested) := by
  refine ⟨?_, ?_, ?_⟩
  · intro i d hd
    rcases PrefabLibrary.at_push.mp hd with hd | ⟨-, rfl⟩
    · exact linked.inside hd
    · exact hinside
  · intro i j d₁ d₂ h₁ h₂ e
    rcases PrefabLibrary.at_push.mp h₁ with old₁ | ⟨rfl, rfl⟩
    · rcases PrefabLibrary.at_push.mp h₂ with old₂ | ⟨rfl, rfl⟩
      · exact linked.distinct old₁ old₂ e
      · exact absurd e (PrefabLibrary.findByNode_none hfresh old₁)
    · rcases PrefabLibrary.at_push.mp h₂ with old₂ | ⟨rfl, -⟩
      · exact absurd e.symm (PrefabLibrary.findByNode_none hfresh old₂)
      · rfl
  · intro i p d' hd' hp
    rcases PrefabLibrary.at_push.mp hd' with hd' | ⟨-, rfl⟩
    · obtain ⟨d₁, hd₁, hrest⟩ := linked.parents hd' hp
      exact ⟨d₁, PrefabLibrary.at_push.mpr (.inl hd₁), hrest⟩
    · rw [hparent] at hp
      cases hp
      exact ⟨d, PrefabLibrary.at_push.mpr (.inl hd), hexpanded, hchild⟩

lemma Grown.push {nested : Definition} (hparent : nested.parent ≠ none)
    (hexpanded : nested.expanded = false) : Grown doc library (library.push nested) := by
  refine ⟨rfl, rfl, ?_, ?_, ?_, ?_⟩
  · rw [PrefabLibrary.push, List.length_append]
    exact Nat.le_add_right _ _
  · exact fun {i d} hd => ⟨d, PrefabLibrary.at_push.mpr (.inl hd), rfl, id, fun _ => id⟩
  · intro i d hd hle
    rcases PrefabLibrary.at_push.mp hd with hd | ⟨-, rfl⟩
    · exact absurd hd.lt (Nat.not_lt_of_le hle)
    · exact hparent
  · rintro i ⟨d, hd, he⟩
    rcases PrefabLibrary.at_push.mp hd with hd | ⟨-, rfl⟩
    · exact .inl ⟨d, hd, he⟩
    · rw [hexpanded] at he
      exact nomatch he

/-! ### The recursion -/

def unexpanded (nodes : Finset NodeId) (library : PrefabLibrary) : ℕ :=
  (nodes.filter fun n => ¬ ∃ d ∈ library.definitions, d.node = n ∧ d.expanded = true).card

variable {nodes : Finset NodeId}

lemma unexpanded_le (grown : Grown doc library library') :
    unexpanded nodes library' ≤ unexpanded nodes library := by
  refine Finset.card_le_card (Finset.monotone_filter_right nodes fun n _ hnot hold => hnot ?_)
  obtain ⟨d, hmem, hnode, hexpanded⟩ := hold
  obtain ⟨i, hd⟩ := List.mem_iff_getElem?.mp hmem
  obtain ⟨d', hd', hnode', hexpanded', -⟩ := grown.kept hd
  exact ⟨d', List.mem_of_getElem? hd', hnode'.trans hnode, hexpanded' hexpanded⟩

lemma unexpanded_expand (linked : Linked doc inside library) (hd : library.At index d)
    (hnot : d.expanded = false) (hmem : d.node ∈ nodes) :
    unexpanded nodes (library.expand index) < unexpanded nodes library := by
  refine Finset.card_lt_card (Finset.ssubset_iff_subset_ne.mpr ⟨?_, fun e => ?_⟩)
  · refine Finset.monotone_filter_right nodes fun n _ hn hold => hn ?_
    obtain ⟨d₀, hmem₀, hnode, hexpanded⟩ := hold
    obtain ⟨i, hd₀⟩ := List.mem_iff_getElem?.mp hmem₀
    refine ⟨_, List.mem_of_getElem? (PrefabLibrary.at_modify.mpr ⟨d₀, hd₀, rfl⟩), ?_⟩
    split
    · exact ⟨hnode, rfl⟩
    · exact ⟨hnode, hexpanded⟩
  · -- the node of the definition itself is no longer counted
    have before : d.node ∈ nodes.filter fun n =>
        ¬ ∃ d ∈ library.definitions, d.node = n ∧ d.expanded = true := by
      refine Finset.mem_filter.mpr ⟨hmem, ?_⟩
      rintro ⟨d₀, hmem₀, hnode, hexpanded⟩
      obtain ⟨i, hd₀⟩ := List.mem_iff_getElem?.mp hmem₀
      cases linked.distinct hd₀ hd hnode
      rw [PrefabLibrary.At.unique hd₀ hd, hnot] at hexpanded
      exact nomatch hexpanded
    rw [← e] at before
    exact (Finset.mem_filter.mp before).2
      ⟨_, List.mem_of_getElem? (PrefabLibrary.at_modify_self hd), rfl, rfl⟩

/-- What a call of `build_prefab_parent` gives. -/
structure Built (doc : Document δ) (inside : Set NodeId) (library : PrefabLibrary) (index : ℕ)
    (library' : PrefabLibrary) : Prop where
  linked : Linked doc inside library'
  grown : Grown doc library library'
  settled : Settled library'
  expanded : library'.ExpandedAt index

lemma Grown.expand (hd : library.At index d)
    (grown : Grown doc (library.expand index) library')
    (children : ∀ child ∈ childrenOf doc d.node, HasChild library' index child) :
    Grown doc library library' := by
  refine ⟨grown.root, grown.singleRoot, PrefabLibrary.length_modify.ge.trans grown.length_le,
    ?_, ?_, ?_⟩
  · intro i d₀ hd₀
    obtain ⟨d', hd', hnode, hexpanded, hparent⟩ :=
      grown.kept (PrefabLibrary.at_modify.mpr ⟨d₀, hd₀, rfl⟩)
    refine ⟨d', hd', ?_⟩
    split at hnode
    · rename_i e
      rw [if_pos e] at hexpanded hparent
      exact ⟨hnode, fun _ => hexpanded rfl, hparent⟩
    · rename_i e
      rw [if_neg e] at hexpanded hparent
      exact ⟨hnode, hexpanded, hparent⟩
  · intro i d' hd' hle
    refine grown.new hd' ?_
    rwa [PrefabLibrary.expand, PrefabLibrary.length_modify]
  · intro i hexpanded
    rcases grown.done hexpanded with ⟨d₁, hd₁, hexpanded⟩ | complete
    · obtain ⟨d₀, hd₀, rfl⟩ := PrefabLibrary.at_modify.mp hd₁
      split at hexpanded
      · rename_i e
        subst e
        refine .inr fun d' hd' child hchild => children child ?_
        obtain ⟨d₂, hd₂, hnode, -⟩ := grown.kept hd₁
        rw [hd'.unique hd₂, hnode, if_pos rfl, hd₀.unique hd] at hchild
        exact hchild
      · exact .inl ⟨d₀, hd₀, hexpanded⟩
    · exact .inr complete

/-- What the loop over the children `cs` of a definition gives. -/
structure Attached (doc : Document δ) (inside : Set NodeId) (library : PrefabLibrary) (index : ℕ)
    (cs : List NodeId) (library' : PrefabLibrary) : Prop where
  linked : Linked doc inside library'
  grown : Grown doc library library'
  settled : Settled library'
  children : ∀ child ∈ cs, HasChild library' index child

lemma checkKnownSections_total (node : NodeId) (what : String) :
    Total (checkKnownSections doc node what) fun _ => True := by
  rw [checkKnownSections]
  split
  · exact total_pure trivial
  · exact total_failWith _

lemma Built.attached {existing : ℕ} {dc : Definition} (hc : library'.At existing dc)
    (hnode : dc.node = child) (hparent : dc.parent = some index)
    (grown : Grown doc library library') (built : Built doc inside library' existing library'') :
    Attached doc inside library index [child] library'' := by
  refine ⟨built.linked, grown.trans built.grown, built.settled, ?_⟩
  intro c hmem
  cases List.mem_singleton.mp hmem
  obtain ⟨d', hd', hnode', -, hparent'⟩ := built.grown.kept hc
  obtain ⟨d'', hd'', hexpanded⟩ := built.expanded
  cases hd'.unique hd''
  exact ⟨existing, d', hd', hnode'.trans hnode, hparent' index hparent, hexpanded⟩

lemma buildChild_total {build : PrefabLibrary → ℕ → Load PrefabLibrary} {bound : ℕ}
    (builds : ∀ {library index d}, Linked doc inside library → library.At index d →
      (∀ {i d}, library.At i d → i ≠ index → d.parent ≠ none → d.expanded = true) →
      unexpanded nodes library < bound → Total (build library index)
        (Built doc inside library index))
    (linked : Linked doc inside library) (settled : Settled library)
    (hd : library.At index d) (hexpanded : d.expanded = true) (hinside : child ∈ inside)
    (hchild : child ∈ childrenOf doc d.node) (hbound : unexpanded nodes library < bound) :
    Total (buildChild doc build index library child)
      (Attached doc inside library index [child]) := by
  rw [buildChild]
  split
  · exact total_fail _
  refine (checkKnownSections_total child "child").bind fun _ _ => ?_
  cases hfind : library.findByNode child with
  | some existing =>
    obtain ⟨dc, hc, hnode⟩ := PrefabLibrary.findByNode_some hfind
    simp only
    split
    · exact total_failWith _
    · rename_i hnone
      have hparent : dc.parent = none := by
        rw [hc.parentOf, Option.not_isSome_iff_eq_none] at hnone
        exact hnone
      have grown : Grown doc library (library.adopt index existing) := .adopt hc hparent
      have adopted : (library.adopt index existing).At existing { dc with parent := some index } :=
        PrefabLibrary.at_modify_self hc
      have others : ∀ {i d}, (library.adopt index existing).At i d → i ≠ existing →
          d.parent ≠ none → d.expanded = true := by
        intro i d hd hne
        obtain ⟨d₀, hd₀, rfl⟩ := PrefabLibrary.at_modify.mp hd
        rw [if_neg (Ne.symm hne)]
        exact settled hd₀
      have linked' : Linked doc inside (library.adopt index existing) :=
        linked.adopt hd hexpanded hc (hnode ▸ hchild)
      refine (builds linked' adopted others ?_).imp fun _ built =>
        built.attached adopted hnode rfl grown
      exact lt_of_le_of_lt (unexpanded_le grown) hbound
  | none =>
    let nested : Definition := { Definition.ofNode ((givenName doc child).getD []) child with
      parent := some index }
    have grown : Grown doc library (library.push nested) :=
      .push (Option.some_ne_none index) rfl
    have added : (library.push nested).At library.definitions.length nested :=
      PrefabLibrary.at_push.mpr (.inr ⟨rfl, rfl⟩)
    have others : ∀ {i d}, (library.push nested).At i d → i ≠ library.definitions.length →
        d.parent ≠ none → d.expanded = true := by
      intro i d hd hne
      rcases PrefabLibrary.at_push.mp hd with hd | ⟨e, -⟩
      · exact settled hd
      · exact absurd e hne
    have linked' : Linked doc inside (library.push nested) :=
      linked.push hd hexpanded hinside hfind rfl hchild
    refine (builds linked' added others ?_).imp fun _ built =>
      built.attached added rfl rfl grown
    exact lt_of_le_of_lt (unexpanded_le grown) hbound

lemma buildChildren_total {build : PrefabLibrary → ℕ → Load PrefabLibrary} {bound : ℕ}
    (closed : ∀ n ∈ inside, ∀ c ∈ childrenOf doc n, c ∈ inside)
    (builds : ∀ {library index d}, Linked doc inside library → library.At index d →
      (∀ {i d}, library.At i d → i ≠ index → d.parent ≠ none → d.expanded = true) →
      unexpanded nodes library < bound → Total (build library index)
        (Built doc inside library index)) :
    ∀ {cs : List NodeId} {library : PrefabLibrary} {d : Definition}, Linked doc inside library →
      Settled library → library.At index d → d.expanded = true →
      (∀ child ∈ cs, child ∈ childrenOf doc d.node) → unexpanded nodes library < bound →
      Total (cs.foldlM (buildChild doc build index) library)
        (Attached doc inside library index cs) := by
  intro cs
  induction cs with
  | nil =>
    intro library d linked settled _ _ _ _
    exact total_pure ⟨linked, .refl library, settled, fun c hc => absurd hc List.not_mem_nil⟩
  | cons child cs ih =>
    intro library d linked settled hd hexpanded hcs hbound
    have hchild := hcs child List.mem_cons_self
    rw [List.foldlM_cons]
    refine (buildChild_total builds linked settled hd hexpanded
      (closed d.node (linked.inside hd) child hchild) hchild hbound).bind fun library₁ first => ?_
    obtain ⟨d₁, hd₁, hnode₁, hexpanded₁, -⟩ := first.grown.kept hd
    refine (ih first.linked first.settled hd₁ (hexpanded₁ hexpanded) (fun c hc => ?_)
      (lt_of_le_of_lt (unexpanded_le first.grown) hbound)).imp fun library₂ rest => ?_
    · rw [hnode₁]
      exact hcs c (.tail _ hc)
    · refine ⟨rest.linked, first.grown.trans rest.grown, rest.settled, ?_⟩
      intro c hc
      rcases List.mem_cons.mp hc with rfl | hc
      · exact (first.children c (List.mem_singleton_self c)).grown rest.grown
      · exact rest.children c hc

/-- **`build_prefab_parent`.** The recursion ends, and what it has expanded is complete. -/
theorem buildPrefabParent_total (closed : ∀ n ∈ inside, ∀ c ∈ childrenOf doc n, c ∈ inside)
    (finite : ∀ n ∈ inside, n ∈ nodes) :
    ∀ {fuel : ℕ} {library : PrefabLibrary} {index : ℕ} {d : Definition},
      Linked doc inside library → library.At index d →
      (∀ {i d}, library.At i d → i ≠ index → d.parent ≠ none → d.expanded = true) →
      unexpanded nodes library < fuel →
      Total (buildPrefabParent doc fuel library index) (Built doc inside library index) := by
  intro fuel
  induction fuel with
  | zero => exact fun _ _ _ hfuel => absurd hfuel (Nat.not_lt_zero _)
  | succ fuel ih =>
    intro library index d linked hd others hfuel
    rw [buildPrefabParent, show library.definitions[index]? = some d from hd]
    simp only
    by_cases hexpanded : d.expanded = true
    · rw [if_pos hexpanded]
      refine total_pure ⟨linked, .refl library, fun {i d'} hd' hparent => ?_, d, hd, hexpanded⟩
      by_cases e : i = index
      · subst e
        rwa [hd'.unique hd]
      · exact others hd' e hparent
    · rw [if_neg hexpanded]
      have hfalse : d.expanded = false := by simpa using hexpanded
      let marked := library.expand index
      have hmarked : marked.At index { d with expanded := true } :=
        PrefabLibrary.at_modify_self hd
      have settled : Settled marked := by
        intro i d' hd' hparent
        obtain ⟨d₀, hd₀, rfl⟩ := PrefabLibrary.at_modify.mp hd'
        split at hparent
        · rename_i e
          rw [if_pos e]
        · rename_i e
          rw [if_neg e]
          exact others hd₀ (Ne.symm e) hparent
      have hless := unexpanded_expand linked hd hfalse (finite _ (linked.inside hd))
      -- what the loop over all children gives is what the call gives
      have built : ∀ {library'}, Attached doc inside marked index (childrenOf doc d.node)
          library' → Built doc inside library index library' := fun attached =>
        ⟨attached.linked, .expand hd attached.grown attached.children, attached.settled,
          attached.grown.expandedAt ⟨_, hmarked, rfl⟩⟩
      cases hsection : sectionOf doc d.node "children" with
      | none =>
        have hnone : childrenOf doc d.node = [] := by rw [childrenOf, hsection]
        refine total_pure (built ⟨linked.expand, .refl marked, settled, fun c hc => ?_⟩)
        rw [hnone] at hc
        exact absurd hc List.not_mem_nil
      | some children =>
        have hitems : childrenOf doc d.node = (doc children).items := by rw [childrenOf, hsection]
        simp only
        split
        · exact total_fail _
        · rw [← hitems]
          exact (buildChildren_total closed ih linked.expand settled hmarked rfl
            (fun _ hc => hc) (by omega)).imp fun _ => built

end PulseEngine.Prefab
