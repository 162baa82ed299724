import PulseEngine.Prefab.Links

/-!
# Collected definitions

What `collect_library` gives: definitions of different containers of the text, none with a parent
yet. In the list form every entry but the root is a child of a node that an entry comes to.
-/

namespace PulseEngine.Prefab

open Datalist Library

variable {δ : Type} {parsed : Parsed δ} {doc : Document δ} {library : PrefabLibrary}
  {i j : ℕ} {d d' : Definition} {node child : NodeId}

abbrev Comes (doc : Document δ) : NodeId → NodeId → Prop :=
  Relation.ReflTransGen (ChildOf (childrenOf doc))

def Referred (doc : Document δ) (library : PrefabLibrary) (node : NodeId) : Prop :=
  ∃ j d m, library.At j d ∧ Comes doc d.node m ∧ node ∈ childrenOf doc m

def PrefabLibrary.nodes (library : PrefabLibrary) : List NodeId :=
  library.definitions.map Definition.node

def entryNodes (parsed : Parsed δ) : List NodeId :=
  if (parsed.doc parsed.root).entries = [] then (parsed.doc parsed.root).items
  else if rootHasSection parsed.doc parsed.root then [parsed.root]
  else (parsed.doc parsed.root).entries.map (·.2)

structure Gathered (parsed : Parsed δ) (library : PrefabLibrary) : Prop where
  inside : ∀ {i d}, library.At i d → d.node ∈ parsed.nodes
  container : ∀ {i d}, library.At i d → nodeIsContainer parsed.doc d.node = true
  distinct : ∀ {i j d d'}, library.At i d → library.At j d' → d.node = d'.node → i = j
  fresh : ∀ {i d}, library.At i d → d.parent = none ∧ d.expanded = false

def SingleRoot (parsed : Parsed δ) (library : PrefabLibrary) : Prop :=
  library.singleRoot = true ∨ rootHasSection parsed.doc parsed.root = true

structure Collected (parsed : Parsed δ) (library : PrefabLibrary) : Prop
    extends Gathered parsed library where
  nodes : library.nodes = entryNodes parsed
  root : SingleRoot parsed library → ∃ r, library.root = some r ∧
    r < library.definitions.length ∧
    ∀ {i d}, library.At i d → i ≠ r → Referred parsed.doc library d.node
  alone : SingleRoot parsed library → library.singleRoot = false →
    library.definitions.length = 1

lemma sectionOf_mem {key : String} (hn : node ∈ parsed.nodes)
    (h : sectionOf parsed.doc node key = some child) : child ∈ parsed.nodes := by
  obtain ⟨hvalue, -⟩ := getObj_value h
  obtain ⟨entry, hentry, rfl⟩ := Option.map_eq_some_iff.mp hvalue
  exact parsed.entries_mem node hn entry (List.mem_of_find?_eq_some hentry)

lemma childrenOf_mem (hn : node ∈ parsed.nodes) (hc : child ∈ childrenOf parsed.doc node) :
    child ∈ parsed.nodes := by
  rw [childrenOf] at hc
  split at hc
  · exact absurd hc List.not_mem_nil
  · rename_i children hsection
    exact parsed.items_mem children (sectionOf_mem hn hsection) child hc

lemma Gathered.empty : Gathered parsed .empty := by
  have none_at : ∀ {i d}, ¬ PrefabLibrary.empty.At i d := fun h => absurd h.lt (Nat.not_lt_zero _)
  exact ⟨fun h => absurd h none_at, fun h => absurd h none_at, fun h => absurd h none_at,
    fun h => absurd h none_at⟩

lemma Gathered.congr (h : Gathered parsed library) (root : Option ℕ) (single : Bool) :
    Gathered parsed ⟨library.definitions, root, single⟩ :=
  ⟨h.inside, h.container, h.distinct, h.fresh⟩

lemma Gathered.push {name : Text} (h : Gathered parsed library) (hnode : node ∈ parsed.nodes)
    (hcontainer : nodeIsContainer parsed.doc node = true)
    (hfresh : library.findByNode node = none) :
    Gathered parsed (library.push (.ofNode name node)) := by
  refine ⟨?_, ?_, ?_, ?_⟩
  · intro i d hd
    rcases PrefabLibrary.at_push.mp hd with hd | ⟨-, rfl⟩
    · exact h.inside hd
    · exact hnode
  · intro i d hd
    rcases PrefabLibrary.at_push.mp hd with hd | ⟨-, rfl⟩
    · exact h.container hd
    · exact hcontainer
  · intro i j d₁ d₂ h₁ h₂ e
    rcases PrefabLibrary.at_push.mp h₁ with old₁ | ⟨rfl, rfl⟩
    · rcases PrefabLibrary.at_push.mp h₂ with old₂ | ⟨rfl, rfl⟩
      · exact h.distinct old₁ old₂ e
      · exact absurd e (PrefabLibrary.findByNode_none hfresh old₁)
    · rcases PrefabLibrary.at_push.mp h₂ with old₂ | ⟨rfl, -⟩
      · exact absurd e.symm (PrefabLibrary.findByNode_none hfresh old₂)
      · rfl
  · intro i d hd
    rcases PrefabLibrary.at_push.mp hd with hd | ⟨-, rfl⟩
    · exact h.fresh hd
    · exact ⟨rfl, rfl⟩

def reached (doc : Document δ) (library : PrefabLibrary) : Set NodeId :=
  {n | ∃ i d, library.At i d ∧ Comes doc d.node n}

lemma reached_closed (hn : node ∈ reached doc library) (hc : child ∈ childrenOf doc node) :
    child ∈ reached doc library := by
  obtain ⟨i, d, hd, path⟩ := hn
  exact ⟨i, d, hd, path.tail hc⟩

lemma Gathered.reached_mem (h : Gathered parsed library) (hn : node ∈ reached parsed.doc library) :
    node ∈ parsed.nodes := by
  obtain ⟨i, d, hd, path⟩ := hn
  induction path with
  | refl => exact h.inside hd
  | tail _ hstep ih => exact childrenOf_mem ih hstep

lemma Gathered.linked (h : Gathered parsed library) :
    Linked parsed.doc (reached parsed.doc library) library := by
  refine ⟨fun {i d} hd => ⟨i, d, hd, .refl⟩, h.distinct, fun hd hp => ?_⟩
  rw [(h.fresh hd).1] at hp
  exact nomatch hp

lemma collectAll_total {α : Type} {I : PrefabLibrary → Prop}
    {step : PrefabLibrary → α → Load PrefabLibrary} {nodeAt : α → NodeId} :
    ∀ {as : List α} {library : PrefabLibrary}, I library →
      (∀ a ∈ as, ∀ library, I library → Total (step library a) fun library' =>
        I library' ∧ library'.nodes = library.nodes ++ [nodeAt a]) →
      Total (as.foldlM step library) fun library' =>
        I library' ∧ library'.nodes = library.nodes ++ as.map nodeAt := by
  intro as
  induction as with
  | nil => exact fun hi _ => total_pure ⟨hi, (List.append_nil _).symm⟩
  | cons a as ih =>
    intro library hi hstep
    rw [List.foldlM_cons]
    refine (hstep a List.mem_cons_self library hi).bind fun library₁ h₁ => ?_
    obtain ⟨hi₁, nodes₁⟩ := h₁
    refine (ih hi₁ fun b hb => hstep b (.tail _ hb)).imp fun library₂ h₂ => ⟨h₂.1, ?_⟩
    rw [h₂.2, nodes₁, List.map_cons, List.append_assoc]
    rfl

lemma nodes_push {name : Text} :
    (library.push (.ofNode name node)).nodes = library.nodes ++ [node] :=
  List.map_append ..

/-! ### One prefab, and a map of prefabs -/

lemma collectSinglePrefab_total (hsection : rootHasSection parsed.doc parsed.root = true)
    (hentries : (parsed.doc parsed.root).entries ≠ [])
    (hcontainer : nodeIsContainer parsed.doc parsed.root = true) :
    Total (collectSinglePrefab parsed.doc parsed.root .empty) (Collected parsed) := by
  refine (checkKnownSections_total parsed.root "section").bind fun _ _ => total_pure ?_
  refine ⟨.congr (.push .empty parsed.root_mem hcontainer rfl) _ _, ?_, fun _ => ?_, fun _ _ => rfl⟩
  · rw [entryNodes, if_neg hentries, if_pos hsection]
    rfl
  · refine ⟨0, rfl, Nat.one_pos, fun {i d} hd hne => absurd ?_ hne⟩
    exact Nat.lt_one_iff.mp hd.lt

lemma collectEntry_total {entry : Text × NodeId} (h : Gathered parsed library)
    (hsingle : library.singleRoot = false) (hentry : entry.2 ∈ parsed.nodes) :
    Total (collectEntry parsed.doc library entry) fun library' =>
      (Gathered parsed library' ∧ library'.singleRoot = false) ∧
        library'.nodes = library.nodes ++ [entry.2] := by
  obtain ⟨key, node⟩ := entry
  rw [collectEntry]
  simp only
  split
  · exact total_fail _
  split
  · exact total_failWith _
  rename_i hcontainer
  refine (checkKnownSections_total node "prefab").bind fun _ _ => ?_
  split
  · exact total_failWith _
  rename_i hfresh
  split
  · exact total_failWith _
  · exact total_pure ⟨⟨h.push hentry (not_not.mp (not_or.mp hcontainer).1)
      (Option.not_isSome_iff_eq_none.mp hfresh), hsingle⟩, nodes_push⟩

lemma collectPrefabLibrary_total (hmap : ¬ rootHasSection parsed.doc parsed.root = true)
    (hentries : (parsed.doc parsed.root).entries ≠ []) :
    Total (collectPrefabLibrary parsed.doc parsed.root .empty) (Collected parsed) := by
  have loop : Total ((parsed.doc parsed.root).entries.foldlM (collectEntry parsed.doc)
      PrefabLibrary.empty) fun library => (Gathered parsed library ∧ library.singleRoot = false) ∧
        library.nodes = [] ++ (parsed.doc parsed.root).entries.map (·.2) := by
    refine collectAll_total ⟨Gathered.empty, rfl⟩ fun entry hentry library h => ?_
    obtain ⟨gathered, hsingle⟩ := h
    exact collectEntry_total gathered hsingle (parsed.entries_mem _ parsed.root_mem entry hentry)
  refine loop.bind fun library h => total_pure ?_
  obtain ⟨⟨gathered, hsingle⟩, hnodes⟩ := h
  have several : ¬ SingleRoot parsed { library with root := some 0 } := by
    rintro (hroot | hsection)
    · rw [show library.singleRoot = true from hroot] at hsingle
      exact Bool.noConfusion hsingle
    · exact hmap hsection
  refine ⟨gathered.congr _ _, ?_, fun single => absurd single several,
    fun single => absurd single several⟩
  rw [entryNodes, if_neg hentries, if_neg hmap]
  exact hnodes

/-! ### A list of entries -/

lemma collectItem_total {item : NodeId × ℕ} (h : Gathered parsed library)
    (hitem : item.1 ∈ parsed.nodes) :
    Total (collectItem parsed.doc library item) fun library' =>
      Gathered parsed library' ∧ library'.nodes = library.nodes ++ [item.1] := by
  obtain ⟨node, i⟩ := item
  rw [collectItem]
  split
  · exact total_failWith _
  rename_i hcontainer
  refine (checkKnownSections_total node "entry").bind fun _ _ => ?_
  split
  · exact total_failWith _
  · rename_i hfresh
    exact total_pure ⟨h.push hitem (not_not.mp (not_or.mp hcontainer).1)
      (Option.not_isSome_iff_eq_none.mp hfresh), nodes_push⟩

structure Marked (doc : Document δ) (library : PrefabLibrary) (marks : Marks) : Prop where
  length : marks.referenced.length = library.definitions.length
  referred : ∀ {i d}, library.At i d → marks.referenced[i]? = some true →
    Referred doc library d.node

def unvisited (nodes : Finset NodeId) (marks : Marks) : ℕ :=
  (nodes.filter (· ∉ marks.visited)).card

lemma unvisited_le {nodes : Finset NodeId} {marks marks' : Marks}
    (h : marks.visited ⊆ marks'.visited) : unvisited nodes marks' ≤ unvisited nodes marks :=
  Finset.card_le_card (Finset.monotone_filter_right nodes fun _ _ hn hold => hn (h hold))

lemma unvisited_visit {nodes : Finset NodeId} {marks : Marks} (hn : node ∈ nodes)
    (hnot : node ∉ marks.visited) :
    unvisited nodes { marks with visited := marks.visited ++ [node] } < unvisited nodes marks := by
  refine Finset.card_lt_card (Finset.ssubset_iff_subset_ne.mpr ⟨?_, fun e => ?_⟩)
  · exact Finset.monotone_filter_right nodes fun n _ hn hold =>
      hn (List.mem_append_left _ hold)
  · have before : node ∈ nodes.filter (· ∉ marks.visited) := Finset.mem_filter.mpr ⟨hn, hnot⟩
    rw [← e] at before
    exact (Finset.mem_filter.mp before).2 (List.mem_append_right _ (List.mem_singleton_self node))

lemma Marked.set {marks : Marks} (h : Marked doc library marks) (hd : library.At i d)
    (hreferred : Referred doc library d.node) :
    Marked doc library { marks with referenced := marks.referenced.set i true } := by
  refine ⟨by rw [List.length_set]; exact h.length, fun {j d'} hd' hmark => ?_⟩
  by_cases e : i = j
  · subst e
    rwa [hd'.unique hd]
  · rw [List.getElem?_set_ne e] at hmark
    exact h.referred hd' hmark

/-- **`mark_child_references`.** The recursion ends, and marks only what is referred to. -/
theorem markChildReferences_total : ∀ {fuel : ℕ} {marks : Marks} {node : NodeId},
    node ∈ reached parsed.doc library → node ∈ parsed.nodes →
    Marked parsed.doc library marks → unvisited parsed.nodes marks < fuel →
    Total (markChildReferences parsed.doc library fuel marks node) fun marks' =>
      Marked parsed.doc library marks' ∧ marks.visited ⊆ marks'.visited := by
  intro fuel
  induction fuel with
  | zero => exact fun _ _ _ hfuel => absurd hfuel (Nat.not_lt_zero _)
  | succ fuel ih =>
    rintro marks node ⟨j, dj, hj, path⟩ hnode marked hfuel
    rw [markChildReferences]
    split
    · exact total_pure ⟨marked, fun _ hn => hn⟩
    rename_i hnot
    let visited : Marks := { marks with visited := marks.visited ++ [node] }
    have hsub : marks.visited ⊆ visited.visited := List.subset_append_left _ _
    have hvisited : Marked parsed.doc library visited := ⟨marked.length, marked.referred⟩
    have hless : unvisited parsed.nodes visited < unvisited parsed.nodes marks :=
      unvisited_visit hnode hnot
    simp only
    cases hsection : sectionOf parsed.doc node "children" with
    | none => exact total_pure ⟨hvisited, hsub⟩
    | some children =>
      simp only
      split
      · exact total_fail _
      have loop : Total ((parsed.doc children).items.foldlM (markChild parsed.doc library
          (markChildReferences parsed.doc library fuel)) visited) fun marks' =>
            Marked parsed.doc library marks' ∧ visited.visited ⊆ marks'.visited := by
        refine total_foldlM ⟨hvisited, fun _ hn => hn⟩ fun child hchild marks₁ inv => ?_
        obtain ⟨marked₁, hsub₁⟩ := inv
        have hin : child ∈ childrenOf parsed.doc node := by rwa [childrenOf, hsection]
        have hreached : child ∈ reached parsed.doc library := ⟨j, dj, hj, path.tail hin⟩
        have hchild' : child ∈ parsed.nodes := childrenOf_mem hnode hin
        have hfuel₁ : unvisited parsed.nodes marks₁ < fuel :=
          lt_of_le_of_lt (unvisited_le hsub₁) (by omega)
        rw [markChild]
        split
        · exact total_pure ⟨marked₁, hsub₁⟩
        · cases hfind : library.findByNode child with
          | none =>
            exact (ih hreached hchild' marked₁ hfuel₁).imp
              fun _ h => ⟨h.1, List.Subset.trans hsub₁ h.2⟩
          | some index =>
            obtain ⟨di, hi, rfl⟩ := PrefabLibrary.findByNode_some hfind
            exact (ih hreached hchild' (marked₁.set hi ⟨j, dj, node, hj, path, hin⟩) hfuel₁).imp
              fun _ h => ⟨h.1, List.Subset.trans hsub₁ h.2⟩
      exact loop.imp fun _ h => ⟨h.1, List.Subset.trans hsub h.2⟩

lemma findRoot_total : ∀ {marks : List Bool} {k : ℕ} {root : Option ℕ},
    Total ((marks.zipIdx k).foldlM (findRoot library) root) fun root' =>
      (∀ r, root = some r → root' = some r) ∧
      (∀ i, marks[i]? = some false → root' = some (k + i)) ∧
      ∀ r, root' = some r → root = some r ∨ r < k + marks.length := by
  intro marks
  induction marks with
  | nil =>
    intro k root
    exact total_pure ⟨fun _ hr => hr, fun i hi => absurd hi (by simp), fun _ hr => .inl hr⟩
  | cons mark marks ih =>
    intro k root
    rw [List.zipIdx_cons, List.foldlM_cons]
    have first : Total (findRoot library root (mark, k)) fun root' =>
        (∀ r, root = some r → root' = some r) ∧ (mark = false → root' = some k) ∧
          ∀ r, root' = some r → root = some r ∨ r = k := by
      cases mark with
      | true => exact total_pure ⟨fun _ hr => hr, fun h => Bool.noConfusion h, fun _ hr => .inl hr⟩
      | false =>
        cases root with
        | none =>
          exact total_pure ⟨fun _ hr => (nomatch hr), fun _ => rfl,
            fun _ hr => .inr (Option.some.inj hr).symm⟩
        | some r => exact total_failWith _
    refine first.bind fun root₁ h₁ => ih.imp fun root₂ h₂ => ?_
    obtain ⟨kept₁, found₁, from₁⟩ := h₁
    obtain ⟨kept₂, found₂, from₂⟩ := h₂
    refine ⟨fun r hr => kept₂ r (kept₁ r hr), ?_, ?_⟩
    · intro i hi
      cases i with
      | zero => exact kept₂ k (found₁ (Option.some.inj hi))
      | succ i =>
        rw [found₂ i hi]
        exact congrArg some (by omega)
    · intro r hr
      rw [List.length_cons]
      rcases from₂ r hr with hr | hlt
      · rcases from₁ r hr with hr | rfl
        · exact .inl hr
        · exact .inr (by omega)
      · exact .inr (by omega)

lemma collectSectionList_total (hlist : (parsed.doc parsed.root).entries = []) :
    Total (collectSectionList parsed .empty) (Collected parsed) := by
  rw [collectSectionList]
  split
  · exact total_fail _
  have items : Total ((parsed.doc parsed.root).items.zipIdx.foldlM (collectItem parsed.doc)
      PrefabLibrary.empty) fun library => Gathered parsed library ∧
        library.nodes = [] ++ (parsed.doc parsed.root).items.zipIdx.map (·.1) :=
    collectAll_total Gathered.empty fun item hitem _ h => collectItem_total h
      (parsed.items_mem _ parsed.root_mem _ (List.fst_mem_of_mem_zipIdx hitem))
  refine items.bind fun library gathered => ?_
  obtain ⟨gathered, hnodes⟩ := gathered
  have none_marked : Marked parsed.doc library ⟨[], library.definitions.map fun _ => false⟩ := by
    refine ⟨List.length_map _, fun {i d} _ hmark => ?_⟩
    rw [List.getElem?_map, Option.map_eq_some_iff] at hmark
    obtain ⟨_, -, hmark⟩ := hmark
    exact Bool.noConfusion hmark
  have marks : Total (library.definitions.foldlM (fun marks definition =>
      markChildReferences parsed.doc library (nodeFuel parsed) marks definition.node)
      ⟨[], library.definitions.map fun _ => false⟩) (Marked parsed.doc library) := by
    refine total_foldlM none_marked fun d hd marks marked => ?_
    obtain ⟨j, hj⟩ := List.mem_iff_getElem?.mp hd
    have hfuel : unvisited parsed.nodes marks < nodeFuel parsed :=
      Nat.lt_succ_of_le (Finset.card_filter_le _ _)
    exact (markChildReferences_total ⟨j, d, hj, .refl⟩ (gathered.inside hj) marked hfuel).imp
      fun _ h => h.1
  refine marks.bind fun marks marked => findRoot_total.bind fun root found => ?_
  obtain ⟨-, unmarked, below⟩ := found
  cases root with
  | none => exact total_fail _
  | some r =>
    refine total_pure ⟨gathered.congr _ _, ?_,
      fun _ => ⟨r, rfl, ?_, fun {i d} hd hne => ?_⟩, fun _ h => Bool.noConfusion h⟩
    · rw [entryNodes, if_pos hlist]
      exact hnodes.trans (List.zipIdx_map_fst 0 _)
    · rcases below r rfl with h | hlt
      · exact nomatch h
      · rw [marked.length, Nat.zero_add] at hlt
        exact hlt
    · have hlt : i < marks.referenced.length := by
        rw [marked.length]
        exact hd.lt
      refine marked.referred hd ?_
      rw [List.getElem?_eq_getElem hlt]
      cases hmark : marks.referenced[i] with
      | true => rfl
      | false =>
        have hroot := unmarked i (by rw [List.getElem?_eq_getElem hlt, hmark])
        rw [Nat.zero_add] at hroot
        exact absurd (Option.some.inj hroot).symm hne

/-- **`collect_library`** ends, and gives the definitions of the text. -/
theorem collectLibrary_total : Total (collectLibrary parsed .empty) (Collected parsed) := by
  rw [collectLibrary]
  split
  · exact total_fail _
  rename_i hcontainer
  split
  · rename_i hlist
    exact collectSectionList_total hlist
  rename_i hentries
  split
  · rename_i hsection
    exact collectSinglePrefab_total hsection hentries (not_not.mp hcontainer)
  · rename_i hmap
    refine (collectPrefabLibrary_total hmap hentries).bind fun library collected => ?_
    split
    · exact total_fail _
    · exact total_pure collected

end PulseEngine.Prefab
