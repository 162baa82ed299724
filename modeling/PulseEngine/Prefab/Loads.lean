import PulseEngine.Prefab.Entities

/-!
# Loads of prefabs

What holds of a load over all its steps: a prefab that is loaded is a forest, and a load ends unless
the scan for references is led round a circle of children.
-/

namespace PulseEngine.Prefab

open Datalist Library

variable {δ ω γ : Type} [Double δ] {flecs : Flecs δ ω γ} {world world' : ω} {parsed : Parsed δ}
  {library library' : PrefabLibrary} {depth : γ → ℕ} {fuel fuel' : ℕ} {pending : Reference → Bool}
  {state state' : LoadState} {status : Status ω} {turns : List (ω × (Reference → Bool))}

/-! ### Building -/

omit [Double δ] in
lemma buildLinks_total (collected : Collected parsed library) :
    Total ((topIndices library).foldlM (buildPrefabParent parsed.doc (nodeFuel parsed)) library)
      (Expanded parsed.doc (reached parsed.doc library) library (topIndices library)) := by
  refine buildParents_total (fun _ hn _ => reached_closed hn)
    (fun _ => collected.toGathered.reached_mem) (Nat.lt_succ_self _) collected.toGathered.linked
    (fun hd hparent => absurd (collected.fresh hd).1 hparent) fun i hi => ?_
  rw [topIndices] at hi
  split at hi
  · rename_i single
    obtain ⟨r, hroot, hlt, -⟩ := collected.root (.inl single)
    rw [hroot] at hi
    cases List.mem_singleton.mp hi
    exact hlt
  · exact List.mem_range.mp hi

omit [Double δ] in
lemma topIndices_roots (collected : Collected parsed library) {i : ℕ} {d : Definition}
    (hd : library.At i d) : i ∈ topIndices library ∨ Referred parsed.doc library d.node := by
  rw [topIndices]
  split
  · rename_i single
    obtain ⟨r, hroot, -, referred⟩ := collected.root (.inl single)
    rw [hroot]
    by_cases e : i = r
    · exact .inl (List.mem_singleton.mpr e)
    · exact .inr (referred hd e)
  · exact .inl (List.mem_range.mpr hd.lt)

lemma forest_of_build (collected : Collected parsed library)
    (acyclic : ∀ n ∈ reached parsed.doc library,
      ¬ Relation.TransGen (ChildOf (childrenOf parsed.doc)) n n)
    (h : Returns (buildPrefabLibrary flecs parsed world library) (world', library')) :
    Forest parsed library' := by
  obtain ⟨linked, hlinked, h⟩ := returns_bind.mp h
  obtain ⟨based, hbased, h⟩ := returns_bind.mp h
  obtain ⟨_, -, h⟩ := returns_bind.mp h
  obtain ⟨_, -, h⟩ := returns_bind.mp h
  have forest : Forest parsed linked := forest_of_expanded collected acyclic
    ((buildLinks_total collected).2 linked hlinked) fun hd => topIndices_roots collected hd
  have made : Alike (world, based).2 ((List.range based.definitions.length).foldl (newEntity flecs)
      (world, based)).2 :=
    newEntities_alike
  cases returns_pure.mp h
  exact (forest.alike (resolvePrefabBases_total.2 based hbased)).alike made

lemma buildPrefabLibrary_ends (nested : Nested flecs depth) (collected : Collected parsed library) :
    Ends (buildPrefabLibrary flecs parsed world library) := by
  have total : Total (buildPrefabLibrary flecs parsed world library) fun _ => True := by
    refine (buildLinks_total collected).bind fun linked _ => ?_
    refine resolvePrefabBases_total.bind fun based _ => ?_
    have fill : ∀ world definitions, Total (List.foldlM (fillEntity flecs parsed.doc) world
        definitions) fun _ => True := fun world definitions =>
      total_foldlM trivial fun _ _ _ _ => fillEntity_total nested
    exact (fill _ _).bind fun _ _ =>
      (total_foldlM trivial fun _ _ _ _ => linkBase_total).bind fun _ _ => total_pure trivial
  exact total.1

/-! ### Scanning -/

def scanDefinitions (flecs : Flecs δ ω γ) (world : ω) (parsed : Parsed δ) (fuel : ℕ)
    (library : PrefabLibrary) : Load (List Reference) :=
  each (withBelow (scanNodeReferences flecs world parsed.doc)
    (descend (scanNodeReferences flecs world parsed.doc) (childrenOf parsed.doc) fuel))
    library.nodes

lemma mustWait_eq (gathered : Gathered parsed library) (notReady : state.referencesReady = false) :
    mustWait flecs parsed fuel world pending state library = (do
      let met ← scanDefinitions flecs world parsed fuel library
      pure ((met.foldl collectReference []).any pending)) := by
  rw [mustWait, notReady, if_neg Bool.false_ne_true, scanDefinitions]
  refine congrArg (· >>= _) (each_map fun d hd => ?_)
  obtain ⟨i, hi⟩ := List.mem_iff_getElem?.mp hd
  rw [scanAssetReferences, if_neg (not_not.mpr (gathered.container hi))]
  rfl

lemma acyclic_of_scan {met : List Reference}
    (h : Returns (scanDefinitions flecs world parsed fuel library) met) {n : NodeId}
    (hn : n ∈ reached parsed.doc library) :
    ¬ Relation.TransGen (ChildOf (childrenOf parsed.doc)) n n := by
  obtain ⟨i, d, hd, path⟩ := hn
  have hmem : d ∈ library.definitions := List.mem_of_getElem? hd
  exact (passes_of_returns_each ⟨met, h⟩ d.node (List.mem_map_of_mem hmem) n path).2

/-! ### Steps -/

structure Waiting (parsed : Parsed δ) (state : LoadState) : Prop where
  notReady : state.referencesReady = false
  collected : ∀ {library}, state.library = some library →
    Returns (collectLibrary parsed .empty) library

omit [Double δ] in
lemma Waiting.fresh : Waiting parsed .fresh := ⟨rfl, fun h => nomatch h⟩

omit [Double δ] in
lemma Waiting.libraryOf (waiting : Waiting parsed state)
    (h : Returns (libraryOf parsed state) library) :
    Returns (collectLibrary parsed .empty) library := by
  rw [Prefab.libraryOf] at h
  split at h
  · rename_i library' hstate
    rw [← returns_pure.mp h]
    exact waiting.collected hstate
  · exact h

lemma Waiting.step (waiting : Waiting parsed state)
    (h : Returns (stepPrefabLoad flecs parsed fuel world pending state) (state', status)) :
    ∃ library met, Returns (collectLibrary parsed .empty) library ∧
      Returns (scanDefinitions flecs world parsed fuel library) met ∧
      (status = .pending ∧ Waiting parsed state' ∨ ∃ world' built, status = .done world' built ∧
        Returns (buildPrefabLibrary flecs parsed world library) (world', built)) := by
  obtain ⟨library, hlibrary, h⟩ := returns_bind.mp h
  obtain ⟨wait, hwait, h⟩ := returns_bind.mp h
  have hcollect := waiting.libraryOf hlibrary
  rw [mustWait_eq (collectLibrary_total.2 library hcollect).toGathered waiting.notReady] at hwait
  obtain ⟨met, hscan, -⟩ := returns_bind.mp hwait
  refine ⟨library, met, hcollect, hscan, ?_⟩
  cases wait with
  | true =>
    cases returns_pure.mp h
    refine .inl ⟨rfl, rfl, fun e => ?_⟩
    cases e
    exact hcollect
  | false =>
    obtain ⟨⟨world', built⟩, hbuild, h⟩ := returns_bind.mp h
    cases returns_pure.mp h
    exact .inr ⟨world', built, rfl, hbuild⟩

/-! ### The hierarchy of a loaded prefab -/

lemma Waiting.forest : ∀ {turns : List (ω × (Reference → Bool))} {state : LoadState},
    Waiting parsed state → Returns (load flecs parsed fuel turns state) (.done world library) →
      Forest parsed library := by
  intro turns
  induction turns with
  | nil => exact fun _ h => nomatch returns_pure.mp h
  | cons turn turns ih =>
    intro state waiting h
    obtain ⟨⟨state', status⟩, hstep, h⟩ := returns_bind.mp h
    obtain ⟨library', met, hcollect, hscan, hstatus⟩ := waiting.step hstep
    rcases hstatus with ⟨rfl, waiting'⟩ | ⟨world', built, rfl, hbuild⟩
    · exact ih waiting' h
    · cases returns_pure.mp h
      exact forest_of_build (collectLibrary_total.2 library' hcollect)
        (fun n hn => acyclic_of_scan hscan hn) hbuild

/-- **The hierarchy of a prefab is a forest.** In every load that is done, the parent of a definition
is the one definition that has it among its children, no definition is above itself, and where the
prefab has a single root all definitions are below it. -/
theorem load_forest
    (h : Returns (load flecs parsed fuel turns .fresh) (.done world library)) :
    Forest parsed library :=
  Waiting.fresh.forest h

def plainFlecs : Flecs Int ℕ ℕ where
  push c := if c < 32 then some (c + 1) else none
  pop c := if 0 < c then some (c - 1) else none
  isCollection _ := false
  elem c _ := some c
  tryDotmember c _ := (c, false)
  type _ := 0
  setBool c _ := some c
  setInt c _ := some c
  setFloat c _ := some c
  setString c _ := some c
  setEntity c _ := some c
  entityType := 1
  stringType := 2
  maxScopes := 32
  lookup _ _ := 0
  opaqueOf _ _ := none
  typeInfo _ _ := none
  scratch _ _ := none
  pair rel tgt := 2 ^ 63 + rel * 2 ^ 32 + tgt
  idIsTag _ _ := true
  addId entities _ _ := entities
  ensure entities _ _ := (entities, false)
  cursorAt _ _ _ _ := none
  stored entities _ _ _ := entities
  modified entities _ _ := entities
  new entities := (entities + 1, entities + 1)
  setName entities _ _ := entities
  isAlive entities entity := 0 < entity && entity ≤ entities
  delete entities _ := entities
  childOf := 3
  isA := 4
  prefabTag := 5

def twoEntries : Parsed Int where
  doc
    | 0 => { Node.empty .list with items := [1, 4] }
    | 1 => { Node.empty .map with entries := [("name".toList, 2), ("children".toList, 3)] }
    | 2 => { Node.empty .string with s := "body".toList }
    | 3 => { Node.empty .list with items := [4] }
    | 4 => { Node.empty .map with entries := [("name".toList, 5)] }
    | 5 => { Node.empty .string with s := "wheel".toList }
    | _ => Node.empty .nil
  root := 0
  nodes := Finset.range 6
  root_mem := by decide
  entries_mem := by decide
  items_mem := by decide

def twoDefinitions : PrefabLibrary where
  definitions := [⟨"body".toList, 1, 1, none, none, true⟩,
    ⟨"wheel".toList, 4, 2, some 0, none, true⟩]
  root := some 0
  singleRoot := true

/-- The second entry is a child of the first. -/
theorem load_forest_two : Forest twoEntries twoDefinitions :=
  load_forest (show Returns (load plainFlecs twoEntries 3 [(0, fun _ => false)] .fresh)
    (.done 2 twoDefinitions) from rfl)

/-! ### The end of a load -/

/-- The scan for references is led round a circle: it comes to a node below itself along children
that are scanned without an error. -/
def Recurses (flecs : Flecs δ ω γ) (world : ω) (parsed : Parsed δ) : Prop :=
  (∃ library, Returns (collectLibrary parsed .empty) library) ∧
    ∃ node, EntersAmong (scanNodeReferences flecs world parsed.doc) (childrenOf parsed.doc)
        (entryNodes parsed) node ∧
      Circles (scanNodeReferences flecs world parsed.doc) (childrenOf parsed.doc) node

lemma scanDefinitions_ends_iff (nested : Nested flecs depth)
    (hcollect : Returns (collectLibrary parsed .empty) library) :
    (∃ fuel, Ends (scanDefinitions flecs world parsed fuel library)) ↔
      ¬ Recurses flecs world parsed := by
  have collected := collectLibrary_total.2 library hcollect
  have hmem : ∀ node ∈ entryNodes parsed, node ∈ parsed.nodes := by
    rw [← collected.nodes]
    intro node hnode
    obtain ⟨d, hd, rfl⟩ := List.mem_map.mp hnode
    obtain ⟨i, hi⟩ := List.mem_iff_getElem?.mp hd
    exact collected.inside hi
  simp only [scanDefinitions, collected.nodes]
  refine Iff.trans (each_descend_ends_iff parsed.nodes.finite_toSet
    (fun _ hn _ => childrenOf_mem hn) (fun node => scanNodeReferences_ends nested node) hmem) ?_
  refine ⟨fun h => ?_, fun h node enters circles => h ⟨⟨library, hcollect⟩, node, enters, circles⟩⟩
  rintro ⟨-, node, enters, circles⟩
  exact h node enters circles

lemma scanDefinitions_ends_of_step (hcollect : Returns (collectLibrary parsed .empty) library)
    (h : Ends (stepPrefabLoad flecs parsed fuel world pending .fresh)) :
    Ends (scanDefinitions flecs world parsed fuel library) := by
  have waits := (ends_bind.mp ((ends_bind.mp h).2 library hcollect)).1
  rw [mustWait_eq (collectLibrary_total.2 library hcollect).toGathered rfl] at waits
  exact (ends_bind.mp waits).1

lemma Waiting.step_ends (nested : Nested flecs depth) (waiting : Waiting parsed state)
    (scans : ∀ library, Returns (collectLibrary parsed .empty) library →
      Ends (scanDefinitions flecs world parsed fuel library)) :
    Ends (stepPrefabLoad flecs parsed fuel world pending state) := by
  have collects : Ends (Prefab.libraryOf parsed state) := by
    rw [Prefab.libraryOf]
    split
    · exact ends_pure
    · exact collectLibrary_total.1
  refine ends_bind.mpr ⟨collects, fun library hlibrary => ?_⟩
  have hcollect := waiting.libraryOf hlibrary
  have collected := collectLibrary_total.2 library hcollect
  rw [mustWait_eq collected.toGathered waiting.notReady]
  refine ends_bind.mpr ⟨ends_bind.mpr ⟨scans library hcollect, fun _ _ => ends_pure⟩, ?_⟩
  intro wait _
  split
  · exact ends_pure
  · exact ends_bind.mpr ⟨buildPrefabLibrary_ends nested collected, fun _ _ => ends_pure⟩

lemma Waiting.load_ends (nested : Nested flecs depth) :
    ∀ {turns : List (ω × (Reference → Bool))} {state : LoadState}, Waiting parsed state →
      (∀ library, Returns (collectLibrary parsed .empty) library → ∀ turn ∈ turns,
        Ends (scanDefinitions flecs turn.1 parsed fuel library)) →
      Ends (load flecs parsed fuel turns state) := by
  intro turns
  induction turns with
  | nil => exact fun _ _ => ends_pure
  | cons turn turns ih =>
    intro state waiting scans
    have step : Ends (stepPrefabLoad flecs parsed fuel turn.1 turn.2 state) :=
      waiting.step_ends nested fun library hcollect =>
        scans library hcollect turn List.mem_cons_self
    refine ends_bind.mpr ⟨step, ?_⟩
    rintro ⟨state', status⟩ hstep
    obtain ⟨_, _, -, -, hstatus⟩ := waiting.step hstep
    rcases hstatus with ⟨rfl, waiting'⟩ | ⟨_, _, rfl, -⟩
    · exact ih waiting' fun library hcollect turn' hturn =>
        scans library hcollect turn' (.tail _ hturn)
    · exact ends_pure

lemma scans_end : ∀ {turns : List (ω × (Reference → Bool))},
      (∀ turn ∈ turns, ∃ fuel, Ends (scanDefinitions flecs turn.1 parsed fuel library)) →
        ∃ fuel, ∀ turn ∈ turns, Ends (scanDefinitions flecs turn.1 parsed fuel library) := by
  intro turns
  induction turns with
  | nil => exact fun _ => ⟨0, fun _ h => absurd h List.not_mem_nil⟩
  | cons turn turns ih =>
    intro h
    obtain ⟨fuel₁, first⟩ := h turn List.mem_cons_self
    obtain ⟨fuel₂, rest⟩ := ih fun turn' hturn => h turn' (.tail _ hturn)
    refine ⟨max fuel₁ fuel₂, fun turn' hturn => ?_⟩
    rcases List.mem_cons.mp hturn with rfl | hturn
    · rw [scanDefinitions, each_descend_mono first (Nat.le_max_left fuel₁ fuel₂)]
      exact first
    · rw [scanDefinitions, each_descend_mono (rest turn' hturn) (Nat.le_max_right fuel₁ fuel₂)]
      exact rest turn' hturn

lemma not_recurses_of_ends (nested : Nested flecs depth)
    (h : ∃ fuel, Ends (load flecs parsed fuel [(world, pending)] .fresh)) :
    ¬ Recurses flecs world parsed := by
  rintro ⟨⟨library, hcollect⟩, circles⟩
  obtain ⟨fuel, ends⟩ := h
  have scans := scanDefinitions_ends_of_step hcollect (ends_bind.mp ends).1
  exact (scanDefinitions_ends_iff nested hcollect).mp ⟨fuel, scans⟩ ⟨⟨library, hcollect⟩, circles⟩

lemma plainFlecs_nested : Nested plainFlecs id where
  push h := by
    obtain ⟨hlt, h⟩ := Option.ite_none_right_eq_some.mp h
    cases h
    exact ⟨rfl, hlt⟩
  pop h := by
    obtain ⟨hlt, h⟩ := Option.ite_none_right_eq_some.mp h
    cases h
    exact Nat.sub_add_cancel hlt
  elem h := (Option.some.inj h).symm
  tryDotmember := rfl
  setBool h := (Option.some.inj h).symm
  setInt h := (Option.some.inj h).symm
  setFloat h := (Option.some.inj h).symm
  setString h := (Option.some.inj h).symm
  setEntity h := (Option.some.inj h).symm
  scratch h := nomatch h
  cursorAt h := nomatch h

/-- A prefab whose child lists itself as its child: `children : [ &1 { children : [ *1 ] } ]`. -/
def ownChild : Parsed Int where
  doc
    | 0 => { Node.empty .map with entries := [("children".toList, 1)] }
    | 1 => { Node.empty .list with items := [2] }
    | 2 => { Node.empty .map with entries := [("children".toList, 3)] }
    | 3 => { Node.empty .list with items := [2] }
    | _ => Node.empty .nil
  root := 0
  nodes := Finset.range 4
  root_mem := by decide
  entries_mem := by decide
  items_mem := by decide

lemma ownChild_recurses : Recurses plainFlecs 0 ownChild := by
  refine ⟨⟨⟨[.ofNode [] 0], some 0, false⟩, rfl⟩, 0, ?_, 2, .single ?_, .single ?_⟩
  · exact ⟨[], [], rfl, fun _ hb => absurd hb List.not_mem_nil, [], rfl⟩
  · exact ⟨[], [], rfl, fun _ hb => absurd hb List.not_mem_nil, [], rfl⟩
  · exact ⟨[], [], rfl, fun _ hb => absurd hb List.not_mem_nil, [], rfl⟩

end PulseEngine.Prefab
