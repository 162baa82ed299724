import PulseEngine.Prefab.Forest

/-!
# The entities of a prefab

Bases and entities are added to the definitions without changes to their nodes and parents, and every
loop over them ends.
-/

namespace PulseEngine.Prefab

open Datalist Library

variable {δ ω γ : Type} {flecs : Flecs δ ω γ} {world : ω} {doc : Document δ}
  {parsed : Parsed δ} {library library' library'' : PrefabLibrary} {depth : γ → ℕ}
  {index entity : ℕ} {node : NodeId}

structure Alike (library library' : PrefabLibrary) : Prop where
  nodeOf : library'.nodeOf = library.nodeOf
  parentOf : library'.parentOf = library.parentOf
  root : library'.root = library.root
  singleRoot : library'.singleRoot = library.singleRoot

lemma Alike.refl (library : PrefabLibrary) : Alike library library := ⟨rfl, rfl, rfl, rfl⟩

lemma Alike.trans (h : Alike library library') (h' : Alike library' library'') :
    Alike library library'' :=
  ⟨h'.nodeOf.trans h.nodeOf, h'.parentOf.trans h.parentOf, h'.root.trans h.root,
    h'.singleRoot.trans h.singleRoot⟩

lemma Alike.modify {f : Definition → Definition} (hnode : ∀ d, (f d).node = d.node)
    (hparent : ∀ d, (f d).parent = d.parent) : Alike library (library.modify index f) := by
  refine ⟨funext fun i => ?_, funext fun i => ?_, rfl, rfl⟩
  · rw [PrefabLibrary.nodeOf, PrefabLibrary.nodeOf, PrefabLibrary.modify, List.getElem?_modify]
    cases library.definitions[i]? with
    | none => rfl
    | some d =>
      refine congrArg some ?_
      split
      · exact hnode d
      · rfl
  · rw [PrefabLibrary.parentOf, PrefabLibrary.parentOf, PrefabLibrary.modify, List.getElem?_modify]
    cases library.definitions[i]? with
    | none => rfl
    | some d =>
      change Definition.parent (if index = i then f d else d) = d.parent
      split
      · exact hparent d
      · rfl

lemma Forest.alike (h : Forest parsed library) (alike : Alike library library') :
    Forest parsed library' := by
  have same : library'.ParentOf = library.ParentOf := by
    funext i j
    rw [PrefabLibrary.ParentOf, PrefabLibrary.ParentOf, alike.parentOf]
  refine ⟨?_, ?_, ?_, ?_, ?_⟩
  · rw [same, alike.nodeOf]
    exact h.parents
  · rw [alike.nodeOf]
    exact h.onlyParent
  · rw [alike.nodeOf]
    exact h.defined
  · rw [same]
    exact h.acyclic
  · rw [SingleRoot, alike.singleRoot, alike.root, alike.nodeOf, same]
    exact h.rooted

/-! ### Bases -/

lemma resolveBase_total : Total (resolveBase doc library index) (Alike library) := by
  rw [resolveBase]
  split
  · exact total_pure (.refl library)
  split
  · exact total_pure (.refl library)
  split
  · exact total_fail _
  split
  · exact total_fail _
  split
  · exact total_pure (.refl library)
  · exact total_pure (.modify (fun _ => rfl) fun _ => rfl)

lemma resolvePrefabBases_total : Total (resolvePrefabBases doc library) (Alike library) := by
  have loop : Total ((List.range library.definitions.length).foldlM (resolveBase doc) library)
      (Alike library) :=
    total_foldlM (.refl library) fun _ _ _ h => resolveBase_total.imp fun _ h' => h.trans h'
  refine loop.bind fun library' alike => ?_
  split
  · exact total_pure alike
  · exact total_failWith _

/-! ### Entities -/

lemma newEntity_alike {state : ω × PrefabLibrary} :
    Alike state.2 (newEntity flecs state index).2 := by
  rw [newEntity]
  split
  · exact .refl _
  · exact .modify (fun _ => rfl) fun _ => rfl

lemma newEntities_alike : ∀ {indices : List ℕ} {state : ω × PrefabLibrary},
    Alike state.2 (indices.foldl (newEntity flecs) state).2 := by
  intro indices
  induction indices with
  | nil => exact .refl _
  | cons index indices ih => exact newEntity_alike.trans ih

lemma applyTag_total {item : NodeId} :
    Total (applyTag flecs doc entity world item) fun _ => True := by
  rw [applyTag]
  split
  · exact total_fail _
  split
  · exact total_fail _
  split
  · exact total_failWith _
  simp only
  split
  · exact total_failWith _
  split
  · exact total_failWith _
  · exact total_pure trivial

lemma applyTags_total : Total (applyTags flecs doc entity node world) fun _ => True := by
  rw [applyTags]
  split
  · exact total_pure trivial
  split
  · exact total_fail _
  split
  · exact total_fail _
  · exact total_foldlM trivial fun _ _ _ _ => applyTag_total

lemma applyTarget_total {rel : ℕ} {item : NodeId} :
    Total (applyTarget flecs doc entity rel world item) fun _ => True := by
  rw [applyTarget]
  split
  · exact total_fail _
  split
  · exact total_fail _
  simp only
  split
  · exact total_failWith _
  · exact total_pure trivial

lemma applyPair_total {entry : Text × NodeId} :
    Total (applyPair flecs doc entity world entry) fun _ => True := by
  rw [applyPair]
  split
  · exact total_failWith _
  rw [applyPairTargets]
  split
  · exact total_foldlM trivial fun _ _ _ _ => applyTarget_total
  · exact applyTarget_total

lemma applyPairs_total : Total (applyPairs flecs doc entity node world) fun _ => True := by
  rw [applyPairs]
  split
  · exact total_pure trivial
  split
  · exact total_fail _
  split
  · exact total_fail _
  · exact total_foldlM trivial fun _ _ _ _ => applyPair_total

lemma linkBase_total {d : Definition} :
    Total (linkBase flecs doc library world d) fun _ => True := by
  rw [linkBase]
  split
  · exact total_pure trivial
  split
  · exact total_pure trivial
  simp only
  split
  · exact total_failWith _
  · exact total_pure trivial

variable [Double δ]

lemma applyComponent_total (nested : Nested flecs depth) {component : Text × NodeId} :
    Total (applyComponent flecs doc entity world component) fun _ => True := by
  obtain ⟨name, node⟩ := component
  rw [applyComponent]
  split
  · exact total_pure trivial
  simp only
  split
  · split <;> exact total_pure trivial
  split
  · exact total_pure trivial
  split
  · exact total_fail _
  split
  · exact total_fail _
  rename_i cursor hcursor
  refine ⟨ends_bind.mpr ⟨walkNode_ends nested (nested.cursorAt hcursor), fun _ _ => ends_pure⟩,
    fun _ _ => trivial⟩

lemma fillEntity_total (nested : Nested flecs depth) {d : Definition} :
    Total (fillEntity flecs doc world d) fun _ => True := by
  have components : Total (applyComponents flecs doc d.entity d.node world) fun _ => True := by
    rw [applyComponents]
    split
    · exact total_pure trivial
    · exact total_foldlM trivial fun _ _ _ _ => applyComponent_total nested
  have entity : Total (buildPrefabEntity flecs doc world d.entity d.node) fun _ => True :=
    components.bind fun _ _ => applyTags_total.bind fun _ _ => applyPairs_total
  exact entity.bind fun _ _ => total_pure trivial

end PulseEngine.Prefab
