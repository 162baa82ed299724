import PulseEngine.Library.Keeping
import PulseEngine.Library.Population
import PulseEngine.Prefab.Loads

/-!
# What a failed load leaves

The steps of a load with the entity world that they leave when they fail. `Lawful` is what is asked of the entity
world: it is a set of entities with components. A load that fails leaves this set and the components as they were.
-/

namespace PulseEngine.Prefab

open Datalist Library

abbrev Build (ω : Type) := Keeping Failure ω

namespace Building

variable {δ ω γ : Type} [Double δ] (flecs : Flecs δ ω γ) (torn : ω → ℕ → ℕ → NodeId → ω) (doc : Document δ)

/-- What `apply_component` leaves when it fails. `torn` is what a walk that fails has written of a component. -/
def leftComponent (entity : ℕ) (component : Text × NodeId) (world : ω) : ω :=
  let (name, node) := component
  let id := componentId flecs world name
  match reflectedTypeInfo flecs world id with
  | none => world
  | some info =>
    let (world, ensured) := flecs.ensure world entity id
    match if ensured then flecs.cursorAt world entity id info.component else none with
    | none => world
    | some _ => torn world entity id node

def applyComponent (entity : ℕ) (component : Text × NodeId) : Build ω Unit :=
  attempt (leftComponent flecs torn entity component) fun world =>
    Prefab.applyComponent flecs doc entity world component

def applyTags (entity : ℕ) (node : NodeId) : Build ω Unit :=
  match resolve doc (some node) (some "tags".toList) with
  | none => pure ()
  | some _ =>
    match sectionOf doc node "tags" with
    | none => apart (fail "prefab loader: 'tags' must be a list of tag names")
    | some tags =>
      if (doc tags).entries ≠ [] then apart (fail "prefab loader: 'tags' must be a list of tag names")
      else (doc tags).items.forM fun item => attempt id fun world => applyTag flecs doc entity world item

def applyPairTargets (entity rel : ℕ) (node : NodeId) : Build ω Unit :=
  if nodeIsContainer doc node ∧ ¬ nodeIsEmptyContainer doc node then
    (doc node).items.forM fun item => attempt id fun world => applyTarget flecs doc entity rel world item
  else attempt id fun world => applyTarget flecs doc entity rel world node

def applyPair (entity : ℕ) (entry : Text × NodeId) : Build ω Unit := do
  let rel := flecs.lookup (← get) entry.1
  if rel = 0 then apart (failWith ["prefab loader: unknown relationship '".toList, entry.1, "'".toList])
  else applyPairTargets flecs doc entity rel entry.2

def applyPairs (entity : ℕ) (node : NodeId) : Build ω Unit :=
  match resolve doc (some node) (some "pairs".toList) with
  | none => pure ()
  | some _ =>
    match sectionOf doc node "pairs" with
    | none => apart (fail "prefab loader: 'pairs' must be a map of relationship to target")
    | some pairs =>
      if (doc pairs).items ≠ [] then apart (fail "prefab loader: 'pairs' must be a map of relationship to target")
      else (doc pairs).entries.forM (applyPair flecs doc entity)

/-- The loop of `build_prefab_entity` over the components. -/
def applyComponents (entity : ℕ) (node : NodeId) : Build ω Unit :=
  match sectionOf doc node "components" with
  | none => pure ()
  | some components => (doc components).entries.forM (applyComponent flecs torn doc entity)

def buildPrefabEntity (entity : ℕ) (node : NodeId) : Build ω Unit := do
  applyComponents flecs torn doc entity node
  applyTags flecs doc entity node
  applyPairs flecs doc entity node

/-- The loop of `build_prefab_library` that fills one entity. -/
def fillEntity (definition : Definition) : Build ω Unit := do
  buildPrefabEntity flecs torn doc definition.entity definition.node
  modify fun world => flecs.addId world definition.entity flecs.prefabTag

/-- The loop of `build_prefab_library` that adds the base of one definition. -/
def linkBase (library : PrefabLibrary) (definition : Definition) : Build ω Unit :=
  attempt id fun world => Prefab.linkBase flecs doc library world definition

/-- The loop of `delete_prefab_entities` over one definition. -/
def deleteEntity (world : ω) (definition : Definition) : ω :=
  if definition.entity ≠ 0 ∧ flecs.isAlive world definition.entity then flecs.delete world definition.entity
  else world

def deletePrefabEntities (library : PrefabLibrary) (world : ω) : ω :=
  library.definitions.reverse.foldl (deleteEntity flecs) world

/-- The loop of `build_prefab_library` that makes the entities. -/
def newEntities (library : PrefabLibrary) : Build ω PrefabLibrary := do
  let (world, library) := (List.range library.definitions.length).foldl (newEntity flecs) (← get, library)
  set world
  pure library

variable (parsed : Parsed δ)

def buildPrefabLibrary (library : PrefabLibrary) : Build ω PrefabLibrary := do
  let library ← apart ((topIndices library).foldlM (buildPrefabParent parsed.doc (nodeFuel parsed)) library)
  let library ← apart (resolvePrefabBases parsed.doc library)
  let library ← newEntities flecs library
  modify fun world => library.definitions.foldl (linkParent flecs library) world
  orUndo (deletePrefabEntities flecs library) (library.definitions.forM (fillEntity flecs torn parsed.doc))
  orUndo (deletePrefabEntities flecs library) (library.definitions.forM (linkBase flecs parsed.doc library))
  pure library

/-- `step_prefab_load` for a parsed text: the library of a prefab that is there, or none while it waits. -/
def stepPrefabLoad (fuel : ℕ) (pending : Reference → Bool) (state : LoadState) :
    Build ω (LoadState × Option PrefabLibrary) := do
  let library ← apart (libraryOf parsed state)
  let waiting ← apart (mustWait flecs parsed fuel (← get) pending state library)
  if waiting then pure (⟨some library, false⟩, none)
  else do
    let built ← buildPrefabLibrary flecs torn parsed library
    pure (⟨some built, true⟩, some built)

/-! ### The loader without the worlds of its errors -/

section Forget

variable {flecs torn doc} {entity : ℕ} {node : NodeId} {world : ω}

abbrev Same (x : Build ω Unit) (f : ω → Load ω) : Prop :=
  ∀ world, forget x world = f world >>= fun world' => pure ((), world')

lemma same_forM {ι : Type} {g : ι → Build ω Unit} {step : ω → ι → Load ω} {as : List ι}
    (same : ∀ a, Same (g a) fun world => step world a) : Same (as.forM g) fun world => as.foldlM step world :=
  fun _ => forget_forM fun a world => same a world

lemma same_bind {x y : Build ω Unit} {f g : ω → Load ω} (first : Same x f) (second : Same y g) :
    Same (x >>= fun _ => y) fun world => f world >>= g := by
  intro world
  rw [forget_bind, first, bind_assoc, bind_assoc]
  exact congrArg _ (funext fun world' => (pure_bind _ _).trans (second world'))

omit [Double δ] in
lemma same_applyTags : Same (applyTags flecs doc entity node) (Prefab.applyTags flecs doc entity node) := by
  intro world
  rw [applyTags, Prefab.applyTags]
  cases resolve doc (some node) (some "tags".toList) with
  | none => rfl
  | some _ =>
    cases sectionOf doc node "tags" with
    | none => rfl
    | some tags =>
      dsimp only
      split_ifs
      · rfl
      · exact same_forM (fun _ _ => forget_attempt) world

omit [Double δ] in
lemma same_applyPair {entry : Text × NodeId} :
    Same (applyPair flecs doc entity entry) fun world => Prefab.applyPair flecs doc entity world entry := by
  intro world
  rw [applyPair, forget_bind, forget_get, pure_bind]
  unfold Prefab.applyPair
  dsimp only
  split_ifs
  · rfl
  · rw [applyPairTargets, Prefab.applyPairTargets]
    split_ifs
    · exact same_forM (fun _ _ => forget_attempt) world
    · exact forget_attempt

omit [Double δ] in
lemma same_applyPairs : Same (applyPairs flecs doc entity node) (Prefab.applyPairs flecs doc entity node) := by
  intro world
  rw [applyPairs, Prefab.applyPairs]
  cases resolve doc (some node) (some "pairs".toList) with
  | none => rfl
  | some _ =>
    cases sectionOf doc node "pairs" with
    | none => rfl
    | some pairs =>
      dsimp only
      split_ifs
      · rfl
      · exact same_forM (fun _ => same_applyPair) world

lemma same_applyComponents :
    Same (applyComponents flecs torn doc entity node) (Prefab.applyComponents flecs doc entity node) := by
  intro world
  rw [applyComponents, Prefab.applyComponents]
  cases sectionOf doc node "components" with
  | none => rfl
  | some components => exact same_forM (fun _ _ => forget_attempt) world

lemma same_fillEntity {definition : Definition} :
    Same (fillEntity flecs torn doc definition) fun world => Prefab.fillEntity flecs doc world definition :=
  same_bind (same_bind same_applyComponents (same_bind same_applyTags same_applyPairs)) fun _ => rfl

omit [Double δ] in
lemma same_linkBase {library : PrefabLibrary} {definition : Definition} :
    Same (linkBase flecs doc library definition) fun world => Prefab.linkBase flecs doc library world definition :=
  fun _ => forget_attempt

omit [Double δ] in
lemma forget_newEntities {library : PrefabLibrary} : forget (newEntities flecs library) world =
    let made := (List.range library.definitions.length).foldl (newEntity flecs) (world, library)
    pure (made.2, made.1) := rfl

lemma forget_buildPrefabLibrary {parsed : Parsed δ} {library : PrefabLibrary} :
    forget (buildPrefabLibrary flecs torn parsed library) world =
      Prefab.buildPrefabLibrary flecs parsed world library >>= fun r => pure (r.2, r.1) := by
  rw [buildPrefabLibrary, Prefab.buildPrefabLibrary, forget_bind, forget_apart, bind_assoc, bind_assoc]
  refine congrArg _ (funext fun linked => ?_)
  rw [pure_bind, forget_bind, forget_apart, bind_assoc, bind_assoc]
  refine congrArg _ (funext fun based => ?_)
  rw [pure_bind, forget_bind, forget_newEntities, pure_bind]
  obtain ⟨world₁, made⟩ := (List.range based.definitions.length).foldl (newEntity flecs) (world, based)
  dsimp only
  rw [forget_bind, forget_modify, pure_bind, forget_bind, forget_orUndo, same_forM fun _ => same_fillEntity]
  rw [bind_assoc, bind_assoc]
  refine congrArg _ (funext fun filled => ?_)
  rw [pure_bind, forget_bind, forget_orUndo, same_forM fun _ => same_linkBase, bind_assoc, bind_assoc]
  refine congrArg _ (funext fun world' => ?_)
  rw [pure_bind, forget_pure, pure_bind]

def statusOf (built : Option PrefabLibrary) (world : ω) : Status ω :=
  match built with
  | none => .pending
  | some library => .done world library

/-- **The steps are those of a load**, with the worlds of their errors. -/
theorem forget_stepPrefabLoad {parsed : Parsed δ} {fuel : ℕ} {pending : Reference → Bool} {state : LoadState} :
    (forget (stepPrefabLoad flecs torn parsed fuel pending state) world >>= fun r =>
      pure (r.1.1, statusOf r.1.2 r.2)) = Prefab.stepPrefabLoad flecs parsed fuel world pending state := by
  rw [stepPrefabLoad, Prefab.stepPrefabLoad, forget_bind, forget_apart, bind_assoc, bind_assoc]
  refine congrArg _ (funext fun library => ?_)
  rw [pure_bind, forget_bind, forget_get, pure_bind, forget_bind, forget_apart, bind_assoc, bind_assoc]
  refine congrArg _ (funext fun waiting => ?_)
  rw [pure_bind]
  cases waiting with
  | true => rfl
  | false =>
    dsimp only
    rw [if_neg Bool.false_ne_true, if_neg Bool.false_ne_true, forget_bind, forget_buildPrefabLibrary]
    rw [bind_assoc, bind_assoc]
    refine congrArg _ (funext fun built => ?_)
    rw [pure_bind, forget_pure, pure_bind]
    rfl

end Forget

end Building

end PulseEngine.Prefab
