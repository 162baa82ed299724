import PulseEngine.Prefab.Collect

/-!
# Building the entities of a prefab

The part of `pulse_prefab/src/load_prefab.cpp` that links the definitions to their parents and bases
and makes their entities, and the steps of a load.
-/

namespace PulseEngine.Prefab

open Datalist Library

section Parents

variable {δ : Type} (doc : Document δ)

namespace PrefabLibrary

def modify (library : PrefabLibrary) (index : ℕ) (f : Definition → Definition) : PrefabLibrary :=
  { library with definitions := library.definitions.modify index f }

def parentOf (library : PrefabLibrary) (index : ℕ) : Option ℕ :=
  library.definitions[index]?.bind Definition.parent

end PrefabLibrary

/-- The loop of `build_prefab_parent` over one child of the definition `index`. -/
def buildChild (build : PrefabLibrary → ℕ → Load PrefabLibrary) (index : ℕ)
    (library : PrefabLibrary) (child : NodeId) : Load PrefabLibrary :=
  if ¬ nodeIsContainer doc child then fail "prefab loader: 'children' entries must be objects"
  else do
    checkKnownSections doc child "child"
    match library.findByNode child with
    | some existing =>
      if (library.parentOf existing).isSome then
        failWith ["prefab loader: '".toList, library.label existing,
          "' is referenced as a child more than once".toList]
      else build (library.modify existing fun d => { d with parent := some index }) existing
    | none =>
      let nested := { Definition.ofNode ((givenName doc child).getD []) child with
        parent := some index }
      build (library.push nested) library.definitions.length

def buildPrefabParent : ℕ → PrefabLibrary → ℕ → Load PrefabLibrary
  | 0, _, _ => unended
  | fuel + 1, library, index =>
    match library.definitions[index]? with
    | none => unended
    | some definition =>
      if definition.expanded then pure library
      else
        let library := library.modify index fun d => { d with expanded := true }
        match sectionOf doc definition.node "children" with
        | none => pure library
        | some children =>
          if (doc children).entries ≠ [] then
            fail "prefab loader: 'children' must be a list of child entities"
          else (doc children).items.foldlM (buildChild doc (buildPrefabParent fuel) index) library

end Parents

section Bases

variable {δ : Type} (doc : Document δ)

/-- The loop of `resolve_prefab_bases` over one definition. -/
def resolveBase (library : PrefabLibrary) (index : ℕ) : Load PrefabLibrary :=
  match library.definitions[index]? with
  | none => pure library
  | some definition =>
    if (resolve doc (some definition.node) (some "extends".toList)).isNone then pure library
    else
      match getString doc (some definition.node) (some "extends".toList) none with
      | none => fail "prefab loader: 'extends' must be a prefab name"
      | some baseName =>
        if baseName = [] then fail "prefab loader: 'extends' must be a prefab name"
        else
          match library.definitions.findIdx? fun d => d.name = baseName with
          | none => pure library
          | some base => pure (library.modify index fun d => { d with base := some base })

def basesEnd (library : PrefabLibrary) : ℕ → Option ℕ → Bool
  | _, none => true
  | 0, some _ => false
  | steps + 1, some at_ => basesEnd library steps (library.definitions[at_]?.bind Definition.base)

def resolvePrefabBases (library : PrefabLibrary) : Load PrefabLibrary := do
  let library ← (List.range library.definitions.length).foldlM (resolveBase doc) library
  match (List.range library.definitions.length).find? fun i =>
      ¬ basesEnd library library.definitions.length (some i) with
  | none => pure library
  | some i =>
    failWith ["prefab loader: 'extends' cycle at '".toList,
      (library.definitions[i]?.map Definition.name).getD [], "'".toList]

end Bases

section Entities

variable {δ ω γ : Type} [Double δ] (flecs : Flecs δ ω γ) (doc : Document δ)

def applyComponent (entity : ℕ) (world : ω) (component : Text × NodeId) : Load ω :=
  let (name, node) := component
  let id := componentId flecs world name
  if id = 0 then pure world
  else
    let info := reflectedTypeInfo flecs world id
    if (doc node).type = .nil ∨ nodeIsEmptyContainer doc node then
      match info with
      | some _ => pure (flecs.modified (flecs.ensure world entity id).1 entity id)
      | none => pure (flecs.addId world entity id)
    else
      match info with
      | none => pure world
      | some info =>
        let (world, ensured) := flecs.ensure world entity id
        if ¬ ensured then fail "prefab loader: component has no reflection data"
        else
          match flecs.cursorAt world entity id info.component with
          | none => fail "prefab loader: component has no reflection data"
          | some cursor => do
            let (cursor, _) ← walkNode flecs world doc false (walkFuel flecs) cursor node
            pure (flecs.modified (flecs.stored world entity id cursor) entity id)

def applyTag (entity : ℕ) (world : ω) (item : NodeId) : Load ω :=
  match getString doc (some item) none none with
  | none => fail "prefab loader: 'tags' entries must be tag names"
  | some name =>
    if name = [] then fail "prefab loader: 'tags' entries must be tag names"
    else if '(' ∈ name then
      failWith ["prefab loader: '".toList, name, "' is a pair, write it in 'pairs'".toList]
    else
      let id := flecs.lookup world name
      if id = 0 then failWith ["prefab loader: unknown tag '".toList, name, "'".toList]
      else if ¬ flecs.idIsTag world id then
        failWith ["prefab loader: '".toList, name,
          "' is a component, write it in 'components'".toList]
      else pure (flecs.addId world entity id)

def applyTags (entity : ℕ) (node : NodeId) (world : ω) : Load ω :=
  match resolve doc (some node) (some "tags".toList) with
  | none => pure world
  | some _ =>
    match sectionOf doc node "tags" with
    | none => fail "prefab loader: 'tags' must be a list of tag names"
    | some tags =>
      if (doc tags).entries ≠ [] then fail "prefab loader: 'tags' must be a list of tag names"
      else (doc tags).items.foldlM (applyTag flecs doc entity) world

def applyTarget (entity rel : ℕ) (world : ω) (item : NodeId) : Load ω :=
  match getString doc (some item) none none with
  | none => fail "prefab loader: pair targets must be names"
  | some target =>
    if target = [] then fail "prefab loader: pair targets must be names"
    else
      let tgt := flecs.lookup world target
      if tgt = 0 then
        failWith ["prefab loader: pair target '".toList, target, "' not found".toList]
      else pure (flecs.addId world entity (flecs.pair rel tgt))

def applyPairTargets (entity rel : ℕ) (node : NodeId) (world : ω) : Load ω :=
  if nodeIsContainer doc node ∧ ¬ nodeIsEmptyContainer doc node then
    (doc node).items.foldlM (applyTarget flecs doc entity rel) world
  else applyTarget flecs doc entity rel world node

def applyPair (entity : ℕ) (world : ω) (entry : Text × NodeId) : Load ω :=
  let rel := flecs.lookup world entry.1
  if rel = 0 then
    failWith ["prefab loader: unknown relationship '".toList, entry.1, "'".toList]
  else applyPairTargets flecs doc entity rel entry.2 world

def applyPairs (entity : ℕ) (node : NodeId) (world : ω) : Load ω :=
  match resolve doc (some node) (some "pairs".toList) with
  | none => pure world
  | some _ =>
    match sectionOf doc node "pairs" with
    | none => fail "prefab loader: 'pairs' must be a map of relationship to target"
    | some pairs =>
      if (doc pairs).items ≠ [] then
        fail "prefab loader: 'pairs' must be a map of relationship to target"
      else (doc pairs).entries.foldlM (applyPair flecs doc entity) world

/-- The loop of `build_prefab_entity` over the components. -/
def applyComponents (entity : ℕ) (node : NodeId) (world : ω) : Load ω :=
  match sectionOf doc node "components" with
  | none => pure world
  | some components => (doc components).entries.foldlM (applyComponent flecs doc entity) world

def buildPrefabEntity (world : ω) (entity : ℕ) (node : NodeId) : Load ω := do
  let world ← applyComponents flecs doc entity node world
  let world ← applyTags flecs doc entity node world
  applyPairs flecs doc entity node world

def resolvePrefabTarget (world : ω) (library : PrefabLibrary) (name : Text) : ℕ :=
  match library.definitions.find? fun d => d.name = name with
  | some definition => definition.entity
  | none => flecs.lookup world name

/-- The loop of `build_prefab_library` that makes the entity of one definition. -/
def newEntity (state : ω × PrefabLibrary) (index : ℕ) : ω × PrefabLibrary :=
  match state.2.definitions[index]? with
  | none => state
  | some definition =>
    let (world, entity) := flecs.new state.1
    let world := if definition.name = [] then world else flecs.setName world entity definition.name
    (world, state.2.modify index fun d => { d with entity := entity })

/-- The loop of `build_prefab_library` that adds the parent of one definition. -/
def linkParent (library : PrefabLibrary) (world : ω) (definition : Definition) : ω :=
  match definition.parent with
  | none => world
  | some parent =>
    flecs.addId world definition.entity
      (flecs.pair flecs.childOf ((library.definitions[parent]?.map Definition.entity).getD 0))

/-- The loop of `build_prefab_library` that fills one entity. -/
def fillEntity (world : ω) (definition : Definition) : Load ω := do
  let world ← buildPrefabEntity flecs doc world definition.entity definition.node
  pure (flecs.addId world definition.entity flecs.prefabTag)

/-- The loop of `build_prefab_library` that adds the base of one definition. -/
def linkBase (library : PrefabLibrary) (world : ω) (definition : Definition) : Load ω :=
  match definition.base with
  | some base =>
    pure (flecs.addId world definition.entity
      (flecs.pair flecs.isA ((library.definitions[base]?.map Definition.entity).getD 0)))
  | none =>
    match getString doc (some definition.node) (some "extends".toList) none with
    | none => pure world
    | some baseName =>
      let base := resolvePrefabTarget flecs world library baseName
      if base = 0 then
        failWith ["prefab loader: unknown prefab '".toList, baseName, "' in 'extends'".toList]
      else pure (flecs.addId world definition.entity (flecs.pair flecs.isA base))

variable (parsed : Parsed δ)

/-- The definitions that `build_prefab_library` goes down from. -/
def topIndices (library : PrefabLibrary) : List ℕ :=
  if library.singleRoot then library.root.toList else List.range library.definitions.length

/-- `build_prefab_library`. When it fails after the entities were made, they are deleted, and the
world is not looked at again. -/
def buildPrefabLibrary (world : ω) (library : PrefabLibrary) : Load (ω × PrefabLibrary) := do
  let library ← (topIndices library).foldlM (buildPrefabParent parsed.doc (nodeFuel parsed)) library
  let library ← resolvePrefabBases parsed.doc library
  let (world, library) := (List.range library.definitions.length).foldl (newEntity flecs)
    (world, library)
  let world := library.definitions.foldl (linkParent flecs library) world
  let world ← library.definitions.foldlM (fillEntity flecs parsed.doc) world
  let world ← library.definitions.foldlM (linkBase flecs parsed.doc library) world
  pure (world, library)

/-- `prefab_load_state` after the text was parsed. -/
structure LoadState where
  library : Option PrefabLibrary
  referencesReady : Bool

/-- What a step of a load gives: it waits for assets, or the prefab is there with its library. -/
inductive Status (ω : Type)
  | pending
  | done (world : ω) (library : PrefabLibrary)

def libraryOf (state : LoadState) : Load PrefabLibrary :=
  match state.library with
  | some library => pure library
  | none => collectLibrary parsed .empty

/-- The references of the definitions are requested, until they have all been there once: whether
one of them is pending. -/
def mustWait (fuel : ℕ) (world : ω) (pending : Reference → Bool) (state : LoadState)
    (library : PrefabLibrary) : Load Bool :=
  if state.referencesReady then pure false
  else do
    let met ← each (fun definition =>
      scanAssetReferences flecs world parsed.doc fuel definition.node) library.definitions
    pure ((met.foldl collectReference []).any pending)

/-- `step_prefab_load` for a parsed text; `pending` is what the asset system answers to the request
of a reference. -/
def stepPrefabLoad (fuel : ℕ) (world : ω) (pending : Reference → Bool) (state : LoadState) :
    Load (LoadState × Status ω) := do
  let library ← libraryOf parsed state
  let waiting ← mustWait flecs parsed fuel world pending state library
  if waiting then pure (⟨some library, false⟩, .pending)
  else
    let (world, built) ← buildPrefabLibrary flecs parsed world library
    pure (⟨some built, true⟩, .done world built)

/-- A load: steps are taken until one does not wait, each with the world that it finds and the
answers of the asset system. -/
def load (fuel : ℕ) : List (ω × (Reference → Bool)) → LoadState → Load (Status ω)
  | [], _ => pure .pending
  | turn :: turns, state => do
    let (state, status) ← stepPrefabLoad flecs parsed fuel turn.1 turn.2 state
    match status with
    | .pending => load fuel turns state
    | .done world library => pure (.done world library)

def LoadState.fresh : LoadState := ⟨none, false⟩

end Entities

end PulseEngine.Prefab
