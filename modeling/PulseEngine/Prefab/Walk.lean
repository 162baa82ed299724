import PulseEngine.Datalist.Node
import PulseEngine.Library.Traversal

/-!
# Component values of prefabs

The part of `pulse_prefab/src/load_prefab.cpp` that walks over component values with a reflection
cursor, and the scans that collect the assets that a prefab refers to. The entity world and its
cursors are parameters; a computation that runs out of fuel has no result.
-/

namespace PulseEngine.Prefab

open Datalist Library

abbrev Failure := Option Text

abbrev Load := Fallible Failure

def fail {α : Type} (message : String) : Load α := throw (some message.toList)

/-- `*out_error = set_error(…)`: the message is cut to the size of its buffer. -/
def failWith {α : Type} (message : List Text) : Load α := throw (some (message.flatten.take 255))

/-- `EcsOpaque` of a type. -/
structure Opaque where
  asType : ℕ
  userData : ℕ

/-- `ecs_type_info_t`. -/
structure TypeInfo where
  component : ℕ
  size : ℕ

/-- What the loader uses of the entity world `ω` and of reflection cursors `γ`. An operation on a
cursor that reports an error has no result. -/
structure Flecs (δ ω γ : Type) where
  push : γ → Option γ
  pop : γ → Option γ
  isCollection : γ → Bool
  elem : γ → Int → Option γ
  tryDotmember : γ → Text → γ × Bool
  type : γ → ℕ
  setBool : γ → Bool → Option γ
  setInt : γ → Int → Option γ
  setFloat : γ → δ → Option γ
  setString : γ → Text → Option γ
  setEntity : γ → ℕ → Option γ
  entityType : ℕ
  stringType : ℕ
  maxScopes : ℕ
  lookup : ω → Text → ℕ
  opaqueOf : ω → ℕ → Option Opaque
  typeInfo : ω → ℕ → Option TypeInfo
  scratch : ω → ℕ → Option γ
  pair : ℕ → ℕ → ℕ
  idIsTag : ω → ℕ → Bool
  addId : ω → ℕ → ℕ → ω
  ensure : ω → ℕ → ℕ → ω × Bool
  cursorAt : ω → ℕ → ℕ → ℕ → Option γ
  stored : ω → ℕ → ℕ → γ → ω
  modified : ω → ℕ → ℕ → ω
  new : ω → ω × ℕ
  setName : ω → ℕ → Text → ω
  isAlive : ω → ℕ → Bool
  delete : ω → ℕ → ω
  childOf : ℕ
  isA : ℕ
  prefabTag : ℕ

structure Reference where
  typeId : ℕ
  path : Text
  deriving DecidableEq

def collectReference (references : List Reference) (reference : Reference) : List Reference :=
  if reference ∈ references then references else references ++ [reference]

/-- The reference that `collect_reference` is passed, if it is one. -/
def referenceOf (typeId : ℕ) (path : Option Text) : List Reference :=
  match path with
  | none => []
  | some path => if typeId = 0 ∨ path = [] then [] else [⟨typeId, path⟩]

variable {δ ω γ : Type} [Double δ] (flecs : Flecs δ ω γ) (world : ω) (doc : Document δ)

def nodeIsContainer (node : NodeId) : Bool := isContainer (doc node)

def nodeIsEmptyContainer (node : NodeId) : Bool :=
  (doc node).entries.isEmpty && (doc node).items.isEmpty

def ofSet (result : Option γ) : Load γ :=
  match result with
  | none => throw none
  | some cursor => pure cursor

def applyScalar (cursor : γ) (node : NodeId) : Load γ :=
  let type := getType doc (some node) none
  if type = .nil then fail "prefab loader: nil member value"
  else if flecs.type cursor = flecs.entityType then
    match getString doc (some node) none none with
    | none => fail "prefab loader: entity reference needs a path string"
    | some text => ofSet (flecs.setEntity cursor (flecs.lookup world text))
  else
    match type with
    | .bool => ofSet (flecs.setBool cursor (getBool doc (some node) none false))
    | .int => ofSet (flecs.setInt cursor (getInt doc (some node) none 0))
    | .double => ofSet (flecs.setFloat cursor (getDouble doc (some node) none (Double.ofInt 0)))
    | .string => ofSet (flecs.setString cursor ((getString doc (some node) none (some [])).getD []))
    | _ => fail "prefab loader: member value is not a scalar"

abbrev Walked (γ : Type) := γ × List Reference

def walkMember (collecting : Bool) (walkNode : γ → NodeId → Load (Walked γ)) (cursor : γ)
    (name : Text) (value : NodeId) : Load (Walked γ) :=
  if '.' ∈ name then pure (cursor, [])
  else
    let (cursor, found) := flecs.tryDotmember cursor name
    if ¬ found then pure (cursor, [])
    else
      let memberType := if nodeIsContainer doc value then 0 else flecs.type cursor
      match if memberType = 0 then none else flecs.opaqueOf world memberType with
      | none => walkNode cursor value
      | some kind =>
        if collecting ∧ kind.asType = flecs.stringType ∧ kind.userData ≠ 0 then
          pure (cursor, referenceOf kind.userData (getString doc (some value) none none))
        else walkNode cursor value

def walkStruct (collecting : Bool) (walkNode : γ → NodeId → Load (Walked γ)) :
    List (Text × NodeId) → γ → Load (Walked γ)
  | [], cursor => pure (cursor, [])
  | entry :: entries, cursor => do
    let (cursor, met) ← walkMember flecs world doc collecting walkNode cursor entry.1 entry.2
    let (cursor, rest) ← walkStruct collecting walkNode entries cursor
    pure (cursor, met ++ rest)

def walkCollection (walkNode : γ → NodeId → Load (Walked γ)) :
    ℕ → List NodeId → γ → Load (Walked γ)
  | _, [], cursor => pure (cursor, [])
  | i, item :: items, cursor =>
    match flecs.elem cursor ((i : Int).bmod (2 ^ 32)) with
    | none => fail "prefab loader: collection has more elements than the reflected member"
    | some cursor => do
      let (cursor, met) ← walkNode cursor item
      let (cursor, rest) ← walkCollection walkNode (i + 1) items cursor
      pure (cursor, met ++ rest)

def walkNode (collecting : Bool) : ℕ → γ → NodeId → Load (Walked γ)
  | 0, _, _ => unended
  | fuel + 1, cursor, node =>
    if ¬ nodeIsContainer doc node then do
      let cursor ← applyScalar flecs world doc cursor node
      pure (cursor, [])
    else
      match flecs.push cursor with
      | none => fail "prefab loader: member value does not match the reflected type"
      | some cursor => do
        let inside : Load (Walked γ) :=
          if flecs.isCollection cursor then
            walkCollection flecs (walkNode collecting fuel) 0 (doc node).items cursor
          else
            walkStruct flecs world doc collecting (walkNode collecting fuel) (doc node).entries
              cursor
        let (cursor, met) ← inside
        match flecs.pop cursor with
        | none => fail "prefab loader: failed to close member scope"
        | some cursor => pure (cursor, met)

def walkFuel : ℕ := flecs.maxScopes + 1

/-- `component_id_from_datalist`: the id of a name, or of a pair `relation(target)`. -/
def componentId (name : Text) : ℕ :=
  if '(' ∉ name then flecs.lookup world name
  else
    let relLen := name.idxOf '('
    if relLen = 0 ∨ name.length < relLen + 2 ∨ name.getLast? ≠ some ')' then 0
    else
      let rel := flecs.lookup world (name.take relLen)
      let tgt := flecs.lookup world ((name.drop (relLen + 1)).take (name.length - relLen - 2))
      if rel = 0 ∨ tgt = 0 then 0 else flecs.pair rel tgt

def reflectedTypeInfo (id : ℕ) : Option TypeInfo :=
  if id = 0 then none else (flecs.typeInfo world id).filter fun info => info.component ≠ 0

def sectionOf (node : NodeId) (key : String) : Option NodeId := getObj doc (some node) key.toList

/-- The loop of `scan_node_references` over one component. -/
def scanComponent (component : Text × NodeId) : Load (List Reference) :=
  match reflectedTypeInfo flecs world (componentId flecs world component.1) with
  | none => pure []
  | some info =>
    if info.size = 0 then pure []
    else
      match flecs.scratch world info.component with
      | none => pure []
      | some cursor => do
        let (_, met) ← walkNode flecs world doc true (walkFuel flecs) cursor component.2
        pure met

def scanNodeReferences (node : NodeId) : Load (List Reference) :=
  match sectionOf doc node "components" with
  | none => pure []
  | some components => each (scanComponent flecs world doc) (doc components).entries

/-- The children that `scan_children_references` goes through. -/
def childrenOf (node : NodeId) : List NodeId :=
  match sectionOf doc node "children" with
  | none => []
  | some children => (doc children).items

def scanChildrenReferences (fuel : ℕ) (node : NodeId) : Load (List Reference) :=
  descend (scanNodeReferences flecs world doc) (childrenOf doc) fuel node

def scanAssetReferences (fuel : ℕ) (root : NodeId) : Load (List Reference) :=
  if ¬ nodeIsContainer doc root then fail "prefab loader: prefab root is not an object"
  else withBelow (scanNodeReferences flecs world doc) (scanChildrenReferences flecs world doc fuel)
    root

end PulseEngine.Prefab
