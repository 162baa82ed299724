import PulseEngine.Library.Search

/-!
# Config nodes

The nodes of `pulse_config` lie in a heap and point to their children by address. A node is freed
when its reference count comes to zero, which releases its children. Addresses of freed nodes are
not given out again, and a step that reads a freed node has no result.
-/

namespace PulseEngine.Config

open Library

/-- `EPulseConfigType`. -/
inductive ConfigType
  | none
  | bool
  | int
  | double
  | string
  | object
  | array
  deriving DecidableEq

abbrev Text := List UInt8

/-- `std::string::c_str()` as a C string: the bytes in front of the first NUL. -/
def cString (text : Text) : Text := text.takeWhile (· ≠ 0)

def kMaxDepth : ℕ := 64

structure Node where
  type : ConfigType
  refCount : ℤ
  b : Bool
  i : Int64
  d : Float
  s : Text
  object : List (Text × ℕ)
  array : List ℕ

/-- `Node(EPulseConfigType t)`: a node of a type, with the defaults of its fields. -/
def Node.ofType (type : ConfigType) : Node where
  type := type
  refCount := 1
  b := false
  i := 0
  d := 0
  s := []
  object := []
  array := []

def Node.children (node : Node) : List ℕ := node.object.map Prod.snd ++ node.array

structure Store where
  nodes : ℕ → Option Node
  next : ℕ
  lastError : String

def Store.empty : Store := ⟨fun _ => none, 0, ""⟩

namespace Store

def setError (s : Store) (message : String) : Store := { s with lastError := message }

def write (s : Store) (n : ℕ) (node : Option Node) : Store :=
  { s with nodes := Function.update s.nodes n node }

def newNode (s : Store) (node : Node) : Store × ℕ :=
  ({ s with nodes := Function.update s.nodes s.next (some node), next := s.next + 1 }, s.next)

def wrap (c : ℤ) : ℤ := c.bmod (2 ^ 32)

def retainNode (s : Store) (n : ℕ) : Option Store := do
  let node ← s.nodes n
  return s.write n (some { node with refCount := wrap (node.refCount + 1) })

def releaseNode : ℕ → Store → ℕ → Option Store
  | 0, _, _ => none
  | fuel + 1, s, n => do
    let node ← s.nodes n
    let count := wrap (node.refCount - 1)
    let s := s.write n (some { node with refCount := count })
    if count = 0 then
      let s ← node.children.foldlM (releaseNode fuel) s
      return s.write n none
    else
      return s

/-- Calls of `release_node` nest at most once for every node. -/
def fuel (s : Store) : ℕ := s.next + 1

def childrenOf (s : Store) (n : ℕ) : Option (List ℕ) := (s.nodes n).map Node.children

def edgeCount (s : Store) : ℕ := ∑ n ∈ Finset.range s.next, (edges s.childrenOf n).card

def reachesNode (s : Store) (start target : ℕ) : Option Bool :=
  search s.childrenOf target (s.edgeCount + 2) [start] []

end Store

def findChild (obj : Node) (key : Text) : Option ℕ :=
  if obj.type = .object then obj.object.lookup key else none

def assign (key : Text) (child : ℕ) : List (Text × ℕ) → List (Text × ℕ)
  | [] => []
  | entry :: rest =>
    if entry.1 = key then (entry.1, child) :: rest else entry :: assign key child rest

namespace Store

def pushObject (s : Store) (n : ℕ) (key : Text) (child : ℕ) : Option Store := do
  let node ← s.nodes n
  return s.write n (some { node with object := node.object ++ [(key, child)] })

def pushArray (s : Store) (n child : ℕ) : Option Store := do
  let node ← s.nodes n
  return s.write n (some { node with array := node.array ++ [child] })

def replaceChild (s : Store) (obj : ℕ) (key : Text) (child : ℕ) : Option Store := do
  let node ← s.nodes obj
  match node.object.lookup key with
  | some old =>
    let s ← releaseNode s.fuel s old
    let node ← s.nodes obj
    return s.write obj (some { node with object := assign key child node.object })
  | none => s.pushObject obj key child

/-- The loop of `json_to_node` and `copy_node` over the children of a node `n`: each child is made
and attached. When one cannot be made, the node is released and there is no result. -/
def fill {ι : Type*} (make : Store → ι → Option (Store × Option ℕ))
    (attach : Store → ℕ → ι → ℕ → Option Store) (n : ℕ) :
    Store → List ι → Option (Store × Option ℕ)
  | s, [] => some (s, some n)
  | s, item :: items => do
    let (s, child) ← make s item
    match child with
    | none =>
      let s ← releaseNode s.fuel s n
      return (s, none)
    | some child =>
      let s ← attach s n item child
      fill make attach n s items

def copyNode : ℕ → Store → ℕ → Option (Store × Option ℕ)
  | 0, s, _ => some (s.setError "config: copy depth exceeded", none)
  | left + 1, s, n => do
    let node ← s.nodes n
    let (s, copy) := s.newNode
      { Node.ofType node.type with b := node.b, i := node.i, d := node.d, s := node.s }
    match node.type with
    | .object =>
      fill (fun s entry => copyNode left s entry.2)
        (fun s copy entry child => s.pushObject copy entry.1 child) copy s node.object
    | .array => fill (copyNode left) (fun s copy _ child => s.pushArray copy child) copy s node.array
    | _ => return (s, some copy)

/-- The child that `merge_nodes` makes of one entry of the overrides: `mergeChild` merges two
objects, and `copyChild` copies everything else. -/
def overrideChild (mergeChild : Store → ℕ → ℕ → Option (Store × Option ℕ))
    (copyChild : Store → ℕ → Option (Store × Option ℕ)) (s : Store) (merged : ℕ) (key : Text)
    (value : ℕ) : Option (Store × Option ℕ) := do
  let node ← s.nodes merged
  match findChild node key with
  | none => copyChild s value
  | some existing =>
    let old ← s.nodes existing
    let new ← s.nodes value
    if old.type = .object ∧ new.type = .object then mergeChild s existing value
    else copyChild s value

/-- The loop of `merge_nodes` over the entries of the overrides. -/
def mergeEntries (mergeChild : Store → ℕ → ℕ → Option (Store × Option ℕ))
    (copyChild : Store → ℕ → Option (Store × Option ℕ)) (merged : ℕ) :
    Store → List (Text × ℕ) → Option (Store × Option ℕ)
  | s, [] => some (s, some merged)
  | s, (key, value) :: entries => do
    let (s, child) ← overrideChild mergeChild copyChild s merged (cString key) value
    match child with
    | none =>
      let s ← releaseNode s.fuel s merged
      return (s, none)
    | some child =>
      let s ← s.replaceChild merged (cString key) child
      mergeEntries mergeChild copyChild merged s entries

def mergeNodes : ℕ → Store → Option ℕ → Option ℕ → Option (Store × Option ℕ)
  | 0, s, _, _ => some (s.setError "config: merge depth exceeded (64)", none)
  | left + 1, s, d, o =>
    match d, o with
    | none, none =>
      let (s, n) := s.newNode (.ofType .object)
      some (s, some n)
    | none, some o => copyNode (left + 1) s o
    | some d, none => copyNode (left + 1) s d
    | some d, some o => do
      let defaults ← s.nodes d
      let overrides ← s.nodes o
      if defaults.type ≠ .object ∨ overrides.type ≠ .object then copyNode (left + 1) s o
      else
        let (s, merged) ← copyNode (left + 1) s d
        match merged with
        | none => return (s, none)
        | some merged =>
          mergeEntries (fun s d o => mergeNodes left s (some d) (some o)) (copyNode left) merged s
            overrides.object

end Store

/-- A parsed JSON value, as `nlohmann::ordered_json` gives it out. -/
inductive Json
  | null
  | boolean (b : Bool)
  | unsigned (u : UInt64)
  | integer (i : Int64)
  | float (d : Float)
  | string (s : Text)
  | array (items : List Json)
  | object (members : List (Text × Json))

def Store.jsonToNode : ℕ → Store → Json → Option (Store × Option ℕ)
  | 0, s, _ => some (s.setError "json: maximum nesting depth exceeded (64)", none)
  | left + 1, s, json =>
    let scalar (node : Node) : Option (Store × Option ℕ) :=
      let (s, n) := s.newNode node
      some (s, some n)
    match json with
    | .boolean b => scalar { Node.ofType .bool with b := b }
    | .unsigned u =>
      if u.toNat ≤ 2 ^ 63 - 1 then scalar { Node.ofType .int with i := u.toInt64 }
      else scalar { Node.ofType .double with d := u.toFloat }
    | .integer i => scalar { Node.ofType .int with i := i }
    | .float d => scalar { Node.ofType .double with d := d }
    | .string text => scalar { Node.ofType .string with s := text }
    | .array items =>
      let (s, n) := s.newNode (.ofType .array)
      fill (jsonToNode left) (fun s n _ child => s.pushArray n child) n s items
    | .object members =>
      let (s, n) := s.newNode (.ofType .object)
      fill (fun s entry => jsonToNode left s entry.2)
        (fun s n entry child => s.pushObject n entry.1 child) n s members
    | .null => scalar (.ofType .none)

end PulseEngine.Config
