import PulseEngine.Config.Copy
import PulseEngine.Library.Run

/-!
# The config interface

The functions of `pulse_config.h` that change the heap, and runs of calls to them. A `World` is the
heap with the references that the callers hold: those that a call gave out or took with
`pulse_config_addref`, and that were not given back with `pulse_config_release`.
-/

namespace PulseEngine.Config

open Library

def kMaxJsonInputBytes : ℕ := 16 * 1024 * 1024

/-- What the file system gives out for a path: the size when it can be told, and the bytes; with
`none` the file cannot be opened, and with `some none` it cannot be read. -/
structure File where
  size : Option ℕ
  bytes : Option (Option Text)

/-- `Json::parse`: an error is the text of a `std::exception`, or anything else that was thrown. -/
abbrev Parser := Text → Except (Option String) Json

namespace Store

def create (s : Store) : Store × Option ℕ :=
  let (s, n) := (s.setError "").newNode (.ofType .object)
  (s, some n)

def createFromJson (parse : Parser) (s : Store) (json : Option Text) : Option (Store × Option ℕ) :=
  let s := s.setError ""
  match json with
  | none => some (s.setError "json: null input", none)
  | some text =>
    if text.length = 0 then some s.create
    else if text.length > kMaxJsonInputBytes then
      some (s.setError "json: input exceeds 16 MiB limit", none)
    else match parse text with
      | .error (some what) => some (s.setError ("json: parse error: " ++ what), none)
      | .error none => some (s.setError "json: unknown parse error", none)
      | .ok parsed => s.jsonToNode (kMaxDepth + 1) parsed

def createFromJsonFile (parse : Parser) (s : Store) (path : Option String) (file : File) :
    Option (Store × Option ℕ) :=
  let s := s.setError ""
  match path with
  | none => some (s.setError "json: invalid file path", none)
  | some path =>
    if path = "" then some (s.setError "json: invalid file path", none)
    else if file.size.any (· > kMaxJsonInputBytes) then
      some (s.setError "json: file exceeds 16 MiB limit", none)
    else match file.bytes with
      | none => some (s.setError ("json: cannot open file: " ++ path), none)
      | some none => some (s.setError ("json: failed to read file: " ++ path), none)
      | some (some text) => s.createFromJson parse (some text)

def validateSetKeyObject (s : Store) (cfg : Option ℕ) (key : Option Text) :
    Option (Except String (ℕ × Text)) :=
  match key with
  | none => some (.error "config: null key")
  | some key =>
    match cfg with
    | none => some (.error "config: null config")
    | some cfg => do
      let node ← s.nodes cfg
      if node.type ≠ .object then return .error "config: not an object" else return .ok (cfg, key)

def setScalar (node : Node) (s : Store) (cfg : Option ℕ) (key : Option Text) : Option Store := do
  match ← s.validateSetKeyObject cfg key with
  | .error message => return s.setError message
  | .ok (obj, key) =>
    let (s, child) := s.newNode node
    s.replaceChild obj key child

def setBool (s : Store) (cfg : Option ℕ) (key : Option Text) (value : Bool) : Option Store :=
  setScalar { Node.ofType .bool with b := value } s cfg key

def setInt (s : Store) (cfg : Option ℕ) (key : Option Text) (value : Int64) : Option Store :=
  setScalar { Node.ofType .int with i := value } s cfg key

def setDouble (s : Store) (cfg : Option ℕ) (key : Option Text) (value : Float) : Option Store :=
  setScalar { Node.ofType .double with d := value } s cfg key

def setString (s : Store) (cfg : Option ℕ) (key value : Option Text) : Option Store :=
  setScalar { Node.ofType .string with s := value.getD [] } s cfg key

def setShared (type : ConfigType) (nullValue otherType cycle : String) (s : Store)
    (cfg : Option ℕ) (key : Option Text) (value : Option ℕ) : Option Store := do
  match ← s.validateSetKeyObject cfg key with
  | .error message => return s.setError message
  | .ok (obj, key) =>
    match value with
    | none => return s.setError nullValue
    | some child =>
      let node ← s.nodes child
      if node.type ≠ type then return s.setError otherType
      else if ← s.reachesNode child obj then return s.setError cycle
      else
        let s ← s.retainNode child
        s.replaceChild obj key child

def setObj (s : Store) (cfg : Option ℕ) (key : Option Text) (value : Option ℕ) : Option Store :=
  setShared .object "config: null object value" "config: value is not an object"
    "config: cannot set object: cycle detected" s cfg key value

def setArray (s : Store) (cfg : Option ℕ) (key : Option Text) (value : Option ℕ) : Option Store :=
  setShared .array "config: null array value" "config: value is not an array"
    "config: cannot set array: cycle detected" s cfg key value

/-- `pulse_config_remove`: the child is released before its entry is erased. -/
def remove (s : Store) (cfg : Option ℕ) (key : Option Text) : Option (Store × Bool) :=
  match cfg, key with
  | some cfg, some key => do
    let node ← s.nodes cfg
    if node.type ≠ .object then return (s, false)
    else match node.object.lookup key with
      | none => return (s, false)
      | some child =>
        let s ← releaseNode s.fuel s child
        let node ← s.nodes cfg
        return (s.write cfg (some { node with object := node.object.eraseP (·.1 = key) }), true)
  | none, _ => some (s, false)
  | some cfg, none => (s.nodes cfg).map fun _ => (s, false)

def merge (s : Store) (defaults overrides : Option ℕ) : Option (Store × Option ℕ) :=
  mergeNodes (kMaxDepth + 1) (s.setError "") defaults overrides

end Store

inductive Call
  | create
  | createFromJson (json : Option Text)
  | createFromJsonFile (path : Option String) (file : File)
  | addref (cfg : Option ℕ)
  | release (cfg : Option ℕ)
  | setBool (cfg : Option ℕ) (key : Option Text) (value : Bool)
  | setInt (cfg : Option ℕ) (key : Option Text) (value : Int64)
  | setDouble (cfg : Option ℕ) (key : Option Text) (value : Float)
  | setString (cfg : Option ℕ) (key value : Option Text)
  | setObj (cfg : Option ℕ) (key : Option Text) (value : Option ℕ)
  | setArray (cfg : Option ℕ) (key : Option Text) (value : Option ℕ)
  | remove (cfg : Option ℕ) (key : Option Text)
  | merge (defaults overrides : Option ℕ)

def Call.nodes : Call → List ℕ
  | .create | .createFromJson _ | .createFromJsonFile _ _ => []
  | .addref cfg | .release cfg | .setBool cfg _ _ | .setInt cfg _ _ | .setDouble cfg _ _
  | .setString cfg _ _ | .remove cfg _ => cfg.toList
  | .setObj cfg _ value | .setArray cfg _ value => cfg.toList ++ value.toList
  | .merge defaults overrides => defaults.toList ++ overrides.toList

def Call.taken : Call → Option ℕ
  | .addref cfg => cfg
  | .setObj _ _ value | .setArray _ _ value => value
  | _ => none

def Call.returned : Call → Option ℕ
  | .release cfg => cfg
  | _ => none

structure World where
  store : Store
  held : Multiset ℕ

namespace World

def empty : World := ⟨.empty, 0⟩

def receive (w : World) (made : Store × Option ℕ) : World := ⟨made.1, w.held + given made.2⟩

def step (parse : Parser) (w : World) : Call → Option World
  | .create => some (w.receive w.store.create)
  | .createFromJson json => (w.store.createFromJson parse json).map w.receive
  | .createFromJsonFile path file => (w.store.createFromJsonFile parse path file).map w.receive
  | .addref none => some w
  | .addref (some n) => (w.store.retainNode n).map fun s => ⟨s, n ::ₘ w.held⟩
  | .release none => some w
  | .release (some n) =>
    (Store.releaseNode w.store.fuel w.store n).map fun s => ⟨s, w.held.erase n⟩
  | .setBool cfg key value => (w.store.setBool cfg key value).map fun s => ⟨s, w.held⟩
  | .setInt cfg key value => (w.store.setInt cfg key value).map fun s => ⟨s, w.held⟩
  | .setDouble cfg key value => (w.store.setDouble cfg key value).map fun s => ⟨s, w.held⟩
  | .setString cfg key value => (w.store.setString cfg key value).map fun s => ⟨s, w.held⟩
  | .setObj cfg key value => (w.store.setObj cfg key value).map fun s => ⟨s, w.held⟩
  | .setArray cfg key value => (w.store.setArray cfg key value).map fun s => ⟨s, w.held⟩
  | .remove cfg key => (w.store.remove cfg key).map fun r => ⟨r.1, w.held⟩
  | .merge defaults overrides => (w.store.merge defaults overrides).map w.receive

def Valid (w : World) (call : Call) : Prop :=
  (∀ n ∈ call.nodes, (w.store.nodes n).isSome) ∧ ∀ n ∈ call.returned, n ∈ w.held

def Room (w : World) (call : Call) : Prop := ∀ n ∈ call.taken, w.store.count n < 2 ^ 31 - 1

instance (w : World) (call : Call) : Decidable (w.Valid call) := instDecidableAnd

instance (w : World) (call : Call) : Decidable (w.Room call) :=
  match h : call.taken with
  | none => .isTrue fun n hn => by simp [h] at hn
  | some n =>
    decidable_of_iff (w.store.count n < 2 ^ 31 - 1) (by simp [Room, h])

def parents (w : World) (n : ℕ) : ℕ := ∑ m ∈ Finset.range w.store.next, (w.store.kids m).count n

/-- The graph of the nodes has no circle, every count is the number of references that are held to
the node and of edges to it, and a node is there exactly as long as it is reached from a node that a
caller holds. -/
structure Balanced (w : World) : Prop where
  acyclic : ∀ n, ¬ Relation.TransGen (Points w.store.kids) n n
  counted : ∀ n node, w.store.nodes n = some node →
    node.refCount = (w.held.count n + w.parents n : ℕ)
  kept : ∀ n, (w.store.nodes n).isSome ↔ ∃ r ∈ w.held, Reaches w.store.kids r n

end World

end PulseEngine.Config
