import Mathlib.Data.List.Basic

/-!
# Reading the nodes of a datalist

The accessors of `pulse_datalist/src/datalist.cpp`. A node pointer is `Option NodeId`, `none` being
the null pointer, and a document gives the node at each address: nodes can be shared through tags
and can contain themselves, so a document is not a tree.

Keys and strings are the C strings the accessors hand out, as lists of characters. Doubles are a
parameter with the operations the accessors and their callers use.
-/

namespace PulseEngine.Datalist

abbrev Text := List Char

instance : LawfulBEq Text := inferInstance

/-- A `PulseDatalist*` that is not null. -/
abbrev NodeId := Nat

/-- The operations of `double`: `<`, the conversions from and to `int64_t`, the comparison with
zero, and the value of the `float` literal that is printed with 17 digits and an `F`. -/
class Double (δ : Type) where
  lt : δ → δ → Bool
  ofInt : Int → δ
  toInt : δ → Int
  floatLiteral : δ → δ
  nonzero : δ → Bool

/-- Doubles that are whole numbers, which is what the examples use. -/
instance wholeDouble : Double Int where
  lt a b := a < b
  ofInt i := i
  toInt d := d
  floatLiteral d := d
  nonzero d := d ≠ 0

/-- `EPulseDatalistType`. -/
inductive NodeType where
  | nil
  | bool
  | int
  | double
  | string
  | list
  | map
  | mixed
  deriving DecidableEq, Repr

/-- `struct PulseDatalist`, as far as the accessors read it. -/
structure Node (δ : Type) where
  type : NodeType
  b : Bool
  i : Int
  d : δ
  s : Text
  entries : List (Text × NodeId)
  items : List NodeId
  line : Int

def Node.empty [Double δ] (type : NodeType) : Node δ :=
  ⟨type, false, 0, Double.ofInt 0, [], [], [], 0⟩

abbrev Document (δ : Type) := NodeId → Node δ

variable {δ : Type} (doc : Document δ) (node : Option NodeId)

def isContainer (n : Node δ) : Bool :=
  n.type = .list || n.type = .map || n.type = .mixed

def resolve (key : Option Text) : Option NodeId :=
  match node, key with
  | none, _ => none
  | some n, none => some n
  | some n, some key => ((doc n).entries.find? fun entry => entry.1 = key).map (·.2)

def getType (key : Option Text) : NodeType :=
  match resolve doc node key with
  | none => .nil
  | some v => (doc v).type

def getBool [Double δ] (key : Option Text) (default : Bool) : Bool :=
  match resolve doc node key with
  | none => default
  | some v =>
    match (doc v).type with
    | .bool => (doc v).b
    | .int => (doc v).i ≠ 0
    | .double => Double.nonzero (doc v).d
    | _ => default

def getInt [Double δ] (key : Option Text) (default : Int) : Int :=
  match resolve doc node key with
  | none => default
  | some v =>
    match (doc v).type with
    | .int => (doc v).i
    | .double => Double.toInt (doc v).d
    | .bool => if (doc v).b then 1 else 0
    | _ => default

def getDouble [Double δ] (key : Option Text) (default : δ) : δ :=
  match resolve doc node key with
  | none => default
  | some v =>
    match (doc v).type with
    | .double => (doc v).d
    | .int => Double.ofInt (doc v).i
    | .bool => if (doc v).b then Double.ofInt 1 else Double.ofInt 0
    | _ => default

def getString (key : Option Text) (default : Option Text) : Option Text :=
  match resolve doc node key with
  | none => default
  | some v => if (doc v).type = .string then some (doc v).s else default

def value (key : Text) : Option NodeId := resolve doc node (some key)

def getObj (key : Text) : Option NodeId :=
  (resolve doc node (some key)).filter fun v => isContainer (doc v)

def line : Int :=
  match node with
  | none => 0
  | some n => (doc n).line

variable {doc node}

@[simp] lemma value_none (key : Text) : value doc none key = none := rfl

@[simp] lemma getType_none : getType doc none none = .nil := rfl

@[simp] lemma getType_some (v : NodeId) : getType doc (some v) none = (doc v).type := rfl

@[simp] lemma getString_some (v : NodeId) (default : Option Text) :
    getString doc (some v) none default =
      if (doc v).type = .string then some (doc v).s else default := rfl

lemma getObj_eq_some {key : Text} {v : NodeId} (hv : value doc node key = some v)
    (hc : isContainer (doc v)) : getObj doc node key = some v := by
  simp [getObj, show resolve doc node (some key) = some v from hv, hc]

lemma getObj_value {key : Text} {v : NodeId} (h : getObj doc node key = some v) :
    value doc node key = some v ∧ isContainer (doc v) := by
  simpa [getObj, value, Option.filter_eq_some_iff] using h

end PulseEngine.Datalist
