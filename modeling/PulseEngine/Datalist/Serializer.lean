import PulseEngine.Datalist.Node

/-!
# Writing a datalist back

`lquote` and the functions from `serialize_scalar` to `pulse_datalist_to_text` of `datalist.cpp`. A
character is a byte. The path array is the memory block it is in the source: `MAX_DEPTH + 1` cells that
hold nothing until they are written, and an access that goes wrong stops the run as a fault.

`sb_append` always succeeds here, as it does while there is memory. The text of a `double` under `%g`
is a parameter.
-/

namespace PulseEngine.Datalist

def maxDepth : Nat := 256

inductive SerializeError where
  | cycle
  | tooManyLayers
  deriving DecidableEq, Repr

def SerializeError.text : SerializeError → String
  | .cycle => "Cycle in datalist tree"
  | .tooManyLayers => "too many layers"

inductive Fault where
  | readUnwritten (index : Nat)
  | readOutside (index : Nat)
  | writeOutside (index : Nat)
  deriving DecidableEq, Repr

inductive Stop where
  | error (e : SerializeError)
  | fault (f : Fault)
  deriving DecidableEq, Repr

def utf8Trail (c : Char) : Bool := 0x80 ≤ c.toNat && c.toNat ≤ 0xbf

def validUtf8 : Text → Nat
  | [] => 0
  | c :: rest =>
    if 0xc0 ≤ c.toNat ∧ c.toNat ≤ 0xdf then
      if (rest.take 1).length = 1 ∧ (rest.take 1).all utf8Trail then 2 else 0
    else if 0xe0 ≤ c.toNat ∧ c.toNat ≤ 0xef then
      if (rest.take 2).length = 2 ∧ (rest.take 2).all utf8Trail then 3 else 0
    else if 0xf0 ≤ c.toNat ∧ c.toNat ≤ 0xf7 then
      if (rest.take 3).length = 3 ∧ (rest.take 3).all utf8Trail then 4 else 0
    else if c.toNat < 128 then 1
    else 0

def addHex (c : Char) : Text :=
  ['\\', 'x', (Nat.digitChar (c.toNat / 16)).toUpper, (Nat.digitChar (c.toNat % 16)).toUpper]

/-- What `lquote` writes for a byte that does not start a sequence of UTF-8. -/
def quoteByte (c : Char) : Text :=
  if c.toNat < 32 then
    if c.toNat = 0 then ['\\', '0']
    else if c = '\t' then ['\\', 't']
    else if c = '\n' then ['\\', 'n']
    else if c = '\r' then ['\\', 'r']
    else addHex c
  else if c = '"' then ['\\', '"']
  else if c = '\\' then ['\\', '\\']
  else if 128 ≤ c.toNat then addHex c
  else [c]

/-- The loop of `lquote`; `copied` bytes at the head belong to a sequence that is being copied. -/
def quoteFrom : Nat → Text → Text
  | _, [] => []
  | copied + 1, c :: rest => c :: quoteFrom copied rest
  | 0, c :: rest =>
    if 128 ≤ c.toNat ∧ validUtf8 (c :: rest) ≠ 0 then
      c :: quoteFrom (validUtf8 (c :: rest) - 1) rest
    else quoteByte c ++ quoteFrom 0 rest

def lquote (str : Text) : Text := '"' :: quoteFrom 0 str ++ ['"']

variable {δ : Type}

/-- The text of a `double`, with `.0` where `%g` leaves a whole number. -/
def doubleText (formatG : δ → Text) (d : δ) : Text :=
  let tmp := formatG d
  if '.' ∉ tmp ∧ 'e' ∉ tmp ∧ 'E' ∉ tmp ∧ tmp ≠ "inf".toList ∧ tmp ≠ "-inf".toList ∧
      tmp ≠ "nan".toList ∧ tmp ≠ "-nan".toList then tmp ++ ".0".toList
  else tmp

def scalarText (formatG : δ → Text) (n : Node δ) : Text :=
  match n.type with
  | .nil => "nil".toList
  | .bool => if n.b then "true".toList else "false".toList
  | .int => (toString n.i).toList
  | .double => doubleText formatG n.d
  | .string => lquote n.s
  | _ => []

/-- The cells of the array `path` points to. -/
abbrev PathArray := Nat → Option NodeId

def PathArray.read (path : PathArray) (i : Nat) : Except Stop NodeId :=
  if maxDepth + 1 ≤ i then .error (.fault (.readOutside i))
  else
    match path i with
    | none => .error (.fault (.readUnwritten i))
    | some n => .ok n

def PathArray.write (path : PathArray) (i : Nat) (n : NodeId) : Except Stop PathArray :=
  if maxDepth + 1 ≤ i then .error (.fault (.writeOutside i))
  else .ok (Function.update path i (some n))

/-- The loop of `in_path` from `i` on, with `count` turns left. -/
def inPathFrom (path : PathArray) (n : NodeId) : Nat → Nat → Except Stop Bool
  | _, 0 => .ok false
  | i, count + 1 => do
    let m ← PathArray.read path i
    if m = n then return true else inPathFrom path n (i + 1) count

def inPath (path : PathArray) (pathLen : Nat) (n : NodeId) : Except Stop Bool :=
  inPathFrom path n 0 pathLen

/-- What the emit functions write to: the text so far, the path array, and `*sep`. -/
structure Emit where
  sb : Text
  path : PathArray
  sep : Bool

def Emit.append (e : Emit) (text : Text) : Emit := { e with sb := e.sb ++ text }

def Emit.separate (e : Emit) : Emit :=
  { (if e.sep then e.append [' '] else e) with sep := true }

/-- `serialize_node`, called one level further down with the path length and `entries_only`. -/
abbrev SerializeNode := Nat → Bool → NodeId → Emit → Except Stop Emit

variable (doc : Document δ)

/-- One turn of the inner loop of `emit_entry_list`. -/
def emitRepeated (serializeNode : SerializeNode) (pathLen : Nat) (key : Text) (e : Emit)
    (item : NodeId) : Except Stop Emit :=
  serializeNode (pathLen + 1) false item ((e.append [' ']).append (key ++ " : ".toList))

def emitEntry (serializeNode : SerializeNode) (pathLen : Nat) (e : Emit) (entry : Text × NodeId) :
    Except Stop Emit := do
  let e ← serializeNode (pathLen + 1) ((doc entry.2).type = .mixed) entry.2
    (e.separate.append (entry.1 ++ " : ".toList))
  if (doc entry.2).type = .mixed then
    (doc entry.2).items.foldlM (emitRepeated serializeNode pathLen entry.1) e
  else return e

def emitEntryList (serializeNode : SerializeNode) (pathLen : Nat) (n : NodeId) (e : Emit) :
    Except Stop Emit :=
  (doc n).entries.foldlM (emitEntry doc serializeNode pathLen) e

def emitItem (serializeNode : SerializeNode) (pathLen : Nat) (e : Emit) (item : NodeId) :
    Except Stop Emit :=
  serializeNode (pathLen + 1) false item e.separate

def emitItemList (serializeNode : SerializeNode) (pathLen : Nat) (n : NodeId) (e : Emit) :
    Except Stop Emit :=
  (doc n).items.foldlM (emitItem serializeNode pathLen) e

/-- `serialize_node`. The first argument is `MAX_DEPTH + 1 - depth`, so that `depth > MAX_DEPTH` is
0. The separator is a local variable of the call. -/
def serializeNode (formatG : δ → Text) : Nat → SerializeNode
  | left, pathLen, entriesOnly, n, e =>
    if !isContainer (doc n) then return e.append (scalarText formatG (doc n))
    else do
      if ← inPath e.path pathLen n then throw (.error .cycle)
      else
        match left with
        | 0 => throw (.error .tooManyLayers)
        | left + 1 =>
          let path ← PathArray.write e.path pathLen n
          let asList := (doc n).type = .list
          let inner : Emit := ⟨e.sb ++ (if asList then ['['] else ['\x7b']), path, false⟩
          let inner ← emitEntryList doc (serializeNode formatG left) (pathLen + 1) n inner
          let inner ←
            if entriesOnly then pure inner
            else emitItemList doc (serializeNode formatG left) (pathLen + 1) n inner
          return ⟨inner.sb ++ (if asList then [']'] else ['\x7d']), inner.path, e.sep⟩

def PathArray.fresh : PathArray := fun _ => none

def serializeRoot (formatG : δ → Text) (n : NodeId) : Except Stop Emit := do
  let path ← PathArray.write PathArray.fresh 0 n
  let e ← emitEntryList doc (serializeNode doc formatG maxDepth) 1 n ⟨[], path, false⟩
  emitItemList doc (serializeNode doc formatG maxDepth) 1 n e

/-- `pulse_datalist_to_text`, on a node that is not null. -/
def toText (formatG : δ → Text) (n : NodeId) : Except Stop Text :=
  if isContainer (doc n) then (serializeRoot doc formatG n).map (·.sb)
  else (serializeNode doc formatG (maxDepth + 1) 0 false n ⟨[], PathArray.fresh, false⟩).map (·.sb)

end PulseEngine.Datalist
