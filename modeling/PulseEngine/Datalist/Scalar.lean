import Mathlib.Tactic
import PulseEngine.Datalist.Lexer

/-!
# The values of tokens

The part of `pulse_datalist/src/datalist.cpp` that decodes quoted strings and tells what an atom is.
`strtod` is a parameter.
-/

namespace PulseEngine.Datalist

inductive Scalar (δ : Type) where
  | nil
  | bool (b : Bool)
  | int (i : Int)
  | double (d : δ)
  | string (s : Text)
  deriving DecidableEq

/-- `strtod`: the value, and how many characters it is read from. -/
class Strtod (δ : Type) where
  strtod : Text → δ × ℕ

inductive QuoteFault where
  | invalid
  | assertion
  deriving DecidableEq, Repr

def QuoteFault.text : QuoteFault → String
  | .invalid => "Invalid quote string"
  | .assertion => "i < sz"

/-! ### Quoted strings -/

def toHex (c : Char) : Option ℕ :=
  if '0' ≤ c ∧ c ≤ '9' then some (c.toNat - '0'.toNat)
  else if 'a' ≤ c ∧ c ≤ 'f' then some (c.toNat - 'a'.toNat + 10)
  else if 'A' ≤ c ∧ c ≤ 'F' then some (c.toNat - 'A'.toNat + 10)
  else none

def isDigit (c : Char) : Bool := '0' ≤ c && c ≤ '9'

def digit (c : Char) : ℕ := c.toNat - '0'.toNat

/-- One more digit of a decimal escape, where `ptr[1]` is one and the value stays within `bound`: the
value, and whether the digit is taken. -/
def moreDigits (bound dec : ℕ) (next : Text) : ℕ × Bool :=
  match next with
  | [] => (dec, false)
  | c :: _ =>
    if isDigit c ∧ dec * 10 + digit c ≤ bound then (dec * 10 + digit c, true) else (dec, false)

/-- A decimal escape with the first digit `c`: the byte, and how many characters of `next` it takes.
The second digit is taken whatever the value is. -/
def decEscape (c : Char) (next : Text) : Char × ℕ :=
  let (dec, second) := moreDigits 99 (digit c) next
  let taken := if second then 1 else 0
  let (dec, third) := moreDigits 255 dec (next.drop taken)
  (Char.ofNat dec, if third then taken + 1 else taken)

/-- The cases `'x'` and `'X'` of `push_token_string`. There must be two more characters, and the second
one belongs to the escape also when it is no digit. -/
def hexEscape (next : Text) : Except QuoteFault (Char × ℕ) :=
  match next with
  | first :: second :: _ =>
    match toHex first with
    | none => .error .invalid
    | some hex =>
      match toHex second with
      | some hex2 => .ok (Char.ofNat (hex * 16 + hex2), 2)
      | none => .ok (Char.ofNat hex, 2)
  | _ => .error .invalid

def simpleEscape (c : Char) : Option Char :=
  match c with
  | 'n' => some '\n'
  | 'r' => some '\r'
  | 't' => some '\t'
  | 'a' => some (Char.ofNat 7)
  | 'b' => some (Char.ofNat 8)
  | 'v' => some (Char.ofNat 11)
  | '\\' => some '\\'
  | '\'' => some '\''
  | '"' => some '"'
  | '\n' => some '\n'
  | '\r' => some '\r'
  | _ => none

/-- The escape with the character `c` behind its backslash: the byte, and how many characters of `next`
it takes. -/
def parseEscape (c : Char) (next : Text) : Except QuoteFault (Char × ℕ) :=
  if c = '0' then .ok (Char.ofNat 0, 0)
  else if isDigit c then .ok (decEscape c next)
  else if c = 'x' ∨ c = 'X' then hexEscape next
  else
    match simpleEscape c with
    | some byte => .ok (byte, 0)
    | none => .error .invalid

/-- One turn of the loop of `push_token_string`, at the character `c`: the byte that is stored, and how
many characters of `next` it takes. -/
def pushChar (c : Char) (next : Text) : Except QuoteFault (Char × ℕ) :=
  if c ≠ '\\' then .ok (c, 0)
  else
    match next with
    | [] => .error .assertion
    | escaped :: next => do
      let (byte, taken) ← parseEscape escaped next
      return (byte, taken + 1)

/-- The loop of `push_token_string`: the bytes it stores. The first `taken` characters belong to the
escape before. -/
def pushTokenString : ℕ → Text → Except QuoteFault Text
  | _, [] => .ok []
  | taken + 1, _ :: rest => pushTokenString taken rest
  | 0, c :: rest => do
    let (byte, taken) ← pushChar c rest
    let buffer ← pushTokenString taken rest
    return byte :: buffer

/-! ### Atoms -/

def hexInteger : Text → ℕ → Option ℕ
  | [], v => some v
  | c :: cs, v =>
    match toHex c with
    | none => none
    | some d => hexInteger cs ((v * 16 + d) % 2 ^ 64)

/-- A character that `strtoull` skips in front of a number. -/
def isSpace (c : Char) : Bool := c = ' ' || '\t' ≤ c && c ≤ '\r'

def decimal (digits : Text) : ℕ := digits.foldl (fun v c => v * 10 + digit c) 0

def ullongMax : ℕ := 2 ^ 64 - 1

/-- `strtoull` to the base 10, of digits behind a sign: what is too large becomes `ULLONG_MAX`, and
what is not is negated as an unsigned number. -/
def unsignedValue (negative : Bool) (digits : Text) : ℕ :=
  if ullongMax < decimal digits then ullongMax
  else if negative then (2 ^ 64 - decimal digits) % 2 ^ 64
  else decimal digits

def strtoull (s : Text) : ℕ × ℕ :=
  let spaces := s.takeWhile isSpace
  let rest := s.dropWhile isSpace
  let sign := rest.take 1 = ['+'] ∨ rest.take 1 = ['-']
  let digits := (if sign then rest.drop 1 else rest).takeWhile isDigit
  if digits = [] then (0, 0)
  else (unsignedValue (rest.take 1 = ['-']) digits,
    spaces.length + (if sign then 1 else 0) + digits.length)

def int64 (v : ℕ) : Int := (v : Int).bmod (2 ^ 64)

/-- `strtod` of whole numbers, which is what the examples read. -/
instance wholeStrtod : Strtod Int where
  strtod s := (int64 (strtoull s).1, (strtoull s).2)

variable {δ : Type} [Strtod δ]

def startsNumber (c : Char) : Bool := isDigit c || c = '+' || c = '-' || c = '.'

def cString (s : Text) : Text := s.takeWhile (· ≠ Char.ofNat 0)

def hexAtom (atom : Text) : Option ℕ :=
  match atom with
  | '0' :: x :: c :: digits => if x = 'x' ∨ x = 'X' then hexInteger (c :: digits) 0 else none
  | _ => none

def atomNumber (atom : Text) : Option (Scalar δ) :=
  match hexAtom atom with
  | some v => some (.int (int64 v))
  | none =>
    -- the copy of the atom ends at its first NUL
    let (uv, read) := strtoull (cString atom)
    if read = atom.length then some (.int (int64 uv))
    else
      let ((f : δ), read) := Strtod.strtod (cString atom)
      if read = atom.length then some (.double f) else none

def atomWord (atom : Text) : Scalar δ :=
  if atom = "true".toList then .bool true
  else if atom = "false".toList then .bool false
  else if atom = "nil".toList then .nil
  else .string atom

def atomValue (atom : Text) : Scalar δ :=
  match atom with
  | [] => atomWord []
  | [c] =>
    if startsNumber c then if isDigit c then .int (digit c) else .string [c]
    else atomWord [c]
  | head :: next :: rest =>
    if startsNumber head then
      (atomNumber (head :: next :: rest)).getD (atomWord (head :: next :: rest))
    else atomWord (head :: next :: rest)

def pushToken (t : Token) : Option (Except QuoteFault (Scalar δ)) :=
  match t.type with
  | .string => some (.ok (.string t.text))
  | .escapeString => some ((pushTokenString 0 t.text).map .string)
  | .atom => some (.ok (atomValue t.text))
  | _ => none

end PulseEngine.Datalist
