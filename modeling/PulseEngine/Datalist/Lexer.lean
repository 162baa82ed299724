import PulseEngine.Datalist.Node

/-!
# The tokens of a datalist text

The tokenizer of `pulse_datalist/src/datalist.cpp`. A text is a list of bytes, each as the character
with its code. A pointer into the source is the part of the source from there on, so that a pointer at
the end is the empty list, and a token holds its bytes.
-/

namespace PulseEngine.Datalist

/-- `enum token_type`. -/
inductive TokenType where
  | open
  | close
  | converter
  | map
  | list
  | string
  | escapeString
  | atom
  | newline
  | tag
  | ref
  | eof
  deriving DecidableEq, Repr

/-- `struct token`: where it starts, and the bytes up to its end. -/
structure Token where
  type : TokenType
  start : ℕ
  text : Text
  deriving DecidableEq, Repr

/-- `struct lex_state`; `rest` is the source from `position` on. -/
structure LexState where
  source : Text
  rest : Text
  c : Token
  n : Token
  newline : Bool
  aslist : Bool
  line : ℕ
  deriving DecidableEq, Repr

def isBreak (c : Char) : Bool := c = '\r' || c = '\n'

def isBlank (c : Char) : Bool := c = ' ' || c = '\t'

def isSeparator (c : Char) : Bool :=
  c ∈ [' ', '\t', '\r', '\n', ',', '{', '}', '[', ']', '$', ':', '"', '\'']

def isHex (c : Char) : Bool :=
  '0' ≤ c && c ≤ '9' || 'a' ≤ c && c ≤ 'f' || 'A' ≤ c && c ≤ 'F'

def isHexnumber (digits : Text) : Bool := digits ≠ [] && digits.all isHex

def atomType (head : Char) (digits : Text) : TokenType :=
  if head = '&' ∧ isHexnumber digits then .tag
  else if head = '*' ∧ isHexnumber digits then .ref
  else .atom

/-- The loop of `parse_string` behind the opening quote: the bytes in front of the closing one, and
what follows it. -/
def stringEnd (quote : Char) : Text → Option (Text × Text)
  | [] => none
  | c :: rest =>
    if c = quote then some ([], rest)
    else if isBreak c then none
    else if c = '\\' then
      match rest with
      | [] => none
      | escaped :: rest => (stringEnd quote rest).map fun (s, rest) => (c :: escaped :: s, rest)
    else (stringEnd quote rest).map fun (s, rest) => (c :: s, rest)

namespace LexState

variable (LS : LexState)

def position (ptr : Text) : ℕ := LS.source.length - ptr.length

/-- A token is read: `ptr` points at it, and `rest` behind it. -/
def token (type : TokenType) (ptr text rest : Text) : LexState :=
  { LS with n := ⟨type, LS.position ptr, text⟩, rest := rest }

/-- `TOKEN_EOF`; the token keeps the position of the one before. -/
def eof : LexState := { LS with n := { LS.n with type := .eof }, rest := [] }

def parseAtom (head : Char) (ptr : Text) : LexState :=
  let text := ptr.takeWhile fun c => !isSeparator c
  LS.token (atomType head text.tail) ptr text (ptr.dropWhile fun c => !isSeparator c)

/-- `parse_string`; the token starts behind the quote. A backslash among its bytes is one that the
loop came to, or the character behind such a one. -/
def parseString (quote : Char) (ptr : Text) : Bool × LexState :=
  match stringEnd quote ptr with
  | none => (false, { LS with n := { LS.n with start := LS.position ptr } })
  | some (s, rest) =>
    (true, LS.token (if '\\' ∈ s then .escapeString else .string) ptr s rest)

def parseDashes (ptr : Text) : LexState :=
  let dashes := ptr.takeWhile (· = '-')
  let rest := ptr.dropWhile (· = '-')
  if rest.head?.all fun c => isBlank c || isBreak c then LS.token .list ptr dashes rest
  else LS.parseAtom '-' ptr

end LexState

/-- What the loop of `next_token` is at: a token, the blanks in front of a line in `parse_ident`, or
a comment in `skip_line_comment`. -/
inductive Scan where
  | token
  | ident (blanks : Text)
  | comment

/-- The loop of `next_token`. `parse_ident` and `skip_line_comment` end a line without counting it. -/
def nextTokenFrom : Scan → Text → LexState → Bool × LexState
  | _, [], LS => (true, LS.eof)
  | .ident blanks, c :: rest, LS =>
    if isBreak c then nextTokenFrom (.ident []) rest LS
    else if c = '#' then nextTokenFrom .comment rest LS
    else if isBlank c then nextTokenFrom (.ident (blanks ++ [c])) rest LS
    else (true, LS.token .newline (blanks ++ c :: rest) blanks (c :: rest))
  | .comment, c :: rest, LS =>
    if isBreak c then nextTokenFrom (.ident []) rest LS else nextTokenFrom .comment rest LS
  | .token, c :: rest, LS =>
    if c = '#' then nextTokenFrom .comment rest LS
    else if isBreak c then nextTokenFrom (.ident []) rest { LS with line := LS.line + 1 }
    else if isBlank c ∨ c = ',' then nextTokenFrom .token rest LS
    else if c = '{' ∨ c = '[' then (true, LS.token .open (c :: rest) [c] rest)
    else if c = '$' then (true, LS.token .converter (c :: rest) [c] rest)
    else if c = '}' ∨ c = ']' then (true, LS.token .close (c :: rest) [c] rest)
    else if c = '-' then (true, LS.parseDashes (c :: rest))
    else if c = ':' then (true, LS.token .map (c :: rest) [c] rest)
    else if c = '"' ∨ c = '\'' then LS.parseString c rest
    else (true, LS.parseAtom c (c :: rest))

/-- `next_token`: whether the source is valid. A line head is where the source starts; the loop goes
through every other one. -/
def nextToken (LS : LexState) : Bool × LexState :=
  nextTokenFrom (if LS.newline then .ident [] else .token) LS.rest { LS with newline := false }

def Token.zero : Token := ⟨.open, 0, []⟩

def LexState.init (text : Text) (aslist : Bool) : LexState :=
  ⟨text, text, .zero, .zero, true, aslist, 1⟩

end PulseEngine.Datalist
