import PulseEngine.Library.Stateful

/-!
# Line breaking

The items of a text and `break_lines`, which cuts them into lines: at every newline, and, for a
positive box width, before the item that does not fit any more, at the last break opportunity of the
line if there is one. The numbers of a width are a type with zero, addition and a comparison without
any laws, so that the floats of the source are one.
-/

namespace PulseEngine.Text

open Library

def kNoBreak : ℕ := 0xFFFFFFFF

def newline : ℕ := 0x0A

def isSpace (cp : ℕ) : Bool := cp == 0x20 || cp == 0x3000

def isCjk (cp : ℕ) : Bool :=
  (0x1100 ≤ cp && cp ≤ 0x115F) ||
  (0x2E80 ≤ cp && cp ≤ 0x303E) ||
  (0x3041 ≤ cp && cp ≤ 0x33FF) ||
  (0x3400 ≤ cp && cp ≤ 0x4DBF) ||
  (0x4E00 ≤ cp && cp ≤ 0x9FFF) ||
  (0xA000 ≤ cp && cp ≤ 0xA4CF) ||
  (0xAC00 ≤ cp && cp ≤ 0xD7A3) ||
  (0xF900 ≤ cp && cp ≤ 0xFAFF) ||
  (0xFE30 ≤ cp && cp ≤ 0xFE4F) ||
  (0xFF00 ≤ cp && cp ≤ 0xFF60) ||
  (0xFFE0 ≤ cp && cp ≤ 0xFFE6) ||
  0xFFFF < cp

/-- `text_runs`: the code points of the items, their advances, and the kerning of each with the item
before it. -/
structure TextRuns (F : Type*) where
  items : List ℕ
  advances : List F
  kerns : List F
  sized_advances : advances.length = items.length
  sized_kerns : kerns.length = items.length

/-- `text_line`: a range of items and its width. -/
structure TextLine (F : Type*) where
  first : ℕ
  count : ℕ
  width : F
deriving Repr, DecidableEq

def TextLine.indices {F : Type*} (line : TextLine F) : List ℕ := List.range' line.first line.count

/-- The local variables of `break_lines`. -/
structure BreakState (F : Type*) where
  start : ℕ
  i : ℕ
  pen : F
  visible : F
  brk : ℕ
  brkWidth : F
  lines : List (TextLine F)

variable {F : Type*}

def TextRuns.count (runs : TextRuns F) : ℕ := runs.items.length % 2 ^ 32

def TextRuns.cp (runs : TextRuns F) (i : ℕ) : ℕ := runs.items.getD i 0

def TextRuns.advance [Zero F] (runs : TextRuns F) (i : ℕ) : F := runs.advances.getD i 0

def TextRuns.kern [Zero F] (runs : TextRuns F) (i : ℕ) : F := runs.kerns.getD i 0

def BreakState.init [Zero F] : BreakState F := ⟨0, 0, 0, 0, kNoBreak, 0, []⟩

/-- Pushes the line of `count` items and goes on with a new line at `next`. -/
def BreakState.push [Zero F] (s : BreakState F) (count : ℕ) (width : F) (next : ℕ) :
    BreakState F where
  start := next
  i := next
  pen := 0
  visible := 0
  brk := kNoBreak
  brkWidth := s.brkWidth
  lines := s.lines ++ [⟨s.start, count, width⟩]

def BreakState.wrap [Zero F] (s : BreakState F) : BreakState F :=
  if s.brk ≠ kNoBreak ∧ s.start < s.brk then s.push (s.brk - s.start) s.brkWidth s.brk
  else s.push (s.i - s.start) s.visible s.i

def BreakState.finish [Zero F] (runs : TextRuns F) (s : BreakState F) : List (TextLine F) :=
  if s.start < runs.count then
    s.lines ++ [⟨s.start, runs.count - s.start, s.visible⟩]
  else if 0 < runs.count ∧ runs.cp (runs.count - 1) = newline then
    s.lines ++ [⟨runs.count, 0, 0⟩]
  else s.lines

variable [Zero F] [Add F]

def BreakState.add (runs : TextRuns F) (s : BreakState F) : F :=
  runs.advance s.i + if s.start < s.i then runs.kern s.i else 0

/-- The width up to the last item that is no space, with the item at `i`. -/
def BreakState.seen (runs : TextRuns F) (s : BreakState F) : F :=
  if isSpace (runs.cp s.i) then s.visible else s.pen + s.add runs

def BreakState.take (runs : TextRuns F) (s : BreakState F) : BreakState F :=
  let pen := s.pen + s.add runs
  let visible := s.seen runs
  let taken := { s with i := s.i + 1, pen := pen, visible := visible }
  if s.i + 1 < runs.count ∧ runs.cp (s.i + 1) ≠ newline then
    if isCjk (runs.cp s.i) then
      { taken with brk := s.i + 1, brkWidth := pen }
    else if isSpace (runs.cp s.i) ∧ ¬ isSpace (runs.cp (s.i + 1)) then
      { taken with brk := s.i + 1, brkWidth := visible }
    else taken
  else taken

variable [LT F] [DecidableLT F]

def breakStep (runs : TextRuns F) (boxWidth : F) (s : BreakState F) : Option (BreakState F) :=
  if s.i < runs.count then
    if runs.cp s.i = newline then
      some (s.push (s.i - s.start) s.visible (s.i + 1))
    else if 0 < boxWidth ∧ s.start < s.i ∧ boxWidth < s.pen + s.add runs then
      some s.wrap
    else
      some (s.take runs)
  else none

def breakLines (fuel : ℕ) (runs : TextRuns F) (boxWidth : F) : Option (List (TextLine F)) :=
  (loop (breakStep runs boxWidth) fuel BreakState.init).map (BreakState.finish runs)

end PulseEngine.Text

/-!
## Markup

`parse_text` goes over the bytes of a text with a cursor: a tag sets the color of what follows, and anything
else is decoded as UTF-8. The memory is the bytes with the NUL behind them, a cursor is what follows it, and a
read behind the NUL has no result. The segments that the cursor goes over are a description of the same bytes
without a cursor.
-/

namespace PulseEngine.Text

structure TextColor (F : Type) where
  r : F
  g : F
  b : F
  a : F
deriving DecidableEq

structure TextItem (F : Type) where
  cp : ℕ
  color : TextColor F
deriving DecidableEq

def openByte : UInt8 := 0x5B

def closeByte : UInt8 := 0x5D

def hexDigit (c : UInt8) : ℕ :=
  if 0x30 ≤ c ∧ c ≤ 0x39 then c.toNat - 0x30
  else if 0x61 ≤ c ∧ c ≤ 0x66 then c.toNat - 0x61 + 10
  else if 0x41 ≤ c ∧ c ≤ 0x46 then c.toNat - 0x41 + 10
  else 0xFF

def leadBits (b : UInt8) : ℕ :=
  if 0xF0 ≤ b then b.toNat &&& 0x07
  else if 0xE0 ≤ b then b.toNat &&& 0x0F
  else if 0xC0 ≤ b then b.toNat &&& 0x1F
  else b.toNat

def extraBytes (b : UInt8) : ℕ := if 0xF0 ≤ b then 3 else if 0xE0 ≤ b then 2 else if 0xC0 ≤ b then 1 else 0

def isTail (b : UInt8) : Bool := b &&& 0xC0 = 0x80

def addTail (code : ℕ) (b : UInt8) : ℕ := code <<< 6 ||| (b &&& 0x3F).toNat

/-- The loop of `decode_cp`: the code and the width. -/
def decodeTail (s : List UInt8) : ℕ → ℕ → ℕ → Option (ℕ × ℕ)
  | 0, code, width => some (code, width)
  | extra + 1, code, width => do
    let b ← s[width]?
    if isTail b then decodeTail s extra (addTail code b) (width + 1) else some (code, width)

def decodeCp (s : List UInt8) : Option (ℕ × ℕ) := do
  let b ← s[0]?
  decodeTail s (extraBytes b) (leadBits b) 1

inductive Tag
  | reset
  | color (digits : List ℕ)
deriving DecidableEq

def colorTag (body : List UInt8) : Option Tag :=
  let digits := body.map hexDigit
  if 0xFF ∈ digits then none else some (.color digits)

def scanClose : List UInt8 → Option ℕ
  | [] => none
  | b :: rest => if b = 0 ∨ b = closeByte ∨ b = openByte then some 0 else (scanClose rest).map (· + 1)

/-- The checks of `parse_text` on what is between the bracket at the cursor and the byte at `close`. -/
def tagAt (s : List UInt8) (close : ℕ) : Option (Option Tag) := do
  let bodyLen := (close - 1) % 2 ^ 32
  let last ← s[close]?
  if last ≠ closeByte then return none
  else if bodyLen = 1 then
    let b ← s[1]?
    return if b = 0x2F then some .reset else none
  else if bodyLen = 6 then
    let body ← (List.range' 1 6).mapM (s[·]?)
    return colorTag body
  else return none

variable {F : Type} (channel : ℕ → ℕ → F) (default : TextColor F)

/-- The color that a tag sets; `channel` computes a float of two digits. -/
def Tag.apply : Tag → TextColor F
  | .reset => default
  | .color digits =>
    ⟨channel (digits.getD 0 0) (digits.getD 1 0), channel (digits.getD 2 0) (digits.getD 3 0),
      channel (digits.getD 4 0) (digits.getD 5 0), default.a⟩

def isControl (cp : ℕ) : Bool := cp == 0x0D || cp != newline && cp < 0x20

/-- The local variables of `parse_text`. -/
structure ParseState (F : Type) where
  cursor : List UInt8
  cur : TextColor F
  out : List (TextItem F)

def parseTurn (s : ParseState F) : Option (ParseState F) := do
  let b ← s.cursor[0]?
  if b = openByte then
    let close ← (scanClose (s.cursor.drop 1)).map (· + 1)
    match ← tagAt s.cursor close with
    | some tag => return { s with cursor := s.cursor.drop (close + 1), cur := tag.apply channel default }
    | none => return { s with cursor := s.cursor.drop 1, out := s.out ++ [⟨openByte.toNat, s.cur⟩] }
  else
    let (cp, width) ← decodeCp s.cursor
    let s := { s with cursor := s.cursor.drop width }
    if isControl cp then return s else return { s with out := s.out ++ [⟨cp, s.cur⟩] }

/-- The loop of `parse_text`; no result when the fuel is used up. -/
def parseLoop : ℕ → ParseState F → Option (ParseState F)
  | 0, _ => none
  | fuel + 1, s => do
    let b ← s.cursor[0]?
    if b = 0 then return s else parseLoop fuel (← parseTurn channel default s)

def parseText (fuel : ℕ) (memory : List UInt8) : Option (List (TextItem F)) :=
  (parseLoop channel default fuel ⟨memory, default, []⟩).map ParseState.out

inductive Segment
  | tag (tag : Tag) (body : List UInt8)
  | sequence (lead : UInt8) (tail : List UInt8)

namespace Segment

def bytes : Segment → List UInt8
  | .tag _ body => openByte :: body ++ [closeByte]
  | .sequence lead tail => lead :: tail

def code (lead : UInt8) (tail : List UInt8) : ℕ := tail.foldl addTail (leadBits lead)

end Segment

def tagOf (length : ℕ) (body : List UInt8) : Option Tag :=
  if length = 1 then if body.head? = some 0x2F then some .reset else none
  else if length = 6 then colorTag (body.take 6)
  else none

def bodyOf (rest : List UInt8) : List UInt8 := rest.takeWhile fun b => b ≠ closeByte ∧ b ≠ openByte

/-- The segment at the front of a text, where `lengthOf` is how the length of a tag is computed. -/
def segmentAt (lengthOf : ℕ → ℕ) (b : UInt8) (rest : List UInt8) : Segment :=
  let body := bodyOf rest
  if b = openByte then
    match if rest[body.length]? = some closeByte then tagOf (lengthOf body.length) body else none with
    | some tag => .tag tag body
    | none => .sequence openByte []
  else .sequence b ((rest.take (extraBytes b)).takeWhile isTail)

def segmentsFrom (lengthOf : ℕ → ℕ) : ℕ → List UInt8 → List Segment
  | _, [] => []
  | taken + 1, _ :: rest => segmentsFrom lengthOf taken rest
  | 0, b :: rest =>
    segmentAt lengthOf b rest :: segmentsFrom lengthOf ((segmentAt lengthOf b rest).bytes.length - 1) rest

def segments (lengthOf : ℕ → ℕ) (text : List UInt8) : List Segment := segmentsFrom lengthOf 0 text

def coloredFrom : TextColor F → List Segment → List (TextItem F)
  | _, [] => []
  | _, .tag tag _ :: rest => coloredFrom (tag.apply channel default) rest
  | cur, .sequence lead tail :: rest =>
    (if isControl (Segment.code lead tail) then [] else [⟨Segment.code lead tail, cur⟩]) ++
      coloredFrom cur rest

def narrowLength (length : ℕ) : ℕ := length % 2 ^ 32

end PulseEngine.Text
