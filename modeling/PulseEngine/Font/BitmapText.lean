import Mathlib.Tactic
import PulseEngine.Datalist.Scalar

/-!
# The lines of a bitmap font

`next_line`, `parse_attrs`, `attr_int` and `line_keyword` of `pulse_font/src/font_bitmap.cpp`. A character is a
byte, and a cursor into a line is what follows it.
-/

namespace PulseEngine.Font

open Datalist

def readWord (line : Text) : Option (Text × Text) :=
  let line := line.dropWhile isSpace
  let inWord (c : Char) := c ≠ '=' && !isSpace c
  if line.takeWhile inWord = [] then none else some (line.takeWhile inWord, line.dropWhile inWord)

def readValue (line : Text) : Option Text × Text :=
  match line.dropWhile isSpace with
  | '=' :: line =>
    match line.dropWhile isSpace with
    | [] => (none, [])
    | '"' :: line => (some (line.takeWhile (· ≠ '"')), (line.dropWhile (· ≠ '"')).drop 1)
    | line => (some (line.takeWhile (!isSpace ·)), line.dropWhile (!isSpace ·))
  | line => (none, line)

def parseAttrsFrom : ℕ → Text → List (Text × Text)
  | 0, _ => []
  | fuel + 1, line =>
    match readWord line with
    | none => []
    | some (word, line) =>
      match readValue line with
      | (some value, line) => (word, value) :: parseAttrsFrom fuel line
      | (none, line) => parseAttrsFrom fuel line

def parseAttrs (line : Text) : List (Text × Text) := parseAttrsFrom line.length line

def lineKeyword (line : Text) (keyword : String) : Bool := (readWord line).map Prod.fst = some keyword.toList

def strtoll (s : Text) : ℤ × ℕ :=
  let spaces := s.takeWhile isSpace
  let rest := s.dropWhile isSpace
  let sign := rest.take 1 = ['+'] ∨ rest.take 1 = ['-']
  let digits := (if sign then rest.drop 1 else rest).takeWhile isDigit
  if digits = [] then (0, 0)
  else (if rest.take 1 = ['-'] then max (-2 ^ 63) (-(decimal digits : ℤ)) else min (2 ^ 63 - 1) (decimal digits : ℤ),
    spaces.length + (if sign then 1 else 0) + digits.length)

def findAttr (attrs : List (Text × Text)) (key : String) : Option Text := attrs.lookup key.toList

def attrInt (attrs : List (Text × Text)) (key : String) : Option ℤ := do
  let value ← findAttr attrs key
  if value = [] then none
  else
    let (parsed, read) := strtoll (cString value)
    if read = (cString value).length ∧ -2 ^ 31 ≤ parsed ∧ parsed < 2 ^ 31 then some parsed else none

def nextLine (text : Text) : Text × Text :=
  let line := text.takeWhile (· ≠ '\n')
  (if line.getLast? = some '\r' then line.dropLast else line, (text.dropWhile (· ≠ '\n')).drop 1)

/-- The lines that the loop of `bitmap_font_parse` takes. -/
def fntLinesFrom : ℕ → Text → List Text
  | _, [] => []
  | 0, _ => []
  | fuel + 1, text => (nextLine text).1 :: fntLinesFrom fuel (nextLine text).2

def fntLines (text : Text) : List Text := fntLinesFrom text.length text

variable {line rest word text : Text} {value : Option Text} {fuel fuel' : ℕ}

lemma readWord_length (h : readWord line = some (word, rest)) : rest.length < line.length := by
  have hdrop := (List.dropWhile_suffix (l := line) isSpace).length_le
  rw [readWord] at h
  split at h
  next => exact nomatch h
  next hword =>
    obtain ⟨rfl, rfl⟩ := Prod.mk.inj (Option.some.inj h)
    refine Nat.lt_of_lt_of_le ?_ hdrop
    have hsplit := congrArg List.length (List.takeWhile_append_dropWhile
      (p := fun c => decide (c ≠ '=') && !isSpace c) (l := line.dropWhile isSpace))
    rw [List.length_append] at hsplit
    have hpos := List.length_pos_of_ne_nil hword
    omega

lemma readValue_length (h : readValue line = (value, rest)) : rest.length ≤ line.length := by
  have hdrop := (List.dropWhile_suffix (l := line) isSpace).length_le
  rw [readValue] at h
  split at h
  next line' heq =>
    rw [heq, List.length_cons] at hdrop
    have hdrop' := (List.dropWhile_suffix (l := line') isSpace).length_le
    split at h
    next => rw [← (Prod.mk.inj h).2]; exact Nat.zero_le _
    next line'' heq' =>
      rw [heq', List.length_cons] at hdrop'
      rw [← (Prod.mk.inj h).2, List.length_drop]
      have hquote := (List.dropWhile_suffix (l := line'') (· ≠ '"')).length_le
      omega
    next line'' =>
      rw [← (Prod.mk.inj h).2]
      have hword := (List.dropWhile_suffix (l := line'.dropWhile isSpace) (!isSpace ·)).length_le
      omega
  next => rw [← (Prod.mk.inj h).2]; exact hdrop

lemma parseAttrsFrom_eq (h : line.length ≤ fuel) (h' : line.length ≤ fuel') :
    parseAttrsFrom fuel line = parseAttrsFrom fuel' line := by
  induction fuel generalizing line fuel' with
  | zero =>
    obtain rfl := List.length_eq_zero_iff.mp (Nat.le_zero.mp h)
    cases fuel' <;> rfl
  | succ fuel ih =>
    cases fuel' with
    | zero =>
      obtain rfl := List.length_eq_zero_iff.mp (Nat.le_zero.mp h')
      rfl
    | succ fuel' =>
      rw [parseAttrsFrom, parseAttrsFrom]
      cases hword : readWord line with
      | none => rfl
      | some wordRest =>
        obtain ⟨word, rest⟩ := wordRest
        have hless := readWord_length hword
        rcases hvalue : readValue rest with ⟨value, rest'⟩
        have hle := readValue_length hvalue
        have heq := ih (show rest'.length ≤ fuel by omega) (show rest'.length ≤ fuel' by omega)
        simp only [hvalue]
        cases value with
        | none => exact heq
        | some value => exact congrArg _ heq

lemma nextLine_length (h : text ≠ []) : (nextLine text).2.length < text.length := by
  have hpos := List.length_pos_of_ne_nil h
  have hdrop := (List.dropWhile_suffix (l := text) (· ≠ '\n')).length_le
  rw [nextLine, List.length_drop]
  omega

lemma fntLinesFrom_eq (h : text.length ≤ fuel) : fntLinesFrom fuel text = fntLines text := by
  suffices ∀ fuel', text.length ≤ fuel' → fntLinesFrom fuel text = fntLinesFrom fuel' text from this _ le_rfl
  intro fuel' h'
  induction fuel generalizing text fuel' with
  | zero =>
    obtain rfl := List.length_eq_zero_iff.mp (Nat.le_zero.mp h)
    cases fuel' <;> rfl
  | succ fuel ih =>
    cases text with
    | nil => cases fuel' <;> rfl
    | cons c text =>
      cases fuel' with
      | zero => exact absurd h' (Nat.not_succ_le_zero _)
      | succ fuel' =>
        have hless := nextLine_length (List.cons_ne_nil c text)
        rw [fntLinesFrom, fntLinesFrom, ih (by omega) fuel' (by omega)]
        · exact List.cons_ne_nil c text
        · exact List.cons_ne_nil c text

end PulseEngine.Font
