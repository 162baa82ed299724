import PulseEngine.Datalist.Integers
import PulseEngine.Library.Reading

/-!
# The escapes of a quoted string

The documented table of escapes as a step that reads a quoted string from left to right, and when the
decoder reads it in the same way.
-/

namespace PulseEngine.Datalist

open Library

/-! ### The documented table -/

def documentedEscapes : List (Char × Char) :=
  [('\\', '\\'), ('\'', '\''), ('"', '"'), ('n', '\n'), ('r', '\r'), ('t', '\t'), ('a', Char.ofNat 7),
    ('b', Char.ofNat 8), ('v', Char.ofNat 11), ('0', Char.ofNat 0), ('\n', '\n'), ('\r', '\r')]

def decimalDigits (s : Text) : Option Text :=
  [s.take 3, s.take 2, s.take 1].find? fun digits =>
    digits ≠ [] && digits.all isDigit && positional 10 digits ≤ 255

def hexDigits (s : Text) : Text := (s.take 2).takeWhile isHex

def documentedEscape (s : Text) : Option (Char × ℕ) :=
  match s with
  | [] => none
  | c :: next =>
    match documentedEscapes.lookup c with
    | some byte => some (byte, 1)
    | none =>
      if c = 'x' ∨ c = 'X' then
        if hexDigits next = [] then none
        else some (Char.ofNat (positional 16 (hexDigits next)), (hexDigits next).length + 1)
      else (decimalDigits s).map fun digits => (Char.ofNat (positional 10 digits), digits.length)

def documentedChar (c : Char) (next : Text) : Except QuoteFault (Char × ℕ) :=
  if c = '\\' then
    match documentedEscape next with
    | some piece => .ok piece
    | none => .error .invalid
  else .ok (c, 0)

def OneHexDigit (c : Char) (next : Text) : Prop :=
  c = '\\' ∧ (next.take 1 = ['x'] ∨ next.take 1 = ['X']) ∧ (hexDigits (next.drop 1)).length = 1

inductive Escaped : Text → Prop
  | nil : Escaped []
  | plain {c : Char} {s : Text} : c ≠ '\\' → Escaped s → Escaped (c :: s)
  | escape {c : Char} {s : Text} : Escaped s → Escaped ('\\' :: c :: s)

/-! ### Escapes of one character -/

lemma lookup_eq {c : Char} (h : c ≠ '0') : documentedEscapes.lookup c = simpleEscape c := by
  unfold simpleEscape
  split <;> try rfl
  rename_i hn hr ht ha hb hv hback hsingle hdouble hline hreturn
  rw [List.lookup_eq_none_iff]
  simp only [documentedEscapes, List.forall_mem_cons, List.not_mem_nil, false_imp_iff,
    implies_true, and_true, bne_iff_ne, ne_eq]
  exact ⟨hback, hsingle, hdouble, hn, hr, ht, ha, hb, hv, h, hline, hreturn⟩

/-! ### Decimal escapes -/

lemma decimalDigits_of_not {c : Char} {next : Text} (h : ¬ isDigit c) :
    decimalDigits (c :: next) = none := by
  simp [decimalDigits, h]

lemma positional_digits {c d e : Char} (hc : isDigit c) (hd : isDigit d) (he : isDigit e) :
    positional 10 [c] = digit c ∧ positional 10 [c, d] = digit c * 10 + digit d ∧
      positional 10 [c, d, e] = (digit c * 10 + digit d) * 10 + digit e := by
  refine ⟨?_, ?_, ?_⟩ <;> rw [← decimal_eq (by simp [hc, hd, he])] <;> simp [decimal]

lemma decEscape_eq {c : Char} {next : Text} (h : isDigit c) :
    (decimalDigits (c :: next)).map (fun digits => (Char.ofNat (positional 10 digits), digits.length)) =
      some ((decEscape c next).1, (decEscape c next).2 + 1) := by
  have hone : positional 10 [c] = digit c := (positional_digits h h h).1
  have hc := digit_le h
  have hc255 : digit c ≤ 255 := by omega
  match next with
  | [] => simp [decimalDigits, decEscape, moreDigits, h, hone, hc255]
  | d :: following =>
    by_cases hd : isDigit d
    · have htwo : positional 10 [c, d] = digit c * 10 + digit d := (positional_digits h hd hd).2.1
      have hdle := digit_le hd
      have h99 : digit c * 10 + digit d ≤ 99 := by omega
      have h255 : digit c * 10 + digit d ≤ 255 := by omega
      match following with
      | [] => simp [decimalDigits, decEscape, moreDigits, h, hd, htwo, h99, h255]
      | e :: following =>
        by_cases he : isDigit e
        · have hthree := (positional_digits h hd he).2.2
          -- the third digit is left when the value gets too large
          rcases Nat.lt_or_ge 255 ((digit c * 10 + digit d) * 10 + digit e) with hgt | hle
          · simp [decimalDigits, decEscape, moreDigits, h, hd, he, htwo, h99, h255, hthree,
              Nat.not_le.mpr hgt]
          · simp [decimalDigits, decEscape, moreDigits, h, hd, he, h99, hthree, hle]
        · simp [decimalDigits, decEscape, moreDigits, h, hd, htwo, h99, h255, he]
    · simp [decimalDigits, decEscape, moreDigits, h, hd, hone, hc255]

/-! ### Hexadecimal escapes -/

lemma toHex_of_not {c : Char} (h : ¬ isHex c) : toHex c = none := by
  cases hc : toHex c with
  | none => rfl
  | some d => exact absurd (isHex_of_toHex hc) h

lemma hexEscape_eq_iff {next : Text} :
    hexEscape next =
        (if hexDigits next = [] then .error .invalid
        else .ok (Char.ofNat (positional 16 (hexDigits next)), (hexDigits next).length)) ↔
      (hexDigits next).length ≠ 1 := by
  match next with
  | [] => simp [hexEscape, hexDigits]
  | [c] =>
    by_cases hc : isHex c
    · simp [hexEscape, hexDigits, hc]
    · simp [hexEscape, hexDigits, hc]
  | c :: d :: following =>
    by_cases hc : isHex c
    · by_cases hd : isHex d
      · have htwo : positional 16 [c, d] = digitValue c * 16 + digitValue d :=
          (@positional_snoc 16 [c] d).trans (by rw [positional]; simp)
        simp [hexEscape, hexDigits, hc, hd, toHex_of_isHex, htwo]
      · simp [hexEscape, hexDigits, hc, hd, toHex_of_isHex, toHex_of_not]
    · simp [hexEscape, hexDigits, hc, toHex_of_not]

/-! ### Steps -/

lemma escaped_of_stringEnd {quote : Char} {ptr s rest : Text}
    (h : stringEnd quote ptr = some (s, rest)) : Escaped s := by
  induction ptr using stringEnd.induct quote generalizing s with
  | case1 => cases h
  | case2 following =>
    rw [stringEnd.eq_def] at h
    simp only [if_true] at h
    obtain ⟨rfl, _⟩ := Prod.mk.inj (Option.some.inj h)
    exact .nil
  | case3 c following hquote hbreak =>
    rw [stringEnd.eq_def] at h
    simp only [if_neg hquote, if_pos hbreak] at h
    cases h
  | case4 hquote hbreak =>
    rw [stringEnd, if_neg hquote, if_neg hbreak, if_pos rfl] at h
    cases h
  | case5 escaped following hquote hbreak ih =>
    rw [stringEnd, if_neg hquote, if_neg hbreak, if_pos rfl] at h
    obtain ⟨⟨s', rest'⟩, hs, heq⟩ := Option.map_eq_some_iff.mp h
    obtain ⟨rfl, rfl⟩ := Prod.mk.inj heq
    exact .escape (ih hs)
  | case6 c following hquote hbreak hback ih =>
    rw [stringEnd.eq_def] at h
    simp only [if_neg hquote, if_neg hbreak, if_neg hback] at h
    obtain ⟨⟨s', rest'⟩, hs, heq⟩ := Option.map_eq_some_iff.mp h
    obtain ⟨rfl, rfl⟩ := Prod.mk.inj heq
    exact .plain hback (ih hs)

lemma simpleEscape_of_digit {c : Char} (h : isDigit c) : simpleEscape c = none := by
  unfold simpleEscape
  split <;> first | rfl | exact absurd h (by decide)

lemma parseEscape_digit {c : Char} {next : Text} (h : isDigit c) (h0 : c ≠ '0') :
    (parseEscape c next).map (fun piece => (piece.1, piece.2 + 1)) =
      match documentedEscape (c :: next) with
      | some piece => .ok piece
      | none => .error .invalid := by
  have hx : ¬ (c = 'x' ∨ c = 'X') := by
    rintro (rfl | rfl) <;> exact absurd h (by decide)
  rw [parseEscape, if_neg h0, if_pos h, documentedEscape, lookup_eq h0, simpleEscape_of_digit h]
  simp only [if_neg hx, decEscape_eq h]
  rfl

lemma parseEscape_hex {c : Char} {next : Text} (h : c = 'x' ∨ c = 'X') :
    (parseEscape c next).map (fun piece => (piece.1, piece.2 + 1)) =
        (match documentedEscape (c :: next) with
        | some piece => .ok piece
        | none => .error .invalid) ↔
      (hexDigits next).length ≠ 1 := by
  have hlookup : documentedEscapes.lookup c = none := by rcases h with rfl | rfl <;> rfl
  have hparse : parseEscape c next = hexEscape next := by
    rcases h with rfl | rfl <;> rfl
  rw [hparse, documentedEscape, hlookup, ← hexEscape_eq_iff]
  simp only [if_pos h]
  cases hexEscape next with
  | error e =>
    split_ifs <;> simp [Except.map]
  | ok piece =>
    obtain ⟨byte, taken⟩ := piece
    split_ifs <;> simp [Except.map]

lemma parseEscape_eq_iff {c : Char} {next : Text} :
    (parseEscape c next).map (fun piece => (piece.1, piece.2 + 1)) =
        (match documentedEscape (c :: next) with
        | some piece => .ok piece
        | none => .error .invalid) ↔
      ¬ ((c = 'x' ∨ c = 'X') ∧ (hexDigits next).length = 1) := by
  by_cases hx : c = 'x' ∨ c = 'X'
  · rw [parseEscape_hex hx]
    exact ⟨fun h h' => h h'.2, fun h h' => h ⟨hx, h'⟩⟩
  · refine iff_of_true ?_ fun h => hx h.1
    by_cases h0 : c = '0'
    · rw [h0]
      rfl
    · by_cases hdigit : isDigit c
      · exact parseEscape_digit hdigit h0
      · rw [parseEscape, if_neg h0, if_neg hdigit, if_neg hx, documentedEscape, lookup_eq h0]
        cases simpleEscape c with
        | some byte => rfl
        | none =>
          simp only [if_neg hx, decimalDigits_of_not hdigit]
          rfl

lemma pushChar_eq_iff {c : Char} {next : Text} (h : c = '\\' → next ≠ []) :
    pushChar c next = documentedChar c next ↔ ¬ OneHexDigit c next := by
  by_cases hc : c = '\\'
  · match next with
    | [] => exact absurd rfl (h hc)
    | escaped :: next =>
      have hiff := @parseEscape_eq_iff escaped next
      have hone : OneHexDigit c (escaped :: next) ↔
          (escaped = 'x' ∨ escaped = 'X') ∧ (hexDigits next).length = 1 := by
        simp [OneHexDigit, hc]
      rw [hone, ← hiff, pushChar, documentedChar, if_neg (not_not.mpr hc), if_pos hc]
      cases parseEscape escaped next <;> rfl
  · rw [pushChar.eq_def, documentedChar, if_pos hc, if_neg hc]
    exact iff_of_true rfl fun h => hc h.1

/-! ### Quoted strings -/

lemma Escaped.drop {s : Text} {k : ℕ} (h : Escaped s) (hk : ∀ c ∈ s.take k, c ≠ '\\') :
    Escaped (s.drop k) := by
  induction k generalizing s with
  | zero => exact h
  | succ k ih =>
    cases h with
    | nil => exact .nil
    | plain hc hs => exact ih hs fun c hmem => hk c (List.mem_cons_of_mem _ hmem)
    | escape hs => exact absurd rfl (hk _ List.mem_cons_self)

lemma ne_backslash_of_isHex {c : Char} (h : isHex c) : c ≠ '\\' := by
  rintro rfl
  exact absurd h (by decide)

lemma ne_backslash_of_isDigit {c : Char} (h : isDigit c) : c ≠ '\\' := by
  rintro rfl
  exact absurd h (by decide)

lemma take_hexDigits {s : Text} : s.take (hexDigits s).length = hexDigits s :=
  (List.prefix_iff_eq_take.mp ((List.takeWhile_prefix isHex).trans (List.take_prefix 2 s))).symm

lemma decimalDigits_spec {c : Char} {next digits : Text} (h : decimalDigits (c :: next) = some digits) :
    ∃ k, digits.length = k + 1 ∧ ∀ d ∈ next.take k, isDigit d := by
  have hall := List.find?_some h
  have hmem := List.mem_of_find?_eq_some h
  simp only [Bool.and_eq_true, List.all_eq_true] at hall
  have hk : ∃ k, digits = c :: next.take k := by
    rcases List.mem_cons.mp hmem with rfl | hmem
    · exact ⟨2, rfl⟩
    · rcases List.mem_cons.mp hmem with rfl | hmem
      · exact ⟨1, rfl⟩
      · exact ⟨0, List.mem_singleton.mp hmem⟩
  obtain ⟨k, rfl⟩ := hk
  refine ⟨(next.take k).length, rfl, fun d hd => hall.1.2 d (List.mem_cons_of_mem _ ?_)⟩
  rwa [← List.prefix_iff_eq_take.mp (List.take_prefix k next)] at hd

lemma documentedEscape_spec {c byte : Char} {next : Text} {taken : ℕ}
    (h : documentedEscape (c :: next) = some (byte, taken)) :
    ∃ k, taken = k + 1 ∧ ∀ d ∈ next.take k, d ≠ '\\' := by
  rw [documentedEscape] at h
  split at h
  · obtain ⟨_, rfl⟩ := Prod.mk.inj (Option.some.inj h)
    exact ⟨0, rfl, fun d hd => absurd hd List.not_mem_nil⟩
  · split_ifs at h
    · obtain ⟨_, rfl⟩ := Prod.mk.inj (Option.some.inj h)
      refine ⟨_, rfl, fun d hd => ?_⟩
      rw [take_hexDigits] at hd
      exact ne_backslash_of_isHex (List.mem_takeWhile_imp hd)
    · obtain ⟨digits, hdigits, heq⟩ := Option.map_eq_some_iff.mp h
      obtain ⟨_, rfl⟩ := Prod.mk.inj heq
      obtain ⟨k, hlen, hall⟩ := decimalDigits_spec hdigits
      exact ⟨k, hlen, fun d hd => ne_backslash_of_isDigit (hall d hd)⟩

lemma Escaped.step {c byte : Char} {next : Text} {taken : ℕ} (h : Escaped (c :: next))
    (hstep : documentedChar c next = .ok (byte, taken)) : Escaped (next.drop taken) := by
  cases h with
  | plain hc hs =>
    rw [documentedChar, if_neg hc] at hstep
    obtain ⟨_, rfl⟩ := Prod.mk.inj (Except.ok.inj hstep)
    exact hs
  | escape hs =>
    rw [documentedChar, if_pos rfl] at hstep
    split at hstep
    · rename_i piece hpiece
      obtain rfl : piece = (byte, taken) := Except.ok.inj hstep
      obtain ⟨k, rfl, hk⟩ := documentedEscape_spec hpiece
      exact hs.drop hk
    · cases hstep

lemma pushTokenString_eq {taken : ℕ} {s : Text} :
    pushTokenString taken s = (reading pushChar taken s).value := by
  induction s generalizing taken with
  | nil => cases taken <;> rfl
  | cons c rest ih =>
    cases taken with
    | succ taken => exact ih
    | zero =>
      rw [pushTokenString, reading]
      cases pushChar c rest with
      | error e => rfl
      | ok piece =>
        obtain ⟨byte, taken⟩ := piece
        simp only [bind, Except.bind, ih, Reading.value, Reading.cons]
        cases (reading pushChar taken rest).error <;> rfl

lemma reading_plain {s : Text} (h : '\\' ∉ s) : (reading documentedChar 0 s).value = .ok s := by
  induction s with
  | nil => rfl
  | cons c rest ih =>
    rw [List.mem_cons, not_or] at h
    have hstep : documentedChar c rest = .ok (c, 0) := by
      rw [documentedChar, if_neg (Ne.symm h.1)]
    have hrest := ih h.2
    rw [Reading.value] at hrest ⊢
    rw [reading, hstep]
    simp only [Reading.cons]
    split at hrest
    · rename_i herror
      have hpieces := Except.ok.inj hrest
      rw [List.map_cons, hpieces]
    · cases hrest

/-- The decoder reads a string token as the table says: the value is that of the table, and each byte is
read from the same characters. -/
def DecodedAsDocumented (δ : Type) [Strtod δ] (t : Token) : Prop :=
  pushToken (δ := δ) t = some ((reading documentedChar 0 t.text).value.map .string) ∧
    reading pushChar 0 t.text = reading documentedChar 0 t.text

/-- A quoted string is decoded as documented exactly when the table reads no hexadecimal escape of one
digit in it. -/
theorem quoted_documented_iff {δ : Type} [Strtod δ] {LS LS' : LexState} {quote : Char} {ptr : Text}
    (h : LS.parseString quote ptr = (true, LS')) :
    DecodedAsDocumented δ LS'.n ↔
      ∀ visit ∈ visits documentedChar 0 LS'.n.text, ¬ OneHexDigit visit.1 visit.2 := by
  rw [LexState.parseString] at h
  cases hend : stringEnd quote ptr with
  | none =>
    rw [hend] at h
    exact absurd (congrArg Prod.fst h) (by simp)
  | some piece =>
    obtain ⟨s, rest⟩ := piece
    rw [hend] at h
    obtain rfl : LS.token (if '\\' ∈ s then .escapeString else .string) ptr s rest = LS' :=
      congrArg Prod.snd h
    have hescaped : ∀ visit ∈ visits documentedChar 0 s, Escaped (visit.1 :: visit.2) :=
      visits_of_preserved Escaped.step (escaped_of_stringEnd hend)
    have hsteps : reading pushChar 0 s = reading documentedChar 0 s ↔
        ∀ visit ∈ visits documentedChar 0 s, ¬ OneHexDigit visit.1 visit.2 := by
      rw [reading_eq_iff]
      refine forall₂_congr fun visit hvisit => pushChar_eq_iff fun hback hnil => ?_
      have := hescaped visit hvisit
      rw [hback, hnil] at this
      cases this with
      | plain hne _ => exact hne rfl
    change DecodedAsDocumented δ _ ↔ ∀ visit ∈ visits documentedChar 0 s, _
    rw [← hsteps]
    refine ⟨fun h => h.2, fun heq => ⟨?_, heq⟩⟩
    by_cases hback : '\\' ∈ s
    · simp only [LexState.token, if_pos hback, pushToken]
      rw [pushTokenString_eq, heq]
    · simp only [LexState.token, if_neg hback, pushToken]
      rw [reading_plain hback]
      rfl

/-- A quoted string with a hexadecimal escape of two digits. -/
theorem quoted_documented_iff_letter :
    DecodedAsDocumented Int ⟨.escapeString, 1, "\\x41".toList⟩ ↔
      ∀ visit ∈ visits documentedChar 0 "\\x41".toList, ¬ OneHexDigit visit.1 visit.2 :=
  @quoted_documented_iff Int _ (LexState.init "\"\\x41\"".toList false) _ '"' "\\x41\"".toList rfl

/-- A hexadecimal escape of one digit at the end of a string is rejected. -/
theorem not_quoted_documented :
    ¬ ∀ (LS LS' : LexState) (quote : Char) (ptr : Text),
      LS.parseString quote ptr = (true, LS') → DecodedAsDocumented Int LS'.n := by
  intro h
  have hvalue := (h (LexState.init "\"\\x4\"".toList false) _ '"' "\\x4\"".toList rfl).1
  exact absurd hvalue (by decide +kernel)

end PulseEngine.Datalist
