import PulseEngine.Datalist.Escapes
import PulseEngine.Datalist.Serializer

/-!
# Quoting and reading back

The tokens of what `lquote` writes, and the value of the string among them.
-/

namespace PulseEngine.Datalist

/-- The tokens that `next_token` finds up to the end of the source. -/
inductive Tokens : LexState → List Token → Prop
  | eof {LS LS' : LexState} : nextToken LS = (true, LS') → LS'.n.type = .eof → Tokens LS []
  | token {LS LS' : LexState} {ts : List Token} :
    nextToken LS = (true, LS') → LS'.n.type ≠ .eof → Tokens LS' ts → Tokens LS (LS'.n :: ts)

lemma Tokens.unique {LS : LexState} {ts ts' : List Token} (h : Tokens LS ts) (h' : Tokens LS ts') :
    ts = ts' := by
  induction h generalizing ts' with
  | eof hnext heof =>
    cases h' with
    | eof => rfl
    | token hnext' hne _ =>
      obtain rfl := Prod.mk.inj (hnext.symm.trans hnext') |>.2
      exact absurd heof hne
  | token hnext hne _ ih =>
    cases h' with
    | eof hnext' heof =>
      obtain rfl := Prod.mk.inj (hnext.symm.trans hnext') |>.2
      exact absurd heof hne
    | token hnext' _ hrest =>
      obtain rfl := Prod.mk.inj (hnext.symm.trans hnext') |>.2
      rw [ih hrest]

def bytes (s : List UInt8) : Text := s.map fun b => Char.ofNat b.toNat

/-! ### Pieces of a quoted string -/

/-- What is written for a byte: behind the opening quote it does not end the string, and it is read as
the byte, whatever follows. -/
structure WrittenFor (c : Char) (piece : Text) : Prop where
  inside : ∀ rest, stringEnd '"' (piece ++ rest) =
    (stringEnd '"' rest).map fun (s, rest) => (piece ++ s, rest)
  decoded : ∀ rest, pushTokenString 0 (piece ++ rest) =
    (pushTokenString 0 rest).map fun s => c :: s

structure Plain (c : Char) : Prop where
  quote : c ≠ '"'
  back : c ≠ '\\'
  noBreak : isBreak c = false

lemma stringEnd_plain {c : Char} {rest : Text} (h : Plain c) :
    stringEnd '"' (c :: rest) = (stringEnd '"' rest).map fun (s, rest) => (c :: s, rest) := by
  rw [stringEnd.eq_def]
  simp only [if_neg h.quote, h.noBreak, if_neg h.back, Bool.false_eq_true, if_false]

lemma stringEnd_escape {c : Char} {rest : Text} :
    stringEnd '"' ('\\' :: c :: rest) =
      (stringEnd '"' rest).map fun (s, rest) => ('\\' :: c :: s, rest) := by
  rw [stringEnd, if_neg (by decide), if_neg (by decide), if_pos rfl]

lemma writtenFor_plain {c : Char} (h : Plain c) : WrittenFor c [c] where
  inside rest := stringEnd_plain h
  decoded rest := by
    have hstep : pushChar c rest = .ok (c, 0) := by rw [pushChar.eq_def, if_pos h.back]
    rw [List.singleton_append, pushTokenString, hstep]
    rfl

lemma writtenFor_escape {c escaped : Char} (h : ∀ next, parseEscape escaped next = .ok (c, 0)) :
    WrittenFor c ['\\', escaped] where
  inside rest := stringEnd_escape
  decoded rest := by
    have hstep : pushChar '\\' (escaped :: rest) = .ok (c, 1) := by
      rw [pushChar.eq_def, if_neg (not_not.mpr rfl)]
      simp only [h rest]
      rfl
    rw [List.cons_append, pushTokenString, List.cons_append, List.nil_append, hstep]
    rfl

lemma upperDigit (n : Fin 16) :
    toHex (Nat.digitChar n).toUpper = some n.val ∧ Plain (Nat.digitChar n).toUpper := by
  have hhex : ∀ n : Fin 16, toHex (Nat.digitChar n).toUpper = some n.val := by decide
  have hquote : ∀ n : Fin 16, (Nat.digitChar n).toUpper ≠ '"' := by decide
  have hback : ∀ n : Fin 16, (Nat.digitChar n).toUpper ≠ '\\' := by decide
  have hbreak : ∀ n : Fin 16, isBreak (Nat.digitChar n).toUpper = false := by decide
  exact ⟨hhex n, hquote n, hback n, hbreak n⟩

lemma writtenFor_hex {c : Char} (h : c.toNat < 256) : WrittenFor c (addHex c) := by
  obtain ⟨hhigh, highPlain⟩ := upperDigit ⟨c.toNat / 16, by omega⟩
  obtain ⟨hlow, lowPlain⟩ := upperDigit ⟨c.toNat % 16, by omega⟩
  have hchar : Char.ofNat (c.toNat / 16 * 16 + c.toNat % 16) = c := by
    rw [Nat.div_add_mod', Char.ofNat_toNat]
  constructor
  · intro rest
    simp only [addHex, List.cons_append, List.nil_append]
    rw [stringEnd_escape, stringEnd_plain highPlain, stringEnd_plain lowPlain]
    simp only [Option.map_map]
    rfl
  · intro rest
    have hstep : pushChar '\\' (addHex c ++ rest).tail = .ok (c, 3) := by
      simp only [addHex, List.cons_append, List.nil_append, List.tail_cons, pushChar, parseEscape,
        hexEscape, hhigh, hlow, hchar]
      rfl
    rw [addHex] at hstep ⊢
    simp only [List.cons_append, List.nil_append, List.tail_cons] at hstep ⊢
    rw [pushTokenString, hstep]
    rfl

lemma writtenFor_quoteByte {c : Char} (h : c.toNat < 256) : WrittenFor c (quoteByte c) := by
  rw [quoteByte]
  split_ifs with hcontrol h0 htab hline hreturn hquote hback hlarge
  · have hc : c = Char.ofNat 0 := by rw [← h0, Char.ofNat_toNat]
    exact writtenFor_escape fun next => by rw [hc]; rfl
  · exact writtenFor_escape fun next => by rw [htab]; rfl
  · exact writtenFor_escape fun next => by rw [hline]; rfl
  · exact writtenFor_escape fun next => by rw [hreturn]; rfl
  · exact writtenFor_hex h
  · exact writtenFor_escape fun next => by rw [hquote]; rfl
  · exact writtenFor_escape fun next => by rw [hback]; rfl
  · exact writtenFor_hex h
  · refine writtenFor_plain ⟨hquote, hback, ?_⟩
    simp only [isBreak, Bool.or_eq_false_iff, decide_eq_false_iff_not]
    constructor <;> rintro rfl <;> exact hcontrol (by decide)

lemma plain_of_large {c : Char} (h : 128 ≤ c.toNat) : Plain c := by
  refine ⟨?_, ?_, ?_⟩
  · rintro rfl
    exact absurd h (by decide)
  · rintro rfl
    exact absurd h (by decide)
  · simp only [isBreak, Bool.or_eq_false_iff, decide_eq_false_iff_not]
    constructor <;> rintro rfl <;> exact absurd h (by decide)

/-! ### Quoted strings -/

def Copying (copied : ℕ) (s : Text) : Prop := ∀ c ∈ s.take copied, 128 ≤ c.toNat

lemma copying_of_validUtf8 {c : Char} {rest : Text} :
    Copying (validUtf8 (c :: rest) - 1) rest := by
  have htrail : ∀ k, (rest.take k).all utf8Trail → Copying k rest := fun k hall d hd => by
    have := List.all_eq_true.mp hall d hd
    simp only [utf8Trail, Bool.and_eq_true, decide_eq_true_eq] at this
    exact this.1
  have hnone : Copying 0 rest := fun d hd => absurd hd List.not_mem_nil
  rw [validUtf8]
  split_ifs with h2 hall h3 hall h4 hall h1
  · exact htrail 1 hall.2
  · exact hnone
  · exact htrail 2 hall.2
  · exact hnone
  · exact htrail 3 hall.2
  · exact hnone
  · exact hnone
  · exact hnone

lemma quoteFrom_spec {copied : ℕ} {s : Text} (hs : ∀ c ∈ s, c.toNat < 256) (h : Copying copied s) :
    stringEnd '"' (quoteFrom copied s ++ ['"']) = some (quoteFrom copied s, []) ∧
      pushTokenString 0 (quoteFrom copied s) = .ok s := by
  induction s generalizing copied with
  | nil => cases copied <;> exact ⟨rfl, rfl⟩
  | cons c rest ih =>
    -- every byte is a piece in front of what is written for the others
    have hpiece : ∀ {copied' piece}, WrittenFor c piece → Copying copied' rest →
        quoteFrom copied (c :: rest) = piece ++ quoteFrom copied' rest →
        stringEnd '"' (quoteFrom copied (c :: rest) ++ ['"']) =
            some (quoteFrom copied (c :: rest), []) ∧
          pushTokenString 0 (quoteFrom copied (c :: rest)) = .ok (c :: rest) := by
      intro copied' piece written copying heq
      obtain ⟨hinside, hdecoded⟩ := ih (List.forall_mem_cons.mp hs).2 copying
      rw [heq, List.append_assoc, written.inside, written.decoded, hinside, hdecoded]
      exact ⟨rfl, rfl⟩
    cases copied with
    | succ copied =>
      have hc : 128 ≤ c.toNat := h c List.mem_cons_self
      exact hpiece (writtenFor_plain (plain_of_large hc))
        (fun d hd => h d (List.mem_cons_of_mem _ hd)) rfl
    | zero =>
      by_cases hcopy : 128 ≤ c.toNat ∧ validUtf8 (c :: rest) ≠ 0
      · exact hpiece (writtenFor_plain (plain_of_large hcopy.1)) copying_of_validUtf8
          (by rw [quoteFrom, if_pos hcopy]; rfl)
      · have hnone : Copying 0 rest := fun d hd => absurd hd List.not_mem_nil
        refine hpiece (writtenFor_quoteByte (hs c List.mem_cons_self)) hnone ?_
        rw [quoteFrom, if_neg hcopy]

lemma pushTokenString_plain {s : Text} (h : '\\' ∉ s) : pushTokenString 0 s = .ok s := by
  induction s with
  | nil => rfl
  | cons c rest ih =>
    rw [List.mem_cons, not_or] at h
    have hstep : pushChar c rest = .ok (c, 0) := by rw [pushChar.eq_def, if_pos (Ne.symm h.1)]
    rw [pushTokenString, hstep]
    simp only [bind, Except.bind, ih h.2]
    rfl

lemma tokens_of_string {s : Text} {aslist : Bool} (h : stringEnd '"' (s ++ ['"']) = some (s, [])) :
    Tokens (LexState.init ('"' :: s ++ ['"']) aslist)
      [⟨.newline, 0, []⟩, ⟨if '\\' ∈ s then .escapeString else .string, 1, s⟩] := by
  let LS := LexState.init ('"' :: s ++ ['"']) aslist
  let LS₁ := { LS with newline := false, n := ⟨.newline, 0, []⟩ }
  let string : Token := ⟨if '\\' ∈ s then .escapeString else .string, 1, s⟩
  let LS₂ := { LS₁ with n := string, rest := [] }
  have hline : nextToken LS = (true, LS₁) := by
    simp only [nextToken, LS, LexState.init, if_true, List.cons_append]
    rw [nextTokenFrom, if_neg (by decide), if_neg (by decide), if_neg (by decide)]
    simp [LS₁, LS, LexState.init, LexState.token, LexState.position]
  have hstring : nextToken LS₁ = (true, LS₂) := by
    simp only [nextToken, LS₁, LS, LexState.init, Bool.false_eq_true, if_false, List.cons_append]
    rw [nextTokenFrom]
    simp [isBreak, isBlank, LexState.parseString, h, LexState.token, LexState.position, LS₂, LS₁, LS,
      LexState.init, string]
  have heof : nextToken LS₂ = (true, LS₂.eof) := rfl
  refine .token hline (by rintro ⟨⟩) (.token hstring ?_ (.eof heof rfl))
  change (if '\\' ∈ s then TokenType.escapeString else .string) ≠ .eof
  split_ifs <;> decide

/-- Every byte string is read back from what `lquote` writes for it: behind the head of the line there is
one token, a string with these bytes. -/
theorem lquote_roundtrip {δ : Type} [Strtod δ] (s : List UInt8) (aslist : Bool) :
    ∃ t, (∀ ts, Tokens (LexState.init (lquote (bytes s)) aslist) ts ↔ ts = [⟨.newline, 0, []⟩, t]) ∧
      (t.type = .string ∨ t.type = .escapeString) ∧
      pushToken (δ := δ) t = some (.ok (.string (bytes s))) := by
  have hs : ∀ c ∈ bytes s, c.toNat < 256 := by
    intro c hc
    obtain ⟨b, -, rfl⟩ := List.mem_map.mp hc
    have hb := b.toNat_lt
    have hvalid : b.toNat.isValidChar := .inl (by omega)
    rw [Char.ofNat, dif_pos hvalid]
    exact hb
  have hnone : Copying 0 (bytes s) := fun d hd => absurd hd List.not_mem_nil
  obtain ⟨hinside, hdecoded⟩ := quoteFrom_spec hs hnone
  have htokens := @tokens_of_string _ aslist hinside
  refine ⟨_, fun ts => ⟨fun h => h.unique htokens, fun h => h ▸ htokens⟩, ?_⟩
  by_cases hback : '\\' ∈ quoteFrom 0 (bytes s)
  · simp only [if_pos hback, pushToken, hdecoded]
    exact ⟨.inr trivial, rfl⟩
  · simp only [if_neg hback, pushToken]
    rw [pushTokenString_plain hback] at hdecoded
    exact ⟨.inl trivial, by rw [Except.ok.inj hdecoded]⟩

end PulseEngine.Datalist
