import PulseEngine.Text.Segments

/-!
# Markup and characters

What a text is to a reader: its characters, with the tags taken out and the colors that they set. A well-formed
text is parsed to this, unless what is between two brackets is so long that its length is taken for that of a
tag.
-/

namespace PulseEngine.Text

variable {F : Type} {channel : ℕ → ℕ → F} {default cur : TextColor F} {lengthOf : ℕ → ℕ}
  {text rest : List UInt8} {b c : UInt8}

def hexOf (c : Char) : Option ℕ :=
  if '0' ≤ c ∧ c ≤ '9' then some (c.toNat - '0'.toNat)
  else if 'a' ≤ c ∧ c ≤ 'f' then some (c.toNat - 'a'.toNat + 10)
  else if 'A' ≤ c ∧ c ≤ 'F' then some (c.toNat - 'A'.toNat + 10)
  else none

inductive Piece
  | tag (tag : Tag)
  | char (c : Char)

def pieceAt (c : Char) (rest : List Char) : Piece × ℕ :=
  if c = '[' ∧ rest.take 2 = ['/', ']'] then (.tag .reset, 2)
  else if c = '[' ∧ rest[6]? = some ']' then
    match (rest.take 6).mapM hexOf with
    | some digits => (.tag (.color digits), 7)
    | none => (.char c, 0)
  else (.char c, 0)

def piecesFrom : ℕ → List Char → List Piece
  | _, [] => []
  | taken + 1, _ :: rest => piecesFrom taken rest
  | 0, c :: rest => (pieceAt c rest).1 :: piecesFrom (pieceAt c rest).2 rest

def coloredPieces (channel : ℕ → ℕ → F) (default : TextColor F) : TextColor F → List Piece → List (TextItem F)
  | _, [] => []
  | _, .tag tag :: rest => coloredPieces channel default (tag.apply channel default) rest
  | cur, .char c :: rest =>
    (if isControl c.toNat then [] else [⟨c.toNat, cur⟩]) ++ coloredPieces channel default cur rest

def encode (chars : List Char) : List UInt8 := chars.flatMap String.utf8EncodeChar

def itemsOf (channel : ℕ → ℕ → F) (default : TextColor F) (chars : List Char) : List (TextItem F) :=
  coloredPieces channel default default (piecesFrom 0 chars)

/-- **The claim**: the loop ends without a read behind the NUL, a well-formed text gives the items that its
characters stand for, and every item comes from a byte and some that continue it. -/
def ParsesRight (channel : ℕ → ℕ → F) (default : TextColor F) (text : List UInt8) : Prop :=
  ∃ items, (∀ fuel > text.length, parseText channel default fuel (text ++ [0]) = some items) ∧
    (∀ chars, text = encode chars → items = itemsOf channel default chars) ∧
      ∃ parts : List Segment, parts.flatMap Segment.bytes = text ∧
        items = coloredFrom channel default default parts ∧
          ∀ lead tail, .sequence lead tail ∈ parts → ∀ b ∈ tail, isTail b

def WrappedTag (text : List UInt8) : Prop :=
  ∃ before body behind, text = before ++ openByte :: (body ++ closeByte :: behind) ∧
    (∀ b ∈ body, b ≠ closeByte ∧ b ≠ openByte) ∧ 2 ^ 32 ≤ body.length ∧
      tagOf (narrowLength body.length) body ≠ none

lemma isTail_iff (b : UInt8) : isTail b = true ↔ 0x80 ≤ b.toNat ∧ b.toNat < 0xC0 := by
  have all : ∀ n < 256, isTail (UInt8.ofNat n) = true ↔ 0x80 ≤ n ∧ n < 0xC0 := by decide +kernel
  have h := all b.toNat b.toNat_lt
  rwa [UInt8.ofNat_toNat] at h

lemma addTail_eq {code n : ℕ} (h : n < 64) : addTail code (UInt8.ofNat (n + 0x80)) = code * 64 + n := by
  have low : ∀ n < 64, (UInt8.ofNat (n + 0x80) &&& 0x3F).toNat = n := by decide
  rw [addTail, low n h, ← Nat.shiftLeft_add_eq_or_of_lt h, Nat.shiftLeft_eq]

lemma lead_spec : (∀ n < 128, extraBytes (UInt8.ofNat n) = 0 ∧ leadBits (UInt8.ofNat n) = n) ∧
    (∀ n < 32, extraBytes (UInt8.ofNat (n + 0xC0)) = 1 ∧ leadBits (UInt8.ofNat (n + 0xC0)) = n) ∧
      (∀ n < 16, extraBytes (UInt8.ofNat (n + 0xE0)) = 2 ∧ leadBits (UInt8.ofNat (n + 0xE0)) = n) ∧
        ∀ n < 8, extraBytes (UInt8.ofNat (n + 0xF0)) = 3 ∧ leadBits (UInt8.ofNat (n + 0xF0)) = n := by
  decide +kernel

/-- **The bytes of a character**: the first one asks for the others, which continue it, and all of them give the
character. -/
lemma utf8EncodeChar_spec (c : Char) : ∃ lead tail, String.utf8EncodeChar c = lead :: tail ∧
    tail.length = extraBytes lead ∧ (∀ b ∈ tail, isTail b) ∧ Segment.code lead tail = c.toNat ∧
      (c.toNat < 0x80 → lead = UInt8.ofNat c.toNat) ∧ (0x80 ≤ c.toNat → 0x80 ≤ lead.toNat) := by
  have hlt : c.val.toNat < 0x110000 := by
    rcases c.valid with h | ⟨-, h⟩
    · exact lt_trans h (by decide)
    · exact h
  have tails : ∀ n, isTail (UInt8.ofNat (n % 0x40 + 0x80)) = true := by
    intro n
    rw [isTail_iff, UInt8.toNat_ofNat']
    omega
  have low : ∀ code n, addTail code (UInt8.ofNat (n % 0x40 + 0x80)) = code * 64 + n % 0x40 :=
    fun code n => addTail_eq (Nat.mod_lt _ (by decide))
  obtain ⟨one, two, three, four⟩ := lead_spec
  have htoNat : c.toNat = c.val.toNat := rfl
  rw [String.utf8EncodeChar, htoNat]
  generalize c.val.toNat = v at hlt
  split
  next h =>
    obtain ⟨extra, bits⟩ := one v (by omega)
    exact ⟨_, _, rfl, extra.symm, nofun, bits, fun _ => rfl, fun h' => absurd h' (by omega)⟩
  next h =>
    split
    next h' =>
      obtain ⟨extra, bits⟩ := two (v / 64 % 0x20) (Nat.mod_lt _ (by decide))
      refine ⟨_, _, rfl, extra.symm, ?_, ?_, fun hsmall => absurd hsmall (by omega), fun _ => ?_⟩
      · simp only [List.forall_mem_cons, tails, List.not_mem_nil, false_implies, implies_true, and_self]
      · rw [Segment.code, bits]
        simp only [List.foldl_cons, List.foldl_nil, low]
        omega
      · rw [UInt8.toNat_ofNat']
        omega
    next h' =>
      split
      next h'' =>
        obtain ⟨extra, bits⟩ := three (v / 4096 % 0x10) (Nat.mod_lt _ (by decide))
        refine ⟨_, _, rfl, extra.symm, ?_, ?_, fun hsmall => absurd hsmall (by omega), fun _ => ?_⟩
        · simp only [List.forall_mem_cons, tails, List.not_mem_nil, false_implies, implies_true, and_self]
        · rw [Segment.code, bits]
          simp only [List.foldl_cons, List.foldl_nil, low]
          omega
        · rw [UInt8.toNat_ofNat']
          omega
      next h'' =>
        obtain ⟨extra, bits⟩ := four (v / 262144 % 0x08) (Nat.mod_lt _ (by decide))
        refine ⟨_, _, rfl, extra.symm, ?_, ?_, fun hsmall => absurd hsmall (by omega), fun _ => ?_⟩
        · simp only [List.forall_mem_cons, tails, List.not_mem_nil, false_implies, implies_true, and_self]
        · rw [Segment.code, bits]
          simp only [List.foldl_cons, List.foldl_nil, low]
          omega
        · rw [UInt8.toNat_ofNat']
          omega

structure SameAscii (b : UInt8) (c : Char) : Prop where
  same : c.toNat = b.toNat
  ascii : b.toNat < 0x80

lemma encode_cons (c : Char) (chars : List Char) :
    encode (c :: chars) = String.utf8EncodeChar c ++ encode chars :=
  List.flatMap_cons

lemma encode_append_ascii {bytes : List UInt8} {chars : List Char} (h : List.Forall₂ SameAscii bytes chars)
    (later : List Char) : encode (chars ++ later) = bytes ++ encode later := by
  induction h with
  | nil => rfl
  | @cons b c bytes chars hbc _ ih =>
    obtain ⟨lead, tail, heq, hlen, -, -, hsmall, -⟩ := utf8EncodeChar_spec c
    have hlead : lead = b := by
      rw [hsmall (hbc.same ▸ hbc.ascii), hbc.same, UInt8.ofNat_toNat]
    have hextra : extraBytes lead = 0 := by
      have := lead_spec.1 b.toNat hbc.ascii
      rw [hlead, ← UInt8.ofNat_toNat (x := b), this.1]
    have htail : tail = [] := List.length_eq_zero_iff.mp (hlen.trans hextra)
    rw [List.cons_append, encode_cons, heq, hlead, htail, ih]
    rfl

lemma ascii_of_encode {bytes : List UInt8} (hascii : ∀ b ∈ bytes, b.toNat < 0x80) {chars : List Char}
    {behind : List UInt8} (h : encode chars = bytes ++ behind) :
    ∃ front later, chars = front ++ later ∧ List.Forall₂ SameAscii bytes front ∧ encode later = behind := by
  induction bytes generalizing chars with
  | nil => exact ⟨[], chars, rfl, .nil, h⟩
  | cons b bytes ih =>
    obtain ⟨hb, hbytes⟩ := List.forall_mem_cons.mp hascii
    cases chars with
    | nil => exact nomatch h
    | cons c chars =>
      obtain ⟨lead, tail, heq, hlen, -, -, hsmall, hlarge⟩ := utf8EncodeChar_spec c
      rw [encode_cons, heq, List.cons_append, List.cons_append] at h
      obtain ⟨rfl, hrest⟩ := List.cons.inj h
      have hc : c.toNat < 0x80 := by
        by_contra hno
        exact absurd (hlarge (Nat.le_of_not_lt hno)) (Nat.not_le.mpr hb)
      have hsame : c.toNat = lead.toNat := by
        rw [hsmall hc, UInt8.toNat_ofNat', Nat.mod_eq_of_lt (by omega)]
      have hextra : extraBytes lead = 0 := by
        rw [hsmall hc]
        exact (lead_spec.1 c.toNat hc).1
      have htail : tail = [] := List.length_eq_zero_iff.mp (hlen.trans hextra)
      rw [htail, List.nil_append] at hrest
      obtain ⟨front, later, rfl, hfront, hlater⟩ := ih hbytes hrest
      exact ⟨c :: front, later, rfl, .cons ⟨hsame, hb⟩ hfront, hlater⟩

lemma SameAscii.hexOf_eq {c : Char} (h : SameAscii b c) :
    hexOf c = if hexDigit b = 0xFF then none else some (hexDigit b) := by
  have all : ∀ n < 128, hexOf (Char.ofNat n) =
      if hexDigit (UInt8.ofNat n) = 0xFF then none else some (hexDigit (UInt8.ofNat n)) := by decide +kernel
  have := all b.toNat h.ascii
  rwa [UInt8.ofNat_toNat, ← h.same, Char.ofNat_toNat] at this

def Unbracketed (body : List UInt8) : Prop := ∀ b ∈ body, b ≠ closeByte ∧ b ≠ openByte

lemma bodyOf_unbracketed (rest : List UInt8) : Unbracketed (bodyOf rest) := by
  intro b hb
  simpa using List.mem_takeWhile_imp hb

lemma bodyOf_closed {body behind : List UInt8} (h : Unbracketed body) :
    bodyOf (body ++ closeByte :: behind) = body := by
  rw [bodyOf, List.takeWhile_append_of_pos fun b hb => decide_eq_true (h b hb),
    List.takeWhile_cons_of_neg (by simp), List.append_nil]

lemma hexDigit_ascii (h : hexDigit b ≠ 0xFF) :
    b.toNat < 0x80 ∧ b ≠ closeByte ∧ b ≠ openByte ∧ b ≠ 0x2F := by
  have all : ∀ n < 256, hexDigit (UInt8.ofNat n) ≠ 0xFF →
      (UInt8.ofNat n).toNat < 0x80 ∧ UInt8.ofNat n ≠ closeByte ∧ UInt8.ofNat n ≠ openByte ∧
        UInt8.ofNat n ≠ 0x2F := by decide +kernel
  have := all b.toNat b.toNat_lt
  rw [UInt8.ofNat_toNat] at this
  exact this h

lemma mapM_hexOf {bytes : List UInt8} {chars : List Char} (h : List.Forall₂ SameAscii bytes chars) :
    chars.mapM hexOf = if 0xFF ∈ bytes.map hexDigit then none else some (bytes.map hexDigit) := by
  induction h with
  | nil => rfl
  | @cons b c bytes chars hbc _ ih =>
    rw [List.mapM_cons, ih, hbc.hexOf_eq, List.map_cons]
    by_cases hdigit : hexDigit b = 0xFF
    · rw [if_pos hdigit, if_pos (List.mem_cons.mpr (.inl hdigit.symm))]
      rfl
    · rw [if_neg hdigit]
      by_cases hrest : 0xFF ∈ bytes.map hexDigit
      · rw [if_pos hrest, if_pos (List.mem_cons_of_mem _ hrest)]
        rfl
      · rw [if_neg hrest, if_neg (fun h => (List.mem_cons.mp h).elim (fun h => hdigit h.symm) hrest)]
        rfl

lemma tagOf_cases {body : List UInt8} {tag : Tag} (h : tagOf body.length body = some tag) :
    body = [0x2F] ∧ tag = .reset ∨
      body.length = 6 ∧ 0xFF ∉ body.map hexDigit ∧ tag = .color (body.map hexDigit) := by
  rw [tagOf] at h
  split at h
  next hone =>
    split at h
    next hhead =>
      obtain ⟨b, rfl⟩ := List.length_eq_one_iff.mp hone
      rw [List.head?_cons, Option.some_inj] at hhead
      rw [hhead]
      exact .inl ⟨rfl, (Option.some.inj h).symm⟩
    next => cases h
  next =>
    split at h
    next hsix =>
      rw [List.take_of_length_le hsix.le, colorTag] at h
      split at h
      next => cases h
      next hdigits => exact .inr ⟨hsix, hdigits, (Option.some.inj h).symm⟩
    next => cases h

lemma SameAscii.eq_ofNat {c : Char} (h : SameAscii b c) : c = Char.ofNat b.toNat := by
  rw [← h.same, Char.ofNat_toNat]

lemma pieceAt_of_tag {chars : List Char} {body behind : List UInt8} {tag : Tag}
    (h : encode chars = body ++ closeByte :: behind) (htag : tagOf body.length body = some tag) :
    pieceAt '[' chars = (.tag tag, body.length + 1) ∧ encode (chars.drop (body.length + 1)) = behind := by
  have hascii : ∀ b ∈ body, b.toNat < 0x80 := by
    obtain ⟨rfl, -⟩ | ⟨-, hdigits, -⟩ := tagOf_cases htag
    · exact List.forall_mem_singleton.mpr (by decide)
    · intro b hb
      exact (hexDigit_ascii fun hno => hdigits (hno ▸ List.mem_map_of_mem hb)).1
  obtain ⟨front, later, rfl, hfront, hlater⟩ := ascii_of_encode hascii h
  obtain ⟨last, later, rfl, hlast, hbehind⟩ :=
    ascii_of_encode (List.forall_mem_singleton.mpr (by decide : closeByte.toNat < 0x80)) hlater
  obtain ⟨close, _, hclose, hnil, rfl⟩ := List.forall₂_cons_left_iff.mp hlast
  obtain rfl := List.forall₂_nil_left_iff.mp hnil
  obtain rfl : close = ']' := hclose.eq_ofNat
  have hlen : front.length = body.length := hfront.length_eq.symm
  have hdrop : (front ++ (']' :: later)).drop (body.length + 1) = later := by
    rw [List.drop_append, List.drop_of_length_le (by omega), hlen, Nat.add_sub_cancel_left]
    rfl
  refine ⟨?_, by rw [List.singleton_append, hdrop, hbehind]⟩
  obtain ⟨rfl, rfl⟩ | ⟨hsix, hdigits, rfl⟩ := tagOf_cases htag
  · obtain ⟨slash, _, hslash, hnil, rfl⟩ := List.forall₂_cons_left_iff.mp hfront
    obtain rfl := List.forall₂_nil_left_iff.mp hnil
    obtain rfl : slash = '/' := hslash.eq_ofNat
    rfl
  · have hslash : (front ++ (']' :: later)).take 2 ≠ ['/', ']'] := by
      match body, hsix with
      | b :: body, _ =>
        obtain ⟨c, rest, hc, -, rfl⟩ := List.forall₂_cons_left_iff.mp hfront
        intro hno
        have hhead : c = '/' := (List.cons.inj hno).1
        have hb : b = 0x2F := UInt8.toNat_inj.mp (hc.same ▸ hhead ▸ rfl)
        exact hdigits (List.mem_map.mpr ⟨b, List.mem_cons_self, hb ▸ rfl⟩)
    rw [List.singleton_append, pieceAt, if_neg fun h => hslash h.2, hsix,
      if_pos ⟨rfl, by rw [List.getElem?_append_right (by omega)]; simp [hlen, hsix]⟩,
      List.take_append_of_le_length (by omega), List.take_of_length_le (by omega),
      mapM_hexOf hfront, if_neg hdigits]

lemma hexOf_of_mapM {chars : List Char} {digits : List ℕ} (h : chars.mapM hexOf = some digits) :
    ∀ c ∈ chars, hexOf c ≠ none := by
  induction chars generalizing digits with
  | nil => exact nofun
  | cons c chars ih =>
    rw [List.mapM_cons] at h
    obtain ⟨digit, hdigit, h⟩ := Option.bind_eq_some_iff.mp h
    obtain ⟨later, hlater, -⟩ := Option.bind_eq_some_iff.mp h
    exact List.forall_mem_cons.mpr ⟨fun hno => Option.some_ne_none _ (hdigit.symm.trans hno), ih hlater⟩

lemma hexOf_ascii {c : Char} (h : hexOf c ≠ none) : c.toNat < 0x80 := by
  have hle : ∀ d : Char, c ≤ d → c.toNat ≤ d.toNat := fun d hd => hd
  rw [hexOf] at h
  split at h
  next hc => exact lt_of_le_of_lt (hle _ hc.2) (by decide)
  next =>
    split at h
    next hc => exact lt_of_le_of_lt (hle _ hc.2) (by decide)
    next =>
      split at h
      next hc => exact lt_of_le_of_lt (hle _ hc.2) (by decide)
      next => exact absurd rfl h

lemma sameAscii_map {chars : List Char} (h : ∀ c ∈ chars, c.toNat < 0x80) :
    List.Forall₂ SameAscii (chars.map fun c => UInt8.ofNat c.toNat) chars := by
  induction chars with
  | nil => exact .nil
  | cons c chars ih =>
    obtain ⟨hc, hchars⟩ := List.forall_mem_cons.mp h
    have hbyte : (UInt8.ofNat c.toNat).toNat = c.toNat := by
      rw [UInt8.toNat_ofNat', Nat.mod_eq_of_lt (by omega)]
    exact .cons ⟨hbyte.symm, hbyte ▸ hc⟩ (ih hchars)

lemma tag_of_pieceAt {chars : List Char} {tag : Tag} (h : (pieceAt '[' chars).1 = .tag tag) :
    ∃ body behind, encode chars = body ++ closeByte :: behind ∧ Unbracketed body ∧
      tagOf body.length body = some tag := by
  rw [pieceAt] at h
  split at h
  next hslash =>
    obtain ⟨later, rfl⟩ : ∃ later, chars = ['/', ']'] ++ later :=
      ⟨chars.drop 2, by rw [← hslash.2, List.take_append_drop]⟩
    obtain rfl := Piece.tag.inj h
    exact ⟨[0x2F], encode later, rfl, by simp [Unbracketed, closeByte, openByte], rfl⟩
  next =>
    split at h
    next hclose =>
      split at h
      next digits hdigits =>
        obtain rfl := Piece.tag.inj h
        have hlong : 6 < chars.length := (List.getElem?_eq_some_iff.mp hclose.2).1
        have hchars : chars = chars.take 6 ++ (']' :: chars.drop 7) := by
          conv_lhs => rw [← List.take_append_drop 6 chars, List.drop_eq_getElem?_toList_append, hclose.2]
          rfl
        have hsame := sameAscii_map fun c hc => hexOf_ascii (hexOf_of_mapM hdigits c hc)
        generalize (chars.take 6).map (fun c => UInt8.ofNat c.toNat) = body at hsame
        have hsix : body.length = 6 := by
          rw [hsame.length_eq, List.length_take]
          omega
        rw [mapM_hexOf hsame] at hdigits
        split at hdigits
        next => cases hdigits
        next hall =>
          obtain rfl := Option.some.inj hdigits
          refine ⟨body, encode (chars.drop 7), ?_, fun b hb => ?_, ?_⟩
          · conv_lhs => rw [hchars, encode_append_ascii hsame]
            rfl
          · have hb' : hexDigit b ≠ 0xFF := fun hno => hall (hno ▸ List.mem_map_of_mem hb)
            exact ⟨(hexDigit_ascii hb').2.1, (hexDigit_ascii hb').2.2.1⟩
          · rw [tagOf, hsix, if_neg (by decide), if_pos rfl, List.take_of_length_le hsix.le, colorTag,
              if_neg hall]
      next => cases h
    next => cases h

lemma piecesFrom_eq (taken : ℕ) (chars : List Char) : piecesFrom taken chars = piecesFrom 0 (chars.drop taken) := by
  induction chars generalizing taken with
  | nil => rw [List.drop_nil]; cases taken <;> rfl
  | cons c rest ih =>
    cases taken with
    | zero => rfl
    | succ taken => exact ih taken

lemma piecesFrom_cons (c : Char) (rest : List Char) : piecesFrom 0 (c :: rest) =
    (pieceAt c rest).1 :: piecesFrom 0 (rest.drop (pieceAt c rest).2) := by
  rw [piecesFrom, piecesFrom_eq]

lemma pieceAt_cases (c : Char) (rest : List Char) :
    (∃ tag, c = '[' ∧ (pieceAt c rest).1 = .tag tag) ∨ pieceAt c rest = (.char c, 0) := by
  rw [pieceAt]
  split
  next hslash => exact .inl ⟨.reset, hslash.1, rfl⟩
  next =>
    split
    next hclose =>
      split
      next digits hdigits => exact .inl ⟨.color digits, hclose.1, rfl⟩
      next => exact .inr rfl
    next => exact .inr rfl

lemma utf8EncodeChar_open {c : Char} {lead : UInt8} {tail : List UInt8}
    (h : String.utf8EncodeChar c = lead :: tail) : lead = openByte ↔ c = '[' := by
  obtain ⟨lead', tail', heq, -, -, -, hsmall, hlarge⟩ := utf8EncodeChar_spec c
  obtain ⟨rfl, rfl⟩ := List.cons.inj (h.symm.trans heq)
  constructor
  · intro hlead
    have hc : c.toNat < 0x80 := by
      by_contra hno
      exact absurd (hlarge (Nat.le_of_not_lt hno)) (by rw [hlead]; decide)
    have hsame : SameAscii openByte c :=
      ⟨by rw [← hlead, hsmall hc, UInt8.toNat_ofNat', Nat.mod_eq_of_lt (by omega)], by decide⟩
    exact hsame.eq_ofNat
  · rintro rfl
    exact hsmall (by decide)

/-- **Characters and bytes**: the segments of a text are the pieces of its characters. -/
lemma coloredFrom_encode (chars : List Char) : coloredFrom channel default cur (segments id (encode chars)) =
    coloredPieces channel default cur (piecesFrom 0 chars) := by
  induction hn : chars.length using Nat.strong_induction_on generalizing chars cur with
  | h n ih =>
    subst hn
    cases chars with
    | nil => rfl
    | cons c chars =>
      obtain ⟨lead, tail, heq, hlen, htail, hcode, -, -⟩ := utf8EncodeChar_spec c
      have hbracket := utf8EncodeChar_open heq
      rw [encode_cons, heq, List.cons_append, segments_cons, piecesFrom_cons]
      obtain ⟨tag, hlead, hseg, hbytes, htag⟩ | ⟨tail', hseg, htail', hno⟩ :=
        segmentAt_cases id lead (tail ++ encode chars)
      · obtain rfl : tail = [] := List.length_eq_zero_iff.mp (hlen.trans (by rw [hlead]; rfl))
        rw [List.nil_append] at hseg hbytes htag ⊢
        obtain ⟨hpiece, hlater⟩ := pieceAt_of_tag hbytes htag
        rw [hseg, hbracket.mp hlead, hpiece, coloredFrom, coloredPieces, ← ih _ (by simp) _ rfl, hlater]
        simp [Segment.bytes]
      · have hpiece : pieceAt c chars = (.char c, 0) := by
          refine (pieceAt_cases c chars).resolve_left ?_
          rintro ⟨tag, rfl, hpiece⟩
          obtain rfl := hbracket.mpr rfl
          obtain rfl : tail = [] := List.length_eq_zero_iff.mp (hlen.trans rfl)
          obtain ⟨body, behind, hbytes, hbody, htag⟩ := tag_of_pieceAt hpiece
          rw [List.nil_append, hbytes, bodyOf_closed hbody] at hno
          cases htag.symm.trans (hno rfl (by simp))
        have htail : tail' = tail := by
          rw [htail']
          split
          next hlead => exact (List.length_eq_zero_iff.mp (hlen.trans (by rw [hlead]; rfl))).symm
          next => rw [← hlen, List.take_left, List.takeWhile_eq_self_iff.mpr htail]
        have hlater : (tail ++ encode chars).drop ((Segment.sequence lead tail).bytes.length - 1) =
            encode chars := List.drop_left
        rw [hseg, hpiece, htail, coloredFrom, coloredPieces, hcode, hlater, List.drop_zero,
          ih _ (by simp) chars rfl]

def itemCount : List Segment → ℕ
  | [] => 0
  | .tag _ _ :: rest => itemCount rest
  | .sequence lead tail :: rest => (if isControl (Segment.code lead tail) then 0 else 1) + itemCount rest

lemma coloredFrom_length (parts : List Segment) :
    (coloredFrom channel default cur parts).length = itemCount parts := by
  induction parts generalizing cur with
  | nil => rfl
  | cons part parts ih =>
    cases part with
    | tag tag body => rw [coloredFrom, itemCount, ih]
    | sequence lead tail =>
      rw [coloredFrom, itemCount, List.length_append, ih]
      split <;> rfl

lemma itemCount_append (front parts : List Segment) :
    itemCount (front ++ parts) = itemCount front + itemCount parts := by
  induction front with
  | nil => rw [List.nil_append, itemCount, Nat.zero_add]
  | cons part front ih =>
    cases part with
    | tag tag body => exact ih
    | sequence lead tail => rw [List.cons_append, itemCount, ih, itemCount, Nat.add_assoc]

lemma itemCount_cons (part : Segment) (parts : List Segment) :
    itemCount (part :: parts) = itemCount [part] + itemCount parts :=
  itemCount_append [part] parts

lemma tagOf_narrow (body : List UInt8) : tagOf (narrowLength body.length) body = tagOf body.length body ∨
    2 ^ 32 ≤ body.length ∧ tagOf body.length body = none := by
  by_cases hlong : body.length < 2 ^ 32
  · exact .inl (by rw [narrowLength, Nat.mod_eq_of_lt hlong])
  · exact .inr ⟨Nat.le_of_not_lt hlong, by rw [tagOf, if_neg (by omega), if_neg (by omega)]⟩

lemma segmentAt_narrow (b : UInt8) (rest : List UInt8) :
    segmentAt narrowLength b rest = segmentAt id b rest ∨ b = openByte ∧ 2 ^ 32 ≤ (bodyOf rest).length ∧
      segmentAt id b rest = .sequence openByte [] ∧ ∃ tag, segmentAt narrowLength b rest = .tag tag (bodyOf rest) ∧
        rest = bodyOf rest ++ closeByte :: rest.drop ((bodyOf rest).length + 1) ∧
          tagOf (narrowLength (bodyOf rest).length) (bodyOf rest) = some tag := by
  rcases tagOf_narrow (bodyOf rest) with heq | ⟨hlong, hnone⟩
  · left
    rw [segmentAt, segmentAt, heq, id]
  · obtain ⟨tag, hb, hseg, hrest, htag⟩ | ⟨tail, hseg, htail, -⟩ := segmentAt_cases narrowLength b rest
    · refine .inr ⟨hb, hlong, ?_, tag, hseg, hrest, htag⟩
      rw [segmentAt, if_pos hb, id, hnone, ite_self]
    · left
      rw [hseg, segmentAt, htail]
      split
      next hb => rw [id, hnone, ite_self, hb]
      next => rfl

lemma segmentAt_noOpen (lengthOf : ℕ → ℕ) (b : UInt8) (rest : List UInt8) :
    ∀ c ∈ (segmentAt lengthOf b rest).bytes.tail, c ≠ openByte := by
  obtain ⟨tag, hb, hseg, -, -⟩ | ⟨tail, hseg, htail, -⟩ := segmentAt_cases lengthOf b rest
  · rw [hseg]
    intro c hc
    rw [Segment.bytes, List.cons_append, List.tail_cons, List.mem_append, List.mem_singleton] at hc
    rcases hc with hc | rfl
    · exact (bodyOf_unbracketed rest c hc).2
    · decide
  · rw [hseg, Segment.bytes, List.tail_cons, htail]
    rintro c hc rfl
    split at hc
    next => cases hc
    next => exact absurd (List.mem_takeWhile_imp hc) (by decide)

lemma segments_unbracketed (lengthOf : ℕ → ℕ) {body : List UInt8} (behind : List UInt8) (hbody : Unbracketed body) :
    ∃ front, segments lengthOf (body ++ closeByte :: behind) = front ++ segments lengthOf behind := by
  induction hn : body.length using Nat.strong_induction_on generalizing body with
  | h n ih =>
    subst hn
    match body with
    | [] =>
      have hseg : segmentAt lengthOf closeByte behind = .sequence closeByte [] := by
        rw [segmentAt, if_neg (by decide)]
        rfl
      exact ⟨[.sequence closeByte []], by rw [List.nil_append, segments_cons, hseg]; rfl⟩
    | b :: body =>
      obtain ⟨hb, hlater⟩ := List.forall_mem_cons.mp hbody
      rw [List.cons_append, segments_cons]
      obtain ⟨tag, hopen, -⟩ | ⟨tail, hseg, htail, -⟩ :=
        segmentAt_cases lengthOf b (body ++ closeByte :: behind)
      · exact absurd hopen hb.2
      · have hprefix : tail <+: body ++ closeByte :: behind := by
          rw [htail, if_neg hb.2]
          exact (List.takeWhile_prefix _).trans (List.take_prefix _ _)
        -- The bracket continues no sequence.
        have hle : tail.length ≤ body.length := by
          by_contra hno
          obtain ⟨behind', hbehind⟩ := hprefix
          have hclose : tail[body.length]? = some closeByte := by
            rw [← List.getElem?_append_left (by omega : body.length < tail.length), hbehind,
              List.getElem?_append_right le_rfl, Nat.sub_self]
            rfl
          have hmem := List.mem_of_getElem? hclose
          rw [htail, if_neg hb.2] at hmem
          exact absurd (List.mem_takeWhile_imp hmem) (by decide)
        obtain ⟨front, hfront⟩ := ih (body.drop tail.length).length
          (by rw [List.length_drop, List.length_cons]; omega)
          (fun c hc => hlater c (List.mem_of_mem_drop hc)) rfl
        refine ⟨.sequence b tail :: front, ?_⟩
        rw [hseg, Segment.bytes, List.length_cons, Nat.add_sub_cancel, List.drop_append_of_le_length hle, hfront]
        rfl

lemma WrappedTag.drop {n : ℕ} (h : WrappedTag (rest.drop n)) : WrappedTag (b :: rest) := by
  obtain ⟨before, body, behind, heq, htag⟩ := h
  refine ⟨b :: rest.take n ++ before, body, behind, ?_, htag⟩
  rw [List.cons_append, List.cons_append, List.append_assoc, ← heq, List.take_append_drop]

lemma segments_narrow (h : ¬ WrappedTag text) : segments narrowLength text = segments id text := by
  induction hn : text.length using Nat.strong_induction_on generalizing text with
  | h n ih =>
    subst hn
    match text with
    | [] => rfl
    | b :: rest =>
      have hseg : segmentAt narrowLength b rest = segmentAt id b rest := by
        refine (segmentAt_narrow b rest).resolve_right ?_
        rintro ⟨rfl, hlong, -, tag, -, hrest, htag⟩
        refine h ⟨[], _, _, congrArg (openByte :: ·) hrest, bodyOf_unbracketed rest, hlong, ?_⟩
        rw [htag]
        exact Option.some_ne_none _
      rw [segments_cons, segments_cons, hseg]
      refine congrArg _ (ih _ ?_ (fun hno => h hno.drop) rfl)
      rw [List.length_drop, List.length_cons]
      omega

lemma WrappedTag.later (h : WrappedTag (b :: rest))
    (hseg : segmentAt narrowLength b rest = segmentAt id b rest) :
    WrappedTag (rest.drop ((segmentAt narrowLength b rest).bytes.length - 1)) := by
  obtain ⟨before, body, behind, heq, hbody, hlong, htag⟩ := h
  cases before with
  | nil =>
    obtain ⟨rfl, rfl⟩ := List.cons.inj heq
    obtain ⟨tag, htag⟩ := Option.ne_none_iff_exists'.mp htag
    have hclose : (body ++ closeByte :: behind)[body.length]? = some closeByte := by
      rw [List.getElem?_append_right le_rfl, Nat.sub_self]
      rfl
    rw [segmentAt, segmentAt, if_pos rfl, if_pos rfl, bodyOf_closed hbody, if_pos hclose, if_pos hclose, htag, id,
      tagOf, if_neg (by omega), if_neg (by omega)] at hseg
    cases hseg
  | cons a before =>
    rw [List.cons_append] at heq
    obtain ⟨rfl, hrest⟩ := List.cons.inj heq
    have hnoOpen := segmentAt_noOpen narrowLength b rest
    have hbytes : (segmentAt narrowLength b rest).bytes ++
        rest.drop ((segmentAt narrowLength b rest).bytes.length - 1) = b :: rest := segmentAt_bytes
    generalize (segmentAt narrowLength b rest).bytes = bytes at hnoOpen hbytes
    cases bytes with
    | nil =>
      have := congrArg List.length hbytes
      simp at this
    | cons c bytes =>
      rw [List.cons_append, List.length_cons, Nat.add_sub_cancel] at hbytes
      obtain ⟨-, hbytes⟩ := List.cons.inj hbytes
      rw [List.length_cons, Nat.add_sub_cancel]
      have hle : bytes.length ≤ before.length := by
        by_contra hno
        refine hnoOpen openByte (List.mem_of_getElem? (i := before.length) ?_) rfl
        rw [List.tail_cons, ← List.getElem?_append_left (by omega : before.length < bytes.length), hbytes, hrest,
          List.getElem?_append_right le_rfl, Nat.sub_self]
        rfl
      refine ⟨before.drop bytes.length, body, behind, ?_, hbody, hlong, htag⟩
      rw [hrest, List.drop_append_of_le_length hle]

lemma itemCount_narrow (text : List UInt8) :
    itemCount (segments narrowLength text) ≤ itemCount (segments id text) ∧
      (WrappedTag text → itemCount (segments narrowLength text) < itemCount (segments id text)) := by
  induction hn : text.length using Nat.strong_induction_on generalizing text with
  | h n ih =>
    subst hn
    match text with
    | [] => exact ⟨le_rfl, fun ⟨before, _, _, heq, _⟩ => by cases before <;> exact nomatch heq⟩
    | b :: rest =>
      rcases segmentAt_narrow b rest with hseg | ⟨rfl, hlong, hid, tag, hseg, hrest, -⟩
      · rw [segments_cons, segments_cons, hseg, itemCount_cons _ (segments narrowLength _),
          itemCount_cons _ (segments id _)]
        obtain ⟨hle, hlt⟩ := ih (rest.drop ((segmentAt id b rest).bytes.length - 1)).length
          (by rw [List.length_drop, List.length_cons]; omega) _ rfl
        exact ⟨Nat.add_le_add_left hle _, fun h => Nat.add_lt_add_left (hlt (hseg ▸ h.later hseg)) _⟩
      · have hlt : itemCount (segments narrowLength (openByte :: rest)) <
            itemCount (segments id (openByte :: rest)) := by
          obtain ⟨front, hfront⟩ := segments_unbracketed id (rest.drop ((bodyOf rest).length + 1))
            (bodyOf_unbracketed rest)
          rw [← hrest] at hfront
          obtain ⟨hle, -⟩ := ih (rest.drop ((bodyOf rest).length + 1)).length
            (by rw [List.length_drop, List.length_cons]; omega) _ rfl
          have hskip : (Segment.tag tag (bodyOf rest)).bytes.length - 1 = (bodyOf rest).length + 1 := by
            simp [Segment.bytes]
          have hcontrol : isControl (Segment.code openByte []) = false := rfl
          rw [segments_cons, segments_cons, hseg, hid, hskip, itemCount, itemCount, hcontrol]
          show _ < 1 + itemCount (segments id rest)
          rw [hfront, itemCount_append]
          omega
        exact ⟨hlt.le, fun _ => hlt⟩

lemma ParsesRight.not_wrappedTag (h : ParsesRight channel default text) (printable : Printable text)
    {chars : List Char} (hchars : text = encode chars) : ¬ WrappedTag text := by
  intro hwrapped
  obtain ⟨items, hitems, hright, -⟩ := h
  have heq := hitems _ (Nat.lt_succ_self _)
  rw [parseText_eq printable (Nat.lt_succ_self _), Option.some_inj, hright chars hchars, itemsOf,
    ← coloredFrom_encode, ← hchars] at heq
  have hlt := (itemCount_narrow text).2 hwrapped
  have hlength := congrArg List.length heq
  rw [coloredFrom_length, coloredFrom_length] at hlength
  omega

/-- **`parse_text`** gives the characters of a well-formed text just if none of its bodies is taken for a tag
because of its length. -/
theorem parsesRight_iff (channel : ℕ → ℕ → F) (default : TextColor F) (printable : Printable text) :
    ParsesRight channel default text ↔ ((∃ chars, text = encode chars) → ¬ WrappedTag text) := by
  constructor
  · rintro h ⟨chars, hchars⟩
    exact h.not_wrappedTag printable hchars
  · intro h
    refine ⟨_, fun fuel hfuel => parseText_eq printable hfuel, fun chars hchars => ?_,
      segments narrowLength text, segments_bytes _, rfl, fun lead tail hmem => segments_tail hmem⟩
    rw [segments_narrow (h ⟨chars, hchars⟩), hchars, coloredFrom_encode, itemsOf]

/-- A tag and a character of two bytes. -/
theorem parsesRight_reset : Printable [0x5B, 0x2F, 0x5D, 0xC3, 0xA9] ∧
    ParsesRight (fun hi lo => hi * 16 + lo) ⟨255, 255, 255, 255⟩ [0x5B, 0x2F, 0x5D, 0xC3, 0xA9] := by
  have printable : Printable [0x5B, 0x2F, 0x5D, 0xC3, 0xA9] := by
    simp [Printable]
  refine ⟨printable, (parsesRight_iff _ _ printable).mpr fun _ => ?_⟩
  rintro ⟨before, body, behind, heq, -, hlong, -⟩
  have hlength := congrArg List.length heq
  simp only [List.length_append, List.length_cons, List.length_nil] at hlength
  omega

def longTag (n : ℕ) : List Char := '[' :: '/' :: (List.replicate n 'a' ++ [']'])

lemma encode_longTag (n : ℕ) :
    encode (longTag n) = openByte :: ((0x2F :: List.replicate n 0x61) ++ closeByte :: []) := by
  have hreplicate : encode (List.replicate n 'a' ++ [']']) = List.replicate n 0x61 ++ [closeByte] := by
    induction n with
    | zero => rfl
    | succ n ih => rw [List.replicate_succ, List.cons_append, encode_cons, ih]; rfl
  rw [longTag, encode_cons, encode_cons, hreplicate]
  rfl

/-- **A tag that is none**: of a long text between two brackets, nothing is left. -/
theorem not_parsesRight : Printable (encode (longTag (2 ^ 32))) ∧
    ¬ ParsesRight (fun hi lo => hi * 16 + lo) ⟨255, 255, 255, 255⟩ (encode (longTag (2 ^ 32))) := by
  have hbody : Unbracketed (0x2F :: List.replicate (2 ^ 32) 0x61) := by
    refine List.forall_mem_cons.mpr ⟨by decide, fun b hb => ?_⟩
    rw [List.eq_of_mem_replicate hb]
    decide
  have hlong : (0x2F :: List.replicate (2 ^ 32) (0x61 : UInt8)).length = 2 ^ 32 + 1 := by
    rw [List.length_cons, List.length_replicate]
  have hprint : ∀ b ∈ (0x2F :: List.replicate (2 ^ 32) (0x61 : UInt8)), b ≠ 0 := by
    refine List.forall_mem_cons.mpr ⟨by decide, fun b hb => ?_⟩
    rw [List.eq_of_mem_replicate hb]
    decide
  have htag : tagOf (narrowLength (2 ^ 32 + 1)) (0x2F :: List.replicate (2 ^ 32) 0x61) = some .reset := rfl
  have hchars := encode_longTag (2 ^ 32)
  generalize longTag (2 ^ 32) = chars at hchars ⊢
  generalize 0x2F :: List.replicate (2 ^ 32) (0x61 : UInt8) = body at hbody hlong hprint htag hchars
  have printable : Printable (encode chars) := by
    rw [hchars, Printable, List.forall_mem_cons, List.forall_mem_append]
    exact ⟨by decide, hprint, List.forall_mem_singleton.mpr (by decide)⟩
  refine ⟨printable, fun h => h.not_wrappedTag printable rfl ?_⟩
  exact ⟨[], body, [], hchars, hbody, by omega, by rw [hlong, htag]; exact Option.some_ne_none _⟩

end PulseEngine.Text
