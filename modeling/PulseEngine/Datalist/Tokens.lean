import Mathlib.Tactic
import PulseEngine.Datalist.Lexer

/-!
# Lexing a whole text

`next_token` comes to the end of every text, whatever its bytes are. The tokens on the way are pieces of the text, in its
order and without overlap.
-/

namespace PulseEngine.Datalist

/-- The tokens up to the end of the source or to an invalid one, in at most `n` calls, and whether the source is valid. -/
def tokensFrom : ℕ → LexState → Option (List Token × Bool)
  | 0, _ => none
  | n + 1, LS =>
    match nextToken LS with
    | (false, _) => some ([], false)
    | (true, LS') =>
      if LS'.n.type = .eof then some ([], true)
      else (tokensFrom n LS').map fun (ts, valid) => (LS'.n :: ts, valid)

/-- A token is the piece of the source from its start on. -/
def Token.PieceOf (t : Token) (source : Text) : Prop := (source.drop t.start).take t.text.length = t.text

/-- A token is read from `ptr`, and reading goes on at `rest`. -/
def Reads (source ptr : Text) (t : Token) (rest : Text) : Prop :=
  ∃ gap, t.start = source.length - (t.text ++ gap ++ rest).length ∧ t.text ++ gap ++ rest <:+ ptr

variable {source ptr ptr' rest s : Text} {t : Token} {LS LS' : LexState}

lemma Reads.mono (h : Reads source ptr t rest) (suffix : ptr <:+ ptr') : Reads source ptr' t rest := by
  obtain ⟨gap, start, within⟩ := h
  exact ⟨gap, start, within.trans suffix⟩

lemma Reads.pieceOf (h : Reads source ptr t rest) (suffix : ptr <:+ source) : t.PieceOf source := by
  obtain ⟨gap, start, within⟩ := h
  obtain ⟨before, rfl⟩ := within.trans suffix
  have here : t.start = before.length := by
    rw [start, List.length_append, Nat.add_sub_cancel]
  rw [Token.PieceOf, here, List.drop_left, List.append_assoc, List.take_left]

lemma Reads.bounds (h : Reads source ptr t rest) (suffix : ptr <:+ source) :
    source.length - ptr.length ≤ t.start ∧ t.start + t.text.length ≤ source.length - rest.length ∧ rest <:+ ptr := by
  obtain ⟨gap, start, within⟩ := h
  have inside := within.length_le
  have whole := suffix.length_le
  rw [List.length_append, List.length_append] at inside start
  exact ⟨by omega, by omega, (List.suffix_append _ _).trans within⟩

/-! ## One call -/

lemma stringEnd_eq {quote : Char} (h : stringEnd quote ptr = some (s, rest)) : ptr = s ++ quote :: rest := by
  fun_induction stringEnd quote ptr generalizing s with
  | case1 => cases h
  | case2 =>
    cases h
    rfl
  | case3 => cases h
  | case4 => cases h
  | case5 _ _ _ _ ih =>
    obtain ⟨⟨s', rest''⟩, found, eq⟩ := Option.map_eq_some_iff.mp h
    cases eq
    rw [ih found]
    rfl
  | case6 _ _ _ _ _ ih =>
    obtain ⟨⟨s', rest''⟩, found, eq⟩ := Option.map_eq_some_iff.mp h
    cases eq
    rw [ih found]
    rfl

lemma reads_token {type : TokenType} (gap : Text) (h : ptr = s ++ gap ++ rest) :
    Reads LS.source ptr ⟨type, LS.position ptr, s⟩ rest :=
  ⟨gap, by rw [← h]; rfl, h ▸ List.suffix_rfl⟩

lemma reads_atom {head : Char} : Reads LS.source ptr (LS.parseAtom head ptr).n (LS.parseAtom head ptr).rest :=
  reads_token [] (by rw [List.append_nil]; exact List.takeWhile_append_dropWhile.symm)

lemma dropWhile_lt (p : Char → Bool) (c : Char) (tail : Text) (h : p c = true) :
    ((c :: tail).dropWhile p).length < (c :: tail).length := by
  rw [List.dropWhile_cons_of_pos h]
  exact Nat.lt_succ_of_le (List.dropWhile_suffix p).length_le

/-- What a call that finds a token does: it reads it from where it is, and gets further. -/
structure Finds (LS : LexState) (ptr : Text) (LS' : LexState) : Prop where
  source : LS'.source = LS.source
  newline : LS'.newline = LS.newline
  reads : Reads LS.source ptr LS'.n LS'.rest

lemma Finds.skip (h : Finds LS ptr LS') (suffix : ptr <:+ ptr') : Finds LS ptr' LS' :=
  ⟨h.source, h.newline, h.reads.mono suffix⟩

lemma finds_string {quote : Char} (h : LS.parseString quote ptr = (true, LS')) :
    Finds LS ptr LS' ∧ LS'.rest.length < ptr.length := by
  unfold LexState.parseString at h
  split at h
  · cases h
  · rename_i found
    cases h
    have eq := stringEnd_eq found
    refine ⟨⟨rfl, rfl, reads_token [quote] (by rw [List.append_assoc]; exact eq)⟩, ?_⟩
    rw [eq, List.length_append]
    exact Nat.lt_add_left _ (Nat.lt_succ_self _)

lemma finds_dashes {tail : Text} : Finds LS ('-' :: tail) (LS.parseDashes ('-' :: tail)) ∧
    (LS.parseDashes ('-' :: tail)).rest.length < ('-' :: tail).length := by
  unfold LexState.parseDashes
  dsimp only
  split
  · refine ⟨⟨rfl, rfl, reads_token [] ?_⟩, dropWhile_lt (· = '-') '-' tail rfl⟩
    rw [List.append_nil]
    exact List.takeWhile_append_dropWhile.symm
  · exact ⟨⟨rfl, rfl, reads_atom⟩, dropWhile_lt (fun c => !isSeparator c) '-' tail rfl⟩

/-- Where a scan is with what it holds back. -/
def Scan.at : Scan → Text → Text
  | .ident blanks, ptr => blanks ++ ptr
  | _, ptr => ptr

/-- Only the line head can be a token without a byte. -/
def Scan.Advances : Scan → Prop
  | .ident _ => False
  | _ => True

lemma nextTokenFrom_finds {mode : Scan} (h : nextTokenFrom mode ptr LS = (true, LS')) (more : LS'.n.type ≠ .eof) :
    Finds LS (mode.at ptr) LS' ∧ LS'.rest.length ≤ ptr.length ∧ (mode.Advances → LS'.rest.length < ptr.length) := by
  induction ptr generalizing mode LS with
  | nil =>
    unfold nextTokenFrom at h
    cases h
    exact absurd rfl more
  | cons c rest ih =>
    have skipped : ∀ {mode' : Scan} {LS₁ : LexState}, nextTokenFrom mode' rest LS₁ = (true, LS') →
        LS₁.source = LS.source → LS₁.newline = LS.newline → mode'.at rest <:+ mode.at (c :: rest) →
          Finds LS (mode.at (c :: rest)) LS' ∧ LS'.rest.length ≤ (c :: rest).length ∧
            (mode.Advances → LS'.rest.length < (c :: rest).length) := by
      intro mode' LS₁ h source newline suffix
      obtain ⟨finds, le, -⟩ := ih h
      have found := finds.skip suffix
      exact ⟨⟨found.source.trans source, found.newline.trans newline, source ▸ found.reads⟩, Nat.le_succ_of_le le,
        fun _ => Nat.lt_succ_of_le le⟩
    have single : ∀ {type : TokenType}, (true, LS.token type (c :: rest) [c] rest) = (true, LS') →
        Finds LS (c :: rest) LS' ∧ LS'.rest.length ≤ (c :: rest).length ∧
          (Scan.token.Advances → LS'.rest.length < (c :: rest).length) := by
      rintro type ⟨⟩
      exact ⟨⟨rfl, rfl, reads_token [] rfl⟩, Nat.le_succ _, fun _ => Nat.lt_succ_self _⟩
    cases mode with
    | ident blanks =>
      unfold nextTokenFrom at h
      split_ifs at h with isEnd isComment blank
      · exact skipped h rfl rfl ((List.suffix_cons c rest).trans (List.suffix_append blanks _))
      · exact skipped h rfl rfl ((List.suffix_cons c rest).trans (List.suffix_append blanks _))
      · refine skipped h rfl rfl ?_
        rw [Scan.at, Scan.at, List.append_assoc]
        exact List.suffix_rfl
      · cases h
        exact ⟨⟨rfl, rfl, reads_token [] (by rw [List.append_nil]; rfl)⟩, le_rfl, False.elim⟩
    | comment =>
      unfold nextTokenFrom at h
      split_ifs at h
      · exact skipped h rfl rfl (List.suffix_cons c rest)
      · exact skipped h rfl rfl (List.suffix_cons c rest)
    | token =>
      unfold nextTokenFrom at h
      split_ifs at h with isComment isEnd blank opens converts closes dash isMap quote
      · exact skipped h rfl rfl (List.suffix_cons c rest)
      · exact skipped h rfl rfl (List.suffix_cons c rest)
      · exact skipped h rfl rfl (List.suffix_cons c rest)
      · exact single h
      · exact single h
      · exact single h
      · subst dash
        cases h
        obtain ⟨finds, lt⟩ := @finds_dashes LS rest
        exact ⟨finds, lt.le, fun _ => lt⟩
      · exact single h
      · obtain ⟨finds, lt⟩ := finds_string h
        exact ⟨finds.skip (List.suffix_cons c rest), lt.le.trans (Nat.le_succ _), fun _ => lt.trans (Nat.lt_succ_self _)⟩
      · have inside : (!isSeparator c) = true := by
          simp only [isBreak, isBlank] at *
          simp_all [isSeparator]
        cases h
        have lt := dropWhile_lt (fun c => !isSeparator c) c rest inside
        exact ⟨⟨rfl, rfl, reads_atom⟩, lt.le, fun _ => lt⟩

/-- A call that finds a token reads it behind the last one, and there are fewer calls left. -/
lemma nextToken_finds (h : nextToken LS = (true, LS')) (more : LS'.n.type ≠ .eof) :
    LS'.source = LS.source ∧ LS'.newline = false ∧ Reads LS.source LS.rest LS'.n LS'.rest ∧
      LS'.rest.length < LS.rest.length + (if LS.newline then 1 else 0) := by
  unfold nextToken at h
  cases newline : LS.newline with
  | true =>
    rw [newline] at h
    obtain ⟨finds, le, -⟩ := nextTokenFrom_finds h more
    exact ⟨finds.source, finds.newline, finds.reads, Nat.lt_succ_of_le le⟩
  | false =>
    rw [newline] at h
    obtain ⟨finds, -, lt⟩ := nextTokenFrom_finds h more
    exact ⟨finds.source, finds.newline, finds.reads, lt trivial⟩

/-! ## All calls -/

/-- What holds of all tokens from a state on. -/
lemma tokensFrom_spec {n : ℕ} (inside : LS.rest <:+ LS.source)
    (calls : LS.rest.length + (if LS.newline then 1 else 0) < n) : ∃ ts valid, tokensFrom n LS = some (ts, valid) ∧
      (∀ t ∈ ts, t.PieceOf LS.source ∧ LS.source.length - LS.rest.length ≤ t.start ∧
        t.start + t.text.length ≤ LS.source.length) ∧
      ts.Pairwise fun t t' => t.start + t.text.length ≤ t'.start := by
  induction n generalizing LS with
  | zero => exact absurd calls (Nat.not_lt_zero _)
  | succ n ih =>
    rw [tokensFrom]
    split
    · exact ⟨[], false, rfl, List.forall_mem_nil _, .nil⟩
    · rename_i LS' found
      split_ifs with ends
      · exact ⟨[], true, rfl, List.forall_mem_nil _, .nil⟩
      · obtain ⟨source, newline, reads, fewer⟩ := nextToken_finds found ends
        obtain ⟨first, last, suffix⟩ := reads.bounds inside
        have left : LS'.rest.length + (if LS'.newline then 1 else 0) < n := by
          rw [newline, if_neg Bool.false_ne_true]
          omega
        obtain ⟨ts, valid, run, pieces, order⟩ := ih (source ▸ suffix.trans inside) left
        rw [source] at pieces
        refine ⟨LS'.n :: ts, valid, by rw [run]; rfl, List.forall_mem_cons.mpr ⟨⟨reads.pieceOf inside, first, ?_⟩,
          fun t h => ⟨(pieces t h).1, ?_, (pieces t h).2.2⟩⟩, List.pairwise_cons.mpr ⟨fun t h => ?_, order⟩⟩
        · omega
        · have behind := (pieces t h).2.1
          have shorter := suffix.length_le
          omega
        · exact last.trans (pieces t h).2.1

/-- **Lexing ends.** Every text has finitely many tokens up to its end or its first invalid one, at most one more than it
has bytes; each is a piece of the text, and they follow one another without overlap. -/
theorem lexing_ends (text : Text) (aslist : Bool) :
    ∃ ts valid, tokensFrom (text.length + 2) (LexState.init text aslist) = some (ts, valid) ∧
      (∀ t ∈ ts, t.PieceOf text ∧ t.start + t.text.length ≤ text.length) ∧
      ts.Pairwise fun t t' => t.start + t.text.length ≤ t'.start := by
  obtain ⟨ts, valid, run, pieces, order⟩ :=
    @tokensFrom_spec (LexState.init text aslist) (text.length + 2) List.suffix_rfl (Nat.lt_succ_self _)
  exact ⟨ts, valid, run, fun t h => ⟨(pieces t h).1, (pieces t h).2.2⟩, order⟩

end PulseEngine.Datalist
