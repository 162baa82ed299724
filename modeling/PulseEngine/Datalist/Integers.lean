import PulseEngine.Datalist.Scalar
import Mathlib.Data.List.TakeWhile
import Mathlib.Data.Nat.Digits.Lemmas
import Mathlib.Tactic

/-!
# The integers of a datalist text

The number that the literal of an atom stands for, and when the integer an atom gets is that number: the
conversions go through an unsigned number of 64 bits.
-/

namespace PulseEngine.Datalist

/-! ### Literals -/

def digitValue (c : Char) : ℕ :=
  if c ≤ '9' then c.toNat - 48 else if c ≤ 'F' then c.toNat - 55 else c.toNat - 87

def positional (base : ℕ) (digits : Text) : ℕ := Nat.ofDigits base (digits.reverse.map digitValue)

def decimalLiteral (digits : Text) : Option ℕ :=
  if digits ≠ [] ∧ digits.all isDigit then some (positional 10 digits) else none

/-- The number that an integer literal stands for: decimal digits, with a sign or without, or
hexadecimal digits behind `0x` or `0X`. -/
def literalValue (literal : Text) : Option Int :=
  match literal with
  | '+' :: digits => (decimalLiteral digits).map (↑)
  | '-' :: digits => (decimalLiteral digits).map fun v => -(v : Int)
  | '0' :: 'x' :: digits | '0' :: 'X' :: digits =>
    if digits ≠ [] ∧ digits.all isHex then some (positional 16 digits) else none
  | digits => (decimalLiteral digits).map (↑)

def InInt64 (v : Int) : Prop := -2 ^ 63 ≤ v ∧ v < 2 ^ 63

/-! ### Digits -/

lemma positional_snoc {base : ℕ} {digits : Text} {c : Char} :
    positional base (digits ++ [c]) = positional base digits * base + digitValue c := by
  simp only [positional, List.reverse_append, List.reverse_cons, List.reverse_nil, List.nil_append,
    List.singleton_append, List.map_cons, Nat.ofDigits_cons]
  ring

lemma digit_eq {c : Char} (h : isDigit c) : digit c = digitValue c := by
  simp only [isDigit, Bool.and_eq_true, decide_eq_true_eq] at h
  rw [digitValue, if_pos h.2]
  rfl

lemma le_iff_toNat {c d : Char} : c ≤ d ↔ c.toNat ≤ d.toNat := Iff.rfl

lemma digit_le {c : Char} (h : isDigit c) : digit c ≤ 9 := by
  simp only [isDigit, Bool.and_eq_true, decide_eq_true_eq, le_iff_toNat] at h
  simp only [digit]
  simp only [Char.reduceToNat] at h ⊢
  omega

lemma toHex_of_isHex {c : Char} (h : isHex c) : toHex c = some (digitValue c) := by
  simp only [isHex, Bool.or_eq_true, Bool.and_eq_true, decide_eq_true_eq, le_iff_toNat] at h
  simp only [toHex, digitValue, le_iff_toNat]
  simp only [Char.reduceToNat] at h ⊢
  split_ifs <;> first | omega | exact congrArg some (by omega)

lemma isHex_of_toHex {c : Char} {d : ℕ} (h : toHex c = some d) : isHex c := by
  simp only [toHex] at h
  simp only [isHex, Bool.or_eq_true, Bool.and_eq_true, decide_eq_true_eq]
  split_ifs at h with h1 h2 h3
  · exact .inl (.inl h1)
  · exact .inl (.inr h2)
  · exact .inr h3

lemma hexInteger_eq {digits prior : Text} {v : ℕ}
    (h : hexInteger digits (positional 16 prior % 2 ^ 64) = some v) :
    digits.all isHex ∧ v = positional 16 (prior ++ digits) % 2 ^ 64 := by
  induction digits generalizing prior with
  | nil =>
    obtain rfl : _ = v := Option.some.inj h
    exact ⟨rfl, by rw [List.append_nil]⟩
  | cons c cs ih =>
    rw [hexInteger] at h
    cases hc : toHex c with
    | none => rw [hc] at h; cases h
    | some d =>
      have hhex := isHex_of_toHex hc
      obtain rfl : d = digitValue c := by
        rw [toHex_of_isHex hhex] at hc
        exact (Option.some.inj hc).symm
      rw [hc] at h
      have hstep : (positional 16 prior % 2 ^ 64 * 16 + digitValue c) % 2 ^ 64
          = positional 16 (prior ++ [c]) % 2 ^ 64 := by
        rw [positional_snoc]
        omega
      simp only [hstep] at h
      obtain ⟨hall, hv⟩ := ih h
      refine ⟨by rw [List.all_cons, hhex, hall]; rfl, ?_⟩
      rw [hv, List.append_assoc, List.singleton_append]

lemma decimal_eq {digits : Text} (h : digits.all isDigit) : decimal digits = positional 10 digits := by
  induction digits using List.reverseRecOn with
  | nil => rfl
  | append_singleton digits c ih =>
    rw [List.all_append, Bool.and_eq_true] at h
    have hc : isDigit c := by simpa using h.2
    rw [positional_snoc, ← ih h.1, ← digit_eq hc, decimal, List.foldl_append]
    rfl

/-! ### Conversions -/

lemma int64_eq {v : ℕ} (h : v < 2 ^ 64) :
    int64 v = if v < 2 ^ 63 then (v : Int) else v - 2 ^ 64 := by
  have hdef : int64 v = (v : Int).bmod (2 ^ 64) := rfl
  rw [Int.bmod_def] at hdef
  norm_num at h hdef ⊢
  split_ifs <;> omega

lemma int64_eq_iff {v w : ℕ} (hv : v < 2 ^ 64) (hw : w < 2 ^ 64 → v = w) :
    int64 v = w ↔ InInt64 w := by
  rw [int64_eq hv, InInt64]
  norm_num at hv hw ⊢
  split_ifs <;> omega

lemma int64_neg_iff {v w : ℕ} (hv : v < 2 ^ 64) (hw : w < 2 ^ 64 → v = (2 ^ 64 - w) % 2 ^ 64)
    (hlarge : 2 ^ 64 ≤ w → v = 2 ^ 64 - 1) : int64 v = -(w : Int) ↔ InInt64 (-(w : Int)) := by
  rw [int64_eq hv, InInt64]
  norm_num at hv hw hlarge ⊢
  split_ifs <;> omega

lemma unsignedValue_iff {negative : Bool} {digits : Text} (h : digits.all isDigit) :
    let v : Int := if negative then -(positional 10 digits : Int) else positional 10 digits
    int64 (unsignedValue negative digits) = v ↔ InInt64 v := by
  intro v
  have hlt : unsignedValue negative digits < 2 ^ 64 := by
    rw [unsignedValue, ullongMax]
    norm_num
    split_ifs <;> omega
  have hval := decimal_eq h
  cases negative with
  | false =>
    refine int64_eq_iff hlt fun hw => ?_
    rw [unsignedValue, hval, ullongMax, if_neg (by omega)]
    rfl
  | true =>
    refine int64_neg_iff hlt (fun hw => ?_) (fun hw => ?_)
    · rw [unsignedValue, hval, ullongMax, if_neg (by omega)]
      rfl
    · rw [unsignedValue, hval, ullongMax, if_pos (by omega)]

/-! ### Atoms -/

lemma all_of_takeWhile {p : Char → Bool} {s : Text} (h : s.length ≤ (s.takeWhile p).length) :
    s.takeWhile p = s ∧ s.all p := by
  have hs := (List.takeWhile_prefix p (l := s)).eq_of_length_le h
  exact ⟨hs, List.all_eq_true.mpr (List.takeWhile_eq_self_iff.mp hs)⟩

lemma strtoull_length {s : Text} : (strtoull s).2 ≤ s.length := by
  have hspaces : (s.takeWhile isSpace).length + (s.dropWhile isSpace).length = s.length := by
    rw [← List.length_append, List.takeWhile_append_dropWhile]
  simp only [strtoull]
  split_ifs with hsign hdigits hdigits
  · exact Nat.zero_le _
  · have hle := (List.takeWhile_prefix isDigit (l := (s.dropWhile isSpace).drop 1)).length_le
    have hpos : 0 < (s.dropWhile isSpace).length := by
      refine List.length_pos_of_ne_nil fun h => ?_
      rw [h] at hsign
      exact absurd hsign (by decide)
    rw [List.length_drop] at hle
    omega
  · exact Nat.zero_le _
  · have hle := (List.takeWhile_prefix isDigit (l := s.dropWhile isSpace)).length_le
    omega

lemma strtoull_all {head : Char} {rest : Text} (hspace : isSpace head = false)
    (h : (strtoull (head :: rest)).2 = (head :: rest).length) :
    ∃ digits, digits ≠ [] ∧ digits.all isDigit ∧
      (strtoull (head :: rest)).1 = unsignedValue (head = '-') digits ∧
      (if head = '+' ∨ head = '-' then rest else head :: rest) = digits := by
  have htake : (head :: rest).takeWhile isSpace = [] := by rw [List.takeWhile_cons, hspace]; rfl
  have hdrop : (head :: rest).dropWhile isSpace = head :: rest := by
    rw [List.dropWhile_cons, hspace]; rfl
  simp only [strtoull, htake, hdrop, List.take_succ_cons, List.take_zero, List.cons.injEq, and_true,
    List.drop_succ_cons, List.drop_zero, List.length_nil, Nat.zero_add] at h ⊢
  by_cases hsign : head = '+' ∨ head = '-'
  · simp only [if_pos hsign] at h ⊢
    by_cases hdigits : rest.takeWhile isDigit = []
    · rw [if_pos hdigits] at h
      cases h
    · rw [if_neg hdigits] at h ⊢
      obtain ⟨hall, hd⟩ := all_of_takeWhile (p := isDigit) (s := rest)
        (by simp only [List.length_cons] at h; omega)
      exact ⟨rest, hall ▸ hdigits, hd, by rw [hall], rfl⟩
  · simp only [if_neg hsign] at h ⊢
    by_cases hdigits : (head :: rest).takeWhile isDigit = []
    · rw [if_pos hdigits] at h
      cases h
    · rw [if_neg hdigits] at h ⊢
      obtain ⟨hall, hd⟩ := all_of_takeWhile (p := isDigit) (s := head :: rest)
        (by simp only at h; omega)
      exact ⟨head :: rest, hall ▸ hdigits, hd, by rw [hall], rfl⟩

lemma literalValue_digits {digits : Text} (hne : digits ≠ []) (h : digits.all isDigit) :
    literalValue digits = some (positional 10 digits : Int) := by
  have hdec : decimalLiteral digits = some (positional 10 digits) := by
    rw [decimalLiteral, if_pos ⟨hne, h⟩]
  unfold literalValue
  split
  · exact absurd h (by simp [isDigit])
  · exact absurd h (by simp [isDigit])
  · exact absurd h (by simp [isDigit])
  · exact absurd h (by simp [isDigit])
  · rw [hdec]
    rfl

lemma literalValue_decimal {head : Char} {rest : Text} (hspace : isSpace head = false)
    (h : (strtoull (head :: rest)).2 = (head :: rest).length) :
    ∃ v, literalValue (head :: rest) = some v ∧
      (int64 (strtoull (head :: rest)).1 = v ↔ InInt64 v) := by
  obtain ⟨digits, hne, hall, hval, hdigits⟩ := strtoull_all hspace h
  have hiff := @unsignedValue_iff (head = '-') digits hall
  rw [← hval] at hiff
  refine ⟨_, ?_, hiff⟩
  by_cases hminus : head = '-'
  · rw [if_pos (.inr hminus)] at hdigits
    subst hminus hdigits
    rw [literalValue, decimalLiteral, if_pos ⟨hne, hall⟩]
    rfl
  · rw [if_neg (by simpa using hminus)]
    by_cases hplus : head = '+'
    · rw [if_pos (.inl hplus)] at hdigits
      subst hplus hdigits
      rw [literalValue, decimalLiteral, if_pos ⟨hne, hall⟩]
      rfl
    · rw [if_neg (by simp [hplus, hminus])] at hdigits
      rw [hdigits, literalValue_digits hne hall]

lemma literalValue_hex {atom : Text} {v : ℕ} (h : hexAtom atom = some v) :
    ∃ w, literalValue atom = some w ∧ (int64 v = w ↔ InInt64 w) := by
  unfold hexAtom at h
  split at h
  · rename_i x c digits
    split_ifs at h with hx
    obtain ⟨hall, hv⟩ := @hexInteger_eq (c :: digits) [] v h
    rw [List.nil_append] at hv
    have hlit : literalValue ('0' :: x :: c :: digits) = some (positional 16 (c :: digits) : Int) := by
      rcases hx with rfl | rfl <;>
        rw [literalValue, if_pos ⟨List.cons_ne_nil _ _, hall⟩]
    refine ⟨_, hlit, int64_eq_iff ?_ fun hlt => ?_⟩
    · rw [hv]
      exact Nat.mod_lt _ (by norm_num)
    · rw [hv, Nat.mod_eq_of_lt hlt]
  · cases h

lemma isSpace_of_startsNumber {c : Char} (h : startsNumber c) : isSpace c = false := by
  simp only [startsNumber, isDigit, Bool.or_eq_true, Bool.and_eq_true, decide_eq_true_eq,
    le_iff_toNat] at h
  simp only [isSpace, Bool.or_eq_false_iff, Bool.and_eq_false_iff, decide_eq_false_iff_not,
    le_iff_toNat, ← Char.toNat_inj]
  simp only [← Char.toNat_inj] at h
  simp only [Char.reduceToNat] at h ⊢
  omega

variable {δ : Type} [Strtod δ]

lemma atomNumber_int {head : Char} {rest : Text} {i : Int} (hspace : isSpace head = false)
    (h : atomNumber (δ := δ) (head :: rest) = some (.int i)) :
    ∃ v, literalValue (head :: rest) = some v ∧ (i = v ↔ InInt64 v) := by
  unfold atomNumber at h
  split at h
  · rename_i v hv
    obtain rfl : int64 v = i := Scalar.int.inj (Option.some.inj h)
    exact literalValue_hex hv
  · simp only at h
    split_ifs at h with hread hfloat
    · obtain rfl : int64 (strtoull (cString (head :: rest))).1 = i :=
        Scalar.int.inj (Option.some.inj h)
      have hlen := strtoull_length (s := cString (head :: rest))
      have hall : cString (head :: rest) = head :: rest := (all_of_takeWhile (hread ▸ hlen)).1
      rw [hall] at hread ⊢
      exact literalValue_decimal hspace hread
    · cases Option.some.inj h

omit [Strtod δ] in
lemma atomWord_ne_int {atom : Text} {i : Int} : atomWord (δ := δ) atom ≠ .int i := by
  rw [atomWord]
  split_ifs <;> exact fun h => nomatch h

lemma atomValue_digit {c : Char} (h : isDigit c) :
    ∃ v, literalValue [c] = some v ∧ ((digit c : Int) = v ↔ InInt64 v) := by
  refine ⟨_, literalValue_digits (List.cons_ne_nil _ _) (by rw [List.all_cons, h]; rfl), ?_⟩
  have hval : positional 10 [c] = digit c := by
    rw [digit_eq h]
    exact Nat.ofDigits_singleton
  have hle := digit_le h
  rw [hval, InInt64]
  norm_num
  omega

/-- An atom that becomes an integer is an integer literal, and the integer is its number exactly when an
`int64_t` holds that. -/
theorem atomValue_exact_iff {atom : Text} {i : Int} (h : atomValue (δ := δ) atom = .int i) :
    ∃ v, literalValue atom = some v ∧ (i = v ↔ InInt64 v) := by
  match atom with
  | [] => exact absurd h atomWord_ne_int
  | [c] =>
    rw [atomValue] at h
    split_ifs at h with hstart hdigit
    · obtain rfl : (digit c : Int) = i := Scalar.int.inj h
      exact atomValue_digit hdigit
    · exact absurd h atomWord_ne_int
  | head :: next :: rest =>
    rw [atomValue] at h
    split_ifs at h with hstart
    · cases hnumber : atomNumber (δ := δ) (head :: next :: rest) with
      | none =>
        rw [hnumber] at h
        exact absurd h atomWord_ne_int
      | some scalar =>
        rw [hnumber] at h
        obtain rfl : scalar = .int i := h
        exact atomNumber_int (isSpace_of_startsNumber hstart) hnumber
    · exact absurd h atomWord_ne_int

/-- The least number of an `int64_t`. -/
theorem atomValue_exact_iff_least :
    ∃ v, literalValue "-9223372036854775808".toList = some v ∧
      ((-9223372036854775808 : Int) = v ↔ InInt64 v) :=
  atomValue_exact_iff (δ := Int) (by decide +kernel)

/-- The largest number that fits into 64 bits without a sign becomes `-1`. -/
theorem not_atomValue_exact :
    ¬ ∀ (atom : Text) (i : Int), atomValue (δ := Int) atom = .int i → literalValue atom = some i := by
  intro h
  have hatom := h "18446744073709551615".toList (-1) (by decide +kernel)
  exact absurd hatom (by decide +kernel)

end PulseEngine.Datalist
