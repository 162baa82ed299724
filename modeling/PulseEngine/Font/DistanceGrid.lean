import PulseEngine.Library.Splice
import PulseEngine.Font.Distance

/-!
# The two passes of the distance transform

The rows of a grid leave the distances along the rows, the columns of these leave the distances in the grid. A
column is read before it is written, and the others stay.
-/

namespace PulseEngine.Font

open Library

variable {f src dst out : List ℚ} {n w h x y x' y' p q left fuel : ℕ} {m : ℚ} {v : List ℤ} {z : List ℚ}
  {vs : EdtVectors}

def GridNearest (src : List ℚ) (w h x y : ℕ) (m : ℚ) : Prop :=
  IsLeast {d | ∃ x' < w, ∃ y' < h,
    d = ((x : ℚ) - x') ^ 2 + ((y : ℚ) - y') ^ 2 + src.getD (y' * w + x') 0} m

structure Roomy (vs : EdtVectors) (n : ℕ) : Prop where
  parabola : 1 ≤ vs.parabola.length ∧ n ≤ vs.parabola.length
  boundary : 2 ≤ vs.boundary.length ∧ n + 1 ≤ vs.boundary.length

lemma Roomy.of_length {vs' : EdtVectors} (room : Roomy vs n) (hv : vs'.parabola.length = vs.parabola.length)
    (hz : vs'.boundary.length = vs.boundary.length) : Roomy vs' n :=
  ⟨hv.symm ▸ room.parabola, hz.symm ▸ room.boundary⟩

lemma length_resize {α : Type} (xs : List α) (count : ℕ) (a : α) : (resize xs count a).length = count := by
  rw [resize, List.length_append, List.length_take, List.length_replicate]
  omega

lemma Nearest.range (hvalued : Valued f n) (hq : q < n) (hm : Nearest f n q m) : 0 ≤ m ∧ m ≤ kEdtInfinity := by
  obtain ⟨⟨p, hp, rfl⟩, hleast⟩ := hm
  refine ⟨add_nonneg (sq_nonneg _) (hvalued.range p hp).1, ?_⟩
  refine (hleast ⟨q, hq, rfl⟩).trans ?_
  rw [sub_self, zero_pow two_ne_zero, zero_add]
  exact (hvalued.range q hq).2

lemma valued_row (hvalued : Valued src (h * w)) (hy : y < h) : Valued (src.drop (y * w)) w := by
  have hle : (y + 1) * w ≤ h * w := Nat.mul_le_mul_right w hy
  rw [Nat.succ_mul] at hle
  refine ⟨by rw [List.length_drop]; have := hvalued.long; omega, fun p hp => ?_⟩
  have hrange := hvalued.range (y * w + p) (place_lt hp hy)
  rwa [heights, List.getD_eq_getElem?_getD, ← List.getElem?_drop, ← List.getD_eq_getElem?_getD] at hrange

lemma edtRows_spec (hvalued : Valued src (h * w)) (hw : w ≤ 2 ^ 30) (hfuel : w + 1 ≤ fuel) (left y : ℕ)
    (hy : y + left ≤ h) (hdst : h * w ≤ dst.length) (room : ∀ n ≤ max w h, Roomy vs n) :
    ∃ dst' vs', edtRows fuel src w left y dst vs = some (dst', vs') ∧ dst'.length = dst.length ∧
      (∀ n ≤ max w h, Roomy vs' n) ∧ (∀ i < y * w, dst'.getD i 0 = dst.getD i 0) ∧
        ∀ y', y ≤ y' → y' < y + left → ∀ x < w, Nearest (src.drop (y' * w)) w x (dst'.getD (y' * w + x) 0) := by
  induction left generalizing y dst vs with
  | zero => exact ⟨dst, vs, rfl, rfl, room, fun _ _ => rfl, fun y' hle hlt => absurd hle (by omega)⟩
  | succ left ih =>
    have hroom := room w (le_max_left w h)
    obtain ⟨d, v, z, hd, hv, hz, hlen, hnearest⟩ := edt1d_spec (valued_row hvalued (show y < h by omega)) hw hfuel
      hroom.parabola hroom.boundary
    have hfit : y * w + d.length ≤ dst.length := by
      have hle : (y + 1) * w ≤ h * w := Nat.mul_le_mul_right w (by omega)
      rw [Nat.succ_mul] at hle
      omega
    have hlength := length_splice hfit
    obtain ⟨dst', vs', hrest, hlen', hroom', hbefore, hrows⟩ := ih (y := y + 1) (by omega)
      (show h * w ≤ (splice dst (y * w) d).length by omega)
      fun n hn => show Roomy ⟨v, z⟩ n from (room n hn).of_length hv hz
    have hrow : (y + 1) * w = y * w + w := Nat.succ_mul y w
    refine ⟨dst', vs', ?_, hlen'.trans hlength, hroom', fun i hi => ?_, fun y' hle hlt x hx => ?_⟩
    · rw [edtRows, hd]
      simp only [Option.bind_eq_bind, Option.bind_some, writeRange, if_pos hfit]
      exact hrest
    · rw [hbefore i (by omega), List.getD_eq_getElem?_getD, getElem?_splice hfit, if_neg (by omega),
        List.getD_eq_getElem?_getD]
    · rcases Nat.lt_or_eq_of_le hle with hlater | rfl
      · exact hrows y' hlater (by omega) x hx
      · rw [hbefore _ (by omega), List.getD_eq_getElem?_getD, getElem?_splice hfit, if_pos (by omega),
          Nat.add_sub_cancel_left, ← List.getD_eq_getElem?_getD]
        exact hnearest x hx

lemma readColumn_spec (hdst : h * w ≤ dst.length) (hx : x < w) :
    ∃ col, readColumn dst w h x = some col ∧ col.length = h ∧ ∀ y < h, col.getD y 0 = dst.getD (y * w + x) 0 := by
  have hread : readColumn dst w h x = some ((List.range h).map fun y => dst.getD (y * w + x) 0) := by
    refine mapM_some fun y hy => ?_
    have hplace : y * w + x < dst.length := (place_lt hx (List.mem_range.mp hy)).trans_le hdst
    rw [List.getD_eq_getElem?_getD, List.getElem?_eq_getElem hplace, Option.getD_some]
  refine ⟨_, hread, by rw [List.length_map, List.length_range], fun y hy => ?_⟩
  rw [List.getD_eq_getElem?_getD, List.getElem?_map, List.getElem?_range hy]
  rfl

lemma writeColumn_spec (hx : x < w) (y : ℕ) (hy : y + out.length ≤ h) (hdst : h * w ≤ dst.length) :
    ∃ dst', writeColumn w x y out dst = some dst' ∧ dst'.length = dst.length ∧
      ∀ y' < h, ∀ x' < w, dst'.getD (y' * w + x') 0 =
        if x' = x ∧ y ≤ y' ∧ y' < y + out.length then out.getD (y' - y) 0 else dst.getD (y' * w + x') 0 := by
  induction out generalizing y dst with
  | nil => exact ⟨dst, rfl, rfl, fun y' _ x' _ => (if_neg (by rw [List.length_nil]; omega)).symm⟩
  | cons d out ih =>
    rw [List.length_cons] at hy
    have hplace : y * w + x < dst.length := (place_lt hx (by omega)).trans_le hdst
    obtain ⟨dst', hrest, hlen, hget⟩ := ih (y := y + 1) (by omega)
      (show h * w ≤ (dst.set (y * w + x) d).length by rwa [List.length_set])
    refine ⟨dst', ?_, hlen.trans List.length_set, fun y' hy' x' hx' => ?_⟩
    · rw [writeColumn, if_pos hplace, hrest]
    · rw [hget y' hy' x' hx', List.length_cons]
      by_cases hcol : x' = x
      · subst hcol
        rcases Nat.lt_trichotomy y' y with hlt | rfl | hgt
        · rw [if_neg (by omega), if_neg (by omega), List.getD_eq_getElem?_getD, List.getD_eq_getElem?_getD,
            List.getElem?_set_ne fun heq => by have := (place_inj hx hx').mp heq; omega]
        · rw [if_neg (by omega), if_pos (by omega), Nat.sub_self, List.getD_cons_zero,
            List.getD_eq_getElem?_getD, List.getElem?_set_self hplace]
          rfl
        · by_cases hend : y' < y + (out.length + 1)
          · obtain ⟨i, hi⟩ : ∃ i, y' = y + 1 + i := ⟨y' - (y + 1), by omega⟩
            have hi' : y' - y = i + 1 := by omega
            rw [if_pos (by omega), if_pos (by omega), hi', List.getD_cons_succ, hi, Nat.add_sub_cancel_left]
          · rw [if_neg (by omega), if_neg (by omega), List.getD_eq_getElem?_getD, List.getD_eq_getElem?_getD,
              List.getElem?_set_ne fun heq => by have := (place_inj hx hx').mp heq; omega]
      · rw [if_neg (by omega), if_neg (by omega), List.getD_eq_getElem?_getD, List.getD_eq_getElem?_getD,
          List.getElem?_set_ne fun heq => hcol ((place_inj hx hx').mp heq).1.symm]

lemma edtColumns_spec (hvalued : ∀ y < h, ∀ x < w, 0 ≤ dst.getD (y * w + x) 0 ∧ dst.getD (y * w + x) 0 ≤ kEdtInfinity)
    (hh : h ≤ 2 ^ 30) (hfuel : h + 1 ≤ fuel) (left x : ℕ) (hx : x + left ≤ w) (hdst : h * w ≤ dst.length)
    (room : ∀ n ≤ max w h, Roomy vs n) :
    ∃ dst' vs', edtColumns fuel w h left x dst vs = some (dst', vs') ∧ dst'.length = dst.length ∧
      (∀ y < h, ∀ x' < x, dst'.getD (y * w + x') 0 = dst.getD (y * w + x') 0) ∧
        ∀ x', x ≤ x' → x' < x + left → ∀ y < h, IsLeast
          {d | ∃ y' < h, d = ((y : ℚ) - y') ^ 2 + dst.getD (y' * w + x') 0} (dst'.getD (y * w + x') 0) := by
  induction left generalizing x dst vs with
  | zero => exact ⟨dst, vs, rfl, rfl, fun _ _ _ _ => rfl, fun x' hle hlt => absurd hle (by omega)⟩
  | succ left ih =>
    have hroom := room h (le_max_right w h)
    have hxw : x < w := by omega
    obtain ⟨col, hcol, hcollen, hread⟩ := readColumn_spec hdst hxw
    have hcolvalued : Valued col h := by
      refine ⟨hcollen.ge, fun y hy => ?_⟩
      rw [heights, hread y hy]
      exact hvalued y hy x hxw
    obtain ⟨out, v, z, hout, hv, hz, hlen, hnearest⟩ := edt1d_spec hcolvalued hh hfuel hroom.parabola hroom.boundary
    obtain ⟨dst₁, hwrite, hlen₁, hget⟩ := writeColumn_spec hxw 0 (show 0 + out.length ≤ h by omega) hdst
    have hother : ∀ y < h, ∀ x' < w, x' ≠ x → dst₁.getD (y * w + x') 0 = dst.getD (y * w + x') 0 :=
      fun y hy x' hx' hne => by rw [hget y hy x' hx', if_neg fun hno => hne hno.1]
    have hvalued₁ : ∀ y < h, ∀ x' < w, 0 ≤ dst₁.getD (y * w + x') 0 ∧ dst₁.getD (y * w + x') 0 ≤ kEdtInfinity := by
      intro y hy x' hx'
      by_cases hcol : x' = x
      · rw [hget y hy x' hx', if_pos ⟨hcol, Nat.zero_le y, by omega⟩, Nat.sub_zero]
        exact (hnearest y hy).range hcolvalued hy
      · rw [hother y hy x' hx' hcol]
        exact hvalued y hy x' hx'
    obtain ⟨dst', vs', hrest, hlen', hbefore, hcols⟩ := ih hvalued₁ (x := x + 1) (by omega)
      (hlen₁.symm ▸ hdst) fun n hn => show Roomy ⟨v, z⟩ n from (room n hn).of_length hv hz
    refine ⟨dst', vs', ?_, hlen'.trans hlen₁, fun y hy x' hx' => ?_, fun x' hle hlt y hy => ?_⟩
    · rw [edtColumns, hcol]
      simp only [Option.bind_eq_bind, Option.bind_some, hout, hwrite]
      exact hrest
    · rw [hbefore y hy x' (by omega), hother y hy x' (by omega) (by omega)]
    · rcases Nat.lt_or_eq_of_le hle with hlater | rfl
      · have hset : {d | ∃ y' < h, d = ((y : ℚ) - y') ^ 2 + dst₁.getD (y' * w + x') 0} =
            {d | ∃ y' < h, d = ((y : ℚ) - y') ^ 2 + dst.getD (y' * w + x') 0} := by
          ext d
          refine exists_congr fun y' => and_congr_right fun hy' => ?_
          rw [hother y' hy' x' (by omega) (by omega)]
        rw [← hset]
        exact hcols x' hlater (by omega) y hy
      · have hset : {d | ∃ y' < h, d = ((y : ℚ) - y') ^ 2 + col.getD y' 0} =
            {d | ∃ y' < h, d = ((y : ℚ) - y') ^ 2 + dst.getD (y' * w + x) 0} := by
          ext d
          refine exists_congr fun y' => and_congr_right fun hy' => ?_
          rw [hread y' hy']
        rw [hbefore y hy x (Nat.lt_succ_self x), hget y hy x hxw, if_pos ⟨rfl, Nat.zero_le y, by omega⟩,
          Nat.sub_zero, ← hset]
        exact hnearest y hy

lemma gridNearest_of_rows {g : ℕ → ℚ} (hrows : ∀ y' < h, Nearest (src.drop (y' * w)) w x (g y'))
    (hcolumn : IsLeast {d | ∃ y' < h, d = ((y : ℚ) - y') ^ 2 + g y'} m) : GridNearest src w h x y m := by
  have hdrop : ∀ x' y' : ℕ, (src.drop (y' * w)).getD x' 0 = src.getD (y' * w + x') 0 := fun x' y' => by
    rw [List.getD_eq_getElem?_getD, List.getElem?_drop, ← List.getD_eq_getElem?_getD]
  obtain ⟨⟨y₀, hy₀, rfl⟩, hleast⟩ := hcolumn
  constructor
  · obtain ⟨x₀, hx₀, hg⟩ := (hrows y₀ hy₀).1
    exact ⟨x₀, hx₀, y₀, hy₀, by rw [hg, hdrop]; ring⟩
  · rintro _ ⟨x', hx', y', hy', rfl⟩
    have hcol := hleast ⟨y', hy', rfl⟩
    have hrow := (hrows y' hy').2 ⟨x', hx', rfl⟩
    rw [hdrop] at hrow
    linarith

lemma edt2d_spec (hvalued : Valued src (h * w)) (hw : w ≤ 2 ^ 30) (hh : h ≤ 2 ^ 30) (hfuel : max w h + 1 ≤ fuel)
    (hdst : h * w ≤ dst.length) :
    ∃ dst' vs', edt2d fuel vs src dst w h = some (dst', vs') ∧ dst'.length = dst.length ∧
      ∀ x < w, ∀ y < h, GridNearest src w h x y (dst'.getD (y * w + x) 0) := by
  have hlongest : max w h ≤ 2 ^ 30 := max_le hw hh
  rw [edt2d]
  simp only [Nat.mod_eq_of_lt (show max w h + 1 < 2 ^ 32 by omega)]
  generalize hvs₁ : (⟨resize vs.parabola (max w h) 0, resize vs.boundary (max w h + 1) 0⟩ : EdtVectors) = vs₁
  rcases Nat.eq_zero_or_pos (max w h) with hnone | hsome
  · obtain ⟨rfl, rfl⟩ : w = 0 ∧ h = 0 := by omega
    exact ⟨dst, vs₁, rfl, rfl, nofun⟩
  · have room : ∀ n ≤ max w h, Roomy vs₁ n := fun n hn => by
      rw [← hvs₁]
      exact ⟨by rw [length_resize]; omega, by rw [length_resize]; omega⟩
    obtain ⟨dst₁, vs₂, hrows, hlen₁, room₁, -, hnearest⟩ := edtRows_spec hvalued hw
      (show w + 1 ≤ fuel by omega) h 0
      (by omega) hdst room
    have hrow : ∀ y < h, ∀ x < w, Nearest (src.drop (y * w)) w x (dst₁.getD (y * w + x) 0) :=
      fun y hy => hnearest y (Nat.zero_le y) (by omega)
    obtain ⟨dst', vs', hcols, hlen', -, hcolumn⟩ := edtColumns_spec
      (fun y hy x hx => (hrow y hy x hx).range (valued_row hvalued hy) hx) hh
      (show h + 1 ≤ fuel by omega) w 0
      (by omega) (hlen₁.symm ▸ hdst) room₁
    refine ⟨dst', vs', ?_, hlen'.trans hlen₁, fun x hx y hy => ?_⟩
    · rw [hrows]
      exact hcols
    · exact gridNearest_of_rows (fun y' hy' => hrow y' hy' x hx) (hcolumn x (Nat.zero_le x) (by omega) y hy)

/-- `edt_1d` of a line of this length, in arrays with room for it, stays within them and gives the least sums. -/
def ExactLine (n : ℕ) : Prop :=
  ∀ f v z, Valued f n → 1 ≤ v.length ∧ n ≤ v.length → 2 ≤ z.length ∧ n + 1 ≤ z.length → ∀ fuel ≥ n + 1,
    ∃ d v' z', edt1d fuel f n v z = some (d, v', z') ∧ d.length = n ∧ ∀ q < n, Nearest f n q (d.getD q 0)

/-- `edt_2d` of a grid of this size stays within all arrays and gives the least sums. -/
def ExactGrid (w h : ℕ) : Prop :=
  ∀ vs src dst, Valued src (h * w) → h * w ≤ dst.length → ∀ fuel ≥ max w h + 1,
    ∃ dst' vs', edt2d fuel vs src dst w h = some (dst', vs') ∧ dst'.length = dst.length ∧
      ∀ x < w, ∀ y < h, GridNearest src w h x y (dst'.getD (y * w + x) 0)

/-- **The transform is exact** as long as the sides fit the doubling in 32 bits. -/
theorem edt_exact (hn : n ≤ 2 ^ 30) (hw : w ≤ 2 ^ 30) (hh : h ≤ 2 ^ 30) : ExactLine n ∧ ExactGrid w h := by
  refine ⟨fun f v z hvalued hv hz fuel hfuel => ?_, fun vs src dst hvalued hdst fuel hfuel =>
    edt2d_spec hvalued hw hh hfuel hdst⟩
  obtain ⟨d, v', z', hd, -, -, hlen, hnearest⟩ := edt1d_spec hvalued hn hfuel hv hz
  exact ⟨d, v', z', hd, hlen, hnearest⟩

/-- A grid of three columns and two rows. -/
theorem edt_exact_small : (3 ≤ 2 ^ 30 ∧ 2 ≤ 2 ^ 30) ∧ ExactLine 3 ∧ ExactGrid 3 2 :=
  ⟨by decide, edt_exact (by decide) (by decide) (by decide)⟩

lemma edtMeeting_none (f : List ℚ) (v : List ℤ) (k : ℤ) : edtMeeting f v (2 ^ 30) k = none := by
  have htwice : int32 (2 * toInt32 (2 ^ 30)) = none := by decide
  rw [edtMeeting, htwice]
  cases f[2 ^ 30]? with
  | none => rfl
  | some fq =>
    cases readAt v k with
    | none => rfl
    | some p =>
      simp only [Option.bind_eq_bind, Option.bind_some]
      cases readAt f p <;> rfl

lemma edtBuild_none (hq : q ≤ 2 ^ 30) (hlong : 2 ^ 30 < q + left) (stack : EdtStack) :
    edtBuild fuel f left q stack = none := by
  induction left generalizing q stack with
  | zero => omega
  | succ left ih =>
    rw [edtBuild]
    rcases Nat.lt_or_eq_of_le hq with hlt | rfl
    · cases edtPush fuel f q stack with
      | none => rfl
      | some stack' => exact ih hlt (by omega) stack'
    · rw [edtPush, edtMeeting_none]
      rfl

lemma edt1d_none (hn : 2 ^ 30 < n) (v : List ℤ) (z : List ℚ) : edt1d fuel f n v z = none := by
  rw [edt1d]
  cases writeAt v 0 0 with
  | none => rfl
  | some v =>
    cases writeAt z 0 (-kEdtInfinity) with
    | none => rfl
    | some z =>
      simp only [Option.bind_eq_bind, Option.bind_some]
      cases writeAt z 1 kEdtInfinity with
      | none => rfl
      | some z =>
        rw [Option.bind_some, edtBuild_none (by decide) (by omega)]
        rfl

/-- A row of more than a billion places: the doubled position overflows. -/
theorem not_exactGrid : ¬ ExactGrid (2 ^ 30 + 1) 1 := by
  intro h
  have hlen : (List.replicate (1 * (2 ^ 30 + 1)) (0 : ℚ)).length = 1 * (2 ^ 30 + 1) := List.length_replicate
  have hget : ∀ p, (List.replicate (1 * (2 ^ 30 + 1)) (0 : ℚ)).getD p 0 = 0 := fun p => by
    rw [List.getD_eq_getElem?_getD, List.getElem?_replicate]
    split <;> rfl
  generalize List.replicate (1 * (2 ^ 30 + 1)) (0 : ℚ) = src at hlen hget
  have hvalued : Valued src (1 * (2 ^ 30 + 1)) := by
    refine ⟨hlen.ge, fun p _ => ?_⟩
    rw [heights, hget]
    exact ⟨le_rfl, by norm_num [kEdtInfinity]⟩
  obtain ⟨dst', vs', hsome, -⟩ := h ⟨[], []⟩ src src hvalued hlen.ge _ le_rfl
  rw [edt2d, edtRows, edt1d_none (Nat.lt_succ_self _)] at hsome
  cases hsome

end PulseEngine.Font
