import PulseEngine.Library.Fallible
import PulseEngine.Library.Splice
import PulseEngine.Library.Envelope

/-!
# The distance transform

`edt_1d` and `edt_2d` of `pulse_font/src/font_atlas.cpp`, over exact numbers. A pointer into an array is what
follows it. A read or write outside of an array has no result, and neither has an `int32_t` that overflows; an
index into the two stacks is an `int32_t`, which may be negative.
-/

namespace PulseEngine.Font

open Library

def kEdtInfinity : ℚ := 10 ^ 20

def readAt {α : Type} (xs : List α) (i : ℤ) : Option α := if 0 ≤ i then xs[i.toNat]? else none

def writeAt {α : Type} (xs : List α) (i : ℤ) (x : α) : Option (List α) :=
  if 0 ≤ i ∧ i.toNat < xs.length then some (xs.set i.toNat x) else none

def toInt32 (n : ℕ) : ℤ := if n < 2 ^ 31 then n else n - 2 ^ 32

/-- The result of an operation on `int32_t`, where it does not overflow. -/
def int32 (n : ℤ) : Option ℤ := if -2 ^ 31 ≤ n ∧ n < 2 ^ 31 then some n else none

/-- The local variables of `edt_1d` and the arrays `v` and `z`. -/
structure EdtStack where
  k : ℤ
  v : List ℤ
  z : List ℚ

/-- `((f[q] + q * q) - (f[v[k]] + v[k] * v[k])) / (2 * q - 2 * v[k])`. -/
def edtMeeting (f : List ℚ) (v : List ℤ) (q : ℕ) (k : ℤ) : Option ℚ := do
  let fq ← f[q]?
  let p ← readAt v k
  let fp ← readAt f p
  let twice ← int32 (2 * toInt32 q)
  let twice' ← int32 (2 * p)
  let gap ← int32 (twice - twice')
  if gap = 0 then none else some (((fq + q * q) - (fp + p * p)) / gap)

def edtPop (f : List ℚ) (v : List ℤ) (z : List ℚ) (q : ℕ) : ℕ → ℤ → ℚ → Option (ℤ × ℚ)
  | 0, _, _ => none
  | fuel + 1, k, s => do
    let b ← readAt z k
    if s ≤ b then edtPop f v z q fuel (k - 1) (← edtMeeting f v q (k - 1)) else some (k, s)

def edtPush (fuel : ℕ) (f : List ℚ) (q : ℕ) (stack : EdtStack) : Option EdtStack := do
  let s ← edtMeeting f stack.v q stack.k
  let (k, s) ← edtPop f stack.v stack.z q fuel stack.k s
  let v ← writeAt stack.v (k + 1) (toInt32 q)
  let z ← writeAt stack.z (k + 1) s
  let z ← writeAt z (k + 1 + 1) kEdtInfinity
  return ⟨k + 1, v, z⟩

/-- The first loop of `edt_1d`, with the number of turns left. -/
def edtBuild (fuel : ℕ) (f : List ℚ) : ℕ → ℕ → EdtStack → Option EdtStack
  | 0, _, stack => some stack
  | left + 1, q, stack => do edtBuild fuel f left (q + 1) (← edtPush fuel f q stack)

def edtSeek (z : List ℚ) (q : ℕ) : ℕ → ℤ → Option ℤ
  | 0, _ => none
  | fuel + 1, k => do
    let b ← readAt z (k + 1)
    if b < q then edtSeek z q fuel (k + 1) else some k

/-- The second loop of `edt_1d`: what it writes to `d`, one after another. -/
def edtQuery (fuel : ℕ) (f : List ℚ) (v : List ℤ) (z : List ℚ) : ℕ → ℕ → ℤ → Option (List ℚ)
  | 0, _, _ => some []
  | left + 1, q, k => do
    let k ← edtSeek z q fuel k
    let p ← readAt v k
    let fp ← readAt f p
    let later ← edtQuery fuel f v z left (q + 1) k
    return ((q - p) * (q - p) + fp) :: later

def edt1d (fuel : ℕ) (f : List ℚ) (n : ℕ) (v : List ℤ) (z : List ℚ) : Option (List ℚ × List ℤ × List ℚ) := do
  let v ← writeAt v 0 0
  let z ← writeAt z 0 (-kEdtInfinity)
  let z ← writeAt z 1 kEdtInfinity
  let stack ← edtBuild fuel f (n - 1) 1 ⟨0, v, z⟩
  let d ← edtQuery fuel f stack.v stack.z n 0 0
  return (d, stack.v, stack.z)

def resize {α : Type} (xs : List α) (count : ℕ) (x : α) : List α :=
  xs.take count ++ List.replicate (count - xs.length) x

/-- The vectors of `pulse_font_plugin_state` that `edt_2d` keeps from one call to the next. -/
structure EdtVectors where
  parabola : List ℤ
  boundary : List ℚ

def writeRange {α : Type} (xs : List α) (offset : ℕ) (ys : List α) : Option (List α) :=
  if offset + ys.length ≤ xs.length then some (splice xs offset ys) else none

def edtRows (fuel : ℕ) (src : List ℚ) (w : ℕ) : ℕ → ℕ → List ℚ → EdtVectors → Option (List ℚ × EdtVectors)
  | 0, _, dst, vs => some (dst, vs)
  | left + 1, y, dst, vs => do
    let (d, v, z) ← edt1d fuel (src.drop (y * w)) w vs.parabola vs.boundary
    let dst ← writeRange dst (y * w) d
    edtRows fuel src w left (y + 1) dst ⟨v, z⟩

def readColumn (dst : List ℚ) (w h x : ℕ) : Option (List ℚ) := (List.range h).mapM fun y => dst[y * w + x]?

/-- The writes of a result to the column `x`, from the row `y` on. -/
def writeColumn (w x : ℕ) : ℕ → List ℚ → List ℚ → Option (List ℚ)
  | _, [], dst => some dst
  | y, d :: out, dst => if y * w + x < dst.length then writeColumn w x (y + 1) out (dst.set (y * w + x) d) else none

def edtColumns (fuel w h : ℕ) : ℕ → ℕ → List ℚ → EdtVectors → Option (List ℚ × EdtVectors)
  | 0, _, dst, vs => some (dst, vs)
  | left + 1, x, dst, vs => do
    let col ← readColumn dst w h x
    let (out, v, z) ← edt1d fuel col h vs.parabola vs.boundary
    let dst ← writeColumn w x 0 out dst
    edtColumns fuel w h left (x + 1) dst ⟨v, z⟩

def edt2d (fuel : ℕ) (vs : EdtVectors) (src dst : List ℚ) (w h : ℕ) : Option (List ℚ × EdtVectors) := do
  let longest := max w h
  let vs : EdtVectors := ⟨resize vs.parabola longest 0, resize vs.boundary ((longest + 1) % 2 ^ 32) 0⟩
  let (dst, vs) ← edtRows fuel src w h 0 dst vs
  edtColumns fuel w h w 0 dst vs

end PulseEngine.Font

/-!
## The distance transform is exact

The arrays of `edt_1d` hold the lower envelope of the parabolas of the positions that it has seen, so the stack
pointer stays within them, and what it reads off at each position is the least of all parabolas there.
-/

namespace PulseEngine.Font

open Library

variable {α : Type} {xs : List α} {a : α} {f : List ℚ} {n p q k top fuel : ℕ} {v : List ℤ} {z : List ℚ}
  {stack : EdtStack} {vs : ℕ → ℕ} {zs : ℕ → ℚ}

lemma readAt_natCast (xs : List α) (i : ℕ) : readAt xs i = xs[i]? := by
  rw [readAt, if_pos (Int.natCast_nonneg i), Int.toNat_natCast]

lemma writeAt_natCast {i : ℕ} (h : i < xs.length) : writeAt xs i a = some (xs.set i a) := by
  rw [writeAt, Int.toNat_natCast, if_pos ⟨Int.natCast_nonneg i, h⟩]

lemma toInt32_of_lt (h : n < 2 ^ 31) : toInt32 n = n := if_pos h

lemma int32_of_mem {n : ℤ} (h : -2 ^ 31 ≤ n) (h' : n < 2 ^ 31) : int32 n = some n := if_pos ⟨h, h'⟩

lemma getElem?_of_lt {f : List ℚ} (h : p < f.length) : f[p]? = some (f.getD p 0) := by
  rw [List.getD_eq_getElem?_getD, List.getElem?_eq_getElem h, Option.getD_some]

abbrev heights (f : List ℚ) (p : ℕ) : ℚ := f.getD p 0

structure Stacked (v : List ℤ) (z : List ℚ) (top : ℕ) (vs : ℕ → ℕ) (zs : ℕ → ℚ) : Prop where
  parabolas : ∀ i ≤ top, v[i]? = some (vs i : ℤ)
  boundaries : ∀ i ≤ top + 1, z[i]? = some (zs i)

/-- The values of `f` at the first positions. -/
structure Valued (f : List ℚ) (n : ℕ) : Prop where
  long : n ≤ f.length
  range : ∀ p < n, 0 ≤ heights f p ∧ heights f p ≤ kEdtInfinity

lemma Valued.meeting (h : Valued f n) (hn : n ≤ 2 ^ 30) (hp : p < q) (hq : q < n) :
    -kEdtInfinity < meeting (heights f) p q ∧ meeting (heights f) p q < kEdtInfinity := by
  refine meeting_bounded hp ?_ (h.range p (hp.trans hq)) (h.range q hq)
  have hcast : (q : ℚ) ≤ 2 ^ 30 := by exact_mod_cast (hq.le.trans hn)
  have hinf : (2 : ℚ) * 2 ^ 30 ≤ kEdtInfinity := by norm_num [kEdtInfinity]
  linarith

lemma edtMeeting_eq (h : Valued f n) (hn : n ≤ 2 ^ 30) (hq : q < n) (hp : p < q)
    (hread : v[k]? = some (p : ℤ)) : edtMeeting f v q k = some (meeting (heights f) p q) := by
  have htwice : int32 (2 * toInt32 q) = some (2 * (q : ℤ)) := by
    rw [toInt32_of_lt (by omega), int32_of_mem (by omega) (by omega)]
  have htwice' : int32 (2 * (p : ℤ)) = some (2 * (p : ℤ)) := int32_of_mem (by omega) (by omega)
  have hgap : int32 (2 * (q : ℤ) - 2 * p) = some (2 * (q : ℤ) - 2 * p) := int32_of_mem (by omega) (by omega)
  have hpos : (2 * (q : ℤ) - 2 * p) ≠ 0 := by omega
  have hlong := h.long
  simp only [edtMeeting, readAt_natCast, hread, getElem?_of_lt (hq.trans_le hlong),
    getElem?_of_lt ((hp.trans hq).trans_le hlong), htwice, htwice', hgap, Option.bind_eq_bind, Option.bind_some,
    if_neg hpos, meeting]
  push_cast
  rfl

lemma edtPop_spec (h : Valued f n) (hn : n ≤ 2 ^ 30) (hq : q < n) (hstack : Stacked v z top vs zs)
    (henv : Envelope (heights f) kEdtInfinity q top vs zs) (hk : k ≤ top)
    (hbeaten : Beaten (heights f) kEdtInfinity q k zs) (hfuel : k < fuel) :
    ∃ k' ≤ k, edtPop f v z q fuel k (meeting (heights f) (vs k) q) = some ((k' : ℤ), meeting (heights f) (vs k') q) ∧
      Beaten (heights f) kEdtInfinity q k' zs ∧ zs k' < meeting (heights f) (vs k') q := by
  induction fuel generalizing k with
  | zero => exact absurd hfuel (Nat.not_lt_zero k)
  | succ fuel ih =>
    rw [edtPop, readAt_natCast, hstack.boundaries k (by omega), Option.bind_eq_bind, Option.bind_some]
    by_cases hle : meeting (heights f) (vs k) q ≤ zs k
    · rw [if_pos hle]
      cases k with
      | zero =>
        -- The sentinel is below every meeting.
        rw [henv.first] at hle
        exact absurd hle (not_le.mpr (h.meeting hn (henv.front 0 hk) hq).1)
      | succ k =>
        have hcast : ((k + 1 : ℕ) : ℤ) - 1 = k := by omega
        rw [hcast, edtMeeting_eq h hn hq (henv.front k (by omega)) (hstack.parabolas k (by omega))]
        obtain ⟨k', hk', hpop⟩ := ih (k := k) (by omega) (henv.beaten_pop hk hbeaten hle) (by omega)
        exact ⟨k', hk'.trans (Nat.le_succ k), hpop⟩
    · rw [if_neg hle]
      exact ⟨k, le_rfl, rfl, hbeaten, lt_of_not_ge hle⟩

/-- The arrays hold the envelope of the positions in front of `q`. -/
def Built (f : List ℚ) (q : ℕ) (stack : EdtStack) : Prop :=
  ∃ (top : ℕ) (vs : ℕ → ℕ) (zs : ℕ → ℚ), stack.k = top ∧ top < q ∧ Stacked stack.v stack.z top vs zs ∧
    Envelope (heights f) kEdtInfinity q top vs zs

structure SameLength (stack stack' : EdtStack) : Prop where
  parabolas : stack'.v.length = stack.v.length
  boundaries : stack'.z.length = stack.z.length

lemma edtPush_spec (h : Valued f n) (hn : n ≤ 2 ^ 30) (hq : q < n) (hbuilt : Built f q stack)
    (hv : n ≤ stack.v.length) (hz : n + 1 ≤ stack.z.length) (hfuel : n ≤ fuel) :
    ∃ stack', edtPush fuel f q stack = some stack' ∧ Built f (q + 1) stack' ∧ SameLength stack stack' := by
  obtain ⟨top, vs, zs, htop, hlt, hstack, henv⟩ := hbuilt
  obtain ⟨k, hk, hpop, hbeaten, hmeet⟩ := edtPop_spec h hn hq hstack henv le_rfl henv.beaten_top
    (show top < fuel by omega)
  have hfirst := edtMeeting_eq h hn hq (henv.front top le_rfl) (hstack.parabolas top le_rfl)
  have hcast : (k : ℤ) + 1 = (k + 1 : ℕ) := by omega
  have hcast' : ((k + 1 : ℕ) : ℤ) + 1 = (k + 2 : ℕ) := by omega
  refine ⟨⟨(k + 1 : ℕ), stack.v.set (k + 1) q,
    (stack.z.set (k + 1) (meeting (heights f) (vs k) q)).set (k + 2) kEdtInfinity⟩, ?_, ?_, ?_⟩
  · simp only [edtPush, htop, hfirst, hpop, Option.bind_eq_bind, Option.bind_some, hcast, hcast',
      toInt32_of_lt (show q < 2 ^ 31 by omega)]
    rw [writeAt_natCast (by omega), Option.bind_some, writeAt_natCast (by omega), Option.bind_some,
      writeAt_natCast (by rw [List.length_set]; omega), Option.bind_some]
    rfl
  · refine ⟨k + 1, fun i => if i = k + 1 then q else vs i,
      fun i => if i = k + 2 then kEdtInfinity else if i = k + 1 then meeting (heights f) (vs k) q else zs i,
      rfl, by omega, ⟨fun i hi => ?_, fun i hi => ?_⟩, ?_⟩
    · rw [List.getElem?_set]
      by_cases hlast : i = k + 1
      · rw [if_pos hlast.symm, if_pos hlast, if_pos (by omega)]
      · rw [if_neg (Ne.symm hlast), if_neg hlast]
        exact hstack.parabolas i (by omega)
    · rw [List.getElem?_set, List.getElem?_set]
      by_cases hlast : i = k + 2
      · rw [if_pos hlast.symm, if_pos hlast, if_pos (by rw [List.length_set]; omega)]
      · rw [if_neg (Ne.symm hlast), if_neg hlast]
        by_cases hnew : i = k + 1
        · rw [if_pos hnew.symm, if_pos hnew, if_pos (by omega)]
        · rw [if_neg (Ne.symm hnew), if_neg hnew]
          exact hstack.boundaries i (by omega)
    · refine henv.push hk hbeaten hmeet (h.meeting hn (henv.front k hk) hq).2 (fun i hi => ?_) (fun i hi => ?_)
        (if_pos rfl) ?_ (if_pos rfl)
      · exact if_neg (by omega)
      · rw [if_neg (by omega), if_neg (by omega)]
      · rw [if_neg (by omega), if_pos rfl]
  · exact ⟨List.length_set, by rw [List.length_set, List.length_set]⟩

lemma edtBuild_spec (h : Valued f n) (hn : n ≤ 2 ^ 30) (hfuel : n ≤ fuel) (left : ℕ) (hq : q + left ≤ n)
    (hbuilt : Built f q stack) (hv : n ≤ stack.v.length) (hz : n + 1 ≤ stack.z.length) :
    ∃ stack', edtBuild fuel f left q stack = some stack' ∧ Built f (q + left) stack' ∧
      SameLength stack stack' := by
  induction left generalizing q stack with
  | zero => exact ⟨stack, rfl, hbuilt, rfl, rfl⟩
  | succ left ih =>
    obtain ⟨stack', hpush, hbuilt', hsame⟩ := edtPush_spec h hn (by omega) hbuilt hv hz hfuel
    obtain ⟨stack'', hrest, hbuilt'', hsame'⟩ := ih (q := q + 1) (by omega) hbuilt'
      (hsame.parabolas.symm ▸ hv) (hsame.boundaries.symm ▸ hz)
    refine ⟨stack'', ?_, ?_, hsame'.parabolas.trans hsame.parabolas, hsame'.boundaries.trans hsame.boundaries⟩
    · rw [edtBuild, hpush]
      exact hrest
    · rwa [Nat.add_right_comm] at hbuilt''

def Nearest (f : List ℚ) (n q : ℕ) (m : ℚ) : Prop :=
  IsLeast {d | ∃ p < n, d = ((q : ℚ) - p) ^ 2 + f.getD p 0} m

lemma edtSeek_spec (hstack : Stacked v z top vs zs) (henv : Envelope (heights f) kEdtInfinity n top vs zs)
    (hq : (q : ℚ) < kEdtInfinity) (hk : k ≤ top) (hleft : zs k ≤ q) (hfuel : top < k + fuel) :
    ∃ k' ≤ top, edtSeek z q fuel k = some (k' : ℤ) ∧ zs k' ≤ q ∧ (q : ℚ) ≤ zs (k' + 1) := by
  induction fuel generalizing k with
  | zero => omega
  | succ fuel ih =>
    have hcast : (k : ℤ) + 1 = (k + 1 : ℕ) := by omega
    rw [edtSeek, hcast, readAt_natCast, hstack.boundaries (k + 1) (by omega), Option.bind_eq_bind, Option.bind_some]
    by_cases hlt : zs (k + 1) < q
    · rw [if_pos hlt]
      have hnext : k + 1 ≤ top := by
        by_contra hno
        obtain rfl : k = top := by omega
        rw [henv.last] at hlt
        exact absurd hlt (not_lt.mpr hq.le)
      exact ih hnext hlt.le (by omega)
    · rw [if_neg hlt]
      exact ⟨k, hk, rfl, hleft, not_lt.mp hlt⟩

lemma edtQuery_spec (h : Valued f n) (hn : n ≤ 2 ^ 30) (hstack : Stacked v z top vs zs)
    (henv : Envelope (heights f) kEdtInfinity n top vs zs) (hfuel : top < fuel) (left : ℕ) (hq : q + left ≤ n)
    (hk : k ≤ top) (hleft : zs k ≤ q) :
    ∃ d, edtQuery fuel f v z left q k = some d ∧ d.length = left ∧
      ∀ i < left, Nearest f n (q + i) (d.getD i 0) := by
  induction left generalizing q k with
  | zero => exact ⟨[], rfl, rfl, nofun⟩
  | succ left ih =>
    have hinf : (q : ℚ) < kEdtInfinity := by
      have hcast : (q : ℚ) ≤ 2 ^ 30 := by exact_mod_cast (by omega : q ≤ 2 ^ 30)
      have hlarge : (2 : ℚ) ^ 30 < kEdtInfinity := by norm_num [kEdtInfinity]
      linarith
    obtain ⟨k', hk', hseek, hzle, hzge⟩ := edtSeek_spec hstack henv hinf hk hleft (show top < k + fuel by omega)
    obtain ⟨d, hd, hlen, hleast⟩ := ih (q := q + 1) (k := k') (by omega) hk'
      (hzle.trans (by exact_mod_cast Nat.le_succ q))
    have hfront := henv.front k' hk'
    refine ⟨(((q : ℚ) - vs k') * (q - vs k') + heights f (vs k')) :: d, ?_, by rw [List.length_cons, hlen], ?_⟩
    · rw [edtQuery, hseek]
      simp only [Option.bind_eq_bind, Option.bind_some, readAt_natCast, hstack.parabolas k' hk',
        getElem?_of_lt (hfront.trans_le h.long), hd]
      push_cast
      rfl
    · intro i hi
      cases i with
      | zero =>
        refine ⟨⟨vs k', hfront, ?_⟩, ?_⟩
        · rw [List.getD_cons_zero, Nat.add_zero, sq]
        · rintro _ ⟨p, hp, rfl⟩
          have hlow := henv.lowest k' hk' q hzle hzge hinf p hp
          rw [parabola, parabola] at hlow
          rw [List.getD_cons_zero, Nat.add_zero, ← sq]
          exact hlow
      | succ i =>
        rw [List.getD_cons_succ, ← Nat.add_assoc, Nat.add_right_comm]
        exact hleast i (by omega)

lemma edt1d_spec (h : Valued f n) (hn : n ≤ 2 ^ 30) (hfuel : n + 1 ≤ fuel) (hv : 1 ≤ v.length ∧ n ≤ v.length)
    (hz : 2 ≤ z.length ∧ n + 1 ≤ z.length) :
    ∃ d v' z', edt1d fuel f n v z = some (d, v', z') ∧ v'.length = v.length ∧ z'.length = z.length ∧
      d.length = n ∧ ∀ q < n, Nearest f n q (d.getD q 0) := by
  have hinit : edt1d fuel f n v z = do
      let stack ← edtBuild fuel f (n - 1) 1
        ⟨0, v.set 0 0, (z.set 0 (-kEdtInfinity)).set 1 kEdtInfinity⟩
      let d ← edtQuery fuel f stack.v stack.z n 0 0
      return (d, stack.v, stack.z) := by
    have hv0 : writeAt v 0 0 = some (v.set 0 0) := writeAt_natCast (i := 0) (by omega)
    have hz0 : writeAt z 0 (-kEdtInfinity) = some (z.set 0 (-kEdtInfinity)) := writeAt_natCast (i := 0) (by omega)
    have hz1 : writeAt (z.set 0 (-kEdtInfinity)) 1 kEdtInfinity =
        some ((z.set 0 (-kEdtInfinity)).set 1 kEdtInfinity) :=
      writeAt_natCast (i := 1) (by rw [List.length_set]; omega)
    rw [edt1d, hv0]
    simp only [Option.bind_eq_bind, Option.bind_some, hz0, hz1]
  rw [hinit]
  cases n with
  | zero =>
    exact ⟨[], _, _, rfl, List.length_set, by rw [List.length_set, List.length_set], rfl, nofun⟩
  | succ n =>
    have hbuilt : Built f 1 ⟨0, v.set 0 0, (z.set 0 (-kEdtInfinity)).set 1 kEdtInfinity⟩ := by
      refine ⟨0, fun _ => 0, fun i => if i = 1 then kEdtInfinity else -kEdtInfinity, rfl, Nat.one_pos,
        ⟨fun i hi => ?_, fun i hi => ?_⟩, ?_⟩
      · obtain rfl := Nat.le_zero.mp hi
        rw [List.getElem?_set_self (by omega)]
        rfl
      · rcases Nat.le_one_iff_eq_zero_or_eq_one.mp hi with rfl | rfl
        · rw [List.getElem?_set_ne (by decide), List.getElem?_set_self (by omega)]
          rfl
        · rw [List.getElem?_set_self (by rw [List.length_set]; omega)]
          rfl
      · exact .single (by norm_num [kEdtInfinity]) rfl rfl rfl
    obtain ⟨stack, hbuild, ⟨top, vs, zs, -, htop, hstack, henv⟩, hsame⟩ :=
      edtBuild_spec h hn (show n + 1 ≤ fuel by omega) n (by omega) hbuilt (by rw [List.length_set]; omega)
        (by rw [List.length_set, List.length_set]; omega)
    rw [Nat.add_comm 1 n] at htop henv
    obtain ⟨d, hquery, hlen, hleast⟩ := edtQuery_spec h hn hstack henv (show top < fuel by omega) (q := 0) (k := 0)
      (n + 1) (by omega) (Nat.zero_le top) (by rw [henv.first]; norm_num [kEdtInfinity])
    refine ⟨d, stack.v, stack.z, ?_, ?_, ?_, hlen, fun q hq => ?_⟩
    · rw [Nat.add_sub_cancel, hbuild]
      simp only [Option.bind_eq_bind, Option.bind_some]
      rw [Nat.cast_zero] at hquery
      rw [hquery]
      rfl
    · rw [hsame.parabolas, List.length_set]
    · rw [hsame.boundaries, List.length_set, List.length_set]
    · have hq := hleast q hq
      rwa [Nat.zero_add] at hq

end PulseEngine.Font
