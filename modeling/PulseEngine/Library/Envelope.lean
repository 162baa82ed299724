import Mathlib.Tactic

/-!
# Lower envelopes of parabolas

Parabolas of one width stand above the natural numbers. Two of them meet once, so the lowest of some of them
changes from left to right only to one that stands further right: a stack of positions and of boundaries between
them describes the lowest one at every point. A new parabola on the right beats those at the top of the stack
whose parts it covers, and takes over from the first one that it does not.
-/

namespace PulseEngine.Library

variable {K : Type*} [Field K] [LinearOrder K] [IsStrictOrderedRing K] {f : ℕ → K} {inf x s : K}
  {p q k top i : ℕ} {v : ℕ → ℕ} {z : ℕ → K}

def parabola (f : ℕ → K) (p : ℕ) (x : K) : K := (x - p) ^ 2 + f p

def meeting (f : ℕ → K) (p q : ℕ) : K := ((f q + q * q) - (f p + p * p)) / (2 * q - 2 * p)

lemma gap_pos (h : p < q) : (0 : K) < 2 * q - 2 * p := by
  have hcast : (p : K) < q := Nat.cast_lt.mpr h
  linarith

lemma meeting_le_iff (h : p < q) : meeting f p q ≤ x ↔ parabola f q x ≤ parabola f p x := by
  rw [meeting, div_le_iff₀ (gap_pos h), parabola, parabola]
  constructor <;> intro hle <;> linarith

lemma le_meeting_iff (h : p < q) : x ≤ meeting f p q ↔ parabola f p x ≤ parabola f q x := by
  rw [meeting, le_div_iff₀ (gap_pos h), parabola, parabola]
  constructor <;> intro hle <;> linarith

lemma meeting_bounded (h : p < q) (hinf : 2 * (q : K) ≤ inf) (hp : 0 ≤ f p ∧ f p ≤ inf)
    (hq : 0 ≤ f q ∧ f q ≤ inf) : -inf < meeting f p q ∧ meeting f p q < inf := by
  have hcast : (p : K) + 1 ≤ q := by exact_mod_cast h
  have hp0 : (0 : K) ≤ p := Nat.cast_nonneg p
  have hgap := gap_pos (K := K) h
  -- A gap of one or more takes the difference of the heights below the bound, the squares are small.
  have hsquares : (q : K) * q - p * p < (q - p) * inf := by
    nlinarith
  have hgrow : inf ≤ (q - p) * inf := by
    nlinarith
  constructor
  · rw [meeting, lt_div_iff₀ hgap]
    nlinarith
  · rw [meeting, div_lt_iff₀ hgap]
    nlinarith

structure Envelope (f : ℕ → K) (inf : K) (q k : ℕ) (v : ℕ → ℕ) (z : ℕ → K) : Prop where
  front : ∀ i ≤ k, v i < q
  first : z 0 = -inf
  last : z (k + 1) = inf
  mono : ∀ i j, i ≤ j → j ≤ k → z i ≤ z j
  bounded : ∀ i ≤ k, z i < inf
  lowest : ∀ i ≤ k, ∀ x, z i ≤ x → x ≤ z (i + 1) → x < inf → ∀ p < q, parabola f (v i) x ≤ parabola f p x

def Beaten (f : ℕ → K) (inf : K) (q k : ℕ) (z : ℕ → K) : Prop :=
  ∀ x, z (k + 1) ≤ x → x < inf → ∀ p < q, parabola f q x ≤ parabola f p x

namespace Envelope

lemma single (hinf : 0 < inf) (hv : v 0 = 0) (hfirst : z 0 = -inf) (hlast : z 1 = inf) :
    Envelope f inf 1 0 v z where
  front i hi := by rw [Nat.le_zero.mp hi, hv]; exact Nat.one_pos
  first := hfirst
  last := hlast
  mono i j hij hj := by rw [Nat.le_zero.mp (hij.trans hj), Nat.le_zero.mp hj]
  bounded i hi := by rw [Nat.le_zero.mp hi, hfirst]; linarith
  lowest i hi x _ _ _ p hp := by rw [Nat.le_zero.mp hi, hv, Nat.lt_one_iff.mp hp]

omit [IsStrictOrderedRing K] in
lemma beaten_top (h : Envelope f inf q k v z) : Beaten f inf q k z :=
  fun _ hx hlt => absurd (h.last ▸ hx) (not_le.mpr hlt)

lemma beaten_pop (h : Envelope f inf q top v z) (hk : k + 1 ≤ top) (hbeaten : Beaten f inf q (k + 1) z)
    (hle : meeting f (v (k + 1)) q ≤ z (k + 1)) : Beaten f inf q k z := by
  intro x hx hlt p hp
  rcases le_total (z (k + 2)) x with hright | hleft
  · exact hbeaten x hright hlt p hp
  · have hlower := (meeting_le_iff (h.front _ hk)).mp (hle.trans hx)
    exact hlower.trans (h.lowest _ hk x hx hleft hlt p hp)

/-- **Push**: the new parabola takes over where it meets the first one that it does not cover. -/
lemma push (h : Envelope f inf q top v z) (hk : k ≤ top) (hbeaten : Beaten f inf q k z)
    (hlt : z k < meeting f (v k) q) (hinf : meeting f (v k) q < inf) {v' : ℕ → ℕ} {z' : ℕ → K}
    (hv : ∀ i ≤ k, v' i = v i) (hz : ∀ i ≤ k, z' i = z i) (hv' : v' (k + 1) = q)
    (hz' : z' (k + 1) = meeting f (v k) q) (hlast : z' (k + 2) = inf) : Envelope f inf (q + 1) (k + 1) v' z' := by
  have hfront := h.front k hk
  -- The new boundary is not behind the old one.
  have hend : meeting f (v k) q ≤ z (k + 1) := by
    by_contra hno
    have hless := lt_of_not_ge hno
    exact absurd ((meeting_le_iff hfront).mpr (hbeaten _ le_rfl (hless.trans hinf) _ hfront)) hno
  have hbelow : ∀ i ≤ k, z' i < meeting f (v k) q := fun i hi => by
    rw [hz i hi]
    exact lt_of_le_of_lt (h.mono i k hi hk) hlt
  refine ⟨fun i hi => ?_, by rw [hz 0 (Nat.zero_le k), h.first], hlast, fun i j hij hj => ?_, fun i hi => ?_,
    fun i hi x hx hnext hxinf p hp => ?_⟩
  · rcases Nat.le_succ_iff.mp hi with hi | rfl
    · rw [hv i hi]
      exact (h.front i (hi.trans hk)).trans (Nat.lt_succ_self q)
    · rw [hv']
      exact Nat.lt_succ_self q
  · rcases Nat.le_succ_iff.mp hj with hj | rfl
    · rw [hz i (hij.trans hj), hz j hj]
      exact h.mono i j hij (hj.trans hk)
    · rcases Nat.le_succ_iff.mp hij with hi | rfl
      · rw [hz']
        exact (hbelow i hi).le
      · exact le_rfl
  · rcases Nat.le_succ_iff.mp hi with hi | rfl
    · exact (hbelow i hi).trans hinf
    · rwa [hz']
  · rcases Nat.le_succ_iff.mp hi with hi | rfl
    · rw [hz i hi] at hx
      rw [hv i hi]
      -- On the parts that stay, the new parabola is above the one that it meets.
      have hstay : x ≤ meeting f (v k) q ∧ x ≤ z (i + 1) := by
        rcases Nat.lt_or_eq_of_le hi with hik | rfl
        · rw [hz (i + 1) hik] at hnext
          exact ⟨hnext.trans ((h.mono (i + 1) k hik hk).trans hlt.le), hnext⟩
        · rw [hz'] at hnext
          exact ⟨hnext, hnext.trans hend⟩
      have hlowest := h.lowest i (hi.trans hk) x hx hstay.2 hxinf
      rcases Nat.lt_succ_iff_lt_or_eq.mp hp with hp | rfl
      · exact hlowest p hp
      · exact (hlowest (v k) hfront).trans ((le_meeting_iff hfront).mp hstay.1)
    · rw [hz'] at hx
      rw [hv']
      rcases Nat.lt_succ_iff_lt_or_eq.mp hp with hp | rfl
      · rcases le_total (z (k + 1)) x with hright | hleft
        · exact hbeaten x hright hxinf p hp
        · have hlower := (meeting_le_iff hfront).mp hx
          exact hlower.trans (h.lowest k hk x (hlt.le.trans hx) hleft hxinf p hp)
      · exact le_rfl

end Envelope

end PulseEngine.Library
