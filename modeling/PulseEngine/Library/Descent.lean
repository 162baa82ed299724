import Mathlib.Logic.Relation
import Mathlib.Data.Set.Finite.Basic
import Mathlib.Order.WellFounded
import Mathlib.Tactic
import Mathlib.Data.Finset.Card

/-!
# Properties of everything below

For a relation that leads from a thing to its parts: a property of a thing and of all of its parts,
of their parts and so on, and of the parts only. Both unfold along the relation, which is how a
recursive traversal is compared with them.
-/

namespace PulseEngine.Library

variable {α : Type*} {step : α → α → Prop} {P Q : α → Prop} {a b : α}

/-- The property holds of `a` and of everything below it. -/
def Always (step : α → α → Prop) (P : α → Prop) (a : α) : Prop :=
  ∀ b, Relation.ReflTransGen step a b → P b

def Below (step : α → α → Prop) (P : α → Prop) (a : α) : Prop :=
  ∀ b, Relation.TransGen step a b → P b

lemma always_iff : Always step P a ↔ P a ∧ ∀ b, step a b → Always step P b := by
  refine ⟨fun h => ⟨h a .refl, fun b hb c hc => h c (.head hb hc)⟩, ?_⟩
  rintro ⟨ha, h⟩ c hc
  cases Relation.ReflTransGen.cases_head_iff.mp hc with
  | inl he => exact he ▸ ha
  | inr hb =>
    obtain ⟨b, hb, hc⟩ := hb
    exact h b hb c hc

lemma below_iff : Below step P a ↔ ∀ b, step a b → Always step P b := by
  constructor
  · intro h b hb c hc
    exact h c (Relation.TransGen.head'_iff.mpr ⟨b, hb, hc⟩)
  · intro h c hc
    obtain ⟨b, hb, hc⟩ := Relation.TransGen.head'_iff.mp hc
    exact h b hb c hc

lemma always_iff_below : Always step P a ↔ P a ∧ Below step P a := by
  rw [always_iff, below_iff]

lemma always_and : Always step (fun b => P b ∧ Q b) a ↔ Always step P a ∧ Always step Q a :=
  ⟨fun h => ⟨fun b hb => (h b hb).1, fun b hb => (h b hb).2⟩,
    fun h b hb => ⟨h.1 b hb, h.2 b hb⟩⟩

lemma Always.imp (h : Always step P a) (imp : ∀ b, P b → Q b) : Always step Q a :=
  fun b hb => imp b (h b hb)

lemma Always.below (h : Always step P a) : Below step P a :=
  fun b hb => h b hb.to_reflTransGen

lemma always_congr {I : α → Prop} (closed : ∀ a b, I a → step a b → I b)
    (agree : ∀ a, I a → (P a ↔ Q a)) (ha : I a) : Always step P a ↔ Always step Q a := by
  have hinv : ∀ b, Relation.ReflTransGen step a b → I b := by
    intro b hb
    induction hb with
    | refl => exact ha
    | tail _ hstep ih => exact closed _ _ ih hstep
  exact forall₂_congr fun b hb => agree b (hinv b hb)

lemma always_map {β : Type*} {step' : β → β → Prop} {P' : β → Prop} {f : α → β} {I : α → Prop}
    (closed : ∀ a b, I a → step a b → I b)
    (steps : ∀ a, I a → ∀ c, step' (f a) c ↔ ∃ b, step a b ∧ c = f b) (ha : I a) :
    Always step' P' (f a) ↔ Always step (fun b => P' (f b)) a := by
  constructor
  · intro h b hb
    refine h (f b) ?_
    have hboth : Relation.ReflTransGen step' (f a) (f b) ∧ I b := by
      induction hb with
      | refl => exact ⟨.refl, ha⟩
      | tail _ hstep ih => exact ⟨.tail ih.1 ((steps _ ih.2 _).mpr ⟨_, hstep, rfl⟩), closed _ _ ih.2 hstep⟩
    exact hboth.1
  · intro h c hc
    have hex : ∃ b, Relation.ReflTransGen step a b ∧ c = f b ∧ I b := by
      induction hc with
      | refl => exact ⟨a, .refl, rfl, ha⟩
      | tail _ hstep ih =>
        obtain ⟨b, hb, rfl, hi⟩ := ih
        obtain ⟨b', hb', rfl⟩ := (steps b hi _).mp hstep
        exact ⟨b', .tail hb hb', rfl, closed b b' hi hb'⟩
    obtain ⟨b, hb, rfl, -⟩ := hex
    exact h b hb

end PulseEngine.Library

/-!
## Circular waiting

A relation in which everything of a finite set leads to something of the set goes in a circle there.
-/

namespace PulseEngine.Library

variable {α : Type*} {waits : α → α → Prop}

def Circular (waits : α → α → Prop) : Prop := ∃ a, Relation.TransGen waits a a

/-- If everything of a finite set waits for something of the set, something waits for itself. -/
theorem circular_of_waits {s : Set α} (finite : s.Finite) (nonempty : s.Nonempty)
    (h : ∀ a ∈ s, ∃ b ∈ s, waits a b) : Circular waits := by
  by_contra hnot
  -- without circles, waiting is well-founded on the set, so something waits for nothing
  let below : s → s → Prop := fun a b => Relation.TransGen waits b a
  have irrefl : Std.Irrefl below := ⟨fun a ha => hnot ⟨a, ha⟩⟩
  have trans : IsTrans s below := ⟨fun _ _ _ hab hbc => hbc.trans hab⟩
  have : Finite s := finite
  obtain ⟨a₀, ha₀⟩ := nonempty
  obtain ⟨a, -, hmin⟩ := (Finite.wellFounded_of_trans_of_irrefl below).has_min Set.univ
    ⟨⟨a₀, ha₀⟩, trivial⟩
  obtain ⟨b, hb, hwaits⟩ := h a a.2
  exact hmin ⟨b, hb⟩ trivial (.single hwaits)

theorem circle_within {s : Set α} (finite : s.Finite) (nonempty : s.Nonempty)
    (h : ∀ a ∈ s, ∃ b ∈ s, waits a b) : ∃ a ∈ s, Relation.TransGen waits a a := by
  obtain ⟨a, circle⟩ : Circular fun a b => a ∈ s ∧ waits a b := by
    refine circular_of_waits finite nonempty fun a ha => ?_
    obtain ⟨b, hb, hwaits⟩ := h a ha
    exact ⟨b, hb, ha, hwaits⟩
  obtain ⟨_, first, _⟩ := Relation.TransGen.head'_iff.mp circle
  exact ⟨a, first.1, circle.lift id fun _ _ hwaits => hwaits.2⟩

lemma Circular.map {β : Type*} {waits' : β → β → Prop} (f : α → β) (h : Circular waits)
    (sub : ∀ a b, waits a b → waits' (f a) (f b)) : Circular waits' := by
  obtain ⟨a, ha⟩ := h
  exact ⟨f a, ha.lift f sub⟩

end PulseEngine.Library

/-!
## Walks along a partial function

A partial function leads from a thing to at most one other. A walk along it ends within as many steps as
there are things, unless it goes round a circle.
-/

namespace PulseEngine.Library

variable {α : Type*} {next : α → Option α} {a b : α}

def LeadsTo (next : α → Option α) (a b : α) : Prop := next a = some b

def endsWithin (next : α → Option α) : ℕ → Option α → Bool
  | _, none => true
  | 0, some _ => false
  | steps + 1, some a => endsWithin next steps (next a)

lemma not_circle_of_endsWithin : ∀ {steps : ℕ} {a : α}, endsWithin next steps (some a) = true →
    ¬ Relation.TransGen (LeadsTo next) a a := by
  intro steps
  induction steps with
  | zero => exact fun h => nomatch h
  | succ steps ih =>
    intro a h circle
    obtain ⟨b, hb, back⟩ := Relation.TransGen.head'_iff.mp circle
    have h : endsWithin next steps (next a) = true := h
    rw [show next a = some b from hb] at h
    exact ih h (Relation.TransGen.tail' back hb)

lemma acc_of_endsWithin : ∀ {steps : ℕ} {a : α}, endsWithin next steps (some a) = true →
    Acc (fun b a => LeadsTo next a b) a := by
  intro steps
  induction steps with
  | zero => exact fun h => nomatch h
  | succ steps ih =>
    intro a h
    refine Acc.intro a fun b hb => ih ?_
    have h : endsWithin next steps (next a) = true := h
    rwa [show next a = some b from hb] at h

lemma endsWithin_of_not_circle [DecidableEq α] {s : Finset α}
    (acyclic : ∀ a, ¬ Relation.TransGen (LeadsTo next) a a) : ∀ {steps : ℕ} {visited : Finset α} {a : α},
      (∀ c, Relation.ReflTransGen (LeadsTo next) a c → c ∈ s \ visited) → (s \ visited).card ≤ steps →
        endsWithin next steps (some a) = true := by
  intro steps
  induction steps with
  | zero =>
    intro visited a reach le
    have ha := reach a .refl
    rw [Finset.card_eq_zero.mp (Nat.le_zero.mp le)] at ha
    exact absurd ha (Finset.notMem_empty a)
  | succ steps ih =>
    intro visited a reach le
    change endsWithin next steps (next a) = true
    cases hb : next a with
    | none => cases steps <;> rfl
    | some b =>
      refine @ih (insert a visited) b (fun c hc => ?_) ?_
      · have hs := Finset.mem_sdiff.mp (reach c (.head hb hc))
        refine Finset.mem_sdiff.mpr ⟨hs.1, fun hin => ?_⟩
        rcases Finset.mem_insert.mp hin with rfl | hin
        · exact acyclic c (Relation.TransGen.head' hb hc)
        · exact hs.2 hin
      · have less := Finset.card_erase_lt_of_mem (reach a .refl)
        rw [Finset.sdiff_insert]
        omega

/-- **Walks in a finite set.** All walks end within as many steps as there are things if and only if the
function leads round no circle. -/
theorem endsWithin_iff [DecidableEq α] {s : Finset α} (closed : ∀ a ∈ s, ∀ b, LeadsTo next a b → b ∈ s)
    (inside : ∀ a b, LeadsTo next a b → a ∈ s) :
    (∀ a ∈ s, endsWithin next s.card (some a) = true) ↔
      ¬ ∃ a, Relation.TransGen (LeadsTo next) a a := by
  constructor
  · rintro h ⟨a, circle⟩
    obtain ⟨b, hb, -⟩ := Relation.TransGen.head'_iff.mp circle
    exact not_circle_of_endsWithin (h a (inside a b hb)) circle
  · intro acyclic a ha
    refine @endsWithin_of_not_circle _ _ _ s (fun a h => acyclic ⟨a, h⟩) _ ∅ _ (fun c hc => ?_) ?_
    · rw [Finset.sdiff_empty]
      induction hc with
      | refl => exact ha
      | tail _ hstep ih => exact closed _ ih _ hstep
    · rw [Finset.sdiff_empty]

end PulseEngine.Library
