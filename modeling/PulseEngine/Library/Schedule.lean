import PulseEngine.Library.Descent

/-!
# Scheduling by needs

Every item has needs. A need is given, or it is provided by items, of which one that provides it is enough.
An order of items is a schedule when the needs of each item are given or provided by an item before it. What
can be in a schedule at all is the least set closed under "all needs are given or provided from the set", and
it is everything exactly when providers can be chosen without a circle.
-/

namespace PulseEngine.Library

structure Demands (α ν : Type*) where
  items : Set α
  needs : α → List ν
  given : ν → Prop
  provides : α → ν → Prop

namespace Demands

variable {α ν : Type*} (D : Demands α ν)

inductive Orderable : α → Prop where
  | intro {a : α} (provider : ν → α) (mem : a ∈ D.items)
      (provided : ∀ d ∈ D.needs a, ¬ D.given d → D.provides (provider d) d)
      (below : ∀ d ∈ D.needs a, ¬ D.given d → Orderable (provider d)) : Orderable a

def Ready (order : List α) (a : α) : Prop :=
  ∀ d ∈ D.needs a, D.given d ∨ ∃ b ∈ order, D.provides b d

def Scheduled (order : List α) : Prop := ∀ pre a, pre ++ [a] <+: order → D.Ready pre a

def Resolves (choice : α → ν → α) : Prop :=
  ∀ a ∈ D.items, ∀ d ∈ D.needs a, ¬ D.given d → choice a d ∈ D.items ∧ D.provides (choice a d) d

def Uses (choice : α → ν → α) (a b : α) : Prop :=
  a ∈ D.items ∧ ∃ d ∈ D.needs a, ¬ D.given d ∧ choice a d = b

def ClosedAcyclic : Prop :=
  ∃ choice, D.Resolves choice ∧ ∀ a, ¬ Relation.TransGen (D.Uses choice) a a

variable {D} {order : List α} {a : α}

lemma Orderable.mem (h : D.Orderable a) : a ∈ D.items := by
  cases h with
  | intro _ mem _ _ => exact mem

lemma scheduled_nil : D.Scheduled [] := fun _ _ h =>
  absurd (List.prefix_nil.mp h) (List.append_ne_nil_of_right_ne_nil _ (List.cons_ne_nil _ _))

lemma Scheduled.snoc (h : D.Scheduled order) (ready : D.Ready order a) : D.Scheduled (order ++ [a]) := by
  intro pre b hpre
  rcases List.prefix_concat_iff.mp hpre with e | hpre
  · obtain ⟨rfl, last⟩ := List.append_inj' e rfl
    obtain rfl := List.head_eq_of_cons_eq last
    exact ready
  · exact h pre b hpre

lemma Scheduled.orderable : ∀ {order : List α}, D.Scheduled order → (∀ a ∈ order, a ∈ D.items) →
    ∀ a ∈ order, D.Orderable a := by
  intro order
  induction order using List.reverseRecOn with
  | nil => exact fun _ _ _ ha => absurd ha List.not_mem_nil
  | append_singleton order x ih =>
    intro h mem a ha
    have before := ih (fun pre b hpre => h pre b (hpre.trans (List.prefix_append _ _)))
      fun b hb => mem b (List.mem_append_left _ hb)
    rcases List.mem_append.mp ha with ha | ha
    · exact before a ha
    · obtain rfl := List.mem_singleton.mp ha
      have ready := h order a List.prefix_rfl
      have provider : ∀ d, ∃ b, d ∈ D.needs a → ¬ D.given d → b ∈ order ∧ D.provides b d := by
        intro d
        rcases em (∃ b ∈ order, D.provides b d) with ⟨b, hb, provides⟩ | none
        · exact ⟨b, fun _ _ => ⟨hb, provides⟩⟩
        · exact ⟨a, fun hd hgiven => absurd ((ready d hd).resolve_left hgiven) none⟩
      obtain ⟨provider, hprovider⟩ := Classical.axiomOfChoice provider
      exact .intro provider (mem a (List.mem_append_right _ (List.mem_singleton_self a)))
        (fun d hd hgiven => (hprovider d hd hgiven).2)
        fun d hd hgiven => before _ (hprovider d hd hgiven).1

lemma Orderable.mem_of_stuck (stuck : ∀ a ∈ D.items, a ∉ order → ¬ D.Ready order a)
    (h : D.Orderable a) : a ∈ order := by
  induction h with
  | intro provider mem provided _ ih =>
    by_contra out
    refine stuck _ mem out fun d hd => ?_
    rcases em (D.given d) with hgiven | hgiven
    · exact Or.inl hgiven
    · exact Or.inr ⟨provider d, ih d hd hgiven, provided d hd hgiven⟩

lemma Scheduled.closedAcyclic [DecidableEq α] (h : D.Scheduled order) (all : ∀ a, a ∈ order ↔ a ∈ D.items) :
    D.ClosedAcyclic := by
  have earlier : ∀ a d, ∃ b, a ∈ D.items → d ∈ D.needs a → ¬ D.given d →
      b ∈ order ∧ D.provides b d ∧ order.idxOf b < order.idxOf a := by
    intro a d
    rcases em (a ∈ D.items ∧ d ∈ D.needs a ∧ ¬ D.given d) with ⟨ha, hd, hgiven⟩ | none
    · obtain ⟨pre, post, e, first⟩ := List.eq_append_cons_of_mem ((all a).mpr ha)
      obtain ⟨b, hb, provides⟩ := (h pre a ⟨post, by rw [e, List.append_assoc]; rfl⟩ d hd).resolve_left
        hgiven
      refine ⟨b, fun _ _ _ => ⟨e ▸ List.mem_append_left _ hb, provides, ?_⟩⟩
      rw [e, List.idxOf_append_of_mem hb, List.idxOf_append_of_notMem first, List.idxOf_cons_self]
      exact (List.idxOf_lt_length_iff.mpr hb).trans_le (Nat.le_add_right _ _)
    · exact ⟨a, fun ha hd hgiven => absurd ⟨ha, hd, hgiven⟩ none⟩
  choose choice hchoice using earlier
  refine ⟨choice, fun a ha d hd hgiven => ?_, fun a circle => ?_⟩
  · obtain ⟨mem, provides, -⟩ := hchoice a d ha hd hgiven
    exact ⟨(all _).mp mem, provides⟩
  · have down : ∀ {a b}, Relation.TransGen (D.Uses choice) a b → order.idxOf b < order.idxOf a := by
      intro a b hab
      induction hab with
      | single use =>
        obtain ⟨ha, d, hd, hgiven, rfl⟩ := use
        exact (hchoice a d ha hd hgiven).2.2
      | tail _ use ih =>
        obtain ⟨hb, d, hd, hgiven, rfl⟩ := use
        exact (hchoice _ d hb hd hgiven).2.2.trans ih
    exact absurd (down circle) (Nat.lt_irrefl _)

lemma ClosedAcyclic.orderable (h : D.ClosedAcyclic) (finite : D.items.Finite) :
    ∀ a ∈ D.items, D.Orderable a := by
  obtain ⟨choice, resolves, acyclic⟩ := h
  by_contra hnot
  simp only [not_forall] at hnot
  obtain ⟨a₀, ha₀, hnot⟩ := hnot
  -- an item that cannot come depends on one that cannot
  obtain ⟨a, -, circle⟩ := @circle_within _ (D.Uses choice)
    { a | a ∈ D.items ∧ ¬ D.Orderable a } (finite.subset fun a ha => ha.1) ⟨a₀, ha₀, hnot⟩ (by
      rintro a ⟨ha, hnot⟩
      by_contra none
      refine hnot (.intro (choice a) ha (fun d hd hgiven => (resolves a ha d hd hgiven).2) ?_)
      intro d hd hgiven
      by_contra hd'
      exact none ⟨choice a d, ⟨(resolves a ha d hd hgiven).1, hd'⟩, ha, d, hd, hgiven, rfl⟩)
  exact acyclic a circle

end Demands

end PulseEngine.Library
