import PulseEngine.Library.Descent
import PulseEngine.RenderGraph.Declared

/-!
# Dead passes

A pass is live when data flows from it, from writes to later reads, to a pass that presents or holds on
or to an imported resource. Reference counts see neither the order of the passes nor that a
subresource is part of its parent, and never cull a subresource.
-/

namespace PulseEngine.RenderGraph

open Library

namespace Graph

def IsImported (g : Graph) (i : Nat) : Prop :=
  ∃ resource root, g.resources[i]? = some resource ∧ root.manageType = .imported ∧
    (root = resource ∨ resource.manageType = .subResource ∧ g.resources[resource.parent]? = some root)

inductive Live (g : Graph) : Nat → Prop
  | sink {p : Nat} : p < g.passes.length → g.isPersistent p = true → Live g p
  | imported {p i : Nat} : g.Writes p i → g.IsImported i → Live g p
  | flow {p q i j : Nat} : p < q → g.Writes p i → g.Reads q j → g.Overlaps i j → Live g q → Live g p

def Feeds (g : Graph) (p q : Nat) : Prop := ∃ i, g.Writes p i ∧ g.Reads q i

/-- The counts see all data that flows: no dead pass writes a subresource, or writes what a live pass
reads before it or what dead passes hand around in a circle; and no live pass is live only because
later passes read parts of the textures that it writes. -/
structure CountsFlow (g : Graph) : Prop where
  subresource : ∀ p i resource, g.Writes p i → g.resources[i]? = some resource →
    resource.manageType = .subResource → g.Live p
  backward : ∀ p q, q ≤ p → g.Feeds p q → g.Live q → g.Live p
  circle : ¬ Circular fun p q => g.Feeds p q ∧ ¬ g.Live p ∧ ¬ g.Live q
  part : ∀ p, g.Live p → g.isPersistent p = true ∨ (∃ i resource, g.Writes p i ∧
    g.resources[i]? = some resource ∧ resource.manageType ≠ .managed) ∨
    ∃ q, g.Feeds p q ∧ g.Live q

variable {g : Graph} {p q i : Nat}

lemma Live.lt (h : g.Live p) : p < g.passes.length := by
  cases h with
  | sink hlt _ => exact hlt
  | imported hw _ => exact Uses.lt (.inr hw)
  | flow _ hw _ _ _ => exact Uses.lt (.inr hw)

lemma survives_of_closed {X : Set Nat} (hX : ∀ p ∈ X, p < g.passes.length ∧
    (g.isPersistent p = true ∨ (∃ i resource, g.Writes p i ∧ g.resources[i]? = some resource ∧
      resource.manageType ≠ .managed) ∨ ∃ q ∈ X, g.Feeds p q)) (hp : p ∈ X) : g.Survives p := by
  have hculled : ∀ v, g.nodes.Culled v → (v < g.passes.length → v ∉ X) ∧
      ∀ i, v = i + g.passes.length →
        (∀ resource, g.resources[i]? = some resource → resource.manageType = .managed) ∧
          ∀ q ∈ X, ¬ g.Reads q i := by
    intro v h
    induction h with
    | @cull v mem mortal outs ih =>
      constructor
      · intro hlt hv
        obtain ⟨-, hpersistent | ⟨i, resource, hw, hi, hne⟩ | ⟨q, hq, i, hw, hr⟩⟩ := hX v hv
        · cases mortal.symm.trans hpersistent
        · exact hne ((ih _ ((mem_outs_pass hlt).mpr ⟨i, hw, rfl⟩)).2 i rfl |>.1 resource hi)
        · exact (ih _ ((mem_outs_pass hlt).mpr ⟨i, hw, rfl⟩)).2 i rfl |>.2 q hq hr
      · rintro i rfl
        constructor
        · intro resource hi
          by_contra hne
          have hkept : g.Kept i := (kept_iff hi).mpr (.inl hne)
          exact hkept (.cull mem mortal outs)
        · intro q hq hr
          exact (ih q (mem_outs_resource.mpr hr)).1 (hX q hq).1 hq
  exact ⟨(hX p hp).1, fun h => (hculled p h).1 (hX p hp).1 hp⟩

lemma Survives.cases (v : Valid g) (h : g.Survives p) : g.isPersistent p = true ∨
    (∃ i resource, g.Writes p i ∧ g.resources[i]? = some resource ∧
      resource.manageType ≠ .managed) ∨ ∃ q, g.Feeds p q ∧ g.Survives q := by
  by_contra hnot
  simp only [not_or, not_exists, not_and, Bool.not_eq_true] at hnot
  obtain ⟨hmortal, hmanaged, hfeeds⟩ := hnot
  refine h.2 ((culled_pass_iff h.1).mpr ⟨hmortal, ?_⟩)
  intro i hw hkept
  obtain ⟨resource, hi⟩ : ∃ resource, g.resources[i]? = some resource :=
    ⟨_, List.getElem?_eq_getElem (v.lt_of_uses (.inr hw))⟩
  cases (kept_iff hi).mp hkept with
  | inl hne => exact hmanaged i resource hw hi hne
  | inr hread =>
    obtain ⟨q, hq, hr⟩ := hread
    exact hfeeds q ⟨i, hw, hr⟩ hq

lemma CountsFlow.survives (h : g.CountsFlow) (hp : g.Live p) : g.Survives p := by
  refine survives_of_closed (X := {p | g.Live p}) ?_ hp
  intro p hp
  refine ⟨hp.lt, ?_⟩
  obtain hpersistent | hwrites | ⟨q, hfeeds, hq⟩ := h.part p hp
  · exact .inl hpersistent
  · exact .inr (.inl hwrites)
  · exact .inr (.inr ⟨q, hq, hfeeds⟩)

lemma CountsFlow.live (h : g.CountsFlow) (v : Valid g) (hp : g.Survives p) : g.Live p := by
  by_contra hdead
  refine h.circle (circular_of_waits (s := {p | g.Survives p ∧ ¬ g.Live p}) ?_ ⟨p, hp, hdead⟩ ?_)
  · exact (Set.finite_Iio g.passes.length).subset fun p hp => hp.1.1
  · rintro p ⟨hp, hdead⟩
    obtain hpersistent | ⟨i, resource, hw, hi, hne⟩ | ⟨q, hfeeds, hq⟩ := hp.cases v
    · exact absurd (.sink hp.1 hpersistent) hdead
    · cases hm : resource.manageType with
      | managed => exact absurd hm hne
      | imported =>
        exact absurd (.imported hw ⟨resource, resource, hi, hm, .inl rfl⟩) hdead
      | subResource => exact absurd (h.subresource p i resource hw hi hm) hdead
    · by_cases hlive : g.Live q
      · refine absurd ?_ hdead
        cases Nat.lt_or_ge p q with
        | inl hlt =>
          obtain ⟨i, hw, hr⟩ := hfeeds
          exact .flow hlt hw hr (.inl rfl) hlive
        | inr hge => exact h.backward p q hge hfeeds hlive
      · exact ⟨q, ⟨hq, hlive⟩, hfeeds, hdead, hlive⟩

lemma countsFlow_of_survives_iff (v : Valid g) (h : ∀ p, g.Survives p ↔ g.Live p) :
    g.CountsFlow where
  subresource p i resource hw hi hm := by
    have hlt := Uses.lt (.inr hw)
    refine (h p).mp ⟨hlt, fun hculled => ?_⟩
    exact ((culled_pass_iff hlt).mp hculled).2 i hw ((kept_iff hi).mpr (.inl (by rw [hm]; nofun)))
  backward p q _ hfeeds hq := by
    obtain ⟨i, hw, hr⟩ := hfeeds
    have hlt := Uses.lt (.inr hw)
    refine (h p).mp ⟨hlt, fun hculled => ?_⟩
    have hi := List.getElem?_eq_getElem (v.lt_of_uses (.inr hw))
    exact ((culled_pass_iff hlt).mp hculled).2 i hw
      ((kept_iff hi).mpr (.inr ⟨q, (h q).mpr hq, hr⟩))
  circle := by
    rintro ⟨p, hcircle⟩
    -- the passes of the circle feed one another
    let waits := fun p q => g.Feeds p q ∧ ¬ g.Live p ∧ ¬ g.Live q
    have hsurvives : g.Survives p := by
      refine survives_of_closed (X := {x | Relation.TransGen waits x p}) ?_ hcircle
      intro x hx
      obtain ⟨y, hxy, hy⟩ := Relation.TransGen.head'_iff.mp hx
      obtain ⟨i, hw, hr⟩ := hxy.1
      refine ⟨Uses.lt (.inr hw), .inr (.inr ⟨y, ?_, i, hw, hr⟩)⟩
      obtain rfl | hy := Relation.reflTransGen_iff_eq_or_transGen.mp hy
      · exact hcircle
      · exact hy
    obtain ⟨q, hpq, -⟩ := Relation.TransGen.head'_iff.mp hcircle
    exact hpq.2.1 ((h p).mp hsurvives)
  part p hp := by
    obtain hpersistent | hwrites | ⟨q, hfeeds, hq⟩ := Survives.cases v ((h p).mpr hp)
    · exact .inl hpersistent
    · exact .inr (.inl hwrites)
    · exact .inr (.inr ⟨q, hfeeds, (h q).mp hq⟩)

def depthOnly : List Declaration := [.declareTexture, .addRenderPass, .addDepthAttachment 0 1]

end Graph

end PulseEngine.RenderGraph
