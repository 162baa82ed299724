import PulseEngine.RenderGraph.Declared
import PulseEngine.RenderGraph.Execute

/-!
# Lifetimes of resources

A managed resource is there from the pass that devirtualizes it to the pass that destroys it. A
subresource is a view of its parent, so that it is there as long as its parent is; but there are no
edges between the two, and the uses of a subresource do not count as uses of its parent.
-/

namespace PulseEngine.RenderGraph

def CompiledGraph.Covers (c : CompiledGraph) (p i : Nat) : Prop :=
  (∃ q pass, q ≤ p ∧ c.passes[q]? = some pass ∧ i ∈ pass.devirtualize) ∧
    ∃ q pass, p ≤ q ∧ c.passes[q]? = some pass ∧ i ∈ pass.destroy

def CompiledGraph.BoundUpTo (c : CompiledGraph) (p : Nat) (managed : Nat → Option Nat) : Prop :=
  ∀ i, (managed i).isSome ↔ ∃ q pass, q ≤ p ∧ c.passes[q]? = some pass ∧ i ∈ pass.devirtualize

namespace Graph

/-- A surviving pass reads a resource, and a pass lies between the first and the last pass that uses
it, or is held on. -/
structure Lasts (g : Graph) (p i : Nat) : Prop where
  read : ∃ q, g.Survives q ∧ g.Reads q i
  before : ∃ q ≤ p, g.Uses q i
  after : (∃ resource, g.resources[i]? = some resource ∧ resource.holdOnLast) ∨ ∃ q, p ≤ q ∧ g.Uses q i

def Attaches (g : Graph) (p i : Nat) : Prop :=
  ∃ pass, g.passes[p]? = some pass ∧ i ∈ pass.colorAttachments ++ pass.depthAttachment.toList

variable {g : Graph} {c : CompiledGraph} {p i : Nat} {declarations : List Declaration}

lemma uses_firstUse {q : Nat} (h : g.firstUse i = some q) : g.Uses q i := by
  rw [firstUse] at h
  cases hin : (g.nodeIns (i + g.passes.length)).head? with
  | none =>
    rw [hin] at h
    exact .inl (mem_outs_resource.mp (List.mem_of_head? h))
  | some a =>
    have ha : g.Uses a i := .inr (mem_ins_resource.mp (List.mem_of_head? hin))
    cases hout : (g.nodeOuts (i + g.passes.length)).head? with
    | none =>
      rw [hin, hout] at h
      cases h
      exact ha
    | some b =>
      have hb : g.Uses b i := .inl (mem_outs_resource.mp (List.mem_of_head? hout))
      rw [hin, hout] at h
      cases h
      cases le_total a b with
      | inl hab => rwa [min_eq_left hab]
      | inr hba => rwa [min_eq_right hba]

lemma lastUse_lt (h : g.Uses p i) (resource : ResourceNode) :
    g.lastUse i resource < g.passes.length := by
  cases hold : resource.holdOnLast with
  | true =>
    have := h.lt
    rw [lastUse, if_pos hold]
    omega
  | false => exact (uses_lastUse h hold).lt

variable (spec : g.Compiled c)

include spec in
lemma Compiled.devirtualized_iff {resource : ResourceNode} (hi : g.resources[i]? = some resource)
    (hm : resource.manageType = .managed) (hkept : g.Kept i) :
    (∃ q pass, q ≤ p ∧ c.passes[q]? = some pass ∧ i ∈ pass.devirtualize) ↔
      ∃ q ≤ p, g.Uses q i := by
  constructor
  · rintro ⟨q, pass, hle, hpass, hmem⟩
    obtain ⟨_, _, _, _, hfirst⟩ := (spec.devirtualize hpass).mp hmem
    exact ⟨q, hle, uses_firstUse hfirst⟩
  · rintro ⟨q, hle, huses⟩
    obtain ⟨q', hfirst, huses', hle'⟩ := firstUse_le huses
    have hlt : q' < c.passes.length := spec.length_passes ▸ huses'.lt
    refine ⟨q', c.passes[q'], hle'.trans hle, List.getElem?_eq_getElem hlt, ?_⟩
    exact (spec.devirtualize (List.getElem?_eq_getElem hlt)).mpr ⟨resource, hi, hm, hkept, hfirst⟩

include spec in
lemma Compiled.covers_iff (hp : p < g.passes.length) {resource : ResourceNode}
    (hi : g.resources[i]? = some resource) (hm : resource.manageType = .managed) :
    g.Kept i ∧ c.Covers p i ↔ g.Lasts p i := by
  have hkept : g.Kept i ↔ ∃ q, g.Survives q ∧ g.Reads q i := by
    rw [kept_iff hi]
    constructor
    · rintro (hne | h)
      · exact absurd hm hne
      · exact h
    · exact .inr
  constructor
  · rintro ⟨hk, hbefore, q, pass, hle, hpass, hmem⟩
    refine ⟨hkept.mp hk, (spec.devirtualized_iff hi hm hk).mp hbefore, ?_⟩
    obtain ⟨resource', hi', -, -, hlast⟩ := (spec.destroy hpass).mp hmem
    rw [hi] at hi'
    cases hi'
    cases hold : resource.holdOnLast with
    | true => exact .inl ⟨resource, hi, hold⟩
    | false =>
      obtain ⟨r, -, hreads⟩ := hkept.mp hk
      have := uses_lastUse (.inl hreads) hold
      rw [hlast] at this
      exact .inr ⟨q, hle, this⟩
  · rintro ⟨hread, hbefore, hafter⟩
    have hk := hkept.mpr hread
    obtain ⟨r, -, hreads⟩ := hread
    have hlt : g.lastUse i resource < c.passes.length :=
      spec.length_passes ▸ lastUse_lt (.inl hreads) resource
    refine ⟨hk, (spec.devirtualized_iff hi hm hk).mpr hbefore, g.lastUse i resource,
      c.passes[g.lastUse i resource], ?_, List.getElem?_eq_getElem hlt, ?_⟩
    · cases hafter with
      | inl hold =>
        obtain ⟨resource', hi', hold⟩ := hold
        rw [hi] at hi'
        cases hi'
        rw [lastUse, if_pos hold]
        omega
      | inr h =>
        obtain ⟨q, hle, huses⟩ := h
        exact hle.trans (le_lastUse huses)
    · exact (spec.destroy (List.getElem?_eq_getElem hlt)).mpr ⟨resource, hi, hm, hk, rfl⟩

/-- The parent of every subresource that a surviving pass uses or attaches is kept, and covers the
pass if it is managed. -/
def ParentsCover (g : Graph) (c : CompiledGraph) : Prop :=
  ∀ p i resource, g.Survives p → g.Uses p i ∨ g.Attaches p i → g.resources[i]? = some resource →
    resource.manageType = .subResource → g.Kept resource.parent ∧
      ∀ parent, g.resources[resource.parent]? = some parent → parent.manageType = .managed →
        c.Covers p resource.parent

def ParentsLast (g : Graph) : Prop :=
  ∀ p i resource parent, g.Survives p → g.Uses p i → g.resources[i]? = some resource →
    resource.manageType = .subResource → g.resources[resource.parent]? = some parent →
    parent.manageType = .managed → g.Lasts p resource.parent

lemma SoundPasses.uses_of_attaches (h : g.SoundPasses) (ha : g.Attaches p i) : g.Uses p i := by
  obtain ⟨pass, hp, hi⟩ := ha
  obtain ⟨edge, hedge, he⟩ := (h.sound hp).attachments i hi
  exact .inr ⟨pass, hp, edge, hedge, he⟩

/-- **Lifetime of parents.** The parents of the subresources that surviving passes use or attach are
kept and cover the passes if and only if, when they are managed, they last there by their own uses. -/
theorem parents_cover_iff (e : build declarations = some g) :
    ∃ c, g.compile = some c ∧ (g.ParentsCover c ↔ g.ParentsLast) := by
  have passes : g.SoundPasses := closed_soundPasses.build e
  have declared : g.Declared := closed_declared.build e
  obtain ⟨c, hc, spec⟩ := passes.toValid.compile_spec
  refine ⟨c, hc, ?_, ?_⟩
  · intro h p i resource parent hp huses hi hsub hparent hm
    obtain ⟨hkept, hcovers⟩ := h p i resource hp (.inl huses) hi hsub
    exact (spec.covers_iff hp.1 hparent hm).mp ⟨hkept, hcovers parent hparent hm⟩
  · intro h p i resource hp haccess hi hsub
    have huses : g.Uses p i := by
      cases haccess with
      | inl huses => exact huses
      | inr hattaches => exact passes.uses_of_attaches hattaches
    obtain ⟨-, -, parent, hparent, -⟩ := declared.parent hi hsub
    by_cases hm : parent.manageType = .managed
    · obtain ⟨hkept, hcovers⟩ :=
        (spec.covers_iff hp.1 hparent hm).mpr (h p i resource parent hp huses hi hsub hparent hm)
      exact ⟨hkept, fun _ _ _ => hcovers⟩
    · refine ⟨(kept_iff hparent).mpr (.inl hm), ?_⟩
      intro parent' hparent' hm'
      rw [hparent] at hparent'
      cases hparent'
      exact absurd hm' hm

def attachedView : List Declaration :=
  [.declareTexture, .declareTextureSubresource 1 0 0, .addRenderPass, .addColorAttachment 0 2]

/-- The graph of the pass that attaches a view. -/
theorem parents_cover_attachedView : ∃ g, build attachedView = some g ∧
    ∃ c, g.compile = some c ∧ (g.ParentsCover c ↔ g.ParentsLast) := by
  obtain ⟨g, hg⟩ : ∃ g, build attachedView = some g := ⟨_, rfl⟩
  exact ⟨g, hg, parents_cover_iff hg⟩

/-- The texture is culled, and the pass that attaches its view is not. -/
theorem not_parents_cover : ¬ ∀ declarations g c, build declarations = some g →
    g.compile = some c → g.ParentsCover c := by
  intro h
  obtain ⟨g, hg⟩ : ∃ g, build attachedView = some g := ⟨_, rfl⟩
  have v : Valid g := closed_valid.build hg
  obtain ⟨c, hc, -⟩ := v.compile_spec
  have hview : g.resources[2]? =
      some { ResourceNode.new with manageType := .subResource, mipCount := 1, arraySize := 1, parent := 1 } := by
    cases hg
    rfl
  have hparent : g.resources[1]? = some { ResourceNode.new with mipCount := 1, arraySize := 1 } := by
    cases hg
    rfl
  have hwrites : g.Writes 0 2 := by
    cases hg
    exact ⟨_, rfl, ⟨2, .renderTarget⟩, .head _, rfl⟩
  have hsurvives : g.Survives 0 := by
    refine ⟨Uses.lt (.inr hwrites), ?_⟩
    intro hculled
    obtain ⟨-, hall⟩ := (culled_pass_iff (Uses.lt (.inr hwrites))).mp hculled
    exact hall 2 hwrites ((kept_iff hview).mpr (.inl (by decide)))
  obtain ⟨hkept, -⟩ := h attachedView g c hg hc 0 2 _ hsurvives (.inl (.inr hwrites)) hview rfl
  cases (kept_iff hparent).mp hkept with
  | inl hne => exact hne rfl
  | inr hread =>
    obtain ⟨p, -, pass, hp, edge, hedge, -⟩ := hread
    cases hg
    cases p with
    | zero =>
      cases hp
      cases hedge
    | succ p => cases hp

end Graph

end PulseEngine.RenderGraph
