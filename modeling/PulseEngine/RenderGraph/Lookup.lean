import PulseEngine.RenderGraph.Alias

/-!
# Lookups of physical objects

What the barriers and the commands of a pass look up is a null pointer when the resource was culled, or
when no pass up to this one uses it. A surviving pass may write a resource that no surviving pass reads.
-/

namespace PulseEngine.RenderGraph

namespace Graph

def Backs (g : Graph) (m i : Nat) : Prop :=
  ∃ resource node, g.resources[i]? = some resource ∧ g.resources[m]? = some node ∧
    node.manageType = .managed ∧
    (resource.manageType = .managed ∧ m = i ∨
      resource.manageType = .subResource ∧ m = resource.parent)

def ThereAt (g : Graph) (p i : Nat) : Prop :=
  (∃ q, g.Survives q ∧ g.Reads q i) ∧ ∃ q ≤ p, g.Uses q i

def FoundAt (g : Graph) (p : Nat) (type : ResourceType) (i : Nat) : Prop :=
  (∃ resource, g.resources[i]? = some resource ∧ resource.resourceType = type) ∧
    ∀ m, g.Backs m i → g.ThereAt p m

/-- Every resource that a surviving pass uses or attaches is kept and covers the pass, and no lookup of
the executor for the pass is null. -/
def ResourcesCover (g : Graph) (c : CompiledGraph) : Prop :=
  ∀ p pass, g.Survives p → c.passes[p]? = some pass →
    (∀ i, g.Uses p i ∨ g.Attaches p i → g.Kept i ∧ ∀ resource, g.resources[i]? = some resource →
      resource.manageType = .managed → c.Covers p i) ∧
    ∀ managed, c.BoundUpTo p managed →
      (∀ edge ∈ pass.reads ++ pass.writes, edge.usage ≠ .undefined →
        ∃ resource, c.resources[edge.index]? = some resource ∧
          (c.find managed resource.resourceType edge.index).isSome) ∧
      ∀ lookup ∈ CompiledGraph.passLookups pass, (c.find managed lookup.1 lookup.2).isSome

/-- Every managed resource behind a resource that a surviving pass uses is there, and so is what the
commands of the pass look up. -/
def ResourcesThere (g : Graph) : Prop :=
  ∀ p pass, g.Survives p → g.passes[p]? = some pass →
    (∀ i, g.Uses p i → ∀ m, g.Backs m i → g.ThereAt p m) ∧
    ∀ lookup ∈ CompiledGraph.passLookups (g.copyPass pass), g.FoundAt p lookup.1 lookup.2

variable {g : Graph} {c : CompiledGraph} {p i m : Nat} {managed : Nat → Option Nat}
  {declarations : List Declaration}

lemma Compiled.managed_isSome_iff (spec : g.Compiled c) (bound : c.BoundUpTo p managed)
    {node : ResourceNode} (hm : g.resources[m]? = some node) (hmanaged : node.manageType = .managed) :
    (managed m).isSome ↔ g.ThereAt p m := by
  rw [bound m, ThereAt]
  constructor
  · rintro ⟨q, pass, hle, hpass, hmem⟩
    obtain ⟨resource, hresource, -, hkept, hfirst⟩ := (spec.devirtualize hpass).mp hmem
    exact ⟨((kept_iff hm).mp hkept).resolve_left (not_not.mpr hmanaged), q, hle,
      uses_firstUse hfirst⟩
  · rintro ⟨hread, huses⟩
    exact (spec.devirtualized_iff hm hmanaged ((kept_iff hm).mpr (.inr hread))).mpr huses

lemma backs_managed {resource : ResourceNode} (hi : g.resources[i]? = some resource)
    (hm : resource.manageType = .managed) : g.Backs m i ↔ m = i := by
  constructor
  · rintro ⟨resource', node, hi', -, -, hor⟩
    rw [hi] at hi'
    cases hi'
    cases hor with
    | inl h => exact h.2
    | inr h => cases hm.symm.trans h.1
  · rintro rfl
    exact ⟨resource, resource, hi, hi, hm, .inl ⟨hm, rfl⟩⟩

lemma not_backs_imported {resource : ResourceNode} (hi : g.resources[i]? = some resource)
    (hm : resource.manageType = .imported) : ¬ g.Backs m i := by
  rintro ⟨resource', node, hi', -, -, hor⟩
  rw [hi] at hi'
  cases hi'
  cases hor with
  | inl h => cases hm.symm.trans h.1
  | inr h => cases hm.symm.trans h.1

lemma backs_subResource {resource parent : ResourceNode} (hi : g.resources[i]? = some resource)
    (hm : resource.manageType = .subResource) (hp : g.resources[resource.parent]? = some parent) :
    g.Backs m i ↔ parent.manageType = .managed ∧ m = resource.parent := by
  constructor
  · rintro ⟨resource', node, hi', hnode, hmanaged, hor⟩
    rw [hi] at hi'
    cases hi'
    cases hor with
    | inl h => cases hm.symm.trans h.1
    | inr h =>
      obtain ⟨-, rfl⟩ := h
      rw [hp] at hnode
      cases hnode
      exact ⟨hmanaged, rfl⟩
  · rintro ⟨hmanaged, rfl⟩
    exact ⟨resource, parent, hi, hp, hmanaged, .inr ⟨hm, rfl⟩⟩

lemma Compiled.find_gone (spec : g.Compiled c) (bound : c.BoundUpTo p managed)
    {resource : ResourceNode} (hi : g.resources[i]? = some resource) (hgone : ¬ g.Kept i)
    (type : ResourceType) : c.find managed type i = none := by
  have hc := spec.gone (not_not.mp hgone) (List.getElem?_eq_some_iff.mp hi).1
  have hm : resource.manageType = .managed := by
    by_contra hm
    exact hgone ((kept_iff hi).mpr (.inl hm))
  have hnone : managed i = none := by
    rw [← Option.not_isSome_iff_eq_none, spec.managed_isSome_iff bound hi hm]
    exact fun h => hgone ((kept_iff hi).mpr (.inr h.1))
  cases type with
  | texture =>
    simp [CompiledGraph.find, CompiledGraph.getTexture, hc, CompiledResource.new, hnone]
  | buffer => simp [CompiledGraph.find, CompiledGraph.getBuffer, hc, CompiledResource.new]

lemma Compiled.find_mismatch (spec : g.Compiled c) {resource : ResourceNode}
    (hi : g.resources[i]? = some resource) (hkept : g.Kept i) {type : ResourceType}
    (htype : resource.resourceType ≠ type) : c.find managed type i = none := by
  have hc := spec.kept hi hkept
  have hne : (copyResource resource).resourceType ≠ type := htype
  cases type with
  | texture => simp [CompiledGraph.find, CompiledGraph.getTexture, hc, hne]
  | buffer => simp [CompiledGraph.find, CompiledGraph.getBuffer, hc, hne]

lemma Compiled.find_managed (spec : g.Compiled c) {resource : ResourceNode}
    (hi : g.resources[i]? = some resource) (hkept : g.Kept i)
    (hm : resource.manageType = .managed) :
    (c.find managed resource.resourceType i).isSome ↔ (managed i).isSome := by
  have hc := spec.kept hi hkept
  cases ht : resource.resourceType with
  | texture => simp [CompiledGraph.find, CompiledGraph.getTexture, hc, copyResource, ht, hm]
  | buffer => simp [CompiledGraph.find, CompiledGraph.getBuffer, hc, copyResource, ht, hm]

lemma Compiled.find_imported (spec : g.Compiled c) (declared : g.Declared)
    {resource : ResourceNode} (hi : g.resources[i]? = some resource)
    (hm : resource.manageType = .imported) :
    (c.find managed resource.resourceType i).isSome := by
  have hc := spec.kept hi ((kept_iff hi).mpr (.inl (by rw [hm]; nofun)))
  have himported := declared.imported hi hm
  cases ht : resource.resourceType with
  | texture =>
    simp [CompiledGraph.find, CompiledGraph.getTexture, hc, copyResource, ht, hm, himported]
  | buffer =>
    simp [CompiledGraph.find, CompiledGraph.getBuffer, hc, copyResource, ht, hm, himported]

lemma Compiled.find_subResource (spec : g.Compiled c) (declared : g.Declared)
    {resource parent : ResourceNode} (hi : g.resources[i]? = some resource)
    (hm : resource.manageType = .subResource) (hp : g.resources[resource.parent]? = some parent) :
    (c.find managed resource.resourceType i).isSome ↔
      (parent.manageType = .managed → (managed resource.parent).isSome) := by
  have hc := spec.kept hi ((kept_iff hi).mpr (.inl (by rw [hm]; nofun)))
  obtain ⟨ht, -, parent', hp', hparentType, hroot, -⟩ := declared.parent hi hm
  rw [hp] at hp'
  cases hp'
  rw [ht]
  cases hpm : parent.manageType with
  | managed =>
    by_cases hkept : g.Kept resource.parent
    · have hcp := spec.kept hp hkept
      simp [CompiledGraph.find, CompiledGraph.getTexture, hc, copyResource, ht, hm, hcp,
        hparentType, hroot, hpm]
    · have hcp := spec.gone (not_not.mp hkept) (List.getElem?_eq_some_iff.mp hp).1
      simp [CompiledGraph.find, CompiledGraph.getTexture, hc, copyResource, ht, hm, hcp,
        CompiledResource.new]
  | imported =>
    have hcp := spec.kept hp ((kept_iff hp).mpr (.inl (by rw [hpm]; nofun)))
    have hsome := declared.imported hp hpm
    simp [CompiledGraph.find, CompiledGraph.getTexture, hc, copyResource, ht, hm, hcp,
      hparentType, hroot, hpm, hsome]
  | subResource => exact absurd hroot (declared.parent hp hpm).2.1

lemma Compiled.find_kept (spec : g.Compiled c) (declared : g.Declared)
    (bound : c.BoundUpTo p managed) {resource : ResourceNode}
    (hi : g.resources[i]? = some resource) (hkept : g.Kept i) :
    (c.find managed resource.resourceType i).isSome ↔ ∀ m, g.Backs m i → g.ThereAt p m := by
  cases hm : resource.manageType with
  | managed =>
    rw [spec.find_managed hi hkept hm, spec.managed_isSome_iff bound hi hm]
    simp only [backs_managed hi hm, forall_eq]
  | imported =>
    have hsome : (c.find managed resource.resourceType i).isSome :=
      spec.find_imported declared hi hm
    simp only [hsome, not_backs_imported hi hm, false_implies, implies_true]
  | subResource =>
    obtain ⟨-, -, parent, hp, -⟩ := declared.parent hi hm
    rw [spec.find_subResource declared hi hm hp]
    simp only [backs_subResource hi hm hp, and_imp]
    constructor
    · rintro h m hpm rfl
      exact (spec.managed_isSome_iff bound hp hpm).mp (h hpm)
    · intro h hpm
      exact (spec.managed_isSome_iff bound hp hpm).mpr (h _ hpm rfl)

lemma kept_of_there {resource : ResourceNode} (hi : g.resources[i]? = some resource)
    (h : ∀ m, g.Backs m i → g.ThereAt p m) : g.Kept i := by
  rw [kept_iff hi]
  by_cases hm : resource.manageType = .managed
  · exact .inr (h i ((backs_managed hi hm).mpr rfl)).1
  · exact .inl hm

lemma Compiled.find_isSome_iff (spec : g.Compiled c) (declared : g.Declared)
    (bound : c.BoundUpTo p managed) (type : ResourceType) :
    (c.find managed type i).isSome ↔ g.FoundAt p type i := by
  cases hi : g.resources[i]? with
  | none =>
    have hc : c.resources[i]? = none := by
      rw [List.getElem?_eq_none_iff] at hi ⊢
      exact spec.length_resources ▸ hi
    have hnone : c.find managed type i = none := by
      cases type with
      | texture => simp [CompiledGraph.find, CompiledGraph.getTexture, hc]
      | buffer => simp [CompiledGraph.find, CompiledGraph.getBuffer, hc]
    simp [hnone, FoundAt, hi]
  | some resource =>
    constructor
    · intro h
      by_cases hkept : g.Kept i
      · by_cases htype : resource.resourceType = type
        · subst htype
          exact ⟨⟨resource, hi, rfl⟩, (spec.find_kept declared bound hi hkept).mp h⟩
        · rw [spec.find_mismatch hi hkept htype] at h
          cases h
      · rw [spec.find_gone bound hi hkept] at h
        cases h
    · rintro ⟨⟨resource', hi', rfl⟩, h⟩
      rw [hi] at hi'
      cases hi'
      exact (spec.find_kept declared bound hi (kept_of_there hi h)).mpr h

lemma Compiled.covers_of_there (spec : g.Compiled c) (hp : p < g.passes.length) (huses : g.Uses p i)
    {resource : ResourceNode} (hi : g.resources[i]? = some resource)
    (h : ∀ m, g.Backs m i → g.ThereAt p m) :
    g.Kept i ∧ (resource.manageType = .managed → c.Covers p i) := by
  refine ⟨kept_of_there hi h, fun hm => ?_⟩
  obtain ⟨hread, -⟩ := h i ((backs_managed hi hm).mpr rfl)
  exact ((spec.covers_iff hp hi hm).mpr ⟨hread, ⟨p, le_rfl, huses⟩, .inr ⟨p, le_rfl, huses⟩⟩).2

lemma mem_copyPass {pass : PassNode} (hp : g.passes[p]? = some pass) :
    g.Uses p i ↔ ∃ edge ∈ (g.copyPass pass).reads ++ (g.copyPass pass).writes, edge.index = i := by
  simp only [Uses, Reads, Writes, hp, Option.some.injEq, exists_eq_left', copyPass, List.mem_append,
    or_and_right, exists_or]

lemma SoundPasses.exists_usage (h : g.SoundPasses) {pass : PassNode} (hp : g.passes[p]? = some pass)
    (huses : g.Uses p i) :
    ∃ edge ∈ (g.copyPass pass).reads ++ (g.copyPass pass).writes, edge.index = i ∧
      edge.usage ≠ .undefined := by
  have hwrite : ∀ edge ∈ g.writeEdges pass, edge.usage ≠ .undefined := by
    intro edge hedge hu
    obtain h | h | h | ⟨h, -⟩ := (h.sound hp).writes edge hedge
    all_goals cases hu.symm.trans h
  obtain ⟨edge, hedge, hindex⟩ := (mem_copyPass hp).mp huses
  cases List.mem_append.mp hedge with
  | inl hread =>
    by_cases hu : edge.usage = .undefined
    · obtain ⟨edge', hedge', hindex', -⟩ := (h.sound hp).reads edge hread hu
      exact ⟨edge', List.mem_append_right _ hedge', hindex'.trans hindex, hwrite edge' hedge'⟩
    · exact ⟨edge, hedge, hindex, hu⟩
  | inr hwrites => exact ⟨edge, hedge, hindex, hwrite edge hwrites⟩

lemma exists_boundUpTo (c : CompiledGraph) (p : Nat) : ∃ managed, c.BoundUpTo p managed := by
  classical
  refine ⟨fun i => if ∃ q pass, q ≤ p ∧ c.passes[q]? = some pass ∧ i ∈ pass.devirtualize
    then some 0 else none, ?_⟩
  intro i
  dsimp only
  split
  · exact ⟨fun _ => ‹_›, fun _ => rfl⟩
  · exact ⟨fun h => (by cases h), fun h => absurd h ‹_›⟩

lemma Compiled.there_of_cover (spec : g.Compiled c) (declared : g.Declared) (passes : g.SoundPasses)
    (h : g.ResourcesCover c) : g.ResourcesThere := by
  intro p pass hsurvives hp
  obtain ⟨devirtualize, destroy, hcp⟩ := spec.survives hp hsurvives
  obtain ⟨hkept, hfind⟩ := h p _ hsurvives hcp
  obtain ⟨managed, bound⟩ := exists_boundUpTo c p
  obtain ⟨hedges, hlookups⟩ := hfind managed bound
  constructor
  · intro i huses
    obtain ⟨edge, hedge, rfl, hu⟩ := passes.exists_usage hp huses
    obtain ⟨resource, hresource, hsome⟩ := hedges edge hedge hu
    obtain ⟨node, hi⟩ : ∃ node, g.resources[edge.index]? = some node :=
      ⟨_, List.getElem?_eq_getElem (passes.toValid.lt_of_uses huses)⟩
    have hk := (hkept edge.index (.inl huses)).1
    rw [spec.kept hi hk] at hresource
    cases hresource
    exact (spec.find_kept declared bound hi hk).mp hsome
  · exact fun lookup hlookup =>
      (spec.find_isSome_iff declared bound lookup.1).mp (hlookups lookup hlookup)

lemma Compiled.cover_of_there (spec : g.Compiled c) (declared : g.Declared) (passes : g.SoundPasses)
    (h : g.ResourcesThere) : g.ResourcesCover c := by
  intro p cpass hsurvives hcpass
  have hlt := hsurvives.1
  have hp : g.passes[p]? = some g.passes[p] := List.getElem?_eq_getElem hlt
  obtain ⟨devirtualize, destroy, hcp⟩ := spec.survives hp hsurvives
  rw [hcp] at hcpass
  cases hcpass
  obtain ⟨huses, hlookups⟩ := h p _ hsurvives hp
  refine ⟨?_, fun managed bound => ⟨?_, ?_⟩⟩
  · intro i haccess
    have hi : g.Uses p i := by
      cases haccess with
      | inl hi => exact hi
      | inr hattaches => exact passes.uses_of_attaches hattaches
    have hnode := List.getElem?_eq_getElem (passes.toValid.lt_of_uses hi)
    obtain ⟨hk, -⟩ := spec.covers_of_there hsurvives.1 hi hnode (huses i hi)
    exact ⟨hk, fun resource hresource =>
      (spec.covers_of_there hsurvives.1 hi hresource (huses i hi)).2⟩
  · intro edge hedge _
    have hi : g.Uses p edge.index := (mem_copyPass hp).mpr ⟨edge, hedge, rfl⟩
    have hnode := List.getElem?_eq_getElem (passes.toValid.lt_of_uses hi)
    have hk := kept_of_there hnode (huses _ hi)
    exact ⟨_, spec.kept hnode hk, (spec.find_kept declared bound hnode hk).mpr (huses _ hi)⟩
  · exact fun lookup hlookup =>
      (spec.find_isSome_iff declared bound lookup.1).mpr (hlookups lookup hlookup)

/-- **Lookups.** Every resource that a surviving pass uses or attaches is kept, covers the pass and is
found by the executor if and only if the managed resources behind what the pass uses and looks up
are read by a surviving pass and used up to this pass. Whenever the executor comes to a pass, its
pointers are those of the resources that are devirtualized up to it. -/
theorem resources_cover_iff (e : build declarations = some g) :
    ∃ c, g.compile = some c ∧ (g.ResourcesCover c ↔ g.ResourcesThere) ∧
      ∀ textures buffers, PoolsReached textures buffers → ∀ ctx memory p pass st st',
        c.execute ctx (c.passes.take p) (.start textures buffers memory) = some st →
        c.passes[p]? = some pass → pass.devirtualize.foldlM (c.devirtualize ctx) st = some st' →
        c.BoundUpTo p st'.managed := by
  have passes : g.SoundPasses := closed_soundPasses.build e
  have declared : g.Declared := closed_declared.build e
  obtain ⟨c, hc, spec⟩ := passes.toValid.compile_spec
  refine ⟨c, hc, ⟨spec.there_of_cover declared passes, spec.cover_of_there declared passes⟩, ?_⟩
  intro textures buffers hpools ctx memory p pass st st' hexec hp hdevirtualize
  have start := Bindings.start (c := c) hpools.sound.1 hpools.sound.2 memory
  have h := (start.execute spec hexec).devirtualizePass spec (k := pass.devirtualize.length) hp
    (by rwa [List.take_length])
  rw [List.take_length] at h
  exact h.boundUpTo hp

def unreadTarget : List Declaration :=
  [.importTexture 0 1 1 0, .declareTexture, .addRenderPass, .addColorAttachment 0 1,
    .addColorAttachment 0 2]

/-- The graph of the pass that draws on two textures. -/
theorem resources_cover_unreadTarget : ∃ g, build unreadTarget = some g ∧
    ∃ c, g.compile = some c ∧ (g.ResourcesCover c ↔ g.ResourcesThere) ∧
      ∀ textures buffers, PoolsReached textures buffers → ∀ ctx memory p pass st st',
        c.execute ctx (c.passes.take p) (.start textures buffers memory) = some st →
        c.passes[p]? = some pass → pass.devirtualize.foldlM (c.devirtualize ctx) st = some st' →
        c.BoundUpTo p st'.managed := by
  obtain ⟨g, hg⟩ : ∃ g, build unreadTarget = some g := ⟨_, rfl⟩
  exact ⟨g, hg, resources_cover_iff hg⟩

/-- The pass survives, and the texture that nobody reads is culled. -/
theorem not_resources_cover : ¬ ∀ declarations g c, build declarations = some g →
    g.compile = some c → g.ResourcesCover c := by
  intro h
  obtain ⟨g, hg⟩ : ∃ g, build unreadTarget = some g := ⟨_, rfl⟩
  have v : Valid g := closed_valid.build hg
  obtain ⟨c, hc, spec⟩ := v.compile_spec
  have himported : ∃ node, g.resources[1]? = some node ∧ node.manageType ≠ .managed := by
    cases hg
    exact ⟨_, rfl, by decide⟩
  have htarget : ∃ node, g.resources[2]? = some node ∧ node.manageType = .managed := by
    cases hg
    exact ⟨_, rfl, rfl⟩
  have hwrites : g.Writes 0 1 ∧ g.Writes 0 2 := by
    cases hg
    exact ⟨⟨_, rfl, ⟨1, .renderTarget⟩, .head _, rfl⟩,
      ⟨_, rfl, ⟨2, .renderTarget⟩, .tail _ (.head _), rfl⟩⟩
  obtain ⟨node, hnode, hne⟩ := himported
  obtain ⟨target, htarget, hmanaged⟩ := htarget
  have hlt := Uses.lt (.inr hwrites.1)
  have hsurvives : g.Survives 0 := by
    refine ⟨hlt, ?_⟩
    intro hculled
    exact ((culled_pass_iff hlt).mp hculled).2 1 hwrites.1 ((kept_iff hnode).mpr (.inl hne))
  obtain ⟨_, _, hcp⟩ := spec.survives (List.getElem?_eq_getElem hlt) hsurvives
  obtain ⟨hkept, -⟩ := (h unreadTarget g c hg hc 0 _ hsurvives hcp).1 2 (.inl (.inr hwrites.2))
  obtain ⟨p, -, pass, hp, edge, hedge, -⟩ :=
    ((kept_iff htarget).mp hkept).resolve_left (not_not.mpr hmanaged)
  cases hg
  cases p with
  | zero =>
    cases hp
    cases hedge
  | succ p => cases hp

end Graph

end PulseEngine.RenderGraph
