import PulseEngine.RenderGraph.Build

/-!
# Graphs that were built

An induction rule for the building calls: a property that the elementary ones keep (`Graph.Closed`)
holds of every graph that was built. The first use of it: the edges that a pass lists are there, and
they lie between the pass and a resource.
-/

namespace PulseEngine.RenderGraph

namespace Graph

structure Closed (I : Graph → Prop) : Prop where
  create : I create
  pushResource : ∀ {g : Graph} {resource : ResourceNode}, I g →
    (resource.manageType = .subResource → resource.resourceType = .texture ∧
      resource.parent ≠ 0 ∧ ∃ node : ResourceNode, g.resources[resource.parent]? = some node ∧
        node.resourceType = .texture ∧ node.parent = 0 ∧ resource.mipCount = node.mipCount) →
    (resource.manageType ≠ .subResource → resource.parent = 0) →
    (resource.manageType = .imported → resource.imported.isSome) → I (g.pushResource resource).1
  modifyBuffer : ∀ {g g' : Graph} {buffer : Nat} {f : ResourceNode → ResourceNode}, I g →
    (∀ node, ∃ bufferType holdOnLast, f node =
      { node with bufferType := bufferType, holdOnLast := holdOnLast }) →
    g.modifyBuffer buffer f = some g' → I g'
  pushPass : ∀ {g : Graph} {type : PassType}, I g → I (g.pushPass type).1
  addRead : ∀ {g g' : Graph} {pass resource : Nat} {usage : ResourceState}, I g →
    usage ≠ .undefined → g.addRead pass resource usage = some g' → I g'
  readwriteBuffer : ∀ {g g' : Graph} {pass buffer : Nat}, I g →
    g.readwriteBuffer pass buffer = some g' → I g'
  addColorAttachment : ∀ {g g' : Graph} {pass texture : Nat}, I g →
    g.addColorAttachment pass texture = some g' → I g'
  addDepthAttachment : ∀ {g g' : Graph} {pass texture : Nat}, I g →
    g.addDepthAttachment pass texture = some g' → I g'
  addUpload : ∀ {g g' : Graph} {pass dest : Nat}, I g → g.addUpload pass dest = some g' → I g'

variable {g g' : Graph} {I : Graph → Prop}

lemma rootTexture_inv : ∀ {fuel index parent : Nat} {node : ResourceNode},
    g.rootTexture fuel index = some (parent, node) → g.resources[parent]? = some node ∧
      node.resourceType = .texture ∧ node.parent = 0 ∧ (index ≠ 0 → parent ≠ 0) := by
  intro fuel
  induction fuel with
  | zero => intro _ _ _ e; cases e
  | succ fuel ih =>
    intro index parent node e
    unfold rootTexture at e
    simp only [Option.bind_eq_bind, Option.bind_eq_some_iff, Option.guard_eq_some'] at e
    obtain ⟨first, hfirst, _, htype, e⟩ := e
    split at e
    · rename_i hparent
      obtain ⟨h₁, h₂, h₃, h₄⟩ := ih e
      exact ⟨h₁, h₂, h₃, fun _ => h₄ hparent⟩
    · rename_i hparent
      cases e
      exact ⟨hfirst, htype, not_not.mp hparent, id⟩

lemma Closed.declareTextureSubresource (c : Closed I) (hI : I g) {parent mipmap slice : Nat}
    {h : Nat} (e : g.declareTextureSubresource parent mipmap slice = some (g', h)) : I g' := by
  unfold Graph.declareTextureSubresource at e
  simp only [Option.bind_eq_bind, Option.bind_eq_some_iff, Option.guard_eq_some',
    Option.pure_def, Option.some.injEq] at e
  obtain ⟨_, hne, ⟨root, node⟩, hroot, e⟩ := e
  obtain ⟨hnode, htype, hparent, hroot⟩ := rootTexture_inv hroot
  cases e
  exact c.pushResource hI
    (fun _ => ⟨rfl, hroot hne, node, hnode, htype, hparent, rfl⟩) (fun hm => absurd rfl hm)
    (fun hm => by cases hm)

lemma Closed.addUploadBufferPass (c : Closed I) (hI : I g) {buffer : Nat}
    (e : g.addUploadBufferPass buffer = some g') : I g' := by
  unfold Graph.addUploadBufferPass at e
  simp only [Option.bind_eq_bind, Option.bind_eq_some_iff, Option.guard_eq_some'] at e
  obtain ⟨_, _, _, _, _, _, e⟩ := e
  exact c.addUpload (c.pushPass hI) e

lemma Closed.addUploadTexturePass (c : Closed I) (hI : I g) {texture mipmap slice : Nat}
    (e : g.addUploadTexturePass texture mipmap slice = some g') : I g' := by
  unfold Graph.addUploadTexturePass at e
  simp only [Option.bind_eq_bind, Option.bind_eq_some_iff, Option.guard_eq_some'] at e
  obtain ⟨_, _, _, _, _, _, e⟩ := e
  split at e
  · exact c.addUpload (c.pushPass hI) e
  · simp only [Option.bind_eq_some_iff] at e
    obtain ⟨⟨g₁, used⟩, e₁, e⟩ := e
    exact c.addUpload (c.declareTextureSubresource (c.pushPass hI) e₁) e

lemma Closed.generateMips (c : Closed I) : ∀ {mips : List Nat} {g g' : Graph}
    {texture slice last : Nat}, I g → g.generateMips texture slice last mips = some g' → I g' := by
  intro mips
  induction mips with
  | nil =>
    intro g g' _ _ _ hI e
    cases e
    exact hI
  | cons i mips ih =>
    intro g g' texture slice last hI e
    unfold Graph.generateMips at e
    simp only [Option.bind_eq_bind, Option.bind_eq_some_iff] at e
    obtain ⟨⟨g₁, mip⟩, e₁, g₂, e₂, g₃, e₃, e⟩ := e
    have h₁ := c.declareTextureSubresource hI e₁
    have h₂ := c.addColorAttachment (c.pushPass h₁) e₂
    exact ih (c.addRead h₂ (by simp) e₃) e

lemma Closed.generateSlices (c : Closed I) : ∀ {slices : List Nat} {g g' : Graph}
    {texture fromMipmap : Nat} {mips : List Nat}, I g →
      g.generateSlices texture fromMipmap mips slices = some g' → I g' := by
  intro slices
  induction slices with
  | nil =>
    intro g g' _ _ _ hI e
    cases e
    exact hI
  | cons slice slices ih =>
    intro g g' texture fromMipmap mips hI e
    unfold Graph.generateSlices at e
    simp only [Option.bind_eq_bind, Option.bind_eq_some_iff] at e
    obtain ⟨⟨g₁, last⟩, e₁, g₂, e₂, e⟩ := e
    exact ih (c.generateMips (c.declareTextureSubresource hI e₁) e₂) e

lemma Closed.importTextureImpl (c : Closed I) (hI : I g) {imported mipLevels arraySize handle h : Nat}
    (e : g.importTextureImpl imported mipLevels arraySize handle = some (g', h)) : I g' := by
  unfold Graph.importTextureImpl at e
  split at e
  · cases e
    exact hI
  · split at e
    · cases e
      exact c.pushResource hI (fun h => by cases h) (fun _ => rfl) fun _ => rfl
    · cases e

/-- **One building call.** -/
theorem Closed.declare (c : Closed I) (hI : I g) {d : Declaration} (e : g.declare d = some g') :
    I g' := by
  have push : ∀ {g : Graph} {resource : ResourceNode}, I g → resource.manageType ≠ .subResource →
      resource.parent = 0 → (resource.manageType = .imported → resource.imported.isSome) →
      I (g.pushResource resource).1 :=
    fun hI hm hp hi => c.pushResource hI (fun h => absurd h hm) (fun _ => hp) hi
  cases d with
  | declareTexture =>
    cases e
    exact push hI (by simp [ResourceNode.new]) rfl (by simp [ResourceNode.new])
  | importTexture =>
    obtain ⟨⟨g₁, h⟩, e₁, rfl⟩ := Option.map_eq_some_iff.mp e
    exact c.importTextureImpl hI e₁
  | importBackbuffer =>
    obtain ⟨⟨g₁, h⟩, e₁, rfl⟩ := Option.map_eq_some_iff.mp e
    exact c.importTextureImpl (push hI (by simp [ResourceNode.new]) rfl (by simp [ResourceNode.new])) e₁
  | declareBuffer =>
    cases e
    exact push hI (by simp [ResourceNode.new]) rfl (by simp [ResourceNode.new])
  | importBuffer =>
    cases e
    exact push hI (by simp) rfl (by simp)
  | importDynamicBuffer handle =>
    cases e
    unfold Graph.importDynamicBuffer
    split
    · exact hI
    · exact push hI (by simp [ResourceNode.new]) rfl (by simp [ResourceNode.new])
  | declareUniformBufferQuick =>
    exact c.addUploadBufferPass
      (push hI (by simp [ResourceNode.new]) rfl (by simp [ResourceNode.new])) e
  | declareTextureSubresource =>
    obtain ⟨⟨g₁, h⟩, e₁, rfl⟩ := Option.map_eq_some_iff.mp e
    exact c.declareTextureSubresource hI e₁
  | bufferSetType buffer bufferType =>
    exact c.modifyBuffer hI (fun node => ⟨bufferType, node.holdOnLast, rfl⟩) e
  | bufferSetHoldOnLast buffer =>
    exact c.modifyBuffer hI (fun node => ⟨node.bufferType, true, rfl⟩) e
  | addRenderPass =>
    cases e
    exact c.pushPass hI
  | addComputePass =>
    cases e
    exact c.pushPass hI
  | addHoldpass =>
    cases e
    exact c.pushPass hI
  | addUploadTexturePass => exact c.addUploadTexturePass hI e
  | addUploadBufferPass => exact c.addUploadBufferPass hI e
  | addGenerateMipmap =>
    simp only [Graph.declare, Graph.addGenerateMipmap, Option.bind_eq_bind, Option.bind_eq_some_iff,
      Option.guard_eq_some'] at e
    obtain ⟨_, _, _, _, _, _, e⟩ := e
    split at e
    · cases e
      exact hI
    · exact c.generateSlices hI e
  | present => exact c.addRead (c.pushPass hI) (by simp) e
  | addColorAttachment => exact c.addColorAttachment hI e
  | addDepthAttachment => exact c.addDepthAttachment hI e
  | sample => exact c.addRead hI (by simp) e
  | useBuffer =>
    simp only [Graph.declare, Graph.useBuffer, Option.bind_eq_bind, Option.bind_eq_some_iff,
      Option.guard_eq_some'] at e
    obtain ⟨_, _, _, _, _, _, e⟩ := e
    repeat' split at e
    all_goals first | exact c.addRead hI (by simp) e | cases e
  | useBufferAs =>
    simp only [Graph.declare, Graph.useBufferAs, Option.bind_eq_bind, Option.bind_eq_some_iff,
      Option.guard_eq_some'] at e
    obtain ⟨_, _, _, _, _, ⟨_, husage⟩, e⟩ := e
    exact c.addRead hI husage e
  | computeUseBuffer =>
    simp only [Graph.declare, Graph.computeUseBuffer, Option.bind_eq_bind,
      Option.bind_eq_some_iff, Option.guard_eq_some'] at e
    obtain ⟨_, _, _, _, _, _, e⟩ := e
    repeat' split at e
    all_goals first | exact c.addRead hI (by simp) e | cases e
  | readwriteBuffer => exact c.readwriteBuffer hI e

/-- **Rule for built graphs.** -/
theorem Closed.build (c : Closed I) {declarations : List Declaration}
    (e : Graph.build declarations = some g) : I g := by
  induction declarations using List.reverseRecOn generalizing g with
  | nil =>
    cases e
    exact c.create
  | append_singleton declarations d ih =>
    unfold Graph.build at e ih
    rw [List.foldlM_append] at e
    obtain ⟨g₁, e₁, e⟩ := Option.bind_eq_some_iff.mp e
    obtain ⟨g₂, e₂, e⟩ := Option.bind_eq_some_iff.mp e
    cases e
    exact c.declare (ih e₁) e₂

structure Valid (g : Graph) : Prop where
  reads : ∀ {p e : Nat} {pass : PassNode}, g.passes[p]? = some pass → e ∈ pass.reads →
    ∃ edge : Edge, g.edges[e]? = some edge ∧ edge.fromIndex < g.resources.length
  writes : ∀ {p e : Nat} {pass : PassNode}, g.passes[p]? = some pass → e ∈ pass.writes →
    ∃ edge : Edge, g.edges[e]? = some edge ∧ edge.toIndex < g.resources.length

lemma Valid.extend (v : Valid g) (hedges : ∀ {e : Nat} {edge : Edge}, g.edges[e]? = some edge →
      g'.edges[e]? = some edge) (hresources : g.resources.length ≤ g'.resources.length)
    (hpasses : ∀ {p : Nat} {pass' : PassNode}, g'.passes[p]? = some pass' →
      (pass'.reads = [] ∧ pass'.writes = []) ∨ ∃ pass : PassNode, g.passes[p]? = some pass ∧
        pass'.reads = pass.reads ∧ pass'.writes = pass.writes) : Valid g' := by
  constructor
  · intro p e pass' hpass he
    rcases hpasses hpass with ⟨hr, _⟩ | ⟨pass, hp, hr, _⟩
    · rw [hr] at he
      cases he
    · obtain ⟨edge, hedge, hlt⟩ := v.reads hp (hr ▸ he)
      exact ⟨edge, hedges hedge, by omega⟩
  · intro p e pass' hpass he
    rcases hpasses hpass with ⟨_, hw⟩ | ⟨pass, hp, _, hw⟩
    · rw [hw] at he
      cases he
    · obtain ⟨edge, hedge, hlt⟩ := v.writes hp (hw ▸ he)
      exact ⟨edge, hedges hedge, by omega⟩

lemma Valid.pushResource (v : Valid g) (resource : ResourceNode) :
    Valid (g.pushResource resource).1 :=
  v.extend id (by simp [Graph.pushResource]) fun hp => Or.inr ⟨_, hp, rfl, rfl⟩

lemma Valid.modifyBuffer (v : Valid g) {buffer : Nat} {f : ResourceNode → ResourceNode}
    (e : g.modifyBuffer buffer f = some g') : Valid g' := by
  unfold Graph.modifyBuffer at e
  simp only [Option.bind_eq_bind, Option.bind_eq_some_iff, Option.guard_eq_some',
    Option.pure_def, Option.some.injEq] at e
  obtain ⟨_, _, _, _, _, _, rfl⟩ := e
  exact v.extend id (by simp) fun hp => Or.inr ⟨_, hp, rfl, rfl⟩

lemma Valid.pushPass (v : Valid g) (type : PassType) : Valid (g.pushPass type).1 := by
  refine v.extend id le_rfl fun {p pass'} hp => ?_
  rw [Graph.pushPass, List.getElem?_append] at hp
  split at hp
  · exact Or.inr ⟨_, hp, rfl, rfl⟩
  · obtain rfl : PassNode.new type = pass' := List.mem_singleton.mp (List.mem_of_getElem? hp) ▸ rfl
    exact Or.inl ⟨rfl, rfl⟩

lemma Valid.modifyPass (v : Valid g) {pass : Nat} {f : PassNode → PassNode}
    (hr : ∀ node, (f node).reads = node.reads) (hw : ∀ node, (f node).writes = node.writes) :
    Valid (g.modifyPass pass f) := by
  refine v.extend id le_rfl fun {p pass'} hp => ?_
  rw [Graph.modifyPass, List.getElem?_modify] at hp
  obtain ⟨node, hnode, rfl⟩ := Option.map_eq_some_iff.mp hp
  refine Or.inr ⟨node, hnode, ?_⟩
  split
  · exact ⟨hr node, hw node⟩
  · exact ⟨rfl, rfl⟩

lemma Valid.addRead (v : Valid g) {pass resource : Nat} {usage : ResourceState}
    (e : g.addRead pass resource usage = some g') : Valid g' := by
  unfold Graph.addRead Graph.addEdge Graph.modifyPass at e
  simp only [Option.bind_eq_bind, Option.bind_eq_some_iff, Option.guard_eq_some',
    Option.pure_def, Option.some.injEq] at e
  obtain ⟨_, ⟨_, hres⟩, rfl⟩ := e
  have hedges : ∀ {i : Nat} {edge : Edge}, g.edges[i]? = some edge →
      (g.edges ++ [⟨resource, pass, usage⟩])[i]? = some edge :=
    fun h => by rw [List.getElem?_append_left (List.getElem?_eq_some_iff.mp h).1, h]
  constructor
  · intro p i pass' hp hi
    rw [List.getElem?_modify] at hp
    obtain ⟨node, hnode, rfl⟩ := Option.map_eq_some_iff.mp hp
    have old : i ∈ node.reads → ∃ edge : Edge,
        (g.edges ++ [(⟨resource, pass, usage⟩ : Edge)])[i]? = some edge ∧
          edge.fromIndex < g.resources.length := by
      intro h
      obtain ⟨edge, hedge, hlt⟩ := v.reads hnode h
      exact ⟨edge, hedges hedge, hlt⟩
    split at hi
    · rcases List.mem_append.mp hi with hi | hi
      · exact old hi
      · rw [List.mem_singleton.mp hi]
        exact ⟨_, List.getElem?_concat_length, hres⟩
    · exact old hi
  · intro p i pass' hp hi
    rw [List.getElem?_modify] at hp
    obtain ⟨node, hnode, rfl⟩ := Option.map_eq_some_iff.mp hp
    have hi' : i ∈ node.writes := by
        split at hi <;> exact hi
    obtain ⟨edge, hedge, hlt⟩ := v.writes hnode hi'
    exact ⟨edge, hedges hedge, hlt⟩

lemma Valid.addWrite (v : Valid g) {pass resource : Nat} {usage : ResourceState}
    (e : g.addWrite pass resource usage = some g') : Valid g' := by
  unfold Graph.addWrite Graph.addEdge Graph.modifyPass at e
  simp only [Option.bind_eq_bind, Option.bind_eq_some_iff, Option.guard_eq_some',
    Option.pure_def, Option.some.injEq] at e
  obtain ⟨_, ⟨_, hres⟩, rfl⟩ := e
  have hedges : ∀ {i : Nat} {edge : Edge}, g.edges[i]? = some edge →
      (g.edges ++ [⟨pass, resource, usage⟩])[i]? = some edge :=
    fun h => by rw [List.getElem?_append_left (List.getElem?_eq_some_iff.mp h).1, h]
  constructor
  · intro p i pass' hp hi
    rw [List.getElem?_modify] at hp
    obtain ⟨node, hnode, rfl⟩ := Option.map_eq_some_iff.mp hp
    have hi' : i ∈ node.reads := by
        split at hi <;> exact hi
    obtain ⟨edge, hedge, hlt⟩ := v.reads hnode hi'
    exact ⟨edge, hedges hedge, hlt⟩
  · intro p i pass' hp hi
    rw [List.getElem?_modify] at hp
    obtain ⟨node, hnode, rfl⟩ := Option.map_eq_some_iff.mp hp
    have old : i ∈ node.writes → ∃ edge : Edge,
        (g.edges ++ [(⟨pass, resource, usage⟩ : Edge)])[i]? = some edge ∧
          edge.toIndex < g.resources.length := by
      intro h
      obtain ⟨edge, hedge, hlt⟩ := v.writes hnode h
      exact ⟨edge, hedges hedge, hlt⟩
    split at hi
    · rcases List.mem_append.mp hi with hi | hi
      · exact old hi
      · rw [List.mem_singleton.mp hi]
        exact ⟨_, List.getElem?_concat_length, hres⟩
    · exact old hi

lemma closed_valid : Closed Valid where
  create := ⟨fun h => by simp [Graph.create] at h, fun h => by simp [Graph.create] at h⟩
  pushResource := fun v _ _ _ => v.pushResource _
  modifyBuffer := fun v _ e => v.modifyBuffer e
  pushPass := fun v => v.pushPass _
  addRead := fun v _ e => v.addRead e
  readwriteBuffer := by
    intro g g' pass buffer v e
    simp only [Graph.readwriteBuffer, Option.bind_eq_bind, Option.bind_eq_some_iff,
      Option.guard_eq_some'] at e
    obtain ⟨_, _, _, _, _, _, g₁, e₁, e⟩ := e
    exact (v.addRead e₁).addWrite e
  addColorAttachment := by
    intro g g' pass texture v e
    simp only [Graph.addColorAttachment, Option.bind_eq_bind, Option.bind_eq_some_iff,
      Option.guard_eq_some', Option.pure_def, Option.some.injEq] at e
    obtain ⟨_, _, _, _, g₁, e₁, rfl⟩ := e
    exact (v.addWrite e₁).modifyPass (fun _ => rfl) fun _ => rfl
  addDepthAttachment := by
    intro g g' pass texture v e
    simp only [Graph.addDepthAttachment, Option.bind_eq_bind, Option.bind_eq_some_iff,
      Option.guard_eq_some', Option.pure_def, Option.some.injEq] at e
    obtain ⟨_, _, _, _, g₁, e₁, g₂, e₂, rfl⟩ := e
    exact ((v.addRead e₁).addWrite e₂).modifyPass (fun _ => rfl) fun _ => rfl
  addUpload := by
    intro g g' pass dest v e
    simp only [Graph.addUpload, Option.bind_eq_bind, Option.bind_eq_some_iff] at e
    obtain ⟨g₁, e₁, g₂, e₂, g₃, e₃, e⟩ := e
    have v₁ := (v.modifyPass (f := fun node => { node with dest := dest })
      (fun _ => rfl) fun _ => rfl).addWrite e₁
    have v₃ := ((v₁.pushResource _).modifyBuffer e₂).modifyBuffer e₃
    exact (v₃.modifyPass (f := fun node => { node with stagingBuffer := g₁.resources.length })
      (fun _ => rfl) fun _ => rfl).addRead e

end Graph

end PulseEngine.RenderGraph
