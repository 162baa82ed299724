import PulseEngine.RenderGraph.Compile

/-!
# What was declared

What holds of the resources and of the edges of every graph that was built: a subresource is a view of
a texture, an attachment is written, a read without a usage goes with a write of the same resource,
and a texture is written as an attachment or as the destination of a copy.
-/

namespace PulseEngine.RenderGraph

namespace Graph

structure Declared (g : Graph) : Prop where
  root : ∀ {i : Nat} {resource : ResourceNode}, g.resources[i]? = some resource →
    resource.manageType ≠ .subResource → resource.parent = 0
  imported : ∀ {i : Nat} {resource : ResourceNode}, g.resources[i]? = some resource →
    resource.manageType = .imported → resource.imported.isSome
  parent : ∀ {i : Nat} {resource : ResourceNode}, g.resources[i]? = some resource →
    resource.manageType = .subResource → resource.resourceType = .texture ∧
      resource.parent ≠ 0 ∧ ∃ node : ResourceNode, g.resources[resource.parent]? = some node ∧
        node.resourceType = .texture ∧ node.parent = 0 ∧ resource.mipCount = node.mipCount

def Overlaps (g : Graph) (i j : Nat) : Prop :=
  i = j ∨ ∃ a b, g.resources[i]? = some a ∧ g.resources[j]? = some b ∧
    (a.manageType = .subResource ∧ a.parent = j ∨ b.manageType = .subResource ∧ b.parent = i ∨
      a.manageType = .subResource ∧ b.manageType = .subResource ∧ a.parent = b.parent ∧
        a.mipLevel = b.mipLevel ∧ a.arraySlice = b.arraySlice)

variable {g g' : Graph} {p i : Nat}

lemma Declared.congr (h : g.Declared) (he : g'.resources = g.resources) : g'.Declared := by
  obtain ⟨h₁, h₂, h₃⟩ := h
  rw [← he] at h₁ h₂ h₃
  exact ⟨h₁, h₂, h₃⟩

lemma Declared.pushResource (h : g.Declared) {resource : ResourceNode}
    (hsub : resource.manageType = .subResource → resource.resourceType = .texture ∧
      resource.parent ≠ 0 ∧ ∃ node : ResourceNode, g.resources[resource.parent]? = some node ∧
        node.resourceType = .texture ∧ node.parent = 0 ∧ resource.mipCount = node.mipCount)
    (hroot : resource.manageType ≠ .subResource → resource.parent = 0)
    (himported : resource.manageType = .imported → resource.imported.isSome) :
    (g.pushResource resource).1.Declared := by
  have hcases : ∀ {i : Nat} {r : ResourceNode}, (g.pushResource resource).1.resources[i]? = some r →
      g.resources[i]? = some r ∨ r = resource := by
    intro i r hi
    rw [Graph.pushResource, List.getElem?_append] at hi
    split at hi
    · exact .inl hi
    · exact .inr (List.mem_singleton.mp (List.mem_of_getElem? hi))
  have hkeep : ∀ {i : Nat} {r : ResourceNode}, g.resources[i]? = some r →
      (g.pushResource resource).1.resources[i]? = some r := by
    intro i r hi
    rw [Graph.pushResource, List.getElem?_append_left (List.getElem?_eq_some_iff.mp hi).1, hi]
  constructor
  · intro i r hi hm
    cases hcases hi with
    | inl hi => exact h.root hi hm
    | inr he => exact he ▸ hroot (he ▸ hm)
  · intro i r hi hm
    cases hcases hi with
    | inl hi => exact h.imported hi hm
    | inr he => exact he ▸ himported (he ▸ hm)
  · intro i r hi hm
    cases hcases hi with
    | inl hi =>
      obtain ⟨ht, hp, node, hnode, hrest⟩ := h.parent hi hm
      exact ⟨ht, hp, node, hkeep hnode, hrest⟩
    | inr he =>
      subst he
      obtain ⟨ht, hp, node, hnode, hrest⟩ := hsub hm
      exact ⟨ht, hp, node, hkeep hnode, hrest⟩

lemma Declared.modifyBuffer (h : g.Declared) {buffer : Nat} {f : ResourceNode → ResourceNode}
    (hf : ∀ node, ∃ bufferType holdOnLast, f node =
      { node with bufferType := bufferType, holdOnLast := holdOnLast })
    (e : g.modifyBuffer buffer f = some g') : g'.Declared := by
  unfold Graph.modifyBuffer at e
  simp only [Option.bind_eq_bind, Option.bind_eq_some_iff, Option.guard_eq_some',
    Option.pure_def, Option.some.injEq] at e
  obtain ⟨_, _, _, _, _, _, rfl⟩ := e
  have hback : ∀ {i : Nat} {r : ResourceNode}, (g.resources.modify buffer f)[i]? = some r →
      ∃ r₀ bufferType holdOnLast, g.resources[i]? = some r₀ ∧
        r = { r₀ with bufferType := bufferType, holdOnLast := holdOnLast } := by
    intro i r hi
    rw [List.getElem?_modify] at hi
    obtain ⟨r₀, hr₀, rfl⟩ := Option.map_eq_some_iff.mp hi
    split
    · obtain ⟨bufferType, holdOnLast, he⟩ := hf r₀
      exact ⟨r₀, bufferType, holdOnLast, hr₀, he⟩
    · exact ⟨r₀, r₀.bufferType, r₀.holdOnLast, hr₀, rfl⟩
  constructor
  · intro i r hi hm
    obtain ⟨r₀, _, _, hr₀, rfl⟩ := hback hi
    exact @Declared.root g h _ r₀ hr₀ hm
  · intro i r hi hm
    obtain ⟨r₀, _, _, hr₀, rfl⟩ := hback hi
    exact @Declared.imported g h _ r₀ hr₀ hm
  · intro i r hi hm
    obtain ⟨r₀, _, _, hr₀, rfl⟩ := hback hi
    obtain ⟨ht, hp, node, hnode, htype, hparent, hmip⟩ := h.parent hr₀ hm
    have hnode' : (g.resources.modify buffer f)[r₀.parent]? =
        some (if buffer = r₀.parent then f node else node) := by
      rw [List.getElem?_modify, hnode]
      rfl
    refine ⟨ht, hp, _, hnode', ?_⟩
    obtain ⟨bufferType, holdOnLast, he⟩ := hf node
    split
    · rw [he]
      exact ⟨htype, hparent, hmip⟩
    · exact ⟨htype, hparent, hmip⟩

lemma resources_addRead {pass resource : Nat} {usage : ResourceState}
    (e : g.addRead pass resource usage = some g') : g'.resources = g.resources := by
  unfold Graph.addRead at e
  simp only [Option.bind_eq_bind, Option.bind_eq_some_iff, Option.guard_eq_some',
    Option.pure_def, Option.some.injEq] at e
  obtain ⟨_, _, rfl⟩ := e
  rfl

lemma resources_addWrite {pass resource : Nat} {usage : ResourceState}
    (e : g.addWrite pass resource usage = some g') : g'.resources = g.resources := by
  unfold Graph.addWrite at e
  simp only [Option.bind_eq_bind, Option.bind_eq_some_iff, Option.guard_eq_some',
    Option.pure_def, Option.some.injEq] at e
  obtain ⟨_, _, rfl⟩ := e
  rfl

lemma closed_declared : Closed Declared where
  create := by
    constructor
    · intro i resource hi hm
      cases List.mem_singleton.mp (List.mem_of_getElem? hi)
      rfl
    · intro i resource hi hm
      cases List.mem_singleton.mp (List.mem_of_getElem? hi)
      cases hm
    · intro i resource hi hm
      cases List.mem_singleton.mp (List.mem_of_getElem? hi)
      cases hm
  pushResource := fun h hsub hroot himported => h.pushResource hsub hroot himported
  modifyBuffer := fun h hf e => h.modifyBuffer hf e
  pushPass := fun h => h.congr rfl
  addRead := fun h _ e => h.congr (resources_addRead e)
  readwriteBuffer := by
    intro g g' pass buffer h e
    simp only [Graph.readwriteBuffer, Option.bind_eq_bind, Option.bind_eq_some_iff,
      Option.guard_eq_some'] at e
    obtain ⟨_, _, _, _, _, _, g₁, e₁, e⟩ := e
    exact h.congr ((resources_addWrite e).trans (resources_addRead e₁))
  addColorAttachment := by
    intro g g' pass texture h e
    simp only [Graph.addColorAttachment, Option.bind_eq_bind, Option.bind_eq_some_iff,
      Option.guard_eq_some', Option.pure_def, Option.some.injEq] at e
    obtain ⟨_, _, _, _, g₁, e₁, rfl⟩ := e
    have h₁ : g₁.Declared := h.congr (resources_addWrite e₁)
    exact h₁.congr rfl
  addDepthAttachment := by
    intro g g' pass texture h e
    simp only [Graph.addDepthAttachment, Option.bind_eq_bind, Option.bind_eq_some_iff,
      Option.guard_eq_some', Option.pure_def, Option.some.injEq] at e
    obtain ⟨_, _, _, _, g₁, e₁, g₂, e₂, rfl⟩ := e
    have h₁ : g₁.Declared := h.congr (resources_addRead e₁)
    have h₂ : g₂.Declared := h₁.congr (resources_addWrite e₂)
    exact h₂.congr rfl
  addUpload := by
    intro g g' pass dest h e
    simp only [Graph.addUpload, Option.bind_eq_bind, Option.bind_eq_some_iff] at e
    obtain ⟨g₁, e₁, g₂, e₂, g₃, e₃, e⟩ := e
    have h₀ : (g.modifyPass pass fun node => { node with dest := dest }).Declared := h.congr rfl
    have h₁ : g₁.Declared := h₀.congr (resources_addWrite e₁)
    have hpush : (g₁.declareBuffer).1.Declared := h₁.pushResource
      (fun hm => by cases hm) (fun _ => rfl) (fun hm => by cases hm)
    have h₂ := hpush.modifyBuffer (fun node => ⟨.none, node.holdOnLast, rfl⟩) e₂
    have h₃ := h₂.modifyBuffer (fun node => ⟨node.bufferType, true, rfl⟩) e₃
    have h₄ : (g₃.modifyPass pass fun node =>
        { node with stagingBuffer := g₁.declareBuffer.2 }).Declared := h₃.congr rfl
    exact h₄.congr (resources_addRead e)

structure SoundPass (g : Graph) (pass : PassNode) : Prop where
  attachments : ∀ i ∈ pass.colorAttachments ++ pass.depthAttachment.toList,
    ∃ edge ∈ g.writeEdges pass, edge.index = i
  reads : ∀ edge ∈ g.readEdges pass, edge.usage = .undefined →
    ∃ edge' ∈ g.writeEdges pass, edge'.index = edge.index ∧ edge'.usage = .depthWrite
  writes : ∀ edge ∈ g.writeEdges pass, edge.usage = .renderTarget ∨ edge.usage = .depthWrite ∨
    edge.usage = .copyDest ∨ edge.usage = .unorderedAccess ∧
      ∃ resource, g.resources[edge.index]? = some resource ∧ resource.resourceType = .buffer

structure Appended (g g' : Graph) (p : Nat) (reads writes : List CompiledEdge) : Prop where
  resources : ∀ {i : Nat} {resource : ResourceNode}, g.resources[i]? = some resource →
    ∃ resource', g'.resources[i]? = some resource' ∧
      resource'.resourceType = resource.resourceType
  passes : ∀ {q : Nat} {pass' : PassNode}, g'.passes[q]? = some pass' →
    ∃ pass, g.passes[q]? = some pass ∧ pass'.colorAttachments = pass.colorAttachments ∧
      pass'.depthAttachment = pass.depthAttachment ∧
      g'.readEdges pass' = g.readEdges pass ++ (if q = p then reads else []) ∧
      g'.writeEdges pass' = g.writeEdges pass ++ (if q = p then writes else [])

namespace Appended

variable {g'' : Graph} {reads writes reads' writes' : List CompiledEdge}

lemma trans (h : Appended g g' p reads writes) (h' : Appended g' g'' p reads' writes') :
    Appended g g'' p (reads ++ reads') (writes ++ writes') where
  resources hi := by
    obtain ⟨r', hr', ht'⟩ := h.resources hi
    obtain ⟨r'', hr'', ht''⟩ := h'.resources hr'
    exact ⟨r'', hr'', ht''.trans ht'⟩
  passes hq := by
    obtain ⟨pass', hp', hc', hd', hr', hw'⟩ := h'.passes hq
    obtain ⟨pass, hp, hc, hd, hr, hw⟩ := h.passes hp'
    refine ⟨pass, hp, hc'.trans hc, hd'.trans hd, ?_, ?_⟩
    · rw [hr', hr, List.append_assoc]
      split <;> rfl
    · rw [hw', hw, List.append_assoc]
      split <;> rfl

lemma of_same (hedges : g'.edges = g.edges)
    (hresources : ∀ {i : Nat} {resource : ResourceNode}, g.resources[i]? = some resource →
      ∃ resource', g'.resources[i]? = some resource' ∧
        resource'.resourceType = resource.resourceType)
    (hpasses : ∀ {q : Nat} {pass' : PassNode}, g'.passes[q]? = some pass' →
      ∃ pass, g.passes[q]? = some pass ∧ pass'.colorAttachments = pass.colorAttachments ∧
        pass'.depthAttachment = pass.depthAttachment ∧ pass'.reads = pass.reads ∧
        pass'.writes = pass.writes) (p : Nat) : Appended g g' p [] [] where
  resources := hresources
  passes hq := by
    obtain ⟨pass, hp, hc, hd, hr, hw⟩ := hpasses hq
    refine ⟨pass, hp, hc, hd, ?_, ?_⟩
    · simp only [readEdges, hedges, hr, ite_self, List.append_nil]
    · simp only [writeEdges, hedges, hw, ite_self, List.append_nil]

lemma pushResource (g : Graph) (resource : ResourceNode) (p : Nat) :
    Appended g (g.pushResource resource).1 p [] [] := by
  apply of_same
  · rfl
  · intro i r hi
    refine ⟨r, ?_, rfl⟩
    rw [Graph.pushResource, List.getElem?_append_left (List.getElem?_eq_some_iff.mp hi).1, hi]
  · exact fun hq => ⟨_, hq, rfl, rfl, rfl, rfl⟩

lemma modifyBuffer {buffer : Nat} {f : ResourceNode → ResourceNode}
    (hf : ∀ node, (f node).resourceType = node.resourceType)
    (e : g.modifyBuffer buffer f = some g') (p : Nat) : Appended g g' p [] [] := by
  unfold Graph.modifyBuffer at e
  simp only [Option.bind_eq_bind, Option.bind_eq_some_iff, Option.guard_eq_some',
    Option.pure_def, Option.some.injEq] at e
  obtain ⟨_, _, _, _, _, _, rfl⟩ := e
  apply of_same
  · rfl
  · intro i r hi
    have hmodified : (g.resources.modify buffer f)[i]? = some (if buffer = i then f r else r) := by
      rw [List.getElem?_modify, hi]
      rfl
    refine ⟨_, hmodified, ?_⟩
    split
    · exact hf r
    · rfl
  · exact fun hq => ⟨_, hq, rfl, rfl, rfl, rfl⟩

lemma modifyPass (g : Graph) (pass : Nat) {f : PassNode → PassNode}
    (hf : ∀ node, (f node).colorAttachments = node.colorAttachments ∧
      (f node).depthAttachment = node.depthAttachment ∧ (f node).reads = node.reads ∧
      (f node).writes = node.writes) (p : Nat) : Appended g (g.modifyPass pass f) p [] [] := by
  apply of_same
  · rfl
  · exact fun hi => ⟨_, hi, rfl⟩
  · intro q pass' hq
    rw [Graph.modifyPass, List.getElem?_modify] at hq
    obtain ⟨node, hnode, rfl⟩ := Option.map_eq_some_iff.mp hq
    refine ⟨node, hnode, ?_⟩
    split
    · exact hf node
    · exact ⟨rfl, rfl, rfl, rfl⟩

lemma filterMap_append {α : Type} {es : List Nat} {edges : List Edge} {edge : Edge} (f : Edge → α)
    (h : ∀ e ∈ es, e < edges.length) :
    (es.filterMap fun e => (edges ++ [edge])[e]?.map f) = es.filterMap fun e => edges[e]?.map f := by
  apply List.filterMap_congr
  intro e he
  rw [List.getElem?_append_left (h e he)]

lemma addRead (v : Valid g) {pass resource : Nat} {usage : ResourceState}
    (e : g.addRead pass resource usage = some g') :
    Appended g g' pass [⟨resource, usage⟩] [] := by
  unfold Graph.addRead Graph.addEdge Graph.modifyPass at e
  simp only [Option.bind_eq_bind, Option.bind_eq_some_iff, Option.guard_eq_some',
    Option.pure_def, Option.some.injEq] at e
  obtain ⟨_, _, rfl⟩ := e
  refine ⟨fun hi => ⟨_, hi, rfl⟩, ?_⟩
  intro q pass' hq
  rw [List.getElem?_modify] at hq
  obtain ⟨node, hnode, rfl⟩ := Option.map_eq_some_iff.mp hq
  have hreads : ∀ e ∈ node.reads, e < g.edges.length := by
    intro e he
    obtain ⟨edge, hedge, -⟩ := v.reads hnode he
    exact (List.getElem?_eq_some_iff.mp hedge).1
  have hwrites : ∀ e ∈ node.writes, e < g.edges.length := by
    intro e he
    obtain ⟨edge, hedge, -⟩ := v.writes hnode he
    exact (List.getElem?_eq_some_iff.mp hedge).1
  refine ⟨node, hnode, ?_⟩
  by_cases hpq : pass = q
  · simp only [hpq, if_true, readEdges, writeEdges, List.filterMap_append,
      filterMap_append _ hreads, filterMap_append _ hwrites, List.append_nil]
    refine ⟨trivial, trivial, ?_, trivial⟩
    simp
  · simp only [if_neg hpq, if_neg (Ne.symm hpq), readEdges, writeEdges,
      filterMap_append _ hreads, filterMap_append _ hwrites, List.append_nil]
    exact ⟨trivial, trivial, trivial, trivial⟩

lemma addWrite (v : Valid g) {pass resource : Nat} {usage : ResourceState}
    (e : g.addWrite pass resource usage = some g') :
    Appended g g' pass [] [⟨resource, usage⟩] := by
  unfold Graph.addWrite Graph.addEdge Graph.modifyPass at e
  simp only [Option.bind_eq_bind, Option.bind_eq_some_iff, Option.guard_eq_some',
    Option.pure_def, Option.some.injEq] at e
  obtain ⟨_, _, rfl⟩ := e
  refine ⟨fun hi => ⟨_, hi, rfl⟩, ?_⟩
  intro q pass' hq
  rw [List.getElem?_modify] at hq
  obtain ⟨node, hnode, rfl⟩ := Option.map_eq_some_iff.mp hq
  have hreads : ∀ e ∈ node.reads, e < g.edges.length := by
    intro e he
    obtain ⟨edge, hedge, -⟩ := v.reads hnode he
    exact (List.getElem?_eq_some_iff.mp hedge).1
  have hwrites : ∀ e ∈ node.writes, e < g.edges.length := by
    intro e he
    obtain ⟨edge, hedge, -⟩ := v.writes hnode he
    exact (List.getElem?_eq_some_iff.mp hedge).1
  refine ⟨node, hnode, ?_⟩
  by_cases hpq : pass = q
  · simp only [hpq, if_true, readEdges, writeEdges, List.filterMap_append,
      filterMap_append _ hreads, filterMap_append _ hwrites, List.append_nil]
    refine ⟨trivial, trivial, trivial, ?_⟩
    simp
  · simp only [if_neg hpq, if_neg (Ne.symm hpq), readEdges, writeEdges,
      filterMap_append _ hreads, filterMap_append _ hwrites, List.append_nil]
    exact ⟨trivial, trivial, trivial, trivial⟩

end Appended

structure SoundPasses (g : Graph) : Prop extends Valid g where
  sound : ∀ {p : Nat} {pass : PassNode}, g.passes[p]? = some pass → g.SoundPass pass

lemma SoundPasses.append {reads writes : List CompiledEdge} (h : g.SoundPasses)
    (ha : Appended g g' p reads writes) (v : Valid g')
    (hreads : ∀ edge ∈ reads, edge.usage = .undefined →
      ∃ edge' ∈ writes, edge'.index = edge.index ∧ edge'.usage = .depthWrite)
    (hwrites : ∀ edge ∈ writes, edge.usage = .renderTarget ∨ edge.usage = .depthWrite ∨
      edge.usage = .copyDest ∨ edge.usage = .unorderedAccess ∧
        ∃ resource, g.resources[edge.index]? = some resource ∧ resource.resourceType = .buffer) :
    g'.SoundPasses := by
  refine ⟨v, ?_⟩
  intro q pass' hq
  obtain ⟨pass, hp, hc, hd, hr, hw⟩ := ha.passes hq
  obtain ⟨hattachments, hsoundReads, hsoundWrites⟩ := h.sound hp
  have hkept : ∀ {edge : CompiledEdge}, edge ∈ g.writeEdges pass → edge ∈ g'.writeEdges pass' := by
    intro edge hm
    rw [hw]
    exact List.mem_append_left _ hm
  constructor
  · intro i hi
    rw [hc, hd] at hi
    obtain ⟨edge, hedge, he⟩ := hattachments i hi
    exact ⟨edge, hkept hedge, he⟩
  · intro edge hedge hu
    rw [hr] at hedge
    cases List.mem_append.mp hedge with
    | inl hedge =>
      obtain ⟨edge', hedge', he⟩ := hsoundReads edge hedge hu
      exact ⟨edge', hkept hedge', he⟩
    | inr hedge =>
      split at hedge
      · rename_i hqp
        obtain ⟨edge', hedge', he⟩ := hreads edge hedge hu
        refine ⟨edge', ?_, he⟩
        rw [hw, if_pos hqp]
        exact List.mem_append_right _ hedge'
      · cases hedge
  · have hold : ∀ edge : CompiledEdge, (edge.usage = .renderTarget ∨ edge.usage = .depthWrite ∨
        edge.usage = .copyDest ∨ edge.usage = .unorderedAccess ∧
          ∃ resource, g.resources[edge.index]? = some resource ∧
            resource.resourceType = .buffer) →
        edge.usage = .renderTarget ∨ edge.usage = .depthWrite ∨ edge.usage = .copyDest ∨
          edge.usage = .unorderedAccess ∧ ∃ resource, g'.resources[edge.index]? = some resource ∧
            resource.resourceType = .buffer := by
      intro edge hedge
      obtain hu | hu | hu | ⟨hu, resource, hi, ht⟩ := hedge
      · exact .inl hu
      · exact .inr (.inl hu)
      · exact .inr (.inr (.inl hu))
      · obtain ⟨resource', hi', ht'⟩ := ha.resources hi
        exact .inr (.inr (.inr ⟨hu, resource', hi', ht'.trans ht⟩))
    intro edge hedge
    rw [hw] at hedge
    cases List.mem_append.mp hedge with
    | inl hedge => exact hold edge (hsoundWrites edge hedge)
    | inr hedge =>
      split at hedge
      · exact hold edge (hwrites edge hedge)
      · cases hedge

lemma SoundPasses.attach (h : g.SoundPasses) {pass : Nat} {f : PassNode → PassNode}
    (hr : ∀ node, (f node).reads = node.reads) (hw : ∀ node, (f node).writes = node.writes)
    (hf : ∀ node, g.passes[pass]? = some node →
      ∀ i ∈ (f node).colorAttachments ++ (f node).depthAttachment.toList,
        i ∈ node.colorAttachments ++ node.depthAttachment.toList ∨
          ∃ edge ∈ g.writeEdges node, edge.index = i) : (g.modifyPass pass f).SoundPasses := by
  refine ⟨h.modifyPass hr hw, ?_⟩
  intro q pass' hq
  rw [Graph.modifyPass, List.getElem?_modify] at hq
  obtain ⟨node, hnode, rfl⟩ := Option.map_eq_some_iff.mp hq
  obtain ⟨hattachments, hsoundReads, hsoundWrites⟩ := h.sound hnode
  split
  · rename_i hpq
    subst hpq
    have hreads : (g.modifyPass pass f).readEdges (f node) = g.readEdges node := by
      rw [readEdges, hr]
      rfl
    have hwrites : (g.modifyPass pass f).writeEdges (f node) = g.writeEdges node := by
      rw [writeEdges, hw]
      rfl
    constructor
    · intro i hi
      rw [hwrites]
      cases hf node hnode i hi with
      | inl hi => exact hattachments i hi
      | inr hi => exact hi
    · rw [hreads, hwrites]
      exact hsoundReads
    · rw [hwrites]
      exact hsoundWrites
  · exact ⟨hattachments, hsoundReads, hsoundWrites⟩

lemma closed_soundPasses : Closed SoundPasses where
  create := ⟨closed_valid.create, fun h => by simp [Graph.create] at h⟩
  pushResource := fun h _ _ _ => h.append (.pushResource _ _ 0) (h.toValid.pushResource _) (by rintro _ ⟨⟩) (by rintro _ ⟨⟩)
  modifyBuffer := by
    intro g g' buffer f h hf e
    refine h.append (.modifyBuffer ?_ e 0) (h.toValid.modifyBuffer e) (by rintro _ ⟨⟩) (by rintro _ ⟨⟩)
    intro node
    obtain ⟨bufferType, holdOnLast, he⟩ := hf node
    rw [he]
  pushPass := by
    intro g type h
    refine ⟨h.toValid.pushPass type, ?_⟩
    intro p pass hp
    rw [Graph.pushPass, List.getElem?_append] at hp
    split at hp
    · obtain ⟨hattachments, hreads, hwrites⟩ := h.sound hp
      exact ⟨hattachments, hreads, hwrites⟩
    · obtain rfl : PassNode.new type = pass :=
        (List.mem_singleton.mp (List.mem_of_getElem? hp)).symm
      exact ⟨by rintro _ ⟨⟩, by rintro _ ⟨⟩, by rintro _ ⟨⟩⟩
  addRead := by
    intro g g' pass resource usage h hu e
    refine h.append (.addRead h.toValid e) (h.toValid.addRead e) ?_ (by rintro _ ⟨⟩)
    intro edge hedge hu'
    rw [List.mem_singleton.mp hedge] at hu'
    exact absurd hu' hu
  readwriteBuffer := by
    intro g g' pass buffer h e
    simp only [Graph.readwriteBuffer, Option.bind_eq_bind, Option.bind_eq_some_iff,
      Option.guard_eq_some'] at e
    obtain ⟨_, _, node, hnode, _, htype, g₁, e₁, e⟩ := e
    have v₁ : Valid g₁ := h.toValid.addRead e₁
    refine h.append ((Appended.addRead h.toValid e₁).trans (.addWrite v₁ e)) (v₁.addWrite e) ?_ ?_
    · intro edge hedge hu
      rw [List.mem_singleton.mp hedge] at hu
      cases hu
    · intro edge hedge
      rw [List.mem_singleton.mp hedge]
      exact .inr (.inr (.inr ⟨rfl, node, hnode, htype⟩))
  addColorAttachment := by
    intro g g' pass texture h e
    simp only [Graph.addColorAttachment, Option.bind_eq_bind, Option.bind_eq_some_iff,
      Option.guard_eq_some', Option.pure_def, Option.some.injEq] at e
    obtain ⟨_, _, _, _, g₁, e₁, rfl⟩ := e
    have happended := Appended.addWrite h.toValid e₁
    have h₁ : g₁.SoundPasses := by
      refine h.append happended (h.toValid.addWrite e₁) (by rintro _ ⟨⟩) ?_
      intro edge hedge
      rw [List.mem_singleton.mp hedge]
      exact .inl rfl
    refine h₁.attach (fun _ => rfl) (fun _ => rfl) ?_
    intro node hnode i hi
    obtain ⟨_, -, -, -, -, hw⟩ := happended.passes hnode
    rw [if_pos rfl] at hw
    simp only [List.mem_append, List.mem_singleton] at hi ⊢
    obtain (hi | rfl) | hi := hi
    · exact .inl (.inl hi)
    · exact .inr ⟨⟨i, .renderTarget⟩, by rw [hw]; exact List.mem_append_right _ (.head _), rfl⟩
    · exact .inl (.inr hi)
  addDepthAttachment := by
    intro g g' pass texture h e
    simp only [Graph.addDepthAttachment, Option.bind_eq_bind, Option.bind_eq_some_iff,
      Option.guard_eq_some', Option.pure_def, Option.some.injEq] at e
    obtain ⟨_, _, _, _, g₁, e₁, g₂, e₂, rfl⟩ := e
    have v₁ : Valid g₁ := h.toValid.addRead e₁
    have happended := (Appended.addRead h.toValid e₁).trans (.addWrite v₁ e₂)
    have h₂ : g₂.SoundPasses := by
      refine h.append happended (v₁.addWrite e₂) ?_ ?_
      · intro edge hedge _
        rw [List.mem_singleton.mp hedge]
        exact ⟨⟨texture, .depthWrite⟩, .head _, rfl, rfl⟩
      · intro edge hedge
        rw [List.mem_singleton.mp hedge]
        exact .inr (.inl rfl)
    refine h₂.attach (fun _ => rfl) (fun _ => rfl) ?_
    intro node hnode i hi
    obtain ⟨_, -, -, -, -, hw⟩ := happended.passes hnode
    rw [if_pos rfl] at hw
    simp only [List.mem_append, Option.mem_toList, Option.some.injEq] at hi ⊢
    obtain hi | rfl := hi
    · exact .inl (.inl hi)
    · exact .inr ⟨⟨texture, .depthWrite⟩, by rw [hw]; exact List.mem_append_right _ (.head _), rfl⟩
  addUpload := by
    intro g g' pass dest h e
    simp only [Graph.addUpload, Option.bind_eq_bind, Option.bind_eq_some_iff] at e
    obtain ⟨g₁, e₁, g₂, e₂, g₃, e₃, e⟩ := e
    have same : ∀ (g : Graph) (f : PassNode → PassNode), (∀ node,
        (f node).colorAttachments = node.colorAttachments ∧
        (f node).depthAttachment = node.depthAttachment ∧ (f node).reads = node.reads ∧
        (f node).writes = node.writes) → g.SoundPasses → (g.modifyPass pass f).SoundPasses :=
      fun g f hf h => h.append (.modifyPass g pass hf 0)
        (h.toValid.modifyPass (fun n => (hf n).2.2.1) fun n => (hf n).2.2.2) (by rintro _ ⟨⟩) (by rintro _ ⟨⟩)
    have h₀ := same g (fun node => { node with dest := dest }) (fun _ => ⟨rfl, rfl, rfl, rfl⟩) h
    have h₁ : g₁.SoundPasses := by
      refine h₀.append (.addWrite h₀.toValid e₁) (h₀.toValid.addWrite e₁) (by rintro _ ⟨⟩) ?_
      intro edge hedge
      rw [List.mem_singleton.mp hedge]
      exact .inr (.inr (.inl rfl))
    have hpush : (g₁.declareBuffer).1.SoundPasses :=
      h₁.append (.pushResource _ _ 0) (h₁.toValid.pushResource _) (by rintro _ ⟨⟩) (by rintro _ ⟨⟩)
    have hmodify : ∀ {g g' : Graph} {buffer : Nat} {f : ResourceNode → ResourceNode},
        (∀ node, (f node).resourceType = node.resourceType) → g.SoundPasses →
        g.modifyBuffer buffer f = some g' → g'.SoundPasses :=
      fun hf h e => h.append (.modifyBuffer hf e 0) (h.toValid.modifyBuffer e)
          (by rintro _ ⟨⟩) (by rintro _ ⟨⟩)
    have h₂ : g₂.SoundPasses :=
      hmodify (f := fun node => { node with bufferType := .none }) (fun _ => rfl) hpush e₂
    have h₃ : g₃.SoundPasses :=
      hmodify (f := fun node => { node with holdOnLast := true }) (fun _ => rfl) h₂ e₃
    have h₄ := same g₃ (fun node => { node with stagingBuffer := g₁.declareBuffer.2 })
      (fun _ => ⟨rfl, rfl, rfl, rfl⟩) h₃
    refine h₄.append (.addRead h₄.toValid e) (h₄.toValid.addRead e) ?_ (by rintro _ ⟨⟩)
    intro edge hedge hu
    rw [List.mem_singleton.mp hedge] at hu
    cases hu

end Graph

end PulseEngine.RenderGraph
