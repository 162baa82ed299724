import PulseEngine.Library.Refinement
import PulseEngine.RenderGraph.Moves

/-!
# The nodes that handles and builders denote

What the building calls do to the nodes through references is what they do by index: where a call returns, the
graph in memory is the one that `Graph.declare` asks for.
-/

namespace PulseEngine.RenderGraph

open Library

variable {growth : Growth} {m m' : Vectors} {r : Ref}

def Vectors.graph (m : Vectors) : Graph := ⟨m.resources.items, m.passes.items, m.edges⟩

namespace Building

lemma graph_ite {α : Type} {p : Prop} [Decidable p] {x y : Building α} {o q : Option Graph}
    (hx : Meets .weak x m fun _ m' => Agrees o m'.graph) (hy : Meets .weak y m fun _ m' => Agrees q m'.graph) :
    Meets .weak (if p then x else y) m fun _ m' => Agrees (if p then o else q) m'.graph := by
  split
  · exact hx
  · exact hy

lemma graph_writeResource {f : ResourceNode → ResourceNode} :
    Meets .weak (writeResource r f) m fun _ m' =>
      m'.graph = { m.graph with resources := m.graph.resources.modify r.index f } := by
  refine meets_get ?_
  unfold Growing.write
  split
  · rename_i resources hresources
    split at hresources
    · cases hresources
      rfl
    · cases hresources
  · trivial

lemma graph_writePass {f : PassNode → PassNode} :
    Meets .weak (writePass r f) m fun _ m' => m'.graph = m.graph.modifyPass r.index f := by
  refine meets_get ?_
  unfold Growing.write
  split
  · rename_i passes hpasses
    split at hpasses
    · cases hpasses
      rfl
    · cases hpasses
  · trivial

lemma graph_pushResource {resource : ResourceNode} :
    Meets .weak (pushResource growth resource) m fun i m' =>
      m.graph.pushResource resource = (m'.graph, i) := by
  change m.graph.pushResource resource = (Vectors.graph { m with resources := _ }, _)
  rw [Graph.pushResource, Vectors.graph, Vectors.graph, items_push]

lemma graph_emplacePass {type : PassType} : Meets .weak (emplacePass growth type) m fun r m' =>
    m.graph.pushPass type = (m'.graph, r.index) := by
  change m.graph.pushPass type = (Vectors.graph { m with passes := _ }, _)
  rw [Graph.pushPass, Vectors.graph, Vectors.graph, items_push]
  rfl

lemma graph_addPass {type : PassType} : Meets .weak (addPass growth type) m fun b m' =>
    m.graph.pushPass type = (m'.graph, b.passIndex) ∧ b.passNode.index = b.passIndex :=
  graph_emplacePass.bind fun _ _ h => meets_pure ⟨h, rfl⟩

lemma graph_addEdge {fromIndex toIndex : ℕ} {usage : ResourceState} :
    Meets .weak (addEdge fromIndex toIndex usage) m fun edge m' =>
      m.graph.addEdge fromIndex toIndex usage = (m'.graph, edge) := by
  change m.graph.addEdge fromIndex toIndex usage = _
  rfl

lemma graph_importTextureImpl {imported mipLevels arraySize dynamicHandle : ℕ} :
    Meets .weak (importTextureImpl growth imported mipLevels arraySize dynamicHandle) m fun i m' =>
      Agrees (m.graph.importTextureImpl imported mipLevels arraySize dynamicHandle) (m'.graph, i) := by
  refine meets_get ?_
  split
  · rename_i remembered
    exact meets_pure (agrees_some.ite_pos remembered)
  · rename_i fresh
    refine (meets_assert trivial).bind fun _ m₁ h => ?_
    obtain ⟨-, rfl, small⟩ := h
    refine graph_pushResource.imp fun _ _ h => Agrees.ite_neg fresh (Agrees.ite_pos small ?_)
    rw [h]
    exact agrees_some

lemma graph_importDynamicBuffer {dynamicHandle : ℕ} :
    Meets .weak (importDynamicBuffer growth dynamicHandle) m fun i m' =>
      m.graph.importDynamicBuffer dynamicHandle = (m'.graph, i) := by
  refine meets_get ?_
  split
  · rename_i remembered
    exact meets_pure (if_pos remembered)
  · rename_i fresh
    exact graph_pushResource.imp fun _ _ h => (if_neg fresh).trans h

lemma graph_rootTexture : ∀ {fuel index : ℕ}, Meets .weak (rootTexture fuel index) m fun root m' =>
    m' = m ∧ root.2.index < m.resources.items.length ∧
      ∀ node, m.resources.items[root.2.index]? = some node →
        Agrees (m.graph.rootTexture fuel index) (root.1, node) := by
  intro fuel
  induction fuel with
  | zero => exact fun {index} => meets_lift (yields_unended trivial)
  | succ fuel ih =>
    intro index
    refine (meets_resourceAt trivial).bind fun r m₁ h => ?_
    obtain ⟨-, rfl, rfl, live⟩ := h
    refine (meets_readResource fun _ => trivial).bind fun node m₂ h => ?_
    obtain ⟨-, rfl, -, item⟩ := h
    have found : m₂.graph.resources[r.index]? = some node := item
    refine (meets_assert trivial).bind fun _ m₃ h => ?_
    obtain ⟨-, rfl, -⟩ := h
    unfold Graph.rootTexture
    rw [found]
    split
    · rename_i child
      refine ih.imp fun root m' h => ⟨h.1, h.2.1, fun node' hnode' => ?_⟩
      exact agrees_some.bind (agrees_guard fun _ => (h.2.2 node' hnode').ite_pos child)
    · rename_i top
      refine meets_pure ⟨rfl, live.index, fun node' hnode' => ?_⟩
      cases item.symm.trans hnode'
      exact agrees_some.bind (agrees_guard fun _ => agrees_some.ite_neg top)

lemma pushResource_modify {g g' : Graph} {resource : ResourceNode} {i : ℕ} {f : ResourceNode → ResourceNode}
    (h : g.pushResource resource = (g', i)) :
    g.pushResource (f resource) = ({ g' with resources := g'.resources.modify i f }, i) := by
  cases h
  simp only [Graph.pushResource, List.modify_eq_take_drop, List.take_left, List.drop_left]
  rfl

lemma graph_declareTextureSubresource {parent mipmap slice : ℕ} :
    Meets .weak (declareTextureSubresource growth parent mipmap slice) m fun i m' =>
      Agrees (m.graph.declareTextureSubresource parent mipmap slice) (m'.graph, i) := by
  refine (meets_assert trivial).bind fun _ m₁ h => ?_
  obtain ⟨-, rfl, -⟩ := h
  refine meets_get (graph_rootTexture.bind fun root m₂ h => ?_)
  obtain ⟨rfl, lt, agrees⟩ := h
  refine graph_pushResource.bind fun i m₃ pushed => ?_
  refine (meets_readResource fun _ => trivial).bind fun node m₄ h => ?_
  obtain ⟨-, rfl, -, item⟩ := h
  refine (meets_resourceAt trivial).bind fun r m₅ h => ?_
  obtain ⟨-, rfl, rfl, -⟩ := h
  refine graph_writeResource.bind fun _ m₆ written => meets_pure ?_
  have before : m₂.resources.items[root.2.index]? = some node := by
    have items : m₅.resources.items = m₂.resources.items ++ [.new] :=
      (congrArg (fun g => g.1.resources) pushed).symm
    rwa [items, List.getElem?_append_left lt] at item
  refine agrees_guard fun _ => (agrees node before).bind ?_
  rw [written, ← pushResource_modify pushed]
  exact agrees_some

lemma graph_modifyBuffer {buffer : ℕ} {f : ResourceNode → ResourceNode} :
    Meets .weak (modifyBuffer buffer f) m fun _ m' =>
      m'.graph = { m.graph with resources := m.graph.resources.modify buffer f } ∧
        Agrees (m.graph.modifyBuffer buffer f) m'.graph := by
  refine (meets_nodeOf trivial).bind fun node m₁ h => ?_
  obtain ⟨rfl, item⟩ := h
  refine (meets_resourceAt trivial).bind fun r m₂ h => ?_
  obtain ⟨-, rfl, rfl, -⟩ := h
  have found : m₂.graph.resources[r.index]? = some node := item
  refine graph_writeResource.imp fun _ m' written => ⟨written, agrees_guard fun _ => ?_⟩
  rw [found, written]
  exact agrees_some.bind (agrees_guard fun _ => agrees_some)

lemma graph_accessBuffer {buffer : ℕ} :
    Meets .weak (accessBuffer buffer) m fun _ m' => m'.graph = m.graph := by
  refine graph_modifyBuffer.imp fun _ m' h => ?_
  rw [h.1, List.modify_id]

section Builders

variable {pass resource : ℕ} {usage : ResourceState} (index : r.index = pass)
include index

lemma graph_addRead : Meets .weak (addRead pass r resource usage) m fun _ m' =>
    Agrees (m.graph.addRead pass resource usage) m'.graph := by
  refine graph_addEdge.bind fun edge m₁ added => graph_writePass.imp fun _ m' written => ?_
  refine agrees_guard fun _ => ?_
  rw [written, index, added]
  exact agrees_some

lemma graph_addWrite : Meets .weak (addWrite pass r resource usage) m fun _ m' =>
    Agrees (m.graph.addWrite pass resource usage) m'.graph := by
  refine graph_addEdge.bind fun edge m₁ added => graph_writePass.imp fun _ m' written => ?_
  refine agrees_guard fun _ => ?_
  rw [written, index, added]
  exact agrees_some

lemma graph_addUpload {usedNode : Ref} {dest : ℕ} : Meets .weak (addUpload growth r usedNode dest) m
    fun _ m' => Agrees (m.graph.addUpload pass dest) m'.graph := by
  subst index
  refine graph_writePass.bind fun _ m₁ h₁ => ?_
  refine (graph_addWrite rfl).bind fun _ m₂ h₂ => ?_
  refine graph_pushResource.bind fun staging m₃ h₃ => ?_
  refine (meets_readResource fun _ => trivial).bind fun _ m₄ h => ?_
  obtain ⟨-, rfl, -, -⟩ := h
  refine graph_accessBuffer.bind fun _ m₅ h₅ => ?_
  refine graph_modifyBuffer.bind fun _ m₆ h₆ => ?_
  refine graph_modifyBuffer.bind fun _ m₇ h₇ => ?_
  refine graph_writePass.bind fun _ m₈ h₈ => ?_
  refine (graph_addRead rfl).imp fun _ m' h => ?_
  unfold Graph.addUpload
  rw [← h₁]
  refine h₂.bind ?_
  unfold Graph.declareBuffer
  rw [h₃, ← h₅]
  refine h₆.2.bind (h₇.2.bind ?_)
  rwa [← h₈]

end Builders

lemma graph_addUploadTexturePass {texture mipmap slice : ℕ} :
    Meets .weak (addUploadTexturePass growth texture mipmap slice) m fun _ m' =>
      Agrees (m.graph.addUploadTexturePass texture mipmap slice) m'.graph := by
  unfold Graph.addUploadTexturePass
  refine graph_emplacePass.bind fun pass m₁ pushed => ?_
  refine (meets_assert trivial).bind fun _ m₂ h => ?_
  obtain ⟨-, rfl, -⟩ := h
  refine (meets_resourceAt trivial).bind fun r m₃ h => ?_
  obtain ⟨-, rfl, rfl, -⟩ := h
  refine (meets_readResource fun _ => trivial).bind fun node m₄ h => ?_
  obtain ⟨-, rfl, -, item⟩ := h
  refine (meets_assert trivial).bind fun _ m₅ h => ?_
  obtain ⟨-, rfl, -⟩ := h
  have found : m₅.graph.resources[r.index]? = some node := item
  rw [pushed]
  split
  · rename_i single
    refine (graph_addUpload rfl).imp fun _ m' h => agrees_guard fun _ => ?_
    rw [found]
    exact agrees_some.bind (agrees_guard fun _ => h.ite_pos single)
  · rename_i several
    refine graph_declareTextureSubresource.bind fun used m₆ declared => ?_
    refine (meets_resourceAt trivial).bind fun r' m₇ h => ?_
    obtain ⟨-, rfl, -, -⟩ := h
    refine (graph_addUpload rfl).imp fun _ m' h => agrees_guard fun _ => ?_
    rw [found]
    exact agrees_some.bind (agrees_guard fun _ => (declared.bind h).ite_neg several)

lemma graph_addUploadBufferPass {buffer : ℕ} : Meets .weak (addUploadBufferPass growth buffer) m fun _ m' =>
    Agrees (m.graph.addUploadBufferPass buffer) m'.graph := by
  unfold Graph.addUploadBufferPass
  refine graph_emplacePass.bind fun pass m₁ pushed => ?_
  refine (meets_assert trivial).bind fun _ m₂ h => ?_
  obtain ⟨-, rfl, -⟩ := h
  refine (meets_resourceAt trivial).bind fun r m₃ h => ?_
  obtain ⟨-, rfl, rfl, -⟩ := h
  refine (meets_readResource fun _ => trivial).bind fun node m₄ h => ?_
  obtain ⟨-, rfl, -, item⟩ := h
  refine (meets_assert trivial).bind fun _ m₅ h => ?_
  obtain ⟨-, rfl, -⟩ := h
  have found : m₅.graph.resources[r.index]? = some node := item
  refine (graph_addUpload rfl).imp fun _ m' h => ?_
  rw [pushed]
  refine agrees_guard fun _ => ?_
  rw [found]
  exact agrees_some.bind (agrees_guard fun _ => h)

lemma graph_declareUniformBufferQuick : Meets .weak (declareUniformBufferQuick growth) m fun _ m' =>
    Agrees m.graph.declareUniformBufferQuick m'.graph := by
  unfold Graph.declareUniformBufferQuick
  refine graph_pushResource.bind fun ubo m₁ pushed => ?_
  rw [pushed]
  exact graph_addUploadBufferPass

lemma graph_present {texture : ℕ} : Meets .weak (present growth texture) m fun _ m' =>
    Agrees (m.graph.present texture) m'.graph := by
  unfold Graph.present
  refine graph_emplacePass.bind fun pass m₁ pushed => ?_
  rw [pushed]
  exact graph_addRead rfl

section Builders

variable {b : Builder} (index : b.passNode.index = b.passIndex)
include index

lemma graph_addColorAttachment {texture : ℕ} : Meets .weak (addColorAttachment b texture) m fun _ m' =>
    Agrees (m.graph.addColorAttachment b.passIndex texture) m'.graph := by
  refine (meets_readPass fun _ => trivial).bind fun node m₁ h => ?_
  obtain ⟨-, rfl, -, item⟩ := h
  refine (meets_assert trivial).bind fun _ m₂ h => ?_
  obtain ⟨-, rfl, -⟩ := h
  refine (meets_assert trivial).bind fun _ m₃ h => ?_
  obtain ⟨-, rfl, -⟩ := h
  have found : m₃.graph.passes[b.passIndex]? = some node := index ▸ item
  refine (graph_addWrite index).bind fun _ m₄ added => ?_
  split
  · refine graph_writePass.imp fun _ m' written => ?_
    unfold Graph.addColorAttachment
    rw [found]
    refine agrees_some.bind (agrees_guard fun _ => added.bind ?_)
    rw [written, index]
    exact agrees_some
  · trivial

lemma graph_addDepthAttachment {texture : ℕ} : Meets .weak (addDepthAttachment b texture) m fun _ m' =>
    Agrees (m.graph.addDepthAttachment b.passIndex texture) m'.graph := by
  refine (meets_readPass fun _ => trivial).bind fun node m₁ h => ?_
  obtain ⟨-, rfl, -, item⟩ := h
  refine (meets_assert trivial).bind fun _ m₂ h => ?_
  obtain ⟨-, rfl, -⟩ := h
  refine (meets_assert trivial).bind fun _ m₃ h => ?_
  obtain ⟨-, rfl, -⟩ := h
  have found : m₃.graph.passes[b.passIndex]? = some node := index ▸ item
  refine (graph_addRead index).bind fun _ m₄ read => ?_
  refine (graph_addWrite index).bind fun _ m₅ added => graph_writePass.imp fun _ m' written => ?_
  unfold Graph.addDepthAttachment
  rw [found]
  refine agrees_some.bind (agrees_guard fun _ => read.bind (added.bind ?_))
  rw [written, index]
  exact agrees_some

lemma graph_useBufferAs {buffer : ℕ} {state : ResourceState} :
    Meets .weak (useBufferAs b buffer state) m fun _ m' =>
      Agrees (m.graph.useBufferAs b.passIndex buffer state) m'.graph := by
  refine (meets_nodeOf trivial).bind fun node m₁ h => ?_
  obtain ⟨rfl, item⟩ := h
  refine (meets_assert trivial).bind fun _ m₂ h => ?_
  obtain ⟨-, rfl, -⟩ := h
  have found : m₂.graph.resources[buffer]? = some node := item
  refine (graph_addRead index).imp fun _ m' h => agrees_guard fun _ => ?_
  rw [found]
  exact agrees_some.bind (agrees_guard fun _ => h)

lemma graph_useBuffer {buffer : ℕ} : Meets .weak (useBuffer b buffer) m fun _ m' =>
    Agrees (m.graph.useBuffer b.passIndex buffer) m'.graph := by
  refine (meets_nodeOf trivial).bind fun node m₁ h => ?_
  obtain ⟨rfl, item⟩ := h
  have found : m₁.graph.resources[buffer]? = some node := item
  have read : ∀ {usage}, Meets .weak (addRead b.passIndex b.passNode buffer usage) m₁ fun _ m' =>
      Agrees (m₁.graph.addRead b.passIndex buffer usage) m'.graph := graph_addRead index
  refine Meets.imp (graph_ite read (graph_ite read (graph_ite (q := none) read trivial))) fun _ m' h =>
    agrees_guard fun _ => ?_
  rw [found]
  exact agrees_some.bind (agrees_guard fun _ => h)

lemma graph_computeUseBuffer {buffer : ℕ} : Meets .weak (computeUseBuffer b buffer) m fun _ m' =>
    Agrees (m.graph.computeUseBuffer b.passIndex buffer) m'.graph := by
  refine (meets_nodeOf trivial).bind fun node m₁ h => ?_
  obtain ⟨rfl, item⟩ := h
  have found : m₁.graph.resources[buffer]? = some node := item
  have read : ∀ {usage}, Meets .weak (addRead b.passIndex b.passNode buffer usage) m₁ fun _ m' =>
      Agrees (m₁.graph.addRead b.passIndex buffer usage) m'.graph := graph_addRead index
  refine Meets.imp (graph_ite read (graph_ite read (graph_ite read (graph_ite (q := none) read trivial))))
    fun _ m' h => agrees_guard fun _ => ?_
  rw [found]
  exact agrees_some.bind (agrees_guard fun _ => h)

lemma graph_readwriteBuffer {buffer : ℕ} : Meets .weak (readwriteBuffer b buffer) m fun _ m' =>
    Agrees (m.graph.readwriteBuffer b.passIndex buffer) m'.graph := by
  refine (meets_nodeOf trivial).bind fun node m₁ h => ?_
  obtain ⟨rfl, item⟩ := h
  have found : m₁.graph.resources[buffer]? = some node := item
  refine (graph_addRead index).bind fun _ m₂ read => (graph_addWrite index).imp fun _ m' added => ?_
  refine agrees_guard fun _ => ?_
  rw [found]
  exact agrees_some.bind (agrees_guard fun _ => read.bind added)

end Builders

lemma graph_generateMips {textureNode : Ref} {texture slice last : ℕ} {mips : List ℕ} :
    Meets .weak (generateMips growth textureNode texture slice last mips) m fun _ m' =>
      Agrees (m.graph.generateMips texture slice last mips) m'.graph := by
  induction mips generalizing m last with
  | nil =>
    refine (meets_readResource fun _ => trivial).bind fun _ _ h => meets_pure ?_
    rw [h.2.1]
    exact agrees_some
  | cons i mips ih =>
    refine (meets_readResource fun _ => trivial).bind fun _ m₁ h => ?_
    obtain ⟨-, rfl, -, -⟩ := h
    refine graph_declareTextureSubresource.bind fun mip m₂ declared => ?_
    refine graph_addPass.bind fun b m₃ h => ?_
    obtain ⟨pushed, index⟩ := h
    refine (graph_addColorAttachment index).bind fun _ m₄ attached => ?_
    refine (graph_addRead index).bind fun _ m₅ sampled => ?_
    refine graph_writePass.bind fun _ m₆ written => ih.imp fun _ m' rest => ?_
    have same : m₆.graph = m₅.graph := by rw [written, Graph.modifyPass, List.modify_id]
    rw [same] at rest
    refine declared.bind ?_
    simp only [Graph.addRenderPass, pushed]
    refine attached.bind ?_
    exact Agrees.bind sampled rest

lemma graph_generateSlices {textureNode : Ref} {texture fromMipmap : ℕ} {mips slices : List ℕ} :
    Meets .weak (generateSlices growth textureNode texture fromMipmap mips slices) m fun _ m' =>
      Agrees (m.graph.generateSlices texture fromMipmap mips slices) m'.graph := by
  induction slices generalizing m with
  | nil =>
    refine (meets_readResource fun _ => trivial).bind fun _ _ h => meets_pure ?_
    rw [h.2.1]
    exact agrees_some
  | cons slice slices ih =>
    refine (meets_readResource fun _ => trivial).bind fun _ m₁ h => ?_
    obtain ⟨-, rfl, -, -⟩ := h
    refine graph_declareTextureSubresource.bind fun last m₂ declared => ?_
    refine graph_generateMips.bind fun _ m₃ levels => ih.imp fun _ m' rest => ?_
    exact declared.bind (levels.bind rest)

lemma graph_addGenerateMipmap {texture fromMipmap : ℕ} :
    Meets .weak (addGenerateMipmap growth texture fromMipmap) m fun _ m' =>
      Agrees (m.graph.addGenerateMipmap texture fromMipmap) m'.graph := by
  refine (meets_assert trivial).bind fun _ m₁ h => ?_
  obtain ⟨-, rfl, -⟩ := h
  refine (meets_resourceAt trivial).bind fun r m₂ h => ?_
  obtain ⟨-, rfl, rfl, -⟩ := h
  refine (meets_readResource fun _ => trivial).bind fun node m₃ h => ?_
  obtain ⟨-, rfl, -, item⟩ := h
  refine (meets_assert trivial).bind fun _ m₄ h => ?_
  obtain ⟨-, rfl, -⟩ := h
  have found : m₄.graph.resources[r.index]? = some node := item
  refine Meets.imp (graph_ite (meets_pure agrees_some) graph_generateSlices) fun _ m' h => ?_
  refine agrees_guard fun _ => ?_
  rw [found]
  exact agrees_some.bind (agrees_guard fun _ => h)

end Building

def Graph.after (g : Graph) : BuildingCall → Option Graph
  | .declaration d => g.declare d
  | _ => some g

namespace Site

variable {s s' : Site} {c : BuildingCall} {pass : ℕ} {α : Type}

def Denotes (growth : Growth) (s : Site) (c : BuildingCall) : Prop :=
  ∀ s', s.step growth c = some s' → Agrees (s.memory.graph.after c) s'.memory.graph

lemma graph_without {o : Option Graph} {x : Building α}
    (h : Meets .weak x s.memory fun _ m' => Agrees o m'.graph) :
    Meets .weak (s.without x) s.memory fun _ m' => Agrees o m'.graph :=
  h.bind fun _ _ h => meets_pure h

lemma graph_withoutHandle {o : Option (Graph × ℕ)} {x : Building ℕ}
    (h : Meets .weak x s.memory fun i m' => Agrees o (m'.graph, i)) :
    Meets .weak (s.without x) s.memory fun _ m' => Agrees (o.map (·.1)) m'.graph :=
  h.bind fun _ _ h => meets_pure h.map

lemma graph_withoutSome {r : Graph × ℕ} {x : Building ℕ}
    (h : Meets .weak x s.memory fun i m' => r = (m'.graph, i)) :
    Meets .weak (s.without x) s.memory fun _ m' => Agrees (some r.1) m'.graph := by
  refine graph_without (h.imp fun _ _ h => ?_)
  rw [h]
  exact agrees_some

lemma graph_withNew {type : PassType} :
    Meets .weak (s.withNew (Building.addPass growth type)) s.memory fun _ m' =>
      Agrees (some (s.memory.graph.pushPass type).1) m'.graph := by
  refine Building.graph_addPass.bind fun b m' h => meets_pure ?_
  rw [h.1]
  exact agrees_some

lemma graph_withBuilder {x : Builder → Building PUnit} {o : ℕ → Option Graph} (wf : s.WF)
    (h : ∀ b, b.passNode.index = b.passIndex →
      Meets .weak (x b) s.memory fun _ m' => Agrees (o b.passIndex) m'.graph) :
    Meets .weak (s.withBuilder pass x) s.memory fun _ m' => Agrees (o pass) m'.graph := by
  unfold withBuilder
  split
  · rename_i b hb
    obtain ⟨mem, rfl⟩ := builderOf_mem hb
    exact (h b (wf.builders b mem).1).bind fun _ _ h => meets_pure h
  · exact (meets_throw (Q := fun _ _ => False) trivial).bind fun _ _ h => h.elim

lemma graph_call (wf : s.WF) : Meets .weak (s.call growth c) s.memory fun _ m' =>
    Agrees (s.memory.graph.after c) m'.graph := by
  cases c with
  | accessTexture texture =>
    refine graph_without ((Building.meets_nodeOf trivial).bind fun _ m' h => meets_pure ?_)
    rw [h.1]
    exact agrees_some
  | accessBuffer buffer =>
    refine graph_without (Building.graph_accessBuffer.imp fun _ m' h => ?_)
    rw [h]
    exact agrees_some
  | setExecutable pass =>
    refine graph_withBuilder (o := fun _ => some s.memory.graph) wf fun b _ =>
      Building.graph_writePass.imp fun _ m' h => ?_
    rw [h, Graph.modifyPass, List.modify_id]
    exact agrees_some
  | declaration d =>
    cases d with
    | declareTexture | declareBuffer | importBuffer => exact graph_withoutSome Building.graph_pushResource
    | importTexture => exact graph_withoutHandle Building.graph_importTextureImpl
    | importBackbuffer =>
      refine graph_withoutHandle (Building.graph_pushResource.bind fun _ m₁ pushed => ?_)
      unfold Graph.importBackbuffer
      rw [pushed]
      exact Building.graph_importTextureImpl
    | importDynamicBuffer => exact graph_withoutSome Building.graph_importDynamicBuffer
    | declareUniformBufferQuick => exact graph_without Building.graph_declareUniformBufferQuick
    | declareTextureSubresource => exact graph_withoutHandle Building.graph_declareTextureSubresource
    | bufferSetType | bufferSetHoldOnLast =>
      exact graph_without (Building.graph_modifyBuffer.imp fun _ _ h => h.2)
    | addRenderPass | addComputePass | addHoldpass => exact graph_withNew
    | addUploadTexturePass => exact graph_without Building.graph_addUploadTexturePass
    | addUploadBufferPass => exact graph_without Building.graph_addUploadBufferPass
    | addGenerateMipmap => exact graph_without Building.graph_addGenerateMipmap
    | present => exact graph_without Building.graph_present
    | addColorAttachment pass texture =>
      exact graph_withBuilder (o := (s.memory.graph.addColorAttachment · texture)) wf fun _ index =>
        Building.graph_addColorAttachment index
    | addDepthAttachment pass texture =>
      exact graph_withBuilder (o := (s.memory.graph.addDepthAttachment · texture)) wf fun _ index =>
        Building.graph_addDepthAttachment index
    | sample pass texture =>
      exact graph_withBuilder (o := (s.memory.graph.sample · texture)) wf fun _ index =>
        Building.graph_addRead index
    | useBuffer pass buffer =>
      exact graph_withBuilder (o := (s.memory.graph.useBuffer · buffer)) wf fun _ index =>
        Building.graph_useBuffer index
    | useBufferAs pass buffer state =>
      exact graph_withBuilder (o := (s.memory.graph.useBufferAs · buffer state)) wf fun _ index =>
        Building.graph_useBufferAs index
    | computeUseBuffer pass buffer =>
      exact graph_withBuilder (o := (s.memory.graph.computeUseBuffer · buffer)) wf fun _ index =>
        Building.graph_computeUseBuffer index
    | readwriteBuffer pass buffer =>
      exact graph_withBuilder (o := (s.memory.graph.readwriteBuffer · buffer)) wf fun _ index =>
        Building.graph_readwriteBuffer index

variable {calls : List BuildingCall} {resourceCount passCount : ℕ}

lemma wf_start : (start growth resourceCount passCount).WF := by
  refine ⟨⟨?_, Nat.zero_le _⟩, fun b hb => nomatch hb⟩
  have pushed : Pushed 1 (.reserve resourceCount) ((Growing.reserve resourceCount).push growth ResourceNode.new) :=
    .push _
  exact pushed.fits (Nat.zero_le _)

lemma step_eq_some : s.step growth c = some s' ↔
    Returns (s.call growth c s.memory) (s'.builders, s'.memory) := by
  unfold step Returns
  split
  · rename_i builders memory h
    rw [h]
    constructor
    · intro hs
      cases hs
      rfl
    · intro hs
      cases hs
      rfl
  · rename_i h
    exact iff_of_false nofun fun hs => h _ _ hs

lemma step_meets {Q : List Builder → Vectors → Prop} (h : Meets .weak (s.call growth c) s.memory Q)
    (hs : s.step growth c = some s') : Q s'.builders s'.memory :=
  Yields.returns (Q := fun r : List Builder × Vectors => Q r.1 r.2) h (step_eq_some.mp hs)

lemma step_wf (wf : s.WF) (hs : s.step growth c = some s') : s.Stable growth c ∧ s'.WF :=
  step_meets (meets_call wf trivial trivial fun _ => ⟨trivial, trivial⟩) hs

/-- **One stable call** accesses nodes through live references only, and does what is asked for. -/
lemma safe_of_stable (wf : s.WF) (stable : s.Stable growth c) : s.Safe growth c ∧ s.Denotes growth c := by
  have meets : Meets ⟨True, (· = .assertion)⟩ (s.call growth c) s.memory fun builders m' =>
      s.Stable growth c ∧ WF ⟨m', builders⟩ := meets_call wf rfl trivial fun lost => absurd stable lost
  unfold Meets Yields at meets
  refine ⟨⟨fun h => ?_, fun h => ?_⟩, fun s' hs => step_meets (graph_call wf) hs⟩
  · rw [h] at meets
    cases meets
  · rw [h] at meets
    cases meets

/-- **Building reads and writes live nodes** as long as the resources have room for what is appended while a
reference is kept, no pass was moved since its builder was returned, and there is a color attachment left; and
a run that returns has met this condition at every call. -/
theorem building_live (growth : Growth) (resourceCount passCount : ℕ) (calls : List BuildingCall) :
    (Along (step growth) (Stable growth) (start growth resourceCount passCount) calls →
      Along (step growth) (fun s c => s.Safe growth c ∧ s.Denotes growth c)
        (start growth resourceCount passCount) calls) ∧
    ∀ s, run (step growth) (start growth resourceCount passCount) calls = some s →
      Along (step growth) (Stable growth) (start growth resourceCount passCount) calls := by
  refine ⟨Along.mono_of (fun s c s' wf _ hs => (step_wf wf hs).2) (fun s c => safe_of_stable) wf_start, ?_⟩
  intro s h
  refine (along_iff (Q := fun _ _ => True) (fun s c s' wf hs => ?_) wf_start h).mpr (.of_forall fun _ _ => trivial)
  exact ⟨iff_true_intro (step_wf wf hs).1, fun _ => (step_wf wf hs).2⟩

def doubling : Growth := ⟨fun n => n + max n 1, by omega⟩

/-- Two passes are open at once, and one of them is used after an upload. -/
theorem building_live_room : Along (step doubling) (fun s c => s.Safe doubling c ∧ s.Denotes doubling c)
    (start doubling 4 3) [.declaration .declareTexture, .declaration .addRenderPass,
      .declaration .addComputePass, .declaration .declareBuffer, .declaration (.addUploadBufferPass 2),
      .declaration (.addColorAttachment 0 1), .setExecutable 1] :=
  (building_live doubling 4 3 _).1 ((building_live doubling 4 3 _).2 _ rfl)

/-- With room for one pass, the builder of the first pass is lost when a second pass is added. -/
theorem not_building_live : ¬ ∀ (growth : Growth) (resourceCount passCount : ℕ) (calls : List BuildingCall),
    Along (step growth) (Safe growth) (start growth resourceCount passCount) calls := by
  intro live
  obtain ⟨-, run⟩ := live doubling 2 1 [.declaration .declareTexture, .declaration .addRenderPass,
    .declaration .addRenderPass, .declaration (.addColorAttachment 0 1)]
  obtain ⟨-, run⟩ := run _ rfl
  obtain ⟨-, run⟩ := run _ rfl
  obtain ⟨⟨dangling, -⟩, -⟩ := run _ rfl
  exact dangling rfl

end Site

end PulseEngine.RenderGraph
