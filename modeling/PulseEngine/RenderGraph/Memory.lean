import PulseEngine.Library.Growing
import PulseEngine.Library.Run
import PulseEngine.Library.Stateful
import PulseEngine.RenderGraph.Build

/-!
# Building a render graph in memory

The building calls of `rendergraph.cpp` once more, with the references and pointers to nodes that they keep.
An access through a reference that was taken before its vector moved, and one beyond the color attachments,
are faults of their own. A handle that denotes no node is not a call, like one that fails an assertion.
-/

namespace PulseEngine.RenderGraph

open Library

inductive Fault where
  | assertion
  | dangling
  | outOfRange
  deriving DecidableEq, Repr

/-- The vectors of `pulse_rendergraph_impl_t`. -/
structure Vectors where
  resources : Growing ResourceNode
  passes : Growing PassNode
  edges : List Edge

abbrev Building := StateT Vectors (Fallible Fault)

/-- `PulseRenderPassBuilder` and `PulseComputePassBuilder`. -/
structure Builder where
  passIndex : ℕ
  passNode : Ref

namespace Building

def assert (p : Prop) [Decidable p] : Building PUnit :=
  if p then pure PUnit.unit else throw Fault.assertion

def resourceAt (handle : ℕ) : Building Ref := do
  let m ← get
  assert (handle < m.resources.items.length)
  pure (m.resources.ref handle)

def readResource (r : Ref) : Building ResourceNode := do
  let m ← get
  match m.resources.read r with
  | some node => pure node
  | none => throw .dangling

def writeResource (r : Ref) (f : ResourceNode → ResourceNode) : Building PUnit := do
  let m ← get
  match m.resources.write r f with
  | some resources => set { m with resources := resources }
  | none => throw .dangling

def readPass (r : Ref) : Building PassNode := do
  let m ← get
  match m.passes.read r with
  | some node => pure node
  | none => throw .dangling

def writePass (r : Ref) (f : PassNode → PassNode) : Building PUnit := do
  let m ← get
  match m.passes.write r f with
  | some passes => set { m with passes := passes }
  | none => throw .dangling

def addEdge (fromIndex toIndex : ℕ) (usage : ResourceState) : Building ℕ := do
  let m ← get
  set { m with edges := m.edges ++ [Edge.mk fromIndex toIndex usage] }
  pure m.edges.length

variable (growth : Growth)

/-- `push_back` to the resources; the index is the handle. -/
def pushResource (resource : ResourceNode) : Building ℕ := do
  let m ← get
  set { m with resources := m.resources.push growth resource }
  pure m.resources.items.length

/-- `emplace_back` to the passes, and the reference that it returns. -/
def emplacePass (type : PassType) : Building Ref := do
  let m ← get
  let passes := m.passes.push growth (.new type)
  set { m with passes := passes }
  pure (passes.ref m.passes.items.length)

def declareTexture : Building ℕ :=
  pushResource growth { ResourceNode.new with mipCount := 1, arraySize := 1 }

def importTextureImpl (imported mipLevels arraySize dynamicHandle : ℕ) : Building ℕ := do
  let m ← get
  if dynamicHandle ≠ 0 ∧ dynamicHandle < m.resources.items.length then pure dynamicHandle
  else do
    assert (mipLevels ≤ 0xFF ∧ arraySize ≤ 0xFF)
    pushResource growth { ResourceNode.new with
      manageType := .imported, imported := some imported, mipCount := mipLevels, arraySize := arraySize }

def importBackbuffer (imported mipLevels arraySize dynamicHandle : ℕ) : Building ℕ := do
  let _ ← pushResource growth .new
  importTextureImpl growth imported mipLevels arraySize dynamicHandle

def declareBuffer : Building ℕ := pushResource growth { ResourceNode.new with resourceType := .buffer }

def importBufferImpl (imported : ℕ) (bufferType : BufferType) : Building ℕ :=
  pushResource growth { ResourceNode.new with
    resourceType := .buffer, manageType := .imported, imported := some imported, bufferType := bufferType }

def importDynamicBuffer (dynamicHandle : ℕ) : Building ℕ := do
  let m ← get
  if dynamicHandle ≠ 0 ∧ dynamicHandle < m.resources.items.length then pure dynamicHandle
  else pushResource growth { ResourceNode.new with resourceType := .buffer }

/-- The loop of `pulse_render_graph_declare_texture_subresource`: the root and the pointer to it. -/
def rootTexture : ℕ → ℕ → Building (ℕ × Ref)
  | 0, _ => StateT.lift unended
  | fuel + 1, index => do
    let textureNode ← resourceAt index
    let node ← readResource textureNode
    assert (node.resourceType = .texture)
    if node.parent ≠ 0 then rootTexture fuel node.parent else pure (index, textureNode)

/-- `pulse_render_graph_declare_texture_subresource`: the pointer is read after the node was appended. -/
def declareTextureSubresource (parent mipmap slice : ℕ) : Building ℕ := do
  assert (parent ≠ 0)
  let m ← get
  let (parent, textureNode) ← rootTexture (m.resources.items.length + 1) parent
  let index ← pushResource growth .new
  let node ← readResource textureNode
  let resourceNode ← resourceAt index
  writeResource resourceNode fun _ => { ResourceNode.new with
    manageType := .subResource, mipCount := node.mipCount, arraySize := node.arraySize
    parent := parent, mipLevel := mipmap, arraySlice := slice }
  pure index

def nodeOf (type : ResourceType) (handle : ℕ) : Building ResourceNode := do
  assert (handle ≠ 0)
  let r ← resourceAt handle
  let node ← readResource r
  assert (node.resourceType = type)
  pure node

def accessTexture (texture : ℕ) : Building PUnit := do
  let _ ← nodeOf .texture texture

def modifyBuffer (buffer : ℕ) (f : ResourceNode → ResourceNode) : Building PUnit := do
  let _ ← nodeOf .buffer buffer
  let r ← resourceAt buffer
  writeResource r f

def bufferSetType (buffer : ℕ) (bufferType : BufferType) : Building PUnit :=
  modifyBuffer buffer fun node => { node with bufferType := bufferType }

def bufferSetHoldOnLast (buffer : ℕ) : Building PUnit :=
  modifyBuffer buffer fun node => { node with holdOnLast := true }

/-- `pulse_render_graph_buffer_set_size` and `pulse_render_graph_buffer_set_usage`. -/
def accessBuffer (buffer : ℕ) : Building PUnit := modifyBuffer buffer id

/-- `pulse_render_graph_add_render_pass`, `pulse_render_graph_add_compute_pass` and
`pulse_render_graph_add_holdpass`. -/
def addPass (type : PassType) : Building Builder := do
  let passNode ← emplacePass growth type
  pure ⟨passNode.index, passNode⟩

def addRead (passIndex : ℕ) (passNode : Ref) (resource : ℕ) (usage : ResourceState) : Building PUnit := do
  let edge ← addEdge resource passIndex usage
  writePass passNode fun node => { node with reads := node.reads ++ [edge] }

def addWrite (passIndex : ℕ) (passNode : Ref) (resource : ℕ) (usage : ResourceState) : Building PUnit := do
  let edge ← addEdge passIndex resource usage
  writePass passNode fun node => { node with writes := node.writes ++ [edge] }

/-- `pulse_render_pass_builder_add_color_attachment`; the assertion lets one more through than there are. -/
def addColorAttachment (b : Builder) (texture : ℕ) : Building PUnit := do
  let node ← readPass b.passNode
  assert (node.type = .render)
  assert (node.colorAttachments.length ≤ 8)
  addWrite b.passIndex b.passNode texture .renderTarget
  if node.colorAttachments.length < 8 then
    writePass b.passNode fun node => { node with colorAttachments := node.colorAttachments ++ [texture] }
  else throw .outOfRange

/-- `pulse_render_pass_builder_add_depth_attachment`. -/
def addDepthAttachment (b : Builder) (texture : ℕ) : Building PUnit := do
  let node ← readPass b.passNode
  assert (node.type = .render)
  assert (node.depthAttachment = none)
  addRead b.passIndex b.passNode texture .undefined
  addWrite b.passIndex b.passNode texture .depthWrite
  writePass b.passNode fun node => { node with depthAttachment := some texture }

/-- `pulse_render_pass_builder_sample` and `pulse_computepass_sample`. -/
def sample (b : Builder) (texture : ℕ) : Building PUnit :=
  addRead b.passIndex b.passNode texture .shaderResource

def useBuffer (b : Builder) (buffer : ℕ) : Building PUnit := do
  let node ← nodeOf .buffer buffer
  if node.bufferType.vertexBuffer then addRead b.passIndex b.passNode buffer .vertexAndConstantBuffer
  else if node.bufferType.indexBuffer then addRead b.passIndex b.passNode buffer .indexBuffer
  else if node.bufferType.uniformBuffer then addRead b.passIndex b.passNode buffer .vertexAndConstantBuffer
  else throw .assertion

/-- `pulse_render_pass_builder_use_buffer_as` and `pulse_compute_pass_builder_use_buffer_as`. -/
def useBufferAs (b : Builder) (buffer : ℕ) (state : ResourceState) : Building PUnit := do
  let _ ← nodeOf .buffer buffer
  assert (state ≠ .undefined)
  addRead b.passIndex b.passNode buffer state

def computeUseBuffer (b : Builder) (buffer : ℕ) : Building PUnit := do
  let node ← nodeOf .buffer buffer
  if node.bufferType = { BufferType.none with vertexBuffer := true } then
    addRead b.passIndex b.passNode buffer .vertexAndConstantBuffer
  else if node.bufferType = { BufferType.none with indexBuffer := true } then
    addRead b.passIndex b.passNode buffer .indexBuffer
  else if node.bufferType = { BufferType.none with uniformBuffer := true } then
    addRead b.passIndex b.passNode buffer .vertexAndConstantBuffer
  else if node.bufferType = { BufferType.none with rwBuffer := true } then
    addRead b.passIndex b.passNode buffer .unorderedAccess
  else throw .assertion

def readwriteBuffer (b : Builder) (buffer : ℕ) : Building PUnit := do
  let _ ← nodeOf .buffer buffer
  addRead b.passIndex b.passNode buffer .unorderedAccess
  addWrite b.passIndex b.passNode buffer .unorderedAccess

/-- `pulse_render_pass_builder_set_executable` and `pulse_compute_pass_builder_set_executable`, which write
what a pass executes. -/
def setExecutable (b : Builder) : Building PUnit := writePass b.passNode id

/-- The part of an upload pass that the two kinds share: what the staging buffer is made for is read through
`usedNode` after the buffer was appended. -/
def addUpload (pass usedNode : Ref) (dest : ℕ) : Building PUnit := do
  writePass pass fun node => { node with dest := dest }
  addWrite pass.index pass dest .copyDest
  let staging ← declareBuffer growth
  let _ ← readResource usedNode
  accessBuffer staging
  bufferSetType staging .none
  bufferSetHoldOnLast staging
  writePass pass fun node => { node with stagingBuffer := staging }
  addRead pass.index pass staging .copySource

/-- `pulse_render_graph_add_uploadtexturepass_ex`: the reference to the texture, or to the subresource that is
declared, is kept. -/
def addUploadTexturePass (texture mipmap slice : ℕ) : Building PUnit := do
  let pass ← emplacePass growth .uploadTexture
  assert (texture ≠ 0)
  let textureNode ← resourceAt texture
  let node ← readResource textureNode
  assert (node.resourceType = .texture)
  if node.mipCount = 1 ∧ node.arraySize = 1 then addUpload growth pass textureNode texture
  else do
    let used ← declareTextureSubresource growth texture mipmap slice
    let usedTextureNode ← resourceAt used
    addUpload growth pass usedTextureNode used

def addUploadBufferPass (buffer : ℕ) : Building PUnit := do
  let pass ← emplacePass growth .uploadBuffer
  assert (buffer ≠ 0)
  let resourceNode ← resourceAt buffer
  let node ← readResource resourceNode
  assert (node.resourceType = .buffer)
  addUpload growth pass resourceNode buffer

/-- `pulse_render_graph_declare_uniform_buffer_quick`. -/
def declareUniformBufferQuick : Building PUnit := do
  let ubo ← pushResource growth { ResourceNode.new with
    resourceType := .buffer, bufferType := { BufferType.none with uniformBuffer := true } }
  addUploadBufferPass growth ubo

/-- The inner loop of `pulse_render_graph_add_generate_mipmap`, which reads the number of mip levels through
its reference each time. -/
def generateMips (textureNode : Ref) (texture slice last : ℕ) : List ℕ → Building PUnit
  | [] => do
    let _ ← readResource textureNode
  | i :: mips => do
    let _ ← readResource textureNode
    let mip ← declareTextureSubresource growth texture i slice
    let builder ← addPass growth .render
    addColorAttachment builder mip
    sample builder last
    setExecutable builder
    generateMips textureNode texture slice mip mips

/-- The outer loop of `pulse_render_graph_add_generate_mipmap`. -/
def generateSlices (textureNode : Ref) (texture fromMipmap : ℕ) (mips : List ℕ) : List ℕ → Building PUnit
  | [] => do
    let _ ← readResource textureNode
  | slice :: slices => do
    let _ ← readResource textureNode
    let last ← declareTextureSubresource growth texture (fromMipmap - 1) slice
    generateMips growth textureNode texture slice last mips
    generateSlices textureNode texture fromMipmap mips slices

def addGenerateMipmap (texture fromMipmap : ℕ) : Building PUnit := do
  assert (texture ≠ 0)
  let textureNode ← resourceAt texture
  let node ← readResource textureNode
  assert (node.resourceType = .texture ∧ node.manageType ≠ .subResource ∧ 0 < fromMipmap)
  if node.mipCount ≤ fromMipmap then pure PUnit.unit
  else
    generateSlices growth textureNode texture fromMipmap
      ((List.range node.mipCount).drop fromMipmap) (List.range node.arraySize)

def present (texture : ℕ) : Building PUnit := do
  let pass ← emplacePass growth .present
  addRead pass.index pass texture .present

end Building

inductive BuildingCall where
  | declaration (d : Declaration)
  | accessTexture (texture : ℕ)
  | accessBuffer (buffer : ℕ)
  | setExecutable (pass : ℕ)
  deriving DecidableEq

structure Site where
  memory : Vectors
  builders : List Builder

namespace Site

def start (growth : Growth) (resourceCount passCount : ℕ) : Site :=
  ⟨⟨(Growing.reserve resourceCount).push growth .new, .reserve passCount, []⟩, []⟩

def builderOf (s : Site) (pass : ℕ) : Option Builder := s.builders.find? fun b => b.passIndex = pass

def withBuilder (s : Site) (pass : ℕ) (call : Builder → Building PUnit) : Building (List Builder) := do
  match s.builderOf pass with
  | some b => call b
  | none => throw .assertion
  pure s.builders

def without {α : Type} (s : Site) (call : Building α) : Building (List Builder) := do
  let _ ← call
  pure s.builders

def withNew (s : Site) (call : Building Builder) : Building (List Builder) := do
  let b ← call
  pure (s.builders ++ [b])

def call (growth : Growth) (s : Site) : BuildingCall → Building (List Builder)
  | .accessTexture texture => s.without (Building.accessTexture texture)
  | .accessBuffer buffer => s.without (Building.accessBuffer buffer)
  | .setExecutable pass => s.withBuilder pass Building.setExecutable
  | .declaration d =>
    match d with
    | .declareTexture => s.without (Building.declareTexture growth)
    | .importTexture imported mipLevels arraySize dynamicHandle =>
      s.without (Building.importTextureImpl growth imported mipLevels arraySize dynamicHandle)
    | .importBackbuffer imported mipLevels arraySize dynamicHandle =>
      s.without (Building.importBackbuffer growth imported mipLevels arraySize dynamicHandle)
    | .declareBuffer => s.without (Building.declareBuffer growth)
    | .importBuffer imported bufferType => s.without (Building.importBufferImpl growth imported bufferType)
    | .importDynamicBuffer dynamicHandle => s.without (Building.importDynamicBuffer growth dynamicHandle)
    | .declareUniformBufferQuick => s.without (Building.declareUniformBufferQuick growth)
    | .declareTextureSubresource parent mipmap slice =>
      s.without (Building.declareTextureSubresource growth parent mipmap slice)
    | .bufferSetType buffer bufferType => s.without (Building.bufferSetType buffer bufferType)
    | .bufferSetHoldOnLast buffer => s.without (Building.bufferSetHoldOnLast buffer)
    | .addRenderPass => s.withNew (Building.addPass growth .render)
    | .addComputePass => s.withNew (Building.addPass growth .compute)
    | .addHoldpass => s.withNew (Building.addPass growth .holdOn)
    | .addUploadTexturePass texture mipmap slice =>
      s.without (Building.addUploadTexturePass growth texture mipmap slice)
    | .addUploadBufferPass buffer => s.without (Building.addUploadBufferPass growth buffer)
    | .addGenerateMipmap texture fromMipmap =>
      s.without (Building.addGenerateMipmap growth texture fromMipmap)
    | .present texture => s.without (Building.present growth texture)
    | .addColorAttachment pass texture => s.withBuilder pass (Building.addColorAttachment · texture)
    | .addDepthAttachment pass texture => s.withBuilder pass (Building.addDepthAttachment · texture)
    | .sample pass texture => s.withBuilder pass (Building.sample · texture)
    | .useBuffer pass buffer => s.withBuilder pass (Building.useBuffer · buffer)
    | .useBufferAs pass buffer state => s.withBuilder pass (Building.useBufferAs · buffer state)
    | .computeUseBuffer pass buffer => s.withBuilder pass (Building.computeUseBuffer · buffer)
    | .readwriteBuffer pass buffer => s.withBuilder pass (Building.readwriteBuffer · buffer)

def step (growth : Growth) (s : Site) (c : BuildingCall) : Option Site :=
  match (s.call growth c s.memory).run with
  | some (.ok (builders, memory)) => some ⟨memory, builders⟩
  | _ => none

end Site

end PulseEngine.RenderGraph
