import Mathlib.Tactic

/-!
# Building a render graph

The data model of `rendergraph_compiler_internal.h` and the building calls of `rendergraph.cpp`. A
handle or a builder is an index; a call with an index out of range, or one that runs into an
assertion, has no result. Names, extents, formats, buffer sizes, memory usages and what a pass
executes are left out: neither the compiler nor the barriers depend on them.

The resource flags come from a library that is not part of the repository; the states that the
render graph names are told apart, the others are numbered.
-/

namespace PulseEngine.RenderGraph

inductive ResourceType where
  | texture
  | buffer
  deriving DecidableEq, Repr

inductive ManageType where
  | managed
  | imported
  | subResource
  deriving DecidableEq, Repr

inductive PassType where
  | holdOn
  | render
  | compute
  | uploadTexture
  | uploadBuffer
  | present
  deriving DecidableEq, Repr

/-- `ECGPUResourceStateFlags`. -/
inductive ResourceState where
  | undefined
  | vertexAndConstantBuffer
  | indexBuffer
  | renderTarget
  | unorderedAccess
  | depthWrite
  | shaderResource
  | copyDest
  | copySource
  | present
  | other (flags : Nat)
  deriving DecidableEq, Repr

/-- `ECGPUResourceTypeFlags`, with the flags the render graph looks at. -/
structure BufferType where
  vertexBuffer : Bool
  indexBuffer : Bool
  uniformBuffer : Bool
  rwBuffer : Bool
  rest : Nat
  deriving DecidableEq, Repr

def BufferType.none : BufferType := ⟨false, false, false, false, 0⟩

/-- `ResourceNode`; `imported` names the imported texture or buffer. -/
structure ResourceNode where
  resourceType : ResourceType
  manageType : ManageType
  imported : Option Nat
  mipCount : Nat
  arraySize : Nat
  parent : Nat
  mipLevel : Nat
  arraySlice : Nat
  bufferType : BufferType
  holdOnLast : Bool
  deriving DecidableEq, Repr

def ResourceNode.new : ResourceNode :=
  ⟨.texture, .managed, none, 0, 0, 0, 0, 0, .none, false⟩

/-- `RenderGraphEdge`. -/
structure Edge where
  fromIndex : Nat
  toIndex : Nat
  usage : ResourceState
  deriving DecidableEq, Repr

/-- `RenderPassNode`: the edges it reads and writes, and of its context the resources. -/
structure PassNode where
  type : PassType
  writes : List Nat
  reads : List Nat
  colorAttachments : List Nat
  depthAttachment : Option Nat
  stagingBuffer : Nat
  dest : Nat
  deriving DecidableEq, Repr

def PassNode.new (type : PassType) : PassNode := ⟨type, [], [], [], none, 0, 0⟩

/-- `pulse_rendergraph_impl_t`. -/
structure Graph where
  resources : List ResourceNode
  passes : List PassNode
  edges : List Edge
  deriving DecidableEq, Repr

namespace Graph

/-- `pulse_create_render_graph`: resource 0 stands for no resource. -/
def create : Graph := ⟨[.new], [], []⟩

def pushResource (g : Graph) (resource : ResourceNode) : Graph × Nat :=
  ({ g with resources := g.resources ++ [resource] }, g.resources.length)

def declareTexture (g : Graph) : Graph × Nat :=
  g.pushResource { ResourceNode.new with mipCount := 1, arraySize := 1 }

/-- `pulse_render_graph_import_texture_impl`; `dynamicHandle` is the handle the texture remembers. -/
def importTextureImpl (g : Graph) (imported mipLevels arraySize dynamicHandle : Nat) :
    Option (Graph × Nat) :=
  if dynamicHandle ≠ 0 ∧ dynamicHandle < g.resources.length then some (g, dynamicHandle)
  else if mipLevels ≤ 0xFF ∧ arraySize ≤ 0xFF then
    some (g.pushResource { ResourceNode.new with
      manageType := .imported, imported := some imported, mipCount := mipLevels
      arraySize := arraySize })
  else none

def importBackbuffer (g : Graph) (imported mipLevels arraySize dynamicHandle : Nat) :
    Option (Graph × Nat) :=
  (g.pushResource .new).1.importTextureImpl imported mipLevels arraySize dynamicHandle

def declareBuffer (g : Graph) : Graph × Nat :=
  g.pushResource { ResourceNode.new with resourceType := .buffer }

def importBufferImpl (g : Graph) (imported : Nat) (bufferType : BufferType) : Graph × Nat :=
  g.pushResource { ResourceNode.new with
    resourceType := .buffer, manageType := .imported, imported := some imported
    bufferType := bufferType }

def importDynamicBuffer (g : Graph) (dynamicHandle : Nat) : Graph × Nat :=
  if dynamicHandle ≠ 0 ∧ dynamicHandle < g.resources.length then (g, dynamicHandle)
  else g.pushResource { ResourceNode.new with resourceType := .buffer }

/-- The loop of `pulse_render_graph_declare_texture_subresource` up to a texture without a parent. -/
def rootTexture (g : Graph) : Nat → Nat → Option (Nat × ResourceNode)
  | 0, _ => none
  | fuel + 1, index => do
    let node ← g.resources[index]?
    guard (node.resourceType = .texture)
    if node.parent ≠ 0 then rootTexture g fuel node.parent else return (index, node)

/-- `pulse_render_graph_declare_texture_subresource`. -/
def declareTextureSubresource (g : Graph) (parent mipmap slice : Nat) : Option (Graph × Nat) := do
  guard (parent ≠ 0)
  let (parent, node) ← g.rootTexture (g.resources.length + 1) parent
  return g.pushResource { ResourceNode.new with
    manageType := .subResource, mipCount := node.mipCount, arraySize := node.arraySize
    parent := parent, mipLevel := mipmap, arraySlice := slice }

def modifyBuffer (g : Graph) (buffer : Nat) (f : ResourceNode → ResourceNode) : Option Graph := do
  guard (buffer ≠ 0)
  let node ← g.resources[buffer]?
  guard (node.resourceType = .buffer)
  return { g with resources := g.resources.modify buffer f }

def bufferSetType (g : Graph) (buffer : Nat) (bufferType : BufferType) : Option Graph :=
  g.modifyBuffer buffer fun node => { node with bufferType := bufferType }

def bufferSetHoldOnLast (g : Graph) (buffer : Nat) : Option Graph :=
  g.modifyBuffer buffer fun node => { node with holdOnLast := true }

def pushPass (g : Graph) (type : PassType) : Graph × Nat :=
  ({ g with passes := g.passes ++ [.new type] }, g.passes.length)

def addRenderPass (g : Graph) : Graph × Nat := g.pushPass .render

def addComputePass (g : Graph) : Graph × Nat := g.pushPass .compute

def addHoldpass (g : Graph) : Graph × Nat := g.pushPass .holdOn

def addEdge (g : Graph) (fromIndex toIndex : Nat) (usage : ResourceState) : Graph × Nat :=
  ({ g with edges := g.edges ++ [⟨fromIndex, toIndex, usage⟩] }, g.edges.length)

def modifyPass (g : Graph) (pass : Nat) (f : PassNode → PassNode) : Graph :=
  { g with passes := g.passes.modify pass f }

def addRead (g : Graph) (pass resource : Nat) (usage : ResourceState) : Option Graph := do
  guard (pass < g.passes.length ∧ resource < g.resources.length)
  let (g, edge) := g.addEdge resource pass usage
  return g.modifyPass pass fun node => { node with reads := node.reads ++ [edge] }

def addWrite (g : Graph) (pass resource : Nat) (usage : ResourceState) : Option Graph := do
  guard (pass < g.passes.length ∧ resource < g.resources.length)
  let (g, edge) := g.addEdge pass resource usage
  return g.modifyPass pass fun node => { node with writes := node.writes ++ [edge] }

/-- `pulse_render_pass_builder_add_color_attachment`. -/
def addColorAttachment (g : Graph) (pass texture : Nat) : Option Graph := do
  let node ← g.passes[pass]?
  guard (node.type = .render ∧ node.colorAttachments.length < 8)
  let g ← g.addWrite pass texture .renderTarget
  return g.modifyPass pass fun node =>
    { node with colorAttachments := node.colorAttachments ++ [texture] }

/-- `pulse_render_pass_builder_add_depth_attachment`. -/
def addDepthAttachment (g : Graph) (pass texture : Nat) : Option Graph := do
  let node ← g.passes[pass]?
  guard (node.type = .render ∧ node.depthAttachment = none)
  let g ← g.addRead pass texture .undefined
  let g ← g.addWrite pass texture .depthWrite
  return g.modifyPass pass fun node => { node with depthAttachment := some texture }

/-- `pulse_render_pass_builder_sample` and `pulse_computepass_sample`. -/
def sample (g : Graph) (pass texture : Nat) : Option Graph := g.addRead pass texture .shaderResource

def useBuffer (g : Graph) (pass buffer : Nat) : Option Graph := do
  guard (buffer ≠ 0)
  let node ← g.resources[buffer]?
  guard (node.resourceType = .buffer)
  if node.bufferType.vertexBuffer then g.addRead pass buffer .vertexAndConstantBuffer
  else if node.bufferType.indexBuffer then g.addRead pass buffer .indexBuffer
  else if node.bufferType.uniformBuffer then g.addRead pass buffer .vertexAndConstantBuffer
  else none

/-- `pulse_render_pass_builder_use_buffer_as` and `pulse_compute_pass_builder_use_buffer_as`. -/
def useBufferAs (g : Graph) (pass buffer : Nat) (state : ResourceState) : Option Graph := do
  guard (buffer ≠ 0)
  let node ← g.resources[buffer]?
  guard (node.resourceType = .buffer ∧ state ≠ .undefined)
  g.addRead pass buffer state

/-- `pulse_compute_pass_builder_use_buffer`, which compares the whole type. -/
def computeUseBuffer (g : Graph) (pass buffer : Nat) : Option Graph := do
  guard (buffer ≠ 0)
  let node ← g.resources[buffer]?
  guard (node.resourceType = .buffer)
  if node.bufferType = { BufferType.none with vertexBuffer := true } then
    g.addRead pass buffer .vertexAndConstantBuffer
  else if node.bufferType = { BufferType.none with indexBuffer := true } then
    g.addRead pass buffer .indexBuffer
  else if node.bufferType = { BufferType.none with uniformBuffer := true } then
    g.addRead pass buffer .vertexAndConstantBuffer
  else if node.bufferType = { BufferType.none with rwBuffer := true } then
    g.addRead pass buffer .unorderedAccess
  else none

def readwriteBuffer (g : Graph) (pass buffer : Nat) : Option Graph := do
  guard (buffer ≠ 0)
  let node ← g.resources[buffer]?
  guard (node.resourceType = .buffer)
  let g ← g.addRead pass buffer .unorderedAccess
  g.addWrite pass buffer .unorderedAccess

/-- The part of an upload pass that the two kinds share: write `dest` and read a staging buffer that is
held on to the end. -/
def addUpload (g : Graph) (pass dest : Nat) : Option Graph := do
  let g := g.modifyPass pass fun node => { node with dest := dest }
  let g ← g.addWrite pass dest .copyDest
  let (g, staging) := g.declareBuffer
  let g ← g.bufferSetType staging .none
  let g ← g.bufferSetHoldOnLast staging
  let g := g.modifyPass pass fun node => { node with stagingBuffer := staging }
  g.addRead pass staging .copySource

def addUploadTexturePass (g : Graph) (texture mipmap slice : Nat) : Option Graph := do
  let (g, pass) := g.pushPass .uploadTexture
  guard (texture ≠ 0)
  let node ← g.resources[texture]?
  guard (node.resourceType = .texture)
  if node.mipCount = 1 ∧ node.arraySize = 1 then g.addUpload pass texture
  else
    let (g, used) ← g.declareTextureSubresource texture mipmap slice
    g.addUpload pass used

def addUploadBufferPass (g : Graph) (buffer : Nat) : Option Graph := do
  let (g, pass) := g.pushPass .uploadBuffer
  guard (buffer ≠ 0)
  let node ← g.resources[buffer]?
  guard (node.resourceType = .buffer)
  g.addUpload pass buffer

/-- `pulse_render_graph_declare_uniform_buffer_quick`. -/
def declareUniformBufferQuick (g : Graph) : Option Graph :=
  let (g, ubo) := g.pushResource { ResourceNode.new with
    resourceType := .buffer, bufferType := { BufferType.none with uniformBuffer := true } }
  g.addUploadBufferPass ubo

/-- The inner loop of `pulse_render_graph_add_generate_mipmap`. -/
def generateMips (g : Graph) (texture slice last : Nat) : List Nat → Option Graph
  | [] => some g
  | i :: mips => do
    let (g, mip) ← g.declareTextureSubresource texture i slice
    let (g, pass) := g.addRenderPass
    let g ← g.addColorAttachment pass mip
    let g ← g.sample pass last
    generateMips g texture slice mip mips

/-- The outer loop of `pulse_render_graph_add_generate_mipmap`. -/
def generateSlices (g : Graph) (texture fromMipmap : Nat) (mips : List Nat) :
    List Nat → Option Graph
  | [] => some g
  | slice :: slices => do
    let (g, last) ← g.declareTextureSubresource texture (fromMipmap - 1) slice
    let g ← g.generateMips texture slice last mips
    generateSlices g texture fromMipmap mips slices

def addGenerateMipmap (g : Graph) (texture fromMipmap : Nat) : Option Graph := do
  guard (texture ≠ 0 ∧ 0 < fromMipmap)
  let node ← g.resources[texture]?
  guard (node.resourceType = .texture ∧ node.manageType ≠ .subResource)
  if node.mipCount ≤ fromMipmap then return g
  else
    g.generateSlices texture fromMipmap
      ((List.range node.mipCount).drop fromMipmap) (List.range node.arraySize)

def present (g : Graph) (texture : Nat) : Option Graph :=
  let (g, pass) := g.pushPass .present
  g.addRead pass texture .present

end Graph

inductive Declaration where
  | declareTexture
  | importTexture (imported mipLevels arraySize dynamicHandle : Nat)
  | importBackbuffer (imported mipLevels arraySize dynamicHandle : Nat)
  | declareBuffer
  | importBuffer (imported : Nat) (bufferType : BufferType)
  | importDynamicBuffer (dynamicHandle : Nat)
  | declareUniformBufferQuick
  | declareTextureSubresource (parent mipmap slice : Nat)
  | bufferSetType (buffer : Nat) (bufferType : BufferType)
  | bufferSetHoldOnLast (buffer : Nat)
  | addRenderPass
  | addComputePass
  | addHoldpass
  | addUploadTexturePass (texture mipmap slice : Nat)
  | addUploadBufferPass (buffer : Nat)
  | addGenerateMipmap (texture fromMipmap : Nat)
  | present (texture : Nat)
  | addColorAttachment (pass texture : Nat)
  | addDepthAttachment (pass texture : Nat)
  | sample (pass texture : Nat)
  | useBuffer (pass buffer : Nat)
  | useBufferAs (pass buffer : Nat) (state : ResourceState)
  | computeUseBuffer (pass buffer : Nat)
  | readwriteBuffer (pass buffer : Nat)
  deriving DecidableEq, Repr

namespace Graph

def declare (g : Graph) : Declaration → Option Graph
  | .declareTexture => some g.declareTexture.1
  | .importTexture imported mipLevels arraySize dynamicHandle =>
    (g.importTextureImpl imported mipLevels arraySize dynamicHandle).map (·.1)
  | .importBackbuffer imported mipLevels arraySize dynamicHandle =>
    (g.importBackbuffer imported mipLevels arraySize dynamicHandle).map (·.1)
  | .declareBuffer => some g.declareBuffer.1
  | .importBuffer imported bufferType => some (g.importBufferImpl imported bufferType).1
  | .importDynamicBuffer dynamicHandle => some (g.importDynamicBuffer dynamicHandle).1
  | .declareUniformBufferQuick => g.declareUniformBufferQuick
  | .declareTextureSubresource parent mipmap slice =>
    (g.declareTextureSubresource parent mipmap slice).map (·.1)
  | .bufferSetType buffer bufferType => g.bufferSetType buffer bufferType
  | .bufferSetHoldOnLast buffer => g.bufferSetHoldOnLast buffer
  | .addRenderPass => some g.addRenderPass.1
  | .addComputePass => some g.addComputePass.1
  | .addHoldpass => some g.addHoldpass.1
  | .addUploadTexturePass texture mipmap slice => g.addUploadTexturePass texture mipmap slice
  | .addUploadBufferPass buffer => g.addUploadBufferPass buffer
  | .addGenerateMipmap texture fromMipmap => g.addGenerateMipmap texture fromMipmap
  | .present texture => g.present texture
  | .addColorAttachment pass texture => g.addColorAttachment pass texture
  | .addDepthAttachment pass texture => g.addDepthAttachment pass texture
  | .sample pass texture => g.sample pass texture
  | .useBuffer pass buffer => g.useBuffer pass buffer
  | .useBufferAs pass buffer state => g.useBufferAs pass buffer state
  | .computeUseBuffer pass buffer => g.computeUseBuffer pass buffer
  | .readwriteBuffer pass buffer => g.readwriteBuffer pass buffer

def build (declarations : List Declaration) : Option Graph := declarations.foldlM declare create

end Graph

end PulseEngine.RenderGraph
