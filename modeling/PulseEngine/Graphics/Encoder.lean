import PulseEngine.Graphics.Slots

/-!
# The render pass encoder

The draws and dispatches of a pass, of `renderer.cpp`, with what the encoder remembers of what it has
bound: the pipeline, the dynamic raster state, the descriptor sets by the hash of their values, the
sets that are bound and their offsets, and the buffers of the mesh. `Recorded` is what the commands
of the pass leave bound.
-/

namespace PulseEngine.Graphics

/-- `CGPUVertexAttribute`. -/
structure VertexAttribute where
  semanticName : Option String
  arraySize : ℕ
  format : ℕ
  binding : ℕ
  offset : ℕ
  elemStride : ℕ
  rate : ℕ
deriving DecidableEq, Repr

/-- `CGPUVertexLayout`, which `compare.h` compares by what it says. -/
structure VertexLayout where
  attributeCount : ℕ
  attributes : Option (List VertexAttribute)
deriving DecidableEq, Repr

/-- `CGPUBlendAttachmentState`. -/
structure BlendAttachment where
  enable : Bool
  srcFactor : ℕ
  dstFactor : ℕ
  srcAlphaFactor : ℕ
  dstAlphaFactor : ℕ
  blendOp : ℕ
  blendAlphaOp : ℕ
  colorMask : ℕ
deriving DecidableEq, Repr

/-- `CGPUBlendStateDescriptor`. -/
structure BlendState where
  attachmentCount : ℕ := 0
  attachments : Option (List BlendAttachment) := none
  alphaToCoverage : Bool := false
  independentBlend : Bool := false
deriving DecidableEq, Repr

/-- `CGPUDepthStateDescriptor`; the stencil operations are in the order of the source. -/
structure DepthState where
  depthTest : Bool := false
  depthWrite : Bool := false
  depthOp : ℕ := 0
  stencilTest : Bool := false
  stencilReadMask : ℕ := 0
  stencilWriteMask : ℕ := 0
  stencilOps : List ℕ := []
deriving DecidableEq, Repr

/-- `CGPURasterizerStateDescriptor`; a float is its bits. -/
structure RasterizerState where
  cullMode : ℕ := 0
  depthBias : ℤ := 0
  slopeScaledDepthBias : ℕ := 0
  fillMode : ℕ := 0
  frontFace : ℕ := 0
  enableMultiSample : Bool := false
  enableScissor : Bool := false
  enableDepthClamp : Bool := false
deriving DecidableEq, Repr

/-- `ECGPUResourceTypeFlags`, as far as the encoder tells types apart. -/
inductive ResourceType where
  | texture
  | sampler
  | uniformBuffer
  | rwBuffer
  | other
deriving DecidableEq, Repr

def ResourceType.isBuffer : ResourceType → Bool
  | .uniformBuffer | .rwBuffer => true
  | _ => false

/-- `CGPUShaderResource`. -/
structure ShaderResource where
  binding : ℕ
  type : ResourceType
deriving DecidableEq, Repr

/-- `CGPUParameterTable`. -/
structure ParameterTable where
  setIndex : ℕ
  resources : List ShaderResource
deriving DecidableEq, Repr

/-- `CGPURootSignature`. -/
structure RootSignature where
  address : ℕ
  tables : List ParameterTable
deriving DecidableEq, Repr

/-- `PulseShaderData`. -/
structure Shader where
  rootSig : RootSignature
  blendDesc : BlendState := {}
  depthDesc : DepthState := {}
  rasterizerState : RasterizerState := {}
deriving DecidableEq, Repr

/-- `PulseMeshData`. -/
structure Mesh where
  prepared : Bool
  primTopology : ℕ
  vertexLayout : VertexLayout
  vertexStride : ℕ
  indexStride : ℕ
  verticesCount : ℕ
  indexCount : ℕ
  vertexBuffer : Option GraphicsBuffer
  indexBuffer : Option GraphicsBuffer
deriving DecidableEq, Repr

structure PSOKey where
  shader : ℕ
  vertexLayout : VertexLayout
  primTopology : ℕ
  blendDesc : BlendState
  depthDesc : DepthState
  rasterizerState : RasterizerState
  renderPass : ℕ
  subpass : ℕ
  renderTargetCount : ℕ
deriving DecidableEq, Repr

/-- What a pass finds and does not change. `creates` are the pipelines that the device can make, and
`isGraphics` tells a render pass from a compute pass. -/
structure Pass extends Memory where
  isGraphics : Bool
  shaders : ℕ → Shader
  computeShaders : ℕ → RootSignature
  creates : PSOKey → Bool
  createsCompute : ℕ → Bool
  dynamicStateT1 : Bool
  renderPass : ℕ
  subpass : ℕ
  renderTargetCount : ℕ
  defaultTexture : ℕ
  defaultSampler : ℕ
  defaultBuffer : ℕ
  bufferSize : ℕ → ℕ
  hashPointer : ℕ → UInt64

/-- `CGPUDescriptorData::resources` with the offset and the range of a buffer. -/
inductive BoundResource where
  | texture (view : ℕ)
  | sampler (sampler : ℕ)
  | buffer (buffer offset range : ℕ)
  | none
deriving DecidableEq, Repr

/-- `CGPUDescriptorData`. -/
structure DescriptorData where
  binding : ℕ
  type : ResourceType
  resource : BoundResource
deriving DecidableEq, Repr

structure DescriptorSet where
  rootSignature : ℕ
  setIndex : ℕ
  datas : List DescriptorData
deriving DecidableEq, Repr

structure RasterCommands where
  cullMode : ℕ
  frontFace : ℕ
  depthTest : Bool
  depthWrite : Bool
  depthOp : ℕ
deriving DecidableEq, Repr

/-- What the commands of a pass leave bound: pipelines of a type `P`, compute pipelines of a type
`C` and sets of a type `S` with their offsets, buffers with their strides. -/
structure Recorded (P C S : Type) where
  renderPipeline : Option P := none
  computePipeline : Option C := none
  raster : Option RasterCommands := none
  topology : Option ℕ := none
  descriptorSets : ℕ → Option (S × List ℕ) := fun _ => none
  vertexBuffer : Option (ℕ × ℕ) := none
  indexBuffer : Option (ℕ × ℕ) := none

abbrev Sight := Recorded PSOKey ℕ (List DescriptorData)

inductive Command where
  | draw (vertexCount firstVertex : ℕ)
  | drawInstanced (vertexCount firstVertex instanceCount firstInstance : ℕ)
  | drawIndexed (indexCount firstIndex firstVertex : ℕ)
  | drawIndexedInstanced (indexCount firstIndex instanceCount firstInstance firstVertex : ℕ)
  | dispatch (threadX threadY threadZ : ℕ)
deriving DecidableEq, Repr

structure Seen where
  command : Command
  sight : Sight

/-- `SetCacheEntry`; `count` is the length of the values. -/
structure SetCacheEntry where
  values : List ℕ
  handle : ℕ
deriving DecidableEq, Repr

/-- `RenderPassEncoder`, with the pools of its context. A pipeline of a pool and a set that the frame
took is its index; `dset_cache` has the last entry written first. -/
structure Encoder where
  slots : PassSlots := {}
  lastRenderPipeline : Option ℕ := none
  lastComputePipeline : Option ℕ := none
  lastPrimTopology : Option ℕ := none
  dsetCache : List (UInt64 × SetCacheEntry) := []
  lastBoundDset : ℕ → Option ℕ := fun _ => none
  lastBoundOffsets : ℕ → List ℕ := fun _ => []
  lastVertexBuffer : ℕ := 0
  lastVertexBufferStride : ℕ := 0
  lastIndexBuffer : ℕ := 0
  lastIndexBufferStride : ℕ := 0
  pipelinePool : List PSOKey
  computePipelinePool : List ℕ
  allocatedDsets : List DescriptorSet
  recorded : Recorded ℕ ℕ ℕ := {}

def getResource {D : Type} [DecidableEq D] (descriptor : D) (pool : List D) : ℕ × List D :=
  match pool.idxOf? descriptor with
  | some i => (i, pool)
  | none => (pool.length, pool ++ [descriptor])

def valueWords (values : List ℕ) : List UInt32 :=
  values.flatMap fun v => [UInt32.ofNat v, UInt32.ofNat (v / 2 ^ 32)]

def murmurMix (h k : UInt32) : UInt32 :=
  let k := k * 0xcc9e2d51
  let k := (k <<< 15) ||| (k >>> 17)
  let k := k * 0x1b873593
  let h := h ^^^ k
  let h := (h <<< 13) ||| (h >>> 19)
  h * 5 + 0xe6546b64

def murmur3 (key : List UInt32) (seed : UInt32) : UInt32 :=
  if key = [] then seed
  else
    let h := key.foldl murmurMix seed
    let h := h ^^^ UInt32.ofNat key.length
    let h := h ^^^ (h >>> 16)
    let h := h * 0x85ebca6b
    let h := h ^^^ (h >>> 13)
    let h := h * 0xc2b2ae35
    h ^^^ (h >>> 16)

def hashCombine (seed hash : UInt64) : UInt64 :=
  let left : UInt64 := seed <<< 6
  let right : UInt64 := seed >>> 2
  seed ^^^ (hash + 0x9e3779b9 + left + right)

def Shader.rasterCommands (shader : Shader) : RasterCommands :=
  ⟨shader.rasterizerState.cullMode, shader.rasterizerState.frontFace, shader.depthDesc.depthTest,
    shader.depthDesc.depthWrite, shader.depthDesc.depthOp⟩

/-- The key of `getGraphicsPipeline`, in which dynamic state is left out. -/
def psoKey (d : Pass) (shader : ℕ) (primTopology : ℕ) (vertexLayout : VertexLayout) : PSOKey :=
  let data := d.shaders shader
  let key : PSOKey :=
    ⟨shader, vertexLayout, primTopology, data.blendDesc, data.depthDesc, data.rasterizerState,
      d.renderPass, d.subpass, d.renderTargetCount⟩
  if d.dynamicStateT1 then
    { key with
      primTopology := 0
      rasterizerState := { key.rasterizerState with cullMode := 0, frontFace := 0 }
      depthDesc := { key.depthDesc with depthTest := false, depthWrite := false, depthOp := 0 } }
  else key

namespace Encoder

def sight (e : Encoder) : Sight where
  renderPipeline := e.recorded.renderPipeline.bind fun h => e.pipelinePool[h]?
  computePipeline := e.recorded.computePipeline.bind fun h => e.computePipelinePool[h]?
  raster := e.recorded.raster
  topology := e.recorded.topology
  descriptorSets s := (e.recorded.descriptorSets s).bind fun (h, offsets) =>
    e.allocatedDsets[h]?.map fun dset => (dset.datas, offsets)
  vertexBuffer := e.recorded.vertexBuffer
  indexBuffer := e.recorded.indexBuffer

def getGraphicsPipeline (d : Pass) (shader primTopology : ℕ) (vertexLayout : VertexLayout)
    (e : Encoder) : Option ℕ × Encoder :=
  let key := psoKey d shader primTopology vertexLayout
  let (i, pool) := getResource key e.pipelinePool
  (if d.creates key then some i else none, { e with pipelinePool := pool })

/-- `cgpu_render_pass_encoder_bind_render_pipeline` and the dynamic state of the shader. -/
def bindRenderPipeline (d : Pass) (shader pipeline : ℕ) (e : Encoder) : Encoder :=
  { e with
    recorded := { e.recorded with
      renderPipeline := some pipeline
      raster := if d.dynamicStateT1 then some (d.shaders shader).rasterCommands
        else e.recorded.raster } }

/-- `cgpu_raster_state_encoder_set_primitive_topology` if the topology is another one. -/
def updateTopology (d : Pass) (meshTopology : ℕ) (e : Encoder) : Encoder :=
  if d.dynamicStateT1 ∧ some meshTopology ≠ e.lastPrimTopology then
    { e with
      recorded := { e.recorded with topology := some meshTopology }
      lastPrimTopology := some meshTopology }
  else e

def updateRenderPipeline (d : Pass) (shader : Option ℕ) (meshTopology : ℕ)
    (vertexLayout : VertexLayout) (e : Encoder) : Encoder :=
  match shader with
  | none => updateTopology d meshTopology { e with lastRenderPipeline := none }
  | some shader =>
    let (renderPipeline, e) := getGraphicsPipeline d shader meshTopology vertexLayout e
    let e := match renderPipeline with
      | some pipeline =>
        if some pipeline ≠ e.lastRenderPipeline then bindRenderPipeline d shader pipeline e else e
      | none => e
    updateTopology d meshTopology { e with lastRenderPipeline := renderPipeline }

def updateComputePipeline (d : Pass) (shader : ℕ) (e : Encoder) : Encoder :=
  let (i, pool) := getResource shader e.computePipelinePool
  let e := { e with computePipelinePool := pool }
  let pipeline := if d.createsCompute shader then some i else none
  -- the pool has an entry also for a pipeline that could not be made, and its handle is null
  if pipeline ≠ e.lastComputePipeline then
    { e with
      recorded := { e.recorded with
        computePipeline := pipeline.or e.recorded.computePipeline }
      lastComputePipeline := pipeline }
  else e

end Encoder

/-- The length of the arrays of `update_descriptor_set`. -/
def dataSize : ℕ := 64

def ParameterTable.used (table : ParameterTable) : List ShaderResource :=
  table.resources.take dataSize

def slotValues (slots : ℕ → ResourceSlot) (resources : List ShaderResource) : List ℕ :=
  resources.map fun res => (slots res.binding).value

def slotOffsets (slots : ℕ → ResourceSlot) (resources : List ShaderResource) : List ℕ :=
  (resources.filter (·.type.isBuffer)).map fun res => (slots res.binding).offset % 2 ^ 32

def dsetHash (d : Pass) (rootSig setIndex : ℕ) (values : List ℕ) : UInt64 :=
  let hash := murmur3 (valueWords values) (0x9e3779b9 ^^^ UInt32.ofNat setIndex)
  hashCombine hash.toUInt64 (d.hashPointer rootSig)

def bufferRange (d : Pass) (buffer size : ℕ) : ℕ :=
  if size > 0 then size else if buffer ≠ 0 then d.bufferSize buffer else 0

/-- What a slot is bound to as a resource of a type: a slot that is empty or of another kind gives
the default resource. -/
def boundResource (d : Pass) (slot : ResourceSlot) : ResourceType → BoundResource
  | .texture =>
    .texture (if slot.kind = .texture ∧ slot.value ≠ 0 then slot.value else d.defaultTexture)
  | .sampler =>
    .sampler (if slot.kind = .sampler ∧ slot.value ≠ 0 then slot.value else d.defaultSampler)
  | .uniformBuffer | .rwBuffer =>
    let buffer := if slot.kind = .buffer ∧ slot.value ≠ 0 then slot.value else d.defaultBuffer
    .buffer buffer 0 (bufferRange d buffer slot.size)
  | .other => .none

def descriptorData (d : Pass) (slots : ℕ → ResourceSlot) (res : ShaderResource) :
    DescriptorData :=
  ⟨res.binding, res.type, boundResource d (slots res.binding) res.type⟩

def tableData (d : Pass) (slots : ℕ → ResourceSlot) (table : ParameterTable) :
    List DescriptorData :=
  table.used.map (descriptorData d slots)

namespace Encoder

def findDset (d : Pass) (rootSig : ℕ) (table : ParameterTable) (e : Encoder) : ℕ × Encoder :=
  let slots := e.slots.resourceSets table.setIndex
  let values := slotValues slots table.used
  let hash := dsetHash d rootSig table.setIndex values
  match e.dsetCache.lookup hash with
  | some entry => if entry.values = values then (entry.handle, e) else create hash values slots
  | none => create hash values slots
where
  create (hash : UInt64) (values : List ℕ) (slots : ℕ → ResourceSlot) : ℕ × Encoder :=
    let dset := e.allocatedDsets.length
    (dset,
      { e with
        allocatedDsets := e.allocatedDsets ++ [⟨rootSig, table.setIndex, tableData d slots table⟩]
        dsetCache := (hash, ⟨values, dset⟩) :: e.dsetCache })

def dsetIndex (e : Encoder) (dset : ℕ) : Option ℕ :=
  e.allocatedDsets[dset]?.map (·.setIndex)

def bindDset (setIndex dset : ℕ) (offsets : List ℕ) (e : Encoder) : Encoder :=
  if some dset ≠ e.lastBoundDset setIndex ∨ offsets ≠ e.lastBoundOffsets setIndex then
    { e with
      recorded := { e.recorded with
        descriptorSets := fun s =>
          if e.dsetIndex dset = some s then some (dset, offsets)
          else e.recorded.descriptorSets s }
      lastBoundDset := fun s => if s = setIndex then some dset else e.lastBoundDset s
      lastBoundOffsets := fun s => if s = setIndex then offsets else e.lastBoundOffsets s }
  else e

def updateTable (d : Pass) (rootSig : ℕ) (e : Encoder) (table : ParameterTable) : Encoder :=
  if table.setIndex = materialSet ∨ table.used = [] then e
  else
    let offsets := slotOffsets (e.slots.resourceSets table.setIndex) table.used
    let (dset, e) := findDset d rootSig table e
    bindDset table.setIndex dset offsets e

def updateDescriptorSet (d : Pass) (rootSig : RootSignature) (e : Encoder) : Encoder :=
  (rootSig.tables.take setCount).foldl (updateTable d rootSig.address) e

end Encoder

def meshBuffer (d : Pass) (buffer : Option GraphicsBuffer) : ℕ :=
  match buffer with
  | none => 0
  | some buffer =>
    if buffer.dynamicHandle ≠ 0 then d.resolveBuffer buffer.dynamicHandle else buffer.handle

namespace Encoder

def updateVertexBuffer (buffer stride : ℕ) (e : Encoder) : Encoder :=
  if e.lastVertexBuffer ≠ buffer ∨ e.lastVertexBufferStride ≠ stride then
    { e with
      recorded := if buffer ≠ 0 then { e.recorded with vertexBuffer := some (buffer, stride) }
        else e.recorded
      lastVertexBuffer := buffer
      lastVertexBufferStride := stride }
  else e

def updateIndexBuffer (buffer stride : ℕ) (e : Encoder) : Encoder :=
  if e.lastIndexBuffer ≠ buffer ∨ e.lastIndexBufferStride ≠ stride then
    { e with
      recorded := if buffer ≠ 0 then { e.recorded with indexBuffer := some (buffer, stride) }
        else e.recorded
      lastIndexBuffer := buffer
      lastIndexBufferStride := stride }
  else e

def updateMesh (d : Pass) (mesh : Mesh) (e : Encoder) : Encoder :=
  updateIndexBuffer (meshBuffer d mesh.indexBuffer) mesh.indexStride
    (updateVertexBuffer (meshBuffer d mesh.vertexBuffer) mesh.vertexStride e)

end Encoder

/-- What the functions that draw have in common: what they update, and the command with an index
buffer and without one. -/
structure Drawing where
  shader : Option ℕ
  material : Option ℕ
  topology : ℕ
  vertexLayout : VertexLayout
  mesh : Option Mesh
  indexed : Command
  plain : Command
deriving DecidableEq, Repr

structure Submesh where
  indexCount : ℕ
  firstIndex : ℕ
  vertexCount : ℕ
  firstVertex : ℕ
deriving DecidableEq, Repr

def procedureVertexLayout : VertexLayout := ⟨0, none⟩

def Mesh.drawing (mesh : Mesh) (shader material : Option ℕ) (indexed plain : Command) :
    Option Drawing :=
  if mesh.prepared then
    some ⟨shader, material, mesh.primTopology, mesh.vertexLayout, some mesh, indexed, plain⟩
  else none

def draw (shader : Option ℕ) (mesh : Mesh) : Option Drawing :=
  mesh.drawing shader none (.drawIndexed mesh.indexCount 0 0) (.draw mesh.verticesCount 0)

def drawSubmesh (shader : Option ℕ) (mesh : Mesh) (part : Submesh) : Option Drawing :=
  mesh.drawing shader none (.drawIndexed part.indexCount part.firstIndex part.firstVertex)
    (.draw part.vertexCount part.firstVertex)

def drawProcedure (shader : Option ℕ) (meshTopology vertexCount : ℕ) : Option Drawing :=
  some ⟨shader, none, meshTopology, procedureVertexLayout, none, .draw vertexCount 0,
    .draw vertexCount 0⟩

def drawMaterial (m : Memory) (material : Option ℕ) (mesh : Mesh) : Option Drawing :=
  material.bind fun address =>
    mesh.drawing (m.materials address).shader material (.drawIndexed mesh.indexCount 0 0)
      (.draw mesh.verticesCount 0)

def drawInstanced (m : Memory) (material : Option ℕ) (mesh : Mesh)
    (instanceCount firstInstance : ℕ) : Option Drawing :=
  if instanceCount = 0 then none
  else material.bind fun address =>
    mesh.drawing (m.materials address).shader material
      (.drawIndexedInstanced mesh.indexCount 0 instanceCount firstInstance 0)
      (.drawInstanced mesh.verticesCount 0 instanceCount firstInstance)

def drawMaterialSubmesh (m : Memory) (material : Option ℕ) (mesh : Mesh) (part : Submesh) :
    Option Drawing :=
  material.bind fun address =>
    mesh.drawing (m.materials address).shader material
      (.drawIndexed part.indexCount part.firstIndex part.firstVertex)
      (.draw part.vertexCount part.firstVertex)

def drawSubmeshInstanced (m : Memory) (material : Option ℕ) (mesh : Mesh) (part : Submesh)
    (instanceCount firstInstance : ℕ) : Option Drawing :=
  if instanceCount = 0 then none
  else material.bind fun address =>
    mesh.drawing (m.materials address).shader material
      (.drawIndexedInstanced part.indexCount part.firstIndex instanceCount firstInstance
        part.firstVertex)
      (.drawInstanced part.vertexCount part.firstVertex instanceCount firstInstance)

def drawMaterialProcedure (m : Memory) (material : Option ℕ) (meshTopology vertexCount : ℕ) :
    Option Drawing :=
  material.map fun address =>
    ⟨(m.materials address).shader, material, meshTopology, procedureVertexLayout, none,
      .draw vertexCount 0, .draw vertexCount 0⟩

inductive EncoderCall where
  | setGlobal (value : GlobalValue) (set slot : ℤ)
  | draw (shader : Option ℕ) (mesh : Mesh)
  | drawSubmesh (shader : Option ℕ) (mesh : Mesh) (part : Submesh)
  | drawProcedure (shader : Option ℕ) (meshTopology vertexCount : ℕ)
  | drawMaterial (material : Option ℕ) (mesh : Mesh)
  | drawInstanced (material : Option ℕ) (mesh : Mesh) (instanceCount firstInstance : ℕ)
  | drawMaterialSubmesh (material : Option ℕ) (mesh : Mesh) (part : Submesh)
  | drawSubmeshInstanced (material : Option ℕ) (mesh : Mesh) (part : Submesh)
    (instanceCount firstInstance : ℕ)
  | drawMaterialProcedure (material : Option ℕ) (meshTopology vertexCount : ℕ)
  | dispatch (shader : Option ℕ) (threadX threadY threadZ : ℕ)
deriving DecidableEq, Repr

inductive Work where
  | setGlobal (value : GlobalValue) (set slot : ℤ)
  | draw (drawing : Drawing)
  | dispatch (shader : Option ℕ) (command : Command)
  | nothing
deriving DecidableEq, Repr

def Work.ofDrawing : Option Drawing → Work
  | none => .nothing
  | some drawing => .draw drawing

def EncoderCall.work (m : Memory) : EncoderCall → Work
  | .setGlobal value set slot => .setGlobal value set slot
  | .draw shader mesh => .ofDrawing (Graphics.draw shader mesh)
  | .drawSubmesh shader mesh part => .ofDrawing (Graphics.drawSubmesh shader mesh part)
  | .drawProcedure shader topology count =>
    .ofDrawing (Graphics.drawProcedure shader topology count)
  | .drawMaterial material mesh => .ofDrawing (Graphics.drawMaterial m material mesh)
  | .drawInstanced material mesh count first =>
    .ofDrawing (Graphics.drawInstanced m material mesh count first)
  | .drawMaterialSubmesh material mesh part =>
    .ofDrawing (Graphics.drawMaterialSubmesh m material mesh part)
  | .drawSubmeshInstanced material mesh part count first =>
    .ofDrawing (Graphics.drawSubmeshInstanced m material mesh part count first)
  | .drawMaterialProcedure material topology count =>
    .ofDrawing (Graphics.drawMaterialProcedure m material topology count)
  | .dispatch shader x y z => .dispatch shader (.dispatch x y z)

def Drawing.command (drawing : Drawing) (indexBuffer : ℕ) : Command :=
  if indexBuffer ≠ 0 then drawing.indexed else drawing.plain

namespace Encoder

/-- A drawing. A shader that is null is dereferenced after the material was updated, and a compute
pass has no encoder to draw with. -/
def drawWith (d : Pass) (drawing : Drawing) (e : Encoder) : Option (Encoder × List Seen) :=
  if d.isGraphics then
    let e := updateRenderPipeline d drawing.shader drawing.topology drawing.vertexLayout e
    let e := { e with slots := e.slots.updateMaterial d.toMemory drawing.material }
    drawing.shader.map fun shader =>
      let e := updateDescriptorSet d (d.shaders shader).rootSig e
      match drawing.mesh with
      | some mesh =>
        let e := updateMesh d mesh e
        (e, [⟨drawing.command e.lastIndexBuffer, e.sight⟩])
      | none => (e, [⟨drawing.plain, e.sight⟩])
  else none

/-- `dispatch`, for which a render pass has no encoder. -/
def dispatchWith (d : Pass) (shader : Option ℕ) (command : Command) (e : Encoder) :
    Option (Encoder × List Seen) :=
  if d.isGraphics then none
  else shader.map fun shader =>
    let e := updateComputePipeline d shader { e with slots := e.slots.leaveMaterial }
    let e := updateDescriptorSet d (d.computeShaders shader) e
    (e, [⟨command, e.sight⟩])

def call (d : Pass) (c : EncoderCall) (e : Encoder) : Option (Encoder × List Seen) :=
  match c.work d.toMemory with
  | .setGlobal value set slot =>
    some ({ e with slots := value.set d.toMemory set slot e.slots }, [])
  | .draw drawing => drawWith d drawing e
  | .dispatch shader command => dispatchWith d shader command e
  | .nothing => some (e, [])

def run (d : Pass) (e : Encoder) : List EncoderCall → Option (Encoder × List Seen)
  | [] => some (e, [])
  | c :: calls => do
    let (e, seen) ← call d c e
    let (e, later) ← run d e calls
    return (e, seen ++ later)

def start (pipelines : List PSOKey) (computePipelines : List ℕ) (dsets : List DescriptorSet) :
    Encoder where
  pipelinePool := pipelines
  computePipelinePool := computePipelines
  allocatedDsets := dsets

lemma updateTopology_slots (d : Pass) (topology : ℕ) (e : Encoder) :
    (updateTopology d topology e).slots = e.slots := by
  unfold updateTopology
  split <;> rfl

lemma updateRenderPipeline_slots (d : Pass) (shader : Option ℕ) (topology : ℕ)
    (layout : VertexLayout) (e : Encoder) :
    (updateRenderPipeline d shader topology layout e).slots = e.slots := by
  cases shader with
  | none => exact updateTopology_slots d topology _
  | some shader =>
    simp only [updateRenderPipeline, updateTopology_slots]
    split
    · split <;> rfl
    · rfl

lemma updateComputePipeline_slots (d : Pass) (shader : ℕ) (e : Encoder) :
    (updateComputePipeline d shader e).slots = e.slots := by
  simp only [updateComputePipeline]
  split <;> split <;> rfl

lemma findDset_slots (d : Pass) (rootSig : ℕ) (table : ParameterTable) (e : Encoder) :
    (findDset d rootSig table e).2.slots = e.slots := by
  simp only [findDset, findDset.create]
  split
  · split <;> rfl
  · rfl

lemma bindDset_slots (setIndex dset : ℕ) (offsets : List ℕ) (e : Encoder) :
    (bindDset setIndex dset offsets e).slots = e.slots := by
  unfold bindDset
  split <;> rfl

lemma updateTable_slots (d : Pass) (rootSig : ℕ) (e : Encoder) (table : ParameterTable) :
    (updateTable d rootSig e table).slots = e.slots := by
  unfold updateTable
  split
  · rfl
  · rw [bindDset_slots, findDset_slots]

lemma updateDescriptorSet_slots (d : Pass) (rootSig : RootSignature) (e : Encoder) :
    (updateDescriptorSet d rootSig e).slots = e.slots := by
  unfold updateDescriptorSet
  induction rootSig.tables.take setCount generalizing e with
  | nil => rfl
  | cons table tables ih => rw [List.foldl_cons, ih, updateTable_slots]

lemma updateVertexBuffer_slots (buffer stride : ℕ) (e : Encoder) :
    (updateVertexBuffer buffer stride e).slots = e.slots := by
  unfold updateVertexBuffer
  split <;> rfl

lemma updateIndexBuffer_slots (buffer stride : ℕ) (e : Encoder) :
    (updateIndexBuffer buffer stride e).slots = e.slots := by
  unfold updateIndexBuffer
  split <;> rfl

lemma updateMesh_slots (d : Pass) (mesh : Mesh) (e : Encoder) :
    (updateMesh d mesh e).slots = e.slots := by
  rw [updateMesh, updateIndexBuffer_slots, updateVertexBuffer_slots]

lemma call_slots {d : Pass} {c : EncoderCall} {e e' : Encoder} {seen : List Seen}
    (called : call d c e = some (e', seen)) :
    (∃ value set slot, c.work d.toMemory = .setGlobal value set slot
      ∧ e'.slots = value.set d.toMemory set slot e.slots)
    ∨ (∃ drawing, c.work d.toMemory = .draw drawing
      ∧ e'.slots = e.slots.updateMaterial d.toMemory drawing.material)
    ∨ (∃ shader command, c.work d.toMemory = .dispatch shader command
      ∧ e'.slots = e.slots.leaveMaterial)
    ∨ (c.work d.toMemory = .nothing ∧ e'.slots = e.slots) := by
  unfold call at called
  cases work : c.work d.toMemory with
  | setGlobal value set slot =>
    rw [work] at called
    cases called
    exact .inl ⟨value, set, slot, rfl, rfl⟩
  | draw drawing =>
    rw [work] at called
    simp only [drawWith, Option.ite_none_right_eq_some, Option.map_eq_some_iff] at called
    obtain ⟨-, shader, -, called⟩ := called
    refine .inr (.inl ⟨drawing, rfl, ?_⟩)
    cases mesh : drawing.mesh with
    | none =>
      rw [mesh] at called
      cases called
      rw [updateDescriptorSet_slots, updateRenderPipeline_slots]
    | some mesh' =>
      rw [mesh] at called
      cases called
      rw [updateMesh_slots, updateDescriptorSet_slots, updateRenderPipeline_slots]
  | dispatch shader command =>
    rw [work] at called
    simp only [dispatchWith, Option.ite_none_left_eq_some, Option.map_eq_some_iff] at called
    obtain ⟨-, address, -, called⟩ := called
    cases called
    refine .inr (.inr (.inl ⟨shader, command, rfl, ?_⟩))
    rw [updateDescriptorSet_slots, updateComputePipeline_slots]
  | nothing =>
    rw [work] at called
    cases called
    exact .inr (.inr (.inr ⟨rfl, rfl⟩))

end Encoder

end PulseEngine.Graphics
