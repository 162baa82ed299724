import PulseEngine.Graphics.ResourcePool
import PulseEngine.Graphics.Encoder

/-!
# Caches with addresses in their keys

The pools of texture views, framebuffers, render passes and graphics pipelines of an
`ExecutorContext`, of which the keys have addresses of textures, views, render passes, shaders and
vertex attributes. An object has an identity, and an address that a new object may get when it is
gone. A pool keeps what it hands out and destroys what was not used for some frames.
-/

namespace PulseEngine.Graphics

open Library

def keeping : PoolKind := ⟨true, true⟩

structure Cache (D R : Type*) where
  pool : ResourcePool D
  created : List (Created D R)

namespace Cache

variable {D R : Type*}

def init (frameBeforeOutOfData : ℕ) : Cache D R := ⟨.init frameBeforeOutOfData, []⟩

def get (same : D → D → Bool) (descriptor : D) (object : R) (cache : Cache D R) :
    Option (Cache D R × ℕ) :=
  letI : BEq D := ⟨same⟩
  (Chain.getResource keeping descriptor 0 object cache.created [cache.pool]).bind fun result =>
    result.1.head?.map fun pool => (⟨pool, result.2.1⟩, result.2.2)

def newFrame (cache : Cache D R) : Option (Cache D R) :=
  (Chain.newFrame keeping [cache.pool]).bind fun result =>
    result.1.head?.map fun pool => ⟨pool, cache.created⟩

structure Held (cache : Cache D R) (entry : PoolEntry D) (made : Created D R) : Prop where
  mem : entry ∈ cache.pool.resources
  was : cache.created[entry.resource]? = some made

end Cache

/-- `CGPUTextureViewDescriptor`; no view has a name. -/
structure ViewKey where
  texture : ℕ
  format : ℕ := 0
  usages : ℕ := 0
  aspects : ℕ := 0
  dims : ℕ := 0
  baseArrayLayer : ℕ := 0
  arrayLayerCount : ℕ := 1
  baseMipLevel : ℕ := 0
  mipLevelCount : ℕ := 1
deriving DecidableEq, Repr

structure ViewObject where
  address : ℕ
  texture : ℕ
deriving DecidableEq, Repr

structure RenderPassObject where
  address : ℕ
deriving DecidableEq, Repr

/-- `CGPUFramebufferDescriptor`. -/
structure FramebufferKey where
  renderPass : ℕ
  attachments : List ℕ
  width : ℕ
  height : ℕ
deriving DecidableEq, Repr

structure FramebufferObject where
  renderPass : ℕ
  attachments : List ℕ
deriving DecidableEq, Repr

/-- `PSOKey` with the vertex attributes as the pointer that they are; `attributeCount` and
`attributes` are its `vertex_layout`. -/
structure PipelineKey where
  shader : ℕ
  attributeCount : ℕ
  attributes : ℕ
  primTopology : ℕ
  blendDesc : BlendState
  depthDesc : DepthState
  rasterizerState : RasterizerState
  renderPass : ℕ
deriving DecidableEq, Repr

structure PipelineObject where
  shader : ℕ
  attributes : List VertexAttribute
  renderPass : ℕ
deriving DecidableEq, Repr

structure ShaderObject where
  identity : ℕ
  blendDesc : BlendState := {}
  depthDesc : DepthState := {}
  rasterizerState : RasterizerState := {}
deriving DecidableEq, Repr

/-- Whether vertex layouts are the same, where `read` is what is found at an address. -/
def sameLayout (read : ℕ → List VertexAttribute) (k k' : PipelineKey) : Bool :=
  k.attributeCount = k'.attributeCount
    && (k.attributes = k'.attributes
      || k.attributes ≠ 0 && k'.attributes ≠ 0 && read k.attributes = read k'.attributes)

def sameKey (read : ℕ → List VertexAttribute) (k k' : PipelineKey) : Bool :=
  k.shader = k'.shader && sameLayout read k k' && k.primTopology = k'.primTopology
    && k.blendDesc = k'.blendDesc && k.depthDesc = k'.depthDesc
    && k.rasterizerState = k'.rasterizerState && k.renderPass = k'.renderPass

/-- The pools of an `ExecutorContext` with the memory that their keys are about: the identities of
textures and shaders and the vertex attributes at an address. `renderPass` is the render pass that
is being recorded. -/
structure Context where
  textures : ℕ → Option ℕ := fun _ => none
  shaders : ℕ → Option ShaderObject := fun _ => none
  attributes : ℕ → Option (List VertexAttribute) := fun _ => none
  identities : ℕ := 0
  framebuffers : Cache FramebufferKey FramebufferObject := .init 10
  views : Cache ViewKey ViewObject := .init 11
  pipelines : Cache PipelineKey PipelineObject := .init 12
  renderPasses : Cache ℕ RenderPassObject := .init 12
  renderPass : Option ℕ := none

/-- What happens: objects come and go, and frames use the pools. The address of a new view or render
pass is the choice of the allocator, and `stale` is what is read at an address that was freed. -/
inductive ContextAction where
  | createTexture (address : ℕ)
  | destroyTexture (address : ℕ)
  | createSwapchain (backBuffers : List ℕ)
  | destroySwapchain (backBuffers : List ℕ)
  | createShader (address : ℕ) (blendDesc : BlendState) (depthDesc : DepthState)
    (rasterizerState : RasterizerState)
  | destroyShader (address : ℕ)
  | createMesh (address : ℕ) (attributes : List VertexAttribute)
  | destroyMesh (address : ℕ)
  | newFrame
  | resolveTextureView (key : ViewKey) (address : ℕ)
  | beginRenderPass (descriptor address : ℕ) (attachments : List (ViewKey × ℕ)) (width height : ℕ)
  | getGraphicsPipeline (shader primTopology attributes : ℕ) (dynamicStateT1 : Bool)
    (stale : ℕ → List VertexAttribute)

inductive Returned where
  | view (key : ViewKey) (resource : ℕ)
  | framebuffer (key : FramebufferKey) (resource : ℕ)
  | pipeline (key : PipelineKey) (resource : ℕ)
deriving DecidableEq, Repr

namespace Context

def ViewAt (c : Context) (address resource : ℕ) : Prop :=
  ∃ entry made, c.views.Held entry made ∧ entry.resource = resource
    ∧ made.object.address = address

def RenderPassAt (c : Context) (address resource : ℕ) : Prop :=
  ∃ entry made, c.renderPasses.Held entry made ∧ entry.resource = resource
    ∧ made.object.address = address

def viewFree (c : Context) (address : ℕ) : Bool :=
  c.views.pool.resources.all fun entry =>
    (c.views.created[entry.resource]?.map (·.object.address)) ≠ some address

def renderPassFree (c : Context) (address : ℕ) : Bool :=
  c.renderPasses.pool.resources.all fun entry =>
    (c.renderPasses.created[entry.resource]?.map (·.object.address)) ≠ some address

def createTexture (address : ℕ) (c : Context) : Option Context :=
  if (c.textures address).isSome then none
  else some { c with
    textures := fun a => if a = address then some c.identities else c.textures a
    identities := c.identities + 1 }

def destroyTexture (address : ℕ) (c : Context) : Context :=
  { c with textures := fun a => if a = address then none else c.textures a }

/-- `TextureViewPool::getResource` for a texture that is alive, with the address of the view. -/
def getView (key : ViewKey) (address : ℕ) (c : Context) : Option (Context × ℕ × ℕ) := do
  let texture ← c.textures key.texture
  let (views, resource) ← c.views.get (· == ·) key ⟨address, texture⟩
  -- a view that is made does not get the address of one that is there
  if views.created.length = c.views.created.length ∨ c.viewFree address then
    let made ← views.created[resource]?
    return ({ c with views }, resource, made.object.address)
  else none

def getViews (c : Context) : List (ViewKey × ℕ) → Option (Context × List Returned × List ℕ × List ℕ)
  | [] => some (c, [], [], [])
  | (key, address) :: attachments => do
    let (c, resource, at') ← getView key address c
    let (c, returned, resources, addresses) ← getViews c attachments
    return (c, .view key resource :: returned, resource :: resources, at' :: addresses)

def getRenderPass (descriptor address : ℕ) (c : Context) : Option (Context × ℕ × ℕ) := do
  let (renderPasses, resource) ← c.renderPasses.get (· == ·) descriptor ⟨address⟩
  if renderPasses.created.length = c.renderPasses.created.length ∨ c.renderPassFree address then
    let made ← renderPasses.created[resource]?
    return ({ c with renderPasses, renderPass := some resource }, resource, made.object.address)
  else none

/-- The pools in `execute_render_pass`, before the pass is recorded. -/
def beginRenderPass (descriptor address : ℕ) (attachments : List (ViewKey × ℕ))
    (width height : ℕ) (c : Context) : Option (Context × List Returned) := do
  let (c, renderPass, at') ← getRenderPass descriptor address c
  let (c, returned, resources, addresses) ← getViews c attachments
  let key : FramebufferKey := ⟨at', addresses, width, height⟩
  let (framebuffers, resource) ← c.framebuffers.get (· == ·) key ⟨renderPass, resources⟩
  return ({ c with framebuffers }, returned ++ [.framebuffer key resource])

/-- The key of `getGraphicsPipeline`, in which dynamic state is left out. -/
def pipelineKey (shader : ℕ) (object : ShaderObject) (primTopology attributes : ℕ)
    (content : List VertexAttribute) (renderPass : ℕ) (dynamicStateT1 : Bool) : PipelineKey :=
  let key : PipelineKey :=
    ⟨shader, content.length, attributes, primTopology, object.blendDesc, object.depthDesc,
      object.rasterizerState, renderPass⟩
  if dynamicStateT1 then
    { key with
      primTopology := 0
      rasterizerState := { key.rasterizerState with cullMode := 0, frontFace := 0 }
      depthDesc := { key.depthDesc with depthTest := false, depthWrite := false, depthOp := 0 } }
  else key

def read (c : Context) (stale : ℕ → List VertexAttribute) (address : ℕ) : List VertexAttribute :=
  (c.attributes address).getD (stale address)

def layout (c : Context) (attributes : ℕ) : Option (List VertexAttribute) :=
  if attributes = 0 then some [] else c.attributes attributes

def getGraphicsPipeline (shader primTopology attributes : ℕ) (dynamicStateT1 : Bool)
    (stale : ℕ → List VertexAttribute) (c : Context) : Option (Context × List Returned) := do
  let object ← c.shaders shader
  let content ← c.layout attributes
  let renderPass ← c.renderPass
  let made ← c.renderPasses.created[renderPass]?
  let key := pipelineKey shader object primTopology attributes content made.object.address
    dynamicStateT1
  let (pipelines, resource) ← c.pipelines.get (sameKey (c.read stale)) key
    ⟨object.identity, content, renderPass⟩
  return ({ c with pipelines }, [.pipeline key resource])

def newFrame (c : Context) : Option Context := do
  let framebuffers ← c.framebuffers.newFrame
  let views ← c.views.newFrame
  let pipelines ← c.pipelines.newFrame
  let renderPasses ← c.renderPasses.newFrame
  return { c with framebuffers, views, pipelines, renderPasses, renderPass := none }

def step (c : Context) : ContextAction → Option (Context × List Returned)
  | .createTexture address => (c.createTexture address).map (·, [])
  | .destroyTexture address => some (c.destroyTexture address, [])
  | .createSwapchain backBuffers =>
    (backBuffers.foldlM (fun c address => createTexture address c) c).map (·, [])
  | .destroySwapchain backBuffers =>
    some (backBuffers.foldl (fun c address => c.destroyTexture address) c, [])
  | .createShader address blendDesc depthDesc rasterizerState =>
    if (c.shaders address).isSome then none
    else some ({ c with
      shaders := fun a =>
        if a = address then some ⟨c.identities, blendDesc, depthDesc, rasterizerState⟩
        else c.shaders a
      identities := c.identities + 1 }, [])
  | .destroyShader address =>
    some ({ c with shaders := fun a => if a = address then none else c.shaders a }, [])
  | .createMesh address attributes =>
    if address = 0 ∨ (c.attributes address).isSome then none
    else some ({ c with
      attributes := fun a => if a = address then some attributes else c.attributes a }, [])
  | .destroyMesh address =>
    some ({ c with attributes := fun a => if a = address then none else c.attributes a }, [])
  | .newFrame => c.newFrame.map (·, [])
  | .resolveTextureView key address =>
    (getView key address c).map fun result => (result.1, [.view key result.2.1])
  | .beginRenderPass descriptor address attachments width height =>
    beginRenderPass descriptor address attachments width height c
  | .getGraphicsPipeline shader primTopology attributes dynamicStateT1 stale =>
    getGraphicsPipeline shader primTopology attributes dynamicStateT1 stale c

def next (c : Context) (a : ContextAction) : Option Context := (c.step a).map (·.1)

end Context

def Returned.Alive (c : Context) : Returned → Prop
  | .view key resource =>
    ∃ made, c.views.created[resource]? = some made
      ∧ c.textures key.texture = some made.object.texture
  | .framebuffer key resource =>
    ∃ made, c.framebuffers.created[resource]? = some made
      ∧ c.RenderPassAt key.renderPass made.object.renderPass
      ∧ List.Forall₂ c.ViewAt key.attachments made.object.attachments
  | .pipeline key resource =>
    ∃ made, c.pipelines.created[resource]? = some made
      ∧ (∃ object, c.shaders key.shader = some object ∧ object.identity = made.object.shader)
      ∧ c.RenderPassAt key.renderPass made.object.renderPass
      ∧ c.layout key.attributes = some made.object.attributes

end PulseEngine.Graphics
