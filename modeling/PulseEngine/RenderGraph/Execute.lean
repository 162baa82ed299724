import Mathlib.Tactic
import PulseEngine.RenderGraph.Compile

/-!
# Pools of physical resources

`ResourcePool` of `resourcepool.h`, as the texture pool and the buffer pool of an executor context use
it: what is handed out is taken from the pool, what is out of date is destroyed, and there is no pool
behind it. A descriptor is a number, and a physical object is the number of its creation.
-/

namespace PulseEngine.RenderGraph

/-- An entry of `m_resources`. -/
structure PoolEntry where
  descriptor : Nat
  resource : Nat
  timestamp : Nat
  deriving DecidableEq, Repr

/-- `ResourcePool`, with the descriptors of the objects that were created. -/
structure ResourcePool where
  resources : List PoolEntry
  created : List Nat
  timestamp : Nat
  frameBeforeOutOfData : Nat
  deriving DecidableEq, Repr

namespace ResourcePool

def init (frameBeforeOutOfData : Nat) : ResourcePool := ⟨[], [], 0, frameBeforeOutOfData⟩

def newFrame (pool : ResourcePool) : ResourcePool :=
  { pool with
    timestamp := pool.timestamp + 1
    resources := pool.resources.filter fun entry =>
      ¬ entry.timestamp + pool.frameBeforeOutOfData < pool.timestamp + 1 }

def getResource (pool : ResourcePool) (descriptor choice : Nat) : ResourcePool × Nat :=
  let found := pool.resources.filter (·.descriptor = descriptor)
  match found[choice % found.length]? with
  | none => ({ pool with created := pool.created ++ [descriptor] }, pool.created.length)
  | some entry => ({ pool with resources := pool.resources.erase entry }, entry.resource)

def releaseResource (pool : ResourcePool) (resource : Nat) : Option ResourcePool :=
  pool.created[resource]?.map fun descriptor =>
    { pool with resources := ⟨descriptor, resource, pool.timestamp⟩ :: pool.resources }

def objects (pool : ResourcePool) : List Nat := pool.resources.map (·.resource)

structure Sound (pool : ResourcePool) : Prop where
  nodup : pool.objects.Nodup
  lt : ∀ object ∈ pool.objects, object < pool.created.length

variable {pool : ResourcePool} {object : Nat}

lemma Sound.init (frameBeforeOutOfData : Nat) : (init frameBeforeOutOfData).Sound :=
  ⟨List.nodup_nil, nofun⟩

lemma Sound.newFrame (h : pool.Sound) : pool.newFrame.Sound := by
  have hsub : pool.newFrame.objects.Sublist pool.objects := List.filter_sublist.map _
  exact ⟨h.nodup.sublist hsub, fun object hm => h.lt object (hsub.mem hm)⟩

/-- What `getResource` did: the object it handed out is in the pool no more, and was there or is
new. -/
structure Handed (pool pool' : ResourcePool) (object : Nat) : Prop where
  sound : pool'.Sound
  created : pool.created.length ≤ pool'.created.length
  lt : object < pool'.created.length
  taken : object ∉ pool'.objects
  objects : ∀ other ∈ pool'.objects, other ∈ pool.objects
  origin : object ∈ pool.objects ∨ object = pool.created.length

lemma Sound.getResource (h : pool.Sound) (descriptor choice : Nat) :
    Handed pool (pool.getResource descriptor choice).1
      (pool.getResource descriptor choice).2 := by
  rw [ResourcePool.getResource]
  split
  · have hlen : (pool.created ++ [descriptor]).length = pool.created.length + 1 := by simp
    constructor
    · refine ⟨h.nodup, ?_⟩
      intro object hm
      rw [hlen]
      exact (h.lt object hm).trans (Nat.lt_succ_self _)
    · rw [hlen]
      exact Nat.le_succ _
    · rw [hlen]
      exact Nat.lt_succ_self _
    · intro hm
      exact lt_irrefl _ (h.lt _ hm)
    · exact fun _ => id
    · exact .inr rfl
  · rename_i entry hfound
    have hmem : entry ∈ pool.resources := List.mem_of_mem_filter (List.mem_of_getElem? hfound)
    have hsub : ((pool.resources.erase entry).map (·.resource)).Sublist pool.objects :=
      List.erase_sublist.map _
    -- the entry in front of the others is a permutation of the pool
    have hperm : pool.objects.Perm
        (entry.resource :: (pool.resources.erase entry).map (·.resource)) :=
      (List.perm_cons_erase hmem).map _
    constructor
    · exact ⟨h.nodup.sublist hsub, fun object hm => h.lt object (hsub.mem hm)⟩
    · exact le_rfl
    · exact h.lt _ (List.mem_map_of_mem hmem)
    · exact (List.nodup_cons.mp (hperm.nodup_iff.mp h.nodup)).1
    · exact fun other hm => hsub.mem hm
    · exact .inl (List.mem_map_of_mem hmem)

lemma Sound.releaseResource (h : pool.Sound) (hlt : object < pool.created.length)
    (hnot : object ∉ pool.objects) : ∃ pool', pool.releaseResource object = some pool' ∧
      pool'.Sound ∧ pool'.created = pool.created ∧ pool'.objects = object :: pool.objects := by
  rw [ResourcePool.releaseResource, List.getElem?_eq_getElem hlt]
  refine ⟨_, rfl, ⟨?_, ?_⟩, rfl, rfl⟩
  · exact List.nodup_cons.mpr ⟨hnot, h.nodup⟩
  · intro other hm
    cases List.mem_cons.mp hm with
    | inl he => exact he ▸ hlt
    | inr hm => exact h.lt other hm

end ResourcePool

end PulseEngine.RenderGraph

/-!
## Executing a compiled render graph

`Executor::Execute` and `place_barriers`: before a pass, its resources are taken from the pools and the
barriers of its edges are recorded; after it, its resources are released. A step has no result when
it reads through a null pointer or outside the table of states of a texture. The commands of a pass
itself are left out apart from the resources they look up, and a full batch of barriers is recorded
with the barriers of its pass.
-/

namespace PulseEngine.RenderGraph

inductive Physical where
  | pooled (object : Nat)
  | imported (asset : Nat)
  deriving DecidableEq, Repr

/-- The tracked states of `PulseTextureData`. -/
structure TextureData where
  curStates : List ResourceState
  statesConsistent : Bool
  deriving DecidableEq, Repr

structure Memory where
  textures : Physical → TextureData
  buffers : Physical → ResourceState

/-- `CGPUTextureBarrier`, for a whole texture and for a subresource, and `CGPUBufferBarrier`. -/
inductive Barrier where
  | texture (texture : Physical) (src dst : ResourceState)
  | subresource (texture : Physical) (src dst : ResourceState) (mipLevel arrayLayer : Nat)
  | buffer (buffer : Physical) (src dst : ResourceState)
  deriving DecidableEq, Repr

/-- A barrier that was emitted, with the tracked states at that moment, the entry of the table of
states that it was emitted for, and the number of mip levels by which the table is laid out. -/
structure Emission where
  barrier : Barrier
  moment : Memory
  entry : Nat
  mipCount : Nat

namespace Memory

def setTexture (m : Memory) (texture : Physical) (data : TextureData) : Memory :=
  { m with textures := Function.update m.textures texture data }

def forcesTexture (usage : ResourceState) : Bool :=
  usage = .renderTarget || usage = .depthWrite || usage = .copyDest

def forcesBuffer (usage : ResourceState) : Bool := usage = .copyDest

/-- The turn of the loop of `place_barriers` over the states of a texture. -/
def placeEntry (texture : Physical) (mipCount : Nat) (usage : ResourceState)
    (placed : Memory × List Emission) (i : Nat) : Option (Memory × List Emission) := do
  let data := placed.1.textures texture
  let cur ← data.curStates[i]?
  if cur ≠ usage ∨ forcesTexture usage then
    guard (mipCount ≠ 0)
    return (placed.1.setTexture texture { data with curStates := data.curStates.set i usage },
      placed.2 ++ [⟨.subresource texture cur usage (i % mipCount % 0x100) (i / mipCount % 0x100),
        placed.1, i, mipCount⟩])
  else return placed

/-- The branch of `place_barriers` for a whole texture. -/
def placeTexture (m : Memory) (texture : Physical) (mipCount : Nat) (usage : ResourceState) :
    Option (Memory × List Emission) := do
  let data := m.textures texture
  if data.statesConsistent ∨ data.curStates.length = 1 then
    let cur ← data.curStates[0]?
    if cur ≠ usage ∨ forcesTexture usage then
      return (m.setTexture texture ⟨data.curStates.map fun _ => usage, true⟩,
        [⟨.texture texture cur usage, m, 0, mipCount⟩])
    else return (m.setTexture texture { data with statesConsistent := true }, [])
  else
    let (m, emissions) ←
      (List.range data.curStates.length).foldlM (placeEntry texture mipCount usage) (m, [])
    return (m.setTexture texture { m.textures texture with statesConsistent := true }, emissions)

/-- The branch of `place_barriers` for a subresource. -/
def placeSubresource (m : Memory) (texture : Physical) (resource : CompiledResource)
    (usage : ResourceState) : Option (Memory × List Emission) := do
  let data := m.textures texture
  let i := resource.mipLevel + resource.arraySlice * resource.mipCount
  let cur ← data.curStates[i]?
  if cur ≠ usage ∨ forcesTexture usage then
    return (m.setTexture texture ⟨data.curStates.set i usage, false⟩,
      [⟨.subresource texture cur usage resource.mipLevel resource.arraySlice, m, i,
        resource.mipCount⟩])
  else return (m, [])

def placeBuffer (m : Memory) (buffer : Physical) (usage : ResourceState) :
    Memory × List Emission :=
  if m.buffers buffer ≠ usage ∨ forcesBuffer usage then
    ({ m with buffers := Function.update m.buffers buffer usage },
      [⟨.buffer buffer (m.buffers buffer) usage, m, 0, 0⟩])
  else (m, [])

end Memory

/-- What Execute is given: the descriptors of the resources, how many states the table of a new
texture has, and which of the fitting objects in a pool are found. -/
structure ExecutorContext where
  textureDescriptor : Nat → Nat
  bufferDescriptor : Nat → Nat
  stateCount : Nat → Nat
  choice : Nat → Nat

/-- The state of `Executor::Execute`: the pointers `managered_texture` and `managed_buffer`, the pools,
the tracked states, and the barriers of each pass so far. -/
structure Executor where
  managed : Nat → Option Nat
  texturePool : ResourcePool
  bufferPool : ResourcePool
  memory : Memory
  barriers : List (List Emission)

namespace CompiledGraph

def getTexture (c : CompiledGraph) (managed : Nat → Option Nat) (i : Nat) : Option Physical := do
  let resource ← c.resources[i]?
  guard (resource.resourceType = .texture)
  match resource.manageType with
  | .managed => (managed i).map .pooled
  | .imported => resource.imported.map .imported
  | .subResource =>
    let parent ← c.resources[resource.parent]?
    guard (parent.parent = 0 ∧ parent.resourceType = .texture)
    if parent.manageType = .managed then (managed resource.parent).map .pooled
    else parent.imported.map .imported

def getBuffer (c : CompiledGraph) (managed : Nat → Option Nat) (i : Nat) : Option Physical := do
  let resource ← c.resources[i]?
  guard (resource.resourceType = .buffer)
  if resource.manageType = .managed then (managed i).map .pooled
  else resource.imported.map .imported

def find (c : CompiledGraph) (managed : Nat → Option Nat) : ResourceType → Nat → Option Physical
  | .texture, i => c.getTexture managed i
  | .buffer, i => c.getBuffer managed i

def placeBarrier (c : CompiledGraph) (managed : Nat → Option Nat) (m : Memory)
    (edge : CompiledEdge) : Option (Memory × List Emission) := do
  let resource ← c.resources[edge.index]?
  if edge.usage = .undefined then return (m, [])
  let physical ← c.find managed resource.resourceType edge.index
  match resource.resourceType with
  | .texture =>
    if resource.manageType ≠ .subResource then
      m.placeTexture physical resource.mipCount edge.usage
    else m.placeSubresource physical resource edge.usage
  | .buffer => return m.placeBuffer physical edge.usage

def placeEdges (c : CompiledGraph) (managed : Nat → Option Nat) :
    List CompiledEdge → Memory → Option (Memory × List Emission)
  | [], m => some (m, [])
  | edge :: edges, m => do
    let (m, emissions) ← c.placeBarrier managed m edge
    let (m, more) ← placeEdges c managed edges m
    return (m, emissions ++ more)

def placeBarriers (c : CompiledGraph) (managed : Nat → Option Nat) (pass : CompiledPass)
    (m : Memory) : Option (Memory × List Emission) :=
  c.placeEdges managed (pass.reads ++ pass.writes) m

/-- What the commands of a pass look up: the attachments of a render pass, and the staging buffer and
the destination of an upload pass. -/
def passLookups (pass : CompiledPass) : List (ResourceType × Nat) :=
  match pass.type with
  | .render =>
    (pass.colorAttachments ++ pass.depthAttachment.toList).map fun i => (.texture, i)
  | .uploadTexture => [(.buffer, pass.stagingBuffer), (.texture, pass.dest)]
  | .uploadBuffer => [(.buffer, pass.stagingBuffer), (.buffer, pass.dest)]
  | _ => []

variable (ctx : ExecutorContext)

/-- The part of `Executor::Execute` that devirtualizes a resource. -/
def devirtualize (c : CompiledGraph) (st : Executor) (i : Nat) : Option Executor := do
  let resource ← c.resources[i]?
  if resource.manageType ≠ .managed then return st
  match resource.resourceType with
  | .texture =>
    let (pool, object) := st.texturePool.getResource (ctx.textureDescriptor i) (ctx.choice i)
    return { st with
      managed := Function.update st.managed i (some object)
      texturePool := pool
      memory :=
        -- a texture that was created by the pool
        if object = st.texturePool.created.length then
          st.memory.setTexture (.pooled object) ⟨List.replicate (ctx.stateCount i) .undefined, true⟩
        else st.memory }
  | .buffer =>
    let (pool, object) := st.bufferPool.getResource (ctx.bufferDescriptor i) (ctx.choice i)
    return { st with
      managed := Function.update st.managed i (some object)
      bufferPool := pool
      memory :=
        if object = st.bufferPool.created.length then
          { st.memory with
            buffers := Function.update st.memory.buffers (.pooled object) .undefined }
        else st.memory }

/-- The part of `Executor::Execute` that releases a resource. -/
def destroy (c : CompiledGraph) (st : Executor) (i : Nat) : Option Executor := do
  let resource ← c.resources[i]?
  if resource.manageType ≠ .managed then return st
  let object ← st.managed i
  match resource.resourceType with
  | .texture =>
    let pool ← st.texturePool.releaseResource object
    return { st with texturePool := pool }
  | .buffer =>
    let pool ← st.bufferPool.releaseResource object
    return { st with bufferPool := pool }

/-- The part of the loop of `Executor::Execute` before the resources of a pass are released. -/
def runPass (c : CompiledGraph) (st : Executor) (pass : CompiledPass) : Option Executor := do
  let st ← pass.devirtualize.foldlM (c.devirtualize ctx) st
  let (memory, emissions) ← c.placeBarriers st.managed pass st.memory
  guard (∀ lookup ∈ passLookups pass, (c.find st.managed lookup.1 lookup.2).isSome)
  return { st with memory := memory, barriers := st.barriers ++ [emissions] }

def executePass (c : CompiledGraph) (st : Executor) (pass : CompiledPass) : Option Executor := do
  let st ← c.runPass ctx st pass
  pass.destroy.foldlM c.destroy st

/-- `Executor::Execute`, for the first passes of the graph. -/
def execute (c : CompiledGraph) (passes : List CompiledPass) (st : Executor) : Option Executor :=
  passes.foldlM (c.executePass ctx) st

end CompiledGraph

def Executor.start (texturePool bufferPool : ResourcePool) (memory : Memory) : Executor :=
  ⟨fun _ => none, texturePool, bufferPool, memory, []⟩

end PulseEngine.RenderGraph
