import PulseEngine.Graphics.Encoder

/-!
# An encoder without caches

The abstract encoder, which binds everything again at every draw from the same slots, and the
requests for descriptor sets of a pass. The caches of the encoder do not show in a pass whose
requests agree (`Request.Agree`): a set that the cache takes for the same one is the same one.
-/

namespace PulseEngine.Graphics

structure Reference where
  slots : PassSlots := {}
  sight : Sight := {}

namespace Reference

def bindPipeline (d : Pass) (shader topology : ℕ) (layout : VertexLayout) (sight : Sight) : Sight :=
  let key := psoKey d shader topology layout
  if d.creates key then
    { sight with
      renderPipeline := some key
      raster := if d.dynamicStateT1 then some (d.shaders shader).rasterCommands else sight.raster }
  else sight

def bindTopology (d : Pass) (topology : ℕ) (sight : Sight) : Sight :=
  if d.dynamicStateT1 then { sight with topology := some topology } else sight

def bindCompute (d : Pass) (shader : ℕ) (sight : Sight) : Sight :=
  { sight with
    computePipeline := (if d.createsCompute shader then some shader else none).or
      sight.computePipeline }

def bindTable (d : Pass) (slots : ResourceSets) (sight : Sight) (table : ParameterTable) : Sight :=
  if table.setIndex = materialSet ∨ table.used = [] then sight
  else
    { sight with
      descriptorSets := fun s =>
        if s = table.setIndex then
          some (tableData d (slots s) table, slotOffsets (slots s) table.used)
        else sight.descriptorSets s }

def bindTables (d : Pass) (slots : ResourceSets) (rootSig : RootSignature) (sight : Sight) :
    Sight :=
  (rootSig.tables.take setCount).foldl (bindTable d slots) sight

def bindMesh (d : Pass) (mesh : Mesh) (sight : Sight) : Sight :=
  let vertexBuffer := meshBuffer d mesh.vertexBuffer
  let indexBuffer := meshBuffer d mesh.indexBuffer
  { sight with
    vertexBuffer := if vertexBuffer ≠ 0 then some (vertexBuffer, mesh.vertexStride)
      else sight.vertexBuffer
    indexBuffer := if indexBuffer ≠ 0 then some (indexBuffer, mesh.indexStride)
      else sight.indexBuffer }

def drawWith (d : Pass) (drawing : Drawing) (r : Reference) : Reference × List Seen :=
  let slots := r.slots.updateMaterial d.toMemory drawing.material
  let sight := match drawing.shader with
    | some shader =>
      bindTables d slots.resourceSets (d.shaders shader).rootSig
        (bindTopology d drawing.topology
          (bindPipeline d shader drawing.topology drawing.vertexLayout r.sight))
    | none => bindTopology d drawing.topology r.sight
  match drawing.mesh with
  | some mesh =>
    let sight := bindMesh d mesh sight
    (⟨slots, sight⟩, [⟨drawing.command (meshBuffer d mesh.indexBuffer), sight⟩])
  | none => (⟨slots, sight⟩, [⟨drawing.plain, sight⟩])

def dispatchWith (d : Pass) (shader : Option ℕ) (command : Command) (r : Reference) :
    Reference × List Seen :=
  let slots := r.slots.leaveMaterial
  let sight := match shader with
    | some shader =>
      bindTables d slots.resourceSets (d.computeShaders shader) (bindCompute d shader r.sight)
    | none => r.sight
  (⟨slots, sight⟩, [⟨command, sight⟩])

def call (d : Pass) (c : EncoderCall) (r : Reference) : Reference × List Seen :=
  match c.work d.toMemory with
  | .setGlobal value set slot => ({ r with slots := value.set d.toMemory set slot r.slots }, [])
  | .draw drawing => drawWith d drawing r
  | .dispatch shader command => dispatchWith d shader command r
  | .nothing => (r, [])

def run (d : Pass) (r : Reference) : List EncoderCall → List Seen
  | [] => []
  | c :: calls => (call d c r).2 ++ run d (call d c r).1 calls

end Reference

structure Request where
  hash : UInt64
  values : List ℕ
  setIndex : ℕ
  datas : List DescriptorData
deriving DecidableEq, Repr

def Request.Agree (q r : Request) : Prop :=
  q.hash = r.hash → q.values = r.values → q.setIndex = r.setIndex ∧ q.datas = r.datas

instance (q r : Request) : Decidable (q.Agree r) :=
  inferInstanceAs (Decidable (_ → _ → _))

def tableRequest (d : Pass) (slots : ResourceSets) (rootSig : ℕ) (table : ParameterTable) :
    Request :=
  let values := slotValues (slots table.setIndex) table.used
  ⟨dsetHash d rootSig table.setIndex values, values, table.setIndex,
    tableData d (slots table.setIndex) table⟩

def tableRequests (d : Pass) (slots : ResourceSets) (rootSig : ℕ) (table : ParameterTable) :
    List Request :=
  if table.setIndex = materialSet ∨ table.used = [] then []
  else [tableRequest d slots rootSig table]

def requests (d : Pass) (slots : ResourceSets) (rootSig : RootSignature) : List Request :=
  (rootSig.tables.take setCount).flatMap (tableRequests d slots rootSig.address)

def callRequests (d : Pass) (slots : PassSlots) (c : EncoderCall) : PassSlots × List Request :=
  match c.work d.toMemory with
  | .setGlobal value set slot => (value.set d.toMemory set slot slots, [])
  | .draw drawing =>
    let slots := slots.updateMaterial d.toMemory drawing.material
    (slots, (drawing.shader.map fun shader =>
      requests d slots.resourceSets (d.shaders shader).rootSig).getD [])
  | .dispatch shader _ =>
    let slots := slots.leaveMaterial
    (slots, (shader.map fun shader =>
      requests d slots.resourceSets (d.computeShaders shader)).getD [])
  | .nothing => (slots, [])

def runRequests (d : Pass) (slots : PassSlots) : List EncoderCall → List Request
  | [] => []
  | c :: calls => (callRequests d slots c).2 ++ runRequests d (callRequests d slots c).1 calls

def Recordable (d : Pass) (c : EncoderCall) : Prop :=
  match c.work d.toMemory with
  | .draw drawing => d.isGraphics = true ∧ drawing.shader.isSome
  | .dispatch shader _ => d.isGraphics = false ∧ shader.isSome
  | _ => True

/-- What an encoder and the reference have in common after some requests, and what the caches of the
encoder say. -/
structure Mirrors (d : Pass) (past : List Request) (e : Encoder) (r : Reference) : Prop where
  slots : e.slots = r.slots
  renderPipeline : ∀ h, e.recorded.renderPipeline = some h →
    ∃ key, e.pipelinePool[h]? = some key ∧ r.sight.renderPipeline = some key
  noPipeline : e.recorded.renderPipeline = none → r.sight.renderPipeline = none
  raster : r.sight.raster = e.recorded.raster
  lastPipeline : ∀ h, e.lastRenderPipeline = some h → e.recorded.renderPipeline = some h
    ∧ ∀ key, e.pipelinePool[h]? = some key → d.dynamicStateT1 = true →
      e.recorded.raster = some (d.shaders key.shader).rasterCommands
  topology : r.sight.topology = e.recorded.topology
  lastTopology : ∀ t, e.lastPrimTopology = some t → e.recorded.topology = some t
  computePipeline : ∀ h, e.recorded.computePipeline = some h →
    ∃ key, e.computePipelinePool[h]? = some key ∧ r.sight.computePipeline = some key
  noCompute : e.recorded.computePipeline = none → r.sight.computePipeline = none
  lastCompute : ∀ h, e.lastComputePipeline = some h → e.recorded.computePipeline = some h
  descriptorSets : ∀ s h offsets, e.recorded.descriptorSets s = some (h, offsets) →
    ∃ dset, e.allocatedDsets[h]? = some dset
      ∧ r.sight.descriptorSets s = some (dset.datas, offsets)
  noSet : ∀ s, e.recorded.descriptorSets s = none → r.sight.descriptorSets s = none
  lastBound : ∀ s h, e.lastBoundDset s = some h →
    e.recorded.descriptorSets s = some (h, e.lastBoundOffsets s)
  cached : ∀ hash entry, e.dsetCache.lookup hash = some entry →
    ∃ q ∈ past, q.hash = hash ∧ q.values = entry.values
      ∧ ∃ rootSig, e.allocatedDsets[entry.handle]? = some ⟨rootSig, q.setIndex, q.datas⟩
  vertexBuffer : r.sight.vertexBuffer = e.recorded.vertexBuffer
  lastVertex : e.lastVertexBuffer ≠ 0 →
    e.recorded.vertexBuffer = some (e.lastVertexBuffer, e.lastVertexBufferStride)
  indexBuffer : r.sight.indexBuffer = e.recorded.indexBuffer
  lastIndex : e.lastIndexBuffer ≠ 0 →
    e.recorded.indexBuffer = some (e.lastIndexBuffer, e.lastIndexBufferStride)

namespace Mirrors

variable {d : Pass} {past : List Request} {e : Encoder} {r : Reference}

lemma sight (mirrors : Mirrors d past e r) : e.sight = r.sight := by
  obtain ⟨slots, renderPipeline, computePipeline, raster, topology, sets, vertex, index⟩ := r
  have pipeline : e.recorded.renderPipeline.bind (e.pipelinePool[·]?) = renderPipeline := by
    cases h : e.recorded.renderPipeline with
    | none => exact (mirrors.noPipeline h).symm
    | some i =>
      obtain ⟨key, here, there⟩ := mirrors.renderPipeline i h
      exact here.trans there.symm
  have compute : e.recorded.computePipeline.bind (e.computePipelinePool[·]?)
      = computePipeline := by
    cases h : e.recorded.computePipeline with
    | none => exact (mirrors.noCompute h).symm
    | some i =>
      obtain ⟨key, here, there⟩ := mirrors.computePipeline i h
      exact here.trans there.symm
  have bound : (fun s => (e.recorded.descriptorSets s).bind fun p =>
      e.allocatedDsets[p.1]?.map fun dset => (dset.datas, p.2)) = sets := by
    funext s
    cases h : e.recorded.descriptorSets s with
    | none => exact (mirrors.noSet s h).symm
    | some p =>
      obtain ⟨dset, here, there⟩ := mirrors.descriptorSets s p.1 p.2 h
      rw [Option.bind_some, here]
      exact there.symm
  have rasterEq : raster = e.recorded.raster := mirrors.raster
  have topologyEq : topology = e.recorded.topology := mirrors.topology
  have vertexEq : vertex = e.recorded.vertexBuffer := mirrors.vertexBuffer
  have indexEq : index = e.recorded.indexBuffer := mirrors.indexBuffer
  rw [← pipeline, ← compute, ← bound, rasterEq, topologyEq, vertexEq, indexEq]
  rfl

lemma start (d : Pass) (pipelines : List PSOKey) (computePipelines : List ℕ)
    (dsets : List DescriptorSet) :
    Mirrors d [] (.start pipelines computePipelines dsets) {} where
  slots := rfl
  renderPipeline _ h := nomatch h
  noPipeline _ := rfl
  raster := rfl
  lastPipeline _ h := nomatch h
  topology := rfl
  lastTopology _ h := nomatch h
  computePipeline _ h := nomatch h
  noCompute _ := rfl
  lastCompute _ h := nomatch h
  descriptorSets _ _ _ h := nomatch h
  noSet _ _ := rfl
  lastBound _ _ h := nomatch h
  cached _ _ h := nomatch h
  vertexBuffer := rfl
  lastVertex h := absurd rfl h
  indexBuffer := rfl
  lastIndex h := absurd rfl h

/-! ### Pipelines -/

end Mirrors

end PulseEngine.Graphics
