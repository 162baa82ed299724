import PulseEngine.Library.Batch
import PulseEngine.RenderGraph.Execute

/-!
# The batches of `place_barriers`

`place_barriers` with its two arrays: a barrier is written behind the others of its kind, `add_barrier`
records both arrays once one of them is full, and what is left is recorded at the end. The barriers
that are found are those of `CompiledGraph.placeBarriers`, which leaves the arrays out.
-/

namespace PulseEngine.RenderGraph

open Library

def barrierCapacity : Nat := 16

def Barrier.isTexture : Barrier → Bool
  | .texture .. | .subresource .. => true
  | .buffer .. => false

def addBarrier (batch : Batch Barrier) (barrier : Barrier) : Batch Barrier :=
  batch.add barrierCapacity Barrier.isTexture barrier

namespace Memory

def batchEntry (texture : Physical) (mipCount : Nat) (usage : ResourceState)
    (placed : Memory × Batch Barrier) (i : Nat) : Option (Memory × Batch Barrier) := do
  let data := placed.1.textures texture
  let cur ← data.curStates[i]?
  if cur ≠ usage ∨ forcesTexture usage then
    guard (mipCount ≠ 0)
    let batch := addBarrier placed.2
      (.subresource texture cur usage (i % mipCount % 0x100) (i / mipCount % 0x100))
    return (placed.1.setTexture texture { data with curStates := data.curStates.set i usage }, batch)
  else return placed

def batchTexture (m : Memory) (batch : Batch Barrier) (texture : Physical) (mipCount : Nat)
    (usage : ResourceState) : Option (Memory × Batch Barrier) := do
  let data := m.textures texture
  if data.statesConsistent ∨ data.curStates.length = 1 then
    let cur ← data.curStates[0]?
    if cur ≠ usage ∨ forcesTexture usage then
      let batch := addBarrier batch (.texture texture cur usage)
      return (m.setTexture texture ⟨data.curStates.map fun _ => usage, true⟩, batch)
    else return (m.setTexture texture { data with statesConsistent := true }, batch)
  else
    let (m, batch) ←
      (List.range data.curStates.length).foldlM (batchEntry texture mipCount usage) (m, batch)
    return (m.setTexture texture { m.textures texture with statesConsistent := true }, batch)

def batchSubresource (m : Memory) (batch : Batch Barrier) (texture : Physical)
    (resource : CompiledResource) (usage : ResourceState) : Option (Memory × Batch Barrier) := do
  let data := m.textures texture
  let i := resource.mipLevel + resource.arraySlice * resource.mipCount
  let cur ← data.curStates[i]?
  if cur ≠ usage ∨ forcesTexture usage then
    let batch :=
      addBarrier batch (.subresource texture cur usage resource.mipLevel resource.arraySlice)
    return (m.setTexture texture ⟨data.curStates.set i usage, false⟩, batch)
  else return (m, batch)

def batchBuffer (m : Memory) (batch : Batch Barrier) (buffer : Physical) (usage : ResourceState) :
    Memory × Batch Barrier :=
  if m.buffers buffer ≠ usage ∨ forcesBuffer usage then
    let batch := addBarrier batch (.buffer buffer (m.buffers buffer) usage)
    ({ m with buffers := Function.update m.buffers buffer usage }, batch)
  else (m, batch)

end Memory

namespace CompiledGraph

/-- The turn of the loop of `place_texture_barriers_impl`. -/
def batchBarrier (c : CompiledGraph) (managed : Nat → Option Nat) (m : Memory)
    (batch : Batch Barrier) (edge : CompiledEdge) : Option (Memory × Batch Barrier) := do
  let resource ← c.resources[edge.index]?
  if edge.usage = .undefined then return (m, batch)
  let physical ← c.find managed resource.resourceType edge.index
  match resource.resourceType with
  | .texture =>
    if resource.manageType ≠ .subResource then
      m.batchTexture batch physical resource.mipCount edge.usage
    else m.batchSubresource batch physical resource edge.usage
  | .buffer => return m.batchBuffer batch physical edge.usage

def batchEdges (c : CompiledGraph) (managed : Nat → Option Nat) :
    List CompiledEdge → Memory × Batch Barrier → Option (Memory × Batch Barrier)
  | [], placed => some placed
  | edge :: edges, (m, batch) => do
    let placed ← c.batchBarrier managed m batch edge
    batchEdges c managed edges placed

/-- `place_barriers`, with the arrays of barriers it records. -/
def batchBarriers (c : CompiledGraph) (managed : Nat → Option Nat) (pass : CompiledPass)
    (m : Memory) : Option (Memory × Batch Barrier) := do
  let placed ← c.batchEdges managed pass.reads (m, .empty)
  let (m, batch) ← c.batchEdges managed pass.writes placed
  return (m, batch.close)

end CompiledGraph

def addEmissions (batch : Batch Barrier) (emissions : List Emission) : Batch Barrier :=
  emissions.foldl (fun batch emission => addBarrier batch emission.barrier) batch

def batched (batch : Batch Barrier) (placed : Memory × List Emission) : Memory × Batch Barrier :=
  (placed.1, addEmissions batch placed.2)

variable {m : Memory} {batch : Batch Barrier}

lemma addEmissions_append (emissions more : List Emission) :
    addEmissions batch (emissions ++ more) = addEmissions (addEmissions batch emissions) more :=
  List.foldl_append

namespace Memory

variable {texture : Physical} {mipCount : Nat} {usage : ResourceState}

lemma batchEntry_eq (batch : Batch Barrier) (placed : Memory × List Emission) (i : Nat) :
    batchEntry texture mipCount usage (batched batch placed) i =
      (placeEntry texture mipCount usage placed i).map (batched batch) := by
  obtain ⟨m, emissions⟩ := placed
  unfold batchEntry placeEntry batched
  dsimp only
  cases (m.textures texture).curStates[i]? with
  | none => rfl
  | some cur =>
    simp only [Option.bind_eq_bind, Option.bind_some]
    split
    · by_cases layout : mipCount ≠ 0
      · simp [layout, addEmissions_append]
        rfl
      · simp [layout]
    · rfl

lemma batchEntries_eq (batch : Batch Barrier) : ∀ (turns : List Nat) (placed : Memory × List Emission),
    turns.foldlM (batchEntry texture mipCount usage) (batched batch placed) =
      (turns.foldlM (placeEntry texture mipCount usage) placed).map (batched batch) := by
  intro turns
  induction turns with
  | nil => exact fun _ => rfl
  | cons i turns ih =>
    intro placed
    rw [List.foldlM_cons, List.foldlM_cons, batchEntry_eq]
    cases placeEntry texture mipCount usage placed i with
    | none => rfl
    | some placed' => exact ih placed'

lemma batchTexture_eq : m.batchTexture batch texture mipCount usage =
    (m.placeTexture texture mipCount usage).map (batched batch) := by
  unfold batchTexture placeTexture
  dsimp only
  split
  · cases (m.textures texture).curStates[0]? with
    | none => rfl
    | some cur =>
      simp only [Option.bind_eq_bind, Option.bind_some]
      split <;> rfl
  · have loop := @batchEntries_eq texture mipCount usage batch
      (List.range (m.textures texture).curStates.length) (m, [])
    rw [show (m, batch) = batched batch (m, []) from rfl, loop]
    cases (List.range (m.textures texture).curStates.length).foldlM
      (placeEntry texture mipCount usage) (m, []) <;> rfl

lemma batchSubresource_eq {resource : CompiledResource} :
    m.batchSubresource batch texture resource usage =
      (m.placeSubresource texture resource usage).map (batched batch) := by
  unfold batchSubresource placeSubresource
  dsimp only
  cases (m.textures texture).curStates[
    resource.mipLevel + resource.arraySlice * resource.mipCount]? with
  | none => rfl
  | some cur =>
    simp only [Option.bind_eq_bind, Option.bind_some]
    split <;> rfl

lemma batchBuffer_eq {buffer : Physical} :
    m.batchBuffer batch buffer usage = batched batch (m.placeBuffer buffer usage) := by
  unfold batchBuffer placeBuffer
  split <;> rfl

end Memory

namespace CompiledGraph

variable {c : CompiledGraph} {managed : Nat → Option Nat}

lemma batchBarrier_eq {edge : CompiledEdge} : c.batchBarrier managed m batch edge =
    (c.placeBarrier managed m edge).map (batched batch) := by
  unfold batchBarrier placeBarrier
  cases c.resources[edge.index]? with
  | none => rfl
  | some resource =>
    simp only [Option.bind_eq_bind, Option.bind_some]
    split
    · rfl
    · cases c.find managed resource.resourceType edge.index with
      | none => rfl
      | some physical =>
        cases resource.resourceType with
        | texture =>
          simp only [Option.bind_some]
          split
          · exact Memory.batchTexture_eq
          · exact Memory.batchSubresource_eq
        | buffer => exact congrArg some Memory.batchBuffer_eq

lemma placeEdges_cons (edge : CompiledEdge) (edges : List CompiledEdge) (m : Memory) :
    c.placeEdges managed (edge :: edges) m =
      (c.placeBarrier managed m edge).bind fun placed =>
        (c.placeEdges managed edges placed.1).map fun more => (more.1, placed.2 ++ more.2) := by
  rw [placeEdges]
  cases c.placeBarrier managed m edge with
  | none => rfl
  | some placed => cases h : c.placeEdges managed edges placed.1 <;> simp [h]

lemma batchEdges_eq : ∀ (edges : List CompiledEdge) (m : Memory) (batch : Batch Barrier),
    c.batchEdges managed edges (m, batch) =
      (c.placeEdges managed edges m).map (batched batch) := by
  intro edges
  induction edges with
  | nil => exact fun _ _ => rfl
  | cons edge edges ih =>
    intro m batch
    rw [batchEdges, placeEdges_cons, batchBarrier_eq]
    cases c.placeBarrier managed m edge with
    | none => rfl
    | some placed =>
      show c.batchEdges managed edges (placed.1, addEmissions batch placed.2) = _
      rw [ih, Option.bind_some, Option.map_map]
      congr 1
      funext more
      simp only [Function.comp, batched, addEmissions_append]

lemma placeEdges_append : ∀ (edges more : List CompiledEdge) (m : Memory),
    c.placeEdges managed (edges ++ more) m =
      (c.placeEdges managed edges m).bind fun placed =>
        (c.placeEdges managed more placed.1).map fun placed' =>
          (placed'.1, placed.2 ++ placed'.2) := by
  intro edges more
  induction edges with
  | nil =>
    intro m
    rw [List.nil_append, placeEdges, Option.bind_some]
    exact (Option.map_id' (x := c.placeEdges managed more m)).symm
  | cons edge edges ih =>
    intro m
    rw [List.cons_append, placeEdges_cons, placeEdges_cons, Option.bind_assoc]
    congr 1
    funext placed
    rw [ih, Option.map_bind, Option.bind_map]
    congr 1
    funext placed'
    simp only [Function.comp_apply, Option.map_map, List.append_assoc]
    rfl

lemma batchBarriers_eq {pass : CompiledPass} : c.batchBarriers managed pass m =
    (c.placeBarriers managed pass m).map fun placed =>
      (placed.1, (addEmissions .empty placed.2).close) := by
  unfold batchBarriers placeBarriers
  rw [placeEdges_append, batchEdges_eq]
  cases c.placeEdges managed pass.reads m with
  | none => rfl
  | some placed =>
    simp only [Option.bind_eq_bind, Option.map_some, Option.bind_some]
    rw [show batched .empty placed = (placed.1, addEmissions .empty placed.2) from rfl,
      batchEdges_eq]
    cases c.placeEdges managed pass.writes placed.1 with
    | none => rfl
    | some placed' =>
      simp only [Option.map_some, Option.bind_some, Option.pure_def, batched, addEmissions_append]

end CompiledGraph

lemma holds_addEmissions (emissions : List Emission) : ∃ parts rest,
    (addEmissions .empty emissions).Holds barrierCapacity Barrier.isTexture
      (emissions.map (·.barrier)) parts rest := by
  have pos : 0 < barrierCapacity := by decide
  have start : (Batch.empty : Batch Barrier).Holds barrierCapacity Barrier.isTexture [] [] [] :=
    Batch.holds_empty pos
  obtain ⟨parts, rest, holds⟩ := @Batch.Holds.adds _ _ _ pos (emissions.map (·.barrier)) _ _ _ _ start
  refine ⟨parts, rest, ?_⟩
  rw [List.nil_append, List.foldl_map] at holds
  exact holds

/-- **Batching.** For every pass, `place_barriers` writes its arrays below their capacity, and what it
records are the barriers that it finds: there is a way to cut them into parts, one behind the other,
so that each batch consists of the texture barriers and the buffer barriers of one part in their
order. -/
theorem batchBarriers_spec (c : CompiledGraph) (managed : Nat → Option Nat) (pass : CompiledPass)
    (m m' : Memory) (emissions : List Emission)
    (found : c.placeBarriers managed pass m = some (m', emissions)) :
    ∃ (batch : Batch Barrier) (parts : List (List Barrier)),
      c.batchBarriers managed pass m = some (m', batch) ∧
      (∀ i ∈ batch.written, i < barrierCapacity) ∧
      batch.lefts = [] ∧ batch.rights = [] ∧
      parts.flatten = emissions.map (·.barrier) ∧
      batch.flushed = parts.map (Batch.split Barrier.isTexture) ∧
      ∀ part ∈ parts, part ≠ [] := by
  obtain ⟨parts, rest, holds⟩ := holds_addEmissions emissions
  obtain ⟨parts', stream, flushed, nonempty, lefts, rights, written⟩ := holds.close
  refine ⟨(addEmissions .empty emissions).close, parts', ?_, written, lefts, rights, stream, flushed,
    nonempty⟩
  rw [CompiledGraph.batchBarriers_eq, found]
  rfl

def textureBesideBuffer : CompiledGraph where
  resources := [.new, { CompiledResource.new with mipCount := 1 },
    { CompiledResource.new with resourceType := .buffer }]
  passes := []

def mixedLayers (layers : Nat) : Memory :=
  ⟨fun _ => ⟨.copyDest :: List.replicate layers .undefined, false⟩, fun _ => .undefined⟩

/-- A pass reads a buffer and a texture of 18 layers, and a full batch is recorded before the last two
barriers. -/
theorem batchBarriers_spec_eighteenLayers :
    ∃ (m' : Memory) (emissions : List Emission) (batch : Batch Barrier)
      (parts : List (List Barrier)),
      textureBesideBuffer.placeBarriers (fun _ => some 0)
        { CompiledPass.new with reads := [⟨2, .copySource⟩, ⟨1, .shaderResource⟩] }
        (mixedLayers 17) = some (m', emissions) ∧
      batch.flushed.map (fun arrays => (arrays.1.length, arrays.2.length)) = [(16, 1), (2, 0)] ∧
      (∀ i ∈ batch.written, i < barrierCapacity) ∧
      parts.flatten = emissions.map (·.barrier) ∧
      batch.flushed = parts.map (Batch.split Barrier.isTexture) := by
  set pass := { CompiledPass.new with reads := [⟨2, .copySource⟩, ⟨1, .shaderResource⟩] } with hpass
  have lengths : ∀ placed ∈ textureBesideBuffer.batchBarriers (fun _ => some 0) pass (mixedLayers 17),
      placed.2.flushed.map (fun arrays => (arrays.1.length, arrays.2.length)) =
        [(16, 1), (2, 0)] := by
    decide +kernel
  have runs : (textureBesideBuffer.placeBarriers (fun _ => some 0) pass (mixedLayers 17)).isSome := by
    decide +kernel
  obtain ⟨⟨m', emissions⟩, found⟩ := Option.isSome_iff_exists.mp runs
  obtain ⟨batch, parts, e, written, _, _, stream, flushed, _⟩ :=
    batchBarriers_spec textureBesideBuffer (fun _ => some 0) pass (mixedLayers 17) m' emissions found
  exact ⟨m', emissions, batch, parts, found, lengths _ e, written, stream, flushed⟩

end PulseEngine.RenderGraph
