import PulseEngine.Library.Run
import PulseEngine.RenderGraph.Build

/-!
# The handles of a render graph

The calls of `rendergraph.cpp` that declare and import resources, with what outlives a graph: the
`dynamic_handle` that a physical texture or buffer remembers, and the lists from which
`render_execute_graph_system_run` takes what it makes forget. A run goes through any calls, resets,
executions and new graphs.
-/

namespace PulseEngine.RenderGraph

open Library

def maxIndex : ℕ := 2 ^ 32 - 3

/-- A `PulseTextureData` or a `PulseGraphicsBufferData`. -/
inductive PhysicalData where
  | texture (texture : ℕ)
  | buffer (buffer : ℕ)
  deriving DecidableEq, Repr

structure PhysicalInfo where
  mipLevels : ℕ → ℕ
  arraySize : ℕ → ℕ
  bufferType : ℕ → BufferType

/-- The calls that return a handle; an asset that cannot be borrowed is `none`. -/
inductive HandleCall where
  | declareTexture
  | declareBuffer
  | declareUniformBufferQuick
  | declareTextureSubresource (parent mipmap slice : ℕ)
  | importTexture (texture : Option ℕ)
  | importBackbuffer (texture : ℕ)
  | importBuffer (buffer : Option ℕ)
  | importDynamicBuffer (buffer : ℕ)
  | importDynamicMeshBuffer (buffer : Option ℕ) (bufferType : BufferType)
  deriving DecidableEq

structure World where
  graph : Graph
  dynamicHandle : PhysicalData → ℕ
  importedTextures : List ℕ
  importedBuffers : List ℕ

namespace World

def start : World := ⟨.create, fun _ => 0, [], []⟩

/-- `is_valid_dynamic_texture_handle` and `is_valid_dynamic_buffer_handle`. -/
def isValidDynamicHandle (w : World) (x : PhysicalData) : Bool :=
  w.dynamicHandle x ≠ 0 ∧ w.dynamicHandle x < w.graph.resources.length

def accept (w : World) (made : Graph × ℕ) : Option (World × ℕ) := do
  guard (w.graph.resources.length ≤ maxIndex)
  return ({ w with graph := made.1 }, made.2)

/-- `pulse_render_graph_declare_uniform_buffer_quick`. Of the assertions on the number of resources the one
of the staging buffer comes last. -/
def declareUniformBufferQuick (w : World) : Option (World × ℕ) := do
  guard (w.graph.resources.length + 1 ≤ maxIndex ∧ w.graph.passes.length ≤ maxIndex)
  let g ← w.graph.declareUniformBufferQuick
  return ({ w with graph := g }, w.graph.resources.length)

/-- `pulse_render_graph_declare_texture_subresource`, which narrows the index unchecked. -/
def declareTextureSubresource (w : World) (parent mipmap slice : ℕ) : Option (World × ℕ) := do
  let (g, index) ← w.graph.declareTextureSubresource parent mipmap slice
  return ({ w with graph := g }, index % 2 ^ 32)

def importTextureImpl (info : PhysicalInfo) (w : World) (texture : ℕ) : Option (World × ℕ) :=
  if w.isValidDynamicHandle (.texture texture) then some (w, w.dynamicHandle (.texture texture))
  else do
    guard (w.graph.resources.length ≤ maxIndex)
    let (g, handle) ← w.graph.importTextureImpl texture (info.mipLevels texture)
      (info.arraySize texture) (w.dynamicHandle (.texture texture))
    return ({ w with
      graph := g
      dynamicHandle := Function.update w.dynamicHandle (.texture texture) handle
      importedTextures := w.importedTextures ++ [texture] }, handle)

def importBackbuffer (info : PhysicalInfo) (w : World) (texture : ℕ) : Option (World × ℕ) := do
  guard (w.graph.resources.length ≤ maxIndex)
  importTextureImpl info { w with graph := (w.graph.pushResource .new).1 } texture

def importDynamicBuffer (w : World) (buffer : ℕ) : Option (World × ℕ) :=
  if w.isValidDynamicHandle (.buffer buffer) then some (w, w.dynamicHandle (.buffer buffer))
  else do
    guard (w.graph.resources.length ≤ maxIndex)
    let (g, handle) := w.graph.importDynamicBuffer (w.dynamicHandle (.buffer buffer))
    return ({ w with
      graph := g
      dynamicHandle := Function.update w.dynamicHandle (.buffer buffer) handle
      importedBuffers := w.importedBuffers ++ [buffer] }, handle)

/-- `declare_dynamic_vertex_buffer` and `declare_dynamic_index_buffer`. -/
def declareDynamicBuffer (w : World) (buffer : ℕ) (bufferType : BufferType) : Option (World × ℕ) := do
  let (w, handle) ← w.importDynamicBuffer buffer
  let g ← w.graph.bufferSetType handle bufferType
  return ({ w with
    graph := g, dynamicHandle := Function.update w.dynamicHandle (.buffer buffer) handle }, handle)

def call (info : PhysicalInfo) (w : World) : HandleCall → Option (World × ℕ)
  | .declareTexture => w.accept w.graph.declareTexture
  | .declareBuffer => w.accept w.graph.declareBuffer
  | .declareUniformBufferQuick => w.declareUniformBufferQuick
  | .declareTextureSubresource parent mipmap slice => w.declareTextureSubresource parent mipmap slice
  | .importTexture none => some (w, 0)
  | .importTexture (some texture) => w.importTextureImpl info texture
  | .importBackbuffer texture => w.importBackbuffer info texture
  | .importBuffer none => some (w, 0)
  | .importBuffer (some buffer) => w.accept (w.graph.importBufferImpl buffer (info.bufferType buffer))
  | .importDynamicBuffer buffer => w.importDynamicBuffer buffer
  | .importDynamicMeshBuffer none _ => some (w, 0)
  | .importDynamicMeshBuffer (some buffer) bufferType => w.declareDynamicBuffer buffer bufferType

def reset (w : World) : World := { w with graph := ⟨[], [], []⟩ }

/-- The end of `render_execute_graph_system_run`: what the graph imported forgets its handle. -/
def execute (w : World) : World :=
  { w with dynamicHandle := fun
      | .texture texture =>
        if texture ∈ w.importedTextures then 0 else w.dynamicHandle (.texture texture)
      | .buffer buffer => if buffer ∈ w.importedBuffers then 0 else w.dynamicHandle (.buffer buffer) }

def newGraph (w : World) : World :=
  { w with graph := .create, importedTextures := [], importedBuffers := [] }

end World

inductive HandleEvent where
  | call (call : HandleCall)
  | reset
  | execute
  | newGraph
  deriving DecidableEq

structure Session where
  world : World
  log : List (HandleCall × ℕ)

namespace Session

def start : Session := ⟨.start, []⟩

def step (info : PhysicalInfo) (s : Session) : HandleEvent → Option Session
  | .call c => (s.world.call info c).map fun (w, handle) => ⟨w, s.log ++ [(c, handle)]⟩
  | .reset => some ⟨s.world.reset, []⟩
  | .execute => some { s with world := s.world.execute }
  | .newGraph => some ⟨s.world.newGraph, []⟩

end Session

namespace HandleCall

def physical : HandleCall → Option PhysicalData
  | importTexture texture => texture.map .texture
  | importBackbuffer texture => some (.texture texture)
  | importBuffer buffer => buffer.map .buffer
  | importDynamicBuffer buffer => some (.buffer buffer)
  | importDynamicMeshBuffer buffer _ => buffer.map .buffer
  | _ => none

def Found : HandleCall → Prop
  | importTexture texture => texture.isSome
  | importBuffer buffer => buffer.isSome
  | importDynamicMeshBuffer buffer _ => buffer.isSome
  | _ => True

def expects : HandleCall → ResourceType × ManageType × Option ℕ
  | declareTexture => (.texture, .managed, none)
  | declareTextureSubresource _ _ _ => (.texture, .subResource, none)
  | importTexture texture => (.texture, .imported, texture)
  | importBackbuffer texture => (.texture, .imported, some texture)
  | importBuffer buffer => (.buffer, .imported, buffer)
  | _ => (.buffer, .managed, none)

end HandleCall

def ResourceNode.kind (node : ResourceNode) : ResourceType × ManageType × Option ℕ :=
  (node.resourceType, node.manageType, node.imported)

def ResourceNode.IsFor (node : ResourceNode) (c : HandleCall) : Prop := node.kind = c.expects

def ImportedIn (log : List (HandleCall × ℕ)) (c : HandleCall) : Prop :=
  c.physical ≠ none ∧ ∃ c' h', (c', h') ∈ log ∧ c'.physical = c.physical

/-- A handle is returned as it should be: it is valid and refers to a node for the resource, which was made
for it unless the resource has been imported since the last reset; the same resource has the same handle,
and others have other ones. -/
structure ReturnsRight (log : List (HandleCall × ℕ)) (before : Graph) (c : HandleCall) (after : Graph)
    (handle : ℕ) : Prop where
  valid : handle ≠ 0
  denotes : ∃ node, after.resources[handle]? = some node ∧ node.IsFor c
  again : ∀ c' h', (c', h') ∈ log → c.physical ≠ none → c'.physical = c.physical → h' = handle
  distinct : ∀ c' h', (c', h') ∈ log → c.physical = none ∨ c'.physical ≠ c.physical → h' ≠ handle
  fresh : ¬ ImportedIn log c → before.resources.length ≤ handle

def World.remembered (w : World) : HandleCall → Option ℕ
  | .importTexture (some texture) =>
    if w.isValidDynamicHandle (.texture texture) then some (w.dynamicHandle (.texture texture)) else none
  | .importBackbuffer texture =>
    let w := { w with graph := (w.graph.pushResource .new).1 }
    if w.isValidDynamicHandle (.texture texture) then some (w.dynamicHandle (.texture texture)) else none
  | .importDynamicBuffer buffer | .importDynamicMeshBuffer (some buffer) _ =>
    if w.isValidDynamicHandle (.buffer buffer) then some (w.dynamicHandle (.buffer buffer)) else none
  | _ => none

def World.slot (w : World) : HandleCall → ℕ
  | .importBackbuffer _ => w.graph.resources.length + 1
  | _ => w.graph.resources.length

structure Admissible (s : Session) (c : HandleCall) : Prop where
  found : c.Found
  /-- What it imports was not imported by `import_buffer` since the last reset. -/
  once : ∀ buffer h, c.physical = some (.buffer buffer) → (.importBuffer (some buffer), h) ∉ s.log
  /-- What it imports remembers a handle in the graph if and only if it was imported since the last reset. -/
  remembers : (s.world.remembered c).isSome ↔ ImportedIn s.log c
  /-- A node that is made does not get the index 0, and its index is one of 32 bits. -/
  reserved : s.world.remembered c = none → 0 < s.world.slot c ∧ s.world.slot c < 2 ^ 32

def Session.Right (info : PhysicalInfo) (s : Session) : HandleEvent → Prop
  | .call c => ∀ w handle, s.world.call info c = some (w, handle) →
      ReturnsRight s.log s.world.graph c w.graph handle
  | _ => True

def Session.Meets (s : Session) : HandleEvent → Prop
  | .call c => Admissible s c
  | _ => True

variable {info : PhysicalInfo} {w w' : World} {g g' g'' : Graph} {c : HandleCall} {handle : ℕ} {s s' : Session}

def Grows (g g' : Graph) : Prop :=
  ∀ (i : ℕ) (node : ResourceNode), g.resources[i]? = some node →
    ∃ node', g'.resources[i]? = some node' ∧ node'.kind = node.kind

lemma Grows.of_eq (h : g'.resources = g.resources) : Grows g g' :=
  fun i node hi => ⟨node, by rw [h, hi], rfl⟩

lemma Grows.trans (h : Grows g g') (h' : Grows g' g'') : Grows g g'' := by
  intro i node hi
  obtain ⟨node', hi', kind⟩ := h i node hi
  obtain ⟨node'', hi'', kind'⟩ := h' i node' hi'
  exact ⟨node'', hi'', kind'.trans kind⟩

lemma Grows.pushResource (resource : ResourceNode) : Grows g (g.pushResource resource).1 :=
  fun _ node hi => ⟨node, List.getElem?_append_left (List.getElem?_eq_some_iff.mp hi).1 ▸ hi, rfl⟩

lemma Grows.modifyBuffer {buffer : ℕ} {f : ResourceNode → ResourceNode}
    (keeps : ∀ node, (f node).kind = node.kind) (e : g.modifyBuffer buffer f = some g') : Grows g g' := by
  unfold Graph.modifyBuffer at e
  simp only [Option.bind_eq_bind, Option.bind_eq_some_iff] at e
  obtain ⟨-, -, _, -, -, -, e⟩ := e
  cases e
  intro i node hi
  dsimp only
  rw [List.getElem?_modify, hi]
  refine ⟨_, rfl, ?_⟩
  dsimp only
  split
  · exact keeps node
  · rfl

lemma Grows.addRead {pass resource : ℕ} {usage : ResourceState}
    (e : g.addRead pass resource usage = some g') : Grows g g' := by
  unfold Graph.addRead at e
  simp only [Option.bind_eq_bind, Option.bind_eq_some_iff] at e
  obtain ⟨-, -, e⟩ := e
  cases e
  exact .of_eq rfl

lemma Grows.addWrite {pass resource : ℕ} {usage : ResourceState}
    (e : g.addWrite pass resource usage = some g') : Grows g g' := by
  unfold Graph.addWrite at e
  simp only [Option.bind_eq_bind, Option.bind_eq_some_iff] at e
  obtain ⟨-, -, e⟩ := e
  cases e
  exact .of_eq rfl

lemma Grows.addUploadBufferPass {buffer : ℕ} (e : g.addUploadBufferPass buffer = some g') :
    Grows g g' := by
  unfold Graph.addUploadBufferPass Graph.addUpload at e
  simp only [Option.bind_eq_bind, Option.bind_eq_some_iff] at e
  obtain ⟨-, -, _, -, -, -, g₁, e₁, g₂, e₂, g₃, e₃, e⟩ := e
  have written : Grows g g₁ := fun i node hi => Grows.addWrite e₁ i node hi
  have typed : Grows g₁.declareBuffer.1 g₂ :=
    .modifyBuffer (f := fun node => { node with bufferType := .none }) (fun _ => rfl) e₂
  have held : Grows g₂ g₃ :=
    .modifyBuffer (f := fun node => { node with holdOnLast := true }) (fun _ => rfl) e₃
  have read : Grows g₃ g' := fun i node hi => Grows.addRead e i node hi
  exact (written.trans (.pushResource _)).trans (typed.trans (held.trans read))

def HandleCall.remembers : HandleCall → Option PhysicalData
  | importBuffer _ => none
  | c => c.physical

def PhysicalData.expects : PhysicalData → ResourceType × ManageType × Option ℕ
  | .texture index => (.texture, .imported, some index)
  | .buffer _ => (.buffer, .managed, none)

/-- What a call does: it changes the kind of no node, it returns what it finds remembered or else a node
that it makes, and the handle that it returns is remembered. -/
structure Returned (w : World) (c : HandleCall) (w' : World) (handle : ℕ) : Prop where
  keeps : Grows w.graph w'.graph
  refused : ¬ c.Found → handle = 0
  recalled : ∀ r, w.remembered c = some r → handle = r ∧ (r < w.graph.resources.length ∨
    ∃ node, w'.graph.resources[r]? = some node ∧ ¬ node.IsFor c)
  made : c.Found → w.remembered c = none → handle = w.slot c % 2 ^ 32 ∧
    (c.physical ≠ none → w.slot c < 2 ^ 32) ∧
      ∃ node, w'.graph.resources[w.slot c]? = some node ∧ node.IsFor c
  handles : ∀ x, w'.dynamicHandle x = if c.remembers = some x then handle else w.dynamicHandle x

lemma mod_of_le_maxIndex {n : ℕ} (h : n ≤ maxIndex) : n % 2 ^ 32 = n ∧ n + 1 < 2 ^ 32 := by
  unfold maxIndex at h
  omega

lemma getElem?_pushResource (resource : ResourceNode) :
    (g.pushResource resource).1.resources[g.resources.length]? = some resource := by
  unfold Graph.pushResource
  exact List.getElem?_concat_length

lemma Returned.accept {resource : ResourceNode} (found : c.Found) (none : c.remembers = none)
    (fresh : w.remembered c = Option.none) (slot : w.slot c = w.graph.resources.length)
    (kind : resource.kind = c.expects)
    (e : w.accept (w.graph.pushResource resource) = some (w', handle)) : Returned w c w' handle := by
  unfold World.accept at e
  simp only [Option.bind_eq_bind, Option.bind_eq_some_iff, Option.guard_eq_some'] at e
  obtain ⟨-, le, e⟩ := e
  cases e
  obtain ⟨same, lt⟩ := mod_of_le_maxIndex le
  refine ⟨.pushResource _, fun h => absurd found h, ?_, fun _ _ => ⟨?_, fun _ => ?_, ?_⟩, fun x => ?_⟩
  · rw [fresh]
    rintro _ ⟨⟩
  · rw [slot, same]
    rfl
  · rw [slot]
    omega
  · rw [slot]
    exact ⟨resource, getElem?_pushResource resource, kind⟩
  · rw [none]
    rfl

lemma Returned.declareUniformBufferQuick (e : w.declareUniformBufferQuick = some (w', handle)) :
    Returned w .declareUniformBufferQuick w' handle := by
  unfold World.declareUniformBufferQuick at e
  simp only [Option.bind_eq_bind, Option.bind_eq_some_iff, Option.guard_eq_some'] at e
  obtain ⟨-, ⟨le, -⟩, g, eg, e⟩ := e
  cases e
  have uploads : Grows _ g := Grows.addUploadBufferPass eg
  obtain ⟨same, -⟩ := mod_of_le_maxIndex (Nat.le_of_succ_le le)
  obtain ⟨node, hnode, kind⟩ := uploads _ _ (getElem?_pushResource _)
  exact ⟨(Grows.pushResource _).trans uploads, fun h => absurd trivial h, by rintro _ ⟨⟩,
    fun _ _ => ⟨same.symm, fun h => absurd rfl h, node, hnode, kind⟩, fun _ => rfl⟩

lemma Returned.declareTextureSubresource {parent mipmap slice : ℕ}
    (e : w.declareTextureSubresource parent mipmap slice = some (w', handle)) :
    Returned w (.declareTextureSubresource parent mipmap slice) w' handle := by
  unfold World.declareTextureSubresource Graph.declareTextureSubresource at e
  simp only [Option.bind_eq_bind, Option.bind_eq_some_iff, Option.pure_def, Option.some.injEq] at e
  obtain ⟨⟨g, index⟩, ⟨-, -, ⟨root, node⟩, -, eg⟩, e⟩ := e
  cases eg
  cases e
  exact ⟨.pushResource _, fun h => absurd trivial h, by rintro _ ⟨⟩,
    fun _ _ => ⟨rfl, fun h => absurd rfl h, _, getElem?_pushResource _, rfl⟩, fun _ => rfl⟩

lemma remembered_of_valid {x : PhysicalData} (valid : w.isValidDynamicHandle x = true) :
    w.dynamicHandle x ≠ 0 ∧ w.dynamicHandle x < w.graph.resources.length := by
  simpa [World.isValidDynamicHandle] using valid

structure Imports (w : World) (x : PhysicalData) (kind : ResourceType × ManageType × Option ℕ) (w' : World)
    (handle : ℕ) : Prop where
  keeps : Grows w.graph w'.graph
  recalls : w.isValidDynamicHandle x = true → handle = w.dynamicHandle x
  makes : w.isValidDynamicHandle x = false → handle = w.graph.resources.length ∧ handle ≤ maxIndex ∧
    ∃ node, w'.graph.resources[handle]? = some node ∧ node.kind = kind
  handles : ∀ y, w'.dynamicHandle y = if x = y then handle else w.dynamicHandle y

lemma Imports.recall {x : PhysicalData} {kind : ResourceType × ManageType × Option ℕ}
    (valid : w.isValidDynamicHandle x = true) : Imports w x kind w (w.dynamicHandle x) := by
  refine ⟨.of_eq rfl, fun _ => rfl, fun h => absurd (valid.symm.trans h) nofun, fun y => ?_⟩
  split
  · rename_i same
    rw [same]
  · rfl

lemma Imports.make {x : PhysicalData} {resource : ResourceNode} {kind : ResourceType × ManageType × Option ℕ}
    (invalid : ¬ w.isValidDynamicHandle x = true) (le : w.graph.resources.length ≤ maxIndex)
    (graph : w'.graph = (w.graph.pushResource resource).1) (same : resource.kind = kind)
    (handles : w'.dynamicHandle = Function.update w.dynamicHandle x w.graph.resources.length) :
    Imports w x kind w' w.graph.resources.length := by
  refine ⟨graph ▸ .pushResource _, fun h => absurd h invalid, fun _ => ⟨rfl, le, resource, ?_, same⟩,
    fun y => ?_⟩
  · rw [graph]
    exact getElem?_pushResource resource
  · rw [handles, Function.update_apply]
    exact if_congr eq_comm rfl rfl

lemma Imports.texture {texture : ℕ} (e : w.importTextureImpl info texture = some (w', handle)) :
    Imports w (.texture texture) (.texture, .imported, some texture) w' handle := by
  unfold World.importTextureImpl at e
  split at e
  · rename_i valid
    cases e
    exact .recall valid
  · rename_i invalid
    simp only [Option.bind_eq_bind, Option.bind_eq_some_iff, Option.guard_eq_some'] at e
    obtain ⟨-, le, ⟨g, index⟩, eg, e⟩ := e
    cases e
    unfold Graph.importTextureImpl at eg
    rw [if_neg (by simpa [World.isValidDynamicHandle] using invalid)] at eg
    split at eg
    · cases eg
      exact .make invalid le rfl rfl rfl
    · cases eg

lemma Imports.buffer {buffer : ℕ} (e : w.importDynamicBuffer buffer = some (w', handle)) :
    Imports w (.buffer buffer) (.buffer, .managed, none) w' handle := by
  unfold World.importDynamicBuffer at e
  split at e
  · rename_i valid
    cases e
    exact .recall valid
  · rename_i invalid
    simp only [Option.bind_eq_bind, Option.bind_eq_some_iff, Option.guard_eq_some'] at e
    obtain ⟨-, le, e⟩ := e
    have pushes : w.graph.importDynamicBuffer (w.dynamicHandle (.buffer buffer)) =
        w.graph.pushResource { ResourceNode.new with resourceType := .buffer } :=
      if_neg (by simpa [World.isValidDynamicHandle] using invalid)
    rw [pushes] at e
    cases e
    exact .make invalid le rfl rfl rfl

lemma Imports.meshBuffer {buffer : ℕ} {bufferType : BufferType}
    (e : w.declareDynamicBuffer buffer bufferType = some (w', handle)) :
    Imports w (.buffer buffer) (.buffer, .managed, none) w' handle := by
  unfold World.declareDynamicBuffer at e
  simp only [Option.bind_eq_bind, Option.bind_eq_some_iff] at e
  obtain ⟨⟨w₁, index⟩, e₁, g, eg, e⟩ := e
  cases e
  have imports := Imports.buffer e₁
  have typed : Grows w₁.graph g :=
    .modifyBuffer (f := fun node => { node with bufferType := bufferType }) (fun _ => rfl) eg
  refine ⟨imports.keeps.trans typed, imports.recalls, fun invalid => ?_, fun y => ?_⟩
  · obtain ⟨index, le, node, hnode, kind⟩ := imports.makes invalid
    obtain ⟨node', hnode', kind'⟩ := typed _ _ hnode
    exact ⟨index, le, node', hnode', kind'.trans kind⟩
  · dsimp only
    rw [Function.update_apply, imports.handles]
    split
    · rename_i same
      rw [if_pos same.symm]
    · rfl

lemma Imports.returned {x : PhysicalData} {w₀ : World} (h : Imports w₀ x c.expects w' handle)
    (remembers : c.remembers = some x) (found : c.Found) (before : Grows w.graph w₀.graph)
    (handles : w₀.dynamicHandle = w.dynamicHandle)
    (remembered : w.remembered c =
      if w₀.isValidDynamicHandle x then some (w₀.dynamicHandle x) else none)
    (slot : w.slot c = w₀.graph.resources.length)
    (added : ∀ r, w.graph.resources.length ≤ r → r < w₀.graph.resources.length →
      ∃ node, w₀.graph.resources[r]? = some node ∧ ¬ node.IsFor c) : Returned w c w' handle := by
  have handles' : ∀ y, w'.dynamicHandle y = if c.remembers = some y then handle else w.dynamicHandle y := by
    intro y
    rw [h.handles, handles, remembers]
    exact if_congr (Option.some_inj).symm rfl rfl
  refine ⟨before.trans h.keeps, fun lost => absurd found lost, fun r hr => ?_, fun _ fresh => ?_, handles'⟩
  · rw [remembered] at hr
    split at hr
    · rename_i valid
      cases hr
      refine ⟨h.recalls valid, ?_⟩
      rcases Nat.lt_or_ge (w₀.dynamicHandle x) w.graph.resources.length with lt | ge
      · exact Or.inl lt
      · obtain ⟨node, hnode, other⟩ := added _ ge (remembered_of_valid valid).2
        obtain ⟨node', hnode', kind⟩ := h.keeps _ _ hnode
        exact Or.inr ⟨node', hnode', fun same => other (kind.symm.trans same)⟩
    · cases hr
  · rw [remembered] at fresh
    split at fresh
    · cases fresh
    · rename_i invalid
      obtain ⟨index, le, node, hnode, kind⟩ := h.makes (Bool.not_eq_true _ ▸ invalid)
      obtain ⟨same, lt⟩ := mod_of_le_maxIndex le
      rw [slot, ← index]
      exact ⟨same.symm, fun _ => Nat.lt_of_succ_lt lt, node, hnode, kind⟩

/-- **One call.** -/
theorem call_returned (e : w.call info c = some (w', handle)) : Returned w c w' handle := by
  have refused : ∀ {c : HandleCall}, ¬ c.Found → w.remembered c = none → c.remembers = none →
      some (w, 0) = some (w', handle) → Returned w c w' handle := by
    intro c lost fresh remembers e
    cases e
    exact ⟨.of_eq rfl, fun _ => rfl, fun r hr => absurd (fresh.symm.trans hr) (by rintro ⟨⟩),
      fun found => absurd found lost, fun x => by rw [remembers, if_neg (by rintro ⟨⟩)]⟩
  have direct : ∀ r, w.graph.resources.length ≤ r → r < w.graph.resources.length →
      ∃ node, w.graph.resources[r]? = some node ∧ ¬ node.IsFor c :=
    fun r ge lt => absurd lt (Nat.not_lt.mpr ge)
  cases c with
  | declareTexture => exact .accept trivial rfl rfl rfl rfl e
  | declareBuffer => exact .accept trivial rfl rfl rfl rfl e
  | declareUniformBufferQuick => exact .declareUniformBufferQuick e
  | declareTextureSubresource parent mipmap slice => exact .declareTextureSubresource e
  | importTexture texture =>
    cases texture with
    | none => exact refused (by rintro ⟨⟩) rfl rfl e
    | some texture =>
      exact (Imports.texture e).returned (c := .importTexture (some texture)) rfl rfl (.of_eq rfl) rfl rfl rfl
        direct
  | importBackbuffer texture =>
    change w.importBackbuffer info texture = some (w', handle) at e
    unfold World.importBackbuffer at e
    simp only [Option.bind_eq_bind, Option.bind_eq_some_iff] at e
    obtain ⟨-, -, e⟩ := e
    have imports : Imports { w with graph := (w.graph.pushResource .new).1 } (.texture texture)
        (.texture, .imported, some texture) w' handle := Imports.texture e
    refine imports.returned (c := .importBackbuffer texture) rfl trivial (.pushResource _) rfl rfl ?_
      fun r ge lt => ?_
    · simp [World.slot, Graph.pushResource]
    · -- the node that is appended first stands for nothing
      obtain rfl : r = w.graph.resources.length := by
        simp only [Graph.pushResource, List.length_append, List.length_singleton] at lt
        omega
      exact ⟨_, getElem?_pushResource _, by rintro ⟨⟩⟩
  | importBuffer buffer =>
    cases buffer with
    | none => exact refused (by rintro ⟨⟩) rfl rfl e
    | some buffer => exact .accept rfl rfl rfl rfl rfl e
  | importDynamicBuffer buffer =>
    exact (Imports.buffer e).returned (c := .importDynamicBuffer buffer) rfl trivial (.of_eq rfl) rfl rfl rfl
      direct
  | importDynamicMeshBuffer buffer bufferType =>
    cases buffer with
    | none => exact refused (by rintro ⟨⟩) rfl rfl e
    | some buffer =>
      exact (Imports.meshBuffer e).returned (c := .importDynamicMeshBuffer (some buffer) bufferType) rfl rfl
        (.of_eq rfl) rfl rfl rfl direct

structure Consistent (s : Session) : Prop where
  logged : ∀ c h, (c, h) ∈ s.log → ∃ node, s.world.graph.resources[h]? = some node ∧ node.IsFor c
  handles : ∀ c h x, (c, h) ∈ s.log → c.remembers = some x →
    s.world.dynamicHandle x = h ∨ s.world.dynamicHandle x = 0
  apart : ∀ c h c' h', (c, h) ∈ s.log → (c', h') ∈ s.log → c.physical ≠ c'.physical → h ≠ h'

lemma Consistent.of_nil (w : World) : Consistent ⟨w, []⟩ :=
  ⟨fun _ _ mem => absurd mem List.not_mem_nil, fun _ _ _ mem => absurd mem List.not_mem_nil,
    fun _ _ _ _ mem => absurd mem List.not_mem_nil⟩

namespace HandleCall

variable {c' : HandleCall} {x : PhysicalData}

lemma physical_of_remembers (h : c.remembers = some x) : c.physical = some x := by
  cases c <;> first | exact h | cases h

lemma remembers_or (h : c.physical = some x) :
    c.remembers = some x ∨ ∃ buffer, x = .buffer buffer ∧ c = .importBuffer (some buffer) := by
  cases c with
  | importBuffer buffer =>
    obtain ⟨buffer, rfl, rfl⟩ := Option.map_eq_some_iff.mp h
    exact Or.inr ⟨buffer, rfl, rfl⟩
  | _ => exact Or.inl h

lemma expects_of_remembers (h : c.remembers = some x) : c.expects = x.expects := by
  cases c with
  | importTexture texture =>
    obtain ⟨texture, rfl, rfl⟩ := Option.map_eq_some_iff.mp h
    rfl
  | importDynamicMeshBuffer buffer =>
    obtain ⟨buffer, rfl, rfl⟩ := Option.map_eq_some_iff.mp h
    rfl
  | importBackbuffer | importDynamicBuffer => cases h; rfl
  | _ => cases h

end HandleCall

lemma remembered_spec {r : ℕ} (h : w.remembered c = some r) :
    ∃ x, c.remembers = some x ∧ r = w.dynamicHandle x ∧ r ≠ 0 := by
  have valid : ∀ {w : World} {x : PhysicalData},
      (if w.isValidDynamicHandle x then some (w.dynamicHandle x) else none) = some r →
        r = w.dynamicHandle x ∧ r ≠ 0 := by
    intro w x h
    split at h
    · rename_i hvalid
      cases h
      exact ⟨rfl, (remembered_of_valid hvalid).1⟩
    · cases h
  cases c with
  | importTexture texture =>
    cases texture with
    | none => cases h
    | some texture => exact ⟨_, rfl, valid h⟩
  | importBackbuffer texture =>
    exact ⟨.texture texture, rfl, valid (w := { w with graph := (w.graph.pushResource .new).1 }) h⟩
  | importDynamicBuffer buffer => exact ⟨_, rfl, valid h⟩
  | importDynamicMeshBuffer buffer =>
    cases buffer with
    | none => cases h
    | some buffer => exact ⟨_, rfl, valid h⟩
  | _ => cases h

lemma length_le_slot : w.graph.resources.length ≤ w.slot c := by
  cases c <;> first | exact Nat.le_succ _ | exact le_rfl

lemma slot_of_declares (h : c.physical = none) : w.slot c = w.graph.resources.length := by
  cases c <;> first | rfl | cases h

lemma Consistent.lt (h : Consistent s) {c : HandleCall} {handle : ℕ} (mem : (c, handle) ∈ s.log) :
    handle < s.world.graph.resources.length := by
  obtain ⟨_, hnode, -⟩ := h.logged c handle mem
  exact (List.getElem?_eq_some_iff.mp hnode).1

lemma Consistent.admissible (h : Consistent s) (e : s.world.call info c = some (w', handle))
    (right : ReturnsRight s.log s.world.graph c w'.graph handle) : Admissible s c := by
  have spec := call_returned e
  have found : c.Found := by
    by_contra lost
    exact right.valid (spec.refused lost)
  have remembers : (s.world.remembered c).isSome ↔ ImportedIn s.log c := by
    constructor
    · intro some
      obtain ⟨r, hr⟩ := Option.isSome_iff_exists.mp some
      obtain ⟨rfl, old⟩ := spec.recalled r hr
      by_contra notImported
      have new := right.fresh notImported
      rcases old with lt | ⟨node, hnode, other⟩
      · exact absurd lt (Nat.not_lt.mpr new)
      · obtain ⟨node', hnode', isFor⟩ := right.denotes
        cases hnode.symm.trans hnode'
        exact other isFor
    · rintro ⟨imports, c', h', mem, same⟩
      by_contra none
      obtain ⟨index, small, -⟩ := spec.made found (Option.not_isSome_iff_eq_none.mp none)
      rw [Nat.mod_eq_of_lt (small imports)] at index
      have old := h.lt mem
      rw [right.again c' h' mem imports same, index] at old
      exact absurd old (Nat.not_lt.mpr length_le_slot)
  refine ⟨found, fun buffer h' imports mem => ?_, remembers, fun none => ?_⟩
  · have imported : ImportedIn s.log c := ⟨by rw [imports]; nofun, _, h', mem, imports.symm⟩
    obtain ⟨r, hr⟩ := Option.isSome_iff_exists.mp (remembers.mpr imported)
    obtain ⟨x, hx, -⟩ := remembered_spec hr
    cases imports.symm.trans (HandleCall.physical_of_remembers hx)
    obtain rfl := right.again _ _ mem imported.1 imports.symm
    obtain ⟨node, hnode, isFor⟩ := h.logged _ _ mem
    obtain ⟨node', hnode', kept⟩ := spec.keeps _ _ hnode
    obtain ⟨node'', hnode'', isFor'⟩ := right.denotes
    cases hnode'.symm.trans hnode''
    have kinds := (isFor'.symm.trans kept).trans isFor
    rw [HandleCall.expects_of_remembers hx] at kinds
    cases kinds
  · obtain ⟨index, small, -⟩ := spec.made found none
    refine ⟨Nat.pos_of_ne_zero fun zero => right.valid ?_, ?_⟩
    · rw [index, zero]
      rfl
    · rcases em (c.physical = Option.none) with declares | imports
      · have new := right.fresh fun imported => imported.1 declares
        rw [index, ← slot_of_declares declares] at new
        exact new.trans_lt (Nat.mod_lt _ (by decide))
      · exact small imports

lemma Consistent.right (h : Consistent s) (e : s.world.call info c = some (w', handle))
    (meets : Admissible s c) : ReturnsRight s.log s.world.graph c w'.graph handle := by
  have spec := call_returned e
  cases hr : s.world.remembered c with
  | none =>
    obtain ⟨index, -, node, hnode, isFor⟩ := spec.made meets.found hr
    obtain ⟨pos, lt⟩ := meets.reserved hr
    rw [Nat.mod_eq_of_lt lt] at index
    subst index
    have new : ¬ ImportedIn s.log c := by
      rw [← meets.remembers, hr]
      nofun
    refine ⟨pos.ne', ⟨node, hnode, isFor⟩, fun c' h' mem imports same => ?_, fun c' h' mem _ => ?_,
      fun _ => length_le_slot⟩
    · exact absurd ⟨imports, c', h', mem, same⟩ new
    · exact ((h.lt mem).trans_le length_le_slot).ne
  | some r =>
    obtain ⟨rfl, -⟩ := spec.recalled r hr
    obtain ⟨x, hx, same, ne⟩ := remembered_spec hr
    have imports := HandleCall.physical_of_remembers hx
    -- whatever imported the resource before remembered its handle in it
    have earlier : ∀ c' h', (c', h') ∈ s.log → c'.physical = some x → c'.remembers = some x ∧ h' = handle := by
      intro c' h' mem imports'
      rcases HandleCall.remembers_or imports' with remembers' | ⟨buffer, rfl, rfl⟩
      · refine ⟨remembers', ?_⟩
        rw [same]
        exact ((h.handles c' h' x mem remembers').resolve_right (same ▸ ne)).symm
      · exact absurd mem (meets.once buffer h' imports)
    obtain ⟨-, c₀, h₀, mem₀, imports₀⟩ := meets.remembers.mp (by rw [hr]; rfl)
    rw [imports] at imports₀
    obtain ⟨remembers₀, rfl⟩ := earlier c₀ h₀ mem₀ imports₀
    refine ⟨ne, ?_, fun c' h' mem _ imports' => ?_, fun c' h' mem other => ?_, fun new => ?_⟩
    · obtain ⟨node, hnode, isFor⟩ := h.logged c₀ h₀ mem₀
      obtain ⟨node', hnode', kept⟩ := spec.keeps _ _ hnode
      refine ⟨node', hnode', (kept.trans isFor).trans ?_⟩
      rw [HandleCall.expects_of_remembers remembers₀, HandleCall.expects_of_remembers hx]
    · exact (earlier c' h' mem (imports'.trans imports)).2
    · refine h.apart c' h' c₀ h₀ mem mem₀ ?_
      rw [imports₀, ← imports]
      exact other.resolve_left (by rw [imports]; nofun)
    · exact absurd ⟨by rw [imports]; nofun, c₀, h₀, mem₀, imports₀.trans imports.symm⟩ new

lemma Consistent.call (h : Consistent s) (e : s.world.call info c = some (w', handle))
    (right : ReturnsRight s.log s.world.graph c w'.graph handle) :
    Consistent ⟨w', s.log ++ [(c, handle)]⟩ := by
  have spec := call_returned e
  have cases_ : ∀ c' h', (c', h') ∈ s.log ++ [(c, handle)] → (c', h') ∈ s.log ∨ c' = c ∧ h' = handle := by
    intro c' h' mem
    rcases List.mem_append.mp mem with mem | mem
    · exact Or.inl mem
    · exact Or.inr (Prod.mk.inj (List.mem_singleton.mp mem))
  have other : ∀ c' h', (c', h') ∈ s.log → c'.physical ≠ c.physical → h' ≠ handle :=
    fun c' h' mem ne => right.distinct c' h' mem (Or.inr ne)
  refine ⟨fun c' h' mem => ?_, fun c' h' x mem remembers => ?_, fun c₁ h₁ c₂ h₂ mem₁ mem₂ ne => ?_⟩
  · rcases cases_ c' h' mem with old | ⟨rfl, rfl⟩
    · obtain ⟨node, hnode, isFor⟩ := h.logged c' h' old
      obtain ⟨node', hnode', kept⟩ := spec.keeps _ _ hnode
      exact ⟨node', hnode', kept.trans isFor⟩
    · exact right.denotes
  · dsimp only
    rw [spec.handles]
    split
    · rename_i same
      refine Or.inl ?_
      rcases cases_ c' h' mem with old | ⟨-, rfl⟩
      · have imports := HandleCall.physical_of_remembers same
        refine (right.again c' h' old (by rw [imports]; nofun) ?_).symm
        rw [imports, HandleCall.physical_of_remembers remembers]
      · rfl
    · rename_i different
      rcases cases_ c' h' mem with old | ⟨rfl, -⟩
      · exact h.handles c' h' x old remembers
      · exact absurd remembers different
  · rcases cases_ c₁ h₁ mem₁ with old₁ | ⟨rfl, rfl⟩
    · rcases cases_ c₂ h₂ mem₂ with old₂ | ⟨rfl, rfl⟩
      · exact h.apart c₁ h₁ c₂ h₂ old₁ old₂ ne
      · exact other c₁ h₁ old₁ ne
    · rcases cases_ c₂ h₂ mem₂ with old₂ | ⟨rfl, rfl⟩
      · exact (other c₂ h₂ old₂ ne.symm).symm
      · exact absurd rfl ne

/-- **One step**: it is right if and only if it meets the condition, and if it is right the next one can be
judged. -/
lemma Consistent.step {event : HandleEvent} (h : Consistent s) (e : s.step info event = some s') :
    (s.Right info event ↔ s.Meets event) ∧ (s.Right info event → Consistent s') := by
  cases event with
  | call c =>
    obtain ⟨⟨w', handle⟩, hcall, rfl⟩ := Option.map_eq_some_iff.mp e
    refine ⟨⟨fun right => h.admissible hcall (right w' handle hcall), fun meets w'' h'' hcall' => ?_⟩,
      fun right => h.call hcall (right w' handle hcall)⟩
    exact h.right hcall' meets
  | reset =>
    cases e
    exact ⟨Iff.rfl, fun _ => .of_nil _⟩
  | newGraph =>
    cases e
    exact ⟨Iff.rfl, fun _ => .of_nil _⟩
  | execute =>
    cases e
    refine ⟨Iff.rfl, fun _ => ⟨h.logged, fun c handle x mem remembers => ?_, h.apart⟩⟩
    cases x with
    | texture texture =>
      change (if texture ∈ s.world.importedTextures then 0 else _) = handle ∨ ite _ _ _ = 0
      split
      · exact Or.inr rfl
      · exact h.handles c handle _ mem remembers
    | buffer buffer =>
      change (if buffer ∈ s.world.importedBuffers then 0 else _) = handle ∨ ite _ _ _ = 0
      split
      · exact Or.inr rfl
      · exact h.handles c handle _ mem remembers

/-- **Handles.** In every run of declare and import calls, resets, executions and new graphs, every handle
that is returned is right if and only if every call meets the condition in the state before it. -/
theorem handles_right_iff {events : List HandleEvent} (h : run (Session.step info) .start events = some s) :
    Along (Session.step info) (Session.Right info) .start events ↔
      Along (Session.step info) Session.Meets .start events :=
  along_iff (I := Consistent) (fun _ _ _ consistent e => consistent.step e) (.of_nil _) h

def importsTwice : List HandleEvent := [.call (.importTexture (some 0)), .call (.importTexture (some 0))]

def plainInfo : PhysicalInfo := ⟨fun _ => 1, fun _ => 1, fun _ => .none⟩

/-- The second import of a texture finds the handle of the first. -/
theorem handles_right_importsTwice :
    Along (Session.step plainInfo) (Session.Right plainInfo) .start importsTwice := by
  refine (handles_right_iff (s := ⟨⟨_, _, _, _⟩, _⟩) rfl).mpr ⟨?_, fun s' e => ?_⟩
  · exact ⟨rfl, nofun, iff_of_false nofun nofun, fun _ => by decide⟩
  · cases e
    refine ⟨⟨rfl, nofun, iff_of_true rfl ⟨nofun, _, _, List.mem_singleton_self _, rfl⟩, nofun⟩, fun _ _ => trivial⟩

/-- The first handle after a reset is the one of no resource. -/
theorem not_handles_right : ¬ ∀ (info : PhysicalInfo) (events : List HandleEvent) (s : Session),
    run (Session.step info) .start events = some s →
      Along (Session.step info) (Session.Right info) .start events := by
  intro law
  have right := law plainInfo [.reset, .call .declareTexture] _ rfl
  exact ((right.2 _ rfl).1 _ _ rfl).valid rfl

end PulseEngine.RenderGraph
