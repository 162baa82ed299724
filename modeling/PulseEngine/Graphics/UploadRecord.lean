import PulseEngine.Asset.Basic
import PulseEngine.Library.Writes
import PulseEngine.RenderGraph.Upload

/-!
# The record callback of uploads

`pulse_graphics/src/runtime/upload.cpp`, and the updates of dynamic meshes in `src/assets/mesh.cpp`. The loop over the
pending uploads adds passes to the graph; the loop over the dynamic updates only imports their buffers, so that no byte
of an update is ever uploaded (`updates_uploaded_iff`).

A pass holds what its handles in the graph denote. Data is where a pointer points to; the assertions of the graph about
sizes are left out.
-/

namespace PulseEngine.Graphics

open Asset Library RenderGraph

/-- Where the data of a buffer is: in the storage of an asset, or allocated by `create_empty_buffer`. -/
inductive BufferPtr
  | asset (n : ℕ)
  | dynamic (n : ℕ)
  deriving DecidableEq

/-- What uploads read of `PulseTextureData`. -/
structure UploadTarget where
  format : FormatInfo
  width : ℕ
  height : ℕ
  depth : ℕ
  arraySize : ℕ

structure MeshBuffer where
  handle : Handle
  ptr : Option BufferPtr

/-- What updates read of `PulseMeshData`. -/
structure MeshData where
  vertexStride : UInt32
  indexStride : UInt32
  vertexBuffer : MeshBuffer
  indexBuffer : MeshBuffer

/-- The asset system: `internal_borrow_mesh` and the like, and which dynamic buffers `destroy_mesh` has freed. -/
structure Assets where
  meshes : Handle → Option MeshData
  buffers : Handle → Option ℕ
  textures : Handle → Option UploadTarget
  freed : ℕ → Bool

def Assets.isFreed (assets : Assets) : BufferPtr → Bool
  | .asset _ => false
  | .dynamic n => assets.freed n

inductive UploadContent
  | texture
  | buffer
  | textureData
  | bufferData
  deriving DecidableEq

structure UploadEntry where
  content : UploadContent
  texture : Handle := .invalid
  buffer : Handle := .invalid
  textureData : Option UploadTarget := none
  bufferData : Option BufferPtr := none
  data : Option ℕ := none
  dataSize : ℕ := 0
  completed : Option ℕ := none
  sourceMipLevels : ℕ := 1
  generateMipmap : Bool := false
  sampleable : Bool := false

inductive UploadPass
  | texture (dest : Handle) (mip slice size src : ℕ)
  | generateMipmap (texture : Handle) (fromMipmap : ℕ)
  | sample (texture : Handle)
  | buffer (dest : BufferPtr) (size offset src : ℕ)

/-- The passes of the graph, the buffers that were imported, the flags that were set, and `pending_release`. -/
structure Recording where
  passes : List UploadPass := []
  imported : List BufferPtr := []
  completed : List ℕ := []
  pendingRelease : List (ℕ × ℕ) := []

def slicePasses (texture : Handle) (mip mipSize : ℕ) : List ℕ → ℕ → List UploadPass × ℕ
  | [], src => ([], src)
  | slice :: slices, src =>
    let (passes, last) := slicePasses texture mip mipSize slices (src + mipSize)
    (.texture texture mip slice mipSize src :: passes, last)

def texturePasses (texture : Handle) (tex : UploadTarget) : List ℕ → ℕ → List UploadPass
  | [], _ => []
  | mip :: mips, src =>
    let mipSize := textureImageSize tex.format tex.width tex.height tex.depth mip
    let (passes, last) := slicePasses texture mip mipSize (List.range tex.arraySize) src
    passes ++ texturePasses texture tex mips last

def UploadEntry.source (entry : UploadEntry) : Option ℕ := entry.data.filter fun _ => entry.dataSize > 0

def UploadEntry.dest (assets : Assets) (entry : UploadEntry) (buf : BufferPtr) : Option BufferPtr :=
  if entry.buffer.isValid then (assets.buffers entry.buffer).map .asset else some buf

def UploadEntry.passes (assets : Assets) (entry : UploadEntry) : Option (List UploadPass) :=
  match entry.content with
  | .texture | .textureData => do
    let tex ← entry.textureData <|> assets.textures entry.texture
    -- The handle that is imported is that of the asset.
    let _ ← assets.textures entry.texture
    match entry.source with
    | none => some []
    | some src => some (texturePasses entry.texture tex (List.range entry.sourceMipLevels) src ++
        (if entry.generateMipmap then [.generateMipmap entry.texture entry.sourceMipLevels] else []) ++
        (if entry.sampleable then [.sample entry.texture] else []))
  | .buffer | .bufferData => do
    let buf ← entry.bufferData <|> (assets.buffers entry.buffer).map .asset
    let dest ← entry.dest assets buf
    match entry.source with
    | none => some []
    | some src => some [.buffer dest entry.dataSize 0 src]

def Recording.upload (assets : Assets) (r : Recording) (entry : UploadEntry) : Recording :=
  let passes := entry.passes assets
  { r with
    passes := r.passes ++ passes.getD []
    completed := if passes.isSome then r.completed ++ entry.completed.toList else r.completed
    pendingRelease := r.pendingRelease ++ (entry.source.map fun src => (src, entry.dataSize)).toList }

/-- One turn of the loop over `dynamic_updates`; nothing where it reads a buffer that was freed. -/
def Recording.update (assets : Assets) (r : Recording) (entry : UploadEntry) : Option Recording :=
  if entry.content = .buffer ∨ entry.content = .bufferData then
    match entry.bufferData <|> (assets.buffers entry.buffer).map .asset with
    | none => some r
    | some buf =>
      if !entry.buffer.isValid && assets.isFreed buf then none
      else some { r with imported := r.imported ++ (entry.dest assets buf).toList }
  else some r

def kMaxUploadsPerFrame : ℕ := 10

/-- `upload_record_callback`: what it records and the pending uploads that are left. The dynamic updates are cleared. -/
def uploadRecordCallback (assets : Assets) (pendingUploads dynamicUpdates : List UploadEntry) :
    Option (Recording × List UploadEntry) := do
  let uploads := (pendingUploads.take kMaxUploadsPerFrame).foldl (Recording.upload assets) {}
  let r ← dynamicUpdates.foldlM (Recording.update assets) uploads
  return (r, pendingUploads.drop kMaxUploadsPerFrame)

inductive StagingRequest
  | texture (handle : Handle) (texture : UploadTarget) (ptr size completed sourceMipLevels : ℕ)
      (generateMipmap sampleable : Bool)
  | buffer (handle : Handle) (buffer : ℕ) (ptr size completed : ℕ)

/-- The entry that `queue_staging_texture_full` or `queue_staging_buffer_full` puts into `pending_uploads`. -/
def StagingRequest.entry : StagingRequest → UploadEntry
  | .texture handle tex ptr size completed sourceMipLevels generateMipmap sampleable =>
    ⟨.textureData, handle, .invalid, some tex, none, some ptr, size, some completed, sourceMipLevels, generateMipmap,
      sampleable⟩
  | .buffer handle buf ptr size completed =>
    { content := .bufferData, buffer := handle, bufferData := some (.asset buf), data := some ptr, dataSize := size,
      completed := some completed }

inductive MeshPart
  | vertices
  | indices

def MeshPart.buffer (m : MeshData) : MeshPart → MeshBuffer
  | .vertices => m.vertexBuffer
  | .indices => m.indexBuffer

def MeshPart.stride (m : MeshData) : MeshPart → UInt32
  | .vertices => m.vertexStride
  | .indices => m.indexStride

/-- `pulse_update_mesh_vertices` and `pulse_update_mesh_indices`, which differ in the part of the mesh. -/
def updateMesh (part : MeshPart) (assets : Assets) (mesh : Handle) (data : ℕ) (count : UInt32)
    (dynamicUpdates : List UploadEntry) : List UploadEntry :=
  match assets.meshes mesh with
  | none => dynamicUpdates
  | some m => dynamicUpdates ++ [{
      content := .bufferData
      buffer := (part.buffer m).handle
      bufferData := (part.buffer m).ptr
      data := some data
      dataSize := (count * part.stride m).toNat }]

structure UpdateCall where
  part : MeshPart
  assets : Assets
  mesh : Handle
  data : ℕ
  count : UInt32

namespace UpdateCall

variable (call : UpdateCall)

def buffer : Option ℕ :=
  match (call.assets.meshes call.mesh).map fun m => (call.part.buffer m).ptr with
  | some (some (.dynamic n)) => some n
  | _ => none

def size : ℕ := match call.assets.meshes call.mesh with
  | some m => call.count.toNat * (call.part.stride m).toNat
  | none => 0

def Live : Prop := ∃ m, call.assets.meshes call.mesh = some m ∧
  ((call.part.buffer m).handle = .invalid) ∧ ∃ n, (call.part.buffer m).ptr = some (.dynamic n)

def run (dynamicUpdates : List UploadEntry) : List UploadEntry :=
  updateMesh call.part call.assets call.mesh call.data call.count dynamicUpdates

end UpdateCall

def lastUpdate (calls : List UpdateCall) (n : ℕ) : Option UpdateCall :=
  (calls.filter fun call => call.buffer = some n).getLast?

def UploadPass.write (b : BufferPtr) : UploadPass → Option (Write ℕ)
  | .buffer dest size offset src => if dest = b then some ⟨offset, List.range' src size⟩ else none
  | _ => none

def Recording.Uploads (r : Recording) (memory : ℕ → UInt8) (n : ℕ) (call : UpdateCall) : Prop :=
  ∀ i < call.size, (lastWritten i (r.passes.filterMap (UploadPass.write (.dynamic n)))).map memory =
    some (memory (call.data + i))

/-- **Updates are not lost**: the callback records a graph that uploads the last update of every buffer. -/
def UpdatesUploaded (assets : Assets) (requests : List StagingRequest) (calls : List UpdateCall) (memory : ℕ → UInt8) :
    Prop :=
  ∃ r rest, uploadRecordCallback assets (requests.map StagingRequest.entry)
      (calls.foldl (fun updates call => call.run updates) []) = some (r, rest) ∧
    ∀ n call, lastUpdate calls n = some call → r.Uploads memory n call

variable {assets : Assets} {b : BufferPtr} {n : ℕ} {calls : List UpdateCall}

lemma write_slicePasses {texture : Handle} {mip mipSize src : ℕ} {slices : List ℕ} :
    (slicePasses texture mip mipSize slices src).1.filterMap (UploadPass.write b) = [] := by
  induction slices generalizing src with
  | nil => rfl
  | cons slice slices ih => exact ih

lemma write_texturePasses {texture : Handle} {tex : UploadTarget} {mips : List ℕ} {src : ℕ} :
    (texturePasses texture tex mips src).filterMap (UploadPass.write b) = [] := by
  induction mips generalizing src with
  | nil => rfl
  | cons mip mips ih => rw [texturePasses, List.filterMap_append, write_slicePasses, ih, List.nil_append]

lemma UploadEntry.write_texture {entry : UploadEntry} (content : entry.content = .textureData) :
    ((entry.passes assets).getD []).filterMap (UploadPass.write b) = [] := by
  rw [UploadEntry.passes, content]
  dsimp only
  cases entry.textureData <|> assets.textures entry.texture with
  | none => rfl
  | some tex =>
    cases assets.textures entry.texture with
    | none => rfl
    | some t =>
      cases entry.source with
      | none => rfl
      | some src =>
        change List.filterMap _ (_ ++ _ ++ _) = _
        rw [List.filterMap_append, List.filterMap_append, write_texturePasses]
        cases entry.generateMipmap <;> cases entry.sampleable <;> rfl

lemma UploadEntry.write_buffer {entry : UploadEntry} {k : ℕ} (content : entry.content = .bufferData)
    (data : entry.bufferData = some (.asset k)) :
    ((entry.passes assets).getD []).filterMap (UploadPass.write (.dynamic n)) = [] := by
  have isAsset : ∀ dest, entry.dest assets (.asset k) = some dest → ∃ j, dest = .asset j := by
    intro dest h
    rw [UploadEntry.dest] at h
    split at h
    · obtain ⟨j, -, rfl⟩ := Option.map_eq_some_iff.mp h
      exact ⟨j, rfl⟩
    · exact ⟨k, (Option.some.inj h).symm⟩
  rw [UploadEntry.passes, content, data]
  change List.filterMap _ (Option.getD (entry.dest assets (.asset k) >>= _) []) = []
  cases h : entry.dest assets (.asset k) with
  | none => rfl
  | some dest =>
    obtain ⟨j, rfl⟩ := isAsset dest h
    cases entry.source <;> rfl

lemma StagingRequest.write_none (request : StagingRequest) :
    ((request.entry.passes assets).getD []).filterMap (UploadPass.write (.dynamic n)) = [] := by
  cases request with
  | texture => exact UploadEntry.write_texture rfl
  | buffer => exact UploadEntry.write_buffer rfl rfl

lemma write_uploads (requests : List StagingRequest) (r : Recording) :
    (((requests.map StagingRequest.entry).foldl (Recording.upload assets) r).passes.filterMap
      (UploadPass.write (.dynamic n))) = r.passes.filterMap (UploadPass.write (.dynamic n)) := by
  induction requests generalizing r with
  | nil => rfl
  | cons request requests ih =>
    rw [List.map_cons, List.foldl_cons, ih, Recording.upload, List.filterMap_append, request.write_none, List.append_nil]

structure UploadEntry.Updates (entry : UploadEntry) (n : ℕ) : Prop where
  content : entry.content = .bufferData
  buffer : entry.buffer = .invalid
  data : entry.bufferData = some (.dynamic n)

lemma UploadEntry.Updates.update {entry : UploadEntry} (updates : entry.Updates n) (r : Recording) :
    r.update assets entry = if assets.freed n then none else
      some { r with imported := r.imported ++ [.dynamic n] } := by
  rw [Recording.update, if_pos (.inr updates.content), updates.data]
  change (if !entry.buffer.isValid && assets.freed n then none else
    some { r with imported := r.imported ++ (entry.dest assets (.dynamic n)).toList }) = _
  rw [UploadEntry.dest, updates.buffer]
  rfl

lemma UpdateCall.Live.run {call : UpdateCall} (live : call.Live) :
    ∃ n entry, call.buffer = some n ∧ entry.Updates n ∧ ∀ updates, call.run updates = updates ++ [entry] := by
  obtain ⟨m, mesh, handle, n, ptr⟩ := live
  refine ⟨n, ⟨.bufferData, .invalid, (call.part.buffer m).handle, none, (call.part.buffer m).ptr, some call.data,
    (call.count * call.part.stride m).toNat, none, 1, false, false⟩, ?_, ⟨rfl, handle, ptr⟩, fun updates => ?_⟩
  · rw [UpdateCall.buffer, mesh, Option.map_some, ptr]
  · rw [UpdateCall.run, updateMesh, mesh]

lemma queued (live : ∀ call ∈ calls, call.Live) (updates : List UploadEntry) :
    ∃ entries, calls.foldl (fun updates call => call.run updates) updates = updates ++ entries ∧
      List.Forall₂ (fun call entry => ∃ n, call.buffer = some n ∧ entry.Updates n) calls entries := by
  induction calls generalizing updates with
  | nil => exact ⟨[], (List.append_nil _).symm, .nil⟩
  | cons call calls ih =>
    obtain ⟨n, entry, buffer, isUpdate, run⟩ := (live call List.mem_cons_self).run
    obtain ⟨entries, rest, all⟩ := ih (fun c hc => live c (List.mem_cons_of_mem _ hc)) (call.run updates)
    refine ⟨entry :: entries, ?_, .cons ⟨n, buffer, isUpdate⟩ all⟩
    rw [List.foldl_cons, rest, run, List.append_assoc]
    rfl

lemma update_loop {entries : List UploadEntry}
    (queued : List.Forall₂ (fun call entry => ∃ n, call.buffer = some n ∧ entry.Updates n) calls entries) (r : Recording) :
    ((∃ r', entries.foldlM (Recording.update assets) r = some r') ↔
      ∀ call ∈ calls, ∀ n, call.buffer = some n → assets.freed n = false) ∧
    ∀ r', entries.foldlM (Recording.update assets) r = some r' → r'.passes = r.passes := by
  induction queued generalizing r with
  | nil => exact ⟨iff_of_true ⟨r, rfl⟩ (List.forall_mem_nil _), fun r' h => Option.some.inj h ▸ rfl⟩
  | @cons call entry calls entries first rest ih =>
    obtain ⟨n, buffer, isUpdate⟩ := first
    rw [List.foldlM_cons, isUpdate.update]
    cases freed : assets.freed n with
    | true =>
      refine ⟨iff_of_false (fun ⟨_, h⟩ => by cases h) fun h => ?_, fun _ h => by cases h⟩
      have alive := h call List.mem_cons_self n buffer
      rw [freed] at alive
      cases alive
    | false =>
      obtain ⟨ends, same⟩ := ih { r with imported := r.imported ++ [.dynamic n] }
      refine ⟨ends.trans ⟨fun h => List.forall_mem_cons.mpr ⟨fun k hk => ?_, h⟩, fun h => (List.forall_mem_cons.mp h).2⟩,
        same⟩
      rw [← Option.some.inj (buffer.symm.trans hk)]
      exact freed

/-- **When updates are not lost**: every buffer that was updated is still there, and its last update has no bytes. -/
theorem updates_uploaded_iff (assets : Assets) (requests : List StagingRequest) (calls : List UpdateCall)
    (memory : ℕ → UInt8) (live : ∀ call ∈ calls, call.Live) :
    UpdatesUploaded assets requests calls memory ↔
      (∀ call ∈ calls, ∀ n, call.buffer = some n → assets.freed n = false) ∧
      ∀ n call, lastUpdate calls n = some call → call.size = 0 := by
  obtain ⟨entries, queue, all⟩ := queued live []
  obtain ⟨ends, same⟩ := @update_loop assets calls entries all
    (((requests.map StagingRequest.entry).take kMaxUploadsPerFrame).foldl (Recording.upload assets) {})
  have writes : ∀ n r, entries.foldlM (Recording.update assets)
      (((requests.map StagingRequest.entry).take kMaxUploadsPerFrame).foldl (Recording.upload assets) {}) = some r →
      r.passes.filterMap (UploadPass.write (.dynamic n)) = [] := by
    intro n r h
    rw [same r h, ← List.map_take, write_uploads]
    rfl
  rw [UpdatesUploaded, queue, List.nil_append]
  constructor
  · rintro ⟨r, rest, callback, uploads⟩
    obtain ⟨r', loop, eq⟩ := Option.bind_eq_some_iff.mp callback
    cases eq
    refine ⟨ends.mp ⟨r, loop⟩, fun n call last => Nat.eq_zero_of_not_pos fun pos => ?_⟩
    have byte := uploads n call last 0 pos
    rw [writes n r loop] at byte
    cases byte
  · rintro ⟨alive, empty⟩
    obtain ⟨r, loop⟩ := ends.mpr alive
    refine ⟨r, _, Option.bind_eq_some_iff.mpr ⟨r, loop, rfl⟩, fun n call last i lt => ?_⟩
    rw [empty n call last] at lt
    exact absurd lt (Nat.not_lt_zero i)

def triangleMesh : MeshData := ⟨12, 2, ⟨.invalid, some (.dynamic 0)⟩, ⟨.invalid, some (.dynamic 1)⟩⟩

def triangleAssets : Assets := ⟨fun _ => some triangleMesh, fun _ => none, fun _ => none, fun _ => false⟩

/-- Its vertices are set to `count` vertices at an address. -/
def triangleUpdate (count : UInt32) : UpdateCall := ⟨.vertices, triangleAssets, ⟨1, 1, 1⟩, 64, count⟩

lemma live_triangleUpdate (count : UInt32) : (triangleUpdate count).Live := ⟨triangleMesh, rfl, rfl, 0, rfl⟩

theorem updates_uploaded_iff_emptied :
    UpdatesUploaded triangleAssets [] [triangleUpdate 3, triangleUpdate 0] fun _ => 0 := by
  refine (updates_uploaded_iff _ _ _ _ ?_).mpr ⟨fun _ _ _ _ => rfl, fun n call last => ?_⟩
  · exact List.forall_mem_cons.mpr ⟨live_triangleUpdate 3, List.forall_mem_singleton.mpr (live_triangleUpdate 0)⟩
  · by_cases h : n = 0
    · subst h
      exact Option.some.inj last ▸ rfl
    · have none : lastUpdate [triangleUpdate 3, triangleUpdate 0] n = none := by
        rw [lastUpdate, List.filter_eq_nil_iff.mpr, List.getLast?_nil]
        intro c hc eq
        have zero : c.buffer = some 0 := by
          rcases List.mem_cons.mp hc with rfl | hc
          · rfl
          · exact List.mem_singleton.mp hc ▸ rfl
        rw [zero] at eq
        exact h (Option.some.inj (of_decide_eq_true eq)).symm
      rw [none] at last
      cases last

/-- Three vertices that are not uploaded. -/
theorem not_updates_uploaded : ¬ ∀ (assets : Assets) (requests : List StagingRequest) (calls : List UpdateCall)
    (memory : ℕ → UInt8), (∀ call ∈ calls, call.Live) → UpdatesUploaded assets requests calls memory := by
  intro h
  obtain ⟨r, rest, callback, uploads⟩ := h triangleAssets [] [triangleUpdate 3] (fun _ => 0)
    (List.forall_mem_singleton.mpr (live_triangleUpdate 3))
  have recorded : uploadRecordCallback triangleAssets [] ((triangleUpdate 3).run []) =
    some (⟨[], [.dynamic 0], [], []⟩, []) := rfl
  cases recorded.symm.trans callback
  have byte := uploads 0 (triangleUpdate 3) rfl 0 (by decide)
  cases byte

end PulseEngine.Graphics
