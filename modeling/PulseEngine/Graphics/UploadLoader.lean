import PulseEngine.Asset.LoadQueue

/-!
# The loaders of textures and buffers

The step functions of `pulse_graphics/src/loader/create_texture.cpp`, `load_texture.cpp` and
`create_buffer.cpp`. Each creates its GPU object, stores it in the data of the asset and queues an
upload for it; once an upload is queued, the steps only wait for it. What a step reads through its
`PulseAssetLoadTask` is its argument. A texture and its view are created and freed together and count
as one object.
-/

namespace PulseEngine.Graphics

open Asset

def textureType : TypeId := 0x1000

def bufferType : TypeId := 0x1001

/-- `TextureLoaderState`; `BufferLoaderState` has the same fields. -/
structure UploadLoaderState where
  uploadRequested : Bool
  uploadCompleted : Bool
  deriving DecidableEq, Repr

def UploadLoaderState.init : UploadLoaderState := ⟨false, false⟩

/-- What a step does: the state it leaves, what it returns, and whether it created a GPU object for
the asset and queued an upload. -/
structure UploadStep where
  state : UploadLoaderState
  status : LoaderStatus
  error : Option String
  created : Bool
  queued : Bool
  deriving DecidableEq, Repr

def awaitUpload (s : UploadLoaderState) : UploadStep :=
  ⟨s, if s.uploadCompleted then .done else .pending, none, false, false⟩

def requestUpload (s : UploadLoaderState) : UploadStep :=
  ⟨{ s with uploadRequested := true }, .pending, none, true, true⟩

/-- What `step_texture_create` reads: the pixel data, empty when there is none, the size of the
staging block and whether the graphics state is there. -/
structure CreateTextureTask where
  pixelData : List UInt8
  stagingCapacity : Nat
  hasGraphicsState : Bool
  deriving DecidableEq, Repr

def stepTextureCreate (task : CreateTextureTask) (s : UploadLoaderState) : UploadStep :=
  if s.uploadRequested then awaitUpload s
  else if task.pixelData ≠ [] then
    if task.stagingCapacity < task.pixelData.length then
      ⟨s, .failed, some "texture loader: pixel data size exceeds staging buffer size", true, false⟩
    else if task.hasGraphicsState then requestUpload s
    else ⟨s, .failed, none, true, false⟩
  else ⟨s, .done, none, true, false⟩

/-- What `step_texture_stb` reads: whether the bytes of the file can be decoded. -/
structure LoadStbTask where
  decodes : Bool
  hasGraphicsState : Bool
  deriving DecidableEq, Repr

def stepTextureStb (task : LoadStbTask) (s : UploadLoaderState) : UploadStep :=
  if s.uploadRequested then awaitUpload s
  else if task.decodes then
    if task.hasGraphicsState then requestUpload s else ⟨s, .failed, none, true, false⟩
  else ⟨s, .failed, some "texture stb loader: texture parse failed", false, false⟩

/-- What `step_texture_ktx` reads: the error of the first check that the file fails. -/
structure LoadKtxTask where
  refused : Option String
  hasGraphicsState : Bool
  deriving DecidableEq, Repr

def stepTextureKtx (task : LoadKtxTask) (s : UploadLoaderState) : UploadStep :=
  if s.uploadRequested then awaitUpload s
  else
    match task.refused with
    | some error => ⟨s, .failed, some error, false, false⟩
    | none =>
      if task.hasGraphicsState then requestUpload s
      else ⟨s, .failed, some "texture ktx loader: graphics state unavailable", false, false⟩

/-- What `step_buffer_create` reads: whether the device can create the buffer, and the data. -/
structure CreateBufferTask where
  creates : Bool
  data : List UInt8
  hasGraphicsState : Bool
  deriving DecidableEq, Repr

def stepBufferCreate (task : CreateBufferTask) (s : UploadLoaderState) : UploadStep :=
  if s.uploadRequested then awaitUpload s
  else if task.creates then
    if task.data ≠ [] then
      if task.hasGraphicsState then requestUpload s else ⟨s, .failed, none, true, false⟩
    else ⟨s, .done, none, true, false⟩
  else ⟨s, .failed, some "buffer loader: create buffer failed", false, false⟩

inductive UploadTask where
  | createTexture (task : CreateTextureTask)
  | loadStb (task : LoadStbTask)
  | loadKtx (task : LoadKtxTask)
  | createBuffer (task : CreateBufferTask)
  deriving DecidableEq, Repr

def UploadTask.step : UploadTask → UploadLoaderState → UploadStep
  | .createTexture task => stepTextureCreate task
  | .loadStb task => stepTextureStb task
  | .loadKtx task => stepTextureKtx task
  | .createBuffer task => stepBufferCreate task

/-- What happens around one step of a job: the step, and whether the upload was recorded by then. -/
structure UploadTurn where
  task : UploadTask
  recorded : Bool
  deriving DecidableEq, Repr

def UploadTurn.run (before : UploadLoaderState × Nat) (turn : UploadTurn) : UploadLoaderState × Nat :=
  let s := { before.1 with uploadCompleted := before.1.uploadCompleted || turn.recorded }
  let step := turn.task.step s
  (step.state, if step.created then before.2 + 1 else before.2)

def objectsCreated (turns : List UploadTurn) : Nat :=
  (turns.foldl UploadTurn.run (UploadLoaderState.init, 0)).2

end PulseEngine.Graphics
