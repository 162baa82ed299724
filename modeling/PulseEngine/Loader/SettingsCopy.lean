import PulseEngine.Library.ByteRange
import PulseEngine.Library.Record

/-!
# Deep copies of request settings

The size and copy callbacks of `loader/create_texture.cpp`, `create_buffer.cpp`, `create_mesh.cpp` and
`create_shader.cpp`. A size callback adds up what a copy takes, in 64 bits; a copy callback moves a cursor through
the block and gives up where the next piece does not fit. A pointer is an address, and a copy is the pointers of the
copied structures with the list of what was written where. A field that is no pointer is part of the bytes that are
copied with its structure. Counts have 32 bits, so that no size of a single array wraps.
-/

namespace PulseEngine.Loader

open Library

variable {F α β : Type}

/-- What a pointer of the settings points at: a text with its final NUL, some bytes, or an array of structures, each
without its pointer to a name. -/
inductive Object (F : Type) where
  | chars (text : List UInt8)
  | bytes (data : List UInt8)
  | elements (type : Extent) (values : List F)
  deriving DecidableEq, Repr

def Object.size : Object F → ℕ
  | .chars text => text.length + 1
  | .bytes data => data.length
  | .elements type values => values.length * type.size

def Object.align : Object F → ℕ
  | .chars _ | .bytes _ => 1
  | .elements type _ => type.align

structure Piece (F : Type) where
  round : ℕ
  object : Object F
  deriving DecidableEq, Repr

def Piece.extent (p : Piece F) : Extent := ⟨p.object.size, p.round⟩

abbrev Placed (F : Type) := ByteRange × Object F

/-- `cursor`, and what was written. -/
structure CopyState (F : Type) where
  cursor : ℕ
  written : List (Placed F)

/-- A part of a copy callback, with no result when the callback returns `false`. -/
abbrev Copying (F : Type) := StateT (CopyState F) Option

/-- A piece is copied to the cursor, if it ends before `stop`. -/
def copyPiece (stop : ℕ) (p : Piece F) : Copying F ℕ := fun st =>
  let address := alignUp 0 st.cursor p.round
  if address + p.object.size > stop then none
  else some (address, ⟨address + p.object.size, st.written ++ [(⟨address, p.object.size⟩, p.object)]⟩)

def sizePiece (total : ℕ) (p : Piece F) : ℕ := (alignUp (2 ^ 64) total p.round + p.object.size) % 2 ^ 64

def copyOption (stop : ℕ) : Option (Piece F) → Copying F (Option ℕ)
  | none => pure none
  | some p => do return some (← copyPiece stop p)

def sizeOption (total : ℕ) : Option (Piece F) → ℕ
  | none => total
  | some p => sizePiece total p

def textPiece (text : List UInt8) : Piece F := ⟨1, .chars text⟩

structure Rows where
  data : Option (List UInt8)
  count : ℕ
  stride : ℕ
  length_eq : ∀ bytes, data = some bytes → bytes.length = count * stride
  size_lt : count * stride < 2 ^ 64

def Rows.piece (rows : Rows) : Option (Piece F) :=
  if rows.count > 0 ∧ rows.stride > 0 then rows.data.map fun bytes => ⟨1, .bytes bytes⟩ else none

abbrev Named (F : Type) := F × Option (List UInt8)

structure Elements (F : Type) where
  list : List (Named F)
  count_lt : list.length < 2 ^ 32

def arrayPiece (round : ℕ) (type : Extent) (list : List F) : Option (Piece F) :=
  if list = [] then none else some ⟨round, .elements type list⟩

def copyNames (stop : ℕ) : List (Named F) → Copying F (List (Option ℕ))
  | [] => pure []
  | value :: list => do return (← copyOption stop (value.2.map textPiece)) :: (← copyNames stop list)

def sizeNames (total : ℕ) (list : List (Named F)) : ℕ :=
  list.foldl (fun total value => sizeOption (F := F) total (value.2.map textPiece)) total

structure ElementsCopy where
  address : Option ℕ
  names : List (Option ℕ)
  deriving DecidableEq, Repr

def copyElements (stop round : ℕ) (type : Extent) (elements : Elements F) : Copying F ElementsCopy := do
  return ⟨← copyOption stop (arrayPiece round type (elements.list.map Prod.fst)), ← copyNames stop elements.list⟩

def sizeElements (total round : ℕ) (type : Extent) (elements : Elements F) : ℕ :=
  sizeNames (sizeOption total (arrayPiece round type (elements.list.map Prod.fst))) elements.list

structure Abi where
  textureCreateDesc : Extent
  graphicsBufferCreateDesc : Extent
  meshCreateFromDataDesc : Extent
  shaderCreateSettings : Extent
  vertexAttribute : Extent
  blendAttachmentState : Extent
  shaderProperty : Extent
  -- A structure that holds a pointer is aligned like one, and no structure here needs more.
  attribute_dvd : vertexAttribute.align ∣ meshCreateFromDataDesc.align
  attachment_dvd : blendAttachmentState.align ∣ shaderCreateSettings.align
  property_dvd : shaderProperty.align ∣ shaderCreateSettings.align
  mesh_align : meshCreateFromDataDesc.align ∣ 2 ^ 64
  shader_align : shaderCreateSettings.align ∣ 2 ^ 64
  shader_dvd : shaderCreateSettings.align ∣ shaderCreateSettings.size
  texture_lt : textureCreateDesc.size < 2 ^ 64
  buffer_lt : graphicsBufferCreateDesc.size < 2 ^ 64
  mesh_lt : meshCreateFromDataDesc.size < 2 ^ 64
  shader_lt : shaderCreateSettings.size < 2 ^ 64

/-- `PulseTextureCreateDesc` and `PulseGraphicsBufferCreateDesc`: a name, some bytes, and fields that are no
pointers. -/
structure DataSettings (H : Type) where
  fields : H
  name : Option (List UInt8)
  data : Rows

/-- `PulseMeshCreateFromDataDesc`. -/
structure MeshSettings (F H : Type) where
  fields : H
  attributes : Elements F
  vertices : Rows
  indices : Rows

/-- `ShaderCreateSettings`. -/
structure ShaderSettings (F H : Type) where
  fields : H
  attachments : List F
  attachment_count : attachments.length < 2 ^ 32
  properties : Elements F

/-- A copied `PulseTextureCreateDesc` or `PulseGraphicsBufferCreateDesc`. -/
structure DataCopy (H : Type) where
  fields : H
  name : Option ℕ
  data : Option ℕ
  deriving DecidableEq, Repr

/-- A copied `PulseMeshCreateFromDataDesc`. -/
structure MeshCopy (H : Type) where
  fields : H
  attributes : ElementsCopy
  vertices : Option ℕ
  indices : Option ℕ
  deriving DecidableEq, Repr

/-- A copied `ShaderCreateSettings`. -/
structure ShaderCopy (H : Type) where
  fields : H
  attachments : Option ℕ
  properties : ElementsCopy
  deriving DecidableEq, Repr

variable {H : Type}

/-- A name, then some bytes. The structure is in the block before its callback runs, and the callback writes its
pointers. -/
def copyData (stop : ℕ) (s : DataSettings H) : Copying F (DataCopy H) := do
  return ⟨s.fields, ← copyOption stop (s.name.map textPiece), ← copyOption stop s.data.piece⟩

def sizeData (total : ℕ) (s : DataSettings H) : ℕ :=
  sizeOption (F := F) (sizeOption (F := F) total (s.name.map textPiece)) s.data.piece

variable (F) in
def textureSettingsSize (abi : Abi) (s : DataSettings H) : ℕ := sizeData (F := F) abi.textureCreateDesc.size s

def textureSettingsCopy (stop : ℕ) (s : DataSettings H) : Copying F (DataCopy H) := copyData stop s

variable (F) in
def bufferSettingsSize (abi : Abi) (s : DataSettings H) : ℕ :=
  sizeData (F := F) abi.graphicsBufferCreateDesc.size s

def bufferSettingsCopy (stop : ℕ) (s : DataSettings H) : Copying F (DataCopy H) := copyData stop s

def meshFromDataSettingsSize (abi : Abi) (s : MeshSettings F H) : ℕ :=
  sizeOption (F := F) (sizeOption (F := F) (sizeElements abi.meshCreateFromDataDesc.size
    abi.vertexAttribute.align abi.vertexAttribute s.attributes) s.vertices.piece) s.indices.piece

def meshFromDataSettingsCopy (abi : Abi) (stop : ℕ) (s : MeshSettings F H) : Copying F (MeshCopy H) := do
  return ⟨s.fields, ← copyElements stop abi.vertexAttribute.align abi.vertexAttribute s.attributes,
    ← copyOption stop s.vertices.piece, ← copyOption stop s.indices.piece⟩

/-- `shader_settings_size_fn`. The attachments are not aligned: they follow the structure. -/
def shaderSettingsSize (abi : Abi) (s : ShaderSettings F H) : ℕ :=
  sizeElements (sizeOption abi.shaderCreateSettings.size (arrayPiece 1 abi.blendAttachmentState s.attachments))
    abi.shaderProperty.align abi.shaderProperty s.properties

def shaderSettingsCopy (abi : Abi) (stop : ℕ) (s : ShaderSettings F H) : Copying F (ShaderCopy H) := do
  return ⟨s.fields, ← copyOption stop (arrayPiece 1 abi.blendAttachmentState s.attachments),
    ← copyElements stop abi.shaderProperty.align abi.shaderProperty s.properties⟩

inductive LoaderSettings (F H : Type) where
  | texture (s : DataSettings H)
  | buffer (s : DataSettings H)
  | mesh (s : MeshSettings F H)
  | shader (s : ShaderSettings F H)

inductive LoaderCopy (H : Type) where
  | texture (copy : DataCopy H)
  | buffer (copy : DataCopy H)
  | mesh (copy : MeshCopy H)
  | shader (copy : ShaderCopy H)
  deriving DecidableEq, Repr

variable (abi : Abi)

/-- `settings_size` and `settings_align` of the loader. -/
def LoaderSettings.head : LoaderSettings F H → Extent
  | texture _ => abi.textureCreateDesc
  | buffer _ => abi.graphicsBufferCreateDesc
  | mesh _ => abi.meshCreateFromDataDesc
  | shader _ => abi.shaderCreateSettings

def LoaderSettings.size : LoaderSettings F H → ℕ
  | texture s => textureSettingsSize F abi s
  | buffer s => bufferSettingsSize F abi s
  | mesh s => meshFromDataSettingsSize abi s
  | shader s => shaderSettingsSize abi s

/-- `settings_copy_fn` of the loader, up to the end of the block. -/
def LoaderSettings.copying (stop : ℕ) : LoaderSettings F H → Copying F (LoaderCopy H)
  | texture s => LoaderCopy.texture <$> textureSettingsCopy stop s
  | buffer s => LoaderCopy.buffer <$> bufferSettingsCopy stop s
  | mesh s => LoaderCopy.mesh <$> meshFromDataSettingsCopy abi stop s
  | shader s => LoaderCopy.shader <$> shaderSettingsCopy abi stop s

def LoaderSettings.copy (base size : ℕ) (s : LoaderSettings F H) : Option (LoaderCopy H × CopyState F) :=
  s.copying abi (base + size) ⟨base + (s.head abi).size, []⟩

def copyRequestSettings (base : ℕ) (s : LoaderSettings F H) : Option (LoaderCopy H × CopyState F) :=
  if s.size abi < (s.head abi).size ∨ s.size abi > 2 ^ 32 - 1 then none else s.copy abi base (s.size abi)

def PointsTo (written : List (Placed F)) : Option ℕ → Option (Object F) → Prop
  | none, none => True
  | some address, some object => (⟨address, object.size⟩, object) ∈ written
  | none, some _ | some _, none => False

def Rows.object (rows : Rows) : Option (Object F) :=
  if rows.data.getD [] = [] then none else some (.bytes (rows.data.getD []))

def arrayObject (type : Extent) (list : List F) : Option (Object F) :=
  if list = [] then none else some (.elements type list)

def ElementsCopy.Equals (written : List (Placed F)) (type : Extent) (elements : Elements F) (copy : ElementsCopy) :
    Prop :=
  PointsTo written copy.address (arrayObject type (elements.list.map Prod.fst)) ∧
    List.Forall₂ (fun value name => PointsTo written name (value.2.map .chars)) elements.list copy.names

def DataCopy.Equals (written : List (Placed F)) (s : DataSettings H) (copy : DataCopy H) : Prop :=
  copy.fields = s.fields ∧ PointsTo written copy.name (s.name.map .chars) ∧ PointsTo written copy.data s.data.object

def MeshCopy.Equals (written : List (Placed F)) (s : MeshSettings F H) (copy : MeshCopy H) : Prop :=
  copy.fields = s.fields ∧ copy.attributes.Equals written abi.vertexAttribute s.attributes ∧
    PointsTo written copy.vertices s.vertices.object ∧ PointsTo written copy.indices s.indices.object

def ShaderCopy.Equals (written : List (Placed F)) (s : ShaderSettings F H) (copy : ShaderCopy H) : Prop :=
  copy.fields = s.fields ∧
    PointsTo written copy.attachments (arrayObject abi.blendAttachmentState s.attachments) ∧
    copy.properties.Equals written abi.shaderProperty s.properties

def LoaderCopy.Equals (written : List (Placed F)) : LoaderSettings F H → LoaderCopy H → Prop
  | .texture s, texture copy => copy.Equals written s
  | .buffer s, buffer copy => copy.Equals written s
  | .mesh s, mesh copy => copy.Equals abi written s
  | .shader s, shader copy => copy.Equals abi written s
  | _, _ => False

/-- The copy callback succeeds on a block of the size that the size callback computed, writes behind the structure
and inside the block, to ranges that are apart and aligned, and the copy is equal. -/
structure CopiesRight (s : LoaderSettings F H) (base : ℕ) (copy : LoaderCopy H) (st : CopyState F) : Prop where
  copied : s.copy abi base (s.size abi) = some (copy, st)
  inside : ∀ w ∈ st.written, base + (s.head abi).size ≤ w.1.offset ∧ w.1.stop ≤ base + s.size abi
  apart : st.written.Pairwise fun w w' => w.1.Apart w'.1
  aligned : ∀ w ∈ st.written, w.2.align ∣ w.1.offset
  equal : copy.Equals abi st.written s

def LoaderSettings.CopiedRight (s : LoaderSettings F H) : Prop :=
  ∀ base, (s.head abi).align ∣ base → ∃ copy st, CopiesRight abi s base copy st

end PulseEngine.Loader
