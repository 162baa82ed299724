import PulseEngine.Library.Run

/-!
# Resource slots of an encoder

The slots that `set_global_*` and the materials of a pass write, of `renderer.cpp`: one array for
both, with a mark on what came from a material. An address is a number, and the null pointer is 0.
The slots of a set are a function of the binding, which is written below `slotCount` only.
-/

namespace PulseEngine.Graphics

def materialSet : ℕ := 1

def setCount : ℕ := 4

def slotCount : ℕ := 64

/-- `ResourceSlot::Kind`. -/
inductive SlotKind where
  | none
  | texture
  | sampler
  | buffer
deriving DecidableEq, Repr

structure ResourceSlot where
  kind : SlotKind := .none
  fromMaterial : Bool := false
  value : ℕ := 0
  offset : ℕ := 0
  size : ℕ := 0
deriving DecidableEq, Repr

/-- `PulseTextureData`. -/
structure Texture where
  view : ℕ
deriving DecidableEq, Repr

/-- `PulseGraphicsBufferData`. -/
structure GraphicsBuffer where
  handle : ℕ
  dynamicHandle : ℕ
deriving DecidableEq, Repr

/-- `pulse_material_bind_texture_t`. -/
structure TextureBinding where
  set : ℤ
  bind : ℤ
  texture : Option Texture
deriving DecidableEq, Repr

/-- `pulse_material_bind_sampler_t`. -/
structure SamplerBinding where
  set : ℤ
  bind : ℤ
  sampler : ℕ
deriving DecidableEq, Repr

/-- `pulse_material_bind_buffer_t`. -/
structure BufferBinding where
  set : ℤ
  bind : ℤ
  buffer : Option GraphicsBuffer
deriving DecidableEq, Repr

/-- `pulse_material_ubo_column_t`. -/
structure UboColumn where
  set : ℕ
  binding : ℕ
  dirty : Bool
  gpuBuffer : Option GraphicsBuffer
deriving DecidableEq, Repr

/-- `PulseMaterialData`; the shader is its address. -/
structure Material where
  shader : Option ℕ
  textures : List TextureBinding
  samplers : List SamplerBinding
  buffers : List BufferBinding
  uboColumns : List UboColumn
deriving DecidableEq, Repr

abbrev ResourceSets := ℕ → ℕ → ResourceSlot

def ResourceSets.write (sets : ResourceSets) (set slot : ℕ) (value : ResourceSlot) :
    ResourceSets :=
  fun s b => if s = set ∧ b = slot then value else sets s b

def slotBounds (set slot : ℤ) : Option (ℕ × ℕ) :=
  if set < 0 ∨ set ≥ setCount ∨ slot < 0 ∨ slot ≥ slotCount then none
  else some (set.toNat, slot.toNat)

structure SlotWrite where
  set : ℕ
  slot : ℕ
  value : ResourceSlot
deriving DecidableEq, Repr

/-- `material_ubo_sync_to_gpu`, what it does to the buffers of the columns. -/
def Material.uboSyncToGpu (createBuffer : ℕ → GraphicsBuffer) (material : Material) : Material :=
  { material with
    uboColumns := material.uboColumns.mapIdx fun i col =>
      if col.dirty then
        { col with gpuBuffer := some (col.gpuBuffer.getD (createBuffer i)), dirty := false }
      else col }

/-- What the first loop of `material_load_into_slots` does with a texture. -/
def TextureBinding.slotWrite (bind : TextureBinding) : Option SlotWrite :=
  (slotBounds bind.set bind.bind).map fun (set, slot) =>
    ⟨set, slot, ⟨.texture, true, (bind.texture.map (·.view)).getD 0, 0, 0⟩⟩

def SamplerBinding.slotWrite (bind : SamplerBinding) : Option SlotWrite :=
  (slotBounds bind.set bind.bind).map fun (set, slot) =>
    ⟨set, slot, ⟨.sampler, true, bind.sampler, 0, 0⟩⟩

def BufferBinding.slotWrite (bind : BufferBinding) : Option SlotWrite :=
  (slotBounds bind.set bind.bind).map fun (set, slot) =>
    ⟨set, slot, ⟨.buffer, true, (bind.buffer.map (·.handle)).getD 0, 0, 0⟩⟩

def UboColumn.slotWrite (col : UboColumn) : Option SlotWrite :=
  if col.set ≥ setCount ∨ col.binding ≥ slotCount then none
  else col.gpuBuffer.map fun buffer =>
    ⟨col.set, col.binding, ⟨.buffer, true, buffer.handle, 0, 0⟩⟩

/-- What the loops of `material_load_into_slots` write, in their order. -/
def Material.slotWrites (material : Material) : List SlotWrite :=
  material.textures.filterMap TextureBinding.slotWrite
    ++ material.samplers.filterMap SamplerBinding.slotWrite
    ++ material.buffers.filterMap BufferBinding.slotWrite
    ++ material.uboColumns.filterMap UboColumn.slotWrite

def materialLoadIntoSlots (material : Material) (sets : ResourceSets) : ResourceSets :=
  material.slotWrites.foldl (fun sets w => sets.write w.set w.slot w.value) sets

def clearMaterialSlots (sets : ResourceSets) : ResourceSets :=
  fun s b => if (sets s b).fromMaterial then {} else sets s b

/-- What a pass finds in memory: the materials, the buffers that are made for their columns, and the
resources behind the handles of the graph. -/
structure Memory where
  materials : ℕ → Material
  createBuffer : ℕ → ℕ → GraphicsBuffer
  resolveTextureView : ℕ → ℕ
  resolveBuffer : ℕ → ℕ

structure PassSlots where
  resourceSets : ResourceSets := fun _ _ => {}
  lastMaterial : Option ℕ := none

namespace PassSlots

/-- A material as a draw finds it, with its columns synced. After the first draw nothing of it is
dirty, so that it can be synced from the start again. -/
def synced (m : Memory) (material : ℕ) : Material :=
  (m.materials material).uboSyncToGpu (m.createBuffer material)

def updateMaterial (m : Memory) (material : Option ℕ) (e : PassSlots) : PassSlots :=
  if e.lastMaterial = material then e
  else
    let cleared := clearMaterialSlots e.resourceSets
    match material with
    | none => ⟨cleared, none⟩
    | some address =>
      match (m.materials address).shader with
      | none => ⟨cleared, material⟩
      | some _ => ⟨materialLoadIntoSlots (synced m address) cleared, material⟩

def leaveMaterial (e : PassSlots) : PassSlots :=
  ⟨clearMaterialSlots e.resourceSets, none⟩

/-- The common part of the functions `set_global_*`: a slot out of range and one that a material
wrote stay as they are. -/
def setGlobal (set slot : ℤ) (value : Option ResourceSlot) (e : PassSlots) : PassSlots :=
  match slotBounds set slot, value with
  | some (s, b), some value =>
    if (e.resourceSets s b).fromMaterial then e
    else { e with resourceSets := e.resourceSets.write s b value }
  | _, _ => e

def setGlobalTexture (texture : Option Texture) (set slot : ℤ) : PassSlots → PassSlots :=
  setGlobal set slot (some ⟨.texture, false, (texture.map (·.view)).getD 0, 0, 0⟩)

def setGlobalTextureHandle (m : Memory) (texture : ℕ) (set slot : ℤ) : PassSlots → PassSlots :=
  setGlobal set slot (if texture = 0 then none
    else some ⟨.texture, false, m.resolveTextureView texture, 0, 0⟩)

def setGlobalSampler (sampler : ℕ) (set slot : ℤ) : PassSlots → PassSlots :=
  setGlobal set slot (some ⟨.sampler, false, sampler, 0, 0⟩)

def setGlobalBuffer (buffer : Option GraphicsBuffer) (set slot : ℤ) : PassSlots → PassSlots :=
  setGlobal set slot (some ⟨.buffer, false, (buffer.map (·.handle)).getD 0, 0, 0⟩)

def setGlobalDynamicBuffer (m : Memory) (buffer : ℕ) (set slot : ℤ) : PassSlots → PassSlots :=
  setGlobal set slot (if buffer = 0 then none
    else some ⟨.buffer, false, m.resolveBuffer buffer, 0, 0⟩)

def setGlobalBufferWithOffsetSize (m : Memory) (buffer : ℕ) (set slot : ℤ) (offset size : ℕ) :
    PassSlots → PassSlots :=
  setGlobal set slot (if buffer = 0 then none
    else some ⟨.buffer, false, m.resolveBuffer buffer, offset, size⟩)

end PassSlots

/-- What is passed to a call of `set_global_*`. -/
inductive GlobalValue where
  | texture (texture : Option Texture)
  | textureHandle (texture : ℕ)
  | sampler (sampler : ℕ)
  | buffer (buffer : Option GraphicsBuffer)
  | dynamicBuffer (buffer : ℕ)
  | bufferWithOffsetSize (buffer offset size : ℕ)
deriving DecidableEq, Repr

def GlobalValue.set (m : Memory) (set slot : ℤ) : GlobalValue → PassSlots → PassSlots
  | .texture tex => PassSlots.setGlobalTexture tex set slot
  | .textureHandle handle => PassSlots.setGlobalTextureHandle m handle set slot
  | .sampler smp => PassSlots.setGlobalSampler smp set slot
  | .buffer buf => PassSlots.setGlobalBuffer buf set slot
  | .dynamicBuffer handle => PassSlots.setGlobalDynamicBuffer m handle set slot
  | .bufferWithOffsetSize handle offset size =>
    PassSlots.setGlobalBufferWithOffsetSize m handle set slot offset size

@[simp]
lemma ResourceSets.write_same (sets : ResourceSets) (s b : ℕ) (value : ResourceSlot) :
    sets.write s b value s b = value := by
  simp [ResourceSets.write]

lemma ResourceSets.write_other {sets : ResourceSets} {s b set slot : ℕ} {value : ResourceSlot}
    (other : ¬ (s = set ∧ b = slot)) : sets.write set slot value s b = sets s b := by
  simp [ResourceSets.write, other]

end PulseEngine.Graphics
