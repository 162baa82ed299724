import PulseEngine.Library.RoundUp

/-!
# The sizes of uploads

The sizes of the upload passes in `rendergraph.cpp` and `rendergraph_executor.cpp`, and of the upload that
`create_buffer.cpp` asks for. The staging buffer has the size of the destination's node, rounded up; what is
copied out of it has the size of the destination. A buffer is created with the size that is asked for. The
blocks of a texture format come from a library that is not part of the repository.
-/

namespace PulseEngine.RenderGraph

open Library

def roundUp (n : ℕ) : ℕ := if n = 0 then 1 else fillBits (n - 1) + 1

def nextPowerOfTwo (n : ℕ) : ℕ := roundUp n % 2 ^ 32

structure BufferUpload where
  infoSize : ℕ
  size : ℕ
  offset : ℕ
  infoSize_lt : infoSize < 2 ^ 64
  size_lt : size < 2 ^ 64
  offset_lt : offset < 2 ^ 64

namespace BufferUpload

variable (u : BufferUpload)

/-- `ResourceNode::size`: an import narrows the size, and a managed buffer is created with this one. -/
def nodeSize : ℕ := u.infoSize % 2 ^ 32

/-- The assertion of `pulse_render_graph_add_uploadbufferpass_ex`. -/
def Admitted : Prop := (u.size + u.offset) % 2 ^ 64 ≤ u.nodeSize

def stagingSize : ℕ := nextPowerOfTwo u.nodeSize

/-- The sizes of an upload are as they should be: the staging buffer holds what is copied into and out of it,
the data ends in the destination, and no computation wraps or narrows. -/
structure Fits : Prop where
  staged : u.offset + u.size ≤ u.stagingSize
  copied : u.infoSize ≤ u.stagingSize
  inside : u.offset + u.size ≤ u.infoSize
  sum : (u.size + u.offset) % 2 ^ 64 = u.size + u.offset
  narrowed : u.nodeSize = u.infoSize
  rounded : nextPowerOfTwo u.nodeSize = roundUp u.nodeSize

end BufferUpload

/-- The upload that `step_buffer_create` asks for, with all of the initial data. -/
def createUpload (declaredSize dataSize : ℕ) (declared : declaredSize < 2 ^ 64) (data : dataSize < 2 ^ 64) :
    BufferUpload :=
  ⟨declaredSize, dataSize, 0, declared, data, by decide⟩

structure FormatInfo where
  widthOfBlock : ℕ
  heightOfBlock : ℕ
  bitSizeOfBlock : ℕ
  width_pos : 0 < widthOfBlock
  width_lt : widthOfBlock < 2 ^ 16
  height_pos : 0 < heightOfBlock
  height_lt : heightOfBlock < 2 ^ 16
  bitSize_lt : bitSizeOfBlock < 2 ^ 16

def mipExtent (size mipLevel : ℕ) : ℕ := max (size >>> mipLevel) 1

def imageSize (format : FormatInfo) (width height depth mipLevel : ℕ) : ℕ :=
  let blocksX := (mipExtent width mipLevel + format.widthOfBlock - 1) / format.widthOfBlock
  let blocksY := (mipExtent height mipLevel + format.heightOfBlock - 1) / format.heightOfBlock
  blocksX * blocksY * mipExtent depth mipLevel * format.bitSizeOfBlock / 8

def textureImageSize (format : FormatInfo) (width height depth mipLevel : ℕ) : ℕ :=
  let blocksX := (mipExtent width mipLevel + format.widthOfBlock - 1) % 2 ^ 64 / format.widthOfBlock
  let blocksY := (mipExtent height mipLevel + format.heightOfBlock - 1) % 2 ^ 64 / format.heightOfBlock
  blocksX * blocksY * mipExtent depth mipLevel * format.bitSizeOfBlock % 2 ^ 64 / 8

structure TextureUpload where
  format : FormatInfo
  width : ℕ
  height : ℕ
  depth : ℕ
  mipLevels : ℕ
  arraySize : ℕ
  mipmap : ℕ
  slice : ℕ
  size : ℕ
  offset : ℕ
  mipmap_lt : mipmap < 2 ^ 8
  slice_lt : slice < 2 ^ 8
  size_lt : size < 2 ^ 64
  offset_lt : offset < 2 ^ 64

namespace TextureUpload

variable (u : TextureUpload)

def bufferSize : ℕ :=
  textureImageSize u.format (u.width % 2 ^ 16) (u.height % 2 ^ 16) (u.depth % 2 ^ 16) u.mipmap

/-- The assertion of `pulse_render_graph_add_uploadtexturepass_ex`. -/
def Admitted : Prop := (u.size + u.offset) % 2 ^ 64 ≤ u.bufferSize

def stagingSize : ℕ := nextPowerOfTwo (u.bufferSize % 2 ^ 32)

def copiedSize : ℕ := imageSize u.format u.width u.height u.depth u.mipmap

structure Fits : Prop where
  staged : u.offset + u.size ≤ u.stagingSize
  copied : u.copiedSize ≤ u.stagingSize
  inside : u.offset + u.size ≤ u.copiedSize
  subresource : u.mipmap < u.mipLevels ∧ u.slice < u.arraySize
  sum : (u.size + u.offset) % 2 ^ 64 = u.size + u.offset
  extent : u.width % 2 ^ 16 = u.width ∧ u.height % 2 ^ 16 = u.height ∧ u.depth % 2 ^ 16 = u.depth
  shift : u.mipmap < 64
  computed : u.bufferSize =
    imageSize u.format (u.width % 2 ^ 16) (u.height % 2 ^ 16) (u.depth % 2 ^ 16) u.mipmap
  narrowed : u.bufferSize % 2 ^ 32 = u.bufferSize
  rounded : nextPowerOfTwo (u.bufferSize % 2 ^ 32) = roundUp (u.bufferSize % 2 ^ 32)

structure Regular : Prop where
  width : u.width < 2 ^ 16
  height : u.height < 2 ^ 16
  depth : u.depth < 2 ^ 16
  mipmap : u.mipmap < u.mipLevels
  shift : u.mipmap < 64
  slice : u.slice < u.arraySize

end TextureUpload

variable {n : ℕ}

lemma roundUp_eq (pos : 0 < n) (lt : n < 2 ^ 32) : roundUp n = 2 ^ (n - 1).size := by
  rw [roundUp, if_neg pos.ne', fillBits_add_one (by omega)]

lemma le_roundUp (lt : n < 2 ^ 32) : n ≤ roundUp n := by
  rcases Nat.eq_zero_or_pos n with rfl | pos
  · exact Nat.zero_le _
  · rw [roundUp_eq pos lt]
    have := Nat.lt_size_self (n - 1)
    omega

lemma nextPowerOfTwo_eq_iff (lt : n < 2 ^ 32) : nextPowerOfTwo n = roundUp n ↔ n ≤ 2 ^ 31 := by
  have small : nextPowerOfTwo n = roundUp n ↔ roundUp n < 2 ^ 32 := Nat.mod_eq_iff_lt (by decide)
  rw [small]
  rcases Nat.eq_zero_or_pos n with rfl | pos
  · exact iff_of_true (by decide) (by decide)
  · rw [roundUp_eq pos lt, Nat.pow_lt_pow_iff_right (by decide), Nat.lt_succ_iff, Nat.size_le]
    omega

lemma BufferUpload.fits_iff {u : BufferUpload} (admitted : u.Admitted) :
    u.Fits ↔ u.size + u.offset < 2 ^ 64 ∧ u.infoSize ≤ 2 ^ 31 := by
  have node : u.nodeSize < 2 ^ 32 := Nat.mod_lt _ (by decide)
  constructor
  · intro fits
    have rounded := (nextPowerOfTwo_eq_iff node).mp fits.rounded
    rw [fits.narrowed] at rounded
    exact ⟨Nat.mod_eq_iff_lt (by decide) |>.mp fits.sum, rounded⟩
  · rintro ⟨sum, le⟩
    have sum' : (u.size + u.offset) % 2 ^ 64 = u.size + u.offset := Nat.mod_eq_of_lt sum
    have narrowed : u.nodeSize = u.infoSize := Nat.mod_eq_of_lt (by omega)
    have rounded := (nextPowerOfTwo_eq_iff node).mpr (by omega)
    have room : u.nodeSize ≤ u.stagingSize := by
      rw [stagingSize, rounded]
      exact le_roundUp node
    have inside : u.offset + u.size ≤ u.infoSize := by
      rw [Admitted, sum'] at admitted
      omega
    exact ⟨by omega, by omega, inside, sum', narrowed, rounded⟩

lemma createUpload_le {declaredSize dataSize : ℕ} {declared : declaredSize < 2 ^ 64} {data : dataSize < 2 ^ 64}
    (admitted : (createUpload declaredSize dataSize declared data).Admitted) : dataSize ≤ declaredSize := by
  have sum : (dataSize + 0) % 2 ^ 64 ≤ declaredSize % 2 ^ 32 := admitted
  rw [Nat.add_zero, Nat.mod_eq_of_lt data] at sum
  exact sum.trans (Nat.mod_le _ _)

lemma blocks_le {extent block : ℕ} (pos : 0 < block) (one : 0 < extent) :
    (extent + block - 1) / block ≤ extent := by
  refine Nat.div_le_of_le_mul ?_
  obtain ⟨extent, rfl⟩ := Nat.exists_eq_add_one.mpr one
  obtain ⟨block, rfl⟩ := Nat.exists_eq_add_one.mpr pos
  calc extent + 1 + (block + 1) - 1 = extent + block + 1 := by omega
    _ ≤ block * extent + (extent + block + 1) := Nat.le_add_left _ _
    _ = (block + 1) * (extent + 1) := by ring

lemma mipExtent_bounds {extent : ℕ} (mipLevel : ℕ) (lt : extent < 2 ^ 16) :
    0 < mipExtent extent mipLevel ∧ mipExtent extent mipLevel < 2 ^ 16 := by
  have shifted : extent >>> mipLevel ≤ extent := Nat.shiftRight_le extent mipLevel
  unfold mipExtent
  omega

lemma textureImageSize_eq (format : FormatInfo) {width height depth : ℕ} (mipLevel : ℕ)
    (hw : width < 2 ^ 16) (hh : height < 2 ^ 16) (hd : depth < 2 ^ 16) :
    textureImageSize format width height depth mipLevel = imageSize format width height depth mipLevel := by
  obtain ⟨posX, ltX⟩ := mipExtent_bounds mipLevel hw
  obtain ⟨posY, ltY⟩ := mipExtent_bounds mipLevel hh
  obtain ⟨-, ltZ⟩ := mipExtent_bounds mipLevel hd
  have narrowX : (mipExtent width mipLevel + format.widthOfBlock - 1) % 2 ^ 64 =
      mipExtent width mipLevel + format.widthOfBlock - 1 := Nat.mod_eq_of_lt (by have := format.width_lt; omega)
  have narrowY : (mipExtent height mipLevel + format.heightOfBlock - 1) % 2 ^ 64 =
      mipExtent height mipLevel + format.heightOfBlock - 1 :=
    Nat.mod_eq_of_lt (by have := format.height_lt; omega)
  have blocksX := (blocks_le format.width_pos posX).trans_lt ltX
  have blocksY := (blocks_le format.height_pos posY).trans_lt ltY
  unfold textureImageSize imageSize
  dsimp only
  rw [narrowX, narrowY]
  congr 1
  refine Nat.mod_eq_of_lt ?_
  calc _ < 2 ^ 16 * 2 ^ 16 * 2 ^ 16 * 2 ^ 16 :=
        Nat.mul_lt_mul'' (Nat.mul_lt_mul'' (Nat.mul_lt_mul'' blocksX blocksY) ltZ) format.bitSize_lt
    _ = 2 ^ 64 := by norm_num

lemma TextureUpload.fits_iff {u : TextureUpload} (admitted : u.Admitted) :
    u.Fits ↔ u.size + u.offset < 2 ^ 64 ∧ u.Regular ∧ u.copiedSize ≤ 2 ^ 31 := by
  have node : u.bufferSize % 2 ^ 32 < 2 ^ 32 := Nat.mod_lt _ (by decide)
  have small : ∀ k, k % 2 ^ 16 = k ↔ k < 2 ^ 16 := fun k => Nat.mod_eq_iff_lt (by decide)
  constructor
  · intro fits
    obtain ⟨hw, hh, hd⟩ := fits.extent
    have size : u.bufferSize = u.copiedSize := by
      rw [fits.computed, hw, hh, hd]
      rfl
    have rounded := (nextPowerOfTwo_eq_iff node).mp fits.rounded
    rw [fits.narrowed, size] at rounded
    refine ⟨Nat.mod_eq_iff_lt (by decide) |>.mp fits.sum, ?_, rounded⟩
    exact ⟨(small _).mp hw, (small _).mp hh, (small _).mp hd, fits.subresource.1, fits.shift,
      fits.subresource.2⟩
  · rintro ⟨sum, regular, le⟩
    have hw := (small _).mpr regular.width
    have hh := (small _).mpr regular.height
    have hd := (small _).mpr regular.depth
    have size : u.bufferSize = u.copiedSize := by
      unfold bufferSize
      rw [hw, hh, hd]
      exact textureImageSize_eq u.format u.mipmap regular.width regular.height regular.depth
    have sum' : (u.size + u.offset) % 2 ^ 64 = u.size + u.offset := Nat.mod_eq_of_lt sum
    have narrowed : u.bufferSize % 2 ^ 32 = u.bufferSize := Nat.mod_eq_of_lt (by omega)
    have rounded := (nextPowerOfTwo_eq_iff node).mpr (by omega)
    have room : u.bufferSize ≤ u.stagingSize := by
      rw [stagingSize, rounded, narrowed]
      exact le_roundUp (narrowed ▸ node)
    have inside : u.offset + u.size ≤ u.copiedSize := by
      rw [Admitted, sum'] at admitted
      omega
    refine ⟨by omega, by omega, inside, ⟨regular.mipmap, regular.slice⟩, sum', ⟨hw, hh, hd⟩, regular.shift,
      ?_, narrowed, rounded⟩
    rw [size, hw, hh, hd]
    rfl

def smallUpload : BufferUpload := ⟨100, 10, 20, by decide, by decide, by decide⟩

end PulseEngine.RenderGraph
