import PulseEngine.Graphics.UploadRecord

/-!
# Staging of KTX2 textures

`step_texture_ktx` of `pulse_graphics/src/loader/load_texture.cpp` writes the images of a file one behind the other; the
record callback of uploads reads them level by level and slice by slice. Where each is read is where it was written
(`staging_agrees`). In a build without assertions the offset of an image is never asked for, as the call stands inside of
an `assert`: `staging_agrees_iff` says for which files that makes no difference.
-/

namespace PulseEngine.Graphics

open Asset Library RenderGraph

/-- A format whose blocks are whole bytes, as those of `vk_format_to_cgpu` are. -/
structure BlockFormat where
  info : FormatInfo
  bytes : ℕ
  bytes_pos : 0 < bytes
  whole : info.bitSizeOfBlock = 8 * bytes

/-- The extent of a `ktxTexture`. -/
structure KtxExtent where
  baseWidth : ℕ
  baseHeight : ℕ
  baseDepth : ℕ
  numLevels : ℕ
  numLayers : ℕ
  numFaces : ℕ
  isCubemap : Bool
  width_lt : baseWidth < 2 ^ 32
  height_lt : baseHeight < 2 ^ 32
  layers_pos : 0 < numLayers
  layers_lt : numLayers < 2 ^ 32
  levels_le : numLevels ≤ 32
  levels_pos : 0 < numLevels
  cube : isCubemap = true → baseDepth = 1

def KtxExtent.sliceCount (e : KtxExtent) (mip : ℕ) : ℕ :=
  if e.isCubemap then e.numFaces else max 1 (e.baseDepth >>> mip)

def KtxExtent.images (e : KtxExtent) (mip : ℕ) : List (ℕ × ℕ) :=
  (List.range e.numLayers).flatMap fun layer => (List.range (e.sliceCount mip)).map fun slice => (layer, slice)

/-- A texture that libktx has loaded, with the right sizes of its images, which are in memory together. -/
structure KtxTexture extends KtxExtent where
  format : BlockFormat
  imageOffset : ℕ → ℕ → ℕ → ℕ
  data : ℕ → UInt8
  small : ((List.range numLevels).map fun mip => numLayers * toKtxExtent.sliceCount mip *
    imageSize format.info baseWidth baseHeight 1 mip).sum < 2 ^ 59

/-- `UploadLayout`: the format that is uploaded, and whether RGB is expanded to RGBA for it. -/
structure UploadLayout (source : BlockFormat) where
  upload : BlockFormat
  expandRgbToRgba : Bool
  same : expandRgbToRgba = false → upload = source
  rgb : expandRgbToRgba = true → source.info.widthOfBlock = 1 ∧ source.info.heightOfBlock = 1 ∧ source.bytes = 3
  rgba : expandRgbToRgba = true → upload.info.widthOfBlock = 1 ∧ upload.info.heightOfBlock = 1 ∧ upload.bytes = 4

def textureDataSize (format : FormatInfo) (width height depth mipLevels arraySize : ℕ) : ℕ :=
  ((List.range mipLevels).map (textureImageSize format width height depth)).sum % 2 ^ 64 * arraySize % 2 ^ 64

def expandRgbToRgba (src : ℕ → UInt8) (texels : ℕ) : List UInt8 :=
  (List.range texels).flatMap fun i => [src (i * 3), src (i * 3 + 1), src (i * 3 + 2), 0xff]

def imageTexelCount (format : FormatInfo) (imageSize : ℕ) : ℕ := imageSize * 8 % 2 ^ 64 / format.bitSizeOfBlock

namespace KtxTexture

variable (f : KtxTexture)

def getImageSize (mip : ℕ) : ℕ := imageSize f.format.info f.baseWidth f.baseHeight 1 mip

def arraySize : ℕ := f.numLayers * f.numFaces % 2 ^ 32

/-- The checks of `step_texture_ktx` on the sizes of a texture. -/
structure Accepted : Prop where
  faces : f.numFaces = if f.isCubemap then 6 else 1
  images : ∀ mip < f.numLevels,
    f.getImageSize mip = textureImageSize f.format.info f.baseWidth f.baseHeight 1 mip
  total : (((List.range f.numLevels).flatMap fun mip => (f.images mip).map fun _ => f.getImageSize mip).sum) % 2 ^ 64 =
    textureDataSize f.format.info f.baseWidth f.baseHeight f.baseDepth f.numLevels f.arraySize

variable (layout : UploadLayout f.format)

def totalSize : ℕ :=
  textureDataSize layout.upload.info f.baseWidth f.baseHeight f.baseDepth f.numLevels f.arraySize

def uploadSize (mip : ℕ) : ℕ := textureImageSize layout.upload.info f.baseWidth f.baseHeight 1 mip

def bytesAt (mip offset : ℕ) : List UInt8 :=
  if layout.expandRgbToRgba then
    expandRgbToRgba (fun i => f.data (offset + i)) (imageTexelCount f.format.info (f.getImageSize mip))
  else (List.range (f.getImageSize mip)).map fun i => f.data (offset + i)

def ktxOffset (assertions : Bool) (mip layer slice : ℕ) : ℕ := if assertions then f.imageOffset mip layer slice else 0

def turn (assertions : Bool) (mip : ℕ) : ℕ × ℕ → ℕ × List UInt8 :=
  fun (layer, slice) => (f.uploadSize layout mip, f.bytesAt layout mip (f.ktxOffset assertions mip layer slice))

def levelBlocks (assertions : Bool) (mip : ℕ) : List (ℕ × List UInt8) :=
  (f.images mip).map (f.turn layout assertions mip)

def blocks (assertions : Bool) : List (ℕ × List UInt8) :=
  (List.range f.numLevels).flatMap (f.levelBlocks layout assertions)

def writes (assertions : Bool) : List (Write UInt8) := serial 0 (f.blocks layout assertions)

def passes (handle : Handle) (staging : ℕ) : List UploadPass :=
  texturePasses handle ⟨layout.upload.info, f.baseWidth, f.baseHeight, f.baseDepth, f.arraySize⟩
    (List.range (f.numLevels % 256)) staging

def place (layer slice : ℕ) : ℕ × ℕ := if f.isCubemap then (layer * f.numFaces + slice, 0) else (layer, slice)

/-- **The loader and the callback agree.** Every image is read whole and from where it is, and writes and reads stay in
the staging memory, the writes apart from one another. -/
structure Agrees (assertions : Bool) : Prop where
  images : ∀ handle staging memory, ∀ mip < f.numLevels, ∀ layer < f.numLayers, ∀ slice < f.sliceCount mip,
    (f.bytesAt layout mip (f.imageOffset mip layer slice)).length = f.uploadSize layout mip ∧
    ∃ src, .texture handle mip (f.place layer slice).1 (mipExtent f.baseDepth mip * f.uploadSize layout mip) src ∈
        f.passes layout handle staging ∧
      ∀ i < f.uploadSize layout mip,
        some (((f.writes layout assertions).foldl (store staging) memory)
          (src + (f.place layer slice).2 * f.uploadSize layout mip + i)) =
        (f.bytesAt layout mip (f.imageOffset mip layer slice))[i]?
  reads : ∀ handle staging, ∀ mip slice size src, .texture handle mip slice size src ∈ f.passes layout handle staging →
    staging ≤ src ∧ src + size ≤ staging + f.totalSize layout
  inside : ∀ w ∈ f.writes layout assertions, w.offset + w.values.length ≤ f.totalSize layout
  apart : (f.writes layout assertions).Pairwise fun w w' => w.offset + w.values.length ≤ w'.offset

end KtxTexture

def blockCount (format : FormatInfo) (width height mip : ℕ) : ℕ :=
  (mipExtent width mip + format.widthOfBlock - 1) / format.widthOfBlock *
    ((mipExtent height mip + format.heightOfBlock - 1) / format.heightOfBlock)

lemma mipExtent_pos (extent mip : ℕ) : 0 < mipExtent extent mip := by
  unfold mipExtent
  omega

lemma mipExtent_one (mip : ℕ) : mipExtent 1 mip = 1 := by
  have shifted : 1 >>> mip ≤ 1 := Nat.shiftRight_le 1 mip
  unfold mipExtent
  omega

lemma blockCount_pos (format : FormatInfo) (width height mip : ℕ) : 0 < blockCount format width height mip := by
  have posX := mipExtent_pos width mip
  have posY := mipExtent_pos height mip
  exact Nat.mul_pos (Nat.div_pos (by omega) format.width_pos) (Nat.div_pos (by omega) format.height_pos)

lemma textureImageSize_blocks {format : BlockFormat} {width height depth mip : ℕ} (hw : width < 2 ^ 32)
    (hh : height < 2 ^ 32) (small : blockCount format.info width height mip * mipExtent depth mip * format.bytes < 2 ^ 61) :
    textureImageSize format.info width height depth mip =
      blockCount format.info width height mip * mipExtent depth mip * format.bytes := by
  have shiftedX : width >>> mip ≤ width := Nat.shiftRight_le width mip
  have shiftedY : height >>> mip ≤ height := Nat.shiftRight_le height mip
  have narrowX : (mipExtent width mip + format.info.widthOfBlock - 1) % 2 ^ 64 =
      mipExtent width mip + format.info.widthOfBlock - 1 :=
    Nat.mod_eq_of_lt (by have := format.info.width_lt; unfold mipExtent; omega)
  have narrowY : (mipExtent height mip + format.info.heightOfBlock - 1) % 2 ^ 64 =
      mipExtent height mip + format.info.heightOfBlock - 1 :=
    Nat.mod_eq_of_lt (by have := format.info.height_lt; unfold mipExtent; omega)
  have bits : blockCount format.info width height mip * mipExtent depth mip * format.info.bitSizeOfBlock =
      blockCount format.info width height mip * mipExtent depth mip * format.bytes * 8 := by
    rw [format.whole]
    ring
  unfold textureImageSize
  dsimp only
  rw [narrowX, narrowY, ← blockCount, bits, Nat.mod_eq_of_lt (by omega), Nat.mul_div_cancel _ (by decide)]

lemma UploadLayout.blockCount_eq {source : BlockFormat} (layout : UploadLayout source) (width height mip : ℕ) :
    blockCount layout.upload.info width height mip = blockCount source.info width height mip := by
  cases h : layout.expandRgbToRgba with
  | false => rw [layout.same h]
  | true =>
    obtain ⟨sourceX, sourceY, -⟩ := layout.rgb h
    obtain ⟨uploadX, uploadY, -⟩ := layout.rgba h
    rw [blockCount, blockCount, sourceX, sourceY, uploadX, uploadY]

lemma UploadLayout.bytes_le {source : BlockFormat} (layout : UploadLayout source) :
    layout.upload.bytes ≤ 2 * source.bytes := by
  cases h : layout.expandRgbToRgba with
  | false =>
    rw [layout.same h]
    omega
  | true =>
    have rgb := (layout.rgb h).2.2
    have rgba := (layout.rgba h).2.2
    omega

section

variable {texture : Handle} {tex : UploadTarget} {pass : UploadPass}

def UploadTarget.mipSize (tex : UploadTarget) (mip : ℕ) : ℕ :=
  textureImageSize tex.format tex.width tex.height tex.depth mip

lemma mem_slicePasses {mip size k n src : ℕ} : (slicePasses texture mip size (List.range' k n) src).2 = src + n * size ∧
    (pass ∈ (slicePasses texture mip size (List.range' k n) src).1 ↔
      ∃ j < n, pass = .texture texture mip (k + j) size (src + j * size)) := by
  induction n generalizing k src with
  | zero => exact ⟨by rw [Nat.zero_mul]; rfl, iff_of_false List.not_mem_nil fun ⟨_, lt, _⟩ => by omega⟩
  | succ n ih =>
    obtain ⟨last, mem⟩ := @ih (k + 1) (src + size)
    have turn : ∀ j, UploadPass.texture texture mip (k + 1 + j) size (src + size + j * size) =
        .texture texture mip (k + (j + 1)) size (src + (j + 1) * size) := fun j => by congr 1 <;> ring
    rw [List.range'_succ]
    refine ⟨last.trans (by ring), List.mem_cons.trans ⟨?_, ?_⟩⟩
    · rintro (rfl | h)
      · exact ⟨0, Nat.succ_pos n, by rw [Nat.zero_mul]; rfl⟩
      · obtain ⟨j, lt, rfl⟩ := mem.mp h
        exact ⟨j + 1, Nat.succ_lt_succ lt, turn j⟩
    · rintro ⟨j, lt, rfl⟩
      cases j with
      | zero => exact .inl (by rw [Nat.zero_mul]; rfl)
      | succ j => exact .inr (mem.mpr ⟨j, Nat.lt_of_succ_lt_succ lt, (turn j).symm⟩)

lemma mem_texturePasses {k n src : ℕ} : pass ∈ texturePasses texture tex (List.range' k n) src ↔
    ∃ m < n, ∃ j < tex.arraySize, pass = .texture texture (k + m) j (tex.mipSize (k + m))
      (src + ((List.range' k m).map fun mip => tex.arraySize * tex.mipSize mip).sum + j * tex.mipSize (k + m)) := by
  induction n generalizing k src with
  | zero => exact iff_of_false List.not_mem_nil fun ⟨_, lt, _⟩ => by omega
  | succ n ih =>
    obtain ⟨last, mem⟩ := @mem_slicePasses texture pass k (tex.mipSize k) 0 tex.arraySize src
    have unfolded : texturePasses texture tex (k :: List.range' (k + 1) n) src =
        (slicePasses texture k (tex.mipSize k) (List.range' 0 tex.arraySize) src).1 ++
          texturePasses texture tex (List.range' (k + 1) n) (src + tex.arraySize * tex.mipSize k) := by
      rw [← last, ← List.range_eq_range']
      rfl
    have turn : ∀ m j, UploadPass.texture texture (k + 1 + m) j (tex.mipSize (k + 1 + m)) (src + tex.arraySize * tex.mipSize k +
          ((List.range' (k + 1) m).map fun mip => tex.arraySize * tex.mipSize mip).sum + j * tex.mipSize (k + 1 + m)) =
        .texture texture (k + (m + 1)) j (tex.mipSize (k + (m + 1))) (src +
          ((List.range' k (m + 1)).map fun mip => tex.arraySize * tex.mipSize mip).sum +
            j * tex.mipSize (k + (m + 1))) := by
      intro m j
      rw [Nat.add_right_comm k 1 m, ← Nat.add_assoc k m 1, List.range'_succ, List.map_cons, List.sum_cons, Nat.add_assoc src]
    rw [List.range'_succ, unfolded, List.mem_append, mem, ih]
    constructor
    · rintro (⟨j, lt, rfl⟩ | ⟨m, lt, j, ltSlices, rfl⟩)
      · exact ⟨0, Nat.succ_pos n, j, lt, by rw [Nat.zero_add]; rfl⟩
      · exact ⟨m + 1, Nat.succ_lt_succ lt, j, ltSlices, turn m j⟩
    · rintro ⟨m, lt, j, ltSlices, rfl⟩
      cases m with
      | zero => exact .inl ⟨j, ltSlices, by rw [Nat.zero_add]; rfl⟩
      | succ m => exact .inr ⟨m, Nat.lt_of_succ_lt_succ lt, j, ltSlices, (turn m j).symm⟩

end

lemma split_range {n k : ℕ} (lt : k < n) : ∃ rest, List.range n = List.range k ++ k :: rest := by
  refine ⟨(List.range n).drop (k + 1), ?_⟩
  have split := List.take_append_drop k (List.range n)
  rw [List.take_range, min_eq_left lt.le, List.drop_eq_getElem_cons (by rwa [List.length_range]), List.getElem_range] at split
  exact split.symm

lemma split_flatMap {α β : Type} {xs before after : List α} {x : α} {g : α → List β} {y : β} {first last : List β}
    (outer : xs = before ++ x :: after) (inner : g x = first ++ y :: last) :
    xs.flatMap g = (before.flatMap g ++ first) ++ y :: (last ++ after.flatMap g) := by
  rw [outer, List.flatMap_append, List.flatMap_cons, inner]
  simp only [List.append_assoc, List.cons_append]

lemma expandRgbToRgba_succ (src : ℕ → UInt8) (texels : ℕ) : expandRgbToRgba src (texels + 1) =
    expandRgbToRgba src texels ++ [src (texels * 3), src (texels * 3 + 1), src (texels * 3 + 2), 0xff] := by
  rw [expandRgbToRgba, List.range_succ, List.flatMap_append, List.flatMap_singleton, ← expandRgbToRgba]

lemma expandRgbToRgba_length (src : ℕ → UInt8) (texels : ℕ) : (expandRgbToRgba src texels).length = texels * 4 := by
  induction texels with
  | zero => rfl
  | succ n ih =>
    rw [expandRgbToRgba_succ, List.length_append, ih, Nat.succ_mul]
    rfl

lemma expandRgbToRgba_eq_iff {src src' : ℕ → UInt8} {texels : ℕ} :
    expandRgbToRgba src texels = expandRgbToRgba src' texels ↔ ∀ i < texels * 3, src i = src' i := by
  induction texels with
  | zero => exact iff_of_true rfl fun i lt => absurd lt (by omega)
  | succ n ih =>
    rw [expandRgbToRgba_succ, expandRgbToRgba_succ]
    constructor
    · intro eq
      obtain ⟨first, last⟩ := List.append_inj eq (by rw [expandRgbToRgba_length, expandRgbToRgba_length])
      simp only [List.cons.injEq, and_true] at last
      intro i lt
      by_cases early : i < n * 3
      · exact ih.mp first i early
      · obtain rfl | rfl | rfl : i = n * 3 ∨ i = n * 3 + 1 ∨ i = n * 3 + 2 := by omega
        exacts [last.1, last.2.1, last.2.2]
    · intro same
      rw [ih.mpr fun i lt => same i (by omega), same _ (by omega), same (n * 3 + 1) (by omega),
        same (n * 3 + 2) (by omega)]

namespace KtxTexture

def levelSize (f : KtxTexture) (layout : UploadLayout f.format) (mip : ℕ) : ℕ :=
  f.arraySize * (mipExtent f.baseDepth mip * f.uploadSize layout mip)

def levelStart (f : KtxTexture) (layout : UploadLayout f.format) (mip : ℕ) : ℕ :=
  ((List.range mip).map (f.levelSize layout)).sum

variable {f : KtxTexture} {layout : UploadLayout f.format} {mip layer slice : ℕ}

def sliceBlocks (f : KtxTexture) (mip : ℕ) : ℕ :=
  blockCount f.format.info f.baseWidth f.baseHeight mip * mipExtent f.baseDepth mip

lemma getImageSize_eq : f.getImageSize mip = blockCount f.format.info f.baseWidth f.baseHeight mip * f.format.bytes := by
  rw [getImageSize, imageSize]
  rw [mipExtent_one, mul_one, ← blockCount, f.format.whole]
  have bits : blockCount f.format.info f.baseWidth f.baseHeight mip * (8 * f.format.bytes) =
      blockCount f.format.info f.baseWidth f.baseHeight mip * f.format.bytes * 8 := by ring
  rw [bits, Nat.mul_div_cancel _ (by decide)]

lemma images_length : (f.images mip).length = f.numLayers * f.sliceCount mip := by
  simp only [KtxExtent.images, List.length_flatMap, List.length_map, List.length_range, List.map_const', List.sum_replicate,
    smul_eq_mul]

lemma images_sum {size : ℕ} : ((f.images mip).map fun _ => size).sum = f.numLayers * f.sliceCount mip * size := by
  rw [List.map_const', List.sum_replicate, images_length, smul_eq_mul]

lemma images_split (ltLayer : layer < f.numLayers) (ltSlice : slice < f.sliceCount mip) :
    ∃ before after, f.images mip = before ++ (layer, slice) :: after ∧
      before.length = layer * f.sliceCount mip + slice := by
  obtain ⟨layers, outer⟩ := split_range ltLayer
  obtain ⟨slices, inner⟩ := split_range ltSlice
  refine ⟨_, _, split_flatMap outer (by rw [inner, List.map_append, List.map_cons]), ?_⟩
  simp only [List.length_append, List.length_flatMap, List.length_map, List.length_range, List.map_const',
    List.sum_replicate, smul_eq_mul]

section

variable (accepted : f.Accepted)

include accepted

lemma sliceCount_eq : f.sliceCount mip = f.numFaces * mipExtent f.baseDepth mip := by
  have faces := accepted.faces
  rw [KtxExtent.sliceCount]
  split_ifs at faces ⊢ with isCubemap
  · rw [f.cube isCubemap, mipExtent_one, mul_one]
  · rw [faces, one_mul, mipExtent, max_comm]

lemma faces_pos : 0 < f.numFaces := by
  have faces := accepted.faces
  split_ifs at faces <;> omega

lemma stored_eq : ((List.range f.numLevels).map fun mip => f.numLayers * f.sliceCount mip * f.getImageSize mip).sum =
    f.numLayers * f.numFaces * (((List.range f.numLevels).map f.sliceBlocks).sum * f.format.bytes) := by
  rw [← List.sum_map_mul_right, ← List.sum_map_mul_left]
  refine congrArg List.sum (List.map_congr_left fun mip _ => ?_)
  rw [sliceCount_eq accepted, getImageSize_eq, sliceBlocks]
  ring

lemma stored_lt :
    f.numLayers * f.numFaces * (((List.range f.numLevels).map f.sliceBlocks).sum * f.format.bytes) < 2 ^ 59 :=
  stored_eq accepted ▸ f.small

lemma levels_lt : ((List.range f.numLevels).map f.sliceBlocks).sum * f.format.bytes < 2 ^ 59 :=
  (Nat.le_mul_of_pos_left _ (Nat.mul_pos f.layers_pos (faces_pos accepted))).trans_lt (stored_lt accepted)

lemma sliceBlocks_lt (lt : mip < f.numLevels) : f.sliceBlocks mip * f.format.bytes < 2 ^ 59 :=
  (Nat.mul_le_mul_right _ (List.single_le_sum (fun _ _ => Nat.zero_le _) _
    (List.mem_map_of_mem (List.mem_range.mpr lt)))).trans_lt (levels_lt accepted)

lemma sourceSize_eq (lt : mip < f.numLevels) :
    textureImageSize f.format.info f.baseWidth f.baseHeight f.baseDepth mip = f.sliceBlocks mip * f.format.bytes :=
  textureImageSize_blocks f.width_lt f.height_lt ((sliceBlocks_lt accepted lt).trans (by norm_num))

lemma arraySize_eq : f.arraySize = f.numLayers * f.numFaces := by
  have levels : (List.range f.numLevels).map (textureImageSize f.format.info f.baseWidth f.baseHeight f.baseDepth) =
      (List.range f.numLevels).map fun mip => f.sliceBlocks mip * f.format.bytes :=
    List.map_congr_left fun mip h => sourceSize_eq accepted (List.mem_range.mp h)
  have le : f.arraySize ≤ f.numLayers * f.numFaces := Nat.mod_le _ _
  have sizes := levels_lt accepted
  have stored := stored_lt accepted
  have read : ((List.range f.numLevels).flatMap fun mip => (f.images mip).map fun _ => f.getImageSize mip).sum =
      f.numLayers * f.numFaces * (((List.range f.numLevels).map f.sliceBlocks).sum * f.format.bytes) := by
    rw [List.flatMap_def, List.sum_flatten, List.map_map, ← stored_eq accepted]
    exact congrArg List.sum (List.map_congr_left fun mip _ => images_sum)
  have total := accepted.total
  rw [read, textureDataSize, levels,
    List.sum_map_mul_right, Nat.mod_eq_of_lt (sizes.trans (by norm_num)), Nat.mod_eq_of_lt (stored.trans (by norm_num)),
    mul_comm _ f.arraySize, Nat.mod_eq_of_lt (((Nat.mul_le_mul_right _ le).trans_lt stored).trans (by norm_num))] at total
  refine (Nat.eq_of_mul_eq_mul_right (Nat.mul_pos ?_ f.format.bytes_pos) total).symm
  have first := List.single_le_sum (fun _ _ => Nat.zero_le _) (f.sliceBlocks 0)
    (List.mem_map_of_mem (f := f.sliceBlocks) (List.mem_range.mpr f.levels_pos))
  exact (Nat.mul_pos (blockCount_pos _ _ _ _) (mipExtent_pos _ _)).trans_le first

lemma uploadSize_eq (lt : mip < f.numLevels) :
    f.uploadSize layout mip = blockCount f.format.info f.baseWidth f.baseHeight mip * layout.upload.bytes := by
  have small := sliceBlocks_lt accepted lt
  have bytes := Nat.mul_le_mul_left (f.sliceBlocks mip) layout.bytes_le
  have one : blockCount f.format.info f.baseWidth f.baseHeight mip ≤ f.sliceBlocks mip :=
    Nat.le_mul_of_pos_right _ (mipExtent_pos _ _)
  have oneBytes := Nat.mul_le_mul_right layout.upload.bytes one
  have double : f.sliceBlocks mip * (2 * f.format.bytes) = 2 * (f.sliceBlocks mip * f.format.bytes) := by ring
  rw [uploadSize, textureImageSize_blocks f.width_lt f.height_lt, layout.blockCount_eq, mipExtent_one, mul_one]
  rw [layout.blockCount_eq, mipExtent_one, mul_one]
  omega

lemma uploadSlice_eq (lt : mip < f.numLevels) :
    textureImageSize layout.upload.info f.baseWidth f.baseHeight f.baseDepth mip =
      mipExtent f.baseDepth mip * f.uploadSize layout mip := by
  have small := sliceBlocks_lt accepted lt
  have bytes := Nat.mul_le_mul_left (f.sliceBlocks mip) layout.bytes_le
  have double : f.sliceBlocks mip * (2 * f.format.bytes) = 2 * (f.sliceBlocks mip * f.format.bytes) := by ring
  rw [uploadSize_eq accepted lt, textureImageSize_blocks f.width_lt f.height_lt, layout.blockCount_eq]
  · ring
  · rw [layout.blockCount_eq, ← sliceBlocks]
    omega

lemma totalSize_eq : f.totalSize layout = ((List.range f.numLevels).map (f.levelSize layout)).sum := by
  have levels : (List.range f.numLevels).map (textureImageSize layout.upload.info f.baseWidth f.baseHeight f.baseDepth) =
      (List.range f.numLevels).map fun mip => f.sliceBlocks mip * layout.upload.bytes := by
    refine List.map_congr_left fun mip h => ?_
    rw [uploadSlice_eq accepted (List.mem_range.mp h), uploadSize_eq accepted (List.mem_range.mp h), sliceBlocks]
    ring
  have sizes : (List.range f.numLevels).map (f.levelSize layout) =
      (List.range f.numLevels).map fun mip => f.arraySize * (f.sliceBlocks mip * layout.upload.bytes) := by
    refine List.map_congr_left fun mip h => ?_
    rw [levelSize, uploadSize_eq accepted (List.mem_range.mp h), sliceBlocks]
    ring
  have small := levels_lt accepted
  have stored := stored_lt accepted
  have bytes := Nat.mul_le_mul_left ((List.range f.numLevels).map f.sliceBlocks).sum layout.bytes_le
  have double : ((List.range f.numLevels).map f.sliceBlocks).sum * (2 * f.format.bytes) =
      2 * (((List.range f.numLevels).map f.sliceBlocks).sum * f.format.bytes) := by ring
  have all : f.numLayers * f.numFaces * (2 * (((List.range f.numLevels).map f.sliceBlocks).sum * f.format.bytes)) =
      2 * (f.numLayers * f.numFaces * (((List.range f.numLevels).map f.sliceBlocks).sum * f.format.bytes)) := by ring
  have allBytes := Nat.mul_le_mul_left (f.numLayers * f.numFaces) (bytes.trans_eq double)
  have narrow : ((List.range f.numLevels).map f.sliceBlocks).sum * layout.upload.bytes % 2 ^ 64 =
      ((List.range f.numLevels).map f.sliceBlocks).sum * layout.upload.bytes := Nat.mod_eq_of_lt (by omega)
  rw [totalSize, textureDataSize, levels, sizes, List.sum_map_mul_right, List.sum_map_mul_left, List.sum_map_mul_right,
    arraySize_eq accepted, narrow, mul_comm _ (f.numLayers * f.numFaces), Nat.mod_eq_of_lt (by omega)]

lemma mem_passes {handle : Handle} {staging : ℕ} {pass : UploadPass} : pass ∈ f.passes layout handle staging ↔
    ∃ mip < f.numLevels, ∃ j < f.arraySize,
      pass = .texture handle mip j (mipExtent f.baseDepth mip * f.uploadSize layout mip)
        (staging + f.levelStart layout mip + j * (mipExtent f.baseDepth mip * f.uploadSize layout mip)) := by
  have levels : f.numLevels % 256 = f.numLevels := Nat.mod_eq_of_lt (by have := f.levels_le; omega)
  have sizes : ∀ mip < f.numLevels, UploadTarget.mipSize
      ⟨layout.upload.info, f.baseWidth, f.baseHeight, f.baseDepth, f.arraySize⟩ mip =
        mipExtent f.baseDepth mip * f.uploadSize layout mip := fun mip lt => uploadSlice_eq accepted lt
  have starts : ∀ mip < f.numLevels, ((List.range mip).map fun m => f.arraySize * UploadTarget.mipSize
      ⟨layout.upload.info, f.baseWidth, f.baseHeight, f.baseDepth, f.arraySize⟩ m).sum = f.levelStart layout mip :=
    fun mip lt => congrArg List.sum (List.map_congr_left fun m h => by
      rw [sizes m ((List.mem_range.mp h).trans lt), levelSize])
  rw [passes, levels, List.range_eq_range', mem_texturePasses]
  refine exists_congr fun mip => and_congr_right fun lt => exists_congr fun j => and_congr_right fun _ => ?_
  rw [Nat.zero_add, ← List.range_eq_range', starts mip lt, sizes mip lt]

lemma levelBlocks_sum {assertions : Bool} (levels : List ℕ) :
    ((levels.flatMap (f.levelBlocks layout assertions)).map Prod.fst).sum = (levels.map (f.levelSize layout)).sum := by
  rw [List.map_flatMap, List.flatMap_def, List.sum_flatten, List.map_map]
  refine congrArg List.sum (List.map_congr_left fun mip _ => ?_)
  have level : ((f.levelBlocks layout assertions mip).map Prod.fst) = (f.images mip).map fun _ => f.uploadSize layout mip := by
    rw [levelBlocks, List.map_map]
    rfl
  rw [Function.comp_apply, level, images_sum, sliceCount_eq accepted, levelSize, arraySize_eq accepted]
  ring

lemma blocks_split (layout : UploadLayout f.format) (assertions : Bool) (ltMip : mip < f.numLevels) (ltLayer : layer < f.numLayers)
    (ltSlice : slice < f.sliceCount mip) : ∃ before after, f.blocks layout assertions =
        before ++ (f.uploadSize layout mip, f.bytesAt layout mip (f.ktxOffset assertions mip layer slice)) :: after ∧
      (before.map Prod.fst).sum =
        f.levelStart layout mip + (layer * f.sliceCount mip + slice) * f.uploadSize layout mip := by
  obtain ⟨levels, outer⟩ := split_range ltMip
  obtain ⟨first, last, images, length⟩ := images_split ltLayer ltSlice
  have inner : f.levelBlocks layout assertions mip = first.map (f.turn layout assertions mip) ++
      f.turn layout assertions mip (layer, slice) :: last.map (f.turn layout assertions mip) := by
    rw [levelBlocks, images, List.map_append, List.map_cons]
  refine ⟨_, _, split_flatMap (g := f.levelBlocks layout assertions) outer inner, ?_⟩
  have turns : (first.map (f.turn layout assertions mip)).map Prod.fst = first.map fun _ => f.uploadSize layout mip := by
    rw [List.map_map]
    rfl
  rw [List.map_append, List.sum_append, levelBlocks_sum accepted, turns, List.map_const', List.sum_replicate, length,
    smul_eq_mul, levelStart]

lemma place_eq (ltLayer : layer < f.numLayers) (ltSlice : slice < f.sliceCount mip) :
    (f.place layer slice).1 < f.arraySize ∧ ∀ size, (f.place layer slice).1 * (mipExtent f.baseDepth mip * size) +
      (f.place layer slice).2 * size = (layer * f.sliceCount mip + slice) * size := by
  have faces := accepted.faces
  rw [arraySize_eq accepted, sliceCount_eq accepted]
  rw [sliceCount_eq accepted] at ltSlice
  rw [place]
  split_ifs at faces ⊢ with isCubemap
  · rw [f.cube isCubemap, mipExtent_one, mul_one] at ltSlice ⊢
    refine ⟨?_, fun size => by ring⟩
    calc layer * f.numFaces + slice < layer * f.numFaces + f.numFaces := Nat.add_lt_add_left ltSlice _
      _ = (layer + 1) * f.numFaces := (Nat.succ_mul _ _).symm
      _ ≤ f.numLayers * f.numFaces := Nat.mul_le_mul_right _ ltLayer
  · rw [faces, mul_one]
    exact ⟨ltLayer, fun size => by ring⟩

lemma imageTexelCount_eq (ltMip : mip < f.numLevels) (expand : layout.expandRgbToRgba = true) :
    imageTexelCount f.format.info (f.getImageSize mip) = blockCount f.format.info f.baseWidth f.baseHeight mip := by
  have small := sliceBlocks_lt accepted ltMip
  have one : blockCount f.format.info f.baseWidth f.baseHeight mip ≤ f.sliceBlocks mip :=
    Nat.le_mul_of_pos_right _ (mipExtent_pos _ _)
  have rgb := (layout.rgb expand).2.2
  rw [imageTexelCount, getImageSize_eq, f.format.whole, rgb] 
  rw [rgb] at small
  omega

lemma bytesAt_length {offset : ℕ} (ltMip : mip < f.numLevels) :
    (f.bytesAt layout mip offset).length = f.uploadSize layout mip := by
  rw [bytesAt, uploadSize_eq accepted ltMip]
  split_ifs with expand
  · rw [expandRgbToRgba_length, imageTexelCount_eq accepted ltMip expand, (layout.rgba expand).2.2]
  · rw [List.length_map, List.length_range, getImageSize_eq, layout.same (Bool.eq_false_iff.mpr expand)]

lemma bytesAt_eq_iff {offset offset' : ℕ} (ltMip : mip < f.numLevels) :
    f.bytesAt layout mip offset = f.bytesAt layout mip offset' ↔
      ∀ i < f.getImageSize mip, f.data (offset + i) = f.data (offset' + i) := by
  rw [bytesAt, bytesAt]
  split_ifs with expand
  · rw [expandRgbToRgba_eq_iff, imageTexelCount_eq accepted ltMip expand, getImageSize_eq, (layout.rgb expand).2.2]
  · rw [List.map_inj_left]
    simp only [List.mem_range]

lemma blocks_fit {assertions : Bool} : ∀ b ∈ f.blocks layout assertions, b.2.length ≤ b.1 := by
  intro b h
  obtain ⟨mip, ltMip, h⟩ := List.mem_flatMap.mp h
  obtain ⟨image, -, rfl⟩ := List.mem_map.mp h
  exact (bytesAt_length accepted (List.mem_range.mp ltMip)).le

lemma blocks_sum {assertions : Bool} : ((f.blocks layout assertions).map Prod.fst).sum = f.totalSize layout := by
  rw [totalSize_eq accepted]
  exact levelBlocks_sum accepted _

lemma read_eq {assertions : Bool} {staging i : ℕ} {memory : ℕ → UInt8} (ltMip : mip < f.numLevels)
    (ltLayer : layer < f.numLayers) (ltSlice : slice < f.sliceCount mip) (lt : i < f.uploadSize layout mip) :
    some (((f.writes layout assertions).foldl (store staging) memory) (staging + f.levelStart layout mip +
        (f.place layer slice).1 * (mipExtent f.baseDepth mip * f.uploadSize layout mip) +
          (f.place layer slice).2 * f.uploadSize layout mip + i)) =
      (f.bytesAt layout mip (f.ktxOffset assertions mip layer slice))[i]? := by
  obtain ⟨before, after, split, start⟩ := blocks_split accepted layout assertions ltMip ltLayer ltSlice
  have length : (f.bytesAt layout mip (f.ktxOffset assertions mip layer slice)).length = f.uploadSize layout mip :=
    bytesAt_length accepted ltMip
  have fits : ∀ b ∈ f.blocks layout assertions, b.2.length ≤ b.1 := blocks_fit accepted
  have here : staging + f.levelStart layout mip +
        (f.place layer slice).1 * (mipExtent f.baseDepth mip * f.uploadSize layout mip) +
          (f.place layer slice).2 * f.uploadSize layout mip + i =
      staging + (0 + (before.map Prod.fst).sum + i) := by
    rw [start, ← (place_eq accepted ltLayer ltSlice).2]
    ring
  rw [split] at fits
  have after := (List.forall_mem_cons.mp (List.forall_mem_append.mp fits).2).2
  rw [here, foldl_store_apply, writes, split, lastWritten_serial (by rwa [length]) length.le after,
    List.getElem?_eq_getElem (by rwa [length])]
  rfl

lemma agrees_iff {assertions : Bool} : f.Agrees layout assertions ↔
    ∀ mip < f.numLevels, ∀ layer < f.numLayers, ∀ slice < f.sliceCount mip,
      f.bytesAt layout mip (f.ktxOffset assertions mip layer slice) =
        f.bytesAt layout mip (f.imageOffset mip layer slice) := by
  constructor
  · intro agrees mip ltMip layer ltLayer slice ltSlice
    obtain ⟨length, src, pass, read⟩ :=
      agrees.images Handle.invalid 0 (fun _ => 0) mip ltMip layer ltLayer slice ltSlice
    obtain ⟨mip', -, j, -, eq⟩ := (mem_passes accepted).mp pass
    cases eq
    refine List.ext_getElem? fun i => ?_
    by_cases lt : i < f.uploadSize layout mip
    · rw [← read i lt, read_eq accepted ltMip ltLayer ltSlice lt]
    · rw [List.getElem?_eq_none (by rw [bytesAt_length accepted ltMip]; omega),
        List.getElem?_eq_none (by omega)]
  · intro same
    refine ⟨fun handle staging memory mip ltMip layer ltLayer slice ltSlice =>
      ⟨bytesAt_length accepted ltMip, _, (mem_passes accepted).mpr ⟨mip, ltMip, (f.place layer slice).1,
        (place_eq accepted ltLayer ltSlice).1, rfl⟩, fun i lt => ?_⟩, fun handle staging mip slice size src pass => ?_,
      fun w h => ?_, serial_apart (blocks_fit accepted)⟩
    · rw [read_eq accepted ltMip ltLayer ltSlice lt, same mip ltMip layer ltLayer slice ltSlice]
    · obtain ⟨mip', lt, j, ltSlices, eq⟩ := (mem_passes accepted).mp pass
      cases eq
      obtain ⟨levels, outer⟩ := split_range lt
      have turns : (slice + 1) * (mipExtent f.baseDepth mip * f.uploadSize layout mip) ≤ f.levelSize layout mip :=
        Nat.mul_le_mul_right _ ltSlices
      rw [Nat.succ_mul] at turns
      rw [totalSize_eq accepted, outer, List.map_append, List.sum_append, List.map_cons, List.sum_cons, levelStart]
      omega
    · have inside := (serial_inside (blocks_fit accepted) h).2
      rwa [blocks_sum accepted, Nat.zero_add] at inside

lemma staging_agrees : f.Agrees layout true := (agrees_iff accepted).mpr fun _ _ _ _ _ _ => rfl

end

/-- **Staging agrees** in builds with and without assertions just if the bytes at the front of the data are those of
every image. -/
theorem staging_agrees_iff (f : KtxTexture) (layout : UploadLayout f.format) (accepted : f.Accepted) :
    (∀ assertions, f.Agrees layout assertions) ↔
      ∀ mip < f.numLevels, ∀ layer < f.numLayers, ∀ slice < f.sliceCount mip, ∀ i < f.getImageSize mip,
        f.data i = f.data (f.imageOffset mip layer slice + i) := by
  have both : (∀ assertions, f.Agrees layout assertions) ↔ f.Agrees layout false :=
    ⟨fun h => h false, fun h assertions => by
      cases assertions
      exacts [h, staging_agrees accepted]⟩
  rw [both, agrees_iff accepted]
  refine forall₂_congr fun mip ltMip => forall₂_congr fun layer _ => forall₂_congr fun slice _ => ?_
  rw [bytesAt_eq_iff accepted ltMip]
  simp only [ktxOffset, Bool.false_eq_true, if_false, Nat.zero_add]

def rgba8 : BlockFormat := ⟨⟨1, 1, 32, by decide, by decide, by decide, by decide, by decide⟩, 4, by decide, rfl⟩

def twoLevels (data : ℕ → UInt8) : KtxTexture :=
  ⟨⟨2, 1, 1, 2, 1, 1, false, by decide, by decide, by decide, by decide, by decide, by decide, fun h => nomatch h⟩, rgba8,
    fun mip _ _ => if mip = 0 then 4 else 0, data, by decide⟩

def sameFormat (source : BlockFormat) : UploadLayout source := ⟨source, false, fun _ => rfl, nofun, nofun⟩

lemma twoLevels_accepted (data : ℕ → UInt8) : (twoLevels data).Accepted where
  faces := rfl
  images := (by decide : ∀ mip < 2, imageSize rgba8.info 2 1 1 mip = textureImageSize rgba8.info 2 1 1 mip)
  total := by
    have extent : ((twoLevels data).toKtxExtent) = (twoLevels fun _ => 0).toKtxExtent := rfl
    have size : ∀ mip, (twoLevels data).getImageSize mip = imageSize rgba8.info 2 1 1 mip := fun mip => rfl
    have format : (twoLevels data).format = rgba8 := rfl
    have slices : (twoLevels data).arraySize = 1 := rfl
    simp only [extent, size, format, slices]
    decide

/-- A white texture is right in every build. -/
theorem staging_agrees_iff_white : (twoLevels fun _ => 255).Agrees (sameFormat rgba8) true ∧
    (twoLevels fun _ => 255).Agrees (sameFormat rgba8) false := by
  have both := (staging_agrees_iff (twoLevels fun _ => 255) (sameFormat rgba8) (twoLevels_accepted _)).mpr
    fun _ _ _ _ _ _ _ _ => rfl
  exact ⟨both true, both false⟩

/-- Others get the mip level in place of the texture. -/
theorem not_staging_agrees : ¬ ∀ (f : KtxTexture) (layout : UploadLayout f.format), f.Accepted →
    ∀ assertions, f.Agrees layout assertions := by
  intro claim
  have agrees := claim (twoLevels UInt8.ofNat) (sameFormat rgba8) (twoLevels_accepted _) false
  have same := (agrees_iff (twoLevels_accepted _)).mp agrees 0 (by decide) 0 (by decide) 0 (by decide)
  exact absurd same (by decide)

end KtxTexture

end PulseEngine.Graphics
