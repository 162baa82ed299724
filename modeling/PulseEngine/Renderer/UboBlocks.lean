import PulseEngine.Library.ByteRange
import PulseEngine.Library.Record
import PulseEngine.Library.Run

/-!
# Uniform blocks

`ubo_block_cache.cpp`, `alloc_ubo_block` of `ubo_columns.cpp` and what `build_views_system` does with both. An address
is a number. Sizes, offsets and frames are numbers of 32 bits, and sums of them wrap. The state keeps the references
that were returned since the views were made.
-/

namespace PulseEngine.Renderer

open Library

structure CachedUboBlock where
  data : ℕ
  size : ℕ
  lastUsedFrame : ℕ
  inUse : Bool
  deriving DecidableEq, Repr

/-- `GpuBlock`, without the handle that the render graph gives it. -/
structure GpuBlock where
  size : ℕ
  used : ℕ
  cpuData : ℕ
  deriving DecidableEq, Repr

structure GpuBlockRef where
  index : ℕ
  offset : ℕ
  size : ℕ
  ptr : ℕ
  deriving DecidableEq, Repr

def CachedUboBlock.range (block : CachedUboBlock) : ByteRange := ⟨block.data, block.size⟩

def GpuBlock.range (block : GpuBlock) : ByteRange := ⟨block.cpuData, block.size⟩

def GpuBlockRef.range (ref : GpuBlockRef) : ByteRange := ⟨ref.ptr, ref.size⟩

/-- Where `new` puts an array, apart from the ones that are not deleted. -/
structure Heap where
  new : List ByteRange → ℕ → ℕ
  apart : ∀ (live : List ByteRange) (size : ℕ), ∀ r ∈ live, r.Apart ⟨new live size, size⟩

/-- `ubo_alignment`, which is positive. -/
structure Device where
  uboAlignment : ℕ
  pos : 0 < uboAlignment
  lt : uboAlignment < 2 ^ 32

namespace UboBlockCache

def kMinBlockSize : ℕ := 1 * 1024 * 1024

def kMaxIdleFrames : ℕ := 60 * 5

/-- A block that is smaller than the best one so far. There are fewer blocks than an `int` can count. -/
def better (i : ℕ) (block : CachedUboBlock) : Option (ℕ × CachedUboBlock) → Option (ℕ × CachedUboBlock)
  | none => some (i, block)
  | some (best, least) => if block.size < least.size then some (i, block) else some (best, least)

/-- The loop of `acquire` from a position on: the smallest free block that is large enough, and the first one of
those. -/
def best (size : ℕ) : ℕ → Option (ℕ × CachedUboBlock) → List CachedUboBlock → Option (ℕ × CachedUboBlock)
  | _, found, [] => found
  | i, found, block :: blocks =>
    best size (i + 1) (if block.inUse = true ∨ block.size < size then found else better i block found) blocks

def acquire (heap : Heap) (size frameIndex : ℕ) (blocks : List CachedUboBlock) : List CachedUboBlock × ℕ × ℕ :=
  match best size 0 none blocks with
  | some (i, block) => (blocks.set i { block with inUse := true, lastUsedFrame := frameIndex }, block.data, block.size)
  | none =>
    let blockSize := if size > kMinBlockSize then size else kMinBlockSize
    let data := heap.new (blocks.map CachedUboBlock.range) blockSize
    (blocks ++ [⟨data, blockSize, frameIndex, true⟩], data, blockSize)

def frameEnd (blocks : List CachedUboBlock) : List CachedUboBlock := blocks.map fun block => { block with inUse := false }

def releaseIdle (currentFrame : ℕ) (blocks : List CachedUboBlock) : List CachedUboBlock :=
  blocks.filter fun block => ¬ (block.inUse = false ∧ currentFrame > block.lastUsedFrame ∧
    currentFrame - block.lastUsedFrame > kMaxIdleFrames)

end UboBlockCache

/-- The loop of `alloc_ubo_block`, from the last block on: the first one with room. The sum has 32 bits. -/
def findBlock (alignedSize : ℕ) : List GpuBlock → Option (ℕ × GpuBlock)
  | [] => none
  | block :: blocks =>
    match findBlock alignedSize blocks with
    | some (i, found) => some (i + 1, found)
    | none => if block.size ≥ (block.used + alignedSize) % 2 ^ 32 then some (0, block) else none

def allocUboBlock (heap : Heap) (device : Device) (frameIndex size : ℕ) (cache : List CachedUboBlock)
    (blocks : List GpuBlock) : List CachedUboBlock × List GpuBlock × GpuBlockRef :=
  let alignedSize := alignUp (2 ^ 32) size device.uboAlignment
  match findBlock alignedSize blocks with
  | some (i, block) =>
    (cache, blocks.set i { block with used := (block.used + alignedSize) % 2 ^ 32 },
      ⟨i, block.used, alignedSize, block.cpuData + block.used⟩)
  | none =>
    let (cache, data, blockSize) := UboBlockCache.acquire heap alignedSize frameIndex cache
    (cache, blocks ++ [⟨blockSize, alignedSize, data⟩], ⟨blocks.length, 0, alignedSize, data⟩)

structure Issued where
  view : ℕ
  size : ℕ
  ref : GpuBlockRef
  deriving DecidableEq, Repr

structure UboState where
  cache : List CachedUboBlock
  views : List (List GpuBlock)
  issued : List Issued
  frameIndex : ℕ
  deriving DecidableEq, Repr

/-- What happens to blocks: `build_views_system` begins a frame, makes a view, and something is allocated for a
view. -/
inductive UboAction where
  | frame (frameIndex : UInt32)
  | view
  | alloc (view : ℕ) (size : UInt32)
  deriving DecidableEq, Repr

namespace UboState

def init : UboState := ⟨[], [], [], 0⟩

def step (heap : Heap) (device : Device) (s : UboState) : UboAction → UboState
  | .frame frameIndex =>
    ⟨UboBlockCache.releaseIdle frameIndex.toNat (UboBlockCache.frameEnd s.cache), [], [], frameIndex.toNat⟩
  | .view => { s with views := s.views ++ [[]] }
  | .alloc view size =>
    match s.views[view]? with
    | none => s
    | some blocks =>
      let (cache, blocks, ref) := allocUboBlock heap device s.frameIndex size.toNat s.cache blocks
      { s with cache, views := s.views.set view blocks, issued := s.issued ++ [⟨view, size.toNat, ref⟩] }

def BlockAt (views : List (List GpuBlock)) (view index : ℕ) (block : GpuBlock) : Prop :=
  ∃ blocks, views[view]? = some blocks ∧ blocks[index]? = some block

/-- Every reference is aligned and has the size that was asked for inside its block, no two references share memory,
no two blocks do, and every block is one of the cache that is in use. -/
structure Good (device : Device) (s : UboState) : Prop where
  inside : ∀ r ∈ s.issued, ∃ block, BlockAt s.views r.view r.ref.index block ∧ device.uboAlignment ∣ r.ref.offset ∧
    r.size ≤ r.ref.size ∧ r.ref.offset + r.ref.size ≤ block.size ∧ r.ref.ptr = block.cpuData + r.ref.offset
  refs_apart : s.issued.Pairwise fun r r' => r.ref.range.Apart r'.ref.range
  blocks_apart : ∀ v i block v' i' block', BlockAt s.views v i block → BlockAt s.views v' i' block' →
    (v, i) ≠ (v', i') → block.range.Apart block'.range
  held : ∀ v i block, BlockAt s.views v i block →
    ∃ cached ∈ s.cache, cached.inUse = true ∧ cached.range = block.range

/-- No sum wraps: the size can be rounded up, and a block whose sum with it would wrap is not reached, as there is room
in one behind it. -/
def Safe (device : Device) (s : UboState) : UboAction → Prop
  | .frame _ | .view => True
  | .alloc view size => ∀ blocks, s.views[view]? = some blocks →
    size.toNat + device.uboAlignment - 1 < 2 ^ 32 ∧
    ∀ (i : ℕ) (block : GpuBlock), blocks[i]? = some block → 2 ^ 32 ≤ block.used + alignUp 0 size.toNat device.uboAlignment →
      ∃ (j : ℕ) (block' : GpuBlock), i < j ∧ blocks[j]? = some block' ∧
        block'.used + alignUp 0 size.toNat device.uboAlignment ≤ block'.size

end UboState

end PulseEngine.Renderer
