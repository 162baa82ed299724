import PulseEngine.Renderer.UboBlocks

/-!
# Uniform blocks do not overlap as long as no sum wraps

Which block of the cache is handed out (`acquire_spec`), which block of a view is used (`findBlock_some`), and the
invariant of the frames (`UboState.Inv`). A frame is good after every allocation exactly when no sum wraps
(`always_good_iff`).
-/

namespace PulseEngine.Renderer

open Library

namespace UboBlockCache

variable {heap : Heap} {size frameIndex i k : ℕ} {blocks : List CachedUboBlock} {c : CachedUboBlock}

def Free (size : ℕ) (blocks : List CachedUboBlock) (k : ℕ) (c : CachedUboBlock) : Prop :=
  blocks[k]? = some c ∧ c.inUse = false ∧ size ≤ c.size

lemma best_spec {all : List CachedUboBlock} {found : Option (ℕ × CachedUboBlock)} (rest : all.drop i = blocks)
    (free : ∀ j c, found = some (j, c) → Free size all j c) (h : best size i found blocks = some (k, c)) :
    Free size all k c := by
  induction blocks generalizing i found with
  | nil => exact free k c h
  | cons block blocks ih =>
    have tail : all.drop (i + 1) = blocks := by rw [← List.tail_drop, rest, List.tail_cons]
    have here : all[i]? = some block := by rw [← List.head?_drop, rest, List.head?_cons]
    refine ih tail (fun j c hj => ?_) h
    split at hj
    · exact free j c hj
    · rename_i can
      rw [not_or, Bool.not_eq_true, not_lt] at can
      cases found with
      | none =>
        cases hj
        exact ⟨here, can⟩
      | some found =>
        rw [better] at hj
        split at hj
        · cases hj
          exact ⟨here, can⟩
        · exact free j c hj

/-- What the cache is after a block was handed out: the block is in use, and every other one that is in use stays. -/
structure Acquired (size : ℕ) (before after : List CachedUboBlock) (r : ByteRange) (k : ℕ) : Prop where
  block : ∃ c, after[k]? = some c ∧ c.inUse = true ∧ c.range = r
  fits : size ≤ r.size
  stays : ∀ l c, before[l]? = some c → c.inUse = true → l ≠ k ∧ after[l]? = some c
  apart : (before.map CachedUboBlock.range).Pairwise ByteRange.Apart →
    (after.map CachedUboBlock.range).Pairwise ByteRange.Apart
  small : size < 2 ^ 32 → (∀ c ∈ before, c.size < 2 ^ 32) → ∀ c ∈ after, c.size < 2 ^ 32

variable (heap size frameIndex blocks) in
lemma acquire_spec : ∃ k, Acquired size blocks (acquire heap size frameIndex blocks).1
    ⟨(acquire heap size frameIndex blocks).2.1, (acquire heap size frameIndex blocks).2.2⟩ k := by
  cases h : best size 0 none blocks with
  | some found =>
    obtain ⟨k, c⟩ := found
    have none : ∀ j c, (none : Option (ℕ × CachedUboBlock)) = some (j, c) → Free size blocks j c := fun _ _ h => by cases h
    obtain ⟨here, free, fits⟩ := best_spec rfl none h
    have result : acquire heap size frameIndex blocks =
        (blocks.set k { c with inUse := true, lastUsedFrame := frameIndex }, c.data, c.size) := by
      rw [acquire, h]
    obtain ⟨lt, rfl⟩ := List.getElem?_eq_some_iff.mp here
    rw [result]
    refine ⟨k, ⟨_, List.getElem?_set_self lt, rfl, rfl⟩, fits, fun l c' hl used => ?_, fun apart => ?_, fun _ small c' hc => ?_⟩
    · have ne : l ≠ k := by
        rintro rfl
        rw [here] at hl
        cases hl
        rw [free] at used
        cases used
      exact ⟨ne, by rw [List.getElem?_set_ne ne.symm, hl]⟩
    · have same : (blocks.set k { blocks[k] with inUse := true, lastUsedFrame := frameIndex }).map CachedUboBlock.range =
          blocks.map CachedUboBlock.range := by
        rw [List.map_set]
        change (blocks.map CachedUboBlock.range).set k blocks[k].range = _
        rw [← List.getElem_map CachedUboBlock.range (h := by rwa [List.length_map]), List.set_getElem_self]
      rwa [same]
    · rcases List.mem_or_eq_of_mem_set hc with hc | rfl
      · exact small c' hc
      · exact small blocks[k] (List.getElem_mem lt)
  | none =>
    have result : acquire heap size frameIndex blocks =
        (blocks ++ [⟨heap.new (blocks.map CachedUboBlock.range) (if size > kMinBlockSize then size else kMinBlockSize),
          if size > kMinBlockSize then size else kMinBlockSize, frameIndex, true⟩],
          heap.new (blocks.map CachedUboBlock.range) (if size > kMinBlockSize then size else kMinBlockSize),
          if size > kMinBlockSize then size else kMinBlockSize) := by
      rw [acquire, h]
    rw [result]
    refine ⟨blocks.length, ⟨_, List.getElem?_concat_length, rfl, rfl⟩, ?_, fun l c' hl used => ?_, fun apart => ?_,
      fun lt small c' hc => ?_⟩
    · change size ≤ if size > kMinBlockSize then size else kMinBlockSize
      split <;> omega
    · have lt := (List.getElem?_eq_some_iff.mp hl).1
      exact ⟨lt.ne, by rw [List.getElem?_append_left lt, hl]⟩
    · rw [List.map_append]
      refine List.pairwise_append.mpr ⟨apart, List.pairwise_singleton _ _, fun r hr r' hr' => ?_⟩
      obtain rfl := List.mem_singleton.mp hr'
      exact heap.apart _ _ r hr
    · rcases List.mem_append.mp hc with hc | hc
      · exact small c' hc
      · obtain rfl := List.mem_singleton.mp hc
        change (if size > kMinBlockSize then size else kMinBlockSize) < 2 ^ 32
        split
        · exact lt
        · decide

end UboBlockCache

section blocks

variable {alignedSize i : ℕ} {blocks : List GpuBlock} {b : GpuBlock}

lemma findBlock_none (h : findBlock alignedSize blocks = none) {j : ℕ} {b' : GpuBlock} (hj : blocks[j]? = some b') :
    b'.size < (b'.used + alignedSize) % 2 ^ 32 := by
  induction blocks generalizing j with
  | nil => cases hj
  | cons block blocks ih =>
    rw [findBlock] at h
    cases hf : findBlock alignedSize blocks with
    | some found =>
      rw [hf] at h
      cases h
    | none =>
      rw [hf] at h
      cases j with
      | zero =>
        cases hj
        by_contra room
        have h : (if b'.size ≥ (b'.used + alignedSize) % 2 ^ 32 then some (0, b') else none) = none := h
        rw [if_pos (not_lt.mp room)] at h
        cases h
      | succ j => exact ih hf hj

lemma findBlock_some (h : findBlock alignedSize blocks = some (i, b)) :
    blocks[i]? = some b ∧ (b.used + alignedSize) % 2 ^ 32 ≤ b.size ∧
      ∀ j b', i < j → blocks[j]? = some b' → b'.size < (b'.used + alignedSize) % 2 ^ 32 := by
  induction blocks generalizing i with
  | nil => cases h
  | cons block blocks ih =>
    rw [findBlock] at h
    cases hf : findBlock alignedSize blocks with
    | some found =>
      rw [hf] at h
      cases h
      obtain ⟨here, room, last⟩ := ih hf
      refine ⟨here, room, fun j b' lt hj => ?_⟩
      cases j with
      | zero => exact absurd lt (Nat.not_lt_zero _)
      | succ j => exact last j b' (Nat.lt_of_succ_lt_succ lt) hj
    | none =>
      rw [hf] at h
      have h : (if block.size ≥ (block.used + alignedSize) % 2 ^ 32 then some (0, block) else none) = some (i, b) := h
      split at h
      · rename_i room
        cases h
        refine ⟨rfl, room, fun j b' lt hj => ?_⟩
        cases j with
        | zero => exact absurd lt (lt_irrefl _)
        | succ j => exact findBlock_none hf hj
      · cases h

end blocks

section rounding

variable {device : Device} {size : ℕ}

lemma alignUp_le_sum : alignUp 0 size device.uboAlignment ≤ size + device.uboAlignment - 1 := by
  have pos := device.pos
  unfold alignUp
  split
  · omega
  · rw [Nat.mod_zero]
    exact Nat.div_mul_le_self _ _

lemma alignUp_eq_exact (lt : size + device.uboAlignment - 1 < 2 ^ 32) :
    alignUp (2 ^ 32) size device.uboAlignment = alignUp 0 size device.uboAlignment := by
  unfold alignUp
  split
  · rfl
  · rw [Nat.mod_zero, Nat.mod_eq_of_lt lt]

lemma alignUp_wrapped (lt : size < 2 ^ 32) (le : 2 ^ 32 ≤ size + device.uboAlignment - 1) :
    alignUp (2 ^ 32) size device.uboAlignment = 0 := by
  have small := device.lt
  unfold alignUp
  split
  · omega
  · have wrapped : (size + device.uboAlignment - 1) % 2 ^ 32 < device.uboAlignment := by omega
    rw [Nat.div_eq_of_lt wrapped, Nat.zero_mul]

end rounding

namespace UboState

variable {heap : Heap} {device : Device} {views : List (List GpuBlock)} {blocks blocks' : List GpuBlock}
  {view v i : ℕ} {b : GpuBlock}

lemma blockAt_eq {b' : GpuBlock} (h : BlockAt views v i b) (h' : BlockAt views v i b') : b = b' := by
  obtain ⟨blocks, hv, hi⟩ := h
  obtain ⟨blocks', hv', hi'⟩ := h'
  rw [hv] at hv'
  cases hv'
  exact Option.some.inj (hi.symm.trans hi')

lemma blockAt_set (hv : views[view]? = some blocks) : BlockAt (views.set view blocks') v i b ↔
    (v = view ∧ blocks'[i]? = some b) ∨ (v ≠ view ∧ BlockAt views v i b) := by
  have lt := (List.getElem?_eq_some_iff.mp hv).1
  by_cases eq : v = view
  · subst eq
    rw [BlockAt, List.getElem?_set_self lt]
    constructor
    · rintro ⟨_, ⟨⟩, hi⟩
      exact .inl ⟨rfl, hi⟩
    · rintro (⟨-, hi⟩ | ⟨ne, -⟩)
      · exact ⟨_, rfl, hi⟩
      · exact absurd rfl ne
  · rw [BlockAt, List.getElem?_set_ne (Ne.symm eq)]
    constructor
    · exact fun h => .inr ⟨eq, h⟩
    · rintro (⟨rfl, -⟩ | ⟨-, h⟩)
      · exact absurd rfl eq
      · exact h

lemma blockAt_other (hv : views[view]? = some blocks) (same : ∀ j, j ≠ i → blocks'[j]? = blocks[j]?) {v' i' : ℕ}
    (ne : (v', i') ≠ (view, i)) : BlockAt (views.set view blocks') v' i' b ↔ BlockAt views v' i' b := by
  rw [blockAt_set hv]
  by_cases eq : v' = view
  · subst eq
    have ne : i' ≠ i := fun h => ne (by rw [h])
    rw [same i' ne]
    constructor
    · intro h
      exact ⟨blocks, hv, (h.resolve_right fun h => h.1 rfl).2⟩
    · rintro ⟨blocks', hv', h⟩
      rw [hv] at hv'
      cases hv'
      exact .inl ⟨rfl, h⟩
  · exact ⟨fun h => (h.resolve_left fun h => eq h.1).2, fun h => .inr ⟨eq, h⟩⟩

lemma blockAt_append : BlockAt (views ++ [[]]) v i b ↔ BlockAt views v i b := by
  constructor
  · rintro ⟨blocks, hv, hi⟩
    by_cases lt : v < views.length
    · exact ⟨blocks, by rwa [List.getElem?_append_left lt] at hv, hi⟩
    · rw [List.getElem?_append_right (not_lt.mp lt)] at hv
      have empty := List.mem_singleton.mp (List.mem_of_getElem? hv)
      rw [empty] at hi
      cases hi
  · rintro ⟨blocks, hv, hi⟩
    exact ⟨blocks, by rw [List.getElem?_append_left (List.getElem?_eq_some_iff.mp hv).1, hv], hi⟩

structure Inv (device : Device) (s : UboState) : Prop where
  cache_apart : (s.cache.map CachedUboBlock.range).Pairwise ByteRange.Apart
  cache_lt : ∀ c ∈ s.cache, c.size < 2 ^ 32
  held : ∀ v i b, BlockAt s.views v i b → ∃ (k : ℕ) (c : CachedUboBlock), s.cache[k]? = some c ∧ c.inUse = true ∧ c.range = b.range
  distinct : ∀ v i b v' i' b', BlockAt s.views v i b → BlockAt s.views v' i' b' → (v, i) ≠ (v', i') →
    b.range.Apart b'.range
  used : ∀ v i b, BlockAt s.views v i b → b.used ≤ b.size ∧ device.uboAlignment ∣ b.used
  refs : ∀ r ∈ s.issued, ∃ b, BlockAt s.views r.view r.ref.index b ∧ device.uboAlignment ∣ r.ref.offset ∧
    r.size ≤ r.ref.size ∧ r.ref.offset + r.ref.size ≤ b.used ∧ r.ref.ptr = b.cpuData + r.ref.offset
  refs_apart : s.issued.Pairwise fun r r' => r.ref.range.Apart r'.ref.range

variable {s : UboState}

lemma Inv.good (inv : Inv device s) : Good device s := by
  refine ⟨fun r hr => ?_, inv.refs_apart, inv.distinct, fun v i b hb => ?_⟩
  · obtain ⟨b, hb, aligned, size, inside, ptr⟩ := inv.refs r hr
    exact ⟨b, hb, aligned, size, inside.trans (inv.used _ _ _ hb).1, ptr⟩
  · obtain ⟨k, c, hk, used, range⟩ := inv.held v i b hb
    exact ⟨c, List.mem_of_getElem? hk, used, range⟩

lemma Inv.size_lt (inv : Inv device s) (hb : BlockAt s.views v i b) : b.size < 2 ^ 32 := by
  obtain ⟨k, c, hk, -, range⟩ := inv.held v i b hb
  have size : c.size = b.size := congrArg ByteRange.size range
  exact size ▸ inv.cache_lt c (List.mem_of_getElem? hk)

lemma inv_init : Inv device init := by
  have none : ∀ v i b, ¬ BlockAt init.views v i b := by
    rintro v i b ⟨blocks, hv, -⟩
    cases hv
  refine ⟨.nil, fun c hc => ?_, fun v i b hb => (none v i b hb).elim, fun v i b _ _ _ hb => (none v i b hb).elim,
    fun v i b hb => (none v i b hb).elim, fun r hr => ?_, .nil⟩
  · cases hc
  · cases hr

lemma cache_frame {cache : List CachedUboBlock} (frameIndex : ℕ)
    (apart : (cache.map CachedUboBlock.range).Pairwise ByteRange.Apart) (small : ∀ c ∈ cache, c.size < 2 ^ 32) :
    ((UboBlockCache.releaseIdle frameIndex (UboBlockCache.frameEnd cache)).map CachedUboBlock.range).Pairwise
        ByteRange.Apart ∧
      ∀ c ∈ UboBlockCache.releaseIdle frameIndex (UboBlockCache.frameEnd cache), c.size < 2 ^ 32 := by
  have same : (UboBlockCache.frameEnd cache).map CachedUboBlock.range = cache.map CachedUboBlock.range := by
    rw [UboBlockCache.frameEnd, List.map_map]
    rfl
  refine ⟨(same ▸ apart).sublist (List.filter_sublist.map _), fun c hc => ?_⟩
  obtain ⟨c', hc', rfl⟩ := List.mem_map.mp (List.mem_of_mem_filter hc)
  exact small c' hc'

variable (heap) in
lemma inv_frame (apart : (s.cache.map CachedUboBlock.range).Pairwise ByteRange.Apart)
    (small : ∀ c ∈ s.cache, c.size < 2 ^ 32) (frameIndex : UInt32) :
    Inv device (s.step heap device (.frame frameIndex)) := by
  have none : ∀ v i b, ¬ BlockAt (s.step heap device (.frame frameIndex)).views v i b := by
    rintro v i b ⟨blocks, hv, -⟩
    cases hv
  obtain ⟨apart, small⟩ := cache_frame frameIndex.toNat apart small
  exact ⟨apart, small, fun v i b hb => (none v i b hb).elim, fun v i b _ _ _ hb => (none v i b hb).elim,
    fun v i b hb => (none v i b hb).elim, List.forall_mem_nil _, .nil⟩

variable (heap) in
lemma Inv.view_step (inv : Inv device s) : Inv device (s.step heap device .view) := by
  refine ⟨inv.cache_apart, inv.cache_lt, fun v i b hb => ?_, fun v i b v' i' b' hb hb' ne => ?_, fun v i b hb => ?_,
    fun r hr => ?_, inv.refs_apart⟩
  · exact inv.held v i b (blockAt_append.mp hb)
  · exact inv.distinct v i b v' i' b' (blockAt_append.mp hb) (blockAt_append.mp hb') ne
  · exact inv.used v i b (blockAt_append.mp hb)
  · obtain ⟨b, hb, rest⟩ := inv.refs r hr
    exact ⟨b, blockAt_append.mpr hb, rest⟩

structure Taken (device : Device) (size : ℕ) (block : GpuBlock) (ref : GpuBlockRef) : Prop where
  offset_dvd : device.uboAlignment ∣ ref.offset
  used_dvd : device.uboAlignment ∣ block.used
  fits : size ≤ ref.size
  used : block.used = ref.offset + ref.size
  room : block.used ≤ block.size
  ptr : ref.ptr = block.cpuData + ref.offset

lemma apart_of_pairwise {cache : List CachedUboBlock} (apart : (cache.map CachedUboBlock.range).Pairwise ByteRange.Apart)
    {k l : ℕ} {c c' : CachedUboBlock} (ne : k ≠ l) (hk : cache[k]? = some c) (hl : cache[l]? = some c') :
    c.range.Apart c'.range := by
  obtain ⟨ltk, rfl⟩ := List.getElem?_eq_some_iff.mp hk
  obtain ⟨ltl, rfl⟩ := List.getElem?_eq_some_iff.mp hl
  have all := List.pairwise_iff_getElem.mp (List.pairwise_map.mp apart)
  rcases Nat.lt_or_gt_of_ne ne with lt | gt
  · exact all k l ltk ltl lt
  · exact (all l k ltl ltk gt).symm

/-- **A reference is returned** to memory that no other block has and that was not used before. -/
lemma Inv.issue (inv : Inv device s) {cache : List CachedUboBlock} {views' : List (List GpuBlock)} {size : ℕ}
    (grown : GpuBlock) {ref : GpuBlockRef} (taken : Taken device size grown ref)
    (here : BlockAt views' view ref.index grown)
    (other : ∀ {v' i' b'}, (v', i') ≠ (view, ref.index) → (BlockAt views' v' i' b' ↔ BlockAt s.views v' i' b'))
    (before : ∀ {b}, BlockAt s.views view ref.index b → b.range = grown.range ∧ b.used ≤ ref.offset)
    (apart : ∀ {v' i' b'}, (v', i') ≠ (view, ref.index) → BlockAt s.views v' i' b' → b'.range.Apart grown.range)
    (cache_apart : (cache.map CachedUboBlock.range).Pairwise ByteRange.Apart) (cache_lt : ∀ c ∈ cache, c.size < 2 ^ 32)
    (held : ∀ {v' i' b'}, BlockAt views' v' i' b' →
      ∃ (k : ℕ) (c : CachedUboBlock), cache[k]? = some c ∧ c.inUse = true ∧ c.range = b'.range) :
    Inv device ⟨cache, views', s.issued ++ [⟨view, size, ref⟩], s.frameIndex⟩ := by
  refine ⟨cache_apart, cache_lt, fun _ _ _ => held, ?distinct, ?used, ?refs, ?refs_apart⟩
  case distinct =>
    intro v₁ i₁ b₁ v₂ i₂ b₂ h₁ h₂ ne
    by_cases eq₁ : (v₁, i₁) = (view, ref.index)
    · have ne₂ : (v₂, i₂) ≠ (view, ref.index) := fun h => ne (eq₁.trans h.symm)
      cases eq₁
      obtain rfl := blockAt_eq here h₁
      exact (apart ne₂ ((other ne₂).mp h₂)).symm
    · by_cases eq₂ : (v₂, i₂) = (view, ref.index)
      · cases eq₂
        obtain rfl := blockAt_eq here h₂
        exact apart eq₁ ((other eq₁).mp h₁)
      · exact inv.distinct _ _ _ _ _ _ ((other eq₁).mp h₁) ((other eq₂).mp h₂) ne
  case used =>
    intro v' i' b' h
    by_cases eq : (v', i') = (view, ref.index)
    · cases eq
      obtain rfl := blockAt_eq here h
      exact ⟨taken.room, taken.used_dvd⟩
    · exact inv.used v' i' b' ((other eq).mp h)
  case refs =>
    intro r hr
    rcases List.mem_append.mp hr with hr | hr
    · obtain ⟨b, hb, aligned, fits, inside, ptr⟩ := inv.refs r hr
      by_cases eq : (r.view, r.ref.index) = (view, ref.index)
      · -- The block of an old reference grows.
        have atView : BlockAt s.views view ref.index b := by
          have hv : r.view = view := congrArg Prod.fst eq
          have hi : r.ref.index = ref.index := congrArg Prod.snd eq
          rwa [hv, hi] at hb
        obtain ⟨range, used⟩ := before atView
        have data : b.cpuData = grown.cpuData := congrArg ByteRange.offset range
        have more := taken.used
        refine ⟨grown, ?_, aligned, fits, by omega, data ▸ ptr⟩
        have hv : r.view = view := congrArg Prod.fst eq
        have hi : r.ref.index = ref.index := congrArg Prod.snd eq
        rwa [hv, hi]
      · exact ⟨b, (other eq).mpr hb, aligned, fits, inside, ptr⟩
    · obtain rfl := List.mem_singleton.mp hr
      exact ⟨grown, here, taken.offset_dvd, taken.fits, taken.used.ge, taken.ptr⟩
  case refs_apart =>
    refine List.pairwise_append.mpr ⟨inv.refs_apart, List.pairwise_singleton _ _, fun r hr r' hr' => ?_⟩
    obtain rfl := List.mem_singleton.mp hr'
    obtain ⟨b, hb, -, -, inside, ptr⟩ := inv.refs r hr
    have room := (inv.used _ _ _ hb).1
    have more := taken.used
    have full := taken.room
    have start := taken.ptr
    by_cases eq : (r.view, r.ref.index) = (view, ref.index)
    · have atView : BlockAt s.views view ref.index b := by
        have hv : r.view = view := congrArg Prod.fst eq
        have hi : r.ref.index = ref.index := congrArg Prod.snd eq
        rwa [hv, hi] at hb
      obtain ⟨range, used⟩ := before atView
      have data : b.cpuData = grown.cpuData := congrArg ByteRange.offset range
      refine ByteRange.apart_of_le ?_
      change r.ref.ptr + r.ref.size ≤ ref.ptr
      omega
    · refine (apart eq hb).mono ⟨?_, ?_⟩ ⟨?_, ?_⟩
      · change b.cpuData ≤ r.ref.ptr
        omega
      · change r.ref.ptr + r.ref.size ≤ b.cpuData + b.size
        omega
      · change grown.cpuData ≤ ref.ptr
        omega
      · change ref.ptr + ref.size ≤ grown.cpuData + grown.size
        omega

def grown (b : GpuBlock) (n : ℕ) : GpuBlock := { b with used := b.used + n }

lemma step_found {size : UInt32} {n : ℕ} (hv : s.views[view]? = some blocks)
    (exact : alignUp (2 ^ 32) size.toNat device.uboAlignment = n) (hf : findBlock n blocks = some (i, b)) :
    s.step heap device (.alloc view size) = ⟨s.cache, s.views.set view (blocks.set i
      { b with used := (b.used + n) % 2 ^ 32 }), s.issued ++ [⟨view, size.toNat, ⟨i, b.used, n, b.cpuData + b.used⟩⟩],
      s.frameIndex⟩ := by
  rw [step, hv]
  dsimp only
  rw [allocUboBlock, exact, hf]

lemma step_acquired {size : UInt32} {n : ℕ} (hv : s.views[view]? = some blocks)
    (exact : alignUp (2 ^ 32) size.toNat device.uboAlignment = n) (hf : findBlock n blocks = none)
    {cache : List CachedUboBlock} {data blockSize : ℕ}
    (ha : UboBlockCache.acquire heap n s.frameIndex s.cache = (cache, data, blockSize)) :
    s.step heap device (.alloc view size) = ⟨cache, s.views.set view (blocks ++ [⟨blockSize, n, data⟩]),
      s.issued ++ [⟨view, size.toNat, ⟨blocks.length, 0, n, data⟩⟩], s.frameIndex⟩ := by
  rw [step, hv]
  dsimp only
  rw [allocUboBlock, exact, hf]
  dsimp only
  rw [ha]

lemma Inv.alloc_step (inv : Inv device s) {size : UInt32} (hv : s.views[view]? = some blocks)
    (safe : Safe device s (.alloc view size)) : Inv device (s.step heap device (.alloc view size)) := by
  obtain ⟨sum, room⟩ := safe blocks hv
  have exact : alignUp (2 ^ 32) size.toNat device.uboAlignment = alignUp 0 size.toNat device.uboAlignment :=
    alignUp_eq_exact sum
  have fits : size.toNat ≤ alignUp 0 size.toNat device.uboAlignment := le_alignUp _ _
  have dvd : device.uboAlignment ∣ alignUp 0 size.toNat device.uboAlignment := dvd_alignUp_of_pos device.pos
  have small : alignUp 0 size.toNat device.uboAlignment < 2 ^ 32 :=
    alignUp_le_sum.trans_lt sum
  generalize alignUp 0 size.toNat device.uboAlignment = n at *
  cases hf : findBlock n blocks with
  | some found =>
    obtain ⟨i, b⟩ := found
    obtain ⟨hb, le, last⟩ := findBlock_some hf
    have hbv : BlockAt s.views view i b := ⟨blocks, hv, hb⟩
    obtain ⟨used, used_dvd⟩ := inv.used _ _ _ hbv
    -- A block whose sum wraps has room behind it, where the loop would have ended.
    have unwrapped : b.used + n < 2 ^ 32 := by
      by_contra wraps
      obtain ⟨j, b', later, hj, enough⟩ := room i b hb (not_lt.mp wraps)
      have full := last j b' later hj
      have lt' := inv.size_lt ⟨blocks, hv, hj⟩
      rw [Nat.mod_eq_of_lt (by omega)] at full
      omega
    rw [Nat.mod_eq_of_lt unwrapped] at le
    have here : BlockAt (s.views.set view (blocks.set i (grown b n))) view i (grown b n) :=
      (blockAt_set hv).mpr (.inl ⟨rfl, List.getElem?_set_self (List.getElem?_eq_some_iff.mp hb).1⟩)
    have other : ∀ {v' i' b'}, (v', i') ≠ (view, i) →
        (BlockAt (s.views.set view (blocks.set i (grown b n))) v' i' b' ↔ BlockAt s.views v' i' b') :=
      fun ne => blockAt_other hv (fun j ne => List.getElem?_set_ne ne.symm) ne
    rw [step_found hv exact hf, Nat.mod_eq_of_lt unwrapped]
    refine inv.issue (grown b n) ⟨used_dvd, (Nat.dvd_add_right used_dvd).mpr dvd, fits, rfl, le, rfl⟩ here other
      (fun hb' => ?_) (fun {v' i' b'} ne hb' => ?_) inv.cache_apart inv.cache_lt (fun {v' i' b'} hb' => ?_)
    · obtain rfl := blockAt_eq hbv hb'
      exact ⟨rfl, le_rfl⟩
    · have apart : b'.range.Apart b.range := inv.distinct _ _ _ _ _ _ hb' hbv ne
      exact apart
    · by_cases eq : (v', i') = (view, i)
      · cases eq
        obtain rfl := blockAt_eq here hb'
        obtain held := inv.held _ _ _ hbv
        exact held
      · exact inv.held _ _ _ ((other eq).mp hb')
  | none =>
    obtain ⟨k, acquired⟩ := UboBlockCache.acquire_spec heap n s.frameIndex s.cache
    cases ha : UboBlockCache.acquire heap n s.frameIndex s.cache with
    | mk cache rest =>
      obtain ⟨data, blockSize⟩ := rest
      rw [ha] at acquired
      obtain ⟨c, hc, used, range⟩ := acquired.block
      have here : BlockAt (s.views.set view (blocks ++ [⟨blockSize, n, data⟩])) view blocks.length ⟨blockSize, n, data⟩ :=
        (blockAt_set hv).mpr (.inl ⟨rfl, List.getElem?_concat_length⟩)
      have new : ∀ {b'}, ¬ BlockAt s.views view blocks.length b' := by
        rintro b' ⟨blocks', hv', h⟩
        rw [hv] at hv'
        cases hv'
        exact lt_irrefl _ (List.getElem?_eq_some_iff.mp h).1
      have other : ∀ {v' i' b'}, (v', i') ≠ (view, blocks.length) →
          (BlockAt (s.views.set view (blocks ++ [⟨blockSize, n, data⟩])) v' i' b' ↔ BlockAt s.views v' i' b') := by
        refine fun ne => blockAt_other hv (fun j ne => ?_) ne
        rcases Nat.lt_or_gt_of_ne ne with lt | gt
        · exact List.getElem?_append_left lt
        · rw [List.getElem?_eq_none gt.le, List.getElem?_eq_none (by rw [List.length_append, List.length_singleton]; omega)]
      rw [step_acquired hv exact hf ha]
      refine inv.issue ⟨blockSize, n, data⟩ ⟨dvd_zero _, dvd, fits, (Nat.zero_add n).symm, acquired.fits, rfl⟩
        here other (fun hb' => (new hb').elim) (fun {v' i' b'} ne hb' => ?_) (acquired.apart inv.cache_apart)
        (acquired.small small inv.cache_lt) (fun {v' i' b'} hb' => ?_)
      · -- The block that was handed out was not in use, and every block of a view is.
        obtain ⟨l, c', hl, used', range'⟩ := inv.held _ _ _ hb'
        obtain ⟨ne, stays⟩ := acquired.stays l c' hl used'
        have apart := apart_of_pairwise (acquired.apart inv.cache_apart) ne stays hc
        rw [range, range'] at apart
        exact apart
      · by_cases eq : (v', i') = (view, blocks.length)
        · cases eq
          obtain rfl := blockAt_eq here hb'
          exact ⟨k, c, hc, used, range⟩
        · obtain ⟨l, c', hl, used', range'⟩ := inv.held _ _ _ ((other eq).mp hb')
          exact ⟨l, c', (acquired.stays l c' hl used').2, used', range'⟩

variable (heap) in
lemma Inv.step (inv : Inv device s) {action : UboAction} (safe : Safe device s action) :
    Inv device (s.step heap device action) := by
  cases action with
  | frame frameIndex => exact inv_frame heap inv.cache_apart inv.cache_lt frameIndex
  | view => exact inv.view_step heap
  | alloc view size =>
    cases hv : s.views[view]? with
    | none =>
      have same : s.step heap device (.alloc view size) = s := by rw [UboState.step, hv]
      rwa [same]
    | some blocks => exact inv.alloc_step hv safe

lemma Good.last {r : Issued} (good : Good device s) (h : s.issued.getLast? = some r) :
    r.size ≤ r.ref.size ∧ ∃ b, BlockAt s.views r.view r.ref.index b ∧ r.ref.offset + r.ref.size ≤ b.size := by
  obtain ⟨b, hb, -, size, inside, -⟩ := good.inside r (List.mem_of_getLast? h)
  exact ⟨size, b, hb, inside⟩

/-- **A sum that wraps** gives a reference that is too small, or one that leaves its block. -/
lemma not_good_of_wraps (inv : Inv device s) {size : UInt32} (wrapped : ¬ Safe device s (.alloc view size)) :
    ¬ Good device (s.step heap device (.alloc view size)) := by
  intro good
  refine wrapped fun blocks hv => ?_
  have lt : size.toNat < 2 ^ 32 := size.toNat_lt
  -- The reference of this step is as large as the size that is rounded up in 32 bits.
  have sum : size.toNat + device.uboAlignment - 1 < 2 ^ 32 := by
    by_contra wraps
    have zero := alignUp_wrapped lt (not_lt.mp wraps)
    have small := device.lt
    have fits : size.toNat ≤ 0 := by
      cases hf : findBlock 0 blocks with
      | some found =>
        rw [step_found hv zero hf] at good
        exact (good.last List.getLast?_concat).1
      | none =>
        rw [step_acquired hv zero hf rfl] at good
        exact (good.last List.getLast?_concat).1
    omega
  refine ⟨sum, fun i b hb wraps => ?_⟩
  have exact := alignUp_eq_exact sum
  have small : alignUp 0 size.toNat device.uboAlignment < 2 ^ 32 := alignUp_le_sum.trans_lt sum
  generalize alignUp 0 size.toNat device.uboAlignment = n at *
  have used := (inv.used _ _ _ ⟨blocks, hv, hb⟩).1
  cases hf : findBlock n blocks with
  | none =>
    have full := findBlock_none hf hb
    omega
  | some found =>
    obtain ⟨j, b'⟩ := found
    obtain ⟨hj, room, last⟩ := findBlock_some hf
    have lt' := inv.size_lt ⟨blocks, hv, hj⟩
    have le : i ≤ j := by
      by_contra before
      have full := last i b (not_le.mp before) hb
      omega
    rw [step_found hv exact hf] at good
    obtain ⟨-, c, ⟨blocks', hv', hc⟩, inside⟩ := good.last List.getLast?_concat
    rw [List.getElem?_set_self (List.getElem?_eq_some_iff.mp hv).1] at hv'
    cases hv'
    rw [List.getElem?_set_self (List.getElem?_eq_some_iff.mp hj).1] at hc
    cases hc
    have inside : b'.used + n ≤ b'.size := inside
    have ne : i ≠ j := by
      rintro rfl
      rw [hb] at hj
      cases hj
      have lt := inv.size_lt ⟨blocks, hv, hb⟩
      omega
    exact ⟨j, b', lt_of_le_of_ne le ne, hj, inside⟩

def next (heap : Heap) (device : Device) (s : UboState) (action : UboAction) : Option UboState :=
  some (s.step heap device action)

variable (heap device s) in
lemma run_next (actions : List UboAction) : ∃ s', run (next heap device) s actions = some s' := by
  induction actions generalizing s with
  | nil => exact ⟨s, rfl⟩
  | cons action actions ih => exact ih _

end UboState

/-- **The blocks of all frames are good** after every action if and only if no sum wraps. -/
theorem always_good_iff (heap : Heap) (device : Device) (actions : List UboAction) :
    Along (UboState.next heap device) (fun s action => (s.step heap device action).Good device) UboState.init actions ↔
      Along (UboState.next heap device) (UboState.Safe device) UboState.init actions := by
  obtain ⟨s', run⟩ := UboState.run_next heap device UboState.init actions
  refine (along_iff (I := UboState.Inv device) (fun s action s' inv step => ?_) UboState.inv_init run).symm
  cases step
  refine ⟨⟨fun safe => (inv.step heap safe).good, fun good => ?_⟩, fun safe => inv.step heap safe⟩
  cases action with
  | frame frameIndex => trivial
  | view => trivial
  | alloc view size =>
    by_contra wraps
    exact UboState.not_good_of_wraps inv wraps good

def Heap.bump : Heap where
  new live _ := (live.map ByteRange.stop).foldr max 0
  apart live _ r hr := by
    refine ByteRange.apart_of_le ?_
    induction live with
    | nil => cases hr
    | cons head live ih =>
      rw [List.map_cons, List.foldr_cons]
      rcases List.mem_cons.mp hr with rfl | hr
      · exact le_max_left _ _
      · exact (ih hr).trans (le_max_right _ _)

def Device.usual : Device := ⟨256, by decide, by decide⟩

def wrappingRun : List UboAction := [.frame 1, .view, .alloc 0 256, .alloc 0 4294967040]

/-- The sum of the two is zero, so that the second one is put into the same block. -/
theorem not_always_good : ¬ Along (UboState.next .bump .usual) (fun s action => (s.step .bump .usual action).Good .usual)
    UboState.init wrappingRun := by
  intro along
  have good := (((along.2 _ rfl).2 _ rfl).2 _ rfl).1
  obtain ⟨-, b, ⟨blocks, hv, hb⟩, inside⟩ := good.last (r := ⟨0, 4294967040, ⟨0, 256, 4294967040, 256⟩⟩) (by decide +kernel)
  have views : (UboState.step .bump .usual (UboState.step .bump .usual (UboState.step .bump .usual (UboState.step .bump
      .usual UboState.init (.frame 1)) .view) (.alloc 0 256)) (.alloc 0 4294967040)).views = [[⟨1048576, 0, 0⟩]] := by
    decide +kernel
  rw [views] at hv
  cases hv
  cases hb
  have inside : 256 + 4294967040 ≤ 1048576 := inside
  omega

end PulseEngine.Renderer
