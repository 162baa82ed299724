import PulseEngine.Renderer.UboSafe
import PulseEngine.Renderer.UniformWrites

/-!
# Uniform data remembers what was in its blocks

A frame allocates the columns of its views in blocks of the cache, whose bytes are what earlier frames left there or what
`new` gave, and copies to them what the writers of the columns have. A column has the same bytes in all runs exactly when
every byte of it is written (`noMemory_iff`), up to the alignment, as a column is bound with the size that was rounded
up.
-/

namespace PulseEngine.Renderer

open Library

structure UniformState where
  ubo : UboState
  memory : ℕ → UInt8

/-- What happens to blocks and bytes: a frame begins, a view is made, and a column is allocated for a view and
written. -/
inductive UniformAction where
  | frame (frameIndex : UInt32)
  | view
  | column (view : ℕ) (request : ColumnRequest)

def UniformAction.ubo : UniformAction → UboAction
  | .frame frameIndex => .frame frameIndex
  | .view => .view
  | .column index request => .alloc index request.size

def ColumnRequest.aligned (device : Device) (request : ColumnRequest) : ℕ :=
  alignUp 0 request.size.toNat device.uboAlignment

namespace UniformState

def step (heap : Heap) (device : Device) (s : UniformState) : UniformAction → UniformState
  | .frame frameIndex => ⟨s.ubo.step heap device (.frame frameIndex), s.memory⟩
  | .view => ⟨s.ubo.step heap device .view, s.memory⟩
  | .column view request =>
    match s.ubo.views[view]? with
    | none => s
    | some blocks =>
      let (cache, blocks, ref) := allocUboBlock heap device s.ubo.frameIndex request.size.toNat s.ubo.cache blocks
      ⟨{ s.ubo with
          cache, views := s.ubo.views.set view blocks
          issued := s.ubo.issued ++ [⟨view, request.size.toNat, ref⟩] },
        request.writes.foldl (store ref.ptr) s.memory⟩

def columnBytes (s : UniformState) (k : ℕ) : Option (List UInt8) :=
  s.ubo.issued[k]?.map fun r => (List.range r.ref.size).map fun i => s.memory (r.ref.ptr + i)

end UniformState

/-- What `build_views_system` does with the views of a frame, whose number is the one of the view. -/
def frameActions (frame : List ViewInput) : List UniformAction :=
  frame.zipIdx.flatMap fun (view, index) => .view :: view.columns.map (.column index)

def frameColumns (frame : List ViewInput) : List ColumnRequest := frame.flatMap ViewInput.columns

/-- A run up to a frame: what is in memory that was never written, what happened before, and the number of the frame. -/
structure Run where
  memory : ℕ → UInt8
  earlier : List UniformAction
  frameIndex : UInt32

def Run.after (heap : Heap) (device : Device) (run : Run) (frame : List ViewInput) : UniformState :=
  (run.earlier ++ .frame run.frameIndex :: frameActions frame).foldl (UniformState.step heap device)
    ⟨UboState.init, run.memory⟩

def NoMemory (heap : Heap) (device : Device) (frame : List ViewInput) (bound : List ℕ) : Prop :=
  ∀ k ∈ bound, ∀ run run' : Run, (run.after heap device frame).columnBytes k = (run'.after heap device frame).columnBytes k

def Written (device : Device) (frame : List ViewInput) (bound : List ℕ) : Prop :=
  ∀ k ∈ bound, ∀ request, (frameColumns frame)[k]? = some request →
    ∀ i < request.aligned device, ∃ w ∈ request.writes, w.Holds i

def FitsViews (device : Device) (frame : List ViewInput) : Prop :=
  ∀ view ∈ frame, (∀ request ∈ view.columns, request.size.toNat + device.uboAlignment - 1 < 2 ^ 32) ∧
    (view.columns.map (ColumnRequest.aligned device)).sum < 2 ^ 32

instance {device : Device} {frame : List ViewInput} : Decidable (FitsViews device frame) :=
  inferInstanceAs (Decidable (∀ view ∈ frame, _ ∧ _))

variable {heap : Heap} {device : Device}

section blocks

variable {frameIndex size : ℕ} {cache : List CachedUboBlock} {blocks : List GpuBlock}

variable (heap device frameIndex size cache blocks) in
lemma allocUboBlock_size :
    (allocUboBlock heap device frameIndex size cache blocks).2.2.size = alignUp (2 ^ 32) size device.uboAlignment := by
  rw [allocUboBlock]
  dsimp only
  cases findBlock (alignUp (2 ^ 32) size device.uboAlignment) blocks <;> rfl

lemma allocUboBlock_used {load n : ℕ} (used : ∀ b ∈ blocks, b.used ≤ load)
    (exact : alignUp (2 ^ 32) size device.uboAlignment = n) {b : GpuBlock}
    (hb : b ∈ (allocUboBlock heap device frameIndex size cache blocks).2.1) : b.used ≤ load + n := by
  rw [allocUboBlock, exact] at hb
  dsimp only at hb
  cases hf : findBlock n blocks with
  | some found =>
    rw [hf] at hb
    rcases List.mem_or_eq_of_mem_set hb with hb | rfl
    · exact (used b hb).trans (Nat.le_add_right _ _)
    · have le := used _ (List.mem_of_getElem? (findBlock_some hf).1)
      exact (Nat.mod_le _ _).trans (Nat.add_le_add_right le n)
  | none =>
    rw [hf] at hb
    rcases List.mem_append.mp hb with hb | hb
    · exact (used b hb).trans (Nat.le_add_right _ _)
    · obtain rfl := List.mem_singleton.mp hb
      exact Nat.le_add_left n load

end blocks

namespace UboState

def viewLoad (issued : List Issued) (view : ℕ) : ℕ := ((issued.filter fun r => r.view = view).map fun r => r.ref.size).sum

lemma viewLoad_append {issued : List Issued} {view : ℕ} {r : Issued} :
    viewLoad (issued ++ [r]) view = viewLoad issued view + if r.view = view then r.ref.size else 0 := by
  rw [viewLoad, List.filter_append, List.map_append, List.sum_append, ← viewLoad, List.filter_cons, List.filter_nil]
  by_cases eq : r.view = view
  · rw [if_pos (decide_eq_true eq), if_pos eq]
    rfl
  · rw [if_neg (by rwa [decide_eq_true_eq]), if_neg eq]
    rfl

end UboState

namespace UniformState

variable {s : UniformState} {start : ℕ → UInt8} {columns : List ColumnRequest} {v : ℕ} {request : ColumnRequest}

lemma step_ubo (s : UniformState) (action : UniformAction) :
    (s.step heap device action).ubo = s.ubo.step heap device action.ubo := by
  cases action with
  | frame frameIndex => rfl
  | view => rfl
  | column v request =>
    rw [step, UniformAction.ubo, UboState.step]
    cases s.ubo.views[v]? <;> rfl

/-- What is kept while the columns of a frame are written: every column has the bytes that were written, and else the
bytes that were there when the frame began. -/
structure Built (device : Device) (start : ℕ → UInt8) (columns : List ColumnRequest) (s : UniformState) : Prop where
  inv : s.ubo.Inv device
  length : s.ubo.issued.length = columns.length
  column : ∀ (k : ℕ) (r : Issued), s.ubo.issued[k]? = some r → ∃ request, columns[k]? = some request ∧
    r.ref.size = request.aligned device ∧
      ∀ i < r.ref.size, s.memory (r.ref.ptr + i) = (lastWritten i request.writes).getD (start (r.ref.ptr + i))
  other : ∀ a, (∀ r ∈ s.ubo.issued, ¬ r.ref.range.Holds a) → s.memory a = start a
  load : ∀ v i b, UboState.BlockAt s.ubo.views v i b → b.used ≤ UboState.viewLoad s.ubo.issued v

variable (heap) in
lemma Built.view (built : Built device start columns s) :
    Built device start columns (s.step heap device .view) ∧
      UboState.viewLoad (s.step heap device .view).ubo.issued s.ubo.views.length = 0 := by
  refine ⟨⟨built.inv.view_step heap, built.length, built.column, built.other, fun v i b hb => ?_⟩, ?_⟩
  · exact built.load v i b (UboState.blockAt_append.mp hb)
  · have none : (s.ubo.issued.filter fun r => r.view = s.ubo.views.length) = [] := by
      refine List.filter_eq_nil_iff.mpr fun r hr => ?_
      obtain ⟨b, ⟨blocks, hv, -⟩, -⟩ := built.inv.refs r hr
      have lt := (List.getElem?_eq_some_iff.mp hv).1
      rw [decide_eq_true_eq]
      omega
    change ((s.ubo.issued.filter fun r => r.view = s.ubo.views.length).map fun r => r.ref.size).sum = 0
    rw [none]
    rfl

lemma Built.append (built : Built device start columns s) {ubo : UboState} {ref : GpuBlockRef} {n : ℕ}
    (inv : ubo.Inv device) (issued : ubo.issued = s.ubo.issued ++ [⟨v, n, ref⟩]) (size : ref.size = request.aligned device)
    (load : ∀ v i b, UboState.BlockAt ubo.views v i b → b.used ≤ UboState.viewLoad ubo.issued v) :
    Built device start (columns ++ [request]) ⟨ubo, request.writes.foldl (store ref.ptr) s.memory⟩ := by
  have fits : ∀ w ∈ request.writes, w.offset + w.values.length ≤ ref.size := fun w hw =>
    (request.inside w hw).trans (size ▸ le_alignUp _ _)
  have apart : ∀ r ∈ s.ubo.issued, r.ref.range.Apart ref.range := by
    have all := inv.refs_apart
    rw [issued] at all
    exact fun r hr => (List.pairwise_append.mp all).2.2 r hr _ List.mem_cons_self
  have last : ∀ a, ¬ ref.range.Holds a → request.writes.foldl (store ref.ptr) s.memory a = s.memory a :=
    fun a other => foldl_store_other fits other
  refine ⟨inv, ?_, fun k r hk => ?_, fun a ha => ?_, load⟩
  · rw [issued, List.length_append, List.length_append, built.length]
    rfl
  · rw [issued] at hk
    by_cases lt : k < s.ubo.issued.length
    · rw [List.getElem?_append_left lt] at hk
      obtain ⟨request', hcol, size', bytes⟩ := built.column k r hk
      refine ⟨request', by rw [List.getElem?_append_left (built.length ▸ lt), hcol], size', fun i hi => ?_⟩
      rw [← bytes i hi]
      refine last _ fun h => apart r (List.mem_of_getElem? hk) _ ⟨Nat.le_add_right _ _, ?_⟩ h
      exact Nat.add_lt_add_left hi _
    · have here : k = s.ubo.issued.length := by
        have inside := (List.getElem?_eq_some_iff.mp hk).1
        rw [List.length_append, List.length_singleton] at inside
        omega
      subst here
      rw [List.getElem?_concat_length] at hk
      cases hk
      refine ⟨request, by rw [built.length, List.getElem?_concat_length], size, fun i hi => ?_⟩
      change request.writes.foldl (store ref.ptr) s.memory (ref.ptr + i) = _
      rw [foldl_store_apply]
      refine congrArg _ (built.other _ fun r hr h => apart r hr _ h ⟨Nat.le_add_right _ _, ?_⟩)
      exact Nat.add_lt_add_left hi _
  · rw [issued] at ha
    change request.writes.foldl (store ref.ptr) s.memory a = start a
    rw [last a (ha _ (List.mem_append_right _ List.mem_cons_self))]
    exact built.other a fun r hr => ha r (List.mem_append_left _ hr)

variable (heap) in
lemma Built.write (built : Built device start columns s) (hv : v < s.ubo.views.length)
    (sum : request.size.toNat + device.uboAlignment - 1 < 2 ^ 32)
    (room : UboState.viewLoad s.ubo.issued v + request.aligned device < 2 ^ 32) :
    Built device start (columns ++ [request]) (s.step heap device (.column v request)) ∧
      UboState.viewLoad (s.step heap device (.column v request)).ubo.issued v =
        UboState.viewLoad s.ubo.issued v + request.aligned device ∧
      (s.step heap device (.column v request)).ubo.views.length = s.ubo.views.length := by
  have hblocks : s.ubo.views[v]? = some s.ubo.views[v] := List.getElem?_eq_getElem hv
  generalize s.ubo.views[v] = blocks at hblocks
  have exact : alignUp (2 ^ 32) request.size.toNat device.uboAlignment = request.aligned device := alignUp_eq_exact sum
  have safe : s.ubo.Safe device (.alloc v request.size) := by
    intro blocks' hblocks'
    refine ⟨sum, fun i b hb wraps => ?_⟩
    have used := built.load v i b ⟨blocks', hblocks', hb⟩
    have wraps : 2 ^ 32 ≤ b.used + request.aligned device := wraps
    omega
  have inv := built.inv.step heap safe
  have size := allocUboBlock_size heap device s.ubo.frameIndex request.size.toNat s.ubo.cache blocks
  have used : ∀ b ∈ (allocUboBlock heap device s.ubo.frameIndex request.size.toNat s.ubo.cache blocks).2.1,
      b.used ≤ UboState.viewLoad s.ubo.issued v + request.aligned device := by
    intro b hb
    refine allocUboBlock_used (fun b hb => ?_) exact hb
    obtain ⟨i, hi⟩ := List.getElem?_of_mem hb
    exact built.load v i b ⟨blocks, hblocks, hi⟩
  cases ha : allocUboBlock heap device s.ubo.frameIndex request.size.toNat s.ubo.cache blocks with
  | mk cache rest =>
    obtain ⟨blocks', ref⟩ := rest
    rw [ha] at size used
    have size : ref.size = request.aligned device := size.trans exact
    have after : s.step heap device (.column v request) = ⟨⟨cache, s.ubo.views.set v blocks',
        s.ubo.issued ++ [⟨v, request.size.toNat, ref⟩], s.ubo.frameIndex⟩, request.writes.foldl (store ref.ptr) s.memory⟩ := by
      rw [step, hblocks]
      dsimp only
      rw [ha]
    have ubo : s.ubo.step heap device (.alloc v request.size) = ⟨cache, s.ubo.views.set v blocks',
        s.ubo.issued ++ [⟨v, request.size.toNat, ref⟩], s.ubo.frameIndex⟩ := by
      have same := congrArg UniformState.ubo after
      rw [step_ubo] at same
      exact same
    rw [ubo] at inv
    rw [after]
    refine ⟨built.append inv rfl size fun v' i b hb => ?_, ?_, List.length_set⟩
    · change b.used ≤ UboState.viewLoad (s.ubo.issued ++ [⟨v, request.size.toNat, ref⟩]) v'
      rw [UboState.viewLoad_append]
      rcases (UboState.blockAt_set hblocks).mp hb with ⟨rfl, hi⟩ | ⟨ne, hb⟩
      · rw [if_pos rfl, size]
        exact used b (List.mem_of_getElem? hi)
      · exact (built.load v' i b hb).trans (Nat.le_add_right _ _)
    · change UboState.viewLoad (s.ubo.issued ++ [⟨v, request.size.toNat, ref⟩]) v = _
      rw [UboState.viewLoad_append, if_pos rfl, size]

variable (heap) in
lemma Built.view_columns (built : Built device start columns s) (hv : v < s.ubo.views.length) {requests : List ColumnRequest}
    (sum : ∀ request ∈ requests, request.size.toNat + device.uboAlignment - 1 < 2 ^ 32)
    (room : UboState.viewLoad s.ubo.issued v + (requests.map (ColumnRequest.aligned device)).sum < 2 ^ 32) :
    Built device start (columns ++ requests) ((requests.map (UniformAction.column v)).foldl (step heap device) s) ∧
      ((requests.map (UniformAction.column v)).foldl (step heap device) s).ubo.views.length = s.ubo.views.length := by
  induction requests generalizing s columns with
  | nil =>
    rw [List.append_nil]
    exact ⟨built, rfl⟩
  | cons request requests ih =>
    rw [List.map_cons, List.sum_cons] at room
    obtain ⟨built', load, length⟩ := built.write heap hv (sum request List.mem_cons_self) (by omega)
    obtain ⟨rest, length'⟩ := ih built' (length ▸ hv) (fun request hr => sum request (List.mem_cons_of_mem _ hr))
      (by rw [load]; omega)
    rw [List.append_assoc] at rest
    exact ⟨rest, length'.trans length⟩

lemma Built.views (built : Built device start columns s) {frame : List ViewInput} (fits : FitsViews device frame) :
    Built device start (columns ++ frameColumns frame) (((frame.zipIdx s.ubo.views.length).flatMap fun (view, index) =>
      UniformAction.view :: view.columns.map (UniformAction.column index)).foldl (step heap device) s) := by
  induction frame generalizing s columns with
  | nil =>
    rw [frameColumns, List.flatMap_nil, List.append_nil]
    exact built
  | cons view frame ih =>
    obtain ⟨sum, room⟩ := fits view List.mem_cons_self
    obtain ⟨made, empty⟩ := built.view heap
    have length : (s.step heap device .view).ubo.views.length = s.ubo.views.length + 1 := List.length_append
    obtain ⟨filled, length'⟩ := made.view_columns heap (v := s.ubo.views.length) (by omega) sum
      (by rw [empty, Nat.zero_add]; exact room)
    have rest := ih filled fun view hv => fits view (List.mem_cons_of_mem _ hv)
    rw [length', length] at rest
    rw [List.zipIdx_cons, List.flatMap_cons, List.foldl_append, frameColumns, List.flatMap_cons, ← frameColumns,
      ← List.append_assoc]
    exact rest

def CacheOk (s : UboState) : Prop :=
  (s.cache.map CachedUboBlock.range).Pairwise ByteRange.Apart ∧ ∀ c ∈ s.cache, c.size < 2 ^ 32

lemma alignUp_lt {size : ℕ} (lt : size < 2 ^ 32) : alignUp (2 ^ 32) size device.uboAlignment < 2 ^ 32 := by
  unfold alignUp
  split
  · exact lt
  · exact (Nat.div_mul_le_self _ _).trans_lt (Nat.mod_lt _ (Nat.two_pow_pos 32))

lemma cacheOk_step {ubo : UboState} (ok : CacheOk ubo) (action : UboAction) : CacheOk (ubo.step heap device action) := by
  cases action with
  | frame frameIndex => exact UboState.cache_frame frameIndex.toNat ok.1 ok.2
  | view => exact ok
  | alloc v size =>
    rw [UboState.step]
    cases hv : ubo.views[v]? with
    | none => exact ok
    | some blocks =>
      dsimp only
      rw [allocUboBlock]
      dsimp only
      cases hf : findBlock (alignUp (2 ^ 32) size.toNat device.uboAlignment) blocks with
      | some found => exact ok
      | none =>
        obtain ⟨k, acquired⟩ := UboBlockCache.acquire_spec heap
          (alignUp (2 ^ 32) size.toNat device.uboAlignment) ubo.frameIndex ubo.cache
        exact ⟨acquired.apart ok.1, acquired.small (alignUp_lt size.toNat_lt) ok.2⟩

lemma cacheOk_foldl (actions : List UniformAction) (ok : CacheOk s.ubo) :
    CacheOk (actions.foldl (step heap device) s).ubo := by
  induction actions generalizing s with
  | nil => exact ok
  | cons action actions ih =>
    refine ih ?_
    rw [step_ubo]
    exact cacheOk_step ok action.ubo

variable (heap device) in
lemma built_frame (ok : CacheOk s.ubo) (frameIndex : UInt32) :
    Built device s.memory [] (s.step heap device (.frame frameIndex)) := by
  refine ⟨UboState.inv_frame heap ok.1 ok.2 frameIndex, rfl, fun k r hk => ?_, fun a _ => rfl, ?_⟩
  · cases hk
  · rintro v i b ⟨blocks, hv, -⟩
    cases hv

lemma Built.columnBytes (built : Built device start columns s) {k : ℕ} (hk : columns[k]? = some request) :
    ∃ ptr, s.columnBytes k = some ((List.range (request.aligned device)).map fun i =>
      (lastWritten i request.writes).getD (start (ptr + i))) := by
  have lt := (List.getElem?_eq_some_iff.mp hk).1
  have here : s.ubo.issued[k]? = some (s.ubo.issued.get ⟨k, built.length ▸ lt⟩) := List.getElem?_eq_getElem _
  generalize s.ubo.issued.get ⟨k, built.length ▸ lt⟩ = r at here
  obtain ⟨request', hk', size, bytes⟩ := built.column k r here
  rw [hk] at hk'
  cases hk'
  refine ⟨r.ref.ptr, ?_⟩
  rw [UniformState.columnBytes, here, Option.map_some, size]
  refine congrArg some (List.map_congr_left fun i hi => bytes i ?_)
  rw [size]
  exact List.mem_range.mp hi

end UniformState

def Run.start (heap : Heap) (device : Device) (run : Run) : ℕ → UInt8 :=
  (run.earlier.foldl (UniformState.step heap device) ⟨UboState.init, run.memory⟩).memory

variable (heap) in
lemma Run.built (run : Run) {frame : List ViewInput} (fits : FitsViews device frame) :
    UniformState.Built device (run.start heap device) (frameColumns frame) (run.after heap device frame) := by
  have ok : UniformState.CacheOk (run.earlier.foldl (UniformState.step heap device) ⟨UboState.init, run.memory⟩).ubo :=
    UniformState.cacheOk_foldl run.earlier ⟨.nil, List.forall_mem_nil _⟩
  have begun := UniformState.built_frame heap device ok run.frameIndex
  rw [Run.after, List.foldl_append, List.foldl_cons]
  exact begun.views fits

def Run.filled (value : UInt8) : Run := ⟨fun _ => value, [], 0⟩

/-- **Uniform data has no memory** if and only if every byte of the columns that are bound is written. -/
theorem noMemory_iff (heap : Heap) (device : Device) (frame : List ViewInput) (bound : List ℕ)
    (fits : FitsViews device frame) : NoMemory heap device frame bound ↔ Written device frame bound := by
  constructor
  · intro same k hk request hrequest i lt
    by_contra unwritten
    have none := lastWritten_eq_none.mpr fun w hw holds => unwritten ⟨w, hw, holds⟩
    obtain ⟨p, zeros⟩ := ((Run.filled 0).built heap fits).columnBytes hrequest
    obtain ⟨q, ones⟩ := ((Run.filled 1).built heap fits).columnBytes hrequest
    have equal := same k hk (.filled 0) (.filled 1)
    rw [zeros, ones] at equal
    have byte := List.map_inj_left.mp (Option.some.inj equal) i (List.mem_range.mpr lt)
    rw [none] at byte
    cases byte
  · intro all k hk run run'
    by_cases lt : k < (frameColumns frame).length
    · have hrequest : (frameColumns frame)[k]? = some (frameColumns frame)[k] := List.getElem?_eq_getElem lt
      generalize (frameColumns frame)[k] = request at hrequest
      obtain ⟨p, bytes⟩ := (run.built heap fits).columnBytes hrequest
      obtain ⟨q, bytes'⟩ := (run'.built heap fits).columnBytes hrequest
      rw [bytes, bytes']
      refine congrArg some (List.map_congr_left fun i hi => ?_)
      obtain ⟨w, hw, holds⟩ := all k hk request hrequest i (List.mem_range.mp hi)
      cases value : lastWritten i request.writes with
      | none => exact absurd holds (lastWritten_eq_none.mp value w hw)
      | some value => rfl
    · have none : ∀ run : Run, (run.after heap device frame).columnBytes k = none := by
        intro run
        have length := (run.built heap fits).length
        rw [UniformState.columnBytes, List.getElem?_eq_none (by omega)]
        rfl
      rw [none, none]

def tintShader : RenderShader where
  index := 1
  generation := 1
  data := ⟨[⟨some "tint", .float4, 0, 0, 0, 16⟩], [⟨0, 0, 256⟩]⟩
  inside := by decide

def tintView : ViewInput where
  properties := viewProperties (Vector.replicate 64 0)
  lists := [[⟨0, some tintShader, Vector.replicate 64 0⟩]]
  features := [none]

/-- A frame of the view. -/
theorem noMemory_iff_tint : NoMemory .bump .usual [tintView] [0] ↔ Written .usual [tintView] [0] :=
  noMemory_iff .bump .usual [tintView] [0] (by decide +kernel)

def earlierFrame (value : UInt8) : Run where
  memory := fun _ => 0
  earlier := [.frame 1, .view, .column 0 ⟨0, 0, 256, [⟨0, List.replicate 256 value⟩], by
    intro w hw
    obtain rfl := List.mem_singleton.mp hw
    rw [List.length_replicate]
    exact le_rfl⟩]
  frameIndex := 2

/-- What an earlier frame wrote is found in the column. -/
theorem not_noMemory : ¬ NoMemory .bump .usual [tintView] [0] := by
  intro same
  have equal := same 0 List.mem_cons_self (earlierFrame 1) (earlierFrame 2)
  have bytes : ∀ value : UInt8, value = 1 ∨ value = 2 →
      (((earlierFrame value).after .bump .usual [tintView]).columnBytes 0).bind List.head? = some value := by
    rintro value (rfl | rfl) <;> decide +kernel
  have first := bytes 1 (.inl rfl)
  rw [equal, bytes 2 (.inr rfl)] at first
  cases first

end PulseEngine.Renderer
