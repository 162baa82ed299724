import PulseEngine.Graphics.Encoder

/-!
# Materials override globals

What a slot holds after the calls of a pass: what the current material binds there, else the value of
the last `set_global_*` since a material that binds the slot was current. A call that comes while it
is current has no effect, and what was set before is gone when it is left.
-/

namespace PulseEngine.Graphics

/-- The value that a call of `set_global_*` is for, if its handle is valid. -/
def GlobalValue.slot (m : Memory) : GlobalValue → Option ResourceSlot
  | .texture tex => some ⟨.texture, false, (tex.map (·.view)).getD 0, 0, 0⟩
  | .textureHandle handle =>
    if handle = 0 then none else some ⟨.texture, false, m.resolveTextureView handle, 0, 0⟩
  | .sampler smp => some ⟨.sampler, false, smp, 0, 0⟩
  | .buffer buf => some ⟨.buffer, false, (buf.map (·.handle)).getD 0, 0, 0⟩
  | .dynamicBuffer handle =>
    if handle = 0 then none else some ⟨.buffer, false, m.resolveBuffer handle, 0, 0⟩
  | .bufferWithOffsetSize handle offset size =>
    if handle = 0 then none else some ⟨.buffer, false, m.resolveBuffer handle, offset, size⟩

def globalAt (m : Memory) (s b : ℕ) (c : EncoderCall) : Option ResourceSlot :=
  match c.work m with
  | .setGlobal value set slot => if slotBounds set slot = some (s, b) then value.slot m else none
  | _ => none

def lastGlobal (m : Memory) (s b : ℕ) (calls : List EncoderCall) : Option ResourceSlot :=
  (calls.filterMap (globalAt m s b)).getLast?

def materialAfter (m : Memory) (current : Option ℕ) (c : EncoderCall) : Option ℕ :=
  match c.work m with
  | .draw drawing => drawing.material
  | .dispatch _ _ => none
  | _ => current

def currentMaterial (m : Memory) (calls : List EncoderCall) : Option ℕ :=
  calls.foldl (materialAfter m) none

def lastWrite (writes : List SlotWrite) (s b : ℕ) : Option ResourceSlot :=
  ((writes.filter fun w => w.set = s ∧ w.slot = b).getLast?).map (·.value)

def materialBinding (m : Memory) (material : Option ℕ) (s b : ℕ) : Option ResourceSlot :=
  material.bind fun address =>
    (m.materials address).shader.bind fun _ =>
      lastWrite (PassSlots.synced m address).slotWrites s b

def sinceStep (m : Memory) (s b : ℕ) (since : Option ℕ × List EncoderCall) (c : EncoderCall) :
    Option ℕ × List EncoderCall :=
  let current := materialAfter m since.1 c
  if (materialBinding m current s b).isSome then (current, []) else (current, since.2 ++ [c])

def sinceBound (m : Memory) (s b : ℕ) (calls : List EncoderCall) : List EncoderCall :=
  (calls.foldl (sinceStep m s b) (none, [])).2

/-- What a slot resolves to after the calls of a pass, where `globals` are the calls of which the
globals count: the binding of the current material, else the last global value. -/
def resolution (m : Memory) (s b : ℕ) (calls globals : List EncoderCall) : Option ResourceSlot :=
  (materialBinding m (currentMaterial m calls) s b).or (lastGlobal m s b globals)

def defaultResource (d : Pass) : ResourceType → BoundResource
  | .texture => .texture d.defaultTexture
  | .sampler => .sampler d.defaultSampler
  | .uniformBuffer | .rwBuffer => .buffer d.defaultBuffer 0 (bufferRange d d.defaultBuffer 0)
  | .other => .none

def resolvedResource (d : Pass) (resolution : Option ResourceSlot) (type : ResourceType) :
    BoundResource :=
  match resolution with
  | some slot => boundResource d slot type
  | none => defaultResource d type

lemma GlobalValue.set_eq (m : Memory) (set slot : ℤ) (value : GlobalValue) (e : PassSlots) :
    value.set m set slot e = PassSlots.setGlobal set slot (value.slot m) e := by
  cases value <;> rfl

lemma GlobalValue.slot_unmarked {m : Memory} {value : GlobalValue} {v : ResourceSlot}
    (h : value.slot m = some v) : v.fromMaterial = false := by
  cases value <;> simp only [GlobalValue.slot, Option.ite_none_left_eq_some, Option.some.injEq] at h
  case texture | sampler | buffer =>
    rw [← h]
  case textureHandle | dynamicBuffer | bufferWithOffsetSize =>
    rw [← h.2]

lemma Material.slotWrites_marked {material : Material} {w : SlotWrite}
    (h : w ∈ material.slotWrites) : w.value.fromMaterial = true := by
  simp only [Material.slotWrites, List.mem_append, List.mem_filterMap] at h
  rcases h with ((⟨x, -, h⟩ | ⟨x, -, h⟩) | ⟨x, -, h⟩) | ⟨x, -, h⟩
  · obtain ⟨at', -, rfl⟩ := Option.map_eq_some_iff.mp h
    rfl
  · obtain ⟨at', -, rfl⟩ := Option.map_eq_some_iff.mp h
    rfl
  · obtain ⟨at', -, rfl⟩ := Option.map_eq_some_iff.mp h
    rfl
  · simp only [UboColumn.slotWrite, Option.ite_none_left_eq_some, Option.map_eq_some_iff] at h
    obtain ⟨-, buffer, -, rfl⟩ := h
    rfl

lemma foldl_write (writes : List SlotWrite) (sets : ResourceSets) (s b : ℕ) :
    writes.foldl (fun sets w => sets.write w.set w.slot w.value) sets s b
      = (lastWrite writes s b).getD (sets s b) := by
  induction writes using List.reverseRecOn with
  | nil => rfl
  | append_singleton writes w ih =>
    rw [List.foldl_append, List.foldl_cons, List.foldl_nil, lastWrite, List.filter_append]
    by_cases here : w.set = s ∧ w.slot = b
    · obtain ⟨rfl, rfl⟩ := here
      simp
    · have other : ¬ (s = w.set ∧ b = w.slot) := fun h => here ⟨h.1.symm, h.2.symm⟩
      rw [ResourceSets.write_other other, ih, lastWrite]
      simp [here]

lemma materialBinding_marked {m : Memory} {material : Option ℕ} {s b : ℕ} {v : ResourceSlot}
    (h : materialBinding m material s b = some v) : v.fromMaterial = true := by
  obtain ⟨address, -, h⟩ := Option.bind_eq_some_iff.mp h
  obtain ⟨_, -, h⟩ := Option.bind_eq_some_iff.mp h
  obtain ⟨w, last, rfl⟩ := Option.map_eq_some_iff.mp h
  exact Material.slotWrites_marked (List.mem_filter.mp (List.mem_of_getLast? last)).1

lemma lastGlobal_unmarked {m : Memory} {s b : ℕ} {calls : List EncoderCall} {v : ResourceSlot}
    (h : lastGlobal m s b calls = some v) : v.fromMaterial = false := by
  obtain ⟨c, -, h⟩ := List.mem_filterMap.mp (List.mem_of_getLast? h)
  unfold globalAt at h
  split at h
  · exact GlobalValue.slot_unmarked (Option.ite_none_right_eq_some.mp h).2
  · cases h

lemma lastGlobal_append (m : Memory) (s b : ℕ) (calls : List EncoderCall) (c : EncoderCall) :
    lastGlobal m s b (calls ++ [c]) = (globalAt m s b c).or (lastGlobal m s b calls) := by
  unfold lastGlobal
  rw [List.filterMap_append]
  cases h : globalAt m s b c with
  | none => simp [h]
  | some v => simp [h]

structure PassSlots.Right (m : Memory) (calls : List EncoderCall) (e : PassSlots) : Prop where
  material : e.lastMaterial = currentMaterial m calls
  slots : ∀ s b, e.resourceSets s b
    = (resolution m s b calls (sinceBound m s b calls)).getD {}

lemma sinceBound_material (m : Memory) (s b : ℕ) (calls : List EncoderCall) :
    (calls.foldl (sinceStep m s b) (none, [])).1 = currentMaterial m calls := by
  induction calls using List.reverseRecOn with
  | nil => rfl
  | append_singleton calls c ih =>
    rw [List.foldl_append, currentMaterial, List.foldl_append, ← currentMaterial, ← ih]
    simp only [List.foldl_cons, List.foldl_nil, sinceStep]
    split <;> rfl

lemma currentMaterial_append (m : Memory) (calls : List EncoderCall) (c : EncoderCall) :
    currentMaterial m (calls ++ [c]) = materialAfter m (currentMaterial m calls) c := by
  simp [currentMaterial]

lemma sinceBound_append (m : Memory) (s b : ℕ) (calls : List EncoderCall) (c : EncoderCall) :
    sinceBound m s b (calls ++ [c])
      = if (materialBinding m (currentMaterial m (calls ++ [c])) s b).isSome then []
        else sinceBound m s b calls ++ [c] := by
  rw [currentMaterial_append, ← sinceBound_material m s b calls, sinceBound, List.foldl_append]
  simp only [List.foldl_cons, List.foldl_nil, sinceStep]
  split <;> rfl

lemma resolution_append (m : Memory) (s b : ℕ) (calls : List EncoderCall) (c : EncoderCall) :
    resolution m s b (calls ++ [c]) (sinceBound m s b (calls ++ [c]))
      = (materialBinding m (materialAfter m (currentMaterial m calls) c) s b).or
          ((globalAt m s b c).or (lastGlobal m s b (sinceBound m s b calls))) := by
  rw [resolution, sinceBound_append, currentMaterial_append]
  cases materialBinding m (materialAfter m (currentMaterial m calls) c) s b with
  | none => simp [lastGlobal_append]
  | some v => simp

lemma lastGlobal_bound {m : Memory} {s b : ℕ} {calls : List EncoderCall}
    (bound : (materialBinding m (currentMaterial m calls) s b).isSome) :
    lastGlobal m s b (sinceBound m s b calls) = none := by
  induction calls using List.reverseRecOn with
  | nil => rfl
  | append_singleton calls c ih =>
    rw [sinceBound_append, if_pos bound]
    rfl

lemma PassSlots.Right.marked {m : Memory} {calls : List EncoderCall} {e : PassSlots}
    (right : e.Right m calls) (s b : ℕ) :
    (e.resourceSets s b).fromMaterial
      = (materialBinding m (currentMaterial m calls) s b).isSome := by
  rw [right.slots, resolution]
  cases bound : materialBinding m (currentMaterial m calls) s b with
  | some v => simpa using materialBinding_marked bound
  | none =>
    cases last : lastGlobal m s b (sinceBound m s b calls) with
    | none => rfl
    | some v => simpa using lastGlobal_unmarked last

lemma PassSlots.Right.cleared {m : Memory} {calls : List EncoderCall} {e : PassSlots}
    (right : e.Right m calls) (s b : ℕ) :
    clearMaterialSlots e.resourceSets s b
      = (lastGlobal m s b (sinceBound m s b calls)).getD {} := by
  rw [clearMaterialSlots, right.marked]
  cases bound : materialBinding m (currentMaterial m calls) s b with
  | some v =>
    rw [lastGlobal_bound (by rw [bound]; rfl)]
    rfl
  | none => simp [right.slots, resolution, bound]

lemma PassSlots.Right.setGlobal {m : Memory} {calls : List EncoderCall} {e : PassSlots}
    (right : e.Right m calls) {c : EncoderCall} {value : GlobalValue} {set slot : ℤ}
    (work : c.work m = .setGlobal value set slot) :
    (value.set m set slot e).Right m (calls ++ [c]) := by
  have after : materialAfter m (currentMaterial m calls) c = currentMaterial m calls := by
    rw [materialAfter, work]
  have kept : ∀ s b, globalAt m s b c = none →
      e.resourceSets s b = (resolution m s b (calls ++ [c])
        (sinceBound m s b (calls ++ [c]))).getD {} := by
    intro s b other
    rw [resolution_append, after, other, Option.none_or]
    exact right.slots s b
  rw [GlobalValue.set_eq]
  unfold PassSlots.setGlobal
  split
  · rename_i s b v bounds slotValue
    split
    · rename_i marked
      refine ⟨right.material.trans (by rw [currentMaterial_append, after]), fun s' b' => ?_⟩
      rw [right.marked] at marked
      rw [resolution_append, after]
      cases bound : materialBinding m (currentMaterial m calls) s' b' with
      | some v => simp [right.slots, resolution, bound]
      | none =>
        have other : globalAt m s' b' c = none := by
          rw [globalAt, work]
          refine if_neg fun same => ?_
          rw [bounds] at same
          cases same
          simp [bound] at marked
        simp [right.slots, resolution, bound, other]
    · rename_i marked
      refine ⟨right.material.trans (by rw [currentMaterial_append, after]), fun s' b' => ?_⟩
      by_cases here : s' = s ∧ b' = b
      · obtain ⟨rfl, rfl⟩ := here
        rw [right.marked, Bool.not_eq_true, Option.isSome_eq_false_iff,
          Option.isNone_iff_eq_none] at marked
        have set : globalAt m s' b' c = some v := by
          rw [globalAt, work]
          simp only [bounds, if_true, slotValue]
        show e.resourceSets.write s' b' v s' b' = _
        rw [ResourceSets.write_same, resolution_append, after, marked, set]
        rfl
      · show e.resourceSets.write s b v s' b' = _
        rw [ResourceSets.write_other here]
        refine kept s' b' ?_
        rw [globalAt, work]
        refine if_neg fun same => here ?_
        rw [bounds] at same
        cases same
        exact ⟨rfl, rfl⟩
  · rename_i none_here
    refine ⟨right.material.trans (by rw [currentMaterial_append, after]), fun s b => ?_⟩
    refine kept s b ?_
    rw [globalAt, work]
    refine ite_eq_right_iff.mpr fun bounds => ?_
    cases slotValue : value.slot m with
    | none => rfl
    | some v => exact absurd slotValue (none_here s b v bounds)

lemma PassSlots.Right.updateMaterial {m : Memory} {calls : List EncoderCall} {e : PassSlots}
    (right : e.Right m calls) {c : EncoderCall} {drawing : Drawing}
    (work : c.work m = .draw drawing) :
    (e.updateMaterial m drawing.material).Right m (calls ++ [c]) := by
  have after : materialAfter m (currentMaterial m calls) c = drawing.material := by
    rw [materialAfter, work]
  have silent : ∀ s b, globalAt m s b c = none := fun s b => by rw [globalAt, work]
  unfold PassSlots.updateMaterial
  split
  · rename_i same
    rw [right.material] at same
    refine ⟨right.material.trans (by rw [currentMaterial_append, after, same]), fun s b => ?_⟩
    rw [resolution_append, after, silent, ← same, Option.none_or]
    exact right.slots s b
  · split
    · rename_i material
      refine ⟨by rw [currentMaterial_append, after, material], fun s b => ?_⟩
      show clearMaterialSlots e.resourceSets s b = _
      rw [right.cleared, resolution_append, after, silent, material]
      rfl
    · rename_i address material
      split
      · rename_i shader
        refine ⟨by rw [currentMaterial_append, after], fun s b => ?_⟩
        show clearMaterialSlots e.resourceSets s b = _
        rw [right.cleared, resolution_append, after, silent, material]
        simp [materialBinding, shader]
      · rename_i sh shader
        refine ⟨by rw [currentMaterial_append, after], fun s b => ?_⟩
        show materialLoadIntoSlots (synced m address) (clearMaterialSlots e.resourceSets) s b = _
        rw [materialLoadIntoSlots, foldl_write, right.cleared, resolution_append, after, silent,
          material]
        simp only [materialBinding, shader, Option.bind_some, Option.none_or]
        cases lastWrite (synced m address).slotWrites s b <;> rfl

lemma PassSlots.Right.leaveMaterial {m : Memory} {calls : List EncoderCall} {e : PassSlots}
    (right : e.Right m calls) {c : EncoderCall} {shader : Option ℕ} {command : Command}
    (work : c.work m = .dispatch shader command) : e.leaveMaterial.Right m (calls ++ [c]) := by
  have after : materialAfter m (currentMaterial m calls) c = none := by
    rw [materialAfter, work]
  refine ⟨by rw [currentMaterial_append, after]; rfl, fun s b => ?_⟩
  have silent : globalAt m s b c = none := by rw [globalAt, work]
  rw [resolution_append, after, silent]
  exact right.cleared s b

lemma PassSlots.Right.nothing {m : Memory} {calls : List EncoderCall} {e : PassSlots}
    (right : e.Right m calls) {c : EncoderCall} (work : c.work m = .nothing) :
    e.Right m (calls ++ [c]) := by
  have after : materialAfter m (currentMaterial m calls) c = currentMaterial m calls := by
    rw [materialAfter, work]
  refine ⟨right.material.trans (by rw [currentMaterial_append, after]), fun s b => ?_⟩
  have silent : globalAt m s b c = none := by rw [globalAt, work]
  rw [resolution_append, after, silent, Option.none_or]
  exact right.slots s b

lemma PassSlots.Right.call {d : Pass} {calls : List EncoderCall} {c : EncoderCall}
    {e e' : Encoder} {seen : List Seen} (right : e.slots.Right d.toMemory calls)
    (called : Encoder.call d c e = some (e', seen)) :
    e'.slots.Right d.toMemory (calls ++ [c]) := by
  obtain ⟨value, set, slot, work, slots⟩ | ⟨drawing, work, slots⟩ | ⟨shader, command, work, slots⟩
    | ⟨work, slots⟩ := Encoder.call_slots called
  · rw [slots]
    exact right.setGlobal work
  · rw [slots]
    exact right.updateMaterial work
  · rw [slots]
    exact right.leaveMaterial work
  · rw [slots]
    exact right.nothing work

lemma PassSlots.Right.run {d : Pass} {calls later : List EncoderCall} {e e' : Encoder}
    {seen : List Seen} (right : e.slots.Right d.toMemory calls)
    (ran : Encoder.run d e later = some (e', seen)) :
    e'.slots.Right d.toMemory (calls ++ later) := by
  induction later generalizing calls e seen with
  | nil =>
    cases ran
    rwa [List.append_nil]
  | cons c later ih =>
    simp only [Encoder.run, Option.bind_eq_bind, Option.bind_eq_some_iff] at ran
    obtain ⟨⟨e₁, seen₁⟩, called, ⟨e₂, seen₂⟩, ran, last⟩ := ran
    cases last
    have right' := ih (right.call called) ran
    rwa [List.append_assoc] at right'

lemma PassSlots.right_start (m : Memory) : PassSlots.Right m [] {} :=
  ⟨rfl, fun _ _ => rfl⟩

lemma boundResource_empty (d : Pass) (type : ResourceType) :
    boundResource d {} type = defaultResource d type := by
  cases type <;> rfl

lemma sinceBound_all {m : Memory} {s b : ℕ} {calls : List EncoderCall}
    (free : ∀ c ∈ calls, materialBinding m (materialAfter m none c) s b = none) :
    materialBinding m (currentMaterial m calls) s b = none ∧ sinceBound m s b calls = calls := by
  induction calls using List.reverseRecOn with
  | nil => exact ⟨rfl, rfl⟩
  | append_singleton calls c ih =>
    obtain ⟨current, since⟩ := ih fun c' mem => free c' (List.mem_append_left _ mem)
    have here := free c (by simp)
    have now : materialBinding m (currentMaterial m (calls ++ [c])) s b = none := by
      rw [currentMaterial_append]
      unfold materialAfter at here ⊢
      split
      · simpa [*] using here
      · rfl
      · exact current
    refine ⟨now, ?_⟩
    rw [sinceBound_append, now, since]
    rfl

/-- A render pass with two materials of a shader that has a texture in set 0: the first binds it, the
second one does not. -/
def twoMaterials : Pass where
  materials address := ⟨some 9, if address = 1 then [⟨0, 0, some ⟨7⟩⟩] else [], [], [], []⟩
  createBuffer _ _ := ⟨0, 0⟩
  resolveTextureView := id
  resolveBuffer := id
  isGraphics := true
  shaders _ := { rootSig := ⟨8, [⟨0, [⟨0, .texture⟩]⟩]⟩ }
  computeShaders _ := ⟨0, []⟩
  creates _ := true
  createsCompute _ := true
  dynamicStateT1 := false
  renderPass := 1
  subpass := 0
  renderTargetCount := 1
  defaultTexture := 3
  defaultSampler := 4
  defaultBuffer := 5
  bufferSize _ := 256
  hashPointer := UInt64.ofNat

end PulseEngine.Graphics
