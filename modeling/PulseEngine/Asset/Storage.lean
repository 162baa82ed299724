import PulseEngine.Asset.Basic

/-!
# Asset storage

`asset_storage.cpp`: slot lookup, allocation, the dependency graph and the destruction paths.

A reference to a slot is its `SlotId`; reading through it is `Storage.slotAt`, writing through it is
`Storage.modifySlot`. `destroySlot`, `detachCommittedDependencies` and `tryUnloadSlot` call each
other; the first takes the depth of the call stack as its fuel and the other two take it as an
argument, so `none` stands for a recursion that outgrew the stack. A destroy callback is an entry
of `Storage.destroyed`.
-/

namespace PulseEngine.Asset

/-- `AssetStorage`: the buckets, the path cache, and the destroy callbacks run so far. -/
structure Storage where
  buckets : TypeId → Option Bucket
  pathCache : TypeId → Path → Option Handle
  destroyed : List Handle

namespace Storage

def init : Storage := ⟨fun _ => none, fun _ _ => none, []⟩

def slotAt (st : Storage) (id : SlotId) : Option Slot :=
  (st.buckets id.typeId).bind (·.slots[id.index]?)

def modifySlot (st : Storage) (id : SlotId) (f : Slot → Slot) : Storage :=
  { st with
    buckets := Function.update st.buckets id.typeId
      ((st.buckets id.typeId).map fun b => { b with slots := b.slots.modify id.index f }) }

def freeIndices (st : Storage) (typeId : TypeId) : List Nat :=
  ((st.buckets typeId).map (·.freeIndices)).getD []

def pushFreeIndex (st : Storage) (id : SlotId) : Storage :=
  { st with
    buckets := Function.update st.buckets id.typeId
      ((st.buckets id.typeId).map fun b => { b with freeIndices := id.index :: b.freeIndices }) }

def getSlot (st : Storage) (h : Handle) : Option Slot :=
  if h.isValid then
    match st.slotAt h.slotId with
    | some slot => if slot.generation = h.generation then some slot else none
    | none => none
  else none

def hasDestroy (st : Storage) (typeId : TypeId) : Bool :=
  ((st.buckets typeId).map (·.hasDestroy)).getD false

/-- `PathCache::find`, with the invalid handle for a miss. -/
def findCached (st : Storage) (typeId : TypeId) (path : Path) : Handle :=
  (st.pathCache typeId path).getD Handle.invalid

def cachePath (st : Storage) (typeId : TypeId) (path : Path) (h : Handle) : Storage :=
  { st with
    pathCache := Function.update st.pathCache typeId
      (Function.update (st.pathCache typeId) path (some h)) }

def eraseIfMatches (st : Storage) (h : Handle) (path : Path) : Storage :=
  if path = [] then st
  else if st.pathCache h.typeId path = some h then
    { st with
      pathCache := Function.update st.pathCache h.typeId
        (Function.update (st.pathCache h.typeId) path none) }
  else st

def cachedSlotCanBeReused (st : Storage) (h : Handle) : Bool :=
  match st.getSlot h with
  | some slot => slot.state != .pendingDelete
  | none => false

def ensureBucket (type : Option AssetTypeDesc) (st : Storage) (typeId : TypeId) : Option Storage :=
  match type with
  | none => none
  | some desc =>
    match st.buckets typeId with
    | some _ => some st
    | none =>
      some { st with
        buckets := Function.update st.buckets typeId (some (Bucket.new desc.hasDestroy)) }

def allocateSlot (type : Option AssetTypeDesc) (st : Storage) (typeId : TypeId) (path : Path) :
    Option (Storage × Handle) := do
  let st ← ensureBucket type st typeId
  let b ← st.buckets typeId
  let (index, b) ← Bucket.takeIndex b
  let slot ← b.slots[index]?
  let b := { b with slots := b.slots.set index (slot.allocate path) }
  return ({ st with buckets := Function.update st.buckets typeId (some b) },
    ⟨typeId, index, slot.generation⟩)

/-- `if (slot.constructed && bucket.type->desc.destroy) bucket.type->desc.destroy(..)`. -/
def runDestroyCallback (st : Storage) (h : Handle) (slot : Slot) : Storage :=
  if slot.constructed && st.hasDestroy h.typeId then
    { st with destroyed := h :: st.destroyed }
  else st

def tryUnloadSlot (destroySlot : Storage → Handle → Option Storage) (st : Storage) (h : Handle) :
    Option Storage :=
  match st.getSlot h with
  | none => some st
  | some slot =>
    if slot.pinCount = 0 ∧ slot.dependents = [] then do
      let st ← destroySlot st h
      return st.pushFreeIndex h.slotId
    else some st

/-- One turn of the loop of `DependencyGraph::detach_committed_dependencies`. -/
def detachDependency (destroySlot : Storage → Handle → Option Storage) (h : Handle)
    (st : Storage) (dep : Handle) : Option Storage :=
  match st.getSlot dep with
  | none => some st
  | some _ => tryUnloadSlot destroySlot (st.modifySlot dep.slotId (Slot.removeDependent h)) dep

def detachCommittedDependencies (destroySlot : Storage → Handle → Option Storage) (st : Storage)
    (h : Handle) (dependencies : List Handle) : Option Storage :=
  dependencies.foldlM (detachDependency destroySlot h) st

def destroySlot : Nat → Storage → Handle → Option Storage
  | 0, _, _ => none
  | fuel + 1, st, h =>
    match st.slotAt h.slotId with
    | none => none
    | some slot => do
      let st := st.eraseIfMatches h slot.path
      let st := st.runDestroyCallback h slot
      let st ← detachCommittedDependencies (destroySlot fuel) st h slot.dependencies
      return st.modifySlot h.slotId Slot.reset

/-- The slot references of one bucket that `AssetStorage::destroy_all_assets` visits. -/
def slotIds (st : Storage) (typeId : TypeId) : List SlotId :=
  match st.buckets typeId with
  | none => []
  | some b => (List.range b.slots.length).map (SlotId.mk typeId)

def currentHandle (st : Storage) (id : SlotId) : Handle :=
  ⟨id.typeId, id.index, ((st.slotAt id).map (·.generation)).getD 0⟩

/-- One turn of the inner loop of `AssetStorage::destroy_all_assets`. -/
def destroySlotAt (fuel : Nat) (st : Storage) (id : SlotId) : Option Storage :=
  destroySlot fuel st (st.currentHandle id)

/-- The loops of `AssetStorage::destroy_all_assets`, before the containers are cleared. The order
in which `buckets_` is iterated is unspecified and therefore an argument. -/
def destroyAllSlots (fuel : Nat) (st : Storage) (order : List TypeId) : Option Storage :=
  order.foldlM (fun st typeId => (st.slotIds typeId).foldlM (destroySlotAt fuel) st) st

def destroyAllAssets (fuel : Nat) (st : Storage) (order : List TypeId) : Option Storage := do
  let st ← destroyAllSlots fuel st order
  return { st with buckets := fun _ => none, pathCache := fun _ _ => none }

/-- One turn of the loop of `AssetStorage::detach_dependents_from_slot`. -/
def detachDependent (h : Handle) (st : Storage) (dependent : Handle) : Storage :=
  match st.getSlot dependent with
  | none => st
  | some _ => st.modifySlot dependent.slotId (Slot.removeDependency h)

def detachDependentsFromSlot (st : Storage) (h : Handle) (dependents : List Handle) : Storage :=
  (dependents.foldl (detachDependent h) st).modifySlot h.slotId
    fun slot => { slot with dependents := [] }

/-- One turn of the loop of `AssetStorage::force_destroy_assets`. -/
def forceDestroySlot (fuel : Nat) (st : Storage) (id : SlotId) : Option Storage :=
  match st.slotAt id with
  | none => some st
  | some slot =>
    if slot.state = .empty then some st
    else do
      let h : Handle := ⟨id.typeId, id.index, slot.generation⟩
      let st := detachDependentsFromSlot st h slot.dependents
      let st ← destroySlot fuel st h
      return st.pushFreeIndex id

def forceDestroyAssets (fuel : Nat) (st : Storage) (typeId : TypeId) : Option Storage :=
  (st.slotIds typeId).tail.foldlM (forceDestroySlot fuel) st

/-- What `DependencyGraph::evaluate` reports through its two out parameters. -/
structure Evaluation where
  failed : Bool
  ready : Bool
  deriving DecidableEq, Repr

/-- The loop of `DependencyGraph::evaluate`; `ready` is `out_ready` so far. -/
def evaluateFrom (st : Storage) (ready : Bool) : List Dependency → Evaluation
  | [] => ⟨false, ready⟩
  | dep :: deps =>
    match st.getSlot dep.depRef with
    | none =>
      if dep.requirement = .optional then evaluateFrom st ready deps else ⟨true, ready⟩
    | some slot =>
      if slot.state = .failed then
        if dep.requirement = .optional then evaluateFrom st ready deps else ⟨true, ready⟩
      else if slot.state ≠ .loaded ∧ dep.requirement ≠ .optional then evaluateFrom st false deps
      else evaluateFrom st ready deps

def evaluate (st : Storage) (dependencies : List Dependency) : Evaluation :=
  st.evaluateFrom true dependencies

/-- One turn of the loop of `DependencyGraph::commit`, writing through the slot of `h`. -/
def commitDependency (h : Handle) (st : Storage) (dep : Dependency) : Storage :=
  match st.getSlot dep.depRef, st.slotAt h.slotId with
  | some _, some slot =>
    if dep.depRef ∈ slot.dependencies then st
    else
      (st.modifySlot h.slotId fun slot =>
          { slot with dependencies := slot.dependencies ++ [dep.depRef] }).modifySlot
        dep.depRef.slotId fun slot => { slot with dependents := slot.dependents ++ [h] }
  | _, _ => st

def commit (fuel : Nat) (st : Storage) (h : Handle) (dependencies : List Dependency) :
    Option Storage :=
  match st.getSlot h with
  | none => some st
  | some slot => do
    let st ← detachCommittedDependencies (destroySlot fuel) st h slot.dependencies
    let st := st.modifySlot h.slotId fun slot => { slot with dependencies := [] }
    return dependencies.foldl (commitDependency h) st

/-- One turn of the loop of `DependencyGraph::pin_committed_dependencies`. -/
def pinDependency (st : Storage) (dep : Handle) : Storage :=
  match st.getSlot dep with
  | some slot => if slot.state = .loaded then st.modifySlot dep.slotId Slot.pin else st
  | none => st

def pinCommittedDependencies (st : Storage) (dependencies : List Handle) : Storage :=
  dependencies.foldl pinDependency st

/-- One turn of the loop of `DependencyGraph::unpin_committed_dependencies`. -/
def unpinDependency (st : Storage) (dep : Handle) : Storage :=
  match st.getSlot dep with
  | some slot => if 0 < slot.pinCount then st.modifySlot dep.slotId Slot.unpin else st
  | none => st

def unpinCommittedDependencies (st : Storage) (dependencies : List Handle) : Storage :=
  dependencies.foldl unpinDependency st

@[simp]
lemma slotAt_modifySlot (st : Storage) (id id' : SlotId) (f : Slot → Slot) :
    (st.modifySlot id f).slotAt id' = if id = id' then (st.slotAt id').map f else st.slotAt id' := by
  obtain ⟨t, i⟩ := id
  obtain ⟨t', i'⟩ := id'
  simp only [slotAt, modifySlot, Function.update_apply, SlotId.mk.injEq]
  by_cases ht : t' = t
  · subst ht
    cases st.buckets t' with
    | none => simp
    | some b =>
      by_cases hi : i = i'
      · simp [hi]
      · simp [hi]
  · have ht' : ¬ t = t' := fun e => ht e.symm
    simp [ht, ht']

@[simp]
lemma slotAt_pushFreeIndex (st : Storage) (id id' : SlotId) :
    (st.pushFreeIndex id).slotAt id' = st.slotAt id' := by
  simp only [slotAt, pushFreeIndex, Function.update_apply]
  by_cases ht : id'.typeId = id.typeId
  · rw [if_pos ht, ht]
    cases st.buckets id.typeId <;> simp
  · rw [if_neg ht]

@[simp]
lemma slotAt_cachePath (st : Storage) (t : TypeId) (p : Path) (h : Handle) (id : SlotId) :
    (st.cachePath t p h).slotAt id = st.slotAt id := rfl

lemma buckets_eraseIfMatches (st : Storage) (h : Handle) (p : Path) :
    (st.eraseIfMatches h p).buckets = st.buckets := by
  unfold eraseIfMatches
  split
  · rfl
  · split <;> rfl

lemma buckets_runDestroyCallback (st : Storage) (h : Handle) (slot : Slot) :
    (st.runDestroyCallback h slot).buckets = st.buckets := by
  unfold runDestroyCallback
  split <;> rfl

@[simp]
lemma slotAt_eraseIfMatches (st : Storage) (h : Handle) (p : Path) (id : SlotId) :
    (st.eraseIfMatches h p).slotAt id = st.slotAt id := by
  simp [slotAt, buckets_eraseIfMatches]

@[simp]
lemma slotAt_runDestroyCallback (st : Storage) (h : Handle) (slot : Slot) (id : SlotId) :
    (st.runDestroyCallback h slot).slotAt id = st.slotAt id := by
  simp [slotAt, buckets_runDestroyCallback]

lemma getSlot_eq_some {st : Storage} {h : Handle} {slot : Slot} :
    st.getSlot h = some slot ↔
      h.isValid = true ∧ st.slotAt h.slotId = some slot ∧ slot.generation = h.generation := by
  unfold getSlot
  split
  · rename_i hv
    cases e : st.slotAt h.slotId with
    | none => simp
    | some s =>
      by_cases hg : s.generation = h.generation
      · simp only [hg, if_true, Option.some.injEq]
        constructor
        · rintro rfl
          exact ⟨hv, rfl, hg⟩
        · rintro ⟨_, rfl, _⟩
          rfl
      · simp only [hg, if_false, reduceCtorEq, Option.some.injEq, false_iff]
        rintro ⟨_, rfl, hg'⟩
        exact hg hg'
  · rename_i hv
    simp [hv]

lemma getSlot_congr {st st' : Storage} {h : Handle}
    (e : st'.slotAt h.slotId = st.slotAt h.slotId) : st'.getSlot h = st.getSlot h := by
  unfold getSlot
  rw [e]

lemma getSlot_modifySlot {f : Slot → Slot} (hf : ∀ s, (f s).generation = s.generation)
    (st : Storage) (id : SlotId) (h : Handle) :
    (st.modifySlot id f).getSlot h =
      if id = h.slotId then (st.getSlot h).map f else st.getSlot h := by
  unfold getSlot
  rw [slotAt_modifySlot]
  by_cases e : id = h.slotId
  · simp only [if_pos e]
    cases st.slotAt h.slotId with
    | none => simp
    | some s =>
      by_cases hg : s.generation = h.generation
      · simp [hf, hg]
      · simp [hf, hg]
  · simp only [if_neg e]

@[simp]
lemma getSlot_pushFreeIndex (st : Storage) (id : SlotId) (h : Handle) :
    (st.pushFreeIndex id).getSlot h = st.getSlot h :=
  getSlot_congr (slotAt_pushFreeIndex st id _)

@[simp]
lemma getSlot_eraseIfMatches (st : Storage) (h : Handle) (p : Path) (h' : Handle) :
    (st.eraseIfMatches h p).getSlot h' = st.getSlot h' :=
  getSlot_congr (slotAt_eraseIfMatches st h p _)

@[simp]
lemma getSlot_runDestroyCallback (st : Storage) (h : Handle) (slot : Slot) (h' : Handle) :
    (st.runDestroyCallback h slot).getSlot h' = st.getSlot h' :=
  getSlot_congr (slotAt_runDestroyCallback st h slot _)

lemma getSlot_unique {st : Storage} {h h' : Handle} {s s' : Slot} (e : h.slotId = h'.slotId)
    (hs : st.getSlot h = some s) (hs' : st.getSlot h' = some s') : h = h' := by
  obtain ⟨_, e1, g1⟩ := getSlot_eq_some.mp hs
  obtain ⟨_, e2, g2⟩ := getSlot_eq_some.mp hs'
  rw [e, e2] at e1
  cases e1
  obtain ⟨t, i, g⟩ := h
  obtain ⟨t', i', g'⟩ := h'
  simp only [Handle.slotId, SlotId.mk.injEq] at e
  obtain ⟨rfl, rfl⟩ := e
  simp only at g1 g2
  rw [← g1, ← g2]

@[simp]
lemma freeIndices_modifySlot (st : Storage) (id : SlotId) (f : Slot → Slot) (t : TypeId) :
    (st.modifySlot id f).freeIndices t = st.freeIndices t := by
  simp only [freeIndices, modifySlot, Function.update_apply]
  by_cases ht : t = id.typeId
  · subst ht
    cases st.buckets id.typeId <;> simp
  · simp [ht]

@[simp]
lemma freeIndices_eraseIfMatches (st : Storage) (h : Handle) (p : Path) (t : TypeId) :
    (st.eraseIfMatches h p).freeIndices t = st.freeIndices t := by
  simp [freeIndices, buckets_eraseIfMatches]

@[simp]
lemma freeIndices_runDestroyCallback (st : Storage) (h : Handle) (slot : Slot) (t : TypeId) :
    (st.runDestroyCallback h slot).freeIndices t = st.freeIndices t := by
  simp [freeIndices, buckets_runDestroyCallback]

lemma freeIndices_pushFreeIndex {st : Storage} {id : SlotId} {s : Slot}
    (hs : st.slotAt id = some s) (t : TypeId) :
    (st.pushFreeIndex id).freeIndices t =
      if t = id.typeId then id.index :: st.freeIndices t else st.freeIndices t := by
  simp only [freeIndices, pushFreeIndex, Function.update_apply]
  by_cases ht : t = id.typeId
  · subst ht
    unfold slotAt at hs
    cases e : st.buckets id.typeId with
    | none => simp [e] at hs
    | some b => simp
  · simp [ht]

@[simp]
lemma hasDestroy_modifySlot (st : Storage) (id : SlotId) (f : Slot → Slot) (t : TypeId) :
    (st.modifySlot id f).hasDestroy t = st.hasDestroy t := by
  simp only [hasDestroy, modifySlot, Function.update_apply]
  by_cases ht : t = id.typeId
  · subst ht
    cases st.buckets id.typeId <;> simp
  · simp [ht]

@[simp]
lemma hasDestroy_pushFreeIndex (st : Storage) (id : SlotId) (t : TypeId) :
    (st.pushFreeIndex id).hasDestroy t = st.hasDestroy t := by
  simp only [hasDestroy, pushFreeIndex, Function.update_apply]
  by_cases ht : t = id.typeId
  · subst ht
    cases st.buckets id.typeId <;> simp
  · simp [ht]

@[simp]
lemma hasDestroy_eraseIfMatches (st : Storage) (h : Handle) (p : Path) (t : TypeId) :
    (st.eraseIfMatches h p).hasDestroy t = st.hasDestroy t := by
  simp [hasDestroy, buckets_eraseIfMatches]

@[simp]
lemma hasDestroy_runDestroyCallback (st : Storage) (h : Handle) (slot : Slot) (t : TypeId) :
    (st.runDestroyCallback h slot).hasDestroy t = st.hasDestroy t := by
  simp [hasDestroy, buckets_runDestroyCallback]

@[simp]
lemma isSome_buckets_modifySlot (st : Storage) (id : SlotId) (f : Slot → Slot) (t : TypeId) :
    ((st.modifySlot id f).buckets t).isSome = (st.buckets t).isSome := by
  simp only [modifySlot, Function.update_apply]
  by_cases ht : t = id.typeId
  · simp [ht]
  · simp [ht]

@[simp]
lemma isSome_buckets_pushFreeIndex (st : Storage) (id : SlotId) (t : TypeId) :
    ((st.pushFreeIndex id).buckets t).isSome = (st.buckets t).isSome := by
  simp only [pushFreeIndex, Function.update_apply]
  by_cases ht : t = id.typeId
  · simp [ht]
  · simp [ht]

@[simp]
lemma slotIds_modifySlot (st : Storage) (id : SlotId) (f : Slot → Slot) (t : TypeId) :
    (st.modifySlot id f).slotIds t = st.slotIds t := by
  simp only [slotIds, modifySlot, Function.update_apply]
  by_cases ht : t = id.typeId
  · subst ht
    cases st.buckets id.typeId <;> simp
  · simp [ht]

@[simp]
lemma slotIds_pushFreeIndex (st : Storage) (id : SlotId) (t : TypeId) :
    (st.pushFreeIndex id).slotIds t = st.slotIds t := by
  simp only [slotIds, pushFreeIndex, Function.update_apply]
  by_cases ht : t = id.typeId
  · subst ht
    cases st.buckets id.typeId <;> simp
  · simp [ht]

@[simp]
lemma slotIds_eraseIfMatches (st : Storage) (h : Handle) (p : Path) (t : TypeId) :
    (st.eraseIfMatches h p).slotIds t = st.slotIds t := by
  simp [slotIds, buckets_eraseIfMatches]

@[simp]
lemma slotIds_runDestroyCallback (st : Storage) (h : Handle) (slot : Slot) (t : TypeId) :
    (st.runDestroyCallback h slot).slotIds t = st.slotIds t := by
  simp [slotIds, buckets_runDestroyCallback]

lemma pathCache_eraseIfMatches (st : Storage) (h : Handle) (q : Path) (t : TypeId) (p : Path) :
    (st.eraseIfMatches h q).pathCache t p = (st.pathCache t p).filter fun x =>
      !(decide (x = h) && decide (h.typeId = t) && decide (p ≠ []) && decide (q = p)) := by
  have same : (t = h.typeId → p = q → st.pathCache t p ≠ some h) →
      (st.pathCache t p).filter (fun x => !(decide (x = h) && decide (h.typeId = t) &&
        decide (p ≠ []) && decide (q = p))) = st.pathCache t p := by
    intro hno
    cases hpc : st.pathCache t p with
    | none => rfl
    | some x =>
      rw [Option.filter_some]
      by_cases hx : x = h
      · subst hx
        by_cases ht : x.typeId = t
        · have hq : ¬ q = p := fun e => hno ht.symm e.symm hpc
          simp [hq]
        · simp [ht]
      · simp [hx]
  unfold eraseIfMatches
  by_cases hq : q = []
  · rw [if_pos hq]
    cases st.pathCache t p with
    | none => rfl
    | some x =>
      by_cases hp : p = []
      · simp [hp, Option.filter_some]
      · have hqp : ¬ q = p := fun e => hp (e ▸ hq)
        simp [hqp, Option.filter_some]
  · rw [if_neg hq]
    by_cases hc : st.pathCache h.typeId q = some h
    · rw [if_pos hc]
      simp only [Function.update_apply]
      by_cases ht : t = h.typeId
      · subst ht
        rw [if_pos rfl, Function.update_apply]
        by_cases hpq : p = q
        · subst hpq
          simp [hc, hq, Option.filter_some]
        · rw [if_neg hpq, same fun _ e => absurd e hpq]
      · rw [if_neg ht, same fun e => absurd e ht]
    · rw [if_neg hc, same]
      rintro rfl rfl
      exact hc

@[simp]
lemma pathCache_runDestroyCallback (st : Storage) (h : Handle) (slot : Slot) :
    (st.runDestroyCallback h slot).pathCache = st.pathCache := by
  unfold runDestroyCallback
  split <;> rfl

@[simp]
lemma destroyed_modifySlot (st : Storage) (id : SlotId) (f : Slot → Slot) :
    (st.modifySlot id f).destroyed = st.destroyed := rfl

@[simp]
lemma destroyed_pushFreeIndex (st : Storage) (id : SlotId) :
    (st.pushFreeIndex id).destroyed = st.destroyed := rfl

@[simp]
lemma destroyed_eraseIfMatches (st : Storage) (h : Handle) (p : Path) :
    (st.eraseIfMatches h p).destroyed = st.destroyed := by
  unfold eraseIfMatches
  split
  · rfl
  · split <;> rfl

end Storage

end PulseEngine.Asset
