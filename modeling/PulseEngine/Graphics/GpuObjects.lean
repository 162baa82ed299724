import PulseEngine.Asset.JobFrame
import PulseEngine.Asset.Shutdown
import PulseEngine.Graphics.UploadLoader

/-!
# The GPU objects of textures and buffers

A step of a texture or buffer loader creates a GPU object and stores it in the data of the asset,
`destroy_texture` and `destroy_buffer` free the object they find there. They run for assets whose
storage was constructed, so what the other loads created is lost, and so is an object that a later
step of the same load replaced.
-/

namespace PulseEngine.Graphics

open Asset Library

variable {fuel : Nat}

def IsUpload (t : TypeId) : Prop := t = textureType ∨ t = bufferType

instance (t : TypeId) : Decidable (IsUpload t) := inferInstanceAs (Decidable (_ ∨ _))

/-- How the `n`-th step of each job goes. -/
abbrev UploadTurns := JobId → Nat → UploadTurn

def gpuObjects (turns : UploadTurns) (s : System fuel) (id : JobId) : Nat :=
  objectsCreated ((List.range ((s.callbacksOf id).count .step)).map (turns id))

/-- How often the `k`-th of the objects that a job created was freed. The destroy callback of the
asset frees the object its data names: the last one, for every step overwrites the data. -/
def timesFreed (destroyed : List Handle) (job : LoadJob) (objects k : Nat) : Nat :=
  if k + 1 = objects then destroyed.count job.handle else 0

def FreedOnce (turns : UploadTurns) (s : System fuel) (destroyed : List Handle) : Prop :=
  ∀ job ∈ s.queued, IsUpload job.handle.typeId → ∀ k < gpuObjects turns s job.id,
    timesFreed destroyed job (gpuObjects turns s job.id) k = 1

def HandedOver (turns : UploadTurns) (s : System fuel) : Prop :=
  ∀ job ∈ s.queued, IsUpload job.handle.typeId → gpuObjects turns s job.id = 0 ∨
    (gpuObjects turns s job.id = 1 ∧ s.traced.recorded.history.loaded.count job.handle = 1)

instance (turns : UploadTurns) (s : System fuel) : Decidable (HandedOver turns s) :=
  inferInstanceAs (Decidable (∀ job ∈ s.queued, IsUpload job.handle.typeId → _))

lemma timesFreed_eq_one {destroyed : List Handle} {job : LoadJob} {objects : Nat} :
    (∀ k < objects, timesFreed destroyed job objects k = 1) ↔
      objects = 0 ∨ (objects = 1 ∧ destroyed.count job.handle = 1) := by
  constructor
  · intro h
    match objects with
    | 0 => exact Or.inl rfl
    | 1 => exact Or.inr ⟨rfl, h 0 Nat.one_pos⟩
    | n + 2 =>
      -- the first object was replaced
      have first : timesFreed destroyed job (n + 2) 0 = 0 := if_neg (by omega)
      exact absurd (first.symm.trans (h 0 (by omega))) (by decide)
  · rintro (rfl | ⟨rfl, once⟩) k hk
    · exact absurd hk (Nat.not_lt_zero k)
    · obtain rfl := Nat.lt_one_iff.mp hk
      exact once

/-- **GPU objects are freed exactly once** when the system shuts down if and only if every load
that created one created no other and was completed. The loads may fail, be cancelled or be unloaded by
force at any time, and the callbacks of other loaders may do what they want. -/
theorem freedOnce_iff (fuel maxRequestsPerUpdate : Nat) (events : List System.Event)
    (s s₁ : System fuel) (scripts : List (JobScript Call)) (order : List TypeId)
    (turns : UploadTurns)
    (_ : System.after fuel maxRequestsPerUpdate events = some s)
    (cancelled : s.cancelAll scripts = some s₁)
    (registered : ∀ job ∈ s₁.queued, IsUpload job.handle.typeId →
      s₁.storage.hasDestroy job.handle.typeId = true)
    (sound : Along (Asset.Recorded.step fuel) (fun r a => a.Sound r.storage) Asset.Recorded.init
      s₁.traced.log)
    (iterates : s₁.storage.IteratesBuckets order)
    (apart : Along (Storage.destroySlotAt fuel) Storage.DestroyedOnceAt s₁.storage
      (s₁.storage.visits order))
    (deep : (s₁.storage.entries order).length < fuel) :
    ∃ st, s.shutdown scripts order = some st ∧
      (FreedOnce turns s₁ st.destroyed ↔ HandedOver turns s₁) := by
  obtain ⟨wf, kept⟩ := Storage.WellFormed.run (I := Storage.CallbacksKept) (fun _ _ sound => sound)
    Storage.CallbacksKept.init (fun wf kept _ eff => kept.step wf eff) sound s₁.traced.replays
  obtain ⟨st, hst, once⟩ := kept.destroyAllAssets wf iterates apart deep
  have shut : s.shutdown scripts order = some st := by
    unfold System.shutdown
    rw [cancelled]
    exact hst
  refine ⟨st, shut, forall_congr' fun job => forall_congr' fun hj => forall_congr' fun upload => ?_⟩
  rw [timesFreed_eq_one, once.once job.handle (registered job hj upload)]

def registerUploads : List System.Event :=
  [.registerType ⟨true, textureType, 64, 8, true⟩, .registerType ⟨true, bufferType, 32, 8, true⟩,
    .registerLoader ⟨true, textureType, some [], none, false, false, true, 2, 1, 96, 8, true, true⟩,
    .registerLoader ⟨true, bufferType, some [], none, false, false, true, 2, 1, 64, 8, true, true⟩]

def createUpload (t : TypeId) (status : LoaderStatus) : System.Event :=
  .call (.load ⟨.builder, t, none, none, true, false, none, [], true⟩ ⟨96, true⟩
    ⟨none, [], true, [], status, none, []⟩)

/-- The texture is created with pixel data and recorded before its second step, the buffer is
created without data. -/
def textureAndBuffer : UploadTurns
  | 0, n => ⟨.createTexture ⟨[255], 4, true⟩, decide (0 < n)⟩
  | _, _ => ⟨.createBuffer ⟨true, [], true⟩, false⟩

/-- A texture and a buffer are loaded before the shutdown. -/
theorem freedOnce_iff_textureAndBuffer : ∃ (s s₁ : System 8) (st : Storage),
    System.after 8 0 (registerUploads ++ [createUpload textureType .pending,
      createUpload bufferType .done, .process [⟨none, [], true, [], .done, none, []⟩]]) = some s ∧
    s.cancelAll [] = some s₁ ∧ s.shutdown [] [textureType, bufferType] = some st ∧
    (List.range 2).map (gpuObjects textureAndBuffer s₁) = [1, 1] ∧
    FreedOnce textureAndBuffer s₁ st.destroyed := by
  set events := registerUploads ++ [createUpload textureType .pending,
    createUpload bufferType .done, .process [⟨none, [], true, [], .done, none, []⟩]] with hevents
  have ends : ((System.after 8 0 events).bind fun s => s.cancelAll []).isSome = true := by
    decide +kernel
  obtain ⟨s₁, hs₁⟩ := Option.isSome_iff_exists.mp ends
  obtain ⟨s, hs, hs₁⟩ := Option.bind_eq_some_iff.mp hs₁
  have seen : ∀ s ∈ System.after 8 0 events, ∀ s₁ ∈ s.cancelAll [],
      Along (Asset.Recorded.step 8) (fun r a => a.Sound r.storage) Asset.Recorded.init s₁.traced.log ∧
      (∀ x ∈ s₁.traced.recorded.history.created, x.typeId ∈ [textureType, bufferType]) ∧
      (∀ e ∈ s₁.storage.entries [textureType, bufferType], e.2.index < e.1.index) ∧
      (s₁.storage.entries [textureType, bufferType]).length < 8 ∧
      (∀ job ∈ s₁.queued, IsUpload job.handle.typeId →
        s₁.storage.hasDestroy job.handle.typeId = true) ∧
      (List.range 2).map (gpuObjects textureAndBuffer s₁) = [1, 1] ∧
      HandedOver textureAndBuffer s₁ := by
    decide +kernel
  obtain ⟨sound, types, drops, deep, registered, objects, handed⟩ := seen s hs s₁ hs₁
  obtain ⟨wf, kept⟩ := Storage.WellFormed.run (I := Storage.CallbacksKept) (fun _ _ sound => sound)
    Storage.CallbacksKept.init (fun wf kept _ eff => kept.step wf eff) sound s₁.traced.replays
  have iterates : s₁.storage.IteratesBuckets [textureType, bufferType] := by
    refine ⟨by decide, fun t ht => ?_⟩
    obtain ⟨x, hx, rfl⟩ := kept.known t ht
    exact types x hx
  have apart := iterates.apart_of_acyclic Handle.index wf drops deep
  obtain ⟨st, hst, once⟩ := freedOnce_iff 8 0 events s s₁ [] [textureType, bufferType]
    textureAndBuffer hs hs₁ registered sound iterates apart deep
  exact ⟨s, s₁, st, hs, hs₁, hst, objects, once.mpr handed⟩

/-- A texture that is released while its upload is pending is cancelled, and its GPU texture is never
freed. -/
theorem not_freedOnce : ¬ ∀ (s s₁ : System 8) (st : Storage),
    System.after 8 0 (registerUploads ++ [createUpload textureType .pending,
      .call (.release ⟨textureType, 1, 1⟩), .process [⟨none, [], true, [], .pending, none, []⟩]]) =
        some s →
    s.cancelAll [] = some s₁ → s.shutdown [] [textureType, bufferType] = some st →
    FreedOnce textureAndBuffer s₁ st.destroyed := by
  set events := registerUploads ++ [createUpload textureType .pending,
    .call (.release ⟨textureType, 1, 1⟩), .process [⟨none, [], true, [], .pending, none, []⟩]]
    with hevents
  intro law
  have ends : ((System.after 8 0 events).bind fun s => (s.cancelAll []).bind fun _ =>
      s.shutdown [] [textureType, bufferType]).isSome = true := by
    decide +kernel
  obtain ⟨st, hst⟩ := Option.isSome_iff_exists.mp ends
  obtain ⟨s, hs, hst⟩ := Option.bind_eq_some_iff.mp hst
  obtain ⟨s₁, hs₁, hst⟩ := Option.bind_eq_some_iff.mp hst
  have seen : ∀ s ∈ System.after 8 0 events, ∀ s₁ ∈ s.cancelAll [],
      ∀ st ∈ s.shutdown [] [textureType, bufferType], ∃ job ∈ s₁.queued,
        IsUpload job.handle.typeId ∧ gpuObjects textureAndBuffer s₁ job.id = 1 ∧
          st.destroyed.count job.handle = 0 := by
    decide +kernel
  obtain ⟨job, hj, upload, objects, never⟩ := seen s hs s₁ hs₁ st hst
  have once := law s s₁ st hs hs₁ hst job hj upload 0 (objects ▸ Nat.one_pos)
  unfold timesFreed at once
  rw [objects, if_pos rfl, never] at once
  cases once

end PulseEngine.Graphics
