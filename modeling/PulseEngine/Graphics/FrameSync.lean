import PulseEngine.Graphics.FramePhases

/-!
# Frames and the device

When a run of frames keeps the protocol with the device. An image that is acquired is out until the
present phase, and what brings it there is not checked: the phases between go on only with a graph
and a submission, and the observers of a window release a swapchain at any time.
-/

namespace PulseEngine.Graphics.FrameSync

open Library

variable {settled : Bool} {s s' : State} {d d' : Device}

def Phase.holding : Phase → Bool
  | .recordGraph | .executeGraph | .submit | .present => true
  | _ => false

def State.Held (s : State) (entity : Nat) : Prop :=
  s.phase.holding = true ∧ entity ∈ s.context.prepared

/-- What the protocol needs of the world: a frame that has images out still has a callback when it
records, and no window whose image is out is resized or removed. When `settled` is demanded, no
swapchain has fewer back buffers than there are frames. -/
def Meets (settled : Bool) (s : State) : Event → Prop
  | .prepareWindows visits =>
    settled = true → ∀ visit ∈ visits, ∀ count, visit.creation = .complete count →
      s.frames.length ≤ count
  | .recordGraph => s.context.prepared ≠ [] → s.callbacks ≠ 0
  | .setWindow entity width height =>
    s.Held entity → ∀ window, s.windows entity = some window →
      releasesSwapchain { window with width := width, height := height } = false
  | .markResized entity width height =>
    s.Held entity → ∀ window, s.windows entity = some window →
      releasesSwapchain { window with width := width, height := height, resized := true } = false
  | .removeWindow entity => ¬ s.Held entity
  | _ => True

def State.Live (s : State) (entity : Nat) (swapchain : Swapchain) (handle : Nat) : Prop :=
  s.swapchain entity = some swapchain ∧ swapchain.handle = some handle

structure Synced (settled : Bool) (s : State) (d : Device) : Prop where
  made : ∀ {e sc h}, s.Live e sc h → h < s.next
  distinct : ∀ {e e' sc sc' h}, s.Live e sc h → s.Live e' sc' h → e = e'
  unused : ∀ {h}, s.next ≤ h → d.image h = none ∧ ∀ i, d.semaphore (h, i) = .idle
  contexts : ∀ frame ∈ s.frames, frame.context = true
  failed : s.context.failed = false
  active : s.context.prepared ≠ [] → s.context.active = true
  slot : s.context.active = true → s.context.frameIndex < s.frames.length
  nodup : s.context.prepared.Nodup
  /-- An image that is out is that of a window the frame has prepared. -/
  out : ∀ {h}, d.image h ≠ none →
    s.phase.holding = true ∧ ∃ e ∈ s.context.prepared, ∃ sc, s.Live e sc h
  held : ∀ {e}, s.Held e → ∃ sc h, s.Live e sc h ∧ d.image h = some sc.index
  /-- A semaphore that is signalled is one that the frame will wait for. -/
  signalled : ∀ {sem}, d.semaphore sem = .signalled →
    d.image sem.1 ≠ none ∧ sem ∈ s.context.waits ∧ s.context.submitted = false
  /-- What the frame will wait for is signalled until the submission. -/
  queued : s.phase.holding = true → s.context.submitted = false →
    ∀ sem ∈ s.context.waits, d.semaphore sem = .signalled
  empty : s.phase = .resetBackbuffer ∨ s.phase = .prepareWindows →
    s.context.prepared = [] ∧ s.context.waits = []
  unsubmitted : s.phase ≠ .present → s.phase ≠ .beginFrame → s.context.submitted = false
  recorded : s.phase = .executeGraph → s.context.prepared ≠ [] → s.context.graph = true
  executed : s.phase = .submit → s.context.prepared ≠ [] →
    (s.frames[s.context.frameIndex]?).any (·.cmds = 0) = false
  submitted : s.phase = .present → s.context.prepared ≠ [] → s.context.submitted = true
  /-- There are enough back buffers for every frame to have a semaphore of its own. -/
  counts : settled = true → ∀ {e sc h}, s.Live e sc h → s.frames.length ≤ sc.count
  place : ∀ {e sc h i}, s.Live e sc h → d.semaphore (h, i) = .signalled →
    i = s.context.frameIndex % sc.count
  waited : ∀ {e sc h i slot}, s.Live e sc h → d.semaphore (h, i) = .waited slot →
    i = slot % sc.count ∧ slot < s.frames.length
  current : s.phase ≠ .present → s.phase ≠ .beginFrame → s.context.active = true →
    ∀ sem, d.semaphore sem ≠ .waited s.context.frameIndex

lemma Synced.start (settled : Bool) (imageCount : Nat) :
    Synced settled (.start imageCount) .start where
  made live := by cases live.1
  distinct live := by cases live.1
  unused _ := ⟨rfl, fun _ => rfl⟩
  contexts frame h := by rw [List.eq_of_mem_replicate h]
  failed := rfl
  active h := absurd rfl h
  slot h := by cases h
  nodup := List.nodup_nil
  out h := absurd rfl h
  held h := by cases h.1
  signalled h := by cases h
  queued h := by cases h
  empty _ := ⟨rfl, rfl⟩
  unsubmitted _ _ := rfl
  recorded h := by cases h
  executed h := by cases h
  submitted h := by cases h
  counts _ _ _ _ live := by cases live.1
  place live := by cases live.1
  waited live := by cases live.1
  current _ _ h := by cases h

lemma Synced.eased (h : Synced settled s d) (eased : d.Eased d') : Synced settled s d' := by
  have signals : ∀ {sem}, d'.semaphore sem = .signalled → d.semaphore sem = .signalled := by
    intro sem e
    rcases eased.semaphore sem with same | ⟨idle, _⟩
    · exact same ▸ e
    · cases idle.symm.trans e
  have waits : ∀ {sem slot}, d'.semaphore sem = .waited slot → d.semaphore sem = .waited slot := by
    intro sem slot e
    rcases eased.semaphore sem with same | ⟨idle, _⟩
    · exact same ▸ e
    · cases idle.symm.trans e
  exact { h with
    unused := fun {handle} old => by
      refine ⟨by rw [eased.image]; exact (h.unused old).1, fun i => ?_⟩
      rcases eased.semaphore (handle, i) with same | ⟨idle, _⟩
      · exact same.trans ((h.unused old).2 i)
      · exact idle
    out := fun e => h.out (by rwa [eased.image] at e)
    held := fun e => by rw [eased.image]; exact h.held e
    signalled := fun e => by rw [eased.image]; exact h.signalled (signals e)
    queued := fun holding unsubmitted sem mem => by
      have signalled := h.queued holding unsubmitted sem mem
      rcases eased.semaphore sem with same | ⟨_, slot, waited⟩
      · exact same.trans signalled
      · cases signalled.symm.trans waited
    place := fun live e => h.place live (signals e)
    waited := fun live e => h.waited live (waits e)
    current := fun p b a sem e => h.current p b a sem (waits e) }

lemma Synced.emit (h : Synced settled s d) (calls : List Call) : Synced settled (s.emit calls) d :=
  { h with }

lemma Synced.forget (h : Synced settled s d) (next : s.next ≤ s'.next)
    (frames : s'.frames = s.frames) (context : s'.context = s.context) (phase : s'.phase = s.phase)
    (windows : ∀ e, s'.swapchain e = s.swapchain e ∨
      ¬ s.Held e ∧ ∀ sc', s'.swapchain e = some sc' → sc'.handle = none ∨
        ∃ sc, s.swapchain e = some sc ∧ sc.handle = sc'.handle ∧ sc.count = sc'.count) :
    Synced settled s' d := by
  have live : ∀ {e sc' handle}, s'.Live e sc' handle →
      ∃ sc, s.Live e sc handle ∧ sc.count = sc'.count := by
    intro e sc' handle l
    rcases windows e with same | ⟨_, gone⟩
    · exact ⟨sc', ⟨same ▸ l.1, l.2⟩, rfl⟩
    · rcases gone sc' l.1 with none | ⟨sc, found, same, count⟩
      · cases none.symm.trans l.2
      · exact ⟨sc, ⟨found, same.trans l.2⟩, count⟩
  have kept : ∀ {e sc handle}, s.Held e → s.Live e sc handle → s'.Live e sc handle := by
    intro e sc handle held l
    rcases windows e with same | ⟨free, _⟩
    · exact ⟨same.trans l.1, l.2⟩
    · exact absurd held free
  exact {
    made := fun l => by
      obtain ⟨sc, l, _⟩ := live l
      exact (h.made l).trans_le next
    distinct := fun l l' => by
      obtain ⟨sc, l, _⟩ := live l
      obtain ⟨sc', l', _⟩ := live l'
      exact h.distinct l l'
    unused := fun old => h.unused (next.trans old)
    contexts := by rw [frames]; exact h.contexts
    failed := by rw [context]; exact h.failed
    active := by rw [context]; exact h.active
    slot := by rw [context, frames]; exact h.slot
    nodup := by rw [context]; exact h.nodup
    out := fun e => by
      obtain ⟨holding, entity, mem, sc, l⟩ := h.out e
      rw [phase, context]
      exact ⟨holding, entity, mem, sc, kept ⟨holding, mem⟩ l⟩
    held := fun {e} held => by
      have held : s.Held e := by rwa [State.Held, phase, context] at held
      obtain ⟨sc, handle, l, image⟩ := h.held held
      exact ⟨sc, handle, kept held l, image⟩
    signalled := by rw [context]; exact h.signalled
    queued := by rw [context, phase]; exact h.queued
    empty := by rw [context, phase]; exact h.empty
    unsubmitted := by rw [context, phase]; exact h.unsubmitted
    recorded := by rw [context, phase]; exact h.recorded
    executed := by rw [context, phase, frames]; exact h.executed
    submitted := by rw [context, phase]; exact h.submitted
    counts := fun demanded e sc handle l => by
      obtain ⟨sc, l, count⟩ := live l
      rw [frames, ← count]
      exact h.counts demanded l
    place := fun l e => by
      obtain ⟨sc, l, count⟩ := live l
      rw [context, ← count]
      exact h.place l e
    waited := fun l e => by
      obtain ⟨sc, l, count⟩ := live l
      rw [frames, ← count]
      exact h.waited l e
    current := by rw [context, phase]; exact h.current }

lemma Synced.create {entity : Nat} {new : Swapchain} (h : Synced settled s d)
    (free : ¬ s.Held entity) (handle : new.handle = some s.next)
    (room : settled = true → s.frames.length ≤ new.count) (next : s'.next = s.next + 1)
    (frames : s'.frames = s.frames) (context : s'.context = s.context) (phase : s'.phase = s.phase)
    (here : s'.swapchain entity = some new)
    (other : ∀ e, e ≠ entity → s'.swapchain e = s.swapchain e) : Synced settled s' d := by
  have live : ∀ {e sc handle}, s'.Live e sc handle →
      e = entity ∧ sc = new ∧ handle = s.next ∨ e ≠ entity ∧ s.Live e sc handle := by
    intro e sc handle' l
    by_cases he : e = entity
    · subst he
      cases here.symm.trans l.1
      cases handle.symm.trans l.2
      exact .inl ⟨rfl, rfl, rfl⟩
    · exact .inr ⟨he, other e he ▸ l.1, l.2⟩
  have kept : ∀ {e sc handle}, s.Held e → s.Live e sc handle → s'.Live e sc handle := by
    intro e sc handle held l
    have he : e ≠ entity := by
      rintro rfl
      exact free held
    exact ⟨(other e he).trans l.1, l.2⟩
  have unused := h.unused (Nat.le_refl s.next)
  exact {
    made := fun {e sc handle'} l => by
      rw [next]
      rcases live l with ⟨_, _, rfl⟩ | ⟨_, l⟩
      · exact Nat.lt_succ_self _
      · exact Nat.lt_succ_of_lt (h.made l)
    distinct := fun {e e' sc sc' handle'} l l' => by
      rcases live l with ⟨rfl, _, rfl⟩ | ⟨_, l⟩
      · rcases live l' with ⟨rfl, _, _⟩ | ⟨_, l'⟩
        · rfl
        · exact absurd (h.made l') (Nat.lt_irrefl _)
      · rcases live l' with ⟨rfl, _, rfl⟩ | ⟨_, l'⟩
        · exact absurd (h.made l) (Nat.lt_irrefl _)
        · exact h.distinct l l'
    unused := fun old => h.unused (by omega)
    contexts := by rw [frames]; exact h.contexts
    failed := by rw [context]; exact h.failed
    active := by rw [context]; exact h.active
    slot := by rw [context, frames]; exact h.slot
    nodup := by rw [context]; exact h.nodup
    out := fun e => by
      obtain ⟨holding, e', mem, sc, l⟩ := h.out e
      rw [phase, context]
      exact ⟨holding, e', mem, sc, kept ⟨holding, mem⟩ l⟩
    held := fun {e} held => by
      have held : s.Held e := by rwa [State.Held, phase, context] at held
      obtain ⟨sc, handle, l, image⟩ := h.held held
      exact ⟨sc, handle, kept held l, image⟩
    signalled := by rw [context]; exact h.signalled
    queued := by rw [context, phase]; exact h.queued
    empty := by rw [context, phase]; exact h.empty
    unsubmitted := by rw [context, phase]; exact h.unsubmitted
    recorded := by rw [context, phase]; exact h.recorded
    executed := by rw [context, phase, frames]; exact h.executed
    submitted := by rw [context, phase]; exact h.submitted
    counts := fun demanded e sc handle' l => by
      rw [frames]
      rcases live l with ⟨_, rfl, _⟩ | ⟨_, l⟩
      · exact room demanded
      · exact h.counts demanded l
    place := fun {e sc handle' i} l e => by
      rw [context]
      rcases live l with ⟨_, _, rfl⟩ | ⟨_, l⟩
      · cases (unused.2 i).symm.trans e
      · exact h.place l e
    waited := fun {e sc handle' i slot} l e => by
      rw [frames]
      rcases live l with ⟨_, _, rfl⟩ | ⟨_, l⟩
      · cases (unused.2 i).symm.trans e
      · exact h.waited l e
    current := by rw [context, phase]; exact h.current }

def State.acquired (s : State) (entity : Nat) (sc : Swapchain) (handle : Nat) : State :=
  { s with
    context := { s.context with
      prepared := s.context.prepared ++ [entity]
      waits := s.context.waits ++ [(handle, s.context.frameIndex % sc.count)]
      signals := s.context.signals ++ [(handle, sc.index)] } }

lemma Synced.allowed {entity handle : Nat} {sc : Swapchain} (h : Synced settled s d)
    (live : s.Live entity sc handle) (new : entity ∉ s.context.prepared)
    (phase : s.phase = .recordGraph) (active : s.context.active = true) :
    d.image handle = none ∧
      d.semaphore (handle, s.context.frameIndex % sc.count) ≠ .signalled ∧
      (settled = true → d.semaphore (handle, s.context.frameIndex % sc.count) = .idle) := by
  have image : d.image handle = none := by
    by_contra image
    obtain ⟨_, e, mem, sc', live'⟩ := h.out image
    exact new (h.distinct live live' ▸ mem)
  have unsignalled :
      d.semaphore (handle, s.context.frameIndex % sc.count) ≠ .signalled :=
    fun e => (h.signalled e).1 image
  refine ⟨image, unsignalled, fun demanded => ?_⟩
  cases e : d.semaphore (handle, s.context.frameIndex % sc.count) with
  | idle => rfl
  | signalled => exact absurd e unsignalled
  | waited slot =>
    -- the slot that left the wait is the one of this frame, and that has ended
    obtain ⟨place, bound⟩ := h.waited live e
    have room := h.counts demanded live
    have here := h.slot active
    rw [Nat.mod_eq_of_lt (here.trans_le room), Nat.mod_eq_of_lt (bound.trans_le room)] at place
    subst place
    exact absurd e (h.current (by simp [phase]) (by simp [phase]) active _)

lemma Synced.acquire {entity handle : Nat} {sc : Swapchain} (h : Synced settled s d)
    (live : s.Live entity sc handle) (new : entity ∉ s.context.prepared)
    (phase : s.phase = .recordGraph) (active : s.context.active = true) :
    Synced settled (s.acquired entity sc handle)
      (d.acquired handle (handle, s.context.frameIndex % sc.count) sc.index) := by
  obtain ⟨image, _, _⟩ := h.allowed live new phase active
  have bound := h.made live
  refine {
    h with
    unused := fun {handle'} old => ?_
    active := fun _ => active
    nodup := ?_
    out := fun {handle'} e => ?_
    held := fun {e} held => ?_
    signalled := fun {sem} e => ?_
    queued := fun holding unsubmitted sem mem => ?_
    empty := fun e => by rcases e with e | e <;> cases phase.symm.trans e
    recorded := fun e => by cases phase.symm.trans e
    executed := fun e => by cases phase.symm.trans e
    submitted := fun e => by cases phase.symm.trans e
    place := fun {e sc' handle' i} l signalled => ?_
    waited := fun {e sc' handle' i slot} l waited => ?_
    current := fun p b a sem e => ?_ }
  · have apart : handle' ≠ handle := fun same => by
      subst same
      exact absurd bound (Nat.not_lt.mpr old)
    refine ⟨(Function.update_of_ne apart _ _).trans (h.unused old).1, fun i => ?_⟩
    exact (Function.update_of_ne (fun same => apart (congrArg Prod.fst same)) _ _).trans
      ((h.unused old).2 i)
  · refine List.nodup_append.mpr ⟨h.nodup, List.nodup_singleton _, ?_⟩
    rintro a ha b hb rfl
    exact new (List.mem_singleton.mp hb ▸ ha)
  · refine ⟨by rw [show (s.acquired entity sc handle).phase = s.phase from rfl, phase]; rfl, ?_⟩
    by_cases same : handle' = handle
    · subst same
      exact ⟨entity, List.mem_append_right _ List.mem_cons_self, sc, live⟩
    · have e : d.image handle' ≠ none := by
        intro none
        exact e ((Function.update_of_ne same _ _).trans none)
      obtain ⟨_, e', mem, sc', live'⟩ := h.out e
      exact ⟨e', List.mem_append_left _ mem, sc', live'⟩
  · rcases List.mem_append.mp held.2 with mem | mem
    · obtain ⟨sc', handle', live', image'⟩ := h.held ⟨held.1, mem⟩
      refine ⟨sc', handle', live', (Function.update_of_ne ?_ _ _).trans image'⟩
      rintro rfl
      cases image.symm.trans image'
    · cases List.mem_singleton.mp mem
      exact ⟨sc, handle, live, Function.update_self ..⟩
  · by_cases same : sem = (handle, s.context.frameIndex % sc.count)
    · subst same
      refine ⟨?_, List.mem_append_right _ List.mem_cons_self,
        h.unsubmitted (by simp [phase]) (by simp [phase])⟩
      show Function.update d.image handle (some sc.index) handle ≠ none
      rw [Function.update_self]
      exact Option.some_ne_none _
    · obtain ⟨out, mem, unsubmitted⟩ := h.signalled ((Function.update_of_ne same _ _).symm.trans e)
      refine ⟨?_, List.mem_append_left _ mem, unsubmitted⟩
      show Function.update d.image handle (some sc.index) sem.1 ≠ none
      by_cases same' : sem.1 = handle
      · rw [same', Function.update_self]
        exact Option.some_ne_none _
      · rw [Function.update_of_ne same']
        exact out
  · show Function.update d.semaphore _ _ sem = _
    by_cases same : sem = (handle, s.context.frameIndex % sc.count)
    · rw [same, Function.update_self]
    · rw [Function.update_of_ne same]
      rcases List.mem_append.mp mem with mem | mem
      · exact h.queued holding unsubmitted sem mem
      · exact absurd (List.mem_singleton.mp mem) same
  · by_cases same : (handle', i) = (handle, s.context.frameIndex % sc.count)
    · cases same
      cases h.distinct live l
      cases live.1.symm.trans l.1
      rfl
    · exact h.place l ((Function.update_of_ne same _ _).symm.trans signalled)
  · by_cases same : (handle', i) = (handle, s.context.frameIndex % sc.count)
    · cases same
      cases (Function.update_self _ _ _).symm.trans waited
    · exact h.waited l ((Function.update_of_ne same _ _).symm.trans waited)
  · by_cases same : sem = (handle, s.context.frameIndex % sc.count)
    · subst same
      cases (Function.update_self _ _ _).symm.trans e
    · exact h.current p b a sem ((Function.update_of_ne same _ _).symm.trans e)

def Keeps (settled : Bool) (s : State) : Prop :=
  ∃ d, run (Device.step settled) Device.start s.log = some d ∧ Synced settled s d

lemma run_emit {calls : List Call} (e : run (Device.step settled) Device.start s.log = some d)
    (e' : run (Device.step settled) d calls = some d') :
    run (Device.step settled) Device.start (s.emit calls).log = some d' := by
  show run _ _ (s.log ++ calls) = _
  rw [run_append, e, Option.bind_some, e']

lemma swapchain_setWindow_self (s : State) (entity : Nat) (window : Option Window) :
    (s.setWindow entity window).swapchain entity = window.bind Window.swapchain := by
  show Option.bind (Function.update s.windows entity window entity) _ = _
  rw [Function.update_self]

lemma swapchain_setWindow_of_ne (s : State) {entity e : Nat} (h : e ≠ entity)
    (window : Option Window) : (s.setWindow entity window).swapchain e = s.swapchain e := by
  show Option.bind (Function.update s.windows entity window e) _ = _
  rw [Function.update_of_ne h]
  rfl

/-- What `ensure_cgpu_swapchain` does: it keeps the swapchain, loses it, or makes the next one. It
releases what was there and what it could not finish. -/
inductive Ensured (next : Nat) (sc : Swapchain) (creation : Creation) :
    Bool × List Call × Swapchain → Prop where
  | kept (ensured : Bool) : Ensured next sc creation (ensured, [], sc)
  | lost {calls : List Call}
      (quiet : ∀ d : Device, (∀ h, sc.handle = some h → d.image h = none) → d.image next = none →
        ∀ call ∈ calls, call.Quiet d) : Ensured next sc creation (false, calls, .reset)
  | made {calls : List Call} {new : Swapchain}
      (quiet : ∀ d : Device, (∀ h, sc.handle = some h → d.image h = none) → d.image next = none →
        ∀ call ∈ calls, call.Quiet d)
      (handle : new.handle = some next) (complete : creation = .complete new.count) :
      Ensured next sc creation (true, calls, new)

lemma Swapchain.release_quiet {sc : Swapchain} (h : ∀ handle, sc.handle = some handle →
    d.image handle = none) : ∀ call ∈ sc.release, call.Quiet d := by
  intro call hc
  obtain ⟨handle, mem, rfl⟩ := List.mem_map.mp hc
  exact h handle (Option.mem_toList.mp mem)

lemma ensureSwapchain_spec (next : Nat) (window : Window) (sc : Swapchain) (creation : Creation) :
    Ensured next sc creation (ensureSwapchain next window sc creation) := by
  unfold ensureSwapchain
  split
  · exact .kept false
  split
  · cases creation with
    | fails =>
      refine .lost fun d old _ call hc => ?_
      rcases List.mem_append.mp hc with hc | hc
      · rcases List.mem_cons.mp hc with rfl | hc
        · trivial
        · exact Swapchain.release_quiet old call hc
      · cases hc
    | incomplete count =>
      refine .lost fun d old new call hc => ?_
      rcases List.mem_append.mp hc with hc | hc
      · rcases List.mem_cons.mp hc with rfl | hc
        · trivial
        rcases List.mem_append.mp hc with hc | hc
        · exact Swapchain.release_quiet old call hc
        · cases List.mem_singleton.mp hc
          trivial
      · cases List.mem_singleton.mp hc
        exact new
    | complete count =>
      refine .made (fun d old _ call hc => ?_) rfl rfl
      rcases List.mem_cons.mp hc with rfl | hc
      · trivial
      rcases List.mem_append.mp hc with hc | hc
      · exact Swapchain.release_quiet old call hc
      · cases List.mem_singleton.mp hc
        trivial
  · exact .kept _

/-- What `acquire_window_image` does: it has no swapchain to ask, or it asks and gets an image or
none. -/
inductive Acquired (sc : Swapchain) (frameIndex : Nat) : Bool × List Call × Swapchain → Prop where
  | unasked (index : Nat) : Acquired sc frameIndex (false, [], { sc with index := index })
  | failed (index : Nat) {handle : Nat} (here : sc.handle = some handle) :
      Acquired sc frameIndex (false,
        [.acquire handle (handle, frameIndex % sc.count) none], { sc with index := index })
  | got (image : Nat) {handle : Nat} (here : sc.handle = some handle) :
      Acquired sc frameIndex (true,
        [.acquire handle (handle, frameIndex % sc.count) (some image)], { sc with index := image })

lemma acquireWindowImage_spec (sc : Swapchain) (frameIndex : Nat)
    (acquired : (count : Nat) → Option (Fin count)) :
    Acquired sc frameIndex (acquireWindowImage sc frameIndex acquired) := by
  obtain ⟨handle, count, width, height, index⟩ := sc
  cases handle with
  | none => exact .unasked _
  | some handle =>
    show Acquired _ _ (if count = 0 then _ else _)
    split
    · exact .unasked _
    · dsimp only
      cases acquired count with
      | none => exact .failed _ rfl
      | some image =>
        have isIn : (Option.map (fun x : Fin count => x.val) (some image)).any
            (· < count) = true := decide_eq_true image.isLt
        rw [isIn]
        exact .got image.val rfl

structure Prepares (s s' : State) (entity : Nat) : Prop where
  phase : s'.phase = s.phase
  active : s'.context.active = s.context.active
  frames : s'.frames = s.frames
  prepared : s'.context.prepared = s.context.prepared ∨
    s'.context.prepared = s.context.prepared ++ [entity]

lemma Keeps.acquire {visit : Visit} {window : Window} {sc : Swapchain} (h : Keeps settled s)
    (phase : s.phase = .recordGraph) (active : s.context.active = true)
    (new : visit.entity ∉ s.context.prepared) (here : s.swapchain visit.entity = some sc) :
    Keeps settled (s.acquire visit window sc) ∧
      Prepares s (s.acquire visit window sc) visit.entity := by
  obtain ⟨d, legal, synced⟩ := h
  have indexed : ∀ index, Synced settled
      (s.setWindow visit.entity
        (some { window with swapchain := some { sc with index := index } })) d := by
    intro index
    refine synced.forget (Nat.le_refl _) rfl rfl rfl fun e => ?_
    by_cases he : e = visit.entity
    · subst he
      refine .inr ⟨fun held => new held.2, fun sc' e => .inr ⟨sc, here, ?_⟩⟩
      cases (swapchain_setWindow_self _ _ _).symm.trans e
      exact ⟨rfl, rfl⟩
    · exact .inl (swapchain_setWindow_of_ne s he _)
  have spec := acquireWindowImage_spec sc s.context.frameIndex visit.acquired
  unfold State.acquire
  revert spec
  generalize acquireWindowImage sc s.context.frameIndex visit.acquired = result
  intro spec
  cases spec with
  | unasked index =>
    exact ⟨⟨d, run_emit (s := s) legal rfl, (indexed index).emit _⟩, rfl, rfl, rfl, .inl rfl⟩
  | @failed index handle hhandle =>
    have allowed := synced.allowed ⟨here, hhandle⟩ new phase active
    refine ⟨⟨d, run_emit (s := s) legal ?_, (indexed index).emit _⟩, rfl, rfl, rfl, .inl rfl⟩
    rw [run_cons]
    show (if _ then _ else _ : Option Device).bind _ = _
    rw [if_pos allowed]
    rfl
  | @got image handle hhandle =>
    have allowed := synced.allowed ⟨here, hhandle⟩ new phase active
    have acquired := (indexed image).acquire
      (show State.Live _ visit.entity { sc with index := image } handle from
        ⟨swapchain_setWindow_self _ _ _, hhandle⟩) new phase active
    refine ⟨⟨d.acquired handle (handle, s.context.frameIndex % sc.count) image,
      run_emit (s := s) legal ?_, ?_⟩, rfl, rfl, rfl, .inr rfl⟩
    · rw [run_cons]
      show (if _ then _ else _ : Option Device).bind _ = _
      rw [if_pos allowed]
      rfl
    · have kept := acquired.emit [.acquire handle (handle, s.context.frameIndex % sc.count)
        (some image)]
      obtain ⟨_, count, width, height, _⟩ := sc
      cases hhandle
      exact kept

lemma Keeps.prepareSwapchain {visit : Visit} {window : Window} {sc : Swapchain}
    (h : Keeps settled s) (phase : s.phase = .recordGraph) (active : s.context.active = true)
    (new : visit.entity ∉ s.context.prepared) (here : s.swapchain visit.entity = some sc)
    (room : settled = true → ∀ count, visit.creation = .complete count → s.frames.length ≤ count) :
    Keeps settled (s.prepareSwapchain visit window sc) ∧
      Prepares s (s.prepareSwapchain visit window sc) visit.entity := by
  obtain ⟨d, legal, synced⟩ := h
  have free : ¬ s.Held visit.entity := fun held => new held.2
  -- no image of this window is out, and none of a swapchain that is not made
  have old : ∀ handle, sc.handle = some handle → d.image handle = none := by
    intro handle hhandle
    by_contra image
    obtain ⟨_, e, mem, sc', live'⟩ := synced.out image
    exact new (synced.distinct ⟨here, hhandle⟩ live' ▸ mem)
  have next := (synced.unused (Nat.le_refl s.next)).1
  have go : ∀ {calls sc'}, Keeps settled (s.ensured visit.entity window calls sc') →
      Keeps settled ((s.ensured visit.entity window calls sc').acquire visit window sc') ∧
        Prepares s ((s.ensured visit.entity window calls sc').acquire visit window sc')
          visit.entity := by
    intro calls sc' kept
    have acquired : Keeps settled
        ((s.ensured visit.entity window calls sc').acquire visit window sc') ∧ Prepares _ _ _ :=
      kept.acquire phase active new (swapchain_setWindow_self s _ _)
    obtain ⟨keeps, prepares⟩ := acquired
    exact ⟨keeps, prepares.phase, prepares.active, prepares.frames, prepares.prepared⟩
  have spec := ensureSwapchain_spec s.next window sc visit.creation
  unfold State.prepareSwapchain
  revert spec
  generalize ensureSwapchain s.next window sc visit.creation = result
  intro spec
  cases spec with
  | kept ensured =>
    have kept : Keeps settled (s.ensured visit.entity window [] sc) := by
      refine ⟨d, run_emit (s := s) legal rfl, synced.forget (Nat.le_succ _) rfl rfl rfl ?_⟩
      intro e
      by_cases he : e = visit.entity
      · subst he
        exact .inl ((swapchain_setWindow_self _ _ _).trans here.symm)
      · exact .inl (swapchain_setWindow_of_ne s he _)
    cases ensured with
    | false => exact ⟨kept, rfl, rfl, rfl, .inl rfl⟩
    | true => exact go kept
  | lost quiet =>
    obtain ⟨d', legal', eased⟩ := Device.run_quiet (quiet d old next)
    refine ⟨⟨d', run_emit (s := s) legal legal',
      (synced.eased eased).forget (Nat.le_succ _) rfl rfl rfl fun e => ?_⟩, rfl, rfl, rfl, .inl rfl⟩
    by_cases he : e = visit.entity
    · subst he
      refine .inr ⟨free, fun sc' e => .inl ?_⟩
      cases (swapchain_setWindow_self s _ _).symm.trans e
      rfl
    · exact .inl (swapchain_setWindow_of_ne s he _)
  | made quiet handle complete =>
    obtain ⟨d', legal', eased⟩ := Device.run_quiet (quiet d old next)
    exact go ⟨d', run_emit (s := s) legal legal', (synced.eased eased).create free handle
      (fun demanded => room demanded _ complete) rfl rfl rfl rfl
      (swapchain_setWindow_self s _ _) fun e he => swapchain_setWindow_of_ne s he _⟩

lemma Keeps.prepareWindow {visit : Visit} (h : Keeps settled s) (phase : s.phase = .recordGraph)
    (active : s.context.active = true) (new : visit.entity ∉ s.context.prepared)
    (room : settled = true → ∀ count, visit.creation = .complete count → s.frames.length ≤ count) :
    Keeps settled (s.prepareWindow visit) ∧ Prepares s (s.prepareWindow visit) visit.entity := by
  unfold State.prepareWindow
  split
  · rename_i found
    exact h.prepareSwapchain phase active new (congrArg (Option.bind · Window.swapchain) found) room
  · exact ⟨h, rfl, rfl, rfl, .inl rfl⟩

lemma Keeps.prepareLoop {visits : List Visit} (h : Keeps settled s) (phase : s.phase = .recordGraph)
    (active : s.context.active = true) (nodup : (visits.map Visit.entity).Nodup)
    (new : ∀ visit ∈ visits, visit.entity ∉ s.context.prepared)
    (room : settled = true → ∀ visit ∈ visits, ∀ count, visit.creation = .complete count →
      s.frames.length ≤ count) : Keeps settled (visits.foldl State.prepareWindow s) := by
  induction visits generalizing s with
  | nil => exact h
  | cons visit visits ih =>
    obtain ⟨kept, prepares⟩ := h.prepareWindow phase active (new visit List.mem_cons_self)
      fun demanded => room demanded visit List.mem_cons_self
    obtain ⟨first, nodup⟩ := List.nodup_cons.mp nodup
    refine ih kept (prepares.phase.trans phase) (prepares.active.trans active) nodup ?_ ?_
    · intro other hother
      rcases prepares.prepared with same | more
      · rw [same]
        exact new other (List.mem_cons_of_mem _ hother)
      · rw [more]
        intro mem
        rcases List.mem_append.mp mem with mem | mem
        · exact new other (List.mem_cons_of_mem _ hother) mem
        · exact first (List.mem_singleton.mp mem ▸ List.mem_map_of_mem hother)
    · intro demanded other hother
      rw [prepares.frames]
      exact room demanded other (List.mem_cons_of_mem _ hother)

end PulseEngine.Graphics.FrameSync
