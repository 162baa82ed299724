import PulseEngine.Graphics.FrameSync

/-!
# Runs of frames

Every phase and everything that happens to a window keeps the protocol with the device, if no frame
loses its callbacks between the acquire of an image and the recording, and no window is resized or
removed while its image is out. `frames_synced` says so of every run.
-/

namespace PulseEngine.Graphics.FrameSync

open Library

variable {settled : Bool} {s s' : State} {d d' : Device}

lemma Synced.over (h : Synced settled s d) (phase : s.phase.holding = false) :
    (∀ handle, d.image handle = none) ∧ ∀ sem, d.semaphore sem ≠ .signalled := by
  have image : ∀ handle, d.image handle = none := by
    intro handle
    by_contra out
    cases phase.symm.trans (h.out out).1
  exact ⟨image, fun sem e => (h.signalled e).1 (image sem.1)⟩

lemma contexts_modify {frames : List FrameData} (h : ∀ frame ∈ frames, frame.context = true)
    (slot : Nat) {f : FrameData → FrameData} (same : ∀ frame, (f frame).context = frame.context) :
    ∀ frame ∈ frames.modify slot f, frame.context = true := by
  intro frame mem
  obtain ⟨i, e⟩ := List.mem_iff_getElem?.mp mem
  rw [List.getElem?_modify] at e
  obtain ⟨frame', e', rfl⟩ := Option.map_eq_some_iff.mp e
  have old := h frame' (List.mem_iff_getElem?.mpr ⟨i, e'⟩)
  split
  · rw [same]
    exact old
  · exact old

lemma Keeps.beginFrame (h : Keeps settled s) (phase : s.phase = .beginFrame) :
    Keeps settled { s with phase := .resetBackbuffer }.beginFrame := by
  obtain ⟨d, legal, synced⟩ := h
  obtain ⟨image, unsignalled⟩ := synced.over (by rw [phase]; rfl)
  have reset : ∀ {d' : Device} (context : FrameContext), d.Eased d' →
      context.prepared = [] → context.waits = [] → context.submitted = false →
      context.failed = false → (context.active = true → context.frameIndex < s.frames.length ∧
        ∀ sem, d'.semaphore sem ≠ .waited context.frameIndex) →
      Synced settled { s with phase := .resetBackbuffer, context := context } d' := by
    intro d' context eased noneLeft noWaits unsubmitted failed active
    have synced := synced.eased eased
    have image' : ∀ handle, d'.image handle = none := by
      intro handle
      rw [eased.image]
      exact image handle
    have unsignalled' : ∀ sem, d'.semaphore sem ≠ .signalled := fun sem e =>
      (synced.signalled e).1 (image' sem.1)
    exact { synced with
      failed := failed
      active := fun e => absurd noneLeft e
      slot := fun e => (active e).1
      nodup := noneLeft ▸ List.nodup_nil
      out := fun e => absurd (image' _) e
      held := fun e => by cases e.1
      signalled := fun e => absurd e (unsignalled' _)
      queued := fun e => by cases e
      empty := fun _ => ⟨noneLeft, noWaits⟩
      unsubmitted := fun _ _ => unsubmitted
      recorded := fun e => by cases e
      executed := fun e => by cases e
      submitted := fun e => by cases e
      place := fun _ e => absurd e (unsignalled' _)
      current := fun _ _ e => (active e).2 }
  unfold State.beginFrame
  dsimp only
  split
  · exact ⟨d, legal, reset .reset (.refl d) rfl rfl rfl rfl fun e => by cases e⟩
  rename_i some
  have bound : s.frameIndex % s.frames.length < s.frames.length :=
    Nat.mod_lt _ (List.length_pos_iff.mpr some)
  have synced' := reset { FrameContext.reset with
    frameIndex := s.frameIndex % s.frames.length, active := true } (d.fenced_eased _)
    rfl rfl rfl rfl fun _ => ⟨bound, d.fenced_waited _⟩
  refine ⟨_, run_emit (s := { s with context := .reset, phase := .resetBackbuffer }) legal
    (d.run_fenced settled _), ?_⟩
  exact { synced' with
    contexts := contexts_modify synced.contexts _ fun _ => rfl
    slot := fun _ => bound.trans_eq (List.length_modify ..).symm
    counts := fun demanded e sc handle live =>
      (List.length_modify ..).trans_le (synced'.counts demanded live)
    executed := fun e => by cases e
    waited := fun live e => by
      obtain ⟨place, bound⟩ := synced'.waited live e
      exact ⟨place, bound.trans_eq (List.length_modify ..).symm⟩ }

lemma Synced.next {phase : Phase} {context : FrameContext} (h : Synced settled s d)
    (holding : phase.holding = s.phase.holding) (failed : context.failed = false)
    (frameIndex : context.frameIndex = s.context.frameIndex)
    (active : context.active = s.context.active)
    (prepared : context.prepared = s.context.prepared) (waits : context.waits = s.context.waits)
    (same : context.submitted = s.context.submitted)
    (empty : phase = .prepareWindows → s.phase = .resetBackbuffer)
    (recorded : phase = .executeGraph → s.context.prepared ≠ [] → context.graph = true)
    (executed : phase = .submit → s.context.prepared ≠ [] →
      (s.frames[s.context.frameIndex]?).any (·.cmds = 0) = false)
    (early : s.phase ≠ .present ∧ s.phase ≠ .beginFrame) (later : phase ≠ .resetBackbuffer)
    (before : phase ≠ .present) :
    Synced settled { s with phase := phase, context := context } d :=
  { h with
    failed := failed
    active := fun e => active.trans (h.active (prepared ▸ e))
    slot := fun e => frameIndex.trans_lt (h.slot (active.symm.trans e))
    nodup := prepared ▸ h.nodup
    out := fun e => by
      obtain ⟨held, entity, mem, sc, live⟩ := h.out e
      exact ⟨holding.trans held, entity, prepared ▸ mem, sc, live⟩
    held := fun e => h.held ⟨holding.symm.trans e.1, prepared ▸ e.2⟩
    signalled := fun e => by
      obtain ⟨out, mem, unsubmitted⟩ := h.signalled e
      exact ⟨out, waits ▸ mem, same.trans unsubmitted⟩
    queued := fun e unsubmitted sem mem =>
      h.queued (holding.symm.trans e) (same.symm.trans unsubmitted) sem (waits ▸ mem)
    empty := fun e => by
      rcases e with e | e
      · exact absurd e later
      · rw [prepared, waits]
        exact h.empty (.inl (empty e))
    unsubmitted := fun _ _ => same.trans (h.unsubmitted early.1 early.2)
    recorded := fun e noneEmpty => recorded e (prepared ▸ noneEmpty)
    executed := fun e noneEmpty => by
      rw [frameIndex]
      exact executed e (prepared ▸ noneEmpty)
    submitted := fun e => absurd e before
    place := fun live e => by
      rw [frameIndex]
      exact h.place live e
    current := fun _ _ e sem => by
      rw [frameIndex]
      exact h.current early.1 early.2 (active.symm.trans e) sem }

lemma Keeps.prepareWindows {visits : List Visit} (h : Keeps settled s)
    (phase : s.phase = .prepareWindows) (nodup : (visits.map Visit.entity).Nodup)
    (room : settled = true → ∀ visit ∈ visits, ∀ count, visit.creation = .complete count →
      s.frames.length ≤ count) :
    Keeps settled ({ s with phase := .recordGraph }.prepareWindows visits) := by
  obtain ⟨d, legal, synced⟩ := h
  obtain ⟨image, unsignalled⟩ := synced.over (by rw [phase]; rfl)
  obtain ⟨noneLeft, noWaits⟩ := synced.empty (.inr phase)
  have early : s.phase ≠ .present ∧ s.phase ≠ .beginFrame := by simp [phase]
  have keeps : Keeps settled { s with phase := .recordGraph } := by
    refine ⟨d, legal, { synced with
      out := fun e => absurd (image _) e
      held := fun e => absurd e.2 (noneLeft ▸ List.not_mem_nil)
      queued := fun _ _ sem mem => absurd mem (noWaits ▸ List.not_mem_nil)
      empty := fun e => by rcases e with e | e <;> cases e
      unsubmitted := fun _ _ => synced.unsubmitted early.1 early.2
      recorded := fun e => by cases e
      executed := fun e => by cases e
      submitted := fun e => by cases e
      current := fun _ _ => synced.current early.1 early.2 }⟩
  unfold State.prepareWindows
  split
  · rename_i go
    exact keeps.prepareLoop rfl go.1 nodup (fun _ _ => by rw [noneLeft]; exact List.not_mem_nil) room
  · exact keeps

lemma Keeps.recordGraph (h : Keeps settled s) (phase : s.phase = .recordGraph)
    (callbacks : s.context.prepared ≠ [] → s.callbacks ≠ 0) :
    Keeps settled { s with phase := .executeGraph }.recordGraph := by
  obtain ⟨d, legal, synced⟩ := h
  have early : s.phase ≠ .present ∧ s.phase ≠ .beginFrame := by simp [phase]
  unfold State.recordGraph
  split
  · exact ⟨d, legal, synced.next (by rw [phase]; rfl) synced.failed rfl rfl rfl rfl rfl nofun
      (fun _ _ => rfl) nofun early nofun nofun⟩
  · rename_i skipped
    refine ⟨d, legal, synced.next (by rw [phase]; rfl) synced.failed rfl rfl rfl rfl rfl nofun
      (fun _ some => ?_) nofun early nofun nofun⟩
    exact absurd ⟨synced.active some, some, callbacks some⟩ skipped

lemma Synced.hasContext (h : Synced settled s d) (active : s.context.active = true) :
    ∃ frame, s.frames[s.context.frameIndex]? = some frame ∧ frame.context = true :=
  ⟨_, List.getElem?_eq_getElem (h.slot active), h.contexts _ (List.getElem_mem _)⟩

lemma Keeps.executeGraph (h : Keeps settled s) (phase : s.phase = .executeGraph) :
    Keeps settled { s with phase := .submit }.executeGraph := by
  obtain ⟨d, legal, synced⟩ := h
  have early : s.phase ≠ .present ∧ s.phase ≠ .beginFrame := by simp [phase]
  unfold State.executeGraph
  split
  · rename_i go
    obtain ⟨frame, found, context⟩ := synced.hasContext go.1
    have has : ({ s with phase := .submit } : State).hasContext = true := by
      show (s.frames[s.context.frameIndex]?).any _ = true
      rw [found]
      exact context
    rw [if_pos has]
    refine ⟨d, legal, { synced with
      contexts := contexts_modify synced.contexts _ fun _ => rfl
      slot := fun e => (synced.slot e).trans_eq (List.length_modify ..).symm
      out := fun e => by
        obtain ⟨_, rest⟩ := synced.out e
        exact ⟨rfl, rest⟩
      held := fun e => synced.held ⟨by rw [phase]; rfl, e.2⟩
      queued := fun _ => synced.queued (by rw [phase]; rfl)
      empty := fun e => by rcases e with e | e <;> cases e
      unsubmitted := fun _ _ => synced.unsubmitted early.1 early.2
      recorded := fun e => by cases e
      executed := fun _ _ => ?_
      submitted := fun e => by cases e
      counts := fun demanded e sc handle live =>
        (List.length_modify ..).trans_le (synced.counts demanded live)
      waited := fun live e => by
        obtain ⟨place, bound⟩ := synced.waited live e
        exact ⟨place, bound.trans_eq (List.length_modify ..).symm⟩
      current := fun _ _ => synced.current early.1 early.2 }⟩
    show ((s.frames.modify s.context.frameIndex _)[s.context.frameIndex]?).any _ = false
    rw [List.getElem?_modify_eq, found]
    rfl
  · rename_i skipped
    have none : s.context.prepared = [] := by
      by_contra some
      exact skipped ⟨synced.active some, synced.failed, synced.recorded phase some⟩
    exact ⟨d, legal, synced.next (by rw [phase]; rfl) synced.failed rfl rfl rfl rfl rfl nofun nofun
      (fun _ some => absurd none some) early nofun nofun⟩

lemma Keeps.submit (h : Keeps settled s) (phase : s.phase = .submit) :
    Keeps settled { s with phase := .present }.submit := by
  obtain ⟨d, legal, synced⟩ := h
  have early : s.phase ≠ .present ∧ s.phase ≠ .beginFrame := by simp [phase]
  have holding : s.phase.holding = true := by rw [phase]; rfl
  have unsubmitted := synced.unsubmitted early.1 early.2
  unfold State.submit
  split
  · rename_i go
    obtain ⟨frame, found, context⟩ := synced.hasContext go.1
    have has : ({ s with phase := .present } : State).hasContext = true := by
      show (s.frames[s.context.frameIndex]?).any _ = true
      rw [found]
      exact context
    have commands : ¬ (s.frames[s.context.frameIndex]?).any (·.cmds = 0) = true := by
      rw [synced.executed phase go.2.2]
      exact Bool.false_ne_true
    rw [if_pos has]
    refine (congrArg (Keeps settled) (if_neg commands)).mpr ?_
    refine ⟨{ d with
      busy := Function.update d.busy s.context.frameIndex true
      semaphore := fun sem =>
        if sem ∈ s.context.waits then .waited s.context.frameIndex else d.semaphore sem },
      run_emit (s := s) legal rfl, { synced with
      unused := fun {handle} old => ?_
      active := fun _ => go.1
      out := fun e => by
        obtain ⟨_, rest⟩ := synced.out e
        exact ⟨rfl, rest⟩
      held := fun e => synced.held ⟨holding, e.2⟩
      signalled := fun {sem} e => ?_
      queued := fun _ e => by cases e
      empty := fun e => by rcases e with e | e <;> cases e
      unsubmitted := fun e => absurd rfl e
      recorded := fun e => by cases e
      executed := fun e => by cases e
      submitted := fun _ _ => rfl
      place := fun {e sc handle i} live e => ?_
      waited := fun {e sc handle i slot} live e => ?_
      current := fun e => absurd rfl e }⟩
    · obtain ⟨image, idle⟩ := synced.unused old
      refine ⟨image, fun i => (if_neg fun mem => ?_).trans (idle i)⟩
      cases (synced.queued holding unsubmitted _ mem).symm.trans (idle i)
    · by_cases mem : sem ∈ s.context.waits
      · cases (if_pos mem).symm.trans e
      · exact absurd (synced.signalled ((if_neg mem).symm.trans e)).2.1 mem
    · by_cases mem : (handle, i) ∈ s.context.waits
      · cases (if_pos mem).symm.trans e
      · exact synced.place live ((if_neg mem).symm.trans e)
    · by_cases mem : (handle, i) ∈ s.context.waits
      · cases (if_pos mem).symm.trans e
        exact ⟨synced.place live (synced.queued holding unsubmitted _ mem), synced.slot go.1⟩
      · exact synced.waited live ((if_neg mem).symm.trans e)
  · rename_i skipped
    have none : s.context.prepared = [] := by
      by_contra some
      exact skipped ⟨synced.active some, synced.failed, some⟩
    exact ⟨d, legal, { synced with
      out := fun e => by
        obtain ⟨_, rest⟩ := synced.out e
        exact ⟨rfl, rest⟩
      held := fun e => synced.held ⟨holding, e.2⟩
      queued := fun _ => synced.queued holding
      empty := fun e => by rcases e with e | e <;> cases e
      unsubmitted := fun e => absurd rfl e
      recorded := fun e => by cases e
      executed := fun e => by cases e
      submitted := fun _ some => absurd none some
      current := fun e => absurd rfl e }⟩

lemma Synced.run_present (h : Synced settled s d) (holding : s.phase.holding = true)
    {entities : List Nat} (prepared : ∀ e ∈ entities, e ∈ s.context.prepared)
    (nodup : entities.Nodup) (image : ∀ e ∈ entities, ∀ sc handle, s.Live e sc handle →
      d'.image handle = d.image handle) :
    ∃ d'', run (Device.step settled) d' (entities.filterMap s.presentCall) = some d'' ∧
      d''.semaphore = d'.semaphore ∧
      ∀ handle, d''.image handle ≠ none → d'.image handle ≠ none ∧
        ∀ e ∈ entities, ∀ sc, ¬ s.Live e sc handle := by
  induction entities generalizing d' with
  | nil => exact ⟨d', rfl, rfl, fun _ out => ⟨out, fun _ mem => absurd mem List.not_mem_nil⟩⟩
  | cons e entities ih =>
    obtain ⟨first, nodup⟩ := List.nodup_cons.mp nodup
    obtain ⟨sc, handle, live, out⟩ := h.held ⟨holding, prepared e List.mem_cons_self⟩
    have call : s.presentCall e = some (.present (some handle) sc.index) := by
      show (s.swapchain e).map _ = _
      rw [live.1]
      exact congrArg (fun x => some (Call.present x sc.index)) live.2
    have presented : Device.step settled d' (.present (some handle) sc.index) =
        some { d' with image := Function.update d'.image handle none } :=
      if_pos ((image e List.mem_cons_self sc handle live).trans out)
    obtain ⟨d'', legal, semaphore, gone⟩ := @ih
      { d' with image := Function.update d'.image handle none }
      (fun e' mem => prepared e' (List.mem_cons_of_mem _ mem)) nodup
      (fun e' mem sc' handle' live' => by
        refine (Function.update_of_ne ?_ _ _).trans
          (image e' (List.mem_cons_of_mem _ mem) sc' handle' live')
        rintro rfl
        exact first (h.distinct live live' ▸ mem))
    refine ⟨d'', ?_, semaphore, fun handle' out' => ?_⟩
    · rw [List.filterMap_cons, call]
      show run _ _ (_ :: _) = _
      rw [run_cons, presented, Option.bind_some, legal]
    · obtain ⟨before, others⟩ := gone handle' out'
      have apart : handle' ≠ handle := by
        rintro rfl
        exact before (Function.update_self ..)
      refine ⟨fun none => before ((Function.update_of_ne apart _ _).trans none), ?_⟩
      intro e' mem sc' live'
      rcases List.mem_cons.mp mem with rfl | mem
      · cases live.1.symm.trans live'.1
        exact apart (Option.some.inj (live'.2.symm.trans live.2))
      · exact others e' mem sc' live'

lemma Keeps.present (h : Keeps settled s) (phase : s.phase = .present) :
    Keeps settled { s with phase := .beginFrame }.present := by
  obtain ⟨d, legal, synced⟩ := h
  have holding : s.phase.holding = true := by rw [phase]; rfl
  -- without an image out the frame is over
  have ended : ∀ {d' : Device} (log : List Call) (frameIndex : Nat),
      run (Device.step settled) Device.start log = some d' →
      d'.semaphore = d.semaphore → (∀ sem, d.semaphore sem ≠ .signalled) →
      (∀ handle, d'.image handle = none) →
      Keeps settled { s with phase := .beginFrame, log := log, frameIndex := frameIndex } := by
    intro d' log frameIndex legal' semaphore unsignalled image
    refine ⟨d', legal', { synced with
      unused := fun {handle} old => ⟨image handle, fun i => by
        rw [semaphore]
        exact (synced.unused old).2 i⟩
      out := fun e => absurd (image _) e
      held := fun e => by cases e.1
      signalled := fun {sem} e => absurd (semaphore ▸ e) (unsignalled sem)
      queued := fun e => by cases e
      empty := fun e => by rcases e with e | e <;> cases e
      unsubmitted := fun _ e => absurd rfl e
      recorded := fun e => by cases e
      executed := fun e => by cases e
      submitted := fun e => by cases e
      place := fun live e => synced.place live (semaphore ▸ e)
      waited := fun live e => synced.waited live (semaphore ▸ e)
      current := fun _ e => absurd rfl e }⟩
  by_cases none : s.context.prepared = []
  · have image : ∀ handle, d.image handle = Option.none := by
      intro handle
      by_contra out
      obtain ⟨_, e, mem, _⟩ := synced.out out
      exact List.not_mem_nil (none ▸ mem)
    have unsignalled : ∀ sem, d.semaphore sem ≠ .signalled := fun sem e =>
      (synced.signalled e).1 (image sem.1)
    unfold State.present
    split
    · dsimp only
      split
      · refine ended _ (s.frameIndex + 1) ?_ rfl unsignalled image
        exact run_emit (s := s) legal (by rw [none]; rfl)
      · exact ended s.log (s.frameIndex + 1) legal rfl unsignalled image
    · exact ended s.log s.frameIndex legal rfl unsignalled image
  · have submitted := synced.submitted phase none
    have unsignalled : ∀ sem, d.semaphore sem ≠ .signalled := fun sem e => by
      cases submitted.symm.trans (synced.signalled e).2.2
    obtain ⟨d', legal', semaphore, gone⟩ := synced.run_present holding (fun _ mem => mem)
      synced.nodup fun _ _ _ _ _ => rfl
    unfold State.present
    rw [if_pos ⟨synced.active none, synced.failed⟩]
    dsimp only
    rw [if_pos submitted]
    refine ended _ (s.frameIndex + 1) (run_emit (s := s) legal legal') semaphore unsignalled
      fun handle => ?_
    by_contra out
    obtain ⟨before, others⟩ := gone handle out
    obtain ⟨_, e, mem, sc, live⟩ := synced.out before
    exact others e mem sc live

lemma Keeps.keptWindow {entity : Nat} {window : Option Window} (h : Keeps settled s)
    (same : window.bind Window.swapchain = s.swapchain entity) :
    Keeps settled (s.setWindow entity window) := by
  obtain ⟨d, legal, synced⟩ := h
  refine ⟨d, legal, synced.forget (Nat.le_refl _) rfl rfl rfl fun e => .inl ?_⟩
  by_cases he : e = entity
  · subst he
    exact (swapchain_setWindow_self s e window).trans same
  · exact swapchain_setWindow_of_ne s he window

lemma Keeps.lostWindow {entity : Nat} {window : Option Window} {calls : List Call}
    (h : Keeps settled s) (free : ¬ s.Held entity)
    (gone : ∀ sc, window.bind Window.swapchain = some sc → sc.handle = none)
    (quiet : ∀ d : Device, (∀ sc handle, s.Live entity sc handle → d.image handle = none) →
      ∀ call ∈ calls, call.Quiet d) : Keeps settled ((s.setWindow entity window).emit calls) := by
  obtain ⟨d, legal, synced⟩ := h
  have image : ∀ sc handle, s.Live entity sc handle → d.image handle = none := by
    intro sc handle live
    by_contra out
    obtain ⟨holding, e, mem, sc', live'⟩ := synced.out out
    exact free ⟨holding, synced.distinct live live' ▸ mem⟩
  obtain ⟨d', legal', eased⟩ := Device.run_quiet (quiet d image)
  refine ⟨d', run_emit (s := s) legal legal',
    (synced.eased eased).forget (Nat.le_refl _) rfl rfl rfl fun e => ?_⟩
  by_cases he : e = entity
  · subst he
    exact .inr ⟨free, fun sc found => .inl (gone sc
      ((swapchain_setWindow_self s e window).symm.trans found))⟩
  · exact .inl (swapchain_setWindow_of_ne s he window)

lemma Keeps.onWindowSet {entity : Nat} {old window : Window} (h : Keeps settled s)
    (found : s.windows entity = some old) (same : window.swapchain = old.swapchain)
    (meets : s.Held entity → releasesSwapchain window = false) :
    Keeps settled (s.onWindowSet entity window) := by
  have here : s.swapchain entity = window.swapchain :=
    (congrArg (Option.bind · Window.swapchain) found).trans same.symm
  unfold State.onWindowSet
  split
  · rename_i releases
    refine h.lostWindow (fun held => ?_) (fun sc e => by cases e; rfl) fun d image call mem => ?_
    · cases releases.symm.trans (meets held)
    · rcases List.mem_cons.mp mem with rfl | mem
      · trivial
      · cases hsc : window.swapchain with
        | none =>
          rw [hsc] at mem
          cases mem
        | some sc =>
          rw [hsc] at mem
          exact Swapchain.release_quiet
            (fun handle e => image sc handle ⟨here.trans hsc, e⟩) call mem
  · exact h.keptWindow here.symm

lemma Keeps.removeWindow {entity : Nat} {window : Window} (h : Keeps settled s)
    (found : s.windows entity = some window) (free : ¬ s.Held entity) :
    Keeps settled ((s.setWindow entity none).emit window.remove) := by
  have here : s.swapchain entity = window.swapchain :=
    congrArg (Option.bind · Window.swapchain) found
  refine h.lostWindow free (fun sc e => by cases e) fun d image call mem => ?_
  unfold Window.remove at mem
  cases hsc : window.swapchain with
  | none =>
    rw [hsc] at mem
    cases List.mem_singleton.mp mem
    trivial
  | some sc =>
    rw [hsc] at mem
    rcases List.mem_cons.mp mem with rfl | mem
    · trivial
    rcases List.mem_cons.mp mem with rfl | mem
    · trivial
    · exact Swapchain.release_quiet (fun handle e => image sc handle ⟨here.trans hsc, e⟩) call mem

lemma Keeps.openWindow {entity : Nat} {window : Window} (h : Keeps settled s)
    (absent : s.windows entity = none)
    (new : ∀ sc, window.swapchain = some sc → sc.handle = none) :
    Keeps settled (s.setWindow entity (some window)) := by
  have free : ¬ s.Held entity := by
    obtain ⟨d, _, synced⟩ := h
    intro held
    obtain ⟨sc, handle, live, _⟩ := synced.held held
    have none : s.swapchain entity = none := congrArg (Option.bind · Window.swapchain) absent
    cases none.symm.trans live.1
  have kept : Keeps settled ((s.setWindow entity (some window)).emit []) :=
    h.lostWindow free new fun _ _ call mem => absurd mem List.not_mem_nil
  obtain ⟨d, legal, synced⟩ := kept
  exact ⟨d, by rwa [State.emit, List.append_nil] at legal, { synced with }⟩

lemma take_eq {phase next : Phase} {f : State → State} (e : s.take phase next f = some s') :
    s.phase = phase ∧ s' = f { s with phase := next } := by
  unfold State.take at e
  split at e
  · rename_i here
    exact ⟨here, (Option.some.inj e).symm⟩
  · cases e

lemma Keeps.step {event : Event} (h : Keeps settled s) (meets : Meets settled s event)
    (e : s.step event = some s') : Keeps settled s' := by
  cases event with
  | beginFrame =>
    obtain ⟨phase, rfl⟩ := take_eq e
    exact h.beginFrame phase
  | resetBackbuffer =>
    obtain ⟨phase, rfl⟩ := take_eq e
    obtain ⟨d, legal, synced⟩ := h
    exact ⟨d, legal, synced.next (by rw [phase]; rfl) synced.failed rfl rfl rfl rfl rfl
      (fun _ => phase) nofun nofun (by simp [phase]) nofun nofun⟩
  | prepareWindows visits =>
    change (if _ then _ else _) = _ at e
    split at e
    · rename_i nodup
      obtain ⟨phase, rfl⟩ := take_eq e
      exact h.prepareWindows phase nodup meets
    · cases e
  | recordGraph =>
    obtain ⟨phase, rfl⟩ := take_eq e
    exact h.recordGraph phase meets
  | executeGraph =>
    obtain ⟨phase, rfl⟩ := take_eq e
    exact h.executeGraph phase
  | submit =>
    obtain ⟨phase, rfl⟩ := take_eq e
    exact h.submit phase
  | present =>
    obtain ⟨phase, rfl⟩ := take_eq e
    exact h.present phase
  | openWindow entity width height surface =>
    change (if _ then _ else _) = _ at e
    split at e
    · rename_i absent
      cases e
      refine h.openWindow absent fun sc found => ?_
      cases surface with
      | false => cases found
      | true =>
        cases found
        rfl
    · cases e
  | setWindow entity width height =>
    obtain ⟨window, found, rfl⟩ := Option.map_eq_some_iff.mp e
    exact h.onWindowSet found rfl fun held => meets held window found
  | markResized entity width height =>
    obtain ⟨window, found, rfl⟩ := Option.map_eq_some_iff.mp e
    exact h.onWindowSet found rfl fun held => meets held window found
  | requestClose entity =>
    obtain ⟨window, found, rfl⟩ := Option.map_eq_some_iff.mp e
    exact h.keptWindow (congrArg (Option.bind · Window.swapchain) found).symm
  | removeWindow entity =>
    obtain ⟨window, found, rfl⟩ := Option.map_eq_some_iff.mp e
    exact h.removeWindow found meets
  | postFrame entity =>
    obtain ⟨window, found, rfl⟩ := Option.map_eq_some_iff.mp e
    exact h.keptWindow (congrArg (Option.bind · Window.swapchain) found).symm
  | addCallback =>
    cases e
    obtain ⟨d, legal, synced⟩ := h
    exact ⟨d, legal, { synced with }⟩
  | removeCallback =>
    change (if _ then _ else _) = _ at e
    split at e
    · cases e
    · cases e
      obtain ⟨d, legal, synced⟩ := h
      exact ⟨d, legal, { synced with }⟩

/-- **A run.** For any number of frames and of back buffers, every run whose steps meet the condition
keeps the protocol with the device. -/
theorem frames_synced (settled : Bool) (imageCount : Nat) (events : List Event) (s : State)
    (ran : run State.step (.start imageCount) events = some s)
    (meets : Along State.step (Meets settled) (.start imageCount) events) :
    Legal settled s.log := by
  have kept : Keeps settled s :=
    meets.invariant (fun _ _ _ h m e => Keeps.step h m e)
      ⟨.start, rfl, Synced.start settled imageCount⟩ ran
  obtain ⟨d, legal, _⟩ := kept
  exact Option.isSome_iff_exists.mpr ⟨d, legal⟩

def firstImage (count : Nat) : Option (Fin count) :=
  if h : 0 < count then some ⟨0, h⟩ else none

def toAcquire : List Event :=
  [.openWindow 0 800 600 true, .addCallback, .beginFrame, .resetBackbuffer,
    .prepareWindows [⟨0, .complete 3, firstImage⟩]]

/-- A frame with two slots, three back buffers and nothing in between. -/
theorem frame_synced :
    Legal true
      [.waitFence 0, .resetSlot 0, .waitIdle, .create 0 3, .acquire 0 (0, 0) (some 0),
        .submit 0 [(0, 0)] [(0, 0)], .present (some 0) 0] := by
  refine frames_synced true 2 (toAcquire ++ [.recordGraph, .executeGraph, .submit, .present]) _ rfl ?_
  refine ⟨trivial, fun _ e => ?_⟩
  cases e
  refine ⟨trivial, fun _ e => ?_⟩
  cases e
  refine ⟨trivial, fun _ e => ?_⟩
  cases e
  refine ⟨trivial, fun _ e => ?_⟩
  cases e
  refine ⟨fun _ visit mem count complete => ?_, fun _ e => ?_⟩
  · cases List.mem_singleton.mp mem
    cases complete
    decide
  cases e
  refine ⟨fun _ => by decide, fun _ e => ?_⟩
  cases e
  exact ⟨trivial, fun _ e => by
    cases e
    exact ⟨trivial, fun _ e => by
      cases e
      exact ⟨trivial, fun _ _ => trivial⟩⟩⟩

/-- A window that is resized between the acquire of its image and the present. -/
theorem not_frames_synced :
    ¬ ∀ (imageCount : Nat) (events : List Event) (s : State),
      run State.step (.start imageCount) events = some s → Legal false s.log := by
  intro claim
  have legal := claim 2 (toAcquire ++ [.markResized 0 640 480]) _ rfl
  revert legal
  decide

end PulseEngine.Graphics.FrameSync
