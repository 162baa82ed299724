import PulseEngine.Asset.JobFrame

/-!
# The life of a load job

Every function of the queue keeps the callbacks of the jobs lawful: a job is constructed at most once, it
is only stepped while its loader is constructed, and its loader is destroyed once if it was
constructed, whichever way the job ends. The callbacks may call back into the system at any time.
-/

namespace PulseEngine.Asset

open Library

namespace System

variable {fuel : Nat} {s s' s₀ s₁ s₂ : System fuel} {id : JobId} {job : LoadJob} {l : AssetLoader}
  {calls : List LoaderCallback} {runCalls : RunCalls fuel} {script : JobScript Call}

def Framed (runCalls : RunCalls fuel) : Prop :=
  ∀ hint calls s s', s.Numbered → runCalls hint calls s = some s' → Extends s s' ∅

/-- In the middle of work on a job that began at `s₀`. -/
structure Working (s₀ s : System fuel) (id : JobId) (l : AssetLoader) (job : LoadJob)
    (calls : List LoaderCallback) : Prop where
  frame : Extends s₀ s {id}
  loader : s.loaderOf id = some l
  view : s.view id = some job
  log : s.callbacksOf id = calls

namespace Working

lemma lt (w : Working s₀ s id l job calls) : id < s.nextJobId := w.frame.numbered.lt w.view

lemma extend (w : Working s₀ s id l job calls) (e : Extends s s' ∅) : Working s₀ s' id l job calls :=
  ⟨w.frame.trans (e.mono (Set.empty_subset _)), loaderOf_of_queued e.queued w.loader,
    (e.view id w.lt (Set.notMem_empty id)).trans w.view,
    (e.calls id w.lt (Set.notMem_empty id)).trans w.log⟩

lemma act (w : Working s₀ s id l job calls) {a : Action} (e : s.act a = some s') :
    Working s₀ s' id l job calls := w.extend (.act w.frame.numbered e)

lemma run (w : Working s₀ s id l job calls) (framed : Framed runCalls) {hint : Option JobId}
    {script : List Call} (e : runCalls hint script s = some s') : Working s₀ s' id l job calls :=
  w.extend (framed _ _ _ _ w.frame.numbered e)

lemma modify (w : Working s₀ s id l job calls) {f : LoadJob → LoadJob}
    (hid : ∀ job, (f job).id = job.id) (hcore : ∀ job, (f job).core = (f job.core).core) :
    Working s₀ (s.modifyJob id f) id l (f job).core calls := by
  refine ⟨w.frame.trans (.modifyJob w.frame.numbered hid fun h => absurd rfl h), w.loader, ?_,
    w.log⟩
  obtain ⟨j, hj, hcore'⟩ := Option.map_eq_some_iff.mp w.view
  unfold System.view
  rw [findJob_modifyJob s id id hid, if_pos rfl, hj, Option.map_some, Option.map_some, hcore j, hcore']

lemma call (w : Working s₀ s id l job calls) (callback : LoaderCallback) :
    Working s₀ (s.logCallback id callback) id l job (calls ++ [callback]) :=
  ⟨w.frame.trans (.logCallback w.frame.numbered w.lt (Set.mem_singleton id) callback), w.loader,
    w.view, by
    rw [callbacksOf_logCallback, w.log]⟩

lemma find (w : Working s₀ s id l job calls) {j : LoadJob} (h : s.findJob id = some j) :
    j.core = job := by
  have := w.view
  unfold System.view at this
  rw [h] at this
  exact Option.some.inj this

lemma finish (w : Working s₀ s id l job calls) {hasSlot : Bool} {outcome : LoadJobOutcome}
    {error : Option String} (ho : outcome ≠ .none) (e : s.finish id hasSlot outcome error = some s') :
    ∃ o, o ≠ .none ∧ Working s₀ s' id l { job with outcome := o } calls := by
  unfold System.finish at e
  simp only [Option.bind_eq_bind] at e
  obtain ⟨j, hj, e⟩ := Option.bind_eq_some_iff.mp e
  have hcore := w.find hj
  split at e
  · rename_i h
    cases e
    have terminal : job.outcome ≠ .none := by
      have : j.outcome ≠ .none := by simpa [LoadJob.isTerminal, ho] using h
      rw [← hcore]
      exact this
    exact ⟨job.outcome, terminal, w⟩
  · have w₁ : Working s₀ (s.modifyJob id fun job => { job with outcome := outcome }) id l
        { job with outcome := outcome } calls := by
      have := w.modify (f := fun job => { job with outcome := outcome }) (fun _ => rfl) fun _ => rfl
      rw [← hcore] at this ⊢
      exact this
    refine ⟨outcome, ho, ?_⟩
    split at e
    · cases e
      exact w₁
    · split at e
      · exact w₁.act e
      · exact w₁.act e
      · cases e
        exact w₁

end Working

def Held (s₀ s : System fuel) (id : JobId) (l : AssetLoader) : Prop :=
  ∃ job calls, Working s₀ s id l job calls ∧ Live l job calls

lemma Working.held_finish (w : Working s₀ s id l job calls) (live : Live l job calls) {hasSlot : Bool}
    {outcome : LoadJobOutcome} {error : Option String} (ho : outcome ≠ .none)
    (e : s.finish id hasSlot outcome error = some s') : Held s₀ s' id l := by
  obtain ⟨o, ho', w'⟩ := w.finish ho e
  exact ⟨_, _, w', live.finish ho'⟩

lemma processProcessing_held (framed : Framed runCalls) (w : Working s₀ s id l job calls)
    {steps : Nat} (hl : job.loader = some l) (hc : job.loaderConstructed = true)
    (hp : job.phase ≠ .pendingRead) (hcalls : calls = ctorCalls l ++ List.replicate steps .step)
    (e : processProcessing runCalls s id script = some s') : Held s₀ s' id l := by
  unfold System.processProcessing at e
  simp only [Option.bind_eq_bind] at e
  obtain ⟨s₁, e₁, e⟩ := Option.bind_eq_some_iff.mp e
  have w₁ := (w.call .step).run framed e₁
  have live : ∀ {j : LoadJob}, j.loader = some l → j.loaderConstructed = true →
      (j.phase = .pendingRead → j.isTerminal = true) → Live l j (calls ++ [.step]) := by
    intro j hl hc hp
    rw [hcalls, List.append_assoc, ← List.replicate_succ']
    exact .constructed _ hl hc hp
  have held : Held s₀ s₁ id l := ⟨_, _, w₁, live hl hc fun h => absurd h hp⟩
  obtain ⟨j, hj, e⟩ := Option.bind_eq_some_iff.mp e
  obtain ⟨slot, _, e⟩ := Option.bind_eq_some_iff.mp e
  split at e
  · exact w₁.held_finish (live hl hc fun h => absurd h hp) (by simp) e
  · split at e
    · cases e
      exact held
    · split at e
      · cases e
        exact held
      · obtain ⟨s₂, e₂, e⟩ := Option.bind_eq_some_iff.mp e
        cases e
        exact ⟨_, _, (w₁.act e₂).modify (fun _ => rfl) fun _ => rfl, live hl hc fun h => by cases h⟩
      · obtain ⟨s₂, e₂, e⟩ := Option.bind_eq_some_iff.mp e
        have w₂ := w₁.act e₂
        split at e
        · cases e
          exact ⟨_, _, w₂.modify (fun _ => rfl) fun _ => rfl, live hl hc fun _ => rfl⟩
        · split at e
          · cases e
            exact ⟨_, _, w₂.modify (fun _ => rfl) fun _ => rfl, live hl hc fun h => by cases h⟩
          · cases e
            exact ⟨_, _, w₂.modify (fun _ => rfl) fun _ => rfl, live hl hc fun _ => rfl⟩
      · exact w₁.held_finish (live hl hc fun h => absurd h hp) (by simp) e

/-- What `construct_job_loader` leaves of a job whose loader is not constructed. -/
structure Constructed (l : AssetLoader) (job : LoadJob) (calls : List LoaderCallback)
    (error : Option String) : Prop where
  loader : job.loader = some l
  phase : job.phase ≠ .processing
  ok : error = none → job.loaderConstructed = true ∧ calls = ctorCalls l
  failed : error ≠ none → (job.loaderConstructed = false ∧
      (calls = [] ∨ (calls = [.ctor false] ∧ l.desc.hasCtor = true))) ∨
    (job.loaderConstructed = true ∧ job.isTerminal = true ∧ calls = ctorCalls l)

lemma constructJobLoader_inv (framed : Framed runCalls) (w : Working s₀ s id l job [])
    (hl : job.loader = some l) (hc : job.loaderConstructed = false) (hp : job.phase ≠ .processing)
    {error : Option String} (e : constructJobLoader runCalls s id script = some (s', error)) :
    ∃ job' calls, Working s₀ s' id l job' calls ∧ Constructed l job' calls error := by
  unfold System.constructJobLoader at e
  simp only [Option.bind_eq_bind] at e
  obtain ⟨j, hj, e⟩ := Option.bind_eq_some_iff.mp e
  obtain ⟨slot, _, e⟩ := Option.bind_eq_some_iff.mp e
  have hjl : j.loader = some l := by
    have := w.find hj
    rw [← this] at hl
    exact hl
  rw [if_neg (by simp [hjl])] at e
  obtain ⟨j', hj', e⟩ := Option.bind_eq_some_iff.mp e
  obtain rfl : j = j' := Option.some.inj (hj.symm.trans hj')
  rw [hjl] at e
  dsimp only at e
  split at e
  · cases e
    exact ⟨job, [], w, hl, hp, (fun h => by cases h), fun _ => Or.inl ⟨hc, Or.inl rfl⟩⟩
  · split at e
    · rename_i hasCtor
      obtain ⟨s₁, e₁, e⟩ := Option.bind_eq_some_iff.mp e
      have w₁ := (w.call (.ctor script.ctorOk)).run framed e₁
      split at e
      · rename_i hok
        cases e
        have hok : script.ctorOk = false := by simpa using hok
        rw [hok] at w₁
        exact ⟨job, _, w₁, hl, hp, (fun h => by cases h),
          fun _ => Or.inl ⟨hc, Or.inr ⟨rfl, hasCtor⟩⟩⟩
      · rename_i hok
        have hok : script.ctorOk = true := by simpa using hok
        have hcalls : [] ++ [LoaderCallback.ctor script.ctorOk] = ctorCalls l := by
          unfold ctorCalls
          rw [if_pos hasCtor, hok]
          rfl
        rw [hcalls] at w₁
        have w₂ := w₁.modify (f := fun job => { job with loaderConstructed := true })
          (fun _ => rfl) fun _ => rfl
        obtain ⟨j₂, hj₂, e⟩ := Option.bind_eq_some_iff.mp e
        split at e
        · rename_i terminal
          cases e
          have terminal' : job.isTerminal = true := by
            have := w₂.find hj₂
            have h : j₂.core.isTerminal = true := terminal
            rw [this] at h
            exact h
          exact ⟨_, _, w₂, hl, hp, (fun h => by cases h), fun _ => Or.inr ⟨rfl, terminal', rfl⟩⟩
        · cases e
          exact ⟨_, _, w₂, hl, hp, fun _ => ⟨rfl, rfl⟩, fun h => absurd rfl h⟩
    · rename_i hasCtor
      cases e
      have w₁ := w.modify (f := fun job => { job with loaderConstructed := true })
        (fun _ => rfl) fun _ => rfl
      exact ⟨_, _, w₁, hl, hp, fun _ => ⟨rfl, by unfold ctorCalls; rw [if_neg hasCtor]⟩,
        fun h => absurd rfl h⟩

lemma processPendingRead_held (framed : Framed runCalls) (w : Working s₀ s id l job [])
    (hl : job.loader = some l) (hc : job.loaderConstructed = false) (hp : job.phase ≠ .processing)
    {immediately : Bool}
    (e : processPendingRead runCalls s id script immediately = some s') : Held s₀ s' id l := by
  unfold System.processPendingRead at e
  simp only [Option.bind_eq_bind] at e
  obtain ⟨j, hj, e⟩ := Option.bind_eq_some_iff.mp e
  split at e
  · exact w.held_finish (.fresh hl hc hp) (by simp) e
  · split at e
    · obtain ⟨s₁, e₁, e⟩ := Option.bind_eq_some_iff.mp e
      cases e
      exact ⟨_, _, (w.act e₁).modify (fun _ => rfl) fun _ => rfl, .fresh hl hc (by simp [LoadJob.core])⟩
    · obtain ⟨s₁, e₁, e⟩ := Option.bind_eq_some_iff.mp e
      have w₁ := w.act e₁
      split at e
      · exact w₁.held_finish (.fresh hl hc hp) (by simp) e
      · rename_i bytes _
        obtain ⟨⟨s₂, error⟩, e₂, e⟩ := Option.bind_eq_some_iff.mp e
        have w₂ := w₁.modify (f := fun job => { job with
          bytes := bytes
          memoryData := if job.source = .memory then [] else job.memoryData })
          (fun _ => rfl) fun _ => rfl
        obtain ⟨job₃, calls, w₃, constructed⟩ := constructJobLoader_inv framed w₂ hl hc hp e₂
        cases error with
        | some error =>
          obtain ⟨j₄, hj₄, e⟩ := Option.bind_eq_some_iff.mp e
          have hcore := w₃.find hj₄
          rcases constructed.failed (by simp) with ⟨hc₃, h⟩ | ⟨hc₃, terminal, rfl⟩
          · split at e
            · rename_i terminal
              cases e
              have terminal : job₃.isTerminal = true := hcore ▸ terminal
              rcases h with rfl | ⟨rfl, hasCtor⟩
              · exact ⟨_, _, w₃, .fresh constructed.loader hc₃ constructed.phase⟩
              · exact ⟨_, _, w₃, .refused constructed.loader hc₃ terminal hasCtor⟩
            · obtain ⟨o, ho, w₄⟩ := w₃.finish (by simp) e
              have terminal : ({ job₃ with outcome := o } : LoadJob).isTerminal = true := by
                simpa [LoadJob.isTerminal] using ho
              rcases h with rfl | ⟨rfl, hasCtor⟩
              · exact ⟨_, _, w₄, .fresh constructed.loader hc₃ constructed.phase⟩
              · exact ⟨_, _, w₄, .refused constructed.loader hc₃ terminal hasCtor⟩
          · rw [if_pos (show j₄.isTerminal = true from (hcore ▸ terminal : j₄.core.isTerminal = true))]
              at e
            cases e
            have : Live l job₃ (ctorCalls l ++ List.replicate 0 .step) :=
              .constructed 0 constructed.loader hc₃ fun _ => terminal
            rw [List.replicate_zero, List.append_nil] at this
            exact ⟨_, _, w₃, this⟩
        | none =>
          obtain ⟨hc₃, rfl⟩ := constructed.ok rfl
          obtain ⟨s₄, e₄, e⟩ := Option.bind_eq_some_iff.mp e
          have w₅ := (w₃.act e₄).modify (f := fun job => { job with phase := .processing })
            (fun _ => rfl) fun _ => rfl
          split at e
          · have none : ctorCalls l = ctorCalls l ++ List.replicate 0 .step := (List.append_nil _).symm
            exact processProcessing_held framed w₅ constructed.loader hc₃ (by simp [LoadJob.core])
              none e
          · cases e
            have : Live l ({ job₃ with phase := .processing } : LoadJob).core
                (ctorCalls l ++ List.replicate 0 .step) :=
              .constructed 0 constructed.loader hc₃ fun h => by cases h
            rw [List.replicate_zero, List.append_nil] at this
            exact ⟨_, _, w₅, this⟩

lemma processWaitingDependencies_held (framed : Framed runCalls) (w : Working s₀ s id l job calls)
    (live : Live l job calls) (running : job.isTerminal = false)
    (e : processWaitingDependencies runCalls s id script = some s') : Held s₀ s' id l := by
  unfold System.processWaitingDependencies at e
  simp only [Option.bind_eq_bind] at e
  obtain ⟨j, hj, e⟩ := Option.bind_eq_some_iff.mp e
  have hcore := w.find hj
  split at e
  · exact w.held_finish live (by simp) e
  · split at e
    · exact ⟨_, _, w.act e, live⟩
    · cases live with
      | fresh loader constructed phase =>
        rw [if_pos (by rw [← hcore] at constructed; simpa [LoadJob.core] using constructed)] at e
        exact processPendingRead_held framed
          (w.modify (f := fun job => { job with phase := .pendingRead }) (fun _ => rfl) fun _ => rfl)
          loader constructed (by simp [LoadJob.core]) e
      | refused loader constructed terminal => exact absurd terminal (by simp [running])
      | constructed steps loader constructed phase =>
        rw [if_neg (by rw [← hcore] at constructed; simpa [LoadJob.core] using constructed)] at e
        obtain ⟨s₁, e₁, e⟩ := Option.bind_eq_some_iff.mp e
        have w₁ := (w.act e₁).modify (f := fun job => { job with phase := .processing })
          (fun _ => rfl) fun _ => rfl
        exact processProcessing_held framed w₁ loader constructed (by simp [LoadJob.core]) rfl e

lemma processJob_held (framed : Framed runCalls) (w : Working s₀ s id l job calls)
    (live : Live l job calls) (e : processJob runCalls s id script = some s') : Held s₀ s' id l := by
  unfold System.processJob at e
  simp only [Option.bind_eq_bind] at e
  obtain ⟨j, hj, e⟩ := Option.bind_eq_some_iff.mp e
  have hcore := w.find hj
  split at e
  · cases e
    exact ⟨_, _, w, live⟩
  · rename_i hrunning
    have running : job.isTerminal = false := by
      rw [← hcore]
      simpa [LoadJob.core, LoadJob.isTerminal] using hrunning
    split at e
    · exact w.held_finish live (by simp) e
    · split at e
      · exact w.held_finish live (by simp) e
      · have phase : j.phase = job.phase := by
          rw [← hcore]
          rfl
        split at e
        · rename_i hphase
          rw [phase] at hphase
          cases live with
          | fresh loader constructed _ =>
            exact processPendingRead_held framed w loader constructed (by simp [hphase]) e
          | refused loader constructed terminal => exact absurd terminal (by simp [running])
          | constructed steps loader constructed hp => exact absurd (hp hphase) (by simp [running])
        · rename_i hphase
          rw [phase] at hphase
          exact processWaitingDependencies_held framed w live running e
        · rename_i hphase
          rw [phase] at hphase
          cases live with
          | fresh loader constructed hp => exact absurd hphase hp
          | refused loader constructed terminal => exact absurd terminal (by simp [running])
          | constructed steps loader constructed _ =>
            exact processProcessing_held framed w loader constructed (by simp [hphase]) rfl e

lemma retireLoadJob_inv (framed : Framed runCalls) (w : Working s₀ s id l job calls)
    (live : Live l job calls) {hasSlot : Bool}
    (e : retireLoadJob runCalls s id script = some (s', hasSlot)) :
    ∃ job' calls', Working s₀ s' id l job' calls' ∧ Finished l calls' := by
  unfold System.retireLoadJob at e
  simp only [Option.bind_eq_bind] at e
  obtain ⟨j, hj, e⟩ := Option.bind_eq_some_iff.mp e
  have hcore := w.find hj
  have clear : ∀ {s₁ : System fuel} {job : LoadJob} {calls : List LoaderCallback},
      Working s₀ s₁ id l job calls → Finished l calls → ∃ job' calls',
        Working s₀ (s₁.modifyJob id fun job => { job with
          loader := none, loaderConstructed := false, bytes := [], memoryData := [] }) id l job' calls' ∧
            Finished l calls' :=
    fun w h => ⟨_, _, w.modify (fun _ => rfl) fun _ => rfl, h⟩
  split at e
  · rename_i h
    obtain ⟨constructed, hdtor⟩ := h
    have constructed' : job.loaderConstructed = true := hcore ▸ constructed
    cases live with
    | fresh loader hc => exact absurd constructed' (by simp [hc])
    | refused loader hc => exact absurd constructed' (by simp [hc])
    | constructed steps loader _ _ =>
      have hl : j.loader = some l := by
        rw [← hcore] at loader
        exact loader
      have hasDtor : l.desc.hasDtor = true := by simpa [hl] using hdtor
      have finished : Finished l (ctorCalls l ++ List.replicate steps .step ++ [.dtor]) := by
        have := Finished.ended (l := l) steps
        unfold dtorCalls at this
        rwa [if_pos hasDtor] at this
      split at e
      · obtain ⟨s₂, e₂, e⟩ := Option.bind_eq_some_iff.mp e
        obtain ⟨s₃, e₃, e⟩ := Option.bind_eq_some_iff.mp e
        obtain ⟨s₄, e₄, e⟩ := Option.bind_eq_some_iff.mp e
        cases e
        exact clear ((((w.act e₂).call .dtor).run framed e₃).act e₄) finished
      · obtain ⟨s₂, e₂, e⟩ := Option.bind_eq_some_iff.mp e
        cases e₂
        obtain ⟨s₃, e₃, e⟩ := Option.bind_eq_some_iff.mp e
        cases e
        exact clear ((w.call .dtor).run framed e₃) finished
  · rename_i h
    cases e
    refine clear w ?_
    cases live with
    | fresh => exact .unread
    | refused _ _ _ hasCtor => exact .refused hasCtor
    | constructed steps loader constructed _ =>
      have hl : j.loader = some l := by
        rw [← hcore] at loader
        exact loader
      have hc : j.loaderConstructed = true := by
        rw [← hcore] at constructed
        exact constructed
      have hasDtor : l.desc.hasDtor = false := by simpa [hl, hc] using h
      have := Finished.ended (l := l) steps
      unfold dtorCalls at this
      rwa [if_neg (by simp [hasDtor]), List.append_nil] at this

lemma Held.lawful (h : Held s₀ s id l) : s.Lawful id := by
  obtain ⟨job, calls, w, live⟩ := h
  exact .live w.loader w.view (w.log ▸ live)

lemma processImmediateBuilder_extends (framed : Framed runCalls) (hs : s.Numbered)
    (new : s.nextJobId ≤ id) (w : Working s s₁ id l job calls) (live : Live l job calls)
    {outcome : LoadJobOutcome}
    (e : processImmediateBuilder runCalls s₁ id script = some (s', outcome)) : Extends s s' ∅ := by
  unfold System.processImmediateBuilder at e
  simp only [Option.bind_eq_bind] at e
  obtain ⟨s₂, e₂, e⟩ := Option.bind_eq_some_iff.mp e
  have held := processJob_held framed w live e₂
  obtain ⟨j, hj, e⟩ := Option.bind_eq_some_iff.mp e
  split at e
  · obtain ⟨s₃, e₃, e⟩ := Option.bind_eq_some_iff.mp e
    cases e
    unfold System.retireAndErase at e₃
    simp only [Option.bind_eq_bind] at e₃
    obtain ⟨j', _, e₃⟩ := Option.bind_eq_some_iff.mp e₃
    obtain ⟨⟨s₄, hasSlot⟩, e₄, e₃⟩ := Option.bind_eq_some_iff.mp e₃
    obtain ⟨job₂, calls₂, w₂, live₂⟩ := held
    obtain ⟨job₃, calls₃, w₃, finished⟩ := retireLoadJob_inv framed w₂ live₂ e₄
    have closed : Extends s (s₄.eraseJob id) ∅ :=
      (w₃.frame.eraseJob hs new).close new
        (.finished w₃.loader (view_eraseJob_self s₄ id) (by
          show Finished l (s₄.callbacksOf id)
          rw [w₃.log]
          exact finished))
    split at e₃
    · exact closed.trans (.act closed.numbered e₃)
    · cases e₃
      exact closed
  · cases e
    obtain ⟨job₂, calls₂, w₂, live₂⟩ := held
    exact w₂.frame.close new (.live w₂.loader w₂.view (w₂.log ▸ live₂))

lemma chooseInitialPhase_extends {h : Handle} : ∀ {deps : List Dependency} {unresolved : Bool}
    {s s' : System fuel} {phase : LoadJobPhase}, s.Numbered →
      chooseInitialPhase h deps unresolved s = some (s', phase) →
        Extends s s' ∅ ∧ phase ≠ .processing := by
  intro deps
  induction deps with
  | nil =>
    intro unresolved s s' phase hs e
    cases e
    exact ⟨.refl hs, by cases unresolved <;> simp⟩
  | cons dep deps ih =>
    intro unresolved s s' phase hs e
    have acted : ∀ {a : Action} {unresolved : Bool},
        (s.act a).bind (chooseInitialPhase h deps unresolved) = some (s', phase) →
          Extends s s' ∅ ∧ phase ≠ .processing := by
      intro a unresolved e
      obtain ⟨s₁, e₁, e⟩ := Option.bind_eq_some_iff.mp e
      have h₁ : Extends s s₁ ∅ := .act hs e₁
      obtain ⟨h₂, hp⟩ := ih h₁.numbered e
      exact ⟨h₁.trans h₂, hp⟩
    unfold System.chooseInitialPhase at e
    repeat' split at e
    all_goals first | exact ih hs e | exact acted e

lemma failedLoad_extends {request : LoadRequest} {h h' : Handle} (hs : s.Numbered)
    (e : s.failedLoad request h = some (s', h')) : Extends s s' ∅ := by
  unfold System.failedLoad at e
  split at e
  · obtain ⟨s₁, e₁, e⟩ := Option.map_eq_some_iff.mp e
    cases e
    exact .act hs e₁
  · cases e
    exact .refl hs

lemma startLoad_extends (framed : Framed runCalls) (hs : s.Numbered) {request : LoadRequest}
    {settings : SettingsScript} {h h' : Handle} {loader : AssetLoader}
    (e : startLoad runCalls s request settings script h loader = some (s', h')) :
    Extends s s' ∅ := by
  unfold System.startLoad at e
  simp only [Option.bind_eq_bind] at e
  obtain ⟨⟨s₁, phase⟩, e₁, e⟩ := Option.bind_eq_some_iff.mp e
  obtain ⟨h₁, hp⟩ := chooseInitialPhase_extends hs e₁
  obtain ⟨slot, _, e⟩ := Option.bind_eq_some_iff.mp e
  split at e
  · exact h₁.trans (failedLoad_extends h₁.numbered e)
  · obtain ⟨s₂, e₂, e⟩ := Option.bind_eq_some_iff.mp e
    have h₂ : Extends s₁ s₂ ∅ := .act h₁.numbered e₂
    have h₁₂ := h₁.trans h₂
    split at e
    · obtain ⟨s₃, e₃, e⟩ := Option.bind_eq_some_iff.mp e
      have h₃ : Extends s₂ s₃ ∅ := .act h₂.numbered e₃
      exact h₁₂.trans (h₃.trans (failedLoad_extends h₃.numbered e))
    · set job := s₂.initLoadJob request h loader phase with hjob
      obtain ⟨frame, view, log, hloader⟩ := Extends.enqueue h₂.numbered
        (show job.id = s₂.nextJobId from rfl)
      have w : Working s₂ (s₂.enqueue job) job.id loader job.core [] := ⟨frame, hloader, view, log⟩
      have live : Live loader job.core [] := .fresh rfl rfl hp
      refine h₁₂.trans ?_
      split at e
      · obtain ⟨⟨s₃, outcome⟩, e₃, e⟩ := Option.bind_eq_some_iff.mp e
        have h₃ := processImmediateBuilder_extends framed h₂.numbered le_rfl w live e₃
        dsimp only at e
        split at e
        · exact h₃.trans (failedLoad_extends h₃.numbered e)
        · cases e
          exact h₃
      · cases e
        exact frame.close le_rfl (.live hloader view (log ▸ live))

lemma loadImpl_extends (framed : Framed runCalls) (hs : s.Numbered) {request : LoadRequest}
    {settings : SettingsScript} {h : Handle}
    (e : loadImpl runCalls s request settings script = some (s', h)) : Extends s s' ∅ := by
  unfold System.loadImpl at e
  dsimp only at e
  split at e
  · cases e
    exact .refl hs
  · split at e
    · cases e
      exact .refl hs
    · split at e
      · cases e
        exact .refl hs
      · simp only [Option.bind_eq_bind] at e
        obtain ⟨s₁, e₁, e⟩ := Option.bind_eq_some_iff.mp e
        have h₁ : Extends s s₁ ∅ := .act hs e₁
        exact h₁.trans (startLoad_extends framed h₁.numbered e)

lemma execCall_extends (framed : Framed runCalls) (hs : s.Numbered) {hint : Option JobId}
    {call : Call} (e : execCall runCalls hint s call = some s') : Extends s s' ∅ := by
  cases call with
  | load request settings script =>
    obtain ⟨⟨s₁, h⟩, e₁, rfl⟩ := Option.map_eq_some_iff.mp e
    exact loadImpl_extends framed hs e₁
  | retain h => exact .act hs e
  | release h => exact .act hs e
  | markModified h => exact .act hs e
  | addDependency dependency requirement =>
    unfold System.execCall at e
    dsimp only at e
    split at e
    · cases e
      exact .refl hs
    · cases e
      have id_eq : ∀ job : LoadJob, (job.addDependency dependency requirement).id = job.id := by
        intro job
        unfold LoadJob.addDependency
        repeat' split
        all_goals rfl
      refine .modifyJob hs id_eq fun _ job => ?_
      unfold LoadJob.addDependency
      repeat' split
      all_goals rfl

lemma runCalls_framed : ∀ {depth : Nat}, Framed (System.runCalls depth : RunCalls fuel) := by
  intro depth
  induction depth with
  | zero =>
    intro hint calls s s' _ e
    cases e
  | succ depth ih =>
    intro hint calls
    induction calls with
    | nil =>
      intro s s' hs e
      cases e
      exact .refl hs
    | cons call calls ihCalls =>
      intro s s' hs e
      unfold System.runCalls at e
      rw [List.foldlM_cons] at e
      obtain ⟨s₁, e₁, e⟩ := Option.bind_eq_some_iff.mp e
      have h₁ := execCall_extends ih hs e₁
      exact h₁.trans (ihCalls s₁ s' h₁.numbered e)

structure AllLawful (s : System fuel) : Prop where
  numbered : s.Numbered
  lawful : ∀ id < s.nextJobId, s.Lawful id

namespace AllLawful

lemma init (maxRequestsPerUpdate : Nat) : AllLawful (System.init maxRequestsPerUpdate : System fuel) :=
  ⟨⟨List.nodup_nil, by simp [System.init, System.jobIds], rfl, by simp [System.init]⟩,
    fun id hlt => absurd hlt (Nat.not_lt_zero id)⟩

lemma extend (h : AllLawful s) (e : Extends s s' ∅) : AllLawful s' := by
  refine ⟨e.numbered, fun id hlt => ?_⟩
  by_cases hold : id < s.nextJobId
  · exact (h.lawful id hold).frame e.queued (e.view id hold (Set.notMem_empty id))
      (e.calls id hold (Set.notMem_empty id))
  · exact e.lawful id hlt (not_lt.mp hold) (Set.notMem_empty id)

lemma working (h : AllLawful s) (hj : s.findJob id = some job) :
    ∃ l calls, Working s s id l job.core calls ∧ Live l job.core calls := by
  have view : s.view id = some job.core := by
    unfold System.view
    rw [hj]
    rfl
  cases h.lawful id (h.numbered.lt view) with
  | live loader hv live =>
    rw [hv] at view
    cases view
    exact ⟨_, _, ⟨.refl h.numbered, loader, hv, rfl⟩, live⟩
  | finished _ hv _ =>
    rw [hv] at view
    cases view

lemma others (h : AllLawful s) (e : Extends s s' {id}) (law : s'.Lawful id) : AllLawful s' := by
  refine ⟨e.numbered, fun i hlt => ?_⟩
  by_cases hi : i = id
  · exact hi ▸ law
  · by_cases hold : i < s.nextJobId
    · exact (h.lawful i hold).frame e.queued (e.view i hold hi) (e.calls i hold hi)
    · exact e.lawful i hlt (not_lt.mp hold) hi

lemma erase (h : AllLawful s) (w : Working s s' id l job calls) (finished : Finished l calls) :
    AllLawful (s'.eraseJob id) := by
  have law : (s'.eraseJob id).Lawful id :=
    .finished w.loader (view_eraseJob_self s' id) (by
      show Finished l (s'.callbacksOf id)
      rw [w.log]
      exact finished)
  refine ⟨w.frame.numbered.eraseJob id, fun i hlt => ?_⟩
  by_cases hi : i = id
  · exact hi ▸ law
  · refine Lawful.frame (s := s') ?_ List.prefix_rfl (view_eraseJob s' hi) rfl
    by_cases hold : i < s.nextJobId
    · exact (h.lawful i hold).frame w.frame.queued (w.frame.view i hold hi)
        (w.frame.calls i hold hi)
    · exact w.frame.lawful i hlt (not_lt.mp hold) hi

lemma processJob (h : AllLawful s)
    (e : System.processJob (System.runCalls fuel) s id script = some s') : AllLawful s' := by
  have e' := e
  unfold System.processJob at e'
  obtain ⟨j, hj, _⟩ := Option.bind_eq_some_iff.mp e'
  obtain ⟨l, calls, w, live⟩ := h.working hj
  obtain ⟨job', calls', w', live'⟩ := processJob_held runCalls_framed w live e
  exact h.others w'.frame (Held.lawful ⟨job', calls', w', live'⟩)

lemma retireAndErase (h : AllLawful s)
    (e : System.retireAndErase (System.runCalls fuel) s id script = some s') : AllLawful s' := by
  unfold System.retireAndErase at e
  simp only [Option.bind_eq_bind] at e
  obtain ⟨j, hj, e⟩ := Option.bind_eq_some_iff.mp e
  obtain ⟨⟨s₁, hasSlot⟩, e₁, e⟩ := Option.bind_eq_some_iff.mp e
  obtain ⟨l, calls, w, live⟩ := h.working hj
  obtain ⟨job', calls', w', finished⟩ := retireLoadJob_inv runCalls_framed w live e₁
  have erased := h.erase w' finished
  split at e
  · exact erased.extend (.act erased.numbered e)
  · cases e
    exact erased

lemma spliceJob (h : AllLawful s) (id : JobId) : AllLawful (s.spliceJob id) := by
  have perm := spliceJob_perm s id
  have ids : (s.spliceJob id).jobIds.Perm s.jobIds := perm.map _
  refine ⟨⟨ids.nodup_iff.mpr h.numbered.nodup, fun i hi => h.numbered.bound i (ids.subset hi),
    h.numbered.queued, h.numbered.calls⟩, fun i hlt => (h.lawful i hlt).frame List.prefix_rfl ?_ rfl⟩
  unfold System.view
  rw [findJob_of_perm h.numbered perm]

lemma processLoop : ∀ {turns : Nat} {scripts : List (JobScript Call)} {next : Option JobId}
    {s s' : System fuel}, AllLawful s → System.processLoop turns scripts next s = some s' →
      AllLawful s' := by
  intro turns
  induction turns with
  | zero =>
    intro scripts next s s' h e
    unfold System.processLoop at e
    cases e
    exact h
  | succ turns ih =>
    intro scripts next s s' h e
    cases next with
    | none =>
      unfold System.processLoop at e
      cases e
      exact h
    | some id =>
      cases scripts with
      | nil => cases e
      | cons script scripts =>
        unfold System.processLoop at e
        simp only [Option.bind_eq_bind] at e
        obtain ⟨s₁, e₁, e⟩ := Option.bind_eq_some_iff.mp e
        have h₁ := h.processJob e₁
        obtain ⟨j, hj, e⟩ := Option.bind_eq_some_iff.mp e
        split at e
        · obtain ⟨s₂, e₂, e⟩ := Option.bind_eq_some_iff.mp e
          exact ih (h₁.retireAndErase e₂) e
        · split at e
          · exact ih (h₁.spliceJob id) e
          · exact ih h₁ e

lemma drainLoop : ∀ {turns : Nat} {scripts : List (JobScript Call)} {next : Option JobId}
    {progress progress' : Bool} {s s' : System fuel}, AllLawful s →
      System.drainLoop turns scripts next progress s = some (s', progress') → AllLawful s' := by
  intro turns
  induction turns with
  | zero =>
    intro scripts next progress progress' s s' h e
    unfold System.drainLoop at e
    cases e
    exact h
  | succ turns ih =>
    intro scripts next progress progress' s s' h e
    cases next with
    | none =>
      unfold System.drainLoop at e
      cases e
      exact h
    | some id =>
      cases scripts with
      | nil => cases e
      | cons script scripts =>
        unfold System.drainLoop at e
        simp only [Option.bind_eq_bind] at e
        obtain ⟨before, _, e⟩ := Option.bind_eq_some_iff.mp e
        obtain ⟨s₁, e₁, e⟩ := Option.bind_eq_some_iff.mp e
        have h₁ := h.processJob e₁
        obtain ⟨j, hj, e⟩ := Option.bind_eq_some_iff.mp e
        split at e
        · obtain ⟨s₂, e₂, e⟩ := Option.bind_eq_some_iff.mp e
          exact ih (h₁.retireAndErase e₂) e
        · split at e
          · exact ih (h₁.spliceJob id) e
          · exact ih h₁ e

lemma drainLoads : ∀ {passes : List (List (JobScript Call))} {s s' : System fuel}, AllLawful s →
    s.drainLoads passes = some s' → AllLawful s' := by
  intro passes
  induction passes with
  | nil =>
    intro s s' _ e
    cases e
  | cons scripts passes ih =>
    intro s s' h e
    unfold System.drainLoads at e
    simp only [Option.bind_eq_bind] at e
    obtain ⟨⟨s₁, again⟩, e₁, e⟩ := Option.bind_eq_some_iff.mp e
    unfold System.drainPass at e₁
    simp only [Option.bind_eq_bind] at e₁
    obtain ⟨⟨s₂, progress⟩, e₂, e₁⟩ := Option.bind_eq_some_iff.mp e₁
    cases e₁
    have h₁ := h.drainLoop e₂
    dsimp only at e
    split at e
    · exact ih h₁ e
    · cases e
      exact h₁

lemma cancelTypeLoop {typeId : TypeId} : ∀ {turns : Nat} {scripts : List (JobScript Call)}
    {next : Option JobId} {s s' : System fuel}, AllLawful s →
      System.cancelTypeLoop typeId turns scripts next s = some s' → AllLawful s' := by
  intro turns
  induction turns with
  | zero =>
    intro scripts next s s' h e
    cases next with
    | none =>
      cases e
      exact h
    | some id => cases e
  | succ turns ih =>
    intro scripts next s s' h e
    cases next with
    | none =>
      cases e
      exact h
    | some id =>
      unfold System.cancelTypeLoop at e
      simp only [Option.bind_eq_bind] at e
      obtain ⟨j, hj, e⟩ := Option.bind_eq_some_iff.mp e
      obtain ⟨l, calls, w, live⟩ := h.working hj
      split at e
      · exact ih h e
      · cases scripts with
        | nil => cases e
        | cons script scripts =>
          dsimp only at e
          obtain ⟨s₁, e₁, e⟩ := Option.bind_eq_some_iff.mp e
          obtain ⟨job₁, calls₁, w₁, live₁⟩ := w.held_finish live (by simp) e₁
          obtain ⟨⟨s₂, hasSlot⟩, e₂, e⟩ := Option.bind_eq_some_iff.mp e
          obtain ⟨job₂, calls₂, w₂, finished⟩ := retireLoadJob_inv runCalls_framed w₁ live₁ e₂
          have erased := h.erase w₂ finished
          dsimp only at e
          split at e
          · obtain ⟨s₃, e₃, e⟩ := Option.bind_eq_some_iff.mp e
            exact ih (erased.extend (.act erased.numbered e₃)) e
          · exact ih erased e

lemma forceUnloadAssets (h : AllLawful s) {typeId : TypeId} {turns : Nat}
    {scripts : List (JobScript Call)}
    (e : s.forceUnloadAssets typeId turns scripts = some s') : AllLawful s' := by
  unfold System.forceUnloadAssets at e
  split at e
  · cases e
    exact h
  · simp only [Option.bind_eq_bind] at e
    obtain ⟨s₁, e₁, e⟩ := Option.bind_eq_some_iff.mp e
    have h₁ := h.cancelTypeLoop e₁
    exact h₁.extend (.act h₁.numbered e)

/-- **One event.** -/
theorem step {event : Event} (h : AllLawful s) (e : s.step event = some s') : AllLawful s' := by
  cases event with
  | registerType desc =>
    cases e
    exact h.extend (.of_same h.numbered rfl rfl rfl rfl)
  | registerLoader desc =>
    cases e
    exact h.extend (.of_same h.numbered rfl rfl rfl rfl)
  | call call => exact h.extend (runCalls_framed _ _ _ _ h.numbered e)
  | process scripts => exact h.processLoop e
  | drainLoads passes => exact h.drainLoads e
  | forceUnload typeId turns scripts => exact h.forceUnloadAssets e

end AllLawful

lemma AllLawful.finishAll : ∀ {ids : List JobId} {s s' : System fuel}, AllLawful s →
    s.finishAll ids = some s' → AllLawful s' := by
  intro ids
  induction ids with
  | nil =>
    intro s s' h e
    cases e
    exact h
  | cons id ids ih =>
    intro s s' h e
    unfold System.finishAll at e
    simp only [Option.bind_eq_bind] at e
    obtain ⟨j, hj, e⟩ := Option.bind_eq_some_iff.mp e
    obtain ⟨s₁, e₁, e⟩ := Option.bind_eq_some_iff.mp e
    obtain ⟨l, calls, w, live⟩ := h.working hj
    obtain ⟨job₁, calls₁, w₁, live₁⟩ := w.held_finish live (by simp) e₁
    exact ih (h.others w₁.frame (Held.lawful ⟨job₁, calls₁, w₁, live₁⟩)) e

def Ended (s : System fuel) (id : JobId) : Prop :=
  ∃ l, s.loaderOf id = some l ∧ Finished l (s.callbacksOf id)

/-- In the second loop of `cancel_all`, the jobs before the current one are retired. -/
structure Retiring (s : System fuel) (retired rest : List JobId) : Prop where
  numbered : s.Numbered
  order : s.jobIds = retired ++ rest
  ended : ∀ id ∈ retired, s.Ended id
  lawful : ∀ id < s.nextJobId, id ∉ retired → s.Lawful id

lemma nextJob_eq {before rest : List JobId} (nodup : s.jobIds.Nodup)
    (order : s.jobIds = before ++ id :: rest) : s.nextJob id = rest.head? := by
  have notIn : id ∉ before := by
    rw [order] at nodup
    intro hm
    exact (List.nodup_append.mp nodup).2.2 id hm id List.mem_cons_self rfl
  have drop : ∀ {jobs : List LoadJob} {before : List JobId}, id ∉ before →
      jobs.map (fun job => job.id) = before ++ id :: rest →
        ((jobs.dropWhile fun job => decide (job.id ≠ id)).tail.head?).map (fun job => job.id) =
          rest.head? := by
    intro jobs
    induction jobs with
    | nil =>
      intro before _ h
      simp at h
    | cons job jobs ih =>
      intro before hn h
      cases before with
      | nil =>
        obtain ⟨hid, hrest⟩ := List.cons.inj h
        rw [List.dropWhile_cons, if_neg (by simp [hid]), List.tail_cons, ← hrest, List.head?_map]
      | cons x before =>
        obtain ⟨hid, hrest⟩ := List.cons.inj h
        have hx : job.id = x := hid
        have hne : job.id ≠ id := fun he => hn (by rw [← he, hx]; exact List.mem_cons_self)
        rw [List.dropWhile_cons, if_pos (by simp [hne])]
        exact ih (fun hm => hn (List.mem_cons_of_mem _ hm)) hrest
  exact drop notIn order

lemma Retiring.retire {retired rest : List JobId} {hasSlot : Bool}
    (h : Retiring s retired (id :: rest))
    (e : retireLoadJob (System.runCalls fuel) s id script = some (s', hasSlot)) :
    ∃ new, Retiring s' (retired ++ [id]) (rest ++ new) ∧ s'.nextJob id = (rest ++ new).head? := by
  have nodup := h.numbered.nodup
  rw [h.order] at nodup
  have notIn : id ∉ retired := fun hm =>
    (List.nodup_append.mp nodup).2.2 id hm id List.mem_cons_self rfl
  have hin : id ∈ s.jobIds := h.order ▸ List.mem_append_right _ List.mem_cons_self
  have e' := e
  unfold System.retireLoadJob at e'
  obtain ⟨j, hj, _⟩ := Option.bind_eq_some_iff.mp e'
  have view : s.view id = some j.core := by
    unfold System.view
    rw [hj]
    rfl
  cases h.lawful id (h.numbered.bound id hin) notIn with
  | finished _ hv _ =>
    rw [hv] at view
    cases view
  | live loader hv live =>
    obtain ⟨job', calls', w, finished⟩ := retireLoadJob_inv runCalls_framed
      ⟨.refl h.numbered, loader, hv, rfl⟩ live e
    obtain ⟨new, order⟩ := w.frame.order
    have order' : s'.jobIds = retired ++ id :: (rest ++ new) := by
      rw [order, h.order, List.append_assoc]
      rfl
    refine ⟨new, ⟨w.frame.numbered, ?_, fun i hi => ?_, fun i hlt hi => ?_⟩,
      nextJob_eq w.frame.numbered.nodup order'⟩
    · rw [order', List.append_assoc]
      rfl
    · rcases List.mem_append.mp hi with hi | hi
      · have hne : i ≠ id := fun he => notIn (he ▸ hi)
        have hlt := h.numbered.bound i (h.order ▸ List.mem_append_left _ hi)
        obtain ⟨l, hl, hf⟩ := h.ended i hi
        exact ⟨l, loaderOf_of_queued w.frame.queued hl, (w.frame.calls i hlt hne).symm ▸ hf⟩
      · obtain rfl := List.mem_singleton.mp hi
        exact ⟨_, w.loader, w.log.symm ▸ finished⟩
    · have hi' : i ∉ retired ∧ i ≠ id :=
        ⟨fun hm => hi (List.mem_append_left _ hm), fun he => hi (by simp [he])⟩
      by_cases hold : i < s.nextJobId
      · exact (h.lawful i hold hi'.1).frame w.frame.queued (w.frame.view i hold hi'.2)
          (w.frame.calls i hold hi'.2)
      · exact w.frame.lawful i hlt (not_lt.mp hold) hi'.2

lemma Retiring.retireAll : ∀ {scripts : List (JobScript Call)} {retired rest : List JobId}
    {s s' : System fuel}, Retiring s retired rest →
      System.retireAll scripts rest.head? s = some s' → ∃ retired, Retiring s' retired [] := by
  intro scripts
  induction scripts with
  | nil =>
    intro retired rest s s' h e
    cases rest with
    | nil =>
      cases e
      exact ⟨retired, h⟩
    | cons id rest => cases e
  | cons script scripts ih =>
    intro retired rest s s' h e
    cases rest with
    | nil =>
      cases e
      exact ⟨retired, h⟩
    | cons id rest =>
      rw [List.head?_cons] at e
      unfold System.retireAll at e
      simp only [Option.bind_eq_bind] at e
      obtain ⟨⟨s₁, hasSlot⟩, e₁, e⟩ := Option.bind_eq_some_iff.mp e
      obtain ⟨new, h₁, next⟩ := h.retire e₁
      dsimp only at e
      rw [next] at e
      exact ih h₁ e

lemma view_eq_none (h : id ∉ s.jobIds) : s.view id = none := by
  unfold System.view System.findJob
  rw [Option.map_eq_none_iff, List.find?_eq_none]
  intro job hj he
  exact h (of_decide_eq_true he ▸ List.mem_map_of_mem hj)

lemma AllLawful.cancelAll (h : AllLawful s) {scripts : List (JobScript Call)}
    (e : s.cancelAll scripts = some s') :
    s'.jobs = [] ∧ (∀ call ∈ s'.callbacks, call.1 < s'.nextJobId) ∧
      ∀ id < s'.nextJobId, s'.Ended id := by
  unfold System.cancelAll at e
  simp only [Option.bind_eq_bind] at e
  obtain ⟨s₁, e₁, e⟩ := Option.bind_eq_some_iff.mp e
  obtain ⟨s₂, e₂, e⟩ := Option.bind_eq_some_iff.mp e
  cases e
  have h₁ := h.finishAll e₁
  have start : Retiring s₁ [] s₁.jobIds :=
    ⟨h₁.numbered, rfl, (fun _ hi => by cases hi), fun i hlt _ => h₁.lawful i hlt⟩
  have head : s₁.jobs.head?.map (fun job => job.id) = s₁.jobIds.head? := List.head?_map.symm
  rw [head] at e₂
  obtain ⟨retired, h₂⟩ := start.retireAll e₂
  refine ⟨rfl, h₂.numbered.calls, fun i hlt => ?_⟩
  by_cases hi : i ∈ retired
  · exact h₂.ended i hi
  · have notIn : i ∉ s₂.jobIds := by
      rw [h₂.order, List.append_nil]
      exact hi
    cases h₂.lawful i hlt hi with
    | live _ hv _ =>
      rw [view_eq_none notIn] at hv
      cases hv
    | finished loader _ calls => exact ⟨_, loader, calls⟩

end System

/-- The loader callbacks of one job: the constructor is called at most once, the steps come after it
succeeded and before the destructor, and the destructor is called once if it succeeded and the job
has ended and never otherwise. A loader without a constructor counts as constructed when it is
stepped. -/
structure LoaderLifecycle (l : AssetLoader) (calls : List LoaderCallback) (ended : Prop) : Prop where
  ctorOnce : calls.count (.ctor true) + calls.count (.ctor false) ≤ 1
  stepAfter : ∀ pre post, calls = pre ++ .step :: post → l.desc.hasCtor = true → .ctor true ∈ pre
  stepBefore : ∀ pre post, calls = pre ++ .step :: post → .dtor ∉ pre
  dtorOnce : ended → l.desc.hasDtor = true → (.ctor true ∈ calls ∨ .step ∈ calls) →
    calls.count .dtor = 1
  dtorOnly : calls.count .dtor ≤ 1 ∧ (.dtor ∈ calls → ended ∧ l.desc.hasDtor = true ∧
    (l.desc.hasCtor = true → .ctor true ∈ calls))

variable {l : AssetLoader} {job : LoadJob} {calls : List LoaderCallback} {ended : Prop}

lemma LoaderLifecycle.nil : LoaderLifecycle l [] ended :=
  ⟨by simp, by simp, by simp, by simp, by simp⟩

lemma LoaderLifecycle.refused : LoaderLifecycle l [.ctor false] ended := by
  have noStep : ∀ pre post : List LoaderCallback, [.ctor false] ≠ pre ++ .step :: post := by
    intro pre post e
    have : LoaderCallback.step ∈ [LoaderCallback.ctor false] := by
      rw [e]
      simp
    simp at this
  exact ⟨by decide, fun pre post e => absurd e (noStep pre post),
    fun pre post e => absurd e (noStep pre post), by simp, by simp⟩

lemma mem_ctorCalls {c : LoaderCallback} :
    c ∈ ctorCalls l ↔ l.desc.hasCtor = true ∧ c = .ctor true := by
  unfold ctorCalls
  split <;> simp_all

lemma LoaderLifecycle.constructed {steps : Nat} {down : List LoaderCallback}
    (hdown : down = [] ∨ (down = [.dtor] ∧ ended ∧ l.desc.hasDtor = true))
    (all : ended → l.desc.hasDtor = true → down = [.dtor]) :
    LoaderLifecycle l (ctorCalls l ++ List.replicate steps .step ++ down) ended := by
  have noDtor : LoaderCallback.dtor ∉ ctorCalls l ++ List.replicate steps LoaderCallback.step := by
    rw [List.mem_append, mem_ctorCalls, List.mem_replicate]
    simp
  have count : ∀ c, c ≠ .step → c ≠ .dtor →
      (ctorCalls l ++ List.replicate steps LoaderCallback.step ++ down).count c =
        (ctorCalls l).count c := by
    intro c hs hd
    have hdown' : down.count c = 0 := by
      rcases hdown with rfl | ⟨rfl, _⟩
      · rfl
      · simp [hd.symm]
    rw [List.count_append, List.count_append, List.count_replicate, if_neg (by simpa using hs.symm),
      hdown']
    rfl
  constructor
  · rw [count _ (by simp) (by simp), count _ (by simp) (by simp)]
    unfold ctorCalls
    split <;> decide
  · intro pre post e hasCtor
    unfold ctorCalls at e
    rw [if_pos hasCtor] at e
    cases pre with
    | nil => cases e
    | cons c pre =>
      cases (List.cons.inj e).1
      exact List.mem_cons_self
  · intro pre post e hd
    -- the destructor could only be the last call
    rcases hdown with rfl | ⟨rfl, _⟩
    · rw [List.append_nil] at e
      exact noDtor (e ▸ List.mem_append_left _ hd)
    · rcases List.eq_nil_or_concat post with rfl | ⟨post, c, rfl⟩
      · have := (List.append_inj' e rfl).2
        cases this
      · rw [List.concat_eq_append, ← List.cons_append, ← List.append_assoc] at e
        exact noDtor ((List.append_inj' e rfl).1 ▸ List.mem_append_left _ hd)
  · intro h hasDtor _
    rw [List.count_append, List.count_eq_zero.mpr noDtor, all h hasDtor]
    rfl
  · rw [List.count_append, List.count_eq_zero.mpr noDtor]
    rcases hdown with rfl | ⟨rfl, h, hasDtor⟩
    · refine ⟨by simp, fun hd => absurd ?_ noDtor⟩
      rwa [List.append_nil] at hd
    · exact ⟨by decide, fun _ => ⟨h, hasDtor, fun hasCtor => List.mem_append_left _
        (List.mem_append_left _ (mem_ctorCalls.mpr ⟨hasCtor, rfl⟩))⟩⟩

lemma Live.lifecycle (h : Live l job calls) (running : ¬ ended) : LoaderLifecycle l calls ended := by
  cases h with
  | fresh => exact .nil
  | refused => exact .refused
  | constructed steps =>
    have : LoaderLifecycle l (ctorCalls l ++ List.replicate steps .step ++ []) ended :=
      .constructed (Or.inl rfl) fun h => absurd h running
    rwa [List.append_nil] at this

lemma Finished.lifecycle (h : Finished l calls) (gone : ended) : LoaderLifecycle l calls ended := by
  cases h with
  | unread => exact .nil
  | refused => exact .refused
  | ended steps =>
    unfold dtorCalls
    split
    · rename_i hasDtor
      exact .constructed (Or.inr ⟨rfl, gone, hasDtor⟩) fun _ _ => rfl
    · rename_i hasDtor
      exact .constructed (Or.inl rfl) fun _ h => absurd h hasDtor

/-- **Loader life cycle.** In every run of the asset system the callbacks of every load job follow the
life cycle of its loader; a job that is no longer queued has ended, and shutdown ends all of them. -/
theorem System.loader_lifecycle (fuel maxRequestsPerUpdate : Nat) (events : List System.Event)
    (s : System fuel) (e : System.after fuel maxRequestsPerUpdate events = some s) :
    ((∀ call ∈ s.callbacks, call.1 < s.nextJobId) ∧ ∀ id < s.nextJobId, ∃ l,
      s.loaderOf id = some l ∧ LoaderLifecycle l (s.callbacksOf id) (id ∉ s.jobIds)) ∧
    ∀ scripts s', s.cancelAll scripts = some s' → s'.jobs = [] ∧
      (∀ call ∈ s'.callbacks, call.1 < s'.nextJobId) ∧ ∀ id < s'.nextJobId, ∃ l,
        s'.loaderOf id = some l ∧ LoaderLifecycle l (s'.callbacksOf id) True := by
  have h : s.AllLawful :=
    run_invariant (fun _ _ _ h e => h.step e) (System.AllLawful.init maxRequestsPerUpdate) e
  refine ⟨⟨h.numbered.calls, fun id hlt => ?_⟩, fun scripts s' e' => ?_⟩
  · cases h.lawful id hlt with
    | @live l job loader hv live =>
      refine ⟨l, loader, live.lifecycle (not_not.mpr ?_)⟩
      by_contra hn
      rw [System.view_eq_none hn] at hv
      cases hv
    | @finished l loader hv finished =>
      refine ⟨l, loader, finished.lifecycle fun hm => ?_⟩
      obtain ⟨job, hj, he⟩ := List.mem_map.mp hm
      unfold System.view System.findJob at hv
      rw [Option.map_eq_none_iff, List.find?_eq_none] at hv
      exact hv job hj (decide_eq_true he)
  · obtain ⟨jobs, calls, ended⟩ := h.cancelAll e'
    refine ⟨jobs, calls, fun id hlt => ?_⟩
    obtain ⟨l, loader, finished⟩ := ended id hlt
    exact ⟨l, loader, finished.lifecycle trivial⟩

/-- Files of type 1 have a loader with a constructor and a destructor. Of three loads the first succeeds
and loads another file in its step, the constructor of the second fails, and the third is waiting
when its type is unloaded by force. -/
def threeLoads : List System.Event :=
  let load (path : Path) : Call :=
    .load ⟨.file, 1, none, some path, false, false, none, [], false⟩ ⟨0, true⟩
      ⟨some [], [], true, [], .done, none, []⟩
  [.registerType ⟨true, 1, 4, 4, true⟩,
    .registerLoader ⟨true, 1, some ['x'], none, true, true, true, 0, 0, 0, 0, false, false⟩,
    .call (load ['a', '.', 'x']), .call (load ['b', '.', 'x']),
    .process [⟨some [], [], true, [load ['c', '.', 'x']], .done, none, [.release ⟨1, 1, 1⟩]⟩,
      ⟨some [], [.release ⟨1, 2, 1⟩], false, [], .done, none, []⟩],
    .process [⟨some [], [], true, [], .pending, none, []⟩],
    .forceUnload 1 1 [⟨none, [], true, [], .done, none, []⟩]]

/-- Their callbacks. -/
theorem System.loader_lifecycle_threeLoads : ∃ s : System 8, System.after 8 0 threeLoads = some s ∧
    (List.range 3).map s.callbacksOf = [[.ctor true, .step, .dtor], [.ctor false],
      [.ctor true, .step, .dtor]] ∧
    ∀ id < 3, ∃ l, s.loaderOf id = some l ∧ LoaderLifecycle l (s.callbacksOf id) (id ∉ s.jobIds) := by
  have ends : (System.after 8 0 threeLoads).isSome = true := by decide +kernel
  obtain ⟨s, hs⟩ := Option.isSome_iff_exists.mp ends
  have seen : ∀ s ∈ System.after 8 0 threeLoads, s.nextJobId = 3 ∧
      (List.range 3).map s.callbacksOf = [[.ctor true, .step, .dtor], [.ctor false],
        [.ctor true, .step, .dtor]] := by
    decide +kernel
  obtain ⟨next, calls⟩ := seen s hs
  exact ⟨s, hs, calls, next ▸ (System.loader_lifecycle 8 0 threeLoads s hs).1.2⟩

end PulseEngine.Asset
