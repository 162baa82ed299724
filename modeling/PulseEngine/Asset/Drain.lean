import PulseEngine.Asset.Advance
import PulseEngine.Asset.Fairness

/-!
# Draining the load queue

`AssetSystem::drain_loads` makes passes over the queue until one makes no progress, and a change of
phase is progress. A job that went back and forth between its two phases for ever would keep it
going, and only the answers of its loader can make it do so: once these are all `PENDING` or all
something else, every pass with progress takes something from the weight of the queue.
-/

namespace PulseEngine.Asset

open Library

/-- How far a job is from rest, when its loader answers nothing but `PENDING` (`patient`) or never
does. -/
def LoadJob.weight (patient : Bool) (job : LoadJob) : Nat :=
  match job.phase, patient, job.loaderConstructed with
  | .pendingRead, _, _ => 4
  | .waitingDependencies, true, _ => 2
  | .processing, true, _ => 1
  | .waitingDependencies, false, false => 3
  | .processing, false, _ => 2
  | .waitingDependencies, false, true => 1

lemma LoadJob.weight_pos (patient : Bool) (job : LoadJob) : 0 < job.weight patient := by
  unfold LoadJob.weight
  split <;> omega

lemma Advanced.weight {job job' : LoadJob} {answer : Option LoaderStatus} {patient : Bool}
    (h : Advanced job job' answer) (same : ∀ status ∈ answer, (status = .pending ↔ patient = true))
    (running : job'.isTerminal = false) :
    job'.weight patient ≤ job.weight patient ∧
      (job'.phase ≠ job.phase → job'.weight patient < job.weight patient) := by
  cases h with
  | ended terminal => exact absurd terminal (by simp [running])
  | pending constructed phase =>
    obtain rfl : patient = true := (same _ rfl).mp rfl
    unfold LoadJob.weight
    rw [phase]
    cases job.phase <;> simp
  | waits other constructed phase =>
    obtain rfl : patient = false := by
      cases patient with
      | false => rfl
      | true => exact absurd ((same _ rfl).mpr rfl) other
    unfold LoadJob.weight
    rw [phase, constructed]
    cases job.phase <;> cases job.loaderConstructed <;> simp
  | blocked before constructed phase =>
    unfold LoadJob.weight
    rw [phase, constructed]
    cases hp : job.phase <;> cases patient <;> cases job.loaderConstructed <;> simp_all
  | begins before unconstructed constructed phase =>
    unfold LoadJob.weight
    rw [phase, before, unconstructed]
    cases patient <;> simp

def Turn.answer {fuel : Nat} (t : Turn fuel) : Option LoaderStatus :=
  if (System.processJob (System.runCalls fuel) t.system t.id t.script).any fun s =>
      decide (System.steps (t.system.callbacksOf t.id) < System.steps (s.callbacksOf t.id)) then
    some t.script.status
  else none

namespace System

variable {fuel : Nat} {s s' s₁ s₂ : System fuel} {id : JobId} {script : JobScript Call}

/-- The turns of one call of `LoadQueue::drain_pass`. -/
def drainTurns (s : System fuel) (scripts : List (JobScript Call)) : List (Turn fuel) :=
  processTurns s.jobs.length scripts (s.jobs.head?.map (·.id)) s

/-- The system at the start of pass `n` of `drain_loads`, if it makes that pass. -/
def atPass (s : System fuel) (passes : Nat → List (JobScript Call)) : Nat → Option (System fuel)
  | 0 => some s
  | n + 1 => (s.atPass passes n).bind fun s₁ =>
    match s₁.drainPass (passes n) with
    | some (s₂, true) => some s₂
    | _ => none

/-- Whether a turn of `LoadQueue::drain_pass` is progress. -/
def progresses (s s₁ : System fuel) (id : JobId) : Bool :=
  (s.findJob id).any fun before => (s₁.findJob id).any fun job =>
    !before.isTerminal && (job.isTerminal || job.phase != before.phase)

def weight (patient : JobId → Bool) (s : System fuel) : Nat :=
  ∑ id ∈ Finset.range s.nextJobId, ((s.view id).map (LoadJob.weight (patient id))).getD 0

lemma drainLoop_succ {turns : Nat} {scripts : List (JobScript Call)} {progress : Bool}
    {result : System fuel × Bool}
    (e : drainLoop (turns + 1) (script :: scripts) (some id) progress s = some result) :
    ∃ s₁ s₂, processJob (runCalls fuel) s id script = some s₁ ∧ s₁.settleJob id script = some s₂ ∧
      drainLoop turns scripts (s₁.nextJob id) (progress || progresses s s₁ id) s₂ =
        some result := by
  unfold drainLoop at e
  simp only [Option.bind_eq_bind] at e
  obtain ⟨before, hbefore, e⟩ := Option.bind_eq_some_iff.mp e
  obtain ⟨s₁, e₁, e⟩ := Option.bind_eq_some_iff.mp e
  obtain ⟨job, hjob, e⟩ := Option.bind_eq_some_iff.mp e
  have flag : progresses s s₁ id =
      (!before.isTerminal && (job.isTerminal || job.phase != before.phase)) := by
    simp [progresses, hbefore, hjob]
  rw [← flag] at e
  have settle : s₁.settleJob id script =
      if job.isTerminal then retireAndErase (runCalls fuel) s₁ id script
      else if job.phase = .waitingDependencies then some (s₁.spliceJob id)
      else some s₁ := by
    unfold System.settleJob
    rw [hjob]
    rfl
  split at e
  · rename_i terminal
    obtain ⟨s₂, e₂, e⟩ := Option.bind_eq_some_iff.mp e
    exact ⟨s₁, s₂, e₁, by rw [settle, if_pos terminal, e₂], e⟩
  · rename_i running
    split at e
    · rename_i waiting
      exact ⟨s₁, _, e₁, by rw [settle, if_neg running, if_pos waiting], e⟩
    · rename_i other
      exact ⟨s₁, _, e₁, by rw [settle, if_neg running, if_neg other], e⟩

lemma retireAndErase_frame (h : AllLawful s)
    (e : retireAndErase (runCalls fuel) s id script = some s') :
    s.queued <+: s'.queued ∧ (∀ i < s.nextJobId, i ≠ id → s'.view i = s.view i) ∧
      s'.view id = none := by
  unfold System.retireAndErase at e
  simp only [Option.bind_eq_bind] at e
  obtain ⟨j, hj, e⟩ := Option.bind_eq_some_iff.mp e
  obtain ⟨⟨s₁, hasSlot⟩, e₁, e⟩ := Option.bind_eq_some_iff.mp e
  obtain ⟨l, calls, w, live⟩ := h.working hj
  obtain ⟨job', calls', w', finished⟩ := retireLoadJob_inv runCalls_framed w live e₁
  have erased : s.queued <+: (s₁.eraseJob id).queued ∧
      (∀ i < s.nextJobId, i ≠ id → (s₁.eraseJob id).view i = s.view i) ∧
      (s₁.eraseJob id).view id = none := by
    refine ⟨w'.frame.queued, fun i hlt hne => ?_, view_eraseJob_self s₁ id⟩
    rw [view_eraseJob s₁ hne]
    exact w'.frame.view i hlt hne
  split at e
  · obtain ⟨t, _, rfl⟩ := Option.map_eq_some_iff.mp e
    exact erased
  · cases e
    exact erased

lemma settleJob_frame (h : AllLawful s) {job : LoadJob} (hjob : s.view id = some job)
    (e : s.settleJob id script = some s') :
    s.queued <+: s'.queued ∧ (∀ i < s.nextJobId, i ≠ id → s'.view i = s.view i) ∧
      s'.view id = if job.isTerminal then none else some job := by
  unfold System.settleJob at e
  simp only [Option.bind_eq_bind] at e
  obtain ⟨j, hj, e⟩ := Option.bind_eq_some_iff.mp e
  have core : j.core = job := by
    unfold System.view at hjob
    rw [hj] at hjob
    exact Option.some.inj hjob
  have terminal : job.isTerminal = j.isTerminal := by
    rw [← core]
    rfl
  rw [terminal]
  split at e
  · rename_i ends
    rw [if_pos ends]
    exact retireAndErase_frame h e
  · rename_i running
    rw [if_neg running]
    split at e
    · cases e
      have same : ∀ i, (s.spliceJob id).view i = s.view i := by
        intro i
        unfold System.view
        rw [findJob_of_perm h.numbered (spliceJob_perm s id)]
      exact ⟨List.prefix_rfl, fun i _ _ => same i, (same id).trans hjob⟩
    · cases e
      exact ⟨List.prefix_rfl, fun _ _ _ => rfl, hjob⟩

lemma mem_jobIds {i : JobId} : i ∈ s.jobIds ↔ (s.view i).isSome = true := by
  unfold System.view System.jobIds System.findJob
  rw [Option.isSome_map, List.find?_isSome, List.mem_map]
  simp

lemma AllLawful.next_eq (h : AllLawful s) (h' : AllLawful s') (queued : s'.queued = s.queued) :
    s'.nextJobId = s.nextJobId := by
  rw [← h.numbered.queued, ← h'.numbered.queued, queued]

lemma sum_range_swap {n i : Nat} {f g : Nat → Nat} (hlt : i < n)
    (others : ∀ k < n, k ≠ i → g k = f k) :
    ∑ k ∈ Finset.range n, g k + f i = ∑ k ∈ Finset.range n, f k + g i := by
  have hi : i ∈ Finset.range n := Finset.mem_range.mpr hlt
  have rest : ∑ k ∈ (Finset.range n).erase i, g k = ∑ k ∈ (Finset.range n).erase i, f k := by
    refine Finset.sum_congr rfl fun k hk => ?_
    obtain ⟨hne, hk⟩ := Finset.mem_erase.mp hk
    exact others k (Finset.mem_range.mp hk) hne
  rw [← Finset.add_sum_erase _ g hi, ← Finset.add_sum_erase _ f hi, rest]
  omega

/-- **One turn** that queues nothing: the weight does not grow, and progress takes from it. -/
lemma turn_weight (patient : JobId → Bool) (h : AllLawful s)
    (e₁ : processJob (runCalls fuel) s id script = some s₁)
    (e₂ : s₁.settleJob id script = some s₂) :
    AllLawful s₂ ∧ s.queued <+: s₂.queued ∧
      (s₂.queued = s.queued →
        (∀ status ∈ (⟨s, id, script⟩ : Turn fuel).answer, (status = .pending ↔ patient id = true)) →
        weight patient s₂ + (progresses s s₁ id).toNat ≤ weight patient s ∧
          s₂.jobIds ⊆ s.jobIds) := by
  have e' := e₁
  unfold System.processJob at e'
  simp only [Option.bind_eq_bind] at e'
  obtain ⟨j, hj, e'⟩ := Option.bind_eq_some_iff.mp e'
  have view : s.view id = some j.core := by
    unfold System.view
    rw [hj]
    rfl
  obtain ⟨l, calls, w, live⟩ := h.working hj
  obtain ⟨job₁, calls₁, w₁, live₁⟩ := processJob_held runCalls_framed w live e₁
  have h₁ := h.processJob e₁
  obtain ⟨queued₂, others₂, view₂⟩ := settleJob_frame h₁ w₁.view e₂
  have h₂ : AllLawful s₂ := by
    have hid : id ∈ s.jobIds := mem_jobIds.mpr (by simp [view])
    obtain ⟨before, rest, order⟩ := List.append_of_mem hid
    exact (turned h order e₁ e₂).lawful
  refine ⟨h₂, w₁.frame.queued.trans queued₂, fun same conform => ?_⟩
  have next := h.next_eq h₂ same
  have others : ∀ i < s.nextJobId, i ≠ id → s₂.view i = s.view i := by
    intro i hlt hne
    rw [others₂ i (hlt.trans_le w₁.frame.next) hne, w₁.frame.view i hlt hne]
  refine ⟨?_, fun i hi => ?_⟩
  · have sums := sum_range_swap (h.numbered.lt view)
      (f := fun i => ((s.view i).map (LoadJob.weight (patient i))).getD 0)
      (g := fun i => ((s₂.view i).map (LoadJob.weight (patient i))).getD 0)
      fun i hlt hne => by rw [others i hlt hne]
    rw [view₂, view, Option.map_some, Option.getD_some] at sums
    unfold weight
    rw [next]
    suffices ((if job₁.isTerminal then none else some job₁).map
        (LoadJob.weight (patient id))).getD 0 + (progresses s s₁ id).toNat ≤
        j.core.weight (patient id) by
      omega
    have pos := LoadJob.weight_pos (patient id) j.core
    cases terminal : job₁.isTerminal with
    | true =>
      have := (progresses s s₁ id).toNat_le
      simp only [if_true, Option.map_none, Option.getD_none]
      omega
    | false =>
      have running : j.isTerminal = false := by
        by_contra ends
        rw [Bool.not_eq_false] at ends
        rw [if_pos ends] at e'
        obtain rfl : s = s₁ := Option.some.inj e'
        have : j.core = job₁ := Option.some.inj (view.symm.trans w₁.view)
        rw [← this] at terminal
        exact absurd (show j.core.isTerminal = true from ends) (by simp [terminal])
      obtain ⟨job₂, calls₂, w₂, advanced⟩ := processJob_advances runCalls_framed w live running e₁
      obtain rfl : job₁ = job₂ := Option.some.inj (w₁.view.symm.trans w₂.view)
      have asked : ∀ {count : Nat}, steps calls₂ = count →
          (⟨s, id, script⟩ : Turn fuel).answer =
            if steps calls < count then some script.status else none := by
        rintro _ rfl
        unfold Turn.answer
        rw [e₁, Option.any_some, w₂.log, w.log]
        simp
      have lighter : job₁.weight (patient id) ≤ j.core.weight (patient id) ∧
          (job₁.phase ≠ j.core.phase →
            job₁.weight (patient id) < j.core.weight (patient id)) := by
        rcases advanced with ⟨count, advanced⟩ | ⟨count, advanced⟩
        · exact advanced.weight (by simp) terminal
        · refine advanced.weight (fun status hstatus => conform status ?_) terminal
          rw [asked count, if_pos (Nat.lt_succ_self _)]
          exact hstatus
      obtain ⟨j₁, hj₁, core₁⟩ := Option.map_eq_some_iff.mp w₁.view
      have flag : progresses s s₁ id = (job₁.phase != j.core.phase) := by
        have ends : j₁.isTerminal = false := by
          rw [← core₁] at terminal
          exact terminal
        rw [← core₁]
        simp [progresses, hj, hj₁, running, ends, LoadJob.core]
      rw [flag]
      simp only [Bool.false_eq_true, if_false, Option.map_some, Option.getD_some]
      by_cases hphase : job₁.phase = j.core.phase
      · simpa [hphase] using lighter.1
      · have := lighter.2 hphase
        have := (job₁.phase != j.core.phase).toNat_le
        omega
  · by_cases hne : i = id
    · exact hne ▸ mem_jobIds.mpr (by simp [view])
    · have hlt := next ▸ h₂.numbered.bound i hi
      rw [mem_jobIds, others i hlt hne] at hi
      exact mem_jobIds.mpr hi

lemma processTurns_succ {turns : Nat} {scripts : List (JobScript Call)}
    (e₁ : processJob (runCalls fuel) s id script = some s₁)
    (e₂ : s₁.settleJob id script = some s₂) :
    processTurns (turns + 1) (script :: scripts) (some id) s =
      ⟨s, id, script⟩ :: processTurns turns scripts (s₁.nextJob id) s₂ := by
  have walk : s.turn id script = some (s₁.nextJob id, s₂) := by
    unfold turn
    rw [e₁]
    show (s₁.settleJob id script).bind _ = _
    rw [e₂]
    rfl
  rw [processTurns, walk]

/-- **The loop of `drain_pass`**: what a pass makes progress with is taken from the weight. -/
lemma drainLoop_weight (patient : JobId → Bool) : ∀ {turns : Nat}
    {scripts : List (JobScript Call)} {next : Option JobId} {progress progress' : Bool}
    {s s' : System fuel}, s.AllLawful →
      drainLoop turns scripts next progress s = some (s', progress') →
      s'.AllLawful ∧ s.queued <+: s'.queued ∧
        (s'.queued = s.queued →
          (∀ t ∈ processTurns turns scripts next s, ∀ status ∈ t.answer,
            (status = .pending ↔ patient t.id = true)) →
          weight patient s' + progress'.toNat ≤ weight patient s + progress.toNat ∧
            s'.jobIds ⊆ s.jobIds) := by
  intro turns
  induction turns with
  | zero =>
    intro scripts next progress progress' s s' h e
    unfold drainLoop at e
    cases e
    exact ⟨h, List.prefix_rfl, fun _ _ => ⟨le_rfl, List.Subset.refl _⟩⟩
  | succ turns ih =>
    intro scripts next progress progress' s s' h e
    cases next with
    | none =>
      unfold drainLoop at e
      cases e
      exact ⟨h, List.prefix_rfl, fun _ _ => ⟨le_rfl, List.Subset.refl _⟩⟩
    | some id =>
      cases scripts with
      | nil => cases e
      | cons script scripts =>
        obtain ⟨s₁, s₂, e₁, e₂, e⟩ := drainLoop_succ e
        obtain ⟨h₂, queued₁, lighter₁⟩ := turn_weight patient h e₁ e₂
        obtain ⟨h', queued₂, lighter₂⟩ := ih h₂ e
        refine ⟨h', queued₁.trans queued₂, fun same conform => ?_⟩
        -- nothing was queued in between either
        have same₁ : s₂.queued = s.queued :=
          (queued₁.eq_of_length_le (same ▸ queued₂.length_le)).symm
        rw [processTurns_succ e₁ e₂] at conform
        obtain ⟨weight₁, sub₁⟩ := lighter₁ same₁ (conform _ List.mem_cons_self)
        obtain ⟨weight₂, sub₂⟩ := lighter₂ (same.trans same₁.symm)
          fun t ht => conform t (List.mem_cons_of_mem _ ht)
        refine ⟨?_, fun i hi => sub₁ (sub₂ hi)⟩
        have either : (progress || progresses s s₁ id).toNat ≤
            progress.toNat + (progresses s s₁ id).toNat := by
          cases progress <;> cases progresses s s₁ id <;> decide
        omega

lemma drainPass_weight (patient : JobId → Bool) (h : AllLawful s)
    {scripts : List (JobScript Call)} {again : Bool}
    (e : s.drainPass scripts = some (s', again)) :
    AllLawful s' ∧ (s'.queued = s.queued →
      (∀ t ∈ s.drainTurns scripts, ∀ status ∈ t.answer,
        (status = .pending ↔ patient t.id = true)) →
      weight patient s' + again.toNat ≤ weight patient s) := by
  unfold System.drainPass at e
  simp only [Option.bind_eq_bind] at e
  obtain ⟨⟨s₁, progress⟩, e₁, e⟩ := Option.bind_eq_some_iff.mp e
  cases e
  obtain ⟨h', _, lighter⟩ := drainLoop_weight patient h e₁
  refine ⟨h', fun same conform => ?_⟩
  obtain ⟨weight, sub⟩ := lighter same conform
  have short : s₁.jobs.length ≤ s.jobs.length := by
    have := (List.subperm_of_subset h'.numbered.nodup sub).length_le
    simpa [System.jobIds] using this
  simpa [not_lt.mpr short] using weight

lemma atPass_succ {passes : Nat → List (JobScript Call)} {n : Nat}
    (e : s.atPass passes (n + 1) = some s') :
    ∃ s₁, s.atPass passes n = some s₁ ∧ s₁.drainPass (passes n) = some (s', true) := by
  rw [atPass] at e
  obtain ⟨s₁, e₁, e⟩ := Option.bind_eq_some_iff.mp e
  refine ⟨s₁, e₁, ?_⟩
  split at e
  · rename_i s₂ e₂
    cases e
    exact e₂
  · cases e

lemma drainLoads_atPass {passes : Nat → List (JobScript Call)} : ∀ {n : Nat} {s' : System fuel},
    s.atPass passes n = some s' → ∀ more,
      s.drainLoads ((List.range n).map passes ++ more) = s'.drainLoads more := by
  intro n
  induction n with
  | zero =>
    intro s' e more
    cases e
    rfl
  | succ n ih =>
    intro s' e more
    obtain ⟨s₁, e₁, e₂⟩ := atPass_succ e
    rw [List.range_succ, List.map_append, List.append_assoc, ih e₁]
    show (s₁.drainPass (passes n)).bind _ = _
    rw [e₂]
    rfl

lemma atPass_allLawful (h : AllLawful s) {passes : Nat → List (JobScript Call)} :
    ∀ {n : Nat} {s' : System fuel}, s.atPass passes n = some s' → AllLawful s' := by
  intro n
  induction n with
  | zero =>
    intro s' e
    cases e
    exact h
  | succ n ih =>
    intro s' e
    obtain ⟨s₁, e₁, e₂⟩ := atPass_succ e
    exact (drainPass_weight (fun _ => true) (ih e₁) e₂).1

def QueuesNothing (s : System fuel) (passes : Nat → List (JobScript Call)) : Prop :=
  ∀ n s₁ s₂ again, s.atPass passes n = some s₁ → s₁.drainPass (passes n) = some (s₂, again) →
    s₂.queued = s₁.queued

/-- From some pass on, a loader answers nothing but `PENDING`, or never does. -/
def AnswersSettle (s : System fuel) (passes : Nat → List (JobScript Call)) : Prop :=
  ∃ N : Nat, ∀ id : JobId, ∃ patient : Bool, ∀ n ≥ N, ∀ s₁, s.atPass passes n = some s₁ →
    ∀ t ∈ s₁.drainTurns (passes n), t.id = id → ∀ status ∈ t.answer,
      (status = .pending ↔ patient = true)

/-- **Draining ends.** In every reachable state, when every pass that is made returns and queues
no job, and the answers of each loader settle, `drain_loads` returns. -/
theorem drainLoads_returns (maxRequestsPerUpdate : Nat) (events : List Event) (s : System fuel)
    (passes : Nat → List (JobScript Call))
    (reached : after fuel maxRequestsPerUpdate events = some s)
    (returns : ∀ n s₁, s.atPass passes n = some s₁ → (s₁.drainPass (passes n)).isSome = true)
    (quiet : s.QueuesNothing passes) (settle : s.AnswersSettle passes) :
    ∃ n s', s.drainLoads ((List.range n).map passes) = some s' := by
  have lawful := after_allLawful reached
  by_contra never
  -- if it does not return, it makes every pass
  have goesOn : ∀ n, ∃ s₁, s.atPass passes n = some s₁ := by
    intro n
    induction n with
    | zero => exact ⟨s, rfl⟩
    | succ n ih =>
      obtain ⟨s₁, e₁⟩ := ih
      obtain ⟨⟨s₂, again⟩, e₂⟩ := Option.isSome_iff_exists.mp (returns n s₁ e₁)
      cases again with
      | true => exact ⟨s₂, by rw [atPass, e₁, Option.bind_some, e₂]⟩
      | false =>
        refine absurd ⟨n + 1, s₂, ?_⟩ never
        rw [List.range_succ, List.map_append, drainLoads_atPass e₁]
        show (s₁.drainPass (passes n)).bind _ = _
        rw [e₂]
        rfl
  obtain ⟨N, settled⟩ := settle
  choose patient conform using settled
  obtain ⟨s₀, e₀⟩ := goesOn N
  have descends : ∀ k s₁, s.atPass passes (N + k) = some s₁ →
      weight patient s₁ + k ≤ weight patient s₀ := by
    intro k
    induction k with
    | zero =>
      intro s₁ e₁
      cases e₀.symm.trans e₁
      exact le_rfl
    | succ k ih =>
      intro s₂ e₂
      obtain ⟨s₁, e₁, pass⟩ := atPass_succ e₂
      have lighter := (drainPass_weight patient (atPass_allLawful lawful e₁) pass).2
        (quiet _ _ _ _ e₁ pass)
        fun t ht => conform t.id (N + k) (Nat.le_add_right N k) s₁ e₁ t ht rfl
      have := ih s₁ e₁
      rw [Bool.toNat_true] at lighter
      omega
  obtain ⟨s₁, e₁⟩ := goesOn (N + (weight patient s₀ + 1))
  have := descends _ s₁ e₁
  omega

def oneLoad : List Event :=
  [.registerType ⟨true, 1, 4, 4, true⟩,
    .registerLoader ⟨true, 1, some ['x'], none, false, false, true, 0, 0, 0, 0, false, false⟩,
    .call (.load ⟨.file, 1, none, some ['a', '.', 'x'], false, false, none, [], false⟩ ⟨0, true⟩
      (answer .done)), .process [answer .waitDependencies]]

lemma atPass_none {s : System fuel} {passes : Nat → List (JobScript Call)} {n : Nat}
    (h : s.atPass passes n = none) : ∀ {m : Nat}, n ≤ m → s.atPass passes m = none := by
  intro m le
  induction le with
  | refl => exact h
  | step _ ih =>
    rw [atPass, ih]
    rfl

/-- A loader that stays pending is polled until a pass changes nothing. -/
theorem drainLoads_returns_pending : ∃ s : System 8, after 8 0 oneLoad = some s ∧
    ∃ n s', s.drainLoads ((List.range n).map fun _ => [answer .pending]) = some s' := by
  have ends : (after 8 0 oneLoad).isSome = true := by decide +kernel
  obtain ⟨s, hs⟩ := Option.isSome_iff_exists.mp ends
  have seen : ∀ s ∈ (after 8 0 oneLoad : Option (System 8)),
      s.atPass (fun _ => [answer .pending]) 2 = none ∧
      ∀ n < 2, ∀ s₁ ∈ s.atPass (fun _ => [answer .pending]) n,
        (s₁.drainPass [answer .pending]).isSome = true ∧
        (∀ r ∈ s₁.drainPass [answer .pending], r.1.queued = s₁.queued) ∧
        ∀ t ∈ s₁.drainTurns [answer .pending], ∀ status ∈ t.answer, status = .pending := by
    decide +kernel
  obtain ⟨stops, made⟩ := seen s hs
  have early : ∀ {n : Nat} {s₁ : System 8}, s.atPass (fun _ => [answer .pending]) n = some s₁ →
      n < 2 := by
    intro n s₁ e
    by_contra late
    rw [atPass_none stops (not_lt.mp late)] at e
    cases e
  refine ⟨s, hs, drainLoads_returns 0 oneLoad s _ hs (fun n s₁ e => (made n (early e) s₁ e).1)
    (fun n s₁ s₂ again e pass => (made n (early e) s₁ e).2.1 _ pass)
    ⟨0, fun id => ⟨true, fun n _ s₁ e t ht _ status hstatus => ?_⟩⟩⟩
  exact iff_of_true ((made n (early e) s₁ e).2.2 t ht status hstatus) rfl

lemma act_of_apply {s : System fuel} {a : Action} {st : Storage}
    (e : a.apply fuel s.storage = some st) :
    ∃ t : Traced fuel, s.act a = some { s with traced := t } ∧ t.storage = st := by
  have step : s.traced.recorded.step fuel a =
      some ⟨st, a.record s.storage s.traced.recorded.history⟩ := by
    show (a.apply fuel s.storage).map _ = _
    rw [e]
    rfl
  unfold act Traced.perform
  split
  · rename_i h
    cases h.symm.trans step
  · rename_i r h
    cases h.symm.trans step
    exact ⟨_, rfl, rfl⟩

def Lone (s : System fuel) (phase : LoadJobPhase) : Prop :=
  ∃ job ∈ s.jobs.head?, s.jobs = [job] ∧ job.phase = phase ∧ job.outcome = .none ∧
    job.loaderConstructed = true ∧ job.dependencies = [] ∧
    ∃ slot ∈ s.storage.getSlot job.handle, slot.state ≠ .pendingDelete

instance (s : System fuel) (phase : LoadJobPhase) : Decidable (s.Lone phase) :=
  inferInstanceAs (Decidable (∃ job ∈ s.jobs.head?, _))

lemma act_setState {s : System fuel} {h : Handle} {slot : Slot}
    (hs : s.storage.getSlot h = some slot) (state : ProgressState) :
    ∃ t : Traced fuel, s.act (.setState h state) = some { s with traced := t } ∧
      t.storage.getSlot h = some { slot with state := state.val } := by
  obtain ⟨t, e, storage⟩ := act_of_apply (s := s) (a := .setState h state) rfl
  refine ⟨t, e, ?_⟩
  rw [storage, Storage.setState, Storage.getSlot_modifySlot
    (f := fun slot => { slot with state := state.val }) fun _ => rfl, if_pos rfl, hs]
  rfl

lemma drainPass_lone {s s₁ : System fuel} {job job₁ : LoadJob} {script : JobScript Call}
    (jobs : s.jobs = [job]) (jobs₁ : s₁.jobs = [job₁]) (hid : job₁.id = job.id)
    (running : job.outcome = .none) (running₁ : job₁.outcome = .none)
    (turns : job₁.phase ≠ job.phase)
    (e : processJob (runCalls fuel) s job.id script = some s₁) :
    ∃ s', s.drainPass [script] = some (s', true) ∧ s'.jobs = [job₁] ∧ s'.queued = s₁.queued ∧
      s'.storage = s₁.storage := by
  have find : s.findJob job.id = some job := by simp [findJob, jobs]
  have find₁ : s₁.findJob job.id = some job₁ := by simp [findJob, jobs₁, hid]
  have flag : (job₁.phase != job.phase) = true := by simpa using turns
  unfold drainPass
  rw [jobs, List.length_singleton, List.head?_cons, Option.map_some]
  unfold drainLoop
  simp only [Option.bind_eq_bind, find, e, find₁, Option.bind_some]
  have running : job.isTerminal = false := by simp [LoadJob.isTerminal, running]
  have running₁ : job₁.isTerminal = false := by simp [LoadJob.isTerminal, running₁]
  rw [running, running₁, flag]
  unfold drainLoop
  by_cases waiting : job₁.phase = .waitingDependencies
  · refine ⟨s₁.spliceJob job.id, ?_, ?_, rfl, rfl⟩
    · simp [waiting]
    · simp [spliceJob, jobs₁, hid]
  · exact ⟨s₁, by simp [waiting], jobs₁, rfl, rfl⟩

lemma Lone.pends {s : System (fuel + 1)} (h : s.Lone .waitingDependencies) :
    ∃ s', s.drainPass [answer .pending] = some (s', true) ∧ s'.Lone .processing ∧
      s'.queued = s.queued := by
  obtain ⟨job, _, jobs, phase, outcome, constructed, deps, slot, hs, live⟩ := h
  rw [Option.mem_def] at hs
  have find : s.findJob job.id = some job := by simp [findJob, jobs]
  obtain ⟨t, e, hs'⟩ := act_setState hs ⟨.processing, rfl⟩
  have hat := (Storage.getSlot_eq_some.mp hs').2.1
  set s₁ : System (fuel + 1) := (({ s with traced := t } : System (fuel + 1)).modifyJob job.id
    fun job => { job with phase := .processing }).logCallback job.id .step with hs₁
  have turn : processJob (runCalls (fuel + 1)) s job.id (answer .pending) = some s₁ := by
    have calls : ∀ s : System (fuel + 1), runCalls (fuel + 1) (some job.id) [] s = some s :=
      fun _ => rfl
    change s.traced.storage.getSlot _ = _ at hs
    simp only [processJob, find, Option.bind_eq_bind, Option.bind_some, phase,
      processWaitingDependencies, deps, Storage.evaluate, Storage.evaluateFrom, constructed, e,
      processProcessing, answer, calls]
    simp [findJob, logCallback, modifyJob, jobs, LoadJob.isTerminal, outcome, storage, hs, hat,
      live, hs₁]
  have jobs₁ : s₁.jobs = [{ job with phase := .processing }] := by
    simp [hs₁, logCallback, modifyJob, jobs]
  obtain ⟨s', pass, jobs', queued, storage⟩ := drainPass_lone jobs jobs₁ rfl outcome outcome
    (by simp [phase]) turn
  refine ⟨s', pass, ⟨_, by rw [jobs']; rfl, jobs', rfl, outcome, constructed, deps,
    { slot with state := .processing }, ?_, by simp⟩, queued⟩
  rw [storage]
  exact hs'

lemma Lone.waits {s : System (fuel + 1)} (h : s.Lone .processing) :
    ∃ s', s.drainPass [answer .waitDependencies] = some (s', true) ∧
      s'.Lone .waitingDependencies ∧ s'.queued = s.queued := by
  obtain ⟨job, _, jobs, phase, outcome, constructed, deps, slot, hs, live⟩ := h
  rw [Option.mem_def] at hs
  have find : s.findJob job.id = some job := by simp [findJob, jobs]
  have hat := (Storage.getSlot_eq_some.mp hs).2.1
  obtain ⟨t, e, hs'⟩ :=
    act_setState (s := s.logCallback job.id .step) hs ⟨.waitingDependencies, rfl⟩
  set s₁ : System (fuel + 1) := ({ s.logCallback job.id .step with traced := t } :
    System (fuel + 1)).modifyJob job.id
      fun job => { job with phase := .waitingDependencies } with hs₁
  have turn : processJob (runCalls (fuel + 1)) s job.id (answer .waitDependencies) = some s₁ := by
    have calls : ∀ s : System (fuel + 1), runCalls (fuel + 1) (some job.id) [] s = some s :=
      fun _ => rfl
    have asked : (s.logCallback job.id .step).findJob job.id = some job := by
      simp [findJob, logCallback, jobs]
    have stored : (s.logCallback job.id .step).storage = s.storage := rfl
    simp only [processJob, find, Option.bind_eq_bind, Option.bind_some, phase, processProcessing,
      answer, calls, asked, stored, hs, hat, e]
    simp [LoadJob.isTerminal, outcome, live, hs₁]
  have jobs₁ : s₁.jobs = [{ job with phase := .waitingDependencies }] := by
    simp [hs₁, logCallback, modifyJob, jobs]
  obtain ⟨s', pass, jobs', queued, storage⟩ := drainPass_lone jobs jobs₁ rfl outcome outcome
    (by simp [phase]) turn
  refine ⟨s', pass, ⟨_, by rw [jobs']; rfl, jobs', rfl, outcome, constructed, deps,
    { slot with state := .waitingDependencies }, ?_, by simp⟩, queued⟩
  rw [storage]
  exact hs'

def backAndForth (n : Nat) : List (JobScript Call) :=
  [answer (if n % 2 = 0 then .pending else .waitDependencies)]

/-- It keeps `drain_loads` going for ever, although every pass returns and queues no job. -/
theorem not_drainLoads_returns : ¬ ∀ (s : System 8) (passes : Nat → List (JobScript Call)),
    after 8 0 oneLoad = some s →
    (∀ n s₁, s.atPass passes n = some s₁ → (s₁.drainPass (passes n)).isSome = true) →
    s.QueuesNothing passes → ∃ n s', s.drainLoads ((List.range n).map passes) = some s' := by
  intro law
  have ends : (after 8 0 oneLoad).isSome = true := by decide +kernel
  obtain ⟨s, hs⟩ := Option.isSome_iff_exists.mp ends
  have lone : ∀ s ∈ (after 8 0 oneLoad : Option (System 8)), s.Lone .waitingDependencies := by
    decide +kernel
  let phase (n : Nat) : LoadJobPhase := if n % 2 = 0 then .waitingDependencies else .processing
  have pass : ∀ n (s₁ : System 8), s₁.Lone (phase n) → ∃ s₂,
      s₁.drainPass (backAndForth n) = some (s₂, true) ∧ s₂.Lone (phase (n + 1)) ∧
        s₂.queued = s₁.queued := by
    intro n s₁ h
    rcases Nat.mod_two_eq_zero_or_one n with even | odd
    · have odd : (n + 1) % 2 = 1 := by omega
      simp only [phase, backAndForth, even, odd, if_true, one_ne_zero, if_false] at h ⊢
      exact h.pends
    · have even : (n + 1) % 2 = 0 := by omega
      simp only [phase, backAndForth, even, odd, if_true, one_ne_zero, if_false] at h ⊢
      exact h.waits
  have made : ∀ n, ∃ s₁, s.atPass backAndForth n = some s₁ ∧ s₁.Lone (phase n) := by
    intro n
    induction n with
    | zero => exact ⟨s, rfl, lone s hs⟩
    | succ n ih =>
      obtain ⟨s₁, e₁, h₁⟩ := ih
      obtain ⟨s₂, e₂, h₂, _⟩ := pass n s₁ h₁
      exact ⟨s₂, by rw [atPass, e₁, Option.bind_some, e₂], h₂⟩
  have known : ∀ {n s₁}, s.atPass backAndForth n = some s₁ → s₁.Lone (phase n) := by
    intro n s₁ e
    obtain ⟨s₂, e₂, h₂⟩ := made n
    exact Option.some.inj (e₂.symm.trans e) ▸ h₂
  obtain ⟨n, s', e⟩ := law s backAndForth hs
    (fun n s₁ e => by
      obtain ⟨s₂, e₂, _⟩ := pass n s₁ (known e)
      rw [e₂]
      rfl)
    (fun n s₁ s₂ again e e₂ => by
      obtain ⟨s₃, e₃, _, queued⟩ := pass n s₁ (known e)
      cases e₂.symm.trans e₃
      exact queued)
  -- the passes it was given are used up
  obtain ⟨s₁, e₁, _⟩ := made n
  have := drainLoads_atPass e₁ []
  rw [List.append_nil, e] at this
  cases this

end System

end PulseEngine.Asset
