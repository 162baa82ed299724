import PulseEngine.Datatable.Queue
import PulseEngine.Library.Descent

/-!
# Tables that wait for each other

A job whose step returns `PENDING` stays where it is in the queue until the first of its
dependencies that is not loaded is loaded or has failed. So nothing moves any more if every job that
`LoadQueue::process` visits waits. This is the case when tables wait for each other in a circle,
which takes a circle of reference columns, or when the limit of requests per update leaves the jobs
that are waited for behind.
-/

namespace PulseEngine.Datatable

open Asset Library

namespace Tables

def WaitsFor (s : Tables) (job : TableJob) (asset : Nat) : Prop :=
  job.phase = .processing ∧
    job.dependencies.find? (fun d => s.referenceState d ≠ .loaded) = some asset ∧
    s.referenceState asset = .inProgress

def Waits (s : Tables) (asset asset' : Nat) : Prop :=
  ∃ job ∈ s.jobs, job.asset = asset ∧ s.WaitsFor job asset'

def Starved (s : Tables) : Prop :=
  0 < s.maxRequestsPerUpdate ∧ s.maxRequestsPerUpdate < s.jobs.length ∧
    ∀ job ∈ s.jobs.take s.maxRequestsPerUpdate, ∃ asset, s.WaitsFor job asset

def Settled (s : Tables) : Prop :=
  ∀ asset ∈ s.assets, asset.state = .loaded ∨ asset.state = .failed

variable {files : Files} {s s' : Tables} {pos : Nat} {job job' : TableJob}
  {state : AssetState}

lemma schemas_step (r : Registry) (task : LoadTask) : (r.step task).1.schemas = r.schemas := by
  rw [Registry.step]
  cases r.openFile task with
  | error status => rfl
  | ok opened =>
    simp only
    cases (Table.reset opened.1).fill (schemaNameFromPath task.path) opened.2 with
    | error error => rfl
    | ok table =>
      simp only [Registry.finishLoad, Registry.bindSlot]
      split <;> rfl

lemma step_pending {r : Registry} {task : LoadTask} (h : (r.step task).2 = .pending) :
    (r.step task).1 = r ∧ task.references.find? (· ≠ .loaded) = some .inProgress := by
  rw [Registry.step] at h ⊢
  cases ho : r.openFile task with
  | error status =>
    simp only [ho] at h
    subst h
    refine ⟨rfl, ?_⟩
    unfold Registry.openFile at ho
    simp only [bind, Except.bind, pure, Except.pure, throw, throwThe, MonadExceptOf.throw] at ho
    repeat' split at ho
    all_goals simp_all
  | ok opened =>
    simp only [ho] at h
    cases hf : (Table.reset opened.1).fill (schemaNameFromPath task.path) opened.2 with
    | error error =>
      simp only [hf] at h
      cases h
    | ok table =>
      simp only [hf] at h
      cases h

structure Worked (s : Tables) (pos : Nat) (job : TableJob) (s' : Tables) (job' : TableJob) :
    Prop where
  queued : (s'.place pos job').Queued
  lt : pos < s'.jobs.length
  asset : job'.asset = job.asset
  phase : job'.phase = job.phase
  others : ∀ other ∈ s'.jobs.eraseIdx pos, other ∈ s.jobs.eraseIdx pos ∨ other.phase = .pendingRead
  progress : s.progress ≤ s'.progress

lemma Worked.requests {schema : Schema} (h : (s.place pos job).Queued) (hpos : pos < s.jobs.length)
    (hs : s.registry.findSchema (schemaNameFromPath (s.pathOf job.asset)) = some schema) :
    Worked s pos job (requestReferences (s.pathOf job.asset) schema.references job.dependencies s).1
      { job with dependencies := (requestReferences (s.pathOf job.asset) schema.references
        job.dependencies s).2.1 } := by
  obtain ⟨hext, hqueued⟩ := requestReferences_spec job (s.pathOf job.asset) h hpos
    fun name hm => ⟨schema, hs, name, hm, rfl⟩
  exact ⟨hqueued, hpos.trans_le hext.length_jobs, rfl, rfl,
    fun other => hext.mem_eraseIdx hpos, hext.progress⟩

lemma Worked.step (h : Worked s pos job s' job') (task : LoadTask) :
    Worked s pos job { s' with registry := (s'.registry.step task).1 }
      { job' with dependenciesRequested := true } where
  queued := by
    have hj : (s'.place pos job').jobs[pos]? = some job' := List.getElem?_set_self h.lt
    have := h.queued.withDependencies { job' with dependenciesRequested := true } h.lt
      rfl rfl rfl (h.queued.refers job' (List.mem_of_getElem? hj))
    refine this.mono ?_
    intro name schema hs
    rw [schemas_step]
    exact hs
  lt := h.lt
  asset := h.asset
  phase := h.phase
  others := h.others
  progress := h.progress

lemma stepDataTableLoad_spec (files : Files) (h : (s.place pos job).Queued)
    (hpos : pos < s.jobs.length) (hp : job.phase = .processing) :
    Worked s pos job (s.stepDataTableLoad files job).1 (s.stepDataTableLoad files job).2.1 ∧
      ((s.stepDataTableLoad files job).2.2 = .pending →
        (s.stepDataTableLoad files job).2.1.dependenciesRequested ∧
        (∃ asset, (s.stepDataTableLoad files job).1.WaitsFor
          (s.stepDataTableLoad files job).2.1 asset) ∧
        (job.dependenciesRequested →
          (s.stepDataTableLoad files job).1 = s ∧ (s.stepDataTableLoad files job).2.1 = job)) := by
  have hrefl : Worked s pos job s job := ⟨h, hpos, rfl, rfl, fun _ => .inl, le_rfl⟩
  rw [stepDataTableLoad]
  cases hs : s.registry.findSchema (schemaNameFromPath (s.pathOf job.asset)) with
  | none => exact ⟨hrefl, nofun⟩
  | some schema =>
    simp only
    -- the dependencies are requested once
    have hrequests : ∃ s₁ dependencies error,
        (if job.dependenciesRequested = true then (s, job.dependencies, none)
          else requestReferences (s.pathOf job.asset) schema.references job.dependencies s) =
          (s₁, dependencies, error) ∧
        Worked s pos job s₁ { job with dependencies := dependencies } ∧
        (job.dependenciesRequested → s₁ = s ∧ dependencies = job.dependencies) := by
      by_cases hr : job.dependenciesRequested
      · exact ⟨s, job.dependencies, none, if_pos hr, hrefl, fun _ => ⟨rfl, rfl⟩⟩
      · exact ⟨_, _, _, if_neg hr, .requests h hpos hs, fun hr' => absurd hr' hr⟩
    obtain ⟨s₁, dependencies, error, he, hworked, hsame⟩ := hrequests
    rw [he]
    cases error with
    | some error => exact ⟨hworked, nofun⟩
    | none =>
      simp only
      refine ⟨hworked.step _, ?_⟩
      intro hpending
      obtain ⟨hregistry, hfind⟩ := step_pending hpending
      simp only [List.find?_map, Option.map_eq_some_iff] at hfind
      obtain ⟨asset, hasset, hprogress⟩ := hfind
      refine ⟨trivial, ⟨asset, hp, hasset, hprogress⟩, ?_⟩
      intro hr
      obtain ⟨rfl, rfl⟩ := hsame hr
      rw [hregistry]
      refine ⟨rfl, ?_⟩
      cases job
      cases hr
      rfl

/-- What holds between the turns: the jobs that are processed have requested their dependencies. -/
structure Consistent (s : Tables) : Prop extends Queued s where
  requested : ∀ job ∈ s.jobs, job.phase = .processing → job.dependenciesRequested

def Moved (s : Tables) (pos : Nat) (job : TableJob) (t : Tables × Nat) : Prop :=
  (t = (s.place pos job, pos + 1) ∧ ∃ asset, s.WaitsFor job asset) ∨ s.progress < t.1.progress

lemma Worked.requested (h : Worked s pos job s' job')
    (hrequested : ∀ other ∈ s.jobs.eraseIdx pos,
      other.phase = .processing → other.dependenciesRequested) :
    ∀ other ∈ s'.jobs.eraseIdx pos, other.phase = .processing → other.dependenciesRequested := by
  intro other hother hp
  cases h.others other hother with
  | inl hother => exact hrequested other hother hp
  | inr hread =>
    rw [hread] at hp
    cases hp

lemma Worked.stay (h : Worked s pos job s' job')
    (hrequested : ∀ other ∈ s.jobs.eraseIdx pos,
      other.phase = .processing → other.dependenciesRequested) (hr : job'.dependenciesRequested) :
    s'.endTurn pos job' = (s'.place pos job', pos + 1) ∧ (s'.place pos job').Consistent := by
  have hm : job' ∈ (s'.place pos job').jobs := List.mem_of_getElem? (List.getElem?_set_self h.lt)
  refine ⟨?_, h.queued, ?_⟩
  · rw [endTurn, (h.queued.live job' hm).1]
    rfl
  · intro other hother hp
    cases mem_place hother with
    | inl he => exact he ▸ hr
    | inr hother => exact h.requested hrequested other hother hp

lemma Worked.finish (h : Worked s pos job s' job') (hp : job.phase = .processing)
    (hrequested : ∀ other ∈ s.jobs.eraseIdx pos,
      other.phase = .processing → other.dependenciesRequested)
    (hs : state = .loaded ∨ state = .failed) :
    ((s'.setState job'.asset state).endTurn pos { job' with terminal := true }).1.Consistent ∧
      s.progress <
        ((s'.setState job'.asset state).endTurn pos { job' with terminal := true }).1.progress := by
  have hj : (s'.place pos job').jobs[pos]? = some job' := List.getElem?_set_self h.lt
  have hqueued := h.queued.finish hj hs
  have hjobs : (s'.place pos job').jobs.eraseIdx pos = s'.jobs.eraseIdx pos := List.eraseIdx_set_eq
  rw [hjobs] at hqueued
  refine ⟨⟨hqueued, h.requested hrequested⟩, ?_⟩
  show s.progress < (s'.setState job'.asset state).progress
  have hstate : s'.getState job'.asset = .processing := by
    have := (h.queued.live job' (List.mem_of_getElem? hj)).2
    rw [h.phase, hp] at this
    exact this
  have hsum := progress_setState state (h.queued.lt_place h.lt)
  have hle := h.progress
  have hrank : rank state = 3 := by
    cases hs with
    | inl hs => rw [hs]; rfl
    | inr hs => rw [hs]; rfl
  rw [hstate, hrank, show rank .processing = 2 from rfl] at hsum
  omega

lemma processProcessing_spec (files : Files) (h : (s.place pos job).Queued)
    (hpos : pos < s.jobs.length) (hp : job.phase = .processing)
    (hrequested : ∀ other ∈ s.jobs.eraseIdx pos,
      other.phase = .processing → other.dependenciesRequested) :
    let t := (s.processProcessing files job).1.endTurn pos (s.processProcessing files job).2
    t.1.Consistent ∧ s.progress ≤ t.1.progress ∧
      (job.dependenciesRequested → Moved s pos job t) := by
  obtain ⟨hworked, hpending⟩ := stepDataTableLoad_spec files h hpos hp
  rw [processProcessing]
  cases ht : s.stepDataTableLoad files job with
  | mk s' rest =>
    obtain ⟨job', status⟩ := rest
    rw [ht] at hworked hpending
    cases status with
    | pending =>
      obtain ⟨hr, ⟨asset, hwaits⟩, hsame⟩ := hpending rfl
      obtain ⟨he, hconsistent⟩ := hworked.stay hrequested hr
      simp only [he]
      refine ⟨hconsistent, hworked.progress, ?_⟩
      intro hr'
      obtain ⟨rfl, rfl⟩ := hsame hr'
      exact .inl ⟨rfl, asset, hwaits⟩
    | done =>
      obtain ⟨hconsistent, hlt⟩ := hworked.finish hp hrequested (.inl rfl)
      exact ⟨hconsistent, hlt.le, fun _ => .inr hlt⟩
    | failed error =>
      obtain ⟨hconsistent, hlt⟩ := hworked.finish hp hrequested (.inr rfl)
      exact ⟨hconsistent, hlt.le, fun _ => .inr hlt⟩

lemma place_self (hj : s.jobs[pos]? = some job) : s.place pos job = s := by
  obtain ⟨hlt, rfl⟩ := List.getElem?_eq_some_iff.mp hj
  rw [place, List.set_getElem_self]

lemma Consistent.turn (h : s.Consistent) (files : Files) (hj : s.jobs[pos]? = some job) :
    (s.turn files pos job).1.Consistent ∧ Moved s pos job (s.turn files pos job) := by
  have hm : job ∈ s.jobs := List.mem_of_getElem? hj
  have hpos : pos < s.jobs.length := (List.getElem?_eq_some_iff.mp hj).1
  have hothers : ∀ other ∈ s.jobs.eraseIdx pos,
      other.phase = .processing → other.dependenciesRequested :=
    fun other hother => h.requested other (List.mem_of_mem_eraseIdx hother)
  rw [Tables.turn, processJob]
  cases hp : job.phase with
  | processing =>
    have hplace : (s.place pos job).Queued := by
      rw [place_self hj]
      exact h.toQueued
    obtain ⟨hconsistent, -, hmoved⟩ := processProcessing_spec files hplace hpos hp hothers
    exact ⟨hconsistent, hmoved (h.requested job hm hp)⟩
  | pendingRead =>
    have hstate : s.getState job.asset = .waitingLoad := by
      rw [(h.live job hm).2, hp]
      rfl
    simp only [processPendingRead, setState_setState]
    cases files.readFile ((s.setState job.asset .loading).pathOf job.asset) with
    | none =>
      have hsum := progress_setState .failed (h.lt hm)
      rw [hstate, show rank .failed = 3 from rfl, show rank .waitingLoad = 1 from rfl] at hsum
      refine ⟨⟨h.finish hj (.inr rfl), hothers⟩, .inr ?_⟩
      show s.progress < (s.setState job.asset .failed).progress
      omega
    | some bytes =>
      have hsum := progress_setState .processing (h.lt hm)
      rw [hstate, show rank .processing = 2 from rfl, show rank .waitingLoad = 1 from rfl] at hsum
      have hqueued := h.modify { job with bytes := bytes, phase := .processing } hj rfl
        (h.live job hm).1 (h.refers job hm)
      obtain ⟨hconsistent, hle, -⟩ := processProcessing_spec files hqueued hpos rfl hothers
      refine ⟨hconsistent, .inr ?_⟩
      have hlt : s.progress < (s.setState job.asset .processing).progress := by omega
      exact hlt.trans_le hle

/-- **Run lemma.** The loop moves something, or leaves everything as it is because the jobs it
visits wait. -/
lemma Consistent.processLoop (h : s.Consistent) (files : Files) (turns position : Nat) :
    (processLoop files turns position s).Consistent ∧
      s.progress ≤ (processLoop files turns position s).progress ∧
      (s.progress = (processLoop files turns position s).progress →
        ∀ job ∈ (s.jobs.drop position).take turns, ∃ asset, s.WaitsFor job asset) := by
  induction turns generalizing position s with
  | zero => exact ⟨h, le_rfl, fun _ => by simp⟩
  | succ turns ih =>
    rw [Tables.processLoop]
    cases hj : s.jobs[position]? with
    | none =>
      have hdrop : s.jobs.drop position = [] :=
        List.drop_eq_nil_of_le (List.getElem?_eq_none_iff.mp hj)
      exact ⟨h, le_rfl, fun _ => by simp [hdrop]⟩
    | some job =>
      obtain ⟨hconsistent, hmoved⟩ := h.turn files hj
      cases ht : s.turn files position job with
      | mk s' next =>
        rw [ht] at hconsistent hmoved
        obtain ⟨hend, hle, hwait⟩ := ih hconsistent next
        refine ⟨by simpa only [ht] using hend, ?_⟩
        simp only [ht]
        cases hmoved with
        | inl hsame =>
          obtain ⟨he, hjob⟩ := hsame
          rw [place_self hj] at he
          cases he
          refine ⟨hle, ?_⟩
          intro heq other hother
          obtain ⟨hlt, rfl⟩ := List.getElem?_eq_some_iff.mp hj
          rw [List.drop_eq_getElem_cons hlt, List.take_succ_cons] at hother
          cases List.mem_cons.mp hother with
          | inl he => exact he ▸ hjob
          | inr hother => exact hwait heq other hother
        | inr hlt =>
          have := hlt.trans_le hle
          exact ⟨this.le, fun heq => absurd heq this.ne⟩

lemma Consistent.apply (h : s.Consistent) (files : Files) (e : Event) :
    (s.apply files e).Consistent := by
  cases e with
  | registerSchema schema =>
    refine ⟨h.toQueued.mono ?_, h.requested⟩
    intro name schema' hs
    show emplace s.registry.schemas schema.name schema name = some schema'
    by_cases he : name = schema.name
    · rw [he] at hs ⊢
      rw [emplace_of_isSome (by rw [hs]; rfl), hs]
    · rw [emplace_ne he, hs]
  | load path skipCache =>
    show (s.load path skipCache).1.Consistent
    obtain he | ⟨i, he, -⟩ | he := load_cases s path skipCache
    · rw [he]
      exact h
    · rw [he]
      exact h
    · rw [he]
      refine ⟨h.startLoad _, ?_⟩
      intro job hm hp
      cases List.mem_append.mp hm with
      | inl hm => exact h.requested job hm hp
      | inr hm =>
        cases List.mem_singleton.mp hm
        cases hp
  | process => exact (h.processLoop files _ _).1

lemma Consistent.init (maxRequestsPerUpdate : Nat) : (init maxRequestsPerUpdate).Consistent := by
  refine ⟨⟨?_, ?_, ?_, ?_, ?_, ?_⟩, ?_⟩ <;>
    simp [Tables.init, getState, AssetState.isLoadInProgress]

lemma Consistent.after (files : Files) (maxRequestsPerUpdate : Nat) (events : List Event) :
    (after files maxRequestsPerUpdate events).Consistent := by
  induction events using List.reverseRecOn with
  | nil => exact .init maxRequestsPerUpdate
  | append_singleton events e ih =>
    rw [Tables.after, List.foldl_append]
    exact ih.apply files e

lemma Consistent.mem_of_waits (h : s.Consistent) (hm : job ∈ s.jobs) (hw : s.WaitsFor job i) :
    i ∈ s.jobs.map (·.asset) := by
  obtain ⟨-, hfind, hprogress⟩ := hw
  obtain ⟨hlt, -⟩ := h.refers job hm i (List.mem_of_find?_eq_some hfind)
  apply h.queued
  have hstate : s.getState i = (s.assets[i]).state := by
    rw [getState, List.getElem?_eq_getElem hlt]
    rfl
  rw [referenceState, hstate] at hprogress
  rw [hstate]
  obtain he | he | he | he := h.states _ (List.getElem_mem hlt)
  all_goals rw [he] at hprogress ⊢
  · rfl
  · rfl
  · cases hprogress
  · cases hprogress

lemma Consistent.circular_refers (h : s.Consistent) (hc : Circular s.Waits) :
    Circular (Refers s.registry) := by
  refine hc.map s.pathOf ?_
  rintro i j ⟨job, hm, rfl, -, hfind, -⟩
  exact (h.refers job hm j (List.mem_of_find?_eq_some hfind)).2

lemma Consistent.settled_iff (h : s.Consistent) : s.Settled ↔ s.jobs = [] := by
  constructor
  · intro hsettled
    by_contra hne
    obtain ⟨job, hm⟩ := List.exists_mem_of_ne_nil _ hne
    have hlt := h.lt hm
    have hstate := (h.live job hm).2
    rw [getState, List.getElem?_eq_getElem hlt, Option.map_some, Option.getD_some] at hstate
    have hs := hsettled _ (List.getElem_mem hlt)
    rw [hstate] at hs
    cases hp : job.phase <;> simp [hp, TablePhase.state] at hs
  · intro hnil asset hm
    obtain ⟨i, hlt, rfl⟩ := List.getElem_of_mem hm
    have hnot : ¬ (s.getState i).isLoadInProgress := by
      intro hi
      have := h.queued i hi
      rw [hnil] at this
      cases this
    rw [getState, List.getElem?_eq_getElem hlt, Option.map_some, Option.getD_some] at hnot
    obtain he | he | he | he := h.states _ hm
    · rw [he] at hnot
      exact absurd rfl hnot
    · rw [he] at hnot
      exact absurd rfl hnot
    · exact .inl he
    · exact .inr he

lemma Consistent.waits_of_process (h : s.Consistent) (files : Files)
    (hstuck : s.process files = s) :
    ∀ job ∈ s.jobs.take s.visits, ∃ asset, s.WaitsFor job asset := by
  have hloop := (h.processLoop files s.visits 0).2.2
  rw [show Tables.processLoop files s.visits 0 s = s from hstuck, List.drop_zero] at hloop
  exact hloop rfl

def referring (name : Path) (references : List Path) : Schema := ⟨name, true, references⟩

def emptyFiles (schema : Path) : Files where
  readFile _ := some []
  parse _ _ _ := some ⟨true, some schema, some []⟩

def tablePath (name : Char) : Path := siblingPath [] [name]

/-- With a limit of one request per update, a table that refers to another one leaves it behind. -/
example : (after (emptyFiles ['a']) 1 [.registerSchema (referring ['a'] [['b']]),
    .registerSchema (referring ['b'] []), .load (tablePath 'a') false, .process]).Starved := by
  refine ⟨by decide, by decide, ?_⟩
  intro job hm
  cases List.mem_singleton.mp hm
  exact ⟨1, rfl, rfl, rfl⟩

end Tables

end PulseEngine.Datatable
