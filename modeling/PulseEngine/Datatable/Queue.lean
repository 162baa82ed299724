import PulseEngine.Datatable.Requests

/-!
# The queue of the tables that are being loaded

Between the turns of `LoadQueue::process` every slot that is being loaded has one job, which is in
the phase of its slot, and the dependencies of a job are tables that its table refers to. A job may
be put at a position of the queue, as it is while it is worked on, and requests only add slots and
jobs.
-/

namespace PulseEngine.Datatable

open Asset Library

def TablePhase.state : TablePhase → AssetState
  | .pendingRead => .waitingLoad
  | .processing => .processing

namespace Tables

def Refers (r : Registry) (path path' : Path) : Prop :=
  ∃ schema, r.findSchema (schemaNameFromPath path) = some schema ∧
    ∃ name ∈ schema.references, path' = AssetIo.normalizePath (siblingPath path name)

variable {files : Files} {s s' : Tables} {i j : Nat} {state : AssetState} {path : Path}

@[simp] lemma jobs_setState : (s.setState i state).jobs = s.jobs := rfl

@[simp] lemma registry_setState : (s.setState i state).registry = s.registry := rfl

@[simp] lemma pathCache_setState : (s.setState i state).pathCache = s.pathCache := rfl

@[simp] lemma length_setState : (s.setState i state).assets.length = s.assets.length := by
  simp [setState]

@[simp] lemma pathOf_setState : (s.setState i state).pathOf j = s.pathOf j := by
  simp only [pathOf, setState, List.getElem?_modify]
  cases s.assets[j]? <;> simp
  split <;> rfl

lemma getState_setState_ne (h : j ≠ i) : (s.setState i state).getState j = s.getState j := by
  simp [getState, setState, Ne.symm h]

lemma getState_setState (h : i < s.assets.length) : (s.setState i state).getState i = state := by
  simp [getState, setState, h]

lemma setState_setState (state' : AssetState) :
    (s.setState i state).setState i state' = s.setState i state' := by
  simp [setState, List.modify_modify_eq, Function.comp_def]

lemma setState_getState (s : Tables) (i : Nat) : s.setState i (s.getState i) = s := by
  have : s.assets.modify i (fun a => { a with state := s.getState i }) = s.assets := by
    apply List.ext_getElem?
    intro k
    rw [List.getElem?_modify]
    cases hk : s.assets[k]? with
    | none => rfl
    | some a =>
      show some _ = some a
      split
      · rename_i he
        subst he
        rw [getState, hk]
        rfl
      · rfl
  rw [setState, this]

lemma lt_of_getState (h : s.getState i ≠ .empty) : i < s.assets.length := by
  by_contra hnot
  rw [getState, List.getElem?_eq_none (Nat.not_lt.mp hnot)] at h
  exact h rfl

def rank : AssetState → Nat
  | .waitingLoad => 1
  | .processing => 2
  | .loaded | .failed => 3
  | _ => 0

def progress (s : Tables) : Nat := (s.assets.map fun asset => rank asset.state).sum

lemma progress_setState (state : AssetState) (h : i < s.assets.length) :
    (s.setState i state).progress + rank (s.getState i) = s.progress + rank state := by
  have hlist : ∀ (assets : List TableAsset) (i : Nat), i < assets.length →
      ((assets.modify i fun a => { a with state := state }).map fun a => rank a.state).sum +
        rank (((assets[i]?).map (·.state)).getD .empty) =
      (assets.map fun a => rank a.state).sum + rank state := by
    intro assets
    induction assets with
    | nil => intro i h; cases h
    | cons a assets ih =>
      intro i h
      cases i with
      | zero =>
        simp only [List.modify_zero_cons, List.map_cons, List.sum_cons, List.getElem?_cons_zero,
          Option.map_some, Option.getD_some]
        omega
      | succ i =>
        have := ih i (Nat.lt_of_succ_lt_succ h)
        simp only [List.modify_succ_cons, List.map_cons, List.sum_cons, List.getElem?_cons_succ]
        omega
  exact hlist s.assets i h

/-- What holds at any time: a table that is being loaded has one job, which is in the phase of its
slot, and the dependencies of a job are tables that its table refers to. -/
structure Queued (s : Tables) : Prop where
  states : ∀ asset ∈ s.assets, asset.state = .waitingLoad ∨ asset.state = .processing ∨
    asset.state = .loaded ∨ asset.state = .failed
  live : ∀ job ∈ s.jobs, job.terminal = false ∧ s.getState job.asset = job.phase.state
  nodup : (s.jobs.map (·.asset)).Nodup
  queued : ∀ i, (s.getState i).isLoadInProgress → i ∈ s.jobs.map (·.asset)
  cache : ∀ path i, s.pathCache path = some i → i < s.assets.length ∧ s.pathOf i = path
  refers : ∀ job ∈ s.jobs, ∀ d ∈ job.dependencies,
    d < s.assets.length ∧ Refers s.registry (s.pathOf job.asset) (s.pathOf d)

namespace Queued

lemma lt (h : s.Queued) {job : TableJob} (hm : job ∈ s.jobs) : job.asset < s.assets.length := by
  apply lt_of_getState
  rw [(h.live job hm).2]
  cases job.phase <;> simp [TablePhase.state]

lemma ne (h : s.Queued) {pos : Nat} {job job' : TableJob} (hj : s.jobs[pos]? = some job)
    (hm : job' ∈ s.jobs.eraseIdx pos) : job'.asset ≠ job.asset := by
  obtain ⟨k, hk, hj'⟩ := List.mem_eraseIdx_iff_getElem?.mp hm
  intro he
  apply hk
  have hlt : k < (s.jobs.map (·.asset)).length := by
    rw [List.length_map]
    exact (List.getElem?_eq_some_iff.mp hj').1
  apply (List.getElem?_inj hlt h.nodup).mp
  rw [List.getElem?_map, List.getElem?_map, hj, hj', Option.map_some, Option.map_some, he]

lemma mono {r : Registry} (h : s.Queued)
    (hr : ∀ name schema, s.registry.schemas name = some schema → r.schemas name = some schema) :
    Queued { s with registry := r } where
  states := h.states
  live := h.live
  nodup := h.nodup
  queued := h.queued
  cache := h.cache
  refers job hm d hd := by
    obtain ⟨hlt, schema, hfind, hpath⟩ := h.refers job hm d hd
    refine ⟨hlt, schema, ?_, hpath⟩
    show Registry.findSchema r (schemaNameFromPath (s.pathOf job.asset)) = some schema
    rw [Registry.findSchema] at hfind ⊢
    split at hfind
    · cases hfind
    · rename_i hname
      rw [if_neg hname]
      exact hr _ _ hfind

end Queued

variable {pos : Nat} {job job' : TableJob}

lemma mem_place (hm : job' ∈ (s.place pos job).jobs) : job' = job ∨ job' ∈ s.jobs.eraseIdx pos := by
  obtain ⟨k, hk⟩ := List.mem_iff_getElem?.mp hm
  rw [place, List.getElem?_set] at hk
  split at hk
  · split at hk
    · exact .inl (Option.some.inj hk).symm
    · cases hk
  · rename_i hne
    exact .inr (List.mem_eraseIdx_iff_getElem?.mpr ⟨k, Ne.symm hne, hk⟩)

lemma mem_setState {asset : TableAsset} (hm : asset ∈ (s.setState i state).assets) :
    asset ∈ s.assets ∨ asset.state = state := by
  obtain ⟨k, hk⟩ := List.mem_iff_getElem?.mp hm
  rw [setState, List.getElem?_modify] at hk
  obtain ⟨a, ha, he⟩ := Option.map_eq_some_iff.mp hk
  split at he
  · exact .inr (he ▸ rfl)
  · exact .inl (he ▸ List.mem_of_getElem? ha)

lemma assets_place (hj : s.jobs[pos]? = some job) (he : job'.asset = job.asset) :
    (s.place pos job').jobs.map (·.asset) = s.jobs.map (·.asset) := by
  obtain ⟨hlt, rfl⟩ := List.getElem?_eq_some_iff.mp hj
  rw [place, List.map_set, he]
  apply List.ext_getElem (by simp)
  intro k hk hk'
  rw [List.getElem_set]
  split
  · rename_i heq
    subst heq
    rw [List.getElem_map]
  · rfl

namespace Queued

lemma modify (job' : TableJob) (h : s.Queued) (hj : s.jobs[pos]? = some job) (ha : job'.asset = job.asset)
    (ht : job'.terminal = false) (hd : ∀ d ∈ job'.dependencies, d < s.assets.length ∧
      Refers s.registry (s.pathOf job.asset) (s.pathOf d)) :
    ((s.setState job.asset job'.phase.state).place pos job').Queued := by
  have hm : job ∈ s.jobs := List.mem_of_getElem? hj
  have hassets := assets_place (s := s.setState job.asset job'.phase.state) hj ha
  refine ⟨?_, ?_, ?_, ?_, ?_, ?_⟩
  · intro asset hm
    cases mem_setState hm with
    | inl hm => exact h.states asset hm
    | inr he =>
      rw [he]
      cases job'.phase <;> simp [TablePhase.state]
  · intro other hother
    show _ ∧ (s.setState job.asset job'.phase.state).getState other.asset = _
    cases mem_place hother with
    | inl he =>
      subst he
      rw [ha, getState_setState (h.lt hm)]
      exact ⟨ht, rfl⟩
    | inr hother =>
      rw [getState_setState_ne (h.ne hj hother)]
      exact h.live other (List.mem_of_mem_eraseIdx hother)
  · rw [hassets]
    exact h.nodup
  · intro k hk
    rw [hassets]
    by_cases he : k = job.asset
    · rw [he, jobs_setState]
      exact List.mem_map_of_mem hm
    · change ((s.setState job.asset job'.phase.state).getState k).isLoadInProgress = true at hk
      rw [getState_setState_ne he] at hk
      exact h.queued k hk
  · intro path k hk
    show k < (s.setState job.asset job'.phase.state).assets.length ∧
      (s.setState job.asset job'.phase.state).pathOf k = path
    rw [length_setState, pathOf_setState]
    exact h.cache path k hk
  · intro other hother d hd'
    show d < (s.setState job.asset job'.phase.state).assets.length ∧
      Refers s.registry ((s.setState job.asset job'.phase.state).pathOf other.asset)
        ((s.setState job.asset job'.phase.state).pathOf d)
    rw [length_setState, pathOf_setState, pathOf_setState]
    cases mem_place hother with
    | inl he =>
      subst he
      rw [ha]
      exact hd d hd'
    | inr hother => exact h.refers other (List.mem_of_mem_eraseIdx hother) d hd'

lemma finish (h : s.Queued) (hj : s.jobs[pos]? = some job)
    (hs : state = .loaded ∨ state = .failed) :
    Queued { s.setState job.asset state with jobs := s.jobs.eraseIdx pos } := by
  have hm : job ∈ s.jobs := List.mem_of_getElem? hj
  refine ⟨?_, ?_, ?_, ?_, ?_, ?_⟩
  · intro asset hm
    cases mem_setState hm with
    | inl hm => exact h.states asset hm
    | inr he => exact .inr (.inr (he ▸ hs))
  · intro other hother
    show _ ∧ (s.setState job.asset state).getState other.asset = _
    rw [getState_setState_ne (h.ne hj hother)]
    exact h.live other (List.mem_of_mem_eraseIdx hother)
  · exact h.nodup.sublist ((List.eraseIdx_sublist s.jobs pos).map _)
  · intro k hk
    change ((s.setState job.asset state).getState k).isLoadInProgress = true at hk
    by_cases he : k = job.asset
    · subst he
      rw [getState_setState (h.lt hm)] at hk
      cases hs with
      | inl hs => subst hs; cases hk
      | inr hs => subst hs; cases hk
    · rw [getState_setState_ne he] at hk
      obtain ⟨other, hother, rfl⟩ := List.mem_map.mp (h.queued k hk)
      obtain ⟨n, hn⟩ := List.mem_iff_getElem?.mp hother
      -- the job of another slot is at another position
      refine List.mem_map.mpr ⟨other, List.mem_eraseIdx_iff_getElem?.mpr ⟨n, ?_, hn⟩, rfl⟩
      rintro rfl
      rw [hj] at hn
      exact he (congrArg TableJob.asset (Option.some.inj hn)).symm
  · intro path k hk
    show k < (s.setState job.asset state).assets.length ∧
      (s.setState job.asset state).pathOf k = path
    rw [length_setState, pathOf_setState]
    exact h.cache path k hk
  · intro other hother d hd
    show d < (s.setState job.asset state).assets.length ∧ Refers s.registry
      ((s.setState job.asset state).pathOf other.asset) ((s.setState job.asset state).pathOf d)
    rw [length_setState, pathOf_setState, pathOf_setState]
    exact h.refers other (List.mem_of_mem_eraseIdx hother) d hd

end Queued

lemma pathOf_startLoad (h : i < s.assets.length) : (s.startLoad path).pathOf i = s.pathOf i := by
  simp [pathOf, startLoad, List.getElem?_append_left h]

lemma pathOf_startLoad_new : (s.startLoad path).pathOf s.assets.length = path := by
  simp [pathOf, startLoad]

lemma getState_startLoad (h : i < s.assets.length) :
    (s.startLoad path).getState i = s.getState i := by
  simp [getState, startLoad, List.getElem?_append_left h]

lemma getState_startLoad_new : (s.startLoad path).getState s.assets.length = .waitingLoad := by
  simp [getState, startLoad]

lemma Queued.startLoad (h : s.Queued) (path : Path) : (s.startLoad path).Queued := by
  have hjobs : ∀ job ∈ s.jobs, (s.startLoad path).getState job.asset = s.getState job.asset ∧
      (s.startLoad path).pathOf job.asset = s.pathOf job.asset :=
    fun job hm => ⟨getState_startLoad (h.lt hm), pathOf_startLoad (h.lt hm)⟩
  have hlen : (s.startLoad path).assets.length = s.assets.length + 1 := by simp [Tables.startLoad]
  have hmem : ∀ job, job ∈ (s.startLoad path).jobs ↔
      job ∈ s.jobs ∨ job = TableJob.queued s.assets.length := by
    intro job
    simp [Tables.startLoad]
  refine ⟨?_, ?_, ?_, ?_, ?_, ?_⟩
  · intro asset hm
    cases List.mem_append.mp hm with
    | inl hm => exact h.states asset hm
    | inr hm =>
      cases List.mem_singleton.mp hm
      exact .inl rfl
  · intro job hm
    cases (hmem job).mp hm with
    | inl hm => exact ⟨(h.live job hm).1, (hjobs job hm).1.trans (h.live job hm).2⟩
    | inr he =>
      cases he
      exact ⟨rfl, getState_startLoad_new⟩
  · have hnot : s.assets.length ∉ s.jobs.map (·.asset) := by
      intro hm
      obtain ⟨job, hj, he⟩ := List.mem_map.mp hm
      exact (h.lt hj).ne he
    simpa [Tables.startLoad, TableJob.queued, List.nodup_append, h.nodup] using hnot
  · intro i hi
    have hmap : (s.startLoad path).jobs.map (·.asset) =
        s.jobs.map (·.asset) ++ [s.assets.length] := by
      simp [Tables.startLoad, TableJob.queued]
    rw [hmap, List.mem_append, List.mem_singleton]
    by_cases he : i = s.assets.length
    · exact .inr he
    · have hlt : i < s.assets.length := by
        have : i < (s.startLoad path).assets.length := lt_of_getState fun h => by
          rw [h] at hi
          cases hi
        omega
      rw [getState_startLoad hlt] at hi
      exact .inl (h.queued i hi)
  · intro p i hc
    rw [hlen]
    by_cases hp : p = path
    · subst hp
      change Function.update s.pathCache p (some s.assets.length) p = some i at hc
      rw [Function.update_self] at hc
      cases hc
      exact ⟨Nat.lt_succ_self _, pathOf_startLoad_new⟩
    · change Function.update s.pathCache path (some s.assets.length) p = some i at hc
      rw [Function.update_of_ne hp] at hc
      obtain ⟨hlt, hpath⟩ := h.cache p i hc
      exact ⟨hlt.trans (Nat.lt_succ_self _), (pathOf_startLoad hlt).trans hpath⟩
  · intro job hm d hd
    rw [hlen]
    cases (hmem job).mp hm with
    | inl hm =>
      obtain ⟨hlt, hrefers⟩ := h.refers job hm d hd
      rw [(hjobs job hm).2, pathOf_startLoad hlt]
      exact ⟨hlt.trans (Nat.lt_succ_self _), hrefers⟩
    | inr he =>
      cases he
      cases hd

lemma load_cases (s : Tables) (path : Path) (skipCache : Bool) :
    s.load path skipCache = (s, none) ∨
    (∃ i, s.load path skipCache = (s, some i) ∧
      s.pathCache (AssetIo.normalizePath path) = some i) ∨
    s.load path skipCache =
      (s.startLoad (AssetIo.normalizePath path), some s.assets.length) := by
  simp only [load]
  split
  · exact .inl rfl
  · cases skipCache with
    | true => exact .inr (.inr rfl)
    | false =>
      cases hc : (s.pathCache (AssetIo.normalizePath path)).filter
          (s.getState · ≠ .pendingDelete) with
      | none =>
        exact .inr (.inr rfl)
      | some cached =>
        exact .inr (.inl ⟨cached, rfl, (Option.filter_eq_some_iff.mp hc).1⟩)

/-- What requests leave: the registry, the paths of the slots and the jobs of the queue; the loads
get no further than before. -/
structure Extends (s s' : Tables) : Prop where
  registry : s'.registry = s.registry
  jobs : ∃ new, s'.jobs = s.jobs ++ new ∧ ∀ job ∈ new, job.phase = .pendingRead
  length : s.assets.length ≤ s'.assets.length
  pathOf : ∀ i < s.assets.length, s'.pathOf i = s.pathOf i
  getState : ∀ i < s.assets.length, s'.getState i = s.getState i
  progress : s.progress ≤ s'.progress

namespace Extends

lemma refl (s : Tables) : Extends s s :=
  ⟨rfl, ⟨[], by simp⟩, le_rfl, fun _ _ => rfl, fun _ _ => rfl, le_rfl⟩

lemma trans {s'' : Tables} (h : Extends s s') (h' : Extends s' s'') : Extends s s'' where
  registry := h'.registry.trans h.registry
  jobs := by
    obtain ⟨new, hnew, hread⟩ := h.jobs
    obtain ⟨new', hnew', hread'⟩ := h'.jobs
    refine ⟨new ++ new', by rw [hnew', hnew, List.append_assoc], ?_⟩
    intro job hm
    cases List.mem_append.mp hm with
    | inl hm => exact hread job hm
    | inr hm => exact hread' job hm
  length := h.length.trans h'.length
  pathOf i hi := (h'.pathOf i (hi.trans_le h.length)).trans (h.pathOf i hi)
  getState i hi := (h'.getState i (hi.trans_le h.length)).trans (h.getState i hi)
  progress := h.progress.trans h'.progress

lemma startLoad (s : Tables) (path : Path) : Extends s (s.startLoad path) where
  registry := rfl
  jobs := ⟨[TableJob.queued s.assets.length], rfl, by simp [TableJob.queued]⟩
  length := by simp [Tables.startLoad]
  pathOf _ hi := pathOf_startLoad hi
  getState _ hi := getState_startLoad hi
  progress := by simp [Tables.startLoad, Tables.progress]

lemma length_jobs (h : Extends s s') : s.jobs.length ≤ s'.jobs.length := by
  obtain ⟨new, hnew, -⟩ := h.jobs
  rw [hnew, List.length_append]
  exact Nat.le_add_right _ _

lemma mem_eraseIdx (h : Extends s s') (hpos : pos < s.jobs.length)
    (hm : job ∈ s'.jobs.eraseIdx pos) : job ∈ s.jobs.eraseIdx pos ∨ job.phase = .pendingRead := by
  obtain ⟨new, hnew, hread⟩ := h.jobs
  rw [hnew, List.eraseIdx_append_of_lt_length hpos] at hm
  cases List.mem_append.mp hm with
  | inl hm => exact .inl hm
  | inr hm => exact .inr (hread job hm)

end Extends

lemma load_spec (path : Path) (skipCache : Bool) (h : (s.place pos job).Queued)
    (hpos : pos < s.jobs.length) :
    Extends s (s.load path skipCache).1 ∧ ((s.load path skipCache).1.place pos job).Queued ∧
      ∀ i, (s.load path skipCache).2 = some i → i < (s.load path skipCache).1.assets.length ∧
        (s.load path skipCache).1.pathOf i = AssetIo.normalizePath path := by
  obtain he | ⟨i, he, hi⟩ | he := load_cases s path skipCache
  · rw [he]
    exact ⟨.refl s, h, nofun⟩
  · rw [he]
    refine ⟨.refl s, h, ?_⟩
    intro i' hi'
    cases hi'
    exact h.cache _ i hi
  · rw [he]
    refine ⟨.startLoad s _, ?_, ?_⟩
    · have hcomm : (s.startLoad (AssetIo.normalizePath path)).place pos job =
          (s.place pos job).startLoad (AssetIo.normalizePath path) := by
        simp only [place, Tables.startLoad, List.set_append_left pos job hpos]
      rw [hcomm]
      exact h.startLoad _
    · intro i hi
      cases hi
      exact ⟨by simp [Tables.startLoad], pathOf_startLoad_new⟩

lemma requestPath_spec (path : Path) (h : (s.place pos job).Queued) (hpos : pos < s.jobs.length) :
    Extends s (s.requestPath path).1 ∧ ((s.requestPath path).1.place pos job).Queued ∧
      ∀ i, (s.requestPath path).2 = some i → i < (s.requestPath path).1.assets.length ∧
        (s.requestPath path).1.pathOf i = AssetIo.normalizePath path := by
  rw [requestPath]
  cases hf : s.findLoaded path with
  | none => exact load_spec path false h hpos
  | some loaded =>
    refine ⟨.refl s, h, ?_⟩
    intro i hi
    cases hi
    rw [findLoaded] at hf
    split at hf
    · cases hf
    · exact h.cache _ _ (Option.filter_eq_some_iff.mp hf).1

lemma Queued.lt_place (h : (s.place pos job).Queued) (hpos : pos < s.jobs.length) :
    job.asset < s.assets.length :=
  h.lt (List.mem_of_getElem? (List.getElem?_set_self hpos))

lemma Queued.withDependencies (job' : TableJob) (h : (s.place pos job).Queued) (hpos : pos < s.jobs.length)
    (ha : job'.asset = job.asset) (hp : job'.phase = job.phase) (ht : job'.terminal = job.terminal)
    (hd : ∀ d ∈ job'.dependencies, d < s.assets.length ∧
      Refers s.registry (s.pathOf job.asset) (s.pathOf d)) : (s.place pos job').Queued := by
  have hj : (s.place pos job).jobs[pos]? = some job := List.getElem?_set_self hpos
  have hlive := h.live job (List.mem_of_getElem? hj)
  have hstate : (s.place pos job).setState job.asset job'.phase.state = s.place pos job := by
    rw [hp, ← hlive.2, setState_getState]
  have := h.modify job' hj ha (ht.trans hlive.1) hd
  rw [hstate] at this
  simpa only [place, List.set_set] using this

lemma requestReferences_spec (job : TableJob) (path : Path) {names : List Path}
    {dependencies : List Nat}
    (h : (s.place pos { job with dependencies := dependencies }).Queued)
    (hpos : pos < s.jobs.length) (hnames : ∀ name ∈ names, Refers s.registry (s.pathOf job.asset)
      (AssetIo.normalizePath (siblingPath path name))) :
    Extends s (requestReferences path names dependencies s).1 ∧
      ((requestReferences path names dependencies s).1.place pos
        { job with dependencies := (requestReferences path names dependencies s).2.1 }).Queued := by
  induction names generalizing dependencies s with
  | nil => exact ⟨.refl s, h⟩
  | cons name names ih =>
    rw [requestReferences]
    cases s.registry.findSchema name with
    | none => exact ⟨.refl s, h⟩
    | some _ =>
      obtain ⟨hext, hqueued, hslot⟩ := requestPath_spec (siblingPath path name) h hpos
      cases hr : s.requestPath (siblingPath path name) with
      | mk s₁ found =>
        rw [hr] at hext hqueued hslot
        cases found with
        | none => exact ⟨hext, hqueued⟩
        | some i =>
          obtain ⟨hlt, hpath⟩ := hslot i rfl
          have hpos₁ : pos < s₁.jobs.length := hpos.trans_le hext.length_jobs
          have hasset : s₁.pathOf job.asset = s.pathOf job.asset :=
            hext.pathOf _ (h.lt_place hpos)
          have hnames₁ : ∀ name' ∈ name :: names, Refers s₁.registry (s₁.pathOf job.asset)
              (AssetIo.normalizePath (siblingPath path name')) := by
            rw [hext.registry, hasset]
            exact hnames
          have hnext : (s₁.place pos { job with dependencies := dependencies ++ [i] }).Queued := by
            refine hqueued.withDependencies _ hpos₁ rfl rfl rfl ?_
            intro d hd
            cases List.mem_append.mp hd with
            | inl hd =>
              exact hqueued.refers { job with dependencies := dependencies }
                (List.mem_of_getElem? (List.getElem?_set_self hpos₁)) d hd
            | inr hd =>
              cases List.mem_singleton.mp hd
              rw [hpath]
              exact ⟨hlt, hnames₁ name (.head _)⟩
          obtain ⟨hext', hqueued'⟩ := ih hnext hpos₁ fun name hm => hnames₁ name (.tail _ hm)
          exact ⟨hext.trans hext', hqueued'⟩

end Tables

end PulseEngine.Datatable
