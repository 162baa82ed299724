import PulseEngine.Asset.LoadQueue

/-!
# What work on one load job leaves alone

A callback may call back into the system, which queues jobs and even builds some of them at once, but
it never works on a job that was queued before, apart from the dependencies it adds to its own.
`Extends` states this for any piece of work and the jobs it owns, and the lemmas say it of the
elementary operations.
-/

namespace PulseEngine.Asset

def LoadJob.core (job : LoadJob) : LoadJob := { job with dependencies := [] }

def ctorCalls (l : AssetLoader) : List LoaderCallback := if l.desc.hasCtor then [.ctor true] else []

def dtorCalls (l : AssetLoader) : List LoaderCallback := if l.desc.hasDtor then [.dtor] else []

inductive Finished (l : AssetLoader) : List LoaderCallback → Prop where
  | unread : Finished l []
  | refused (hasCtor : l.desc.hasCtor = true) : Finished l [.ctor false]
  | ended (steps : Nat) :
    Finished l (ctorCalls l ++ List.replicate steps .step ++ dtorCalls l)

inductive Live (l : AssetLoader) (job : LoadJob) : List LoaderCallback → Prop where
  | fresh (loader : job.loader = some l) (constructed : job.loaderConstructed = false)
    (phase : job.phase ≠ .processing) : Live l job []
  | refused (loader : job.loader = some l) (constructed : job.loaderConstructed = false)
    (terminal : job.isTerminal = true) (hasCtor : l.desc.hasCtor = true) : Live l job [.ctor false]
  | constructed (steps : Nat) (loader : job.loader = some l) (constructed : job.loaderConstructed = true)
    (phase : job.phase = .pendingRead → job.isTerminal = true) :
    Live l job (ctorCalls l ++ List.replicate steps .step)

variable {l : AssetLoader} {job : LoadJob} {log : List LoaderCallback}

lemma Live.finish (h : Live l job log) {outcome : LoadJobOutcome} (ho : outcome ≠ .none) :
    Live l { job with outcome := outcome } log := by
  have terminal : ({ job with outcome := outcome } : LoadJob).isTerminal = true := by
    simpa [LoadJob.isTerminal] using ho
  cases h with
  | fresh loader constructed phase => exact .fresh loader constructed phase
  | refused loader constructed _ hasCtor => exact .refused loader constructed terminal hasCtor
  | constructed steps loader constructed phase =>
    exact .constructed steps loader constructed fun _ => terminal

lemma Live.core (h : Live l job log) : Live l job.core log := by
  cases h with
  | fresh loader constructed phase => exact .fresh loader constructed phase
  | refused loader constructed terminal hasCtor => exact .refused loader constructed terminal hasCtor
  | constructed steps loader constructed phase => exact .constructed steps loader constructed phase

namespace System

variable {fuel : Nat} {s s' s₀ s₁ s₂ : System fuel} {id : JobId} {own own' : Set JobId}

def callbacksOf (s : System fuel) (id : JobId) : List LoaderCallback :=
  (s.callbacks.filter fun call => call.1 = id).map Prod.snd

def view (s : System fuel) (id : JobId) : Option LoadJob := (s.findJob id).map LoadJob.core

def loaderOf (s : System fuel) (id : JobId) : Option AssetLoader :=
  (s.queued[id]?).bind fun job => job.loader

def jobIds (s : System fuel) : List JobId := s.jobs.map fun job => job.id

structure Numbered (s : System fuel) : Prop where
  nodup : s.jobIds.Nodup
  bound : ∀ id ∈ s.jobIds, id < s.nextJobId
  queued : s.queued.length = s.nextJobId
  calls : ∀ call ∈ s.callbacks, call.1 < s.nextJobId

inductive Lawful (s : System fuel) (id : JobId) : Prop where
  | live {l : AssetLoader} {job : LoadJob} (loader : s.loaderOf id = some l)
    (view : s.view id = some job) (calls : Live l job (s.callbacksOf id)) : Lawful s id
  | finished {l : AssetLoader} (loader : s.loaderOf id = some l) (view : s.view id = none)
    (calls : Finished l (s.callbacksOf id)) : Lawful s id

/-- `s'` is `s` after work on the jobs in `own` and on jobs that were queued since. -/
structure Extends (s s' : System fuel) (own : Set JobId) : Prop where
  numbered : s'.Numbered
  next : s.nextJobId ≤ s'.nextJobId
  queued : s.queued <+: s'.queued
  view : ∀ id < s.nextJobId, id ∉ own → s'.view id = s.view id
  calls : ∀ id < s.nextJobId, id ∉ own → s'.callbacksOf id = s.callbacksOf id
  lawful : ∀ id < s'.nextJobId, s.nextJobId ≤ id → id ∉ own → s'.Lawful id
  order : ∃ new, s'.jobIds = s.jobIds ++ new

lemma loaderOf_of_queued {l : AssetLoader} (h : s.queued <+: s'.queued) (hl : s.loaderOf id = some l) :
    s'.loaderOf id = some l := by
  obtain ⟨job, hjob, hl⟩ := Option.bind_eq_some_iff.mp hl
  obtain ⟨more, h⟩ := h
  have : s'.queued[id]? = some job := by
    rw [← h, List.getElem?_append_left (List.getElem?_eq_some_iff.mp hjob).1, hjob]
  unfold System.loaderOf
  rw [this]
  exact hl

lemma Lawful.frame (h : s.Lawful id) (queued : s.queued <+: s'.queued) (view : s'.view id = s.view id)
    (calls : s'.callbacksOf id = s.callbacksOf id) : s'.Lawful id := by
  cases h with
  | live loader hv hc =>
    exact .live (loaderOf_of_queued queued loader) (view.trans hv) (calls ▸ hc)
  | finished loader hv hc =>
    exact .finished (loaderOf_of_queued queued loader) (view.trans hv) (calls ▸ hc)

lemma Extends.refl (h : s.Numbered) : Extends s s own :=
  ⟨h, le_rfl, List.prefix_rfl, fun _ _ _ => rfl, fun _ _ _ => rfl,
    fun _ hlt hle _ => absurd hlt (not_lt.mpr hle),
    [], (List.append_nil _).symm⟩

lemma Extends.mono (h : Extends s s' own) (sub : own ⊆ own') : Extends s s' own' :=
  ⟨h.numbered, h.next, h.queued, fun id hlt hn => h.view id hlt fun hm => hn (sub hm),
    fun id hlt hn => h.calls id hlt fun hm => hn (sub hm),
    fun id hlt hle hn => h.lawful id hlt hle fun hm => hn (sub hm), h.order⟩

lemma Extends.trans (h : Extends s s₁ own) (h' : Extends s₁ s₂ own) : Extends s s₂ own := by
  obtain ⟨new, order⟩ := h.order
  obtain ⟨new', order'⟩ := h'.order
  refine ⟨h'.numbered, h.next.trans h'.next, h.queued.trans h'.queued, fun id hlt hn => ?_,
    fun id hlt hn => ?_, fun id hlt hle hn => ?_, new ++ new', ?_⟩
  · rw [h'.view id (hlt.trans_le h.next) hn, h.view id hlt hn]
  · rw [h'.calls id (hlt.trans_le h.next) hn, h.calls id hlt hn]
  · by_cases hold : id < s₁.nextJobId
    · exact (h.lawful id hold hle hn).frame h'.queued (h'.view id hold hn) (h'.calls id hold hn)
    · exact h'.lawful id hlt (not_lt.mp hold) hn
  · rw [order', order, List.append_assoc]

lemma Extends.close (h : Extends s s' {id}) (new : s.nextJobId ≤ id) (law : s'.Lawful id) :
    Extends s s' ∅ := by
  have notOwn : ∀ i < s.nextJobId, i ∉ ({id} : Set JobId) := by
    intro i hlt hm
    cases hm
    exact absurd hlt (not_lt.mpr new)
  refine ⟨h.numbered, h.next, h.queued, fun i hlt _ => h.view i hlt (notOwn i hlt),
    fun i hlt _ => h.calls i hlt (notOwn i hlt), fun i hlt hle _ => ?_, h.order⟩
  by_cases hi : i = id
  · exact hi ▸ law
  · exact h.lawful i hlt hle hi

lemma Extends.of_same (h : s.Numbered) (jobs : s'.jobs = s.jobs) (next : s'.nextJobId = s.nextJobId)
    (callbacks : s'.callbacks = s.callbacks) (queued : s'.queued = s.queued) : Extends s s' own := by
  have view : ∀ id, s'.view id = s.view id := by
    intro id
    unfold System.view System.findJob
    rw [jobs]
  have calls : ∀ id, s'.callbacksOf id = s.callbacksOf id := by
    intro id
    unfold System.callbacksOf
    rw [callbacks]
  have ids : s'.jobIds = s.jobIds := by
    unfold System.jobIds
    rw [jobs]
  refine ⟨⟨ids ▸ h.nodup, ?_, ?_, ?_⟩, next.ge, queued ▸ List.prefix_rfl, fun id _ _ => view id,
    fun id _ _ => calls id, fun id hlt hle _ => ?_, [], ?_⟩
  · rw [ids, next]
    exact h.bound
  · rw [queued, next]
    exact h.queued
  · rw [callbacks, next]
    exact h.calls
  · exact absurd (next ▸ hlt) (not_lt.mpr hle)
  · rw [ids, List.append_nil]

lemma Extends.act (h : s.Numbered) {a : Action} (e : s.act a = some s') : Extends s s' own := by
  obtain ⟨t, _, rfl⟩ := Option.map_eq_some_iff.mp e
  exact .of_same h rfl rfl rfl rfl

lemma findJob_eq_some (h : s.findJob id = some job) : job ∈ s.jobs ∧ job.id = id :=
  ⟨List.mem_of_find?_eq_some h, by simpa using List.find?_some h⟩

lemma Numbered.lt (h : s.Numbered) {job : LoadJob} (hv : s.view id = some job) : id < s.nextJobId := by
  obtain ⟨j, hj, _⟩ := Option.map_eq_some_iff.mp hv
  obtain ⟨hm, rfl⟩ := findJob_eq_some hj
  exact h.bound _ (List.mem_map_of_mem hm)

lemma findJob_modifyJob (s : System fuel) (id i : JobId) {f : LoadJob → LoadJob}
    (hf : ∀ job, (f job).id = job.id) :
    (s.modifyJob id f).findJob i = if i = id then (s.findJob i).map f else s.findJob i := by
  unfold System.findJob System.modifyJob
  dsimp only
  induction s.jobs with
  | nil => simp
  | cons job jobs ih =>
    have hid : (if job.id = id then f job else job).id = job.id := by
      split
      · exact hf job
      · rfl
    rw [List.map_cons, List.find?_cons, List.find?_cons, hid, ih]
    by_cases hj : job.id = i
    · subst hj
      by_cases he : job.id = id
      · simp [he]
      · simp [he]
    · simp [hj]

lemma jobIds_modifyJob (s : System fuel) (id : JobId) {f : LoadJob → LoadJob}
    (hf : ∀ job, (f job).id = job.id) : (s.modifyJob id f).jobIds = s.jobIds := by
  unfold System.jobIds System.modifyJob
  rw [List.map_map]
  refine List.map_congr_left fun job _ => ?_
  show (if job.id = id then f job else job).id = job.id
  split
  · exact hf job
  · rfl

lemma Extends.modifyJob (h : s.Numbered) {f : LoadJob → LoadJob} (hf : ∀ job, (f job).id = job.id)
    (ho : id ∉ own → ∀ job, (f job).core = job.core) : Extends s (s.modifyJob id f) own := by
  have ids := jobIds_modifyJob s id hf
  refine ⟨⟨ids ▸ h.nodup, ids ▸ h.bound, h.queued, h.calls⟩, le_rfl, List.prefix_rfl,
    fun i _ hn => ?_, fun _ _ _ => rfl, fun i hlt hle _ => absurd hlt (not_lt.mpr hle), [], ?_⟩
  · unfold System.view
    rw [findJob_modifyJob s id i hf]
    split
    · rename_i hi
      subst hi
      rw [Option.map_map]
      refine Option.map_congr fun job _ => ?_
      exact ho hn job
    · rfl
  · rw [ids, List.append_nil]

lemma Extends.logCallback (h : s.Numbered) (hlt : id < s.nextJobId) (hown : id ∈ own)
    (callback : LoaderCallback) : Extends s (s.logCallback id callback) own := by
  refine ⟨⟨h.nodup, h.bound, h.queued, fun call hc => ?_⟩, le_rfl, List.prefix_rfl,
    fun _ _ _ => rfl, fun i _ hn => ?_, fun i hlt hle _ => absurd hlt (not_lt.mpr hle), [],
    (List.append_nil _).symm⟩
  · rcases List.mem_append.mp hc with hc | hc
    · exact h.calls call hc
    · rw [List.mem_singleton.mp hc]
      exact hlt
  · have hne : id ≠ i := fun he => hn (he ▸ hown)
    unfold System.callbacksOf System.logCallback
    simp [hne]

lemma callbacksOf_logCallback (s : System fuel) (id : JobId) (callback : LoaderCallback) :
    (s.logCallback id callback).callbacksOf id = s.callbacksOf id ++ [callback] := by
  unfold System.callbacksOf System.logCallback
  simp

lemma Numbered.callbacksOf_next (h : s.Numbered) : s.callbacksOf s.nextJobId = [] := by
  unfold System.callbacksOf
  rw [List.map_eq_nil_iff, List.filter_eq_nil_iff]
  intro call hc
  simpa using (h.calls call hc).ne

lemma Extends.enqueue (h : s.Numbered) {job : LoadJob} (hid : job.id = s.nextJobId) :
    Extends s (s.enqueue job) {job.id} ∧ (s.enqueue job).view job.id = some job.core ∧
      (s.enqueue job).callbacksOf job.id = [] ∧ (s.enqueue job).loaderOf job.id = job.loader := by
  have ids : (s.enqueue job).jobIds = s.jobIds ++ [job.id] := by
    unfold System.jobIds System.enqueue
    rw [List.map_append]
    rfl
  have notIn : job.id ∉ s.jobIds := fun hm => (h.bound _ hm).ne hid
  have find : ∀ i, (s.enqueue job).findJob i = if i = job.id then some job else s.findJob i := by
    intro i
    unfold System.findJob System.enqueue
    rw [List.find?_append]
    by_cases hi : i = job.id
    · subst hi
      have : s.jobs.find? (fun j => decide (j.id = job.id)) = none := by
        rw [List.find?_eq_none]
        intro j hj he
        exact notIn (of_decide_eq_true he ▸ List.mem_map_of_mem hj)
      rw [this]
      simp
    · simp [hi, Ne.symm hi]
  refine ⟨⟨⟨?_, ?_, ?_, fun call hc => ?_⟩, ?_, ?_, fun i hlt hn => ?_, fun _ _ _ => rfl,
    fun i hlt hle hn => ?_, [job.id], ids⟩, ?_, ?_, ?_⟩
  · rw [ids]
    exact List.nodup_append.mpr ⟨h.nodup, List.nodup_singleton _, by
      rintro x hx y hy rfl
      exact notIn (List.mem_singleton.mp hy ▸ hx)⟩
  · rw [ids]
    intro i hi
    show i < s.nextJobId + 1
    rcases List.mem_append.mp hi with hi | hi
    · exact (h.bound i hi).trans (Nat.lt_succ_self _)
    · rw [List.mem_singleton.mp hi, hid]
      exact Nat.lt_succ_self _
  · show (s.queued ++ [job]).length = s.nextJobId + 1
    rw [List.length_append, h.queued, List.length_singleton]
  · exact (h.calls call hc).trans (Nat.lt_succ_self _)
  · exact Nat.le_succ _
  · exact List.prefix_append _ _
  · unfold System.view
    have hne : i ≠ job.id := hn
    rw [find, if_neg hne]
  · exact absurd ((le_antisymm (Nat.lt_succ_iff.mp hlt) hle).trans hid.symm) hn
  · unfold System.view
    rw [find, if_pos rfl]
    rfl
  · show s.callbacksOf job.id = []
    rw [hid]
    exact h.callbacksOf_next
  · unfold System.loaderOf System.enqueue
    rw [hid, ← h.queued, List.getElem?_concat_length]
    rfl

lemma jobIds_eraseJob (s : System fuel) (id : JobId) :
    (s.eraseJob id).jobIds = s.jobIds.filter (· ≠ id) := by
  unfold System.jobIds System.eraseJob
  rw [List.filter_map]
  rfl

lemma view_eraseJob (s : System fuel) {i : JobId} (hi : i ≠ id) :
    (s.eraseJob id).view i = s.view i := by
  unfold System.view System.findJob System.eraseJob
  rw [List.find?_filter]
  congr 2
  funext job
  by_cases hj : job.id = i
  · simp [hj, hi]
  · simp [hj]

lemma view_eraseJob_self (s : System fuel) (id : JobId) : (s.eraseJob id).view id = none := by
  unfold System.view System.findJob System.eraseJob
  rw [Option.map_eq_none_iff, List.find?_eq_none]
  intro job hj
  simpa using (List.mem_filter.mp hj).2

lemma Numbered.eraseJob (h : s.Numbered) (id : JobId) : (s.eraseJob id).Numbered := by
  have ids := jobIds_eraseJob s id
  refine ⟨?_, fun i hi => ?_, h.queued, h.calls⟩
  · rw [ids]
    exact h.nodup.filter _
  · rw [ids] at hi
    exact h.bound i (List.mem_of_mem_filter hi)

lemma Extends.eraseJob (hs : s.Numbered) (h : Extends s s₁ {id}) (new : s.nextJobId ≤ id) :
    Extends s (s₁.eraseJob id) {id} := by
  obtain ⟨more, order⟩ := h.order
  refine ⟨h.numbered.eraseJob id, h.next, h.queued,
    fun i hlt hn => (view_eraseJob s₁ hn).trans (h.view i hlt hn), h.calls, fun i hlt hle hn => ?_,
    more.filter (· ≠ id), ?_⟩
  · exact (h.lawful i hlt hle hn).frame List.prefix_rfl (view_eraseJob s₁ hn) rfl
  · rw [jobIds_eraseJob, order, List.filter_append]
    congr 1
    refine List.filter_eq_self.mpr fun i hi => decide_eq_true fun he => ?_
    exact absurd (he ▸ hs.bound i hi) (not_lt.mpr new)

lemma spliceJob_perm (s : System fuel) (id : JobId) : (s.spliceJob id).jobs.Perm s.jobs := by
  unfold System.spliceJob
  refine (List.perm_append_comm).trans ?_
  have h : (fun job : LoadJob => decide (job.id ≠ id)) = (not ∘ fun job => decide (job.id = id)) := by
    funext job
    simp
  rw [h]
  exact List.filter_append_perm _ _

lemma findJob_of_perm (hs : s.Numbered) (jobs : s'.jobs.Perm s.jobs) (id : JobId) :
    s'.findJob id = s.findJob id := by
  have ids : s'.jobIds.Perm s.jobIds := jobs.map _
  have unique : ∀ {t : System fuel} {j : LoadJob}, t.jobIds.Nodup → j ∈ t.jobs →
      t.findJob j.id = some j := by
    intro t j nodup hj
    unfold System.findJob
    cases hf : t.jobs.find? fun x => decide (x.id = j.id) with
    | none => simpa using List.find?_eq_none.mp hf j hj
    | some x =>
      have hx := List.mem_of_find?_eq_some hf
      have he : x.id = j.id := by simpa using List.find?_some hf
      rw [List.inj_on_of_nodup_map nodup hx hj he]
  cases hf : s.findJob id with
  | none =>
    unfold System.findJob at hf ⊢
    rw [List.find?_eq_none] at hf ⊢
    exact fun j hj => hf j (jobs.subset hj)
  | some j =>
    obtain ⟨hj, rfl⟩ := findJob_eq_some hf
    exact unique (ids.nodup_iff.mpr hs.nodup) (jobs.symm.subset hj)

end System

end PulseEngine.Asset
