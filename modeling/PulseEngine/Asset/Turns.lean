import PulseEngine.Asset.Lifecycle

/-!
# The turns of the queue's loops

`LoadQueue::process` and `LoadQueue::drain_pass` walk over the jobs in the same way: they process a
job and then erase it, move it to the end of the queue or leave it where it is. The lemmas say what
one turn does to the order of the queue and what a whole walk does to it.
-/

namespace PulseEngine.Asset

open Library

namespace System

variable {fuel : Nat} {s s' s₁ s₂ : System fuel} {id : JobId} {script : JobScript Call}

def settleJob (s : System fuel) (id : JobId) (script : JobScript Call) : Option (System fuel) := do
  let job ← s.findJob id
  if job.isTerminal then retireAndErase (runCalls fuel) s id script
  else if job.phase = .waitingDependencies then some (s.spliceJob id)
  else some s

def turn (s : System fuel) (id : JobId) (script : JobScript Call) :
    Option (Option JobId × System fuel) := do
  let s ← processJob (runCalls fuel) s id script
  let s' ← s.settleJob id script
  return (s.nextJob id, s')

lemma processLoop_succ (turns : Nat) (scripts : List (JobScript Call)) (s : System fuel) :
    processLoop (turns + 1) (script :: scripts) (some id) s =
      (s.turn id script).bind fun next => processLoop turns scripts next.1 next.2 := by
  show (processJob _ s id script).bind _ = _
  unfold turn settleJob
  cases processJob (runCalls fuel) s id script with
  | none => rfl
  | some s₁ =>
    show (s₁.findJob id).bind _ = Option.bind (Option.bind (Option.bind (s₁.findJob id) _) _) _
    cases s₁.findJob id with
    | none => rfl
    | some job =>
      simp only [Option.bind_some, Option.bind_eq_bind]
      split
      · cases retireAndErase (runCalls fuel) s₁ id script <;> rfl
      · split <;> rfl

lemma retireAndErase_order (h : AllLawful s) {before rest : List JobId}
    (order : s.jobIds = before ++ id :: rest)
    (e : retireAndErase (runCalls fuel) s id script = some s') :
    ∃ new, s'.jobIds = before ++ rest ++ new := by
  have nodup := h.numbered.nodup
  unfold System.retireAndErase at e
  simp only [Option.bind_eq_bind] at e
  obtain ⟨j, hj, e⟩ := Option.bind_eq_some_iff.mp e
  obtain ⟨⟨s₁, hasSlot⟩, e₁, e⟩ := Option.bind_eq_some_iff.mp e
  obtain ⟨l, calls, w, live⟩ := h.working hj
  obtain ⟨job', calls', w', finished⟩ := retireLoadJob_inv runCalls_framed w live e₁
  obtain ⟨new, appended⟩ := w'.frame.order
  have bound : ∀ i ∈ new, i ≠ id := by
    have nodup' := w'.frame.numbered.nodup
    rw [appended] at nodup'
    rintro i hi rfl
    exact (List.nodup_append.mp nodup').2.2 i (order ▸ by simp) i hi rfl
  have erased : (s₁.eraseJob id).jobIds = before ++ rest ++ new := by
    rw [order] at nodup
    obtain ⟨_, nodup', apart⟩ := List.nodup_append.mp nodup
    rw [jobIds_eraseJob, appended, order, List.filter_append, List.filter_append,
      List.filter_cons_of_neg (by simp)]
    congr 1
    · congr 1
      · exact List.filter_eq_self.mpr fun i hi =>
          decide_eq_true fun he => apart i hi id List.mem_cons_self he
      · refine List.filter_eq_self.mpr fun i hi => decide_eq_true fun he => ?_
        exact (List.nodup_cons.mp nodup').1 (he ▸ hi)
    · exact List.filter_eq_self.mpr fun i hi => decide_eq_true (bound i hi)
  refine ⟨new, ?_⟩
  split at e
  · obtain ⟨t, _, rfl⟩ := Option.map_eq_some_iff.mp e
    exact erased
  · cases e
    exact erased

lemma spliceJob_order (nodup : s.jobIds.Nodup) {before rest : List JobId}
    (order : s.jobIds = before ++ id :: rest) :
    (s.spliceJob id).jobIds = before ++ rest ++ [id] := by
  rw [order] at nodup
  obtain ⟨_, nodup', apart⟩ := List.nodup_append.mp nodup
  have parts : (s.spliceJob id).jobIds = s.jobIds.filter (· ≠ id) ++ s.jobIds.filter (· = id) := by
    unfold System.jobIds System.spliceJob
    rw [List.map_append, List.filter_map, List.filter_map]
    rfl
  have notIn : ∀ i ∈ before ++ rest, i ≠ id := by
    intro i hi he
    rcases List.mem_append.mp hi with hi | hi
    · exact apart i hi id List.mem_cons_self he
    · exact (List.nodup_cons.mp nodup').1 (he ▸ hi)
  have left : s.jobIds.filter (· ≠ id) = before ++ rest := by
    rw [order, List.filter_append, List.filter_cons_of_neg (by simp), ← List.filter_append]
    exact List.filter_eq_self.mpr fun i hi => decide_eq_true (notIn i hi)
  have right : s.jobIds.filter (· = id) = [id] := by
    have none : ∀ ids : List JobId, (∀ i ∈ ids, i ≠ id) → ids.filter (· = id) = [] := by
      intro ids h
      exact List.filter_eq_nil_iff.mpr fun i hi => by simpa using h i hi
    rw [order, List.filter_append, List.filter_cons_of_pos (by simp),
      none before fun i hi => notIn i (List.mem_append_left _ hi),
      none rest fun i hi => notIn i (List.mem_append_right _ hi)]
    rfl
  rw [parts, left, right]

def Keeps (s : System fuel) (id : JobId) : Prop :=
  ∃ job ∈ s.findJob id, job.isTerminal = false ∧ job.phase ≠ .waitingDependencies

instance (s : System fuel) (id : JobId) : Decidable (s.Keeps id) :=
  inferInstanceAs (Decidable (∃ job ∈ s.findJob id, _))

structure Turned (s s₁ s₂ : System fuel) (id : JobId) (before rest : List JobId) : Prop where
  lawful : s₂.AllLawful
  /-- The walk goes on with the job behind, or with one that was queued in this turn. -/
  next : ∃ new, s₁.nextJob id = (rest ++ new).head?
  keeps : s₁.Keeps id → ∃ new, s₂.jobIds = before ++ id :: (rest ++ new)
  leaves : ¬ s₁.Keeps id → ∃ new, s₂.jobIds = before ++ (rest ++ new)

lemma turned (h : AllLawful s) {before rest : List JobId} (order : s.jobIds = before ++ id :: rest)
    (e₁ : processJob (runCalls fuel) s id script = some s₁)
    (e₂ : s₁.settleJob id script = some s₂) : Turned s s₁ s₂ id before rest := by
  have h₁ := h.processJob e₁
  obtain ⟨new, order₁⟩ : ∃ new, s₁.jobIds = before ++ id :: (rest ++ new) := by
    have e' := e₁
    unfold System.processJob at e'
    obtain ⟨j, hj, _⟩ := Option.bind_eq_some_iff.mp e'
    obtain ⟨l, calls, w, live⟩ := h.working hj
    obtain ⟨job', calls', w', live'⟩ := processJob_held runCalls_framed w live e₁
    obtain ⟨new, appended⟩ := w'.frame.order
    exact ⟨new, by rw [appended, order, List.append_assoc, List.cons_append]⟩
  have next : ∃ new, s₁.nextJob id = (rest ++ new).head? :=
    ⟨new, nextJob_eq h₁.numbered.nodup order₁⟩
  unfold System.settleJob at e₂
  simp only [Option.bind_eq_bind] at e₂
  obtain ⟨job, hj, e₂⟩ := Option.bind_eq_some_iff.mp e₂
  have same : ∀ {job'}, s₁.findJob id = some job' → job' = job :=
    fun hj' => Option.some.inj (hj'.symm.trans hj)
  split at e₂
  · rename_i terminal
    obtain ⟨new', order₂⟩ := retireAndErase_order h₁ order₁ e₂
    refine ⟨h₁.retireAndErase e₂, next, fun ⟨job', hj', running, _⟩ => ?_, fun _ => ?_⟩
    · rw [same hj', terminal] at running
      exact absurd running (by decide)
    · exact ⟨new ++ new', by rw [order₂, List.append_assoc, List.append_assoc]⟩
  · rename_i running
    split at e₂
    · rename_i waiting
      cases e₂
      refine ⟨h₁.spliceJob id, next, fun ⟨job', hj', _, other⟩ => ?_, fun _ => ?_⟩
      · rw [same hj'] at other
        exact absurd waiting other
      · exact ⟨new ++ [id], by
          rw [spliceJob_order h₁.numbered.nodup order₁, List.append_assoc, List.append_assoc]⟩
    · rename_i other
      cases e₂
      refine ⟨h₁, next, fun _ => ⟨new, order₁⟩, fun leaves => ?_⟩
      exact absurd ⟨job, hj, by simpa using running, other⟩ leaves

end System

end PulseEngine.Asset
