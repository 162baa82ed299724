import PulseEngine.Asset.Turns

/-!
# What a turn makes of a job

A job starts as `pendingRead` and is never that again after its first turn. From then on it goes
back and forth between `waitingDependencies` and `processing`: what its loader answers decides, except
that a job may be blocked by its dependencies before its loader is asked, and that a job which waited
before its loader was constructed has it constructed in a turn of its own.
-/

namespace PulseEngine.Asset

open Library

/-- What a turn makes of a job. `answer` is what its loader answered, if it was asked. -/
inductive Advanced (job job' : LoadJob) : Option LoaderStatus → Prop where
  | ended {answer : Option LoaderStatus} (terminal : job'.isTerminal = true) :
    Advanced job job' answer
  | pending (constructed : job'.loaderConstructed = true) (phase : job'.phase = .processing) :
    Advanced job job' (some .pending)
  | waits {status : LoaderStatus} (other : status ≠ .pending)
      (constructed : job'.loaderConstructed = true) (phase : job'.phase = .waitingDependencies) :
    Advanced job job' (some status)
  | blocked (before : job.phase ≠ .processing)
      (constructed : job'.loaderConstructed = job.loaderConstructed)
      (phase : job'.phase = .waitingDependencies) : Advanced job job' none
  | begins (before : job.phase = .waitingDependencies) (unconstructed : job.loaderConstructed = false)
      (constructed : job'.loaderConstructed = true) (phase : job'.phase = .processing) :
    Advanced job job' none

namespace System

variable {fuel : Nat} {s₀ s s' : System fuel} {id : JobId} {l : AssetLoader} {job job₀ : LoadJob}
  {calls : List LoaderCallback} {script : JobScript Call} {runCalls : RunCalls fuel}

def steps (calls : List LoaderCallback) : Nat := calls.count .step

/-- In the middle of work on a job: what became of `job₀`, whose loader answers `status` if it is
asked, after `count` steps. -/
def Advancing (s₀ s : System fuel) (id : JobId) (l : AssetLoader) (job₀ : LoadJob) (count : Nat)
    (status : LoaderStatus) : Prop :=
  ∃ job calls, Working s₀ s id l job calls ∧
    (steps calls = count ∧ Advanced job₀ job none ∨
      steps calls = count + 1 ∧ Advanced job₀ job (some status))

lemma Working.ended (w : Working s₀ s id l job calls) {count : Nat} {status : LoaderStatus}
    (hcount : steps calls = count ∨ steps calls = count + 1) (terminal : job.isTerminal = true) :
    Advancing s₀ s id l job₀ count status := by
  refine ⟨job, calls, w, ?_⟩
  rcases hcount with h | h
  · exact Or.inl ⟨h, .ended terminal⟩
  · exact Or.inr ⟨h, .ended terminal⟩

lemma Working.finishes (w : Working s₀ s id l job calls) {count : Nat} {status : LoaderStatus}
    (hcount : steps calls = count ∨ steps calls = count + 1) {hasSlot : Bool}
    {outcome : LoadJobOutcome} {error : Option String} (ho : outcome ≠ .none)
    (e : s.finish id hasSlot outcome error = some s') :
    Advancing s₀ s' id l job₀ count status := by
  obtain ⟨o, ho', w'⟩ := w.finish ho e
  exact w'.ended hcount (by simpa [LoadJob.isTerminal] using ho')

lemma processProcessing_advances (framed : Framed runCalls) (w : Working s₀ s id l job calls)
    (hc : job.loaderConstructed = true) (hp : job.phase = .processing)
    (e : processProcessing runCalls s id script = some s') :
    Advancing s₀ s' id l job₀ (steps calls) script.status := by
  unfold System.processProcessing at e
  simp only [Option.bind_eq_bind] at e
  obtain ⟨s₁, e₁, e⟩ := Option.bind_eq_some_iff.mp e
  have w₁ := (w.call .step).run framed e₁
  have asked : steps (calls ++ [.step]) = steps calls + 1 := by simp [steps]
  obtain ⟨j, hj, e⟩ := Option.bind_eq_some_iff.mp e
  have hcore := w₁.find hj
  obtain ⟨slot, _, e⟩ := Option.bind_eq_some_iff.mp e
  split at e
  · exact w₁.finishes (Or.inr asked) (by simp) e
  · split at e
    · rename_i terminal
      cases e
      exact w₁.ended (Or.inr asked) (hcore ▸ terminal)
    · split at e
      · rename_i hs
        cases e
        exact ⟨_, _, w₁, Or.inr ⟨asked, hs ▸ .pending hc hp⟩⟩
      · rename_i hs
        obtain ⟨s₂, e₂, e⟩ := Option.bind_eq_some_iff.mp e
        cases e
        exact ⟨_, _, (w₁.act e₂).modify (fun _ => rfl) fun _ => rfl,
          Or.inr ⟨asked, .waits (by simp [hs]) hc rfl⟩⟩
      · rename_i hs
        obtain ⟨s₂, e₂, e⟩ := Option.bind_eq_some_iff.mp e
        have w₂ := w₁.act e₂
        split at e
        · cases e
          have w₃ := w₂.modify (f := fun job => { job with outcome := .failed }) (fun _ => rfl)
            fun _ => rfl
          exact w₃.ended (Or.inr asked) rfl
        · split at e
          · cases e
            exact ⟨_, _, w₂.modify (fun _ => rfl) fun _ => rfl,
              Or.inr ⟨asked, .waits (by simp [hs]) hc rfl⟩⟩
          · cases e
            have w₃ := w₂.modify (f := fun job => { job with outcome := .loaded }) (fun _ => rfl)
              fun _ => rfl
            exact w₃.ended (Or.inr asked) rfl
      · exact w₁.finishes (Or.inr asked) (by simp) e

lemma steps_of_constructed {error : Option String} (h : Constructed l job calls error) :
    steps calls = 0 := by
  have none : steps (ctorCalls l) = 0 := by
    unfold ctorCalls
    split <;> rfl
  cases error with
  | none => exact (h.ok rfl).2 ▸ none
  | some error =>
    rcases h.failed (by simp) with ⟨_, rfl | ⟨rfl, _⟩⟩ | ⟨_, _, rfl⟩
    · rfl
    · rfl
    · exact none

lemma processPendingRead_advances (framed : Framed runCalls) (w : Working s₀ s id l job [])
    (hl : job.loader = some l) (hc : job.loaderConstructed = false) (hp : job.phase ≠ .processing)
    (hc₀ : job₀.loaderConstructed = false) (hp₀ : job₀.phase ≠ .processing) {immediately : Bool}
    (later : immediately = false → job₀.phase = .waitingDependencies)
    (e : processPendingRead runCalls s id script immediately = some s') :
    Advancing s₀ s' id l job₀ 0 script.status := by
  have none : steps [] = 0 := rfl
  unfold System.processPendingRead at e
  simp only [Option.bind_eq_bind] at e
  obtain ⟨j, hj, e⟩ := Option.bind_eq_some_iff.mp e
  split at e
  · exact w.finishes (Or.inl none) (by simp) e
  · split at e
    · obtain ⟨s₁, e₁, e⟩ := Option.bind_eq_some_iff.mp e
      cases e
      exact ⟨_, _, (w.act e₁).modify (fun _ => rfl) fun _ => rfl,
        Or.inl ⟨none, .blocked hp₀ (hc.trans hc₀.symm) rfl⟩⟩
    · obtain ⟨s₁, e₁, e⟩ := Option.bind_eq_some_iff.mp e
      have w₁ := w.act e₁
      split at e
      · exact w₁.finishes (Or.inl none) (by simp) e
      · rename_i bytes _
        obtain ⟨⟨s₂, error⟩, e₂, e⟩ := Option.bind_eq_some_iff.mp e
        have w₂ := w₁.modify (f := fun job => { job with
          bytes := bytes
          memoryData := if job.source = .memory then [] else job.memoryData })
          (fun _ => rfl) fun _ => rfl
        obtain ⟨job₃, calls, w₃, constructed⟩ := constructJobLoader_inv framed w₂ hl hc hp e₂
        have count := steps_of_constructed constructed
        cases error with
        | some error =>
          obtain ⟨j₄, hj₄, e⟩ := Option.bind_eq_some_iff.mp e
          split at e
          · rename_i terminal
            cases e
            exact w₃.ended (Or.inl count) (w₃.find hj₄ ▸ terminal)
          · exact w₃.finishes (Or.inl count) (by simp) e
        | none =>
          obtain ⟨hc₃, rfl⟩ := constructed.ok rfl
          obtain ⟨s₄, e₄, e⟩ := Option.bind_eq_some_iff.mp e
          have w₅ := (w₃.act e₄).modify (f := fun job => { job with phase := .processing })
            (fun _ => rfl) fun _ => rfl
          split at e
          · rw [← count]
            exact processProcessing_advances framed w₅ hc₃ rfl e
          · rename_i immediate
            cases e
            have waited := later (by simpa using immediate)
            exact ⟨_, _, w₅, Or.inl ⟨count, .begins waited hc₀ hc₃ rfl⟩⟩

lemma processWaitingDependencies_advances (framed : Framed runCalls)
    (w : Working s₀ s id l job calls) (live : Live l job calls) (running : job.isTerminal = false)
    (hp : job.phase = .waitingDependencies)
    (e : processWaitingDependencies runCalls s id script = some s') :
    Advancing s₀ s' id l job (steps calls) script.status := by
  unfold System.processWaitingDependencies at e
  simp only [Option.bind_eq_bind] at e
  obtain ⟨j, hj, e⟩ := Option.bind_eq_some_iff.mp e
  have hcore := w.find hj
  split at e
  · exact w.finishes (Or.inl rfl) (by simp) e
  · split at e
    · exact ⟨_, _, w.act e, Or.inl ⟨rfl, .blocked (by simp [hp]) rfl hp⟩⟩
    · cases live with
      | fresh loader constructed phase =>
        rw [if_pos (by rw [← hcore] at constructed; simpa [LoadJob.core] using constructed)] at e
        exact processPendingRead_advances framed
          (w.modify (f := fun job => { job with phase := .pendingRead }) (fun _ => rfl) fun _ => rfl)
          loader constructed (by simp [LoadJob.core]) constructed (by simp [hp]) (fun _ => hp) e
      | refused loader constructed terminal => exact absurd terminal (by simp [running])
      | constructed steps loader constructed phase =>
        rw [if_neg (by rw [← hcore] at constructed; simpa [LoadJob.core] using constructed)] at e
        obtain ⟨s₁, e₁, e⟩ := Option.bind_eq_some_iff.mp e
        have w₁ := (w.act e₁).modify (f := fun job => { job with phase := .processing })
          (fun _ => rfl) fun _ => rfl
        exact processProcessing_advances framed w₁ constructed rfl e

lemma processJob_advances (framed : Framed runCalls) (w : Working s₀ s id l job calls)
    (live : Live l job calls) (running : job.isTerminal = false)
    (e : processJob runCalls s id script = some s') :
    Advancing s₀ s' id l job (steps calls) script.status := by
  unfold System.processJob at e
  simp only [Option.bind_eq_bind] at e
  obtain ⟨j, hj, e⟩ := Option.bind_eq_some_iff.mp e
  have hcore := w.find hj
  have hj' : j.isTerminal = false := by
    rw [← hcore] at running
    exact running
  rw [if_neg (by simp [hj'])] at e
  split at e
  · exact w.finishes (Or.inl rfl) (by simp) e
  · split at e
    · exact w.finishes (Or.inl rfl) (by simp) e
    · have phase : j.phase = job.phase := by
        rw [← hcore]
        rfl
      split at e
      · rename_i hphase
        rw [phase] at hphase
        cases live with
        | fresh loader constructed _ =>
          exact processPendingRead_advances framed w loader constructed (by simp [hphase])
            constructed (by simp [hphase]) (by simp) e
        | refused loader constructed terminal => exact absurd terminal (by simp [running])
        | constructed steps loader constructed hp => exact absurd (hp hphase) (by simp [running])
      · rename_i hphase
        rw [phase] at hphase
        exact processWaitingDependencies_advances framed w live running hphase e
      · rename_i hphase
        rw [phase] at hphase
        cases live with
        | fresh loader constructed hp => exact absurd hphase hp
        | refused loader constructed terminal => exact absurd terminal (by simp [running])
        | constructed steps loader constructed _ =>
          exact processProcessing_advances framed w constructed hphase e

end System

end PulseEngine.Asset
