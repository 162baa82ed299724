import Mathlib.Data.List.DropRight
import PulseEngine.Asset.LoadQueue

/-!
# The actions the system performs

Everything the asset system does to its storage goes through `System.act`, and the only thing it
makes up itself is the path of a new asset, which `load_impl` normalizes. What these actions keep
holds after every run of the system, at every action of it.
-/

namespace PulseEngine.Asset

open Library

def AssetIo.Normalized (path : Path) : Prop := AssetIo.normalizePath path = path

instance (path : Path) : Decidable (AssetIo.Normalized path) := inferInstanceAs (Decidable (_ = _))

lemma AssetIo.normalized_normalizePath (path : Path) : Normalized (normalizePath path) := by
  set f : Char → Char := fun c => if c = '\\' then '/' else c with hf
  have slash : ∀ c, f c ≠ '\\' := by
    intro c
    rw [hf]
    dsimp only
    split
    · decide
    · assumption
  have fixed : ∀ chars : Path, (∀ c ∈ chars, c ≠ '\\') → chars.map f = chars := by
    intro chars h
    refine (List.map_congr_left fun c hc => ?_).trans (List.map_id _)
    exact if_neg (h c hc)
  have clean : ∀ c ∈ normalizePath path, c ≠ '\\' := by
    intro c hc
    obtain ⟨c', _, rfl⟩ := List.mem_map.mp ((List.dropWhile_sublist _).subset hc)
    exact slash c'
  show ((normalizePath path).map f).dropWhile _ = _
  rw [fixed _ clean]
  exact List.dropWhile_idempotent _ _

def Action.Issued : Action → Prop
  | .create _ _ path source => AssetIo.Normalized path ∧ (source ≠ .builder → path ≠ [])
  | _ => True

namespace System

variable {α : Type} {fuel : Nat} {s s' : System fuel} {id : JobId} {script : JobScript Call}
  {runCalls : RunCalls fuel} {I : System fuel → Prop}

/-- `I` is about the storage, and what the system does to it keeps `I`. -/
structure Closed (I : System fuel → Prop) : Prop where
  act : ∀ {s s' a}, I s → s.act a = some s' → a.Issued → I s'
  same : ∀ {s s'}, I s → s'.traced = s.traced → I s'

def Keeping (I : System fuel → Prop) (runCalls : RunCalls fuel) : Prop :=
  ∀ hint calls s s', I s → runCalls hint calls s = some s' → I s'

namespace Closed

lemma modified (c : Closed I) (h : I s) {f : LoadJob → LoadJob} : I (s.modifyJob id f) :=
  c.same h rfl

lemma called (c : Closed I) (keeping : Keeping I runCalls) (h : I s) {callback : LoaderCallback}
    {hint : Option JobId} {calls : List Call}
    (e : runCalls hint calls (s.logCallback id callback) = some s') : I s' :=
  keeping hint calls (s.logCallback id callback) s' (c.same h rfl) e

lemma finish (c : Closed I) (h : I s) {hasSlot : Bool} {outcome : LoadJobOutcome}
    {error : Option String} (e : s.finish id hasSlot outcome error = some s') : I s' := by
  unfold System.finish at e
  simp only [Option.bind_eq_bind] at e
  obtain ⟨j, _, e⟩ := Option.bind_eq_some_iff.mp e
  split at e
  · cases e
    exact h
  · have h₁ : I (s.modifyJob id fun job => { job with outcome := outcome }) := c.same h rfl
    split at e
    · cases e
      exact h₁
    · split at e
      · exact c.act h₁ e trivial
      · exact c.act h₁ e trivial
      · cases e
        exact h₁

lemma processProcessing (c : Closed I) (keeping : Keeping I runCalls) (h : I s)
    (e : System.processProcessing runCalls s id script = some s') : I s' := by
  unfold System.processProcessing at e
  simp only [Option.bind_eq_bind] at e
  obtain ⟨s₁, e₁, e⟩ := Option.bind_eq_some_iff.mp e
  have h₁ : I s₁ := c.called keeping h e₁
  obtain ⟨j, _, e⟩ := Option.bind_eq_some_iff.mp e
  obtain ⟨slot, _, e⟩ := Option.bind_eq_some_iff.mp e
  split at e
  · exact c.finish h₁ e
  · split at e
    · cases e
      exact h₁
    · split at e
      · cases e
        exact h₁
      · obtain ⟨s₂, e₂, e⟩ := Option.bind_eq_some_iff.mp e
        cases e
        exact c.same (c.act h₁ e₂ trivial) rfl
      · obtain ⟨s₂, e₂, e⟩ := Option.bind_eq_some_iff.mp e
        have h₂ : I s₂ := c.act h₁ e₂ trivial
        repeat' split at e
        all_goals
          cases e
          exact c.same h₂ rfl
      · exact c.finish h₁ e

lemma constructJobLoader (c : Closed I) (keeping : Keeping I runCalls) (h : I s)
    {error : Option String}
    (e : System.constructJobLoader runCalls s id script = some (s', error)) : I s' := by
  unfold System.constructJobLoader at e
  simp only [Option.bind_eq_bind] at e
  obtain ⟨j, _, e⟩ := Option.bind_eq_some_iff.mp e
  obtain ⟨slot, _, e⟩ := Option.bind_eq_some_iff.mp e
  obtain ⟨j', _, e⟩ := Option.bind_eq_some_iff.mp e
  have h₁ : I (if j.loader = none ∧ slot.path ≠ [] then
      s.modifyJob id fun job =>
        { job with loader := s.registry.findLoader job.handle.typeId slot.path } else s) := by
    split
    · exact c.same h rfl
    · exact h
  split at e
  · cases e
    exact h₁
  · split at e
    · cases e
      exact h₁
    · split at e
      · obtain ⟨s₂, e₂, e⟩ := Option.bind_eq_some_iff.mp e
        have h₂ : I s₂ := c.called keeping h₁ e₂
        split at e
        · cases e
          exact h₂
        · obtain ⟨j₂, _, e⟩ := Option.bind_eq_some_iff.mp e
          split at e
          all_goals
            cases e
            exact c.same h₂ rfl
      · cases e
        exact c.same h₁ rfl

lemma processPendingRead (c : Closed I) (keeping : Keeping I runCalls) (h : I s) {immediately : Bool}
    (e : System.processPendingRead runCalls s id script immediately = some s') : I s' := by
  unfold System.processPendingRead at e
  simp only [Option.bind_eq_bind] at e
  obtain ⟨j, _, e⟩ := Option.bind_eq_some_iff.mp e
  split at e
  · exact c.finish h e
  · split at e
    · obtain ⟨s₁, e₁, e⟩ := Option.bind_eq_some_iff.mp e
      cases e
      exact c.same (c.act h e₁ trivial) rfl
    · obtain ⟨s₁, e₁, e⟩ := Option.bind_eq_some_iff.mp e
      have h₁ : I s₁ := c.act h e₁ trivial
      split at e
      · exact c.finish h₁ e
      · obtain ⟨⟨s₂, error⟩, e₂, e⟩ := Option.bind_eq_some_iff.mp e
        have h₂ : I s₂ := c.constructJobLoader keeping (c.modified h₁) e₂
        cases error with
        | some error =>
          obtain ⟨j₂, _, e⟩ := Option.bind_eq_some_iff.mp e
          split at e
          · cases e
            exact h₂
          · exact c.finish h₂ e
        | none =>
          obtain ⟨s₃, e₃, e⟩ := Option.bind_eq_some_iff.mp e
          have h₃ : I s₃ := c.act h₂ e₃ trivial
          split at e
          · exact c.processProcessing keeping (c.modified h₃) e
          · cases e
            exact c.same h₃ rfl

lemma processWaitingDependencies (c : Closed I) (keeping : Keeping I runCalls) (h : I s)
    (e : System.processWaitingDependencies runCalls s id script = some s') : I s' := by
  unfold System.processWaitingDependencies at e
  simp only [Option.bind_eq_bind] at e
  obtain ⟨j, _, e⟩ := Option.bind_eq_some_iff.mp e
  split at e
  · exact c.finish h e
  · split at e
    · exact c.act h e trivial
    · split at e
      · exact c.processPendingRead keeping (c.modified h) e
      · obtain ⟨s₁, e₁, e⟩ := Option.bind_eq_some_iff.mp e
        exact c.processProcessing keeping (c.modified (c.act h e₁ trivial)) e

lemma processJob (c : Closed I) (keeping : Keeping I runCalls) (h : I s)
    (e : System.processJob runCalls s id script = some s') : I s' := by
  unfold System.processJob at e
  simp only [Option.bind_eq_bind] at e
  obtain ⟨j, _, e⟩ := Option.bind_eq_some_iff.mp e
  split at e
  · cases e
    exact h
  · split at e
    · exact c.finish h e
    · split at e
      · exact c.finish h e
      · split at e
        · exact c.processPendingRead keeping h e
        · exact c.processWaitingDependencies keeping h e
        · exact c.processProcessing keeping h e

lemma retireLoadJob (c : Closed I) (keeping : Keeping I runCalls) (h : I s) {hasSlot : Bool}
    (e : System.retireLoadJob runCalls s id script = some (s', hasSlot)) : I s' := by
  unfold System.retireLoadJob at e
  simp only [Option.bind_eq_bind] at e
  obtain ⟨j, _, e⟩ := Option.bind_eq_some_iff.mp e
  split at e
  · split at e
    · obtain ⟨s₁, e₁, e⟩ := Option.bind_eq_some_iff.mp e
      obtain ⟨s₂, e₂, e⟩ := Option.bind_eq_some_iff.mp e
      obtain ⟨s₃, e₃, e⟩ := Option.bind_eq_some_iff.mp e
      cases e
      exact c.modified (c.act (c.called keeping (c.act h e₁ trivial) e₂) e₃ trivial)
    · obtain ⟨s₁, e₁, e⟩ := Option.bind_eq_some_iff.mp e
      cases e₁
      obtain ⟨s₂, e₂, e⟩ := Option.bind_eq_some_iff.mp e
      cases e
      exact c.modified (c.called keeping h e₂)
  · cases e
    exact c.modified h

lemma retireAndErase (c : Closed I) (keeping : Keeping I runCalls) (h : I s)
    (e : System.retireAndErase runCalls s id script = some s') : I s' := by
  unfold System.retireAndErase at e
  simp only [Option.bind_eq_bind] at e
  obtain ⟨j, _, e⟩ := Option.bind_eq_some_iff.mp e
  obtain ⟨⟨s₁, hasSlot⟩, e₁, e⟩ := Option.bind_eq_some_iff.mp e
  have h₁ : I (s₁.eraseJob id) := c.same (c.retireLoadJob keeping h e₁) rfl
  split at e
  · exact c.act h₁ e trivial
  · cases e
    exact h₁

lemma chooseInitialPhase (c : Closed I) {h : Handle} : ∀ {deps : List Dependency} {unresolved : Bool}
    {s s' : System fuel} {phase : LoadJobPhase}, I s →
      System.chooseInitialPhase h deps unresolved s = some (s', phase) → I s' := by
  intro deps
  induction deps with
  | nil =>
    intro unresolved s s' phase hs e
    cases e
    exact hs
  | cons dep deps ih =>
    intro unresolved s s' phase hs e
    have acted : ∀ {h' : Handle} {error : String} {unresolved : Bool},
        (s.act (.failSlot h' error)).bind (System.chooseInitialPhase h deps unresolved) =
          some (s', phase) → I s' := by
      intro h' error unresolved e
      obtain ⟨s₁, e₁, e⟩ := Option.bind_eq_some_iff.mp e
      exact ih (c.act hs e₁ trivial) e
    unfold System.chooseInitialPhase at e
    repeat' split at e
    all_goals first | exact ih hs e | exact acted e

lemma failedLoad (c : Closed I) (hs : I s) {request : LoadRequest} {h h' : Handle}
    (e : s.failedLoad request h = some (s', h')) : I s' := by
  unfold System.failedLoad at e
  split at e
  · obtain ⟨s₁, e₁, e⟩ := Option.map_eq_some_iff.mp e
    cases e
    exact c.act hs e₁ trivial
  · cases e
    exact hs

lemma startLoad (c : Closed I) (keeping : Keeping I runCalls) (hs : I s) {request : LoadRequest}
    {settings : SettingsScript} {h h' : Handle} {loader : AssetLoader}
    (e : System.startLoad runCalls s request settings script h loader = some (s', h')) : I s' := by
  unfold System.startLoad at e
  simp only [Option.bind_eq_bind] at e
  obtain ⟨⟨s₁, phase⟩, e₁, e⟩ := Option.bind_eq_some_iff.mp e
  have h₁ : I s₁ := c.chooseInitialPhase hs e₁
  obtain ⟨slot, _, e⟩ := Option.bind_eq_some_iff.mp e
  split at e
  · exact c.failedLoad h₁ e
  · obtain ⟨s₂, e₂, e⟩ := Option.bind_eq_some_iff.mp e
    have h₂ : I s₂ := c.act h₁ e₂ trivial
    split at e
    · obtain ⟨s₃, e₃, e⟩ := Option.bind_eq_some_iff.mp e
      exact c.failedLoad (c.act h₂ e₃ trivial) e
    · have h₃ : I (s₂.enqueue (s₂.initLoadJob request h loader phase)) := c.same h₂ rfl
      split at e
      · obtain ⟨⟨s₄, outcome⟩, e₄, e⟩ := Option.bind_eq_some_iff.mp e
        unfold System.processImmediateBuilder at e₄
        simp only [Option.bind_eq_bind] at e₄
        obtain ⟨s₅, e₅, e₄⟩ := Option.bind_eq_some_iff.mp e₄
        have h₅ : I s₅ := c.processJob keeping h₃ e₅
        obtain ⟨j, _, e₄⟩ := Option.bind_eq_some_iff.mp e₄
        have h₄ : I s₄ := by
          split at e₄
          · obtain ⟨s₆, e₆, e₄⟩ := Option.bind_eq_some_iff.mp e₄
            cases e₄
            exact c.retireAndErase keeping h₅ e₆
          · cases e₄
            exact h₅
        dsimp only at e
        split at e
        · exact c.failedLoad h₄ e
        · cases e
          exact h₄
      · cases e
        exact h₃

lemma loadImpl (c : Closed I) (keeping : Keeping I runCalls) (hs : I s) {request : LoadRequest}
    {settings : SettingsScript} {h : Handle}
    (e : System.loadImpl runCalls s request settings script = some (s', h)) : I s' := by
  unfold System.loadImpl at e
  dsimp only at e
  split at e
  · cases e
    exact hs
  · rename_i loader hloader
    split at e
    · cases e
      exact hs
    · split at e
      · cases e
        exact hs
      · simp only [Option.bind_eq_bind] at e
        obtain ⟨s₁, e₁, e⟩ := Option.bind_eq_some_iff.mp e
        refine c.startLoad keeping (c.act hs e₁ ⟨AssetIo.normalized_normalizePath _, ?_⟩) e
        -- a request for a file or a memory block without a path has no loader
        intro notBuilder nil
        unfold System.requestLoader at hloader
        rw [if_neg notBuilder, if_pos nil] at hloader
        split at hloader
        all_goals cases hloader

lemma execCall (c : Closed I) (keeping : Keeping I runCalls) (hs : I s) {hint : Option JobId}
    {call : Call} (e : System.execCall runCalls hint s call = some s') : I s' := by
  cases call with
  | load request settings script =>
    obtain ⟨⟨s₁, h⟩, e₁, rfl⟩ := Option.map_eq_some_iff.mp e
    exact c.loadImpl keeping hs e₁
  | retain h => exact c.act hs e trivial
  | release h => exact c.act hs e trivial
  | markModified h => exact c.act hs e trivial
  | addDependency dependency requirement =>
    unfold System.execCall at e
    dsimp only at e
    split at e
    · cases e
      exact hs
    · cases e
      exact c.same hs rfl

lemma keeping_runCalls (c : Closed I) : ∀ {depth : Nat}, Keeping I (System.runCalls depth) := by
  intro depth
  induction depth with
  | zero =>
    intro hint calls s s' _ e
    cases e
  | succ depth ih =>
    intro hint calls
    induction calls with
    | nil =>
      intro s s' hs e
      cases e
      exact hs
    | cons call calls ihCalls =>
      intro s s' hs e
      unfold System.runCalls at e
      rw [List.foldlM_cons] at e
      obtain ⟨s₁, e₁, e⟩ := Option.bind_eq_some_iff.mp e
      exact ihCalls s₁ s' (c.execCall ih hs e₁) e

lemma settle (c : Closed I) (h : I s) {job : LoadJob} {rest : System fuel → Option α}
    {a : α} (e : (if job.isTerminal then
        (System.retireAndErase (System.runCalls fuel) s id script).bind rest
      else if job.phase = .waitingDependencies then rest (s.spliceJob id) else rest s) = some a) :
    ∃ s₁, I s₁ ∧ rest s₁ = some a := by
  split at e
  · obtain ⟨s₁, e₁, e⟩ := Option.bind_eq_some_iff.mp e
    exact ⟨s₁, c.retireAndErase c.keeping_runCalls h e₁, e⟩
  · split at e
    · exact ⟨s.spliceJob id, c.same h rfl, e⟩
    · exact ⟨s, h, e⟩

lemma processLoop (c : Closed I) : ∀ {turns : Nat} {scripts : List (JobScript Call)}
    {next : Option JobId} {s s' : System fuel}, I s →
      System.processLoop turns scripts next s = some s' → I s' := by
  intro turns
  induction turns with
  | zero =>
    intro scripts next s s' h e
    unfold System.processLoop at e
    cases e
    exact h
  | succ turns ih =>
    intro scripts next s s' h e
    cases next with
    | none =>
      unfold System.processLoop at e
      cases e
      exact h
    | some id =>
      cases scripts with
      | nil => cases e
      | cons script scripts =>
        unfold System.processLoop at e
        simp only [Option.bind_eq_bind] at e
        obtain ⟨s₁, e₁, e⟩ := Option.bind_eq_some_iff.mp e
        have h₁ : I s₁ := c.processJob c.keeping_runCalls h e₁
        obtain ⟨j, _, e⟩ := Option.bind_eq_some_iff.mp e
        obtain ⟨s₂, h₂, e⟩ := c.settle h₁ e
        exact ih h₂ e

lemma drainLoop (c : Closed I) : ∀ {turns : Nat} {scripts : List (JobScript Call)}
    {next : Option JobId} {progress progress' : Bool} {s s' : System fuel}, I s →
      System.drainLoop turns scripts next progress s = some (s', progress') → I s' := by
  intro turns
  induction turns with
  | zero =>
    intro scripts next progress progress' s s' h e
    unfold System.drainLoop at e
    cases e
    exact h
  | succ turns ih =>
    intro scripts next progress progress' s s' h e
    cases next with
    | none =>
      unfold System.drainLoop at e
      cases e
      exact h
    | some id =>
      cases scripts with
      | nil => cases e
      | cons script scripts =>
        unfold System.drainLoop at e
        simp only [Option.bind_eq_bind] at e
        obtain ⟨before, _, e⟩ := Option.bind_eq_some_iff.mp e
        obtain ⟨s₁, e₁, e⟩ := Option.bind_eq_some_iff.mp e
        have h₁ : I s₁ := c.processJob c.keeping_runCalls h e₁
        obtain ⟨j, _, e⟩ := Option.bind_eq_some_iff.mp e
        obtain ⟨s₂, h₂, e⟩ := c.settle h₁ e
        exact ih h₂ e

lemma drainLoads (c : Closed I) : ∀ {passes : List (List (JobScript Call))} {s s' : System fuel},
    I s → s.drainLoads passes = some s' → I s' := by
  intro passes
  induction passes with
  | nil =>
    intro s s' _ e
    cases e
  | cons scripts passes ih =>
    intro s s' h e
    unfold System.drainLoads at e
    simp only [Option.bind_eq_bind] at e
    obtain ⟨⟨s₁, again⟩, e₁, e⟩ := Option.bind_eq_some_iff.mp e
    unfold System.drainPass at e₁
    simp only [Option.bind_eq_bind] at e₁
    obtain ⟨⟨s₂, progress⟩, e₂, e₁⟩ := Option.bind_eq_some_iff.mp e₁
    cases e₁
    have h₁ : I s₂ := c.drainLoop h e₂
    dsimp only at e
    split at e
    · exact ih h₁ e
    · cases e
      exact h₁

lemma cancelTypeLoop (c : Closed I) {typeId : TypeId} : ∀ {turns : Nat}
    {scripts : List (JobScript Call)} {next : Option JobId} {s s' : System fuel}, I s →
      System.cancelTypeLoop typeId turns scripts next s = some s' → I s' := by
  intro turns
  induction turns with
  | zero =>
    intro scripts next s s' h e
    cases next with
    | none =>
      cases e
      exact h
    | some id => cases e
  | succ turns ih =>
    intro scripts next s s' h e
    cases next with
    | none =>
      cases e
      exact h
    | some id =>
      unfold System.cancelTypeLoop at e
      simp only [Option.bind_eq_bind] at e
      obtain ⟨j, _, e⟩ := Option.bind_eq_some_iff.mp e
      split at e
      · exact ih h e
      · cases scripts with
        | nil => cases e
        | cons script scripts =>
          dsimp only at e
          obtain ⟨s₁, e₁, e⟩ := Option.bind_eq_some_iff.mp e
          obtain ⟨⟨s₂, hasSlot⟩, e₂, e⟩ := Option.bind_eq_some_iff.mp e
          have h₂ : I (s₂.eraseJob id) :=
            c.same (c.retireLoadJob c.keeping_runCalls (c.finish h e₁) e₂) rfl
          dsimp only at e
          split at e
          · obtain ⟨s₃, e₃, e⟩ := Option.bind_eq_some_iff.mp e
            exact ih (c.act h₂ e₃ trivial) e
          · exact ih h₂ e

/-- **One event** keeps what the actions keep. -/
theorem step (c : Closed I) (h : I s) {event : Event} (e : s.step event = some s') : I s' := by
  cases event with
  | registerType desc =>
    cases e
    exact c.same h rfl
  | registerLoader desc =>
    cases e
    exact c.same h rfl
  | call call => exact c.keeping_runCalls _ _ _ _ h e
  | process scripts => exact c.processLoop h e
  | drainLoads passes => exact c.drainLoads h e
  | forceUnload typeId turns scripts =>
    unfold System.step System.forceUnloadAssets at e
    dsimp only at e
    split at e
    · cases e
      exact h
    · simp only [Option.bind_eq_bind] at e
      obtain ⟨s₁, e₁, e⟩ := Option.bind_eq_some_iff.mp e
      exact c.act (c.cancelTypeLoop h e₁) e trivial

/-- **Runs** keep what the actions keep. -/
theorem after (c : Closed I) {maxRequestsPerUpdate : Nat} {events : List Event}
    (h : I (System.init maxRequestsPerUpdate))
    (e : System.after fuel maxRequestsPerUpdate events = some s) : I s :=
  run_invariant (fun _ _ _ h e => c.step h e) h e

end Closed

/-- **What is issued.** Every action of a run was issued by the system. -/
theorem issued_of_after {maxRequestsPerUpdate : Nat} {events : List Event}
    (e : after fuel maxRequestsPerUpdate events = some s) : ∀ a ∈ s.traced.log, a.Issued := by
  have closed : Closed fun s : System fuel => ∀ a ∈ s.traced.log, a.Issued := by
    refine ⟨fun {s s' a} h e issued => ?_, fun h same => same ▸ h⟩
    obtain ⟨t, performed, rfl⟩ := Option.map_eq_some_iff.mp e
    have log : t.log = s.traced.log ++ [a] := by
      unfold Traced.perform at performed
      split at performed
      · cases performed
      · cases performed
        rfl
    intro b hb
    rw [show ({ s with traced := t } : System fuel).traced.log = t.log from rfl, log] at hb
    rcases List.mem_append.mp hb with hb | hb
    · exact h b hb
    · exact List.mem_singleton.mp hb ▸ issued
  refine closed.after (fun a ha => ?_) e
  exact absurd ha List.not_mem_nil

end System

end PulseEngine.Asset
