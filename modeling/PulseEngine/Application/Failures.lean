import PulseEngine.Application.Order
import PulseEngine.Application.PostBuild

/-!
# Failing builds

What is left of the plugins when a drain ends with an error. The batch that `drain_pending_plugins` builds
is a local of it: when a build callback fails, the plugins that come after in the batch are in neither of
the lists of the app. The plugin that failed is popped, and no other plugin is taken back: one that was
added by the call that drains stays registered or pending unless it failed itself or was dropped with the
batch.
-/

namespace PulseEngine.Application

open Library

namespace App

def held (a : App) : List Plugin :=
  a.plugins.map RegisteredPlugin.plugin ++ (a.ready ++ a.pendingPlugins)

def accepted (a : App) : Event → List Plugin
  | .addPlugin plugin =>
    if (a.state = .created ∨ a.state = .building) ∧ a.validatePlugin plugin = .ok then [plugin] else []
  | _ => []

def acceptedAlong : App → List Event → List Plugin
  | _, [] => []
  | a, e :: events => a.accepted e ++ (a.step e).elim [] fun a' => acceptedAlong a' events

/-- What happens while a drain is suspended at its build callbacks, from `a` to `b`. -/
structure Nested (a : App) (events : List Event) (b : App) : Prop where
  reaches : run step a events = some b
  building : Along step (fun s _ => s.state = .building) a events
  suspended : b.state = .building

/-- A drain that `first` begins in `a`, up to a build callback in `b`. -/
structure Drain (a : App) (first : Event) (events : List Event) (b : App) : Prop where
  idle : a.state = .created
  nested : ∃ a', a.step first = some a' ∧ Nested a' events b

/-- The failure in `b` of a drain that began in `a` left `c`: whatever was pending or was added since is
registered in this drain or still pending, what was built is registered, and a later drain that finds the
dependencies of a pending plugin registered builds it or has it in its batch. -/
structure KeepsOthers (a : App) (events : List Event) (b c : App) : Prop where
  pending : (a.pendingPlugins ++ acceptedAlong a events).Perm
    ((b.plugins.drop a.plugins.length).map RegisteredPlugin.plugin ++ c.pendingPlugins)
  registered : ∀ p, .built p ∈ b.log → ∃ e ∈ c.plugins, e.plugin = p
  buildable : ∀ later d, run step c later = some d → d.state = .created →
    ∀ p ∈ d.pendingPlugins, d.pluginDependenciesSatisfied p = true →
      p ∈ d.drainPendingPlugins.1.plugins.map RegisteredPlugin.plugin ++ d.drainPendingPlugins.1.ready

/-- A call of `add_plugin` in `a` returns a result in `c`; the events happen while it drains. -/
inductive Called (a : App) (p : Plugin) : List Event → App → AddPluginResult → Prop where
  | returns {c : App} {r : AddPluginResult} (e : a.addPlugin p = (c, some r)) : Called a p [] c r
  | drains {a' b c : App} {events : List Event} {result : PluginBuildResult} {r : AddPluginResult}
      (starts : a.addPlugin p = (a', none)) (nested : Nested a' events b)
      (ends : b.buildReturns result = (c, some r)) :
      Called a p (events ++ [.buildReturns result]) c r

/-- The call left no more of the plugin in `c` than there was in `a` and was added by the build callbacks
meanwhile. -/
def LeavesNothing (a : App) (p : Plugin) (events : List Event) (c : App) : Prop :=
  c.held.count p ≤ a.held.count p + ((a.step (.addPlugin p)).elim [] (acceptedAlong · events)).count p

def Refuses (a : App) (p : Plugin) : Prop :=
  (a.state ≠ .created ∧ a.state ≠ .building) ∨ a.validatePlugin p ≠ .ok

/-- The last of the events is the failure of a build callback, which is the one of the plugin or of
another one while the plugin waits in the batch. -/
def FailsWith (a : App) (p : Plugin) (events : List Event) : Prop :=
  ∃ a' events' b result, a.step (.addPlugin p) = some a' ∧
    events = events' ++ [.buildReturns result] ∧ run step a' events' = some b ∧ result ≠ .ok ∧
      (b.plugins.getLast?.map RegisteredPlugin.plugin = some p ∨ p ∈ b.ready)

def Whole (a : App) : Prop :=
  a.log.filterMap Call.builtPlugin = a.plugins.map RegisteredPlugin.plugin

def Partly (a : App) : Prop :=
  ∃ built e, a.plugins = built ++ [e] ∧
    a.log.filterMap Call.builtPlugin = built.map RegisteredPlugin.plugin

variable {a a' b c : App} {p : Plugin}

lemma batch_buildReady : ∀ {ready : List Plugin} {a b : App} {running : Bool},
    buildReady ready a = (b, running) →
      b.plugins.map RegisteredPlugin.plugin ++ b.ready =
        a.plugins.map RegisteredPlugin.plugin ++ ready := by
  intro ready
  induction ready with
  | nil =>
    intro a b running e
    cases e
    rfl
  | cons entry ready ih =>
    intro a b running e
    have pushed : (a.plugins ++ [(⟨entry, false⟩ : RegisteredPlugin)]).map RegisteredPlugin.plugin ++ ready =
        a.plugins.map RegisteredPlugin.plugin ++ entry :: ready := by
      rw [List.map_append, List.append_assoc]
      rfl
    unfold App.buildReady at e
    split at e
    · cases e
      exact pushed
    · exact (ih e).trans pushed

lemma held_buildReady {ready : List Plugin} {running : Bool} (e : buildReady ready a = (b, running)) :
    b.held = ({ a with ready := ready } : App).held := by
  unfold held
  rw [← List.append_assoc, batch_buildReady e, (Grown.buildReady e).2.2.1, List.append_assoc]

lemma Whole.buildReady : ∀ {ready : List Plugin} {a b : App} {running : Bool}, Whole a →
    buildReady ready a = (b, running) →
      b.state = a.state ∧ (running = true → Partly b) ∧ (running = false → Whole b ∧ b.ready = []) := by
  intro ready
  induction ready with
  | nil =>
    intro a b running whole e
    cases e
    exact ⟨rfl, by rintro ⟨⟩, fun _ => ⟨whole, rfl⟩⟩
  | cons entry ready ih =>
    intro a b running whole e
    unfold Whole at whole
    unfold App.buildReady at e
    split at e
    · cases e
      refine ⟨rfl, fun _ => ⟨a.plugins, ⟨entry, false⟩, rfl, ?_⟩, by rintro ⟨⟩⟩
      rw [List.filterMap_append, whole]
      exact List.append_nil _
    · have pushed : Whole { a with
          plugins := a.plugins ++ [⟨entry, false⟩]
          log := a.log ++ [.build entry] ++ [.built entry] } := by
        unfold Whole
        rw [List.filterMap_append, List.filterMap_append, whole, List.map_append]
        exact congrArg (· ++ _) (List.append_nil _)
      have rest := ih pushed e
      exact rest

def Suspends : App × Option AddPluginResult → Prop
  | (b, none) => b.state = .building ∧ Partly b
  | (b, some _) => b.state = .created ∧ Whole b ∧ b.ready = []

lemma Suspends.drainLoop : ∀ {turns : Nat} {a : App}, Whole a → a.state = .building → a.ready = [] →
    a.pendingPlugins.length < turns →
      Suspends (drainLoop turns a) ∧ (drainLoop turns a).1.held.Perm a.held := by
  intro turns
  induction turns with
  | zero =>
    intro a _ _ _ lt
    omega
  | succ turns ih =>
    intro a whole building idle lt
    unfold App.drainLoop
    split
    · exact ⟨⟨rfl, whole, idle⟩, .refl _⟩
    · rw [List.partition_eq_filter_filter]
      dsimp only
      split
      · exact ⟨⟨rfl, whole, idle⟩, .refl _⟩
      · rename_i hne
        have split : (a.pendingPlugins.filter a.pluginDependenciesSatisfied ++
            a.pendingPlugins.filter (not ∘ a.pluginDependenciesSatisfied)).Perm a.pendingPlugins :=
          List.filter_append_perm _ _
        set ready := a.pendingPlugins.filter a.pluginDependenciesSatisfied
        set pending := a.pendingPlugins.filter (not ∘ a.pluginDependenciesSatisfied)
        have fewer := split.length_eq
        rw [List.length_append] at fewer
        have pos := List.length_pos_iff.mpr hne
        have batch : ({ a with pendingPlugins := pending, ready := ready } : App).held.Perm a.held := by
          unfold held
          rw [idle, List.nil_append]
          exact split.append_left _
        cases hb : App.buildReady ready { a with pendingPlugins := pending } with
        | mk b running =>
          have kept := (List.Perm.of_eq (held_buildReady hb)).trans batch
          have pendingb := (Grown.buildReady hb).2.2.1
          obtain ⟨state, partly, whole'⟩ := Whole.buildReady (a := { a with pendingPlugins := pending })
            whole hb
          cases running with
          | true => exact ⟨⟨state.trans building, partly rfl⟩, kept⟩
          | false =>
            obtain ⟨whole', idle'⟩ := whole' rfl
            obtain ⟨suspends, kept'⟩ := ih whole' (state.trans building) idle'
              (by rw [pendingb]; dsimp only; omega)
            exact ⟨suspends, kept'.trans kept⟩

lemma Suspends.start (whole : Whole a) (state : a.state ≠ .building) (idle : a.ready = []) :
    Suspends a.drainPendingPlugins ∧ a.drainPendingPlugins.1.held.Perm a.held := by
  unfold App.drainPendingPlugins
  rw [if_neg state]
  exact Suspends.drainLoop (a := { a with state := .building }) whole rfl idle (Nat.lt_succ_self _)

lemma Suspends.buildReturns (h : Partly a) (building : a.state = .building) :
    Suspends (a.buildReturns .ok) ∧ (a.buildReturns .ok).1.held.Perm a.held := by
  obtain ⟨built, e, plugins, log⟩ := h
  have last : a.plugins.getLast? = some e := by rw [plugins, List.getLast?_concat]
  have whole : Whole { a with log := a.log ++ [.built e.plugin] } := by
    unfold Whole
    rw [List.filterMap_append, log, plugins, List.map_append]
    rfl
  unfold App.buildReturns
  rw [last]
  dsimp only
  rw [if_neg (by simp)]
  cases hb : App.buildReady a.ready { a with log := a.log ++ [.built e.plugin] } with
  | mk b running =>
    obtain ⟨state, partly, whole'⟩ := whole.buildReady hb
    have kept := List.Perm.of_eq (held_buildReady hb)
    cases running with
    | true => exact ⟨⟨state.trans building, partly rfl⟩, kept⟩
    | false =>
      obtain ⟨whole', idle⟩ := whole' rfl
      obtain ⟨suspends, kept'⟩ :=
        Suspends.drainLoop whole' (state.trans building) idle (Nat.lt_succ_self _)
      exact ⟨suspends, kept'.trans kept⟩

lemma buildReturns_failed {built : List RegisteredPlugin} {e : RegisteredPlugin}
    {result : PluginBuildResult} (plugins : a.plugins = built ++ [e]) (failed : result ≠ .ok) :
    a.buildReturns result = ({ a with
      plugins := built, state := .created, ready := [], log := a.log ++ [.failed e.plugin] },
        some result.toAddPluginResult) := by
  have last : a.plugins.getLast? = some e := by rw [plugins, List.getLast?_concat]
  unfold App.buildReturns
  rw [last]
  dsimp only
  rw [if_pos failed, plugins, List.dropLast_concat]

lemma addPlugin_refused (h : Refuses a p) : ∃ r, r ≠ .ok ∧ a.addPlugin p = (a, some r) := by
  unfold App.addPlugin
  rcases h with h | h
  · exact ⟨.invalidState, nofun, if_pos h⟩
  · split
    · exact ⟨.invalidState, nofun, rfl⟩
    · refine ⟨a.validatePlugin p, h, ?_⟩
      cases hv : a.validatePlugin p with
      | ok => exact absurd hv h
      | _ => rfl

lemma addPlugin_accepted (h : ¬ Refuses a p) :
    a.addPlugin p =
      if a.state = .building then ({ a with pendingPlugins := a.pendingPlugins ++ [p] }, some .ok)
      else if ({ a with pendingPlugins := a.pendingPlugins ++ [p] } : App).pendingPluginsSatisfiable then
        ({ a with pendingPlugins := a.pendingPlugins ++ [p] } : App).drainPendingPlugins
      else ({ a with pendingPlugins := a.pendingPlugins ++ [p] }, some .ok) := by
  obtain ⟨state, valid⟩ := not_or.mp h
  unfold App.addPlugin
  rw [if_neg state, not_not.mp valid]

lemma accepted_addPlugin (a : App) (p : Plugin) [Decidable (Refuses a p)] :
    a.accepted (.addPlugin p) = if Refuses a p then [] else [p] := by
  have : (a.state = .created ∨ a.state = .building) ∧ a.validatePlugin p = .ok ↔ ¬ Refuses a p := by
    unfold Refuses
    tauto
  unfold accepted
  simp only [this, ite_not]

inductive Tracked (a : App) : Prop where
  | building (state : a.state = .building) (partly : Partly a)
  | idle (state : a.state ≠ .building) (whole : Whole a) (ready : a.ready = [])

lemma Suspends.tracked {s : App × Option AddPluginResult} (h : Suspends s) : Tracked s.1 := by
  obtain ⟨b, r⟩ := s
  cases r with
  | none => exact .building h.1 h.2
  | some r => exact .idle (by simp [h.1]) h.2.1 h.2.2

lemma held_pend (a : App) (p : Plugin) :
    ({ a with pendingPlugins := a.pendingPlugins ++ [p] } : App).held = a.held ++ [p] := by
  simp [held]

lemma Tracked.addPlugin (h : Tracked a) (accepted : ¬ Refuses a p) :
    Tracked (a.addPlugin p).1 ∧ (a.addPlugin p).1.held.Perm (a.held ++ [p]) := by
  rw [addPlugin_accepted accepted]
  cases h with
  | building state partly =>
    rw [if_pos state]
    exact ⟨.building state partly, .of_eq (held_pend a p)⟩
  | idle state whole ready =>
    rw [if_neg state]
    split
    · obtain ⟨suspends, kept⟩ := Suspends.start
        (a := { a with pendingPlugins := a.pendingPlugins ++ [p] }) whole state ready
      exact ⟨suspends.tracked, kept.trans (.of_eq (held_pend a p))⟩
    · exact ⟨.idle state whole ready, .of_eq (held_pend a p)⟩

lemma Tracked.step {e : Event} (h : Tracked a) (he : a.step e = some a') : Tracked a' := by
  classical
  cases e with
  | addPlugin p =>
    cases he
    rcases em (Refuses a p) with refused | accepted
    · obtain ⟨r, -, e⟩ := addPlugin_refused refused
      rw [e]
      exact h
    · exact (h.addPlugin accepted).1
  | prepare =>
    cases he
    split
    · rename_i state
      cases h with
      | building state' => exact absurd (state.symm.trans state') (by simp)
      | idle state' whole ready => exact (Suspends.start whole state' ready).1.tracked
    · exact h
  | buildReturns result =>
    obtain ⟨state, rfl⟩ : a.state = .building ∧ (a.buildReturns result).1 = a' := by
      simpa [App.step] using he
    cases h with
    | idle state' => exact absurd state state'
    | building _ partly =>
      rcases eq_or_ne result .ok with rfl | failed
      · exact (Suspends.buildReturns partly state).1.tracked
      · obtain ⟨built, e, plugins, log⟩ := partly
        rw [buildReturns_failed plugins failed]
        refine .idle (by simp) ?_ rfl
        unfold Whole
        rw [List.filterMap_append, log]
        exact List.append_nil _
  | postBuild result =>
    obtain ⟨state, rfl⟩ : a.state = .created ∧
        { a with state := if result = .ok then .created else .postBuilding } = a' := by
      simpa [App.step] using he
    cases h with
    | building state' => exact absurd (state.symm.trans state') (by simp)
    | idle _ whole ready =>
      refine .idle ?_ whole ready
      dsimp only
      split <;> simp
  | running =>
    obtain ⟨state, rfl⟩ : a.state = .created ∧ { a with state := .running } = a' := by
      simpa [App.step] using he
    cases h with
    | building state' => exact absurd (state.symm.trans state') (by simp)
    | idle _ whole ready => exact .idle (by simp) whole ready
  | teardown =>
    obtain ⟨state, rfl⟩ : a.state ≠ .building ∧ a.teardown = a' := by
      simpa [App.step] using he
    cases h with
    | building state' => exact absurd state' state
    | idle _ whole ready =>
      unfold App.teardown
      split
      · exact .idle state whole ready
      · refine .idle (by simp) ?_ ready
        unfold Whole
        rw [List.filterMap_append, whole, List.map_map]
        have none : (shutdownPlugins a.plugins).filterMap Call.builtPlugin = [] := by
          refine List.filterMap_eq_nil_iff.mpr fun c hc => ?_
          obtain ⟨e, -, he⟩ := List.mem_filterMap.mp hc
          split at he
          · cases he
            rfl
          · cases he
        rw [none, List.append_nil]
        rfl

lemma Tracked.kept {e : Event} (h : Tracked a) (he : a.step e = some a')
    (building : a'.state = .building) : a'.held.Perm (a.held ++ a.accepted e) := by
  classical
  cases e with
  | addPlugin p =>
    cases he
    rw [accepted_addPlugin]
    split
    · rename_i refused
      obtain ⟨r, -, e⟩ := addPlugin_refused refused
      rw [e, List.append_nil]
    · rename_i accepted
      exact (h.addPlugin accepted).2
  | prepare =>
    cases he
    refine List.Perm.trans ?_ (.of_eq (List.append_nil _).symm)
    split
    · rename_i state
      cases h with
      | building state' => exact absurd (state.symm.trans state') (by simp)
      | idle state' whole ready => exact (Suspends.start whole state' ready).2
    · rfl
  | buildReturns result =>
    obtain ⟨state, rfl⟩ : a.state = .building ∧ (a.buildReturns result).1 = a' := by
      simpa [App.step] using he
    refine List.Perm.trans ?_ (.of_eq (List.append_nil _).symm)
    cases h with
    | idle state' => exact absurd state state'
    | building _ partly =>
      rcases eq_or_ne result .ok with rfl | failed
      · exact (Suspends.buildReturns partly state).2
      · obtain ⟨built, e, plugins, -⟩ := partly
        rw [buildReturns_failed plugins failed] at building
        cases building
  | postBuild result =>
    obtain ⟨-, rfl⟩ : a.state = .created ∧
        { a with state := if result = .ok then .created else .postBuilding } = a' := by
      simpa [App.step] using he
    dsimp only at building
    split at building <;> cases building
  | running =>
    obtain ⟨-, rfl⟩ : a.state = .created ∧ { a with state := .running } = a' := by
      simpa [App.step] using he
    cases building
  | teardown =>
    obtain ⟨state, rfl⟩ : a.state ≠ .building ∧ a.teardown = a' := by
      simpa [App.step] using he
    unfold App.teardown at building
    split at building
    · exact absurd building state
    · cases building

lemma Tracked.reached {before : List Event} (e : run App.step init before = some a) : Tracked a :=
  run_invariant (I := Tracked) (fun _ _ _ h he => h.step he)
    (.idle (a := init) (by simp [App.init]) rfl rfl) e

lemma Nested.start {events : List Event} (h : Nested a events b) : a.state = .building := by
  cases events with
  | nil =>
    cases h.reaches
    exact h.suspended
  | cons _ _ => exact h.building.1

lemma Nested.tail {e : Event} {events : List Event} (h : Nested a (e :: events) b) :
    ∃ a₁, a.step e = some a₁ ∧ a₁.state = .building ∧ Nested a₁ events b := by
  have reaches := h.reaches
  rw [run_cons] at reaches
  obtain ⟨a₁, he, rest⟩ := Option.bind_eq_some_iff.mp reaches
  have nested : Nested a₁ events b := ⟨rest, h.building.2 a₁ he, h.suspended⟩
  exact ⟨a₁, he, nested.start, nested⟩

lemma Nested.kept : ∀ {events : List Event} {a : App}, Nested a events b → Tracked a →
    Tracked b ∧ b.held.Perm (a.held ++ acceptedAlong a events) := by
  intro events
  induction events with
  | nil =>
    intro a h tracked
    cases h.reaches
    exact ⟨tracked, .of_eq (List.append_nil _).symm⟩
  | cons e events ih =>
    intro a h tracked
    obtain ⟨a₁, he, building, nested⟩ := h.tail
    obtain ⟨tracked', kept'⟩ := ih nested (tracked.step he)
    refine ⟨tracked', kept'.trans ?_⟩
    have kept := tracked.kept he building
    rw [acceptedAlong, he, Option.elim_some, ← List.append_assoc]
    exact kept.append_right _

lemma Nested.draining : ∀ {events : List Event} {c : App}, Nested c events b → Draining a (c, none) →
    Draining a (b, none) := by
  intro events
  induction events with
  | nil =>
    intro c h draining
    cases h.reaches
    exact draining
  | cons e events ih =>
    intro c h draining
    obtain ⟨c₁, he, building, nested⟩ := h.tail
    refine ih nested ?_
    cases e with
    | addPlugin p =>
      cases he
      exact draining.addPlugin
    | prepare =>
      cases he
      rw [if_neg (by simp [draining.2.1])]
      exact draining
    | buildReturns result =>
      obtain ⟨-, rfl⟩ : c.state = .building ∧ (c.buildReturns result).1 = c₁ := by
        simpa [App.step] using he
      have ended : Draining a (c.buildReturns result) := draining.buildReturns
      cases hr : c.buildReturns result with
      | mk d r =>
        rw [hr] at ended building
        cases r with
        | none => exact ended
        | some r => exact absurd (ended.2.1.symm.trans building) (by simp)
    | postBuild result =>
      have := draining.2.1
      simp [App.step, this] at he
    | running =>
      have := draining.2.1
      simp [App.step, this] at he
    | teardown =>
      have := draining.2.1
      simp [App.step, this] at he

lemma Drain.draining {first : Event} {events : List Event} (h : Drain a first events b) :
    Draining a (b, none) := by
  obtain ⟨a', he, nested⟩ := h.nested
  refine nested.draining ?_
  have building := nested.start
  have started : ∀ pending, ({ a with pendingPlugins := pending } : App).drainPendingPlugins.1 = a' →
      Draining a (a', none) := by
    rintro pending rfl
    have start := Draining.start { a with pendingPlugins := pending } h.idle
    cases hr : ({ a with pendingPlugins := pending } : App).drainPendingPlugins with
    | mk b r =>
      rw [hr] at start building
      cases r with
      | none => exact ⟨⟨start.1.plugins, start.1.log⟩, start.2⟩
      | some r => exact absurd (start.2.1.symm.trans building) (by simp)
  cases first with
  | addPlugin p =>
    cases he
    rcases em (Refuses a p) with refused | accepted
    · obtain ⟨r, -, e⟩ := addPlugin_refused refused
      rw [e, h.idle] at building
      cases building
    · rw [addPlugin_accepted accepted, if_neg (by simp [h.idle])] at building started ⊢
      split at building
      · rename_i satisfiable
        rw [if_pos satisfiable] at started ⊢
        exact started _ rfl
      · exact absurd (h.idle.symm.trans building) (by simp)
  | prepare =>
    cases he
    rw [if_pos h.idle] at started ⊢
    exact started a.pendingPlugins rfl
  | buildReturns result => simp [App.step, h.idle] at he
  | postBuild result =>
    simp only [App.step, if_pos h.idle, Option.some.injEq] at he
    rw [← he] at building
    dsimp only at building
    split at building <;> cases building
  | running =>
    simp only [App.step, if_pos h.idle, Option.some.injEq] at he
    rw [← he] at building
    cases building
  | teardown =>
    have idle : a.state ≠ .building := by simp [h.idle]
    simp only [App.step, if_pos idle, Option.some.injEq] at he
    rw [← he] at building
    simp [App.teardown, h.idle] at building

lemma Drain.kept {first : Event} {events : List Event} (h : Drain a first events b)
    (tracked : Tracked a) : (a.pendingPlugins ++ acceptedAlong a (first :: events)).Perm
      ((b.plugins.drop a.plugins.length).map RegisteredPlugin.plugin ++
        (b.ready ++ b.pendingPlugins)) := by
  obtain ⟨more, plugins⟩ := h.draining.1.plugins
  obtain ⟨a', he, nested⟩ := h.nested
  obtain ⟨-, kept⟩ := nested.kept (tracked.step he)
  have kept := kept.trans ((tracked.kept he nested.start).append_right _)
  cases tracked with
  | building state => exact absurd (state.symm.trans h.idle) (by simp)
  | idle _ _ ready =>
    unfold held at kept
    rw [← plugins, List.map_append, ready, List.nil_append, List.append_assoc, List.append_assoc,
      List.append_assoc, List.perm_append_left_iff] at kept
    rw [← plugins, List.drop_left, acceptedAlong, he, Option.elim_some]
    exact kept.symm

lemma Tracked.builds (tracked : Tracked a) (state : a.state = .created) (hp : p ∈ a.pendingPlugins)
    (satisfied : a.pluginDependenciesSatisfied p = true) :
    p ∈ a.drainPendingPlugins.1.plugins.map RegisteredPlugin.plugin ++
      a.drainPendingPlugins.1.ready := by
  have ready : p ∈ a.pendingPlugins.filter a.pluginDependenciesSatisfied :=
    List.mem_filter.mpr ⟨hp, satisfied⟩
  unfold App.drainPendingPlugins
  rw [if_neg (by simp [state])]
  unfold App.drainLoop
  rw [if_neg (List.ne_nil_of_mem hp), List.partition_eq_filter_filter]
  dsimp only
  change p ∈ a.pendingPlugins.filter ({ a with state := .building } : App).pluginDependenciesSatisfied
    at ready
  rw [if_neg (List.ne_nil_of_mem ready)]
  split
  · rename_i b hb
    rw [batch_buildReady hb]
    exact List.mem_append_right _ ready
  · rename_i b hb
    -- what is registered when the batch is built stays registered
    have batch := batch_buildReady hb
    obtain ⟨-, state', pending, -⟩ := Grown.buildReady hb
    cases tracked with
    | building building => exact absurd (building.symm.trans state) (by simp)
    | idle _ whole _ =>
      obtain ⟨-, -, done⟩ := Whole.buildReady (a := { a with
        state := .building
        pendingPlugins := a.pendingPlugins.filter
          (not ∘ ({ a with state := .building } : App).pluginDependenciesSatisfied) }) whole hb
      have mem : p ∈ b.plugins.map RegisteredPlugin.plugin := by
        rw [(done rfl).2, List.append_nil] at batch
        rw [batch]
        exact List.mem_append_right _ ready
      have fewer : b.pendingPlugins.length < a.pendingPlugins.length := by
        rw [pending]
        refine List.length_filter_lt_length_iff_exists.mpr ⟨p, hp, ?_⟩
        have := List.of_mem_filter ready
        simp [this]
      have grown := Draining.drainLoop (Grown.refl b) state' fewer
      refine List.mem_append_left _ ?_
      cases hd : App.drainLoop a.pendingPlugins.length b with
      | mk c r =>
        rw [hd] at grown
        have prefix' : b.plugins <+: c.plugins := by
          cases r with
          | none => exact grown.1.plugins
          | some r => exact grown.1.plugins
        exact (prefix'.map RegisteredPlugin.plugin).subset mem

/-- **No plugin is lost when another fails, unless it waits in the batch.** For every drain in every run:
when a build callback fails, the plugins that were pending are still pending, those that were built are
registered and a later drain can build the others, if and only if the failed plugin was the last one of its
batch. -/
theorem failing_build_keeps_iff {before events : List Event} {first : Event}
    {result : PluginBuildResult} (reach : run step init before = some a)
    (drain : Drain a first events b) (failed : result ≠ .ok) :
    KeepsOthers a (first :: events) b (b.buildReturns result).1 ↔ b.ready = [] := by
  have tracked := Tracked.reached reach
  have kept := drain.kept tracked
  obtain ⟨a', he, nested⟩ := drain.nested
  have trackedb := (nested.kept (tracked.step he)).1
  have stepb : b.step (.buildReturns result) = some (b.buildReturns result).1 := if_pos nested.suspended
  have trackedc := trackedb.step stepb
  obtain ⟨built, e, plugins, log⟩ : Partly b := by
    cases trackedb with
    | building _ partly => exact partly
    | idle state => exact absurd nested.suspended state
  rw [buildReturns_failed plugins failed] at trackedc ⊢
  constructor
  · intro keeps
    have lost := keeps.pending.symm.trans kept
    rw [List.perm_append_left_iff] at lost
    have length : b.pendingPlugins.length = (b.ready ++ b.pendingPlugins).length := lost.length_eq
    rw [List.length_append] at length
    exact List.length_eq_zero_iff.mp (by omega)
  · intro ready
    rw [ready, List.nil_append] at kept
    refine ⟨kept, fun p hp => ?_, fun later d hd state p hp satisfied => ?_⟩
    · have mem : p ∈ b.log.filterMap Call.builtPlugin := List.mem_filterMap.mpr ⟨_, hp, rfl⟩
      rw [log] at mem
      exact List.mem_map.mp mem
    · have trackedd : Tracked d :=
        run_invariant (I := Tracked) (fun _ _ _ h he => h.step he) trackedc hd
      exact trackedd.builds state hp satisfied

def waitForThird (p q : Plugin) : App := ⟨[], [p, q], .created, [], []⟩

lemma reach_waitForThird (p q : Plugin) (names : p.name ≠ [] ∧ q.name ≠ [] ∧ p.name ≠ q.name)
    (deps : p.dependencies = [['z']] ∧ q.dependencies = [['z']])
    (others : p.name ≠ ['z'] ∧ q.name ≠ ['z']) :
    run step init [.addPlugin p, .addPlugin q] = some (waitForThird p q) := by
  obtain ⟨hp, hq, hpq⟩ := names
  simp [step, addPlugin, validatePlugin, init, hasPlugin, hasPendingPlugin, pendingPluginsSatisfiable,
    pluginDependenciesRegistered, deps, others, hp, hq, hpq, waitForThird]

/-- The plugin that fails is the last one of its batch. -/
theorem failing_build_keeps_last : ∃ b, Drain (waitForThird (quiet ['b'] [['z']]) (loud ['a'] [['z']]))
    (.addPlugin (quiet ['z'] [])) [] b ∧
      KeepsOthers (waitForThird (quiet ['b'] [['z']]) (loud ['a'] [['z']]))
        [.addPlugin (quiet ['z'] [])] b (b.buildReturns .internal).1 := by
  have drain : Drain (waitForThird (quiet ['b'] [['z']]) (loud ['a'] [['z']]))
      (.addPlugin (quiet ['z'] [])) [] _ := ⟨rfl, _, rfl, rfl, trivial, by decide⟩
  have reach := reach_waitForThird (quiet ['b'] [['z']]) (loud ['a'] [['z']]) (by decide) (by decide)
    (by decide)
  exact ⟨_, drain, (failing_build_keeps_iff reach drain (by decide)).mpr (by decide)⟩

/-- The other one comes after it in the batch: it is dropped. -/
theorem not_failing_build_keeps : ¬ ∀ (before events : List Event) (first : Event) (a b : App)
    (result : PluginBuildResult), run step init before = some a → Drain a first events b →
      result ≠ .ok → KeepsOthers a (first :: events) b (b.buildReturns result).1 := by
  intro law
  have drain : Drain (waitForThird (loud ['a'] [['z']]) (quiet ['b'] [['z']]))
      (.addPlugin (quiet ['z'] [])) [] _ := ⟨rfl, _, rfl, rfl, trivial, by decide⟩
  have reach := reach_waitForThird (loud ['a'] [['z']]) (quiet ['b'] [['z']]) (by decide) (by decide)
    (by decide)
  have keeps := law _ [] _ _ _ .internal reach drain (by decide)
  exact absurd keeps.pending.length_eq (by decide)

lemma acceptedAlong_append {events' : List Event} : ∀ {events : List Event} {a : App},
    run step a events = some b →
      acceptedAlong a (events ++ events') = acceptedAlong a events ++ acceptedAlong b events' := by
  intro events
  induction events with
  | nil =>
    intro a h
    cases h
    rfl
  | cons e events ih =>
    intro a h
    rw [run_cons] at h
    obtain ⟨a₁, he, rest⟩ := Option.bind_eq_some_iff.mp h
    rw [List.cons_append, acceptedAlong, acceptedAlong, he, Option.elim_some, Option.elim_some, ih rest,
      List.append_assoc]

lemma not_leavesNothing {events : List Event} (h : c.held.Perm (a.held ++ [p] ++
      (a.step (.addPlugin p)).elim [] (acceptedAlong · events))) : ¬ LeavesNothing a p events c := by
  unfold LeavesNothing
  rw [h.count_eq, List.count_append, List.count_append, List.count_singleton_self]
  omega

lemma count_held_failed {built : List RegisteredPlugin} {e : RegisteredPlugin}
    (plugins : b.plugins = built ++ [e]) (log : List Call) (p : Plugin) :
    b.held.count p = ({ b with
      plugins := built, state := .created, ready := [], log := log } : App).held.count p +
        ([e.plugin].count p + b.ready.count p) := by
  unfold held
  rw [plugins, List.map_append, List.count_append, List.count_append, List.count_append,
    List.count_append, List.nil_append]
  rw [show [e].map RegisteredPlugin.plugin = [e.plugin] from rfl]
  dsimp only
  omega

/-- **A failed `add_plugin` leaves nothing behind exactly when its own plugin went.** For every call
that returned in a run, with an error or not: no more of its plugin is registered or pending than before the call and
was added by build callbacks meanwhile, if and only if the call refused the plugin or ended with the failure
of a build callback, the plugin's own one or another one while the plugin waited in the batch. -/
theorem failed_addPlugin_leaves_nothing_iff {before events : List Event} {r : AddPluginResult}
    (reach : run step init before = some a) (call : Called a p events c r) :
    LeavesNothing a p events c ↔ Refuses a p ∨ FailsWith a p events := by
  have tracked := Tracked.reached reach
  rcases em (Refuses a p) with refused | accepted
  · refine iff_of_true ?_ (Or.inl refused)
    obtain ⟨r', -, e⟩ := addPlugin_refused refused
    cases call with
    | returns e' =>
      cases e.symm.trans e'
      exact Nat.le_add_right _ _
    | drains e' => cases e.symm.trans e'
  · rw [or_iff_right accepted]
    obtain ⟨tracked', added⟩ := tracked.addPlugin accepted
    cases call with
    | returns e =>
      rw [e] at added
      refine iff_of_false (not_leavesNothing ?_) ?_
      · refine added.trans (.of_eq ?_)
        rw [show (a.step (.addPlugin p)).elim [] (acceptedAlong · []) = [] from rfl, List.append_nil]
      · rintro ⟨_, events', _, _, _, hevents, _⟩
        exact List.append_ne_nil_of_right_ne_nil events' (by simp) hevents.symm
    | @drains a' b c events result r starts nested ends =>
      have hstep : a.step (.addPlugin p) = some a' := by
        rw [App.step, starts]
      rw [starts] at tracked' added
      obtain ⟨trackedb, kept⟩ := nested.kept tracked'
      have kept := kept.trans (added.append_right _)
      have whole : (a.step (.addPlugin p)).elim [] (acceptedAlong · (events ++ [.buildReturns result])) =
          acceptedAlong a' events := by
        rw [hstep, Option.elim_some, acceptedAlong_append nested.reaches, acceptedAlong]
        cases b.step (.buildReturns result) <;> exact List.append_nil _
      have partly : Partly b := by
        cases trackedb with
        | building _ partly => exact partly
        | idle state => exact absurd nested.suspended state
      rcases eq_or_ne result .ok with rfl | failed
      · -- the drain went on and ended with another error
        have kept' := (Suspends.buildReturns partly nested.suspended).2
        rw [ends] at kept'
        refine iff_of_false (not_leavesNothing ?_) ?_
        · rw [whole]
          exact kept'.trans kept
        · rintro ⟨_, _, _, _, _, hevents, _, hne, _⟩
          cases (List.append_inj' hevents rfl).2
          exact hne rfl
      · obtain ⟨built, e, plugins, -⟩ := partly
        rw [buildReturns_failed plugins failed] at ends
        obtain ⟨rfl, -⟩ := Prod.mk.inj ends
        have count := kept.count_eq p
        rw [count_held_failed plugins (b.log ++ [.failed e.plugin]), List.count_append,
          List.count_append, List.count_singleton_self] at count
        have last : b.plugins.getLast?.map RegisteredPlugin.plugin = some e.plugin := by
          rw [plugins, List.getLast?_concat]
          rfl
        unfold LeavesNothing
        rw [whole]
        constructor
        · intro leaves
          refine ⟨a', events, b, result, hstep, rfl, nested.reaches, failed, ?_⟩
          rw [last]
          by_contra hnot
          obtain ⟨hne, hready⟩ := not_or.mp hnot
          have own : [e.plugin].count p = 0 :=
            List.count_eq_zero.mpr fun hm => hne (congrArg some (List.mem_singleton.mp hm).symm)
          have rest := List.count_eq_zero.mpr hready
          omega
        · rintro ⟨a₁, events₁, b₁, result₁, h₁, hevents, hb₁, -, own⟩
          cases hstep.symm.trans h₁
          obtain ⟨rfl, -⟩ := List.append_inj' hevents rfl
          cases nested.reaches.symm.trans hb₁
          rcases own with own | waiting
          · rw [last] at own
            cases own
            rw [List.count_singleton_self] at count
            omega
          · have := List.count_pos_iff.mpr waiting
            omega

def waitsForB : App := ⟨[], [loud ['a'] [['b']]], .created, [], []⟩

lemma called_waitsForB : ∃ c, Called waitsForB (loud ['b'] [])
    [.buildReturns .ok, .buildReturns .internal] c .internal ∧
      c.plugins = [⟨loud ['b'] [], false⟩] := by
  refine ⟨_, @Called.drains _ _ _ _ _ [.buildReturns .ok] _ _ rfl ⟨rfl, ⟨?_, ?_⟩, ?_⟩ rfl, ?_⟩
  · decide
  · exact fun _ _ => trivial
  · decide
  · decide

/-- The build of the added plugin itself fails. -/
theorem failed_addPlugin_leaves_nothing_own : ∃ c, Called waitsForB (loud ['b'] [])
    [.buildReturns .internal] c .internal ∧
      LeavesNothing waitsForB (loud ['b'] []) [.buildReturns .internal] c := by
  have reach : run step init [.addPlugin (loud ['a'] [['b']])] = some waitsForB := rfl
  have call : Called waitsForB (loud ['b'] []) [.buildReturns .internal] _ .internal :=
    @Called.drains _ _ _ _ _ [] _ _ rfl ⟨rfl, trivial, rfl⟩ rfl
  refine ⟨_, call, (failed_addPlugin_leaves_nothing_iff reach call).mpr (Or.inr ?_)⟩
  exact ⟨_, [], _, .internal, rfl, rfl, rfl, nofun, Or.inl rfl⟩

/-- The build of the one that waited for it fails: `add_plugin` returns an error, and the plugin stays
registered. -/
theorem not_failed_addPlugin_leaves_nothing : ¬ ∀ (before events : List Event) (a c : App) (p : Plugin)
    (r : AddPluginResult), run step init before = some a → Called a p events c r → r ≠ .ok →
      LeavesNothing a p events c := by
  intro law
  obtain ⟨c, call, plugins⟩ := called_waitsForB
  have leaves := law [.addPlugin (loud ['a'] [['b']])] _ waitsForB c _ _ rfl call nofun
  have one : 0 < c.held.count (loud ['b'] []) := by
    refine List.count_pos_iff.mpr (List.mem_append_left _ ?_)
    rw [plugins]
    exact List.mem_cons_self
  have none : waitsForB.held.count (loud ['b'] []) +
      ((waitsForB.step (.addPlugin (loud ['b'] []))).elim []
        (acceptedAlong · [.buildReturns .ok, .buildReturns .internal])).count (loud ['b'] []) = 0 := by
    decide
  unfold LeavesNothing at leaves
  omega

end App

end PulseEngine.Application
