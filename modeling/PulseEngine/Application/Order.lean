import PulseEngine.Application.Plugins

/-!
# Build and shutdown order

A plugin is built once and after the plugins it depends on, and it is shut down once and before them, in
every run in which no build callback adds a plugin under the name of one that waits in the batch
being built. `validate_plugin` looks for the name among the built and the pending plugins; the batch is
in neither of them.
-/

namespace PulseEngine.Application

open Library

def Call.builtPlugin : Call → Option Plugin
  | .built plugin => some plugin
  | _ => none

def Call.isBuild (name : Name) : Call → Bool
  | .build plugin => plugin.name = name
  | _ => false

def Call.isFailed (name : Name) : Call → Bool
  | .failed plugin => plugin.name = name
  | _ => false

namespace App

def names (plugins : List RegisteredPlugin) : List Name := plugins.map fun entry => entry.plugin.name

/-- Every plugin is built at most once and only after every plugin it depends on was built; a build is
only tried again after it failed. -/
structure BuildOrder (a : App) : Prop where
  once : ((a.log.filterMap Call.builtPlugin).map Plugin.name).Nodup
  retried : ∀ name, a.log.countP (Call.isBuild name) ≤ a.log.countP (Call.isFailed name) + 1
  after : ∀ pre p, pre ++ [.build p] <+: a.log → ∀ d ∈ p.dependencies,
    ∃ q, .built q ∈ pre ∧ q.name = d

/-- Every plugin that was built is shut down exactly once and before every plugin it depends on. -/
structure ShutdownOrder (a : App) : Prop where
  once : ∀ p, p ∈ a.log.filterMap Call.builtPlugin → p.shutdown = true →
    a.log.count (.shutdown p) = 1
  before : ∀ p q pre, p ∈ a.log.filterMap Call.builtPlugin → p.shutdown = true →
    q.name ∈ p.dependencies → pre ++ [.shutdown q] <+: a.log → .shutdown p ∈ pre
  only : ∀ p, .shutdown p ∈ a.log → p ∈ a.log.filterMap Call.builtPlugin

def Allowed (a : App) : Event → Prop
  | .addPlugin plugin => ∀ waiting ∈ a.ready, waiting.name ≠ plugin.name
  | _ => True

instance (a : App) : ∀ e, Decidable (a.Allowed e)
  | .addPlugin plugin => inferInstanceAs (Decidable (∀ waiting ∈ a.ready, waiting.name ≠ plugin.name))
  | .prepare | .buildReturns _ | .postBuild _ | .running | .teardown => inferInstanceAs (Decidable True)

/-- The plugins, of which the first `n` are built. -/
structure Inv (a : App) (n : Nat) : Prop where
  built : a.log.filterMap Call.builtPlugin = (a.plugins.take n).map RegisteredPlugin.plugin
  distinct : (names a.plugins ++ (a.ready ++ a.pendingPlugins).map Plugin.name).Nodup
  closed : ∀ e ∈ a.plugins, ∀ d ∈ e.plugin.dependencies, d ∈ names a.plugins
  proper : ∀ e ∈ a.plugins, e.plugin.name ∉ e.plugin.dependencies
  ordered : a.plugins.Pairwise fun x y => y.plugin.name ∉ x.plugin.dependencies
  ready : ∀ p ∈ a.ready, ∀ d ∈ p.dependencies, d ∈ names (a.plugins.take n)
  after : ∀ pre p, pre ++ [.build p] <+: a.log → ∀ d ∈ p.dependencies,
    ∃ q, .built q ∈ pre ∧ q.name = d
  calls : ∀ name, a.log.countP (Call.isBuild name) =
    a.log.countP (Call.isFailed name) + (names a.plugins).count name
  fresh : ∀ e ∈ a.plugins, e.shutdownDone = false
  alive : ∀ p, .shutdown p ∉ a.log

variable {a : App} {n : Nat} {p : Plugin}

lemma Inv.init : Inv init 0 where
  built := rfl
  distinct := List.nodup_nil
  closed := by simp [App.init]
  proper := by simp [App.init]
  ordered := List.Pairwise.nil
  ready := by simp [App.init]
  after := by simp [App.init]
  calls := by simp [App.init, names]
  fresh := by simp [App.init]
  alive := by simp [App.init]

lemma Inv.withState (h : Inv a n) (s : State) : Inv { a with state := s } n :=
  ⟨h.built, h.distinct, h.closed, h.proper, h.ordered, h.ready, h.after, h.calls, h.fresh, h.alive⟩

lemma Inv.builtName_iff (h : Inv a n) {d : Name} :
    d ∈ names (a.plugins.take n) ↔ ∃ q, .built q ∈ a.log ∧ q.name = d := by
  have mem : ∀ q, Call.built q ∈ a.log ↔ q ∈ a.log.filterMap Call.builtPlugin := by
    intro q
    rw [List.mem_filterMap]
    constructor
    · exact fun hq => ⟨_, hq, rfl⟩
    · rintro ⟨c, hc, e⟩
      cases c with
      | built q' =>
        cases e
        exact hc
      | _ => cases e
  simp only [mem, h.built, names, List.mem_map]
  constructor
  · rintro ⟨e, he, rfl⟩
    exact ⟨_, ⟨e, he, rfl⟩, rfl⟩
  · rintro ⟨_, ⟨e, he, rfl⟩, rfl⟩
    exact ⟨e, he, rfl⟩

lemma prefix_snoc {pre log : List Call} {c d : Call} (h : pre ++ [c] <+: log ++ [d]) :
    pre ++ [c] <+: log ∨ pre = log ∧ c = d := by
  rcases List.prefix_concat_iff.mp h with h | h
  · obtain ⟨hpre, hc⟩ := List.append_inj' h rfl
    exact Or.inr ⟨hpre, List.head_eq_of_cons_eq hc⟩
  · exact Or.inl h

lemma names_snoc (plugins : List RegisteredPlugin) (e : RegisteredPlugin) :
    names (plugins ++ [e]) = names plugins ++ [e.plugin.name] := by
  rw [names, List.map_append]
  rfl

lemma Inv.push (h : Inv a n) (hn : n = a.plugins.length) {ready : List Plugin}
    (hr : a.ready = p :: ready) : Inv { a with
      plugins := a.plugins ++ [⟨p, false⟩], log := a.log ++ [.build p], ready := ready } n := by
  have deps := h.ready p (hr ▸ List.mem_cons_self)
  have take : a.plugins.take n = a.plugins := by rw [hn, List.take_length]
  have distinct := h.distinct
  rw [hr, List.cons_append, List.map_cons] at distinct
  have fresh : p.name ∉ names a.plugins := fun hm =>
    (List.nodup_append.mp distinct).2.2 _ hm _ List.mem_cons_self rfl
  rw [take] at deps
  constructor
  · have : Call.builtPlugin (.build p) = none := rfl
    rw [List.filterMap_append, List.filterMap_cons, this, List.filterMap_nil, List.append_nil,
      h.built, List.take_append_of_le_length (by omega)]
  · rw [names_snoc, List.append_assoc]
    exact distinct
  · intro e he d hd
    rw [names_snoc]
    apply List.mem_append_left
    rcases List.mem_append.mp he with he | he
    · exact h.closed e he d hd
    · rw [List.mem_singleton.mp he] at hd
      exact deps d hd
  · intro e he
    rcases List.mem_append.mp he with he | he
    · exact h.proper e he
    · rw [List.mem_singleton.mp he]
      exact fun hd => fresh (deps _ hd)
  · refine List.pairwise_append.mpr ⟨h.ordered, List.pairwise_singleton _ _, ?_⟩
    intro x hx y hy hd
    rw [List.mem_singleton.mp hy] at hd
    exact fresh (h.closed x hx _ hd)
  · intro q hq d hd
    have := h.ready q (hr ▸ List.mem_cons_of_mem _ hq) d hd
    rwa [List.take_append_of_le_length (by omega)]
  · intro pre q hpre d hd
    rcases prefix_snoc hpre with hpre | ⟨rfl, e⟩
    · exact h.after pre q hpre d hd
    · cases e
      rw [← take] at deps
      exact h.builtName_iff.mp (deps d hd)
  · intro name
    rw [names_snoc, List.countP_append, List.countP_append, List.count_append, h.calls]
    have hb : [Call.build p].countP (Call.isBuild name) = [p.name].count name := by
      rw [List.countP_singleton, List.count_singleton]
      simp [Call.isBuild]
    have hf : [Call.build p].countP (Call.isFailed name) = 0 := rfl
    rw [hb, hf]
    dsimp only
    omega
  · intro e he
    rcases List.mem_append.mp he with he | he
    · exact h.fresh e he
    · rw [List.mem_singleton.mp he]
  · intro q hq
    rcases List.mem_append.mp hq with hq | hq
    · exact h.alive q hq
    · cases List.mem_singleton.mp hq

lemma Inv.succeed (h : Inv a n) (hn : a.plugins.length = n + 1) {e : RegisteredPlugin}
    (he : a.plugins.getLast? = some e) :
    Inv { a with log := a.log ++ [.built e.plugin] } (n + 1) := by
  have take : a.plugins.take (n + 1) = a.plugins.take n ++ [e] := by
    rw [List.getLast?_eq_getElem?, hn] at he
    rw [List.take_add_one, show a.plugins[n]? = some e from he]
    rfl
  constructor
  · rw [List.filterMap_append, h.built, take, List.map_append]
    rfl
  · exact h.distinct
  · exact h.closed
  · exact h.proper
  · exact h.ordered
  · intro q hq d hd
    show d ∈ names (a.plugins.take (n + 1))
    rw [take, names_snoc]
    exact List.mem_append_left _ (h.ready q hq d hd)
  · intro pre q hpre d hd
    rcases prefix_snoc hpre with hpre | ⟨_, e⟩
    · exact h.after pre q hpre d hd
    · cases e
  · intro name
    rw [List.countP_append, List.countP_append, h.calls]
    rfl
  · exact h.fresh
  · intro q hq
    rcases List.mem_append.mp hq with hq | hq
    · exact h.alive q hq
    · cases List.mem_singleton.mp hq

lemma Inv.fail (h : Inv a n) (hn : a.plugins.length = n + 1) {e : RegisteredPlugin}
    (he : a.plugins.getLast? = some e) : Inv { a with
      plugins := a.plugins.dropLast, state := .created, ready := []
      log := a.log ++ [.failed e.plugin] } n := by
  obtain ⟨init, hinit⟩ : ∃ init, a.plugins = init ++ [e] := by
    obtain ⟨init, h⟩ := List.getLast?_eq_some_iff.mp he
    exact ⟨init, h⟩
  have length : init.length = n := by
    rw [hinit, List.length_append, List.length_singleton] at hn
    omega
  have take : a.plugins.take n = init := by
    rw [hinit, ← length]
    exact List.take_left
  have ordered := h.ordered
  rw [hinit] at ordered
  obtain ⟨ordered, -, last⟩ := List.pairwise_append.mp ordered
  have closed : ∀ x ∈ init, ∀ d ∈ x.plugin.dependencies, d ∈ names init := by
    intro x hx d hd
    have hd' := h.closed x (hinit ▸ List.mem_append_left _ hx) d hd
    rw [hinit, names_snoc] at hd'
    rcases List.mem_append.mp hd' with hd' | hd'
    · exact hd'
    · rw [List.mem_singleton.mp hd'] at hd
      exact absurd hd (last x hx e List.mem_cons_self)
  have distinct := h.distinct
  rw [hinit, names_snoc, List.append_assoc, List.map_append] at distinct
  have dropLast : a.plugins.dropLast = init := by
    rw [hinit, List.dropLast_concat]
  rw [dropLast]
  constructor
  · rw [List.filterMap_append, h.built, take]
    show _ = List.map _ (init.take n)
    rw [← length, List.take_length]
    exact List.append_nil _
  · refine List.Nodup.sublist (List.Sublist.append_left ?_ _) distinct
    exact ((List.sublist_append_right _ _).trans (List.sublist_append_right _ _))
  · exact closed
  · exact fun x hx => h.proper x (hinit ▸ List.mem_append_left _ hx)
  · exact ordered
  · intro q hq
    cases hq
  · intro pre q hpre d hd
    rcases prefix_snoc hpre with hpre | ⟨_, e⟩
    · exact h.after pre q hpre d hd
    · cases e
  · intro name
    rw [List.countP_append, List.countP_append, h.calls, hinit, names_snoc, List.count_append]
    have hb : [Call.failed e.plugin].countP (Call.isBuild name) = 0 := rfl
    have hf : [Call.failed e.plugin].countP (Call.isFailed name) = [e.plugin.name].count name := by
      rw [List.countP_singleton, List.count_singleton]
      simp [Call.isFailed]
    rw [hb, hf]
    show _ = _ + (names init).count name
    omega
  · exact fun x hx => h.fresh x (hinit ▸ List.mem_append_left _ hx)
  · intro q hq
    rcases List.mem_append.mp hq with hq | hq
    · exact h.alive q hq
    · cases List.mem_singleton.mp hq

lemma Inv.buildReady : ∀ {ready : List Plugin} {a a' : App} {running : Bool},
    Inv { a with ready := ready } a.plugins.length → buildReady ready a = (a', running) →
      a'.state = a.state ∧ a'.pendingPlugins = a.pendingPlugins ∧
        ∃ n, Inv a' n ∧ a'.plugins.length = n + running.toNat ∧ (running = false → a'.ready = []) := by
  intro ready
  induction ready with
  | nil =>
    intro a a' running h e
    cases e
    exact ⟨rfl, rfl, _, h, rfl, fun _ => rfl⟩
  | cons entry ready ih =>
    intro a a' running h e
    unfold App.buildReady at e
    have pushed := h.push rfl rfl
    split at e
    · cases e
      exact ⟨rfl, rfl, _, pushed, by simp, fun h => by cases h⟩
    · have built := pushed.succeed (by simp) (e := ⟨entry, false⟩) (by simp)
      obtain ⟨hs, hp, hn⟩ := ih (by simpa using built) e
      exact ⟨hs, hp, hn⟩

lemma hasPlugin_iff {name : Name} : a.hasPlugin name = true ↔ name ∈ names a.plugins := by
  simp [App.hasPlugin, names]

lemma Inv.collect (h : Inv a a.plugins.length) (idle : a.ready = []) : Inv { a with
    ready := a.pendingPlugins.filter a.pluginDependenciesSatisfied
    pendingPlugins := a.pendingPlugins.filter (not ∘ a.pluginDependenciesSatisfied) }
      a.plugins.length := by
  refine { h with distinct := ?_, ready := ?_ }
  · have distinct := h.distinct
    rw [idle, List.nil_append] at distinct
    refine (List.Perm.nodup_iff (List.Perm.append_left _ (List.Perm.map _ ?_))).mpr distinct
    exact List.filter_append_perm _ _
  · intro p hp d hd
    rw [List.take_length]
    have satisfied := List.of_mem_filter hp
    exact hasPlugin_iff.mp (List.all_eq_true.mp satisfied d hd)

lemma Inv.drainLoop : ∀ {turns : Nat} {a a' : App} {result : Option AddPluginResult},
    Inv a a.plugins.length → a.state = .building → a.ready = [] →
      a.pendingPlugins.length < turns → drainLoop turns a = (a', result) →
        ∃ n, Inv a' n ∧ ((a'.state = .building ∧ a'.plugins.length = n + 1) ∨
          (a'.state = .created ∧ a'.plugins.length = n ∧ a'.ready = [])) := by
  intro turns
  induction turns with
  | zero =>
    intro _ _ _ _ _ _ lt
    omega
  | succ turns ih =>
    intro a a' result h building idle lt e
    unfold App.drainLoop at e
    split at e
    · cases e
      exact ⟨_, h.withState _, Or.inr ⟨rfl, rfl, idle⟩⟩
    · split at e
      rename_i ready pending hsplit
      split at e
      · cases e
        exact ⟨_, h.withState _, Or.inr ⟨rfl, rfl, idle⟩⟩
      · rename_i hne
        rw [List.partition_eq_filter_filter] at hsplit
        obtain ⟨hready, hpending⟩ := Prod.mk.inj hsplit
        have fewer : pending.length + ready.length = a.pendingPlugins.length := by
          rw [← hready, ← hpending, Nat.add_comm, ← List.length_append]
          exact (List.filter_append_perm _ _).length_eq
        have batch := h.collect idle
        rw [hready, hpending] at batch
        cases hb : App.buildReady ready { a with pendingPlugins := pending } with
        | mk a₁ running =>
          obtain ⟨hs, hp, n, h₁, hn, idle₁⟩ := Inv.buildReady (a := { a with pendingPlugins := pending })
            batch hb
          rw [hb] at e
          cases running with
          | true =>
            cases e
            exact ⟨n, h₁, Or.inl ⟨hs.trans building, hn⟩⟩
          | false =>
            obtain rfl : a₁.plugins.length = n := hn
            have pos := List.length_pos_iff.mpr hne
            exact ih h₁ (hs.trans building) (idle₁ rfl) (by rw [hp]; dsimp only; omega) e

inductive Ordered (a : App) : Prop where
  | building {n : Nat} (inv : Inv a n) (state : a.state = .building)
      (length : a.plugins.length = n + 1)
  | idle (inv : Inv a a.plugins.length) (state : a.state ≠ .building ∧ a.state ≠ .shutdown)
      (ready : a.ready = [])
  | down (state : a.state = .shutdown) (order : BuildOrder a) (shutdown : ShutdownOrder a)

lemma Ordered.of_drain {n : Nat} (h : Inv a n) (hn : (a.state = .building ∧ a.plugins.length = n + 1) ∨
    (a.state = .created ∧ a.plugins.length = n ∧ a.ready = [])) : Ordered a := by
  rcases hn with ⟨hs, hn⟩ | ⟨hs, rfl, hr⟩
  · exact .building h hs hn
  · exact .idle h (by simp [hs]) hr

lemma Inv.buildOrder (h : Inv a n) : BuildOrder a where
  once := by
    have := (List.nodup_append.mp h.distinct).1
    rw [h.built, List.map_map]
    exact this.sublist (List.Sublist.map _ (List.take_sublist _ _))
  retried := by
    intro name
    have := List.nodup_iff_count_le_one.mp (List.nodup_append.mp h.distinct).1 name
    rw [h.calls]
    omega
  after := h.after

lemma Ordered.drain (h : Inv a a.plugins.length) (state : a.state ≠ .building) (idle : a.ready = []) :
    Ordered a.drainPendingPlugins.1 := by
  unfold App.drainPendingPlugins
  rw [if_neg state]
  obtain ⟨n, h', hn⟩ := Inv.drainLoop (h.withState .building) rfl idle (Nat.lt_succ_self _) rfl
  exact .of_drain h' hn

lemma Inv.pend (h : Inv a n) (hp : p.name ∉ names a.plugins)
    (hr : ∀ waiting ∈ a.ready, waiting.name ≠ p.name)
    (hq : ∀ q ∈ a.pendingPlugins, q.name ≠ p.name) :
    Inv { a with pendingPlugins := a.pendingPlugins ++ [p] } n := by
  refine { h with distinct := ?_ }
  rw [← List.append_assoc, List.map_append, ← List.append_assoc]
  refine List.nodup_append.mpr ⟨h.distinct, List.nodup_singleton _, ?_⟩
  intro x hx y hy e
  rw [List.mem_singleton.mp hy] at e
  rcases List.mem_append.mp hx with hx | hx
  · exact hp (e ▸ hx)
  · obtain ⟨q, hq', rfl⟩ := List.mem_map.mp hx
    rcases List.mem_append.mp hq' with hq' | hq'
    · exact hr q hq' e
    · exact hq q hq' e

lemma Ordered.addPlugin (h : Ordered a) (allowed : a.Allowed (.addPlugin p)) :
    Ordered (a.addPlugin p).1 := by
  unfold App.addPlugin
  split
  · exact h
  · rename_i hstate
    cases hv : a.validatePlugin p with
    | ok =>
      unfold App.validatePlugin at hv
      split at hv
      · cases hv
      · split at hv
        · cases hv
        · rename_i hnew
          simp only [Bool.or_eq_true, not_or] at hnew
          obtain ⟨hplugins, hpending⟩ := hnew
          rw [hasPlugin_iff] at hplugins
          have hpending' : ∀ q ∈ a.pendingPlugins, q.name ≠ p.name := by
            intro q hq e
            exact hpending (List.any_eq_true.mpr ⟨q, hq, decide_eq_true e⟩)
          dsimp only
          cases h with
          | building inv state length =>
            rw [if_pos state]
            exact .building (inv.pend hplugins allowed hpending') state length
          | idle inv state ready =>
            rw [if_neg state.1]
            have inv' := inv.pend hplugins allowed hpending'
            split
            · exact .drain inv' state.1 ready
            · exact .idle inv' state ready
          | down state => exact absurd (by simp [state]) hstate
    | _ => exact h

lemma shutdownPlugins_fresh : ∀ {plugins : List RegisteredPlugin},
    (∀ e ∈ plugins, e.shutdownDone = false) → shutdownPlugins plugins =
      (((plugins.map RegisteredPlugin.plugin).reverse).filter Plugin.shutdown).map Call.shutdown := by
  intro plugins
  induction plugins with
  | nil => exact fun _ => rfl
  | cons e plugins ih =>
    intro fresh
    have he := fresh e List.mem_cons_self
    have ih := ih fun x hx => fresh x (List.mem_cons_of_mem _ hx)
    unfold App.shutdownPlugins at ih ⊢
    rw [List.reverse_cons, List.filterMap_append, ih, List.map_cons, List.reverse_cons,
      List.filter_append, List.map_append]
    congr 1
    cases hs : e.plugin.shutdown <;> simp [he, hs]

lemma prefix_append_inv {pre log rest : List Call} {c : Call} (h : pre ++ [c] <+: log ++ rest) :
    pre ++ [c] <+: log ∨ ∃ pre', pre = log ++ pre' ∧ pre' ++ [c] <+: rest := by
  rcases List.prefix_or_prefix_of_prefix h (List.prefix_append log rest) with hl | hl
  · exact Or.inl hl
  · rcases List.prefix_concat_iff.mp hl with hl | ⟨pre', rfl⟩
    · exact Or.inl (hl ▸ List.prefix_refl _)
    · rw [List.append_assoc] at h
      exact Or.inr ⟨pre', rfl, (List.prefix_append_right_inj log).mp h⟩

lemma Inv.teardown (h : Inv a a.plugins.length) (state : a.state ≠ .shutdown) :
    Ordered a.teardown := by
  have log : a.teardown.log = a.log ++ ((a.plugins.map RegisteredPlugin.plugin).reverse.filter
      Plugin.shutdown).map Call.shutdown := by
    unfold App.teardown
    rw [if_neg state, ← shutdownPlugins_fresh h.fresh]
  set plugins := a.plugins.map RegisteredPlugin.plugin with hplugins
  set callbacks := (plugins.reverse.filter Plugin.shutdown).map Call.shutdown with hcallbacks
  have mem : ∀ c, c ∈ callbacks ↔ ∃ p ∈ plugins, p.shutdown = true ∧ c = .shutdown p := by
    intro c
    simp only [hcallbacks, List.mem_map, List.mem_filter, List.mem_reverse]
    constructor
    · rintro ⟨p, ⟨hp, hs⟩, rfl⟩
      exact ⟨p, hp, hs, rfl⟩
    · rintro ⟨p, hp, hs, rfl⟩
      exact ⟨p, ⟨hp, hs⟩, rfl⟩
  have builtNone : callbacks.filterMap Call.builtPlugin = [] := by
    refine List.filterMap_eq_nil_iff.mpr fun c hc => ?_
    obtain ⟨p, _, _, rfl⟩ := (mem c).mp hc
    rfl
  have built : a.teardown.log.filterMap Call.builtPlugin = plugins := by
    rw [log, List.filterMap_append, builtNone, List.append_nil, h.built, List.take_length]
  have countNone : ∀ f : Call → Bool, (∀ p, f (.shutdown p) = false) → callbacks.countP f = 0 := by
    intro f hf
    refine List.countP_eq_zero.mpr fun c hc => ?_
    obtain ⟨p, _, _, rfl⟩ := (mem c).mp hc
    simp [hf]
  have nodup : plugins.Nodup := by
    refine List.Nodup.of_map Plugin.name ?_
    rw [hplugins, List.map_map]
    exact (List.nodup_append.mp h.distinct).1
  have proper : ∀ p ∈ plugins, p.name ∉ p.dependencies := by
    intro p hp
    obtain ⟨e, he, rfl⟩ := List.mem_map.mp hp
    exact h.proper e he
  have order : callbacks.Pairwise fun c d => ∀ q p, c = .shutdown q → d = .shutdown p →
      q.name ∉ p.dependencies := by
    rw [hcallbacks, List.pairwise_map]
    refine List.Pairwise.filter _ (List.pairwise_reverse.mpr ?_)
    rw [hplugins, List.pairwise_map]
    refine h.ordered.imp fun hxy q p hq hp => ?_
    cases hq
    cases hp
    exact hxy
  have buildOrder := h.buildOrder
  refine .down ?_ ⟨?_, ?_, ?_⟩ ⟨?_, ?_, ?_⟩
  · unfold App.teardown
    rw [if_neg state]
  · rw [built]
    have := buildOrder.once
    rwa [h.built, List.take_length] at this
  · intro name
    have := buildOrder.retried name
    rw [log, List.countP_append, List.countP_append, countNone _ fun _ => rfl,
      countNone _ fun _ => rfl]
    exact this
  · intro pre p hpre d hd
    rw [log] at hpre
    rcases prefix_append_inv hpre with hold | ⟨pre', _, hnew⟩
    · exact h.after pre p hold d hd
    · obtain ⟨q, _, _, e⟩ := (mem (.build p)).mp (hnew.subset (by simp))
      cases e
  · intro p hp hs
    rw [built] at hp
    rw [log, List.count_append, List.count_eq_zero.mpr (h.alive p), Nat.zero_add]
    refine List.count_eq_one_of_mem ?_ ((mem _).mpr ⟨p, hp, hs, rfl⟩)
    refine List.Nodup.map (fun x y e => by cases e; rfl) ?_
    exact (List.nodup_reverse.mpr nodup).filter _
  · intro p q pre hp hs hd hpre
    rw [built] at hp
    rw [log] at hpre
    obtain ⟨pre', rfl, ⟨rest, hrest⟩⟩ := (prefix_append_inv hpre).resolve_left fun hold =>
      h.alive q (hold.subset (by simp))
    have hin : Call.shutdown p ∈ pre' ++ [Call.shutdown q] ++ rest :=
      hrest ▸ (mem _).mpr ⟨p, hp, hs, rfl⟩
    rw [← hrest, List.append_assoc] at order
    obtain ⟨-, order, -⟩ := List.pairwise_append.mp order
    rw [List.append_assoc] at hin
    rcases List.mem_append.mp hin with hin | hin
    · exact List.mem_append_right _ hin
    · rcases List.mem_cons.mp hin with e | hin
      · -- the plugin would depend on itself
        cases e
        exact absurd hd (proper p hp)
      · -- the dependency was built later
        exact absurd hd ((List.pairwise_cons.mp order).1 _ hin q p rfl rfl)
  · intro p hp
    rw [log] at hp
    rw [built]
    rcases List.mem_append.mp hp with hp | hp
    · exact absurd hp (h.alive p)
    · obtain ⟨q, hq, _, e⟩ := (mem _).mp hp
      cases e
      exact hq

/-- **One event.** -/
theorem Ordered.step {a' : App} {e : Event} (h : Ordered a) (allowed : a.Allowed e)
    (he : a.step e = some a') : Ordered a' := by
  cases e with
  | addPlugin p =>
    cases he
    exact h.addPlugin allowed
  | prepare =>
    cases he
    split
    · rename_i hs
      cases h with
      | building inv state length => exact absurd (hs.symm.trans state) (by simp)
      | idle inv state ready => exact .drain inv state.1 ready
      | down state => exact absurd (hs.symm.trans state) (by simp)
    · exact h
  | buildReturns result =>
    unfold App.step at he
    dsimp only at he
    split at he
    · rename_i hs
      cases he
      cases h with
      | idle inv state => exact absurd hs state.1
      | down state => exact absurd (hs.symm.trans state) (by simp)
      | @building n inv state length =>
        unfold App.buildReturns
        split
        · rename_i hnone
          rw [List.getLast?_eq_none_iff.mp hnone] at length
          cases length
        · rename_i built hlast
          split
          · have failed := inv.fail length hlast
            refine .idle ?_ (by simp) rfl
            rw [show (a.plugins.dropLast).length = n by rw [List.length_dropLast, length]; rfl]
            exact failed
          · have ok := inv.succeed length hlast
            cases hb : App.buildReady a.ready { a with log := a.log ++ [.built built.plugin] } with
            | mk a₁ running =>
              obtain ⟨hs₁, _, m, h₁, hm, idle₁⟩ := Inv.buildReady (by
                dsimp only
                rw [length]
                exact ok) hb
              cases running with
              | true => exact .building h₁ (hs₁.trans state) hm
              | false =>
                obtain rfl : a₁.plugins.length = m := hm
                obtain ⟨k, h₂, hk⟩ := Inv.drainLoop h₁ (hs₁.trans state) (idle₁ rfl)
                  (Nat.lt_succ_self _) rfl
                exact .of_drain h₂ hk
    · cases he
  | postBuild result =>
    unfold App.step at he
    dsimp only at he
    split at he
    · rename_i hs
      cases he
      cases h with
      | building inv state length => exact absurd (hs.symm.trans state) (by simp)
      | idle inv state ready =>
        refine .idle (inv.withState _) ?_ ready
        dsimp only
        split <;> simp
      | down state => exact absurd (hs.symm.trans state) (by simp)
    · cases he
  | running =>
    unfold App.step at he
    dsimp only at he
    split at he
    · rename_i hs
      cases he
      cases h with
      | building inv state length => exact absurd (hs.symm.trans state) (by simp)
      | idle inv state ready => exact .idle (inv.withState _) (by simp) ready
      | down state => exact absurd (hs.symm.trans state) (by simp)
    · cases he
  | teardown =>
    unfold App.step at he
    dsimp only at he
    split at he
    · rename_i hs
      cases he
      cases h with
      | building inv state length => exact absurd state hs
      | idle inv state ready => exact inv.teardown state.2
      | down state order shutdown =>
        unfold App.teardown
        rw [if_pos state]
        exact .down state order shutdown
    · cases he

lemma Ordered.buildOrder (h : Ordered a) : BuildOrder a := by
  cases h with
  | building inv => exact inv.buildOrder
  | idle inv => exact inv.buildOrder
  | down _ order => exact order

/-- **Build and shutdown order.** In every run in which no build callback adds a plugin under the name of
one that waits in the batch, every plugin is built at most once and after those it depends on, and at
teardown every plugin that was built is shut down exactly once and before those it depends on. -/
theorem build_shutdown_order (events : List Event) (a : App)
    (allowed : Along step Allowed init events) (e : run step init events = some a) :
    BuildOrder a ∧ (a.state = .shutdown → ShutdownOrder a) := by
  have h : Ordered a := allowed.invariant (I := Ordered)
    (fun a e a' h allowed he => h.step allowed he) (.idle .init (by simp [App.init]) rfl) e
  refine ⟨h.buildOrder, fun hs => ?_⟩
  cases h with
  | building inv state => exact absurd (hs.symm.trans state) (by simp)
  | idle inv state => exact absurd hs state.2
  | down state order shutdown => exact shutdown

def quiet (name : Name) (dependencies : List Name) : Plugin :=
  ⟨name, false, false, true, dependencies⟩

def loud (name : Name) (dependencies : List Name) : Plugin :=
  ⟨name, true, false, true, dependencies⟩

def addsAnother (name : Name) : List Event :=
  [.addPlugin (loud ['a'] [['z']]), .addPlugin (quiet ['b'] [['z']]),
    .addPlugin (quiet ['c'] [['b']]), .addPlugin (quiet ['z'] []),
    .addPlugin (quiet name [['a']]), .buildReturns .ok, .teardown]

/-- Another name. -/
theorem build_shutdown_order_addsAnother : ∃ a, run step init (addsAnother ['d']) = some a ∧
    (a.log.filterMap Call.builtPlugin).map Plugin.name = [['z'], ['a'], ['b'], ['c'], ['d']] ∧
    BuildOrder a ∧ ShutdownOrder a := by
  obtain ⟨a, ha⟩ : ∃ a, run step init (addsAnother ['d']) = some a := ⟨_, rfl⟩
  have order := build_shutdown_order (addsAnother ['d']) a (by decide) ha
  refine ⟨a, ha, ?_, order.1, order.2 ?_⟩
  · cases ha
    decide
  · cases ha
    decide

/-- The name of the plugin that waits: it is built twice. -/
theorem not_build_shutdown_order : ¬ ∀ a, run step init (addsAnother ['b']) = some a →
    BuildOrder a ∧ (a.state = .shutdown → ShutdownOrder a) := by
  intro law
  have twice : ∀ a ∈ run step init (addsAnother ['b']),
      ¬ ((a.log.filterMap Call.builtPlugin).map Plugin.name).Nodup := by
    decide
  exact twice _ rfl (law _ rfl).1.once

end App

end PulseEngine.Application
