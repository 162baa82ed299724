import PulseEngine.Application.Prepare

/-!
# Post-build callbacks

How often `prepare` calls the post-build callbacks of the apps of a tree. `post_build` calls those of the
subapps as well, and `prepare` prepares the subapps afterwards, so that a plugin of a subapp that was
built before is called once more for every app above it. Every plugin is called exactly once when
only the root has such plugins before it is prepared.
-/

namespace PulseEngine.Application

section Rel

variable {α β γ δ : Type*} {R : α → β → Prop} {S : γ → δ → Prop}

lemma rel_mono {R' : α → β → Prop} (h : ∀ x y, R x y → R' x y) {o : Option α} {o' : Option β}
    (r : Option.Rel R o o') : Option.Rel R' o o' := by
  cases r with
  | some r => exact .some (h _ _ r)
  | none => exact .none

lemma rel_refl {R : α → α → Prop} (h : ∀ x, R x x) (o : Option α) : Option.Rel R o o := by
  cases o with
  | some x => exact .some (h x)
  | none => exact .none

lemma rel_bind {f : α → Option γ} {g : β → Option δ} {o : Option α} {o' : Option β}
    (r : Option.Rel R o o') (h : ∀ x y, R x y → Option.Rel S (f x) (g y)) :
    Option.Rel S (o.bind f) (o'.bind g) := by
  cases r with
  | some r => exact h _ _ r
  | none => exact .none

lemma rel_comp {S : β → γ → Prop} {T : α → γ → Prop} {o : Option α} {o' : Option β}
    {o'' : Option γ} (r : Option.Rel R o o') (s : Option.Rel S o' o'')
    (h : ∀ x y z, R x y → S y z → T x z) : Option.Rel T o o'' := by
  cases r with
  | some r =>
    cases s with
    | some s => exact .some (h _ _ _ r s)
  | none =>
    cases s with
    | none => exact .none

end Rel

namespace App

variable {a b c : App}

structure Grown (a b : App) : Prop where
  plugins : a.plugins <+: b.plugins
  log : ∃ calls, b.log = a.log ++ calls ∧ ∀ i, .postBuild i ∉ calls

lemma Grown.refl (a : App) : Grown a a := ⟨List.prefix_rfl, [], by simp, by simp⟩

lemma Grown.trans (h : Grown a b) (h' : Grown b c) : Grown a c := by
  obtain ⟨calls, hlog, hno⟩ := h.log
  obtain ⟨calls', hlog', hno'⟩ := h'.log
  refine ⟨h.plugins.trans h'.plugins, calls ++ calls', ?_, fun i hi => ?_⟩
  · rw [hlog', hlog, List.append_assoc]
  · rcases List.mem_append.mp hi with hi | hi
    · exact hno i hi
    · exact hno' i hi

def Draining (a : App) : App × Option AddPluginResult → Prop
  | (b, none) => Grown a b ∧ b.state = .building ∧ a.plugins.length < b.plugins.length
  | (b, some result) => Grown a b ∧ b.state = .created ∧ (result = .ok → b.pendingPlugins = [])

lemma Grown.push (a : App) (p : Plugin) (ready : List Plugin) : Grown a { a with
    plugins := a.plugins ++ [⟨p, false⟩], log := a.log ++ [.build p], ready := ready } :=
  ⟨List.prefix_append _ _, [.build p], rfl, by simp⟩

lemma Grown.buildReady : ∀ {ready : List Plugin} {a b : App} {running : Bool},
    buildReady ready a = (b, running) → Grown a b ∧ b.state = a.state ∧
      b.pendingPlugins = a.pendingPlugins ∧
      (running = true → a.plugins.length < b.plugins.length) := by
  intro ready
  induction ready with
  | nil =>
    intro a b running e
    cases e
    exact ⟨⟨List.prefix_rfl, [], by simp, by simp⟩, rfl, rfl, fun h => by cases h⟩
  | cons entry ready ih =>
    intro a b running e
    unfold App.buildReady at e
    split at e
    · cases e
      exact ⟨.push a entry ready, rfl, rfl, fun _ => by simp⟩
    · obtain ⟨grown, state, pending, longer⟩ := ih e
      have built : Grown a { a with
          plugins := a.plugins ++ [⟨entry, false⟩], log := a.log ++ [.build entry] ++ [.built entry] } :=
        ⟨List.prefix_append _ _, [.build entry, .built entry], by simp, by simp⟩
      refine ⟨built.trans grown, state, pending, fun hr => ?_⟩
      have := longer hr
      rw [List.length_append] at this
      omega

lemma Draining.drainLoop : ∀ {turns : Nat} {b : App}, Grown a b → b.state = .building →
    b.pendingPlugins.length < turns → Draining a (drainLoop turns b) := by
  intro turns
  induction turns with
  | zero =>
    intro _ _ _ lt
    omega
  | succ turns ih =>
    intro b grown building lt
    unfold App.drainLoop
    split
    · rename_i hnil
      exact ⟨⟨grown.plugins, grown.log⟩, rfl, fun _ => hnil⟩
    · rw [List.partition_eq_filter_filter]
      dsimp only
      split
      · refine ⟨⟨grown.plugins, grown.log⟩, rfl, fun h => ?_⟩
        split at h <;> cases h
      · rename_i hne
        have fewer : (b.pendingPlugins.filter (not ∘ b.pluginDependenciesSatisfied)).length <
            b.pendingPlugins.length := by
          have : (b.pendingPlugins.filter b.pluginDependenciesSatisfied ++
              b.pendingPlugins.filter (not ∘ b.pluginDependenciesSatisfied)).length =
                b.pendingPlugins.length := (List.filter_append_perm _ _).length_eq
          rw [List.length_append] at this
          have := List.length_pos_iff.mpr hne
          omega
        split
        · rename_i c hc
          obtain ⟨grown', state, _, longer⟩ := Grown.buildReady hc
          refine ⟨grown.trans ⟨grown'.plugins, grown'.log⟩, state.trans building, ?_⟩
          exact lt_of_le_of_lt grown.plugins.length_le (longer rfl)
        · rename_i c hc
          obtain ⟨grown', state, pending, _⟩ := Grown.buildReady hc
          refine ih (grown.trans ⟨grown'.plugins, grown'.log⟩) (state.trans building) ?_
          rw [pending]
          dsimp only
          omega

lemma Draining.addPlugin {p : Plugin} (h : Draining a (b, none)) :
    Draining a ((b.addPlugin p).1, none) := by
  obtain ⟨grown, building, longer⟩ := h
  unfold App.addPlugin
  split
  · exact ⟨grown, building, longer⟩
  · split
    · dsimp only
      rw [if_pos building]
      exact ⟨⟨grown.plugins, grown.log⟩, building, longer⟩
    · exact ⟨grown, building, longer⟩

lemma Draining.buildReturns {result : PluginBuildResult} (h : Draining a (b, none)) :
    Draining a (b.buildReturns result) := by
  obtain ⟨grown, building, longer⟩ := h
  unfold App.buildReturns
  split
  · exact ⟨grown, building, longer⟩
  · rename_i built hlast
    split
    · -- the plugin that failed is not one of those that were there before
      obtain ⟨calls, hlog, hno⟩ := grown.log
      refine ⟨⟨?_, calls ++ [.failed built.plugin], ?_, ?_⟩, rfl, fun h => ?_⟩
      · obtain ⟨more, hmore⟩ := grown.plugins
        have hne : more ≠ [] := by
          rintro rfl
          rw [List.append_nil] at hmore
          rw [hmore] at longer
          omega
        rw [← hmore, List.dropLast_append_of_ne_nil hne]
        exact List.prefix_append _ _
      · rw [hlog, List.append_assoc]
      · intro i hi
        rcases List.mem_append.mp hi with hi | hi
        · exact hno i hi
        · cases List.mem_singleton.mp hi
      · cases result <;> contradiction
    · have ok : Grown b { b with log := b.log ++ [.built built.plugin] } :=
        ⟨List.prefix_rfl, [.built built.plugin], rfl, by simp⟩
      split
      · rename_i c hc
        obtain ⟨grown', state, _, longer'⟩ := Grown.buildReady hc
        exact ⟨grown.trans (ok.trans grown'), state.trans building,
          longer.trans (longer' rfl)⟩
      · rename_i c hc
        obtain ⟨grown', state, _, _⟩ := Grown.buildReady hc
        exact .drainLoop (grown.trans (ok.trans grown')) (state.trans building)
          (Nat.lt_succ_self _)

lemma Draining.start (a : App) (state : a.state = .created) : Draining a a.drainPendingPlugins := by
  unfold App.drainPendingPlugins
  rw [if_neg (by simp [state])]
  exact .drainLoop ⟨List.prefix_rfl, [], by simp, by simp⟩ rfl (Nat.lt_succ_self _)

lemma Draining.finish : ∀ {callbacks : List Callback} {s : App × Option AddPluginResult}
    {result : AddPluginResult} {rest : List Callback}, Draining a s →
      finishDrain callbacks s = some (b, result, rest) →
        Grown a b ∧ b.state = .created ∧ (result = .ok → b.pendingPlugins = []) := by
  intro callbacks
  induction callbacks with
  | nil =>
    rintro ⟨c, _ | r⟩ result rest h e
    · cases e
    · cases e
      exact h
  | cons callback callbacks ih =>
    rintro ⟨c, _ | r⟩ result rest h e
    · cases callback with
      | addPlugin p => exact ih h.addPlugin e
      | buildReturns r => exact ih h.buildReturns e
      | postBuildReturns r => cases e
    · cases e
      exact h

def postBuildCalls : List Plugin → Nat → List Call
  | [], _ => []
  | plugin :: plugins, index =>
    if plugin.postBuild then .postBuild index :: postBuildCalls plugins (index + 1)
    else postBuildCalls plugins (index + 1)

def callbacks (a : App) : List Call := postBuildCalls (a.plugins.map RegisteredPlugin.plugin) 0

lemma mem_postBuildCalls : ∀ {plugins : List Plugin} {index : Nat} {c : Call},
    c ∈ postBuildCalls plugins index ↔
      ∃ k p, plugins[k]? = some p ∧ p.postBuild = true ∧ c = .postBuild (index + k) := by
  intro plugins
  induction plugins with
  | nil =>
    intro index c
    simp [postBuildCalls]
  | cons plugin plugins ih =>
    intro index c
    have shift : c ∈ postBuildCalls plugins (index + 1) ↔ ∃ k p, (plugin :: plugins)[k + 1]? = some p ∧
        p.postBuild = true ∧ c = .postBuild (index + (k + 1)) := by
      rw [ih]
      simp only [List.getElem?_cons_succ, Nat.add_assoc, Nat.add_comm 1]
    unfold App.postBuildCalls
    split
    · rename_i hp
      rw [List.mem_cons, shift]
      constructor
      · rintro (rfl | ⟨k, h⟩)
        · exact ⟨0, plugin, rfl, hp, rfl⟩
        · exact ⟨k + 1, h⟩
      · rintro ⟨k, p, hk, h⟩
        cases k with
        | zero => exact Or.inl h.2
        | succ k => exact Or.inr ⟨k, p, hk, h⟩
    · rename_i hp
      rw [shift]
      constructor
      · rintro ⟨k, h⟩
        exact ⟨k + 1, h⟩
      · rintro ⟨k, p, hk, h⟩
        cases k with
        | zero =>
          cases hk
          exact absurd h.1 hp
        | succ k => exact ⟨k, p, hk, h⟩

lemma nodup_postBuildCalls : ∀ {plugins : List Plugin} {index : Nat},
    (postBuildCalls plugins index).Nodup := by
  intro plugins
  induction plugins with
  | nil => exact fun {_} => List.nodup_nil
  | cons plugin plugins ih =>
    intro index
    unfold App.postBuildCalls
    split
    · refine List.nodup_cons.mpr ⟨fun h => ?_, ih⟩
      obtain ⟨k, _, _, _, e⟩ := mem_postBuildCalls.mp h
      have := Call.postBuild.inj e
      omega
    · exact ih

lemma postBuildCalls_subset {plugins plugins' : List Plugin} (h : plugins <+: plugins') :
    postBuildCalls plugins 0 ⊆ postBuildCalls plugins' 0 := by
  intro c hc
  obtain ⟨k, p, hk, hp, e⟩ := mem_postBuildCalls.mp hc
  refine mem_postBuildCalls.mpr ⟨k, p, ?_, hp, e⟩
  obtain ⟨more, rfl⟩ := h
  rw [List.getElem?_append_left (List.getElem?_eq_some_iff.mp hk).1, hk]

lemma postBuildPlugins_inv : ∀ {plugins : List Plugin} {index : Nat} {a b : App}
    {callbacks rest : List Callback} {result : PrepareResult},
    postBuildPlugins plugins index a callbacks = some (b, result, rest) →
      ∃ calls, calls <+: postBuildCalls plugins index ∧ b = { a with log := a.log ++ calls } ∧
        (result = .ok → calls = postBuildCalls plugins index) := by
  intro plugins
  induction plugins with
  | nil =>
    intro index a b callbacks rest result e
    cases e
    exact ⟨[], List.prefix_rfl, by simp, fun _ => rfl⟩
  | cons plugin plugins ih =>
    intro index a b callbacks rest result e
    unfold App.postBuildPlugins at e
    unfold App.postBuildCalls
    split at e
    · rename_i hp
      rw [if_pos hp]
      split at e
      · split at e
        · cases e
          exact ⟨[.postBuild index], by simp, rfl, fun h => by cases h⟩
        · obtain ⟨calls, hcalls, rfl, hok⟩ := ih e
          refine ⟨.postBuild index :: calls, ?_, ?_, fun h => ?_⟩
          · exact (List.prefix_cons_inj _).mpr hcalls
          · simp
          · rw [hok h]
      · cases e
    · rename_i hp
      rw [if_neg hp]
      exact ih e

/-- What `post_build` does to an app. -/
structure PostBuilt (result : PrepareResult) (a b : App) : Prop where
  plugins : b.plugins = a.plugins
  pending : b.pendingPlugins = a.pendingPlugins
  log : ∃ calls, calls <+: a.callbacks ∧ b.log = a.log ++ calls ∧
    (result = .ok → calls = a.callbacks)

lemma PostBuilt.weaken {result r : PrepareResult} (h : PostBuilt r a b)
    (le : result = .ok → r = .ok) : PostBuilt result a b := by
  obtain ⟨calls, hcalls, hlog, hall⟩ := h.log
  exact ⟨h.plugins, h.pending, calls, hcalls, hlog, fun hr => hall (le hr)⟩

end App

namespace Tree

variable {a b : App} {t t' : Tree} {ts ts' : List Tree} {result : PrepareResult}
  {callbacks rest : List Callback}

open App (PostBuilt)

lemma postBuild_inv (e : (node a ts).postBuild callbacks = some (t', result, rest)) :
    ∃ b ts', t' = node b ts' ∧ PostBuilt result a b ∧ ((result ≠ .ok ∧ ts' = ts) ∨
      ∃ callbacks rest, postBuildSubapps ts callbacks = some (ts', result, rest)) := by
  unfold Tree.postBuild at e
  simp only [Option.bind_eq_bind, Option.bind_eq_some_iff] at e
  obtain ⟨⟨a₁, r₁, cs₁⟩, e₁, e⟩ := e
  obtain ⟨calls, hcalls, rfl, hok⟩ := App.postBuildPlugins_inv e₁
  dsimp only at e
  split at e
  · rename_i hr
    cases e
    exact ⟨_, ts, rfl, ⟨rfl, rfl, calls, hcalls, rfl, hok⟩, Or.inl ⟨hr, rfl⟩⟩
  · rename_i hr
    have hr := not_not.mp hr
    simp only [Option.bind_eq_some_iff] at e
    obtain ⟨⟨ts₂, r₂, cs₂⟩, e₂, e⟩ := e
    dsimp only at e
    split at e
    · cases e
      exact ⟨_, ts₂, rfl, ⟨rfl, rfl, calls, hcalls, rfl, fun _ => hok hr⟩, Or.inr ⟨_, _, e₂⟩⟩
    · rename_i hr₂
      have hr₂ := not_not.mp hr₂
      cases e
      exact ⟨_, ts₂, rfl, ⟨rfl, rfl, calls, hcalls, rfl, fun _ => hok hr⟩, Or.inr ⟨_, _, hr₂ ▸ e₂⟩⟩

inductive Reached (f : Tree → List Callback → Option (Tree × PrepareResult × List Callback))
    (result : PrepareResult) : Tree → Tree → Prop where
  | call {t t' : Tree} {callbacks rest : List Callback} {r : PrepareResult}
      (e : f t callbacks = some (t', r, rest)) (ok : result = .ok → r = .ok) : Reached f result t t'
  | skip {t : Tree} (failed : result ≠ .ok) : Reached f result t t

lemma reached_cons {f : Tree → List Callback → Option (Tree × PrepareResult × List Callback)}
    {loop : List Tree → List Callback → Option (List Tree × PrepareResult × List Callback)}
    {failure : PrepareResult} (failed : failure ≠ .ok) {t : Tree} {ts : List Tree}
    (ih : ∀ {ts' callbacks rest result}, loop ts callbacks = some (ts', result, rest) →
      ∀ i : Nat, Option.Rel (Reached f result) ts[i]? ts'[i]?)
    {ts' : List Tree} {callbacks rest : List Callback} {result : PrepareResult}
    (e : (do
      let (t, result, callbacks) ← f t callbacks
      if result ≠ .ok then return (t :: ts, failure, callbacks)
      let (ts, result, callbacks) ← loop ts callbacks
      return (t :: ts, result, callbacks)) = some (ts', result, rest)) (i : Nat) :
    Option.Rel (Reached f result) (t :: ts)[i]? ts'[i]? := by
  simp only [Option.bind_eq_bind, Option.bind_eq_some_iff] at e
  obtain ⟨⟨t₁, r₁, cs₁⟩, e₁, e⟩ := e
  dsimp only at e
  split at e
  · cases e
    cases i with
    | zero => exact .some (.call e₁ fun h => absurd h failed)
    | succ i =>
      simp only [List.getElem?_cons_succ]
      exact rel_refl (fun _ => .skip failed) _
  · rename_i hr
    simp only [Option.bind_eq_some_iff] at e
    obtain ⟨⟨ts₂, r₂, cs₂⟩, e₂, e⟩ := e
    cases e
    cases i with
    | zero => exact .some (.call e₁ fun _ => not_not.mp hr)
    | succ i => exact ih e₂ i

lemma prepareSubapps_inv {f : Tree → List Callback → Option (Tree × PrepareResult × List Callback)} :
    ∀ {ts ts' : List Tree} {callbacks rest : List Callback} {result : PrepareResult},
      prepareSubapps f ts callbacks = some (ts', result, rest) →
        ∀ i : Nat, Option.Rel (Reached f result) ts[i]? ts'[i]? := by
  intro ts
  induction ts with
  | nil =>
    intro ts' callbacks rest result e i
    cases e
    exact .none
  | cons t ts ih =>
    intro ts' callbacks rest result e
    exact reached_cons (by simp) ih e

lemma postBuildSubapps_inv : ∀ {ts ts' : List Tree} {callbacks rest : List Callback}
    {result : PrepareResult}, postBuildSubapps ts callbacks = some (ts', result, rest) →
      ∀ i : Nat, Option.Rel (Reached postBuild result) ts[i]? ts'[i]? := by
  intro ts
  induction ts with
  | nil =>
    intro ts' callbacks rest result e i
    cases e
    exact .none
  | cons t ts ih =>
    intro ts' callbacks rest result e
    unfold Tree.postBuildSubapps at e
    exact reached_cons (by simp) ih e

lemma postBuilt_refl (failed : result ≠ .ok) (a : App) : PostBuilt result a a :=
  ⟨rfl, rfl, [], List.nil_prefix, by simp, fun h => absurd h failed⟩

lemma postBuild_rel : ∀ {path : List Nat} {t t' : Tree} {callbacks rest : List Callback}
    {result : PrepareResult}, t.postBuild callbacks = some (t', result, rest) →
      Option.Rel (PostBuilt result) (t.find path) (t'.find path) := by
  intro path
  induction path with
  | nil =>
    intro t t' callbacks rest result e
    cases t with
    | node a ts =>
      obtain ⟨b, ts', rfl, built, _⟩ := postBuild_inv e
      exact .some built
  | cons i path ih =>
    intro t t' callbacks rest result e
    cases t with
    | node a ts =>
      obtain ⟨b, ts', rfl, _, h⟩ := postBuild_inv e
      unfold Tree.find
      rcases h with ⟨failed, rfl⟩ | ⟨_, _, h⟩
      · exact rel_refl (postBuilt_refl failed) _
      · refine rel_bind (postBuildSubapps_inv h i) fun t t' reached => ?_
        cases reached with
        | skip failed => exact rel_refl (postBuilt_refl failed) _
        | call e ok => exact rel_mono (fun a b built => built.weaken ok) (ih e)

lemma teardownSubapps_eq_map (ts : List Tree) : teardownSubapps ts = ts.map teardown := by
  induction ts with
  | nil => rfl
  | cons t ts ih =>
    unfold Tree.teardownSubapps
    rw [ih, List.map_cons]

lemma teardown_rel : ∀ {path : List Nat} {t : Tree},
    Option.Rel (fun a b => b = a ∨ b = a.teardown) (t.find path) (t.teardown.find path) := by
  intro path
  induction path with
  | nil =>
    intro t
    cases t with
    | node a ts =>
      unfold Tree.teardown
      split
      · exact .some (Or.inl rfl)
      · exact .some (Or.inr rfl)
  | cons i path ih =>
    intro t
    cases t with
    | node a ts =>
      unfold Tree.teardown
      split
      · exact rel_refl (R := fun a b => b = a ∨ b = App.teardown a) (fun _ => Or.inl rfl) _
      · unfold Tree.find
        rw [teardownSubapps_eq_map, List.getElem?_map]
        cases ts[i]? with
        | none => exact .none
        | some t => exact ih

/-- What `prepare` does to an app: callbacks of plugins that it had before are called for the apps above
it, then plugins are built and their callbacks are called once, and it may be shut down. -/
structure Prepared (result : PrepareResult) (nested : Prop) (a b : App) : Prop where
  plugins : a.plugins.map RegisteredPlugin.plugin <+: b.plugins.map RegisteredPlugin.plugin
  log : ∃ above calls own down, b.log = a.log ++ above ++ calls ++ own ++ down ∧
    above ⊆ a.callbacks ∧ (∀ i, .postBuild i ∉ calls) ∧ own <+: b.callbacks ∧
    (∀ c ∈ down, ∃ p, c = .shutdown p) ∧ (result = .ok → own = b.callbacks ∧ down = []) ∧
    (nested → result = .ok → a.callbacks ⊆ above) ∧ (¬ nested → above = [])
  pending : result = .ok → b.pendingPlugins = []

lemma Prepared.skip (failed : result ≠ .ok) (nested : Prop) (a : App) :
    Prepared result nested a a :=
  ⟨List.prefix_rfl, ⟨[], [], [], [], by simp, by simp, by simp, List.nil_prefix, by simp,
    fun h => absurd h failed, fun _ h => absurd h failed, fun _ => rfl⟩, fun h => absurd h failed⟩

lemma Prepared.own {c : App} (grown : App.Grown a b) (built : PostBuilt result b c)
    (pending : result = .ok → b.pendingPlugins = []) : Prepared result False a c := by
  obtain ⟨calls, hlog, hno⟩ := grown.log
  obtain ⟨own, hown, hlog', hall⟩ := built.log
  have same : c.callbacks = b.callbacks := by
    unfold App.callbacks
    rw [built.plugins]
  refine ⟨?_, ⟨[], calls, own, [], ?_, by simp, hno, same ▸ hown, by simp, fun h => ⟨?_, rfl⟩,
    fun h => h.elim, fun _ => rfl⟩, fun h => built.pending.trans (pending h)⟩
  · rw [built.plugins]
    exact grown.plugins.map _
  · simp [hlog', hlog]
  · rw [hall h, same]

lemma Prepared.above (built : PostBuilt result a b) (failed : result ≠ .ok) :
    Prepared result True a b := by
  obtain ⟨calls, hcalls, hlog, _⟩ := built.log
  refine ⟨?_, ⟨calls, [], [], [], by simp [hlog], hcalls.subset, by simp, List.nil_prefix, by simp,
    fun h => absurd h failed, fun _ h => absurd h failed, fun h => absurd trivial h⟩,
    fun h => absurd h failed⟩
  rw [built.plugins]

lemma Prepared.after {c : App} {nested : Prop} (built : PostBuilt .ok a b)
    (h : Prepared result nested b c) : Prepared result True a c := by
  obtain ⟨first, hfirst, hlog, hall⟩ := built.log
  obtain ⟨above, calls, own, down, hlog', habove, hno, hown, hdown, hok, _, _⟩ := h.log
  have same : b.callbacks = a.callbacks := by
    unfold App.callbacks
    rw [built.plugins]
  refine ⟨built.plugins ▸ h.plugins, ⟨first ++ above, calls, own, down, ?_, ?_, hno, hown, hdown,
    hok, fun _ _ => ?_, fun h => absurd trivial h⟩, h.pending⟩
  · simp [hlog', hlog]
  · exact List.append_subset.mpr ⟨hfirst.subset, same ▸ habove⟩
  · rw [hall rfl]
    exact List.subset_append_left _ _

lemma Prepared.down {r : PrepareResult} {nested : Prop} (h : Prepared r nested a b)
    (failed : result ≠ .ok) : Prepared result nested a b.teardown := by
  obtain ⟨above, calls, own, down, hlog, habove, hno, hown, hdown, _, _, hroot⟩ := h.log
  unfold App.teardown
  split
  · exact ⟨h.plugins, ⟨above, calls, own, down, hlog, habove, hno, hown, hdown,
      fun h => absurd h failed, fun _ h => absurd h failed, hroot⟩, fun h => absurd h failed⟩
  · have same : (b.plugins.map fun e => { e with shutdownDone := true }).map
        RegisteredPlugin.plugin = b.plugins.map RegisteredPlugin.plugin := by
      rw [List.map_map]
      rfl
    refine ⟨?_, ⟨above, calls, own, down ++ App.shutdownPlugins b.plugins, ?_, habove, hno, ?_, ?_,
      fun h => absurd h failed, fun _ h => absurd h failed, hroot⟩, fun h => absurd h failed⟩
    · rw [same]
      exact h.plugins
    · simp [hlog]
    · unfold App.callbacks at hown ⊢
      rw [same]
      exact hown
    · intro c hc
      rcases List.mem_append.mp hc with hc | hc
      · exact hdown c hc
      · obtain ⟨e, _, he⟩ := List.mem_filterMap.mp hc
        split at he
        · cases he
          exact ⟨_, rfl⟩
        · cases he

lemma Prepared.weaken {r : PrepareResult} {nested : Prop} (h : Prepared r nested a b)
    (le : result = .ok → r = .ok) : Prepared result nested a b := by
  obtain ⟨above, calls, own, down, hlog, habove, hno, hown, hdown, hok, hall, hroot⟩ := h.log
  exact ⟨h.plugins, ⟨above, calls, own, down, hlog, habove, hno, hown, hdown,
    fun h => hok (le h), fun n h => hall n (le h), hroot⟩, fun hr => h.pending (le hr)⟩

/-- The ways in which `prepare` ends. -/
inductive Preparation (depth : Nat) (a : App) (ts : List Tree) : Tree → PrepareResult → Prop where
  | invalid {r : PrepareResult} (failed : r ≠ .ok) : Preparation depth a ts (.node a ts) r
  | drainFailed {b : App} {r : PrepareResult} (grown : App.Grown a b) (failed : r ≠ .ok) :
    Preparation depth a ts (.node b ts) r
  | postBuildFailed {b : App} {t : Tree} {r : PrepareResult} {callbacks rest : List Callback}
    (grown : App.Grown a b) (e : (node b ts).postBuild callbacks = some (t, r, rest))
    (failed : r ≠ .ok) : Preparation depth a ts t r
  | subappFailed {b c : App} {ts₁ ts₂ : List Tree} {r r' : PrepareResult}
    {cs₁ cs₂ cs₃ cs₄ : List Callback} (grown : App.Grown a b)
    (e₁ : (node b ts).postBuild cs₁ = some (.node c ts₁, .ok, cs₂))
    (e₂ : prepareSubapps (prepareDepth depth) ts₁ cs₃ = some (ts₂, r, cs₄)) (failed : r ≠ .ok)
    (failed' : r' ≠ .ok) : Preparation depth a ts (Tree.teardown (.node c ts₂)) r'
  | done {b c : App} {ts₁ ts₂ : List Tree} {cs₁ cs₂ cs₃ cs₄ : List Callback}
    (grown : App.Grown a b) (pending : b.pendingPlugins = [])
    (e₁ : (node b ts).postBuild cs₁ = some (.node c ts₁, .ok, cs₂))
    (e₂ : prepareSubapps (prepareDepth depth) ts₁ cs₃ = some (ts₂, .ok, cs₄)) :
    Preparation depth a ts (.node { c with state := .running } ts₂) .ok

lemma prepareDepth_inv {depth : Nat}
    (e : prepareDepth depth (.node a ts) callbacks = some (t', result, rest)) :
    ∃ d, Preparation d a ts t' result := by
  cases depth with
  | zero => cases e
  | succ d =>
    refine ⟨d, ?_⟩
    unfold Tree.prepareDepth at e
    simp only [Option.bind_eq_bind] at e
    split at e
    · cases e
      exact .invalid (by simp)
    · rename_i created
      obtain ⟨⟨b, r₁, cs₁⟩, e₁, e⟩ := Option.bind_eq_some_iff.mp e
      obtain ⟨grown, _, pending⟩ := (App.Draining.start a (not_not.mp created)).finish e₁
      dsimp only at e
      split at e
      · rename_i failed
        cases e
        exact .drainFailed grown (by cases r₁ <;> simp_all [AddPluginResult.toPrepareResult])
      · rename_i ok₁
        obtain ⟨⟨⟨c, ts₂⟩, r₂, cs₂⟩, e₂, e⟩ := Option.bind_eq_some_iff.mp e
        dsimp only at e
        split at e
        · rename_i failed
          cases e
          exact .postBuildFailed grown e₂ failed
        · rename_i ok₂
          obtain rfl := not_not.mp ok₂
          obtain ⟨⟨ts₃, r₃, cs₃⟩, e₃, e⟩ := Option.bind_eq_some_iff.mp e
          dsimp only at e
          split at e
          · rename_i failed
            cases e
            exact .subappFailed grown e₂ e₃ failed (by simp)
          · rename_i ok₃
            obtain rfl := not_not.mp ok₃
            cases e
            exact .done grown (pending (not_not.mp ok₁)) e₂ e₃

lemma Preparation.root {depth : Nat} {c : App} (h : Preparation depth a ts (.node c ts') result) :
    Prepared result False a c := by
  have built : ∀ {b c : App} {ts ts' : List Tree} {cs cs' : List Callback} {r : PrepareResult},
      (node b ts).postBuild cs = some (.node c ts', r, cs') → PostBuilt r b c := by
    intro b c ts ts' cs cs' r e
    cases @postBuild_rel [] _ _ _ _ _ e with
    | some built => exact built
  generalize ht : node c ts' = t at h
  cases h with
  | invalid failed =>
    cases ht
    exact .skip failed _ _
  | drainFailed grown failed =>
    cases ht
    exact .own grown (postBuilt_refl failed _) fun h => absurd h failed
  | postBuildFailed grown e failed =>
    cases ht
    exact .own grown (built e) fun h => absurd h failed
  | @subappFailed b d ts₁ ts₂ r r' _ _ _ _ grown e₁ e₂ failed failed' =>
    have own : Prepared result False a d :=
      .own grown ((built e₁).weaken fun h => absurd h failed') fun h => absurd h failed'
    have torn := @teardown_rel [] (node d ts₂)
    rw [← ht] at torn
    cases torn with
    | some torn =>
      rcases torn with rfl | rfl
      · exact own
      · exact own.down failed'
  | done grown pending e₁ e₂ =>
    cases ht
    have h := Prepared.own grown (built e₁) fun _ => pending
    exact ⟨h.plugins, h.log, h.pending⟩

/-- **`prepare`, app by app.** -/
theorem prepareDepth_rel : ∀ {path : List Nat} {depth : Nat} {t t' : Tree}
    {callbacks rest : List Callback} {result : PrepareResult},
    prepareDepth depth t callbacks = some (t', result, rest) →
      Option.Rel (Prepared result (path ≠ [])) (t.find path) (t'.find path) := by
  intro path
  induction path with
  | nil =>
    intro depth t t' callbacks rest result e
    cases t with
    | node a ts =>
      cases t' with
      | node c ts' =>
        obtain ⟨d, h⟩ := prepareDepth_inv e
        have root : (([] : List Nat) ≠ []) = False := by simp
        rw [root]
        exact .some h.root
  | cons i path ih =>
    intro depth t t' callbacks rest result e
    cases t with
    | node a ts =>
      obtain ⟨d, h⟩ := prepareDepth_inv e
      have nested : (i :: path ≠ []) = True := by simp
      rw [nested]
      -- the subapps after `post_build` and after they were prepared
      have below : ∀ {b c : App} {ts₁ ts₂ : List Tree} {cs₁ cs₂ cs₃ cs₄ : List Callback}
          {r : PrepareResult}, (node b ts).postBuild cs₁ = some (.node c ts₁, .ok, cs₂) →
            prepareSubapps (prepareDepth d) ts₁ cs₃ = some (ts₂, r, cs₄) →
              Option.Rel (Prepared r True) ((node a ts).find (i :: path))
                ((node c ts₂).find (i :: path)) := by
        intro b c ts₁ ts₂ cs₁ cs₂ cs₃ cs₄ r e₁ e₂
        show Option.Rel _ ((node b ts).find (i :: path)) _
        refine rel_comp (@postBuild_rel (i :: path) _ _ _ _ _ e₁)
          (S := Prepared r (path ≠ [])) ?_ fun x y z built prepared => .after built prepared
        refine rel_bind (prepareSubapps_inv e₂ i) fun t t' reached => ?_
        cases reached with
        | skip failed => exact rel_refl (.skip failed _) _
        | call e ok => exact rel_mono (fun x y prepared => prepared.weaken ok) (ih e)
      cases h with
      | invalid failed => exact rel_refl (.skip failed _) _
      | drainFailed grown failed =>
        exact rel_refl (.skip failed _) ((node a ts).find (i :: path))
      | @postBuildFailed b _ _ _ _ grown e failed =>
        show Option.Rel _ ((node b ts).find (i :: path)) _
        exact rel_mono (fun x y built => .above built failed)
          (@postBuild_rel (i :: path) _ _ _ _ _ e)
      | subappFailed grown e₁ e₂ failed failed' =>
        refine rel_comp (below e₁ e₂) teardown_rel fun x y z prepared torn => ?_
        rcases torn with rfl | rfl
        · exact prepared.weaken fun h => absurd h failed'
        · exact prepared.down failed'
      | @done b c ts₁ ts₂ _ _ _ _ grown pending e₁ e₂ =>
        show Option.Rel _ _ ((node c ts₂).find (i :: path))
        exact below e₁ e₂

mutual

lemma postBuild_depth : ∀ {t t' : Tree} {callbacks rest : List Callback} {result : PrepareResult},
    t.postBuild callbacks = some (t', result, rest) → t'.depth = t.depth
  | .node a ts, t', callbacks, rest, result, e => by
    obtain ⟨b, ts', rfl, _, ⟨_, rfl⟩ | ⟨_, _, h⟩⟩ := postBuild_inv e
    · rfl
    · unfold Tree.depth
      rw [postBuildSubapps_depths h]

lemma postBuildSubapps_depths : ∀ {ts ts' : List Tree} {callbacks rest : List Callback}
    {result : PrepareResult}, postBuildSubapps ts callbacks = some (ts', result, rest) →
      depth.depths ts' = depth.depths ts
  | [], ts', callbacks, rest, result, e => by
    cases e
    rfl
  | t :: ts, ts', callbacks, rest, result, e => by
    unfold Tree.postBuildSubapps at e
    simp only [Option.bind_eq_bind, Option.bind_eq_some_iff] at e
    obtain ⟨⟨t₁, r₁, cs₁⟩, e₁, e⟩ := e
    have head := postBuild_depth e₁
    dsimp only at e
    split at e
    · cases e
      simp only [depth.depths, head]
    · simp only [Option.bind_eq_some_iff] at e
      obtain ⟨⟨ts₂, r₂, cs₂⟩, e₂, e⟩ := e
      have tail := postBuildSubapps_depths e₂
      cases e
      simp only [depth.depths, head, tail]

end

lemma prepareSubapps_congr {f g : Tree → List Callback → Option (Tree × PrepareResult × List Callback)}
    {n : Nat} (h : ∀ t callbacks, t.depth ≤ n → f t callbacks = g t callbacks) :
    ∀ {ts : List Tree} {callbacks : List Callback}, depth.depths ts ≤ n →
      prepareSubapps f ts callbacks = prepareSubapps g ts callbacks := by
  intro ts
  induction ts with
  | nil => exact fun _ => rfl
  | cons t ts ih =>
    intro callbacks hle
    unfold depth.depths at hle
    unfold Tree.prepareSubapps
    rw [h t callbacks (le_trans (le_max_left _ _) hle)]
    congr
    funext x
    split
    rename_i t₁ r₁ cs₁
    rw [ih (le_trans (le_max_right _ _) hle)]

theorem prepareDepth_eq : ∀ {n : Nat} {t : Tree} {callbacks : List Callback}, t.depth ≤ n →
    prepareDepth (n + 1) t callbacks = prepareDepth n t callbacks := by
  intro n
  induction n with
  | zero =>
    intro t callbacks hle
    cases t with
    | node a ts =>
      unfold Tree.depth at hle
      omega
  | succ n ih =>
    intro t callbacks hle
    cases t with
    | node a ts =>
      rw [Tree.prepareDepth, Tree.prepareDepth]
      simp only [Option.bind_eq_bind]
      split
      · rfl
      · refine Option.bind_congr fun x hx => ?_
        obtain ⟨b, r₁, cs₁⟩ := x
        dsimp only
        split
        · rfl
        · refine Option.bind_congr fun x hx => ?_
          obtain ⟨⟨c, ts₁⟩, r₂, cs₂⟩ := x
          have below : depth.depths ts₁ ≤ n := by
            have := postBuild_depth hx
            unfold Tree.depth at this hle
            omega
          dsimp only
          split
          · rfl
          · rw [prepareSubapps_congr (fun t callbacks => ih) below]

/-- Every plugin that was built is called exactly once, and after all plugins of its app were built. -/
structure PostBuiltOnce (a : App) : Prop where
  once : ∀ i e, a.plugins[i]? = some e → e.plugin.postBuild = true → a.log.count (.postBuild i) = 1
  pending : a.pendingPlugins = []
  after : ∀ pre i post, a.log = pre ++ .postBuild i :: post →
    ∀ p, .build p ∉ post ∧ .built p ∉ post

structure PostBuiltAtMostOnce (a : App) : Prop where
  once : ∀ i, a.log.count (.postBuild i) ≤ 1
  after : ∀ pre i post, a.log = pre ++ .postBuild i :: post →
    ∀ p, .build p ∉ post ∧ .built p ∉ post

def Quiet (t : Tree) : Prop :=
  ∀ path a, path ≠ [] → t.find path = some a → ∀ e ∈ a.plugins, e.plugin.postBuild = false

def Fresh (t : Tree) : Prop := ∀ path a, t.find path = some a → ∀ i, .postBuild i ∉ a.log

lemma callbacks_eq_nil (h : ∀ e ∈ a.plugins, e.plugin.postBuild = false) : a.callbacks = [] := by
  refine List.eq_nil_iff_forall_not_mem.mpr fun c hc => ?_
  obtain ⟨k, p, hk, hp, _⟩ := App.mem_postBuildCalls.mp hc
  obtain ⟨e, he, rfl⟩ := List.mem_map.mp (List.mem_of_getElem? hk)
  rw [h e he] at hp
  cases hp

lemma Prepared.quiet {nested : Prop} (h : Prepared result nested a b)
    (quiet : nested → ∀ e ∈ a.plugins, e.plugin.postBuild = false)
    (fresh : ∀ i, .postBuild i ∉ a.log) :
    ∃ calls own down, b.log = calls ++ own ++ down ∧ (∀ i, .postBuild i ∉ calls) ∧
      own <+: b.callbacks ∧ (∀ c ∈ down, ∃ p, c = .shutdown p) ∧
      (result = .ok → own = b.callbacks ∧ down = []) := by
  obtain ⟨above, calls, own, down, hlog, habove, hno, hown, hdown, hok, _, hroot⟩ := h.log
  have hnil : above = [] := by
    by_cases hn : nested
    · rw [callbacks_eq_nil (quiet hn)] at habove
      exact List.subset_nil.mp habove
    · exact hroot hn
  refine ⟨a.log ++ calls, own, down, by rw [hlog, hnil, List.append_nil], fun i hi => ?_, hown, hdown,
    hok⟩
  rcases List.mem_append.mp hi with hi | hi
  · exact fresh i hi
  · exact hno i hi

lemma postBuiltAtMostOnce_of_log {calls own down : List Call} (hlog : b.log = calls ++ own ++ down)
    (hno : ∀ i, .postBuild i ∉ calls) (hown : own <+: b.callbacks)
    (hdown : ∀ c ∈ down, ∃ p, c = .shutdown p) : PostBuiltAtMostOnce b := by
  have downNo : ∀ i, Call.postBuild i ∉ down := by
    intro i hi
    obtain ⟨p, e⟩ := hdown _ hi
    cases e
  have ownNo : ∀ c ∈ own ++ down, ∀ p, c ≠ .build p ∧ c ≠ .built p := by
    intro c hc p
    rcases List.mem_append.mp hc with hc | hc
    · obtain ⟨_, _, _, _, rfl⟩ := App.mem_postBuildCalls.mp (hown.subset hc)
      simp
    · obtain ⟨_, rfl⟩ := hdown c hc
      simp
  constructor
  · intro i
    rw [hlog, List.count_append, List.count_append, List.count_eq_zero.mpr (hno i),
      List.count_eq_zero.mpr (downNo i), Nat.zero_add, Nat.add_zero]
    exact List.nodup_iff_count_le_one.mp (App.nodup_postBuildCalls.sublist hown.sublist) _
  · intro pre i post e p
    rw [hlog, List.append_assoc] at e
    -- the callback is not among the first calls, so what follows it is in the rest
    have hsub : post ⊆ own ++ down := by
      rcases List.append_eq_append_iff.mp e with ⟨as, _, h⟩ | ⟨bs, h, h'⟩
      · intro c hc
        rw [h]
        exact List.mem_append_right _ (List.mem_cons_of_mem _ hc)
      · cases bs with
        | nil =>
          intro c hc
          rw [List.nil_append] at h'
          rw [← h']
          exact List.mem_cons_of_mem _ hc
        | cons c bs =>
          cases (List.cons.inj h').1
          exact absurd (h ▸ List.mem_append_right _ List.mem_cons_self) (hno i)
    exact ⟨fun hp => (ownNo _ (hsub hp) p).1 rfl, fun hp => (ownNo _ (hsub hp) p).2 rfl⟩

lemma find_prepared (e : t.prepare callbacks = some (t', result, rest)) {path : List Nat}
    (h : t'.find path = some b) :
    ∃ a, t.find path = some a ∧ Prepared result (path ≠ []) a b := by
  have rel := @prepareDepth_rel path _ _ _ _ _ _ e
  rw [h] at rel
  generalize t.find path = o at rel
  cases rel with
  | some prepared => exact ⟨_, rfl, prepared⟩

lemma prepared_find (e : t.prepare callbacks = some (t', result, rest)) {path : List Nat}
    (h : t.find path = some a) :
    ∃ b, t'.find path = some b ∧ Prepared result (path ≠ []) a b := by
  have rel := @prepareDepth_rel path _ _ _ _ _ _ e
  rw [h] at rel
  generalize t'.find path = o at rel
  cases rel with
  | some prepared => exact ⟨_, rfl, prepared⟩

/-- **Post-build callbacks.** When `prepare` succeeds, it called every plugin of the tree exactly once and
after all plugins of its app were built if and only if no app but the root had a plugin with a
post-build callback that was built already; and then no plugin is called twice or too early when
`prepare` fails either. -/
theorem post_build_once (fresh : t.Fresh) (e : t.prepare callbacks = some (t', result, rest)) :
    (result = .ok → ((∀ path b, t'.find path = some b → PostBuiltOnce b) ↔ t.Quiet)) ∧
      (t.Quiet → ∀ path b, t'.find path = some b → PostBuiltAtMostOnce b) := by
  have atMost : t.Quiet → ∀ path b, t'.find path = some b → PostBuiltAtMostOnce b := by
    intro quiet path b hb
    obtain ⟨a, ha, prepared⟩ := find_prepared e hb
    obtain ⟨calls, own, down, hlog, hno, hown, hdown, _⟩ :=
      prepared.quiet (fun hn => quiet path a hn ha) (fresh path a ha)
    exact postBuiltAtMostOnce_of_log hlog hno hown hdown
  refine ⟨fun ok => ⟨fun once path a hn ha p hp => ?_, fun quiet path b hb => ?_⟩, atMost⟩
  · -- a callback for an app above and one for its own
    obtain ⟨b, hb, prepared⟩ := prepared_find e ha
    obtain ⟨above, calls, own, down, hlog, _, _, _, _, hok, hall, _⟩ := prepared.log
    obtain ⟨rfl, rfl⟩ := hok ok
    rw [Bool.eq_false_iff]
    intro hpost
    obtain ⟨i, hi⟩ := List.mem_iff_getElem?.mp hp
    have hin : Call.postBuild i ∈ a.callbacks :=
      App.mem_postBuildCalls.mpr ⟨i, p.plugin, by rw [List.getElem?_map, hi]; rfl, hpost, by simp⟩
    have hin' : Call.postBuild i ∈ b.callbacks := App.postBuildCalls_subset prepared.plugins hin
    obtain ⟨q, hq, hqpost⟩ : ∃ q, b.plugins[i]? = some q ∧ q.plugin.postBuild = true := by
      obtain ⟨k, q, hk, hq, e⟩ := App.mem_postBuildCalls.mp hin'
      obtain rfl : i = k := by simpa using Call.postBuild.inj e
      rw [List.getElem?_map] at hk
      obtain ⟨q', hq', rfl⟩ := Option.map_eq_some_iff.mp hk
      exact ⟨q', hq', hq⟩
    have count := (once path b hb).once i q hq hqpost
    have one := List.count_pos_iff.mpr (hall hn ok hin)
    have two := List.count_pos_iff.mpr hin'
    rw [hlog] at count
    simp only [List.count_append] at count
    omega
  · obtain ⟨a, ha, prepared⟩ := find_prepared e hb
    obtain ⟨calls, own, down, hlog, hno, hown, hdown, hok⟩ :=
      prepared.quiet (fun hn => quiet path a hn ha) (fresh path a ha)
    obtain ⟨rfl, rfl⟩ := hok ok
    have at_most := atMost quiet path b hb
    refine ⟨fun i q hq hpost => ?_, prepared.pending ok, at_most.after⟩
    have hin : Call.postBuild i ∈ b.log := by
      rw [hlog]
      refine List.mem_append_left _ (List.mem_append_right _ ?_)
      exact App.mem_postBuildCalls.mpr
        ⟨i, q.plugin, by rw [List.getElem?_map, hq]; rfl, hpost, by simp⟩
    exact le_antisymm (at_most.once i) (List.count_pos_iff.mpr hin)

def appWith (name : Name) (postBuild : Bool) : App :=
  (App.init.addPlugin ⟨name, false, postBuild, false, []⟩).1

def withSubapp (postBuild : Bool) : Tree :=
  .node (appWith ['a'] true) [.node (appWith ['b'] postBuild) []]

lemma find_withSubapp {x : Bool} : ∀ {path : List Nat}, (withSubapp x).find path = some a →
    (path = [] ∧ a = appWith ['a'] true) ∨ (path = [0] ∧ a = appWith ['b'] x)
  | [], h => Or.inl ⟨rfl, (Option.some.inj h).symm⟩
  | [0], h => Or.inr ⟨rfl, (Option.some.inj h).symm⟩

/-- The plugin of the subapp has no post-build callback. -/
theorem post_build_once_withSubapp : ∃ t' rest,
    (withSubapp false).prepare [.postBuildReturns .ok] = some (t', .ok, rest) ∧
      ∀ path b, t'.find path = some b → PostBuiltOnce b := by
  have fresh : (withSubapp false).Fresh := by
    intro path a ha i hi
    rcases find_withSubapp ha with ⟨_, rfl⟩ | ⟨_, rfl⟩
    · cases hi with
      | tail _ hi => cases hi with
        | tail _ hi => cases hi
    · cases hi with
      | tail _ hi => cases hi with
        | tail _ hi => cases hi
  have quiet : (withSubapp false).Quiet := by
    intro path a hn ha
    rcases find_withSubapp ha with ⟨rfl, _⟩ | ⟨_, rfl⟩
    · exact absurd rfl hn
    · decide
  obtain ⟨⟨t', result, rest⟩, e⟩ : ∃ x, (withSubapp false).prepare [.postBuildReturns .ok] = some x :=
    ⟨_, rfl⟩
  have ok : result = .ok := by
    have : ∀ x ∈ (withSubapp false).prepare [.postBuildReturns .ok], x.2.1 = .ok := by decide +kernel
    exact this _ e
  obtain rfl := ok
  exact ⟨t', rest, e, ((post_build_once fresh e).1 rfl).mpr quiet⟩

/-- It has one, which is called for the root and for the subapp. -/
theorem not_post_build_once : ¬ ∀ t' rest,
    (withSubapp true).prepare (List.replicate 3 (.postBuildReturns .ok)) = some (t', .ok, rest) →
      ∀ path b, t'.find path = some b → PostBuiltOnce b := by
  intro law
  have twice : ∃ x, (withSubapp true).prepare (List.replicate 3 (.postBuildReturns .ok)) = some x ∧
      x.2.1 = .ok ∧ ∃ b, x.1.find [0] = some b ∧ b.plugins[0]? = some ⟨⟨['b'], false, true, false, []⟩, false⟩ ∧
        b.log.count (.postBuild 0) = 2 :=
    ⟨_, rfl, rfl, _, rfl, rfl, by decide⟩
  obtain ⟨⟨t', result, rest⟩, e, ok, b, hb, hp, two⟩ := twice
  obtain rfl : result = .ok := ok
  have one := (law t' rest e [0] b hb).once 0 _ hp rfl
  rw [two] at one
  cases one

end Tree

end PulseEngine.Application
