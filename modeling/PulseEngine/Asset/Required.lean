import PulseEngine.Asset.Effects
import PulseEngine.Asset.LoadQueue

/-!
# Required dependencies of loaded assets

A load completes when its required dependencies are loaded, and a dependency is not unloaded while
something depends on it. What can still take a required dependency away from a loaded asset is a
release during the retirement of the dependency's own load job, which does not look at the
dependents, and a load job that writes to a slot that is no longer its own.
-/

namespace PulseEngine.Asset

open Library

namespace Recorded

/-- **Loaded means dependencies loaded.** The dependencies a loaded asset was loaded with as required
ones are alive and loaded. -/
def RequiredLoaded (r : Recorded) : Prop :=
  ∀ a sa, r.storage.getSlot a = some sa → sa.state = .loaded → ∀ d ∈ r.history.required a,
    ∃ sd, r.storage.getSlot d = some sd ∧ sd.state = .loaded

def Needs (r : Recorded) (id : SlotId) : Prop :=
  ∃ s ∈ r.storage.slotAt id, ∃ z ∈ s.dependents,
    (∃ sz ∈ r.storage.getSlot z, sz.state = .loaded) ∧ id.handle s ∈ r.history.required z

/-- A release that takes the last pin while the load job is at work or being retired finds no loaded
asset that requires `h`. -/
def ReleasesUnneeded (r : Recorded) (h : Handle) : Prop :=
  ∀ s ∈ r.storage.getSlot h, s.pinCount ≤ (if h ∈ s.dependencies then 2 else 1) →
    s.retiringLoadJob = true ∨ s.state.isLoadInProgress = true → ¬ r.Needs h.slotId

instance (r : Recorded) (id : SlotId) : Decidable (r.Needs id) :=
  inferInstanceAs (Decidable (∃ s ∈ r.storage.slotAt id, ∃ z ∈ s.dependents,
    (∃ sz ∈ r.storage.getSlot z, sz.state = .loaded) ∧ id.handle s ∈ r.history.required z))

instance (r : Recorded) (h : Handle) : Decidable (r.ReleasesUnneeded h) :=
  inferInstanceAs (Decidable (∀ s ∈ r.storage.getSlot h,
    s.pinCount ≤ (if h ∈ s.dependencies then 2 else 1) →
    s.retiringLoadJob = true ∨ s.state.isLoadInProgress = true → ¬ r.Needs h.slotId))

end Recorded

def Action.NeedSafe (r : Recorded) : Action → Prop
  | .setState h state => (Action.setState h state).Sound r.storage ∧ ¬ r.Needs h.slotId
  | .failSlot h error => (Action.failSlot h error).Sound r.storage ∧ ¬ r.Needs h.slotId
  | .stepDone h dependencies => (Action.stepDone h dependencies).Sound r.storage ∧
    (¬ r.storage.Completes dependencies → ¬ r.Needs h.slotId)
  | .release h => r.ReleasesUnneeded h
  | .forceDestroy _ => False
  | a => a.Sound r.storage

instance (r : Recorded) : ∀ a : Action, Decidable (a.NeedSafe r)
  | .create .. => .isTrue trivial
  | .setState h state => inferInstanceAs (Decidable ((Action.setState h state).Sound r.storage ∧
      ¬ r.Needs h.slotId))
  | .failSlot h error => inferInstanceAs (Decidable ((Action.failSlot h error).Sound r.storage ∧
      ¬ r.Needs h.slotId))
  | .setRetiring .. => .isTrue trivial
  | .stepDone h deps => inferInstanceAs (Decidable ((Action.stepDone h deps).Sound r.storage ∧
      (¬ r.storage.Completes deps → ¬ r.Needs h.slotId)))
  | .retain _ => .isTrue trivial
  | .release h => inferInstanceAs (Decidable (r.ReleasesUnneeded h))
  | .markModified _ => .isTrue trivial
  | .tryUnload h => inferInstanceAs (Decidable ((Action.tryUnload h).Sound r.storage))
  | .forceDestroy _ => .isFalse id

lemma Action.NeedSafe.sound {r : Recorded} {a : Action} (safe : a.NeedSafe r) :
    a.Sound r.storage := by
  cases a with
  | create => trivial
  | setState => exact safe.1
  | failSlot => exact safe.1
  | setRetiring => trivial
  | stepDone => exact safe.1
  | retain => trivial
  | release => trivial
  | markModified => trivial
  | tryUnload => exact safe
  | forceDestroy => trivial

namespace Storage

lemma loaded_of_evaluateFrom {st : Storage} : ∀ {deps : List Dependency} {ready : Bool},
    st.evaluateFrom ready deps = ⟨false, true⟩ → ready = true ∧
      ∀ dep ∈ deps, dep.requirement = .required →
        ∃ s, st.getSlot dep.depRef = some s ∧ s.state = .loaded := by
  intro deps
  induction deps with
  | nil =>
    intro ready h
    cases h
    exact ⟨rfl, by simp⟩
  | cons dep deps ih =>
    intro ready h
    unfold evaluateFrom at h
    cases hs : st.getSlot dep.depRef with
    | none =>
      simp only [hs] at h
      split at h
      · rename_i hopt
        obtain ⟨hready, hdeps⟩ := ih h
        refine ⟨hready, fun dep' hdep' hreq => ?_⟩
        rcases List.mem_cons.mp hdep' with rfl | hdep'
        · rw [hopt] at hreq
          cases hreq
        · exact hdeps dep' hdep' hreq
      · cases h
    | some s =>
      simp only [hs] at h
      split at h
      · split at h
        · rename_i hopt
          obtain ⟨hready, hdeps⟩ := ih h
          refine ⟨hready, fun dep' hdep' hreq => ?_⟩
          rcases List.mem_cons.mp hdep' with rfl | hdep'
          · rw [hopt] at hreq
            cases hreq
          · exact hdeps dep' hdep' hreq
        · cases h
      · split at h
        · cases (ih h).1
        · rename_i hl
          obtain ⟨hready, hdeps⟩ := ih h
          refine ⟨hready, fun dep' hdep' hreq => ?_⟩
          rcases List.mem_cons.mp hdep' with rfl | hdep'
          · refine ⟨s, hs, ?_⟩
            by_contra hne
            exact hl ⟨hne, by simp [hreq]⟩
          · exact hdeps dep' hdep' hreq

lemma pinCount_le_of_releasedSlot {h : Handle} {deps : List Handle} {s : Slot}
    (hh : h.slotId.handle s = h) (zero : (releasedSlot h deps h.slotId s).pinCount = 0) :
    s.pinCount ≤ if h ∈ deps then 2 else 1 := by
  have hu : h.slotId.handle s.unpin = h := hh
  simp only [releasedSlot, if_true, unpinSlot, hu] at zero
  split at zero
  · rename_i hm
    rw [if_pos hm]
    simp only [Slot.unpin] at zero
    omega
  · rename_i hm
    rw [if_neg hm]
    simp only [Slot.unpin] at zero
    omega

end Storage

namespace Recorded

/-- What holds between two actions of a run under `NeedSafe`. -/
structure RequiredKept (r : Recorded) : Prop where
  wf : r.storage.WellFormed
  held : ∀ a sa, r.storage.getSlot a = some sa → sa.state = .loaded → ∀ d ∈ r.history.required a,
    d ∈ sa.dependencies ∧ ∃ sd, r.storage.getSlot d = some sd ∧ sd.state = .loaded

variable {st st' : Storage} {history : History} {h : Handle} {fuel : Nat}

lemma RequiredKept.init : Recorded.init.RequiredKept where
  wf := Storage.WellFormed.init
  held := by
    intro a sa ha
    have : Recorded.init.storage.getSlot a = none := by
      simp [Storage.getSlot, Storage.slotAt, Recorded.init, Storage.init]
    rw [this] at ha
    cases ha

lemma RequiredKept.edit {F : SlotId → Slot → Slot} (kept : RequiredKept ⟨st, history⟩)
    (wf' : st'.WellFormed) (e : Storage.Edited F st st')
    (hF : ∀ {id s}, st.slotAt id = some s → (F id s).generation = s.generation ∧
      (F id s).dependencies = s.dependencies ∧ ((F id s).state = .loaded → s.state = .loaded) ∧
      (s.state = .loaded → (F id s).state = .loaded ∨ ¬ Needs ⟨st, history⟩ id)) :
    RequiredKept ⟨st', history⟩ := by
  refine ⟨wf', fun a sa' ha' hl d hd => ?_⟩
  obtain ⟨hv, hat', hg'⟩ := Storage.getSlot_eq_some.mp ha'
  rw [e.slots] at hat'
  obtain ⟨sa, hat, rfl⟩ := Option.map_eq_some_iff.mp hat'
  obtain ⟨hga, hda, hla, _⟩ := hF hat
  have ha : st.getSlot a = some sa := Storage.getSlot_eq_some.mpr ⟨hv, hat, hga ▸ hg'⟩
  obtain ⟨hmem, sd, hsd, hld⟩ := kept.held a sa ha (hla hl) d hd
  obtain ⟨hvd, hatd, hgd⟩ := Storage.getSlot_eq_some.mp hsd
  obtain ⟨hgd', _, _, hkeep⟩ := hF hatd
  refine ⟨hda ▸ hmem, F d.slotId sd, Storage.getSlot_eq_some.mpr ⟨hvd, ?_, hgd'.trans hgd⟩, ?_⟩
  · rw [e.slots, hatd, Option.map_some]
  · refine (hkeep hld).resolve_right fun hno => hno ?_
    obtain ⟨sd', hsd', hz⟩ := kept.wf.forth ha hmem
    rw [hsd] at hsd'
    cases hsd'
    refine ⟨sd, hatd, a, hz, ⟨sa, ha, hla hl⟩, ?_⟩
    rw [Handle.handle_eq hgd]
    exact hd

lemma Needs.of_edited {F : SlotId → Slot → Slot} {id : SlotId}
    (needs : Needs ⟨st', history⟩ id) (e : Storage.Edited F st st')
    (hF : ∀ id s, (F id s).generation = s.generation ∧ (F id s).dependents = s.dependents ∧
      (F id s).state = s.state) : Needs ⟨st, history⟩ id := by
  obtain ⟨s', hs', z, hz, ⟨sz', hsz', hl⟩, hreq⟩ := needs
  rw [Option.mem_def] at hs' hsz'
  simp only [e.slots, Option.map_eq_some_iff] at hs'
  obtain ⟨s, hs, rfl⟩ := hs'
  obtain ⟨hv, hat, hg⟩ := Storage.getSlot_eq_some.mp hsz'
  simp only [e.slots, Option.map_eq_some_iff] at hat
  obtain ⟨sz, hat, rfl⟩ := hat
  obtain ⟨hgz, _, hlz⟩ := hF z.slotId sz
  obtain ⟨hgs, hds, _⟩ := hF id s
  refine ⟨s, hs, z, hds ▸ hz, ⟨sz, Storage.getSlot_eq_some.mpr ⟨hv, hat, hgz ▸ hg⟩, hlz ▸ hl⟩, ?_⟩
  simpa [SlotId.handle, hgs] using hreq

lemma RequiredKept.sameState {F : SlotId → Slot → Slot} (kept : RequiredKept ⟨st, history⟩)
    (wf' : st'.WellFormed) (e : Storage.Edited F st st')
    (hF : ∀ id s, (F id s).generation = s.generation ∧ (F id s).dependencies = s.dependencies ∧
      (F id s).state = s.state) : RequiredKept ⟨st', history⟩ :=
  kept.edit wf' e fun {id s} _ => by
    obtain ⟨hg, hd, hs⟩ := hF id s
    exact ⟨hg, hd, hs ▸ fun h => h, fun h => Or.inl (hs.trans h)⟩

lemma RequiredKept.write {f : Slot → Slot} (kept : RequiredKept ⟨st, history⟩)
    (unneeded : ¬ Needs ⟨st, history⟩ h.slotId)
    (wf' : (st.modifySlot h.slotId f).WellFormed) (k : Storage.KeepsLinks f)
    (hf : ∀ s, (f s).state ≠ .loaded) : RequiredKept ⟨st.modifySlot h.slotId f, history⟩ := by
  refine kept.edit wf' (Storage.Edited.modifySlot _ _ _) fun {id s} _ => ?_
  split
  · rename_i hid
    subst hid
    exact ⟨k.generation s, k.dependencies s, fun h => absurd h (hf s), fun _ => Or.inr unneeded⟩
  · exact ⟨rfl, rfl, fun h => h, Or.inl⟩

lemma RequiredKept.removed {D : List Handle} (kept : RequiredKept ⟨st, history⟩)
    (r : Storage.Removed st st' D) : RequiredKept ⟨st', history⟩ := by
  refine ⟨kept.wf.removed r, fun a sa' ha' hl d hd => ?_⟩
  rcases r.detached.getSlot_cases ha' with ⟨sa, ha, hm, rfl⟩ | ⟨s, _, _, rfl⟩
  · rw [Slot.detach_of_not_mem hm] at hl ⊢
    obtain ⟨hmem, sd, hsd, hld⟩ := kept.held a sa ha hl d hd
    have hdD : d ∉ D := by
      intro hdD
      obtain ⟨sd', hsd', _, hz⟩ := r.removable.slot d hdD
      obtain ⟨sd'', hsd'', ha⟩ := kept.wf.forth ha hmem
      rw [show st.getSlot d = _ from hsd''] at hsd'
      cases hsd'
      exact hm (hz a ha)
    refine ⟨hmem, _, r.detached.getSlot_of_not_mem hsd hdD, ?_⟩
    rw [Slot.detach_of_not_mem hdD]
    exact hld
  · cases hl

lemma RequiredKept.congr {history' : History} (kept : RequiredKept ⟨st, history⟩)
    (e : history'.required = history.required) : RequiredKept ⟨st, history'⟩ :=
  ⟨kept.wf, fun a sa ha hl d hd => kept.held a sa ha hl d (e ▸ hd)⟩

lemma RequiredKept.completed {deps : List Dependency} {C : List Handle}
    (kept : RequiredKept ⟨st, history⟩) (ready : st.Completes deps)
    (e : Storage.Completed st st' h deps C) (wf' : st'.WellFormed) (loaded : List Handle) :
    RequiredKept ⟨st', { history with
      loaded := loaded
      required := Function.update history.required h
        ((deps.filter fun dep => dep.requirement = .required).map (·.depRef)) }⟩ := by
  obtain ⟨sh, hsh, _, _⟩ := e.slot
  have old : ∀ y sy, st.getSlot y = some sy →
      st'.getSlot y = some (Storage.completeSlot h C y.slotId sy) := by
    intro y sy hy
    obtain ⟨hv, hat, hg⟩ := Storage.getSlot_eq_some.mp hy
    refine Storage.getSlot_eq_some.mpr ⟨hv, by rw [e.edited.slots, hat, Option.map_some], ?_⟩
    rw [Storage.completeSlot_generation, hg]
  have stays : ∀ id sy, sy.state = .loaded → (Storage.completeSlot h C id sy).state = .loaded := by
    intro id sy hl
    simp [hl]
  refine ⟨wf', fun a sa' ha' hl d hd => ?_⟩
  obtain ⟨hv, hat', hg'⟩ := Storage.getSlot_eq_some.mp ha'
  rw [e.edited.slots] at hat'
  obtain ⟨sa, hat, rfl⟩ := Option.map_eq_some_iff.mp hat'
  have hga : sa.generation = a.generation := by
    rw [← hg', Storage.completeSlot_generation]
  have ha : st.getSlot a = some sa := Storage.getSlot_eq_some.mpr ⟨hv, hat, hga⟩
  by_cases hid : h.slotId = a.slotId
  · obtain rfl : h = a := Storage.getSlot_unique hid hsh ha
    simp only [Function.update_self, List.mem_map, List.mem_filter, decide_eq_true_eq] at hd
    obtain ⟨dep, ⟨hdep, hreq⟩, rfl⟩ := hd
    obtain ⟨sd, hsd, hld⟩ := (Storage.loaded_of_evaluateFrom ready).2 dep hdep hreq
    refine ⟨?_, _, old _ _ hsd, stays _ _ hld⟩
    have hC : dep.depRef ∈ C := (e.mem _).mpr ⟨⟨dep, hdep, rfl⟩, by rw [hsd]; rfl⟩
    rw [Storage.completeSlot_dependencies, if_pos rfl]
    exact hC
  · have hah : a ≠ h := fun hc => hid (by rw [hc])
    rw [Storage.completeSlot_state, if_neg hid] at hl
    rw [Storage.completeSlot_dependencies, if_neg hid]
    simp only [Function.update_of_ne hah] at hd
    obtain ⟨hmem, sd, hsd, hld⟩ := kept.held a sa ha hl d hd
    exact ⟨hmem, _, old _ _ hsd, stays _ _ hld⟩

lemma RequiredKept.created {path : Path} {source : LoadSource} (userPins : Handle → Int)
    (created : List Handle) (kept : RequiredKept ⟨st, history⟩) (e : Storage.Created st st' h path source)
    (wf' : st'.WellFormed) : RequiredKept ⟨st', { history with
      userPins := userPins
      created := created
      required := Function.update history.required h [] }⟩ := by
  obtain ⟨s₀, hbefore, _, hafter⟩ := e.slot
  refine ⟨wf', fun a sa ha hl d hd => ?_⟩
  obtain ⟨hv, hat, hg⟩ := Storage.getSlot_eq_some.mp ha
  by_cases hid : a.slotId = h.slotId
  · rw [hid, hafter] at hat
    cases hat
    cases hl
  · have hah : a ≠ h := fun hc => hid (by rw [hc])
    simp only [Function.update_of_ne hah] at hd
    rcases e.others a.slotId hid with hsame | ⟨_, hfresh, _⟩
    · rw [hsame] at hat
      obtain ⟨hmem, sd, hsd, hld⟩ :=
        kept.held a sa (Storage.getSlot_eq_some.mpr ⟨hv, hat, hg⟩) hl d hd
      refine ⟨hmem, sd, ?_, hld⟩
      obtain ⟨hvd, hatd, hgd⟩ := Storage.getSlot_eq_some.mp hsd
      have hdid : d.slotId ≠ h.slotId := by
        intro hc
        have hatd : st.slotAt d.slotId = some sd := hatd
        rcases hbefore with ⟨h₁, he⟩ | ⟨h₁, _⟩
        · rw [← hc, hatd] at h₁
          cases h₁
          rw [hld] at he
          cases he
        · rw [← hc, hatd] at h₁
          cases h₁
      rcases e.others d.slotId hdid with hsame | ⟨hnone, _⟩
      · exact Storage.getSlot_eq_some.mpr ⟨hvd, hsame.trans hatd, hgd⟩
      · rw [show st.slotAt d.slotId = some sd from hatd] at hnone
        cases hnone
    · rw [hfresh] at hat
      cases hat
      cases hl

/-- **One step.** An action under `NeedSafe` leaves the required dependencies of loaded assets
loaded. -/
theorem RequiredKept.step {history' : History} {a : Action} (kept : RequiredKept ⟨st, history⟩)
    (safe : a.NeedSafe ⟨st, history⟩) (eff : Storage.Effect fuel st history a st' history') :
    RequiredKept ⟨st', history'⟩ := by
  have wf := kept.wf
  have wf' := wf.step eff
  cases eff with
  | created _ e => exact kept.created _ _ e wf'
  | @setState h state holds =>
    refine kept.write safe.2 wf' ⟨fun _ => rfl, fun _ => rfl, fun _ => rfl⟩ fun s => ?_
    obtain ⟨state, hstate⟩ := state
    rintro rfl
    cases hstate
  | failSlot holds =>
    exact kept.write safe.2 wf' ⟨fun _ => rfl, fun _ => rfl, fun _ => rfl⟩ fun s => by simp
  | setRetiring =>
    refine kept.sameState wf' (Storage.Edited.modifySlot _ _ _) fun id s => ?_
    split <;> exact ⟨rfl, rfl, rfl⟩
  | stepFailed ready holds =>
    exact kept.write (safe.2 ready) wf' ⟨fun _ => rfl, fun _ => rfl, fun _ => rfl⟩
      fun s => by simp
  | stepWaits ready holds =>
    exact kept.write (safe.2 ready) wf' ⟨fun _ => rfl, fun _ => rfl, fun _ => rfl⟩
      fun s => by simp
  | completed ready _ e => exact kept.completed ready e wf' _
  | retained hs _ _ e => exact (kept.sameState wf' e fun id s => by simp).congr rfl
  | retainRefused => exact kept
  | @released h s st₁ _ hs pinned occupied e settled =>
    have kept₁ : RequiredKept ⟨st₁, history⟩ :=
      kept.sameState (wf.released e) e fun id s => by simp
    suffices RequiredKept ⟨st', history⟩ from this.congr rfl
    cases settled with
    | pending zero busy e' =>
      have unneeded : ¬ Needs ⟨st₁, history⟩ h.slotId := by
        intro needs
        refine safe s hs ?_ (by simpa using busy) (needs.of_edited e fun id s => by simp)
        obtain ⟨_, _, hg⟩ := Storage.getSlot_eq_some.mp hs
        exact Storage.pinCount_le_of_releasedSlot (Handle.handle_eq hg) zero
      subst e'
      exact kept₁.write unneeded wf' ⟨fun _ => rfl, fun _ => rfl, fun _ => rfl⟩
        fun s => by simp [Storage.setPendingDelete]
    | kept e' => exact e' ▸ kept₁
    | removed D r _ => exact kept₁.removed r
  | releaseRefused => exact kept
  | marked _ _ =>
    refine kept.sameState wf' (Storage.Edited.modifySlot _ _ _) fun id s => ?_
    split <;> exact ⟨rfl, rfl, rfl⟩
  | unmarked => exact kept
  | unloaded r _ => exact kept.removed r
  | forced _ => cases safe

end Recorded

def dependencySetup : List System.Event :=
  [.registerType ⟨true, 1, 4, 4, true⟩, .registerType ⟨true, 2, 4, 4, true⟩,
    .registerLoader ⟨true, 1, some ['x'], none, false, true, true, 0, 0, 0, 0, false, false⟩,
    .registerLoader ⟨true, 2, none, some ['b'], false, false, true, 0, 0, 0, 0, false, false⟩]

def loadOne (path : Path) (script : JobScript Call) : Call :=
  .load ⟨.file, 1, none, some path, false, false, none, [], false⟩ ⟨0, true⟩ script

def buildTwo (dependencies : List Dependency) (script : JobScript Call) : Call :=
  .load ⟨.builder, 2, some ['b'], none, false, false, none, dependencies, false⟩ ⟨0, true⟩ script

def turn (step dtor : List Call) : JobScript Call := ⟨some [], [], true, step, .done, none, dtor⟩

def buildOnLoaded : List System.Event :=
  dependencySetup ++ [.call (loadOne ['d', '.', 'x'] (turn [] [])), .process [turn [] []],
    .call (buildTwo [⟨⟨1, 1, 1⟩, .required⟩] (turn [] [])), .call (.release ⟨1, 1, 1⟩)]

/-- While the load job of `d` is retired, its destructor builds `a` on `d`, in a way that another
asset keeps `a` without pinning it, and then releases both. -/
def releaseWhileRetiring : List System.Event :=
  dependencySetup ++ [.call (loadOne ['d', '.', 'x'] (turn [] [])),
    .process [turn [] [
      buildTwo [⟨⟨1, 1, 1⟩, .required⟩]
        (turn [buildTwo [⟨⟨2, 1, 1⟩, .optional⟩] (turn [] [])] []),
      .release ⟨2, 1, 1⟩, .release ⟨1, 1, 1⟩]]]

end PulseEngine.Asset

/-!
## The two sides of the dependency graph

A dependency is kept twice, in the list of the asset that has it and in the list of the asset it
is. Sound actions keep the two sides equal, free of duplicates and of handles that do not resolve to an
asset.
-/

namespace PulseEngine.Asset

open Library

structure Storage.Symmetric (st : Storage) : Prop where
  mirror : ∀ a sa d sd, st.getSlot a = some sa → sa.state ≠ .empty → st.getSlot d = some sd →
    sd.state ≠ .empty → (d ∈ sa.dependencies ↔ a ∈ sd.dependents)
  once : ∀ a sa, st.getSlot a = some sa → sa.dependencies.Nodup ∧ sa.dependents.Nodup
  alive : ∀ a sa, st.getSlot a = some sa → ∀ d, d ∈ sa.dependencies ∨ d ∈ sa.dependents →
    ∃ sd, st.getSlot d = some sd ∧ sd.state ≠ .empty

lemma Storage.WellFormed.symmetric {st : Storage} (wf : st.WellFormed) : st.Symmetric where
  mirror := by
    intro a sa d sd ha _ hd _
    constructor
    · intro hm
      obtain ⟨sd', hd', hm'⟩ := wf.forth ha hm
      rw [hd] at hd'
      cases hd'
      exact hm'
    · intro hm
      obtain ⟨sa', ha', hm'⟩ := wf.back hd hm
      rw [ha] at ha'
      cases ha'
      exact hm'
  once := fun _ _ ha => ⟨wf.nodup ha, wf.dependentsNodup ha⟩
  alive := by
    intro a sa ha d hd
    rcases hd with hd | hd
    · obtain ⟨sd, hsd, hm⟩ := wf.forth ha hd
      exact ⟨sd, hsd, wf.occupied_of_dependents (Storage.getSlot_eq_some.mp hsd).2.1 hm⟩
    · obtain ⟨sd, hsd, hm⟩ := wf.back ha hd
      exact ⟨sd, hsd, wf.occupied_of_dependencies (Storage.getSlot_eq_some.mp hsd).2.1 hm⟩

/-- **Symmetry of the dependency graph.** In every run of the asset system whose actions are sound, the
law holds after every action. -/
theorem System.dependencies_symmetric (fuel maxRequestsPerUpdate : Nat)
    (events : List System.Event) (s : System fuel)
    (_ : System.after fuel maxRequestsPerUpdate events = some s)
    (sound : Along (Recorded.step fuel) (fun r a => a.Sound r.storage) Recorded.init s.traced.log) :
    s.storage.Symmetric ∧ ∀ pre, pre <+: s.traced.log → ∀ r,
      run (Recorded.step fuel) Recorded.init pre = some r → r.storage.Symmetric := by
  have along : ∀ pre, pre <+: s.traced.log → ∀ r,
      run (Recorded.step fuel) Recorded.init pre = some r → r.storage.Symmetric := by
    intro pre hpre r e
    exact (Storage.WellFormed.run (I := fun _ _ => True) (fun _ _ sound => sound) trivial
      (fun _ _ _ _ => trivial) (sound.of_prefix hpre) e).1.symmetric
  exact ⟨along _ (List.prefix_refl _) _ s.traced.replays, along⟩

/-- An asset is built on a loaded one and both stay. -/
theorem System.dependencies_symmetric_buildOnLoaded :
    ∃ s : System 8, System.after 8 0 buildOnLoaded = some s ∧
      (s.storage.getSlot ⟨2, 1, 1⟩).map (·.dependencies) = some [⟨1, 1, 1⟩] ∧
      s.storage.Symmetric := by
  have ends : (System.after 8 0 buildOnLoaded).isSome = true := by decide +kernel
  obtain ⟨s, hs⟩ := Option.isSome_iff_exists.mp ends
  have sound : ∀ s ∈ System.after 8 0 buildOnLoaded,
      (s.storage.getSlot ⟨2, 1, 1⟩).map (·.dependencies) = some [⟨1, 1, 1⟩] ∧
      Along (Recorded.step 8) (fun r a => a.Sound r.storage) Recorded.init s.traced.log := by
    decide +kernel
  exact ⟨s, hs, (sound s hs).1, (System.dependencies_symmetric 8 0 _ s hs (sound s hs).2).1⟩

/-- The step callback of `d` gives up `d` and the asset that holds it, and so destroys `d`; the step
then completes the load in the empty slot. Destroying the type by force puts the slot into the free list
a second time, and two later loads share it. -/
def destroyWhileStepping : List System.Event :=
  dependencySetup ++ [.call (loadOne ['d', '.', 'x'] (turn [] [])),
    .call (buildTwo [⟨⟨1, 1, 1⟩, .optional⟩] (turn [] [])),
    .process [turn [.release ⟨1, 1, 1⟩, .release ⟨2, 1, 1⟩] []],
    .forceUnload 1 0 [],
    .call (loadOne ['p', '.', 'x'] (turn [] [])), .process [turn [] []],
    .call (buildTwo [⟨⟨1, 1, 3⟩, .required⟩] (turn [] [])),
    .call (loadOne ['q', '.', 'x'] (turn [] []))]

/-- A dependency is left on one side only. -/
theorem System.dependencies_not_symmetric : ¬ ∀ s : System 8,
    System.after 8 0 destroyWhileStepping = some s → s.storage.Symmetric := by
  intro law
  have ends : (System.after 8 0 destroyWhileStepping).isSome = true := by decide +kernel
  obtain ⟨s, hs⟩ := Option.isSome_iff_exists.mp ends
  have seen : ∀ s ∈ System.after 8 0 destroyWhileStepping,
      (∃ sa ∈ s.storage.getSlot ⟨2, 1, 2⟩, sa.state ≠ .empty ∧ ⟨1, 1, 3⟩ ∈ sa.dependencies) ∧
      ∃ sd ∈ s.storage.getSlot ⟨1, 1, 3⟩, sd.state ≠ .empty ∧ sd.dependents = [] := by
    decide +kernel
  obtain ⟨⟨sa, ha, hsa, hm⟩, sd, hd, hsd, hnil⟩ := seen s hs
  have := ((law s hs).mirror _ sa _ sd ha hsa hd hsd).mp hm
  rw [hnil] at this
  cases this

end PulseEngine.Asset
