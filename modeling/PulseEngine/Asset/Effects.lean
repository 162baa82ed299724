import PulseEngine.Asset.Removal

/-!
# What an action does

One specification for each operation of `Asset/Action.lean` on a well-formed storage: which slots it
rewrites and how, or which assets it removes. `Action.Sound` is what the operations take for
granted: a load job writes to a slot that still holds an asset, it completes an asset of its own
that is not complete, and an unloaded handle does not name an empty slot. Sound actions keep the
storage well formed.
-/

namespace PulseEngine.Asset

open Library

namespace Storage

/-- The slot at `id`, if there is one, holds an asset. -/
def HoldsAsset (st : Storage) (id : SlotId) : Prop := ∀ s ∈ st.slotAt id, s.state ≠ .empty

def NamesAsset (st : Storage) (h : Handle) : Prop := ∀ s ∈ st.getSlot h, s.state ≠ .empty

/-- The dependencies are there and loaded, so that `process_processing` completes the load. -/
def Completes (st : Storage) (dependencies : List Dependency) : Prop :=
  st.evaluate dependencies = ⟨false, true⟩

def Completable (st : Storage) (h : Handle) (dependencies : List Dependency) : Prop :=
  (∃ s ∈ st.getSlot h, s.state ≠ .empty ∧ s.constructed = false ∧ s.dependencies = []) ∧
    ∀ dep ∈ dependencies, st.NamesAsset dep.depRef

instance (st : Storage) (id : SlotId) : Decidable (st.HoldsAsset id) :=
  inferInstanceAs (Decidable (∀ s ∈ st.slotAt id, s.state ≠ .empty))

instance (st : Storage) (h : Handle) : Decidable (st.NamesAsset h) :=
  inferInstanceAs (Decidable (∀ s ∈ st.getSlot h, s.state ≠ .empty))

instance (st : Storage) (dependencies : List Dependency) : Decidable (st.Completes dependencies) :=
  inferInstanceAs (Decidable (_ = _))

instance (st : Storage) (h : Handle) (dependencies : List Dependency) :
    Decidable (st.Completable h dependencies) :=
  inferInstanceAs (Decidable (_ ∧ _))

end Storage

def Action.Sound (st : Storage) : Action → Prop
  | .setState h _ => st.HoldsAsset h.slotId
  | .failSlot h _ => st.HoldsAsset h.slotId
  | .stepDone h dependencies =>
    st.HoldsAsset h.slotId ∧ (st.Completes dependencies → st.Completable h dependencies)
  | .tryUnload h => st.NamesAsset h
  | _ => True

instance (st : Storage) : ∀ a : Action, Decidable (a.Sound st)
  | .create .. => .isTrue trivial
  | .setState h _ => inferInstanceAs (Decidable (st.HoldsAsset h.slotId))
  | .failSlot h _ => inferInstanceAs (Decidable (st.HoldsAsset h.slotId))
  | .setRetiring .. => .isTrue trivial
  | .stepDone h dependencies => inferInstanceAs (Decidable (st.HoldsAsset h.slotId ∧
      (st.Completes dependencies → st.Completable h dependencies)))
  | .retain _ => .isTrue trivial
  | .release _ => .isTrue trivial
  | .markModified _ => .isTrue trivial
  | .tryUnload h => inferInstanceAs (Decidable (st.NamesAsset h))
  | .forceDestroy _ => .isTrue trivial

lemma Slot.unpin_of_zero {s : Slot} (h : s.pinCount = 0) : s.unpin = s := by
  obtain ⟨g, st, p, pa, so, er, ve, co, re, de, dp⟩ := s
  cases h
  rfl

namespace Storage

section Effects

variable {st st' : Storage} {h : Handle} {s : Slot} {deps C D : List Handle} {fuel : Nat}

/-- What pinning the dependencies `deps` does to a slot. -/
def pinSlot (deps : List Handle) (id : SlotId) (s : Slot) : Slot :=
  if id.handle s ∈ deps ∧ s.state = .loaded then s.pin else s

/-- What giving the pins of the dependencies `deps` back does to a slot. -/
def unpinSlot (deps : List Handle) (id : SlotId) (s : Slot) : Slot :=
  if id.handle s ∈ deps then s.unpin else s

/-! What pinning leaves alone. -/

@[simp]
lemma pinSlot_generation (deps : List Handle) (id : SlotId) (s : Slot) :
    (pinSlot deps id s).generation = s.generation := by
  unfold pinSlot
  split <;> rfl

@[simp]
lemma pinSlot_state (deps : List Handle) (id : SlotId) (s : Slot) :
    (pinSlot deps id s).state = s.state := by
  unfold pinSlot
  split <;> rfl

@[simp]
lemma pinSlot_dependencies (deps : List Handle) (id : SlotId) (s : Slot) :
    (pinSlot deps id s).dependencies = s.dependencies := by
  unfold pinSlot
  split <;> rfl

@[simp]
lemma pinSlot_dependents (deps : List Handle) (id : SlotId) (s : Slot) :
    (pinSlot deps id s).dependents = s.dependents := by
  unfold pinSlot
  split <;> rfl

@[simp]
lemma unpinSlot_generation (deps : List Handle) (id : SlotId) (s : Slot) :
    (unpinSlot deps id s).generation = s.generation := by
  unfold unpinSlot
  split <;> rfl

@[simp]
lemma unpinSlot_state (deps : List Handle) (id : SlotId) (s : Slot) :
    (unpinSlot deps id s).state = s.state := by
  unfold unpinSlot
  split <;> rfl

@[simp]
lemma unpinSlot_dependencies (deps : List Handle) (id : SlotId) (s : Slot) :
    (unpinSlot deps id s).dependencies = s.dependencies := by
  unfold unpinSlot
  split <;> rfl

@[simp]
lemma unpinSlot_dependents (deps : List Handle) (id : SlotId) (s : Slot) :
    (unpinSlot deps id s).dependents = s.dependents := by
  unfold unpinSlot
  split <;> rfl

lemma Edited.pinCommittedDependencies (st : Storage) (nodup : deps.Nodup)
    (valid : ∀ d ∈ deps, d.isValid = true) :
    Edited (pinSlot deps) st (st.pinCommittedDependencies deps) := by
  have turn : ∀ st y, Edited (fun id s => if y.isValid = true ∧ id.handle s = y then
      if s.state = .loaded then s.pin else s else s) st (st.pinDependency y) := by
    intro st y
    refine Edited.of_getSlot (f := fun s => if s.state = .loaded then s.pin else s)
      (fun hy => by simp [pinDependency, hy]) fun sy hy => ?_
    obtain ⟨_, hat, _⟩ := getSlot_eq_some.mp hy
    simp only [pinDependency, hy]
    by_cases hl : sy.state = .loaded
    · rw [if_pos hl]
      refine (Edited.modifySlot st y.slotId _).congr fun {id s} hs => ?_
      split
      · rename_i hid
        subst hid
        rw [hat] at hs
        cases hs
        rw [if_pos hl]
      · rfl
    · rw [if_neg hl]
      refine (Edited.refl st).congr fun {id s} hs => ?_
      split
      · rename_i hid
        subst hid
        rw [hat] at hs
        cases hs
        rw [if_neg hl]
      · rfl
  refine (Edited.foldl (fun s => ?_) turn st nodup).congr fun {id s} _ => ?_
  · split <;> rfl
  · unfold pinSlot
    by_cases hm : id.handle s ∈ deps
    · simp [hm, valid _ hm]
    · simp [hm]

lemma Edited.unpinCommittedDependencies (st : Storage) (nodup : deps.Nodup)
    (valid : ∀ d ∈ deps, d.isValid = true) :
    Edited (unpinSlot deps) st (st.unpinCommittedDependencies deps) := by
  have turn : ∀ st y, Edited (fun id s => if y.isValid = true ∧ id.handle s = y then s.unpin else s)
      st (st.unpinDependency y) := by
    intro st y
    refine Edited.of_getSlot (fun hy => by simp [unpinDependency, hy]) fun sy hy => ?_
    obtain ⟨_, hat, _⟩ := getSlot_eq_some.mp hy
    simp only [unpinDependency, hy]
    by_cases hp : 0 < sy.pinCount
    · rw [if_pos hp]
      exact Edited.modifySlot st y.slotId _
    · rw [if_neg hp]
      refine (Edited.refl st).congr fun {id s} hs => ?_
      split
      · rename_i hid
        subst hid
        rw [hat] at hs
        cases hs
        rw [Slot.unpin_of_zero (by omega)]
      · rfl
  refine (Edited.foldl (f := Slot.unpin) (fun s => rfl) turn st nodup).congr fun {id s} _ => ?_
  unfold unpinSlot
  by_cases hm : id.handle s ∈ deps
  · simp [hm, valid _ hm]
  · simp [hm]

lemma WellFormed.valid (wf : WellFormed st) (hs : st.getSlot h = some s) :
    ∀ d ∈ s.dependencies, d.isValid = true := by
  intro d hd
  obtain ⟨sd, hsd, _⟩ := wf.forth hs hd
  exact (getSlot_eq_some.mp hsd).1

def retainSlot (h : Handle) (deps : List Handle) (id : SlotId) (s : Slot) : Slot :=
  pinSlot deps id (if h.slotId = id then s.pin else s)

/-- What `release` does to a slot before it looks whether to unload. -/
def releasedSlot (h : Handle) (deps : List Handle) (id : SlotId) (s : Slot) : Slot :=
  unpinSlot deps id (if h.slotId = id then s.unpin else s)

@[simp]
lemma retainSlot_generation (h : Handle) (deps : List Handle) (id : SlotId) (s : Slot) :
    (retainSlot h deps id s).generation = s.generation := by
  unfold retainSlot
  split <;> simp [Slot.pin]

@[simp]
lemma retainSlot_state (h : Handle) (deps : List Handle) (id : SlotId) (s : Slot) :
    (retainSlot h deps id s).state = s.state := by
  unfold retainSlot
  split <;> simp [Slot.pin]

@[simp]
lemma retainSlot_dependencies (h : Handle) (deps : List Handle) (id : SlotId) (s : Slot) :
    (retainSlot h deps id s).dependencies = s.dependencies := by
  unfold retainSlot
  split <;> simp [Slot.pin]

@[simp]
lemma retainSlot_dependents (h : Handle) (deps : List Handle) (id : SlotId) (s : Slot) :
    (retainSlot h deps id s).dependents = s.dependents := by
  unfold retainSlot
  split <;> simp [Slot.pin]

@[simp]
lemma releasedSlot_generation (h : Handle) (deps : List Handle) (id : SlotId) (s : Slot) :
    (releasedSlot h deps id s).generation = s.generation := by
  unfold releasedSlot
  split <;> simp [Slot.unpin]

@[simp]
lemma releasedSlot_state (h : Handle) (deps : List Handle) (id : SlotId) (s : Slot) :
    (releasedSlot h deps id s).state = s.state := by
  unfold releasedSlot
  split <;> simp [Slot.unpin]

@[simp]
lemma releasedSlot_dependencies (h : Handle) (deps : List Handle) (id : SlotId) (s : Slot) :
    (releasedSlot h deps id s).dependencies = s.dependencies := by
  unfold releasedSlot
  split <;> simp [Slot.unpin]

@[simp]
lemma releasedSlot_dependents (h : Handle) (deps : List Handle) (id : SlotId) (s : Slot) :
    (releasedSlot h deps id s).dependents = s.dependents := by
  unfold releasedSlot
  split <;> simp [Slot.unpin]

@[simp]
lemma releasedSlot_retiringLoadJob (h : Handle) (deps : List Handle) (id : SlotId) (s : Slot) :
    (releasedSlot h deps id s).retiringLoadJob = s.retiringLoadJob := by
  unfold releasedSlot unpinSlot
  split <;> split <;> rfl

lemma WellFormed.retain (wf : WellFormed st) (e : st.retain h = .ok st') :
    ∃ s, st.getSlot h = some s ∧ s.state ≠ .empty ∧ s.state ≠ .pendingDelete ∧
      Edited (retainSlot h s.dependencies) st st' := by
  unfold Storage.retain at e
  cases hs : st.getSlot h with
  | none =>
    rw [hs] at e
    cases e
  | some s =>
    simp only [hs] at e
    split at e
    · cases e
    · rename_i he
      split at e
      · cases e
      · rename_i hp
        cases e
        refine ⟨s, rfl, he, hp, ?_⟩
        exact (Edited.modifySlot st h.slotId Slot.pin).trans
          (Edited.pinCommittedDependencies _ (wf.nodup hs) (wf.valid hs))

lemma WellFormed.retained (wf : WellFormed st) (hs : st.getSlot h = some s)
    (hocc : s.state ≠ .empty) (e : Edited (retainSlot h s.dependencies) st st') :
    WellFormed st' := by
  refine wf.edit e fun {id s'} hs' => ?_
  refine ⟨by simp, by simp, by simp, by simp, ?_⟩
  · intro he hb
    have hid : h.slotId ≠ id := by
      rintro rfl
      rw [getSlot_eq_slotAt hs' hs] at hocc
      exact hocc he
    have hl : s'.state ≠ .loaded := by simp [he]
    simpa [retainSlot, pinSlot, hid, hl] using hb

lemma WellFormed.released (wf : WellFormed st) (e : Edited (releasedSlot h deps) st st') :
    WellFormed st' := by
  refine wf.edit e fun {id s'} _ => ?_
  refine ⟨by simp, by simp, by simp, by simp, ?_⟩
  · intro _ hb
    have hu := Slot.unpin_of_zero hb.pinCount
    simpa [releasedSlot, unpinSlot, hu] using hb

inductive Settled (st : Storage) (h : Handle) (s : Slot) (st' : Storage) : Prop where
  /-- The load goes on, or its job is being retired: the asset is marked. -/
  | pending (zero : s.pinCount = 0)
      (busy : s.retiringLoadJob = true ∨ s.state.isLoadInProgress = true)
      (e : st' = st.modifySlot h.slotId setPendingDelete)
  | kept (e : st' = st)
  | removed (D : List Handle) (r : Removed st st' D)
      (unpinned : ∀ x ∈ D, ∀ s, st.getSlot x = some s → s.pinCount = 0)

lemma WellFormed.release (wf : WellFormed st) (e : st.release fuel h = some (.ok st')) :
    ∃ s st₁, st.getSlot h = some s ∧ s.pinCount ≠ 0 ∧
      Edited (releasedSlot h s.dependencies) st st₁ ∧
      Settled st₁ h (releasedSlot h s.dependencies h.slotId s) st' := by
  unfold Storage.release at e
  cases hs : st.getSlot h with
  | none =>
    rw [hs] at e
    cases e
  | some s =>
    simp only [hs] at e
    split at e
    · cases e
    · rename_i hp
      have eff : Edited (releasedSlot h s.dependencies) st
          ((st.modifySlot h.slotId Slot.unpin).unpinCommittedDependencies s.dependencies) :=
        (Edited.modifySlot st h.slotId Slot.unpin).trans
          (Edited.unpinCommittedDependencies _ (wf.nodup hs) (wf.valid hs))
      refine ⟨s, _, rfl, hp, eff, ?_⟩
      generalize (st.modifySlot h.slotId Slot.unpin).unpinCommittedDependencies s.dependencies = st₁
        at e eff
      obtain ⟨_, hat, _⟩ := getSlot_eq_some.mp hs
      have hat₁ : st₁.slotAt h.slotId = some (releasedSlot h s.dependencies h.slotId s) := by
        rw [eff.slots, hat, Option.map_some]
      have hocc₁ : (releasedSlot h s.dependencies h.slotId s).state ≠ .empty := by
        rw [releasedSlot_state]
        exact fun he => hp (wf.blank hat he).pinCount
      generalize releasedSlot h s.dependencies h.slotId s = s₁ at hat₁ hocc₁
      unfold releaseSlot at e
      simp only [hat₁] at e
      split at e
      · rename_i hr
        by_cases hz : s₁.pinCount = 0
        · simp only [hz, if_true, Option.map_some, Option.some.injEq, Except.ok.injEq] at e
          exact .pending hz (Or.inl hr) e.symm
        · simp only [hz, if_false, Option.map_some, Option.some.injEq, Except.ok.injEq] at e
          exact .kept e.symm
      · split at e
        · rename_i hl
          by_cases hz : s₁.pinCount = 0
          · simp only [hz, if_true, Option.map_some, Option.some.injEq, Except.ok.injEq] at e
            exact .pending hz (Or.inr hl) e.symm
          · simp only [hz, if_false, Option.map_some, Option.some.injEq, Except.ok.injEq] at e
            exact .kept e.symm
        · split at e
          · have wf₁ := wf.released eff
            have hocc : ∀ s', st₁.getSlot h = some s' → s'.state ≠ .empty := by
              intro s' hs'
              rw [getSlot_eq_slotAt hat₁ hs']
              exact hocc₁
            rcases wf₁.tryUnloadSlot hocc fuel with ⟨hnone, _⟩ | ⟨st₂, D, hsome, r, hpins⟩
            · rw [hnone] at e
              cases e
            · rw [hsome] at e
              simp only [Option.map_some, Option.some.injEq, Except.ok.injEq] at e
              subst e
              exact .removed D r hpins
          · simp only [Option.map_some, Option.some.injEq, Except.ok.injEq] at e
            exact .kept e.symm

/-- What completing the load of `h` with the committed dependencies `C` does to a slot. -/
def completeSlot (h : Handle) (C : List Handle) (id : SlotId) (s : Slot) : Slot :=
  let s := pinSlot C id (commitSlot h C id s)
  if h.slotId = id then { s with constructed := true, state := .loaded, error := "" } else s

@[simp]
lemma completeSlot_generation (h : Handle) (C : List Handle) (id : SlotId) (s : Slot) :
    (completeSlot h C id s).generation = s.generation := by
  unfold completeSlot
  split <;> simp [commitSlot]

@[simp]
lemma completeSlot_state (h : Handle) (C : List Handle) (id : SlotId) (s : Slot) :
    (completeSlot h C id s).state = if h.slotId = id then .loaded else s.state := by
  unfold completeSlot
  split <;> simp [commitSlot]

@[simp]
lemma completeSlot_dependencies (h : Handle) (C : List Handle) (id : SlotId) (s : Slot) :
    (completeSlot h C id s).dependencies = if h.slotId = id then C else s.dependencies := by
  unfold completeSlot
  split <;> simp_all [commitSlot, eq_comm]

@[simp]
lemma completeSlot_dependents (h : Handle) (C : List Handle) (id : SlotId) (s : Slot) :
    (completeSlot h C id s).dependents =
      if id.handle s ∈ C then s.dependents ++ [h] else s.dependents := by
  unfold completeSlot
  split <;> simp [commitSlot]

/-- `h`, which had no dependencies, is complete with the dependencies `C`. -/
structure Completed (st st' : Storage) (h : Handle) (deps : List Dependency) (C : List Handle) :
    Prop where
  slot : ∃ s, st.getSlot h = some s ∧ s.state ≠ .empty ∧ s.constructed = false ∧
    s.dependencies = []
  assets : ∀ d ∈ C, ∃ sd, st.getSlot d = some sd ∧ sd.state ≠ .empty
  mem : ∀ d, d ∈ C ↔ (∃ dep ∈ deps, dep.depRef = d) ∧ (st.getSlot d).isSome
  nodup : C.Nodup
  edited : Edited (completeSlot h C) st st'

lemma WellFormed.stepDone (wf : WellFormed st) {deps : List Dependency}
    (ready : st.Completes deps) (ok : st.Completable h deps) (fuel : Nat) :
    ∃ st' C, st.stepDone fuel h deps = some st' ∧ Completed st st' h deps C ∧ WellFormed st' := by
  obtain ⟨⟨s, hs, hocc, hcon, hnil⟩, hdeps⟩ := ok
  obtain ⟨st₁, C, hcommit, eff, hC⟩ := commit_spec fuel hs hnil deps
  have assets : ∀ d ∈ C, ∃ sd, st.getSlot d = some sd ∧ sd.state ≠ .empty := by
    intro d hd
    obtain ⟨⟨dep, hdep, rfl⟩, hsome⟩ := (hC d).mp hd
    obtain ⟨sd, hsd⟩ := Option.isSome_iff_exists.mp hsome
    exact ⟨sd, hsd, hdeps dep hdep sd hsd⟩
  have wf₁ := wf.committed eff hs hocc hnil fun d hd sd hsd => by
    obtain ⟨sd', hsd', hne⟩ := assets d hd
    rw [hsd] at hsd'
    cases hsd'
    exact hne
  obtain ⟨_, hat, _⟩ := getSlot_eq_some.mp hs
  have hat₁ : st₁.slotAt h.slotId = some (commitSlot h C h.slotId s) := by
    rw [eff.edited.slots, hat, Option.map_some]
  have hget₁ : st₁.getSlot h = some (commitSlot h C h.slotId s) := by
    rw [eff.getSlot, hs, Option.map_some]
  have hself : (commitSlot h C h.slotId s).dependencies = C := by simp [commitSlot]
  have pinned : Edited (pinSlot C) st₁ (st₁.pinCommittedDependencies C) :=
    Edited.pinCommittedDependencies st₁ eff.nodup (hself ▸ wf₁.valid hget₁)
  have wf₂ : WellFormed (st₁.pinCommittedDependencies C) := by
    refine wf₁.edit pinned fun {id s'} _ => ?_
    refine ⟨by simp, by simp, by simp, by simp, ?_⟩
    · intro he hb
      have hl : s'.state ≠ .loaded := by simp [he]
      simpa [pinSlot, hl] using hb
  refine ⟨(st₁.pinCommittedDependencies C).finishLoaded h, C, ?_,
    ⟨⟨s, hs, hocc, hcon, hnil⟩, assets, hC, eff.nodup, ?_⟩, ?_⟩
  · unfold Storage.stepDone
    unfold Completes at ready
    simp [ready, hcommit, hat₁, hself]
  · refine ((eff.edited.trans pinned).trans (Edited.modifySlot _ _ _)).congr fun {id s'} _ => ?_
    rfl
  · refine wf₂.write ⟨fun _ => rfl, fun _ => rfl, fun _ => rfl⟩ fun s₂ hs₂ => ?_
    rw [pinned.slots, hat₁, Option.map_some] at hs₂
    cases hs₂
    refine ⟨?_, by simp⟩
    rw [pinSlot_state]
    exact hocc

lemma stepDone_of_not_completes {deps : List Dependency} (ready : ¬ st.Completes deps)
    (fuel : Nat) :
    (∃ error, st.stepDone fuel h deps = some (st.failSlot h error)) ∨
      st.stepDone fuel h deps = some (st.setState h ⟨.waitingDependencies, rfl⟩) := by
  unfold Storage.stepDone
  by_cases hf : (st.evaluate deps).failed = true
  · left
    exact ⟨"dependency asset failed to load", by simp [hf]⟩
  · right
    have hr : (st.evaluate deps).ready = false := by
      by_contra hr
      apply ready
      have : st.evaluate deps = ⟨(st.evaluate deps).failed, (st.evaluate deps).ready⟩ := rfl
      unfold Completes
      rw [this]
      simp [Bool.not_eq_true _ ▸ hf, Bool.not_eq_false _ ▸ hr]
    simp [hf, hr]

/-- `st'` is `st` with a new asset that is pinned once. -/
structure Created (st st' : Storage) (h : Handle) (path : Path) (source : LoadSource) :
    Prop where
  valid : h.isValid = true
  slot : ∃ s, (st.slotAt h.slotId = some s ∧ s.state = .empty ∨
      st.slotAt h.slotId = none ∧ s = Slot.fresh) ∧ s.generation = h.generation ∧
    st'.slotAt h.slotId = some { s.allocate path with source := source, pinCount := 1 }
  others : ∀ id, id ≠ h.slotId → st'.slotAt id = st.slotAt id ∨
    (st.slotAt id = none ∧ st'.slotAt id = some Slot.fresh ∧ id = ⟨h.typeId, 0⟩)
  destroyed : st'.destroyed = st.destroyed
  hasDestroy : ∀ t, (st.buckets t).isSome → st'.hasDestroy t = st.hasDestroy t
  hasBucket : ∀ t, (st.buckets t).isSome → (st'.buckets t).isSome

lemma WellFormed.createAsset (wf : WellFormed st) {type : Option AssetTypeDesc} {t : TypeId}
    {path : Path} {source : LoadSource}
    (e : st.createAsset type t path source = some (st', h)) :
    h.typeId = t ∧ Created st st' h path source ∧ WellFormed st' := by
  unfold Storage.createAsset at e
  simp only [Option.bind_eq_bind, Option.bind_eq_some_iff, Option.pure_def, Option.some.injEq,
    Prod.mk.injEq, Option.guard_eq_some'] at e
  obtain ⟨_, ht, ⟨st₁, h₁⟩, halloc, rfl, rfl⟩ := e
  obtain ⟨htype, eff, wf₁⟩ := wf.allocateSlot ht halloc
  obtain ⟨s, hbefore, hgen, hafter⟩ := eff.slot
  have occupied : ∀ s', st₁.slotAt h₁.slotId = some s' → s'.state ≠ .empty := by
    intro s' hs'
    rw [hafter] at hs'
    cases hs'
    simp [Slot.allocate]
  set st₂ := st₁.modifySlot h₁.slotId fun slot => { slot with source := source } with hst₂
  have wf₂ : WellFormed st₂ := wf₁.write ⟨fun _ => rfl, fun _ => rfl, fun _ => rfl⟩
    fun s' hs' => ⟨occupied s' hs', occupied s' hs'⟩
  set st₃ := if source ≠ .builder ∧ path ≠ [] then st₂.cachePath t path h₁ else st₂ with hst₃
  have same : st₃.buckets = st₂.buckets ∧ st₃.destroyed = st₂.destroyed := by
    rw [hst₃]
    split <;> exact ⟨rfl, rfl⟩
  have slots : ∀ id, st₃.slotAt id = st₂.slotAt id := fun id => by rw [slotAt, same.1, slotAt]
  have wf₃ : WellFormed st₃ := by
    refine wf₂.congr slots (fun t' => ?_) (fun t' => ?_)
    · rw [freeIndices, same.1, freeIndices]
    · rw [same.1]
      exact id
  have hat₃ : st₃.slotAt h₁.slotId = some { s.allocate path with source := source } := by
    rw [slots, hst₂, slotAt_modifySlot, if_pos rfl, hafter, Option.map_some]
  refine ⟨htype, ⟨eff.valid, ⟨s, hbefore, hgen, ?_⟩, fun id hid => ?_, ?_, fun t' ht' => ?_,
    fun t' ht' => ?_⟩, ?_⟩
  · rw [slotAt_modifySlot, if_pos rfl, hat₃, Option.map_some]
  · rw [slotAt_modifySlot, if_neg fun e => hid e.symm, slots, hst₂, slotAt_modifySlot,
      if_neg fun e => hid e.symm]
    exact eff.others id hid
  · exact same.2.trans eff.destroyed
  · rw [hasDestroy_modifySlot, hasDestroy, same.1]
    exact (hasDestroy_modifySlot _ _ _ _).trans (eff.hasDestroy t' ht')
  · rw [isSome_buckets_modifySlot, same.1, hst₂, isSome_buckets_modifySlot]
    exact eff.hasBucket t' ht'
  · refine wf₃.write ⟨fun _ => rfl, fun _ => rfl, fun _ => rfl⟩ fun s' hs' => ?_
    rw [hat₃] at hs'
    cases hs'
    simp [Slot.allocate]

inductive Effect (fuel : Nat) (st : Storage) (history : History) :
    Action → Storage → History → Prop where
  | created {type : Option AssetTypeDesc} {t : TypeId} {path : Path} {source : LoadSource}
      {h : Handle} {st' : Storage} (wf : st'.WellFormed) (e : Created st st' h path source) :
      Effect fuel st history (.create type t path source) st' { history with
        userPins := Function.update history.userPins h 1
        created := h :: history.created
        required := Function.update history.required h [] }
  | setState {h : Handle} {state : ProgressState} (holds : st.HoldsAsset h.slotId) :
      Effect fuel st history (.setState h state) (st.setState h state) history
  | failSlot {h : Handle} {error : String} (holds : st.HoldsAsset h.slotId) :
      Effect fuel st history (.failSlot h error) (st.failSlot h error) history
  | setRetiring {h : Handle} {retiring : Bool} :
      Effect fuel st history (.setRetiring h retiring) (st.setRetiring h retiring) history
  | stepFailed {h : Handle} {deps : List Dependency} {error : String}
      (ready : ¬ st.Completes deps) (holds : st.HoldsAsset h.slotId) :
      Effect fuel st history (.stepDone h deps) (st.failSlot h error) history
  | stepWaits {h : Handle} {deps : List Dependency}
      (ready : ¬ st.Completes deps) (holds : st.HoldsAsset h.slotId) :
      Effect fuel st history (.stepDone h deps) (st.setState h ⟨.waitingDependencies, rfl⟩) history
  | completed {h : Handle} {deps : List Dependency} {C : List Handle} {st' : Storage}
      (ready : st.Completes deps) (wf : st'.WellFormed) (e : Completed st st' h deps C) :
      Effect fuel st history (.stepDone h deps) st' { history with
        loaded := h :: history.loaded
        required := Function.update history.required h
          ((deps.filter fun dep => dep.requirement = .required).map (·.depRef)) }
  | retained {h : Handle} {s : Slot} {st' : Storage} (hs : st.getSlot h = some s)
      (occupied : s.state ≠ .empty) (live : s.state ≠ .pendingDelete)
      (e : Edited (retainSlot h s.dependencies) st st') :
      Effect fuel st history (.retain h) st' { history with
        userPins := Function.update history.userPins h (history.userPins h + 1) }
  | retainRefused {h : Handle} : Effect fuel st history (.retain h) st history
  | released {h : Handle} {s : Slot} {st₁ st' : Storage} (hs : st.getSlot h = some s)
      (pinned : s.pinCount ≠ 0) (occupied : s.state ≠ .empty)
      (e : Edited (releasedSlot h s.dependencies) st st₁)
      (settled : Settled st₁ h (releasedSlot h s.dependencies h.slotId s) st') :
      Effect fuel st history (.release h) st' { history with
        userPins := Function.update history.userPins h (history.userPins h - 1) }
  | releaseRefused {h : Handle} : Effect fuel st history (.release h) st history
  | marked {h : Handle} {s : Slot} (hs : st.getSlot h = some s) (loaded : s.state = .loaded) :
      Effect fuel st history (.markModified h)
        (st.modifySlot h.slotId fun slot =>
          { slot with version := (slot.version + 1) % 2 ^ 64 }) history
  | unmarked {h : Handle} : Effect fuel st history (.markModified h) st history
  | unloaded {h : Handle} {D : List Handle} {st' : Storage} (r : Removed st st' D)
      (unpinned : ∀ x ∈ D, ∀ s, st.getSlot x = some s → s.pinCount = 0) :
      Effect fuel st history (.tryUnload h) st' history
  | forced {t : TypeId} {st' : Storage} (e : st.forceDestroyAssets fuel t = some st') :
      Effect fuel st history (.forceDestroy t) st' history

lemma currentHandle_eq (hs : st.getSlot h = some s) : st.currentHandle h.slotId = h := by
  obtain ⟨_, hat, hg⟩ := getSlot_eq_some.mp hs
  have : st.currentHandle h.slotId = h.slotId.handle s := by
    simp [currentHandle, SlotId.handle, hat]
  rw [this, Handle.handle_eq hg]

/-- **Inversion.** Everything a sound action can do. -/
theorem WellFormed.effect (wf : WellFormed st) {history history' : History} {a : Action}
    (sound : a.Sound st)
    (e : Recorded.step fuel ⟨st, history⟩ a = some ⟨st', history'⟩) :
    Effect fuel st history a st' history' := by
  simp only [Recorded.step, Option.map_eq_some_iff, Recorded.mk.injEq] at e
  obtain ⟨st', e, rfl, rfl⟩ := e
  cases a with
  | create type t path source =>
    obtain ⟨⟨st₁, h⟩, e₁, rfl⟩ := Option.map_eq_some_iff.mp e
    simp only [Action.record, e₁]
    obtain ⟨_, created, wf₁⟩ := wf.createAsset e₁
    exact .created wf₁ created
  | setState h state =>
    cases e
    exact .setState sound
  | failSlot h error =>
    cases e
    exact .failSlot sound
  | setRetiring h retiring =>
    cases e
    exact .setRetiring
  | stepDone h dependencies =>
    change st.stepDone fuel h dependencies = some st' at e
    by_cases ready : st.Completes dependencies
    · obtain ⟨st₁, C, e₁, completed, wf₁⟩ := wf.stepDone ready (sound.2 ready) fuel
      rw [e₁] at e
      cases e
      obtain ⟨s, hs, _⟩ := completed.slot
      have hrec : (Action.stepDone h dependencies).record st history = { history with
          loaded := h :: history.loaded
          required := Function.update history.required h
            ((dependencies.filter fun dep => dep.requirement = .required).map (·.depRef)) } := by
        unfold Completes at ready
        simp [Action.record, ready, currentHandle_eq hs]
      rw [hrec]
      exact .completed ready wf₁ completed
    · have hrec : (Action.stepDone h dependencies).record st history = history := by
        simp only [Action.record]
        rw [if_neg]
        intro hc
        apply ready
        rw [Bool.and_eq_true, Bool.not_eq_true'] at hc
        unfold Completes
        rw [← hc.1, ← hc.2]
      rw [hrec]
      rcases stepDone_of_not_completes (h := h) ready fuel with ⟨error, e₁⟩ | e₁
      · rw [e₁] at e
        cases e
        exact .stepFailed ready sound.1
      · rw [e₁] at e
        cases e
        exact .stepWaits ready sound.1
  | retain h =>
    simp only [Action.apply] at e
    cases e₁ : st.retain h with
    | ok st₁ =>
      simp only [e₁, Option.some.injEq] at e
      subst e
      obtain ⟨s, hs, hocc, hlive, eff⟩ := wf.retain e₁
      simp only [Action.record, e₁]
      exact .retained hs hocc hlive eff
    | error code =>
      simp only [e₁, Option.some.injEq] at e
      subst e
      simp only [Action.record, e₁]
      exact .retainRefused
  | release h =>
    simp only [Action.apply] at e
    cases e₁ : st.release fuel h with
    | none => simp [e₁] at e
    | some result =>
      cases result with
      | error code =>
        simp only [e₁, Option.some.injEq] at e
        subst e
        have hno : st.isReleasable h = false := by
          unfold Storage.release at e₁
          unfold isReleasable
          cases hs : st.getSlot h with
          | none => rfl
          | some s =>
            simp only [hs] at e₁
            split at e₁
            · rename_i hp
              simp [hp]
            · obtain ⟨_, _, hc⟩ := Option.map_eq_some_iff.mp e₁
              cases hc
        simp only [Action.record, hno]
        exact .releaseRefused
      | ok st₁ =>
        simp only [e₁, Option.some.injEq] at e
        subst e
        obtain ⟨s, st₂, hs, hp, eff, settled⟩ := wf.release e₁
        have hyes : st.isReleasable h = true := by simp [isReleasable, hs, hp]
        simp only [Action.record, hyes, if_true]
        have hocc : s.state ≠ .empty :=
          fun he => hp (wf.blank (getSlot_eq_some.mp hs).2.1 he).pinCount
        exact .released hs hp hocc eff settled
  | markModified h =>
    cases e
    show Effect fuel st history (.markModified h) (st.markModified h) history
    unfold Storage.markModified
    cases hs : st.getSlot h with
    | none => exact .unmarked
    | some s =>
      simp only
      split
      · rename_i hl
        exact .marked hs hl
      · exact .unmarked
  | tryUnload h =>
    change Storage.tryUnloadSlot (Storage.destroySlot fuel) st h = some st' at e
    rcases wf.tryUnloadSlot (h := h) (fun s hs => sound s hs) fuel with
      ⟨hnone, _⟩ | ⟨_, D, e₁, r, unpinned⟩
    · rw [hnone] at e
      cases e
    · rw [e₁] at e
      cases e
      exact .unloaded r unpinned
  | forceDestroy t => exact .forced e

lemma WellFormed.pending (wf : WellFormed st) (hs : st.getSlot h = some s)
    (hocc : s.state ≠ .empty) (e : Edited (releasedSlot h deps) st st') :
    WellFormed (st'.modifySlot h.slotId setPendingDelete) := by
  refine (wf.released e).write ⟨fun _ => rfl, fun _ => rfl, fun _ => rfl⟩ fun s' hs' => ?_
  obtain ⟨_, hat, _⟩ := getSlot_eq_some.mp hs
  rw [e.slots, hat, Option.map_some] at hs'
  cases hs'
  refine ⟨?_, by simp [setPendingDelete]⟩
  rw [releasedSlot_state]
  exact hocc

/-- Sound actions keep the storage well formed. -/
theorem WellFormed.step (wf : WellFormed st) {history history' : History} {a : Action}
    (eff : Effect fuel st history a st' history') : WellFormed st' := by
  have demote : ∀ {h : Handle} (f : Slot → Slot), KeepsLinks f → (∀ s, (f s).state ≠ .empty) →
      st.HoldsAsset h.slotId → (st.modifySlot h.slotId f).WellFormed :=
    fun f k hf holds => wf.write k fun s hs => ⟨holds s hs, hf s⟩
  cases eff with
  | created wf' _ => exact wf'
  | @setState h state holds =>
    refine demote _ ⟨fun _ => rfl, fun _ => rfl, fun _ => rfl⟩ (fun s => ?_) holds
    obtain ⟨state, hstate⟩ := state
    rintro rfl
    cases hstate
  | failSlot holds =>
    exact demote _ ⟨fun _ => rfl, fun _ => rfl, fun _ => rfl⟩ (fun s => by simp) holds
  | setRetiring =>
    refine wf.edit (Edited.modifySlot _ _ _) fun {id s} _ => ?_
    split
    · exact ⟨rfl, rfl, rfl, Iff.rfl, fun _ hb =>
        ⟨hb.pinCount, hb.path, hb.constructed, hb.dependencies, hb.dependents⟩⟩
    · exact ⟨rfl, rfl, rfl, Iff.rfl, fun _ hb => hb⟩
  | stepFailed _ holds =>
    exact demote _ ⟨fun _ => rfl, fun _ => rfl, fun _ => rfl⟩ (fun s => by simp) holds
  | stepWaits _ holds =>
    exact demote _ ⟨fun _ => rfl, fun _ => rfl, fun _ => rfl⟩ (fun s => by simp) holds
  | completed _ wf' _ => exact wf'
  | retained hs occupied _ e => exact wf.retained hs occupied e
  | retainRefused => exact wf
  | released hs _ occupied e settled =>
    cases settled with
    | pending _ _ e' => exact e' ▸ wf.pending hs occupied e
    | kept e' => exact e' ▸ wf.released e
    | removed D r _ => exact (wf.released e).removed r
  | releaseRefused => exact wf
  | marked hs loaded =>
    refine wf.write ⟨fun _ => rfl, fun _ => rfl, fun _ => rfl⟩ fun s' hs' => ?_
    rw [← getSlot_eq_slotAt hs' hs, loaded]
    simp
  | unmarked => exact wf
  | unloaded r _ => exact wf.removed r
  | @forced t _ e =>
    rcases WellFormed.forceDestroyAssets (I := fun _ => True) (t := t)
      (fun _ _ _ _ => trivial) wf trivial fuel with ⟨hnone, _⟩ | ⟨_, e₁, wf₁, _⟩
    · rw [hnone] at e
      cases e
    · rw [e₁] at e
      cases e
      exact wf₁

/-- **Invariant rule for sound runs.** What the effect of every action under `P` keeps, holds after
every run under `P`. -/
theorem WellFormed.run {P : Recorded → Action → Prop} {I : Storage → History → Prop}
    (sound : ∀ r a, P r a → a.Sound r.storage) (init : I Storage.init History.init)
    (step : ∀ {st history a st' history'}, st.WellFormed → I st history → P ⟨st, history⟩ a →
      Effect fuel st history a st' history' → I st' history')
    {log : List Action} {r : Recorded}
    (along : Along (Recorded.step fuel) P Recorded.init log)
    (e : run (Recorded.step fuel) Recorded.init log = some r) :
    r.storage.WellFormed ∧ I r.storage r.history := by
  refine along.invariant (I := fun r => r.storage.WellFormed ∧ I r.storage r.history)
    (fun r a r' ⟨wf, inv⟩ safe e => ?_) ⟨WellFormed.init, init⟩ e
  have eff := wf.effect (sound r a safe) e
  exact ⟨wf.step eff, step wf inv safe eff⟩

end Effects

end Storage

end PulseEngine.Asset
