import PulseEngine.Asset.Pins

/-!
# Destroying everything once

Every completed load owes one destroy callback, and removing an asset runs it. While the system is
running, an asset is only removed once nothing depends on it, so its destruction cannot come back to
it. `destroyAllAssets` takes the slots as they come: destroying an asset may then unload its
dependencies and, around a cycle of assets nobody pins, the asset itself (`Cascades`). Where that
does not happen, it ends and has run every callback that was owed.
-/

namespace PulseEngine.Asset

open Library

namespace Storage

/-- Destroying `x` unloads `d`: nothing pins `d`, and whatever depends on it is `x` or is unloaded
along with `x`. -/
inductive Cascades (st : Storage) (x : Handle) : Handle → Prop where
  | unload {d : Handle} {s : Slot} (resolves : st.getSlot d = some s) (unpinned : s.pinCount = 0)
      (held : s.dependents ≠ []) (rest : ∀ z ∈ s.dependents, z ≠ x → Cascades st x z) :
      Cascades st x d

/-- Destroying the asset at `id` does not unload the asset itself. -/
def DestroyedOnceAt (st : Storage) (id : SlotId) : Prop :=
  ¬ Cascades st (st.currentHandle id) (st.currentHandle id)

def constructedCount (st : Storage) (x : Handle) : Nat :=
  if (st.getSlot x).any (·.constructed) then 1 else 0

def pendingCount (st : Storage) (x : Handle) : Nat :=
  if (st.getSlot x).any fun s => decide (s.state ≠ .empty) && !s.constructed then 1 else 0

/-- Every completed load has run its destroy callback or will have to, no load was completed for an
asset that was not created, and the buckets are those of the types of created assets. -/
structure CallbacksKept (st : Storage) (history : History) : Prop where
  due : ∀ x, st.hasDestroy x.typeId = true →
    st.destroyed.count x + st.constructedCount x = history.loaded.count x
  issued : ∀ x, history.loaded.count x + st.pendingCount x ≤ history.created.count x
  unknown : ∀ x, (st.buckets x.typeId).isSome = false →
    st.destroyed.count x = 0 ∧ history.loaded.count x = 0
  silent : ∀ x, st.hasDestroy x.typeId = false → st.destroyed.count x = 0
  known : ∀ t, (st.buckets t).isSome → ∃ x ∈ history.created, x.typeId = t

section Counts

variable {st st' : Storage} {history : History} {h : Handle} {s : Slot} {D ds : List Handle}
  {fuel : Nat}

lemma isSome_bucket_of_slotAt {id : SlotId} (hs : st.slotAt id = some s) :
    (st.buckets id.typeId).isSome := by
  unfold slotAt at hs
  cases hb : st.buckets id.typeId with
  | none => simp [hb] at hs
  | some b => rfl

lemma Detached.counts (e : Detached st st' D h ds) (x : Handle) :
    st'.constructedCount x = (if x ∈ D then 0 else st.constructedCount x) ∧
      st'.pendingCount x = (if x ∈ D then 0 else st.pendingCount x) := by
  have none_of_reset : ∀ {s₀ : Slot}, st'.getSlot x = some s₀.reset →
      st'.constructedCount x = 0 ∧ st'.pendingCount x = 0 := by
    intro s₀ hs
    simp [constructedCount, pendingCount, hs, Slot.reset]
  have none_of_none : st'.getSlot x = none →
      st'.constructedCount x = 0 ∧ st'.pendingCount x = 0 := by
    intro hs
    simp [constructedCount, pendingCount, hs]
  cases hs : st.getSlot x with
  | some s =>
    by_cases hm : x ∈ D
    · rw [if_pos hm, if_pos hm]
      exact none_of_none (e.getSlot_of_mem hs hm)
    · have hs' := e.getSlot_of_not_mem hs hm
      rw [Slot.detach_of_not_mem hm] at hs'
      simp [constructedCount, pendingCount, hs, hs', hm]
  | none =>
    have hzero : st.constructedCount x = 0 ∧ st.pendingCount x = 0 := by
      simp [constructedCount, pendingCount, hs]
    simp only [hzero.1, hzero.2, ite_self]
    cases hs' : st'.getSlot x with
    | none => exact none_of_none hs'
    | some s' =>
      rcases e.getSlot_cases hs' with ⟨s, hs₀, _⟩ | ⟨s, _, _, rfl⟩
      · rw [hs] at hs₀
        cases hs₀
      · exact none_of_reset hs'

lemma CallbacksKept.detached (kept : CallbacksKept st history) (e : Detached st st' D h ds) :
    CallbacksKept st' history := by
  have due : ∀ x, st.callbackDue x = true → st.constructedCount x = 1 := by
    intro x hx
    simp only [callbackDue, Bool.and_eq_true] at hx
    simp [constructedCount, hx.1]
  refine ⟨fun x hx => ?_, fun x => ?_, fun x hx => ?_, fun x hx => ?_, fun t ht => ?_⟩
  · rw [e.hasDestroy] at hx
    rw [e.destroyed, (e.counts x).1, ← kept.due x hx]
    by_cases hm : x ∈ D
    · by_cases hc : st.callbackDue x = true
      · simp [hm, hc, due x hc]
      · have hz : st.constructedCount x = 0 := by
          simp only [callbackDue, hx, Bool.and_true] at hc
          simp [constructedCount, hc]
        simp [hm, hc, hz]
    · simp [hm]
  · have hle := kept.issued x
    rw [(e.counts x).2]
    split <;> omega
  · rw [e.hasBucket] at hx
    obtain ⟨h₁, h₂⟩ := kept.unknown x hx
    have hno : st.callbackDue x = false := by
      have hb : st.hasDestroy x.typeId = false := by
        cases hbx : st.buckets x.typeId with
        | none => simp [hasDestroy, hbx]
        | some b => simp [hbx] at hx
      simp [callbackDue, hb]
    simp [e.destroyed, h₁, h₂, hno]
  · rw [e.hasDestroy] at hx
    have hno : st.callbackDue x = false := by simp [callbackDue, hx]
    simp [e.destroyed, kept.silent x hx, hno]
  · exact kept.known t (e.hasBucket t ▸ ht)

lemma CallbacksKept.atMost (kept : CallbacksKept st history) (x : Handle) :
    st.destroyed.count x ≤ history.created.count x := by
  have hissued := kept.issued x
  cases hx : st.hasDestroy x.typeId with
  | true =>
    have := kept.due x hx
    omega
  | false =>
    have := kept.silent x hx
    omega

lemma CallbacksKept.edit {F : SlotId → Slot → Slot} (kept : CallbacksKept st history)
    (e : Edited F st st') (hF : ∀ {id s}, st.slotAt id = some s →
      (F id s).generation = s.generation ∧ (F id s).constructed = s.constructed ∧
        ((F id s).state = .empty ↔ s.state = .empty)) : CallbacksKept st' history := by
  have counts : ∀ x, st'.constructedCount x = st.constructedCount x ∧
      st'.pendingCount x = st.pendingCount x := by
    intro x
    have hget : st'.getSlot x = (st.getSlot x).map (F x.slotId) := by
      cases hx : st.getSlot x with
      | none =>
        rw [Option.map_none, Option.eq_none_iff_forall_not_mem]
        intro s' hs'
        obtain ⟨hv, hat, hg⟩ := getSlot_eq_some.mp hs'
        rw [e.slots] at hat
        obtain ⟨s, hs, rfl⟩ := Option.map_eq_some_iff.mp hat
        rw [getSlot_eq_some.mpr ⟨hv, hs, (hF hs).1 ▸ hg⟩] at hx
        cases hx
      | some s =>
        obtain ⟨hv, hat, hg⟩ := getSlot_eq_some.mp hx
        refine getSlot_eq_some.mpr ⟨hv, ?_, (hF hat).1.trans hg⟩
        rw [e.slots, hat, Option.map_some]
    cases hx : st.getSlot x with
    | none => simp [constructedCount, pendingCount, hget, hx]
    | some s =>
      obtain ⟨_, hc, he⟩ := hF (getSlot_eq_some.mp hx).2.1
      simp [constructedCount, pendingCount, hget, hx, hc, he]
  refine ⟨fun x hx => ?_, fun x => ?_, fun x hx => ?_, fun x hx => ?_, fun t ht => ?_⟩
  · rw [e.frame.hasDestroy] at hx
    rw [e.frame.destroyed, (counts x).1]
    exact kept.due x hx
  · rw [(counts x).2]
    exact kept.issued x
  · rw [e.frame.hasBucket] at hx
    rw [e.frame.destroyed]
    exact kept.unknown x hx
  · rw [e.frame.hasDestroy] at hx
    rw [e.frame.destroyed]
    exact kept.silent x hx
  · exact kept.known t (e.frame.hasBucket t ▸ ht)

lemma CallbacksKept.congr {history' : History} (kept : CallbacksKept st history)
    (hl : history'.loaded = history.loaded) (hc : history'.created = history.created) :
    CallbacksKept st history' := by
  refine ⟨?_, ?_, ?_, kept.silent, ?_⟩
  · rw [hl]
    exact kept.due
  · rw [hl, hc]
    exact kept.issued
  · rw [hl]
    exact kept.unknown
  · rw [hc]
    exact kept.known

lemma CallbacksKept.completed {deps : List Dependency} {C : List Handle}
    (kept : CallbacksKept st history) (e : Completed st st' h deps C)
    (required : Handle → List Handle) :
    CallbacksKept st' { history with loaded := h :: history.loaded, required := required } := by
  obtain ⟨sh, hsh, hocc, hcon, _⟩ := e.slot
  have counts : ∀ x, st'.constructedCount x = st.constructedCount x + (if h = x then 1 else 0) ∧
      st'.pendingCount x + (if h = x then 1 else 0) = st.pendingCount x := by
    intro x
    have hget : st'.getSlot x = (st.getSlot x).map (completeSlot h C x.slotId) := by
      cases hx : st.getSlot x with
      | none =>
        rw [Option.map_none, Option.eq_none_iff_forall_not_mem]
        intro s' hs'
        obtain ⟨hv, hat, hg⟩ := getSlot_eq_some.mp hs'
        rw [e.edited.slots] at hat
        obtain ⟨s, hs, rfl⟩ := Option.map_eq_some_iff.mp hat
        rw [completeSlot_generation] at hg
        rw [getSlot_eq_some.mpr ⟨hv, hs, hg⟩] at hx
        cases hx
      | some s =>
        obtain ⟨hv, hat, hg⟩ := getSlot_eq_some.mp hx
        refine getSlot_eq_some.mpr ⟨hv, ?_, (completeSlot_generation _ _ _ _).trans hg⟩
        rw [e.edited.slots, hat, Option.map_some]
    by_cases hxh : h = x
    · subst hxh
      have hnew : (completeSlot h C h.slotId sh).constructed = true := by
        simp [completeSlot]
      simp [constructedCount, pendingCount, hget, hsh, hnew, hcon, hocc]
    · cases hx : st.getSlot x with
      | none => simp [constructedCount, pendingCount, hget, hx, hxh]
      | some s =>
        have hid : ¬ h.slotId = x.slotId := fun hc => hxh (getSlot_unique hc hsh hx)
        have hnew : (completeSlot h C x.slotId s).constructed = s.constructed := by
          simp only [completeSlot, if_neg hid]
          unfold pinSlot
          split <;> rfl
        simp [constructedCount, pendingCount, hget, hx, hxh, hnew, hid]
  have hbucket : (st.buckets h.typeId).isSome :=
    isSome_bucket_of_slotAt (getSlot_eq_some.mp hsh).2.1
  refine ⟨fun x hx => ?_, fun x => ?_, fun x hx => ?_, fun x hx => ?_, fun t ht => ?_⟩
  · rw [e.edited.frame.hasDestroy] at hx
    rw [e.edited.frame.destroyed, (counts x).1, ← Nat.add_assoc, kept.due x hx, List.count_cons]
    simp only [beq_iff_eq]
  · have hle := kept.issued x
    have hc := (counts x).2
    simp only [List.count_cons, beq_iff_eq]
    omega
  · rw [e.edited.frame.hasBucket] at hx
    obtain ⟨h₁, h₂⟩ := kept.unknown x hx
    have hxh : ¬ h = x := by
      rintro rfl
      rw [hbucket] at hx
      cases hx
    simp [e.edited.frame.destroyed, h₁, h₂, hxh]
  · rw [e.edited.frame.hasDestroy] at hx
    rw [e.edited.frame.destroyed]
    exact kept.silent x hx
  · exact kept.known t (e.edited.frame.hasBucket t ▸ ht)

lemma CallbacksKept.created {path : Path} {source : LoadSource} (wf : st.WellFormed)
    (wf' : st'.WellFormed) (kept : CallbacksKept st history) (e : Created st st' h path source)
    (userPins : Handle → Int) (required : Handle → List Handle) :
    CallbacksKept st' { history with
      userPins := userPins, created := h :: history.created, required := required } := by
  obtain ⟨s₀, hbefore, hg₀, hafter⟩ := e.slot
  have counts : ∀ x, st'.constructedCount x = st.constructedCount x ∧
      st'.pendingCount x = st.pendingCount x + (if h = x then 1 else 0) := by
    intro x
    by_cases hid : x.slotId = h.slotId
    · -- only one generation of the slot can be alive
      have hold : ∀ s, st.getSlot x = some s → h = x ∧ s.state = .empty ∧ s.constructed = false := by
        intro s hs
        obtain ⟨_, hat, hg⟩ := getSlot_eq_some.mp hs
        rw [hid] at hat
        rcases hbefore with ⟨h₁, he⟩ | ⟨h₁, _⟩
        · rw [h₁] at hat
          cases hat
          refine ⟨?_, he, (wf.blank h₁ he).constructed⟩
          rw [← Handle.handle_eq hg, ← Handle.handle_eq hg₀, hid]
        · rw [h₁] at hat
          cases hat
      have hzero : st.constructedCount x = 0 ∧ st.pendingCount x = 0 := by
        cases hs : st.getSlot x with
        | none => simp [constructedCount, pendingCount, hs]
        | some s =>
          obtain ⟨_, he, hc⟩ := hold s hs
          simp [constructedCount, pendingCount, hs, he, hc]
      rw [hzero.1, hzero.2]
      by_cases hxh : h = x
      · subst hxh
        have hs' := getSlot_eq_some.mpr ⟨e.valid, hafter, hg₀⟩
        simp [constructedCount, pendingCount, hs', Slot.allocate]
      · have hs' : st'.getSlot x = none := by
          rw [Option.eq_none_iff_forall_not_mem]
          intro s' hs'
          obtain ⟨_, hat, hg⟩ := getSlot_eq_some.mp hs'
          rw [hid, hafter] at hat
          cases hat
          apply hxh
          have hg' : s₀.generation = x.generation := hg
          rw [← Handle.handle_eq hg', ← Handle.handle_eq hg₀, hid]
        simp [constructedCount, pendingCount, hs', hxh]
    · have hxh : ¬ h = x := fun hc => hid (by rw [hc])
      rcases e.others _ hid with hsame | ⟨hnone, hfresh, _⟩
      · simp [constructedCount, pendingCount, getSlot_congr hsame, hxh]
      · have hs : st.getSlot x = none := by simp [getSlot, hnone]
        cases hs' : st'.getSlot x with
        | none => simp [constructedCount, pendingCount, hs, hs', hxh]
        | some s' =>
          obtain ⟨_, hat, _⟩ := getSlot_eq_some.mp hs'
          rw [hfresh] at hat
          cases hat
          simp [constructedCount, pendingCount, hs, hs', hxh, Slot.fresh]
  have lone : ∀ x, (st.buckets x.typeId).isSome = false → st.constructedCount x = 0 := by
    intro x hx
    have : st.getSlot x = none := by
      cases hb : st.buckets x.typeId with
      | none => simp [getSlot, slotAt, Handle.slotId, hb]
      | some b => simp [hb] at hx
    simp [constructedCount, this]
  refine ⟨fun x hx => ?_, fun x => ?_, fun x hx => ?_, fun x hx => ?_, fun t ht => ?_⟩
  · rw [e.destroyed, (counts x).1]
    cases hb : (st.buckets x.typeId).isSome with
    | true =>
      rw [e.hasDestroy _ hb] at hx
      exact kept.due x hx
    | false =>
      obtain ⟨h₁, h₂⟩ := kept.unknown x hb
      rw [h₁, lone x hb]
      exact h₂.symm
  · have hle := kept.issued x
    rw [(counts x).2]
    simp only [List.count_cons, beq_iff_eq]
    omega
  · have hb : (st.buckets x.typeId).isSome = false := by
      by_contra hc
      rw [Bool.not_eq_false] at hc
      rw [e.hasBucket _ hc] at hx
      cases hx
    rw [e.destroyed]
    exact kept.unknown x hb
  · rw [e.destroyed]
    cases hb : (st.buckets x.typeId).isSome with
    | true =>
      rw [e.hasDestroy _ hb] at hx
      exact kept.silent x hx
    | false => exact (kept.unknown x hb).1
  · -- a new bucket starts with its slot 0
    obtain ⟨s, hs⟩ := Option.isSome_iff_exists.mp (wf'.bucket ht)
    by_cases hth : h.typeId = t
    · exact ⟨h, List.mem_cons_self, hth⟩
    · have hid : (⟨t, 0⟩ : SlotId) ≠ h.slotId := fun hc => hth (congrArg SlotId.typeId hc).symm
      rcases e.others _ hid with hsame | ⟨_, _, heq⟩
      · rw [hsame] at hs
        obtain ⟨x, hx, hxt⟩ := kept.known t (isSome_bucket_of_slotAt hs)
        exact ⟨x, List.mem_cons_of_mem _ hx, hxt⟩
      · exact absurd (congrArg SlotId.typeId heq).symm hth

lemma CallbacksKept.init : CallbacksKept Storage.init History.init := by
  constructor <;> simp [Storage.init, History.init, hasDestroy, pendingCount, getSlot, slotAt]

lemma CallbacksKept.write {id : SlotId} {f : Slot → Slot} (kept : CallbacksKept st history)
    (k : KeepsLinks f) (constructed : ∀ s, (f s).constructed = s.constructed)
    (occupied : ∀ s, st.slotAt id = some s → ((f s).state = .empty ↔ s.state = .empty)) :
    CallbacksKept (st.modifySlot id f) history := by
  refine kept.edit (Edited.modifySlot st id f) fun {id' s} hs => ?_
  split
  · rename_i hid
    subst hid
    exact ⟨k.generation s, constructed s, occupied s hs⟩
  · exact ⟨rfl, rfl, Iff.rfl⟩

lemma CallbacksKept.forceDestroyAssets {t : TypeId} (wf : st.WellFormed)
    (kept : CallbacksKept st history) (e : st.forceDestroyAssets fuel t = some st') :
    CallbacksKept st' history := by
  rcases WellFormed.forceDestroyAssets (I := fun st => CallbacksKept st history) (t := t)
    (fun _ kept _ f => by
      obtain ⟨st₁, cut, r, _⟩ := f.parts
      have kept₁ := kept.edit cut fun _ => ⟨rfl, rfl, Iff.rfl⟩
      exact kept₁.detached r.detached) wf kept fuel with ⟨hnone, _⟩ | ⟨_, e₁, _, kept₁, _⟩
  · rw [hnone] at e
    cases e
  · rw [e₁] at e
    cases e
    exact kept₁

/-- **One step.** Sound actions run the callbacks of what they remove. -/
theorem CallbacksKept.step {history' : History} {a : Action} (wf : st.WellFormed)
    (kept : CallbacksKept st history) (eff : Effect fuel st history a st' history') :
    CallbacksKept st' history' := by
  have demote : ∀ {h : Handle} (f : Slot → Slot), KeepsLinks f →
      (∀ s, (f s).constructed = s.constructed) → (∀ s, (f s).state ≠ .empty) →
      st.HoldsAsset h.slotId → CallbacksKept (st.modifySlot h.slotId f) history :=
    fun f k hc hf holds => kept.write k hc fun s hs => by simp [hf s, holds s hs]
  cases eff with
  | created wf' e => exact kept.created wf wf' e _ _
  | @setState h state holds =>
    refine demote _ ⟨fun _ => rfl, fun _ => rfl, fun _ => rfl⟩ (fun _ => rfl) (fun s => ?_) holds
    obtain ⟨state, hstate⟩ := state
    rintro rfl
    cases hstate
  | failSlot holds =>
    exact demote _ ⟨fun _ => rfl, fun _ => rfl, fun _ => rfl⟩ (fun _ => rfl) (fun s => by simp) holds
  | setRetiring =>
    exact kept.write ⟨fun _ => rfl, fun _ => rfl, fun _ => rfl⟩ (fun _ => rfl) fun _ _ => Iff.rfl
  | stepFailed _ holds =>
    exact demote _ ⟨fun _ => rfl, fun _ => rfl, fun _ => rfl⟩ (fun _ => rfl) (fun s => by simp) holds
  | stepWaits _ holds =>
    exact demote _ ⟨fun _ => rfl, fun _ => rfl, fun _ => rfl⟩ (fun _ => rfl) (fun s => by simp) holds
  | completed _ _ e => exact kept.completed e _
  | retained _ _ _ e =>
    refine (kept.edit e fun {id s} _ => ⟨by simp, ?_, by simp⟩).congr rfl rfl
    unfold retainSlot pinSlot
    split <;> split <;> rfl
  | retainRefused => exact kept
  | released hs _ occupied e settled =>
    have kept₁ := kept.edit e fun {id s} _ => by
      refine ⟨by simp, ?_, by simp⟩
      unfold releasedSlot unpinSlot
      split <;> split <;> rfl
    suffices CallbacksKept st' history from this.congr rfl rfl
    cases settled with
    | pending _ _ e' =>
      subst e'
      obtain ⟨_, hat, _⟩ := getSlot_eq_some.mp hs
      refine kept₁.write ⟨fun _ => rfl, fun _ => rfl, fun _ => rfl⟩ (fun _ => rfl) fun s' hs' => ?_
      rw [e.slots, hat, Option.map_some] at hs'
      cases hs'
      simp [setPendingDelete, occupied]
    | kept e' => exact e' ▸ kept₁
    | removed D r _ => exact kept₁.detached r.detached
  | releaseRefused => exact kept
  | marked _ _ =>
    exact kept.write ⟨fun _ => rfl, fun _ => rfl, fun _ => rfl⟩ (fun _ => rfl) fun _ _ => Iff.rfl
  | unmarked => exact kept
  | unloaded r _ => exact kept.detached r.detached
  | forced e => exact kept.forceDestroyAssets wf e

end Counts

section Returns

variable {st st' : Storage} {h : Handle} {s : Slot} {fuel : Nat}

lemma Edited.edges_eq {F : SlotId → Slot → Slot} (e : Edited F st st')
    (hF : ∀ id s, (F id s).generation = s.generation ∧ (F id s).dependents = s.dependents) :
    st'.edges = st.edges := by
  ext ⟨z, d⟩
  constructor
  · rintro ⟨s', hs', hz⟩
    obtain ⟨hv, hat, hg⟩ := getSlot_eq_some.mp hs'
    rw [e.slots] at hat
    obtain ⟨s, hs, rfl⟩ := Option.map_eq_some_iff.mp hat
    obtain ⟨hgs, hds⟩ := hF d.slotId s
    exact ⟨s, getSlot_eq_some.mpr ⟨hv, hs, hgs ▸ hg⟩, hds ▸ hz⟩
  · rintro ⟨s, hs, hz⟩
    obtain ⟨hv, hat, hg⟩ := getSlot_eq_some.mp hs
    obtain ⟨hgs, hds⟩ := hF d.slotId s
    refine ⟨F d.slotId s, getSlot_eq_some.mpr ⟨hv, ?_, hgs.trans hg⟩, hds ▸ hz⟩
    rw [e.slots, hat, Option.map_some]

lemma WellFormed.release_returns (wf : WellFormed st) (deep : st.edges.ncard < fuel) :
    (st.release fuel h).isSome := by
  unfold Storage.release
  cases hs : st.getSlot h with
  | none => rfl
  | some s =>
    simp only
    split
    · rfl
    · rename_i hp
      have eff : Edited (releasedSlot h s.dependencies) st
          ((st.modifySlot h.slotId Slot.unpin).unpinCommittedDependencies s.dependencies) :=
        (Edited.modifySlot st h.slotId Slot.unpin).trans
          (Edited.unpinCommittedDependencies _ (wf.nodup hs) (wf.valid hs))
      generalize (st.modifySlot h.slotId Slot.unpin).unpinCommittedDependencies s.dependencies = st₁
        at eff
      obtain ⟨_, hat, _⟩ := getSlot_eq_some.mp hs
      have hat₁ : st₁.slotAt h.slotId = some (releasedSlot h s.dependencies h.slotId s) := by
        rw [eff.slots, hat, Option.map_some]
      have hocc : ∀ s', st₁.getSlot h = some s' → s'.state ≠ .empty := by
        intro s' hs'
        rw [getSlot_eq_slotAt hat₁ hs', releasedSlot_state]
        exact fun he => hp (wf.blank hat he).pinCount
      rw [Option.isSome_map]
      unfold releaseSlot
      simp only [hat₁]
      split
      · rfl
      · split
        · rfl
        · split
          · rcases (wf.released eff).tryUnloadSlot hocc fuel with ⟨_, hle⟩ | ⟨st₂, _, hsome, _⟩
            · rw [eff.edges_eq fun id s => by simp] at hle
              omega
            · rw [hsome]
              rfl
          · rfl

/-- **Termination.** A sound action other than a creation returns when the stack is deeper than there
are dependents entries. -/
theorem WellFormed.returns (wf : WellFormed st) {a : Action} (sound : a.Sound st)
    (deep : st.edges.ncard < fuel) :
    (a.apply fuel st).isSome ∨ ∃ type t path source, a = .create type t path source := by
  cases a with
  | create type t path source => exact Or.inr ⟨type, t, path, source, rfl⟩
  | setState => exact Or.inl rfl
  | failSlot => exact Or.inl rfl
  | setRetiring => exact Or.inl rfl
  | stepDone h dependencies =>
    left
    show (st.stepDone fuel h dependencies).isSome
    by_cases ready : st.Completes dependencies
    · obtain ⟨_, _, e, _⟩ := wf.stepDone ready (sound.2 ready) fuel
      rw [e]
      rfl
    · rcases stepDone_of_not_completes (h := h) ready fuel with ⟨_, e⟩ | e
      · rw [e]
        rfl
      · rw [e]
        rfl
  | retain h =>
    left
    simp only [Action.apply]
    split <;> rfl
  | release h =>
    left
    obtain ⟨result, e⟩ := Option.isSome_iff_exists.mp (wf.release_returns (h := h) deep)
    cases result <;> simp [Action.apply, e]
  | markModified => exact Or.inl rfl
  | tryUnload h =>
    left
    show (Storage.tryUnloadSlot (Storage.destroySlot fuel) st h).isSome
    rcases wf.tryUnloadSlot (h := h) (fun s hs => sound s hs) fuel with ⟨_, hle⟩ | ⟨_, _, e, _⟩
    · omega
    · rw [e]
      rfl
  | forceDestroy t =>
    left
    show (st.forceDestroyAssets fuel t).isSome
    rcases WellFormed.forceDestroyAssets (I := fun _ => True) (t := t)
      (fun _ _ _ _ => trivial) wf trivial fuel with ⟨_, hle⟩ | ⟨_, e, _⟩
    · omega
    · rw [e]
      rfl

end Returns

/-- The invariant of the loop while the slots `todo` are still to be destroyed. An asset may list a
dependency that was destroyed already; its slot is blank then and one generation ahead. -/
structure Destroying (todo : List SlotId) (st : Storage) : Prop where
  valid : ∀ {a sa d}, st.getSlot a = some sa → d ∈ sa.dependencies → d.isValid = true
  nodup : ∀ {a sa}, st.getSlot a = some sa → sa.dependencies.Nodup
  forth : ∀ {a sa d s}, st.getSlot a = some sa → d ∈ sa.dependencies →
    st.slotAt d.slotId = some s → (s.generation = d.generation ∧ a ∈ s.dependents) ∨
      (d.slotId ∉ todo ∧ s.generation = nextGeneration d.generation ∧ s.dependents = [])
  back : ∀ {id s z}, st.slotAt id = some s → z ∈ s.dependents →
    ∃ sz, st.getSlot z = some sz ∧ id.handle s ∈ sz.dependencies
  blank : ∀ {id s}, st.slotAt id = some s → s.state = .empty → s.Blank
  zero : ∀ {t s}, st.slotAt ⟨t, 0⟩ = some s → s.state = .empty
  typeId : ∀ {id s}, st.slotAt id = some s → id.typeId ≠ 0
  generation : ∀ {id s}, st.slotAt id = some s → s.generation ≠ 0
  finite : st.edges.Finite
  slot : ∀ id ∈ todo, (st.slotAt id).isSome
  done : ∀ {id s}, st.slotAt id = some s → id ∉ todo → s.constructed = false

section Destroying

variable {st st' : Storage} {id : SlotId} {s : Slot} {todo : List SlotId} {D : List Handle}
  {fuel : Nat}

lemma nextGeneration_twice_ne (g : Nat) : nextGeneration (nextGeneration g) ≠ g := by
  unfold nextGeneration uint32Size
  split
  · rename_i h
    rw [if_neg (by omega)]
    omega
  · rename_i h
    split <;> omega

lemma WellFormed.destroying (wf : WellFormed st)
    (all : ∀ id s, st.slotAt id = some s → id ∈ todo)
    (slot : ∀ id ∈ todo, (st.slotAt id).isSome) : Destroying todo st where
  valid := by
    intro a sa d ha hd
    exact wf.valid ha d hd
  nodup := wf.nodup
  forth := by
    intro a sa d s ha hd hs
    obtain ⟨sd, hsd, hm⟩ := wf.forth ha hd
    obtain rfl := getSlot_eq_slotAt hs hsd
    exact Or.inl ⟨(getSlot_eq_some.mp hsd).2.2, hm⟩
  back := by
    intro id s z hs hz
    exact wf.back (wf.getSlot_handle hs (wf.occupied_of_dependents hs hz)) hz
  blank := wf.blank
  zero := wf.zero
  typeId := wf.typeId
  generation := wf.generation
  finite := wf.finite
  slot := slot
  done := by
    intro id s hs hid
    exact absurd (all id s hs) hid

lemma Destroying.linked (inv : Destroying todo st) (X : Handle → Prop) : Linked X st where
  valid := inv.valid
  nodup := inv.nodup
  forth := by
    intro a sa d s _ ha hd hs
    rcases inv.forth ha hd hs with hfresh | ⟨_, hg, hnil⟩
    · exact Or.inl hfresh
    · right
      rw [hg]
      exact ⟨nextGeneration_ne_self _, nextGeneration_twice_ne _, hnil⟩
  back := inv.back

lemma currentHandle_of_slotAt (hs : st.slotAt id = some s) : st.currentHandle id = id.handle s := by
  simp [currentHandle, SlotId.handle, hs]

lemma Destroying.detachable (inv : Destroying todo st) (hs : st.slotAt id = some s)
    (safe : st.DestroyedOnceAt id) :
    Detachable (Cascades st (id.handle s)) (fun x => x = id.handle s) st (id.handle s)
      s.dependencies := by
  unfold DestroyedOnceAt at safe
  rw [currentHandle_of_slotAt hs] at safe
  have self : s.dependencies ≠ [] → st.getSlot (id.handle s) = some s := by
    intro hne
    have hocc : s.state ≠ .empty := fun he => hne (inv.blank hs he).dependencies
    refine getSlot_eq_some.mpr ⟨Handle.isValid_iff.mpr ⟨inv.typeId hs, ?_, inv.generation hs⟩, hs,
      rfl⟩
    intro hi
    obtain ⟨t, i⟩ := id
    simp only [SlotId.handle] at hi
    subst hi
    exact hocc (inv.zero hs)
  have held : ∀ {y sy d sd}, st.getSlot y = some sy → d ∈ sy.dependencies →
      st.getSlot d = some sd → y ∈ sd.dependents := by
    intro y sy d sd hy hd hsd
    obtain ⟨_, hat, hg⟩ := getSlot_eq_some.mp hsd
    rcases inv.forth hy hd hat with ⟨_, hm⟩ | ⟨_, hg', _⟩
    · exact hm
    · rw [hg] at hg'
      exact absurd hg'.symm (nextGeneration_ne_self _)
  have cascade : ∀ {y sy d sd}, st.getSlot y = some sy → d ∈ sy.dependencies →
      st.getSlot d = some sd → sd.pinCount = 0 →
      (∀ z ∈ sd.dependents, Cascades st (id.handle s) z ∨ z = id.handle s) →
      Cascades st (id.handle s) d := by
    intro y sy d sd hy hd hsd hp hz
    exact .unload hsd hp (List.ne_nil_of_mem (held hy hd hsd))
      fun z hm hne => (hz z hm).resolve_right hne
  constructor
  · exact inv.linked _
  · rfl
  · by_cases hne : s.dependencies = []
    · rw [hne]
      exact List.nodup_nil
    · exact inv.nodup (self hne)
  · intro d hd
    exact inv.valid (self (List.ne_nil_of_mem hd)) hd
  · intro d hd sd hsd
    exact (inv.linked fun _ => False).forth not_false (self (List.ne_nil_of_mem hd)) hd hsd
  · intro d hd sd hsd hp hz
    exact cascade (self (List.ne_nil_of_mem hd)) hd hsd hp hz
  · intro y sy _ _ hy d hd sd hsd hp hz
    exact cascade hy hd hsd hp hz
  · rintro x rfl sx hsx
    by_contra hno
    simp only [not_or, not_exists, not_and, not_not] at hno
    obtain ⟨hp, hne, hz⟩ := hno
    refine safe (.unload hsx hp hne fun z hm hzx => ?_)
    by_contra hc
    exact hzx (hz z hm hc)

lemma Destroying.next (inv : Destroying (id :: todo) st) (fresh : id ∉ todo)
    (hs : st.slotAt id = some s)
    (e : Detached st st' (id.handle s :: D) (id.handle s) [])
    (un : Unloads (Cascades st (id.handle s)) (fun x => x = id.handle s) st D (id.handle s)
      s.dependencies) : Destroying todo st' := by
  have hat : ∀ {id' s'}, st'.slotAt id' = some s' → ∃ s₀, st.slotAt id' = some s₀ ∧
      ((id'.handle s₀ ∈ id.handle s :: D ∧ s' = s₀.reset) ∨
        (id'.handle s₀ ∉ id.handle s :: D ∧ s' = { s₀ with
          dependents := s₀.dependents.filter (· ∉ id.handle s :: D) })) := by
    intro id' s' hs'
    rw [e.slots] at hs'
    obtain ⟨s₀, hs₀, rfl⟩ := Option.map_eq_some_iff.mp hs'
    refine ⟨s₀, hs₀, ?_⟩
    by_cases hm : id'.handle s₀ ∈ id.handle s :: D
    · exact Or.inl ⟨hm, Slot.detach_of_mem hm _ _ _⟩
    · refine Or.inr ⟨hm, ?_⟩
      rw [Slot.detach_of_not_mem hm]
      simp
  have hdeps : ∀ {a sa' d}, st'.getSlot a = some sa' → d ∈ sa'.dependencies →
      ∃ sa, st.getSlot a = some sa ∧ a ∉ id.handle s :: D ∧
        sa'.dependencies = sa.dependencies := by
    intro a sa' d ha hd
    obtain ⟨sa, hsa, hm, rfl⟩ := e.getSlot_of_dependency ha hd
    refine ⟨sa, hsa, hm, ?_⟩
    rw [Slot.detach_of_not_mem hm]
  constructor
  · intro a sa' d ha hd
    obtain ⟨sa, hsa, _, heq⟩ := hdeps ha hd
    exact inv.valid hsa (heq ▸ hd)
  · intro a sa' ha
    cases hnil : sa'.dependencies with
    | nil => exact List.nodup_nil
    | cons d ds =>
      obtain ⟨sa, hsa, _, heq⟩ := hdeps ha (d := d) (by simp [hnil])
      rw [← hnil, heq]
      exact inv.nodup hsa
  · intro a sa' d s' ha hd hs'
    obtain ⟨sa, hsa, hma, heq⟩ := hdeps ha hd
    rw [heq] at hd
    obtain ⟨s₀, hs₀, hcase⟩ := hat hs'
    rcases inv.forth hsa hd hs₀ with ⟨hg, hmem⟩ | ⟨hdone, hg, hnil⟩
    · rw [Handle.handle_eq hg] at hcase
      rcases hcase with ⟨hm, rfl⟩ | ⟨hm, rfl⟩
      · -- only the slot that was visited leaves stale entries behind
        rcases List.mem_cons.mp hm with rfl | hmD
        · right
          refine ⟨fresh, ?_, rfl⟩
          rw [← hg]
          rfl
        · obtain ⟨sd, hsd, _, _, hz⟩ := un.slot d hmD
          rw [getSlot_eq_slotAt hs₀ hsd] at hz
          exfalso
          rcases hz a hmem with haD | ⟨rfl, _⟩
          · exact hma (List.mem_cons_of_mem _ haD)
          · exact hma List.mem_cons_self
      · exact Or.inl ⟨hg, List.mem_filter.mpr ⟨hmem, decide_eq_true hma⟩⟩
    · right
      obtain ⟨hid, hdone⟩ := not_or.mp fun hc => hdone (List.mem_cons.mpr hc)
      rcases hcase with ⟨hm, _⟩ | ⟨_, rfl⟩
      · exfalso
        rcases List.mem_cons.mp hm with hx | hmD
        · exact hid (congrArg Handle.slotId hx)
        · exact un.not_mem hs₀ hnil hmD
      · exact ⟨hdone, hg, by simp [hnil]⟩
  · intro id' s' z hs' hz
    obtain ⟨s₀, hs₀, ⟨_, rfl⟩ | ⟨hm, rfl⟩⟩ := hat hs'
    · cases hz
    · obtain ⟨hz, hzD⟩ := List.mem_filter.mp hz
      obtain ⟨sz, hsz, hmem⟩ := inv.back hs₀ hz
      refine ⟨_, e.getSlot_of_not_mem hsz (of_decide_eq_true hzD), ?_⟩
      rw [Slot.detach_of_not_mem (of_decide_eq_true hzD)]
      exact hmem
  · intro id' s' hs' he
    obtain ⟨s₀, hs₀, ⟨_, rfl⟩ | ⟨_, rfl⟩⟩ := hat hs'
    · exact s₀.blank_reset
    · have hb := inv.blank hs₀ he
      exact ⟨hb.pinCount, hb.path, hb.constructed, hb.dependencies, by simp [hb.dependents]⟩
  · intro t s' hs'
    obtain ⟨s₀, hs₀, ⟨_, rfl⟩ | ⟨_, rfl⟩⟩ := hat hs'
    · rfl
    · exact inv.zero (s := s₀) hs₀
  · intro id' s' hs'
    obtain ⟨s₀, hs₀, _⟩ := hat hs'
    exact inv.typeId hs₀
  · intro id' s' hs'
    obtain ⟨s₀, hs₀, ⟨_, rfl⟩ | ⟨_, rfl⟩⟩ := hat hs'
    · exact nextGeneration_ne_zero _
    · exact inv.generation (s := s₀) hs₀
  · exact inv.finite.subset e.edges_subset
  · intro id' hid'
    rw [e.slots, Option.isSome_map]
    exact inv.slot id' (List.mem_cons_of_mem _ hid')
  · intro id' s' hs' hid'
    obtain ⟨s₀, hs₀, ⟨_, rfl⟩ | ⟨hm, rfl⟩⟩ := hat hs'
    · rfl
    · refine inv.done (s := s₀) hs₀ fun hc => ?_
      rcases List.mem_cons.mp hc with rfl | hc
      · rw [hs] at hs₀
        cases hs₀
        exact hm List.mem_cons_self
      · exact hid' hc

lemma Destroying.visit (inv : Destroying (id :: todo) st) (fresh : id ∉ todo)
    (safe : st.DestroyedOnceAt id) (deep : st.edges.ncard < fuel) :
    ∃ st' x D, st.destroySlotAt fuel id = some st' ∧ Detached st st' D x [] ∧
      Destroying todo st' := by
  obtain ⟨s, hs⟩ := Option.isSome_iff_exists.mp (inv.slot id List.mem_cons_self)
  have hv : (id.handle s).isValid = true ∨ (s.constructed = false ∧ s.path = []) := by
    by_cases hi : id.index = 0
    · right
      obtain ⟨t, i⟩ := id
      subst hi
      have hb := inv.blank hs (inv.zero hs)
      exact ⟨hb.constructed, hb.path⟩
    · exact Or.inl (Handle.isValid_iff.mpr ⟨inv.typeId hs, hi, inv.generation hs⟩)
  cases fuel with
  | zero => omega
  | succ n =>
    have out := destroySlot_outcome (h := id.handle s) hs rfl hv (inv.detachable hs safe) n
    unfold destroySlotAt
    rw [currentHandle_of_slotAt hs]
    cases e : destroySlot (n + 1) st (id.handle s) with
    | none =>
      rw [e] at out
      exact absurd deep (not_lt.mpr (out inv.finite))
    | some st' =>
      rw [e] at out
      obtain ⟨D, eff, _, un⟩ := out
      exact ⟨st', id.handle s, _, rfl, eff, inv.next fresh hs eff un⟩

lemma Destroying.bucket {history : History} {more : List SlotId} :
    ∀ {ids : List SlotId} {st : Storage}, Destroying (ids ++ todo) st → (ids ++ todo).Nodup →
      CallbacksKept st history → st.edges.ncard < fuel →
      Along (destroySlotAt fuel) DestroyedOnceAt st (ids ++ more) →
      ∃ st', ids.foldlM (destroySlotAt fuel) st = some st' ∧ Destroying todo st' ∧
        CallbacksKept st' history ∧ st'.edges.ncard < fuel ∧ (∀ t, st'.slotIds t = st.slotIds t) ∧
        (∀ t, st'.hasDestroy t = st.hasDestroy t) ∧
        Along (destroySlotAt fuel) DestroyedOnceAt st' more := by
  intro ids
  induction ids with
  | nil =>
    intro st inv _ kept deep along
    exact ⟨st, rfl, inv, kept, deep, fun _ => rfl, fun _ => rfl, along⟩
  | cons id ids ih =>
    intro st inv nodup kept deep along
    obtain ⟨hid, hids⟩ := List.nodup_cons.mp nodup
    obtain ⟨st₁, x, D, e, eff, inv₁⟩ := inv.visit hid along.1 deep
    have deep₁ := lt_of_le_of_lt (Set.ncard_le_ncard eff.edges_subset inv.finite) deep
    obtain ⟨st', e', inv', kept', deep', same, type, along'⟩ :=
      ih inv₁ hids (kept.detached eff) deep₁ (along.2 st₁ e)
    refine ⟨st', ?_, inv', kept', deep', fun t => (same t).trans (eff.slotIds t),
      fun t => (type t).trans (eff.hasDestroy t), along'⟩
    rw [List.foldlM_cons, e]
    exact e'

lemma Destroying.all {history : History} : ∀ {order : List TypeId} {st : Storage},
    Destroying (order.flatMap st.slotIds) st → (order.flatMap st.slotIds).Nodup →
      CallbacksKept st history → st.edges.ncard < fuel →
      Along (destroySlotAt fuel) DestroyedOnceAt st (order.flatMap st.slotIds) →
      ∃ st', st.destroyAllSlots fuel order = some st' ∧ Destroying [] st' ∧
        CallbacksKept st' history ∧ ∀ t, st'.hasDestroy t = st.hasDestroy t := by
  intro order
  induction order with
  | nil =>
    intro st inv _ kept _ _
    exact ⟨st, rfl, inv, kept, fun _ => rfl⟩
  | cons t order ih =>
    intro st inv nodup kept deep along
    rw [List.flatMap_cons] at inv nodup along
    obtain ⟨st₁, e₁, inv₁, kept₁, deep₁, same, type, along₁⟩ :=
      Destroying.bucket inv nodup kept deep along
    have hmap : order.flatMap st₁.slotIds = order.flatMap st.slotIds := by
      rw [show st₁.slotIds = st.slotIds from funext same]
    rw [← hmap] at inv₁ along₁
    have nodup₁ : (order.flatMap st₁.slotIds).Nodup := by
      rw [hmap]
      exact (List.nodup_append.mp nodup).2.1
    obtain ⟨st', e', inv', kept', type'⟩ := ih inv₁ nodup₁ kept₁ deep₁ along₁
    refine ⟨st', ?_, inv', kept', fun t => (type' t).trans (type t)⟩
    unfold destroyAllSlots at e' ⊢
    rw [List.foldlM_cons, e₁]
    exact e'

def IteratesBuckets (st : Storage) (order : List TypeId) : Prop :=
  order.Nodup ∧ ∀ t, (st.buckets t).isSome → t ∈ order

def visits (st : Storage) (order : List TypeId) : List SlotId := order.flatMap st.slotIds

def entries (st : Storage) (order : List TypeId) : List (Handle × Handle) :=
  (st.visits order).flatMap fun id =>
    ((st.slotAt id).map fun s => s.dependents.map fun z => (z, id.handle s)).getD []

/-- Every completed load ran its destroy callback once, and no asset was destroyed more often than its
slot generation was given to an asset. -/
structure DestroyedOnce (hasDestroy : TypeId → Bool) (history : History)
    (destroyed : List Handle) : Prop where
  once : ∀ x, hasDestroy x.typeId = true → destroyed.count x = history.loaded.count x
  atMost : ∀ x, destroyed.count x ≤ history.created.count x

lemma mem_slotIds {t : TypeId} : id ∈ st.slotIds t ↔ id.typeId = t ∧ (st.slotAt id).isSome := by
  obtain ⟨t', i⟩ := id
  unfold slotIds
  cases hb : st.buckets t with
  | none =>
    simp only [List.not_mem_nil, false_iff, not_and]
    rintro rfl
    simp [slotAt, hb]
  | some b =>
    simp only [List.mem_map, List.mem_range, SlotId.mk.injEq]
    constructor
    · rintro ⟨i', hi', rfl, rfl⟩
      rw [slotAt_of_bucket hb]
      simpa using hi'
    · rintro ⟨rfl, hs⟩
      rw [slotAt_of_bucket hb] at hs
      exact ⟨i, by simpa using hs, rfl, rfl⟩

lemma IteratesBuckets.mem_visits {order : List TypeId} (it : IteratesBuckets st order)
    (hs : st.slotAt id = some s) : id ∈ st.visits order := by
  exact List.mem_flatMap.mpr
    ⟨id.typeId, it.2 _ (isSome_bucket_of_slotAt hs), mem_slotIds.mpr ⟨rfl, by simp [hs]⟩⟩

lemma IteratesBuckets.nodup_visits {order : List TypeId} (it : IteratesBuckets st order) :
    (st.visits order).Nodup := by
  refine List.nodup_flatMap.mpr ⟨fun t _ => ?_, ?_⟩
  · unfold slotIds
    cases st.buckets t with
    | none => exact List.nodup_nil
    | some b => exact List.nodup_range.map fun i j hij => by simpa using hij
  · refine it.1.imp fun {t t'} hne => ?_
    intro x hx hx'
    exact hne ((mem_slotIds.mp hx).1.symm.trans (mem_slotIds.mp hx').1)

lemma IteratesBuckets.destroying {order : List TypeId} (it : IteratesBuckets st order)
    (wf : st.WellFormed) : Destroying (st.visits order) st := by
  refine wf.destroying (fun id s hs => it.mem_visits hs) fun id hid => ?_
  obtain ⟨t, _, hm⟩ := List.mem_flatMap.mp hid
  exact (mem_slotIds.mp hm).2

lemma IteratesBuckets.edges_subset {order : List TypeId} (it : IteratesBuckets st order) :
    ∀ e ∈ st.edges, e ∈ st.entries order := by
  rintro ⟨z, d⟩ ⟨s, hs, hz⟩
  obtain ⟨_, hat, hg⟩ := getSlot_eq_some.mp hs
  refine List.mem_flatMap.mpr ⟨d.slotId, it.mem_visits hat, ?_⟩
  rw [hat, Option.map_some, Option.getD_some, Handle.handle_eq hg]
  exact List.mem_map.mpr ⟨z, hz, rfl⟩

lemma IteratesBuckets.ncard_edges_le {order : List TypeId} (it : IteratesBuckets st order) :
    st.edges.ncard ≤ (st.entries order).length := by
  have hsub : st.edges ⊆ ((st.entries order).toFinset : Set (Handle × Handle)) := by
    intro e he
    simpa using it.edges_subset e he
  calc st.edges.ncard
      ≤ ((st.entries order).toFinset : Set (Handle × Handle)).ncard :=
        Set.ncard_le_ncard hsub (Finset.finite_toSet _)
    _ = (st.entries order).toFinset.card := Set.ncard_coe_finset _
    _ ≤ (st.entries order).length := List.toFinset_card_le _

/-- **Destroying everything.** -/
theorem CallbacksKept.destroyAllAssets {history : History} {order : List TypeId}
    (wf : st.WellFormed) (kept : CallbacksKept st history) (it : IteratesBuckets st order)
    (apart : Along (destroySlotAt fuel) DestroyedOnceAt st (st.visits order))
    (deep : (st.entries order).length < fuel) :
    ∃ st', st.destroyAllAssets fuel order = some st' ∧
      DestroyedOnce st.hasDestroy history st'.destroyed := by
  obtain ⟨st', e, inv', kept', type⟩ :=
    (it.destroying wf).all it.nodup_visits kept (lt_of_le_of_lt it.ncard_edges_le deep) apart
  have gone : ∀ x, st'.constructedCount x = 0 := by
    intro x
    cases hx : st'.getSlot x with
    | none => simp [constructedCount, hx]
    | some s =>
      have := inv'.done (getSlot_eq_some.mp hx).2.1 (List.not_mem_nil)
      simp [constructedCount, hx, this]
  have once : ∀ x, st.hasDestroy x.typeId = true → st'.destroyed.count x = history.loaded.count x := by
    intro x hx
    have := kept'.due x ((type _).trans hx)
    rw [gone x] at this
    exact this
  refine ⟨{ st' with buckets := fun _ => none, pathCache := fun _ _ => none }, ?_, once,
    kept'.atMost⟩
  unfold Storage.destroyAllAssets
  rw [e]
  rfl

lemma Cascades.lt {rank : Handle → Nat} (drops : ∀ e ∈ st.edges, rank e.2 < rank e.1)
    {x d : Handle} (c : Cascades st x d) : rank d < rank x := by
  induction c with
  | @unload d s resolves _ held _ ih =>
    obtain ⟨z, hz⟩ := List.exists_mem_of_ne_nil _ held
    have hlt := drops (z, d) ⟨s, resolves, hz⟩
    by_cases hzx : z = x
    · exact hzx ▸ hlt
    · exact hlt.trans (ih z hz hzx)

lemma Destroying.apart_of_acyclic {rank : Handle → Nat} : ∀ {ids : List SlotId} {st : Storage},
    Destroying ids st → ids.Nodup → (∀ e ∈ st.edges, rank e.2 < rank e.1) →
      st.edges.ncard < fuel → Along (destroySlotAt fuel) DestroyedOnceAt st ids := by
  intro ids
  induction ids with
  | nil => exact fun _ _ _ _ => trivial
  | cons id ids ih =>
    intro st inv nodup drops deep
    obtain ⟨hid, hids⟩ := List.nodup_cons.mp nodup
    have safe : st.DestroyedOnceAt id := fun c => Nat.lt_irrefl _ (c.lt drops)
    refine ⟨safe, fun st' e => ?_⟩
    obtain ⟨st₁, x, D, e₁, eff, inv₁⟩ := inv.visit hid safe deep
    rw [e₁] at e
    cases e
    refine ih inv₁ hids (fun e he => drops e (eff.edges_subset he)) ?_
    exact lt_of_le_of_lt (Set.ncard_le_ncard eff.edges_subset inv.finite) deep

lemma IteratesBuckets.apart_of_acyclic (rank : Handle → Nat) {order : List TypeId}
    (it : IteratesBuckets st order) (wf : st.WellFormed)
    (drops : ∀ e ∈ st.entries order, rank e.2 < rank e.1)
    (deep : (st.entries order).length < fuel) :
    Along (destroySlotAt fuel) DestroyedOnceAt st (st.visits order) :=
  (it.destroying wf).apart_of_acyclic it.nodup_visits (fun e he => drops e (it.edges_subset e he))
    (lt_of_le_of_lt it.ncard_edges_le deep)

lemma destroySlot_self : ∀ (fuel : Nat) {st : Storage} {h : Handle} {s : Slot},
    st.getSlot h = some s → s.pinCount = 0 → s.dependencies = [h] → (∀ z ∈ s.dependents, z = h) →
      destroySlot fuel st h = none := by
  intro fuel
  induction fuel with
  | zero => exact fun _ _ _ _ => rfl
  | succ fuel ih =>
    intro st h s hs hp hdeps honly
    obtain ⟨_, hat, _⟩ := getSlot_eq_some.mp hs
    obtain ⟨st₁, e₁⟩ : ∃ st₁, (st.eraseIfMatches h s.path).runDestroyCallback h s = st₁ := ⟨_, rfl⟩
    have hget : st₁.getSlot h = some s := by
      rw [← e₁, getSlot_runDestroyCallback, getSlot_eraseIfMatches, hs]
    have hself : (st₁.modifySlot h.slotId (Slot.removeDependent h)).getSlot h =
        some (s.removeDependent h) := by
      rw [getSlot_removeDependent, if_pos rfl, hget, Option.map_some]
    have hnil : (s.removeDependent h).dependents = [] := by
      refine List.filter_eq_nil_iff.mpr fun z hz => ?_
      simpa using honly z hz
    have again := ih hself hp hdeps (by simp [hnil])
    have hloop : detachCommittedDependencies (destroySlot fuel) st₁ h s.dependencies = none := by
      have hun : (s.removeDependent h).pinCount = 0 ∧ (s.removeDependent h).dependents = [] :=
        ⟨hp, hnil⟩
      simp [hdeps, detachCommittedDependencies, detachDependency, hget, tryUnloadSlot, hself, hun,
        again]
    unfold destroySlot
    simp only [hat, e₁, hloop]
    rfl

lemma destroySlotAt_leaf (fuel : Nat) (hs : st.slotAt id = some s) (leaf : s.dependencies = []) :
    ∃ st', destroySlotAt (fuel + 1) st id = some st' ∧
      ∀ h : Handle, h.slotId ≠ id → st'.getSlot h = st.getSlot h := by
  have hid : (st.currentHandle id).slotId = id := rfl
  set st₁ := (st.eraseIfMatches (st.currentHandle id) s.path).runDestroyCallback
    (st.currentHandle id) s with hst₁
  refine ⟨st₁.modifySlot id Slot.reset, ?_, ?_⟩
  · unfold destroySlotAt destroySlot
    simp only [hid, hs, leaf, detachCommittedDependencies, List.foldlM_nil, ← hst₁]
    rfl
  · intro h hne
    refine getSlot_congr ?_
    rw [slotAt_modifySlot, if_neg (Ne.symm hne), hst₁, slotAt_runDestroyCallback,
      slotAt_eraseIfMatches]

end Destroying

end Storage

def buildOnItself : List System.Event :=
  [.registerType ⟨true, 2, 4, 4, true⟩,
    .registerLoader ⟨true, 2, none, some ['b'], false, false, true, 0, 0, 0, 0, false, false⟩,
    .call (.load ⟨.builder, 2, some ['b'], none, false, false, none, [⟨⟨2, 1, 1⟩, .optional⟩], false⟩
      ⟨0, true⟩ sampleTurn), .call (.release ⟨2, 1, 1⟩)]

end PulseEngine.Asset
