import Mathlib.Algebra.BigOperators.Finprod
import PulseEngine.Asset.Effects
import PulseEngine.Asset.LoadQueue

/-!
# Pin accounting

A pin count should be the user pins of the asset plus the user pins of the assets that hold it. The
code keeps this up by pinning the committed dependencies along with their asset, but it only pins
those that are loaded, and only once they are committed. `Action.PinSafe` says of an action in a
state that it pins the same dependencies it will have to unpin.
-/

namespace PulseEngine.Asset

open Library

section Sums

variable {u : Handle → Int} {l : List Handle}

lemma sum_update (u : Handle → Int) (h : Handle) (k : Int) (nodup : l.Nodup) :
    (l.map (Function.update u h (u h + k))).sum = (l.map u).sum + if h ∈ l then k else 0 := by
  induction l with
  | nil => simp
  | cons z l ih =>
    obtain ⟨hz, hl⟩ := List.nodup_cons.mp nodup
    simp only [List.map_cons, List.sum_cons, List.mem_cons, ih hl]
    by_cases hzh : z = h
    · subst hzh
      simp only [Function.update_self, hz, if_false, true_or, if_true]
      omega
    · have hhz : ¬ h = z := fun e => hzh e.symm
      simp only [Function.update_of_ne hzh, hhz, false_or]
      omega

lemma sum_filter (p : Handle → Bool) (h : ∀ z ∈ l, p z = false → u z = 0) :
    ((l.filter p).map u).sum = (l.map u).sum := by
  induction l with
  | nil => rfl
  | cons z l ih =>
    have ih := ih fun z hz => h z (List.mem_cons_of_mem _ hz)
    cases hp : p z with
    | true => rw [List.filter_cons_of_pos hp, List.map_cons, List.map_cons, List.sum_cons,
        List.sum_cons, ih]
    | false =>
      rw [List.filter_cons_of_neg (by simp [hp]), ih, List.map_cons, List.sum_cons,
        h z List.mem_cons_self hp, zero_add]

lemma sum_eq_zero (nonneg : ∀ z, 0 ≤ u z) :
    0 ≤ (l.map u).sum ∧ ((l.map u).sum = 0 ↔ ∀ z ∈ l, u z = 0) := by
  induction l with
  | nil => simp
  | cons z l ih =>
    have hz := nonneg z
    simp only [List.map_cons, List.sum_cons, List.mem_cons, forall_eq_or_imp, ← ih.2]
    have := ih.1
    omega

end Sums

/-- The assets that have `d` among their committed dependencies. -/
def Storage.holders (st : Storage) (d : Handle) : Set Handle :=
  {a | ∃ s, st.getSlot a = some s ∧ s.state ≠ .empty ∧ d ∈ s.dependencies}

/-- **The law of pins.** Every pin count is the user pins of the asset plus those of its holders, and
as long as nobody gave back more than was taken, it is zero just when neither a user nor a holder is
left. -/
structure Recorded.PinsAccounted (r : Recorded) : Prop where
  count : ∀ d s, r.storage.getSlot d = some s → s.state ≠ .empty →
    (s.pinCount : Int) =
      r.history.userPins d + ∑ᶠ a ∈ r.storage.holders d, r.history.userPins a
  zero : (∀ h, 0 ≤ r.history.userPins h) → ∀ d s, r.storage.getSlot d = some s →
    s.state ≠ .empty → (s.pinCount = 0 ↔
      r.history.userPins d = 0 ∧ ∀ a ∈ r.storage.holders d, r.history.userPins a = 0)

namespace Recorded

/-- The load of `h` is completed when `h` was retained as often as each dependency is pinned for it:
once, or not at all when the dependency is not loaded. -/
def CompletesOnce (r : Recorded) (h : Handle) (dependencies : List Dependency) : Prop :=
  ∀ dep ∈ dependencies, ∀ s ∈ r.storage.getSlot dep.depRef,
    r.history.userPins h = (if s.state = .loaded then 1 else 0) ∧ s.pinCount + 1 < uint32Size

/-- `h` is retained when all its committed dependencies are loaded, and no count overflows. -/
def RetainsLoaded (r : Recorded) (h : Handle) : Prop :=
  ∀ s ∈ r.storage.getSlot h, s.state ≠ .pendingDelete →
    s.pinCount + 1 < uint32Size ∧ ∀ d ∈ s.dependencies, ∀ sd ∈ r.storage.getSlot d,
      sd.state = .loaded ∧ sd.pinCount + (if d = h then 2 else 1) < uint32Size

/-- A release of `h` finds a pin to give back on each committed dependency. -/
def ReleasesPinned (r : Recorded) (h : Handle) : Prop :=
  ∀ s ∈ r.storage.getSlot h, s.pinCount ≠ 0 → ∀ d ∈ s.dependencies,
    ∀ sd ∈ r.storage.getSlot d, (if d = h then 2 else 1) ≤ sd.pinCount

/-- The assets of type `t` with user pins only depend on assets of type `t`. -/
def DestroysApart (r : Recorded) (t : TypeId) : Prop :=
  ∀ id ∈ r.storage.slotIds t, ∀ s ∈ r.storage.slotAt id,
    r.history.userPins (id.handle s) ≠ 0 → ∀ d ∈ s.dependencies, d.typeId = t

instance (r : Recorded) (h : Handle) (deps : List Dependency) : Decidable (r.CompletesOnce h deps) :=
  inferInstanceAs (Decidable (∀ dep ∈ deps, ∀ s ∈ r.storage.getSlot dep.depRef,
    r.history.userPins h = (if s.state = .loaded then 1 else 0) ∧ s.pinCount + 1 < uint32Size))

instance (r : Recorded) (h : Handle) : Decidable (r.RetainsLoaded h) :=
  inferInstanceAs (Decidable (∀ s ∈ r.storage.getSlot h, s.state ≠ .pendingDelete →
    s.pinCount + 1 < uint32Size ∧ ∀ d ∈ s.dependencies, ∀ sd ∈ r.storage.getSlot d,
      sd.state = .loaded ∧ sd.pinCount + (if d = h then 2 else 1) < uint32Size))

instance (r : Recorded) (h : Handle) : Decidable (r.ReleasesPinned h) :=
  inferInstanceAs (Decidable (∀ s ∈ r.storage.getSlot h, s.pinCount ≠ 0 →
    ∀ d ∈ s.dependencies, ∀ sd ∈ r.storage.getSlot d, (if d = h then 2 else 1) ≤ sd.pinCount))

instance (r : Recorded) (t : TypeId) : Decidable (r.DestroysApart t) :=
  inferInstanceAs (Decidable (∀ id ∈ r.storage.slotIds t, ∀ s ∈ r.storage.slotAt id,
    r.history.userPins (id.handle s) ≠ 0 → ∀ d ∈ s.dependencies, d.typeId = t))

end Recorded

def Action.PinSafe (r : Recorded) : Action → Prop
  | .stepDone h dependencies => (Action.stepDone h dependencies).Sound r.storage ∧
    (r.storage.Completes dependencies → r.CompletesOnce h dependencies)
  | .retain h => r.RetainsLoaded h
  | .release h => r.ReleasesPinned h
  | .forceDestroy t => r.DestroysApart t
  | a => a.Sound r.storage

instance (r : Recorded) : ∀ a : Action, Decidable (a.PinSafe r)
  | .create .. => .isTrue trivial
  | .setState h state => inferInstanceAs (Decidable ((Action.setState h state).Sound r.storage))
  | .failSlot h error => inferInstanceAs (Decidable ((Action.failSlot h error).Sound r.storage))
  | .setRetiring .. => .isTrue trivial
  | .stepDone h deps => inferInstanceAs (Decidable ((Action.stepDone h deps).Sound r.storage ∧
      (r.storage.Completes deps → r.CompletesOnce h deps)))
  | .retain h => inferInstanceAs (Decidable (r.RetainsLoaded h))
  | .release h => inferInstanceAs (Decidable (r.ReleasesPinned h))
  | .markModified _ => .isTrue trivial
  | .tryUnload h => inferInstanceAs (Decidable ((Action.tryUnload h).Sound r.storage))
  | .forceDestroy t => inferInstanceAs (Decidable (r.DestroysApart t))

/-- The law in terms of the dependents, for the types `P`. -/
def Storage.Balanced (P : TypeId → Prop) (u : Handle → Int) (st : Storage) : Prop :=
  ∀ id s, st.slotAt id = some s → s.state ≠ .empty → P id.typeId →
    (s.pinCount : Int) = u (id.handle s) + (s.dependents.map u).sum

section Balanced

variable {P : TypeId → Prop} {u : Handle → Int} {st st' : Storage} {h : Handle} {s : Slot}
  {D : List Handle}

lemma Storage.WellFormed.holders_eq (wf : st.WellFormed) {d : Handle}
    (hs : st.getSlot d = some s) : st.holders d = {a | a ∈ s.dependents} := by
  ext a
  constructor
  · rintro ⟨sa, hsa, _, hd⟩
    obtain ⟨sd, hsd, hm⟩ := wf.forth hsa hd
    rw [hs] at hsd
    cases hsd
    exact hm
  · intro ha
    obtain ⟨sa, hsa, hd⟩ := wf.back hs ha
    exact ⟨sa, hsa, wf.occupied_of_dependencies (Storage.getSlot_eq_some.mp hsa).2.1 hd, hd⟩

lemma Storage.WellFormed.finsum_holders (wf : st.WellFormed) {d : Handle}
    (hs : st.getSlot d = some s) (u : Handle → Int) :
    ∑ᶠ a ∈ st.holders d, u a = (s.dependents.map u).sum := by
  have hset : st.holders d = ↑s.dependents.toFinset := by
    rw [wf.holders_eq hs]
    ext a
    simp
  rw [hset, finsum_mem_coe_finset, List.sum_toFinset _ (wf.dependentsNodup hs)]

lemma Storage.Balanced.accounted {history : History} (wf : st.WellFormed)
    (bal : st.Balanced (fun _ => True) history.userPins) :
    Recorded.PinsAccounted ⟨st, history⟩ := by
  have count : ∀ d s, st.getSlot d = some s → s.state ≠ .empty →
      (s.pinCount : Int) = history.userPins d + (s.dependents.map history.userPins).sum := by
    intro d s hs hne
    obtain ⟨_, hat, hg⟩ := Storage.getSlot_eq_some.mp hs
    rw [bal _ _ hat hne trivial, Handle.handle_eq hg]
  constructor
  · intro d s hs hne
    simp only
    rw [wf.finsum_holders hs]
    exact count d s hs hne
  · intro nonneg d s hs hne
    have nonneg : ∀ h, 0 ≤ history.userPins h := nonneg
    obtain ⟨hsum, hzero⟩ := sum_eq_zero (l := s.dependents) nonneg
    have hd := nonneg d
    show s.pinCount = 0 ↔ history.userPins d = 0 ∧ ∀ a ∈ st.holders d, history.userPins a = 0
    rw [wf.holders_eq hs, ← Int.natCast_eq_zero, count d s hs hne]
    show _ ↔ _ ∧ ∀ a ∈ s.dependents, history.userPins a = 0
    rw [← hzero]
    omega

lemma Storage.Balanced.init : Storage.init.Balanced P u := by
  intro id s hs
  cases (show Storage.init.slotAt id = none from rfl).symm.trans hs

lemma Storage.Balanced.edit {F : SlotId → Slot → Slot} (bal : st.Balanced P u)
    (e : Storage.Edited F st st') (hF : ∀ {id s}, st.slotAt id = some s →
      (F id s).pinCount = s.pinCount ∧ (F id s).dependents = s.dependents ∧
        (F id s).generation = s.generation ∧ ((F id s).state ≠ .empty → s.state ≠ .empty)) :
    st'.Balanced P u := by
  intro id s' hs' hne hP
  rw [e.slots] at hs'
  obtain ⟨s, hs, rfl⟩ := Option.map_eq_some_iff.mp hs'
  obtain ⟨hp, hd, hg, ho⟩ := hF hs
  have hh : id.handle (F id s) = id.handle s := by simp [SlotId.handle, hg]
  rw [hp, hd, hh]
  exact bal id s hs (ho hne) hP

lemma Storage.Balanced.removed (bal : st.Balanced P u) (r : Storage.Removed st st' D)
    (idle : ∀ x ∈ D, ∀ id s, st.slotAt id = some s → P id.typeId → x ∈ s.dependents → u x = 0) :
    st'.Balanced P u := by
  intro id s' hs' hne hP
  rw [r.detached.slots] at hs'
  obtain ⟨s, hs, rfl⟩ := Option.map_eq_some_iff.mp hs'
  by_cases hm : id.handle s ∈ D
  · rw [Slot.detach_of_mem hm] at hne
    exact absurd rfl hne
  · rw [Slot.detach_of_not_mem hm] at hne ⊢
    have hb := bal id s hs hne hP
    have hsum : ((s.dependents.filter fun z =>
        decide (z ∉ D ∧ ¬ (z = Handle.invalid ∧ id.handle s ∈ ([] : List Handle)))).map u).sum =
        (s.dependents.map u).sum := by
      refine sum_filter _ fun z hz hp => ?_
      have hzD : z ∈ D := by simpa using hp
      exact idle z hzD id s hs hP hz
    rw [hsum]
    exact hb

lemma Storage.Balanced.unused (bal : st.Balanced (fun _ => True) u)
    (r : Storage.Removed st st' D) (unpinned : ∀ x ∈ D, ∀ s, st.getSlot x = some s →
      s.pinCount = 0) : ∀ x ∈ D, u x = 0 := by
  refine r.removable.ranked (fun x => u x = 0) fun x hx s hs ih => ?_
  obtain ⟨s', hs', hne, hz⟩ := r.removable.slot x hx
  rw [hs] at hs'
  cases hs'
  obtain ⟨_, hat, hg⟩ := Storage.getSlot_eq_some.mp hs
  have hb := bal _ _ hat hne trivial
  have hsum : (s.dependents.map u).sum = 0 := by
    refine List.sum_eq_zero fun y hy => ?_
    obtain ⟨z, hzm, rfl⟩ := List.mem_map.mp hy
    exact ih z hzm (hz z hzm)
  rw [unpinned x hx s hs, hsum, Handle.handle_eq hg] at hb
  simpa using hb.symm

lemma Storage.Balanced.unload (bal : st.Balanced (fun _ => True) u)
    (r : Storage.Removed st st' D) (unpinned : ∀ x ∈ D, ∀ s, st.getSlot x = some s →
      s.pinCount = 0) : st'.Balanced (fun _ => True) u :=
  bal.removed r fun x hx _ _ _ _ _ => bal.unused r unpinned x hx

lemma Storage.Balanced.completed {P : TypeId → Prop} {deps : List Dependency} {C : List Handle}
    (wf : st.WellFormed) (bal : st.Balanced P u)
    (e : Storage.Completed st st' h deps C)
    (safe : ∀ dep ∈ deps, ∀ s ∈ st.getSlot dep.depRef,
      u h = (if s.state = .loaded then 1 else 0) ∧ s.pinCount + 1 < uint32Size) :
    st'.Balanced P u := by
  intro id s' hs' hne hP
  rw [e.edited.slots] at hs'
  obtain ⟨s, hs, rfl⟩ := Option.map_eq_some_iff.mp hs'
  obtain ⟨sh, hsh, hocc, _⟩ := e.slot
  have hold : s.state ≠ .empty := by
    by_cases hid : h.slotId = id
    · subst hid
      rw [← Storage.getSlot_eq_slotAt hs hsh]
      exact hocc
    · intro he
      apply hne
      simp only [Storage.completeSlot, Storage.pinSlot, if_neg hid]
      split <;> exact he
  have hb := bal id s hs hold hP
  have hfields : (Storage.completeSlot h C id s).pinCount =
      (Storage.pinSlot C id (Storage.commitSlot h C id s)).pinCount ∧
      (Storage.completeSlot h C id s).dependents = (Storage.commitSlot h C id s).dependents ∧
      id.handle (Storage.completeSlot h C id s) = id.handle s := by
    unfold Storage.completeSlot Storage.pinSlot
    split <;> split <;> exact ⟨rfl, rfl, rfl⟩
  have hstate : (Storage.commitSlot h C id s).state = s.state := rfl
  have hhandle : id.handle (Storage.commitSlot h C id s) = id.handle s := rfl
  have hpin : (Storage.commitSlot h C id s).pinCount = s.pinCount := rfl
  rw [hfields.1, hfields.2.1, hfields.2.2]
  simp only [Storage.pinSlot, hstate, hhandle]
  by_cases hm : id.handle s ∈ C
  · obtain ⟨⟨dep, hdep, heq⟩, _⟩ := (e.mem _).mp hm
    have hget := wf.getSlot_handle hs hold
    obtain ⟨hu, hfit⟩ := safe dep hdep s (by rw [heq]; exact hget)
    have hdpts : (Storage.commitSlot h C id s).dependents = s.dependents ++ [h] := by
      simp [Storage.commitSlot, hm]
    rw [hdpts, List.map_append, List.sum_append, List.map_singleton, List.sum_singleton, hu]
    by_cases hl : s.state = .loaded
    · rw [if_pos ⟨hm, hl⟩, if_pos hl]
      simp only [Slot.pin, hpin, Nat.mod_eq_of_lt hfit]
      omega
    · rw [if_neg fun hc => hl hc.2, if_neg hl, hpin]
      omega
  · have hdpts : (Storage.commitSlot h C id s).dependents = s.dependents := by
      simp [Storage.commitSlot, hm]
    rw [if_neg fun hc => hm hc.1, hdpts, hpin]
    exact hb

lemma Storage.handle_eq_iff {id : SlotId} {sh : Slot} (hsh : st.getSlot h = some sh)
    (hs : st.slotAt id = some s) : id.handle s = h ↔ h.slotId = id := by
  obtain ⟨_, hat, hg⟩ := Storage.getSlot_eq_some.mp hsh
  constructor
  · rintro rfl
    rfl
  · rintro rfl
    rw [hat] at hs
    cases hs
    exact Handle.handle_eq hg

lemma Storage.WellFormed.mem_dependents (wf : st.WellFormed) {id : SlotId} {sh : Slot}
    (hsh : st.getSlot h = some sh) (hs : st.slotAt id = some s) (hne : s.state ≠ .empty) :
    h ∈ s.dependents ↔ id.handle s ∈ sh.dependencies := by
  have hget := wf.getSlot_handle hs hne
  constructor
  · intro hm
    obtain ⟨sh', hsh', hd⟩ := wf.back hget hm
    rw [hsh] at hsh'
    cases hsh'
    exact hd
  · intro hm
    obtain ⟨s', hs', hd⟩ := wf.forth hsh hm
    rw [hget] at hs'
    cases hs'
    exact hd

lemma Storage.Balanced.retained {sh : Slot} (wf : st.WellFormed)
    (bal : st.Balanced P u) (hsh : st.getSlot h = some sh)
    (e : Storage.Edited (Storage.retainSlot h sh.dependencies) st st')
    (fits : sh.pinCount + 1 < uint32Size)
    (safe : ∀ d ∈ sh.dependencies, ∀ sd ∈ st.getSlot d,
      sd.state = .loaded ∧ sd.pinCount + (if d = h then 2 else 1) < uint32Size) :
    st'.Balanced P (Function.update u h (u h + 1)) := by
  intro id s' hs' hne hP
  rw [e.slots] at hs'
  obtain ⟨s, hs, rfl⟩ := Option.map_eq_some_iff.mp hs'
  rw [Storage.retainSlot_state] at hne
  have hb := bal id s hs hne hP
  have hget := wf.getSlot_handle hs hne
  have hself := Storage.handle_eq_iff hsh hs
  have hmem := wf.mem_dependents hsh hs hne
  have hfields : (Storage.retainSlot h sh.dependencies id s).dependents = s.dependents ∧
      id.handle (Storage.retainSlot h sh.dependencies id s) = id.handle s := by
    unfold Storage.retainSlot Storage.pinSlot
    split <;> split <;> exact ⟨rfl, rfl⟩
  rw [hfields.1, hfields.2, sum_update u h 1 (wf.dependentsNodup hget)]
  simp only [hmem]
  by_cases hid : h.slotId = id
  · have hh := hself.mpr hid
    have hshs : sh = s := by
      subst hid
      exact Storage.getSlot_eq_slotAt hs hsh
    subst hshs
    rw [hh] at hget hb ⊢
    by_cases hm : h ∈ sh.dependencies
    · obtain ⟨hl, hfit⟩ := safe h hm sh hget
      rw [if_pos rfl] at hfit
      have hp : (Storage.retainSlot h sh.dependencies id sh).pinCount = sh.pinCount + 2 := by
        have : id.handle sh.pin = h := hh
        have hl' : sh.pin.state = .loaded := hl
        simp only [Storage.retainSlot, Storage.pinSlot, if_pos hid, this, hm, hl', and_self, if_true]
        simp only [Slot.pin]
        rw [Nat.mod_eq_of_lt fits, Nat.mod_eq_of_lt hfit]
      rw [hp, Function.update_self, if_pos hm]
      omega
    · have hp : (Storage.retainSlot h sh.dependencies id sh).pinCount = sh.pinCount + 1 := by
        have : id.handle sh.pin = h := hh
        simp only [Storage.retainSlot, Storage.pinSlot, if_pos hid, this, hm, false_and, if_false]
        simp only [Slot.pin]
        rw [Nat.mod_eq_of_lt fits]
      rw [hp, Function.update_self, if_neg hm]
      omega
  · have hne' : id.handle s ≠ h := fun hc => hid (hself.mp hc)
    rw [Function.update_of_ne hne']
    by_cases hm : id.handle s ∈ sh.dependencies
    · obtain ⟨hl, hfit⟩ := safe _ hm s hget
      rw [if_neg hne'] at hfit
      have hp : (Storage.retainSlot h sh.dependencies id s).pinCount = s.pinCount + 1 := by
        simp only [Storage.retainSlot, Storage.pinSlot, if_neg hid, hm, hl, and_self, if_true]
        simp only [Slot.pin]
        rw [Nat.mod_eq_of_lt hfit]
      rw [hp, if_pos hm]
      omega
    · have hp : (Storage.retainSlot h sh.dependencies id s).pinCount = s.pinCount := by
        simp only [Storage.retainSlot, Storage.pinSlot, if_neg hid, hm, false_and, if_false]
      rw [hp, if_neg hm]
      omega

lemma Storage.Balanced.released {sh : Slot} (wf : st.WellFormed)
    (bal : st.Balanced P u) (hsh : st.getSlot h = some sh) (hp : sh.pinCount ≠ 0)
    (e : Storage.Edited (Storage.releasedSlot h sh.dependencies) st st')
    (safe : ∀ d ∈ sh.dependencies, ∀ sd ∈ st.getSlot d, (if d = h then 2 else 1) ≤ sd.pinCount) :
    st'.Balanced P (Function.update u h (u h - 1)) := by
  intro id s' hs' hne hP
  rw [e.slots] at hs'
  obtain ⟨s, hs, rfl⟩ := Option.map_eq_some_iff.mp hs'
  rw [Storage.releasedSlot_state] at hne
  have hb := bal id s hs hne hP
  have hget := wf.getSlot_handle hs hne
  have hself := Storage.handle_eq_iff hsh hs
  have hmem := wf.mem_dependents hsh hs hne
  have hfields : (Storage.releasedSlot h sh.dependencies id s).dependents = s.dependents ∧
      id.handle (Storage.releasedSlot h sh.dependencies id s) = id.handle s := by
    unfold Storage.releasedSlot Storage.unpinSlot
    split <;> split <;> exact ⟨rfl, rfl⟩
  have hsum := sum_update u h (-1) (wf.dependentsNodup hget)
  rw [← sub_eq_add_neg] at hsum
  rw [hfields.1, hfields.2, hsum]
  simp only [hmem]
  by_cases hid : h.slotId = id
  · have hh := hself.mpr hid
    have hshs : sh = s := by
      subst hid
      exact Storage.getSlot_eq_slotAt hs hsh
    subst hshs
    have hh' : id.handle sh.unpin = h := hh
    rw [hh] at hget hb ⊢
    rw [Function.update_self]
    simp only [Storage.releasedSlot, Storage.unpinSlot, if_pos hid, hh']
    by_cases hm : h ∈ sh.dependencies
    · have hle := safe h hm sh hget
      rw [if_pos rfl] at hle
      rw [if_pos hm, if_pos hm]
      simp only [Slot.unpin]
      omega
    · rw [if_neg hm, if_neg hm]
      simp only [Slot.unpin]
      omega
  · have hne' : id.handle s ≠ h := fun hc => hid (hself.mp hc)
    rw [Function.update_of_ne hne']
    simp only [Storage.releasedSlot, Storage.unpinSlot, if_neg hid]
    by_cases hm : id.handle s ∈ sh.dependencies
    · have hle := safe _ hm s hget
      rw [if_neg hne'] at hle
      rw [if_pos hm, if_pos hm]
      simp only [Slot.unpin]
      omega
    · rw [if_neg hm, if_neg hm]
      omega

lemma Storage.Balanced.created {path : Path} {source : LoadSource} (wf : st.WellFormed)
    (bal : st.Balanced P u) (e : Storage.Created st st' h path source) :
    st'.Balanced P (Function.update u h 1) := by
  obtain ⟨s₀, hbefore, hg, hafter⟩ := e.slot
  -- nothing depended on the handle while its slot was empty
  have fresh : ∀ id s, st.slotAt id = some s → h ∉ s.dependents := by
    intro id s hs hm
    have hne := wf.occupied_of_dependents hs hm
    obtain ⟨sh, hsh, hd⟩ := wf.back (wf.getSlot_handle hs hne) hm
    obtain ⟨_, hat, _⟩ := Storage.getSlot_eq_some.mp hsh
    rcases hbefore with ⟨h₁, he⟩ | ⟨h₁, _⟩
    · rw [hat] at h₁
      cases h₁
      exact wf.occupied_of_dependencies hat hd he
    · rw [hat] at h₁
      cases h₁
  intro id s hs hne hP
  by_cases hid : id = h.slotId
  · subst hid
    rw [hafter] at hs
    cases hs
    have hh : h.slotId.handle { s₀.allocate path with source := source, pinCount := 1 } = h :=
      Handle.handle_eq hg
    rw [hh, Function.update_self]
    rfl
  · rcases e.others id hid with hsame | ⟨_, hfresh, _⟩
    · rw [hsame] at hs
      have hh : id.handle s ≠ h := fun hc => hid (by rw [← hc]; rfl)
      have hmap : s.dependents.map (Function.update u h 1) = s.dependents.map u := by
        refine List.map_congr_left fun z hz => ?_
        rw [Function.update_of_ne]
        rintro rfl
        exact fresh id s hs hz
      rw [Function.update_of_ne hh, hmap]
      exact bal id s hs hne hP
    · rw [hfresh] at hs
      cases hs
      exact absurd rfl hne

/-- The pinned assets of type `t` only depend on assets of this type. -/
def Storage.Closed (t : TypeId) (u : Handle → Int) (st : Storage) : Prop :=
  ∀ id s, st.slotAt id = some s → id.typeId = t → u (id.handle s) ≠ 0 →
    ∀ d ∈ s.dependencies, d.typeId = t

lemma Storage.Balanced.forceDestroyed {t : TypeId} {id₀ : SlotId} (wf : st.WellFormed)
    (closed : st.Closed t u) (bal : st.Balanced (· ≠ t) u) (ht : id₀.typeId = t)
    (f : Storage.ForceDestroyed st st' id₀ s D) : st'.Balanced (· ≠ t) u ∧ st'.Closed t u := by
  obtain ⟨st₁, cut, r, unpinned⟩ := f.parts
  have hget₀ := wf.getSlot_handle f.slot f.occupied
  have wf₁ := wf.cut hget₀ cut
  have bal₁ : st₁.Balanced (· ≠ t) u := by
    intro id s' hs' hne hP
    rw [cut.slots] at hs'
    obtain ⟨s₂, hs₂, rfl⟩ := Option.map_eq_some_iff.mp hs'
    have hid : id ≠ id₀ := by
      rintro rfl
      exact hP ht
    have hdpts : (Storage.cutSlot (id₀.handle s) id s₂).dependents = s₂.dependents := by
      simp [Storage.cutSlot, hid]
    rw [hdpts]
    exact bal id s₂ hs₂ hne hP
  have closed₁ : st₁.Closed t u := by
    intro id s' hs' hid hu d hd
    rw [cut.slots] at hs'
    obtain ⟨s₂, hs₂, rfl⟩ := Option.map_eq_some_iff.mp hs'
    exact closed id s₂ hs₂ hid hu d (List.mem_filter.mp hd).1
  -- nothing of another type loses a pin
  have idle : ∀ x ∈ id₀.handle s :: D, ∀ id s', st₁.slotAt id = some s' → id.typeId ≠ t →
      x ∈ s'.dependents → u x = 0 := by
    refine r.removable.ranked (fun x => ∀ id s', st₁.slotAt id = some s' → id.typeId ≠ t →
      x ∈ s'.dependents → u x = 0) fun x hx sx hsx ih id s' hs' hid hm => ?_
    obtain ⟨_, hat, hg⟩ := Storage.getSlot_eq_some.mp hsx
    by_cases hxt : x.typeId = t
    · have hget := wf₁.getSlot_handle hs' (wf₁.occupied_of_dependents hs' hm)
      obtain ⟨sx', hsx', hd⟩ := wf₁.back hget hm
      rw [hsx] at hsx'
      cases hsx'
      by_contra hu
      refine hid (closed₁ x.slotId sx hat hxt ?_ _ hd)
      rw [Handle.handle_eq hg]
      exact hu
    · obtain ⟨sx', hsx', hne, hz⟩ := r.removable.slot x hx
      rw [hsx] at hsx'
      cases hsx'
      have hx₀ : x ≠ id₀.handle s := by
        rintro rfl
        exact hxt ht
      have hb := bal₁ x.slotId sx hat hne hxt
      have hsum : (sx.dependents.map u).sum = 0 := by
        refine List.sum_eq_zero fun y hy => ?_
        obtain ⟨z, hzm, rfl⟩ := List.mem_map.mp hy
        exact ih z hzm (hz z hzm) x.slotId sx hat hxt hzm
      rw [unpinned x hx hx₀ sx hsx, hsum, Handle.handle_eq hg] at hb
      simpa using hb.symm
  refine ⟨bal₁.removed r idle, ?_⟩
  intro id s' hs' hid hu d hd
  rw [r.detached.slots] at hs'
  obtain ⟨s₂, hs₂, rfl⟩ := Option.map_eq_some_iff.mp hs'
  by_cases hm : id.handle s₂ ∈ id₀.handle s :: D
  · rw [Slot.detach_of_mem hm] at hd
    cases hd
  · rw [Slot.detach_of_not_mem hm] at hu hd
    exact closed₁ id s₂ hs₂ hid hu d hd

lemma Storage.Balanced.forceDestroyAssets {t : TypeId} {fuel : Nat} (wf : st.WellFormed)
    (bal : st.Balanced (fun _ => True) u)
    (safe : ∀ id ∈ st.slotIds t, ∀ s ∈ st.slotAt id, u (id.handle s) ≠ 0 →
      ∀ d ∈ s.dependencies, d.typeId = t)
    (e : st.forceDestroyAssets fuel t = some st') : st'.Balanced (fun _ => True) u := by
  have start : st.Balanced (· ≠ t) u ∧ st.Closed t u ∧ st.slotIds t = st.slotIds t := by
    refine ⟨fun id s hs hne _ => bal id s hs hne trivial, fun id s hs ht hu => ?_, rfl⟩
    subst ht
    by_cases hi : id.index = 0
    · intro d hd
      obtain ⟨t, i⟩ := id
      subst hi
      exact absurd (wf.zero hs) (wf.occupied_of_dependencies hs hd)
    · exact safe id (List.mem_of_mem_tail (Storage.mem_slotIds_tail hs hi)) s hs hu
  have rule := Storage.WellFormed.forceDestroyAssets (t := t)
    (I := fun st' => st'.Balanced (· ≠ t) u ∧ st'.Closed t u ∧ st'.slotIds t = st.slotIds t)
    (fun wf ⟨bal, closed, same⟩ ht f => by
      obtain ⟨bal', closed'⟩ := bal.forceDestroyed wf closed ht f
      refine ⟨bal', closed', ?_⟩
      obtain ⟨st₁, cut, r, _⟩ := f.parts
      rw [r.detached.slotIds, cut.frame.slotIds, same]) wf start fuel
  rcases rule with ⟨hnone, _⟩ | ⟨st₁, hsome, wf₁, ⟨bal₁, _, same⟩, hempty⟩
  · rw [hnone] at e
    cases e
  · rw [hsome] at e
    cases e
    intro id s hs hne _
    by_cases ht : id.typeId = t
    · subst ht
      by_cases hi : id.index = 0
      · obtain ⟨t, i⟩ := id
        subst hi
        exact absurd (wf₁.zero hs) hne
      · obtain ⟨s', hs', he⟩ := hempty id (same ▸ Storage.mem_slotIds_tail hs hi)
        rw [hs] at hs'
        cases hs'
        exact absurd he hne
    · exact bal₁ id s hs hne ht

end Balanced

lemma Action.PinSafe.sound {r : Recorded} {a : Action} (safe : a.PinSafe r) :
    a.Sound r.storage := by
  cases a with
  | create => trivial
  | setState => exact safe
  | failSlot => exact safe
  | setRetiring => trivial
  | stepDone => exact safe.1
  | retain => trivial
  | release => trivial
  | markModified => trivial
  | tryUnload => exact safe
  | forceDestroy => trivial

lemma Storage.Balanced.write {u : Handle → Int} {st : Storage} {id : SlotId} {f : Slot → Slot}
    (bal : st.Balanced (fun _ => True) u) (k : Storage.KeepsLinks f)
    (pins : ∀ s, (f s).pinCount = s.pinCount)
    (occupied : ∀ s, st.slotAt id = some s → (f s).state ≠ .empty → s.state ≠ .empty) :
    (st.modifySlot id f).Balanced (fun _ => True) u := by
  refine bal.edit (Storage.Edited.modifySlot _ _ _) fun {id s} hs => ?_
  split
  · rename_i hid
    subst hid
    exact ⟨pins s, k.dependents s, k.generation s, occupied s hs⟩
  · exact ⟨rfl, rfl, rfl, fun h => h⟩

/-- **One step.** An action under `PinSafe` keeps the law. -/
theorem Storage.Balanced.step {fuel : Nat} {st st' : Storage} {history history' : History}
    {a : Action} (wf : st.WellFormed) (bal : st.Balanced (fun _ => True) history.userPins)
    (safe : a.PinSafe ⟨st, history⟩) (eff : Storage.Effect fuel st history a st' history') :
    st'.Balanced (fun _ => True) history'.userPins := by
  cases eff with
  | created _ e => exact bal.created wf e
  | setState holds =>
    exact bal.write ⟨fun _ => rfl, fun _ => rfl, fun _ => rfl⟩ (fun _ => rfl)
      fun s hs _ => holds s hs
  | failSlot holds =>
    exact bal.write ⟨fun _ => rfl, fun _ => rfl, fun _ => rfl⟩ (fun _ => rfl)
      fun s hs _ => holds s hs
  | setRetiring =>
    exact bal.write ⟨fun _ => rfl, fun _ => rfl, fun _ => rfl⟩ (fun _ => rfl) fun _ _ h => h
  | stepFailed _ holds =>
    exact bal.write ⟨fun _ => rfl, fun _ => rfl, fun _ => rfl⟩ (fun _ => rfl)
      fun s hs _ => holds s hs
  | stepWaits _ holds =>
    exact bal.write ⟨fun _ => rfl, fun _ => rfl, fun _ => rfl⟩ (fun _ => rfl)
      fun s hs _ => holds s hs
  | completed ready _ e => exact bal.completed wf e (safe.2 ready)
  | retained hs _ live e =>
    obtain ⟨fits, deps⟩ := safe _ hs live
    exact bal.retained wf hs e fits deps
  | retainRefused => exact bal
  | @released h s st₁ _ hs pinned occupied e settled =>
    have bal₁ := bal.released wf hs pinned e (safe s hs pinned)
    cases settled with
    | pending _ _ e' =>
      subst e'
      obtain ⟨_, hat, _⟩ := Storage.getSlot_eq_some.mp hs
      refine bal₁.write ⟨fun _ => rfl, fun _ => rfl, fun _ => rfl⟩ (fun _ => rfl) fun s' hs' _ => ?_
      rw [e.slots, hat, Option.map_some] at hs'
      cases hs'
      rw [Storage.releasedSlot_state]
      exact occupied
    | kept e' => exact e' ▸ bal₁
    | removed D r unpinned => exact bal₁.unload r unpinned
  | releaseRefused => exact bal
  | marked _ _ =>
    exact bal.write ⟨fun _ => rfl, fun _ => rfl, fun _ => rfl⟩ (fun _ => rfl) fun _ _ h => h
  | unmarked => exact bal
  | unloaded r unpinned => exact bal.unload r unpinned
  | forced e => exact bal.forceDestroyAssets wf safe e

def sampleSetup : List System.Event :=
  [.registerType ⟨true, 7, 4, 4, true⟩,
    .registerLoader ⟨true, 7, some ['x'], none, false, false, true, 0, 0, 0, 0, false, false⟩]

def sampleTurn : JobScript Call := ⟨some [], [], true, [], .done, none, []⟩

def loadFile (path : Path) (required : List Handle) : System.Event :=
  .call (.load ⟨.file, 7, none, some path, false, false, none,
    required.map fun d => ⟨d, .required⟩, false⟩ ⟨0, true⟩ sampleTurn)

def retainAfterLoad : List System.Event :=
  sampleSetup ++ [loadFile ['d', '.', 'x'] [], .process [sampleTurn],
    loadFile ['a', '.', 'x'] [⟨7, 1, 1⟩], .process [sampleTurn], .call (.retain ⟨7, 2, 1⟩),
    .call (.release ⟨7, 1, 1⟩), .call (.release ⟨7, 2, 1⟩)]

def retainWhileQueued : List System.Event :=
  sampleSetup ++ [loadFile ['d', '.', 'x'] [], .process [sampleTurn],
    loadFile ['a', '.', 'x'] [⟨7, 1, 1⟩], .call (.retain ⟨7, 2, 1⟩), .process [sampleTurn]]

end PulseEngine.Asset
