import PulseEngine.Asset.Pins

/-!
# What an asset alone held goes with it

An unpinned asset is destroyed together with the last asset that depends on it: the destruction
leaves no asset behind that is neither pinned nor depended on, unless it was so before. With the law
of pins this says which dependencies go with an asset: those that no user pins and nothing else
depends on.
-/

namespace PulseEngine.Asset

open Library

namespace Storage

variable {st st' st₁ : Storage} {D : List Handle} {h d : Handle} {fuel : Nat}

def IsAsset (st : Storage) (h : Handle) : Prop := ∃ s, st.getSlot h = some s ∧ s.state ≠ .empty

instance (st : Storage) (h : Handle) : Decidable (st.IsAsset h) :=
  inferInstanceAs (Decidable (∃ s ∈ st.getSlot h, s.state ≠ .empty))

def Unheld (st : Storage) (h : Handle) : Prop :=
  ∃ s, st.getSlot h = some s ∧ s.state ≠ .empty ∧ s.pinCount = 0 ∧ s.dependents = []

def Sweeps (f : Storage → Handle → Option Storage) : Prop :=
  ∀ st h st', f st h = some st' → ∀ d, Unheld st' d → Unheld st d

lemma Unheld.congr (u : Unheld st' d) (same : st'.getSlot d = st.getSlot d) :
    Unheld st d := by
  obtain ⟨s, hs, rest⟩ := u
  exact ⟨s, same ▸ hs, rest⟩

lemma Sweeps.tryUnloadSlot {f : Storage → Handle → Option Storage} (sweeps : Sweeps f)
    (own : ∀ st st', f st h = some st' → ¬ Unheld st' h)
    (e : Storage.tryUnloadSlot f st h = some st') :
    (Unheld st' d → Unheld st d) ∧ ¬ Unheld st' h := by
  unfold Storage.tryUnloadSlot at e
  cases hs : st.getSlot h with
  | none =>
    rw [hs] at e
    cases e
    refine ⟨id, fun ⟨s, hs', _⟩ => ?_⟩
    rw [hs] at hs'
    cases hs'
  | some s =>
    simp only [hs] at e
    split at e
    · obtain ⟨st₁, e₁, e⟩ := Option.bind_eq_some_iff.mp e
      cases e
      have back : ∀ x, Unheld (st₁.pushFreeIndex h.slotId) x → Unheld st₁ x :=
        fun x u => u.congr (getSlot_pushFreeIndex _ _ _)
      exact ⟨fun u => sweeps _ _ _ e₁ _ (back d u), fun u => own _ _ e₁ (back h u)⟩
    · rename_i held
      cases e
      refine ⟨id, fun ⟨s', hs', _, zero, nil⟩ => held ?_⟩
      rw [hs] at hs'
      cases hs'
      exact ⟨zero, nil⟩

lemma Sweeps.detachDependency {f : Storage → Handle → Option Storage} {dep : Handle}
    (sweeps : Sweeps f) (own : ∀ st st' h, f st h = some st' → ¬ Unheld st' h)
    (e : Storage.detachDependency f h st dep = some st') (u : Unheld st' d) : Unheld st d := by
  unfold Storage.detachDependency at e
  cases hs : st.getSlot dep with
  | none =>
    rw [hs] at e
    cases e
    exact u
  | some s =>
    simp only [hs] at e
    obtain ⟨back, gone⟩ := sweeps.tryUnloadSlot (d := d) (own · · dep) e
    by_cases hd : d = dep
    · subst hd
      exact absurd u gone
    · refine (back u).congr ?_
      obtain ⟨s', hs', _⟩ := back u
      rw [getSlot_removeDependent] at hs' ⊢
      split
      · rename_i same
        rw [if_pos same] at hs'
        obtain ⟨sd, hsd, _⟩ := Option.map_eq_some_iff.mp hs'
        exact absurd (getSlot_unique same hs hsd).symm hd
      · rfl

lemma destroySlot_self_empty (e : destroySlot fuel st h = some st') : ¬ Unheld st' h := by
  rintro ⟨s, hs, occupied, _⟩
  cases fuel with
  | zero => cases e
  | succ fuel =>
    unfold destroySlot at e
    split at e
    · cases e
    · obtain ⟨st₁, _, e⟩ := Option.bind_eq_some_iff.mp e
      cases e
      obtain ⟨_, hat, _⟩ := getSlot_eq_some.mp hs
      rw [slotAt_modifySlot, if_pos rfl] at hat
      obtain ⟨s₁, _, rfl⟩ := Option.map_eq_some_iff.mp hat
      exact occupied rfl

/-- **Destroying sweeps**: by induction on the depth of the stack. -/
theorem sweeps_destroySlot : ∀ fuel, Sweeps (destroySlot fuel) := by
  intro fuel
  induction fuel with
  | zero =>
    intro st h st' e
    cases e
  | succ fuel ih =>
    intro st h st' e d u
    unfold destroySlot at e
    cases hs : st.slotAt h.slotId with
    | none =>
      rw [hs] at e
      cases e
    | some s =>
      simp only [hs] at e
      obtain ⟨st₂, e₂, e⟩ := Option.bind_eq_some_iff.mp e
      cases e
      have loop : ∀ {deps : List Handle} {st st' : Storage},
          detachCommittedDependencies (destroySlot fuel) st h deps = some st' →
            Unheld st' d → Unheld st d := by
        intro deps
        induction deps with
        | nil =>
          intro st st' e u
          cases e
          exact u
        | cons dep deps ihDeps =>
          intro st st' e u
          unfold detachCommittedDependencies at e
          rw [List.foldlM_cons] at e
          obtain ⟨st₁, e₁, e⟩ := Option.bind_eq_some_iff.mp e
          exact ih.detachDependency (fun _ _ _ => destroySlot_self_empty) e₁ (ihDeps e u)
      by_cases hd : h.slotId = d.slotId
      · -- the slot of the destroyed asset is empty
        obtain ⟨s', hs', occupied, _⟩ := u
        obtain ⟨_, hat, _⟩ := getSlot_eq_some.mp hs'
        rw [slotAt_modifySlot, if_pos hd] at hat
        obtain ⟨s₁, _, rfl⟩ := Option.map_eq_some_iff.mp hat
        exact absurd rfl occupied
      · have before : Unheld st₂ d :=
          u.congr (getSlot_congr (by rw [slotAt_modifySlot, if_neg hd])).symm
        refine (loop e₂ before).congr ?_
        rw [getSlot_runDestroyCallback, getSlot_eraseIfMatches]

lemma Edited.getSlot_some {F : SlotId → Slot → Slot} {s : Slot} (e : Edited F st st')
    (hF : ∀ id s, (F id s).generation = s.generation) (hs : st.getSlot d = some s) :
    st'.getSlot d = some (F d.slotId s) := by
  obtain ⟨hv, hat, hg⟩ := getSlot_eq_some.mp hs
  exact getSlot_eq_some.mpr ⟨hv, by rw [e.slots, hat, Option.map_some], (hF _ _).trans hg⟩

lemma Edited.getSlot_before {F : SlotId → Slot → Slot} {s' : Slot} (e : Edited F st st')
    (hF : ∀ id s, (F id s).generation = s.generation) (hs' : st'.getSlot d = some s') :
    ∃ s, st.getSlot d = some s ∧ s' = F d.slotId s := by
  obtain ⟨hv, hat', hg'⟩ := getSlot_eq_some.mp hs'
  rw [e.slots] at hat'
  obtain ⟨s, hat, rfl⟩ := Option.map_eq_some_iff.mp hat'
  exact ⟨s, getSlot_eq_some.mpr ⟨hv, hat, (hF _ _).symm.trans hg'⟩, rfl⟩

lemma IsAsset.edit {F : SlotId → Slot → Slot} (a : IsAsset st d) (e : Edited F st st')
    (hF : ∀ id s, (F id s).generation = s.generation)
    (occupied : ∀ id s, s.state ≠ .empty → (F id s).state ≠ .empty) : IsAsset st' d := by
  obtain ⟨s, hs, hne⟩ := a
  exact ⟨_, e.getSlot_some hF hs, occupied _ _ hne⟩

lemma IsAsset.write {f : Slot → Slot} {id : SlotId} (a : IsAsset st d)
    (k : ∀ s, (f s).generation = s.generation) (occupied : ∀ s, s.state ≠ .empty →
      (f s).state ≠ .empty) : IsAsset (st.modifySlot id f) d := by
  refine a.edit (Edited.modifySlot st id f) (fun id' s => ?_) fun id' s hs => ?_
  · split
    · exact k s
    · rfl
  · split
    · exact occupied s hs
    · exact hs

lemma IsAsset.created {path : Path} {source : LoadSource} (a : IsAsset st d)
    (e : Created st st' h path source) : IsAsset st' d := by
  obtain ⟨s, hs, hne⟩ := a
  obtain ⟨_, hat, _⟩ := getSlot_eq_some.mp hs
  have other : d.slotId ≠ h.slotId := by
    intro same
    obtain ⟨s₀, ⟨hat₀, empty⟩ | ⟨hat₀, _⟩, _⟩ := e.slot
    all_goals
      rw [← same, hat] at hat₀
      cases hat₀
    exact hne empty
  rcases e.others _ other with keep | ⟨none, _⟩
  · exact ⟨s, by rw [getSlot_congr keep, hs], hne⟩
  · rw [hat] at none
    cases none

lemma WellFormed.release_sweeps (wf : st.WellFormed) (e : st.release fuel h = some (.ok st'))
    (u : Unheld st' d) : ∃ s, st.getSlot d = some s ∧ s.dependents = [] := by
  unfold Storage.release at e
  cases hs : st.getSlot h with
  | none =>
    rw [hs] at e
    cases e
  | some s =>
    simp only [hs] at e
    split at e
    · cases e
    · have eff : Edited (releasedSlot h s.dependencies) st
          ((st.modifySlot h.slotId Slot.unpin).unpinCommittedDependencies s.dependencies) :=
        (Edited.modifySlot st h.slotId Slot.unpin).trans
          (Edited.unpinCommittedDependencies _ (wf.nodup hs) (wf.valid hs))
      generalize (st.modifySlot h.slotId Slot.unpin).unpinCommittedDependencies s.dependencies = st₁
        at e eff
      have before : ∀ s₁, st₁.getSlot d = some s₁ → s₁.dependents = [] →
          ∃ s, st.getSlot d = some s ∧ s.dependents = [] := by
        intro s₁ hs₁ nil
        obtain ⟨s₀, hs₀, rfl⟩ := eff.getSlot_before (by simp) hs₁
        exact ⟨s₀, hs₀, by rwa [releasedSlot_dependents] at nil⟩
      have pending : Unheld (st₁.modifySlot h.slotId setPendingDelete) d →
          ∃ s, st.getSlot d = some s ∧ s.dependents = [] := by
        rintro ⟨s', hs', _, _, nil⟩
        rw [getSlot_modifySlot (f := setPendingDelete) (fun _ => rfl)] at hs'
        split at hs'
        · obtain ⟨s₁, hs₁, rfl⟩ := Option.map_eq_some_iff.mp hs'
          exact before s₁ hs₁ nil
        · exact before s' hs' nil
      have kept : Unheld st₁ d → ∃ s, st.getSlot d = some s ∧ s.dependents = [] :=
        fun ⟨s₁, hs₁, _, _, nil⟩ => before s₁ hs₁ nil
      obtain ⟨st₂, e, same⟩ := Option.map_eq_some_iff.mp e
      cases same
      unfold releaseSlot at e
      split at e
      · cases e
      · rename_i s₁ _
        by_cases busy : s₁.retiringLoadJob = true ∨ s₁.state.isLoadInProgress = true
        · have marked : some (if s₁.pinCount = 0 then st₁.modifySlot h.slotId setPendingDelete
              else st₁) = some st' := by
            rcases busy with hr | hl
            · simpa only [hr, if_true] using e
            · simpa only [hl, if_true, ite_self] using e
          cases marked
          split at u
          · exact pending u
          · exact kept u
        · obtain ⟨idle, still⟩ := not_or.mp busy
          rw [if_neg idle, if_neg still] at e
          split at e
          · exact kept ((sweeps_destroySlot fuel).tryUnloadSlot
              (fun _ _ => destroySlot_self_empty) e |>.1 u)
          · cases e
            exact kept u

end Storage

/-- An action from `r` to `r'` removes the assets `D`, after it gave back pins that left `st`. -/
structure Recorded.Unloading (r r' : Recorded) (st : Storage) (D : List Handle) : Prop where
  edited : ∃ F : SlotId → Slot → Slot, Storage.Edited F r.storage st ∧ ∀ id s,
    (F id s).generation = s.generation ∧ (F id s).state = s.state ∧
      (F id s).dependents = s.dependents
  removed : Storage.Removed st r'.storage D
  unused : ∀ x ∈ D, r'.history.userPins x = 0
  balanced : st.Balanced (fun _ => True) r'.history.userPins
  sweeps : ∀ d, r'.storage.Unheld d → ∃ s, r.storage.getSlot d = some s ∧ s.dependents = []

section Parts

variable {r r' : Recorded} {a : Action} {c : Handle} {fuel : Nat}

lemma Recorded.unloading (wf : r.storage.WellFormed)
    (bal : r.storage.Balanced (fun _ => True) r.history.userPins) (safe : a.PinSafe r)
    (quiet : a.isForceDestroy = false) (e : r.step fuel a = some r')
    (before : r.storage.IsAsset c) (gone : ¬ r'.storage.IsAsset c) :
    ∃ st D, r.Unloading r' st D := by
  obtain ⟨st, history⟩ := r
  obtain ⟨st', history'⟩ := r'
  have eff := wf.effect safe.sound e
  obtain ⟨st₂, performed, same⟩ := Option.map_eq_some_iff.mp e
  obtain ⟨rfl, _⟩ := Recorded.mk.inj same
  cases eff with
  | created _ created => exact absurd (before.created created) gone
  | @setState h state holds =>
    refine (gone (before.write (fun _ => rfl) fun s _ => ?_)).elim
    obtain ⟨state, progress⟩ := state
    rintro rfl
    cases progress
  | failSlot => exact (gone (before.write (fun _ => rfl) fun s _ => by simp)).elim
  | setRetiring => exact (gone (before.write (fun _ => rfl) fun s hs => hs)).elim
  | stepFailed => exact (gone (before.write (fun _ => rfl) fun s _ => by simp)).elim
  | stepWaits => exact (gone (before.write (fun _ => rfl) fun s _ => by simp)).elim
  | completed _ _ completed =>
    refine absurd (before.edit completed.edited (by simp) fun id s hs => ?_) gone
    rw [Storage.completeSlot_state]
    split
    · decide
    · exact hs
  | retained _ _ _ edited => exact absurd (before.edit edited (by simp) (by simp)) gone
  | retainRefused => exact absurd before gone
  | @released h s st₁ _ hs pinned occupied edited settled =>
    have keep : st₁.IsAsset c := before.edit edited (by simp) (by simp)
    have done : st.release fuel h = some (.ok st₂) := by
      unfold Action.apply at performed
      dsimp only at performed
      split at performed
      · rename_i st₃ ok
        cases performed
        exact ok
      · rename_i error refused
        unfold Storage.release at refused
        simp only [hs, if_neg pinned] at refused
        obtain ⟨_, _, h⟩ := Option.map_eq_some_iff.mp refused
        cases h
      · cases performed
    cases settled with
    | pending _ _ e' =>
      subst e'
      exact (gone (keep.write (fun _ => rfl) fun s _ => by simp [Storage.setPendingDelete])).elim
    | kept e' => exact absurd (e' ▸ keep) gone
    | removed D removed unpinned =>
      have bal₁ := bal.released wf hs pinned edited (safe s hs pinned)
      exact ⟨st₁, D, ⟨_, edited, fun id s => ⟨by simp, by simp, by simp⟩⟩, removed,
        bal₁.unused removed unpinned, bal₁, fun d u => wf.release_sweeps done u⟩
  | releaseRefused => exact absurd before gone
  | marked => exact (gone (before.write (fun _ => rfl) fun s hs => hs)).elim
  | unmarked => exact absurd before gone
  | @unloaded h D _ removed unpinned =>
    refine ⟨st, D, ⟨_, Storage.Edited.refl st, fun id s => ⟨rfl, rfl, rfl⟩⟩, removed,
      bal.unused removed unpinned, bal, fun d u => ?_⟩
    obtain ⟨s, hs, _, _, nil⟩ := ((Storage.sweeps_destroySlot fuel).tryUnloadSlot
      (fun _ _ => Storage.destroySlot_self_empty) performed).1 u
    exact ⟨s, hs, nil⟩
  | forced => cases quiet

lemma Recorded.Unloading.mem_iff {st : Storage} {D : List Handle} {x : Handle}
    (un : r.Unloading r' st D) (before : r.storage.IsAsset x) : x ∈ D ↔ ¬ r'.storage.IsAsset x := by
  obtain ⟨F, edited, hF⟩ := un.edited
  obtain ⟨s, hs, occupied⟩ := before
  have hs₁ := edited.getSlot_some (fun id s => (hF id s).1) hs
  constructor
  · rintro hx ⟨s', hs', _⟩
    rw [un.removed.detached.getSlot_of_mem hs₁ hx] at hs'
    cases hs'
  · intro gone
    by_contra hx
    refine gone ⟨_, un.removed.detached.getSlot_of_not_mem hs₁ hx, ?_⟩
    rw [Slot.detach_of_not_mem hx]
    show (F x.slotId s).state ≠ .empty
    rw [(hF _ _).2.1]
    exact occupied

lemma Recorded.Unloading.isAsset_before {st : Storage} {D : List Handle} {x : Handle}
    (un : r.Unloading r' st D) (after : r'.storage.IsAsset x) : r.storage.IsAsset x := by
  obtain ⟨F, edited, hF⟩ := un.edited
  obtain ⟨s', hs', occupied⟩ := after
  rcases un.removed.detached.getSlot_cases hs' with ⟨s₁, hs₁, hx, rfl⟩ | ⟨_, _, _, rfl⟩
  · obtain ⟨s, hs, rfl⟩ := edited.getSlot_before (fun id s => (hF id s).1) hs₁
    rw [Slot.detach_of_not_mem hx] at occupied
    exact ⟨s, hs, (hF _ _).2.1 ▸ occupied⟩
  · exact absurd rfl occupied

lemma Recorded.Unloading.unused_of_gone {st : Storage} {D : List Handle} {x : Handle}
    (un : r.Unloading r' st D) (before : r.storage.IsAsset x) (gone : ¬ r'.storage.IsAsset x) :
    r'.history.userPins x = 0 := un.unused x ((un.mem_iff before).mpr gone)

/-- **Parts go with their asset.** When an asset is removed, the dependencies that only it depends on
are removed as well if and only if no user pins them. -/
theorem Recorded.Unloading.part_iff {st : Storage} {D : List Handle} {p : Handle} {sc : Slot}
    (un : r.Unloading r' st D) (wf : r.storage.WellFormed) (hsc : r.storage.getSlot c = some sc)
    (gone : ¬ r'.storage.IsAsset c) (part : p ∈ sc.dependencies)
    (alone : ∀ s, r.storage.getSlot p = some s → ∀ z ∈ s.dependents, z = c) :
    ¬ r'.storage.IsAsset p ↔ r'.history.userPins p = 0 := by
  have occupied := wf.occupied_of_dependencies (Storage.getSlot_eq_some.mp hsc).2.1 part
  obtain ⟨sp, hsp, hc⟩ := wf.forth hsc part
  have hp : r.storage.IsAsset p :=
    ⟨sp, hsp, wf.occupied_of_dependents (Storage.getSlot_eq_some.mp hsp).2.1 hc⟩
  refine ⟨un.unused_of_gone hp, fun zero => ?_⟩
  rw [← un.mem_iff hp]
  by_contra hm
  have hcD : c ∈ D := (un.mem_iff ⟨sc, hsc, occupied⟩).mpr gone
  obtain ⟨F, edited, hF⟩ := un.edited
  have hs₁ := edited.getSlot_some (fun id s => (hF id s).1) hsp
  set s₁ := F p.slotId sp with hs₁eq
  have live : s₁.state ≠ .empty := by
    obtain ⟨s, hs, occ⟩ := hp
    rw [hsp] at hs
    cases hs
    rw [hs₁eq, (hF _ _).2.1]
    exact occ
  have dependents : ∀ z ∈ s₁.dependents, z = c := by
    rw [hs₁eq, (hF _ _).2.2]
    exact alone sp hsp
  -- the part is not pinned: its holders are gone
  obtain ⟨_, hat₁, hg₁⟩ := Storage.getSlot_eq_some.mp hs₁
  have count := un.balanced _ _ hat₁ live trivial
  have sum : (s₁.dependents.map r'.history.userPins).sum = 0 := by
    refine List.sum_eq_zero fun y hy => ?_
    obtain ⟨z, hz, rfl⟩ := List.mem_map.mp hy
    rw [dependents z hz]
    exact un.unused c hcD
  rw [Handle.handle_eq hg₁, zero, sum] at count
  -- so it is left unheld, which it was not before
  have after := un.removed.detached.getSlot_of_not_mem hs₁ hm
  have unheld : r'.storage.Unheld p := by
    refine ⟨_, after, ?_, ?_, ?_⟩
    · rw [Slot.detach_of_not_mem hm]
      exact live
    · rw [Slot.detach_of_not_mem hm]
      exact Int.natCast_eq_zero.mp (by simpa using count)
    · rw [Slot.detach_of_not_mem hm]
      refine List.filter_eq_nil_iff.mpr fun z hz => ?_
      rw [dependents z hz]
      simp [hcD]
  obtain ⟨s, hs, nil⟩ := un.sweeps p unheld
  rw [hsp] at hs
  cases hs
  rw [nil] at hc
  cases hc

def Recorded.UsedThere (r : Recorded) : Prop :=
  ∀ x, r.history.userPins x ≠ 0 → r.storage.IsAsset x

lemma Recorded.usedThere_step (wf : r.storage.WellFormed)
    (bal : r.storage.Balanced (fun _ => True) r.history.userPins) (used : r.UsedThere)
    (safe : a.PinSafe r) (quiet : a.isForceDestroy = false) (e : r.step fuel a = some r') :
    r'.UsedThere := by
  intro x hx
  by_contra gone
  have before : r.storage.IsAsset x := by
    obtain ⟨st, history⟩ := r
    obtain ⟨st', history'⟩ := r'
    have other : ∀ {h : Handle} {n : Int}, x ≠ h →
        Function.update history.userPins h n x ≠ 0 → st.IsAsset x :=
      fun hne h => used x (by rwa [Function.update_of_ne hne] at h)
    cases wf.effect safe.sound e with
    | @created _ _ _ _ h _ _ created =>
      by_cases hne : x = h
      · subst hne
        obtain ⟨s, _, hg, hat⟩ := created.slot
        exact (gone ⟨_, Storage.getSlot_eq_some.mpr ⟨created.valid, hat, hg⟩,
          by simp [Slot.allocate]⟩).elim
      · exact other hne hx
    | @retained h s _ hs occupied =>
      by_cases hne : x = h
      · exact hne ▸ ⟨s, hs, occupied⟩
      · exact other hne hx
    | @released h s _ _ hs _ occupied =>
      by_cases hne : x = h
      · exact hne ▸ ⟨s, hs, occupied⟩
      · exact other hne hx
    | _ => exact used x hx
  obtain ⟨st, D, un⟩ := Recorded.unloading wf bal safe quiet e before gone
  exact hx (un.unused_of_gone before gone)

/-- **As long as nothing is destroyed by force**, what is used is there. -/
theorem Recorded.usedThere_of_calm {log : List Action}
    (safe : Along (Recorded.step fuel) (fun r a => a.PinSafe r) Recorded.init log)
    (calm : ∀ a ∈ log, a.isForceDestroy = false)
    (e : run (Recorded.step fuel) Recorded.init log = some r) : r.UsedThere := by
  refine (Along.invariant (I := fun r => r.storage.WellFormed ∧
    r.storage.Balanced (fun _ => True) r.history.userPins ∧ r.UsedThere)
    (fun r a r' ⟨wf, bal, used⟩ ⟨safe, quiet⟩ e => ?_)
    ⟨Storage.WellFormed.init, Storage.Balanced.init, fun x hx => absurd rfl hx⟩
    (safe.attach calm) e).2.2
  have eff := wf.effect safe.sound e
  exact ⟨wf.step eff, bal.step wf safe eff, Recorded.usedThere_step wf bal used safe quiet e⟩

end Parts

end PulseEngine.Asset
