import PulseEngine.Asset.WellFormed

/-!
# Destruction from a well-formed storage

What `tryUnloadSlot` and `forceDestroyAssets` do between two operations: they remove a closed set of
slots (`Removed`), keep the invariant, and return as soon as the stack is as deep as there are
dependents entries.
-/

namespace PulseEngine.Asset

namespace Storage

/-- `st'` is `st` without the assets `D`. -/
structure Removed (st st' : Storage) (D : List Handle) : Prop where
  detached : Detached st st' D Handle.invalid []
  freed : Freed st st' D
  removable : Removable st D

/-- Every handle in `D` but `h` itself was unpinned. -/
def UnpinnedBut (h : Handle) (st : Storage) (D : List Handle) : Prop :=
  ∀ x ∈ D, x ≠ h → ∀ s, st.getSlot x = some s → s.pinCount = 0

section Removal

variable {st st' st₁ : Storage} {D : List Handle} {h : Handle} {s : Slot} {fuel : Nat}

lemma Detached.of_nil {h h' : Handle} (e : Detached st st' D h []) : Detached st st' D h' [] :=
  { e with slots := fun id => by rw [e.slots]; congr 1; funext s; simp [Slot.detach] }

lemma Removed.refl (st : Storage) : Removed st st [] :=
  ⟨Detached.refl st _, Freed.nil fun _ => rfl, ⟨List.nodup_nil, by simp, by simp [Ranked]⟩⟩

lemma WellFormed.removed (wf : WellFormed st) (r : Removed st st' D) : WellFormed st' :=
  wf.remove r.detached r.freed r.removable

lemma WellFormed.detachable (wf : WellFormed st) (hs : st.getSlot h = some s)
    (hnil : s.dependents = []) :
    Detachable (fun _ => True) (fun x => x = h) st h s.dependencies where
  linked := wf.linked _
  root := rfl
  nodup := wf.nodup hs
  valid := by
    intro d hd
    exact (wf.linked fun _ => False).valid hs hd
  lists := by
    intro d hd sd hsd
    exact (wf.linked fun _ => False).forth (X := fun _ => False) not_false hs hd hsd
  mortal := fun _ _ _ _ _ _ => trivial
  closed := fun _ _ _ _ _ _ _ _ _ _ _ => trivial
  stuck := by
    rintro x rfl s' hs'
    rw [hs] at hs'
    cases hs'
    exact Or.inr (Or.inl hnil)

lemma WellFormed.destroySlot (wf : WellFormed st) (hs : st.getSlot h = some s)
    (hocc : s.state ≠ .empty) (hnil : s.dependents = []) (fuel : Nat) :
    (Storage.destroySlot fuel st h = none ∧ fuel ≤ st.edges.ncard) ∨
    ∃ st₁ D, Storage.destroySlot fuel st h = some st₁ ∧
      Removed st (st₁.pushFreeIndex h.slotId) (h :: D) ∧ UnpinnedBut h st (h :: D) := by
  obtain ⟨hv, hat, hg⟩ := getSlot_eq_some.mp hs
  cases fuel with
  | zero => exact Or.inl ⟨rfl, Nat.zero_le _⟩
  | succ fuel =>
    have out := destroySlot_outcome hat hg (Or.inl hv) (wf.detachable hs hnil) fuel
    cases e : Storage.destroySlot (fuel + 1) st h with
    | none =>
      rw [e] at out
      exact Or.inl ⟨rfl, out wf.finite⟩
    | some st₁ =>
      rw [e] at out
      obtain ⟨D, eff, freed, un⟩ := out
      have hD : h ∉ D := un.root_not_mem rfl
      have hat₁ : st₁.slotAt h.slotId = some s.reset := by
        rw [eff.slots, hat, Option.map_some, Handle.handle_eq hg,
          Slot.detach_of_mem List.mem_cons_self]
      refine Or.inr ⟨st₁, D, rfl, ⟨?_, ?_, ?_⟩, ?_⟩
      · refine Detached.of_nil (h := h) ?_
        exact { eff with
          slots := by simpa using eff.slots
          hasDestroy := by simpa using eff.hasDestroy
          slotIds := by simpa using eff.slotIds
          hasBucket := by simpa using eff.hasBucket }
      · intro t
        rw [freeIndices_pushFreeIndex hat₁, freed t]
        by_cases ht : t = h.typeId
        · subst ht
          simp [Handle.slotId]
        · have ht' : ¬ h.typeId = t := fun hc => ht hc.symm
          simp [Handle.slotId, ht, ht']
      · refine ⟨List.nodup_cons.mpr ⟨hD, un.nodup⟩, ?_, ?_⟩
        rotate_left
        · intro P step
          have self : P h := step h List.mem_cons_self s hs (by simp [hnil])
          have rest : ∀ x ∈ D, P x := by
            refine un.ranked P fun x hx sx hsx hP => ?_
            refine step x (List.mem_cons_of_mem _ hx) sx hsx fun z hz hzD => ?_
            rcases List.mem_cons.mp hzD with rfl | hzD
            · exact self
            · exact hP z hz hzD
          intro x hx
          rcases List.mem_cons.mp hx with rfl | hx
          · exact self
          · exact rest x hx
        intro x hx
        rcases List.mem_cons.mp hx with rfl | hxD
        · exact ⟨s, hs, hocc, by simp [hnil]⟩
        · obtain ⟨sx, hsx, _, hne, hz⟩ := un.slot x hxD
          obtain ⟨z, hzmem⟩ := List.exists_mem_of_ne_nil _ hne
          refine ⟨sx, hsx, ?_, ?_⟩
          · exact wf.occupied_of_dependents (getSlot_eq_some.mp hsx).2.1 hzmem
          · intro z hzmem
            rcases hz z hzmem with hm | ⟨rfl, _⟩
            · exact List.mem_cons_of_mem _ hm
            · exact List.mem_cons_self
      · intro x hx hne sx hsx
        obtain ⟨sx', hsx', hp, _⟩ := un.slot x ((List.mem_cons.mp hx).resolve_left hne)
        rw [hsx] at hsx'
        cases hsx'
        exact hp

/-- **`tryUnloadSlot`** removes unpinned assets, if any. -/
theorem WellFormed.tryUnloadSlot (wf : WellFormed st)
    (hocc : ∀ s, st.getSlot h = some s → s.state ≠ .empty) (fuel : Nat) :
    (Storage.tryUnloadSlot (Storage.destroySlot fuel) st h = none ∧ fuel ≤ st.edges.ncard) ∨
    ∃ st' D, Storage.tryUnloadSlot (Storage.destroySlot fuel) st h = some st' ∧
      Removed st st' D ∧ ∀ x ∈ D, ∀ s, st.getSlot x = some s → s.pinCount = 0 := by
  unfold Storage.tryUnloadSlot
  cases hs : st.getSlot h with
  | none => exact Or.inr ⟨st, [], rfl, Removed.refl st, by simp⟩
  | some s =>
    by_cases hun : s.pinCount = 0 ∧ s.dependents = []
    · simp only [if_pos hun]
      rcases wf.destroySlot hs (hocc s hs) hun.2 fuel with ⟨e, hle⟩ | ⟨st₁, D, e, r, hp⟩
      · rw [e]
        exact Or.inl ⟨rfl, hle⟩
      · rw [e]
        refine Or.inr ⟨_, h :: D, rfl, r, ?_⟩
        intro x hx sx hsx
        by_cases hxh : x = h
        · subst hxh
          rw [hs] at hsx
          cases hsx
          exact hun.1
        · exact hp x hx hxh sx hsx
    · simp only [if_neg hun]
      exact Or.inr ⟨st, [], rfl, Removed.refl st, by simp⟩

/-- What cutting `h` loose from its dependents does to a slot. -/
def cutSlot (h : Handle) (id : SlotId) (s : Slot) : Slot :=
  { s with
    dependencies := s.dependencies.filter (· ≠ h)
    dependents := if id = h.slotId then [] else s.dependents }

lemma WellFormed.detachDependentsFromSlot (wf : WellFormed st) (hs : st.getSlot h = some s) :
    Edited (cutSlot h) st (st.detachDependentsFromSlot h s.dependents) := by
  have loop := Edited.foldl (g := detachDependent h) (f := Slot.removeDependency h)
    (fun _ => rfl) (fun st y => Edited.of_getSlot (fun hy => by simp [detachDependent, hy])
      fun s hy => by simpa [detachDependent, hy] using Edited.modifySlot st y.slotId _)
    st (wf.dependentsNodup hs)
  refine (loop.trans (Edited.modifySlot _ _ _)).congr ?_
  intro id s' hs'
  have hfilter : ∀ {s'' : Slot}, s'' = (if (id.handle s').isValid = true ∧
      id.handle s' ∈ s.dependents then s'.removeDependency h else s') →
      s''.dependencies = s'.dependencies.filter (· ≠ h) ∧ s'' = { s' with
        dependencies := s'.dependencies.filter (· ≠ h) } := by
    rintro s'' rfl
    split
    · exact ⟨rfl, rfl⟩
    · rename_i hno
      have hnot : h ∉ s'.dependencies := by
        intro hm
        have hget := wf.getSlot_handle hs' (wf.occupied_of_dependencies hs' hm)
        obtain ⟨sd, hsd, hmem⟩ := wf.forth hget hm
        rw [hs] at hsd
        cases hsd
        exact hno ⟨(getSlot_eq_some.mp hget).1, hmem⟩
      have hfil : s'.dependencies.filter (· ≠ h) = s'.dependencies := by
        rw [List.filter_eq_self]
        intro d hd
        simpa using fun e : d = h => hnot (e ▸ hd)
      rw [hfil]
      exact ⟨rfl, rfl⟩
  rw [(hfilter rfl).2]
  by_cases hid : h.slotId = id
  · subst hid
    simp [cutSlot]
  · have hid' : ¬ id = h.slotId := fun e => hid e.symm
    simp [cutSlot, hid, hid']

lemma WellFormed.cut (wf : WellFormed st) (hs : st.getSlot h = some s)
    (e : Edited (cutSlot h) st st') : WellFormed st' := by
  have hat : ∀ {id s'}, st'.slotAt id = some s' → ∃ s, st.slotAt id = some s ∧
      s' = cutSlot h id s := by
    intro id s' hs'
    rw [e.slots] at hs'
    obtain ⟨s, hs, rfl⟩ := Option.map_eq_some_iff.mp hs'
    exact ⟨s, hs, rfl⟩
  have hget : ∀ {y s'}, st'.getSlot y = some s' → ∃ s, st.getSlot y = some s ∧
      s' = cutSlot h y.slotId s := by
    intro y s' hy
    obtain ⟨hv, hs', hg⟩ := getSlot_eq_some.mp hy
    obtain ⟨s, hs, rfl⟩ := hat hs'
    exact ⟨s, getSlot_eq_some.mpr ⟨hv, hs, hg⟩, rfl⟩
  have hget' : ∀ {y s}, st.getSlot y = some s → st'.getSlot y = some (cutSlot h y.slotId s) := by
    intro y s hy
    obtain ⟨hv, hs, hg⟩ := getSlot_eq_some.mp hy
    refine getSlot_eq_some.mpr ⟨hv, ?_, hg⟩
    rw [e.slots, hs, Option.map_some]
  have hnot : ∀ {d sd}, st.getSlot d = some sd → (d.slotId ≠ h.slotId ↔ d ≠ h) := by
    intro d sd hd
    constructor
    · rintro hne rfl
      exact hne rfl
    · intro hne hid
      exact hne (getSlot_unique hid hd hs)
  constructor
  · intro a sa ha
    obtain ⟨s, hs, rfl⟩ := hget ha
    exact (wf.nodup hs).filter _
  · intro d sd hd
    obtain ⟨s, hs, rfl⟩ := hget hd
    simp only [cutSlot]
    split
    · exact List.nodup_nil
    · exact wf.dependentsNodup hs
  · intro a sa d ha hd
    obtain ⟨sa₀, ha₀, rfl⟩ := hget ha
    obtain ⟨hd, hne⟩ := List.mem_filter.mp hd
    obtain ⟨sd, hsd, hm⟩ := wf.forth ha₀ hd
    refine ⟨_, hget' hsd, ?_⟩
    have hid := (hnot hsd).mpr (of_decide_eq_true hne)
    simpa [cutSlot, hid] using hm
  · intro d sd z hd hz
    obtain ⟨sd₀, hd₀, rfl⟩ := hget hd
    by_cases hid : d.slotId = h.slotId
    · simp [cutSlot, hid] at hz
    · have hz' : z ∈ sd₀.dependents := by simpa [cutSlot, hid] using hz
      obtain ⟨sz, hsz, hm⟩ := wf.back hd₀ hz'
      refine ⟨_, hget' hsz, List.mem_filter.mpr ⟨hm, ?_⟩⟩
      simpa using (hnot hd₀).mp hid
  · intro id s' hs' he
    obtain ⟨s, hs, rfl⟩ := hat hs'
    have hb := wf.blank hs he
    exact ⟨hb.pinCount, hb.path, hb.constructed, by simp [cutSlot, hb.dependencies],
      by simp [cutSlot, hb.dependents]⟩
  · intro t s' hs'
    obtain ⟨s, hs, rfl⟩ := hat hs'
    exact wf.zero (s := s) hs
  · intro t ht
    rw [e.slots]
    simpa using wf.bucket (e.frame.hasBucket t ▸ ht)
  · intro id s' hs'
    obtain ⟨s, hs, rfl⟩ := hat hs'
    exact wf.typeId hs
  · intro id s' hs'
    obtain ⟨s, hs, rfl⟩ := hat hs'
    exact wf.generation (s := s) hs
  · refine wf.finite.subset ?_
    rintro ⟨z, d⟩ ⟨s', hs', hz⟩
    obtain ⟨s, hs, rfl⟩ := hget hs'
    simp only [cutSlot] at hz
    split at hz
    · cases hz
    · exact ⟨s, hs, hz⟩
  · intro t
    rw [e.frame.free]
    exact wf.freeNodup t
  · intro t i
    rw [e.frame.free, wf.mem_free, e.slots]
    constructor
    · rintro ⟨hi, s, hs, he⟩
      exact ⟨hi, cutSlot h ⟨t, i⟩ s, by rw [hs, Option.map_some], he⟩
    · rintro ⟨hi, s', hs', he⟩
      obtain ⟨s, hs, rfl⟩ := Option.map_eq_some_iff.mp hs'
      exact ⟨hi, s, hs, he⟩

lemma Edited.edges_subset_of_cut (e : Edited (cutSlot h) st st') : st'.edges ⊆ st.edges := by
  rintro ⟨z, d⟩ ⟨s', hs', hz⟩
  obtain ⟨hv, hat, hg⟩ := getSlot_eq_some.mp hs'
  rw [e.slots] at hat
  obtain ⟨s, hs, rfl⟩ := Option.map_eq_some_iff.mp hat
  refine ⟨s, getSlot_eq_some.mpr ⟨hv, hs, hg⟩, ?_⟩
  simp only [cutSlot] at hz
  split at hz
  · cases hz
  · exact hz

lemma Removed.empty (r : Removed st st' D) {id : SlotId} (hs : st.slotAt id = some s)
    (he : s.state = .empty) : ∃ s', st'.slotAt id = some s' ∧ s'.state = .empty := by
  refine ⟨s.detach D Handle.invalid [] (id.handle s), ?_, ?_⟩
  · rw [r.detached.slots, hs, Option.map_some]
  · unfold Slot.detach
    split
    · rfl
    · exact he

/-- One forced destruction: the asset is cut loose, then it is removed with whatever is left
without a holder. -/
structure ForceDestroyed (st st' : Storage) (id : SlotId) (s : Slot) (D : List Handle) : Prop where
  slot : st.slotAt id = some s
  occupied : s.state ≠ .empty
  parts : ∃ st₁, Edited (cutSlot (id.handle s)) st st₁ ∧ Removed st₁ st' (id.handle s :: D) ∧
    UnpinnedBut (id.handle s) st₁ (id.handle s :: D)

lemma ForceDestroyed.empty {id : SlotId} (f : ForceDestroyed st st' id s D) {id' : SlotId}
    {s' : Slot} (hs : st.slotAt id' = some s') (he : s'.state = .empty) :
    ∃ s'', st'.slotAt id' = some s'' ∧ s''.state = .empty := by
  obtain ⟨st₁, cut, r, _⟩ := f.parts
  refine r.empty (s := cutSlot (id.handle s) id' s') ?_ he
  rw [cut.slots, hs, Option.map_some]

lemma ForceDestroyed.self {id : SlotId} (f : ForceDestroyed st st' id s D) :
    ∃ s', st'.slotAt id = some s' ∧ s'.state = .empty := by
  obtain ⟨st₁, cut, r, _⟩ := f.parts
  refine ⟨s.reset, ?_, rfl⟩
  have hh : id.handle (cutSlot (id.handle s) id s) = id.handle s := rfl
  rw [r.detached.slots, cut.slots, f.slot, Option.map_some, Option.map_some, hh,
    Slot.detach_of_mem List.mem_cons_self]
  rfl

lemma WellFormed.forceDestroySlot (wf : WellFormed st) (id : SlotId) (fuel : Nat) :
    (Storage.forceDestroySlot fuel st id = none ∧ fuel ≤ st.edges.ncard) ∨
    ∃ st', Storage.forceDestroySlot fuel st id = some st' ∧ WellFormed st' ∧
      st'.edges ⊆ st.edges ∧
      ((st' = st ∧ ∀ s, st.slotAt id = some s → s.state = .empty) ∨
        ∃ s D, ForceDestroyed st st' id s D) := by
  unfold Storage.forceDestroySlot
  cases hs : st.slotAt id with
  | none => exact Or.inr ⟨st, rfl, wf, Set.Subset.rfl, Or.inl ⟨rfl, by simp⟩⟩
  | some s =>
    by_cases he : s.state = .empty
    · simp only [if_pos he]
      refine Or.inr ⟨st, rfl, wf, Set.Subset.rfl, Or.inl ⟨rfl, ?_⟩⟩
      intro s' hs'
      cases hs'
      exact he
    · simp only [if_neg he]
      have hget : st.getSlot (id.handle s) = some s := wf.getSlot_handle hs he
      have cut := wf.detachDependentsFromSlot hget
      have wf₁ := wf.cut hget cut
      have hget₁ : (st.detachDependentsFromSlot (id.handle s) s.dependents).getSlot
          (id.handle s) = some (cutSlot (id.handle s) id s) := by
        obtain ⟨hv, _, hg⟩ := getSlot_eq_some.mp hget
        refine getSlot_eq_some.mpr ⟨hv, ?_, hg⟩
        rw [cut.slots, SlotId.handle_slotId, hs, Option.map_some]
      have hnil : (cutSlot (id.handle s) id s).dependents = [] := by simp [cutSlot]
      have hsub := cut.edges_subset_of_cut
      rcases wf₁.destroySlot hget₁ he hnil fuel with ⟨e, hle⟩ | ⟨st₂, D, e, r, hp⟩
      · left
        refine ⟨?_, hle.trans (Set.ncard_le_ncard hsub wf.finite)⟩
        simp only [SlotId.handle] at e
        simp [e]
      · right
        refine ⟨st₂.pushFreeIndex id, ?_, wf₁.removed r,
          r.detached.edges_subset.trans hsub, Or.inr ⟨s, D, ⟨hs, he, _, cut, r, hp⟩⟩⟩
        simp only [SlotId.handle] at e
        simp [e]

/-- **Rule for `forceDestroyAssets`.** What every forced destruction of an asset of the type keeps
holds afterwards, and the type has no assets left. -/
theorem WellFormed.forceDestroyAssets {I : Storage → Prop} {t : TypeId}
    (step : ∀ {st st' id s D}, WellFormed st → I st → id.typeId = t →
      ForceDestroyed st st' id s D → I st')
    (wf : WellFormed st) (inv : I st) (fuel : Nat) :
    (Storage.forceDestroyAssets fuel st t = none ∧ fuel ≤ st.edges.ncard) ∨
    ∃ st', Storage.forceDestroyAssets fuel st t = some st' ∧ WellFormed st' ∧ I st' ∧
      (∀ id ∈ (st.slotIds t).tail, ∃ s, st'.slotAt id = some s ∧ s.state = .empty) := by
  have loop : ∀ (ids : List SlotId) (st : Storage), WellFormed st → I st →
      (∀ id ∈ ids, id.typeId = t ∧ (st.slotAt id).isSome) →
      (ids.foldlM (Storage.forceDestroySlot fuel) st = none ∧ fuel ≤ st.edges.ncard) ∨
      ∃ st', ids.foldlM (Storage.forceDestroySlot fuel) st = some st' ∧ WellFormed st' ∧ I st' ∧
        (∀ id ∈ ids, ∃ s, st'.slotAt id = some s ∧ s.state = .empty) ∧
        ∀ {id s}, st.slotAt id = some s → s.state = .empty →
          ∃ s', st'.slotAt id = some s' ∧ s'.state = .empty := by
    intro ids
    induction ids with
    | nil =>
      intro st wf inv _
      exact Or.inr ⟨st, rfl, wf, inv, by simp, fun hs he => ⟨_, hs, he⟩⟩
    | cons id ids ih =>
      intro st wf inv hids
      obtain ⟨htype, hsome⟩ := hids id List.mem_cons_self
      rw [List.foldlM_cons]
      rcases wf.forceDestroySlot id fuel with ⟨e, hle⟩ | ⟨st₁, e, wf₁, hsub, hcase⟩
      · rw [e]
        exact Or.inl ⟨rfl, hle⟩
      · rw [e]
        have keep : ∀ {id' s}, st.slotAt id' = some s → s.state = .empty →
            ∃ s', st₁.slotAt id' = some s' ∧ s'.state = .empty := by
          intro id' s hs he
          rcases hcase with ⟨rfl, _⟩ | ⟨_, _, f⟩
          · exact ⟨s, hs, he⟩
          · exact f.empty hs he
        have self : ∃ s, st₁.slotAt id = some s ∧ s.state = .empty := by
          rcases hcase with ⟨rfl, hempty⟩ | ⟨_, _, f⟩
          · obtain ⟨s, hs⟩ := Option.isSome_iff_exists.mp hsome
            exact ⟨s, hs, hempty s hs⟩
          · exact f.self
        have inv₁ : I st₁ := by
          rcases hcase with ⟨rfl, _⟩ | ⟨_, _, f⟩
          · exact inv
          · exact step wf inv htype f
        have hids₁ : ∀ id' ∈ ids, id'.typeId = t ∧ (st₁.slotAt id').isSome := by
          intro id' hid'
          obtain ⟨ht, hs⟩ := hids id' (List.mem_cons_of_mem _ hid')
          refine ⟨ht, ?_⟩
          rcases hcase with ⟨rfl, _⟩ | ⟨s, D, f⟩
          · exact hs
          · obtain ⟨st₂, cut, r, _⟩ := f.parts
            rw [r.detached.slots, cut.slots]
            simpa using hs
        rcases ih st₁ wf₁ inv₁ hids₁ with ⟨e', hle⟩ | ⟨st₂, e', wf₂, inv₂, hdone, keep₂⟩
        · exact Or.inl ⟨e', hle.trans (Set.ncard_le_ncard hsub wf.finite)⟩
        · refine Or.inr ⟨st₂, e', wf₂, inv₂, ?_, ?_⟩
          · intro id' hid'
            rcases List.mem_cons.mp hid' with rfl | hid'
            · obtain ⟨s, hs, he⟩ := self
              exact keep₂ hs he
            · exact hdone id' hid'
          · intro id' s hs he
            obtain ⟨s', hs', he'⟩ := keep hs he
            exact keep₂ hs' he'
  have hids : ∀ id ∈ (st.slotIds t).tail, id.typeId = t ∧ (st.slotAt id).isSome := by
    intro id hid
    have hmem := List.mem_of_mem_tail hid
    unfold slotIds at hmem
    cases hb : st.buckets t with
    | none => simp [hb] at hmem
    | some b =>
      simp only [hb, List.mem_map, List.mem_range] at hmem
      obtain ⟨i, hi, rfl⟩ := hmem
      refine ⟨rfl, ?_⟩
      rw [slotAt_of_bucket hb]
      simpa using hi
  rcases loop (st.slotIds t).tail st wf inv hids with h | ⟨st', e, wf', inv', hdone, _⟩
  · exact Or.inl h
  · exact Or.inr ⟨st', e, wf', inv', hdone⟩

lemma mem_slotIds_tail {id : SlotId} (hs : st.slotAt id = some s) (hi : id.index ≠ 0) :
    id ∈ (st.slotIds id.typeId).tail := by
  obtain ⟨t, i⟩ := id
  unfold slotIds
  cases hb : st.buckets t with
  | none => simp [slotAt, hb] at hs
  | some b =>
    rw [slotAt_of_bucket hb] at hs
    have hlt := (List.getElem?_eq_some_iff.mp hs).1
    simp only
    rw [← List.map_tail, List.range_eq_range', List.tail_range', List.mem_map]
    refine ⟨i, List.mem_range'_1.mpr ?_, rfl⟩
    simp only at hi
    omega

end Removal

end Storage

end PulseEngine.Asset
