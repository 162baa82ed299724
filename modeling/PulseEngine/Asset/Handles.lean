import PulseEngine.Asset.Basic
import PulseEngine.Asset.Removal

/-!
# Handle safety

Runs of the storage by itself: allocation, writes to a live asset, commits, unloads and forced
destruction, through the handles that were obtained from allocations. As long as no slot was handed
back for reuse `2 ^ 32 - 1` times, an obtained handle resolves to its own asset or to nothing,
and the free list of a bucket is exact.
-/

namespace PulseEngine.Asset

open Library

structure Issuer where
  storage : Storage
  issued : List Handle

inductive StorageOp where
  | allocate (typeId : TypeId) (path : Path)
  | write (k : Nat) (pinCount : Nat) (state : AssetState)
  | commit (k : Nat) (dependencies : List (Nat × Requirement))
  | unload (k : Nat)
  | forceDestroy (typeId : TypeId)

/-- The registry after a list of `register_type` calls. -/
def AssetRegistry.registerTypes (descs : List AssetTypeDesc) : AssetRegistry :=
  descs.foldl (fun registry desc => (registry.registerType desc).2) AssetRegistry.init

namespace Issuer

def init : Issuer := ⟨Storage.init, []⟩

def handleAt (s : Issuer) (k : Nat) : Handle := (s.issued[k]?).getD Handle.invalid

/-- One operation. Owners write through a handle that resolves and leave the slot occupied, and an
asset commits its dependencies while it has none. -/
def step (descs : List AssetTypeDesc) (fuel : Nat) (s : Issuer) : StorageOp → Option Issuer
  | .allocate typeId path =>
    let type := ((AssetRegistry.registerTypes descs).findType typeId).map (·.desc)
    match Storage.allocateSlot type s.storage typeId path with
    | none => some s
    | some (st, h) => some ⟨st, s.issued ++ [h]⟩
  | .write k pinCount state =>
    match s.storage.getSlot (s.handleAt k) with
    | none => some s
    | some _ =>
      if state = .empty then some s
      else some ⟨s.storage.modifySlot (s.handleAt k).slotId
        (fun slot => { slot with pinCount := pinCount, state := state }), s.issued⟩
  | .commit k dependencies =>
    match s.storage.getSlot (s.handleAt k) with
    | none => some s
    | some slot =>
      if slot.dependencies = [] then
        (s.storage.commit fuel (s.handleAt k)
          (dependencies.map fun dep => ⟨s.handleAt dep.1, dep.2⟩)).map fun st => ⟨st, s.issued⟩
      else some s
  | .unload k =>
    (Storage.tryUnloadSlot (Storage.destroySlot fuel) s.storage (s.handleAt k)).map
      fun st => ⟨st, s.issued⟩
  | .forceDestroy typeId =>
    (s.storage.forceDestroyAssets fuel typeId).map fun st => ⟨st, s.issued⟩

def occupied (st : Storage) (id : SlotId) : Bool :=
  (st.slotAt id).any fun slot => decide (slot.state ≠ .empty)

def issues (issued : List Handle) (id : SlotId) : Nat := issued.countP (·.slotId = id)

/-- How often a slot was handed back for reuse: every handle issued for it began a lifetime of the
slot, and all of these are over but the one of the asset that is in it now. -/
def recycled (s : Issuer) (id : SlotId) : Nat :=
  issues s.issued id - if occupied s.storage id then 1 else 0

/-- The generation of a slot that was handed back `n` times. -/
def generationAfter (n : Nat) : Nat := nextGeneration^[n] 1

structure Accounted (st : Storage) (issued : List Handle) : Prop where
  valid : ∀ h ∈ issued, h.isValid = true ∧ (st.slotAt h.slotId).isSome
  number : ∀ k h, issued[k]? = some h →
    h.generation = generationAfter (issues (issued.take k) h.slotId)
  generation : ∀ id slot, st.slotAt id = some slot →
    slot.generation = generationAfter (recycled ⟨st, issued⟩ id)
  issued : ∀ id slot, st.slotAt id = some slot → slot.state ≠ .empty → 0 < issues issued id

lemma generationAfter_succ (n : Nat) :
    generationAfter (n + 1) = nextGeneration (generationAfter n) := by
  unfold generationAfter
  rw [Function.iterate_succ_apply']

lemma generationAfter_of_lt : ∀ {n : Nat}, n < 2 ^ 32 - 1 → generationAfter n = n + 1 := by
  intro n
  induction n with
  | zero => exact fun _ => rfl
  | succ n ih =>
    intro h
    rw [generationAfter_succ, ih (by omega), nextGeneration_of_lt]
    unfold uint32Size
    omega

lemma issues_take_lt {issued : List Handle} {k : Nat} {h : Handle} (hk : issued[k]? = some h) :
    issues (issued.take k) h.slotId < issues issued h.slotId := by
  obtain ⟨hlt, rfl⟩ := List.getElem?_eq_some_iff.mp hk
  unfold issues
  have hsplit : issued.countP (·.slotId = issued[k].slotId) =
      (issued.take k).countP (·.slotId = issued[k].slotId) +
        (issued.drop k).countP (·.slotId = issued[k].slotId) := by
    rw [← List.countP_append, List.take_append_drop]
  rw [hsplit, List.drop_eq_getElem_cons hlt, List.countP_cons_of_pos (by simp)]
  omega

lemma issues_take_lt_take {issued : List Handle} {k j : Nat} {h h' : Handle}
    (hk : issued[k]? = some h) (hkj : k < j)
    (hid : h'.slotId = h.slotId) :
    issues (issued.take k) h.slotId < issues (issued.take j) h'.slotId := by
  have hk' : (issued.take j)[k]? = some h := by rw [List.getElem?_take_of_lt hkj, hk]
  have := issues_take_lt hk'
  rw [List.take_take, Nat.min_eq_left hkj.le] at this
  rw [hid]
  exact this

lemma recycled_le (s : Issuer) (id : SlotId) : s.recycled id ≤ s.issued.length := by
  unfold recycled issues
  have := List.countP_le_length (p := fun h : Handle => decide (h.slotId = id)) (l := s.issued)
  omega

lemma Accounted.edit {st st' : Storage} {issued : List Handle} (acc : Accounted st issued)
    {F : SlotId → Slot → Slot} (e : Storage.Edited F st st')
    (hg : ∀ {id s}, st.slotAt id = some s → (F id s).generation = s.generation)
    (ho : ∀ {id s}, st.slotAt id = some s → ((F id s).state = .empty ↔ s.state = .empty)) :
    Accounted st' issued := by
  have hocc : ∀ id, occupied st' id = occupied st id := by
    intro id
    unfold occupied
    rw [e.slots]
    cases hs : st.slotAt id with
    | none => rfl
    | some s => simp [ho hs]
  constructor
  · intro h hh
    rw [e.slots]
    simpa using acc.valid h hh
  · exact acc.number
  · intro id s' hs'
    rw [e.slots] at hs'
    obtain ⟨s, hs, rfl⟩ := Option.map_eq_some_iff.mp hs'
    rw [hg hs, acc.generation id s hs]
    simp only [recycled, hocc]
  · intro id s' hs' hne
    rw [e.slots] at hs'
    obtain ⟨s, hs, rfl⟩ := Option.map_eq_some_iff.mp hs'
    exact acc.issued id s hs fun he => hne ((ho hs).mpr he)

lemma Accounted.removed {st st' : Storage} {issued D : List Handle} (acc : Accounted st issued)
    (r : Storage.Removed st st' D) : Accounted st' issued := by
  have hmem : ∀ {id s}, st.slotAt id = some s → id.handle s ∈ D → s.state ≠ .empty := by
    intro id s hs hm
    obtain ⟨s', hs', hne, _⟩ := r.removable.slot _ hm
    rw [Storage.getSlot_eq_slotAt (h := id.handle s) hs hs'] at hne
    exact hne
  constructor
  · intro h hh
    rw [r.detached.slots]
    simpa using acc.valid h hh
  · exact acc.number
  · intro id s' hs'
    rw [r.detached.slots] at hs'
    obtain ⟨s, hs, rfl⟩ := Option.map_eq_some_iff.mp hs'
    have hgen := acc.generation id s hs
    by_cases hm : id.handle s ∈ D
    · have hne := hmem hs hm
      have hpos := acc.issued id s hs hne
      rw [Slot.detach_of_mem hm]
      have h₁ : recycled ⟨st, issued⟩ id + 1 = issues issued id := by
        simp only [recycled, occupied, hs]
        simp [hne]
        omega
      have h₂ : recycled ⟨st', issued⟩ id = issues issued id := by
        simp [recycled, occupied, r.detached.slots, hs, Slot.detach_of_mem hm, Slot.reset]
      rw [h₂, ← h₁, generationAfter_succ, ← hgen]
      rfl
    · rw [Slot.detach_of_not_mem hm]
      have : recycled ⟨st', issued⟩ id = recycled ⟨st, issued⟩ id := by
        simp [recycled, occupied, r.detached.slots, hs, Slot.detach_of_not_mem hm]
      rw [this]
      exact hgen
  · intro id s' hs' hne
    rw [r.detached.slots] at hs'
    obtain ⟨s, hs, rfl⟩ := Option.map_eq_some_iff.mp hs'
    by_cases hm : id.handle s ∈ D
    · rw [Slot.detach_of_mem hm] at hne
      exact absurd rfl hne
    · rw [Slot.detach_of_not_mem hm] at hne
      exact acc.issued id s hs hne

lemma Accounted.forceDestroyed {st st' : Storage} {issued D : List Handle} {id : SlotId} {s : Slot}
    (acc : Accounted st issued) (f : Storage.ForceDestroyed st st' id s D) :
    Accounted st' issued := by
  obtain ⟨st₁, cut, r, _⟩ := f.parts
  exact (acc.edit cut (fun _ => rfl) (fun _ => Iff.rfl)).removed r

lemma Accounted.allocated {st st' : Storage} {issued : List Handle} {h : Handle} {path : Path}
    (acc : Accounted st issued) (e : Storage.Allocated st st' h path) :
    Accounted st' (issued ++ [h]) := by
  obtain ⟨s₀, hbefore, hgen, hafter⟩ := e.slot
  have hissues : ∀ id, issues (issued ++ [h]) id =
      issues issued id + if h.slotId = id then 1 else 0 := by
    intro id
    simp [issues, List.countP_append, List.countP_cons]
  -- a slot without a handle was never issued
  have hnone : ∀ id, st.slotAt id = none → issues issued id = 0 := by
    intro id hid
    unfold issues
    rw [List.countP_eq_zero]
    intro h' hh' heq
    have := (acc.valid h' hh').2
    rw [of_decide_eq_true heq, hid] at this
    cases this
  have hnew : h.generation = generationAfter (issues issued h.slotId) := by
    rcases hbefore with ⟨hs, he⟩ | ⟨hs, rfl⟩
    · rw [← hgen, acc.generation _ _ hs]
      simp [recycled, occupied, hs, he]
    · rw [← hgen, hnone _ hs]
      rfl
  constructor
  · intro h' hh'
    rcases List.mem_append.mp hh' with hh' | hh'
    · obtain ⟨hv, hs⟩ := acc.valid h' hh'
      refine ⟨hv, ?_⟩
      by_cases hid : h'.slotId = h.slotId
      · rw [hid, hafter]
        rfl
      · rcases e.others _ hid with hsame | ⟨_, hfresh, _⟩
        · rw [hsame]
          exact hs
        · rw [hfresh]
          rfl
    · rw [List.mem_singleton] at hh'
      subst hh'
      exact ⟨e.valid, by rw [hafter]; rfl⟩
  · intro k h' hk
    rcases Nat.lt_or_ge k issued.length with hlt | hge
    · rw [List.getElem?_append_left hlt] at hk
      rw [List.take_append_of_le_length hlt.le]
      exact acc.number k h' hk
    · rw [List.getElem?_append_right hge] at hk
      obtain ⟨hk0, rfl⟩ := List.getElem?_eq_some_iff.mp hk
      have hkeq : k = issued.length := by
        simp only [List.length_singleton] at hk0
        omega
      subst hkeq
      simpa using hnew
  · intro id s' hs'
    by_cases hid : id = h.slotId
    · subst hid
      rw [hafter] at hs'
      cases hs'
      have : recycled ⟨st', issued ++ [h]⟩ h.slotId = issues issued h.slotId := by
        simp [recycled, hissues, occupied, hafter, Slot.allocate]
      rw [this, ← hnew]
      exact hgen
    · have hcount : issues (issued ++ [h]) id = issues issued id := by
        rw [hissues, if_neg fun e => hid e.symm, Nat.add_zero]
      rcases e.others id hid with hsame | ⟨hno, hfresh, _⟩
      · rw [hsame] at hs'
        rw [acc.generation id s' hs']
        simp [recycled, hcount, occupied, hsame]
      · rw [hfresh] at hs'
        cases hs'
        have : recycled ⟨st', issued ++ [h]⟩ id = 0 := by
          simp [recycled, hcount, hnone id hno]
        rw [this]
        rfl
  · intro id s' hs' hne
    rw [hissues]
    by_cases hid : id = h.slotId
    · simp [hid]
    · rcases e.others id hid with hsame | ⟨_, hfresh, _⟩
      · rw [hsame] at hs'
        have := acc.issued id s' hs' hne
        omega
      · rw [hfresh] at hs'
        cases hs'
        exact absurd rfl hne

lemma Accounted.resolves {s : Issuer} (acc : Accounted s.storage s.issued)
    (fresh : ∀ id, s.recycled id < 2 ^ 32 - 1) {k : Nat} {h : Handle} {slot : Slot}
    (hk : s.issued[k]? = some h) (hs : s.storage.getSlot h = some slot) :
    slot.state ≠ .empty ∧
      ∀ (j : Nat) h', k < j → s.issued[j]? = some h' → h'.slotId ≠ h.slotId := by
  obtain ⟨_, hat, hg⟩ := Storage.getSlot_eq_some.mp hs
  have hlt := issues_take_lt hk
  have hfresh := fresh h.slotId
  have hrec : s.recycled h.slotId =
      issues s.issued h.slotId - if slot.state ≠ .empty then 1 else 0 := by
    simp [recycled, occupied, hat]
  have hle : issues (s.issued.take k) h.slotId < 2 ^ 32 - 1 := by
    rw [hrec] at hfresh
    split at hfresh <;> omega
  have heq : issues (s.issued.take k) h.slotId = s.recycled h.slotId := by
    have h₁ := acc.number k h hk
    have h₂ := acc.generation _ _ hat
    rw [generationAfter_of_lt hle] at h₁
    rw [show recycled ⟨s.storage, s.issued⟩ h.slotId = s.recycled h.slotId from rfl,
      generationAfter_of_lt hfresh] at h₂
    omega
  have hne : slot.state ≠ .empty := by
    intro he
    rw [hrec] at heq
    simp only [he, ne_eq, not_true_eq_false, if_false] at heq
    omega
  refine ⟨hne, ?_⟩
  intro j h' hkj hj hid
  have h₁ := issues_take_lt_take hk hkj hid
  have h₂ := issues_take_lt hj
  rw [hid] at h₁ h₂
  rw [hrec, if_pos hne] at heq
  omega

structure Sound (s : Issuer) : Prop where
  wf : s.storage.WellFormed
  account : Accounted s.storage s.issued

lemma Sound.init : Sound Issuer.init where
  wf := Storage.WellFormed.init
  account := by
    have hat : ∀ id, Issuer.init.storage.slotAt id = none := fun _ => rfl
    constructor <;> simp [Issuer.init]
    · intro id slot hs
      cases (hat id).symm.trans hs
    · intro id slot hs
      cases (hat id).symm.trans hs

lemma Sound.occupied {s : Issuer} (sound : Sound s) (fresh : ∀ id, s.recycled id < 2 ^ 32 - 1)
    (k : Nat) {slot : Slot} (hs : s.storage.getSlot (s.handleAt k) = some slot) :
    slot.state ≠ .empty := by
  unfold handleAt at hs
  cases hk : s.issued[k]? with
  | none =>
    rw [hk] at hs
    have := (Storage.getSlot_eq_some.mp hs).1
    cases this
  | some h =>
    rw [hk] at hs
    exact (sound.account.resolves fresh hk hs).1

lemma registerTypes_zero (descs : List AssetTypeDesc) :
    (AssetRegistry.registerTypes descs).findType 0 = none := by
  unfold AssetRegistry.registerTypes
  suffices ∀ (descs : List AssetTypeDesc) (registry : AssetRegistry), registry.findType 0 = none →
      (descs.foldl (fun registry desc => (registry.registerType desc).2) registry).findType 0 =
        none from this descs AssetRegistry.init rfl
  intro descs
  induction descs with
  | nil => exact fun _ h => h
  | cons desc descs ih =>
    intro registry h
    apply ih
    show ((registry.registerType desc).2).findType 0 = none
    unfold AssetRegistry.registerType
    split
    · exact h
    · rename_i hno
      have hid : desc.typeId ≠ 0 := fun e => hno (Or.inl e)
      split
      · exact h
      · unfold AssetRegistry.findType at h ⊢
        rw [List.lookup_append, h]
        simp [hid.symm]

theorem Sound.step {descs : List AssetTypeDesc} {fuel : Nat} {s s' : Issuer} {op : StorageOp}
    (sound : Sound s) (fresh : ∀ id, s.recycled id < 2 ^ 32 - 1)
    (e : Issuer.step descs fuel s op = some s') : Sound s' := by
  cases op with
  | allocate typeId path =>
    simp only [Issuer.step] at e
    split at e
    · cases e
      exact sound
    · rename_i st h halloc
      cases e
      have htype : typeId ≠ 0 := by
        rintro rfl
        rw [registerTypes_zero] at halloc
        simp [Storage.allocateSlot, Storage.ensureBucket] at halloc
      obtain ⟨_, eff, wf⟩ := sound.wf.allocateSlot htype halloc
      exact ⟨wf, sound.account.allocated eff⟩
  | write k pinCount state =>
    simp only [Issuer.step] at e
    split at e
    · cases e
      exact sound
    · rename_i slot hs
      split at e
      · cases e
        exact sound
      · rename_i hstate
        cases e
        have hocc := sound.occupied fresh k hs
        have hat := (Storage.getSlot_eq_some.mp hs).2.1
        have eff := Storage.Edited.modifySlot s.storage (s.handleAt k).slotId
          fun slot => { slot with pinCount := pinCount, state := state }
        have same : ∀ {id sl}, s.storage.slotAt id = some sl →
            (s.handleAt k).slotId = id → sl.state ≠ .empty := by
          rintro id sl hsl rfl
          rw [hat] at hsl
          cases hsl
          exact hocc
        constructor
        · refine sound.wf.write ⟨fun _ => rfl, fun _ => rfl, fun _ => rfl⟩ fun sl hsl => ?_
          exact ⟨same hsl rfl, hstate⟩
        · refine sound.account.edit eff (fun {id sl} _ => ?_) (fun {id sl} hsl => ?_)
          · split <;> rfl
          · split
            · rename_i hid
              simp [hstate, same hsl hid]
            · exact Iff.rfl
  | commit k dependencies =>
    simp only [Issuer.step] at e
    split at e
    · cases e
      exact sound
    · rename_i slot hs
      split at e
      · rename_i hnil
        obtain ⟨st, C, hcommit, eff, hC⟩ := Storage.commit_spec fuel hs hnil
          (dependencies.map fun dep => ⟨s.handleAt dep.1, dep.2⟩)
        rw [hcommit] at e
        cases e
        have hocc := sound.occupied fresh k hs
        refine ⟨sound.wf.committed eff hs hocc hnil ?_, ?_⟩
        · intro d hd sd hsd
          obtain ⟨⟨dep, hdep, rfl⟩, _⟩ := (hC d).mp hd
          obtain ⟨dep', _, rfl⟩ := List.mem_map.mp hdep
          exact sound.occupied fresh dep'.1 hsd
        · exact sound.account.edit eff.edited (fun _ => rfl) (fun _ => Iff.rfl)
      · cases e
        exact sound
  | unload k =>
    simp only [Issuer.step] at e
    rcases sound.wf.tryUnloadSlot (fun slot hs => sound.occupied fresh k hs) fuel with
      ⟨hnone, _⟩ | ⟨st, D, hsome, r, _⟩
    · rw [hnone] at e
      cases e
    · rw [hsome] at e
      cases e
      exact ⟨sound.wf.removed r, sound.account.removed r⟩
  | forceDestroy typeId =>
    simp only [Issuer.step] at e
    rcases Storage.WellFormed.forceDestroyAssets (I := fun st => Accounted st s.issued)
      (fun _ acc _ f => acc.forceDestroyed f) sound.wf sound.account fuel with
      ⟨hnone, _⟩ | ⟨st, hsome, wf, acc, _⟩
    · rw [hnone] at e
      cases e
    · rw [hsome] at e
      cases e
      exact ⟨wf, acc⟩

lemma length_issued_le {descs : List AssetTypeDesc} {fuel : Nat} :
    ∀ {ops : List StorageOp} {s s' : Issuer}, run (Issuer.step descs fuel) s ops = some s' →
      s'.issued.length ≤ s.issued.length + ops.length := by
  intro ops
  induction ops with
  | nil =>
    intro s s' h
    cases h
    exact Nat.le_refl _
  | cons op ops ih =>
    intro s s' h
    rw [run_cons] at h
    obtain ⟨s₁, h₁, h₂⟩ := Option.bind_eq_some_iff.mp h
    have hstep : s₁.issued.length ≤ s.issued.length + 1 := by
      cases op with
      | allocate typeId path =>
        simp only [Issuer.step] at h₁
        split at h₁ <;> cases h₁ <;> simp
      | write k pinCount state =>
        simp only [Issuer.step] at h₁
        split at h₁
        · cases h₁
          omega
        · split at h₁ <;> cases h₁ <;> simp
      | commit k dependencies =>
        simp only [Issuer.step] at h₁
        split at h₁
        · cases h₁
          omega
        · split at h₁
          · obtain ⟨_, _, rfl⟩ := Option.map_eq_some_iff.mp h₁
            simp
          · cases h₁
            omega
      | unload k =>
        obtain ⟨_, _, rfl⟩ := Option.map_eq_some_iff.mp h₁
        simp
      | forceDestroy typeId =>
        obtain ⟨_, _, rfl⟩ := Option.map_eq_some_iff.mp h₁
        simp
    have := ih h₂
    simp only [List.length_cons]
    omega

lemma recycled_lt {descs : List AssetTypeDesc} {fuel : Nat} {ops pre : List StorageOp} {s : Issuer}
    (short : ops.length < 2 ^ 32 - 1) (hpre : pre <+: ops)
    (h : run (Issuer.step descs fuel) Issuer.init pre = some s) (id : SlotId) :
    s.recycled id < 2 ^ 32 - 1 := by
  have h₁ := length_issued_le h
  have h₂ := recycled_le s id
  have h₃ := hpre.length_le
  simp only [Issuer.init, List.length_nil] at h₁
  omega

def sampleTypes : List AssetTypeDesc := [⟨true, 7, 4, 4, false⟩]

def reuse : List StorageOp := [.allocate 7 ['a'], .unload 0, .allocate 7 ['b']]

def reused : Option Issuer := run (Issuer.step sampleTypes 4) Issuer.init reuse

end Issuer

end PulseEngine.Asset
