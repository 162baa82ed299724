import PulseEngine.Asset.Action

/-!
# Well-formed storages

The invariant of the storage between two operations: dependencies and dependents mirror each other
and only name live assets, empty slots are blank, slot 0 stays empty, and the free list of a bucket
has exactly the empty slots. One lemma for each way in which the operations change a storage:
writing fields of one slot (`edit`), allocating (`allocate`), destroying a set of slots (`remove`),
committing a dependency (`commitDependency`) and detaching dependents (`detachDependents`).
-/

namespace PulseEngine.Asset

structure Slot.Blank (s : Slot) : Prop where
  pinCount : s.pinCount = 0
  path : s.path = []
  constructed : s.constructed = false
  dependencies : s.dependencies = []
  dependents : s.dependents = []

lemma Slot.blank_fresh : Slot.fresh.Blank := ⟨rfl, rfl, rfl, rfl, rfl⟩

lemma Slot.blank_reset (s : Slot) : s.reset.Blank := ⟨rfl, rfl, rfl, rfl, rfl⟩

namespace Storage

structure WellFormed (st : Storage) : Prop where
  nodup : ∀ {a sa}, st.getSlot a = some sa → sa.dependencies.Nodup
  dependentsNodup : ∀ {d sd}, st.getSlot d = some sd → sd.dependents.Nodup
  forth : ∀ {a sa d}, st.getSlot a = some sa → d ∈ sa.dependencies →
    ∃ sd, st.getSlot d = some sd ∧ a ∈ sd.dependents
  back : ∀ {d sd z}, st.getSlot d = some sd → z ∈ sd.dependents →
    ∃ sz, st.getSlot z = some sz ∧ d ∈ sz.dependencies
  blank : ∀ {id s}, st.slotAt id = some s → s.state = .empty → s.Blank
  zero : ∀ {t s}, st.slotAt ⟨t, 0⟩ = some s → s.state = .empty
  bucket : ∀ {t}, (st.buckets t).isSome → (st.slotAt ⟨t, 0⟩).isSome
  typeId : ∀ {id s}, st.slotAt id = some s → id.typeId ≠ 0
  generation : ∀ {id s}, st.slotAt id = some s → s.generation ≠ 0
  finite : st.edges.Finite
  freeNodup : ∀ t, (st.freeIndices t).Nodup
  mem_free : ∀ t i, i ∈ st.freeIndices t ↔ i ≠ 0 ∧ ∃ s, st.slotAt ⟨t, i⟩ = some s ∧ s.state = .empty

structure Removable (st : Storage) (D : List Handle) : Prop where
  nodup : D.Nodup
  slot : ∀ x ∈ D, ∃ s, st.getSlot x = some s ∧ s.state ≠ .empty ∧ ∀ z ∈ s.dependents, z ∈ D
  ranked : Ranked st D

structure SameFrame (st st' : Storage) : Prop where
  free : ∀ t, st'.freeIndices t = st.freeIndices t
  cache : st'.pathCache = st.pathCache
  destroyed : st'.destroyed = st.destroyed
  hasDestroy : ∀ t, st'.hasDestroy t = st.hasDestroy t
  slotIds : ∀ t, st'.slotIds t = st.slotIds t
  hasBucket : ∀ t, (st'.buckets t).isSome = (st.buckets t).isSome

lemma SameFrame.refl (st : Storage) : SameFrame st st :=
  ⟨fun _ => rfl, rfl, rfl, fun _ => rfl, fun _ => rfl, fun _ => rfl⟩

lemma SameFrame.trans {st st₁ st₂ : Storage} (e₁ : SameFrame st st₁) (e₂ : SameFrame st₁ st₂) :
    SameFrame st st₂ where
  free t := (e₂.free t).trans (e₁.free t)
  cache := e₂.cache.trans e₁.cache
  destroyed := e₂.destroyed.trans e₁.destroyed
  hasDestroy t := (e₂.hasDestroy t).trans (e₁.hasDestroy t)
  slotIds t := (e₂.slotIds t).trans (e₁.slotIds t)
  hasBucket t := (e₂.hasBucket t).trans (e₁.hasBucket t)

lemma SameFrame.modifySlot (st : Storage) (id : SlotId) (f : Slot → Slot) :
    SameFrame st (st.modifySlot id f) where
  free := by simp
  cache := rfl
  destroyed := rfl
  hasDestroy := by simp
  slotIds := by simp
  hasBucket := by simp

/-- `st'` is `st` with the slots rewritten by `F`. -/
structure Edited (F : SlotId → Slot → Slot) (st st' : Storage) : Prop where
  slots : ∀ id, st'.slotAt id = (st.slotAt id).map (F id)
  frame : SameFrame st st'

/-- `f` leaves the place of the slot `s` in the graph alone. -/
structure GraphNeutral (f : Slot → Slot) (s : Slot) : Prop where
  generation : (f s).generation = s.generation
  dependencies : (f s).dependencies = s.dependencies
  dependents : (f s).dependents = s.dependents
  empty : (f s).state = .empty ↔ s.state = .empty
  blank : s.state = .empty → s.Blank → (f s).Blank

/-- `f` does not write the fields that make up the graph. -/
structure KeepsLinks (f : Slot → Slot) : Prop where
  generation : ∀ s, (f s).generation = s.generation
  dependencies : ∀ s, (f s).dependencies = s.dependencies
  dependents : ∀ s, (f s).dependents = s.dependents

lemma Edited.refl (st : Storage) : Edited (fun _ s => s) st st :=
  ⟨fun id => by simp, SameFrame.refl st⟩

lemma Edited.trans {F G : SlotId → Slot → Slot} {st st₁ st₂ : Storage} (e₁ : Edited F st st₁)
    (e₂ : Edited G st₁ st₂) : Edited (fun id s => G id (F id s)) st st₂ where
  slots id := by
    rw [e₂.slots, e₁.slots, Option.map_map]
    rfl
  frame := e₁.frame.trans e₂.frame

lemma Edited.congr {F G : SlotId → Slot → Slot} {st st' : Storage} (e : Edited F st st')
    (h : ∀ {id s}, st.slotAt id = some s → F id s = G id s) : Edited G st st' where
  slots id := by
    rw [e.slots]
    cases hs : st.slotAt id with
    | none => rfl
    | some s => rw [Option.map_some, Option.map_some, h hs]
  frame := e.frame

lemma Edited.modifySlot (st : Storage) (id : SlotId) (f : Slot → Slot) :
    Edited (fun id' s => if id = id' then f s else s) st (st.modifySlot id f) where
  slots id' := by
    rw [slotAt_modifySlot]
    split
    · rfl
    · simp
  frame := SameFrame.modifySlot st id f

lemma Edited.of_getSlot {st st' : Storage} {y : Handle} {f : Slot → Slot}
    (none : st.getSlot y = none → st' = st)
    (some : ∀ s, st.getSlot y = some s →
      Edited (fun id s => if y.slotId = id then f s else s) st st') :
    Edited (fun id s => if y.isValid = true ∧ id.handle s = y then f s else s) st st' := by
  cases hy : st.getSlot y with
  | none =>
    rw [none hy]
    refine (Edited.refl st).congr fun {id s} hs => ?_
    rw [if_neg]
    rintro ⟨hv, rfl⟩
    rw [getSlot_eq_some.mpr ⟨hv, hs, rfl⟩] at hy
    cases hy
  | some sy =>
    obtain ⟨hv, hat, hg⟩ := getSlot_eq_some.mp hy
    refine (some sy hy).congr fun {id s} hs => ?_
    by_cases hid : y.slotId = id
    · subst hid
      rw [hat] at hs
      cases hs
      simp [hv, Handle.handle_eq hg]
    · have hne : id.handle s ≠ y := fun e => hid (by rw [← e]; rfl)
      simp [hid, hne]

lemma Edited.foldl {g : Storage → Handle → Storage} {f : Slot → Slot}
    (hf : ∀ s, (f s).generation = s.generation)
    (hg : ∀ st y, Edited (fun id s => if y.isValid = true ∧ id.handle s = y then f s else s) st
      (g st y)) :
    ∀ {ys : List Handle} (st : Storage), ys.Nodup →
      Edited (fun id s => if (id.handle s).isValid = true ∧ id.handle s ∈ ys then f s else s) st
        (ys.foldl g st) := by
  intro ys
  induction ys with
  | nil =>
    intro st _
    exact (Edited.refl st).congr fun _ => by simp
  | cons y ys ih =>
    intro st hnd
    obtain ⟨hy, hys⟩ := List.nodup_cons.mp hnd
    refine ((hg st y).trans (ih (g st y) hys)).congr ?_
    intro id s _
    have hh : id.handle (f s) = id.handle s := by simp [SlotId.handle, hf]
    by_cases h : id.handle s = y
    · subst h
      by_cases hv : (id.handle s).isValid = true
      · simp [hv, hh, hy]
      · simp [hv]
    · simp [h]

section WellFormed

variable {st st' : Storage} {D : List Handle} {h d a z : Handle} {id : SlotId} {s : Slot}

lemma WellFormed.congr (wf : WellFormed st) (e : ∀ id, st'.slotAt id = st.slotAt id)
    (f : ∀ t, st'.freeIndices t = st.freeIndices t)
    (b : ∀ t, (st'.buckets t).isSome → (st.buckets t).isSome) : WellFormed st' := by
  have eg : ∀ y, st'.getSlot y = st.getSlot y := fun y => getSlot_congr (e _)
  constructor
  · intro a sa ha
    exact wf.nodup (eg a ▸ ha)
  · intro d sd hd
    exact wf.dependentsNodup (eg d ▸ hd)
  · intro a sa d ha hd
    obtain ⟨sd, hsd, hm⟩ := wf.forth (eg a ▸ ha) hd
    exact ⟨sd, (eg d).trans hsd, hm⟩
  · intro d sd z hd hz
    obtain ⟨sz, hsz, hm⟩ := wf.back (eg d ▸ hd) hz
    exact ⟨sz, (eg z).trans hsz, hm⟩
  · intro id s hs
    exact wf.blank (e id ▸ hs)
  · intro t s hs
    exact wf.zero (e _ ▸ hs)
  · intro t ht
    rw [e]
    exact wf.bucket (b t ht)
  · intro id s hs
    exact wf.typeId (e id ▸ hs)
  · intro id s hs
    exact wf.generation (e id ▸ hs)
  · rw [edges_congr e]
    exact wf.finite
  · intro t
    rw [f]
    exact wf.freeNodup t
  · intro t i
    rw [f, wf.mem_free]
    simp only [e]

lemma WellFormed.getSlot_handle (wf : WellFormed st) (hs : st.slotAt id = some s)
    (hne : s.state ≠ .empty) : st.getSlot (id.handle s) = some s := by
  refine getSlot_eq_some.mpr ⟨Handle.isValid_iff.mpr ⟨wf.typeId hs, ?_, wf.generation hs⟩, hs, rfl⟩
  intro hi
  obtain ⟨t, i⟩ := id
  simp only [SlotId.handle] at hi
  subst hi
  exact hne (wf.zero hs)

lemma WellFormed.occupied_of_dependents (wf : WellFormed st) (hs : st.slotAt id = some s)
    (hz : z ∈ s.dependents) : s.state ≠ .empty := by
  intro he
  rw [(wf.blank hs he).dependents] at hz
  cases hz

lemma WellFormed.occupied_of_dependencies (wf : WellFormed st) (hs : st.slotAt id = some s)
    (hd : d ∈ s.dependencies) : s.state ≠ .empty := by
  intro he
  rw [(wf.blank hs he).dependencies] at hd
  cases hd

lemma WellFormed.linked (wf : WellFormed st) (X : Handle → Prop) : Linked X st where
  valid := by
    intro a sa d ha hd
    obtain ⟨sd, hsd, _⟩ := wf.forth ha hd
    exact (getSlot_eq_some.mp hsd).1
  nodup := wf.nodup
  forth := by
    intro a sa d s _ ha hd hs
    obtain ⟨sd, hsd, hm⟩ := wf.forth ha hd
    obtain rfl := getSlot_eq_slotAt hs hsd
    exact Or.inl ⟨(getSlot_eq_some.mp hsd).2.2, hm⟩
  back := by
    intro id s z hs hz
    exact wf.back (wf.getSlot_handle hs (wf.occupied_of_dependents hs hz)) hz

lemma WellFormed.init : WellFormed Storage.init := by
  have hat : ∀ id, Storage.init.slotAt id = none := fun _ => rfl
  have hget : ∀ y, Storage.init.getSlot y = none := by
    intro y
    simp [getSlot, hat]
  constructor
  case finite =>
    have : Storage.init.edges = ∅ := by
      ext e
      simp [edges, hget]
    rw [this]
    exact Set.finite_empty
  case freeNodup =>
    intro t
    exact List.nodup_nil
  case mem_free =>
    intro t i
    rw [hat]
    simp [freeIndices, Storage.init]
  case bucket =>
    intro t ht
    simp [Storage.init] at ht
  all_goals simp [hat, hget]

lemma WellFormed.edit (wf : WellFormed st) {F : SlotId → Slot → Slot} (e : Edited F st st')
    (hF : ∀ {id s}, st.slotAt id = some s → GraphNeutral (F id) s) : WellFormed st' := by
  have hat : ∀ {id s'}, st'.slotAt id = some s' → ∃ s, st.slotAt id = some s ∧ s' = F id s := by
    intro id s' hs'
    rw [e.slots] at hs'
    obtain ⟨s, hs, rfl⟩ := Option.map_eq_some_iff.mp hs'
    exact ⟨s, hs, rfl⟩
  have hget : ∀ {y s'}, st'.getSlot y = some s' → ∃ s, st.getSlot y = some s ∧
      s'.dependencies = s.dependencies ∧ s'.dependents = s.dependents := by
    intro y s' hy
    obtain ⟨hv, hs', hg⟩ := getSlot_eq_some.mp hy
    obtain ⟨s, hs, rfl⟩ := hat hs'
    have n := hF hs
    exact ⟨s, getSlot_eq_some.mpr ⟨hv, hs, n.generation ▸ hg⟩, n.dependencies, n.dependents⟩
  have hget' : ∀ {y s}, st.getSlot y = some s → ∃ s', st'.getSlot y = some s' ∧
      s'.dependencies = s.dependencies ∧ s'.dependents = s.dependents := by
    intro y s hy
    obtain ⟨hv, hs, hg⟩ := getSlot_eq_some.mp hy
    have n := hF hs
    refine ⟨F y.slotId s, getSlot_eq_some.mpr ⟨hv, ?_, n.generation.trans hg⟩, n.dependencies,
      n.dependents⟩
    rw [e.slots, hs, Option.map_some]
  constructor
  · intro a sa ha
    obtain ⟨s, hs, hd, _⟩ := hget ha
    rw [hd]
    exact wf.nodup hs
  · intro d sd hd
    obtain ⟨s, hs, _, hz⟩ := hget hd
    rw [hz]
    exact wf.dependentsNodup hs
  · intro a sa d ha hd
    obtain ⟨s, hs, hdeps, _⟩ := hget ha
    rw [hdeps] at hd
    obtain ⟨sd, hsd, hm⟩ := wf.forth hs hd
    obtain ⟨sd', hsd', _, hz⟩ := hget' hsd
    exact ⟨sd', hsd', hz ▸ hm⟩
  · intro d sd z hd hz
    obtain ⟨s, hs, _, hdpts⟩ := hget hd
    rw [hdpts] at hz
    obtain ⟨sz, hsz, hm⟩ := wf.back hs hz
    obtain ⟨sz', hsz', hd', _⟩ := hget' hsz
    exact ⟨sz', hsz', hd' ▸ hm⟩
  · intro id s' hs' he
    obtain ⟨s, hs, rfl⟩ := hat hs'
    have hse := (hF hs).empty.mp he
    exact (hF hs).blank hse (wf.blank hs hse)
  · intro t s' hs'
    obtain ⟨s, hs, rfl⟩ := hat hs'
    exact (hF hs).empty.mpr (wf.zero hs)
  · intro t ht
    rw [e.slots]
    simpa using wf.bucket (e.frame.hasBucket t ▸ ht)
  · intro id s' hs'
    obtain ⟨s, hs, rfl⟩ := hat hs'
    exact wf.typeId hs
  · intro id s' hs'
    obtain ⟨s, hs, rfl⟩ := hat hs'
    rw [(hF hs).generation]
    exact wf.generation hs
  · refine wf.finite.subset ?_
    rintro ⟨z, d⟩ ⟨s', hs', hz⟩
    obtain ⟨s, hs, _, hdpts⟩ := hget hs'
    exact ⟨s, hs, hdpts ▸ hz⟩
  · intro t
    rw [e.frame.free]
    exact wf.freeNodup t
  · intro t i
    rw [e.frame.free, wf.mem_free, e.slots]
    constructor
    · rintro ⟨hi, s, hs, hse⟩
      exact ⟨hi, F ⟨t, i⟩ s, by rw [hs, Option.map_some], (hF hs).empty.mpr hse⟩
    · rintro ⟨hi, s', hs', hse⟩
      obtain ⟨s, hs, rfl⟩ := Option.map_eq_some_iff.mp hs'
      exact ⟨hi, s, hs, (hF hs).empty.mp hse⟩

lemma WellFormed.write (wf : WellFormed st) {f : Slot → Slot} (k : KeepsLinks f)
    (occ : ∀ s, st.slotAt id = some s → s.state ≠ .empty ∧ (f s).state ≠ .empty) :
    WellFormed (st.modifySlot id f) := by
  refine wf.edit (Edited.modifySlot st id f) fun {id' s} hs => ?_
  by_cases hid : id = id'
  · subst hid
    obtain ⟨h₁, h₂⟩ := occ s hs
    refine ⟨by simp [k.generation], by simp [k.dependencies], by simp [k.dependents], ?_, ?_⟩
    · simp [h₁, h₂]
    · exact fun he => absurd he h₁
  · simp only [if_neg hid]
    exact ⟨rfl, rfl, rfl, Iff.rfl, fun _ hb => hb⟩

lemma WellFormed.remove (wf : WellFormed st) (e : Detached st st' D h []) (f : Freed st st' D)
    (r : Removable st D) : WellFormed st' := by
  have hat : ∀ {id s'}, st'.slotAt id = some s' → ∃ s, st.slotAt id = some s ∧
      ((id.handle s ∈ D ∧ s' = s.reset) ∨ (id.handle s ∉ D ∧
        s' = { s with dependents := s.dependents.filter (· ∉ D) })) := by
    intro id s' hs'
    rw [e.slots] at hs'
    obtain ⟨s, hs, rfl⟩ := Option.map_eq_some_iff.mp hs'
    refine ⟨s, hs, ?_⟩
    by_cases hm : id.handle s ∈ D
    · exact Or.inl ⟨hm, Slot.detach_of_mem hm h [] s⟩
    · refine Or.inr ⟨hm, ?_⟩
      rw [Slot.detach_of_not_mem hm]
      simp
  have hold : ∀ {y s'}, st'.getSlot y = some s' → s'.state ≠ .empty ∨ s'.dependencies ≠ [] ∨
      s'.dependents ≠ [] → ∃ s, st.getSlot y = some s ∧ y ∉ D ∧
        s' = { s with dependents := s.dependents.filter (· ∉ D) } := by
    intro y s' hs' hne
    rcases e.getSlot_cases hs' with ⟨s, hs, hm, rfl⟩ | ⟨s, _, _, rfl⟩
    · refine ⟨s, hs, hm, ?_⟩
      rw [Slot.detach_of_not_mem hm]
      simp
    · simp [Slot.reset] at hne
  have hkeep : ∀ {y s}, st.getSlot y = some s → y ∉ D →
      st'.getSlot y = some { s with dependents := s.dependents.filter (· ∉ D) } := by
    intro y s hs hm
    rw [e.getSlot_of_not_mem hs hm, Slot.detach_of_not_mem hm]
    simp
  constructor
  · intro a sa ha
    rcases e.getSlot_cases ha with ⟨s, hs, hm, rfl⟩ | ⟨s, _, _, rfl⟩
    · have hdeps : (s.detach D h [] a).dependencies = s.dependencies := by
        rw [Slot.detach_of_not_mem hm]
      rw [hdeps]
      exact wf.nodup hs
    · exact List.nodup_nil
  · intro d sd hd
    rcases e.getSlot_cases hd with ⟨s, hs, hm, rfl⟩ | ⟨s, _, _, rfl⟩
    · rw [Slot.detach_of_not_mem hm]
      exact (wf.dependentsNodup hs).filter _
    · exact List.nodup_nil
  · intro a sa d ha hd
    obtain ⟨s, hs, hm, rfl⟩ := hold ha (Or.inr (Or.inl (List.ne_nil_of_mem hd)))
    obtain ⟨sd, hsd, hmem⟩ := wf.forth hs hd
    have hdD : d ∉ D := by
      intro hc
      obtain ⟨sd', hsd', _, hz⟩ := r.slot d hc
      rw [hsd] at hsd'
      cases hsd'
      exact hm (hz a hmem)
    exact ⟨_, hkeep hsd hdD, List.mem_filter.mpr ⟨hmem, decide_eq_true hm⟩⟩
  · intro d sd z hd hz
    obtain ⟨s, hs, hm, rfl⟩ := hold hd (Or.inr (Or.inr (List.ne_nil_of_mem hz)))
    obtain ⟨hz, hzD⟩ := List.mem_filter.mp hz
    obtain ⟨sz, hsz, hmem⟩ := wf.back hs hz
    exact ⟨_, hkeep hsz (of_decide_eq_true hzD), hmem⟩
  · intro id s' hs' he
    obtain ⟨s, hs, ⟨_, rfl⟩ | ⟨_, rfl⟩⟩ := hat hs'
    · exact s.blank_reset
    · have hb := wf.blank hs he
      exact ⟨hb.pinCount, hb.path, hb.constructed, hb.dependencies, by simp [hb.dependents]⟩
  · intro t s' hs'
    obtain ⟨s, hs, ⟨_, rfl⟩ | ⟨_, rfl⟩⟩ := hat hs'
    · rfl
    · exact wf.zero (s := s) hs
  · intro t ht
    rw [e.slots]
    simpa using wf.bucket (e.hasBucket t ▸ ht)
  · intro id s' hs'
    obtain ⟨s, hs, _⟩ := hat hs'
    exact wf.typeId hs
  · intro id s' hs'
    obtain ⟨s, hs, ⟨_, rfl⟩ | ⟨_, rfl⟩⟩ := hat hs'
    · exact nextGeneration_ne_zero _
    · exact wf.generation (s := s) hs
  · exact wf.finite.subset e.edges_subset
  · intro t
    rw [f t, List.nodup_append]
    refine ⟨?_, wf.freeNodup t, ?_⟩
    · refine (r.nodup.filter _).map_on ?_
      intro x hx y hy hxy
      simp only [List.mem_filter, decide_eq_true_eq] at hx hy
      obtain ⟨sx, hsx, _⟩ := r.slot x hx.1
      obtain ⟨sy, hsy, _⟩ := r.slot y hy.1
      refine getSlot_unique ?_ hsx hsy
      simp [Handle.slotId, hx.2, hy.2, hxy]
    · intro i hi j hj hij
      subst hij
      obtain ⟨x, hx, rfl⟩ := List.mem_map.mp hi
      simp only [List.mem_filter, decide_eq_true_eq] at hx
      obtain ⟨hxD, rfl⟩ := hx
      obtain ⟨_, s, hs, he⟩ := (wf.mem_free _ _).mp hj
      obtain ⟨sx, hsx, hne, _⟩ := r.slot x hxD
      rw [getSlot_eq_slotAt hs hsx] at hne
      exact hne he
  · intro t i
    rw [f t, List.mem_append, wf.mem_free]
    constructor
    · rintro (hi | ⟨hi, s, hs, he⟩)
      · obtain ⟨x, hx, rfl⟩ := List.mem_map.mp hi
        simp only [List.mem_filter, decide_eq_true_eq] at hx
        obtain ⟨hxD, rfl⟩ := hx
        obtain ⟨sx, hsx, _⟩ := r.slot x hxD
        obtain ⟨hv, hat', hg⟩ := getSlot_eq_some.mp hsx
        refine ⟨(Handle.isValid_iff.mp hv).2.1, sx.reset, ?_, rfl⟩
        rw [e.slots, show (⟨x.typeId, x.index⟩ : SlotId) = x.slotId from rfl, hat',
          Option.map_some, Handle.handle_eq hg, Slot.detach_of_mem hxD]
      · refine ⟨hi, _, by rw [e.slots, hs, Option.map_some], ?_⟩
        unfold Slot.detach
        split
        · rfl
        · exact he
    · rintro ⟨hi, s', hs', he⟩
      obtain ⟨s, hs, ⟨hm, rfl⟩ | ⟨_, rfl⟩⟩ := hat hs'
      · left
        refine List.mem_map.mpr ⟨_, List.mem_filter.mpr ⟨hm, ?_⟩, rfl⟩
        simp [SlotId.handle]
      · exact Or.inr ⟨hi, s, hs, he⟩

end WellFormed

/-- `st'` is `st` after `allocateSlot` gave out `h`. -/
structure Allocated (st st' : Storage) (h : Handle) (path : Path) : Prop where
  valid : h.isValid = true
  slot : ∃ s, (st.slotAt h.slotId = some s ∧ s.state = .empty ∨
      st.slotAt h.slotId = none ∧ s = Slot.fresh) ∧
    s.generation = h.generation ∧ st'.slotAt h.slotId = some (s.allocate path)
  others : ∀ id, id ≠ h.slotId → st'.slotAt id = st.slotAt id ∨
    (st.slotAt id = none ∧ st'.slotAt id = some Slot.fresh ∧ id = ⟨h.typeId, 0⟩)
  cache : st'.pathCache = st.pathCache
  destroyed : st'.destroyed = st.destroyed
  hasDestroy : ∀ t, (st.buckets t).isSome → st'.hasDestroy t = st.hasDestroy t
  hasBucket : ∀ t, (st.buckets t).isSome → (st'.buckets t).isSome

lemma ensureBucket_inv {type : Option AssetTypeDesc} {st st' : Storage} {t : TypeId}
    (e : ensureBucket type st t = some st') :
    (st' = st ∧ (st.buckets t).isSome) ∨
    (∃ desc : AssetTypeDesc, st.buckets t = none ∧
      st' = { st with buckets := Function.update st.buckets t (some (Bucket.new desc.hasDestroy)) })
    := by
  unfold ensureBucket at e
  cases type with
  | none => cases e
  | some desc =>
    simp only at e
    split at e
    · rename_i b hb
      cases e
      exact Or.inl ⟨rfl, by simp [hb]⟩
    · rename_i hb
      cases e
      exact Or.inr ⟨desc, hb, rfl⟩

lemma takeIndex_inv {b b' : Bucket} {index : Nat} (e : b.takeIndex = some (index, b')) :
    (b.freeIndices = index :: b'.freeIndices ∧ b'.slots = b.slots ∧ b'.hasDestroy = b.hasDestroy) ∨
    (b.freeIndices = [] ∧ b'.freeIndices = [] ∧ index = b.slots.length ∧
      b'.slots = b.slots ++ [Slot.fresh] ∧ b'.hasDestroy = b.hasDestroy) := by
  unfold Bucket.takeIndex at e
  split at e
  · rename_i i rest hf
    cases e
    exact Or.inl ⟨hf, rfl, rfl⟩
  · rename_i hf
    split at e
    · cases e
      exact Or.inr ⟨hf, hf, rfl, rfl, rfl⟩
    · cases e

section Allocation

variable {st st' : Storage} {h : Handle} {path : Path}

lemma Allocated.getSlot_cases (e : Allocated st st' h path) {y : Handle} {s' : Slot}
    (hs' : st'.getSlot y = some s') :
    (y.slotId = h.slotId ∧ ∃ s : Slot, s' = s.allocate path ∧ s.generation = h.generation) ∨
    (y.slotId ≠ h.slotId ∧ st.getSlot y = some s') := by
  obtain ⟨hv, hat, hg⟩ := getSlot_eq_some.mp hs'
  by_cases hy : y.slotId = h.slotId
  · obtain ⟨s, _, hsg, hs⟩ := e.slot
    rw [hy, hs] at hat
    cases hat
    exact Or.inl ⟨hy, s, rfl, hsg⟩
  · right
    refine ⟨hy, ?_⟩
    rcases e.others _ hy with hsame | ⟨_, _, hid⟩
    · rw [hsame] at hat
      exact getSlot_eq_some.mpr ⟨hv, hat, hg⟩
    · have := (Handle.isValid_iff.mp hv).2.1
      simp only [Handle.slotId, SlotId.mk.injEq] at hid
      exact absurd hid.2 this

lemma Allocated.getSlot_of_ne (e : Allocated st st' h path) {y : Handle} {s : Slot}
    (hs : st.getSlot y = some s) (hy : y.slotId ≠ h.slotId) : st'.getSlot y = some s := by
  obtain ⟨hv, hat, hg⟩ := getSlot_eq_some.mp hs
  rcases e.others _ hy with hsame | ⟨hnone, _⟩
  · exact getSlot_eq_some.mpr ⟨hv, hsame.trans hat, hg⟩
  · rw [hnone] at hat
    cases hat

lemma Allocated.empty_before (e : Allocated st st' h path) {s : Slot}
    (hs : st.slotAt h.slotId = some s) : s.state = .empty := by
  obtain ⟨s₀, ⟨h₁, he⟩ | ⟨h₁, _⟩, _⟩ := e.slot
  · rw [hs] at h₁
    cases h₁
    exact he
  · rw [hs] at h₁
    cases h₁

lemma WellFormed.of_allocated (wf : WellFormed st) (e : Allocated st st' h path)
    (hb : ∀ t, (st'.buckets t).isSome → (st.buckets t).isSome ∨ (st'.slotAt ⟨t, 0⟩).isSome)
    (hfn : ∀ t, (st'.freeIndices t).Nodup)
    (hf : ∀ t i, i ∈ st'.freeIndices t ↔ i ∈ st.freeIndices t ∧ (⟨t, i⟩ : SlotId) ≠ h.slotId) :
    WellFormed st' := by
  obtain ⟨s₀, hbefore, hgen, hafter⟩ := e.slot
  have hindex : h.index ≠ 0 := (Handle.isValid_iff.mp e.valid).2.1
  have hoccupied : ∀ {y s}, st.getSlot y = some s → s.state ≠ .empty → y.slotId ≠ h.slotId := by
    intro y s hs hne hy
    obtain ⟨_, hat, _⟩ := getSlot_eq_some.mp hs
    rw [hy] at hat
    exact hne (e.empty_before hat)
  have hslot : ∀ {id s'}, st'.slotAt id = some s' →
      (id = h.slotId ∧ s' = s₀.allocate path) ∨ st.slotAt id = some s' ∨
      (s' = Slot.fresh ∧ id = ⟨h.typeId, 0⟩) := by
    intro id s' hs'
    by_cases hid : id = h.slotId
    · subst hid
      rw [hafter] at hs'
      cases hs'
      exact Or.inl ⟨rfl, rfl⟩
    · rcases e.others id hid with hsame | ⟨_, hfresh, hid'⟩
      · exact Or.inr (Or.inl (hsame ▸ hs'))
      · rw [hfresh] at hs'
        cases hs'
        exact Or.inr (Or.inr ⟨rfl, hid'⟩)
  constructor
  · intro a sa ha
    rcases e.getSlot_cases ha with ⟨_, s, rfl, _⟩ | ⟨_, ha⟩
    · exact List.nodup_nil
    · exact wf.nodup ha
  · intro d sd hd
    rcases e.getSlot_cases hd with ⟨_, s, rfl, _⟩ | ⟨_, hd⟩
    · exact List.nodup_nil
    · exact wf.dependentsNodup hd
  · intro a sa d ha hd
    rcases e.getSlot_cases ha with ⟨_, s, rfl, _⟩ | ⟨_, ha⟩
    · cases hd
    · obtain ⟨sd, hsd, hm⟩ := wf.forth ha hd
      have hocc := wf.occupied_of_dependents (getSlot_eq_some.mp hsd).2.1 hm
      exact ⟨sd, e.getSlot_of_ne hsd (hoccupied hsd hocc), hm⟩
  · intro d sd z hd hz
    rcases e.getSlot_cases hd with ⟨_, s, rfl, _⟩ | ⟨_, hd⟩
    · cases hz
    · obtain ⟨sz, hsz, hm⟩ := wf.back hd hz
      have hocc := wf.occupied_of_dependencies (getSlot_eq_some.mp hsz).2.1 hm
      exact ⟨sz, e.getSlot_of_ne hsz (hoccupied hsz hocc), hm⟩
  · intro id s' hs' he
    rcases hslot hs' with ⟨_, rfl⟩ | hs | ⟨rfl, _⟩
    · cases he
    · exact wf.blank hs he
    · exact Slot.blank_fresh
  · intro t s' hs'
    rcases hslot hs' with ⟨hid, _⟩ | hs | ⟨rfl, _⟩
    · simp only [Handle.slotId, SlotId.mk.injEq] at hid
      exact absurd hid.2.symm hindex
    · exact wf.zero hs
    · rfl
  · intro t ht
    rcases hb t ht with hold | hnew
    · obtain ⟨s, hs⟩ := Option.isSome_iff_exists.mp (wf.bucket hold)
      have hid : (⟨t, 0⟩ : SlotId) ≠ h.slotId := by
        simp only [Handle.slotId, ne_eq, SlotId.mk.injEq, not_and]
        exact fun _ hc => hindex hc.symm
      rcases e.others _ hid with hsame | ⟨_, hfresh, _⟩
      · rw [hsame, hs]
        rfl
      · rw [hfresh]
        rfl
    · exact hnew
  · intro id s' hs'
    have htype := (Handle.isValid_iff.mp e.valid).1
    rcases hslot hs' with ⟨rfl, _⟩ | hs | ⟨_, rfl⟩
    · exact htype
    · exact wf.typeId hs
    · exact htype
  · intro id s' hs'
    rcases hslot hs' with ⟨_, rfl⟩ | hs | ⟨rfl, _⟩
    · exact hgen ▸ (Handle.isValid_iff.mp e.valid).2.2
    · exact wf.generation hs
    · exact Nat.one_ne_zero
  · refine wf.finite.subset ?_
    rintro ⟨z, d⟩ ⟨s', hs', hz⟩
    rcases e.getSlot_cases hs' with ⟨_, s, rfl, _⟩ | ⟨_, hs⟩
    · cases hz
    · exact ⟨s', hs, hz⟩
  · exact hfn
  · intro t i
    rw [hf, wf.mem_free]
    constructor
    · rintro ⟨⟨hi, s, hs, he⟩, hid⟩
      refine ⟨hi, s, ?_, he⟩
      rcases e.others _ hid with hsame | ⟨hnone, _⟩
      · exact hsame.trans hs
      · rw [hnone] at hs
        cases hs
    · rintro ⟨hi, s', hs', he⟩
      rcases hslot hs' with ⟨_, rfl⟩ | hs | ⟨_, hid⟩
      · cases he
      · refine ⟨⟨hi, s', hs, he⟩, ?_⟩
        intro hid
        rw [hid, hafter] at hs'
        cases hs'
        cases he
      · simp only [SlotId.mk.injEq] at hid
        exact absurd hid.2 hi

lemma slotAt_of_bucket {b : Bucket} {t : TypeId} (hb : st.buckets t = some b) (i : Nat) :
    st.slotAt ⟨t, i⟩ = b.slots[i]? := by
  simp [slotAt, hb]

lemma WellFormed.newBucket (wf : WellFormed st) {t : TypeId} (ht : t ≠ 0)
    (hb : st.buckets t = none) (hasDestroy : Bool) :
    WellFormed { st with
      buckets := Function.update st.buckets t (some (Bucket.new hasDestroy)) } := by
  generalize hst' : ({ st with
      buckets := Function.update st.buckets t (some (Bucket.new hasDestroy)) } : Storage) = st'
  have hat : ∀ id, st'.slotAt id = if id = ⟨t, 0⟩ then some Slot.fresh else st.slotAt id := by
    rintro ⟨t', i⟩
    subst hst'
    by_cases ht' : t' = t
    · subst ht'
      rw [slotAt_of_bucket (b := Bucket.new hasDestroy) (by simp)]
      cases i with
      | zero => simp [Bucket.new]
      | succ i => simp [Bucket.new, slotAt, hb]
    · simp [slotAt, ht']
  have hget : ∀ y, st'.getSlot y = st.getSlot y := by
    intro y
    by_cases hy : y.slotId = ⟨t, 0⟩
    · have hv : y.isValid = false := by
        rw [Bool.eq_false_iff]
        intro hv
        simp only [Handle.slotId, SlotId.mk.injEq] at hy
        exact (Handle.isValid_iff.mp hv).2.1 hy.2
      simp [getSlot, hv]
    · exact getSlot_congr (by rw [hat, if_neg hy])
  have hfree : ∀ t', st'.freeIndices t' = st.freeIndices t' := by
    intro t'
    subst hst'
    by_cases ht' : t' = t
    · subst ht'
      simp [freeIndices, hb, Bucket.new]
    · simp [freeIndices, ht']
  have hslot : ∀ {id s}, st'.slotAt id = some s →
      (id = ⟨t, 0⟩ ∧ s = Slot.fresh) ∨ st.slotAt id = some s := by
    intro id s hs
    rw [hat] at hs
    split at hs
    · cases hs
      exact Or.inl ⟨by assumption, rfl⟩
    · exact Or.inr hs
  constructor
  · intro a sa ha
    exact wf.nodup (hget a ▸ ha)
  · intro d sd hd
    exact wf.dependentsNodup (hget d ▸ hd)
  · intro a sa d ha hd
    obtain ⟨sd, hsd, hm⟩ := wf.forth (hget a ▸ ha) hd
    exact ⟨sd, (hget d).trans hsd, hm⟩
  · intro d sd z hd hz
    obtain ⟨sz, hsz, hm⟩ := wf.back (hget d ▸ hd) hz
    exact ⟨sz, (hget z).trans hsz, hm⟩
  · intro id s hs he
    rcases hslot hs with ⟨_, rfl⟩ | hs
    · exact Slot.blank_fresh
    · exact wf.blank hs he
  · intro t' s hs
    rcases hslot hs with ⟨_, rfl⟩ | hs
    · rfl
    · exact wf.zero hs
  · intro t' ht'
    rw [hat]
    split
    · rfl
    · rename_i hne
      apply wf.bucket
      have : t' ≠ t := fun e => hne (by rw [e])
      subst hst'
      simpa [Function.update_apply, this] using ht'
  · intro id s hs
    rcases hslot hs with ⟨rfl, _⟩ | hs
    · exact ht
    · exact wf.typeId hs
  · intro id s hs
    rcases hslot hs with ⟨_, rfl⟩ | hs
    · exact Nat.one_ne_zero
    · exact wf.generation hs
  · have : st'.edges = st.edges := by
      ext ⟨z, d⟩
      simp [edges, hget]
    rw [this]
    exact wf.finite
  · intro t'
    rw [hfree]
    exact wf.freeNodup t'
  · intro t' i
    rw [hfree, wf.mem_free]
    constructor
    · rintro ⟨hi, s, hs, he⟩
      refine ⟨hi, s, ?_, he⟩
      rw [hat, if_neg]
      · exact hs
      · simp [hi]
    · rintro ⟨hi, s, hs, he⟩
      rcases hslot hs with ⟨hid, _⟩ | hs
      · simp only [SlotId.mk.injEq] at hid
        exact absurd hid.2 hi
      · exact ⟨hi, s, hs, he⟩

lemma WellFormed.takeSlot (wf : WellFormed st) {t : TypeId} {b b' : Bucket} {index : Nat}
    {slot : Slot} (hb : st.buckets t = some b) (take : b.takeIndex = some (index, b'))
    (hslot : b'.slots[index]? = some slot)
    (hst' : st' = { st with
      buckets := Function.update st.buckets t
        (some { b' with slots := b'.slots.set index (slot.allocate path) }) }) :
    Allocated st st' ⟨t, index, slot.generation⟩ path ∧ WellFormed st' := by
  have hat₀ := slotAt_of_bucket hb
  have ht : t ≠ 0 := by
    obtain ⟨s, hs⟩ := Option.isSome_iff_exists.mp (wf.bucket (t := t) (by simp [hb]))
    exact wf.typeId hs
  have hlen : b.slots ≠ [] := by
    obtain ⟨s, hs⟩ := Option.isSome_iff_exists.mp (wf.bucket (t := t) (by simp [hb]))
    rw [hat₀] at hs
    rintro hnil
    simp [hnil] at hs
  have hat' : ∀ i, st'.slotAt ⟨t, i⟩ = (b'.slots.set index (slot.allocate path))[i]? := by
    intro i
    subst hst'
    simp [slotAt]
  have hother : ∀ t' i, t' ≠ t → st'.slotAt ⟨t', i⟩ = st.slotAt ⟨t', i⟩ := by
    intro t' i hne
    subst hst'
    simp [slotAt, hne]
  have hmem : index < b'.slots.length := (List.getElem?_eq_some_iff.mp hslot).1
  -- where the index comes from, in terms of the storage before
  have hprior : index ≠ 0 ∧ slot.generation ≠ 0 ∧ (∀ i, i ≠ index → b'.slots[i]? = b.slots[i]?) ∧
      ((st.slotAt ⟨t, index⟩ = some slot ∧ slot.state = .empty) ∨
        (st.slotAt ⟨t, index⟩ = none ∧ slot = Slot.fresh)) ∧
      ((b.freeIndices = index :: b'.freeIndices) ∨
        (b.freeIndices = [] ∧ b'.freeIndices = [] ∧ st.slotAt ⟨t, index⟩ = none)) := by
    rcases takeIndex_inv take with ⟨hf, hs, _⟩ | ⟨hf, hf', hi, hs, _⟩
    · have hfree : index ∈ st.freeIndices t := by simp [freeIndices, hb, hf]
      obtain ⟨hi, s, hs', he⟩ := (wf.mem_free _ _).mp hfree
      rw [hs] at hslot
      rw [hat₀, hslot] at hs'
      cases hs'
      refine ⟨hi, wf.generation ((hat₀ index).trans hslot), fun i _ => by rw [hs],
        Or.inl ⟨(hat₀ index).trans hslot, he⟩, Or.inl hf⟩
    · have hnone : st.slotAt ⟨t, index⟩ = none := by
        rw [hat₀, hi]
        simp
      have hfresh : slot = Slot.fresh := by
        rw [hs, hi] at hslot
        simpa using hslot.symm
      refine ⟨?_, ?_, ?_, Or.inr ⟨hnone, hfresh⟩, Or.inr ⟨hf, hf', hnone⟩⟩
      · rw [hi]
        exact fun e => hlen (List.length_eq_zero_iff.mp e)
      · rw [hfresh]
        exact Nat.one_ne_zero
      · intro i hne
        rw [hs, hi] at *
        by_cases hlt : i < b.slots.length
        · rw [List.getElem?_append_left hlt]
        · have hgt : b.slots.length < i := by omega
          rw [List.getElem?_eq_none (by simp; omega), List.getElem?_eq_none (by omega)]
  obtain ⟨hi, hg, hrest, hold, hfree⟩ := hprior
  have halloc : Allocated st st' ⟨t, index, slot.generation⟩ path := by
    refine ⟨Handle.isValid_iff.mpr ⟨ht, hi, hg⟩, ⟨slot, hold, rfl, ?_⟩, ?_, ?_, ?_, ?_, ?_⟩
    · simp [Handle.slotId, hat', hmem]
    · rintro ⟨t', i⟩ hne
      left
      by_cases ht' : t' = t
      · subst ht'
        have hne' : i ≠ index := fun e => hne (by rw [e]; rfl)
        rw [hat', List.getElem?_set_ne hne'.symm, hrest i hne', hat₀]
      · exact hother t' i ht'
    · rw [hst']
    · rw [hst']
    · intro t' ht'
      rw [hst']
      by_cases h : t' = t
      · subst h
        rcases takeIndex_inv take with ⟨_, _, hd⟩ | ⟨_, _, _, _, hd⟩
        · simp [hasDestroy, hb, hd]
        · simp [hasDestroy, hb, hd]
      · simp [hasDestroy, h]
    · intro t' ht'
      rw [hst']
      by_cases h : t' = t
      · simp [h]
      · simpa [Function.update_apply, h] using ht'
  have hfree' : ∀ t', st'.freeIndices t' =
      if t' = t then b'.freeIndices else st.freeIndices t' := by
    intro t'
    rw [hst']
    by_cases h : t' = t
    · simp [freeIndices, h]
    · simp [freeIndices, h]
  have hfree₀ : st.freeIndices t = b.freeIndices := by simp [freeIndices, hb]
  refine ⟨halloc, wf.of_allocated halloc ?_ ?_ ?_⟩
  · intro t' ht'
    left
    rw [hst'] at ht'
    by_cases h : t' = t
    · simp [h, hb]
    · simpa [Function.update_apply, h] using ht'
  · intro t'
    rw [hfree']
    split
    · have hnd := wf.freeNodup t
      rw [hfree₀] at hnd
      rcases hfree with hf | ⟨_, hf, _⟩
      · rw [hf] at hnd
        exact (List.nodup_cons.mp hnd).2
      · rw [hf]
        exact List.nodup_nil
    · exact wf.freeNodup t'
  · intro t' i
    rw [hfree']
    by_cases h : t' = t
    · subst h
      rw [if_pos rfl, hfree₀]
      have hnd := wf.freeNodup t'
      rw [hfree₀] at hnd
      rcases hfree with hf | ⟨hf₀, hf, _⟩
      · rw [hf] at hnd ⊢
        have hout := (List.nodup_cons.mp hnd).1
        simp only [Handle.slotId, ne_eq, SlotId.mk.injEq, true_and, List.mem_cons]
        constructor
        · intro hm
          exact ⟨Or.inr hm, fun e => hout (e ▸ hm)⟩
        · rintro ⟨hm | hm, hne⟩
          · exact absurd hm hne
          · exact hm
      · simp [hf₀, hf]
    · rw [if_neg h]
      simp [Handle.slotId, h]

/-- **`allocateSlot`** takes an empty or a new slot, blanks it, and keeps the invariant. -/
theorem WellFormed.allocateSlot (wf : WellFormed st) {type : Option AssetTypeDesc} {t : TypeId}
    (ht : t ≠ 0) (e : allocateSlot type st t path = some (st', h)) :
    h.typeId = t ∧ Allocated st st' h path ∧ WellFormed st' := by
  unfold Storage.allocateSlot at e
  simp only [Option.bind_eq_bind, Option.bind_eq_some_iff, Option.pure_def, Option.some.injEq,
    Prod.mk.injEq] at e
  obtain ⟨st₁, e₁, b, hb, ⟨index, b'⟩, take, slot, hslot, rfl, rfl⟩ := e
  refine ⟨rfl, ?_⟩
  rcases ensureBucket_inv e₁ with ⟨rfl, _⟩ | ⟨desc, hnone, rfl⟩
  · exact wf.takeSlot hb take hslot rfl
  · have wf₁ := wf.newBucket ht hnone desc.hasDestroy
    obtain ⟨halloc, wf'⟩ := wf₁.takeSlot hb take hslot rfl
    refine ⟨?_, wf'⟩
    have hat : ∀ i, ({ st with
        buckets := Function.update st.buckets t
          (some (Bucket.new desc.hasDestroy)) } : Storage).slotAt ⟨t, i⟩ =
          if i = 0 then some Slot.fresh else none := by
      intro i
      rw [slotAt_of_bucket (b := Bucket.new desc.hasDestroy) (by simp)]
      cases i <;> simp [Bucket.new]
    have hnone' : ∀ i, st.slotAt ⟨t, i⟩ = none := by
      intro i
      simp [slotAt, hnone]
    have hindex : index ≠ 0 := (Handle.isValid_iff.mp halloc.valid).2.1
    obtain ⟨s, hbefore, hgen, hafter⟩ := halloc.slot
    refine ⟨halloc.valid, ⟨s, ?_, hgen, hafter⟩, ?_, halloc.cache, halloc.destroyed, ?_, ?_⟩
    · right
      refine ⟨hnone' _, ?_⟩
      rcases hbefore with ⟨hs, _⟩ | ⟨_, hs⟩
      · simp only [Handle.slotId] at hs
        rw [hat, if_neg hindex] at hs
        cases hs
      · exact hs
    · rintro ⟨t', i⟩ hne
      by_cases h : t' = t
      · subst h
        rcases halloc.others _ hne with hsame | ⟨hnone₁, _, hid⟩
        · rw [hsame, hat]
          by_cases hi : i = 0
          · subst hi
            exact Or.inr ⟨hnone' 0, rfl, rfl⟩
          · rw [if_neg hi]
            exact Or.inl (hnone' i).symm
        · simp only [SlotId.mk.injEq, true_and] at hid
          rw [hat, if_pos hid] at hnone₁
          cases hnone₁
      · left
        rcases halloc.others _ hne with hsame | ⟨_, _, hid⟩
        · rw [hsame]
          simp [slotAt, h]
        · simp only [SlotId.mk.injEq] at hid
          exact absurd hid.1 h
    · intro t' ht'
      have h : t' ≠ t := by
        rintro rfl
        simp [hnone] at ht'
      rw [halloc.hasDestroy t' (by simpa [Function.update_apply, h] using ht')]
      simp [hasDestroy, h]
    · intro t' ht'
      apply halloc.hasBucket
      by_cases h : t' = t
      · simp [h]
      · simpa [Function.update_apply, h] using ht'

end Allocation

/-- What committing the dependencies `C` of `h` does to a slot. -/
def commitSlot (h : Handle) (C : List Handle) (id : SlotId) (s : Slot) : Slot :=
  { s with
    dependencies := if id = h.slotId then C else s.dependencies
    dependents := if id.handle s ∈ C then s.dependents ++ [h] else s.dependents }

/-- `st'` is `st` after `h`, which had no dependencies, got the dependencies `C`. -/
structure Committed (st st' : Storage) (h : Handle) (C : List Handle) : Prop where
  edited : Edited (commitSlot h C) st st'
  nodup : C.Nodup
  live : ∀ d ∈ C, ∃ sd, st.getSlot d = some sd

section Commit

variable {st st₀ st' : Storage} {h : Handle} {C : List Handle}

lemma Committed.getSlot (e : Committed st st' h C) (y : Handle) :
    st'.getSlot y = (st.getSlot y).map (commitSlot h C y.slotId) := by
  cases hy : st.getSlot y with
  | none =>
    rw [Option.map_none, Option.eq_none_iff_forall_not_mem]
    intro s' hs'
    obtain ⟨hv, hat, hg⟩ := getSlot_eq_some.mp hs'
    rw [e.edited.slots] at hat
    obtain ⟨s, hs, rfl⟩ := Option.map_eq_some_iff.mp hat
    rw [getSlot_eq_some.mpr ⟨hv, hs, hg⟩] at hy
    cases hy
  | some s =>
    obtain ⟨hv, hat, hg⟩ := getSlot_eq_some.mp hy
    refine getSlot_eq_some.mpr ⟨hv, ?_, hg⟩
    rw [e.edited.slots, hat, Option.map_some]

lemma Committed.commitDependency (e : Committed st₀ st h C) {sh : Slot}
    (hh : st₀.slotAt h.slotId = some sh) (dep : Dependency) :
    ∃ C', Committed st₀ (commitDependency h st dep) h C' ∧
      (∀ d, d ∈ C' ↔ d ∈ C ∨ (d = dep.depRef ∧ (st₀.getSlot d).isSome)) := by
  have hslot : st.slotAt h.slotId = some (commitSlot h C h.slotId sh) := by
    rw [e.edited.slots, hh, Option.map_some]
  unfold Storage.commitDependency
  rw [hslot, e.getSlot]
  cases hd : st₀.getSlot dep.depRef with
  | none =>
    refine ⟨C, e, fun d => ⟨Or.inl, ?_⟩⟩
    rintro (hm | ⟨rfl, hsome⟩)
    · exact hm
    · rw [hd] at hsome
      cases hsome
  | some sd =>
    simp only [Option.map_some]
    by_cases hm : dep.depRef ∈ C
    · rw [if_pos (by simpa [commitSlot] using hm)]
      refine ⟨C, e, fun d => ⟨Or.inl, ?_⟩⟩
      rintro (hm' | ⟨rfl, _⟩)
      · exact hm'
      · exact hm
    · rw [if_neg (by simpa [commitSlot] using hm)]
      refine ⟨C ++ [dep.depRef], ⟨?_, ?_, ?_⟩, ?_⟩
      · refine ((e.edited.trans (Edited.modifySlot _ _ _)).trans (Edited.modifySlot _ _ _)).congr ?_
        intro id s hs
        obtain ⟨_, hat, hg⟩ := getSlot_eq_some.mp hd
        by_cases hid : dep.depRef.slotId = id
        · subst hid
          rw [hat] at hs
          cases hs
          have hhandle : dep.depRef.slotId.handle sd = dep.depRef := Handle.handle_eq hg
          by_cases hself : h.slotId = dep.depRef.slotId
          · simp [commitSlot, hself, hhandle, hm]
          · have hself' : ¬ dep.depRef.slotId = h.slotId := fun e => hself e.symm
            simp [commitSlot, hself, hself', hhandle, hm]
        · have hhandle : id.handle s ≠ dep.depRef := fun e => hid (by rw [← e]; rfl)
          by_cases hself : h.slotId = id
          · subst hself
            simp [commitSlot, hid, hhandle]
          · have hself' : ¬ id = h.slotId := fun e => hself e.symm
            simp [commitSlot, hid, hself, hself', hhandle]
      · exact List.nodup_append.mpr ⟨e.nodup, List.nodup_singleton _, by
          intro a ha b hb hab
          rw [List.mem_singleton] at hb
          exact hm (hb ▸ hab ▸ ha)⟩
      · intro d hd'
        rcases List.mem_append.mp hd' with hm' | hm'
        · exact e.live d hm'
        · rw [List.mem_singleton] at hm'
          exact ⟨sd, hm' ▸ hd⟩
      · intro d
        simp only [List.mem_append, List.mem_singleton]
        constructor
        · rintro (hm' | rfl)
          · exact Or.inl hm'
          · exact Or.inr ⟨rfl, by simp [hd]⟩
        · rintro (hm' | ⟨rfl, _⟩)
          · exact Or.inl hm'
          · exact Or.inr rfl

lemma Committed.foldl {sh : Slot} (hh : st₀.slotAt h.slotId = some sh) :
    ∀ (deps : List Dependency) {st : Storage} {C : List Handle}, Committed st₀ st h C →
      ∃ C', Committed st₀ (deps.foldl (Storage.commitDependency h) st) h C' ∧
        ∀ d, d ∈ C' ↔ d ∈ C ∨ ((∃ dep ∈ deps, dep.depRef = d) ∧ (st₀.getSlot d).isSome) := by
  intro deps
  induction deps with
  | nil =>
    intro st C e
    exact ⟨C, e, by simp⟩
  | cons dep deps ih =>
    intro st C e
    obtain ⟨C₁, e₁, h₁⟩ := e.commitDependency hh dep
    obtain ⟨C₂, e₂, h₂⟩ := ih e₁
    refine ⟨C₂, e₂, fun d => ?_⟩
    rw [h₂, h₁]
    simp only [List.mem_cons, exists_eq_or_imp]
    constructor
    · rintro ((hm | ⟨rfl, hs⟩) | ⟨hm, hs⟩)
      · exact Or.inl hm
      · exact Or.inr ⟨Or.inl rfl, hs⟩
      · exact Or.inr ⟨Or.inr hm, hs⟩
    · rintro (hm | ⟨rfl | hm, hs⟩)
      · exact Or.inl (Or.inl hm)
      · exact Or.inl (Or.inr ⟨rfl, hs⟩)
      · exact Or.inr ⟨hm, hs⟩

/-- `commit` for a slot that has no dependencies yet, which is when a load job calls it. -/
theorem commit_spec (fuel : Nat) {sh : Slot} (hh : st.getSlot h = some sh)
    (hnil : sh.dependencies = []) (deps : List Dependency) :
    ∃ st' C, st.commit fuel h deps = some st' ∧ Committed st st' h C ∧
      ∀ d, d ∈ C ↔ (∃ dep ∈ deps, dep.depRef = d) ∧ (st.getSlot d).isSome := by
  obtain ⟨_, hat, _⟩ := getSlot_eq_some.mp hh
  have e : Committed st
      (st.modifySlot h.slotId fun slot => { slot with dependencies := [] }) h [] := by
    refine ⟨(Edited.modifySlot _ _ _).congr ?_, List.nodup_nil, by simp⟩
    intro id s hs
    by_cases hid : h.slotId = id
    · subst hid
      simp [commitSlot]
    · have hid' : ¬ id = h.slotId := fun e => hid e.symm
      simp [commitSlot, hid, hid']
  obtain ⟨C, e', hC⟩ := Committed.foldl hat deps e
  refine ⟨_, C, ?_, e', by simpa using hC⟩
  unfold Storage.commit
  rw [hh]
  simp [detachCommittedDependencies, hnil]

lemma WellFormed.committed (wf : WellFormed st) (e : Committed st st' h C) {sh : Slot}
    (hh : st.getSlot h = some sh) (hocc : sh.state ≠ .empty) (hnil : sh.dependencies = [])
    (hC : ∀ d ∈ C, ∀ sd, st.getSlot d = some sd → sd.state ≠ .empty) : WellFormed st' := by
  have hget : ∀ {y s'}, st'.getSlot y = some s' → ∃ s, st.getSlot y = some s ∧
      s' = commitSlot h C y.slotId s := by
    intro y s' hy
    rw [e.getSlot] at hy
    obtain ⟨s, hs, rfl⟩ := Option.map_eq_some_iff.mp hy
    exact ⟨s, hs, rfl⟩
  have hself : ∀ {y s}, st.getSlot y = some s → y.slotId = h.slotId → y = h ∧ s = sh := by
    intro y s hy hid
    have := getSlot_unique hid hy hh
    subst this
    rw [hh] at hy
    exact ⟨rfl, (Option.some.inj hy).symm⟩
  have hdpts : ∀ {y s}, st.getSlot y = some s → (commitSlot h C y.slotId s).dependents =
      if y ∈ C then s.dependents ++ [h] else s.dependents := by
    intro y s hy
    simp only [commitSlot, Handle.handle_eq (getSlot_eq_some.mp hy).2.2]
  have hneutral : ∀ {id s}, st.slotAt id = some s → s.state = .empty → commitSlot h C id s = s := by
    intro id s hs he
    obtain ⟨_, hat, _⟩ := getSlot_eq_some.mp hh
    have hid : id ≠ h.slotId := by
      rintro rfl
      rw [hat] at hs
      cases hs
      exact hocc he
    have hm : id.handle s ∉ C := by
      intro hm
      obtain ⟨sd, hsd⟩ := e.live _ hm
      have := getSlot_eq_slotAt (h := id.handle s) hs hsd
      subst this
      exact hC _ hm _ hsd he
    simp [commitSlot, hid, hm]
  have hempty : ∀ {id s}, (commitSlot h C id s).state = s.state := rfl
  have hat : ∀ {id s'}, st'.slotAt id = some s' → ∃ s, st.slotAt id = some s ∧
      s' = commitSlot h C id s := by
    intro id s' hs'
    rw [e.edited.slots] at hs'
    obtain ⟨s, hs, rfl⟩ := Option.map_eq_some_iff.mp hs'
    exact ⟨s, hs, rfl⟩
  constructor
  · intro a sa ha
    obtain ⟨s, hs, rfl⟩ := hget ha
    by_cases hid : a.slotId = h.slotId
    · simpa [commitSlot, hid] using e.nodup
    · simpa [commitSlot, hid] using wf.nodup hs
  · intro d sd hd
    obtain ⟨s, hs, rfl⟩ := hget hd
    rw [hdpts hs]
    split
    · refine List.nodup_append.mpr ⟨wf.dependentsNodup hs, List.nodup_singleton _, ?_⟩
      intro z hz b hb hzb
      rw [List.mem_singleton] at hb
      obtain ⟨sz, hsz, hm⟩ := wf.back hs hz
      rw [hzb, hb, hh] at hsz
      cases hsz
      rw [hnil] at hm
      cases hm
    · exact wf.dependentsNodup hs
  · intro a sa d ha hd
    obtain ⟨s, hs, rfl⟩ := hget ha
    by_cases hid : a.slotId = h.slotId
    · obtain ⟨rfl, rfl⟩ := hself hs hid
      have hdC : d ∈ C := by simpa [commitSlot] using hd
      obtain ⟨sd, hsd⟩ := e.live d hdC
      refine ⟨_, (e.getSlot d).trans (by rw [hsd, Option.map_some]), ?_⟩
      rw [hdpts hsd, if_pos hdC]
      simp
    · have hd' : d ∈ s.dependencies := by simpa [commitSlot, hid] using hd
      obtain ⟨sd, hsd, hm⟩ := wf.forth hs hd'
      refine ⟨_, (e.getSlot d).trans (by rw [hsd, Option.map_some]), ?_⟩
      rw [hdpts hsd]
      split
      · exact List.mem_append_left _ hm
      · exact hm
  · intro d sd z hd hz
    obtain ⟨s, hs, rfl⟩ := hget hd
    rw [hdpts hs] at hz
    have hold : z ∈ s.dependents → ∃ sz, st'.getSlot z = some sz ∧ d ∈ sz.dependencies := by
      intro hz
      obtain ⟨sz, hsz, hm⟩ := wf.back hs hz
      refine ⟨_, (e.getSlot z).trans (by rw [hsz, Option.map_some]), ?_⟩
      have hid : z.slotId ≠ h.slotId := by
        intro hid
        obtain ⟨rfl, rfl⟩ := hself hsz hid
        rw [hnil] at hm
        cases hm
      simpa [commitSlot, hid] using hm
    split at hz
    · rename_i hdC
      rcases List.mem_append.mp hz with hz | hz
      · exact hold hz
      · rw [List.mem_singleton] at hz
        subst hz
        refine ⟨_, (e.getSlot z).trans (by rw [hh, Option.map_some]), ?_⟩
        simpa [commitSlot] using hdC
    · exact hold hz
  · intro id s' hs' he
    obtain ⟨s, hs, rfl⟩ := hat hs'
    rw [hneutral hs he]
    exact wf.blank hs he
  · intro t s' hs'
    obtain ⟨s, hs, rfl⟩ := hat hs'
    exact wf.zero (s := s) hs
  · intro t ht
    rw [e.edited.slots]
    simpa using wf.bucket (e.edited.frame.hasBucket t ▸ ht)
  · intro id s' hs'
    obtain ⟨s, hs, rfl⟩ := hat hs'
    exact wf.typeId hs
  · intro id s' hs'
    obtain ⟨s, hs, rfl⟩ := hat hs'
    exact wf.generation (s := s) hs
  · refine (wf.finite.union ((C.finite_toSet).image fun d => (h, d))).subset ?_
    rintro ⟨z, d⟩ ⟨s', hs', hz⟩
    obtain ⟨s, hs, rfl⟩ := hget hs'
    rw [hdpts hs] at hz
    split at hz
    · rename_i hdC
      rcases List.mem_append.mp hz with hz | hz
      · exact Or.inl ⟨s, hs, hz⟩
      · rw [List.mem_singleton] at hz
        obtain rfl : z = h := hz
        exact Or.inr ⟨d, hdC, rfl⟩
    · exact Or.inl ⟨s, hs, hz⟩
  · intro t
    rw [e.edited.frame.free]
    exact wf.freeNodup t
  · intro t i
    rw [e.edited.frame.free, wf.mem_free, e.edited.slots]
    constructor
    · rintro ⟨hi, s, hs, he⟩
      exact ⟨hi, commitSlot h C ⟨t, i⟩ s, by rw [hs, Option.map_some], he⟩
    · rintro ⟨hi, s', hs', he⟩
      obtain ⟨s, hs, rfl⟩ := Option.map_eq_some_iff.mp hs'
      exact ⟨hi, s, hs, he⟩

end Commit

end Storage

end PulseEngine.Asset
