import Mathlib
import PulseEngine.Asset.Storage

/-!
# What unloading does

`destroySlot`, `detachCommittedDependencies` and `tryUnloadSlot` recurse through the dependency
graph. This file says once what a call of the recursion does to a storage: there is a list `D` of
handles such that the slots of `D` are reset, every other slot loses the dependents in `D`, and
nothing else changes (`Detached`); and every handle of `D` was unpinned and had no dependents
left but the ones being destroyed (`Unloads`). Everything else about destruction follows from
these two.

The recursion is described from the point of view of a slot `h` that is being destroyed and has
the dependencies `ds` still to detach. `X` holds of the slots under destruction further up the call
stack. `M` bounds the handles a call may destroy.
-/

namespace PulseEngine.Asset

/-- The handle of the slot at `id` while the slot is `s`. -/
def SlotId.handle (id : SlotId) (s : Slot) : Handle := ⟨id.typeId, id.index, s.generation⟩

@[simp]
lemma SlotId.handle_slotId (id : SlotId) (s : Slot) : (id.handle s).slotId = id := rfl

lemma Handle.handle_eq {h : Handle} {s : Slot} (e : s.generation = h.generation) :
    h.slotId.handle s = h := by
  obtain ⟨t, i, g⟩ := h
  simp only at e
  simp [SlotId.handle, Handle.slotId, e]

/-- What destroying `D`, while `h` lets go of `ds`, does to the slot `s` with handle `e`. -/
def Slot.detach (D : List Handle) (h : Handle) (ds : List Handle) (e : Handle) (s : Slot) : Slot :=
  if e ∈ D then s.reset
  else { s with dependents := s.dependents.filter fun z => z ∉ D ∧ ¬ (z = h ∧ e ∈ ds) }

lemma Slot.detach_of_mem {D : List Handle} {e : Handle} (he : e ∈ D) (h : Handle)
    (ds : List Handle) (s : Slot) : s.detach D h ds e = s.reset := by
  simp [Slot.detach, he]

lemma Slot.detach_of_not_mem {D : List Handle} {e : Handle} (he : e ∉ D) (h : Handle)
    (ds : List Handle) (s : Slot) :
    s.detach D h ds e =
      { s with dependents := s.dependents.filter fun z => z ∉ D ∧ ¬ (z = h ∧ e ∈ ds) } := by
  simp [Slot.detach, he]

namespace Storage

/-- Whether destroying the asset behind `x` runs a destroy callback. -/
def callbackDue (st : Storage) (x : Handle) : Bool :=
  (st.getSlot x).any (·.constructed) && st.hasDestroy x.typeId

/-- Whether destroying `D` erases the entry `x` of the path cache at `p`. -/
def evicts (st : Storage) (D : List Handle) (t : TypeId) (p : Path) (x : Handle) : Bool :=
  decide (x ∈ D) && decide (x.typeId = t) && decide (p ≠ []) &&
    (st.getSlot x).any fun s => decide (s.path = p)

/-- `st'` is `st` after the slots of `D` were destroyed and `h` let go of `ds`. -/
structure Detached (st st' : Storage) (D : List Handle) (h : Handle) (ds : List Handle) :
    Prop where
  slots : ∀ id, st'.slotAt id = (st.slotAt id).map fun s => s.detach D h ds (id.handle s)
  cache : ∀ t p, st'.pathCache t p = (st.pathCache t p).filter fun x => !st.evicts D t p x
  destroyed : ∀ x, st'.destroyed.count x =
    st.destroyed.count x + if x ∈ D ∧ st.callbackDue x = true then 1 else 0
  hasDestroy : ∀ t, st'.hasDestroy t = st.hasDestroy t
  slotIds : ∀ t, st'.slotIds t = st.slotIds t
  hasBucket : ∀ t, (st'.buckets t).isSome = (st.buckets t).isSome

/-- `st'` has the slots of `D` pushed on the free lists of `st`. -/
def Freed (st st' : Storage) (D : List Handle) : Prop :=
  ∀ t, st'.freeIndices t =
    ((D.filter fun x => x.typeId = t).map (·.index)) ++ st.freeIndices t

/-- The slot `s` that `d` points at as seen by a slot `a` that lists `d` as a dependency: either
`d` is the asset in it and lists `a` back, or `d` is long gone and nothing depends on the slot. -/
def Lists (a d : Handle) (s : Slot) : Prop :=
  (s.generation = d.generation ∧ a ∈ s.dependents) ∨
    (s.generation ≠ d.generation ∧ nextGeneration s.generation ≠ d.generation ∧ s.dependents = [])

/-- Dependencies and dependents mirror each other, except for the slots in `X`, which may have let
go of some of their dependencies. -/
structure Linked (X : Handle → Prop) (st : Storage) : Prop where
  valid : ∀ {a sa d}, st.getSlot a = some sa → d ∈ sa.dependencies → d.isValid = true
  nodup : ∀ {a sa}, st.getSlot a = some sa → sa.dependencies.Nodup
  forth : ∀ {a sa d s}, ¬ X a → st.getSlot a = some sa → d ∈ sa.dependencies →
    st.slotAt d.slotId = some s → Lists a d s
  back : ∀ {id s z}, st.slotAt id = some s → z ∈ s.dependents →
    ∃ sz, st.getSlot z = some sz ∧ id.handle s ∈ sz.dependencies

def edges (st : Storage) : Set (Handle × Handle) :=
  {e | ∃ s, st.getSlot e.2 = some s ∧ e.1 ∈ s.dependents}

/-- Induction over `D` along the dependents: `P` holds of all of `D` if it holds of each handle whose
dependents in `D` have it. -/
def Ranked (st : Storage) (D : List Handle) : Prop :=
  ∀ P : Handle → Prop, (∀ x ∈ D, ∀ s, st.getSlot x = some s → (∀ z ∈ s.dependents, z ∈ D → P z) →
    P x) → ∀ x ∈ D, P x

/-- What can be said of the handles `D` that a call destroys. -/
structure Unloads (M X : Handle → Prop) (st : Storage) (D : List Handle) (h : Handle)
    (ds : List Handle) : Prop where
  nodup : D.Nodup
  mortal : ∀ x ∈ D, M x
  unrelated : ∀ x ∈ D, ¬ X x
  slot : ∀ x ∈ D, ∃ s, st.getSlot x = some s ∧ s.pinCount = 0 ∧ s.dependents ≠ [] ∧
    ∀ z ∈ s.dependents, z ∈ D ∨ (z = h ∧ x ∈ ds)
  ranked : Ranked st D

/-- What a slot `h` under destruction needs in order to let go of `ds`. -/
structure Detachable (M X : Handle → Prop) (st : Storage) (h : Handle) (ds : List Handle) :
    Prop where
  linked : Linked X st
  root : X h
  nodup : ds.Nodup
  valid : ∀ d ∈ ds, d.isValid = true
  lists : ∀ d ∈ ds, ∀ s, st.slotAt d.slotId = some s → Lists h d s
  mortal : ∀ d ∈ ds, ∀ s, st.getSlot d = some s → s.pinCount = 0 →
    (∀ z ∈ s.dependents, M z ∨ X z) → M d
  closed : ∀ y sy, M y → ¬ X y → st.getSlot y = some sy → ∀ d ∈ sy.dependencies, ∀ s,
    st.getSlot d = some s → s.pinCount = 0 → (∀ z ∈ s.dependents, M z ∨ X z) → M d
  stuck : ∀ x, X x → ∀ s, st.getSlot x = some s →
    s.pinCount ≠ 0 ∨ s.dependents = [] ∨ ∃ z ∈ s.dependents, ¬ M z ∧ ¬ X z

section Detached

variable {st st' : Storage} {D : List Handle} {h : Handle} {ds : List Handle}

lemma Detached.getSlot_of_not_mem (e : Detached st st' D h ds) {y : Handle} {s : Slot}
    (hs : st.getSlot y = some s) (hy : y ∉ D) : st'.getSlot y = some (s.detach D h ds y) := by
  obtain ⟨hv, hat, hg⟩ := getSlot_eq_some.mp hs
  have hh : y.slotId.handle s = y := Handle.handle_eq hg
  refine getSlot_eq_some.mpr ⟨hv, ?_, ?_⟩
  · rw [e.slots, hat, Option.map_some, hh]
  · simp [Slot.detach, hy, hg]

lemma Detached.getSlot_of_mem (e : Detached st st' D h ds) {y : Handle} {s : Slot}
    (hs : st.getSlot y = some s) (hy : y ∈ D) : st'.getSlot y = none := by
  obtain ⟨hv, hat, hg⟩ := getSlot_eq_some.mp hs
  have hh : y.slotId.handle s = y := Handle.handle_eq hg
  cases e' : st'.getSlot y with
  | none => rfl
  | some s' =>
    obtain ⟨_, hat', hg'⟩ := getSlot_eq_some.mp e'
    rw [e.slots, hat, Option.map_some, hh] at hat'
    simp only [Slot.detach, hy, if_true, Option.some.injEq] at hat'
    subst hat'
    exact absurd (hg'.trans hg.symm) (nextGeneration_ne_self _)

lemma Detached.getSlot_cases (e : Detached st st' D h ds) {y : Handle} {s' : Slot}
    (hs' : st'.getSlot y = some s') :
    (∃ s, st.getSlot y = some s ∧ y ∉ D ∧ s' = s.detach D h ds y) ∨
    (∃ s, st.slotAt y.slotId = some s ∧ y.slotId.handle s ∈ D ∧ s' = s.reset) := by
  obtain ⟨hv, hat', hg'⟩ := getSlot_eq_some.mp hs'
  rw [e.slots] at hat'
  obtain ⟨s, hat, rfl⟩ := Option.map_eq_some_iff.mp hat'
  by_cases hm : y.slotId.handle s ∈ D
  · right
    exact ⟨s, hat, hm, by simp [Slot.detach, hm]⟩
  · left
    have hg : s.generation = y.generation := by
      rw [← hg']
      simp [Slot.detach, hm]
    have hh : y.slotId.handle s = y := Handle.handle_eq hg
    rw [hh] at hm ⊢
    exact ⟨s, getSlot_eq_some.mpr ⟨hv, hat, hg⟩, hm, rfl⟩

lemma Detached.getSlot_of_dependents (e : Detached st st' D h ds) {y : Handle} {s' : Slot}
    (hs' : st'.getSlot y = some s') (hd : s'.dependents ≠ []) :
    ∃ s, st.getSlot y = some s ∧ y ∉ D ∧ s' = s.detach D h ds y := by
  rcases e.getSlot_cases hs' with hcase | ⟨s, _, _, rfl⟩
  · exact hcase
  · exact absurd rfl hd

lemma Detached.getSlot_of_dependency (e : Detached st st' D h ds) {y : Handle} {s' : Slot}
    {d : Handle} (hs' : st'.getSlot y = some s') (hd : d ∈ s'.dependencies) :
    ∃ s, st.getSlot y = some s ∧ y ∉ D ∧ s' = s.detach D h ds y := by
  rcases e.getSlot_cases hs' with hcase | ⟨s, _, _, rfl⟩
  · exact hcase
  · exact absurd hd (by simp [Slot.reset])

lemma evicts_nil (st : Storage) (t : TypeId) (p : Path) (x : Handle) :
    st.evicts [] t p x = false := by
  simp [evicts]

lemma Detached.refl (st : Storage) (h : Handle) : Detached st st [] h [] where
  slots id := by
    cases st.slotAt id with
    | none => rfl
    | some s => simp [Slot.detach]
  cache t p := by
    simp only [evicts_nil, Bool.not_false]
    cases st.pathCache t p <;> rfl
  destroyed x := by simp
  hasDestroy _ := rfl
  slotIds _ := rfl
  hasBucket _ := rfl

end Detached

section Preservation

variable {M X : Handle → Prop} {st st' st₁ st₂ : Storage} {D D₁ D₂ : List Handle} {h : Handle}
  {ds ds₁ ds₂ : List Handle}

lemma Unloads.not_mem (u : Unloads M X st D h ds) {id : SlotId} {s : Slot}
    (hs : st.slotAt id = some s) (hd : s.dependents = []) : id.handle s ∉ D := by
  intro hm
  obtain ⟨s', hs', _, hne, _⟩ := u.slot _ hm
  obtain ⟨_, hat, _⟩ := getSlot_eq_some.mp hs'
  rw [SlotId.handle_slotId, hs] at hat
  cases hat
  exact hne hd

lemma Linked.detached (linked : Linked X st) (e : Detached st st' D h ds)
    (u : Unloads M X st D h ds) (root : X h) : Linked X st' where
  valid := by
    intro a sa d ha hd
    obtain ⟨s, hs, hm, rfl⟩ := e.getSlot_of_dependency ha hd
    simp only [Slot.detach, if_neg hm] at hd
    exact linked.valid hs hd
  nodup := by
    intro a sa ha
    rcases e.getSlot_cases ha with ⟨s, hs, hm, rfl⟩ | ⟨s, _, _, rfl⟩
    · simp only [Slot.detach, if_neg hm]
      exact linked.nodup hs
    · exact List.nodup_nil
  forth := by
    intro a sa d s' hX ha hd hs'
    obtain ⟨sa₀, ha₀, hm, rfl⟩ := e.getSlot_of_dependency ha hd
    simp only [Slot.detach, if_neg hm] at hd
    rw [e.slots] at hs'
    obtain ⟨s, hs, rfl⟩ := Option.map_eq_some_iff.mp hs'
    rcases linked.forth hX ha₀ hd hs with ⟨hg, hmem⟩ | ⟨hg, hn, hnil⟩
    · rw [Handle.handle_eq hg]
      by_cases hdD : d ∈ D
      · obtain ⟨s₀, hs₀, _, _, hz⟩ := u.slot d hdD
        obtain ⟨_, hat, _⟩ := getSlot_eq_some.mp hs₀
        rw [hs] at hat
        cases hat
        rcases hz a hmem with haD | ⟨rfl, _⟩
        · exact absurd haD hm
        · exact absurd root hX
      · left
        simp only [Slot.detach, if_neg hdD]
        refine ⟨hg, List.mem_filter.mpr ⟨hmem, ?_⟩⟩
        have hne : a ≠ h := by
          rintro rfl
          exact hX root
        simp [hm, hne]
    · right
      simp only [Slot.detach, if_neg (u.not_mem hs hnil)]
      exact ⟨hg, hn, by simp [hnil]⟩
  back := by
    intro id s' z hs' hz
    rw [e.slots] at hs'
    obtain ⟨s, hs, rfl⟩ := Option.map_eq_some_iff.mp hs'
    by_cases hm : id.handle s ∈ D
    · simp [Slot.detach, if_pos hm, Slot.reset] at hz
    · simp only [Slot.detach, if_neg hm, List.mem_filter, decide_eq_true_eq] at hz ⊢
      obtain ⟨hz, hzD, _⟩ := hz
      obtain ⟨sz, hsz, hmem⟩ := linked.back hs hz
      refine ⟨_, e.getSlot_of_not_mem hsz hzD, ?_⟩
      simp only [Slot.detach, if_neg hzD]
      exact hmem

lemma Detached.edges_subset (e : Detached st st' D h ds) : st'.edges ⊆ st.edges := by
  rintro ⟨z, d⟩ ⟨s', hs', hz⟩
  obtain ⟨s, hs, hm, rfl⟩ := e.getSlot_of_dependents hs' (List.ne_nil_of_mem hz)
  simp only [Slot.detach, if_neg hm, List.mem_filter] at hz
  exact ⟨s, hs, hz.1⟩

lemma Unloads.before (u₂ : Unloads M X st₁ D₂ h ds₂) (e₁ : Detached st st₁ D₁ h ds₁) {x : Handle}
    (hx : x ∈ D₂) :
    ∃ s, st.getSlot x = some s ∧ x ∉ D₁ ∧ st₁.getSlot x = some (s.detach D₁ h ds₁ x) := by
  obtain ⟨s₁, hs₁, _, hne, _⟩ := u₂.slot x hx
  obtain ⟨s, hs, hm, rfl⟩ := e₁.getSlot_of_dependents hs₁ hne
  exact ⟨s, hs, hm, hs₁⟩

lemma Detached.trans (e₁ : Detached st st₁ D₁ h ds₁) (e₂ : Detached st₁ st₂ D₂ h ds₂)
    (u₂ : Unloads M X st₁ D₂ h ds₂) : Detached st st₂ (D₂ ++ D₁) h (ds₁ ++ ds₂) where
  slots := by
    intro id
    rw [e₂.slots, e₁.slots, Option.map_map]
    cases hs : st.slotAt id with
    | none => rfl
    | some s =>
      simp only [Option.map_some, Function.comp_apply, Option.some.injEq]
      by_cases h₁ : id.handle s ∈ D₁
      · have hreset : id.handle s.reset ∉ D₂ := by
          apply u₂.not_mem (s := s.reset)
          · rw [e₁.slots, hs]
            simp [Slot.detach, h₁]
          · rfl
        rw [Slot.detach_of_mem h₁, Slot.detach_of_mem (List.mem_append_right _ h₁),
          Slot.detach_of_not_mem hreset]
        rfl
      · have hh : id.handle (s.detach D₁ h ds₁ (id.handle s)) = id.handle s := by
          rw [Slot.detach_of_not_mem h₁]
          rfl
        rw [hh]
        by_cases h₂ : id.handle s ∈ D₂
        · rw [Slot.detach_of_mem h₂, Slot.detach_of_mem (List.mem_append_left _ h₂),
            Slot.detach_of_not_mem h₁]
          rfl
        · simp only [Slot.detach, h₁, h₂, if_false, List.mem_append, or_self,
            List.filter_filter, Slot.mk.injEq, true_and]
          apply List.filter_congr
          intro z _
          simp only [decide_eq_decide, ← Bool.decide_and]
          tauto
  cache := by
    intro t p
    rw [e₂.cache, e₁.cache, Option.filter_filter]
    congr 1
    funext x
    have key : st.evicts (D₂ ++ D₁) t p x = (st.evicts D₁ t p x || st₁.evicts D₂ t p x) := by
      by_cases h₂ : x ∈ D₂
      · obtain ⟨s, hs, h₁, hs₁⟩ := u₂.before e₁ h₂
        simp [evicts, h₂, h₁, hs, hs₁, Slot.detach]
      · simp [evicts, h₂]
    rw [key, Bool.not_or]
  destroyed := by
    intro x
    rw [e₂.destroyed, e₁.destroyed]
    by_cases h₂ : x ∈ D₂
    · obtain ⟨s, hs, h₁, hs₁⟩ := u₂.before e₁ h₂
      have hdue : st₁.callbackDue x = st.callbackDue x := by
        simp [callbackDue, hs, hs₁, e₁.hasDestroy, Slot.detach, h₁]
      simp [h₁, h₂, hdue]
    · simp [h₂]
  hasDestroy := by
    intro t
    rw [e₂.hasDestroy, e₁.hasDestroy]
  slotIds := by
    intro t
    rw [e₂.slotIds, e₁.slotIds]
  hasBucket := by
    intro t
    rw [e₂.hasBucket, e₁.hasBucket]

lemma Unloads.trans (u₁ : Unloads M X st D₁ h ds₁) (e₁ : Detached st st₁ D₁ h ds₁)
    (u₂ : Unloads M X st₁ D₂ h ds₂) (root : X h) : Unloads M X st (D₂ ++ D₁) h (ds₁ ++ ds₂) where
  nodup := by
    refine List.nodup_append.mpr ⟨u₂.nodup, u₁.nodup, ?_⟩
    rintro x h₂ y h₁ rfl
    obtain ⟨_, _, hn, _⟩ := u₂.before e₁ h₂
    exact hn h₁
  mortal := by
    intro x hx
    rcases List.mem_append.mp hx with h₂ | h₁
    · exact u₂.mortal x h₂
    · exact u₁.mortal x h₁
  unrelated := by
    intro x hx
    rcases List.mem_append.mp hx with h₂ | h₁
    · exact u₂.unrelated x h₂
    · exact u₁.unrelated x h₁
  slot := by
    intro x hx
    rcases List.mem_append.mp hx with h₂ | h₁
    · obtain ⟨s, hs, hn, hs₁⟩ := u₂.before e₁ h₂
      obtain ⟨s₁, hs₁', hp, hne, hz⟩ := u₂.slot x h₂
      rw [hs₁] at hs₁'
      cases hs₁'
      simp only [Slot.detach, if_neg hn] at hp hne hz
      refine ⟨s, hs, hp, ?_, ?_⟩
      · intro hnil
        simp [hnil] at hne
      · intro z hmem
        by_cases hzD : z ∉ D₁ ∧ ¬ (z = h ∧ x ∈ ds₁)
        · rcases hz z (List.mem_filter.mpr ⟨hmem, decide_eq_true hzD⟩) with hm | ⟨e, hm⟩
          · exact Or.inl (List.mem_append_left _ hm)
          · exact Or.inr ⟨e, List.mem_append_right _ hm⟩
        · by_cases hz₁ : z ∈ D₁
          · exact Or.inl (List.mem_append_right _ hz₁)
          · have hzx : z = h ∧ x ∈ ds₁ := by
              by_contra hc
              exact hzD ⟨hz₁, hc⟩
            exact Or.inr ⟨hzx.1, List.mem_append_left _ hzx.2⟩
    · obtain ⟨s, hs, hp, hne, hz⟩ := u₁.slot x h₁
      refine ⟨s, hs, hp, hne, ?_⟩
      intro z hmem
      rcases hz z hmem with hm | ⟨e, hm⟩
      · exact Or.inl (List.mem_append_right _ hm)
      · exact Or.inr ⟨e, List.mem_append_left _ hm⟩
  ranked := by
    intro P step
    -- what the first call destroys depends on nothing the second one destroys
    have first : ∀ x ∈ D₁, P x := by
      refine u₁.ranked P fun x hx s hs hP => ?_
      refine step x (List.mem_append_right _ hx) s hs fun z hz hzD => ?_
      rcases List.mem_append.mp hzD with h₂ | h₁
      · obtain ⟨s', hs', _, _, hmem⟩ := u₁.slot x hx
        rw [hs] at hs'
        cases hs'
        obtain ⟨_, _, hn, _⟩ := u₂.before e₁ h₂
        rcases hmem z hz with hm | ⟨rfl, _⟩
        · exact absurd hm hn
        · exact absurd root (u₂.unrelated z h₂)
      · exact hP z hz h₁
    have second : ∀ x ∈ D₂, P x := by
      refine u₂.ranked P fun x hx s₁ hs₁ hP => ?_
      obtain ⟨s, hs, hn, hs₁'⟩ := u₂.before e₁ hx
      rw [hs₁] at hs₁'
      cases hs₁'
      refine step x (List.mem_append_left _ hx) s hs fun z hz hzD => ?_
      rcases List.mem_append.mp hzD with h₂ | h₁
      · refine hP z ?_ h₂
        obtain ⟨_, _, hz₁, _⟩ := u₂.before e₁ h₂
        have hzh : z ≠ h := by
          rintro rfl
          exact u₂.unrelated z h₂ root
        rw [Slot.detach_of_not_mem hn]
        exact List.mem_filter.mpr ⟨hz, by simp [hz₁, hzh]⟩
      · exact first z h₁
    intro x hx
    rcases List.mem_append.mp hx with h₂ | h₁
    · exact second x h₂
    · exact first x h₁

lemma Freed.trans (f₁ : Freed st st₁ D₁) (f₂ : Freed st₁ st₂ D₂) : Freed st st₂ (D₂ ++ D₁) := by
  intro t
  rw [f₂ t, f₁ t]
  simp

end Preservation

section Recursion

variable {M X : Handle → Prop} {st st' st₁ : Storage} {D : List Handle} {h d : Handle}
  {ds : List Handle}

lemma Unloads.nil (M X : Handle → Prop) (st : Storage) (h : Handle) (ds : List Handle) :
    Unloads M X st [] h ds := by
  constructor <;> simp [Ranked]

lemma Freed.nil {st st' : Storage} (e : ∀ t, st'.freeIndices t = st.freeIndices t) :
    Freed st st' [] := by
  intro t
  simp [e]

lemma Detached.skip (hv : d.isValid = true) (hd : st.getSlot d = none) :
    Detached st st [] h [d] := by
  refine { Detached.refl st h with slots := ?_ }
  intro id
  cases hs : st.slotAt id with
  | none => rfl
  | some s =>
    have hne : id.handle s ≠ d := by
      rintro rfl
      rw [getSlot_eq_some.mpr ⟨hv, hs, rfl⟩] at hd
      cases hd
    simp [Slot.detach, hne]

lemma Detached.drop {s : Slot} (hd : st.getSlot d = some s) :
    Detached st (st.modifySlot d.slotId (Slot.removeDependent h)) [] h [d] := by
  obtain ⟨_, hat, hg⟩ := getSlot_eq_some.mp hd
  refine { Detached.refl st h with
    slots := ?_, hasDestroy := by simp, slotIds := by simp, hasBucket := by simp }
  intro id
  rw [slotAt_modifySlot]
  by_cases hid : d.slotId = id
  · subst hid
    rw [hat, if_pos rfl, Option.map_some, Option.map_some, Handle.handle_eq hg]
    simp [Slot.detach, Slot.removeDependent]
  · rw [if_neg hid]
    cases hs : st.slotAt id with
    | none => rfl
    | some s' =>
      have hne : id.handle s' ≠ d := by
        rintro rfl
        exact hid rfl
      simp [Slot.detach, hne]

lemma Linked.congr (linked : Linked X st) (e : ∀ id, st'.slotAt id = st.slotAt id) :
    Linked X st' := by
  have eg : ∀ y, st'.getSlot y = st.getSlot y := fun y => getSlot_congr (e _)
  constructor
  · intro a sa d ha hd
    exact linked.valid (eg a ▸ ha) hd
  · intro a sa ha
    exact linked.nodup (eg a ▸ ha)
  · intro a sa d s hX ha hd hs
    exact linked.forth hX (eg a ▸ ha) hd (e d.slotId ▸ hs)
  · intro id s z hs hz
    obtain ⟨sz, hsz, hm⟩ := linked.back (e id ▸ hs) hz
    exact ⟨sz, (eg z).trans hsz, hm⟩

lemma Detachable.congr (pre : Detachable M X st h ds)
    (e : ∀ id, st'.slotAt id = st.slotAt id) : Detachable M X st' h ds := by
  have eg : ∀ y, st'.getSlot y = st.getSlot y := fun y => getSlot_congr (e _)
  refine ⟨pre.linked.congr e, pre.root, pre.nodup, pre.valid, ?_, ?_, ?_, ?_⟩
  · intro d hd s hs
    exact pre.lists d hd s (e _ ▸ hs)
  · intro d hd s hs
    exact pre.mortal d hd s (eg d ▸ hs)
  · intro y sy hM hX hy d hd s hs
    exact pre.closed y sy hM hX (eg y ▸ hy) d hd s (eg d ▸ hs)
  · intro x hx s hs
    exact pre.stuck x hx s (eg x ▸ hs)

lemma edges_congr (e : ∀ id, st'.slotAt id = st.slotAt id) : st'.edges = st.edges := by
  have eg : ∀ y, st'.getSlot y = st.getSlot y := fun y => getSlot_congr (e _)
  ext ⟨z, d⟩
  simp [edges, eg]

lemma Lists.not_next {a d : Handle} {s : Slot} (hl : Lists a d s) :
    nextGeneration s.generation ≠ d.generation := by
  rcases hl with ⟨hg, _⟩ | ⟨_, hn, _⟩
  · rw [← hg]
    exact nextGeneration_ne_self _
  · exact hn

lemma Detached.getSlot_of_lists (e : Detached st st' D h ds) {a y : Handle} {s' : Slot}
    (hl : ∀ s, st.slotAt y.slotId = some s → Lists a y s) (hs' : st'.getSlot y = some s') :
    ∃ s, st.getSlot y = some s ∧ y ∉ D ∧ s' = s.detach D h ds y := by
  rcases e.getSlot_cases hs' with hcase | ⟨s, hs, _, rfl⟩
  · exact hcase
  · obtain ⟨_, _, hg⟩ := getSlot_eq_some.mp hs'
    exact absurd hg (hl s hs).not_next

lemma Unloads.dependents_before (u : Unloads M X st D h ds) (root : X h) {y : Handle} {s : Slot}
    (hy : y ∉ D)
    (hz : ∀ z ∈ (s.detach D h ds y).dependents, M z ∨ X z) : ∀ z ∈ s.dependents, M z ∨ X z := by
  intro z hmem
  by_cases hzD : z ∈ D
  · exact Or.inl (u.mortal z hzD)
  · by_cases hzh : z = h
    · exact Or.inr (hzh ▸ root)
    · apply hz
      rw [Slot.detach_of_not_mem hy]
      exact List.mem_filter.mpr ⟨hmem, by simp [hzD, hzh]⟩

lemma Detachable.next (pre : Detachable M X st h (d :: ds)) (e : Detached st st₁ D h [d])
    (u : Unloads M X st D h [d]) : Detachable M X st₁ h ds where
  linked := pre.linked.detached e u pre.root
  root := pre.root
  nodup := (List.nodup_cons.mp pre.nodup).2
  valid d' hd' := pre.valid d' (List.mem_cons_of_mem _ hd')
  lists := by
    intro d' hd' s' hs'
    have hne : d' ≠ d := by
      rintro rfl
      exact (List.nodup_cons.mp pre.nodup).1 hd'
    have hh : h ∉ D := fun hm => u.unrelated h hm pre.root
    rw [e.slots] at hs'
    obtain ⟨s, hs, rfl⟩ := Option.map_eq_some_iff.mp hs'
    rcases pre.lists d' (List.mem_cons_of_mem _ hd') s hs with ⟨hg, hmem⟩ | ⟨hg, hn, hnil⟩
    · rw [Handle.handle_eq hg]
      have hd'D : d' ∉ D := by
        intro hm
        obtain ⟨s₀, hs₀, _, _, hz⟩ := u.slot d' hm
        obtain ⟨_, hat, _⟩ := getSlot_eq_some.mp hs₀
        rw [hs] at hat
        cases hat
        rcases hz h hmem with hD | ⟨_, hd⟩
        · exact hh hD
        · exact hne (List.mem_singleton.mp hd)
      rw [Slot.detach_of_not_mem hd'D]
      left
      refine ⟨hg, List.mem_filter.mpr ⟨hmem, ?_⟩⟩
      simp [hh, hne]
    · rw [Slot.detach_of_not_mem (u.not_mem hs hnil)]
      right
      exact ⟨hg, hn, by simp [hnil]⟩
  mortal := by
    intro d' hd' s' hs' hp hz
    have hd'' := List.mem_cons_of_mem d hd'
    obtain ⟨s, hs, hm, rfl⟩ := e.getSlot_of_lists (pre.lists d' hd'') hs'
    rw [Slot.detach_of_not_mem hm] at hp
    exact pre.mortal d' hd'' s hs hp (u.dependents_before pre.root hm hz)
  closed := by
    intro y sy hM hX hy d' hd' s' hs' hp hz
    obtain ⟨sy₀, hy₀, hm, rfl⟩ := e.getSlot_of_dependency hy hd'
    rw [Slot.detach_of_not_mem hm] at hd'
    obtain ⟨s, hs, hm', rfl⟩ := e.getSlot_of_lists
      (fun s hs => pre.linked.forth hX hy₀ hd' hs) hs'
    rw [Slot.detach_of_not_mem hm'] at hp
    exact pre.closed y sy₀ hM hX hy₀ d' hd' s hs hp (u.dependents_before pre.root hm' hz)
  stuck := by
    intro x hx s' hs'
    rcases e.getSlot_cases hs' with ⟨s, hs, hm, rfl⟩ | ⟨s, _, _, rfl⟩
    · rw [Slot.detach_of_not_mem hm]
      rcases pre.stuck x hx s hs with hp | hnil | ⟨z, hz, hzM, hzX⟩
      · exact Or.inl hp
      · exact Or.inr (Or.inl (by simp [hnil]))
      · refine Or.inr (Or.inr ⟨z, List.mem_filter.mpr ⟨hz, ?_⟩, hzM, hzX⟩)
        have hzD : z ∉ D := fun hm => hzM (u.mortal z hm)
        have hzh : z ≠ h := by
          rintro rfl
          exact hzX pre.root
        simp [hzD, hzh]
    · exact Or.inr (Or.inl rfl)

end Recursion

/-- What `detachCommittedDependencies` answers: it only runs out of fuel when there are more
dependents entries than fuel. -/
def DetachOutcome (M X : Handle → Prop) (st : Storage) (h : Handle) (ds : List Handle)
    (fuel : Nat) : Option Storage → Prop
  | none => st.edges.Finite → fuel < st.edges.ncard
  | some st' => ∃ D, Detached st st' D h ds ∧ Freed st st' D ∧ Unloads M X st D h ds

def DestroyOutcome (M X : Handle → Prop) (st : Storage) (h : Handle) (ds : List Handle)
    (fuel : Nat) : Option Storage → Prop
  | none => st.edges.Finite → fuel ≤ st.edges.ncard
  | some st' => ∃ D, Detached st st' (h :: D) h [] ∧ Freed st st' D ∧ Unloads M X st D h ds

section Outcome

variable {M X : Handle → Prop} {st st' st₁ : Storage} {D : List Handle} {h d : Handle}
  {ds : List Handle} {fuel : Nat}

lemma Detachable.head (pre : Detachable M X st h (d :: ds)) : Detachable M X st h [d] where
  linked := pre.linked
  root := pre.root
  nodup := List.nodup_singleton d
  valid := by
    intro d' hd'
    rw [List.mem_singleton] at hd'
    exact pre.valid d' (hd' ▸ List.mem_cons_self)
  lists := by
    intro d' hd'
    rw [List.mem_singleton] at hd'
    exact pre.lists d' (hd' ▸ List.mem_cons_self)
  mortal := by
    intro d' hd'
    rw [List.mem_singleton] at hd'
    exact pre.mortal d' (hd' ▸ List.mem_cons_self)
  closed := pre.closed
  stuck := pre.stuck

lemma detachCommittedDependencies_of_step
    (step : ∀ st d, Detachable M X st h [d] →
      DetachOutcome M X st h [d] fuel (detachDependency (destroySlot fuel) h st d)) :
    ∀ ds st, Detachable M X st h ds →
      DetachOutcome M X st h ds fuel (detachCommittedDependencies (destroySlot fuel) st h ds) := by
  intro ds
  induction ds with
  | nil =>
    intro st _
    exact ⟨[], Detached.refl st h, Freed.nil fun _ => rfl, Unloads.nil M X st h []⟩
  | cons d ds ih =>
    intro st pre
    have head := step st d pre.head
    rw [detachCommittedDependencies, List.foldlM_cons]
    cases e₁ : detachDependency (destroySlot fuel) h st d with
    | none =>
      rw [e₁] at head
      exact head
    | some st₁ =>
      rw [e₁] at head
      obtain ⟨D₁, eff₁, freed₁, un₁⟩ := head
      have tail := ih st₁ (pre.next eff₁ un₁)
      rw [Option.bind_eq_bind, Option.bind_some]
      rw [detachCommittedDependencies] at tail
      cases e₂ : ds.foldlM (detachDependency (destroySlot fuel) h) st₁ with
      | none =>
        rw [e₂] at tail
        intro fin
        have hle := Set.ncard_le_ncard eff₁.edges_subset fin
        exact lt_of_lt_of_le (tail (fin.subset eff₁.edges_subset)) hle
      | some st₂ =>
        rw [e₂] at tail
        obtain ⟨D₂, eff₂, freed₂, un₂⟩ := tail
        exact ⟨D₂ ++ D₁, eff₁.trans eff₂ un₂, freed₁.trans freed₂, un₁.trans eff₁ un₂ pre.root⟩

lemma Unloads.root_not_mem (u : Unloads M X st D h ds) (root : X h) : h ∉ D :=
  fun hm => u.unrelated h hm root

lemma getSlot_eq_slotAt {s s' : Slot} (hs : st.slotAt h.slotId = some s)
    (hs' : st.getSlot h = some s') : s' = s := by
  obtain ⟨_, hat, _⟩ := getSlot_eq_some.mp hs'
  rw [hs] at hat
  exact (Option.some.inj hat).symm

lemma evicts_root {s : Slot} (hs : st.slotAt h.slotId = some s) (hg : s.generation = h.generation)
    (hv : h.isValid = true ∨ (s.constructed = false ∧ s.path = [])) (hD : h ∉ D) (t : TypeId)
    (p : Path) (x : Handle) :
    st.evicts (h :: D) t p x = (st.evicts D t p x ||
      (decide (x = h) && decide (h.typeId = t) && decide (p ≠ []) && decide (s.path = p))) := by
  by_cases hx : x = h
  · subst hx
    rcases hv with hv | ⟨_, hp⟩
    · simp [evicts, hD, getSlot_eq_some.mpr ⟨hv, hs, hg⟩]
    · by_cases hp' : p = []
      · simp [evicts, hp']
      · have hp'' : ¬ [] = p := fun e => hp' e.symm
        cases hget : st.getSlot x with
        | none => simp [evicts, hget, hp, hp'']
        | some s' =>
          rw [getSlot_eq_slotAt hs hget] at hget
          simp [evicts, hget, hp, hp'']
  · simp [evicts, hx]

lemma callbackDue_root {s : Slot} (hs : st.slotAt h.slotId = some s)
    (hg : s.generation = h.generation)
    (hv : h.isValid = true ∨ (s.constructed = false ∧ s.path = [])) :
    st.callbackDue h = (s.constructed && st.hasDestroy h.typeId) := by
  rcases hv with hv | ⟨hcon, _⟩
  · simp [callbackDue, getSlot_eq_some.mpr ⟨hv, hs, hg⟩]
  · cases hget : st.getSlot h with
    | none => simp [callbackDue, hget, hcon]
    | some s' =>
      rw [getSlot_eq_slotAt hs hget] at hget
      simp [callbackDue, hget]

lemma Detached.destroyRoot {s : Slot} (hs : st.slotAt h.slotId = some s)
    (hg : s.generation = h.generation)
    (hv : h.isValid = true ∨ (s.constructed = false ∧ s.path = []))
    (linked : Linked X st) (root : X h)
    (e : Detached ((st.eraseIfMatches h s.path).runDestroyCallback h s) st₁ D h s.dependencies)
    (u : Unloads M X ((st.eraseIfMatches h s.path).runDestroyCallback h s) D h s.dependencies) :
    Detached st (st₁.modifySlot h.slotId Slot.reset) (h :: D) h [] where
  slots := by
    intro id
    have hD := u.root_not_mem root
    rw [slotAt_modifySlot, e.slots, slotAt_runDestroyCallback, slotAt_eraseIfMatches]
    by_cases hid : h.slotId = id
    · subst hid
      rw [if_pos rfl, hs, Option.map_some, Option.map_some, Option.map_some, Handle.handle_eq hg,
        Slot.detach_of_not_mem hD, Slot.detach_of_mem List.mem_cons_self]
      rfl
    · rw [if_neg hid]
      cases hs' : st.slotAt id with
      | none => rfl
      | some s' =>
        have hne : id.handle s' ≠ h := fun e => hid (e ▸ rfl)
        rw [Option.map_some, Option.map_some]
        by_cases hm : id.handle s' ∈ D
        · rw [Slot.detach_of_mem hm, Slot.detach_of_mem (List.mem_cons_of_mem _ hm)]
        · have hm' : id.handle s' ∉ h :: D := by simp [hne, hm]
          rw [Slot.detach_of_not_mem hm, Slot.detach_of_not_mem hm']
          congr 2
          apply List.filter_congr
          intro z hz
          rw [decide_eq_decide]
          constructor
          · rintro ⟨hzD, hzh⟩
            have hzne : z ≠ h := by
              rintro rfl
              obtain ⟨sz, hsz, hmem⟩ := linked.back hs' hz
              obtain ⟨_, hat, _⟩ := getSlot_eq_some.mp hsz
              rw [hs] at hat
              cases hat
              exact hzh ⟨rfl, hmem⟩
            simp [hzD, hzne]
          · rintro ⟨hzD, _⟩
            simp only [List.mem_cons, not_or] at hzD
            exact ⟨hzD.2, fun hc => hzD.1 hc.1⟩
  cache := by
    intro t p
    have hD := u.root_not_mem root
    have hev : ∀ x, ((st.eraseIfMatches h s.path).runDestroyCallback h s).evicts D t p x =
        st.evicts D t p x := by
      intro x
      simp [evicts]
    rw [show (st₁.modifySlot h.slotId Slot.reset).pathCache = st₁.pathCache from rfl, e.cache,
      pathCache_runDestroyCallback, pathCache_eraseIfMatches, Option.filter_filter]
    congr 1
    funext x
    rw [hev, evicts_root hs hg hv hD, Bool.not_or, Bool.and_comm]
  destroyed := by
    intro x
    have hD := u.root_not_mem root
    have hdue : ∀ y, ((st.eraseIfMatches h s.path).runDestroyCallback h s).callbackDue y =
        st.callbackDue y := by
      intro y
      simp [callbackDue]
    rw [destroyed_modifySlot, e.destroyed, hdue]
    unfold runDestroyCallback
    by_cases hx : x = h
    · subst hx
      simp only [hD, false_and, if_false, callbackDue_root hs hg hv, hasDestroy_eraseIfMatches,
        List.mem_cons_self, true_and]
      by_cases hc : (s.constructed && st.hasDestroy x.typeId) = true
      · simp [hc]
      · simp [hc]
    · have hx' : ¬ h = x := fun e => hx e.symm
      by_cases hc : (s.constructed && st.hasDestroy h.typeId) = true
      · simp [hc, hx, hx']
      · simp [hc, hx]
  hasDestroy := by
    intro t
    simp [e.hasDestroy]
  slotIds := by
    intro t
    simp [e.slotIds]
  hasBucket := by
    intro t
    rw [isSome_buckets_modifySlot, e.hasBucket, buckets_runDestroyCallback,
      buckets_eraseIfMatches]

lemma destroySlot_of_loop {s : Slot} (hs : st.slotAt h.slotId = some s)
    (hg : s.generation = h.generation)
    (hv : h.isValid = true ∨ (s.constructed = false ∧ s.path = []))
    (pre : Detachable M X st h s.dependencies)
    (loop : ∀ st, Detachable M X st h s.dependencies → DetachOutcome M X st h s.dependencies fuel
      (detachCommittedDependencies (destroySlot fuel) st h s.dependencies)) :
    DestroyOutcome M X st h s.dependencies (fuel + 1) (destroySlot (fuel + 1) st h) := by
  have same : ∀ id, ((st.eraseIfMatches h s.path).runDestroyCallback h s).slotAt id =
      st.slotAt id := by
    intro id
    simp
  have hget : ∀ y, ((st.eraseIfMatches h s.path).runDestroyCallback h s).getSlot y =
      st.getSlot y := fun y => getSlot_congr (same _)
  have out := loop _ (pre.congr same)
  simp only [destroySlot, hs]
  cases e₁ : detachCommittedDependencies (destroySlot fuel)
      ((st.eraseIfMatches h s.path).runDestroyCallback h s) h s.dependencies with
  | none =>
    rw [e₁] at out
    intro fin
    rw [← edges_congr same] at fin ⊢
    exact out fin
  | some st₁ =>
    rw [e₁] at out
    obtain ⟨D, eff, freed, un⟩ := out
    refine ⟨D, Detached.destroyRoot hs hg hv pre.linked pre.root eff un, ?_, ?_⟩
    · intro t
      rw [freeIndices_modifySlot, freed t, freeIndices_runDestroyCallback,
        freeIndices_eraseIfMatches]
    · refine ⟨un.nodup, un.mortal, un.unrelated, ?_, ?_⟩
      · intro x hx
        obtain ⟨s', hs', hrest⟩ := un.slot x hx
        exact ⟨s', hget x ▸ hs', hrest⟩
      · intro P step
        exact un.ranked P fun x hx s' hs' => step x hx s' (hget x ▸ hs')

lemma getSlot_removeDependent (st : Storage) (id : SlotId) (h y : Handle) :
    (st.modifySlot id (Slot.removeDependent h)).getSlot y =
      if id = y.slotId then (st.getSlot y).map (Slot.removeDependent h) else st.getSlot y :=
  getSlot_modifySlot (f := Slot.removeDependent h) (fun _ => rfl) st id y

lemma evicts_removeDependent (st : Storage) (id : SlotId) (h : Handle) (D : List Handle)
    (t : TypeId) (p : Path) (x : Handle) :
    (st.modifySlot id (Slot.removeDependent h)).evicts D t p x = st.evicts D t p x := by
  unfold evicts
  rw [getSlot_removeDependent]
  split
  · cases st.getSlot x <;> simp [Slot.removeDependent]
  · rfl

lemma callbackDue_removeDependent (st : Storage) (id : SlotId) (h x : Handle) :
    (st.modifySlot id (Slot.removeDependent h)).callbackDue x = st.callbackDue x := by
  unfold callbackDue
  rw [getSlot_removeDependent, hasDestroy_modifySlot]
  split
  · cases st.getSlot x <;> simp [Slot.removeDependent]
  · rfl

lemma Detachable.not_stuck {s : Slot} (pre : Detachable M X st h [d]) (hd : st.getSlot d = some s)
    (hp : s.pinCount = 0) (hmem : h ∈ s.dependents)
    (hnil : (s.removeDependent h).dependents = []) : ¬ X d := by
  intro hX
  rcases pre.stuck d hX s hd with h₁ | h₁ | ⟨z, hz, _, hzX⟩
  · exact h₁ hp
  · simp [h₁] at hmem
  · have hzh : z ≠ h := by
      rintro rfl
      exact hzX pre.root
    have : z ∈ (s.removeDependent h).dependents :=
      List.mem_filter.mpr ⟨hz, by simpa using hzh⟩
    simp [hnil] at this

lemma Detachable.descend {s : Slot} (pre : Detachable M X st h [d]) (hd : st.getSlot d = some s)
    (hM : M d) (hX : ¬ X d) (hnil : (s.removeDependent h).dependents = []) :
    Detachable M (fun x => X x ∨ x = d) (st.modifySlot d.slotId (Slot.removeDependent h)) d
      s.dependencies := by
  obtain ⟨hv, hat, hg⟩ := getSlot_eq_some.mp hd
  have eff := Detached.drop (h := h) hd
  have un := Unloads.nil M X st h [d]
  have rest : Detachable M X (st.modifySlot d.slotId (Slot.removeDependent h)) h [] := pre.next eff un
  have hself : (st.modifySlot d.slotId (Slot.removeDependent h)).getSlot d =
      some (s.removeDependent h) := by
    rw [getSlot_removeDependent, if_pos rfl, hd]
    rfl
  have old : ∀ e ∈ s.dependencies, ∀ se,
      (st.modifySlot d.slotId (Slot.removeDependent h)).slotAt e.slotId = some se →
      Lists d e se := by
    intro e he se hse
    exact rest.linked.forth (a := d) hX hself he hse
  have less : ∀ {l : List Handle}, (∀ z ∈ l, M z ∨ X z ∨ z = d) → ∀ z ∈ l, M z ∨ X z := by
    intro l hz z hm
    rcases hz z hm with h₁ | h₁ | rfl
    · exact Or.inl h₁
    · exact Or.inr h₁
    · exact Or.inl hM
  refine ⟨?_, Or.inr rfl, pre.linked.nodup hd, fun e he => pre.linked.valid hd he, old, ?_, ?_, ?_⟩
  · exact { rest.linked with
      valid := rest.linked.valid, nodup := rest.linked.nodup, back := rest.linked.back
      forth := fun ha => rest.linked.forth fun hc => ha (Or.inl hc) }
  · intro e he se hse hpe hz
    exact rest.closed d _ hM hX hself e he se hse hpe (less hz)
  · intro y sy hMy hXy hy e he se hse hpe hz
    exact rest.closed y sy hMy (fun hc => hXy (Or.inl hc)) hy e he se hse hpe (less hz)
  · intro x hx sx hsx
    by_cases hxd : x = d
    · subst hxd
      rw [hself] at hsx
      cases hsx
      exact Or.inr (Or.inl hnil)
    · have hXx : X x := hx.resolve_right hxd
      rcases rest.stuck x hXx sx hsx with h₁ | h₁ | ⟨z, hz, hzM, hzX⟩
      · exact Or.inl h₁
      · exact Or.inr (Or.inl h₁)
      · refine Or.inr (Or.inr ⟨z, hz, hzM, ?_⟩)
        rintro (hc | rfl)
        · exact hzX hc
        · exact hzM hM

lemma edges_drop {s : Slot} (hd : st.getSlot d = some s) (hmem : h ∈ s.dependents) :
    (st.modifySlot d.slotId (Slot.removeDependent h)).edges ⊂ st.edges := by
  refine ⟨(Detached.drop hd).edges_subset, fun hsub => ?_⟩
  obtain ⟨s', hs', hm⟩ := hsub (show (h, d) ∈ st.edges from ⟨s, hd, hmem⟩)
  rw [getSlot_removeDependent, if_pos rfl, hd] at hs'
  cases hs'
  simp [Slot.removeDependent] at hm

lemma Detached.unload {s : Slot} {X' : Handle → Prop} (hd : st.getSlot d = some s)
    (hXX' : ∀ x, X x → X' x) (root : X h) (hX : ¬ X d) (hX' : X' d) (hM : M d) (hp : s.pinCount = 0)
    (hmem : h ∈ s.dependents) (hnil : (s.removeDependent h).dependents = [])
    (e : Detached (st.modifySlot d.slotId (Slot.removeDependent h)) st₁ (d :: D) d [])
    (u : Unloads M X' (st.modifySlot d.slotId (Slot.removeDependent h)) D d s.dependencies) :
    Detached st st₁ (d :: D) h [d] ∧ Unloads M X st (d :: D) h [d] := by
  have drop := Detached.drop (h := h) hd
  have hD : d ∉ D := u.root_not_mem hX'
  have only : ∀ z ∈ s.dependents, z = h := by
    intro z hz
    by_contra hne
    have : z ∈ (s.removeDependent h).dependents :=
      List.mem_filter.mpr ⟨hz, by simpa using hne⟩
    simp [hnil] at this
  have un : Unloads M X st (d :: D) h [d] := by
    have keep : ∀ x ∈ D, ∀ s₁, (st.modifySlot d.slotId (Slot.removeDependent h)).getSlot x =
        some s₁ → st.getSlot x = some s₁ := by
      intro x hx s₁ hs₁
      have hxd : x ≠ d := by
        rintro rfl
        exact hD hx
      obtain ⟨s₁', hs₁', _, hne₁, _⟩ := u.slot x hx
      rw [hs₁] at hs₁'
      cases hs₁'
      obtain ⟨s₀, hs₀, _, rfl⟩ := drop.getSlot_of_dependents hs₁ hne₁
      have hsame : s₀.detach [] h [d] x = s₀ := by simp [Slot.detach, hxd]
      rw [hs₀, hsame]
    refine ⟨List.nodup_cons.mpr ⟨hD, u.nodup⟩, ?_, ?_, ?_, ?_⟩
    · intro x hx
      rcases List.mem_cons.mp hx with rfl | hx
      · exact hM
      · exact u.mortal x hx
    · intro x hx
      rcases List.mem_cons.mp hx with rfl | hx
      · exact hX
      · exact fun hc => u.unrelated x hx (hXX' x hc)
    · intro x hx
      rcases List.mem_cons.mp hx with rfl | hxD
      · refine ⟨s, hd, hp, List.ne_nil_of_mem hmem, fun z hz => Or.inr ⟨only z hz, ?_⟩⟩
        exact List.mem_singleton_self x
      · obtain ⟨s₁, hs₁, hp₁, hne₁, hz₁⟩ := u.slot x hxD
        refine ⟨s₁, keep x hxD s₁ hs₁, hp₁, hne₁, fun z hz => Or.inl ?_⟩
        rcases hz₁ z hz with hm | ⟨rfl, _⟩
        · exact List.mem_cons_of_mem _ hm
        · exact List.mem_cons_self
    · intro P step
      have self : P d := by
        refine step d List.mem_cons_self s hd fun z hz hzD => ?_
        obtain rfl := only z hz
        rcases List.mem_cons.mp hzD with rfl | hzD
        · exact absurd root hX
        · exact absurd (hXX' z root) (u.unrelated z hzD)
      have rest : ∀ x ∈ D, P x := by
        refine u.ranked P fun x hx s₁ hs₁ hP => ?_
        refine step x (List.mem_cons_of_mem _ hx) s₁ (keep x hx s₁ hs₁) fun z hz hzD => ?_
        rcases List.mem_cons.mp hzD with rfl | hzD
        · exact self
        · exact hP z hz hzD
      intro x hx
      rcases List.mem_cons.mp hx with rfl | hx
      · exact self
      · exact rest x hx
  refine ⟨?_, un⟩
  refine ⟨?_, ?_, ?_, ?_, ?_, ?_⟩
  · intro id
    rw [e.slots, slotAt_modifySlot]
    by_cases hid : d.slotId = id
    · obtain ⟨_, hat, hg⟩ := getSlot_eq_some.mp hd
      subst hid
      have hg' : (s.removeDependent h).generation = d.generation := hg
      rw [if_pos rfl, hat, Option.map_some, Option.map_some, Option.map_some,
        Handle.handle_eq hg, Handle.handle_eq hg', Slot.detach_of_mem List.mem_cons_self,
        Slot.detach_of_mem List.mem_cons_self]
      rfl
    · rw [if_neg hid]
      congr 1
      funext s'
      have hne : id.handle s' ≠ d := fun hc => hid (hc ▸ rfl)
      simp [Slot.detach, hne]
  · intro t p
    rw [e.cache]
    congr 1
    funext x
    rw [evicts_removeDependent]
  · intro x
    rw [e.destroyed, callbackDue_removeDependent, destroyed_modifySlot]
  · intro t
    rw [e.hasDestroy, hasDestroy_modifySlot]
  · intro t
    rw [e.slotIds, slotIds_modifySlot]
  · intro t
    rw [e.hasBucket, isSome_buckets_modifySlot]

lemma detachDependency_of_destroySlot
    (ih : ∀ n, fuel = n + 1 → ∀ X st h ds, Detachable M X st h ds →
      DetachOutcome M X st h ds n (detachCommittedDependencies (destroySlot n) st h ds))
    (pre : Detachable M X st h [d]) :
    DetachOutcome M X st h [d] fuel (detachDependency (destroySlot fuel) h st d) := by
  have hv := pre.valid d (List.mem_singleton_self d)
  unfold detachDependency
  cases hd : st.getSlot d with
  | none => exact ⟨[], Detached.skip hv hd, Freed.nil fun _ => rfl, Unloads.nil M X st h [d]⟩
  | some s =>
    have drop := Detached.drop (h := h) hd
    obtain ⟨_, hat, hg⟩ := getSlot_eq_some.mp hd
    have hself : (st.modifySlot d.slotId (Slot.removeDependent h)).getSlot d =
        some (s.removeDependent h) := by
      rw [getSlot_removeDependent, if_pos rfl, hd]
      rfl
    have hmem : h ∈ s.dependents := by
      rcases pre.lists d (List.mem_singleton_self d) s hat with ⟨_, hm⟩ | ⟨hne, _⟩
      · exact hm
      · exact absurd hg hne
    simp only [tryUnloadSlot, hself]
    by_cases hun : (s.removeDependent h).pinCount = 0 ∧ (s.removeDependent h).dependents = []
    · obtain ⟨hp, hnil⟩ := hun
      rw [if_pos ⟨hp, hnil⟩]
      have fewer := edges_drop hd hmem
      cases fuel with
      | zero =>
        intro fin
        exact lt_of_le_of_lt (Nat.zero_le _) (Set.ncard_lt_ncard fewer fin)
      | succ n =>
        have hX := pre.not_stuck hd hp hmem hnil
        have hM : M d := by
          refine pre.mortal d (List.mem_singleton_self d) s hd hp fun z hz => Or.inr ?_
          have hzh : z = h := by
            by_contra hne
            have : z ∈ (s.removeDependent h).dependents :=
              List.mem_filter.mpr ⟨hz, by simpa using hne⟩
            simp [hnil] at this
          exact hzh ▸ pre.root
        have down := pre.descend hd hM hX hnil
        obtain ⟨_, hat', hg'⟩ := getSlot_eq_some.mp hself
        have out := destroySlot_of_loop hat' hg' (Or.inl hv) down
          fun st' pre' => ih n rfl _ st' d _ pre'
        cases e₁ : destroySlot (n + 1) (st.modifySlot d.slotId (Slot.removeDependent h)) d with
        | none =>
          rw [e₁] at out
          intro fin
          exact lt_of_le_of_lt (out (fin.subset fewer.subset)) (Set.ncard_lt_ncard fewer fin)
        | some st₁ =>
          rw [e₁] at out
          obtain ⟨D, eff, freed, un⟩ := out
          have more : ∀ x, X x → X x ∨ x = d := fun x hx => Or.inl hx
          obtain ⟨eff', un'⟩ := Detached.unload hd more pre.root hX (Or.inr rfl) hM hp hmem hnil eff un
          have hat₁ : st₁.slotAt d.slotId = some s.reset := by
            rw [eff'.slots, hat, Option.map_some, Handle.handle_eq hg,
              Slot.detach_of_mem List.mem_cons_self]
          refine ⟨d :: D, ?_, ?_, un'⟩
          · exact { eff' with
              slots := by simpa using eff'.slots
              hasDestroy := by simpa using eff'.hasDestroy
              slotIds := by simpa using eff'.slotIds
              hasBucket := by simpa using eff'.hasBucket }
          · intro t
            rw [freeIndices_pushFreeIndex hat₁, freed t, freeIndices_modifySlot]
            by_cases ht : t = d.typeId
            · subst ht
              simp [Handle.slotId]
            · have ht' : ¬ d.typeId = t := fun hc => ht hc.symm
              simp [Handle.slotId, ht, ht']
    · rw [if_neg hun]
      refine ⟨[], drop, Freed.nil fun t => ?_, Unloads.nil M X st h [d]⟩
      rw [freeIndices_modifySlot]

/-- `detachCommittedDependencies` does nothing but unload, and it ends as soon as the stack is as
deep as there are dependents entries. -/
theorem detachCommittedDependencies_outcome (fuel : Nat) :
    ∀ X st h ds, Detachable M X st h ds →
      DetachOutcome M X st h ds fuel
        (detachCommittedDependencies (destroySlot fuel) st h ds) := by
  induction fuel with
  | zero =>
    intro X st h ds pre
    apply detachCommittedDependencies_of_step _ ds st pre
    intro st d pre
    exact detachDependency_of_destroySlot (fun n hn => absurd hn (Nat.succ_ne_zero n).symm) pre
  | succ fuel ih =>
    intro X st h ds pre
    apply detachCommittedDependencies_of_step _ ds st pre
    intro st d pre
    refine detachDependency_of_destroySlot (fun n hn => ?_) pre
    cases hn
    exact ih

/-- The same for `destroySlot` itself, on any slot whose dependencies can be detached. -/
theorem destroySlot_outcome {s : Slot} (hs : st.slotAt h.slotId = some s)
    (hg : s.generation = h.generation)
    (hv : h.isValid = true ∨ (s.constructed = false ∧ s.path = []))
    (pre : Detachable M X st h s.dependencies) (fuel : Nat) :
    DestroyOutcome M X st h s.dependencies (fuel + 1) (destroySlot (fuel + 1) st h) :=
  destroySlot_of_loop hs hg hv pre fun st pre =>
    detachCommittedDependencies_outcome fuel X st h _ pre

end Outcome

end Storage

end PulseEngine.Asset
