import PulseEngine.Asset.Issued
import PulseEngine.Asset.Shutdown

/-!
# The path cache

`AssetSystem::find_loaded` asks the path cache, which holds one handle for each type and path, while
a load that skips the cache may create a second asset there. `PathCacheCorrect` is what the cache is
for. It holds as long as no asset is created or completed beside another one (`Action.Exclusive`),
and `CacheSound` is the invariant behind it: the entries are assets of their key, and every loaded
asset is the entry of its key.
-/

namespace PulseEngine.Asset

open Library

namespace Storage

def getState (st : Storage) (h : Handle) : AssetState :=
  ((st.getSlot h).map (·.state)).getD .empty

def findLoaded (st : Storage) (typeId : TypeId) (path : Option Path) : Handle :=
  match path with
  | none => Handle.invalid
  | some path =>
    if typeId = 0 ∨ path = [] then Handle.invalid
    else
      let cached := st.findCached typeId (AssetIo.normalizePath path)
      if !cached.isValid ∨ st.getState cached ≠ .loaded then Handle.invalid else cached

/-- `h` is a loaded asset of the type that was loaded from the path. What a builder made has a name
and no path. -/
def LoadedFrom (st : Storage) (t : TypeId) (p : Path) (h : Handle) : Prop :=
  h.typeId = t ∧ ∃ s, st.getSlot h = some s ∧ s.state = .loaded ∧ s.source ≠ .builder ∧ s.path = p

/-- Each entry is an asset of its type and normalized path, and `findLoaded` answers with a handle
exactly when there is a loaded asset. -/
structure PathCacheCorrect (st : Storage) : Prop where
  entries : ∀ {t p h}, st.pathCache t p = some h → AssetIo.Normalized p ∧ h.typeId = t ∧
    ∃ s, st.getSlot h = some s ∧ s.state ≠ .empty ∧ s.path = p
  found : ∀ t path, (st.findLoaded t (some path)).isValid = true ↔
    ∃ h, st.LoadedFrom t (AssetIo.normalizePath path) h

/-- The entries are assets that were loaded from their key, and every loaded asset is an entry. -/
structure CacheSound (st : Storage) : Prop where
  entry : ∀ {t p h}, st.pathCache t p = some h → AssetIo.Normalized p ∧ p ≠ [] ∧ h.typeId = t ∧
    ∃ s, st.getSlot h = some s ∧ s.state ≠ .empty ∧ s.source ≠ .builder ∧ s.path = p
  complete : ∀ {h s}, st.getSlot h = some s → s.state = .loaded → s.source ≠ .builder →
    st.pathCache h.typeId s.path = some h

end Storage

/-- The action makes no asset loaded from a path beside another one: a new asset finds no loaded one
at its key, and an asset is completed as the entry of its key. -/
def Action.Exclusive (st : Storage) : Action → Prop
  | .create _ typeId path source => source ≠ .builder →
    ∀ id ∈ st.slotIds typeId, ∀ s ∈ st.slotAt id,
      s.state = .loaded → s.source ≠ .builder → s.path ≠ path
  | .stepDone h dependencies => st.Completes dependencies →
    ∀ s ∈ st.getSlot h, s.source ≠ .builder → st.pathCache h.typeId s.path = some h
  | _ => True

instance (st : Storage) : ∀ a : Action, Decidable (a.Exclusive st)
  | .create _ typeId path source => inferInstanceAs (Decidable (source ≠ .builder →
      ∀ id ∈ st.slotIds typeId, ∀ s ∈ st.slotAt id,
        s.state = .loaded → s.source ≠ .builder → s.path ≠ path))
  | .stepDone h dependencies => inferInstanceAs (Decidable (st.Completes dependencies →
      ∀ s ∈ st.getSlot h, s.source ≠ .builder → st.pathCache h.typeId s.path = some h))
  | .setState .. => .isTrue trivial
  | .failSlot .. => .isTrue trivial
  | .setRetiring .. => .isTrue trivial
  | .retain _ => .isTrue trivial
  | .release _ => .isTrue trivial
  | .markModified _ => .isTrue trivial
  | .tryUnload _ => .isTrue trivial
  | .forceDestroy _ => .isTrue trivial

namespace Storage

variable {st st' : Storage} {h : Handle} {s : Slot} {D ds : List Handle} {fuel : Nat}
  {t : TypeId} {p path : Path}

lemma isValid_findLoaded : (st.findLoaded t (some path)).isValid = true ↔
    t ≠ 0 ∧ path ≠ [] ∧ ∃ h s, st.pathCache t (AssetIo.normalizePath path) = some h ∧
      st.getSlot h = some s ∧ s.state = .loaded := by
  have never : ¬ Handle.invalid.isValid = true := by decide
  simp only [findLoaded]
  by_cases hkey : t = 0 ∨ path = []
  · rw [if_pos hkey]
    refine iff_of_false never ?_
    rintro ⟨ht, hp, _⟩
    exact hkey.elim ht hp
  · rw [if_neg hkey]
    obtain ⟨ht, hp⟩ := not_or.mp hkey
    cases hc : st.pathCache t (AssetIo.normalizePath path) with
    | none => simp [findCached, hc, Handle.invalid, Handle.isValid]
    | some h =>
      simp only [findCached, hc, Option.getD_some]
      cases hs : st.getSlot h with
      | none => simp [getState, hs, Handle.invalid, Handle.isValid]
      | some s =>
        have hv := (getSlot_eq_some.mp hs).1
        by_cases hl : s.state = .loaded
        · simp [getState, hs, hv, hl, ht, hp]
        · simp [getState, hs, hl, Handle.invalid, Handle.isValid]

/-- The invariant says that the cache is correct. -/
theorem CacheSound.correct (inv : CacheSound st) : PathCacheCorrect st := by
  refine ⟨fun hc => ?_, fun t path => isValid_findLoaded.trans ⟨?_, ?_⟩⟩
  · obtain ⟨normal, _, ht, s, hs, hocc, _, hp⟩ := inv.entry hc
    exact ⟨normal, ht, s, hs, hocc, hp⟩
  · rintro ⟨_, _, h, s, hc, hs, hl⟩
    obtain ⟨_, _, ht, s', hs', _, hb, hp⟩ := inv.entry hc
    rw [hs] at hs'
    cases hs'
    exact ⟨h, ht, s, hs, hl, hb, hp⟩
  · rintro ⟨h, rfl, s, hs, hl, hb, hp⟩
    have hc := inv.complete hs hl hb
    obtain ⟨_, hne, _⟩ := inv.entry hc
    rw [hp] at hc hne
    refine ⟨(Handle.isValid_iff.mp (getSlot_eq_some.mp hs).1).1, ?_, h, s, hc, hs, hl⟩
    rintro rfl
    exact hne rfl

lemma CacheSound.init : CacheSound Storage.init := by
  constructor
  · intro t p h hc
    cases hc
  · intro h s hs
    simp [Storage.init, getSlot, slotAt] at hs

lemma CacheSound.detached (inv : CacheSound st) (e : Detached st st' D h ds) : CacheSound st' := by
  constructor
  · intro t p x hx
    rw [e.cache, Option.filter_eq_some_iff] at hx
    obtain ⟨hc, hkeep⟩ := hx
    obtain ⟨normal, hne, ht, s, hs, hocc, hb, hp⟩ := inv.entry hc
    -- an entry is evicted when its asset goes
    have hm : x ∉ D := by
      intro hm
      simp [evicts, hm, ht, hne, hs, hp] at hkeep
    refine ⟨normal, hne, ht, s.detach D h ds x, e.getSlot_of_not_mem hs hm, ?_⟩
    rw [Slot.detach_of_not_mem hm]
    exact ⟨hocc, hb, hp⟩
  · intro x s' hs' hl hb
    rcases e.getSlot_cases hs' with ⟨s, hs, hm, rfl⟩ | ⟨s, _, _, rfl⟩
    · rw [Slot.detach_of_not_mem hm] at hl hb ⊢
      rw [e.cache, inv.complete hs hl hb]
      simp [Option.filter_some, evicts, hm]
    · cases hl

lemma CacheSound.edit {F : SlotId → Slot → Slot} (inv : CacheSound st) (e : Edited F st st')
    (hF : ∀ {id s}, st.slotAt id = some s → (F id s).generation = s.generation ∧
      (F id s).path = s.path ∧ (F id s).source = s.source ∧
      ((F id s).state = .empty → s.state = .empty))
    (completed : ∀ {x s}, st.getSlot x = some s → (F x.slotId s).state = .loaded →
      s.source ≠ .builder → st.pathCache x.typeId s.path = some x) : CacheSound st' := by
  constructor
  · intro t p x hx
    rw [e.frame.cache] at hx
    obtain ⟨normal, hne, ht, s, hs, hocc, hb, hp⟩ := inv.entry hx
    obtain ⟨hv, hat, hg⟩ := getSlot_eq_some.mp hs
    obtain ⟨hg', hp', hb', hocc'⟩ := hF hat
    refine ⟨normal, hne, ht, F x.slotId s, getSlot_eq_some.mpr ⟨hv, ?_, hg'.trans hg⟩, ?_⟩
    · rw [e.slots, hat, Option.map_some]
    · exact ⟨fun he => hocc (hocc' he), hb' ▸ hb, hp'.trans hp⟩
  · intro x s' hs' hl hb
    obtain ⟨hv, hat, hg⟩ := getSlot_eq_some.mp hs'
    rw [e.slots] at hat
    obtain ⟨s, hs, rfl⟩ := Option.map_eq_some_iff.mp hat
    obtain ⟨hg', hp', hb', _⟩ := hF hs
    rw [e.frame.cache, hp']
    exact completed (getSlot_eq_some.mpr ⟨hv, hs, hg' ▸ hg⟩) hl (hb' ▸ hb)

lemma CacheSound.write {id : SlotId} {f : Slot → Slot} (inv : CacheSound st)
    (hf : ∀ s, (f s).generation = s.generation ∧ (f s).path = s.path ∧ (f s).source = s.source)
    (state : ∀ s, st.slotAt id = some s → ((f s).state = .empty → s.state = .empty) ∧
      ((f s).state = .loaded → s.state = .loaded)) : CacheSound (st.modifySlot id f) := by
  refine inv.edit (Edited.modifySlot st id f) (fun {id' s} hs => ?_) (fun {x s} hs hl hb => ?_)
  · split
    · rename_i hid
      subst hid
      exact ⟨(hf s).1, (hf s).2.1, (hf s).2.2, (state s hs).1⟩
    · exact ⟨rfl, rfl, rfl, fun he => he⟩
  · refine inv.complete hs ?_ hb
    split at hl
    · rename_i hid
      subst hid
      exact (state s (getSlot_eq_some.mp hs).2.1).2 hl
    · exact hl

lemma CacheSound.forceDestroyAssets (wf : st.WellFormed) (inv : CacheSound st)
    (e : st.forceDestroyAssets fuel t = some st') : CacheSound st' := by
  rcases WellFormed.forceDestroyAssets (I := CacheSound) (t := t)
    (fun _ inv _ f => by
      obtain ⟨st₁, cut, r, _⟩ := f.parts
      have inv₁ := inv.edit cut (fun _ => ⟨rfl, rfl, rfl, id⟩)
        fun hs hl hb => inv.complete hs hl hb
      exact inv₁.detached r.detached) wf inv fuel with ⟨hnone, _⟩ | ⟨_, e₁, _, inv₁, _⟩
  · rw [hnone] at e
    cases e
  · rw [e₁] at e
    cases e
    exact inv₁

lemma pathCache_createAsset {type : Option AssetTypeDesc} {source : LoadSource} (wf : st.WellFormed)
    (e : st.createAsset type t path source = some (st', h)) (t' : TypeId) (p : Path) :
    st'.pathCache t' p = if source ≠ .builder ∧ path ≠ [] ∧ t' = t ∧ p = path then some h
      else st.pathCache t' p := by
  unfold Storage.createAsset at e
  simp only [Option.bind_eq_bind, Option.bind_eq_some_iff, Option.pure_def, Option.some.injEq,
    Prod.mk.injEq, Option.guard_eq_some'] at e
  obtain ⟨_, ht, ⟨st₁, h₁⟩, halloc, rfl, rfl⟩ := e
  have same := (wf.allocateSlot ht halloc).2.1.cache
  show (if source ≠ .builder ∧ path ≠ [] then _ else _ : Storage).pathCache t' p = _
  by_cases hkey : source ≠ .builder ∧ path ≠ []
  · rw [if_pos hkey]
    show Function.update st₁.pathCache t (Function.update (st₁.pathCache t) path _) t' p = _
    by_cases ht' : t' = t
    · subst ht'
      rw [Function.update_self, same]
      by_cases hp : p = path
      · simp [hp, hkey.1, hkey.2]
      · simp [hp]
    · rw [Function.update_of_ne ht', same]
      simp [ht']
  · rw [if_neg hkey]
    show st₁.pathCache t' p = _
    rw [same, if_neg]
    rintro ⟨hb, hp, _⟩
    exact hkey ⟨hb, hp⟩

lemma CacheSound.created {type : Option AssetTypeDesc} {source : LoadSource} (wf : st.WellFormed)
    (inv : CacheSound st) (issued : (Action.create type t path source).Issued)
    (exclusive : (Action.create type t path source).Exclusive st)
    (e : st.createAsset type t path source = some (st', h)) : CacheSound st' := by
  obtain ⟨rfl, eff, _⟩ := wf.createAsset e
  obtain ⟨s₀, hbefore, hg₀, hafter⟩ := eff.slot
  have cache := pathCache_createAsset wf e
  have vacant : ∀ {x s}, st.getSlot x = some s → s.state ≠ .empty → x.slotId ≠ h.slotId := by
    intro x s hs hocc hid
    obtain ⟨_, hat, _⟩ := getSlot_eq_some.mp hs
    rw [hid] at hat
    rcases hbefore with ⟨hs₀, he⟩ | ⟨hs₀, _⟩
    · rw [hs₀] at hat
      cases hat
      exact hocc he
    · rw [hs₀] at hat
      cases hat
  have kept : ∀ {x}, x.slotId ≠ h.slotId → ∀ {s}, s.state ≠ .empty →
      (st'.getSlot x = some s ↔ st.getSlot x = some s) := by
    intro x hid s hocc
    rcases eff.others _ hid with hsame | ⟨hnone, hfresh, _⟩
    · rw [getSlot_congr hsame]
    · refine iff_of_false (fun hs => ?_) (fun hs => ?_)
      · obtain ⟨_, hat, _⟩ := getSlot_eq_some.mp hs
        rw [hfresh] at hat
        cases hat
        exact hocc rfl
      · obtain ⟨_, hat, _⟩ := getSlot_eq_some.mp hs
        rw [hnone] at hat
        cases hat
  constructor
  · intro t' p x hx
    rw [cache] at hx
    split at hx
    · rename_i hkey
      obtain ⟨hb, hp, rfl, rfl⟩ := hkey
      cases hx
      exact ⟨issued.1, hp, rfl, _, getSlot_eq_some.mpr ⟨eff.valid, hafter, hg₀⟩,
        by simp [Slot.allocate], hb, rfl⟩
    · obtain ⟨normal, hne, ht, s, hs, hocc, hb, hp⟩ := inv.entry hx
      exact ⟨normal, hne, ht, s, (kept (vacant hs hocc) hocc).mpr hs, hocc, hb, hp⟩
  · intro x s hs hl hb
    have hocc : s.state ≠ .empty := by simp [hl]
    have hid : x.slotId ≠ h.slotId := by
      intro hid
      obtain ⟨_, hat, _⟩ := getSlot_eq_some.mp hs
      rw [hid, hafter] at hat
      cases hat
      cases hl
    have hs₁ := (kept hid hocc).mp hs
    rw [cache, if_neg]
    · exact inv.complete hs₁ hl hb
    · rintro ⟨hsrc, _, ht, hp⟩
      obtain ⟨_, hat, _⟩ := getSlot_eq_some.mp hs₁
      exact exclusive hsrc x.slotId (mem_slotIds.mpr ⟨ht, by simp [hat]⟩) s hat hl hb hp

lemma CacheSound.completed {deps : List Dependency} {C : List Handle} (inv : CacheSound st)
    (ready : st.Completes deps) (exclusive : (Action.stepDone h deps).Exclusive st)
    (e : Completed st st' h deps C) : CacheSound st' := by
  obtain ⟨sh, hsh, _⟩ := e.slot
  refine inv.edit e.edited (fun {id s} _ => ⟨by simp, ?_, ?_, fun he => ?_⟩)
    (fun {x s} hs hl hb => ?_)
  · unfold completeSlot pinSlot
    split <;> split <;> rfl
  · unfold completeSlot pinSlot
    split <;> split <;> rfl
  · rw [completeSlot_state] at he
    split at he
    · cases he
    · exact he
  · rw [completeSlot_state] at hl
    split at hl
    · rename_i hid
      obtain rfl := getSlot_unique hid hsh hs
      exact exclusive ready s hs hb
    · exact inv.complete hs hl hb

/-- **One step.** A sound and exclusive action keeps the cache sound. -/
theorem CacheSound.step {history history' : History} {a : Action} (wf : st.WellFormed)
    (inv : CacheSound st) (sound : a.Sound st) (exclusive : a.Exclusive st) (issued : a.Issued)
    (e : Recorded.step fuel ⟨st, history⟩ a = some ⟨st', history'⟩) : CacheSound st' := by
  have demote : ∀ {h : Handle} (f : Slot → Slot),
      (∀ s, (f s).generation = s.generation ∧ (f s).path = s.path ∧ (f s).source = s.source) →
      (∀ s, (f s).state ≠ .empty ∧ (f s).state ≠ .loaded) →
      CacheSound (st.modifySlot h.slotId f) := by
    intro h f hf hs
    exact inv.write hf fun s _ => ⟨fun he => absurd he (hs s).1, fun hl => absurd hl (hs s).2⟩
  have eff := wf.effect sound e
  cases eff with
  | created _ _ =>
    simp only [Recorded.step, Option.map_eq_some_iff, Recorded.mk.injEq] at e
    obtain ⟨_, e, rfl, _⟩ := e
    obtain ⟨⟨_, h⟩, e₁, rfl⟩ := Option.map_eq_some_iff.mp e
    exact inv.created wf issued exclusive e₁
  | @setState h state _ =>
    refine demote _ (fun _ => ⟨rfl, rfl, rfl⟩) fun s => ?_
    obtain ⟨state, hstate⟩ := state
    constructor <;> (rintro rfl; cases hstate)
  | failSlot _ => exact demote _ (fun _ => ⟨rfl, rfl, rfl⟩) fun s => by simp
  | setRetiring => exact inv.write (fun _ => ⟨rfl, rfl, rfl⟩) fun _ _ => ⟨id, id⟩
  | stepFailed _ _ => exact demote _ (fun _ => ⟨rfl, rfl, rfl⟩) fun s => by simp
  | stepWaits _ _ => exact demote _ (fun _ => ⟨rfl, rfl, rfl⟩) fun s => by simp
  | completed ready _ e₁ => exact inv.completed ready exclusive e₁
  | retained _ _ _ e₁ =>
    refine inv.edit e₁ (fun {id s} _ => ⟨by simp, ?_, ?_, by simp⟩)
      fun hs hl hb => inv.complete hs (by simpa using hl) hb
    · unfold retainSlot pinSlot
      split <;> split <;> rfl
    · unfold retainSlot pinSlot
      split <;> split <;> rfl
  | retainRefused => exact inv
  | @released h s _ _ hs _ occupied e₁ settled =>
    have inv₁ := inv.edit e₁ (fun {id s} _ => by
      refine ⟨by simp, ?_, ?_, by simp⟩ <;>
        (unfold releasedSlot unpinSlot; split <;> split <;> rfl))
      fun hs hl hb => inv.complete hs (by simpa using hl) hb
    cases settled with
    | pending _ _ e' =>
      subst e'
      exact inv₁.write (fun _ => ⟨rfl, rfl, rfl⟩) fun s' _ => by simp [setPendingDelete]
    | kept e' => exact e' ▸ inv₁
    | removed D r _ => exact inv₁.detached r.detached
  | releaseRefused => exact inv
  | marked _ _ => exact inv.write (fun _ => ⟨rfl, rfl, rfl⟩) fun _ _ => ⟨id, id⟩
  | unmarked => exact inv
  | unloaded r _ => exact inv.detached r.detached
  | forced e₁ => exact inv.forceDestroyAssets wf e₁

/-- A loaded asset that `findLoaded` does not answer with. -/
def Overlooks (st : Storage) : Prop :=
  ∃ h s, st.getSlot h = some s ∧ s.state = .loaded ∧ s.source ≠ .builder ∧
    st.findLoaded h.typeId (some s.path) ≠ h

lemma pathCache_of_findLoaded (hv : h.isValid = true) (e : st.findLoaded t (some path) = h) :
    st.pathCache t (AssetIo.normalizePath path) = some h := by
  have never : ¬ Handle.invalid.isValid = true := by decide
  simp only [findLoaded] at e
  split at e
  · exact absurd (e ▸ hv) never
  · split at e
    · exact absurd (e ▸ hv) never
    · cases hc : st.pathCache t (AssetIo.normalizePath path) with
      | none =>
        rw [findCached, hc, Option.getD_none] at e
        exact absurd (e ▸ hv) never
      | some x =>
        rw [findCached, hc] at e
        exact congrArg some e

/-- **The condition is exact.** After an action that is sound and not exclusive, a loaded asset is
overlooked. -/
theorem CacheSound.overlooks {history history' : History} {a : Action} (wf : st.WellFormed)
    (inv : CacheSound st) (sound : a.Sound st) (beside : ¬ a.Exclusive st) (issued : a.Issued)
    (e : Recorded.step fuel ⟨st, history⟩ a = some ⟨st', history'⟩) : Overlooks st' := by
  have eff := wf.effect sound e
  cases eff with
  | @created type t path source _ _ _ _ =>
    simp only [Recorded.step, Option.map_eq_some_iff, Recorded.mk.injEq] at e
    obtain ⟨_, e, rfl, _⟩ := e
    obtain ⟨⟨st₁, h⟩, e₁, rfl⟩ := Option.map_eq_some_iff.mp e
    simp only [Action.Exclusive, not_forall, not_not] at beside
    obtain ⟨hsrc, id, hid, s, hs, hl, hb, rfl⟩ := beside
    obtain ⟨rfl, eff, _⟩ := wf.createAsset e₁
    obtain ⟨s₀, hbefore, _, hafter⟩ := eff.slot
    have htype : id.typeId = h.typeId := (mem_slotIds.mp hid).1
    have hy := wf.getSlot_handle hs (by simp [hl])
    -- the older asset keeps its slot and loses its entry
    have hne : id ≠ h.slotId := by
      rintro rfl
      rcases hbefore with ⟨hs₀, he⟩ | ⟨hs₀, _⟩
      · rw [hs] at hs₀
        cases hs₀
        rw [hl] at he
        cases he
      · rw [hs] at hs₀
        cases hs₀
    have hy' : st₁.getSlot (id.handle s) = some s := by
      rcases eff.others id hne with hsame | ⟨hnone, _⟩
      · exact (getSlot_congr hsame).trans hy
      · rw [hs] at hnone
        cases hnone
    refine ⟨_, s, hy', hl, hb, fun hf => ?_⟩
    have hc := pathCache_of_findLoaded (getSlot_eq_some.mp hy).1 hf
    rw [issued.1, pathCache_createAsset wf e₁, if_pos ⟨hsrc, issued.2 hsrc, htype, rfl⟩] at hc
    exact hne ((congrArg Handle.slotId (Option.some.inj hc)).symm)
  | @completed h deps C _ ready _ e₁ =>
    simp only [Action.Exclusive, not_forall] at beside
    obtain ⟨_, s, hs, hb, hmiss⟩ := beside
    obtain ⟨hv, hat, hg⟩ := getSlot_eq_some.mp hs
    have hs' : st'.getSlot h = some (completeSlot h C h.slotId s) := by
      refine getSlot_eq_some.mpr ⟨hv, ?_, (completeSlot_generation _ _ _ _).trans hg⟩
      rw [e₁.edited.slots, hat, Option.map_some]
    have named : (completeSlot h C h.slotId s).path = s.path ∧
        (completeSlot h C h.slotId s).source = s.source := by
      unfold completeSlot pinSlot
      split <;> split <;> exact ⟨rfl, rfl⟩
    refine ⟨h, _, hs', by simp, named.2 ▸ hb, fun hf => hmiss ?_⟩
    have hc := pathCache_of_findLoaded hv hf
    rw [e₁.edited.frame.cache, named.1] at hc
    obtain ⟨_, _, _, s₁, hs₁, _, _, hp⟩ := inv.entry hc
    rw [Option.mem_def.mp hs] at hs₁
    cases hs₁
    rw [← hp] at hc
    exact hc
  | stepFailed waits _ => exact absurd (fun ready => absurd ready waits) beside
  | stepWaits waits _ => exact absurd (fun ready => absurd ready waits) beside
  | _ => exact absurd trivial beside

end Storage

/-- **Path cache correctness.** In every run whose actions are sound and make no asset beside a loaded
one of its type and path, the cache is correct in every state; and the first sound action that does
make one leaves a loaded asset overlooked. -/
theorem System.pathCache_correct (fuel maxRequestsPerUpdate : Nat) (events : List System.Event)
    (s : System fuel) (ran : System.after fuel maxRequestsPerUpdate events = some s)
    (safe : Along (Recorded.step fuel) (fun r a => a.Sound r.storage ∧ a.Exclusive r.storage)
      Recorded.init s.traced.log) :
    ∀ pre, pre <+: s.traced.log → ∀ r, run (Recorded.step fuel) Recorded.init pre = some r →
      r.storage.PathCacheCorrect ∧
      ∀ a r', a.Issued → a.Sound r.storage → ¬ a.Exclusive r.storage →
        r.step fuel a = some r' → r'.storage.Overlooks := by
  intro pre hpre r e
  have issued : ∀ a ∈ pre, a.Issued :=
    fun a ha => System.issued_of_after ran a (hpre.subset ha)
  obtain ⟨wf, inv⟩ := ((safe.of_prefix hpre).attach issued).invariant
    (I := fun r => r.storage.WellFormed ∧ r.storage.CacheSound)
    (fun r a r' ⟨wf, inv⟩ ⟨⟨sound, exclusive⟩, issued⟩ e =>
      ⟨wf.step (wf.effect sound e), inv.step wf sound exclusive issued e⟩)
    ⟨Storage.WellFormed.init, Storage.CacheSound.init⟩ e
  exact ⟨inv.correct, fun a r' issued sound beside e => inv.overlooks wf sound beside issued e⟩

def loadPath (path : Path) (skipCache : Bool) : System.Event :=
  .call (.load ⟨.file, 7, none, some path, false, skipCache, none, [], false⟩ ⟨0, true⟩ sampleTurn)

def reload : List System.Event :=
  sampleSetup ++ [loadPath ['a', '.', 'x'] false, .process [sampleTurn], .call (.release ⟨7, 1, 1⟩),
    loadPath ['/', 'a', '.', 'x'] false, .process [sampleTurn]]

/-- The second asset is found under its path. -/
theorem System.pathCache_correct_reload : ∃ s : System 8, System.after 8 0 reload = some s ∧
    s.storage.findLoaded 7 (some ['a', '.', 'x']) = ⟨7, 1, 2⟩ ∧ s.storage.PathCacheCorrect := by
  have ends : (System.after 8 0 reload).isSome = true := by
    decide +kernel
  obtain ⟨s, hs⟩ := Option.isSome_iff_exists.mp ends
  have seen : ∀ s ∈ System.after 8 0 reload,
      s.storage.findLoaded 7 (some ['a', '.', 'x']) = ⟨7, 1, 2⟩ ∧
      Along (Recorded.step 8) (fun r a => a.Sound r.storage ∧ a.Exclusive r.storage) Recorded.init
        s.traced.log := by
    decide +kernel
  obtain ⟨found, safe⟩ := seen s hs
  exact ⟨s, hs, found,
    (System.pathCache_correct 8 0 _ s hs safe _ (List.prefix_refl _) _ s.traced.replays).1⟩

def loadTwice : List System.Event :=
  sampleSetup ++ [loadPath ['a', '.', 'x'] false, .process [sampleTurn],
    loadPath ['a', '.', 'x'] true, .call (.release ⟨7, 2, 1⟩), .process [sampleTurn]]

/-- The first asset is still loaded and is not found any more. -/
theorem System.not_pathCache_correct : ¬ ∀ s : System 8, System.after 8 0 loadTwice = some s →
    s.storage.PathCacheCorrect := by
  intro law
  have ends : (System.after 8 0 loadTwice).isSome = true := by
    decide +kernel
  obtain ⟨s, hs⟩ := Option.isSome_iff_exists.mp ends
  have seen : ∀ s ∈ System.after 8 0 loadTwice,
      (s.storage.findLoaded 7 (some ['a', '.', 'x'])).isValid = false ∧
      ∃ sa ∈ s.storage.getSlot ⟨7, 1, 1⟩, sa.state = .loaded ∧ sa.source ≠ .builder ∧
        sa.path = ['a', '.', 'x'] := by
    decide +kernel
  obtain ⟨missed, sa, hsa, hl, hb, hp⟩ := seen s hs
  have found := ((law s hs).found 7 ['a', '.', 'x']).mpr
    ⟨⟨7, 1, 1⟩, rfl, sa, hsa, hl, hb, hp⟩
  rw [missed] at found
  cases found

end PulseEngine.Asset
