import PulseEngine.Font.Atlas

/-!
# What the atlas keeps in order

The invariant of the atlas over the finite map: the map leads to the entries in use, the entries
name slots that name them back, and the free slots of a page are the others. Every operation changes
both ends of these two pairs of tables, so each step is a use of the rules for inverse tables.
-/

namespace PulseEngine.Font

open Asset Library

def liveField {β : Type} (field : GlyphEntry → Option β) (entries : List GlyphEntry) (i : ℕ) :
    Option β :=
  entries[i]?.bind fun entry => if entry.occupied then field entry else none

def placeOf : List GlyphEntry → ℕ → Option Place := liveField fun entry => entry.place

def slotAt (pages : List AtlasPage) (place : Place) : Option ℕ :=
  pages[place.page]?.bind fun page => page.slotEntries[place.slot]?.join

structure AtlasPage.Tidy (page : AtlasPage) : Prop where
  size : page.slotEntries.length = page.slotCount
  distinct : page.freeSlots.Nodup
  free : ∀ slot, slot ∈ page.freeSlots ↔ page.slotEntries[slot]? = some none

structure Filed (s : FontState GlyphMap) : Prop where
  covers : Covers s.entries s.table
  free : ∀ i ∈ s.freeEntries, i < s.entries.length ∧ keyOf s.entries i = none
  distinct : s.freeEntries.Nodup

structure Sound (s : FontState GlyphMap) : Prop extends Filed s where
  tidy : ∀ page ∈ s.pages, page.Tidy
  named : Inverse (placeOf s.entries) (slotAt s.pages)

/-- The entry `i` is taken out of the free ones, and not in use yet. -/
structure Allocated (s : FontState GlyphMap) (i : ℕ) : Prop extends Sound s where
  lt : i < s.entries.length
  dead : keyOf s.entries i = none
  taken : i ∉ s.freeEntries

section Fields

variable {β : Type} {field : GlyphEntry → Option β} {entries : List GlyphEntry} {i : ℕ}
  {entry : GlyphEntry}

lemma keyOf_eq : keyOf = liveField fun entry => some entry.key := rfl

lemma liveField_set (lt : i < entries.length) :
    liveField field (entries.set i entry) = Function.update (liveField field entries) i
      (if entry.occupied then field entry else none) := by
  funext j
  by_cases eq : j = i
  · subst eq
    rw [Function.update_self, liveField, List.getElem?_set_self lt, Option.bind_some]
  · rw [Function.update_of_ne eq, liveField, List.getElem?_set_ne fun e => eq e.symm]
    rfl

lemma liveField_clear (lt : i < entries.length) :
    liveField field (entries.set i {}) = Function.update (liveField field entries) i none :=
  liveField_set lt

lemma liveField_append :
    liveField field (entries ++ [({} : GlyphEntry)]) = liveField field entries := by
  funext j
  rw [liveField, liveField]
  rcases Nat.lt_trichotomy j entries.length with lt | rfl | gt
  · rw [List.getElem?_append_left lt]
  · rw [List.getElem?_concat_length, List.getElem?_eq_none le_rfl]
    rfl
  · rw [List.getElem?_eq_none (by simpa using gt), List.getElem?_eq_none (Nat.le_of_lt gt)]

lemma placeOf_of_dead (dead : keyOf entries i = none) : placeOf entries i = none := by
  rw [keyOf] at dead
  rw [placeOf, liveField]
  cases here : entries[i]? with
  | none => rfl
  | some entry =>
    rw [here, Option.bind_some] at dead
    rw [Option.bind_some]
    cases live : entry.occupied with
    | false => rfl
    | true =>
      rw [live] at dead
      cases dead

lemma update_dead {f : ℕ → Option β} (dead : f i = none) : Function.update f i none = f := by
  rw [← dead, Function.update_eq_self]

lemma liveField_touch (here : entries[i]? = some entry) {time : UInt64}
    (same : field { entry with lastUsed := time } = field entry) :
    liveField field (entries.set i { entry with lastUsed := time }) = liveField field entries := by
  rw [liveField_set (List.getElem?_eq_some_iff.mp here).1, same]
  refine Function.update_eq_self_iff.mpr ?_
  rw [liveField, here, Option.bind_some]

lemma placeOf_of_live (here : entries[i]? = some entry) (live : entry.occupied = true) :
    placeOf entries i = entry.place := by
  rw [placeOf, liveField, here, Option.bind_some, if_pos live]

end Fields

section Slots

variable {pages : List AtlasPage} {page page' : AtlasPage} {p slot : ℕ} {i : Option ℕ}

lemma slotAt_set (lt : p < pages.length) (place : Place) :
    slotAt (pages.set p page') place =
      if place.page = p then page'.slotEntries[place.slot]?.join else slotAt pages place := by
  rw [slotAt]
  split_ifs with eq
  · rw [eq, List.getElem?_set_self lt, Option.bind_some]
  · rw [List.getElem?_set_ne fun e => eq e.symm]
    rfl

lemma slotAt_keep (here : pages[p]? = some page) (same : page'.slotEntries = page.slotEntries) :
    slotAt (pages.set p page') = slotAt pages := by
  funext place
  rw [slotAt_set (List.getElem?_eq_some_iff.mp here).1]
  split_ifs with eq
  · rw [slotAt, eq, here, Option.bind_some, same]
  · rfl

lemma slotAt_write (here : pages[p]? = some page) (lt : slot < page.slotEntries.length)
    (written : page'.slotEntries = page.slotEntries.set slot i) :
    slotAt (pages.set p page') = Function.update (slotAt pages) ⟨p, slot⟩ i := by
  funext place
  rw [slotAt_set (List.getElem?_eq_some_iff.mp here).1]
  by_cases same : place = ⟨p, slot⟩
  · subst same
    rw [Function.update_self, if_pos rfl, written, List.getElem?_set_self lt]
    rfl
  · rw [Function.update_of_ne same]
    split_ifs with eq
    · have other : slot ≠ place.slot := by
        rintro rfl
        exact same (by rw [← eq])
      rw [slotAt, eq, here, Option.bind_some, written, List.getElem?_set_ne other]
    · rfl

lemma slotAt_append (fresh : ∀ slot : ℕ, page.slotEntries[slot]?.join = none) :
    slotAt (pages ++ [page]) = slotAt pages := by
  funext place
  rw [slotAt, slotAt]
  rcases Nat.lt_trichotomy place.page pages.length with lt | eq | gt
  · rw [List.getElem?_append_left lt]
  · rw [eq, List.getElem?_concat_length, Option.bind_some, fresh,
      List.getElem?_eq_none le_rfl]
    rfl
  · rw [List.getElem?_eq_none (by simpa using gt), List.getElem?_eq_none (Nat.le_of_lt gt)]

lemma resetPageSlots_join (desc : PluginDesc) (tier : Fin kTierCount) (lastUsed : UInt64)
    (slot : ℕ) : (resetPageSlots desc tier lastUsed).slotEntries[slot]?.join = none := by
  rw [resetPageSlots]
  cases here : (List.replicate _ (none : Option ℕ))[slot]? with
  | none => rfl
  | some content =>
    rw [List.eq_of_mem_replicate (List.mem_of_getElem? here)]
    rfl

lemma resetPageSlots_tidy (desc : PluginDesc) (tier : Fin kTierCount) (lastUsed : UInt64) :
    (resetPageSlots desc tier lastUsed).Tidy := by
  refine ⟨List.length_replicate, List.nodup_range, fun slot => ?_⟩
  rw [resetPageSlots]
  simp [List.getElem?_replicate]

lemma AtlasPage.Tidy.take {rest : List ℕ} {n : ℕ} {time : UInt64} (tidy : page.Tidy)
    (free : page.freeSlots = slot :: rest) :
    AtlasPage.Tidy
      { page with freeSlots := rest, slotEntries := page.slotEntries.set slot (some n)
                  lastUsed := time } := by
  have distinct := tidy.distinct
  rw [free, List.nodup_cons] at distinct
  have here := (tidy.free slot).mp (by rw [free]; exact List.mem_cons_self)
  have lt : slot < page.slotEntries.length := (List.getElem?_eq_some_iff.mp here).1
  refine ⟨by rw [List.length_set]; exact tidy.size, distinct.2, fun slot' => ?_⟩
  show slot' ∈ rest ↔ (page.slotEntries.set slot (some n))[slot']? = some none
  by_cases eq : slot' = slot
  · subst eq
    rw [List.getElem?_set_self lt]
    exact ⟨fun mem => absurd mem distinct.1, nofun⟩
  · rw [List.getElem?_set_ne fun e => eq e.symm, ← tidy.free slot', free, List.mem_cons]
    simp [eq]

lemma AtlasPage.Tidy.give {n : ℕ} (tidy : page.Tidy)
    (held : page.slotEntries[slot]? = some (some n)) :
    AtlasPage.Tidy
      { page with slotEntries := page.slotEntries.set slot none
                  freeSlots := slot :: page.freeSlots } := by
  have lt : slot < page.slotEntries.length := (List.getElem?_eq_some_iff.mp held).1
  refine ⟨by rw [List.length_set]; exact tidy.size, List.nodup_cons.mpr ⟨?_, tidy.distinct⟩,
    fun slot' => ?_⟩
  · rw [tidy.free, held]
    exact nofun
  · show slot' ∈ slot :: page.freeSlots ↔ (page.slotEntries.set slot none)[slot']? = some none
    by_cases eq : slot' = slot
    · subst eq
      simp [List.getElem?_set_self lt]
    · rw [List.getElem?_set_ne fun e => eq e.symm, ← tidy.free slot', List.mem_cons]
      simp [eq]

lemma slotAt_eq_some {place : Place} {n : ℕ} : slotAt pages place = some n ↔
    ∃ page, pages[place.page]? = some page ∧ page.slotEntries[place.slot]? = some (some n) := by
  simp [slotAt, Option.bind_eq_some_iff, Option.join_eq_some_iff]

lemma forall_mem_set {P : AtlasPage → Prop} (all : ∀ page ∈ pages, P page) (new : P page') :
    ∀ page ∈ pages.set p page', P page := by
  intro page mem
  rcases List.mem_or_eq_of_mem_set mem with old | rfl
  · exact all page old
  · exact new

end Slots

end PulseEngine.Font
