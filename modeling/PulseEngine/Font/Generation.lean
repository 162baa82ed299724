import PulseEngine.Font.Atlas
import PulseEngine.Font.AtlasRefinement
import PulseEngine.Library.Splice

/-!
# Pixels and the generation

The atlas with what `Atlas` leaves out: the pixels of the pages, by their index, and the counter
`atlas_generation` that other modules compare to learn whether their glyphs are still there. The rasteriser is a
parameter of the call: what it leaves in `slot_pixels`. The index of a page row that is not in the page has no
result.
-/

namespace PulseEngine.Font

open Asset Library

structure AtlasImage (T : Type) where
  atlas : FontState T
  generation : UInt64 := 0
  pixels : List (ℕ → UInt8) := []

def copyRow (pixels row : ℕ → UInt8) (offset count : ℕ) : ℕ → UInt8 :=
  fun i => if offset ≤ i ∧ i < offset + count then row (i - offset) else pixels i

/-- Where the row `y` of a slot starts in the pixels of its page. -/
def slotRow (desc : PluginDesc) (page : AtlasPage) (slot y : ℕ) : ℕ :=
  (slot / page.gridX * page.slotSize + y) * desc.atlasWidth + slot % page.gridX * page.slotSize

def copyRows (desc : PluginDesc) (page : AtlasPage) (slot : ℕ) (raster : ℕ → UInt8) :
    ℕ → ℕ → (ℕ → UInt8) → Option (ℕ → UInt8)
  | 0, _, pixels => some pixels
  | left + 1, y, pixels =>
    if slotRow desc page slot y + page.slotSize ≤ desc.atlasWidth * desc.atlasHeight then
      copyRows desc page slot raster left (y + 1)
        (copyRow pixels (fun x => raster (y * page.slotSize + x)) (slotRow desc page slot y) page.slotSize)
    else none

variable {T : Type} (index : GlyphIndex T) (s : AtlasImage T)

namespace AtlasImage

def createPage (tier : Fin kTierCount) : AtlasImage T × Option ℕ :=
  match pageCreate s.atlas tier with
  | (atlas, none) => ({ s with atlas }, none)
  | (atlas, some p) => ({ s with atlas, pixels := s.pixels ++ [fun _ => 0] }, some p)

def evictPage (tier : Fin kTierCount) : Option (AtlasImage T × Option ℕ) := do
  match ← pageEvictLru index s.atlas tier with
  | (atlas, none) => some ({ s with atlas }, none)
  | (atlas, some p) =>
    some ({ atlas, generation := s.generation + 1, pixels := s.pixels.set p fun _ => 0 }, some p)

/-- The page that `atlas_acquire_glyph` takes a slot of. -/
def takePage (tier : Fin kTierCount) : Option (AtlasImage T × Option ℕ) :=
  match s.atlas.pages.findIdx? fun page => page.tier = tier ∧ ¬ page.freeSlots.isEmpty with
  | some p => some (s, some p)
  | none =>
    if s.atlas.pages.length < s.atlas.desc.maxAtlasCount then some (s.createPage tier)
    else s.evictPage index tier

/-- The entry `i` of a glyph in a slot of the page `p`, with its pixels. -/
def fillSlot (key : GlyphKey) (i p : ℕ) (raster : ℕ → UInt8) : Option (AtlasImage T × Option ℕ) := do
  let page ← s.atlas.pages[p]?
  let slot ← page.freeSlots.head?
  let pixels ← s.pixels[p]?
  let pixels ← copyRows s.atlas.desc page slot raster page.slotSize 0 pixels
  let (atlas, found) ← placeGlyph index s.atlas key i p
  some ({ s with atlas, pixels := s.pixels.set p pixels }, found)

def acquire (key : GlyphKey) (face : Option Face) (raster : ℕ → UInt8) : Option (AtlasImage T × Option ℕ) := do
  let (atlas, found) ← atlasFindGlyph index s.atlas key
  match found with
  | some i => some ({ s with atlas }, some i)
  | none =>
    match glyphEmpty key face with
    | none => some ({ s with atlas }, none)
    | some true => (placeEmpty index atlas key).map fun out => ({ s with atlas := out.1 }, out.2)
    | some false =>
      let (atlas, i) := allocEntry atlas
      let (s, page) ← takePage index { s with atlas } key.tier
      match page with
      | none => some ({ s with atlas := freeEntry s.atlas i }, none)
      | some p => s.fillSlot index key i p raster

/-- `atlas_purge_font`; an entry is purged at its own turn only. -/
def purge (font : Handle) : Option (AtlasImage T) := do
  let purged := s.atlas.entries.any fun entry => entry.occupied && entry.key.font == font
  let atlas ← atlasPurgeFont index s.atlas font
  some { s with atlas, generation := if purged then s.generation + 1 else s.generation }

/-- The place of an entry that was returned; `make_glyph` calls the glyph valid if there is one. -/
def placeOfEntry (i : ℕ) : Option Place := s.atlas.entries[i]?.bind GlyphEntry.place

end AtlasImage

/-- A call that changes the atlas: `pulse_font_glyph`, or the unloading of a font. -/
inductive AtlasCall where
  | glyph (key : GlyphKey) (face : Option Face) (raster : ℕ → UInt8)
  | purge (font : Handle)

/-- The atlas, and the valid glyphs that were returned since the last change of the generation. -/
structure Watched (T : Type) where
  image : AtlasImage T
  returned : List (GlyphKey × Place)

def Watched.kept (w : Watched T) (image : AtlasImage T) : List (GlyphKey × Place) :=
  if image.generation = w.image.generation then w.returned else []

def Watched.step (w : Watched T) : AtlasCall → Option (Watched T)
  | .glyph key face raster =>
    (w.image.acquire index key face raster).map fun out =>
      ⟨out.1, w.kept out.1 ++ ((out.2.bind out.1.placeOfEntry).map fun place => (key, place)).toList⟩
  | .purge font => (w.image.purge index font).map fun image => ⟨image, w.kept image⟩

def Watched.start (desc : PluginDesc) : Watched T := ⟨{ atlas := FontState.start index desc }, []⟩

def generationChanges : Watched T → List AtlasCall → ℕ
  | _, [] => 0
  | w, call :: calls =>
    match w.step index call with
    | none => 0
    | some w' => (if w'.image.generation = w.image.generation then 0 else 1) + generationChanges w' calls

def AtlasImage.Occupies (key : GlyphKey) (place : Place) : Prop :=
  ∃ (i : ℕ) (entry : GlyphEntry), s.atlas.entries[i]? = some entry ∧ entry.occupied = true ∧
    entry.key = key ∧ entry.place = some place

def AtlasImage.slotPixel (place : Place) (x y : ℕ) : Option UInt8 := do
  let page ← s.atlas.pages[place.page]?
  let pixels ← s.pixels[place.page]?
  if x < page.slotSize ∧ y < page.slotSize then some (pixels (slotRow s.atlas.desc page place.slot y + x)) else none

end PulseEngine.Font

/-!
## Calls that keep the generation

A call that leaves the generation takes no entry out of use, and writes pixels only in a slot that was free. One
lemma for each function that an acquisition calls, over any index.
-/

namespace PulseEngine.Font

open Asset Library

variable {T : Type} {index : GlyphIndex T} {a a' : FontState T} {s s' s'' : AtlasImage T} {key : GlyphKey}
  {found page : Option ℕ} {tier : Fin kTierCount} {i p slot x y : ℕ} {place : Place} {raster : ℕ → UInt8}
  {face : Option Face} {font : Handle}

def timeless (page : AtlasPage) : AtlasPage := { page with lastUsed := 0 }

def victim (a : FontState T) (tier : Fin kTierCount) : Option ℕ :=
  match a.pages.findIdx? fun page => page.tier = tier ∧ ¬ page.freeSlots.isEmpty with
  | some _ => none
  | none =>
    if a.pages.length < a.desc.maxAtlasCount then none else lruFrom a.pages 0 none 0xFFFFFFFFFFFFFFFF

def evicted (index : GlyphIndex T) (a : FontState T) (key : GlyphKey) (face : Option Face) : Option ℕ :=
  match index.find a.entries a.table key, glyphEmpty key face with
  | some none, some false => victim a key.tier
  | _, _ => none

def AtlasPage.grid (page : AtlasPage) : ℕ × ℕ := (page.gridX, page.slotSize)

structure Touched (a a' : FontState T) : Prop where
  desc : a'.desc = a.desc
  keys : keyOf a'.entries = keyOf a.entries
  places : placeOf a'.entries = placeOf a.entries
  length : a'.entries.length = a.entries.length
  free : a'.freeEntries = a.freeEntries
  pages : a'.pages.map timeless = a.pages.map timeless

lemma Touched.refl (a : FontState T) : Touched a a := ⟨rfl, rfl, rfl, rfl, rfl, rfl⟩

lemma find_touched (ended : atlasFindGlyph index a key = some (a', found)) : Touched a a' := by
  rw [atlasFindGlyph] at ended
  obtain ⟨looked, -, ended⟩ := Option.bind_eq_some_iff.mp ended
  split at ended
  next =>
    cases ended
    exact .refl a
  next i =>
    obtain ⟨entry, here, ended⟩ := Option.bind_eq_some_iff.mp ended
    have keys : keyOf (a.entries.set i { entry with lastUsed := a.tick + 1 }) = keyOf a.entries :=
      liveField_touch here rfl
    have places : placeOf (a.entries.set i { entry with lastUsed := a.tick + 1 }) = placeOf a.entries :=
      liveField_touch here rfl
    split at ended
    next =>
      cases ended
      exact ⟨rfl, keys, places, List.length_set, rfl, rfl⟩
    next place _ =>
      obtain ⟨page, at_page, ended⟩ := Option.bind_eq_some_iff.mp ended
      cases ended
      refine ⟨rfl, keys, places, List.length_set, rfl, List.ext_getElem? fun p => ?_⟩
      rw [List.getElem?_map, List.getElem?_map, List.getElem?_set]
      split
      next eq =>
        subst eq
        rw [if_pos (List.getElem?_eq_some_iff.mp at_page).1, at_page]
        rfl
      next => rfl

structure Preserved (s s' : AtlasImage T) : Prop where
  keys : ∀ i k, keyOf s.atlas.entries i = some k → keyOf s'.atlas.entries i = some k
  places : ∀ i place, placeOf s.atlas.entries i = some place → placeOf s'.atlas.entries i = some place
  pixels : ∀ i place, placeOf s.atlas.entries i = some place →
    ∀ x y, s'.slotPixel place x y = s.slotPixel place x y

lemma Preserved.refl (s : AtlasImage T) : Preserved s s := ⟨fun _ _ h => h, fun _ _ h => h, fun _ _ _ _ _ => rfl⟩

lemma Preserved.trans (h : Preserved s s') (h' : Preserved s' s'') : Preserved s s'' where
  keys i k live := h'.keys i k (h.keys i k live)
  places i place placed := h'.places i place (h.places i place placed)
  pixels i place placed x y := (h'.pixels i place (h.places i place placed) x y).trans (h.pixels i place placed x y)

lemma slotPixel_congr (desc : s'.atlas.desc = s.atlas.desc)
    (grid : s'.atlas.pages[place.page]?.map AtlasPage.grid = s.atlas.pages[place.page]?.map AtlasPage.grid)
    (pixels : s'.pixels[place.page]? = s.pixels[place.page]?) : s'.slotPixel place x y = s.slotPixel place x y := by
  rw [AtlasImage.slotPixel, AtlasImage.slotPixel, pixels, desc]
  cases at_page : s.atlas.pages[place.page]? with
  | none =>
    rw [at_page, Option.map_none, Option.map_eq_none_iff] at grid
    rw [grid]
  | some page =>
    rw [at_page, Option.map_some, Option.map_eq_some_iff] at grid
    obtain ⟨page', at_page', grid⟩ := grid
    obtain ⟨gridX, size⟩ := Prod.mk.inj grid
    rw [at_page']
    simp only [Option.bind_eq_bind, Option.bind_some, slotRow, gridX, size]

lemma Touched.kept (touched : Touched s.atlas s'.atlas) (pixels : s'.pixels = s.pixels) : Preserved s s' where
  keys i k live := by rwa [touched.keys]
  places i place placed := by rwa [touched.places]
  pixels i place _ x y := by
    refine slotPixel_congr touched.desc ?_ (by rw [pixels])
    have same := congrArg (fun pages => pages[place.page]?.map AtlasPage.grid) touched.pages
    simp only [List.getElem?_map, Option.map_map] at same
    exact same

lemma slotRow_inj {desc : PluginDesc} {page : AtlasPage} {slot' x' y' : ℕ}
    (fits : page.gridX * page.slotSize ≤ desc.atlasWidth) (grid : 0 < page.gridX) (hx : x < page.slotSize)
    (hx' : x' < page.slotSize) (hy : y < page.slotSize) (hy' : y' < page.slotSize)
    (same : slotRow desc page slot y + x = slotRow desc page slot' y' + x') : slot = slot' := by
  have column : ∀ n < page.gridX, ∀ z < page.slotSize, n * page.slotSize + z < desc.atlasWidth :=
    fun n hn z hz => (place_lt hz hn).trans_le fits
  rw [slotRow, slotRow, Nat.add_assoc, Nat.add_assoc] at same
  obtain ⟨across, down⟩ := (place_inj (column _ (Nat.mod_lt _ grid) _ hx) (column _ (Nat.mod_lt _ grid) _ hx')).mp same
  have mods := ((place_inj hx hx').mp across).2
  have divs := ((place_inj hy hy').mp down).2
  rw [← Nat.div_add_mod slot page.gridX, ← Nat.div_add_mod slot' page.gridX, mods, divs]

lemma copyRows_other {desc : PluginDesc} {page : AtlasPage} {left : ℕ} {pixels pixels' : ℕ → UInt8} {n : ℕ}
    (ended : copyRows desc page slot raster left y pixels = some pixels')
    (other : ∀ y', y ≤ y' → y' < y + left → ∀ x < page.slotSize, n ≠ slotRow desc page slot y' + x) :
    pixels' n = pixels n := by
  induction left generalizing y pixels with
  | zero =>
    cases ended
    rfl
  | succ left ih =>
    rw [copyRows] at ended
    split at ended
    next =>
      rw [ih ended fun y' hle hlt => other y' (by omega) (by omega), copyRow, if_neg]
      rintro ⟨hge, hlt⟩
      exact other y le_rfl (by omega) (n - slotRow desc page slot y) (by omega) (by omega)
    next => exact nomatch ended

structure Framed (s : AtlasImage T) : Prop where
  shaped : ∀ page ∈ s.atlas.pages, page.gridX * page.slotSize ≤ s.atlas.desc.atlasWidth
  paired : s.pixels.length = s.atlas.pages.length

structure Laid (s : AtlasImage T) : Prop extends Framed s where
  free : ∀ i ∈ s.atlas.freeEntries, i < s.atlas.entries.length ∧ keyOf s.atlas.entries i = none
  tidy : ∀ page ∈ s.atlas.pages, page.Tidy
  named : Inverse (placeOf s.atlas.entries) (slotAt s.atlas.pages)

lemma Laid.page_lt (laid : Laid s) (placed : placeOf s.atlas.entries i = some place) :
    place.page < s.atlas.pages.length := by
  obtain ⟨page, at_page, -⟩ := slotAt_eq_some.mp ((laid.named i place).mp placed)
  exact (List.getElem?_eq_some_iff.mp at_page).1

lemma exists_timeless {pages pages' : List AtlasPage} (same : pages'.map timeless = pages.map timeless)
    {page : AtlasPage} (mem : page ∈ pages') : ∃ page' ∈ pages, timeless page = timeless page' := by
  have here : timeless page ∈ pages.map timeless := same ▸ List.mem_map_of_mem mem
  obtain ⟨page', mem', eq⟩ := List.mem_map.mp here
  exact ⟨page', mem', eq.symm⟩

lemma Framed.of_grids (framed : Framed s) (desc : s'.atlas.desc = s.atlas.desc)
    (grids : s'.atlas.pages.map AtlasPage.grid = s.atlas.pages.map AtlasPage.grid)
    (length : s'.pixels.length = s.pixels.length) : Framed s' where
  shaped page mem := by
    have here : page.grid ∈ s.atlas.pages.map AtlasPage.grid := grids ▸ List.mem_map_of_mem mem
    obtain ⟨page', mem', eq⟩ := List.mem_map.mp here
    obtain ⟨across, size⟩ := Prod.mk.inj eq
    rw [desc, ← across, ← size]
    exact framed.shaped page' mem'
  paired := by
    have same := congrArg List.length grids
    rw [List.length_map, List.length_map] at same
    rw [length, framed.paired, same]

lemma Touched.grids (touched : Touched a a') : a'.pages.map AtlasPage.grid = a.pages.map AtlasPage.grid := by
  have same := congrArg (List.map AtlasPage.grid) touched.pages
  simp only [List.map_map] at same
  exact same

lemma Touched.laid (touched : Touched s.atlas s'.atlas) (pixels : s'.pixels = s.pixels) (laid : Laid s) :
    Laid s' where
  toFramed := laid.toFramed.of_grids touched.desc touched.grids (by rw [pixels])
  free i mem := by
    rw [touched.free] at mem
    rw [touched.length, touched.keys]
    exact laid.free i mem
  tidy page mem := by
    obtain ⟨page', mem', eq⟩ := exists_timeless touched.pages mem
    have tidy := laid.tidy page' mem'
    have slots : (timeless page).slotEntries = (timeless page').slotEntries := by rw [eq]
    have frees : (timeless page).freeSlots = (timeless page').freeSlots := by rw [eq]
    have count : (timeless page).slotCount = (timeless page').slotCount := by rw [eq]
    exact ⟨slots ▸ count ▸ tidy.size, frees ▸ tidy.distinct, fun slot => frees ▸ slots ▸ tidy.free slot⟩
  named := by
    refine laid.named.congr (fun j => by rw [touched.places]) fun place => ?_
    have here := congrArg (fun pages => (pages[place.page]?.map AtlasPage.slotEntries).bind
      fun slots => slots[place.slot]?.join) touched.pages
    simp only [List.getElem?_map, Option.map_map, Option.bind_map] at here
    exact here

lemma alloc_touched (free : ∀ i ∈ a.freeEntries, i < a.entries.length ∧ keyOf a.entries i = none) :
    (allocEntry a).1.desc = a.desc ∧ (allocEntry a).1.pages = a.pages ∧
      keyOf (allocEntry a).1.entries = keyOf a.entries ∧ placeOf (allocEntry a).1.entries = placeOf a.entries ∧
        (allocEntry a).2 < (allocEntry a).1.entries.length ∧ keyOf a.entries (allocEntry a).2 = none ∧
          (allocEntry a).1.freeEntries ⊆ a.freeEntries ∧ a.entries.length ≤ (allocEntry a).1.entries.length := by
  cases some_free : a.freeEntries with
  | nil =>
    have eq : allocEntry a = ({ a with entries := a.entries ++ [{}] }, a.entries.length) := by
      rw [allocEntry, some_free]
    rw [eq]
    refine ⟨rfl, rfl, liveField_append, liveField_append, ?_, ?_, ?_, ?_⟩
    · rw [List.length_append]
      exact Nat.lt_succ_self _
    · rw [keyOf, List.getElem?_eq_none le_rfl]
      rfl
    · rw [← some_free]
      exact List.Subset.refl _
    · rw [List.length_append]
      exact Nat.le_add_right _ _
  | cons i rest =>
    obtain ⟨lt, dead⟩ := free i (some_free ▸ List.mem_cons_self)
    have eq : allocEntry a = ({ a with freeEntries := rest, entries := a.entries.set i {} }, i) := by
      rw [allocEntry, some_free]
    rw [eq]
    refine ⟨rfl, rfl, ?_, ?_, ?_, dead, List.subset_cons_self i rest, ?_⟩
    · rw [keyOf_eq, liveField_clear lt]
      exact update_dead dead
    · rw [placeOf, liveField_clear lt]
      exact update_dead (placeOf_of_dead dead)
    · rwa [List.length_set]
    · rw [List.length_set]

lemma Laid.alloc (laid : Laid s) : Laid { s with atlas := (allocEntry s.atlas).1 } ∧
    Preserved s { s with atlas := (allocEntry s.atlas).1 } ∧
      (allocEntry s.atlas).2 < (allocEntry s.atlas).1.entries.length ∧
        keyOf (allocEntry s.atlas).1.entries (allocEntry s.atlas).2 = none := by
  obtain ⟨desc, pages, keys, places, lt, dead, free, length⟩ := alloc_touched laid.free
  refine ⟨⟨laid.toFramed.of_grids desc (by rw [pages]) rfl, fun i mem => ?_, ?_, ?_⟩,
    ⟨fun i k live => ?_, fun i place placed => ?_, fun i place _ x y => ?_⟩, lt, by rw [keys, dead]⟩
  · rw [keys]
    exact ⟨(laid.free i (free mem)).1.trans_le length, (laid.free i (free mem)).2⟩
  · rw [pages]
    exact laid.tidy
  · rw [places, pages]
    exact laid.named
  · rwa [keys]
  · rwa [places]
  · exact slotPixel_congr desc (by rw [pages]) rfl

lemma resetPageSlots_shaped (desc : PluginDesc) (tier : Fin kTierCount) (time : UInt64) :
    (resetPageSlots desc tier time).gridX * (resetPageSlots desc tier time).slotSize ≤ desc.atlasWidth :=
  Nat.div_mul_le_self _ _

lemma Framed.create (framed : Framed s) (made : s.createPage tier = (s', page)) : Framed s' := by
  rw [AtlasImage.createPage, pageCreate] at made
  split_ifs at made
  · cases made
    exact framed
  · cases made
    refine ⟨fun page mem => ?_, ?_⟩
    · rcases List.mem_append.mp mem with old | new
      · exact framed.shaped page old
      · rw [List.mem_singleton.mp new]
        exact resetPageSlots_shaped _ _ _
    · show (s.pixels ++ [_]).length = (s.atlas.pages ++ [_]).length
      rw [List.length_append, List.length_append, framed.paired]
      rfl

lemma Laid.create (laid : Laid s) (made : s.createPage tier = (s', page)) :
    Laid s' ∧ Preserved s s' ∧ s'.atlas.entries = s.atlas.entries ∧ s'.generation = s.generation := by
  have framed := laid.toFramed.create made
  rw [AtlasImage.createPage, pageCreate] at made
  split_ifs at made
  · cases made
    exact ⟨laid, .refl s, rfl, rfl⟩
  · cases made
    refine ⟨⟨framed, laid.free, fun page mem => ?_, ?_⟩,
      ⟨fun _ _ live => live, fun _ _ placed => placed, fun i place placed x y => ?_⟩, rfl, rfl⟩
    · rcases List.mem_append.mp mem with old | new
      · exact laid.tidy page old
      · rw [List.mem_singleton.mp new]
        exact resetPageSlots_tidy _ _ _
    · show Inverse (placeOf s.atlas.entries) (slotAt (s.atlas.pages ++ [_]))
      rw [slotAt_append (resetPageSlots_join s.atlas.desc tier 0)]
      exact laid.named
    · have lt := laid.page_lt placed
      refine slotPixel_congr rfl ?_ ?_
      · show (s.atlas.pages ++ [_])[place.page]?.map AtlasPage.grid = _
        rw [List.getElem?_append_left lt]
      · show (s.pixels ++ [_])[place.page]? = _
        rw [List.getElem?_append_left (laid.paired.symm ▸ lt)]

lemma evictSlots_other {slots : List (Option ℕ)} (ended : evictSlots index slots a = some a') :
    a'.desc = a.desc ∧ a'.pages = a.pages ∧ a'.entries.length = a.entries.length ∧
      (∀ j, keyOf a.entries j = none → keyOf a'.entries j = none) ∧
        ∀ j, some j ∉ slots → a'.entries[j]? = a.entries[j]? := by
  induction slots generalizing a with
  | nil =>
    cases ended
    exact ⟨rfl, rfl, rfl, fun _ dead => dead, fun _ _ => rfl⟩
  | cons content slots ih =>
    cases content with
    | none =>
      obtain ⟨desc, pages, length, keys, other⟩ := ih ended
      exact ⟨desc, pages, length, keys, fun j absent => other j fun mem => absent (List.mem_cons_of_mem _ mem)⟩
    | some i =>
      obtain ⟨entry, here, ended⟩ := Option.bind_eq_some_iff.mp ended
      obtain ⟨table, -, ended⟩ := Option.bind_eq_some_iff.mp ended
      obtain ⟨desc, pages, length, keys, other⟩ := ih ended
      refine ⟨desc, pages, length.trans List.length_set, fun j dead => keys j ?_, fun j absent => ?_⟩
      · show keyOf (a.entries.set i {}) j = none
        rw [keyOf_eq, liveField_clear (List.getElem?_eq_some_iff.mp here).1]
        by_cases eq : j = i
        · rw [eq, Function.update_self]
        · rw [Function.update_of_ne eq, ← keyOf_eq, dead]
      · rw [other j fun mem => absent (List.mem_cons_of_mem _ mem)]
        exact List.getElem?_set_ne fun eq => absent (by rw [eq]; exact List.mem_cons_self)

structure EvictedPage (s s' : AtlasImage T) (p : ℕ) : Prop extends Framed s' where
  generation : s'.generation = s.generation + 1
  length : s'.atlas.entries.length = s.atlas.entries.length
  dead : ∀ j, keyOf s.atlas.entries j = none → keyOf s'.atlas.entries j = none
  other : Laid s → ∀ j place, placeOf s.atlas.entries j = some place → place.page ≠ p →
    s'.atlas.entries[j]? = s.atlas.entries[j]?

lemma Framed.evict (framed : Framed s) (ended : s.evictPage index tier = some (s', page)) :
    (s' = s ∧ lruFrom s.atlas.pages 0 none 0xFFFFFFFFFFFFFFFF = none) ∨
      ∃ p, page = some p ∧ lruFrom s.atlas.pages 0 none 0xFFFFFFFFFFFFFFFF = some p ∧ EvictedPage s s' p := by
  obtain ⟨⟨atlas, victim⟩, evicted, ended⟩ := Option.bind_eq_some_iff.mp ended
  rw [pageEvictLru] at evicted
  split at evicted
  next nowhere =>
    cases evicted
    cases ended
    exact .inl ⟨rfl, nowhere⟩
  next p is_p =>
    obtain ⟨page, at_p, evicted⟩ := Option.bind_eq_some_iff.mp evicted
    obtain ⟨a, slots, evicted⟩ := Option.bind_eq_some_iff.mp evicted
    cases evicted
    cases ended
    obtain ⟨desc, pages, length, dead, other⟩ := evictSlots_other slots
    refine .inr ⟨p, rfl, is_p, ⟨fun page mem => ?_, ?_⟩, rfl, length, dead, fun laid j place placed ne => ?_⟩
    · have fits : ∀ page ∈ a.pages, page.gridX * page.slotSize ≤ a.desc.atlasWidth := by
        rw [pages, desc]
        exact framed.shaped
      exact forall_mem_set fits (resetPageSlots_shaped _ _ _) page mem
    · show (s.pixels.set p _).length = (a.pages.set p _).length
      rw [List.length_set, List.length_set, pages, framed.paired]
    · refine other j fun mem => ?_
      obtain ⟨slot, here⟩ := List.mem_iff_getElem?.mp mem
      rw [(laid.named j ⟨p, slot⟩).mpr (slotAt_eq_some.mpr ⟨page, at_p, here⟩)] at placed
      cases placed
      exact ne rfl

lemma Laid.take (laid : Laid s) (ended : s.takePage index tier = some (s', page)) :
    (victim s.atlas tier = none ∧ Laid s' ∧ Preserved s s' ∧ s'.atlas.entries = s.atlas.entries ∧
      s'.generation = s.generation) ∨
    ∃ p, page = some p ∧ victim s.atlas tier = some p ∧ EvictedPage s s' p := by
  rw [AtlasImage.takePage] at ended
  rw [victim]
  cases first : s.atlas.pages.findIdx? fun page => decide (page.tier = tier ∧ ¬ page.freeSlots.isEmpty) with
  | some p =>
    rw [first] at ended
    cases ended
    exact .inl ⟨rfl, laid, .refl s, rfl, rfl⟩
  | none =>
    rw [first] at ended
    dsimp only at ended ⊢
    split_ifs at ended ⊢
    · exact .inl ⟨rfl, laid.create (Option.some.inj ended)⟩
    · rcases laid.toFramed.evict ended with ⟨rfl, nowhere⟩ | evicted
      · exact .inl ⟨nowhere, laid, .refl s', rfl, rfl⟩
      · exact .inr evicted

lemma AtlasPage.Tidy.grid_pos {page : AtlasPage} (tidy : page.Tidy) (free : slot ∈ page.freeSlots) :
    0 < page.gridX := by
  have lt := (List.getElem?_eq_some_iff.mp ((tidy.free slot).mp free)).1
  rw [tidy.size, AtlasPage.slotCount] at lt
  refine Nat.pos_of_ne_zero fun zero => ?_
  rw [zero, Nat.zero_mul] at lt
  exact absurd lt (Nat.not_lt_zero slot)

lemma liveField_use {β : Type} {field : GlyphEntry → Option β} {entries : List GlyphEntry} {entry : GlyphEntry}
    (lt : i < entries.length) (dead : liveField field entries i = none) {j : ℕ} {b : β}
    (live : liveField field entries j = some b) : liveField field (entries.set i entry) j = some b := by
  rw [liveField_set lt, Function.update_of_ne, live]
  rintro rfl
  rw [dead] at live
  cases live

lemma fillSlot_spec (ended : s.fillSlot index key i p raster = some (s', found)) :
    ∃ (page page' : AtlasPage) (slot : ℕ) (rest : List ℕ) (old pixels : ℕ → UInt8) (entry : GlyphEntry),
      s.atlas.pages[p]? = some page ∧ page.freeSlots = slot :: rest ∧ s.pixels[p]? = some old ∧
        copyRows s.atlas.desc page slot raster page.slotSize 0 old = some pixels ∧
          entry.occupied = true ∧ entry.key = key ∧ found = some i ∧ page'.grid = page.grid ∧
            s'.atlas.desc = s.atlas.desc ∧ s'.atlas.entries = s.atlas.entries.set i entry ∧
              s'.atlas.pages = s.atlas.pages.set p page' ∧ s'.pixels = s.pixels.set p pixels ∧
                s'.generation = s.generation := by
  obtain ⟨page, at_p, ended⟩ := Option.bind_eq_some_iff.mp ended
  obtain ⟨slot, is_slot, ended⟩ := Option.bind_eq_some_iff.mp ended
  obtain ⟨old, at_p', ended⟩ := Option.bind_eq_some_iff.mp ended
  obtain ⟨pixels, copied, ended⟩ := Option.bind_eq_some_iff.mp ended
  obtain ⟨⟨atlas, found'⟩, placed, ended⟩ := Option.bind_eq_some_iff.mp ended
  cases ended
  obtain ⟨page', at_page', placed⟩ := Option.bind_eq_some_iff.mp placed
  rw [at_p] at at_page'
  cases at_page'
  split at placed
  next => cases placed
  next slot' rest some_free =>
    rw [some_free, List.head?_cons] at is_slot
    cases is_slot
    obtain ⟨table, -, placed⟩ := Option.bind_eq_some_iff.mp placed
    cases placed
    exact ⟨page, _, slot, rest, old, pixels, _, at_p, some_free, at_p', copied, rfl, rfl, rfl, by rfl, rfl, rfl, rfl,
      rfl, rfl⟩

lemma grids_set {pages : List AtlasPage} {page page' : AtlasPage} (at_p : pages[p]? = some page)
    (grid : page'.grid = page.grid) : (pages.set p page').map AtlasPage.grid = pages.map AtlasPage.grid := by
  obtain ⟨lt, rfl⟩ := List.getElem?_eq_some_iff.mp at_p
  rw [List.map_set, grid, ← List.getElem_map AtlasPage.grid, List.set_getElem_self]
  rwa [List.length_map]

lemma Framed.fill (framed : Framed s) (ended : s.fillSlot index key i p raster = some (s', found)) :
    Framed s' ∧ s'.generation = s.generation := by
  obtain ⟨page, page', slot, rest, old, pixels, entry, at_p, -, -, -, -, -, -, grid, desc, -, pages, written,
    generation⟩ := fillSlot_spec ended
  exact ⟨framed.of_grids desc (by rw [pages, grids_set at_p grid]) (by rw [written, List.length_set]), generation⟩

lemma fillSlot_key (lt : i < s.atlas.entries.length)
    (ended : s.fillSlot index key i p raster = some (s', found)) :
    ∀ j, found = some j → keyOf s'.atlas.entries j = some key := by
  obtain ⟨page, page', slot, rest, old, pixels, entry, -, -, -, -, live, is_key, rfl, -, -, entries, -⟩ :=
    fillSlot_spec ended
  rintro j ⟨⟩
  rw [entries, keyOf_eq, liveField_set lt, Function.update_self, if_pos live, is_key]

lemma fillSlot_other (lt : i < s.atlas.entries.length) (dead : keyOf s.atlas.entries i = none)
    (ended : s.fillSlot index key i p raster = some (s', found)) (j : ℕ) :
    (∀ k, keyOf s.atlas.entries j = some k → keyOf s'.atlas.entries j = some k) ∧
      ∀ place, placeOf s.atlas.entries j = some place → placeOf s'.atlas.entries j = some place := by
  obtain ⟨page, page', slot, rest, old, pixels, entry, -, -, -, -, -, -, -, -, -, entries, -⟩ := fillSlot_spec ended
  rw [entries]
  exact ⟨fun k live => liveField_use lt dead live, fun place live => liveField_use lt (placeOf_of_dead dead) live⟩

lemma Laid.fill (laid : Laid s) (lt : i < s.atlas.entries.length) (dead : keyOf s.atlas.entries i = none)
    (ended : s.fillSlot index key i p raster = some (s', found)) : Preserved s s' := by
  have other := fillSlot_other lt dead ended
  obtain ⟨page, page', slot, rest, old, pixels, entry, at_p, some_free, at_p', copied, -, -, -, grid, desc, -, pages,
    written, -⟩ := fillSlot_spec ended
  have mem := List.mem_of_getElem? at_p
  have free : slot ∈ page.freeSlots := some_free ▸ List.mem_cons_self
  have filled : s'.atlas.pages[p]? = some page' := by
    rw [pages, List.getElem?_set_self (List.getElem?_eq_some_iff.mp at_p).1]
  obtain ⟨across, size⟩ := Prod.mk.inj grid
  refine ⟨fun j => (other j).1, fun j => (other j).2, fun j place live x y => ?_⟩
  by_cases same : place.page = p
  · obtain ⟨held_page, at_page, held⟩ := slotAt_eq_some.mp ((laid.named j place).mp live)
    rw [same, at_p] at at_page
    cases at_page
    have ne : place.slot ≠ slot := by
      intro eq
      rw [eq, ((laid.tidy page mem).free slot).mp free] at held
      cases held
    rw [AtlasImage.slotPixel, AtlasImage.slotPixel, same, filled, at_p, at_p', written,
      List.getElem?_set_self (List.getElem?_eq_some_iff.mp at_p').1]
    simp only [Option.bind_eq_bind, Option.bind_some, slotRow, across, size, desc]
    split_ifs with within
    · refine congrArg some (copyRows_other copied fun y' _ lt' x' hx' eq => ne ?_)
      exact slotRow_inj (laid.shaped page mem) ((laid.tidy page mem).grid_pos free) within.1 hx' within.2
        (by omega) eq
    · rfl
  · refine slotPixel_congr desc ?_ ?_
    · rw [pages, List.getElem?_set_ne fun e => same e.symm]
    · rw [written, List.getElem?_set_ne fun e => same e.symm]

end PulseEngine.Font
