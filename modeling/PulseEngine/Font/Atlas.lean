import PulseEngine.Font.GlyphTable
import PulseEngine.Font.TableGrowth
import PulseEngine.Library.Refinement

/-!
# The glyph atlas

`atlas_find_glyph`, `atlas_acquire_glyph`, `atlas_purge_font` and `atlas_shutdown` of
`pulse_font/src/font_atlas.cpp`, with `page_create` and `page_evict_lru`. The program is written
over a `GlyphIndex`, the three operations on the table that it calls: `hashIndex` is the table of
the source, and `mapIndex` is the finite map that the table stands for. The pixels of the pages, the
metrics of the glyphs and the counters for uploads are left out, and so is the rasteriser, which
writes only these. A step that reads outside of a vector, or takes the `back()` of an empty one, has
no result.

Vectors that are used as stacks are lists with the back of the vector at the head.
-/

namespace PulseEngine.Font

open Asset Library

/-- The fields of `PulseFontPluginDesc` that the atlas reads. -/
structure PluginDesc where
  atlasWidth : ℕ
  atlasHeight : ℕ
  maxAtlasCount : ℕ
  sdfPadding : ℕ
  deriving DecidableEq, Repr

def normalizePluginDesc (desc : PluginDesc) : PluginDesc where
  atlasWidth := if desc.atlasWidth < 256 then 2048 else desc.atlasWidth
  atlasHeight := if desc.atlasHeight < 256 then 2048 else desc.atlasHeight
  maxAtlasCount :=
    if desc.maxAtlasCount = 0 then 4 else if desc.maxAtlasCount > 8 then 8 else desc.maxAtlasCount
  sdfPadding :=
    if desc.sdfPadding = 0 then 8 else if desc.sdfPadding > 64 then 64 else desc.sdfPadding

def kTierBaseSizes : Fin kTierCount → ℕ := ![48, 96]

structure AtlasPage where
  tier : Fin kTierCount
  gridX : ℕ
  gridY : ℕ
  slotSize : ℕ
  lastUsed : UInt64
  freeSlots : List ℕ
  slotEntries : List (Option ℕ)
  deriving DecidableEq, Repr

def AtlasPage.slotCount (page : AtlasPage) : ℕ := u32 (page.gridX * page.gridY)

/-- What `atlas_acquire_glyph` learns of a font that is loaded: whether it has a glyph for a code
point, and whether the glyph is empty. -/
abbrev Face := UInt32 → Option Bool

structure GlyphIndex (T : Type) where
  find : List GlyphEntry → T → GlyphKey → Option (Option ℕ)
  insert : List GlyphEntry → T → ℕ → Option T
  remove : List GlyphEntry → T → GlyphKey → Option T
  clear : T

def hashIndex : GlyphIndex GlyphTable := ⟨tableFind, tableInsert, tableRemove, {}⟩

def mapIndex : GlyphIndex GlyphMap where
  find _ map key := some (map.lookup key)
  insert entries map index := entries[index]?.map fun entry => map.insert entry.key index
  remove _ map key := some (map.erase key)
  clear := ∅

/-- `pulse_font_plugin_state`. -/
structure FontState (T : Type) where
  desc : PluginDesc
  table : T
  entries : List GlyphEntry := []
  freeEntries : List ℕ := []
  pages : List AtlasPage := []
  tick : UInt64 := 0

variable {T : Type} (index : GlyphIndex T) (state : FontState T)

def allocEntry : FontState T × ℕ :=
  match state.freeEntries with
  | i :: rest =>
    ({ state with freeEntries := rest, entries := state.entries.set i {} }, i)
  | [] => ({ state with entries := state.entries ++ [{}] }, state.entries.length)

def freeEntry (i : ℕ) : FontState T :=
  { state with entries := state.entries.set i {}, freeEntries := i :: state.freeEntries }

def slotSize (desc : PluginDesc) (tier : Fin kTierCount) : ℕ :=
  kTierBaseSizes tier + desc.sdfPadding * 2

def resetPageSlots (desc : PluginDesc) (tier : Fin kTierCount) (lastUsed : UInt64) : AtlasPage :=
  let gridX := desc.atlasWidth / slotSize desc tier
  let gridY := desc.atlasHeight / slotSize desc tier
  { tier, gridX, gridY, slotSize := slotSize desc tier, lastUsed
    slotEntries := List.replicate (u32 (gridX * gridY)) none
    freeSlots := List.range (u32 (gridX * gridY)) }

def pageCreate (tier : Fin kTierCount) : FontState T × Option ℕ :=
  if slotSize state.desc tier > state.desc.atlasWidth ∨
      slotSize state.desc tier > state.desc.atlasHeight then (state, none)
  else
    ({ state with pages := state.pages ++ [resetPageSlots state.desc tier 0] },
      some state.pages.length)

/-- The loop for the victim in `page_evict_lru`, from the page `i` on. -/
def lruFrom : List AtlasPage → ℕ → Option ℕ → UInt64 → Option ℕ
  | [], _, victim, _ => victim
  | page :: pages, i, victim, oldest =>
    if page.lastUsed < oldest then lruFrom pages (i + 1) (some i) page.lastUsed
    else lruFrom pages (i + 1) victim oldest

/-- The loop over the slots of the victim in `page_evict_lru`. -/
def evictSlots : List (Option ℕ) → FontState T → Option (FontState T)
  | [], state => some state
  | none :: slots, state => evictSlots slots state
  | some i :: slots, state => do
    let entry ← state.entries[i]?
    let table ← index.remove state.entries state.table entry.key
    evictSlots slots (freeEntry { state with table } i)

def pageEvictLru (tier : Fin kTierCount) : Option (FontState T × Option ℕ) :=
  match lruFrom state.pages 0 none 0xFFFFFFFFFFFFFFFF with
  | none => some (state, none)
  | some victim => do
    let page ← state.pages[victim]?
    let state ← evictSlots index page.slotEntries state
    let tick := state.tick + 1
    some ({ state with
      pages := state.pages.set victim (resetPageSlots state.desc tier tick), tick }, some victim)

/-- The page that `atlas_acquire_glyph` takes a slot of: the first one of the tier that has a free
slot, or a new one, or the victim. -/
def acquirePage (tier : Fin kTierCount) : Option (FontState T × Option ℕ) :=
  match state.pages.findIdx? fun page => page.tier = tier ∧ ¬ page.freeSlots.isEmpty with
  | some p => some (state, some p)
  | none =>
    if state.pages.length < state.desc.maxAtlasCount then some (pageCreate state tier)
    else pageEvictLru index state tier

def atlasFindGlyph (key : GlyphKey) : Option (FontState T × Option ℕ) := do
  match ← index.find state.entries state.table key with
  | none => some (state, none)
  | some i =>
    let entry ← state.entries[i]?
    let tick := state.tick + 1
    let entries := state.entries.set i { entry with lastUsed := tick }
    match entry.place with
    | none => some ({ state with entries, tick }, some i)
    | some place =>
      let page ← state.pages[place.page]?
      let pages := state.pages.set place.page { page with lastUsed := tick }
      some ({ state with entries, tick, pages }, some i)

/-- Whether there is something to draw: the checks of `atlas_acquire_glyph` on the font, nothing
when it returns there, and otherwise whether the glyph is empty. -/
def glyphEmpty (key : GlyphKey) (face : Option Face) : Option Bool :=
  if key.font.isValid then face.bind fun face => face key.codepoint else some false

def placeEmpty (key : GlyphKey) : Option (FontState T × Option ℕ) := do
  let (state, i) := allocEntry state
  let tick := state.tick + 1
  let entries := state.entries.set i { key, occupied := true, lastUsed := tick }
  let table ← index.insert entries state.table i
  some ({ state with tick, entries, table }, some i)

/-- The entry `i` of a glyph in a slot of the page `p`. -/
def placeGlyph (key : GlyphKey) (i p : ℕ) : Option (FontState T × Option ℕ) := do
  let page ← state.pages[p]?
  match page.freeSlots with
  | [] => none
  | slot :: freeSlots =>
    let tick := state.tick + 1
    let entries := state.entries.set i
      { key, occupied := true, lastUsed := tick, place := some ⟨p, slot⟩ }
    let pages := state.pages.set p
      { page with freeSlots, slotEntries := page.slotEntries.set slot (some i), lastUsed := tick }
    let table ← index.insert entries state.table i
    some ({ state with tick, entries, pages, table }, some i)

def atlasAcquireGlyph (key : GlyphKey) (face : Option Face) :
    Option (FontState T × Option ℕ) := do
  let (state, found) ← atlasFindGlyph index state key
  match found with
  | some i => some (state, some i)
  | none =>
    match glyphEmpty key face with
    | none => some (state, none)
    | some true => placeEmpty index state key
    | some false =>
      let (state, i) := allocEntry state
      let (state, page) ← acquirePage index state key.tier
      match page with
      | none => some (freeEntry state i, none)
      | some p => placeGlyph index state key i p

/-- The turn of the entry `i` in `atlas_purge_font`. -/
def purgeEntry (font : Handle) (state : FontState T) (i : ℕ) : Option (FontState T) := do
  let entry ← state.entries[i]?
  if !entry.occupied || entry.key.font != font then some state
  else
    let table ← index.remove state.entries state.table entry.key
    match entry.place with
    | none => some (freeEntry { state with table } i)
    | some place =>
      let page ← state.pages[place.page]?
      let pages := state.pages.set place.page
        { page with slotEntries := page.slotEntries.set place.slot none
                    freeSlots := place.slot :: page.freeSlots }
      some (freeEntry { state with table, pages } i)

def atlasPurgeFont (font : Handle) : Option (FontState T) :=
  (List.range state.entries.length).foldlM (purgeEntry index font) state

def atlasShutdown : FontState T :=
  { state with entries := [], freeEntries := [], table := index.clear, pages := [] }

inductive FontAction where
  | find (key : GlyphKey)
  | acquire (key : GlyphKey) (face : Option Face)
  | purge (font : Handle)
  | shutdown

def FontState.start (desc : PluginDesc) : FontState T :=
  { desc := normalizePluginDesc desc, table := index.clear }

def FontState.step (s : FontState T × List (Option ℕ)) :
    FontAction → Option (FontState T × List (Option ℕ))
  | .find key => (atlasFindGlyph index s.1 key).map fun out => (out.1, s.2 ++ [out.2])
  | .acquire key face =>
    (atlasAcquireGlyph index s.1 key face).map fun out => (out.1, s.2 ++ [out.2])
  | .purge font => (atlasPurgeFont index s.1 font).map fun state => (state, s.2)
  | .shutdown => some (atlasShutdown index s.1, s.2)

end PulseEngine.Font
