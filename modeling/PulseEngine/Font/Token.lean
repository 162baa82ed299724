import PulseEngine.Font.GenerationRuns

/-!
# The generation as a token

Glyphs that were valid when the generation was read are valid while it has the same value, as long as it has not
changed `2 ^ 64` times in between: it is a `uint64_t` that is incremented.
-/

namespace PulseEngine.Font

open Asset Library

variable {desc : PluginDesc} {before between : List AtlasCall} {w w' : Watched GlyphTable}

/-- **The generation is a faithful token**: while it has the same value after fewer than `2 ^ 64` changes, the glyphs
that were returned since its last change have their slots, with the same pixels. -/
theorem generation_token (ran : run (Watched.step hashIndex) (Watched.start hashIndex desc) before = some w)
    (next : run (Watched.step hashIndex) w between = some w')
    (few : generationChanges hashIndex w between < 2 ^ 64) (same : w'.image.generation = w.image.generation) :
    ∀ glyph ∈ w.returned, w'.image.Occupies glyph.1 glyph.2 ∧
      ∀ x y, w'.image.slotPixel glyph.2 x y = w.image.slotPixel glyph.2 x y := by
  obtain ⟨reached, right⟩ := run_reached ran
  obtain ⟨generation, kept⟩ := reached.run next
  have none_changed : generationChanges hashIndex w between = 0 := by
    rw [generation, UInt64.add_eq_left] at same
    have mod := congrArg UInt64.toNat same
    rwa [UInt64.toNat_ofNat', Nat.mod_eq_of_lt few] at mod
  intro glyph mem
  have here := right glyph mem
  obtain ⟨i, -, is_place⟩ := occupies_iff.mp here
  exact ⟨(kept none_changed).occupies here, (kept none_changed).pixels i glyph.2 is_place⟩

def onePage : PluginDesc := ⟨256, 256, 1, 8⟩

def drawGlyph : AtlasCall := .glyph (glyphOf 1 65) (some fun _ => some false) fun _ => 255
def emptyGlyph : AtlasCall := .glyph (glyphOf 2 65) (some fun _ => some true) fun _ => 0

/-- A glyph keeps its slot when an empty one is acquired. -/
theorem generation_token_kept :
    ∃ w w', run (Watched.step hashIndex) (Watched.start hashIndex onePage) [drawGlyph] = some w ∧
      run (Watched.step hashIndex) w [emptyGlyph] = some w' ∧ w.returned = [(glyphOf 1 65, ⟨0, 0⟩)] ∧
        ∀ glyph ∈ w.returned, w'.image.Occupies glyph.1 glyph.2 ∧
          ∀ x y, w'.image.slotPixel glyph.2 x y = w.image.slotPixel glyph.2 x y := by
  have first : ((run (Watched.step hashIndex) (Watched.start hashIndex onePage) [drawGlyph]).map fun w =>
      (w.returned, generationChanges hashIndex w [emptyGlyph], w.image.generation,
        (run (Watched.step hashIndex) w [emptyGlyph]).map fun w' => w'.image.generation)) =
      some ([(glyphOf 1 65, ⟨0, 0⟩)], 0, 0, some 0) := by
    decide +kernel
  obtain ⟨w, ran, eq⟩ := Option.map_eq_some_iff.mp first
  obtain ⟨returned, changes, generation, next⟩ : _ ∧ _ ∧ _ ∧ _ := by simpa only [Prod.mk.injEq] using eq
  obtain ⟨w', next, generation'⟩ := Option.map_eq_some_iff.mp next
  refine ⟨w, w', ran, next, returned, generation_token ran next ?_ (generation'.trans generation.symm)⟩
  rw [changes]
  exact Nat.two_pow_pos 64

section Cycle

variable {T : Type} {index : GlyphIndex T} (table table' : T) (pages : List AtlasPage) (pixels : List (ℕ → UInt8))
  (tick generation : UInt64)

def emptyEntry (time : UInt64) : GlyphEntry := { key := glyphOf 2 65, occupied := true, lastUsed := time }

def emptied : Watched T where
  image :=
    { atlas := { desc := onePage, table, entries := [{}], freeEntries := [0], pages, tick }
      generation, pixels }
  returned := []

def withEmpty : Watched T where
  image :=
    { atlas := { desc := onePage, table := table', entries := [emptyEntry (tick + 1)], pages, tick := tick + 1 }
      generation, pixels }
  returned := []

variable {table table'}

lemma emptied_kept (image : AtlasImage T) : (emptied table pages pixels tick generation).kept image = [] := by
  rw [Watched.kept]
  split <;> rfl

lemma withEmpty_kept (image : AtlasImage T) : (withEmpty table' pages pixels tick generation).kept image = [] := by
  rw [Watched.kept]
  split <;> rfl

lemma step_emptyGlyph (absent : index.find [{}] table (glyphOf 2 65) = some none)
    (inserted : ∀ time, index.insert [emptyEntry time] table 0 = some table') :
    (emptied table pages pixels tick generation).step index emptyGlyph =
      some (withEmpty table' pages pixels tick generation) := by
  have find : atlasFindGlyph index (emptied table pages pixels tick generation).image.atlas (glyphOf 2 65) =
      some ((emptied table pages pixels tick generation).image.atlas, none) :=
    Option.bind_eq_some_iff.mpr ⟨none, absent, rfl⟩
  have placed : placeEmpty index (emptied table pages pixels tick generation).image.atlas (glyphOf 2 65) =
      some ((withEmpty table' pages pixels tick generation).image.atlas, some 0) :=
    Option.bind_eq_some_iff.mpr ⟨table', inserted (tick + 1), rfl⟩
  have acquired : (emptied table pages pixels tick generation).image.acquire index (glyphOf 2 65)
      (some fun _ => some true) (fun _ => 0) =
        some ((withEmpty table' pages pixels tick generation).image, some 0) := by
    refine Option.bind_eq_some_iff.mpr ⟨_, find, ?_⟩
    exact Option.map_eq_some_iff.mpr ⟨_, placed, rfl⟩
  rw [emptyGlyph, Watched.step, acquired, Option.map_some, emptied_kept]
  rfl

lemma step_purge (removed : ∀ time, index.remove [emptyEntry time] table' (glyphOf 2 65) = some table) :
    (withEmpty table' pages pixels tick generation).step index (.purge ⟨1, 2, 1⟩) =
      some (emptied table pages pixels (tick + 1) (generation + 1)) := by
  have purged : (withEmpty table' pages pixels tick generation).image.purge index ⟨1, 2, 1⟩ =
      some (emptied table pages pixels (tick + 1) (generation + 1)).image := by
    have turn : purgeEntry index ⟨1, 2, 1⟩ (withEmpty table' pages pixels tick generation).image.atlas 0 =
        some (emptied table pages pixels (tick + 1) (generation + 1)).image.atlas := by
      rw [purgeEntry]
      refine Option.bind_eq_some_iff.mpr ⟨emptyEntry (tick + 1), rfl, ?_⟩
      have same : ¬ (!(emptyEntry (tick + 1)).occupied || (emptyEntry (tick + 1)).key.font != ⟨1, 2, 1⟩) = true :=
        show ¬ (false || (⟨1, 2, 1⟩ : Handle) != ⟨1, 2, 1⟩) = true by decide
      rw [if_neg same]
      exact Option.bind_eq_some_iff.mpr ⟨table, removed (tick + 1), rfl⟩
    refine Option.bind_eq_some_iff.mpr ⟨_, ?_, rfl⟩
    exact Option.bind_eq_some_iff.mpr ⟨_, turn, rfl⟩
  rw [Watched.step, purged, Option.map_some, withEmpty_kept]
  rfl

/-- **Cycles**: each of them adds one to the generation, and nothing else is left of it but the time. -/
lemma run_cycles (absent : index.find [{}] table (glyphOf 2 65) = some none)
    (inserted : ∀ time, index.insert [emptyEntry time] table 0 = some table')
    (removed : ∀ time, index.remove [emptyEntry time] table' (glyphOf 2 65) = some table) (n : ℕ) :
    ∃ calls tick', run (Watched.step index) (emptied table pages pixels tick generation) calls =
      some (emptied table pages pixels tick' (generation + UInt64.ofNat n)) := by
  induction n generalizing tick generation with
  | zero => exact ⟨[], tick, by simp⟩
  | succ n ih =>
    obtain ⟨calls, tick', ran⟩ := ih (tick + 1) (generation + 1)
    refine ⟨emptyGlyph :: .purge ⟨1, 2, 1⟩ :: calls, tick', ?_⟩
    rw [run_cons, step_emptyGlyph pages pixels tick generation absent inserted, Option.bind_some, run_cons,
      step_purge pages pixels tick generation removed, Option.bind_some, ran, UInt64.ofNat_add, UInt64.add_assoc,
      UInt64.add_comm 1]
    rfl

end Cycle

def purgedTable : GlyphTable := ⟨((List.replicate 1024 .empty).set 479 .tombstone).set 972 .tombstone, 0, 2⟩

def reusedTable : GlyphTable := ⟨purgedTable.cells.set 972 (.full 0), 1, 2⟩

lemma tableInsert_reuse (time : UInt64) : tableInsert [emptyEntry time] purgedTable 0 = some reusedTable := by
  have walked : walk (nextSlot 1024) (visitInsert purgedTable.cells 0) 1024 (firstSlot 1024 (glyphOf 2 65)) none =
      some (some (some 972, 973)) := by
    decide +kernel
  have length : purgedTable.cells.length = 1024 := by decide +kernel
  have reserved : tableReserve [emptyEntry time] purgedTable = some purgedTable := by
    rw [tableReserve, if_neg (by decide +kernel), if_pos (by decide +kernel)]
  rw [tableInsert, reserved]
  simp only [Option.bind_eq_bind, Option.bind_some, length, List.getElem?_cons_zero]
  rw [emptyEntry, walked]
  rfl

lemma tableRemove_reuse (time : UInt64) :
    tableRemove [emptyEntry time] reusedTable (glyphOf 2 65) = some purgedTable := by
  have length : reusedTable.cells.length = 1024 := by decide +kernel
  have first : firstSlot 1024 (glyphOf 2 65) = 972 := by decide +kernel
  have held : reusedTable.cells.getD 972 .empty = .full 0 := by decide +kernel
  have visited : visitFind [emptyEntry time] reusedTable.cells (glyphOf 2 65) 972 () = .inr (some (972, 0)) := by
    rw [visitFind, held]
    rfl
  have sought : tableSeek [emptyEntry time] reusedTable (glyphOf 2 65) = some (some (972, 0)) := by
    rw [tableSeek, if_neg (by decide +kernel), length]
    dsimp only
    rw [first, walk, visited]
  have table : ({ cells := reusedTable.cells.set 972 .tombstone, used := 0, occupied := 2 } : GlyphTable) =
      purgedTable := by
    decide +kernel
  rw [tableRemove, sought, ← table]
  rfl

def purgeBoth : List AtlasCall := [.purge ⟨1, 1, 1⟩, emptyGlyph, .purge ⟨1, 2, 1⟩]

lemma purged_run : ∃ w pages pixels tick,
    run (Watched.step hashIndex) (Watched.start hashIndex onePage) [drawGlyph] = some w ∧
      w.returned = [(glyphOf 1 65, ⟨0, 0⟩)] ∧ w.image.generation = 0 ∧
        run (Watched.step hashIndex) w purgeBoth = some (emptied purgedTable pages pixels tick 2) := by
  have first : ((run (Watched.step hashIndex) (Watched.start hashIndex onePage) [drawGlyph]).map fun w =>
      (w.returned, w.image.generation)) = some ([(glyphOf 1 65, ⟨0, 0⟩)], 0) := by
    decide +kernel
  have entries : ((run (Watched.step hashIndex) (Watched.start hashIndex onePage) (drawGlyph :: purgeBoth)).map
      fun w => (w.image.atlas.desc, w.image.atlas.table, w.image.atlas.entries, w.image.atlas.freeEntries)) =
        some (onePage, purgedTable, [{}], [0]) := by
    decide +kernel
  have counters : ((run (Watched.step hashIndex) (Watched.start hashIndex onePage) (drawGlyph :: purgeBoth)).map
      fun w => (w.image.generation, w.returned)) = some (2, []) := by
    decide +kernel
  obtain ⟨w, ran, eq⟩ := Option.map_eq_some_iff.mp first
  obtain ⟨returned, generation⟩ := Prod.mk.inj eq
  obtain ⟨w', both, eq⟩ := Option.map_eq_some_iff.mp entries
  rw [both] at counters
  rw [← List.singleton_append, run_append, ran, Option.bind_some] at both
  obtain ⟨⟨⟨desc, table, entries, free, pages, tick⟩, generation', pixels⟩, returned'⟩ := w'
  simp only [Prod.mk.injEq] at eq
  simp only [Option.map_some, Option.some.injEq, Prod.mk.injEq] at counters
  obtain ⟨rfl, rfl, rfl, rfl⟩ := eq
  obtain ⟨rfl, rfl⟩ := counters
  exact ⟨w, pages, pixels, tick, ran, returned, generation, both⟩

/-- **A generation comes back**: a glyph is returned and purged, and the generation has the same value after `2 ^ 64`
changes. -/
theorem not_generation_token :
    ¬ ∀ (desc : PluginDesc) (before between : List AtlasCall) (w w' : Watched GlyphTable),
      run (Watched.step hashIndex) (Watched.start hashIndex desc) before = some w →
      run (Watched.step hashIndex) w between = some w' → w'.image.generation = w.image.generation →
      ∀ glyph ∈ w.returned, w'.image.Occupies glyph.1 glyph.2 ∧
        ∀ x y, w'.image.slotPixel glyph.2 x y = w.image.slotPixel glyph.2 x y := by
  intro claim
  obtain ⟨w, pages, pixels, tick, ran, is_returned, is_zero, next⟩ := purged_run
  have absent : hashIndex.find [{}] purgedTable (glyphOf 2 65) = some none := by
    rw [hashIndex]
    decide +kernel
  have inserted : ∀ time, hashIndex.insert [emptyEntry time] purgedTable 0 = some reusedTable := tableInsert_reuse
  have removed : ∀ time, hashIndex.remove [emptyEntry time] reusedTable (glyphOf 2 65) = some purgedTable := by
    dsimp only [hashIndex]
    exact tableRemove_reuse
  obtain ⟨calls, tick', cycles⟩ := run_cycles pages pixels tick 2 absent inserted removed (2 ^ 64 - 2)
  have same : (2 : UInt64) + UInt64.ofNat (2 ^ 64 - 2) = w.image.generation := by
    rw [is_zero]
    decide
  have all : run (Watched.step hashIndex) w (purgeBoth ++ calls) =
      some (emptied purgedTable pages pixels tick' (2 + UInt64.ofNat (2 ^ 64 - 2))) := by
    rw [run_append, next]
    exact cycles
  have mem : (glyphOf 1 65, (⟨0, 0⟩ : Place)) ∈ w.returned := by
    rw [is_returned]
    exact List.mem_singleton_self _
  obtain ⟨i, entry, here, live, -⟩ := (claim onePage _ _ w _ ran all same _ mem).1
  cases i with
  | zero =>
    cases here
    cases live
  | succ i => cases here

end PulseEngine.Font
