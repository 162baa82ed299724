import PulseEngine.Font.AtlasSteps

/-!
# The atlas over the table follows the atlas over the map

The same calls on the table of the source and on the finite map: whatever ends over the table ends
over the map with the same answer, and the table stands for the map afterwards. With `d` false the
table is kept at or below `2 ^ 30` cells, and then every call that ends over the map ends over the
table.
-/

namespace PulseEngine.Font

open Asset Library

def FontState.withMap {T : Type} (s : FontState T) (map : GlyphMap) : FontState GlyphMap :=
  { s with table := map }

section WithMap

variable {T : Type} (s : FontState T) (map : GlyphMap)

@[simp] lemma withMap_desc : (s.withMap map).desc = s.desc := rfl
@[simp] lemma withMap_pages : (s.withMap map).pages = s.pages := rfl
@[simp] lemma withMap_entries : (s.withMap map).entries = s.entries := rfl
@[simp] lemma withMap_table : (s.withMap map).table = map := rfl

end WithMap

def glyphLimit : ℕ := 3 * 2 ^ 28

def Small (d : Prop) (u : ℕ) (table : GlyphTable) : Prop :=
  d ∨ table.cells.length ≤ 2 ^ 30 ∧ table.used ≤ u

def Matches (d : Prop) (u : ℕ) (s : FontState GlyphTable) (s' : FontState GlyphMap) : Prop :=
  ∃ map, s' = s.withMap map ∧ TableOk s.entries s.table map ∧ Small d u s.table

def Answers (d : Prop) (u : ℕ) (out : FontState GlyphTable × Option ℕ)
    (out' : FontState GlyphMap × Option ℕ) : Prop :=
  Matches d u out.1 out'.1 ∧ out.2 = out'.2

variable {d : Prop} {u i p : ℕ} {s : FontState GlyphTable} {s' : FontState GlyphMap}
  {entries entries' : List GlyphEntry} {table : GlyphTable} {map : GlyphMap} {key : GlyphKey}
  {entry : GlyphEntry} {tier : Fin kTierCount}

section Operations

lemma Small.room (small : Small d u table) (ok : TableOk entries table map) :
    d ∨ table.cells = [] ∨ countUsed table.cells < table.cells.length := by
  refine small.imp_right fun h => or_iff_not_imp_left.mpr fun some_cells => ok.room some_cells ?_
  exact Nat.lt_of_le_of_lt h.1 (by norm_num [maxCells])

lemma find_op (ok : TableOk entries table map) (small : Small d u table) :
    Follows d (· = ·) (hashIndex.find entries table key) (mapIndex.find entries map key) := by
  refine .of_eq rfl (fun found ended => tableFind_spec ok ended) fun missing => ?_
  refine (small.room ok).resolve_right fun room => ?_
  have ended := tableFind_isSome key ok room
  rw [show tableFind entries table key = none from missing] at ended
  cases ended

lemma remove_op (ok : TableOk entries table map) (small : Small d u table) :
    Follows d (fun table' map' => TableOk entries table' map' ∧ Small d u table')
      (hashIndex.remove entries table key) (mapIndex.remove entries map key) := by
  refine .of_eq rfl (fun table' ended => ?_) fun missing => ?_
  · obtain ⟨ok', size, used⟩ := tableRemove_spec ok ended
    exact ⟨ok', small.imp_right fun h => ⟨size ▸ h.1, used.trans h.2⟩⟩
  · refine (small.room ok).resolve_right fun room => ?_
    obtain ⟨table', ended⟩ := tableRemove_isSome key ok room
    rw [show tableRemove entries table key = none from missing] at ended
    cases ended

lemma Grown.le {table' : GlyphTable} (grown : Grown table table') (ok : TableOk entries table map)
    (le : table.cells.length ≤ 2 ^ 30) (few : table.used < glyphLimit) :
    table'.cells.length ≤ 2 ^ 30 := by
  rw [glyphLimit] at few
  rcases grown with same | first | ⟨double, full⟩
  · rwa [same]
  · rw [first]
    norm_num
  · rcases ok.size with empty | ⟨n, -, pow⟩
    · rw [double, empty]
      norm_num
    · have small : n < 20 := by
        by_contra large
        have : 2 ^ 20 ≤ 2 ^ n := Nat.pow_le_pow_right (by norm_num) (Nat.le_of_not_lt large)
        omega
      have bound : 2 ^ n ≤ 2 ^ 19 := Nat.pow_le_pow_right (by norm_num) (by omega)
      omega

lemma insert_op (ok : TableOk entries table map) (ins : Inserting entries map i key)
    (small : Small d u table) (few : u < glyphLimit) :
    Follows d (fun table' map' => TableOk entries table' map' ∧ Small d (u + 1) table')
      (hashIndex.insert entries table i) (mapIndex.insert entries map i) := by
  obtain ⟨entry, here, -, is_key⟩ := keyOf_eq_some.mp ins.live
  have ended' : mapIndex.insert entries map i = some (map.insert key i) := by
    rw [mapIndex]
    simp only [here, Option.map_some, is_key]
  refine .of_eq ended' (fun table' ended => ?_) fun missing => ?_
  · obtain ⟨ok', grown, -⟩ := tableInsert_spec ok ins ended
    refine ⟨ok', small.imp_right fun h => ⟨grown.le ok h.1 (Nat.lt_of_le_of_lt h.2 few), ?_⟩⟩
    rw [← ok'.count, ins.count, ok.count]
    exact Nat.succ_le_succ h.2
  · refine (small.room ok).resolve_right fun room => ?_
    obtain ⟨table', ended⟩ := tableInsert_isSome ok ins room
    rw [show tableInsert entries table i = none from missing] at ended
    cases ended

lemma TableOk.keep (ok : TableOk entries table map) (same : keyOf entries' = keyOf entries) :
    TableOk entries' table map :=
  ok.frame fun _ j _ => congrFun same j

lemma TableOk.write (ok : TableOk entries table map) (dead : keyOf entries i = none) :
    TableOk (entries.set i entry) table map := by
  refine ok.frame fun k j looked => ?_
  have ne : j ≠ i := by
    rintro rfl
    rw [(ok.represents.held looked).1] at dead
    cases dead
  rw [keyOf, List.getElem?_set_ne ne.symm]
  rfl

lemma TableOk.clear_entry (ok : TableOk entries table (map.erase entry.key))
    (here : entries[i]? = some entry) : TableOk (entries.set i {}) table (map.erase entry.key) := by
  refine ok.frame fun k j looked => ?_
  have ne : j ≠ i := by
    rintro rfl
    obtain ⟨entry', here', -, rfl⟩ := keyOf_eq_some.mp (ok.represents.held looked).1
    rw [here] at here'
    cases here'
    rw [AList.lookup_erase] at looked
    cases looked
  rw [keyOf, List.getElem?_set_ne ne.symm]
  rfl

end Operations

section Functions

lemma find_follows (matched : Matches d u s s') :
    Follows d (Answers d u) (atlasFindGlyph hashIndex s key) (atlasFindGlyph mapIndex s' key) := by
  obtain ⟨map, rfl, ok, small⟩ := matched
  rw [atlasFindGlyph, atlasFindGlyph]
  refine (find_op ok small).bind fun found found' same _ _ => ?_
  subst same
  cases found with
  | none => exact .pure ⟨⟨map, rfl, ok, small⟩, rfl⟩
  | some i =>
    refine Follows.same fun entry here => ?_
    have keep : ∀ time, keyOf (s.entries.set i { entry with lastUsed := time }) = keyOf s.entries :=
      fun time => liveField_touch here rfl
    dsimp only
    split
    · exact .pure ⟨⟨map, rfl, ok.keep (keep _), small⟩, rfl⟩
    · exact Follows.same fun page _ => .pure ⟨⟨map, rfl, ok.keep (keep _), small⟩, rfl⟩

lemma evictSlots_follows {slots : List (Option ℕ)} (matched : Matches d u s s') :
    Follows d (Matches d u) (evictSlots hashIndex slots s) (evictSlots mapIndex slots s') := by
  induction slots generalizing s s' with
  | nil => exact .pure matched
  | cons content slots ih =>
    cases content with
    | none => exact ih matched
    | some i =>
      obtain ⟨map, rfl, ok, small⟩ := matched
      rw [evictSlots, evictSlots]
      refine Follows.same fun entry here => ?_
      refine (remove_op ok small).bind fun table' map' related _ removed => ?_
      cases removed
      exact ih ⟨_, rfl, related.1.clear_entry here, related.2⟩

lemma evict_follows (matched : Matches d u s s') :
    Follows d (Answers d u) (pageEvictLru hashIndex s tier) (pageEvictLru mapIndex s' tier) := by
  obtain ⟨map, rfl, ok, small⟩ := matched
  rw [pageEvictLru, pageEvictLru]
  rw [withMap_pages]
  cases lruFrom s.pages 0 none 0xFFFFFFFFFFFFFFFF with
  | none => exact .pure ⟨⟨map, rfl, ok, small⟩, rfl⟩
  | some victim =>
    refine Follows.same fun page _ => ?_
    refine (evictSlots_follows ⟨map, rfl, ok, small⟩).bind fun s₁ s₁' matched₁ _ _ => ?_
    obtain ⟨map₁, rfl, ok₁, small₁⟩ := matched₁
    exact .pure ⟨⟨map₁, rfl, ok₁, small₁⟩, rfl⟩

lemma page_follows (matched : Matches d u s s') :
    Follows d (Answers d u) (acquirePage hashIndex s tier) (acquirePage mapIndex s' tier) := by
  have matched' := matched
  obtain ⟨map, rfl, ok, small⟩ := matched
  rw [acquirePage, acquirePage]
  rw [withMap_pages, withMap_desc]
  cases s.pages.findIdx? fun page => decide (page.tier = tier ∧ ¬ page.freeSlots.isEmpty) with
  | some p => exact .pure ⟨matched', rfl⟩
  | none =>
    dsimp only
    split
    · refine .pure ?_
      rw [pageCreate, pageCreate, withMap_desc]
      split
      · exact ⟨matched', rfl⟩
      · exact ⟨⟨map, rfl, ok, small⟩, rfl⟩
    · exact evict_follows matched'

lemma alloc_matches (matched : Matches d u s s') (sound : Sound s') :
    Matches d u (allocEntry s).1 (allocEntry s').1 ∧ (allocEntry s).2 = (allocEntry s').2 := by
  obtain ⟨map, rfl, ok, small⟩ := matched
  have keys := sound.alloc_keys
  rw [allocEntry] at keys
  rw [allocEntry, allocEntry]
  rw [show (s.withMap map).freeEntries = s.freeEntries from rfl] at keys ⊢
  cases free : s.freeEntries with
  | nil =>
    rw [free] at keys
    exact ⟨⟨map, rfl, ok.keep keys, small⟩, rfl⟩
  | cons i rest =>
    rw [free] at keys
    exact ⟨⟨map, rfl, ok.keep keys, small⟩, rfl⟩

lemma alloc_table (s : FontState GlyphMap) : (allocEntry s).1.table = s.table := by
  rw [allocEntry]
  split <;> rfl

lemma placeEmpty_follows (matched : Matches d u s s') (sound : Sound s')
    (absent : s'.table.lookup key = none) (few : u < glyphLimit) :
    Follows d (Answers d (u + 1)) (placeEmpty hashIndex s key) (placeEmpty mapIndex s' key) := by
  obtain ⟨matched₁, same⟩ := alloc_matches matched sound
  have allocated := sound.alloc
  rw [← alloc_table s'] at absent
  rw [placeEmpty, placeEmpty]
  generalize allocEntry s = alloc at *
  generalize allocEntry s' = alloc' at *
  obtain ⟨s₁, i⟩ := alloc
  obtain ⟨s₁', i'⟩ := alloc'
  obtain ⟨map, rfl, ok, small⟩ := matched₁
  dsimp only at same allocated absent ⊢
  subst same
  have ins : ∀ time, Inserting (s₁.entries.set i { key, occupied := true, lastUsed := time }) map
      i key := fun time => allocated.inserting absent rfl rfl
  refine (insert_op (ok.write allocated.dead) (ins _) small few).bind
    fun table' map' related _ _ => ?_
  exact .pure ⟨⟨map', rfl, related.1, related.2⟩, rfl⟩

lemma placeGlyph_follows (matched : Matches d u s s') (allocated : Allocated s' i)
    (absent : s'.table.lookup key = none) (few : u < glyphLimit) :
    Follows d (Answers d (u + 1)) (placeGlyph hashIndex s key i p)
      (placeGlyph mapIndex s' key i p) := by
  obtain ⟨map, rfl, ok, small⟩ := matched
  rw [placeGlyph, placeGlyph]
  refine Follows.same fun page _ => ?_
  split
  · exact .none
  next slot rest _ =>
    have ins : ∀ time, Inserting (s.entries.set i
        { key, occupied := true, lastUsed := time, place := some ⟨p, slot⟩ }) map i key :=
      fun time => allocated.inserting absent rfl rfl
    refine (insert_op (ok.write allocated.dead) (ins _) small few).bind
      fun table' map' related _ _ => ?_
    exact .pure ⟨⟨map', rfl, related.1, related.2⟩, rfl⟩

lemma Matches.mono {u' : ℕ} (matched : Matches d u s s') (le : u ≤ u') : Matches d u' s s' := by
  obtain ⟨map, eq, ok, small⟩ := matched
  exact ⟨map, eq, ok, small.imp_right fun h => ⟨h.1, h.2.trans le⟩⟩

lemma acquire_follows {face : Option Face} (matched : Matches d u s s') (sound : Sound s')
    (few : u < glyphLimit) :
    Follows d (Answers d (u + 1)) (atlasAcquireGlyph hashIndex s key face)
      (atlasAcquireGlyph mapIndex s' key face) := by
  have weaken : ∀ {s s'}, Matches d u s s' → Matches d (u + 1) s s' :=
    fun matched => matched.mono (Nat.le_succ u)
  rw [atlasAcquireGlyph, atlasAcquireGlyph]
  refine (find_follows matched).bind fun out out' answers _ found' => ?_
  obtain ⟨s₁, found⟩ := out
  obtain ⟨s₁', found₁⟩ := out'
  obtain ⟨matched₁, same⟩ := answers
  obtain ⟨sound₁, table, is_found⟩ := sound.find found'
  dsimp only at matched₁ same ⊢
  subst same
  cases found with
  | some i => exact .pure ⟨weaken matched₁, rfl⟩
  | none =>
    have absent : s₁'.table.lookup key = none := by rw [table, ← is_found]
    dsimp only
    split
    · exact .pure ⟨weaken matched₁, rfl⟩
    · exact placeEmpty_follows matched₁ sound₁ absent few
    · obtain ⟨matched₂, same⟩ := alloc_matches matched₁ sound₁
      have allocated := sound₁.alloc
      rw [← alloc_table s₁'] at absent
      generalize allocEntry s₁ = alloc at *
      generalize allocEntry s₁' = alloc' at *
      obtain ⟨s₂, i⟩ := alloc
      obtain ⟨s₂', i'⟩ := alloc'
      dsimp only at same allocated absent matched₂ ⊢
      subst same
      refine (page_follows matched₂).bind fun out out' answers _ paged => ?_
      obtain ⟨s₃, page⟩ := out
      obtain ⟨s₃', page'⟩ := out'
      obtain ⟨matched₃, same⟩ := answers
      obtain ⟨allocated', kept⟩ := allocated.page paged
      dsimp only at same ⊢
      subst same
      cases page with
      | some p => exact placeGlyph_follows matched₃ allocated' (kept key absent) few
      | none =>
        obtain ⟨map, rfl, ok, small⟩ := weaken matched₃
        exact .pure ⟨⟨map, rfl, ok.write allocated'.dead, small⟩, rfl⟩

lemma purgeEntry_follows {font : Handle} (matched : Matches d u s s') :
    Follows d (Matches d u) (purgeEntry hashIndex font s i) (purgeEntry mapIndex font s' i) := by
  obtain ⟨map, rfl, ok, small⟩ := matched
  rw [purgeEntry, purgeEntry]
  refine Follows.same fun entry here => ?_
  split
  · exact .pure ⟨map, rfl, ok, small⟩
  · refine (remove_op ok small).bind fun table' map' related _ removed => ?_
    cases removed
    split
    · exact .pure ⟨_, rfl, related.1.clear_entry here, related.2⟩
    · exact Follows.same fun page _ => .pure ⟨_, rfl, related.1.clear_entry here, related.2⟩

lemma purge_follows {font : Handle} (matched : Matches d u s s') :
    Follows d (Matches d u) (atlasPurgeFont hashIndex s font)
      (atlasPurgeFont mapIndex s' font) := by
  have length : s'.entries.length = s.entries.length := by
    obtain ⟨map, rfl, -⟩ := matched
    rfl
  rw [atlasPurgeFont, atlasPurgeFont, length]
  have turn : ∀ s s' i, Matches d u s s' → True →
      Follows d (Matches d u) (purgeEntry hashIndex font s i) (purgeEntry mapIndex font s' i) :=
    fun _ _ _ related _ => purgeEntry_follows related
  exact Follows.run turn matched (Along.of_forall fun _ _ => trivial)

end Functions

section Steps

def Related (d : Prop) (out : FontState GlyphTable × List (Option ℕ))
    (out' : FontState GlyphMap × List (Option ℕ)) : Prop :=
  Matches d glyphLimit out.1 out'.1 ∧ out.2 = out'.2 ∧ Sound out'.1

/-- The condition on a call: when a glyph is acquired, fewer than `glyphLimit` are in the table. -/
def FewGlyphs (s : FontState GlyphTable × List (Option ℕ)) : FontAction → Prop
  | .acquire _ _ => s.1.table.used < glyphLimit
  | _ => True

instance FewGlyphs.decidable (s : FontState GlyphTable × List (Option ℕ)) :
    ∀ a, Decidable (FewGlyphs s a)
  | .acquire _ _ => inferInstanceAs (Decidable (s.1.table.used < glyphLimit))
  | .find _ => .isTrue trivial
  | .purge _ => .isTrue trivial
  | .shutdown => .isTrue trivial

/-- **Step lemma.** A call over the table follows the call over the map. -/
theorem step_follows {out : FontState GlyphTable × List (Option ℕ)}
    {out' : FontState GlyphMap × List (Option ℕ)} {a : FontAction} (related : Related d out out')
    (few : d ∨ FewGlyphs out a) :
    Follows d (Related d) (FontState.step hashIndex out a) (FontState.step mapIndex out' a) := by
  obtain ⟨s, answers⟩ := out
  obtain ⟨s', answers'⟩ := out'
  obtain ⟨matched, same, sound⟩ := related
  dsimp only at matched same sound few
  subst same
  cases a with
  | find key =>
    refine (find_follows matched).map fun out out' related found => ?_
    exact ⟨related.1, by rw [related.2], (sound.find found).1⟩
  | acquire key face =>
    have matched' : Matches d (glyphLimit - 1) s s' := by
      obtain ⟨map, eq, ok, small⟩ := matched
      refine ⟨map, eq, ok, few.elim .inl fun few => small.imp_right fun h => ⟨h.1, ?_⟩⟩
      exact Nat.le_sub_one_of_lt few
    refine (acquire_follows matched' sound (by norm_num [glyphLimit])).map
      fun out out' related acquired => ?_
    exact ⟨related.1, by rw [related.2], sound.acquire acquired⟩
  | purge font =>
    refine (purge_follows matched).map fun s₁ s₁' related purged => ?_
    exact ⟨related, rfl, sound.purge purged⟩
  | shutdown =>
    obtain ⟨map, rfl, -, -⟩ := matched
    exact .pure ⟨⟨∅, rfl, .clear, .inr ⟨Nat.zero_le _, Nat.zero_le _⟩⟩, rfl, .empty _ _⟩

lemma start_related (d : Prop) (desc : PluginDesc) :
    Related d (FontState.start hashIndex desc, []) (FontState.start mapIndex desc, []) :=
  ⟨⟨∅, rfl, .clear, .inr ⟨Nat.zero_le _, Nat.zero_le _⟩⟩, rfl, .empty _ _⟩

end Steps

end PulseEngine.Font

/-!
## Slots and glyphs

In every state of the atlas the free slots and the slots with an entry make up the grid of each
page, and slots and glyphs name each other. The invariant of the atlas over the finite map says so
of the map's run, and the entries and pages of the run over the table are the same.
-/

namespace PulseEngine.Font

open Asset Library

def AtlasPage.occupiedSlots (page : AtlasPage) : List ℕ :=
  (List.range page.slotEntries.length).filter fun slot => page.slotEntries[slot]?.join.isSome

variable {desc : PluginDesc} {actions : List FontAction} {s : FontState GlyphTable}
  {answers : List (Option ℕ)}

/-- **Refinement.** A run over the table that ends is a run over the finite map that the table
stands for, with the same answers. -/
theorem run_refines
    (ran : run (FontState.step hashIndex) (FontState.start hashIndex desc, []) actions
      = some (s, answers)) :
    ∃ s', run (FontState.step mapIndex) (FontState.start mapIndex desc, []) actions
        = some (s', answers) ∧ s' = s.withMap s'.table ∧ TableOk s.entries s.table s'.table ∧
      Sound s' := by
  have next : ∀ out out' a, Related True out out' → True →
      Follows True (Related True) (FontState.step hashIndex out a)
        (FontState.step mapIndex out' a) :=
    fun _ _ _ related _ => step_follows related (.inl trivial)
  have follows : Follows True (Related True)
      (run (FontState.step hashIndex) (FontState.start hashIndex desc, []) actions)
      (run (FontState.step mapIndex) (FontState.start mapIndex desc, []) actions) :=
    Follows.run next (start_related True desc) (Along.of_forall fun _ _ => trivial)
  obtain ⟨⟨s', answers'⟩, ran', ⟨map, eq, ok, -⟩, same, sound⟩ := follows.matched ran
  dsimp only at eq same sound
  subst eq same
  exact ⟨_, ran', rfl, ok, sound⟩

lemma AtlasPage.mem_occupiedSlots {page : AtlasPage} {slot : ℕ} :
    slot ∈ page.occupiedSlots ↔ ∃ i, page.slotEntries[slot]? = some (some i) := by
  rw [AtlasPage.occupiedSlots, List.mem_filter, List.mem_range, Option.isSome_iff_exists]
  simp only [Option.join_eq_some_iff]
  refine ⟨And.right, fun held => ⟨?_, held⟩⟩
  obtain ⟨i, held⟩ := held
  exact (List.getElem?_eq_some_iff.mp held).1

lemma AtlasPage.Tidy.partition {page : AtlasPage} (tidy : page.Tidy) :
    (page.freeSlots ++ page.occupiedSlots).Perm (List.range page.slotCount) := by
  have distinct : (page.freeSlots ++ page.occupiedSlots).Nodup := by
    refine List.nodup_append.mpr ⟨tidy.distinct, List.nodup_range.filter _, ?_⟩
    rintro slot free slot' held rfl
    obtain ⟨i, held⟩ := AtlasPage.mem_occupiedSlots.mp held
    rw [(tidy.free slot).mp free] at held
    cases held
  refine (List.perm_ext_iff_of_nodup distinct List.nodup_range).mpr fun slot => ?_
  rw [List.mem_append, List.mem_range, tidy.free, AtlasPage.mem_occupiedSlots, ← tidy.size]
  constructor
  · rintro (free | ⟨i, held⟩)
    · exact (List.getElem?_eq_some_iff.mp free).1
    · exact (List.getElem?_eq_some_iff.mp held).1
  · intro lt
    have here := List.getElem?_eq_getElem lt
    cases content : page.slotEntries[slot] with
    | none => exact .inl (by rw [here, content])
    | some i => exact .inr ⟨i, by rw [here, content]⟩

/-- **Atlas slots.** In every state of the atlas the free slots and the occupied slots of a page are
a permutation of its grid, each occupied slot has exactly one entry, which is a live glyph that
names the slot back, every live glyph with a place is named by its slot, and no two share one. -/
theorem atlas_slots_partition
    (ran : run (FontState.step hashIndex) (FontState.start hashIndex desc, []) actions
      = some (s, answers)) :
    (∀ page ∈ s.pages,
        (page.freeSlots ++ page.occupiedSlots).Perm (List.range page.slotCount))
      ∧ (∀ (p : ℕ) (page : AtlasPage) (slot : ℕ), s.pages[p]? = some page →
          slot ∈ page.occupiedSlots →
          ∃! i, page.slotEntries[slot]? = some (some i) ∧ ∃ entry, s.entries[i]? = some entry ∧
            entry.occupied = true ∧ entry.place = some ⟨p, slot⟩)
      ∧ (∀ (i : ℕ) (entry : GlyphEntry) (place : Place), s.entries[i]? = some entry →
          entry.occupied = true → entry.place = some place →
          ∃ page, s.pages[place.page]? = some page ∧
            page.slotEntries[place.slot]? = some (some i))
      ∧ ∀ (i j : ℕ) (entry entry' : GlyphEntry) (place : Place), s.entries[i]? = some entry →
          s.entries[j]? = some entry' → entry.occupied = true → entry'.occupied = true →
          entry.place = some place → entry'.place = some place → i = j := by
  obtain ⟨s', -, eq, -, sound⟩ := run_refines ran
  rw [eq] at sound
  have named : Inverse (placeOf s.entries) (slotAt s.pages) := sound.named
  have placed : ∀ (i : ℕ) (entry : GlyphEntry) (place : Place), s.entries[i]? = some entry →
      entry.occupied = true → entry.place = some place → placeOf s.entries i = some place :=
    fun i entry place here live at_place => (placeOf_of_live here live).trans at_place
  refine ⟨fun page mem => (sound.tidy page mem).partition, ?_, ?_, ?_⟩
  · intro p page slot at_p mem
    obtain ⟨i, held⟩ := AtlasPage.mem_occupiedSlots.mp mem
    have back := (named i ⟨p, slot⟩).mpr (slotAt_eq_some.mpr ⟨page, at_p, held⟩)
    obtain ⟨entry, here, live⟩ := Option.bind_eq_some_iff.mp back
    split_ifs at live with occupied
    refine ⟨i, ⟨held, entry, here, occupied, live⟩, ?_⟩
    rintro j ⟨held', -⟩
    rw [held] at held'
    cases held'
    rfl
  · intro i entry place here live at_place
    exact slotAt_eq_some.mp ((named i place).mp (placed i entry place here live at_place))
  · intro i j entry entry' place here here' live live' at_place at_place'
    exact named.injective (placed i entry place here live at_place)
      (placed j entry' place here' live' at_place')

def glyphOf (font : ℕ) (codepoint : UInt32) : GlyphKey := { font := ⟨1, font, 1⟩, codepoint }

def acquireAndPurge : List FontAction :=
  [.acquire (glyphOf 1 65) (some fun _ => some false),
    .acquire (glyphOf 2 65) (some fun _ => some false), .purge ⟨1, 1, 1⟩]

/-- A glyph is taken out with its font, and its slot is free again. -/
theorem atlas_slots_partition_purged :
    ∃ s answers,
      run (FontState.step hashIndex) (FontState.start hashIndex ⟨256, 256, 1, 8⟩, [])
          acquireAndPurge = some (s, answers)
      ∧ s.pages.map AtlasPage.occupiedSlots = [[1]]
      ∧ ∀ page ∈ s.pages,
        (page.freeSlots ++ page.occupiedSlots).Perm (List.range page.slotCount) := by
  have slots : (run (FontState.step hashIndex) (FontState.start hashIndex ⟨256, 256, 1, 8⟩, [])
      acquireAndPurge).map (fun out => out.1.pages.map AtlasPage.occupiedSlots) = some [[1]] := by
    decide +kernel
  obtain ⟨⟨s, answers⟩, ran, held⟩ := Option.map_eq_some_iff.mp slots
  exact ⟨s, answers, ran, held, (atlas_slots_partition ran).1⟩

end PulseEngine.Font
