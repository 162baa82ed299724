import PulseEngine.Font.AtlasRefinement

/-!
# The glyph table is a finite map

While fewer than `glyphLimit` glyphs are in the table whenever one is acquired, the atlas over the
table does what the atlas over the finite map does, the counters are exact, and every loop over the
cells comes to an empty one. Beyond that the table has `2 ^ 31` cells: the comparison in
`table_reserve` has wrapped, nothing is rehashed any more, and the cells fill up until a loop finds
no empty one.
-/

namespace PulseEngine.Font

open Asset Library

variable {desc : PluginDesc} {actions : List FontAction}

lemma run_follows
    (few : Along (FontState.step hashIndex) FewGlyphs (FontState.start hashIndex desc, [])
      actions) :
    Follows False (Related False)
      (run (FontState.step hashIndex) (FontState.start hashIndex desc, []) actions)
      (run (FontState.step mapIndex) (FontState.start mapIndex desc, []) actions) := by
  have next : ∀ out out' a, Related False out out' → FewGlyphs out a →
      Follows False (Related False) (FontState.step hashIndex out a)
        (FontState.step mapIndex out' a) :=
    fun _ _ _ related few => step_follows related (.inr few)
  exact Follows.run next (start_related False desc) few

/-- **The glyph table is a map.** In a run that acquires glyphs only while fewer than `glyphLimit`
are in the table, every loop ends: the run ends if it does over the finite map. The answers are
those of the finite map, every key is found with the entry that the map has for it and no other key
is found, the counters are exact, and there is an empty cell. -/
theorem glyph_table_is_map
    (few : Along (FontState.step hashIndex) FewGlyphs (FontState.start hashIndex desc, [])
      actions) :
    (∀ s' answers, run (FontState.step mapIndex) (FontState.start mapIndex desc, []) actions
        = some (s', answers) →
      ∃ s, run (FontState.step hashIndex) (FontState.start hashIndex desc, []) actions
        = some (s, answers))
      ∧ ∀ s answers, run (FontState.step hashIndex) (FontState.start hashIndex desc, []) actions
          = some (s, answers) →
        ∃ map : GlyphMap,
          run (FontState.step mapIndex) (FontState.start mapIndex desc, []) actions
              = some (s.withMap map, answers)
            ∧ (∀ key, tableFind s.entries s.table key = some (map.lookup key))
            ∧ s.table.used = countFull s.table.cells
            ∧ s.table.occupied = s.table.used + countTombstones s.table.cells
            ∧ (s.table.cells = [] ∨ ∃ t : ℕ, s.table.cells[t]? = some .empty) := by
  have follows := run_follows few
  refine ⟨fun s' answers ran' => ?_, fun s answers ran => ?_⟩
  · obtain ⟨⟨s, answers'⟩, ran, -, same, -⟩ := follows.ends ran'
    dsimp only at same
    subst same
    exact ⟨s, ran⟩
  · obtain ⟨⟨s', answers'⟩, ran', ⟨map, eq, ok, small⟩, same, -⟩ := follows.matched ran
    dsimp only at eq same
    subst eq same
    have room := (small.room ok).resolve_left id
    refine ⟨map, ran', fun key => tableFind_isSome key ok room, ok.used, ?_, ?_⟩
    · rw [ok.occupied, countUsed_eq, ok.used]
    · refine room.imp_right fun lt => ?_
      obtain ⟨t, -, here⟩ := exists_empty lt
      exact ⟨t, here⟩

/-- Two glyphs are found again, and one of them is gone after its font is unloaded. -/
theorem glyph_table_is_map_purged :
    ∃ s answers,
      run (FontState.step hashIndex) (FontState.start hashIndex ⟨256, 256, 1, 8⟩, [])
          acquireAndPurge = some (s, answers)
      ∧ s.table.used = 1 ∧ s.table.occupied = s.table.used + countTombstones s.table.cells := by
  have few : Along (FontState.step hashIndex) FewGlyphs
      (FontState.start hashIndex ⟨256, 256, 1, 8⟩, []) acquireAndPurge := by decide +kernel
  have used : (run (FontState.step hashIndex) (FontState.start hashIndex ⟨256, 256, 1, 8⟩, [])
      acquireAndPurge).map (fun out => out.1.table.used) = some 1 := by decide +kernel
  obtain ⟨⟨s, answers⟩, ran, held⟩ := Option.map_eq_some_iff.mp used
  obtain ⟨-, -, -, -, exactly, -⟩ := (glyph_table_is_map few).2 s answers ran
  exact ⟨s, answers, ran, held, exactly⟩

section Full

def blank : Option Face := some fun _ => some true

def blankKey (n : ℕ) : GlyphKey where
  font := ⟨1, n / 0x220000 + 1, 1⟩
  codepoint := UInt32.ofNat (n / 2 % 0x110000)
  tier := ⟨n % 2, Nat.mod_lt _ (by norm_num)⟩

def acquireBlanks (n : ℕ) : List FontAction :=
  (List.range n).map fun m => .acquire (blankKey m) blank

lemma blankKey_injective {m n : ℕ} (same : blankKey m = blankKey n) : m = n := by
  have font : m / 0x220000 + 1 = n / 0x220000 + 1 := congrArg (fun key => key.font.index) same
  have codepoint : UInt32.ofNat (m / 2 % 0x110000) = UInt32.ofNat (n / 2 % 0x110000) :=
    congrArg (fun key => key.codepoint) same
  have tier : m % 2 = n % 2 := congrArg (fun key => key.tier.val) same
  have codepoint' := congrArg UInt32.toNat codepoint
  have fits : ∀ k, k % 0x110000 < UInt32.size :=
    fun k => (Nat.mod_lt k (by norm_num)).trans (by decide)
  rw [UInt32.toNat_ofNat_of_lt' (fits _), UInt32.toNat_ofNat_of_lt' (fits _)] at codepoint'
  omega

/-- The state after the first `n` keys: as many cells are in use, and no other key is there. -/
structure Filled (n : ℕ) (s : FontState GlyphTable) (s' : FontState GlyphMap) : Prop where
  matched : Matches True 0 s s'
  sound : Sound s'
  clean : s.table.occupied = s.table.used
  used : s.table.used = n
  keys : ∀ k i, s'.table.lookup k = some i → ∃ m < n, k = blankKey m

lemma acquire_blank {T : Type} {index : GlyphIndex T} {s : FontState T} {key : GlyphKey}
    {face : Option Face} (missing : index.find s.entries s.table key = some none)
    (empty : glyphEmpty key face = some true) :
    atlasAcquireGlyph index s key face = placeEmpty index s key := by
  rw [atlasAcquireGlyph, atlasFindGlyph, missing]
  simp [empty]

lemma Filled.absent {n : ℕ} {s : FontState GlyphTable} {s' : FontState GlyphMap}
    (filled : Filled n s s') : s'.table.lookup (blankKey n) = none := by
  cases looked : s'.table.lookup (blankKey n) with
  | none => rfl
  | some i =>
    obtain ⟨m, lt, same⟩ := filled.keys _ i looked
    exact absurd (blankKey_injective same) (Nat.ne_of_gt lt)

lemma Filled.room {n : ℕ} {s : FontState GlyphTable} {map : GlyphMap}
    (filled : Filled n s (s.withMap map)) (lt : n < maxCells)
    (ok : TableOk s.entries s.table map) :
    s.table.cells = [] ∨ countUsed s.table.cells < s.table.cells.length := by
  refine or_iff_not_imp_left.mpr fun some_cells => ?_
  rcases Nat.lt_or_ge s.table.cells.length maxCells with small | large
  · exact ok.room some_cells small
  · rw [← ok.occupied, filled.clean, filled.used]
    exact lt.trans_le large

lemma placeEmpty_ends {key : GlyphKey} {s : FontState GlyphTable} {map : GlyphMap}
    (ok : TableOk s.entries s.table map) (sound : Sound (s.withMap map))
    (absent : map.lookup key = none)
    (room : s.table.cells = [] ∨ countUsed s.table.cells < s.table.cells.length) :
    ∃ s₁ found, placeEmpty hashIndex s key = some (s₁, found) ∧
      (s.table.occupied = s.table.used → s₁.table.occupied = s₁.table.used) := by
  obtain ⟨⟨map₁, eq₁, ok₁, -⟩, same⟩ :=
    alloc_matches (d := True) (u := 0) ⟨map, rfl, ok, .inl trivial⟩ sound
  have allocated := sound.alloc
  have table : (allocEntry s).1.table = s.table := by
    rw [allocEntry]
    split <;> rfl
  have table' := alloc_table (s.withMap map)
  rw [← table] at room ⊢
  rw [placeEmpty]
  generalize allocEntry s = alloc at *
  generalize allocEntry (s.withMap map) = alloc' at *
  obtain ⟨s₁, i⟩ := alloc
  obtain ⟨s₁', i'⟩ := alloc'
  dsimp only at eq₁ same allocated ok₁ room table' ⊢
  subst eq₁ same
  rw [withMap_table] at table'
  subst table'
  have ins : Inserting (s₁.entries.set i { key, occupied := true, lastUsed := s₁.tick + 1 }) map₁
      i key := allocated.inserting absent rfl rfl
  have written : TableOk (s₁.entries.set i { key, occupied := true, lastUsed := s₁.tick + 1 })
      s₁.table map₁ := ok₁.write allocated.dead
  obtain ⟨table₁, inserted⟩ := tableInsert_isSome written ins room
  refine ⟨_, _, Option.bind_eq_some_iff.mpr ⟨table₁, inserted, rfl⟩, ?_⟩
  exact (tableInsert_spec written ins inserted).2.2

lemma placeEmpty_table {key : GlyphKey} {s s' : FontState GlyphMap} {found : Option ℕ}
    (sound : Sound s) (ended : placeEmpty mapIndex s key = some (s', found)) :
    ∃ i, s'.table = s.table.insert key i := by
  have allocated := sound.alloc
  have table := alloc_table s
  rw [placeEmpty] at ended
  generalize allocEntry s = alloc at *
  obtain ⟨s₁, i⟩ := alloc
  dsimp only at ended allocated table
  obtain ⟨map, inserted, ended⟩ := Option.bind_eq_some_iff.mp ended
  rw [mapIndex_insert allocated.lt] at inserted
  cases inserted
  cases ended
  exact ⟨i, by rw [table]⟩

lemma Filled.step {n : ℕ} {s : FontState GlyphTable} {s' : FontState GlyphMap}
    (filled : Filled n s s') (lt : n < maxCells) :
    ∃ s₁ s₁' found, atlasAcquireGlyph hashIndex s (blankKey n) blank = some (s₁, found) ∧
      Filled (n + 1) s₁ s₁' := by
  have absent := filled.absent
  have sound := filled.sound
  obtain ⟨map, rfl, ok, -⟩ := filled.matched
  have room := filled.room lt ok
  have missing : hashIndex.find s.entries s.table (blankKey n) = some none := by
    rw [← absent]
    exact tableFind_isSome _ ok room
  obtain ⟨s₁, found, ended, clean⟩ := placeEmpty_ends ok sound absent room
  have follows := placeEmpty_follows filled.matched sound absent (by norm_num [glyphLimit])
  obtain ⟨⟨s₁', found'⟩, ended', ⟨map₁, eq₁, ok₁, -⟩, -⟩ := follows.matched ended
  obtain ⟨i, table⟩ := placeEmpty_table sound ended'
  have sound₁ := sound.place_empty absent ended'
  dsimp only at eq₁ ok₁
  subst eq₁
  rw [withMap_table, withMap_table] at table
  subst table
  refine ⟨s₁, _, found, (acquire_blank missing rfl).trans ended,
    ⟨⟨_, rfl, ok₁, .inl trivial⟩, sound₁, clean filled.clean, ?_, fun k j looked => ?_⟩⟩
  · rw [withMap_table] at absent
    rw [← ok₁.count, insert_keys_length absent, ok.count, filled.used]
  · by_cases eq : k = blankKey n
    · exact ⟨n, Nat.lt_succ_self n, eq⟩
    · rw [withMap_table, AList.lookup_insert_ne eq] at looked
      obtain ⟨m, lt', same⟩ := filled.keys k j looked
      exact ⟨m, Nat.lt_succ_of_lt lt', same⟩

lemma acquireBlanks_filled (desc : PluginDesc) {n : ℕ} (le : n ≤ maxCells) :
    ∃ s s' answers, run (FontState.step hashIndex) (FontState.start hashIndex desc, [])
        (acquireBlanks n) = some (s, answers) ∧ Filled n s s' := by
  induction n with
  | zero =>
    refine ⟨FontState.start hashIndex desc, FontState.start mapIndex desc, [], rfl,
      ⟨⟨∅, rfl, .clear, .inl trivial⟩, .empty _ _, rfl, rfl, fun k i looked => ?_⟩⟩
    exact nomatch (AList.lookup_empty k).symm.trans looked
  | succ n ih =>
    obtain ⟨s, s', answers, ran, filled⟩ := ih (Nat.le_of_succ_le le)
    obtain ⟨s₁, s₁', found, ended, filled₁⟩ := filled.step le
    refine ⟨s₁, s₁', answers ++ [found], ?_, filled₁⟩
    have more : acquireBlanks (n + 1) = acquireBlanks n ++ [.acquire (blankKey n) blank] := by
      rw [acquireBlanks, List.range_succ, List.map_append]
      rfl
    rw [more, run_snoc ran, FontState.step, ended, Option.map_some]

/-- After `2 ^ 31` blank glyphs there is no empty cell, and the loop for the next one never ends. -/
theorem glyph_table_fills :
    ¬ ∀ (desc : PluginDesc) (actions : List FontAction) (s : FontState GlyphTable)
        (answers : List (Option ℕ)),
      run (FontState.step hashIndex) (FontState.start hashIndex desc, []) actions
          = some (s, answers) →
      (s.table.cells = [] ∨ ∃ t : ℕ, s.table.cells[t]? = some .empty)
        ∧ ∀ key, ∃ found, tableFind s.entries s.table key = some found := by
  intro claim
  obtain ⟨s, s', answers, ran, filled⟩ := acquireBlanks_filled ⟨2048, 2048, 4, 8⟩ (le_refl maxCells)
  have absent := filled.absent
  obtain ⟨map, rfl, ok, -⟩ := filled.matched
  have used := countUsed_le s.table.cells
  rw [← ok.occupied, filled.clean, filled.used] at used
  have some_cells : s.table.cells ≠ [] := by
    rintro empty
    rw [empty] at used
    exact absurd used (by norm_num [maxCells])
  have full : countUsed s.table.cells = s.table.cells.length := by
    obtain ⟨n, le, pow⟩ := ok.size.resolve_left some_cells
    have bound : 2 ^ n ≤ 2 ^ 21 := Nat.pow_le_pow_right (by norm_num) le
    rw [← ok.occupied, filled.clean, filled.used, pow]
    rw [maxCells] at used ⊢
    omega
  obtain ⟨found, ended⟩ := (claim _ _ s answers ran).2 (blankKey maxCells)
  rw [tableFind, tableSeek_eq_none ok absent some_cells full] at ended
  cases ended

end Full

end PulseEngine.Font
