import PulseEngine.Font.MapOfGlyphs

/-!
# Every call of the atlas returns

With at least one slot in a page no call reads outside of a vector or takes the back of an empty
one, so over the finite map every call returns, and over the table every call that acquires a glyph
below the limit does. A page has a slot unless the product of its two sides wraps to zero.
-/

namespace PulseEngine.Font

open Asset Library

def HasSlots (desc : PluginDesc) : Prop :=
  ∀ tier, 0 < u32 (desc.atlasWidth / slotSize desc tier * (desc.atlasHeight / slotSize desc tier))

variable {s s' : FontState GlyphMap} {i p : ℕ} {key : GlyphKey} {tier : Fin kTierCount}
  {found : Option ℕ}

lemma slotSize_le (desc : PluginDesc) (tier : Fin kTierCount) :
    0 < slotSize (normalizePluginDesc desc) tier ∧
      slotSize (normalizePluginDesc desc) tier ≤ (normalizePluginDesc desc).atlasWidth ∧
      slotSize (normalizePluginDesc desc) tier ≤ (normalizePluginDesc desc).atlasHeight := by
  have base : 0 < kTierBaseSizes tier ∧ kTierBaseSizes tier ≤ 96 := by
    fin_cases tier <;> decide
  have padding : (normalizePluginDesc desc).sdfPadding ≤ 64 := by
    rw [normalizePluginDesc]
    dsimp only
    split_ifs <;> omega
  have width : 256 ≤ (normalizePluginDesc desc).atlasWidth := by
    rw [normalizePluginDesc]
    dsimp only
    split_ifs <;> omega
  have height : 256 ≤ (normalizePluginDesc desc).atlasHeight := by
    rw [normalizePluginDesc]
    dsimp only
    split_ifs <;> omega
  rw [slotSize]
  omega

lemma hasSlots_of_small (desc : PluginDesc)
    (small : (normalizePluginDesc desc).atlasWidth * (normalizePluginDesc desc).atlasHeight
      < 2 ^ 32) : HasSlots (normalizePluginDesc desc) := by
  intro tier
  obtain ⟨pos, width, height⟩ := slotSize_le desc tier
  have grid := Nat.mul_pos (Nat.div_pos width pos) (Nat.div_pos height pos)
  generalize normalizePluginDesc desc = desc at *
  have le := Nat.mul_le_mul (Nat.div_le_self desc.atlasWidth (slotSize desc tier))
    (Nat.div_le_self desc.atlasHeight (slotSize desc tier))
  rw [u32, Nat.mod_eq_of_lt (le.trans_lt small)]
  exact grid

lemma resetPageSlots_free {desc : PluginDesc} (tier : Fin kTierCount) (slots : HasSlots desc)
    (lastUsed : UInt64) :
    ∃ slot rest, (resetPageSlots desc tier lastUsed).freeSlots = slot :: rest := by
  obtain ⟨n, eq⟩ := Nat.exists_eq_add_one.mpr (slots tier)
  refine ⟨0, (List.range n).map Nat.succ, ?_⟩
  show List.range _ = _
  rw [eq, List.range_succ_eq_map]

lemma evictSlots_total {slots : List (Option ℕ)}
    (entries : ∀ j, some j ∈ slots → j < s.entries.length) :
    ∃ s', evictSlots mapIndex slots s = some s' := by
  induction slots generalizing s with
  | nil => exact ⟨s, rfl⟩
  | cons content slots ih =>
    cases content with
    | none => exact ih fun j mem => entries j (List.mem_cons_of_mem _ mem)
    | some i =>
      have lt := entries i List.mem_cons_self
      obtain ⟨s', ended⟩ := @ih
        (freeEntry { s with table := s.table.erase s.entries[i].key } i) fun j mem => by
          show j < (s.entries.set i {}).length
          rw [List.length_set]
          exact entries j (List.mem_cons_of_mem _ mem)
      exact ⟨s', Option.bind_eq_some_iff.mpr ⟨_, List.getElem?_eq_getElem lt, ended⟩⟩

def Chosen (s : FontState GlyphMap) (found : Option ℕ) : Prop :=
  ∀ p, found = some p → ∃ page slot rest, s.pages[p]? = some page ∧ page.freeSlots = slot :: rest

lemma Allocated.evict_total (allocated : Allocated s i) (slots : HasSlots s.desc) :
    ∃ s' found, pageEvictLru mapIndex s tier = some (s', found) ∧ Chosen s' found := by
  rw [pageEvictLru]
  cases lru : lruFrom s.pages 0 none 0xFFFFFFFFFFFFFFFF with
  | none => exact ⟨s, none, rfl, by rintro _ ⟨⟩⟩
  | some victim =>
    have lt : victim < s.pages.length := by
      simpa using (lruFrom_lt lru).resolve_left (by rintro ⟨⟩)
    have at_victim := List.getElem?_eq_getElem lt
    have entries : ∀ j, some j ∈ s.pages[victim].slotEntries → j < s.entries.length := by
      intro j mem
      obtain ⟨k, live⟩ :=
        Option.ne_none_iff_exists'.mp (allocated.slots_live at_victim j mem)
      exact keyOf_lt live
    obtain ⟨s₁, ended⟩ := evictSlots_total entries
    have done := allocated.toSound.evicted at_victim ended
    obtain ⟨slot, rest, free⟩ := resetPageSlots_free tier (done.desc ▸ slots) (s₁.tick + 1)
    refine ⟨_, some victim, Option.bind_eq_some_iff.mpr ⟨_, at_victim,
      Option.bind_eq_some_iff.mpr ⟨s₁, ended, rfl⟩⟩, ?_⟩
    rintro p ⟨⟩
    refine ⟨_, slot, rest, ?_, free⟩
    rw [done.pages]
    exact List.getElem?_set_self lt

lemma Allocated.page_total (tier : Fin kTierCount) (allocated : Allocated s i)
    (slots : HasSlots s.desc) :
    ∃ s' found, acquirePage mapIndex s tier = some (s', found) ∧ Chosen s' found := by
  rw [acquirePage]
  cases first : s.pages.findIdx? fun page =>
      decide (page.tier = tier ∧ ¬ page.freeSlots.isEmpty) with
  | some p =>
    obtain ⟨lt, holds, -⟩ := List.findIdx?_eq_some_iff_getElem.mp first
    refine ⟨s, some p, rfl, ?_⟩
    rintro p' ⟨⟩
    cases free : s.pages[p].freeSlots with
    | nil => simp [free] at holds
    | cons slot rest => exact ⟨_, slot, rest, List.getElem?_eq_getElem lt, free⟩
  | none =>
    dsimp only
    by_cases more : s.pages.length < s.desc.maxAtlasCount
    · rw [if_pos more, pageCreate]
      by_cases large : slotSize s.desc tier > s.desc.atlasWidth ∨
          slotSize s.desc tier > s.desc.atlasHeight
      · rw [if_pos large]
        exact ⟨s, none, rfl, by rintro _ ⟨⟩⟩
      · rw [if_neg large]
        obtain ⟨slot, rest, free⟩ := resetPageSlots_free tier slots 0
        refine ⟨_, some s.pages.length, rfl, ?_⟩
        rintro p ⟨⟩
        exact ⟨_, slot, rest, List.getElem?_concat_length, free⟩
    · rw [if_neg more]
      exact allocated.evict_total slots

lemma Sound.find_total (key : GlyphKey) (sound : Sound s) :
    ∃ out, atlasFindGlyph mapIndex s key = some out := by
  have found : mapIndex.find s.entries s.table key = some (s.table.lookup key) := rfl
  rw [atlasFindGlyph, found, Option.bind_eq_bind, Option.bind_some]
  cases looked : s.table.lookup key with
  | none => exact ⟨_, rfl⟩
  | some i =>
    obtain ⟨entry, here, live, -⟩ := keyOf_eq_some.mp ((sound.covers i key).mpr looked)
    refine Option.isSome_iff_exists.mp ?_
    simp only [here, Option.bind_eq_bind, Option.bind_some]
    cases at_place : entry.place with
    | none => rfl
    | some place =>
      have placed := (placeOf_of_live here live).trans at_place
      obtain ⟨page, at_page, -⟩ := slotAt_eq_some.mp ((sound.named i place).mp placed)
      simp [at_page]

lemma Sound.place_empty_total (key : GlyphKey) (sound : Sound s) :
    ∃ out, placeEmpty mapIndex s key = some out := by
  have allocated := sound.alloc
  rw [placeEmpty]
  generalize allocEntry s = alloc at *
  obtain ⟨s₁, i⟩ := alloc
  exact ⟨_, Option.bind_eq_some_iff.mpr ⟨_, mapIndex_insert allocated.lt _, rfl⟩⟩

lemma Allocated.place_glyph_total (key : GlyphKey) (allocated : Allocated s i)
    {page : AtlasPage} {slot : ℕ} {rest : List ℕ} (at_p : s.pages[p]? = some page)
    (free : page.freeSlots = slot :: rest) :
    ∃ out, placeGlyph mapIndex s key i p = some out := by
  rw [placeGlyph, at_p]
  simp only [Option.bind_eq_bind, Option.bind_some, free, mapIndex_insert allocated.lt]
  exact ⟨_, rfl⟩

section Desc

lemma alloc_desc (s : FontState GlyphMap) : (allocEntry s).1.desc = s.desc := by
  rw [allocEntry]
  split <;> rfl

lemma find_desc (ended : atlasFindGlyph mapIndex s key = some (s', found)) : s'.desc = s.desc := by
  rw [atlasFindGlyph] at ended
  obtain ⟨looked, -, ended⟩ := Option.bind_eq_some_iff.mp ended
  split at ended
  · cases ended
    rfl
  · obtain ⟨entry, -, ended⟩ := Option.bind_eq_some_iff.mp ended
    split at ended
    · cases ended
      rfl
    · obtain ⟨page, -, ended⟩ := Option.bind_eq_some_iff.mp ended
      cases ended
      rfl

lemma place_empty_desc (ended : placeEmpty mapIndex s key = some (s', found)) :
    s'.desc = s.desc := by
  have desc := alloc_desc s
  rw [placeEmpty] at ended
  generalize allocEntry s = alloc at *
  obtain ⟨table, -, ended⟩ := Option.bind_eq_some_iff.mp ended
  cases ended
  exact desc

lemma place_glyph_desc (ended : placeGlyph mapIndex s key i p = some (s', found)) :
    s'.desc = s.desc := by
  obtain ⟨page, -, ended⟩ := Option.bind_eq_some_iff.mp ended
  split at ended
  · cases ended
  · obtain ⟨table, -, ended⟩ := Option.bind_eq_some_iff.mp ended
    cases ended
    rfl

lemma Allocated.page_desc (allocated : Allocated s i)
    (ended : acquirePage mapIndex s tier = some (s', found)) : s'.desc = s.desc := by
  rw [acquirePage] at ended
  split at ended
  · cases ended
    rfl
  · split_ifs at ended
    · rw [pageCreate] at ended
      split_ifs at ended <;> cases ended <;> rfl
    · rw [pageEvictLru] at ended
      split at ended
      · cases ended
        rfl
      · obtain ⟨page, at_victim, ended⟩ := Option.bind_eq_some_iff.mp ended
        obtain ⟨s₁, evicted, ended⟩ := Option.bind_eq_some_iff.mp ended
        cases ended
        exact (allocated.toSound.evicted at_victim evicted).desc

lemma purge_entry_desc {font : Handle} (ended : purgeEntry mapIndex font s i = some s') :
    s'.desc = s.desc := by
  obtain ⟨entry, -, ended⟩ := Option.bind_eq_some_iff.mp ended
  split at ended
  · cases ended
    rfl
  · obtain ⟨table, -, ended⟩ := Option.bind_eq_some_iff.mp ended
    split at ended
    · cases ended
      rfl
    · obtain ⟨page, -, ended⟩ := Option.bind_eq_some_iff.mp ended
      cases ended
      rfl

end Desc

lemma Sound.acquire_total (key : GlyphKey) (face : Option Face) (sound : Sound s)
    (slots : HasSlots s.desc) :
    ∃ out, atlasAcquireGlyph mapIndex s key face = some out ∧ out.1.desc = s.desc := by
  obtain ⟨⟨s₁, found⟩, ended⟩ := sound.find_total key
  obtain ⟨sound₁, -, -⟩ := sound.find ended
  have desc := find_desc ended
  rw [atlasAcquireGlyph, ended]
  simp only [Option.bind_eq_bind, Option.bind_some]
  cases found with
  | some i => exact ⟨_, rfl, desc⟩
  | none =>
    dsimp only
    split
    · exact ⟨_, rfl, desc⟩
    · obtain ⟨out, placed⟩ := sound₁.place_empty_total key
      exact ⟨out, placed, (place_empty_desc placed).trans desc⟩
    · have allocated := sound₁.alloc
      have desc' := alloc_desc s₁
      generalize allocEntry s₁ = alloc at *
      obtain ⟨s₂, i⟩ := alloc
      dsimp only at allocated desc' ⊢
      rw [← desc, ← desc'] at slots ⊢
      obtain ⟨s₃, page, paged, chosen⟩ := allocated.page_total key.tier slots
      obtain ⟨allocated', -⟩ := allocated.page paged
      have desc₃ := allocated.page_desc paged
      simp only [paged, Option.bind_some]
      cases page with
      | none => exact ⟨_, rfl, desc₃⟩
      | some p =>
        obtain ⟨page, slot, rest, at_p, free⟩ := chosen p rfl
        obtain ⟨out, placed⟩ := allocated'.place_glyph_total key at_p free
        exact ⟨out, placed, (place_glyph_desc placed).trans desc₃⟩

lemma Sound.purge_entry_total (font : Handle) (sound : Sound s) (lt : i < s.entries.length) :
    ∃ s', purgeEntry mapIndex font s i = some s' ∧ s'.entries.length = s.entries.length := by
  have here := List.getElem?_eq_getElem lt
  rw [purgeEntry, here]
  simp only [Option.bind_eq_bind, Option.bind_some]
  split
  · exact ⟨s, rfl, rfl⟩
  next stays =>
    have live : s.entries[i].occupied = true := by
      cases live : s.entries[i].occupied with
      | true => rfl
      | false => simp [live] at stays
    have removed : mapIndex.remove s.entries s.table s.entries[i].key =
        some (s.table.erase s.entries[i].key) := rfl
    simp only [removed, Option.bind_some]
    cases at_place : s.entries[i].place with
    | none => exact ⟨_, rfl, List.length_set⟩
    | some place =>
      have placed := (placeOf_of_live here live).trans at_place
      obtain ⟨page, at_page, -⟩ := slotAt_eq_some.mp ((sound.named i place).mp placed)
      simp only [at_page, Option.bind_some]
      exact ⟨_, rfl, List.length_set⟩

lemma Sound.purge_total (font : Handle) (sound : Sound s) :
    ∃ s', atlasPurgeFont mapIndex s font = some s' ∧ s'.desc = s.desc := by
  let Kept : FontState GlyphMap → Prop := fun s₁ =>
    Sound s₁ ∧ s₁.desc = s.desc ∧ s₁.entries.length = s.entries.length
  have turns : ∀ {is : List ℕ} {s₁ : FontState GlyphMap}, Kept s₁ →
      (∀ i ∈ is, i < s.entries.length) →
      ∃ s₂, is.foldlM (purgeEntry mapIndex font) s₁ = some s₂ ∧ Kept s₂ := by
    intro is
    induction is with
    | nil => exact fun {s₁} kept _ => ⟨s₁, rfl, kept⟩
    | cons i is ih =>
      intro s₁ kept lts
      obtain ⟨sound₁, desc, length⟩ := kept
      obtain ⟨s₂, ended, length'⟩ :=
        sound₁.purge_entry_total font (length ▸ lts i List.mem_cons_self)
      obtain ⟨s₃, rest, kept'⟩ := ih ⟨sound₁.purge_entry ended,
        (purge_entry_desc ended).trans desc, length'.trans length⟩
        fun j mem => lts j (List.mem_cons_of_mem i mem)
      exact ⟨s₃, by rw [List.foldlM_cons, ended]; exact rest, kept'⟩
  obtain ⟨s', ended, kept⟩ := turns ⟨sound, rfl, rfl⟩ fun i mem => List.mem_range.mp mem
  exact ⟨s', ended, kept.2.1⟩

lemma Sound.step_total (answers : List (Option ℕ)) (a : FontAction) (sound : Sound s)
    (slots : HasSlots s.desc) :
    ∃ out, FontState.step mapIndex (s, answers) a = some out ∧ Sound out.1 ∧
      HasSlots out.1.desc := by
  have kept : ∀ {out : FontState GlyphMap × List (Option ℕ)},
      FontState.step mapIndex (s, answers) a = some out → Sound out.1 :=
    fun stepped => sound.step stepped
  cases a with
  | find key =>
    obtain ⟨⟨s₁, found⟩, ended⟩ := sound.find_total key
    have stepped : FontState.step mapIndex (s, answers) (.find key)
        = some (s₁, answers ++ [found]) := by
      rw [FontState.step, ended, Option.map_some]
    exact ⟨_, stepped, kept stepped, by rw [find_desc ended]; exact slots⟩
  | acquire key face =>
    obtain ⟨⟨s₁, found⟩, ended, desc⟩ := sound.acquire_total key face slots
    have stepped : FontState.step mapIndex (s, answers) (.acquire key face)
        = some (s₁, answers ++ [found]) := by
      rw [FontState.step, ended, Option.map_some]
    exact ⟨_, stepped, kept stepped, by rw [desc]; exact slots⟩
  | purge font =>
    obtain ⟨s₁, ended, desc⟩ := sound.purge_total font
    have stepped : FontState.step mapIndex (s, answers) (.purge font) = some (s₁, answers) := by
      rw [FontState.step, ended, Option.map_some]
    exact ⟨_, stepped, kept stepped, by rw [desc]; exact slots⟩
  | shutdown => exact ⟨_, rfl, kept rfl, slots⟩

/-- **Every run returns.** An atlas whose pages have slots answers every run in which glyphs are
acquired only below the limit. -/
theorem atlas_returns {desc : PluginDesc} {actions : List FontAction}
    (slots : HasSlots (normalizePluginDesc desc))
    (few : Along (FontState.step hashIndex) FewGlyphs (FontState.start hashIndex desc, [])
      actions) :
    ∃ s answers, run (FontState.step hashIndex) (FontState.start hashIndex desc, []) actions
      = some (s, answers) := by
  let Kept : FontState GlyphMap × List (Option ℕ) → Prop := fun out =>
    Sound out.1 ∧ HasSlots out.1.desc
  have next : ∀ {out : FontState GlyphMap × List (Option ℕ)} {a : FontAction}, Kept out → True →
      ∃ out', FontState.step mapIndex out a = some out' ∧ Kept out' :=
    fun {out a} kept _ => kept.1.step_total out.2 a kept.2
  have start : Kept (FontState.start mapIndex desc, []) := ⟨Sound.empty _ _, slots⟩
  have always : Along (FontState.step mapIndex) (fun _ _ => True)
      (FontState.start mapIndex desc, []) actions := Along.of_forall fun _ _ => trivial
  obtain ⟨out', ran', -⟩ := Along.total next start always
  obtain ⟨⟨s, answers⟩, ran, -⟩ := (run_follows few).ends ran'
  exact ⟨s, answers, ran⟩

theorem atlas_returns_purged :
    ∃ s answers, run (FontState.step hashIndex) (FontState.start hashIndex ⟨256, 256, 1, 8⟩, []) acquireAndPurge
      = some (s, answers) :=
  atlas_returns (hasSlots_of_small _ (by decide)) (by decide +kernel)

end PulseEngine.Font
