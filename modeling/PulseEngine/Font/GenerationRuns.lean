import PulseEngine.Font.AtlasRefinement
import PulseEngine.Font.Generation

/-!
# The generation along runs

Every call keeps the frames, and a call that leaves the generation keeps the glyphs and their pixels. A run of the
atlas with pixels is a run of the atlas, so its invariant holds in every state.
-/

namespace PulseEngine.Font

open Asset Library

section Calls

variable {T : Type} {index : GlyphIndex T} {a a' : FontState T} {s s' : AtlasImage T} {key : GlyphKey}
  {found : Option ℕ} {raster : ℕ → UInt8} {face : Option Face} {font : Handle} {i : ℕ}

def Leads (index : GlyphIndex T) (a : FontState T) (key : GlyphKey) : Prop :=
  ∀ a' i, atlasFindGlyph index a key = some (a', some i) → keyOf a'.entries i = some key

lemma find_none (ended : atlasFindGlyph index a key = some (a', none)) :
    a' = a ∧ index.find a.entries a.table key = some none := by
  rw [atlasFindGlyph] at ended
  obtain ⟨looked, is_looked, ended⟩ := Option.bind_eq_some_iff.mp ended
  split at ended
  next =>
    cases ended
    exact ⟨rfl, is_looked⟩
  next i =>
    obtain ⟨entry, -, ended⟩ := Option.bind_eq_some_iff.mp ended
    split at ended
    next => cases ended
    next =>
      obtain ⟨page, -, ended⟩ := Option.bind_eq_some_iff.mp ended
      cases ended

lemma find_some (ended : atlasFindGlyph index a key = some (a', some i)) :
    index.find a.entries a.table key = some (some i) := by
  rw [atlasFindGlyph] at ended
  obtain ⟨looked, is_looked, ended⟩ := Option.bind_eq_some_iff.mp ended
  split at ended
  next => cases ended
  next j =>
    obtain ⟨entry, -, ended⟩ := Option.bind_eq_some_iff.mp ended
    split at ended
    next =>
      cases ended
      exact is_looked
    next =>
      obtain ⟨page, -, ended⟩ := Option.bind_eq_some_iff.mp ended
      cases ended
      exact is_looked

lemma occupies_iff {place : Place} : s.Occupies key place ↔
    ∃ i, keyOf s.atlas.entries i = some key ∧ placeOf s.atlas.entries i = some place := by
  constructor
  · rintro ⟨i, entry, here, live, is_key, is_place⟩
    exact ⟨i, keyOf_eq_some.mpr ⟨entry, here, live, is_key⟩, (placeOf_of_live here live).trans is_place⟩
  · rintro ⟨i, is_key, is_place⟩
    obtain ⟨entry, here, live, is_key⟩ := keyOf_eq_some.mp is_key
    exact ⟨i, entry, here, live, is_key, (placeOf_of_live here live).symm.trans is_place⟩

lemma Preserved.occupies {place : Place} (kept : Preserved s s') (here : s.Occupies key place) : s'.Occupies key place := by
  obtain ⟨i, is_key, is_place⟩ := occupies_iff.mp here
  exact occupies_iff.mpr ⟨i, kept.keys i key is_key, kept.places i place is_place⟩

lemma Preserved.free_entry (lt : i < s.atlas.entries.length) (dead : keyOf s.atlas.entries i = none) :
    Preserved s { s with atlas := freeEntry s.atlas i } where
  keys j k live := by
    show keyOf (s.atlas.entries.set i {}) j = some k
    rwa [keyOf_eq, liveField_clear lt, ← keyOf_eq, update_dead dead]
  places j place placed := by
    show placeOf (s.atlas.entries.set i {}) j = some place
    rwa [placeOf, liveField_clear lt, ← placeOf, update_dead (placeOf_of_dead dead)]
  pixels j place placed x y := slotPixel_congr rfl rfl rfl

/-- What is known after `atlas_acquire_glyph`. -/
structure Acquired (index : GlyphIndex T) (s s' : AtlasImage T) (key : GlyphKey) (face : Option Face)
    (found : Option ℕ) : Prop extends Framed s' where
  key_of : Leads index s.atlas key → ∀ i, found = some i → keyOf s'.atlas.entries i = some key
  generation : s'.generation =
    if (evicted index s.atlas key face).isSome then s.generation + 1 else s.generation
  kept : evicted index s.atlas key face = none → Preserved s s'
  other : ∀ p, evicted index s.atlas key face = some p → ∀ key place, s.Occupies key place → place.page ≠ p →
    s'.Occupies key place

lemma Acquired.stay (framed : Framed s')
    (key_of : Leads index s.atlas key → ∀ i, found = some i → keyOf s'.atlas.entries i = some key)
    (none_evicted : evicted index s.atlas key face = none) (generation : s'.generation = s.generation)
    (kept : Preserved s s') : Acquired index s s' key face found where
  toFramed := framed
  key_of := key_of
  generation := by rw [none_evicted, generation]; rfl
  kept _ := kept
  other p is_p := by rw [none_evicted] at is_p; cases is_p

lemma Laid.place_empty (laid : Laid s) (ended : placeEmpty index s.atlas key = some (a', found)) :
    Framed { s with atlas := a' } ∧ Preserved s { s with atlas := a' } ∧
      ∀ i, found = some i → keyOf a'.entries i = some key := by
  obtain ⟨laid, kept, lt, dead⟩ := laid.alloc
  rw [placeEmpty] at ended
  generalize allocEntry s.atlas = alloc at *
  obtain ⟨table, -, ended⟩ := Option.bind_eq_some_iff.mp ended
  cases ended
  refine ⟨laid.toFramed.of_grids rfl rfl rfl, kept.trans ⟨fun j k live => liveField_use lt dead live,
    fun j place placed => liveField_use lt (placeOf_of_dead dead) placed, fun j place _ x y =>
      slotPixel_congr rfl rfl rfl⟩, ?_⟩
  rintro i ⟨⟩
  show keyOf (alloc.1.entries.set alloc.2 _) alloc.2 = some key
  rw [keyOf_eq, liveField_set lt, Function.update_self]
  rfl

/-- **`atlas_acquire_glyph`** keeps the glyphs and their pixels, or evicts a page and changes the generation. -/
theorem Laid.acquire (laid : Laid s) (ended : s.acquire index key face raster = some (s', found)) :
    Acquired index s s' key face found := by
  obtain ⟨⟨a, looked⟩, find, ended⟩ := Option.bind_eq_some_iff.mp ended
  dsimp only at ended
  split at ended
  next i =>
    cases ended
    have touched : Touched s.atlas a := find_touched find
    have none_evicted : evicted index s.atlas key face = none := by rw [evicted, find_some find]
    have laid' : Laid { s with atlas := a } := touched.laid (s := s) rfl laid
    refine .stay laid'.toFramed ?_ none_evicted rfl (touched.kept rfl)
    rintro leads _ ⟨⟩
    exact leads a i find
  next =>
    obtain ⟨rfl, absent⟩ := find_none find
    split at ended
    next unloaded =>
      cases ended
      have none_evicted : evicted index s.atlas key face = none := by rw [evicted, absent, unloaded]
      exact .stay laid.toFramed (fun _ _ => nofun) none_evicted rfl (.refl s)
    next empty =>
      obtain ⟨⟨a', found'⟩, placed, ended⟩ := Option.map_eq_some_iff.mp ended
      cases ended
      obtain ⟨framed, kept, key_of⟩ := laid.place_empty placed
      have none_evicted : evicted index s.atlas key face = none := by rw [evicted, absent, empty]
      exact .stay framed (fun _ => key_of) none_evicted rfl kept
    next drawn =>
      have is_evicted : evicted index s.atlas key face = victim (allocEntry s.atlas).1 key.tier := by
        obtain ⟨desc, pages, -⟩ := alloc_touched laid.free
        rw [evicted, absent, drawn, victim, victim, desc, pages]
      obtain ⟨laid₁, kept₁, lt, dead⟩ := laid.alloc
      obtain ⟨⟨s₂, page⟩, taken, ended⟩ := Option.bind_eq_some_iff.mp ended
      rcases laid₁.take taken with ⟨none_victim, laid₂, kept₂, entries, generation⟩ | ⟨p, rfl, is_p, gone⟩
      · rw [none_victim] at is_evicted
        rw [← entries] at lt dead
        cases page with
        | none =>
          cases ended
          refine .stay (laid₂.toFramed.of_grids rfl rfl rfl) (fun _ _ => nofun) is_evicted generation ?_
          exact (kept₁.trans kept₂).trans (.free_entry lt dead)
        | some p =>
          obtain ⟨framed, same⟩ := laid₂.toFramed.fill ended
          refine .stay framed (fun _ => fillSlot_key lt ended) is_evicted (same.trans generation) ?_
          exact (kept₁.trans kept₂).trans (laid₂.fill lt dead ended)
      · rw [is_p] at is_evicted
        have lt₂ := gone.length.symm ▸ lt
        have dead₂ := gone.dead _ dead
        obtain ⟨framed, same⟩ := gone.toFramed.fill ended
        refine ⟨framed, fun _ => fillSlot_key lt₂ ended, ?_, fun none_evicted => ?_, ?_⟩
        · rw [same, gone.generation, is_evicted]
          rfl
        · rw [is_evicted] at none_evicted
          cases none_evicted
        · rintro p' is_p' k place here ne
          rw [is_evicted] at is_p'
          cases is_p'
          obtain ⟨j, is_key, is_place⟩ := occupies_iff.mp (kept₁.occupies here)
          have stays := gone.other laid₁ j place is_place ne
          have other := fillSlot_other lt₂ dead₂ ended j
          refine occupies_iff.mpr ⟨j, other.1 k ?_, other.2 place ?_⟩
          · rw [keyOf, stays]
            exact is_key
          · rw [placeOf, liveField, stays]
            exact is_place

lemma purgeEntry_grids (ended : purgeEntry index font a i = some a') :
    a'.desc = a.desc ∧ a'.pages.map AtlasPage.grid = a.pages.map AtlasPage.grid := by
  obtain ⟨entry, -, ended⟩ := Option.bind_eq_some_iff.mp ended
  split at ended
  next =>
    cases ended
    exact ⟨rfl, rfl⟩
  next =>
    obtain ⟨table, -, ended⟩ := Option.bind_eq_some_iff.mp ended
    split at ended
    next =>
      cases ended
      exact ⟨rfl, rfl⟩
    next =>
      obtain ⟨page, at_page, ended⟩ := Option.bind_eq_some_iff.mp ended
      cases ended
      exact ⟨rfl, grids_set at_page rfl⟩

lemma Framed.purge (framed : Framed s) (ended : s.purge index font = some s') : Framed s' := by
  obtain ⟨a, purged, ended⟩ := Option.bind_eq_some_iff.mp ended
  cases ended
  have grids : a.desc = s.atlas.desc ∧ a.pages.map AtlasPage.grid = s.atlas.pages.map AtlasPage.grid := by
    refine run_invariant (I := fun a => a.desc = s.atlas.desc ∧ a.pages.map AtlasPage.grid =
      s.atlas.pages.map AtlasPage.grid) (fun a i a' same ended => ?_) ⟨rfl, rfl⟩ purged
    obtain ⟨desc, grids⟩ := purgeEntry_grids ended
    exact ⟨desc.trans same.1, grids.trans same.2⟩
  exact framed.of_grids grids.1 grids.2 rfl

lemma purge_nothing {is : List ℕ}
    (other : (a.entries.any fun entry => entry.occupied && entry.key.font == font) = false)
    (ended : is.foldlM (purgeEntry index font) a = some a') : a' = a := by
  have stay : ∀ i a', purgeEntry index font a i = some a' → a' = a := by
    intro i a' ended
    obtain ⟨entry, here, ended⟩ := Option.bind_eq_some_iff.mp ended
    have kept := List.any_eq_false.mp other entry (List.mem_of_getElem? here)
    rw [if_pos] at ended
    · cases ended
      rfl
    · revert kept
      cases entry.occupied <;> simp
  refine run_invariant (I := fun a' => a' = a) (fun a₁ i a₂ same turn => ?_) rfl ended
  subst same
  exact stay i a₂ turn

lemma purge_generation (ended : s.purge index font = some s') :
    s' = s ∨ s'.generation = s.generation + 1 := by
  obtain ⟨a, purged, ended⟩ := Option.bind_eq_some_iff.mp ended
  cases ended
  cases any : s.atlas.entries.any fun entry => entry.occupied && entry.key.font == font with
  | true => exact .inr rfl
  | false =>
    rw [purge_nothing any purged]
    exact .inl rfl

def AtlasCall.action : AtlasCall → FontAction
  | .glyph key face _ => .acquire key face
  | .purge font => .purge font

lemma createPage_atlas {tier : Fin kTierCount} {page : Option ℕ} (made : s.createPage tier = (s', page)) :
    pageCreate s.atlas tier = (s'.atlas, page) := by
  rw [AtlasImage.createPage] at made
  cases created : pageCreate s.atlas tier with
  | mk a found =>
    rw [created] at made
    cases found <;> (cases made; rfl)

lemma takePage_atlas {tier : Fin kTierCount} {page : Option ℕ} (ended : s.takePage index tier = some (s', page)) :
    acquirePage index s.atlas tier = some (s'.atlas, page) := by
  rw [AtlasImage.takePage] at ended
  rw [acquirePage]
  cases first : s.atlas.pages.findIdx? fun page => decide (page.tier = tier ∧ ¬ page.freeSlots.isEmpty) with
  | some p =>
    rw [first] at ended
    cases ended
    rfl
  | none =>
    rw [first] at ended
    dsimp only at ended ⊢
    split_ifs at ended ⊢
    · rw [createPage_atlas (Option.some.inj ended)]
    · obtain ⟨⟨a, found⟩, is_evicted, ended⟩ := Option.bind_eq_some_iff.mp ended
      rw [is_evicted]
      cases found <;> (cases ended; rfl)

lemma acquire_atlas (ended : s.acquire index key face raster = some (s', found)) :
    atlasAcquireGlyph index s.atlas key face = some (s'.atlas, found) := by
  obtain ⟨⟨a, looked⟩, find, ended⟩ := Option.bind_eq_some_iff.mp ended
  rw [atlasAcquireGlyph, find]
  simp only [Option.bind_eq_bind, Option.bind_some]
  cases looked with
  | some i =>
    cases ended
    rfl
  | none =>
    dsimp only at ended ⊢
    cases empty : glyphEmpty key face with
    | none =>
      rw [empty] at ended
      cases ended
      rfl
    | some empty' =>
    cases empty' with
    | true =>
      rw [empty] at ended
      obtain ⟨⟨a', found'⟩, placed, ended⟩ := Option.map_eq_some_iff.mp ended
      cases ended
      exact placed
    | false =>
      rw [empty] at ended
      obtain ⟨⟨s₂, page⟩, taken, ended⟩ := Option.bind_eq_some_iff.mp ended
      have paged := takePage_atlas taken
      dsimp only at paged ⊢
      rw [paged, Option.bind_some]
      cases page with
      | none =>
        cases ended
        rfl
      | some p =>
        obtain ⟨page, -, ended⟩ := Option.bind_eq_some_iff.mp ended
        obtain ⟨slot, -, ended⟩ := Option.bind_eq_some_iff.mp ended
        obtain ⟨old, -, ended⟩ := Option.bind_eq_some_iff.mp ended
        obtain ⟨pixels, -, ended⟩ := Option.bind_eq_some_iff.mp ended
        obtain ⟨⟨a', found'⟩, placed, ended⟩ := Option.bind_eq_some_iff.mp ended
        cases ended
        exact placed

end Calls

section Runs

variable {desc : PluginDesc} {w w' : Watched GlyphTable} {call : AtlasCall} {calls : List AtlasCall}

structure Reached (desc : PluginDesc) (w : Watched GlyphTable) : Prop extends Framed w.image where
  atlas : ∃ actions answers,
    run (FontState.step hashIndex) (FontState.start hashIndex desc, []) actions = some (w.image.atlas, answers)

lemma Reached.laid (reached : Reached desc w) : Laid w.image := by
  obtain ⟨actions, answers, ran⟩ := reached.atlas
  obtain ⟨s', -, eq, -, sound⟩ := run_refines ran
  rw [eq] at sound
  exact ⟨reached.toFramed, sound.free, sound.tidy, sound.named⟩

lemma Reached.leads (reached : Reached desc w) (key : GlyphKey) : Leads hashIndex w.image.atlas key := by
  obtain ⟨actions, answers, ran⟩ := reached.atlas
  obtain ⟨s', -, eq, ok, sound⟩ := run_refines ran
  intro a i find
  have matched : Matches True 0 w.image.atlas s' := ⟨s'.table, eq, ok, .inl trivial⟩
  obtain ⟨⟨b, found⟩, find', ⟨⟨map, rfl, -⟩, rfl⟩⟩ := (find_follows matched).matched find
  obtain ⟨sound', table, looked⟩ := sound.find find'
  exact (sound'.covers i key).mpr (by rw [table]; exact looked.symm)

lemma Reached.step (reached : Reached desc w) (stepped : w.step hashIndex call = some w') : Reached desc w' := by
  obtain ⟨actions, answers, ran⟩ := reached.atlas
  cases call with
  | glyph key face raster =>
    obtain ⟨⟨s', found⟩, ended, is_next⟩ := Option.map_eq_some_iff.mp stepped
    cases is_next
    refine ⟨(reached.laid.acquire ended).toFramed, actions ++ [.acquire key face], answers ++ [found], ?_⟩
    rw [run_snoc ran, FontState.step, acquire_atlas ended]
    rfl
  | purge font =>
    obtain ⟨s', ended, is_next⟩ := Option.map_eq_some_iff.mp stepped
    cases is_next
    refine ⟨reached.toFramed.purge ended, actions ++ [.purge font], answers, ?_⟩
    obtain ⟨a, purged, ended⟩ := Option.bind_eq_some_iff.mp ended
    cases ended
    rw [run_snoc ran, FontState.step, purged]
    rfl

lemma Reached.start (desc : PluginDesc) : Reached desc (Watched.start hashIndex desc) :=
  ⟨⟨nofun, rfl⟩, [], [], rfl⟩

/-- **Step lemma.** A call keeps the glyphs and their pixels, or it changes the generation. -/
lemma Reached.kept_or_changed (reached : Reached desc w) (stepped : w.step hashIndex call = some w') :
    (w'.image.generation = w.image.generation ∧ Preserved w.image w'.image) ∨
      w'.image.generation = w.image.generation + 1 := by
  cases call with
  | glyph key face raster =>
    obtain ⟨⟨s', found⟩, ended, is_next⟩ := Option.map_eq_some_iff.mp stepped
    cases is_next
    have acquired := reached.laid.acquire ended
    have generation := acquired.generation
    cases gone : evicted hashIndex w.image.atlas key face with
    | none =>
      rw [gone] at generation
      exact .inl ⟨generation, acquired.kept gone⟩
    | some p =>
      rw [gone] at generation
      exact .inr generation
  | purge font =>
    obtain ⟨s', ended, is_next⟩ := Option.map_eq_some_iff.mp stepped
    cases is_next
    rcases purge_generation ended with rfl | changed
    · exact .inl ⟨rfl, .refl _⟩
    · exact .inr changed

def Watched.Right (w : Watched GlyphTable) : Prop :=
  ∀ glyph ∈ w.returned, w.image.Occupies glyph.1 glyph.2

/-- **Step lemma.** A glyph that is returned has its entry, and keeps it while the generation stays. -/
lemma Reached.right (reached : Reached desc w) (right : w.Right) (stepped : w.step hashIndex call = some w') :
    w'.Right := by
  have next := reached.kept_or_changed stepped
  have old : ∀ glyph ∈ w.kept w'.image, w'.image.Occupies glyph.1 glyph.2 := by
    intro glyph mem
    rw [Watched.kept] at mem
    split_ifs at mem with same
    · rcases next with ⟨-, kept⟩ | changed
      · exact kept.occupies (right glyph mem)
      · rw [changed] at same
        exact absurd same (by simp)
    · cases mem
  cases call with
  | glyph key face raster =>
    obtain ⟨⟨s', found⟩, ended, is_next⟩ := Option.map_eq_some_iff.mp stepped
    cases is_next
    intro glyph mem
    rcases List.mem_append.mp mem with mem | mem
    · exact old glyph mem
    · obtain ⟨place, is_place, rfl⟩ := Option.map_eq_some_iff.mp (Option.mem_toList.mp mem)
      obtain ⟨i, rfl, is_place⟩ := Option.bind_eq_some_iff.mp is_place
      obtain ⟨entry, here, is_place⟩ := Option.bind_eq_some_iff.mp is_place
      have is_key := (reached.laid.acquire ended).key_of (reached.leads key) i rfl
      obtain ⟨entry', here', live, is_key⟩ := keyOf_eq_some.mp is_key
      rw [here] at here'
      cases here'
      exact ⟨i, entry, here, live, is_key, is_place⟩
  | purge font =>
    obtain ⟨s', ended, is_next⟩ := Option.map_eq_some_iff.mp stepped
    cases is_next
    exact old

lemma run_reached (ran : run (Watched.step hashIndex) (Watched.start hashIndex desc) calls = some w) :
    Reached desc w ∧ w.Right := by
  refine run_invariant (I := fun w => Reached desc w ∧ w.Right) (fun w call w' inv stepped => ?_)
    ⟨.start desc, nofun⟩ ran
  exact ⟨inv.1.step stepped, inv.1.right inv.2 stepped⟩

/-- **Run lemma.** The generation counts its changes, and a run without changes keeps the glyphs and their pixels. -/
lemma Reached.run (reached : Reached desc w) (ran : run (Watched.step hashIndex) w calls = some w') :
    w'.image.generation = w.image.generation + UInt64.ofNat (generationChanges hashIndex w calls) ∧
      (generationChanges hashIndex w calls = 0 → Preserved w.image w'.image) := by
  induction calls generalizing w with
  | nil =>
    cases ran
    exact ⟨by simp [generationChanges], fun _ => .refl _⟩
  | cons call calls ih =>
    rw [run_cons] at ran
    obtain ⟨w₁, stepped, ran⟩ := Option.bind_eq_some_iff.mp ran
    obtain ⟨generation, kept⟩ := ih (reached.step stepped) ran
    rw [generationChanges, stepped]
    dsimp only
    rcases reached.kept_or_changed stepped with ⟨same, kept₁⟩ | changed
    · rw [if_pos same, Nat.zero_add]
      rw [same] at generation
      exact ⟨generation, fun none_changed => kept₁.trans (kept none_changed)⟩
    · rw [if_neg (by rw [changed]; simp)]
      refine ⟨?_, fun none_changed => absurd none_changed (by omega)⟩
      rw [generation, changed, UInt64.ofNat_add, UInt64.add_assoc]
      rfl

end Runs

end PulseEngine.Font
