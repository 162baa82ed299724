import PulseEngine.Text.Extract

/-!
# Glyphs of the texts that are drawn

What keeps a glyph in the atlas: a layout whose generation is the current one has its glyphs there, in every run in
which the generation does not come back, and an extract that spares the pages of what it submits leaves these glyphs
where they are. One lemma for each function, and the run lemma from them.
-/

namespace PulseEngine.Text

open Font Asset Library

variable {desc : PluginDesc} {image image' : AtlasImage GlyphTable} {key : GlyphKey} {face : Option Face}
  {raster : ℕ → UInt8} {found : Option ℕ} {chain : Option FontChain} {s s' : TextState GlyphTable}
  {laying laying' : Laying GlyphTable} {codepoint : UInt32} {block : TextBlock} {entity : ℕ}

def Present (image : AtlasImage GlyphTable) (glyphs : List GlyphInstance) : Prop :=
  ∀ glyph ∈ glyphs, image.Occupies glyph.1 glyph.2

lemma present_append {xs ys : List GlyphInstance} :
    Present image (xs ++ ys) ↔ Present image xs ∧ Present image ys := List.forall_mem_append

lemma Present.kept {glyphs : List GlyphInstance} (present : Present image glyphs) (kept : Preserved image image') :
    Present image' glyphs := fun glyph mem => kept.occupies (present glyph mem)

def Sane (desc : PluginDesc) (image : AtlasImage GlyphTable) : Prop := Reached desc ⟨image, []⟩

def Counted (image : AtlasImage GlyphTable) (changes : ℕ) : Prop := image.generation = UInt64.ofNat changes

lemma Sane.acquire (sane : Sane desc image) (ended : image.acquire hashIndex key face raster = some (image', found)) :
    Sane desc image' ∧ Acquired hashIndex image image' key face found := by
  have stepped : Watched.step hashIndex ⟨image, []⟩ (.glyph key face raster) = some ⟨image', _⟩ :=
    Option.map_eq_some_iff.mpr ⟨_, ended, rfl⟩
  have next := Reached.step sane stepped
  exact ⟨⟨next.toFramed, next.atlas⟩, (Reached.laid sane).acquire ended⟩

lemma Sane.returned (sane : Sane desc image)
    (ended : image.acquire hashIndex key face raster = some (image', found)) :
    Present image' ((found.bind image'.placeOfEntry).map fun place => (key, place)).toList := by
  intro glyph mem
  obtain ⟨place, is_place, rfl⟩ := Option.map_eq_some_iff.mp (Option.mem_toList.mp mem)
  obtain ⟨i, rfl, is_place⟩ := Option.bind_eq_some_iff.mp is_place
  have in_entry : image'.atlas.entries[i]?.bind GlyphEntry.place = some place := is_place
  obtain ⟨entry, here, is_place⟩ := Option.bind_eq_some_iff.mp in_entry
  have is_key := (sane.acquire ended).2.key_of (Reached.leads sane key) i rfl
  obtain ⟨entry', here', live, is_key⟩ := keyOf_eq_some.mp is_key
  rw [here] at here'
  cases here'
  exact ⟨i, entry, here, live, is_key, is_place⟩

lemma counted_step {changes : ℕ} (counted : Counted image changes)
    (next : (image'.generation = image.generation ∧ Preserved image image') ∨
      image'.generation = image.generation + 1) :
    Counted image' (countChange image image' changes) ∧ changes ≤ countChange image image' changes ∧
      (countChange image image' changes = changes → Preserved image image') := by
  rw [Counted] at counted ⊢
  rw [countChange]
  rcases next with ⟨same, kept⟩ | changed
  · rw [if_pos same]
    exact ⟨same.trans counted, le_rfl, fun _ => kept⟩
  · rw [if_neg (by rw [changed]; simp)]
    refine ⟨?_, Nat.le_succ _, fun same => absurd same (by omega)⟩
    rw [changed, counted, UInt64.ofNat_add]
    rfl

lemma Acquired.kept_or_changed (acquired : Acquired hashIndex image image' key face found) :
    (image'.generation = image.generation ∧ Preserved image image') ∨ image'.generation = image.generation + 1 := by
  have generation := acquired.generation
  cases gone : evicted hashIndex image.atlas key face with
  | none =>
    rw [gone] at generation
    exact .inl ⟨generation, acquired.kept gone⟩
  | some p =>
    rw [gone] at generation
    exact .inr generation

lemma layoutGlyph_cases (ended : layoutGlyph hashIndex chain laying codepoint = some laying') :
    laying' = laying ∨ ∃ fonts image' found, chain = some fonts ∧ isSpace codepoint.toNat = false ∧
      laying.image.acquire hashIndex (fonts.key codepoint) (fonts.face (fonts.key codepoint).font)
        (fonts.raster (fonts.key codepoint)) = some (image', found) ∧
      laying' = ⟨image', countChange laying.image image' laying.changes, laying.instances ++
        ((found.bind image'.placeOfEntry).map fun place => (fonts.key codepoint, place)).toList⟩ := by
  cases chain with
  | none =>
    rw [layoutGlyph] at ended
    split_ifs at ended <;> (cases ended; exact .inl rfl)
  | some fonts =>
    rw [layoutGlyph] at ended
    split_ifs at ended with space
    · cases ended
      exact .inl rfl
    · obtain ⟨⟨image', found⟩, acquired, ended⟩ := Option.bind_eq_some_iff.mp ended
      cases ended
      exact .inr ⟨fonts, image', found, rfl, Bool.eq_false_of_not_eq_true space, acquired, rfl⟩

structure LaidOut (desc : PluginDesc) (image : AtlasImage GlyphTable) (changes : ℕ) (laying : Laying GlyphTable) :
    Prop where
  sane : Sane desc laying.image
  counted : Counted laying.image laying.changes
  le : changes ≤ laying.changes
  kept : laying.changes = changes → Preserved image laying.image ∧ Present laying.image laying.instances

lemma LaidOut.step {changes : ℕ} (laid : LaidOut desc image changes laying)
    (ended : layoutGlyph hashIndex chain laying codepoint = some laying') : LaidOut desc image changes laying' := by
  rcases layoutGlyph_cases ended with rfl | ⟨chain, image', found, -, -, acquired, rfl⟩
  · exact laid
  · obtain ⟨sane, known⟩ := laid.sane.acquire acquired
    obtain ⟨counted, le, kept⟩ := counted_step laid.counted (Acquired.kept_or_changed known)
    refine ⟨sane, counted, laid.le.trans le, fun same => ?_⟩
    have eq : laying.changes = changes := le_antisymm (same ▸ le) laid.le
    have kept₁ := kept (same.trans eq.symm)
    obtain ⟨kept₀, present⟩ := laid.kept eq
    exact ⟨kept₀.trans kept₁, present_append.mpr ⟨present.kept kept₁, laid.sane.returned acquired⟩⟩

lemma layoutGlyphs_laidOut {changes : ℕ} (sane : Sane desc image) (counted : Counted image changes)
    (ended : layoutGlyphs hashIndex block image changes = some laying) : LaidOut desc image changes laying := by
  have start : LaidOut desc image changes ⟨image, changes, []⟩ :=
    ⟨sane, counted, le_rfl, fun _ => ⟨.refl image, List.forall_mem_nil _⟩⟩
  exact run_invariant (fun _ _ _ laid ended => laid.step ended) start ended

lemma SparesGlyphs.step {glyphs : List GlyphInstance} (sane : Sane desc laying.image)
    (present : Present laying.image (glyphs ++ laying.instances))
    (spares : SparesGlyphs hashIndex glyphs chain laying codepoint)
    (ended : layoutGlyph hashIndex chain laying codepoint = some laying') :
    Sane desc laying'.image ∧ Present laying'.image (glyphs ++ laying'.instances) := by
  rcases layoutGlyph_cases ended with rfl | ⟨fonts, image', found, rfl, drawn, acquired, rfl⟩
  · exact ⟨sane, present⟩
  · obtain ⟨sane', known⟩ := sane.acquire acquired
    refine ⟨sane', ?_⟩
    rw [← List.append_assoc]
    refine present_append.mpr ⟨fun glyph mem => ?_, sane.returned acquired⟩
    rw [SparesGlyphs, evictedFor, drawn] at spares
    cases gone : evicted hashIndex laying.image.atlas (fonts.key codepoint)
        (fonts.face (fonts.key codepoint).font) with
    | none => exact (known.kept gone).occupies (present glyph mem)
    | some p => exact known.other p gone glyph.1 glyph.2 (present glyph mem) (spares p gone glyph mem)

/-- **Sparing a set of glyphs**: they keep their slots while a text is laid out, and so do the glyphs of the text. -/
lemma layoutGlyphs_spares {glyphs : List GlyphInstance} {changes : ℕ} (sane : Sane desc image)
    (present : Present image glyphs)
    (spares : Along (layoutGlyph hashIndex block.chain) (SparesGlyphs hashIndex glyphs block.chain)
      ⟨image, changes, []⟩ block.items)
    (ended : layoutGlyphs hashIndex block image changes = some laying) :
    Present laying.image (glyphs ++ laying.instances) := by
  have inv : Sane desc laying.image ∧ Present laying.image (glyphs ++ laying.instances) := by
    refine Along.invariant (I := fun laying => Sane desc laying.image ∧
      Present laying.image (glyphs ++ laying.instances)) ?_ ⟨sane, ?_⟩ spares ended
    · exact fun _ _ _ inv spares ended => SparesGlyphs.step inv.1 inv.2 spares ended
    · rwa [List.append_nil]
  exact inv.2

def TextLayout.Right (image : AtlasImage GlyphTable) (changes : ℕ) (layout : TextLayout) : Prop :=
  ∀ instances, layout.layout = some instances → ∃ count ≤ changes, layout.atlasGeneration = UInt64.ofNat count ∧
    (count = changes → Present image instances)

structure TextRight (desc : PluginDesc) (s : TextState GlyphTable) : Prop where
  sane : Sane desc s.image
  counted : Counted s.image s.changes
  layouts : ∀ entity layout, s.layouts entity = some layout → layout.Right s.image s.changes

lemma TextLayout.Right.later {layout : TextLayout} {changes changes' : ℕ} (right : layout.Right image changes)
    (le : changes ≤ changes') (kept : changes' = changes → Preserved image image') : layout.Right image' changes' := by
  intro instances is_layout
  obtain ⟨count, le_count, stamped, present⟩ := right instances is_layout
  refine ⟨count, le_count.trans le, stamped, fun same => ?_⟩
  have eq : count = changes := le_antisymm le_count (same ▸ le)
  exact (present eq).kept (kept (by rw [← same, eq]))

lemma setLayout_layouts {layout layout' : TextLayout} {other : ℕ}
    (is_layout : (s.setLayout entity layout').layouts other = some layout) :
    layout = layout' ∨ s.layouts other = some layout := by
  dsimp only [TextState.setLayout] at is_layout
  by_cases eq : other = entity
  · subst eq
    rw [Function.update_self] at is_layout
    exact .inl (Option.some.inj is_layout).symm
  · rw [Function.update_of_ne eq] at is_layout
    exact .inr is_layout

lemma TextRight.relayout (right : TextRight desc s) (ended : s.relayout hashIndex entity block = some s') :
    TextRight desc s' := by
  rw [TextState.relayout] at ended
  split at ended
  next =>
    cases ended
    exact right
  next =>
    dsimp only at ended
    split_ifs at ended
    · cases ended
      refine ⟨right.sane, right.counted, fun other layout is_layout => ?_⟩
      rcases setLayout_layouts is_layout with rfl | old
      · exact nofun
      · exact right.layouts other layout old
    · obtain ⟨laying, laid, ended⟩ := Option.bind_eq_some_iff.mp ended
      cases ended
      have out := layoutGlyphs_laidOut right.sane right.counted laid
      refine ⟨out.sane, out.counted, fun other layout is_layout => ?_⟩
      rcases setLayout_layouts is_layout with rfl | old
      · rintro instances ⟨⟩
        exact ⟨s.changes, out.le, right.counted, fun same => (out.kept same.symm).2⟩
      · exact (right.layouts other layout old).later out.le fun same => (out.kept same).1

lemma TextRight.visit {generation : UInt64} {out out' : TextState GlyphTable × List DrawItem} {v : Visit}
    (right : TextRight desc out.1) (ended : visit hashIndex generation out v = some out') : TextRight desc out'.1 := by
  rw [Text.visit] at ended
  split at ended
  next =>
    cases ended
    exact right
  next layout _ =>
    split_ifs at ended
    · cases ended
      exact right
    · obtain ⟨s, drawn, ended⟩ := Option.bind_eq_some_iff.mp ended
      have right' : TextRight desc s := by
        rw [TextState.refresh] at drawn
        split_ifs at drawn
        · exact right.relayout drawn
        · cases drawn
          exact right
      split at ended <;> (cases ended; exact right')

lemma TextRight.step {a : TextAction} (right : TextRight desc s) (ended : s.step hashIndex a = some s') :
    TextRight desc s' := by
  cases a with
  | font call =>
    obtain ⟨w, stepped, ended⟩ := Option.map_eq_some_iff.mp ended
    cases ended
    have next := Reached.step right.sane stepped
    obtain ⟨counted, le, kept⟩ := counted_step right.counted (Reached.kept_or_changed right.sane stepped)
    exact ⟨⟨next.toFramed, next.atlas⟩, counted, fun other layout is_layout =>
      (right.layouts other layout is_layout).later le kept⟩
  | attach entity =>
    cases ended
    refine ⟨right.sane, right.counted, fun other layout is_layout => ?_⟩
    rcases setLayout_layouts is_layout with rfl | old
    · exact nofun
    · exact right.layouts other layout old
  | set entity block => exact right.relayout ended
  | remove entity =>
    cases ended
    refine ⟨right.sane, right.counted, fun other layout is_layout => ?_⟩
    dsimp only at is_layout
    by_cases eq : other = entity
    · subst eq
      rw [Function.update_self] at is_layout
      cases is_layout
    · rw [Function.update_of_ne eq] at is_layout
      exact right.layouts other layout is_layout
  | extract visits =>
    obtain ⟨out, extracted, ended⟩ := Option.map_eq_some_iff.mp ended
    cases ended
    exact run_invariant (I := fun out : TextState GlyphTable × List DrawItem => TextRight desc out.1)
      (fun _ _ _ right ended => right.visit ended) right extracted

lemma TextRight.start (desc : PluginDesc) : TextRight desc (TextState.start hashIndex desc) :=
  ⟨.start desc, rfl, nofun⟩

lemma run_textRight {actions : List TextAction}
    (ran : run (TextState.step hashIndex) (TextState.start hashIndex desc) actions = some s) : TextRight desc s :=
  run_invariant (fun _ _ _ right ended => right.step ended) (.start desc) ran

end PulseEngine.Text
