import PulseEngine.Font.Token
import PulseEngine.Text.Fresh

/-!
# Glyphs that are submitted

An extract that spares the pages of the glyphs that it submits leaves them where they are. One that does not submits
glyphs that are gone: a text that is laid out evicts the page of a text before it.
-/

namespace PulseEngine.Text

open Font Asset Library

variable {desc : PluginDesc} {s s' : TextState GlyphTable} {generation : UInt64} {visits : List Visit} {v : Visit}
  {out out' : TextState GlyphTable × List DrawItem} {glyph : GlyphInstance} {entity : ℕ}

lemma drawItems_instances {instances : List GlyphInstance} {fuel first : ℕ} :
    ∀ item ∈ drawItems entity instances fuel first, item.instances = instances := by
  induction fuel generalizing first with
  | zero => exact List.forall_mem_nil _
  | succ fuel ih =>
    rw [drawItems]
    split
    · exact List.forall_mem_nil _
    · exact List.forall_mem_cons.mpr ⟨rfl, ih⟩

lemma mem_awaited : glyph ∈ awaited s generation visits ↔ ∃ v ∈ visits, ∃ layout instances,
    s.layouts v.entity = some layout ∧ layout.layout = some instances ∧ v.block.isEmpty = false ∧
      layout.atlasGeneration = generation ∧ glyph ∈ instances := by
  rw [awaited, List.mem_flatMap]
  refine exists_congr fun v => and_congr_right fun _ => ?_
  split
  next instances stamp is_layout =>
    split_ifs with held
    · constructor
      · exact fun mem => ⟨_, instances, is_layout, rfl, held.1, held.2, mem⟩
      · rintro ⟨layout, instances', is_layout', is_instances, -, -, mem⟩
        rw [is_layout] at is_layout'
        cases is_layout'
        cases is_instances
        exact mem
    · refine ⟨fun mem => (List.not_mem_nil mem).elim, ?_⟩
      rintro ⟨layout, instances', is_layout', -, some_text, stamped, -⟩
      rw [is_layout] at is_layout'
      cases is_layout'
      exact absurd ⟨some_text, stamped⟩ held
  next none_laid =>
    refine ⟨fun mem => (List.not_mem_nil mem).elim, ?_⟩
    rintro ⟨⟨layout, stamp⟩, instances, is_layout, is_instances, -⟩
    dsimp only at is_instances
    subst is_instances
    exact absurd is_layout (none_laid instances stamp)

lemma awaited_cons (mem : glyph ∈ awaited s generation visits) : glyph ∈ awaited s generation (v :: visits) := by
  obtain ⟨v', mem, held⟩ := mem_awaited.mp mem
  exact mem_awaited.mpr ⟨v', List.mem_cons_of_mem v mem, held⟩

lemma awaited_setLayout {layout : TextLayout} (same : s'.layouts = s.layouts)
    (mem : glyph ∈ awaited (s'.setLayout entity layout) generation visits) :
    glyph ∈ awaited s generation visits ∨ ∃ instances, layout.layout = some instances ∧ glyph ∈ instances := by
  obtain ⟨v, mem, layout', instances, is_layout, is_instances, some_text, stamped, held⟩ := mem_awaited.mp mem
  rcases setLayout_layouts is_layout with rfl | old
  · exact .inr ⟨instances, is_instances, held⟩
  · exact .inl (mem_awaited.mpr ⟨v, mem, layout', instances, same ▸ old, is_instances, some_text, stamped, held⟩)

lemma relayout_spares {layout : TextLayout} (right : TextRight desc out.1)
    (is_layout : out.1.layouts v.entity = some layout) (some_text : v.block.isEmpty = false)
    (stale : layout.stale generation = true)
    (present : Present out.1.image (submitted out.2 ++ awaited out.1 generation visits))
    (spares : SparesVisit hashIndex generation out v visits)
    (ended : out.1.relayout hashIndex v.entity v.block = some s) :
    Present s.image (submitted out.2 ++ awaited s generation visits) ∧
      ∀ instances, (s.layouts v.entity).bind TextLayout.layout = some instances → Present s.image instances := by
  rw [TextState.relayout, is_layout] at ended
  dsimp only at ended
  rw [some_text, Bool.false_or] at ended
  cases valid : v.block.valid with
  | false =>
    rw [valid] at ended
    cases ended
    obtain ⟨shown, awaiting⟩ := present_append.mp present
    refine ⟨present_append.mpr ⟨shown, fun glyph mem => ?_⟩, fun instances is_instances => ?_⟩
    · rcases awaited_setLayout (s := out.1) rfl mem with old | ⟨instances, is_instances, -⟩
      · exact awaiting glyph old
      · cases is_instances
    · dsimp only [TextState.setLayout] at is_instances
      rw [Function.update_self] at is_instances
      cases is_instances
  | true =>
    rw [valid] at ended
    obtain ⟨laying, laid, ended⟩ := Option.bind_eq_some_iff.mp ended
    cases ended
    have kept := layoutGlyphs_spares right.sane present (spares layout is_layout some_text valid stale) laid
    obtain ⟨old, new⟩ := present_append.mp kept
    obtain ⟨shown, awaiting⟩ := present_append.mp old
    refine ⟨present_append.mpr ⟨shown, fun glyph mem => ?_⟩, fun instances is_instances => ?_⟩
    · rcases awaited_setLayout (s := out.1) rfl mem with old | ⟨instances, is_instances, held⟩
      · exact awaiting glyph old
      · cases is_instances
        exact new glyph held
    · dsimp only [TextState.setLayout] at is_instances
      rw [Function.update_self] at is_instances
      cases is_instances
      exact new

/-- **Step lemma.** The turn of an entity keeps the glyphs that are submitted or awaited. -/
lemma visit_spares (right : TextRight desc out.1)
    (present : Present out.1.image (submitted out.2 ++ awaited out.1 generation (v :: visits)))
    (spares : SparesVisit hashIndex generation out v visits)
    (ended : visit hashIndex generation out v = some out') :
    Present out'.1.image (submitted out'.2 ++ awaited out'.1 generation visits) := by
  have present' : Present out.1.image (submitted out.2 ++ awaited out.1 generation visits) := by
    obtain ⟨shown, awaiting⟩ := present_append.mp present
    exact present_append.mpr ⟨shown, fun glyph mem => awaiting glyph (awaited_cons mem)⟩
  rw [visit] at ended
  split at ended
  next =>
    cases ended
    exact present'
  next layout is_layout =>
    split_ifs at ended with none_text
    · cases ended
      exact present'
    · have some_text := Bool.eq_false_of_not_eq_true none_text
      obtain ⟨s, drawn, ended⟩ := Option.bind_eq_some_iff.mp ended
      have refreshed : Present s.image (submitted out.2 ++ awaited s generation visits) ∧
          ∀ instances, (s.layouts v.entity).bind TextLayout.layout = some instances → Present s.image instances := by
        rw [TextState.refresh] at drawn
        split_ifs at drawn with stale
        · exact relayout_spares right is_layout some_text stale present' spares drawn
        · cases drawn
          refine ⟨present', fun instances is_instances glyph mem => ?_⟩
          rw [is_layout, Option.bind_some] at is_instances
          rw [TextLayout.stale, is_instances] at stale
          have stamped : layout.atlasGeneration = generation := by simpa using stale
          refine (present_append.mp present).2 glyph (mem_awaited.mpr ?_)
          exact ⟨v, List.mem_cons_self, layout, instances, is_layout, is_instances, some_text, stamped, mem⟩
      obtain ⟨kept, new⟩ := refreshed
      split at ended
      next =>
        cases ended
        exact kept
      next instances is_instances =>
        cases ended
        obtain ⟨shown, awaiting⟩ := present_append.mp kept
        refine present_append.mpr ⟨fun glyph mem => ?_, awaiting⟩
        rw [submitted, List.flatMap_append] at mem
        rcases List.mem_append.mp mem with old | mem
        · exact shown glyph old
        · obtain ⟨item, is_item, mem⟩ := List.mem_flatMap.mp mem
          rw [drawItems_instances item is_item] at mem
          exact new instances is_instances glyph mem

lemma visits_spare (right : TextRight desc out.1)
    (present : Present out.1.image (submitted out.2 ++ awaited out.1 generation visits))
    (spares : SparesFrom hashIndex generation out visits)
    (ended : run (visit hashIndex generation) out visits = some out') :
    Present out'.1.image (submitted out'.2) := by
  induction visits generalizing out with
  | nil =>
    cases ended
    exact (present_append.mp present).1
  | cons v visits ih =>
    rw [run_cons] at ended
    obtain ⟨out₁, visited, ended⟩ := Option.bind_eq_some_iff.mp ended
    exact ih (right.visit visited) (visit_spares right present spares.1 visited) (spares.2 out₁ visited) ended

lemma TextRight.awaited (right : TextRight desc s) (few : s.changes < 2 ^ 64) :
    Present s.image (awaited s s.image.generation visits) := by
  intro glyph mem
  obtain ⟨v, -, layout, instances, is_layout, is_instances, -, stamped, held⟩ := mem_awaited.mp mem
  obtain ⟨count, le, is_count, present⟩ := right.layouts v.entity layout is_layout instances is_instances
  rw [is_count, right.counted] at stamped
  have toNat := congrArg UInt64.toNat stamped
  rw [UInt64.toNat_ofNat', UInt64.toNat_ofNat', Nat.mod_eq_of_lt (le.trans_lt few), Nat.mod_eq_of_lt few] at toNat
  exact present toNat glyph held

/-- **No glyph that is submitted is gone**: in every run of texts and atlas in which the generation has not come back,
an extract that spares what it submits ends with every glyph of every layout that it submits in its slot. -/
theorem textExtract_present {before : List TextAction} {items : List DrawItem}
    (ran : run (TextState.step hashIndex) (TextState.start hashIndex desc) before = some s)
    (few : s.changes < 2 ^ 64) (spares : s.Spares hashIndex visits)
    (extracted : s.textExtract hashIndex visits = some (s', items)) :
    ∀ item ∈ items, ∀ glyph ∈ item.instances, s'.image.Occupies glyph.1 glyph.2 := by
  have right := run_textRight ran
  have present := visits_spare right (right.awaited few) spares extracted
  intro item mem glyph held
  exact present glyph (List.mem_flatMap.mpr ⟨item, mem, held⟩)

def fullChain (tier : Fin kTierCount) : FontChain where
  resolve _ := ⟨1, 1, 1⟩
  tier
  face _ := some fun _ => some false
  raster _ _ := 255

def letter (codepoint : UInt32) (tier : Fin kTierCount) : TextBlock where
  isEmpty := false
  valid := true
  items := [codepoint]
  chain := some (fullChain tier)

/-- A text is set, and an extract draws it as it was laid out. -/
theorem textExtract_present_letter :
    ∃ s s' items, run (TextState.step hashIndex) (TextState.start hashIndex onePage)
        [.attach 1, .set 1 (letter 65 0)] = some s ∧
      s.textExtract hashIndex [⟨1, letter 65 0⟩] = some (s', items) ∧ items.length = 1 ∧
        ∀ item ∈ items, ∀ glyph ∈ item.instances, s'.image.Occupies glyph.1 glyph.2 := by
  have ends : ((run (TextState.step hashIndex) (TextState.start hashIndex onePage)
      [.attach 1, .set 1 (letter 65 0)]).map fun s =>
        ((s.layouts 1).map fun layout => layout.stale s.image.generation, s.changes,
          (s.textExtract hashIndex [⟨1, letter 65 0⟩]).map fun out => out.2.length)) =
      some (some false, 0, some 1) := by
    decide +kernel
  obtain ⟨s, ran, eq⟩ := Option.map_eq_some_iff.mp ends
  obtain ⟨fresh, changes, drawn⟩ : _ ∧ _ ∧ _ := by simpa only [Prod.mk.injEq] using eq
  obtain ⟨⟨s', items⟩, extracted, length⟩ := Option.map_eq_some_iff.mp drawn
  have spares : s.Spares hashIndex [⟨1, letter 65 0⟩] := by
    refine ⟨fun layout is_layout _ _ stale => ?_, fun _ _ => trivial⟩
    dsimp only at is_layout
    rw [is_layout, Option.map_some, stale] at fresh
    cases fresh
  refine ⟨s, s', items, ran, extracted, length, textExtract_present ran ?_ spares extracted⟩
  rw [changes]
  exact Nat.two_pow_pos 64

/-- **A glyph that is submitted is gone**: the page has room for one size, and the second text evicts the first. -/
theorem not_textExtract_present :
    ¬ ∀ (desc : PluginDesc) (before : List TextAction) (visits : List Visit) (s s' : TextState GlyphTable)
      (items : List DrawItem),
      run (TextState.step hashIndex) (TextState.start hashIndex desc) before = some s →
      s.textExtract hashIndex visits = some (s', items) →
      ∀ item ∈ items, ∀ glyph ∈ item.instances, s'.image.Occupies glyph.1 glyph.2 := by
  intro claim
  have ends : ((run (TextState.step hashIndex) (TextState.start hashIndex onePage) [.attach 1, .attach 2]).map fun s =>
      (s.textExtract hashIndex [⟨1, letter 65 0⟩, ⟨2, letter 66 1⟩]).map fun out =>
        (out.2.map DrawItem.instances,
          out.1.image.atlas.entries.any fun entry => entry.occupied && entry.key == (fullChain 0).key 65)) =
      some (some ([[((fullChain 0).key 65, ⟨0, 0⟩)], [((fullChain 1).key 66, ⟨0, 0⟩)]], false)) := by
    decide +kernel
  obtain ⟨s, ran, drawn⟩ := Option.map_eq_some_iff.mp ends
  obtain ⟨⟨s', items⟩, extracted, eq⟩ := Option.map_eq_some_iff.mp drawn
  obtain ⟨instances, gone⟩ := Prod.mk.inj eq
  dsimp only at instances gone
  have first : [((fullChain 0).key 65, (⟨0, 0⟩ : Place))] ∈ items.map DrawItem.instances := by
    rw [instances]
    exact List.mem_cons_self
  obtain ⟨item, mem, is_first⟩ := List.mem_map.mp first
  obtain ⟨i, entry, here, live, is_key, -⟩ := claim onePage _ _ s s' items ran extracted item mem
    ((fullChain 0).key 65, ⟨0, 0⟩) (by rw [is_first]; exact List.mem_singleton_self _)
  refine absurd (List.any_eq_false.mp gone entry (List.mem_of_getElem? here)) ?_
  simp [live, is_key]

end PulseEngine.Text
