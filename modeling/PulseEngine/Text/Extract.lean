import PulseEngine.Font.GenerationRuns
import PulseEngine.Text.Layout

/-!
# Texts that are drawn

`relayout` and `text_extract` of `pulse_text_render/src/text_feature.cpp`, with the loop of `text_layout` over the
glyphs and `pulse_font_glyph` below it. Of a text that is set, the model has what these read: whether it is empty,
whether its description is valid, the code points in the lines that are visible, and the chain of fonts with the
size. The positions and colors of the instances, the matrices and the scissors are left out.
-/

namespace PulseEngine.Text

open Font Asset Library

def kMissingGlyphCodepoint : UInt32 := 0xFFFFFFFF

def kMaxGlyphsPerDraw : ℕ := 512

/-- A chain of fonts and a size, as `pulse_font_glyph` sees them: `resolve_in_chain`, `font_tier_for_size`, the fonts
that are loaded and what the rasteriser draws. -/
structure FontChain where
  resolve : UInt32 → Handle
  tier : Fin kTierCount
  face : Handle → Option Face
  raster : GlyphKey → ℕ → UInt8

def FontChain.key (chain : FontChain) (codepoint : UInt32) : GlyphKey :=
  if (chain.resolve codepoint).isValid then { font := chain.resolve codepoint, codepoint, tier := chain.tier }
  else { codepoint := kMissingGlyphCodepoint, tier := chain.tier }

/-- What is read of `PulseText`; there is no chain when the handle leads nowhere. -/
structure TextBlock where
  isEmpty : Bool
  valid : Bool
  items : List UInt32
  chain : Option FontChain

abbrev GlyphInstance : Type := GlyphKey × Place

structure TextLayout where
  layout : Option (List GlyphInstance) := none
  atlasGeneration : UInt64 := 0

/-- The atlas and how often its generation has changed, which is a history, and the component of every entity. -/
structure TextState (T : Type) where
  image : AtlasImage T
  changes : ℕ := 0
  layouts : ℕ → Option TextLayout := fun _ => none

/-- The loop of `text_layout`. -/
structure Laying (T : Type) where
  image : AtlasImage T
  changes : ℕ
  instances : List GlyphInstance

variable {T : Type} (index : GlyphIndex T)

def countChange (before after : AtlasImage T) (changes : ℕ) : ℕ :=
  changes + if after.generation = before.generation then 0 else 1

def layoutGlyph (chain : Option FontChain) (s : Laying T) (codepoint : UInt32) : Option (Laying T) :=
  if isSpace codepoint.toNat then some s
  else
    match chain with
    | none => some s
    | some chain => do
      let key := chain.key codepoint
      let (image, found) ← s.image.acquire index key (chain.face key.font) (chain.raster key)
      let glyph := (found.bind image.placeOfEntry).map fun place => (key, place)
      some ⟨image, countChange s.image image s.changes, s.instances ++ glyph.toList⟩

def layoutGlyphs (block : TextBlock) (image : AtlasImage T) (changes : ℕ) : Option (Laying T) :=
  run (layoutGlyph index block.chain) ⟨image, changes, []⟩ block.items

namespace TextState

variable (s : TextState T)

def setLayout (entity : ℕ) (layout : TextLayout) : TextState T :=
  { s with layouts := Function.update s.layouts entity (some layout) }

def relayout (entity : ℕ) (block : TextBlock) : Option (TextState T) :=
  match s.layouts entity with
  | none => some s
  | some _ =>
    let atlasGeneration := s.image.generation
    if block.isEmpty || !block.valid then some (s.setLayout entity { atlasGeneration })
    else do
      let laid ← layoutGlyphs index block s.image s.changes
      some ({ s with image := laid.image, changes := laid.changes }.setLayout entity
        { layout := some laid.instances, atlasGeneration })

end TextState

structure DrawItem where
  entity : ℕ
  page : ℕ
  payloadOffset : ℕ
  payloadCount : ℕ
  instances : List GlyphInstance

def drawItems (entity : ℕ) (instances : List GlyphInstance) : ℕ → ℕ → List DrawItem
  | 0, _ => []
  | fuel + 1, first =>
    match (instances.take (u32 instances.length)).drop first with
    | [] => []
    | glyph :: rest =>
      let same := ((glyph :: rest).take kMaxGlyphsPerDraw).takeWhile fun glyph' => glyph'.2.page = glyph.2.page
      ⟨entity, glyph.2.page, first, same.length, instances⟩ :: drawItems entity instances fuel (first + same.length)

structure Visit where
  entity : ℕ
  block : TextBlock

def TextLayout.stale (layout : TextLayout) (generation : UInt64) : Bool :=
  layout.layout.isNone || layout.atlasGeneration != generation

def TextState.refresh (s : TextState T) (generation : UInt64) (layout : TextLayout) (v : Visit) :
    Option (TextState T) :=
  if layout.stale generation then s.relayout index v.entity v.block else some s

def visit (generation : UInt64) (out : TextState T × List DrawItem) (v : Visit) :
    Option (TextState T × List DrawItem) :=
  match out.1.layouts v.entity with
  | none => some out
  | some layout =>
    if v.block.isEmpty then some out
    else do
      let s ← out.1.refresh index generation layout v
      match (s.layouts v.entity).bind TextLayout.layout with
      | none => some (s, out.2)
      | some instances => some (s, out.2 ++ drawItems v.entity instances instances.length 0)

def TextState.textExtract (s : TextState T) (visits : List Visit) : Option (TextState T × List DrawItem) :=
  run (visit index s.image.generation) (s, []) visits

inductive TextAction where
  | font (call : AtlasCall)
  | attach (entity : ℕ)
  | set (entity : ℕ) (block : TextBlock)
  | remove (entity : ℕ)
  | extract (visits : List Visit)

/-- One call: of the atlas by others, the constructor of `TextLayout`, `on_text_set`, `on_text_remove` or an
extract. -/
def TextState.step (s : TextState T) : TextAction → Option (TextState T)
  | .font call =>
    (Watched.step index ⟨s.image, []⟩ call).map fun w =>
      { s with image := w.image, changes := countChange s.image w.image s.changes }
  | .attach entity => some (s.setLayout entity {})
  | .set entity block => s.relayout index entity block
  | .remove entity => some { s with layouts := Function.update s.layouts entity none }
  | .extract visits => (s.textExtract index visits).map (·.1)

def TextState.start (desc : PluginDesc) : TextState T := { image := { atlas := FontState.start index desc } }

def evictedFor (chain : Option FontChain) (s : Laying T) (codepoint : UInt32) : Option ℕ :=
  if isSpace codepoint.toNat then none
  else chain.bind fun chain =>
    evicted index s.image.atlas (chain.key codepoint) (chain.face (chain.key codepoint).font)

def SparesGlyphs (glyphs : List GlyphInstance) (chain : Option FontChain) (s : Laying T) (codepoint : UInt32) :
    Prop :=
  ∀ p, evictedFor index chain s codepoint = some p → ∀ glyph ∈ glyphs ++ s.instances, glyph.2.page ≠ p

def submitted (items : List DrawItem) : List GlyphInstance := items.flatMap DrawItem.instances

def awaited (s : TextState T) (generation : UInt64) (visits : List Visit) : List GlyphInstance :=
  visits.flatMap fun v =>
    match s.layouts v.entity with
    | some ⟨some instances, atlasGeneration⟩ =>
      if v.block.isEmpty = false ∧ atlasGeneration = generation then instances else []
    | _ => []

def SparesVisit (generation : UInt64) (out : TextState T × List DrawItem) (v : Visit) (visits : List Visit) : Prop :=
  ∀ layout, out.1.layouts v.entity = some layout → v.block.isEmpty = false → v.block.valid = true →
    layout.stale generation = true →
    Along (layoutGlyph index v.block.chain)
      (SparesGlyphs index (submitted out.2 ++ awaited out.1 generation visits) v.block.chain)
      ⟨out.1.image, out.1.changes, []⟩ v.block.items

def SparesFrom (generation : UInt64) : TextState T × List DrawItem → List Visit → Prop
  | _, [] => True
  | out, v :: visits =>
    SparesVisit index generation out v visits ∧
      ∀ out', visit index generation out v = some out' → SparesFrom generation out' visits

def TextState.Spares (s : TextState T) (visits : List Visit) : Prop :=
  SparesFrom index s.image.generation (s, []) visits

end PulseEngine.Text
