import PulseEngine.Library.LowerBound
import PulseEngine.Font.BitmapText
import PulseEngine.Font.Distance

/-!
# Bitmap fonts

`bitmap_font_parse`, `bitmap_font_attach_page`, `bitmap_font_find_glyph` and `bitmap_font_kerning` of
`pulse_font/src/font_bitmap.cpp`, and the reads of the page in `rasterize_glyph_bitmap_font` of
`font_atlas.cpp`. The decoder of the page and the order in which `std::sort` leaves equal keys are parameters.
-/

namespace PulseEngine.Font

open Datalist Library

structure BitmapGlyph where
  x : ℤ
  y : ℤ
  width : ℤ
  height : ℤ
  xoffset : ℤ
  yoffset : ℤ
  xadvance : ℤ
deriving DecidableEq

def BitmapGlyph.default : BitmapGlyph := ⟨0, 0, 0, 0, 0, 0, 0⟩

structure BitmapKerning where
  pair : ℕ
  amount : ℤ
deriving DecidableEq

structure BitmapFontData where
  lineHeight : ℕ
  base : ℤ
  scaleWidth : ℕ
  scaleHeight : ℕ
  pixels : List UInt8
  codepoints : List ℕ
  glyphs : List BitmapGlyph
  kernings : List BitmapKerning
deriving DecidableEq

/-- `bitmap_font_parse_result`, and the local variables of `bitmap_font_parse`. -/
structure FontParse where
  data : BitmapFontData
  pageFile : Text
  hasCommon : Bool
  hasPage : Bool
  hasChars : Bool
deriving DecidableEq

def FontParse.empty : FontParse := ⟨⟨0, 0, 0, 0, [], [], [], []⟩, [], false, false, false⟩

def findGlyph (data : BitmapFontData) (codepoint : ℕ) : Option BitmapGlyph := do
  data.glyphs[← binarySearch data.codepoints codepoint]?

def kerningPairKey (first second : ℕ) : ℕ := first * 2 ^ 32 + second

def uint32 (n : ℤ) : ℕ := (n % 2 ^ 32).toNat

structure CommonLine where
  lineHeight : ℤ
  base : ℤ
  scaleW : ℤ
  scaleH : ℤ
  pages : ℤ
  packed : ℤ

def commonAttrs (attrs : List (Text × Text)) : Option CommonLine := do
  return ⟨← attrInt attrs "lineHeight", ← attrInt attrs "base", ← attrInt attrs "scaleW", ← attrInt attrs "scaleH",
    ← attrInt attrs "pages", ← attrInt attrs "packed"⟩

def commonLine (s : FontParse) (attrs : List (Text × Text)) : Except String FontParse :=
  match commonAttrs attrs with
  | none => .error "bitmap font: malformed common line"
  | some c =>
    if c.lineHeight ≤ 0 ∨ c.base < 0 ∨ c.scaleW ≤ 0 ∨ c.scaleH ≤ 0 then
      .error "bitmap font: invalid common metrics"
    else if c.pages ≠ 1 ∨ c.packed ≠ 0 then
      .error "bitmap font: only single-page unpacked .fnt is supported"
    else
      .ok { s with
        data := { s.data with
          lineHeight := uint32 c.lineHeight
          base := c.base
          scaleWidth := uint32 c.scaleW
          scaleHeight := uint32 c.scaleH }
        hasCommon := true }

def pageLine (s : FontParse) (attrs : List (Text × Text)) : Except String FontParse :=
  match attrInt attrs "id", findAttr attrs "file" with
  | some id, some file =>
    if s.hasPage then .error "bitmap font: multiple page lines are not supported"
    else if id ≠ 0 then .error "bitmap font: page id must be 0"
    else .ok { s with pageFile := file, hasPage := true }
  | _, _ => .error "bitmap font: malformed page line"

def charsLine (s : FontParse) (attrs : List (Text × Text)) : Except String FontParse :=
  match attrInt attrs "count" with
  | some count => if count ≤ 0 then .error "bitmap font: malformed chars line" else .ok { s with hasChars := true }
  | none => .error "bitmap font: malformed chars line"

structure CharLine where
  codepoint : ℤ
  glyph : BitmapGlyph
  page : ℤ
  channel : ℤ

def charAttrs (attrs : List (Text × Text)) : Option CharLine := do
  let codepoint ← attrInt attrs "id"
  let x ← attrInt attrs "x"
  let y ← attrInt attrs "y"
  let width ← attrInt attrs "width"
  let height ← attrInt attrs "height"
  let xoffset ← attrInt attrs "xoffset"
  let yoffset ← attrInt attrs "yoffset"
  let xadvance ← attrInt attrs "xadvance"
  let page ← attrInt attrs "page"
  let channel ← attrInt attrs "chnl"
  return ⟨codepoint, ⟨x, y, width, height, xoffset, yoffset, xadvance⟩, page, channel⟩

def charLine (s : FontParse) (attrs : List (Text × Text)) : Except String FontParse :=
  if !s.hasChars then .error "bitmap font: char line without chars section"
  else
    match charAttrs attrs with
    | none => .error "bitmap font: malformed char line"
    | some c =>
      if c.codepoint < 0 ∨ c.page ≠ 0 then .error "bitmap font: char references unsupported page"
      else if c.channel ≠ 15 ∧ c.channel ≠ 1 then .error "bitmap font: unsupported char channel mask"
      else if findGlyph s.data (uint32 c.codepoint) ≠ none then .error "bitmap font: duplicated char id"
      else
        .ok { s with
          data := { s.data with
            codepoints := s.data.codepoints ++ [uint32 c.codepoint]
            glyphs := s.data.glyphs ++ [c.glyph] } }

def kerningLine (s : FontParse) (attrs : List (Text × Text)) : Except String FontParse :=
  match attrInt attrs "first", attrInt attrs "second", attrInt attrs "amount" with
  | some first, some second, some amount =>
    .ok { s with
      data := { s.data with
        kernings := s.data.kernings ++ [⟨kerningPairKey (uint32 first) (uint32 second), amount⟩] } }
  | _, _, _ => .error "bitmap font: malformed kerning line"

def fontLine (s : FontParse) (line : Text) : Except String FontParse :=
  let attrs := parseAttrs line
  if line = [] then .ok s
  else if lineKeyword line "info" then
    if findAttr attrs "face" = none then .error "bitmap font: info line misses face" else .ok s
  else if lineKeyword line "common" then commonLine s attrs
  else if lineKeyword line "page" then pageLine s attrs
  else if lineKeyword line "chars" then charsLine s attrs
  else if lineKeyword line "char" then charLine s attrs
  else if lineKeyword line "kernings" then
    match attrInt attrs "count" with
    | some count => if count < 0 then .error "bitmap font: malformed kernings line" else .ok s
    | none => .error "bitmap font: malformed kernings line"
  else if lineKeyword line "kerning" then kerningLine s attrs
  else .ok s

def fontLines (s : FontParse) : List Text → Except String FontParse
  | [] => .ok s
  | line :: lines => do fontLines (← fontLine s line) lines

def sortFont (std : StdSort) (data : BitmapFontData) : BitmapFontData :=
  let order := std.sortBy (data.codepoints.getD · 0) (List.range data.codepoints.length)
  { data with
    codepoints := order.map (data.codepoints.getD · 0)
    glyphs := order.map (data.glyphs.getD · .default)
    kernings := std.sortBy BitmapKerning.pair data.kernings }

def bitmapFontParse (std : StdSort) (fnt : Text) : Except String FontParse := do
  if fnt.length < 4 then .error "bitmap font: empty or truncated .fnt"
  else if fnt.take 2 = ['B', 'M'] then .error "bitmap font: binary .fnt is not supported"
  else
    let s ← fontLines .empty (fntLines fnt)
    if !s.hasCommon || !s.hasPage || !s.hasChars || s.pageFile = [] then
      .error "bitmap font: missing required .fnt sections"
    else return { s with data := sortFont std s.data }

structure Decoded where
  width : ℕ
  height : ℕ
  channels : ℕ
  bytes : List UInt8
  small : width < 2 ^ 31 ∧ height < 2 ^ 31
  size : bytes.length = width * height * channels

/-- `bitmap_font_attach_page`; `decode` is `stbi_load_from_memory`. -/
def attachPage (decode : List UInt8 → ℤ → Option Decoded) (data : BitmapFontData) (png : List UInt8) :
    Except String BitmapFontData :=
  if png = [] then .error "bitmap font: missing page texture"
  else
    match decode png (toInt32 (png.length % 2 ^ 32)) with
    | none => .error "bitmap font: failed to decode page texture"
    | some decoded =>
      if decoded.width ≠ data.scaleWidth ∨ decoded.height ≠ data.scaleHeight then
        .error "bitmap font: page texture size mismatch"
      else
        let pixelCount := decoded.width * decoded.height
        if decoded.channels = 1 then .ok { data with pixels := decoded.bytes.take pixelCount }
        else if decoded.channels = 4 then
          .ok { data with pixels := (List.range pixelCount).map fun i => decoded.bytes.getD (i * 4 + 3) 0 }
        else .error "bitmap font: page texture must be grayscale or RGBA"

/-- The index of the pixel of a glyph that is drawn at some place of a raster of some size. The sums of the
coordinates are `int32_t`, the index is a `size_t`. -/
def pixelIndex (data : BitmapFontData) (glyph : BitmapGlyph) (width height dx dy : ℕ) : Option ℕ := do
  let sy := (dy * glyph.height).tdiv height
  let sx := (dx * glyph.width).tdiv width
  let row ← int32 (glyph.y + sy)
  let col ← int32 (glyph.x + sx)
  return ((row * data.scaleWidth + col) % 2 ^ 64).toNat

/-- The two loops of `rasterize_glyph_bitmap_font` for a raster of some size: what they read. -/
def readGlyph (data : BitmapFontData) (glyph : BitmapGlyph) (width height : ℕ) : Option (List (List UInt8)) :=
  (List.range height).mapM fun dy => (List.range width).mapM fun dx => do
    data.pixels[← pixelIndex data glyph width height dx dy]?

end PulseEngine.Font
