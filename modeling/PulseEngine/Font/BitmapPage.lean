import PulseEngine.Font.BitmapGlyphs
import PulseEngine.Font.Distance
import PulseEngine.Library.Splice

/-!
# The page of a bitmap font

The page of an accepted font has the size that the font declares. Nothing compares the rectangles of the glyphs
with it.
-/

namespace PulseEngine.Font

open Datalist Library

variable {std : StdSort} {s : FontParse} {text : Text} {data data' : BitmapFontData} {glyph : BitmapGlyph}
  {decode : List UInt8 → ℤ → Option Decoded} {png : List UInt8} {width height dx dy : ℕ}

def BitmapGlyph.Covers (glyph : BitmapGlyph) (px py : ℤ) : Prop :=
  glyph.x ≤ px ∧ px < glyph.x + glyph.width ∧ glyph.y ≤ py ∧ py < glyph.y + glyph.height

def pageSize (text : Text) : ℕ × ℕ := (declaredPage text).getD (0, 0)

/-- A glyph that is drawn: `atlas_acquire_glyph` does not call it empty. -/
def BitmapGlyph.Drawn (glyph : BitmapGlyph) : Prop := 0 < glyph.width ∧ 0 < glyph.height

instance (glyph : BitmapGlyph) : Decidable glyph.Drawn := inferInstanceAs (Decidable (_ ∧ _))

def BitmapGlyph.Fits (glyph : BitmapGlyph) (w h : ℕ) : Prop :=
  0 ≤ glyph.x ∧ 0 ≤ glyph.y ∧ glyph.x + glyph.width ≤ w ∧ glyph.y + glyph.height ≤ h

instance (glyph : BitmapGlyph) (w h : ℕ) : Decidable (glyph.Fits w h) := inferInstanceAs (Decidable (_ ∧ _))

/-- All pixels of the glyphs are in the page, and a glyph that is drawn in a raster of any size reads only pixels
of the page. -/
def GlyphsInPage (data : BitmapFontData) : Prop :=
  ∀ glyph ∈ data.glyphs,
    (∀ px py, glyph.Covers px py → 0 ≤ px ∧ px < data.scaleWidth ∧ 0 ≤ py ∧ py < data.scaleHeight) ∧
      (glyph.Drawn → ∀ width height, readGlyph data glyph width height ≠ none)

lemma attachPage_ok (h : attachPage decode data png = .ok data') :
    data'.glyphs = data.glyphs ∧ data'.scaleWidth = data.scaleWidth ∧ data'.scaleHeight = data.scaleHeight ∧
      data'.pixels.length = data.scaleWidth * data.scaleHeight := by
  rw [attachPage] at h
  split at h
  next => exact nomatch h
  next =>
    split at h
    next => exact nomatch h
    next decoded _ =>
      split at h
      next => exact nomatch h
      next hsize =>
        obtain ⟨hwidth, hheight⟩ : decoded.width = data.scaleWidth ∧ decoded.height = data.scaleHeight :=
          ⟨of_not_not fun hne => hsize (.inl hne), of_not_not fun hne => hsize (.inr hne)⟩
        simp only at h
        split at h
        next hchannels =>
          obtain rfl := Except.ok.inj h
          refine ⟨rfl, rfl, rfl, ?_⟩
          rw [List.length_take, decoded.size, hchannels, hwidth, hheight, Nat.mul_one, Nat.min_self]
        next =>
          split at h
          next =>
            obtain rfl := Except.ok.inj h
            exact ⟨rfl, rfl, rfl, by rw [List.length_map, List.length_range, hwidth, hheight]⟩
          next => exact nomatch h

lemma scale_of_parse (h : bitmapFontParse std text = .ok s) :
    (s.data.scaleWidth, s.data.scaleHeight) = (declaredPage text).getD (0, 0) ∧
      s.data.scaleWidth < 2 ^ 31 ∧ s.data.scaleHeight < 2 ^ 31 := by
  obtain ⟨s', hlines, -, rfl⟩ := bitmapFontParse_ok h
  obtain ⟨-, -, hsize, hsmall⟩ := fontLines_took hlines
  exact ⟨hsize, hsmall ⟨by decide, by decide⟩⟩

lemma scaled_lt {n : ℤ} (hn : 0 < n) (hd : dx < width) : 0 ≤ (dx * n).tdiv width ∧ (dx * n).tdiv width < n := by
  have hwidth : (0 : ℤ) < width := by omega
  have hnonneg : 0 ≤ (dx : ℤ) * n := Int.mul_nonneg (Int.natCast_nonneg dx) hn.le
  rw [Int.tdiv_eq_ediv_of_nonneg hnonneg]
  refine ⟨Int.ediv_nonneg hnonneg hwidth.le, Int.ediv_lt_of_lt_mul hwidth ?_⟩
  have hlt : (dx : ℤ) < width := by exact_mod_cast hd
  nlinarith

lemma pixelIndex_lt (hfits : glyph.Fits data.scaleWidth data.scaleHeight) (hdrawn : glyph.Drawn)
    (hsmall : data.scaleWidth < 2 ^ 31 ∧ data.scaleHeight < 2 ^ 31) (hx : dx < width) (hy : dy < height) :
    ∃ i < data.scaleWidth * data.scaleHeight, pixelIndex data glyph width height dx dy = some i := by
  obtain ⟨hx0, hy0, hx1, hy1⟩ := hfits
  obtain ⟨hsx0, hsx1⟩ := scaled_lt hdrawn.1 hx
  obtain ⟨hsy0, hsy1⟩ := scaled_lt hdrawn.2 hy
  rw [pixelIndex]
  generalize (dx * glyph.width).tdiv width = sx at hsx0 hsx1
  generalize (dy * glyph.height).tdiv height = sy at hsy0 hsy1
  obtain ⟨row, hrow⟩ : ∃ row : ℕ, glyph.y + sy = row := ⟨(glyph.y + sy).toNat, by omega⟩
  obtain ⟨col, hcol⟩ : ∃ col : ℕ, glyph.x + sx = col := ⟨(glyph.x + sx).toNat, by omega⟩
  have hindex : row * data.scaleWidth + col < data.scaleWidth * data.scaleHeight := by
    rw [Nat.mul_comm data.scaleWidth]
    exact place_lt (by omega) (by omega)
  have hbound : data.scaleWidth * data.scaleHeight < 2 ^ 64 := by
    have := Nat.mul_le_mul hsmall.1.le hsmall.2.le
    omega
  refine ⟨row * data.scaleWidth + col, hindex, ?_⟩
  rw [hrow, hcol, int32_of_mem (by omega) (by omega), int32_of_mem (by omega) (by omega)]
  have hmod : ((row : ℤ) * data.scaleWidth + col) % 2 ^ 64 = (row * data.scaleWidth + col : ℕ) := by
    push_cast
    exact Int.emod_eq_of_lt (by positivity) (by exact_mod_cast hindex.trans hbound)
  simp only [Option.bind_eq_bind, Option.bind_some, hmod]
  rfl

/-- **A glyph in the page**: its pixels and what the rasteriser reads are there exactly if its corners are. -/
lemma inPage_iff (hlen : data.pixels.length = data.scaleWidth * data.scaleHeight)
    (hsmall : data.scaleWidth < 2 ^ 31 ∧ data.scaleHeight < 2 ^ 31) :
    ((∀ px py, glyph.Covers px py → 0 ≤ px ∧ px < data.scaleWidth ∧ 0 ≤ py ∧ py < data.scaleHeight) ∧
      (glyph.Drawn → ∀ width height, readGlyph data glyph width height ≠ none)) ↔
        (glyph.Drawn → glyph.Fits data.scaleWidth data.scaleHeight) := by
  constructor
  · rintro ⟨hcovers, -⟩ ⟨hwidth, hheight⟩
    have hfirst := hcovers glyph.x glyph.y ⟨le_rfl, by omega, le_rfl, by omega⟩
    have hlast := hcovers (glyph.x + glyph.width - 1) (glyph.y + glyph.height - 1)
      ⟨by omega, by omega, by omega, by omega⟩
    exact ⟨hfirst.1, hfirst.2.2.1, by omega, by omega⟩
  · intro hfits
    refine ⟨fun px py hcovers => ?_, fun hdrawn width height hnone => ?_⟩
    · rw [BitmapGlyph.Covers] at hcovers
      obtain ⟨hx0, hy0, hx1, hy1⟩ := hfits ⟨by omega, by omega⟩
      omega
    · refine mapM_ne_none (fun dy hy => ?_) hnone
      refine mapM_ne_none fun dx hx => ?_
      obtain ⟨i, hi, hindex⟩ := pixelIndex_lt (hfits hdrawn) hdrawn hsmall (List.mem_range.mp hx)
        (List.mem_range.mp hy)
      rw [hindex, Option.bind_eq_bind, Option.bind_some, List.getElem?_eq_getElem (hlen.symm ▸ hi)]
      exact Option.some_ne_none _

structure Attached (text : Text) (data : BitmapFontData) : Prop where
  glyphs : ∀ glyph, glyph ∈ data.glyphs ↔ ∃ g ∈ declaredGlyphs text, g.2 = glyph
  size : pageSize text = (data.scaleWidth, data.scaleHeight)
  pixels : data.pixels.length = data.scaleWidth * data.scaleHeight
  small : data.scaleWidth < 2 ^ 31 ∧ data.scaleHeight < 2 ^ 31

lemma attached (hparse : bitmapFontParse std text = .ok s) (hattach : attachPage decode s.data png = .ok data) :
    Attached text data := by
  obtain ⟨hglyphs, hwidth, hheight, hlen⟩ := attachPage_ok hattach
  obtain ⟨hscale, hsmall⟩ := scale_of_parse hparse
  obtain ⟨sorted, hperm, -, -, hsorted⟩ := sorted_glyphs hparse
  refine ⟨fun glyph => ?_, by rw [pageSize, ← hscale, hwidth, hheight], by rw [hwidth, hheight, hlen],
    by rw [hwidth, hheight]; exact hsmall⟩
  rw [hglyphs, hsorted, List.mem_map]
  exact exists_congr fun g => and_congr_left fun _ => hperm.mem_iff

lemma Attached.fits (attached : Attached text data) (h : GlyphsInPage data) {g : ℕ × BitmapGlyph}
    (hg : g ∈ declaredGlyphs text) (hdrawn : g.2.Drawn) : g.2.Fits (pageSize text).1 (pageSize text).2 := by
  rw [attached.size]
  exact (inPage_iff attached.pixels attached.small).mp (h g.2 ((attached.glyphs g.2).mpr ⟨g, hg, rfl⟩)) hdrawn

/-- **Glyphs in the page.** All glyphs of an accepted font lie in its page exactly if those that its file declares
fit the size that it declares. -/
theorem glyphsInPage_iff (hparse : bitmapFontParse std text = .ok s)
    (hattach : attachPage decode s.data png = .ok data) :
    GlyphsInPage data ↔
      ∀ g ∈ declaredGlyphs text, g.2.Drawn → g.2.Fits (pageSize text).1 (pageSize text).2 := by
  have attached := attached hparse hattach
  refine ⟨fun h g hg hdrawn => attached.fits h hg hdrawn, fun h glyph hglyph => ?_⟩
  obtain ⟨g, hg, rfl⟩ := (attached.glyphs glyph).mp hglyph
  rw [attached.size] at h
  exact (inPage_iff attached.pixels attached.small).mpr (h g hg)

def onePixelPng : List UInt8 :=
  [137, 80, 78, 71, 13, 10, 26, 10, 0, 0, 0, 13, 73, 72, 68, 82, 0, 0, 0, 1, 0, 0, 0, 1, 8, 0, 0, 0, 0, 58,
    126, 155, 85, 0, 0, 0, 10, 73, 68, 65, 84, 120, 156, 99, 248, 15, 0, 1, 1, 1, 0, 177, 56, 246, 20, 0, 0,
    0, 0, 73, 69, 78, 68, 174, 66, 96, 130]

def decodeOnePixel (png : List UInt8) (_ : ℤ) : Option Decoded :=
  if png = onePixelPng then some ⟨1, 1, 1, [255], by decide, rfl⟩ else none

lemma exists_of_attach (text : Text) (h : (bitmapFontParse .insertion text).toOption.map
      (fun s => (attachPage decodeOnePixel s.data onePixelPng).toOption.isSome) = some true) :
    ∃ s data, bitmapFontParse .insertion text = .ok s ∧
      attachPage decodeOnePixel s.data onePixelPng = .ok data := by
  obtain ⟨s, hs, hattach⟩ := exists_of_toOption_map h
  cases hdata : attachPage decodeOnePixel s.data onePixelPng with
  | error e => rw [hdata] at hattach; exact nomatch hattach
  | ok data => exact ⟨s, data, hs, hdata⟩

theorem glyphsInPage_distinctFont : ∃ s data, bitmapFontParse .insertion distinctFont = .ok s ∧
    attachPage decodeOnePixel s.data onePixelPng = .ok data ∧ GlyphsInPage data := by
  obtain ⟨s, data, hs, hdata⟩ := exists_of_attach distinctFont (by decide +kernel)
  exact ⟨s, data, hs, hdata, (glyphsInPage_iff hs hdata).mpr (by decide +kernel)⟩

def outsideFont : Text := fontHeader ++ glyphLine "5" "1"

/-- **A glyph that is not in its page.** -/
theorem not_glyphsInPage : ∃ s data, bitmapFontParse .insertion outsideFont = .ok s ∧
    attachPage decodeOnePixel s.data onePixelPng = .ok data ∧ ¬ GlyphsInPage data := by
  obtain ⟨s, data, hs, hdata⟩ := exists_of_attach outsideFont (by decide +kernel)
  refine ⟨s, data, hs, hdata, fun h => ?_⟩
  have hmem : (5, ⟨1, 0, 1, 1, 0, 0, 1⟩) ∈ declaredGlyphs outsideFont := by decide +kernel
  have hno : ¬ BitmapGlyph.Fits ⟨1, 0, 1, 1, 0, 0, 1⟩ (pageSize outsideFont).1 (pageSize outsideFont).2 := by
    decide +kernel
  exact hno ((attached hs hdata).fits h hmem (by decide))

end PulseEngine.Font
