import Mathlib.Data.List.GetD
import PulseEngine.Font.Bitmap

/-!
# The glyphs of a bitmap font

Every char line of an accepted file brings its glyph, and the sorted font has these glyphs in the order of their
codepoints. The search for a duplicate goes over glyphs that are not sorted yet, so it does not find every one.
-/

namespace PulseEngine.Font

open Datalist Library

variable {std : StdSort} {s s' : FontParse} {line text : Text} {lines : List Text} {attrs : List (Text × Text)}
  {keyword keyword' key : String} {n : ℤ}

def declaredGlyph (line : Text) : Option (ℕ × BitmapGlyph) :=
  if lineKeyword line "char" then (charAttrs (parseAttrs line)).map fun c => (uint32 c.codepoint, c.glyph) else none

def declaredSize (line : Text) : Option (ℕ × ℕ) :=
  if lineKeyword line "common" then
    (commonAttrs (parseAttrs line)).map fun c => (uint32 c.scaleW, uint32 c.scaleH)
  else none

def declaredGlyphs (text : Text) : List (ℕ × BitmapGlyph) := (fntLines text).filterMap declaredGlyph

def declaredPage (text : Text) : Option (ℕ × ℕ) := ((fntLines text).filterMap declaredSize).getLast?

lemma lineKeyword_unique (h : lineKeyword line keyword) (h' : lineKeyword line keyword') :
    keyword = keyword' := by
  rw [lineKeyword, decide_eq_true_eq] at h h'
  exact String.toList_inj.mp (Option.some.inj (h.symm.trans h'))

lemma declaredGlyph_none (h : lineKeyword line keyword) (hne : keyword ≠ "char") : declaredGlyph line = none :=
  if_neg fun hchar => hne (lineKeyword_unique h hchar)

lemma declaredSize_none (h : lineKeyword line keyword) (hne : keyword ≠ "common") : declaredSize line = none :=
  if_neg fun hcommon => hne (lineKeyword_unique h hcommon)

lemma attrInt_lt (h : attrInt attrs key = some n) : n < 2 ^ 31 := by
  rw [attrInt] at h
  obtain ⟨value, -, h⟩ := Option.bind_eq_some_iff.mp h
  split at h
  next => exact nomatch h
  next =>
    simp only at h
    split at h
    next hread =>
      obtain rfl := Option.some.inj h
      exact hread.2.2
    next => exact nomatch h

structure Took (s s' : FontParse) (line : Text) : Prop where
  codepoints : s'.data.codepoints = s.data.codepoints ++ (declaredGlyph line).toList.map Prod.fst
  glyphs : s'.data.glyphs = s.data.glyphs ++ (declaredGlyph line).toList.map Prod.snd
  size : (s'.data.scaleWidth, s'.data.scaleHeight) =
    (declaredSize line).getD (s.data.scaleWidth, s.data.scaleHeight)
  small : s.data.scaleWidth < 2 ^ 31 ∧ s.data.scaleHeight < 2 ^ 31 →
    s'.data.scaleWidth < 2 ^ 31 ∧ s'.data.scaleHeight < 2 ^ 31

structure Kept (s s' : FontParse) : Prop where
  codepoints : s'.data.codepoints = s.data.codepoints
  glyphs : s'.data.glyphs = s.data.glyphs
  width : s'.data.scaleWidth = s.data.scaleWidth
  height : s'.data.scaleHeight = s.data.scaleHeight

lemma Kept.took (h : Kept s s') (hglyph : declaredGlyph line = none) (hsize : declaredSize line = none) :
    Took s s' line where
  codepoints := by rw [h.codepoints, hglyph]; exact (List.append_nil _).symm
  glyphs := by rw [h.glyphs, hglyph]; exact (List.append_nil _).symm
  size := by rw [hsize, h.width, h.height]; rfl
  small hs := by rwa [h.width, h.height]

lemma pageLine_kept (h : pageLine s attrs = .ok s') : Kept s s' := by
  rw [pageLine] at h
  split at h
  next =>
    split at h
    next => exact nomatch h
    next =>
      split at h
      next => exact nomatch h
      next =>
        obtain rfl := Except.ok.inj h
        exact ⟨rfl, rfl, rfl, rfl⟩
  next => exact nomatch h

lemma charsLine_kept (h : charsLine s attrs = .ok s') : Kept s s' := by
  rw [charsLine] at h
  split at h
  next =>
    split at h
    next => exact nomatch h
    next =>
      obtain rfl := Except.ok.inj h
      exact ⟨rfl, rfl, rfl, rfl⟩
  next => exact nomatch h

lemma kerningLine_kept (h : kerningLine s attrs = .ok s') : Kept s s' := by
  rw [kerningLine] at h
  split at h
  next =>
    obtain rfl := Except.ok.inj h
    exact ⟨rfl, rfl, rfl, rfl⟩
  next => exact nomatch h

lemma Took.common (hline : lineKeyword line "common") (h : commonLine s (parseAttrs line) = .ok s') :
    Took s s' line := by
  have hglyph := declaredGlyph_none hline (by decide)
  rw [commonLine] at h
  split at h
  next => exact nomatch h
  next c hc =>
    split at h
    next => exact nomatch h
    next hpos =>
      split at h
      next => exact nomatch h
      next =>
        obtain rfl := Except.ok.inj h
        rw [not_or, not_or, not_or] at hpos
        refine ⟨by rw [hglyph]; exact (List.append_nil _).symm, by rw [hglyph]; exact (List.append_nil _).symm, ?_,
          fun _ => ?_⟩
        · rw [declaredSize, if_pos hline, hc]
          rfl
        · simp only [commonAttrs, Option.bind_eq_bind, Option.bind_eq_some_iff] at hc
          obtain ⟨lineHeight, -, base, -, scaleW, hW, scaleH, hH, pages, -, packed, -, hc⟩ := hc
          obtain rfl := Option.some.inj hc
          have hltW := attrInt_lt hW
          have hltH := attrInt_lt hH
          simp only [uint32] at hpos ⊢
          omega

lemma Took.char (hline : lineKeyword line "char") (h : charLine s (parseAttrs line) = .ok s') :
    Took s s' line := by
  have hsize := declaredSize_none hline (by decide)
  rw [charLine] at h
  split at h
  next => exact nomatch h
  next =>
    split at h
    next => exact nomatch h
    next c hc =>
      have hglyph : declaredGlyph line = some (uint32 c.codepoint, c.glyph) := by
        rw [declaredGlyph, if_pos hline, hc]
        rfl
      split at h
      next => exact nomatch h
      next =>
        split at h
        next => exact nomatch h
        next =>
          split at h
          next => exact nomatch h
          next =>
            obtain rfl := Except.ok.inj h
            exact ⟨by rw [hglyph]; rfl, by rw [hglyph]; rfl, by rw [hsize]; rfl, id⟩

lemma fontLine_took (h : fontLine s line = .ok s') : Took s s' line := by
  have kept : ∀ s : FontParse, Kept s s := fun s => ⟨rfl, rfl, rfl, rfl⟩
  have other : ∀ keyword, lineKeyword line keyword → keyword ≠ "char" → keyword ≠ "common" → Kept s s' →
      Took s s' line := fun _ hline hchar hcommon hkept =>
    hkept.took (declaredGlyph_none hline hchar) (declaredSize_none hline hcommon)
  rw [fontLine] at h
  split at h
  next hempty =>
    obtain rfl := Except.ok.inj h
    subst hempty
    exact (kept s).took rfl rfl
  next =>
    split at h
    next hline =>
      split at h
      next => exact nomatch h
      next =>
        obtain rfl := Except.ok.inj h
        exact other _ hline (by decide) (by decide) (kept s)
    next =>
      split at h
      next hline => exact .common hline h
      next hcommon =>
        split at h
        next hline => exact other _ hline (by decide) (by decide) (pageLine_kept h)
        next =>
          split at h
          next hline => exact other _ hline (by decide) (by decide) (charsLine_kept h)
          next =>
            split at h
            next hline => exact .char hline h
            next hchar =>
              -- The lines that are left are for the kernings, or unknown.
              refine Kept.took ?_ (if_neg hchar) (if_neg hcommon)
              split at h
              next =>
                split at h
                next =>
                  split at h
                  next => exact nomatch h
                  next =>
                    obtain rfl := Except.ok.inj h
                    exact kept s
                next => exact nomatch h
              next =>
                split at h
                next => exact kerningLine_kept h
                next =>
                  obtain rfl := Except.ok.inj h
                  exact kept s

lemma filterMap_cons_toList {α β : Type} (f : α → Option β) (a : α) (as : List α) :
    (a :: as).filterMap f = (f a).toList ++ as.filterMap f := by
  rw [List.filterMap_cons]
  cases f a <;> rfl

lemma fontLines_took (h : fontLines s lines = .ok s') :
    s'.data.codepoints = s.data.codepoints ++ (lines.filterMap declaredGlyph).map Prod.fst ∧
      s'.data.glyphs = s.data.glyphs ++ (lines.filterMap declaredGlyph).map Prod.snd ∧
        (s'.data.scaleWidth, s'.data.scaleHeight) =
          (lines.filterMap declaredSize).getLast?.getD (s.data.scaleWidth, s.data.scaleHeight) ∧
            (s.data.scaleWidth < 2 ^ 31 ∧ s.data.scaleHeight < 2 ^ 31 →
              s'.data.scaleWidth < 2 ^ 31 ∧ s'.data.scaleHeight < 2 ^ 31) := by
  induction lines generalizing s with
  | nil =>
    obtain rfl := Except.ok.inj h
    exact ⟨(List.append_nil _).symm, (List.append_nil _).symm, rfl, id⟩
  | cons line lines ih =>
    rw [fontLines] at h
    cases hline : fontLine s line with
    | error e =>
      rw [hline] at h
      exact nomatch h
    | ok s₁ =>
      rw [hline] at h
      have took := fontLine_took hline
      obtain ⟨hcodepoints, hglyphs, hsize, hsmall⟩ := ih h
      refine ⟨?_, ?_, ?_, hsmall ∘ took.small⟩
      · rw [hcodepoints, took.codepoints, filterMap_cons_toList, List.map_append, List.append_assoc]
      · rw [hglyphs, took.glyphs, filterMap_cons_toList, List.map_append, List.append_assoc]
      · rw [hsize, took.size, filterMap_cons_toList, List.getLast?_append]
        cases (lines.filterMap declaredSize).getLast? <;> cases declaredSize line <;> rfl

lemma bitmapFontParse_ok (h : bitmapFontParse std text = .ok s') :
    ∃ s, fontLines .empty (fntLines text) = .ok s ∧ s.hasCommon ∧ s' = { s with data := sortFont std s.data } := by
  rw [bitmapFontParse] at h
  split at h
  next => exact nomatch h
  next =>
    split at h
    next => exact nomatch h
    next =>
      cases hlines : fontLines .empty (fntLines text) with
      | error e =>
        rw [hlines] at h
        exact nomatch h
      | ok s =>
        rw [hlines] at h
        refine ⟨s, rfl, ?_⟩
        by_cases hmissing : (!s.hasCommon || !s.hasPage || !s.hasChars || s.pageFile = []) = true
        · exact nomatch (if_pos hmissing).symm.trans h
        · have hok := Except.ok.inj ((if_neg hmissing).symm.trans h)
          refine ⟨?_, hok.symm⟩
          cases hcommon : s.hasCommon with
          | true => rfl
          | false => exact absurd (by rw [hcommon]; rfl) hmissing

def UniqueGlyphs (data : BitmapFontData) (declared : List (ℕ × BitmapGlyph)) : Prop :=
  data.codepoints.Pairwise (· < ·) ∧ ∀ g ∈ declared, findGlyph data g.1 = some g.2

lemma sorted_glyphs (h : bitmapFontParse std text = .ok s') :
    ∃ sorted : List (ℕ × BitmapGlyph), sorted.Perm (declaredGlyphs text) ∧ sorted.Pairwise (·.1 ≤ ·.1) ∧
      s'.data.codepoints = sorted.map Prod.fst ∧ s'.data.glyphs = sorted.map Prod.snd := by
  obtain ⟨s, hlines, -, rfl⟩ := bitmapFontParse_ok h
  obtain ⟨hcodepoints, hglyphs, -⟩ := fontLines_took hlines
  rw [show FontParse.empty.data.codepoints = [] from rfl, List.nil_append, ← declaredGlyphs] at hcodepoints
  rw [show FontParse.empty.data.glyphs = [] from rfl, List.nil_append, ← declaredGlyphs] at hglyphs
  have hfst : ∀ i, s.data.codepoints.getD i 0 = ((declaredGlyphs text).getD i (0, .default)).1 := fun i => by
    rw [hcodepoints]
    exact List.getD_map _ (0, BitmapGlyph.default) Prod.fst
  have hsnd : ∀ i, s.data.glyphs.getD i .default = ((declaredGlyphs text).getD i (0, .default)).2 := fun i => by
    rw [hglyphs]
    exact List.getD_map _ (0, BitmapGlyph.default) Prod.snd
  have hlen : s.data.codepoints.length = (declaredGlyphs text).length := by rw [hcodepoints, List.length_map]
  refine ⟨(std.sortBy (s.data.codepoints.getD · 0) (List.range s.data.codepoints.length)).map
    ((declaredGlyphs text).getD · (0, .default)), ?_, ?_, ?_, ?_⟩
  · rw [hlen]
    exact std.perm_range _ _ _
  · rw [List.pairwise_map]
    refine (std.ascending _ _).imp fun {i j} hle => ?_
    rwa [← hfst, ← hfst]
  · rw [List.map_map]
    exact List.map_congr_left fun i _ => hfst i
  · rw [List.map_map]
    exact List.map_congr_left fun i _ => hsnd i

/-- **Unique glyphs.** The glyphs of an accepted font are unique exactly if no two lines declare one codepoint. -/
theorem uniqueGlyphs_iff (h : bitmapFontParse std text = .ok s') :
    UniqueGlyphs s'.data (declaredGlyphs text) ↔ ((declaredGlyphs text).map Prod.fst).Nodup := by
  obtain ⟨sorted, hperm, hascending, hcodepoints, hglyphs⟩ := sorted_glyphs h
  constructor
  · rintro ⟨hstrict, -⟩
    rw [hcodepoints] at hstrict
    exact (hperm.map Prod.fst).nodup_iff.mp (hstrict.imp ne_of_lt)
  · intro hnodup
    have hnodup' : (sorted.map Prod.fst).Nodup := (hperm.map Prod.fst).nodup_iff.mpr hnodup
    have hstrict : (sorted.map Prod.fst).Pairwise (· < ·) :=
      ((List.pairwise_map.mpr hascending).and hnodup').imp fun hle => lt_of_le_of_ne hle.1 hle.2
    refine ⟨hcodepoints ▸ hstrict, fun g hg => ?_⟩
    obtain ⟨i, hi⟩ := List.mem_iff_getElem?.mp (hperm.mem_iff.mpr hg)
    have hplace : binarySearch s'.data.codepoints g.1 = some i := by
      rw [hcodepoints]
      refine binarySearch_eq hstrict ?_
      rw [List.getElem?_map, hi]
      rfl
    rw [findGlyph, hplace, hglyphs]
    simp only [Option.bind_eq_bind, Option.bind_some, List.getElem?_map, hi, Option.map_some]

def fontFileLine (keyword : String) (attrs : List (String × String)) : Text :=
  keyword.toList ++ attrs.flatMap (fun attr => ' ' :: attr.1.toList ++ '=' :: attr.2.toList) ++ ['\n']

def fontHeader : Text :=
  fontFileLine "common" [("lineHeight", "1"), ("base", "0"), ("scaleW", "1"), ("scaleH", "1"), ("pages", "1"),
    ("packed", "0")] ++ fontFileLine "page" [("id", "0"), ("file", "a.png")] ++ fontFileLine "chars" [("count", "3")]

def glyphLine (id x : String) : Text :=
  fontFileLine "char" [("id", id), ("x", x), ("y", "0"), ("width", "1"), ("height", "1"), ("xoffset", "0"),
    ("yoffset", "0"), ("xadvance", "1"), ("page", "0"), ("chnl", "15")]

def distinctFont : Text := fontHeader ++ glyphLine "5" "0" ++ glyphLine "3" "0"

def duplicateFont : Text := fontHeader ++ glyphLine "5" "0" ++ glyphLine "3" "0" ++ glyphLine "5" "0"

lemma exists_of_toOption_map {ε α β : Type} {x : Except ε α} {f : α → β} {b : β} (h : x.toOption.map f = some b) :
    ∃ a, x = .ok a ∧ f a = b := by
  cases x with
  | error e => exact nomatch h
  | ok a => exact ⟨a, rfl, Option.some.inj h⟩

theorem uniqueGlyphs_distinctFont : ∃ s, bitmapFontParse .insertion distinctFont = .ok s ∧
    UniqueGlyphs s.data (declaredGlyphs distinctFont) := by
  have hparse : (bitmapFontParse .insertion distinctFont).toOption.map (·.data.codepoints) = some [3, 5] := by
    decide +kernel
  obtain ⟨s, hs, -⟩ := exists_of_toOption_map hparse
  exact ⟨s, hs, (uniqueGlyphs_iff hs).mpr (by decide +kernel)⟩

/-- **A duplicate that is not found**: the search looks at the smaller one of two unsorted codepoints. -/
theorem not_uniqueGlyphs : ∃ s, bitmapFontParse .insertion duplicateFont = .ok s ∧
    ¬ UniqueGlyphs s.data (declaredGlyphs duplicateFont) := by
  have hparse : (bitmapFontParse .insertion duplicateFont).toOption.map (·.data.codepoints) = some [3, 5, 5] := by
    decide +kernel
  obtain ⟨s, hs, hcodepoints⟩ := exists_of_toOption_map hparse
  refine ⟨s, hs, fun h => ?_⟩
  have hstrict := hcodepoints ▸ h.1
  exact absurd hstrict (by decide)

end PulseEngine.Font
