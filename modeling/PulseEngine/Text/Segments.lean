import Mathlib.Data.List.TakeWhile
import PulseEngine.Text.Layout

/-!
# The segments of a text

The cursor of `parse_text` goes over the segments of a text one by one, does not come behind the NUL, and ends
in front of it.
-/

namespace PulseEngine.Text

variable {F : Type} {channel : ℕ → ℕ → F} {default cur : TextColor F} {lengthOf : ℕ → ℕ}
  {text rest s : List UInt8} {b : UInt8} {fuel : ℕ}

def Printable (text : List UInt8) : Prop := ∀ b ∈ text, b ≠ 0

lemma segmentsFrom_eq (taken : ℕ) (text : List UInt8) :
    segmentsFrom lengthOf taken text = segments lengthOf (text.drop taken) := by
  induction text generalizing taken with
  | nil => rw [List.drop_nil]; cases taken <;> rfl
  | cons b rest ih =>
    cases taken with
    | zero => rfl
    | succ taken => exact ih taken

lemma segments_cons : segments lengthOf (b :: rest) = segmentAt lengthOf b rest ::
    segments lengthOf (rest.drop ((segmentAt lengthOf b rest).bytes.length - 1)) := by
  rw [segments, segmentsFrom, segmentsFrom_eq]

lemma bodyOf_append (rest : List UInt8) : bodyOf rest ++ rest.drop (bodyOf rest).length = rest :=
  List.prefix_iff_eq_append.mp (List.takeWhile_prefix _)

lemma segmentAt_cases (lengthOf : ℕ → ℕ) (b : UInt8) (rest : List UInt8) :
    (∃ tag, b = openByte ∧ segmentAt lengthOf b rest = .tag tag (bodyOf rest) ∧
      rest = bodyOf rest ++ closeByte :: rest.drop ((bodyOf rest).length + 1) ∧
        tagOf (lengthOf (bodyOf rest).length) (bodyOf rest) = some tag) ∨
      ∃ tail, segmentAt lengthOf b rest = .sequence b tail ∧
        tail = (if b = openByte then [] else (rest.take (extraBytes b)).takeWhile isTail) ∧
        (b = openByte → rest[(bodyOf rest).length]? = some closeByte →
          tagOf (lengthOf (bodyOf rest).length) (bodyOf rest) = none) := by
  rw [segmentAt]
  by_cases hopen : b = openByte
  · rw [if_pos hopen]
    split
    next tag htag =>
      split at htag
      next hclose =>
        refine .inl ⟨tag, hopen, rfl, ?_, htag⟩
        conv_lhs => rw [← bodyOf_append rest]
        rw [List.drop_eq_getElem?_toList_append, hclose]
        rfl
      next => exact nomatch htag
    next htag =>
      refine .inr ⟨[], by rw [hopen], by rw [if_pos hopen], fun _ hclose => ?_⟩
      rwa [if_pos hclose] at htag
  · rw [if_neg hopen]
    exact .inr ⟨_, rfl, by rw [if_neg hopen], fun h => absurd h hopen⟩

lemma segmentAt_bytes : (segmentAt lengthOf b rest).bytes ++
    rest.drop ((segmentAt lengthOf b rest).bytes.length - 1) = b :: rest := by
  obtain ⟨tag, rfl, heq, hrest, -⟩ | ⟨tail, heq, htail, -⟩ := segmentAt_cases lengthOf b rest
  · rw [heq, Segment.bytes, List.cons_append, List.cons_append, List.append_assoc, List.length_cons,
      List.length_append, List.length_singleton, Nat.add_sub_cancel, List.singleton_append, ← hrest]
  · rw [heq, Segment.bytes, List.length_cons, Nat.add_sub_cancel, List.cons_append]
    refine congrArg (b :: ·) ?_
    have hprefix : tail <+: rest := by
      rw [htail]
      split
      next => exact List.nil_prefix
      next => exact (List.takeWhile_prefix _).trans (List.take_prefix _ _)
    obtain ⟨rest', rfl⟩ := hprefix
    rw [List.drop_left]

lemma segments_bytes (text : List UInt8) : (segments lengthOf text).flatMap Segment.bytes = text := by
  induction hlen : text.length using Nat.strong_induction_on generalizing text with
  | _ n ih =>
    cases text with
    | nil => rfl
    | cons b rest =>
      subst hlen
      rw [segments_cons, List.flatMap_cons, ih _ ?_ _ rfl, segmentAt_bytes]
      rw [List.length_drop, List.length_cons]
      omega

lemma segments_tail {tail : List UInt8} (h : .sequence b tail ∈ segments lengthOf text) :
    ∀ c ∈ tail, isTail c := by
  induction hlen : text.length using Nat.strong_induction_on generalizing text with
  | _ n ih =>
    cases text with
    | nil => exact nomatch h
    | cons a rest =>
      subst hlen
      rw [segments_cons, List.mem_cons] at h
      rcases h with h | h
      · obtain ⟨tag, -, heq, -⟩ | ⟨tail', heq, htail, -⟩ := segmentAt_cases lengthOf a rest
        · exact nomatch h.trans heq
        · obtain ⟨-, rfl⟩ := Segment.sequence.inj (h.trans heq)
          intro c hc
          rw [htail] at hc
          split at hc
          next => exact nomatch hc
          next => exact List.mem_takeWhile_imp hc
      · refine ih _ ?_ h rfl
        rw [List.length_drop, List.length_cons]
        omega

lemma scanClose_eq (printable : Printable rest) : scanClose (rest ++ [0]) = some (bodyOf rest).length := by
  induction rest with
  | nil => rfl
  | cons b rest ih =>
    obtain ⟨hb, hrest⟩ := List.forall_mem_cons.mp printable
    rw [List.cons_append, scanClose, bodyOf, ih hrest]
    by_cases hclose : b = closeByte
    · rw [if_pos (.inr (.inl hclose)), List.takeWhile_cons_of_neg (by simp [hclose])]
      rfl
    · by_cases hopen : b = openByte
      · rw [if_pos (.inr (.inr hopen)), List.takeWhile_cons_of_neg (by simp [hopen])]
        rfl
      · rw [if_neg (by simp [hb, hclose, hopen]), List.takeWhile_cons_of_pos (by simp [hclose, hopen])]
        rfl

lemma mapM_getElem? {n k : ℕ} (h : k + n ≤ s.length) :
    (List.range' k n).mapM (s[·]?) = some ((s.drop k).take n) := by
  induction n generalizing k with
  | zero => rfl
  | succ n ih =>
    have hk : k < s.length := by omega
    rw [List.range'_succ, List.mapM_cons, ih (by omega), List.getElem?_eq_getElem hk,
      List.drop_eq_getElem_cons hk]
    rfl

lemma tagAt_eq (rest : List UInt8) :
    tagAt (openByte :: (rest ++ [0])) ((bodyOf rest).length + 1) =
      some (if rest[(bodyOf rest).length]? = some closeByte then
        tagOf (narrowLength (bodyOf rest).length) (bodyOf rest) else none) := by
  have hbody : bodyOf rest ++ rest.drop (bodyOf rest).length = rest := bodyOf_append rest
  have hlen : (bodyOf rest).length ≤ rest.length := by
    rw [← hbody, List.length_append, hbody]
    exact Nat.le_add_right _ _
  obtain ⟨last, hlast, hclose⟩ : ∃ last, (rest ++ [0])[(bodyOf rest).length]? = some last ∧
      (last = closeByte ↔ rest[(bodyOf rest).length]? = some closeByte) := by
    rcases Nat.lt_or_eq_of_le hlen with hlt | heq
    · refine ⟨rest[(bodyOf rest).length], ?_, ?_⟩
      · rw [List.getElem?_append_left hlt, List.getElem?_eq_getElem hlt]
      · rw [List.getElem?_eq_getElem hlt, Option.some_inj]
    · refine ⟨0, by rw [heq, List.getElem?_concat_length], ?_⟩
      rw [heq, List.getElem?_eq_none le_rfl]
      exact iff_of_false (by decide) nofun
  have hnarrow : ((bodyOf rest).length + 1 - 1) % 2 ^ 32 = narrowLength (bodyOf rest).length := rfl
  rw [tagAt, List.getElem?_cons_succ, hlast, hnarrow, Option.bind_eq_bind, Option.bind_some]
  by_cases hyes : last = closeByte
  · rw [if_neg (not_not.mpr hyes), if_pos (hclose.mp hyes), tagOf]
    split
    next hone =>
      -- a body whose length is one in 32 bits has a first byte
      cases hfirst : bodyOf rest with
      | nil =>
        rw [hfirst] at hone
        exact absurd hone (by decide)
      | cons c body =>
        have hrest : (rest ++ [0])[0]? = some c := by
          rw [← hbody, hfirst]
          rfl
        rw [List.getElem?_cons_succ, hrest]
        simp only [List.head?_cons, Option.some_inj, Option.bind_some]
        rfl
    next =>
      split
      next hsix =>
        have hmany : 6 ≤ (bodyOf rest).length := hsix ▸ Nat.mod_le _ _
        rw [mapM_getElem? (by rw [List.length_cons, List.length_append]; omega)]
        have htake : ((openByte :: (rest ++ [0])).drop 1).take 6 = (bodyOf rest).take 6 := by
          rw [List.drop_one, List.tail_cons, List.take_append_of_le_length (by omega), ← hbody,
            List.take_append_of_le_length hmany, hbody]
        rw [htake]
        rfl
      next => rfl
  · rw [if_pos hyes, if_neg (fun h => hyes (hclose.mpr h))]
    rfl

lemma decodeTail_eq {extra code width : ℕ} (hrest : s.drop width = rest ++ [0]) :
    decodeTail s extra code width =
      some (((rest.take extra).takeWhile isTail).foldl addTail code,
        width + ((rest.take extra).takeWhile isTail).length) := by
  induction extra generalizing code width rest with
  | zero => rw [decodeTail, List.take_zero]; rfl
  | succ extra ih =>
    have hget : s[width]? = (rest ++ [0])[0]? := by rw [← hrest, List.getElem?_drop, Nat.add_zero]
    rw [decodeTail, hget]
    cases rest with
    | nil => rfl
    | cons b rest =>
      rw [List.cons_append, List.getElem?_cons_zero, Option.bind_eq_bind, Option.bind_some,
        List.take_succ_cons]
      split
      next htail =>
        have hdrop : s.drop (width + 1) = rest ++ [0] := by
          rw [← List.drop_drop, hrest]
          rfl
        rw [ih hdrop, List.takeWhile_cons_of_pos htail, List.foldl_cons, List.length_cons,
          Nat.add_right_comm, Nat.add_assoc]
      next htail => rw [List.takeWhile_cons_of_neg htail]; rfl

lemma decodeCp_eq : decodeCp (b :: (rest ++ [0])) =
    some (Segment.code b ((rest.take (extraBytes b)).takeWhile isTail),
      ((rest.take (extraBytes b)).takeWhile isTail).length + 1) := by
  rw [decodeCp, List.getElem?_cons_zero, Option.bind_eq_bind, Option.bind_some,
    decodeTail_eq (show (b :: (rest ++ [0])).drop 1 = rest ++ [0] from rfl), Nat.add_comm 1]
  rfl

lemma parseTurn_eq (channel : ℕ → ℕ → F) (default cur : TextColor F) (printable : Printable (b :: rest))
    (out : List (TextItem F)) :
    ∃ cur' items, parseTurn channel default ⟨b :: rest ++ [0], cur, out⟩ =
        some ⟨rest.drop ((segmentAt narrowLength b rest).bytes.length - 1) ++ [0], cur', out ++ items⟩ ∧
      ∀ later, coloredFrom channel default cur (segmentAt narrowLength b rest :: later) =
        items ++ coloredFrom channel default cur' later := by
  obtain ⟨hb, hrest⟩ := List.forall_mem_cons.mp printable
  have hdrop : ∀ {n}, n ≤ rest.length → (b :: rest ++ [0]).drop (n + 1) = rest.drop n ++ [0] := by
    intro n hn
    rw [List.cons_append, List.drop_succ_cons, List.drop_append_of_le_length hn]
  by_cases hopen : b = openByte
  · subst hopen
    have hturn : parseTurn channel default ⟨openByte :: rest ++ [0], cur, out⟩ =
        (if rest[(bodyOf rest).length]? = some closeByte then
          tagOf (narrowLength (bodyOf rest).length) (bodyOf rest) else none).elim
            (some ⟨(openByte :: rest ++ [0]).drop 1, cur, out ++ [⟨openByte.toNat, cur⟩]⟩)
            fun tag => some ⟨(openByte :: rest ++ [0]).drop ((bodyOf rest).length + 1 + 1),
              tag.apply channel default, out⟩ := by
      rw [parseTurn]
      simp only [List.cons_append, List.getElem?_cons_zero, Option.bind_eq_bind, Option.bind_some,
        if_true, List.drop_one, List.tail_cons, scanClose_eq hrest, Option.map_some, tagAt_eq]
      generalize (if rest[(bodyOf rest).length]? = some closeByte then
        tagOf (narrowLength (bodyOf rest).length) (bodyOf rest) else none) = found
      cases found <;> rfl
    obtain ⟨tag, -, heq, hclosed, htag⟩ | ⟨tail, heq, htail, htag⟩ :=
      segmentAt_cases narrowLength openByte rest
    · have hclose : rest[(bodyOf rest).length]? = some closeByte := by
        refine (congrArg (·[(bodyOf rest).length]?) hclosed).trans ?_
        rw [List.getElem?_append_right le_rfl, Nat.sub_self, List.getElem?_cons_zero]
      have hlen : (bodyOf rest).length + 1 ≤ rest.length := (List.getElem?_eq_some_iff.mp hclose).1
      refine ⟨tag.apply channel default, [], ?_, fun later => ?_⟩
      · rw [hturn, if_pos hclose, htag, Option.elim_some, heq, hdrop hlen, Segment.bytes, List.append_nil]
        simp only [List.cons_append, List.length_cons, List.length_append, List.length_nil,
          Nat.zero_add, Nat.add_sub_cancel]
      · rw [heq]
        rfl
    · refine ⟨cur, [⟨openByte.toNat, cur⟩], ?_, fun later => ?_⟩
      · have hnone : (if rest[(bodyOf rest).length]? = some closeByte then
            tagOf (narrowLength (bodyOf rest).length) (bodyOf rest) else none) = none := by
          split
          next hclose => exact htag rfl hclose
          next => rfl
        rw [hturn, hnone, Option.elim_none, heq, htail, if_pos rfl, hdrop (Nat.zero_le _)]
        rfl
      · rw [heq, htail, if_pos rfl]
        rfl
  · obtain ⟨tag, hyes, -⟩ | ⟨tail, heq, htail, -⟩ := segmentAt_cases narrowLength b rest
    · exact absurd hyes hopen
    · rw [if_neg hopen] at htail
      have hlen : tail.length ≤ rest.length := by
        rw [htail]
        exact (List.takeWhile_prefix _).length_le.trans (List.take_prefix _ _).length_le
      refine ⟨cur, if isControl (Segment.code b tail) then [] else [⟨Segment.code b tail, cur⟩], ?_,
        fun later => ?_⟩
      · rw [parseTurn]
        simp only [List.cons_append, List.getElem?_cons_zero, Option.bind_eq_bind, Option.bind_some,
          if_neg hopen, decodeCp_eq, ← htail]
        rw [heq, Segment.bytes, List.length_cons, Nat.add_sub_cancel, ← List.cons_append, hdrop hlen]
        split
        next => rw [List.append_nil]; rfl
        next => rfl
      · rw [heq]
        rfl

lemma parseLoop_eq (printable : Printable text) (hfuel : text.length < fuel) (out : List (TextItem F)) :
    (parseLoop channel default fuel ⟨text ++ [0], cur, out⟩).map ParseState.out =
      some (out ++ coloredFrom channel default cur (segments narrowLength text)) := by
  induction fuel generalizing text cur out with
  | zero => exact absurd hfuel (Nat.not_lt_zero _)
  | succ fuel ih =>
    cases text with
    | nil =>
      rw [segments, segmentsFrom, coloredFrom, List.append_nil]
      rfl
    | cons b rest =>
      obtain ⟨cur', items, hturn, hitems⟩ := parseTurn_eq channel default cur printable out
      obtain ⟨hb, hrest⟩ := List.forall_mem_cons.mp printable
      have hlater : Printable (rest.drop ((segmentAt narrowLength b rest).bytes.length - 1)) :=
        fun c hc => hrest c (List.drop_subset _ _ hc)
      have hless : (rest.drop ((segmentAt narrowLength b rest).bytes.length - 1)).length < fuel := by
        rw [List.length_drop]
        rw [List.length_cons] at hfuel
        omega
      rw [parseLoop, List.cons_append, List.getElem?_cons_zero, ← List.cons_append, hturn]
      simp only [Option.bind_eq_bind, Option.bind_some, if_neg hb]
      rw [ih hlater hless, segments_cons, hitems, List.append_assoc]

/-- **`parse_text`** gives the items of the segments; it comes to an end, and reads nothing behind the NUL. -/
theorem parseText_eq (printable : Printable text) (hfuel : text.length < fuel) :
    parseText channel default fuel (text ++ [0]) =
      some (coloredFrom channel default default (segments narrowLength text)) :=
  parseLoop_eq printable hfuel []

end PulseEngine.Text
