import PulseEngine.Text.Lines

/-!
# Lines that overflow

What a line starts with after the one before it overflowed, and what its width stands for. An item that
overflows ends the line at the last break opportunity or before itself, and the break opportunities after
spaces and after ideographs are noted in different branches.
-/

namespace PulseEngine.Text

open Library

variable {F : Type*} {runs : TextRuns F} {s s' : BreakState F} {boxWidth : F} {fuel : ℕ}

def BreakState.HasBreak (s : BreakState F) : Prop := s.brk ≠ kNoBreak ∧ s.start < s.brk

/-- Where `break_lines` notes a break opportunity: after an ideograph, and after the last of some spaces. -/
structure Opportunity (runs : TextRuns F) (at_ : ℕ) : Prop where
  noted : isCjk (runs.cp (at_ - 1)) ∨ isSpace (runs.cp (at_ - 1)) ∧ ¬ isSpace (runs.cp at_)

section Turns

variable [Zero F] [Add F] [LT F]

/-- The item at `i` does not fit into the open line any more. -/
structure BreakState.Overflows (runs : TextRuns F) (boxWidth : F) (s : BreakState F) : Prop where
  item : runs.cp s.i ≠ newline
  wraps : 0 < boxWidth
  inner : s.start < s.i
  wide : boxWidth < s.pen + s.add runs

variable [DecidableLT F]

lemma breakStep_turns (next : breakStep runs boxWidth s = some s') :
    s.i < runs.count ∧
      ((runs.cp s.i = newline ∧ s' = s.push (s.i - s.start) s.visible (s.i + 1)) ∨
        (s.Overflows runs boxWidth ∧ s.HasBreak ∧ s' = s.push (s.brk - s.start) s.brkWidth s.brk) ∨
        (s.Overflows runs boxWidth ∧ ¬ s.HasBreak ∧ s' = s.push (s.i - s.start) s.visible s.i) ∨
        (runs.cp s.i ≠ newline ∧ ¬ s.Overflows runs boxWidth ∧ s' = s.take runs)) := by
  rw [breakStep] at next
  split at next
  next hi =>
    refine ⟨hi, ?_⟩
    split at next
    next hcp => exact .inl ⟨hcp, (Option.some.inj next).symm⟩
    next hcp =>
      split at next
      next hwrap =>
        have overflows : s.Overflows runs boxWidth := ⟨hcp, hwrap.1, hwrap.2.1, hwrap.2.2⟩
        obtain rfl := Option.some.inj next
        rw [BreakState.wrap]
        split
        next hbreak => exact .inr (.inl ⟨overflows, hbreak, rfl⟩)
        next hbreak => exact .inr (.inr (.inl ⟨overflows, hbreak, rfl⟩))
      next hfit =>
        refine .inr (.inr (.inr ⟨hcp, fun h => hfit ⟨h.wraps, h.inner, h.wide⟩, ?_⟩))
        exact (Option.some.inj next).symm
  next => cases next

omit [LT F] [DecidableLT F] in
lemma BreakState.take_cases (runs : TextRuns F) (s : BreakState F) :
    ∃ brk brkWidth, s.take runs =
        ⟨s.start, s.i + 1, s.pen + s.add runs, s.seen runs, brk, brkWidth, s.lines⟩ ∧
      ((brk = s.brk ∧ brkWidth = s.brkWidth) ∨
        (brk = s.i + 1 ∧ isCjk (runs.cp s.i) ∧ brkWidth = s.pen + s.add runs) ∨
        (brk = s.i + 1 ∧ ¬ isCjk (runs.cp s.i) ∧ brkWidth = s.seen runs ∧
          isSpace (runs.cp s.i) ∧ ¬ isSpace (runs.cp (s.i + 1)))) := by
  rw [BreakState.take]
  split
  next =>
    split
    next hcjk => exact ⟨_, _, rfl, .inr (.inl ⟨rfl, hcjk, rfl⟩)⟩
    next hcjk =>
      split
      next hspace => exact ⟨_, _, rfl, .inr (.inr ⟨rfl, hcjk, rfl, hspace⟩)⟩
      next => exact ⟨_, _, rfl, .inl ⟨rfl, rfl⟩⟩
  next => exact ⟨_, _, rfl, .inl ⟨rfl, rfl⟩⟩

lemma breakLines_total (runs : TextRuns F) (boxWidth : F) :
    ∃ fuel lines, ∀ fuel' ≥ fuel, breakLines fuel' runs boxWidth = some lines := by
  obtain ⟨s', hs'⟩ := loop_ends (Broken runs) (measure runs) (fun _ _ => Broken.step) broken_init
    (Nat.lt_succ_self (measure runs (BreakState.init : BreakState F)))
  refine ⟨(measure runs (BreakState.init : BreakState F)).succ, s'.finish runs, fun fuel' hle => ?_⟩
  rw [breakLines, loop_mono hle hs', Option.map_some]

lemma overflow_turns {cond : BreakState F → Prop} :
    (∀ s s', Visits (breakStep runs boxWidth) BreakState.init s → breakStep runs boxWidth s = some s' →
      s.Overflows runs boxWidth → cond s) ↔
      ∀ s, Visits (breakStep runs boxWidth) BreakState.init s → s.i < runs.count →
        s.Overflows runs boxWidth → cond s := by
  refine forall_congr' fun s => ⟨fun h visit hi hover => ?_, fun h s' visit next => ?_⟩
  · obtain ⟨s', next⟩ : ∃ s', breakStep runs boxWidth s = some s' := by
      rw [breakStep, if_pos hi, if_neg hover.item, if_pos ⟨hover.wraps, hover.inner, hover.wide⟩]
      exact ⟨_, rfl⟩
    exact h s' visit next hover
  · exact h visit (breakStep_turns next).1

end Turns

def StartsVisible (runs : TextRuns F) (line next : TextLine F) : Prop :=
  next.first = line.first + line.count → ¬ isSpace (runs.cp next.first)

/-- **The claim about starts**: no line that starts because the one before it overflowed starts with a
space. -/
def NoLeadingSpace (runs : TextRuns F) (lines : List (TextLine F)) : Prop :=
  lines.IsChain (StartsVisible runs)

def BreakState.opened [Zero F] (s : BreakState F) : List (TextLine F) := s.lines ++ [⟨s.start, 0, 0⟩]

structure Started (runs : TextRuns F) (s : BreakState F) : Prop extends Broken runs s where
  noted : s.HasBreak → Opportunity runs s.brk
  opens : s.lines = [] ∨ s.start < runs.count ∨ 0 < s.start ∧ runs.cp (s.start - 1) = newline

section Starts

variable [Zero F]

omit [Zero F] in
lemma noLeadingSpace_concat {lines : List (TextLine F)} {line line' : TextLine F}
    (first : line.first = line'.first) :
    NoLeadingSpace runs (lines ++ [line]) ↔ NoLeadingSpace runs (lines ++ [line']) := by
  rw [NoLeadingSpace, NoLeadingSpace, List.isChain_append, List.isChain_append]
  refine and_congr_right fun _ => and_congr (iff_of_true (.singleton _) (.singleton _)) ?_
  simp only [List.head?_cons, Option.mem_some_iff, forall_eq', StartsVisible, first]

lemma noLeadingSpace_push {count next : ℕ} {width : F} :
    NoLeadingSpace runs (s.push count width next).opened ↔ NoLeadingSpace runs s.opened ∧
      (next = s.start + count → ¬ isSpace (runs.cp next)) := by
  rw [BreakState.opened, BreakState.push, List.append_assoc, List.singleton_append, NoLeadingSpace,
    List.isChain_append_cons_cons]
  refine and_congr (noLeadingSpace_concat rfl) ?_
  exact and_iff_left (.singleton _)

lemma Started.finish (h : Started runs s) (hi : s.i = runs.count) :
    NoLeadingSpace runs (s.finish runs) ↔ NoLeadingSpace runs s.opened := by
  have hle := h.start_le
  rw [BreakState.finish]
  split
  next => exact noLeadingSpace_concat rfl
  next hnot =>
    split
    next => exact noLeadingSpace_concat (show runs.count = s.start by omega)
    next hlast =>
      obtain hlines | hlt | ⟨hpos, hcp⟩ := h.opens
      · rw [BreakState.opened, hlines]
        exact iff_of_true .nil (.singleton _)
      · exact absurd hlt hnot
      · have heq : s.start = runs.count := by omega
        rw [heq] at hpos hcp
        exact absurd ⟨hpos, hcp⟩ hlast

variable [Add F] [LT F]

/-- **The condition on an item that overflows**: with a break opportunity in the line, it is not one between an
ideograph and a space, and without one the item is no space itself. -/
structure CutsBeforeText (runs : TextRuns F) (s : BreakState F) : Prop where
  back : s.HasBreak → ¬ (isCjk (runs.cp (s.brk - 1)) ∧ isSpace (runs.cp s.brk))
  here : ¬ s.HasBreak → ¬ isSpace (runs.cp s.i)

variable [DecidableLT F]

/-- **A turn.** The line that it starts does not start with a space exactly under the condition. -/
lemma Started.step (h : Started runs s) (next : breakStep runs boxWidth s = some s') :
    Started runs s' ∧ (NoLeadingSpace runs s'.opened ↔ NoLeadingSpace runs s.opened ∧
      (s.Overflows runs boxWidth → CutsBeforeText runs s)) := by
  have hbroken := (h.toBroken.step next).1
  have hle := h.start_le
  obtain ⟨hi, ⟨hcp, rfl⟩ | ⟨hover, hbreak, rfl⟩ | ⟨hover, hbreak, rfl⟩ | ⟨hcp, hfit, rfl⟩⟩ :=
    breakStep_turns next
  · refine ⟨⟨hbroken, fun hbreak => absurd rfl hbreak.1, .inr (.inr ⟨Nat.succ_pos _, hcp⟩)⟩, ?_⟩
    rw [noLeadingSpace_push]
    refine and_congr_right fun _ => iff_of_true (fun heq => ?_) fun hover => absurd hcp hover.item
    omega
  · have hbrk := h.brk_le hbreak.1
    refine ⟨⟨hbroken, fun hbreak => absurd rfl hbreak.1, .inr (.inl (lt_of_le_of_lt hbrk hi))⟩, ?_⟩
    rw [noLeadingSpace_push]
    refine and_congr_right fun _ => ⟨fun hstart _ => ⟨fun _ hboth => ?_, fun hno => absurd hbreak hno⟩,
      fun hcut _ hspace => ?_⟩
    · exact hstart (by have := hbreak.2; omega) hboth.2
    · rcases (h.noted hbreak).noted with hcjk | hlast
      · exact (hcut hover).back hbreak ⟨hcjk, hspace⟩
      · exact hlast.2 hspace
  · refine ⟨⟨hbroken, fun hbreak => absurd rfl hbreak.1, .inr (.inl hi)⟩, ?_⟩
    rw [noLeadingSpace_push]
    refine and_congr_right fun _ => ⟨fun hstart _ => ⟨fun hyes => absurd hyes hbreak, fun _ => ?_⟩,
      fun hcut _ => (hcut hover).here hbreak⟩
    exact hstart (by have := hover.inner; omega)
  · obtain ⟨brk, brkWidth, heq, hbrk⟩ := BreakState.take_cases runs s
    rw [heq] at hbroken ⊢
    refine ⟨⟨hbroken, fun hbreak => ?_, h.opens⟩, ?_⟩
    · obtain ⟨rfl, -⟩ | ⟨rfl, hcjk, -⟩ | ⟨rfl, -, -, hlast⟩ := hbrk
      · exact h.noted hbreak
      · exact ⟨.inl hcjk⟩
      · exact ⟨.inr hlast⟩
    · exact (and_iff_left fun hover => absurd hover hfit).symm

end Starts

/-- **Starts.** For every text, box and arithmetic, the loop ends, and no line that starts because the one
before it overflowed starts with a space exactly if every item that overflows is cut off in front of text. -/
theorem breakLines_starts_iff (F : Type*) [Zero F] [Add F] [LT F] [DecidableLT F] (runs : TextRuns F)
    (boxWidth : F) :
    ∃ fuel lines, (∀ fuel' ≥ fuel, breakLines fuel' runs boxWidth = some lines) ∧
      (NoLeadingSpace runs lines ↔
        ∀ s, Visits (breakStep runs boxWidth) BreakState.init s → s.i < runs.count →
          s.Overflows runs boxWidth → CutsBeforeText runs s) := by
  obtain ⟨fuel, lines, hlines⟩ := breakLines_total runs boxWidth
  refine ⟨fuel, lines, hlines, ?_⟩
  obtain ⟨s', hs', rfl⟩ := Option.map_eq_some_iff.mp (hlines fuel le_rfl)
  have hinit : Started runs (BreakState.init : BreakState F) :=
    ⟨broken_init, fun hbreak => absurd rfl hbreak.1, .inl rfl⟩
  have hstep : ∀ s s', Started runs s → breakStep runs boxWidth s = some s' → Started runs s' ∧
      (NoLeadingSpace runs s'.opened ↔ NoLeadingSpace runs s.opened ∧
        (s.Overflows runs boxWidth → CutsBeforeText runs s)) := fun _ _ => Started.step
  obtain ⟨hstarted, hend⟩ := loop_invariant (Started runs) (fun s s' h next => (hstep s s' h next).1)
    hinit hs'
  rw [hstarted.finish (breakStep_none hstarted.toBroken hend), loop_iff hstep hinit hs',
    and_iff_right (.singleton _)]
  exact overflow_turns

/-- In a box as wide as a word, the space behind the word starts the next line. -/
theorem not_noLeadingSpace : ¬ ∀ (runs : TextRuns ℚ) (boxWidth : ℚ) (fuel : ℕ) (lines : List (TextLine ℚ)),
    breakLines fuel runs boxWidth = some lines → NoLeadingSpace runs lines := by
  intro h
  have hlines : breakLines 6 plainRuns 1 = some [⟨0, 1, 1⟩, ⟨1, 1, 0⟩, ⟨2, 1, 1⟩] := by decide +kernel
  have hstart : StartsVisible plainRuns ⟨0, 1, 1⟩ ⟨1, 1, 0⟩ := (List.isChain_cons_cons.mp (h _ _ _ _ hlines)).1
  exact hstart rfl (by decide)

/-- An item that the emission loop of `text_layout` puts a glyph for: the pen where it is put, and the pen
behind it. -/
structure Emitted (F : Type*) where
  item : ℕ
  pen : F
  behind : F

section Emission

variable [Zero F] [Add F]

/-- A turn of the emission loop over a line that starts at `first`: the items so far, and the pen. Whether the
fonts have a glyph is left out. -/
def emitItem (runs : TextRuns F) (first : ℕ) (emitted : List (Emitted F) × F) (i : ℕ) :
    List (Emitted F) × F :=
  let behind := emitted.2 + (runs.advance i + if first < i then runs.kern i else 0)
  (if isSpace (runs.cp i) then emitted.1 else emitted.1 ++ [⟨i, emitted.2, behind⟩], behind)

def emitLine (runs : TextRuns F) (first count : ℕ) : List (Emitted F) × F :=
  (List.range' first count).foldl (emitItem runs first) ([], 0)

def visibleExtent (runs : TextRuns F) (first count : ℕ) : F :=
  ((emitLine runs first count).1.getLast?.map Emitted.behind).getD 0

/-- **The claim about widths**: the width of a line is where its last visible item ends. -/
def WidthsVisible (runs : TextRuns F) (lines : List (TextLine F)) : Prop :=
  ∀ line ∈ lines, line.width = visibleExtent runs line.first line.count

lemma emitLine_succ (runs : TextRuns F) (first count : ℕ) : emitLine runs first (count + 1) =
    emitItem runs first (emitLine runs first count) (first + count) := by
  rw [emitLine, List.range'_1_concat, List.foldl_append]
  rfl

lemma visibleExtent_succ (runs : TextRuns F) (first count : ℕ) : visibleExtent runs first (count + 1) =
    if isSpace (runs.cp (first + count)) then visibleExtent runs first count
    else (emitLine runs first (count + 1)).2 := by
  rw [visibleExtent, emitLine_succ, emitItem]
  dsimp only
  split
  next => rfl
  next => rw [List.getLast?_concat, Option.map_some, Option.getD_some]

/-- What is known about widths before every turn: the loop goes along with the emission of the open line. -/
structure Emitting (runs : TextRuns F) (s : BreakState F) : Prop extends Broken runs s where
  pen : s.pen = (emitLine runs s.start (s.i - s.start)).2
  visible : s.visible = visibleExtent runs s.start (s.i - s.start)
  ideograph : s.HasBreak → isCjk (runs.cp (s.brk - 1)) →
    s.brkWidth = (emitLine runs s.start (s.brk - s.start)).2
  space : s.HasBreak → ¬ isCjk (runs.cp (s.brk - 1)) →
    s.brkWidth = visibleExtent runs s.start (s.brk - s.start)

lemma Emitting.push {count next : ℕ} {width : F} (broken : Broken runs (s.push count width next)) :
    Emitting runs (s.push count width next) := by
  have empty : next - next = 0 := Nat.sub_self next
  refine ⟨broken, ?_, ?_, fun hbreak => absurd rfl hbreak.1, fun hbreak => absurd rfl hbreak.1⟩
  · rw [BreakState.push, empty]
    rfl
  · rw [BreakState.push, empty]
    rfl

lemma widthsVisible_push {count next : ℕ} {width : F} :
    WidthsVisible runs (s.push count width next).lines ↔
      WidthsVisible runs s.lines ∧ width = visibleExtent runs s.start count := by
  rw [WidthsVisible, BreakState.push, List.forall_mem_append, List.forall_mem_singleton]
  rfl

lemma Emitting.take (h : Emitting runs s) :
    s.pen + s.add runs = (emitLine runs s.start (s.i + 1 - s.start)).2 ∧
      s.seen runs = visibleExtent runs s.start (s.i + 1 - s.start) := by
  have hle := h.start_le
  have hnext : s.i + 1 - s.start = s.i - s.start + 1 := by omega
  have hitem : s.start + (s.i - s.start) = s.i := by omega
  have hpen : s.pen + s.add runs = (emitLine runs s.start (s.i - s.start + 1)).2 := by
    rw [emitLine_succ, emitItem, hitem, ← h.pen]
    rfl
  refine ⟨by rw [hnext, hpen], ?_⟩
  rw [BreakState.seen, hnext, visibleExtent_succ, hitem, hpen, h.visible]

/-- **The condition on an item that overflows**: when the line goes back to a break opportunity behind an
ideographic space, its spaces at the end have no width. -/
def TrimsIdeographicSpace (runs : TextRuns F) (s : BreakState F) : Prop :=
  s.HasBreak → isCjk (runs.cp (s.brk - 1)) → isSpace (runs.cp (s.brk - 1)) →
    (emitLine runs s.start (s.brk - s.start)).2 = visibleExtent runs s.start (s.brk - s.start)

lemma Emitting.brkWidth_iff (h : Emitting runs s) (hbreak : s.HasBreak) :
    s.brkWidth = visibleExtent runs s.start (s.brk - s.start) ↔ TrimsIdeographicSpace runs s := by
  have hlt := hbreak.2
  by_cases hcjk : isCjk (runs.cp (s.brk - 1))
  · rw [h.ideograph hbreak hcjk]
    by_cases hspace : isSpace (runs.cp (s.brk - 1))
    · exact ⟨fun heq _ _ _ => heq, fun htrim => htrim hbreak hcjk hspace⟩
    · -- behind an ideograph that is no space everything is visible
      refine iff_of_true ?_ fun _ _ hspace' => absurd hspace' hspace
      obtain ⟨count, hcount⟩ : ∃ count, s.brk - s.start = count + 1 := ⟨s.brk - s.start - 1, by omega⟩
      have hlast : s.start + count = s.brk - 1 := by omega
      rw [hcount, visibleExtent_succ, hlast, if_neg hspace]
  · exact iff_of_true (h.space hbreak hcjk) fun _ hcjk' => absurd hcjk' hcjk

variable [LT F] [DecidableLT F]

/-- **A turn.** The width of the line that it ends is where its last visible item ends exactly under the
condition. -/
lemma Emitting.step (h : Emitting runs s) (next : breakStep runs boxWidth s = some s') :
    Emitting runs s' ∧ (WidthsVisible runs s'.lines ↔ WidthsVisible runs s.lines ∧
      (s.Overflows runs boxWidth → TrimsIdeographicSpace runs s)) := by
  have hbroken := (h.toBroken.step next).1
  obtain ⟨hi, ⟨hcp, rfl⟩ | ⟨hover, hbreak, rfl⟩ | ⟨hover, hbreak, rfl⟩ | ⟨hcp, hfit, rfl⟩⟩ :=
    breakStep_turns next
  · refine ⟨.push hbroken, ?_⟩
    rw [widthsVisible_push]
    exact and_congr_right fun _ => iff_of_true h.visible fun hover => absurd hcp hover.item
  · refine ⟨.push hbroken, ?_⟩
    rw [widthsVisible_push, h.brkWidth_iff hbreak]
    exact and_congr_right fun _ => ⟨fun htrim _ => htrim, fun htrim => htrim hover⟩
  · refine ⟨.push hbroken, ?_⟩
    rw [widthsVisible_push]
    exact and_congr_right fun _ => iff_of_true h.visible fun _ hyes => absurd hyes hbreak
  · obtain ⟨hpen, hseen⟩ := h.take
    obtain ⟨brk, brkWidth, heq, hbrk⟩ := BreakState.take_cases runs s
    rw [heq] at hbroken ⊢
    refine ⟨⟨hbroken, hpen, hseen, fun hbreak hcjk => ?_, fun hbreak hcjk => ?_⟩, ?_⟩
    · obtain ⟨rfl, rfl⟩ | ⟨rfl, -, rfl⟩ | ⟨rfl, hno, -⟩ := hbrk
      · exact h.ideograph hbreak hcjk
      · exact hpen
      · exact absurd hcjk hno
    · obtain ⟨rfl, rfl⟩ | ⟨rfl, hyes, -⟩ | ⟨rfl, -, rfl, -⟩ := hbrk
      · exact h.space hbreak hcjk
      · exact absurd hyes hcjk
      · exact hseen
    · exact (and_iff_left fun hover => absurd hover hfit).symm

end Emission

/-- **Widths.** For every text, box and arithmetic, the loop ends, and the width of each line is where its last
visible item ends exactly if no line with some width at its end is cut off behind an ideographic space. -/
theorem breakLines_widths_iff (F : Type*) [Zero F] [Add F] [LT F] [DecidableLT F] (runs : TextRuns F)
    (boxWidth : F) :
    ∃ fuel lines, (∀ fuel' ≥ fuel, breakLines fuel' runs boxWidth = some lines) ∧
      (WidthsVisible runs lines ↔
        ∀ s, Visits (breakStep runs boxWidth) BreakState.init s → s.i < runs.count →
          s.Overflows runs boxWidth → TrimsIdeographicSpace runs s) := by
  obtain ⟨fuel, lines, hlines⟩ := breakLines_total runs boxWidth
  refine ⟨fuel, lines, hlines, ?_⟩
  obtain ⟨s', hs', rfl⟩ := Option.map_eq_some_iff.mp (hlines fuel le_rfl)
  have hinit : Emitting runs (BreakState.init : BreakState F) :=
    ⟨broken_init, rfl, rfl, fun hbreak => absurd rfl hbreak.1, fun hbreak => absurd rfl hbreak.1⟩
  have hstep : ∀ s s', Emitting runs s → breakStep runs boxWidth s = some s' → Emitting runs s' ∧
      (WidthsVisible runs s'.lines ↔ WidthsVisible runs s.lines ∧
        (s.Overflows runs boxWidth → TrimsIdeographicSpace runs s)) := fun _ _ => Emitting.step
  obtain ⟨hemitting, hend⟩ := loop_invariant (Emitting runs) (fun s s' h next => (hstep s s' h next).1)
    hinit hs'
  have hfinish : WidthsVisible runs (s'.finish runs) ↔ WidthsVisible runs s'.lines := by
    have hi := breakStep_none hemitting.toBroken hend
    have hlast := hemitting.visible
    rw [hi] at hlast
    rw [BreakState.finish]
    split
    next =>
      rw [WidthsVisible, List.forall_mem_append, List.forall_mem_singleton]
      exact and_iff_left hlast
    next =>
      split
      next =>
        rw [WidthsVisible, List.forall_mem_append, List.forall_mem_singleton]
        exact and_iff_left rfl
      next => exact .rfl
  have hnone : WidthsVisible runs (BreakState.init : BreakState F).lines :=
    fun line hline => absurd hline List.not_mem_nil
  rw [hfinish, loop_iff hstep hinit hs', and_iff_right hnone]
  exact overflow_turns

def spacedIdeographs : TextRuns ℚ := ⟨[0x4E2D, 0x3000, 0x6587], [1, 1, 1], [0, 0, 0], by decide, by decide⟩

/-- In a box as wide as an ideograph and a space, the width of the first line has the space in it. -/
theorem not_widthsVisible : ¬ ∀ (runs : TextRuns ℚ) (boxWidth : ℚ) (fuel : ℕ) (lines : List (TextLine ℚ)),
    breakLines fuel runs boxWidth = some lines → WidthsVisible runs lines := by
  intro h
  have hlines : breakLines 6 spacedIdeographs 2 = some [⟨0, 2, 2⟩, ⟨2, 1, 1⟩] := by decide +kernel
  have hwidth := h _ _ _ _ hlines ⟨0, 2, 2⟩ List.mem_cons_self
  exact absurd hwidth (by decide +kernel)

end PulseEngine.Text
