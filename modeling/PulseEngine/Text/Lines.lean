import PulseEngine.Text.Layout

/-!
# Lines partition a text

Every turn of the loop of `break_lines` takes an item into the open line or cuts the open line off.
`Broken` says what the lines that are cut off hold, `Fitting` what is known about widths when nothing
goes backwards. `breakLines_partition` puts them together for the whole loop.
-/

namespace PulseEngine.Text

open Library

variable {F : Type*} {runs : TextRuns F} {s s' : BreakState F} {boxWidth : F} {fuel : ℕ}

inductive LineEnd
  | wrapped
  | newline
  | last
deriving DecidableEq

def lineItems (line : TextLine F × LineEnd) : List ℕ :=
  match line.2 with
  | .newline => line.1.indices ++ [line.1.first + line.1.count]
  | _ => line.1.indices

/-- The lines and the removed newlines are the items from the first one up to `upTo`. -/
structure Covers (runs : TextRuns F) (lines : List (TextLine F × LineEnd)) (upTo : ℕ) : Prop where
  items : lines.flatMap lineItems = List.range upTo
  removed : ∀ line ∈ lines, line.2 = .newline → runs.cp (line.1.first + line.1.count) = newline
  kept : ∀ line ∈ lines, ∀ i ∈ line.1.indices, runs.cp i ≠ newline
  wrapped : ∀ line ∈ lines, line.2 = .wrapped → 0 < line.1.count

structure Partition (runs : TextRuns F) (lines : List (TextLine F × LineEnd)) : Prop where
  covers : Covers runs lines runs.items.length
  last : ∀ line ∈ lines.dropLast, line.2 ≠ .last

lemma Covers.nil : Covers runs [] 0 :=
  ⟨rfl, nofun, nofun, nofun⟩

lemma Covers.snoc {lines : List (TextLine F × LineEnd)} {upTo next : ℕ}
    (h : Covers runs lines upTo) {line : TextLine F × LineEnd} (first : line.1.first = upTo)
    (kept : ∀ i, upTo ≤ i → i < upTo + line.1.count → runs.cp i ≠ newline)
    (wrapped : line.2 = .wrapped → 0 < line.1.count)
    (ends : (line.2 ≠ .newline ∧ next = upTo + line.1.count) ∨
      (line.2 = .newline ∧ next = upTo + line.1.count + 1 ∧
        runs.cp (upTo + line.1.count) = newline)) :
    Covers runs (lines ++ [line]) next := by
  obtain ⟨⟨first', count, width⟩, e⟩ := line
  obtain rfl : first' = upTo := first
  have hrange : List.range first' ++ List.range' first' count = List.range (first' + count) := by
    have := List.range'_append_1 (s := 0) (m := first') (n := count)
    rwa [Nat.zero_add, ← List.range_eq_range', ← List.range_eq_range'] at this
  refine ⟨?_, ?_, ?_, ?_⟩
  · rw [List.flatMap_append, h.items]
    cases e with
    | newline =>
      obtain ⟨he, -⟩ | ⟨-, rfl, -⟩ := ends
      · exact absurd rfl he
      · simp only [lineItems, TextLine.indices, List.flatMap_cons, List.flatMap_nil,
          List.append_nil]
        rw [← List.append_assoc, hrange, List.range_succ]
    | wrapped =>
      obtain ⟨-, rfl⟩ | ⟨he, -⟩ := ends
      · simpa [lineItems, TextLine.indices] using hrange
      · exact nomatch he
    | last =>
      obtain ⟨-, rfl⟩ | ⟨he, -⟩ := ends
      · simpa [lineItems, TextLine.indices] using hrange
      · exact nomatch he
  · intro line hline he
    rcases List.mem_append.mp hline with hline | hline
    · exact h.removed line hline he
    · obtain rfl := List.mem_singleton.mp hline
      obtain ⟨hne, -⟩ | ⟨-, -, hcp⟩ := ends
      · exact absurd he hne
      · exact hcp
  · intro line hline i hi
    rcases List.mem_append.mp hline with hline | hline
    · exact h.kept line hline i hi
    · obtain rfl := List.mem_singleton.mp hline
      obtain ⟨hle, hlt⟩ := List.mem_range'_1.mp hi
      exact kept i hle hlt
  · intro line hline he
    rcases List.mem_append.mp hline with hline | hline
    · exact h.wrapped line hline he
    · obtain rfl := List.mem_singleton.mp hline
      exact wrapped he

/-- What holds before every turn: the lines so far cover the items before the open one, which has no
newline, and the break opportunity lies in it. -/
structure Broken (runs : TextRuns F) (s : BreakState F) : Prop where
  covers : ∃ lines : List (TextLine F × LineEnd), lines.map Prod.fst = s.lines ∧
    Covers runs lines s.start ∧ ∀ line ∈ lines, line.2 ≠ .last
  start_le : s.start ≤ s.i
  i_le : s.i ≤ runs.count
  kept : ∀ i, s.start ≤ i → i < s.i → runs.cp i ≠ newline
  brk_le : s.brk ≠ kNoBreak → s.brk ≤ s.i

def measure (runs : TextRuns F) (s : BreakState F) : ℕ :=
  (runs.count - s.start) * (runs.count + 1) + (runs.count - s.i)

lemma measure_lt_of_start {next : ℕ} (hi : s.i ≤ runs.count) (hlt : s.start < next)
    (hle : next ≤ runs.count) (hstart : s'.start = next) (hnext : s'.i = next) :
    measure runs s' < measure runs s := by
  have hmul : (runs.count - next) * (runs.count + 1) + (runs.count + 1) ≤
      (runs.count - s.start) * (runs.count + 1) := by
    rw [← Nat.succ_mul]
    exact Nat.mul_le_mul_right _ (by omega)
  rw [measure, measure, hstart, hnext]
  omega

variable [Zero F]

lemma Broken.push (h : Broken runs s) {count next : ℕ} {width : F} (e : LineEnd)
    (hcount : s.start + count ≤ s.i) (hne : e ≠ .last) (hnext : next ≤ runs.count)
    (wrapped : e = .wrapped → 0 < count)
    (ends : (e ≠ .newline ∧ next = s.start + count) ∨
      (e = .newline ∧ next = s.start + count + 1 ∧ runs.cp (s.start + count) = newline)) :
    Broken runs (s.push count width next) := by
  obtain ⟨lines, hlines, hcovers, hlast⟩ := h.covers
  refine ⟨⟨lines ++ [(⟨s.start, count, width⟩, e)], ?_, ?_, ?_⟩, le_refl _, hnext, ?_, ?_⟩
  · rw [List.map_append, hlines]
    rfl
  · exact hcovers.snoc rfl (fun i hle hlt => h.kept i hle (by dsimp at hlt; omega)) wrapped ends
  · intro line hline
    rcases List.mem_append.mp hline with hline | hline
    · exact hlast line hline
    · obtain rfl := List.mem_singleton.mp hline
      exact hne
  · exact fun i hle hlt => absurd (lt_of_le_of_lt hle hlt) (lt_irrefl _)
  · exact fun hbrk => absurd rfl hbrk

lemma BreakState.wrap_eq (h : Broken runs s) (hlt : s.start < s.i) :
    ∃ at' width, s.start < at' ∧ at' ≤ s.i ∧ s.wrap = s.push (at' - s.start) width at' ∧
      ((at' = s.i ∧ width = s.visible) ∨
        (at' = s.brk ∧ s.brk ≠ kNoBreak ∧ width = s.brkWidth)) := by
  rw [BreakState.wrap]
  split
  next hbrk => exact ⟨s.brk, s.brkWidth, hbrk.2, h.brk_le hbrk.1, rfl, .inr ⟨rfl, hbrk.1, rfl⟩⟩
  next => exact ⟨s.i, s.visible, hlt, le_refl _, rfl, .inl ⟨rfl, rfl⟩⟩

lemma broken_init : Broken runs (BreakState.init : BreakState F) :=
  ⟨⟨[], rfl, .nil, nofun⟩, le_refl _, Nat.zero_le _, nofun, fun hne => absurd rfl hne⟩

lemma Broken.finish (h : Broken runs s) (hi : s.i = runs.count)
    (hlen : runs.items.length < 2 ^ 32) :
    ∃ lines : List (TextLine F × LineEnd), lines.map Prod.fst = s.finish runs ∧
      Partition runs lines := by
  have hcount : runs.count = runs.items.length := Nat.mod_eq_of_lt hlen
  have hle := h.start_le
  obtain ⟨lines, hlines, hcovers, hlast⟩ := h.covers
  have hdrop : ∀ p : TextLine F × LineEnd, ∀ line ∈ (lines ++ [p]).dropLast, line.2 ≠ .last := by
    intro p line hline
    rw [List.dropLast_concat] at hline
    exact hlast line hline
  rw [BreakState.finish]
  split
  next hlt =>
    refine ⟨lines ++ [(⟨s.start, runs.count - s.start, s.visible⟩, .last)], ?_, ?_, hdrop _⟩
    · rw [List.map_append, hlines]
      rfl
    · refine hcovers.snoc rfl (fun i hstart hend => h.kept i hstart ?_) nofun (.inl ⟨nofun, ?_⟩)
      · dsimp only at hend
        omega
      · dsimp only
        omega
  next hnot =>
    have hstart : s.start = runs.count := by omega
    rw [hstart, hcount] at hcovers
    split
    next =>
      refine ⟨lines ++ [(⟨runs.count, 0, 0⟩, .last)], ?_, ?_, hdrop _⟩
      · rw [List.map_append, hlines]
        rfl
      · refine hcovers.snoc hcount (fun i hstart hend => ?_) nofun (.inl ⟨nofun, rfl⟩)
        exact absurd (lt_of_le_of_lt hstart hend) (lt_irrefl _)
    next =>
      exact ⟨lines, hlines, hcovers, fun line hline => hlast line (List.dropLast_subset _ hline)⟩

variable [Add F]

lemma BreakState.take_eq (runs : TextRuns F) (s : BreakState F) :
    ∃ brk brkWidth, s.take runs =
        ⟨s.start, s.i + 1, s.pen + s.add runs, s.seen runs, brk, brkWidth, s.lines⟩ ∧
      ((brk = s.brk ∧ brkWidth = s.brkWidth) ∨
        (brk = s.i + 1 ∧ (brkWidth = s.pen + s.add runs ∨ brkWidth = s.seen runs))) := by
  rw [BreakState.take]
  split
  next =>
    split
    next => exact ⟨_, _, rfl, .inr ⟨rfl, .inl rfl⟩⟩
    next =>
      split
      next => exact ⟨_, _, rfl, .inr ⟨rfl, .inr rfl⟩⟩
      next => exact ⟨_, _, rfl, .inl ⟨rfl, rfl⟩⟩
  next => exact ⟨_, _, rfl, .inl ⟨rfl, rfl⟩⟩

variable [LT F] [DecidableLT F]

lemma breakStep_cases (next : breakStep runs boxWidth s = some s') :
    s.i < runs.count ∧
      ((runs.cp s.i = newline ∧ s' = s.push (s.i - s.start) s.visible (s.i + 1)) ∨
        (s.start < s.i ∧ s' = s.wrap) ∨
        (runs.cp s.i ≠ newline ∧
          ¬ (0 < boxWidth ∧ s.start < s.i ∧ boxWidth < s.pen + s.add runs) ∧
          s' = s.take runs)) := by
  rw [breakStep] at next
  split at next
  next hi =>
    refine ⟨hi, ?_⟩
    split at next
    next hcp => exact .inl ⟨hcp, (Option.some.inj next).symm⟩
    next hcp =>
      split at next
      next hwrap => exact .inr (.inl ⟨hwrap.2.1, (Option.some.inj next).symm⟩)
      next hfit => exact .inr (.inr ⟨hcp, hfit, (Option.some.inj next).symm⟩)
  next => exact nomatch next

lemma Broken.step (h : Broken runs s) (next : breakStep runs boxWidth s = some s') :
    Broken runs s' ∧ measure runs s' < measure runs s := by
  have hle := h.start_le
  obtain ⟨hi, ⟨hcp, rfl⟩ | ⟨hlt, rfl⟩ | ⟨hcp, -, rfl⟩⟩ := breakStep_cases next
  · have hadd : s.start + (s.i - s.start) = s.i := by omega
    refine ⟨?_, measure_lt_of_start h.i_le (Nat.lt_succ_of_le hle) hi rfl rfl⟩
    apply h.push .newline (by omega) nofun hi nofun
    rw [hadd]
    exact .inr ⟨rfl, rfl, hcp⟩
  · obtain ⟨at', width, hlt', hle', heq, -⟩ := BreakState.wrap_eq h hlt
    rw [heq]
    refine ⟨?_, measure_lt_of_start h.i_le hlt' (hle'.trans h.i_le) rfl rfl⟩
    apply h.push .wrapped (by omega) nofun (hle'.trans h.i_le) (fun _ => by omega)
    exact .inl ⟨nofun, by omega⟩
  · obtain ⟨brk, brkWidth, heq, hbrk⟩ := BreakState.take_eq runs s
    rw [heq]
    refine ⟨⟨h.covers, Nat.le_succ_of_le hle, hi, ?_, ?_⟩, ?_⟩
    · intro i hstart hlt
      rcases Nat.lt_succ_iff_lt_or_eq.mp hlt with hlt | rfl
      · exact h.kept i hstart hlt
      · exact hcp
    · intro hne
      obtain ⟨rfl, -⟩ | ⟨rfl, -⟩ := hbrk
      · exact Nat.le_succ_of_le (h.brk_le hne)
      · exact le_refl _
    · dsimp only [measure]
      omega

lemma breakStep_none (h : Broken runs s) (hend : breakStep runs boxWidth s = none) :
    s.i = runs.count := by
  refine le_antisymm h.i_le (Nat.le_of_not_lt fun hi => ?_)
  rw [breakStep, if_pos hi] at hend
  split at hend
  next => exact nomatch hend
  next =>
    split at hend
    next => exact nomatch hend
    next => exact nomatch hend

lemma breakLines_ends (runs : TextRuns F) (boxWidth : F) (hlen : runs.items.length < 2 ^ 32) :
    ∃ fuel lines, ∃ ends : List (TextLine F × LineEnd),
      (∀ fuel' ≥ fuel, breakLines fuel' runs boxWidth = some lines) ∧
        ends.map Prod.fst = lines ∧ Partition runs ends := by
  have hstep : ∀ s s', Broken runs s → breakStep runs boxWidth s = some s' →
      Broken runs s' ∧ measure runs s' < measure runs s := fun _ _ => Broken.step
  obtain ⟨s', hs'⟩ := loop_ends (Broken runs) (measure runs) hstep broken_init
    (Nat.lt_succ_self (measure runs (BreakState.init : BreakState F)))
  obtain ⟨hbroken, hend⟩ := loop_invariant (Broken runs) (fun s s' h next => (hstep s s' h next).1)
    broken_init hs'
  obtain ⟨ends, hlines, hpart⟩ := hbroken.finish (breakStep_none hbroken hend) hlen
  refine ⟨(measure runs (BreakState.init : BreakState F)).succ, s'.finish runs, ends,
    fun fuel' hle => ?_, hlines, hpart⟩
  rw [breakLines, loop_mono hle hs', Option.map_some]

section Widths

variable {K : Type*} [AddCommGroup K] [LinearOrder K] {runs : TextRuns K} {s s' : BreakState K}
  {boxWidth : K}

structure Fitting (boxWidth : K) (s : BreakState K) : Prop where
  lines : ∀ line ∈ s.lines, line.width ≤ boxWidth ∨ line.count = 1
  fresh : s.i = s.start → s.pen = 0
  visible_le : s.visible ≤ max 0 s.pen
  pen_le : s.start + 1 < s.i → s.pen ≤ boxWidth
  brk_le : s.brk ≠ kNoBreak → s.start + 1 < s.brk → s.brkWidth ≤ boxWidth

lemma Fitting.push (h : Fitting boxWidth s) {count next : ℕ} {width : K}
    (fits : width ≤ boxWidth ∨ count = 1) : Fitting boxWidth (s.push count width next) := by
  refine ⟨?_, fun _ => rfl, le_max_left 0 0, ?_, fun hbrk => absurd rfl hbrk⟩
  · intro line hline
    rcases List.mem_append.mp hline with hline | hline
    · exact h.lines line hline
    · obtain rfl := List.mem_singleton.mp hline
      exact fits
  · intro hlt
    exact absurd hlt (by dsimp only [BreakState.push]; omega)

lemma Fitting.visible (h : Fitting boxWidth s) (hbox : 0 < boxWidth) (hle : s.start ≤ s.i) :
    s.visible ≤ boxWidth ∨ s.i - s.start = 1 := by
  have hvisible := h.visible_le
  rcases Nat.lt_trichotomy s.i (s.start + 1) with hlt | heq | hlt
  · rw [h.fresh (by omega), max_self] at hvisible
    exact .inl (hvisible.trans hbox.le)
  · exact .inr (by omega)
  · exact .inl (hvisible.trans (max_le hbox.le (h.pen_le hlt)))

lemma BreakState.add_nonneg (hadd : ∀ i, 0 ≤ runs.advance i + runs.kern i)
    (hlt : s.start < s.i) : 0 ≤ s.add runs := by
  rw [BreakState.add, if_pos hlt]
  exact hadd s.i

variable [IsOrderedAddMonoid K]

lemma Fitting.step (h : Fitting boxWidth s) (hbroken : Broken runs s) (hbox : 0 < boxWidth)
    (hadd : ∀ i, 0 ≤ runs.advance i + runs.kern i) (next : breakStep runs boxWidth s = some s') :
    Fitting boxWidth s' := by
  have hle := hbroken.start_le
  obtain ⟨-, ⟨-, rfl⟩ | ⟨hlt, rfl⟩ | ⟨-, hfit, rfl⟩⟩ := breakStep_cases next
  · exact h.push (h.visible hbox hle)
  · obtain ⟨at', width, hlt', -, heq, ⟨rfl, rfl⟩ | ⟨rfl, hbrk, rfl⟩⟩ :=
      BreakState.wrap_eq hbroken hlt
    · rw [heq]
      exact h.push (h.visible hbox hle)
    · rw [heq]
      apply h.push
      rcases Nat.lt_or_eq_of_le (Nat.succ_le_of_lt hlt') with hmany | hone
      · exact .inl (h.brk_le hbrk hmany)
      · exact .inr (by omega)
  · have hpen : s.start < s.i → s.pen + s.add runs ≤ boxWidth := fun hlt =>
      le_of_not_gt fun hgt => hfit ⟨hbox, hlt, hgt⟩
    have hseen : s.seen runs ≤ max 0 (s.pen + s.add runs) := by
      rw [BreakState.seen]
      split
      next =>
        refine h.visible_le.trans ?_
        rcases Nat.eq_or_lt_of_le hle with heq | hlt
        · rw [h.fresh heq.symm, max_self]
          exact le_max_left _ _
        · exact max_le_max_left 0 (le_add_of_nonneg_right (BreakState.add_nonneg hadd hlt))
      next => exact le_max_right _ _
    obtain ⟨brk, brkWidth, heq, hbrk⟩ := BreakState.take_eq runs s
    rw [heq]
    refine ⟨h.lines, fun hi => absurd hi (by dsimp only; omega), hseen, ?_, ?_⟩
    · exact fun hlt => hpen (by dsimp only at hlt; omega)
    · intro hne hlt
      dsimp only at hlt
      obtain ⟨rfl, rfl⟩ | ⟨rfl, rfl | rfl⟩ := hbrk
      · exact h.brk_le hne hlt
      · exact hpen (by omega)
      · exact hseen.trans (max_le hbox.le (hpen (by omega)))

lemma breakLines_fits (hbox : 0 < boxWidth) (hadd : ∀ i, 0 ≤ runs.advance i + runs.kern i)
    {fuel : ℕ} {lines : List (TextLine K)} (h : breakLines fuel runs boxWidth = some lines) :
    ∀ line ∈ lines, line.width ≤ boxWidth ∨ line.count = 1 := by
  obtain ⟨s', hs', rfl⟩ := Option.map_eq_some_iff.mp h
  have hinit : Fitting boxWidth BreakState.init :=
    ⟨nofun, fun _ => rfl, le_max_left 0 0, nofun, fun hbrk => absurd rfl hbrk⟩
  obtain ⟨⟨hbroken, hfitting⟩, hend⟩ := loop_invariant
    (fun s => Broken runs s ∧ Fitting boxWidth s)
    (fun s s' h next => ⟨(h.1.step next).1, h.2.step h.1 hbox hadd next⟩)
    ⟨broken_init, hinit⟩ hs'
  have hi := breakStep_none hbroken hend
  have hlast := hfitting.visible hbox hbroken.start_le
  rw [BreakState.finish]
  intro line hline
  split at hline
  next =>
    rcases List.mem_append.mp hline with hline | hline
    · exact hfitting.lines line hline
    · obtain rfl := List.mem_singleton.mp hline
      rwa [hi] at hlast
  next =>
    split at hline
    next =>
      rcases List.mem_append.mp hline with hline | hline
      · exact hfitting.lines line hline
      · obtain rfl := List.mem_singleton.mp hline
        exact .inl hbox.le
    next => exact hfitting.lines line hline

end Widths

/-- **Lines partition a text.** For every text of fewer than `2 ^ 32` items the loop ends, its lines
and the newlines between them are all items in order, and wrapping gives no empty line. With numbers
that add up exactly and items that do not go backwards, no line of more than one item is wider than a
box that has a width. -/
theorem breakLines_partition (F : Type*) [Zero F] [Add F] [LT F] [DecidableLT F] :
    (∀ (runs : TextRuns F) (boxWidth : F), runs.items.length < 2 ^ 32 →
      ∃ fuel lines, ∃ ends : List (TextLine F × LineEnd),
        (∀ fuel' ≥ fuel, breakLines fuel' runs boxWidth = some lines) ∧
          ends.map Prod.fst = lines ∧ Partition runs ends) ∧
      ∀ (runs : TextRuns ℚ) (boxWidth : ℚ), 0 < boxWidth →
        (∀ i, 0 ≤ runs.advance i + runs.kern i) →
          ∀ fuel lines, breakLines fuel runs boxWidth = some lines →
            ∀ line ∈ lines, line.width ≤ boxWidth ∨ line.count = 1 :=
  ⟨breakLines_ends, fun _ _ hbox hadd _ _ h => breakLines_fits hbox hadd h⟩

def plainRuns : TextRuns ℚ := ⟨[0x61, 0x20, 0x62], [1, 1, 1], [0, 0, 0], rfl, rfl⟩

lemma plainRuns_forward (i : ℕ) : 0 ≤ plainRuns.advance i + plainRuns.kern i := by
  match i with
  | 0 | 1 | 2 => decide +kernel
  | i + 3 => exact le_of_eq (add_zero 0).symm

/-- The plain text in a box of width two is cut into the lines "a " and "b". -/
theorem breakLines_partition_plain :
    (∃ fuel lines, ∃ ends : List (TextLine ℚ × LineEnd),
      (∀ fuel' ≥ fuel, breakLines fuel' plainRuns 2 = some lines) ∧
        ends.map Prod.fst = lines ∧ Partition plainRuns ends) ∧
      breakLines 5 plainRuns 2 = some [⟨0, 2, 1⟩, ⟨2, 1, 1⟩] ∧
        ∀ line ∈ ([⟨0, 2, 1⟩, ⟨2, 1, 1⟩] : List (TextLine ℚ)), line.width ≤ 2 ∨ line.count = 1 :=
  have hlines : breakLines 5 plainRuns 2 = some [⟨0, 2, 1⟩, ⟨2, 1, 1⟩] := by decide +kernel
  ⟨(breakLines_partition ℚ).1 plainRuns 2 (by decide), hlines,
    (breakLines_partition ℚ).2 plainRuns 2 (by decide +kernel) plainRuns_forward 5 _ hlines⟩

/-- A box without a width does not wrap, and the plain text is one line that is wider. -/
theorem breakLines_no_box :
    ¬ ∀ (runs : TextRuns ℚ) (boxWidth : ℚ), (∀ i, 0 ≤ runs.advance i + runs.kern i) →
      ∀ fuel lines, breakLines fuel runs boxWidth = some lines →
        ∀ line ∈ lines, line.width ≤ boxWidth ∨ line.count = 1 := by
  intro h
  have hlines : breakLines 4 plainRuns 0 = some [⟨0, 3, 3⟩] := by decide +kernel
  have hline := h plainRuns 0 plainRuns_forward 4 _ hlines ⟨0, 3, 3⟩ List.mem_cons_self
  exact absurd hline (by decide +kernel)

end PulseEngine.Text
