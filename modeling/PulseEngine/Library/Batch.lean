import Mathlib.Data.List.Basic
import Mathlib.Tactic

/-!
# Batching a stream

Two arrays of a fixed capacity take the elements of a stream in, each element one of them. Once one
of the arrays is full both are handed over. The batches that are handed over, put one behind the
other, are the stream.
-/

namespace PulseEngine.Library

variable {α : Type*}

structure Batch (α : Type*) where
  lefts : List α
  rights : List α
  flushed : List (List α × List α)
  written : List Nat
  deriving DecidableEq

namespace Batch

def empty : Batch α := ⟨[], [], [], []⟩

def write (left : α → Bool) (b : Batch α) (a : α) : Batch α :=
  if left a then { b with lefts := b.lefts ++ [a], written := b.written ++ [b.lefts.length] }
  else { b with rights := b.rights ++ [a], written := b.written ++ [b.rights.length] }

def flush (b : Batch α) : Batch α :=
  { b with lefts := [], rights := [], flushed := b.flushed ++ [(b.lefts, b.rights)] }

def add (capacity : Nat) (left : α → Bool) (b : Batch α) (a : α) : Batch α :=
  let b := b.write left a
  if capacity ≤ b.lefts.length ∨ capacity ≤ b.rights.length then b.flush else b

def close (b : Batch α) : Batch α :=
  if 0 < b.lefts.length ∨ 0 < b.rights.length then b.flush else b

def split (left : α → Bool) (part : List α) : List α × List α :=
  (part.filter left, part.filter fun a => !left a)

/-- The stream `as` was taken in: `parts` of it were handed over, `rest` is in the arrays, and no
write was outside them. -/
structure Holds (capacity : Nat) (left : α → Bool) (b : Batch α) (as : List α)
    (parts : List (List α)) (rest : List α) : Prop where
  stream : parts.flatten ++ rest = as
  flushed : b.flushed = parts.map (split left)
  arrays : (b.lefts, b.rights) = split left rest
  lefts : b.lefts.length < capacity
  rights : b.rights.length < capacity
  written : ∀ i ∈ b.written, i < capacity
  nonempty : ∀ part ∈ parts, part ≠ []

variable {capacity : Nat} {left : α → Bool} {b : Batch α} {as rest : List α} {parts : List (List α)}

lemma holds_empty (pos : 0 < capacity) : (empty : Batch α).Holds capacity left [] [] [] :=
  ⟨rfl, rfl, rfl, pos, pos, nofun, nofun⟩

lemma split_snoc (left : α → Bool) (part : List α) (a : α) : split left (part ++ [a]) =
    if left a then ((split left part).1 ++ [a], (split left part).2)
    else ((split left part).1, (split left part).2 ++ [a]) := by
  unfold split
  cases h : left a with
  | true => simp [List.filter_append, h]
  | false => simp [List.filter_append, h]

lemma Holds.write (h : b.Holds capacity left as parts rest) (a : α) :
    ((b.write left a).lefts, (b.write left a).rights) = split left (rest ++ [a]) ∧
      (b.write left a).flushed = b.flushed ∧
      ∀ i ∈ (b.write left a).written, i < capacity := by
  have arrays := h.arrays
  have hl : b.lefts = (split left rest).1 := congrArg Prod.fst arrays
  have hr : b.rights = (split left rest).2 := congrArg Prod.snd arrays
  rw [split_snoc]
  unfold Batch.write
  split
  · refine ⟨by rw [hl, hr], rfl, fun i hi => ?_⟩
    rcases List.mem_append.mp hi with hi | hi
    · exact h.written i hi
    · exact List.mem_singleton.mp hi ▸ h.lefts
  · refine ⟨by rw [hl, hr], rfl, fun i hi => ?_⟩
    rcases List.mem_append.mp hi with hi | hi
    · exact h.written i hi
    · exact List.mem_singleton.mp hi ▸ h.rights

lemma Holds.add (pos : 0 < capacity) (h : b.Holds capacity left as parts rest) (a : α) :
    ∃ parts' rest', (b.add capacity left a).Holds capacity left (as ++ [a]) parts' rest' := by
  obtain ⟨arrays, flushed, written⟩ := h.write a
  have stream : parts.flatten ++ (rest ++ [a]) = as ++ [a] := by
    rw [← List.append_assoc, h.stream]
  unfold Batch.add
  dsimp only
  split
  · refine ⟨parts ++ [rest ++ [a]], [], ?_, ?_, rfl, pos, pos, written, ?_⟩
    · rw [List.flatten_append, List.flatten_singleton, List.append_nil]
      exact stream
    · show (b.write left a).flushed ++ [((b.write left a).lefts, (b.write left a).rights)] = _
      rw [flushed, arrays, h.flushed, List.map_append]
      rfl
    · intro part hp
      rcases List.mem_append.mp hp with hp | hp
      · exact h.nonempty part hp
      · rw [List.mem_singleton.mp hp]
        exact List.append_ne_nil_of_right_ne_nil _ (List.cons_ne_nil _ _)
  · rename_i room
    obtain ⟨hl, hr⟩ := not_or.mp room
    exact ⟨parts, rest ++ [a], stream, flushed.trans h.flushed, arrays, not_le.mp hl, not_le.mp hr,
      written, h.nonempty⟩

lemma Holds.adds (pos : 0 < capacity) : ∀ {more as : List α} {b : Batch α} {parts : List (List α)}
    {rest : List α}, b.Holds capacity left as parts rest →
      ∃ parts' rest',
        (more.foldl (Batch.add capacity left) b).Holds capacity left (as ++ more) parts' rest' := by
  intro more
  induction more with
  | nil =>
    intro as b parts rest h
    exact ⟨parts, rest, (List.append_nil as).symm ▸ h⟩
  | cons a more ih =>
    intro as b parts rest h
    obtain ⟨parts', rest', h'⟩ := h.add pos a
    obtain ⟨parts'', rest'', h''⟩ := ih h'
    refine ⟨parts'', rest'', ?_⟩
    rw [List.append_assoc, List.singleton_append] at h''
    exact h''

lemma Holds.close (h : b.Holds capacity left as parts rest) :
    ∃ parts' : List (List α), parts'.flatten = as ∧ b.close.flushed = parts'.map (split left) ∧
      (∀ part ∈ parts', part ≠ []) ∧ b.close.lefts = [] ∧ b.close.rights = [] ∧
      ∀ i ∈ b.close.written, i < capacity := by
  have hl : b.lefts = rest.filter left := congrArg Prod.fst h.arrays
  have hr : b.rights = rest.filter fun a => !left a := congrArg Prod.snd h.arrays
  unfold Batch.close
  split
  · rename_i some
    have pending : rest ≠ [] := by
      rintro rfl
      rw [hl, hr] at some
      exact some.elim (Nat.lt_irrefl 0) (Nat.lt_irrefl 0)
    refine ⟨parts ++ [rest], ?_, ?_, ?_, rfl, rfl, h.written⟩
    · rw [List.flatten_append, List.flatten_singleton, h.stream]
    · show b.flushed ++ [(b.lefts, b.rights)] = _
      rw [h.flushed, h.arrays, List.map_append]
      rfl
    · intro part hp
      rcases List.mem_append.mp hp with hp | hp
      · exact h.nonempty part hp
      · exact List.mem_singleton.mp hp ▸ pending
  · rename_i none
    obtain ⟨nl, nr⟩ := not_or.mp none
    have el : b.lefts = [] := List.eq_nil_of_length_eq_zero (Nat.eq_zero_of_not_pos nl)
    have er : b.rights = [] := List.eq_nil_of_length_eq_zero (Nat.eq_zero_of_not_pos nr)
    have done : rest = [] := by
      refine List.eq_nil_iff_forall_not_mem.mpr fun a ha => ?_
      cases hla : left a with
      | true => exact List.not_mem_nil (el ▸ hl ▸ List.mem_filter.mpr ⟨ha, hla⟩)
      | false => exact List.not_mem_nil (er ▸ hr ▸ List.mem_filter.mpr ⟨ha, by rw [hla]; rfl⟩)
    refine ⟨parts, ?_, h.flushed, h.nonempty, el, er, h.written⟩
    rw [← h.stream, done, List.append_nil]

end Batch

end PulseEngine.Library
