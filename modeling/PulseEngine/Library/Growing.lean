import Mathlib.Data.List.Basic
import Mathlib.Tactic

/-!
# Vectors that grow

A vector has room for its capacity. When it is full, an element that is appended moves the others, and a
reference that was taken before refers to nothing any more. A vector counts its moves, and a reference keeps
the count at which it was taken.
-/

namespace PulseEngine.Library

structure Growth where
  next : ℕ → ℕ
  lt : ∀ n, n < next n

structure Growing (α : Type) where
  items : List α
  capacity : ℕ
  moves : ℕ

structure Ref where
  index : ℕ
  moves : ℕ
  deriving DecidableEq

variable {α : Type} {growth : Growth} {v v' v'' : Growing α} {r : Ref} {n k : ℕ}

namespace Growing

def reserve (capacity : ℕ) : Growing α := ⟨[], capacity, 0⟩

def push (growth : Growth) (v : Growing α) (a : α) : Growing α :=
  if v.items.length < v.capacity then { v with items := v.items ++ [a] }
  else ⟨v.items ++ [a], growth.next v.items.length, v.moves + 1⟩

def ref (v : Growing α) (index : ℕ) : Ref := ⟨index, v.moves⟩

def read (v : Growing α) (r : Ref) : Option α := if r.moves = v.moves then v.items[r.index]? else none

def write (v : Growing α) (r : Ref) (f : α → α) : Option (Growing α) :=
  if r.moves = v.moves ∧ r.index < v.items.length then some { v with items := v.items.modify r.index f }
  else none

def HasRoom (v : Growing α) (n : ℕ) : Prop := v.items.length + n ≤ v.capacity

def Fits (v : Growing α) : Prop := v.items.length ≤ v.capacity

end Growing

structure Ref.Live (v : Growing α) (r : Ref) : Prop where
  moves : r.moves = v.moves
  index : r.index < v.items.length

lemma Growing.read_eq_some_iff {a : α} : v.read r = some a ↔ r.Live v ∧ v.items[r.index]? = some a := by
  unfold Growing.read
  split
  · rename_i moves
    exact ⟨fun h => ⟨⟨moves, (List.getElem?_eq_some_iff.mp h).1⟩, h⟩, fun h => h.2⟩
  · rename_i moved
    exact iff_of_false nofun fun h => moved h.1.moves

lemma Growing.read_eq_none_iff : v.read r = none ↔ ¬ r.Live v := by
  unfold Growing.read
  split
  · rename_i moves
    rw [List.getElem?_eq_none_iff, ← Nat.not_lt]
    exact not_congr ⟨fun lt => ⟨moves, lt⟩, fun live => live.index⟩
  · rename_i moved
    exact iff_of_true rfl fun live => moved live.moves

/-- After `n` elements were appended. -/
structure Pushed (n : ℕ) (v v' : Growing α) : Prop where
  length : v'.items.length = v.items.length + n
  le : v.moves ≤ v'.moves
  stays : v.HasRoom n → v'.moves = v.moves
  capacity : v'.moves = v.moves → v'.capacity = v.capacity
  fits : v.Fits → v'.Fits

namespace Pushed

lemma of_eq (length : v'.items.length = v.items.length) (capacity : v'.capacity = v.capacity)
    (moves : v'.moves = v.moves) : Pushed 0 v v' :=
  ⟨length, moves.ge, fun _ => moves, fun _ => capacity, fun h => by rwa [Growing.Fits, length, capacity]⟩

lemma refl : Pushed 0 v v := .of_eq rfl rfl rfl

lemma push (a : α) : Pushed 1 v (v.push growth a) := by
  unfold Growing.push
  split
  · rename_i room
    refine ⟨List.length_append, le_rfl, fun _ => rfl, fun _ => rfl, fun _ => ?_⟩
    rw [Growing.Fits, List.length_append]
    exact room
  · rename_i full
    refine ⟨List.length_append, Nat.le_succ _, fun room => absurd room full, fun same => ?_, fun _ => ?_⟩
    · exact absurd same (Nat.succ_ne_self _)
    · rw [Growing.Fits, List.length_append]
      exact growth.lt _

lemma trans (h : Pushed n v v') (h' : Pushed k v' v'') : Pushed (n + k) v v'' := by
  refine ⟨by rw [h'.length, h.length, Nat.add_assoc], h.le.trans h'.le, fun room => ?_, fun same => ?_,
    fun fits => h'.fits (h.fits fits)⟩
  · have first : v'.moves = v.moves := h.stays (by unfold Growing.HasRoom at *; omega)
    have room' : v'.HasRoom k := by
      rw [Growing.HasRoom, h.length, h.capacity first, Nat.add_assoc]
      exact room
    rw [h'.stays room', first]
  · have first : v'.moves = v.moves := le_antisymm (h'.le.trans same.le) h.le
    rw [h'.capacity (same.trans first.symm), h.capacity first]

/-- **Nothing moves** if and only if there is room. -/
theorem moves_eq_iff (h : Pushed n v v') (fits : v.Fits) : v'.moves = v.moves ↔ v.HasRoom n := by
  refine ⟨fun same => ?_, h.stays⟩
  have := h.fits fits
  rwa [Growing.Fits, h.length, h.capacity same] at this

lemma live_iff (h : Pushed n v v') (fits : v.Fits) (live : r.Live v) : r.Live v' ↔ v.HasRoom n := by
  rw [← h.moves_eq_iff fits]
  refine ⟨fun live' => live'.moves.symm.trans live.moves, fun same => ⟨live.moves.trans same.symm, ?_⟩⟩
  rw [h.length]
  exact Nat.lt_add_right n live.index

end Pushed

@[simp]
lemma items_push (a : α) : (v.push growth a).items = v.items ++ [a] := by
  unfold Growing.push
  split <;> rfl

lemma hasRoom_push (a b : α) : (v.push growth a).HasRoom n ↔ (v.push growth b).HasRoom n := by
  unfold Growing.push
  split <;> simp only [Growing.HasRoom, List.length_append, List.length_singleton]

lemma read_push (a : α) : (v.push growth a).read ((v.push growth a).ref v.items.length) = some a := by
  unfold Growing.read Growing.ref
  rw [if_pos rfl, items_push]
  exact List.getElem?_concat_length

end PulseEngine.Library
