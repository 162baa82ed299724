import PulseEngine.Datalist.Node
import Mathlib.Tactic

/-!
# The string vault of a table

`StringVault` of `pulse_datatable_schema.h`. A view into the vault is an offset into the block of
bytes it was made in; growing the bytes moves them to a new block and leaves older views behind.
-/

namespace PulseEngine.Datatable

open Datalist

/-- `StringVault`; `block` counts how often the bytes moved. -/
structure StringVault where
  bytes : List Char
  used : Nat
  block : Nat
  deriving DecidableEq

/-- A `std::string_view`: the text it was made for, and the block and offset it points to if it
points into the vault. -/
structure StringView where
  text : Text
  place : Option (Nat × Nat)
  deriving DecidableEq

namespace StringVault

def empty : StringVault := ⟨[], 0, 0⟩

def reserve (vault : StringVault) (extra : Nat) : StringVault :=
  { vault with
    bytes := List.replicate (vault.used + extra + 64) '\x00'
    block := vault.block + 1 }

def write (bytes : List Char) (offset : Nat) (text : Text) : List Char :=
  bytes.take offset ++ (text ++ ['\x00']) ++ bytes.drop (offset + text.length + 1)

def append (vault : StringVault) (text : Text) : StringView × StringVault :=
  let offset := vault.used
  let vault :=
    if offset + text.length + 1 ≤ vault.bytes.length then
      { vault with bytes := write vault.bytes offset text }
    else
      { vault with bytes := vault.bytes ++ (text ++ ['\x00']), block := vault.block + 1 }
  (⟨text, some (vault.block, offset)⟩, { vault with used := offset + text.length + 1 })

end StringVault

def StringView.Denotes (view : StringView) (vault : StringVault) : Prop :=
  ∀ block offset, view.place = some (block, offset) →
    block = vault.block ∧ (vault.bytes.drop offset).take view.text.length = view.text

structure Written where
  text : Text
  stored : Bool
  deriving DecidableEq

def Written.bytes (w : Written) : Nat := if w.stored then w.text.length + 1 else 0

def StringVault.put (vault : StringVault) (w : Written) : StringView × StringVault :=
  if w.stored then vault.append w.text else (⟨w.text, none⟩, vault)

namespace StringVault

variable {vault : StringVault} {text : Text} {view : StringView} {w : Written}

@[simp] lemma append_used : (vault.append text).2.used = vault.used + text.length + 1 := rfl

lemma put_used (vault : StringVault) (w : Written) :
    (vault.put w).2.used = vault.used + w.bytes := by
  unfold put Written.bytes
  cases w.stored with
  | true => simp [Nat.add_assoc]
  | false => rfl

lemma length_write {bytes : List Char} {offset : Nat}
    (h : offset + text.length + 1 ≤ bytes.length) :
    (write bytes offset text).length = bytes.length := by
  simp only [write, List.length_append, List.length_take, List.length_drop, List.length_cons,
    List.length_nil]
  omega

lemma read_write {bytes : List Char} {offset : Nat} (h : offset ≤ bytes.length) :
    ((write bytes offset text).drop offset).take text.length = text := by
  have hlen : (bytes.take offset).length = offset := by simpa using h
  unfold write
  rw [List.append_assoc, List.drop_append_of_le_length hlen.ge, List.drop_of_length_le hlen.le,
    List.nil_append, List.append_assoc, List.take_left]

lemma read_write_before {bytes : List Char} {offset other n : Nat} (h : other + n ≤ offset)
    (hb : offset ≤ bytes.length) :
    ((write bytes offset text).drop other).take n = (bytes.drop other).take n := by
  have hlen : (bytes.take offset).length = offset := by simpa using hb
  unfold write
  rw [List.append_assoc, List.drop_append_of_le_length (by omega),
    List.take_append_of_le_length (by rw [List.length_drop, hlen]; omega), List.drop_take,
    List.take_take, Nat.min_eq_left (by omega)]

lemma put_of_room (room : vault.used + w.bytes ≤ vault.bytes.length) :
    (vault.put w).2.block = vault.block ∧ (vault.put w).2.bytes.length = vault.bytes.length := by
  unfold put
  cases hs : w.stored with
  | false => exact ⟨rfl, rfl⟩
  | true =>
    have room : vault.used + w.text.length + 1 ≤ vault.bytes.length := by
      simpa [Written.bytes, hs, Nat.add_assoc] using room
    simp [append, room, length_write]

def Holds (vault : StringVault) (view : StringView) : Prop :=
  view.Denotes vault ∧ ∀ block offset, view.place = some (block, offset) →
    offset + view.text.length + 1 ≤ vault.used

lemma holds_put (room : vault.used + w.bytes ≤ vault.bytes.length) :
    (vault.put w).2.Holds (vault.put w).1 := by
  unfold put
  cases hs : w.stored with
  | false => exact ⟨by rintro b o ⟨⟩, by rintro b o ⟨⟩⟩
  | true =>
    have room : vault.used + w.text.length + 1 ≤ vault.bytes.length := by
      simpa [Written.bytes, hs, Nat.add_assoc] using room
    simp only [append, room, if_true]
    refine ⟨?_, ?_⟩
    · rintro b o ⟨⟩
      exact ⟨rfl, read_write (by omega)⟩
    · rintro b o ⟨⟩
      exact Nat.le_refl _

lemma Holds.put (holds : vault.Holds view) (w : Written)
    (room : vault.used + w.bytes ≤ vault.bytes.length) : (vault.put w).2.Holds view := by
  unfold StringVault.put
  cases hs : w.stored with
  | false => exact holds
  | true =>
    have room : vault.used + w.text.length + 1 ≤ vault.bytes.length := by
      simpa [Written.bytes, hs, Nat.add_assoc] using room
    simp only [append, room, if_true]
    refine ⟨?_, ?_⟩
    · intro b o hp
      obtain ⟨hb, ht⟩ := holds.1 b o hp
      have hend := holds.2 b o hp
      refine ⟨hb, ?_⟩
      rw [read_write_before (by omega) (by omega)]
      exact ht
    · intro b o hp
      have hend := holds.2 b o hp
      show o + view.text.length + 1 ≤ vault.used + w.text.length + 1
      omega

end StringVault

end PulseEngine.Datatable
