import Mathlib.Tactic

/-!
# Records in memory

The layout of a record: its fields one after the other, each at the next multiple of its alignment,
and a size that is a multiple of the largest one. Addresses are numbers below a modulus. A loop that
takes one field at a time computes it (`Frame.next`, `place_append`). The modulus zero is the arithmetic
without a bound; below the modulus both agree, and the fields lie apart and inside.
-/

namespace PulseEngine.Library

@[ext]
structure Extent where
  size : ℕ
  align : ℕ
deriving DecidableEq, Repr

structure Frame where
  cursor : ℕ
  align : ℕ
deriving DecidableEq, Repr

variable (m : ℕ)

def alignUp (value alignment : ℕ) : ℕ :=
  if alignment ≤ 1 then value else (value + alignment - 1) % m / alignment * alignment

def Frame.init : Frame := ⟨0, 1⟩

def Frame.offset (frame : Frame) (field : Extent) : ℕ := alignUp m frame.cursor field.align

def Frame.next (frame : Frame) (field : Extent) : Frame :=
  ⟨(frame.offset m field + field.size) % m, max frame.align field.align⟩

def Frame.extent (frame : Frame) : Extent := ⟨max (alignUp m frame.cursor frame.align) 1, frame.align⟩

def place (frame : Frame) (fields : List Extent) : Frame := fields.foldl (Frame.next m) frame

def offsets : Frame → List Extent → List ℕ
  | _, [] => []
  | frame, field :: fields => frame.offset m field :: offsets (frame.next m field) fields

def recordExtent (fields : List Extent) : Extent := (place m Frame.init fields).extent m

variable {m} {frame : Frame} {field : Extent} {fields : List Extent}

@[simp]
lemma place_nil : place m frame [] = frame := rfl

@[simp]
lemma place_append (more : List Extent) :
    place m frame (fields ++ more) = place m (place m frame fields) more :=
  List.foldl_append

@[simp]
lemma length_offsets : (offsets m frame fields).length = fields.length := by
  induction fields generalizing frame with
  | nil => rfl
  | cons field fields ih => exact congrArg (· + 1) ih

lemma place_congr {frame' : Frame} (h : frame.cursor = frame'.cursor) :
    (place m frame fields).cursor = (place m frame' fields).cursor := by
  induction fields generalizing frame frame' with
  | nil => exact h
  | cons field fields ih =>
    refine ih ?_
    rw [Frame.next, Frame.next, Frame.offset, Frame.offset, h]

lemma recordExtent_pos : 0 < (recordExtent m fields).size :=
  Nat.lt_of_lt_of_le Nat.zero_lt_one (le_max_right _ _)

def alignTop (value alignment : ℕ) : ℕ := if alignment ≤ 1 then value else value + alignment

def Unwrapped (m : ℕ) : Frame → List Extent → Prop
  | frame, [] => alignTop frame.cursor frame.align < m
  | frame, field :: fields =>
    alignTop frame.cursor field.align < m ∧ frame.offset m field + field.size < m ∧
      Unwrapped m (frame.next m field) fields

def Fits (m : ℕ) (frame : Frame) (fields : List Extent) : Prop :=
  alignTop (place 0 frame fields).cursor (place 0 frame fields).align < m

instance {m : ℕ} {frame : Frame} {fields : List Extent} : Decidable (Fits m frame fields) :=
  inferInstanceAs (Decidable (_ < _))

lemma le_alignTop (value alignment : ℕ) : value ≤ alignTop value alignment := by
  unfold alignTop
  split <;> omega

lemma alignTop_mono {value value' alignment alignment' : ℕ} (hv : value ≤ value')
    (ha : alignment ≤ alignment') : alignTop value alignment ≤ alignTop value' alignment' := by
  unfold alignTop
  split <;> split <;> omega

lemma le_alignUp (value alignment : ℕ) : value ≤ alignUp 0 value alignment := by
  unfold alignUp
  split
  · exact le_rfl
  · have hdiv := Nat.div_add_mod (value + alignment - 1) alignment
    have hmod := Nat.mod_lt (value + alignment - 1) (show 0 < alignment by omega)
    rw [Nat.mod_zero, mul_comm]
    omega

lemma alignUp_le (value alignment : ℕ) : alignUp 0 value alignment ≤ alignTop value alignment := by
  unfold alignUp alignTop
  split
  · exact le_rfl
  · rw [Nat.mod_zero]
    exact (Nat.div_mul_le_self _ _).trans (Nat.sub_le _ _)

lemma alignUp_eq {value alignment : ℕ} (h : alignTop value alignment < m) :
    alignUp m value alignment = alignUp 0 value alignment := by
  unfold alignUp
  split
  · rfl
  · rename_i ha
    rw [alignTop, if_neg ha] at h
    rw [Nat.mod_zero, Nat.mod_eq_of_lt (by omega)]

lemma next_zero : frame.next 0 field =
    ⟨frame.offset 0 field + field.size, max frame.align field.align⟩ := by
  rw [Frame.next, Nat.mod_zero]

lemma next_eq (top : alignTop frame.cursor field.align < m)
    (size : frame.offset m field + field.size < m) : frame.next m field = frame.next 0 field := by
  have same : frame.offset m field = frame.offset 0 field := alignUp_eq top
  rw [next_zero, Frame.next, Nat.mod_eq_of_lt size, same]

lemma le_place : frame.cursor ≤ (place 0 frame fields).cursor ∧
    frame.align ≤ (place 0 frame fields).align := by
  induction fields generalizing frame with
  | nil => exact ⟨le_rfl, le_rfl⟩
  | cons field fields ih =>
    have rest := @ih (frame.next 0 field)
    rw [next_zero] at rest
    have up : frame.cursor ≤ frame.offset 0 field := le_alignUp _ _
    rw [place, List.foldl_cons, next_zero]
    exact ⟨(up.trans (Nat.le_add_right _ _)).trans rest.1, (le_max_left _ _).trans rest.2⟩

/-- **Only the sum matters.** No number on the way reaches the modulus if and only if the last one does
not. -/
theorem unwrapped_iff : Unwrapped m frame fields ↔ Fits m frame fields := by
  induction fields generalizing frame with
  | nil => exact Iff.rfl
  | cons field fields ih =>
    constructor
    · rintro ⟨top, size, rest⟩
      rw [next_eq top size] at rest
      exact ih.mp rest
    · intro fits
      have fits : Fits m (frame.next 0 field) fields := fits
      have below : alignTop (frame.next 0 field).cursor (frame.next 0 field).align < m :=
        (alignTop_mono le_place.1 le_place.2).trans_lt fits
      rw [next_zero] at below
      have up : frame.cursor ≤ frame.offset 0 field := le_alignUp _ _
      have top : alignTop frame.cursor field.align < m :=
        (alignTop_mono (up.trans (Nat.le_add_right _ _)) (le_max_right _ _)).trans_lt below
      have same : frame.offset m field = frame.offset 0 field := alignUp_eq top
      have size : frame.offset m field + field.size < m := by
        rw [same]
        exact (le_alignTop _ _).trans_lt below
      refine ⟨top, size, ?_⟩
      rw [next_eq top size]
      exact ih.mpr fits

instance : Decidable (Unwrapped m frame fields) := decidable_of_iff _ unwrapped_iff.symm

lemma place_eq (h : Unwrapped m frame fields) : place m frame fields = place 0 frame fields := by
  induction fields generalizing frame with
  | nil => rfl
  | cons field fields ih =>
    obtain ⟨top, size, rest⟩ := h
    have hplace := ih rest
    rw [next_eq top size] at hplace
    unfold place at hplace ⊢
    rw [List.foldl_cons, List.foldl_cons, next_eq top size]
    exact hplace

lemma offsets_eq (h : Unwrapped m frame fields) : offsets m frame fields = offsets 0 frame fields := by
  induction fields generalizing frame with
  | nil => rfl
  | cons field fields ih =>
    obtain ⟨top, size, rest⟩ := h
    have same : frame.offset m field = frame.offset 0 field := alignUp_eq top
    unfold offsets
    rw [same, ih rest, next_eq top size]

lemma recordExtent_eq (h : Unwrapped m Frame.init fields) :
    recordExtent m fields = recordExtent 0 fields := by
  have last : alignTop (place 0 Frame.init fields).cursor (place 0 Frame.init fields).align < m :=
    unwrapped_iff.mp h
  rw [recordExtent, recordExtent, place_eq h, Frame.extent, Frame.extent, alignUp_eq last]

lemma alignUp_mod {value alignment : ℕ} (dvd : alignment ∣ m) :
    alignUp m (value % m) alignment % m = alignUp 0 value alignment % m := by
  unfold alignUp
  split
  · exact Nat.mod_mod _ _
  · obtain ⟨k, rfl⟩ := dvd
    have shifted : (value % (alignment * k) + alignment - 1) % (alignment * k) =
        (value + alignment - 1) % (alignment * k) := by
      rw [Nat.add_sub_assoc (by omega), Nat.add_sub_assoc (by omega), Nat.mod_add_mod]
    rw [shifted, Nat.mod_zero, Nat.mod_mul_right_div_self, mul_comm alignment k, Nat.mul_mod_mul_right,
      Nat.mul_mod_mul_right, Nat.mod_mod]

lemma place_mod (dvd : ∀ field ∈ fields, field.align ∣ m) {cursor : ℕ} (h : frame.cursor = cursor % m) :
    (place m frame fields).cursor = (place 0 ⟨cursor, frame.align⟩ fields).cursor % m := by
  induction fields generalizing frame cursor with
  | nil => exact h
  | cons field fields ih =>
    have aligned : alignUp m (cursor % m) field.align % m = alignUp 0 cursor field.align % m :=
      alignUp_mod (dvd field List.mem_cons_self)
    have next : (frame.next m field).cursor = (alignUp 0 cursor field.align + field.size) % m := by
      change (alignUp m frame.cursor field.align + field.size) % m = _
      rw [h, ← Nat.mod_add_mod, aligned, Nat.mod_add_mod]
    have rest := ih (fun f hf => dvd f (List.mem_cons_of_mem _ hf)) next
    rw [place, List.foldl_cons, place, List.foldl_cons, next_zero]
    exact rest

lemma alignUp_add {base value alignment : ℕ} (dvd : alignment ∣ base) :
    alignUp 0 (base + value) alignment = base + alignUp 0 value alignment := by
  unfold alignUp
  split
  · rfl
  · obtain ⟨k, rfl⟩ := dvd
    rw [Nat.mod_zero, Nat.mod_zero, add_assoc, Nat.add_sub_assoc (by omega), Nat.mul_add_div (by omega), add_mul,
      mul_comm k]

lemma place_add {base : ℕ} (dvd : ∀ field ∈ fields, field.align ∣ base) :
    (place 0 ⟨base + frame.cursor, frame.align⟩ fields).cursor = base + (place 0 frame fields).cursor := by
  induction fields generalizing frame with
  | nil => rfl
  | cons field fields ih =>
    have rest : (place 0 ⟨base + (frame.next 0 field).cursor, (frame.next 0 field).align⟩ fields).cursor =
        base + (place 0 (frame.next 0 field) fields).cursor :=
      ih fun f hf => dvd f (List.mem_cons_of_mem _ hf)
    rw [place, List.foldl_cons, place, List.foldl_cons, ← place, ← place, ← rest, next_zero, next_zero]
    have moved : Frame.offset 0 ⟨base + frame.cursor, frame.align⟩ field = base + frame.offset 0 field :=
      alignUp_add (dvd field List.mem_cons_self)
    rw [moved, add_assoc]

structure Extent.Neat (extent : Extent) : Prop where
  power : extent.align.isPowerOfTwo
  takes : extent.align ≤ 1 ∨ 0 < extent.size

lemma dvd_of_power {a b : ℕ} (ha : a.isPowerOfTwo) (hb : b.isPowerOfTwo) (h : a ≤ b) : a ∣ b := by
  obtain ⟨i, rfl⟩ := ha
  obtain ⟨j, rfl⟩ := hb
  exact pow_dvd_pow 2 ((Nat.pow_le_pow_iff_right Nat.one_lt_two).mp h)

lemma power_max {a b : ℕ} (ha : a.isPowerOfTwo) (hb : b.isPowerOfTwo) : (max a b).isPowerOfTwo := by
  rcases max_choice a b with h | h
  · rw [h]
    exact ha
  · rw [h]
    exact hb

lemma dvd_alignUp_of_pos {value alignment : ℕ} (pos : 0 < alignment) : alignment ∣ alignUp m value alignment := by
  unfold alignUp
  split
  · have one : alignment = 1 := by omega
    exact one ▸ one_dvd _
  · exact Dvd.intro_left _ rfl

lemma dvd_alignUp {value alignment : ℕ} (h : alignment.isPowerOfTwo) :
    alignment ∣ alignUp 0 value alignment :=
  dvd_alignUp_of_pos (Nat.pos_of_isPowerOfTwo h)

lemma place_power (power : frame.align.isPowerOfTwo) (neat : ∀ field ∈ fields, field.Neat) :
    (place m frame fields).align.isPowerOfTwo := by
  induction fields generalizing frame with
  | nil => exact power
  | cons field fields ih =>
    have hf := (neat field List.mem_cons_self).power
    exact @ih (frame.next m field) (power_max power hf) fun f h => neat f (List.mem_cons_of_mem _ h)

lemma recordExtent_neat (neat : ∀ field ∈ fields, field.Neat) : (recordExtent m fields).Neat :=
  ⟨place_power ⟨0, rfl⟩ neat, .inr recordExtent_pos⟩

lemma offsets_spec {k offset : ℕ} (ho : (offsets 0 frame fields)[k]? = some offset)
    (hf : fields[k]? = some field) (neat : field.Neat) :
    frame.cursor ≤ offset ∧ field.align ∣ offset ∧
      offset + field.size ≤ (place 0 frame fields).cursor := by
  induction fields generalizing frame k with
  | nil => cases hf
  | cons head fields ih =>
    have up : frame.cursor ≤ frame.offset 0 head := le_alignUp _ _
    have rest : (frame.next 0 head).cursor ≤ (place 0 frame (head :: fields)).cursor := le_place.1
    rw [next_zero] at rest
    cases k with
    | zero =>
      cases ho
      cases hf
      exact ⟨up, dvd_alignUp neat.power, rest⟩
    | succ k =>
      obtain ⟨behind, aligned, inside⟩ := @ih (frame.next 0 head) k ho hf
      rw [next_zero] at behind
      exact ⟨(up.trans (Nat.le_add_right _ _)).trans behind, aligned, inside⟩

lemma offsets_apart {k l offset offset' : ℕ} {field' : Extent} (hlt : k < l)
    (ho : (offsets 0 frame fields)[k]? = some offset) (hf : fields[k]? = some field)
    (ho' : (offsets 0 frame fields)[l]? = some offset') (hf' : fields[l]? = some field')
    (neat : field'.Neat) : offset + field.size ≤ offset' := by
  induction fields generalizing frame k l with
  | nil => cases hf
  | cons head fields ih =>
    cases l with
    | zero => exact absurd hlt (Nat.not_lt_zero k)
    | succ l =>
      cases k with
      | zero =>
        cases ho
        cases hf
        have behind := (@offsets_spec (frame.next 0 field) _ _ _ _ ho' hf' neat).1
        rw [next_zero] at behind
        exact behind
      | succ k => exact ih (Nat.lt_of_succ_lt_succ hlt) ho hf ho' hf'

lemma align_dvd_place (power : frame.align.isPowerOfTwo) (neat : ∀ field ∈ fields, field.Neat)
    (hf : field ∈ fields) : field.align ∣ (place 0 frame fields).align := by
  refine dvd_of_power (neat field hf).power (place_power power neat) ?_
  induction fields generalizing frame with
  | nil => cases hf
  | cons head fields ih =>
    have rest := @le_place (frame.next 0 head) fields
    rcases List.mem_cons.mp hf with rfl | hf
    · exact (le_max_right _ _).trans rest.2
    · exact @ih (frame.next 0 head) (power_max power (neat head List.mem_cons_self).power)
        (fun f h => neat f (List.mem_cons_of_mem _ h)) hf

lemma place_le_size : (place 0 Frame.init fields).cursor ≤ (recordExtent 0 fields).size :=
  (le_alignUp _ _).trans (le_max_left _ _)

lemma align_le_one_of_empty (neat : ∀ field ∈ fields, field.Neat) (align : frame.align ≤ 1)
    (empty : (place 0 frame fields).cursor = 0) : (place 0 frame fields).align ≤ 1 := by
  induction fields generalizing frame with
  | nil => exact align
  | cons field fields ih =>
    have rest := @le_place (frame.next 0 field) fields
    have none : field.size = 0 := by
      have h : (frame.next 0 field).cursor ≤ 0 := rest.1.trans_eq empty
      rw [next_zero] at h
      have h : frame.offset 0 field + field.size ≤ 0 := h
      omega
    have small : field.align ≤ 1 := by
      rcases (neat field List.mem_cons_self).takes with h | h
      · exact h
      · omega
    exact @ih (frame.next 0 field) (fun f h => neat f (List.mem_cons_of_mem _ h))
      (max_le align small) empty

lemma align_dvd_size (neat : ∀ field ∈ fields, field.Neat) :
    (recordExtent 0 fields).align ∣ (recordExtent 0 fields).size := by
  have power := (@recordExtent_neat 0 fields neat).power
  have dvd : (recordExtent 0 fields).align ∣
      alignUp 0 (place 0 Frame.init fields).cursor (place 0 Frame.init fields).align :=
    dvd_alignUp power
  by_cases one : (recordExtent 0 fields).align ≤ 1
  · have pos := Nat.pos_of_isPowerOfTwo power
    have one : (recordExtent 0 fields).align = 1 := by omega
    exact one ▸ one_dvd _
  · -- Some field has this alignment, so the cursor is behind the beginning.
    have takes : 0 < (place 0 Frame.init fields).cursor := by
      by_contra empty
      exact one (align_le_one_of_empty neat le_rfl (by omega))
    have up := le_alignUp (place 0 Frame.init fields).cursor (place 0 Frame.init fields).align
    have size : (recordExtent 0 fields).size =
        alignUp 0 (place 0 Frame.init fields).cursor (place 0 Frame.init fields).align :=
      max_eq_left (by omega)
    exact size ▸ dvd

end PulseEngine.Library
