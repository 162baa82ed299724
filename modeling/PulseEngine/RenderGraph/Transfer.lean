import PulseEngine.Library.Splice
import PulseEngine.RenderGraph.Upload

/-!
# The bytes of a buffer upload

`execute_upload_buffer_pass` in `rendergraph_executor.cpp`: the data is written to the mapped staging buffer
at its offset, the executable may write to it too, and then the whole size of the destination is copied out of
it. The staging buffer comes from a pool, with what was in it before.
-/

namespace PulseEngine.RenderGraph

open Library

/-- An upload pass for a buffer with its data, and with what its executable makes of the staging buffer. -/
structure BufferTransfer extends BufferUpload where
  data : List UInt8
  executable : Option (List UInt8 → List UInt8)
  data_length : data.length = size
  executable_length : ∀ f ∈ executable, ∀ staging, (f staging).length = staging.length

namespace BufferTransfer

variable (t : BufferTransfer)

def encode (staging : List UInt8) : List UInt8 :=
  match t.executable with
  | some f => f staging
  | none => staging

def write (staging : List UInt8) : Option (List UInt8) :=
  if 0 < t.size then copyRange t.data 0 staging t.offset t.size else some staging

/-- `execute_upload_buffer_pass`, from the staging buffer and the destination to the destination; without a
result when a copy leaves a buffer. -/
def execute (staging dest : List UInt8) : Option (List UInt8) :=
  (t.write staging).bind fun staging => copyRange (t.encode staging) 0 dest 0 dest.length

def Framed (before after : List UInt8) : Prop :=
  ∀ i < before.length, after[i]? =
    if t.offset ≤ i ∧ i < t.offset + t.size then t.data[i - t.offset]? else before[i]?

/-- Whatever was in the staging buffer and in the destination, the upload is executed, and it changes the
range and nothing else. -/
def Correct : Prop :=
  ∀ staging dest : List UInt8, staging.length = t.stagingSize → dest.length = t.infoSize →
    ∃ after, t.execute staging dest = some after ∧ t.Framed dest after

def KeepsData : Prop :=
  ∀ staging : List UInt8, staging.length = t.stagingSize →
    ∀ i < t.size, (t.encode (splice staging t.offset t.data))[t.offset + i]? = t.data[i]?

variable {t : BufferTransfer} {staging dest after : List UInt8}

lemma length_encode (staging : List UInt8) : (t.encode staging).length = staging.length := by
  unfold encode
  split
  · rename_i f hf
    exact t.executable_length f hf staging
  · rfl

lemma write_eq (h : 0 < t.size → t.offset + t.size ≤ staging.length) :
    t.write staging = some (splice staging t.offset t.data) := by
  unfold write
  split
  · rename_i pos
    refine copyRange_eq_some.mpr ⟨⟨?_, h pos⟩, ?_⟩
    · rw [t.data_length, Nat.zero_add]
    · rw [List.drop_zero, List.take_of_length_le t.data_length.le]
  · rename_i zero
    have none : t.data = [] := List.eq_nil_of_length_eq_zero (t.data_length.trans (Nat.eq_zero_of_not_pos zero))
    rw [none, splice, List.append_nil, List.length_nil, Nat.add_zero, List.take_append_drop]

lemma execute_eq_some : t.execute staging dest = some after ↔
    ((0 < t.size → t.offset + t.size ≤ staging.length) ∧ dest.length ≤ staging.length) ∧
      (t.encode (splice staging t.offset t.data)).take dest.length = after := by
  by_cases room : 0 < t.size → t.offset + t.size ≤ staging.length
  · have length : (t.encode (splice staging t.offset t.data)).length = staging.length := by
      rw [length_encode]
      rcases Nat.eq_zero_or_pos t.size with zero | pos
      · have none : t.data = [] := List.eq_nil_of_length_eq_zero (t.data_length.trans zero)
        rw [none, splice, List.append_nil, List.length_nil, Nat.add_zero, List.take_append_drop]
      · exact length_splice (t.data_length ▸ room pos)
    unfold execute
    rw [write_eq room, Option.bind_some, copyRange_eq_some, length, Nat.zero_add,
      and_iff_left le_rfl, and_iff_right room, List.drop_zero]
    refine and_congr_right fun inside => ?_
    rw [splice, List.take_zero, List.nil_append, Nat.zero_add, List.length_take, length,
      Nat.min_eq_left inside, List.drop_length, List.append_nil]
  · refine iff_of_false (fun e => ?_) fun h => room h.1.1
    obtain ⟨pos, beyond⟩ := Classical.not_imp.mp room
    obtain ⟨staging', e', -⟩ := Option.bind_eq_some_iff.mp e
    rw [write, if_pos pos] at e'
    exact beyond (copyRange_eq_some.mp e').1.2

lemma nextPowerOfTwo_le {n : ℕ} (lt : n < 2 ^ 32) : nextPowerOfTwo n ≤ 2 ^ 31 := by
  rcases Nat.eq_zero_or_pos n with rfl | pos
  · decide
  · rw [nextPowerOfTwo, roundUp_eq pos lt]
    have size : (n - 1).size ≤ 32 := Nat.size_le.mpr (by omega)
    rcases Nat.lt_or_ge (n - 1).size 32 with lt | ge
    · exact (Nat.mod_le _ _).trans (Nat.pow_le_pow_right (by decide) (Nat.le_of_lt_succ lt))
    · rw [le_antisymm size ge]
      decide

lemma Correct.covers (h : t.Correct) {i : ℕ} (lt : i < t.infoSize) :
    t.offset ≤ i ∧ i < t.offset + t.size := by
  by_contra outside
  have stays : ∀ b : UInt8, ((t.encode (splice (List.replicate t.stagingSize 0) t.offset t.data)).take
      t.infoSize)[i]? = some b := by
    intro b
    obtain ⟨after, e, framed⟩ := h (List.replicate t.stagingSize 0) (List.replicate t.infoSize b)
      List.length_replicate List.length_replicate
    obtain ⟨-, rfl⟩ := execute_eq_some.mp e
    have kept := framed i (by rwa [List.length_replicate])
    rw [if_neg outside, List.length_replicate] at kept
    rw [kept, List.getElem?_replicate, if_pos lt]
  exact absurd ((stays 0).symm.trans (stays 1)) (by decide)

def wholeTransfer : BufferTransfer where
  infoSize := 2
  size := 2
  offset := 0
  infoSize_lt := by decide
  size_lt := by decide
  offset_lt := Nat.two_pow_pos 64
  data := [5, 6]
  executable := none
  data_length := rfl
  executable_length := nofun

end BufferTransfer

end PulseEngine.RenderGraph
