import PulseEngine.Loader.SettingsPlaced

/-!
# Settings are copied right as long as their size does not wrap

Both callbacks walk the same pieces, so a copy is right exactly when the sum of the structure, its arrays and its names
is a number of 64 bits (`copiedRight_iff`). An array alone is always one, but structures may share a name, so that there
are settings whose names together take more. `copy_request_settings` takes no more than 32 bits, and is right whenever it
succeeds.
-/

namespace PulseEngine.Loader

open Library

variable {F H : Type} {stop cursor base : ℕ} {ps qs : List (Piece F)} {abi : Abi}

lemma foldl_sizePiece (total : ℕ) :
    ps.foldl sizePiece total = (place (2 ^ 64) ⟨total, 1⟩ (ps.map Piece.extent)).cursor := by
  induction ps generalizing total with
  | nil => rfl
  | cons p ps ih =>
    rw [List.foldl_cons, ih, List.map_cons, place, place, List.foldl_cons]
    exact place_congr rfl

lemma foldl_sizePiece_eq (dvd : ∀ p ∈ ps, p.round ∣ 2 ^ 64) {total : ℕ} (lt : total < 2 ^ 64) :
    ps.foldl sizePiece total = endOf total ps % 2 ^ 64 := by
  rw [foldl_sizePiece]
  refine place_mod (fun field hf => ?_) (Nat.mod_eq_of_lt lt).symm
  obtain ⟨p, hp, rfl⟩ := List.mem_map.mp hf
  exact dvd p hp

lemma endOf_add (dvd : ∀ p ∈ ps, p.round ∣ base) : endOf (base + cursor) ps = base + endOf cursor ps := by
  have aligned : ∀ field ∈ ps.map Piece.extent, field.align ∣ base := fun field hf => by
    obtain ⟨p, hp, rfl⟩ := List.mem_map.mp hf
    exact dvd p hp
  exact @place_add ⟨cursor, 1⟩ (ps.map Piece.extent) base aligned

lemma sizeOption_eq (total : ℕ) (p : Option (Piece F)) : sizeOption total p = p.toList.foldl sizePiece total := by
  cases p <;> rfl

lemma sizeNames_eq (total : ℕ) (list : List (Named F)) :
    sizeNames total list = (namePieces list).foldl sizePiece total := by
  induction list generalizing total with
  | nil => rfl
  | cons value list ih =>
    rw [namePieces, List.foldl_append, ← sizeOption_eq, ← ih]
    rfl

lemma size_eq_foldl (s : LoaderSettings F H) :
    s.size abi = (s.pieces abi).foldl sizePiece (s.head abi).size := by
  cases s with
  | texture s =>
    rw [LoaderSettings.pieces, dataPieces, List.foldl_append, ← sizeOption_eq, ← sizeOption_eq]
    rfl
  | buffer s =>
    rw [LoaderSettings.pieces, dataPieces, List.foldl_append, ← sizeOption_eq, ← sizeOption_eq]
    rfl
  | mesh s =>
    rw [LoaderSettings.pieces, elementsPieces, List.foldl_append, List.foldl_append, List.foldl_append,
      ← sizeOption_eq, ← sizeOption_eq, ← sizeOption_eq, ← sizeNames_eq]
    rfl
  | shader s =>
    rw [LoaderSettings.pieces, elementsPieces, List.foldl_append, List.foldl_append, ← sizeOption_eq,
      ← sizeOption_eq, ← sizeNames_eq]
    rfl

lemma power_of_dvd {a : ℕ} (dvd : a ∣ 2 ^ 64) : a.isPowerOfTwo := by
  obtain ⟨k, -, rfl⟩ := (Nat.dvd_prime_pow Nat.prime_two).mp dvd
  exact ⟨k, rfl⟩

lemma mem_namePieces {list : List (Named F)} {p : Piece F} (h : p ∈ namePieces list) : ∃ text, p = textPiece text := by
  induction list with
  | nil => cases h
  | cons value list ih =>
    rcases List.mem_append.mp h with h | h
    · obtain ⟨text, -, rfl⟩ := Option.map_eq_some_iff.mp (Option.mem_toList.mp h)
      exact ⟨text, rfl⟩
    · exact ih h

def Rounded (m : ℕ) (p : Piece F) : Prop := p.object.align ∣ p.round ∧ p.round ∣ m

lemma rounded_textPiece (m : ℕ) (text : List UInt8) : Rounded m (textPiece (F := F) text) := ⟨one_dvd _, one_dvd _⟩

lemma rounded_rows {m : ℕ} {rows : Rows} {p : Piece F} (h : p ∈ rows.piece.toList) : Rounded m p := by
  have h := Option.mem_toList.mp h
  rw [Rows.piece] at h
  split at h
  · obtain ⟨bytes, -, rfl⟩ := Option.map_eq_some_iff.mp h
    exact ⟨one_dvd _, one_dvd _⟩
  · cases h

lemma mem_arrayPiece {round : ℕ} {type : Extent} {list : List F} {p : Piece F}
    (h : p ∈ (arrayPiece round type list).toList) : p = ⟨round, .elements type list⟩ := by
  have h := Option.mem_toList.mp h
  rw [arrayPiece] at h
  split at h
  · cases h
  · exact (Option.some.inj h).symm

lemma rounded_elements {m : ℕ} {type : Extent} (dvd : type.align ∣ m) {elements : Elements F} {p : Piece F}
    (h : p ∈ elementsPieces type.align type elements) : Rounded m p := by
  rcases List.mem_append.mp h with h | h
  · rw [mem_arrayPiece h]
    exact ⟨dvd_rfl, dvd⟩
  · obtain ⟨text, rfl⟩ := mem_namePieces h
    exact rounded_textPiece m text

lemma rounded_data {m : ℕ} {s : DataSettings H} {p : Piece F} (h : p ∈ dataPieces s) : Rounded m p := by
  rcases List.mem_append.mp h with h | h
  · obtain ⟨text, -, rfl⟩ := Option.map_eq_some_iff.mp (Option.mem_toList.mp h)
    exact rounded_textPiece m text
  · exact rounded_rows h

variable {s : LoaderSettings F H}

lemma round_dvd_head {p : Piece F} (h : p ∈ s.pieces abi) : p.round ∣ (s.head abi).align := by
  cases s with
  | texture s => exact (rounded_data h).2
  | buffer s => exact (rounded_data h).2
  | mesh s =>
    rcases List.mem_append.mp h with h | h
    · exact (rounded_elements abi.attribute_dvd h).2
    · rcases List.mem_append.mp h with h | h
      · exact (rounded_rows h).2
      · exact (rounded_rows h).2
  | shader s =>
    rcases List.mem_append.mp h with h | h
    · rw [mem_arrayPiece h]
      exact one_dvd _
    · exact (rounded_elements abi.property_dvd h).2

lemma round_dvd {p : Piece F} (h : p ∈ s.pieces abi) : p.round ∣ 2 ^ 64 := by
  cases s with
  | texture s => exact (rounded_data h).2
  | buffer s => exact (rounded_data h).2
  | mesh s => exact (round_dvd_head h).trans abi.mesh_align
  | shader s => exact (round_dvd_head h).trans abi.shader_align

lemma aligned_of_rounded (rounded : ∀ p ∈ ps, Rounded (2 ^ 64) p) {w : Placed F} (h : w ∈ placed cursor ps) :
    w.2.align ∣ w.1.offset :=
  placed_aligned (fun p hp => ⟨power_of_dvd (rounded p hp).2, (rounded p hp).1⟩) h

lemma pieces_aligned (dvd : (s.head abi).align ∣ base) {w : Placed F}
    (h : w ∈ placed (base + (s.head abi).size) (s.pieces abi)) : w.2.align ∣ w.1.offset := by
  cases s with
  | texture s => exact aligned_of_rounded (fun p hp => rounded_data hp) h
  | buffer s => exact aligned_of_rounded (fun p hp => rounded_data hp) h
  | mesh s =>
    refine aligned_of_rounded (fun p hp => ?_) h
    rcases List.mem_append.mp hp with hp | hp
    · exact rounded_elements (abi.attribute_dvd.trans abi.mesh_align) hp
    · rcases List.mem_append.mp hp with hp | hp
      · exact rounded_rows hp
      · exact rounded_rows hp
  | shader s =>
    rw [LoaderSettings.pieces, placed_append] at h
    rcases List.mem_append.mp h with h | h
    · -- The attachments are where the structure ends.
      cases ha : arrayPiece 1 abi.blendAttachmentState s.attachments with
      | none =>
        rw [ha] at h
        cases h
      | some p =>
        rw [ha] at h
        obtain rfl := List.mem_singleton.mp h
        have hp := mem_arrayPiece (Option.mem_toList.mpr ha)
        subst hp
        have start : abi.shaderCreateSettings.align ∣ base + abi.shaderCreateSettings.size :=
          (Nat.dvd_add_right dvd).mpr abi.shader_dvd
        exact abi.attachment_dvd.trans start
    · exact aligned_of_rounded (fun p hp => rounded_elements (abi.property_dvd.trans abi.shader_align) hp) h

def LoaderSettings.exactSize (abi : Abi) (s : LoaderSettings F H) : ℕ := endOf (s.head abi).size (s.pieces abi)

lemma head_lt : (s.head abi).size < 2 ^ 64 := by
  cases s with
  | texture s => exact abi.texture_lt
  | buffer s => exact abi.buffer_lt
  | mesh s => exact abi.mesh_lt
  | shader s => exact abi.shader_lt

lemma size_eq : s.size abi = s.exactSize abi % 2 ^ 64 := by
  rw [size_eq_foldl]
  exact foldl_sizePiece_eq (fun p hp => round_dvd hp) head_lt

lemma endOf_pieces (dvd : (s.head abi).align ∣ base) :
    endOf (base + (s.head abi).size) (s.pieces abi) = base + s.exactSize abi :=
  endOf_add fun _ hp => (round_dvd_head hp).trans dvd

lemma copiesRight (dvd : (s.head abi).align ∣ base) (lt : s.exactSize abi < 2 ^ 64) :
    ∃ copy st, CopiesRight abi s base copy st := by
  have size : s.size abi = s.exactSize abi := size_eq.trans (Nat.mod_eq_of_lt lt)
  have fit : Fit (base + s.size abi) (base + (s.head abi).size) (s.pieces abi) := by
    intro _
    rw [endOf_pieces dvd, size]
  obtain ⟨copy, copied, equal⟩ := (copies_settings s ⟨base + (s.head abi).size, []⟩).1 fit
  refine ⟨copy, _, copied, fun w hw => ?_, placed_apart, fun w hw => pieces_aligned dvd hw, equal⟩
  obtain ⟨behind, before⟩ := placed_inside hw
  rw [endOf_pieces dvd] at before
  exact ⟨behind, size ▸ before⟩

lemma copy_eq_none (dvd : (s.head abi).align ∣ base) (le : 2 ^ 64 ≤ s.exactSize abi) :
    s.copy abi base (s.size abi) = none := by
  refine (copies_settings s ⟨base + (s.head abi).size, []⟩).2 fun fit => ?_
  have wrapped : s.size abi < 2 ^ 64 := size_eq.trans_lt (Nat.mod_lt _ (Nat.two_pow_pos 64))
  by_cases nil : s.pieces abi = []
  · have exact : s.exactSize abi = (s.head abi).size := by rw [LoaderSettings.exactSize, nil, endOf_nil]
    have lt : (s.head abi).size < 2 ^ 64 := head_lt
    omega
  · have inside := fit nil
    rw [endOf_pieces dvd] at inside
    omega

lemma not_copiedRight_of_le (le : 2 ^ 64 ≤ s.exactSize abi) : ¬ s.CopiedRight abi := by
  intro right
  obtain ⟨copy, st, right⟩ := right 0 (dvd_zero _)
  have none := copy_eq_none (dvd_zero _) le
  rw [right.copied] at none
  cases none

/-- **Settings are copied right** if and only if their sum does not wrap. -/
theorem copiedRight_iff (abi : Abi) (s : LoaderSettings F H) : s.CopiedRight abi ↔ s.exactSize abi < 2 ^ 64 :=
  ⟨fun right => not_le.mp fun le => not_copiedRight_of_le le right, fun lt _ dvd => copiesRight dvd lt⟩

/-- **A request** whose settings take at most 32 bits gets a right copy, and any other one fails. -/
theorem copyRequestSettings_spec (dvd : (s.head abi).align ∣ base) :
    if s.exactSize abi < 2 ^ 32 then
      ∃ copy st, copyRequestSettings abi base s = some (copy, st) ∧ CopiesRight abi s base copy st
    else copyRequestSettings abi base s = none := by
  have least : (s.head abi).size ≤ s.exactSize abi := le_endOf
  have size : s.size abi = s.exactSize abi % 2 ^ 64 := size_eq
  rw [copyRequestSettings]
  split
  · obtain ⟨copy, st, right⟩ := copiesRight dvd (s := s) (by omega)
    refine ⟨copy, st, ?_, right⟩
    rw [if_neg (by omega)]
    exact right.copied
  · split
    · rfl
    · exact copy_eq_none dvd (by omega)

lemma le_endOf_append (more : List (Piece F)) : endOf cursor ps ≤ endOf cursor (ps ++ more) := by
  rw [endOf_append]
  exact le_endOf

lemma le_endOf_names (value : F) (text : List UInt8) (n : ℕ) :
    cursor + n * (text.length + 1) ≤ endOf cursor (namePieces (List.replicate n (value, some text))) := by
  induction n generalizing cursor with
  | zero =>
    rw [Nat.zero_mul]
    exact le_rfl
  | succ n ih =>
    have rest := @ih (cursor + (text.length + 1))
    have first : endOf cursor [textPiece (F := F) text] = cursor + (text.length + 1) := endOf_cons
    rw [List.replicate_succ, namePieces, endOf_append, Option.map_some, Option.toList_some, first]
    calc cursor + (n + 1) * (text.length + 1) = cursor + (text.length + 1) + n * (text.length + 1) := by ring
      _ ≤ _ := rest

def wordAbi : Abi where
  textureCreateDesc := ⟨72, 8⟩
  graphicsBufferCreateDesc := ⟨56, 8⟩
  meshCreateFromDataDesc := ⟨72, 8⟩
  shaderCreateSettings := ⟨120, 8⟩
  vertexAttribute := ⟨32, 8⟩
  blendAttachmentState := ⟨32, 4⟩
  shaderProperty := ⟨32, 8⟩
  attribute_dvd := by decide
  attachment_dvd := by decide
  property_dvd := by decide
  mesh_align := by decide
  shader_align := by decide
  shader_dvd := by decide
  texture_lt := by decide
  buffer_lt := by decide
  mesh_lt := by decide
  shader_lt := by decide

def noRows : Rows where
  data := none
  count := 0
  stride := 0
  length_eq := by
    intro bytes h
    cases h
  size_lt := by decide

def sharedNames (n : ℕ) (lt : n < 2 ^ 32) (text : List UInt8) : LoaderSettings Unit Unit := .mesh
  { fields := ()
    attributes := ⟨List.replicate n ((), some text), List.length_replicate.trans_lt lt⟩
    vertices := noRows
    indices := noRows }

lemma le_exactSize_sharedNames {n : ℕ} {lt : n < 2 ^ 32} {text : List UInt8} :
    (abi.meshCreateFromDataDesc).size + n * (text.length + 1) ≤ (sharedNames n lt text).exactSize abi := by
  have array : (abi.meshCreateFromDataDesc).size ≤ endOf (abi.meshCreateFromDataDesc).size
      (arrayPiece abi.vertexAttribute.align abi.vertexAttribute ((List.replicate n ((), some text)).map Prod.fst)).toList :=
    le_endOf
  refine (Nat.add_le_add_right array _).trans ((le_endOf_names () text n).trans ?_)
  rw [← endOf_append]
  exact le_endOf_append _

/-- Two attributes share a name, of which each gets a copy. -/
theorem copyRequestSettings_spec_names : ∃ copy st,
    copyRequestSettings wordAbi 0 (sharedNames 2 (by decide) [65]) = some (copy, st) ∧
      CopiesRight wordAbi (sharedNames 2 (by decide) [65]) 0 copy st := by
  have copies := copyRequestSettings_spec (dvd_zero ((sharedNames 2 (by decide) [65]).head wordAbi).align)
  rwa [if_pos (by decide)] at copies

/-- As many attributes as there can be, with a name of as many characters: their names take all that 64 bits can say. -/
theorem not_copiedRight : ¬ ∀ s : LoaderSettings Unit Unit, s.CopiedRight wordAbi := by
  intro right
  refine not_copiedRight_of_le ?_ (right (sharedNames (2 ^ 32 - 1) (by omega) (List.replicate (2 ^ 32) 65)))
  refine le_trans ?_ le_exactSize_sharedNames
  rw [List.length_replicate]
  decide

end PulseEngine.Loader
