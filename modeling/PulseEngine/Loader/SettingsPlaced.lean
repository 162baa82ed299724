import PulseEngine.Loader.SettingsCopy

/-!
# Settings are copied as their pieces are placed

Every callback takes the pieces of the settings one after the other (`LoaderSettings.pieces`). The size callback
computes where they end, in 64 bits (`size_eq`); the copy callback writes them at their places, if they end inside the
block (`Copies`, with a rule for every part of a callback). The numbers that wrap are the exact ones modulo 2^64, so
both agree as long as the exact sum does not wrap, and only then.
-/

namespace PulseEngine.Loader

open Library

variable {F H α β : Type}

def endOf (cursor : ℕ) (ps : List (Piece F)) : ℕ := (place 0 ⟨cursor, 1⟩ (ps.map Piece.extent)).cursor

def placed : ℕ → List (Piece F) → List (Placed F)
  | _, [] => []
  | cursor, p :: ps =>
    (⟨alignUp 0 cursor p.round, p.object.size⟩, p.object) :: placed (alignUp 0 cursor p.round + p.object.size) ps

variable {stop cursor : ℕ} {p : Piece F} {ps qs : List (Piece F)}

@[simp]
lemma endOf_nil : endOf cursor ([] : List (Piece F)) = cursor := rfl

@[simp]
lemma endOf_cons : endOf cursor (p :: ps) = endOf (alignUp 0 cursor p.round + p.object.size) ps := by
  rw [endOf, List.map_cons, place, List.foldl_cons, next_zero]
  exact place_congr rfl

@[simp]
lemma endOf_append : endOf cursor (ps ++ qs) = endOf (endOf cursor ps) qs := by
  rw [endOf, List.map_append, place_append]
  exact place_congr rfl

@[simp]
lemma placed_append : placed cursor (ps ++ qs) = placed cursor ps ++ placed (endOf cursor ps) qs := by
  induction ps generalizing cursor with
  | nil => rfl
  | cons p ps ih => rw [List.cons_append, placed, ih, endOf_cons, placed, List.cons_append]

lemma le_endOf : cursor ≤ endOf cursor ps := by
  have up := @le_place ⟨cursor, 1⟩ (ps.map Piece.extent)
  exact up.1

lemma placed_inside {w : Placed F} (h : w ∈ placed cursor ps) : cursor ≤ w.1.offset ∧ w.1.stop ≤ endOf cursor ps := by
  induction ps generalizing cursor with
  | nil => cases h
  | cons p ps ih =>
    have up : cursor ≤ alignUp 0 cursor p.round := le_alignUp _ _
    rw [endOf_cons]
    rcases List.mem_cons.mp h with rfl | h
    · exact ⟨up, le_endOf⟩
    · obtain ⟨behind, before⟩ := ih h
      exact ⟨(up.trans (Nat.le_add_right _ _)).trans behind, before⟩

lemma placed_apart : (placed cursor ps).Pairwise fun w w' => w.1.Apart w'.1 := by
  induction ps generalizing cursor with
  | nil => exact .nil
  | cons p ps ih => exact .cons (fun w hw => ByteRange.apart_of_le (placed_inside hw).1) ih

lemma placed_aligned (round : ∀ p ∈ ps, p.round.isPowerOfTwo ∧ p.object.align ∣ p.round) {w : Placed F}
    (h : w ∈ placed cursor ps) : w.2.align ∣ w.1.offset := by
  induction ps generalizing cursor with
  | nil => cases h
  | cons p ps ih =>
    obtain ⟨power, dvd⟩ := round p List.mem_cons_self
    rcases List.mem_cons.mp h with rfl | h
    · exact dvd.trans (dvd_alignUp power)
    · exact ih (fun p hp => round p (List.mem_cons_of_mem _ hp)) h

def Fit (stop cursor : ℕ) (ps : List (Piece F)) : Prop := ps ≠ [] → endOf cursor ps ≤ stop

lemma fit_append : Fit stop cursor (ps ++ qs) ↔ Fit stop cursor ps ∧ Fit stop (endOf cursor ps) qs := by
  constructor
  · intro fit
    refine ⟨fun ne => ?_, fun ne => ?_⟩
    · have le := fit (List.append_ne_nil_of_left_ne_nil ne _)
      rw [endOf_append] at le
      exact le_endOf.trans le
    · have le := fit (List.append_ne_nil_of_right_ne_nil _ ne)
      rwa [endOf_append] at le
  · rintro ⟨fits, fit⟩ ne
    rw [endOf_append]
    by_cases hq : qs = []
    · subst hq
      rw [List.append_nil] at ne
      exact fits ne
    · exact fit hq

def Copies (stop : ℕ) (m : Copying F α) (ps : List (Piece F)) (Q : α → List (Placed F) → Prop) : Prop :=
  ∀ st : CopyState F,
    (Fit stop st.cursor ps → ∃ a, m st = some (a, ⟨endOf st.cursor ps, st.written ++ placed st.cursor ps⟩) ∧
      Q a (placed st.cursor ps)) ∧
    (¬ Fit stop st.cursor ps → m st = none)

section Copies

variable {m : Copying F α} {f : α → Copying F β} {Q Q' : α → List (Placed F) → Prop}
  {R : β → List (Placed F) → Prop}

lemma copies_pure {a : α} (h : Q a []) : Copies stop (pure a : Copying F α) [] Q := by
  intro st
  refine ⟨fun _ => ⟨a, ?_, h⟩, fun not => absurd (fun ne => absurd rfl ne) not⟩
  rw [placed, List.append_nil]
  rfl

lemma Copies.bind (h : Copies stop m ps Q)
    (hf : ∀ a, Copies stop (f a) qs fun b written => ∀ before, Q a before → R b (before ++ written)) :
    Copies stop (m >>= f) (ps ++ qs) R := by
  intro st
  rw [fit_append, endOf_append, placed_append]
  obtain ⟨copied, failed⟩ := h st
  by_cases fits : Fit stop st.cursor ps
  · obtain ⟨a, hm, hq⟩ := copied fits
    have run : (m >>= f) st = f a ⟨endOf st.cursor ps, st.written ++ placed st.cursor ps⟩ := by
      change (m st).bind (fun r => f r.1 r.2) = _
      rw [hm]
      rfl
    obtain ⟨copied', failed'⟩ := hf a ⟨endOf st.cursor ps, st.written ++ placed st.cursor ps⟩
    refine ⟨fun fit => ?_, fun not => ?_⟩
    · obtain ⟨b, hb, hr⟩ := copied' fit.2
      refine ⟨b, ?_, hr _ hq⟩
      rw [run, hb, List.append_assoc]
    · rw [run]
      exact failed' fun fit => not ⟨fits, fit⟩
  · refine ⟨fun fit => absurd fit.1 fits, fun _ => ?_⟩
    change (m st).bind (fun r => f r.1 r.2) = none
    rw [failed fits]
    rfl

lemma Copies.map {g : α → β} (h : Copies stop m ps Q) (imp : ∀ a written, Q a written → R (g a) written) :
    Copies stop (g <$> m) ps R := by
  have both : Copies stop (m >>= fun a => pure (g a)) (ps ++ []) R :=
    h.bind fun a => copies_pure fun before hq => by
      rw [List.append_nil]
      exact imp a before hq
  rwa [List.append_nil, bind_pure_comp] at both

lemma copies_piece : Copies stop (copyPiece stop p) [p] fun address written =>
    (⟨address, p.object.size⟩, p.object) ∈ written := by
  intro st
  have fit : Fit stop st.cursor [p] ↔ ¬ alignUp 0 st.cursor p.round + p.object.size > stop := by
    rw [Fit, endOf_cons, endOf_nil, not_lt]
    exact ⟨fun h => h (List.cons_ne_nil _ _), fun h _ => h⟩
  rw [fit, not_not]
  refine ⟨fun le => ⟨alignUp 0 st.cursor p.round, ?_, List.mem_cons_self⟩, fun lt => if_pos lt⟩
  rw [endOf_cons, endOf_nil]
  exact if_neg le

lemma copies_option (stop : ℕ) (p : Option (Piece F)) : Copies stop (copyOption stop p) p.toList fun address written =>
    PointsTo written address (p.map Piece.object) := by
  cases p with
  | none => exact copies_pure trivial
  | some p => exact copies_piece.map fun address written mem => mem

end Copies

def namePieces : List (Named F) → List (Piece F)
  | [] => []
  | value :: list => (value.2.map textPiece).toList ++ namePieces list

def elementsPieces (round : ℕ) (type : Extent) (elements : Elements F) : List (Piece F) :=
  (arrayPiece round type (elements.list.map Prod.fst)).toList ++ namePieces elements.list

def dataPieces (s : DataSettings H) : List (Piece F) := (s.name.map textPiece).toList ++ s.data.piece.toList

def LoaderSettings.pieces (abi : Abi) : LoaderSettings F H → List (Piece F)
  | texture s => dataPieces s
  | buffer s => dataPieces s
  | mesh s => elementsPieces abi.vertexAttribute.align abi.vertexAttribute s.attributes ++
      (s.vertices.piece.toList ++ s.indices.piece.toList)
  | shader s => (arrayPiece 1 abi.blendAttachmentState s.attachments).toList ++
      elementsPieces abi.shaderProperty.align abi.shaderProperty s.properties

lemma PointsTo.mono {written written' : List (Placed F)} (sub : written ⊆ written') {address : Option ℕ}
    {object : Option (Object F)} (h : PointsTo written address object) : PointsTo written' address object := by
  cases address with
  | none =>
    cases object with
    | none => trivial
    | some object => exact h.elim
  | some address =>
    cases object with
    | none => exact h.elim
    | some object => exact sub h

lemma PointsTo.left {written more : List (Placed F)} {address : Option ℕ} {object : Option (Object F)}
    (h : PointsTo written address object) : PointsTo (written ++ more) address object :=
  h.mono (List.subset_append_left _ _)

lemma PointsTo.right {written more : List (Placed F)} {address : Option ℕ} {object : Option (Object F)}
    (h : PointsTo written address object) : PointsTo (more ++ written) address object :=
  h.mono (List.subset_append_right _ _)

lemma map_textPiece (name : Option (List UInt8)) :
    (name.map (textPiece (F := F))).map Piece.object = name.map Object.chars :=
  Option.map_map _ _ _

lemma map_piece (rows : Rows) : (rows.piece (F := F)).map Piece.object = rows.object := by
  rw [Rows.piece, Rows.object]
  cases hd : rows.data with
  | none =>
    rw [Option.map_none, ite_self, Option.getD_none, if_pos rfl]
    rfl
  | some bytes =>
    have length := rows.length_eq bytes hd
    by_cases pos : rows.count > 0 ∧ rows.stride > 0
    · have ne : bytes ≠ [] := List.ne_nil_of_length_pos (length ▸ Nat.mul_pos pos.1 pos.2)
      rw [if_pos pos, Option.getD_some, if_neg ne]
      rfl
    · have none : bytes = [] := by
        apply List.eq_nil_of_length_eq_zero
        rw [length, Nat.mul_eq_zero]
        omega
      rw [if_neg pos, Option.getD_some, if_pos none]
      rfl

lemma map_arrayPiece (round : ℕ) (type : Extent) (list : List F) :
    (arrayPiece round type list).map Piece.object = arrayObject type list := by
  unfold arrayPiece arrayObject
  split <;> rfl

section callbacks

variable {round : ℕ} {type : Extent}

lemma copies_name (name : Option (List UInt8)) :
    Copies stop (copyOption stop (name.map (textPiece (F := F)))) (name.map textPiece).toList
      fun address written => PointsTo written address (name.map .chars) := by
  have copies := copies_option stop (name.map (textPiece (F := F)))
  rwa [map_textPiece] at copies

lemma copies_rows (rows : Rows) :
    Copies stop (copyOption stop (rows.piece (F := F))) rows.piece.toList
      fun address written => PointsTo written address rows.object := by
  have copies := copies_option stop (rows.piece (F := F))
  rwa [map_piece] at copies

lemma copies_array (list : List F) :
    Copies stop (copyOption stop (arrayPiece round type list)) (arrayPiece round type list).toList
      fun address written => PointsTo written address (arrayObject type list) := by
  have copies := copies_option stop (arrayPiece round type list)
  rwa [map_arrayPiece] at copies

lemma copies_names (list : List (Named F)) :
    Copies stop (copyNames stop list) (namePieces list) fun names written =>
      List.Forall₂ (fun value name => PointsTo written name (value.2.map .chars)) list names := by
  induction list with
  | nil => exact copies_pure .nil
  | cons value list ih =>
    refine (copies_name value.2).bind fun name => ih.map fun names written pointed before first => ?_
    exact .cons first.left (pointed.imp fun _ _ h => h.right)

lemma copies_elements (elements : Elements F) :
    Copies stop (copyElements stop round type elements) (elementsPieces round type elements)
      fun copy written => copy.Equals written type elements := by
  refine (copies_array _).bind fun address => (copies_names _).map fun names written pointed before first => ?_
  exact ⟨first.left, pointed.imp fun _ _ h => h.right⟩

lemma copies_data (s : DataSettings H) :
    Copies stop (copyData stop s) (dataPieces (F := F) s) fun copy written => copy.Equals written s := by
  refine (copies_name _).bind fun name => (copies_rows _).map fun data written pointed before first => ?_
  exact ⟨rfl, first.left, pointed.right⟩

lemma copies_mesh (abi : Abi) (s : MeshSettings F H) :
    Copies stop (meshFromDataSettingsCopy abi stop s) ((LoaderSettings.mesh s).pieces abi)
      fun copy written => copy.Equals abi written s := by
  refine (copies_elements _).bind fun attributes => (copies_rows _).bind fun vertices =>
    (copies_rows _).map fun indices written third before second front first => ?_
  exact ⟨rfl, ⟨first.1.left, first.2.imp fun _ _ h => h.left⟩, second.left.right, third.right.right⟩

lemma copies_shader (abi : Abi) (s : ShaderSettings F H) :
    Copies stop (shaderSettingsCopy abi stop s) ((LoaderSettings.shader s).pieces abi)
      fun copy written => copy.Equals abi written s := by
  refine (copies_array _).bind fun attachments =>
    (copies_elements _).map fun properties written pointed before first => ?_
  exact ⟨rfl, first.left, pointed.1.right, pointed.2.imp fun _ _ h => h.right⟩

end callbacks

variable {abi : Abi}

/-- **A copy callback** writes the pieces of its settings at their places, and its copy is equal. -/
theorem copies_settings (s : LoaderSettings F H) :
    Copies stop (s.copying abi stop) (s.pieces abi) fun copy written => copy.Equals abi written s := by
  cases s with
  | texture s => exact (copies_data s).map fun _ _ h => h
  | buffer s => exact (copies_data s).map fun _ _ h => h
  | mesh s => exact (copies_mesh abi s).map fun _ _ h => h
  | shader s => exact (copies_shader abi s).map fun _ _ h => h

end PulseEngine.Loader
