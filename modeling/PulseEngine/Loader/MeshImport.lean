import PulseEngine.Asset.LoadQueue
import PulseEngine.Library.Interning

/-!
# Import of OBJ meshes

`parse_obj_mesh` and `step_mesh_load` of `loader/load_mesh.cpp`. What `tinyobj::LoadObj` makes of the text is an
argument: the faces of a shape are triangulated, the indices of their corners are as the file has them. Coordinates
are of any type with the operations that are used. A read behind the end of an array has no result.
-/

namespace PulseEngine.Loader

open Asset (LoaderStatus)
open Library

structure MeshVec3 (F : Type) where
  x : F
  y : F
  z : F
  deriving DecidableEq, Repr

structure MeshVec2 (F : Type) where
  x : F
  y : F
  deriving DecidableEq, Repr

structure MeshTexturedVertex (F : Type) where
  position : MeshVec3 F
  normal : MeshVec3 F
  texCoord : MeshVec2 F
  deriving DecidableEq, Repr

/-- `tinyobj::index_t`, and the key of `vmap`. -/
structure MeshIndex where
  vertexIndex : ℤ
  normalIndex : ℤ
  texcoordIndex : ℤ
  deriving DecidableEq, Repr

/-- `tinyobj::attrib_t`. -/
structure Attrib (F : Type) where
  vertices : List F
  normals : List F
  texcoords : List F
  deriving DecidableEq, Repr

/-- A face of a `tinyobj::shape_t`. -/
structure Face where
  a : MeshIndex
  b : MeshIndex
  c : MeshIndex
  deriving DecidableEq, Repr

def shapeIndices (shape : List Face) : List MeshIndex := shape.flatMap fun face => [face.a, face.b, face.c]

/-- What `tinyobj::LoadObj` returns. -/
structure ObjResult (F : Type) where
  attrib : Attrib F
  shapes : List (List Face)
  deriving DecidableEq, Repr

/-- What the loader computes with. -/
class Coordinate (F : Type) extends Zero F, One F, Neg F, Mul F, Sub F

instance : Coordinate ℤ where

variable {F : Type} [Coordinate F]

/-- `coords` and `normals`: the numbers by threes, with the first one mirrored. -/
def mirroredVectors : List F → List (MeshVec3 F)
  | x :: y :: z :: rest => ⟨x * -1, y, z⟩ :: mirroredVectors rest
  | _ => []

/-- `texCoords`: the numbers by twos, with the second one upside down. -/
def flippedCoords : List F → List (MeshVec2 F)
  | u :: v :: rest => ⟨u, 1 - v⟩ :: flippedCoords rest
  | _ => []

def readAt {α : Type} (values : List α) (index : ℤ) : Option α := if 0 ≤ index then values[index.toNat]? else none

def makeVertex (attrib : Attrib F) (idx : MeshIndex) : Option (MeshTexturedVertex F) := do
  let pos ← readAt (mirroredVectors attrib.vertices) idx.vertexIndex
  let nml ← (if idx.normalIndex ≥ 0 then readAt (mirroredVectors attrib.normals) idx.normalIndex
    else some ⟨0, 0, 0⟩)
  let tc ← (if idx.texcoordIndex ≥ 0 then readAt (flippedCoords attrib.texcoords) idx.texcoordIndex
    else some ⟨0, 0⟩)
  return ⟨pos, nml, tc⟩

def swapWinding {α : Type} : List α → List α
  | a :: b :: c :: rest => a :: c :: b :: swapWinding rest
  | rest => rest

/-- `parse_obj_mesh`, after `LoadObj` succeeded: `out_verts` and `out_indices`. The items of the numbering are the
vertices, and its numbers are `vmap`. -/
def parseObjMesh (obj : ObjResult F) : Option (List (MeshTexturedVertex F) × List UInt32) :=
  match obj.shapes with
  | [] => some ([], [])
  | shape :: _ =>
    ((shapeIndices shape).foldlM (Interning.intern UInt32.ofNat (makeVertex obj.attrib)) {}).map fun s =>
      (s.items, swapWinding s.given)

/-- `CGPUVertexAttribute`, as the loader fills it. -/
structure MeshAttribute where
  semanticName : String
  arraySize : ℕ
  floats : ℕ
  offset : ℕ
  elemStride : ℕ
  deriving DecidableEq, Repr

def meshAttributes : List MeshAttribute :=
  [⟨"POSITION", 1, 3, 0, 12⟩, ⟨"NORMAL", 1, 3, 12, 12⟩, ⟨"TEXCOORD", 1, 2, 24, 8⟩]

/-- `PulseMeshData`; a buffer is its handle with its data. -/
structure MeshData where
  vertexAttributes : List MeshAttribute := []
  verticesCount : UInt32 := 0
  vertexStride : UInt32 := 0
  indexCount : UInt32 := 0
  indexStride : UInt32 := 0
  vertexBuffer : Option (ℕ × ℕ) := none
  indexBuffer : Option (ℕ × ℕ) := none
  prepared : Bool := false
  deriving DecidableEq, Repr

inductive MeshLoadPhase where
  | parse
  | waitBuffers
  deriving DecidableEq, Repr

structure MeshLoadState where
  phase : MeshLoadPhase := .parse
  vbRequest : ℕ := 0
  ibRequest : ℕ := 0
  vertexStride : UInt32 := 0
  deriving DecidableEq, Repr

/-- `PulseGraphicsBufferCreateDesc`, with the data that it points at. -/
structure BufferRequest (α : Type) where
  size : ℕ
  data : List α
  deriving DecidableEq, Repr

/-- What a step asks of the asset system: the requests of the two buffers, which of them are ready, and the handle and
the data of a buffer. -/
structure MeshAnswers where
  vbRequest : ℕ
  ibRequest : ℕ
  isReady : ℕ → Bool
  getHandle : ℕ → ℕ
  borrowBuffer : ℕ → Option ℕ

structure MeshTurn (F : Type) where
  status : LoaderStatus
  error : Option String := none
  state : MeshLoadState
  mesh : MeshData
  vertexBuffer : Option (BufferRequest (MeshTexturedVertex F)) := none
  indexBuffer : Option (BufferRequest UInt32) := none

def stepMeshLoad (answers : MeshAnswers) (loaded : Option (ObjResult F)) (s : MeshLoadState) (mesh : MeshData) :
    Option (MeshTurn F) :=
  match s.phase with
  | .parse =>
    match loaded with
    | none => some { status := .failed, error := some "mesh loader: OBJ parse failed", state := s, mesh := mesh }
    | some obj =>
      (parseObjMesh obj).map fun (verts, indices) =>
        { status := .waitDependencies
          state :=
            { phase := .waitBuffers, vbRequest := answers.vbRequest, ibRequest := answers.ibRequest, vertexStride := 32 }
          mesh :=
            { vertexAttributes := meshAttributes, verticesCount := .ofNat verts.length, vertexStride := 32,
              indexCount := .ofNat indices.length, indexStride := 4 }
          vertexBuffer := some ⟨verts.length * 32, verts⟩
          indexBuffer := some ⟨indices.length * 4, indices⟩ }
  | .waitBuffers =>
    if answers.isReady s.vbRequest = false ∨ answers.isReady s.ibRequest = false then
      some { status := .pending, state := s, mesh := mesh }
    else
      let vbHandle := answers.getHandle s.vbRequest
      let ibHandle := answers.getHandle s.ibRequest
      match answers.borrowBuffer vbHandle, answers.borrowBuffer ibHandle with
      | some vbData, some ibData =>
        some { status := .done, state := s,
               mesh := { mesh with vertexBuffer := some (vbHandle, vbData), indexBuffer := some (ibHandle, ibData),
                                   prepared := true } }
      | _, _ => some { status := .pending, state := s, mesh := mesh }

def reversedCorners (shape : List Face) : List MeshIndex := shape.flatMap fun face => [face.a, face.c, face.b]

def vectorAt (values : List F) (i : ℕ) : Option (MeshVec3 F) := do
  return ⟨(← values[3 * i]?) * -1, ← values[3 * i + 1]?, ← values[3 * i + 2]?⟩

def coordsAt (values : List F) (i : ℕ) : Option (MeshVec2 F) := do
  return ⟨← values[2 * i]?, 1 - (← values[2 * i + 1]?)⟩

/-- The corner that an index triple of a file stands for: its position and, where they are there, its normal and its
texture coordinates. -/
def Attrib.corner (attrib : Attrib F) (idx : MeshIndex) : Option (MeshTexturedVertex F) := do
  let pos ← (if 0 ≤ idx.vertexIndex then vectorAt attrib.vertices idx.vertexIndex.toNat else none)
  let nml ← (if 0 ≤ idx.normalIndex then vectorAt attrib.normals idx.normalIndex.toNat else some ⟨0, 0, 0⟩)
  let tc ← (if 0 ≤ idx.texcoordIndex then coordsAt attrib.texcoords idx.texcoordIndex.toNat else some ⟨0, 0⟩)
  return ⟨pos, nml, tc⟩

structure Imports (attrib : Attrib F) (shape : List Face) (verts : List (MeshTexturedVertex F))
    (indices : List UInt32) : Prop where
  below : ∀ i ∈ indices, i.toNat < verts.length
  corners : indices.map (fun i => verts[i.toNat]?) = (reversedCorners shape).map attrib.corner
  used : ∀ v < verts.length, ∃ i ∈ indices, i.toNat = v
  shared : ∀ (j k : ℕ) (idx : MeshIndex), (reversedCorners shape)[j]? = some idx →
    (reversedCorners shape)[k]? = some idx → indices[j]? = indices[k]?

def ImportsRight (answers : MeshAnswers) (loaded : Option (ObjResult F)) (mesh : MeshData) : Prop :=
  ∃ turn, stepMeshLoad answers loaded {} mesh = some turn ∧ (turn.status = .failed ∨
    ∃ obj verts indices, loaded = some obj ∧ turn.vertexBuffer = some ⟨verts.length * 32, verts⟩ ∧
      turn.indexBuffer = some ⟨indices.length * 4, indices⟩ ∧ turn.mesh.verticesCount.toNat = verts.length ∧
      turn.mesh.indexCount.toNat = indices.length ∧ Imports obj.attrib (obj.shapes.headD []) verts indices)

def Attrib.Covers (attrib : Attrib F) (idx : MeshIndex) : Prop :=
  (0 ≤ idx.vertexIndex ∧ idx.vertexIndex.toNat < attrib.vertices.length / 3) ∧
  (0 ≤ idx.normalIndex → idx.normalIndex.toNat < attrib.normals.length / 3) ∧
  (0 ≤ idx.texcoordIndex → idx.texcoordIndex.toNat < attrib.texcoords.length / 2)

def Importable (loaded : Option (ObjResult F)) : Prop :=
  ∀ obj shape rest, loaded = some obj → obj.shapes = shape :: rest →
    (∀ idx ∈ shapeIndices shape, obj.attrib.Covers idx) ∧ (shapeIndices shape).length < 2 ^ 32

variable {values : List F} {attrib : Attrib F} {idx : MeshIndex} {shape : List Face} {i : ℕ}

lemma vectorAt_isSome_iff : (vectorAt values i).isSome ↔ i < values.length / 3 := by
  unfold vectorAt
  rcases Nat.lt_or_ge i (values.length / 3) with hlt | hge
  · rw [List.getElem?_eq_getElem (by omega), List.getElem?_eq_getElem (by omega), List.getElem?_eq_getElem (by omega)]
    exact iff_of_true rfl hlt
  · have hnone : values[3 * i + 2]? = none := List.getElem?_eq_none (by omega)
    refine iff_of_false ?_ (not_lt.mpr hge)
    rw [hnone]
    cases values[3 * i]? <;> cases values[3 * i + 1]? <;> exact Bool.false_ne_true

lemma coordsAt_isSome_iff : (coordsAt values i).isSome ↔ i < values.length / 2 := by
  unfold coordsAt
  rcases Nat.lt_or_ge i (values.length / 2) with hlt | hge
  · rw [List.getElem?_eq_getElem (by omega), List.getElem?_eq_getElem (by omega)]
    exact iff_of_true rfl hlt
  · have hnone : values[2 * i + 1]? = none := List.getElem?_eq_none (by omega)
    refine iff_of_false ?_ (not_lt.mpr hge)
    rw [hnone]
    cases values[2 * i]? <;> exact Bool.false_ne_true

lemma getElem?_mirroredVectors : (mirroredVectors values)[i]? = vectorAt values i := by
  fun_induction mirroredVectors values generalizing i with
  | case1 x y z rest ih =>
    cases i with
    | zero => rfl
    | succ i =>
      rw [List.getElem?_cons_succ, ih]
      rfl
  | case2 values hshort =>
    have hlength : values.length / 3 = 0 := by
      match values, hshort with
      | [], _ | [_], _ | [_, _], _ => simp
      | x :: y :: z :: rest, hshort => exact (hshort x y z rest rfl).elim
    have hnone : (vectorAt values i).isSome ↔ i < values.length / 3 := vectorAt_isSome_iff
    rw [hlength, iff_false_right (Nat.not_lt_zero i), Option.not_isSome_iff_eq_none] at hnone
    rw [hnone]
    rfl

lemma getElem?_flippedCoords : (flippedCoords values)[i]? = coordsAt values i := by
  fun_induction flippedCoords values generalizing i with
  | case1 u v rest ih =>
    cases i with
    | zero => rfl
    | succ i =>
      rw [List.getElem?_cons_succ, ih]
      rfl
  | case2 values hshort =>
    have hlength : values.length / 2 = 0 := by
      match values, hshort with
      | [], _ | [_], _ => simp
      | u :: v :: rest, hshort => exact (hshort u v rest rfl).elim
    have hnone : (coordsAt values i).isSome ↔ i < values.length / 2 := coordsAt_isSome_iff
    rw [hlength, iff_false_right (Nat.not_lt_zero i), Option.not_isSome_iff_eq_none] at hnone
    rw [hnone]
    rfl

lemma makeVertex_eq : makeVertex attrib idx = attrib.corner idx := by
  unfold makeVertex Attrib.corner readAt
  simp only [getElem?_mirroredVectors, getElem?_flippedCoords, ge_iff_le]
  by_cases hn : 0 ≤ idx.normalIndex <;> by_cases ht : 0 ≤ idx.texcoordIndex <;> simp only [hn, ht, if_true, if_false]

lemma corner_isSome_iff : (attrib.corner idx).isSome ↔ attrib.Covers idx := by
  have hall : ∀ {α β γ δ : Type} (a : Option α) (b : Option β) (c : Option γ) (f : α → β → γ → δ),
      (do return f (← a) (← b) (← c) : Option δ).isSome ↔ a.isSome ∧ b.isSome ∧ c.isSome := by
    intro α β γ δ a b c f
    cases a <;> cases b <;> cases c <;> simp
  have hneeded : ∀ {α : Type} (c : Prop) [Decidable c] (o : Option α),
      (if c then o else none).isSome ↔ c ∧ o.isSome := fun c _ o => by by_cases h : c <;> simp [h]
  have hoptional : ∀ {α : Type} (c : Prop) [Decidable c] (o : Option α) (d : α),
      (if c then o else some d).isSome ↔ (c → o.isSome) := fun c _ o d => by by_cases h : c <;> simp [h]
  unfold Attrib.corner Attrib.Covers
  rw [← vectorAt_isSome_iff, ← vectorAt_isSome_iff, ← coordsAt_isSome_iff, hall, hneeded, hoptional, hoptional]

lemma mem_reversedCorners : idx ∈ reversedCorners shape ↔ idx ∈ shapeIndices shape := by
  unfold reversedCorners shapeIndices
  simp only [List.mem_flatMap, List.mem_cons, List.not_mem_nil, or_false]
  exact exists_congr fun face => and_congr_right fun _ => by tauto

lemma forall₂_swapWinding {α : Type} {R : α → MeshIndex → Prop} : ∀ {shape : List Face} {given : List α},
    List.Forall₂ R given (shapeIndices shape) → List.Forall₂ R (swapWinding given) (reversedCorners shape)
  | [], _, h => by
    cases h
    exact .nil
  | face :: shape, _, h => by
    rw [shapeIndices, List.flatMap_cons] at h
    obtain _ | ⟨ha, _ | ⟨hb, _ | ⟨hc, hrest⟩⟩⟩ := h
    exact .cons ha (.cons hc (.cons hb (forall₂_swapWinding hrest)))

/-- **The vertices and indices of a shape** whose corners can be counted. -/
theorem imports_of_numbered {origins : List MeshIndex} {s : Interning MeshIndex (MeshTexturedVertex F) UInt32}
    (h : Interning.Interned UInt32.ofNat (makeVertex attrib) (shapeIndices shape) origins s)
    (small : (shapeIndices shape).length < 2 ^ 32) : Imports attrib shape s.items (swapWinding s.given) := by
  have hturned := forall₂_swapWinding h.given
  -- fewer corners than there are numbers: a number is the place of its vertex
  have hread : ∀ {i k}, origins[i]? = some k → (UInt32.ofNat i).toNat = i ∧ i < s.items.length := fun {i k} hi => by
    have hlt : i < s.items.length := h.length_items ▸ (List.getElem?_eq_some_iff.mp hi).1
    exact ⟨UInt32.toNat_ofNat_of_lt' (hlt.trans_le (h.length_le.trans small.le)), hlt⟩
  refine ⟨fun n hn => ?_, ?_, fun v hv => ?_, fun j k idx hj hk => ?_⟩
  · obtain ⟨j, hj⟩ := List.getElem?_of_mem hn
    obtain ⟨_, -, i, hi, rfl⟩ := exists_of_forall₂ hturned.flip hj
    rw [(hread hi).1]
    exact (hread hi).2
  · rw [← List.forall₂_eq_eq_eq, List.forall₂_map_left_iff, List.forall₂_map_right_iff]
    refine hturned.imp fun n k ⟨i, hi, hn⟩ => ?_
    rw [hn, (hread hi).1, h.item hi, makeVertex_eq]
  · rw [h.length_items] at hv
    have horigin := List.getElem?_eq_getElem hv
    have hmem := mem_reversedCorners.mpr ((h.mem_iff _).mp (List.mem_of_getElem? horigin))
    obtain ⟨j, hj⟩ := List.getElem?_of_mem hmem
    obtain ⟨n, hn, i, hi, rfl⟩ := exists_of_forall₂ hturned hj
    refine ⟨_, List.mem_of_getElem? hn, ?_⟩
    rw [(hread hi).1]
    exact ((List.getElem?_inj hv h.nodup).mp (horigin.trans hi.symm)).symm
  · obtain ⟨n, hn, i, hi, rfl⟩ := exists_of_forall₂ hturned hj
    obtain ⟨n', hn', i', hi', rfl⟩ := exists_of_forall₂ hturned hk
    have heq : i = i' :=
      (List.getElem?_inj (List.getElem?_eq_some_iff.mp hi).1 h.nodup).mp (hi.trans hi'.symm)
    rw [hn, hn', heq]

lemma parseObjMesh_eq_some {obj : ObjResult F} {rest : List (List Face)} (hshapes : obj.shapes = shape :: rest)
    {verts : List (MeshTexturedVertex F)} {indices : List UInt32} (h : parseObjMesh obj = some (verts, indices)) :
    (∀ idx ∈ shapeIndices shape, obj.attrib.Covers idx) ∧ indices.length = (shapeIndices shape).length ∧
      ∃ origins s, Interning.Interned UInt32.ofNat (makeVertex obj.attrib) (shapeIndices shape) origins s ∧
        s.items = verts ∧ swapWinding s.given = indices := by
  rw [parseObjMesh, hshapes] at h
  obtain ⟨s, hs, heq⟩ := Option.map_eq_some_iff.mp h
  cases heq
  obtain ⟨origins, hnumbered⟩ := Interning.interned_nil.run hs
  rw [List.nil_append] at hnumbered
  refine ⟨fun idx hidx => ?_, ?_, origins, s, hnumbered, rfl, rfl⟩
  · rw [← corner_isSome_iff, ← makeVertex_eq]
    exact Interning.run_isSome_iff.mp ⟨s, hs⟩ idx hidx
  · rw [(forall₂_swapWinding hnumbered.given).length_eq, reversedCorners, shapeIndices]
    simp

lemma parseObjMesh_isSome {obj : ObjResult F} {rest : List (List Face)} (hshapes : obj.shapes = shape :: rest)
    (covers : ∀ idx ∈ shapeIndices shape, obj.attrib.Covers idx) : ∃ parsed, parseObjMesh obj = some parsed := by
  have known : ∀ idx ∈ shapeIndices shape, (makeVertex obj.attrib idx).isSome := fun idx hidx => by
    rw [makeVertex_eq, corner_isSome_iff]
    exact covers idx hidx
  obtain ⟨s, hs⟩ := (Interning.run_isSome_iff (N := UInt32)).mpr known
  exact ⟨_, by rw [parseObjMesh, hshapes]; exact congrArg (Option.map _) hs⟩

/-- **When an import is right**: exactly when no index of the first shape is outside of its array, and the shape has
fewer than `2 ^ 32` corners. -/
theorem importsRight_iff (answers : MeshAnswers) (loaded : Option (ObjResult F)) (mesh : MeshData) :
    ImportsRight answers loaded mesh ↔ Importable loaded := by
  constructor
  · rintro ⟨turn, hturn, hright⟩ obj shape rest rfl hshapes
    obtain ⟨⟨verts, indices⟩, hparse, rfl⟩ := Option.map_eq_some_iff.mp hturn
    obtain ⟨hcovers, hlength, -⟩ := parseObjMesh_eq_some hshapes hparse
    rcases hright with hfailed | ⟨_, _, indices', -, -, hindices, -, hcount, -⟩
    · cases hfailed
    · have hsame : indices = indices' := congrArg BufferRequest.data (Option.some.inj hindices)
      subst hsame
      refine ⟨hcovers, ?_⟩
      rw [← hlength, ← hcount]
      exact UInt32.toNat_lt _
  · intro importable
    cases loaded with
    | none => exact ⟨_, rfl, Or.inl rfl⟩
    | some obj =>
      cases hshapes : obj.shapes with
      | nil =>
        have hparse : parseObjMesh obj = some ([], []) := by rw [parseObjMesh, hshapes]
        refine ⟨_, congrArg (Option.map _) hparse, Or.inr ⟨obj, [], [], rfl, rfl, rfl, rfl, rfl, ?_⟩⟩
        rw [hshapes]
        exact ⟨nofun, rfl, fun v hv => absurd hv (Nat.not_lt_zero v), fun _ _ _ hj => nomatch hj⟩
      | cons shape rest =>
        obtain ⟨hcovers, hsmall⟩ := importable obj shape rest rfl hshapes
        obtain ⟨⟨verts, indices⟩, hparse⟩ := parseObjMesh_isSome hshapes hcovers
        obtain ⟨-, hlength, origins, s, hnumbered, rfl, rfl⟩ := parseObjMesh_eq_some hshapes hparse
        have hverts : s.items.length < 2 ^ 32 := hnumbered.length_le.trans_lt hsmall
        refine ⟨_, congrArg (Option.map _) hparse, Or.inr ⟨obj, _, _, rfl, rfl, rfl, ?_, ?_, ?_⟩⟩
        · exact UInt32.toNat_ofNat_of_lt' hverts
        · exact UInt32.toNat_ofNat_of_lt' (hlength ▸ hsmall)
        · rw [hshapes]
          exact imports_of_numbered hnumbered hsmall

def danglingFace : ObjResult ℤ where
  attrib := ⟨[0, 0, 0, 1, 0, 0, 0, 1, 0], [], []⟩
  shapes := [[⟨⟨0, -1, -1⟩, ⟨1, -1, -1⟩, ⟨3, -1, -1⟩⟩]]

/-- A face that reads behind the end of the positions. -/
theorem not_importsRight :
    ¬ ∀ (answers : MeshAnswers) (loaded : Option (ObjResult ℤ)) (mesh : MeshData), ImportsRight answers loaded mesh := by
  intro h
  obtain ⟨turn, hturn, -⟩ := h ⟨1, 2, fun _ => false, id, some⟩ (some danglingFace) {}
  have hnone : parseObjMesh danglingFace = none := by decide +kernel
  simp only [stepMeshLoad, hnone, Option.map_none] at hturn
  cases hturn

end PulseEngine.Loader
