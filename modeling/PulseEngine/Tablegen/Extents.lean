import PulseEngine.Datatable.Layout
import PulseEngine.Tablegen.Emitted

/-!
# The layout that is generated

`compute_layouts` of `tools/tablegen/validate.cpp`, and what `codegen.cpp` takes from it for the
descriptors of a table. A map of the source is a list of its entries here, of which the last one
that was written comes first.
-/

namespace PulseEngine.Tablegen

open Datalist Datatable PulseEngine.Library

structure StructLayout where
  extent : Extent
  offsets : List (Text × Nat)
deriving DecidableEq, Repr

structure LayoutSet where
  structs : List (Text × StructLayout)
  tableRows : List (Text × Nat)
  tableAligns : List (Text × Nat)
  tableKeys : List (Text × Nat)
deriving DecidableEq, Repr

def scalarLayout : FieldType → Option Extent
  | .int | .float | .ref => some ⟨8, 8⟩
  | .bool => some ⟨1, 1⟩
  | .string => some ⟨16, 8⟩
  | .named _ => none

variable {δ : Type}

section Compute

variable (lib : Library δ)

def structFieldLayout (layout : LayoutSet → Schema δ → Except (List String) LayoutSet)
    (out : LayoutSet) (field : Field δ) : Except (List String) (LayoutSet × Extent) :=
  match scalarLayout field.type with
  | some extent => .ok (out, extent)
  | none =>
    match lib.typeOf field with
    | none => .error []
    | some nested =>
      if nested.kind = .enum then .ok (out, ⟨16, 8⟩)
      else do
        let out ← layout out nested
        return (out, ((out.structs.lookup nested.name).map (·.extent)).getD ⟨0, 1⟩)

structure Laying where
  out : LayoutSet
  frame : Frame
  offsets : List (Text × Nat)
  keyOffset : Nat

def layField (layout : LayoutSet → Schema δ → Except (List String) LayoutSet) (laying : Laying)
    (field : Field δ) : Except (List String) Laying := do
  let (out, extent) ← structFieldLayout lib layout laying.out field
  let offset := laying.frame.offset (2 ^ 32) extent
  return ⟨out, laying.frame.next (2 ^ 32) extent, (field.name, offset) :: laying.offsets,
    if field.isKey then offset else laying.keyOffset⟩

/-- `compute_struct_layout`. The stack holds different names of schemas, so that it gets no deeper
than there are schemas. -/
def computeStructLayout : Nat → List Text → LayoutSet → Schema δ → Except (List String) LayoutSet
  | rest, stack, out, schema =>
    if (out.structs.lookup schema.name).isSome then .ok out
    else if schema.name ∈ stack then
      .error [String.ofList schema.path ++ ": struct " ++ quoted schema.name ++ " nests itself"]
    else
      match rest with
      | 0 => .error []
      | rest + 1 => do
        let laying ← schema.fields.foldlM
          (layField lib (computeStructLayout rest (schema.name :: stack))) ⟨out, Frame.init, [], 0⟩
        return { laying.out with
          structs := (schema.name, ⟨laying.frame.extent (2 ^ 32), laying.offsets⟩) ::
            laying.out.structs }

def layTableField (schema : Schema δ) (laying : Laying) (field : Field δ) :
    Except (List String) Laying :=
  match layField lib (computeStructLayout lib (lib.schemas.length + 1) []) laying field with
  | .ok laying => .ok laying
  | .error errors => .error (errors ++
      [String.ofList schema.path ++ ": field " ++ quoted field.name ++ " cannot be laid out"])

def layoutOne (out : LayoutSet) (schema : Schema δ) : Except (List String) LayoutSet :=
  match schema.kind with
  | .enum => .ok out
  | .struct => computeStructLayout lib (lib.schemas.length + 1) [] out schema
  | .table => do
    let laying ← schema.fields.foldlM (layTableField lib schema) ⟨out, Frame.init, [], 0⟩
    return { laying.out with
      tableRows := (schema.name, (laying.frame.extent (2 ^ 32)).size) :: laying.out.tableRows
      tableAligns := (schema.name, laying.frame.align) :: laying.out.tableAligns
      tableKeys := (schema.name, laying.keyOffset) :: laying.out.tableKeys }

def computeLayouts : Except (List String) LayoutSet :=
  lib.schemas.foldlM (layoutOne lib) ⟨[], [], [], []⟩

def fieldSizeAlign (out : LayoutSet) (field : Field δ) : Option Extent :=
  match scalarLayout field.type with
  | some extent => some extent
  | none => do
    let nested ← lib.typeOf field
    if nested.kind = .enum then some ⟨16, 8⟩
    else (out.structs.lookup nested.name).map (·.extent)

/-- What `collect_scopes` takes from the layout of a struct, and `emit_struct_descriptors` emits. -/
def emittedLayout (out : LayoutSet) (schema : Schema δ) : Option TypeLayout := do
  let layout ← out.structs.lookup schema.name
  let offsets ← schema.fields.mapM fun field => layout.offsets.lookup field.name
  return ⟨layout.extent, offsets⟩

/-- The bytes in the descriptors of a table: those of `build_plan` for the row, and those of the
structs in the order of their scopes. -/
def generatedLayout (out : LayoutSet) (table : Schema δ) : Option SchemaLayout := do
  let extents ← table.fields.mapM (fieldSizeAlign lib out)
  let structs ← ((structOrder lib table).filterMap lib.find).mapM (emittedLayout out)
  let align ← out.tableAligns.lookup table.name
  return ⟨structs, offsets (2 ^ 32) Frame.init extents, align⟩

end Compute

end PulseEngine.Tablegen

/-!
## The extents of structs

The extent of a struct follows from the extents of its fields (`extent_eq`). `compute_layouts` comes
to the end for a library that validates, and what it writes down are these extents
(`computeLayouts_right`).
-/

namespace PulseEngine.Tablegen

open Datalist Datatable PulseEngine.Library

variable {δ : Type} {lib : Library δ} {schema nested table : Schema δ} {field : Field δ}
  {fields : List (Field δ)} {out out' : LayoutSet} {depth rest : Nat} {stack : List Text}

def fieldExtent (lib : Library δ) (structs : Schema δ → Extent) (field : Field δ) : Extent :=
  match scalarLayout field.type with
  | some extent => extent
  | none =>
    match lib.structOf field with
    | some nested => structs nested
    | none => ⟨16, 8⟩

def structExtent (lib : Library δ) : Nat → Schema δ → Extent
  | 0, _ => ⟨0, 1⟩
  | depth + 1, schema =>
    recordExtent (2 ^ 32) (schema.fields.map (fieldExtent lib (structExtent lib depth)))

def Library.extent (lib : Library δ) (schema : Schema δ) : Extent :=
  structExtent lib (lib.schemas.length + 1) schema

def Library.extents (lib : Library δ) (schema : Schema δ) : List Extent :=
  schema.fields.map (fieldExtent lib lib.extent)

def Library.layout (lib : Library δ) (schema : Schema δ) : TypeLayout :=
  ⟨recordExtent (2 ^ 32) (lib.extents schema), offsets (2 ^ 32) Frame.init (lib.extents schema)⟩

lemma fieldExtent_congr {structs structs' : Schema δ → Extent}
    (h : ∀ nested, lib.structOf field = some nested → structs nested = structs' nested) :
    fieldExtent lib structs field = fieldExtent lib structs' field := by
  unfold fieldExtent
  cases scalarLayout field.type with
  | some extent => rfl
  | none =>
    cases hs : lib.structOf field with
    | none => rfl
    | some nested => exact h nested hs

lemma structExtent_stable (h : NestsFields lib depth schema.fields) {depth' : Nat}
    (hlt : depth < depth') : structExtent lib depth' schema = structExtent lib (depth + 1) schema := by
  induction depth generalizing schema depth' with
  | zero =>
    obtain ⟨depth', rfl⟩ := Nat.exists_eq_add_of_lt hlt
    refine congrArg _ (List.map_congr_left fun field hf => fieldExtent_congr fun nested hs => ?_)
    exact nomatch (h field hf).symm.trans hs
  | succ depth ih =>
    obtain ⟨depth', rfl⟩ : ∃ d, depth' = d + 1 := ⟨depth' - 1, by omega⟩
    refine congrArg _ (List.map_congr_left fun field hf => fieldExtent_congr fun nested hs => ?_)
    exact ih (h field hf nested hs) (Nat.lt_of_succ_lt_succ hlt)

lemma Library.Sound.extent_eq (sound : lib.Sound) (hs : schema ∈ lib.schemas)
    (hk : schema.kind ≠ .enum) :
    lib.extent schema = recordExtent (2 ^ 32) (lib.extents schema) := by
  have hnests := sound.nests hs hk
  refine congrArg _ (List.map_congr_left fun field hf => fieldExtent_congr fun nested hn => ?_)
  cases hlen : lib.schemas.length with
  | zero =>
    rw [hlen] at hnests
    exact nomatch (hnests field hf).symm.trans hn
  | succ n =>
    rw [hlen] at hnests
    have hnested := hnests field hf nested hn
    rw [Library.extent, hlen]
    exact (structExtent_stable hnested (by omega)).symm

def Right (lib : Library δ) (out : LayoutSet) : Prop :=
  ∀ name layout, out.structs.lookup name = some layout → ∃ schema, lib.find name = some schema ∧
    schema.kind = .struct ∧ layout = ⟨(lib.layout schema).extent,
      ((schema.fields.map (·.name)).zip (lib.layout schema).offsets).reverse⟩

structure Extends (out out' : LayoutSet) : Prop where
  structs : ∀ name layout, out.structs.lookup name = some layout →
    out'.structs.lookup name = some layout
  rows : out'.tableRows = out.tableRows
  aligns : out'.tableAligns = out.tableAligns

lemma Extends.refl (out : LayoutSet) : Extends out out := ⟨fun _ _ => id, rfl, rfl⟩

lemma Extends.trans {out₁ out₂ out₃ : LayoutSet} (h : Extends out₁ out₂) (h' : Extends out₂ out₃) :
    Extends out₁ out₃ :=
  ⟨fun name layout hl => h'.structs name layout (h.structs name layout hl),
    h'.rows.trans h.rows, h'.aligns.trans h.aligns⟩

structure Computed (lib : Library δ) (out : LayoutSet) (result : Except (List String) LayoutSet)
    (out' : LayoutSet) (schema : Schema δ) : Prop where
  ok : result = .ok out'
  right : Right lib out'
  extends' : Extends out out'
  there : (out'.structs.lookup schema.name).isSome

lemma Right.extent (h : Right lib out) (hfind : lib.find schema.name = some schema)
    (there : (out.structs.lookup schema.name).isSome) :
    ((out.structs.lookup schema.name).map (·.extent)) = some (lib.layout schema).extent := by
  obtain ⟨layout, hlayout⟩ := Option.isSome_iff_exists.mp there
  obtain ⟨schema', hfind', -, rfl⟩ := h _ _ hlayout
  obtain rfl : schema = schema' := Option.some.inj (hfind.symm.trans hfind')
  rw [hlayout]
  rfl

lemma Field.Sound.typeOf (sound : field.Sound lib) (hs : scalarLayout field.type = none) :
    ∃ named, lib.typeOf field = some named ∧
      ((named.kind = .enum ∧ lib.structOf field = none) ∨
        (named.kind = .struct ∧ lib.structOf field = some named)) := by
  cases ht : field.type with
  | named name =>
    rcases sound.named name ht with hsome | hsome
    · obtain ⟨nested, hn⟩ := Option.isSome_iff_exists.mp hsome
      obtain ⟨name', ht', hfind, hkind⟩ := Library.structOf_eq_some.mp hn
      refine ⟨nested, ?_, .inr ⟨hkind, hn⟩⟩
      rw [Library.typeOf, ht']
      exact hfind
    · obtain ⟨nested, hn⟩ := Option.isSome_iff_exists.mp hsome
      obtain ⟨name', ht', hfind, hkind⟩ := Library.enumOf_eq_some.mp hn
      refine ⟨nested, ?_, .inl ⟨hkind, Library.structOf_of_enumOf hn⟩⟩
      rw [Library.typeOf, ht']
      exact hfind
  | int | float | bool | string | ref =>
    rw [ht] at hs
    cases hs

section Loop

variable {layout : LayoutSet → Schema δ → Except (List String) LayoutSet}

lemma structFieldLayout_right (hlib : lib.Sound) (sound : field.Sound lib)
    (hlayout : ∀ out nested, Right lib out → lib.structOf field = some nested →
      ∃ out', Computed lib out (layout out nested) out' nested) (right : Right lib out) :
    ∃ out', structFieldLayout lib layout out field = .ok (out', fieldExtent lib lib.extent field) ∧
      Right lib out' ∧ Extends out out' ∧
        ∀ nested, lib.structOf field = some nested → (out'.structs.lookup nested.name).isSome := by
  unfold structFieldLayout fieldExtent
  cases hs : scalarLayout field.type with
  | some extent =>
    refine ⟨out, rfl, right, .refl out, fun nested hn => ?_⟩
    obtain ⟨name, ht, -⟩ := Library.structOf_eq_some.mp hn
    rw [ht] at hs
    exact nomatch hs
  | none =>
    obtain ⟨named, htype, ⟨hkind, hnone⟩ | ⟨hkind, hn⟩⟩ := sound.typeOf hs
    · rw [htype, hnone]
      dsimp only
      rw [if_pos hkind]
      exact ⟨out, rfl, right, .refl out, nofun⟩
    · obtain ⟨out', hok, hright, hextends, hthere⟩ := hlayout out named right hn
      rw [htype, hn]
      dsimp only
      rw [if_neg (by simp [hkind]), hok]
      refine ⟨out', ?_, hright, hextends, fun nested hn' => Option.some.inj hn' ▸ hthere⟩
      have hextent := hright.extent (Library.find_name_of_structOf hn) hthere
      have hmem := Library.mem_of_structOf hn
      rw [hlib.extent_eq hmem.1 (by simp [hkind])]
      change Except.ok (out', _) = _
      rw [hextent]
      rfl

structure Loop (lib : Library δ) (fields : List (Field δ)) (laying laying' : Laying) : Prop where
  frame : laying'.frame =
    place (2 ^ 32) laying.frame (fields.map (fieldExtent lib lib.extent))
  offsets : laying'.offsets = ((fields.map (·.name)).zip (offsets (2 ^ 32) laying.frame
    (fields.map (fieldExtent lib lib.extent)))).reverse ++ laying.offsets
  right : Right lib laying'.out
  extends' : Extends laying.out laying'.out
  there : ∀ field ∈ fields, ∀ nested, lib.structOf field = some nested →
    (laying'.out.structs.lookup nested.name).isSome

lemma loop_right {turn : Laying → Field δ → Except (List String) Laying} (laying : Laying)
    (hturn : ∀ laying, ∀ field ∈ fields, Right lib laying.out →
      ∃ laying', turn laying field = .ok laying' ∧ Loop lib [field] laying laying')
    (right : Right lib laying.out) :
    ∃ laying', fields.foldlM turn laying = .ok laying' ∧ Loop lib fields laying laying' := by
  induction fields generalizing laying with
  | nil => exact ⟨laying, rfl, rfl, rfl, right, .refl _, nofun⟩
  | cons field fields ih =>
    obtain ⟨laying₁, hone, hloop₁⟩ := hturn laying field List.mem_cons_self right
    obtain ⟨laying', hrest, hloop⟩ :=
      ih laying₁ (fun laying f hf => hturn laying f (List.mem_cons_of_mem _ hf)) hloop₁.right
    refine ⟨laying', ?_, ?_, ?_, hloop.right, hloop₁.extends'.trans hloop.extends', ?_⟩
    · rw [List.foldlM_cons, hone]
      exact hrest
    · rw [hloop.frame, hloop₁.frame]
      rfl
    · rw [hloop.offsets, hloop₁.offsets, hloop₁.frame]
      simp [PulseEngine.Library.offsets, place]
    · intro f hf nested hn
      rcases List.mem_cons.mp hf with rfl | hf
      · have hthere := hloop₁.there f (List.mem_singleton_self f) nested hn
        obtain ⟨layout, hl⟩ := Option.isSome_iff_exists.mp hthere
        rw [hloop.extends'.structs _ _ hl]
        rfl
      · exact hloop.there f hf nested hn

lemma layField_right (hlib : lib.Sound) (sound : field.Sound lib)
    (hlayout : ∀ out nested, Right lib out → lib.structOf field = some nested →
      ∃ out', Computed lib out (layout out nested) out' nested) {laying : Laying}
    (right : Right lib laying.out) :
    ∃ laying', layField lib layout laying field = .ok laying' ∧ Loop lib [field] laying laying' := by
  obtain ⟨out', hok, hright, hextends, hthere⟩ := structFieldLayout_right hlib sound hlayout right
  have hturn : layField lib layout laying field =
      .ok ⟨out', laying.frame.next (2 ^ 32) (fieldExtent lib lib.extent field),
        (field.name, laying.frame.offset (2 ^ 32) (fieldExtent lib lib.extent field)) ::
          laying.offsets,
        if field.isKey then laying.frame.offset (2 ^ 32) (fieldExtent lib lib.extent field)
        else laying.keyOffset⟩ := by
    rw [layField, hok]
    rfl
  refine ⟨_, hturn, ?_⟩
  · refine ⟨rfl, rfl, hright, hextends, fun f hf nested hn => ?_⟩
    obtain rfl := List.mem_singleton.mp hf
    exact hthere nested hn

end Loop

/-- **`compute_struct_layout`.** A struct that `visit_struct` does not complain about is laid out. -/
lemma computeStructLayout_right (hlib : lib.Sound) (hfind : lib.find schema.name = some schema)
    (hk : schema.kind = .struct) (hvisit : visitStruct lib rest stack schema = [])
    (right : Right lib out) :
    ∃ out', Computed lib out (computeStructLayout lib rest stack out schema) out' schema := by
  induction rest generalizing stack out schema with
  | zero => simp [visitStruct] at hvisit
  | succ rest ih =>
    have hkind : schema.kind ≠ .enum := by simp [hk]
    have hm := Library.mem_of_find hfind
    obtain ⟨hstack, hbelow⟩ := (visitStruct_succ hkind).mp hvisit
    rw [computeStructLayout]
    split
    next hthere => exact ⟨out, rfl, right, .refl out, hthere⟩
    next hnot =>
      have hturn : ∀ laying : Laying, ∀ field ∈ schema.fields, Right lib laying.out →
          ∃ laying', layField lib (computeStructLayout lib rest (schema.name :: stack)) laying
            field = .ok laying' ∧ Loop lib [field] laying laying' := by
        intro laying field hf hright
        refine layField_right hlib (hlib.fields schema hm hkind field hf) ?_ hright
        intro out nested hright hn
        exact ih (Library.find_name_of_structOf hn) (Library.mem_of_structOf hn).2
          (hbelow field hf nested hn) hright
      obtain ⟨laying, hok, hloop⟩ := loop_right ⟨out, Frame.init, [], 0⟩ hturn right
      have hframe : (schema.name, (⟨laying.frame.extent (2 ^ 32), laying.offsets⟩ : StructLayout)) =
          (schema.name, ⟨(lib.layout schema).extent,
            ((schema.fields.map (·.name)).zip (lib.layout schema).offsets).reverse⟩) := by
        rw [hloop.frame, hloop.offsets, List.append_nil]
        rfl
      have hlookup : ∀ name layout, List.lookup name ((schema.name,
          (⟨laying.frame.extent (2 ^ 32), laying.offsets⟩ : StructLayout)) :: laying.out.structs) =
          some layout ↔ (name = schema.name ∧ layout = ⟨(lib.layout schema).extent,
            ((schema.fields.map (·.name)).zip (lib.layout schema).offsets).reverse⟩) ∨
          (name ≠ schema.name ∧ laying.out.structs.lookup name = some layout) := by
        intro name layout
        rw [hframe, List.lookup_cons]
        cases hname : name == schema.name with
        | true =>
          have heq : name = schema.name := by simpa using hname
          simp only [heq, ne_eq, not_true_eq_false, false_and, or_false, true_and]
          exact ⟨fun h => (Option.some.inj h).symm, fun h => congrArg some h.symm⟩
        | false =>
          have hne : name ≠ schema.name := by simpa using hname
          simp only [hne, ne_eq, not_false_eq_true, false_and, false_or, true_and]
      refine ⟨{ laying.out with structs := (schema.name, ⟨laying.frame.extent (2 ^ 32),
        laying.offsets⟩) :: laying.out.structs }, ?_, ?_, ⟨?_, hloop.extends'.rows,
          hloop.extends'.aligns⟩, ?_⟩
      · rw [hok]
        rfl
      · intro name layout hl
        obtain ⟨rfl, rfl⟩ | ⟨-, hl⟩ := (hlookup name layout).mp hl
        · exact ⟨schema, hfind, hk, rfl⟩
        · exact hloop.right name layout hl
      · intro name layout hl
        refine (hlookup name layout).mpr ?_
        have hl' := hloop.extends'.structs name layout hl
        by_cases hname : name = schema.name
        · -- what was written down about the struct before is the same
          subst hname
          obtain ⟨schema', hfind', -, rfl⟩ := right _ _ hl
          obtain rfl : schema = schema' := Option.some.inj (hfind.symm.trans hfind')
          exact .inl ⟨rfl, rfl⟩
        · exact .inr ⟨hname, hl'⟩
      · exact Option.isSome_iff_exists.mpr ⟨_, (hlookup _ _).mpr (.inl ⟨rfl, rfl⟩)⟩

/-- What `load_library` gives: no two schemas have one name, and no two fields of a schema, which are
the keys of a map. -/
structure Library.Loaded (lib : Library δ) : Prop where
  names : (lib.schemas.map (·.name)).Nodup
  fields : ∀ schema ∈ lib.schemas, (schema.fields.map (·.name)).Nodup

lemma Library.Loaded.find (loaded : lib.Loaded) (hs : schema ∈ lib.schemas) :
    lib.find schema.name = some schema := by
  refine find_of_unique hs (by simp) fun other ho hname => ?_
  exact List.inj_on_of_nodup_map loaded.names ho hs (by simpa using hname)

structure One (lib : Library δ) (out out' : LayoutSet) (schema : Schema δ) : Prop where
  right : Right lib out'
  structs : ∀ name layout, out.structs.lookup name = some layout →
    out'.structs.lookup name = some layout
  struct : schema.kind = .struct → (out'.structs.lookup schema.name).isSome
  table : schema.kind = .table →
    out'.tableRows.lookup schema.name = some (lib.layout schema).extent.size ∧
      out'.tableAligns.lookup schema.name = some (lib.layout schema).extent.align
  others : ∀ name ≠ schema.name, out'.tableRows.lookup name = out.tableRows.lookup name ∧
    out'.tableAligns.lookup name = out.tableAligns.lookup name

lemma layoutOne_right (hlib : lib.Sound) (loaded : lib.Loaded) (hs : schema ∈ lib.schemas)
    (right : Right lib out) :
    ∃ out', layoutOne lib out schema = .ok out' ∧ One lib out out' schema := by
  have hcompute : ∀ (out : LayoutSet) (struct : Schema δ), struct ∈ lib.schemas →
      struct.kind = .struct → Right lib out → ∃ out', Computed lib out
        (computeStructLayout lib (lib.schemas.length + 1) [] out struct) out' struct :=
    fun out struct hm hk hright => computeStructLayout_right hlib (loaded.find hm) hk
      (hlib.visits struct hm (by simp [hk])) hright
  rw [layoutOne]
  cases hk : schema.kind with
  | enum =>
    refine ⟨out, rfl, right, fun _ _ => id, fun hstruct => ?_, fun htable => ?_,
      fun _ _ => ⟨rfl, rfl⟩⟩
    · exact nomatch hk.symm.trans hstruct
    · exact nomatch hk.symm.trans htable
  | struct =>
    obtain ⟨out', hok, hright, hextends, hthere⟩ := hcompute out schema hs hk right
    refine ⟨out', hok, hright, hextends.structs, fun _ => hthere, ?_, fun name _ => ?_⟩
    · intro htable
      exact nomatch hk.symm.trans htable
    · rw [hextends.rows, hextends.aligns]
      exact ⟨rfl, rfl⟩
  | table =>
    have hturn : ∀ laying : Laying, ∀ field ∈ schema.fields, Right lib laying.out →
        ∃ laying', layTableField lib schema laying field = .ok laying' ∧
          Loop lib [field] laying laying' := by
      intro laying field hf hright
      obtain ⟨laying', hok, hloop⟩ :=
        layField_right hlib (hlib.fields schema hs (by simp [hk]) field hf)
          (fun out nested hright hn => hcompute out nested (Library.mem_of_structOf hn).1
            (Library.mem_of_structOf hn).2 hright) hright
      refine ⟨laying', ?_, hloop⟩
      rw [layTableField, hok]
    obtain ⟨laying, hok, hloop⟩ := loop_right ⟨out, Frame.init, [], 0⟩ hturn right
    refine ⟨{ laying.out with
      tableRows := (schema.name, (laying.frame.extent (2 ^ 32)).size) :: laying.out.tableRows
      tableAligns := (schema.name, laying.frame.align) :: laying.out.tableAligns
      tableKeys := (schema.name, laying.keyOffset) :: laying.out.tableKeys }, ?_, hloop.right,
      hloop.extends'.structs, ?_, ?_, ?_⟩
    · dsimp only
      rw [hok]
      rfl
    · intro hstruct
      exact nomatch hk.symm.trans hstruct
    · intro _
      rw [hloop.frame]
      exact ⟨List.lookup_cons_self, List.lookup_cons_self⟩
    · intro name hne
      have hbeq : (name == schema.name) = false := by simpa using hne
      dsimp only
      rw [List.lookup_cons, List.lookup_cons, hbeq, hloop.extends'.rows, hloop.extends'.aligns]
      exact ⟨rfl, rfl⟩

/-- **`compute_layouts`.** It comes to the end, and what it writes down is right. -/
theorem computeLayouts_right (hlib : lib.Sound) (loaded : lib.Loaded) :
    ∃ out, computeLayouts lib = .ok out ∧ Right lib out ∧
      (∀ schema ∈ lib.schemas, schema.kind = .struct →
        (out.structs.lookup schema.name).isSome) ∧
      ∀ schema ∈ lib.schemas, schema.kind = .table →
        out.tableRows.lookup schema.name = some (lib.layout schema).extent.size ∧
          out.tableAligns.lookup schema.name = some (lib.layout schema).extent.align := by
  have hloop : ∀ (schemas : List (Schema δ)) (out : LayoutSet), schemas ⊆ lib.schemas →
      (schemas.map (·.name)).Nodup → Right lib out → ∃ out',
        schemas.foldlM (layoutOne lib) out = .ok out' ∧ Right lib out' ∧
        (∀ name layout, out.structs.lookup name = some layout →
          out'.structs.lookup name = some layout) ∧
        (∀ schema ∈ schemas, schema.kind = .struct →
          (out'.structs.lookup schema.name).isSome) ∧
        (∀ schema ∈ schemas, schema.kind = .table →
          out'.tableRows.lookup schema.name = some (lib.layout schema).extent.size ∧
            out'.tableAligns.lookup schema.name = some (lib.layout schema).extent.align) ∧
        ∀ name ∉ schemas.map (·.name),
          out'.tableRows.lookup name = out.tableRows.lookup name ∧
            out'.tableAligns.lookup name = out.tableAligns.lookup name := by
    intro schemas
    induction schemas with
    | nil =>
      exact fun out _ _ right => ⟨out, rfl, right, fun _ _ => id, nofun, nofun,
        fun _ _ => ⟨rfl, rfl⟩⟩
    | cons schema schemas ih =>
      intro out hsub hnodup right
      obtain ⟨hs, hsub⟩ := List.cons_subset.mp hsub
      obtain ⟨hnot, hnodup⟩ := List.nodup_cons.mp hnodup
      obtain ⟨out₁, hok₁, hone⟩ := layoutOne_right hlib loaded hs right
      obtain ⟨out', hok, hright, hstructs, hstruct, htable, hothers⟩ :=
        ih out₁ hsub hnodup hone.right
      refine ⟨out', ?_, hright, ?_, ?_, ?_, ?_⟩
      · rw [List.foldlM_cons, hok₁]
        exact hok
      · exact fun name layout hl => hstructs name layout (hone.structs name layout hl)
      · intro other ho hk
        rcases List.mem_cons.mp ho with rfl | ho
        · obtain ⟨layout, hl⟩ := Option.isSome_iff_exists.mp (hone.struct hk)
          rw [hstructs _ _ hl]
          rfl
        · exact hstruct other ho hk
      · intro other ho hk
        rcases List.mem_cons.mp ho with rfl | ho
        · -- no later schema has the name
          rw [(hothers _ hnot).1, (hothers _ hnot).2]
          exact hone.table hk
        · exact htable other ho hk
      · intro name hn
        obtain ⟨hne, hn⟩ := not_or.mp (fun h => hn (List.mem_cons.mpr h))
        rw [(hothers name hn).1, (hothers name hn).2]
        exact hone.others name hne
  obtain ⟨out, hok, hright, -, hstruct, htable, -⟩ :=
    hloop lib.schemas ⟨[], [], [], []⟩ (List.Subset.refl _) loaded.names nofun
  exact ⟨out, hok, hright, hstruct, htable⟩

end PulseEngine.Tablegen
