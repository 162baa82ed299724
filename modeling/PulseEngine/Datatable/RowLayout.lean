import PulseEngine.Datatable.Register

/-!
# Where the columns of a row lie

The offsets that `register_schema` writes, and `table_row_size`, count in `uint32_t`. The struct types
of a schema can double their size with every level, so the numbers come round at 32 levels already.
The layout of a registered schema is safe if and only if the sizes, counted without a bound, fit.
-/

namespace PulseEngine.Datatable

open Datalist Library

variable {δ : Type}

section Safe

variable (schema : SchemaDesc δ) (layouts : List TypeLayout)

def exactExtent : Nat → ColumnDesc δ → Extent
  | 0, column => columnExtent schema [] column
  | depth + 1, column =>
    match column.type, schema.structOf column with
    | .struct, some type => recordExtent 0 (type.columns.map (exactExtent depth))
    | _, _ => columnExtent schema [] column

/-- The row and every struct type fit into `uint32_t`, rounding included. -/
def SizesFit : Prop :=
  Fits (2 ^ 32) Frame.init (schema.columns.map (exactExtent schema schema.structs.length)) ∧
    ∀ type ∈ schema.structs,
      Fits (2 ^ 32) Frame.init (type.columns.map (exactExtent schema schema.structs.length))

/-- The column that the indices lead to, from one struct type into the next, and its offset from the
beginning, as `fill_columns` adds it up. -/
def locate : List Nat → List (ColumnDesc δ) → List Nat → Option (Nat × ColumnDesc δ)
  | [], _, _ => none
  | k :: path, columns, offsets =>
    match columns[k]?, offsets[k]? with
    | some column, some offset =>
      if path = [] then some (offset, column)
      else if column.type = .struct then
        match schema.structOf column, typeLayout schema layouts (column.structType.getD []) with
        | some type, some layout =>
          (locate path type.columns layout.offsets).map fun cell => (offset + cell.1, cell.2)
        | _, _ => none
      else none
    | _, _ => none

def cellExtent (cell : Nat × ColumnDesc δ) : Extent := columnExtent schema layouts cell.2

/-- Columns with these offsets lie well in every one of the records that follow each other. Two columns
share bytes only if one is inside the other. -/
structure Placed (columns : List (ColumnDesc δ)) (offsets : List Nat) (extent : Extent) : Prop where
  aligned : ∀ (path : List Nat) (cell : Nat × ColumnDesc δ),
    locate schema layouts path columns offsets = some cell →
      ∀ row, (cellExtent schema layouts cell).align ∣ row * extent.size + cell.1
  inside : ∀ (path : List Nat) (cell : Nat × ColumnDesc δ),
    locate schema layouts path columns offsets = some cell →
      cell.1 + (cellExtent schema layouts cell).size ≤ extent.size
  apart : ∀ (path path' : List Nat) (cell cell' : Nat × ColumnDesc δ),
    locate schema layouts path columns offsets = some cell →
    locate schema layouts path' columns offsets = some cell' →
    ¬ path <+: path' → ¬ path' <+: path →
      cell.1 + (cellExtent schema layouts cell).size ≤ cell'.1 ∨
        cell'.1 + (cellExtent schema layouts cell').size ≤ cell.1

/-- The layout of a stored schema: no number comes round, and the columns lie well in the rows and in
the struct types. A table has fewer than `2 ^ 32` rows, and its length is a `size_t`. -/
structure LayoutSafe (stored : OwnedSchema δ) : Prop where
  row : Unwrapped (2 ^ 32) Frame.init
    (columnExtents stored.desc stored.layout.structs stored.desc.columns)
  types : ∀ type ∈ stored.desc.structs, Unwrapped (2 ^ 32) Frame.init
    (columnExtents stored.desc stored.layout.structs type.columns)
  placed : Placed stored.desc stored.layout.structs stored.desc.columns stored.layout.offsets
    ⟨tableRowSize stored.desc stored.layout.structs, stored.layout.align⟩
  placedTypes : ∀ (i : Nat) (type : StructDesc δ) (layout : TypeLayout),
    stored.desc.structs[i]? = some type → stored.layout.structs[i]? = some layout →
      Placed stored.desc stored.layout.structs type.columns layout.offsets layout.extent
  buffer : ∀ rows < 2 ^ 32, tableRowSize stored.desc stored.layout.structs * rows < 2 ^ 64

end Safe

variable {schema : SchemaDesc δ} {layouts : List TypeLayout}

def layoutOf (schema : SchemaDesc δ) (layouts : List TypeLayout) (columns : List (ColumnDesc δ)) :
    TypeLayout where
  extent := recordExtent (2 ^ 32) (columnExtents schema layouts columns)
  offsets := offsets (2 ^ 32) Frame.init (columnExtents schema layouts columns)

def Ready (schema : SchemaDesc δ) (layouts : List TypeLayout) (columns : List (ColumnDesc δ)) : Prop :=
  ∀ column ∈ columns, column.type = .struct → ∃ i layout,
    schema.structs.findIdx? (fun desc => some desc.name = column.structType) = some i ∧
      layouts[i]? = some layout ∧ 0 < layout.extent.size

def Extends (layouts layouts' : List TypeLayout) : Prop :=
  ∀ (i : Nat) (layout : TypeLayout), layouts[i]? = some layout → 0 < layout.extent.size →
    layouts'[i]? = some layout

structure Filled (schema : SchemaDesc δ) (layouts : List TypeLayout) : Prop where
  length : layouts.length = schema.structs.length
  filled : ∀ (i : Nat) (desc : StructDesc δ) (layout : TypeLayout), schema.structs[i]? = some desc →
    layouts[i]? = some layout → 0 < layout.extent.size →
      Ready schema layouts desc.columns ∧ layout = layoutOf schema layouts desc.columns

lemma Extends.refl (layouts : List TypeLayout) : Extends layouts layouts := fun _ _ h _ => h

lemma Extends.trans {layouts layouts₁ layouts₂ : List TypeLayout} (h₁ : Extends layouts layouts₁)
    (h₂ : Extends layouts₁ layouts₂) : Extends layouts layouts₂ :=
  fun i layout h pos => h₂ i layout (h₁ i layout h pos) pos

lemma typeLayout_eq {column : ColumnDesc δ} {i : Nat} {layout : TypeLayout}
    (hi : schema.structs.findIdx? (fun desc => some desc.name = column.structType) = some i)
    (hl : layouts[i]? = some layout) : typeLayout schema layouts (column.structType.getD []) =
      if column.structType.getD [] = [] then none else some layout := by
  obtain ⟨hlt, hp, hfirst⟩ := List.findIdx?_eq_some_iff_getElem.mp hi
  simp only [decide_eq_true_eq] at hp hfirst
  obtain ⟨hlt', rfl⟩ := List.getElem?_eq_some_iff.mp hl
  unfold typeLayout
  split
  · rfl
  · have found : (schema.structs.zip layouts).find?
        (fun entry => entry.1.name = column.structType.getD []) =
          some (schema.structs[i], layouts[i]) := by
      rw [List.find?_eq_some_iff_getElem]
      refine ⟨by simp [← hp], i, by simp [hlt, hlt'], by simp, fun j hj => ?_⟩
      have hne := hfirst j hj
      rw [← hp] at hne ⊢
      simpa using hne
    rw [found]
    rfl

lemma columnExtents_extends {layouts' : List TypeLayout} {columns : List (ColumnDesc δ)}
    (ready : Ready schema layouts columns) (keeps : Extends layouts layouts') :
    columnExtents schema layouts' columns = columnExtents schema layouts columns := by
  refine List.map_congr_left fun column hc => ?_
  unfold columnExtent
  cases hs : column.type with
  | struct =>
    obtain ⟨i, layout, hi, hl, pos⟩ := ready column hc hs
    dsimp only
    rw [typeLayout_eq hi hl, typeLayout_eq hi (keeps i layout hl pos)]
  | _ => rfl

lemma Ready.extends {layouts' : List TypeLayout} {columns : List (ColumnDesc δ)}
    (ready : Ready schema layouts columns) (keeps : Extends layouts layouts') :
    Ready schema layouts' columns := by
  intro column hc hs
  obtain ⟨i, layout, hi, hl, pos⟩ := ready column hc hs
  exact ⟨i, layout, hi, keeps i layout hl pos, pos⟩

lemma layoutOf_extends {layouts' : List TypeLayout} {columns : List (ColumnDesc δ)}
    (ready : Ready schema layouts columns) (keeps : Extends layouts layouts') :
    layoutOf schema layouts' columns = layoutOf schema layouts columns := by
  unfold layoutOf
  rw [columnExtents_extends ready keeps]

lemma Filled.set (h : Filled schema layouts) {i : Nat} {desc : StructDesc δ}
    (hd : schema.structs[i]? = some desc) (ready : Ready schema layouts desc.columns) :
    Filled schema (layouts.set i (layoutOf schema layouts desc.columns)) ∧
      Extends layouts (layouts.set i (layoutOf schema layouts desc.columns)) := by
  have keeps : Extends layouts (layouts.set i (layoutOf schema layouts desc.columns)) := by
    intro j layout' hj pos
    rw [List.getElem?_set]
    split
    · rename_i he
      subst he
      -- It may have been laid out on the way, and then it has this layout already.
      rw [if_pos (List.getElem?_eq_some_iff.mp hj).1, (h.filled i desc layout' hd hj pos).2]
    · exact hj
  refine ⟨⟨List.length_set.trans h.length, fun j d l hj hl' pos => ?_⟩, keeps⟩
  have hcases : (Ready schema layouts d.columns ∧ l = layoutOf schema layouts d.columns) := by
    rw [List.getElem?_set] at hl'
    split at hl'
    · rename_i he
      subst he
      cases hd.symm.trans hj
      split at hl'
      · cases hl'
        exact ⟨ready, rfl⟩
      · cases hl'
    · exact h.filled j d l hj hl' pos
  exact ⟨hcases.1.extends keeps, hcases.2.trans (layoutOf_extends hcases.1 keeps).symm⟩

def LaysOut (schema : SchemaDesc δ) (layouts layouts' : List TypeLayout) : Prop :=
  Filled schema layouts' ∧ Extends layouts layouts'

lemma layoutNested_filled {layout : List TypeLayout → Nat → Except String (List TypeLayout)}
    {type : Text}
    (step : ∀ {layouts layouts' i}, layout layouts i = .ok layouts' → Filled schema layouts →
      LaysOut schema layouts layouts' ∧ ∃ l, layouts'[i]? = some l ∧ 0 < l.extent.size) :
    ∀ {columns : List (ColumnDesc δ)} {layouts layouts' : List TypeLayout},
      layoutNested schema layout type layouts columns = .ok layouts' → Filled schema layouts →
      LaysOut schema layouts layouts' ∧ Ready schema layouts' columns := by
  intro columns
  induction columns with
  | nil =>
    intro layouts layouts' h filled
    cases h
    exact ⟨⟨filled, .refl _⟩, fun _ hc => absurd hc List.not_mem_nil⟩
  | cons column columns ih =>
    intro layouts layouts' h filled
    unfold layoutNested at h
    split at h
    · rename_i hs
      cases hf : schema.structs.findIdx? fun desc => some desc.name = column.structType with
      | none =>
        simp only [hf] at h
        cases h
      | some i =>
        simp only [hf] at h
        obtain ⟨layouts₁, h₁, h⟩ := bind_ok h
        obtain ⟨⟨filled₁, keeps₁⟩, l, hl, pos⟩ := step h₁ filled
        obtain ⟨⟨filled', keeps'⟩, ready⟩ := ih h filled₁
        refine ⟨⟨filled', keeps₁.trans keeps'⟩, List.forall_mem_cons.mpr ⟨fun _ => ?_, ready⟩⟩
        exact ⟨i, l, hf, keeps' i l hl pos, pos⟩
    · rename_i hs
      obtain ⟨lays, ready⟩ := ih h filled
      exact ⟨lays, List.forall_mem_cons.mpr ⟨fun h => absurd h hs, ready⟩⟩

/-- **`layout_struct`** writes the layout of the columns, after those of the struct types they name. -/
lemma layoutType_filled : ∀ {rest : Nat} {layouts layouts' : List TypeLayout} {i : Nat},
    layoutType schema rest layouts i = .ok layouts' → Filled schema layouts →
    LaysOut schema layouts layouts' ∧ ∃ l, layouts'[i]? = some l ∧ 0 < l.extent.size := by
  intro rest
  induction rest with
  | zero =>
    intro layouts layouts' i h filled
    unfold layoutType at h
    split at h
    · rename_i desc layout hd hl
      split at h
      · rename_i pos
        cases h
        exact ⟨⟨filled, .refl _⟩, layout, hl, pos⟩
      · cases h
    · cases h
  | succ rest ih =>
    intro layouts layouts' i h filled
    unfold layoutType at h
    split at h
    · rename_i desc layout hd hl
      split at h
      · rename_i pos
        cases h
        exact ⟨⟨filled, .refl _⟩, layout, hl, pos⟩
      · rename_i empty
        obtain ⟨layouts₁, h₁, h⟩ := bind_ok h
        cases h
        obtain ⟨⟨filled₁, keeps₁⟩, ready⟩ := layoutNested_filled ih h₁ filled
        obtain ⟨filled', keeps'⟩ := filled₁.set hd ready
        refine ⟨⟨filled', keeps₁.trans keeps'⟩, layoutOf schema layouts₁ desc.columns, ?_,
          recordExtent_pos⟩
        have hlt := (List.getElem?_eq_some_iff.mp hd).1
        rw [← filled₁.length] at hlt
        exact List.getElem?_set_self hlt
    · cases h

lemma layoutTypes_filled : ∀ {indices : List Nat} {layouts layouts' : List TypeLayout},
    layoutTypes schema layouts indices = .ok layouts' → Filled schema layouts →
    LaysOut schema layouts layouts' ∧
      ∀ i ∈ indices, ∃ l, layouts'[i]? = some l ∧ 0 < l.extent.size := by
  intro indices
  induction indices with
  | nil =>
    intro layouts layouts' h filled
    cases h
    exact ⟨⟨filled, .refl _⟩, nofun⟩
  | cons i indices ih =>
    intro layouts layouts' h filled
    obtain ⟨layouts₁, h₁, h⟩ := bind_ok h
    obtain ⟨⟨filled₁, keeps₁⟩, l, hl, pos⟩ := layoutType_filled h₁ filled
    obtain ⟨⟨filled', keeps'⟩, all⟩ := ih h filled₁
    exact ⟨⟨filled', keeps₁.trans keeps'⟩,
      List.forall_mem_cons.mpr ⟨⟨l, keeps' i l hl pos, pos⟩, all⟩⟩

/-- **The layout of the struct types** is the one of their columns, given the layout of the struct
types. -/
lemma layoutSchema_structs {layout : SchemaLayout} (h : layoutSchema schema = .ok layout) :
    layout.structs = schema.structs.map fun type => layoutOf schema layout.structs type.columns := by
  obtain ⟨layouts, hlayouts, h⟩ := bind_ok h
  cases h
  have start : Filled schema (schema.structs.map fun _ => ⟨⟨0, 0⟩, []⟩) := by
    refine ⟨List.length_map _, fun i desc layout _ hl pos => ?_⟩
    rw [List.getElem?_map] at hl
    obtain ⟨_, _, rfl⟩ := Option.map_eq_some_iff.mp hl
    exact absurd pos (Nat.lt_irrefl 0)
  obtain ⟨⟨filled, -⟩, all⟩ := layoutTypes_filled hlayouts start
  refine List.ext_getElem? fun i => ?_
  rw [List.getElem?_map]
  cases hd : schema.structs[i]? with
  | none =>
    have hle := List.getElem?_eq_none_iff.mp hd
    rw [← filled.length] at hle
    exact List.getElem?_eq_none hle
  | some desc =>
    have hlt := List.mem_range.mpr (List.getElem?_eq_some_iff.mp hd).1
    obtain ⟨l, hl, pos⟩ := all i hlt
    exact hl.trans (congrArg some (filled.filled i desc l hd hl pos).2)

lemma typeLayout_fixed {column : ColumnDesc δ}
    (fixed : layouts = schema.structs.map fun type => layoutOf schema layouts type.columns) :
    typeLayout schema layouts (column.structType.getD []) =
      (schema.structOf column).map fun type => layoutOf schema layouts type.columns := by
  unfold typeLayout SchemaDesc.structOf SchemaDesc.findStruct
  split
  · rfl
  · conv_lhs => rw [fixed]
    induction schema.structs with
    | nil => rfl
    | cons type structs ih =>
      rw [List.map_cons, List.zip_cons_cons, List.find?_cons, List.find?_cons]
      cases decide (type.name = column.structType.getD []) with
      | true => rfl
      | false => exact ih

lemma columnExtent_struct {column : ColumnDesc δ} {type : StructDesc δ}
    (fixed : layouts = schema.structs.map fun type => layoutOf schema layouts type.columns)
    (hs : column.type = .struct) (ht : schema.structOf column = some type) :
    columnExtent schema layouts column = (layoutOf schema layouts type.columns).extent := by
  unfold columnExtent
  rw [hs]
  dsimp only
  rw [typeLayout_fixed fixed, ht]
  rfl

lemma columnExtent_scalar {column : ColumnDesc δ} (hs : column.type ≠ .struct) :
    columnExtent schema layouts column = columnExtent schema [] column ∧
      (columnExtent schema layouts column).Neat := by
  unfold columnExtent
  cases h : column.type with
  | struct => exact absurd h hs
  | bool => exact ⟨rfl, ⟨0, rfl⟩, .inl le_rfl⟩
  | int => exact ⟨rfl, ⟨3, rfl⟩, .inr (Nat.succ_pos _)⟩
  | float => exact ⟨rfl, ⟨3, rfl⟩, .inr (Nat.succ_pos _)⟩
  | ref => exact ⟨rfl, ⟨3, rfl⟩, .inr (Nat.succ_pos _)⟩
  | string => exact ⟨rfl, ⟨3, rfl⟩, .inr (Nat.succ_pos _)⟩
  | enum => exact ⟨rfl, ⟨3, rfl⟩, .inr (Nat.succ_pos _)⟩

lemma columnExtent_neat
    (fixed : layouts = schema.structs.map fun type => layoutOf schema layouts type.columns) :
    ∀ {depth : Nat} {columns : List (ColumnDesc δ)}, Nests schema depth columns →
      ∀ column ∈ columns, (columnExtent schema layouts column).Neat := by
  intro depth
  induction depth with
  | zero => exact fun nests column hc => (columnExtent_scalar (nests column hc)).2
  | succ depth ih =>
    intro columns nests column hc
    by_cases hs : column.type = .struct
    · obtain ⟨type, ht, deeper⟩ := nests column hc hs
      rw [columnExtent_struct fixed hs ht]
      refine recordExtent_neat fun extent he => ?_
      obtain ⟨c, hc, rfl⟩ := List.mem_map.mp he
      exact ih deeper c hc
    · exact (columnExtent_scalar hs).2

lemma locate_cons {k : Nat} {path : List Nat} {columns : List (ColumnDesc δ)} {offsets : List Nat}
    {cell : Nat × ColumnDesc δ} (h : locate schema layouts (k :: path) columns offsets = some cell) :
    ∃ column offset, columns[k]? = some column ∧ offsets[k]? = some offset ∧
      ((path = [] ∧ cell = (offset, column)) ∨
        (path ≠ [] ∧ column.type = .struct ∧ ∃ type layout inner,
          schema.structOf column = some type ∧
          typeLayout schema layouts (column.structType.getD []) = some layout ∧
          locate schema layouts path type.columns layout.offsets = some inner ∧
          cell = (offset + inner.1, inner.2))) := by
  unfold locate at h
  split at h
  · rename_i column offset hc ho
    refine ⟨column, offset, hc, ho, ?_⟩
    split at h
    · rename_i hp
      cases h
      exact .inl ⟨hp, rfl⟩
    · rename_i hp
      split at h
      · rename_i hs
        split at h
        · rename_i type layout ht hl
          obtain ⟨inner, hi, rfl⟩ := Option.map_eq_some_iff.mp h
          exact .inr ⟨hp, hs, type, layout, inner, ht, hl, hi, rfl⟩
        · cases h
      · cases h
  · cases h

def Tame (schema : SchemaDesc δ) (layouts : List TypeLayout) (columns : List (ColumnDesc δ)) : Prop :=
  Unwrapped (2 ^ 32) Frame.init (columnExtents schema layouts columns) ∧
    ∀ column ∈ columns, (columnExtent schema layouts column).Neat

lemma Tame.column {columns : List (ColumnDesc δ)} (tame : Tame schema layouts columns) {k offset : Nat}
    {column : ColumnDesc δ} (hc : columns[k]? = some column)
    (ho : (layoutOf schema layouts columns).offsets[k]? = some offset) :
    (columnExtents schema layouts columns)[k]? = some (columnExtent schema layouts column) ∧
      (offsets 0 Frame.init (columnExtents schema layouts columns))[k]? = some offset ∧
      (columnExtent schema layouts column).Neat := by
  refine ⟨?_, ?_, tame.2 column (List.mem_of_getElem? hc)⟩
  · rw [columnExtents, List.getElem?_map, hc]
    rfl
  · rw [← offsets_eq tame.1]
    exact ho

lemma Tame.inside {columns : List (ColumnDesc δ)} (tame : Tame schema layouts columns) {k offset : Nat}
    {column : ColumnDesc δ} (hc : columns[k]? = some column)
    (ho : (layoutOf schema layouts columns).offsets[k]? = some offset) :
    (columnExtent schema layouts column).align ∣ offset ∧
      (columnExtent schema layouts column).align ∣ (layoutOf schema layouts columns).extent.align ∧
      offset + (columnExtent schema layouts column).size ≤
        (layoutOf schema layouts columns).extent.size := by
  obtain ⟨hf, ho', neat⟩ := tame.column hc ho
  obtain ⟨-, aligned, inside⟩ := offsets_spec ho' hf neat
  have neats : ∀ extent ∈ columnExtents schema layouts columns, extent.Neat := by
    intro extent he
    obtain ⟨c, hc, rfl⟩ := List.mem_map.mp he
    exact tame.2 c hc
  have same : (layoutOf schema layouts columns).extent =
      recordExtent 0 (columnExtents schema layouts columns) := recordExtent_eq tame.1
  rw [same]
  exact ⟨aligned, align_dvd_place ⟨0, rfl⟩ neats (List.mem_of_getElem? hf),
    inside.trans place_le_size⟩

lemma Tame.align_dvd_size {columns : List (ColumnDesc δ)} (tame : Tame schema layouts columns) :
    (layoutOf schema layouts columns).extent.align ∣ (layoutOf schema layouts columns).extent.size := by
  have same : (layoutOf schema layouts columns).extent =
      recordExtent 0 (columnExtents schema layouts columns) := recordExtent_eq tame.1
  rw [same]
  refine Library.align_dvd_size fun extent he => ?_
  obtain ⟨c, hc, rfl⟩ := List.mem_map.mp he
  exact tame.2 c hc

lemma locate_spec
    (fixed : layouts = schema.structs.map fun type => layoutOf schema layouts type.columns)
    (tames : ∀ type ∈ schema.structs, Tame schema layouts type.columns) :
    ∀ {path : List Nat} {columns : List (ColumnDesc δ)} {k : Nat} {cell : Nat × ColumnDesc δ},
      Tame schema layouts columns →
      locate schema layouts (k :: path) columns (layoutOf schema layouts columns).offsets = some cell →
      ∃ column offset, columns[k]? = some column ∧
        (layoutOf schema layouts columns).offsets[k]? = some offset ∧
        (cellExtent schema layouts cell).align ∣ cell.1 ∧
        (cellExtent schema layouts cell).align ∣ (columnExtent schema layouts column).align ∧
        offset ≤ cell.1 ∧ cell.1 + (cellExtent schema layouts cell).size ≤
          offset + (columnExtent schema layouts column).size := by
  intro path
  induction path with
  | nil =>
    intro columns k cell tame h
    obtain ⟨column, offset, hc, ho, ⟨-, rfl⟩ | ⟨hp, -⟩⟩ := locate_cons h
    · exact ⟨column, offset, hc, ho, (tame.inside hc ho).1, dvd_rfl, le_rfl, le_rfl⟩
    · exact absurd rfl hp
  | cons l path ih =>
    intro columns k cell tame h
    obtain ⟨column, offset, hc, ho, ⟨hp, -⟩ | ⟨-, hs, type, layout, inner, ht, hl, hi, rfl⟩⟩ :=
      locate_cons h
    · cases hp
    · rw [typeLayout_fixed fixed, ht] at hl
      cases hl
      have tame' := tames type (SchemaDesc.mem_of_structOf ht)
      obtain ⟨column', offset', hc', ho', aligned, divides, behind, inside⟩ := ih tame' hi
      obtain ⟨-, divides', inside'⟩ := tame'.inside hc' ho'
      have extent := columnExtent_struct fixed hs ht
      have hdvd := divides.trans (divides'.trans (dvd_of_eq (congrArg Extent.align extent.symm)))
      refine ⟨column, offset, hc, ho, ?_, hdvd, Nat.le_add_right _ _, ?_⟩
      · exact Nat.dvd_add (hdvd.trans (tame.inside hc ho).1) aligned
      · rw [extent]
        have total := inside.trans inside'
        have same : cellExtent schema layouts (offset + inner.1, inner.2) =
            cellExtent schema layouts inner := rfl
        rw [same]
        dsimp only
        omega

lemma locate_apart
    (fixed : layouts = schema.structs.map fun type => layoutOf schema layouts type.columns)
    (tames : ∀ type ∈ schema.structs, Tame schema layouts type.columns) :
    ∀ {path path' : List Nat} {columns : List (ColumnDesc δ)} {cell cell' : Nat × ColumnDesc δ},
      Tame schema layouts columns →
      locate schema layouts path columns (layoutOf schema layouts columns).offsets = some cell →
      locate schema layouts path' columns (layoutOf schema layouts columns).offsets = some cell' →
      ¬ path <+: path' → ¬ path' <+: path →
      cell.1 + (cellExtent schema layouts cell).size ≤ cell'.1 ∨
        cell'.1 + (cellExtent schema layouts cell').size ≤ cell.1 := by
  intro path
  induction path with
  | nil => exact fun _ _ _ h => absurd List.nil_prefix h
  | cons k path ih =>
    intro path' columns cell cell' tame h h' hpre hpre'
    cases path' with
    | nil => exact absurd List.nil_prefix hpre'
    | cons l path' =>
      obtain ⟨column, offset, hc, ho, -, -, behind, inside⟩ := locate_spec fixed tames tame h
      obtain ⟨column', offset', hc', ho', -, -, behind', inside'⟩ := locate_spec fixed tames tame h'
      obtain ⟨hf, hp, neat⟩ := tame.column hc ho
      obtain ⟨hf', hp', neat'⟩ := tame.column hc' ho'
      rcases Nat.lt_trichotomy k l with hlt | rfl | hgt
      · have apart := offsets_apart hlt hp hf hp' hf' neat'
        exact .inl (inside.trans (apart.trans behind'))
      · -- Both go into the same struct type.
        obtain ⟨c, o, hck, hok, ⟨rfl, -⟩ | ⟨-, hs, type, layout, inner, ht, hl, hi, rfl⟩⟩ :=
          locate_cons h
        · exact absurd (List.cons_prefix_cons.mpr ⟨rfl, List.nil_prefix⟩) hpre
        obtain ⟨c', o', hck', hok', ⟨rfl, -⟩ | ⟨-, -, type', layout', inner', ht', hl', hi', rfl⟩⟩ :=
          locate_cons h'
        · exact absurd (List.cons_prefix_cons.mpr ⟨rfl, List.nil_prefix⟩) hpre'
        cases hck.symm.trans hck'
        cases hok.symm.trans hok'
        cases ht.symm.trans ht'
        cases hl.symm.trans hl'
        rw [typeLayout_fixed fixed, ht] at hl
        cases hl
        have apart := ih (tames type (SchemaDesc.mem_of_structOf ht)) hi hi'
          (fun h => hpre (List.cons_prefix_cons.mpr ⟨rfl, h⟩))
          (fun h => hpre' (List.cons_prefix_cons.mpr ⟨rfl, h⟩))
        unfold cellExtent at apart ⊢
        dsimp only
        omega
      · have apart := offsets_apart hgt hp' hf' hp hf neat
        exact .inr (inside'.trans (apart.trans behind))

lemma Tame.placed {columns : List (ColumnDesc δ)} (tame : Tame schema layouts columns)
    (fixed : layouts = schema.structs.map fun type => layoutOf schema layouts type.columns)
    (tames : ∀ type ∈ schema.structs, Tame schema layouts type.columns) :
    Placed schema layouts columns (layoutOf schema layouts columns).offsets
      (layoutOf schema layouts columns).extent := by
  have spec : ∀ {path : List Nat} {cell : Nat × ColumnDesc δ},
      locate schema layouts path columns (layoutOf schema layouts columns).offsets = some cell →
      (cellExtent schema layouts cell).align ∣ cell.1 ∧
      (cellExtent schema layouts cell).align ∣ (layoutOf schema layouts columns).extent.align ∧
      cell.1 + (cellExtent schema layouts cell).size ≤
        (layoutOf schema layouts columns).extent.size := by
    intro path cell h
    cases path with
    | nil => cases h
    | cons k path =>
      obtain ⟨column, offset, hc, ho, aligned, divides, -, inside⟩ := locate_spec fixed tames tame h
      obtain ⟨-, divides', inside'⟩ := tame.inside hc ho
      exact ⟨aligned, divides.trans divides', inside.trans inside'⟩
  refine ⟨fun path cell h row => ?_, fun path cell h => (spec h).2.2, ?_⟩
  · obtain ⟨aligned, divides, -⟩ := spec h
    exact Nat.dvd_add (Dvd.dvd.mul_left (divides.trans tame.align_dvd_size) row) aligned
  · exact fun path path' cell cell' h h' => locate_apart fixed tames tame h h'

lemma exactExtent_scalar {column : ColumnDesc δ} (hs : column.type ≠ .struct) (depth : Nat) :
    exactExtent schema depth column = columnExtent schema layouts column := by
  rw [(@columnExtent_scalar _ schema layouts column hs).1]
  cases depth with
  | zero => rfl
  | succ depth =>
    unfold exactExtent
    split
    · rename_i h _
      exact absurd h hs
    · rfl

lemma exactExtent_eq
    (fixed : layouts = schema.structs.map fun type => layoutOf schema layouts type.columns)
    (small : ∀ type ∈ schema.structs,
      Unwrapped (2 ^ 32) Frame.init (columnExtents schema layouts type.columns) ∨
      Fits (2 ^ 32) Frame.init (type.columns.map (exactExtent schema schema.structs.length))) :
    ∀ {depth : Nat} {columns : List (ColumnDesc δ)}, Nests schema depth columns →
      depth ≤ schema.structs.length → ∀ {depth' : Nat}, depth ≤ depth' →
      columns.map (exactExtent schema depth') = columnExtents schema layouts columns := by
  intro depth
  induction depth with
  | zero =>
    intro columns nests _ depth' _
    exact List.map_congr_left fun column hc => exactExtent_scalar (nests column hc) depth'
  | succ depth ih =>
    intro columns nests hle depth' hle'
    refine List.map_congr_left fun column hc => ?_
    by_cases hs : column.type = .struct
    · obtain ⟨type, ht, deeper⟩ := nests column hc hs
      have unwrapped :
          Unwrapped (2 ^ 32) Frame.init (columnExtents schema layouts type.columns) := by
        rcases small type (SchemaDesc.mem_of_structOf ht) with h | h
        · exact h
        · rw [ih deeper (by omega) (by omega : depth ≤ schema.structs.length)] at h
          exact unwrapped_iff.mpr h
      cases depth' with
      | zero => exact absurd hle' (Nat.not_succ_le_zero depth)
      | succ depth' =>
        rw [columnExtent_struct fixed hs ht, exactExtent, hs, ht]
        dsimp only
        rw [ih deeper (by omega) (Nat.le_of_succ_le_succ hle')]
        exact (recordExtent_eq unwrapped).symm
    · exact exactExtent_scalar hs depth'

lemma exactExtent_crossDefault [Double δ] (depth : Nat) (column : ColumnDesc δ) :
    exactExtent schema depth column.crossDefault = exactExtent schema depth column ∧
      columnExtent schema layouts column.crossDefault = columnExtent schema layouts column := by
  obtain ⟨i, d, h⟩ := column.crossDefault_eq
  rw [h]
  cases depth with
  | zero => exact ⟨rfl, rfl⟩
  | succ depth => exact ⟨rfl, rfl⟩

variable [Double δ]

lemma nests_of_layoutSchema (valid : validateSchema schema = .ok ())
    (laid : ∃ layout, layoutSchema schema = .ok layout) :
    Nests schema schema.structs.length schema.columns ∧
      ∀ type ∈ schema.structs, Nests schema schema.structs.length type.columns := by
  obtain ⟨_, -, h⟩ := bind_ok valid
  cases hk : schema.columns[schema.keyColumn]? with
  | none => simp [hk, bind, Except.bind] at h
  | some key =>
    simp only [hk] at h
    obtain ⟨_, -, h⟩ := bind_ok h
    obtain ⟨_, hstructs, h⟩ := bind_ok h
    obtain ⟨_, -, hcolumns⟩ := bind_ok h
    have hcolumns := sound_of_validateColumnSet hcolumns
    have hstructs := sound_of_validateStructs hstructs
    obtain ⟨laid, h⟩ := layoutSchema_isOk.mp laid
    obtain ⟨out, -, all⟩ := layoutStructs_laidOut h .nil
    exact ⟨out.nests_columns hstructs all hcolumns,
      fun type ht => out.nests_columns hstructs all (hstructs type ht)⟩

omit [Double δ] in
lemma layoutSchema_row {layout : SchemaLayout} (h : layoutSchema schema = .ok layout) :
    layout.offsets = (layoutOf schema layout.structs schema.columns).offsets ∧
      layout.align = (layoutOf schema layout.structs schema.columns).extent.align := by
  obtain ⟨layouts, -, h⟩ := bind_ok h
  cases h
  exact ⟨rfl, rfl⟩

omit [Double δ] in
lemma buffer_lt (h : Unwrapped (2 ^ 32) Frame.init (columnExtents schema layouts schema.columns))
    {rows : Nat} (hr : rows < 2 ^ 32) : tableRowSize schema layouts * rows < 2 ^ 64 := by
  have last : alignTop (place 0 Frame.init (columnExtents schema layouts schema.columns)).cursor
      (place 0 Frame.init (columnExtents schema layouts schema.columns)).align < 2 ^ 32 :=
    unwrapped_iff.mp h
  have small : tableRowSize schema layouts < 2 ^ 32 := by
    unfold tableRowSize
    rw [recordExtent_eq h]
    exact max_lt ((alignUp_le _ _).trans_lt last) (by decide)
  calc tableRowSize schema layouts * rows
    _ < 2 ^ 32 * 2 ^ 32 := Nat.mul_lt_mul'' small hr
    _ = 2 ^ 64 := by norm_num

lemma LayoutSafe.unwrapped {desc : SchemaDesc δ} {layout : SchemaLayout}
    (safe : LayoutSafe (SchemaRegistry.store desc layout)) {type : StructDesc δ}
    (ht : type ∈ desc.structs) :
    Unwrapped (2 ^ 32) Frame.init (columnExtents desc layout.structs type.columns) :=
  safe.types type ht

lemma layoutSafe_store {desc : SchemaDesc δ} {layout : SchemaLayout}
    (valid : validateSchema desc = .ok ()) (laid : layoutSchema desc = .ok layout) :
    LayoutSafe (SchemaRegistry.store desc layout) ↔ SizesFit desc := by
  have fixed := layoutSchema_structs laid
  obtain ⟨nests, nestsTypes⟩ := nests_of_layoutSchema valid ⟨layout, laid⟩
  have columns : columnExtents desc layout.structs (SchemaRegistry.store desc layout).desc.columns =
      columnExtents desc layout.structs desc.columns := by
    unfold columnExtents SchemaRegistry.store
    rw [List.map_map]
    exact List.map_congr_left fun column _ => (exactExtent_crossDefault 0 column).2
  constructor
  · intro safe
    have row : Unwrapped (2 ^ 32) Frame.init (columnExtents desc layout.structs
        (SchemaRegistry.store desc layout).desc.columns) := safe.row
    have exact := fun {cols} (h : Nests desc desc.structs.length cols) =>
      exactExtent_eq fixed (fun type ht => .inl (safe.unwrapped ht)) h le_rfl le_rfl
    rw [columns] at row
    refine ⟨?_, fun type ht => ?_⟩
    · rw [exact nests]
      exact unwrapped_iff.mp row
    · rw [exact (nestsTypes type ht)]
      exact unwrapped_iff.mp (safe.unwrapped ht)
  · intro fit
    have exact := fun {cols} (h : Nests desc desc.structs.length cols) =>
      exactExtent_eq fixed (fun type ht => .inr (fit.2 type ht)) h le_rfl le_rfl
    have hrow : Unwrapped (2 ^ 32) Frame.init (columnExtents desc layout.structs desc.columns) := by
      have fits := fit.1
      rw [exact nests] at fits
      exact unwrapped_iff.mpr fits
    have tames : ∀ type ∈ desc.structs, Tame desc layout.structs type.columns := by
      intro type ht
      have fits := fit.2 type ht
      rw [exact (nestsTypes type ht)] at fits
      exact ⟨unwrapped_iff.mpr fits, columnExtent_neat fixed (nestsTypes type ht)⟩
    have row : Tame desc layout.structs (SchemaRegistry.store desc layout).desc.columns := by
      refine ⟨columns.symm ▸ hrow, fun column hc => ?_⟩
      obtain ⟨c, hm, rfl⟩ := List.mem_map.mp hc
      rw [(exactExtent_crossDefault 0 c).2]
      exact columnExtent_neat fixed nests c hm
    obtain ⟨hoffsets, halign⟩ := layoutSchema_row laid
    have same : layoutOf desc layout.structs (SchemaRegistry.store desc layout).desc.columns =
        layoutOf desc layout.structs desc.columns := by
      unfold layoutOf
      rw [columns]
    refine ⟨row.1, fun type ht => (tames type ht).1, ?_, fun i type l ht hl => ?_, fun rows hr => ?_⟩
    · have placed := @Tame.placed _ (SchemaRegistry.store desc layout).desc layout.structs _ row fixed
        tames
      have ho : layout.offsets = (layoutOf (SchemaRegistry.store desc layout).desc layout.structs
          (SchemaRegistry.store desc layout).desc.columns).offsets :=
        hoffsets.trans (congrArg TypeLayout.offsets same.symm)
      have he : ⟨tableRowSize (SchemaRegistry.store desc layout).desc layout.structs, layout.align⟩ =
          (layoutOf (SchemaRegistry.store desc layout).desc layout.structs
            (SchemaRegistry.store desc layout).desc.columns).extent :=
        Extent.ext rfl (halign.trans (congrArg (·.extent.align) same.symm))
      rw [← ho, ← he] at placed
      exact placed
    · have hl : layout.structs[i]? = some l := hl
      rw [fixed, List.getElem?_map, show desc.structs[i]? = some type from ht] at hl
      cases hl
      exact @Tame.placed _ (SchemaRegistry.store desc layout).desc layout.structs _
        (tames type (List.mem_of_getElem? ht)) fixed tames
    · exact buffer_lt row.1 hr

lemma registerSchema_ok {registry : SchemaRegistry δ} {desc : SchemaDesc δ} {wantsError : Bool}
    (h : (registry.registerSchema desc wantsError).2 = .ok) :
    validateSchema desc = .ok () ∧ ∃ layout, layoutSchema desc = .ok layout ∧
      (registry.registerSchema desc wantsError).1.schemas desc.name =
        some (SchemaRegistry.store desc layout) := by
  unfold SchemaRegistry.registerSchema at h ⊢
  dsimp only at h ⊢
  split at h
  · cases h
  · rename_i named
    rw [if_neg named]
    split at h
    · cases h
    · rename_i valid
      rw [valid]
      split at h
      · cases h
      · rename_i new
        split at h
        · cases h
        · rename_i layout laid
          refine ⟨rfl, layout, laid, ?_⟩
          dsimp only
          rw [emplace_of_none new, Function.update_self]

def fourOf (type : ColumnType) (structType : Option Text) : List (ColumnDesc Int) :=
  ['a', 'b', 'c', 'd'].map fun c => bareColumn [c] type structType

def level : Nat → StructDesc Int
  | 0 => ⟨['t'], fourOf .string none⟩
  | k + 1 => ⟨List.replicate (k + 2) 't', fourOf .struct (some (List.replicate (k + 1) 't'))⟩

/-- The highest level has `64 * 4 ^ 13` bytes, which is nothing in 32 bits. -/
def tower : SchemaDesc Int := numbered ((List.range 14).map level)

lemma layoutSchema_tower : ∃ layout, layoutSchema tower = .ok layout ∧
    ¬ Unwrapped (2 ^ 32) Frame.init (columnExtents tower layout.structs (level 13).columns) := by
  have round : (layoutSchema tower).toOption.any (fun l => !decide (Unwrapped (2 ^ 32) Frame.init
      (columnExtents tower l.structs (level 13).columns))) = true := by
    decide +kernel
  obtain ⟨layout, laid, h⟩ := Option.any_eq_true _ _ |>.mp round
  refine ⟨layout, ?_, by simpa using h⟩
  cases hl : layoutSchema tower with
  | error message =>
    rw [hl] at laid
    cases laid
  | ok layout' =>
    rw [hl] at laid
    cases laid
    rfl

end PulseEngine.Datatable
