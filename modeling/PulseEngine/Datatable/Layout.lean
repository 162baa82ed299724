import PulseEngine.Datatable.Registered
import PulseEngine.Library.Record

/-!
# The layout of a schema

What `register_schema` writes about bytes into a descriptor without a `fill_row` of its own: the
offsets of the columns, and the sizes, alignments and offsets of the struct types, which
`layout_struct` lays out after those they contain. Sizes are those of a 64-bit target, numbers are
`uint32_t`.
-/

namespace PulseEngine.Datatable

open Library

/-- What a layout writes into a `PulseDataTableStructDesc`; the size is zero before. -/
structure TypeLayout where
  extent : Extent
  offsets : List Nat
deriving DecidableEq, Repr

/-- What the layouts write into a `PulseDataTableSchemaDesc`, and the alignment of a row. -/
structure SchemaLayout where
  structs : List TypeLayout
  offsets : List Nat
  align : Nat
deriving DecidableEq, Repr

section Layout

variable {δ : Type} (schema : SchemaDesc δ) (layouts : List TypeLayout)

/-- The layout in the descriptor that `find_struct` finds. -/
def typeLayout (name : Datalist.Text) : Option TypeLayout :=
  if name = [] then none
  else ((schema.structs.zip layouts).find? fun entry => entry.1.name = name).map (·.2)

def columnExtent (column : ColumnDesc δ) : Extent :=
  match column.type with
  | .int | .float | .ref => ⟨8, 8⟩
  | .bool => ⟨1, 1⟩
  | .string | .enum => ⟨16, 8⟩
  | .struct =>
    match typeLayout schema layouts (column.structType.getD []) with
    | none => ⟨0, 1⟩
    | some layout => layout.extent

def columnExtents (columns : List (ColumnDesc δ)) : List Extent :=
  columns.map (columnExtent schema layouts)

def tableRowSize : Nat := (recordExtent (2 ^ 32) (columnExtents schema layouts schema.columns)).size

/-- The first loop of `layout_struct`, `layout` laying out the type at an index. -/
def layoutNested (layout : List TypeLayout → Nat → Except String (List TypeLayout))
    (type : Datalist.Text) : List TypeLayout → List (ColumnDesc δ) → Except String (List TypeLayout)
  | layouts, [] => .ok layouts
  | layouts, column :: columns =>
    if column.type = .struct then
      match schema.structs.findIdx? fun desc => some desc.name = column.structType with
      | none => .error ("struct type " ++ quoted type ++ " references struct " ++
          quoted (column.structType.getD []) ++ " that is not embedded in the schema")
      | some dependency => do
        let layouts ← layout layouts dependency
        layoutNested layout type layouts columns
    else layoutNested layout type layouts columns

/-- `layout_struct`. The number is `store.structs.size() - depth`. -/
def layoutType : Nat → List TypeLayout → Nat → Except String (List TypeLayout)
  | rest, layouts, index =>
    match schema.structs[index]?, layouts[index]? with
    | some desc, some layout =>
      if 0 < layout.extent.size then .ok layouts
      else
        match rest with
        | 0 => .error ("struct type " ++ quoted desc.name ++ " contains itself")
        | rest + 1 => do
          let layouts ← layoutNested schema (layoutType rest) desc.name layouts desc.columns
          let extents := columnExtents schema layouts desc.columns
          return layouts.set index
            ⟨recordExtent (2 ^ 32) extents, offsets (2 ^ 32) Frame.init extents⟩
    | _, _ => .error "struct index is out of range"

/-- The loop of `register_schema` over the struct types that are still to be laid out. -/
def layoutTypes : List TypeLayout → List Nat → Except String (List TypeLayout)
  | layouts, [] => .ok layouts
  | layouts, index :: indices => do
    let layouts ← layoutType schema schema.structs.length layouts index
    layoutTypes layouts indices

def layoutSchema : Except String SchemaLayout := do
  let layouts ← layoutTypes schema (schema.structs.map fun _ => ⟨⟨0, 0⟩, []⟩)
    (List.range schema.structs.length)
  let extents := columnExtents schema layouts schema.columns
  return ⟨layouts, offsets (2 ^ 32) Frame.init extents, (place (2 ^ 32) Frame.init extents).align⟩

end Layout

end PulseEngine.Datatable
