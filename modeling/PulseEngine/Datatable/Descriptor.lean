import PulseEngine.Datalist.Node
import Mathlib.Data.Finset.Card
import Mathlib.Data.List.Nodup

/-!
# Schema descriptors and their registration

The descriptors of `pulse_datatable.h`, the lookups of `datatable_schema.cpp` and the part of
`Registry::register_schema` that checks and copies a descriptor without a `fill_row` of its own.
A name that is null in the source is empty here. Byte offsets, sizes and alignments are left out;
`layout_struct` keeps which struct types are laid out, which the source reads off `size > 0`.
-/

namespace PulseEngine.Datatable

open Datalist

/-- `EPulseDataTableColumnType`. -/
inductive ColumnType where
  | int
  | float
  | bool
  | string
  | enum
  | struct
  | ref
  deriving DecidableEq, Repr

/-- `PulseDataTableColumnDesc`. -/
structure ColumnDesc (δ : Type) where
  name : Text
  type : ColumnType
  minValue : δ
  maxValue : δ
  hasMin : Bool
  hasMax : Bool
  hasDefault : Bool
  defaultInt : Int
  defaultFloat : δ
  defaultBool : Bool
  defaultString : Option Text
  structType : Option Text
  refType : Option Text
  enumType : Option Text

/-- `PulseDataTableStructDesc`. -/
structure StructDesc (δ : Type) where
  name : Text
  columns : List (ColumnDesc δ)

/-- `PulseDataTableEnumDesc`. -/
structure EnumDesc where
  name : Text
  values : List Text
  deriving DecidableEq, Repr

/-- `PulseDataTableSchemaDesc`. -/
structure SchemaDesc (δ : Type) where
  name : Text
  columns : List (ColumnDesc δ)
  structs : List (StructDesc δ)
  enums : List EnumDesc
  keyColumn : Nat
  keyIsInt : Bool

namespace SchemaDesc

variable {δ : Type} (schema : SchemaDesc δ)

def findColumn (name : Text) : Option (ColumnDesc δ) :=
  if name = [] then none else schema.columns.find? fun column => column.name = name

def findStruct (name : Text) : Option (StructDesc δ) :=
  if name = [] then none else schema.structs.find? fun desc => desc.name = name

def findEnum (name : Text) : Option EnumDesc :=
  if name = [] then none else schema.enums.find? fun desc => desc.name = name

/-- The struct type of a column, `find_struct(schema, column.struct_type ? column.struct_type : "")`. -/
def structOf (column : ColumnDesc δ) : Option (StructDesc δ) :=
  schema.findStruct (column.structType.getD [])

def enumOf (column : ColumnDesc δ) : Option EnumDesc :=
  schema.findEnum (column.enumType.getD [])

end SchemaDesc

abbrev Rule := Bool × String

def require (rules : List Rule) : Except String Unit :=
  match rules.find? fun rule => !rule.1 with
  | some rule => .error rule.2
  | none => .ok ()

def quoted (name : Text) : String := "'" ++ String.ofList name ++ "'"

def nameIsValid (name : Text) : Bool :=
  name ≠ [] && name.all fun c => c.isAlphanum || c = '_'

section Validate

variable {δ : Type} [Double δ] (schema : SchemaDesc δ)

def ColumnDesc.numeric (column : ColumnDesc δ) : Bool :=
  column.type = .int || column.type = .float

def ColumnDesc.stringLike (column : ColumnDesc δ) : Bool :=
  column.type = .string || column.type = .enum || column.type = .ref

/-- The checks `validate_column_set` makes of one column, given the columns before it. -/
def columnRules (earlier : List (ColumnDesc δ)) (column : ColumnDesc δ) : List Rule :=
  [(column.name ≠ [], "schema " ++ quoted schema.name ++ " declares a column without a name"),
   (nameIsValid column.name, "column " ++ quoted column.name ++ " has invalid characters"),
   (!(earlier.any fun other => other.name = column.name),
    "schema " ++ quoted schema.name ++ " declares column " ++ quoted column.name ++ " twice"),
   (!((column.hasMin || column.hasMax) && !column.numeric),
    "column " ++ quoted column.name ++ " cannot declare min or max"),
   (!(column.hasMin && column.hasMax && Double.lt column.maxValue column.minValue),
    "column " ++ quoted column.name ++ " has a minimum above its maximum"),
   (!(column.structType.isSome && column.type ≠ .struct),
    "column " ++ quoted column.name ++ " is not a struct but names a struct type"),
   (!(column.enumType.isSome && column.type ≠ .enum),
    "column " ++ quoted column.name ++ " is not an enum but names an enum type"),
   (!(column.refType.isSome && column.type ≠ .ref),
    "column " ++ quoted column.name ++ " is not a reference but names a table"),
   (column.type ≠ .struct || (column.structType.isSome && (schema.structOf column).isSome),
    "column " ++ quoted column.name ++ " references unknown struct type " ++
      quoted (column.structType.getD [])),
   (column.type ≠ .struct || !column.hasDefault,
    "struct column " ++ quoted column.name ++ " cannot declare a default"),
   (column.type ≠ .enum || (column.enumType.isSome && (schema.enumOf column).isSome),
    "column " ++ quoted column.name ++ " references unknown enum type " ++
      quoted (column.enumType.getD [])),
   (column.type ≠ .enum || !column.hasDefault ||
      column.defaultString.any (fun text => (schema.enumOf column).any (text ∈ ·.values)),
    "column " ++ quoted column.name ++ " default value " ++ quoted (column.defaultString.getD []) ++
      " is not in enum " ++ quoted (column.enumType.getD [])),
   (column.type ≠ .ref || column.refType.isSome,
    "column " ++ quoted column.name ++ " references no table"),
   (!(column.hasDefault && column.type = .struct),
    "column " ++ quoted column.name ++ " cannot declare a default"),
   (!(column.hasDefault && column.stringLike && column.defaultString.isNone),
    "column " ++ quoted column.name ++ " default must be a string")]

def validateColumnSet : List (ColumnDesc δ) → List (ColumnDesc δ) → Except String Unit
  | _, [] => .ok ()
  | earlier, column :: columns => do
    require (columnRules schema earlier column)
    validateColumnSet (earlier ++ [column]) columns

/-- The loop of `validate_schema` over the struct types. -/
def validateStructs : List (StructDesc δ) → List (StructDesc δ) → Except String Unit
  | _, [] => .ok ()
  | earlier, desc :: structs => do
    require
      [(nameIsValid desc.name,
        "schema " ++ quoted schema.name ++ " declares a struct type with an invalid name"),
       (desc.columns ≠ [], "struct type " ++ quoted desc.name ++ " declares no columns"),
       (!(earlier.any fun other => other.name = desc.name),
        "schema " ++ quoted schema.name ++ " declares struct type " ++ quoted desc.name ++ " twice")]
    validateColumnSet schema [] desc.columns
    validateStructs (earlier ++ [desc]) structs

/-- The loop of `validate_schema` over the values of an enum type. -/
def validateValues (desc : EnumDesc) : List Text → List Text → Except String Unit
  | _, [] => .ok ()
  | earlier, text :: values => do
    require
      [(text ≠ [], "enum type " ++ quoted desc.name ++ " declares an empty value"),
       (text ∉ earlier,
        "enum type " ++ quoted desc.name ++ " declares duplicate value " ++ quoted text)]
    validateValues desc (earlier ++ [text]) values

/-- The loop of `validate_schema` over the enum types. -/
def validateEnums : List EnumDesc → List EnumDesc → Except String Unit
  | _, [] => .ok ()
  | earlier, desc :: enums => do
    require
      [(nameIsValid desc.name,
        "schema " ++ quoted schema.name ++ " declares an enum type with an invalid name"),
       (desc.values ≠ [], "enum type " ++ quoted desc.name ++ " declares no values"),
       (!(earlier.any fun other => other.name = desc.name),
        "schema " ++ quoted schema.name ++ " declares enum type " ++ quoted desc.name ++ " twice")]
    validateValues desc [] desc.values
    validateEnums (earlier ++ [desc]) enums

/-- The checks `validate_schema` makes of the key column. -/
def keyRules (key : ColumnDesc δ) : List Rule :=
  [(key.type = .int || key.type = .string,
    "key column " ++ quoted key.name ++ " must be an int or a string"),
   (!(key.hasDefault || key.hasMin || key.hasMax),
    "key column " ++ quoted key.name ++ " cannot declare a default or a range")]

def validateSchema : Except String Unit := do
  require [(nameIsValid schema.name, "schema name " ++ quoted schema.name ++ " is invalid"),
    (schema.columns ≠ [], "schema " ++ quoted schema.name ++ " declares no columns")]
  match schema.columns[schema.keyColumn]? with
  | none => .error ("schema " ++ quoted schema.name ++ " key column is out of range")
  | some key => require (keyRules key)
  validateStructs schema [] schema.structs
  validateEnums schema [] schema.enums
  validateColumnSet schema [] schema.columns

end Validate

section Layout

variable {δ : Type} (schema : SchemaDesc δ)

/-- The loop of `layout_struct` over the columns of a struct type, `layout` laying out the type at
an index. -/
def layoutColumns (layout : List Nat → Nat → Except String (List Nat)) (type : Text) :
    List Nat → List (ColumnDesc δ) → Except String (List Nat)
  | laid, [] => .ok laid
  | laid, column :: columns =>
    if column.type = .struct then
      match schema.structs.findIdx? fun desc => some desc.name = column.structType with
      | none => .error ("struct type " ++ quoted type ++ " references struct " ++
          quoted (column.structType.getD []) ++ " that is not embedded in the schema")
      | some dependency => do
        let laid ← layout laid dependency
        layoutColumns layout type laid columns
    else layoutColumns layout type laid columns

/-- `layout_struct`, with the struct types that are laid out so far. The number is
`store.structs.size() - depth`. -/
def layoutStruct : Nat → List Nat → Nat → Except String (List Nat)
  | rest, laid, index =>
    if index ∈ laid then .ok laid
    else
      match schema.structs[index]? with
      | none => .error "struct index is out of range"
      | some desc =>
        match rest with
        | 0 => .error ("struct type " ++ quoted desc.name ++ " contains itself")
        | rest + 1 => do
          let laid ← layoutColumns schema (layoutStruct rest) desc.name laid desc.columns
          return index :: laid

/-- The loop of `register_schema` over the struct types that are still to be laid out. -/
def layoutStructs : List Nat → List Nat → Except String (List Nat)
  | laid, [] => .ok laid
  | laid, index :: indices => do
    let laid ← layoutStruct schema schema.structs.length laid index
    layoutStructs laid indices

end Layout

variable {δ : Type} [Double δ]

/-- The numeric default cross values `register_schema` writes into a column of the table. -/
def ColumnDesc.crossDefault (column : ColumnDesc δ) : ColumnDesc δ :=
  if column.hasDefault then
    match column.type with
    | .int => { column with defaultFloat := Double.ofInt column.defaultInt }
    | .float => { column with defaultInt := Double.toInt column.defaultFloat }
    | _ => column
  else column

/-- The descriptor `register_schema` stores, or the error it reports. -/
def SchemaDesc.register (desc : SchemaDesc δ) : Except String (SchemaDesc δ) := do
  validateSchema desc
  let _ ← layoutStructs desc [] (List.range desc.structs.length)
  return { desc with
    columns := desc.columns.map ColumnDesc.crossDefault
    keyIsInt := (desc.columns[desc.keyColumn]?).any (·.type = .int) }

end PulseEngine.Datatable
