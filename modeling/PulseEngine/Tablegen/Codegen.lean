import PulseEngine.Datatable.Descriptor
import PulseEngine.Datatable.Fill
import PulseEngine.Library.Search

/-!
# Schema files and their validation

`tools/tablegen/schema.h` and `validate_library` of `tools/tablegen/validate.cpp`. The type of a field
is a scalar or the name of another schema. The line of a field is left out: only the parser of
schema files uses it.
-/

namespace PulseEngine.Tablegen

open Datalist

/-- The text of a field's `type`: `is_scalar_type` or the name of a schema. -/
inductive FieldType where
  | int
  | float
  | bool
  | string
  | ref
  | named (name : Text)
  deriving DecidableEq, Repr

inductive Kind where
  | table
  | struct
  | enum
  deriving DecidableEq, Repr

structure Field (δ : Type) where
  name : Text
  type : FieldType
  ref : Text
  values : List Text
  isKey : Bool
  hasDefault : Bool
  hasMin : Bool
  hasMax : Bool
  minValue : δ
  maxValue : δ
  defaultInt : Int
  defaultFloat : δ
  defaultBool : Bool
  defaultString : Text
  defaultText : Text

structure Schema (δ : Type) where
  name : Text
  path : Text
  kind : Kind
  fields : List (Field δ)
  values : List Text
  keyIndex : Nat

/-- `Library`, as `load_library` leaves it: `parse_field` does not accept an empty type. -/
structure Library (δ : Type) where
  schemas : List (Schema δ)
  typed : ∀ schema ∈ schemas, ∀ field ∈ schema.fields, field.type ≠ .named []

variable {δ : Type}

def FieldType.text : FieldType → Text
  | .int => ['i', 'n', 't']
  | .float => ['f', 'l', 'o', 'a', 't']
  | .bool => ['b', 'o', 'o', 'l']
  | .string => ['s', 't', 'r', 'i', 'n', 'g']
  | .ref => ['r', 'e', 'f']
  | .named name => name

namespace Library

variable (lib : Library δ)

def find (name : Text) : Option (Schema δ) := lib.schemas.find? fun schema => schema.name = name

/-- The schema that is the type of a field, `library.find(field.type)` for a type that is not a
scalar. -/
def typeOf (field : Field δ) : Option (Schema δ) :=
  match field.type with
  | .named name => lib.find name
  | _ => none

def structOf (field : Field δ) : Option (Schema δ) :=
  (lib.typeOf field).filter (·.kind = .struct)

def enumOf (field : Field δ) : Option (Schema δ) :=
  (lib.typeOf field).filter (·.kind = .enum)

end Library

open Datatable (Rule quoted)

section Validate

variable (lib : Library δ) (schema : Schema δ)

def fieldRule (field : Field δ) (holds : Bool) (text : String) : Rule :=
  (holds, String.ofList schema.path ++ ": field " ++ quoted field.name ++ text)

def namedRules (field : Field δ) (name : Text) : List Rule :=
  (match lib.find name with
    | none => [fieldRule schema field false (" uses unknown type " ++ quoted name)]
    | some nested =>
      match nested.kind with
      | .table => [fieldRule schema field false
          (" uses table " ++ quoted name ++ "; reference a table with type 'ref'")]
      | .enum => [fieldRule schema field (!field.hasDefault || field.defaultString ∈ nested.values)
          (" default " ++ quoted field.defaultString ++ " is not a value of enum " ++
            quoted nested.name)]
      | .struct => [fieldRule schema field (!field.hasDefault) " cannot have a default value"]) ++
  [fieldRule schema field (!(field.hasMin || field.hasMax))
    (" has 'min' or 'max' but its type is " ++ quoted name),
   fieldRule schema field (field.values = []) (" has 'values' but its type is " ++ quoted name),
   fieldRule schema field (field.ref = []) (" has a 'ref' attribute but its type is " ++ quoted name),
   (!field.isKey, String.ofList schema.path ++ ": key field " ++ quoted field.name ++
    " must be a string or an int")]

/-- The rules for the `ref` attribute of a field with a scalar type. -/
def refRules (field : Field δ) : List Rule :=
  if field.type = .ref then
    match lib.find field.ref with
    | none => [fieldRule schema field false (" references unknown schema " ++ quoted field.ref)]
    | some target => [fieldRule schema field (target.kind = .table)
        (" references " ++ quoted field.ref ++ ", which is not a table")]
  else [fieldRule schema field (field.ref = [])
    (" has a 'ref' attribute but its type is " ++ quoted field.type.text)]

def scalarRules (field : Field δ) : List Rule :=
  if field.type = .ref ∧ field.ref = [] then
    [fieldRule schema field false " has type 'ref' but no 'ref' attribute"]
  else
    refRules lib schema field ++
    [fieldRule schema field (field.values = [] || field.type = .string)
      (" has 'values' but its type is " ++ quoted field.type.text),
     fieldRule schema field
      (!(field.hasMin || field.hasMax) || field.type = .int || field.type = .float)
      (" has 'min' or 'max' but its type is " ++ quoted field.type.text),
     (!field.isKey || field.type = .string || field.type = .int,
      String.ofList schema.path ++ ": key field " ++ quoted field.name ++
        " must be a string or an int"),
     (!field.isKey || !field.hasDefault, String.ofList schema.path ++ ": key field " ++
        quoted field.name ++ " cannot have a default"),
     (!field.isKey || field.values = [], String.ofList schema.path ++ ": key field " ++
        quoted field.name ++ " cannot have 'values'"),
     fieldRule schema field (!(field.hasDefault && field.type = .int && '.' ∈ field.defaultText))
      " has a non-integer default",
     fieldRule schema field
      (!(field.hasDefault && field.type = .bool && field.defaultText ≠ ['t', 'r', 'u', 'e'] &&
        field.defaultText ≠ ['f', 'a', 'l', 's', 'e']))
      " has a non-bool default"]

def fieldRules (field : Field δ) : List Rule :=
  match field.type with
  | .named name => namedRules lib schema field name
  | _ => scalarRules lib schema field

def valueRules : List Text → List Text → List Rule
  | _, [] => []
  | earlier, text :: values =>
    (if text = [] then
      [(false, String.ofList schema.path ++ ": enum " ++ quoted schema.name ++
        " declares an empty value")]
    else
      [(text ∉ earlier, String.ofList schema.path ++ ": enum " ++ quoted schema.name ++
        " declares duplicate value " ++ quoted text)]) ++ valueRules (earlier ++ [text]) values

def keyRules : List Rule :=
  match schema.fields[schema.keyIndex]? with
  | none => []
  | some key => [(key.type = .string || key.type = .int, String.ofList schema.path ++
      ": key field " ++ quoted key.name ++ " must be a string or an int")]

/-- The rules of the first loop of `validate_library`, for one schema. -/
def schemaRules : List Rule :=
  if schema.kind = .enum then
    (schema.values ≠ [], String.ofList schema.path ++ ": enum " ++ quoted schema.name ++
      " declares no values") :: valueRules schema [] schema.values
  else
    (if schema.kind = .table then keyRules schema else []) ++
      schema.fields.flatMap (fieldRules lib schema)

/-- `visit_struct`: the errors it reports. The stack holds different names of schemas, so that it
gets no deeper than there are schemas. -/
def visitStruct : Nat → List Text → Schema δ → List String
  | 0, _, schema =>
    [String.ofList schema.path ++ ": struct " ++ quoted schema.name ++ " nests itself"]
  | rest + 1, stack, schema =>
    if schema.kind = .enum then []
    else if schema.name ∈ stack then
      [String.ofList schema.path ++ ": struct " ++ quoted schema.name ++ " nests itself"]
    else schema.fields.flatMap fun field =>
      match lib.structOf field with
      | none => []
      | some nested => visitStruct rest (schema.name :: stack) nested

def validateLibrary : List String :=
  (lib.schemas.flatMap fun schema =>
    (schemaRules lib schema).filterMap fun rule => if rule.1 then none else some rule.2) ++
  lib.schemas.flatMap fun schema =>
    if schema.kind = .enum then [] else visitStruct lib (lib.schemas.length + 1) [] schema

end Validate

end PulseEngine.Tablegen

/-!
## The generated code

`tools/tablegen/codegen.cpp`: the descriptors it emits for a table, and the meaning of the fill
function it emits, field by field. The scopes of a table are the table and the structs that
`collect_scopes` reaches from it. Defaults stand in the emitted source as literals; the literal of a
float inside a missing struct is a `float`.
-/

namespace PulseEngine.Tablegen

open Datalist Datatable PulseEngine.Library

variable {δ : Type} [Double δ] {ρ : Type}

section Descriptors

variable (lib : Library δ)

/-- The type `emit_column_descriptors` gives a column, after the last call of `column_type`. -/
def emittedType (field : Field δ) : ColumnType :=
  match field.type with
  | .named _ => if (lib.structOf field).isSome then .struct else .enum
  | _ =>
    if field.values ≠ [] then .enum
    else
      match field.type with
      | .int => .int
      | .float => .float
      | .bool => .bool
      | .string => .string
      | _ => if (lib.find field.ref).isSome then .ref else .enum

def emitsDefault (field : Field δ) : Bool :=
  field.hasDefault && (field.type = .int || field.type = .float || field.type = .bool ||
    field.type = .string)

/-- The descriptor `emit_column_descriptors` emits for a field. -/
def emitColumn (field : Field δ) : ColumnDesc δ where
  name := field.name
  type := emittedType lib field
  minValue := if field.hasMin then field.minValue else Double.ofInt 0
  maxValue := if field.hasMax then field.maxValue else Double.ofInt 0
  hasMin := field.hasMin
  hasMax := field.hasMax
  hasDefault := emitsDefault field
  defaultInt :=
    if field.hasDefault then
      match field.type with
      | .int => field.defaultInt
      | .float => Double.toInt field.defaultFloat
      | _ => 0
    else 0
  defaultFloat :=
    if field.hasDefault then
      match field.type with
      | .int => Double.ofInt field.defaultInt
      | .float => field.defaultFloat
      | _ => Double.ofInt 0
    else Double.ofInt 0
  defaultBool := field.hasDefault && field.type = .bool && field.defaultBool
  defaultString := if field.hasDefault ∧ field.type = .string then some field.defaultString else none
  structType := (lib.structOf field).map (·.name)
  refType := if field.type = .ref then some field.ref else none
  enumType :=
    match field.type with
    | .named _ => if (lib.structOf field).isSome then none else (lib.typeOf field).map (·.name)
    | _ =>
      if field.values ≠ [] then some (field.name ++ ['_', 'v', 'a', 'l', 'u', 'e', 's']) else none

def structNames (fields : List (Field δ)) : List Text :=
  fields.filterMap fun field => (lib.structOf field).map (·.name)

def nestedNames (name : Text) : List Text :=
  ((lib.find name).map fun schema => structNames lib schema.fields).getD []

/-- `collect_scopes`: the names of the structs of a table, in the order of their scopes. -/
def structOrder (table : Schema δ) : List Text :=
  collect (nestedNames lib) (lib.schemas.length + 1) [] (structNames lib table.fields)

def scopes (table : Schema δ) : List (Schema δ) :=
  table :: (structOrder lib table).filterMap lib.find

def firstOfName : List EnumDesc → List EnumDesc :=
  List.foldl (fun kept desc => if kept.any (·.name = desc.name) then kept else kept ++ [desc]) []

/-- The enum descriptors of a table: the enum schemas its fields name, and the whitelists of its
fields. The source sorts them by name. -/
def emitEnums (table : Schema δ) : List EnumDesc :=
  firstOfName
    ((scopes lib table).flatMap (fun schema => schema.fields.filterMap fun field =>
        (lib.enumOf field).map fun nested => ⟨nested.name, nested.values⟩) ++
      (scopes lib table).flatMap (fun schema => schema.fields.filterMap fun field =>
        match field.type with
        | .named _ => none
        | _ =>
          if field.values ≠ [] then
            some ⟨field.name ++ ['_', 'v', 'a', 'l', 'u', 'e', 's'], field.values⟩
          else none))

def emitStruct (schema : Schema δ) : StructDesc δ :=
  ⟨schema.name, schema.fields.map (emitColumn lib)⟩

/-- The descriptor `emit_schema_descriptor` emits for a table. -/
def emitSchema (table : Schema δ) : SchemaDesc δ where
  name := table.name
  columns := table.fields.map (emitColumn lib)
  structs := ((structOrder lib table).filterMap lib.find).map (emitStruct lib)
  enums := emitEnums lib table
  keyColumn := table.keyIndex
  keyIsInt := (table.fields[table.keyIndex]?).any (·.type = .int)

end Descriptors

section Defaults

variable (lib : Library δ)

def structIsDefaultable : Nat → List Text → Schema δ → Bool
  | 0, _, _ => false
  | rest + 1, visiting, schema =>
    schema.name ∉ visiting && schema.fields.all fun field =>
      match field.type with
      | .named _ =>
        match lib.typeOf field with
        | none => false
        | some nested =>
          if nested.kind = .enum then field.hasDefault
          else structIsDefaultable rest (schema.name :: visiting) nested
      | _ => field.hasDefault

def columnIsDefaultable (field : Field δ) : Bool :=
  match field.type with
  | .named _ =>
    match lib.typeOf field with
    | none => false
    | some nested =>
      if nested.kind = .enum then field.hasDefault
      else structIsDefaultable lib (lib.schemas.length + 1) [] nested
  | _ => field.hasDefault

/-- The body of `field_default_expression`, `nested` being the default of a struct and `literal` what
a string literal is. -/
def fieldDefaultBody {σ : Type} (literal : Text → σ) (nested : List (Field δ) → List (Cell δ ρ σ))
    (field : Field δ) : List (Cell δ ρ σ) :=
  match field.type with
  | .bool => [.bool field.defaultBool]
  | .int => [.int field.defaultInt]
  | .float => [.float (Double.floatLiteral field.defaultFloat)]
  | .string => [.string (literal field.defaultString)]
  | .ref => [.ref none]
  | .named _ =>
    match lib.typeOf field with
    | none => []
    | some schema =>
      if schema.kind = .enum then [.string (literal field.defaultString)] else nested schema.fields

/-- `nested_default_expression`, for structs that nest at most `depth` deep below the fields. -/
def nestedDefault {σ : Type} (literal : Text → σ) : Nat → List (Field δ) → List (Cell δ ρ σ)
  | 0, fields => fields.flatMap (fieldDefaultBody lib literal fun _ => [])
  | depth + 1, fields => fields.flatMap (fieldDefaultBody lib literal (nestedDefault literal depth))

end Defaults

section Generated

variable (lib : Library δ) (owner : SchemaDesc δ) (doc : Document δ)
  (resolveRef : Text → Text → Except String ρ)

def enumLookup (column : ColumnDesc δ) (text : Text) : Option Nat :=
  (owner.enumOf column).bind fun desc => desc.values.findIdx? (· = text)

def literalView (text : Text) : StringView := ⟨text, none⟩

/-- What the code of `emit_field_fill` does for an enum. -/
def fillEnum (field : Field δ) (value : Option NodeId) (raw : Text) :
    Fill (List (Cell δ ρ StringView)) :=
  match enumLookup owner (emitColumn lib field) raw with
  | none => .fail ⟨line doc value, .invalidEnumValue,
      "column " ++ quoted field.name ++ " is not in the enum whitelist"⟩
  | some _ => do
    let view ← Fill.append raw
    return [.string view]

/-- What the code of `emit_field_fill` does after its test for a missing value, `nested` being the
fill function of a struct and `default` its default expression. -/
def fillPresent (nested : List (Field δ) → Option NodeId → Fill (List (List (Cell δ ρ StringView))))
    (default : List (Field δ) → List (Cell δ ρ StringView)) (field : Field δ)
    (value : Option NodeId) : Fill (List (Cell δ ρ StringView)) :=
  let column := emitColumn lib field
  match field.type with
  | .int =>
    match value with
    | none => fieldSetInt column field.defaultInt (line doc value)
    | some _ =>
      if getType doc value none = .int then
        fieldSetInt column (getInt doc value none 0) (line doc value)
      else failColumnType column (line doc value) "an int"
  | .float =>
    match value with
    | none => fieldSetFloat column field.defaultFloat (line doc value)
    | some _ =>
      if getType doc value none = .double ∨ getType doc value none = .int then
        fieldSetFloat column (getDouble doc value none (Double.ofInt 0)) (line doc value)
      else failColumnType column (line doc value) "a float"
  | .bool =>
    match value with
    | none => pure [.bool field.defaultBool]
    | some _ =>
      if getType doc value none = .bool then pure [.bool (getBool doc value none false)]
      else failColumnType column (line doc value) "a bool"
  | .string =>
    match value with
    | none => pure [.string (literalView field.defaultString)]
    | some _ =>
      if getType doc value none = .string then do
        let view ← Fill.append ((getString doc value none (some [])).getD [])
        return [.string view]
      else failColumnType column (line doc value) "a string"
  | .named _ =>
    if (lib.enumOf field).isSome then
      match value with
      | none => fillEnum lib owner doc field value field.defaultString
      | some _ =>
        if getType doc value none = .string then
          fillEnum lib owner doc field value ((getString doc value none (some [])).getD [])
        else failColumnType column (line doc value) "an enum name"
    else
      match lib.structOf field with
      | none => pure [.ref none]
      | some schema =>
        match value with
        | none => pure (default schema.fields)
        | some _ =>
          if getType doc value none = .map then do
            let cells ← nested schema.fields value
            return cells.flatten
          else failColumnType column (line doc value) "a nested table"
  | .ref =>
    match value, fillContextResolveRef doc resolveRef column value with
    | some _, .error text => .fail ⟨line doc value, .missingReference, text⟩
    | none, _ => pure [.ref none]
    | _, .ok row => pure [.ref (some row)]

def fillField (nested : List (Field δ) → Option NodeId → Fill (List (List (Cell δ ρ StringView))))
    (default : List (Field δ) → List (Cell δ ρ StringView)) (node : Option NodeId)
    (field : Field δ) : Fill (List (Cell δ ρ StringView)) :=
  let value := value doc node field.name
  if !field.hasDefault && !columnIsDefaultable lib field && value.isNone then
    failMissingColumn (emitColumn lib field) (line doc node)
  else fillPresent lib owner doc resolveRef nested default field value

/-- The fill function of a scope, for structs that nest at most `depth` deep below its fields. -/
def fillFields : Nat → List (Field δ) → Option NodeId → Fill (List (List (Cell δ ρ StringView)))
  | 0, fields, node =>
    fillEach (fillField lib owner doc resolveRef (fun _ _ => .fail ⟨0, .schemaIsNotRegistered, ""⟩)
      (fun _ => []) node) fields
  | depth + 1, fields, node =>
    fillEach (fillField lib owner doc resolveRef (fillFields depth)
      (nestedDefault lib literalView depth) node) fields

end Generated

def generatedFillRow (lib : Library δ) (doc : Document δ)
    (resolveRef : Text → Text → Except String ρ) (table : Schema δ) (node : Option NodeId) :
    Fill (List (List (Cell δ ρ StringView))) :=
  fillFields lib (emitSchema lib table) doc resolveRef lib.schemas.length table.fields node

end PulseEngine.Tablegen
