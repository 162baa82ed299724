import PulseEngine.Datatable.Fill

/-!
# Loading the rows of a file

The rest of `pulse_datatable/src/datatable_loader.cpp`: the bytes that are reserved for strings, the
checks of a row, and the rows as the step of the loader fills them one after the other. `readFile`
is what `LoadTask.file` stands for when a schema is filled by the engine.
-/

namespace PulseEngine.Datatable

open Datalist Asset

namespace Registry

/-- `pulse_data_table_find_row`; a row's address is its table and its index there. -/
def findRow (r : Registry) (slot : Option SlotAddress) (key : Text) : Option (TableId × Nat) := do
  let slot ← slot
  let t ← (r.memory slot).table
  let schema ← (r.memory slot).schema
  if schema.keyIsInt then none
  else
    let table ← r.tables t
    let row ← table.stringIndex (String.ofList key)
    return (t, row)

def resolveRefByKey (r : Registry) (refType key : Text) : Except String (TableId × Nat) :=
  if key = [] then .error "reference column expects a string key"
  else
    match r.findSchema refType with
    | none => .error "referenced schema is not registered"
    | some _ =>
      match r.findTable refType with
      | none => .error "referenced table is not loaded"
      | some t =>
        match r.findRow ((r.tables t).bind (·.slot)) key with
        | none => .error "referenced row does not exist"
        | some row => .ok row

def openTable (r : Registry) (h : Handle) (schema : Schema) (name : Path) : Registry :=
  (r.createTable h schema).1.modifyTable (r.createTable h schema).2 fun table =>
    { table with name := name }

end Registry

section Bytes

variable {δ : Type} [Double δ] (schema : SchemaDesc δ) (doc : Document δ)

def stringBytesOf (text : Text) : Nat := text.length + 1

/-- The body of the loops of `row_string_bytes` and `nested_string_bytes`. -/
def columnStringBytes (nested : List (ColumnDesc δ) → Option NodeId → Nat) (node : Option NodeId)
    (column : ColumnDesc δ) : Nat :=
  let value := value doc node column.name
  match column.type with
  | .string | .enum =>
    match value with
    | some _ => ((decodeString doc value none).map stringBytesOf).getD 0
    | none => if column.hasDefault then (column.defaultString.map stringBytesOf).getD 0 else 0
  | .struct =>
    match value with
    | some _ => ((schema.structOf column).map fun desc => nested desc.columns value).getD 0
    | none => 0
  | _ => 0

def nestedStringBytes : Nat → List (ColumnDesc δ) → Option NodeId → Nat
  | 0, columns, node => (columns.map (columnStringBytes schema doc (fun _ _ => 0) node)).sum
  | depth + 1, columns, node =>
    (columns.map (columnStringBytes schema doc (nestedStringBytes depth) node)).sum

def rowStringBytes (row : NodeId) : Nat :=
  nestedStringBytes schema doc schema.structs.length schema.columns (some row)

def reservedVault (rows : List NodeId) : StringVault :=
  StringVault.empty.reserve (rows.map (rowStringBytes schema doc)).sum

end Bytes

section Rows

variable {δ : Type} [Double δ] {ρ : Type} (schema : SchemaDesc δ) (doc : Document δ)

def SchemaDesc.brief : Schema where
  name := schema.name
  keyIsInt := schema.keyIsInt
  references := schema.columns.filterMap fun column =>
    if column.type = .ref then column.refType else none

def readKey (row : List (List (Cell δ ρ StringView))) : String × Int :=
  match (row[schema.keyColumn]?).bind (·.head?) with
  | some (.int v) => ("", v)
  | some (.string view) => (String.ofList view.text, 0)
  | _ => ("", 0)

def knownColumns (row : NodeId) : Bool :=
  (doc row).entries.all fun entry => (schema.findColumn entry.1).isSome

/-- Whether the columns that a row has pass `check_column`. -/
def checksColumns (row : NodeId) : Bool :=
  schema.columns.all fun column =>
    match value doc (some row) column.name with
    | none => true
    | some v => (checkColumn schema doc schema.structs.length column (some v)).isOk

def rowNode (row : NodeId) (filled : Except DataTableError Row) : RowNode where
  isMap := getType doc (some row) none = .map
  knownColumns := knownColumns schema doc row
  conforms := checksColumns schema doc row
  filled := filled

/-- The rows of the file, filled in order by `fillRow`; `encode` lays the scalars of a row out in
memory. -/
def readRows (fillRow : Option NodeId → Fill (List (List (Cell δ ρ StringView))))
    (encode : List (List (Cell δ ρ StringView)) → List UInt8) :
    StringVault → List NodeId → List RowNode
  | _, [] => []
  | vault, row :: rows =>
    match fillRow (some row) vault with
    | .error failure =>
      rowNode schema doc row (.error failure.error) :: readRows fillRow encode vault rows
    | .ok (cells, vault) =>
      let key := readKey schema cells
      rowNode schema doc row (.ok ⟨key.1, key.2, encode cells⟩) ::
        readRows fillRow encode vault rows

def rowsField (root : NodeId) : Option (List NodeId) :=
  match getObj doc (some root) ['r', 'o', 'w', 's'] with
  | none => none
  | some rows => if getType doc (some rows) none = .list then some (doc rows).items else none

/-- A parsed file, as `step_data_table_load` reads it for a schema without a `fill_row`. -/
def readFile (resolveRef : Text → Text → Except String ρ)
    (encode : List (List (Cell δ ρ StringView)) → List UInt8) (root : NodeId) : File where
  isMap := getType doc (some root) none = .map
  schema := getString doc (some root) (some ['s', 'c', 'h', 'e', 'm', 'a']) none
  rows := (rowsField doc root).map fun rows =>
    readRows schema doc (genericFillRow schema doc resolveRef) encode
      (reservedVault schema doc rows) rows

end Rows

end PulseEngine.Datatable
