import PulseEngine.Asset.Basic
import PulseEngine.Library.Emplace

/-!
# The registry of data tables

`pulse_datatable/src/datatable_registry.cpp` and the step of the loader in `datatable_loader.cpp`.
A `Table*` is the number of its allocation. The `TableSlot` an asset handle leads to lies in the
storage of its asset slot, which is allocated once and stays: its address is the handle's index.

What the loader reads from elsewhere is part of the task: the state of the references in the asset
system, and what the file decodes to, row by row. `fill_row` may be a callback of the schema, so a
row node carries what filling it gave.
-/

namespace PulseEngine.Datatable

open Asset Library

/-- A `Table*`. -/
abbrev TableId := Nat

/-- The address of a `TableSlot`. -/
abbrev SlotAddress := Nat

/-- The members of `PulseDataTableSchemaDesc` that loading looks at; `references` are the schemas
its reference columns name. -/
structure Schema where
  name : Path
  keyIsInt : Bool
  references : List Path
  deriving DecidableEq, Repr

structure Row where
  keyText : String
  keyNumber : Int
  cells : List UInt8
  deriving DecidableEq

structure Table where
  schema : Schema
  slot : Option SlotAddress
  name : Path
  rows : List Row
  rowCount : Nat
  stringIndex : String → Option Nat
  intIndex : Int → Option Nat

/-- `TableSlot`; `rows` is the table whose row buffer it points to. -/
structure TableSlot where
  schema : Option Schema
  rows : Option TableId
  rowCount : Nat
  table : Option TableId
  deriving DecidableEq

/-- `Registry`, with the tables that are allocated and the memory of the table slots. -/
structure Registry where
  tables : TableId → Option Table
  nextTable : TableId
  memory : SlotAddress → TableSlot
  schemas : Path → Option Schema
  slots : Nat → Option TableId
  live : SlotAddress → Option TableId
  tableOrder : List TableId

/-- The errors `step_data_table_load` reports. -/
inductive DataTableError where
  | noSchemaForType
  | schemaIsNotRegistered
  | missingReference
  | parseFailed
  | rootIsNotTable
  | schemaFieldMissing
  | rowsFieldMissing
  | missingColumn
  | typeMismatch
  | outOfRange
  | invalidEnumValue
  | duplicateKey
  deriving DecidableEq, Repr

/-- `EPulseAssetLoaderStatus`, as far as this loader returns it. -/
inductive LoaderStatus where
  | pending
  | done
  | failed (error : DataTableError)
  deriving DecidableEq, Repr

inductive ReferenceState where
  | invalid
  | gone
  | inProgress
  | loaded
  deriving DecidableEq, Repr

/-- One node of the `rows` list: whether it is a map, declares known columns only and passes
`check_column`, and what `fill_row` makes of it. -/
structure RowNode where
  isMap : Bool
  knownColumns : Bool
  conforms : Bool
  filled : Except DataTableError Row
  deriving DecidableEq

/-- A parsed file: whether its root is a map, its `schema` string and its `rows` list. -/
structure File where
  isMap : Bool
  schema : Option Path
  rows : Option (List RowNode)
  deriving DecidableEq

/-- What one call of `step_data_table_load` is given. -/
structure LoadTask where
  handle : Handle
  path : Path
  dependenciesRequested : Bool
  requestsValid : Bool
  references : List ReferenceState
  file : Option File
  deriving DecidableEq

namespace Table

def reset (schema : Schema) : Table := ⟨schema, none, [], [], 0, fun _ => none, fun _ => none⟩

/-- The loop of `step_data_table_load` that indexes the keys (`read_key`), from row `r` on. -/
def indexRows (table : Table) : Nat → List Row → Option Table
  | _, [] => some table
  | r, row :: rows =>
    if table.schema.keyIsInt then
      match table.intIndex row.keyNumber with
      | some _ => none
      | none => indexRows { table with intIndex := emplace table.intIndex row.keyNumber r } (r + 1) rows
    else
      match table.stringIndex row.keyText with
      | some _ => none
      | none =>
        indexRows { table with stringIndex := emplace table.stringIndex row.keyText r } (r + 1) rows

lemma indexRows_eq {rows : List Row} : ∀ {r : Nat} {table table' : Table},
    table.indexRows r rows = some table' →
      ∃ ints strings, table' = { table with intIndex := ints, stringIndex := strings } := by
  induction rows with
  | nil =>
    intro r table table' e
    cases e
    exact ⟨_, _, rfl⟩
  | cons row rows ih =>
    intro r table table' e
    unfold indexRows at e
    split at e
    · split at e
      · cases e
      · obtain ⟨ints, strings, rfl⟩ := ih e
        exact ⟨ints, strings, rfl⟩
    · split at e
      · cases e
      · obtain ⟨ints, strings, rfl⟩ := ih e
        exact ⟨ints, strings, rfl⟩

/-- What `step_data_table_load` does to the table it created: fill its rows, then index them. The
row count is a `uint32_t`. -/
def fill (table : Table) (name : Path) (nodes : List RowNode) : Except DataTableError Table :=
  let rowCount := nodes.length % uint32Size
  match (nodes.take rowCount).mapM (·.filled) with
  | .error error => .error error
  | .ok rows =>
    match indexRows { table with name := name, rowCount := rowCount, rows := rows } 0 rows with
    | none => .error .duplicateKey
    | some table => .ok table

end Table

def schemaNameFromPath (path : Path) : Path :=
  let file := (path.reverse.takeWhile fun c => c ≠ '/' && c ≠ '\\').reverse
  if '.' ∈ file then (file.reverse.dropWhile (· ≠ '.')).tail.reverse else file

namespace Registry

def init : Registry where
  tables _ := none
  nextTable := 0
  memory _ := ⟨none, none, 0, none⟩
  schemas _ := none
  slots _ := none
  live _ := none
  tableOrder := []

def findSchema (r : Registry) (name : Path) : Option Schema :=
  if name = [] then none else r.schemas name

def registerSchema (r : Registry) (schema : Schema) : Registry :=
  { r with schemas := emplace r.schemas schema.name schema }

def modifyTable (r : Registry) (t : TableId) (f : Table → Table) : Registry :=
  { r with tables := Function.update r.tables t ((r.tables t).map f) }

def createTable (r : Registry) (h : Handle) (schema : Schema) : Registry × TableId :=
  ({ r with
    tables := Function.update r.tables r.nextTable (some (Table.reset schema))
    nextTable := r.nextTable + 1
    tableOrder := r.tableOrder ++ [r.nextTable]
    slots := emplace r.slots h.index r.nextTable }, r.nextTable)

def destroyTable (r : Registry) (t : TableId) : Registry :=
  { r with
    tables := Function.update r.tables t none
    tableOrder := r.tableOrder.erase t
    slots := eraseValue r.slots t }

def bindSlot (r : Registry) (h : Handle) (slot : SlotAddress) : Registry :=
  match r.slots h.index with
  | none => r
  | some t =>
    let bound : TableSlot :=
      { r.memory slot with table := some t, schema := (r.tables t).map (·.schema) }
    { r.modifyTable t fun table => { table with slot := some slot } with
      memory := Function.update r.memory slot bound
      live := emplace r.live slot t }

def releaseSlot (r : Registry) (slot : SlotAddress) : Registry :=
  let r :=
    match r.live slot with
    | none => r
    | some t =>
      { r.modifyTable t fun table => { table with slot := none } with
        live := Function.update r.live slot none }
  { r with memory := Function.update r.memory slot ⟨none, none, 0, none⟩ }

def findTable (r : Registry) (name : Path) : Option TableId :=
  if name = [] then none
  else r.tableOrder.reverse.find? fun t => (r.tables t).any fun table => table.name = name

def tableSlot (r : Registry) (name : Path) : Option SlotAddress :=
  (r.findTable name).bind fun t => (r.tables t).bind (·.slot)

/-- `step_data_table_load` up to the creation of the table: the schema and the row nodes, or the
status it returns. -/
def openFile (r : Registry) (task : LoadTask) : Except LoaderStatus (Schema × List RowNode) := do
  let some schema := r.findSchema (schemaNameFromPath task.path)
    | throw (.failed .noSchemaForType)
  if !task.dependenciesRequested then
    if schema.references.any fun name => (r.findSchema name).isNone then
      throw (.failed .schemaIsNotRegistered)
    if !task.requestsValid then throw (.failed .schemaIsNotRegistered)
  -- the references are looked at in order, and the first that is not loaded decides
  match task.references.find? (· ≠ .loaded) with
  | some .inProgress => throw .pending
  | some _ => throw (.failed .missingReference)
  | none => pure ()
  let some file := task.file | throw (.failed .parseFailed)
  if !file.isMap then throw (.failed .rootIsNotTable)
  let some declared := file.schema | throw (.failed .schemaFieldMissing)
  if declared ≠ schema.name then throw (.failed .schemaIsNotRegistered)
  let some nodes := file.rows | throw (.failed .rowsFieldMissing)
  if nodes.any fun node => !(node.isMap && node.knownColumns && node.conforms) then
    throw (.failed .typeMismatch)
  return (schema, nodes)

/-- `step_data_table_load` once the table is filled: the table slot is bound and written. -/
def finishLoad (r : Registry) (h : Handle) (t : TableId) (table : Table) : Registry :=
  let r := (r.modifyTable t fun _ => table).bindSlot h h.index
  let slot : TableSlot := { r.memory h.index with rows := some t, rowCount := table.rowCount }
  { r with memory := Function.update r.memory h.index slot }

def step (r : Registry) (task : LoadTask) : Registry × LoaderStatus :=
  match r.openFile task with
  | .error status => (r, status)
  | .ok (schema, nodes) =>
    let (r, t) := r.createTable task.handle schema
    match (Table.reset schema).fill (schemaNameFromPath task.path) nodes with
    | .error error => (r.destroyTable t, .failed error)
    | .ok table => (r.finishLoad task.handle t table, .done)

/-- What happens to the registry from outside: a schema is registered, the loader takes a step for
an asset, an asset is destroyed (`destroy_data_table_asset`). -/
inductive Event where
  | registerSchema (schema : Schema)
  | step (task : LoadTask)
  | destroy (h : Handle)

def Event.index : Event → Option Nat
  | .registerSchema _ => none
  | .step task => some task.handle.index
  | .destroy h => some h.index

def apply (r : Registry) : Event → Registry
  | .registerSchema schema => r.registerSchema schema
  | .step task => (r.step task).1
  | .destroy h => r.releaseSlot h.index

def after (events : List Event) : Registry := events.foldl apply init

def builds (r : Registry) (task : LoadTask) : Option Table :=
  match r.openFile task with
  | .error _ => none
  | .ok (schema, nodes) =>
    ((Table.reset schema).fill (schemaNameFromPath task.path) nodes).toOption

end Registry

end PulseEngine.Datatable
