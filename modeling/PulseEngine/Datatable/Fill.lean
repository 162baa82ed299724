import PulseEngine.Datatable.Descriptor
import PulseEngine.Datatable.Registry
import PulseEngine.Datatable.Vault

/-!
# Checking a column

`check_column` of `pulse_datatable/src/datatable_schema.cpp` with the decoders it uses. The
recursion over struct types carries a bound; `Nests` says that the number of struct types of a
registered schema is enough.
-/

namespace PulseEngine.Datatable

open Datalist

structure CheckFailure where
  error : DataTableError
  message : String
  deriving DecidableEq

variable {δ : Type} [Double δ] (schema : SchemaDesc δ) (doc : Document δ)

def checkRange (column : ColumnDesc δ) (value : δ) : Except CheckFailure Unit :=
  if column.hasMin && Double.lt value column.minValue then
    .error ⟨.outOfRange, "value is below the schema minimum"⟩
  else if column.hasMax && Double.lt column.maxValue value then
    .error ⟨.outOfRange, "value is above the schema maximum"⟩
  else .ok ()

def decodeInt (node : Option NodeId) (default : Int) : Option Int :=
  match node with
  | none => some default
  | some _ => if getType doc node none = .int then some (getInt doc node none default) else none

def decodeFloat (node : Option NodeId) (default : δ) : Option δ :=
  match node with
  | none => some default
  | some _ =>
    if getType doc node none = .double ∨ getType doc node none = .int then
      some (getDouble doc node none default)
    else none

def decodeBool (node : Option NodeId) (default : Bool) : Option Bool :=
  match node with
  | none => some default
  | some _ => if getType doc node none = .bool then some (getBool doc node none default) else none

/-- `decode_string`. The comparison of the length with the first NUL byte is always true: the
length is the one `strlen` gave. -/
def decodeString (node : Option NodeId) (default : Option Text) : Option Text :=
  match node with
  | none => default
  | some _ =>
    if getType doc node none = .string then
      match getString doc node none none with
      | some text => some text
      | none => default
    else none

def decodeEnum (desc : Option EnumDesc) (node : Option NodeId) : Option Text :=
  match desc with
  | none => none
  | some desc =>
    if getType doc node none = .string then
      match getString doc node none none with
      | some text => if text ∈ desc.values then some text else none
      | none => none
    else none

/-- The loop of `check_column` over the columns of a struct type. -/
def checkNested (check : ColumnDesc δ → Option NodeId → Except CheckFailure Unit)
    (node : Option NodeId) : List (ColumnDesc δ) → Except CheckFailure Unit
  | [] => .ok ()
  | nested :: columns => do
    let value := getObj doc node nested.name
    if value.isNone && !nested.hasDefault then
      throw ⟨.missingColumn, "nested table is missing a required column"⟩
    check nested value
    checkNested check node columns

/-- The body of `check_column`, `nested` checking the columns of a struct type. -/
def checkColumnBody (nested : List (ColumnDesc δ) → Option NodeId → Except CheckFailure Unit)
    (column : ColumnDesc δ) (node : Option NodeId) : Except CheckFailure Unit :=
  match column.type with
  | .int =>
    match decodeInt doc node (if column.hasDefault then column.defaultInt else 0) with
    | none => .error ⟨.typeMismatch, "column expects an int"⟩
    | some value => checkRange column (Double.ofInt value)
  | .float =>
    match decodeFloat doc node (if column.hasDefault then column.defaultFloat else Double.ofInt 0)
    with
    | none => .error ⟨.typeMismatch, "column expects a float"⟩
    | some value => checkRange column value
  | .bool =>
    match decodeBool doc node (if column.hasDefault then column.defaultBool else false) with
    | none => .error ⟨.typeMismatch, "column expects a bool"⟩
    | some _ => .ok ()
  | .string =>
    match decodeString doc node (if column.hasDefault then column.defaultString else none) with
    | none => .error ⟨.typeMismatch, "column expects a string without embedded NUL bytes"⟩
    | some _ => .ok ()
  | .enum =>
    match decodeEnum doc (schema.enumOf column) node with
    | none => .error ⟨.invalidEnumValue, "column value is not in the enum whitelist"⟩
    | some _ => .ok ()
  | .struct =>
    if getType doc node none = .map then
      match schema.structOf column with
      | none => .error ⟨.schemaIsNotRegistered, "struct type is not declared in the schema"⟩
      | some desc => nested desc.columns node
    else .error ⟨.typeMismatch, "column expects a nested table"⟩
  | .ref =>
    match decodeString doc node none with
    | none => .error ⟨.typeMismatch, "reference column expects a string key"⟩
    | some _ => .ok ()

def checkColumn : Nat → ColumnDesc δ → Option NodeId → Except CheckFailure Unit
  | 0 => checkColumnBody schema doc fun _ _ =>
    .error ⟨.schemaIsNotRegistered, "struct type is not declared in the schema"⟩
  | depth + 1 => checkColumnBody schema doc fun columns node =>
    checkNested doc (checkColumn depth) node columns

end PulseEngine.Datatable

/-!
## Filling a row

`fill_columns` of `pulse_datatable/src/datatable_schema.cpp`. A row is the list of its columns, and
a column the list of the scalars at its place in memory: a nested struct lies inside its row. The
texts of errors are given before `snprintf` cuts them to its buffer.

`Fills` is the specification a fill is given: when it succeeds and what it writes then. What is
written does not depend on the vault; where the strings lie does.
-/

namespace PulseEngine.Datatable

open Datalist

structure FillFailure where
  line : Int
  error : DataTableError
  text : String
  deriving DecidableEq

/-- A scalar of a row: `σ` are its strings, `ρ` the addresses of rows. -/
inductive Cell (δ ρ σ : Type) where
  | int (value : Int)
  | float (value : δ)
  | bool (value : Bool)
  | string (view : σ)
  | ref (row : Option ρ)
  deriving DecidableEq

abbrev Fill (α : Type) := StateT StringVault (Except FillFailure) α

def Fill.fail {α : Type} (failure : FillFailure) : Fill α := fun _ => .error failure

def Fill.append (text : Text) : Fill StringView := fun vault => .ok (vault.append text)

variable {δ : Type} [Double δ] {ρ : Type}

def failMissingColumn {α : Type} (column : ColumnDesc δ) (line : Int) : Fill α :=
  .fail ⟨line, .missingColumn, "column " ++ quoted column.name ++ " is missing"⟩

def failColumnType {α : Type} (column : ColumnDesc δ) (line : Int) (expectation : String) : Fill α :=
  .fail ⟨line, .typeMismatch, "column " ++ quoted column.name ++ " expects " ++ expectation⟩

/-- `pulse_data_table_field_set_int`, with the report of a failure. -/
def fieldSetInt (column : ColumnDesc δ) (value : Int) (line : Int) :
    Fill (List (Cell δ ρ StringView)) :=
  match checkRange column (Double.ofInt value) with
  | .error failure => .fail ⟨line, .outOfRange, failure.message⟩
  | .ok () => pure [.int value]

/-- `pulse_data_table_field_set_float`, with the report of a failure. -/
def fieldSetFloat (column : ColumnDesc δ) (value : δ) (line : Int) :
    Fill (List (Cell δ ρ StringView)) :=
  match checkRange column value with
  | .error failure => .fail ⟨line, .outOfRange, failure.message⟩
  | .ok () => pure [.float value]

section Generic

def fillEach {ι : Type} (fill : ι → Fill (List (Cell δ ρ StringView))) :
    List ι → Fill (List (List (Cell δ ρ StringView)))
  | [] => pure []
  | column :: columns => do
    let cells ← fill column
    let rest ← fillEach fill columns
    return cells :: rest

variable (schema : SchemaDesc δ) (doc : Document δ)
  (resolveRef : Text → Text → Except String ρ)

/-- `pulse_data_table_fill_context_resolve_ref`; `resolveRef` is `resolve_ref_by_key`, given the
table a column refers to. -/
def fillContextResolveRef (column : ColumnDesc δ) (node : Option NodeId) : Except String ρ :=
  match node, decodeString doc node none with
  | some _, some key => resolveRef (column.refType.getD []) key
  | _, _ => .error "reference column expects a string key"

/-- The body of the loop of `fill_columns`, `nested` filling the columns of a struct type. -/
def fillColumn
    (nested : List (ColumnDesc δ) → Option NodeId → Fill (List (List (Cell δ ρ StringView))))
    (node : Option NodeId) (column : ColumnDesc δ) : Fill (List (Cell δ ρ StringView)) :=
  let value := value doc node column.name
  match column.type with
  | .int =>
    match value with
    | none =>
      if column.hasDefault then fieldSetInt column column.defaultInt (line doc value)
      else failMissingColumn column (line doc node)
    | some _ =>
      if getType doc value none = .int then
        fieldSetInt column (getInt doc value none 0) (line doc value)
      else failColumnType column (line doc value) "an int"
  | .float =>
    match value with
    | none =>
      if column.hasDefault then fieldSetFloat column column.defaultFloat (line doc value)
      else failMissingColumn column (line doc node)
    | some _ =>
      if getType doc value none = .double ∨ getType doc value none = .int then
        fieldSetFloat column (getDouble doc value none (Double.ofInt 0)) (line doc value)
      else failColumnType column (line doc value) "a float"
  | .bool =>
    match value with
    | none =>
      if column.hasDefault then pure [.bool column.defaultBool]
      else failMissingColumn column (line doc node)
    | some _ =>
      if getType doc value none = .bool then pure [.bool (getBool doc value none false)]
      else failColumnType column (line doc value) "a bool"
  | .string | .enum =>
    match value with
    | none =>
      if column.hasDefault then pure [.string ⟨column.defaultString.getD [], none⟩]
      else failMissingColumn column (line doc node)
    | some _ =>
      if getType doc value none = .string then do
        let view ← Fill.append ((getString doc value none (some [])).getD [])
        return [.string view]
      else failColumnType column (line doc value) "a string"
  | .struct =>
    match schema.structOf column with
    | none => .fail ⟨line doc value, .schemaIsNotRegistered,
        "struct type is not declared in the schema"⟩
    | some desc =>
      match value with
      | none => do
        let cells ← nested desc.columns none
        return cells.flatten
      | some _ =>
        if getType doc value none = .map then do
          let cells ← nested desc.columns value
          return cells.flatten
        else failColumnType column (line doc value) "a nested table"
  | .ref =>
    match value with
    | none =>
      if column.hasDefault then
        match resolveRef (column.refType.getD []) (column.defaultString.getD []) with
        | .error text => .fail ⟨line doc node, .missingReference, text⟩
        | .ok row => pure [.ref (some row)]
      else failMissingColumn column (line doc node)
    | some _ =>
      match fillContextResolveRef doc resolveRef column value with
      | .error text => .fail ⟨line doc value, .missingReference, text⟩
      | .ok row => pure [.ref (some row)]

def fillColumns : Nat → List (ColumnDesc δ) → Option NodeId →
    Fill (List (List (Cell δ ρ StringView)))
  | 0, columns, node =>
    fillEach (fillColumn schema doc resolveRef (fun _ _ => .fail ⟨0, .schemaIsNotRegistered,
      "struct type is not declared in the schema"⟩) node) columns
  | depth + 1, columns, node =>
    fillEach (fillColumn schema doc resolveRef (fillColumns depth) node) columns

def genericFillRow (node : Option NodeId) : Fill (List (List (Cell δ ρ StringView))) :=
  fillColumns schema doc resolveRef schema.structs.length schema.columns node

end Generic

def putCells (vault : StringVault) :
    List (Cell δ ρ Written) → List (Cell δ ρ StringView) × StringVault
  | [] => ([], vault)
  | .int v :: cells => let (rest, vault) := putCells vault cells; (.int v :: rest, vault)
  | .float v :: cells => let (rest, vault) := putCells vault cells; (.float v :: rest, vault)
  | .bool v :: cells => let (rest, vault) := putCells vault cells; (.bool v :: rest, vault)
  | .ref row :: cells => let (rest, vault) := putCells vault cells; (.ref row :: rest, vault)
  | .string w :: cells =>
    let (view, vault) := vault.put w
    let (rest, vault) := putCells vault cells
    (.string view :: rest, vault)

def putRow (vault : StringVault) :
    List (List (Cell δ ρ Written)) → List (List (Cell δ ρ StringView)) × StringVault
  | [] => ([], vault)
  | cells :: columns =>
    let (cells, vault) := putCells vault cells
    let (rest, vault) := putRow vault columns
    (cells :: rest, vault)

def Cell.mapString {σ τ : Type} (f : σ → τ) : Cell δ ρ σ → Cell δ ρ τ
  | .int v => .int v
  | .float v => .float v
  | .bool v => .bool v
  | .string s => .string (f s)
  | .ref row => .ref row

def contents {σ : Type} (text : σ → Text) (row : List (List (Cell δ ρ σ))) :
    List (List (Cell δ ρ Text)) :=
  row.map fun cells => cells.map (Cell.mapString text)

/-- The specification of a fill: it succeeds if and only if it is ready, and does then what `put`
does. -/
structure Fills {α : Type} (fill : Fill α) (ready : Prop) (put : StringVault → α × StringVault) :
    Prop where
  ok : ready → ∀ vault, fill vault = .ok (put vault)
  error : ¬ ready → ∀ vault, ∃ failure, fill vault = .error failure

namespace Fills

variable {α β : Type} {fill : Fill α} {ready : Prop} {put : StringVault → α × StringVault}

lemma fail (failure : FillFailure) : Fills (Fill.fail failure : Fill α) False put :=
  ⟨False.elim, fun _ _ => ⟨failure, rfl⟩⟩

lemma pure (a : α) : Fills (pure a : Fill α) True fun vault => (a, vault) :=
  ⟨fun _ _ => rfl, fun h => absurd trivial h⟩

lemma bind {next : α → Fill β} {ready' : Prop} {put' : α → StringVault → β × StringVault}
    (first : Fills fill ready put) (second : ∀ a, Fills (next a) ready' (put' a)) :
    Fills (fill >>= next) (ready ∧ ready') fun vault => put' (put vault).1 (put vault).2 := by
  constructor
  · rintro ⟨hready, hready'⟩ vault
    show (fill vault >>= fun p => next p.1 p.2) = _
    rw [first.ok hready vault]
    exact (second _).ok hready' _
  · intro hnot vault
    show ∃ failure, (fill vault >>= fun p => next p.1 p.2) = _
    by_cases hready : ready
    · rw [first.ok hready vault]
      exact (second _).error (fun h => hnot ⟨hready, h⟩) _
    · obtain ⟨failure, hf⟩ := first.error hready vault
      rw [hf]
      exact ⟨failure, rfl⟩

lemma map (f : α → β) (h : Fills fill ready put) :
    Fills (fill >>= fun a => Pure.pure (f a)) ready fun vault => (f (put vault).1, (put vault).2) := by
  have hb := h.bind fun a => Fills.pure (f a)
  rwa [and_true] at hb

lemma guard {c : Prop} [Decidable c] (h : Fills fill ready put) (failure : FillFailure) :
    Fills (if c then fill else Fill.fail failure) (c ∧ ready) put := by
  by_cases hc : c
  · simpa [hc] using h
  · simpa [hc] using fail failure

lemma of_iff {ready' : Prop} (h : Fills fill ready put) (hr : ready' ↔ ready) :
    Fills fill ready' put :=
  ⟨fun h' => h.ok (hr.mp h'), fun h' => h.error (fun hr' => h' (hr.mpr hr'))⟩

end Fills

@[simp] lemma StringVault.put_text (vault : StringVault) (w : Written) :
    (vault.put w).1.text = w.text := by
  unfold StringVault.put
  cases w.stored <;> rfl

omit [Double δ] in
lemma putCells_contents (vault : StringVault) (cells : List (Cell δ ρ Written)) :
    (putCells vault cells).1.map (Cell.mapString StringView.text) =
      cells.map (Cell.mapString Written.text) := by
  induction cells generalizing vault with
  | nil => rfl
  | cons cell cells ih => cases cell <;> simp [putCells, Cell.mapString, ih]

omit [Double δ] in
lemma putRow_contents (vault : StringVault) (row : List (List (Cell δ ρ Written))) :
    contents StringView.text (putRow vault row).1 = contents Written.text row := by
  induction row generalizing vault with
  | nil => rfl
  | cons cells row ih =>
    have hrest := ih (putCells vault cells).2
    simp only [contents] at hrest
    simp [contents, putRow, putCells_contents, hrest]

omit [Double δ] in
lemma putCells_append (vault : StringVault) (cells cells' : List (Cell δ ρ Written)) :
    putCells vault (cells ++ cells') =
      ((putCells vault cells).1 ++ (putCells (putCells vault cells).2 cells').1,
        (putCells (putCells vault cells).2 cells').2) := by
  induction cells generalizing vault with
  | nil => rfl
  | cons cell cells ih => cases cell <;> simp [putCells, ih]

omit [Double δ] in
lemma putCells_flatten (vault : StringVault) (columns : List (List (Cell δ ρ Written))) :
    putCells vault columns.flatten =
      ((putRow vault columns).1.flatten, (putRow vault columns).2) := by
  induction columns generalizing vault with
  | nil => rfl
  | cons cells columns ih => simp [putRow, putCells_append, ih]

omit [Double δ] in
lemma fills_fillEach {ι : Type} {fill : ι → Fill (List (Cell δ ρ StringView))}
    {ready : ι → Prop} {written : ι → List (Cell δ ρ Written)} :
    ∀ {columns : List ι},
    (∀ column ∈ columns, Fills (fill column) (ready column) (putCells · (written column))) →
    Fills (fillEach fill columns) (∀ column ∈ columns, ready column)
      (putRow · (columns.map written)) := by
  intro columns
  induction columns with
  | nil =>
    intro _
    exact (Fills.pure []).of_iff (by simp)
  | cons column columns ih =>
    intro h
    have hcolumn := h column List.mem_cons_self
    have hrest := ih fun c hc => h c (List.mem_cons_of_mem _ hc)
    have hboth := hcolumn.bind fun cells => hrest.map fun rest => cells :: rest
    exact hboth.of_iff (by simp)

end PulseEngine.Datatable
