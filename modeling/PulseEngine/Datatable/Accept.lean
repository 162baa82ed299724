import PulseEngine.Datatable.Binding
import PulseEngine.Datatable.Conform
import PulseEngine.Datatable.Load

/-!
# Which files are accepted

A file conforms if its header is right, its rows conform to the schema at every level, and the keys
of its rows differ. The step of the loader asks for less in one place and for more in two: it never
looks at the names inside a nested struct; it looks the columns of a nested struct up with `get_obj`,
which does not find scalars, so that only their defaults are checked; and a default that is taken
has to be a value of its column.
-/

namespace PulseEngine.Datatable

open Datalist Asset Library

inductive RowKey where
  | text (key : Text)
  | number (key : Int)
  deriving DecidableEq

section Conformance

variable {δ : Type} [Double δ] {ρ : Type} (schema : SchemaDesc δ) (doc : Document δ)
  (resolveRef : Text → Text → Except String ρ)

def SchemaDesc.top (row : NodeId) : Level δ := ⟨schema.columns, some row⟩

def rowKey (row : NodeId) : Option RowKey :=
  (schema.columns[schema.keyColumn]?).map fun key =>
    let value := value doc (some row) key.name
    if schema.keyIsInt then .number (getInt doc value none 0)
    else .text ((getString doc value none none).getD [])

/-- A row conforms to the schema: it is a table, and at every level the names are names of columns,
each column is present or has a default, and the values that are present fit their columns. -/
structure RowConforms (row : NodeId) : Prop where
  table : (doc row).type = .map
  known : Always (Descends schema doc) (Known doc) (schema.top row)
  typed : Always (Descends schema doc) (Typed schema doc resolveRef) (schema.top row)

def dataRows (root : NodeId) : Option (List NodeId) :=
  if (doc root).type = .map ∧
      getString doc (some root) (some ['s', 'c', 'h', 'e', 'm', 'a']) none = some schema.name then
    rowsField doc root
  else none

def FileConforms (root : NodeId) : Prop :=
  ∃ rows, dataRows schema doc root = some rows ∧
    (∀ row ∈ rows, RowConforms schema doc resolveRef row) ∧
    (rows.map (rowKey schema doc)).Nodup

structure RowFits (row : NodeId) : Prop where
  table : (doc row).type = .map
  known : Known doc (schema.top row)
  typed : Always (Descends schema doc) (Typed schema doc resolveRef) (schema.top row)

/-- What the loader asks of a row that fits: the nested structs that are present are loadable, and
the defaults that are taken are values of their columns. -/
structure RowLoads (row : NodeId) : Prop where
  loadable : Below (Descends schema doc) (Loadable doc resolveRef) (schema.top row)
  defaults : Always (Descends schema doc) (DefaultsFit doc resolveRef) (schema.top row)

def NestedKnown (row : NodeId) : Prop :=
  Below (Descends schema doc) (Known doc) (schema.top row)

/-- The condition on a file: if its rows conform except for the names inside nested structs, then
the loader asks nothing more of them if and only if those names are names of columns. -/
def NestedAgree (root : NodeId) : Prop :=
  ∀ rows, dataRows schema doc root = some rows →
    (∀ row ∈ rows, RowFits schema doc resolveRef row) → (rows.map (rowKey schema doc)).Nodup →
    ((∀ row ∈ rows, RowLoads schema doc resolveRef row) ↔ ∀ row ∈ rows, NestedKnown schema doc row)

end Conformance

variable {δ : Type} [Double δ] {ρ : Type} {schema desc : SchemaDesc δ} {doc : Document δ}
  {resolveRef : Text → Text → Except String ρ} {row root : NodeId} {rows : List NodeId}
  {encode : List (List (Cell δ ρ StringView)) → List UInt8} {vault : StringVault}

lemma rowConforms_iff : RowConforms schema doc resolveRef row ↔
    RowFits schema doc resolveRef row ∧ NestedKnown schema doc row := by
  constructor
  · rintro ⟨table, known, typed⟩
    rw [always_iff_below] at known
    exact ⟨⟨table, known.1, typed⟩, known.2⟩
  · rintro ⟨⟨table, known, typed⟩, nested⟩
    exact ⟨table, always_iff_below.mpr ⟨known, nested⟩, typed⟩

omit [Double δ] in
lemma knownColumns_iff (sound : ∀ column ∈ schema.columns, column.Sound schema) :
    knownColumns schema doc row ↔ Known doc (schema.top row) := by
  have hfind : ∀ name, (schema.findColumn name).isSome ↔
      ∃ column ∈ schema.columns, column.name = name := by
    intro name
    unfold SchemaDesc.findColumn
    by_cases hn : name = []
    · subst hn
      simp only [if_true, Option.isSome_none, Bool.false_eq_true, false_iff, not_exists, not_and]
      exact fun column hc => (sound column hc).name
    · simp [hn]
  simp only [knownColumns, List.all_eq_true, hfind]
  exact ⟨fun h v hv => by cases hv; exact h, fun h => h row rfl⟩

omit [Double δ] in
lemma node_none_of_descends {level level' : Level δ}
    (h : Relation.ReflTransGen (Descends schema doc) level level') (hn : level.node = none) :
    level'.node = none := by
  induction h with
  | refl => exact hn
  | tail _ hstep ih =>
    cases hstep with
    | struct => simp [ih]

lemma loadable_none {columns : List (ColumnDesc δ)} :
    Always (Descends schema doc) (Loadable doc resolveRef) ⟨columns, none⟩ := by
  intro level hl v hv
  rw [node_none_of_descends hl rfl] at hv
  cases hv

lemma accepts_listed {column : ColumnDesc δ} {v : NodeId} {listed : Text → Prop} :
    column.Accepts doc resolveRef listed v ↔
      column.Accepts doc resolveRef (fun _ => True) v ∧ (column.type = .enum → listed (doc v).s) := by
  unfold ColumnDesc.Accepts
  cases column.type <;> simp

lemma typed_iff {level : Level δ} :
    Typed schema doc resolveRef level ∧ DefaultsFit doc resolveRef level ↔
      FillReady doc resolveRef level ∧ ∀ column ∈ level.columns, ∀ v,
        value doc level.node column.name = some v → column.type = .enum →
          schema.Lists column (doc v).s := by
  unfold Typed DefaultsFit FillReady
  rw [← forall₂_and, ← forall₂_and]
  refine forall₂_congr fun column _ => ?_
  cases value doc level.node column.name with
  | none => simp [← imp_and]
  | some v => simpa using accepts_listed

lemma typed_of_loadable {level : Level δ} (ready : FillReady doc resolveRef level)
    (loadable : Loadable doc resolveRef level) :
    Typed schema doc resolveRef level ∧ DefaultsFit doc resolveRef level := by
  refine typed_iff.mpr ⟨ready, ?_⟩
  intro column hc v hv he
  cases hn : level.node with
  | none => simp [hn] at hv
  | some n => exact absurd he (loadable n hn column hc).1

lemma checkColumn_iff (reg : schema.Registered) {depth : Nat} {columns : List (ColumnDesc δ)}
    {node : Option NodeId} (nests : Nests schema depth columns)
    (ready : Always (Descends schema doc) (FillReady doc resolveRef) ⟨columns, node⟩)
    {column : ColumnDesc δ} (hc : column ∈ columns) {v : NodeId}
    (hv : value doc node column.name = some v) :
    checkColumn schema doc depth column (some v) = .ok () ↔
      (column.type = .enum → schema.Lists column (doc v).s) ∧
      (column.type = .struct → ∀ desc, schema.structOf column = some desc →
        Always (Descends schema doc) (Loadable doc resolveRef) ⟨desc.columns, some v⟩) := by
  obtain ⟨hready, hbelow⟩ := always_iff.mp ready
  have accepts := hready column hc
  simp only [hv] at accepts
  cases depth with
  | zero =>
    have hs : column.type ≠ .struct := nests column hc
    unfold checkColumn
    rw [checkColumnBody_some accepts, accepts_listed]
    simp [accepts, hs]
  | succ depth =>
    unfold checkColumn
    rw [checkColumnBody_some accepts, accepts_listed]
    by_cases hs : column.type = .struct
    · obtain ⟨desc, hd, hn⟩ := nests column hc hs
      have hlevel := hbelow _ (.struct hc hs hd)
      rw [hv] at hlevel
      have hnested := checkNested_iff reg hn (reg.sound_of_structOf hd) hlevel
      simp [accepts, hs, hd, hnested]
    · simp [accepts, hs]

lemma checksColumns_iff (reg : schema.Registered)
    (ready : Always (Descends schema doc) (FillReady doc resolveRef) (schema.top row)) :
    checksColumns schema doc row ↔
      (∀ column ∈ schema.columns, ∀ v, value doc (some row) column.name = some v →
        column.type = .enum → schema.Lists column (doc v).s) ∧
      Below (Descends schema doc) (Loadable doc resolveRef) (schema.top row) := by
  have hcheck : checksColumns schema doc row ↔ ∀ column ∈ schema.columns, ∀ v,
      value doc (some row) column.name = some v →
      checkColumn schema doc schema.structs.length column (some v) = .ok () := by
    unfold checksColumns
    rw [List.all_eq_true]
    refine forall₂_congr fun column _ => ?_
    cases value doc (some row) column.name with
    | none => simp
    | some v =>
      simp only [Option.some.injEq, forall_eq']
      cases checkColumn schema doc schema.structs.length column (some v) <;>
        simp [Except.isOk, Except.toBool]
  rw [hcheck, below_iff]
  constructor
  · intro h
    refine ⟨fun column hc v hv =>
      ((checkColumn_iff reg reg.nests ready hc hv).mp (h column hc v hv)).1, ?_⟩
    intro level hl
    cases hl with
    | @struct column desc hc hs hd =>
      show Always (Descends schema doc) (Loadable doc resolveRef)
        ⟨desc.columns, value doc (some row) column.name⟩
      cases hv : value doc (some row) column.name with
      | none => exact loadable_none
      | some v => exact ((checkColumn_iff reg reg.nests ready hc hv).mp (h column hc v hv)).2 hs _ hd
  · rintro ⟨listed, below⟩ column hc v hv
    refine (checkColumn_iff reg reg.nests ready hc hv).mpr ⟨listed column hc v hv, ?_⟩
    intro hs desc hd
    have hlevel := below _ (.struct hc hs hd)
    rwa [show value doc (schema.top row).node column.name = some v from hv] at hlevel

lemma row_accepted_iff (reg : schema.Registered) :
    (getType doc (some row) none = .map ∧ knownColumns schema doc row ∧
        checksColumns schema doc row ∧
        Always (Descends schema doc) (FillReady doc resolveRef) (schema.top row)) ↔
      RowFits schema doc resolveRef row ∧ RowLoads schema doc resolveRef row := by
  rw [knownColumns_iff reg.columns]
  constructor
  · rintro ⟨table, known, checks, ready⟩
    obtain ⟨listed, loadable⟩ := (checksColumns_iff reg ready).mp checks
    have htyped : Always (Descends schema doc) (fun level =>
        Typed schema doc resolveRef level ∧ DefaultsFit doc resolveRef level) (schema.top row) := by
      refine always_iff_below.mpr ⟨typed_iff.mpr ⟨ready _ .refl, listed⟩, ?_⟩
      exact fun level hl => typed_of_loadable (ready.below level hl) (loadable level hl)
    obtain ⟨typed, defaults⟩ := always_and.mp htyped
    exact ⟨⟨table, known, typed⟩, loadable, defaults⟩
  · rintro ⟨⟨table, known, typed⟩, loadable, defaults⟩
    have hboth := fun level hl => typed_iff.mp ⟨typed level hl, defaults level hl⟩
    have ready : Always (Descends schema doc) (FillReady doc resolveRef) (schema.top row) :=
      fun level hl => (hboth level hl).1
    exact ⟨table, known, (checksColumns_iff reg ready).mpr ⟨(hboth _ .refl).2, loadable⟩, ready⟩

def filledKey (schema : SchemaDesc δ) (doc : Document δ) (row : NodeId) : String × Int :=
  match rowKey schema doc row with
  | some (.number v) => ("", v)
  | some (.text text) => (String.ofList text, 0)
  | none => ("", 0)

omit [Double δ] in
lemma readKey_contents {cells : List (List (Cell δ ρ StringView))} :
    readKey schema cells =
      match ((contents StringView.text cells)[schema.keyColumn]?).bind (·.head?) with
      | some (.int v) => ("", v)
      | some (.string text) => (String.ofList text, 0)
      | _ => ("", 0) := by
  unfold readKey contents
  rw [List.getElem?_map]
  cases cells[schema.keyColumn]? with
  | none => rfl
  | some column =>
    cases column with
    | nil => rfl
    | cons cell column => cases cell <;> rfl

lemma written_getElem {depth i : Nat} {columns : List (ColumnDesc δ)} {node : Option NodeId} :
    ∃ nested, (written schema doc resolveRef depth columns node)[i]? =
      (columns[i]?).map (writtenColumn schema doc resolveRef nested node) := by
  cases depth with
  | zero => exact ⟨_, List.getElem?_map⟩
  | succ depth => exact ⟨_, List.getElem?_map⟩

lemma readKey_put (reg : schema.Registered)
    (ready : FillReady doc resolveRef (schema.top row)) :
    readKey schema (putRow vault
      (written schema doc resolveRef schema.structs.length schema.columns (some row))).1 =
      filledKey schema doc row := by
  obtain ⟨key, hkey, htype, hdefault, -, -, hint⟩ := reg.key
  obtain ⟨nested, hwritten⟩ := @written_getElem δ _ ρ schema doc resolveRef schema.structs.length
    schema.keyColumn schema.columns (some row)
  rw [readKey_contents, putRow_contents]
  unfold contents
  rw [List.getElem?_map, hwritten, hkey]
  unfold filledKey rowKey
  rw [hkey]
  have hready := ready key (List.mem_of_getElem? hkey)
  cases hv : value doc (schema.top row).node key.name with
  | none =>
    rw [hv] at hready
    cases htype with
    | inl ht => simp [ht, hdefault] at hready
    | inr ht => simp [ht, hdefault] at hready
  | some v =>
    have hv : value doc (some row) key.name = some v := hv
    cases htype with
    | inl ht => simp [writtenColumn, ht, hv, hint, Cell.mapString]
    | inr ht =>
      rw [show value doc (schema.top row).node key.name = some v from hv] at hready
      have hs : (doc v).type = .string := by simpa [ColumnDesc.Accepts, ht] using hready
      simp [writtenColumn, ht, hv, hint, Cell.mapString, hs]

lemma indexRows_number : ∀ {built : List Row} {table : Table} {n : Nat},
    table.schema.keyIsInt = true → (table.indexRows n built).isSome =
      (emplaceAll table.intIndex n (built.map (·.keyNumber))).isSome := by
  intro built
  induction built with
  | nil => intros; rfl
  | cons row built ih =>
    intro table n hk
    unfold Table.indexRows
    rw [List.map_cons]
    unfold emplaceAll
    simp only [hk, if_true]
    cases table.intIndex row.keyNumber with
    | some _ => rfl
    | none => exact ih hk

lemma indexRows_text : ∀ {built : List Row} {table : Table} {n : Nat},
    table.schema.keyIsInt = false → (table.indexRows n built).isSome =
      (emplaceAll table.stringIndex n (built.map (·.keyText))).isSome := by
  intro built
  induction built with
  | nil => intros; rfl
  | cons row built ih =>
    intro table n hk
    unfold Table.indexRows
    rw [List.map_cons]
    unfold emplaceAll
    simp only [hk, Bool.false_eq_true, if_false]
    cases table.stringIndex row.keyText with
    | some _ => rfl
    | none => exact ih hk

lemma indexRows_isSome (reg : schema.Registered) {built : List Row} {table : Table}
    (htable : table.schema = schema.brief) (hempty : table.intIndex = fun _ => none)
    (hempty' : table.stringIndex = fun _ => none)
    (hkeys : built.map (fun row => (row.keyText, row.keyNumber)) =
      rows.map (filledKey schema doc)) :
    (table.indexRows 0 built).isSome ↔ (rows.map (rowKey schema doc)).Nodup := by
  obtain ⟨key, hkey, -, -, -, -, hint⟩ := reg.key
  cases hk : schema.keyIsInt with
  | true =>
    have hnumbers : built.map (·.keyNumber) =
        rows.map fun row => getInt doc (value doc (some row) key.name) none 0 := by
      have := congrArg (List.map Prod.snd) hkeys
      simpa [filledKey, rowKey, hkey, hk, Function.comp_def] using this
    have hrows : rows.map (rowKey schema doc) = (rows.map fun row =>
        getInt doc (value doc (some row) key.name) none 0).map fun i => some (RowKey.number i) := by
      simp [rowKey, hkey, hk]
    have hinj : Function.Injective fun i => some (RowKey.number i) := fun a b h => by simpa using h
    rw [hrows, List.nodup_map_iff hinj, indexRows_number (by rw [htable]; exact hk),
      emplaceAll_isSome, hnumbers, hempty]
    simp
  | false =>
    have htexts : built.map (·.keyText) = rows.map fun row =>
        String.ofList ((getString doc (value doc (some row) key.name) none none).getD []) := by
      have := congrArg (List.map Prod.fst) hkeys
      simpa [filledKey, rowKey, hkey, hk, Function.comp_def] using this
    have hrows : rows.map (rowKey schema doc) = (rows.map fun row =>
        String.ofList ((getString doc (value doc (some row) key.name) none none).getD [])).map
          fun s => some (RowKey.text s.toList) := by
      simp [rowKey, hkey, hk, String.toList_ofList]
    have hinj : Function.Injective fun s : String => some (RowKey.text s.toList) :=
      fun a b h => String.toList_injective (by simpa using h)
    rw [hrows, List.nodup_map_iff hinj, indexRows_text (by rw [htable]; exact hk),
      emplaceAll_isSome, htexts, hempty']
    simp

lemma readRows_ok (reg : schema.Registered) : ∀ {rows : List NodeId} {vault : StringVault},
    (∀ row ∈ rows, Always (Descends schema doc) (FillReady doc resolveRef) (schema.top row)) →
    ∃ built, (readRows schema doc (genericFillRow schema doc resolveRef) encode vault rows).mapM
        (·.filled) = .ok built ∧
      built.map (fun row => (row.keyText, row.keyNumber)) = rows.map (filledKey schema doc) := by
  intro rows
  induction rows with
  | nil => exact fun _ => ⟨[], rfl, rfl⟩
  | cons row rows ih =>
    intro vault ready
    have hready := ready row List.mem_cons_self
    have hfill := (fills_fillColumns reg.nests).ok hready vault
    have hkey := @readKey_put _ _ _ schema doc resolveRef row vault reg (hready _ .refl)
    set filled := putRow vault
      (written schema doc resolveRef schema.structs.length schema.columns (some row)) with hfilled
    obtain ⟨built, hbuilt, hkeys⟩ := @ih filled.2 fun r hr => ready r (List.mem_cons_of_mem _ hr)
    refine ⟨⟨(filledKey schema doc row).1, (filledKey schema doc row).2, encode filled.1⟩ :: built,
      ?_, ?_⟩
    · unfold readRows genericFillRow
      rw [show schema.top row = ⟨schema.columns, some row⟩ from rfl] at hready
      simp only [hfill, hkey, List.mapM_cons, rowNode]
      unfold genericFillRow at hbuilt
      rw [hbuilt]
      rfl
    · simp [hkeys]

lemma readRows_error (reg : schema.Registered) : ∀ {rows : List NodeId} {vault : StringVault},
    (¬ ∀ row ∈ rows, Always (Descends schema doc) (FillReady doc resolveRef) (schema.top row)) →
    ∃ e, (readRows schema doc (genericFillRow schema doc resolveRef) encode vault rows).mapM
        (·.filled) = .error e := by
  intro rows
  induction rows with
  | nil => simp
  | cons row rows ih =>
    intro vault hnot
    have hfills : Fills (genericFillRow schema doc resolveRef (some row)) _ _ :=
      fills_fillColumns reg.nests
    unfold readRows
    by_cases hready :
        Always (Descends schema doc) (FillReady doc resolveRef) ⟨schema.columns, some row⟩
    · have hrest : ¬ ∀ r ∈ rows,
          Always (Descends schema doc) (FillReady doc resolveRef) (schema.top r) := by
        intro h
        exact hnot (List.forall_mem_cons.mpr ⟨hready, h⟩)
      rw [hfills.ok hready vault]
      obtain ⟨e, he⟩ := @ih (putRow vault
        (written schema doc resolveRef schema.structs.length schema.columns (some row))).2 hrest
      refine ⟨e, ?_⟩
      simp only [List.mapM_cons, rowNode, he]
      rfl
    · obtain ⟨failure, hf⟩ := hfills.error hready vault
      rw [hf]
      exact ⟨failure.error, rfl⟩

lemma readRows_any : ∀ {rows : List NodeId} {vault : StringVault}
    {fillRow : Option NodeId → Fill (List (List (Cell δ ρ StringView)))},
    ((readRows schema doc fillRow encode vault rows).any fun node =>
        !(node.isMap && node.knownColumns && node.conforms)) = false ↔
      ∀ row ∈ rows, getType doc (some row) none = .map ∧ knownColumns schema doc row ∧
        checksColumns schema doc row := by
  intro rows
  induction rows with
  | nil => simp [readRows]
  | cons row rows ih =>
    intro vault fillRow
    unfold readRows
    cases fillRow (some row) vault with
    | error failure =>
      rw [List.any_cons, Bool.or_eq_false_iff, ih, List.forall_mem_cons]
      simp only [rowNode, Bool.not_eq_false', Bool.and_eq_true, decide_eq_true_eq, and_assoc]
    | ok filled =>
      rw [List.any_cons, Bool.or_eq_false_iff, ih, List.forall_mem_cons]
      simp only [rowNode, Bool.not_eq_false', Bool.and_eq_true, decide_eq_true_eq, and_assoc]

lemma length_readRows : ∀ {rows : List NodeId} {vault : StringVault}
    {fillRow : Option NodeId → Fill (List (List (Cell δ ρ StringView)))},
    (readRows schema doc fillRow encode vault rows).length = rows.length := by
  intro rows
  induction rows with
  | nil => intros; rfl
  | cons row rows ih =>
    intro vault fillRow
    unfold readRows
    cases fillRow (some row) vault with
    | error failure => simp [ih]
    | ok filled => simp [ih]

/-- The step of the loader can open the file: the references of the schema are registered and their
tables are loaded. -/
structure Registry.Opens (r : Registry) (schema : Schema) (task : LoadTask) : Prop where
  found : r.findSchema (schemaNameFromPath task.path) = some schema
  requested : task.dependenciesRequested = false →
    (∀ name ∈ schema.references, (r.findSchema name).isSome) ∧ task.requestsValid
  loaded : ∀ state ∈ task.references, state = .loaded

variable {r : Registry} {task : LoadTask}

lemma openFile_ok (opens : r.Opens schema.brief task)
    (parsed : task.file = some (readFile schema doc resolveRef encode root))
    {s : Schema} {nodes : List RowNode} :
    r.openFile task = .ok (s, nodes) ↔ s = schema.brief ∧
      ∃ rows, dataRows schema doc root = some rows ∧
        nodes = readRows schema doc (genericFillRow schema doc resolveRef) encode
          (reservedVault schema doc rows) rows ∧
        (nodes.any fun node => !(node.isMap && node.knownColumns && node.conforms)) = false := by
  have hloaded : task.references.find? (· ≠ .loaded) = none := by
    simpa using opens.loaded
  have hrefs : task.dependenciesRequested = false →
      (schema.brief.references.any fun name => (r.findSchema name).isNone) = false := by
    intro h
    simpa [Option.isSome_iff_ne_none] using (opens.requested h).1
  unfold Registry.openFile
  simp only [opens.found, hloaded, parsed, bind, Except.bind, pure, Except.pure, throw, throwThe,
    MonadExceptOf.throw]
  have hskip : ∀ (e₁ e₂ x : Except LoaderStatus (Schema × List RowNode)),
      (if (!task.dependenciesRequested) = true then
        if (schema.brief.references.any fun name => (r.findSchema name).isNone) = true then e₁
        else if (!task.requestsValid) = true then e₂ else x
      else x) = x := by
    intro e₁ e₂ x
    cases hreq : task.dependenciesRequested with
    | true => rfl
    | false => simp [hrefs hreq, (opens.requested hreq).2]
  rw [hskip]
  have hname : schema.brief.name = schema.name := rfl
  simp only [readFile, getType_some, dataRows, hname]
  by_cases hm : (doc root).type = .map
  · cases hs : getString doc (some root) (some ['s', 'c', 'h', 'e', 'm', 'a']) none with
    | none => simp [hm]
    | some declared =>
      by_cases hd : declared = schema.name
      · cases hr : rowsField doc root with
        | none => simp [hm, hd]
        | some rows =>
          simp only [hm, hd, decide_true, Bool.not_true, Bool.false_eq_true, if_false, ne_eq,
            not_true, Option.map_some, and_self, if_true, Option.some.injEq, exists_eq_left']
          split
          · rename_i hany
            simp only [reduceCtorEq, false_iff, not_and, Bool.not_eq_false]
            rintro - rfl
            exact hany
          · rename_i hany
            simp only [Except.ok.injEq, Prod.mk.injEq]
            constructor
            · rintro ⟨rfl, rfl⟩
              exact ⟨rfl, rfl, by simpa using hany⟩
            · rintro ⟨rfl, rfl, -⟩
              exact ⟨rfl, rfl⟩
      · simp [hm, hd]
  · simp [hm]

lemma step_done_iff : (r.step task).2 = .done ↔ ∃ s nodes, r.openFile task = .ok (s, nodes) ∧
    ∃ table, (Table.reset s).fill (schemaNameFromPath task.path) nodes = .ok table := by
  unfold Registry.step
  cases ho : r.openFile task with
  | error status => simpa using Registry.openFile_ne_done ho
  | ok opened =>
    obtain ⟨s, nodes⟩ := opened
    simp only [Except.ok.injEq, Prod.mk.injEq, exists_eq_left', exists_and_left, and_assoc]
    cases hf : (Table.reset s).fill (schemaNameFromPath task.path) nodes with
    | error e => simp
    | ok table => simp

lemma fill_ok_iff (reg : schema.Registered) (few : rows.length < uint32Size) {name : Path} :
    (∃ table, (Table.reset schema.brief).fill name (readRows schema doc
        (genericFillRow schema doc resolveRef) encode vault rows) = .ok table) ↔
      (∀ row ∈ rows, Always (Descends schema doc) (FillReady doc resolveRef) (schema.top row)) ∧
        (rows.map (rowKey schema doc)).Nodup := by
  have htake : ∀ {fillRow : Option NodeId → Fill (List (List (Cell δ ρ StringView)))},
      (readRows schema doc fillRow encode vault rows).take rows.length =
        readRows schema doc fillRow encode vault rows :=
    List.take_of_length_le (Nat.le_of_eq length_readRows)
  unfold Table.fill
  simp only [length_readRows, Nat.mod_eq_of_lt few, htake]
  by_cases ready : ∀ row ∈ rows,
      Always (Descends schema doc) (FillReady doc resolveRef) (schema.top row)
  · obtain ⟨built, hbuilt, hkeys⟩ := @readRows_ok _ _ _ schema doc resolveRef encode reg _ vault ready
    have hindex := @indexRows_isSome _ _ schema doc rows reg built
      { Table.reset schema.brief with name := name, rowCount := rows.length, rows := built }
      rfl rfl rfl hkeys
    rw [and_iff_right ready, ← hindex]
    simp only [hbuilt]
    split
    · rename_i hn
      simp [hn]
    · rename_i table hn
      simp [hn]
  · obtain ⟨e, he⟩ := @readRows_error _ _ _ schema doc resolveRef encode reg _ vault ready
    simp [he, ready]

theorem step_done_iff_loads (reg : schema.Registered) (opens : r.Opens schema.brief task)
    (parsed : task.file = some (readFile schema doc resolveRef encode root))
    (few : ∀ rows, dataRows schema doc root = some rows → rows.length < uint32Size) :
    (r.step task).2 = .done ↔ ∃ rows, dataRows schema doc root = some rows ∧
      (∀ row ∈ rows, RowFits schema doc resolveRef row ∧ RowLoads schema doc resolveRef row) ∧
      (rows.map (rowKey schema doc)).Nodup := by
  rw [step_done_iff]
  constructor
  · rintro ⟨s, nodes, hopen, hfill⟩
    obtain ⟨rfl, rows, hrows, rfl, hany⟩ := (openFile_ok opens parsed).mp hopen
    obtain ⟨ready, nodup⟩ := (fill_ok_iff reg (few rows hrows)).mp hfill
    have hchecks := readRows_any.mp hany
    refine ⟨rows, hrows, fun row hr => ?_, nodup⟩
    obtain ⟨hm, hk, hc⟩ := hchecks row hr
    exact (row_accepted_iff reg).mp ⟨hm, hk, hc, ready row hr⟩
  · rintro ⟨rows, hrows, hboth, nodup⟩
    have haccepted := fun row hr => (row_accepted_iff reg).mpr (hboth row hr)
    refine ⟨_, _, (openFile_ok opens parsed).mpr ⟨rfl, rows, hrows, rfl, ?_⟩, ?_⟩
    · refine readRows_any.mpr fun row hr => ?_
      obtain ⟨hm, hk, hc, -⟩ := haccepted row hr
      exact ⟨hm, hk, hc⟩
    · refine (fill_ok_iff reg (few rows hrows)).mpr ⟨fun row hr => ?_, nodup⟩
      exact (haccepted row hr).2.2.2

/-- **Acceptance.** For every registered schema and every parsed file: the load of the table
succeeds if and only if the file conforms, exactly if the loader's view of the nested structs agrees
with the schema. -/
theorem load_accepts_conforming {desc schema : SchemaDesc δ}
    (reg : desc.register = .ok schema) {doc : Document δ} {root : NodeId} {r : Registry}
    {task : LoadTask} (opens : r.Opens schema.brief task)
    {encode : List (List (Cell δ (TableId × Nat) StringView)) → List UInt8}
    (parsed : task.file = some (readFile schema doc
      (r.openTable task.handle schema.brief (schemaNameFromPath task.path)).resolveRefByKey
      encode root))
    (few : ∀ rows, dataRows schema doc root = some rows → rows.length < uint32Size) :
    ((r.step task).2 = .done ↔ FileConforms schema doc
      (r.openTable task.handle schema.brief (schemaNameFromPath task.path)).resolveRefByKey root) ↔
    NestedAgree schema doc
      (r.openTable task.handle schema.brief (schemaNameFromPath task.path)).resolveRefByKey root := by
  rw [step_done_iff_loads (SchemaDesc.registered_of_register reg) opens parsed few]
  unfold FileConforms NestedAgree
  cases hrows : dataRows schema doc root with
  | none => simp
  | some rows =>
    simp only [Option.some.injEq, exists_eq_left', forall_eq', rowConforms_iff, forall₂_and]
    tauto

def plainColumn (name : Text) (type : ColumnType) : ColumnDesc Int :=
  ⟨name, type, 0, 0, false, false, false, 0, 0, false, none, none, none, none⟩

def skillColumn : ColumnDesc Int := { plainColumn ['s'] .struct with structType := some ['k'] }

def heroes : SchemaDesc Int where
  name := ['h']
  columns := [plainColumn ['i', 'd'] .string, skillColumn]
  structs := [⟨['k'], [{ plainColumn ['p'] .int with hasDefault := true, defaultInt := 1 }]⟩]
  enums := []
  keyColumn := 0
  keyIsInt := false

/-- A file with one hero, whose skill has a column `q`. -/
def heroFile : Document Int
  | 0 => { Node.empty .map with
      entries := [(['s', 'c', 'h', 'e', 'm', 'a'], 1), (['r', 'o', 'w', 's'], 2)] }
  | 1 => { Node.empty .string with s := ['h'] }
  | 2 => { Node.empty .list with items := [3] }
  | 3 => { Node.empty .map with entries := [(['i', 'd'], 4), (['s'], 5)] }
  | 4 => { Node.empty .string with s := ['a'] }
  | 5 => { Node.empty .map with entries := [(['q'], 6)] }
  | _ => { Node.empty .int with i := 3 }

def heroRegistry : Registry := Registry.init.registerSchema heroes.brief

def heroTask : LoadTask where
  handle := ⟨1, 1, 1⟩
  path := ['h', '.', 'd']
  dependenciesRequested := true
  requestsValid := true
  references := []
  file := some (readFile heroes heroFile
    (heroRegistry.openTable ⟨1, 1, 1⟩ heroes.brief ['h']).resolveRefByKey (fun _ => []) 0)

lemma heroTask_opens : heroRegistry.Opens heroes.brief heroTask := by
  refine ⟨by decide, fun h => absurd h (by decide), fun _ h => by cases h⟩

lemma heroFile_few : ∀ rows, dataRows heroes heroFile 0 = some rows → rows.length < uint32Size := by
  intro rows h
  have hrows : dataRows heroes heroFile 0 = some [3] := by decide
  cases hrows.symm.trans h
  decide

theorem load_accepts_conforming_heroes :
    ((heroRegistry.step heroTask).2 = .done ↔ FileConforms heroes heroFile
      (heroRegistry.openTable ⟨1, 1, 1⟩ heroes.brief ['h']).resolveRefByKey 0) ↔
    NestedAgree heroes heroFile
      (heroRegistry.openTable ⟨1, 1, 1⟩ heroes.brief ['h']).resolveRefByKey 0 :=
  @load_accepts_conforming Int _ heroes heroes rfl heroFile 0 heroRegistry heroTask heroTask_opens
    (fun _ => []) rfl heroFile_few

/-- The load succeeds, but the file does not conform: no column of a skill is called `q`. -/
theorem not_load_accepts_conforming : ¬ ∀ (desc schema : SchemaDesc Int),
    desc.register = .ok schema → ∀ (doc : Document Int) (root : NodeId) (r : Registry)
    (task : LoadTask), r.Opens schema.brief task →
    ∀ (encode : List (List (Cell Int (TableId × Nat) StringView)) → List UInt8),
    task.file = some (readFile schema doc
      (r.openTable task.handle schema.brief (schemaNameFromPath task.path)).resolveRefByKey
      encode root) →
    ((r.step task).2 = .done ↔ FileConforms schema doc
      (r.openTable task.handle schema.brief (schemaNameFromPath task.path)).resolveRefByKey
      root) := by
  intro h
  have hiff := h heroes heroes rfl heroFile 0 heroRegistry heroTask heroTask_opens (fun _ => []) rfl
  obtain ⟨rows, hrows, hconforms, -⟩ := hiff.mp (by decide)
  have hthree : dataRows heroes heroFile 0 = some [3] := by decide
  cases hthree.symm.trans hrows
  have hknown := (hconforms 3 (by simp)).known
  have hlevel : Descends heroes heroFile (heroes.top 3) ⟨_, value heroFile (some 3) ['s']⟩ :=
    @Descends.struct Int heroes heroFile (heroes.top 3) skillColumn _
      (by simp [heroes, SchemaDesc.top]) rfl rfl
  obtain ⟨column, hc, hname⟩ := hknown _ (.single hlevel) 5 rfl (['q'], 6) (by simp [heroFile])
  cases List.mem_singleton.mp hc
  exact absurd hname (by decide)

end PulseEngine.Datatable
