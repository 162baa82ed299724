import PulseEngine.Datatable.Fill
import PulseEngine.Datatable.Registered
import PulseEngine.Library.Descent

/-!
# When a row can be checked and filled

A row is looked at level by level: a level is a list of columns and the node that has their values,
and a struct column leads to the level of its struct type. `check_column` and `fill_columns` both
descend these levels. What each of them asks of a level is said here, and proved of the two
functions; a missing node is a struct that is missing.
-/

namespace PulseEngine.Datatable

open Datalist Library

variable {δ : Type} [Double δ] {ρ : Type}

structure Level (δ : Type) where
  columns : List (ColumnDesc δ)
  node : Option NodeId

def ColumnDesc.InRange (column : ColumnDesc δ) (value : δ) : Prop :=
  (column.hasMin → Double.lt value column.minValue = false) ∧
    (column.hasMax → Double.lt column.maxValue value = false)

section Levels

variable (schema : SchemaDesc δ) (doc : Document δ) (resolveRef : Text → Text → Except String ρ)

inductive Descends : Level δ → Level δ → Prop where
  | struct {level : Level δ} {column : ColumnDesc δ} {desc : StructDesc δ} :
    column ∈ level.columns → column.type = .struct → schema.structOf column = some desc →
    Descends level ⟨desc.columns, value doc level.node column.name⟩

/-- A value of the column: it has the type of the column and lies in its range; `listed` is asked
of the text of an enum. -/
def ColumnDesc.Accepts (listed : Text → Prop) (column : ColumnDesc δ) (v : NodeId) : Prop :=
  match column.type with
  | .int => (doc v).type = .int ∧ column.InRange (Double.ofInt (doc v).i)
  | .float => ((doc v).type = .double ∨ (doc v).type = .int) ∧
      column.InRange (getDouble doc (some v) none (Double.ofInt 0))
  | .bool => (doc v).type = .bool
  | .string => (doc v).type = .string
  | .enum => (doc v).type = .string ∧ listed (doc v).s
  | .struct => (doc v).type = .map
  | .ref => (doc v).type = .string ∧
      ∃ row, resolveRef (column.refType.getD []) (doc v).s = .ok row

def SchemaDesc.Lists (column : ColumnDesc δ) (text : Text) : Prop :=
  ∃ desc, schema.enumOf column = some desc ∧ text ∈ desc.values

def ColumnDesc.DefaultFits (column : ColumnDesc δ) : Prop :=
  match column.type with
  | .int => column.InRange (Double.ofInt column.defaultInt)
  | .float => column.InRange column.defaultFloat
  | .ref => ∃ row, resolveRef (column.refType.getD []) (column.defaultString.getD []) = .ok row
  | _ => True

def FillReady (level : Level δ) : Prop :=
  ∀ column ∈ level.columns,
    match value doc level.node column.name with
    | none => column.type ≠ .struct → column.hasDefault ∧ column.DefaultFits resolveRef
    | some v => column.Accepts doc resolveRef (fun _ => True) v

def Typed (level : Level δ) : Prop :=
  ∀ column ∈ level.columns,
    match value doc level.node column.name with
    | none => column.type ≠ .struct → column.hasDefault
    | some v => column.Accepts doc resolveRef (schema.Lists column) v

def DefaultsFit (level : Level δ) : Prop :=
  ∀ column ∈ level.columns, value doc level.node column.name = none → column.type ≠ .struct →
    column.DefaultFits resolveRef

/-- What `check_column` asks of a struct that is present, beyond what filling it asks: its struct
columns are present, and its other columns are no enums or references and have a default that fits,
also where a value is present. -/
def Loadable (level : Level δ) : Prop :=
  ∀ v, level.node = some v → ∀ column ∈ level.columns,
    column.type ≠ .enum ∧ column.type ≠ .ref ∧
    (column.type = .struct → (value doc (some v) column.name).isSome) ∧
    (column.type ≠ .struct → column.hasDefault ∧ column.DefaultFits resolveRef)

def Known (level : Level δ) : Prop :=
  ∀ v, level.node = some v → ∀ entry ∈ (doc v).entries,
    ∃ column ∈ level.columns, column.name = entry.1

end Levels

variable {schema : SchemaDesc δ} {doc : Document δ} {resolveRef : Text → Text → Except String ρ}
  {columns : List (ColumnDesc δ)} {column : ColumnDesc δ} {node : Option NodeId} {v : NodeId}
  {depth : Nat}

lemma checkRange_ok {value : δ} : checkRange column value = .ok () ↔ column.InRange value := by
  unfold checkRange ColumnDesc.InRange
  cases column.hasMin <;> cases column.hasMax <;> cases Double.lt value column.minValue <;>
    cases Double.lt column.maxValue value <;> simp

omit [Double δ] in
lemma always_columns {P : Level δ → Prop} {p : ColumnDesc δ → Prop}
    (hP : P ⟨columns, node⟩ ↔ ∀ column ∈ columns, p column) :
    Always (Descends schema doc) P ⟨columns, node⟩ ↔ ∀ column ∈ columns, p column ∧
      (column.type = .struct → ∀ desc, schema.structOf column = some desc →
        Always (Descends schema doc) P ⟨desc.columns, value doc node column.name⟩) := by
  rw [always_iff, hP]
  constructor
  · rintro ⟨here, below⟩ column hc
    exact ⟨here column hc, fun hs desc hd => below _ (.struct hc hs hd)⟩
  · intro h
    refine ⟨fun column hc => (h column hc).1, ?_⟩
    intro level hl
    cases hl with
    | struct hc hs hd => exact (h _ hc).2 hs _ hd

section Written

variable (schema : SchemaDesc δ) (doc : Document δ) (resolveRef : Text → Text → Except String ρ)

def writtenColumn (nested : List (ColumnDesc δ) → Option NodeId → List (List (Cell δ ρ Written)))
    (node : Option NodeId) (column : ColumnDesc δ) : List (Cell δ ρ Written) :=
  let value := value doc node column.name
  match column.type with
  | .int => [.int (if value.isSome then getInt doc value none 0 else column.defaultInt)]
  | .float =>
    [.float (if value.isSome then getDouble doc value none (Double.ofInt 0)
      else column.defaultFloat)]
  | .bool => [.bool (if value.isSome then getBool doc value none false else column.defaultBool)]
  | .string | .enum =>
    [.string (if value.isSome then ⟨(getString doc value none (some [])).getD [], true⟩
      else ⟨column.defaultString.getD [], false⟩)]
  | .struct => ((schema.structOf column).map fun desc => (nested desc.columns value).flatten).getD []
  | .ref =>
    let key := if value.isSome then (getString doc value none none).getD []
      else column.defaultString.getD []
    [.ref (resolveRef (column.refType.getD []) key).toOption]

def written : Nat → List (ColumnDesc δ) → Option NodeId → List (List (Cell δ ρ Written))
  | 0, columns, node => columns.map (writtenColumn schema doc resolveRef (fun _ _ => []) node)
  | depth + 1, columns, node =>
    columns.map (writtenColumn schema doc resolveRef (written depth) node)

end Written

lemma writtenColumn_congr
    {nested nested' : List (ColumnDesc δ) → Option NodeId → List (List (Cell δ ρ Written))}
    (h : column.type = .struct → ∀ desc, schema.structOf column = some desc →
      nested desc.columns (value doc node column.name) =
        nested' desc.columns (value doc node column.name)) :
    writtenColumn schema doc resolveRef nested node column =
      writtenColumn schema doc resolveRef nested' node column := by
  unfold writtenColumn
  cases ht : column.type with
  | int | float | bool | string | enum | ref => rfl
  | struct =>
    cases hd : schema.structOf column with
    | none => rfl
    | some desc => simp [h ht desc hd]

lemma written_congr : ∀ {depth : Nat} {columns : List (ColumnDesc δ)} {node : Option NodeId},
    Nests schema depth columns → ∀ {depth' : Nat}, depth ≤ depth' →
    written schema doc resolveRef depth' columns node =
      written schema doc resolveRef depth columns node := by
  intro depth
  induction depth with
  | zero =>
    intro columns node nests depth' _
    cases depth' with
    | zero => rfl
    | succ depth' =>
      refine List.map_congr_left fun column hc => ?_
      exact writtenColumn_congr fun hs => absurd hs (nests column hc)
  | succ depth ih =>
    intro columns node nests depth' hle
    cases depth' with
    | zero => exact absurd hle (Nat.not_succ_le_zero _)
    | succ depth' =>
      refine List.map_congr_left fun column hc => writtenColumn_congr fun hs desc hd => ?_
      obtain ⟨desc', hd', hn⟩ := nests column hc hs
      cases hd.symm.trans hd'
      exact ih hn (Nat.le_of_succ_le_succ hle)

omit [Double δ] in
lemma fills_single {cell : Cell δ ρ StringView} {w : Cell δ ρ Written}
    (h : ∀ vault, putCells vault [w] = ([cell], vault)) :
    Fills (pure [cell] : Fill (List (Cell δ ρ StringView))) True (putCells · [w]) := by
  have hput : (putCells · [w]) = fun vault => ([cell], vault) := funext h
  rw [hput]
  exact Fills.pure _

lemma fills_fieldSetInt (i line : Int) :
    Fills (fieldSetInt column i line : Fill (List (Cell δ ρ StringView)))
      (column.InRange (Double.ofInt i)) (putCells · [.int i]) := by
  unfold fieldSetInt
  cases h : checkRange column (Double.ofInt i) with
  | error failure => exact (Fills.fail _).of_iff (by simp [← checkRange_ok, h])
  | ok u => exact (fills_single fun _ => rfl).of_iff (by simp [← checkRange_ok, h])

lemma fills_fieldSetFloat (d : δ) (line : Int) :
    Fills (fieldSetFloat column d line : Fill (List (Cell δ ρ StringView)))
      (column.InRange d) (putCells · [.float d]) := by
  unfold fieldSetFloat
  cases h : checkRange column d with
  | error failure => exact (Fills.fail _).of_iff (by simp [← checkRange_ok, h])
  | ok u => exact (fills_single fun _ => rfl).of_iff (by simp [← checkRange_ok, h])

omit [Double δ] in
lemma fills_append (text : Text) :
    Fills (Fill.append text >>= fun view => pure [.string view] : Fill (List (Cell δ ρ StringView)))
      True (putCells · [.string ⟨text, true⟩]) :=
  ⟨fun _ _ => rfl, fun h => absurd trivial h⟩

omit [Double δ] in
lemma fills_ref {found : Except String ρ} {failure : String → FillFailure} :
    Fills (match found with
      | .error text => Fill.fail (failure text)
      | .ok row => pure [.ref (some row)] : Fill (List (Cell δ ρ StringView)))
      (∃ row, found = .ok row) (putCells · [.ref found.toOption]) := by
  cases found with
  | error text => exact (Fills.fail _).of_iff (by simp)
  | ok row => exact (fills_single fun _ => rfl).of_iff (by simp)

omit [Double δ] in
lemma fills_flatten {fill : Fill (List (List (Cell δ ρ StringView)))} {ready : Prop}
    {columns : List (List (Cell δ ρ Written))} (h : Fills fill ready (putRow · columns)) :
    Fills (fill >>= fun cells => pure cells.flatten) ready (putCells · columns.flatten) := by
  have hput : (putCells · columns.flatten) = fun vault : StringVault =>
      ((putRow vault columns).1.flatten, (putRow vault columns).2) :=
    funext fun vault => putCells_flatten vault columns
  rw [hput]
  exact h.map List.flatten

lemma fills_fillColumn
    {nested : List (ColumnDesc δ) → Option NodeId → Fill (List (List (Cell δ ρ StringView)))}
    {nestedReady : List (ColumnDesc δ) → Option NodeId → Prop}
    {nestedWritten : List (ColumnDesc δ) → Option NodeId → List (List (Cell δ ρ Written))}
    (hnested : column.type = .struct → ∃ desc, schema.structOf column = some desc ∧
      ∀ value, Fills (nested desc.columns value) (nestedReady desc.columns value)
        (putRow · (nestedWritten desc.columns value))) :
    Fills (fillColumn schema doc resolveRef nested node column)
      ((match value doc node column.name with
        | none => column.type ≠ .struct → column.hasDefault ∧ column.DefaultFits resolveRef
        | some v => column.Accepts doc resolveRef (fun _ => True) v) ∧
        (column.type = .struct → ∀ desc, schema.structOf column = some desc →
          nestedReady desc.columns (value doc node column.name)))
      (putCells · (writtenColumn schema doc resolveRef nestedWritten node column)) := by
  unfold fillColumn writtenColumn ColumnDesc.DefaultFits ColumnDesc.Accepts
  cases ht : column.type with
  | int =>
    cases hv : value doc node column.name with
    | none => exact ((fills_fieldSetInt _ _).guard _).of_iff (by simp)
    | some v =>
      refine ((fills_fieldSetInt _ _).guard _).of_iff ?_
      simp +contextual [getInt, resolve]
  | float =>
    cases hv : value doc node column.name with
    | none => exact ((fills_fieldSetFloat _ _).guard _).of_iff (by simp)
    | some v => exact ((fills_fieldSetFloat _ _).guard _).of_iff (by simp)
  | bool =>
    cases hv : value doc node column.name with
    | none => exact ((fills_single fun _ => rfl).guard _).of_iff (by simp)
    | some v => exact ((fills_single fun _ => rfl).guard _).of_iff (by simp)
  | string =>
    cases hv : value doc node column.name with
    | none => exact ((fills_single fun _ => rfl).guard _).of_iff (by simp)
    | some v => exact ((fills_append _).guard _).of_iff (by simp)
  | enum =>
    cases hv : value doc node column.name with
    | none => exact ((fills_single fun _ => rfl).guard _).of_iff (by simp)
    | some v => exact ((fills_append _).guard _).of_iff (by simp)
  | struct =>
    obtain ⟨desc, hdesc, hfills⟩ := hnested ht
    cases hv : value doc node column.name with
    | none =>
      simp only [hdesc]
      exact (fills_flatten (hfills none)).of_iff (by simp)
    | some v =>
      simp only [hdesc]
      exact ((fills_flatten (hfills (some v))).guard _).of_iff (by simp)
  | ref =>
    cases hv : value doc node column.name with
    | none => exact (fills_ref.guard _).of_iff (by simp)
    | some v =>
      simp only [fillContextResolveRef, decodeString, getType_some, getString_some]
      by_cases hs : (doc v).type = .string
      · simp only [hs, if_true]
        exact fills_ref.of_iff (by simp)
      · simp only [hs, if_false]
        exact (Fills.fail _).of_iff (by simp)

/-- **Filling.** The columns of a registered schema are filled if and only if each of their levels
is ready. -/
theorem fills_fillColumns : ∀ {depth : Nat} {columns : List (ColumnDesc δ)} {node : Option NodeId},
    Nests schema depth columns →
    Fills (fillColumns schema doc resolveRef depth columns node)
      (Always (Descends schema doc) (FillReady doc resolveRef) ⟨columns, node⟩)
      (putRow · (written schema doc resolveRef depth columns node)) := by
  intro depth
  induction depth with
  | zero =>
    intro columns node nests
    refine (fills_fillEach fun column hc => ?_).of_iff (always_columns Iff.rfl)
    have hfills := @fills_fillColumn _ _ _ schema doc resolveRef column node
      (fun _ _ => .fail ⟨0, .schemaIsNotRegistered, "struct type is not declared in the schema"⟩)
      (fun columns node => Always (Descends schema doc) (FillReady doc resolveRef) ⟨columns, node⟩)
      (fun _ _ => []) (fun hs => absurd hs (nests column hc))
    exact hfills
  | succ depth ih =>
    intro columns node nests
    refine (fills_fillEach fun column hc => ?_).of_iff (always_columns Iff.rfl)
    have hfills := @fills_fillColumn _ _ _ schema doc resolveRef column node
      (fillColumns schema doc resolveRef depth)
      (fun columns node => Always (Descends schema doc) (FillReady doc resolveRef) ⟨columns, node⟩)
      (written schema doc resolveRef depth)
    refine hfills fun hs => ?_
    obtain ⟨desc, hd, hn⟩ := nests column hc hs
    exact ⟨desc, hd, fun value => ih hn⟩

lemma andThen_ok {ε : Type} {x y : Except ε Unit} :
    (x >>= fun _ => y) = .ok () ↔ x = .ok () ∧ y = .ok () := by
  cases x with
  | error e => simp [bind, Except.bind]
  | ok u => simp [bind, Except.bind]

omit [Double δ] in
lemma checkNested_ok {check : ColumnDesc δ → Option NodeId → Except CheckFailure Unit} :
    checkNested doc check node columns = .ok () ↔ ∀ column ∈ columns,
      ((getObj doc node column.name).isSome ∨ column.hasDefault) ∧
        check column (getObj doc node column.name) = .ok () := by
  induction columns with
  | nil => simp [checkNested]
  | cons column columns ih =>
    unfold checkNested
    rw [List.forall_mem_cons, ← ih]
    cases ho : getObj doc node column.name with
    | some w => simpa using andThen_ok
    | none =>
      cases hd : column.hasDefault with
      | true => simpa using andThen_ok
      | false => simp [bind, Except.bind, throw, throwThe, MonadExceptOf.throw]

lemma checkColumnBody_some
    {nested : List (ColumnDesc δ) → Option NodeId → Except CheckFailure Unit}
    (accepts : column.Accepts doc resolveRef (fun _ => True) v) :
    checkColumnBody schema doc nested column (some v) = .ok () ↔
      column.Accepts doc resolveRef (schema.Lists column) v ∧ (column.type = .struct →
        ∃ desc, schema.structOf column = some desc ∧ nested desc.columns (some v) = .ok ()) := by
  unfold checkColumnBody
  unfold ColumnDesc.Accepts at accepts ⊢
  cases ht : column.type with
  | int =>
    simp only [ht] at accepts
    simp [decodeInt, accepts, checkRange_ok, getInt, resolve]
  | float =>
    simp only [ht] at accepts
    obtain ⟨htype, hrange⟩ := accepts
    have hdouble : ∀ d, getDouble doc (some v) none d =
        getDouble doc (some v) none (Double.ofInt 0) := by
      intro d
      cases htype with
      | inl h => simp [getDouble, resolve, h]
      | inr h => simp [getDouble, resolve, h]
    simp [decodeFloat, htype, checkRange_ok, hdouble, hrange]
  | bool =>
    simp only [ht] at accepts
    simp [decodeBool, accepts]
  | string =>
    simp only [ht] at accepts
    simp [decodeString, accepts]
  | enum =>
    simp only [ht] at accepts
    cases he : schema.enumOf column with
    | none => simp [decodeEnum, SchemaDesc.Lists, he]
    | some desc =>
      by_cases hm : (doc v).s ∈ desc.values
      · simp [decodeEnum, accepts, SchemaDesc.Lists, he, hm]
      · simp [decodeEnum, accepts, SchemaDesc.Lists, he, hm]
  | struct =>
    simp only [ht] at accepts
    cases hs : schema.structOf column with
    | none => simp [accepts]
    | some desc => simp [accepts]
  | ref =>
    simp only [ht] at accepts
    simp [decodeString, accepts]

lemma checkColumnBody_none
    {nested : List (ColumnDesc δ) → Option NodeId → Except CheckFailure Unit}
    (sound : column.Sound schema) (hd : column.hasDefault) :
    checkColumnBody schema doc nested column none = .ok () ↔
      column.type ≠ .enum ∧ column.type ≠ .ref ∧ column.type ≠ .struct ∧
        column.DefaultFits resolveRef := by
  unfold checkColumnBody ColumnDesc.DefaultFits
  cases ht : column.type with
  | int => simp [decodeInt, hd, checkRange_ok]
  | float => simp [decodeFloat, hd, checkRange_ok]
  | bool => simp [decodeBool]
  | string =>
    obtain ⟨text, htext⟩ := Option.isSome_iff_exists.mp
      (sound.text hd (by simp [ColumnDesc.stringLike, ht]))
    simp [decodeString, hd, htext]
  | enum => cases schema.enumOf column <;> simp [decodeEnum]
  | struct => simp
  | ref => simp [decodeString]

omit [Double δ] in
lemma SchemaDesc.Registered.sound_of_structOf {desc : StructDesc δ} (reg : schema.Registered)
    (hd : schema.structOf column = some desc) : ∀ c ∈ desc.columns, c.Sound schema :=
  reg.structs desc (SchemaDesc.mem_of_structOf hd)

lemma loadable_some : Loadable doc resolveRef ⟨columns, some v⟩ ↔ ∀ column ∈ columns,
    column.type ≠ .enum ∧ column.type ≠ .ref ∧
      (column.type = .struct → (value doc (some v) column.name).isSome) ∧
      (column.type ≠ .struct → column.hasDefault ∧ column.DefaultFits resolveRef) :=
  ⟨fun h => h v rfl, fun h w hw => by cases hw; exact h⟩

lemma isContainer_of_accepts {listed : Text → Prop} (accepts : column.Accepts doc resolveRef listed v)
    (hs : column.type ≠ .struct) : isContainer (doc v) = false := by
  unfold ColumnDesc.Accepts at accepts
  cases ht : column.type with
  | struct => exact absurd ht hs
  | float =>
    simp only [ht] at accepts
    cases accepts.1 with
    | inl h => simp [isContainer, h]
    | inr h => simp [isContainer, h]
  | int | bool | string | enum | ref =>
    simp only [ht] at accepts
    simp [isContainer, accepts]

lemma checkNested_column
    {nested : List (ColumnDesc δ) → Option NodeId → Except CheckFailure Unit}
    (sound : column.Sound schema)
    (ready : match value doc (some v) column.name with
      | none => column.type ≠ .struct → column.hasDefault ∧ column.DefaultFits resolveRef
      | some w => column.Accepts doc resolveRef (fun _ => True) w)
    (hnested : column.type = .struct → ∃ desc, schema.structOf column = some desc ∧
      ∀ w, value doc (some v) column.name = some w → (nested desc.columns (some w) = .ok () ↔
        Always (Descends schema doc) (Loadable doc resolveRef) ⟨desc.columns, some w⟩)) :
    ((getObj doc (some v) column.name).isSome ∨ column.hasDefault) ∧
        checkColumnBody schema doc nested column (getObj doc (some v) column.name) = .ok () ↔
      (column.type ≠ .enum ∧ column.type ≠ .ref ∧
        (column.type = .struct → (value doc (some v) column.name).isSome) ∧
        (column.type ≠ .struct → column.hasDefault ∧ column.DefaultFits resolveRef)) ∧
      (column.type = .struct → ∀ desc, schema.structOf column = some desc →
        Always (Descends schema doc) (Loadable doc resolveRef)
          ⟨desc.columns, value doc (some v) column.name⟩) := by
  by_cases hs : column.type = .struct
  · obtain ⟨desc, hdesc, hnested⟩ := hnested hs
    cases hv : value doc (some v) column.name with
    | none =>
      have hobj : getObj doc (some v) column.name = none := by
        cases ho : getObj doc (some v) column.name with
        | none => rfl
        | some w => exact absurd (getObj_value ho).1 (by simp [hv])
      simp [hobj, hs, sound.structDefault hs]
    | some w =>
      rw [hv] at ready
      have hmap : (doc w).type = .map := by simpa [ColumnDesc.Accepts, hs] using ready
      have hobj := getObj_eq_some hv (by simp [isContainer, hmap])
      rw [hobj, checkColumnBody_some ready]
      simp [hs, hdesc, hnested w hv, ColumnDesc.Accepts, hmap]
  · have hobj : getObj doc (some v) column.name = none := by
      cases ho : getObj doc (some v) column.name with
      | none => rfl
      | some w =>
        obtain ⟨hv, hc⟩ := getObj_value ho
        rw [hv] at ready
        exact absurd hc (by simp [isContainer_of_accepts ready hs])
    cases hd : column.hasDefault with
    | false => simp [hobj, hs]
    | true =>
      have hcheck : checkColumnBody schema doc nested column none = .ok () ↔
          column.type ≠ .enum ∧ column.type ≠ .ref ∧ column.type ≠ .struct ∧
            column.DefaultFits resolveRef := checkColumnBody_none sound hd
      rw [hobj, hcheck]
      simp [hs]

/-- **Checking.** The columns of a struct that is present and can be filled pass `check_column` if
and only if each level below that has a node is loadable. -/
theorem checkNested_iff (reg : schema.Registered) :
    ∀ {depth : Nat} {columns : List (ColumnDesc δ)} {v : NodeId},
    Nests schema depth columns → (∀ column ∈ columns, column.Sound schema) →
    Always (Descends schema doc) (FillReady doc resolveRef) ⟨columns, some v⟩ →
    (checkNested doc (checkColumn schema doc depth) (some v) columns = .ok () ↔
      Always (Descends schema doc) (Loadable doc resolveRef) ⟨columns, some v⟩) := by
  intro depth
  induction depth with
  | zero =>
    intro columns v nests sound ready
    rw [checkNested_ok, always_columns loadable_some]
    refine forall₂_congr fun column hc => ?_
    have hready := (always_iff.mp ready).1 column hc
    exact checkNested_column (sound column hc) hready fun hs => absurd hs (nests column hc)
  | succ depth ih =>
    intro columns v nests sound ready
    rw [checkNested_ok, always_columns loadable_some]
    refine forall₂_congr fun column hc => ?_
    obtain ⟨hready, hbelow⟩ := always_iff.mp ready
    refine checkNested_column (sound column hc) (hready column hc) fun hs => ?_
    obtain ⟨desc, hd, hn⟩ := nests column hc hs
    refine ⟨desc, hd, fun w hw => ?_⟩
    have hlevel := hbelow _ (.struct hc hs hd)
    rw [hw] at hlevel
    exact ih hn (reg.sound_of_structOf hd) hlevel

end PulseEngine.Datatable
