import PulseEngine.Datatable.Conform
import PulseEngine.Datatable.Load

/-!
# The capacity of the string vault

Before the rows are filled the vault is given room for the bytes `row_string_bytes` counts, and 64
more. As long as the strings that are appended fit in, the bytes are not moved and every view keeps
denoting its string. The engine's own fill appends the strings that are present only, each of which
was counted.
-/

namespace PulseEngine.Datatable

open Datalist Library

variable {δ : Type} {ρ : Type}

def fillRows (fillRow : Option NodeId → Fill (List (List (Cell δ ρ StringView)))) :
    List NodeId → Fill (List (List (List (Cell δ ρ StringView))))
  | [] => pure []
  | row :: rows => do
    let cells ← fillRow (some row)
    let rest ← fillRows fillRow rows
    return cells :: rest

def putRows (vault : StringVault) : List (List (List (Cell δ ρ Written))) →
    List (List (List (Cell δ ρ StringView))) × StringVault
  | [] => ([], vault)
  | row :: rows =>
    let (cells, vault) := putRow vault row
    let (rest, vault) := putRows vault rows
    (cells :: rest, vault)

def Cell.bytes : Cell δ ρ Written → Nat
  | .string w => w.bytes
  | _ => 0

def rowBytes (row : List (List (Cell δ ρ Written))) : Nat :=
  (row.map fun cells => (cells.map Cell.bytes).sum).sum

def views (row : List (List (Cell δ ρ StringView))) : List StringView :=
  row.flatten.filterMap fun
    | .string view => some view
    | _ => none

/-- The rows are filled into the vault without growing it, and every view still denotes its own
string afterwards. -/
def FilledInPlace (vault vault' : StringVault) (rows : List (List (List (Cell δ ρ StringView)))) :
    Prop :=
  vault'.used ≤ vault.bytes.length ∧ ∀ row ∈ rows, ∀ view ∈ views row, view.Denotes vault'

lemma fills_fillRows {fillRow : Option NodeId → Fill (List (List (Cell δ ρ StringView)))}
    {ready : NodeId → Prop} {written : NodeId → List (List (Cell δ ρ Written))} :
    ∀ {rows : List NodeId},
    (∀ row ∈ rows, Fills (fillRow (some row)) (ready row) (putRow · (written row))) →
    Fills (fillRows fillRow rows) (∀ row ∈ rows, ready row) (putRows · (rows.map written)) := by
  intro rows
  induction rows with
  | nil =>
    intro _
    exact (Fills.pure []).of_iff (by simp)
  | cons row rows ih =>
    intro h
    have hrow := h row List.mem_cons_self
    have hrest := ih fun r hr => h r (List.mem_cons_of_mem _ hr)
    exact (hrow.bind fun cells => hrest.map fun rest => cells :: rest).of_iff (by simp)

/-- What putting strings into a vault with room leaves: the vault is where it was, older views hold,
and the new ones hold. -/
structure Kept (vault vault' : StringVault) (bytes : Nat) (new : List StringView) : Prop where
  used : vault'.used = vault.used + bytes
  room : vault.used + bytes ≤ vault.bytes.length →
    vault'.bytes.length = vault.bytes.length ∧ (∀ view, vault.Holds view → vault'.Holds view) ∧
      ∀ view ∈ new, vault'.Holds view

namespace Kept

variable {vault vault' vault'' : StringVault} {bytes bytes' : Nat} {new new' : List StringView}

lemma refl (vault : StringVault) : Kept vault vault 0 [] :=
  ⟨rfl, fun _ => ⟨rfl, fun _ h => h, by simp⟩⟩

lemma trans (h : Kept vault vault' bytes new) (h' : Kept vault' vault'' bytes' new') :
    Kept vault vault'' (bytes + bytes') (new ++ new') := by
  refine ⟨by rw [h'.used, h.used, Nat.add_assoc], fun room => ?_⟩
  obtain ⟨length, old, holds⟩ := h.room (by omega)
  obtain ⟨length', old', holds'⟩ := h'.room (by rw [h.used, length]; omega)
  refine ⟨length'.trans length, fun view hv => old' view (old view hv), ?_⟩
  intro view hv
  cases List.mem_append.mp hv with
  | inl hv => exact old' view (holds view hv)
  | inr hv => exact holds' view hv

lemma put (vault : StringVault) (w : Written) :
    Kept vault (vault.put w).2 w.bytes [(vault.put w).1] := by
  refine ⟨StringVault.put_used vault w, fun room => ?_⟩
  refine ⟨(StringVault.put_of_room room).2, fun view hv => hv.put w room, ?_⟩
  intro view hv
  cases List.mem_singleton.mp hv
  exact StringVault.holds_put room

end Kept

def columnViews (cells : List (Cell δ ρ StringView)) : List StringView :=
  cells.filterMap fun
    | .string view => some view
    | _ => none

lemma kept_putCells (cells : List (Cell δ ρ Written)) : ∀ vault : StringVault,
    Kept vault (putCells vault cells).2 (cells.map Cell.bytes).sum
      (columnViews (putCells vault cells).1) := by
  induction cells with
  | nil => exact fun vault => Kept.refl vault
  | cons cell cells ih =>
    intro vault
    cases cell with
    | string w => exact (Kept.put vault w).trans (ih _)
    | int v => simpa [putCells, Cell.bytes, columnViews] using ih vault
    | float v => simpa [putCells, Cell.bytes, columnViews] using ih vault
    | bool v => simpa [putCells, Cell.bytes, columnViews] using ih vault
    | ref row => simpa [putCells, Cell.bytes, columnViews] using ih vault

lemma kept_putRow (row : List (List (Cell δ ρ Written))) : ∀ vault : StringVault,
    Kept vault (putRow vault row).2 (rowBytes row) (views (putRow vault row).1) := by
  induction row with
  | nil => exact fun vault => Kept.refl vault
  | cons cells row ih =>
    intro vault
    have hboth := (kept_putCells cells vault).trans (ih (putCells vault cells).2)
    have hviews : views (putRow vault (cells :: row)).1 =
        columnViews (putCells vault cells).1 ++ views (putRow (putCells vault cells).2 row).1 := by
      simp [putRow, views, columnViews]
    rw [hviews]
    simpa [putRow, rowBytes] using hboth

lemma kept_putRows (rows : List (List (List (Cell δ ρ Written)))) : ∀ vault : StringVault,
    Kept vault (putRows vault rows).2 (rows.map rowBytes).sum
      ((putRows vault rows).1.flatMap views) := by
  induction rows with
  | nil => exact fun vault => Kept.refl vault
  | cons row rows ih =>
    intro vault
    have hboth := (kept_putRow row vault).trans (ih (putRow vault row).2)
    simpa [putRows] using hboth

/-- The rows are filled in place if and only if their strings fit into the vault. -/
theorem filledInPlace_iff {vault : StringVault} {rows : List (List (List (Cell δ ρ Written)))} :
    FilledInPlace vault (putRows vault rows).2 (putRows vault rows).1 ↔
      vault.used + (rows.map rowBytes).sum ≤ vault.bytes.length := by
  have kept := kept_putRows rows vault
  constructor
  · intro h
    have hused := h.1
    rwa [kept.used] at hused
  · intro room
    refine ⟨by rw [kept.used]; exact room, ?_⟩
    intro row hr view hv
    obtain ⟨-, -, holds⟩ := kept.room room
    exact (holds view (List.mem_flatMap.mpr ⟨row, hr, hv⟩)).1

variable [Double δ]

section Spare

variable (schema : SchemaDesc δ) (doc : Document δ)

def columnSpareBytes (nested : List (ColumnDesc δ) → Option NodeId → Nat) (node : Option NodeId)
    (column : ColumnDesc δ) : Nat :=
  let value := value doc node column.name
  match column.type with
  | .string | .enum =>
    match value with
    | some _ => 0
    | none => if column.hasDefault then (column.defaultString.map stringBytesOf).getD 0 else 0
  | .struct =>
    match value with
    | some _ => ((schema.structOf column).map fun desc => nested desc.columns value).getD 0
    | none => 0
  | _ => 0

def spareBytes : Nat → List (ColumnDesc δ) → Option NodeId → Nat
  | 0, columns, node => (columns.map (columnSpareBytes schema doc (fun _ _ => 0) node)).sum
  | depth + 1, columns, node =>
    (columns.map (columnSpareBytes schema doc (spareBytes depth) node)).sum

end Spare

variable {schema : SchemaDesc δ} {doc : Document δ} {resolveRef : Text → Text → Except String ρ}

omit [Double δ] in
lemma bytes_flatten (columns : List (List (Cell δ ρ Written))) :
    (columns.flatten.map Cell.bytes).sum = rowBytes columns := by
  simp [rowBytes, Function.comp_def]

lemma bytes_writtenColumn
    {nested : List (ColumnDesc δ) → Option NodeId → List (List (Cell δ ρ Written))}
    {counted spare : List (ColumnDesc δ) → Option NodeId → Nat} {node : Option NodeId}
    {column : ColumnDesc δ}
    (ready : match value doc node column.name with
      | none => column.type ≠ .struct → column.hasDefault ∧ column.DefaultFits resolveRef
      | some v => column.Accepts doc resolveRef (fun _ => True) v)
    (hnone : column.type = .struct → ∀ desc, schema.structOf column = some desc →
      rowBytes (nested desc.columns none) = 0)
    (hsome : column.type = .struct → ∀ desc, schema.structOf column = some desc →
      ∀ v, value doc node column.name = some v →
        rowBytes (nested desc.columns (some v)) + spare desc.columns (some v) =
          counted desc.columns (some v)) :
    ((writtenColumn schema doc resolveRef nested node column).map Cell.bytes).sum +
        columnSpareBytes schema doc spare node column =
      columnStringBytes schema doc counted node column := by
  unfold writtenColumn columnSpareBytes columnStringBytes
  cases ht : column.type with
  | int => simp [Cell.bytes]
  | float => simp [Cell.bytes]
  | bool => simp [Cell.bytes]
  | ref => simp [Cell.bytes]
  | string =>
    cases hv : value doc node column.name with
    | none => simp [Cell.bytes, Written.bytes]
    | some v =>
      rw [hv] at ready
      have hs : (doc v).type = .string := by simpa [ColumnDesc.Accepts, ht] using ready
      simp [Cell.bytes, Written.bytes, decodeString, hs, stringBytesOf]
  | enum =>
    cases hv : value doc node column.name with
    | none => simp [Cell.bytes, Written.bytes]
    | some v =>
      rw [hv] at ready
      have hs : (doc v).type = .string := by simpa [ColumnDesc.Accepts, ht] using ready
      simp [Cell.bytes, Written.bytes, decodeString, hs, stringBytesOf]
  | struct =>
    cases hd : schema.structOf column with
    | none => cases value doc node column.name <;> simp
    | some desc =>
      cases hv : value doc node column.name with
      | none =>
        simpa only [Option.map_some, Option.getD_some, bytes_flatten, Nat.add_zero]
          using hnone ht desc hd
      | some v =>
        simpa only [Option.map_some, Option.getD_some, bytes_flatten] using hsome ht desc hd v hv

lemma bytes_writtenColumn_none
    {nested : List (ColumnDesc δ) → Option NodeId → List (List (Cell δ ρ Written))}
    {column : ColumnDesc δ}
    (hnone : column.type = .struct → ∀ desc, schema.structOf column = some desc →
      rowBytes (nested desc.columns none) = 0) :
    ((writtenColumn schema doc resolveRef nested none column).map Cell.bytes).sum = 0 := by
  unfold writtenColumn
  cases ht : column.type with
  | struct =>
    cases hd : schema.structOf column with
    | none => simp
    | some desc =>
      simpa only [value_none, Option.map_some, Option.getD_some, bytes_flatten] using hnone ht desc hd
  | int | float | bool | string | enum | ref => simp [Cell.bytes, Written.bytes]

omit [Double δ] in
lemma rowBytes_map_eq_zero {w : ColumnDesc δ → List (Cell δ ρ Written)}
    {columns : List (ColumnDesc δ)} (h : ∀ column, ((w column).map Cell.bytes).sum = 0) :
    rowBytes (columns.map w) = 0 := by
  simp [rowBytes, Function.comp_def, h]

lemma bytes_written_none : ∀ {depth : Nat} {columns : List (ColumnDesc δ)},
    rowBytes (written schema doc resolveRef depth columns none) = 0 := by
  intro depth
  induction depth with
  | zero =>
    intro columns
    exact rowBytes_map_eq_zero fun column => bytes_writtenColumn_none fun _ _ _ => rfl
  | succ depth ih =>
    intro columns
    exact rowBytes_map_eq_zero fun column => bytes_writtenColumn_none fun _ _ _ => ih

/-- The columns of a row that is ready write the bytes that are counted, less the spare ones. -/
theorem bytes_written : ∀ {depth : Nat} {columns : List (ColumnDesc δ)} {node : Option NodeId},
    Nests schema depth columns →
    Always (Descends schema doc) (FillReady doc resolveRef) ⟨columns, node⟩ →
    rowBytes (written schema doc resolveRef depth columns node) +
        spareBytes schema doc depth columns node =
      nestedStringBytes schema doc depth columns node := by
  intro depth
  induction depth with
  | zero =>
    intro columns node nests ready
    unfold written spareBytes nestedStringBytes rowBytes
    rw [List.map_map, ← List.sum_map_add]
    refine congrArg List.sum (List.map_congr_left fun column hc => ?_)
    have hready := (always_iff.mp ready).1 column hc
    exact bytes_writtenColumn hready (fun _ _ _ => rfl) fun hs => absurd hs (nests column hc)
  | succ depth ih =>
    intro columns node nests ready
    unfold written spareBytes nestedStringBytes rowBytes
    rw [List.map_map, ← List.sum_map_add]
    refine congrArg List.sum (List.map_congr_left fun column hc => ?_)
    obtain ⟨hready, hbelow⟩ := always_iff.mp ready
    refine bytes_writtenColumn (hready column hc) (fun _ _ _ => bytes_written_none) ?_
    intro hs desc hd v hv
    obtain ⟨desc', hd', hn⟩ := nests column hc hs
    cases hd.symm.trans hd'
    have hlevel := hbelow _ (.struct hc hs hd)
    rw [show value doc node column.name = some v from hv] at hlevel
    exact ih hn hlevel

omit [Double δ] in
lemma Fills.of_ok {α : Type} {fill : Fill α} {ready : Prop} {put : StringVault → α × StringVault}
    (h : Fills fill ready put) {vault : StringVault} {result : α × StringVault}
    (ok : fill vault = .ok result) : ready ∧ result = put vault := by
  by_cases hready : ready
  · refine ⟨hready, ?_⟩
    rw [h.ok hready] at ok
    exact (Except.ok.inj ok).symm
  · obtain ⟨failure, hf⟩ := h.error hready vault
    rw [hf] at ok
    cases ok

omit [Double δ] in
lemma length_reservedVault (rows : List NodeId) :
    (reservedVault schema doc rows).bytes.length =
      (rows.map (rowStringBytes schema doc)).sum + 64 := by
  simp [reservedVault, StringVault.reserve, StringVault.empty]

/-- The strings of the rows of a schema that the engine fills fit into the vault that is reserved
for them. -/
theorem filledInPlace_generic (nests : Nests schema schema.structs.length schema.columns)
    {rows : List NodeId} {cells : List (List (List (Cell δ ρ StringView)))} {vault : StringVault}
    (h : fillRows (genericFillRow schema doc resolveRef) rows (reservedVault schema doc rows) =
      .ok (cells, vault)) :
    FilledInPlace (reservedVault schema doc rows) vault cells := by
  have hfills := @fills_fillRows δ ρ (genericFillRow schema doc resolveRef) _ _ rows fun row _ =>
    fills_fillColumns nests
  obtain ⟨ready, hput⟩ := hfills.of_ok h
  obtain ⟨rfl, rfl⟩ := Prod.mk.inj hput
  refine filledInPlace_iff.mpr ?_
  rw [length_reservedVault]
  have hrows : ∀ row ∈ rows, rowBytes (written schema doc resolveRef schema.structs.length
      schema.columns (some row)) ≤ rowStringBytes schema doc row := by
    intro row hr
    exact Nat.le.intro (bytes_written nests (ready row hr))
  have hsum := List.sum_le_sum hrows
  have hused : (reservedVault schema doc rows).used = 0 := rfl
  rw [hused, List.map_map]
  exact (Nat.zero_add _).trans_le (hsum.trans (Nat.le_add_right _ _))

end PulseEngine.Datatable
