import PulseEngine.Datatable.Accept
import PulseEngine.Datatable.Capacity
import Mathlib.Data.List.TakeWhile

/-!
# Strings with NUL bytes

A string of a datalist has a length and may contain NUL bytes, but `pulse_datalist_get_string` hands
out a C string. `decode_string` compares the length that `strlen` gave with the place of the first NUL,
which is the same. So a load takes a string up to its first NUL, and says nothing.
-/

namespace PulseEngine.Datatable

open Datalist Asset Library

def cText (text : Text) : Text := text.takeWhile (· ≠ '\x00')

variable {δ : Type}

def cStrings (raw : Document δ) : Document δ := fun v =>
  { raw v with
    s := cText (raw v).s
    entries := (raw v).entries.map fun entry => (cText entry.1, entry.2) }

section Walk

variable {α : Type} (schema : SchemaDesc δ) (doc : Document δ)
  (leaf : Option NodeId → ColumnDesc δ → List α)

/-- What is collected of a column: of a struct what `nested` collects, else what `leaf` does. -/
def walkColumn (nested : List (ColumnDesc δ) → Option NodeId → List α) (node : Option NodeId)
    (column : ColumnDesc δ) : List α :=
  if column.type = .struct then
    ((schema.structOf column).map fun desc =>
      nested desc.columns (value doc node column.name)).getD []
  else leaf node column

/-- What is collected of columns, in the order of the memory, for struct types that nest at most
`depth` deep below them. -/
def walk : Nat → List (ColumnDesc δ) → Option NodeId → List α
  | 0, columns, node => columns.flatMap (walkColumn schema doc leaf (fun _ _ => []) node)
  | depth + 1, columns, node => columns.flatMap (walkColumn schema doc leaf (walk depth) node)

def walkRow (row : NodeId) : List α :=
  walk schema doc leaf schema.structs.length schema.columns (some row)

end Walk

section Values

variable (schema : SchemaDesc δ) (doc : Document δ)

def stringValue (node : Option NodeId) (column : ColumnDesc δ) : List (Option NodeId) :=
  match column.type with
  | .string | .enum => [value doc node column.name]
  | _ => []

def rowValues (row : NodeId) : List (Option NodeId) := walkRow schema doc (stringValue doc) row

end Values

def Shows (raw : Document δ) (vault : StringVault) (value : Option NodeId) (view : StringView) : Prop :=
  ∀ v, value = some v → view.text = (raw v).s ∧ view.Denotes vault

def Plain (raw : Document δ) (value : Option NodeId) : Prop := ∀ v, value = some v → '\x00' ∉ (raw v).s

def Faithful {ρ : Type} (schema : SchemaDesc δ) (raw : Document δ) (vault : StringVault)
    (rows : List NodeId) (cells : List (List (List (Cell δ ρ StringView)))) : Prop :=
  List.Forall₂ (fun row cells =>
    List.Forall₂ (Shows raw vault) (rowValues schema (cStrings raw) row) (views cells)) rows cells

lemma cText_eq_iff {text : Text} : cText text = text ↔ '\x00' ∉ text := by
  unfold cText
  rw [List.takeWhile_eq_self_iff]
  constructor
  · intro h hm
    exact absurd (h _ hm) (by decide)
  · intro h c hc
    refine decide_eq_true fun he => h ?_
    exact he ▸ hc

variable {ρ : Type}

def collect {σ τ : Type} (f : Cell δ ρ σ → Option τ) (row : List (List (Cell δ ρ σ))) : List τ :=
  row.flatten.filterMap f

def Cell.string? {σ : Type} : Cell δ ρ σ → Option σ
  | .string s => some s
  | _ => none

def strings {σ : Type} (row : List (List (Cell δ ρ σ))) : List σ := collect Cell.string? row

lemma strings_contents {σ : Type} (text : σ → Text) (row : List (List (Cell δ ρ σ))) :
    (strings row).map text = strings (contents text row) := by
  unfold strings collect contents
  rw [List.map_filterMap, ← List.map_flatten, List.filterMap_map]
  refine List.filterMap_congr fun cell _ => ?_
  cases cell <;> rfl

lemma views_eq (row : List (List (Cell δ ρ StringView))) : views row = strings row := by
  refine List.filterMap_congr fun cell _ => ?_
  cases cell <;> rfl

lemma collect_cons {σ τ : Type} {f : Cell δ ρ σ → Option τ} (cells : List (Cell δ ρ σ))
    (row : List (List (Cell δ ρ σ))) : collect f (cells :: row) = collect f [cells] ++ collect f row := by
  unfold collect
  rw [List.flatten_cons, List.filterMap_append, List.flatten_singleton]

lemma pairs_iff {α β : Type} {base R : α → β → Prop} {p : α → Prop} {as : List α} {bs : List β}
    (h : List.Forall₂ base as bs) (each : ∀ a b, base a b → (R a b ↔ p a)) :
    List.Forall₂ R as bs ↔ ∀ a ∈ as, p a := by
  induction h with
  | nil => exact iff_of_true .nil nofun
  | cons hab _ ih => rw [List.forall₂_cons, List.forall_mem_cons, each _ _ hab, ih]

lemma pairs_and {α β : Type} {R : α → β → Prop} {p : β → Prop} {as : List α} {bs : List β}
    (h : List.Forall₂ R as bs) (all : ∀ b ∈ bs, p b) : List.Forall₂ (fun a b => p b ∧ R a b) as bs := by
  induction h with
  | nil => exact .nil
  | cons hab _ ih =>
    rw [List.forall_mem_cons] at all
    exact .cons ⟨all.1, hab⟩ (ih all.2)

lemma forall₂_collect {α τ : Type} {R : α → τ → Prop} {f : Cell δ ρ Written → Option τ}
    {values : ColumnDesc δ → List α} {cells : ColumnDesc δ → List (Cell δ ρ Written)} :
    ∀ {columns : List (ColumnDesc δ)},
      (∀ column ∈ columns, List.Forall₂ R (values column) (collect f [cells column])) →
      List.Forall₂ R (columns.flatMap values) (collect f (columns.map cells)) := by
  intro columns
  induction columns with
  | nil => exact fun _ => .nil
  | cons column columns ih =>
    intro h
    rw [List.flatMap_cons, List.map_cons, collect_cons]
    have first := h column List.mem_cons_self
    exact List.rel_append first (ih fun c hc => h c (List.mem_cons_of_mem column hc))

variable [Double δ] {schema : SchemaDesc δ} {doc : Document δ}
  {resolveRef : Text → Text → Except String ρ}

section Walk

variable {α τ : Type} {leaf : Option NodeId → ColumnDesc δ → List α} {R : α → τ → Prop}
  {f : Cell δ ρ Written → Option τ}

def ColumnReady (doc : Document δ) (resolveRef : Text → Text → Except String ρ) (node : Option NodeId)
    (column : ColumnDesc δ) : Prop :=
  match value doc node column.name with
  | none => column.type ≠ .struct → column.hasDefault ∧ column.DefaultFits resolveRef
  | some v => column.Accepts doc resolveRef (fun _ => True) v

lemma forall₂_walkColumn {node : Option NodeId} {column : ColumnDesc δ}
    {nested : List (ColumnDesc δ) → Option NodeId → List (List (Cell δ ρ Written))}
    {nestedWalk : List (ColumnDesc δ) → Option NodeId → List α}
    (scalar : column.type ≠ .struct → List.Forall₂ R (leaf node column)
      (collect f [writtenColumn schema doc resolveRef nested node column]))
    (below : column.type = .struct → ∀ desc, schema.structOf column = some desc →
      List.Forall₂ R (nestedWalk desc.columns (value doc node column.name))
        (collect f (nested desc.columns (value doc node column.name)))) :
    List.Forall₂ R (walkColumn schema doc leaf nestedWalk node column)
      (collect f [writtenColumn schema doc resolveRef nested node column]) := by
  unfold walkColumn
  split
  · rename_i hs
    unfold writtenColumn
    rw [hs]
    cases hd : schema.structOf column with
    | none => exact .nil
    | some desc =>
      have flat : collect f [(nested desc.columns (value doc node column.name)).flatten] =
          collect f (nested desc.columns (value doc node column.name)) := by
        unfold collect
        rw [List.flatten_singleton]
      dsimp only [Option.map_some, Option.getD_some]
      rw [flat]
      exact below hs desc hd
  · rename_i hs
    exact scalar hs

/-- **Walking.** What is collected of columns that are ready is taken of what is written for them, if
this holds for every column that is not a struct. -/
theorem forall₂_walk
    (scalar : ∀ nested node column, column.type ≠ .struct → ColumnReady doc resolveRef node column →
      List.Forall₂ R (leaf node column)
        (collect f [writtenColumn schema doc resolveRef nested node column])) :
    ∀ {depth : Nat} {columns : List (ColumnDesc δ)} {node : Option NodeId},
      Nests schema depth columns →
      Always (Descends schema doc) (FillReady doc resolveRef) ⟨columns, node⟩ →
      List.Forall₂ R (walk schema doc leaf depth columns node)
        (collect f (written schema doc resolveRef depth columns node)) := by
  intro depth
  induction depth with
  | zero =>
    intro columns node nests ready
    refine forall₂_collect fun column hc => ?_
    have here := (always_iff.mp ready).1 column hc
    exact forall₂_walkColumn (fun hs => scalar _ node column hs here)
      fun hs => absurd hs (nests column hc)
  | succ depth ih =>
    intro columns node nests ready
    obtain ⟨here, deeper⟩ := always_iff.mp ready
    refine forall₂_collect fun column hc => ?_
    refine forall₂_walkColumn (fun hs => scalar _ node column hs (here column hc)) fun hs desc hd => ?_
    obtain ⟨desc', hd', nests'⟩ := nests column hc hs
    cases hd.symm.trans hd'
    exact ih nests' (deeper _ (.struct hc hs hd))

end Walk

def Reads (doc : Document δ) (value : Option NodeId) (w : Written) : Prop :=
  ∀ v, value = some v → w.text = (doc v).s

lemma reads_writtenColumn {node : Option NodeId} {column : ColumnDesc δ}
    {nested : List (ColumnDesc δ) → Option NodeId → List (List (Cell δ ρ Written))}
    (hs : column.type ≠ .struct) (ready : ColumnReady doc resolveRef node column) :
    List.Forall₂ (Reads doc) (stringValue doc node column)
      (collect Cell.string? [writtenColumn schema doc resolveRef nested node column]) := by
  have single : column.type = .string ∨ column.type = .enum →
      Reads doc (value doc node column.name) (if (value doc node column.name).isSome
        then ⟨(getString doc (value doc node column.name) none (some [])).getD [], true⟩
        else ⟨column.defaultString.getD [], false⟩) := by
    intro ht v hv
    unfold ColumnReady at ready
    rw [hv] at ready ⊢
    have hs : (doc v).type = .string := by
      rcases ht with ht | ht
      · simpa [ColumnDesc.Accepts, ht] using ready
      · simpa [ColumnDesc.Accepts, ht] using ready
    simp [hs]
  unfold stringValue writtenColumn
  cases ht : column.type with
  | int => exact .nil
  | float => exact .nil
  | bool => exact .nil
  | ref => exact .nil
  | struct => exact absurd ht hs
  | string => exact .cons (single (.inl ht)) .nil
  | enum => exact .cons (single (.inr ht)) .nil

omit [Double δ] in
lemma putRows_contents {w : NodeId → List (List (Cell δ ρ Written))} :
    ∀ {rows : List NodeId} {vault : StringVault},
      List.Forall₂ (fun row cells => contents StringView.text cells = contents Written.text (w row))
        rows (putRows vault (rows.map w)).1 := by
  intro rows
  induction rows with
  | nil => exact .nil
  | cons row rows ih => exact fun {vault} => .cons (putRow_contents vault (w row)) ih

lemma shows_fillRows (nests : Nests schema schema.structs.length schema.columns) {rows : List NodeId}
    {cells : List (List (List (Cell δ ρ StringView)))} {vault : StringVault}
    (h : fillRows (genericFillRow schema doc resolveRef) rows (reservedVault schema doc rows) =
      .ok (cells, vault)) :
    List.Forall₂ (fun row cells =>
      List.Forall₂ (fun value view => view.Denotes vault ∧
        ∀ v, value = some v → view.text = (doc v).s) (rowValues schema doc row) (views cells))
      rows cells := by
  have inPlace := (filledInPlace_generic nests h).2
  have hfills := @fills_fillRows δ ρ (genericFillRow schema doc resolveRef) _ _ rows fun row _ =>
    fills_fillColumns nests
  obtain ⟨ready, hput⟩ := hfills.of_ok h
  obtain ⟨rfl, rfl⟩ := Prod.mk.inj hput
  have kept := @putRows_contents δ ρ (fun row => written schema doc resolveRef schema.structs.length
    schema.columns (some row)) rows (reservedVault schema doc rows)
  rw [List.forall₂_iff_get] at kept ⊢
  refine ⟨kept.1, fun i hi hi' => ?_⟩
  have same := kept.2 i hi hi'
  have reads := forall₂_walk (fun _ _ _ => reads_writtenColumn) nests
    (ready (rows.get ⟨i, hi⟩) (List.get_mem rows ⟨i, hi⟩))
  have texts : List.Forall₂ (fun value text => ∀ v, value = some v → text = (doc v).s)
      (rowValues schema doc (rows.get ⟨i, hi⟩)) ((strings (written schema doc resolveRef
        schema.structs.length schema.columns (some (rows.get ⟨i, hi⟩)))).map Written.text) :=
    List.forall₂_map_right_iff.mpr reads
  rw [strings_contents, ← same, ← strings_contents] at texts
  have denotes := inPlace _ (List.get_mem _ ⟨i, hi'⟩)
  rw [views_eq] at denotes ⊢
  exact pairs_and (List.forall₂_map_right_iff.mp texts) denotes

lemma faithful_iff {raw : Document δ} (nests : Nests schema schema.structs.length schema.columns)
    {rows : List NodeId} {cells : List (List (List (Cell δ ρ StringView)))} {vault : StringVault}
    (h : fillRows (genericFillRow schema (cStrings raw) resolveRef) rows
      (reservedVault schema (cStrings raw) rows) = .ok (cells, vault)) :
    Faithful schema raw vault rows cells ↔
      ∀ row ∈ rows, ∀ value ∈ rowValues schema (cStrings raw) row, Plain raw value := by
  refine pairs_iff (shows_fillRows nests h) fun row cells shows => ?_
  refine pairs_iff shows fun value view ⟨denotes, text⟩ => ?_
  constructor
  · intro shown v hv
    exact cText_eq_iff.mp ((text v hv).symm.trans (shown v hv).1)
  · intro plain v hv
    exact ⟨(text v hv).trans (cText_eq_iff.mpr (plain v hv)), denotes⟩

lemma fillRows_of_readRows {fillRow : Option NodeId → Fill (List (List (Cell δ ρ StringView)))}
    {encode : List (List (Cell δ ρ StringView)) → List UInt8} :
    ∀ {rows : List NodeId} {vault : StringVault} {built : List Row},
      (readRows schema doc fillRow encode vault rows).mapM (·.filled) = .ok built →
      ∃ cells vault', fillRows fillRow rows vault = .ok (cells, vault') ∧
        built.map (·.cells) = cells.map encode := by
  intro rows
  induction rows with
  | nil =>
    intro vault built h
    cases h
    exact ⟨[], vault, rfl, rfl⟩
  | cons row rows ih =>
    intro vault built h
    unfold readRows at h
    split at h
    · cases h
    · rename_i filled vault₁ hf
      rw [List.mapM_cons] at h
      obtain ⟨first, h₁, h⟩ := bind_ok h
      obtain ⟨rest, h₂, h⟩ := bind_ok h
      cases h₁
      cases h
      obtain ⟨cells, vault', hfill, hcells⟩ := ih h₂
      refine ⟨filled :: cells, vault', ?_, ?_⟩
      · unfold fillRows
        show (fillRow (some row) vault >>= fun p => _) = _
        rw [hf]
        show (fillRows fillRow rows vault₁ >>= fun p => _) = _
        rw [hfill]
        rfl
      · rw [List.map_cons, List.map_cons, hcells]

variable {r : Registry} {task : LoadTask} {root : NodeId}

lemma filled_of_done (opens : r.Opens schema.brief task)
    {encode : List (List (Cell δ ρ StringView)) → List UInt8}
    (parsed : task.file = some (readFile schema doc resolveRef encode root))
    (few : ∀ rows, dataRows schema doc root = some rows → rows.length < uint32Size)
    (done : (r.step task).2 = .done) :
    ∃ rows cells vault table, dataRows schema doc root = some rows ∧
      fillRows (genericFillRow schema doc resolveRef) rows (reservedVault schema doc rows) =
        .ok (cells, vault) ∧
      r.builds task = some table ∧ table.rows.map (·.cells) = cells.map encode := by
  obtain ⟨s, nodes, hopen, table, hfill⟩ := step_done_iff.mp done
  obtain ⟨rfl, rows, hrows, rfl, -⟩ := (openFile_ok opens parsed).mp hopen
  have builds : r.builds task = some table := by
    unfold Registry.builds
    rw [hopen]
    dsimp only
    rw [hfill]
    rfl
  unfold Table.fill at hfill
  dsimp only at hfill
  rw [length_readRows, Nat.mod_eq_of_lt (few rows hrows),
    List.take_of_length_le (Nat.le_of_eq length_readRows)] at hfill
  split at hfill
  · cases hfill
  · rename_i built hbuilt
    split at hfill
    · cases hfill
    · rename_i indexed hindexed
      cases hfill
      obtain ⟨cells, vault, filled, hcells⟩ := fillRows_of_readRows hbuilt
      refine ⟨rows, cells, vault, _, hrows, filled, builds, ?_⟩
      obtain ⟨_, _, rfl⟩ := Table.indexRows_eq hindexed
      exact hcells

def namedHero (name : Text) : Document Int
  | 0 => { Node.empty .map with
      entries := [(['s', 'c', 'h', 'e', 'm', 'a'], 1), (['r', 'o', 'w', 's'], 2)] }
  | 1 => { Node.empty .string with s := ['h'] }
  | 2 => { Node.empty .list with items := [3] }
  | 3 => { Node.empty .map with entries := [(['i', 'd'], 4), (['s'], 5)] }
  | 4 => { Node.empty .string with s := name }
  | _ => Node.empty .map

def namedHeroTask (name : Text) : LoadTask where
  handle := ⟨1, 1, 1⟩
  path := ['h', '.', 'd']
  dependenciesRequested := true
  requestsValid := true
  references := []
  file := some (readFile heroes (cStrings (namedHero name))
    (heroRegistry.openTable ⟨1, 1, 1⟩ heroes.brief ['h']).resolveRefByKey (fun _ => []) 0)

lemma namedHeroTask_opens (name : Text) : heroRegistry.Opens heroes.brief (namedHeroTask name) :=
  ⟨heroTask_opens.found, fun h => absurd h Bool.noConfusion, fun _ h => absurd h List.not_mem_nil⟩

lemma namedHero_few (name : Text) : ∀ rows, dataRows heroes (cStrings (namedHero name)) 0 = some rows →
    rows.length < uint32Size := by
  intro rows h
  cases h
  show 1 < uint32Size
  decide

end PulseEngine.Datatable
