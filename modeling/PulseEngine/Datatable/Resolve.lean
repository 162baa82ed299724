import PulseEngine.Datatable.Requests
import PulseEngine.Datatable.Strings
import Mathlib.Data.List.Find

/-!
# Where references point to

A load requests the sibling tables that its top-level reference columns name, and waits for them. When
it fills its rows, `resolve_ref_by_key` does not look at what was requested: it takes the newest table
of the name in the registry. The two are compared over runs in which tables are loaded, reloaded and
unloaded in any order.
-/

namespace PulseEngine.Datatable

open Datalist Asset Library

/-- A registry, and the table that the last completed load of an asset built, while the asset is
there. -/
structure History where
  registry : Registry
  built : Handle → Option TableId

namespace History

def init : History := ⟨Registry.init, fun _ => none⟩

def record (s : History) : Registry.Event → Handle → Option TableId
  | .registerSchema _ => s.built
  | .step task =>
    if (s.registry.step task).2 = .done then
      Function.update s.built task.handle (some s.registry.nextTable)
    else s.built
  | .destroy h => Function.update s.built h none

def apply (s : History) (e : Registry.Event) : History := ⟨s.registry.apply e, s.record e⟩

def after (events : List Registry.Event) : History := events.foldl apply init

end History

/-- The dependencies of a load, as `step_data_table_load` requests them: for every top-level reference
column the asset that `request_path` answers with for the sibling path. -/
def dependenciesOf (schema : Schema) (path : Path) (request : Path → Handle) : List (Path × Handle) :=
  schema.references.map fun name => (name, request (siblingPath path name))

section References

variable {δ : Type} (schema : SchemaDesc δ) (doc : Document δ)

def reference (node : Option NodeId) (column : ColumnDesc δ) : List (Text × Text) :=
  let value := value doc node column.name
  match column.type with
  | .ref =>
    let key := if value.isSome then (getString doc value none none).getD []
      else column.defaultString.getD []
    [(column.refType.getD [], key)]
  | _ => []

def rowReferences (row : NodeId) : List (Text × Text) := walkRow schema doc (reference doc) row

end References

def Cell.pointer? {δ ρ σ : Type} : Cell δ ρ σ → Option (Option ρ)
  | .ref row => some row
  | _ => none

def pointers {δ ρ σ : Type} (row : List (List (Cell δ ρ σ))) : List (Option ρ) :=
  collect Cell.pointer? row

def PointsTo (s : History) (dependencies : List (Path × Handle)) (reference : Text × Text)
    (pointer : Option (TableId × Nat)) : Prop :=
  ∃ h t i table row, (reference.1, h) ∈ dependencies ∧ s.built h = some t ∧ pointer = some (t, i) ∧
    s.registry.tables t = some table ∧ table.rows[i]? = some row ∧
    row.keyText = String.ofList reference.2

def NewestRequested (s : History) (dependencies : List (Path × Handle)) (name : Path) : Prop :=
  ∃ h t, (name, h) ∈ dependencies ∧ s.built h = some t ∧ s.registry.findTable name = some t

def Resolved {δ : Type} (schema : SchemaDesc δ) (doc : Document δ) (s : History)
    (dependencies : List (Path × Handle)) (rows : List NodeId)
    (cells : List (List (List (Cell δ (TableId × Nat) StringView)))) : Prop :=
  List.Forall₂ (fun row cells =>
    List.Forall₂ (PointsTo s dependencies) (rowReferences schema doc row) (pointers cells)) rows cells

def Keyed (table : Table) : Prop :=
  ∀ key i, table.stringIndex key = some i → ∃ row, table.rows[i]? = some row ∧ row.keyText = key

structure Linked (r : Registry) : Prop where
  slot : ∀ (t : TableId) (table : Table) (i : SlotAddress), r.tables t = some table →
    table.slot = some i → (r.memory i).table = some t ∧ r.live i = some t
  keyed : ∀ (t : TableId) (table : Table), r.tables t = some table → Keyed table

lemma indexRows_keyed {all : List Row} : ∀ {rows : List Row} {n : Nat} {table table' : Table},
    table.indexRows n rows = some table' → table.rows = all → all.drop n = rows → Keyed table →
    Keyed table' := by
  intro rows
  induction rows with
  | nil =>
    intro n table table' h _ _ keyed
    cases h
    exact keyed
  | cons row rows ih =>
    intro n table table' h hrows hdrop keyed
    have hrow : all[n]? = some row := by
      rw [← List.head?_drop, hdrop]
      rfl
    have hrest : all.drop (n + 1) = rows := by
      rw [← List.tail_drop, hdrop]
      rfl
    unfold Table.indexRows at h
    split at h
    · split at h
      · cases h
      · exact ih h hrows hrest keyed
    · split at h
      · cases h
      · rename_i new
        refine ih h hrows hrest fun key i (hi : emplace table.stringIndex _ n key = some i) => ?_
        by_cases hk : key = row.keyText
        · subst hk
          rw [emplace_of_none new, Function.update_self] at hi
          cases hi
          exact ⟨row, hrows ▸ hrow, rfl⟩
        · rw [emplace_ne hk] at hi
          exact keyed key i hi

lemma builds_keyed {r : Registry} {task : LoadTask} {built : Table}
    (h : r.builds task = some built) : built.slot = none ∧ Keyed built := by
  unfold Registry.builds at h
  split at h
  · cases h
  · rename_i schema nodes _
    unfold Table.fill at h
    dsimp only at h
    split at h
    · cases h
    · rename_i rows _
      split at h
      · cases h
      · rename_i hindex
        cases h
        have keyed := indexRows_keyed hindex rfl rfl fun key i hi => nomatch hi
        obtain ⟨_, _, rfl⟩ := Table.indexRows_eq hindex
        exact ⟨rfl, keyed⟩

lemma Registry.step_of_builds {r : Registry} {task : LoadTask} {built : Table}
    (h : r.builds task = some built) : ∃ schema,
      (r.step task).1 = (r.createTable task.handle schema).1.finishLoad task.handle r.nextTable built := by
  unfold Registry.builds at h
  unfold Registry.step
  split at h
  · cases h
  · rename_i schema nodes ho
    refine ⟨schema, ?_⟩
    cases hf : (Table.reset schema).fill (schemaNameFromPath task.path) nodes with
    | error e =>
      rw [hf] at h
      cases h
    | ok table =>
      rw [hf] at h
      cases h
      rfl

namespace Linked

variable {r : Registry}

lemma init : Linked Registry.init :=
  ⟨fun _ _ _ h => (nomatch (h : none = some _)), fun _ _ h => (nomatch (h : none = some _))⟩

lemma releaseSlot (linked : Linked r) (i : SlotAddress) : Linked (r.releaseSlot i) := by
  unfold Registry.releaseSlot
  cases hl : r.live i with
  | none =>
    refine ⟨fun t table j ht hs => ?_, linked.keyed⟩
    obtain ⟨memory, live⟩ := linked.slot t table j ht hs
    have hne : j ≠ i := by
      rintro rfl
      rw [hl] at live
      cases live
    exact ⟨(congrArg TableSlot.table (Function.update_of_ne hne _ _)).trans memory, live⟩
  | some t₀ =>
    have cases' : ∀ {t table}, Function.update r.tables t₀
        ((r.tables t₀).map fun table => { table with slot := none }) t = some table →
        (t = t₀ ∧ table.slot = none ∧ Keyed table) ∨ (t ≠ t₀ ∧ r.tables t = some table) := by
      intro t table ht
      by_cases he : t = t₀
      · subst he
        rw [Function.update_self] at ht
        obtain ⟨table', ht', rfl⟩ := Option.map_eq_some_iff.mp ht
        exact .inl ⟨rfl, rfl, linked.keyed t table' ht'⟩
      · rw [Function.update_of_ne he] at ht
        exact .inr ⟨he, ht⟩
    refine ⟨fun t table j ht hs => ?_, fun t table ht => ?_⟩
    · rcases cases' ht with ⟨-, hnone, -⟩ | ⟨hne, ht⟩
      · rw [hnone] at hs
        cases hs
      · obtain ⟨memory, live⟩ := linked.slot t table j ht hs
        have hji : j ≠ i := by
          rintro rfl
          rw [hl] at live
          exact hne (Option.some.inj live).symm
        exact ⟨(congrArg TableSlot.table (Function.update_of_ne hji _ _)).trans memory,
          (Function.update_of_ne hji _ _).trans live⟩
    · rcases cases' ht with ⟨-, -, keyed⟩ | ⟨-, ht⟩
      · exact keyed
      · exact linked.keyed t table ht

lemma finishLoad (linked : Linked r) (sound : r.Sound) {h : Handle} {schema : Schema} {built : Table}
    (slot : built.slot = none) (keyed : Keyed built) :
    Linked ((r.createTable h schema).1.finishLoad h r.nextTable built) := by
  obtain ⟨t₀, entry⟩ := Option.isSome_iff_exists.mp
    (emplace_self_isSome r.slots h.index r.nextTable)
  set r₁ := (r.createTable h schema).1.modifyTable r.nextTable fun _ => built with hr₁
  have tables : r₁.tables = Function.update r.tables r.nextTable (some built) := by
    simp [hr₁, Registry.modifyTable, Registry.createTable]
  have entry : r₁.slots h.index = some t₀ := entry
  have old : ∀ {t}, r.live h.index = some t → t = t₀ := by
    intro t live
    have slots := sound.live live
    have same : emplace r.slots h.index r.nextTable h.index = r.slots h.index := by
      rw [emplace_of_isSome (slots ▸ rfl)]
    exact Option.some.inj (slots.symm.trans (same.symm.trans entry))
  -- The table that the entry leads to is bound to the slot, and the others are as before.
  have cases' : ∀ {t table}, Function.update r₁.tables t₀
      ((r₁.tables t₀).map fun table => { table with slot := some h.index }) t = some table →
      Keyed table ∧ (t = t₀ ∧ table.slot = some h.index ∨ t ≠ t₀ ∧ table.slot = none ∨
        t ≠ t₀ ∧ r.tables t = some table) := by
    have before : ∀ {t table}, r₁.tables t = some table → Keyed table ∧
        (table.slot = none ∨ r.tables t = some table) := by
      intro t table ht
      rw [tables] at ht
      by_cases hn : t = r.nextTable
      · subst hn
        rw [Function.update_self] at ht
        cases ht
        exact ⟨keyed, .inl slot⟩
      · rw [Function.update_of_ne hn] at ht
        exact ⟨linked.keyed t table ht, .inr ht⟩
    intro t table ht
    by_cases he : t = t₀
    · subst he
      rw [Function.update_self] at ht
      obtain ⟨table', ht', rfl⟩ := Option.map_eq_some_iff.mp ht
      exact ⟨(before ht').1, .inl ⟨rfl, rfl⟩⟩
    · rw [Function.update_of_ne he] at ht
      obtain ⟨hk, hnone | hr⟩ := before ht
      · exact ⟨hk, .inr (.inl ⟨he, hnone⟩)⟩
      · exact ⟨hk, .inr (.inr ⟨he, hr⟩)⟩
  unfold Registry.finishLoad
  rw [← hr₁, Registry.bindSlot_of_entry entry]
  refine ⟨fun t table i ht hs => ?_, fun t table ht => (cases' ht).1⟩
  obtain ⟨-, ⟨rfl, hslot⟩ | ⟨-, hnone⟩ | ⟨hne, hr⟩⟩ := cases' ht
  · cases hslot.symm.trans hs
    refine ⟨by simp, ?_⟩
    show emplace r.live h.index t h.index = some t
    cases hl : r.live h.index with
    | none => rw [emplace_of_none hl, Function.update_self]
    | some t' => rw [emplace_of_isSome (hl ▸ rfl), hl, old hl]
  · rw [hnone] at hs
    cases hs
  · obtain ⟨memory, live⟩ := linked.slot t table i hr hs
    have hji : i ≠ h.index := by
      rintro rfl
      exact hne (old live)
    constructor
    · dsimp only
      rw [Function.update_of_ne hji, Function.update_of_ne hji]
      exact memory
    · show emplace r.live h.index t₀ i = some t
      rw [emplace_ne hji]
      exact live

lemma openTable_tables (h : Handle) (schema : Schema) (name : Path) (t : TableId) :
    (r.openTable h schema name).tables t =
      if t = r.nextTable then some { Table.reset schema with name := name } else r.tables t := by
  unfold Registry.openTable Registry.createTable Registry.modifyTable
  dsimp only
  rw [Function.update_idem, Function.update_self, Function.update_apply]
  rfl

lemma openTable (linked : Linked r) (h : Handle) (schema : Schema) (name : Path) :
    Linked (r.openTable h schema name) := by
  refine ⟨fun t table i ht hs => ?_, fun t table ht => ?_⟩
  · rw [openTable_tables] at ht
    split at ht
    · cases ht
      cases hs
    · exact linked.slot t table i ht hs
  · rw [openTable_tables] at ht
    split at ht
    · cases ht
      exact fun key i hi => nomatch hi
    · exact linked.keyed t table ht

lemma apply (linked : Linked r) (sound : r.Sound) (e : Registry.Event) : Linked (r.apply e) := by
  cases e with
  | registerSchema schema => exact ⟨linked.slot, linked.keyed⟩
  | destroy h => exact linked.releaseSlot h.index
  | step task =>
    show Linked (r.step task).1
    rcases sound.step_inv task with ⟨-, -, h | h⟩ | ⟨built, hb, -, -⟩
    · rw [h]
      exact linked
    · rw [h]
      exact ⟨linked.slot, linked.keyed⟩
    · obtain ⟨slot, keyed⟩ := builds_keyed hb
      obtain ⟨schema, hstep⟩ := Registry.step_of_builds hb
      rw [hstep]
      exact linked.finishLoad sound slot keyed

end Linked

lemma History.after_spec (events : List Registry.Event) :
    (History.after events).registry.Sound ∧ Linked (History.after events).registry := by
  induction events using List.reverseRecOn with
  | nil => exact ⟨Registry.Sound.init, Linked.init⟩
  | append_singleton events e ih =>
    unfold History.after at ih ⊢
    rw [List.foldl_append]
    exact ⟨ih.1.apply e, ih.2.apply ih.1 e⟩

lemma findRow_linked {r : Registry} (linked : Linked r) {t : TableId} {table : Table} {key : Text}
    {found : TableId × Nat} (ht : r.tables t = some table) (h : r.findRow table.slot key = some found) :
    found.1 = t ∧ ∃ row, table.rows[found.2]? = some row ∧ row.keyText = String.ofList key := by
  unfold Registry.findRow at h
  cases hs : table.slot with
  | none =>
    rw [hs] at h
    cases h
  | some i =>
    obtain ⟨memory, -⟩ := linked.slot t table i ht hs
    simp only [hs, memory, Option.bind_eq_bind, Option.bind_some] at h
    obtain ⟨schema, -, h⟩ := Option.bind_eq_some_iff.mp h
    split at h
    · cases h
    · obtain ⟨table', ht', h⟩ := Option.bind_eq_some_iff.mp h
      cases ht.symm.trans ht'
      obtain ⟨row, hrow, h⟩ := Option.bind_eq_some_iff.mp h
      cases h
      exact ⟨rfl, linked.keyed t table ht _ row hrow⟩

lemma resolveRefByKey_spec {r : Registry} (sound : r.Sound) (linked : Linked r) {h : Handle}
    {schema : Schema} {name refType key : Path} {found : TableId × Nat}
    (resolved : (r.openTable h schema name).resolveRefByKey refType key = .ok found) :
    r.findTable refType = some found.1 ∧ ∃ table row, r.tables found.1 = some table ∧
      table.rows[found.2]? = some row ∧ row.keyText = String.ofList key := by
  have others : ∀ t ∈ r.tableOrder, (r.openTable h schema name).tables t = r.tables t := by
    intro t ht
    rw [Linked.openTable_tables, if_neg (Nat.ne_of_lt (sound.order t ht))]
  unfold Registry.resolveRefByKey at resolved
  split at resolved
  · cases resolved
  · split at resolved
    · cases resolved
    · split at resolved
      · cases resolved
      · rename_i t ht
        split at resolved
        · cases resolved
        · rename_i found' hfound
          cases resolved
          obtain ⟨table, htable, hrow⟩ : ∃ table, (r.openTable h schema name).tables t = some table ∧
              (r.openTable h schema name).findRow table.slot key = some found := by
            cases htable : (r.openTable h schema name).tables t with
            | none =>
              rw [htable] at hfound
              cases hfound
            | some table =>
              rw [htable] at hfound
              exact ⟨table, rfl, hfound⟩
          obtain ⟨rfl, row, hrow', hkey⟩ := findRow_linked (linked.openTable h schema name) htable hrow
          unfold Registry.findTable at ht ⊢
          split at ht
          · cases ht
          · rename_i hname
            rw [if_neg hname]
            rw [show (r.openTable h schema name).tableOrder = r.tableOrder ++ [r.nextTable] from rfl,
              List.reverse_append, List.reverse_singleton, List.singleton_append,
              List.find?_cons] at ht
            split at ht
            · -- The table that is filled has no slot yet, so that nothing is found in it.
              injection ht with ht
              rw [Linked.openTable_tables, if_pos ht.symm] at htable
              cases htable
              cases hrow
            · have hm := List.mem_reverse.mp (List.mem_of_find?_eq_some ht)
              have same : r.tableOrder.reverse.find? (fun t =>
                  (r.tables t).any fun table => table.name = refType) = some found.1 := by
                rw [← ht]
                refine List.find?_congr fun t ht => ?_
                rw [others t (List.mem_reverse.mp ht)]
              rw [others found.1 hm] at htable
              exact ⟨same, table, row, htable, hrow', hkey⟩

section Rows

variable {δ : Type} {ρ σ : Type}

lemma pointers_contents (text : σ → Text) (row : List (List (Cell δ ρ σ))) :
    pointers (contents text row) = pointers row := by
  unfold pointers collect contents
  rw [← List.map_flatten, List.filterMap_map]
  refine List.filterMap_congr fun cell _ => ?_
  cases cell <;> rfl

variable [Double δ] {schema : SchemaDesc δ} {doc : Document δ}
  {resolveRef : Text → Text → Except String ρ}

def ResolvedBy (resolveRef : Text → Text → Except String ρ) (reference : Text × Text)
    (pointer : Option ρ) : Prop :=
  ∃ found, resolveRef reference.1 reference.2 = .ok found ∧ pointer = some found

lemma resolved_writtenColumn {node : Option NodeId} {column : ColumnDesc δ}
    {nested : List (ColumnDesc δ) → Option NodeId → List (List (Cell δ ρ Written))}
    (hs : column.type ≠ .struct) (ready : ColumnReady doc resolveRef node column) :
    List.Forall₂ (ResolvedBy resolveRef) (reference doc node column)
      (collect Cell.pointer? [writtenColumn schema doc resolveRef nested node column]) := by
  unfold ColumnReady at ready
  unfold reference writtenColumn
  cases ht : column.type with
  | int => exact .nil
  | float => exact .nil
  | bool => exact .nil
  | string => exact .nil
  | enum => exact .nil
  | struct => exact absurd ht hs
  | ref =>
    refine .cons ?_ .nil
    cases hv : value doc node column.name with
    | none =>
      rw [hv] at ready
      have fits := (ready hs).2
      unfold ColumnDesc.DefaultFits at fits
      rw [ht] at fits
      obtain ⟨found, hf⟩ := fits
      exact ⟨found, hf, congrArg Except.toOption hf⟩
    | some v =>
      rw [hv] at ready
      unfold ColumnDesc.Accepts at ready
      rw [ht] at ready
      obtain ⟨hs, found, hf⟩ := ready
      refine ⟨found, ?_, ?_⟩
      · simpa [hs] using hf
      · simp [hs, hf, Except.toOption]

lemma resolved_fillRows (nests : Nests schema schema.structs.length schema.columns)
    {rows : List NodeId} {cells : List (List (List (Cell δ ρ StringView)))} {vault vault' : StringVault}
    (h : fillRows (genericFillRow schema doc resolveRef) rows vault = .ok (cells, vault')) :
    List.Forall₂ (fun row cells =>
      List.Forall₂ (ResolvedBy resolveRef) (rowReferences schema doc row) (pointers cells))
      rows cells := by
  have hfills := @fills_fillRows δ ρ (genericFillRow schema doc resolveRef) _ _ rows fun row _ =>
    fills_fillColumns nests
  obtain ⟨ready, hput⟩ := hfills.of_ok h
  obtain ⟨rfl, rfl⟩ := Prod.mk.inj hput
  have kept := @putRows_contents δ ρ (fun row => written schema doc resolveRef schema.structs.length
    schema.columns (some row)) rows vault
  rw [List.forall₂_iff_get] at kept ⊢
  refine ⟨kept.1, fun i hi hi' => ?_⟩
  have same := kept.2 i hi hi'
  have resolved := forall₂_walk (fun _ _ _ => resolved_writtenColumn) nests
    (ready (rows.get ⟨i, hi⟩) (List.get_mem rows ⟨i, hi⟩))
  rw [← pointers_contents StringView.text, same, pointers_contents]
  exact resolved

end Rows

variable {δ : Type} [Double δ]

lemma resolved_iff {schema : SchemaDesc δ} {doc : Document δ} {s : History} (sound : s.registry.Sound)
    (linked : Linked s.registry) {dependencies : List (Path × Handle)} {h : Handle} {brief : Schema}
    {name : Path} (nests : Nests schema schema.structs.length schema.columns) {rows : List NodeId}
    {cells : List (List (List (Cell δ (TableId × Nat) StringView)))} {vault vault' : StringVault}
    (filled : fillRows (genericFillRow schema doc
      (s.registry.openTable h brief name).resolveRefByKey) rows vault = .ok (cells, vault')) :
    Resolved schema doc s dependencies rows cells ↔ ∀ row ∈ rows,
      ∀ reference ∈ rowReferences schema doc row, NewestRequested s dependencies reference.1 := by
  refine pairs_iff (resolved_fillRows nests filled) fun row cells resolved => ?_
  refine pairs_iff resolved fun ref pointer ⟨found, hfound, hp⟩ => ?_
  obtain ⟨newest, table, row, ht, hrow, hkey⟩ := resolveRefByKey_spec sound linked hfound
  constructor
  · rintro ⟨h, t, i, -, -, hdep, built, hp', -⟩
    cases hp.symm.trans hp'
    exact ⟨h, t, hdep, built, newest⟩
  · rintro ⟨h, t, hdep, built, hn⟩
    cases newest.symm.trans hn
    exact ⟨h, found.1, found.2, table, row, hdep, built, hp, ht, hrow, hkey⟩

def visits : SchemaDesc Int where
  name := ['v']
  columns := [plainColumn ['i', 'd'] .string, { plainColumn ['r'] .ref with refType := some ['m'] }]
  structs := []
  enums := []
  keyColumn := 0
  keyIsInt := false

def visitFile : Document Int
  | 0 => { Node.empty .map with
      entries := [(['s', 'c', 'h', 'e', 'm', 'a'], 1), (['r', 'o', 'w', 's'], 2)] }
  | 1 => { Node.empty .string with s := ['v'] }
  | 2 => { Node.empty .list with items := [3] }
  | 3 => { Node.empty .map with entries := [(['i', 'd'], 4), (['r'], 5)] }
  | 4 => { Node.empty .string with s := ['x'] }
  | _ => { Node.empty .string with s := ['k'] }

def monsterLoad (index : Nat) (directory : Path) : LoadTask where
  handle := ⟨dataTableType, index, 1⟩
  path := siblingPath directory ['m']
  dependenciesRequested := true
  requestsValid := true
  references := []
  file := some ⟨true, some ['m'], some [⟨true, true, true, .ok ⟨"k", 0, []⟩⟩]⟩

def oneTable : List Registry.Event :=
  [.registerSchema ⟨['m'], false, []⟩, .registerSchema visits.brief,
    .step (monsterLoad 1 ['a', '/'])]

/-- Then the monsters of the directory `b` are loaded as well. -/
def twoTables : List Registry.Event := oneTable ++ [.step (monsterLoad 2 ['b', '/'])]

def visitLoad (events : List Registry.Event) : LoadTask where
  handle := ⟨dataTableType, 3, 1⟩
  path := siblingPath ['a', '/'] ['v']
  dependenciesRequested := true
  requestsValid := true
  references := [.loaded]
  file := some (readFile visits visitFile ((History.after events).registry.openTable
    ⟨dataTableType, 3, 1⟩ visits.brief ['v']).resolveRefByKey (fun _ => []) 0)

/-- The monsters of the directory `a` were requested. -/
def requestMonsters (_ : Path) : Handle := ⟨dataTableType, 1, 1⟩

lemma visitFile_few : ∀ rows, dataRows visits visitFile 0 = some rows → rows.length < uint32Size := by
  intro rows h
  cases h
  show 1 < uint32Size
  decide

lemma visitLoad_opens {events : List Registry.Event} (h : events = oneTable ∨ events = twoTables) :
    (History.after events).registry.Opens visits.brief (visitLoad events) := by
  have found : (History.after events).registry.findSchema
      (schemaNameFromPath (visitLoad events).path) = some visits.brief := by
    rcases h with rfl | rfl <;> decide +kernel
  exact ⟨found, fun h => absurd h Bool.noConfusion, fun _ h => List.mem_singleton.mp h⟩

end PulseEngine.Datatable
