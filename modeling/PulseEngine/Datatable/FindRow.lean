import PulseEngine.Datatable.Resolve

/-!
# Rows and their keys

`pulse_data_table_find_row` and `pulse_data_table_find_row_int` look a key up in the index of a table, and
`pulse_data_table_row_at` reads a row. However tables were loaded and destroyed, what a slot finds under a key is the row
that has it.
-/

namespace PulseEngine.Datatable

open Asset Library

namespace Registry

variable {r : Registry}

/-- `pulse_data_table_find_row_int`. -/
def findRowInt (r : Registry) (slot : Option SlotAddress) (key : Int) : Option (TableId × Nat) := do
  let slot ← slot
  let t ← (r.memory slot).table
  let schema ← (r.memory slot).schema
  if schema.keyIsInt then
    let table ← r.tables t
    let row ← table.intIndex key
    return (t, row)
  else none

/-- `pulse_data_table_row_at`. -/
def rowAt (r : Registry) (slot : Option SlotAddress) (index : Nat) : Option (TableId × Row) := do
  let slot ← slot
  let t ← (r.memory slot).table
  let table ← r.tables t
  if table.rowCount ≤ index then none
  else
    let row ← table.rows[index]?
    return (t, row)

end Registry

/-! ## Tables -/

/-- A table whose index is that of its rows. -/
structure Exact (table : Table) : Prop where
  count : table.rows.length = table.rowCount
  strings : table.schema.keyIsInt = false → ∀ key i,
    table.stringIndex key = some i ↔ ∃ row, table.rows[i]? = some row ∧ row.keyText = key
  ints : table.schema.keyIsInt = true → ∀ key i,
    table.intIndex key = some i ↔ ∃ row, table.rows[i]? = some row ∧ row.keyNumber = key

lemma Exact.reset (schema : Schema) : Exact (Table.reset schema) :=
  ⟨rfl, fun _ _ _ => by simp [Table.reset], fun _ _ _ => by simp [Table.reset]⟩

lemma indexRows_strings {table table' : Table} {n : Nat} {rows : List Row} (int : table.schema.keyIsInt = false)
    (h : table.indexRows n rows = some table') :
    emplaceAll table.stringIndex n (rows.map (·.keyText)) = some table'.stringIndex := by
  induction rows generalizing n table with
  | nil =>
    cases h
    rfl
  | cons row rows ih =>
    rw [Table.indexRows, int, if_neg Bool.false_ne_true] at h
    split at h
    · cases h
    · rename_i new
      rw [List.map_cons, emplaceAll_cons_of_none new]
      refine ih ?_ h
      exact int

lemma indexRows_ints {table table' : Table} {n : Nat} {rows : List Row} (int : table.schema.keyIsInt = true)
    (h : table.indexRows n rows = some table') :
    emplaceAll table.intIndex n (rows.map (·.keyNumber)) = some table'.intIndex := by
  induction rows generalizing n table with
  | nil =>
    cases h
    rfl
  | cons row rows ih =>
    rw [Table.indexRows, int, if_pos rfl] at h
    split at h
    · cases h
    · rename_i new
      rw [List.map_cons, emplaceAll_cons_of_none new]
      refine ih ?_ h
      exact int

lemma length_of_mapM {ε α β : Type} {f : α → Except ε β} {as : List α} {bs : List β} (h : as.mapM f = .ok bs) :
    bs.length = as.length := by
  rw [← List.mapM'_eq_mapM] at h
  induction as generalizing bs with
  | nil =>
    cases h
    rfl
  | cons a as ih =>
    rw [List.mapM'_cons] at h
    cases hb : f a with
    | error e =>
      rw [hb] at h
      cases h
    | ok b =>
      rw [hb] at h
      cases hbs : List.mapM' f as with
      | error e =>
        rw [hbs] at h
        cases h
      | ok bs =>
        rw [hbs] at h
        cases h
        exact congrArg Nat.succ (ih hbs)

lemma exact_of_builds {r : Registry} {task : LoadTask} {built : Table} (h : r.builds task = some built) : Exact built := by
  unfold Registry.builds at h
  split at h
  · cases h
  rename_i schema nodes _
  unfold Table.fill at h
  dsimp only at h
  split at h
  · cases h
  rename_i rows filled
  split at h
  · cases h
  rename_i indexed
  cases h
  have count : rows.length = nodes.length % uint32Size := by
    rw [length_of_mapM filled, List.length_take]
    exact min_eq_left (Nat.mod_le _ _)
  obtain ⟨ints, strings, same⟩ := Table.indexRows_eq indexed
  refine ⟨?_, fun int key i => ?_, fun int key i => ?_⟩
  · rw [same]
    exact count
  · have all := indexRows_strings (by rw [same] at int; exact int) indexed
    refine (emplaceAll_eq_some_iff all key i).trans ?_
    rw [same]
    simp [Table.reset]
  · have all := indexRows_ints (by rw [same] at int; exact int) indexed
    refine (emplaceAll_eq_some_iff all key i).trans ?_
    rw [same]
    simp [Table.reset]

/-! ## Registries -/

/-- A table without the slot that it is bound to. -/
def Table.unbound (table : Table) : Table := { table with slot := none }

namespace Registry

variable {r : Registry} {t t₀ : TableId}

def unbound (r : Registry) (t : TableId) : Option Table := (r.tables t).map Table.unbound

lemma unbound_update {r' : Registry} {f : Table → Table}
    (tables : r'.tables = Function.update r.tables t₀ ((r.tables t₀).map f))
    (h : ∀ table, (f table).unbound = table.unbound) (t : TableId) : r'.unbound t = r.unbound t := by
  rw [unbound, unbound, tables]
  by_cases same : t = t₀
  · subst same
    rw [Function.update_self, Option.map_map]
    exact congrArg (Option.map · _) (funext h)
  · rw [Function.update_of_ne same]

lemma unbound_releaseSlot (i : SlotAddress) (t : TableId) : (r.releaseSlot i).unbound t = r.unbound t := by
  unfold releaseSlot
  cases r.live i with
  | none => rfl
  | some t₀ =>
    refine unbound_update rfl (fun table => ?_) t
    rfl

lemma finishLoad_of_entry {h : Handle} {built : Table} (entry : r.slots h.index = some t₀) :
    (r.finishLoad h t built).slots = r.slots ∧
      (r.finishLoad h t built).tables = Function.update (r.modifyTable t fun _ => built).tables t₀
        (((r.modifyTable t fun _ => built).tables t₀).map fun table => { table with slot := some h.index }) ∧
      ∀ i, (r.finishLoad h t built).memory i = if i = h.index then
        ⟨((r.modifyTable t fun _ => built).tables t₀).map (·.schema), some t, built.rowCount, some t₀⟩
      else r.memory i := by
  have entry₁ : (r.modifyTable t fun _ => built).slots h.index = some t₀ := entry
  rw [finishLoad, bindSlot_of_entry entry₁]
  refine ⟨rfl, rfl, fun i => ?_⟩
  by_cases same : i = h.index
  · simp [same]
  · simp only [Function.update_of_ne same, if_neg same]
    rfl

/-- What is shelved: every table is exact, and what leads to a table leads to one that is there. -/
structure Shelved (r : Registry) : Prop where
  exact : ∀ t table, r.unbound t = some table → Exact table
  entry : ∀ i t, r.slots i = some t → (r.unbound t).isSome
  slot : ∀ i t, (r.memory i).table = some t → (r.unbound t).isSome ∧ (r.memory i).schema = (r.unbound t).map (·.schema)

namespace Shelved

lemma init : Shelved Registry.init := ⟨fun _ _ => nofun, fun _ _ => nofun, fun _ _ => nofun⟩

lemma releaseSlot (shelved : Shelved r) (i : SlotAddress) : Shelved (r.releaseSlot i) := by
  obtain ⟨slots, -, -, memory, -⟩ := releaseSlot_spec r i
  refine ⟨fun t table at_t => ?_, fun j t entry => ?_, fun j t at_j => ?_⟩
  · rw [unbound_releaseSlot] at at_t
    exact shelved.exact t table at_t
  · rw [unbound_releaseSlot]
    exact shelved.entry j t (slots ▸ entry)
  · rw [unbound_releaseSlot]
    by_cases same : j = i
    · subst same
      rw [show (r.releaseSlot j).memory j = ⟨none, none, 0, none⟩ from Function.update_self ..] at at_j
      cases at_j
    · rw [memory j same] at at_j ⊢
      exact shelved.slot j t at_j

lemma finishLoad (shelved : Shelved r) (sound : r.Sound) {h : Handle} {schema : Schema} {built : Table}
    (exact : Exact built) : Shelved ((r.createTable h schema).1.finishLoad h r.nextTable built) := by
  obtain ⟨t₀, entry⟩ := Option.isSome_iff_exists.mp (emplace_self_isSome r.slots h.index r.nextTable)
  set r₁ := (r.createTable h schema).1.modifyTable r.nextTable fun _ => built with hr₁
  have unbound₁ : ∀ t, r₁.unbound t = if t = r.nextTable then some built.unbound else r.unbound t := by
    intro t
    have tables : r₁.tables t = if t = r.nextTable then some built else r.tables t := by
      simp [hr₁, modifyTable, createTable, Function.update_apply]
    rw [Registry.unbound, tables]
    split_ifs <;> rfl
  have stays : ∀ t, (r.unbound t).isSome → (r₁.unbound t).isSome ∧ r₁.unbound t = r.unbound t := by
    intro t some
    have ne : t ≠ r.nextTable := by
      rintro rfl
      rw [Registry.unbound, sound.fresh _ le_rfl] at some
      cases some
    rw [unbound₁, if_neg ne]
    exact ⟨some, rfl⟩
  have entry₁ : r₁.slots h.index = some t₀ := entry
  have entries : ∀ i t, r₁.slots i = some t → (r₁.unbound t).isSome := by
    intro i t at_i
    rcases eq_or_eq_of_emplace (show emplace r.slots h.index r.nextTable i = some t from at_i) with old | new
    · exact (stays t (shelved.entry i t old)).1
    · rw [unbound₁, if_pos new]
      rfl
  set r₂ := (r.createTable h schema).1.finishLoad h r.nextTable built
  obtain ⟨slots, tables, memory⟩ : r₂.slots = r₁.slots ∧ _ := finishLoad_of_entry entry₁
  have unbound₂ := unbound_update tables fun _ => rfl
  refine ⟨fun t table at_t => ?_, fun i t at_i => ?_, fun i t at_i => ?_⟩
  · rw [unbound₂, unbound₁] at at_t
    split_ifs at at_t
    · cases at_t
      exact ⟨exact.count, exact.strings, exact.ints⟩
    · exact shelved.exact t table at_t
  · rw [unbound₂]
    exact entries i t (slots ▸ at_i)
  · rw [unbound₂]
    by_cases same : i = h.index
    · rw [memory, if_pos same] at at_i ⊢
      cases at_i
      refine ⟨entries _ _ entry₁, ?_⟩
      rw [Registry.unbound, Option.map_map]
      rfl
    · rw [memory, if_neg same] at at_i ⊢
      obtain ⟨some, schema⟩ := shelved.slot i t at_i
      obtain ⟨some, eq⟩ := stays t some
      exact ⟨some, eq ▸ schema⟩

lemma apply (shelved : Shelved r) (sound : r.Sound) (e : Event) : Shelved (r.apply e) := by
  cases e with
  | registerSchema schema => exact ⟨shelved.exact, shelved.entry, shelved.slot⟩
  | destroy h => exact shelved.releaseSlot h.index
  | step task =>
    show Shelved (r.step task).1
    rcases sound.step_inv task with ⟨-, -, same | same⟩ | ⟨built, builds, -⟩
    · rw [same]
      exact shelved
    · rw [same]
      exact ⟨shelved.exact, shelved.entry, shelved.slot⟩
    · obtain ⟨schema, done⟩ := step_of_builds builds
      rw [done]
      exact shelved.finishLoad sound (exact_of_builds builds)

end Shelved

end Registry

lemma Registry.shelved_after (events : List Registry.Event) : (Registry.after events).Shelved := by
  induction events using List.reverseRecOn with
  | nil => exact Shelved.init
  | append_singleton events e ih =>
    rw [Registry.after, List.foldl_append]
    exact ih.apply (Sound.after events) e

/-- A slot leads to nothing, or to a table that is exact, by its schema. -/
lemma Registry.Shelved.slot_cases {r : Registry} (shelved : r.Shelved) (i : SlotAddress) : (r.memory i).table = none ∨
    ∃ t table, (r.memory i).table = some t ∧ (r.memory i).schema = some table.schema ∧ r.tables t = some table ∧
      Exact table := by
  cases memory : (r.memory i).table with
  | none => exact .inl rfl
  | some t =>
    obtain ⟨some, schema⟩ := shelved.slot i t memory
    obtain ⟨table, unbound⟩ := Option.isSome_iff_exists.mp some
    have exact := shelved.exact t table unbound
    rw [unbound] at schema
    obtain ⟨table, at_t, rfl⟩ := Option.map_eq_some_iff.mp unbound
    exact .inr ⟨t, table, rfl, schema, at_t, exact.count, exact.strings, exact.ints⟩

lemma bind_index_iff {κ : Type} {found : Option Nat} {rows : List Row} {keyOf : Row → κ} {key : κ} {t t' : TableId}
    {n : Nat} (exact : found = some n ↔ ∃ row, rows[n]? = some row ∧ keyOf row = key) :
    (found.bind fun row => some (t', row)) = some (t, n) ↔ ∃ row, (t' = t ∧ rows[n]? = some row) ∧ keyOf row = key := by
  have split : (found.bind fun row => some (t', row)) = some (t, n) ↔ t' = t ∧ found = some n := by
    cases found <;> simp
  rw [split, exact]
  exact ⟨fun ⟨same, row, at_n, has⟩ => ⟨row, ⟨same, at_n⟩, has⟩, fun ⟨row, ⟨same, at_n⟩, has⟩ => ⟨same, row, at_n, has⟩⟩

end PulseEngine.Datatable
