import PulseEngine.Datatable.Accept
import PulseEngine.Datatable.Capacity
import PulseEngine.Tablegen.Equivalence

/-!
# The capacity of the string vault, for emitted fills

The emitted code appends the default of a missing enum to the vault. The bytes of the vault are
counted from the descriptors, which have no defaults of enums; they have the ones of strings, which
are counted where a string is missing and are not appended. So the strings of a table fit into the
vault exactly if the defaults of the missing enums take no more than the defaults of the missing
strings and the 64 bytes that are reserved anyway.
-/

namespace PulseEngine.Tablegen

open Datalist Datatable PulseEngine.Library

variable {δ : Type} [Double δ] {ρ : Type}

section MissingEnums

variable (lib : Library δ) (doc : Document δ)

def missingEnum (nested : List (Field δ) → Option NodeId → Nat) (node : Option NodeId)
    (field : Field δ) : Nat :=
  match value doc node field.name with
  | none => if (lib.enumOf field).isSome then stringBytesOf field.defaultString else 0
  | some v => ((lib.structOf field).map fun schema => nested schema.fields (some v)).getD 0

/-- The bytes of the missing enums in a row, for structs that nest at most `depth` deep below the
fields. -/
def missingEnums : Nat → List (Field δ) → Option NodeId → Nat
  | 0, fields, node => (fields.map (missingEnum lib doc (fun _ _ => 0) node)).sum
  | depth + 1, fields, node => (fields.map (missingEnum lib doc (missingEnums depth) node)).sum

end MissingEnums

variable {lib : Library δ} {table : Schema δ} {doc : Document δ}
  {resolveRef : Text → Text → Except String ρ} {field : Field δ} {fields : List (Field δ)}
  {node : Option NodeId} {v : NodeId}

omit [Double δ] in
lemma bytes_literal (cells : List (Cell δ ρ Text)) :
    ((cells.map (Cell.mapString (⟨·, false⟩))).map Cell.bytes).sum = 0 := by
  induction cells with
  | nil => rfl
  | cons cell cells ih => cases cell <;> simpa [Cell.mapString, Cell.bytes, Written.bytes] using ih

lemma bytes_nestedDefault {depth : Nat} :
    ((nestedDefault lib (⟨·, false⟩) depth fields : List (Cell δ ρ Written)).map Cell.bytes).sum =
      0 := by
  have hbytes := bytes_literal (nestedDefault lib id depth fields : List (Cell δ ρ Text))
  rwa [nestedDefault_map] at hbytes

lemma bytes_generatedField
    {nested : List (Field δ) → Option NodeId → List (List (Cell δ ρ Written))}
    {default : List (Field δ) → List (Cell δ ρ Written)}
    {counted spare : List (ColumnDesc δ) → Option NodeId → Nat}
    {missing : List (Field δ) → Option NodeId → Nat} (hf : field.Sound lib)
    (ready : match value doc node field.name with
      | none => lib.structOf field = none → field.hasDefault ∧ (node.isSome → field.DefaultInRange lib)
      | some v => (emitColumn lib field).Accepts doc resolveRef (fun _ => True) v)
    (hstruct : ∀ schema, lib.structOf field = some schema →
      (emitSchema lib table).structOf (emitColumn lib field) = some (emitStruct lib schema))
    (hdefault : ∀ schema, lib.structOf field = some schema →
      ((default schema.fields).map Cell.bytes).sum = 0)
    (hnested : ∀ schema, lib.structOf field = some schema → ∀ v,
      value doc node field.name = some v →
      rowBytes (nested schema.fields (some v)) + spare (emitStruct lib schema).columns (some v) =
        counted (emitStruct lib schema).columns (some v) + missing schema.fields (some v)) :
    ((generatedField lib doc resolveRef nested default node field).map Cell.bytes).sum +
        columnSpareBytes (emitSchema lib table) doc spare node (emitColumn lib field) =
      columnStringBytes (emitSchema lib table) doc counted node (emitColumn lib field) +
        missingEnum lib doc missing node field := by
  have htype : (emitColumn lib field).type = emittedType lib field := rfl
  have hname : (emitColumn lib field).name = field.name := rfl
  have hscalar : (∀ name, field.type ≠ .named name) →
      lib.enumOf field = none ∧ lib.structOf field = none :=
    fun h => ⟨Library.enumOf_scalar h, Library.structOf_scalar h⟩
  unfold ColumnDesc.Accepts at ready
  unfold generatedField columnSpareBytes columnStringBytes missingEnum
  rw [htype, hf.emittedType] at ready
  rw [htype, hname, hf.emittedType]
  cases ht : field.type with
  | int | float | bool | ref =>
    obtain ⟨he, hs⟩ := hscalar (by simp [ht])
    cases hv : value doc node field.name <;> simp [Cell.bytes, he, hs]
  | string =>
    obtain ⟨he, hs⟩ := hscalar (by simp [ht])
    cases hv : value doc node field.name with
    | none => by_cases hvalues : field.values = [] <;> simp [hvalues, Cell.bytes, Written.bytes, he]
    | some v =>
      have hstring : (doc v).type = .string := by
        simp only [hv, ht] at ready
        by_cases hvalues : field.values = [] <;> simpa [hvalues] using ready
      by_cases hvalues : field.values = [] <;>
        simp [hvalues, Cell.bytes, Written.bytes, hs, decodeString, hstring, stringBytesOf]
  | named name =>
    cases hs : lib.structOf field with
    | none =>
      have he : (lib.enumOf field).isSome := by simpa [hs] using hf.named name ht
      have hhas : (emitColumn lib field).hasDefault = false := by simp [emitColumn, emitsDefault, ht]
      cases hv : value doc node field.name with
      | none => simp [he, hhas, Cell.bytes, Written.bytes, stringBytesOf]
      | some v =>
        have hstring : (doc v).type = .string := by simpa [hv, ht, hs] using ready
        simp [he, Cell.bytes, Written.bytes, decodeString, hstring, stringBytesOf]
    | some schema =>
      have he : lib.enumOf field = none := by
        cases h : lib.enumOf field with
        | none => rfl
        | some other => cases (Library.structOf_of_enumOf h).symm.trans hs
      cases hv : value doc node field.name with
      | none => simpa [he] using hdefault schema hs
      | some v =>
        simpa [he, hstruct schema hs, ← bytes_flatten] using hnested schema hs v hv

lemma bytes_level
    {nested : List (Field δ) → Option NodeId → List (List (Cell δ ρ Written))}
    {default : List (Field δ) → List (Cell δ ρ Written)}
    {counted spare : List (ColumnDesc δ) → Option NodeId → Nat}
    {missing : List (Field δ) → Option NodeId → Nat} (sound : lib.Sound) (ht : table ∈ lib.schemas)
    (scope : InScope lib table ⟨fields, node⟩) (ready : Fitting lib doc resolveRef ⟨fields, node⟩)
    (hnested : ∀ field ∈ fields, ∀ schema, lib.structOf field = some schema →
      ((default schema.fields).map Cell.bytes).sum = 0 ∧ ∀ v, value doc node field.name = some v →
        rowBytes (nested schema.fields (some v)) + spare (emitStruct lib schema).columns (some v) =
          counted (emitStruct lib schema).columns (some v) + missing schema.fields (some v)) :
    rowBytes (fields.map (generatedField lib doc resolveRef nested default node)) +
        ((fields.map (emitColumn lib)).map
          (columnSpareBytes (emitSchema lib table) doc spare node)).sum =
      ((fields.map (emitColumn lib)).map
          (columnStringBytes (emitSchema lib table) doc counted node)).sum +
        (fields.map (missingEnum lib doc missing node)).sum := by
  unfold rowBytes
  rw [List.map_map, List.map_map, List.map_map, ← List.sum_map_add, ← List.sum_map_add]
  refine congrArg List.sum (List.map_congr_left fun field hm => ?_)
  exact bytes_generatedField (scope.sound sound ht field hm) (ready field hm)
    (fun schema hs => scope.structOf ht hm hs) (fun schema hs => (hnested field hm schema hs).1)
    fun schema hs v hv => (hnested field hm schema hs).2 v hv

/-- The emitted code writes the bytes that are counted, less the spare ones and more those of the
missing enums. -/
theorem bytes_generated (sound : lib.Sound) (ht : table ∈ lib.schemas) :
    ∀ {depth depth' : Nat} {fields : List (Field δ)} {v : NodeId},
    InScope lib table ⟨fields, some v⟩ →
    Nests (emitSchema lib table) depth (fields.map (emitColumn lib)) →
    NestsFields lib depth' fields →
    Always (Inside lib doc) (Fitting lib doc resolveRef) ⟨fields, some v⟩ →
    rowBytes (generated lib doc resolveRef depth' fields (some v)) +
        spareBytes (emitSchema lib table) doc depth (fields.map (emitColumn lib)) (some v) =
      nestedStringBytes (emitSchema lib table) doc depth (fields.map (emitColumn lib)) (some v) +
        missingEnums lib doc depth' fields (some v) := by
  have hflat : ∀ {depth : Nat} {fields : List (Field δ)} {field : Field δ},
      Nests (emitSchema lib table) 0 (fields.map (emitColumn lib)) → field ∈ fields →
      lib.structOf field = none := by
    intro _ fields field nests hm
    have hnot := nests _ (List.mem_map_of_mem hm)
    cases hs : lib.structOf field with
    | none => rfl
    | some schema => exact absurd (emittedType_eq_struct.mpr (by simp [hs])) hnot
  intro depth
  induction depth with
  | zero =>
    intro depth' fields v scope nests _ ready
    have hnone : ∀ field ∈ fields, lib.structOf field = none :=
      fun field hm => @hflat 0 _ _ nests hm
    cases depth' with
    | zero =>
      refine bytes_level sound ht scope (always_iff.mp ready).1 fun field hm schema hs => ?_
      cases (hnone field hm).symm.trans hs
    | succ depth' =>
      refine bytes_level sound ht scope (always_iff.mp ready).1 fun field hm schema hs => ?_
      cases (hnone field hm).symm.trans hs
  | succ depth ih =>
    intro depth' fields v scope nests nestsFields ready
    cases depth' with
    | zero =>
      refine bytes_level sound ht scope (always_iff.mp ready).1 fun field hm schema hs => ?_
      cases (nestsFields field hm).symm.trans hs
    | succ depth' =>
      obtain ⟨hready, hbelow⟩ := always_iff.mp ready
      refine bytes_level sound ht scope hready fun field hm schema hs => ?_
      refine ⟨bytes_nestedDefault, fun w hw => ?_⟩
      obtain ⟨desc, hd, hn⟩ := nests _ (List.mem_map_of_mem hm)
        (emittedType_eq_struct.mpr (by simp [hs]))
      cases (scope.structOf ht hm hs).symm.trans hd
      have hlevel := hbelow _ (.struct hm hs)
      rw [show value doc (some v) field.name = some w from hw] at hlevel
      exact ih (scope.below hm hs (some w)) hn (nestsFields field hm schema hs) hlevel

lemma filledInPlace_generated (valid : validateLibrary lib = []) (ht : table ∈ lib.schemas)
    (hk : table.kind = .table) {rows : List NodeId}
    {cells : List (List (List (Cell δ ρ StringView)))} {vault : StringVault}
    (h : fillRows (generatedFillRow lib doc resolveRef table) rows
      (reservedVault (emitSchema lib table) doc rows) = .ok (cells, vault)) :
    FilledInPlace (reservedVault (emitSchema lib table) doc rows) vault cells ↔
      (rows.map fun row =>
        missingEnums lib doc lib.schemas.length table.fields (some row)).sum ≤
      (rows.map fun row => spareBytes (emitSchema lib table) doc
        (emitSchema lib table).structs.length (emitSchema lib table).columns (some row)).sum + 64 := by
  have sound := sound_of_validateLibrary valid
  have hne : table.kind ≠ .enum := by simp [hk]
  have nests := sound.nests ht hne
  have hnests := (nests_emit ht (mem_scopes.mpr (.inl rfl)) nests).bound
  have hfills := @fills_fillRows δ ρ (generatedFillRow lib doc resolveRef table) _ _ rows
    fun row _ => fills_fillFields sound ht (inScope_table hne _) nests
  obtain ⟨ready, hput⟩ := hfills.of_ok h
  obtain ⟨rfl, rfl⟩ := Prod.mk.inj hput
  rw [filledInPlace_iff, length_reservedVault, List.map_map]
  have hsum : (rows.map fun row =>
        rowBytes (generated lib doc resolveRef lib.schemas.length table.fields (some row)) +
          spareBytes (emitSchema lib table) doc (emitSchema lib table).structs.length
            (emitSchema lib table).columns (some row)).sum =
      (rows.map fun row => rowStringBytes (emitSchema lib table) doc row +
        missingEnums lib doc lib.schemas.length table.fields (some row)).sum := by
    refine congrArg List.sum (List.map_congr_left fun row hr => ?_)
    exact bytes_generated sound ht (inScope_table hne _) hnests nests
      ((ready row hr).imp fun _ h => h.1)
  rw [List.sum_map_add, List.sum_map_add] at hsum
  have hused : (reservedVault (emitSchema lib table) doc rows).used = 0 := rfl
  rw [hused]
  show 0 + (rows.map fun row => rowBytes _).sum ≤
    (rows.map fun row => rowStringBytes (emitSchema lib table) doc row).sum + 64 ↔ _
  generalize (rows.map fun row => rowStringBytes (emitSchema lib table) doc row).sum = counted at *
  omega

/-- **Capacity.** The strings of a schema that is registered directly always fit into the vault that
is reserved. Those of a table with an emitted fill do exactly if the missing enums of the rows take
no more bytes than the missing strings and the 64 bytes more. -/
theorem vault_capacity :
    (∀ {desc schema : SchemaDesc δ}, desc.register = .ok schema →
      ∀ {doc : Document δ} {resolveRef : Text → Text → Except String ρ} {rows : List NodeId}
      {cells : List (List (List (Cell δ ρ StringView)))} {vault : StringVault},
      fillRows (genericFillRow schema doc resolveRef) rows (reservedVault schema doc rows) =
        .ok (cells, vault) →
      FilledInPlace (reservedVault schema doc rows) vault cells) ∧
    (∀ {lib : Library δ}, validateLibrary lib = [] →
      ∀ {table : Schema δ}, table ∈ lib.schemas → table.kind = .table →
      ∀ {schema : SchemaDesc δ}, (emitSchema lib table).register = .ok schema →
      ∀ {doc : Document δ} {resolveRef : Text → Text → Except String ρ} {rows : List NodeId}
      {cells : List (List (List (Cell δ ρ StringView)))} {vault : StringVault},
      fillRows (generatedFillRow lib doc resolveRef table) rows (reservedVault schema doc rows) =
        .ok (cells, vault) →
      (FilledInPlace (reservedVault schema doc rows) vault cells ↔
        (rows.map fun row =>
          missingEnums lib doc lib.schemas.length table.fields (some row)).sum ≤
        (rows.map fun row =>
          spareBytes schema doc schema.structs.length schema.columns (some row)).sum + 64)) := by
  constructor
  · intro desc schema registered doc resolveRef rows cells vault h
    exact filledInPlace_generic (SchemaDesc.registered_of_register registered).nests h
  · intro lib valid table ht hk schema registered doc resolveRef rows cells vault h
    have hfields := (sound_of_validateLibrary valid).fields table ht (by simp [hk])
    cases register_emitSchema hfields registered
    exact filledInPlace_generated valid ht hk h

def longRarity : Text := List.replicate 64 'c'

def longItems : Schema Int :=
  { items with fields := [{ plainField ['i', 'd'] .string with isKey := true },
      { plainField ['r'] (.named ['r']) with hasDefault := true, defaultString := longRarity }] }

def longLibrary : Library Int where
  schemas := [longItems, ⟨['r'], ['r', '.', 's'], .enum, [], [longRarity], 0⟩]
  typed := by decide

lemma longLibrary_valid : validateLibrary longLibrary = [] := by decide

lemma longItems_registered : (emitSchema longLibrary longItems).register =
    .ok (emitSchema longLibrary longItems) := rfl

lemma longItems_filled : ∃ cells vault,
    fillRows (generatedFillRow longLibrary itemFile noReferences longItems) [0]
      (reservedVault (emitSchema longLibrary longItems) itemFile [0]) = .ok (cells, vault) :=
  ⟨_, _, rfl⟩

lemma heroes_filled : ∃ cells vault,
    fillRows (genericFillRow heroes heroFile noReferences) [3] (reservedVault heroes heroFile [3]) =
      .ok (cells, vault) :=
  ⟨_, _, rfl⟩

theorem vault_capacity_longItems :
    (∃ cells vault, fillRows (genericFillRow heroes heroFile noReferences) [3]
        (reservedVault heroes heroFile [3]) = .ok (cells, vault) ∧
      FilledInPlace (reservedVault heroes heroFile [3]) vault cells) ∧
    ∃ cells vault, fillRows (generatedFillRow longLibrary itemFile noReferences longItems) [0]
        (reservedVault (emitSchema longLibrary longItems) itemFile [0]) = .ok (cells, vault) ∧
      (FilledInPlace (reservedVault (emitSchema longLibrary longItems) itemFile [0]) vault cells ↔
        65 ≤ 64) := by
  obtain ⟨cells, vault, hgeneric⟩ := heroes_filled
  obtain ⟨cells', vault', hgenerated⟩ := longItems_filled
  refine ⟨⟨cells, vault, hgeneric, ?_⟩, cells', vault', hgenerated, ?_⟩
  · exact vault_capacity.1 (show heroes.register = .ok heroes from rfl) hgeneric
  · exact vault_capacity.2 longLibrary_valid (by simp [longLibrary]) rfl longItems_registered
      hgenerated

/-- The default of the rarity takes 65 bytes that are not counted: the bytes of the vault move, and
the view of the key stays behind. -/
theorem not_vault_capacity : ¬ ∀ (lib : Library Int), validateLibrary lib = [] →
    ∀ table ∈ lib.schemas, table.kind = .table → ∀ (schema : SchemaDesc Int),
    (emitSchema lib table).register = .ok schema → ∀ (doc : Document Int)
    (resolveRef : Text → Text → Except String Nat) (rows : List NodeId),
    (∀ row ∈ rows, knownColumns schema doc row ∧ checksColumns schema doc row) →
    ∀ cells vault, fillRows (generatedFillRow lib doc resolveRef table) rows
      (reservedVault schema doc rows) = .ok (cells, vault) →
    FilledInPlace (reservedVault schema doc rows) vault cells := by
  intro h
  obtain ⟨cells, vault, hfill⟩ := longItems_filled
  have hplace := h longLibrary longLibrary_valid longItems (by simp [longLibrary]) rfl _
    longItems_registered itemFile noReferences [0] (by decide) cells vault hfill
  have hle := (filledInPlace_generated longLibrary_valid (by simp [longLibrary]) rfl hfill).mp hplace
  exact absurd hle (by decide)

end PulseEngine.Tablegen
