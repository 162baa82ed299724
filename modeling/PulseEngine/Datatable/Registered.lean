import PulseEngine.Datatable.Descriptor
import Mathlib.Data.List.FinRange
import Mathlib.Tactic

/-!
# What registration guarantees

A schema that `register_schema` stored: its key column is required and has no range, every column
of it and of its struct types is sound, and its struct types nest at most as deep as there are
struct types. The last fact is what `layout_struct` checks: the struct types are laid out one after
the other, each after the ones it contains.
-/

namespace PulseEngine.Datatable

open Datalist

variable {δ : Type} {schema desc : SchemaDesc δ}

/-- What the checks of `validate_column_set` give for one column. -/
structure ColumnDesc.Sound (schema : SchemaDesc δ) (column : ColumnDesc δ) : Prop where
  name : column.name ≠ []
  struct : column.type = .struct → column.structType.isSome ∧ (schema.structOf column).isSome
  structDefault : column.type = .struct → column.hasDefault = false
  enum : column.type = .enum → (schema.enumOf column).isSome
  enumDefault : column.type = .enum → column.hasDefault →
    ∃ text, column.defaultString = some text ∧ (schema.enumOf column).any (text ∈ ·.values)
  text : column.hasDefault → column.stringLike → column.defaultString.isSome

def Nests (schema : SchemaDesc δ) : Nat → List (ColumnDesc δ) → Prop
  | 0, columns => ∀ column ∈ columns, column.type ≠ .struct
  | depth + 1, columns => ∀ column ∈ columns, column.type = .struct →
    ∃ desc, schema.structOf column = some desc ∧ Nests schema depth desc.columns

/-- A schema that `register_schema` stored. -/
structure SchemaDesc.Registered (schema : SchemaDesc δ) : Prop where
  key : ∃ key, schema.columns[schema.keyColumn]? = some key ∧
    (key.type = .int ∨ key.type = .string) ∧ key.hasDefault = false ∧
    key.hasMin = false ∧ key.hasMax = false ∧ schema.keyIsInt = decide (key.type = .int)
  columns : ∀ column ∈ schema.columns, column.Sound schema
  structs : ∀ desc ∈ schema.structs, ∀ column ∈ desc.columns, column.Sound schema
  nests : Nests schema schema.structs.length schema.columns

lemma require_ok {rules : List Rule} : require rules = .ok () ↔ ∀ rule ∈ rules, rule.1 = true := by
  unfold require
  cases h : rules.find? fun rule => !rule.1 with
  | none => simpa using List.find?_eq_none.mp h
  | some rule =>
    have hm := List.mem_of_find?_eq_some h
    have hf := List.find?_some h
    simp only [reduceCtorEq, false_iff, not_forall]
    exact ⟨rule, hm, by simpa using hf⟩

lemma bind_ok {ε α β : Type} {x : Except ε α} {f : α → Except ε β} {b : β} (h : x >>= f = .ok b) :
    ∃ a, x = .ok a ∧ f a = .ok b := by
  cases x with
  | error e => cases h
  | ok a => exact ⟨a, rfl, h⟩

section Rules

variable [Double δ]

lemma sound_of_columnRules {earlier : List (ColumnDesc δ)} {column : ColumnDesc δ}
    (h : require (columnRules schema earlier column) = .ok ()) : column.Sound schema := by
  have h := require_ok.mp h
  simp only [columnRules, List.forall_mem_cons, List.not_mem_nil, false_implies, implies_true,
    and_true] at h
  obtain ⟨name, -, -, -, -, -, -, -, struct, structDefault, enum, enumDefault, -, -, text⟩ := h
  refine ⟨by simpa using name, ?_, ?_, ?_, ?_, ?_⟩
  · intro hs
    simpa [hs] using struct
  · intro hs
    simpa [hs] using structDefault
  · intro he
    simp only [he, ne_eq, not_true, decide_false, Bool.false_or, Bool.and_eq_true] at enum
    exact enum.2
  · intro he hd
    simp only [he, hd, ne_eq, not_true, decide_false, Bool.not_true, Bool.false_or] at enumDefault
    exact (Option.any_eq_true _ _).mp enumDefault
  · intro hd hs
    simpa [hd, hs, Option.isSome_iff_ne_none] using text

lemma sound_of_validateColumnSet : ∀ {columns earlier : List (ColumnDesc δ)},
    validateColumnSet schema earlier columns = .ok () →
    ∀ column ∈ columns, column.Sound schema := by
  intro columns
  induction columns with
  | nil => simp
  | cons column columns ih =>
    intro earlier h
    obtain ⟨_, hrules, hrest⟩ := bind_ok h
    intro c hc
    cases hc with
    | head => exact sound_of_columnRules hrules
    | tail _ hc => exact ih hrest c hc

lemma sound_of_validateStructs : ∀ {structs earlier : List (StructDesc δ)},
    validateStructs schema earlier structs = .ok () →
    ∀ desc ∈ structs, ∀ column ∈ desc.columns, column.Sound schema := by
  intro structs
  induction structs with
  | nil => simp
  | cons desc structs ih =>
    intro earlier h
    obtain ⟨_, -, h⟩ := bind_ok h
    obtain ⟨_, hcolumns, hrest⟩ := bind_ok h
    intro d hd
    cases hd with
    | head => exact sound_of_validateColumnSet hcolumns
    | tail _ hd => exact ih hrest d hd

end Rules

lemma Nests.congr {schema' : SchemaDesc δ} (h : schema'.structs = schema.structs) :
    ∀ {depth : Nat} {columns : List (ColumnDesc δ)}, Nests schema depth columns →
      Nests schema' depth columns := by
  intro depth
  induction depth with
  | zero => exact fun hn => hn
  | succ depth ih =>
    intro columns hn column hc hs
    obtain ⟨desc, hd, hn⟩ := hn column hc hs
    refine ⟨desc, ?_, ih hn⟩
    simpa [SchemaDesc.structOf, SchemaDesc.findStruct, h] using hd

lemma Nests.mono : ∀ {depth : Nat} {columns : List (ColumnDesc δ)}, Nests schema depth columns →
    ∀ {depth' : Nat}, depth ≤ depth' → Nests schema depth' columns := by
  intro depth
  induction depth with
  | zero =>
    intro columns h depth' _
    cases depth' with
    | zero => exact h
    | succ depth' => exact fun column hc hs => absurd hs (h column hc)
  | succ depth ih =>
    intro columns h depth' hle
    cases depth' with
    | zero => exact absurd hle (Nat.not_succ_le_zero _)
    | succ depth' =>
      intro column hc hs
      obtain ⟨desc, hd, hn⟩ := h column hc hs
      exact ⟨desc, hd, ih hn (Nat.le_of_succ_le_succ hle)⟩

inductive LaidOut (schema : SchemaDesc δ) : List Nat → Prop where
  | nil : LaidOut schema []
  | cons {index : Nat} {laid : List Nat} {desc : StructDesc δ} :
    schema.structs[index]? = some desc →
    (∀ column ∈ desc.columns, column.type = .struct → ∃ dependency ∈ laid,
      schema.structs.findIdx? (fun d => some d.name = column.structType) = some dependency) →
    LaidOut schema laid → LaidOut schema (index :: laid)

lemma layoutColumns_laidOut {layout : List Nat → Nat → Except String (List Nat)} {type : Text}
    (hlayout : ∀ {laid laid' index}, layout laid index = .ok laid' → LaidOut schema laid →
      LaidOut schema laid' ∧ laid ⊆ laid' ∧ index ∈ laid') :
    ∀ {columns : List (ColumnDesc δ)} {laid laid' : List Nat},
    layoutColumns schema layout type laid columns = .ok laid' → LaidOut schema laid →
    LaidOut schema laid' ∧ laid ⊆ laid' ∧
      ∀ column ∈ columns, column.type = .struct → ∃ dependency ∈ laid',
        schema.structs.findIdx? (fun d => some d.name = column.structType) = some dependency := by
  intro columns
  induction columns with
  | nil =>
    intro laid laid' h out
    cases h
    exact ⟨out, List.Subset.refl _, by simp⟩
  | cons column columns ih =>
    intro laid laid' h out
    unfold layoutColumns at h
    split at h
    · rename_i hs
      cases hf : schema.structs.findIdx? fun d => some d.name = column.structType with
      | none => simp [hf] at h
      | some dependency =>
        simp only [hf] at h
        obtain ⟨laid₁, h₁, h⟩ := bind_ok h
        obtain ⟨out₁, sub₁, mem₁⟩ := hlayout h₁ out
        obtain ⟨out', sub', mem'⟩ := ih h out₁
        refine ⟨out', List.Subset.trans sub₁ sub', ?_⟩
        intro c hc hcs
        cases hc with
        | head => exact ⟨dependency, sub' mem₁, hf⟩
        | tail _ hc => exact mem' c hc hcs
    · rename_i hs
      obtain ⟨out', sub', mem'⟩ := ih h out
      refine ⟨out', sub', ?_⟩
      intro c hc hcs
      cases hc with
      | head => exact absurd hcs hs
      | tail _ hc => exact mem' c hc hcs

lemma layoutStruct_laidOut : ∀ {rest : Nat} {laid laid' : List Nat} {index : Nat},
    layoutStruct schema rest laid index = .ok laid' → LaidOut schema laid →
    LaidOut schema laid' ∧ laid ⊆ laid' ∧ index ∈ laid' := by
  intro rest
  induction rest with
  | zero =>
    intro laid laid' index h out
    unfold layoutStruct at h
    split at h
    · rename_i hm
      cases h
      exact ⟨out, List.Subset.refl _, hm⟩
    · cases hd : schema.structs[index]? <;> simp [hd] at h
  | succ rest ih =>
    intro laid laid' index h out
    unfold layoutStruct at h
    split at h
    · rename_i hm
      cases h
      exact ⟨out, List.Subset.refl _, hm⟩
    · cases hd : schema.structs[index]? with
      | none => simp [hd] at h
      | some desc =>
        simp only [hd] at h
        obtain ⟨laid₁, h₁, h⟩ := bind_ok h
        cases h
        obtain ⟨out₁, sub₁, mem₁⟩ := layoutColumns_laidOut ih h₁ out
        exact ⟨.cons hd mem₁ out₁, List.subset_cons_of_subset _ sub₁, List.mem_cons_self⟩

lemma layoutStructs_laidOut : ∀ {indices laid laid' : List Nat},
    layoutStructs schema laid indices = .ok laid' → LaidOut schema laid →
    LaidOut schema laid' ∧ laid ⊆ laid' ∧ indices ⊆ laid' := by
  intro indices
  induction indices with
  | nil =>
    intro laid laid' h out
    cases h
    exact ⟨out, List.Subset.refl _, List.nil_subset _⟩
  | cons index indices ih =>
    intro laid laid' h out
    obtain ⟨laid₁, h₁, h⟩ := bind_ok h
    obtain ⟨out₁, sub₁, mem₁⟩ := layoutStruct_laidOut h₁ out
    obtain ⟨out', sub', mem'⟩ := ih h out₁
    exact ⟨out', List.Subset.trans sub₁ sub', List.cons_subset.mpr ⟨sub' mem₁, mem'⟩⟩

lemma structOf_of_findIdx {column : ColumnDesc δ} {index : Nat} (sound : column.Sound schema)
    (hs : column.type = .struct)
    (h : schema.structs.findIdx? (fun d => some d.name = column.structType) = some index) :
    schema.structs[index]? = schema.structOf column := by
  obtain ⟨hlt, hp, hfirst⟩ := List.findIdx?_eq_some_iff_getElem.mp h
  obtain ⟨hsome, hfound⟩ := sound.struct hs
  obtain ⟨name, hname⟩ := Option.isSome_iff_exists.mp hsome
  have hne : name ≠ [] := by
    rintro rfl
    simp [SchemaDesc.structOf, SchemaDesc.findStruct, hname] at hfound
  simp only [hname, Option.some.injEq, decide_eq_true_eq] at hp hfirst
  unfold SchemaDesc.structOf SchemaDesc.findStruct
  simp only [hname, Option.getD_some, hne, if_false]
  rw [List.getElem?_eq_getElem hlt, eq_comm, List.find?_eq_some_iff_getElem]
  exact ⟨by simpa using hp, index, hlt, rfl, by simpa using hfirst⟩

lemma LaidOut.nests (sound : ∀ desc ∈ schema.structs, ∀ column ∈ desc.columns, column.Sound schema)
    {laid : List Nat} (out : LaidOut schema laid) :
    ∀ index ∈ laid, ∀ desc, schema.structs[index]? = some desc →
      Nests schema laid.length desc.columns := by
  induction out with
  | nil => simp
  | @cons index laid desc found below _ ih =>
    intro i hi d hd
    cases hi with
    | tail _ hi => exact (ih i hi d hd).mono (Nat.le_succ _)
    | head =>
      cases found.symm.trans hd
      intro column hc hs
      obtain ⟨j, hj, hfind⟩ := below column hc hs
      have hsound := sound desc (List.mem_of_getElem? found) column hc
      obtain ⟨nested, hnested⟩ := Option.isSome_iff_exists.mp (hsound.struct hs).2
      exact ⟨nested, hnested, ih j hj nested ((structOf_of_findIdx hsound hs hfind).trans hnested)⟩

def NestsExactly (schema : SchemaDesc δ) (depth : Nat) (desc : StructDesc δ) : Prop :=
  Nests schema depth desc.columns ∧ ∀ depth' < depth, ¬ Nests schema depth' desc.columns

lemma SchemaDesc.mem_of_structOf {column : ColumnDesc δ} {desc : StructDesc δ}
    (hd : schema.structOf column = some desc) : desc ∈ schema.structs := by
  unfold SchemaDesc.structOf SchemaDesc.findStruct at hd
  split at hd
  · cases hd
  · exact List.mem_of_find?_eq_some hd

lemma NestsExactly.pred {depth : Nat} {desc : StructDesc δ}
    (h : NestsExactly schema (depth + 1) desc) :
    ∃ nested ∈ schema.structs, NestsExactly schema depth nested := by
  obtain ⟨hn, hleast⟩ := h
  have hnot := hleast depth (Nat.lt_succ_self _)
  cases depth with
  | zero =>
    simp only [Nests, ne_eq, not_forall, not_not] at hnot
    obtain ⟨column, hc, hs⟩ := hnot
    obtain ⟨nested, hd, hnested⟩ := hn column hc hs
    exact ⟨nested, SchemaDesc.mem_of_structOf hd, hnested, fun _ h => absurd h (Nat.not_lt_zero _)⟩
  | succ depth =>
    simp only [Nests, not_forall, not_exists, not_and] at hnot
    obtain ⟨column, hc, hs, hnot⟩ := hnot
    obtain ⟨nested, hd, hnested⟩ := hn column hc hs
    refine ⟨nested, SchemaDesc.mem_of_structOf hd, hnested, fun depth' hlt h => ?_⟩
    exact hnot nested hd (h.mono (Nat.le_of_lt_succ hlt))

lemma NestsExactly.below : ∀ {depth : Nat} {desc : StructDesc δ}, desc ∈ schema.structs →
    NestsExactly schema depth desc → ∀ depth' ≤ depth,
      ∃ nested ∈ schema.structs, NestsExactly schema depth' nested := by
  intro depth
  induction depth with
  | zero =>
    intro desc hm h depth' hle
    cases Nat.le_zero.mp hle
    exact ⟨desc, hm, h⟩
  | succ depth ih =>
    intro desc hm h depth' hle
    cases Nat.le_succ_iff.mp hle with
    | inl hle =>
      obtain ⟨nested, hmem, hnested⟩ := h.pred
      exact ih hmem hnested depth' hle
    | inr he => exact ⟨desc, hm, he ▸ h⟩

lemma NestsExactly.unique {depth depth' : Nat} {desc : StructDesc δ}
    (h : NestsExactly schema depth desc) (h' : NestsExactly schema depth' desc) :
    depth = depth' := by
  cases Nat.lt_trichotomy depth depth' with
  | inl hlt => exact absurd h.1 (h'.2 _ hlt)
  | inr hge =>
    cases hge with
    | inl he => exact he
    | inr hlt => exact absurd h'.1 (h.2 _ hlt)

lemma NestsExactly.lt {depth : Nat} {desc : StructDesc δ} (hm : desc ∈ schema.structs)
    (h : NestsExactly schema depth desc) : depth < schema.structs.length := by
  have hbelow : ∀ d : Fin (depth + 1), ∃ nested ∈ schema.structs,
      NestsExactly schema d nested := fun d => h.below hm d (Nat.le_of_lt_succ d.isLt)
  choose nested hmem hexact using hbelow
  have hinj : Function.Injective nested := by
    intro d d' he
    exact Fin.ext ((hexact d).unique (he ▸ hexact d'))
  have hnodup : (List.ofFn nested).Nodup := List.nodup_ofFn.mpr hinj
  have hsub : List.ofFn nested ⊆ schema.structs := by
    intro x hx
    obtain ⟨d, rfl⟩ := (List.mem_ofFn' nested x).mp hx
    exact hmem d
  have hlen := (List.subperm_of_subset hnodup hsub).length_le
  rw [List.length_ofFn] at hlen
  exact hlen

/-- Columns below which there are no cycles nest at most as deep as there are struct types. -/
theorem Nests.bound {depth : Nat} {columns : List (ColumnDesc δ)}
    (h : Nests schema depth columns) : Nests schema schema.structs.length columns := by
  classical
  have hcolumn : ∀ column ∈ columns, column.type = .struct → ∃ desc,
      schema.structOf column = some desc ∧ ∃ d < schema.structs.length,
        Nests schema d desc.columns := by
    intro column hc hs
    cases depth with
    | zero => exact absurd hs (h column hc)
    | succ depth =>
      obtain ⟨desc, hd, hn⟩ := h column hc hs
      have hex : ∃ d, Nests schema d desc.columns := ⟨depth, hn⟩
      have hexact : NestsExactly schema (Nat.find hex) desc :=
        ⟨Nat.find_spec hex, fun d hlt => Nat.find_min hex hlt⟩
      exact ⟨desc, hd, _, hexact.lt (SchemaDesc.mem_of_structOf hd), hexact.1⟩
  cases hn : schema.structs.length with
  | zero =>
    intro column hc hs
    obtain ⟨_, _, d, hlt, _⟩ := hcolumn column hc hs
    rw [hn] at hlt
    exact absurd hlt (Nat.not_lt_zero _)
  | succ n =>
    intro column hc hs
    obtain ⟨desc, hd, d, hlt, hnested⟩ := hcolumn column hc hs
    rw [hn] at hlt
    exact ⟨desc, hd, hnested.mono (Nat.le_of_lt_succ hlt)⟩

lemma LaidOut.nests_columns
    (sound : ∀ desc ∈ schema.structs, ∀ column ∈ desc.columns, column.Sound schema)
    {laid : List Nat} (out : LaidOut schema laid)
    (all : List.range schema.structs.length ⊆ laid) {columns : List (ColumnDesc δ)}
    (hcolumns : ∀ column ∈ columns, column.Sound schema) :
    Nests schema schema.structs.length columns := by
  refine @Nests.bound _ _ (laid.length + 1) _ fun column hc hs => ?_
  obtain ⟨desc, hdesc⟩ := Option.isSome_iff_exists.mp ((hcolumns column hc).struct hs).2
  obtain ⟨i, hi, rfl⟩ := List.getElem_of_mem (SchemaDesc.mem_of_structOf hdesc)
  exact ⟨_, hdesc, out.nests sound i (all (List.mem_range.mpr hi)) _ (List.getElem?_eq_getElem hi)⟩

variable [Double δ]

lemma ColumnDesc.crossDefault_eq (column : ColumnDesc δ) : ∃ i d,
    column.crossDefault = { column with defaultInt := i, defaultFloat := d } := by
  unfold ColumnDesc.crossDefault
  split
  · split
    · exact ⟨column.defaultInt, Double.ofInt column.defaultInt, rfl⟩
    · exact ⟨Double.toInt column.defaultFloat, column.defaultFloat, rfl⟩
    · exact ⟨column.defaultInt, column.defaultFloat, rfl⟩
  · exact ⟨column.defaultInt, column.defaultFloat, rfl⟩

lemma ColumnDesc.Sound.crossDefault {column : ColumnDesc δ} (sound : column.Sound schema) :
    column.crossDefault.Sound schema := by
  obtain ⟨i, d, h⟩ := column.crossDefault_eq
  rw [h]
  exact ⟨sound.name, sound.struct, sound.structDefault, sound.enum, sound.enumDefault, sound.text⟩

theorem SchemaDesc.registered_of_register (h : desc.register = .ok schema) :
    schema.Registered := by
  obtain ⟨_, hv, h⟩ := bind_ok h
  obtain ⟨laid, hlayout, h⟩ := bind_ok h
  cases h
  obtain ⟨_, -, hv⟩ := bind_ok hv
  cases hk : desc.columns[desc.keyColumn]? with
  | none => simp [hk, bind, Except.bind] at hv
  | some key =>
    simp only [hk] at hv
    obtain ⟨_, hkey, hv⟩ := bind_ok hv
    obtain ⟨_, hstructs, hv⟩ := bind_ok hv
    obtain ⟨_, -, hcolumns⟩ := bind_ok hv
    have hcolumns := sound_of_validateColumnSet hcolumns
    have hstructs := sound_of_validateStructs hstructs
    obtain ⟨out, -, all⟩ := layoutStructs_laidOut hlayout .nil
    have hsound : ∀ column ∈ desc.columns.map ColumnDesc.crossDefault, column.Sound desc := by
      intro column hc
      obtain ⟨c, hmem, rfl⟩ := List.mem_map.mp hc
      exact (hcolumns c hmem).crossDefault
    have hrules := require_ok.mp hkey
    simp only [keyRules, List.forall_mem_cons, List.not_mem_nil, false_implies, implies_true,
      and_true, Bool.or_eq_true, decide_eq_true_eq, Bool.not_eq_true', Bool.or_eq_false_iff]
      at hrules
    obtain ⟨htype, ⟨hdefault, hmin⟩, hmax⟩ := hrules
    refine ⟨?_, ?_, ?_, ?_⟩
    · obtain ⟨i, d, hcross⟩ := key.crossDefault_eq
      refine ⟨key.crossDefault, ?_, ?_⟩
      · simp [List.getElem?_map, hk]
      · rw [hcross]
        exact ⟨htype, hdefault, hmin, hmax, by simp⟩
    · intro column hc
      have := hsound column hc
      exact ⟨this.name, this.struct, this.structDefault, this.enum, this.enumDefault, this.text⟩
    · intro d hd column hc
      have := hstructs d hd column hc
      exact ⟨this.name, this.struct, this.structDefault, this.enum, this.enumDefault, this.text⟩
    · refine Nests.congr ?_ (out.nests_columns hstructs all hsound)
      rfl

end PulseEngine.Datatable
