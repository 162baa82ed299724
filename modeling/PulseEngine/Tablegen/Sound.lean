import PulseEngine.Library.Descent
import PulseEngine.Tablegen.Codegen

/-!
# What validation guarantees

A library for which `validate_library` reports nothing: the types of its fields are known and are no
tables, defaults of enums are values of the enum, structs have no defaults, `values` stand at strings
only, references lead to schemas, and no struct nests itself. `visit_struct` and
`struct_is_defaultable` walk the structs in the same way, so what the first one found tells what the
second one finds.
-/

namespace PulseEngine.Tablegen

open Datalist Datatable PulseEngine.Library

variable {δ : Type} {lib : Library δ} {schema nested : Schema δ} {field : Field δ}
  {fields : List (Field δ)}

structure Field.Sound (lib : Library δ) (field : Field δ) : Prop where
  named : ∀ name, field.type = .named name →
    (lib.structOf field).isSome ∨ (lib.enumOf field).isSome
  enumDefault : ∀ nested, lib.enumOf field = some nested → field.hasDefault →
    field.defaultString ∈ nested.values
  structDefault : (lib.structOf field).isSome → field.hasDefault = false
  values : field.values ≠ [] → field.type = .string
  ref : field.type = .ref → (lib.find field.ref).isSome

/-- What `validate_library` gives. -/
structure Library.Sound (lib : Library δ) : Prop where
  fields : ∀ schema ∈ lib.schemas, schema.kind ≠ .enum → ∀ field ∈ schema.fields, field.Sound lib
  visits : ∀ schema ∈ lib.schemas, schema.kind ≠ .enum →
    visitStruct lib (lib.schemas.length + 1) [] schema = []

lemma Library.name_of_find {name : Text} (h : lib.find name = some schema) : schema.name = name := by
  simpa using List.find?_some h

lemma Library.mem_of_find {name : Text} (h : lib.find name = some schema) :
    schema ∈ lib.schemas :=
  List.mem_of_find?_eq_some h

lemma Library.structOf_eq_some : lib.structOf field = some nested ↔
    ∃ name, field.type = .named name ∧ lib.find name = some nested ∧ nested.kind = .struct := by
  unfold Library.structOf Library.typeOf
  cases field.type <;> simp [Option.filter_eq_some_iff]

lemma Library.enumOf_eq_some : lib.enumOf field = some nested ↔
    ∃ name, field.type = .named name ∧ lib.find name = some nested ∧ nested.kind = .enum := by
  unfold Library.enumOf Library.typeOf
  cases field.type <;> simp [Option.filter_eq_some_iff]

lemma Library.find_name_of_structOf (h : lib.structOf field = some nested) :
    lib.find nested.name = some nested := by
  obtain ⟨name, -, hfind, -⟩ := Library.structOf_eq_some.mp h
  rw [Library.name_of_find hfind]
  exact hfind

lemma Library.mem_of_structOf (h : lib.structOf field = some nested) :
    nested ∈ lib.schemas ∧ nested.kind = .struct := by
  obtain ⟨name, -, hfind, hkind⟩ := Library.structOf_eq_some.mp h
  exact ⟨Library.mem_of_find hfind, hkind⟩

lemma Library.structOf_scalar (h : ∀ name, field.type ≠ .named name) :
    lib.structOf field = none := by
  cases hs : lib.structOf field with
  | none => rfl
  | some nested =>
    obtain ⟨name, ht, -, -⟩ := Library.structOf_eq_some.mp hs
    exact absurd ht (h name)

lemma Library.enumOf_scalar (h : ∀ name, field.type ≠ .named name) :
    lib.enumOf field = none := by
  cases hs : lib.enumOf field with
  | none => rfl
  | some nested =>
    obtain ⟨name, ht, -, -⟩ := Library.enumOf_eq_some.mp hs
    exact absurd ht (h name)

lemma Library.structOf_of_enumOf (h : lib.enumOf field = some nested) :
    lib.structOf field = none := by
  obtain ⟨name, ht, hfind, hkind⟩ := Library.enumOf_eq_some.mp h
  cases hs : lib.structOf field with
  | none => rfl
  | some other =>
    obtain ⟨name', ht', hfind', hkind'⟩ := Library.structOf_eq_some.mp hs
    cases ht.symm.trans ht'
    cases hfind.symm.trans hfind'
    rw [hkind] at hkind'
    cases hkind'

lemma sound_of_namedRules {name : Text} (ht : field.type = .named name)
    (h : ∀ rule ∈ namedRules lib schema field name, rule.1 = true) : field.Sound lib := by
  unfold namedRules at h
  obtain ⟨htype, hrest⟩ := List.forall_mem_append.mp h
  have hvalues : field.values = [] := by
    simp only [fieldRule, List.forall_mem_cons, decide_eq_true_eq] at hrest
    exact hrest.2.1
  cases hfind : lib.find name with
  | none => simp [hfind, fieldRule] at htype
  | some nested =>
    cases hkind : nested.kind with
    | table => simp [hfind, hkind, fieldRule] at htype
    | enum =>
      simp only [hfind, hkind, fieldRule, List.forall_mem_singleton, Bool.or_eq_true,
        Bool.not_eq_true', decide_eq_true_eq] at htype
      have henum : lib.enumOf field = some nested := Library.enumOf_eq_some.mpr ⟨_, ht, hfind, hkind⟩
      refine ⟨fun _ _ => .inr (by simp [henum]), ?_, ?_, by simp [hvalues], by simp [ht]⟩
      · intro other hother hd
        cases henum.symm.trans hother
        simpa [hd] using htype
      · intro hs
        simp [Library.structOf_of_enumOf henum] at hs
    | struct =>
      have hstruct : lib.structOf field = some nested :=
        Library.structOf_eq_some.mpr ⟨_, ht, hfind, hkind⟩
      refine ⟨fun _ _ => .inl (by simp [hstruct]), ?_, ?_, by simp [hvalues], by simp [ht]⟩
      · intro other hother
        cases hstruct.symm.trans (Library.structOf_of_enumOf hother)
      · intro _
        simpa [hfind, hkind, fieldRule] using htype

lemma sound_of_scalarRules (ht : ∀ name, field.type ≠ .named name)
    (h : ∀ rule ∈ scalarRules lib schema field, rule.1 = true) : field.Sound lib := by
  unfold scalarRules at h
  by_cases href : field.type = .ref ∧ field.ref = []
  · simp [href, fieldRule] at h
  · rw [if_neg href] at h
    obtain ⟨hrefs, hrest⟩ := List.forall_mem_append.mp h
    simp only [fieldRule, List.forall_mem_cons] at hrest
    refine ⟨fun name hn => absurd hn (ht name), ?_, ?_, ?_, ?_⟩
    · intro nested hn
      simp [Library.enumOf_scalar ht] at hn
    · intro hs
      simp [Library.structOf_scalar ht] at hs
    · intro hv
      simpa [hv] using hrest.1
    · intro hr
      unfold refRules at hrefs
      cases hfind : lib.find field.ref with
      | none => simp [hr, hfind, fieldRule] at hrefs
      | some target => rfl

theorem sound_of_validateLibrary (h : validateLibrary lib = []) : lib.Sound := by
  obtain ⟨hrules, hvisits⟩ := List.append_eq_nil_iff.mp h
  simp only [List.flatMap_eq_nil_iff] at hrules hvisits
  constructor
  · intro schema hs hk field hf
    have hschema := hrules schema hs
    simp only [List.filterMap_eq_nil_iff, ite_eq_left_iff, reduceCtorEq, imp_false,
      Bool.not_eq_true, Bool.not_eq_false] at hschema
    have hfield : ∀ rule ∈ fieldRules lib schema field, rule.1 = true := by
      intro rule hr
      apply hschema
      simp only [schemaRules, hk, if_false, List.mem_append, List.mem_flatMap]
      exact .inr ⟨field, hf, hr⟩
    unfold fieldRules at hfield
    cases ht : field.type with
    | named name =>
      rw [ht] at hfield
      exact sound_of_namedRules ht hfield
    | int | float | bool | string | ref =>
      rw [ht] at hfield
      exact sound_of_scalarRules (by simp [ht]) hfield
  · intro schema hs hk
    simpa [hk] using hvisits schema hs

def NestsFields (lib : Library δ) : Nat → List (Field δ) → Prop
  | 0, fields => ∀ field ∈ fields, lib.structOf field = none
  | depth + 1, fields => ∀ field ∈ fields, ∀ nested, lib.structOf field = some nested →
    NestsFields lib depth nested.fields

lemma visitStruct_succ {rest : Nat} {stack : List Text} (hk : schema.kind ≠ .enum) :
    visitStruct lib (rest + 1) stack schema = [] ↔ schema.name ∉ stack ∧
      ∀ field ∈ schema.fields, ∀ nested, lib.structOf field = some nested →
        visitStruct lib rest (schema.name :: stack) nested = [] := by
  rw [visitStruct, if_neg hk]
  by_cases hm : schema.name ∈ stack
  · simp [hm]
  · simp only [hm, if_false, not_false_eq_true, true_and, List.flatMap_eq_nil_iff]
    refine forall₂_congr fun field _ => ?_
    cases lib.structOf field <;> simp

lemma nestsFields_of_visitStruct : ∀ {rest : Nat} {stack : List Text} {schema : Schema δ},
    schema.kind ≠ .enum → visitStruct lib (rest + 1) stack schema = [] →
    NestsFields lib rest schema.fields := by
  intro rest
  induction rest with
  | zero =>
    intro stack schema hk h field hf
    cases hs : lib.structOf field with
    | none => rfl
    | some nested =>
      have hvisit := ((visitStruct_succ hk).mp h).2 field hf nested hs
      simp [visitStruct] at hvisit
  | succ rest ih =>
    intro stack schema hk h field hf nested hs
    have hkind := (Library.mem_of_structOf hs).2
    exact ih (by simp [hkind]) (((visitStruct_succ hk).mp h).2 field hf nested hs)

lemma Library.Sound.nests (sound : lib.Sound) (hs : schema ∈ lib.schemas) (hk : schema.kind ≠ .enum) :
    NestsFields lib lib.schemas.length schema.fields :=
  nestsFields_of_visitStruct hk (sound.visits schema hs hk)

structure FieldLevel (δ : Type) where
  fields : List (Field δ)
  node : Option NodeId

inductive Inside (lib : Library δ) (doc : Document δ) : FieldLevel δ → FieldLevel δ → Prop where
  | struct {level : FieldLevel δ} {field : Field δ} {nested : Schema δ} :
    field ∈ level.fields → lib.structOf field = some nested →
    Inside lib doc level ⟨nested.fields, value doc level.node field.name⟩

variable {doc : Document δ} {node : Option NodeId}

lemma always_fields {P : FieldLevel δ → Prop} {p : Field δ → Prop}
    (hP : P ⟨fields, node⟩ ↔ ∀ field ∈ fields, p field) :
    Always (Inside lib doc) P ⟨fields, node⟩ ↔ ∀ field ∈ fields, p field ∧
      ∀ nested, lib.structOf field = some nested →
        Always (Inside lib doc) P ⟨nested.fields, value doc node field.name⟩ := by
  rw [always_iff, hP]
  constructor
  · rintro ⟨here, below⟩ field hf
    exact ⟨here field hf, fun nested hs => below _ (.struct hf hs)⟩
  · intro h
    refine ⟨fun field hf => (h field hf).1, ?_⟩
    intro level hl
    cases hl with
    | struct hf hs => exact (h _ hf).2 _ hs

def Defaulted (lib : Library δ) (level : FieldLevel δ) : Prop :=
  ∀ field ∈ level.fields, lib.structOf field = none → field.hasDefault

lemma structIsDefaultable_iff (sound : lib.Sound) :
    ∀ {rest : Nat} {stack : List Text} {schema : Schema δ}, schema ∈ lib.schemas →
    schema.kind ≠ .enum → visitStruct lib rest stack schema = [] →
    (structIsDefaultable lib rest stack schema ↔
      Always (Inside lib doc) (Defaulted lib) ⟨schema.fields, none⟩) := by
  intro rest
  induction rest with
  | zero =>
    intro stack schema _ hk h
    simp [visitStruct] at h
  | succ rest ih =>
    intro stack schema hs hk h
    obtain ⟨hname, hbelow⟩ := (visitStruct_succ hk).mp h
    rw [@always_fields _ _ _ _ _ (Defaulted lib)
      (fun field => lib.structOf field = none → field.hasDefault) Iff.rfl]
    simp only [structIsDefaultable, hname, not_false_eq_true, decide_true, Bool.true_and,
      List.all_eq_true]
    refine forall₂_congr fun field hf => ?_
    have hsound := sound.fields schema hs hk field hf
    cases ht : field.type with
    | int | float | bool | string | ref =>
      have hnone : lib.structOf field = none := Library.structOf_scalar (by simp [ht])
      simp [hnone]
    | named name =>
      cases hsound.named name ht with
      | inl hstruct =>
        obtain ⟨nested, hn⟩ := Option.isSome_iff_exists.mp hstruct
        obtain ⟨name', ht', hfind, hkind⟩ := Library.structOf_eq_some.mp hn
        have htype : lib.typeOf field = some nested := by simp [Library.typeOf, ht', hfind]
        have hmem := Library.mem_of_find hfind
        have hrec := ih hmem (by simp [hkind]) (hbelow field hf nested hn)
        simp [htype, hkind, hn, hrec]
      | inr henum =>
        obtain ⟨nested, hn⟩ := Option.isSome_iff_exists.mp henum
        obtain ⟨name', ht', hfind, hkind⟩ := Library.enumOf_eq_some.mp hn
        have htype : lib.typeOf field = some nested := by simp [Library.typeOf, ht', hfind]
        simp [htype, hkind, Library.structOf_of_enumOf hn]

lemma columnIsDefaultable_of_hasDefault (hf : field.Sound lib) (hd : field.hasDefault) :
    columnIsDefaultable lib field := by
  unfold columnIsDefaultable
  cases ht : field.type with
  | int | float | bool | string | ref => simpa using hd
  | named name =>
    cases hf.named name ht with
    | inl hstruct =>
      have hnot := hf.structDefault hstruct
      rw [hd] at hnot
      cases hnot
    | inr henum =>
      obtain ⟨nested, hn⟩ := Option.isSome_iff_exists.mp henum
      obtain ⟨name', ht', hfind, hkind⟩ := Library.enumOf_eq_some.mp hn
      have htype : lib.typeOf field = some nested := by simp [Library.typeOf, ht', hfind]
      simpa [htype, hkind] using hd

lemma columnIsDefaultable_iff (sound : lib.Sound) (hf : field.Sound lib) :
    columnIsDefaultable lib field ↔
      (lib.structOf field = none → field.hasDefault) ∧
      ∀ nested, lib.structOf field = some nested →
        Always (Inside lib doc) (Defaulted lib) ⟨nested.fields, none⟩ := by
  unfold columnIsDefaultable
  cases ht : field.type with
  | int | float | bool | string | ref =>
    have hnone : lib.structOf field = none := Library.structOf_scalar (by simp [ht])
    simp [hnone]
  | named name =>
    cases hf.named name ht with
    | inl hstruct =>
      obtain ⟨nested, hn⟩ := Option.isSome_iff_exists.mp hstruct
      obtain ⟨name', ht', hfind, hkind⟩ := Library.structOf_eq_some.mp hn
      have htype : lib.typeOf field = some nested := by simp [Library.typeOf, ht', hfind]
      have hmem := Library.mem_of_find hfind
      have hne : nested.kind ≠ .enum := by simp [hkind]
      have hrec := @structIsDefaultable_iff _ _ doc sound _ _ _ hmem hne
        (sound.visits nested hmem hne)
      simp [htype, hkind, hn, hrec]
    | inr henum =>
      obtain ⟨nested, hn⟩ := Option.isSome_iff_exists.mp henum
      obtain ⟨name', ht', hfind, hkind⟩ := Library.enumOf_eq_some.mp hn
      have htype : lib.typeOf field = some nested := by simp [Library.typeOf, ht', hfind]
      simp [htype, hkind, Library.structOf_of_enumOf hn]

end PulseEngine.Tablegen
