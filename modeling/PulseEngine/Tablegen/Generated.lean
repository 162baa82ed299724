import PulseEngine.Tablegen.Emitted

/-!
# What the emitted fill functions do

The emitted code fills a level of fields if each of its fields has a value of its type or a default,
and the texts of its enums are values of the enums. Inside a missing struct nothing is asked but that
there are defaults: the struct is assigned as a whole.
-/

namespace PulseEngine.Tablegen

open Datalist Datatable PulseEngine.Library

variable {δ : Type} [Double δ] {ρ : Type}

section Levels

variable (lib : Library δ) (doc : Document δ) (resolveRef : Text → Text → Except String ρ)

def Field.DefaultInRange (field : Field δ) : Prop :=
  match field.type with
  | .int => (emitColumn lib field).InRange (Double.ofInt field.defaultInt)
  | .float => (emitColumn lib field).InRange field.defaultFloat
  | _ => True

/-- Each field that is present has a value of its type in its range. Each one that is missing is a
struct or has a default, which lies in its range if the struct around it is present. -/
def Fitting (level : FieldLevel δ) : Prop :=
  ∀ field ∈ level.fields,
    match value doc level.node field.name with
    | none => lib.structOf field = none →
      field.hasDefault ∧ (level.node.isSome → field.DefaultInRange lib)
    | some v => (emitColumn lib field).Accepts doc resolveRef (fun _ => True) v

def Listed (level : FieldLevel δ) : Prop :=
  ∀ field ∈ level.fields, ∀ v, value doc level.node field.name = some v →
    ∀ nested, lib.enumOf field = some nested → (doc v).s ∈ nested.values

def generatedField (nested : List (Field δ) → Option NodeId → List (List (Cell δ ρ Written)))
    (default : List (Field δ) → List (Cell δ ρ Written)) (node : Option NodeId) (field : Field δ) :
    List (Cell δ ρ Written) :=
  let value := value doc node field.name
  let text := (getString doc value none (some [])).getD []
  match field.type with
  | .int => [.int (if value.isSome then getInt doc value none 0 else field.defaultInt)]
  | .float =>
    [.float (if value.isSome then getDouble doc value none (Double.ofInt 0)
      else field.defaultFloat)]
  | .bool => [.bool (if value.isSome then getBool doc value none false else field.defaultBool)]
  | .string => [.string (if value.isSome then ⟨text, true⟩ else ⟨field.defaultString, false⟩)]
  | .ref =>
    [.ref (if value.isSome then
      (resolveRef field.ref ((getString doc value none none).getD [])).toOption else none)]
  | .named _ =>
    if (lib.enumOf field).isSome then
      [.string ⟨if value.isSome then text else field.defaultString, true⟩]
    else
      match lib.structOf field with
      | none => [.ref none]
      | some schema =>
        if value.isSome then (nested schema.fields value).flatten else default schema.fields

def generated : Nat → List (Field δ) → Option NodeId → List (List (Cell δ ρ Written))
  | 0, fields, node =>
    fields.map (generatedField lib doc resolveRef (fun _ _ => []) (fun _ => []) node)
  | depth + 1, fields, node =>
    fields.map (generatedField lib doc resolveRef (generated depth)
      (nestedDefault lib (⟨·, false⟩) depth) node)

end Levels

variable {lib : Library δ} {table : Schema δ} {owner : SchemaDesc δ} {doc : Document δ}
  {resolveRef : Text → Text → Except String ρ} {field : Field δ} {fields : List (Field δ)}
  {node : Option NodeId} {v : NodeId} {depth : Nat}

lemma nestedDefault_map {σ τ : Type} (f : σ → τ) (literal : Text → σ) :
    ∀ {depth : Nat} {fields : List (Field δ)},
    (nestedDefault lib literal depth fields : List (Cell δ ρ σ)).map (Cell.mapString f) =
      nestedDefault lib (fun text => f (literal text)) depth fields := by
  have hbody : ∀ {nested : List (Field δ) → List (Cell δ ρ σ)}
      {nested' : List (Field δ) → List (Cell δ ρ τ)},
      (∀ fields, (nested fields).map (Cell.mapString f) = nested' fields) →
      ∀ field, (fieldDefaultBody lib literal nested field).map (Cell.mapString f) =
        fieldDefaultBody lib (fun text => f (literal text)) nested' field := by
    intro nested nested' hnested field
    unfold fieldDefaultBody
    cases field.type with
    | int | float | bool | string | ref => simp [Cell.mapString]
    | named name =>
      cases lib.typeOf field with
      | none => rfl
      | some schema =>
        by_cases hk : schema.kind = .enum
        · simp [hk, Cell.mapString]
        · simp [hk, hnested]
  intro depth
  induction depth with
  | zero =>
    intro fields
    simp only [nestedDefault, List.map_flatMap, hbody fun _ => rfl]
    rfl
  | succ depth ih =>
    intro fields
    simp only [nestedDefault, List.map_flatMap, hbody fun fields => @ih fields]

omit [Double δ] in
lemma putCells_literal (vault : StringVault) (cells : List (Cell δ ρ Text)) :
    putCells vault (cells.map (Cell.mapString (⟨·, false⟩))) =
      (cells.map (Cell.mapString literalView), vault) := by
  induction cells with
  | nil => rfl
  | cons cell cells ih => cases cell <;> simp [putCells, Cell.mapString, ih, StringVault.put, literalView]

lemma putCells_nestedDefault (vault : StringVault) :
    putCells vault (nestedDefault lib (⟨·, false⟩) depth fields : List (Cell δ ρ Written)) =
      (nestedDefault lib literalView depth fields, vault) := by
  have hput := putCells_literal vault (nestedDefault lib id depth fields : List (Cell δ ρ Text))
  rw [nestedDefault_map, nestedDefault_map] at hput
  exact hput

lemma isSome_enumLookup {nested : Schema δ} {text : Text}
    (henum : owner.enumOf (emitColumn lib field) = some ⟨nested.name, nested.values⟩) :
    (enumLookup owner (emitColumn lib field) text).isSome ↔ text ∈ nested.values := by
  unfold enumLookup
  rw [henum, Option.bind_some, List.findIdx?_isSome]
  simp

lemma fills_fillEnum {nested : Schema δ} {value : Option NodeId} {raw : Text}
    (henum : owner.enumOf (emitColumn lib field) = some ⟨nested.name, nested.values⟩) :
    Fills (fillEnum lib owner doc field value raw : Fill (List (Cell δ ρ StringView)))
      (raw ∈ nested.values) (putCells · [.string ⟨raw, true⟩]) := by
  have hlook := @isSome_enumLookup _ _ lib owner field nested raw henum
  unfold fillEnum
  cases h : enumLookup owner (emitColumn lib field) raw with
  | none =>
    rw [h] at hlook
    exact (Fills.fail _).of_iff (by simpa using hlook)
  | some index =>
    rw [h] at hlook
    exact (fills_append raw).of_iff (by simpa using hlook)

def FieldReady (lib : Library δ) (doc : Document δ) (resolveRef : Text → Text → Except String ρ)
    (nestedReady : List (Field δ) → NodeId → Prop) (field : Field δ) : Option NodeId → Prop
  | none => columnIsDefaultable lib field ∧ field.DefaultInRange lib
  | some v => (emitColumn lib field).Accepts doc resolveRef (fun _ => True) v ∧
    (∀ nested, lib.enumOf field = some nested → (doc v).s ∈ nested.values) ∧
    ∀ schema, lib.structOf field = some schema → nestedReady schema.fields v

section Fill

variable {nested : List (Field δ) → Option NodeId → Fill (List (List (Cell δ ρ StringView)))}
  {nestedReady : List (Field δ) → NodeId → Prop}
  {nestedWritten : List (Field δ) → Option NodeId → List (List (Cell δ ρ Written))}
  {default : List (Field δ) → List (Cell δ ρ StringView)}
  {defaultWritten : List (Field δ) → List (Cell δ ρ Written)}

lemma fills_fillPresent_none (hf : field.Sound lib) (hd : columnIsDefaultable lib field)
    (henum : ∀ nested, lib.enumOf field = some nested →
      owner.enumOf (emitColumn lib field) = some ⟨nested.name, nested.values⟩)
    (hdefault : ∀ schema, lib.structOf field = some schema → ∀ vault,
      putCells vault (defaultWritten schema.fields) = (default schema.fields, vault))
    (hv : value doc node field.name = none) :
    Fills (fillPresent lib owner doc resolveRef nested default field none)
      (field.DefaultInRange lib)
      (putCells · (generatedField lib doc resolveRef nestedWritten defaultWritten node field)) := by
  unfold fillPresent generatedField Field.DefaultInRange
  rw [hv]
  cases ht : field.type with
  | int => exact fills_fieldSetInt _ _
  | float => exact fills_fieldSetFloat _ _
  | bool => exact fills_single fun _ => rfl
  | string => exact fills_single fun _ => rfl
  | ref => exact fills_single fun _ => rfl
  | named name =>
    cases he : lib.enumOf field with
    | some found =>
      obtain ⟨name', ht', hfind, hkind⟩ := Library.enumOf_eq_some.mp he
      have htype : lib.typeOf field = some found := by simp [Library.typeOf, ht', hfind]
      have hhas : field.hasDefault := by simpa [columnIsDefaultable, ht, htype, hkind] using hd
      have hmem := hf.enumDefault found he hhas
      have hfill := @fills_fillEnum δ _ ρ lib owner doc field found none field.defaultString
        (henum found he)
      exact hfill.of_iff (by simp [hmem])
    | none =>
      cases hs : lib.structOf field with
      | none => exact fills_single fun _ => rfl
      | some schema =>
        have hput : (putCells · (defaultWritten schema.fields)) =
            fun vault : StringVault => (default schema.fields, vault) := funext (hdefault schema hs)
        simpa [hput] using Fills.pure (default schema.fields)

lemma fills_fillPresent_some (hf : field.Sound lib)
    (henum : ∀ nested, lib.enumOf field = some nested →
      owner.enumOf (emitColumn lib field) = some ⟨nested.name, nested.values⟩)
    (hnested : ∀ schema, lib.structOf field = some schema → ∀ v,
      Fills (nested schema.fields (some v)) (nestedReady schema.fields v)
        (putRow · (nestedWritten schema.fields (some v))))
    (hv : value doc node field.name = some v) :
    Fills (fillPresent lib owner doc resolveRef nested default field (some v))
      (FieldReady lib doc resolveRef nestedReady field (some v))
      (putCells · (generatedField lib doc resolveRef nestedWritten defaultWritten node field)) := by
  unfold fillPresent generatedField FieldReady ColumnDesc.Accepts
  have htype : (emitColumn lib field).type = emittedType lib field := rfl
  have hscalar : (∀ name, field.type ≠ .named name) →
      lib.enumOf field = none ∧ lib.structOf field = none :=
    fun h => ⟨Library.enumOf_scalar h, Library.structOf_scalar h⟩
  rw [hv, htype, hf.emittedType]
  cases ht : field.type with
  | int =>
    obtain ⟨he, hs⟩ := hscalar (by simp [ht])
    refine ((fills_fieldSetInt _ _).guard _).of_iff ?_
    simp +contextual [he, hs, getInt, resolve]
  | float =>
    obtain ⟨he, hs⟩ := hscalar (by simp [ht])
    exact ((fills_fieldSetFloat _ _).guard _).of_iff (by simp [he, hs])
  | bool =>
    obtain ⟨he, hs⟩ := hscalar (by simp [ht])
    exact ((fills_single fun _ => rfl).guard _).of_iff (by simp [he, hs])
  | string =>
    obtain ⟨he, hs⟩ := hscalar (by simp [ht])
    refine ((fills_append _).guard _).of_iff ?_
    by_cases hvalues : field.values = [] <;> simp [he, hs, hvalues]
  | ref =>
    obtain ⟨he, hs⟩ := hscalar (by simp [ht])
    have href : (emitColumn lib field).refType = some field.ref := by simp [emitColumn, ht]
    simp only [fillContextResolveRef, decodeString, getType_some, getString_some, href,
      Option.getD_some, Option.isSome_some, if_true]
    by_cases hstring : (doc v).type = .string
    · simp only [hstring, if_true]
      cases hr : resolveRef field.ref (doc v).s with
      | error text => exact (Fills.fail _).of_iff (by simp)
      | ok row =>
        simp only [Option.getD_some, hr]
        exact (fills_single fun _ => rfl).of_iff (by simp [he, hs])
    · simp only [hstring, if_false]
      exact (Fills.fail _).of_iff (by simp)
  | named name =>
    cases he : lib.enumOf field with
    | some found =>
      have hs := Library.structOf_of_enumOf he
      have hfill := @fills_fillEnum δ _ ρ lib owner doc field found (some v)
        ((getString doc (some v) none (some [])).getD []) (henum found he)
      refine (hfill.guard _).of_iff ?_
      simp +contextual [hs]
    | none =>
      cases hs : lib.structOf field with
      | none => 
        have := hf.named name ht
        simp [he, hs] at this
      | some schema =>
        simp only [Option.isSome_none, Bool.false_eq_true, if_false, Option.isSome_some, if_true]
        exact ((fills_flatten (hnested schema hs v)).guard _).of_iff (by simp)

lemma fills_fillField (hf : field.Sound lib)
    (henum : ∀ nested, lib.enumOf field = some nested →
      owner.enumOf (emitColumn lib field) = some ⟨nested.name, nested.values⟩)
    (hnested : ∀ schema, lib.structOf field = some schema → ∀ v,
      Fills (nested schema.fields (some v)) (nestedReady schema.fields v)
        (putRow · (nestedWritten schema.fields (some v))))
    (hdefault : ∀ schema, lib.structOf field = some schema → ∀ vault,
      putCells vault (defaultWritten schema.fields) = (default schema.fields, vault)) :
    Fills (fillField lib owner doc resolveRef nested default node field)
      (FieldReady lib doc resolveRef nestedReady field (value doc node field.name))
      (putCells · (generatedField lib doc resolveRef nestedWritten defaultWritten node field)) := by
  unfold fillField
  cases hv : value doc node field.name with
  | some v =>
    simp only [Option.isNone_some, Bool.and_false, Bool.false_eq_true, if_false]
    exact fills_fillPresent_some hf henum hnested hv
  | none =>
    simp only [Option.isNone_none, Bool.and_true, FieldReady]
    cases hd : columnIsDefaultable lib field with
    | true =>
      simp only [Bool.not_true, Bool.and_false, Bool.false_eq_true, if_false, true_and]
      exact fills_fillPresent_none hf hd henum hdefault hv
    | false =>
      have hnot : field.hasDefault = false := by
        cases hhas : field.hasDefault with
        | false => rfl
        | true =>
          have := columnIsDefaultable_of_hasDefault hf hhas
          rw [hd] at this
          cases this
      simp only [hnot, Bool.not_false, Bool.and_self, if_true]
      exact (Fills.fail _).of_iff (by simp)

end Fill

lemma fitting_none : Fitting lib doc resolveRef ⟨fields, none⟩ ∧ Listed lib doc ⟨fields, none⟩ ↔
    Defaulted lib ⟨fields, none⟩ := by
  simp [Fitting, Listed, Defaulted]

lemma always_fitting_none :
    Always (Inside lib doc) (fun level => Fitting lib doc resolveRef level ∧ Listed lib doc level)
        ⟨fields, none⟩ ↔
      Always (Inside lib doc) (Defaulted lib) ⟨fields, none⟩ := by
  refine @always_congr _ _ _ _ _ (fun level : FieldLevel δ => level.node = none) ?_ ?_ rfl
  · intro level level' hn hin
    cases hin with
    | struct => rw [hn]; rfl
  · rintro ⟨fields, node⟩ rfl
    exact fitting_none

lemma always_fitting_some (sound : lib.Sound) (hf : ∀ field ∈ fields, field.Sound lib) :
    Always (Inside lib doc) (fun level => Fitting lib doc resolveRef level ∧ Listed lib doc level)
        ⟨fields, some v⟩ ↔
      ∀ field ∈ fields, FieldReady lib doc resolveRef (fun fields w => Always (Inside lib doc)
          (fun level => Fitting lib doc resolveRef level ∧ Listed lib doc level) ⟨fields, some w⟩)
        field (value doc (some v) field.name) := by
  have hlevel : (Fitting lib doc resolveRef ⟨fields, some v⟩ ∧ Listed lib doc ⟨fields, some v⟩) ↔
      ∀ field ∈ fields, (match value doc (some v) field.name with
        | none => lib.structOf field = none → field.hasDefault ∧ field.DefaultInRange lib
        | some w => (emitColumn lib field).Accepts doc resolveRef (fun _ => True) w ∧
          ∀ nested, lib.enumOf field = some nested → (doc w).s ∈ nested.values) := by
    unfold Fitting Listed
    rw [← forall₂_and]
    refine forall₂_congr fun field _ => ?_
    cases value doc (some v) field.name <;> simp
  rw [always_fields hlevel]
  refine forall₂_congr fun field hm => ?_
  cases hv : value doc (some v) field.name with
  | some w => simp [FieldReady, and_assoc]
  | none =>
    simp only [FieldReady, @columnIsDefaultable_iff _ _ _ doc sound (hf field hm),
      always_fitting_none]
    cases hs : lib.structOf field with
    | none => simp
    | some nested =>
      have htrue : field.DefaultInRange lib := by
        obtain ⟨name, ht, -, -⟩ := Library.structOf_eq_some.mp hs
        simp [Field.DefaultInRange, ht]
      simp [htrue]

/-- **The emitted fill.** The fields of a scope are filled if and only if each of their levels is
fitting and listed. -/
theorem fills_fillFields (sound : lib.Sound) (ht : table ∈ lib.schemas) :
    ∀ {depth : Nat} {fields : List (Field δ)} {v : NodeId},
    InScope lib table ⟨fields, some v⟩ → NestsFields lib depth fields →
    Fills (fillFields lib (emitSchema lib table) doc resolveRef depth fields (some v))
      (Always (Inside lib doc)
        (fun level => Fitting lib doc resolveRef level ∧ Listed lib doc level) ⟨fields, some v⟩)
      (putRow · (generated lib doc resolveRef depth fields (some v))) := by
  have henum : ∀ {fields : List (Field δ)} {v : NodeId}, InScope lib table ⟨fields, some v⟩ →
      ∀ field ∈ fields, ∀ nested, lib.enumOf field = some nested →
        (emitSchema lib table).enumOf (emitColumn lib field) =
          some ⟨nested.name, nested.values⟩ := by
    rintro fields v ⟨schema, hs, -, rfl⟩ field hf nested hn
    exact enumOf_emitColumn ht hs hf hn
  intro depth
  induction depth with
  | zero =>
    intro fields v scope nests
    refine (fills_fillEach fun field hf => ?_).of_iff
      (always_fitting_some sound (scope.sound sound ht))
    refine fills_fillField (scope.sound sound ht field hf) (henum scope field hf) ?_ ?_
    · intro schema hs
      cases (nests field hf).symm.trans hs
    · intro schema hs
      cases (nests field hf).symm.trans hs
  | succ depth ih =>
    intro fields v scope nests
    refine (fills_fillEach fun field hf => ?_).of_iff
      (always_fitting_some sound (scope.sound sound ht))
    refine fills_fillField (scope.sound sound ht field hf) (henum scope field hf) ?_ ?_
    · intro schema hs w
      exact ih (scope.below hf hs (some w)) (nests field hf schema hs)
    · intro schema _ vault
      exact putCells_nestedDefault vault

end PulseEngine.Tablegen
