import PulseEngine.Tablegen.Generated

/-!
# The emitted fill and the engine's fill

`fill_columns` fills a table from its descriptors, the emitted code fills it from what the generator
knew of the schema. The descriptors have no defaults of enums and references, so the engine cannot
fill a row where one is missing; it checks the defaults inside missing structs against their ranges,
which the emitted code does not, and it does not look for the texts of enums, which the emitted code
does. The floats of a missing struct are `float` literals in the emitted code.
-/

namespace PulseEngine.Tablegen

open Datalist Datatable PulseEngine.Library

variable {δ : Type} [Double δ] {ρ : Type}

def FillsAgree (vault : StringVault) (a b : Fill (List (List (Cell δ ρ StringView)))) : Prop :=
  match a vault, b vault with
  | .ok (cells, _), .ok (cells', _) =>
    contents StringView.text cells = contents StringView.text cells'
  | .error _, .error _ => True
  | _, _ => False

section Levels

variable (lib : Library δ) (doc : Document δ)

/-- What the level takes from its defaults stands in the descriptors: no enum and no reference is
missing, and the defaults of numbers lie in their ranges. -/
def Described (level : FieldLevel δ) : Prop :=
  ∀ field ∈ level.fields, value doc level.node field.name = none →
    lib.enumOf field = none ∧ field.type ≠ .ref ∧ field.DefaultInRange lib

/-- The floats of a missing struct are exact as `float` literals. -/
def Exact (level : FieldLevel δ) : Prop :=
  level.node = none → ∀ field ∈ level.fields, field.type = .float →
    field.defaultFloat = Double.floatLiteral field.defaultFloat

end Levels

variable {lib : Library δ} {table : Schema δ} {doc : Document δ}
  {resolveRef : Text → Text → Except String ρ} {level : FieldLevel δ} {field : Field δ}
  {fields : List (Field δ)} {node : Option NodeId} {v : NodeId} {depth : Nat}

lemma describes_iff (hf : field.Sound lib) :
    ((emitColumn lib field).type ≠ .struct →
        (emitColumn lib field).hasDefault ∧ (emitColumn lib field).DefaultFits resolveRef) ↔
      (lib.structOf field = none → field.hasDefault) ∧
        lib.enumOf field = none ∧ field.type ≠ .ref ∧ field.DefaultInRange lib := by
  have htype : (emitColumn lib field).type = emittedType lib field := rfl
  have hhas : (emitColumn lib field).hasDefault = emitsDefault field := rfl
  have hscalar : (∀ name, field.type ≠ .named name) →
      lib.enumOf field = none ∧ lib.structOf field = none :=
    fun h => ⟨Library.enumOf_scalar h, Library.structOf_scalar h⟩
  unfold ColumnDesc.DefaultFits Field.DefaultInRange
  rw [htype, hhas, hf.emittedType]
  cases ht : field.type with
  | named name =>
    cases hs : lib.structOf field with
    | some nested =>
      have he : lib.enumOf field = none := by
        cases h : lib.enumOf field with
        | none => rfl
        | some other => cases (Library.structOf_of_enumOf h).symm.trans hs
      simp [he]
    | none =>
      have he : (lib.enumOf field).isSome := by simpa [hs] using hf.named name ht
      obtain ⟨nested, hn⟩ := Option.isSome_iff_exists.mp he
      simp [emitsDefault, ht, hn]
  | ref => 
    obtain ⟨he, hs⟩ := hscalar (by simp [ht])
    simp [emitsDefault, ht]
  | int =>
    obtain ⟨he, hs⟩ := hscalar (by simp [ht])
    simp +contextual [emitsDefault, ht, he, hs, emitColumn]
  | float =>
    obtain ⟨he, hs⟩ := hscalar (by simp [ht])
    simp +contextual [emitsDefault, ht, he, hs, emitColumn]
  | bool =>
    obtain ⟨he, hs⟩ := hscalar (by simp [ht])
    simp [emitsDefault, ht, he, hs]
  | string =>
    obtain ⟨he, hs⟩ := hscalar (by simp [ht])
    by_cases hv : field.values = [] <;> simp [emitsDefault, ht, he, hs, hv]

lemma fillReady_emitLevel (hf : ∀ field ∈ level.fields, field.Sound lib) :
    FillReady doc resolveRef (emitLevel lib level) ↔
      Fitting lib doc resolveRef level ∧ Described lib doc level := by
  unfold FillReady Fitting Described emitLevel
  rw [List.forall_mem_map, ← forall₂_and]
  refine forall₂_congr fun field hm => ?_
  have hname : (emitColumn lib field).name = field.name := rfl
  rw [hname]
  cases hv : value doc level.node field.name with
  | some v => simp
  | none =>
    simp only [describes_iff (hf field hm)]
    tauto

lemma always_fillReady (sound : lib.Sound) (ht : table ∈ lib.schemas)
    (scope : InScope lib table level) :
    Always (Descends (emitSchema lib table) doc) (FillReady doc resolveRef) (emitLevel lib level) ↔
      Always (Inside lib doc)
        (fun level => Fitting lib doc resolveRef level ∧ Described lib doc level) level := by
  rw [always_emitLevel ht scope]
  exact always_congr (fun _ _ => InScope.inside)
    (fun _ hi => fillReady_emitLevel (hi.sound sound ht)) scope

def EqualIff {α : Type*} (xs ys : List (List α)) (p : Prop) : Prop :=
  xs.map List.length = ys.map List.length ∧ (xs = ys ↔ p)

lemma equalIff_map {ι α : Type*} {f g : ι → List α} {p : ι → Prop} {l : List ι}
    (h : ∀ i ∈ l, (f i).length = (g i).length ∧ (f i = g i ↔ p i)) :
    EqualIff (l.map f) (l.map g) (∀ i ∈ l, p i) := by
  refine ⟨?_, ?_⟩
  · rw [List.map_map, List.map_map]
    exact List.map_congr_left fun i hi => (h i hi).1
  · rw [List.map_inj_left]
    exact forall₂_congr fun i hi => (h i hi).2

lemma EqualIff.flatten {α : Type*} {xs ys : List (List α)} {p : Prop} (h : EqualIff xs ys p) :
    xs.flatten.length = ys.flatten.length ∧ (xs.flatten = ys.flatten ↔ p) := by
  refine ⟨?_, ?_⟩
  · rw [List.length_flatten, List.length_flatten, h.1]
  · rw [← h.2, List.eq_iff_flatten_eq]
    exact ⟨fun he => ⟨he, h.1⟩, fun he => he.1⟩

def texts (cells : List (Cell δ ρ Written)) : List (Cell δ ρ Text) :=
  cells.map (Cell.mapString Written.text)

omit [Double δ] in
lemma contents_map {ι : Type} {l : List ι} {f : ι → List (Cell δ ρ Written)} :
    contents Written.text (l.map f) = l.map fun i => texts (f i) := by
  simp [contents, texts, Function.comp_def]

omit [Double δ] in
lemma texts_flatten (row : List (List (Cell δ ρ Written))) :
    texts row.flatten = (contents Written.text row).flatten := by
  simp [texts, contents, List.map_flatten]

def defaultColumns (lib : Library δ) : Nat → List (Field δ) → List (List (Cell δ ρ Text))
  | 0, fields => fields.map (fieldDefaultBody lib id fun _ => [])
  | depth + 1, fields => fields.map (fieldDefaultBody lib id (nestedDefault lib id depth))

lemma flatten_defaultColumns : (defaultColumns lib depth fields : List (List (Cell δ ρ Text))).flatten =
    nestedDefault lib id depth fields := by
  cases depth <;> simp [defaultColumns, nestedDefault, List.flatMap_def]

lemma missing_field {nested : List (ColumnDesc δ) → Option NodeId → List (List (Cell δ ρ Written))}
    {default : List (Field δ) → List (Cell δ ρ Text)} {p : List (Field δ) → Prop}
    (hf : field.Sound lib) (hd : lib.structOf field = none → field.hasDefault)
    (he : lib.enumOf field = none) (href : field.type ≠ .ref)
    (hstruct : ∀ schema, lib.structOf field = some schema →
      (emitSchema lib table).structOf (emitColumn lib field) = some (emitStruct lib schema))
    (hnested : ∀ schema, lib.structOf field = some schema →
      (texts (nested (emitStruct lib schema).columns none).flatten).length =
          (default schema.fields).length ∧
        (texts (nested (emitStruct lib schema).columns none).flatten = default schema.fields ↔
          p schema.fields)) :
    (texts (writtenColumn (emitSchema lib table) doc resolveRef nested none
        (emitColumn lib field))).length = (fieldDefaultBody lib id default field).length ∧
      (texts (writtenColumn (emitSchema lib table) doc resolveRef nested none
          (emitColumn lib field)) = fieldDefaultBody lib id default field ↔
        (field.type = .float → field.defaultFloat = Double.floatLiteral field.defaultFloat) ∧
          ∀ schema, lib.structOf field = some schema → p schema.fields) := by
  have htype : (emitColumn lib field).type = emittedType lib field := rfl
  unfold writtenColumn fieldDefaultBody
  rw [htype, hf.emittedType, value_none]
  cases ht : field.type with
  | ref => exact absurd ht href
  | named name =>
    cases hs : lib.structOf field with
    | none =>
      have := hf.named name ht
      simp [hs, he] at this
    | some schema =>
      obtain ⟨name', ht', hfind, hkind⟩ := Library.structOf_eq_some.mp hs
      have htypeOf : lib.typeOf field = some schema := by simp [Library.typeOf, ht', hfind]
      simpa [htypeOf, hkind, hstruct schema hs] using hnested schema hs
  | int | float | bool | string =>
    have hs : lib.structOf field = none := Library.structOf_scalar (by simp [ht])
    have hhas := hd hs
    by_cases hv : field.values = [] <;>
      simp [hs, hv, texts, Cell.mapString, emitColumn, hhas, ht]

lemma missing_struct (sound : lib.Sound) (ht : table ∈ lib.schemas) :
    ∀ {depth : Nat} {fields : List (Field δ)}, InScope lib table ⟨fields, none⟩ →
    NestsFields lib depth fields →
    Always (Inside lib doc)
      (fun level => Fitting lib doc resolveRef level ∧ Described lib doc level) ⟨fields, none⟩ →
    EqualIff (contents Written.text (written (emitSchema lib table) doc resolveRef depth
        (fields.map (emitColumn lib)) none))
      (defaultColumns lib depth fields) (Always (Inside lib doc) Exact ⟨fields, none⟩) := by
  have hexact : ∀ {fields : List (Field δ)}, Exact ⟨fields, none⟩ ↔ ∀ field ∈ fields,
      (field.type = .float → field.defaultFloat = Double.floatLiteral field.defaultFloat) := by
    intro fields
    simp [Exact]
  intro depth
  induction depth with
  | zero =>
    intro fields scope nests ready
    obtain ⟨⟨hfit, hdesc⟩, -⟩ := always_iff.mp ready
    simp only [written, defaultColumns, List.map_map, contents_map, always_fields hexact]
    refine equalIff_map fun field hm => ?_
    obtain ⟨he, href, -⟩ := hdesc field hm rfl
    have hfield := @missing_field _ _ _ lib table doc resolveRef field (fun _ _ => [])
      (fun _ => []) (fun fields => Always (Inside lib doc) Exact ⟨fields, none⟩)
      (scope.sound sound ht field hm) (fun hs => (hfit field hm hs).1) he href
      (fun schema hs => scope.structOf ht hm hs)
    refine hfield fun schema hs => ?_
    cases (nests field hm).symm.trans hs
  | succ depth ih =>
    intro fields scope nests ready
    obtain ⟨⟨hfit, hdesc⟩, hbelow⟩ := always_iff.mp ready
    simp only [written, defaultColumns, List.map_map, contents_map, always_fields hexact]
    refine equalIff_map fun field hm => ?_
    obtain ⟨he, href, -⟩ := hdesc field hm rfl
    have hfield := @missing_field _ _ _ lib table doc resolveRef field
      (written (emitSchema lib table) doc resolveRef depth) (nestedDefault lib id depth)
      (fun fields => Always (Inside lib doc) Exact ⟨fields, none⟩) (scope.sound sound ht field hm)
      (fun hs => (hfit field hm hs).1) he href (fun schema hs => scope.structOf ht hm hs)
    refine hfield fun schema hs => ?_
    have hboth := (ih (scope.below hm hs none) (nests field hm schema hs)
      (hbelow _ (.struct hm hs))).flatten
    rwa [flatten_defaultColumns, ← texts_flatten] at hboth

lemma present_field {nested : List (ColumnDesc δ) → Option NodeId → List (List (Cell δ ρ Written))}
    {nested' : List (Field δ) → Option NodeId → List (List (Cell δ ρ Written))}
    {default : List (Field δ) → List (Cell δ ρ Written)} {p : List (Field δ) → Option NodeId → Prop}
    (hf : field.Sound lib)
    (hmissing : value doc node field.name = none →
      (lib.structOf field = none → field.hasDefault) ∧ lib.enumOf field = none ∧ field.type ≠ .ref)
    (hstruct : ∀ schema, lib.structOf field = some schema →
      (emitSchema lib table).structOf (emitColumn lib field) = some (emitStruct lib schema))
    (hdefault : ∀ schema, lib.structOf field = some schema → value doc node field.name = none →
      (texts (nested (emitStruct lib schema).columns none).flatten).length =
          (texts (default schema.fields)).length ∧
        (texts (nested (emitStruct lib schema).columns none).flatten = texts (default schema.fields) ↔
          p schema.fields none))
    (hnested : ∀ schema, lib.structOf field = some schema → ∀ v, value doc node field.name = some v →
      (texts (nested (emitStruct lib schema).columns (some v)).flatten).length =
          (texts (nested' schema.fields (some v)).flatten).length ∧
        (texts (nested (emitStruct lib schema).columns (some v)).flatten =
          texts (nested' schema.fields (some v)).flatten ↔ p schema.fields (some v))) :
    (texts (writtenColumn (emitSchema lib table) doc resolveRef nested node
        (emitColumn lib field))).length =
        (texts (generatedField lib doc resolveRef nested' default node field)).length ∧
      (texts (writtenColumn (emitSchema lib table) doc resolveRef nested node
          (emitColumn lib field)) =
        texts (generatedField lib doc resolveRef nested' default node field) ↔
        ∀ schema, lib.structOf field = some schema →
          p schema.fields (value doc node field.name)) := by
  have htype : (emitColumn lib field).type = emittedType lib field := rfl
  have hname : (emitColumn lib field).name = field.name := rfl
  unfold writtenColumn generatedField
  rw [htype, hname, hf.emittedType]
  cases ht : field.type with
  | named name =>
    cases hs : lib.structOf field with
    | none =>
      have he : (lib.enumOf field).isSome := by simpa [hs] using hf.named name ht
      cases hv : value doc node field.name with
      | none => simp [(hmissing hv).2.1] at he
      | some v => simp [he, texts, Cell.mapString]
    | some schema =>
      have he : lib.enumOf field = none := by
        cases h : lib.enumOf field with
        | none => rfl
        | some other => cases (Library.structOf_of_enumOf h).symm.trans hs
      cases hv : value doc node field.name with
      | none => simpa [he, hstruct schema hs] using hdefault schema hs hv
      | some v => simpa [he, hstruct schema hs] using hnested schema hs v hv
  | ref =>
    have hs : lib.structOf field = none := Library.structOf_scalar (by simp [ht])
    cases hv : value doc node field.name with
    | none => exact absurd ht (hmissing hv).2.2
    | some v => simp [hs, texts, Cell.mapString, emitColumn, ht]
  | int | float | bool | string =>
    have hs : lib.structOf field = none := Library.structOf_scalar (by simp [ht])
    cases hv : value doc node field.name with
    | none =>
      have hhas := (hmissing hv).1 hs
      by_cases hvalues : field.values = [] <;>
        simp [hs, hvalues, texts, Cell.mapString, emitColumn, hhas, ht]
    | some v =>
      by_cases hvalues : field.values = [] <;> simp [hs, hvalues, texts, Cell.mapString]

lemma present_struct (sound : lib.Sound) (ht : table ∈ lib.schemas) :
    ∀ {depth : Nat} {fields : List (Field δ)} {v : NodeId}, InScope lib table ⟨fields, some v⟩ →
    NestsFields lib depth fields →
    Always (Inside lib doc)
      (fun level => Fitting lib doc resolveRef level ∧ Described lib doc level) ⟨fields, some v⟩ →
    EqualIff (contents Written.text (written (emitSchema lib table) doc resolveRef depth
        (fields.map (emitColumn lib)) (some v)))
      (contents Written.text (generated lib doc resolveRef depth fields (some v)))
      (Always (Inside lib doc) Exact ⟨fields, some v⟩) := by
  have hexact : ∀ {fields : List (Field δ)} {v : NodeId}, Exact ⟨fields, some v⟩ ↔
      ∀ field ∈ fields, True := by
    intro fields v
    simp [Exact]
  have hmissing : ∀ {fields : List (Field δ)} {v : NodeId}, Fitting lib doc resolveRef ⟨fields, some v⟩ →
      Described lib doc ⟨fields, some v⟩ → ∀ field ∈ fields, value doc (some v) field.name = none →
      (lib.structOf field = none → field.hasDefault) ∧ lib.enumOf field = none ∧
        field.type ≠ .ref := by
    intro fields v hfit hdesc field hm hv
    obtain ⟨he, href, -⟩ := hdesc field hm hv
    have hfield := hfit field hm
    rw [show value doc (some v) field.name = none from hv] at hfield
    exact ⟨fun hs => (hfield hs).1, he, href⟩
  intro depth
  induction depth with
  | zero =>
    intro fields v scope nests ready
    obtain ⟨⟨hfit, hdesc⟩, -⟩ := always_iff.mp ready
    simp only [written, generated, List.map_map, contents_map, always_fields hexact, true_and]
    refine equalIff_map fun field hm => ?_
    have hfield := @present_field _ _ _ lib table doc resolveRef field (some v) (fun _ _ => [])
      (fun _ _ => []) (fun _ => []) (fun fields node => Always (Inside lib doc) Exact ⟨fields, node⟩)
      (scope.sound sound ht field hm) (hmissing hfit hdesc field hm)
      (fun schema hs => scope.structOf ht hm hs)
    refine hfield (fun schema hs => ?_) fun schema hs => ?_
    · cases (nests field hm).symm.trans hs
    · cases (nests field hm).symm.trans hs
  | succ depth ih =>
    intro fields v scope nests ready
    obtain ⟨⟨hfit, hdesc⟩, hbelow⟩ := always_iff.mp ready
    simp only [written, generated, List.map_map, contents_map, always_fields hexact, true_and]
    refine equalIff_map fun field hm => ?_
    have hfield := @present_field _ _ _ lib table doc resolveRef field (some v)
      (written (emitSchema lib table) doc resolveRef depth) (generated lib doc resolveRef depth)
      (nestedDefault lib (⟨·, false⟩) depth)
      (fun fields node => Always (Inside lib doc) Exact ⟨fields, node⟩)
      (scope.sound sound ht field hm) (hmissing hfit hdesc field hm)
      (fun schema hs => scope.structOf ht hm hs)
    refine hfield (fun schema hs hv => ?_) fun schema hs w hv => ?_
    · have hlevel := hbelow _ (.struct hm hs)
      rw [show value doc (some v) field.name = none from hv] at hlevel
      have hboth := (missing_struct sound ht (scope.below hm hs none) (nests field hm schema hs)
        hlevel).flatten
      rw [flatten_defaultColumns, ← texts_flatten] at hboth
      unfold texts at hboth ⊢
      rwa [nestedDefault_map]
    · have hlevel := hbelow _ (.struct hm hs)
      rw [show value doc (some v) field.name = some w from hv] at hlevel
      have hboth := (ih (scope.below hm hs (some w)) (nests field hm schema hs) hlevel).flatten
      rwa [← texts_flatten, ← texts_flatten] at hboth

omit [Double δ] in
lemma fillsAgree_iff {a b : Fill (List (List (Cell δ ρ StringView)))} {ready ready' : Prop}
    {row row' : List (List (Cell δ ρ Written))} {vault : StringVault}
    (ha : Fills a ready (putRow · row)) (hb : Fills b ready' (putRow · row')) :
    FillsAgree vault a b ↔ (ready ↔ ready') ∧
      (ready → ready' → contents Written.text row = contents Written.text row') := by
  unfold FillsAgree
  by_cases hr : ready
  · by_cases hr' : ready'
    · simp [ha.ok hr, hb.ok hr', hr, hr', putRow_contents]
    · obtain ⟨failure, hf⟩ := hb.error hr' vault
      simp [ha.ok hr, hf, hr, hr']
  · obtain ⟨failure, hf⟩ := ha.error hr vault
    by_cases hr' : ready'
    · simp [hf, hb.ok hr', hr, hr']
    · obtain ⟨failure', hf'⟩ := hb.error hr' vault
      simp [hf, hf', hr, hr']

/-- The row is filled alike: where its levels fit, either they are described, listed and exact, or
some level is not described and some level is not listed. -/
def FilledAlike (lib : Library δ) (doc : Document δ) (resolveRef : Text → Text → Except String ρ)
    (level : FieldLevel δ) : Prop :=
  Always (Inside lib doc) (Fitting lib doc resolveRef) level →
    (Always (Inside lib doc) (Described lib doc) level ∧ Always (Inside lib doc) (Listed lib doc) level ∧
      Always (Inside lib doc) Exact level) ∨
    (¬ Always (Inside lib doc) (Described lib doc) level ∧
      ¬ Always (Inside lib doc) (Listed lib doc) level)

/-- **The two fills.** For every table of a library that validates and every row, the emitted fill
and the engine's fill agree exactly if the row is filled alike. -/
theorem fills_agree (valid : validateLibrary lib = []) (ht : table ∈ lib.schemas)
    (hk : table.kind = .table) (doc : Document δ) (resolveRef : Text → Text → Except String ρ)
    (row : NodeId) (vault : StringVault) :
    FillsAgree vault (genericFillRow (emitSchema lib table) doc resolveRef (some row))
        (generatedFillRow lib doc resolveRef table (some row)) ↔
      FilledAlike lib doc resolveRef ⟨table.fields, some row⟩ := by
  have sound := sound_of_validateLibrary valid
  have hne : table.kind ≠ .enum := by simp [hk]
  have scope : InScope lib table ⟨table.fields, some row⟩ := inScope_table hne _
  have nests := sound.nests ht hne
  have hnests := nests_emit ht (mem_scopes.mpr (.inl rfl)) nests
  have hgeneric := @fills_fillColumns _ _ _ (emitSchema lib table) doc resolveRef _ _ (some row)
    hnests.bound
  have hgenerated := @fills_fillFields _ _ _ lib table doc resolveRef sound ht _ _ row scope nests
  have hgeneric := hgeneric.of_iff (always_fillReady sound ht scope).symm
  -- both bounds of the depth give the same row
  have hwritten : written (emitSchema lib table) doc resolveRef
      (emitSchema lib table).structs.length (table.fields.map (emitColumn lib)) (some row) =
      written (emitSchema lib table) doc resolveRef lib.schemas.length
        (table.fields.map (emitColumn lib)) (some row) :=
    (written_congr hnests.bound (Nat.le_add_right _ _)).symm.trans
      (written_congr hnests (Nat.le_add_left _ _))
  rw [hwritten] at hgeneric
  rw [show (genericFillRow (emitSchema lib table) doc resolveRef (some row)) =
      fillColumns (emitSchema lib table) doc resolveRef (emitSchema lib table).structs.length
        (table.fields.map (emitColumn lib)) (some row) from rfl, generatedFillRow,
    fillsAgree_iff hgeneric hgenerated]
  have hcontents := fun ready =>
    (@present_struct _ _ _ lib table doc resolveRef sound ht _ _ row scope nests ready).2
  unfold FilledAlike
  simp only [always_and] at hcontents ⊢
  by_cases hfit : Always (Inside lib doc) (Fitting lib doc resolveRef) ⟨table.fields, some row⟩
  · by_cases hdesc : Always (Inside lib doc) (Described lib doc) ⟨table.fields, some row⟩
    · have hequal := hcontents ⟨hfit, hdesc⟩
      simp only [hfit, hdesc, true_and, hequal]
      tauto
    · simp only [hfit, hdesc]
      tauto
  · simp [hfit]

def plainField (name : Text) (type : FieldType) : Field Int :=
  ⟨name, type, [], [], false, false, false, false, 0, 0, 0, 0, false, [], []⟩

/-- An item has a rarity, which is the enum `r` and is `c` by default. -/
def items : Schema Int where
  name := ['t']
  path := ['t', '.', 's']
  kind := .table
  fields := [{ plainField ['i', 'd'] .string with isKey := true },
    { plainField ['r'] (.named ['r']) with hasDefault := true, defaultString := ['c'] }]
  values := []
  keyIndex := 0

def itemLibrary : Library Int where
  schemas := [items, ⟨['r'], ['r', '.', 's'], .enum, [], [['c']], 0⟩]
  typed := by decide

def itemFile : Document Int
  | 0 => { Node.empty .map with entries := [(['i', 'd'], 1)] }
  | _ => { Node.empty .string with s := ['a'] }

def noReferences (_ _ : Text) : Except String Nat := .error "referenced schema is not registered"

lemma itemLibrary_valid : validateLibrary itemLibrary = [] := by decide

theorem fills_agree_items :
    FillsAgree .empty (genericFillRow (emitSchema itemLibrary items) itemFile noReferences (some 0))
        (generatedFillRow itemLibrary itemFile noReferences items (some 0)) ↔
      FilledAlike itemLibrary itemFile noReferences ⟨items.fields, some 0⟩ :=
  fills_agree itemLibrary_valid (by simp [itemLibrary]) rfl itemFile noReferences 0 .empty

/-- The engine reports that the rarity is missing, the emitted code gives it its default. -/
theorem not_fills_agree : ¬ ∀ (lib : Library Int), validateLibrary lib = [] →
    ∀ table ∈ lib.schemas, table.kind = .table → ∀ (doc : Document Int)
    (resolveRef : Text → Text → Except String Nat) (row : NodeId) (vault : StringVault),
    FillsAgree vault (genericFillRow (emitSchema lib table) doc resolveRef (some row))
      (generatedFillRow lib doc resolveRef table (some row)) := by
  intro h
  have hagree := h itemLibrary itemLibrary_valid items (by simp [itemLibrary]) rfl itemFile
    noReferences 0 .empty
  obtain ⟨failure, hgeneric⟩ : ∃ failure, genericFillRow (emitSchema itemLibrary items) itemFile
      noReferences (some 0) .empty = .error failure := ⟨_, rfl⟩
  obtain ⟨filled, hgenerated⟩ : ∃ filled, generatedFillRow itemLibrary itemFile noReferences items
      (some 0) .empty = .ok filled := ⟨_, rfl⟩
  rw [FillsAgree, hgeneric, hgenerated] at hagree
  exact hagree

end PulseEngine.Tablegen
