import PulseEngine.Datatable.Conform
import PulseEngine.Tablegen.Sound

/-!
# The emitted descriptors

The descriptors of a table mirror its schema: each level of fields has its level of columns, the
struct type of a column describes the struct of its field, and the whitelist of an enum column holds
the values of the enum. So what holds of all levels of columns can be said of the levels of fields.
-/

namespace PulseEngine.Tablegen

open Datalist Datatable PulseEngine.Library

variable {δ : Type} {lib : Library δ} {table schema nested : Schema δ}
  {field : Field δ} {fields : List (Field δ)} {level : FieldLevel δ} {doc : Document δ}

lemma collected_structOrder (lib : Library δ) (table : Schema δ) :
    Collected (nestedNames lib) (lib.schemas.map (·.name)) [] (structNames lib table.fields)
      (structOrder lib table) := by
  have hnames : ∀ fields : List (Field δ),
      structNames lib fields ⊆ lib.schemas.map (·.name) := by
    intro fields name hn
    obtain ⟨field, -, hname⟩ := List.mem_filterMap.mp hn
    obtain ⟨nested, hs, rfl⟩ := Option.map_eq_some_iff.mp hname
    exact List.mem_map_of_mem (Library.mem_of_structOf hs).1
  refine collected_collect (fun name _ => ?_) (List.nil_subset _) (hnames _) ?_
  · unfold nestedNames
    cases lib.find name with
    | none => exact List.nil_subset _
    | some schema => exact hnames schema.fields
  · have hle : (left (lib.schemas.map (·.name)) []).length ≤ (lib.schemas.map (·.name)).length :=
      List.length_filter_le _ _
    rw [List.length_map] at hle
    exact Nat.lt_succ_of_le hle

lemma mem_scopes : schema ∈ scopes lib table ↔
    schema = table ∨ ∃ name ∈ structOrder lib table, lib.find name = some schema := by
  simp [scopes]

lemma structOrder_closed (hs : schema ∈ scopes lib table) (hf : field ∈ schema.fields)
    (hn : lib.structOf field = some nested) : nested.name ∈ structOrder lib table := by
  have collected := collected_structOrder lib table
  have hname : nested.name ∈ structNames lib schema.fields :=
    List.mem_filterMap.mpr ⟨field, hf, by simp [hn]⟩
  cases mem_scopes.mp hs with
  | inl he =>
    subst he
    exact collected.asked hname
  | inr h =>
    obtain ⟨name, hm, hfind⟩ := h
    refine collected.closed name hm (List.not_mem_nil) ?_
    simpa [nestedNames, hfind] using hname

def InScope (lib : Library δ) (table : Schema δ) (level : FieldLevel δ) : Prop :=
  ∃ schema ∈ scopes lib table, schema.kind ≠ .enum ∧ schema.fields = level.fields

lemma inScope_table (hk : table.kind ≠ .enum) (node : Option NodeId) :
    InScope lib table ⟨table.fields, node⟩ :=
  ⟨table, mem_scopes.mpr (.inl rfl), hk, rfl⟩

lemma InScope.inside {level' : FieldLevel δ} (h : InScope lib table level)
    (hin : Inside lib doc level level') : InScope lib table level' := by
  obtain ⟨schema, hs, -, hfields⟩ := h
  cases hin with
  | @struct field nested hf hn =>
    have hname := structOrder_closed hs (hfields ▸ hf) hn
    exact ⟨nested, mem_scopes.mpr (.inr ⟨_, hname, Library.find_name_of_structOf hn⟩),
      by simp [(Library.mem_of_structOf hn).2], rfl⟩

lemma mem_of_mem_scopes (ht : table ∈ lib.schemas) (hs : schema ∈ scopes lib table) :
    schema ∈ lib.schemas := by
  cases mem_scopes.mp hs with
  | inl he => exact he ▸ ht
  | inr h =>
    obtain ⟨_, -, hfind⟩ := h
    exact Library.mem_of_find hfind

lemma InScope.sound (sound : lib.Sound) (ht : table ∈ lib.schemas) (h : InScope lib table level) :
    ∀ field ∈ level.fields, field.Sound lib := by
  obtain ⟨schema, hs, hk, hfields⟩ := h
  rw [← hfields]
  exact sound.fields schema (mem_of_mem_scopes ht hs) hk

lemma InScope.below {schema : Schema δ} {node : Option NodeId} (h : InScope lib table ⟨fields, node⟩) (hm : field ∈ fields)
    (hs : lib.structOf field = some schema) (node' : Option NodeId) :
    InScope lib table ⟨schema.fields, node'⟩ := by
  obtain ⟨outer, ho, -, rfl⟩ := h
  have hname := structOrder_closed ho hm hs
  exact ⟨schema, mem_scopes.mpr (.inr ⟨_, hname, Library.find_name_of_structOf hs⟩),
    by simp [(Library.mem_of_structOf hs).2], rfl⟩

variable [Double δ]

def emitLevel (lib : Library δ) (level : FieldLevel δ) : Level δ :=
  ⟨level.fields.map (emitColumn lib), level.node⟩

omit [Double δ] in
lemma emittedType_eq_struct : emittedType lib field = .struct ↔ (lib.structOf field).isSome := by
  unfold emittedType
  cases ht : field.type with
  | named name => cases h : (lib.structOf field).isSome <;> simp
  | int | float | bool | string | ref =>
    have hnone : lib.structOf field = none := Library.structOf_scalar (by simp [ht])
    by_cases hv : field.values = [] <;> cases (lib.find field.ref).isSome <;> simp [hnone, hv]

omit [Double δ] in
lemma Field.Sound.emittedType (sound : field.Sound lib) : emittedType lib field =
    match field.type with
    | .int => .int
    | .float => .float
    | .bool => .bool
    | .string => if field.values = [] then .string else .enum
    | .ref => .ref
    | .named _ => if (lib.structOf field).isSome then .struct else .enum := by
  have hvalues : field.type ≠ .string → field.values = [] := fun h => by
    by_contra hv
    exact h (sound.values hv)
  unfold Tablegen.emittedType
  cases ht : field.type with
  | named name => rfl
  | string => by_cases hv : field.values = [] <;> simp [hv]
  | ref => simp [hvalues, ht, sound.ref ht]
  | int | float | bool => simp [hvalues, ht]

lemma crossDefault_emitColumn (sound : field.Sound lib) :
    (emitColumn lib field).crossDefault = emitColumn lib field := by
  have htype : (emitColumn lib field).type = Tablegen.emittedType lib field := rfl
  have hhas : (emitColumn lib field).hasDefault = emitsDefault field := rfl
  unfold ColumnDesc.crossDefault
  rw [htype, hhas, sound.emittedType]
  cases ht : field.type with
  | int =>
    cases hd : field.hasDefault <;> simp [emitsDefault, emitColumn, sound.emittedType, ht, hd]
  | float =>
    cases hd : field.hasDefault <;> simp [emitsDefault, emitColumn, sound.emittedType, ht, hd]
  | bool => simp
  | ref => simp
  | string => by_cases hv : field.values = [] <;> simp [hv]
  | named name => cases (lib.structOf field).isSome <;> simp

/-- Registration stores the emitted descriptor as it is. -/
theorem register_emitSchema (sound : ∀ field ∈ table.fields, field.Sound lib) {schema : SchemaDesc δ}
    (h : (emitSchema lib table).register = .ok schema) : schema = emitSchema lib table := by
  obtain ⟨_, -, h⟩ := bind_ok h
  obtain ⟨_, -, h⟩ := bind_ok h
  cases h
  have hcolumns : (emitSchema lib table).columns.map ColumnDesc.crossDefault =
      (emitSchema lib table).columns := by
    simp only [emitSchema, List.map_map]
    exact List.map_congr_left fun field hf => crossDefault_emitColumn (sound field hf)
  have hkey : ((emitSchema lib table).columns[(emitSchema lib table).keyColumn]?).any
      (·.type = .int) = (emitSchema lib table).keyIsInt := by
    simp only [emitSchema, List.getElem?_map]
    cases hk : table.fields[table.keyIndex]? with
    | none => rfl
    | some key =>
      have hsound := sound key (List.mem_of_getElem? hk)
      have htype : (emitColumn lib key).type = Tablegen.emittedType lib key := rfl
      simp only [Option.map_some, Option.any_some, htype, hsound.emittedType]
      cases ht : key.type with
      | int | float | bool | ref => rfl
      | string => by_cases hv : key.values = [] <;> simp [hv]
      | named name => cases (lib.structOf key).isSome <;> simp
  rw [hcolumns, hkey]

lemma structOf_emitColumn (ht : table ∈ lib.schemas) (hs : schema ∈ scopes lib table)
    (hf : field ∈ schema.fields) (hn : lib.structOf field = some nested) :
    (emitSchema lib table).structOf (emitColumn lib field) = some (emitStruct lib nested) := by
  obtain ⟨name, htype, hfind, -⟩ := Library.structOf_eq_some.mp hn
  have hname := Library.name_of_find hfind
  subst hname
  have hne : nested.name ≠ [] := fun h =>
    lib.typed schema (mem_of_mem_scopes ht hs) field hf (h ▸ htype)
  have horder := structOrder_closed hs hf hn
  have hlook : ∀ names : List Text, nested.name ∈ names →
      ((names.filterMap lib.find).map (emitStruct lib)).find? (·.name = nested.name) =
        some (emitStruct lib nested) := by
    intro names
    induction names with
    | nil => intro h; cases h
    | cons other names ih =>
      intro h
      by_cases he : other = nested.name
      · simp [he, hfind, emitStruct]
      · have hrest := ih (List.mem_of_ne_of_mem (Ne.symm he) h)
        cases hother : lib.find other with
        | none => simpa [hother] using hrest
        | some schema =>
          have := Library.name_of_find hother
          simpa [hother, emitStruct, this, he] using hrest
  unfold SchemaDesc.structOf SchemaDesc.findStruct
  simp only [emitColumn, hn, Option.map_some, Option.getD_some, hne, if_false, emitSchema]
  exact hlook _ horder

lemma InScope.structOf {schema : Schema δ} {node : Option NodeId} (h : InScope lib table ⟨fields, node⟩)
    (ht : table ∈ lib.schemas) (hm : field ∈ fields) (hs : lib.structOf field = some schema) :
    (emitSchema lib table).structOf (emitColumn lib field) = some (emitStruct lib schema) := by
  obtain ⟨outer, ho, -, rfl⟩ := h
  exact structOf_emitColumn ht ho hm hs

lemma descends_emitLevel (ht : table ∈ lib.schemas) (h : InScope lib table level) (c : Level δ) :
    Descends (emitSchema lib table) doc (emitLevel lib level) c ↔
      ∃ level', Inside lib doc level level' ∧ c = emitLevel lib level' := by
  obtain ⟨schema, hs, -, hfields⟩ := h
  constructor
  · intro hd
    cases hd with
    | @struct column desc hc htype hdesc =>
      obtain ⟨field, hf, rfl⟩ := List.mem_map.mp hc
      obtain ⟨nested, hn⟩ := Option.isSome_iff_exists.mp (emittedType_eq_struct.mp htype)
      cases (structOf_emitColumn ht hs (hfields ▸ hf) hn).symm.trans hdesc
      exact ⟨_, .struct hf hn, rfl⟩
  · rintro ⟨level', hin, rfl⟩
    cases hin with
    | @struct field nested hf hn =>
      exact .struct (List.mem_map_of_mem hf) (emittedType_eq_struct.mpr (by simp [hn]))
        (structOf_emitColumn ht hs (hfields ▸ hf) hn)

/-- What holds of all levels of columns, said of the levels of fields. -/
theorem always_emitLevel (ht : table ∈ lib.schemas) (h : InScope lib table level)
    {P : Level δ → Prop} : Always (Descends (emitSchema lib table) doc) P (emitLevel lib level) ↔
      Always (Inside lib doc) (fun level => P (emitLevel lib level)) level :=
  always_map (fun _ _ => InScope.inside) (fun _ hi c => descends_emitLevel ht hi c) h

lemma nests_emit (ht : table ∈ lib.schemas) : ∀ {depth : Nat} {schema : Schema δ},
    schema ∈ scopes lib table → NestsFields lib depth schema.fields →
    Nests (emitSchema lib table) depth (schema.fields.map (emitColumn lib)) := by
  intro depth
  induction depth with
  | zero =>
    intro schema _ h column hc htype
    obtain ⟨field, hf, rfl⟩ := List.mem_map.mp hc
    have hsome := emittedType_eq_struct.mp htype
    simp [h field hf] at hsome
  | succ depth ih =>
    intro schema hs h column hc htype
    obtain ⟨field, hf, rfl⟩ := List.mem_map.mp hc
    obtain ⟨nested, hn⟩ := Option.isSome_iff_exists.mp (emittedType_eq_struct.mp htype)
    have hname := structOrder_closed hs hf hn
    have hscope := mem_scopes.mpr (.inr ⟨_, hname, Library.find_name_of_structOf hn⟩)
    exact ⟨_, structOf_emitColumn ht hs hf hn, ih hscope (h field hf nested hn)⟩

lemma find_of_unique {α : Type*} {p : α → Bool} {a : α} {l : List α} (hm : a ∈ l) (hp : p a)
    (h : ∀ b ∈ l, p b → b = a) : l.find? p = some a := by
  obtain ⟨b, hb⟩ := Option.isSome_iff_exists.mp (List.find?_isSome.mpr ⟨a, hm, hp⟩)
  rw [hb, h b (List.mem_of_find?_eq_some hb) (List.find?_some hb)]

lemma find_firstOfName (name : Text) (descs : List EnumDesc) :
    (firstOfName descs).find? (·.name = name) = descs.find? (·.name = name) := by
  have hfold : ∀ kept : List EnumDesc,
      (descs.foldl (fun kept desc => if kept.any (·.name = desc.name) then kept else kept ++ [desc])
        kept).find? (·.name = name) = (kept ++ descs).find? (·.name = name) := by
    induction descs with
    | nil => intro kept; simp
    | cons desc descs ih =>
      intro kept
      rw [List.foldl_cons, ih]
      by_cases hany : kept.any (·.name = desc.name)
      · rw [if_pos hany]
        obtain ⟨other, hm, he⟩ := List.any_eq_true.mp hany
        simp only [decide_eq_true_eq] at he
        by_cases hname : desc.name = name
        · have hsome : (kept.find? (·.name = name)).isSome := by
            rw [List.find?_isSome]
            exact ⟨other, hm, by simp [he, hname]⟩
          obtain ⟨first, hfirst⟩ := Option.isSome_iff_exists.mp hsome
          simp [List.find?_append, hfirst]
        · simp [List.find?_append, hname]
      · rw [if_neg hany]
        simp
  exact hfold []

lemma enumOf_emitColumn (ht : table ∈ lib.schemas) (hs : schema ∈ scopes lib table)
    (hf : field ∈ schema.fields) (hn : lib.enumOf field = some nested) :
    (emitSchema lib table).enumOf (emitColumn lib field) = some ⟨nested.name, nested.values⟩ := by
  obtain ⟨name, htype, hfind, hkind⟩ := Library.enumOf_eq_some.mp hn
  have hname := Library.name_of_find hfind
  subst hname
  have hne : nested.name ≠ [] := fun h =>
    lib.typed schema (mem_of_mem_scopes ht hs) field hf (h ▸ htype)
  have hstruct := Library.structOf_of_enumOf hn
  have htypeOf : lib.typeOf field = some nested := by simp [Library.typeOf, htype, hfind]
  unfold SchemaDesc.enumOf SchemaDesc.findEnum
  simp only [emitColumn, htype, hstruct, htypeOf, Option.isSome_none, Bool.false_eq_true, if_false,
    Option.map_some, Option.getD_some, hne, emitSchema, emitEnums]
  rw [find_firstOfName, List.find?_append, Option.or_eq_some_iff]
  left
  refine find_of_unique (List.mem_flatMap.mpr ⟨schema, hs, ?_⟩) (by simp) ?_
  · exact List.mem_filterMap.mpr ⟨field, hf, by simp [hn]⟩
  · intro desc hd hname
    obtain ⟨other, -, hd⟩ := List.mem_flatMap.mp hd
    obtain ⟨otherField, -, hd⟩ := List.mem_filterMap.mp hd
    obtain ⟨found, hother, rfl⟩ := Option.map_eq_some_iff.mp hd
    obtain ⟨otherName, -, hfound, -⟩ := Library.enumOf_eq_some.mp hother
    have heq : otherName = nested.name := by
      rw [← Library.name_of_find hfound]
      simpa using hname
    cases hfind.symm.trans (heq ▸ hfound)
    rfl

end PulseEngine.Tablegen
