import PulseEngine.Datatable.Layout
import PulseEngine.Library.Emplace
import PulseEngine.Library.Descent

/-!
# Registering a schema

`Registry::register_schema` of `pulse_datatable/src/datatable_registry.cpp`, for a descriptor without a
`fill_row` of its own, with the members of `Registry` that it writes. The texts of errors are given
before `vsnprintf` cuts them to its buffer. The struct types of a descriptor can be laid out if and
only if they do not contain each other in a circle.
-/

namespace PulseEngine.Datatable

open Datalist Library

variable {δ : Type}

/-- `OwnedSchema`: the copy of a descriptor, and the layout that was written into it. -/
structure OwnedSchema (δ : Type) where
  desc : SchemaDesc δ
  layout : SchemaLayout

/-- `schemas_`, `owned_` and `error_text_` of `Registry`. -/
structure SchemaRegistry (δ : Type) where
  schemas : Text → Option (OwnedSchema δ)
  owned : List (OwnedSchema δ)
  errorText : List String

/-- `EPulseResult`, as far as `register_schema` returns it, with the message of a failure. -/
inductive RegisterResult where
  | ok
  | invalidArgument (message : String)
  | duplicatePlugin (message : String)
  deriving DecidableEq, Repr

namespace SchemaRegistry

def init : SchemaRegistry δ := ⟨fun _ => none, [], []⟩

def internError (registry : SchemaRegistry δ) (wantsError : Bool) (message : String) :
    SchemaRegistry δ :=
  if wantsError ∧ message ≠ "" then
    { registry with errorText := registry.errorText ++ [message] }
  else registry

variable [Double δ]

def store (desc : SchemaDesc δ) (layout : SchemaLayout) : OwnedSchema δ where
  desc := { desc with
    columns := desc.columns.map ColumnDesc.crossDefault
    keyIsInt := (desc.columns[desc.keyColumn]?).any (·.type = .int) }
  layout := layout

def registerSchema (registry : SchemaRegistry δ) (desc : SchemaDesc δ) (wantsError : Bool) :
    SchemaRegistry δ × RegisterResult :=
  let invalid (message : String) :=
    (registry.internError wantsError message, RegisterResult.invalidArgument message)
  if desc.name = [] then invalid "schema descriptor or name is missing"
  else
    match validateSchema desc with
    | .error message => invalid message
    | .ok () =>
      match registry.schemas desc.name with
      | some _ =>
        let message := "schema " ++ quoted desc.name ++ " is already registered"
        (registry.internError wantsError message, .duplicatePlugin message)
      | none =>
        match layoutSchema desc with
        | .error message => invalid message
        | .ok layout =>
          ({ registry with
            schemas := emplace registry.schemas desc.name (store desc layout)
            owned := registry.owned ++ [store desc layout] }, .ok)

end SchemaRegistry

structure Marks (schema : SchemaDesc δ) (layouts : List TypeLayout) (laid : List Nat) : Prop where
  length : layouts.length = schema.structs.length
  laid : ∀ i, i ∈ laid ↔ ∃ layout, layouts[i]? = some layout ∧ 0 < layout.extent.size

def Marked (schema : SchemaDesc δ) : Except String (List TypeLayout) → Except String (List Nat) → Prop
  | .ok layouts, .ok laid => Marks schema layouts laid
  | .error message, .error message' => message = message'
  | _, _ => False

variable {schema : SchemaDesc δ}

lemma Marked.bind {x : Except String (List TypeLayout)} {y : Except String (List Nat)}
    {f : List TypeLayout → Except String (List TypeLayout)} {g : List Nat → Except String (List Nat)}
    (h : Marked schema x y)
    (next : ∀ layouts laid, Marks schema layouts laid → Marked schema (f layouts) (g laid)) :
    Marked schema (x >>= f) (y >>= g) := by
  cases x with
  | error message =>
    cases y with
    | error message' => exact h
    | ok laid => exact h.elim
  | ok layouts =>
    cases y with
    | error message' => exact h.elim
    | ok laid => exact next layouts laid h

lemma layoutNested_marked {layout : List TypeLayout → Nat → Except String (List TypeLayout)}
    {layout' : List Nat → Nat → Except String (List Nat)} {type : Text}
    (agree : ∀ layouts laid i, Marks schema layouts laid →
      Marked schema (layout layouts i) (layout' laid i)) :
    ∀ {columns : List (ColumnDesc δ)} {layouts : List TypeLayout} {laid : List Nat},
      Marks schema layouts laid →
      Marked schema (layoutNested schema layout type layouts columns)
        (layoutColumns schema layout' type laid columns) := by
  intro columns
  induction columns with
  | nil => exact fun marks => marks
  | cons column columns ih =>
    intro layouts laid marks
    unfold layoutNested layoutColumns
    split
    · cases schema.structs.findIdx? fun desc => some desc.name = column.structType with
      | none => rfl
      | some dependency => exact (agree layouts laid dependency marks).bind fun _ _ => ih
    · exact ih marks

lemma Marks.mem_iff {layouts : List TypeLayout} {laid : List Nat} {index : Nat} {layout : TypeLayout}
    (marks : Marks schema layouts laid) (hl : layouts[index]? = some layout) :
    index ∈ laid ↔ 0 < layout.extent.size := by
  rw [marks.laid, hl]
  exact ⟨fun ⟨_, he, pos⟩ => Option.some.inj he ▸ pos, fun pos => ⟨layout, rfl, pos⟩⟩

lemma Marks.exists_layout {layouts : List TypeLayout} {laid : List Nat} {index : Nat}
    {desc : StructDesc δ} (marks : Marks schema layouts laid)
    (hd : schema.structs[index]? = some desc) : ∃ layout, layouts[index]? = some layout := by
  have hlt := (List.getElem?_eq_some_iff.mp hd).1
  rw [← marks.length] at hlt
  exact ⟨_, List.getElem?_eq_getElem hlt⟩

lemma Marks.not_mem {layouts : List TypeLayout} {laid : List Nat} {index : Nat}
    (marks : Marks schema layouts laid) (hd : schema.structs[index]? = none) : index ∉ laid := by
  rw [marks.laid]
  rintro ⟨layout, hl, _⟩
  have hlt := (List.getElem?_eq_some_iff.mp hl).1
  rw [marks.length] at hlt
  exact absurd (List.getElem?_eq_none_iff.mp hd) (not_le.mpr hlt)

lemma Marks.set {layouts : List TypeLayout} {laid : List Nat} {index : Nat} {desc : StructDesc δ}
    {layout : TypeLayout} (marks : Marks schema layouts laid)
    (hd : schema.structs[index]? = some desc) (pos : 0 < layout.extent.size) :
    Marks schema (layouts.set index layout) (index :: laid) := by
  have hlt := (List.getElem?_eq_some_iff.mp hd).1
  rw [← marks.length] at hlt
  refine ⟨List.length_set.trans marks.length, fun i => ?_⟩
  rw [List.getElem?_set, List.mem_cons]
  split
  · rename_i he
    exact iff_of_true (.inl he.symm) ⟨layout, rfl, pos⟩
  · rename_i hne
    rw [← marks.laid]
    exact or_iff_right fun he => hne he.symm

lemma layoutType_marked : ∀ {rest : Nat} {layouts : List TypeLayout} {laid : List Nat} {index : Nat},
    Marks schema layouts laid →
    Marked schema (layoutType schema rest layouts index) (layoutStruct schema rest laid index) := by
  intro rest
  induction rest with
  | zero =>
    intro layouts laid index marks
    unfold layoutType layoutStruct
    cases hd : schema.structs[index]? with
    | none =>
      rw [if_neg (marks.not_mem hd)]
      rfl
    | some desc =>
      obtain ⟨layout, hl⟩ := marks.exists_layout hd
      simp only [hl, marks.mem_iff hl]
      split
      · exact marks
      · rfl
  | succ rest ih =>
    intro layouts laid index marks
    unfold layoutType layoutStruct
    cases hd : schema.structs[index]? with
    | none =>
      rw [if_neg (marks.not_mem hd)]
      rfl
    | some desc =>
      obtain ⟨layout, hl⟩ := marks.exists_layout hd
      simp only [hl, marks.mem_iff hl]
      split
      · exact marks
      · have nested : Marked schema
            (layoutNested schema (layoutType schema rest) desc.name layouts desc.columns)
            (layoutColumns schema (layoutStruct schema rest) desc.name laid desc.columns) := by
          apply layoutNested_marked _ marks
          exact fun _ _ _ marks => ih marks
        exact nested.bind fun layouts₁ laid₁ marks₁ => marks₁.set hd recordExtent_pos

lemma layoutTypes_marked : ∀ {indices : List Nat} {layouts : List TypeLayout} {laid : List Nat},
    Marks schema layouts laid →
    Marked schema (layoutTypes schema layouts indices) (layoutStructs schema laid indices) := by
  intro indices
  induction indices with
  | nil => exact fun marks => marks
  | cons index indices ih =>
    intro layouts laid marks
    exact (layoutType_marked marks).bind fun _ _ => ih

lemma marks_init : Marks schema (schema.structs.map fun _ => ⟨⟨0, 0⟩, []⟩) [] := by
  refine ⟨List.length_map _, fun i => iff_of_false List.not_mem_nil ?_⟩
  rintro ⟨layout, hl, pos⟩
  rw [List.getElem?_map] at hl
  obtain ⟨_, _, rfl⟩ := Option.map_eq_some_iff.mp hl
  exact absurd pos (Nat.lt_irrefl 0)

lemma layoutSchema_isOk : (∃ layout, layoutSchema schema = .ok layout) ↔
    ∃ laid, layoutStructs schema [] (List.range schema.structs.length) = .ok laid := by
  have marked : Marked schema (layoutTypes schema (schema.structs.map fun _ => ⟨⟨0, 0⟩, []⟩)
      (List.range schema.structs.length))
      (layoutStructs schema [] (List.range schema.structs.length)) :=
    layoutTypes_marked marks_init
  unfold layoutSchema
  cases ht : layoutTypes schema (schema.structs.map fun _ => ⟨⟨0, 0⟩, []⟩)
      (List.range schema.structs.length) with
  | error message =>
    cases hs : layoutStructs schema [] (List.range schema.structs.length) with
    | error message' => exact iff_of_false (fun ⟨_, h⟩ => nomatch h) fun ⟨_, h⟩ => nomatch h
    | ok laid =>
      rw [ht, hs] at marked
      exact marked.elim
  | ok layouts =>
    cases hs : layoutStructs schema [] (List.range schema.structs.length) with
    | error message =>
      rw [ht, hs] at marked
      exact marked.elim
    | ok laid => exact iff_of_true ⟨_, rfl⟩ ⟨laid, rfl⟩

/-- The struct type `a` has a column of the struct type `b`. -/
def References (schema : SchemaDesc δ) (a b : Text) : Prop :=
  ∃ desc ∈ schema.structs, desc.name = a ∧
    ∃ column ∈ desc.columns, column.type = .struct ∧ column.structType = some b

structure Closed (schema : SchemaDesc δ) : Prop where
  distinct : ∀ (i j : Nat) (d d' : StructDesc δ), schema.structs[i]? = some d →
    schema.structs[j]? = some d' → d.name = d'.name → i = j
  sound : ∀ desc ∈ schema.structs, ∀ column ∈ desc.columns, column.Sound schema

lemma Closed.dependency (closed : Closed schema) {desc : StructDesc δ} {column : ColumnDesc δ}
    (hd : desc ∈ schema.structs) (hc : column ∈ desc.columns) (hs : column.type = .struct) :
    ∃ i nested, schema.structs.findIdx? (fun d => some d.name = column.structType) = some i ∧
      schema.structs[i]? = some nested ∧ References schema desc.name nested.name := by
  have sound := closed.sound desc hd column hc
  obtain ⟨nested, found⟩ := Option.isSome_iff_exists.mp (sound.struct hs).2
  obtain ⟨name, hname⟩ := Option.isSome_iff_exists.mp (sound.struct hs).1
  have hnested : nested.name = name := by
    unfold SchemaDesc.structOf SchemaDesc.findStruct at found
    split at found
    · cases found
    · have hp := List.find?_some found
      simpa [hname] using hp
  cases hi : schema.structs.findIdx? fun d => some d.name = column.structType with
  | none =>
    have none := List.findIdx?_eq_none_iff.mp hi nested (SchemaDesc.mem_of_structOf found)
    simp [hname, hnested] at none
  | some i =>
    refine ⟨i, nested, rfl, (structOf_of_findIdx sound hs hi).trans found, desc, hd, rfl, column, hc,
      hs, ?_⟩
    rw [hname, hnested]

structure Leads (schema : SchemaDesc δ) (way : List Nat) (index : Nat) : Prop where
  nodup : way.Nodup
  above : ∀ i ∈ way, ∃ d d', schema.structs[i]? = some d ∧ schema.structs[index]? = some d' ∧
    Relation.TransGen (References schema) d.name d'.name

lemma Leads.not_mem (acyclic : ¬ Circular (References schema)) {way : List Nat} {index : Nat}
    (leads : Leads schema way index) : index ∉ way := by
  intro hm
  obtain ⟨d, d', hd, hd', circle⟩ := leads.above index hm
  cases hd.symm.trans hd'
  exact acyclic ⟨d.name, circle⟩

lemma Leads.length_lt (acyclic : ¬ Circular (References schema)) {way : List Nat} {index : Nat}
    (leads : Leads schema way index) (hi : index < schema.structs.length) :
    way.length < schema.structs.length := by
  have nodup : (index :: way).Nodup := List.nodup_cons.mpr ⟨leads.not_mem acyclic, leads.nodup⟩
  have sub : index :: way ⊆ List.range schema.structs.length := by
    refine List.cons_subset.mpr ⟨List.mem_range.mpr hi, fun i hm => ?_⟩
    obtain ⟨d, _, hd, _⟩ := leads.above i hm
    exact List.mem_range.mpr (List.getElem?_eq_some_iff.mp hd).1
  have le := (List.subperm_of_subset nodup sub).length_le
  rw [List.length_range] at le
  exact le

lemma Leads.cons (acyclic : ¬ Circular (References schema)) {way : List Nat} {index i : Nat}
    {desc nested : StructDesc δ} (leads : Leads schema way index)
    (hd : schema.structs[index]? = some desc) (hi : schema.structs[i]? = some nested)
    (step : References schema desc.name nested.name) : Leads schema (index :: way) i := by
  refine ⟨List.nodup_cons.mpr ⟨leads.not_mem acyclic, leads.nodup⟩, fun j hj => ?_⟩
  rcases List.mem_cons.mp hj with rfl | hj
  · exact ⟨desc, nested, hd, hi, .single step⟩
  · obtain ⟨d, d', hj, hd', above⟩ := leads.above j hj
    cases hd.symm.trans hd'
    exact ⟨d, nested, hj, hi, above.tail step⟩

lemma layoutColumns_ok {layout : List Nat → Nat → Except String (List Nat)} {type : Text} :
    ∀ {columns : List (ColumnDesc δ)} {laid : List Nat},
      (∀ column ∈ columns, column.type = .struct → ∃ i,
        schema.structs.findIdx? (fun d => some d.name = column.structType) = some i ∧
          ∀ laid, ∃ laid', layout laid i = .ok laid') →
      ∃ laid', layoutColumns schema layout type laid columns = .ok laid' := by
  intro columns
  induction columns with
  | nil => exact fun _ => ⟨_, rfl⟩
  | cons column columns ih =>
    intro laid h
    have rest := fun c hc => h c (List.mem_cons_of_mem column hc)
    unfold layoutColumns
    split
    · rename_i hs
      obtain ⟨i, hi, ok⟩ := h column List.mem_cons_self hs
      obtain ⟨laid₁, h₁⟩ := ok laid
      obtain ⟨laid', h'⟩ := @ih laid₁ rest
      refine ⟨laid', ?_⟩
      simp only [hi, h₁]
      exact h'
    · exact ih rest

lemma layoutStruct_ok (closed : Closed schema) (acyclic : ¬ Circular (References schema)) :
    ∀ {rest : Nat} {way : List Nat} {index : Nat}, Leads schema way index →
      index < schema.structs.length → rest + way.length = schema.structs.length →
      ∀ laid, ∃ laid', layoutStruct schema rest laid index = .ok laid' := by
  intro rest
  induction rest with
  | zero =>
    intro way index leads hi hlength
    have short := leads.length_lt acyclic hi
    exact absurd hlength (by omega)
  | succ rest ih =>
    intro way index leads hi hlength laid
    have hd := List.getElem?_eq_getElem hi
    unfold layoutStruct
    split
    · exact ⟨laid, rfl⟩
    · rw [hd]
      have each : ∀ column ∈ schema.structs[index].columns, column.type = .struct → ∃ i,
          schema.structs.findIdx? (fun d => some d.name = column.structType) = some i ∧
            ∀ laid, ∃ laid', layoutStruct schema rest laid i = .ok laid' := by
        intro column hc hs
        obtain ⟨i, nested, hfind, hn, step⟩ := closed.dependency (List.getElem_mem hi) hc hs
        refine ⟨i, hfind, ih (leads.cons acyclic hd hn step)
          (List.getElem?_eq_some_iff.mp hn).1 ?_⟩
        rw [List.length_cons]
        omega
      obtain ⟨laid', h⟩ : ∃ laid', layoutColumns schema (layoutStruct schema rest)
          schema.structs[index].name laid schema.structs[index].columns = .ok laid' :=
        layoutColumns_ok each
      refine ⟨index :: laid', ?_⟩
      simp only [h]
      rfl

lemma layoutStructs_ok (closed : Closed schema) (acyclic : ¬ Circular (References schema)) :
    ∀ {indices laid : List Nat}, (∀ i ∈ indices, i < schema.structs.length) →
      ∃ laid', layoutStructs schema laid indices = .ok laid' := by
  intro indices
  induction indices with
  | nil => exact fun _ => ⟨_, rfl⟩
  | cons index indices ih =>
    intro laid h
    have start : Leads schema [] index := ⟨List.nodup_nil, nofun⟩
    obtain ⟨laid₁, h₁⟩ := layoutStruct_ok closed acyclic start (h index List.mem_cons_self)
      (Nat.add_zero _) laid
    obtain ⟨laid', h'⟩ := @ih laid₁ fun i hi => h i (List.mem_cons_of_mem _ hi)
    refine ⟨laid', ?_⟩
    unfold layoutStructs
    rw [h₁]
    exact h'

lemma acc_of_nests (closed : Closed schema) : ∀ {depth : Nat} {desc : StructDesc δ},
    desc ∈ schema.structs → Nests schema depth desc.columns →
    Acc (fun b a => References schema a b) desc.name := by
  intro depth
  induction depth with
  | zero =>
    intro desc hd nests
    refine ⟨_, fun b ⟨d, hm, hname, column, hc, hs, _⟩ => ?_⟩
    obtain ⟨i, hi⟩ := List.mem_iff_getElem?.mp hd
    obtain ⟨j, hj⟩ := List.mem_iff_getElem?.mp hm
    obtain rfl := closed.distinct j i d desc hj hi hname
    cases hi.symm.trans hj
    exact absurd hs (nests column hc)
  | succ depth ih =>
    intro desc hd nests
    refine ⟨_, fun b ⟨d, hm, hname, column, hc, hs, hb⟩ => ?_⟩
    obtain ⟨i, hi⟩ := List.mem_iff_getElem?.mp hd
    obtain ⟨j, hj⟩ := List.mem_iff_getElem?.mp hm
    obtain rfl := closed.distinct j i d desc hj hi hname
    cases hi.symm.trans hj
    obtain ⟨nested, found, deeper⟩ := nests column hc hs
    have acc := ih (SchemaDesc.mem_of_structOf found) deeper
    unfold SchemaDesc.structOf SchemaDesc.findStruct at found
    rw [hb, Option.getD_some] at found
    split at found
    · cases found
    · have hp := List.find?_some found
      exact of_decide_eq_true hp ▸ acc

lemma not_rel_of_acc {α : Type} {r : α → α → Prop} {a : α} (acc : Acc r a) : ¬ r a a := by
  induction acc with
  | intro a _ ih => exact fun h => ih a h h

lemma LaidOut.acyclic (closed : Closed schema) {laid : List Nat} (out : LaidOut schema laid)
    (all : List.range schema.structs.length ⊆ laid) : ¬ Circular (References schema) := by
  rintro ⟨a, circle⟩
  obtain ⟨b, ⟨desc, hd, rfl, _⟩, _⟩ := Relation.TransGen.head'_iff.mp circle
  obtain ⟨i, hi⟩ := List.mem_iff_getElem?.mp hd
  have hm := all (List.mem_range.mpr (List.getElem?_eq_some_iff.mp hi).1)
  have acc := (acc_of_nests closed hd (out.nests closed.sound i hm desc hi)).transGen
  exact not_rel_of_acc acc (Relation.transGen_swap.mpr circle)

variable [Double δ]

lemma distinct_of_validateStructs : ∀ {structs earlier : List (StructDesc δ)},
    validateStructs schema earlier structs = .ok () →
    (structs.map (·.name)).Nodup ∧ ∀ desc ∈ structs, ∀ other ∈ earlier, other.name ≠ desc.name := by
  intro structs
  induction structs with
  | nil => exact fun _ => ⟨List.nodup_nil, nofun⟩
  | cons desc structs ih =>
    intro earlier h
    obtain ⟨_, hrules, h⟩ := bind_ok h
    obtain ⟨_, -, hrest⟩ := bind_ok h
    obtain ⟨nodup, apart⟩ := ih hrest
    have hrules := require_ok.mp hrules
    simp only [List.forall_mem_cons, List.not_mem_nil, false_implies, implies_true, and_true,
      Bool.not_eq_true', List.any_eq_false, decide_eq_true_eq] at hrules
    refine ⟨List.nodup_cons.mpr ⟨fun hm => ?_, nodup⟩, fun d hd other ho => ?_⟩
    · obtain ⟨d, hd, he⟩ := List.mem_map.mp hm
      exact apart d hd desc (List.mem_append_right _ (List.mem_singleton_self desc)) he.symm
    · rcases List.mem_cons.mp hd with rfl | hd
      · exact hrules.2.2 other ho
      · exact apart d hd other (List.mem_append_left _ ho)

lemma closed_of_validateSchema (valid : validateSchema schema = .ok ()) : Closed schema := by
  obtain ⟨_, -, h⟩ := bind_ok valid
  cases hk : schema.columns[schema.keyColumn]? with
  | none => simp [hk, bind, Except.bind] at h
  | some key =>
    simp only [hk] at h
    obtain ⟨_, -, h⟩ := bind_ok h
    obtain ⟨_, hstructs, -⟩ := bind_ok h
    refine ⟨fun i j d d' hi hj he => ?_, sound_of_validateStructs hstructs⟩
    have nodup := (distinct_of_validateStructs hstructs).1
    have named : ∀ {k : Nat} {d : StructDesc δ}, schema.structs[k]? = some d →
        (schema.structs.map (·.name))[k]? = some d.name := by
      intro k d hk
      rw [List.getElem?_map, hk]
      rfl
    have hlt := (List.getElem?_eq_some_iff.mp (named hi)).1
    exact (List.getElem?_inj hlt nodup).mp ((named hi).trans (he ▸ (named hj).symm))

lemma layoutSchema_isOk_iff (valid : validateSchema schema = .ok ()) :
    (∃ layout, layoutSchema schema = .ok layout) ↔ ¬ Circular (References schema) := by
  have closed := closed_of_validateSchema valid
  rw [layoutSchema_isOk]
  constructor
  · rintro ⟨laid, h⟩
    obtain ⟨out, -, all⟩ := layoutStructs_laidOut h .nil
    exact out.acyclic closed all
  · exact fun acyclic => layoutStructs_ok closed acyclic fun i hi => List.mem_range.mp hi

namespace SchemaRegistry

variable {registry : SchemaRegistry δ} {desc : SchemaDesc δ} {wantsError : Bool}

omit [Double δ] in
lemma internError_spec (registry : SchemaRegistry δ) (wantsError : Bool) (message : String) :
    (registry.internError wantsError message).schemas = registry.schemas ∧
      (registry.internError wantsError message).owned = registry.owned ∧
      registry.errorText <+: (registry.internError wantsError message).errorText ∧
      (wantsError = false → registry.internError wantsError message = registry) := by
  unfold internError
  split
  · rename_i wanted
    exact ⟨rfl, rfl, List.prefix_append .., fun h => absurd wanted.1 (by rw [h]; decide)⟩
  · exact ⟨rfl, rfl, List.prefix_refl _, fun _ => rfl⟩

end SchemaRegistry

/-- The checks of the columns, which is all that `validate_column_set` looks at. -/
def ColumnsPass (desc : SchemaDesc δ) : Prop :=
  (∀ type ∈ desc.structs, validateColumnSet desc [] type.columns = .ok ()) ∧
    validateColumnSet desc [] desc.columns = .ok ()

def ReachesCircle (desc : SchemaDesc δ) : Prop :=
  ∃ column ∈ desc.columns, column.type = .struct ∧ ∃ a b, column.structType = some a ∧
    Relation.ReflTransGen (References desc) a b ∧ Relation.TransGen (References desc) b b

def bareColumn (name : Text) (type : ColumnType) (structType : Option Text) : ColumnDesc Int :=
  ⟨name, type, 0, 0, false, false, false, 0, 0, false, none, structType, none, none⟩

def numbered (structs : List (StructDesc Int)) : SchemaDesc Int where
  name := ['n']
  columns := [bareColumn ['i', 'd'] .int none]
  structs := structs
  enums := []
  keyColumn := 0
  keyIsInt := true

def ring : StructDesc Int := ⟨['r'], [bareColumn ['x'] .struct (some ['r'])]⟩

lemma not_reachesCircle_numbered (structs : List (StructDesc Int)) :
    ¬ ReachesCircle (numbered structs) := by
  rintro ⟨column, hc, hs, _⟩
  cases List.mem_singleton.mp hc
  cases hs

end PulseEngine.Datatable
