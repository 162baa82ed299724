import PulseEngine.Library.Fallible
import PulseEngine.Tablegen.Extents

/-!
# The layouts agree

The engine lays out the struct types of a table that is emitted one after the other, each after those
it contains, and comes to the extents that `compute_layouts` wrote down.
-/

namespace PulseEngine.Tablegen

open Datalist Datatable PulseEngine.Library

variable {δ : Type} [Double δ] {lib : Library δ} {table schema nested : Schema δ}
  {field : Field δ} {fields : List (Field δ)} {layouts layouts' : List TypeLayout}
  {depth rest index : Nat}

omit [Double δ] in
def structsOf (lib : Library δ) (table : Schema δ) : List (Schema δ) :=
  (structOrder lib table).filterMap lib.find

omit [Double δ] in
lemma mem_structsOf (hs : schema ∈ structsOf lib table) :
    schema ∈ scopes lib table ∧ schema ∈ lib.schemas ∧ schema.kind = .struct ∧
      lib.find schema.name = some schema := by
  obtain ⟨name, hn, hfind⟩ := List.mem_filterMap.mp hs
  obtain rfl := Library.name_of_find hfind
  refine ⟨mem_scopes.mpr (.inr ⟨_, hn, hfind⟩), Library.mem_of_find hfind, ?_, hfind⟩
  -- the names of structs are closed under what is collected
  let all := (lib.schemas.map (·.name)).filter fun name => (lib.find name).any (·.kind = .struct)
  have hnames : ∀ fields : List (Field δ), structNames lib fields ⊆ all := by
    intro fields name hn
    obtain ⟨field, -, hname⟩ := List.mem_filterMap.mp hn
    obtain ⟨nested, hs, rfl⟩ := Option.map_eq_some_iff.mp hname
    obtain ⟨hm, hk⟩ := Library.mem_of_structOf hs
    refine List.mem_filter.mpr ⟨List.mem_map_of_mem hm, ?_⟩
    rw [Library.find_name_of_structOf hs]
    simpa using hk
  have hsucc : ∀ name ∈ all, nestedNames lib name ⊆ all := by
    intro name _
    unfold nestedNames
    cases lib.find name with
    | none => exact List.nil_subset _
    | some schema => exact hnames schema.fields
  have hfuel : (left all []).length < lib.schemas.length + 1 := by
    have hle : (left all []).length ≤ all.length := List.length_filter_le _ _
    have hle' : all.length ≤ (lib.schemas.map (·.name)).length := List.length_filter_le _ _
    rw [List.length_map] at hle'
    omega
  have hwithin := (collected_collect hsucc (List.nil_subset _) (hnames table.fields) hfuel).within hn
  have hany := (List.mem_filter.mp hwithin).2
  rw [hfind] at hany
  simpa using hany

lemma find_zip {α β : Type*} (p : α → Bool) : ∀ {as : List α} {bs : List β},
    as.length = bs.length → ((as.zip bs).find? fun entry => p entry.1).map (·.2) =
      (as.findIdx? p).bind fun i => bs[i]? := by
  intro as
  induction as with
  | nil => exact fun _ => rfl
  | cons a as ih =>
    intro bs hlen
    cases bs with
    | nil => exact nomatch hlen
    | cons b bs =>
      rw [List.zip_cons_cons, List.find?_cons, List.findIdx?_cons]
      cases p a with
      | true => rfl
      | false =>
        dsimp only
        rw [ih (Nat.succ_injective hlen)]
        cases as.findIdx? p with
        | none => rfl
        | some i => rfl

lemma index_of_structOf (ht : table ∈ lib.schemas) (hs : schema ∈ scopes lib table)
    (hf : field ∈ schema.fields) (hn : lib.structOf field = some nested) :
    ∃ i : Nat, (structsOf lib table)[i]? = some nested ∧
      (emitSchema lib table).structs.findIdx? (fun desc => desc.name = nested.name) = some i ∧
        nested.name ≠ [] := by
  have hdesc := structOf_emitColumn ht hs hf hn
  unfold SchemaDesc.structOf SchemaDesc.findStruct at hdesc
  have htype : (emitColumn lib field).structType.getD [] = nested.name := by
    rw [emitColumn, hn]
    rfl
  rw [htype] at hdesc
  split at hdesc
  next => cases hdesc
  next hne =>
    obtain ⟨-, i, hlt, hi, hfirst⟩ := List.find?_eq_some_iff_getElem.mp hdesc
    have hlen : (emitSchema lib table).structs.length = (structsOf lib table).length :=
      List.length_map _
    refine ⟨i, ?_, List.findIdx?_eq_some_iff_getElem.mpr ⟨hlt, ?_, ?_⟩, hne⟩
    · have hget : (structsOf lib table)[i]? = some ((structsOf lib table)[i]) :=
        List.getElem?_eq_getElem (hlen ▸ hlt)
      have hname : ((structsOf lib table)[i]).name = nested.name := by
        have hdesc := congrArg StructDesc.name hi
        simp only [emitSchema, List.getElem_map, emitStruct] at hdesc
        exact hdesc
      have hfind := (mem_structsOf (List.mem_of_getElem? hget)).2.2.2
      rw [hname, Library.find_name_of_structOf hn] at hfind
      rw [hget, ← Option.some.inj hfind]
    · rw [hi]
      simp [emitStruct]
    · exact fun j hj => by simpa using hfirst j hj

structure LaidRight (lib : Library δ) (table : Schema δ) (layouts : List TypeLayout) : Prop where
  length : layouts.length = (structsOf lib table).length
  right : ∀ (i : Nat) schema layout, (structsOf lib table)[i]? = some schema →
    layouts[i]? = some layout → layout.extent.size = 0 ∨ layout = lib.layout schema

def Keeps (layouts layouts' : List TypeLayout) : Prop :=
  ∀ (i : Nat) layout, layouts[i]? = some layout → 0 < layout.extent.size →
    layouts'[i]? = some layout

omit [Double δ] in
lemma layout_pos (lib : Library δ) (schema : Schema δ) : 0 < (lib.layout schema).extent.size :=
  recordExtent_pos

lemma typeLayout_emitted (right : LaidRight lib table layouts) {i : Nat}
    (hi : (emitSchema lib table).structs.findIdx? (fun desc => desc.name = nested.name) = some i)
    (hne : nested.name ≠ []) :
    typeLayout (emitSchema lib table) layouts nested.name = layouts[i]? := by
  have hlen : (emitSchema lib table).structs.length = layouts.length := by
    rw [right.length]
    exact List.length_map _
  rw [typeLayout, if_neg hne, find_zip (fun desc : StructDesc δ => desc.name = nested.name) hlen, hi]
  rfl

lemma columnExtent_emitted (hlib : lib.Sound) (ht : table ∈ lib.schemas)
    (hs : schema ∈ scopes lib table) (hk : schema.kind ≠ .enum) (hf : field ∈ schema.fields)
    (right : LaidRight lib table layouts)
    (laid : ∀ nested, lib.structOf field = some nested →
      ∀ i : Nat, (structsOf lib table)[i]? = some nested →
        (emitSchema lib table).structs.findIdx? (fun desc => desc.name = nested.name) = some i →
          layouts[i]? = some (lib.layout nested)) :
    columnExtent (emitSchema lib table) layouts (emitColumn lib field) =
      fieldExtent lib lib.extent field := by
  have hm := mem_of_mem_scopes ht hs
  have sound := hlib.fields schema hm hk field hf
  have htype : (emitColumn lib field).type = emittedType lib field := rfl
  unfold columnExtent
  rw [htype, sound.emittedType, fieldExtent]
  cases hft : field.type with
  | int | float | bool | ref => rfl
  | string =>
    -- a whitelist takes as much as a string
    by_cases hv : field.values = []
    · simp only [hv, if_true]
      rfl
    · simp only [hv, if_false]
      rfl
  | named name =>
    cases hn : lib.structOf field with
    | none => rfl
    | some nested =>
      obtain ⟨i, hi, hidx, hne⟩ := index_of_structOf ht hs hf hn
      have hname : (emitColumn lib field).structType.getD [] = nested.name := by
        rw [emitColumn, hn]
        rfl
      have hmem := Library.mem_of_structOf hn
      dsimp only [Option.isSome_some, if_true]
      rw [hname, typeLayout_emitted right hidx hne, laid nested hn i hi hidx,
        hlib.extent_eq hmem.1 (by simp [hmem.2])]
      rfl

lemma Keeps.refl (layouts : List TypeLayout) : Keeps layouts layouts := fun _ _ h _ => h

lemma Keeps.trans {layouts₁ layouts₂ layouts₃ : List TypeLayout} (h : Keeps layouts₁ layouts₂)
    (h' : Keeps layouts₂ layouts₃) : Keeps layouts₁ layouts₃ :=
  fun i layout hl hpos => h' i layout (h i layout hl hpos) hpos

omit [Double δ] in
lemma Keeps.laid (h : Keeps layouts layouts') {i : Nat}
    (hl : layouts[i]? = some (lib.layout schema)) : layouts'[i]? = some (lib.layout schema) :=
  h i _ hl (layout_pos lib schema)

structure Done (lib : Library δ) (table : Schema δ) (layouts : List TypeLayout)
    (result : Except String (List TypeLayout)) (layouts' : List TypeLayout) : Prop where
  ok : result = .ok layouts'
  right : LaidRight lib table layouts'
  keeps : Keeps layouts layouts'

lemma layoutNested_right {layout : List TypeLayout → Nat → Except String (List TypeLayout)}
    (type : Text) (ht : table ∈ lib.schemas) (hs : schema ∈ scopes lib table)
    (hlayout : ∀ field ∈ schema.fields, ∀ nested, lib.structOf field = some nested →
      ∀ layouts (i : Nat), LaidRight lib table layouts → (structsOf lib table)[i]? = some nested →
        ∃ layouts', Done lib table layouts (layout layouts i) layouts' ∧
          layouts'[i]? = some (lib.layout nested)) :
    ∀ (fields : List (Field δ)) (layouts : List TypeLayout), fields ⊆ schema.fields →
      LaidRight lib table layouts → ∃ layouts', Done lib table layouts
        (layoutNested (emitSchema lib table) layout type layouts (fields.map (emitColumn lib)))
          layouts' ∧
        ∀ field ∈ fields, ∀ nested, lib.structOf field = some nested →
          ∀ i : Nat, (emitSchema lib table).structs.findIdx? (fun desc => desc.name = nested.name) =
            some i → layouts'[i]? = some (lib.layout nested) := by
  intro fields
  induction fields with
  | nil => exact fun layouts _ right => ⟨layouts, ⟨rfl, right, .refl _⟩, nofun⟩
  | cons field fields ih =>
    intro layouts hsub right
    obtain ⟨hf, hsub⟩ := List.cons_subset.mp hsub
    rw [List.map_cons, layoutNested]
    cases hn : lib.structOf field with
    | none =>
      have htype : (emitColumn lib field).type ≠ .struct := by
        intro htype
        have hsome := emittedType_eq_struct.mp htype
        rw [hn] at hsome
        exact nomatch hsome
      rw [if_neg htype]
      obtain ⟨layouts', hdone, hlaid⟩ := ih layouts hsub right
      refine ⟨layouts', hdone, fun f hf nested hn' => ?_⟩
      rcases List.mem_cons.mp hf with rfl | hf
      · exact nomatch hn.symm.trans hn'
      · exact hlaid f hf nested hn'
    | some nested =>
      have htype : (emitColumn lib field).type = .struct := emittedType_eq_struct.mpr (by simp [hn])
      have hstruct : (emitColumn lib field).structType = some nested.name := by
        rw [emitColumn, hn]
        rfl
      obtain ⟨i, hi, hidx, -⟩ := index_of_structOf ht hs hf hn
      obtain ⟨layouts₁, hdone₁, hlaid₁⟩ := hlayout field hf nested hn layouts i right hi
      obtain ⟨layouts', hdone, hlaid⟩ := ih layouts₁ hsub hdone₁.right
      rw [if_pos htype, hstruct]
      simp only [Option.some.injEq]
      rw [hidx]
      refine ⟨layouts', ⟨?_, hdone.right, hdone₁.keeps.trans hdone.keeps⟩, fun f hf other ho => ?_⟩
      · dsimp only
        rw [hdone₁.ok]
        exact hdone.ok
      · rcases List.mem_cons.mp hf with rfl | hf
        · obtain rfl : nested = other := Option.some.inj (hn.symm.trans ho)
          intro j hj
          obtain rfl : i = j := Option.some.inj (hidx.symm.trans hj)
          exact hdone.keeps.laid hlaid₁
        · exact hlaid f hf other ho

/-- **`layout_struct`.** A struct type that nests less deep than the depth that is left is laid
out. -/
lemma layoutType_right (hlib : lib.Sound) (ht : table ∈ lib.schemas)
    (hi : (structsOf lib table)[index]? = some schema)
    (hnests : Nests (emitSchema lib table) depth (emitStruct lib schema).columns)
    (hlt : depth < rest) (right : LaidRight lib table layouts) :
    ∃ layouts', Done lib table layouts (layoutType (emitSchema lib table) rest layouts index)
      layouts' ∧ layouts'[index]? = some (lib.layout schema) := by
  induction rest generalizing depth layouts index schema with
  | zero => exact absurd hlt (Nat.not_lt_zero _)
  | succ rest ih =>
    obtain ⟨hs, hm, hk, -⟩ := mem_structsOf (List.mem_of_getElem? hi)
    have hkind : schema.kind ≠ .enum := by simp [hk]
    have hdesc : (emitSchema lib table).structs[index]? = some (emitStruct lib schema) := by
      have := congrArg (Option.map (emitStruct lib)) hi
      rwa [← List.getElem?_map] at this
    have hltl : index < layouts.length := by
      rw [right.length]
      exact (List.getElem?_eq_some_iff.mp hi).1
    obtain ⟨layout, hl⟩ : ∃ layout, layouts[index]? = some layout :=
      ⟨_, List.getElem?_eq_getElem hltl⟩
    rw [layoutType, hdesc, hl]
    dsimp only
    split
    next hpos =>
      refine ⟨layouts, ⟨rfl, right, .refl _⟩, ?_⟩
      rcases right.right index schema layout hi hl with hzero | rfl
      · exact absurd hzero hpos.ne'
      · exact hl
    next hpos =>
      have hlayout : ∀ field ∈ schema.fields, ∀ nested, lib.structOf field = some nested →
          ∀ layouts (i : Nat), LaidRight lib table layouts →
            (structsOf lib table)[i]? = some nested →
              ∃ layouts', Done lib table layouts
                (layoutType (emitSchema lib table) rest layouts i) layouts' ∧
                layouts'[i]? = some (lib.layout nested) := by
        intro field hf nested hn layouts i right hi
        have hcolumn : emitColumn lib field ∈ (emitStruct lib schema).columns :=
          List.mem_map_of_mem hf
        have htype : (emitColumn lib field).type = .struct :=
          emittedType_eq_struct.mpr (by simp [hn])
        cases depth with
        | zero => exact absurd htype (hnests _ hcolumn)
        | succ depth =>
          obtain ⟨desc, hdesc, hbelow⟩ := hnests _ hcolumn htype
          obtain rfl := Option.some.inj ((structOf_emitColumn ht hs hf hn).symm.trans hdesc)
          exact ih hi hbelow (Nat.lt_of_succ_lt_succ hlt) right
      obtain ⟨layouts₁, hdone, hlaid⟩ := layoutNested_right schema.name ht hs hlayout
        schema.fields layouts (List.Subset.refl _) right
      have hextents : columnExtents (emitSchema lib table) layouts₁ (emitStruct lib schema).columns =
          lib.extents schema := by
        rw [columnExtents, emitStruct, List.map_map]
        refine List.map_congr_left fun field hf => ?_
        exact columnExtent_emitted hlib ht hs hkind hf hdone.right
          fun nested hn i _ hidx => hlaid field hf nested hn i hidx
      have hlen : index < layouts₁.length := by
        rw [hdone.right.length, ← right.length]
        exact hltl
      refine ⟨layouts₁.set index (lib.layout schema), ⟨?_, ⟨?_, ?_⟩, ?_⟩, ?_⟩
      · have hok := hdone.ok
        dsimp only [emitStruct] at hok hextents ⊢
        rw [hok]
        change Except.ok _ = Except.ok _
        rw [hextents]
        rfl
      · rw [List.length_set, hdone.right.length]
      · intro j other layout' hj hl'
        rw [List.getElem?_set] at hl'
        split at hl'
        next heq =>
          subst heq
          obtain rfl : schema = other := Option.some.inj (hi.symm.trans hj)
          exact .inr (Option.some.inj hl').symm
        next => exact hdone.right.right j other layout' hj hl'
      · intro j layout' hl' hpos'
        have hj := hdone.keeps j layout' hl' hpos'
        have hne : index ≠ j := by
          rintro rfl
          exact hpos (Option.some.inj (hl.symm.trans hl') ▸ hpos')
        rw [List.getElem?_set, if_neg hne]
        exact hj
      · rw [List.getElem?_set, if_pos rfl, if_pos hlen]

lemma nests_structsOf (hlib : lib.Sound) (ht : table ∈ lib.schemas)
    (hs : schema ∈ structsOf lib table) :
    ∃ depth < (emitSchema lib table).structs.length,
      Nests (emitSchema lib table) depth (emitStruct lib schema).columns := by
  classical
  obtain ⟨hscope, hm, hk, -⟩ := mem_structsOf hs
  have hex : ∃ depth, Nests (emitSchema lib table) depth (emitStruct lib schema).columns :=
    ⟨_, nests_emit ht hscope (hlib.nests hm (by simp [hk]))⟩
  have hexact : NestsExactly (emitSchema lib table) (Nat.find hex) (emitStruct lib schema) :=
    ⟨Nat.find_spec hex, fun depth hlt => Nat.find_min hex hlt⟩
  exact ⟨_, hexact.lt (List.mem_map_of_mem hs), hexact.1⟩

lemma layoutTypes_right (hlib : lib.Sound) (ht : table ∈ lib.schemas) (indices : List Nat)
    (hindices : ∀ index ∈ indices, index < (structsOf lib table).length)
    (right : LaidRight lib table layouts) :
    ∃ layouts', Done lib table layouts (layoutTypes (emitSchema lib table) layouts indices)
        layouts' ∧
      ∀ index ∈ indices, ∀ schema, (structsOf lib table)[index]? = some schema →
        layouts'[index]? = some (lib.layout schema) := by
  induction indices generalizing layouts with
  | nil => exact ⟨layouts, ⟨rfl, right, .refl _⟩, nofun⟩
  | cons index indices ih =>
    have hi := List.getElem?_eq_getElem (hindices index List.mem_cons_self)
    obtain ⟨depth, hlt, hnests⟩ := nests_structsOf hlib ht (List.mem_of_getElem? hi)
    obtain ⟨layouts₁, hdone₁, hlaid₁⟩ := layoutType_right hlib ht hi hnests hlt right
    obtain ⟨layouts', hdone, hlaid⟩ :=
      ih (fun i hi => hindices i (List.mem_cons_of_mem _ hi)) hdone₁.right
    refine ⟨layouts', ⟨?_, hdone.right, hdone₁.keeps.trans hdone.keeps⟩, fun i hmem schema hs => ?_⟩
    · rw [layoutTypes, hdone₁.ok]
      exact hdone.ok
    · rcases List.mem_cons.mp hmem with rfl | hmem
      · obtain rfl := Option.some.inj (hi.symm.trans hs)
        exact hdone.keeps.laid hlaid₁
      · exact hlaid i hmem schema hs

def Library.schemaLayout (lib : Library δ) (table : Schema δ) : SchemaLayout :=
  ⟨(structsOf lib table).map lib.layout, (lib.layout table).offsets, (lib.layout table).extent.align⟩

lemma columnExtents_table (hlib : lib.Sound) (ht : table ∈ lib.schemas)
    (hk : table.kind ≠ .enum) :
    columnExtents (emitSchema lib table) ((structsOf lib table).map lib.layout)
      (emitSchema lib table).columns = lib.extents table := by
  have hscope : table ∈ scopes lib table := mem_scopes.mpr (.inl rfl)
  have right : LaidRight lib table ((structsOf lib table).map lib.layout) := by
    refine ⟨List.length_map _, fun i schema layout hi hl => .inr ?_⟩
    rw [List.getElem?_map, hi] at hl
    exact (Option.some.inj hl).symm
  rw [columnExtents, emitSchema, List.map_map]
  refine List.map_congr_left fun field hf => ?_
  refine columnExtent_emitted hlib ht hscope hk hf right fun nested _ i hi _ => ?_
  rw [List.getElem?_map, hi]
  rfl

lemma layoutSchema_right (hlib : lib.Sound) (ht : table ∈ lib.schemas) (hk : table.kind ≠ .enum) :
    layoutSchema (emitSchema lib table) = .ok (lib.schemaLayout table) := by
  have hlen : (emitSchema lib table).structs.length = (structsOf lib table).length :=
    List.length_map _
  have hinit : LaidRight lib table ((emitSchema lib table).structs.map fun _ => ⟨⟨0, 0⟩, []⟩) := by
    refine ⟨(List.length_map _).trans hlen, fun i schema layout _ hl => .inl ?_⟩
    obtain ⟨_, -, rfl⟩ := Option.map_eq_some_iff.mp ((List.getElem?_map ..).symm.trans hl)
    rfl
  obtain ⟨layouts, hdone, hlaid⟩ := layoutTypes_right hlib ht
    (List.range (emitSchema lib table).structs.length)
    (fun index hm => hlen ▸ List.mem_range.mp hm) hinit
  have hlayouts : layouts = (structsOf lib table).map lib.layout := by
    refine List.ext_getElem? fun i => ?_
    rw [List.getElem?_map]
    cases hi : (structsOf lib table)[i]? with
    | none =>
      rw [List.getElem?_eq_none_iff, ← hdone.right.length] at hi
      exact List.getElem?_eq_none hi
    | some schema =>
      have hlt := (List.getElem?_eq_some_iff.mp hi).1
      exact hlaid i (List.mem_range.mpr (hlen.symm ▸ hlt)) schema hi
  rw [layoutSchema, hdone.ok]
  change Except.ok _ = Except.ok _
  rw [hlayouts, columnExtents_table hlib ht hk]
  rfl

lemma tableRowSize_right (hlib : lib.Sound) (ht : table ∈ lib.schemas) (hk : table.kind ≠ .enum) :
    tableRowSize (emitSchema lib table) (lib.schemaLayout table).structs =
      (lib.layout table).extent.size := by
  rw [tableRowSize, Library.schemaLayout, columnExtents_table hlib ht hk]
  rfl

lemma lookup_of_mem {β : Type} {name : Text} {b : β} : ∀ {entries : List (Text × β)},
    (entries.map (·.1)).Nodup → (name, b) ∈ entries → entries.lookup name = some b := by
  intro entries
  induction entries with
  | nil => exact fun _ hm => absurd hm List.not_mem_nil
  | cons entry entries ih =>
    intro hnodup hm
    obtain ⟨hnot, hnodup⟩ := List.nodup_cons.mp hnodup
    rw [List.lookup_cons]
    rcases List.mem_cons.mp hm with rfl | hm
    · rw [beq_self_eq_true]
    · have hne : (name == entry.1) = false := by
        rw [beq_eq_false_iff_ne]
        rintro rfl
        exact hnot (List.mem_map.mpr ⟨_, hm, rfl⟩)
      rw [hne]
      exact ih hnodup hm

omit [Double δ] in
lemma mapM_lookup {entries : List (Text × Nat)} : ∀ {fields : List (Field δ)} {offsets : List Nat},
    fields.length = offsets.length →
    (∀ p ∈ (fields.map (·.name)).zip offsets, entries.lookup p.1 = some p.2) →
    (fields.mapM fun field => entries.lookup field.name) = some offsets := by
  intro fields
  induction fields with
  | nil =>
    intro offsets hlen _
    obtain rfl := List.length_eq_zero_iff.mp hlen.symm
    rfl
  | cons field fields ih =>
    intro offsets hlen h
    cases offsets with
    | nil => exact nomatch hlen
    | cons offset offsets =>
      rw [List.mapM_cons, h (field.name, offset) List.mem_cons_self,
        ih (Nat.succ_injective hlen) fun p hp => h p (List.mem_cons_of_mem _ hp)]
      rfl

variable {out : LayoutSet}

omit [Double δ] in
lemma emittedLayout_right (loaded : lib.Loaded) (hs : schema ∈ lib.schemas) (right : Right lib out)
    (there : (out.structs.lookup schema.name).isSome) :
    emittedLayout out schema = some (lib.layout schema) := by
  obtain ⟨layout, hl⟩ := Option.isSome_iff_exists.mp there
  obtain ⟨schema', hfind, -, rfl⟩ := right _ _ hl
  obtain rfl : schema = schema' := Option.some.inj ((loaded.find hs).symm.trans hfind)
  have hlen : schema.fields.length = (lib.layout schema).offsets.length := by
    rw [Library.layout, length_offsets, Library.extents, List.length_map]
  have hkeys : ((schema.fields.map (·.name)).zip (lib.layout schema).offsets).map (·.1) =
      schema.fields.map (·.name) :=
    List.map_fst_zip (by rw [List.length_map, hlen])
  have hlookup : (schema.fields.mapM fun field =>
      ((schema.fields.map (·.name)).zip (lib.layout schema).offsets).reverse.lookup field.name) =
        some (lib.layout schema).offsets := by
    refine mapM_lookup hlen fun p hp => lookup_of_mem ?_ (List.mem_reverse.mpr hp)
    rw [List.map_reverse, List.nodup_reverse, hkeys]
    exact loaded.fields schema hs
  rw [emittedLayout, hl]
  dsimp only [Option.bind_eq_bind, Option.bind_some]
  rw [hlookup]
  rfl

omit [Double δ] in
lemma fieldSizeAlign_right (hlib : lib.Sound) (sound : field.Sound lib) (right : Right lib out)
    (there : ∀ schema ∈ lib.schemas, schema.kind = .struct →
      (out.structs.lookup schema.name).isSome) :
    fieldSizeAlign lib out field = some (fieldExtent lib lib.extent field) := by
  unfold fieldSizeAlign fieldExtent
  cases hs : scalarLayout field.type with
  | some extent => rfl
  | none =>
    obtain ⟨named, htype, ⟨hkind, hnone⟩ | ⟨hkind, hn⟩⟩ := sound.typeOf hs
    · rw [htype, hnone]
      dsimp only [Option.bind_eq_bind, Option.bind_some]
      rw [if_pos hkind]
    · obtain ⟨hm, hk⟩ := Library.mem_of_structOf hn
      rw [htype, hn]
      dsimp only [Option.bind_eq_bind, Option.bind_some]
      rw [if_neg (by simp [hkind]), right.extent (Library.find_name_of_structOf hn) (there _ hm hk),
        hlib.extent_eq hm (by simp [hk])]
      rfl

/-- **The layouts agree.** For a library that was loaded and that validates, `compute_layouts` comes
to the end, and for every table the generator finds the layout of the row and of all its structs.
The engine, which registers the descriptor without its fill function, computes the same offsets,
sizes and alignments, and the row size of the library is the one of `table_row_size`. -/
theorem layouts_agree (lib : Library δ) (loaded : lib.Loaded) (valid : validateLibrary lib = []) :
    ∃ out, computeLayouts lib = .ok out ∧ ∀ table ∈ lib.schemas, table.kind = .table →
      ∃ layout, generatedLayout lib out table = some layout ∧
        layoutSchema (emitSchema lib table) = .ok layout ∧
        out.tableRows.lookup table.name =
          some (tableRowSize (emitSchema lib table) layout.structs) ∧
        out.tableAligns.lookup table.name = some layout.align := by
  have hlib := sound_of_validateLibrary valid
  obtain ⟨out, hok, right, hstruct, htable⟩ := computeLayouts_right hlib loaded
  refine ⟨out, hok, fun table ht hk => ?_⟩
  have hkind : table.kind ≠ .enum := by simp [hk]
  obtain ⟨hrow, halign⟩ := htable table ht hk
  refine ⟨lib.schemaLayout table, ?_, layoutSchema_right hlib ht hkind, ?_, halign⟩
  · have hextents : table.fields.mapM (fieldSizeAlign lib out) = some (lib.extents table) :=
      mapM_some fun field hf =>
        fieldSizeAlign_right hlib (hlib.fields table ht hkind field hf) right hstruct
    have hstructs : (structsOf lib table).mapM (emittedLayout out) =
        some ((structsOf lib table).map lib.layout) := by
      refine mapM_some fun schema hs => ?_
      obtain ⟨-, hm, hk, -⟩ := mem_structsOf hs
      exact emittedLayout_right loaded hm right (hstruct schema hm hk)
    rw [generatedLayout, hextents]
    dsimp only [Option.bind_eq_bind, Option.bind_some]
    rw [← structsOf, hstructs]
    dsimp only [Option.bind_some]
    rw [halign]
    rfl
  · rw [tableRowSize_right hlib ht hkind]
    exact hrow

def units : Schema Int where
  name := ['u']
  path := ['u', '.', 's']
  kind := .table
  fields := [⟨['i', 'd'], .string, [], [], true, false, false, false, 0, 0, 0, 0, false, [], []⟩,
    ⟨['p'], .named ['v'], [], [], false, false, false, false, 0, 0, 0, 0, false, [], []⟩,
    ⟨['f'], .bool, [], [], false, false, false, false, 0, 0, 0, 0, false, [], []⟩]
  values := []
  keyIndex := 0

def positions : Schema Int where
  name := ['v']
  path := ['v', '.', 's']
  kind := .struct
  fields := [⟨['a'], .bool, [], [], false, false, false, false, 0, 0, 0, 0, false, [], []⟩,
    ⟨['b'], .int, [], [], false, false, false, false, 0, 0, 0, 0, false, [], []⟩]
  values := []
  keyIndex := 0

def unitLibrary : Library Int where
  schemas := [units, positions]
  typed := by decide

/-- A row of units is 40 bytes, for the generator and for the engine. -/
theorem layouts_agree_units :
    ∃ out, computeLayouts unitLibrary = .ok out ∧
      layoutSchema (emitSchema unitLibrary units) =
        .ok ⟨[⟨⟨16, 8⟩, [0, 8]⟩], [0, 16, 32], 8⟩ ∧
      generatedLayout unitLibrary out units = some ⟨[⟨⟨16, 8⟩, [0, 8]⟩], [0, 16, 32], 8⟩ ∧
      out.tableRows.lookup ['u'] = some 40 := by
  have hlayout : layoutSchema (emitSchema unitLibrary units) =
      .ok ⟨[⟨⟨16, 8⟩, [0, 8]⟩], [0, 16, 32], 8⟩ := by decide +kernel
  obtain ⟨out, hok, hout⟩ := layouts_agree unitLibrary ⟨by decide, by decide⟩ (by decide)
  obtain ⟨layout, hgenerated, hengine, hrow, -⟩ := hout units (by simp [unitLibrary]) rfl
  obtain rfl := Except.ok.inj (hlayout.symm.trans hengine)
  refine ⟨out, hok, hlayout, hgenerated, hrow.trans (congrArg some ?_)⟩
  decide +kernel

end PulseEngine.Tablegen
