import PulseEngine.Library.Splice
import PulseEngine.Loader.ShaderProperties

/-!
# Writes of material properties

The setters of `assets/material.cpp` over the columns that `init_material` makes for the uniform blocks of a
shader. A setter copies as many bytes as its type has to the offset of the property, whatever size was declared.
A copy that does not lie inside of its column has no result here.
-/

namespace PulseEngine.Loader

open Library

def materialSet : UInt32 := 1

structure UboInfo where
  set : UInt32
  binding : UInt32
  size : UInt32
  deriving DecidableEq, Repr

structure ShaderData where
  properties : List ShaderProperty
  uboInfos : List UboInfo
  deriving DecidableEq, Repr

def fillPropertyData (rootSig : RootSignature) (sorted : List ShaderProperty) : ShaderData where
  properties := sorted.map fun p => { p with name := some (p.name.getD "") }
  uboInfos := rootSig.tables.flatMap fun table =>
    table.resources.filterMap fun res =>
      if res.type.isBuffer then some ⟨table.setIndex, res.binding, res.size⟩ else none

def buildShaderPipeline (std : StdSort) (rootSig : RootSignature) (props : List ShaderProperty) :
    Except String ShaderData :=
  if props = [] then .ok (fillPropertyData rootSig [])
  else (validateShaderPropertiesDeclare std rootSig props).map (fillPropertyData rootSig)

/-- `pulse_material_ubo_column_t`. -/
structure UboColumn where
  set : UInt32
  binding : UInt32
  cpuData : List UInt8
  dirty : Bool
  deriving DecidableEq, Repr

/-- `pulse_material_bind_texture_t` and `pulse_material_bind_sampler_t`. -/
structure Binding where
  set : UInt32
  binding : UInt32
  object : ℕ
  deriving DecidableEq, Repr

/-- `PulseMaterialData`. -/
structure Material where
  shader : ShaderData
  uboColumns : List UboColumn
  textures : List Binding := []
  samplers : List Binding := []
  deriving DecidableEq, Repr

def initMaterial (shader : ShaderData) : Material where
  shader := shader
  uboColumns := shader.uboInfos.filterMap fun info =>
    if info.set ≠ materialSet then none
    else some ⟨info.set, info.binding, List.replicate info.size.toNat 0, true⟩

def findUboColumn (cols : List UboColumn) (set binding : UInt32) : Option UboColumn :=
  cols.find? fun col => col.set = set ∧ col.binding = binding

/-- `memcpy` to an offset of the column that `material_find_ubo_column` finds, and nothing if it finds none. -/
def writeColumn (cols : List UboColumn) (set binding : UInt32) (offset : ℕ) (bytes : List UInt8) :
    Option (List UboColumn) :=
  match cols with
  | [] => some []
  | col :: cols =>
    if col.set = set ∧ col.binding = binding then
      if offset + bytes.length ≤ col.cpuData.length then
        some ({ col with cpuData := splice col.cpuData offset bytes, dirty := true } :: cols)
      else none
    else (writeColumn cols set binding offset bytes).map (col :: ·)

/-- `material_bindTexture` and `material_bindSampler`. -/
def bindObject (bindings : List Binding) (set binding : UInt32) (object : ℕ) : List Binding :=
  match bindings with
  | [] => [⟨set, binding, object⟩]
  | b :: bindings =>
    if b.set = set ∧ b.binding = binding then { b with object := object } :: bindings
    else b :: bindObject bindings set binding object

def findShaderProperty (shader : ShaderData) (name : String) : Option ℕ :=
  shader.properties.findIdx? fun p => p.name = some name

namespace Material

def getShaderProperty (m : Material) (name : Option String) (type : ShaderPropertyType) : Option ShaderProperty := do
  let i ← findShaderProperty m.shader (← name)
  let prop ← m.shader.properties[i]?
  if prop.set ≠ materialSet ∨ prop.type ≠ type then none else some prop

/-- What `pulse_material_set_float4` and `pulse_material_set_mat4` do with the bytes of their values. -/
def setValue (m : Material) (name : Option String) (type : ShaderPropertyType) (bytes : List UInt8) :
    Option Material :=
  match m.getShaderProperty name type with
  | none => some m
  | some prop =>
    (writeColumn m.uboColumns prop.set prop.binding prop.offset.toNat bytes).map fun cols =>
      { m with uboColumns := cols }

def setFloat4 (m : Material) (name : Option String) (value : Vector UInt8 16) : Option Material :=
  m.setValue name .float4 value.toList

def setMat4 (m : Material) (name : Option String) (value : Vector UInt8 64) : Option Material :=
  m.setValue name .mat4 value.toList

/-- `pulse_material_set_texture`; the texture may be null. -/
def setTexture (m : Material) (name : Option String) (texture : Option ℕ) : Material :=
  match m.getShaderProperty name .texture, texture with
  | some prop, some object => { m with textures := bindObject m.textures prop.set prop.binding object }
  | _, _ => m

/-- `pulse_material_set_sampler`; the sampler may be null. -/
def setSampler (m : Material) (name : Option String) (sampler : Option ℕ) : Material :=
  match m.getShaderProperty name .sampler, sampler with
  | some prop, some object => { m with samplers := bindObject m.samplers prop.set prop.binding object }
  | _, _ => m

end Material

/-- A call of `pulse_material_set_*`; a name may be null. -/
inductive SetCall where
  | float4 (name : Option String) (value : Vector UInt8 16)
  | mat4 (name : Option String) (value : Vector UInt8 64)
  | texture (name : Option String) (texture : Option ℕ)
  | sampler (name : Option String) (sampler : Option ℕ)
  deriving DecidableEq, Repr

def SetCall.name : SetCall → Option String
  | .float4 name _ | .mat4 name _ | .texture name _ | .sampler name _ => name

def Material.call (m : Material) : SetCall → Option Material
  | .float4 name value => m.setFloat4 name value
  | .mat4 name value => m.setMat4 name value
  | .texture name texture => some (m.setTexture name texture)
  | .sampler name sampler => some (m.setSampler name sampler)

def Material.byteAt (m : Material) (set binding : UInt32) (i : ℕ) : Option UInt8 :=
  (findUboColumn m.uboColumns set binding).bind (·.cpuData[i]?)

def SetCall.named (shader : ShaderData) (c : SetCall) : Option ℕ := c.name.bind (findShaderProperty shader)

def Material.InPlace (m : Material) (c : SetCall) : Prop :=
  ∃ m', m.call c = some m' ∧ ∀ j q, m.shader.properties[j]? = some q → c.named m.shader ≠ some j →
    ∀ i, q.range.Holds i → m'.byteAt q.set q.binding i = m.byteAt q.set q.binding i

def ShaderData.StaysInPlace (shader : ShaderData) : Prop :=
  ∀ (calls : List SetCall) (m : Material) (c : SetCall),
    calls.foldlM Material.call (initMaterial shader) = some m → m.InPlace c

def ShaderPropertyType.written : ShaderPropertyType → Option ℕ
  | .float4 => some 16
  | .mat4 => some 64
  | _ => none

/-- The properties that a setter can reach have room for what it writes: up to the end of their block, and up to
any declared property with bytes that begins behind them. -/
def ShaderData.Roomy (rootSig : RootSignature) (shader : ShaderData) : Prop :=
  ∀ i p n name, shader.properties[i]? = some p → findShaderProperty shader name = some i →
    p.set = materialSet → p.type.written = some n →
    (∀ res, rootSig.resourceAt p.set p.binding = some res → p.offset.toNat + n ≤ res.size.toNat) ∧
    ∀ (j : ℕ) q, j ≠ i → shader.properties[j]? = some q → q.set = p.set → q.binding = p.binding → q.size ≠ 0 →
      p.offset ≤ q.offset → p.offset.toNat + n ≤ q.offset.toNat

variable {cols cols' : List UboColumn} {set binding set' binding' : UInt32} {offset : ℕ} {bytes : List UInt8}

lemma writeColumn_eq_none : writeColumn cols set binding offset bytes = none ↔
    ∃ col, findUboColumn cols set binding = some col ∧ col.cpuData.length < offset + bytes.length := by
  unfold findUboColumn
  induction cols with
  | nil => exact iff_of_false nofun nofun
  | cons col cols ih =>
    rw [writeColumn]
    by_cases h : col.set = set ∧ col.binding = binding
    · rw [if_pos h, List.find?_cons_of_pos (by simpa using h)]
      simp
    · rw [if_neg h, List.find?_cons_of_neg (by simpa using h), Option.map_eq_none_iff, ih]

lemma find_writeColumn (h : writeColumn cols set binding offset bytes = some cols') :
    findUboColumn cols' set' binding' = if set' = set ∧ binding' = binding then
        (findUboColumn cols set binding).map fun col =>
          { col with cpuData := splice col.cpuData offset bytes, dirty := true }
      else findUboColumn cols set' binding' := by
  unfold findUboColumn
  induction cols generalizing cols' with
  | nil =>
    cases h
    simp
  | cons col cols ih =>
    rw [writeColumn] at h
    by_cases hat : col.set = set ∧ col.binding = binding
    · rw [if_pos hat] at h
      split at h <;> cases h
      obtain ⟨rfl, rfl⟩ := hat
      by_cases heq : col.set = set' ∧ col.binding = binding'
      · obtain ⟨rfl, rfl⟩ := heq
        rw [if_pos ⟨rfl, rfl⟩, List.find?_cons_of_pos (by simp), List.find?_cons_of_pos (by simp), Option.map_some]
      · rw [if_neg fun h => heq ⟨h.1.symm, h.2.symm⟩, List.find?_cons_of_neg (by simpa using heq),
          List.find?_cons_of_neg (by simpa using heq)]
    · rw [if_neg hat] at h
      obtain ⟨rest, hrest, rfl⟩ := Option.map_eq_some_iff.mp h
      by_cases hat' : col.set = set' ∧ col.binding = binding'
      · obtain ⟨rfl, rfl⟩ := hat'
        rw [if_neg hat, List.find?_cons_of_pos (by simp), List.find?_cons_of_pos (by simp)]
      · rw [List.find?_cons_of_neg (by simpa using hat'), ih hrest, List.find?_cons_of_neg (by simpa using hat),
          List.find?_cons_of_neg (by simpa using hat')]

lemma uboColumns_initMaterial (rootSig : RootSignature) (sorted : List ShaderProperty) :
    (initMaterial (fillPropertyData rootSig sorted)).uboColumns =
      ((rootSig.tables.filter (·.setIndex = materialSet)).flatMap (·.resources)).filterMap fun res =>
        if res.type.isBuffer then some ⟨materialSet, res.binding, List.replicate res.size.toNat 0, true⟩ else none := by
  change List.filterMap _ (List.flatMap _ rootSig.tables) = _
  induction rootSig.tables with
  | nil => rfl
  | cons table tables ih =>
    rw [List.flatMap_cons, List.filterMap_append, ih, List.filterMap_filterMap]
    by_cases hset : table.setIndex = materialSet
    · rw [List.filter_cons_of_pos (by simpa using hset), List.flatMap_cons, List.filterMap_append]
      congr 1
      refine List.filterMap_congr fun res _ => ?_
      cases res.type.isBuffer <;> simp [hset]
    · rw [List.filter_cons_of_neg (by simpa using hset)]
      refine (congrArg (· ++ _) (List.filterMap_eq_nil_iff.mpr fun res _ => ?_)).trans (List.nil_append _)
      cases res.type.isBuffer <;> simp [hset]

lemma find_initMaterial {rootSig : RootSignature} {sorted : List ShaderProperty} {res : ShaderResource}
    (hres : rootSig.resourceAt materialSet binding = some res) (hbuffer : res.type.isBuffer = true) :
    findUboColumn (initMaterial (fillPropertyData rootSig sorted)).uboColumns materialSet binding =
      some ⟨materialSet, binding, List.replicate res.size.toNat 0, true⟩ := by
  rw [uboColumns_initMaterial]
  unfold RootSignature.resourceAt at hres
  unfold findUboColumn
  generalize (rootSig.tables.filter (·.setIndex = materialSet)).flatMap (·.resources) = all at hres ⊢
  induction all with
  | nil => cases hres
  | cons r rs ih =>
    by_cases hr : r.binding = binding
    · rw [List.find?_cons_of_pos (by simpa using hr)] at hres
      cases hres
      simp [hbuffer, hr]
    · rw [List.find?_cons_of_neg (by simpa using hr)] at hres
      cases hb : r.type.isBuffer with
      | false => simpa [List.filterMap_cons, hb] using ih hres
      | true => simpa [List.filterMap_cons, hb, hr] using ih hres

variable {shader : ShaderData} {m m' : Material} {c : SetCall} {name : Option String} {type : ShaderPropertyType}
  {p q : ShaderProperty} {i j n : ℕ}

lemma getShaderProperty_eq_some : m.getShaderProperty name type = some p ↔
    ∃ s i, name = some s ∧ findShaderProperty m.shader s = some i ∧ m.shader.properties[i]? = some p ∧
      p.set = materialSet ∧ p.type = type := by
  have hif : ∀ q : ShaderProperty, (if q.set ≠ materialSet ∨ q.type ≠ type then none else some q) = some p ↔
      q = p ∧ p.set = materialSet ∧ p.type = type := by
    intro q
    split
    · next h =>
      refine iff_of_false nofun fun hq => ?_
      rw [hq.1] at h
      exact h.elim (· hq.2.1) (· hq.2.2)
    · next h =>
      rw [not_or, not_not, not_not] at h
      exact ⟨fun hq => by cases hq; exact ⟨rfl, h⟩, fun hq => congrArg some hq.1⟩
  unfold Material.getShaderProperty
  simp only [Option.bind_eq_bind, Option.bind_eq_some_iff, hif]
  constructor
  · rintro ⟨s, hs, i, hi, q, hq, rfl, hset, htype⟩
    exact ⟨s, i, hs, hi, hq, hset, htype⟩
  · rintro ⟨s, i, hs, hi, hq, hset, htype⟩
    exact ⟨s, hs, i, hi, p, hq, rfl, hset, htype⟩

def SetCall.value : SetCall → Option (ShaderPropertyType × List UInt8)
  | .float4 _ value => some (.float4, value.toList)
  | .mat4 _ value => some (.mat4, value.toList)
  | .texture _ _ | .sampler _ _ => none

lemma SetCall.written_of_value {bytes : List UInt8} (h : c.value = some (type, bytes)) :
    type.written = some bytes.length := by
  cases c <;> cases h
  · exact congrArg some (Vector.length_toList ..).symm
  · exact congrArg some (Vector.length_toList ..).symm

lemma call_of_value_none (h : c.value = none) :
    ∃ m', m.call c = some m' ∧ m'.shader = m.shader ∧ m'.uboColumns = m.uboColumns := by
  cases c with
  | float4 => cases h
  | mat4 => cases h
  | texture name object =>
    refine ⟨_, rfl, ?_⟩
    unfold Material.setTexture
    split <;> exact ⟨rfl, rfl⟩
  | sampler name object =>
    refine ⟨_, rfl, ?_⟩
    unfold Material.setSampler
    split <;> exact ⟨rfl, rfl⟩

lemma call_of_value (h : c.value = some (type, bytes)) : m.call c = m.setValue c.name type bytes := by
  cases c <;> cases h <;> rfl

def Material.sizeAt (m : Material) (set binding : UInt32) : Option ℕ :=
  (findUboColumn m.uboColumns set binding).map (·.cpuData.length)

structure Material.Shaped (shader : ShaderData) (m : Material) : Prop where
  shader_eq : m.shader = shader
  sizeAt_eq : ∀ set binding, m.sizeAt set binding = (initMaterial shader).sizeAt set binding

/-- **What a setter does** with a property that it finds: it writes the bytes of its value from the offset of the
property on, and no others. -/
lemma setValue_spec (hp : m.getShaderProperty name type = some p) (h : m.setValue name type bytes = some m') :
    m'.shader = m.shader ∧ (∀ set binding, m'.sizeAt set binding = m.sizeAt set binding) ∧
      ∀ set binding i, (m.sizeAt set binding).isSome → m'.byteAt set binding i =
        if (set = p.set ∧ binding = p.binding) ∧ p.offset.toNat ≤ i ∧ i < p.offset.toNat + bytes.length then
          bytes[i - p.offset.toNat]?
        else m.byteAt set binding i := by
  rw [Material.setValue, hp] at h
  obtain ⟨cols, hcols, rfl⟩ := Option.map_eq_some_iff.mp h
  have hroom : ∀ col, findUboColumn m.uboColumns p.set p.binding = some col →
      p.offset.toNat + bytes.length ≤ col.cpuData.length := fun col hcol =>
    not_lt.mp fun hlt => by simp [writeColumn_eq_none.mpr ⟨col, hcol, hlt⟩] at hcols
  refine ⟨rfl, fun set binding => ?_, fun set binding i hsome => ?_⟩
  · unfold Material.sizeAt
    rw [find_writeColumn hcols]
    split
    · next hat =>
      rw [hat.1, hat.2]
      cases hcol : findUboColumn m.uboColumns p.set p.binding with
      | none => rfl
      | some col => exact congrArg some (length_splice (hroom col hcol))
    · rfl
  · unfold Material.byteAt
    rw [find_writeColumn hcols]
    by_cases hat : set = p.set ∧ binding = p.binding
    · obtain ⟨rfl, rfl⟩ := hat
      simp only [and_self, if_true, true_and]
      cases hcol : findUboColumn m.uboColumns p.set p.binding with
      | none => simp [Material.sizeAt, hcol] at hsome
      | some col => exact getElem?_splice (hroom col hcol) i
    · rw [if_neg hat, if_neg fun h => hat h.1]

lemma byteAt_eq_none (h : (m.sizeAt set binding).isSome = false) : m.byteAt set binding i = none := by
  unfold Material.sizeAt at h
  unfold Material.byteAt
  cases hcol : findUboColumn m.uboColumns set binding with
  | none => rfl
  | some col => simp [hcol] at h

lemma Material.Shaped.call (h : m.Shaped shader) (hc : m.call c = some m') : m'.Shaped shader := by
  cases hv : c.value with
  | none =>
    obtain ⟨_, hm, hshader, hcols⟩ := call_of_value_none (m := m) hv
    cases hm.symm.trans hc
    refine ⟨hshader.trans h.shader_eq, fun set binding => ?_⟩
    rw [← h.sizeAt_eq, Material.sizeAt, hcols, Material.sizeAt]
  | some value =>
    rw [call_of_value hv] at hc
    cases hp : m.getShaderProperty c.name value.1 with
    | none =>
      rw [Material.setValue, hp] at hc
      cases hc
      exact h
    | some p =>
      obtain ⟨hshader, hsize, -⟩ := setValue_spec hp hc
      exact ⟨hshader.trans h.shader_eq, fun set binding => (hsize set binding).trans (h.sizeAt_eq set binding)⟩

/-- **The columns keep their sizes** over all calls. -/
theorem Material.Shaped.run {calls : List SetCall} (h : m.Shaped shader)
    (hrun : calls.foldlM Material.call m = some m') : m'.Shaped shader := by
  induction calls generalizing m with
  | nil =>
    cases hrun
    exact h
  | cons c calls ih =>
    rw [List.foldlM_cons, Option.bind_eq_bind, Option.bind_eq_some_iff] at hrun
    obtain ⟨m₁, hc, hrun⟩ := hrun
    exact ih (h.call hc) hrun

section Built

variable {std : StdSort} {rootSig : RootSignature} {props : List ShaderProperty}

lemma built_spec (built : buildShaderPipeline std rootSig props = .ok shader) :
    (∃ sorted, shader = fillPropertyData rootSig sorted) ∧ (∀ p ∈ shader.properties, rootSig.Fits p) ∧
      shader.properties.Pairwise ShaderProperty.Ends := by
  unfold buildShaderPipeline at built
  split at built
  · cases built
    exact ⟨⟨_, rfl⟩, nofun, .nil⟩
  · cases hvalid : validateShaderPropertiesDeclare std rootSig props with
    | error e =>
      rw [hvalid] at built
      cases built
    | ok sorted =>
      rw [hvalid] at built
      cases built
      obtain ⟨-, hfits, hends⟩ := validates_spec hvalid
      refine ⟨⟨_, rfl⟩, fun p hp => ?_, ?_⟩
      · obtain ⟨p', hp', rfl⟩ := List.mem_map.mp hp
        exact hfits p' hp'
      · exact List.pairwise_map.mpr hends

lemma built_column (built : buildShaderPipeline std rootSig props = .ok shader) (hp : p ∈ shader.properties)
    (hset : p.set = materialSet) (huniform : p.type.isUniform = true) :
    ∃ res, rootSig.resourceAt p.set p.binding = some res ∧ p.range.stop ≤ res.size.toNat ∧
      findUboColumn (initMaterial shader).uboColumns p.set p.binding =
        some ⟨p.set, p.binding, List.replicate res.size.toNat 0, true⟩ := by
  obtain ⟨⟨sorted, rfl⟩, hfits, -⟩ := built_spec built
  obtain ⟨-, res, hres, hmatch, hstop⟩ := hfits p hp
  refine ⟨res, hres, hstop huniform, ?_⟩
  rw [hset] at hres ⊢
  exact find_initMaterial hres (hmatch.isUniform_iff.mp huniform)

lemma isUniform_of_written (h : type.written = some n) : type.isUniform = true := by
  cases type <;> first | rfl | cases h

lemma exists_call (h : type.written = some n) (s : String) (b : UInt8) :
    ∃ c : SetCall, c.name = some s ∧ c.value = some (type, List.replicate n b) := by
  cases type with
  | float4 =>
    cases h
    exact ⟨.float4 (some s) (Vector.replicate 16 b), rfl, rfl⟩
  | mat4 =>
    cases h
    exact ⟨.mat4 (some s) (Vector.replicate 64 b), rfl, rfl⟩
  | _ => cases h

lemma apart_of_ends (hends : shader.properties.Pairwise ShaderProperty.Ends) (hi : shader.properties[i]? = some p)
    (hj : shader.properties[j]? = some q) (hne : j ≠ i) (hshare : p.Share q) :
    q.range.stop ≤ p.range.offset ∨ p.range.stop ≤ q.range.offset := by
  obtain ⟨hilt, rfl⟩ := List.getElem?_eq_some_iff.mp hi
  obtain ⟨hjlt, rfl⟩ := List.getElem?_eq_some_iff.mp hj
  rcases Nat.lt_or_gt_of_ne hne with hlt | hlt
  · exact Or.inl (List.pairwise_iff_getElem.mp hends j i hjlt hilt hlt hshare.symm)
  · exact Or.inr (List.pairwise_iff_getElem.mp hends i j hilt hjlt hlt hshare)

lemma built_share (built : buildShaderPipeline std rootSig props = .ok shader) (hi : shader.properties[i]? = some p)
    (hj : shader.properties[j]? = some q) (huniform : p.type.isUniform = true) (hset : q.set = p.set)
    (hbinding : q.binding = p.binding) : p.Share q := by
  have hfits := (built_spec built).2.1
  have hq := (hfits q (List.mem_of_getElem? hj)).isUniform (hfits p (List.mem_of_getElem? hi))
    (place_eq_iff.mpr ⟨hset, hbinding⟩) huniform
  exact ⟨huniform, hq, hset.symm, hbinding.symm⟩

/-- There is room where every property has the size of its type. -/
theorem roomy_of_sizes (built : buildShaderPipeline std rootSig props = .ok shader)
    (sizes : ∀ p ∈ shader.properties, ∀ n, p.type.written = some n → n ≤ p.size.toNat) :
    shader.Roomy rootSig := by
  intro i p n s hi _ hset hwritten
  have huniform := isUniform_of_written hwritten
  have hn : p.offset.toNat + n ≤ p.range.stop :=
    Nat.add_le_add_left (sizes p (List.mem_of_getElem? hi) n hwritten) _
  obtain ⟨res, hres, hstop, -⟩ := built_column built (List.mem_of_getElem? hi) hset huniform
  refine ⟨fun res' hres' => ?_, fun j q hne hj hqset hqbinding hbytes hle => ?_⟩
  · cases hres.symm.trans hres'
    exact hn.trans hstop
  · have hpos : 0 < q.size.toNat := Nat.pos_of_ne_zero fun h => hbytes (UInt32.toNat_inj.mp h)
    have hshare := built_share built hi hj huniform hqset hqbinding
    rcases apart_of_ends (built_spec built).2.2 hi hj hne hshare with hbefore | hafter
    · have hlt : q.offset.toNat < q.range.stop := Nat.lt_add_of_pos_right hpos
      exact absurd (UInt32.le_iff_toNat_le.mp hle) (not_le.mpr (hlt.trans_le hbefore))
    · exact hn.trans hafter

lemma roomy_of_staysInPlace (built : buildShaderPipeline std rootSig props = .ok shader)
    (stays : shader.StaysInPlace) : shader.Roomy rootSig := by
  intro i p n s hi hfind hset hwritten
  have huniform := isUniform_of_written hwritten
  obtain ⟨res, hres, hstop, hcol⟩ := built_column built (List.mem_of_getElem? hi) hset huniform
  obtain ⟨c, hname, hvalue⟩ := exists_call hwritten s 1
  obtain ⟨m', hcall, hothers⟩ := stays [] (initMaterial shader) c rfl
  rw [call_of_value hvalue, hname] at hcall
  have hp : (initMaterial shader).getShaderProperty (some s) p.type = some p :=
    getShaderProperty_eq_some.mpr ⟨s, i, rfl, hfind, hi, hset, rfl⟩
  have hroom : p.offset.toNat + n ≤ res.size.toNat := by
    by_contra hlt
    have hnone : writeColumn (initMaterial shader).uboColumns p.set p.binding p.offset.toNat (List.replicate n 1) =
        none := writeColumn_eq_none.mpr ⟨_, hcol, by simpa using hlt⟩
    rw [Material.setValue, hp] at hcall
    simp only [hnone] at hcall
    cases hcall
  refine ⟨fun res' hres' => ?_, fun j q hne hj hqset hqbinding hbytes hle => ?_⟩
  · cases hres.symm.trans hres'
    exact hroom
  · by_contra hlt
    have hnamed : c.named shader ≠ some j := by
      rw [SetCall.named, hname, Option.bind_some, hfind]
      exact fun h => hne (Option.some.inj h).symm
    have hholds : q.range.Holds q.range.offset :=
      ⟨le_rfl, Nat.lt_add_of_pos_right (Nat.pos_of_ne_zero fun h => hbytes (UInt32.toNat_inj.mp h))⟩
    have hsame := hothers j q hj hnamed _ hholds
    have hsome : ((initMaterial shader).sizeAt q.set q.binding).isSome := by
      rw [Material.sizeAt, hqset, hqbinding, hcol]
      rfl
    have hlow : p.offset.toNat ≤ q.offset.toNat := UInt32.le_iff_toNat_le.mp hle
    have hnew := (setValue_spec hp hcall).2.2 q.set q.binding q.range.offset hsome
    have hinside : p.offset.toNat ≤ q.range.offset ∧ q.range.offset < p.offset.toNat + n := ⟨hlow, not_le.mp hlt⟩
    rw [List.length_replicate, if_pos ⟨⟨hqset, hqbinding⟩, hinside⟩, hsame, Material.byteAt, hqset, hqbinding, hcol,
      Option.bind_some, List.getElem?_replicate, List.getElem?_replicate, if_pos (by omega), if_pos (by omega)] at hnew
    exact absurd hnew (by decide)

lemma inPlace_of_roomy (built : buildShaderPipeline std rootSig props = .ok shader) (roomy : shader.Roomy rootSig)
    (h : m.Shaped shader) (c : SetCall) : m.InPlace c := by
  have hends := (built_spec built).2.2
  cases hv : c.value with
  | none =>
    obtain ⟨m', hcall, -, hcols⟩ := call_of_value_none (m := m) hv
    refine ⟨m', hcall, fun j q _ _ i _ => ?_⟩
    rw [Material.byteAt, hcols, Material.byteAt]
  | some value =>
    obtain ⟨type, bytes⟩ := value
    have hlength := SetCall.written_of_value hv
    unfold Material.InPlace
    rw [call_of_value hv]
    cases hp : m.getShaderProperty c.name type with
    | none =>
      refine ⟨m, ?_, fun _ _ _ _ _ _ => rfl⟩
      rw [Material.setValue, hp]
    | some p =>
      obtain ⟨s, i, hs, hfind, hi, hset, htype⟩ := getShaderProperty_eq_some.mp hp
      rw [h.shader_eq] at hfind hi
      rw [← htype] at hlength
      have huniform := isUniform_of_written hlength
      obtain ⟨res, hres, -, hcol⟩ := built_column built (List.mem_of_getElem? hi) hset huniform
      obtain ⟨hroom, hnext⟩ := roomy i p _ s hi hfind hset hlength
      cases hcall : m.setValue c.name type bytes with
      | none =>
        rw [Material.setValue, hp] at hcall
        obtain ⟨col, hcol', hlt⟩ := writeColumn_eq_none.mp (Option.map_eq_none_iff.mp hcall)
        have hsize := h.sizeAt_eq p.set p.binding
        rw [Material.sizeAt, Material.sizeAt, hcol, hcol'] at hsize
        have hlength : col.cpuData.length = res.size.toNat := by simpa using hsize
        exact absurd (hroom res hres) (not_le.mpr (hlength ▸ hlt))
      | some m' =>
        obtain ⟨-, -, hbytes⟩ := setValue_spec hp hcall
        refine ⟨m', rfl, fun j q hj hnamed k hk => ?_⟩
        cases hsome : (m.sizeAt q.set q.binding).isSome with
        | false =>
          have hsome' : (m'.sizeAt q.set q.binding).isSome = false := by
            rw [(setValue_spec hp hcall).2.1, hsome]
          rw [byteAt_eq_none hsome, byteAt_eq_none hsome']
        | true =>
          rw [hbytes _ _ _ hsome, if_neg]
          rintro ⟨⟨hqset, hqbinding⟩, hlow, hhigh⟩
          rw [h.shader_eq] at hj hnamed
          have hne : j ≠ i := fun heq => by
            rw [SetCall.named, hs, Option.bind_some, hfind, heq] at hnamed
            exact hnamed rfl
          have hshare := built_share built hi hj huniform hqset hqbinding
          have hsize : q.size ≠ 0 := fun hzero => by
            have hstop : q.range.stop = q.range.offset := congrArg (q.range.offset + ·) (congrArg UInt32.toNat hzero)
            exact absurd (hstop ▸ hk.2) (not_lt.mpr hk.1)
          rcases apart_of_ends hends hi hj hne hshare with hbefore | hafter
          · exact absurd (hk.2.trans_le hbefore) (not_lt.mpr hlow)
          · have hle := UInt32.le_iff_toNat_le.mpr ((Nat.le_add_right _ _).trans hafter)
            have hgap := hnext j q hne hj hqset hqbinding hsize hle
            exact absurd (hhigh.trans_le hgap) (not_lt.mpr hk.1)

/-- **When writes stay in place**: every call on every material of a shader does, exactly when there is room for what
the setters of its properties write. -/
theorem staysInPlace_iff (std : StdSort) (rootSig : RootSignature) (props : List ShaderProperty) (shader : ShaderData)
    (built : buildShaderPipeline std rootSig props = .ok shader) : shader.StaysInPlace ↔ shader.Roomy rootSig :=
  ⟨roomy_of_staysInPlace built, fun roomy _ _ c hrun =>
    inPlace_of_roomy built roomy (Material.Shaped.run ⟨rfl, fun _ _ => rfl⟩ hrun) c⟩

end Built

def tightProperties : List ShaderProperty := [⟨some "tint", .float4, 1, 0, 0, 4⟩, ⟨some "gloss", .float, 1, 0, 4, 4⟩]

def builtOf (props : List ShaderProperty) : ShaderData := fillPropertyData litLayout props

theorem staysInPlace_iff_tight : ¬ (builtOf tightProperties).StaysInPlace := by
  rw [staysInPlace_iff .insertion litLayout tightProperties (builtOf tightProperties) (by decide +kernel)]
  intro h
  have hgap := (h 0 _ 16 "tint" rfl (by decide) rfl rfl).2 1 _ (by decide) rfl rfl rfl (by decide) (by decide)
  exact absurd hgap (by decide)

/-- A vector that is written over the four bytes that were declared for it. -/
theorem not_staysInPlace : ¬ ∀ (std : StdSort) (rootSig : RootSignature) (props sorted : List ShaderProperty),
    validateShaderPropertiesDeclare std rootSig props = .ok sorted → (fillPropertyData rootSig sorted).StaysInPlace := by
  intro h
  have hvalid : validateShaderPropertiesDeclare .insertion litLayout tightProperties = .ok tightProperties :=
    by decide +kernel
  obtain ⟨m', hcall, hothers⟩ := h _ _ _ _ hvalid [] (initMaterial (builtOf tightProperties))
    (.float4 (some "tint") (Vector.replicate 16 1)) rfl
  cases hcall
  exact absurd (hothers 1 _ rfl (by decide) 4 (by decide)) (by decide)

end PulseEngine.Loader
