import PulseEngine.Library.Writes
import PulseEngine.Loader.MaterialColumns
import PulseEngine.Renderer.FeatureColumns

/-!
# What is written to uniform columns

The columns that `build_views_system` allocates for a view and the bytes that are copied to them: the global ones, which
`fill_ubo_block` fills with the properties of the view, and the ones of features, of which the built-in feature writes
the model matrix. A column for which nothing is copied is allocated all the same.
-/

namespace PulseEngine.Renderer

open Library
open Loader (ShaderData ShaderProperty ShaderPropertyType UboInfo)

structure RendererPropertyValue where
  name : String
  type : ShaderPropertyType
  size : UInt32
  value : Vector UInt8 64
  deriving DecidableEq, Repr

def setMat4 (name : String) (v : Vector UInt8 64) : List RendererPropertyValue → List RendererPropertyValue
  | [] => [⟨name, .mat4, 64, v⟩]
  | entry :: entries =>
    if entry.name = name then { entry with type := .mat4, size := 64, value := v } :: entries
    else entry :: setMat4 name v entries

def RendererPropertyValue.IsMatrix (entry : RendererPropertyValue) : Prop := entry.type = .mat4 ∧ entry.size = 64

lemma isMatrix_setMat4 {name : String} {v : Vector UInt8 64} {entries : List RendererPropertyValue}
    (matrices : ∀ entry ∈ entries, entry.IsMatrix) : ∀ entry ∈ setMat4 name v entries, entry.IsMatrix := by
  induction entries with
  | nil =>
    intro entry h
    obtain rfl := List.mem_singleton.mp h
    exact ⟨rfl, rfl⟩
  | cons head entries ih =>
    intro entry h
    rw [setMat4] at h
    split at h
    · rcases List.mem_cons.mp h with rfl | h
      · exact ⟨rfl, rfl⟩
      · exact matrices entry (List.mem_cons_of_mem head h)
    · rcases List.mem_cons.mp h with rfl | h
      · exact matrices entry List.mem_cons_self
      · exact ih (fun entry h => matrices entry (List.mem_cons_of_mem head h)) entry h

/-- `RendererPropertyTable`, to which only matrices are written. -/
structure RendererPropertyTable where
  entries : List RendererPropertyValue
  matrices : ∀ entry ∈ entries, entry.IsMatrix

namespace RendererPropertyTable

def empty : RendererPropertyTable := ⟨[], List.forall_mem_nil _⟩

def set (table : RendererPropertyTable) (name : String) (v : Vector UInt8 64) : RendererPropertyTable :=
  ⟨setMat4 name v table.entries, isMatrix_setMat4 table.matrices⟩

def find (table : RendererPropertyTable) (name : String) : Option RendererPropertyValue :=
  table.entries.find? fun entry => entry.name = name

end RendererPropertyTable

def kPropertyNameVPMatrix : String := "vpMatrix"

def viewProperties (vp : Vector UInt8 64) : RendererPropertyTable := .set .empty kPropertyNameVPMatrix vp

def kPropertyNameModelMatrix : String := "wMatrix"

/-- A shader and its handle. Its properties passed the validation, so that they lie inside their blocks. -/
structure RenderShader where
  index : ℕ
  generation : ℕ
  data : ShaderData
  inside : ∀ p ∈ data.properties, ∀ info ∈ data.uboInfos, p.type.isUniform = true → p.set = info.set →
    p.binding = info.binding → p.offset.toNat + p.size.toNat ≤ info.size.toNat
  deriving DecidableEq

def fillProperty (set binding : UInt32) (table : RendererPropertyTable) (prop : ShaderProperty) :
    Option (Write UInt8) :=
  match prop.name with
  | none => none
  | some name =>
    if prop.set ≠ set ∨ prop.binding ≠ binding then none
    else match table.find name with
      | none => none
      | some value =>
        if value.type ≠ prop.type ∨ value.size ≠ prop.size then none
        else some ⟨prop.offset.toNat, value.value.toList.take prop.size.toNat⟩

def fillUboBlock (shader : ShaderData) (set binding : UInt32) (table : RendererPropertyTable) : List (Write UInt8) :=
  shader.properties.filterMap (fillProperty set binding table)

/-- What `write_model_matrix` copies for a property. -/
def modelProperty (set binding : UInt32) (matrix : Vector UInt8 64) (prop : ShaderProperty) : Option (Write UInt8) :=
  match prop.name with
  | none => none
  | some name =>
    if prop.set ≠ set ∨ prop.binding ≠ binding then none
    else if name ≠ kPropertyNameModelMatrix then none
    else if prop.type ≠ .mat4 ∨ prop.size ≠ 64 then none
    else some ⟨prop.offset.toNat, matrix.toList⟩

def writeModelMatrix (shader : ShaderData) (set binding : UInt32) (matrix : Vector UInt8 64) : List (Write UInt8) :=
  shader.properties.filterMap (modelProperty set binding matrix)

section properties

variable {set binding : UInt32} {prop : ShaderProperty} {w : Write UInt8}

/-- **What a property is filled with**: the view property of its name, its type and its size. -/
lemma fillProperty_eq_some {table : RendererPropertyTable} : fillProperty set binding table prop = some w ↔
    prop.set = set ∧ prop.binding = binding ∧ ∃ name value, prop.name = some name ∧ table.find name = some value ∧
      value.type = prop.type ∧ value.size = prop.size ∧
        w = ⟨prop.offset.toNat, value.value.toList.take prop.size.toNat⟩ := by
  rw [fillProperty]
  cases hn : prop.name with
  | none => exact iff_of_false nofun nofun
  | some name =>
    dsimp only
    split
    · rename_i other
      refine iff_of_false nofun ?_
      rintro ⟨set, binding, -⟩
      exact other.elim (fun ne => ne set) fun ne => ne binding
    · rename_i same
      rw [not_or, not_not, not_not] at same
      cases hf : table.find name with
      | none =>
        refine iff_of_false nofun ?_
        rintro ⟨-, -, _, value, ⟨⟩, found, -⟩
        rw [hf] at found
        cases found
      | some value =>
        dsimp only
        split
        · rename_i other
          refine iff_of_false nofun ?_
          rintro ⟨-, -, _, value', ⟨⟩, found, type, size, -⟩
          rw [hf] at found
          cases found
          exact other.elim (fun ne => ne type) fun ne => ne size
        · rename_i fits
          rw [not_or, not_not, not_not] at fits
          constructor
          · rintro ⟨⟩
            exact ⟨same.1, same.2, name, value, rfl, hf, fits.1, fits.2, rfl⟩
          · rintro ⟨-, -, _, value', ⟨⟩, found, -, -, rfl⟩
            rw [hf] at found
            cases found
            rfl

lemma modelProperty_eq_some {matrix : Vector UInt8 64} (h : modelProperty set binding matrix prop = some w) :
    prop.set = set ∧ prop.binding = binding ∧ prop.name = some kPropertyNameModelMatrix ∧ prop.type = .mat4 ∧
      prop.size = 64 ∧ w = ⟨prop.offset.toNat, matrix.toList⟩ := by
  rw [modelProperty] at h
  split at h
  · cases h
  · rename_i name hn
    split at h
    · cases h
    · rename_i same
      split at h
      · cases h
      · rename_i named
        split at h
        · cases h
        · rename_i fits
          rw [not_or, not_not, not_not] at same fits
          rw [not_not] at named
          exact ⟨same.1, same.2, named ▸ hn, fits.1, fits.2, (Option.some.inj h).symm⟩

end properties

structure ColumnRequest where
  set : UInt32
  binding : UInt32
  size : UInt32
  writes : List (Write UInt8)
  inside : ∀ w ∈ writes, w.offset + w.values.length ≤ size.toNat

lemma RenderShader.matrix_inside (shader : RenderShader) {info : UboInfo} (hi : info ∈ shader.data.uboInfos)
    {prop : ShaderProperty} (hp : prop ∈ shader.data.properties) (type : prop.type = .mat4) (size : prop.size = 64)
    (set : prop.set = info.set) (binding : prop.binding = info.binding) : prop.offset.toNat + 64 ≤ info.size.toNat := by
  have inside := shader.inside prop hp info hi (by rw [type]; rfl) set binding
  rw [size] at inside
  exact inside

def RenderShader.globalColumn (shader : RenderShader) (table : RendererPropertyTable)
    (info : { info // info ∈ shader.data.uboInfos }) : ColumnRequest where
  set := info.1.set
  binding := info.1.binding
  size := info.1.size
  writes := fillUboBlock shader.data info.1.set info.1.binding table
  inside := by
    intro w hw
    obtain ⟨prop, hp, h⟩ := List.mem_filterMap.mp hw
    obtain ⟨set, binding, name, value, -, found, type, size, rfl⟩ := fillProperty_eq_some.mp h
    have matrix := table.matrices value (List.mem_of_find?_eq_some found)
    have inside := shader.matrix_inside info.2 hp (type ▸ matrix.1) (size ▸ matrix.2) set binding
    rw [List.length_take, Vector.length_toList]
    exact (Nat.add_le_add_left (min_le_right _ _) _).trans inside

def RenderShader.modelColumn (shader : RenderShader) (matrix : Vector UInt8 64)
    (info : { info // info ∈ shader.data.uboInfos }) : ColumnRequest where
  set := info.1.set
  binding := info.1.binding
  size := info.1.size
  writes := writeModelMatrix shader.data info.1.set info.1.binding matrix
  inside := by
    intro w hw
    obtain ⟨prop, hp, h⟩ := List.mem_filterMap.mp hw
    obtain ⟨set, binding, -, type, size, rfl⟩ := modelProperty_eq_some h
    have inside := shader.matrix_inside info.2 hp type size set binding
    rw [Vector.length_toList]
    exact inside

def RenderShader.infosOf (shader : RenderShader) (set : UInt32) : List { info // info ∈ shader.data.uboInfos } :=
  shader.data.uboInfos.attach.filter fun info => info.1.set = set

structure ViewItem where
  featureId : ℕ
  shader : Option RenderShader
  worldMatrix : Vector UInt8 64

/-- `prepare_item_globals` for the items of a list, after the shaders that are cached for it. -/
def listGlobals (table : RendererPropertyTable) : List (ℕ × ℕ) → List ViewItem → List ColumnRequest
  | _, [] => []
  | cached, item :: items =>
    match item.shader with
    | none => listGlobals table cached items
    | some shader =>
      if (shader.index, shader.generation) ∈ cached then listGlobals table cached items
      else (shader.infosOf 0).map (shader.globalColumn table) ++
        listGlobals table (cached ++ [(shader.index, shader.generation)]) items

/-- The columns that the `prepare` callback of a feature allocates for a list. -/
abbrev PrepareCallback := List ViewItem → List ColumnRequest

def renderableFeaturePrepare (featureId : ℕ) : PrepareCallback := fun items =>
  items.flatMap fun item =>
    if item.featureId ≠ featureId then []
    else match item.shader with
      | none => []
      | some shader => (shader.infosOf 2).map (shader.modelColumn item.worldMatrix)

/-- What the columns of a view depend on: its properties, its sorted lists, and the features, some without a `prepare`
callback. -/
structure ViewInput where
  properties : RendererPropertyTable
  lists : List (List ViewItem)
  features : List (Option PrepareCallback)

/-- The columns that a view allocates: the global ones of all lists, then the ones of the features that are in the
view, list by list. -/
def ViewInput.columns (view : ViewInput) : List ColumnRequest :=
  view.lists.flatMap (listGlobals view.properties []) ++
    view.lists.flatMap fun items => view.features.zipIdx.flatMap fun (prepare, featureId) =>
      if view.lists.any fun items => items.any fun item => decide (item.featureId = featureId) then
        (prepare.map fun prepare => prepare items).getD []
      else []

end PulseEngine.Renderer
