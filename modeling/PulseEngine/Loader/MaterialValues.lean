import PulseEngine.Loader.MaterialColumns

/-!
# Values of material properties

Where the declared sizes of properties are not below those of their types, the calls of `pulse_material_set_*` are writes
to a store: they all return, and a property has the value that was set last.
-/

namespace PulseEngine.Loader

open Library

/-- The bytes that a call sets a property of a name and a type to. -/
def SetCall.setting (c : SetCall) (name : String) (type : ShaderPropertyType) : Option (List UInt8) :=
  c.value.bind fun value => if c.name = some name ∧ value.1 = type then some value.2 else none

/-- The value that was set last, and zeros before. -/
def lastSet (calls : List SetCall) (name : String) (type : ShaderPropertyType) (n : ℕ) : List UInt8 :=
  (calls.reverse.findSome? (·.setting name type)).getD (List.replicate n 0)

variable {std : StdSort} {rootSig : RootSignature} {props : List ShaderProperty} {shader : ShaderData} {m m' : Material}
  {c : SetCall} {p : ShaderProperty} {name : String} {i n : ℕ}

lemma lastSet_append (calls : List SetCall) (c : SetCall) (type : ShaderPropertyType) :
    lastSet (calls ++ [c]) name type n = (c.setting name type).getD (lastSet calls name type n) := by
  rw [lastSet, List.reverse_append, List.reverse_singleton, List.singleton_append, List.findSome?_cons]
  cases c.setting name type <;> rfl

lemma name_of_find (find : findShaderProperty shader name = some i) (at_i : shader.properties[i]? = some p) :
    p.name = some name := by
  obtain ⟨lt, has, -⟩ := List.findIdx?_eq_some_iff_getElem.mp find
  rw [List.getElem?_eq_getElem lt] at at_i
  cases at_i
  exact of_decide_eq_true has

lemma written_of_setting {type : ShaderPropertyType} {bytes : List UInt8} (h : c.setting name type = some bytes) :
    type.written = some bytes.length := by
  obtain ⟨value, hv, set_to⟩ := Option.bind_eq_some_iff.mp h
  split_ifs at set_to with here
  cases set_to
  exact here.2 ▸ SetCall.written_of_value hv

/-- A call that is not for a property leaves its bytes. -/
lemma byteAt_call (built : buildShaderPipeline std rootSig props = .ok shader) (roomy : shader.Roomy rootSig)
    (shaped : m.Shaped shader) (done : m.call c = some m') (at_i : shader.properties[i]? = some p)
    (find : findShaderProperty shader name = some i) (other : c.setting name p.type = none) {k : ℕ}
    (holds : p.range.Holds k) : m'.byteAt p.set p.binding k = m.byteAt p.set p.binding k := by
  by_cases named : c.named shader = some i
  · have same : c.name = some name := by
      obtain ⟨s, hs, find'⟩ := Option.bind_eq_some_iff.mp named
      rw [hs, ← name_of_find find' at_i, name_of_find find at_i]
    cases hv : c.value with
    | none =>
      obtain ⟨m₁, done₁, -, columns⟩ := call_of_value_none (m := m) hv
      cases done.symm.trans done₁
      rw [Material.byteAt, columns, Material.byteAt]
    | some value =>
      have type : value.1 ≠ p.type := fun type => by
        rw [SetCall.setting, hv, Option.bind_some, if_pos ⟨same, type⟩] at other
        cases other
      have missing : m.getShaderProperty c.name value.1 = none := by
        cases found : m.getShaderProperty c.name value.1 with
        | none => rfl
        | some q =>
          obtain ⟨s, j, hs, find', at_j, -, type'⟩ := getShaderProperty_eq_some.mp found
          cases same.symm.trans hs
          rw [shaped.shader_eq] at find' at_j
          cases find.symm.trans find'
          cases at_i.symm.trans at_j
          exact absurd type'.symm type
      rw [call_of_value hv, Material.setValue, missing] at done
      cases done
      rfl
  · obtain ⟨m₁, done₁, others⟩ := inPlace_of_roomy built roomy shaped c
    cases done.symm.trans done₁
    rw [shaped.shader_eq] at others
    exact others i p at_i named k holds

/-- A call for a property sets its bytes. -/
lemma byteAt_call_of_setting (built : buildShaderPipeline std rootSig props = .ok shader)
    (shaped : m.Shaped shader) (done : m.call c = some m') (at_i : shader.properties[i]? = some p)
    (find : findShaderProperty shader name = some i) (set : p.set = materialSet) {bytes : List UInt8}
    (setting : c.setting name p.type = some bytes) {k : ℕ} (lt : k < bytes.length) :
    m'.byteAt p.set p.binding (p.offset.toNat + k) = bytes[k]? := by
  obtain ⟨value, hv, set_to⟩ := Option.bind_eq_some_iff.mp setting
  split_ifs at set_to with here
  cases set_to
  have found : m.getShaderProperty c.name value.1 = some p := getShaderProperty_eq_some.mpr
    ⟨name, i, here.1, by rw [shaped.shader_eq]; exact find, by rw [shaped.shader_eq]; exact at_i, set, here.2.symm⟩
  rw [call_of_value hv] at done
  have uniform := isUniform_of_written (SetCall.written_of_value hv)
  rw [here.2] at uniform
  obtain ⟨res, -, -, column⟩ := built_column built (List.mem_of_getElem? at_i) set uniform
  have some : (m.sizeAt p.set p.binding).isSome := by
    rw [shaped.sizeAt_eq, Material.sizeAt, column]
    rfl
  rw [(setValue_spec found done).2.2 _ _ _ some, if_pos ⟨⟨rfl, rfl⟩, by omega⟩]
  congr 1
  omega

end PulseEngine.Loader
