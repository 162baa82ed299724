import PulseEngine.Asset.Unheld
import PulseEngine.Graphics.UploadLoader

/-!
# Composite assets and their parts

A mesh made from data, a shader made from binaries and a material file request the assets they are
made of (`pulse_graphics/src/loader/create_mesh.cpp`, `create_shader.cpp`, `load_material.cpp`). A
request that creates an asset pins it, and the dependency that is committed when the composite is
completed is another reason for the part to stay. An `Assembly` is what one creation requested, which
pins its requests took and which of them it gave back.
-/

namespace PulseEngine.Graphics

open Asset Library

variable {fuel : Nat}

def shaderLibraryType : TypeId := 0x1003

def shaderType : TypeId := 0x1004

def meshType : TypeId := 0x1006

def materialType : TypeId := 0x1007

structure Build where
  settings : SettingsScript
  script : JobScript Call

def assetBuild (s : System fuel) (t : TypeId) (dependencies : List Dependency) (b : Build) :
    Option (System fuel × Handle) :=
  System.loadImpl (System.runCalls fuel) s ⟨.builder, t, none, none, true, false, none, dependencies,
    dependencies.isEmpty⟩ b.settings b.script

def assetBuildSync (s : System fuel) (t : TypeId) (dependencies : List Dependency) (b : Build) :
    Option (System fuel × Handle) := do
  let (s, h) ← assetBuild s t dependencies b
  let loaded := (s.storage.getSlot h).any fun slot => slot.state = .loaded
  return (s, if loaded then h else Handle.invalid)

/-- What the creation of a composite did: the asset it answered with, the parts it requested, those
of them that a request of its own created, and those it released again. -/
structure Assembly where
  asset : Handle
  parts : List Handle
  taken : List Handle
  givenBack : List Handle
  deriving DecidableEq, Repr

def Assembly.pins (k : Assembly) (p : Handle) : Int := k.taken.count p - k.givenBack.count p

def createMeshFromData (s : System fuel) (vertex : Build) (index : Option Build) (mesh : Build) :
    Option (System fuel × Assembly) := do
  let (s, vertexBuffer) ← assetBuild s bufferType [] vertex
  let (s, indexBuffer) ←
    match index with
    | some index => assetBuild s bufferType [] index
    | none => some (s, Handle.invalid)
  let (s, mesh) ← assetBuild s meshType
    [⟨vertexBuffer, .required⟩, ⟨indexBuffer, .optional⟩] mesh
  let parts := [vertexBuffer, indexBuffer].filter (·.isValid)
  return (s, ⟨mesh, parts, parts, []⟩)

def createShaderFromBinary (s : System fuel) (complete : Bool) (vertex fragment shader : Build) :
    Option (System fuel × Assembly) := do
  if !complete then return (s, ⟨Handle.invalid, [], [], []⟩)
  let (s, vs) ← assetBuildSync s shaderLibraryType [] vertex
  if !vs.isValid then return (s, ⟨Handle.invalid, [], [], []⟩)
  let (s, fs) ← assetBuildSync s shaderLibraryType [] fragment
  if !fs.isValid then
    let s ← s.act (.release vs)
    return (s, ⟨Handle.invalid, [vs], [vs], [vs]⟩)
  let (s, h) ← assetBuildSync s shaderType [⟨vs, .required⟩, ⟨fs, .required⟩] shader
  if !h.isValid then
    let s ← s.act (.release vs)
    let s ← s.act (.release fs)
    return (s, ⟨Handle.invalid, [vs, fs], [vs, fs], [vs, fs]⟩)
  return (s, ⟨h, [vs, fs], [vs, fs], []⟩)

/-- The answer to a request for a file: the handle, whether the request created the asset or found it
in the path cache, and whether the asset can be borrowed. -/
structure FileAnswer where
  handle : Handle
  created : Bool
  available : Bool
  deriving DecidableEq, Repr

/-- One turn of the job of a material file: whether the bytes can be parsed, whether there is a
shader path, and the answers to the requests for the shader and for the textures and samplers of the
properties, which are missing when a property is malformed. -/
structure MaterialTurn where
  parsed : Bool
  hasShader : Bool
  shader : FileAnswer
  properties : Option (List FileAnswer)
  deriving DecidableEq, Repr

/-- The loop over the properties, up to the first file that `ok` refuses. The second component is
whether there is none. -/
def requestFiles (ok : FileAnswer → Bool) : List FileAnswer → List FileAnswer × Bool
  | [] => ([], true)
  | answer :: answers =>
    if ok answer then
      let (rest, all) := requestFiles ok answers
      (answer :: rest, all)
    else ([answer], false)

/-- `step_material_from_file`: the requests it makes and what it returns. The first step requests the
files as dependencies, the later ones request them again and borrow them. -/
def stepMaterialFromFile (depsRequested : Bool) (turn : MaterialTurn) :
    List FileAnswer × LoaderStatus :=
  if !turn.parsed ∨ !turn.hasShader then ([], .failed)
  else if !depsRequested then
    if !turn.shader.handle.isValid then ([turn.shader], .failed)
    else
      match turn.properties with
      | none => ([turn.shader], .failed)
      | some properties =>
        let (answers, all) := requestFiles (·.handle.isValid) properties
        (turn.shader :: answers, if all then .waitDependencies else .failed)
  else
    match turn.properties with
    | none => ([], .failed)
    | some properties =>
      if !turn.shader.available then ([turn.shader], .failed)
      else
        let (answers, all) := requestFiles (·.available) properties
        (turn.shader :: answers, if all then .done else .failed)

def materialRequests (depsRequested : Bool) : List MaterialTurn → List FileAnswer
  | [] => []
  | turn :: turns =>
    let (answers, status) := stepMaterialFromFile depsRequested turn
    answers ++ materialRequests (depsRequested || decide (status = .waitDependencies)) turns

def loadMaterial (asset : Handle) (turns : List MaterialTurn) : Assembly :=
  let answers := (materialRequests false turns).filter (·.handle.isValid)
  ⟨asset, answers.map (·.handle), (answers.filter (·.created)).map (·.handle), []⟩

structure Composites (fuel : Nat) where
  system : System fuel
  made : List Assembly

/-- What happens: an event of the asset system, the creation of a mesh or of a shader, or the end of
the job of a material file, whose steps are turns of the asset system. -/
inductive CompositeEvent where
  | system (event : System.Event)
  | createMesh (vertex : Build) (index : Option Build) (mesh : Build)
  | createShader (complete : Bool) (vertex fragment shader : Build)
  | loadedMaterial (asset : Handle) (turns : List MaterialTurn)

namespace Composites

def init (maxRequestsPerUpdate : Nat) : Composites fuel := ⟨System.init maxRequestsPerUpdate, []⟩

def step (c : Composites fuel) : CompositeEvent → Option (Composites fuel)
  | .system event => (c.system.step event).map fun s => { c with system := s }
  | .createMesh vertex index mesh =>
    (createMeshFromData c.system vertex index mesh).map fun done => ⟨done.1, done.2 :: c.made⟩
  | .createShader complete vertex fragment shader =>
    (createShaderFromBinary c.system complete vertex fragment shader).map fun done =>
      ⟨done.1, done.2 :: c.made⟩
  | .loadedMaterial asset turns => some { c with made := loadMaterial asset turns :: c.made }

def after (fuel maxRequestsPerUpdate : Nat) (events : List CompositeEvent) :
    Option (Composites fuel) := run step (init maxRequestsPerUpdate) events

end Composites

/-- The composite is destroyed by an action from `r` to `r'` because nothing holds it any more, and
nobody else pins its parts: the user pins on them are those its creation left, only the composite
depends on them, and what its creation found in the path cache is a dependency of it. -/
structure Assembly.ReleasedAlone (k : Assembly) (r r' : Asset.Recorded) : Prop where
  there : r.storage.IsAsset k.asset
  gone : ¬ r'.storage.IsAsset k.asset
  pins : ∀ p ∈ k.parts, r'.history.userPins p = k.pins p
  alone : ∀ p ∈ k.parts, ∀ s ∈ r.storage.getSlot p, ∀ z ∈ s.dependents, z = k.asset
  depends : ∀ s ∈ r.storage.getSlot k.asset, ∀ p ∈ k.parts, p ∉ k.taken → p ∈ s.dependencies

instance (k : Assembly) (r r' : Asset.Recorded) : Decidable (k.ReleasedAlone r r') :=
  decidable_of_iff (r.storage.IsAsset k.asset ∧ ¬ r'.storage.IsAsset k.asset ∧
    (∀ p ∈ k.parts, r'.history.userPins p = k.pins p) ∧
    (∀ p ∈ k.parts, ∀ s ∈ r.storage.getSlot p, ∀ z ∈ s.dependents, z = k.asset) ∧
    ∀ s ∈ r.storage.getSlot k.asset, ∀ p ∈ k.parts, p ∉ k.taken → p ∈ s.dependencies)
    ⟨fun ⟨there, gone, pins, alone, depends⟩ => ⟨there, gone, pins, alone, depends⟩,
      fun h => ⟨h.there, h.gone, h.pins, h.alone, h.depends⟩⟩

def PartsDestroyed (c : Composites fuel) : Prop :=
  ∀ k ∈ c.made, ∀ pre a r r', pre ++ [a] <+: c.system.traced.log →
    run (Asset.Recorded.step fuel) Asset.Recorded.init pre = some r → r.step fuel a = some r' →
      a.isForceDestroy = false → k.ReleasedAlone r r' → ∀ p ∈ k.parts, ¬ r'.storage.IsAsset p

/-- The pins that a creation took are on its parts, and it gives none of them back when it
succeeds. -/
structure Assembly.Keeps (k : Assembly) : Prop where
  taken : ∀ p ∈ k.taken, p ∈ k.parts
  givenBack : k.asset.isValid = true → k.givenBack = []

variable {s s' : System fuel} {k : Assembly}

lemma createMeshFromData_keeps {vertex mesh : Build} {index : Option Build}
    (e : createMeshFromData s vertex index mesh = some (s', k)) : k.Keeps := by
  unfold createMeshFromData at e
  simp only [Option.bind_eq_bind] at e
  obtain ⟨⟨s₁, vertexBuffer⟩, _, e⟩ := Option.bind_eq_some_iff.mp e
  cases index with
  | none =>
    obtain ⟨⟨s₂, indexBuffer⟩, _, e⟩ := Option.bind_eq_some_iff.mp e
    obtain ⟨⟨s₃, mesh⟩, _, e⟩ := Option.bind_eq_some_iff.mp e
    cases e
    exact ⟨fun p hp => hp, fun _ => rfl⟩
  | some index =>
    obtain ⟨⟨s₂, indexBuffer⟩, _, e⟩ := Option.bind_eq_some_iff.mp e
    obtain ⟨⟨s₃, mesh⟩, _, e⟩ := Option.bind_eq_some_iff.mp e
    cases e
    exact ⟨fun p hp => hp, fun _ => rfl⟩

lemma createShaderFromBinary_spec {complete : Bool} {vertex fragment shader : Build}
    (e : createShaderFromBinary s complete vertex fragment shader = some (s', k)) :
    k.taken = k.parts ∧ k.givenBack = if k.asset.isValid then [] else k.taken := by
  unfold createShaderFromBinary at e
  split at e
  · cases e
    exact ⟨rfl, rfl⟩
  · simp only [Option.bind_eq_bind] at e
    obtain ⟨⟨s₁, vs⟩, _, e⟩ := Option.bind_eq_some_iff.mp e
    dsimp only at e
    split at e
    · cases e
      exact ⟨rfl, rfl⟩
    · obtain ⟨⟨s₂, fs⟩, _, e⟩ := Option.bind_eq_some_iff.mp e
      dsimp only at e
      split at e
      · obtain ⟨s₃, _, e⟩ := Option.bind_eq_some_iff.mp e
        cases e
        exact ⟨rfl, rfl⟩
      · obtain ⟨⟨s₃, h⟩, _, e⟩ := Option.bind_eq_some_iff.mp e
        dsimp only at e
        split at e
        · obtain ⟨s₄, _, e⟩ := Option.bind_eq_some_iff.mp e
          obtain ⟨s₅, _, e⟩ := Option.bind_eq_some_iff.mp e
          cases e
          exact ⟨rfl, rfl⟩
        · rename_i valid
          cases e
          exact ⟨rfl, by simpa using valid⟩

lemma createShaderFromBinary_keeps {complete : Bool} {vertex fragment shader : Build}
    (e : createShaderFromBinary s complete vertex fragment shader = some (s', k)) : k.Keeps := by
  obtain ⟨parts, givenBack⟩ := createShaderFromBinary_spec e
  exact ⟨fun p hp => parts ▸ hp, fun valid => by rw [givenBack, if_pos valid]⟩

lemma loadMaterial_keeps (asset : Handle) (turns : List MaterialTurn) :
    (loadMaterial asset turns).Keeps := by
  refine ⟨fun p hp => ?_, fun _ => rfl⟩
  obtain ⟨answer, ha, rfl⟩ := List.mem_map.mp hp
  exact List.mem_map_of_mem (List.mem_of_mem_filter ha)

lemma Composites.keeps_of_after {maxRequestsPerUpdate : Nat} {events : List CompositeEvent}
    {c : Composites fuel} (e : Composites.after fuel maxRequestsPerUpdate events = some c) :
    ∀ k ∈ c.made, k.Keeps := by
  refine run_invariant (I := fun c : Composites fuel => ∀ k ∈ c.made, k.Keeps)
    (fun c event c' keeps e => ?_) (fun k hk => absurd hk List.not_mem_nil) e
  have more : ∀ {k' : Assembly}, k'.Keeps → ∀ k ∈ k' :: c.made, k.Keeps := by
    intro k' hk' k hk
    rcases List.mem_cons.mp hk with rfl | hk
    · exact hk'
    · exact keeps k hk
  cases event with
  | system event =>
    obtain ⟨s, _, rfl⟩ := Option.map_eq_some_iff.mp e
    exact keeps
  | createMesh vertex index mesh =>
    obtain ⟨⟨s, k'⟩, created, rfl⟩ := Option.map_eq_some_iff.mp e
    exact more (createMeshFromData_keeps created)
  | createShader complete vertex fragment shader =>
    obtain ⟨⟨s, k'⟩, created, rfl⟩ := Option.map_eq_some_iff.mp e
    exact more (createShaderFromBinary_keeps created)
  | loadedMaterial asset turns =>
    cases e
    exact more (loadMaterial_keeps asset turns)

lemma Assembly.Keeps.pins_pos {p : Handle} (keeps : k.Keeps) (valid : k.asset.isValid = true)
    (hp : p ∈ k.taken) : k.pins p ≠ 0 := by
  have count := List.count_pos_iff.mpr hp
  unfold Assembly.pins
  rw [keeps.givenBack valid, List.count_nil]
  omega

/-- **Parts of a composite.** In every run of the asset system whose actions keep to `PinSafe`, when a
composite is destroyed that nobody uses any more and whose parts nobody else pins, all its parts are
gone if and only if those that its creation had made were gone before; unless a type was unloaded by
force, that is if and only if its creation had found every part in the path cache. -/
theorem partsDestroyed_iff (fuel maxRequestsPerUpdate : Nat) (events : List CompositeEvent)
    (c : Composites fuel) (made : Composites.after fuel maxRequestsPerUpdate events = some c)
    (safe : Along (Asset.Recorded.step fuel) (fun r a => a.PinSafe r) Asset.Recorded.init
      c.system.traced.log) :
    ∀ k ∈ c.made, ∀ pre a r r', pre ++ [a] <+: c.system.traced.log →
      run (Asset.Recorded.step fuel) Asset.Recorded.init pre = some r → r.step fuel a = some r' →
        a.isForceDestroy = false → k.ReleasedAlone r r' →
          ((∀ p ∈ k.parts, ¬ r'.storage.IsAsset p) ↔ ∀ p ∈ k.taken, ¬ r.storage.IsAsset p) ∧
          ((∀ b ∈ pre, b.isForceDestroy = false) →
            ((∀ p ∈ k.parts, ¬ r'.storage.IsAsset p) ↔ k.taken = [])) := by
  intro k hk pre a r r' hpre e e' quiet released
  have along := safe.of_prefix hpre
  have safe' : a.PinSafe r := along.at_end e
  obtain ⟨wf, bal⟩ := Storage.WellFormed.run
    (I := fun st history => st.Balanced (fun _ => True) history.userPins)
    (fun _ _ safe => safe.sound) Storage.Balanced.init
    (fun wf bal safe eff => bal.step wf safe eff) along.of_append e
  obtain ⟨st, D, un⟩ := Asset.Recorded.unloading wf bal safe' quiet e' released.there released.gone
  obtain ⟨sk, hsk, _⟩ := released.there
  have keeps := Composites.keeps_of_after made k hk
  have valid : k.asset.isValid = true := (Storage.getSlot_eq_some.mp hsk).1
  have law : (∀ p ∈ k.parts, ¬ r'.storage.IsAsset p) ↔ ∀ p ∈ k.taken, ¬ r.storage.IsAsset p := by
    constructor
    · intro gone p hp there
      have part := keeps.taken p hp
      have unused := un.unused_of_gone there (gone p part)
      rw [released.pins p part] at unused
      exact keeps.pins_pos valid hp unused
    · intro none p hp
      by_cases taken : p ∈ k.taken
      · exact fun there => none p taken (un.isAsset_before there)
      · refine (un.part_iff wf hsk released.gone (released.depends sk hsk p hp taken)
          (released.alone p hp)).mpr ?_
        rw [released.pins p hp]
        unfold Assembly.pins
        rw [keeps.givenBack valid, List.count_eq_zero.mpr taken, List.count_nil]
        rfl
  refine ⟨law, fun calm => ?_⟩
  rw [law]
  refine ⟨fun none => List.eq_nil_iff_forall_not_mem.mpr fun p hp => ?_, fun nil p hp => ?_⟩
  · -- the pin that the creation took is a user pin, so the part is there
    have used : r'.UsedThere := by
      refine Asset.Recorded.usedThere_of_calm along (fun b hb => ?_) ((run_snoc e a).trans e')
      rcases List.mem_append.mp hb with hb | hb
      · exact calm b hb
      · exact List.mem_singleton.mp hb ▸ quiet
    have pinned : r'.history.userPins p ≠ 0 := by
      rw [released.pins p (keeps.taken p hp)]
      exact keeps.pins_pos valid hp
    exact none p hp (un.isAsset_before (used p pinned))
  · rw [nil] at hp
    cases hp

def quietTurn : JobScript Call := ⟨some [], [], true, [], .done, none, []⟩

def quietBuild : Build := ⟨⟨64, true⟩, quietTurn⟩

def requestFile (t : TypeId) (path : Path) : Call :=
  .load ⟨.file, t, none, some path, false, false, none, [], true⟩ ⟨0, true⟩ quietTurn

def materialOfLoadedShader : List CompositeEvent :=
  let shader : Handle := ⟨shaderType, 1, 1⟩
  let answer : FileAnswer := ⟨shader, false, true⟩
  let request := requestFile shaderType ['a', '.', 's']
  [.system (.registerType ⟨true, shaderType, 64, 8, true⟩),
    .system (.registerType ⟨true, materialType, 64, 8, true⟩),
    .system (.registerLoader
      ⟨true, shaderType, some ['s'], none, false, false, true, 0, 0, 0, 0, false, false⟩),
    .system (.registerLoader
      ⟨true, materialType, some ['m'], none, false, false, true, 1, 1, 0, 0, false, false⟩),
    .system (.call request), .system (.process [quietTurn]),
    .system (.call (requestFile materialType ['b', '.', 'm'])),
    .system (.process [{ quietTurn with
      step := [request, .addDependency shader .required], status := .waitDependencies }]),
    .system (.process [{ quietTurn with step := [request] }]),
    .system (.call (.release shader)),
    .loadedMaterial ⟨materialType, 1, 1⟩
      [⟨true, true, answer, some []⟩, ⟨true, true, answer, some []⟩],
    .system (.call (.release ⟨materialType, 1, 1⟩))]

/-- The shader goes with the material. -/
theorem partsDestroyed_iff_material : ∃ c : Composites 8,
    Composites.after 8 0 materialOfLoadedShader = some c ∧
    ∃ k ∈ c.made, k.parts = [⟨shaderType, 1, 1⟩, ⟨shaderType, 1, 1⟩] ∧
      ∃ pre a r r', c.system.traced.log = pre ++ [a] ∧
        run (Asset.Recorded.step 8) Asset.Recorded.init pre = some r ∧ r.step 8 a = some r' ∧
          k.ReleasedAlone r r' ∧ ∀ p ∈ k.parts, ¬ r'.storage.IsAsset p := by
  have ends : (Composites.after 8 0 materialOfLoadedShader).isSome = true := by decide +kernel
  obtain ⟨c, hc⟩ := Option.isSome_iff_exists.mp ends
  set k : Assembly := ⟨⟨materialType, 1, 1⟩, [⟨shaderType, 1, 1⟩, ⟨shaderType, 1, 1⟩], [], []⟩
    with hk
  set a : Action := .release ⟨materialType, 1, 1⟩ with ha
  have seen : ∀ c ∈ Composites.after 8 0 materialOfLoadedShader, k ∈ c.made ∧
      Along (Asset.Recorded.step 8) (fun r a => a.PinSafe r) Asset.Recorded.init c.system.traced.log ∧
      c.system.traced.log = c.system.traced.log.dropLast ++ [a] ∧
      (∀ b ∈ c.system.traced.log.dropLast, b.isForceDestroy = false) ∧
      ∃ r ∈ run (Asset.Recorded.step 8) Asset.Recorded.init c.system.traced.log.dropLast,
        ∃ r' ∈ r.step 8 a, k.ReleasedAlone r r' := by
    decide +kernel
  obtain ⟨made, safe, log, calm, r, hr, r', hr', released⟩ := seen c hc
  have law := (partsDestroyed_iff 8 0 _ c hc safe k made _ a r r' (log ▸ List.prefix_rfl) hr hr' rfl
    released).2 calm
  exact ⟨c, hc, k, made, rfl, _, a, r, r', log, hr, hr', released, law.mpr rfl⟩

def meshFromVertices : List CompositeEvent :=
  [.system (.registerType ⟨true, bufferType, 32, 8, true⟩),
    .system (.registerType ⟨true, meshType, 128, 8, true⟩),
    .system (.registerLoader
      ⟨true, bufferType, some [], none, false, false, true, 2, 1, 64, 8, true, true⟩),
    .system (.registerLoader
      ⟨true, meshType, some [], none, false, false, true, 2, 1, 64, 8, true, true⟩),
    .createMesh quietBuild none quietBuild, .system (.call (.release ⟨meshType, 1, 1⟩))]

/-- Its vertex buffer stays, with the pin that the creation took. -/
theorem not_partsDestroyed : ¬ ∀ c : Composites 8,
    Composites.after 8 0 meshFromVertices = some c → PartsDestroyed c := by
  intro law
  have ends : (Composites.after 8 0 meshFromVertices).isSome = true := by decide +kernel
  obtain ⟨c, hc⟩ := Option.isSome_iff_exists.mp ends
  set k : Assembly := ⟨⟨meshType, 1, 1⟩, [⟨bufferType, 1, 1⟩], [⟨bufferType, 1, 1⟩], []⟩ with hk
  set a : Action := .release ⟨meshType, 1, 1⟩ with ha
  have seen : ∀ c ∈ Composites.after 8 0 meshFromVertices, k ∈ c.made ∧
      c.system.traced.log = c.system.traced.log.dropLast ++ [a] ∧
      ∃ r ∈ run (Asset.Recorded.step 8) Asset.Recorded.init c.system.traced.log.dropLast,
        ∃ r' ∈ r.step 8 a, k.ReleasedAlone r r' ∧ r'.storage.IsAsset ⟨bufferType, 1, 1⟩ := by
    decide +kernel
  obtain ⟨made, log, r, hr, r', hr', released, stays⟩ := seen c hc
  exact law c hc k made _ a r r' (log ▸ List.prefix_rfl) hr hr' rfl released _ List.mem_cons_self
    stays

end PulseEngine.Graphics
