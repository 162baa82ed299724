import Mathlib.Data.Set.Card
import Mathlib.Logic.Function.Basic
import Mathlib.Tactic

/-!
# Asset handles, slots and buckets

The data model of `pulse_asset/src/asset_internal.h`. A handle names a slot by type and index and
carries the generation the slot had when the handle was made. Counters and identifiers are `Nat`;
the two counters that wrap in the source (`generation`, `pin_count`) do so explicitly here.

Paths are lists of characters. The asset bytes behind `AssetSlot::data` are never looked at by the
code modelled here and are left out.
-/

namespace PulseEngine.Asset

/-- `uint64_t type_id`. -/
abbrev TypeId := Nat

abbrev Path := List Char

def uint32Size : Nat := 2 ^ 32

structure SlotId where
  typeId : TypeId
  index : Nat
  deriving DecidableEq, Repr

/-- `PulseAssetHandle` (requests and dependency references have the same layout). -/
structure Handle where
  typeId : TypeId
  index : Nat
  generation : Nat
  deriving DecidableEq, Repr

def Handle.invalid : Handle := ⟨0, 0, 0⟩

def Handle.isValid (h : Handle) : Bool :=
  h.typeId != 0 && h.index != 0 && h.generation != 0

def Handle.slotId (h : Handle) : SlotId := ⟨h.typeId, h.index⟩

/-- `EPulseAssetState`. -/
inductive AssetState where
  | empty
  | waitingLoad
  | loading
  | waitingDependencies
  | processing
  | loaded
  | failed
  | pendingDelete
  deriving DecidableEq, Repr

def AssetState.isLoadInProgress : AssetState → Bool
  | .waitingLoad | .loading | .waitingDependencies | .processing => true
  | _ => false

/-- `EPulseAssetLoadSource`. -/
inductive LoadSource where
  | file
  | memory
  | builder
  deriving DecidableEq, Repr

/-- `EPulseLoadDependencyRequirement`. -/
inductive Requirement where
  | required
  | optional
  deriving DecidableEq, Repr

/-- `PulseAssetDependency`. -/
structure Dependency where
  depRef : Handle
  requirement : Requirement
  deriving DecidableEq, Repr

/-- `AssetSlot`, without the bytes of the asset. -/
structure Slot where
  generation : Nat
  state : AssetState
  pinCount : Nat
  path : Path
  source : LoadSource
  error : String
  version : Nat
  constructed : Bool
  retiringLoadJob : Bool
  dependencies : List Handle
  dependents : List Handle
  deriving DecidableEq, Repr

def Slot.fresh : Slot where
  generation := 1
  state := .empty
  pinCount := 0
  path := []
  source := .file
  error := ""
  version := 0
  constructed := false
  retiringLoadJob := false
  dependencies := []
  dependents := []

/-- The generation after `generation += 1` and the skip of zero. -/
def nextGeneration (generation : Nat) : Nat :=
  if (generation + 1) % uint32Size = 0 then 1 else (generation + 1) % uint32Size

/-- The tail of `AssetStorage::destroy_slot`: every field but `source` is put back. -/
def Slot.reset (slot : Slot) : Slot where
  generation := nextGeneration slot.generation
  state := .empty
  pinCount := 0
  path := []
  source := slot.source
  error := ""
  version := 0
  constructed := false
  retiringLoadJob := false
  dependencies := []
  dependents := []

def Slot.allocate (slot : Slot) (path : Path) : Slot where
  generation := slot.generation
  state := .waitingLoad
  pinCount := 0
  path := path
  source := slot.source
  error := ""
  version := 0
  constructed := false
  retiringLoadJob := false
  dependencies := []
  dependents := []

/-- Remove every occurrence of a handle from `dependents`. -/
def Slot.removeDependent (h : Handle) (slot : Slot) : Slot :=
  { slot with dependents := slot.dependents.filter (· ≠ h) }

/-- Remove every occurrence of a handle from `dependencies`. -/
def Slot.removeDependency (h : Handle) (slot : Slot) : Slot :=
  { slot with dependencies := slot.dependencies.filter (· ≠ h) }

def Slot.pin (slot : Slot) : Slot :=
  { slot with pinCount := (slot.pinCount + 1) % uint32Size }

/-- `pin_count -= 1`, guarded by `pin_count > 0` in the source. -/
def Slot.unpin (slot : Slot) : Slot :=
  { slot with pinCount := slot.pinCount - 1 }

/-- `PulseAssetTypeDesc`. `headerMatches` is the check of `struct_size` and `version`; of the
callback only its presence matters. -/
structure AssetTypeDesc where
  headerMatches : Bool
  typeId : TypeId
  size : Nat
  align : Nat
  hasDestroy : Bool
  deriving DecidableEq, Repr

/-- `AssetBucket`. Of the asset type it only needs whether a `destroy` callback is set. -/
structure Bucket where
  hasDestroy : Bool
  slots : List Slot
  freeIndices : List Nat
  deriving DecidableEq, Repr

def Bucket.new (hasDestroy : Bool) : Bucket := ⟨hasDestroy, [Slot.fresh], []⟩

/-- The index `AssetStorage::allocate_slot` takes: the back of the free list, else a new slot at
the end. A vector of `2 ^ 32` slots cannot grow. -/
def Bucket.takeIndex (b : Bucket) : Option (Nat × Bucket) :=
  match b.freeIndices with
  | index :: rest => some (index, { b with freeIndices := rest })
  | [] =>
    if b.slots.length < uint32Size then
      some (b.slots.length, { b with slots := b.slots ++ [Slot.fresh] })
    else none

lemma nextGeneration_ne_zero (g : Nat) : nextGeneration g ≠ 0 := by
  unfold nextGeneration
  split <;> omega

lemma nextGeneration_of_lt {g : Nat} (h : g + 1 < uint32Size) : nextGeneration g = g + 1 := by
  unfold nextGeneration
  rw [Nat.mod_eq_of_lt h]
  simp

lemma nextGeneration_ne_self (g : Nat) : nextGeneration g ≠ g := by
  unfold nextGeneration uint32Size
  split <;> omega

lemma Handle.isValid_iff {h : Handle} :
    h.isValid = true ↔ h.typeId ≠ 0 ∧ h.index ≠ 0 ∧ h.generation ≠ 0 := by
  simp [Handle.isValid, and_assoc]

end PulseEngine.Asset

/-!
## Asset types and loaders

`asset_registry.cpp` and the string functions of `asset_io.cpp` it uses. A pointer to a registered
loader is the loader itself, since nothing changes a loader after its registration. The `std` maps
are association lists in which the first entry of a key counts, so that `emplace` is an append.
-/

namespace PulseEngine.Asset

/-- What the registry reads of `PulseAssetLoaderDesc`; a callback is whether it is set. -/
structure AssetLoaderDesc where
  headerMatches : Bool
  typeId : TypeId
  extensions : Option Path
  loaderIdentifier : Option Path
  hasCtor : Bool
  hasDtor : Bool
  hasStep : Bool
  loaderSize : Nat
  loaderAlign : Nat
  settingsSize : Nat
  settingsAlign : Nat
  hasSettingsSizeFn : Bool
  hasSettingsCopyFn : Bool
  deriving DecidableEq, Repr

structure AssetLoader where
  desc : AssetLoaderDesc
  extensions : List Path
  deriving DecidableEq, Repr

def AssetLoader.isBuilder (loader : AssetLoader) : Bool := loader.extensions.isEmpty

structure AssetType where
  desc : AssetTypeDesc
  extensionLoaders : List (Path × AssetLoader)
  builderLoaders : List (Path × AssetLoader)
  deriving DecidableEq, Repr

/-- The results of `EPulseResult` that the registry gives. -/
inductive Result where
  | ok
  | errorInvalidArgument
  | errorInvalidState
  | errorNotFound
  deriving DecidableEq, Repr

namespace AssetIo

def normalizePath (path : Path) : Path :=
  (path.map fun c => if c = '\\' then '/' else c).dropWhile (· = '/')

def normalizeExtension (extension : Path) : Path :=
  (match extension with
    | '.' :: rest => rest
    | rest => rest).map Char.toLower

/-- The loop of `AssetIo::parse_extensions`; `current` is the extension read so far. -/
def parseExtensionsFrom (current : Path) : Path → List Path
  | [] => [normalizeExtension current].filter (· ≠ [])
  | ',' :: rest => [normalizeExtension current].filter (· ≠ []) ++ parseExtensionsFrom [] rest
  | c :: rest => parseExtensionsFrom (if c ≠ ' ' ∧ c ≠ '\t' then current ++ [c] else current) rest

def parseExtensions : Option Path → List Path
  | none => []
  | some extensions => parseExtensionsFrom [] extensions

def extensionFromPath (path : Path) : Path :=
  let extension := (path.reverse.takeWhile (· ≠ '.')).reverse
  if '.' ∈ path ∧ '/' ∉ extension then normalizeExtension extension else []

end AssetIo

namespace AssetType

def hasLoaderForAny (type : AssetType) (extensions : List Path) : Bool :=
  extensions.any fun extension => (type.extensionLoaders.lookup extension).isSome

def findBuilderLoader (type : AssetType) (name : Path) : Option AssetLoader :=
  type.builderLoaders.lookup name

def findExtensionLoader (type : AssetType) (extension : Path) : Option AssetLoader :=
  type.extensionLoaders.lookup extension

def addLoader (type : AssetType) (desc : AssetLoaderDesc) (extensions : List Path) :
    Result × AssetType :=
  let loader : AssetLoader := ⟨desc, extensions⟩
  if extensions = [] then
    let builderKey := desc.loaderIdentifier.getD []
    if (type.builderLoaders.lookup builderKey).isSome then (.errorInvalidState, type)
    else (.ok, { type with builderLoaders := type.builderLoaders ++ [(builderKey, loader)] })
  else if type.hasLoaderForAny extensions then (.errorInvalidState, type)
  else
    (.ok, { type with
      extensionLoaders := type.extensionLoaders ++ extensions.map fun e => (e, loader) })

end AssetType

def isPowerOfTwoAlignment (align : Nat) : Bool := align != 0 && align &&& (align - 1) == 0

structure AssetRegistry where
  types : List (TypeId × AssetType)
  deriving DecidableEq, Repr

namespace AssetRegistry

def init : AssetRegistry := ⟨[]⟩

def findType (registry : AssetRegistry) (typeId : TypeId) : Option AssetType :=
  registry.types.lookup typeId

def findLoader (registry : AssetRegistry) (typeId : TypeId) (path : Path) : Option AssetLoader :=
  let extension := AssetIo.extensionFromPath path
  if extension = [] then none
  else (registry.findType typeId).bind (·.findExtensionLoader extension)

def findBuilderLoader (registry : AssetRegistry) (typeId : TypeId) (loaderIdentifier : Path) :
    Option AssetLoader :=
  (registry.findType typeId).bind (·.findBuilderLoader loaderIdentifier)

def registerType (registry : AssetRegistry) (desc : AssetTypeDesc) : Result × AssetRegistry :=
  if desc.typeId = 0 ∨ !desc.headerMatches ∨ desc.size = 0 ∨ !isPowerOfTwoAlignment desc.align then
    (.errorInvalidArgument, registry)
  else if (registry.findType desc.typeId).isSome then (.errorInvalidState, registry)
  else (.ok, ⟨registry.types ++ [(desc.typeId, ⟨desc, [], []⟩)]⟩)

/-- The argument checks of `AssetRegistry::register_loader`. -/
def loaderDescIsValid (desc : AssetLoaderDesc) : Bool :=
  desc.headerMatches && desc.typeId != 0 && desc.hasStep &&
    !(decide (0 < desc.loaderSize) && !isPowerOfTwoAlignment desc.loaderAlign) &&
    !(decide (0 < desc.settingsSize) && !isPowerOfTwoAlignment desc.settingsAlign) &&
    !(desc.settingsSize == 0 && (desc.hasSettingsSizeFn || desc.hasSettingsCopyFn)) &&
    desc.hasSettingsSizeFn == desc.hasSettingsCopyFn

def registerLoader (registry : AssetRegistry) (desc : AssetLoaderDesc) :
    Result × AssetRegistry :=
  if !loaderDescIsValid desc then (.errorInvalidArgument, registry)
  else
    match registry.findType desc.typeId with
    | none => (.errorNotFound, registry)
    | some type =>
      let (result, type) := type.addLoader desc (AssetIo.parseExtensions desc.extensions)
      (result, ⟨registry.types.map fun entry =>
        if entry.1 = desc.typeId then (entry.1, type) else entry⟩)

end AssetRegistry

end PulseEngine.Asset
