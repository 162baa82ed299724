import PulseEngine.Asset.Unload
import PulseEngine.Library.Run

/-!
# The actions on a storage

Everything the asset system does to its storage, as functions on `Storage` under the names of
`asset.cpp` and `asset_loading.cpp`, and the list of these operations as a type of actions. What a
caller of the system holds (`History.userPins`) and what the assets went through
(`History.loaded`, `History.required`) is recorded beside the storage; the system never reads it.

A load job keeps a reference to the slot of its handle while a callback runs, so the writes of a
job go to that slot whatever asset is in it by then.
-/

namespace PulseEngine.Asset

open Library

/-- `EPulseRetainErrorCode`. -/
inductive RetainError where
  | handleIsInvalid
  | assetIsPendingDelete
  | assetIsReleased
  deriving DecidableEq, Repr

/-- `EPulseReleaseErrorCode`. -/
inductive ReleaseError where
  | handleIsInvalid
  | assetIsOverReleased
  deriving DecidableEq, Repr

abbrev ProgressState := { state : AssetState // state.isLoadInProgress = true }

namespace Storage

def retain (st : Storage) (h : Handle) : Except RetainError Storage :=
  match st.getSlot h with
  | none => .error .assetIsReleased
  | some slot =>
    if slot.state = .empty then .error .assetIsReleased
    else if slot.state = .pendingDelete then .error .assetIsPendingDelete
    else .ok ((st.modifySlot h.slotId Slot.pin).pinCommittedDependencies slot.dependencies)

def setPendingDelete (slot : Slot) : Slot :=
  { slot with state := .pendingDelete, error := "asset unload pending" }

/-- The part of `AssetSystem::release` after the pins were given back. A slot whose load job is
retiring and a slot that is still loading are treated alike, in two branches. -/
def releaseSlot (fuel : Nat) (st : Storage) (h : Handle) : Option Storage :=
  match st.slotAt h.slotId with
  | none => none
  | some slot =>
    if slot.retiringLoadJob then
      some (if slot.pinCount = 0 then st.modifySlot h.slotId setPendingDelete else st)
    else if slot.state.isLoadInProgress then
      some (if slot.pinCount = 0 then st.modifySlot h.slotId setPendingDelete else st)
    else if slot.pinCount = 0 then tryUnloadSlot (destroySlot fuel) st h
    else some st

/-- Whether `AssetSystem::release` accepts the handle. -/
def isReleasable (st : Storage) (h : Handle) : Bool :=
  (st.getSlot h).any fun slot => slot.pinCount != 0

def release (fuel : Nat) (st : Storage) (h : Handle) : Option (Except ReleaseError Storage) :=
  match st.getSlot h with
  | none => some (.error .assetIsOverReleased)
  | some slot =>
    if slot.pinCount = 0 then some (.error .assetIsOverReleased)
    else
      (releaseSlot fuel
        ((st.modifySlot h.slotId Slot.unpin).unpinCommittedDependencies slot.dependencies)
        h).map .ok

def markModified (st : Storage) (h : Handle) : Storage :=
  match st.getSlot h with
  | none => st
  | some slot =>
    if slot.state = .loaded then
      st.modifySlot h.slotId fun slot => { slot with version := (slot.version + 1) % 2 ^ 64 }
    else st

/-- `slot.state = state`, through the slot reference of a load job that goes on. -/
def setState (st : Storage) (h : Handle) (state : ProgressState) : Storage :=
  st.modifySlot h.slotId fun slot => { slot with state := state.val }

/-- The slot part of `LoadJob::finish` for `Failed` and `Cancelled`, also `slot.state = FAILED` with
an error text elsewhere. -/
def failSlot (st : Storage) (h : Handle) (error : String) : Storage :=
  st.modifySlot h.slotId fun slot => { slot with state := .failed, error := error }

/-- The slot part of `LoadJob::finish` for `Loaded`. -/
def finishLoaded (st : Storage) (h : Handle) : Storage :=
  st.modifySlot h.slotId fun slot =>
    { slot with constructed := true, state := .loaded, error := "" }

def setRetiring (st : Storage) (h : Handle) (retiring : Bool) : Storage :=
  st.modifySlot h.slotId fun slot => { slot with retiringLoadJob := retiring }

/-- The `DONE` branch of `LoadQueue::process_processing`, on the storage. -/
def stepDone (fuel : Nat) (st : Storage) (h : Handle) (dependencies : List Dependency) :
    Option Storage :=
  let evaluation := st.evaluate dependencies
  if evaluation.failed then some (st.failSlot h "dependency asset failed to load")
  else if !evaluation.ready then some (st.setState h ⟨.waitingDependencies, by decide⟩)
  else do
    let st ← st.commit fuel h dependencies
    let slot ← st.slotAt h.slotId
    return (st.pinCommittedDependencies slot.dependencies).finishLoaded h

/-- The part of `AssetSystem::load_impl` that creates the slot: allocate it, note the source,
cache the path of a file or memory load, and pin it once for the request. A request for type 0 does
not get this far. -/
def createAsset (type : Option AssetTypeDesc) (st : Storage) (typeId : TypeId) (path : Path)
    (source : LoadSource) : Option (Storage × Handle) := do
  guard (typeId ≠ 0)
  let (st, h) ← allocateSlot type st typeId path
  let st := st.modifySlot h.slotId fun slot => { slot with source := source }
  let st := if source ≠ .builder ∧ path ≠ [] then st.cachePath typeId path h else st
  return (st.modifySlot h.slotId fun slot => { slot with pinCount := 1 }, h)

end Storage

inductive Action where
  | create (type : Option AssetTypeDesc) (typeId : TypeId) (path : Path) (source : LoadSource)
  | setState (h : Handle) (state : ProgressState)
  | failSlot (h : Handle) (error : String)
  | setRetiring (h : Handle) (retiring : Bool)
  | stepDone (h : Handle) (dependencies : List Dependency)
  | retain (h : Handle)
  | release (h : Handle)
  | markModified (h : Handle)
  | tryUnload (h : Handle)
  | forceDestroy (typeId : TypeId)
  deriving DecidableEq, Repr

/-- What an action does to the storage; `none` when it does not return. A refused `retain` or
`release` changes nothing. -/
def Action.apply (fuel : Nat) (st : Storage) : Action → Option Storage
  | .create type typeId path source => (st.createAsset type typeId path source).map Prod.fst
  | .setState h state => some (st.setState h state)
  | .failSlot h error => some (st.failSlot h error)
  | .setRetiring h retiring => some (st.setRetiring h retiring)
  | .stepDone h dependencies => st.stepDone fuel h dependencies
  | .retain h =>
    match st.retain h with
    | .ok st' => some st'
    | .error _ => some st
  | .release h =>
    match st.release fuel h with
    | some (.ok st') => some st'
    | some (.error _) => some st
    | none => none
  | .markModified h => some (st.markModified h)
  | .tryUnload h => Storage.tryUnloadSlot (Storage.destroySlot fuel) st h
  | .forceDestroy typeId => st.forceDestroyAssets fuel typeId

def Action.isForceDestroy : Action → Bool
  | .forceDestroy _ => true
  | _ => false

structure History where
  /-- The pins the callers hold: one for the load that created the slot, one for each `retain` that
  returned true, less one for each `release` that did. -/
  userPins : Handle → Int
  created : List Handle
  loaded : List Handle
  /-- The `REQUIRED` dependencies an asset was loaded with. -/
  required : Handle → List Handle

def History.init : History := ⟨fun _ => 0, [], [], fun _ => []⟩

def Action.record (st : Storage) (history : History) : Action → History
  | .create type typeId path source =>
    match st.createAsset type typeId path source with
    | some (_, h) =>
      { history with
        userPins := Function.update history.userPins h 1
        created := h :: history.created
        required := Function.update history.required h [] }
    | none => history
  | .retain h =>
    match st.retain h with
    | .ok _ =>
      { history with userPins := Function.update history.userPins h (history.userPins h + 1) }
    | .error _ => history
  | .release h =>
    if st.isReleasable h then
      { history with userPins := Function.update history.userPins h (history.userPins h - 1) }
    else history
  | .stepDone h dependencies =>
    let evaluation := st.evaluate dependencies
    if !evaluation.failed && evaluation.ready then
      let asset := st.currentHandle h.slotId
      { history with
        loaded := asset :: history.loaded
        required := Function.update history.required asset
          ((dependencies.filter fun dep => dep.requirement = .required).map (·.depRef)) }
    else history
  | _ => history

structure Recorded where
  storage : Storage
  history : History

def Recorded.init : Recorded := ⟨Storage.init, History.init⟩

def Recorded.step (fuel : Nat) (r : Recorded) (a : Action) : Option Recorded :=
  (a.apply fuel r.storage).map fun st => ⟨st, a.record r.storage r.history⟩

structure Traced (fuel : Nat) where
  recorded : Recorded
  log : List Action
  replays : run (Recorded.step fuel) Recorded.init log = some recorded

namespace Traced

variable {fuel : Nat}

def init : Traced fuel := ⟨Recorded.init, [], rfl⟩

def storage (t : Traced fuel) : Storage := t.recorded.storage

def perform (t : Traced fuel) (a : Action) : Option (Traced fuel) :=
  match h : t.recorded.step fuel a with
  | none => none
  | some r => some ⟨r, t.log ++ [a], by rw [run_snoc t.replays, h]⟩

end Traced

end PulseEngine.Asset
