import PulseEngine.Asset.Action
import PulseEngine.Asset.Basic

/-!
# The load queue and the asset system

`asset_loading.cpp` and `AssetSystem` of `asset.cpp`. A `LoadJob&` is the identifier of the job, and
the jobs are listed in queue order.

The behaviour of the loader callbacks is part of the input: a `JobScript` says for one turn of a
job what reading the file gives, and for each callback which calls it makes back into the system and
what it returns. A call that builds an asset brings the script of the job it runs at once. Since a
script is fixed in advance it stands for any callback that would make these calls in this run.
Callbacks run through `runCalls`, whose fuel bounds how deeply they nest.

A callback that unloads a type by force would free the job that is calling it, so `Call` leaves
that out. The settings of a job and the context it hands to its callbacks only matter to callbacks.
-/

namespace PulseEngine.Asset

open Library

/-- `EPulseAssetLoaderStatus`. -/
inductive LoaderStatus where
  | pending
  | done
  | failed
  | waitDependencies
  deriving DecidableEq, Repr

inductive LoadJobPhase where
  | pendingRead
  | waitingDependencies
  | processing
  deriving DecidableEq, Repr

inductive LoadJobOutcome where
  | none
  | loaded
  | failed
  | cancelled
  deriving DecidableEq, Repr

/-- `LoadRequest`. `dependenciesNull` is `dependencies == nullptr`. -/
structure LoadRequest where
  source : LoadSource
  typeId : TypeId
  loaderIdentifier : Option Path
  pathOrName : Option Path
  hasSettings : Bool
  skipCache : Bool
  data : Option (List UInt8)
  dependencies : List Dependency
  dependenciesNull : Bool
  deriving DecidableEq, Repr

/-- What the settings callbacks of a loader answer: the size of the deep copy and whether making it
succeeds. -/
structure SettingsScript where
  total : Nat
  copied : Bool
  deriving DecidableEq, Repr

/-- What happens around one job during one turn of the queue, with `C` the calls a callback
makes. -/
structure JobScript (C : Type) where
  readFile : Option (List UInt8)
  ctor : List C
  ctorOk : Bool
  step : List C
  status : LoaderStatus
  error : Option String
  dtor : List C

/-- A call into the asset system. `cancel` is `release`. -/
inductive Call where
  | load (request : LoadRequest) (settings : SettingsScript) (script : JobScript Call)
  | retain (h : Handle)
  | release (h : Handle)
  | markModified (h : Handle)
  | addDependency (dependency : Handle) (requirement : Requirement)

abbrev JobId := Nat

structure LoadJob where
  id : JobId
  handle : Handle
  phase : LoadJobPhase
  source : LoadSource
  memoryData : List UInt8
  bytes : List UInt8
  loader : Option AssetLoader
  loaderConstructed : Bool
  dependencies : List Dependency
  outcome : LoadJobOutcome
  deriving DecidableEq, Repr

def LoadJob.isTerminal (job : LoadJob) : Bool := job.outcome != .none

def LoadJob.addDependency (job : LoadJob) (dependency : Handle) (requirement : Requirement) :
    LoadJob :=
  if job.dependencies.any (·.depRef = dependency) then
    if requirement = .optional then job
    else
      { job with
        dependencies := job.dependencies.map fun existing =>
          if existing.depRef = dependency then { existing with requirement := .required }
          else existing }
  else { job with dependencies := job.dependencies ++ [⟨dependency, requirement⟩] }

inductive LoaderCallback where
  | ctor (ok : Bool)
  | step
  | dtor
  deriving DecidableEq, Repr

/-- `AssetSystem`. `callbacks` are the loader callbacks run so far, and `queued` are the jobs in the order
in which they were queued, as they were then. -/
structure System (fuel : Nat) where
  registry : AssetRegistry
  traced : Traced fuel
  jobs : List LoadJob
  nextJobId : JobId
  maxRequestsPerUpdate : Nat
  callbacks : List (JobId × LoaderCallback)
  queued : List LoadJob

namespace System

variable {fuel : Nat}

def init (maxRequestsPerUpdate : Nat) : System fuel :=
  ⟨AssetRegistry.init, Traced.init, [], 0, maxRequestsPerUpdate, [], []⟩

def storage (s : System fuel) : Storage := s.traced.storage

def act (s : System fuel) (a : Action) : Option (System fuel) :=
  (s.traced.perform a).map fun t => { s with traced := t }

def findJob (s : System fuel) (id : JobId) : Option LoadJob := s.jobs.find? (·.id = id)

def modifyJob (s : System fuel) (id : JobId) (f : LoadJob → LoadJob) : System fuel :=
  { s with jobs := s.jobs.map fun job => if job.id = id then f job else job }

def eraseJob (s : System fuel) (id : JobId) : System fuel :=
  { s with jobs := s.jobs.filter (·.id ≠ id) }

def spliceJob (s : System fuel) (id : JobId) : System fuel :=
  { s with jobs := s.jobs.filter (·.id ≠ id) ++ s.jobs.filter (·.id = id) }

/-- The iterator after a job; `none` is `jobs_.end()`. -/
def nextJob (s : System fuel) (id : JobId) : Option JobId :=
  ((s.jobs.dropWhile (·.id ≠ id)).tail.head?).map (·.id)

def logCallback (s : System fuel) (id : JobId) (callback : LoaderCallback) : System fuel :=
  { s with callbacks := s.callbacks ++ [(id, callback)] }

def enqueue (s : System fuel) (job : LoadJob) : System fuel :=
  { s with
    jobs := s.jobs ++ [job], nextJobId := s.nextJobId + 1, queued := s.queued ++ [job] }

/-- `LoadJob::finish` for `Failed` and `Cancelled`; `Loaded` is part of `Storage.stepDone`. The slot
is that of the job's handle, or null. -/
def finish (s : System fuel) (id : JobId) (hasSlot : Bool) (outcome : LoadJobOutcome)
    (error : Option String) : Option (System fuel) := do
  let job ← s.findJob id
  if job.isTerminal ∨ outcome = .none then return s
  let s := s.modifyJob id fun job => { job with outcome := outcome }
  if !hasSlot then return s
  match outcome with
  | .failed => s.act (.failSlot job.handle (error.getD "asset load failed"))
  | .cancelled => s.act (.failSlot job.handle (error.getD "asset load cancelled"))
  | _ => return s

abbrev RunCalls (fuel : Nat) := Option JobId → List Call → System fuel → Option (System fuel)

def processProcessing (runCalls : RunCalls fuel) (s : System fuel) (id : JobId)
    (script : JobScript Call) : Option (System fuel) := do
  let s := s.logCallback id .step
  let s ← runCalls (some id) script.step s
  let job ← s.findJob id
  let slot ← s.storage.slotAt job.handle.slotId
  if slot.state = .pendingDelete then
    s.finish id true .cancelled (some "asset load cancelled")
  else if job.isTerminal then return s
  else
    match script.status with
    | .pending => return s
    | .waitDependencies =>
      let s ← s.act (.setState job.handle ⟨.waitingDependencies, rfl⟩)
      return s.modifyJob id fun job => { job with phase := .waitingDependencies }
    | .done =>
      let evaluation := s.storage.evaluate job.dependencies
      let s ← s.act (.stepDone job.handle job.dependencies)
      if evaluation.failed then return s.modifyJob id fun job => { job with outcome := .failed }
      else if !evaluation.ready then
        return s.modifyJob id fun job => { job with phase := .waitingDependencies }
      else return s.modifyJob id fun job => { job with outcome := .loaded }
    | .failed =>
      s.finish id true .failed (some (script.error.getD "asset loader step failed"))

def constructJobLoader (runCalls : RunCalls fuel) (s : System fuel) (id : JobId)
    (script : JobScript Call) : Option (System fuel × Option String) := do
  let job ← s.findJob id
  let slot ← s.storage.slotAt job.handle.slotId
  let s :=
    if job.loader = none ∧ slot.path ≠ [] then
      s.modifyJob id fun job =>
        { job with loader := s.registry.findLoader job.handle.typeId slot.path }
    else s
  let job ← s.findJob id
  match job.loader with
  | none => return (s, some "no loader registered for asset request")
  | some loader =>
    if loader.desc.loaderSize ≠ 0 ∧ loader.desc.loaderAlign = 0 then
      return (s, some "failed to allocate asset loader state")
    else if loader.desc.hasCtor then
      let s := s.logCallback id (.ctor script.ctorOk)
      let s ← runCalls none script.ctor s
      if !script.ctorOk then return (s, some "asset loader begin failed")
      else
        let s := s.modifyJob id fun job => { job with loaderConstructed := true }
        let job ← s.findJob id
        if job.isTerminal then return (s, some "asset load cancelled")
        else return (s, none)
    else return (s.modifyJob id fun job => { job with loaderConstructed := true }, none)

/-- The bytes a job starts from, `none` when the file cannot be read. -/
def readSource (job : LoadJob) (script : JobScript Call) : Option (List UInt8) :=
  match job.source with
  | .memory => some job.memoryData
  | .file => script.readFile
  | .builder => some []

def processPendingRead (runCalls : RunCalls fuel) (s : System fuel) (id : JobId)
    (script : JobScript Call) (processImmediately : Bool) : Option (System fuel) := do
  let job ← s.findJob id
  let evaluation := s.storage.evaluate job.dependencies
  if evaluation.failed then
    s.finish id true .failed (some "dependency asset failed to load")
  else if !evaluation.ready then
    let s ← s.act (.setState job.handle ⟨.waitingDependencies, rfl⟩)
    return s.modifyJob id fun job => { job with phase := .waitingDependencies }
  else
    let s ← s.act (.setState job.handle ⟨.loading, rfl⟩)
    match readSource job script with
    | none => s.finish id true .failed (some "failed to read asset file")
    | some bytes =>
      let s := s.modifyJob id fun job =>
        { job with
          bytes := bytes
          memoryData := if job.source = .memory then [] else job.memoryData }
      let (s, error) ← constructJobLoader runCalls s id script
      match error with
      | some error =>
        let job ← s.findJob id
        if job.isTerminal then return s
        else s.finish id true .failed (some error)
      | none =>
        let s ← s.act (.setState job.handle ⟨.processing, rfl⟩)
        let s := s.modifyJob id fun job => { job with phase := .processing }
        if processImmediately then processProcessing runCalls s id script else return s

def processWaitingDependencies (runCalls : RunCalls fuel) (s : System fuel) (id : JobId)
    (script : JobScript Call) : Option (System fuel) := do
  let job ← s.findJob id
  let evaluation := s.storage.evaluate job.dependencies
  if evaluation.failed then
    s.finish id true .failed (some "dependency asset failed to load")
  else if !evaluation.ready then s.act (.setState job.handle ⟨.waitingDependencies, rfl⟩)
  else if !job.loaderConstructed then
    let s := s.modifyJob id fun job => { job with phase := .pendingRead }
    processPendingRead runCalls s id script false
  else
    let s ← s.act (.setState job.handle ⟨.processing, rfl⟩)
    let s := s.modifyJob id fun job => { job with phase := .processing }
    processProcessing runCalls s id script

def processJob (runCalls : RunCalls fuel) (s : System fuel) (id : JobId)
    (script : JobScript Call) : Option (System fuel) := do
  let job ← s.findJob id
  if job.isTerminal then return s
  else
    match s.storage.getSlot job.handle with
    | none => s.finish id false .failed none
    | some slot =>
      if slot.state = .pendingDelete then
        s.finish id true .cancelled (some "asset load cancelled")
      else
        match job.phase with
        | .pendingRead => processPendingRead runCalls s id script true
        | .waitingDependencies => processWaitingDependencies runCalls s id script
        | .processing => processProcessing runCalls s id script

def retireLoadJob (runCalls : RunCalls fuel) (s : System fuel) (id : JobId)
    (script : JobScript Call) : Option (System fuel × Bool) := do
  let job ← s.findJob id
  let hasSlot := (s.storage.getSlot job.handle).isSome
  let s ←
    if job.loaderConstructed ∧ job.loader.any (·.desc.hasDtor) then do
      let s ← if hasSlot then s.act (.setRetiring job.handle true) else some s
      let s := s.logCallback id .dtor
      let s ← runCalls none script.dtor s
      if hasSlot then s.act (.setRetiring job.handle false) else some s
    else some s
  return (s.modifyJob id fun job =>
    { job with loader := none, loaderConstructed := false, bytes := [], memoryData := [] }, hasSlot)

def retireAndErase (runCalls : RunCalls fuel) (s : System fuel) (id : JobId)
    (script : JobScript Call) : Option (System fuel) := do
  let job ← s.findJob id
  let (s, hasSlot) ← retireLoadJob runCalls s id script
  let s := s.eraseJob id
  if hasSlot then s.act (.tryUnload job.handle) else return s

def chooseInitialPhase (h : Handle) : List Dependency → Bool → System fuel →
    Option (System fuel × LoadJobPhase)
  | [], unresolved, s =>
    some (s, if unresolved then .waitingDependencies else .pendingRead)
  | dep :: deps, unresolved, s =>
    if !dep.depRef.isValid then
      if dep.requirement = .optional then chooseInitialPhase h deps unresolved s
      else (s.act (.failSlot h "required dependency has null handle")).bind
        (chooseInitialPhase h deps unresolved)
    else
      match s.storage.getSlot dep.depRef with
      | none =>
        if dep.requirement = .optional then chooseInitialPhase h deps unresolved s
        else (s.act (.failSlot h "required dependency handle is invalid")).bind
          (chooseInitialPhase h deps unresolved)
      | some slot =>
        if slot.state = .failed ∧ dep.requirement ≠ .optional then
          (s.act (.failSlot h "dependency asset failed to load")).bind
            (chooseInitialPhase h deps unresolved)
        else if slot.state ≠ .loaded ∧ dep.requirement ≠ .optional then
          chooseInitialPhase h deps true s
        else chooseInitialPhase h deps unresolved s

def copyRequestSettings (loader : AssetLoader) (request : LoadRequest)
    (settings : SettingsScript) : Bool :=
  if loader.desc.settingsSize = 0 ∨ !request.hasSettings then true
  else if loader.desc.hasSettingsSizeFn ∧ loader.desc.hasSettingsCopyFn then
    if settings.total < loader.desc.settingsSize ∨ uint32Size ≤ settings.total then false
    else settings.copied
  else true

def initLoadJob (s : System fuel) (request : LoadRequest) (h : Handle) (loader : AssetLoader)
    (phase : LoadJobPhase) : LoadJob where
  id := s.nextJobId
  handle := h
  phase := phase
  source := request.source
  memoryData := if request.source = .memory then request.data.getD [] else []
  bytes := []
  loader := some loader
  loaderConstructed := false
  dependencies := if request.dependenciesNull then [] else request.dependencies
  outcome := .none

def processImmediateBuilder (runCalls : RunCalls fuel) (s : System fuel) (id : JobId)
    (script : JobScript Call) : Option (System fuel × LoadJobOutcome) := do
  let s ← processJob runCalls s id script
  let job ← s.findJob id
  let s ← if job.isTerminal then retireAndErase runCalls s id script else some s
  return (s, job.outcome)

/-- The loader of a request, with the checks `AssetSystem::load_impl` makes before it. -/
def requestLoader (s : System fuel) (request : LoadRequest) (slotPath : Path) :
    Option AssetLoader :=
  if request.typeId = 0 ∨ s.registry.findType request.typeId = none ∨
      (request.dependencies ≠ [] ∧ request.dependenciesNull) then none
  else if request.source = .builder then
    s.registry.findBuilderLoader request.typeId (request.loaderIdentifier.getD [])
  else if slotPath = [] then none
  else if request.source = .memory ∧ (request.data.getD [] = []) then none
  else s.registry.findLoader request.typeId slotPath

/-- The cached handle `AssetSystem::load_impl` answers with, if any. -/
def reusableHandle (s : System fuel) (request : LoadRequest) (slotPath : Path) : Option Handle :=
  if request.source ≠ .builder ∧ !request.skipCache then
    let cached := s.storage.findCached request.typeId slotPath
    if cached.isValid ∧ s.storage.cachedSlotCanBeReused cached then some cached else none
  else none

/-- `release_failed_builder`, or the handle for the other sources. -/
def failedLoad (s : System fuel) (request : LoadRequest) (h : Handle) :
    Option (System fuel × Handle) :=
  if request.source = .builder then (s.act (.release h)).map fun s => (s, Handle.invalid)
  else some (s, h)

/-- The part of `AssetSystem::load_impl` that queues the job of a new slot. -/
def startLoad (runCalls : RunCalls fuel) (s : System fuel) (request : LoadRequest)
    (settings : SettingsScript) (script : JobScript Call) (h : Handle) (loader : AssetLoader) :
    Option (System fuel × Handle) := do
  let dependencies := if request.dependenciesNull then [] else request.dependencies
  let (s, phase) ← chooseInitialPhase h dependencies false s
  let slot ← s.storage.slotAt h.slotId
  if slot.state = .failed then s.failedLoad request h
  else
    let s ← s.act (.setState h
      (if phase = .waitingDependencies then ⟨.waitingDependencies, rfl⟩ else ⟨.waitingLoad, rfl⟩))
    if !copyRequestSettings loader request settings then
      let s ← s.act (.failSlot h "failed to copy asset load settings")
      s.failedLoad request h
    else
      let job := s.initLoadJob request h loader phase
      let s := s.enqueue job
      if request.source = .builder ∧ phase = .pendingRead then
        let (s, outcome) ← processImmediateBuilder runCalls s job.id script
        if outcome = .failed ∨ outcome = .cancelled then s.failedLoad request h
        else return (s, h)
      else return (s, h)

def loadImpl (runCalls : RunCalls fuel) (s : System fuel) (request : LoadRequest)
    (settings : SettingsScript) (script : JobScript Call) : Option (System fuel × Handle) :=
  let slotPath := AssetIo.normalizePath (request.pathOrName.getD [])
  match s.requestLoader request slotPath with
  | none => some (s, Handle.invalid)
  | some loader =>
    match s.reusableHandle request slotPath with
    | some cached => some (s, cached)
    | none =>
      let type := (s.registry.findType request.typeId).map (·.desc)
      match s.storage.createAsset type request.typeId slotPath request.source with
      | none => some (s, Handle.invalid)
      | some (_, h) => do
        let s ← s.act (.create type request.typeId slotPath request.source)
        startLoad runCalls s request settings script h loader

/-- One call into the system, from outside or from a callback that holds a dependency hint. The
public wrappers of `retain` and `release` refuse an invalid handle, as `get_slot` does. -/
def execCall (runCalls : RunCalls fuel) (hint : Option JobId) (s : System fuel) :
    Call → Option (System fuel)
  | .load request settings script => (loadImpl runCalls s request settings script).map Prod.fst
  | .retain h => s.act (.retain h)
  | .release h => s.act (.release h)
  | .markModified h => s.act (.markModified h)
  | .addDependency dependency requirement =>
    match hint with
    | none => some s
    | some id => some (s.modifyJob id fun job => job.addDependency dependency requirement)

def runCalls : Nat → RunCalls fuel
  | 0, _, _, _ => none
  | depth + 1, hint, calls, s => calls.foldlM (execCall (runCalls depth) hint) s

/-- The loop of `LoadQueue::process`, with one script for each turn. -/
def processLoop : Nat → List (JobScript Call) → Option JobId → System fuel → Option (System fuel)
  | 0, _, _, s => some s
  | _, _, none, s => some s
  | _ + 1, [], some _, _ => none
  | turns + 1, script :: scripts, some id, s => do
    let s ← processJob (runCalls fuel) s id script
    let job ← s.findJob id
    let next := s.nextJob id
    if job.isTerminal then
      let s ← retireAndErase (runCalls fuel) s id script
      processLoop turns scripts next s
    else if job.phase = .waitingDependencies then processLoop turns scripts next (s.spliceJob id)
    else processLoop turns scripts next s

def process (s : System fuel) (scripts : List (JobScript Call)) : Option (System fuel) :=
  let turns :=
    if 0 < s.maxRequestsPerUpdate then min s.jobs.length s.maxRequestsPerUpdate
    else s.jobs.length
  processLoop turns scripts (s.jobs.head?.map (·.id)) s

/-- The loop of `LoadQueue::drain_pass`; the flag is `made_progress`. -/
def drainLoop : Nat → List (JobScript Call) → Option JobId → Bool → System fuel →
    Option (System fuel × Bool)
  | 0, _, _, progress, s => some (s, progress)
  | _, _, none, progress, s => some (s, progress)
  | _ + 1, [], some _, _, _ => none
  | turns + 1, script :: scripts, some id, progress, s => do
    let before ← s.findJob id
    let s ← processJob (runCalls fuel) s id script
    let job ← s.findJob id
    let progress := progress ||
      (!before.isTerminal && (job.isTerminal || job.phase != before.phase))
    let next := s.nextJob id
    if job.isTerminal then
      let s ← retireAndErase (runCalls fuel) s id script
      drainLoop turns scripts next progress s
    else if job.phase = .waitingDependencies then
      drainLoop turns scripts next progress (s.spliceJob id)
    else drainLoop turns scripts next progress s

def drainPass (s : System fuel) (scripts : List (JobScript Call)) :
    Option (System fuel × Bool) := do
  let before := s.jobs.length
  let (s, progress) ← drainLoop before scripts (s.jobs.head?.map (·.id)) false s
  return (s, progress || decide (before < s.jobs.length))

def drainLoads (s : System fuel) : List (List (JobScript Call)) → Option (System fuel)
  | [] => none
  | scripts :: passes => do
    let (s, again) ← s.drainPass scripts
    if again then drainLoads s passes else return s

/-- The loop of `LoadQueue::cancel_type`, with one script for each job it cancels. -/
def cancelTypeLoop (typeId : TypeId) : Nat → List (JobScript Call) → Option JobId → System fuel →
    Option (System fuel)
  | _, _, none, s => some s
  | 0, _, some _, _ => none
  | turns + 1, scripts, some id, s => do
    let job ← s.findJob id
    if job.handle.typeId ≠ typeId then cancelTypeLoop typeId turns scripts (s.nextJob id) s
    else
      match scripts with
      | [] => none
      | script :: scripts =>
        let s ← s.finish id (s.storage.getSlot job.handle).isSome .cancelled
          (some "asset load cancelled")
        let (s, hasSlot) ← retireLoadJob (runCalls fuel) s id script
        let next := s.nextJob id
        let s := s.eraseJob id
        let s ← if hasSlot then s.act (.tryUnload job.handle) else some s
        cancelTypeLoop typeId turns scripts next s

def cancelType (s : System fuel) (typeId : TypeId) (turns : Nat)
    (scripts : List (JobScript Call)) : Option (System fuel) :=
  cancelTypeLoop typeId turns scripts (s.jobs.head?.map (·.id)) s

def forceUnloadAssets (s : System fuel) (typeId : TypeId) (turns : Nat)
    (scripts : List (JobScript Call)) : Option (System fuel) :=
  if typeId = 0 then some s
  else do
    let s ← s.cancelType typeId turns scripts
    s.act (.forceDestroy typeId)

def finishAll (s : System fuel) : List JobId → Option (System fuel)
  | [] => some s
  | id :: ids => do
    let job ← s.findJob id
    let s ← s.finish id (s.storage.getSlot job.handle).isSome .cancelled
      (some "asset load cancelled")
    finishAll s ids

def retireAll : List (JobScript Call) → Option JobId → System fuel → Option (System fuel)
  | _, none, s => some s
  | [], some _, _ => none
  | script :: scripts, some id, s => do
    let (s, _) ← retireLoadJob (runCalls fuel) s id script
    retireAll scripts (s.nextJob id) s

def cancelAll (s : System fuel) (scripts : List (JobScript Call)) : Option (System fuel) := do
  let s ← s.finishAll (s.jobs.map (·.id))
  let s ← retireAll scripts (s.jobs.head?.map (·.id)) s
  return { s with jobs := [] }

def shutdown (s : System fuel) (scripts : List (JobScript Call)) (order : List TypeId) :
    Option Storage := do
  let s ← s.cancelAll scripts
  s.storage.destroyAllAssets fuel order

inductive Event where
  | registerType (desc : AssetTypeDesc)
  | registerLoader (desc : AssetLoaderDesc)
  | call (call : Call)
  | process (scripts : List (JobScript Call))
  | drainLoads (passes : List (List (JobScript Call)))
  | forceUnload (typeId : TypeId) (turns : Nat) (scripts : List (JobScript Call))

def step (s : System fuel) : Event → Option (System fuel)
  | .registerType desc => some { s with registry := (s.registry.registerType desc).2 }
  | .registerLoader desc => some { s with registry := (s.registry.registerLoader desc).2 }
  | .call call => runCalls fuel none [call] s
  | .process scripts => s.process scripts
  | .drainLoads passes => s.drainLoads passes
  | .forceUnload typeId turns scripts => s.forceUnloadAssets typeId turns scripts

def after (fuel maxRequestsPerUpdate : Nat) (events : List Event) : Option (System fuel) :=
  run step (init maxRequestsPerUpdate) events

end System

end PulseEngine.Asset
