import PulseEngine.Asset.LoadQueue
import PulseEngine.Datatable.Registry

/-!
# Tables that are being loaded

The loads of tables in the asset system: `AssetSystem::load_impl`, `LoadQueue::process` and the
first part of `step_data_table_load`, which requests the tables that a table refers to and waits for
them by returning `PENDING`. A table is loaded from a file and without dependencies, so that its job
is never in the phase `WaitingDependencies`; nothing is released, so that a slot keeps its table. The
rest of `step_data_table_load` is `Registry.step`.
-/

namespace PulseEngine.Datatable

open Asset Library

def dataTableType : TypeId := 0x3000

structure TableAsset where
  path : Path
  state : AssetState
  deriving DecidableEq

/-- `LoadJobPhase`, as far as the load of a table gets. -/
inductive TablePhase where
  | pendingRead
  | processing
  deriving DecidableEq, Repr

/-- The `LoadJob` of a table with the `LoadState` of its loader. A handle is the index of its
slot. -/
structure TableJob where
  asset : Nat
  phase : TablePhase
  terminal : Bool
  bytes : List UInt8
  dependenciesRequested : Bool
  dependencies : List Nat
  deriving DecidableEq

def TableJob.queued (asset : Nat) : TableJob := ⟨asset, .pendingRead, false, [], false, []⟩

/-- The tables of an asset system: the registry of tables, the slots, the path cache and the
queue. -/
structure Tables where
  registry : Registry
  assets : List TableAsset
  pathCache : Path → Option Nat
  jobs : List TableJob
  maxRequestsPerUpdate : Nat

/-- Where the files come from: what reading a path gives, and what its bytes decode to in a registry
while the table of a handle is filled. -/
structure Files where
  readFile : Path → Option (List UInt8)
  parse : Registry → Handle → List UInt8 → Option File

def handleOf (asset : Nat) : Handle := ⟨dataTableType, asset + 1, 1⟩

def siblingPath (path schema : Path) : Path :=
  (path.reverse.dropWhile fun c => c ≠ '/' && c ≠ '\\').reverse ++ schema ++
    ['.', 'd', 'a', 't', 'a', 't', 'a', 'b', 'l', 'e']

namespace Tables

def init (maxRequestsPerUpdate : Nat) : Tables :=
  ⟨Registry.init, [], fun _ => none, [], maxRequestsPerUpdate⟩

def getState (s : Tables) (asset : Nat) : AssetState :=
  ((s.assets[asset]?).map (·.state)).getD .empty

def pathOf (s : Tables) (asset : Nat) : Path := ((s.assets[asset]?).map (·.path)).getD []

def setState (s : Tables) (asset : Nat) (state : AssetState) : Tables :=
  { s with assets := s.assets.modify asset fun a => { a with state := state } }

/-- The part of `AssetSystem::load_impl` that allocates a slot and queues its job. -/
def startLoad (s : Tables) (slotPath : Path) : Tables :=
  { s with
    assets := s.assets ++ [⟨slotPath, .waitingLoad⟩]
    pathCache := Function.update s.pathCache slotPath (some s.assets.length)
    jobs := s.jobs ++ [TableJob.queued s.assets.length] }

/-- `AssetSystem::load_impl` for the file of a table. -/
def load (s : Tables) (path : Path) (skipCache : Bool) : Tables × Option Nat :=
  let slotPath := AssetIo.normalizePath path
  if slotPath = [] ∨
      AssetIo.extensionFromPath slotPath ≠ ['d', 'a', 't', 'a', 't', 'a', 'b', 'l', 'e'] then
    (s, none)
  else
    match if skipCache then none
      else (s.pathCache slotPath).filter (s.getState · ≠ .pendingDelete) with
    | some cached => (s, some cached)
    | none => (s.startLoad slotPath, some s.assets.length)

def findLoaded (s : Tables) (path : Path) : Option Nat :=
  if path = [] then none
  else (s.pathCache (AssetIo.normalizePath path)).filter (s.getState · = .loaded)

def requestPath (s : Tables) (path : Path) : Tables × Option Nat :=
  match s.findLoaded path with
  | some loaded => (s, some loaded)
  | none => s.load path false

/-- The loop of `step_data_table_load` that requests the tables of the reference columns, with the
dependencies it has so far. -/
def requestReferences (path : Path) :
    List Path → List Nat → Tables → Tables × List Nat × Option DataTableError
  | [], dependencies, s => (s, dependencies, none)
  | name :: names, dependencies, s =>
    match s.registry.findSchema name with
    | none => (s, dependencies, some .schemaIsNotRegistered)
    | some _ =>
      match s.requestPath (siblingPath path name) with
      | (s, none) => (s, dependencies, some .schemaIsNotRegistered)
      | (s, some asset) => requestReferences path names (dependencies ++ [asset]) s

/-- What `step_data_table_load` makes of the state of a dependency. -/
def referenceState (s : Tables) (asset : Nat) : ReferenceState :=
  match s.getState asset with
  | .failed | .empty | .pendingDelete => .gone
  | .loaded => .loaded
  | _ => .inProgress

variable (files : Files)

def stepDataTableLoad (s : Tables) (job : TableJob) : Tables × TableJob × LoaderStatus :=
  let path := s.pathOf job.asset
  match s.registry.findSchema (schemaNameFromPath path) with
  | none => (s, job, .failed .noSchemaForType)
  | some schema =>
    match if job.dependenciesRequested then (s, job.dependencies, none)
      else requestReferences path schema.references job.dependencies s with
    | (s, dependencies, some error) =>
      (s, { job with dependencies := dependencies }, .failed error)
    | (s, dependencies, none) =>
      let job := { job with dependenciesRequested := true, dependencies := dependencies }
      let result := s.registry.step
        { handle := handleOf job.asset
          path := path
          dependenciesRequested := true
          requestsValid := true
          references := dependencies.map s.referenceState
          file := files.parse s.registry (handleOf job.asset) job.bytes }
      ({ s with registry := result.1 }, job, result.2)

def processProcessing (s : Tables) (job : TableJob) : Tables × TableJob :=
  match s.stepDataTableLoad files job with
  | (s, job, .pending) => (s, job)
  | (s, job, .done) => (s.setState job.asset .loaded, { job with terminal := true })
  | (s, job, .failed _) => (s.setState job.asset .failed, { job with terminal := true })

def processPendingRead (s : Tables) (job : TableJob) : Tables × TableJob :=
  let s := s.setState job.asset .loading
  match files.readFile (s.pathOf job.asset) with
  | none => (s.setState job.asset .failed, { job with terminal := true })
  | some bytes =>
    let s := s.setState job.asset .processing
    s.processProcessing files { job with bytes := bytes, phase := .processing }

def processJob (s : Tables) (job : TableJob) : Tables × TableJob :=
  match job.phase with
  | .pendingRead => s.processPendingRead files job
  | .processing => s.processProcessing files job

def place (s : Tables) (position : Nat) (job : TableJob) : Tables :=
  { s with jobs := s.jobs.set position job }

/-- The end of a turn of the loop of `LoadQueue::process`: a job that is terminal is erased. The
second component is the next position. -/
def endTurn (s : Tables) (position : Nat) (job : TableJob) : Tables × Nat :=
  if job.terminal then ({ s with jobs := s.jobs.eraseIdx position }, position)
  else (s.place position job, position + 1)

/-- One turn of the loop of `LoadQueue::process`: the job at a position is processed. -/
def turn (s : Tables) (position : Nat) (job : TableJob) : Tables × Nat :=
  let (s, job) := s.processJob files job
  s.endTurn position job

def processLoop : Nat → Nat → Tables → Tables
  | 0, _, s => s
  | turns + 1, position, s =>
    match s.jobs[position]? with
    | none => s
    | some job =>
      let (s, position) := s.turn files position job
      processLoop turns position s

def visits (s : Tables) : Nat :=
  if 0 < s.maxRequestsPerUpdate then min s.jobs.length s.maxRequestsPerUpdate else s.jobs.length

def process (s : Tables) : Tables := processLoop files s.visits 0 s

/-- What happens from outside: a schema is registered, a table is requested, the queue is
processed. -/
inductive Event where
  | registerSchema (schema : Schema)
  | load (path : Path) (skipCache : Bool)
  | process

def apply (s : Tables) : Event → Tables
  | .registerSchema schema => { s with registry := s.registry.registerSchema schema }
  | .load path skipCache => (s.load path skipCache).1
  | .process => s.process files

def after (maxRequestsPerUpdate : Nat) (events : List Event) : Tables :=
  events.foldl (apply files) (init maxRequestsPerUpdate)

end Tables

end PulseEngine.Datatable
