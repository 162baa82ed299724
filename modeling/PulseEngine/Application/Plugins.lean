import PulseEngine.Library.Run

/-!
# The plugins of an app

The plugin side of `App` in `app.cppm` and `app_impl.cpp`. A build callback is the environment's: it runs
from the moment its plugin is pushed until it returns, and the calls it makes meanwhile are events of
their own. `drain_pending_plugins` is therefore suspended at every build callback and goes on when
the callback returns. The error messages, the contexts, the runner and the world are left out.
-/

namespace PulseEngine.Application

open Library

abbrev Name := List Char

/-- `Plugin`; a callback is given by whether it is set. -/
structure Plugin where
  name : Name
  build : Bool
  postBuild : Bool
  shutdown : Bool
  dependencies : List Name
  deriving DecidableEq, Repr

structure RegisteredPlugin where
  plugin : Plugin
  shutdownDone : Bool
  deriving DecidableEq, Repr

inductive State where
  | created
  | building
  | postBuilding
  | running
  | shutdown
  deriving DecidableEq, Repr

inductive PluginBuildResult where
  | ok
  | invalidArgument
  | invalidState
  | duplicatePlugin
  | internal
  deriving DecidableEq, Repr

inductive AddPluginResult where
  | ok
  | invalidArgument
  | invalidState
  | duplicatePlugin
  | pluginBuildFailed
  | missingPluginDependency
  | circularPluginDependency
  | internal
  deriving DecidableEq, Repr

/-- The result of `drain_pending_plugins` when a build callback failed. -/
def PluginBuildResult.toAddPluginResult : PluginBuildResult → AddPluginResult
  | .invalidArgument => .invalidArgument
  | .invalidState => .invalidState
  | .duplicatePlugin => .duplicatePlugin
  | .internal => .internal
  | .ok => .internal

inductive Call where
  | build (plugin : Plugin)
  | built (plugin : Plugin)
  | failed (plugin : Plugin)
  | postBuild (index : Nat)
  | shutdown (plugin : Plugin)
  deriving DecidableEq, Repr

/-- `App`; `ready` is the part of the batch of `drain_pending_plugins` that is not built yet, `log` is the
history. -/
structure App where
  plugins : List RegisteredPlugin
  pendingPlugins : List Plugin
  state : State
  ready : List Plugin
  log : List Call
  deriving DecidableEq, Repr

namespace App

def init : App := ⟨[], [], .created, [], []⟩

def hasPlugin (a : App) (name : Name) : Bool := a.plugins.any fun entry => entry.plugin.name = name

def hasPendingPlugin (a : App) (name : Name) : Bool :=
  a.pendingPlugins.any fun entry => entry.name = name

def pluginDependenciesSatisfied (a : App) (plugin : Plugin) : Bool :=
  plugin.dependencies.all a.hasPlugin

def pluginDependenciesRegistered (a : App) (plugin : Plugin) : Bool :=
  plugin.dependencies.all fun dependency =>
    a.hasPlugin dependency || a.hasPendingPlugin dependency

def pendingPluginsSatisfiable (a : App) : Bool :=
  a.pendingPlugins.all a.pluginDependenciesRegistered

def validatePlugin (a : App) (plugin : Plugin) : AddPluginResult :=
  if plugin.name = [] then .invalidArgument
  else if a.hasPlugin plugin.name || a.hasPendingPlugin plugin.name then .duplicatePlugin
  else .ok

/-- The `for` loop of `drain_pending_plugins` over the rest of a batch, up to the first build callback;
`true` if one is running now. -/
def buildReady : List Plugin → App → App × Bool
  | [], a => ({ a with ready := [] }, false)
  | entry :: ready, a =>
    let a : App := { a with
      plugins := a.plugins ++ [⟨entry, false⟩], log := a.log ++ [.build entry] }
    if entry.build then ({ a with ready := ready }, true)
    else buildReady ready { a with log := a.log ++ [.built entry] }

/-- The `while` loop of `drain_pending_plugins`; without a result while a build callback is running. It
turns at most once for each pending plugin. -/
def drainLoop : Nat → App → App × Option AddPluginResult
  | 0, a => (a, none)
  | turns + 1, a =>
    if a.pendingPlugins = [] then ({ a with state := .created }, some .ok)
    else
      let (ready, pending) := a.pendingPlugins.partition a.pluginDependenciesSatisfied
      if ready = [] then
        ({ a with state := .created },
          some (if a.pendingPluginsSatisfiable then .circularPluginDependency
            else .missingPluginDependency))
      else
        match buildReady ready { a with pendingPlugins := pending } with
        | (a, true) => (a, none)
        | (a, false) => drainLoop turns a

def drainPendingPlugins (a : App) : App × Option AddPluginResult :=
  if a.state = .building then (a, some .ok)
  else drainLoop (a.pendingPlugins.length + 1) { a with state := .building }

/-- The rest of `drain_pending_plugins` after the build callback of the last plugin returned. -/
def buildReturns (a : App) (result : PluginBuildResult) : App × Option AddPluginResult :=
  match a.plugins.getLast? with
  | none => (a, none)
  | some built =>
    if result ≠ .ok then
      ({ a with
        plugins := a.plugins.dropLast, state := .created, ready := []
        log := a.log ++ [.failed built.plugin] }, some result.toAddPluginResult)
    else
      match buildReady a.ready { a with log := a.log ++ [.built built.plugin] } with
      | (a, true) => (a, none)
      | (a, false) => drainLoop (a.pendingPlugins.length + 1) a

def addPlugin (a : App) (plugin : Plugin) : App × Option AddPluginResult :=
  if a.state ≠ .created ∧ a.state ≠ .building then (a, some .invalidState)
  else
    match a.validatePlugin plugin with
    | .ok =>
      let a : App := { a with pendingPlugins := a.pendingPlugins ++ [plugin] }
      if a.state = .building then (a, some .ok)
      else if a.pendingPluginsSatisfiable then a.drainPendingPlugins
      else (a, some .ok)
    | result => (a, some result)

def shutdownPlugins (plugins : List RegisteredPlugin) : List Call :=
  plugins.reverse.filterMap fun entry =>
    if !entry.shutdownDone && entry.plugin.shutdown then some (.shutdown entry.plugin) else none

def teardown (a : App) : App :=
  if a.state = .shutdown then a
  else
    { a with
      plugins := a.plugins.map fun entry => { entry with shutdownDone := true }
      log := a.log ++ shutdownPlugins a.plugins
      state := .shutdown }

/-- What can happen to an app: `addPlugin` is a call of `add_plugin`, from a build callback while one is
running; `prepare` is `prepare` up to the end of `drain_pending_plugins`; `postBuild` and `running` are
the rest of it, which only changes the state; `buildReturns` ends the build callback that is
running. -/
inductive Event where
  | addPlugin (plugin : Plugin)
  | prepare
  | buildReturns (result : PluginBuildResult)
  | postBuild (result : PluginBuildResult)
  | running
  | teardown
  deriving DecidableEq, Repr

def step (a : App) : Event → Option App
  | .addPlugin plugin => some (a.addPlugin plugin).1
  | .prepare => some (if a.state = .created then a.drainPendingPlugins.1 else a)
  | .buildReturns result =>
    if a.state = .building then some (a.buildReturns result).1 else none
  | .postBuild result =>
    if a.state = .created then
      some { a with state := if result = .ok then .created else .postBuilding }
    else none
  | .running => if a.state = .created then some { a with state := .running } else none
  | .teardown => if a.state ≠ .building then some a.teardown else none

end App

end PulseEngine.Application
