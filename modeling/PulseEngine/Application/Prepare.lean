import PulseEngine.Application.Plugins

/-!
# Preparing a tree of apps

`App::prepare` and `App::post_build` of `app_impl.cpp`, which both go through the subapps. What the
callbacks do is read from a list, in the order in which they are called: a build callback adds plugins to
its own app and returns, a post-build callback returns. An app that is post-building rejects
every plugin.
-/

namespace PulseEngine.Application

inductive PrepareResult where
  | ok
  | invalidArgument
  | invalidState
  | pluginBuildFailed
  | missingPluginDependency
  | circularPluginDependency
  | pluginPostBuildFailed
  | subappPostBuildFailed
  | subappPrepareFailed
  | internal
  deriving DecidableEq, Repr

/-- The result of `prepare` when `drain_pending_plugins` failed. -/
def AddPluginResult.toPrepareResult : AddPluginResult → PrepareResult
  | .invalidArgument => .invalidArgument
  | .invalidState => .invalidState
  | .duplicatePlugin => .pluginBuildFailed
  | .pluginBuildFailed => .pluginBuildFailed
  | .missingPluginDependency => .missingPluginDependency
  | .circularPluginDependency => .circularPluginDependency
  | .internal => .internal
  | .ok => .internal

inductive Callback where
  | addPlugin (plugin : Plugin)
  | buildReturns (result : PluginBuildResult)
  | postBuildReturns (result : PluginBuildResult)
  deriving DecidableEq, Repr

/-- An app with its subapps, `App::subapps_`. -/
inductive Tree where
  | node (app : App) (subapps : List Tree)
  deriving Repr

namespace App

/-- The rest of `drain_pending_plugins`, with its build callbacks. -/
def finishDrain : List Callback → App × Option AddPluginResult →
    Option (App × AddPluginResult × List Callback)
  | callbacks, (a, some result) => some (a, result, callbacks)
  | .addPlugin plugin :: callbacks, (a, none) =>
    finishDrain callbacks ((a.addPlugin plugin).1, none)
  | .buildReturns result :: callbacks, (a, none) => finishDrain callbacks (a.buildReturns result)
  | _, _ => none

/-- The loop of `App::post_build` over the plugins from `index` on. -/
def postBuildPlugins : List Plugin → Nat → App → List Callback →
    Option (App × PrepareResult × List Callback)
  | [], _, a, callbacks => some (a, .ok, callbacks)
  | plugin :: plugins, index, a, callbacks =>
    if plugin.postBuild then
      match callbacks with
      | .postBuildReturns result :: callbacks =>
        let a : App := { a with log := a.log ++ [.postBuild index] }
        if result ≠ .ok then some (a, .pluginPostBuildFailed, callbacks)
        else postBuildPlugins plugins (index + 1) a callbacks
      | _ => none
    else postBuildPlugins plugins (index + 1) a callbacks

end App

mutual

def Tree.postBuild : Tree → List Callback → Option (Tree × PrepareResult × List Callback)
  | .node a subapps, callbacks => do
    let (a, result, callbacks) ← App.postBuildPlugins (a.plugins.map RegisteredPlugin.plugin) 0
      { a with state := .postBuilding } callbacks
    if result ≠ .ok then return (.node a subapps, result, callbacks)
    let (subapps, result, callbacks) ← Tree.postBuildSubapps subapps callbacks
    if result ≠ .ok then return (.node a subapps, result, callbacks)
    return (.node { a with state := .created } subapps, .ok, callbacks)

def Tree.postBuildSubapps : List Tree → List Callback →
    Option (List Tree × PrepareResult × List Callback)
  | [], callbacks => some ([], .ok, callbacks)
  | t :: ts, callbacks => do
    let (t, result, callbacks) ← Tree.postBuild t callbacks
    if result ≠ .ok then return (t :: ts, .subappPostBuildFailed, callbacks)
    let (ts, result, callbacks) ← Tree.postBuildSubapps ts callbacks
    return (t :: ts, result, callbacks)

end

mutual

def Tree.teardown : Tree → Tree
  | .node a subapps =>
    if a.state = .shutdown then .node a subapps
    else .node a.teardown (Tree.teardownSubapps subapps)

/-- The loop of `App::teardown` over the subapps, from the last one. -/
def Tree.teardownSubapps : List Tree → List Tree
  | [] => []
  | t :: ts => Tree.teardown t :: Tree.teardownSubapps ts

end

namespace Tree

def prepareSubapps (prepare : Tree → List Callback → Option (Tree × PrepareResult × List Callback)) :
    List Tree → List Callback → Option (List Tree × PrepareResult × List Callback)
  | [], callbacks => some ([], .ok, callbacks)
  | t :: ts, callbacks => do
    let (t, result, callbacks) ← prepare t callbacks
    if result ≠ .ok then return (t :: ts, .subappPrepareFailed, callbacks)
    let (ts, result, callbacks) ← prepareSubapps prepare ts callbacks
    return (t :: ts, result, callbacks)

def prepareDepth : Nat → Tree → List Callback → Option (Tree × PrepareResult × List Callback)
  | 0, _, _ => none
  | depth + 1, .node a subapps, callbacks => do
    if a.state ≠ .created then return (.node a subapps, .invalidState, callbacks)
    let (a, result, callbacks) ← App.finishDrain callbacks a.drainPendingPlugins
    if result ≠ .ok then return (.node a subapps, result.toPrepareResult, callbacks)
    let (.node a subapps, result, callbacks) ← Tree.postBuild (.node a subapps) callbacks
    if result ≠ .ok then return (.node a subapps, result, callbacks)
    let (subapps, result, callbacks) ← prepareSubapps (prepareDepth depth) subapps callbacks
    if result ≠ .ok then
      return (Tree.teardown (.node a subapps), .subappPrepareFailed, callbacks)
    return (.node { a with state := .running } subapps, .ok, callbacks)

def depth : Tree → Nat
  | .node _ subapps => depths subapps + 1
where
  depths : List Tree → Nat
    | [] => 0
    | t :: ts => max (depth t) (depths ts)

def prepare (t : Tree) (callbacks : List Callback) :
    Option (Tree × PrepareResult × List Callback) :=
  prepareDepth t.depth t callbacks

def find : Tree → List Nat → Option App
  | .node a _, [] => some a
  | .node _ subapps, i :: path => subapps[i]?.bind fun t => find t path

end Tree

end PulseEngine.Application
