import PulseEngine.Graphics.SyncProtocol

/-!
# The phases of a frame

The systems of `runtime/systems.cpp` that make a frame, with the swapchain functions of
`runtime/window.cpp` and `runtime/components.cpp` and the observers that run when a window is set
or removed. Between any two phases windows may be opened, set, resized, asked to close and removed,
and record callbacks be added and removed.

What the device answers is part of an event: whether a swapchain is created and with how many
back buffers, and which of them an acquire gives. A graph that was begun holds at least the command
buffer that `Executor::Execute` asks for; what is recorded into it does not matter here, and neither
does `current_backbuffer`, which only the graph reads.
-/

namespace PulseEngine.Graphics.FrameSync

open Library

/-- `PulseSwapchain`, without the views, the framebuffers and the current back buffer. Semaphore
`i` of its arrays is the pair of the handle and `i`. -/
structure Swapchain where
  handle : Option Nat
  count : Nat
  width : Int
  height : Int
  index : Nat
  deriving DecidableEq, Repr

def Swapchain.reset : Swapchain := ⟨none, 0, 0, 0, 0⟩

/-- The components of a window's entity. A surface comes with a swapchain component and goes with
it. -/
structure Window where
  width : Int
  height : Int
  resized : Bool
  closeRequested : Bool
  swapchain : Option Swapchain
  deriving DecidableEq, Repr

/-- `frame_data`: its command buffers in use, and whether it has an executor context. -/
structure FrameData where
  context : Bool
  cmds : Nat
  deriving DecidableEq, Repr

/-- `render_frame_context`. -/
structure FrameContext where
  frameIndex : Nat
  active : Bool
  submitted : Bool
  failed : Bool
  graph : Bool
  prepared : List Nat
  waits : List Semaphore
  signals : List Semaphore
  deriving DecidableEq, Repr

def FrameContext.reset : FrameContext := ⟨0, false, false, false, false, [], [], []⟩

inductive Phase where
  | beginFrame
  | resetBackbuffer
  | prepareWindows
  | recordGraph
  | executeGraph
  | submit
  | present
  deriving DecidableEq, Repr

/-- The state of the plugin: `phase` is the phase that comes next, `next` the handle of the next
swapchain, and `log` what the device was called for. -/
structure State where
  windows : Nat → Option Window
  frames : List FrameData
  frameIndex : Nat
  callbacks : Nat
  context : FrameContext
  phase : Phase
  next : Nat
  log : List Call

/-- After `create_renderer`, which gives every frame an executor context. -/
def State.start (imageCount : Nat) : State :=
  ⟨fun _ => none, List.replicate imageCount ⟨true, 0⟩, 0, 0, .reset, .beginFrame, 0, []⟩

def State.emit (s : State) (calls : List Call) : State := { s with log := s.log ++ calls }

def State.setWindow (s : State) (entity : Nat) (window : Option Window) : State :=
  { s with windows := Function.update s.windows entity window }

inductive Creation where
  | fails
  | incomplete (count : Nat)
  | complete (count : Nat)
  deriving DecidableEq, Repr

def Swapchain.release (swapchain : Swapchain) : List Call := swapchain.handle.toList.map .release

def createOrResize (next : Nat) (swapchain : Swapchain) (width height : Int) :
    Creation → Bool × List Call × Swapchain
  | .fails => (false, swapchain.release, ⟨none, 0, width, height, 0⟩)
  | .incomplete count =>
    (false, swapchain.release ++ [.create next count], ⟨some next, count, width, height, 0⟩)
  | .complete count =>
    (true, swapchain.release ++ [.create next count], ⟨some next, count, width, height, 0⟩)

def needsSwapchain (window : Window) (swapchain : Swapchain) : Bool :=
  swapchain.handle = none || swapchain.width ≠ window.width ||
    swapchain.height ≠ window.height || window.resized

def ensureSwapchain (next : Nat) (window : Window) (swapchain : Swapchain) (creation : Creation) :
    Bool × List Call × Swapchain :=
  if window.width ≤ 0 ∨ window.height ≤ 0 then (false, [], swapchain)
  else if needsSwapchain window swapchain then
    match createOrResize next swapchain window.width window.height creation with
    | (true, calls, swapchain) => (swapchain.handle.isSome, .waitIdle :: calls, swapchain)
    | (false, calls, swapchain) => (false, .waitIdle :: calls ++ swapchain.release, .reset)
  else (swapchain.handle.isSome, [], swapchain)

def noIndex : Nat := 2 ^ 32 - 1

def acquireWindowImage (swapchain : Swapchain) (frameIndex : Nat)
    (acquired : (count : Nat) → Option (Fin count)) : Bool × List Call × Swapchain :=
  match swapchain.handle with
  | none => (false, [], { swapchain with index := noIndex })
  | some handle =>
    if swapchain.count = 0 then (false, [], { swapchain with index := noIndex })
    else
      let image := (acquired swapchain.count).map (·.val)
      (image.any (· < swapchain.count),
        [.acquire handle (handle, frameIndex % swapchain.count) image],
        { swapchain with index := image.getD noIndex })

/-- `render_begin_frame_system_run`, with `frame_data::begin_frame`. -/
def State.beginFrame (s : State) : State :=
  let s := { s with context := .reset }
  if s.frames = [] then s
  else
    let slot := s.frameIndex % s.frames.length
    let s := s.emit [.waitFence slot, .resetSlot slot]
    { s with
      frames := s.frames.modify slot fun frame => { frame with cmds := 0 }
      context := { FrameContext.reset with frameIndex := slot, active := true } }

/-- A window that the query of the prepare phase comes to: its entity, and what the device
answers. -/
structure Visit where
  entity : Nat
  creation : Creation
  acquired : (count : Nat) → Option (Fin count)

def State.acquire (s : State) (visit : Visit) (window : Window) (swapchain : Swapchain) : State :=
  match acquireWindowImage swapchain s.context.frameIndex visit.acquired with
  | (acquired, calls, swapchain) =>
    let s := (s.setWindow visit.entity (some { window with swapchain := some swapchain })).emit calls
    if acquired then
      { s with
        context := { s.context with
          prepared := s.context.prepared ++ [visit.entity]
          waits := s.context.waits ++
            swapchain.handle.toList.map fun handle =>
              (handle, s.context.frameIndex % swapchain.count)
          signals := s.context.signals ++
            swapchain.handle.toList.map fun handle => (handle, swapchain.index) } }
    else s

def State.ensured (s : State) (entity : Nat) (window : Window) (calls : List Call)
    (swapchain : Swapchain) : State :=
  { (s.setWindow entity (some { window with swapchain := some swapchain })).emit calls with
    next := s.next + 1 }

/-- The body of the loop of `render_prepare_windows_system_run`. -/
def State.prepareSwapchain (s : State) (visit : Visit) (window : Window) (swapchain : Swapchain) :
    State :=
  match ensureSwapchain s.next window swapchain visit.creation with
  | (true, calls, swapchain) =>
    (s.ensured visit.entity window calls swapchain).acquire visit window swapchain
  | (false, calls, swapchain) => s.ensured visit.entity window calls swapchain

def State.prepareWindow (s : State) (visit : Visit) : State :=
  match s.windows visit.entity with
  | some ⟨width, height, resized, false, some swapchain⟩ =>
    s.prepareSwapchain visit ⟨width, height, resized, false, some swapchain⟩ swapchain
  | _ => s

def State.prepareWindows (s : State) (visits : List Visit) : State :=
  if s.context.active ∧ s.callbacks ≠ 0 then visits.foldl State.prepareWindow s else s

def State.recordGraph (s : State) : State :=
  if s.context.active ∧ s.context.prepared ≠ [] ∧ s.callbacks ≠ 0 then
    { s with context := { s.context with graph := true } }
  else s

def State.hasContext (s : State) : Bool :=
  (s.frames[s.context.frameIndex]?).any FrameData.context

def State.executeGraph (s : State) : State :=
  if s.context.active ∧ s.context.failed = false ∧ s.context.graph then
    if s.hasContext then
      { s with
        frames := s.frames.modify s.context.frameIndex fun frame =>
          { frame with cmds := frame.cmds + 1 } }
    else { s with context := { s.context with failed := true } }
  else s

def State.submit (s : State) : State :=
  if s.context.active ∧ s.context.failed = false ∧ s.context.prepared ≠ [] then
    if s.hasContext then
      if (s.frames[s.context.frameIndex]?).any (·.cmds = 0) then s
      else
        let s := s.emit [.submit s.context.frameIndex s.context.waits s.context.signals]
        { s with context := { s.context with submitted := true } }
    else { s with context := { s.context with failed := true } }
  else s

def State.swapchain (s : State) (entity : Nat) : Option Swapchain :=
  (s.windows entity).bind Window.swapchain

/-- The call of `render_present_system_run` for a window that was prepared. -/
def State.presentCall (s : State) (entity : Nat) : Option Call :=
  (s.swapchain entity).map fun swapchain => .present swapchain.handle swapchain.index

def State.present (s : State) : State :=
  if s.context.active ∧ s.context.failed = false then
    let s :=
      if s.context.submitted then s.emit (s.context.prepared.filterMap s.presentCall) else s
    { s with frameIndex := s.frameIndex + 1 }
  else s

/-- `needs_resize` of `on_window_set_for_swapchain`, where the observer comes to it. -/
def releasesSwapchain (window : Window) : Bool :=
  !window.closeRequested && window.swapchain.any fun swapchain =>
    swapchain.handle.isSome && (swapchain.width ≠ window.width ||
      swapchain.height ≠ window.height || window.resized)

/-- A window is set, and `on_window_set_for_swapchain` observes it. -/
def State.onWindowSet (s : State) (entity : Nat) (window : Window) : State :=
  if releasesSwapchain window then
    (s.setWindow entity (some { window with swapchain := some .reset })).emit
      (.waitIdle :: (window.swapchain.map Swapchain.release).getD [])
  else s.setWindow entity (some window)

/-- `on_sdl_window_remove` and, with a surface, `on_surface_remove` and the destructor of the
swapchain. -/
def Window.remove (window : Window) : List Call :=
  match window.swapchain with
  | none => [.waitIdle]
  | some swapchain => .waitIdle :: .waitIdle :: swapchain.release

inductive Event where
  | beginFrame
  | resetBackbuffer
  | prepareWindows (visits : List Visit)
  | recordGraph
  | executeGraph
  | submit
  | present
  /-- A window is made, with a surface if the platform has a view of it. -/
  | openWindow (entity : Nat) (width height : Int) (surface : Bool)
  /-- `PulseWindow` is set: another title, or another size. -/
  | setWindow (entity : Nat) (width height : Int)
  /-- `mark_window_resized`. -/
  | markResized (entity : Nat) (width height : Int)
  /-- `mark_window_close_requested`. -/
  | requestClose (entity : Nat)
  | removeWindow (entity : Nat)
  /-- `window_post_frame_system_run` takes the tag of a resized window away. -/
  | postFrame (entity : Nat)
  | addCallback
  | removeCallback

def State.take (s : State) (phase next : Phase) (run : State → State) : Option State :=
  if s.phase = phase then some (run { s with phase := next }) else none

def State.step (s : State) : Event → Option State
  | .beginFrame => s.take .beginFrame .resetBackbuffer State.beginFrame
  | .resetBackbuffer => s.take .resetBackbuffer .prepareWindows id
  | .prepareWindows visits =>
    if (visits.map Visit.entity).Nodup then
      s.take .prepareWindows .recordGraph fun s => s.prepareWindows visits
    else none
  | .recordGraph => s.take .recordGraph .executeGraph State.recordGraph
  | .executeGraph => s.take .executeGraph .submit State.executeGraph
  | .submit => s.take .submit .present State.submit
  | .present => s.take .present .beginFrame State.present
  | .openWindow entity width height surface =>
    if s.windows entity = none then
      some (s.setWindow entity
        (some ⟨width, height, false, false, if surface then some .reset else none⟩))
    else none
  | .setWindow entity width height =>
    (s.windows entity).map fun window =>
      s.onWindowSet entity { window with width := width, height := height }
  | .markResized entity width height =>
    (s.windows entity).map fun window =>
      s.onWindowSet entity { window with width := width, height := height, resized := true }
  | .requestClose entity =>
    (s.windows entity).map fun window =>
      s.setWindow entity (some { window with closeRequested := true })
  | .removeWindow entity =>
    (s.windows entity).map fun window => (s.setWindow entity none).emit window.remove
  | .postFrame entity =>
    (s.windows entity).map fun window => s.setWindow entity (some { window with resized := false })
  | .addCallback => some { s with callbacks := s.callbacks + 1 }
  | .removeCallback =>
    if s.callbacks = 0 then none else some { s with callbacks := s.callbacks - 1 }

end PulseEngine.Graphics.FrameSync
