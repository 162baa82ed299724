import Mathlib.Logic.Function.Basic
import PulseEngine.Library.Run

/-!
# The protocol of frames with the device

What the device asks of the calls that a frame makes, as a machine that follows a log of calls and stops
at the first call that breaks a rule:

* a swapchain is acquired from when the image acquired before has been presented, and with a semaphore
  that no earlier acquire has left signalled,
* an image is presented once, and the one that was acquired,
* a swapchain is not released between acquire and present,
* the resources of a frame slot are reset when the fence of its last submission was waited for.
-/

namespace PulseEngine.Graphics.FrameSync

open Library

abbrev Semaphore := Nat × Nat

inductive Call where
  | waitFence (slot : Nat)
  | resetSlot (slot : Nat)
  | waitIdle
  | create (swapchain count : Nat)
  | release (swapchain : Nat)
  | acquire (swapchain : Nat) (signal : Semaphore) (image : Option Nat)
  | submit (slot : Nat) (waits signals : List Semaphore)
  | present (swapchain : Option Nat) (image : Nat)
  deriving DecidableEq, Repr

inductive SemaphoreState where
  | idle
  | signalled
  /-- A submission of the slot waits for it, and is not known to have ended. -/
  | waited (slot : Nat)
  deriving DecidableEq, Repr

structure Device where
  semaphore : Semaphore → SemaphoreState
  /-- The image that is acquired from a swapchain and not yet presented. -/
  image : Nat → Option Nat
  busy : Nat → Bool

def Device.start : Device := ⟨fun _ => .idle, fun _ => none, fun _ => false⟩

def SemaphoreState.ease (ended : Nat → Bool) : SemaphoreState → SemaphoreState
  | .waited slot => if ended slot then .idle else .waited slot
  | state => state

def Device.acquired (d : Device) (swapchain : Nat) (signal : Semaphore) (image : Nat) : Device :=
  { d with
    semaphore := Function.update d.semaphore signal .signalled
    image := Function.update d.image swapchain (some image) }

def Device.fenced (d : Device) (slot : Nat) : Device :=
  { d with
    busy := Function.update d.busy slot false
    semaphore := fun s => (d.semaphore s).ease (· = slot) }

/-- One call. The semaphore of an acquire must not be signalled; when `settled` is demanded, the
submission that waited for it must have ended too. -/
def Device.step (settled : Bool) (d : Device) : Call → Option Device
  | .waitFence slot =>
    some (d.fenced slot)
  | .resetSlot slot => if d.busy slot then none else some d
  | .waitIdle => some { d with semaphore := fun s => (d.semaphore s).ease fun _ => true }
  | .create _ _ => some d
  | .release swapchain => if d.image swapchain = none then some d else none
  | .acquire swapchain signal image =>
    if d.image swapchain = none ∧ d.semaphore signal ≠ .signalled ∧
        (settled → d.semaphore signal = .idle) then
      match image with
      | none => some d
      | some image =>
        some (d.acquired swapchain signal image)
    else none
  | .submit slot waits _ =>
    some { d with
      busy := Function.update d.busy slot true
      semaphore := fun s => if s ∈ waits then .waited slot else d.semaphore s }
  | .present none _ => none
  | .present (some swapchain) image =>
    if d.image swapchain = some image then
      some { d with image := Function.update d.image swapchain none }
    else none

def Legal (settled : Bool) (log : List Call) : Prop :=
  (run (Device.step settled) Device.start log).isSome

instance (settled : Bool) (log : List Call) : Decidable (Legal settled log) :=
  inferInstanceAs (Decidable (_ = true))

structure Device.Eased (d d' : Device) : Prop where
  image : d'.image = d.image
  semaphore : ∀ s, d'.semaphore s = d.semaphore s ∨
    d'.semaphore s = .idle ∧ ∃ slot, d.semaphore s = .waited slot

lemma Device.Eased.refl (d : Device) : d.Eased d := ⟨rfl, fun _ => .inl rfl⟩

lemma Device.Eased.trans {d d' d'' : Device} (h : d.Eased d') (h' : d'.Eased d'') : d.Eased d'' := by
  refine ⟨h'.image.trans h.image, fun s => ?_⟩
  rcases h.semaphore s with same | ⟨idle, slot, waited⟩
  · rcases h'.semaphore s with same' | ⟨idle', slot, waited'⟩
    · exact .inl (same'.trans same)
    · exact .inr ⟨idle', slot, same ▸ waited'⟩
  · rcases h'.semaphore s with same' | ⟨idle', _, _⟩
    · exact .inr ⟨same'.trans idle, slot, waited⟩
    · exact .inr ⟨idle', slot, waited⟩

lemma SemaphoreState.ease_cases (ended : Nat → Bool) (state : SemaphoreState) :
    state.ease ended = state ∨ state.ease ended = .idle ∧ ∃ slot, state = .waited slot := by
  cases state with
  | idle => exact .inl rfl
  | signalled => exact .inl rfl
  | waited slot =>
    show (if ended slot then _ else _) = _ ∨ (if ended slot then _ else _) = _ ∧ _
    split
    · exact .inr ⟨rfl, slot, rfl⟩
    · exact .inl rfl

lemma Device.fenced_eased (d : Device) (slot : Nat) : d.Eased (d.fenced slot) :=
  ⟨rfl, fun s => SemaphoreState.ease_cases _ (d.semaphore s)⟩

lemma Device.fenced_waited (d : Device) (slot : Nat) (s : Semaphore) :
    (d.fenced slot).semaphore s ≠ .waited slot := by
  show (d.semaphore s).ease _ ≠ _
  cases d.semaphore s with
  | idle => nofun
  | signalled => nofun
  | waited other =>
    show (if decide (other = slot) = true then _ else _) ≠ _
    split
    · nofun
    · rename_i apart
      rintro ⟨⟩
      exact apart (decide_eq_true rfl)

lemma Device.run_fenced (settled : Bool) (d : Device) (slot : Nat) :
    run (Device.step settled) d [.waitFence slot, .resetSlot slot] = some (d.fenced slot) := by
  rw [run_cons]
  show run (Device.step settled) (d.fenced slot) [.resetSlot slot] = _
  rw [run_cons]
  show (if Function.update d.busy slot false slot = true then none else _ : Option Device).bind _ = _
  rw [Function.update_self]
  rfl

def Call.Quiet (d : Device) : Call → Prop
  | .waitIdle => True
  | .create _ _ => True
  | .release swapchain => d.image swapchain = none
  | _ => False

lemma Device.run_quiet {settled : Bool} {calls : List Call} {d : Device}
    (quiet : ∀ call ∈ calls, call.Quiet d) :
    ∃ d', run (Device.step settled) d calls = some d' ∧ d.Eased d' := by
  induction calls generalizing d with
  | nil => exact ⟨d, rfl, .refl d⟩
  | cons call calls ih =>
    have head := quiet call List.mem_cons_self
    obtain ⟨d₁, e, eased⟩ : ∃ d₁, Device.step settled d call = some d₁ ∧ d.Eased d₁ := by
      cases call with
      | waitIdle => exact ⟨_, rfl, rfl, fun s => SemaphoreState.ease_cases _ _⟩
      | create _ _ => exact ⟨d, rfl, .refl d⟩
      | release swapchain => exact ⟨d, if_pos head, .refl d⟩
      | _ => exact head.elim
    have rest : ∀ call ∈ calls, call.Quiet d₁ := by
      intro call hc
      have := quiet call (List.mem_cons_of_mem _ hc)
      cases call with
      | waitIdle => trivial
      | create _ _ => trivial
      | release swapchain => exact (congrFun eased.image swapchain).trans this
      | _ => exact this.elim
    obtain ⟨d', e', eased'⟩ := ih rest
    exact ⟨d', by rw [run_cons, e, Option.bind_some, e'], eased.trans eased'⟩

end PulseEngine.Graphics.FrameSync
