import Mathlib.Tactic

/-!
# Keyboard and mouse over frames

`pulse_window_poll_events` of `pulse_window/src/window.cpp` passes the events of a frame to the observers of
`pulse_input/src/input_components.cpp`; the systems of the frame read what they left, and then the transient part is
cleared. What is read is told by the events alone (`input_told`).
-/

namespace PulseEngine.Input

/-! ## Latches -/

/-- What an event does to a key or a button. -/
inductive Change where
  | press (again : Bool)
  | release
  deriving DecidableEq, Repr

/-- The state of one key or button. -/
structure Latch where
  down : Bool
  justPressed : Bool
  justReleased : Bool
  deriving DecidableEq, Repr

namespace Latch

def init : Latch := ⟨false, false, false⟩

def change (l : Latch) : Change → Latch
  | .press again => { l with down := true, justPressed := l.justPressed || !again }
  | .release => { l with down := false, justReleased := true }

def clear (l : Latch) : Latch := { l with justPressed := false, justReleased := false }

/-- A latch says what happened: in earlier frames and in the present one. -/
structure Tells (l : Latch) (past present : List Change) : Prop where
  down : l.down = (past ++ present).getLast?.any (· ≠ .release)
  pressed : l.justPressed = present.any (· = .press false)
  released : l.justReleased = present.any (· = .release)

variable {l : Latch} {past present : List Change}

lemma Tells.change (h : l.Tells past present) (c : Change) : (l.change c).Tells past (present ++ [c]) := by
  cases c with
  | press again =>
    refine ⟨?_, ?_, ?_⟩
    · rw [← List.append_assoc, List.getLast?_append]
      rfl
    · rw [List.any_append, ← h.pressed]
      cases again <;> rfl
    · rw [List.any_append, ← h.released]
      exact (Bool.or_false _).symm
  | release =>
    refine ⟨?_, ?_, ?_⟩
    · rw [← List.append_assoc, List.getLast?_append]
      rfl
    · rw [List.any_append, ← h.pressed]
      exact (Bool.or_false _).symm
    · rw [List.any_append]
      exact (Bool.or_true _).symm

lemma Tells.changes (h : l.Tells past present) (cs : List Change) :
    (cs.foldl Latch.change l).Tells past (present ++ cs) := by
  induction cs generalizing l present with
  | nil => rwa [List.append_nil]
  | cons c cs ih =>
    rw [List.append_cons]
    exact ih (h.change c)

lemma Tells.clear (h : l.Tells past present) : l.clear.Tells (past ++ present) [] :=
  ⟨by rw [List.append_nil]; exact h.down, rfl, rfl⟩

end Latch

/-! ## Components -/

def kScancodeCount : ℕ := 512

/-- `PulseKeyboardInput`. -/
structure KeyboardInput where
  pressed : Fin kScancodeCount → Bool
  justPressed : Fin kScancodeCount → Bool
  justReleased : Fin kScancodeCount → Bool

/-- `PulseMouseInput`: a bit for each button. -/
structure MouseInput where
  state : BitVec 8
  justPressed : BitVec 8
  justReleased : BitVec 8

/-- `PulseKeyEvent` without what no observer reads. -/
structure KeyEvent where
  scancode : Int
  pressed : Bool
  again : Bool

/-- `PulseMouseButtonEvent`. -/
structure MouseButtonEvent where
  button : ℕ
  pressed : Bool

/-- The `SDL_Event`s that are passed on. -/
inductive SdlContent (F : Type) where
  | key (event : KeyEvent)
  | mouseButton (event : MouseButtonEvent)
  | mouseWheel (x y : F)
  | other

/-- An event with the entity of its window, 0 if it has none. -/
structure SdlEvent (F : Type) where
  window : ℕ
  content : SdlContent F

structure InputState (F : Type) where
  keyboard : KeyboardInput
  mouse : MouseInput
  scrollX : F
  scrollY : F

/-! ## Observers -/

def keyEventObserver (kb : KeyboardInput) (event : KeyEvent) : KeyboardInput :=
  if h : 0 ≤ event.scancode ∧ event.scancode < kScancodeCount then
    let k : Fin kScancodeCount := ⟨event.scancode.toNat, by omega⟩
    if event.pressed then
      { kb with
        pressed := Function.update kb.pressed k true
        justPressed := if event.again then kb.justPressed else Function.update kb.justPressed k true }
    else
      { kb with
        pressed := Function.update kb.pressed k false
        justReleased := Function.update kb.justReleased k true }
  else kb

def mouseButtonObserver (mi : MouseInput) (event : MouseButtonEvent) : MouseInput :=
  if event.button > 7 then mi
  else
    let mask := (1#32 <<< event.button).setWidth 8
    if event.pressed then { mi with state := mi.state ||| mask, justPressed := mi.justPressed ||| mask }
    else { mi with state := mi.state &&& ~~~mask, justReleased := mi.justReleased ||| mask }

section

variable {F : Type} [Add F] [Zero F]

def InputState.scroll (s : InputState F) : F × F := (s.scrollX, s.scrollY)

def InputState.init : InputState F := ⟨⟨fun _ => false, fun _ => false, fun _ => false⟩, ⟨0, 0, 0⟩, 0, 0⟩

/-- What an event of a window that is alive is passed on to. -/
def InputState.emit (s : InputState F) : SdlContent F → InputState F
  | .key event => { s with keyboard := keyEventObserver s.keyboard event }
  | .mouseButton event => { s with mouse := mouseButtonObserver s.mouse event }
  | .mouseWheel x y => { s with scrollX := s.scrollX + x, scrollY := s.scrollY + y }
  | .other => s

/-- A frame: the entities that are alive while it polls, and its events. -/
structure Frame (F : Type) where
  alive : ℕ → Bool
  events : List (SdlEvent F)

/-- The events of `pulse_window_poll_events` whose window is alive. -/
def Frame.accepted (f : Frame F) : List (SdlContent F) :=
  (f.events.filter fun event => event.window ≠ 0 && f.alive event.window).map (·.content)

def Frame.poll (f : Frame F) (s : InputState F) : InputState F := f.accepted.foldl InputState.emit s

def InputState.postFrameClear (s : InputState F) : InputState F :=
  { keyboard := { s.keyboard with justPressed := fun _ => false, justReleased := fun _ => false }
    mouse := { s.mouse with justPressed := 0, justReleased := 0 }
    scrollX := 0
    scrollY := 0 }

/-- What frames leave. -/
def after (past : List (Frame F)) : InputState F :=
  past.foldl (fun s f => (f.poll s).postFrameClear) InputState.init

/-- What the systems of a frame read, after the frames before it. -/
def seen (past : List (Frame F)) (now : Frame F) : InputState F := now.poll (after past)

/-! ## Queries -/

/-- `pulse_input_is_key_down` and its siblings, which read one of the arrays. -/
def readKey (keys : Fin kScancodeCount → Bool) (scancode : Int) : Bool :=
  if h : 0 ≤ scancode ∧ scancode < kScancodeCount then keys ⟨scancode.toNat, by omega⟩ else false

/-- `pulse_input_is_mouse_button_down` and its siblings; the shift of an `int` has a meaning below its width. -/
def readButton (buttons : BitVec 8) (button : ℕ) : Option Bool :=
  if button < 32 then some ((buttons.setWidth 32 >>> button) &&& 1#32 ≠ 0) else none

lemma readKey_update {keys : Fin kScancodeCount → Bool} {value : Bool} {code : Int}
    (valid : 0 ≤ code ∧ code < kScancodeCount) (scancode : Int) :
    readKey (Function.update keys ⟨code.toNat, by omega⟩ value) scancode =
      if scancode = code then value else readKey keys scancode := by
  rw [readKey, readKey]
  split_ifs with inside same same
  · subst same
    rw [Function.update_self]
  · refine Function.update_of_ne (fun eq => same ?_) _ _
    have := Fin.mk.inj eq
    omega
  · exact absurd (same ▸ valid) inside
  · rfl

lemma readButton_eq {button : ℕ} (buttons : BitVec 8) (lt : button < 32) :
    readButton buttons button = some (buttons.getLsbD button) := by
  rw [readButton, if_pos lt, BitVec.and_one_eq_setWidth_ofBool_getLsbD]
  cases h : buttons.getLsbD button <;> simp [h, lt]

lemma getLsbD_mask {b : ℕ} (le : b ≤ 7) (button : ℕ) :
    ((1#32 <<< b).setWidth 8).getLsbD button = decide (b = button) := by
  by_cases same : b = button
  · subst same
    simp
    omega
  · simp [same]
    omega

/-! ## What events tell -/

def changeOf (pressed again : Bool) : Change := if pressed then .press again else .release

def keyChange (scancode : Int) : SdlContent F → Option Change
  | .key event =>
    if event.scancode = scancode ∧ 0 ≤ scancode ∧ scancode < kScancodeCount then
      some (changeOf event.pressed event.again)
    else none
  | _ => none

def buttonChange (button : ℕ) : SdlContent F → Option Change
  | .mouseButton event =>
    if event.button = button ∧ button ≤ 7 then some (changeOf event.pressed false) else none
  | _ => none

def wheel : SdlContent F → Option (F × F)
  | .mouseWheel x y => some (x, y)
  | _ => none

omit [Zero F] in
/-- **Views of a frame** follow its events. -/
lemma foldl_emit {β γ : Type} (view : InputState F → β) {of : SdlContent F → Option γ} {change : β → γ → β}
    (emit : ∀ s c, view (s.emit c) = (of c).toList.foldl change (view s)) (cs : List (SdlContent F)) (s : InputState F) :
    view (cs.foldl InputState.emit s) = (cs.filterMap of).foldl change (view s) := by
  induction cs generalizing s with
  | nil => rfl
  | cons c cs ih =>
    rw [List.foldl_cons, ih, emit]
    cases found : of c with
    | none =>
      rw [List.filterMap_cons_none found]
      rfl
    | some change =>
      rw [List.filterMap_cons_some found]
      rfl

lemma after_append (past : List (Frame F)) (f : Frame F) : after (past ++ [f]) = (seen past f).postFrameClear := by
  rw [after, List.foldl_append]
  rfl

/-- **Rule for latches**: a view that follows events, and is cleared after each frame, is told by them. -/
lemma tells_seen (view : InputState F → Latch) {of : SdlContent F → Option Change} (init : view InputState.init = .init)
    (emit : ∀ s c, view (s.emit c) = (of c).toList.foldl Latch.change (view s))
    (clear : ∀ s, view s.postFrameClear = (view s).clear) (past : List (Frame F)) (now : Frame F) :
    (view (seen past now)).Tells (past.flatMap fun f => f.accepted.filterMap of) (now.accepted.filterMap of) := by
  have start : (view (after past)).Tells (past.flatMap fun f => f.accepted.filterMap of) [] := by
    induction past using List.reverseRecOn with
    | nil => exact init ▸ ⟨rfl, rfl, rfl⟩
    | append_singleton past f ih =>
      rw [after_append, clear, List.flatMap_append, List.flatMap_singleton, seen, Frame.poll, foldl_emit view emit]
      exact (ih.changes _).clear
  rw [seen, Frame.poll, foldl_emit view emit]
  exact start.changes _

/-- What is read of a key. -/
def InputState.keyLatch (scancode : Int) (s : InputState F) : Latch :=
  ⟨readKey s.keyboard.pressed scancode, readKey s.keyboard.justPressed scancode,
    readKey s.keyboard.justReleased scancode⟩

/-- The bits of a button. -/
def InputState.buttonLatch (button : ℕ) (s : InputState F) : Latch :=
  ⟨s.mouse.state.getLsbD button, s.mouse.justPressed.getLsbD button, s.mouse.justReleased.getLsbD button⟩

omit [Zero F] in
lemma keyLatch_emit (scancode : Int) (s : InputState F) (c : SdlContent F) :
    (s.emit c).keyLatch scancode = (keyChange scancode c).toList.foldl Latch.change (s.keyLatch scancode) := by
  cases c with
  | key event =>
    rw [InputState.emit, keyEventObserver]
    by_cases accepted : 0 ≤ event.scancode ∧ event.scancode < kScancodeCount
    · rw [dif_pos accepted]
      by_cases same : event.scancode = scancode
      · subst same
        have changed : keyChange event.scancode (.key event : SdlContent F) =
            some (changeOf event.pressed event.again) := if_pos ⟨rfl, accepted⟩
        rw [changed]
        cases pressed : event.pressed <;> cases again : event.again <;>
          simp [InputState.keyLatch, readKey_update accepted, changeOf, Latch.change]
      · have unchanged : keyChange scancode (.key event : SdlContent F) = none := if_neg fun h => same h.1
        rw [unchanged]
        cases pressed : event.pressed <;> cases again : event.again <;>
          simp [InputState.keyLatch, readKey_update accepted, Ne.symm same]
    · have unchanged : keyChange scancode (.key event : SdlContent F) = none :=
        if_neg (by rintro ⟨rfl, inside⟩; exact accepted inside)
      rw [dif_neg accepted, unchanged]
      rfl
  | _ => rfl

omit [Zero F] in
lemma buttonLatch_emit (button : ℕ) (s : InputState F) (c : SdlContent F) :
    (s.emit c).buttonLatch button = (buttonChange button c).toList.foldl Latch.change (s.buttonLatch button) := by
  cases c with
  | mouseButton event =>
    rw [InputState.emit, mouseButtonObserver]
    by_cases refused : event.button > 7
    · have unchanged : buttonChange button (.mouseButton event : SdlContent F) = none :=
        if_neg (by rintro ⟨rfl, le⟩; omega)
      rw [if_pos refused, unchanged]
      rfl
    · have mask := getLsbD_mask (not_lt.mp refused) button
      rw [if_neg refused]
      by_cases same : event.button = button
      · subst same
        have changed : buttonChange event.button (.mouseButton event : SdlContent F) =
            some (changeOf event.pressed false) := if_pos ⟨rfl, not_lt.mp refused⟩
        have lt : event.button < 8 := by omega
        rw [changed]
        cases pressed : event.pressed <;>
          simp only [InputState.buttonLatch, BitVec.getLsbD_or, BitVec.getLsbD_and, BitVec.getLsbD_not, mask, lt, changeOf,
            Latch.change, decide_true, Bool.or_true, Bool.not_true, Bool.and_false, if_true, Bool.false_eq_true, if_false,
            Option.toList_some, List.foldl_cons, List.foldl_nil, Bool.not_false]
      · have unchanged : buttonChange button (.mouseButton event : SdlContent F) = none := if_neg fun h => same h.1
        rw [unchanged]
        have inside : ∀ x : BitVec 8, (x.getLsbD button && (decide (button < 8) && true)) = x.getLsbD button := by
          intro x
          by_cases lt : button < 8
          · rw [decide_eq_true lt, Bool.true_and, Bool.and_true]
          · rw [BitVec.getLsbD_of_ge x button (not_lt.mp lt), Bool.false_and]
        cases pressed : event.pressed <;>
          simp only [InputState.buttonLatch, BitVec.getLsbD_or, BitVec.getLsbD_and, BitVec.getLsbD_not, mask, same,
            decide_false, Bool.or_false, Bool.not_false, inside, Option.toList_none, List.foldl_nil, if_true,
            Bool.false_eq_true, if_false]
  | _ => rfl

/-- **What is read of keyboard and mouse** in any frame: a key or button is down if the last event about it was a press,
and just pressed or released if an event of this frame says so, a repeated key press aside; the wheel is where the events of
this frame turn it. Events count if their window is alive. -/
theorem input_told (past : List (Frame F)) (now : Frame F) :
    (∀ scancode, ((seen past now).keyLatch scancode).Tells
      (past.flatMap fun f => f.accepted.filterMap (keyChange scancode)) (now.accepted.filterMap (keyChange scancode))) ∧
    (∀ button < 32, ∃ l : Latch, readButton (seen past now).mouse.state button = some l.down ∧
      readButton (seen past now).mouse.justPressed button = some l.justPressed ∧
      readButton (seen past now).mouse.justReleased button = some l.justReleased ∧
      l.Tells (past.flatMap fun f => f.accepted.filterMap (buttonChange button))
        (now.accepted.filterMap (buttonChange button))) ∧
    (seen past now).scroll =
      (now.accepted.filterMap wheel).foldl (fun at' turn => (at'.1 + turn.1, at'.2 + turn.2)) (0, 0) := by
  refine ⟨fun scancode => ?_, fun button lt => ?_, ?_⟩
  · have none : ∀ k, readKey (fun _ => false) k = false := fun k => by
      rw [readKey]
      split <;> rfl
    refine tells_seen (InputState.keyLatch scancode) ?_ (keyLatch_emit scancode) (fun s => ?_) past now
    · simp only [InputState.keyLatch, InputState.init, none]
      rfl
    · simp only [InputState.keyLatch, InputState.postFrameClear, none]
      rfl
  · refine ⟨(seen past now).buttonLatch button, readButton_eq _ lt, readButton_eq _ lt, readButton_eq _ lt, ?_⟩
    refine tells_seen (InputState.buttonLatch button) ?_ (buttonLatch_emit button) (fun s => ?_) past now
    · simp [InputState.buttonLatch, InputState.init, Latch.init]
    · simp [InputState.buttonLatch, InputState.postFrameClear, Latch.clear]
  · have emit : ∀ s c, (InputState.emit s c).scroll = (wheel c).toList.foldl (fun (at' turn : F × F) =>
        (at'.1 + turn.1, at'.2 + turn.2)) s.scroll := by
      rintro s (_ | _ | _ | _) <;> rfl
    have start : (after past).scroll = (0, 0) := by
      rcases List.eq_nil_or_concat past with rfl | ⟨before, f, rfl⟩
      · rfl
      · rw [List.concat_eq_append, after_append]
        rfl
    rw [seen, Frame.poll, foldl_emit InputState.scroll emit, start]

end

end PulseEngine.Input
