/-
The viewer and its keys (`src/viewer/mod.rs`, `src/viewer/status.rs`).

What goes to the terminal is left out, with the place of the cursor; a write to the terminal that fails is a step of its
own in `Wrb.Viewer.Threads`. Where the code panics the result is `none`.

Result: `quits_iff`: the only key that quits is `q`, outside of the status line and the page, and not before there is a
frame.
-/
import Wrb.Ui.Events
import Wrb.Ui.TextLine

namespace Wrb.Ui

inductive ViewerFocus where
  /-- no focus (command mode) -/
  | noFocus
  /-- focus is on the status widget -/
  | status
  /-- focus is somewhere in the root -/
  | root
deriving DecidableEq, Repr

/-- a key of the terminal: the two that the forms do not know, or any other -/
inductive TermKey where
  | esc
  | backTab
  | key (k : Key)
deriving DecidableEq, Repr

/-- the key as a form sees it -/
def TermKey.toKey : TermKey → Key
  | esc => .other
  | backTab => .other
  | key k => k

structure ViewerStatus where
  atTop : Bool
  progressText : TextLine

namespace ViewerStatus

def new (wrbName : List Char) (atTop : Bool) : ViewerStatus := ⟨atTop, TextLine.newDetached wrbName 2048⟩

def numRows : UInt64 := 2

def handleEvent (s : ViewerStatus) (key : Key) : ViewerStatus := { s with progressText := s.progressText.handleKey key }

def setText (s : ViewerStatus) (txt : List Char) : ViewerStatus := { s with progressText := s.progressText.setText txt }

end ViewerStatus

structure Viewer where
  /-- row, column dimensions -/
  size : UInt64 × UInt64
  /-- last frame we got from the wrbpage main loop -/
  lastFrame : Option Root
  status : ViewerStatus
  /-- where input focus is -/
  focus : ViewerFocus

/-- `ViewerEvent` -/
inductive ViewerEvent where
  | stdin (key : TermKey)
  | root (root : Root) (frameDelay : Option UInt64)
  | update (update : FrameUpdate)
  | quit

def ViewerEvent.ofFrame : WrbFrameData → ViewerEvent
  | .root r frameDelay => .root r frameDelay
  | .update u => .update u

/-- the frame that was handed on -/
def ViewerEvent.frame : ViewerEvent → Option WrbFrameData
  | .root r frameDelay => some (.root r frameDelay)
  | .update u => some (.update u)
  | _ => none

def ViewerEvent.isQuit : ViewerEvent → Bool
  | .quit => true
  | _ => false

@[simp] theorem ViewerEvent.frame_ofFrame (f : WrbFrameData) : (ofFrame f).frame = some f := by cases f <;> rfl

@[simp] theorem ViewerEvent.filterMap_frame_quit : [quit].filterMap frame = [] := rfl

@[simp] theorem ViewerEvent.filterMap_frame_stdin (key : TermKey) : [stdin key].filterMap frame = [] := rfl

@[simp] theorem ViewerEvent.isQuit_ofFrame (f : WrbFrameData) : (ofFrame f).isQuit = false := by cases f <;> rfl

namespace Viewer

def new (wrbName : List Char) : Viewer := ⟨(0, 0), none, ViewerStatus.new wrbName false, .noFocus⟩

/-- `saturating_sub` of the status rows -/
def getRootSize (size : UInt64 × UInt64) : UInt64 × UInt64 :=
  (if ViewerStatus.numRows ≤ size.1 then size.1 - ViewerStatus.numRows else 0, size.2)

/-- whether to go on, the viewer, and the frame that was given -/
def dispatchKeyboardEvent (v : Viewer) (key : TermKey) (frame : Option Root) : Option (Bool × Viewer × Option Root) :=
  -- if we have no frame, then focus reverts to the Status widget
  let v := if frame.isNone then { v with focus := .status } else v
  match v.focus with
  | .noFocus =>
    match key with
    | .key (.char 'g') => some (true, { v with focus := .status }, frame)
    | .key (.char '\t') => some (true, { v with focus := .root }, frame.map Root.nextFocus)
    | .backTab => some (true, { v with focus := .root }, frame.map Root.prevFocus)
    | .key (.char '\n') => some (true, { v with focus := .root }, frame)
    | .key (.char 'q') => some (false, v, frame)
    | _ => some (true, v, frame)
  | .status =>
    match key with
    | .esc => some (true, { v with focus := .noFocus }, frame)
    | .key (.char '\t') => some (true, { v with focus := .root }, frame.map Root.nextFocus)
    | .backTab => some (true, { v with focus := .root }, frame.map Root.prevFocus)
    | key => some (true, { v with status := v.status.handleEvent key.toKey }, frame)
  | .root =>
    match key with
    | .esc => some (true, { v with focus := .noFocus }, frame.map Root.clearFocus)
    | .key (.char '\t') => some (true, v, frame.map Root.nextFocus)
    | .backTab => some (true, v, frame.map Root.prevFocus)
    | key =>
      match frame with
      | none => some (true, v, none)
      | some frame => do
        let frame ← frame.handleEvent key.toKey
        some (true, v, some frame)

/-- render a frame, and save it -/
def render (v : Viewer) (root : Root) : Option Viewer := do
  let (_, root) ← root.render
  some { v with lastFrame := some root }

/-- a frame after `redraw` or `update_forms`, unless these failed -/
def renderResult (v : Viewer) : Except UiError Unit × Root → Option (Except UiError Viewer)
  | (.error e, _) => some (.error e)
  | (.ok (), root) => (v.render root).map .ok

/-- what the main loop does with an event, but for `Quit` and the timer: whether to go on, and the viewer. The forms
are yielded by their map in the given order -/
def handle (v : Viewer) (order : List ℕ) : ViewerEvent → Option (Except UiError (Bool × Viewer))
  | .stdin key => do
    let (doContinue, v, frame) ← { v with lastFrame := none }.dispatchKeyboardEvent key v.lastFrame
    match frame with
    | none => some (.ok (doContinue, v))
    | some frame => do
      let r ← v.renderResult (← frame.redraw order)
      some (r.map fun v => (doContinue, v))
  | .root root _ => do
    let v ← v.render root
    some (.ok (true, v))
  | .update update =>
    match v.lastFrame with
    | none => some (.ok (true, v))
    | some frame => do
      let r ← { v with lastFrame := none }.renderResult (← frame.updateForms update order)
      some (r.map fun v => (true, v))
  | .quit => some (.ok (true, v))

/-- `consume_runtime_events` of the last frame -/
def consumeRuntimeEvents (v : Viewer) : List UiEvent × Viewer :=
  match v.lastFrame with
  | none => ([], v)
  | some frame => (frame.consumeRuntimeEvents.1, { v with lastFrame := some frame.consumeRuntimeEvents.2 })

/-! ## Frames -/

variable {v v' : Viewer}

theorem render_lastFrame {root : Root} (h : v.render root = some v') : v'.lastFrame.isSome = true := by
  obtain ⟨r, -, hv⟩ := Option.bind_eq_some_iff.1 h
  cases hv
  rfl

theorem renderResult_lastFrame {r : Except UiError Unit × Root} (h : v.renderResult r = some (.ok v')) :
    v'.lastFrame.isSome = true := by
  obtain ⟨result, root⟩ := r
  cases result with
  | error e => cases h
  | ok _ =>
    obtain ⟨v₁, hv₁, heq⟩ := Option.map_eq_some_iff.1 h
    cases heq
    exact render_lastFrame hv₁

/-- a frame that is given is given back -/
theorem dispatchKeyboardEvent_frame {key : TermKey} {frame frame' : Option Root} {doContinue : Bool}
    (h : v.dispatchKeyboardEvent key frame = some (doContinue, v', frame')) : frame'.isSome = frame.isSome := by
  unfold dispatchKeyboardEvent at h
  cases frame with
  | none =>
    simp only [Option.isNone_none, if_true] at h
    split at h <;> cases h <;> rfl
  | some frame =>
    simp only [Option.isNone_some, Bool.false_eq_true, if_false] at h
    split at h
    · split at h <;> cases h <;> rfl
    · split at h <;> cases h <;> rfl
    · split at h
      · cases h
        rfl
      · cases h
        rfl
      · cases h
        rfl
      · obtain ⟨frame₁, -, heq⟩ := Option.bind_eq_some_iff.1 h
        cases heq
        rfl

/-- keys do not change the frame that was saved -/
theorem dispatchKeyboardEvent_lastFrame {key : TermKey} {frame frame' : Option Root} {doContinue : Bool}
    (h : v.dispatchKeyboardEvent key frame = some (doContinue, v', frame')) : v'.lastFrame = v.lastFrame := by
  unfold dispatchKeyboardEvent at h
  generalize hfocus : (if frame.isNone then { v with focus := .status } else v) = v₁ at h
  have hlast : v₁.lastFrame = v.lastFrame := by
    subst hfocus
    split_ifs <;> rfl
  rw [← hlast]
  dsimp only at h
  split at h
  · split at h <;> cases h <;> rfl
  · split at h <;> cases h <;> rfl
  · split at h
    · cases h
      rfl
    · cases h
      rfl
    · cases h
      rfl
    · split at h
      · cases h
        rfl
      · obtain ⟨frame₁, -, heq⟩ := Option.bind_eq_some_iff.1 h
        cases heq
        rfl

/-- after an event that did not fail there is a frame, if there was one or the event brought it -/
theorem handle_lastFrame {order : List ℕ} {e : ViewerEvent} {doContinue : Bool}
    (h : v.handle order e = some (.ok (doContinue, v'))) :
    v'.lastFrame.isSome = true ↔ v.lastFrame.isSome = true ∨ ∃ root delay, e = .root root delay := by
  cases e with
  | stdin key =>
    obtain ⟨⟨goOn, v₁, frame⟩, hdispatch, hrest⟩ := Option.bind_eq_some_iff.1 h
    have hframe := dispatchKeyboardEvent_frame hdispatch
    have hlast := dispatchKeyboardEvent_lastFrame hdispatch
    cases frame with
    | none =>
      cases hrest
      simp_all
    | some frame =>
      obtain ⟨r₁, -, hrest⟩ := Option.bind_eq_some_iff.1 hrest
      obtain ⟨r, hr, hv⟩ := Option.bind_eq_some_iff.1 hrest
      cases r with
      | error e => cases hv
      | ok v₂ =>
        cases hv
        simp [renderResult_lastFrame hr, ← hframe]
  | root root delay =>
    obtain ⟨v₁, hv₁, hv⟩ := Option.bind_eq_some_iff.1 h
    cases hv
    simp [render_lastFrame hv₁]
  | update update =>
    cases hlast : v.lastFrame with
    | none =>
      simp only [handle, hlast] at h
      cases h
      simp [hlast]
    | some frame =>
      simp only [handle, hlast] at h
      obtain ⟨r₁, -, hrest⟩ := Option.bind_eq_some_iff.1 h
      obtain ⟨r, hr, hv⟩ := Option.bind_eq_some_iff.1 hrest
      cases r with
      | error e => cases hv
      | ok v₂ =>
        cases hv
        simp [renderResult_lastFrame hr]
  | quit =>
    cases h
    simp

theorem consumeRuntimeEvents_lastFrame (v : Viewer) :
    v.consumeRuntimeEvents.2.lastFrame.isSome = v.lastFrame.isSome := by
  unfold consumeRuntimeEvents
  cases hframe : v.lastFrame with
  | none => simp [hframe]
  | some frame => rfl

/-- **Quitting.** The one key that quits is `q` in command mode, and only once there is a frame. -/
theorem quits_iff {key : TermKey} {frame : Option Root} :
    (∃ v' frame', v.dispatchKeyboardEvent key frame = some (false, v', frame')) ↔
      frame.isSome = true ∧ v.focus = .noFocus ∧ key = .key (.char 'q') := by
  constructor
  · intro h
    obtain ⟨v', frame', h⟩ := h
    unfold dispatchKeyboardEvent at h
    cases frame with
    | none =>
      simp only [Option.isNone_none, if_true] at h
      split at h <;> cases h
    | some frame =>
      simp only [Option.isNone_some, Bool.false_eq_true, if_false] at h
      split at h
      · next hfocus =>
        split at h <;> cases h
        exact ⟨rfl, hfocus, rfl⟩
      · split at h <;> cases h
      · split at h
        · cases h
        · cases h
        · cases h
        · obtain ⟨frame₁, -, heq⟩ := Option.bind_eq_some_iff.1 h
          cases heq
  · intro h
    obtain ⟨hframe, hfocus, rfl⟩ := h
    refine ⟨v, frame, ?_⟩
    unfold dispatchKeyboardEvent
    cases frame with
    | none => cases hframe
    | some frame => simp [hfocus]

/-- so the main loop goes on after every other event -/
theorem handle_quits {order : List ℕ} {e : ViewerEvent} (h : v.handle order e = some (.ok (false, v'))) :
    e = .stdin (.key (.char 'q')) ∧ v.lastFrame.isSome = true := by
  cases e with
  | stdin key =>
    obtain ⟨⟨goOn, v₁, frame⟩, hdispatch, hrest⟩ := Option.bind_eq_some_iff.1 h
    have hgoOn : goOn = false := by
      cases frame with
      | none =>
        cases hrest
        rfl
      | some frame =>
        obtain ⟨r₁, -, hrest⟩ := Option.bind_eq_some_iff.1 hrest
        obtain ⟨r, -, hv⟩ := Option.bind_eq_some_iff.1 hrest
        cases r with
        | error e => cases hv
        | ok v₂ =>
          cases hv
          rfl
    subst hgoOn
    obtain ⟨hframe, -, rfl⟩ := quits_iff.1 ⟨v₁, frame, hdispatch⟩
    exact ⟨rfl, hframe⟩
  | root root delay =>
    obtain ⟨v₁, -, hv⟩ := Option.bind_eq_some_iff.1 h
    cases hv
  | update update =>
    cases hlast : v.lastFrame with
    | none => simp [handle, hlast] at h
    | some frame =>
      simp only [handle, hlast] at h
      obtain ⟨r₁, -, hrest⟩ := Option.bind_eq_some_iff.1 h
      obtain ⟨r, -, hv⟩ := Option.bind_eq_some_iff.1 hrest
      cases r with
      | error e => cases hv
      | ok v₂ => cases hv
  | quit => cases h

end Viewer

end Wrb.Ui
