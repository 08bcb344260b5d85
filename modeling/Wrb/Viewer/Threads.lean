/-
The threads of the browser (`src/main.rs`, `src/viewer/mod.rs`, `src/ui/events.rs`).

The main thread runs the viewer; beside it run the page with its event loop, a thread that hands on the frames, one that
reads the keyboard, and once a frame asks for it a timer. They talk over three channels: the events to the page and its
frames, of 1024 places each, and the inbox of the viewer, without a bound.

A state of the system says where each thread is, between two calls that other threads can notice. `step` is one step of
the thread that an `Act` names; it is `none` while the thread waits and after it returned. A step reports what it put
on the channels of events and frames and took from their ends. The main thread holds senders of all its channels until
the process exits, so that a receiver never finds the events or the inbox closed.

Result: `step_cases`, what a step can do.
-/
import Wrb.Viewer.Basic
import Wrb.Lib.Channels

namespace Wrb.Ui

open Wrb.Channels

/-- `sync_channel(1024)` -/
def CHANNEL_SIZE : ℕ := 1024

/-! ## Where the threads are -/

/-- the thread of the page: loading, in `next_event`, in `next_frame` or `next_frame_update`, or back from `run_page` -/
inductive RendererAt (P : PageExt) where
  | loading
  | nextEvent (l : EventLoop P)
  | nextFrame (f : WrbFrameData) (l : EventLoop P)
  | returned (result : Except P.Error (Option P.Value))

inductive FrameThreadAt where
  | checkQuit
  | recv
  | send (f : WrbFrameData)
  | returned

inductive TimerAt where
  | notStarted
  | send
  | sleep
  | returned
deriving DecidableEq, Repr

inductive KeyboardAt where
  | read
  | send (key : TermKey)
  | checkQuit
  | returned
deriving DecidableEq, Repr

/-- the main thread: `Viewer::main` up to the joins, then the end of `main` -/
inductive MainAt where
  | sendOpen
  | sendSize
  | checkQuit
  | sendResize (size : UInt64 × UInt64)
  | recv
  | emit (events : List UiEvent)
  | sendClose
  | joinTimer
  | joinFrames
  | sendLastClose
  | joinRenderer
  | exited
deriving Repr

def MainAt.hasExited : MainAt → Bool
  | exited => true
  | _ => false

instance (main : MainAt) : Decidable (main = .exited) :=
  decidable_of_iff (main.hasExited = true) (by cases main <;> simp [MainAt.hasExited])

structure Sys (P : PageExt) where
  events : List WrbEvent
  frames : List WrbFrameData
  inbox : List ViewerEvent
  /-- whether or not to abort the main loop -/
  quit : Bool
  renderer : RendererAt P
  frameThread : FrameThreadAt
  timer : TimerAt
  keyboard : KeyboardAt
  main : MainAt
  viewer : Viewer

/-- who takes the next step, and what the world does there: a key is pressed, the input ends, the terminal has a size
and yields the forms in an order, a call of the terminal fails -/
inductive Act where
  | renderer
  | frameThread
  | timer
  | keyboard
  | keyPressed (key : TermKey)
  | inputEnds
  | main (termSize : UInt64 × UInt64) (order : List ℕ)
  | terminalFails
deriving DecidableEq, Repr

/-- what a step put on a channel or took from its end -/
structure Report where
  sentEvent : Option WrbEvent := none
  takenEvent : Option WrbEvent := none
  sentFrame : Option WrbFrameData := none
  shownFrame : Option WrbFrameData := none

variable {P : PageExt}

def RendererAt.isReturned : RendererAt P → Bool
  | returned _ => true
  | _ => false

def FrameThreadAt.isReturned : FrameThreadAt → Bool
  | returned => true
  | _ => false

/-- `Viewer::main` has returned, and with it the inbox is gone -/
def MainAt.left : MainAt → Bool
  | sendLastClose => true
  | joinRenderer => true
  | exited => true
  | _ => false

namespace Sys

/-- after the threads were started -/
def start (P : PageExt) (wrbName : List Char) : Sys P :=
  ⟨[], [], [], false, .loading, .checkQuit, .notStarted, .read, .sendOpen, Viewer.new wrbName⟩

/-! ## The page -/

/-- on its return, `run_page` drops its ends of the channels -/
def toPhase (s : Sys P) : Phase P → Sys P
  | .running l => { s with renderer := .nextEvent l }
  | .stopped result => { s with renderer := .returned result, events := [] }

def follow (s : Sys P) : Pass P → Sys P
  | .skip l => s.toPhase l.next
  | .frame f l => { s with renderer := .nextFrame f l }
  | .stop result => s.toPhase (.stopped result)

section Follow

variable (s : Sys P) (phase : Phase P) (pass : Pass P)

@[simp] theorem toPhase_frames : (s.toPhase phase).frames = s.frames := by cases phase <;> rfl

@[simp] theorem toPhase_inbox : (s.toPhase phase).inbox = s.inbox := by cases phase <;> rfl

@[simp] theorem toPhase_quit : (s.toPhase phase).quit = s.quit := by cases phase <;> rfl

@[simp] theorem toPhase_frameThread : (s.toPhase phase).frameThread = s.frameThread := by cases phase <;> rfl

@[simp] theorem toPhase_timer : (s.toPhase phase).timer = s.timer := by cases phase <;> rfl

@[simp] theorem toPhase_keyboard : (s.toPhase phase).keyboard = s.keyboard := by cases phase <;> rfl

@[simp] theorem toPhase_main : (s.toPhase phase).main = s.main := by cases phase <;> rfl

@[simp] theorem toPhase_viewer : (s.toPhase phase).viewer = s.viewer := by cases phase <;> rfl

@[simp] theorem follow_frames : (s.follow pass).frames = s.frames := by cases pass <;> simp [follow]

@[simp] theorem follow_inbox : (s.follow pass).inbox = s.inbox := by cases pass <;> simp [follow]

@[simp] theorem follow_quit : (s.follow pass).quit = s.quit := by cases pass <;> simp [follow]

@[simp] theorem follow_frameThread : (s.follow pass).frameThread = s.frameThread := by cases pass <;> simp [follow]

@[simp] theorem follow_timer : (s.follow pass).timer = s.timer := by cases pass <;> simp [follow]

@[simp] theorem follow_keyboard : (s.follow pass).keyboard = s.keyboard := by cases pass <;> simp [follow]

@[simp] theorem follow_main : (s.follow pass).main = s.main := by cases pass <;> simp [follow]

@[simp] theorem follow_viewer : (s.follow pass).viewer = s.viewer := by cases pass <;> simp [follow]

/-- the events stay until the page returns -/
theorem toPhase_events :
    (s.toPhase phase).events = s.events ∧ (s.toPhase phase).renderer.isReturned = false ∨
      (s.toPhase phase).events = [] ∧ (s.toPhase phase).renderer.isReturned = true := by
  cases phase with
  | running l => exact .inl ⟨rfl, rfl⟩
  | stopped result => exact .inr ⟨rfl, rfl⟩

theorem follow_events :
    (s.follow pass).events = s.events ∧ (s.follow pass).renderer.isReturned = false ∨
      (s.follow pass).events = [] ∧ (s.follow pass).renderer.isReturned = true := by
  cases pass with
  | skip l => exact toPhase_events s l.next
  | frame f l => exact .inl ⟨rfl, rfl⟩
  | stop result => exact .inr ⟨rfl, rfl⟩

end Follow

def rendererStep (s : Sys P) : Option (Report × Sys P) :=
  match s.renderer with
  | .loading => some ({}, s.follow P.start)
  | .nextEvent l =>
    match s.events with
    | [] => none
    | e :: events => some ({ takenEvent := some e }, { s with events := events }.follow (l.pass e))
  | .nextFrame f l =>
    (offer CHANNEL_SIZE (!s.frameThread.isReturned) s.frames f).map fun r =>
      if r.1 then ({ sentFrame := some f }, { s with frames := r.2 }.toPhase l.next)
      else ({}, s.toPhase (.stopped (.ok l.eventLoopResult)))
  | .returned _ => none

/-! ## The other threads -/

/-- on its return, the thread drops the receiver of the frames -/
def frameThreadReturns (s : Sys P) : Sys P := { s with frameThread := .returned, frames := [] }

def frameThreadStep (s : Sys P) : Option (Report × Sys P) :=
  match s.frameThread with
  | .checkQuit => some ({}, if s.quit then s.frameThreadReturns else { s with frameThread := .recv })
  | .recv =>
    match s.frames with
    | f :: frames => some ({}, { s with frames := frames, frameThread := .send f })
    | [] => if s.renderer.isReturned then some ({}, s.frameThreadReturns) else none
  | .send f =>
    if s.main.left then some ({}, s.frameThreadReturns)
    else some ({}, { s with inbox := s.inbox ++ [.ofFrame f], frameThread := .checkQuit })
  | .returned => none

/-- send an event to the page: whether it was sent -/
def sendEvent (s : Sys P) (e : WrbEvent) : Option (Bool × Report × Sys P) :=
  (offer CHANNEL_SIZE (!s.renderer.isReturned) s.events e).map fun r =>
    (r.1, if r.1 then { sentEvent := some e } else {}, { s with events := r.2 })

def timerStep (s : Sys P) : Option (Report × Sys P) :=
  match s.timer with
  | .send => (s.sendEvent .timer).map fun (sent, r, s) => (r, { s with timer := if sent then .sleep else .returned })
  | .sleep => some ({}, { s with timer := .send })
  | .notStarted => none
  | .returned => none

def keyboardStep (s : Sys P) : Option (Report × Sys P) :=
  match s.keyboard with
  | .send key =>
    if s.main.left then some ({}, { s with keyboard := .returned })
    else some ({}, { s with inbox := s.inbox ++ [.stdin key], keyboard := .checkQuit })
  | .checkQuit => some ({}, { s with keyboard := if s.quit then .returned else .read })
  | .read => none
  | .returned => none

/-! ## The viewer -/

def setQuit (s : Sys P) : Sys P :=
  { s with
    quit := true, inbox := s.inbox ++ [.quit],
    viewer := { s.viewer with status := s.viewer.status.setText "Done! Press any key to exit".toList } }

/-- what the main thread sends where it is -/
def mainEvent (termSize : UInt64 × UInt64) : MainAt → Option WrbEvent
  | .sendOpen => some .pageOpen
  | .sendSize => some (.resize (Viewer.getRootSize termSize).1 (Viewer.getRootSize termSize).2)
  | .sendResize size => some (.resize (Viewer.getRootSize size).1 (Viewer.getRootSize size).2)
  | .emit events => events.head?.map .ui
  | .sendClose => some .close
  | .sendLastClose => some .close
  | _ => none

/-- where it goes on from there -/
def nextMain : MainAt → MainAt
  | .sendOpen => .sendSize
  | .sendSize => .checkQuit
  | .sendResize _ => .recv
  | .emit events => .emit events.tail
  | .sendClose => .joinTimer
  | .sendLastClose => .joinRenderer
  | main => main

/-- whether the viewer quits if this is not sent -/
def quitsUnsent : MainAt → Bool
  | .sendOpen => true
  | .sendSize => true
  | .sendResize _ => true
  | _ => false

/-- the size that the viewer has from there -/
def sizeSent (s : Sys P) (termSize : UInt64 × UInt64) : UInt64 × UInt64 :=
  match s.main with
  | .sendSize => termSize
  | .sendResize size => size
  | _ => s.viewer.size

def afterSend (s : Sys P) (termSize : UInt64 × UInt64) (sent : Bool) : Sys P :=
  let main := nextMain s.main
  let size := s.sizeSent termSize
  let s := if !sent && quitsUnsent s.main then s.setQuit else s
  { s with viewer := { s.viewer with size := size }, main := main }

/-- a frame that says how long to wait between two frames starts the timer -/
def startTimer (timer : TimerAt) : ViewerEvent → TimerAt
  | .root _ (some _) => if timer = .notStarted then .send else timer
  | _ => timer

/-- the main loop with an event from the inbox; the report names a frame if it is one -/
def receive (s : Sys P) (order : List ℕ) (e : ViewerEvent) : Report × Sys P :=
  let report : Report := { shownFrame := e.frame }
  if e.isQuit then (report, { s with main := .sendClose })
  else
    let s := { s with timer := startTimer s.timer e }
    match s.viewer.handle order e with
    -- a panic of the main thread ends the process
    | none => (report, { s with main := .exited })
    | some (.error _) => (report, { s with main := .sendLastClose })
    | some (.ok (doContinue, viewer)) =>
      let s := { s with viewer := viewer }
      let s := if doContinue then s else s.setQuit
      (report, { s with viewer := s.viewer.consumeRuntimeEvents.2, main := .emit s.viewer.consumeRuntimeEvents.1 })

def mainStep (s : Sys P) (termSize : UInt64 × UInt64) (order : List ℕ) : Option (Report × Sys P) :=
  match mainEvent termSize s.main with
  | some e => (s.sendEvent e).map fun (sent, r, s) => (r, s.afterSend termSize sent)
  | none =>
    match s.main with
    | .checkQuit =>
      some ({}, { s with
        main := if s.quit then .sendClose else if termSize = s.viewer.size then .recv else .sendResize termSize })
    | .recv =>
      match s.inbox with
      | [] => none
      | e :: inbox => some ({ s with inbox := inbox }.receive order e)
    | .emit _ => some ({}, { s with main := .checkQuit })
    | .joinTimer =>
      if s.timer = .notStarted ∨ s.timer = .returned then some ({}, { s with main := .joinFrames }) else none
    | .joinFrames => if s.frameThread.isReturned then some ({}, { s with main := .sendLastClose }) else none
    | .joinRenderer => if s.renderer.isReturned then some ({}, { s with main := .exited }) else none
    | _ => none

/-- where `get_term_size` and writes to the terminal are -/
def usesTerminal (s : Sys P) : Bool :=
  match s.main with
  | .sendSize => true
  | .checkQuit => !s.quit
  | .recv => s.inbox.head?.any fun e => !e.isQuit
  | _ => false

/-- `Viewer::main` returns with an error. The timer is started before a frame is written -/
def terminalFails (s : Sys P) : Sys P :=
  let timer := match s.main, s.inbox with
    | .recv, e :: _ => startTimer s.timer e
    | _, _ => s.timer
  { s with timer := timer, main := .sendLastClose }

def step (s : Sys P) (a : Act) : Option (Report × Sys P) :=
  if s.main = .exited then none
  else
    match a with
    | .renderer => s.rendererStep
    | .frameThread => s.frameThreadStep
    | .timer => s.timerStep
    | .keyboard => s.keyboardStep
    | .keyPressed key => if s.keyboard = .read then some ({}, { s with keyboard := .send key }) else none
    | .inputEnds => if s.keyboard = .read then some ({}, { s with keyboard := .returned }) else none
    | .main termSize order => s.mainStep termSize order
    | .terminalFails => if s.usesTerminal then some ({}, s.terminalFails) else none

/-! ## What a step can do -/

/-- the main thread with an event from the inbox: the loop ends at `Quit`, or the viewer is left for an error or a
panic, or it goes on to the events of its forms -/
inductive Received (s : Sys P) (e : ViewerEvent) : Sys P → Prop where
  | quit (h : e.isQuit = true) : Received s e { s with main := .sendClose }
  | left (main : MainAt) (h : main = .exited ∨ main = .sendLastClose) (hquit : e.isQuit = false) :
      Received s e { s with timer := startTimer s.timer e, main := main }
  | goesOn (viewer : Viewer) (events : List UiEvent) (hquit : e.isQuit = false)
      (hframe : viewer.lastFrame.isSome = true ↔ s.viewer.lastFrame.isSome = true ∨ e.frame.any (!·.isUpdate) = true) :
      Received s e { s with timer := startTimer s.timer e, viewer := viewer, main := .emit events }
  | quits (viewer : Viewer) (events : List UiEvent) (hquit : e.isQuit = false)
      (hkey : e = .stdin (.key (.char 'q')) ∧ s.viewer.lastFrame.isSome = true)
      (hframe : viewer.lastFrame.isSome = true ↔ s.viewer.lastFrame.isSome = true ∨ e.frame.any (!·.isUpdate) = true) :
      Received s e { s with
        timer := startTimer s.timer e, viewer := viewer, main := .emit events, quit := true,
        inbox := s.inbox ++ [.quit] }

/-- one step of a thread, and what it reports -/
inductive Step (s : Sys P) : Act → Report → Sys P → Prop where
  | load (h : s.renderer = .loading) : Step s .renderer {} (s.follow P.start)
  | take {l : EventLoop P} {e : WrbEvent} {events : List WrbEvent} (h : s.renderer = .nextEvent l)
      (hevents : s.events = e :: events) :
      Step s .renderer { takenEvent := some e } ({ s with events := events }.follow (l.pass e))
  | put {f : WrbFrameData} {l : EventLoop P} (h : s.renderer = .nextFrame f l)
      (halive : s.frameThread.isReturned = false) :
      Step s .renderer { sentFrame := some f } ({ s with frames := s.frames ++ [f] }.toPhase l.next)
  | putFails {f : WrbFrameData} {l : EventLoop P} (h : s.renderer = .nextFrame f l)
      (hgone : s.frameThread.isReturned = true) :
      Step s .renderer {} (s.toPhase (.stopped (.ok l.eventLoopResult)))
  | frameCheck (h : s.frameThread = .checkQuit) : Step s .frameThread {} { s with frameThread := .recv }
  | frameTake {f : WrbFrameData} {frames : List WrbFrameData} (h : s.frameThread = .recv)
      (hframes : s.frames = f :: frames) :
      Step s .frameThread {} { s with frames := frames, frameThread := .send f }
  | frameSend {f : WrbFrameData} (h : s.frameThread = .send f) (hleft : s.main.left = false) :
      Step s .frameThread {} { s with inbox := s.inbox ++ [.ofFrame f], frameThread := .checkQuit }
  | frameReturn (h : s.frameThread.isReturned = false)
      (hwhy : s.quit = true ∨ s.main.left = true ∨
        s.renderer.isReturned = true ∧ s.frameThread = .recv ∧ s.frames = []) :
      Step s .frameThread {} { s with frameThread := .returned, frames := [] }
  | timerSend (h : s.timer = .send) (halive : s.renderer.isReturned = false) :
      Step s .timer { sentEvent := some .timer } { s with events := s.events ++ [.timer], timer := .sleep }
  | timerReturn (h : s.timer = .send) (hgone : s.renderer.isReturned = true) :
      Step s .timer {} { s with timer := .returned }
  | timerWake (h : s.timer = .sleep) : Step s .timer {} { s with timer := .send }
  | keySend {key : TermKey} (h : s.keyboard = .send key) (hleft : s.main.left = false) :
      Step s .keyboard {} { s with inbox := s.inbox ++ [.stdin key], keyboard := .checkQuit }
  | keyboard {a : Act} (ha : a = .keyboard ∨ a = .inputEnds ∨ ∃ key, a = .keyPressed key) (at' : KeyboardAt)
      (hsend : ∀ key, at' = .send key → a = .keyPressed key)
      (hreturned : at' = .returned → a = .inputEnds ∨ s.quit = true ∨ s.main.left = true) :
      Step s a {} { s with keyboard := at' }
  | mainSend {termSize : UInt64 × UInt64} {order : List ℕ} {e : WrbEvent} (h : mainEvent termSize s.main = some e)
      (halive : s.renderer.isReturned = false) :
      Step s (.main termSize order) { sentEvent := some e }
        { s with events := s.events ++ [e], viewer := { s.viewer with size := s.sizeSent termSize },
                 main := nextMain s.main }
  | mainSendFails {termSize : UInt64 × UInt64} {order : List ℕ} {e : WrbEvent}
      (h : mainEvent termSize s.main = some e) (hgone : s.renderer.isReturned = true) (status : ViewerStatus) :
      Step s (.main termSize order) {}
        { s with quit := s.quit || quitsUnsent s.main,
                 inbox := s.inbox ++ if quitsUnsent s.main then [.quit] else [],
                 viewer := { s.viewer with size := s.sizeSent termSize, status := status }, main := nextMain s.main }
  | mainCheck {termSize : UInt64 × UInt64} {order : List ℕ} (main : MainAt) (h : s.main = .checkQuit)
      (hmain : if s.quit then main = .sendClose else main = .recv ∨ main = .sendResize termSize) :
      Step s (.main termSize order) {} { s with main := main }
  | mainReceive {termSize : UInt64 × UInt64} {order : List ℕ} {e : ViewerEvent} {inbox : List ViewerEvent}
      {s' : Sys P} (h : s.main = .recv) (hinbox : s.inbox = e :: inbox) (hs : Received { s with inbox := inbox } e s') :
      Step s (.main termSize order) { shownFrame := e.frame } s'
  | mainEmitted {termSize : UInt64 × UInt64} {order : List ℕ} (h : s.main = .emit []) :
      Step s (.main termSize order) {} { s with main := .checkQuit }
  | joinTimer {termSize : UInt64 × UInt64} {order : List ℕ} (h : s.main = .joinTimer)
      (htimer : s.timer = .notStarted ∨ s.timer = .returned) :
      Step s (.main termSize order) {} { s with main := .joinFrames }
  | joinFrames {termSize : UInt64 × UInt64} {order : List ℕ} (h : s.main = .joinFrames)
      (hframes : s.frameThread.isReturned = true) : Step s (.main termSize order) {} { s with main := .sendLastClose }
  | joinRenderer {termSize : UInt64 × UInt64} {order : List ℕ} (h : s.main = .joinRenderer)
      (hrenderer : s.renderer.isReturned = true) : Step s (.main termSize order) {} { s with main := .exited }
  | terminalFails (timer : TimerAt) (h : s.usesTerminal = true)
      (htimer : timer = s.timer ∨ ∃ e ∈ s.inbox, timer = startTimer s.timer e) :
      Step s .terminalFails {} { s with timer := timer, main := .sendLastClose }

variable {s s' : Sys P} {a : Act} {r : Report}

theorem receive_cases (order : List ℕ) (e : ViewerEvent) :
    (s.receive order e).1 = { shownFrame := e.frame } ∧ Received s e (s.receive order e).2 := by
  unfold receive
  dsimp only
  split_ifs with hquit
  · exact ⟨rfl, .quit hquit⟩
  · have hquit' : e.isQuit = false := by simpa using hquit
    split
    · exact ⟨rfl, .left .exited (.inl rfl) hquit'⟩
    · exact ⟨rfl, .left .sendLastClose (.inr rfl) hquit'⟩
    · next doContinue viewer hhandle =>
      have hframe : viewer.lastFrame.isSome = true ↔
          s.viewer.lastFrame.isSome = true ∨ e.frame.any (!·.isUpdate) = true := by
        rw [Viewer.handle_lastFrame hhandle]
        cases e <;> simp [ViewerEvent.frame, WrbFrameData.isUpdate]
      cases doContinue with
      | true =>
        refine ⟨rfl, .goesOn _ _ hquit' ?_⟩
        rwa [Viewer.consumeRuntimeEvents_lastFrame]
      | false =>
        refine ⟨rfl, .quits _ _ hquit' (Viewer.handle_quits hhandle) ?_⟩
        rwa [Viewer.consumeRuntimeEvents_lastFrame]

theorem sendEvent_cases {e : WrbEvent} {sent : Bool} (h : s.sendEvent e = some (sent, r, s')) :
    (s.renderer.isReturned = false ∧ sent = true ∧ r = { sentEvent := some e } ∧
      s' = { s with events := s.events ++ [e] }) ∨
    (s.renderer.isReturned = true ∧ sent = false ∧ r = {} ∧ s' = s) := by
  obtain ⟨⟨sent', events⟩, hoffer, heq⟩ := Option.map_eq_some_iff.1 h
  rcases offer_cases hoffer with ⟨halive, rfl, rfl⟩ | ⟨hgone, rfl, rfl⟩
  · cases heq
    exact .inl ⟨by simpa using halive, rfl, rfl, rfl⟩
  · cases heq
    exact .inr ⟨by simpa using hgone, rfl, rfl, rfl⟩

theorem afterSend_unsent (s : Sys P) (termSize : UInt64 × UInt64) : ∃ status, s.afterSend termSize false =
    { s with quit := s.quit || quitsUnsent s.main, inbox := s.inbox ++ if quitsUnsent s.main then [.quit] else [],
             viewer := { s.viewer with size := s.sizeSent termSize, status := status }, main := nextMain s.main } := by
  unfold afterSend
  cases hquits : quitsUnsent s.main with
  | true =>
    refine ⟨s.viewer.status.setText "Done! Press any key to exit".toList, ?_⟩
    simp [setQuit]
  | false => exact ⟨s.viewer.status, by simp⟩

theorem rendererStep_cases (h : s.rendererStep = some (r, s')) : Step s .renderer r s' := by
  unfold rendererStep at h
  split at h
  · next hloading =>
    cases h
    exact .load hloading
  · next l hnext =>
    split at h
    · cases h
    · next e events hevents =>
      cases h
      exact .take hnext hevents
  · next f l hnext =>
    obtain ⟨⟨sent, frames⟩, hoffer, heq⟩ := Option.map_eq_some_iff.1 h
    rcases offer_cases hoffer with ⟨halive, rfl, rfl⟩ | ⟨hgone, rfl, rfl⟩
    · cases heq
      exact .put hnext (by simpa using halive)
    · cases heq
      exact .putFails hnext (by simpa using hgone)
  · cases h

theorem frameThreadStep_cases (h : s.frameThreadStep = some (r, s')) : Step s .frameThread r s' := by
  unfold frameThreadStep at h
  split at h
  · next hat =>
    have hgoes : s.frameThread.isReturned = false := by rw [hat]; rfl
    split_ifs at h with hquit <;> cases h
    · exact .frameReturn hgoes (.inl hquit)
    · exact .frameCheck hat
  · next hat =>
    have hgoes : s.frameThread.isReturned = false := by rw [hat]; rfl
    split at h
    · next f frames hframes =>
      cases h
      exact .frameTake hat hframes
    · next hframes =>
      split_ifs at h with hgone
      cases h
      exact .frameReturn hgoes (.inr (.inr ⟨hgone, hat, hframes⟩))
  · next f hat =>
    have hgoes : s.frameThread.isReturned = false := by rw [hat]; rfl
    split_ifs at h with hleft <;> cases h
    · exact .frameReturn hgoes (.inr (.inl hleft))
    · exact .frameSend hat (by simpa using hleft)
  · cases h

theorem timerStep_cases (h : s.timerStep = some (r, s')) : Step s .timer r s' := by
  unfold timerStep at h
  split at h
  · next hat =>
    obtain ⟨⟨sent, r', s''⟩, hsend, heq⟩ := Option.map_eq_some_iff.1 h
    rcases sendEvent_cases hsend with ⟨halive, rfl, rfl, rfl⟩ | ⟨hgone, rfl, rfl, rfl⟩
    · cases heq
      exact .timerSend hat halive
    · cases heq
      exact .timerReturn hat hgone
  · next hat =>
    cases h
    exact .timerWake hat
  · cases h
  · cases h

theorem keyboardStep_cases (h : s.keyboardStep = some (r, s')) : Step s .keyboard r s' := by
  unfold keyboardStep at h
  split at h
  · next key hat =>
    split_ifs at h with hleft <;> cases h
    · exact .keyboard (.inl rfl) .returned (by simp) fun _ => .inr (.inr hleft)
    · exact .keySend hat (by simpa using hleft)
  · cases h
    refine .keyboard (.inl rfl) _ (by split_ifs <;> simp) ?_
    intro hat
    split_ifs at hat with hquit
    exact .inr (.inl hquit)
  · cases h
  · cases h

theorem mainStep_cases {termSize : UInt64 × UInt64} {order : List ℕ} (h : s.mainStep termSize order = some (r, s')) :
    Step s (.main termSize order) r s' := by
  unfold mainStep at h
  split at h
  · next e hevent =>
    obtain ⟨⟨sent, r', s''⟩, hsend, heq⟩ := Option.map_eq_some_iff.1 h
    rcases sendEvent_cases hsend with ⟨halive, rfl, rfl, rfl⟩ | ⟨hgone, rfl, rfl, hsame⟩
    · cases heq
      exact .mainSend hevent halive
    · cases heq
      obtain ⟨status, hstatus⟩ := afterSend_unsent s termSize
      rw [hsame, hstatus]
      exact .mainSendFails hevent hgone status
  · next hevent =>
    split at h
    · next hat =>
      cases h
      refine .mainCheck _ hat ?_
      split_ifs <;> simp
    · next hat =>
      split at h
      · cases h
      · next e inbox hinbox =>
        obtain ⟨hreport, hreceived⟩ := receive_cases (s := { s with inbox := inbox }) order e
        obtain rfl := congrArg Prod.fst (Option.some.inj h)
        obtain rfl := congrArg Prod.snd (Option.some.inj h)
        rw [hreport]
        exact .mainReceive hat hinbox hreceived
    · next events hat =>
      cases events with
      | nil =>
        cases h
        exact .mainEmitted hat
      | cons e events => simp [hat, mainEvent] at hevent
    · next hat =>
      split_ifs at h with htimer
      cases h
      exact .joinTimer hat htimer
    · next hat =>
      split_ifs at h with hframes
      cases h
      exact .joinFrames hat hframes
    · next hat =>
      split_ifs at h with hrenderer
      cases h
      exact .joinRenderer hat hrenderer
    · cases h

/-- **What a step can do.** -/
theorem step_cases (h : s.step a = some (r, s')) : s.main ≠ .exited ∧ Step s a r s' := by
  unfold step at h
  by_cases hexited : s.main = .exited
  · rw [if_pos hexited] at h
    cases h
  rw [if_neg hexited] at h
  refine ⟨hexited, ?_⟩
  cases a with
  | renderer => exact rendererStep_cases h
  | frameThread => exact frameThreadStep_cases h
  | timer => exact timerStep_cases h
  | keyboard => exact keyboardStep_cases h
  | keyPressed key =>
    dsimp only at h
    split_ifs at h
    cases h
    exact .keyboard (.inr (.inr ⟨key, rfl⟩)) _ (by simp) (by simp)
  | inputEnds =>
    dsimp only at h
    split_ifs at h
    cases h
    exact .keyboard (.inr (.inl rfl)) _ (by simp) fun _ => .inl rfl
  | main termSize order => exact mainStep_cases h
  | terminalFails =>
    dsimp only at h
    split_ifs at h with huses
    cases h
    refine .terminalFails _ huses ?_
    split
    · next hinbox => exact .inr ⟨_, by rw [hinbox]; exact List.mem_cons_self, rfl⟩
    · exact .inl rfl

end Sys

end Wrb.Ui
