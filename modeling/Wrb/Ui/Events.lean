/-
The event loop of a page (`src/ui/events.rs`, `Renderer::run_page`).

A page that has an event loop function is called with one event after the other. The first event it handles is answered
with a whole frame, each later one with an update of the forms. An event that the page is not subscribed to is skipped,
unless it is the opening of the page or the page has no subscriptions; `Close` ends the loop, and is handled first if it
is not skipped. Where the function or the making of a frame fails, the loop ends.

`serve` runs the loop on a list of events, with a receiver of frames that is always there.

Results:
- `serve_frames`: whatever the events and the page, nothing or one whole frame is made and then updates only, and while
  the loop runs there is exactly one frame for each event that the page handles.
-/
import Wrb.Ui.Root
import Wrb.Lib.Runs

namespace Wrb.Ui

open Wrb.Runs

/-- events for the main event loop -/
inductive WrbEvent where
  /-- `Open` -/
  | pageOpen
  /-- close the event loop -/
  | close
  /-- the timer went off -/
  | timer
  /-- a resize happened; the new size is (row, col) -/
  | resize (rows cols : UInt64)
  | ui (event : UiEvent)
deriving DecidableEq, Repr

def WrbEvent.eventType : WrbEvent → ℕ
  | pageOpen => 3
  | close => 0
  | timer => 1
  | resize _ _ => 2
  | ui _ => 4

inductive WrbFrameData where
  /-- a whole frame, with its `frame_delay` -/
  | root (root : Root) (frameDelay : Option UInt64)
  | update (update : FrameUpdate)

/-- a page that was loaded: where the code and its settings are found -/
structure Loaded (Db : Type) where
  db : Db
  /-- whether there is an event loop function -/
  eventLoopFunc : Bool
  /-- an empty list stands for all events -/
  eventSubscriptions : List ℕ
  eventLoopDelay : UInt64

/-- what `run_page` takes from the virtual machine and the code of the page -/
structure PageExt where
  Db : Type
  Value : Type
  Error : Type
  /-- `initialize_app` and `begin_page_load`, and the event loop function, the subscriptions and the delay -/
  load : Except Error (Loaded Db)
  runOneEventLoopPass : Db → WrbEvent → Except Error Value × Db
  makeRoot : Db → Except Error Root × Db
  makeRootUpdate : Db → Except Error FrameUpdate × Db

/-- the loop before it waits for the next event -/
structure EventLoop (P : PageExt) where
  page : Loaded P.Db
  willClose : Bool
  /-- whether a whole frame was sent: `root_viewports.is_some()` -/
  rootSent : Bool
  eventLoopResult : Option P.Value

/-- how a pass of the loop ends: without a frame, with a frame to send, or with the end of `run_page` -/
inductive Pass (P : PageExt) where
  | skip (l : EventLoop P)
  | frame (f : WrbFrameData) (l : EventLoop P)
  | stop (result : Except P.Error (Option P.Value))

variable {P : PageExt}

/-- whether an event gets to the event loop function -/
def Loaded.handles {Db : Type} (page : Loaded Db) (e : WrbEvent) : Bool :=
  decide (page.eventSubscriptions = [] ∨ e.eventType ∈ page.eventSubscriptions ∨ e = .pageOpen)

namespace EventLoop

/-- the next frame after the page handled an event: an update, or at first the whole frame -/
def nextFrame (l : EventLoop P) : Pass P :=
  if l.rootSent then
    match P.makeRootUpdate l.page.db with
    | (.error e, _) => .stop (.error e)
    | (.ok update, db) => .frame (.update update) { l with page := { l.page with db := db } }
  else
    match P.makeRoot l.page.db with
    | (.error e, _) => .stop (.error e)
    | (.ok root, db) =>
      let hasTimerEvent := WrbEvent.timer.eventType ∈ l.page.eventSubscriptions
      .frame (.root root (if hasTimerEvent then some l.page.eventLoopDelay else none))
        { l with page := { l.page with db := db }, rootSent := true }

/-- one pass of the loop, up to the sending of the frame -/
def pass (l : EventLoop P) (e : WrbEvent) : Pass P :=
  let l := { l with willClose := decide (e = .close) }
  if l.page.handles e = false then .skip l
  else
    match P.runOneEventLoopPass l.page.db e with
    -- the result of the pass before stays
    | (.error _, _) => .stop (.ok l.eventLoopResult)
    | (.ok value, db) => nextFrame { l with page := { l.page with db := db }, eventLoopResult := some value }

/-- a page without an event loop function is drawn once -/
def singlePass (page : Loaded P.Db) : Pass P :=
  match P.makeRoot page.db with
  | (.error e, _) => .stop (.error e)
  | (.ok root, db) => .frame (.root root none) ⟨{ page with db := db }, true, true, none⟩

end EventLoop

/-- `run_page` up to its loop -/
def PageExt.start (P : PageExt) : Pass P :=
  match P.load with
  | .error e => .stop (.error e)
  | .ok page => if page.eventLoopFunc then .skip ⟨page, false, false, none⟩ else EventLoop.singlePass page

/-! ## A run of the loop -/

/-- between two events: waiting for the next, or at the end of `run_page` -/
inductive Phase (P : PageExt) where
  | running (l : EventLoop P)
  | stopped (result : Except P.Error (Option P.Value))

/-- the loop after a frame was sent or an event skipped -/
def EventLoop.next (l : EventLoop P) : Phase P := if l.willClose then .stopped (.ok l.eventLoopResult) else .running l

/-- the frames made so far, and where the loop is -/
structure Served (P : PageExt) where
  frames : List WrbFrameData
  phase : Phase P

/-- the loop goes on from a pass -/
def Served.follow (frames : List WrbFrameData) : Pass P → Served P
  | .skip l => ⟨frames, l.next⟩
  | .frame f l => ⟨frames ++ [f], l.next⟩
  | .stop result => ⟨frames, .stopped result⟩

@[simp] theorem Served.follow_skip (frames : List WrbFrameData) (l : EventLoop P) :
    follow frames (.skip l) = ⟨frames, l.next⟩ := rfl

@[simp] theorem Served.follow_frame (frames : List WrbFrameData) (f : WrbFrameData) (l : EventLoop P) :
    follow frames (.frame f l) = ⟨frames ++ [f], l.next⟩ := rfl

@[simp] theorem Served.follow_stop (frames : List WrbFrameData) (result : Except P.Error (Option P.Value)) :
    follow frames (.stop result) = ⟨frames, .stopped result⟩ := rfl

def Served.step (s : Served P) (e : WrbEvent) : Served P :=
  match s.phase with
  | .running l => follow s.frames (l.pass e)
  | .stopped _ => s

/-- the frames that the page makes of a list of events -/
def PageExt.serve (P : PageExt) (events : List WrbEvent) : Served P := run Served.step (Served.follow [] P.start) events

theorem PageExt.serve_concat (events : List WrbEvent) (e : WrbEvent) :
    P.serve (events ++ [e]) = (P.serve events).step e := run_append ..

/-! ## What a page sends -/

def WrbFrameData.isUpdate : WrbFrameData → Bool
  | root _ _ => false
  | update _ => true

/-- nothing, or a whole frame and then updates -/
def RootThenUpdates (frames : List WrbFrameData) : Prop :=
  frames = [] ∨ ∃ root delay updates, frames = .root root delay :: updates ∧ ∀ f ∈ updates, f.isUpdate = true

theorem RootThenUpdates.concat {frames : List WrbFrameData} (h : RootThenUpdates frames) (hne : frames ≠ [])
    (update : FrameUpdate) : RootThenUpdates (frames ++ [.update update]) := by
  obtain hnil | ⟨root, delay, updates, rfl, hall⟩ := h
  · exact absurd hnil hne
  · refine .inr ⟨root, delay, updates ++ [.update update], rfl, ?_⟩
    intro f hf
    rcases List.mem_append.1 hf with hf | hf
    · exact hall f hf
    · obtain rfl := List.mem_singleton.1 hf
      rfl

/-- how a pass ends -/
theorem EventLoop.nextFrame_cases (l : EventLoop P) :
    (∃ update db, l.rootSent = true ∧
      l.nextFrame = .frame (.update update) { l with page := { l.page with db := db } }) ∨
    (∃ root delay db, l.rootSent = false ∧
      l.nextFrame = .frame (.root root delay) { l with page := { l.page with db := db }, rootSent := true }) ∨
    ∃ result, l.nextFrame = .stop result := by
  unfold nextFrame
  split_ifs with hsent
  · split
    · exact .inr (.inr ⟨_, rfl⟩)
    · exact .inl ⟨_, _, hsent, rfl⟩
  · split
    · exact .inr (.inr ⟨_, rfl⟩)
    · exact .inr (.inl ⟨_, _, _, by simpa using hsent, rfl⟩)

/-- what holds of the frames so far and of the loop, if its page has an event loop function -/
structure Serving (handled : ℕ) (frames : List WrbFrameData) (l : EventLoop P) : Prop where
  shape : RootThenUpdates frames
  rootSent : l.rootSent = true ↔ frames ≠ []
  count : frames.length = handled

/-- a pass that goes on keeps count; if it stops, the frames stay -/
theorem EventLoop.pass_serving {l : EventLoop P} {handled : ℕ} {frames : List WrbFrameData}
    (h : Serving handled frames l) (e : WrbEvent) :
    (∃ l', l.pass e = .skip l' ∧ l.page.handles e = false ∧ l'.page = l.page ∧ Serving handled frames l') ∨
    (∃ f l', l.pass e = .frame f l' ∧ l.page.handles e = true ∧ (∀ e, l'.page.handles e = l.page.handles e) ∧
      Serving (handled + 1) (frames ++ [f]) l') ∨
    ∃ result, l.pass e = .stop result := by
  unfold pass
  dsimp only
  split_ifs with hskip
  · exact .inl ⟨_, rfl, hskip, rfl, h.shape, h.rootSent, h.count⟩
  · split
    · exact .inr (.inr ⟨_, rfl⟩)
    · next value db heq =>
      refine .inr ?_
      have hhandles : l.page.handles e = true := by simpa using hskip
      rcases nextFrame_cases (P := P) ⟨{ l.page with db := db }, decide (e = .close), l.rootSent, some value⟩ with
        ⟨update, db', hsent, hnext⟩ | ⟨root, delay, db', hsent, hnext⟩ | ⟨result, hnext⟩
      · refine .inl ⟨_, _, hnext, hhandles, fun _ => rfl, h.shape.concat (h.rootSent.1 hsent) update, ?_, ?_⟩
        · simpa using hsent
        · simp [h.count]
      · have hnil : frames = [] := by
          by_contra hne
          have hbad := h.rootSent.2 hne
          simp_all
        subst hnil
        have hzero : handled = 0 := h.count.symm
        refine .inl ⟨_, _, hnext, hhandles, fun _ => rfl, .inr ⟨root, delay, [], rfl, by simp⟩, by simp, ?_⟩
        simp [hzero]
      · exact .inr ⟨result, hnext⟩

/-- after some events: the frames, and if the loop runs, what holds of it -/
structure ServedWell (events : List WrbEvent) (s : Served P) : Prop where
  shape : RootThenUpdates s.frames
  running : ∀ l, s.phase = .running l → Serving (events.countP l.page.handles) s.frames l

theorem next_running {l l' : EventLoop P} (h : l.next = .running l') : l' = l := by
  unfold EventLoop.next at h
  split_ifs at h
  exact (Phase.running.inj h).symm

theorem ServedWell.start (P : PageExt) : ServedWell [] (Served.follow [] P.start) := by
  unfold PageExt.start
  cases P.load with
  | error e => exact ⟨.inl rfl, fun l hl => by cases hl⟩
  | ok page =>
    dsimp only
    split_ifs with hfunc
    · rw [Served.follow_skip]
      refine ⟨.inl rfl, ?_⟩
      intro l hl
      dsimp only at hl
      obtain rfl := next_running hl
      exact ⟨.inl rfl, by simp, rfl⟩
    · unfold EventLoop.singlePass
      split
      · exact ⟨.inl rfl, fun l hl => by cases hl⟩
      · exact ⟨.inr ⟨_, _, [], rfl, by simp⟩, fun l hl => by cases hl⟩

theorem ServedWell.step {events : List WrbEvent} {s : Served P} (h : ServedWell events s) (e : WrbEvent) :
    ServedWell (events ++ [e]) (s.step e) := by
  unfold Served.step
  cases hphase : s.phase with
  | stopped result =>
    refine ⟨h.shape, ?_⟩
    intro l hl
    rw [hphase] at hl
    cases hl
  | running l =>
    dsimp only
    rcases EventLoop.pass_serving (h.running l hphase) e with
      ⟨l', hpass, hskip, hpage, hserving⟩ | ⟨f, l', hpass, hhandles, hpage, hserving⟩ | ⟨result, hpass⟩
    · rw [hpass, Served.follow_skip]
      refine ⟨h.shape, ?_⟩
      intro l₁ hl₁
      dsimp only at hl₁
      obtain rfl := next_running hl₁
      rw [hpage, List.countP_append]
      simpa [hskip] using hserving
    · rw [hpass, Served.follow_frame]
      refine ⟨hserving.shape, ?_⟩
      intro l₁ hl₁
      dsimp only at hl₁
      obtain rfl := next_running hl₁
      rw [funext hpage, List.countP_append]
      simpa [hhandles] using hserving
    · rw [hpass]
      exact ⟨h.shape, fun l hl => by cases hl⟩

/-- the page's function takes the event, and the frame after it can be made -/
def EventLoop.Answers (l : EventLoop P) (e : WrbEvent) : Prop :=
  ∃ value db, P.runOneEventLoopPass l.page.db e = (.ok value, db) ∧
    if l.rootSent then ∃ update db', P.makeRootUpdate db = (.ok update, db')
    else ∃ root db', P.makeRoot db = (.ok root, db')

theorem EventLoop.next_running_iff {l : EventLoop P} : (∃ l', l.next = .running l') ↔ l.willClose = false := by
  unfold EventLoop.next
  split_ifs with hclose
  · simp [hclose]
  · simpa using hclose

/-- a frame comes out of the loop, which goes on unless it was told to close -/
theorem Served.follow_nextFrame_iff {frames : List WrbFrameData} {l : EventLoop P} :
    (∃ l', (Served.follow frames l.nextFrame).phase = .running l') ↔
      l.willClose = false ∧ if l.rootSent then ∃ update db', P.makeRootUpdate l.page.db = (.ok update, db')
        else ∃ root db', P.makeRoot l.page.db = (.ok root, db') := by
  unfold EventLoop.nextFrame
  split_ifs with hsent
  · rcases hmake : P.makeRootUpdate l.page.db with ⟨e | update, db'⟩
    · simp
    · simp [EventLoop.next_running_iff]
  · rcases hmake : P.makeRoot l.page.db with ⟨e | root, db'⟩
    · simp
    · simp [EventLoop.next_running_iff]

/-- when the loop goes on: it stops at `Close`, and at an event that the page handles and does not answer -/
theorem Served.step_running_iff {frames : List WrbFrameData} {l : EventLoop P} (e : WrbEvent) :
    (∃ l', (Served.step ⟨frames, .running l⟩ e).phase = .running l') ↔
      e ≠ .close ∧ (l.page.handles e = true → l.Answers e) := by
  simp only [Served.step, EventLoop.pass, EventLoop.Answers]
  by_cases hskip : l.page.handles e = false
  · simp [hskip, EventLoop.next_running_iff]
  · rw [if_neg hskip]
    rcases hpass : P.runOneEventLoopPass l.page.db e with ⟨error | value, db⟩
    · simp [hskip]
    · simp [hskip, Served.follow_nextFrame_iff]

/-- **The answers of a page.** Whatever events a page is served, it makes nothing, or one whole frame and then updates
only; and while its loop runs (`Served.step_running_iff`), it has made exactly one frame for each event that it
handles. -/
theorem serve_frames (P : PageExt) (events : List WrbEvent) :
    RootThenUpdates (P.serve events).frames ∧
      ∀ l, (P.serve events).phase = .running l → (P.serve events).frames.length = events.countP l.page.handles := by
  have h : ServedWell events (P.serve events) := by
    induction events using List.reverseRecOn with
    | nil => exact ServedWell.start P
    | append_singleton events e ih =>
      rw [PageExt.serve_concat]
      exact ih.step e
  exact ⟨h.shape, fun l hl => (h.running l hl).count⟩

/-- a page without elements, that answers every event -/
def blankPage : PageExt where
  Db := Unit
  Value := Unit
  Error := Unit
  load := .ok ⟨(), true, [], 1000⟩
  runOneEventLoopPass _ _ := (.ok (), ())
  makeRoot _ := (.ok (Root.new 0 0 ⟨[], ∅, ∅, [[]], ∅⟩), ())
  makeRootUpdate _ := (.ok ⟨[], []⟩, ())

/-- the page is opened, its timer goes off, and it waits for the next event -/
theorem serve_frames_blankPage : RootThenUpdates (blankPage.serve [.pageOpen, .timer]).frames ∧
    (blankPage.serve [.pageOpen, .timer]).frames.length = 2 :=
  ⟨(serve_frames blankPage [.pageOpen, .timer]).1, (serve_frames blankPage [.pageOpen, .timer]).2 _ rfl⟩

end Wrb.Ui
