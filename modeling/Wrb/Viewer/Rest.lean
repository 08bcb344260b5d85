/-
Where the threads of the browser come to rest, and why the viewer quits.

The two bounded channels go in a circle: the viewer and the timer send events to the page, the page sends frames that
get back to the viewer. No thread is stuck in it: the thread between the page and the viewer always takes the next
frame, since the inbox of the viewer has no bound, so the page goes on and takes the next event.

Results:
- `idle_iff`: in every state that a run reaches, no thread can go on exactly when the process has exited or the viewer
  waits for a key with every channel empty;
- `idle_settled`: then every event that was sent was handled and every frame was shown, and the keyboard is still read
  unless the input has ended;
- `quits_why`: the viewer quits only for a `q` that was typed, and once it has shown a frame, or since the page has
  returned.
-/
import Wrb.Viewer.Order

namespace Wrb.Ui

open Wrb.Runs Wrb.Channels

variable {P : PageExt}

/-- `Viewer::main` up to the end of its loop -/
def MainAt.inLoop : MainAt → Bool
  | sendOpen => true
  | sendSize => true
  | checkQuit => true
  | sendResize _ => true
  | recv => true
  | emit _ => true
  | _ => false

/-- waiting for a thread to return -/
def MainAt.joins : MainAt → Bool
  | joinTimer => true
  | joinFrames => true
  | joinRenderer => true
  | _ => false

/-- with these events queued, the page has got `Close` or it will -/
def RendererAt.Closed (events : List WrbEvent) : RendererAt P → Prop
  | returned _ => True
  | nextFrame _ l => l.willClose = true ∨ .close ∈ events
  | nextEvent _ => .close ∈ events
  | loading => .close ∈ events

theorem RendererAt.Closed.mono {renderer : RendererAt P} {events events' : List WrbEvent} (h : renderer.Closed events)
    (hclose : .close ∈ events → .close ∈ events') : renderer.Closed events' := by
  cases renderer with
  | returned result => trivial
  | nextFrame f l => exact h.imp_right hclose
  | nextEvent l => exact hclose h
  | loading => exact hclose h

theorem RendererAt.closed_of_returned {renderer : RendererAt P} {events : List WrbEvent}
    (h : renderer.isReturned = true) : renderer.Closed events := by
  cases renderer with
  | returned result => trivial
  | _ => cases h

theorem RendererAt.closed_of_mem {renderer : RendererAt P} {events : List WrbEvent} (h : .close ∈ events) :
    renderer.Closed events := by
  cases renderer with
  | returned result => trivial
  | nextFrame f l => exact .inr h
  | nextEvent l => exact h
  | loading => exact h

namespace Sys

variable {s s' : Sys P} {a : Act} {r : Report} {rs : List Report} {acts done : List Act} {wrbName : List Char}

/-- why the threads that have returned did so, and what the viewer can count on -/
structure Standing (done : List Act) (s : Sys P) : Prop where
  /-- a viewer in its loop that has to quit finds this in its inbox -/
  quits : s.quit = true → s.main.inLoop = true → ∃ e ∈ s.inbox, e.isQuit = true
  frameThread : s.frameThread.isReturned = true → s.quit = true ∨ s.main.left = true ∨ s.renderer.isReturned = true
  keyboard : s.keyboard = .returned → .inputEnds ∈ done ∨ s.quit = true ∨ s.main.left = true
  closed : s.main.joins = true → s.renderer.Closed s.events
  noEvents : s.renderer.isReturned = true → s.events = []
  noFrames : s.frameThread.isReturned = true → s.frames = []

/-! ## Closing -/

/-- a pass of the loop ends it if the event was `Close` -/
theorem pass_willClose (l : EventLoop P) (e : WrbEvent) :
    (∃ l', l.pass e = .skip l' ∧ l'.willClose = decide (e = .close)) ∨
      (∃ f l', l.pass e = .frame f l' ∧ l'.willClose = decide (e = .close)) ∨ ∃ result, l.pass e = .stop result := by
  unfold EventLoop.pass
  dsimp only
  split_ifs
  · exact .inl ⟨_, rfl, rfl⟩
  · split
    · exact .inr (.inr ⟨_, rfl⟩)
    · next value db heq =>
      rcases EventLoop.nextFrame_cases (P := P)
        ⟨{ l.page with db := db }, decide (e = .close), l.rootSent, some value⟩ with
        ⟨update, db', -, hnext⟩ | ⟨root, delay, db', -, hnext⟩ | ⟨result, hnext⟩
      · exact .inr (.inl ⟨_, _, hnext, rfl⟩)
      · exact .inr (.inl ⟨_, _, hnext, rfl⟩)
      · exact .inr (.inr ⟨result, hnext⟩)

theorem toPhase_closed {l : EventLoop P} (h : l.willClose = true ∨ .close ∈ s.events) :
    (s.toPhase l.next).renderer.Closed (s.toPhase l.next).events := by
  unfold EventLoop.next
  split_ifs with hclose
  · trivial
  · exact h.resolve_left hclose

theorem follow_closed {pass : Pass P} (h : .close ∈ s.events) :
    (s.follow pass).renderer.Closed (s.follow pass).events := by
  cases pass with
  | skip l => exact toPhase_closed (.inr h)
  | frame f l => exact .inr h
  | stop result => trivial

/-- whoever goes on, the page will get its `Close` -/
theorem closed_step (hstep : Step s a r s') (h : s.renderer.Closed s.events) : s'.renderer.Closed s'.events := by
  cases hstep with
  | load hat =>
    rw [hat] at h
    exact follow_closed h
  | @take l e events hat hevents =>
    rw [hat, hevents] at h
    rcases List.mem_cons.1 h with hclose | hmem
    · rcases pass_willClose l e with ⟨l', hpass, hwill⟩ | ⟨f, l', hpass, hwill⟩ | ⟨result, hpass⟩
      · rw [hpass]
        exact toPhase_closed (.inl (by simp [hwill, ← hclose]))
      · rw [hpass]
        exact .inl (by simp [hwill, ← hclose])
      · rw [hpass]
        trivial
    · exact follow_closed hmem
  | put hat halive =>
    rw [hat] at h
    exact toPhase_closed h
  | putFails hat hgone => trivial
  | timerSend hat halive => exact h.mono (List.mem_append_left _)
  | mainSend hevent halive => exact h.mono (List.mem_append_left _)
  | mainReceive hat hinbox hs => cases hs <;> exact h
  | _ => exact h

/-! ## Every state that a run reaches -/

theorem nextMain_inLoop (main : MainAt) (h : (nextMain main).inLoop = true) : main.inLoop = true := by
  revert h
  cases main <;> simp [nextMain, MainAt.inLoop]

theorem standing_quits (hstep : Step s a r s')
    (h : s.quit = true → s.main.inLoop = true → ∃ e ∈ s.inbox, e.isQuit = true) (hquit : s'.quit = true)
    (hloop : s'.main.inLoop = true) : ∃ e ∈ s'.inbox, e.isQuit = true := by
  have hmore : ∀ more, (∃ e ∈ s.inbox, e.isQuit = true) → ∃ e ∈ s.inbox ++ more, e.isQuit = true := by
    intro more hmem
    obtain ⟨e, hmem, he⟩ := hmem
    exact ⟨e, List.mem_append_left _ hmem, he⟩
  cases hstep with
  | frameSend hat hleft => exact hmore _ (h hquit hloop)
  | keySend hat hleft => exact hmore _ (h hquit hloop)
  | mainSend hevent halive => exact h hquit (nextMain_inLoop s.main hloop)
  | mainSendFails hevent hgone status =>
    cases hunsent : quitsUnsent s.main with
    | true => exact ⟨.quit, by simp, rfl⟩
    | false => exact hmore _ (h (by simpa [hunsent] using hquit) (nextMain_inLoop s.main hloop))
  | mainCheck main hat hmain =>
    -- a viewer that has to quit leaves the loop here
    rw [if_pos hquit] at hmain
    subst hmain
    cases hloop
  | @mainReceive _ _ e inbox _ hat hinbox hs =>
    have hrest : e.isQuit = false → s.quit = true → ∃ e ∈ inbox, e.isQuit = true := by
      intro he hquit
      obtain ⟨e', hmem, he'⟩ := h hquit (by rw [hat]; rfl)
      rw [hinbox] at hmem
      rcases List.mem_cons.1 hmem with rfl | hmem
      · rw [he] at he'
        cases he'
      · exact ⟨e', hmem, he'⟩
    cases hs with
    | quit hq => cases hloop
    | left main hmain hq => rcases hmain with rfl | rfl <;> cases hloop
    | goesOn viewer events hq hframe => exact hrest hq hquit
    | quits viewer events hq hkey hframe => exact ⟨.quit, by simp, rfl⟩
  | mainEmitted hat => exact h hquit (by rw [hat]; rfl)
  | joinTimer hat htimer => cases hloop
  | joinFrames hat hframes => cases hloop
  | joinRenderer hat hrenderer => cases hloop
  | terminalFails timer huses htimer => cases hloop
  | _ => simpa using h (by simpa using hquit) (by simpa using hloop)

theorem standing_frameThread (hstep : Step s a r s')
    (h : s.frameThread.isReturned = true → s.quit = true ∨ s.main.left = true ∨ s.renderer.isReturned = true)
    (hreturned : s'.frameThread.isReturned = true) :
    s'.quit = true ∨ s'.main.left = true ∨ s'.renderer.isReturned = true := by
  have hstays := fun hwhy : s.quit = true ∨ s.main.left = true ∨ s.renderer.isReturned = true =>
    hwhy.imp (quit_stays hstep) (Or.imp (left_stays hstep) (returned_stays hstep))
  cases hstep with
  | frameCheck hat => cases hreturned
  | frameTake hat hframes => cases hreturned
  | frameSend hat hleft => cases hreturned
  | frameReturn hgoes hwhy => exact hstays (hwhy.imp_right (Or.imp_right And.left))
  | mainReceive hat hinbox hs => exact hstays (h (by cases hs <;> exact hreturned))
  | _ => exact hstays (h (by simpa using hreturned))

theorem standing_keyboard (hstep : Step s a r s')
    (h : s.keyboard = .returned → .inputEnds ∈ done ∨ s.quit = true ∨ s.main.left = true)
    (hreturned : s'.keyboard = .returned) : .inputEnds ∈ done ++ [a] ∨ s'.quit = true ∨ s'.main.left = true := by
  have hstays := fun hwhy : .inputEnds ∈ done ∨ s.quit = true ∨ s.main.left = true =>
    hwhy.imp (List.mem_append_left [a]) (Or.imp (quit_stays hstep) (left_stays hstep))
  cases hstep with
  | keySend hat hleft => cases hreturned
  | keyboard ha at' hsend hwhy => exact (hwhy hreturned).imp_left fun heq => by simp [heq]
  | mainReceive hat hinbox hs => exact hstays (h (by cases hs <;> exact hreturned))
  | _ => exact hstays (h (by simpa using hreturned))

theorem standing_closed (hstep : Step s a r s') (h : s.main.joins = true → s.renderer.Closed s.events)
    (hjoins : s'.main.joins = true) : s'.renderer.Closed s'.events := by
  by_cases hbefore : s.main.joins = true
  · exact closed_step hstep (h hbefore)
  · cases hstep with
    | @mainSend _ _ e hevent halive =>
      have hclose : e = .close := by
        revert hevent hjoins hbefore
        cases s.main <;> simp +contextual [mainEvent, nextMain, MainAt.joins, eq_comm]
      exact RendererAt.closed_of_mem (by simp [hclose])
    | mainSendFails hevent hgone status => exact RendererAt.closed_of_returned hgone
    | mainCheck main hat hmain =>
      dsimp only at hjoins
      split_ifs at hmain
      · rw [hmain] at hjoins
        cases hjoins
      · rcases hmain with rfl | rfl <;> cases hjoins
    | mainReceive hat hinbox hs =>
      cases hs with
      | left main hmain hq => rcases hmain with rfl | rfl <;> cases hjoins
      | _ => cases hjoins
    | mainEmitted hat => cases hjoins
    | joinTimer hat htimer => exact absurd (by rw [hat]; rfl) hbefore
    | joinFrames hat hframes => cases hjoins
    | joinRenderer hat hrenderer => cases hjoins
    | terminalFails timer huses htimer => cases hjoins
    | _ => exact absurd (by simpa using hjoins) hbefore

theorem standing_noEvents (hstep : Step s a r s') (h : s.renderer.isReturned = true → s.events = [])
    (hreturned : s'.renderer.isReturned = true) : s'.events = [] := by
  cases hstep with
  | load hat =>
    rcases s.follow_events P.start with ⟨-, hgoes⟩ | ⟨hevents, -⟩
    · rw [hgoes] at hreturned
      cases hreturned
    · exact hevents
  | @take l e events hat hqueue =>
    rcases follow_events { s with events := events } (l.pass e) with ⟨-, hgoes⟩ | ⟨hevents, -⟩
    · rw [hgoes] at hreturned
      cases hreturned
    · exact hevents
  | @put f l hat halive =>
    rcases toPhase_events { s with frames := s.frames ++ [f] } l.next with ⟨-, hgoes⟩ | ⟨hevents, -⟩
    · rw [hgoes] at hreturned
      cases hreturned
    · exact hevents
  | putFails hat hgone => rfl
  | timerSend hat halive => simp [halive] at hreturned
  | mainSend hevent halive => simp [halive] at hreturned
  | mainReceive hat hinbox hs => cases hs <;> exact h hreturned
  | _ => exact h hreturned

theorem standing_noFrames (hstep : Step s a r s') (h : s.frameThread.isReturned = true → s.frames = [])
    (hreturned : s'.frameThread.isReturned = true) : s'.frames = [] := by
  cases hstep with
  | put hat halive => simp [halive] at hreturned
  | frameCheck hat => cases hreturned
  | frameTake hat hframes => cases hreturned
  | frameSend hat hleft => cases hreturned
  | frameReturn hgoes hwhy => rfl
  | mainReceive hat hinbox hs => cases hs <;> exact h hreturned
  | _ => simpa using h (by simpa using hreturned)

theorem standing_start (P : PageExt) (wrbName : List Char) : Standing [] (start P wrbName) where
  quits h := by cases h
  frameThread h := by cases h
  keyboard h := by cases h
  closed h := by cases h
  noEvents h := by cases h
  noFrames h := by cases h

theorem standing_step (h : Standing done s) (hstep : s.step a = some (r, s')) : Standing (done ++ [a]) s' := by
  obtain ⟨-, hstep⟩ := step_cases hstep
  exact ⟨standing_quits hstep h.quits, standing_frameThread hstep h.frameThread, standing_keyboard hstep h.keyboard,
    standing_closed hstep h.closed, standing_noEvents hstep h.noEvents, standing_noFrames hstep h.noFrames⟩

theorem standing_of_run (hrun : runSome step (start P wrbName) acts = some (rs, s)) : Standing acts s :=
  runSome_record (fun _ _ _ _ _ h hstep => standing_step h hstep) (standing_start P wrbName) hrun

/-! ## At rest -/

theorem rendererStep_none (h : s.rendererStep = none) :
    (∃ l, s.renderer = .nextEvent l ∧ s.events = []) ∨
      (s.frameThread.isReturned = false ∧ s.renderer.isReturned = false ∧ s.frames ≠ []) ∨
      s.renderer.isReturned = true := by
  unfold rendererStep at h
  split at h
  · cases h
  · next l hat =>
    split at h
    · next hevents => exact .inl ⟨l, hat, hevents⟩
    · cases h
  · next f l hat =>
    obtain ⟨halive, hfull⟩ := offer_eq_none_iff.1 (Option.map_eq_none_iff.1 h)
    refine .inr (.inl ⟨by simpa using halive, by rw [hat]; rfl, ?_⟩)
    intro hnil
    simp [hnil, CHANNEL_SIZE] at hfull
  · next result hat => exact .inr (.inr (by rw [hat]; rfl))

theorem frameThreadStep_none (h : s.frameThreadStep = none) :
    (s.frameThread = .recv ∧ s.frames = [] ∧ s.renderer.isReturned = false) ∨ s.frameThread.isReturned = true := by
  unfold frameThreadStep at h
  split at h
  · cases h
  · next hat =>
    split at h
    · cases h
    · next hframes =>
      split_ifs at h with hgone
      exact .inl ⟨hat, hframes, by simpa using hgone⟩
  · split_ifs at h
  · next hat => exact .inr (by rw [hat]; rfl)

/-- the page and the thread of its frames do not wait for each other -/
theorem page_waits (hrenderer : s.rendererStep = none) (hframes : s.frameThreadStep = none) :
    (∃ l, s.renderer = .nextEvent l ∧ s.events = []) ∨
      s.renderer.isReturned = true ∧ s.frameThread.isReturned = true := by
  rcases rendererStep_none hrenderer with hwaits | ⟨hgoes, -, hne⟩ | hgone
  · exact .inl hwaits
  · rcases frameThreadStep_none hframes with ⟨-, hnil, -⟩ | hreturned
    · exact absurd hnil hne
    · rw [hreturned] at hgoes
      cases hgoes
  · rcases frameThreadStep_none hframes with ⟨-, -, halive⟩ | hreturned
    · rw [hgone] at halive
      cases halive
    · exact .inr ⟨hgone, hreturned⟩

/-- the page waits for an event, or has returned -/
def PageWaits (s : Sys P) : Prop := (∃ l, s.renderer = .nextEvent l ∧ s.events = []) ∨ s.renderer.isReturned = true

/-- a send to the page waits for nothing but room -/
theorem sendEvent_isSome {e : WrbEvent} (h : PageWaits s) : s.sendEvent e ≠ none := by
  intro hnone
  obtain ⟨halive, hfull⟩ := offer_eq_none_iff.1 (Option.map_eq_none_iff.1 hnone)
  rcases h with ⟨l, -, hnil⟩ | hgone
  · simp [hnil, CHANNEL_SIZE] at hfull
  · simp [hgone] at halive

theorem timerStep_none (h : s.timerStep = none) (hpage : PageWaits s) :
    s.timer = .notStarted ∨ s.timer = .returned := by
  unfold timerStep at h
  split at h
  · exact absurd (Option.map_eq_none_iff.1 h) (sendEvent_isSome hpage)
  · cases h
  · next hat => exact .inl hat
  · next hat => exact .inr hat

/-- what the main thread can wait for, while there is room for its events -/
theorem mainStep_none {termSize : UInt64 × UInt64} {order : List ℕ} (h : s.mainStep termSize order = none)
    (hpage : PageWaits s) :
    (s.main = .recv ∧ s.inbox = []) ∨
      (s.main = .joinTimer ∧ ¬(s.timer = .notStarted ∨ s.timer = .returned)) ∨
      (s.main = .joinFrames ∧ s.frameThread.isReturned = false) ∨
      (s.main = .joinRenderer ∧ s.renderer.isReturned = false) ∨ s.main = .exited := by
  unfold mainStep at h
  split at h
  · exact absurd (Option.map_eq_none_iff.1 h) (sendEvent_isSome hpage)
  · next hevent =>
    split at h
    · cases h
    · next hat =>
      split at h
      · next hinbox => exact .inl ⟨hat, hinbox⟩
      · cases h
    · cases h
    · next hat =>
      split_ifs at h with htimer
      exact .inr (.inl ⟨hat, htimer⟩)
    · next hat =>
      split_ifs at h with hframes
      exact .inr (.inr (.inl ⟨hat, by simpa using hframes⟩))
    · next hat =>
      split_ifs at h with hrenderer
      exact .inr (.inr (.inr (.inl ⟨hat, by simpa using hrenderer⟩)))
    · next hcheck hrecv hemit htimer hframes hrenderer =>
      revert hevent
      cases hat : s.main with
      | exited => simp
      | checkQuit => exact absurd hat hcheck
      | recv => exact absurd hat hrecv
      | emit events => exact absurd hat (hemit events)
      | joinTimer => exact absurd hat htimer
      | joinFrames => exact absurd hat hframes
      | joinRenderer => exact absurd hat hrenderer
      | _ => simp [mainEvent]

theorem keyboardStep_none (h : s.keyboardStep = none) : s.keyboard = .read ∨ s.keyboard = .returned := by
  unfold keyboardStep at h
  split at h
  · split_ifs at h
  · cases h
  · next hat => exact .inl hat
  · next hat => exact .inr hat

/-- the viewer waits for a key, and nothing is on its way -/
structure Idle (s : Sys P) : Prop where
  main : s.main = .recv
  inbox : s.inbox = []
  events : s.events = []
  frames : s.frames = []
  keyboard : s.keyboard = .read ∨ s.keyboard = .returned
  timer : s.timer = .notStarted ∨ s.timer = .returned
  page : (∃ l, s.renderer = .nextEvent l) ∧ s.frameThread = .recv ∨
    s.renderer.isReturned = true ∧ s.frameThread.isReturned = true

/-- no thread can go on, unless something happens outside -/
def AtRest (s : Sys P) : Prop :=
  s.step .renderer = none ∧ s.step .frameThread = none ∧ s.step .timer = none ∧ s.step .keyboard = none ∧
    ∀ termSize order, s.step (.main termSize order) = none

theorem idle_of_atRest (hstanding : Standing acts s) (hexited : s.main ≠ .exited) (h : AtRest s) : Idle s := by
  simp only [AtRest, step, if_neg hexited] at h
  obtain ⟨hrenderer, hframes, htimer, hkeyboard, hmain⟩ := h
  have hpages := page_waits hrenderer hframes
  have hpage : PageWaits s := hpages.imp_right And.left
  have htimer' := timerStep_none htimer hpage
  -- a page that waits for an event is not closed, so that nobody waits for it to return
  have hjoins : s.main.joins = true → s.renderer.isReturned = true ∧ s.frameThread.isReturned = true := by
    intro hjoins
    refine hpages.resolve_left ?_
    intro hwaits
    obtain ⟨l, hat, hnil⟩ := hwaits
    have hclosed := hstanding.closed hjoins
    rw [hat, hnil] at hclosed
    cases hclosed
  have hrecv : s.main = .recv ∧ s.inbox = [] := by
    rcases mainStep_none (hmain (0, 0) []) hpage with hrecv | ⟨-, hnot⟩ | ⟨hat, hnot⟩ | ⟨hat, hnot⟩ | hat
    · exact hrecv
    · exact absurd htimer' hnot
    · simp [(hjoins (by rw [hat]; rfl)).2] at hnot
    · simp [(hjoins (by rw [hat]; rfl)).1] at hnot
    · exact absurd hat hexited
  have hquit : s.quit = false := by
    by_contra hquit
    obtain ⟨e, hmem, -⟩ := hstanding.quits (by simpa using hquit) (by rw [hrecv.1]; rfl)
    rw [hrecv.2] at hmem
    cases hmem
  rcases hpages with ⟨l, hat, hnil⟩ | ⟨hgone, hreturned⟩
  · have hwaits : s.frameThread = .recv ∧ s.frames = [] := by
      rcases frameThreadStep_none hframes with ⟨hrecv, hnil, -⟩ | hreturned
      · exact ⟨hrecv, hnil⟩
      · -- it would have returned for the page
        have hwhy := hstanding.frameThread hreturned
        simp [hquit, hrecv.1, MainAt.left, hat, RendererAt.isReturned] at hwhy
    exact ⟨hrecv.1, hrecv.2, hnil, hwaits.2, keyboardStep_none hkeyboard, htimer', .inl ⟨⟨l, hat⟩, hwaits.1⟩⟩
  · exact ⟨hrecv.1, hrecv.2, hstanding.noEvents hgone, hstanding.noFrames hreturned, keyboardStep_none hkeyboard,
      htimer', .inr ⟨hgone, hreturned⟩⟩

theorem Idle.atRest (h : Idle s) : AtRest s := by
  have hexited : s.main ≠ .exited := by simp [h.main]
  simp only [AtRest, step, if_neg hexited]
  refine ⟨?_, ?_, ?_, ?_, ?_⟩
  · rcases h.page with ⟨⟨l, hat⟩, -⟩ | ⟨hgone, -⟩
    · simp [rendererStep, hat, h.events]
    · cases hat : s.renderer with
      | returned result => simp [rendererStep, hat]
      | _ => simp [hat, RendererAt.isReturned] at hgone
  · rcases h.page with ⟨⟨l, hat⟩, hrecv⟩ | ⟨-, hreturned⟩
    · simp [frameThreadStep, hrecv, h.frames, hat, RendererAt.isReturned]
    · cases hat : s.frameThread with
      | returned => simp [frameThreadStep, hat]
      | _ => simp [hat, FrameThreadAt.isReturned] at hreturned
  · rcases h.timer with hat | hat <;> simp [timerStep, hat]
  · rcases h.keyboard with hat | hat <;> simp [keyboardStep, hat]
  · simp [mainStep, mainEvent, h.main, h.inbox]

/-- **No deadlock.** In every state that a run reaches, no thread can go on by itself exactly when the process has
exited, or the viewer waits for a key and every channel is empty. -/
theorem idle_iff (hrun : runSome step (start P wrbName) acts = some (rs, s)) :
    AtRest s ↔ s.main = .exited ∨ Idle s := by
  constructor
  · intro hrest
    by_cases hexited : s.main = .exited
    · exact .inl hexited
    · exact .inr (idle_of_atRest (standing_of_run hrun) hexited hrest)
  · intro h
    rcases h with hexited | hidle
    · simp [AtRest, step, hexited]
    · exact hidle.atRest

/-- after its first frame the viewer gets the update, and waits -/
def untilIdle : List Act :=
  let main := Act.main (24, 80) []
  firstFrame ++ [main, main, main, .frameThread]

theorem untilIdle_idle {rs : List Report} {s : Sys blankPage}
    (hrun : runSome step (start blankPage []) untilIdle = some (rs, s)) : Idle s := by
  cases hrun
  exact ⟨rfl, rfl, rfl, rfl, .inl rfl, .inl rfl, .inl ⟨⟨_, rfl⟩, rfl⟩⟩

theorem idle_iff_untilIdle : ∃ rs s, runSome step (start blankPage []) untilIdle = some (rs, s) ∧ AtRest s :=
  ⟨_, _, rfl, (@idle_iff blankPage _ _ untilIdle [] rfl).2 (.inr (untilIdle_idle rfl))⟩

/-- **Everything is settled.** Where the viewer waits for a key and nothing is on its way, every frame that was sent was
shown; the page, if it has not returned, has answered every event it was sent; and the keyboard is read unless the input
has ended, so that the next key goes on from here. -/
theorem idle_settled (hrun : runSome step (start P wrbName) acts = some (rs, s)) (hidle : Idle s) :
    shownFrames rs = sentFrames rs ∧
      (∀ l, s.renderer = .nextEvent l → P.serve (sentEvents rs) = ⟨shownFrames rs, .running l⟩) ∧
      (.inputEnds ∉ acts → s.keyboard = .read) := by
  obtain ⟨⟨-, hevents⟩, ⟨-, hframes⟩, -, hserve⟩ := in_order hrun
  have hstanding := standing_of_run hrun
  have hquit : s.quit = false := by
    by_contra hquit
    obtain ⟨e, hmem, -⟩ := hstanding.quits (by simpa using hquit) (by rw [hidle.main]; rfl)
    rw [hidle.inbox] at hmem
    cases hmem
  have hleft : s.main.left = false := by rw [hidle.main]; rfl
  have hhand : s.frameThread.hand = [] := by
    rcases hidle.page with ⟨-, hrecv⟩ | ⟨-, hreturned⟩
    · rw [hrecv]
      rfl
    · cases hat : s.frameThread with
      | send f => simp [hat, FrameThreadAt.isReturned] at hreturned
      | _ => rfl
  have hshown : shownFrames rs = sentFrames rs := by
    rw [hframes (.inr ⟨hquit, hleft⟩)]
    simp [pending, hidle.inbox, hidle.frames, hhand]
  refine ⟨hshown, ?_, ?_⟩
  · intro l hat
    have htaken := hevents (by rw [hat]; rfl)
    rw [hidle.events, List.append_nil] at htaken
    rw [hshown, htaken]
    exact hserve l hat
  · intro hinput
    refine hidle.keyboard.resolve_right ?_
    intro hreturned
    rcases hstanding.keyboard hreturned with hends | hq | hl
    · exact hinput hends
    · rw [hquit] at hq
      cases hq
    · rw [hleft] at hl
      cases hl

theorem idle_settled_untilIdle : ∃ rs s, runSome step (start blankPage []) untilIdle = some (rs, s) ∧
    (shownFrames rs).length = 2 ∧ shownFrames rs = sentFrames rs :=
  ⟨_, _, rfl, rfl, (@idle_settled blankPage _ _ untilIdle [] rfl (untilIdle_idle rfl)).1⟩

/-! ## Why the viewer quits -/

/-- the keys on their way were typed, and there is a reason to quit -/
structure Typed (done : List Act) (s : Sys P) : Prop where
  keyboard : ∀ key, s.keyboard = .send key → .keyPressed key ∈ done
  inbox : ∀ key, .stdin key ∈ s.inbox → .keyPressed key ∈ done
  quit : s.quit = true → s.renderer.isReturned = true ∨ .keyPressed (.key (.char 'q')) ∈ done

theorem stdin_ne_ofFrame (key : TermKey) (f : WrbFrameData) : .stdin key ≠ ViewerEvent.ofFrame f := by
  cases f <;> simp [ViewerEvent.ofFrame]

theorem typed_step (h : Typed done s) (hstep : s.step a = some (r, s')) : Typed (done ++ [a]) s' := by
  obtain ⟨-, hstep⟩ := step_cases hstep
  have hkeyboard : ∀ key, s.keyboard = .send key → .keyPressed key ∈ done ++ [a] :=
    fun key hat => List.mem_append_left _ (h.keyboard key hat)
  have hinbox : ∀ key, .stdin key ∈ s.inbox → .keyPressed key ∈ done ++ [a] :=
    fun key hmem => List.mem_append_left _ (h.inbox key hmem)
  have hquit : s.quit = true → s'.renderer.isReturned = true ∨ .keyPressed (.key (.char 'q')) ∈ done ++ [a] :=
    fun hq => (h.quit hq).imp (returned_stays hstep) (List.mem_append_left _)
  cases hstep with
  | frameSend hat hleft =>
    refine ⟨hkeyboard, ?_, hquit⟩
    intro key hmem
    exact hinbox key (by simpa [stdin_ne_ofFrame] using hmem)
  | @keySend key hat hleft =>
    refine ⟨by simp, ?_, hquit⟩
    intro key' hmem
    rcases List.mem_append.1 hmem with hmem | hmem
    · exact hinbox key' hmem
    · obtain rfl : key' = key := by simpa using hmem
      exact hkeyboard key' hat
  | keyboard ha at' hsend hwhy =>
    refine ⟨?_, hinbox, hquit⟩
    intro key hat
    simp [hsend key hat]
  | mainSendFails hevent hgone status =>
    refine ⟨hkeyboard, ?_, fun _ => .inl hgone⟩
    intro key hmem
    refine hinbox key ?_
    split_ifs at hmem <;> simpa using hmem
  | @mainReceive termSize order e inbox _ hat hqueue hs =>
    have hrest : ∀ key, .stdin key ∈ inbox → .keyPressed key ∈ done ++ [.main termSize order] :=
      fun key hmem => hinbox key (by rw [hqueue]; exact List.mem_cons_of_mem _ hmem)
    cases hs with
    | quits viewer events hq hkey hframe =>
      refine ⟨hkeyboard, fun key hmem => hrest key (by simpa using hmem), fun _ => .inr ?_⟩
      exact hinbox _ (by rw [hqueue, hkey.1]; exact List.mem_cons_self)
    | _ => exact ⟨hkeyboard, hrest, hquit⟩
  | _ => exact ⟨by simpa using hkeyboard, by simpa using hinbox, by simpa using hquit⟩

/-- a viewer that has a frame was shown one; and if it quits, the page has returned or it has a frame -/
structure ShownFirst (rs : List Report) (s : Sys P) : Prop where
  frame : s.viewer.lastFrame.isSome = true → shownFrames rs ≠ []
  quit : s.quit = true → s.renderer.isReturned = true ∨ shownFrames rs ≠ []

theorem shownFirst_step (h : ShownFirst rs s) (hstep : s.step a = some (r, s')) : ShownFirst (rs ++ [r]) s' := by
  obtain ⟨-, hstep⟩ := step_cases hstep
  have hmore : shownFrames rs ≠ [] → shownFrames (rs ++ [r]) ≠ [] := by
    intro hne hnil
    simp only [shownFrames, List.filterMap_append, List.append_eq_nil_iff] at hnil
    exact hne hnil.1
  have hquit : s.quit = true → s'.renderer.isReturned = true ∨ shownFrames (rs ++ [r]) ≠ [] :=
    fun hq => (h.quit hq).imp (returned_stays hstep) hmore
  have hframe := fun hsome => hmore (h.frame hsome)
  cases hstep with
  | mainSendFails hevent hgone status => exact ⟨hframe, fun _ => .inl hgone⟩
  | @mainReceive _ _ e inbox _ hat hqueue hs =>
    have hnew : s.viewer.lastFrame.isSome = true ∨ e.frame.any (!·.isUpdate) = true →
        shownFrames (rs ++ [{ shownFrame := e.frame }]) ≠ [] := by
      intro hsome
      rcases hsome with hsome | hroot
      · exact hframe hsome
      · cases hat : e.frame with
        | none => simp [hat] at hroot
        | some f => simp [shownFrames]
    cases hs with
    | quit hq => exact ⟨hframe, hquit⟩
    | left main hmain hq => exact ⟨hframe, hquit⟩
    | goesOn viewer events hq hlast => exact ⟨fun hsome => hnew (hlast.1 hsome), hquit⟩
    | quits viewer events hq hkey hlast =>
      exact ⟨fun hsome => hnew (hlast.1 hsome), fun _ => .inr (hframe hkey.2)⟩
  | _ => exact ⟨by simpa using hframe, by simpa using hquit⟩

theorem typed_start (P : PageExt) (wrbName : List Char) : Typed [] (start P wrbName) where
  keyboard key hat := by cases hat
  inbox key hmem := by cases hmem
  quit h := by cases h

theorem shownFirst_start (P : PageExt) (wrbName : List Char) : ShownFirst [] (start P wrbName) where
  frame h := by cases h
  quit h := by cases h

/-- **Why the viewer quits.** In every run, a viewer that has been told to quit has shown a frame and was typed a `q`,
or the page has returned. -/
theorem quits_why (hrun : runSome step (start P wrbName) acts = some (rs, s)) (hquit : s.quit = true) :
    s.renderer.isReturned = true ∨ .keyPressed (.key (.char 'q')) ∈ acts ∧ shownFrames rs ≠ [] := by
  have htyped := runSome_record (fun _ _ _ _ _ h hstep => typed_step h hstep) (typed_start P wrbName) hrun
  have hshown := runSome_reports (fun _ _ _ _ _ h hstep => shownFirst_step h hstep) (shownFirst_start P wrbName) hrun
  rcases htyped.quit hquit with hgone | hkey
  · exact .inl hgone
  · exact (hshown.quit hquit).imp_right fun hne => ⟨hkey, hne⟩

/-- `q` is typed; the viewer leaves its loop and sends `Close` -/
def untilClosed : List Act :=
  let main := Act.main (24, 80) []
  untilIdle ++ [.keyPressed (.key (.char 'q')), .keyboard, main, main, main, main]

theorem quits_why_untilClosed : ∃ rs s, runSome step (start blankPage []) untilClosed = some (rs, s) ∧
    (s.renderer.isReturned = true ∨ .keyPressed (.key (.char 'q')) ∈ untilClosed ∧ shownFrames rs ≠ []) :=
  ⟨_, _, rfl, @quits_why blankPage _ _ untilClosed [] rfl rfl⟩

end Sys

end Wrb.Ui
