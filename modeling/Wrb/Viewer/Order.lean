/-
What the page and the viewer see of each other, however the threads take turns.

The threads between the page and the viewer only hand on: the page takes a first part of the events that were sent to
it, in their order, and the viewer a first part of the frames that the page sent. So the page runs as if it were served
these events alone (`Wrb.Ui.serve_frames`).

Results:
- `in_order`: over every run, nothing is reordered, doubled or lost on the way as long as the receiver is there, and the
  frames that were sent are those of a page that is served the events that it took;
- `updates_apply`: the first event of a page is its opening, and when the viewer gets an update, it has a frame to apply
  it to, so that none is skipped.
-/
import Wrb.Viewer.Threads

namespace Wrb.Ui

open Wrb.Runs Wrb.Channels

variable {P : PageExt}

/-! ## What was sent and what is on its way -/

def sentEvents (rs : List Report) : List WrbEvent := rs.filterMap Report.sentEvent

def takenEvents (rs : List Report) : List WrbEvent := rs.filterMap Report.takenEvent

def sentFrames (rs : List Report) : List WrbFrameData := rs.filterMap Report.sentFrame

def shownFrames (rs : List Report) : List WrbFrameData := rs.filterMap Report.shownFrame

/-- the frame that the thread of the frames is about to hand on -/
def FrameThreadAt.hand : FrameThreadAt → List WrbFrameData
  | send f => [f]
  | _ => []

/-- the frames between the page and the viewer -/
def Sys.pending (s : Sys P) : List WrbFrameData := s.inbox.filterMap ViewerEvent.frame ++ s.frameThread.hand ++ s.frames

/-- where the page is, after it took these events and sent these frames -/
def RendererAt.Serves (taken : List WrbEvent) (sent : List WrbFrameData) : RendererAt P → Prop
  | loading => taken = [] ∧ sent = []
  | nextEvent l => P.serve taken = ⟨sent, .running l⟩
  | nextFrame f l => P.serve taken = ⟨sent ++ [f], l.next⟩
  | returned _ => sent <+: (P.serve taken).frames

namespace Sys

variable {s s' : Sys P} {a : Act} {r : Report} {rs : List Report}

/-! ## What stays -/

theorem quit_stays (hstep : Step s a r s') (h : s.quit = true) : s'.quit = true := by
  cases hstep with
  | mainReceive hat hinbox hs => cases hs <;> simp [h]
  | _ => simp [h]

theorem nextMain_left (main : MainAt) (h : (nextMain main).left = false) : main.left = false := by
  revert h
  cases main <;> simp [nextMain, MainAt.left]

theorem nextMain_left_stays (main : MainAt) (h : main.left = true) : (nextMain main).left = true := by
  by_contra hleft
  rw [nextMain_left main (by simpa using hleft)] at h
  cases h

theorem left_stays (hstep : Step s a r s') (h : s.main.left = true) : s'.main.left = true := by
  cases hstep with
  | mainSend hevent halive => exact nextMain_left_stays s.main h
  | mainSendFails hevent hgone status => exact nextMain_left_stays s.main h
  | mainCheck main hat hmain => simp [hat, MainAt.left] at h
  | mainReceive hat hinbox hs => simp [hat, MainAt.left] at h
  | mainEmitted hat => simp [hat, MainAt.left] at h
  | joinTimer hat htimer => simp [hat, MainAt.left] at h
  | joinFrames hat hframes => rfl
  | joinRenderer hat hrenderer => rfl
  | terminalFails timer huses htimer => rfl
  | _ => simpa using h

theorem returned_stays (hstep : Step s a r s') (h : s.renderer.isReturned = true) : s'.renderer.isReturned = true := by
  cases hstep with
  | load hat => simp [hat, RendererAt.isReturned] at h
  | take hat hevents => simp [hat, RendererAt.isReturned] at h
  | put hat halive => simp [hat, RendererAt.isReturned] at h
  | putFails hat hgone => rfl
  | mainReceive hat hinbox hs => cases hs <;> exact h
  | _ => exact h

theorem frameThread_stays (hstep : Step s a r s') (h : s.frameThread.isReturned = true) :
    s'.frameThread.isReturned = true := by
  cases hstep with
  | frameCheck hat => simp [hat, FrameThreadAt.isReturned] at h
  | frameTake hat hframes => simp [hat, FrameThreadAt.isReturned] at h
  | frameSend hat hleft => simp [hat, FrameThreadAt.isReturned] at h
  | frameReturn hgoes hwhy => rfl
  | mainReceive hat hinbox hs => cases hs <;> exact h
  | _ => simpa using h

/-! ## The page -/

theorem toPhase_serves {taken : List WrbEvent} {sent : List WrbFrameData} {phase : Phase P}
    (h : P.serve taken = ⟨sent, phase⟩) : (s.toPhase phase).renderer.Serves taken sent := by
  cases phase with
  | running l => exact h
  | stopped result =>
    show sent <+: (P.serve taken).frames
    rw [h]

theorem follow_serves {taken : List WrbEvent} {sent : List WrbFrameData} {pass : Pass P}
    (h : P.serve taken = Served.follow sent pass) : (s.follow pass).renderer.Serves taken sent := by
  cases pass with
  | skip l => exact toPhase_serves h
  | frame f l => exact h
  | stop result => exact toPhase_serves h

/-- the page is as far as the events that it took -/
theorem serves_step (hstep : Step s a r s') (h : s.renderer.Serves (takenEvents rs) (sentFrames rs)) :
    s'.renderer.Serves (takenEvents (rs ++ [r])) (sentFrames (rs ++ [r])) := by
  simp only [takenEvents, sentFrames, List.filterMap_append] at h ⊢
  cases hstep with
  | load hat =>
    rw [hat] at h
    obtain ⟨htaken, hsent⟩ := h
    refine follow_serves ?_
    simp [htaken, hsent, PageExt.serve]
  | take hat hevents =>
    rw [hat] at h
    refine follow_serves ?_
    have hserve : P.serve (rs.filterMap Report.takenEvent) = ⟨rs.filterMap Report.sentFrame, .running _⟩ := h
    simp [PageExt.serve_concat, hserve, Served.step]
  | put hat halive =>
    rw [hat] at h
    refine toPhase_serves ?_
    have hserve : P.serve (rs.filterMap Report.takenEvent) = ⟨rs.filterMap Report.sentFrame ++ [_], _⟩ := h
    simp [hserve]
  | putFails hat hgone =>
    rw [hat] at h
    have hserve : P.serve (rs.filterMap Report.takenEvent) = ⟨rs.filterMap Report.sentFrame ++ [_], _⟩ := h
    show _ <+: (P.serve _).frames
    simp [hserve]
  | mainReceive hat hinbox hs => cases hs <;> simpa using h
  | _ => simpa using h

theorem serves_prefix {taken : List WrbEvent} {sent : List WrbFrameData} (h : s.renderer.Serves taken sent) :
    sent <+: (P.serve taken).frames := by
  cases hat : s.renderer with
  | loading =>
    rw [hat] at h
    rw [h.2]
    exact List.nil_prefix
  | nextEvent l =>
    rw [hat] at h
    rw [show P.serve taken = _ from h]
  | nextFrame f l =>
    rw [hat] at h
    rw [show P.serve taken = _ from h]
    exact List.prefix_append _ _
  | returned result =>
    rw [hat] at h
    exact h

/-! ## The events -/

/-- what was sent was taken, is queued, or was lost when the page returned -/
def EventsFlow (rs : List Report) (s : Sys P) : Prop :=
  ∃ lost, sentEvents rs = takenEvents rs ++ s.events ++ lost ∧ (s.renderer.isReturned = false → lost = [])

theorem eventsFlow_step (hstep : Step s a r s') (h : EventsFlow rs s) : EventsFlow (rs ++ [r]) s' := by
  obtain ⟨lost, heq, hlost⟩ := h
  simp only [EventsFlow, sentEvents, takenEvents, List.filterMap_append] at heq ⊢
  cases hstep with
  | load hat =>
    obtain rfl := hlost (by rw [hat]; rfl)
    rcases s.follow_events P.start with ⟨hevents, -⟩ | ⟨hevents, hgone⟩
    · exact ⟨[], by simp [heq, hevents], fun _ => rfl⟩
    · exact ⟨s.events, by simp [heq, hevents], by simp [hgone]⟩
  | @take l e events hat hqueue =>
    obtain rfl := hlost (by rw [hat]; rfl)
    rcases follow_events { s with events := events } (l.pass e) with ⟨hevents, -⟩ | ⟨hevents, hgone⟩
    · exact ⟨[], by simp [heq, hevents, hqueue], fun _ => rfl⟩
    · exact ⟨events, by simp [heq, hevents, hqueue], by simp [hgone]⟩
  | @put f l hat halive =>
    obtain rfl := hlost (by rw [hat]; rfl)
    rcases toPhase_events { s with frames := s.frames ++ [f] } l.next with ⟨hevents, -⟩ | ⟨hevents, hgone⟩
    · exact ⟨[], by simp [heq, hevents], fun _ => rfl⟩
    · exact ⟨s.events, by simp [heq, hevents], by simp [hgone]⟩
  | putFails hat hgone =>
    obtain rfl := hlost (by rw [hat]; rfl)
    exact ⟨s.events, by simp [heq, toPhase], by simp [toPhase, RendererAt.isReturned]⟩
  | timerSend hat halive =>
    obtain rfl := hlost halive
    exact ⟨[], by simp [heq], fun _ => rfl⟩
  | mainSend hevent halive =>
    obtain rfl := hlost halive
    exact ⟨[], by simp [heq], fun _ => rfl⟩
  | mainReceive hat hinbox hs => cases hs <;> exact ⟨lost, by simpa using heq, hlost⟩
  | _ => exact ⟨lost, by simpa using heq, hlost⟩

/-- nothing was sent, by a viewer that has not begun or to a page that has returned; or the opening was sent first -/
def OpensFirst (rs : List Report) (s : Sys P) : Prop :=
  sentEvents rs = [] ∧ (s.main = .sendOpen ∧ s.timer = .notStarted ∨ s.renderer.isReturned = true) ∨
    (sentEvents rs).head? = some .pageOpen

theorem opensFirst_step (hstep : Step s a r s') (h : OpensFirst rs s) : OpensFirst (rs ++ [r]) s' := by
  simp only [OpensFirst, sentEvents, List.filterMap_append] at h ⊢
  rcases h with ⟨hnil, hbefore⟩ | hhead
  · cases hstep with
    | load hat => simp_all [RendererAt.isReturned]
    | take hat hevents => simp_all [RendererAt.isReturned]
    | put hat halive => simp_all [RendererAt.isReturned]
    | putFails hat hgone => simp_all [RendererAt.isReturned]
    | timerSend hat halive => simp_all
    | mainSend hevent halive =>
      have hopen : s.main = .sendOpen := by simpa [halive] using (hbefore.imp_left And.left)
      rw [hopen] at hevent
      cases hevent
      exact .inr (by simp [hnil])
    | mainReceive hat hinbox hs =>
      have hgone : s.renderer.isReturned = true := by simpa [hat] using hbefore
      cases hs <;> simp [hnil, hgone]
    | terminalFails timer huses htimer =>
      rcases hbefore with ⟨hopen, -⟩ | hgone
      · simp [usesTerminal, hopen] at huses
      · simp [hnil, hgone]
    | _ => simp_all
  · right
    cases hsent : r.sentEvent with
    | none => simpa [hsent] using hhead
    | some e => simp [hsent, List.head?_append, hhead]

/-! ## The frames -/

/-- frames get to the viewer: the thread between is there, or it has handed on what it got -/
def HandsOn (s : Sys P) : Prop := s.frameThread.isReturned = false ∨ s.quit = false ∧ s.main.left = false

theorem handsOn_before (hstep : Step s a r s') (h : HandsOn s') : HandsOn s := by
  by_cases hreturned : s.frameThread.isReturned = true
  · rcases h with hgoes | ⟨hquit, hleft⟩
    · rw [frameThread_stays hstep hreturned] at hgoes
      cases hgoes
    · refine .inr ⟨?_, ?_⟩
      · by_contra hbefore
        rw [quit_stays hstep (by simpa using hbefore)] at hquit
        cases hquit
      · by_contra hbefore
        rw [left_stays hstep (by simpa using hbefore)] at hleft
        cases hleft
  · exact .inl (by simpa using hreturned)

/-- what was sent was shown, is on its way, or was lost when the thread between returned -/
def FramesFlow (rs : List Report) (s : Sys P) : Prop :=
  ∃ lost, sentFrames rs = shownFrames rs ++ s.pending ++ lost ∧ (HandsOn s → lost = [])

theorem filterMap_cons_toList {α β : Type} (f : α → Option β) (a : α) (l : List α) :
    (a :: l).filterMap f = (f a).toList ++ l.filterMap f := by
  cases h : f a <;> simp [h]

theorem framesFlow_step (hstep : Step s a r s') (h : FramesFlow rs s) : FramesFlow (rs ++ [r]) s' := by
  obtain ⟨lost, heq, hlost⟩ := h
  have hlost' := fun h => hlost (handsOn_before hstep h)
  simp only [FramesFlow, sentFrames, shownFrames, pending, List.filterMap_append] at heq ⊢
  cases hstep with
  | put hat halive =>
    obtain rfl := hlost (.inl halive)
    exact ⟨[], by simp [heq], fun _ => rfl⟩
  | frameCheck hat =>
    obtain rfl := hlost (.inl (by rw [hat]; rfl))
    exact ⟨[], by simp [heq, hat, FrameThreadAt.hand], fun _ => rfl⟩
  | frameTake hat hframes =>
    obtain rfl := hlost (.inl (by rw [hat]; rfl))
    exact ⟨[], by simp [heq, hat, hframes, FrameThreadAt.hand], fun _ => rfl⟩
  | frameSend hat hleft =>
    obtain rfl := hlost (.inl (by rw [hat]; rfl))
    exact ⟨[], by simp [heq, hat, FrameThreadAt.hand], fun _ => rfl⟩
  | frameReturn hgoes hwhy =>
    obtain rfl := hlost (.inl hgoes)
    refine ⟨s.frameThread.hand ++ s.frames, by simp [heq, FrameThreadAt.hand], ?_⟩
    intro hhands
    rcases hhands with hgoes' | ⟨hquit, hleft⟩
    · cases hgoes'
    · rcases hwhy with hwhy | hwhy | ⟨-, hat, hnil⟩
      · simp [hwhy] at hquit
      · simp [hwhy] at hleft
      · simp [hat, hnil, FrameThreadAt.hand]
  | mainSendFails hevent hgone status =>
    refine ⟨lost, ?_, hlost'⟩
    split_ifs <;> simpa using heq
  | mainReceive hat hinbox hs =>
    refine ⟨lost, ?_, hlost'⟩
    rw [hinbox, filterMap_cons_toList] at heq
    rw [filterMap_cons_toList Report.shownFrame]
    cases hs <;> simp [heq]
  | _ => exact ⟨lost, by simpa using heq, hlost'⟩

/-- once a frame was shown, the viewer has one -/
def KeepsFrame (rs : List Report) (s : Sys P) : Prop :=
  shownFrames rs ≠ [] → s.main.left = false → s.viewer.lastFrame.isSome = true

/-- the first frame of those that were sent is a whole one -/
theorem head_of_serves (h : s.renderer.Serves (takenEvents rs) (sentFrames rs)) :
    ∀ f ∈ (sentFrames rs).head?, f.isUpdate = false := by
  have hfirst := serves_prefix h
  intro f hf
  rcases (serve_frames P (takenEvents rs)).1 with hnil | ⟨root, delay, updates, hcons, -⟩
  · rw [hnil, List.prefix_nil] at hfirst
    simp [hfirst] at hf
  · rw [hcons] at hfirst
    obtain ⟨rest, hrest⟩ := hfirst
    cases hsent : sentFrames rs with
    | nil => simp [hsent] at hf
    | cons f' fs =>
      rw [hsent, List.cons_append] at hrest
      obtain ⟨rfl, -⟩ := List.cons.inj hrest
      rw [hsent] at hf
      cases hf
      rfl

/-- an event that the viewer takes once a frame was shown, or a frame, finds a frame or is a whole one -/
theorem kept_of_received {e : ViewerEvent} {inbox : List ViewerEvent}
    (hserves : s.renderer.Serves (takenEvents rs) (sentFrames rs)) (hflow : FramesFlow rs s) (h : KeepsFrame rs s)
    (hat : s.main = .recv) (hinbox : s.inbox = e :: inbox) (hsome : shownFrames rs ≠ [] ∨ e.frame ≠ none) :
    s.viewer.lastFrame.isSome = true ∨ e.frame.any (!·.isUpdate) = true := by
  by_cases hnil : shownFrames rs = []
  · right
    obtain ⟨f, hf⟩ := Option.ne_none_iff_exists'.1 (hsome.resolve_left (not_not.2 hnil))
    obtain ⟨lost, heq, -⟩ := hflow
    have hhead : (sentFrames rs).head? = some f := by
      rw [heq, hnil, pending, hinbox, filterMap_cons_toList, hf]
      rfl
    simp [hf, head_of_serves hserves f hhead]
  · exact .inl (h hnil (by rw [hat]; rfl))

theorem keepsFrame_step (hstep : Step s a r s') (hserves : s.renderer.Serves (takenEvents rs) (sentFrames rs))
    (hflow : FramesFlow rs s) (h : KeepsFrame rs s) : KeepsFrame (rs ++ [r]) s' := by
  simp only [KeepsFrame, shownFrames, List.filterMap_append] at h ⊢
  intro hshown hleft
  have hsome : ∀ e : ViewerEvent,
      rs.filterMap Report.shownFrame ++ [{ shownFrame := e.frame }].filterMap Report.shownFrame ≠ [] →
      rs.filterMap Report.shownFrame ≠ [] ∨ e.frame ≠ none := by
    intro e hne
    rw [filterMap_cons_toList] at hne
    by_cases hframe : e.frame = none
    · exact .inl (by simpa [hframe] using hne)
    · exact .inr hframe
  cases hstep with
  | @mainReceive _ _ e inbox _ hat hinbox hs =>
    have hkept := kept_of_received hserves hflow h hat hinbox (hsome e hshown)
    cases hs with
    | quit hquit =>
      cases e with
      | quit => exact h (by simpa [ViewerEvent.frame] using hshown) (by rw [hat]; rfl)
      | _ => cases hquit
    | left main hmain hquit =>
      rcases hmain with rfl | rfl <;> cases hleft
    | goesOn viewer events hquit hframe => exact hframe.2 hkept
    | quits viewer events hquit hkey hframe => exact hframe.2 hkept
  | mainSend hevent halive => exact h (by simpa using hshown) (nextMain_left s.main hleft)
  | mainSendFails hevent hgone status => exact h (by simpa using hshown) (nextMain_left s.main hleft)
  | mainCheck main hat hmain => exact h (by simpa using hshown) (by rw [hat]; rfl)
  | mainEmitted hat => exact h (by simpa using hshown) (by rw [hat]; rfl)
  | joinTimer hat htimer => exact h (by simpa using hshown) (by rw [hat]; rfl)
  | joinFrames hat hframes => cases hleft
  | joinRenderer hat hrenderer => cases hleft
  | terminalFails timer huses htimer => cases hleft
  | _ => simpa using h (by simpa using hshown) (by simpa using hleft)

/-! ## Every run -/

structure InOrder (rs : List Report) (s : Sys P) : Prop where
  serves : s.renderer.Serves (takenEvents rs) (sentFrames rs)
  events : EventsFlow rs s
  opens : OpensFirst rs s
  frames : FramesFlow rs s
  keepsFrame : KeepsFrame rs s

theorem inOrder_step (h : InOrder rs s) (hstep : s.step a = some (r, s')) : InOrder (rs ++ [r]) s' := by
  obtain ⟨-, hstep⟩ := step_cases hstep
  exact ⟨serves_step hstep h.serves, eventsFlow_step hstep h.events, opensFirst_step hstep h.opens,
    framesFlow_step hstep h.frames, keepsFrame_step hstep h.serves h.frames h.keepsFrame⟩

theorem inOrder_start (P : PageExt) (wrbName : List Char) : InOrder [] (start P wrbName) where
  serves := ⟨rfl, rfl⟩
  events := ⟨[], rfl, fun _ => rfl⟩
  opens := .inl ⟨rfl, .inl ⟨rfl, rfl⟩⟩
  frames := ⟨[], rfl, fun _ => rfl⟩
  keepsFrame h := absurd rfl h

theorem inOrder_of_run {wrbName : List Char} {acts : List Act}
    (hrun : runSome step (start P wrbName) acts = some (rs, s)) : InOrder rs s :=
  runSome_reports (fun _ _ _ _ _ h hstep => inOrder_step h hstep) (inOrder_start P wrbName) hrun

/-- the page is opened and told its size; the viewer shows the frame, and the update gets to its inbox -/
def firstFrame : List Act :=
  let main := Act.main (24, 80) []
  [main, main, main, .renderer, .renderer, .renderer, .frameThread, .frameThread, .frameThread, main, .renderer,
    .renderer, main, main, .frameThread, .frameThread, .frameThread]

/-- **The page and the viewer, in order.** However the threads take turns: the page takes the events in the order in
which they were sent, the viewer gets the frames in the order in which the page sent them, and the frames that the page
sent are the first of those it makes when it is served the events it took, one after the other. None is lost or doubled:
what was sent and not yet received is on its way, for events while the page is there, for frames while the thread that
hands them on is there or the viewer does not quit; and a page that waits for an event has sent every frame. -/
theorem in_order {wrbName : List Char} {acts : List Act}
    (hrun : runSome step (start P wrbName) acts = some (rs, s)) :
    (takenEvents rs <+: sentEvents rs ∧ (s.renderer.isReturned = false → sentEvents rs = takenEvents rs ++ s.events)) ∧
    (shownFrames rs <+: sentFrames rs ∧
      (s.frameThread.isReturned = false ∨ s.quit = false ∧ s.main.left = false →
        sentFrames rs = shownFrames rs ++ s.pending)) ∧
    sentFrames rs <+: (P.serve (takenEvents rs)).frames ∧
    ∀ l, s.renderer = .nextEvent l → P.serve (takenEvents rs) = ⟨sentFrames rs, .running l⟩ := by
  have h := inOrder_of_run hrun
  obtain ⟨lostEvents, hevents, heventsKept⟩ := h.events
  obtain ⟨lostFrames, hframes, hframesKept⟩ := h.frames
  refine ⟨⟨?_, ?_⟩, ⟨?_, ?_⟩, serves_prefix h.serves, ?_⟩
  · rw [hevents, List.append_assoc]
    exact List.prefix_append _ _
  · intro hgoes
    rw [hevents, heventsKept hgoes, List.append_nil]
  · rw [hframes, List.append_assoc]
    exact List.prefix_append _ _
  · intro hgoes
    rw [hframes, hframesKept hgoes, List.append_nil]
  · intro l hat
    have hserves := h.serves
    rwa [hat] at hserves

theorem in_order_firstFrame : ∃ rs s, runSome step (start blankPage []) firstFrame = some (rs, s) ∧
    sentFrames rs <+: (blankPage.serve (takenEvents rs)).frames ∧ (shownFrames rs).length = 1 ∧ s.pending.length = 1 :=
  ⟨_, _, rfl, (@in_order blankPage _ _ [] firstFrame rfl).2.2.1, rfl, rfl⟩

/-- **No update without a frame.** However the threads take turns, the first event that a page is sent is its opening,
and the viewer never takes an update from its inbox before it has a frame to update. -/
theorem updates_apply {wrbName : List Char} {acts : List Act}
    (hrun : runSome step (start P wrbName) acts = some (rs, s)) :
    (∀ e ∈ (sentEvents rs).head?, e = .pageOpen) ∧
      ∀ update inbox, s.main = .recv → s.inbox = .update update :: inbox → s.viewer.lastFrame.isSome = true := by
  have h := inOrder_of_run hrun
  refine ⟨?_, ?_⟩
  · intro e he
    rcases h.opens with ⟨hnil, -⟩ | hhead
    · rw [hnil] at he
      cases he
    · rw [hhead] at he
      exact (Option.some.inj he).symm
  · intro update inbox hat hinbox
    have hkept := kept_of_received h.serves h.frames h.keepsFrame hat hinbox (.inr (by simp [ViewerEvent.frame]))
    simpa [ViewerEvent.frame, WrbFrameData.isUpdate] using hkept

theorem updates_apply_firstFrame : ∃ rs s update, runSome step (start blankPage []) firstFrame = some (rs, s) ∧
    s.main = .recv ∧ s.inbox = [.update update] ∧ s.viewer.lastFrame.isSome = true :=
  ⟨_, _, _, rfl, rfl, rfl, (@updates_apply blankPage _ _ [] firstFrame rfl).2 _ _ rfl rfl⟩

end Sys

end Wrb.Ui
