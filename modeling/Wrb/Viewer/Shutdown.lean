/-
How the process ends.

Once the viewer has sent `Close` it waits for the other threads. The page still has the events before it to handle, and
may send a frame for each; the thread of the frames has those to hand on; the timer goes on until the page has returned.
Each of these steps makes the number of steps that are left (`stepsLeft`) smaller. What the keyboard does, and the timer
while the page is there, does not make it larger.

Result: `shuts_down`: only so many of these steps are left, and until the process exits one of them can be taken.
-/
import Wrb.Viewer.Rest

namespace Wrb.Ui

open Wrb.Runs Wrb.Channels

variable {P : PageExt}

/-- `Viewer::main` after its loop, with `Close` sent -/
def MainAt.ends : MainAt → Bool
  | joinTimer => true
  | joinFrames => true
  | sendLastClose => true
  | joinRenderer => true
  | exited => true
  | _ => false

/-! ## The steps that are left -/

/-- the page: at most six for each event up to `Close`, of which three are for its frame -/
def RendererAt.stepsLeft (events : List WrbEvent) : RendererAt P → ℕ
  | loading => 6 * (events.idxOf .close + 1) + 6
  | nextEvent _ => 6 * (events.idxOf .close + 1)
  | nextFrame _ l => if l.willClose then 5 else 6 * (events.idxOf .close + 1) + 5
  | returned _ => 0

/-- three for each frame -/
def FrameThreadAt.stepsLeft (frames : ℕ) : FrameThreadAt → ℕ
  | returned => 0
  | recv => 3 * frames + 1
  | checkQuit => 3 * frames + 2
  | send _ => 3 * frames + 3

/-- once the page has returned -/
def TimerAt.stepsLeft (gone : Bool) (timer : TimerAt) : ℕ :=
  if gone = false then 2
  else
    match timer with
    | notStarted => 0
    | returned => 0
    | send => 1
    | sleep => 2

def MainAt.stepsLeft : MainAt → ℕ
  | joinTimer => 4
  | joinFrames => 3
  | sendLastClose => 2
  | joinRenderer => 1
  | _ => 0

theorem TimerAt.stepsLeft_le (gone : Bool) (timer : TimerAt) : timer.stepsLeft gone ≤ timer.stepsLeft false := by
  cases gone <;> cases timer <;> decide

namespace Sys

variable {s s' : Sys P} {a : Act} {r : Report} {rs : List Report} {acts : List Act} {wrbName : List Char}

def stepsLeft (s : Sys P) : ℕ :=
  s.renderer.stepsLeft s.events + s.frameThread.stepsLeft s.frames.length +
    s.timer.stepsLeft s.renderer.isReturned + s.main.stepsLeft

/-- the steps that count: not of the keyboard, and of the timer once the page has returned -/
def counts (s : Sys P) : Act → Bool
  | .renderer => true
  | .frameThread => true
  | .timer => s.renderer.isReturned
  | .main _ _ => true
  | _ => false

/-- after `Close` was sent -/
structure Ending (s : Sys P) : Prop where
  ends : s.main.ends = true
  closed : s.renderer.Closed s.events

theorem ending_step (h : Ending s) (hstep : Step s a r s') : Ending s' := by
  refine ⟨?_, closed_step hstep h.closed⟩
  have hends := h.ends
  cases hstep with
  | mainSend hevent halive =>
    revert hends hevent
    cases s.main <;> simp [mainEvent, nextMain, MainAt.ends]
  | mainSendFails hevent hgone status =>
    revert hends hevent
    cases s.main <;> simp [mainEvent, nextMain, MainAt.ends]
  | mainCheck main hat hmain => simp [hat, MainAt.ends] at hends
  | mainReceive hat hinbox hs => simp [hat, MainAt.ends] at hends
  | mainEmitted hat => simp [hat, MainAt.ends] at hends
  | joinTimer hat htimer => rfl
  | joinFrames hat hframes => rfl
  | joinRenderer hat hrenderer => rfl
  | terminalFails timer huses htimer => rfl
  | _ => simpa using hends

/-! ## Each step that counts -/

theorem toPhase_stepsLeft (s : Sys P) (l : EventLoop P) :
    (s.toPhase l.next).renderer.stepsLeft (s.toPhase l.next).events ≤
      if l.willClose then 0 else 6 * (s.events.idxOf .close + 1) := by
  unfold EventLoop.next
  split_ifs with hclose
  · exact le_rfl
  · exact le_rfl

/-- the page after a pass that may have ended in `Close` -/
theorem follow_stepsLeft (s : Sys P) (pass : Pass P) :
    (s.follow pass).renderer.stepsLeft (s.follow pass).events ≤ 6 * (s.events.idxOf .close + 1) + 5 := by
  cases pass with
  | skip l =>
    have h := toPhase_stepsLeft s l
    split_ifs at h <;> simp only [follow] <;> omega
  | frame f l =>
    simp only [follow, RendererAt.stepsLeft]
    split_ifs <;> omega
  | stop result => exact Nat.zero_le _

/-- the page that handled `Close` -/
theorem close_stepsLeft (s : Sys P) (l : EventLoop P) :
    (s.follow (l.pass .close)).renderer.stepsLeft (s.follow (l.pass .close)).events ≤ 5 := by
  rcases pass_willClose l .close with ⟨l', hpass, hwill⟩ | ⟨f, l', hpass, hwill⟩ | ⟨result, hpass⟩
  · have h := toPhase_stepsLeft s l'
    simp only [hwill, decide_true, if_true, Nat.le_zero_eq] at h
    simp [hpass, follow, h]
  · simp [hpass, follow, RendererAt.stepsLeft, hwill]
  · simp [hpass, follow, toPhase, RendererAt.stepsLeft]

theorem stepsLeft_append {renderer : RendererAt P} {events : List WrbEvent} (h : renderer.Closed events)
    (more : List WrbEvent) : renderer.stepsLeft (events ++ more) = renderer.stepsLeft events := by
  cases renderer with
  | returned result => rfl
  | nextFrame f l =>
    rcases h with hwill | hmem
    · simp [RendererAt.stepsLeft, hwill]
    · simp [RendererAt.stepsLeft, List.idxOf_append_of_mem hmem]
  | nextEvent l =>
    have hmem : .close ∈ events := h
    simp [RendererAt.stepsLeft, List.idxOf_append_of_mem hmem]
  | loading =>
    have hmem : .close ∈ events := h
    simp [RendererAt.stepsLeft, List.idxOf_append_of_mem hmem]

/-- the page with the event that it takes -/
theorem take_stepsLeft (s : Sys P) (l : EventLoop P) (e : WrbEvent) :
    (s.follow (l.pass e)).renderer.stepsLeft (s.follow (l.pass e)).events + 1 ≤
      6 * ((e :: s.events).idxOf .close + 1) := by
  by_cases hclose : e = .close
  · subst hclose
    have h := close_stepsLeft s l
    rw [List.idxOf_cons_self]
    omega
  · have h := follow_stepsLeft s (l.pass e)
    rw [List.idxOf_cons_ne _ hclose]
    omega

/-- a step that counts leaves fewer steps, any other step no more -/
theorem stepsLeft_step (h : Ending s) (hstep : Step s a r s') : s'.stepsLeft + (s.counts a).toNat ≤ s.stepsLeft := by
  obtain ⟨hends, hclosed⟩ := h
  unfold stepsLeft
  cases hstep with
  | load hat =>
    have hbefore : s.renderer.stepsLeft s.events = 6 * (s.events.idxOf .close + 1) + 6 := by rw [hat]; rfl
    have halive : s.renderer.isReturned = false := by rw [hat]; rfl
    have hpage := follow_stepsLeft s P.start
    have htimer := s.timer.stepsLeft_le (s.follow P.start).renderer.isReturned
    simp only [counts, hbefore, halive, follow_frames, follow_frameThread, follow_timer, follow_main, Bool.toNat_true]
    omega
  | @take l e events hat hevents =>
    have hbefore : s.renderer.stepsLeft s.events = 6 * ((e :: events).idxOf .close + 1) := by rw [hat, hevents]; rfl
    have halive : s.renderer.isReturned = false := by rw [hat]; rfl
    have hpage := take_stepsLeft { s with events := events } l e
    have htimer := s.timer.stepsLeft_le ({ s with events := events }.follow (l.pass e)).renderer.isReturned
    simp only [counts, hbefore, halive, follow_frames, follow_frameThread, follow_timer, follow_main, Bool.toNat_true]
    dsimp only at hpage
    omega
  | @put f l hat hthread =>
    have hbefore : s.renderer.stepsLeft s.events =
        if l.willClose then 5 else 6 * (s.events.idxOf .close + 1) + 5 := by rw [hat]; rfl
    have halive : s.renderer.isReturned = false := by rw [hat]; rfl
    have hpage := toPhase_stepsLeft { s with frames := s.frames ++ [f] } l
    have htimer := s.timer.stepsLeft_le ({ s with frames := s.frames ++ [f] }.toPhase l.next).renderer.isReturned
    have hframes : s.frameThread.stepsLeft (s.frames ++ [f]).length = s.frameThread.stepsLeft s.frames.length + 3 := by
      cases hat : s.frameThread with
      | returned => simp [hat, FrameThreadAt.isReturned] at hthread
      | _ => simp only [FrameThreadAt.stepsLeft, List.length_append, List.length_singleton]; omega
    simp only [counts, hbefore, halive, hframes, toPhase_frames, toPhase_frameThread, toPhase_timer, toPhase_main,
      Bool.toNat_true]
    dsimp only at hpage
    split_ifs at hpage ⊢ <;> omega
  | @putFails f l hat hgone =>
    have hbefore : 5 ≤ s.renderer.stepsLeft s.events := by
      rw [hat]
      simp only [RendererAt.stepsLeft]
      split_ifs <;> omega
    have halive : s.renderer.isReturned = false := by rw [hat]; rfl
    have htimer := s.timer.stepsLeft_le true
    show 0 + s.frameThread.stepsLeft s.frames.length + s.timer.stepsLeft true + s.main.stepsLeft + 1 ≤ _
    rw [halive]
    omega
  | frameCheck hat =>
    simp only [counts, hat, FrameThreadAt.stepsLeft, Bool.toNat_true]
    omega
  | frameTake hat hframes =>
    simp only [counts, hat, hframes, FrameThreadAt.stepsLeft, List.length_cons, Bool.toNat_true]
    omega
  | frameSend hat hleft =>
    simp only [counts, hat, FrameThreadAt.stepsLeft, Bool.toNat_true]
    omega
  | frameReturn hgoes hwhy =>
    have hbefore : 1 ≤ s.frameThread.stepsLeft s.frames.length := by
      cases hat : s.frameThread with
      | returned => simp [hat, FrameThreadAt.isReturned] at hgoes
      | _ => simp only [FrameThreadAt.stepsLeft]; omega
    show s.renderer.stepsLeft s.events + 0 + s.timer.stepsLeft s.renderer.isReturned + s.main.stepsLeft + 1 ≤ _
    omega
  | timerSend hat halive =>
    simp [counts, stepsLeft_append hclosed, halive, TimerAt.stepsLeft]
  | timerReturn hat hgone =>
    simp [counts, hat, hgone, TimerAt.stepsLeft]
  | timerWake hat =>
    cases hgone : s.renderer.isReturned <;> simp [counts, hat, hgone, TimerAt.stepsLeft]
  | keySend hat hleft => simp [counts]
  | keyboard ha at' hsend hwhy =>
    rcases ha with rfl | rfl | ⟨key, rfl⟩ <;> simp [counts]
  | mainSend hevent halive =>
    have hmain : (nextMain s.main).stepsLeft + 1 ≤ s.main.stepsLeft := by
      revert hends hevent
      cases s.main <;> simp [mainEvent, nextMain, MainAt.ends, MainAt.stepsLeft]
    simp only [counts, stepsLeft_append hclosed, Bool.toNat_true]
    omega
  | mainSendFails hevent hgone status =>
    have hmain : (nextMain s.main).stepsLeft + 1 ≤ s.main.stepsLeft := by
      revert hends hevent
      cases s.main <;> simp [mainEvent, nextMain, MainAt.ends, MainAt.stepsLeft]
    simp only [counts, Bool.toNat_true]
    omega
  | mainCheck main hat hmain => simp [hat, MainAt.ends] at hends
  | mainReceive hat hinbox hs => simp [hat, MainAt.ends] at hends
  | mainEmitted hat => simp [hat, MainAt.ends] at hends
  | joinTimer hat htimer => simp [counts, hat, MainAt.stepsLeft]
  | joinFrames hat hframes => simp [counts, hat, MainAt.stepsLeft]
  | joinRenderer hat hrenderer => simp [counts, hat, MainAt.stepsLeft]
  | terminalFails timer huses htimer =>
    revert hends huses
    cases hat : s.main <;> simp [usesTerminal, hat, MainAt.ends]

/-- until the process exits, a step that counts can be taken -/
theorem ending_goesOn (h : Ending s) (hexited : s.main ≠ .exited) :
    ∃ a, s.counts a = true ∧ (s.step a).isSome = true := by
  by_contra hnone
  have hstep : ∀ a, s.counts a = true → s.step a = none := by
    intro a ha
    by_contra hsome
    exact hnone ⟨a, ha, Option.isSome_iff_ne_none.2 hsome⟩
  simp only [step, if_neg hexited] at hstep
  have hpages := page_waits (hstep .renderer rfl) (hstep .frameThread rfl)
  obtain ⟨hgone, hreturned⟩ : s.renderer.isReturned = true ∧ s.frameThread.isReturned = true := by
    refine hpages.resolve_left ?_
    intro hwaits
    obtain ⟨l, hat, hnil⟩ := hwaits
    have hclosed := h.closed
    rw [hat, hnil] at hclosed
    cases hclosed
  have htimer := timerStep_none (hstep .timer hgone) (.inr hgone)
  rcases mainStep_none (hstep (.main (0, 0) []) rfl) (.inr hgone) with
    ⟨hat, -⟩ | ⟨-, hnot⟩ | ⟨-, hnot⟩ | ⟨-, hnot⟩ | hat
  · have hends := h.ends
    rw [hat] at hends
    cases hends
  · exact hnot htimer
  · rw [hreturned] at hnot
    cases hnot
  · rw [hgone] at hnot
    cases hnot
  · exact hexited hat

theorem ending_of_joins (hrun : runSome step (start P wrbName) acts = some (rs, s)) (hjoins : s.main.joins = true) :
    Ending s := by
  refine ⟨?_, (standing_of_run hrun).closed hjoins⟩
  revert hjoins
  cases s.main <;> simp [MainAt.joins, MainAt.ends]

/-- **The process ends.** From a state that a run reaches where the viewer waits for a thread to return: however the
threads take turns from there, no more steps count than are left in that state; and until the process exits, one of
these steps can be taken. -/
theorem shuts_down (hrun : runSome step (start P wrbName) acts = some (rs, s)) (hjoins : s.main.joins = true)
    {more : List Act} {rs' : List Report} (hmore : runSome step s more = some (rs', s')) :
    moveCount step counts s more + s'.stepsLeft ≤ s.stepsLeft ∧
      (s'.main ≠ .exited → ∃ a, s'.counts a = true ∧ (s'.step a).isSome = true) := by
  have hending := ending_of_joins hrun hjoins
  have hkeeps : ∀ (s : Sys P) (a : Act) (r : Report) (s' : Sys P), Ending s → s.step a = some (r, s') → Ending s' :=
    fun s a r s' h hstep => ending_step h (step_cases hstep).2
  refine ⟨?_, ?_⟩
  · exact moves_le hkeeps (fun s a r s' h hstep => stepsLeft_step h (step_cases hstep).2) hending hmore
  · exact ending_goesOn (runSome_keeps hkeeps hending hmore)

/-- the page sends its last frame and returns, then the thread of the frames, and the process exits -/
def untilExited : List Act :=
  let main := Act.main (24, 80) []
  [.renderer, .renderer, .frameThread, .frameThread, .frameThread, main, main, main, main]

theorem shuts_down_untilExited : ∃ rs s rs' s',
    runSome step (start blankPage []) untilClosed = some (rs, s) ∧ runSome step s untilExited = some (rs', s') ∧
      moveCount step counts s untilExited + s'.stepsLeft ≤ s.stepsLeft ∧ s'.main = .exited :=
  ⟨_, _, _, _, rfl, rfl, (@shuts_down blankPage _ _ _ untilClosed [] rfl rfl untilExited _ rfl).1, rfl⟩

end Sys

end Wrb.Ui
