/-
Threads that talk over bounded channels, and runs of steps that can fail.

A channel of a given capacity takes what is sent while there is room. A send waits while the channel is full, and fails
once its receiver is gone (`offer`); with a receiver that takes from the front, it is a queue.

Rules:
- `runSome_reports`: what every step keeps of the reports so far, a run keeps of all its reports;
- `moves_le`: where some of the steps make progress on a measure and the others do not undo it, a run has no more steps
  that make progress than the measure at its start.
-/
import Wrb.Lib.Runs

namespace Wrb.Channels

open Wrb.Runs

/-! ## Channels -/

section Offer

variable {α : Type} {capacity : ℕ} {alive sent : Bool} {queue queue' : List α} {a : α}

/-- send on a channel: `none` while it has to wait, else whether it was sent, and the queue -/
def offer (capacity : ℕ) (alive : Bool) (queue : List α) (a : α) : Option (Bool × List α) :=
  if alive then if queue.length < capacity then some (true, queue ++ [a]) else none
  else some (false, queue)

theorem offer_eq_none_iff : offer capacity alive queue a = none ↔ alive = true ∧ capacity ≤ queue.length := by
  unfold offer
  split_ifs with halive hroom
  · simp [halive, Nat.not_le.2 hroom]
  · simp [halive, Nat.not_lt.1 hroom]
  · simp [halive]

theorem offer_cases (h : offer capacity alive queue a = some (sent, queue')) :
    (alive = true ∧ sent = true ∧ queue' = queue ++ [a]) ∨ (alive = false ∧ sent = false ∧ queue' = queue) := by
  unfold offer at h
  split_ifs at h with halive
  · cases h
    exact .inl ⟨halive, rfl, rfl⟩
  · cases h
    exact .inr ⟨by simpa using halive, rfl, rfl⟩

end Offer

/-! ## Runs -/

section Runs

variable {σ ω ρ : Type} {step : σ → ω → Option (ρ × σ)} {s s' : σ} {ops : List ω} {rs : List ρ}

/-- **A record of the reports**: what every step keeps of the reports so far, a run keeps of all its reports -/
theorem runSome_reports {I : List ρ → σ → Prop}
    (hstep : ∀ before s o r s', I before s → step s o = some (r, s') → I (before ++ [r]) s') {before : List ρ}
    (h : I before s) (hrun : runSome step s ops = some (rs, s')) : I (before ++ rs) s' := by
  induction ops generalizing s before rs with
  | nil =>
    cases hrun
    rwa [List.append_nil]
  | cons o ops ih =>
    obtain ⟨⟨r, s₁⟩, h₁, hrest⟩ := Option.bind_eq_some_iff.1 hrun
    obtain ⟨⟨rs', s₂⟩, h₂, heq⟩ := Option.bind_eq_some_iff.1 hrest
    cases heq
    rw [List.append_cons]
    exact ih (hstep before s o r s₁ h h₁) h₂

/-- what every step keeps, a run keeps -/
theorem runSome_keeps {I : σ → Prop} (hstep : ∀ s o r s', I s → step s o = some (r, s') → I s') (h : I s)
    (hrun : runSome step s ops = some (rs, s')) : I s' :=
  @runSome_reports _ _ _ step s s' ops rs (fun _ => I) (fun _ => hstep) [] h hrun

/-- how many steps of a run make progress -/
def moveCount (step : σ → ω → Option (ρ × σ)) (moves : σ → ω → Bool) : σ → List ω → ℕ
  | _, [] => 0
  | s, o :: ops => (moves s o).toNat + ((step s o).map fun r => moveCount step moves r.2 ops).getD 0

/-- **The measure rule**: a run has no more steps that make progress than the measure at its start -/
theorem moves_le {I : σ → Prop} {moves : σ → ω → Bool} {measure : σ → ℕ}
    (hkeeps : ∀ s o r s', I s → step s o = some (r, s') → I s')
    (hmove : ∀ s o r s', I s → step s o = some (r, s') → measure s' + (moves s o).toNat ≤ measure s) (h : I s)
    (hrun : runSome step s ops = some (rs, s')) : moveCount step moves s ops + measure s' ≤ measure s := by
  induction ops generalizing s rs with
  | nil =>
    cases hrun
    simp [moveCount]
  | cons o ops ih =>
    obtain ⟨⟨r, s₁⟩, h₁, hrest⟩ := Option.bind_eq_some_iff.1 hrun
    obtain ⟨⟨rs', s₂⟩, h₂, heq⟩ := Option.bind_eq_some_iff.1 hrest
    cases heq
    have htail := ih (hkeeps s o r s₁ h h₁) h₂
    have hhead := hmove s o r s₁ h h₁
    simp only [moveCount, h₁, Option.map_some, Option.getD_some]
    omega

end Runs

end Wrb.Channels
