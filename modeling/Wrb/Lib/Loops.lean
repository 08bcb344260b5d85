/-
Loops along a list whose rounds may return from the function around the loop, over any type of results and notes.

A round is given its position in the list. It goes on, leaving some notes behind, or it returns a result.
- `run_returned_iff`: the loop returns `r` iff some round does and every round before it goes on;
- `goesOn_run_iff`: the loop comes to its end iff every round goes on.
Nested loops compose: the rounds of the inner loop are a round of the outer one.
-/
import Mathlib.Tactic

namespace Wrb.Loops

variable {α ε ρ : Type}

/-- how a round of a loop ends -/
inductive Round (ε ρ : Type) where
  | next (notes : List ε)
  | returned (r : ρ)
deriving DecidableEq

/-- the round goes on -/
def Round.GoesOn (r : Round ε ρ) : Prop := ∃ notes, r = .next notes

theorem Round.goesOn_next (notes : List ε) : (Round.next notes : Round ε ρ).GoesOn := ⟨notes, rfl⟩

theorem Round.not_goesOn_returned (r : ρ) : ¬ (Round.returned r : Round ε ρ).GoesOn := by
  rintro ⟨notes, h⟩
  cases h

theorem Round.goesOn_iff {o : Round ε ρ} : o.GoesOn ↔ ∀ r, o ≠ .returned r := by
  cases o with
  | next notes => exact iff_of_true (goesOn_next notes) fun r h => by cases h
  | returned r => exact iff_of_false (not_goesOn_returned r) fun h => h r rfl

/-- run the rounds along a list, from position `i` on, collecting the notes -/
def run (body : ℕ → α → Round ε ρ) : ℕ → List α → List ε → Round ε ρ
  | _, [], notes => .next notes
  | i, x :: xs, notes =>
    match body i x with
    | .next more => run body (i + 1) xs (notes ++ more)
    | .returned r => .returned r

variable {body : ℕ → α → Round ε ρ} {i : ℕ} {x : α} {xs : List α} {notes : List ε} {r : ρ}

theorem run_cons_of_next {more : List ε} (h : body i x = .next more) :
    run body i (x :: xs) notes = run body (i + 1) xs (notes ++ more) := by
  simp only [run, h]

theorem run_cons_of_returned (h : body i x = .returned r) : run body i (x :: xs) notes = .returned r := by
  simp only [run, h]

/-- position `k + 1` of a list is position `k` of its tail -/
theorem add_succ_eq (i k : ℕ) : i + (k + 1) = i + 1 + k := by omega

/-- all rounds before position `k` go on -/
def GoOnUntil (body : ℕ → α → Round ε ρ) (i : ℕ) (xs : List α) (k : ℕ) : Prop :=
  ∀ l < k, ∀ y, xs[l]? = some y → (body (i + l) y).GoesOn

theorem goOnUntil_zero : GoOnUntil body i xs 0 := fun l hl => absurd hl (Nat.not_lt_zero l)

theorem goOnUntil_cons {k : ℕ} :
    GoOnUntil body i (x :: xs) (k + 1) ↔ (body i x).GoesOn ∧ GoOnUntil body (i + 1) xs k := by
  constructor
  · intro h
    refine ⟨h 0 (Nat.succ_pos k) x rfl, fun l hl y hy => ?_⟩
    have := h (l + 1) (Nat.succ_lt_succ hl) y hy
    rwa [add_succ_eq] at this
  · rintro ⟨hx, hxs⟩ l hl y hy
    cases l with
    | zero =>
      obtain rfl := Option.some.inj hy
      exact hx
    | succ l =>
      have := hxs l (Nat.lt_of_succ_lt_succ hl) y hy
      rwa [← add_succ_eq] at this

/-- **The loop returns with the first round that does not go on.** -/
theorem run_returned_iff : run body i xs notes = .returned r ↔
    ∃ k x, xs[k]? = some x ∧ body (i + k) x = .returned r ∧ GoOnUntil body i xs k := by
  induction xs generalizing i notes with
  | nil => simp [run]
  | cons x xs ih =>
    cases hx : body i x with
    | returned r' =>
      rw [run_cons_of_returned hx]
      constructor
      · intro h
        obtain rfl := Round.returned.inj h
        exact ⟨0, x, rfl, hx, goOnUntil_zero⟩
      · rintro ⟨k, y, hy, hret, hon⟩
        cases k with
        | zero =>
          obtain rfl := Option.some.inj hy
          exact hx.symm.trans hret
        | succ k =>
          have hgo := (goOnUntil_cons.1 hon).1
          rw [hx] at hgo
          exact absurd hgo (Round.not_goesOn_returned r')
    | next more =>
      rw [run_cons_of_next hx, ih]
      constructor
      · rintro ⟨k, y, hy, hret, hon⟩
        refine ⟨k + 1, y, hy, ?_, goOnUntil_cons.2 ⟨⟨more, hx⟩, hon⟩⟩
        rwa [add_succ_eq]
      · rintro ⟨k, y, hy, hret, hon⟩
        cases k with
        | zero =>
          obtain rfl := Option.some.inj hy
          have hcontra := hx.symm.trans hret
          cases hcontra
        | succ k =>
          refine ⟨k, y, hy, ?_, (goOnUntil_cons.1 hon).2⟩
          rwa [add_succ_eq] at hret

theorem goesOn_run_iff : (run body i xs notes).GoesOn ↔ ∀ k x, xs[k]? = some x → (body (i + k) x).GoesOn := by
  induction xs generalizing i notes with
  | nil => simp [run, Round.GoesOn]
  | cons x xs ih =>
    cases hx : body i x with
    | returned r =>
      rw [run_cons_of_returned hx]
      refine iff_of_false (Round.not_goesOn_returned r) fun h => ?_
      have hgo := h 0 x rfl
      rw [Nat.add_zero, hx] at hgo
      exact Round.not_goesOn_returned r hgo
    | next more =>
      rw [run_cons_of_next hx, ih]
      constructor
      · intro h k y hy
        cases k with
        | zero =>
          obtain rfl := Option.some.inj hy
          exact ⟨more, hx⟩
        | succ k =>
          have := h k y hy
          rwa [← add_succ_eq] at this
      · intro h k y hy
        have := h (k + 1) y hy
        rwa [add_succ_eq] at this

end Wrb.Loops
