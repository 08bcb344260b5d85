/-
Runs of a deterministic step function along a list of operations, and properties of every step of a run.

`Always step P s ops` says that `P` holds of every step of the run from `s`: of the state before it and its operation.
Two step properties that agree wherever an invariant holds agree on whole runs (`always_iff`), which turns "the step is
right exactly when ..." into "the run is right exactly when every step of it ...".

The second part is about step functions that can fail and report something (`runSome`, `AlwaysSome`). `runSome_refines`
is the simulation rule: where every step that meets a condition does not fail and agrees with a step of a total model, a
run of such steps does not fail and agrees with the run of the model. `runSome_inv` is the rule for invariants, and
`runSome_inv_iff` the one for "in every state reached, exactly when every step ...".
-/
import Mathlib.Tactic

namespace Wrb.Runs

variable {σ ω : Type} (step : σ → ω → σ)

def run (s : σ) (ops : List ω) : σ := ops.foldl step s

@[simp] theorem run_nil (s : σ) : run step s [] = s := rfl

@[simp] theorem run_cons (s : σ) (o : ω) (ops : List ω) : run step s (o :: ops) = run step (step s o) ops := rfl

/-- `P` holds of every step of the run: of the state before the step and the operation -/
def Always (P : σ → ω → Prop) : σ → List ω → Prop
  | _, [] => True
  | s, o :: ops => P s o ∧ Always P (step s o) ops

variable {step}

/-- an invariant of the step is an invariant of the run -/
theorem run_inv {I : σ → Prop} (hstep : ∀ s o, I s → I (step s o)) {s : σ} (h : I s) (ops : List ω) :
    I (run step s ops) := by
  induction ops generalizing s with
  | nil => exact h
  | cons o ops ih => exact ih (hstep s o h)

/-- what every step that meets `P` preserves, a run of such steps preserves -/
theorem run_inv_of_always {I : σ → Prop} {P : σ → ω → Prop} (hstep : ∀ s o, I s → P s o → I (step s o)) {s : σ}
    (h : I s) {ops : List ω} (hops : Always step P s ops) : I (run step s ops) := by
  induction ops generalizing s with
  | nil => exact h
  | cons o ops ih => exact ih (hstep s o h hops.1) hops.2

theorem run_append (s : σ) (before after : List ω) :
    run step s (before ++ after) = run step (run step s before) after := List.foldl_append

theorem always_append {P : σ → ω → Prop} {s : σ} {before after : List ω} :
    Always step P s (before ++ after) ↔ Always step P s before ∧ Always step P (run step s before) after := by
  induction before generalizing s with
  | nil => simp [Always]
  | cons o before ih => rw [List.cons_append, Always, ih, Always, run_cons, and_assoc]

/-- what holds of each operation for itself holds along the run -/
theorem Always.and {P : σ → ω → Prop} {Q : ω → Prop} {s : σ} {ops : List ω} (h : Always step P s ops)
    (hQ : ∀ o ∈ ops, Q o) : Always step (fun s o => P s o ∧ Q o) s ops := by
  induction ops generalizing s with
  | nil => trivial
  | cons o ops ih =>
    exact ⟨⟨h.1, hQ o List.mem_cons_self⟩, ih h.2 fun o' ho' => hQ o' (List.mem_cons_of_mem o ho')⟩

theorem always_and {P Q : σ → ω → Prop} {s : σ} {ops : List ω} :
    Always step (fun s o => P s o ∧ Q s o) s ops ↔ Always step P s ops ∧ Always step Q s ops := by
  induction ops generalizing s with
  | nil => simp [Always]
  | cons o ops ih =>
    rw [Always, ih, Always, Always]
    exact and_and_and_comm

theorem Always.mp {P Q : σ → ω → Prop} {s : σ} {ops : List ω} (h : Always step P s ops)
    (hPQ : Always step (fun s o => P s o → Q s o) s ops) : Always step Q s ops := by
  induction ops generalizing s with
  | nil => trivial
  | cons o ops ih => exact ⟨hPQ.1 h.1, ih h.2 hPQ.2⟩

/-- what holds of every step holds of the step after any part of the run -/
theorem Always.at {P : σ → ω → Prop} {s : σ} {before after : List ω} {o : ω}
    (h : Always step P s (before ++ o :: after)) : P (run step s before) o := by
  induction before generalizing s with
  | nil => exact h.1
  | cons o' before ih => exact ih h.2

theorem Always.take {P : σ → ω → Prop} {s : σ} {ops : List ω} (h : Always step P s ops) (n : ℕ) :
    Always step P s (ops.take n) := by
  rw [← List.take_append_drop n ops] at h
  exact (always_append.1 h).1

/-- what the state after a step tells of the step, the states of a run tell of all its steps -/
theorem always_of_states {I : σ → Prop} {P : σ → ω → Prop} (hstep : ∀ s o, I (step s o) → P s o) {s : σ} {ops : List ω}
    (h : ∀ n, I (run step s (ops.take n))) : Always step P s ops := by
  induction ops generalizing s with
  | nil => trivial
  | cons o ops ih => exact ⟨hstep s o (h 1), ih fun n => h (n + 1)⟩

instance decidableAlways {P : σ → ω → Prop} [∀ s o, Decidable (P s o)] :
    (s : σ) → (ops : List ω) → Decidable (Always step P s ops)
  | _, [] => .isTrue trivial
  | s, o :: ops =>
    have : Decidable (Always step P (step s o) ops) := decidableAlways (step s o) ops
    inferInstanceAs (Decidable (P s o ∧ Always step P (step s o) ops))

/-- a run that also records something: what it records does not change the run -/
theorem run_proj {τ : Type} {gstep : τ → ω → τ} {proj : τ → σ} (h : ∀ g o, proj (gstep g o) = step (proj g) o) (g : τ)
    (ops : List ω) : proj (run gstep g ops) = run step (proj g) ops := by
  induction ops generalizing g with
  | nil => rfl
  | cons o ops ih => rw [run_cons, run_cons, ih, h]

theorem always_proj {τ : Type} {gstep : τ → ω → τ} {proj : τ → σ} (h : ∀ g o, proj (gstep g o) = step (proj g) o)
    {P : σ → ω → Prop} {g : τ} {ops : List ω} (hops : Always step P (proj g) ops) :
    Always gstep (fun g o => P (proj g) o) g ops := by
  induction ops generalizing g with
  | nil => trivial
  | cons o ops ih => exact ⟨hops.1, ih (by rw [h]; exact hops.2)⟩

/-- under an invariant, step properties that agree on single steps agree on runs -/
theorem always_iff {I : σ → Prop} {P Q : σ → ω → Prop} (hPQ : ∀ s o, I s → (P s o ↔ Q s o))
    (hstep : ∀ s o, I s → P s o → I (step s o)) {s : σ} (h : I s) (ops : List ω) :
    Always step P s ops ↔ Always step Q s ops := by
  induction ops generalizing s with
  | nil => exact Iff.rfl
  | cons o ops ih =>
    constructor
    · rintro ⟨hp, hops⟩
      exact ⟨(hPQ s o h).1 hp, (ih (hstep s o h hp)).1 hops⟩
    · rintro ⟨hq, hops⟩
      have hp := (hPQ s o h).2 hq
      exact ⟨hp, (ih (hstep s o h hp)).2 hops⟩

/-- a step property that an invariant implies holds all along the run -/
theorem always_of_inv {I : σ → Prop} {P : σ → ω → Prop} (hstep : ∀ s o, I s → I (step s o))
    (hP : ∀ s o, I s → P s o) {s : σ} (h : I s) (ops : List ω) : Always step P s ops := by
  induction ops generalizing s with
  | nil => trivial
  | cons o ops ih => exact ⟨hP s o h, ih (hstep s o h)⟩

/-- **Agreement step by step**: where two states agree, they agree after a step exactly when it meets `P`. So they agree
all along their runs exactly when every step meets `P` -/
theorem agree_iff_always {τ : Type} {model : τ → ω → τ} {R : σ → τ → Prop} {P : σ → ω → Prop}
    (hstep : ∀ s t o, R s t → (R (step s o) (model t o) ↔ P s o)) {s : σ} {t : τ} (h : R s t) (ops : List ω) :
    (∀ n, R (run step s (ops.take n)) (run model t (ops.take n))) ↔ Always step P s ops := by
  induction ops generalizing s t with
  | nil =>
    refine iff_of_true ?_ trivial
    intro n
    rw [List.take_nil]
    exact h
  | cons o ops ih =>
    constructor
    · intro hall
      have hone : R (step s o) (model t o) := hall 1
      exact ⟨(hstep s t o h).1 hone, (ih hone).1 fun n => hall (n + 1)⟩
    · rintro ⟨hp, hops⟩ n
      cases n with
      | zero => exact h
      | succ n => exact (ih ((hstep s t o h).2 hp)).2 hops n

/-- **An invariant step by step**: where it holds, it holds after a step exactly when the step meets `P`. So it holds
all along a run exactly when every step meets `P` -/
theorem inv_iff_always {I : σ → Prop} {P : σ → ω → Prop} (hstep : ∀ s o, I s → (I (step s o) ↔ P s o)) {s : σ} (h : I s)
    (ops : List ω) : (∀ n, I (run step s (ops.take n))) ↔ Always step P s ops :=
  @agree_iff_always _ _ step Unit (fun u _ => u) (fun s _ => I s) P (fun s _ o h => hstep s o h) s () h ops

/-! ## Steps that can fail, against a total model -/

section Fallible

variable {σ τ ω ρ : Type}

/-- a run of steps that can fail (`none`) and report something: the reports, and the state reached -/
def runSome (step : σ → ω → Option (ρ × σ)) : σ → List ω → Option (List ρ × σ)
  | s, [] => some ([], s)
  | s, o :: ops => do
    let (r, s) ← step s o
    let (rs, s) ← runSome step s ops
    return (r :: rs, s)

/-- the run of a total model, with its reports -/
def runModel (step : τ → ω → ρ × τ) : τ → List ω → List ρ × τ
  | t, [] => ([], t)
  | t, o :: ops => ((step t o).1 :: (runModel step (step t o).2 ops).1, (runModel step (step t o).2 ops).2)

/-- `P` holds of every step of the run, as far as it gets -/
def AlwaysSome (step : σ → ω → Option (ρ × σ)) (P : σ → ω → Prop) : σ → List ω → Prop
  | _, [] => True
  | s, o :: ops => P s o ∧ ∀ r ∈ step s o, AlwaysSome step P r.2 ops

instance decidableAlwaysSome {step : σ → ω → Option (ρ × σ)} {P : σ → ω → Prop} [∀ s o, Decidable (P s o)] :
    (s : σ) → (ops : List ω) → Decidable (AlwaysSome step P s ops)
  | _, [] => .isTrue trivial
  | s, o :: ops =>
    have : DecidablePred fun r : ρ × σ => AlwaysSome step P r.2 ops := fun r => decidableAlwaysSome r.2 ops
    inferInstanceAs (Decidable (P s o ∧ ∀ r ∈ step s o, AlwaysSome step P r.2 ops))

/-- **The simulation rule**: if every step that meets `P` succeeds as the model does, a run of such steps does -/
theorem runSome_refines {step : σ → ω → Option (ρ × σ)} {model : τ → ω → ρ × τ} {R : σ → τ → Prop} {P : σ → ω → Prop}
    (hstep : ∀ s t o, R s t → P s o → ∃ s', step s o = some ((model t o).1, s') ∧ R s' (model t o).2) {s : σ} {t : τ}
    (h : R s t) {ops : List ω} (hops : AlwaysSome step P s ops) :
    ∃ s', runSome step s ops = some ((runModel model t ops).1, s') ∧ R s' (runModel model t ops).2 := by
  induction ops generalizing s t with
  | nil => exact ⟨s, rfl, h⟩
  | cons o ops ih =>
    obtain ⟨s₁, h₁, hR₁⟩ := hstep s t o h hops.1
    obtain ⟨s₂, h₂, hR₂⟩ := ih hR₁ (hops.2 _ h₁)
    refine ⟨s₂, ?_, hR₂⟩
    simp only [runSome, h₁, Option.bind_eq_bind, Option.bind_some, h₂, runModel]
    rfl

/-- what every step that meets `P` preserves, a run of such steps preserves -/
theorem runSome_inv {step : σ → ω → Option (ρ × σ)} {I : σ → Prop} {P : σ → ω → Prop}
    (hstep : ∀ s o r s', I s → P s o → step s o = some (r, s') → I s') {s s' : σ} (h : I s) {ops : List ω} {rs : List ρ}
    (hops : AlwaysSome step P s ops) (hrun : runSome step s ops = some (rs, s')) : I s' := by
  induction ops generalizing s rs with
  | nil =>
    cases hrun
    exact h
  | cons o ops ih =>
    obtain ⟨⟨r, s₁⟩, h₁, hrest⟩ := Option.bind_eq_some_iff.1 hrun
    obtain ⟨⟨rs', s₂⟩, h₂, heq⟩ := Option.bind_eq_some_iff.1 hrest
    cases heq
    exact ih (hstep s o r s₁ h hops.1 h₁) (hops.2 _ h₁) h₂

/-- under an invariant, step properties that agree on single steps agree on runs -/
theorem alwaysSome_iff {step : σ → ω → Option (ρ × σ)} {I : σ → Prop} {P Q : σ → ω → Prop}
    (hPQ : ∀ s o, I s → (P s o ↔ Q s o)) (hstep : ∀ s o r s', I s → step s o = some (r, s') → I s') {s : σ} (h : I s)
    (ops : List ω) : AlwaysSome step P s ops ↔ AlwaysSome step Q s ops := by
  induction ops generalizing s with
  | nil => exact Iff.rfl
  | cons o ops ih =>
    apply and_congr (hPQ s o h)
    apply forall₂_congr
    intro r hr
    exact ih (hstep s o r.1 r.2 h hr)

/-- **An invariant step by step**, beside one that every step keeps: where both hold, the first holds after a step
exactly when the step meets `P`. So it holds of all states of a run exactly when every step meets `P` -/
theorem runSome_inv_iff {step : σ → ω → Option (ρ × σ)} {I J : σ → Prop} {P : σ → ω → Prop}
    (hkeeps : ∀ s o r s', J s → step s o = some (r, s') → J s')
    (hstep : ∀ s o, J s → I s → ((∀ r s', step s o = some (r, s') → I s') ↔ P s o)) {s : σ} (hJ : J s) (ops : List ω) :
    (∀ n rs s', runSome step s (ops.take n) = some (rs, s') → I s') ↔ I s ∧ AlwaysSome step P s ops := by
  induction ops generalizing s with
  | nil => simp [runSome, AlwaysSome]
  | cons o ops ih =>
    constructor
    · intro hall
      have hI : I s := hall 0 [] s rfl
      refine ⟨hI, (hstep s o hJ hI).1 fun r s' hs => hall 1 [r] s' (by simp [runSome, hs]), ?_⟩
      rintro ⟨r, s₁⟩ hs
      refine ((ih (hkeeps s o r s₁ hJ hs)).1 fun n rs s' hrun => hall (n + 1) (r :: rs) s' ?_).2
      rw [List.take_succ_cons, runSome, Option.mem_def.1 hs]
      simp [hrun]
    · rintro ⟨hI, hP, hrest⟩ n rs s' hrun
      cases n with
      | zero =>
        cases hrun
        exact hI
      | succ n =>
        obtain ⟨⟨r, s₁⟩, hs, htail⟩ := Option.bind_eq_some_iff.1 hrun
        obtain ⟨⟨rs', s₂⟩, hrun', heq⟩ := Option.bind_eq_some_iff.1 htail
        cases heq
        have hI₁ := (hstep s o hJ hI).2 hP r s₁ hs
        exact (ih (hkeeps s o r s₁ hJ hs)).2 ⟨hI₁, hrest _ hs⟩ n rs' s' hrun'

/-- **A record of the run**: what every step keeps of the steps so far, a run keeps of all its steps -/
theorem runSome_record {step : σ → ω → Option (ρ × σ)} {I : List ω → σ → Prop}
    (hstep : ∀ done s o r s', I done s → step s o = some (r, s') → I (done ++ [o]) s') {done ops : List ω} {s s' : σ}
    (h : I done s) {rs : List ρ} (hrun : runSome step s ops = some (rs, s')) : I (done ++ ops) s' := by
  induction ops generalizing s done rs with
  | nil =>
    cases hrun
    rwa [List.append_nil]
  | cons o ops ih =>
    obtain ⟨⟨r, s₁⟩, h₁, hrest⟩ := Option.bind_eq_some_iff.1 hrun
    obtain ⟨⟨rs', s₂⟩, h₂, heq⟩ := Option.bind_eq_some_iff.1 hrest
    cases heq
    rw [List.append_cons]
    exact ih (hstep done s o r s₁ h h₁) h₂

/-- what holds of every step holds along any first part of the run -/
theorem AlwaysSome.take {step : σ → ω → Option (ρ × σ)} {P : σ → ω → Prop} {s : σ} {ops : List ω}
    (h : AlwaysSome step P s ops) (n : ℕ) : AlwaysSome step P s (ops.take n) := by
  induction ops generalizing s n with
  | nil => simpa using h
  | cons o ops ih =>
    cases n with
    | zero => trivial
    | succ n => exact ⟨h.1, fun r hr => ih (h.2 r hr) n⟩

/-- what holds of each operation for itself holds along the run -/
theorem AlwaysSome.and {step : σ → ω → Option (ρ × σ)} {P : σ → ω → Prop} {Q : ω → Prop} {s : σ} {ops : List ω}
    (h : AlwaysSome step P s ops) (hQ : ∀ o ∈ ops, Q o) : AlwaysSome step (fun s o => P s o ∧ Q o) s ops := by
  induction ops generalizing s with
  | nil => trivial
  | cons o ops ih =>
    refine ⟨⟨h.1, hQ o List.mem_cons_self⟩, ?_⟩
    intro r hr
    exact ih (h.2 r hr) fun o' ho' => hQ o' (List.mem_cons_of_mem o ho')

end Fallible

end Wrb.Runs
