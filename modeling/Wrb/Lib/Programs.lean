/-
Programs that call a server, and their traces.

A program is a tree: it returns, makes a call and goes on with the answer, or spins (a loop that was cut off). `Q` is
the type of calls and `A q` the type of answers to `q`.

- `Yields p tr a`: answered along the trace `tr`, the program returns `a`. Traces say everything a program does,
  whoever answers it;
- `run serve p s`: the program against one server, a deterministic state machine. `run_eq_some` splits a run into a
  trace and the server's part of it (`Served`);
- `Action`: programs with a state and errors. `Outcome` is `Yields` for them, with one lemma for each way to build an
  action (`outcome_bind`, `outcome_throw`, ...), so that a trace can be read off a function's text; what only touches
  the state leaves no trace (`outcome_get_bind`, `outcome_modify_bind`). `Keeps` is what
  holds of every outcome, whether the action succeeds or fails;
- `Leaves`: what is left of a program after a trace. `Only` and its form for actions, `Asks`, are about the calls a
  program may make, also before it returns;
- `Pool`: programs that share one server, interleaved call by call. The history of each client in a pool is a trace of
  its program (`run_history`). The log of a run is all calls in order: the server's part of it is one served trace
  (`log_served`), a client's part is its history (`history_log`), and each entry is a step of the run (`log_split`).
-/
import Mathlib.Tactic

namespace Wrb.Programs

/-- a program that makes calls `q : Q`, answered in `A q` -/
inductive Prog (Q : Type) (A : Q → Type) (α : Type) where
  | ret (a : α)
  | spin
  | call (q : Q) (k : A q → Prog Q A α)

variable {Q : Type} {A : Q → Type} {α β : Type}

/-- a call and its answer -/
abbrev Event (Q : Type) (A : Q → Type) := (q : Q) × A q

abbrev Trace (Q : Type) (A : Q → Type) := List (Event Q A)

namespace Prog

def bind : Prog Q A α → (α → Prog Q A β) → Prog Q A β
  | ret a, f => f a
  | spin, _ => spin
  | call q k, f => call q fun a => (k a).bind f

instance : Monad (Prog Q A) where
  pure := ret
  bind := bind

end Prog

/-! ## Traces -/

/-- answered along the trace, the program returns `b` -/
inductive Yields : Prog Q A α → Trace Q A → α → Prop
  | ret (a : α) : Yields (.ret a) [] a
  | call (q : Q) (k : A q → Prog Q A α) (a : A q) (tr : Trace Q A) (b : α) (h : Yields (k a) tr b) :
    Yields (.call q k) (⟨q, a⟩ :: tr) b

theorem yields_ret {a b : α} {tr : Trace Q A} : Yields (.ret a : Prog Q A α) tr b ↔ tr = [] ∧ b = a := by
  constructor
  · intro h
    cases h
    exact ⟨rfl, rfl⟩
  · rintro ⟨rfl, rfl⟩
    exact .ret b

theorem not_yields_spin {b : α} {tr : Trace Q A} : ¬ Yields (.spin : Prog Q A α) tr b := by
  intro h
  cases h

theorem yields_call {q : Q} {k : A q → Prog Q A α} {b : α} {tr : Trace Q A} :
    Yields (.call q k) tr b ↔ ∃ a tr', tr = ⟨q, a⟩ :: tr' ∧ Yields (k a) tr' b := by
  constructor
  · intro h
    cases h with
    | call _ _ a tr' _ h => exact ⟨a, tr', rfl, h⟩
  · rintro ⟨a, tr', rfl, h⟩
    exact .call q k a tr' b h

theorem yields_bind {p : Prog Q A α} {f : α → Prog Q A β} {b : β} {tr : Trace Q A} :
    Yields (p >>= f) tr b ↔ ∃ a t₁ t₂, tr = t₁ ++ t₂ ∧ Yields p t₁ a ∧ Yields (f a) t₂ b := by
  show Yields (p.bind f) tr b ↔ _
  induction p generalizing tr with
  | ret a =>
    constructor
    · intro h
      exact ⟨a, [], tr, rfl, .ret a, h⟩
    · rintro ⟨a', t₁, t₂, rfl, h1, h2⟩
      obtain ⟨rfl, rfl⟩ := yields_ret.1 h1
      exact h2
  | spin =>
    constructor
    · intro h
      exact absurd h not_yields_spin
    · rintro ⟨_, _, _, -, h1, -⟩
      exact absurd h1 not_yields_spin
  | call q k ih =>
    constructor
    · intro h
      obtain ⟨x, tr', rfl, h'⟩ := yields_call.1 h
      obtain ⟨a, t₁, t₂, rfl, h1, h2⟩ := (ih x).1 h'
      exact ⟨a, ⟨q, x⟩ :: t₁, t₂, rfl, .call q k x t₁ a h1, h2⟩
    · rintro ⟨a, t₁, t₂, rfl, h1, h2⟩
      obtain ⟨x, t₁', rfl, h1'⟩ := yields_call.1 h1
      exact .call q _ x (t₁' ++ t₂) b ((ih x).2 ⟨a, t₁', t₂, rfl, h1', h2⟩)

/-- what the program returns along a trace, computed -/
def replay [DecidableEq Q] : Prog Q A α → Trace Q A → Option α
  | .ret a, [] => some a
  | .call q k, e :: tr => if h : e.1 = q then replay (k (h ▸ e.2)) tr else none
  | _, _ => none

theorem yields_of_replay [DecidableEq Q] {p : Prog Q A α} {tr : Trace Q A} {b : α} (h : replay p tr = some b) :
    Yields p tr b := by
  induction p generalizing tr with
  | ret a =>
    cases tr with
    | nil =>
      obtain rfl := Option.some.inj h
      exact .ret a
    | cons e tr => cases h
  | spin => cases tr <;> cases h
  | call q k ih =>
    cases tr with
    | nil => cases h
    | cons e tr =>
      obtain ⟨q', a⟩ := e
      rw [replay] at h
      split_ifs at h with hq
      have hq' : q' = q := hq
      subst hq'
      exact .call q' k a tr b (ih a h)

/-! ## Against one server -/

variable {σ : Type} (serve : (q : Q) → σ → A q × σ)

/-- the result and the server's last state; none if the program spins -/
def run : Prog Q A α → σ → Option (α × σ)
  | .ret a, s => some (a, s)
  | .spin, _ => none
  | .call q k, s => run (k (serve q s).1) (serve q s).2

/-- all calls of the run, also of one that spins in the end -/
def transcript : Prog Q A α → σ → Trace Q A
  | .ret _, _ => []
  | .spin, _ => []
  | .call q k, s => ⟨q, (serve q s).1⟩ :: transcript (k (serve q s).1) (serve q s).2

/-- the server, in state `s`, answers along the trace and is then in state `s'` -/
def Served : σ → Trace Q A → σ → Prop
  | s, [], s' => s = s'
  | s, e :: tr, s' => (serve e.1 s).1 = e.2 ∧ Served (serve e.1 s).2 tr s'

variable {serve}

theorem served_append {s s' : σ} {t₁ t₂ : Trace Q A} :
    Served serve s (t₁ ++ t₂) s' ↔ ∃ s₁, Served serve s t₁ s₁ ∧ Served serve s₁ t₂ s' := by
  induction t₁ generalizing s with
  | nil => simp [Served]
  | cons e t₁ ih => simp [Served, ih, and_assoc]

/-- each event of a served trace was served after the ones before it -/
theorem served_mem {s s' : σ} {tr : Trace Q A} (h : Served serve s tr s') {e : Event Q A} (he : e ∈ tr) :
    ∃ t₁ t₂ s₁, tr = t₁ ++ e :: t₂ ∧ Served serve s t₁ s₁ ∧ (serve e.1 s₁).1 = e.2 := by
  obtain ⟨t₁, t₂, rfl⟩ := List.append_of_mem he
  obtain ⟨s₁, h1, h2⟩ := served_append.1 h
  exact ⟨t₁, t₂, s₁, rfl, h1, h2.1⟩

theorem run_eq_some {p : Prog Q A α} {s s' : σ} {b : α} :
    run serve p s = some (b, s') ↔ ∃ tr, Yields p tr b ∧ Served serve s tr s' := by
  induction p generalizing s with
  | ret a =>
    simp only [run, Option.some.injEq, Prod.mk.injEq, yields_ret]
    constructor
    · rintro ⟨rfl, rfl⟩
      exact ⟨[], ⟨rfl, rfl⟩, rfl⟩
    · rintro ⟨_, ⟨rfl, rfl⟩, rfl⟩
      exact ⟨rfl, rfl⟩
  | spin =>
    constructor
    · intro h
      cases h
    · rintro ⟨_, h, -⟩
      exact absurd h not_yields_spin
  | call q k ih =>
    rw [run, ih]
    constructor
    · rintro ⟨tr, h1, h2⟩
      exact ⟨⟨q, _⟩ :: tr, .call q k _ tr b h1, rfl, h2⟩
    · rintro ⟨tr, h1, h2⟩
      obtain ⟨a, tr', rfl, h1'⟩ := yields_call.1 h1
      obtain ⟨ha, h2'⟩ := h2
      have ha' : (serve q s).1 = a := ha
      subst ha'
      exact ⟨tr', h1', h2'⟩

/-- what every served event of a trace preserves, the trace preserves -/
theorem served_inv {I : σ → Prop} {s s' : σ} {tr : Trace Q A} (h : Served serve s tr s')
    (hstep : ∀ e ∈ tr, ∀ s, I s → (serve e.1 s).1 = e.2 → I (serve e.1 s).2) (hs : I s) : I s' := by
  induction tr generalizing s with
  | nil =>
    cases h
    exact hs
  | cons e tr ih =>
    obtain ⟨ha, h'⟩ := h
    exact ih h' (fun e' he' => hstep e' (List.mem_cons_of_mem e he')) (hstep e List.mem_cons_self s hs ha)

/-! ## Programs with a state and errors -/

abbrev Action (Q : Type) (A : Q → Type) (W ε α : Type) := ExceptT ε (StateT W (Prog Q A)) α

variable {W ε : Type}

/-- the program behind an action -/
def Action.prog (m : Action Q A W ε α) (w : W) : Prog Q A (Except ε α × W) := (ExceptT.run m).run w

/-- make a call -/
def request (q : Q) : Action Q A W ε (A q) := ExceptT.mk fun w => .call q fun a => .ret (.ok a, w)

/-- a loop that was cut off -/
def spin : Action Q A W ε α := ExceptT.mk fun _ => .spin

/-- answered along the trace, the action ends with this result and this state -/
def Outcome (m : Action Q A W ε α) (w : W) (tr : Trace Q A) (r : Except ε α) (w' : W) : Prop :=
  Yields (m.prog w) tr (r, w')

variable {m : Action Q A W ε α} {w w' : W} {tr : Trace Q A}

theorem outcome_pure {a : α} {r : Except ε α} :
    Outcome (pure a : Action Q A W ε α) w tr r w' ↔ tr = [] ∧ r = .ok a ∧ w' = w := by
  show Yields (.ret (.ok a, w)) tr (r, w') ↔ _
  rw [yields_ret, Prod.mk.injEq]

theorem outcome_throw {e : ε} {r : Except ε α} :
    Outcome (throw e : Action Q A W ε α) w tr r w' ↔ tr = [] ∧ r = .error e ∧ w' = w := by
  show Yields (.ret (.error e, w)) tr (r, w') ↔ _
  rw [yields_ret, Prod.mk.injEq]

theorem outcome_get {r : Except ε W} :
    Outcome (get : Action Q A W ε W) w tr r w' ↔ tr = [] ∧ r = .ok w ∧ w' = w := by
  show Yields (.ret (.ok w, w)) tr (r, w') ↔ _
  rw [yields_ret, Prod.mk.injEq]

theorem outcome_modify {f : W → W} {r : Except ε PUnit} :
    Outcome (modify f : Action Q A W ε PUnit) w tr r w' ↔ tr = [] ∧ r = .ok ⟨⟩ ∧ w' = f w := by
  show Yields (.ret (.ok ⟨⟩, f w)) tr (r, w') ↔ _
  rw [yields_ret, Prod.mk.injEq]

theorem outcome_request {q : Q} {r : Except ε (A q)} :
    Outcome (request q : Action Q A W ε (A q)) w tr r w' ↔ ∃ a, tr = [⟨q, a⟩] ∧ r = .ok a ∧ w' = w := by
  show Yields (.call q fun a => .ret (.ok a, w)) tr (r, w') ↔ _
  simp only [yields_call, yields_ret, Prod.mk.injEq]
  constructor
  · rintro ⟨a, _, rfl, rfl, rfl, rfl⟩
    exact ⟨a, rfl, rfl, rfl⟩
  · rintro ⟨a, rfl, rfl, rfl⟩
    exact ⟨a, [], rfl, rfl, rfl, rfl⟩

theorem not_outcome_spin {r : Except ε α} : ¬ Outcome (spin : Action Q A W ε α) w tr r w' := not_yields_spin

/-- the second part runs only where the first one succeeds -/
theorem outcome_bind {f : α → Action Q A W ε β} {r : Except ε β} :
    Outcome (m >>= f) w tr r w' ↔
      (∃ a w₁ t₁ t₂, tr = t₁ ++ t₂ ∧ Outcome m w t₁ (.ok a) w₁ ∧ Outcome (f a) w₁ t₂ r w') ∨
      (∃ e, r = .error e ∧ Outcome m w tr (.error e) w') := by
  have hprog : (m >>= f).prog w = m.prog w >>= fun x =>
      match x with
      | (.ok a, w₁) => (f a).prog w₁
      | (.error e, w₁) => .ret (.error e, w₁) := by
    show (m.prog w).bind _ = (m.prog w).bind _
    congr 1
    funext x
    rcases x with ⟨a | e, w₁⟩ <;> rfl
  unfold Outcome
  rw [hprog, yields_bind]
  constructor
  · rintro ⟨⟨x, w₁⟩, t₁, t₂, rfl, h1, h2⟩
    cases x with
    | ok a => exact Or.inl ⟨a, w₁, t₁, t₂, rfl, h1, h2⟩
    | error e =>
      obtain ⟨rfl, heq⟩ := yields_ret.1 h2
      obtain ⟨rfl, rfl⟩ := Prod.mk.inj heq
      exact Or.inr ⟨e, rfl, by simpa using h1⟩
  · rintro (⟨a, w₁, t₁, t₂, rfl, h1, h2⟩ | ⟨e, rfl, h1⟩)
    · exact ⟨(.ok a, w₁), t₁, t₂, rfl, h1, h2⟩
    · exact ⟨(.error e, w'), tr, [], by simp, h1, .ret _⟩

theorem outcome_bind_ok {f : α → Action Q A W ε β} {b : β} :
    Outcome (m >>= f) w tr (.ok b) w' ↔
      ∃ a w₁ t₁ t₂, tr = t₁ ++ t₂ ∧ Outcome m w t₁ (.ok a) w₁ ∧ Outcome (f a) w₁ t₂ (.ok b) w' := by
  rw [outcome_bind]
  simp

theorem outcome_get_bind {f : W → Action Q A W ε α} {r : Except ε α} :
    Outcome (get >>= f) w tr r w' ↔ Outcome (f w) w tr r w' := Iff.rfl

theorem outcome_modify_bind {g : W → W} {f : PUnit → Action Q A W ε α} {r : Except ε α} :
    Outcome (modify g >>= f) w tr r w' ↔ Outcome (f ⟨⟩) (g w) tr r w' := Iff.rfl

/-- whatever its outcome, the action keeps `g` of the state and makes only calls in `C` -/
def Keeps {γ : Type} (g : W → γ) (C : Q → Prop) (m : Action Q A W ε α) : Prop :=
  ∀ w tr r w', Outcome m w tr r w' → g w' = g w ∧ ∀ e ∈ tr, C e.1

section Keeps

variable {γ : Type} {g : W → γ} {C : Q → Prop}

theorem Keeps.bind {f : α → Action Q A W ε β} (hm : Keeps g C m) (hf : ∀ a, Keeps g C (f a)) :
    Keeps g C (m >>= f) := by
  intro w tr r w' h
  rcases outcome_bind.1 h with ⟨a, w₁, t₁, t₂, rfl, h1, h2⟩ | ⟨e, -, h1⟩
  · obtain ⟨hg1, hc1⟩ := hm _ _ _ _ h1
    obtain ⟨hg2, hc2⟩ := hf a _ _ _ _ h2
    exact ⟨hg2.trans hg1, fun e he => (List.mem_append.1 he).elim (hc1 e) (hc2 e)⟩
  · exact hm _ _ _ _ h1

/-- where the first part keeps `g`: either the second part runs, or the whole fails and `g` is what it was -/
theorem Keeps.bind_cases {f : α → Action Q A W ε β} (hm : Keeps g C m) {r : Except ε β}
    (h : Outcome (m >>= f) w tr r w') :
    (∃ a w₁ t₁ t₂, tr = t₁ ++ t₂ ∧ Outcome m w t₁ (.ok a) w₁ ∧ Outcome (f a) w₁ t₂ r w') ∨
    (g w' = g w ∧ ∃ e, r = .error e) := by
  rcases outcome_bind.1 h with h1 | ⟨e, hr, h1⟩
  · exact Or.inl h1
  · exact Or.inr ⟨(hm _ _ _ _ h1).1, e, hr⟩

theorem Keeps.ite {p : Prop} [Decidable p] {m' : Action Q A W ε α} (hm : Keeps g C m) (hm' : Keeps g C m') :
    Keeps g C (if p then m else m') := by
  split_ifs
  · exact hm
  · exact hm'

theorem Keeps.pure (a : α) : Keeps g C (Pure.pure a : Action Q A W ε α) := by
  intro w tr r w' h
  obtain ⟨rfl, -, rfl⟩ := outcome_pure.1 h
  exact ⟨rfl, by simp⟩

theorem Keeps.throw (e : ε) : Keeps g C (throw e : Action Q A W ε α) := by
  intro w tr r w' h
  obtain ⟨rfl, -, rfl⟩ := outcome_throw.1 h
  exact ⟨rfl, by simp⟩

theorem Keeps.get : Keeps g C (get : Action Q A W ε W) := by
  intro w tr r w' h
  obtain ⟨rfl, -, rfl⟩ := outcome_get.1 h
  exact ⟨rfl, by simp⟩

theorem Keeps.modify {f : W → W} (hf : ∀ w, g (f w) = g w) : Keeps g C (modify f : Action Q A W ε PUnit) := by
  intro w tr r w' h
  obtain ⟨rfl, -, rfl⟩ := outcome_modify.1 h
  exact ⟨hf w, by simp⟩

theorem Keeps.spin : Keeps g C (spin : Action Q A W ε α) := fun _ _ _ _ h => absurd h not_outcome_spin

end Keeps

/-! ## Programs under way -/

/-- answered along the trace, `p'` is what is left of the program `p` -/
inductive Leaves : Prog Q A α → Trace Q A → Prog Q A α → Prop
  | refl (p : Prog Q A α) : Leaves p [] p
  | call (q : Q) (k : A q → Prog Q A α) (a : A q) (tr : Trace Q A) (p' : Prog Q A α) (h : Leaves (k a) tr p') :
    Leaves (.call q k) (⟨q, a⟩ :: tr) p'

/-- one call more -/
theorem Leaves.snoc {p : Prog Q A α} {tr : Trace Q A} {q : Q} {k : A q → Prog Q A α} (h : Leaves p tr (.call q k))
    (a : A q) : Leaves p (tr ++ [⟨q, a⟩]) (k a) := by
  generalize hleft : Prog.call q k = left at h
  induction h with
  | refl p =>
    subst hleft
    exact .call q k a [] (k a) (.refl _)
  | call q' k' a' tr p' h ih => exact .call q' k' a' _ _ (ih hleft)

/-- a program that has returned was answered along a trace of it -/
theorem Leaves.yields {p : Prog Q A α} {tr : Trace Q A} {b : α} (h : Leaves p tr (.ret b)) : Yields p tr b := by
  generalize hleft : Prog.ret b = left at h
  induction h with
  | refl p =>
    subst hleft
    exact .ret b
  | call q k a tr p' h ih => exact .call q k a tr b (ih hleft)

/-- whatever it is answered, the program makes only calls in `C` -/
def Only (C : Q → Prop) : Prog Q A α → Prop
  | .ret _ => True
  | .spin => True
  | .call q k => C q ∧ ∀ a, Only C (k a)

theorem Only.leaves {C : Q → Prop} {p p' : Prog Q A α} {tr : Trace Q A} (hp : Only C p) (h : Leaves p tr p') :
    Only C p' := by
  induction h with
  | refl p => exact hp
  | call q k a tr p' h ih => exact ih (hp.2 a)

theorem Only.bind {C : Q → Prop} {p : Prog Q A α} {f : α → Prog Q A β} (hp : Only C p) (hf : ∀ a, Only C (f a)) :
    Only C (p.bind f) := by
  induction p with
  | ret a => exact hf a
  | spin => trivial
  | call q k ih => exact ⟨hp.1, fun a => ih a (hp.2 a)⟩

theorem Only.mono {C C' : Q → Prop} (hC : ∀ q, C q → C' q) {p : Prog Q A α} (hp : Only C p) : Only C' p := by
  induction p with
  | ret a => trivial
  | spin => trivial
  | call q k ih => exact ⟨hC q hp.1, fun a => ih a (hp.2 a)⟩

/-- whatever state it starts in and whatever it is answered, the action makes only calls in `C` -/
def Asks (C : Q → Prop) (m : Action Q A W ε α) : Prop := ∀ w, Only C (m.prog w)

section Asks

variable {C : Q → Prop} {m' : Action Q A W ε α}

theorem Asks.bind {f : α → Action Q A W ε β} (hm : Asks C m) (hf : ∀ a, Asks C (f a)) : Asks C (m >>= f) := by
  intro w
  refine Only.bind (hm w) fun x => ?_
  obtain ⟨a | e, w₁⟩ := x
  · trivial
  · exact hf e w₁

theorem Asks.ite {p : Prop} [Decidable p] (hm : Asks C m) (hm' : Asks C m') : Asks C (if p then m else m') := by
  split_ifs
  · exact hm
  · exact hm'

theorem Asks.pure (a : α) : Asks C (Pure.pure a : Action Q A W ε α) := fun _ => trivial

theorem Asks.throw (e : ε) : Asks C (throw e : Action Q A W ε α) := fun _ => trivial

theorem Asks.get : Asks C (get : Action Q A W ε W) := fun _ => trivial

theorem Asks.modify (f : W → W) : Asks C (modify f : Action Q A W ε PUnit) := fun _ => trivial

theorem Asks.request {q : Q} (hq : C q) : Asks C (request q : Action Q A W ε (A q)) := fun _ => ⟨hq, fun _ => trivial⟩

theorem Asks.spin : Asks C (spin : Action Q A W ε α) := fun _ => trivial

end Asks

/-! ## Programs that share a server -/

/-- clients of one server; `history i` is what client `i` was answered so far, each call with the state of the server it
was made in -/
structure Pool (ι σ : Type) (Q : Type) (A : Q → Type) (α : Type) where
  server : σ
  clients : ι → Prog Q A α
  history : ι → List (σ × Event Q A)

namespace Pool

variable {ι : Type} [DecidableEq ι]

/-- client `i` makes its next call, if it makes one -/
def step (serve : (q : Q) → σ → A q × σ) (p : Pool ι σ Q A α) (i : ι) : Pool ι σ Q A α :=
  match p.clients i with
  | .call q k =>
    { server := (serve q p.server).2
      clients := Function.update p.clients i (k (serve q p.server).1)
      history := Function.update p.history i (p.history i ++ [(p.server, ⟨q, (serve q p.server).1⟩)]) }
  | _ => p

/-- the calls of a schedule, one after another -/
def run (serve : (q : Q) → σ → A q × σ) (p : Pool ι σ Q A α) (schedule : List ι) : Pool ι σ Q A α :=
  schedule.foldl (step serve) p

/-- everything a step can do: nothing, or one call of client `i` -/
theorem step_cases (serve : (q : Q) → σ → A q × σ) (p : Pool ι σ Q A α) (i : ι) :
    step serve p i = p ∨
    (∃ q k, p.clients i = .call q k ∧ step serve p i =
      { server := (serve q p.server).2
        clients := Function.update p.clients i (k (serve q p.server).1)
        history := Function.update p.history i (p.history i ++ [(p.server, ⟨q, (serve q p.server).1⟩)]) }) := by
  unfold step
  cases h : p.clients i with
  | ret a => exact Or.inl rfl
  | spin => exact Or.inl rfl
  | call q k => exact Or.inr ⟨q, k, rfl, rfl⟩

/-- client `i` started as `p₀`: whatever it still does completes its history to a trace of `p₀`, and its history was
answered by the server -/
structure Follows (serve : (q : Q) → σ → A q × σ) (p₀ : Prog Q A α) (p : Pool ι σ Q A α) (i : ι) : Prop where
  yields : ∀ tr b, Yields (p.clients i) tr b → Yields p₀ ((p.history i).map Prod.snd ++ tr) b
  answered : ∀ h ∈ p.history i, (serve h.2.1 h.1).1 = h.2.2

theorem step_follows {p₀ : Prog Q A α} {p : Pool ι σ Q A α} {i : ι} (h : Follows serve p₀ p i) (j : ι) :
    Follows serve p₀ (step serve p j) i := by
  rcases step_cases serve p j with heq | ⟨q, k, hcall, heq⟩
  · rw [heq]; exact h
  · rw [heq]
    by_cases hij : i = j
    · subst hij
      refine ⟨fun tr b hy => ?_, fun x hx => ?_⟩
      · simp only [Function.update_self] at hy ⊢
        rw [List.map_append, List.append_assoc]
        refine h.yields _ b ?_
        rw [hcall]
        exact .call q k _ tr b hy
      · simp only [Function.update_self] at hx
        rcases List.mem_append.1 hx with hx | hx
        · exact h.answered x hx
        · obtain rfl := List.mem_singleton.1 hx
          rfl
    · refine ⟨fun tr b hy => ?_, fun x hx => ?_⟩
      · simp only [Function.update_of_ne hij] at hy ⊢
        exact h.yields tr b hy
      · simp only [Function.update_of_ne hij] at hx
        exact h.answered x hx

theorem run_follows {p₀ : Prog Q A α} {p : Pool ι σ Q A α} {i : ι} (h : Follows serve p₀ p i) (schedule : List ι) :
    Follows serve p₀ (run serve p schedule) i := by
  induction schedule generalizing p with
  | nil => exact h
  | cons j schedule ih => exact ih (step_follows h j)

/-- the history of a client that has returned is a trace of its program -/
theorem run_history {p : Pool ι σ Q A α} {i : ι} (hstart : p.history i = []) {schedule : List ι} {b : α}
    (hret : (run serve p schedule).clients i = .ret b) :
    Yields (p.clients i) (((run serve p schedule).history i).map Prod.snd) b ∧
    ∀ h ∈ (run serve p schedule).history i, (serve h.2.1 h.1).1 = h.2.2 := by
  have hfollows : Follows serve (p.clients i) p i := ⟨fun tr b hy => by simpa [hstart] using hy, by simp [hstart]⟩
  have hend := run_follows hfollows schedule
  have hy := hend.yields [] b (by rw [hret]; exact .ret b)
  rw [List.append_nil] at hy
  exact ⟨hy, hend.answered⟩

/-- the calls of a run in order: who made the call, the state of the server it was made in, and the answer -/
def log (serve : (q : Q) → σ → A q × σ) (p : Pool ι σ Q A α) : List ι → List (ι × σ × Event Q A)
  | [] => []
  | i :: schedule =>
    match p.clients i with
    | .call q _ => (i, p.server, ⟨q, (serve q p.server).1⟩) :: log serve (step serve p i) schedule
    | _ => log serve (step serve p i) schedule

theorem log_cons (serve : (q : Q) → σ → A q × σ) (p : Pool ι σ Q A α) (i : ι) (schedule : List ι) :
    (step serve p i = p ∧ log serve p (i :: schedule) = log serve p schedule) ∨
    (∃ q k, p.clients i = .call q k ∧ (step serve p i).server = (serve q p.server).2 ∧
      (step serve p i).history =
        Function.update p.history i (p.history i ++ [(p.server, ⟨q, (serve q p.server).1⟩)]) ∧
      log serve p (i :: schedule) =
        (i, p.server, ⟨q, (serve q p.server).1⟩) :: log serve (step serve p i) schedule) := by
  rw [log]
  unfold step
  cases h : p.clients i with
  | ret a => exact Or.inl ⟨rfl, rfl⟩
  | spin => exact Or.inl ⟨rfl, rfl⟩
  | call q k => exact Or.inr ⟨q, k, rfl, rfl, rfl, rfl⟩

/-- the server answered the calls of a run one after another -/
theorem log_served (p : Pool ι σ Q A α) (schedule : List ι) :
    Served serve p.server ((log serve p schedule).map fun x => x.2.2) (run serve p schedule).server := by
  induction schedule generalizing p with
  | nil => rfl
  | cons i schedule ih =>
    have hrun : run serve p (i :: schedule) = run serve (step serve p i) schedule := rfl
    rw [hrun]
    rcases log_cons serve p i schedule with ⟨hstep, hlog⟩ | ⟨q, k, -, hserver, -, hlog⟩
    · rw [hlog, hstep]
      exact ih p
    · rw [hlog, List.map_cons]
      refine ⟨rfl, ?_⟩
      show Served serve (serve q p.server).2 _ _
      rw [← hserver]
      exact ih (step serve p i)

/-- the history of a client is its part of the log -/
theorem history_log (p : Pool ι σ Q A α) (schedule : List ι) (i : ι) :
    (run serve p schedule).history i =
      p.history i ++ ((log serve p schedule).filter fun x => decide (x.1 = i)).map Prod.snd := by
  induction schedule generalizing p with
  | nil => simp [run, log]
  | cons j schedule ih =>
    have hrun : run serve p (j :: schedule) = run serve (step serve p j) schedule := rfl
    rw [hrun, ih]
    rcases log_cons serve p j schedule with ⟨hstep, hlog⟩ | ⟨q, k, -, -, hhistory, hlog⟩
    · rw [hlog, hstep]
    · rw [hlog, hhistory]
      by_cases hij : j = i
      · subst hij
        simp
      · simp [Function.update_of_ne (Ne.symm hij), hij]

/-- each entry of the log is a call that a client was about to make, in the state the run had then -/
theorem log_split {p : Pool ι σ Q A α} {schedule : List ι} {l₁ l₂ : List (ι × σ × Event Q A)}
    {x : ι × σ × Event Q A} (h : log serve p schedule = l₁ ++ x :: l₂) :
    ∃ before after k, schedule = before ++ x.1 :: after ∧ log serve p before = l₁ ∧
      (run serve p before).server = x.2.1 ∧ (run serve p before).clients x.1 = .call x.2.2.1 k ∧
      (serve x.2.2.1 x.2.1).1 = x.2.2.2 := by
  induction schedule generalizing p l₁ with
  | nil => simp [log] at h
  | cons i schedule ih =>
    rcases log_cons serve p i schedule with ⟨hstep, hlog⟩ | ⟨q, k, hcall, -, -, hlog⟩
    · obtain ⟨before, after, k, rfl, hbefore, hserver, hclient, hanswer⟩ := ih (hlog ▸ h)
      have hrun : run serve p (i :: before) = run serve p before := by
        show run serve (step serve p i) before = _
        rw [hstep]
      refine ⟨i :: before, after, k, rfl, ?_, hrun ▸ hserver, hrun ▸ hclient, hanswer⟩
      rcases log_cons serve p i before with ⟨-, hlog'⟩ | ⟨q', k', hcall, -, hhistory, -⟩
      · rw [hlog', hbefore]
      · rw [hstep] at hhistory
        have := congrFun hhistory i
        simp at this
    · rw [hlog] at h
      cases l₁ with
      | nil =>
        obtain ⟨rfl, -⟩ := List.cons.inj h
        exact ⟨[], schedule, k, rfl, rfl, rfl, hcall, rfl⟩
      | cons y l₁ =>
        obtain ⟨rfl, h'⟩ := List.cons.inj h
        obtain ⟨before, after, k', rfl, hbefore, hserver, hclient, hanswer⟩ := ih h'
        refine ⟨i :: before, after, k', rfl, ?_, hserver, hclient, hanswer⟩
        rw [log, hcall]
        exact congrArg (List.cons _) hbefore

end Pool

end Wrb.Programs
