/-
What the contracts of `vm/contracts/` use of Clarity: unsigned integers of 128 bits, bounded lists, maps, assertions.

A call ends with a value, with an error response, or with a runtime error. An error response leaves the writes before it
undone, and a runtime error undoes the whole transaction, so a call that fails changes nothing.
-/
import Mathlib.Tactic

namespace Wrb.Contracts

/-- how a call fails: an error response, with the code and message of `err-ascii-512`, or a runtime error -/
inductive CallError where
  | response (code : ℕ) (message : String)
  | runtime
deriving DecidableEq, Repr

def WRB_ERR_INFALLIBLE : ℕ := 0
def WRB_ERR_INVALID : ℕ := 1
def WRB_ERR_EXISTS : ℕ := 2
def WRB_ERR_NOT_FOUND : ℕ := 3

/-- `(+ a b)`: an overflow is a runtime error -/
def uintAdd (a b : ℕ) : Except CallError ℕ := if a + b < 2 ^ 128 then .ok (a + b) else .error .runtime

/-- `asserts!` -/
def asserts (p : Prop) [Decidable p] (e : CallError) : Except CallError Unit := if p then .ok () else .error e

/-- `unwrap!` -/
def unwrap {α : Type} (o : Option α) (e : CallError) : Except CallError α :=
  match o with
  | some a => .ok a
  | none => .error e

/-- `as-max-len?` -/
def asMaxLen {α : Type} (l : List α) (n : ℕ) : Option (List α) := if l.length ≤ n then some l else none

/-- `map-set` -/
def mapSet {α : Type} (m : ℕ → Option α) (key : ℕ) (value : α) : ℕ → Option α := Function.update m key (some value)

section

variable {α : Type}

theorem uintAdd_ok {a b c : ℕ} (h : uintAdd a b = .ok c) : c = a + b := by
  unfold uintAdd at h
  split_ifs at h
  exact (Except.ok.inj h).symm

theorem asserts_ok {p : Prop} [Decidable p] {e : CallError} {u : Unit} (h : asserts p e = .ok u) : p := by
  unfold asserts at h
  split_ifs at h with hp
  exact hp

theorem unwrap_ok {o : Option α} {e : CallError} {a : α} (h : unwrap o e = .ok a) : o = some a := by
  cases o with
  | none => cases h
  | some a' => exact congrArg some (Except.ok.inj h)

theorem bind_ok {β : Type} {x : Except CallError α} {f : α → Except CallError β} {b : β} (h : x >>= f = .ok b) :
    ∃ a, x = .ok a ∧ f a = .ok b := by
  cases x with
  | error e => cases h
  | ok a => exact ⟨a, rfl, h⟩

@[simp] theorem mapSet_self (m : ℕ → Option α) (key : ℕ) (value : α) : mapSet m key value key = some value :=
  Function.update_self key _ m

@[simp] theorem mapSet_of_ne (m : ℕ → Option α) {key k : ℕ} (value : α) (h : k ≠ key) : mapSet m key value k = m k :=
  Function.update_of_ne h _ m

theorem mapSet_apply (m : ℕ → Option α) (key k : ℕ) (value : α) :
    mapSet m key value k = if k = key then some value else m k := by
  by_cases h : k = key
  · rw [if_pos h, h, mapSet_self]
  · rw [if_neg h, mapSet_of_ne m value h]

/-- an append to a bounded list, given up where it is full -/
theorem append_default (l : List α) (a : α) (n : ℕ) :
    (asMaxLen (l ++ [a]) n).getD l = if l.length < n then l ++ [a] else l := by
  unfold asMaxLen
  rw [List.length_append, List.length_singleton]
  split_ifs <;> first | rfl | omega

end

end Wrb.Contracts
