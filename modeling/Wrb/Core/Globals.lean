/-
Open sessions (`core/globals.rs`): the sessions by ID, the IDs by address of the wrbpod, and a counter of IDs.

`add_wrbpod_session` writes to both maps, `reset` clears the first one only.

Model: a `HashMap` is a function to `Option`, nothing being iterated; the counter wraps around as `u128` does. A session
is a value of any type. `Pool` is a state with the IDs that were obtained and not yet used, as the callers hold them.

* `Right`: every ID under an address is that of a live session, no two addresses share one, and so what the callers take
  for granted holds.
* `step_tracks`: what one operation keeps.
* `sessions_right`: after every operation of every run with IDs so obtained, the maps are right, if each reset finds no
  address and the counter does not wrap around. Each reset finds no address, if they are right.
* `reset_leaves_dead_session`: after a reset, an address still has the ID of a session that is gone.
-/
import Mathlib.Tactic
import Wrb.Lib.Runs
import Wrb.Runner.Zonefile

namespace Wrb.Core

open Wrb.Runner Wrb.Runs

structure WrbpodAddress where
  contract : QualifiedContractIdentifier
  slot : UInt32
deriving DecidableEq

/-- the fields about sessions -/
structure Globals (W : Type) where
  /-- session IDs to wrbpod state -/
  wrbpodSessions : ℕ → Option W
  /-- contract IDs to session IDs -/
  wrbpodAddrToSessionId : WrbpodAddress → Option ℕ
  nextWrbpodSessionId : ℕ

namespace Globals

variable {W : Type}

def new : Globals W := ⟨fun _ => none, fun _ => none, 0⟩

def reset (g : Globals W) : Globals W := { g with wrbpodSessions := fun _ => none }

/-- the method `next_wrbpod_session_id` -/
def takeWrbpodSessionId (g : Globals W) : ℕ × Globals W :=
  (g.nextWrbpodSessionId, { g with nextWrbpodSessionId := (g.nextWrbpodSessionId + 1) % 2 ^ 128 })

def addWrbpodSession (g : Globals W) (sessionId : ℕ) (wrbpodAddr : WrbpodAddress) (session : W) : Globals W :=
  { g with
    wrbpodSessions := Function.update g.wrbpodSessions sessionId (some session)
    wrbpodAddrToSessionId := Function.update g.wrbpodAddrToSessionId wrbpodAddr (some sessionId) }

def getWrbpodSession (g : Globals W) (sessionId : ℕ) : Option W := g.wrbpodSessions sessionId

def getWrbpodSessionIdByAddress (g : Globals W) (wrbpodAddr : WrbpodAddress) : Option ℕ :=
  g.wrbpodAddrToSessionId wrbpodAddr

def getWrbpodSessionByAddress (g : Globals W) (wrbpodAddr : WrbpodAddress) : Option W := do
  let sessionId ← g.getWrbpodSessionIdByAddress wrbpodAddr
  g.getWrbpodSession sessionId

/-- `wrbpod_open_session` of the command line; `opened` is what the StackerDB clients and `Wrbpod::open` return -/
def wrbpodOpenSession (g : Globals W) (wrbpodAddr : WrbpodAddress) (opened : Except String W) :
    Except String (Globals W) :=
  if (g.getWrbpodSessionIdByAddress wrbpodAddr).isSome then .ok g
  else do
    let wrbpodSession ← opened
    let (sessionId, g) := g.takeWrbpodSessionId
    return g.addWrbpodSession sessionId wrbpodAddr wrbpodSession

/-- **The maps agree**: `already` is what `handle_wrbpod_open` answers for a wrbpod that is open, `unwraps` what the
commands unwrap behind `wrbpod_open_session` -/
structure Right (g : Globals W) : Prop where
  live : ∀ addr id, g.wrbpodAddrToSessionId addr = some id → (g.wrbpodSessions id).isSome
  unshared : ∀ addr addr' id, g.wrbpodAddrToSessionId addr = some id → g.wrbpodAddrToSessionId addr' = some id →
    addr = addr'
  found : ∀ addr, (g.getWrbpodSessionIdByAddress addr).isSome → (g.getWrbpodSessionByAddress addr).isSome
  already : ∀ addr id, g.getWrbpodSessionIdByAddress addr = some id → (g.getWrbpodSession id).isSome
  unwraps : ∀ addr opened g', g.wrbpodOpenSession addr opened = .ok g' → (g'.getWrbpodSessionByAddress addr).isSome

variable {g : Globals W}

theorem getWrbpodSessionByAddress_add (g : Globals W) (id : ℕ) (addr : WrbpodAddress) (session : W) :
    (g.addWrbpodSession id addr session).getWrbpodSessionByAddress addr = some session := by
  simp [getWrbpodSessionByAddress, getWrbpodSessionIdByAddress, getWrbpodSession, addWrbpodSession]

/-- the first two parts are the whole -/
theorem right_of_live (hlive : ∀ addr id, g.wrbpodAddrToSessionId addr = some id → (g.wrbpodSessions id).isSome)
    (hunshared : ∀ addr addr' id, g.wrbpodAddrToSessionId addr = some id → g.wrbpodAddrToSessionId addr' = some id →
      addr = addr') : g.Right := by
  have hfound : ∀ addr, (g.getWrbpodSessionIdByAddress addr).isSome → (g.getWrbpodSessionByAddress addr).isSome := by
    intro addr hsome
    obtain ⟨id, hid⟩ := Option.isSome_iff_exists.1 hsome
    rw [getWrbpodSessionByAddress, hid]
    exact hlive addr id hid
  refine ⟨hlive, hunshared, hfound, hlive, ?_⟩
  intro addr opened g' hopen
  unfold wrbpodOpenSession at hopen
  split_ifs at hopen with hsome
  · cases hopen
    exact hfound addr hsome
  · cases opened with
    | error e => cases hopen
    | ok session =>
      cases hopen
      rw [getWrbpodSessionByAddress_add]
      rfl

end Globals

/-! ## Runs -/

variable {W : Type}

inductive Op (W : Type) where
  | reset
  | next
  | add (id : ℕ) (addr : WrbpodAddress) (session : W)

/-- the state, and the IDs obtained that are not used yet -/
structure Pool (W : Type) where
  globals : Globals W
  ids : List ℕ

def Pool.new : Pool W := ⟨Globals.new, []⟩

def step (s : Pool W) : Op W → Pool W
  | .reset => ⟨s.globals.reset, s.ids⟩
  | .next => ⟨s.globals.takeWrbpodSessionId.2, s.globals.takeWrbpodSessionId.1 :: s.ids⟩
  | .add id addr session => ⟨s.globals.addWrbpodSession id addr session, s.ids.erase id⟩

/-- a session is added under an ID so obtained -/
def Obtained (s : Pool W) : Op W → Prop
  | .add id _ _ => id ∈ s.ids
  | _ => True

/-- a reset finds no address -/
def ResetsEmpty (s : Pool W) : Op W → Prop
  | .reset => ∀ addr, s.globals.wrbpodAddrToSessionId addr = none
  | _ => True

/-- the counter does not wrap around -/
def Counts (s : Pool W) : Op W → Prop
  | .next => s.globals.nextWrbpodSessionId + 1 < 2 ^ 128
  | _ => True

/-- the maps are right, and the counter is above all IDs, those that are used being used once -/
structure Tracks (s : Pool W) : Prop where
  live : ∀ addr id, s.globals.wrbpodAddrToSessionId addr = some id → (s.globals.wrbpodSessions id).isSome
  unshared : ∀ addr addr' id, s.globals.wrbpodAddrToSessionId addr = some id →
    s.globals.wrbpodAddrToSessionId addr' = some id → addr = addr'
  used : ∀ addr id, s.globals.wrbpodAddrToSessionId addr = some id → id ∉ s.ids ∧ id < s.globals.nextWrbpodSessionId
  once : s.ids.Nodup
  below : ∀ id ∈ s.ids, id < s.globals.nextWrbpodSessionId

variable {s : Pool W}

theorem Tracks.right (h : Tracks s) : s.globals.Right := Globals.right_of_live h.live h.unshared

theorem tracks_new : Tracks (Pool.new : Pool W) :=
  ⟨nofun, nofun, nofun, List.nodup_nil, List.forall_mem_nil _⟩

theorem Tracks.next (h : Tracks s) (hcounts : s.globals.nextWrbpodSessionId + 1 < 2 ^ 128) :
    Tracks (step s .next) := by
  have hnext : (step s .next).globals.nextWrbpodSessionId = s.globals.nextWrbpodSessionId + 1 :=
    Nat.mod_eq_of_lt hcounts
  refine ⟨h.live, h.unshared, ?_, ?_, ?_⟩
  · intro addr id hid
    obtain ⟨hout, hlt⟩ := h.used addr id hid
    rw [hnext]
    refine ⟨fun hmem => ?_, by omega⟩
    rcases List.mem_cons.1 hmem with rfl | hmem
    · exact absurd hlt (lt_irrefl _)
    · exact hout hmem
  · exact List.nodup_cons.2 ⟨fun hmem => absurd (h.below _ hmem) (lt_irrefl _), h.once⟩
  · intro id hmem
    rw [hnext]
    rcases List.mem_cons.1 hmem with rfl | hmem
    · exact Nat.lt_succ_self _
    · exact Nat.lt_succ_of_lt (h.below id hmem)

theorem Tracks.add (h : Tracks s) {id : ℕ} (hid : id ∈ s.ids) (addr : WrbpodAddress) (session : W) :
    Tracks (step s (.add id addr session)) := by
  -- under every other address there is another ID
  have hother : ∀ addr' id', Function.update s.globals.wrbpodAddrToSessionId addr (some id) addr' = some id' →
      addr' = addr ∧ id' = id ∨ addr' ≠ addr ∧ id' ≠ id ∧ s.globals.wrbpodAddrToSessionId addr' = some id' := by
    intro addr' id' hmap
    by_cases haddr : addr' = addr
    · rw [haddr, Function.update_self, Option.some.injEq] at hmap
      exact Or.inl ⟨haddr, hmap.symm⟩
    · rw [Function.update_of_ne haddr] at hmap
      refine Or.inr ⟨haddr, ?_, hmap⟩
      rintro rfl
      exact (h.used addr' id' hmap).1 hid
  refine ⟨?_, ?_, ?_, h.once.erase id, fun id' hmem => h.below id' (List.mem_of_mem_erase hmem)⟩
  · intro addr' id' hmap
    rcases hother addr' id' hmap with ⟨-, rfl⟩ | ⟨-, hne, hold⟩
    · simp [step, Globals.addWrbpodSession]
    · have hlive := h.live addr' id' hold
      simpa [step, Globals.addWrbpodSession, Function.update_of_ne hne] using hlive
  · intro addr₁ addr₂ id' hmap₁ hmap₂
    rcases hother addr₁ id' hmap₁ with ⟨rfl, rfl⟩ | ⟨-, hne, hold₁⟩
    · rcases hother addr₂ _ hmap₂ with ⟨rfl, -⟩ | ⟨-, hne, -⟩
      · rfl
      · exact absurd rfl hne
    · rcases hother addr₂ id' hmap₂ with ⟨-, rfl⟩ | ⟨-, -, hold₂⟩
      · exact absurd rfl hne
      · exact h.unshared addr₁ addr₂ id' hold₁ hold₂
  · intro addr' id' hmap
    rcases hother addr' id' hmap with ⟨-, rfl⟩ | ⟨-, -, hold⟩
    · exact ⟨fun hmem => h.once.not_mem_erase hmem, h.below id' hid⟩
    · obtain ⟨hout, hlt⟩ := h.used addr' id' hold
      exact ⟨fun hmem => hout (List.mem_of_mem_erase hmem), hlt⟩

/-- **One operation** keeps the maps right -/
theorem step_tracks (h : Tracks s) {op : Op W} (hobtained : Obtained s op) (hempty : ResetsEmpty s op)
    (hcounts : Counts s op) : Tracks (step s op) := by
  cases op with
  | reset =>
    refine ⟨fun addr id hid => ?_, h.unshared, h.used, h.once, h.below⟩
    cases (hempty addr).symm.trans hid
  | next => exact h.next hcounts
  | add id addr session => exact h.add hobtained addr session

/-- a reset that leaves the maps right found no address -/
theorem resetsEmpty_of_right {op : Op W} (h : (step s op).globals.Right) : ResetsEmpty s op := by
  cases op with
  | reset =>
    intro addr
    cases hid : s.globals.wrbpodAddrToSessionId addr with
    | none => rfl
    | some id => cases h.live addr id hid
  | next => trivial
  | add id addr session => trivial

/-- **Every run** of operations with IDs so obtained: the maps are right after each of them, if every reset finds no
address and the counter does not wrap around; and if they are right, every reset finds no address -/
theorem sessions_right (ops : List (Op W)) (hops : Always step Obtained Pool.new ops) :
    (Always step (fun s o => ResetsEmpty s o ∧ Counts s o) Pool.new ops →
      ∀ n, (run step Pool.new (ops.take n)).globals.Right) ∧
        ((∀ n, (run step Pool.new (ops.take n)).globals.Right) → Always step ResetsEmpty Pool.new ops) := by
  constructor
  · intro hmeets n
    have hall := always_and.2 ⟨hops, hmeets⟩
    refine Tracks.right (run_inv_of_always ?_ tracks_new (hall.take n))
    rintro s o h ⟨hobtained, hempty, hcounts⟩
    exact step_tracks h hobtained hempty hcounts
  · exact always_of_states (I := fun s : Pool W => s.globals.Right) fun _ _ h => resetsEmpty_of_right h

def exampleAddr : WrbpodAddress := ⟨⟨⟨26, 0⟩, "wrb"⟩, 0⟩

/-- a reset, and then one session -/
theorem sessions_right_one :
    (run step (Pool.new : Pool Unit) [.reset, .next, .add 0 exampleAddr ()]).globals.Right := by
  have hops : Always step Obtained (Pool.new : Pool Unit) [.reset, .next, .add 0 exampleAddr ()] :=
    ⟨trivial, trivial, List.mem_singleton.2 rfl, trivial⟩
  have hcounts : (0 : ℕ) + 1 < 2 ^ 128 := by norm_num
  exact (sessions_right [.reset, .next, .add 0 exampleAddr ()] hops).1
    ⟨⟨fun _ => rfl, trivial⟩, ⟨trivial, hcounts⟩, ⟨trivial, trivial⟩, trivial⟩ 3

/-- **A reset leaves a dead session** under the address of the last one -/
theorem reset_leaves_dead_session : ¬ ∀ (W : Type) (ops : List (Op W)), Always step Obtained Pool.new ops →
    ∀ n, (run step Pool.new (ops.take n)).globals.Right := by
  intro h
  have hops : Always step Obtained (Pool.new : Pool Unit) [.next, .add 0 exampleAddr (), .reset] :=
    ⟨trivial, List.mem_singleton.2 rfl, trivial, trivial⟩
  have hright := h Unit _ hops 3
  have hid : (run step (Pool.new : Pool Unit) [.next, .add 0 exampleAddr (), .reset]).globals.wrbpodAddrToSessionId
      exampleAddr = some 0 := by simp [step, Globals.reset, Globals.addWrbpodSession]
  cases hright.live exampleAddr 0 hid

end Wrb.Core
