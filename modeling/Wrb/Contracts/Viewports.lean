/-
The viewports of `vm/contracts/wrb.clar`: a map of records, a list through it in the order of creation, and the list of
the viewports changed since the renderer asked last.

Layers:
- the functions of the contract, a call and its effect (`step`);
- `Listed`: the map holds the viewports created, in a list linked backwards by `last` from `wrb-last-viewport-id`, each
  within the dimensions checked and created after its parent;
- `Tracked`: the state with the viewports set since the last take, none dropped.

Results:
- `step_listed`, `run_listed`: `Listed` holds in every state reached;
- `updates_taken_iff`: no update is lost all along a run exactly when each update of it finds `Room`: a list that is not
  full, or the viewport in it already;
- `update_lost`: the viewport set after 1024 updates of another.
-/
import Mathlib.Tactic
import Wrb.Contracts.Clarity
import Wrb.Lib.Links
import Wrb.Lib.Runs

namespace Wrb.Contracts

open Wrb.Runs Wrb.Links

/-! ## The contract -/

/-- a row of `wrb-viewports` -/
structure ViewportRec where
  startCol : ℕ
  startRow : ℕ
  numCols : ℕ
  numRows : ℕ
  visible : Bool
  parent : Option ℕ
  /-- the viewport created before -/
  last : Option ℕ
deriving DecidableEq, Repr

structure Viewports where
  /-- `wrb-viewports` -/
  viewports : ℕ → Option ViewportRec
  /-- `wrb-last-viewport-id` -/
  lastViewportId : Option ℕ
  /-- `viewports-changed` -/
  viewportsChanged : List ℕ

/-- the length of the list of changed viewports -/
def MAX_CHANGED : ℕ := 1024

namespace Viewports

/-- a contract just deployed -/
def deployed : Viewports := ⟨fun _ => none, none, []⟩

def wrbCheckDims (startRow startCol numRows numCols : ℕ) : Except CallError Unit := do
  asserts (startCol < 65536) (.response WRB_ERR_INVALID "start-col too big")
  asserts (startRow < 65536) (.response WRB_ERR_INVALID "start-row too big")
  let endCol ← uintAdd startCol numCols
  asserts (endCol < 65536) (.response WRB_ERR_INVALID "num-cols too big")
  let endRow ← uintAdd startRow numRows
  asserts (endRow < 65536) (.response WRB_ERR_INVALID "num-rows too big")

/-- add a root-level viewport -/
def wrbViewport (s : Viewports) (id startRow startCol numRows numCols : ℕ) : Except CallError Viewports := do
  wrbCheckDims startRow startCol numRows numCols
  asserts (s.viewports id = none) (.response WRB_ERR_EXISTS "viewport already exists")
  return { s with
    viewports := mapSet s.viewports id ⟨startCol, startRow, numCols, numRows, true, none, s.lastViewportId⟩
    lastViewportId := some id }

/-- add a viewport within an existing viewport -/
def wrbChildViewport (s : Viewports) (id parentId startRow startCol numRows numCols : ℕ) :
    Except CallError Viewports := do
  wrbCheckDims startRow startCol numRows numCols
  asserts (s.viewports id = none) (.response WRB_ERR_EXISTS "viewport already exists")
  asserts (s.viewports parentId ≠ none) (.response WRB_ERR_EXISTS "parent viewport does not exist")
  return { s with
    viewports := mapSet s.viewports id ⟨startCol, startRow, numCols, numRows, true, some parentId, s.lastViewportId⟩
    lastViewportId := some id }

/-- where the list is full, it stays as it is -/
def markViewportUpdated (s : Viewports) (id : ℕ) : Viewports :=
  { s with viewportsChanged := (asMaxLen (s.viewportsChanged ++ [id]) MAX_CHANGED).getD s.viewportsChanged }

def wrbSetViewportDims (s : Viewports) (id rows cols : ℕ) : Except CallError Viewports := do
  let viewportRec ← unwrap (s.viewports id) (.response WRB_ERR_NOT_FOUND "No such viewport")
  let newViewportRec := { viewportRec with numRows := rows, numCols := cols }
  wrbCheckDims newViewportRec.startRow newViewportRec.startCol newViewportRec.numRows newViewportRec.numCols
  return markViewportUpdated { s with viewports := mapSet s.viewports id newViewportRec } id

/-- returns true if the viewport exists, false if not -/
def wrbViewportSetVisible (s : Viewports) (id : ℕ) (visible : Bool) : Bool × Viewports :=
  match s.viewports id with
  | some viewport =>
    (true, markViewportUpdated { s with viewports := mapSet s.viewports id { viewport with visible := visible } } id)
  | none => (false, s)

/-- get all updated viewports and clear the list -/
def wrbTakeViewportUpdates (s : Viewports) : List ℕ × Viewports :=
  (s.viewportsChanged, { s with viewportsChanged := [] })

/-- fold helper: the cursor, and the viewports so far, at most 1024 -/
def wrbGetViewportsIter (s : Viewports) (state : Option ℕ × List (ℕ × ViewportRec)) :
    Option ℕ × List (ℕ × ViewportRec) :=
  match state.1 with
  | some cursor =>
    match s.viewports cursor with
    | some viewport => (viewport.last, (asMaxLen (state.2 ++ [(cursor, viewport)]) 1024).getD state.2)
    | none => state
  | none => state

/-- twenty viewports from a cursor, or from the last one created -/
def wrbGetViewports (s : Viewports) (cursor : Option ℕ) : List (ℕ × ViewportRec) :=
  ((List.replicate 20 true).foldl (fun state _ => s.wrbGetViewportsIter state)
    (if cursor = none then s.lastViewportId else cursor, [])).2

def wrbGetViewport (s : Viewports) (id : ℕ) : Option (ℕ × ViewportRec) := (s.viewports id).map fun v => (id, v)

end Viewports

/-- the calls of a page, and the take of the renderer -/
inductive ViewportCall where
  | viewport (id startRow startCol numRows numCols : ℕ)
  | childViewport (id parentId startRow startCol numRows numCols : ℕ)
  | setDims (id rows cols : ℕ)
  | setVisible (id : ℕ) (visible : Bool)
  | takeUpdates
deriving DecidableEq, Repr

namespace Viewports

/-- a call, and whether it succeeded -/
def call (s : Viewports) : ViewportCall → Bool × Viewports
  | .viewport id startRow startCol numRows numCols =>
    match s.wrbViewport id startRow startCol numRows numCols with
    | .ok s' => (true, s')
    | .error _ => (false, s)
  | .childViewport id parentId startRow startCol numRows numCols =>
    match s.wrbChildViewport id parentId startRow startCol numRows numCols with
    | .ok s' => (true, s')
    | .error _ => (false, s)
  | .setDims id rows cols =>
    match s.wrbSetViewportDims id rows cols with
    | .ok s' => (true, s')
    | .error _ => (false, s)
  | .setVisible id visible => s.wrbViewportSetVisible id visible
  | .takeUpdates => (true, s.wrbTakeViewportUpdates.2)

def step (s : Viewports) (c : ViewportCall) : Viewports := (s.call c).2

end Viewports

/-! ## What a call does -/

/-- within the dimensions that `wrb-check-dims` lets pass -/
def ViewportRec.Small (v : ViewportRec) : Prop := v.startRow + v.numRows < 65536 ∧ v.startCol + v.numCols < 65536

namespace ViewportCall

def creates : ViewportCall → Option ℕ
  | viewport id _ _ _ _ => some id
  | childViewport id _ _ _ _ _ => some id
  | _ => none

def updates : ViewportCall → Option ℕ
  | setDims id _ _ => some id
  | setVisible id _ => some id
  | _ => none

end ViewportCall

namespace Viewports

/-- the viewport that a call creates -/
def created (s : Viewports) (c : ViewportCall) : List ℕ := if (s.call c).1 then c.creates.toList else []

/-- the viewport whose dimensions or visibility a call sets -/
def updated (s : Viewports) (c : ViewportCall) : List ℕ := if (s.call c).1 then c.updates.toList else []

/-- a call, the viewports it creates and updates, and the state after it -/
inductive Effect (s : Viewports) : ViewportCall → (created updated : List ℕ) → Viewports → Prop where
  | creates {c : ViewportCall} {id : ℕ} {v : ViewportRec} (take : c ≠ .takeUpdates) (fresh : s.viewports id = none)
      (small : v.Small) (parent : ∀ p, v.parent = some p → (s.viewports p).isSome) (last : v.last = s.lastViewportId) :
      Effect s c [id] [] { s with viewports := mapSet s.viewports id v, lastViewportId := some id }
  | updates {c : ViewportCall} {id : ℕ} {v v' : ViewportRec} (take : c ≠ .takeUpdates)
      (found : s.viewports id = some v) (small : v.Small → v'.Small) (parent : v'.parent = v.parent)
      (last : v'.last = v.last) :
      Effect s c [] [id] (markViewportUpdated { s with viewports := mapSet s.viewports id v' } id)
  | takes : Effect s .takeUpdates [] [] { s with viewportsChanged := [] }
  | fails {c : ViewportCall} (take : c ≠ .takeUpdates) : Effect s c [] [] s

theorem wrbCheckDims_ok {startRow startCol numRows numCols : ℕ} {u : Unit}
    (h : wrbCheckDims startRow startCol numRows numCols = .ok u) :
    startRow + numRows < 65536 ∧ startCol + numCols < 65536 := by
  obtain ⟨_, _, h⟩ := bind_ok h
  obtain ⟨_, _, h⟩ := bind_ok h
  obtain ⟨endCol, hcol, h⟩ := bind_ok h
  obtain ⟨_, hcols, h⟩ := bind_ok h
  obtain ⟨endRow, hrow, hrows⟩ := bind_ok h
  have hcols := asserts_ok hcols
  have hrows := asserts_ok hrows
  rw [uintAdd_ok hcol] at hcols
  rw [uintAdd_ok hrow] at hrows
  exact ⟨hrows, hcols⟩

theorem wrbViewport_effect {s s' : Viewports} {id startRow startCol numRows numCols : ℕ}
    (h : s.wrbViewport id startRow startCol numRows numCols = .ok s') {c : ViewportCall} (hc : c ≠ .takeUpdates) :
    Effect s c [id] [] s' := by
  obtain ⟨_, hdims, h⟩ := bind_ok h
  obtain ⟨_, hfresh, h⟩ := bind_ok h
  cases h
  exact .creates hc (asserts_ok hfresh) (wrbCheckDims_ok hdims) (fun _ hp => nomatch hp) rfl

theorem wrbChildViewport_effect {s s' : Viewports} {id parentId startRow startCol numRows numCols : ℕ}
    (h : s.wrbChildViewport id parentId startRow startCol numRows numCols = .ok s') {c : ViewportCall}
    (hc : c ≠ .takeUpdates) : Effect s c [id] [] s' := by
  obtain ⟨_, hdims, h⟩ := bind_ok h
  obtain ⟨_, hfresh, h⟩ := bind_ok h
  obtain ⟨_, hparent, h⟩ := bind_ok h
  cases h
  refine .creates hc (asserts_ok hfresh) (wrbCheckDims_ok hdims) ?_ rfl
  intro p hp
  cases hp
  exact Option.isSome_iff_ne_none.2 (asserts_ok hparent)

theorem wrbSetViewportDims_effect {s s' : Viewports} {id rows cols : ℕ}
    (h : s.wrbSetViewportDims id rows cols = .ok s') {c : ViewportCall} (hc : c ≠ .takeUpdates) :
    Effect s c [] [id] s' := by
  obtain ⟨v, hv, h⟩ := bind_ok h
  obtain ⟨_, hdims, h⟩ := bind_ok h
  cases h
  exact .updates hc (unwrap_ok hv) (fun _ => wrbCheckDims_ok hdims) rfl rfl

/-- **A call** creates a viewport, updates one, takes the updates, or changes nothing -/
theorem call_effect (s : Viewports) (c : ViewportCall) : Effect s c (s.created c) (s.updated c) (s.step c) := by
  unfold created updated step call
  cases c with
  | viewport id startRow startCol numRows numCols =>
    cases h : s.wrbViewport id startRow startCol numRows numCols with
    | ok s' => simp only [h]; exact wrbViewport_effect h nofun
    | error e => simp only [h]; exact .fails (nofun)
  | childViewport id parentId startRow startCol numRows numCols =>
    cases h : s.wrbChildViewport id parentId startRow startCol numRows numCols with
    | ok s' => simp only [h]; exact wrbChildViewport_effect h nofun
    | error e => simp only [h]; exact .fails (nofun)
  | setDims id rows cols =>
    cases h : s.wrbSetViewportDims id rows cols with
    | ok s' => simp only [h]; exact wrbSetViewportDims_effect h nofun
    | error e => simp only [h]; exact .fails (nofun)
  | setVisible id visible =>
    cases h : s.viewports id with
    | none => simp only [wrbViewportSetVisible, h]; exact .fails (nofun)
    | some v => simp only [wrbViewportSetVisible, h]; exact .updates nofun h (fun hs => hs) rfl rfl
  | takeUpdates => exact .takes

/-! ## The list of viewports -/

/-- the viewports created by a run, in the order of creation -/
def createdAll : Viewports → List ViewportCall → List ℕ
  | _, [] => []
  | s, c :: calls => s.created c ++ createdAll (s.step c) calls

/-- **Well-formed**: the map holds the viewports created, linked backwards from the last one -/
structure Listed (s : Viewports) (ids : List ℕ) : Prop where
  chain : Chain s.viewports ViewportRec.last s.lastViewportId ids.reverse
  mem : ∀ id, (s.viewports id).isSome ↔ id ∈ ids
  nodup : ids.Nodup
  small : ∀ id v, s.viewports id = some v → v.Small
  /-- a parent is created before its children -/
  parent : ∀ (i id : ℕ) (v : ViewportRec) (p : ℕ), ids[i]? = some id → s.viewports id = some v → v.parent = some p →
    ∃ j < i, ids[j]? = some p

theorem deployed_listed : Listed deployed [] where
  chain := .nil
  mem _ := iff_of_false Bool.false_ne_true List.not_mem_nil
  nodup := List.nodup_nil
  small _ _ h := nomatch h
  parent _ _ _ _ _ h := nomatch h

@[simp] theorem markViewportUpdated_viewports (s : Viewports) (id : ℕ) :
    (s.markViewportUpdated id).viewports = s.viewports := rfl

@[simp] theorem markViewportUpdated_lastViewportId (s : Viewports) (id : ℕ) :
    (s.markViewportUpdated id).lastViewportId = s.lastViewportId := rfl

section

variable {s : Viewports} {ids : List ℕ}

theorem Listed.creates (h : Listed s ids) {id : ℕ} {v : ViewportRec} (fresh : s.viewports id = none) (small : v.Small)
    (parent : ∀ p, v.parent = some p → (s.viewports p).isSome) (last : v.last = s.lastViewportId) :
    Listed { s with viewports := mapSet s.viewports id v, lastViewportId := some id } (ids ++ [id]) := by
  have hnot : id ∉ ids := by
    intro hid
    rw [← h.mem, fresh] at hid
    exact Bool.false_ne_true hid
  refine ⟨?_, ?_, ?_, ?_, ?_⟩
  · rw [List.reverse_append]
    refine .cons (mapSet_self _ _ _) ?_
    rw [last]
    refine h.chain.congr fun k hk => ?_
    have hne : k ≠ id := fun heq => hnot (heq ▸ List.mem_reverse.1 hk)
    show (mapSet s.viewports id v k).map _ = _
    rw [mapSet_of_ne _ _ hne]
  · intro k
    show (mapSet s.viewports id v k).isSome ↔ k ∈ ids ++ [id]
    rw [mapSet_apply, List.mem_append, List.mem_singleton, ← h.mem k]
    split_ifs with hk
    · exact iff_of_true rfl (.inr hk)
    · exact (or_iff_left hk).symm
  · exact List.nodup_append.2 ⟨h.nodup, List.nodup_singleton id, fun a ha b hb heq =>
      hnot (List.mem_singleton.1 hb ▸ heq ▸ ha)⟩
  · intro k w hk
    change mapSet s.viewports id v k = some w at hk
    rw [mapSet_apply] at hk
    split_ifs at hk
    · cases hk
      exact small
    · exact h.small k w hk
  · intro i k w p hi hk hp
    change mapSet s.viewports id v k = some w at hk
    rw [mapSet_apply] at hk
    rcases Nat.lt_or_ge i ids.length with hlt | hge
    · rw [List.getElem?_append_left hlt] at hi
      have hne : k ≠ id := fun heq => hnot (heq ▸ List.mem_of_getElem? hi)
      rw [if_neg hne] at hk
      obtain ⟨j, hj, hjp⟩ := h.parent i k w p hi hk hp
      exact ⟨j, hj, by rw [List.getElem?_append_left (hj.trans hlt), hjp]⟩
    · rw [List.getElem?_append_right hge] at hi
      obtain rfl : k = id := List.mem_singleton.1 (List.mem_of_getElem? hi)
      rw [if_pos rfl] at hk
      cases hk
      obtain ⟨j, hjp⟩ := List.mem_iff_getElem?.1 ((h.mem p).1 (parent p hp))
      have hlt : j < ids.length := (List.getElem?_eq_some_iff.1 hjp).1
      exact ⟨j, hlt.trans_le hge, by rw [List.getElem?_append_left hlt, hjp]⟩

theorem Listed.updates (h : Listed s ids) {id : ℕ} {v v' : ViewportRec} (found : s.viewports id = some v)
    (small : v.Small → v'.Small) (parent : v'.parent = v.parent) (last : v'.last = v.last) :
    Listed (markViewportUpdated { s with viewports := mapSet s.viewports id v' } id) ids := by
  -- each row still stands for a row with the same links
  have hrow : ∀ k w, mapSet s.viewports id v' k = some w →
      ∃ w₀, s.viewports k = some w₀ ∧ w.parent = w₀.parent ∧ (w₀.Small → w.Small) := by
    intro k w hk
    rw [mapSet_apply] at hk
    split_ifs at hk with heq
    · cases hk
      exact ⟨v, heq ▸ found, parent, small⟩
    · exact ⟨w, hk, rfl, fun hw => hw⟩
  refine ⟨?_, ?_, h.nodup, ?_, ?_⟩
  · refine h.chain.congr fun k _ => ?_
    show (mapSet s.viewports id v' k).map _ = _
    rw [mapSet_apply]
    split_ifs with heq
    · rw [heq, found, Option.map_some, Option.map_some, last]
    · rfl
  · intro k
    show (mapSet s.viewports id v' k).isSome ↔ k ∈ ids
    rw [← h.mem k, mapSet_apply]
    split_ifs with heq
    · rw [heq, found]
      exact Iff.rfl
    · exact Iff.rfl
  · intro k w hk
    obtain ⟨w₀, hw₀, -, hsmall⟩ := hrow k w hk
    exact hsmall (h.small k w₀ hw₀)
  · intro i k w p hi hk hp
    obtain ⟨w₀, hw₀, hparent, -⟩ := hrow k w hk
    exact h.parent i k w₀ p hi hw₀ (hparent ▸ hp)

theorem step_listed (h : Listed s ids) (c : ViewportCall) : Listed (s.step c) (ids ++ s.created c) := by
  have heffect := call_effect s c
  generalize s.created c = made, s.updated c = set, s.step c = s' at heffect
  cases heffect with
  | creates _ fresh small parent last => exact h.creates fresh small parent last
  | updates _ found small parent last => rw [List.append_nil]; exact h.updates found small parent last
  | takes => rw [List.append_nil]; exact ⟨h.chain, h.mem, h.nodup, h.small, h.parent⟩
  | fails => rw [List.append_nil]; exact h

theorem run_listed (h : Listed s ids) (calls : List ViewportCall) :
    Listed (run step s calls) (ids ++ s.createdAll calls) := by
  induction calls generalizing s ids with
  | nil => rw [createdAll, List.append_nil]; exact h
  | cons c calls ih =>
    rw [createdAll, ← List.append_assoc]
    exact ih (step_listed h c)

end

end Viewports

/-! ## Updates -/

/-- the contract, with the viewports set since the last take -/
structure Tracked where
  contract : Viewports
  pending : List ℕ

namespace Tracked

def deployed : Tracked := ⟨Viewports.deployed, []⟩

def step (g : Tracked) (c : ViewportCall) : Tracked where
  contract := g.contract.step c
  pending := if c = .takeUpdates then [] else g.contract.updated c ++ g.pending

/-- **No update is lost**: a take returns every viewport set since the last one, and leaves an empty list -/
structure TakesAll (g : Tracked) : Prop where
  all : ∀ id ∈ g.pending, id ∈ g.contract.wrbTakeViewportUpdates.1
  empty : g.contract.wrbTakeViewportUpdates.2.viewportsChanged = []

/-- **When an update is kept**: the viewport is in the list already, or the list is not full -/
def Room (g : Tracked) (c : ViewportCall) : Prop :=
  ∀ id ∈ g.contract.updated c,
    id ∈ g.contract.viewportsChanged ∨ g.contract.viewportsChanged.length < MAX_CHANGED

/-- an update kept is the last of the list; where the list is full it stays as it is -/
theorem viewportsChanged_mark (s : Viewports) (id : ℕ) :
    (s.markViewportUpdated id).viewportsChanged =
      if s.viewportsChanged.length < MAX_CHANGED then s.viewportsChanged ++ [id] else s.viewportsChanged :=
  append_default _ _ _

theorem mem_mark {s : Viewports} {id k : ℕ} : k ∈ (s.markViewportUpdated id).viewportsChanged ↔
    k ∈ s.viewportsChanged ∨ (k = id ∧ s.viewportsChanged.length < MAX_CHANGED) := by
  rw [viewportsChanged_mark]
  split_ifs with hroom
  · rw [List.mem_append, List.mem_singleton, and_iff_left hroom]
  · exact (or_iff_left fun h => hroom h.2).symm

/-- the list holds nothing but viewports set since the last take -/
theorem step_changed {g : Tracked} (h : ∀ id ∈ g.contract.viewportsChanged, id ∈ g.pending) (c : ViewportCall) :
    ∀ id ∈ (g.step c).contract.viewportsChanged, id ∈ (g.step c).pending := by
  have heffect := g.contract.call_effect c
  intro k hk
  show k ∈ if c = .takeUpdates then [] else g.contract.updated c ++ g.pending
  change k ∈ (g.contract.step c).viewportsChanged at hk
  generalize g.contract.created c = made, g.contract.updated c = set, g.contract.step c = s' at heffect hk
  cases heffect with
  | creates take => rw [if_neg take]; exact h k hk
  | updates take =>
    rw [if_neg take]
    rcases mem_mark.1 hk with hold | hnew
    · exact List.mem_append_right _ (h k hold)
    · exact List.mem_append_left _ (List.mem_singleton.2 hnew.1)
  | takes => exact absurd hk List.not_mem_nil
  | fails take => rw [if_neg take]; exact h k hk

/-- where the list holds exactly the viewports set, it does after a call exactly when the call finds room -/
theorem step_kept_iff {g : Tracked} (h : ∀ id, id ∈ g.contract.viewportsChanged ↔ id ∈ g.pending) (c : ViewportCall) :
    (∀ id, id ∈ (g.step c).contract.viewportsChanged ↔ id ∈ (g.step c).pending) ↔ g.Room c := by
  have heffect := g.contract.call_effect c
  show (∀ id, id ∈ (g.contract.step c).viewportsChanged ↔
      id ∈ if c = .takeUpdates then [] else g.contract.updated c ++ g.pending) ↔
    ∀ id ∈ g.contract.updated c, id ∈ g.contract.viewportsChanged ∨ g.contract.viewportsChanged.length < MAX_CHANGED
  generalize g.contract.created c = made, g.contract.updated c = set, g.contract.step c = s' at heffect
  cases heffect with
  | creates take =>
    rw [if_neg take]
    exact iff_of_true h (List.forall_mem_nil _)
  | @updates _ id v v' take found =>
    rw [if_neg take, List.forall_mem_singleton]
    simp only [mem_mark, List.singleton_append, List.mem_cons]
    constructor
    · intro hall
      exact ((hall id).2 (.inl rfl)).imp_right And.right
    · intro hroom k
      rw [or_comm, ← h k]
      refine or_congr_left' fun hk => ⟨And.left, ?_⟩
      rintro rfl
      exact ⟨rfl, hroom.resolve_left hk⟩
  | takes => exact iff_of_true (fun id => iff_of_false List.not_mem_nil List.not_mem_nil) (List.forall_mem_nil _)
  | fails take =>
    rw [if_neg take]
    exact iff_of_true h (List.forall_mem_nil _)

/-- **Runs.** After any number of the calls, a take returns every viewport set since the last one exactly when every
update found room in the list -/
theorem updates_taken_iff (calls : List ViewportCall) :
    (∀ n, TakesAll (run step deployed (calls.take n))) ↔ Always step Room deployed calls := by
  rw [← inv_iff_always (I := fun g : Tracked => ∀ id, id ∈ g.contract.viewportsChanged ↔ id ∈ g.pending)
    (fun _ c h => step_kept_iff h c) (fun _ => iff_of_false List.not_mem_nil List.not_mem_nil)]
  refine forall_congr' fun n => ?_
  have hsub := run_inv (I := fun g : Tracked => ∀ id ∈ g.contract.viewportsChanged, id ∈ g.pending)
    (fun _ c h => step_changed h c) (s := deployed) (fun _ h => absurd h List.not_mem_nil) (calls.take n)
  constructor
  · exact fun h id => ⟨hsub id, h.all id⟩
  · exact fun h => ⟨fun id => (h id).2, rfl⟩

/-! ## A full list -/

theorem setVisible_of_some {s : Viewports} {id : ℕ} {v : ViewportRec} (hid : s.viewports id = some v) (visible : Bool) :
    s.call (.setVisible id visible) =
      (true, .markViewportUpdated { s with viewports := mapSet s.viewports id { v with visible := visible } } id) := by
  simp only [Viewports.call, Viewports.wrbViewportSetVisible, hid]

/-- as many updates of one viewport as the list has room for are all kept -/
theorem run_setVisible {s : Viewports} {id : ℕ} (hid : (s.viewports id).isSome) (visible : Bool) {n : ℕ}
    (hroom : s.viewportsChanged.length + n ≤ MAX_CHANGED) :
    (run Viewports.step s (List.replicate n (.setVisible id visible))).viewportsChanged =
        s.viewportsChanged ++ List.replicate n id ∧
      ∀ k, ((run Viewports.step s (List.replicate n (.setVisible id visible))).viewports k).isSome =
        (s.viewports k).isSome := by
  induction n generalizing s with
  | zero => exact ⟨(List.append_nil _).symm, fun _ => rfl⟩
  | succ n ih =>
    obtain ⟨v, hv⟩ := Option.isSome_iff_exists.1 hid
    have hcall : s.step (.setVisible id visible) = _ := congrArg Prod.snd (setVisible_of_some hv visible)
    have hchanged : (s.step (.setVisible id visible)).viewportsChanged = s.viewportsChanged ++ [id] := by
      rw [hcall, viewportsChanged_mark, if_pos (by show s.viewportsChanged.length < _; omega)]
    have hsame : ∀ k, ((s.step (.setVisible id visible)).viewports k).isSome = (s.viewports k).isSome := by
      intro k
      rw [hcall]
      show (mapSet s.viewports id _ k).isSome = _
      rw [mapSet_apply]
      split_ifs with hk
      · rw [hk, hv]
        rfl
      · rfl
    have hroom' : (s.step (.setVisible id visible)).viewportsChanged.length + n ≤ MAX_CHANGED := by
      rw [hchanged, List.length_append, List.length_singleton]
      omega
    obtain ⟨hlist, hmap⟩ := ih ((hsame id).trans hid) hroom'
    rw [List.replicate_succ, run_cons]
    refine ⟨?_, fun k => (hmap k).trans (hsame k)⟩
    rw [hlist, hchanged, List.append_assoc, List.singleton_append, List.replicate_succ]

/-- two viewports, `n` updates of the first, one of the second -/
def crowded (n : ℕ) : List ViewportCall :=
  [.viewport 0 0 0 1 1, .viewport 1 0 0 1 1] ++ List.replicate n (.setVisible 0 true) ++ [.setVisible 1 true]

theorem crowded_loses {n : ℕ} (hn : n = MAX_CHANGED) : 1 ∈ (run step deployed (crowded n)).pending ∧
    1 ∉ (run step deployed (crowded n)).contract.wrbTakeViewportUpdates.1 := by
  have hproj : ∀ calls, (run step deployed calls).contract = run Viewports.step Viewports.deployed calls :=
    fun calls => run_proj (fun _ _ => rfl) deployed calls
  have htwo : (run Viewports.step .deployed [.viewport 0 0 0 1 1, .viewport 1 0 0 1 1]).viewportsChanged = [] := rfl
  obtain ⟨hlist, hmap⟩ := @run_setVisible
    (run Viewports.step .deployed [.viewport 0 0 0 1 1, .viewport 1 0 0 1 1]) 0 rfl true n
    (by rw [htwo, hn]; exact Nat.le_refl _)
  rw [htwo, List.nil_append] at hlist
  rw [← run_append, ← hproj] at hlist hmap
  have hlast : run step deployed (crowded n) = step (run step deployed
      ([.viewport 0 0 0 1 1, .viewport 1 0 0 1 1] ++ List.replicate n (.setVisible 0 true)))
      (.setVisible 1 true) := run_append _ _ _
  rw [hlast]
  generalize run step deployed
    ([.viewport 0 0 0 1 1, .viewport 1 0 0 1 1] ++ List.replicate n (.setVisible 0 true)) = g at hlist hmap
  have hone : (g.contract.viewports 1).isSome := hmap 1
  obtain ⟨v, hv⟩ := Option.isSome_iff_exists.1 hone
  have hcall := setVisible_of_some hv true
  constructor
  · have hset : g.contract.updated (.setVisible 1 true) = [1] := by
      rw [Viewports.updated, hcall]
      rfl
    show 1 ∈ g.contract.updated (.setVisible 1 true) ++ g.pending
    rw [hset]
    exact List.mem_cons_self
  · show 1 ∉ (g.contract.call (.setVisible 1 true)).2.viewportsChanged
    rw [hcall, viewportsChanged_mark, if_neg]
    · show 1 ∉ g.contract.viewportsChanged
      rw [hlist]
      exact fun h => absurd (List.eq_of_mem_replicate h) (by decide)
    · show ¬ g.contract.viewportsChanged.length < MAX_CHANGED
      rw [hlist, List.length_replicate, hn]
      exact Nat.lt_irrefl _

/-- after 1024 updates of the first viewport, the update of the second is lost -/
theorem update_lost : 1 ∈ (run step deployed (crowded 1024)).pending ∧
    1 ∉ (run step deployed (crowded 1024)).contract.wrbTakeViewportUpdates.1 := crowded_loses rfl

end Tracked

end Wrb.Contracts
