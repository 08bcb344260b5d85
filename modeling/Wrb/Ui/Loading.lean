/-
The viewports of a page as the renderer loads them (`ui/render.rs`): `Renderer::get_viewports` and
`Renderer::get_updated_viewports`, over the contract in `Wrb.Contracts.Viewports`.

Model: a query is a call of the contract on its state; the loop over pages has fuel. `none` is a panic, or a run out of
fuel.

Results:
- `getViewports_returns`: after any calls, the loop ends and returns every viewport once, in the order of creation, with
  its record; every parent comes before its children;
- `Loads.arranged`: the scene graph of such a list is right, where its positions and sizes are not too large;
- `getUpdatedViewports_eq`: an update loads the record of each viewport taken, without a panic.
-/
import Mathlib.Tactic
import Wrb.Contracts.Viewports
import Wrb.Ui.Front

namespace Wrb.Ui

open Wrb.Runs Wrb.Links Wrb.Contracts

/-- `u64::try_from` -/
def u64TryFrom (x : ℕ) : Option UInt64 := if x < 2 ^ 64 then some (UInt64.ofNat x) else none

/-- `Viewport::from_clarity_value`: the viewport, and `prev_viewport` -/
def Viewport.fromClarityValue (value : ℕ × ViewportRec) : Option (Viewport × Option ℕ) := do
  let startRow ← u64TryFrom value.2.startRow
  let startCol ← u64TryFrom value.2.startCol
  let numRows ← u64TryFrom value.2.numRows
  let numCols ← u64TryFrom value.2.numCols
  return ({ id := value.1, startRow, startCol, numRows, scrollOffset := 0, visible := value.2.visible
            parent := value.2.parent, buff := CharBuff.new numCols, elementCoords := ∅ }, value.2.last)

namespace Renderer

/-- the loop over a page: the viewports, and the last `prev_viewport` -/
def loadPage : List (ℕ × ViewportRec) → (lastViewport : Option ℕ) → List Viewport →
    Option (Option ℕ × List Viewport)
  | [], lastViewport, viewports => some (lastViewport, viewports)
  | value :: page, _, viewports => do
    let (viewport, prevViewport) ← Viewport.fromClarityValue value
    loadPage page prevViewport (viewports ++ [viewport])

/-- the loop over the pages -/
def loadPages (s : Viewports) : (fuel : ℕ) → (cursor : Option ℕ) → List Viewport → Option (List Viewport)
  | 0, _, _ => none
  | fuel + 1, cursor, viewports =>
    let page := s.wrbGetViewports cursor
    if page.length = 0 then some viewports
    else do
      let (lastViewport, viewports) ← loadPage page none viewports
      match lastViewport with
      | some lastViewportId => loadPages s fuel (some lastViewportId) viewports
      | none => some viewports

def getViewports (s : Viewports) (fuel : ℕ) : Option SceneGraph := do
  let viewports ← loadPages s fuel none []
  SceneGraph.new viewports.reverse

/-- the viewports taken are loaded one by one; one that is not there is left out -/
def loadUpdated (s : Viewports) : List ℕ → Option (List Viewport)
  | [] => some []
  | id :: ids =>
    match s.wrbGetViewport id with
    | none => loadUpdated s ids
    | some value => do
      let (viewport, _) ← Viewport.fromClarityValue value
      let viewports ← loadUpdated s ids
      return viewport :: viewports

def getUpdatedViewports (s : Viewports) : Option (List Viewport) × Viewports :=
  let (ids, s) := s.wrbTakeViewportUpdates
  (loadUpdated s ids, s)

/-! ## A page of the contract -/

/-- below its length of 1024, the list of the fold is not cut -/
theorem iterate_iter (s : Viewports) {n : ℕ} {state : Option ℕ × List (ℕ × ViewportRec)}
    (hroom : state.2.length + n ≤ 1024) :
    s.wrbGetViewportsIter^[n] state = (readCell s.viewports ViewportRec.last)^[n] state := by
  induction n generalizing state with
  | zero => rfl
  | succ n ih =>
    have hstep : s.wrbGetViewportsIter state = readCell s.viewports ViewportRec.last state := by
      unfold Viewports.wrbGetViewportsIter readCell
      rcases state with ⟨_ | cursor, viewports⟩
      · rfl
      · cases hv : s.viewports cursor with
        | none => simp only [hv]
        | some v =>
          have hlt : viewports.length < 1024 := by
            change viewports.length + (n + 1) ≤ 1024 at hroom
            omega
          simp only [hv, append_default, if_pos hlt]
    have hlen : (readCell s.viewports ViewportRec.last state).2.length ≤ state.2.length + 1 := by
      unfold readCell
      rcases state with ⟨_ | cursor, viewports⟩
      · exact Nat.le_succ _
      · cases hv : s.viewports cursor with
        | none => simp only [hv]; exact Nat.le_succ _
        | some v => simp only [hv, List.length_append, List.length_singleton]; exact Nat.le_refl _
    rw [Function.iterate_succ_apply, Function.iterate_succ_apply, hstep]
    exact ih (by omega)

theorem wrbGetViewports_eq (s : Viewports) (cursor : Option ℕ) :
    s.wrbGetViewports cursor =
      ((readCell s.viewports ViewportRec.last)^[20] (if cursor = none then s.lastViewportId else cursor, [])).2 := by
  unfold Viewports.wrbGetViewports
  rw [List.foldl_const, List.length_replicate, iterate_iter s (show 0 + 20 ≤ 1024 by decide)]

/-! ## The loops -/

/-- the viewport of a record that fits -/
def loaded (value : ℕ × ViewportRec) : Viewport where
  id := value.1
  startRow := UInt64.ofNat value.2.startRow
  startCol := UInt64.ofNat value.2.startCol
  numRows := UInt64.ofNat value.2.numRows
  scrollOffset := 0
  visible := value.2.visible
  parent := value.2.parent
  buff := CharBuff.new (UInt64.ofNat value.2.numCols)
  elementCoords := ∅

theorem u64TryFrom_of_lt {x : ℕ} (h : x < 65536) : u64TryFrom x = some (UInt64.ofNat x) :=
  if_pos (h.trans (by norm_num))

theorem fromClarityValue_eq {value : ℕ × ViewportRec} (h : value.2.Small) :
    Viewport.fromClarityValue value = some (loaded value, value.2.last) := by
  obtain ⟨hrows, hcols⟩ := h
  unfold Viewport.fromClarityValue
  rw [u64TryFrom_of_lt (show value.2.startRow < 65536 by omega),
    u64TryFrom_of_lt (show value.2.startCol < 65536 by omega),
    u64TryFrom_of_lt (show value.2.numRows < 65536 by omega),
    u64TryFrom_of_lt (show value.2.numCols < 65536 by omega)]
  rfl

theorem loadPage_eq {page : List (ℕ × ViewportRec)} (h : ∀ e ∈ page, e.2.Small) (lastViewport : Option ℕ)
    (viewports : List Viewport) : loadPage page lastViewport viewports =
      some ((page.getLast?).elim lastViewport fun e => e.2.last, viewports ++ page.map loaded) := by
  induction page generalizing lastViewport viewports with
  | nil => rw [List.map_nil, List.append_nil]; rfl
  | cons e page ih =>
    obtain ⟨he, hpage⟩ := List.forall_mem_cons.1 h
    unfold loadPage
    simp only [fromClarityValue_eq he, Option.bind_eq_bind, Option.bind_some]
    rw [ih hpage, List.append_assoc, List.getLast?_cons]
    cases page.getLast? <;> rfl

/-- the loop over the pages is the reading of pages of the library -/
theorem loadPages_eq {s : Viewports} (hsmall : ∀ id v, s.viewports id = some v → v.Small) (fuel : ℕ)
    (cursor : Option ℕ) (viewports : List Viewport) : loadPages s fuel cursor viewports =
      (readPages s.viewports ViewportRec.last 20 fuel (if cursor = none then s.lastViewportId else cursor)).map
        fun es => viewports ++ es.map loaded := by
  induction fuel generalizing cursor viewports with
  | zero => rfl
  | succ fuel ih =>
    have hpage := wrbGetViewports_eq s cursor
    have hcells : ∀ e ∈ s.wrbGetViewports cursor, s.viewports e.1 = some e.2 := by
      rw [hpage]
      exact mem_iterate_readCell (List.forall_mem_nil _)
    have hfit : ∀ e ∈ s.wrbGetViewports cursor, e.2.Small := fun e he => hsmall e.1 e.2 (hcells e he)
    unfold loadPages readPages
    simp only [← hpage, loadPage_eq hfit, Option.bind_eq_bind, Option.bind_some]
    rcases List.eq_nil_or_concat' (s.wrbGetViewports cursor) with hnil | ⟨front, e, hlast⟩
    · rw [hnil]
      exact congrArg some (List.append_nil _).symm
    · have hne : (s.wrbGetViewports cursor).length ≠ 0 := by rw [hlast, List.length_append]; exact Nat.succ_ne_zero _
      have hget : (s.wrbGetViewports cursor).getLast? = some e := by rw [hlast, List.getLast?_concat]
      rw [if_neg hne, hget]
      cases hlink : e.2.last with
      | none => simp only [Option.elim_some, hlink, Option.map_some]
      | some k =>
        simp only [Option.elim_some, hlink, ih, if_neg (Option.some_ne_none k), Option.map_map]
        congr 1
        funext es
        show _ = viewports ++ (s.wrbGetViewports cursor ++ es).map loaded
        rw [List.map_append, List.append_assoc]

/-! ## All the viewports -/

/-- **Loaded**: the viewports created, once each and in the order of creation, with their records -/
structure Loads (s : Viewports) (ids : List ℕ) (vps : List Viewport) : Prop where
  order : vps.map Viewport.id = ids
  once : (vps.map Viewport.id).Nodup
  record : ∀ v ∈ vps, ∃ r, s.viewports v.id = some r ∧ Viewport.fromClarityValue (v.id, r) = some (v, r.last)
  parents : ∀ (i : ℕ) (v : Viewport) (p : ℕ), vps[i]? = some v → v.parent = some p →
    ∃ j < i, ∃ w, vps[j]? = some w ∧ w.id = p

section

variable {s : Viewports} {ids : List ℕ}

theorem loadPages_listed (h : s.Listed ids) {fuel : ℕ} (hfuel : ids.length < fuel) :
    loadPages s fuel none [] = some ((entries s.viewports ids.reverse).map loaded) := by
  have hpages : readPages s.viewports ViewportRec.last 20 fuel s.lastViewportId =
      some (entries s.viewports ids.reverse) := readPages_eq (by decide) h.chain (by rwa [List.length_reverse])
  rw [loadPages_eq h.small, if_pos rfl, hpages]
  rfl

/-- the viewports in the order of creation -/
theorem loads_of_listed (h : s.Listed ids) : Loads s ids ((entries s.viewports ids).map loaded) := by
  have hall : ∀ k ∈ ids, (s.viewports k).isSome := fun k hk => (h.mem k).2 hk
  have hids : ((entries s.viewports ids).map loaded).map Viewport.id = ids := by
    rw [List.map_map]
    exact entries_map_fst hall
  have hrecord : ∀ v ∈ (entries s.viewports ids).map loaded, ∃ r, s.viewports v.id = some r ∧ v = loaded (v.id, r) := by
    intro v hv
    obtain ⟨e, he, rfl⟩ := List.mem_map.1 hv
    exact ⟨e.2, (mem_entries he).2, rfl⟩
  have hget : ∀ {i : ℕ} {v : Viewport}, ((entries s.viewports ids).map loaded)[i]? = some v → ids[i]? = some v.id := by
    intro i v hi
    calc ids[i]? = (((entries s.viewports ids).map loaded).map Viewport.id)[i]? := by rw [hids]
      _ = some v.id := by rw [List.getElem?_map, hi, Option.map_some]
  refine ⟨hids, ?_, ?_, ?_⟩
  · rw [hids]
    exact h.nodup
  · intro v hv
    obtain ⟨r, hr, hloaded⟩ := hrecord v hv
    refine ⟨r, hr, ?_⟩
    rw [fromClarityValue_eq (h.small v.id r hr), ← hloaded]
  · intro i v p hi hp
    obtain ⟨r, hr, hloaded⟩ := hrecord v (List.mem_of_getElem? hi)
    have hparent : r.parent = some p := by
      rw [hloaded] at hp
      exact hp
    obtain ⟨j, hj, hjp⟩ := h.parent i v.id r p (hget hi) hr hparent
    have hmap : (((entries s.viewports ids).map loaded).map Viewport.id)[j]? = some p := by rw [hids, hjp]
    rw [List.getElem?_map] at hmap
    obtain ⟨w, hw, hwid⟩ := Option.map_eq_some_iff.1 hmap
    exact ⟨j, hj, w, hw, hwid⟩

/-- viewports with their parents before them are a forest -/
theorem Loads.wellFormed {vps : List Viewport} (h : Loads s ids vps) : SceneWellFormed vps where
  distinct := h.once
  closed v hv p hp := by
    obtain ⟨i, hi⟩ := List.mem_iff_getElem?.1 hv
    obtain ⟨j, -, w, hw, hwid⟩ := h.parents i v p hi hp
    exact ⟨w, List.mem_of_getElem? hw, hwid⟩
  acyclic := by
    refine @Forest.acyclic_of_rank _ _ _ _ _ (fun v => ids.idxOf v.id) ?_
    intro p v hpv
    have hindex : ∀ {i : ℕ} {w : Viewport}, vps[i]? = some w → ids.idxOf w.id = i := by
      intro i w hi
      have hid : (vps.map Viewport.id)[i]? = some w.id := by rw [List.getElem?_map, hi, Option.map_some]
      rw [h.order] at hid
      obtain ⟨hlt, hget⟩ := List.getElem?_eq_some_iff.1 hid
      have hnodup : ids.Nodup := h.order ▸ h.once
      rw [← hget, hnodup.idxOf_getElem i hlt]
    obtain ⟨i, hi⟩ := List.mem_iff_getElem?.1 hpv.2.1
    obtain ⟨j, hj, w, hw, hwid⟩ := h.parents i v p.id hi hpv.2.2
    rw [hindex hi, ← hwid, hindex hw]
    exact hj

theorem Loads.scene {vps : List Viewport} (h : Loads s ids vps) :
    ∃ g, SceneGraph.new vps = some g ∧ g.viewports = vps := by
  obtain ⟨tree, placing, -, -, hnew⟩ := SceneGraph.new_returns h.wellFormed
  exact ⟨_, hnew, rfl⟩

/-- their order is the one that `SceneGraph::new` needs -/
theorem Loads.inOrder {vps : List Viewport} (h : Loads s ids vps) :
    AncestorsInOrder vps := by
  intro i v as hi has
  left
  intro p hp
  cases has with
  | root => exact nomatch hp
  | child hmem hparent has =>
    cases hp
    obtain ⟨j, hj, w, hw, hwid⟩ := h.parents i v p.id hi hparent
    obtain rfl : w = p := Forest.Ancestry.eq_of_key h.wellFormed (List.mem_of_getElem? hw) hmem hwid
    exact SceneGraph.mem_take_of_getElem? hw hj

/-- so each ID is in its level, and no ancestor in front of its descendant, where no position or size is too large -/
theorem Loads.arranged {vps : List Viewport} (h : Loads s ids vps) (hno : NoOverflow vps)
    (hhidden : AncestorsHidden vps) : ∃ g, SceneGraph.new vps = some g ∧ Arranged vps g := by
  obtain ⟨g, hnew, rfl⟩ := h.scene
  exact ⟨g, hnew, SceneGraph.arranged_of_order h.wellFormed hnew h.inOrder hno hhidden⟩

end

/-- **After any calls** the loop ends, and returns every viewport once, in the order of creation -/
theorem getViewports_returns (calls : List ViewportCall) :
    ∃ g, (∀ fuel, (Viewports.deployed.createdAll calls).length < fuel →
        getViewports (run Viewports.step .deployed calls) fuel = some g) ∧
      Loads (run Viewports.step .deployed calls) (Viewports.deployed.createdAll calls) g.viewports := by
  have hlisted : (run Viewports.step .deployed calls).Listed (Viewports.deployed.createdAll calls) :=
    Viewports.run_listed Viewports.deployed_listed calls
  have hloads := loads_of_listed hlisted
  obtain ⟨g, hnew, hviewports⟩ := hloads.scene
  refine ⟨g, ?_, hviewports.symm ▸ hloads⟩
  intro fuel hfuel
  unfold getViewports
  rw [loadPages_listed hlisted hfuel, Option.bind_eq_bind, Option.bind_some]
  have hreverse : (entries (run Viewports.step .deployed calls).viewports
      (Viewports.deployed.createdAll calls).reverse).reverse = _ := List.filterMap_reverse.symm
  rw [← List.map_reverse, hreverse, List.reverse_reverse]
  exact hnew

/-- an update loads the viewports taken that there are, and the list is empty after it -/
theorem getUpdatedViewports_eq {s : Viewports} (hsmall : ∀ id v, s.viewports id = some v → v.Small) :
    getUpdatedViewports s = (some ((entries s.viewports s.viewportsChanged).map loaded),
      { s with viewportsChanged := [] }) := by
  have hload : ∀ ids, loadUpdated { s with viewportsChanged := [] } ids =
      some ((entries s.viewports ids).map loaded) := by
    intro ids
    induction ids with
    | nil => rfl
    | cons id ids ih =>
      unfold loadUpdated Viewports.wrbGetViewport
      cases hid : s.viewports id with
      | none =>
        have hskip : entries s.viewports (id :: ids) = entries s.viewports ids :=
          List.filterMap_cons_none (by rw [hid, Option.map_none])
        simp only [Option.map_none, ih, hskip]
      | some v =>
        have hvalue := @fromClarityValue_eq (id, v) (hsmall id v hid)
        rw [entries_cons hid]
        simp only [Option.map_some, hvalue, ih, Option.bind_eq_bind, Option.bind_some]
        rfl
  show (loadUpdated { s with viewportsChanged := [] } s.viewportsChanged, _) = _
  rw [hload]

end Renderer

end Wrb.Ui
