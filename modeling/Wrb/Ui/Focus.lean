/-
The order in which Tab visits the elements of a frame (`Root::make_focus_order`).

`Root.TabCycle`: the focus maps are one cycle through the focusable elements with a cell in the frame, and its inverse.
`tabCycle_iff`: they are exactly when the last runs of the elements stand in a row at the end of the runs, beginning
with the first element of the frame, and, for a frame without focusable elements, when the map back was empty before.
`focusRuns_eq`: the loop of the source collects the runs of equal IDs among the focusable cells.
-/
import Mathlib.Tactic
import Mathlib.Data.List.Destutter
import Wrb.Lib.Cycles
import Wrb.Ui.Root

namespace Wrb.Ui

open Std Wrb.Cycles Wrb.TreeMap

/-- the focusable element that a cell belongs to -/
def tabStop (forms : ExtTreeMap ℕ Form) : CharCell → Option ℕ
  | .blank => none
  | .fill _ _ _ elementId => if (forms[elementId]?).any fun form => form.typeId.focusable then some elementId else none

/-- the runs of focusable elements in a frame, row by row -/
def tabRuns (forms : ExtTreeMap ℕ Form) (cells : List CharCell) : List ℕ :=
  (cells.filterMap (tabStop forms)).destutter (· ≠ ·)

namespace Root

/-- a focusable element with a cell in the frame -/
def TabStop (root : Root) (buff : CharBuff) (elementId : ℕ) : Prop :=
  ∃ value bg fg, ∃ form : Form, CharCell.fill value bg fg elementId ∈ buff.cells ∧ root.forms[elementId]? = some form ∧
    form.typeId.focusable = true

/-- the focus maps go round the focusable elements of the frame, one forwards and one backwards -/
structure TabCycle (root : Root) (buff : CharBuff) : Prop where
  cycle : (∃ e, root.TabStop buff e) → ∃ first, root.focusFirst = some first ∧
    IsCycle (fun e => root.focusOrder[e]?) (root.TabStop buff) first
  inverse : ∀ a b : ℕ, root.focusOrder[a]? = some b ↔ root.reverseFocusOrder[b]? = some a
  empty : (¬ ∃ e, root.TabStop buff e) → root.focusOrder = ∅ ∧ root.reverseFocusOrder = ∅

/-- of each element the last run counts; these runs come last and begin with the first element of the frame. A frame
without focusable elements leaves the map back as it was -/
structure LastRunsInARow (root : Root) (buff : CharBuff) : Prop where
  inARow : (tabRuns root.forms buff.cells).dedup <:+ tabRuns root.forms buff.cells
  fromFirst : (tabRuns root.forms buff.cells).dedup.head? = (tabRuns root.forms buff.cells).head?
  backEmpty : tabRuns root.forms buff.cells = [] → root.reverseFocusOrder = ∅

end Root

/-! ## Runs -/

open Root (focusRuns successors)

theorem mem_destutter' {l : List ℕ} {a x : ℕ} : x ∈ l.destutter' (· ≠ ·) a ↔ x = a ∨ x ∈ l := by
  induction l generalizing a with
  | nil => simp
  | cons b l ih =>
    rw [List.destutter'_cons]
    split_ifs with hab
    · simp [ih]
    · have hab : a = b := not_not.1 hab
      simp [ih, hab]

theorem mem_destutter {l : List ℕ} {x : ℕ} : x ∈ l.destutter (· ≠ ·) ↔ x ∈ l := by
  cases l with
  | nil => simp
  | cons a l => rw [List.destutter_cons', mem_destutter', List.mem_cons]

theorem tabStop_eq_some {forms : ExtTreeMap ℕ Form} {cell : CharCell} {e : ℕ} :
    tabStop forms cell = some e ↔
      ∃ value bg fg, ∃ form : Form, cell = .fill value bg fg e ∧ forms[e]? = some form ∧
        form.typeId.focusable = true := by
  cases cell with
  | blank => simp [tabStop]
  | fill value bg fg elementId =>
    simp only [tabStop]
    constructor
    · intro h
      split_ifs at h with hany
      cases h
      obtain ⟨form, hform, hfocus⟩ := (Option.any_eq_true _ _).1 hany
      exact ⟨value, bg, fg, form, rfl, hform, hfocus⟩
    · intro ⟨value', bg', fg', form, heq, hform, hfocus⟩
      cases heq
      rw [if_pos]
      exact (Option.any_eq_true _ _).2 ⟨form, hform, hfocus⟩

theorem mem_tabRuns {root : Root} {buff : CharBuff} {e : ℕ} :
    e ∈ tabRuns root.forms buff.cells ↔ root.TabStop buff e := by
  rw [tabRuns, mem_destutter, List.mem_filterMap]
  constructor
  · intro ⟨cell, hcell, hstop⟩
    obtain ⟨value, bg, fg, form, rfl, hform⟩ := tabStop_eq_some.1 hstop
    exact ⟨value, bg, fg, form, hcell, hform⟩
  · intro ⟨value, bg, fg, form, hcell, hform⟩
    exact ⟨_, hcell, tabStop_eq_some.2 ⟨value, bg, fg, form, rfl, hform⟩⟩

/-- one cell of the loop -/
theorem focusRuns_cons (forms : ExtTreeMap ℕ Form) (cell : CharCell) (cells : List CharCell) (cur : Option ℕ) :
    focusRuns forms (cell :: cells) cur =
      match tabStop forms cell with
      | none => focusRuns forms cells cur
      | some e => if cur = some e then focusRuns forms cells cur else e :: focusRuns forms cells (some e) := by
  cases cell with
  | blank => rfl
  | fill value bg fg elementId =>
    cases hform : forms[elementId]? with
    | none => simp [focusRuns, tabStop, hform]
    | some form => by_cases hfocus : form.typeId.focusable = true <;> simp [focusRuns, tabStop, hform, hfocus]

theorem focusRuns_some (forms : ExtTreeMap ℕ Form) (cells : List CharCell) (e : ℕ) :
    e :: focusRuns forms cells (some e) = (cells.filterMap (tabStop forms)).destutter' (· ≠ ·) e := by
  induction cells generalizing e with
  | nil => rfl
  | cons cell cells ih =>
    rw [focusRuns_cons, List.filterMap_cons]
    cases tabStop forms cell with
    | none => exact ih e
    | some e' =>
      simp only [List.destutter'_cons, Option.some.injEq]
      by_cases he : e = e'
      · rw [if_pos he, if_neg (not_not.2 he)]
        exact ih e
      · rw [if_neg he, if_pos he, ih e']

/-- **The loop collects the runs** -/
theorem focusRuns_eq (forms : ExtTreeMap ℕ Form) (cells : List CharCell) :
    focusRuns forms cells none = tabRuns forms cells := by
  unfold tabRuns
  induction cells with
  | nil => rfl
  | cons cell cells ih =>
    rw [focusRuns_cons, List.filterMap_cons]
    cases tabStop forms cell with
    | none => exact ih
    | some e => exact focusRuns_some forms cells e

/-! ## The maps -/

/-- the pairs of neighbours, and the pair that closes the cycle -/
theorem links_eq_successors {ids : List ℕ} {last : ℕ} (first : ℕ) (h : ids.getLast? = some last) :
    links first ids = successors ids ++ [(last, first)] := by
  induction ids using links.induct with
  | case1 => cases h
  | case2 a =>
    cases h
    rfl
  | case3 a b l ih =>
    rw [links, ih (by rwa [List.getLast?_cons_cons] at h)]
    rfl

/-- `make_focus_order` fills the maps with the links of the runs -/
theorem makeFocusOrder_of_head {root : Root} {buff : CharBuff} {first : ℕ}
    (h : (tabRuns root.forms buff.cells).head? = some first) :
    root.makeFocusOrder buff = { root with
      focusOrder := table (links first (tabRuns root.forms buff.cells))
      reverseFocusOrder := table ((links first (tabRuns root.forms buff.cells)).map Prod.swap)
      focusFirst := some first } := by
  obtain ⟨last, hlast⟩ : ∃ last, (tabRuns root.forms buff.cells).getLast? = some last := by
    cases hl : (tabRuns root.forms buff.cells).getLast? with
    | some last => exact ⟨last, rfl⟩
    | none =>
      rw [List.getLast?_eq_none_iff.1 hl] at h
      cases h
  unfold Root.makeFocusOrder
  simp only [focusRuns_eq, h, hlast, links_eq_successors first hlast, List.map_append, table, List.foldl_append]
  rfl

theorem makeFocusOrder_of_nil {root : Root} {buff : CharBuff} (h : tabRuns root.forms buff.cells = []) :
    root.makeFocusOrder buff = { root with focusOrder := ∅, focusFirst := none } := by
  unfold Root.makeFocusOrder
  simp only [focusRuns_eq, h]
  rfl

theorem tabStop_iff (root : Root) (buff : CharBuff) (e : ℕ) :
    (root.makeFocusOrder buff).TabStop buff e ↔ e ∈ tabRuns root.forms buff.cells := by
  rw [← mem_tabRuns, Root.makeFocusOrder_forms]

/-- without a focusable element it is all about the map back, which is left as it was -/
theorem tabCycle_iff_of_nil {root : Root} {buff : CharBuff} (hnil : tabRuns root.forms buff.cells = []) :
    (root.makeFocusOrder buff).TabCycle buff ↔ root.LastRunsInARow buff := by
  have hnone : ¬ ∃ e, (root.makeFocusOrder buff).TabStop buff e := by
    intro ⟨e, he⟩
    rw [tabStop_iff, hnil] at he
    cases he
  have hmade := makeFocusOrder_of_nil hnil
  constructor
  · intro h
    have hback := (h.empty hnone).2
    rw [hmade] at hback
    exact ⟨by rw [hnil]; exact List.suffix_rfl, by rw [hnil]; rfl, fun _ => hback⟩
  · intro h
    refine ⟨fun hsome => absurd hsome hnone, ?_, ?_⟩
    · intro a b
      rw [hmade]
      simp [h.backEmpty hnil]
    · intro _
      rw [hmade]
      exact ⟨rfl, h.backEmpty hnil⟩

/-- with one, the maps are those of the list of runs -/
theorem tabCycle_iff_of_head {root : Root} {buff : CharBuff} {first : ℕ}
    (hhead : (tabRuns root.forms buff.cells).head? = some first) :
    (root.makeFocusOrder buff).TabCycle buff ↔ root.LastRunsInARow buff := by
  have hmade := makeFocusOrder_of_head hhead
  have hne : tabRuns root.forms buff.cells ≠ [] := by
    intro hnil
    rw [hnil] at hhead
    cases hhead
  have hsome : ∃ e, (root.makeFocusOrder buff).TabStop buff e :=
    ⟨first, (tabStop_iff root buff first).2 (List.mem_of_mem_head? hhead)⟩
  have hset : (root.makeFocusOrder buff).TabStop buff = (· ∈ tabRuns root.forms buff.cells) :=
    funext fun e => propext (tabStop_iff root buff e)
  have hkey := isCycle_iff hhead
  constructor
  · intro h
    obtain ⟨first', hfirst, hcycle⟩ := h.cycle hsome
    have hinv := h.inverse
    rw [hset] at hcycle
    rw [hmade] at hfirst hcycle hinv
    cases hfirst
    obtain ⟨hsuffix, hdedup⟩ := hkey.1 ⟨hinv, hcycle⟩
    exact ⟨hsuffix, hdedup.trans hhead.symm, fun hnil => absurd hnil hne⟩
  · intro h
    obtain ⟨hinv, hcycle⟩ := hkey.2 ⟨h.inARow, h.fromFirst.trans hhead⟩
    refine ⟨fun _ => ⟨first, ?_, ?_⟩, ?_, fun hnone => absurd hsome hnone⟩
    · rw [hmade]
    · rw [hset, hmade]
      exact hcycle
    · rw [hmade]
      exact hinv

/-- **Tab goes round all elements exactly when their last runs stand in a row** -/
theorem Root.tabCycle_iff (root : Root) (buff : CharBuff) :
    (root.makeFocusOrder buff).TabCycle buff ↔ root.LastRunsInARow buff := by
  cases hhead : (tabRuns root.forms buff.cells).head? with
  | none => exact tabCycle_iff_of_nil (List.head?_eq_none_iff.1 hhead)
  | some first => exact tabCycle_iff_of_head hhead

/-- a checkbox of two rows, with a button beside each row -/
def sideBySide : List Form :=
  let white : Color := ⟨255, 255, 255⟩
  let black : Color := ⟨0, 0, 0⟩
  [.checkbox ⟨1, 0, 0, 0, black, white, white, black, white, [⟨[], false⟩, ⟨[], false⟩], 0⟩,
    .button ⟨2, 0, 0, 4, black, white, white, black, ['a']⟩,
    .button ⟨3, 0, 1, 4, black, white, white, black, ['b']⟩]

/-- the page of these forms -/
def sideBySideRoot : Option Root := do
  let scenegraph ← SceneGraph.new [Viewport.new 0 0 0 2 7]
  let (_, root) ← (Root.new 2 7 scenegraph).setAllForms sideBySide []
  return root

/-- the first button is followed by the checkbox, which is not preceded by it -/
theorem sideBySide_maps : (match sideBySideRoot.bind Root.render with
    | some (_, root) => decide (root.focusOrder[2]? = some 1) && decide (root.reverseFocusOrder[1]? = some 3)
    | none => false) = true := by
  decide +kernel

/-- **The checkbox has two runs**, so that Tab leaves out the first button -/
theorem Root.side_by_side_skips :
    ¬ ∀ root buff root', Root.render root = some (buff, root') → root'.TabCycle buff := by
  intro hall
  have hmaps := sideBySide_maps
  cases hroot : sideBySideRoot with
  | none =>
    rw [hroot] at hmaps
    exact absurd hmaps (by simp)
  | some root =>
    rw [hroot, Option.bind_some] at hmaps
    cases hrender : root.render with
    | none =>
      rw [hrender] at hmaps
      exact absurd hmaps (by simp)
    | some frame =>
      obtain ⟨buff, root'⟩ := frame
      rw [hrender] at hmaps
      have hmaps := (Bool.and_eq_true_iff.1 hmaps).imp of_decide_eq_true of_decide_eq_true
      have hback := ((hall root buff root' hrender).inverse 2 1).1 hmaps.1
      exact absurd (hback.symm.trans hmaps.2) (by simp)

end Wrb.Ui
