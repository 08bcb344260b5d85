/-
What a frame shows: `Root::make_zbuff` and `Root::make_charbuff` put the viewports on top of each other.

`Frontmost`: of the visible viewports over a place, the one with the most ancestors, and among these the last in the
list.
`Root.Composited`: a new frame has a cell for each place of the pane, with the cell that the front-most viewport has
there, and the z-buffer names that viewport.
`composited_iff`: the panes of some viewports, placed, sized and painted in any way, are composited so exactly where the
viewport in front is within the range of `u64` (`Root.FrontInRange`), if and only if the viewports are listed in the
order `SceneGraph::new` needs (`AncestorsInOrder`). Otherwise some viewport has an ancestor in front of it, where both
cover a place (`OutOfOrder.depth_eq`).
-/
import Mathlib.Tactic
import Wrb.Ui.Front
import Wrb.Ui.Root

namespace Wrb.Ui

open Std Wrb.Forest

/-- `v`, listed at `i` and below its ancestors, is visible and takes the place -/
structure VisibleAt (vps : List Viewport) (row col : UInt64) (i : ℕ) (v : Viewport) (as : List Viewport) : Prop where
  listed : vps[i]? = some v
  ancestors : Ancestors vps v as
  visible : v.visible = true
  covers : Covers v as row col

/-- **The viewport in front**: it has the most ancestors, and of those that have as many it is the last in the list -/
def Frontmost (vps : List Viewport) (row col : UInt64) (v : Viewport) (as : List Viewport) : Prop :=
  ∃ i, VisibleAt vps row col i v as ∧
    ∀ j w bs, VisibleAt vps row col j w bs → bs.length < as.length ∨ bs.length = as.length ∧ j ≤ i

/-- the cell of a buffer at a row and a column; a cell that was never written is blank -/
def CharBuff.cell (b : CharBuff) (row col : ℕ) : CharCell := (b.cells[b.numCols.toNat * row + col]?).getD .blank

/-- the cell whose number is the same to a `u64` -/
def CharBuff.wrappedCell (b : CharBuff) (row col : ℕ) : CharCell :=
  (b.cells[(b.numCols.toNat * row + col) % 2 ^ 64]?).getD .blank

/-- the number of the cell is counted by a `u64`, or wraps to that of a cell that looks the same -/
def CharBuff.InRange (b : CharBuff) (row col : ℕ) : Prop :=
  b.numCols.toNat * row + col < 2 ^ 64 ∨ b.wrappedCell row col = b.cell row col

namespace Root

/-- the scene graph is the one that `SceneGraph::new` builds from the viewports as they are, buffers included -/
def Built (root : Root) : Prop := SceneGraph.new root.scenegraph.viewports = some root.scenegraph

/-- what a frame has at a place, and the viewport found there -/
structure CellRight (root : Root) (buff : CharBuff) (root' : Root) (row col : UInt64) : Prop where
  front : ∀ v as, Frontmost root.scenegraph.viewports row col v as →
    buff.cell row.toNat col.toNat =
      v.buff.cell (row.toNat - (sumPos (v :: as)).1) (col.toNat - (sumPos (v :: as)).2) ∧
    root'.findViewportId row col = some v.id
  empty : (¬ ∃ i v as, VisibleAt root.scenegraph.viewports row col i v as) →
    buff.cell row.toNat col.toNat = .blank ∧ root'.findViewportId row col = none

/-- **A new frame shows the viewports on top of each other** -/
def Composited (root : Root) : Prop :=
  ∃ buff root', root.refresh = some (buff, root') ∧ buff.numCols = root.numCols ∧
    buff.cells.length = root.numRows.toNat * root.numCols.toNat ∧
    ∀ row col, row < root.numRows → col < root.numCols → CellRight root buff root' row col

/-- **The sizes a pane needs**: at every place of it the viewport in front ends before row and column 2^64, and its cell
there is in range -/
def FrontInRange (root : Root) : Prop :=
  ∀ row col v as, row < root.numRows → col < root.numCols → Frontmost root.scenegraph.viewports row col v as →
    Ends v as ∧ v.buff.InRange (row.toNat - (sumPos (v :: as)).1) (col.toNat - (sumPos (v :: as)).2)

/-- a pane built from viewports with the IDs and parents of `vps`, in this order, placed, sized and painted in some way.
No viewport is scrolled: every constructor sets `scroll_offset` to 0, and nothing changes it. The cells of the pane are
counted by a `u64` -/
structure PaneOf (vps : List Viewport) (root : Root) : Prop where
  placed : ∃ place : Viewport → Viewport, (∀ v, (place v).id = v.id) ∧ (∀ v, (place v).parent = v.parent) ∧
    root.scenegraph.viewports = vps.map place
  built : root.Built
  noOverflow : NoOverflow root.scenegraph.viewports
  unscrolled : ∀ v ∈ root.scenegraph.viewports, v.scrollOffset = 0
  fits : root.numRows.toNat * root.numCols.toNat ≤ 2 ^ 64

end Root

/-- where some viewport takes a place, one is in front: `Root.CellRight` says something of every place -/
theorem exists_frontmost {vps : List Viewport} (h : SceneWellFormed vps) {row col : UInt64} {i : ℕ} {v : Viewport}
    {as : List Viewport} (hv : VisibleAt vps row col i v as) : ∃ w bs, Frontmost vps row col w bs := by
  classical
  let n := vps.length
  let P : ℕ → Prop := fun k => ∃ j w bs, VisibleAt vps row col j w bs ∧ k = bs.length * n + j
  have hindex : ∀ {j w bs}, VisibleAt vps row col j w bs → j < n := fun hw => (List.getElem?_eq_some_iff.1 hw.listed).1
  have hbound : ∀ k, P k → k ≤ n * n + n := by
    intro k ⟨j, w, bs, hw, hk⟩
    have hlen := hw.ancestors.length_lt h (List.mem_of_getElem? hw.listed)
    have hj := hindex hw
    have hmul : bs.length * n ≤ n * n := Nat.mul_le_mul_right n hlen.le
    omega
  have hP : P (as.length * n + i) := ⟨i, v, as, hv, rfl⟩
  obtain ⟨j, w, bs, hw, hk⟩ := Nat.findGreatest_spec (hbound _ hP) hP
  refine ⟨w, bs, j, hw, ?_⟩
  intro j' w' bs' hw'
  have hP' : P (bs'.length * n + j') := ⟨j', w', bs', hw', rfl⟩
  have hle := Nat.le_findGreatest (hbound _ hP') hP'
  rw [hk] at hle
  have hj := hindex hw
  have hj' := hindex hw'
  rcases Nat.lt_trichotomy bs'.length bs.length with hlt | heq | hgt
  · exact .inl hlt
  · rw [heq] at hle
    exact .inr ⟨heq, by omega⟩
  · have hmul : (bs.length + 1) * n ≤ bs'.length * n := Nat.mul_le_mul_right n hgt
    rw [Nat.succ_mul] at hmul
    omega

/-! ## The order of drawing -/

theorem VisibleAt.candidate {vps : List Viewport} {row col : UInt64} {i : ℕ} {v : Viewport} {as : List Viewport}
    (h : VisibleAt vps row col i v as) (hends : Ends v as) : Candidate vps row col true v as :=
  ⟨List.mem_of_getElem? h.listed, h.ancestors, fun _ => h.visible, h.covers, hends⟩

theorem Candidate.visibleAt {vps : List Viewport} {row col : UInt64} {i : ℕ} {v : Viewport} {as : List Viewport}
    (h : Candidate vps row col true v as) (hi : vps[i]? = some v) : VisibleAt vps row col i v as :=
  ⟨hi, h.ancestors, h.visible rfl, h.covers⟩

namespace SceneGraph

section Front

variable {g : SceneGraph} {acc : Placing} {row col : UInt64} {i : ℕ} {v : Viewport} {as : List Viewport}

/-- nothing is drawn where no viewport is -/
theorem BuiltFrom.viewportAt_none (hb : BuiltFrom g acc) (h : SceneWellFormed g.viewports)
    (hno : NoOverflow g.viewports) (hnone : ¬ ∃ i v as, VisibleAt g.viewports row col i v as) :
    g.viewportAt row col true = none := by
  cases hfound : g.viewportAt row col true with
  | none => rfl
  | some x =>
    obtain ⟨v, as, -, hc⟩ := hb.candidate_of_viewportAt h hno hfound
    obtain ⟨i, hi⟩ := List.mem_iff_getElem?.1 hc.listed
    exact absurd ⟨i, v, as, hc.visibleAt hi⟩ hnone

/-- what is drawn ends in range -/
theorem BuiltFrom.ends_of_viewportAt (hb : BuiltFrom g acc) (h : SceneWellFormed g.viewports)
    (hno : NoOverflow g.viewports) (hv : VisibleAt g.viewports row col i v as)
    (hfound : g.viewportAt row col true = some v.id) : Ends v as := by
  obtain ⟨w, bs, hid, hc⟩ := hb.candidate_of_viewportAt h hno hfound
  cases Ancestry.eq_of_key h hc.listed (List.mem_of_getElem? hv.listed) hid
  cases hc.ancestors.unique h hv.ancestors
  exact hc.ends

/-- from a list in order, the viewport in front is drawn, if it ends in range -/
theorem BuiltFrom.viewportAt_front (hb : BuiltFrom g acc) (h : SceneWellFormed g.viewports)
    (hno : NoOverflow g.viewports) (horder : AncestorsInOrder g.viewports)
    (hv : Frontmost g.viewports row col v as) (hends : Ends v as) : g.viewportAt row col true = some v.id := by
  obtain ⟨i, hvis, hfront⟩ := hv
  have hd := depth_eq hb.done horder hvis.listed hvis.ancestors
  refine (hb.viewportAt_iff h hno hvis.listed hvis.ancestors hd).2 ⟨hvis.candidate hends, ?_⟩
  intro j w bs e hw he hc
  cases he.symm.trans (depth_eq hb.done horder hw hc.ancestors)
  have hle := hfront j w bs (hc.visibleAt hw)
  omega

end Front

end SceneGraph

/-! ## The cells of a frame -/

theorem CharBuff.inRange_iff {b : CharBuff} {row col : ℕ} :
    b.InRange row col ↔ b.wrappedCell row col = b.cell row col := by
  constructor
  · rintro (hlt | heq)
    · unfold wrappedCell cell
      rw [Nat.mod_eq_of_lt hlt]
    · exact heq
  · exact Or.inr

theorem CharBuff.charcellAt_getD (b : CharBuff) (row col : UInt64) :
    (b.charcellAt row col).getD .blank = b.wrappedCell row.toNat col.toNat := by
  unfold charcellAt wrappedCell
  rw [UInt64.toNat_add, UInt64.toNat_mul, Nat.mod_add_mod]

/-- an offset that does not overflow is no smaller than the position it starts with -/
theorem NoOverflow.pos_le {vps : List Viewport} (h : NoOverflow vps) {v : Viewport} {as : List Viewport} (hv : v ∈ vps)
    (has : Ancestors vps v as) : v.startRow ≤ (wrappedPos (v :: as)).1 ∧ v.startCol ≤ (wrappedPos (v :: as)).2 := by
  obtain ⟨hrow, hcol⟩ := SceneGraph.wrappedPos_toNat (h v as hv has)
  rw [UInt64.le_iff_toNat_le, UInt64.le_iff_toNat_le, hrow, hcol, SceneGraph.sumPos_cons]
  exact ⟨Nat.le_add_right _ _, Nat.le_add_right _ _⟩

/-- a viewport without scrolling shows the cell of its buffer, relative to where it lies -/
theorem Viewport.cell_of_candidate {vps : List Viewport} (hno : NoOverflow vps) {v : Viewport} {as : List Viewport}
    {row col : UInt64} (hscroll : v.scrollOffset = 0) (h : Candidate vps row col true v as) :
    ((v.translateCoordinate ((wrappedPos (v :: as)).1 - v.startRow, (wrappedPos (v :: as)).2 - v.startCol)
        (row, col)).bind fun rel => v.charcellAt rel.1 rel.2).getD .blank =
      v.buff.wrappedCell (row.toNat - (sumPos (v :: as)).1) (col.toNat - (sumPos (v :: as)).2) := by
  obtain ⟨hrowOf, hcolOf⟩ := SceneGraph.wrappedPos_toNat (hno v as h.listed h.ancestors)
  obtain ⟨hrow, hrow', hcol, hcol'⟩ := h.covers
  obtain ⟨hends, hends'⟩ := h.ends
  have hrows := (SceneGraph.span_iff (wrappedPos (v :: as)).1 v.numRows row).2
    (by rw [hrowOf]; exact ⟨⟨hrow, hrow'⟩, hends⟩)
  have hcols := (SceneGraph.span_iff (wrappedPos (v :: as)).2 v.buff.numCols col).2
    (by rw [hcolOf]; exact ⟨⟨hcol, hcol'⟩, hends'⟩)
  have hsum : ∀ a b : UInt64, a + (b - a) = b := fun a b => by rw [UInt64.add_comm, UInt64.sub_add_cancel]
  have hrel : (row - (wrappedPos (v :: as)).1).toNat = row.toNat - (sumPos (v :: as)).1 := by
    rw [UInt64.toNat_sub_of_le _ _ hrows.1, hrowOf]
  have hrel' : (col - (wrappedPos (v :: as)).2).toNat = col.toNat - (sumPos (v :: as)).2 := by
    rw [UInt64.toNat_sub_of_le _ _ hcols.1, hcolOf]
  have hlt : row - (wrappedPos (v :: as)).1 < v.numRows := by
    rw [UInt64.lt_iff_toNat_lt, hrel]
    omega
  unfold translateCoordinate
  dsimp only
  rw [hsum, hsum, if_neg (UInt64.not_lt.2 hrows.1), if_neg (UInt64.not_le.2 hrows.2), if_neg (UInt64.not_lt.2 hcols.1),
    if_neg (UInt64.not_le.2 hcols.2), Option.bind_some]
  unfold charcellAt
  rw [hscroll, UInt64.add_zero, if_neg (UInt64.not_le.2 hlt), CharBuff.charcellAt_getD, hrel, hrel']

namespace Root

/-- the entry of the z-buffer for a place -/
def entryAt (root : Root) (row col : UInt64) : ZBuffEntry :=
  match root.scenegraph.viewportAt row col true with
  | some viewportId => .viewport viewportId
  | none => .root

/-- rows of columns, one after the other -/
theorem flatMap_rows {α : Type} (rows cols : ℕ) (f : ℕ → ℕ → α) :
    ((List.range rows).flatMap fun r => (List.range cols).map (f r)) =
      (List.range (rows * cols)).map fun i => f (i / cols) (i % cols) := by
  induction rows with
  | zero => simp
  | succ rows ih =>
    rw [List.range_succ, List.flatMap_append, ih, List.flatMap_singleton, Nat.succ_mul, List.range_add, List.map_append,
      List.map_map]
    congr 1
    refine List.map_congr_left ?_
    intro c hc
    have hc := List.mem_range.1 hc
    have hpos : 0 < cols := by omega
    dsimp only [Function.comp]
    rw [Nat.mul_comm, Nat.mul_add_div hpos, Nat.div_eq_of_lt hc, Nat.add_zero, Nat.mul_add_mod, Nat.mod_eq_of_lt hc]

theorem makeZbuff_eq (root : Root) : root.makeZbuff =
    (List.range (root.numRows.toNat * root.numCols.toNat)).map fun i =>
      root.entryAt (UInt64.ofNat (i / root.numCols.toNat)) (UInt64.ofNat (i % root.numCols.toNat)) :=
  flatMap_rows _ _ fun r c => root.entryAt (UInt64.ofNat r) (UInt64.ofNat c)

/-- a frame for a new z-buffer -/
theorem refresh_eq {root : Root} {cells : ℕ → CharCell}
    (hcells : ∀ i < root.numRows.toNat * root.numCols.toNat,
      root.zbuffCell i (root.entryAt (UInt64.ofNat (i / root.numCols.toNat)) (UInt64.ofNat (i % root.numCols.toNat))) =
        some (cells i)) :
    ∃ buff root', root.refresh = some (buff, root') ∧ buff.numCols = root.numCols ∧
      buff.cells = (List.range (root.numRows.toNat * root.numCols.toNat)).map cells ∧
      root'.zbuff = some root.makeZbuff ∧ root'.numCols = root.numCols := by
  let entry := fun i : ℕ =>
    root.entryAt (UInt64.ofNat (i / root.numCols.toNat)) (UInt64.ofNat (i % root.numCols.toNat))
  have hindexed : ((List.range (root.numRows.toNat * root.numCols.toNat)).map entry).zipIdx =
      (List.range (root.numRows.toNat * root.numCols.toNat)).map fun i => (entry i, i) := by
    refine List.ext_getElem (by simp) ?_
    intro i hi hi'
    simp
  have hcompute : root.makeZbuff.zipIdx.mapM (fun e => root.zbuffCell e.2 e.1) =
      some ((List.range (root.numRows.toNat * root.numCols.toNat)).map cells) := by
    rw [makeZbuff_eq, hindexed, List.mapM_map]
    refine SceneGraph.mapM_eq_some ?_
    intro i hi
    exact hcells i (List.mem_range.1 hi)
  let buff : CharBuff := ⟨root.numCols, (List.range (root.numRows.toNat * root.numCols.toNat)).map cells⟩
  refine ⟨buff, ({ root with zbuff := some root.makeZbuff } : Root).makeFocusOrder buff, ?_, rfl, rfl,
    makeFocusOrder_zbuff _ _, makeFocusOrder_numCols _ _⟩
  have hframe : ({ root with zbuff := none } : Root).makeCharbuff =
      some (buff, { root with zbuff := some root.makeZbuff }) := by
    unfold makeCharbuff
    change (root.makeZbuff.zipIdx.mapM fun e => root.zbuffCell e.2 e.1) >>= _ = _
    rw [hcompute]
    rfl
  unfold refresh render
  rw [hframe]
  rfl

variable {root : Root} {acc : SceneGraph.Placing}

/-- the cell drawn for a viewport that is found at the place -/
theorem zbuffCell_viewport (hb : root.scenegraph.BuiltFrom acc) (h : SceneWellFormed root.scenegraph.viewports)
    (hno : NoOverflow root.scenegraph.viewports) {v : Viewport} {as : List Viewport} (hscroll : v.scrollOffset = 0)
    {i : ℕ} {row col : UInt64} (hrow : UInt64.ofNat (i / root.numCols.toNat) = row)
    (hcol : UInt64.ofNat (i % root.numCols.toNat) = col)
    (hv : Candidate root.scenegraph.viewports row col true v as) :
    root.zbuffCell i (.viewport v.id) =
      some (v.buff.wrappedCell (row.toNat - (sumPos (v :: as)).1) (col.toNat - (sumPos (v :: as)).2)) := by
  obtain ⟨k, hk⟩ := List.mem_iff_getElem?.1 hv.listed
  obtain ⟨hrows, hcols⟩ := hno.pos_le hv.listed hv.ancestors
  have hcoords : root.scenegraph.viewportCoords v.id = some (wrappedPos (v :: as)) := by
    unfold SceneGraph.viewportCoords SceneGraph.absCoords
    rw [hb.offset hv.listed hv.ancestors]
    simp
  have hcell := Viewport.cell_of_candidate hno hscroll hv
  unfold zbuffCell
  simp only [hb.ref h hk, hcoords, hrow, hcol, Option.bind_eq_bind, Option.bind_some, if_pos hrows, if_pos hcols]
  rw [hcell]
  rfl

/-- the index of a place in the cells of a pane -/
theorem index_toNat {rows cols row col : UInt64} (hfit : rows.toNat * cols.toNat ≤ 2 ^ 64) (hrow : row < rows)
    (hcol : col < cols) : (cols * row + col).toNat = row.toNat * cols.toNat + col.toNat ∧
      row.toNat * cols.toNat + col.toNat < rows.toNat * cols.toNat := by
  rw [UInt64.lt_iff_toNat_lt] at hrow hcol
  have hmul : (row.toNat + 1) * cols.toNat ≤ rows.toNat * cols.toNat := Nat.mul_le_mul_right _ hrow
  rw [Nat.succ_mul] at hmul
  have hprod : (cols * row).toNat = row.toNat * cols.toNat := by
    rw [UInt64.toNat_mul, Nat.mul_comm]
    exact Nat.mod_eq_of_lt (by omega)
  refine ⟨?_, by omega⟩
  rw [UInt64.toNat_add, hprod]
  exact Nat.mod_eq_of_lt (by omega)

theorem place_of_index {cols row col : UInt64} (hcol : col < cols) :
    UInt64.ofNat ((row.toNat * cols.toNat + col.toNat) / cols.toNat) = row ∧
      UInt64.ofNat ((row.toNat * cols.toNat + col.toNat) % cols.toNat) = col := by
  have hlt : col.toNat < cols.toNat := UInt64.lt_iff_toNat_lt.1 hcol
  have hdiv : (row.toNat * cols.toNat + col.toNat) / cols.toNat = row.toNat := by
    rw [Nat.mul_comm, Nat.mul_add_div (by omega), Nat.div_eq_of_lt hlt, Nat.add_zero]
  have hmod : (row.toNat * cols.toNat + col.toNat) % cols.toNat = col.toNat := by
    rw [Nat.mul_comm, Nat.mul_add_mod, Nat.mod_eq_of_lt hlt]
  rw [hdiv, hmod, UInt64.ofNat_toNat, UInt64.ofNat_toNat]
  exact ⟨rfl, rfl⟩

/-- with the z-buffer of a frame, a place is looked up as the scene graph has it -/
theorem findViewportId_eq {root' : Root} (hzbuff : root'.zbuff = some root.makeZbuff)
    (hcols : root'.numCols = root.numCols)
    (hfit : root.numRows.toNat * root.numCols.toNat ≤ 2 ^ 64) {row col : UInt64} (hrow : row < root.numRows)
    (hcol : col < root.numCols) : root'.findViewportId row col = root.scenegraph.viewportAt row col true := by
  obtain ⟨hindex, hlt⟩ := index_toNat hfit hrow hcol
  obtain ⟨hrowOf, hcolOf⟩ := @place_of_index _ row _ hcol
  have hentry : root.makeZbuff[row.toNat * root.numCols.toNat + col.toNat]? = some (root.entryAt row col) := by
    rw [makeZbuff_eq, List.getElem?_map, List.getElem?_range hlt, Option.map_some, hrowOf, hcolOf]
  unfold findViewportId
  simp only [hzbuff, hcols, UInt64.mul_comm row, hindex, hentry, Option.bind_eq_bind, Option.bind_some]
  unfold entryAt
  cases root.scenegraph.viewportAt row col true <;> rfl

/-- what is drawn at a place of a frame: the cell of the viewport that is found there, or a blank -/
structure Drawn (root : Root) (buff : CharBuff) (root' : Root) (row col : UInt64) : Prop where
  found : root'.findViewportId row col = root.scenegraph.viewportAt row col true
  viewport : ∀ v as, Candidate root.scenegraph.viewports row col true v as →
    root.scenegraph.viewportAt row col true = some v.id → buff.cell row.toNat col.toNat =
      v.buff.wrappedCell (row.toNat - (sumPos (v :: as)).1) (col.toNat - (sumPos (v :: as)).2)
  blank : root.scenegraph.viewportAt row col true = none → buff.cell row.toNat col.toNat = .blank

/-- a frame of a pane, whatever the order of its viewports -/
theorem refresh_drawn (hb : root.scenegraph.BuiltFrom acc) (h : SceneWellFormed root.scenegraph.viewports)
    (hno : NoOverflow root.scenegraph.viewports) (hscroll : ∀ v ∈ root.scenegraph.viewports, v.scrollOffset = 0)
    (hfit : root.numRows.toNat * root.numCols.toNat ≤ 2 ^ 64) :
    ∃ buff root', root.refresh = some (buff, root') ∧ buff.numCols = root.numCols ∧
      buff.cells.length = root.numRows.toNat * root.numCols.toNat ∧
      ∀ row col, row < root.numRows → col < root.numCols → Drawn root buff root' row col := by
  -- a cell is drawn at every place
  have hexists : ∀ i, ∃ cell, root.zbuffCell i (root.entryAt (UInt64.ofNat (i / root.numCols.toNat))
      (UInt64.ofNat (i % root.numCols.toNat))) = some cell := by
    intro i
    unfold entryAt
    cases hfound : root.scenegraph.viewportAt (UInt64.ofNat (i / root.numCols.toNat))
        (UInt64.ofNat (i % root.numCols.toNat)) true with
    | none => exact ⟨.blank, rfl⟩
    | some x =>
      obtain ⟨v, as, rfl, hc⟩ := hb.candidate_of_viewportAt h hno hfound
      exact ⟨_, zbuffCell_viewport hb h hno (hscroll v hc.listed) rfl rfl hc⟩
  choose cells hcells using hexists
  obtain ⟨buff, root', hrefresh, hcols, hbuff, hzbuff, hcols'⟩ := @refresh_eq root cells fun i _ => hcells i
  refine ⟨buff, root', hrefresh, hcols, by rw [hbuff, List.length_map, List.length_range], ?_⟩
  intro row col hrow hcol
  obtain ⟨-, hlt⟩ := index_toNat hfit hrow hcol
  obtain ⟨hrowOf, hcolOf⟩ := @place_of_index _ row _ hcol
  have hcell : buff.cell row.toNat col.toNat = cells (row.toNat * root.numCols.toNat + col.toNat) := by
    unfold CharBuff.cell
    rw [hcols, Nat.mul_comm, hbuff, List.getElem?_map, List.getElem?_range hlt]
    rfl
  have hdraw := hcells (row.toNat * root.numCols.toNat + col.toNat)
  rw [hrowOf, hcolOf] at hdraw
  refine ⟨findViewportId_eq hzbuff hcols' hfit hrow hcol, ?_, ?_⟩
  · intro v as hc hfound
    unfold entryAt at hdraw
    rw [hfound] at hdraw
    rw [hcell]
    exact Option.some.inj (hdraw.symm.trans (zbuffCell_viewport hb h hno (hscroll v hc.listed) hrowOf hcolOf hc))
  · intro hfound
    unfold entryAt at hdraw
    rw [hfound] at hdraw
    rw [hcell]
    exact (Option.some.inj hdraw).symm

/-- viewports listed in order are composited, if those in front are in range -/
theorem composited_of_order (hbuilt : root.Built) (h : SceneWellFormed root.scenegraph.viewports)
    (horder : AncestorsInOrder root.scenegraph.viewports) (hno : NoOverflow root.scenegraph.viewports)
    (hscroll : ∀ v ∈ root.scenegraph.viewports, v.scrollOffset = 0)
    (hfit : root.numRows.toNat * root.numCols.toNat ≤ 2 ^ 64) (hrange : root.FrontInRange) : root.Composited := by
  obtain ⟨acc, hb⟩ := SceneGraph.builtFrom_of_new h hbuilt
  obtain ⟨buff, root', hrefresh, hcols, hlen, hdrawn⟩ := refresh_drawn hb h hno hscroll hfit
  refine ⟨buff, root', hrefresh, hcols, hlen, ?_⟩
  intro row col hrow hcol
  have hdrawn := hdrawn row col hrow hcol
  constructor
  · intro v as hfront
    obtain ⟨hends, hinRange⟩ := hrange row col v as hrow hcol hfront
    have hfound := hb.viewportAt_front h hno horder hfront hends
    obtain ⟨i, hvis, -⟩ := hfront
    rw [← CharBuff.inRange_iff.1 hinRange, hdrawn.found]
    exact ⟨hdrawn.viewport v as (hvis.candidate hends) hfound, hfound⟩
  · intro hnone
    have hfound := hb.viewportAt_none h hno hnone
    rw [hdrawn.found]
    exact ⟨hdrawn.blank hfound, hfound⟩

/-- what is composited shows that the viewports in front are in range -/
theorem inRange_of_composited (hbuilt : root.Built) (h : SceneWellFormed root.scenegraph.viewports)
    (hno : NoOverflow root.scenegraph.viewports) (hscroll : ∀ v ∈ root.scenegraph.viewports, v.scrollOffset = 0)
    (hfit : root.numRows.toNat * root.numCols.toNat ≤ 2 ^ 64) (hcomposited : root.Composited) :
    root.FrontInRange := by
  obtain ⟨acc, hb⟩ := SceneGraph.builtFrom_of_new h hbuilt
  obtain ⟨buff, root', hrefresh, -, -, hdrawn⟩ := refresh_drawn hb h hno hscroll hfit
  obtain ⟨buff₁, root₁, hrefresh₁, -, -, hcells⟩ := hcomposited
  cases hrefresh₁.symm.trans hrefresh
  intro row col v as hrow hcol hfront
  obtain ⟨hcell, hfound⟩ := (hcells row col hrow hcol).front v as hfront
  have hdrawn := hdrawn row col hrow hcol
  rw [hdrawn.found] at hfound
  obtain ⟨i, hvis, -⟩ := hfront
  have hends := hb.ends_of_viewportAt h hno hvis hfound
  refine ⟨hends, CharBuff.inRange_iff.2 ?_⟩
  rw [← hcell]
  exact (hdrawn.viewport v as (hvis.candidate hends) hfound).symm

/-- what a frame keeps as its z-buffer -/
theorem refresh_zbuff {root' : Root} {buff : CharBuff} (h : root.refresh = some (buff, root')) :
    root'.zbuff = some root.makeZbuff ∧ root'.numCols = root.numCols := by
  obtain ⟨⟨buff', root''⟩, hframe, hrender⟩ := Option.bind_eq_some_iff.1 h
  obtain ⟨cells, -, hkept⟩ := Option.bind_eq_some_iff.1 hframe
  cases hkept
  cases hrender
  exact ⟨makeFocusOrder_zbuff _ _, makeFocusOrder_numCols _ _⟩

end Root

/-! ## The order of the list -/

/-- the order is one of IDs and parents only -/
theorem AncestorsInOrder.map {vps : List Viewport} (h : SceneWellFormed vps) {place : Viewport → Viewport}
    (hid : ∀ v, (place v).id = v.id) (hparent : ∀ v, (place v).parent = v.parent) (horder : AncestorsInOrder vps) :
    AncestorsInOrder (vps.map place) := by
  intro i v' as' hv' has'
  rw [List.getElem?_map] at hv'
  obtain ⟨v, hv, rfl⟩ := Option.map_eq_some_iff.1 hv'
  obtain ⟨as, has⟩ := h.exists_ancestry (List.mem_of_getElem? hv)
  cases has'.unique (h.map hid hparent) (has.map hid hparent)
  rw [← List.map_take]
  refine (horder i v as hv has).imp ?_ ?_
  · intro hp p' hp'
    rw [List.head?_map] at hp'
    obtain ⟨p, hhead, rfl⟩ := Option.map_eq_some_iff.1 hp'
    exact List.mem_map_of_mem (hp p hhead)
  · intro hnone a' ha' hmem
    obtain ⟨a, ha, rfl⟩ := List.mem_map.1 ha'
    obtain ⟨x, hx, heq⟩ := List.mem_map.1 hmem
    have hxa : x = a :=
      Ancestry.eq_of_key h (List.mem_of_mem_take hx) (has.mem a ha) (by rw [← hid x, heq, hid])
    exact hnone a ha (hxa ▸ hx)

/-- a list has one first element with a property -/
theorem first_unique {α : Type} {P : α → Prop} {front front' back back' : List α} {a a' : α}
    (heq : front ++ a :: back = front' ++ a' :: back') (hfront : ∀ x ∈ front, ¬ P x) (ha : P a)
    (hfront' : ∀ x ∈ front', ¬ P x) (ha' : P a') : a = a' := by
  induction front generalizing front' with
  | nil =>
    cases front' with
    | nil => exact (List.cons.inj heq).1
    | cons x front' => exact absurd ((List.cons.inj heq).1 ▸ ha) (hfront' x List.mem_cons_self)
  | cons x front ih =>
    cases front' with
    | nil => exact absurd ((List.cons.inj heq).1 ▸ ha') (hfront x List.mem_cons_self)
    | cons x' front' =>
      exact ih (List.cons.inj heq).2 (fun y hy => hfront y (List.mem_cons_of_mem x hy))
        fun y hy => hfront' y (List.mem_cons_of_mem x' hy)

namespace SceneGraph

variable {vps : List Viewport}

/-- the depth found at the first ancestor that is listed before -/
theorem depth_of_first (h : SceneWellFormed vps) {acc : Placing} (hdone : Processed vps vps.length acc) {i j : ℕ}
    {v a : Viewport} {front back : List Viewport} (hv : vps[i]? = some v)
    (has : Ancestors vps v (front ++ a :: back)) (hfront : ∀ x ∈ front, x ∉ vps.take i) (ha : vps[j]? = some a)
    (hlt : j < i) : ∃ d, acc.depths[j]? = some d ∧ acc.depths[i]? = some (d + 1) := by
  have hi := (List.getElem?_eq_some_iff.1 hv).1
  have hmem := mem_take_of_getElem? ha hlt
  obtain ⟨d, hd, hfound⟩ := hdone.depth i v _ hi hv has
  rcases hfound with ⟨hnone, -⟩ | ⟨front', a', back', j', d', heq, hfront', ha', hlt', hd', rfl⟩
  · exact absurd hmem (hnone a (by simp))
  · have haa : a = a' :=
      first_unique (P := (· ∈ vps.take i)) heq hfront hmem hfront' (mem_take_of_getElem? ha' hlt')
    subst haa
    have hjj : j = j' := (List.getElem?_inj (by omega) (nodup h)).1 (ha.trans ha'.symm)
    subst hjj
    exact ⟨d', hd', hd⟩

/-- a viewport `v` listed out of order: between it and its first ancestor listed before it, `a`, stands an ancestor `w`
that is listed after it -/
structure OutOfOrder (vps : List Viewport) (i k j : ℕ) (v w a : Viewport) (front back : List Viewport) : Prop where
  listed : vps[i]? = some v
  ancestors : Ancestors vps v (front ++ w :: a :: back)
  below : ∀ x ∈ front ++ [w], x ∉ vps.take i
  after : vps[k]? = some w ∧ i < k
  before : vps[j]? = some a ∧ j < i

theorem exists_outOfOrder (h : SceneWellFormed vps) (hout : ¬ AncestorsInOrder vps) :
    ∃ i k j v w a front back, OutOfOrder vps i k j v w a front back := by
  classical
  simp only [AncestorsInOrder, not_forall] at hout
  obtain ⟨i, v, as, hv, has, hnot⟩ := hout
  rw [not_or] at hnot
  obtain ⟨a, hfind⟩ : ∃ a, as.find? (· ∈ vps.take i) = some a := by
    cases hf : as.find? (· ∈ vps.take i) with
    | some a => exact ⟨a, rfl⟩
    | none => exact absurd (fun a ha => by simpa using List.find?_eq_none.1 hf a ha) hnot.2
  obtain ⟨ha, front, back, rfl, hfront⟩ := List.find?_eq_some_iff_append.1 hfind
  have ha : a ∈ vps.take i := by simpa using ha
  have hfront : ∀ x ∈ front, x ∉ vps.take i := fun x hx => by simpa using hfront x hx
  obtain ⟨front, w, rfl⟩ : ∃ front' w, front = front' ++ [w] := by
    cases front using List.reverseRecOn with
    | nil => exact absurd (fun p hp => by cases hp; exact ha) hnot.1
    | append_singleton front' w => exact ⟨front', w, rfl⟩
  rw [List.append_assoc, List.singleton_append] at has
  obtain ⟨k, hk⟩ := List.mem_iff_getElem?.1 (has.mem w (by simp))
  obtain ⟨j, hj⟩ := List.mem_iff_getElem?.1 (has.mem a (by simp))
  have hik : i < k := by
    rcases Nat.lt_trichotomy k i with hlt | heq | hgt
    · exact absurd (mem_take_of_getElem? hk hlt) (hfront w (by simp))
    · subst heq
      cases hv.symm.trans hk
      exact absurd (has.nodup h (List.mem_of_getElem? hv)) (by simp)
    · exact hgt
  exact ⟨i, k, j, v, w, a, front, back, hv, has, hfront, ⟨hk, hik⟩, hj, lt_of_mem_take (nodup h) hj ha⟩

/-- **Out of order, an ancestor is put in the level of its descendant**: both are one level above the ancestor listed
before them -/
theorem OutOfOrder.depth_eq {i k j : ℕ} {v w a : Viewport} {front back : List Viewport} (h : SceneWellFormed vps)
    (hout : OutOfOrder vps i k j v w a front back) {acc : Placing} (hdone : Processed vps vps.length acc) :
    acc.depths[i]? = acc.depths[k]? := by
  have hvs : Ancestors vps v ((front ++ [w]) ++ a :: back) := by
    rw [← List.append_cons]
    exact hout.ancestors
  have hws : Ancestors vps w ([] ++ a :: back) := hout.ancestors.of_append
  obtain ⟨d, hd, hdv⟩ := depth_of_first h hdone hout.listed hvs hout.below hout.before.1 hout.before.2
  obtain ⟨d', hd', hdw⟩ := depth_of_first h hdone hout.after.1 hws (by simp) hout.before.1
    (hout.before.2.trans hout.after.2)
  cases hd.symm.trans hd'
  rw [hdv, hdw]

/-- the place of viewports does not matter for it -/
theorem OutOfOrder.map {i k j : ℕ} {v w a : Viewport} {front back : List Viewport} {f : Viewport → Viewport}
    (h : SceneWellFormed vps) (hid : ∀ v, (f v).id = v.id) (hparent : ∀ v, (f v).parent = v.parent)
    (hout : OutOfOrder vps i k j v w a front back) :
    OutOfOrder (vps.map f) i k j (f v) (f w) (f a) (front.map f) (back.map f) := by
  have hget : ∀ {n : ℕ} {x : Viewport}, vps[n]? = some x → (vps.map f)[n]? = some (f x) := by
    intro n x hx
    rw [List.getElem?_map, hx]
    rfl
  refine ⟨hget hout.listed, ?_, ?_, ⟨hget hout.after.1, hout.after.2⟩, hget hout.before.1, hout.before.2⟩
  · simpa using hout.ancestors.map (f := f) hid hparent
  · intro x hx hmem
    rw [show front.map f ++ [f w] = (front ++ [w]).map f by simp] at hx
    obtain ⟨y, hy, rfl⟩ := List.mem_map.1 hx
    rw [← List.map_take] at hmem
    obtain ⟨z, hz, heq⟩ := List.mem_map.1 hmem
    have hyvps : y ∈ vps := hout.ancestors.mem y (by
      rw [List.append_cons]
      exact List.mem_append_left _ hy)
    have hzy : z = y := Ancestry.eq_of_key h (List.mem_of_mem_take hz) hyvps (by rw [← hid z, heq, hid])
    exact hout.below y hy (hzy ▸ hz)

end SceneGraph

namespace Root

/-- put two viewports over the first place of the pane, and hide all others -/
def overlap (x y : ℕ) (v : Viewport) : Viewport :=
  { v with
    startRow := 0, startCol := 0, numRows := 1, scrollOffset := 0, visible := decide (v.id = x ∨ v.id = y)
    buff := CharBuff.new 1 }

theorem sumPos_of_zero {l : List Viewport} (h : ∀ v ∈ l, v.startRow = 0 ∧ v.startCol = 0) : sumPos l = (0, 0) := by
  induction l with
  | nil => rfl
  | cons v l ih =>
    have hrest := ih fun w hw => h w (List.mem_cons_of_mem v hw)
    have hv := h v List.mem_cons_self
    rw [SceneGraph.sumPos_cons, hrest, hv.1, hv.2]
    rfl

section Overlap

variable {vps : List Viewport} (x y : ℕ)

theorem overlap_wellFormed (h : SceneWellFormed vps) : SceneWellFormed (vps.map (overlap x y)) :=
  h.map (fun _ => rfl) fun _ => rfl

theorem overlap_zero {u : Viewport} (hu : u ∈ vps.map (overlap x y)) : u.startRow = 0 ∧ u.startCol = 0 := by
  obtain ⟨v, -, rfl⟩ := List.mem_map.1 hu
  exact ⟨rfl, rfl⟩

theorem overlap_zero_ancestors {u : Viewport} {us : List Viewport} (hu : u ∈ vps.map (overlap x y))
    (hus : Ancestors (vps.map (overlap x y)) u us) : ∀ a ∈ u :: us, a.startRow = 0 ∧ a.startCol = 0 := by
  intro a ha
  rcases List.mem_cons.1 ha with rfl | ha
  · exact overlap_zero x y hu
  · exact overlap_zero x y (hus.mem a ha)

/-- the two viewports take the first place of the pane -/
theorem overlap_visibleAt {n : ℕ} {u : Viewport} {us : List Viewport} (hu : vps[n]? = some u)
    (hus : Ancestors vps u us) (hor : u.id = x ∨ u.id = y) :
    VisibleAt (vps.map (overlap x y)) 0 0 n (overlap x y u) (us.map (overlap x y)) := by
  have hone : (0 : UInt64) < 1 := by decide
  have hplace : Ancestors (vps.map (overlap x y)) (overlap x y u) (us.map (overlap x y)) :=
    hus.map (f := overlap x y) (fun _ => rfl) fun _ => rfl
  have hmem : overlap x y u ∈ vps.map (overlap x y) := List.mem_map_of_mem (List.mem_of_getElem? hu)
  refine ⟨by rw [List.getElem?_map, hu]; rfl, hplace, decide_eq_true hor, ?_⟩
  unfold Covers
  rw [sumPos_of_zero (overlap_zero_ancestors x y hmem hplace)]
  exact ⟨UInt64.le_refl 0, hone, UInt64.le_refl 0, hone⟩

/-- no other viewport takes a place -/
theorem overlap_only (h : SceneWellFormed vps) {n : ℕ} {u : Viewport} {us : List Viewport}
    (hu : VisibleAt (vps.map (overlap x y)) 0 0 n u us) {i k : ℕ} {v w : Viewport} {as bs : List Viewport}
    (hv : vps[i]? = some v) (hw : vps[k]? = some w) (hvx : v.id = x) (hwy : w.id = y) (has : Ancestors vps v as)
    (hbs : Ancestors vps w bs) :
    (n = i ∧ us = as.map (overlap x y)) ∨ (n = k ∧ us = bs.map (overlap x y)) := by
  have hlisted := hu.listed
  rw [List.getElem?_map] at hlisted
  obtain ⟨u₀, hu₀, rfl⟩ := Option.map_eq_some_iff.1 hlisted
  have hplaced := overlap_wellFormed x y h
  rcases of_decide_eq_true hu.visible with hid | hid
  · obtain ⟨rfl, rfl⟩ := SceneGraph.index_of_id h hu₀ hv (hid.trans hvx.symm)
    exact .inl ⟨rfl, hu.ancestors.unique hplaced (has.map (f := overlap x y) (fun _ => rfl) fun _ => rfl)⟩
  · obtain ⟨rfl, rfl⟩ := SceneGraph.index_of_id h hu₀ hw (hid.trans hwy.symm)
    exact .inr ⟨rfl, hu.ancestors.unique hplaced (hbs.map (f := overlap x y) (fun _ => rfl) fun _ => rfl)⟩

/-- a pane of one place built from them -/
theorem paneOf_overlap {g : SceneGraph} (hg : SceneGraph.new (vps.map (overlap x y)) = some g)
    (hvps : g.viewports = vps.map (overlap x y)) : PaneOf vps (Root.new 1 1 g) := by
  have hfit : (1 : UInt64).toNat * (1 : UInt64).toNat ≤ 2 ^ 64 := by decide
  refine ⟨⟨overlap x y, fun _ => rfl, fun _ => rfl, hvps⟩, ?_, ?_, ?_, hfit⟩
  · change SceneGraph.new g.viewports = some g
    rw [hvps, hg]
  · intro u us hu hus
    change u ∈ g.viewports at hu
    change Ancestors g.viewports u us at hus
    rw [hvps] at hu hus
    rw [sumPos_of_zero (overlap_zero_ancestors x y hu hus)]
    exact ⟨Nat.two_pow_pos 64, Nat.two_pow_pos 64⟩
  · intro u hu
    change u ∈ g.viewports at hu
    rw [hvps] at hu
    obtain ⟨v, -, rfl⟩ := List.mem_map.1 hu
    rfl

theorem overlap_ends {u : Viewport} {us : List Viewport} (hu : u ∈ vps.map (overlap x y))
    (hus : Ancestors (vps.map (overlap x y)) u us) : Ends u us := by
  have hone : 0 + (1 : UInt64).toNat < 2 ^ 64 := by decide
  unfold Ends
  rw [sumPos_of_zero (overlap_zero_ancestors x y hu hus)]
  obtain ⟨v, -, rfl⟩ := List.mem_map.1 hu
  exact ⟨hone, hone⟩

/-- all of them are in range -/
theorem inRange_overlap {g : SceneGraph} (hvps : g.viewports = vps.map (overlap x y)) :
    (Root.new 1 1 g).FrontInRange := by
  intro row col v as hrow hcol hfront
  obtain ⟨i, hvis, -⟩ := hfront
  change VisibleAt g.viewports row col i v as at hvis
  rw [hvps] at hvis
  have hmem := List.mem_of_getElem? hvis.listed
  have hrow0 : row.toNat < 1 := UInt64.lt_iff_toNat_lt.1 hrow
  have hcol0 : col.toNat < 1 := UInt64.lt_iff_toNat_lt.1 hcol
  refine ⟨overlap_ends x y hmem hvis.ancestors, .inl ?_⟩
  rw [Nat.lt_one_iff.1 hrow0, Nat.lt_one_iff.1 hcol0, Nat.zero_sub, Nat.zero_sub]
  exact Nat.two_pow_pos 64

end Overlap

/-- where all that are in range are composited, the list is in order -/
theorem order_of_composited {vps : List Viewport} (h : SceneWellFormed vps)
    (hall : ∀ root, PaneOf vps root → root.FrontInRange → root.Composited) : AncestorsInOrder vps := by
  by_contra hout
  obtain ⟨i, k, j, v, w, a, front, back, hout⟩ := SceneGraph.exists_outOfOrder h hout
  have hv := hout.listed
  obtain ⟨hw, hik⟩ := hout.after
  have has := hout.ancestors
  have hbs : Ancestors vps w (a :: back) := has.of_append
  let place := overlap v.id w.id
  have hplaced : SceneWellFormed (vps.map place) := overlap_wellFormed v.id w.id h
  obtain ⟨tree, acc, -, -, hnew⟩ := SceneGraph.new_returns hplaced
  obtain ⟨g, hg, hvps⟩ : ∃ g, SceneGraph.new (vps.map place) = some g ∧ g.viewports = vps.map place := ⟨_, hnew, rfl⟩
  have hone : (0 : UInt64) < 1 := by decide
  have hpane : PaneOf vps (Root.new 1 1 g) := paneOf_overlap v.id w.id hg hvps
  have honly : ∀ {n u us}, VisibleAt g.viewports 0 0 n u us →
      (n = i ∧ us = (front ++ w :: a :: back).map place) ∨ (n = k ∧ us = (a :: back).map place) :=
    fun hu => overlap_only v.id w.id h (hvps ▸ hu) hv hw rfl rfl has hbs
  -- the descendant is in front, and has to be found
  have hfront : Frontmost g.viewports 0 0 (place v) ((front ++ w :: a :: back).map place) := by
    refine ⟨i, hvps ▸ overlap_visibleAt v.id w.id hv has (.inl rfl), ?_⟩
    intro n u us hu
    rcases honly hu with ⟨rfl, rfl⟩ | ⟨rfl, rfl⟩
    · exact .inr ⟨rfl, Nat.le_refl n⟩
    · rw [List.length_map, List.length_map]
      refine .inl ?_
      simp only [List.length_append, List.length_cons]
      omega
  obtain ⟨buff, root', hrefresh, -, -, hcells⟩ := hall (Root.new 1 1 g) hpane (inRange_overlap v.id w.id hvps)
  have hfound := ((hcells 0 0 hone hone).front _ _ hfront).2
  obtain ⟨hzbuff, hcols⟩ := refresh_zbuff hrefresh
  rw [findViewportId_eq hzbuff hcols hpane.fits hone hone] at hfound
  -- the ancestor is drawn instead
  have hwf : SceneWellFormed g.viewports := hvps ▸ hplaced
  obtain ⟨acc, hb⟩ := SceneGraph.builtFrom_of_new hwf hpane.built
  have hdone := hb.done
  rw [hvps] at hdone
  have hsame := (hout.map (f := place) h (fun _ => rfl) fun _ => rfl).depth_eq hplaced hdone
  obtain ⟨d, hd, -⟩ := SceneGraph.depth_le hdone (by rw [List.getElem?_map, hw]; rfl)
    (hbs.map (f := place) (fun _ => rfl) fun _ => rfl)
  have hvis := overlap_visibleAt v.id w.id hw hbs (.inr rfl)
  rw [← hvps] at hvis
  have hends : Ends (place w) ((a :: back).map place) := by
    refine overlap_ends v.id w.id (List.mem_map_of_mem (List.mem_of_getElem? hw)) ?_
    exact hvps ▸ hvis.ancestors
  have hdrawn : g.viewportAt 0 0 true = some (place w).id := by
    refine (hb.viewportAt_iff hwf hpane.noOverflow hvis.listed hvis.ancestors hd).2 ⟨hvis.candidate hends, ?_⟩
    intro n u us e hu he hc
    rcases honly (hc.visibleAt hu) with ⟨rfl, -⟩ | ⟨rfl, -⟩
    · cases hd.symm.trans (hsame.symm.trans he)
      omega
    · cases hd.symm.trans he
      omega
  have hids := Option.some.inj (hfound.symm.trans hdrawn)
  obtain ⟨rfl, -⟩ := SceneGraph.index_of_id h hv hw hids
  exact Nat.lt_irrefl i hik

/-- **Exactly when panes are composited**: for every well-formed list of viewports, the panes built from them, wherever
they are placed and whatever is painted on them, show at every place the cell of the viewport in front, or a blank, and
find that viewport there, exactly where the viewports in front are in range, if and only if no viewport is listed before
its parent but after another of its ancestors. -/
theorem composited_iff (vps : List Viewport) (h : SceneWellFormed vps) :
    (∀ root, PaneOf vps root → (root.Composited ↔ root.FrontInRange)) ↔ AncestorsInOrder vps := by
  constructor
  · intro hall
    exact order_of_composited h fun root hpane => (hall root hpane).2
  · intro horder root hpane
    obtain ⟨place, hid, hparent, hvps⟩ := hpane.placed
    have hwf : SceneWellFormed root.scenegraph.viewports := by
      rw [hvps]
      exact h.map hid hparent
    have hordered : AncestorsInOrder root.scenegraph.viewports := by
      rw [hvps]
      exact horder.map h hid hparent
    constructor
    · exact inRange_of_composited hpane.built hwf hpane.noOverflow hpane.unscrolled hpane.fits
    · exact composited_of_order hpane.built hwf hordered hpane.noOverflow hpane.unscrolled hpane.fits

/-- a root and a child: their panes are composited where they are in range -/
theorem composited_iff_child :
    (∀ root, PaneOf [Viewport.new 0 0 0 4 4, Viewport.newChild 1 0 1 1 2 2] root →
      (root.Composited ↔ root.FrontInRange)) ↔
      AncestorsInOrder [Viewport.new 0 0 0 4 4, Viewport.newChild 1 0 1 1 2 2] :=
  composited_iff _ (SceneGraph.wellFormed_of_ids (by decide) (by simp [Viewport.new, Viewport.newChild]))

/-- **A parent in front of its child**, listed root, grandchild, child -/
theorem parent_in_front : ¬ ∀ vps, SceneWellFormed vps → ∀ root, PaneOf vps root → root.Composited := by
  intro hall
  refine SceneGraph.grandchildFirst_out_of_order (order_of_composited SceneGraph.grandchildFirst_wellFormed ?_)
  intro root hpane _
  exact hall _ SceneGraph.grandchildFirst_wellFormed root hpane

end Root

end Wrb.Ui
