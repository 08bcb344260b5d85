/-
The cached z-buffer of a pane, over runs of its operations.

Layers:
- what a scene graph depends on: the IDs, parents and positions of its viewports (`new_of_samePlace`), and which
  viewport it shows at a place also on their sizes and visibility (`viewportAt_of_sameFrame`);
- what an operation does to the viewports (`Relaid`): painting keeps their frames (`Form.paint_sameFrame`), a
  `FrameUpdate` sets what its last update of each viewport says (`mergeUpdates_spec`);
- the invariant `Cached`: the scene graph is the one that `SceneGraph::new` builds from the viewports as they are, and a
  z-buffer that is kept is the one this graph gives.

Results:
- `run_coherent`: over every run whose updates keep all positions, and while a z-buffer is kept all sizes and
  visibilities, the z-buffer is that of the viewports as they are, and `render` and `refresh` give the same frame;
- `hidden_viewport_shown`: an update hides a viewport, and `render` shows it on. Nothing resets the z-buffer or the
  offsets when `update_forms` merges the settings of a viewport.
-/
import Mathlib.Tactic
import Wrb.Lib.Runs
import Wrb.Ui.Compose

namespace Wrb.Ui

open Std Wrb.TreeMap

/-- a viewport that stands where it stood -/
structure SamePlace (v v' : Viewport) : Prop where
  id : v'.id = v.id
  parent : v'.parent = v.parent
  pos : v'.pos = v.pos

theorem SamePlace.startRow {v v' : Viewport} (h : SamePlace v v') : v'.startRow = v.startRow := congrArg Prod.fst h.pos

theorem SamePlace.startCol {v v' : Viewport} (h : SamePlace v v') : v'.startCol = v.startCol := congrArg Prod.snd h.pos

theorem SameFrame.samePlace {v v' : Viewport} (h : SameFrame v v') : SamePlace v v' := ⟨h.id, h.parent, h.pos⟩

theorem SameFrame.numRows {v v' : Viewport} (h : SameFrame v v') : v'.numRows = v.numRows := congrArg Prod.fst h.dims

theorem SameFrame.numCols {v v' : Viewport} (h : SameFrame v v') : v'.buff.numCols = v.buff.numCols :=
  congrArg Prod.snd h.dims

namespace SceneGraph

/-! ## What a scene graph depends on -/

section Map

variable {f : Viewport → Viewport}

theorem tableOf_map (h : ∀ v, SamePlace v (f v)) (vps : List Viewport) : tableOf (vps.map f) = tableOf vps := by
  unfold tableOf
  rw [List.zipIdx_map, List.map_map]
  refine congrArg table (List.map_congr_left ?_)
  intro e _
  exact Prod.ext (h e.1).id rfl

theorem treeOf_map (h : ∀ v, SamePlace v (f v)) (vps : List Viewport) : treeOf (vps.map f) = treeOf vps := by
  unfold treeOf
  rw [List.mapM_map, tableOf_map h]
  simp only [Function.comp_def, (h _).parent, (h _).id]

theorem walk_map (h : ∀ v, SamePlace v (f v)) (vps : List Viewport) (tree : ExtTreeMap ℕ (Option ℕ)) (acc : Placing)
    (fuel : ℕ) (row col : UInt64) (id depth : ℕ) :
    walk (vps.map f) tree acc fuel (row, col) id depth = walk vps tree acc fuel (row, col) id depth := by
  induction fuel generalizing row col id depth with
  | zero => rfl
  | succ fuel ih =>
    unfold walk
    cases tree[id]? with
    | none => rfl
    | some parent =>
      cases parent with
      | none => rfl
      | some i =>
        dsimp only
        rw [List.getElem?_map]
        cases vps[i]? with
        | none => rfl
        | some p =>
          simp only [Option.map_some, Option.bind_eq_bind, Option.bind_some, (h p).id, (h p).startRow, (h p).startCol,
            ih]

theorem placeAll_map (h : ∀ v, SamePlace v (f v)) (vps : List Viewport) (tree : ExtTreeMap ℕ (Option ℕ))
    (l : List Viewport) (acc : Placing) : placeAll (vps.map f) tree (l.map f) acc = placeAll vps tree l acc := by
  induction l generalizing acc with
  | nil => rfl
  | cons v l ih =>
    rw [List.map_cons, placeAll, placeAll, (h v).pos, (h v).id, List.length_map]
    simp only [Viewport.pos, walk_map h, ih]

theorem hierarchyOf_map (h : ∀ v, SamePlace v (f v)) (vps : List Viewport) (depths : List ℕ) :
    hierarchyOf (vps.map f) depths = hierarchyOf vps depths := by
  unfold hierarchyOf
  rw [List.zip_map_left, List.foldl_map]
  simp only [Prod.map_fst, Prod.map_snd, (h _).id, id]

/-- viewports that stand where they stood give the same graph -/
theorem new_map (h : ∀ v, SamePlace v (f v)) (vps : List Viewport) :
    SceneGraph.new (vps.map f) = (SceneGraph.new vps).map fun g => { g with viewports := vps.map f } := by
  unfold SceneGraph.new
  rw [treeOf_map h, tableOf_map h]
  cases treeOf vps with
  | none => rfl
  | some tree =>
    simp only [Option.bind_eq_bind, Option.bind_some, placeAll_map h]
    cases placeAll vps tree vps ⟨∅, []⟩ with
    | none => rfl
    | some placing =>
      simp only [Option.bind_some, hierarchyOf_map h]
      rfl

end Map

theorem new_viewports {vps : List Viewport} {g : SceneGraph} (h : SceneGraph.new vps = some g) : g.viewports = vps := by
  obtain ⟨tree, -, h⟩ := Option.bind_eq_some_iff.1 h
  obtain ⟨placing, -, h⟩ := Option.bind_eq_some_iff.1 h
  cases h
  rfl

/-- a viewport of which only the place is left -/
def placeOf (v : Viewport) : Viewport := ⟨v.id, v.startRow, v.startCol, 0, 0, true, v.parent, CharBuff.new 0, ∅⟩

/-- a viewport without its cells -/
def frameOf (v : Viewport) : Viewport := { v with buff := CharBuff.new v.buff.numCols, elementCoords := ∅ }

theorem map_placeOf_eq {vps vps' : List Viewport} (h : List.Forall₂ SamePlace vps vps') :
    vps'.map placeOf = vps.map placeOf := by
  induction h with
  | nil => rfl
  | cons hv _ ih =>
    rw [List.map_cons, List.map_cons, ih]
    congr 1
    unfold placeOf
    rw [hv.id, hv.parent, hv.startRow, hv.startCol]

theorem map_frameOf_eq {vps vps' : List Viewport} (h : List.Forall₂ SameFrame vps vps') :
    vps'.map frameOf = vps.map frameOf := by
  induction h with
  | nil => rfl
  | cons hv _ ih =>
    rw [List.map_cons, List.map_cons, ih]
    congr 1
    unfold frameOf
    rw [hv.id, hv.parent, hv.samePlace.startRow, hv.samePlace.startCol, hv.numRows, hv.numCols, hv.visible, hv.scroll]

/-- **A graph depends on the places of its viewports only** -/
theorem new_of_samePlace {vps vps' : List Viewport} {g : SceneGraph} (h : List.Forall₂ SamePlace vps vps')
    (hg : SceneGraph.new vps = some g) : SceneGraph.new vps' = some { g with viewports := vps' } := by
  have hplace : ∀ v, SamePlace v (placeOf v) := fun v => ⟨rfl, rfl, rfl⟩
  have hnew := new_map hplace vps
  rw [hg, ← map_placeOf_eq h, new_map hplace vps'] at hnew
  obtain ⟨g', hg', heq⟩ := Option.map_eq_some_iff.1 hnew
  have hvps := new_viewports hg'
  rw [hg']
  cases g'
  cases g
  cases hvps
  cases heq
  rfl

theorem viewportAt_map {f : Viewport → Viewport} (h : ∀ v, SameFrame v (f v)) (g : SceneGraph) :
    ({ g with viewports := g.viewports.map f } : SceneGraph).viewportAt = g.viewportAt := by
  have hshows : ({ g with viewports := g.viewports.map f } : SceneGraph).shows = g.shows := by
    funext row col checkVisible id
    unfold shows refViewport
    cases g.viewportTable[id]? with
    | none => rfl
    | some i =>
      simp only [Option.bind_eq_bind, Option.bind_some, List.getElem?_map]
      cases g.viewports[i]? with
      | none => rfl
      | some v => simp only [Option.map_some, (h v).visible, (h v).numRows, (h v).numCols]
  unfold viewportAt
  rw [hshows]

/-- **Which viewport is at a place depends on the frames of the viewports only** -/
theorem viewportAt_of_sameFrame {g : SceneGraph} {vps' : List Viewport} (h : List.Forall₂ SameFrame g.viewports vps') :
    ({ g with viewports := vps' } : SceneGraph).viewportAt = g.viewportAt := by
  have hframe : ∀ v, SameFrame v (frameOf v) := fun v => ⟨rfl, rfl, rfl, rfl, rfl, rfl⟩
  have hnew := viewportAt_map hframe { g with viewports := vps' }
  dsimp only at hnew
  rw [map_frameOf_eq h] at hnew
  rw [← hnew]
  exact viewportAt_map hframe g

end SceneGraph

/-! ## What the operations do to the viewports -/

theorem forall₂_of_getElem? {α : Type} {R : α → α → Prop} {l l' : List α} (hlen : l'.length = l.length)
    (h : ∀ (i : ℕ) v v', l[i]? = some v → l'[i]? = some v' → R v v') : List.Forall₂ R l l' := by
  rw [List.forall₂_iff_get]
  refine ⟨hlen.symm, ?_⟩
  intro i hi hi'
  exact h i _ _ (List.getElem?_eq_getElem hi) (List.getElem?_eq_getElem hi')

theorem forall₂_set {α : Type} {R : α → α → Prop} (hrefl : ∀ v, R v v) {l : List α} {i : ℕ} {v v' : α}
    (hv : l[i]? = some v) (h : R v v') : List.Forall₂ R l (l.set i v') := by
  refine forall₂_of_getElem? List.length_set ?_
  intro j w w' hw hw'
  rw [List.getElem?_set] at hw'
  split_ifs at hw' with hij hlt
  · cases hw'
    subst hij
    cases hv.symm.trans hw
    exact h
  · cases hw.symm.trans hw'
    exact hrefl w

namespace Root

/-- the panes differ in their viewports, by `R`, and in what the z-buffer does not depend on -/
structure Relaid (R : Viewport → Viewport → Prop) (root root' : Root) : Prop where
  viewports : List.Forall₂ R root.scenegraph.viewports root'.scenegraph.viewports
  graph : root'.scenegraph = { root.scenegraph with viewports := root'.scenegraph.viewports }
  zbuff : root'.zbuff = root.zbuff
  numRows : root'.numRows = root.numRows
  numCols : root'.numCols = root.numCols

section Relaid

variable {R : Viewport → Viewport → Prop}

theorem Relaid.of_graph (hrefl : ∀ v, R v v) {root root' : Root} (hgraph : root'.scenegraph = root.scenegraph)
    (hzbuff : root'.zbuff = root.zbuff) (hrows : root'.numRows = root.numRows) (hcols : root'.numCols = root.numCols) :
    Relaid R root root' := by
  refine ⟨?_, ?_, hzbuff, hrows, hcols⟩
  · rw [hgraph]
    exact List.forall₂_same.2 fun v _ => hrefl v
  · rw [hgraph]

theorem forall₂_trans (htrans : ∀ u v w, R u v → R v w → R u w) {l₁ l₂ l₃ : List Viewport} (h : List.Forall₂ R l₁ l₂)
    (h' : List.Forall₂ R l₂ l₃) : List.Forall₂ R l₁ l₃ := by
  induction h generalizing l₃ with
  | nil =>
    cases h'
    exact .nil
  | cons hv _ ih =>
    cases h' with
    | cons hv' hrest => exact .cons (htrans _ _ _ hv hv') (ih hrest)

theorem Relaid.trans (htrans : ∀ u v w, R u v → R v w → R u w) {root₁ root₂ root₃ : Root} (h : Relaid R root₁ root₂)
    (h' : Relaid R root₂ root₃) : Relaid R root₁ root₃ := by
  refine ⟨forall₂_trans htrans h.viewports h'.viewports, ?_, h'.zbuff.trans h.zbuff, h'.numRows.trans h.numRows,
    h'.numCols.trans h.numCols⟩
  rw [h'.graph, h.graph]

/-- work on one viewport -/
theorem withViewport_relaid {α : Type} (hrefl : ∀ v, R v v) {root root' : Root} {id : ℕ}
    {how : Viewport → Option (α × Viewport)} {result : Except UiError α}
    (hhow : ∀ v a v', how v = some (a, v') → R v v')
    (h : root.withViewport id how = some (result, root')) : Relaid R root root' := by
  unfold withViewport at h
  match htable : root.scenegraph.viewportTable[id]? with
  | none =>
    rw [htable] at h
    cases h
    exact .of_graph hrefl rfl rfl rfl rfl
  | some i =>
    simp only [htable] at h
    match hv : root.scenegraph.viewports[i]? with
    | none =>
      rw [hv] at h
      cases h
      exact .of_graph hrefl rfl rfl rfl rfl
    | some v =>
      simp only [hv] at h
      obtain ⟨⟨a, v'⟩, hdone, heq⟩ := Option.map_eq_some_iff.1 h
      cases heq
      exact ⟨forall₂_set hrefl hv (hhow v a v' hdone), rfl, rfl, rfl, rfl⟩

theorem modifyViewport_relaid (hrefl : ∀ v, R v v) {root : Root} {id : ℕ} {how : Viewport → Viewport}
    (hhow : ∀ v, R v (how v)) : Relaid R root (root.modifyViewport id how) := by
  unfold modifyViewport
  split
  · rename_i result root' h
    refine withViewport_relaid hrefl ?_ h
    intro v a v' hv
    cases hv
    exact hhow v
  · exact .of_graph hrefl rfl rfl rfl rfl

end Relaid

theorem Relaid.refl (root : Root) : Relaid SameFrame root root := .of_graph SameFrame.refl rfl rfl rfl rfl

theorem Relaid.trans' {root₁ root₂ root₃ : Root} (h : Relaid SameFrame root₁ root₂)
    (h' : Relaid SameFrame root₂ root₃) :
    Relaid SameFrame root₁ root₃ :=
  h.trans (fun _ _ _ huv hvw => huv.trans hvw) h'

theorem pointAt_relaid (root : Root) (form : Form) : Relaid SameFrame root (root.pointAt form) := by
  unfold pointAt
  split
  · exact .of_graph SameFrame.refl rfl rfl rfl rfl
  · exact .refl root

theorem renderForm_relaid {root root' : Root} {form : Form} {cursor : Coord} {result : Except UiError Coord}
    (h : root.renderForm form cursor = some (result, root')) : Relaid SameFrame root root' := by
  obtain ⟨⟨painted, root₁⟩, hpaint, hrest⟩ := Option.bind_eq_some_iff.1 h
  have hrelaid := withViewport_relaid SameFrame.refl (fun _ _ _ => Form.paint_sameFrame) hpaint
  cases painted with
  | error e =>
    cases hrest
    exact hrelaid
  | ok newCursor =>
    cases hrest
    cases root.isFocused form.elementId with
    | true => exact hrelaid.trans' (pointAt_relaid root₁ form)
    | false => exact hrelaid

/-- **Painting keeps all frames** -/
theorem renderAll_relaid {forms : List Form} {cursors : ExtTreeMap ℕ Coord} {root root' : Root}
    {result : Except UiError (ExtTreeMap ℕ Coord)} (h : renderAll forms cursors root = some (result, root')) :
    Relaid SameFrame root root' := by
  induction forms generalizing cursors root with
  | nil =>
    cases h
    exact .refl _
  | cons form forms ih =>
    obtain ⟨⟨painted, root₁⟩, hform, hrest⟩ := Option.bind_eq_some_iff.1 h
    have hrelaid := renderForm_relaid hform
    cases painted with
    | error e =>
      cases hrest
      exact hrelaid
    | ok cursor => exact hrelaid.trans' (ih hrest)

theorem clear_sameFrame (v : Viewport) : SameFrame v v.clear := ⟨rfl, rfl, rfl, rfl, rfl, rfl⟩

theorem clearAll_relaid (forms : List Form) (root : Root) :
    Relaid SameFrame root (forms.foldl (fun root form => root.modifyViewport form.viewportId Viewport.clear) root) := by
  induction forms generalizing root with
  | nil => exact .refl root
  | cons form forms ih => exact (modifyViewport_relaid SameFrame.refl clear_sameFrame).trans' (ih _)

/-- the loop of `update_forms` over the updated viewports -/
def mergeUpdates (root : Root) (updates : List Viewport) : Root :=
  updates.foldl (fun root vp => root.modifyViewport vp.id fun v => v.mergeUpdate vp) root

/-- after the settings are merged, an update only clears and paints -/
theorem updateForms_relaid {root root' : Root} {frame : FrameUpdate} {order : List ℕ} {result : Except UiError Unit}
    (h : root.updateForms frame order = some (result, root')) :
    Relaid SameFrame (mergeUpdates { root with forms := ∅, dynamicForms := [] } frame.updatedViewports) root' := by
  obtain ⟨⟨result₁, root₁⟩, hshown, hrest⟩ := Option.bind_eq_some_iff.1 h
  have hcleared := ((clearAll_relaid _ _).trans' (clearAll_relaid _ _)).trans' (renderAll_relaid hshown)
  cases result₁ with
  | error e =>
    cases hrest
    exact hcleared
  | ok cursors =>
    obtain ⟨⟨result₂, root₂⟩, hadded, hrest⟩ := Option.bind_eq_some_iff.1 hrest
    have hpainted := hcleared.trans' (renderAll_relaid hadded)
    cases result₂ with
    | error e =>
      cases hrest
      exact hpainted
    | ok _ =>
      cases hrest
      exact ⟨hpainted.viewports, hpainted.graph, hpainted.zbuff, hpainted.numRows, hpainted.numCols⟩

theorem setAllForms_relaid {root root' : Root} {staticForms dynamicForms : List Form} {result : Except UiError Unit}
    (h : root.setAllForms staticForms dynamicForms = some (result, root')) : Relaid SameFrame root root' := by
  obtain ⟨⟨result₁, root₁⟩, hstatic, hrest⟩ := Option.bind_eq_some_iff.1 h
  have hpainted := renderAll_relaid hstatic
  cases result₁ with
  | error e =>
    cases hrest
    exact hpainted
  | ok cursors =>
    obtain ⟨⟨result₂, root₂⟩, hdynamic, hrest⟩ := Option.bind_eq_some_iff.1 hrest
    have hpainted := hpainted.trans' (renderAll_relaid hdynamic)
    cases result₂ with
    | error e =>
      cases hrest
      exact hpainted
    | ok _ =>
      cases hrest
      exact ⟨hpainted.viewports, hpainted.graph, hpainted.zbuff, hpainted.numRows, hpainted.numCols⟩

theorem redraw_relaid {root root' : Root} {order : List ℕ} {result : Except UiError Unit}
    (h : root.redraw order = some (result, root')) : Relaid SameFrame root root' := by
  obtain ⟨⟨result₁, root₁⟩, hforms, hrest⟩ := Option.bind_eq_some_iff.1 h
  have hpainted := renderAll_relaid hforms
  cases result₁ with
  | error e =>
    cases hrest
    exact ⟨hpainted.viewports, hpainted.graph, hpainted.zbuff, hpainted.numRows, hpainted.numCols⟩
  | ok _ =>
    cases hrest
    exact ⟨hpainted.viewports, hpainted.graph, hpainted.zbuff, hpainted.numRows, hpainted.numCols⟩

/-! ## Updates of the settings -/

/-- the last update of a viewport in a list of updates -/
def lastUpdate (updates : List Viewport) (id : ℕ) : Option Viewport := updates.reverse.find? fun vp => vp.id = id

/-- `v` with the settings of the update `vp` -/
structure MergedWith (v vp v' : Viewport) : Prop where
  id : v'.id = v.id
  parent : v'.parent = v.parent
  scroll : v'.scrollOffset = v.scrollOffset
  pos : v'.pos = vp.pos
  dims : v'.dims = vp.dims
  visible : v'.visible = vp.visible

/-- the viewports after some updates: each is as it was, or has the settings of the last update of its ID -/
structure Merged (root : Root) (updates : List Viewport) (root' : Root) : Prop where
  count : root'.scenegraph.viewports.length = root.scenegraph.viewports.length
  graph : root'.scenegraph = { root.scenegraph with viewports := root'.scenegraph.viewports }
  zbuff : root'.zbuff = root.zbuff
  numRows : root'.numRows = root.numRows
  numCols : root'.numCols = root.numCols
  each : ∀ (i : ℕ) v v', root.scenegraph.viewports[i]? = some v → root'.scenegraph.viewports[i]? = some v' →
    v' = v ∨ ∃ id vp, root.scenegraph.viewportTable[id]? = some i ∧ lastUpdate updates id = some vp ∧ MergedWith v vp v'

theorem lastUpdate_append (updates : List Viewport) (vp : Viewport) (id : ℕ) :
    lastUpdate (updates ++ [vp]) id = if vp.id = id then some vp else lastUpdate updates id := by
  unfold lastUpdate
  rw [List.reverse_append, List.reverse_singleton, List.singleton_append, List.find?_cons]
  by_cases hid : vp.id = id <;> simp [hid]

/-- an update of an ID without a viewport does nothing -/
theorem Merged.skip {root root' : Root} {updates : List Viewport} (h : Merged root updates root') {vp : Viewport}
    (hnone : ∀ i, root.scenegraph.viewportTable[vp.id]? = some i → root.scenegraph.viewports[i]? = none) :
    Merged root (updates ++ [vp]) root' := by
  refine ⟨h.count, h.graph, h.zbuff, h.numRows, h.numCols, ?_⟩
  intro i v v' hv hv'
  refine (h.each i v v' hv hv').imp_right ?_
  intro ⟨id, vp', htable, hlast, hmerged⟩
  refine ⟨id, vp', htable, ?_, hmerged⟩
  rw [lastUpdate_append, if_neg, hlast]
  intro hid
  subst hid
  cases (hnone i htable).symm.trans hv

/-- an update of a listed viewport writes its settings over those of the updates before -/
theorem Merged.update {root root' : Root} {updates : List Viewport} (h : Merged root updates root') {vp u : Viewport}
    {i : ℕ} (hi : root.scenegraph.viewportTable[vp.id]? = some i) (hu : root'.scenegraph.viewports[i]? = some u) :
    Merged root (updates ++ [vp])
      { root' with
        scenegraph := { root'.scenegraph with viewports := root'.scenegraph.viewports.set i (u.mergeUpdate vp) } } := by
  refine ⟨List.length_set.trans h.count, by dsimp only; rw [h.graph], h.zbuff, h.numRows, h.numCols, ?_⟩
  intro j v v' hv hv'
  dsimp only at hv'
  rw [List.getElem?_set] at hv'
  split_ifs at hv' with hij hlt
  · subst hij
    cases hv'
    have hkept : u.id = v.id ∧ u.parent = v.parent ∧ u.scrollOffset = v.scrollOffset := by
      rcases h.each i v u hv hu with heq | ⟨_, _, _, _, hmerged⟩
      · rw [heq]
        exact ⟨rfl, rfl, rfl⟩
      · exact ⟨hmerged.id, hmerged.parent, hmerged.scroll⟩
    refine .inr ⟨vp.id, vp, hi, by rw [lastUpdate_append, if_pos rfl], ?_⟩
    exact ⟨hkept.1, hkept.2.1, hkept.2.2, rfl, rfl, rfl⟩
  · refine (h.each j v v' hv hv').imp_right ?_
    intro ⟨id, vp', hj, hlast, hmerged⟩
    refine ⟨id, vp', hj, ?_, hmerged⟩
    rw [lastUpdate_append, if_neg, hlast]
    intro hid
    subst hid
    exact hij (Option.some.inj (hi.symm.trans hj))

/-- what the loop over the updates does, by its last round -/
theorem mergeUpdates_spec (root : Root) (updates : List Viewport) :
    Merged root updates (mergeUpdates root updates) := by
  induction updates using List.reverseRecOn with
  | nil =>
    refine ⟨rfl, rfl, rfl, rfl, rfl, ?_⟩
    intro i v v' hv hv'
    cases hv.symm.trans hv'
    exact .inl rfl
  | append_singleton updates vp ih =>
    have hround : mergeUpdates root (updates ++ [vp]) =
        (mergeUpdates root updates).modifyViewport vp.id fun v => v.mergeUpdate vp := by
      unfold mergeUpdates
      rw [List.foldl_append]
      rfl
    have htable : (mergeUpdates root updates).scenegraph.viewportTable = root.scenegraph.viewportTable := by
      rw [ih.graph]
    rw [hround]
    unfold modifyViewport withViewport
    rw [htable]
    match hi : root.scenegraph.viewportTable[vp.id]? with
    | none => exact ih.skip fun i hsome => absurd (hi.symm.trans hsome) (by simp)
    | some i =>
      dsimp only
      match hu : (mergeUpdates root updates).scenegraph.viewports[i]? with
      | none =>
        refine ih.skip ?_
        intro j hj
        cases hi.symm.trans hj
        rw [List.getElem?_eq_none_iff] at hu ⊢
        rw [← ih.count]
        exact hu
      | some u => exact ih.update hi hu

/-- **The updates that the z-buffer bears**: the last one of each viewport keeps its position and, while a z-buffer is
kept, its size and its visibility -/
def KeepsLayout (root : Root) (updates : List Viewport) : Prop :=
  ∀ id v vp, root.scenegraph.refViewport id = some v → lastUpdate updates id = some vp →
    vp.pos = v.pos ∧ (root.zbuff.isSome = true → vp.dims = v.dims ∧ vp.visible = v.visible)

/-- what such updates do -/
theorem mergeUpdates_relaid {root : Root} {updates : List Viewport} (h : KeepsLayout root updates) :
    Relaid (fun v v' => SamePlace v v' ∧ (root.zbuff.isSome = true → SameFrame v v')) root
      (mergeUpdates root updates) := by
  have hmerged := mergeUpdates_spec root updates
  refine ⟨forall₂_of_getElem? hmerged.count ?_, hmerged.graph, hmerged.zbuff, hmerged.numRows, hmerged.numCols⟩
  intro i v v' hv hv'
  rcases hmerged.each i v v' hv hv' with heq | ⟨id, vp, htable, hlast, hm⟩
  · subst heq
    exact ⟨(SameFrame.refl v').samePlace, fun _ => .refl v'⟩
  · have href : root.scenegraph.refViewport id = some v := by
      unfold SceneGraph.refViewport
      rw [htable]
      exact hv
    obtain ⟨hpos, hshape⟩ := h id v vp href hlast
    have hplace : SamePlace v v' := ⟨hm.id, hm.parent, hm.pos.trans hpos⟩
    refine ⟨hplace, ?_⟩
    intro hkept
    obtain ⟨hdims, hvisible⟩ := hshape hkept
    exact ⟨hm.id, hplace.pos, hm.dims.trans hdims, hm.visible.trans hvisible, hm.parent, hm.scroll⟩

/-! ## The invariant -/

/-- the graph is that of the viewports as they are, and a z-buffer that is kept is the one the graph gives -/
structure Cached (root : Root) : Prop where
  built : root.Built
  zbuff : ∀ z, root.zbuff = some z → z = root.makeZbuff

theorem makeZbuff_congr {root root' : Root} (hat : root'.scenegraph.viewportAt = root.scenegraph.viewportAt)
    (hrows : root'.numRows = root.numRows) (hcols : root'.numCols = root.numCols) :
    root'.makeZbuff = root.makeZbuff := by
  unfold makeZbuff
  rw [hat, hrows, hcols]

/-- viewports that stand where they stood keep the invariant, if they have the same frames or no z-buffer is kept -/
theorem Cached.of_relaid {root root' : Root} (h : root.Cached)
    (hrelaid : Relaid (fun v v' => SamePlace v v' ∧ (root.zbuff.isSome = true → SameFrame v v')) root root') :
    root'.Cached := by
  constructor
  · unfold Built
    rw [SceneGraph.new_of_samePlace (hrelaid.viewports.imp fun _ _ hv => hv.1) h.built, ← hrelaid.graph]
  · intro z hz
    rw [hrelaid.zbuff] at hz
    have hframes := hrelaid.viewports.imp fun _ _ hv => hv.2 (by rw [hz]; rfl)
    have hat := SceneGraph.viewportAt_of_sameFrame hframes
    rw [← hrelaid.graph] at hat
    rw [h.zbuff z hz, makeZbuff_congr hat hrelaid.numRows hrelaid.numCols]

theorem Cached.of_sameFrame {root root' : Root} (h : root.Cached) (hrelaid : Relaid SameFrame root root') :
    root'.Cached :=
  h.of_relaid ⟨hrelaid.viewports.imp fun _ _ hv => ⟨hv.samePlace, fun _ => hv⟩, hrelaid.graph, hrelaid.zbuff,
    hrelaid.numRows, hrelaid.numCols⟩

/-! ## Runs -/

/-- what happens to a pane once it is built. Where the source iterates a `HashMap`, the order is part of
the operation -/
inductive Op where
  | setAllForms (staticForms dynamicForms : List Form)
  | render
  | refresh
  | redraw (order : List ℕ)
  | updateForms (frame : FrameUpdate) (order : List ℕ)
  | handleEvent (key : Key)
  | nextFocus
  | prevFocus
  | clearFocus
  | consumeRuntimeEvents

/-- one operation, with the frame if it makes one. After an error the pane is left as the operation left it -/
def step (root : Root) : Op → Option (Option CharBuff × Root)
  | .setAllForms staticForms dynamicForms => (root.setAllForms staticForms dynamicForms).map fun r => (none, r.2)
  | .render => root.render.map fun r => (some r.1, r.2)
  | .refresh => root.refresh.map fun r => (some r.1, r.2)
  | .redraw order => (root.redraw order).map fun r => (none, r.2)
  | .updateForms frame order => (root.updateForms frame order).map fun r => (none, r.2)
  | .handleEvent key => (root.handleEvent key).map fun r => (none, r)
  | .nextFocus => some (none, root.nextFocus)
  | .prevFocus => some (none, root.prevFocus)
  | .clearFocus => some (none, root.clearFocus)
  | .consumeRuntimeEvents => some (none, root.consumeRuntimeEvents.2)

/-- the updates of an operation keep the layout -/
def StepKeepsLayout (root : Root) : Op → Prop
  | .updateForms frame _ => root.KeepsLayout frame.updatedViewports
  | _ => True

theorem innerNextFocus_relaid (root : Root) (reverse : Bool) : Relaid SameFrame root (root.innerNextFocus reverse) := by
  have hfocused : ∀ focused, Relaid SameFrame root { root with focused := focused } :=
    fun _ => .of_graph SameFrame.refl rfl rfl rfl rfl
  unfold innerNextFocus
  dsimp only
  split
  · exact (hfocused _).trans' (pointAt_relaid _ _)
  · exact hfocused _

theorem handleEvent_relaid {root root' : Root} {key : Key} (h : root.handleEvent key = some root') :
    Relaid SameFrame root root' := by
  unfold handleEvent at h
  match hfocused : root.focused with
  | none =>
    rw [hfocused] at h
    cases h
    exact .refl _
  | some focused =>
    simp only [hfocused] at h
    match hform : root.forms[focused]? with
    | none =>
      rw [hform] at h
      cases h
      exact .refl _
    | some form =>
      simp only [hform] at h
      obtain ⟨⟨payload, form'⟩, -, hrest⟩ := Option.bind_eq_some_iff.1 h
      have hpointed : Relaid SameFrame root (if root.isFocused form'.elementId then root.pointAt form' else root) := by
        split_ifs
        · exact pointAt_relaid root form'
        · exact .refl root
      cases payload with
      | none =>
        cases hrest
        exact ⟨hpointed.viewports, hpointed.graph, hpointed.zbuff, hpointed.numRows, hpointed.numCols⟩
      | some payload =>
        cases hrest
        exact ⟨hpointed.viewports, hpointed.graph, hpointed.zbuff, hpointed.numRows, hpointed.numCols⟩

/-- a frame keeps the z-buffer it was made from -/
theorem render_cached {root root' : Root} {buff : CharBuff} (h : root.Cached)
    (hrender : root.render = some (buff, root')) :
    root'.Cached := by
  obtain ⟨⟨buff', root₁⟩, hframe, hrest⟩ := Option.bind_eq_some_iff.1 hrender
  obtain ⟨cells, -, hkept⟩ := Option.bind_eq_some_iff.1 hframe
  cases hkept
  cases hrest
  obtain ⟨order, back, first, hmade⟩ :=
    ({ root with zbuff := some (root.zbuff.getD root.makeZbuff) } : Root).makeFocusOrder_frame ⟨root.numCols, cells⟩
  rw [hmade]
  refine ⟨h.built, ?_⟩
  intro z hz
  cases hz
  cases hz : root.zbuff with
  | none => rfl
  | some z => exact h.zbuff z hz

/-- **One operation keeps the invariant** -/
theorem step_cached {root root' : Root} {op : Op} {frame : Option CharBuff} (h : root.Cached)
    (hkeeps : StepKeepsLayout root op) (hstep : root.step op = some (frame, root')) : root'.Cached := by
  cases op with
  | setAllForms staticForms dynamicForms =>
    obtain ⟨⟨result, root₁⟩, hdone, heq⟩ := Option.map_eq_some_iff.1 hstep
    cases heq
    exact h.of_sameFrame (setAllForms_relaid hdone)
  | render =>
    obtain ⟨⟨buff, root₁⟩, hdone, heq⟩ := Option.map_eq_some_iff.1 hstep
    cases heq
    exact render_cached h hdone
  | refresh =>
    obtain ⟨⟨buff, root₁⟩, hdone, heq⟩ := Option.map_eq_some_iff.1 hstep
    cases heq
    have hreset : ({ root with zbuff := none } : Root).Cached := ⟨h.built, fun z hz => by cases hz⟩
    exact render_cached hreset hdone
  | redraw order =>
    obtain ⟨⟨result, root₁⟩, hdone, heq⟩ := Option.map_eq_some_iff.1 hstep
    cases heq
    exact h.of_sameFrame (redraw_relaid hdone)
  | updateForms update order =>
    obtain ⟨⟨result, root₁⟩, hdone, heq⟩ := Option.map_eq_some_iff.1 hstep
    cases heq
    have hstart : ({ root with forms := ∅, dynamicForms := [] } : Root).Cached := ⟨h.built, h.zbuff⟩
    exact (hstart.of_relaid (mergeUpdates_relaid hkeeps)).of_sameFrame (updateForms_relaid hdone)
  | handleEvent key =>
    obtain ⟨root₁, hdone, heq⟩ := Option.map_eq_some_iff.1 hstep
    cases heq
    exact h.of_sameFrame (handleEvent_relaid hdone)
  | nextFocus =>
    cases hstep
    exact h.of_sameFrame (innerNextFocus_relaid root false)
  | prevFocus =>
    cases hstep
    exact h.of_sameFrame (innerNextFocus_relaid root true)
  | clearFocus =>
    cases hstep
    exact ⟨h.built, h.zbuff⟩
  | consumeRuntimeEvents =>
    cases hstep
    exact ⟨h.built, h.zbuff⟩

/-- what `make_zbuff` computes for the viewports as they are now, at their current positions -/
def currentZbuff (root : Root) : Option (List ZBuffEntry) :=
  (SceneGraph.new root.scenegraph.viewports).map fun g => ({ root with scenegraph := g } : Root).makeZbuff

/-- a z-buffer that is kept is the current one, and a frame made from it is the one made from a new z-buffer -/
structure Coherent (root : Root) : Prop where
  zbuff : ∀ z, root.zbuff = some z → root.currentZbuff = some z
  frames : root.render.map Prod.fst = root.refresh.map Prod.fst

theorem render_fst (root : Root) : root.render.map Prod.fst =
    ((root.zbuff.getD root.makeZbuff).zipIdx.mapM fun e => root.zbuffCell e.2 e.1).map fun cells =>
      ⟨root.numCols, cells⟩ := by
  unfold render makeCharbuff
  dsimp only
  cases (root.zbuff.getD root.makeZbuff).zipIdx.mapM fun e => root.zbuffCell e.2 e.1 <;> rfl

theorem Cached.coherent {root : Root} (h : root.Cached) : root.Coherent := by
  constructor
  · intro z hz
    unfold currentZbuff
    rw [h.built, h.zbuff z hz]
    rfl
  · have hgetD : root.zbuff.getD root.makeZbuff = root.makeZbuff := by
      cases hz : root.zbuff with
      | none => rfl
      | some z => exact h.zbuff z hz
    unfold refresh
    rw [render_fst, render_fst, hgetD]
    rfl

open Wrb.Runs in
/-- **The z-buffer is coherent**: whatever the viewports a pane is built from, in every state reached by operations
whose updates keep the layout, a z-buffer that is kept is the one of the viewports as they are, and `render` and
`refresh` give the same frame. -/
theorem run_coherent {viewports : List Viewport} {scenegraph : SceneGraph} (numRows numCols : UInt64) {ops : List Op}
    {frames : List (Option CharBuff)} {root : Root} (hnew : SceneGraph.new viewports = some scenegraph)
    (hkeeps : AlwaysSome step StepKeepsLayout (Root.new numRows numCols scenegraph) ops)
    (hrun : runSome step (Root.new numRows numCols scenegraph) ops = some (frames, root)) : root.Coherent := by
  have hstart : (Root.new numRows numCols scenegraph).Cached := by
    refine ⟨?_, fun z hz => by cases hz⟩
    change SceneGraph.new scenegraph.viewports = some scenegraph
    rw [SceneGraph.new_viewports hnew, hnew]
  exact (runSome_inv (fun _ _ _ _ hs hp hstep => step_cached hs hp hstep) hstart hkeeps hrun).coherent

/-- one viewport, painted again where it is, and drawn -/
def repaintAndRender : List Op := [.updateForms ⟨[], [Viewport.new 0 0 0 1 1]⟩ [], .render, .refresh]

open Wrb.Runs in
theorem run_coherent_repaint : ∃ scenegraph frames root, SceneGraph.new [Viewport.new 0 0 0 1 1] = some scenegraph ∧
    runSome step (Root.new 1 1 scenegraph) repaintAndRender = some (frames, root) ∧ root.Coherent := by
  have hruns : ((SceneGraph.new [Viewport.new 0 0 0 1 1]).bind fun scenegraph =>
      runSome step (Root.new 1 1 scenegraph) repaintAndRender).isSome = true := by decide +kernel
  obtain ⟨⟨frames, root⟩, hsome⟩ := Option.isSome_iff_exists.1 hruns
  obtain ⟨scenegraph, hnew, hrun⟩ := Option.bind_eq_some_iff.1 hsome
  have hkeeps : (Root.new 1 1 scenegraph).KeepsLayout [Viewport.new 0 0 0 1 1] := by
    intro id v vp hv hvp
    obtain ⟨i, -, hv⟩ := Option.bind_eq_some_iff.1 hv
    have hmem : v ∈ scenegraph.viewports := List.mem_of_getElem? hv
    rw [SceneGraph.new_viewports hnew, List.mem_singleton] at hmem
    have hlast := List.mem_of_find?_eq_some hvp
    rw [List.reverse_singleton, List.mem_singleton] at hlast
    rw [hmem, hlast]
    exact ⟨rfl, fun _ => ⟨rfl, rfl⟩⟩
  have hops : AlwaysSome step StepKeepsLayout (Root.new 1 1 scenegraph) repaintAndRender :=
    And.intro hkeeps fun _ _ => And.intro trivial fun _ _ => And.intro trivial fun _ _ => trivial
  exact ⟨scenegraph, frames, root, hnew, hrun, run_coherent 1 1 hnew hops hrun⟩

/-- one viewport, drawn and then hidden -/
def hideAfterRender : List Op :=
  [.render, .updateForms ⟨[], [(Viewport.new 0 0 0 1 1).setVisible false]⟩ []]

open Wrb.Runs in
/-- the z-buffer kept, and the one it should be -/
def hiddenZbuffs : Option (Option (List ZBuffEntry) × Option (List ZBuffEntry)) := do
  let scenegraph ← SceneGraph.new [Viewport.new 0 0 0 1 1]
  let (_, root) ← runSome step (Root.new 1 1 scenegraph) hideAfterRender
  return (root.zbuff, root.currentZbuff)

theorem hiddenZbuffs_eq : hiddenZbuffs = some (some [.viewport 0], some [.root]) := by decide +kernel

open Wrb.Runs in
/-- **An update hides a viewport, and the z-buffer still has it** -/
theorem hidden_viewport_shown : ¬ ∀ viewports scenegraph numRows numCols ops frames root,
    SceneGraph.new viewports = some scenegraph →
    runSome step (Root.new numRows numCols scenegraph) ops = some (frames, root) → root.Coherent := by
  intro hall
  have hzbuffs := hiddenZbuffs_eq
  unfold hiddenZbuffs at hzbuffs
  obtain ⟨scenegraph, hnew, hrest⟩ := Option.bind_eq_some_iff.1 hzbuffs
  obtain ⟨⟨frames, root⟩, hrun, heq⟩ := Option.bind_eq_some_iff.1 hrest
  have hpair := Prod.ext_iff.1 (Option.some.inj heq)
  have hcoherent := hall _ scenegraph 1 1 hideAfterRender frames root hnew hrun
  have hcurrent := hcoherent.zbuff _ hpair.1
  exact absurd (hcurrent.symm.trans hpair.2) (by decide)

end Root

end Wrb.Ui
