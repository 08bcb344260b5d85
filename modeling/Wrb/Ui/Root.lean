/-
The root pane (`ui/root.rs`): its viewports, the z-buffer cached over them, the forms, and the order in which Tab visits
them.

Model: the fields of the source but the frame delay and the debug flag. A function of the source that can return an
error returns `Except UiError`, with the root as it is then; `none` is a panic. `forms` is a `HashMap`: where the source
iterates it, the order is an argument, a list of element IDs in which each key stands once.
-/
import Mathlib.Tactic
import Wrb.Lib.TreeMap
import Wrb.Ui.Forms
import Wrb.Ui.SceneGraph

namespace Wrb.Ui

open Std Wrb.TreeMap

inductive ZBuffEntry where
  | root
  | viewport (id : ℕ)
deriving DecidableEq, Repr

/-- `WrbEvent::UI` -/
structure UiEvent where
  elementType : WrbFormTypes
  elementId : ℕ
  eventPayload : Bool
deriving DecidableEq, Repr

structure Root where
  scenegraph : SceneGraph
  numRows : UInt64
  numCols : UInt64
  zbuff : Option (List ZBuffEntry)
  focused : Option ℕ
  focusOrder : ExtTreeMap ℕ ℕ
  reverseFocusOrder : ExtTreeMap ℕ ℕ
  focusFirst : Option ℕ
  forms : ExtTreeMap ℕ Form
  /-- where the cursor ought to be, if visible -/
  cursor : Option Coord
  /-- which forms are dynamic -/
  dynamicForms : List ℕ
  runtimeEvents : List UiEvent

/-- an update to the root pane -/
structure FrameUpdate where
  newContents : List Form
  updatedViewports : List Viewport

namespace Root

def new (numRows numCols : UInt64) (scenegraph : SceneGraph) : Root :=
  ⟨scenegraph, numRows, numCols, none, none, ∅, ∅, none, ∅, none, [], []⟩

/-! ## Frames -/

def makeZbuff (root : Root) : List ZBuffEntry :=
  (List.range root.numRows.toNat).flatMap fun r => (List.range root.numCols.toNat).map fun c =>
    match root.scenegraph.viewportAt (UInt64.ofNat r) (UInt64.ofNat c) true with
    | some viewportId => .viewport viewportId
    | none => .root

/-- entry `i` of the z-buffer as a cell. An entry that points to a viewport that does not exist is a panic -/
def zbuffCell (root : Root) (i : ℕ) : ZBuffEntry → Option CharCell
  | .root => some .blank
  | .viewport viewportId => do
    let row := UInt64.ofNat (i / root.numCols.toNat)
    let col := UInt64.ofNat (i % root.numCols.toNat)
    let viewport ← root.scenegraph.refViewport viewportId
    let (viewportRow, viewportCol) ← root.scenegraph.viewportCoords viewportId
    -- `saturating_sub`
    let parentRow := if viewport.startRow ≤ viewportRow then viewportRow - viewport.startRow else 0
    let parentCol := if viewport.startCol ≤ viewportCol then viewportCol - viewport.startCol else 0
    let charcell := (viewport.translateCoordinate (parentRow, parentCol) (row, col)).bind fun rel =>
      viewport.charcellAt rel.1 rel.2
    return charcell.getD .blank

/-- the frame to render; the z-buffer is computed if there is none, and kept -/
def makeCharbuff (root : Root) : Option (CharBuff × Root) := do
  let zbuff := root.zbuff.getD root.makeZbuff
  let cells ← zbuff.zipIdx.mapM fun e => root.zbuffCell e.2 e.1
  return (⟨root.numCols, cells⟩, { root with zbuff := some zbuff })

/-- the viewport at a place of the frame, by the z-buffer -/
def findViewportId (root : Root) (row col : UInt64) : Option ℕ := do
  let zbuff ← root.zbuff
  match ← zbuff[(row * root.numCols + col).toNat]? with
  | .viewport id => some id
  | .root => none

/-! ## Focus -/

/-- the loop of `make_focus_order`: the element IDs of runs of cells of focusable forms -/
def focusRuns (forms : ExtTreeMap ℕ Form) : List CharCell → (cur : Option ℕ) → List ℕ
  | [], _ => []
  | .blank :: cells, cur => focusRuns forms cells cur
  | .fill _ _ _ elementId :: cells, cur =>
    match forms[elementId]? with
    | none => focusRuns forms cells cur
    | some form =>
      if form.typeId.focusable then
        if cur = some elementId then focusRuns forms cells cur
        else elementId :: focusRuns forms cells (some elementId)
      else focusRuns forms cells cur

/-- each ID with the next one -/
def successors (ids : List ℕ) : List (ℕ × ℕ) := ids.zip ids.tail

def makeFocusOrder (root : Root) (buff : CharBuff) : Root :=
  let elementIds := focusRuns root.forms buff.cells none
  match elementIds.head?, elementIds.getLast? with
  | some first, some last =>
    { root with
      focusOrder := (table (successors elementIds)).insert last first
      reverseFocusOrder := (table ((successors elementIds).map Prod.swap)).insert first last
      focusFirst := some first }
  | _, _ => { root with focusOrder := ∅, focusFirst := none }

/-- only the fields of the focus order change -/
theorem makeFocusOrder_frame (root : Root) (buff : CharBuff) : ∃ order back first, root.makeFocusOrder buff =
    { root with focusOrder := order, reverseFocusOrder := back, focusFirst := first } := by
  unfold makeFocusOrder
  dsimp only
  split
  · exact ⟨_, _, _, rfl⟩
  · exact ⟨_, root.reverseFocusOrder, _, rfl⟩

@[simp] theorem makeFocusOrder_zbuff (root : Root) (buff : CharBuff) :
    (root.makeFocusOrder buff).zbuff = root.zbuff := by
  obtain ⟨order, back, first, hmade⟩ := root.makeFocusOrder_frame buff
  rw [hmade]

@[simp] theorem makeFocusOrder_numCols (root : Root) (buff : CharBuff) :
    (root.makeFocusOrder buff).numCols = root.numCols := by
  obtain ⟨order, back, first, hmade⟩ := root.makeFocusOrder_frame buff
  rw [hmade]

@[simp] theorem makeFocusOrder_forms (root : Root) (buff : CharBuff) :
    (root.makeFocusOrder buff).forms = root.forms := by
  obtain ⟨order, back, first, hmade⟩ := root.makeFocusOrder_frame buff
  rw [hmade]

def render (root : Root) : Option (CharBuff × Root) := do
  let (buff, root) ← root.makeCharbuff
  return (buff, root.makeFocusOrder buff)

/-- render with a new z-buffer -/
def refresh (root : Root) : Option (CharBuff × Root) := render { root with zbuff := none }

def isFocused (root : Root) (elementId : ℕ) : Bool := decide (root.focused = some elementId)

/-! ## Forms -/

/-- work on a viewport, if there is one with this ID -/
def withViewport {α : Type} (root : Root) (viewportId : ℕ) (how : Viewport → Option (α × Viewport)) :
    Option (Except UiError α × Root) :=
  match root.scenegraph.viewportTable[viewportId]? with
  | none => some (.error (.noViewport viewportId), root)
  | some idx =>
    match root.scenegraph.viewports[idx]? with
    | none => some (.error (.noViewport viewportId), root)
    | some viewport => (how viewport).map fun r =>
        (.ok r.1, { root with
          scenegraph := { root.scenegraph with viewports := root.scenegraph.viewports.set idx r.2 } })

def setFormCursor (root : Root) (viewportId : ℕ) (cursor : Coord) : Root :=
  { root with
    cursor := (root.scenegraph.viewportCoords viewportId).map fun abs => (abs.1 + cursor.1, abs.2 + cursor.2) }

/-- put the cursor where a form wants it -/
def pointAt (root : Root) (form : Form) : Root :=
  match form.cursorAt with
  | some cursor => root.setFormCursor form.viewportId cursor
  | none => root

/-- `WrbForm::render`, for any form -/
def renderForm (root : Root) (form : Form) (cursor : Coord) : Option (Except UiError Coord × Root) := do
  let focused := root.isFocused form.elementId
  let (result, root) ← root.withViewport form.viewportId (form.paint focused cursor)
  match result with
  | .error e => some (.error e, root)
  | .ok newCursor => some (.ok newCursor, if focused then root.pointAt form else root)

/-- render forms one after the other; in each viewport the next form starts where the last one ended -/
def renderAll : List Form → (cursors : ExtTreeMap ℕ Coord) → Root →
    Option (Except UiError (ExtTreeMap ℕ Coord) × Root)
  | [], cursors, root => some (.ok cursors, root)
  | form :: forms, cursors, root => do
    let (result, root) ← root.renderForm form (cursors[form.viewportId]?.getD (0, 0))
    match result with
    | .error e => some (.error e, root)
    | .ok cursor => renderAll forms (cursors.insert form.viewportId cursor) root

/-- the forms by element ID; of two with one ID the later one stays -/
def formTable (forms : List Form) : ExtTreeMap ℕ Form := table (forms.map fun f => (f.elementId, f))

def setAllForms (root : Root) (staticForms dynamicForms : List Form) : Option (Except UiError Unit × Root) := do
  let (result, root) ← renderAll staticForms ∅ root
  match result with
  | .error e => some (.error e, root)
  | .ok cursors => do
    let (result, root) ← renderAll dynamicForms cursors root
    match result with
    | .error e => some (.error e, root)
    | .ok _ => some (.ok (), { root with
        forms := formTable (staticForms ++ dynamicForms)
        dynamicForms := dynamicForms.map Form.elementId })

/-- the forms of a map in an order of its keys -/
def inOrder (forms : ExtTreeMap ℕ Form) (order : List ℕ) : List Form := order.filterMap fun id => forms[id]?

/-- redraw all forms, in the order in which the map yields them. On an error the forms are gone -/
def redraw (root : Root) (order : List ℕ) : Option (Except UiError Unit × Root) := do
  let forms := root.forms
  let (result, root) ← renderAll (inOrder forms order) ∅ { root with forms := ∅ }
  match result with
  | .error e => some (.error e, root)
  | .ok _ => some (.ok (), { root with forms := forms })

/-- work on a viewport that may not exist -/
def modifyViewport (root : Root) (viewportId : ℕ) (how : Viewport → Viewport) : Root :=
  match root.withViewport viewportId fun v => some ((), how v) with
  | some (_, root) => root
  | none => root

def isVisible (root : Root) (viewportId : ℕ) : Bool :=
  match root.scenegraph.refViewport viewportId with
  | some viewport => viewport.visible
  | none => false

/-- update from a `FrameUpdate`; the static forms are redrawn in the order in which the map yields them -/
def updateForms (root : Root) (frame : FrameUpdate) (order : List ℕ) : Option (Except UiError Unit × Root) := do
  -- remove old dynamic forms
  let forms := root.dynamicForms.foldl (fun forms id => forms.erase id) root.forms
  let root := { root with forms := ∅, dynamicForms := [] }
  let root := frame.updatedViewports.foldl (fun root vp => root.modifyViewport vp.id fun v => v.mergeUpdate vp) root
  -- clear dirty viewports
  let root := (inOrder forms order).foldl (fun root form => root.modifyViewport form.viewportId Viewport.clear) root
  let root := frame.newContents.foldl (fun root form => root.modifyViewport form.viewportId Viewport.clear) root
  let shown := (inOrder forms order).filter fun form => root.isVisible form.viewportId
  let added := frame.newContents.filter fun form => root.isVisible form.viewportId
  let (result, root) ← renderAll shown ∅ root
  match result with
  | .error e => some (.error e, root)
  | .ok cursors => do
    let (result, root) ← renderAll added cursors root
    match result with
    | .error e => some (.error e, root)
    | .ok _ => do
      let forms := added.foldl (fun forms form => forms.insert form.elementId form) forms
      some (.ok (), { root with
        forms := forms
        dynamicForms := added.map Form.elementId
        focused := root.focused.filter fun id => forms.contains id })

/-! ## Events -/

/-- move the focus, and point at the form that has it now -/
def innerNextFocus (root : Root) (reverse : Bool) : Root :=
  let focused := match root.focused with
    | some focused => if reverse then root.reverseFocusOrder[focused]? else root.focusOrder[focused]?
    | none => root.focusFirst
  let root := { root with focused := focused }
  match focused.bind fun id => root.forms[id]? with
  | some form => root.pointAt form
  | none => root

def nextFocus (root : Root) : Root := root.innerNextFocus false

def prevFocus (root : Root) : Root := root.innerNextFocus true

def clearFocus (root : Root) : Root := { root with focused := none }

/-- pass a key to the focused form -/
def handleEvent (root : Root) (key : Key) : Option Root :=
  match root.focused with
  | none => some root
  | some focused =>
    match root.forms[focused]? with
    | none => some root
    | some form => do
      let (payload, form) ← form.handleKey key
      let root := if root.isFocused form.elementId then root.pointAt form else root
      let root := { root with forms := root.forms.insert focused form }
      match payload with
      | some payload => some { root with
          runtimeEvents := root.runtimeEvents ++ [⟨form.typeId, form.elementId, payload⟩] }
      | none => some root

def consumeRuntimeEvents (root : Root) : List UiEvent × Root := (root.runtimeEvents, { root with runtimeEvents := [] })

end Root

end Wrb.Ui
