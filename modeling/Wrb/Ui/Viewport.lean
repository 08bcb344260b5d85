/-
Viewports (`ui/viewport.rs`): a window of rows over a character buffer, at a place relative to its parent viewport.

Model: the fields of the source but `prev_viewport`, which only the loading of a page reads. IDs are natural numbers.
The six ways to print are one definition (`printWith`) applied to the buffer's own ways to print.
-/
import Mathlib.Tactic
import Std.Data.ExtTreeMap
import Wrb.Ui.CharBuff

namespace Wrb.Ui

open Std

structure Viewport where
  id : ℕ
  /-- position in the parent -/
  startRow : UInt64
  startCol : UInt64
  /-- number of rows that will be visible -/
  numRows : UInt64
  scrollOffset : UInt64
  visible : Bool
  parent : Option ℕ
  buff : CharBuff
  /-- upper-left corners of each UI element -/
  elementCoords : ExtTreeMap ℕ Coord

namespace Viewport

def new (id : ℕ) (startRow startCol numRows numCols : UInt64) : Viewport :=
  ⟨id, startRow, startCol, numRows, 0, true, none, CharBuff.new numCols, ∅⟩

def newChild (id parentId : ℕ) (startRow startCol numRows numCols : UInt64) : Viewport :=
  ⟨id, startRow, startCol, numRows, 0, true, some parentId, CharBuff.new numCols, ∅⟩

def pos (v : Viewport) : Coord := (v.startRow, v.startCol)

def dims (v : Viewport) : Coord := (v.numRows, v.buff.numCols)

def updateElementCoord (v : Viewport) (elementId : ℕ) (start : Coord) : Viewport :=
  match v.elementCoords[elementId]? with
  | some (r, c) => { v with elementCoords := v.elementCoords.insert elementId (min r start.1, min c start.2) }
  | none => { v with elementCoords := v.elementCoords.insert elementId start }

/-- print to the buffer by one of its ways to print -/
def printWith (v : Viewport) (elementId : ℕ) (start : Coord) (how : CharBuff → Option (Coord × CharBuff)) :
    Option (Coord × Viewport) :=
  let v := v.updateElementCoord elementId start
  (how v.buff).map fun r => (r.1, { v with buff := r.2 })

def printTo (v : Viewport) (elementId : ℕ) (start : Coord) (bg fg : Color) (text : List Char) :
    Option (Coord × Viewport) :=
  v.printWith elementId start fun b => b.printAt elementId start bg fg text

def print (v : Viewport) (elementId : ℕ) (start : Coord) (bg fg : Color) (text : List Char) :
    Option (Coord × Viewport) :=
  v.printWith elementId start fun b => b.print elementId start bg fg text

def println (v : Viewport) (elementId : ℕ) (start : Coord) (bg fg : Color) (text : List Char) :
    Option (Coord × Viewport) :=
  v.printWith elementId start fun b => b.println elementId start bg fg text

/-- the iterator is the list of its characters -/
def printIter (v : Viewport) (elementId : ℕ) (start : Coord) (bg fg : Color) (text : List Char) :
    Option (Coord × Viewport) :=
  v.printWith elementId start fun b => b.print elementId start bg fg text

def printAtIter (v : Viewport) (elementId : ℕ) (start : Coord) (bg fg : Color) (text : List Char) :
    Option (Coord × Viewport) :=
  v.printWith elementId start fun b => b.printAt elementId start bg fg text

/-- the coordinate relative to a viewport whose parent is at `parentAbs`, if it falls into the viewport -/
def translateCoordinate (v : Viewport) (parentAbs abs : Coord) : Option Coord :=
  if abs.1 < v.startRow + parentAbs.1 then none
  else if v.startRow + parentAbs.1 + v.numRows ≤ abs.1 then none
  else if abs.2 < v.startCol + parentAbs.2 then none
  else if v.startCol + parentAbs.2 + v.buff.numCols ≤ abs.2 then none
  else some (abs.1 - (v.startRow + parentAbs.1), abs.2 - (v.startCol + parentAbs.2))

/-- the element at a relative coordinate, and where in the element it is -/
def getUiCoordinate (v : Viewport) (row col : UInt64) : Option (ℕ × UInt64 × UInt64) :=
  match v.buff.charcellAt row col with
  | some (.fill _ _ _ elementId) =>
    match v.elementCoords[elementId]? with
    | some (uiRow, uiCol) => if uiRow ≤ row ∧ uiCol ≤ col then some (elementId, row - uiRow, col - uiCol) else none
    | none => none
  | _ => none

/-- the cell at a relative coordinate, taking into account scrolling -/
def charcellAt (v : Viewport) (row col : UInt64) : Option CharCell :=
  if v.numRows ≤ row + v.scrollOffset then none else v.buff.charcellAt (row + v.scrollOffset) col

def setVisible (v : Viewport) (visible : Bool) : Viewport := { v with visible := visible }

def clear (v : Viewport) : Viewport := { v with buff := v.buff.clear }

/-- update settings from a newly-loaded viewport, and clear the viewport -/
def mergeUpdate (v vp : Viewport) : Viewport :=
  { v with
    startRow := vp.startRow, startCol := vp.startCol, numRows := vp.numRows, visible := vp.visible
    buff := CharBuff.new vp.buff.numCols }

end Viewport

end Wrb.Ui
