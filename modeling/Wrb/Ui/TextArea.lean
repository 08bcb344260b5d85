/-
Text areas (`ui/forms/textarea.rs`): moves of the cursor over a gap buffer, the layout of its text in a grid, and the
form that edits it.

Model: a `while` loop that moves the cursor has as much fuel as the buffer has cells, plus one: each round moves the
cursor by one cell, and `left` and `right` report the end of the text. `usize` indices and `u64` rows and columns are
natural numbers where they only count cells of the text; the sizes of the form are `UInt64`.
-/
import Mathlib.Tactic
import Wrb.Ui.CharBuff
import Wrb.Ui.GapBuffer

namespace Wrb.Ui

namespace GapBuffer

/-! ## Moves -/

/-- `while` the character at the cursor meets `p`, move left -/
def leftWhile (p : Option Char → Bool) : (fuel : ℕ) → GapBuffer → Option GapBuffer
  | 0, g => some g
  | fuel + 1, g =>
    if p g.chr then do
      let (moved, g) ← g.left
      if moved then leftWhile p fuel g else some g
    else some g

/-- `while` the character at the cursor meets `p`, move right -/
def rightWhile (p : Option Char → Bool) : (fuel : ℕ) → GapBuffer → Option GapBuffer
  | 0, g => some g
  | fuel + 1, g =>
    if p g.chr then do
      let (moved, g) ← g.right
      if moved then rightWhile p fuel g else some g
    else some g

/-- to the start of the current or last word. It reports that the cursor did not move -/
def leftWord (g : GapBuffer) : Option (Bool × GapBuffer) := do
  let oldCursor := g.cursor
  let g ← leftWhile (fun c => c.all isWhitespace) (g.buffer.length + 1) g
  let g ← leftWhile (fun c => !c.all isWhitespace) (g.buffer.length + 1) g
  let (_, g) ← g.right
  return (decide (g.cursor = oldCursor), g)

/-- over the white space at the cursor -/
def rightWord (g : GapBuffer) : Option (Bool × GapBuffer) := do
  let oldCursor := g.cursor
  let g ← rightWhile (fun c => c.all isWhitespace) (g.buffer.length + 1) g
  return (decide (g.cursor = oldCursor), g)

/-- delete the character at the cursor -/
def delete (g : GapBuffer) : Option GapBuffer := do
  let (_, g) ← g.right
  g.backspace

/-- replace the character at the cursor -/
def replace (g : GapBuffer) (ch : Char) : Option GapBuffer := do
  let g ← g.delete
  let g ← g.insert ch
  let (_, g) ← g.left
  return g

/-- overwrite the character at the cursor; at the end of the text, insert -/
def overwrite (g : GapBuffer) (ch : Char) : Option GapBuffer := do
  if g.cursor + g.gap = g.buffer.length then g.insert ch
  else do
    let g ← g.replace ch
    let (_, g) ← g.right
    return g

/-- the method `line_start`: move the cursor to the start of the line. It reports that the cursor did not move -/
def moveToLineStart (g : GapBuffer) : Option (Bool × GapBuffer) := do
  let oldCursor := g.cursor
  let (moved, g) ← if g.chr.isNone then g.left else some (true, g)
  if moved = false then return (false, g)
  let (moved, g) ← if g.chr.all (· = '\n') then g.left else some (true, g)
  if moved = false then return (false, g)
  let g ← leftWhile (fun c => c.all (· ≠ '\n')) (g.buffer.length + 1) g
  let (moved, g) ← if g.chr.all (· = '\n') then g.right else some (true, g)
  if moved = false then return (false, g)
  return (decide (g.cursor = oldCursor), g)

/-- the method `line_end` -/
def moveToLineEnd (g : GapBuffer) : Option (Bool × GapBuffer) := do
  let oldCursor := g.cursor
  let g ← rightWhile (fun c => c.all (· ≠ '\n')) (g.buffer.length + 1) g
  return (decide (g.cursor = oldCursor), g)

/-- the loop at the end of `up` and `down`: at most `col` cells to the right, within the line -/
def rightInLine : (col : ℕ) → GapBuffer → Option GapBuffer
  | 0, g => some g
  | col + 1, g =>
    if g.chr.all (· = '\n') then some g
    else do
      let (_, g) ← g.right
      rightInLine col g

def up (g : GapBuffer) (col : ℕ) : Option GapBuffer := do
  if g.lineStart = 0 then return g
  let (_, g) ← g.moveToLineStart
  let (_, g) ← g.left
  let (_, g) ← g.moveToLineStart
  rightInLine col g

def down (g : GapBuffer) (col : ℕ) : Option GapBuffer := do
  let (_, g) ← g.moveToLineEnd
  let (_, g) ← g.right
  let (_, g) ← g.moveToLineStart
  rightInLine col g

/-! ## All operations -/

/-- the cells are made as by `new`, but the cursor is put behind the last one -/
def setText (g : GapBuffer) (text : List Char) : Option GapBuffer := do
  let len := (text.map Char.utf8Size).sum
  let buffer := text.map Char.val ++ List.replicate (len + g.gapSize - text.length) 0
  let g : GapBuffer :=
    { g with buffer := buffer, cursor := buffer.length, gap := g.gapSize, lineno := countLines text }
  return { g with lineStart := ← g.findLineStart }

/-- the methods that change a buffer -/
inductive Op where
  | insert (ch : Char)
  | backspace
  | delete
  | replace (ch : Char)
  | overwrite (ch : Char)
  | left
  | right
  | leftWord
  | rightWord
  | lineStart
  | lineEnd
  | up (col : ℕ)
  | down (col : ℕ)
  | setText (text : List Char)
deriving DecidableEq, Repr

/-- one operation, and what it reports -/
def perform (g : GapBuffer) : Op → Option (Option Bool × GapBuffer)
  | .insert ch => (g.insert ch).map (none, ·)
  | .backspace => g.backspace.map (none, ·)
  | .delete => g.delete.map (none, ·)
  | .replace ch => (g.replace ch).map (none, ·)
  | .overwrite ch => (g.overwrite ch).map (none, ·)
  | .left => g.left.map fun r => (some r.1, r.2)
  | .right => g.right.map fun r => (some r.1, r.2)
  | .leftWord => g.leftWord.map fun r => (some r.1, r.2)
  | .rightWord => g.rightWord.map fun r => (some r.1, r.2)
  | .lineStart => g.moveToLineStart.map fun r => (some r.1, r.2)
  | .lineEnd => g.moveToLineEnd.map fun r => (some r.1, r.2)
  | .up col => (g.up col).map (none, ·)
  | .down col => (g.down col).map (none, ·)
  | .setText text => (g.setText text).map (none, ·)

/-! ## Layout -/

/-- the loop of `end_of_area` -/
def endOfAreaFrom (g : GapBuffer) (numRows numCols : ℕ) : (fuel row i lineLen : ℕ) → ℕ
  | 0, _, i, _ => i
  | fuel + 1, row, i, lineLen =>
    if row < numRows then
      match g.get i with
      | none => i
      | some c =>
        if c = '\n' then endOfAreaFrom g numRows numCols fuel (row + 1) (i + 1) 0
        else if (lineLen + 1) % numCols = 0 then endOfAreaFrom g numRows numCols fuel (row + 1) (i + 1) (lineLen + 1)
        else endOfAreaFrom g numRows numCols fuel row (i + 1) (lineLen + 1)
    else i

/-- index of the end of the visible region -/
def endOfArea (g : GapBuffer) (scroll numRows numCols : ℕ) : ℕ :=
  if numRows = 0 ∨ numCols = 0 then 0 else endOfAreaFrom g numRows numCols (g.buffer.length + 1) 0 scroll 0

/-- the loop of `cursor_location`: `n` characters are left up to the cursor -/
def locateFrom (g : GapBuffer) (numRows numCols : ℕ) : (n i row col : ℕ) → Option (ℕ × ℕ)
  | 0, _, row, col => some (row, col)
  | n + 1, i, row, col =>
    match g.get i with
    | none => some (row, col)
    | some c =>
      let (row, col) := if c = '\n' then (row + 1, 0) else (row, col + 1)
      let (row, col) := if numCols ≤ col then (row + 1, 0) else (row, col)
      if numRows ≤ row then none else locateFrom g numRows numCols n (i + 1) row col

/-- row and column of the cursor in the text area; `none` if it is not visible -/
def cursorLocation (g : GapBuffer) (scroll numRows numCols : ℕ) : Option (ℕ × ℕ) :=
  if g.cursor < scroll then none
  else if numRows = 0 ∨ numCols = 0 then none
  else locateFrom g numRows numCols (g.cursor - scroll) scroll 0 0

/-- the loop of `start_of_area`: the index reached, and the last character read -/
def scanBack (g : GapBuffer) (numCols : ℕ) : (i row lineLen : ℕ) → (last : Option Char) → ℕ × Option Char
  | 0, _, _, last => (0, last)
  | i + 1, row, lineLen, last =>
    if 0 < row then
      match g.get (i + 1) with
      | none => (i + 1, last)
      | some c =>
        if c = '\n' then scanBack g numCols i (row - 1) 0 (some c)
        else if 0 < i ∧ (lineLen + 1) % numCols = 0 then scanBack g numCols i (row - 1) (lineLen + 1) (some c)
        else scanBack g numCols i row (lineLen + 1) (some c)
    else (i + 1, last)

/-- index of the first visible character -/
def startOfArea (g : GapBuffer) (scroll numRows numCols : ℕ) : ℕ :=
  if numRows = 0 ∨ numCols = 0 then 0
  else
    let cursorRow := ((g.cursorLocation scroll numRows numCols).getD (numRows - 1, 0)).1
    if g.cursor ≤ 1 then 0
    else
      let (i, last) := scanBack g numCols (g.cursor - 1) (cursorRow + 1) 0 none
      if last = some '\n' then i + 2 else i

end GapBuffer

/-- size of the gap in the buffer of a form -/
def GAP_SIZE : ℕ := 65536

def TAB_LEN : ℕ := 3

/-- `GapBufferIterator`: the text from `idx` on, padded to a grid -/
structure GapBufferIterator where
  idx : ℕ
  printIdx : ℕ
  /-- number of cells of the grid, and its width -/
  area : ℕ
  numCols : ℕ
  newlinePad : Bool
  tabPad : ℕ
deriving DecidableEq, Repr

namespace GapBufferIterator

def new (idx area numCols : ℕ) : GapBufferIterator := ⟨idx, 0, area, numCols, false, 0⟩

def next (it : GapBufferIterator) (g : GapBuffer) : Option (Char × GapBufferIterator) :=
  if it.area ≤ it.printIdx then none
  else if it.newlinePad then
    some (' ', { it with
      printIdx := it.printIdx + 1
      newlinePad := decide ((it.printIdx + 1) % it.numCols ≠ 0) })
  else if 0 < it.tabPad then some (' ', { it with printIdx := it.printIdx + 1, tabPad := it.tabPad - 1 })
  else
    let it' := { it with idx := it.idx + 1, printIdx := it.printIdx + 1 }
    match g.get it.idx with
    | none => some (' ', it')
    | some c =>
      if c = '\n' then some (' ', { it' with newlinePad := true })
      else if c = '\t' then some (' ', { it' with tabPad := TAB_LEN })
      else some (c, it')

/-- the characters an iterator yields; each one counts `printIdx` up to the area -/
def collect (g : GapBuffer) : (fuel : ℕ) → GapBufferIterator → List Char
  | 0, _ => []
  | fuel + 1, it =>
    match it.next g with
    | none => []
    | some (c, it) => c :: collect g fuel it

end GapBufferIterator

namespace GapBuffer

/-- the characters of `iter_at_offset`; the area of the grid wraps around as `usize` does -/
def iterAtOffset (g : GapBuffer) (numRows numCols : UInt64) (offset : ℕ) : List Char :=
  GapBufferIterator.collect g (numRows * numCols).toNat
    (GapBufferIterator.new offset (numRows * numCols).toNat numCols.toNat)

end GapBuffer

/-- the keys of `termion` that the forms tell apart -/
inductive Key where
  | backspace
  | left
  | right
  | up
  | down
  | home
  | endKey
  | delete
  | insert
  | char (c : Char)
  | ctrl (c : Char)
  /-- any other key -/
  | other
deriving DecidableEq, Repr

structure TextArea where
  elementId : ℕ
  viewportId : ℕ
  row : UInt64
  col : UInt64
  numRows : UInt64
  numCols : UInt64
  bgColor : Color
  fgColor : Color
  focusedBgColor : Color
  focusedFgColor : Color
  innerText : GapBuffer
  maxLen : ℕ
  insert : Bool
  /-- index of the first character displayed -/
  scroll : ℕ
  /-- desired column for the cursor when moving up or down -/
  cursorCol : ℕ
deriving DecidableEq, Repr

namespace TextArea

def newDetached (text : List Char) (numRows numCols : UInt64) (maxLen : ℕ) : Option TextArea :=
  (GapBuffer.new text GAP_SIZE).map fun innerText =>
    { elementId := 0
      viewportId := 0
      row := 0
      col := 0
      numRows := numRows
      numCols := numCols
      bgColor := Color.ofU32 0
      fgColor := Color.ofU32 0xffffff
      focusedBgColor := Color.ofU32 0xffffff
      focusedFgColor := Color.ofU32 0
      innerText := innerText
      maxLen := maxLen
      insert := true
      scroll := 0
      cursorCol := 0 }

/-- after a move to the left or up: scroll back to the start of the cursor's line -/
def scrollUp (t : TextArea) : Option TextArea :=
  if t.innerText.cursor < t.scroll then t.innerText.findLineStart.map fun i => { t with scroll := i } else some t

/-- after a move to the right or down: scroll so that the cursor's row is the last one -/
def scrollDown (t : TextArea) : TextArea :=
  if t.innerText.endOfArea t.scroll t.numRows.toNat t.numCols.toNat ≤ t.innerText.cursor then
    { t with scroll := t.innerText.startOfArea t.scroll t.numRows.toNat t.numCols.toNat }
  else t

def setCursorCol (t : TextArea) : TextArea := { t with cursorCol := t.innerText.cursor - t.innerText.lineStart }

/-- the part of `handle_event` that changes the form -/
def handleKey (t : TextArea) : Key → Option TextArea
  | .left => do
    let (_, g) ← t.innerText.left
    scrollUp (setCursorCol { t with innerText := g })
  | .right => do
    let (_, g) ← t.innerText.right
    return scrollDown (setCursorCol { t with innerText := g })
  | .up => do
    let g ← t.innerText.up t.cursorCol
    scrollUp { t with innerText := g }
  | .down => do
    let g ← t.innerText.down t.cursorCol
    return scrollDown { t with innerText := g }
  | .backspace => do
    let g ← t.innerText.backspace
    scrollUp { t with innerText := g }
  | .delete => do
    let g ← t.innerText.delete
    scrollUp { t with innerText := g }
  | .ctrl c =>
    if c = 'h' then do
      let g ← t.innerText.backspace
      scrollUp { t with innerText := g }
    else if c = '?' then do
      let g ← t.innerText.delete
      scrollUp { t with innerText := g }
    else some t
  | .insert => some { t with insert := !t.insert }
  | .home => do
    let (_, g) ← t.innerText.moveToLineStart
    scrollUp { t with innerText := g }
  | .endKey => do
    let (_, g) ← t.innerText.moveToLineEnd
    return scrollDown { t with innerText := g }
  | .char c => do
    let g ← if t.insert then t.innerText.insert c else t.innerText.overwrite c
    return scrollDown { t with innerText := g }
  | .other => some t

end TextArea

end Wrb.Ui
