/-
UI elements (`ui/forms/`): what each of them paints on its viewport, where it wants the cursor, and how keys change it.

Every form paints through one viewport only, and nothing else of the root but whether the form is focused decides what
it paints. So `render` is split in two: `paint`, the calls of the form on the viewport, here, and the effect on the
root, in `Wrb.Ui.Root`. `none` is a panic.
-/
import Mathlib.Tactic
import Wrb.Ui.TextArea
import Wrb.Ui.Viewport

namespace Wrb.Ui

/-- the part of `ui::Error` that rendering returns -/
inductive UiError where
  | noViewport (id : ℕ)
deriving DecidableEq, Repr

inductive WrbFormTypes where
  | text
  | print
  | button
  | checkbox
  | textLine
  | textArea
deriving DecidableEq, Repr

def WrbFormTypes.focusable : WrbFormTypes → Bool
  | .button | .checkbox | .textLine | .textArea => true
  | .text | .print => false

/-- text to print after the text before it, or at a place of its own -/
structure PrintText where
  elementId : ℕ
  viewportId : ℕ
  cursor : Option Coord
  bgColor : Color
  fgColor : Color
  text : List Char
  newline : Bool
deriving DecidableEq, Repr

def PrintText.paint (f : PrintText) (cursor : Coord) (v : Viewport) : Option (Coord × Viewport) :=
  let cursor := f.cursor.getD cursor
  if f.newline then v.println f.elementId cursor f.bgColor f.fgColor f.text
  else v.print f.elementId cursor f.bgColor f.fgColor f.text

structure RawText where
  elementId : ℕ
  viewportId : ℕ
  row : UInt64
  col : UInt64
  bgColor : Color
  fgColor : Color
  text : List Char
deriving DecidableEq, Repr

def RawText.paint (f : RawText) (v : Viewport) : Option (Coord × Viewport) :=
  v.printTo f.elementId (f.row, f.col) f.bgColor f.fgColor f.text

structure Button where
  elementId : ℕ
  viewportId : ℕ
  row : UInt64
  col : UInt64
  bgColor : Color
  fgColor : Color
  focusedBgColor : Color
  focusedFgColor : Color
  text : List Char
deriving DecidableEq, Repr

def Button.paint (f : Button) (focused : Bool) (v : Viewport) : Option (Coord × Viewport) :=
  if focused then
    v.printTo f.elementId (f.row, f.col) f.focusedBgColor f.focusedFgColor ('<' :: f.text ++ ['>'])
  else
    v.printTo f.elementId (f.row, f.col) f.bgColor f.fgColor ('[' :: f.text ++ [']'])

structure CheckboxOption where
  text : List Char
  selected : Bool
deriving DecidableEq, Repr

def CheckboxOption.toText (o : CheckboxOption) : List Char :=
  ['[', if o.selected then '*' else ' ', ']', ' '] ++ o.text

structure Checkbox where
  elementId : ℕ
  viewportId : ℕ
  row : UInt64
  col : UInt64
  bgColor : Color
  fgColor : Color
  focusedBgColor : Color
  focusedFgColor : Color
  selectorColor : Color
  options : List CheckboxOption
  selector : ℕ
deriving DecidableEq, Repr

/-- the loop over the options, from option `i` on -/
def Checkbox.paintOptions (f : Checkbox) (bg fg : Color) : List CheckboxOption → (i : ℕ) → (cursor : Coord) →
    Viewport → Option (Coord × Viewport)
  | [], _, cursor, v => some (cursor, v)
  | option :: options, i, _, v => do
    let bgColor := if i = f.selector then f.selectorColor else bg
    let (cursor, v) ← v.printTo f.elementId (f.row + UInt64.ofNat i, f.col) bgColor fg option.toText
    paintOptions f bg fg options (i + 1) cursor v

def Checkbox.paint (f : Checkbox) (focused : Bool) (cursor : Coord) (v : Viewport) : Option (Coord × Viewport) :=
  f.paintOptions (if focused then f.focusedBgColor else f.bgColor) (if focused then f.focusedFgColor else f.fgColor)
    f.options 0 cursor v

/-- the part of `handle_event` that changes the form. A selector without its option is a panic -/
def Checkbox.handleKey (f : Checkbox) : Key → Option Checkbox
  | .up => some { f with selector := f.selector - 1 }
  | .down => some { f with selector := min (f.selector + 1) (f.options.length - 1) }
  | .char c =>
    if c = '\n' ∨ c = ' ' then
      f.options[f.selector]?.map fun o =>
        { f with options := f.options.set f.selector { o with selected := !o.selected } }
    else some f
  | _ => some f

structure TextLine where
  elementId : ℕ
  viewportId : ℕ
  row : UInt64
  col : UInt64
  cursor : ℕ
  bgColor : Color
  fgColor : Color
  focusedBgColor : Color
  focusedFgColor : Color
  innerText : List Char
  maxLen : ℕ
  insert : Bool
deriving DecidableEq, Repr

/-- `String::len`, in bytes -/
def byteLen (text : List Char) : ℕ := (text.map Char.utf8Size).sum

/-- the text is padded to the columns left in the viewport, or to its largest length -/
def TextLine.paint (f : TextLine) (focused : Bool) (v : Viewport) : Option (Coord × Viewport) :=
  let width := min (v.buff.numCols.toNat - f.col.toNat) f.maxLen
  let padded := f.innerText ++ List.replicate (width - f.innerText.length) ' '
  v.printTo f.elementId (f.row, f.col) (if focused then f.focusedBgColor else f.bgColor)
    (if focused then f.focusedFgColor else f.fgColor) padded

/-- the text with a character typed at position `cursor`; `i` is the position of the first character -/
def TextLine.typeAt (c : Char) (insert : Bool) (cursor : ℕ) : List Char → (i : ℕ) → List Char
  | [], _ => []
  | chr :: text, i =>
    (if i = cursor then if insert then [c, chr] else [c] else [chr]) ++ typeAt c insert cursor text (i + 1)

/-- the character before the cursor is skipped -/
def TextLine.eraseBefore (f : TextLine) : TextLine :=
  if 0 < f.cursor then { f with innerText := f.innerText.eraseIdx (f.cursor - 1), cursor := f.cursor - 1 } else f

/-- the character at the cursor is skipped -/
def TextLine.eraseAt (f : TextLine) : TextLine :=
  if f.cursor < byteLen f.innerText then { f with innerText := f.innerText.eraseIdx f.cursor } else f

/-- the part of `handle_event` that changes the form. `String::with_capacity(max_len)` panics for a `max_len` above
`isize::MAX`; that is left out -/
def TextLine.handleKey (f : TextLine) : Key → TextLine
  | .left => { f with cursor := f.cursor - 1 }
  | .right => { f with cursor := min (min (f.cursor + 1) (byteLen f.innerText)) f.maxLen }
  | .backspace => f.eraseBefore
  | .delete => f.eraseAt
  | .ctrl c => if c = 'h' then f.eraseBefore else if c = '?' then f.eraseAt else f
  | .insert => { f with insert := !f.insert }
  | .home => { f with cursor := 0 }
  | .endKey => { f with cursor := byteLen f.innerText }
  | .char c =>
    if c = '\n' ∨ c = '\r' then f
    else if f.cursor = byteLen f.innerText ∧ byteLen f.innerText < f.maxLen then
      { f with innerText := f.innerText ++ [c], cursor := f.cursor + 1 }
    else if byteLen f.innerText < f.maxLen then
      { f with innerText := typeAt c f.insert f.cursor f.innerText 0, cursor := f.cursor + 1 }
    else f
  | _ => f

def TextArea.paint (f : TextArea) (focused : Bool) (v : Viewport) : Option (Coord × Viewport) :=
  v.printAtIter f.elementId (f.row, f.col) (if focused then f.focusedBgColor else f.bgColor)
    (if focused then f.focusedFgColor else f.fgColor) (f.innerText.iterAtOffset f.numRows f.numCols f.scroll)

/-! ## Any form -/

/-- the types that implement `WrbForm` -/
inductive Form where
  | print (f : PrintText)
  | text (f : RawText)
  | button (f : Button)
  | checkbox (f : Checkbox)
  | textLine (f : TextLine)
  | textArea (f : TextArea)
deriving DecidableEq, Repr

namespace Form

def typeId : Form → WrbFormTypes
  | .print _ => .print
  | .text _ => .text
  | .button _ => .button
  | .checkbox _ => .checkbox
  | .textLine _ => .textLine
  | .textArea _ => .textArea

def elementId : Form → ℕ
  | .print f => f.elementId
  | .text f => f.elementId
  | .button f => f.elementId
  | .checkbox f => f.elementId
  | .textLine f => f.elementId
  | .textArea f => f.elementId

def viewportId : Form → ℕ
  | .print f => f.viewportId
  | .text f => f.viewportId
  | .button f => f.viewportId
  | .checkbox f => f.viewportId
  | .textLine f => f.viewportId
  | .textArea f => f.viewportId

/-- what `render` does to the viewport of the form; `cursor` is where the form painted before it ended -/
def paint (f : Form) (focused : Bool) (cursor : Coord) (v : Viewport) : Option (Coord × Viewport) :=
  match f with
  | .print f => f.paint cursor v
  | .text f => f.paint v
  | .button f => f.paint focused v
  | .checkbox f => f.paint focused cursor v
  | .textLine f => f.paint focused v
  | .textArea f => f.paint focused v

/-- where a focused form puts the cursor, relative to its viewport -/
def cursorAt : Form → Option Coord
  | .print _ => none
  | .text _ => none
  | .button f => some (f.row, f.col + 1)
  | .checkbox f => some (f.row + UInt64.ofNat f.selector, f.col + 1)
  | .textLine f => some (f.row, f.col + UInt64.ofNat f.cursor)
  | .textArea f => (f.innerText.cursorLocation f.scroll f.numRows.toNat f.numCols.toNat).map fun c =>
      (f.row + UInt64.ofNat c.1, f.col + UInt64.ofNat c.2)

/-- the part of `handle_event` that changes the form, and the value it returns: a button pressed returns `true` -/
def handleKey (f : Form) (key : Key) : Option (Option Bool × Form) :=
  match f with
  | .print _ => some (none, f)
  | .text _ => some (none, f)
  | .button _ => some (if key = .char '\n' then some true else none, f)
  | .checkbox f => (f.handleKey key).map fun f => (none, .checkbox f)
  | .textLine f => some (none, .textLine (f.handleKey key))
  | .textArea f => (f.handleKey key).map fun f => (none, .textArea f)

end Form

/-! ## What painting leaves alone -/

/-- a viewport after painting on it: everything but the cells and the corners of its elements is the same -/
structure SameFrame (v v' : Viewport) : Prop where
  id : v'.id = v.id
  pos : v'.pos = v.pos
  dims : v'.dims = v.dims
  visible : v'.visible = v.visible
  parent : v'.parent = v.parent
  scroll : v'.scrollOffset = v.scrollOffset

theorem SameFrame.refl (v : Viewport) : SameFrame v v := ⟨rfl, rfl, rfl, rfl, rfl, rfl⟩

theorem SameFrame.trans {v v' v'' : Viewport} (h : SameFrame v v') (h' : SameFrame v' v'') : SameFrame v v'' :=
  ⟨h'.id.trans h.id, h'.pos.trans h.pos, h'.dims.trans h.dims, h'.visible.trans h.visible, h'.parent.trans h.parent,
    h'.scroll.trans h.scroll⟩

theorem Viewport.printWith_sameFrame {v v' : Viewport} {elementId : ℕ} {start ret : Coord}
    {how : CharBuff → Option (Coord × CharBuff)} (hhow : ∀ b r, how b = some r → r.2.numCols = b.numCols)
    (h : v.printWith elementId start how = some (ret, v')) : SameFrame v v' := by
  have hcoords : SameFrame v (v.updateElementCoord elementId start) := by
    unfold updateElementCoord
    split <;> exact ⟨rfl, rfl, rfl, rfl, rfl, rfl⟩
  obtain ⟨⟨c, b⟩, hb, hr⟩ := Option.map_eq_some_iff.1 h
  cases hr
  have hcols := hhow _ _ hb
  refine hcoords.trans ⟨rfl, rfl, ?_, rfl, rfl, rfl⟩
  exact Prod.ext rfl hcols

theorem Viewport.printAt_sameFrame {v v' : Viewport} {elementId : ℕ} {start ret : Coord} {bg fg : Color}
    {text : List Char} (h : v.printTo elementId start bg fg text = some (ret, v')) : SameFrame v v' :=
  printWith_sameFrame (fun _ _ hr => CharBuff.printAt_numCols hr) h

theorem Checkbox.paintOptions_sameFrame {f : Checkbox} {bg fg : Color} {options : List CheckboxOption} {i : ℕ}
    {cursor ret : Coord} {v v' : Viewport} (h : f.paintOptions bg fg options i cursor v = some (ret, v')) :
    SameFrame v v' := by
  induction options generalizing i cursor v with
  | nil =>
    cases h
    exact .refl _
  | cons option options ih =>
    obtain ⟨⟨c, v₁⟩, h₁, h₂⟩ := Option.bind_eq_some_iff.1 h
    exact (Viewport.printAt_sameFrame h₁).trans (ih h₂)

/-- **Painting keeps the frame** of the viewport, whatever the form -/
theorem Form.paint_sameFrame {f : Form} {focused : Bool} {cursor ret : Coord} {v v' : Viewport}
    (h : f.paint focused cursor v = some (ret, v')) : SameFrame v v' := by
  cases f with
  | print f =>
    simp only [paint, PrintText.paint] at h
    split_ifs at h
    · exact Viewport.printWith_sameFrame (fun _ _ hr => CharBuff.innerPrint_numCols hr) h
    · exact Viewport.printWith_sameFrame (fun _ _ hr => CharBuff.innerPrint_numCols hr) h
  | text f => exact Viewport.printAt_sameFrame h
  | button f =>
    simp only [paint, Button.paint] at h
    split_ifs at h
    · exact Viewport.printAt_sameFrame h
    · exact Viewport.printAt_sameFrame h
  | checkbox f => exact Checkbox.paintOptions_sameFrame h
  | textLine f => exact Viewport.printAt_sameFrame h
  | textArea f => exact Viewport.printWith_sameFrame (fun _ _ hr => CharBuff.printAt_numCols hr) h

end Wrb.Ui
