/-
The UI elements of `vm/contracts/wrb.clar`: static elements, numbered from 0 on, with one map for each type; dynamic
texts and prints, numbered from 2^127 + 1 on, in two bounded lists; their texts, in a table by handle
(`wrb-ll-large-strings`, and the cache of the runtime before it).

Layers:
- the functions of the contract, and a call with its effect (`step`);
- `Page`: what the elements are for, the contents of the page in the order of creation;
- `Holds` and `Numbered`: the maps, lists and tables hold the contents of a page, under distinct IDs.

Results:
- `step_holds`: a call does to the contract what it does to the page;
- `elements_consistent`: after fewer than 2^127 calls, IDs are distinct, every static index has a descriptor and a
  payload of its type, and the text under the handle of an element is the one it was created with.
-/
import Mathlib.Tactic
import Wrb.Contracts.Clarity
import Wrb.Lib.Runs
import Wrb.Ui.Value

namespace Wrb.Contracts

open Wrb.Runs

/-! ## The contract -/

/-- the items of a `string-utf8` -/
abbrev Utf8 := List (List UInt8)

def WRB_UI_TYPE_TEXT : ℕ := 4
def WRB_UI_TYPE_PRINT : ℕ := 5
def WRB_UI_TYPE_BUTTON : ℕ := 6
def WRB_UI_TYPE_CHECKBOX : ℕ := 7
def WRB_UI_TYPE_TEXTLINE : ℕ := 8
def WRB_UI_TYPE_TEXTAREA : ℕ := 9

def UPPER_U128 : ℕ := 170141183460469231731687303715884105728

def MAX_DYNAMIC_UI_ELEMENTS : ℕ := 1024

/-- `{ col: uint, row: uint }` -/
structure Cursor where
  col : ℕ
  row : ℕ
deriving DecidableEq, Repr

/-- `{ fg: uint, bg: uint }` -/
structure Colors where
  fg : ℕ
  bg : ℕ
deriving DecidableEq, Repr

/-! Default styles: variables that no function of the contract sets. -/

def DEFAULT_BUTTON_COLORS : Colors := { fg := 0, bg := 16776960 }
def DEFAULT_FOCUSED_BUTTON_COLORS : Colors := { fg := 0, bg := 16711935 }

def DEFAULT_CHECKBOX_COLORS : Colors := { fg := 0, bg := 16776960 }
def DEFAULT_FOCUSED_CHECKBOX_COLORS : Colors := { fg := 0, bg := 16711935 }
def DEFAULT_CHECKBOX_SELECTOR_COLOR : ℕ := 16711680

def DEFAULT_TEXTLINE_COLORS : Colors := { fg := 0, bg := 16776960 }
def DEFAULT_FOCUSED_TEXTLINE_COLORS : Colors := { fg := 0, bg := 16711935 }

def DEFAULT_TEXTAREA_COLORS : Colors := { fg := 0, bg := 16776960 }
def DEFAULT_FOCUSED_TEXTAREA_COLORS : Colors := { fg := 0, bg := 16711935 }

/-- a row of `wrb-ui-list` -/
structure Descriptor where
  viewport : ℕ
  type : ℕ
deriving DecidableEq, Repr

/-- a row of `wrb-viewport-text-list` -/
structure TextRow where
  elementId : ℕ
  textHandle : ℕ
  col : ℕ
  row : ℕ
  bgColor : ℕ
  fgColor : ℕ
deriving DecidableEq, Repr

/-- a row of `wrb-viewport-print-list` -/
structure PrintRow where
  elementId : ℕ
  textHandle : ℕ
  cursor : Option Cursor
  bgColor : ℕ
  fgColor : ℕ
  newline : Bool
deriving DecidableEq, Repr

/-- a row of `wrb-viewport-button-list` -/
structure ButtonRow where
  elementId : ℕ
  text : Utf8
  col : ℕ
  row : ℕ
  bgColor : ℕ
  fgColor : ℕ
  focusedBgColor : ℕ
  focusedFgColor : ℕ
deriving DecidableEq, Repr

/-- `{ text: (string-utf8 200), selected: bool }` -/
structure OptionRow where
  text : Utf8
  selected : Bool
deriving DecidableEq, Repr

/-- a row of `wrb-viewport-checkbox-list` -/
structure CheckboxRow where
  elementId : ℕ
  col : ℕ
  row : ℕ
  bgColor : ℕ
  fgColor : ℕ
  focusedBgColor : ℕ
  focusedFgColor : ℕ
  selectorColor : ℕ
  options : List OptionRow
deriving DecidableEq, Repr

/-- a row of `wrb-viewport-textline-list` -/
structure TextlineRow where
  elementId : ℕ
  col : ℕ
  row : ℕ
  bgColor : ℕ
  fgColor : ℕ
  focusedBgColor : ℕ
  focusedFgColor : ℕ
  maxLen : ℕ
  text : Utf8
deriving DecidableEq, Repr

/-- a row of `wrb-viewport-textarea-list` -/
structure TextareaRow where
  elementId : ℕ
  col : ℕ
  row : ℕ
  numRows : ℕ
  numCols : ℕ
  bgColor : ℕ
  fgColor : ℕ
  focusedBgColor : ℕ
  focusedFgColor : ℕ
  maxLen : ℕ
  text : Utf8
deriving DecidableEq, Repr

/-- an item of `wrb-dynamic-text` -/
structure DynamicText where
  viewportId : ℕ
  elementId : ℕ
  row : ℕ
  col : ℕ
  bgColor : ℕ
  fgColor : ℕ
  textHandle : ℕ
deriving DecidableEq, Repr

/-- an item of `wrb-dynamic-prints` -/
structure DynamicPrint where
  viewportId : ℕ
  elementId : ℕ
  cursor : Option Cursor
  bgColor : ℕ
  fgColor : ℕ
  textHandle : ℕ
  newline : Bool
deriving DecidableEq, Repr

structure Elements where
  uiList : ℕ → Option Descriptor
  uiListLen : ℕ
  textList : ℕ → Option TextRow
  printList : ℕ → Option PrintRow
  buttonList : ℕ → Option ButtonRow
  checkboxList : ℕ → Option CheckboxRow
  textlineList : ℕ → Option TextlineRow
  textareaList : ℕ → Option TextareaRow
  dynamicElementId : ℕ
  dynamicText : List DynamicText
  dynamicPrints : List DynamicPrint
  staticTxtColors : ℕ → Option Colors
  txtColors : ℕ → Option Colors
  clearTargetViewportId : ℕ
  /-- `wrb-ll-large-strings` -/
  largeStrings : ℕ → Option Utf8
  /-- `globals.large_strings`: the texts as the runtime reads them -/
  cachedStrings : ℕ → Option (List Char)

namespace Elements

/-- a contract just deployed -/
def deployed : Elements where
  uiList _ := none
  uiListLen := 0
  textList _ := none
  printList _ := none
  buttonList _ := none
  checkboxList _ := none
  textlineList _ := none
  textareaList _ := none
  dynamicElementId := UPPER_U128
  dynamicText := []
  dynamicPrints := []
  staticTxtColors _ := none
  txtColors _ := none
  clearTargetViewportId := 0
  largeStrings _ := none
  cachedStrings _ := none

/-- `wrb-ll-store-large-string-utf8`, and `handle_store_large_string_utf8` after it -/
def wrbStoreLargeStringUtf8 (s : Elements) (handle : ℕ) (value : Utf8) : Elements :=
  { s with
    largeStrings := mapSet s.largeStrings handle value
    cachedStrings := mapSet s.cachedStrings handle (value.map Ui.charOfItem) }

/-- register a UI element whose payload is stored at the next index, and count it. Returns the index -/
def registerElement (s : Elements) (id type : ℕ) : Except CallError (ℕ × Elements) := do
  let uiListLen := s.uiListLen
  let s := { s with uiList := mapSet s.uiList uiListLen ⟨id, type⟩ }
  let next ← uintAdd 1 uiListLen
  return (uiListLen, { s with uiListLen := next })

/-- add static raw text to a viewport -/
def wrbStaticTxtImmediate (s : Elements) (id row col bgColor fgColor : ℕ) (text : Utf8) :
    Except CallError (Bool × Elements) := do
  let uiListLen := s.uiListLen
  let s := s.wrbStoreLargeStringUtf8 uiListLen text
  let textRow : TextRow := {
    elementId := uiListLen, row := row, col := col, bgColor := bgColor, fgColor := fgColor, textHandle := uiListLen }
  let s := { s with textList := mapSet s.textList uiListLen textRow }
  let (_, s) ← s.registerElement id WRB_UI_TYPE_TEXT
  return (true, s)

/-- print static text to a viewport, with wordwrap -/
def wrbInnerStaticPrintLnImmediate (s : Elements) (id : ℕ) (cursor : Option Cursor) (bgColor fgColor : ℕ) (text : Utf8)
    (newline : Bool) : Except CallError (Bool × Elements) := do
  let uiListLen := s.uiListLen
  let s := s.wrbStoreLargeStringUtf8 uiListLen text
  let printRow : PrintRow := {
    elementId := uiListLen, cursor := cursor, bgColor := bgColor, fgColor := fgColor, textHandle := uiListLen
    newline := newline }
  let s := { s with printList := mapSet s.printList uiListLen printRow }
  let (_, s) ← s.registerElement id WRB_UI_TYPE_PRINT
  return (true, s)

def wrbButton (s : Elements) (id row col : ℕ) (text : Utf8) : Except CallError (ℕ × Elements) :=
  let uiListLen := s.uiListLen
  let button : ButtonRow := {
    elementId := uiListLen, text := text, col := col, row := row
    fgColor := DEFAULT_BUTTON_COLORS.fg, bgColor := DEFAULT_BUTTON_COLORS.bg
    focusedFgColor := DEFAULT_FOCUSED_BUTTON_COLORS.fg, focusedBgColor := DEFAULT_FOCUSED_BUTTON_COLORS.bg }
  let s := { s with buttonList := mapSet s.buttonList uiListLen button }
  s.registerElement id WRB_UI_TYPE_BUTTON

def wrbCheckbox (s : Elements) (id row col : ℕ) (options : List OptionRow) : Except CallError (ℕ × Elements) :=
  let uiListLen := s.uiListLen
  let checkbox : CheckboxRow := {
    elementId := uiListLen, col := col, row := row
    fgColor := DEFAULT_CHECKBOX_COLORS.fg, bgColor := DEFAULT_CHECKBOX_COLORS.bg
    focusedFgColor := DEFAULT_FOCUSED_CHECKBOX_COLORS.fg, focusedBgColor := DEFAULT_FOCUSED_CHECKBOX_COLORS.bg
    selectorColor := DEFAULT_CHECKBOX_SELECTOR_COLOR, options := options }
  let s := { s with checkboxList := mapSet s.checkboxList uiListLen checkbox }
  s.registerElement id WRB_UI_TYPE_CHECKBOX

def wrbTextline (s : Elements) (id row col maxLen : ℕ) (text : Utf8) : Except CallError (ℕ × Elements) :=
  let uiListLen := s.uiListLen
  let textline : TextlineRow := {
    elementId := uiListLen, col := col, row := row
    fgColor := DEFAULT_TEXTLINE_COLORS.fg, bgColor := DEFAULT_TEXTLINE_COLORS.bg
    focusedFgColor := DEFAULT_FOCUSED_TEXTLINE_COLORS.fg, focusedBgColor := DEFAULT_FOCUSED_TEXTLINE_COLORS.bg
    maxLen := maxLen, text := text }
  let s := { s with textlineList := mapSet s.textlineList uiListLen textline }
  s.registerElement id WRB_UI_TYPE_TEXTLINE

def wrbTextarea (s : Elements) (id row col numRows numCols maxLen : ℕ) (text : Utf8) :
    Except CallError (ℕ × Elements) :=
  let uiListLen := s.uiListLen
  let textarea : TextareaRow := {
    elementId := uiListLen, col := col, row := row, numRows := numRows, numCols := numCols
    fgColor := DEFAULT_TEXTAREA_COLORS.fg, bgColor := DEFAULT_TEXTAREA_COLORS.bg
    focusedFgColor := DEFAULT_FOCUSED_TEXTAREA_COLORS.fg, focusedBgColor := DEFAULT_FOCUSED_TEXTAREA_COLORS.bg
    maxLen := maxLen, text := text }
  let s := { s with textareaList := mapSet s.textareaList uiListLen textarea }
  s.registerElement id WRB_UI_TYPE_TEXTAREA

/-- print dynamic text to a viewport. Returns false if there are too many texts -/
def wrbTxtImmediate (s : Elements) (id row col bgColor fgColor : ℕ) (text : Utf8) :
    Except CallError (Bool × Elements) := do
  let elementId ← uintAdd 1 s.dynamicElementId
  let uiList := s.dynamicText
  let newUiList := (asMaxLen (uiList ++ [
    { viewportId := id, elementId := elementId, row := row, col := col, bgColor := bgColor, fgColor := fgColor
      textHandle := elementId }]) 1024).getD uiList
  if uiList.length < MAX_DYNAMIC_UI_ELEMENTS then
    let s := s.wrbStoreLargeStringUtf8 elementId text
    return (true, { s with dynamicElementId := elementId, dynamicText := newUiList })
  else return (false, s)

/-- print dynamic text to a viewport, with wordwrap. Returns false if there are too many prints -/
def wrbInnerPrintLnImmediate (s : Elements) (id : ℕ) (cursor : Option Cursor) (bgColor fgColor : ℕ) (text : Utf8)
    (newline : Bool) : Except CallError (Bool × Elements) := do
  let elementId ← uintAdd 1 s.dynamicElementId
  let uiList := s.dynamicPrints
  let newUiList := (asMaxLen (uiList ++ [
    { viewportId := id, elementId := elementId, cursor := cursor, bgColor := bgColor, fgColor := fgColor
      textHandle := elementId, newline := newline }]) 1024).getD uiList
  if uiList.length < MAX_DYNAMIC_UI_ELEMENTS then
    let s := s.wrbStoreLargeStringUtf8 elementId text
    return (true, { s with dynamicElementId := elementId, dynamicPrints := newUiList })
  else return (false, s)

def wrbSetStaticTxtColors (s : Elements) (viewportId fg bg : ℕ) : Elements :=
  { s with staticTxtColors := mapSet s.staticTxtColors viewportId ⟨fg, bg⟩ }

def wrbSetTxtColors (s : Elements) (viewportId fg bg : ℕ) : Elements :=
  { s with txtColors := mapSet s.txtColors viewportId ⟨fg, bg⟩ }

def wrbGetStaticTxtColors (s : Elements) (viewportId : ℕ) : Colors := (s.staticTxtColors viewportId).getD ⟨16777215, 0⟩

def wrbGetTxtColors (s : Elements) (viewportId : ℕ) : Colors := (s.txtColors viewportId).getD ⟨16777215, 0⟩

/-- clear a viewport of text -/
def wrbViewportClear (s : Elements) (id : ℕ) : Elements :=
  let s := { s with clearTargetViewportId := id }
  { s with
    dynamicText := s.dynamicText.filter fun e => e.viewportId ≠ s.clearTargetViewportId
    dynamicPrints := s.dynamicPrints.filter fun e => e.viewportId ≠ s.clearTargetViewportId }

end Elements

/-- the calls of a page -/
inductive ElementCall where
  | staticTxtImmediate (id row col bgColor fgColor : ℕ) (text : Utf8)
  | staticPrintImmediate (id : ℕ) (cursor : Option Cursor) (bgColor fgColor : ℕ) (text : Utf8)
  | staticPrintlnImmediate (id : ℕ) (cursor : Option Cursor) (bgColor fgColor : ℕ) (text : Utf8)
  | staticTxt (id row col : ℕ) (text : Utf8)
  | staticPrint (id : ℕ) (cursor : Option Cursor) (text : Utf8)
  | staticPrintln (id : ℕ) (cursor : Option Cursor) (text : Utf8)
  | txtImmediate (id row col bgColor fgColor : ℕ) (text : Utf8)
  | printImmediate (id : ℕ) (cursor : Option Cursor) (bgColor fgColor : ℕ) (text : Utf8)
  | printlnImmediate (id : ℕ) (cursor : Option Cursor) (bgColor fgColor : ℕ) (text : Utf8)
  | txt (id row col : ℕ) (text : Utf8)
  | print (id : ℕ) (cursor : Option Cursor) (text : Utf8)
  | println (id : ℕ) (cursor : Option Cursor) (text : Utf8)
  | setStaticTxtColors (viewportId fg bg : ℕ)
  | setTxtColors (viewportId fg bg : ℕ)
  | viewportClear (id : ℕ)
  | button (id row col : ℕ) (text : Utf8)
  | checkbox (id row col : ℕ) (options : List OptionRow)
  | textline (id row col maxLen : ℕ) (text : Utf8)
  | textarea (id row col numRows numCols maxLen : ℕ) (text : Utf8)
deriving DecidableEq, Repr

namespace Elements

/-- what a call leaves, or how it fails -/
def call (s : Elements) : ElementCall → Except CallError Elements
  | .staticTxtImmediate id row col bg fg text => Prod.snd <$> s.wrbStaticTxtImmediate id row col bg fg text
  | .staticPrintImmediate id cursor bg fg text =>
    Prod.snd <$> s.wrbInnerStaticPrintLnImmediate id cursor bg fg text false
  | .staticPrintlnImmediate id cursor bg fg text =>
    Prod.snd <$> s.wrbInnerStaticPrintLnImmediate id cursor bg fg text true
  | .staticTxt id row col text =>
    let colors := s.wrbGetStaticTxtColors id
    Prod.snd <$> s.wrbStaticTxtImmediate id row col colors.bg colors.fg text
  | .staticPrint id cursor text =>
    let colors := s.wrbGetStaticTxtColors id
    Prod.snd <$> s.wrbInnerStaticPrintLnImmediate id cursor colors.bg colors.fg text false
  | .staticPrintln id cursor text =>
    let colors := s.wrbGetStaticTxtColors id
    Prod.snd <$> s.wrbInnerStaticPrintLnImmediate id cursor colors.bg colors.fg text true
  | .txtImmediate id row col bg fg text => Prod.snd <$> s.wrbTxtImmediate id row col bg fg text
  | .printImmediate id cursor bg fg text => Prod.snd <$> s.wrbInnerPrintLnImmediate id cursor bg fg text false
  | .printlnImmediate id cursor bg fg text => Prod.snd <$> s.wrbInnerPrintLnImmediate id cursor bg fg text true
  | .txt id row col text =>
    let colors := s.wrbGetTxtColors id
    Prod.snd <$> s.wrbTxtImmediate id row col colors.bg colors.fg text
  | .print id cursor text =>
    let colors := s.wrbGetTxtColors id
    Prod.snd <$> s.wrbInnerPrintLnImmediate id cursor colors.bg colors.fg text false
  | .println id cursor text =>
    let colors := s.wrbGetTxtColors id
    Prod.snd <$> s.wrbInnerPrintLnImmediate id cursor colors.bg colors.fg text true
  | .setStaticTxtColors viewportId fg bg => .ok (s.wrbSetStaticTxtColors viewportId fg bg)
  | .setTxtColors viewportId fg bg => .ok (s.wrbSetTxtColors viewportId fg bg)
  | .viewportClear id => .ok (s.wrbViewportClear id)
  | .button id row col text => Prod.snd <$> s.wrbButton id row col text
  | .checkbox id row col options => Prod.snd <$> s.wrbCheckbox id row col options
  | .textline id row col maxLen text => Prod.snd <$> s.wrbTextline id row col maxLen text
  | .textarea id row col numRows numCols maxLen text =>
    Prod.snd <$> s.wrbTextarea id row col numRows numCols maxLen text

def step (s : Elements) (c : ElementCall) : Elements :=
  match s.call c with
  | .ok s' => s'
  | .error _ => s

end Elements

/-! ## The contents of a page -/

/-- a static element, with what it was created with -/
inductive StaticContent where
  | text (row col bgColor fgColor : ℕ) (text : Utf8)
  | print (cursor : Option Cursor) (bgColor fgColor : ℕ) (text : Utf8) (newline : Bool)
  | button (row col : ℕ) (text : Utf8)
  | checkbox (row col : ℕ) (options : List OptionRow)
  | textline (row col maxLen : ℕ) (text : Utf8)
  | textarea (row col numRows numCols maxLen : ℕ) (text : Utf8)
deriving DecidableEq, Repr

structure StaticElement where
  viewport : ℕ
  content : StaticContent
deriving DecidableEq, Repr

/-- a dynamic text, with what it was created with -/
structure TextElement where
  viewport : ℕ
  row : ℕ
  col : ℕ
  bgColor : ℕ
  fgColor : ℕ
  text : Utf8
deriving DecidableEq, Repr

/-- a dynamic print, with what it was created with -/
structure PrintElement where
  viewport : ℕ
  cursor : Option Cursor
  bgColor : ℕ
  fgColor : ℕ
  text : Utf8
  newline : Bool
deriving DecidableEq, Repr

structure Page where
  static : List StaticElement
  texts : List TextElement
  prints : List PrintElement
  staticColors : ℕ → Colors
  colors : ℕ → Colors

namespace Page

def empty : Page := ⟨[], [], [], fun _ => ⟨16777215, 0⟩, fun _ => ⟨16777215, 0⟩⟩

def addStatic (p : Page) (viewport : ℕ) (content : StaticContent) : Page :=
  { p with static := p.static ++ [⟨viewport, content⟩] }

/-- a page has room for so many dynamic texts -/
def addText (p : Page) (e : TextElement) : Page :=
  if p.texts.length < MAX_DYNAMIC_UI_ELEMENTS then { p with texts := p.texts ++ [e] } else p

/-- and for so many prints -/
def addPrint (p : Page) (e : PrintElement) : Page :=
  if p.prints.length < MAX_DYNAMIC_UI_ELEMENTS then { p with prints := p.prints ++ [e] } else p

def step (p : Page) : ElementCall → Page
  | .staticTxtImmediate id row col bg fg text => p.addStatic id (.text row col bg fg text)
  | .staticPrintImmediate id cursor bg fg text => p.addStatic id (.print cursor bg fg text false)
  | .staticPrintlnImmediate id cursor bg fg text => p.addStatic id (.print cursor bg fg text true)
  | .staticTxt id row col text => p.addStatic id (.text row col (p.staticColors id).bg (p.staticColors id).fg text)
  | .staticPrint id cursor text =>
    p.addStatic id (.print cursor (p.staticColors id).bg (p.staticColors id).fg text false)
  | .staticPrintln id cursor text =>
    p.addStatic id (.print cursor (p.staticColors id).bg (p.staticColors id).fg text true)
  | .txtImmediate id row col bg fg text => p.addText ⟨id, row, col, bg, fg, text⟩
  | .printImmediate id cursor bg fg text => p.addPrint ⟨id, cursor, bg, fg, text, false⟩
  | .printlnImmediate id cursor bg fg text => p.addPrint ⟨id, cursor, bg, fg, text, true⟩
  | .txt id row col text => p.addText ⟨id, row, col, (p.colors id).bg, (p.colors id).fg, text⟩
  | .print id cursor text => p.addPrint ⟨id, cursor, (p.colors id).bg, (p.colors id).fg, text, false⟩
  | .println id cursor text => p.addPrint ⟨id, cursor, (p.colors id).bg, (p.colors id).fg, text, true⟩
  | .setStaticTxtColors viewportId fg bg =>
    { p with staticColors := Function.update p.staticColors viewportId ⟨fg, bg⟩ }
  | .setTxtColors viewportId fg bg => { p with colors := Function.update p.colors viewportId ⟨fg, bg⟩ }
  | .viewportClear id =>
    { p with
      texts := p.texts.filter fun e => e.viewport ≠ id
      prints := p.prints.filter fun e => e.viewport ≠ id }
  | .button id row col text => p.addStatic id (.button row col text)
  | .checkbox id row col options => p.addStatic id (.checkbox row col options)
  | .textline id row col maxLen text => p.addStatic id (.textline row col maxLen text)
  | .textarea id row col numRows numCols maxLen text =>
    p.addStatic id (.textarea row col numRows numCols maxLen text)

end Page

/-! ## What the contract holds of it -/

/-- the rows of the tables at an index -/
structure Cell where
  descriptor : Option Descriptor
  textRow : Option TextRow
  printRow : Option PrintRow
  buttonRow : Option ButtonRow
  checkboxRow : Option CheckboxRow
  textlineRow : Option TextlineRow
  textareaRow : Option TextareaRow
  largeString : Option Utf8

/-- the element ID in the payload of a type -/
def Cell.payloadId (c : Cell) (type : ℕ) : Option ℕ :=
  if type = WRB_UI_TYPE_TEXT then c.textRow.map TextRow.elementId
  else if type = WRB_UI_TYPE_PRINT then c.printRow.map PrintRow.elementId
  else if type = WRB_UI_TYPE_BUTTON then c.buttonRow.map ButtonRow.elementId
  else if type = WRB_UI_TYPE_CHECKBOX then c.checkboxRow.map CheckboxRow.elementId
  else if type = WRB_UI_TYPE_TEXTLINE then c.textlineRow.map TextlineRow.elementId
  else if type = WRB_UI_TYPE_TEXTAREA then c.textareaRow.map TextareaRow.elementId
  else none

def StaticContent.type : StaticContent → ℕ
  | text .. => WRB_UI_TYPE_TEXT
  | print .. => WRB_UI_TYPE_PRINT
  | button .. => WRB_UI_TYPE_BUTTON
  | checkbox .. => WRB_UI_TYPE_CHECKBOX
  | textline .. => WRB_UI_TYPE_TEXTLINE
  | textarea .. => WRB_UI_TYPE_TEXTAREA

/-- the payload of index `i` is the content, and the large string under its handle the text -/
def StaticContent.HeldAt (i : ℕ) (c : Cell) : StaticContent → Prop
  | text row col bg fg txt => c.textRow = some ⟨i, i, col, row, bg, fg⟩ ∧ c.largeString = some txt
  | print cursor bg fg txt newline => c.printRow = some ⟨i, i, cursor, bg, fg, newline⟩ ∧ c.largeString = some txt
  | button row col txt =>
    c.buttonRow = some ⟨i, txt, col, row, DEFAULT_BUTTON_COLORS.bg, DEFAULT_BUTTON_COLORS.fg,
      DEFAULT_FOCUSED_BUTTON_COLORS.bg, DEFAULT_FOCUSED_BUTTON_COLORS.fg⟩
  | checkbox row col options =>
    c.checkboxRow = some ⟨i, col, row, DEFAULT_CHECKBOX_COLORS.bg, DEFAULT_CHECKBOX_COLORS.fg,
      DEFAULT_FOCUSED_CHECKBOX_COLORS.bg, DEFAULT_FOCUSED_CHECKBOX_COLORS.fg, DEFAULT_CHECKBOX_SELECTOR_COLOR, options⟩
  | textline row col maxLen txt =>
    c.textlineRow = some ⟨i, col, row, DEFAULT_TEXTLINE_COLORS.bg, DEFAULT_TEXTLINE_COLORS.fg,
      DEFAULT_FOCUSED_TEXTLINE_COLORS.bg, DEFAULT_FOCUSED_TEXTLINE_COLORS.fg, maxLen, txt⟩
  | textarea row col numRows numCols maxLen txt =>
    c.textareaRow = some ⟨i, col, row, numRows, numCols, DEFAULT_TEXTAREA_COLORS.bg, DEFAULT_TEXTAREA_COLORS.fg,
      DEFAULT_FOCUSED_TEXTAREA_COLORS.bg, DEFAULT_FOCUSED_TEXTAREA_COLORS.fg, maxLen, txt⟩

/-- a payload held carries its index as element ID -/
theorem StaticContent.HeldAt.payloadId {i : ℕ} {c : Cell} {content : StaticContent} (h : content.HeldAt i c) :
    c.payloadId content.type = some i := by
  cases content with
  | text => exact congrArg (Option.map TextRow.elementId) h.1
  | print => exact congrArg (Option.map PrintRow.elementId) h.1
  | button =>
    have hrow : c.buttonRow = some _ := h
    exact congrArg (Option.map ButtonRow.elementId) hrow
  | checkbox =>
    have hrow : c.checkboxRow = some _ := h
    exact congrArg (Option.map CheckboxRow.elementId) hrow
  | textline =>
    have hrow : c.textlineRow = some _ := h
    exact congrArg (Option.map TextlineRow.elementId) hrow
  | textarea =>
    have hrow : c.textareaRow = some _ := h
    exact congrArg (Option.map TextareaRow.elementId) hrow

namespace Elements

def cell (s : Elements) (i : ℕ) : Cell where
  descriptor := s.uiList i
  textRow := s.textList i
  printRow := s.printList i
  buttonRow := s.buttonList i
  checkboxRow := s.checkboxList i
  textlineRow := s.textlineList i
  textareaRow := s.textareaList i
  largeString := s.largeStrings i

/-- a dynamic text with the large string under its handle -/
def readText (s : Elements) (d : DynamicText) : Option TextElement :=
  (s.cell d.textHandle).largeString.map fun text => ⟨d.viewportId, d.row, d.col, d.bgColor, d.fgColor, text⟩

def readPrint (s : Elements) (d : DynamicPrint) : Option PrintElement :=
  (s.cell d.textHandle).largeString.map fun text => ⟨d.viewportId, d.cursor, d.bgColor, d.fgColor, text, d.newline⟩

/-- the cache holds the large strings as the runtime reads them -/
def Cached (s : Elements) : Prop := ∀ h, s.cachedStrings h = (s.largeStrings h).map (·.map Ui.charOfItem)

/-- **The contract holds a page**: each static element in its tables at its index, each dynamic one in its list -/
structure Holds (s : Elements) (p : Page) : Prop where
  len : p.static.length = s.uiListLen
  descriptor : ∀ (i : ℕ) (e : StaticElement), p.static[i]? = some e →
    (s.cell i).descriptor = some ⟨e.viewport, e.content.type⟩
  payload : ∀ (i : ℕ) (e : StaticElement), p.static[i]? = some e → e.content.HeldAt i (s.cell i)
  texts : s.dynamicText.map s.readText = p.texts.map some
  prints : s.dynamicPrints.map s.readPrint = p.prints.map some
  staticColors : ∀ id, s.wrbGetStaticTxtColors id = p.staticColors id
  colors : ∀ id, s.wrbGetTxtColors id = p.colors id
  cached : s.Cached

/-- the IDs of the live dynamic elements -/
def dynamicIds (s : Elements) : List ℕ :=
  s.dynamicText.map DynamicText.elementId ++ s.dynamicPrints.map DynamicPrint.elementId

/-- the numbers given out by at most `n` calls: dynamic IDs are beyond all static ones, and the next is beyond them -/
structure Numbered (s : Elements) (n : ℕ) : Prop where
  static_le : s.uiListLen ≤ n
  upper_le : UPPER_U128 ≤ s.dynamicElementId
  dynamic_le : s.dynamicElementId ≤ UPPER_U128 + n
  range : ∀ id ∈ s.dynamicIds, UPPER_U128 < id ∧ id ≤ s.dynamicElementId
  distinct : s.dynamicIds.Nodup
  textHandle : ∀ d ∈ s.dynamicText, d.textHandle = d.elementId
  printHandle : ∀ d ∈ s.dynamicPrints, d.textHandle = d.elementId

/-! ## Changes at one index -/

/-- of the tables and lists of `s`, `s'` has other rows at index `i` only -/
structure OnlyAt (i : ℕ) (s s' : Elements) : Prop where
  cell : ∀ k, k ≠ i → s'.cell k = s.cell k
  uiListLen : s'.uiListLen = s.uiListLen
  dynamicElementId : s'.dynamicElementId = s.dynamicElementId
  dynamicText : s'.dynamicText = s.dynamicText
  dynamicPrints : s'.dynamicPrints = s.dynamicPrints
  staticTxtColors : s'.staticTxtColors = s.staticTxtColors
  txtColors : s'.txtColors = s.txtColors
  cached : s.Cached → s'.Cached

theorem store_onlyAt (s : Elements) (i : ℕ) (text : Utf8) : OnlyAt i s (s.wrbStoreLargeStringUtf8 i text) where
  cell k hk := by simp [cell, wrbStoreLargeStringUtf8, hk]
  uiListLen := rfl
  dynamicElementId := rfl
  dynamicText := rfl
  dynamicPrints := rfl
  staticTxtColors := rfl
  txtColors := rfl
  cached h k := by
    show mapSet s.cachedStrings i _ k = (mapSet s.largeStrings i text k).map _
    rw [mapSet_apply, mapSet_apply]
    split_ifs
    · rfl
    · exact h k

/-- what is read of a dynamic text or print depends on the cell of its handle -/
theorem readText_congr {s s' : Elements} {d : DynamicText} (h : s'.cell d.textHandle = s.cell d.textHandle) :
    s'.readText d = s.readText d := by rw [readText, readText, h]

theorem readPrint_congr {s s' : Elements} {d : DynamicPrint} (h : s'.cell d.textHandle = s.cell d.textHandle) :
    s'.readPrint d = s.readPrint d := by rw [readPrint, readPrint, h]

theorem getElem?_append_singleton {α : Type} {l : List α} {a e : α} {i : ℕ} (h : (l ++ [a])[i]? = some e) :
    l[i]? = some e ∨ i = l.length ∧ e = a := by
  rcases Nat.lt_or_ge i l.length with hlt | hge
  · rw [List.getElem?_append_left hlt] at h
    exact .inl h
  · have hi := (List.getElem?_eq_some_iff.1 h).1
    rw [List.length_append, List.length_singleton] at hi
    obtain rfl : i = l.length := by omega
    rw [List.getElem?_concat_length] at h
    exact .inr ⟨rfl, (Option.some.inj h).symm⟩

section

variable {s : Elements} {p : Page} {n : ℕ}

theorem Numbered.text_range (hn : s.Numbered n) {d : DynamicText} (hd : d ∈ s.dynamicText) :
    UPPER_U128 < d.textHandle ∧ d.textHandle ≤ s.dynamicElementId := by
  rw [hn.textHandle d hd]
  exact hn.range _ (List.mem_append_left _ (List.mem_map_of_mem hd))

theorem Numbered.print_range (hn : s.Numbered n) {d : DynamicPrint} (hd : d ∈ s.dynamicPrints) :
    UPPER_U128 < d.textHandle ∧ d.textHandle ≤ s.dynamicElementId := by
  rw [hn.printHandle d hd]
  exact hn.range _ (List.mem_append_right _ (List.mem_map_of_mem hd))

/-! ## Static elements -/

/-- registering an element -/
def register (s : Elements) (i : ℕ) (d : Descriptor) : Elements :=
  { s with uiList := mapSet s.uiList i d, uiListLen := 1 + i }

theorem register_cell_of_ne {i k : ℕ} (d : Descriptor) (hk : k ≠ i) : (s.register i d).cell k = s.cell k := by
  simp [cell, register, hk]

/-- a payload is where it was before the element was registered -/
theorem register_heldAt {i : ℕ} (d : Descriptor) {content : StaticContent} (h : content.HeldAt i (s.cell i)) :
    content.HeldAt i ((s.register i d).cell i) := by
  cases content <;> exact h

/-- what is at the other indices stays -/
theorem register_cell {s₁ : Elements} (honly : OnlyAt s.uiListLen s s₁) (d : Descriptor) {k : ℕ}
    (hk : k ≠ s.uiListLen) : (s₁.register s.uiListLen d).cell k = s.cell k :=
  (register_cell_of_ne d hk).trans (honly.cell k hk)

theorem register_holds (h : s.Holds p) (hn : s.Numbered n) (hlt : n + 1 < 2 ^ 127) {s₁ : Elements}
    (honly : OnlyAt s.uiListLen s s₁) {content : StaticContent}
    (hheld : content.HeldAt s.uiListLen (s₁.cell s.uiListLen)) (id : ℕ) :
    (s₁.register s.uiListLen ⟨id, content.type⟩).Holds (p.addStatic id content) := by
  have hold : ∀ {i : ℕ} {e : StaticElement}, p.static[i]? = some e →
      (s₁.register s.uiListLen ⟨id, content.type⟩).cell i = s.cell i := by
    intro i e hi
    apply register_cell honly
    have hi' := (List.getElem?_eq_some_iff.1 hi).1
    rw [h.len] at hi'
    omega
  -- dynamic handles are beyond the static indices
  have hbeyond : ∀ k, UPPER_U128 < k → k ≠ s.uiListLen := by
    intro k hk
    have hlen := hn.static_le
    change 2 ^ 127 < k at hk
    omega
  refine ⟨?_, ?_, ?_, ?_, ?_, ?_, ?_, fun k => honly.cached h.cached k⟩
  · show (p.static ++ [(⟨id, content⟩ : StaticElement)]).length = 1 + s.uiListLen
    rw [List.length_append, h.len, List.length_singleton, Nat.add_comm]
  · intro i e hi
    rcases getElem?_append_singleton hi with hi | ⟨hnew, rfl⟩
    · rw [hold hi]
      exact h.descriptor i e hi
    · rw [hnew, h.len]
      exact mapSet_self _ _ _
  · intro i e hi
    rcases getElem?_append_singleton hi with hi | ⟨hnew, rfl⟩
    · rw [hold hi]
      exact h.payload i e hi
    · rw [hnew, h.len]
      exact register_heldAt _ hheld
  · show s₁.dynamicText.map _ = p.texts.map some
    rw [honly.dynamicText, ← h.texts]
    exact List.map_congr_left fun d hd => readText_congr (register_cell honly _ (hbeyond _ (hn.text_range hd).1))
  · show s₁.dynamicPrints.map _ = p.prints.map some
    rw [honly.dynamicPrints, ← h.prints]
    exact List.map_congr_left fun d hd => readPrint_congr (register_cell honly _ (hbeyond _ (hn.print_range hd).1))
  · intro k
    show (s₁.staticTxtColors k).getD _ = _
    rw [honly.staticTxtColors]
    exact h.staticColors k
  · intro k
    show (s₁.txtColors k).getD _ = _
    rw [honly.txtColors]
    exact h.colors k

theorem register_numbered (hn : s.Numbered n) {s₁ : Elements} (honly : OnlyAt s.uiListLen s s₁) (d : Descriptor) :
    (s₁.register s.uiListLen d).Numbered (n + 1) := by
  have hids : (s₁.register s.uiListLen d).dynamicIds = s.dynamicIds := by
    show s₁.dynamicText.map _ ++ s₁.dynamicPrints.map _ = _
    rw [honly.dynamicText, honly.dynamicPrints]
    rfl
  have hnext : (s₁.register s.uiListLen d).dynamicElementId = s.dynamicElementId := honly.dynamicElementId
  refine ⟨?_, ?_, ?_, ?_, ?_, ?_, ?_⟩
  · have hlen := hn.static_le
    show 1 + s.uiListLen ≤ n + 1
    omega
  · rw [hnext]
    exact hn.upper_le
  · rw [hnext]
    exact hn.dynamic_le.trans (Nat.le_succ _)
  · rw [hids, hnext]
    exact hn.range
  · rw [hids]
    exact hn.distinct
  · show ∀ d ∈ s₁.dynamicText, _
    rw [honly.dynamicText]
    exact hn.textHandle
  · show ∀ d ∈ s₁.dynamicPrints, _
    rw [honly.dynamicPrints]
    exact hn.printHandle

/-- an element whose payload is stored at the next index is registered there -/
theorem registerElement_holds (h : s.Holds p) (hn : s.Numbered n) (hlt : n + 1 < 2 ^ 127) {s₁ : Elements}
    (honly : OnlyAt s.uiListLen s s₁) {content : StaticContent}
    (hheld : content.HeldAt s.uiListLen (s₁.cell s.uiListLen)) (id : ℕ) :
    ∃ s', s₁.registerElement id content.type = .ok (s.uiListLen, s') ∧ s'.Holds (p.addStatic id content) ∧
      s'.Numbered (n + 1) := by
  have hlen := hn.static_le
  have hadd : uintAdd 1 s.uiListLen = .ok (1 + s.uiListLen) := if_pos (by omega)
  refine ⟨s₁.register s.uiListLen ⟨id, content.type⟩, ?_, register_holds h hn hlt honly hheld id,
    register_numbered hn honly _⟩
  simp only [registerElement, honly.uiListLen, hadd]
  rfl

/-! ## Dynamic elements -/

/-- the next dynamic number is new -/
theorem Numbered.next (hn : s.Numbered n) {s' : Elements} (hlen : s'.uiListLen = s.uiListLen)
    (hid : s'.dynamicElementId = 1 + s.dynamicElementId)
    (hids : s'.dynamicIds.Perm ((1 + s.dynamicElementId) :: s.dynamicIds))
    (htext : ∀ d ∈ s'.dynamicText, d.textHandle = d.elementId)
    (hprint : ∀ d ∈ s'.dynamicPrints, d.textHandle = d.elementId) : s'.Numbered (n + 1) where
  static_le := hlen ▸ hn.static_le.trans (Nat.le_succ _)
  upper_le := by
    rw [hid]
    exact hn.upper_le.trans (Nat.le_add_left _ _)
  dynamic_le := by
    have := hn.dynamic_le
    omega
  range id hmem := by
    have hupper := hn.upper_le
    rw [hid]
    rcases List.mem_cons.1 (hids.mem_iff.1 hmem) with rfl | hold
    · omega
    · have := hn.range id hold
      omega
  distinct := by
    refine hids.nodup_iff.2 (List.nodup_cons.2 ⟨?_, hn.distinct⟩)
    intro hmem
    have := (hn.range _ hmem).2
    omega
  textHandle := htext
  printHandle := hprint

/-- a call that gives out no number -/
theorem Numbered.mono (hn : s.Numbered n) : s.Numbered (n + 1) :=
  { hn with
    static_le := hn.static_le.trans (Nat.le_succ _)
    dynamic_le := hn.dynamic_le.trans (Nat.le_succ _) }

/-- the text of the next dynamic element, before the element is in its list -/
def storeNext (s : Elements) (text : Utf8) : Elements :=
  { s.wrbStoreLargeStringUtf8 (1 + s.dynamicElementId) text with dynamicElementId := 1 + s.dynamicElementId }

theorem storeNext_string (s : Elements) (text : Utf8) :
    ((s.storeNext text).cell (1 + s.dynamicElementId)).largeString = some text := mapSet_self _ _ _

/-- no handle in use is the next one, and no static index is: the elements are as before -/
theorem storeNext_holds (h : s.Holds p) (hn : s.Numbered n) (hlt : n + 1 < 2 ^ 127) (text : Utf8) :
    (s.storeNext text).Holds p := by
  have honly := store_onlyAt s (1 + s.dynamicElementId) text
  have hcell : ∀ k, k ≠ 1 + s.dynamicElementId → (s.storeNext text).cell k = s.cell k := honly.cell
  have hold : ∀ {i : ℕ} {e : StaticElement}, p.static[i]? = some e → (s.storeNext text).cell i = s.cell i := by
    intro i e hi
    apply hcell
    have hi' := (List.getElem?_eq_some_iff.1 hi).1
    have hupper := hn.upper_le
    have hlen := hn.static_le
    change 2 ^ 127 ≤ s.dynamicElementId at hupper
    rw [h.len] at hi'
    omega
  refine ⟨h.len, ?_, ?_, ?_, ?_, h.staticColors, h.colors, fun k => honly.cached h.cached k⟩
  · intro i e hi
    rw [hold hi]
    exact h.descriptor i e hi
  · intro i e hi
    rw [hold hi]
    exact h.payload i e hi
  · rw [← h.texts]
    refine List.map_congr_left fun d hd => readText_congr (hcell _ ?_)
    have := (hn.text_range hd).2
    omega
  · rw [← h.prints]
    refine List.map_congr_left fun d hd => readPrint_congr (hcell _ ?_)
    have := (hn.print_range hd).2
    omega

theorem uintAdd_next (hn : s.Numbered n) (hlt : n + 1 < 2 ^ 127) :
    uintAdd 1 s.dynamicElementId = .ok (1 + s.dynamicElementId) := by
  have hle := hn.dynamic_le
  change _ ≤ 2 ^ 127 + n at hle
  exact if_pos (by omega)

/-- a dynamic text is added if there is room in its list -/
theorem wrbTxtImmediate_holds (h : s.Holds p) (hn : s.Numbered n) (hlt : n + 1 < 2 ^ 127) (id row col bg fg : ℕ)
    (text : Utf8) : ∃ b s', s.wrbTxtImmediate id row col bg fg text = .ok (b, s') ∧
      s'.Holds (p.addText ⟨id, row, col, bg, fg, text⟩) ∧ s'.Numbered (n + 1) := by
  have hlens : s.dynamicText.length = p.texts.length := by
    rw [← List.length_map s.readText, h.texts, List.length_map]
  have hstored := storeNext_holds h hn hlt text
  unfold wrbTxtImmediate Page.addText
  simp only [uintAdd_next hn hlt, bind, Except.bind]
  rw [← hlens]
  by_cases hroom : s.dynamicText.length < MAX_DYNAMIC_UI_ELEMENTS
  · rw [if_pos hroom, if_pos hroom, append_default, if_pos (show s.dynamicText.length < 1024 from hroom)]
    refine ⟨_, _, rfl, ?_, ?_⟩
    · refine { hstored with texts := ?_ }
      rw [List.map_append, List.map_append]
      refine congrArg₂ (· ++ ·) hstored.texts ?_
      exact congrArg (fun o => [Option.map _ o]) (storeNext_string s text)
    · refine hn.next rfl rfl ?_ ?_ hn.printHandle
      · simp only [dynamicIds, List.map_append, List.append_assoc]
        exact List.perm_middle
      · exact List.forall_mem_append.2 ⟨hn.textHandle, List.forall_mem_singleton.2 rfl⟩
  · rw [if_neg hroom, if_neg hroom]
    exact ⟨_, _, rfl, h, hn.mono⟩

/-- a dynamic print likewise -/
theorem wrbInnerPrintLnImmediate_holds (h : s.Holds p) (hn : s.Numbered n) (hlt : n + 1 < 2 ^ 127) (id : ℕ)
    (cursor : Option Cursor) (bg fg : ℕ) (text : Utf8) (newline : Bool) :
    ∃ b s', s.wrbInnerPrintLnImmediate id cursor bg fg text newline = .ok (b, s') ∧
      s'.Holds (p.addPrint ⟨id, cursor, bg, fg, text, newline⟩) ∧ s'.Numbered (n + 1) := by
  have hlens : s.dynamicPrints.length = p.prints.length := by
    rw [← List.length_map s.readPrint, h.prints, List.length_map]
  have hstored := storeNext_holds h hn hlt text
  unfold wrbInnerPrintLnImmediate Page.addPrint
  simp only [uintAdd_next hn hlt, bind, Except.bind]
  rw [← hlens]
  by_cases hroom : s.dynamicPrints.length < MAX_DYNAMIC_UI_ELEMENTS
  · rw [if_pos hroom, if_pos hroom, append_default, if_pos (show s.dynamicPrints.length < 1024 from hroom)]
    refine ⟨_, _, rfl, ?_, ?_⟩
    · refine { hstored with prints := ?_ }
      rw [List.map_append, List.map_append]
      refine congrArg₂ (· ++ ·) hstored.prints ?_
      exact congrArg (fun o => [Option.map _ o]) (storeNext_string s text)
    · refine hn.next rfl rfl ?_ hn.textHandle ?_
      · simp only [dynamicIds, List.map_append, ← List.append_assoc]
        exact List.perm_append_singleton _ _
      · exact List.forall_mem_append.2 ⟨hn.printHandle, List.forall_mem_singleton.2 rfl⟩
  · rw [if_neg hroom, if_neg hroom]
    exact ⟨_, _, rfl, h, hn.mono⟩

/-- elements filtered by their viewports are read as they were -/
theorem map_filter_of_map_eq {α β : Type} {read : α → Option β} {P : α → Bool} {Q : β → Bool} {l : List α} {l' : List β}
    (h : l.map read = l'.map some) (hPQ : ∀ a b, read a = some b → P a = Q b) :
    (l.filter P).map read = (l'.filter Q).map some := by
  induction l generalizing l' with
  | nil =>
    obtain rfl : l' = [] := List.map_eq_nil_iff.1 h.symm
    rfl
  | cons a l ih =>
    cases l' with
    | nil => exact nomatch h
    | cons b l' =>
      obtain ⟨hab, hrest⟩ := List.cons.inj h
      rw [List.filter_cons, List.filter_cons, hPQ a b hab]
      split_ifs
      · rw [List.map_cons, List.map_cons, hab, ih hrest]
      · exact ih hrest

theorem wrbViewportClear_holds (h : s.Holds p) (hn : s.Numbered n) (id : ℕ) :
    (s.wrbViewportClear id).Holds (p.step (.viewportClear id)) ∧ (s.wrbViewportClear id).Numbered (n + 1) := by
  constructor
  · refine { h with texts := ?_, prints := ?_ }
    · refine map_filter_of_map_eq h.texts fun d e hd => ?_
      obtain ⟨text, -, rfl⟩ := Option.map_eq_some_iff.1 hd
      rfl
    · refine map_filter_of_map_eq h.prints fun d e hd => ?_
      obtain ⟨text, -, rfl⟩ := Option.map_eq_some_iff.1 hd
      rfl
  · have hsub : List.Sublist (s.wrbViewportClear id).dynamicIds s.dynamicIds :=
      (List.filter_sublist.map _).append (List.filter_sublist.map _)
    exact { hn.mono with
      range := fun k hk => hn.range k (hsub.subset hk)
      distinct := hn.distinct.sublist hsub
      textHandle := fun d hd => hn.textHandle d (List.mem_of_mem_filter hd)
      printHandle := fun d hd => hn.printHandle d (List.mem_of_mem_filter hd) }

/-- the same, where the caller returns true -/
theorem registerElement_bind {x : Except CallError (ℕ × Elements)} {i : ℕ} {P : Elements → Prop}
    (h : ∃ s', x = .ok (i, s') ∧ P s') : ∃ b s', (x >>= fun r => .ok (true, r.2)) = .ok (b, s') ∧ P s' := by
  obtain ⟨s', rfl, hP⟩ := h
  exact ⟨true, s', rfl, hP⟩

theorem wrbStaticTxtImmediate_holds (h : s.Holds p) (hn : s.Numbered n) (hlt : n + 1 < 2 ^ 127)
    (id row col bg fg : ℕ) (text : Utf8) : ∃ b s', s.wrbStaticTxtImmediate id row col bg fg text = .ok (b, s') ∧
      s'.Holds (p.addStatic id (.text row col bg fg text)) ∧ s'.Numbered (n + 1) := by
  have hstore := store_onlyAt s s.uiListLen text
  refine registerElement_bind (@registerElement_holds s p n h hn hlt _ ?_ (.text row col bg fg text) ?_ id)
  · exact { hstore with cell := fun k hk => by simp [cell, wrbStoreLargeStringUtf8, hk] }
  · exact ⟨mapSet_self _ _ _, mapSet_self _ _ _⟩

theorem wrbInnerStaticPrintLnImmediate_holds (h : s.Holds p) (hn : s.Numbered n) (hlt : n + 1 < 2 ^ 127) (id : ℕ)
    (cursor : Option Cursor) (bg fg : ℕ) (text : Utf8) (newline : Bool) :
    ∃ b s', s.wrbInnerStaticPrintLnImmediate id cursor bg fg text newline = .ok (b, s') ∧
      s'.Holds (p.addStatic id (.print cursor bg fg text newline)) ∧ s'.Numbered (n + 1) := by
  have hstore := store_onlyAt s s.uiListLen text
  refine registerElement_bind (@registerElement_holds s p n h hn hlt _ ?_ (.print cursor bg fg text newline) ?_ id)
  · exact { hstore with cell := fun k hk => by simp [cell, wrbStoreLargeStringUtf8, hk] }
  · exact ⟨mapSet_self _ _ _, mapSet_self _ _ _⟩

theorem wrbButton_holds (h : s.Holds p) (hn : s.Numbered n) (hlt : n + 1 < 2 ^ 127) (id row col : ℕ) (text : Utf8) :
    ∃ s', s.wrbButton id row col text = .ok (s.uiListLen, s') ∧ s'.Holds (p.addStatic id (.button row col text)) ∧
      s'.Numbered (n + 1) := by
  refine @registerElement_holds s p n h hn hlt _ ?_ (.button row col text) ?_ id
  · exact ⟨fun k hk => by simp [cell, hk], rfl, rfl, rfl, rfl, rfl, rfl, fun h => h⟩
  · exact mapSet_self _ _ _

theorem wrbCheckbox_holds (h : s.Holds p) (hn : s.Numbered n) (hlt : n + 1 < 2 ^ 127) (id row col : ℕ)
    (options : List OptionRow) : ∃ s', s.wrbCheckbox id row col options = .ok (s.uiListLen, s') ∧
      s'.Holds (p.addStatic id (.checkbox row col options)) ∧ s'.Numbered (n + 1) := by
  refine @registerElement_holds s p n h hn hlt _ ?_ (.checkbox row col options) ?_ id
  · exact ⟨fun k hk => by simp [cell, hk], rfl, rfl, rfl, rfl, rfl, rfl, fun h => h⟩
  · exact mapSet_self _ _ _

theorem wrbTextline_holds (h : s.Holds p) (hn : s.Numbered n) (hlt : n + 1 < 2 ^ 127) (id row col maxLen : ℕ)
    (text : Utf8) : ∃ s', s.wrbTextline id row col maxLen text = .ok (s.uiListLen, s') ∧
      s'.Holds (p.addStatic id (.textline row col maxLen text)) ∧ s'.Numbered (n + 1) := by
  refine @registerElement_holds s p n h hn hlt _ ?_ (.textline row col maxLen text) ?_ id
  · exact ⟨fun k hk => by simp [cell, hk], rfl, rfl, rfl, rfl, rfl, rfl, fun h => h⟩
  · exact mapSet_self _ _ _

theorem wrbTextarea_holds (h : s.Holds p) (hn : s.Numbered n) (hlt : n + 1 < 2 ^ 127)
    (id row col numRows numCols maxLen : ℕ) (text : Utf8) :
    ∃ s', s.wrbTextarea id row col numRows numCols maxLen text = .ok (s.uiListLen, s') ∧
      s'.Holds (p.addStatic id (.textarea row col numRows numCols maxLen text)) ∧ s'.Numbered (n + 1) := by
  refine @registerElement_holds s p n h hn hlt _ ?_ (.textarea row col numRows numCols maxLen text) ?_ id
  · exact ⟨fun k hk => by simp [cell, hk], rfl, rfl, rfl, rfl, rfl, rfl, fun h => h⟩
  · exact mapSet_self _ _ _

/-! ## Calls and runs -/

theorem map_snd_holds {α : Type} {x : Except CallError (α × Elements)} {P : Elements → Prop}
    (h : ∃ a s', x = .ok (a, s') ∧ P s') : ∃ s', Prod.snd <$> x = .ok s' ∧ P s' := by
  obtain ⟨a, s', rfl, hP⟩ := h
  exact ⟨s', rfl, hP⟩

theorem setColors_getD (m : ℕ → Option Colors) (c : ℕ → Colors) {d : Colors} (h : ∀ k, (m k).getD d = c k)
    (id : ℕ) (new : Colors) (k : ℕ) : (mapSet m id new k).getD d = Function.update c id new k := by
  rw [mapSet_apply, Function.update_apply]
  split_ifs
  · rfl
  · exact h k

/-- **A call** does not fail, and does to the contract what it does to the page -/
theorem call_holds (h : s.Holds p) (hn : s.Numbered n) (hlt : n + 1 < 2 ^ 127) (c : ElementCall) :
    ∃ s', s.call c = .ok s' ∧ s'.Holds (p.step c) ∧ s'.Numbered (n + 1) := by
  cases c with
  | staticTxtImmediate => exact map_snd_holds (wrbStaticTxtImmediate_holds h hn hlt _ _ _ _ _ _)
  | staticPrintImmediate => exact map_snd_holds (wrbInnerStaticPrintLnImmediate_holds h hn hlt _ _ _ _ _ _)
  | staticPrintlnImmediate => exact map_snd_holds (wrbInnerStaticPrintLnImmediate_holds h hn hlt _ _ _ _ _ _)
  | staticTxt id =>
    simp only [call, Page.step, ← h.staticColors id]
    exact map_snd_holds (wrbStaticTxtImmediate_holds h hn hlt _ _ _ _ _ _)
  | staticPrint id =>
    simp only [call, Page.step, ← h.staticColors id]
    exact map_snd_holds (wrbInnerStaticPrintLnImmediate_holds h hn hlt _ _ _ _ _ _)
  | staticPrintln id =>
    simp only [call, Page.step, ← h.staticColors id]
    exact map_snd_holds (wrbInnerStaticPrintLnImmediate_holds h hn hlt _ _ _ _ _ _)
  | txtImmediate => exact map_snd_holds (wrbTxtImmediate_holds h hn hlt _ _ _ _ _ _)
  | printImmediate => exact map_snd_holds (wrbInnerPrintLnImmediate_holds h hn hlt _ _ _ _ _ _)
  | printlnImmediate => exact map_snd_holds (wrbInnerPrintLnImmediate_holds h hn hlt _ _ _ _ _ _)
  | txt id =>
    simp only [call, Page.step, ← h.colors id]
    exact map_snd_holds (wrbTxtImmediate_holds h hn hlt _ _ _ _ _ _)
  | print id =>
    simp only [call, Page.step, ← h.colors id]
    exact map_snd_holds (wrbInnerPrintLnImmediate_holds h hn hlt _ _ _ _ _ _)
  | println id =>
    simp only [call, Page.step, ← h.colors id]
    exact map_snd_holds (wrbInnerPrintLnImmediate_holds h hn hlt _ _ _ _ _ _)
  | setStaticTxtColors id fg bg =>
    exact ⟨_, rfl, { h with staticColors := setColors_getD _ _ h.staticColors id ⟨fg, bg⟩ }, { hn.mono with }⟩
  | setTxtColors id fg bg =>
    exact ⟨_, rfl, { h with colors := setColors_getD _ _ h.colors id ⟨fg, bg⟩ }, { hn.mono with }⟩
  | viewportClear id => exact ⟨_, rfl, wrbViewportClear_holds h hn id⟩
  | button => exact map_snd_holds ⟨_, wrbButton_holds h hn hlt _ _ _ _⟩
  | checkbox => exact map_snd_holds ⟨_, wrbCheckbox_holds h hn hlt _ _ _ _⟩
  | textline => exact map_snd_holds ⟨_, wrbTextline_holds h hn hlt _ _ _ _ _⟩
  | textarea => exact map_snd_holds ⟨_, wrbTextarea_holds h hn hlt _ _ _ _ _ _ _⟩

theorem deployed_holds : deployed.Holds Page.empty where
  len := rfl
  descriptor _ _ h := nomatch h
  payload _ _ h := nomatch h
  texts := rfl
  prints := rfl
  staticColors _ := rfl
  colors _ := rfl
  cached _ := rfl

theorem deployed_numbered : deployed.Numbered 0 where
  static_le := Nat.le_refl _
  upper_le := Nat.le_refl _
  dynamic_le := Nat.le_refl _
  range _ h := nomatch h
  distinct := List.nodup_nil
  textHandle _ h := nomatch h
  printHandle _ h := nomatch h

theorem run_holds (h : s.Holds p) (hn : s.Numbered n) {calls : List ElementCall} (hlt : n + calls.length < 2 ^ 127) :
    (run step s calls).Holds (run Page.step p calls) ∧ (run step s calls).Numbered (n + calls.length) := by
  induction calls generalizing s p n with
  | nil => exact ⟨h, hn⟩
  | cons c calls ih =>
    rw [List.length_cons] at hlt
    obtain ⟨s', hs', hholds, hnumbered⟩ := call_holds h hn (by omega) c
    have hstep : s.step c = s' := by rw [step, hs']
    rw [run_cons, run_cons, hstep, List.length_cons, Nat.add_comm calls.length, ← Nat.add_assoc]
    exact ih hholds hnumbered (by omega)

end

/-- the element IDs of the static list -/
def staticIds (s : Elements) : List ℕ :=
  (List.range s.uiListLen).filterMap fun i => (s.cell i).descriptor.bind fun d => (s.cell i).payloadId d.type

/-- **Consistent**: IDs are distinct, every static index has a descriptor and a payload of its type, and the elements
are those of a page, with their texts under their handles -/
structure Consistent (s : Elements) (p : Page) : Prop where
  distinct : (s.staticIds ++ s.dynamicIds).Nodup
  described : ∀ i, i < s.uiListLen → ∃ d, s.uiList i = some d ∧ ((s.cell i).payloadId d.type).isSome
  holds : s.Holds p

theorem Holds.described {s : Elements} {p : Page} (h : s.Holds p) {i : ℕ} (hi : i < s.uiListLen) :
    ∃ d, s.uiList i = some d ∧ (s.cell i).payloadId d.type = some i := by
  rw [← h.len] at hi
  have he := List.getElem?_eq_getElem hi
  exact ⟨_, h.descriptor i _ he, (h.payload i _ he).payloadId⟩

/-- static IDs are the indices -/
theorem Holds.staticIds {s : Elements} {p : Page} (h : s.Holds p) : s.staticIds = List.range s.uiListLen := by
  have hall : ∀ i ∈ List.range s.uiListLen,
      ((s.cell i).descriptor.bind fun d => (s.cell i).payloadId d.type) = some i := by
    intro i hi
    obtain ⟨d, hd, hpayload⟩ := h.described (List.mem_range.1 hi)
    have hdescriptor : (s.cell i).descriptor = some d := hd
    rw [hdescriptor, Option.bind_some, hpayload]
  calc s.staticIds = (List.range s.uiListLen).filterMap some := List.filterMap_congr hall
    _ = List.range s.uiListLen := List.filterMap_some

/-- **After any calls**, fewer than 2^127 of them, the contract is consistent with the page -/
theorem elements_consistent (calls : List ElementCall) (hlt : calls.length < 2 ^ 127) :
    Consistent (run step deployed calls) (run Page.step .empty calls) := by
  obtain ⟨hholds, hnumbered⟩ := run_holds deployed_holds deployed_numbered (by rwa [Nat.zero_add])
  refine ⟨?_, ?_, hholds⟩
  · rw [hholds.staticIds]
    refine List.nodup_append.2 ⟨List.nodup_range, hnumbered.distinct, ?_⟩
    intro i hi id hid heq
    have hupper := (hnumbered.range id hid).1
    have hlen := hnumbered.static_le
    have hi' := List.mem_range.1 hi
    change 2 ^ 127 < id at hupper
    omega
  · intro i hi
    obtain ⟨d, hd, hpayload⟩ := hholds.described hi
    exact ⟨d, hd, Option.isSome_of_eq_some hpayload⟩

/-- a page with a text and a button -/
theorem elements_consistent_two : Consistent (run step deployed [.txt 0 1 1 [[65]], .button 0 2 2 [[66]]])
    (run Page.step .empty [.txt 0 1 1 [[65]], .button 0 2 2 [[66]]]) :=
  elements_consistent _ (by decide)

end Elements

end Wrb.Contracts
