/-
Character buffers (`ui/charbuff.rs`): cells in rows of a fixed width, and the ways to print to them.

Coordinates and widths are `UInt64` and wrap around as `u64` does in release builds; positions in the vector of cells
are natural numbers, its length being below 2^63. Text is a list of characters. `none` is a panic, here only the
division by a width of zero at the end of `print_at_iter`.
-/
import Mathlib.Tactic

namespace Wrb.Ui

/-- RGB color -/
structure Color where
  r : UInt8
  g : UInt8
  b : UInt8
deriving DecidableEq, Repr

/-- the conversion from `u32` -/
def Color.ofU32 (c : UInt32) : Color :=
  ⟨((c &&& 0x00ff0000) >>> 16).toUInt8, ((c &&& 0x0000ff00) >>> 8).toUInt8, (c &&& 0x000000ff).toUInt8⟩

inductive CharCell where
  | blank
  | fill (value : Char) (bg fg : Color) (elementId : ℕ)
deriving DecidableEq, Repr

structure CharBuff where
  numCols : UInt64
  cells : List CharCell
deriving DecidableEq, Repr

/-- a row and a column -/
abbrev Coord := UInt64 × UInt64

/-- a part of a text that is laid out as a whole: a word or a single space, with its length, or a line break -/
inductive PrintPartType where
  | word (text : List Char) (len : UInt64)
  | newline
deriving DecidableEq, Repr

/-- `char::is_control`: the category Cc -/
def isControl (c : Char) : Bool := c.val ≤ 0x1f || (0x7f ≤ c.val && c.val ≤ 0x9f)

/-- `char::is_whitespace`: the property White_Space -/
def isWhitespace (c : Char) : Bool :=
  (0x09 ≤ c.val && c.val ≤ 0x0d) || c.val == 0x20 || c.val == 0x85 || c.val == 0xa0 || c.val == 0x1680 ||
    (0x2000 ≤ c.val && c.val ≤ 0x200a) || c.val == 0x2028 || c.val == 0x2029 || c.val == 0x202f || c.val == 0x205f ||
    c.val == 0x3000

namespace CharBuff

def new (numCols : UInt64) : CharBuff := ⟨numCols, []⟩

def clear (b : CharBuff) : CharBuff := { b with cells := [] }

/-- the cell of a character; a control character is shown as the replacement character -/
def cellOf (elementId : ℕ) (bg fg : Color) (c : Char) : CharCell :=
  if c ≤ '\x1f' || isControl c then .fill '\uFFFD' bg fg elementId else .fill c bg fg elementId

/-- the first of the two comparisons is part of the second -/
theorem cellOf_eq (elementId : ℕ) (bg fg : Color) (c : Char) :
    cellOf elementId bg fg c = .fill (if isControl c then '\uFFFD' else c) bg fg elementId := by
  have hcontrol : c ≤ '\x1f' → isControl c = true := by
    intro hle
    rw [isControl, Bool.or_eq_true]
    exact .inl (decide_eq_true hle)
  unfold cellOf
  by_cases hc : isControl c = true
  · simp [hc]
  · have hle : ¬ c ≤ '\x1f' := fun hle => hc (hcontrol hle)
    simp [hc, hle]

/-- write a cell at a position of the vector, or add it at the end -/
def writeCell (cells : List CharCell) (offset : ℕ) (cell : CharCell) : List CharCell :=
  if offset < cells.length then cells.set offset cell else cells ++ [cell]

/-- the loop of `print_at_iter` -/
def writeText (elementId : ℕ) (bg fg : Color) : List Char → ℕ → List CharCell → List CharCell
  | [], _, cells => cells
  | c :: text, offset, cells =>
    writeText elementId bg fg text (offset + 1) (writeCell cells offset (cellOf elementId bg fg c))

/-- print without word-wrapping: the location after the last character -/
def printAt (b : CharBuff) (elementId : ℕ) (start : Coord) (bg fg : Color) (text : List Char) :
    Option (Coord × CharBuff) :=
  let offset := (b.numCols * start.1 + start.2).toNat
  let padded := b.cells ++ List.replicate (offset - b.cells.length) .blank
  let cells := writeText elementId bg fg text offset padded
  let stop := UInt64.ofNat (offset + text.length)
  if b.numCols = 0 then none else some ((stop / b.numCols, stop % b.numCols), { b with cells := cells })

/-- split a text into words, spaces and line breaks; `cur` is the word read so far -/
def splitParts : List Char → (cur : List Char) → List PrintPartType
  | [], cur => if cur ≠ [] then [.word cur (UInt64.ofNat cur.length)] else []
  | c :: text, cur =>
    if isWhitespace c then
      (if cur ≠ [] then [.word cur (UInt64.ofNat cur.length)] else []) ++
        (if c = '\n' then .newline else .word [c] 1) :: splitParts text []
    else splitParts text (cur ++ [c])

/-- the loop of `inner_print`: `row` and `idx` are where the next part goes, `ret` is where the last one ended -/
def printParts (elementId : ℕ) (bg fg : Color) : List PrintPartType → (row idx : UInt64) → (ret : Coord) → CharBuff →
    Option (Coord × CharBuff)
  | [], _, _, ret, b => some (ret, b)
  | .newline :: parts, row, _, ret, b => printParts elementId bg fg parts (row + 1) 0 ret b
  | .word part len :: parts, row, idx, _, b =>
    if idx + len < b.numCols then do
      -- it fits in the row
      let (ret, b') ← b.printAt elementId (row, idx) bg fg part
      let row := if 1 ≤ len / b.numCols then row + len / b.numCols else row
      printParts elementId bg fg parts row (idx + len) ret b'
    else do
      let (ret, b') ← b.printAt elementId (row + 1, 0) bg fg part
      let row := if 1 ≤ len / b.numCols then row + 1 + len / b.numCols else row + 1
      printParts elementId bg fg parts row (len % b.numCols) ret b'

/-- print word-wrapped text, with a line break at the end if asked -/
def innerPrint (b : CharBuff) (elementId : ℕ) (start : Coord) (bg fg : Color) (text : List Char) (newline : Bool) :
    Option (Coord × CharBuff) := do
  let (ret, b) ← printParts elementId bg fg (splitParts text []) start.1 start.2 start b
  return (if newline then (ret.1 + 1, 0) else ret, b)

def print (b : CharBuff) (elementId : ℕ) (start : Coord) (bg fg : Color) (text : List Char) :
    Option (Coord × CharBuff) :=
  b.innerPrint elementId start bg fg text false

def println (b : CharBuff) (elementId : ℕ) (start : Coord) (bg fg : Color) (text : List Char) :
    Option (Coord × CharBuff) :=
  b.innerPrint elementId start bg fg text true

def charcellAt (b : CharBuff) (row col : UInt64) : Option CharCell := b.cells[(b.numCols * row + col).toNat]?

def elementAt (b : CharBuff) (row col : UInt64) : Option ℕ :=
  match b.charcellAt row col with
  | some (.fill _ _ _ elementId) => some elementId
  | _ => none

/-! ## What printing leaves alone -/

@[simp] theorem clear_numCols (b : CharBuff) : b.clear.numCols = b.numCols := rfl

theorem printAt_numCols {b b' : CharBuff} {elementId : ℕ} {start ret : Coord} {bg fg : Color} {text : List Char}
    (h : b.printAt elementId start bg fg text = some (ret, b')) : b'.numCols = b.numCols := by
  unfold printAt at h
  dsimp only at h
  split_ifs at h
  cases h
  rfl

theorem printParts_numCols {elementId : ℕ} {bg fg : Color} {parts : List PrintPartType} {row idx : UInt64}
    {ret ret' : Coord} {b b' : CharBuff} (h : printParts elementId bg fg parts row idx ret b = some (ret', b')) :
    b'.numCols = b.numCols := by
  induction parts generalizing row idx ret b with
  | nil =>
    cases h
    rfl
  | cons part parts ih =>
    cases part with
    | newline => exact ih h
    | word text len =>
      unfold printParts at h
      split_ifs at h
      all_goals
        obtain ⟨⟨r, b₁⟩, h₁, h₂⟩ := Option.bind_eq_some_iff.1 h
        rw [ih h₂, printAt_numCols h₁]

theorem innerPrint_numCols {b b' : CharBuff} {elementId : ℕ} {start ret : Coord} {bg fg : Color} {text : List Char}
    {newline : Bool} (h : b.innerPrint elementId start bg fg text newline = some (ret, b')) :
    b'.numCols = b.numCols := by
  obtain ⟨⟨r, b₁⟩, h₁, h₂⟩ := Option.bind_eq_some_iff.1 h
  cases h₂
  exact printParts_numCols h₁

end CharBuff

end Wrb.Ui
