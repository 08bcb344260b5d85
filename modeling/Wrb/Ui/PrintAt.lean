/-
Printing at a place (`CharBuff::print_at_iter` in `ui/charbuff.rs`), with the overflow of the place.

The number of the cell is `num_cols * start_row + start_col` in `u64`. The check behind it, that the number is a
`usize`, comes after the product and the sum, so it does not see that they have wrapped: `print_at_iter` then prints at
the cell of the wrapped number, and `charcell_at` reads that cell.

Results:
- `printAt_right_iff`: a print is right, or nothing is printed where there is no such cell (`PrintsRight`), exactly if
  the number fits into a `u64`; `wraps_to_first_cell` is a print that does not;
- `RawText.paint_writesFrom`: the texts of a page are printed so, since their places are not checked;
- `charcellAt_right_iff`: what is read there is right also if the wrapped number has no cell.
-/
import Mathlib.Tactic
import Wrb.Ui.Printing

namespace Wrb.Ui

open Wrb.Overlay Wrb.WordWrap

/-- the characters are in the cells from `cell` on, and nothing else has changed but for blank cells before them -/
structure WritesFrom (b b' : CharBuff) (cell : ℕ) (text : List CharCell) : Prop where
  numCols : b'.numCols = b.numCols
  length : b'.cells.length = max b.cells.length (cell + text.length)
  written : ∀ (k : ℕ) c, text[k]? = some c → b'.cells[cell + k]? = some c
  kept : ∀ p < b.cells.length, p < cell ∨ cell + text.length ≤ p → b'.cells[p]? = b.cells[p]?
  padded : ∀ p < cell, b.cells.length ≤ p → b'.cells[p]? = some .blank

/-- **A print at a place**: at its cell, or nothing if the cell has no number -/
def PrintsRight (b : CharBuff) (elementId : ℕ) (start : Coord) (bg fg : Color) (text : List Char) : Prop :=
  if index b.numCols.toNat (natPos start) < 2 ^ 64 then
    ∃ ret b', b.printAt elementId start bg fg text = some (ret, b') ∧
      WritesFrom b b' (index b.numCols.toNat (natPos start)) (text.map (CharBuff.cellOf elementId bg fg))
  else b.printAt elementId start bg fg text = some (start, b)

/-- a cell read at a place: none if the cell has no number -/
def ReadsRight (b : CharBuff) (place : Coord) : Prop :=
  b.charcellAt place.1 place.2 =
    if index b.numCols.toNat (natPos place) < 2 ^ 64 then b.cells[index b.numCols.toNat (natPos place)]? else none

namespace CharBuff

variable {b : CharBuff}

theorem writesFrom_overlay (b : CharBuff) (cell : ℕ) {text : List CharCell} (hne : ∀ c ∈ text, c ≠ .blank) :
    WritesFrom b { b with cells := overlay .blank b.cells (List.replicate cell .blank ++ text) } cell text where
  numCols := rfl
  length := by
    rw [length_overlay, List.length_append, List.length_replicate]
  written k c hc := by
    rw [getElem?_overlay_from .blank b.cells hne (Nat.le_add_right cell k), Nat.add_sub_cancel_left, hc]
    rfl
  kept p hp hout := by
    rcases hout with hlt | hge
    · rw [getElem?_overlay_before .blank b.cells text hlt, List.getElem?_eq_getElem hp]
      rfl
    · rw [getElem?_overlay_from .blank b.cells hne (by omega), List.getElem?_eq_none (by omega)]
      rfl
  padded p hlt hge := by
    rw [getElem?_overlay_before .blank b.cells text hlt, List.getElem?_eq_none hge]
    rfl

theorem number_toNat (numCols : UInt64) (place : Coord) :
    (numCols * place.1 + place.2).toNat = index numCols.toNat (natPos place) % 2 ^ 64 := by
  rw [UInt64.toNat_add, UInt64.toNat_mul, Nat.mod_add_mod]
  rfl

/-- what `print_at_iter` does at any place: it prints at the cell of the wrapped number -/
theorem printAt_writesFrom (hcols : b.numCols ≠ 0) (elementId : ℕ) (start : Coord) (bg fg : Color) (text : List Char) :
    ∃ ret b', b.printAt elementId start bg fg text = some (ret, b') ∧
      WritesFrom b b' (index b.numCols.toNat (natPos start) % 2 ^ 64) (text.map (cellOf elementId bg fg)) := by
  rw [printAt, if_neg hcols, number_toNat, writeText_padded]
  exact ⟨_, _, rfl, writesFrom_overlay b _ (map_cellOf_ne_blank elementId bg fg text)⟩

/-- **A print is right exactly if its cell has a number** -/
theorem printAt_right_iff (hcols : 1 ≤ b.numCols) (elementId : ℕ) (start : Coord) (bg fg : Color) (text : List Char) :
    PrintsRight b elementId start bg fg text ↔ index b.numCols.toNat (natPos start) < 2 ^ 64 := by
  have hne : b.numCols ≠ 0 := ne_zero_of_one_le hcols
  unfold PrintsRight
  split_ifs with hcell
  · have hwrites := printAt_writesFrom hne elementId start bg fg text
    rw [Nat.mod_eq_of_lt hcell] at hwrites
    exact iff_of_true hwrites hcell
  · -- what is returned is the place of a cell with a number
    refine iff_of_false (fun hprint => hcell ?_) hcell
    rw [printAt_ret hprint, index, Nat.div_add_mod]
    exact Nat.mod_lt _ (by decide)

/-- a print that fits into four columns -/
theorem printAt_right_letter : PrintsRight (.new 4) 1 (2, 3) (.ofU32 0) (.ofU32 0) ['a'] :=
  (printAt_right_iff (by decide) 1 (2, 3) (.ofU32 0) (.ofU32 0) ['a']).2 (by decide)

/-- **A print far below is seen in the first row**: the number of its cell wraps to zero -/
theorem wraps_to_first_cell : ¬ ∀ (b : CharBuff) (elementId : ℕ) (start : Coord) (bg fg : Color) (text : List Char),
    1 ≤ b.numCols → PrintsRight b elementId start bg fg text := by
  intro h
  have hprint := h (.new 4) 1 (0x4000000000000000, 0) (.ofU32 0) (.ofU32 0) ['a'] (by decide)
  rw [PrintsRight, if_neg (by decide)] at hprint
  have hfirst : (CharBuff.new 4).printAt 1 (0x4000000000000000, 0) (.ofU32 0) (.ofU32 0) ['a'] =
      some ((0, 1), ⟨4, [cellOf 1 (.ofU32 0) (.ofU32 0) 'a']⟩) := by decide
  rw [hfirst] at hprint
  exact absurd hprint (by decide)

/-- the reader is right also where the wrapped number has no cell -/
theorem charcellAt_right_iff (b : CharBuff) (place : Coord) :
    ReadsRight b place ↔ index b.numCols.toNat (natPos place) < 2 ^ 64 ∨
      b.cells.length ≤ index b.numCols.toNat (natPos place) % 2 ^ 64 := by
  rw [ReadsRight, charcellAt, number_toNat]
  split_ifs with hcell
  · rw [Nat.mod_eq_of_lt hcell]
    exact iff_of_true rfl (Or.inl hcell)
  · rw [List.getElem?_eq_none_iff]
    exact ⟨Or.inr, fun h => h.resolve_left hcell⟩

end CharBuff

/-- a text of a page, which may be at any place, is shown at the cell of the wrapped number too -/
theorem RawText.paint_writesFrom (f : RawText) {v : Viewport} (hcols : v.buff.numCols ≠ 0) :
    ∃ ret v', f.paint v = some (ret, v') ∧
      WritesFrom v.buff v'.buff (index v.buff.numCols.toNat (natPos (f.row, f.col)) % 2 ^ 64)
        (f.text.map (CharBuff.cellOf f.elementId f.bgColor f.fgColor)) := by
  obtain ⟨ret, b', hprint, hwrites⟩ :=
    CharBuff.printAt_writesFrom hcols f.elementId (f.row, f.col) f.bgColor f.fgColor f.text
  refine ⟨ret, { v.updateElementCoord f.elementId (f.row, f.col) with buff := b' }, ?_, hwrites⟩
  rw [paint, Viewport.printTo, Viewport.printWith]
  simp only [Viewport.updateElementCoord_buff, hprint, Option.map_some]

end Wrb.Ui
