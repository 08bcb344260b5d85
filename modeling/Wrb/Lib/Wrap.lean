/-
Texts laid out in a grid: a line ends at a break, and a line longer than the grid is wide goes on in the next row.

`rows` is what a text takes, said by its lines. `lines_induction` is the induction over them: a last line, or a line,
a break and more text. A layout that reads the text from the front agrees with it (`foldl_place`), and a layout that
reads it from the back does (`rows_cons_break`, `rows_cons`).

`cellAfter` is a layout in which a character takes any number of cells and a break some of its own before the row is
filled. `cellAfter_eq_iff`: a layout with wider characters ends in the same cell exactly when every line before the last
one takes the same rows, and the last one the same cells.
-/
import Mathlib.Tactic

namespace Wrb.Wrap

variable {α : Type} [DecidableEq α] (brk : α)

/-! ## Lines -/

def lines (w : List α) : List (List α) := w.splitOn brk

/-- the line the text ends in, as far as the text goes -/
def lastLine (w : List α) : List α := (lines brk w).getLastD []

/-- the line the text starts in -/
def headLine (w : List α) : List α := (lines brk w).headD []

/-- the rows a text completes in a grid of `cols` columns: one for each `cols` characters of a line, and one for each
break -/
def rows (cols : ℕ) (w : List α) : ℕ := ((lines brk w).map fun l => l.length / cols).sum + w.count brk

variable {brk}

/-- **Induction over lines**: a text is a line, or a line, a break and more text -/
theorem lines_induction {motive : List α → Prop} (line : ∀ l, brk ∉ l → motive l)
    (cons : ∀ l w, brk ∉ l → motive w → motive (l ++ brk :: w)) (w : List α) : motive w := by
  have hline : ∀ l, brk ∉ l → motive (l ++ w) := by
    induction w with
    | nil =>
      intro l hl
      rw [List.append_nil]
      exact line l hl
    | cons c w ih =>
      intro l hl
      by_cases hc : c = brk
      · subst hc
        exact cons l w hl (ih [] List.not_mem_nil)
      · have hnext : brk ∉ l ++ [c] := by simp [hl, Ne.symm hc]
        simpa using ih (l ++ [c]) hnext
  exact hline [] List.not_mem_nil

variable {l w : List α} {cols : ℕ}

theorem lines_ne_nil (w : List α) : lines brk w ≠ [] := List.splitOn_ne_nil brk w

theorem lines_line (hl : brk ∉ l) : lines brk l = [l] := List.splitOn_eq_singleton hl

theorem lines_append (hl : brk ∉ l) (w : List α) : lines brk (l ++ brk :: w) = l :: lines brk w :=
  List.splitOn_append_cons_self_of_not_mem hl w

@[simp] theorem lastLine_line (hl : brk ∉ l) : lastLine brk l = l := by simp [lastLine, lines_line hl]

@[simp] theorem lastLine_append (hl : brk ∉ l) (w : List α) : lastLine brk (l ++ brk :: w) = lastLine brk w := by
  rw [lastLine, lines_append hl, lastLine, List.getLastD_cons, List.getLastD_eq_getLast?, List.getLastD_eq_getLast?,
    List.getLast?_eq_getLast_of_ne_nil (lines_ne_nil w)]
  rfl

@[simp] theorem headLine_line (hl : brk ∉ l) : headLine brk l = l := by simp [headLine, lines_line hl]

@[simp] theorem headLine_append (hl : brk ∉ l) (w : List α) : headLine brk (l ++ brk :: w) = l := by
  simp [headLine, lines_append hl]

@[simp] theorem rows_line (hl : brk ∉ l) : rows brk cols l = l.length / cols := by
  simp [rows, lines_line hl, List.count_eq_zero_of_not_mem hl]

@[simp] theorem rows_append (hl : brk ∉ l) (w : List α) :
    rows brk cols (l ++ brk :: w) = l.length / cols + 1 + rows brk cols w := by
  simp only [rows, lines_append hl, List.map_cons, List.sum_cons, List.count_append, List.count_cons_self,
    List.count_eq_zero_of_not_mem hl]
  omega

theorem not_mem_lastLine (w : List α) : brk ∉ lastLine brk w := by
  induction w using @lines_induction _ _ brk with
  | line l hl => rwa [lastLine_line hl]
  | cons l w hl ih => rwa [lastLine_append hl]

/-- only the last break counts -/
theorem lastLine_append_line (hl : brk ∉ l) (w : List α) : lastLine brk (w ++ brk :: l) = l := by
  induction w using @lines_induction _ _ brk with
  | line l' hl' => rw [lastLine_append hl', lastLine_line hl]
  | cons l' w hl' ih => rw [List.append_assoc, List.cons_append, lastLine_append hl', ih]

/-- a character after the text is in its last line -/
theorem lastLine_concat {c : α} (hc : c ≠ brk) (w : List α) : lastLine brk (w ++ [c]) = lastLine brk w ++ [c] := by
  induction w using @lines_induction _ _ brk with
  | line l hl => rw [lastLine_line hl, lastLine_line (by simp [hl, Ne.symm hc])]
  | cons l w hl ih => rw [List.append_assoc, List.cons_append, lastLine_append hl, lastLine_append hl, ih]

/-- the last line is what is left of the text behind its last break -/
theorem drop_lastLine (w : List α) : w.drop (w.length - (lastLine brk w).length) = lastLine brk w := by
  have hsuffix : lastLine brk w <:+ w := by
    induction w using @lines_induction _ _ brk with
    | line l hl => rw [lastLine_line hl]
    | cons l w hl ih =>
      rw [lastLine_append hl]
      exact ih.trans ((List.suffix_cons brk w).trans (List.suffix_append l (brk :: w)))
  exact (List.suffix_iff_eq_drop.1 hsuffix).symm

/-! ## From the back -/

@[simp] theorem rows_nil : rows brk cols [] = 0 := by simp [rows, lines]

theorem rows_cons_break (w : List α) : rows brk cols (brk :: w) = rows brk cols w + 1 := by
  have happend := @rows_append _ _ brk [] cols List.not_mem_nil w
  rw [List.nil_append, List.length_nil, Nat.zero_div] at happend
  omega

/-- one more character in front completes a row when the first line becomes a multiple of the columns -/
theorem rows_cons {c : α} (hc : c ≠ brk) (w : List α) :
    rows brk cols (c :: w) = rows brk cols w + if cols ∣ (headLine brk w).length + 1 then 1 else 0 := by
  induction w using @lines_induction _ _ brk with
  | line l hl =>
    have hnext : brk ∉ c :: l := by simp [hl, Ne.symm hc]
    rw [rows_line hnext, rows_line hl, headLine_line hl, List.length_cons, Nat.succ_div]
  | cons l w hl _ =>
    have hnext : brk ∉ c :: l := by simp [hl, Ne.symm hc]
    rw [← List.cons_append, rows_append hnext, rows_append hl, headLine_append hl, List.length_cons, Nat.succ_div]
    omega

theorem headLine_cons_break (w : List α) : headLine brk (brk :: w) = [] :=
  @headLine_append _ _ brk [] List.not_mem_nil w

theorem headLine_cons {c : α} (hc : c ≠ brk) (w : List α) : headLine brk (c :: w) = c :: headLine brk w := by
  induction w using @lines_induction _ _ brk with
  | line l hl => rw [headLine_line hl, headLine_line (by simp [hl, Ne.symm hc])]
  | cons l w hl _ => rw [headLine_append hl, ← List.cons_append, headLine_append (by simp [hl, Ne.symm hc])]

/-! ## From the front -/

/-- the row and the column of the cell after a character -/
def place (brk : α) (cols : ℕ) (p : ℕ × ℕ) (c : α) : ℕ × ℕ :=
  if c = brk ∨ cols ≤ p.2 + 1 then (p.1 + 1, 0) else (p.1, p.2 + 1)

theorem le_foldl_place (w : List α) (p : ℕ × ℕ) : p.1 ≤ (w.foldl (place brk cols) p).1 := by
  induction w generalizing p with
  | nil => exact le_refl _
  | cons c w ih =>
    refine le_trans ?_ (ih _)
    unfold place
    split_ifs
    · exact Nat.le_succ _
    · exact le_refl _

/-- along a line only its length counts -/
theorem foldl_place_line (hcols : 0 < cols) (hl : brk ∉ l) (row : ℕ) {col : ℕ} (hcol : col < cols) :
    l.foldl (place brk cols) (row, col) = (row + (col + l.length) / cols, (col + l.length) % cols) := by
  induction l generalizing row col with
  | nil => simp [Nat.div_eq_of_lt hcol, Nat.mod_eq_of_lt hcol]
  | cons c l ih =>
    obtain ⟨hc, hl⟩ : brk ≠ c ∧ brk ∉ l := by simpa using hl
    rw [List.foldl_cons, List.length_cons, show col + (l.length + 1) = col + 1 + l.length by omega]
    by_cases hend : cols ≤ col + 1
    · have heq : col + 1 = cols := by omega
      rw [place, if_pos (Or.inr hend), ih hl _ hcols, heq, Nat.zero_add, Nat.add_mod_left, Nat.add_div_left _ hcols]
      congr 1
      omega
    · rw [place, if_neg (by simp [Ne.symm hc, hend]), ih hl _ (by omega)]

/-- **Read from the front**, a text ends in the row after the rows it completes -/
theorem foldl_place (hcols : 0 < cols) (w : List α) (row : ℕ) :
    w.foldl (place brk cols) (row, 0) = (row + rows brk cols w, (lastLine brk w).length % cols) := by
  induction w using @lines_induction _ _ brk generalizing row with
  | line l hl => rw [foldl_place_line hcols hl row hcols, rows_line hl, lastLine_line hl, Nat.zero_add]
  | cons l w hl ih =>
    rw [List.foldl_append, foldl_place_line hcols hl row hcols, List.foldl_cons, place, if_pos (Or.inl rfl), ih,
      rows_append hl, lastLine_append hl, Nat.zero_add]
    congr 1
    omega

/-! ## Wider characters -/

section Cells

variable (width : α → ℕ) (pad cols : ℕ)

/-- the cell after a character that takes `width` cells; a break takes `pad` cells, and fills the row -/
def nextCell (brk : α) (cell : ℕ) (c : α) : ℕ :=
  if c = brk then ((cell + pad) / cols + 1) * cols else cell + width c

/-- the cell a layout from `cell` on ends in -/
def cellAfter (brk : α) (cell : ℕ) (w : List α) : ℕ := w.foldl (nextCell width pad cols brk) cell

variable {width pad cols}

theorem cellAfter_line (hl : brk ∉ l) (cell : ℕ) :
    cellAfter width pad cols brk cell l = cell + (l.map width).sum := by
  induction l generalizing cell with
  | nil => rfl
  | cons c l ih =>
    obtain ⟨hc, hl⟩ : brk ≠ c ∧ brk ∉ l := by simpa using hl
    have hnext : nextCell width pad cols brk cell c = cell + width c := if_neg (Ne.symm hc)
    calc cellAfter width pad cols brk cell (c :: l)
        = cellAfter width pad cols brk (cell + width c) l := by rw [← hnext]; rfl
      _ = cell + ((c :: l).map width).sum := by rw [ih hl, List.map_cons, List.sum_cons, Nat.add_assoc]

/-- a line and its break fill whole rows -/
theorem cellAfter_append (hcols : 0 < cols) (hl : brk ∉ l) (w : List α) (row : ℕ) :
    cellAfter width pad cols brk (row * cols) (l ++ brk :: w) =
      cellAfter width pad cols brk ((row + ((l.map width).sum + pad) / cols + 1) * cols) w := by
  have hline := @cellAfter_line _ _ brk l width pad cols hl (row * cols)
  have hbreak : nextCell width pad cols brk (row * cols + (l.map width).sum) brk =
      (row + ((l.map width).sum + pad) / cols + 1) * cols := by
    rw [nextCell, if_pos rfl, Nat.add_assoc, Nat.add_comm (row * cols), Nat.add_mul_div_right _ _ hcols,
      Nat.add_comm _ row]
  rw [cellAfter, List.foldl_append, List.foldl_cons]
  rw [cellAfter] at hline
  rw [hline, hbreak]
  rfl

variable {width' : α → ℕ} {pad' : ℕ}

/-- lines before the last one take the same rows in both layouts, and the last one the same cells -/
def SameCells (width width' : α → ℕ) (pad pad' cols : ℕ) (brk : α) (w : List α) : Prop :=
  (∀ l ∈ (lines brk w).dropLast, ((l.map width').sum + pad') / cols = ((l.map width).sum + pad) / cols) ∧
    ((lastLine brk w).map width').sum = ((lastLine brk w).map width).sum

theorem sameCells_line (hl : brk ∉ l) :
    SameCells width width' pad pad' cols brk l ↔ (l.map width').sum = (l.map width).sum := by
  simp [SameCells, lines_line hl, lastLine_line hl]

theorem sameCells_append (hl : brk ∉ l) (w : List α) :
    SameCells width width' pad pad' cols brk (l ++ brk :: w) ↔
      ((l.map width').sum + pad') / cols = ((l.map width).sum + pad) / cols ∧
        SameCells width width' pad pad' cols brk w := by
  rw [SameCells, lines_append hl, lastLine_append hl, List.dropLast_cons_of_ne_nil (lines_ne_nil w),
    List.forall_mem_cons, and_assoc]
  rfl

/-- **Two layouts of one text.** Wider characters end in the same cell exactly when the rows of every line before the
last one and the cells of the last one are the same: what a line is too long by, no later line makes good -/
theorem cellAfter_eq_iff (hcols : 0 < cols) (hwidth : ∀ c, width c ≤ width' c) (hpad : pad ≤ pad') (w : List α)
    {row row' : ℕ} (hrow : row ≤ row') :
    cellAfter width' pad' cols brk (row' * cols) w = cellAfter width pad cols brk (row * cols) w ↔
      row' = row ∧ SameCells width width' pad pad' cols brk w := by
  have hsum : ∀ l : List α, (l.map width).sum ≤ (l.map width').sum := fun l => List.sum_le_sum fun c _ => hwidth c
  induction w using @lines_induction _ _ brk generalizing row row' with
  | line l hl =>
    have hle := hsum l
    have hmul : row * cols ≤ row' * cols := Nat.mul_le_mul_right cols hrow
    rw [cellAfter_line hl, cellAfter_line hl, sameCells_line hl]
    constructor
    · intro heq
      exact ⟨Nat.eq_of_mul_eq_mul_right hcols (by omega), by omega⟩
    · intro ⟨heq, hsame⟩
      rw [heq, hsame]
  | cons l w hl ih =>
    have hle : ((l.map width).sum + pad) / cols ≤ ((l.map width').sum + pad') / cols :=
      Nat.div_le_div_right (Nat.add_le_add (hsum l) hpad)
    have hnext : row + ((l.map width).sum + pad) / cols + 1 ≤ row' + ((l.map width').sum + pad') / cols + 1 := by omega
    rw [cellAfter_append hcols hl, cellAfter_append hcols hl, sameCells_append hl]
    refine (ih hnext).trans ?_
    constructor
    · intro ⟨heq, hsame⟩
      exact ⟨by omega, by omega, hsame⟩
    · intro ⟨heq, hline, hsame⟩
      exact ⟨by omega, hsame⟩

/-- the place in rows and columns is a cell, with characters of one cell and breaks that only fill the row -/
theorem place_cell {row col : ℕ} (hcol : col < cols) (c : α) :
    (place brk cols (row, col) c).2 < cols ∧
      (place brk cols (row, col) c).1 * cols + (place brk cols (row, col) c).2 =
        nextCell (fun _ => 1) 0 cols brk (row * cols + col) c := by
  unfold place nextCell
  by_cases hc : c = brk
  · have hdiv : (row * cols + col) / cols = row := by
      rw [Nat.add_comm, Nat.add_mul_div_right _ _ (by omega), Nat.div_eq_of_lt hcol, Nat.zero_add]
    rw [if_pos (Or.inl hc), if_pos hc, Nat.add_zero (row * cols + col), hdiv]
    exact ⟨Nat.zero_lt_of_lt hcol, rfl⟩
  · by_cases hend : cols ≤ col + 1
    · have heq : col + 1 = cols := by omega
      rw [if_pos (Or.inr hend), if_neg hc, Nat.add_assoc, heq]
      exact ⟨Nat.zero_lt_of_lt hcol, Nat.add_one_mul row cols⟩
    · rw [if_neg (by simp [hc, hend]), if_neg hc]
      exact ⟨Nat.lt_of_not_le hend, rfl⟩

theorem foldl_place_cell {row col : ℕ} (hcol : col < cols) (w : List α) :
    (w.foldl (place brk cols) (row, col)).1 * cols + (w.foldl (place brk cols) (row, col)).2 =
      cellAfter (fun _ => 1) 0 cols brk (row * cols + col) w := by
  induction w generalizing row col with
  | nil => rfl
  | cons c w ih =>
    obtain ⟨hnext, hcell⟩ := @place_cell _ _ brk cols row col hcol c
    rw [List.foldl_cons, ih hnext, hcell]
    rfl

end Cells

end Wrb.Wrap
