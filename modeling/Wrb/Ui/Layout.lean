/-
The layout of a text area and the place of its cursor (`ui/forms/textarea.rs`): `GapBufferIterator::next`, which fills
the grid, against `cursor_location`, which counts rows and columns.

Model: `Wrb.Wrap` over the characters from the scroll offset to the cursor. `cursor_location` gives a character one cell
and lets a line break fill the row; the iterator gives a tab three more cells, and a line break a cell of its own before
it fills the row (`cellOf`).

Results:
- `cursorLocation_eq`: the cursor is visible exactly when the text from the offset to it completes fewer rows than the
  area has.
- `Follows.next`: what one step of the iterator keeps; from it, `reads_iff`: after how many cells the iterator is about
  to read the character at an index.
- `layout_agrees_iff`: the area is filled and the cursor is where the iterator puts its character exactly when the
  number of cells does not wrap around and, for a visible cursor, `WrapsAlike` holds.
- `break_in_last_column`: a line break in the last column of the area puts the two a row apart.
-/
import Mathlib.Tactic
import Wrb.Lib.Wrap
import Wrb.Ui.Readable
import Wrb.Ui.TextArea

namespace Wrb.Ui

open Wrb.Wrap

/-! ## The place of the cursor -/

namespace GapBuffer

variable {g : GapBuffer} {scroll numRows numCols : ℕ}

/-- the loop of `cursor_location` is the layout from the front, as long as it stays in the area -/
theorem locateFrom_eq (hcols : 0 < numCols) (w : List Char) {i row col : ℕ}
    (hget : ∀ j < w.length, g.get (i + j) = w[j]?) (hrow : row < numRows) :
    g.locateFrom numRows numCols w.length i row col =
      if (w.foldl (place '\n' numCols) (row, col)).1 < numRows then some (w.foldl (place '\n' numCols) (row, col))
      else none := by
  induction w generalizing i row col with
  | nil => exact (if_pos hrow).symm
  | cons c w ih =>
    have hc : g.get i = some c := hget 0 (Nat.succ_pos _)
    have hrest : ∀ j < w.length, g.get (i + 1 + j) = w[j]? := by
      intro j hj
      rw [Nat.add_assoc, Nat.add_comm 1 j]
      exact hget (j + 1) (by simpa using hj)
    have hplace : (if numCols ≤ (if c = '\n' then (row + 1, 0) else (row, col + 1)).2 then
        ((if c = '\n' then (row + 1, 0) else (row, col + 1)).1 + 1, 0)
        else (if c = '\n' then (row + 1, 0) else (row, col + 1))) = place '\n' numCols (row, col) c := by
      unfold place
      by_cases hbreak : c = '\n'
      · simp [hbreak, Nat.not_le.2 hcols]
      · simp [hbreak]
    have hmono := @le_foldl_place _ _ '\n' numCols w (place '\n' numCols (row, col) c)
    rw [List.foldl_cons, List.length_cons, locateFrom, hc]
    simp only [hplace]
    by_cases hout : numRows ≤ (place '\n' numCols (row, col) c).1
    · rw [if_pos hout, if_neg (by omega)]
    · rw [if_neg hout]
      exact ih hrest (Nat.lt_of_not_le hout)

/-- the characters from the scroll offset to the cursor -/
def shown (g : GapBuffer) (scroll : ℕ) : List Char := g.text.before.drop scroll

/-- **Where the cursor is**: in the row after those the text from the offset completes, if the area has that row -/
theorem cursorLocation_eq (h : g.Readable) (hrows : 0 < numRows) (hcols : 0 < numCols) (scroll : ℕ) :
    g.cursorLocation scroll numRows numCols =
      if scroll ≤ g.cursor ∧ rows '\n' numCols (g.shown scroll) < numRows then
        some (rows '\n' numCols (g.shown scroll), (lastLine '\n' (g.shown scroll)).length % numCols)
      else none := by
  unfold cursorLocation
  by_cases hscroll : g.cursor < scroll
  · rw [if_pos hscroll, if_neg (by omega)]
  · have hlen : (g.shown scroll).length = g.cursor - scroll := by rw [shown, List.length_drop, h.length_before]
    have hget : ∀ j < (g.shown scroll).length, g.get (scroll + j) = (g.shown scroll)[j]? := by
      intro j hj
      rw [h.get_before (by omega), shown, List.getElem?_drop]
    rw [if_neg hscroll, if_neg (by omega), ← hlen, locateFrom_eq hcols _ hget hrows, foldl_place hcols, Nat.zero_add]
    simp only [show scroll ≤ g.cursor by omega, true_and]

/-- the cell of the cursor, counted along the rows -/
theorem cursorLocation_cell (h : g.Readable) (hrows : 0 < numRows) (hcols : 0 < numCols) {row col : ℕ}
    (hloc : g.cursorLocation scroll numRows numCols = some (row, col)) :
    row * numCols + col = cellAfter (fun _ => 1) 0 numCols '\n' 0 (g.shown scroll) := by
  rw [cursorLocation_eq h hrows hcols] at hloc
  split_ifs at hloc
  have hcell := @foldl_place_cell _ _ '\n' numCols 0 0 hcols (g.shown scroll)
  rw [foldl_place hcols, Nat.zero_add, Nat.zero_mul, Nat.zero_add] at hcell
  cases hloc
  exact hcell

end GapBuffer

/-! ## The cells of the iterator -/

namespace GapBufferIterator

/-- the cells of a character: a tab takes `TAB_LEN` more than the others -/
def cells (c : Char) : ℕ := if c = '\t' then TAB_LEN + 1 else 1

/-- the cell of the `k`-th character from the scroll offset on, in the layout of the iterator -/
def cellOf (g : GapBuffer) (scroll numCols : ℕ) : ℕ → ℕ
  | 0 => 0
  | k + 1 =>
    match g.get (scroll + k) with
    | none => cellOf g scroll numCols k + 1
    | some c => nextCell cells 1 numCols '\n' (cellOf g scroll numCols k) c

/-- the cell in which the iterator reads its next character: it is padding, or about to read -/
def pending (it : GapBufferIterator) : ℕ :=
  if it.newlinePad then (it.printIdx / it.numCols + 1) * it.numCols else it.printIdx + it.tabPad

/-- the iterator after `n` more cells -/
def after (g : GapBuffer) : (n : ℕ) → GapBufferIterator → Option GapBufferIterator
  | 0, it => some it
  | n + 1, it => do
    let (_, it) ← it.next g
    it.after g n

/-- about to read the character at `idx` -/
def Reads (it : GapBufferIterator) (idx : ℕ) : Prop := it.idx = idx ∧ it.newlinePad = false ∧ it.tabPad = 0

/-- the invariant of the iterator: it has read `k` characters, the last one in a cell before the next, and reads the
next one in that character's cell -/
structure Follows (g : GapBuffer) (scroll area numCols : ℕ) (it : GapBufferIterator) : Prop where
  reads : ∃ k, it.idx = scroll + k ∧ it.pending = cellOf g scroll numCols k ∧
    ∀ j < k, cellOf g scroll numCols j < it.printIdx
  pads : it.newlinePad = true → it.tabPad = 0
  area : it.area = area
  numCols : it.numCols = numCols

variable {g : GapBuffer} {scroll area numCols : ℕ} {it : GapBufferIterator}

theorem follows_new (g : GapBuffer) (scroll area numCols : ℕ) :
    Follows g scroll area numCols (new scroll area numCols) :=
  ⟨⟨0, rfl, rfl, fun _ hj => absurd hj (Nat.not_lt_zero _)⟩, fun _ => rfl, rfl, rfl⟩

/-- while the iterator fills a row, the row is that of the cell before -/
theorem fill_row (p numCols : ℕ) :
    (if (p + 1) % numCols ≠ 0 then ((p + 1) / numCols + 1) * numCols else p + 1) = (p / numCols + 1) * numCols := by
  have hdiv := Nat.div_add_mod (p + 1) numCols
  by_cases hmod : (p + 1) % numCols = 0
  · rw [if_neg (not_not.2 hmod)]
    rw [Nat.succ_div, if_pos (Nat.dvd_of_mod_eq_zero hmod), hmod, Nat.add_zero, Nat.mul_comm] at hdiv
    exact hdiv.symm
  · have hndvd : ¬ numCols ∣ p + 1 := fun hdvd => hmod (Nat.mod_eq_zero_of_dvd hdvd)
    rw [if_pos hmod, Nat.succ_div, if_neg hndvd, Nat.add_zero]

/-- what the iterator yields for a character it reads -/
def yields (it : GapBufferIterator) : Option Char → Char × GapBufferIterator
  | none => (' ', { it with idx := it.idx + 1, printIdx := it.printIdx + 1 })
  | some c =>
    if c = '\n' then (' ', { it with idx := it.idx + 1, printIdx := it.printIdx + 1, newlinePad := true })
    else if c = '\t' then (' ', { it with idx := it.idx + 1, printIdx := it.printIdx + 1, tabPad := TAB_LEN })
    else (c, { it with idx := it.idx + 1, printIdx := it.printIdx + 1 })

theorem next_of_newlinePad (hlt : it.printIdx < it.area) (hpad : it.newlinePad = true) :
    it.next g = some (' ', { it with
      printIdx := it.printIdx + 1, newlinePad := decide ((it.printIdx + 1) % it.numCols ≠ 0) }) := by
  rw [next, if_neg (Nat.not_le.2 hlt), if_pos hpad]

theorem next_of_tabPad (hlt : it.printIdx < it.area) (hpad : it.newlinePad = false) (htab : 0 < it.tabPad) :
    it.next g = some (' ', { it with printIdx := it.printIdx + 1, tabPad := it.tabPad - 1 }) := by
  rw [next, if_neg (Nat.not_le.2 hlt), if_neg (by simp [hpad]), if_pos htab]

theorem next_of_read (hlt : it.printIdx < it.area) (hpad : it.newlinePad = false) (htab : it.tabPad = 0) :
    it.next g = some (it.yields (g.get it.idx)) := by
  rw [next, if_neg (Nat.not_le.2 hlt), if_neg (by simp [hpad]), if_neg (by omega)]
  cases g.get it.idx with
  | none => rfl
  | some c =>
    simp only [yields]
    split_ifs
    · rfl
    · rfl
    · rfl

/-- whatever is read, the iterator is one character and one cell on, and what it yields is no line break and no tab -/
structure OneOn (it : GapBufferIterator) (r : Char × GapBufferIterator) : Prop where
  idx : r.2.idx = it.idx + 1
  printIdx : r.2.printIdx = it.printIdx + 1
  area : r.2.area = it.area
  numCols : r.2.numCols = it.numCols
  pads : r.2.newlinePad = true → r.2.tabPad = 0
  plain : r.1 ≠ '\n' ∧ r.1 ≠ '\t'

theorem oneOn_yields (hpad : it.newlinePad = false) (htab : it.tabPad = 0) (c : Option Char) :
    it.OneOn (it.yields c) := by
  have hspace : ' ' ≠ '\n' ∧ ' ' ≠ '\t' := by decide
  cases c with
  | none => exact ⟨rfl, rfl, rfl, rfl, fun _ => htab, hspace⟩
  | some c =>
    simp only [yields]
    split_ifs with hbreak htabc
    · exact ⟨rfl, rfl, rfl, rfl, fun _ => htab, hspace⟩
    · exact ⟨rfl, rfl, rfl, rfl, fun h => absurd (hpad.symm.trans h) (by decide), hspace⟩
    · exact ⟨rfl, rfl, rfl, rfl, fun _ => htab, hbreak, htabc⟩

/-- the cell read next moves on by the cells of the character read -/
theorem pending_yields (hpad : it.newlinePad = false) (htab : it.tabPad = 0) (c : Option Char) :
    (it.yields c).2.pending =
      match c with
      | none => it.printIdx + 1
      | some c => nextCell cells 1 it.numCols '\n' it.printIdx c := by
  cases c with
  | none => simp [yields, pending, hpad, htab]
  | some c =>
    by_cases hbreak : c = '\n'
    · simp [yields, pending, nextCell, hbreak]
    · by_cases htabc : c = '\t'
      · simp [yields, pending, nextCell, cells, htabc, hpad, TAB_LEN]
      · simp [yields, pending, nextCell, cells, hbreak, htabc, hpad, htab]

/-- **One step** of the iterator within the area: a character that is no line break and no tab, one cell on -/
theorem Follows.next (h : Follows g scroll area numCols it) (hlt : it.printIdx < area) :
    ∃ c it', it.next g = some (c, it') ∧ Follows g scroll area numCols it' ∧ it'.printIdx = it.printIdx + 1 ∧
      c ≠ '\n' ∧ c ≠ '\t' := by
  obtain ⟨⟨k, hidx, hpending, hread⟩, hpads, rfl, rfl⟩ := h
  have hlater : ∀ j < k, cellOf g scroll it.numCols j < it.printIdx + 1 := fun j hj => Nat.lt_succ_of_lt (hread j hj)
  by_cases hpad : it.newlinePad = true
  · refine ⟨_, _, next_of_newlinePad hlt hpad, ⟨⟨k, hidx, ?_, hlater⟩, fun _ => hpads hpad, rfl, rfl⟩, rfl, by decide,
      by decide⟩
    rw [← hpending]
    simpa [pending, hpad, hpads hpad] using fill_row it.printIdx it.numCols
  · rw [Bool.not_eq_true] at hpad
    by_cases htab : 0 < it.tabPad
    · refine ⟨_, _, next_of_tabPad hlt hpad htab,
        ⟨⟨k, hidx, ?_, hlater⟩, fun h => absurd (hpad.symm.trans h) (by decide), rfl, rfl⟩, rfl, by decide, by decide⟩
      rw [← hpending]
      simp only [pending, hpad, Bool.false_eq_true, if_false]
      omega
    · have hzero : it.tabPad = 0 := by omega
      have hcell : it.printIdx = cellOf g scroll it.numCols k := by simpa [pending, hpad, hzero] using hpending
      have hone := oneOn_yields hpad hzero (g.get it.idx)
      refine ⟨(it.yields (g.get it.idx)).1, (it.yields (g.get it.idx)).2, next_of_read hlt hpad hzero,
        ⟨⟨k + 1, ?_, ?_, ?_⟩, hone.pads, hone.area, hone.numCols⟩, hone.printIdx, hone.plain⟩
      · rw [hone.idx, hidx, Nat.add_assoc]
      · rw [pending_yields hpad hzero, hidx, cellOf, ← hcell]
      · intro j hj
        rw [hone.printIdx]
        rcases Nat.lt_succ_iff_lt_or_eq.1 hj with hj | rfl
        · exact hlater j hj
        · omega

/-- **A run** of the iterator: as many cells as the area has -/
theorem Follows.after (h : Follows g scroll area numCols it) {n : ℕ} (hn : it.printIdx + n ≤ area) :
    ∃ it', it.after g n = some it' ∧ Follows g scroll area numCols it' ∧ it'.printIdx = it.printIdx + n := by
  induction n generalizing it with
  | zero => exact ⟨it, rfl, h, rfl⟩
  | succ n ih =>
    obtain ⟨c, it₁, hnext, hfollows, hprint, -⟩ := h.next (by omega)
    obtain ⟨it', hafter, hfollows', hprint'⟩ := ih hfollows (by omega)
    refine ⟨it', ?_, hfollows', by omega⟩
    simp only [GapBufferIterator.after, hnext, Option.bind_eq_bind, Option.bind_some]
    exact hafter

theorem Follows.collect (h : Follows g scroll area numCols it) {n : ℕ} (hn : it.printIdx + n ≤ area) :
    (GapBufferIterator.collect g n it).length = n ∧ ∀ c ∈ GapBufferIterator.collect g n it, c ≠ '\n' ∧ c ≠ '\t' := by
  induction n generalizing it with
  | zero => exact ⟨rfl, fun c hc => (nomatch hc)⟩
  | succ n ih =>
    obtain ⟨c, it₁, hnext, hfollows, hprint, hplain⟩ := h.next (by omega)
    obtain ⟨hlen, hall⟩ := ih hfollows (by omega)
    simp only [GapBufferIterator.collect, hnext, List.length_cons, hlen, List.forall_mem_cons, true_and]
    exact ⟨hplain, hall⟩

/-! ## The cell of a character -/

theorem nextCell_lt (hcols : 0 < numCols) (cell : ℕ) (c : Char) : cell < nextCell cells 1 numCols '\n' cell c := by
  unfold nextCell cells
  split_ifs
  · have hlt := Nat.lt_div_mul_add (a := cell + 1) hcols
    rw [Nat.add_one_mul]
    omega
  · simp [TAB_LEN]
  · exact Nat.lt_succ_self cell

theorem cellOf_strictMono (g : GapBuffer) (scroll : ℕ) (hcols : 0 < numCols) :
    StrictMono (cellOf g scroll numCols) := by
  apply strictMono_nat_of_lt_succ
  intro k
  rw [cellOf]
  cases g.get (scroll + k) with
  | none => exact Nat.lt_succ_self _
  | some c => exact nextCell_lt hcols _ c

/-- **When a character is read**: after the cells before its own, and after no other number of cells -/
theorem reads_iff (hcols : 0 < numCols) (k : ℕ) {n : ℕ} (hn : n ≤ area) :
    (∃ it, (new scroll area numCols).after g n = some it ∧ it.Reads (scroll + k)) ↔ n = cellOf g scroll numCols k := by
  have hmono := cellOf_strictMono g scroll hcols
  obtain ⟨it, hafter, ⟨⟨m, hidx, hpending, hread⟩, hpads, harea, hnum⟩, hprint⟩ :=
    (follows_new g scroll area numCols).after (n := n) (by simpa [new] using hn)
  replace hprint : it.printIdx = n := by simpa [new] using hprint
  rw [hafter]
  constructor
  · rintro ⟨it', heq, hit, hpad, htab⟩
    cases heq
    have hm : m = k := by omega
    rw [← hm, ← hpending, pending, hpad, htab, hprint]
    rfl
  · intro hcell
    have hfill : n < (it.printIdx / it.numCols + 1) * it.numCols := by
      have hlt := Nat.lt_div_mul_add (a := it.printIdx) (hnum ▸ hcols)
      rw [Nat.add_one_mul]
      omega
    have hle : n ≤ it.pending := by
      unfold pending
      split_ifs
      · omega
      · omega
    -- the next character is this one: a later one is not read yet, and this one is not read before its cell
    have hm : m = k := by
      rcases Nat.lt_trichotomy m k with hlt | heq | hgt
      · have := hmono hlt
        omega
      · exact heq
      · have := hread k hgt
        omega
    subst hm
    have hno : it.newlinePad = false := by
      by_contra hpad
      rw [Bool.not_eq_false] at hpad
      rw [pending, if_pos hpad] at hpending
      omega
    refine ⟨it, rfl, hidx, hno, ?_⟩
    rw [pending, hno, if_neg (by decide)] at hpending
    omega

/-- the cell of the cursor is that of the layout of the characters before it -/
theorem cellOf_cursor (h : g.Readable) (hscroll : scroll ≤ g.cursor) :
    cellOf g scroll numCols (g.cursor - scroll) = cellAfter cells 1 numCols '\n' 0 (g.shown scroll) := by
  have hlen : (g.shown scroll).length = g.cursor - scroll := by rw [GapBuffer.shown, List.length_drop, h.length_before]
  have htake : ∀ k ≤ (g.shown scroll).length,
      cellOf g scroll numCols k = cellAfter cells 1 numCols '\n' 0 ((g.shown scroll).take k) := by
    intro k hk
    induction k with
    | zero => rfl
    | succ k ih =>
      have hread : g.get (scroll + k) = some (g.shown scroll)[k] := by
        rw [h.get_before (by omega), ← List.getElem?_eq_getElem (by omega), GapBuffer.shown, List.getElem?_drop]
      rw [List.take_succ_eq_append_getElem (by omega), cellAfter, List.foldl_append, cellOf, hread, ih (by omega)]
      rfl
  rw [← hlen, htake _ (le_refl _), List.take_length]

end GapBufferIterator

/-! ## Layout and cursor -/

/-- every line before the cursor's own takes as many rows with its tabs and its break as without, and no tab is before
the cursor in its line -/
def WrapsAlike (numCols : ℕ) (w : List Char) : Prop :=
  (∀ l ∈ (lines '\n' w).dropLast, (l.length + TAB_LEN * l.count '\t' + 1) / numCols = l.length / numCols) ∧
    '\t' ∉ lastLine '\n' w

instance (numCols : ℕ) (w : List Char) : Decidable (WrapsAlike numCols w) := inferInstanceAs (Decidable (_ ∧ _))

theorem sum_cells (l : List Char) : (l.map GapBufferIterator.cells).sum = l.length + TAB_LEN * l.count '\t' := by
  induction l with
  | nil => rfl
  | cons c l ih =>
    rw [List.map_cons, List.sum_cons, ih, List.length_cons]
    by_cases htab : c = '\t'
    · subst htab
      rw [List.count_cons_self, GapBufferIterator.cells, if_pos rfl, Nat.mul_add_one]
      omega
    · rw [List.count_cons_of_ne htab, GapBufferIterator.cells, if_neg htab]
      omega

theorem wrapsAlike_iff (numCols : ℕ) (w : List Char) :
    SameCells (fun _ => 1) GapBufferIterator.cells 0 1 numCols '\n' w ↔ WrapsAlike numCols w := by
  have hone : ∀ l : List Char, (l.map fun _ => 1).sum = l.length := by simp
  unfold SameCells WrapsAlike
  simp only [hone, sum_cells, Nat.add_zero, ← List.count_eq_zero (a := '\t')]
  refine and_congr_right fun _ => ?_
  constructor
  · intro h
    simpa [TAB_LEN] using h
  · intro h
    simp [h]

namespace GapBuffer

/-- what the area must show: all of its cells, none of them a line break or a tab, and the character at a visible cursor
in the cursor's cell -/
structure LayoutAgrees (g : GapBuffer) (scroll : ℕ) (numRows numCols : UInt64) : Prop where
  cells : (g.iterAtOffset numRows numCols scroll).length = numRows.toNat * numCols.toNat
  plain : ∀ c ∈ g.iterAtOffset numRows numCols scroll, c ≠ '\n' ∧ c ≠ '\t'
  cursor : ∀ row col, g.cursorLocation scroll numRows.toNat numCols.toNat = some (row, col) →
    ∃ it, (GapBufferIterator.new scroll (numRows * numCols).toNat numCols.toNat).after g (row * numCols.toNat + col) =
      some it ∧ it.Reads g.cursor

/-- the iterator fills the area, with no line break and no tab -/
theorem iterAtOffset_cells (g : GapBuffer) (scroll : ℕ) (numRows numCols : UInt64) :
    (g.iterAtOffset numRows numCols scroll).length = (numRows * numCols).toNat ∧
      ∀ c ∈ g.iterAtOffset numRows numCols scroll, c ≠ '\n' ∧ c ≠ '\t' :=
  (GapBufferIterator.follows_new g scroll _ _).collect (by simp [GapBufferIterator.new])

/-- a visible cursor is in the iterator's cell exactly when the lines before it wrap alike -/
theorem cursor_reads_iff {g : GapBuffer} {scroll numRows numCols row col : ℕ} (h : g.Readable) (hrows : 0 < numRows)
    (hcols : 0 < numCols) (hloc : g.cursorLocation scroll numRows numCols = some (row, col)) :
    (∃ it, (GapBufferIterator.new scroll (numRows * numCols) numCols).after g (row * numCols + col) = some it ∧
      it.Reads g.cursor) ↔ WrapsAlike numCols (g.shown scroll) := by
  have hcell := cursorLocation_cell h hrows hcols hloc
  rw [cursorLocation_eq h hrows hcols] at hloc
  split_ifs at hloc with hvisible
  cases hloc
  have hin : rows '\n' numCols (g.shown scroll) * numCols + (lastLine '\n' (g.shown scroll)).length % numCols ≤
      numRows * numCols := by
    have hcol := Nat.mod_lt (lastLine '\n' (g.shown scroll)).length hcols
    have hrow : (rows '\n' numCols (g.shown scroll) + 1) * numCols ≤ numRows * numCols :=
      Nat.mul_le_mul_right numCols hvisible.2
    rw [Nat.add_one_mul] at hrow
    omega
  have hreads := @GapBufferIterator.reads_iff g scroll _ _ hcols (g.cursor - scroll) _ hin
  rw [Nat.add_sub_cancel' hvisible.1, GapBufferIterator.cellOf_cursor h hvisible.1, hcell] at hreads
  have hsame := @cellAfter_eq_iff _ _ '\n' (fun _ => 1) 0 numCols GapBufferIterator.cells 1 hcols
    (fun c => by unfold GapBufferIterator.cells; split_ifs <;> simp) (Nat.zero_le 1) (g.shown scroll) 0 0 (le_refl 0)
  rw [Nat.zero_mul, eq_self_iff_true, true_and, wrapsAlike_iff] at hsame
  rw [hcell, hreads, ← hsame, eq_comm]

/-- **Layout and cursor.** In every readable buffer, at every offset and size: the area shows what it must exactly when
the number of its cells does not wrap around and the lines before a visible cursor wrap alike. -/
theorem layout_agrees_iff (g : GapBuffer) (scroll : ℕ) (numRows numCols : UInt64) (h : g.Readable) (hrows : 1 ≤ numRows)
    (hcols : 1 ≤ numCols) :
    g.LayoutAgrees scroll numRows numCols ↔
      numRows.toNat * numCols.toNat < 2 ^ 64 ∧
        (scroll ≤ g.cursor → rows '\n' numCols.toNat (g.shown scroll) < numRows.toNat →
          WrapsAlike numCols.toNat (g.shown scroll)) := by
  have hrows' : 0 < numRows.toNat := UInt64.le_iff_toNat_le.1 hrows
  have hcols' : 0 < numCols.toNat := UInt64.le_iff_toNat_le.1 hcols
  obtain ⟨hlen, hplain⟩ := g.iterAtOffset_cells scroll numRows numCols
  have harea : (numRows * numCols).toNat = numRows.toNat * numCols.toNat ↔ numRows.toNat * numCols.toNat < 2 ^ 64 := by
    rw [UInt64.toNat_mul]
    exact Nat.mod_eq_iff_lt (by decide)
  constructor
  · intro hagrees
    have hcells := hlen.symm.trans hagrees.cells
    refine ⟨harea.1 hcells, ?_⟩
    intro hscroll hvisible
    have hloc := cursorLocation_eq h hrows' hcols' scroll
    rw [if_pos ⟨hscroll, hvisible⟩] at hloc
    have hreads := hagrees.cursor _ _ hloc
    rw [hcells] at hreads
    exact (cursor_reads_iff h hrows' hcols' hloc).1 hreads
  · intro ⟨hlt, halike⟩
    have hcells := harea.2 hlt
    refine ⟨hlen.trans hcells, hplain, ?_⟩
    intro row col hloc
    have hvisible := cursorLocation_eq h hrows' hcols' scroll
    rw [hloc] at hvisible
    split_ifs at hvisible with hin
    rw [hcells]
    exact (cursor_reads_iff h hrows' hcols' hloc).2 (halike hin.1 hin.2)

/-- the text "a", a line break and "b", with the cursor at its end -/
def twoLines : GapBuffer := ⟨[97, 10, 98, 0], 3, 1, 1, 1, 2⟩

theorem readable_twoLines : twoLines.Readable := by
  have hcells : ∀ x ∈ twoLines.buffer, x.toNat < 0xd800 := by simp [twoLines]
  exact ⟨by decide, fun x hx => Or.inl (hcells x hx)⟩

theorem layout_agrees_twoLines : twoLines.LayoutAgrees 0 2 3 :=
  (layout_agrees_iff twoLines 0 2 3 readable_twoLines (by decide) (by decide)).2 (by decide)

/-- **A line break in the last column.** In an area of two columns the iterator leaves a row blank after the first line,
which `cursor_location` does not count: the cursor is placed in row 1, and its character in row 2 -/
theorem break_in_last_column : ¬ ∀ (g : GapBuffer) (scroll : ℕ) (numRows numCols : UInt64), g.Readable →
    1 ≤ numRows → 1 ≤ numCols → g.LayoutAgrees scroll numRows numCols := by
  intro h
  have hloc : twoLines.cursorLocation 0 3 2 = some (1, 1) := by decide
  have hreads := (h twoLines 0 3 2 readable_twoLines (by decide) (by decide)).cursor 1 1 hloc
  have halike := (cursor_reads_iff readable_twoLines (by decide) (by decide) hloc).1 hreads
  exact absurd halike (by decide)

end GapBuffer

end Wrb.Ui
