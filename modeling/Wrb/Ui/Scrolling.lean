/-
A text area and its cursor (`ui/forms/textarea.rs`): `TextArea::handle_event` moves the cursor, and scrolls when it
leaves the window.

Model: a key leaves the text and the place that `pressed` gives. The keys that move back scroll to the start of the
cursor's line (`scrollUp`), those that move on scan back over the rows above the cursor (`scrollDown`, `scanStop`), the
others leave the window alone. `InWindow` is a window on a text: the cursor is not before it, and the text from its
start to the cursor completes fewer rows than it has.

Results:
- `findLineStart_eq`, `endOfArea_le_iff`, `startOfArea_eq`: what the three scans over the buffer find in the text.
- `handleKey_leaves`: what a key does, before and after scrolling.
- `shown_iff_tracks`: in every run of keys on every text, after each key handled the cursor is shown exactly when the
  key meets `Tracks`.
- `typed_out_of_sight`: the character that fills an area hides the cursor.
-/
import Mathlib.Tactic
import Wrb.Lib.Runs
import Wrb.Ui.Fresh
import Wrb.Ui.Layout
import Wrb.Ui.Moves

namespace Wrb.Ui

open Wrb.Runs Wrb.Wrap

namespace GapBuffer

variable {g : GapBuffer} {scroll numRows numCols : ℕ}

/-! ## The start of the line -/

theorem toChar_eq_newline {x : UInt32} (hx : x.isValidChar) : toChar x = '\n' ↔ x = NEWLINE := by
  constructor
  · intro h
    have hval : (toChar x).val = x := by simp [toChar, charFromU32, hx]
    rw [← hval, h]
    rfl
  · rintro rfl
    decide

/-- the cells before the cursor are the characters before it -/
theorem Readable.cell_newline_iff (h : g.Readable) {j : ℕ} (hj : j < g.cursor) :
    g.buffer[j]? = some NEWLINE ↔ g.text.before[j]? = some '\n' := by
  have hroom := h.room
  have hlt : j < g.buffer.length := by omega
  have hbefore : g.text.before[j]? = some (toChar g.buffer[j]) := by
    simp [text, hj, List.getElem?_eq_getElem hlt]
  rw [hbefore, List.getElem?_eq_getElem hlt, Option.some.injEq, Option.some.injEq,
    toChar_eq_newline (h.cells _ (List.getElem_mem hlt))]

/-- back from `i` to a line break or the first cell: no break is passed over -/
theorem lineBreakBefore_spec {buffer : List UInt32} {i k : ℕ} (h : lineBreakBefore buffer i = some k) :
    k ≤ i ∧ (k = 0 ∨ buffer[k]? = some NEWLINE) ∧ ∀ j, k < j → j ≤ i → buffer[j]? ≠ some NEWLINE := by
  induction i with
  | zero =>
    cases h
    exact ⟨le_refl 0, Or.inl rfl, fun j hj hle => by omega⟩
  | succ i ih =>
    obtain ⟨x, hx, h⟩ := Option.bind_eq_some_iff.1 h
    split_ifs at h with hne
    · obtain ⟨hle, hstop, hpassed⟩ := ih h
      refine ⟨by omega, hstop, ?_⟩
      intro j hj hji
      rcases Nat.lt_or_eq_of_le hji with hlt | rfl
      · exact hpassed j hj (by omega)
      · rw [hx, Ne, Option.some.injEq]
        exact hne
    · cases h
      exact ⟨le_refl _, Or.inr (by rw [hx, not_not.1 hne]), fun j hj hle => by omega⟩

/-- **The start of the line**, whatever is in the gap -/
theorem findLineStart_eq (h : g.Readable) {i : ℕ} (hfind : g.findLineStart = some i) :
    i = g.cursor - (lastLine '\n' g.text.before).length := by
  have hroom := h.room
  have hlen := h.length_before
  have heof : g.chr.isNone ↔ g.cursor + g.gap = g.buffer.length := by
    rw [← h.after_eq_nil_iff, chr_text, Option.isNone_iff_eq_none, List.head?_eq_none_iff]
  obtain ⟨x, hx, hfind⟩ := Option.bind_eq_some_iff.1 hfind
  -- an index is the start of the line if it is 0 or behind a break, with no break from it to the cursor
  have hstart : ∀ e, e ≤ g.cursor → (∀ j, e ≤ j → j < g.cursor → g.buffer[j]? ≠ some NEWLINE) →
      (e = 0 ∨ g.buffer[e - 1]? = some NEWLINE) → e = g.cursor - (lastLine '\n' g.text.before).length := by
    intro e he hline hbreak
    have hline' : ∀ j, e ≤ j → j < g.cursor → g.text.before[j]? ≠ some '\n' := fun j hj hlt =>
      mt (h.cell_newline_iff hlt).2 (hline j hj hlt)
    have hbreak' : e = 0 ∨ g.text.before[e - 1]? = some '\n' := by
      rcases Nat.eq_zero_or_pos e with hzero | hpos
      · exact Or.inl hzero
      · exact Or.inr ((h.cell_newline_iff (by omega)).1 (hbreak.resolve_left (by omega)))
    have heq := @lineStartOf_eq g.text.before e g.cursor he (by omega) hline' hbreak'
    rw [lineStartOf, ← hlen, List.take_length] at heq
    rw [← hlen, heq]
  by_cases hend : x = NEWLINE ∧ g.chr.isNone
  · rw [if_pos hend] at hfind
    cases hfind
    rcases Nat.eq_zero_or_pos g.cursor with hzero | hpos
    · rw [hzero, Nat.zero_sub]
    · exact hstart g.cursor (le_refl _) (fun j hj hlt => by omega) (Or.inr (by rw [hx, hend.1]))
  · rw [if_neg hend] at hfind
    obtain ⟨k, hk, hfind⟩ := Option.bind_eq_some_iff.1 hfind
    obtain ⟨hle, hstop, hpassed⟩ := lineBreakBefore_spec hk
    by_cases hbreak : 0 < g.cursor ∧ k + 1 + g.gap < g.buffer.length ∧ g.buffer[k]? = some NEWLINE
    · rw [if_pos hbreak] at hfind
      cases hfind
      exact hstart (k + 1) (by omega) (fun j hj hlt => hpassed j hj (by omega)) (Or.inr hbreak.2.2)
    · rw [if_neg hbreak] at hfind
      obtain rfl : k = i := by simpa using hfind
      rcases Nat.eq_zero_or_pos g.cursor with hzero | hpos
      · omega
      · have hno : g.buffer[k]? ≠ some NEWLINE := by
          intro hcell
          -- a break that ends the text is the last cell before the cursor, and was found at once
          have hlast : k = g.cursor - 1 ∧ g.cursor + g.gap = g.buffer.length := by
            have hfull : ¬ k + 1 + g.gap < g.buffer.length := fun hlt => hbreak ⟨hpos, hlt, hcell⟩
            omega
          rw [hlast.1, hx, Option.some.injEq] at hcell
          exact hend ⟨hcell, heof.2 hlast.2⟩
        have hzero : k = 0 := hstop.resolve_right hno
        subst hzero
        refine hstart 0 (Nat.zero_le _) ?_ (Or.inl rfl)
        intro j _ hlt
        rcases Nat.eq_zero_or_pos j with rfl | hj
        · exact hno
        · exact hpassed j hj (by omega)

/-! ## The end of the window -/

theorem le_endOfAreaFrom (g : GapBuffer) (numRows numCols fuel row i lineLen : ℕ) :
    i ≤ g.endOfAreaFrom numRows numCols fuel row i lineLen := by
  induction fuel generalizing row i lineLen with
  | zero => exact le_refl i
  | succ fuel ih =>
    rw [endOfAreaFrom]
    by_cases hrow : row < numRows
    · rw [if_pos hrow]
      cases g.get i with
      | none => exact le_refl i
      | some c =>
        simp only
        split_ifs
        · exact Nat.le_of_succ_le (ih _ _ _)
        · exact Nat.le_of_succ_le (ih _ _ _)
        · exact Nat.le_of_succ_le (ih _ _ _)
    · rw [if_neg hrow]

/-- a column past the last one is the first one of the next row -/
theorem place_mod (hcols : 0 < numCols) (row lineLen : ℕ) {c : Char} (hc : c ≠ '\n') :
    place '\n' numCols (row, lineLen % numCols) c =
      (if (lineLen + 1) % numCols = 0 then row + 1 else row, (lineLen + 1) % numCols) := by
  have hlt := Nat.mod_lt lineLen hcols
  have hmod : (lineLen + 1) % numCols = (lineLen % numCols + 1) % numCols := by rw [Nat.mod_add_mod]
  by_cases hend : numCols ≤ lineLen % numCols + 1
  · have hnext : (lineLen + 1) % numCols = 0 := by
      rw [hmod, show lineLen % numCols + 1 = numCols by omega, Nat.mod_self]
    rw [place, if_pos (Or.inr hend), hnext, if_pos rfl]
  · have hnext : (lineLen + 1) % numCols = lineLen % numCols + 1 := hmod.trans (Nat.mod_eq_of_lt (by omega))
    rw [place, if_neg (by simp [hc, hend]), hnext, if_neg (Nat.succ_ne_zero _)]

/-- the loop of `end_of_area` reads `w`, and stops in it or at its end, exactly when `w` completes the rows that are
left or the text ends with it -/
theorem endOfAreaFrom_le_iff (hcols : 0 < numCols) (w : List Char) {fuel row i lineLen : ℕ} (hfuel : w.length < fuel)
    (hget : ∀ j < w.length, g.get (i + j) = w[j]?) :
    g.endOfAreaFrom numRows numCols fuel row i lineLen ≤ i + w.length ↔
      numRows ≤ (w.foldl (place '\n' numCols) (row, lineLen % numCols)).1 ∨ g.get (i + w.length) = none := by
  induction w generalizing fuel row i lineLen with
  | nil =>
    obtain ⟨fuel, rfl⟩ : ∃ k, fuel = k + 1 := ⟨fuel - 1, by simp at hfuel; omega⟩
    rw [List.length_nil, Nat.add_zero, List.foldl_nil, endOfAreaFrom]
    by_cases hrow : row < numRows
    · rw [if_pos hrow]
      cases hc : g.get i with
      | none => simp
      | some c =>
        simp only [reduceCtorEq, or_false, Nat.not_le.2 hrow, iff_false, Nat.not_le]
        split_ifs
        · exact le_endOfAreaFrom g _ _ _ _ _ _
        · exact le_endOfAreaFrom g _ _ _ _ _ _
        · exact le_endOfAreaFrom g _ _ _ _ _ _
    · rw [if_neg hrow]
      simp [Nat.le_of_not_lt hrow]
  | cons c w ih =>
    obtain ⟨fuel, rfl⟩ : ∃ k, fuel = k + 1 := ⟨fuel - 1, by simp at hfuel; omega⟩
    have hc : g.get i = some c := hget 0 (Nat.succ_pos _)
    have hrest : ∀ j < w.length, g.get (i + 1 + j) = w[j]? := by
      intro j hj
      rw [Nat.add_assoc, Nat.add_comm 1 j]
      exact hget (j + 1) (by simpa using hj)
    have hmono := @le_foldl_place _ _ '\n' numCols (c :: w) (row, lineLen % numCols)
    have hstep : ∀ row' lineLen', place '\n' numCols (row, lineLen % numCols) c = (row', lineLen' % numCols) →
        (g.endOfAreaFrom numRows numCols fuel row' (i + 1) lineLen' ≤ i + (c :: w).length ↔
          numRows ≤ ((c :: w).foldl (place '\n' numCols) (row, lineLen % numCols)).1 ∨
            g.get (i + (c :: w).length) = none) := by
      intro row' lineLen' hplace
      have hih := @ih fuel row' (i + 1) lineLen' (by simpa using hfuel) hrest
      rwa [List.foldl_cons, hplace, List.length_cons, ← Nat.add_assoc, Nat.add_right_comm]
    rw [endOfAreaFrom]
    by_cases hrow : row < numRows
    · rw [if_pos hrow, hc]
      simp only
      split_ifs with hbreak hend
      · exact hstep (row + 1) 0 (by simp [place, hbreak])
      · exact hstep (row + 1) (lineLen + 1) (by rw [place_mod hcols row lineLen hbreak, if_pos hend])
      · exact hstep row (lineLen + 1) (by rw [place_mod hcols row lineLen hbreak, if_neg hend])
    · rw [if_neg hrow]
      refine iff_of_true (Nat.le_add_right _ _) (Or.inl ?_)
      exact (Nat.le_of_not_lt hrow).trans hmono

theorem length_shown (h : g.Readable) (scroll : ℕ) : (g.shown scroll).length = g.cursor - scroll := by
  rw [shown, List.length_drop, h.length_before]

/-- **The end of the window** is not past the cursor exactly when the cursor is below the window, or at the end of the
text -/
theorem endOfArea_le_iff (h : g.Readable) (hrows : 0 < numRows) (hcols : 0 < numCols) (hscroll : scroll ≤ g.cursor) :
    g.endOfArea scroll numRows numCols ≤ g.cursor ↔
      numRows ≤ rows '\n' numCols (g.shown scroll) ∨ g.text.after = [] := by
  have hlen := length_shown h scroll
  have hroom := h.room
  have hget : ∀ j < (g.shown scroll).length, g.get (scroll + j) = (g.shown scroll)[j]? := by
    intro j hj
    rw [h.get_before (by omega), shown, List.getElem?_drop]
  have hend : g.get g.cursor = none ↔ g.text.after = [] := by
    rw [h.get_text, Text.all, List.getElem?_append_right (le_of_eq h.length_before), h.length_before, Nat.sub_self,
      ← List.head?_eq_getElem?, List.head?_eq_none_iff]
  have hloop := @endOfAreaFrom_le_iff g numRows numCols hcols (g.shown scroll) (g.buffer.length + 1) 0 scroll 0
    (by omega) hget
  rw [Nat.zero_mod, foldl_place hcols, Nat.zero_add, hlen, Nat.add_sub_cancel' hscroll, hend] at hloop
  rwa [endOfArea, if_neg (by omega)]

/-- before the cursor the window has not ended -/
theorem lt_endOfArea (hrows : 0 < numRows) (hcols : 0 < numCols) (hscroll : g.cursor < scroll) :
    ¬ g.endOfArea scroll numRows numCols ≤ g.cursor := by
  have hle := le_endOfAreaFrom g numRows numCols (g.buffer.length + 1) 0 scroll 0
  rw [endOfArea, if_neg (by omega)]
  omega

/-! ## Scanning back -/

/-- where scanning back over `back` rows of the text before the cursor ends: at the last character from which the text
takes that many rows, or at the second one -/
def scanStop (numCols back : ℕ) (before : List Char) : ℕ :=
  max 1 (Nat.findGreatest (fun j => back ≤ rows '\n' numCols (before.drop j)) before.length)

/-- the scan ends at `j`: no place behind it is `back` rows above the cursor, and it is, or is the last one scanned -/
structure StopsAt (numCols back : ℕ) (before : List Char) (j : ℕ) : Prop where
  pos : 1 ≤ j
  passed : ∀ k, j < k → rows '\n' numCols (before.drop k) < back
  stop : back ≤ rows '\n' numCols (before.drop j) ∨ j = 1

theorem scanStop_eq {back : ℕ} {before : List Char} {j : ℕ} (h : StopsAt numCols back before j) (hback : 0 < back) :
    scanStop numCols back before = j := by
  unfold scanStop
  by_cases hstop : back ≤ rows '\n' numCols (before.drop j)
  · have hlt : j < before.length := by
      by_contra hge
      rw [List.drop_of_length_le (Nat.le_of_not_lt hge), rows_nil] at hstop
      omega
    rw [Nat.findGreatest_eq_iff.2 ⟨Nat.le_of_lt hlt, fun _ => hstop, fun k hk _ => Nat.not_le.2 (h.passed k hk)⟩]
    exact Nat.max_eq_right h.pos
  · have hone : j = 1 := h.stop.resolve_left hstop
    subst hone
    rw [Nat.findGreatest_eq_iff.2 ⟨Nat.zero_le _, fun h => absurd rfl h, ?_⟩]
    · rfl
    · intro k hk _
      rcases Nat.lt_or_eq_of_le (show 1 ≤ k from hk) with hlt | rfl
      · exact Nat.not_le.2 (h.passed k hlt)
      · exact hstop

/-- the loop of `start_of_area`, with the characters from `i + 1` to the cursor scanned -/
theorem scanBack_spec (h : g.Readable) {back i row lineLen : ℕ} (hi : i < g.cursor)
    (hpassed : ∀ k, i + 1 < k → rows '\n' numCols (g.text.before.drop k) < back)
    (hrow : 0 < i → rows '\n' numCols (g.text.before.drop (i + 1)) + row = back)
    (hline : 0 < i → lineLen = (headLine '\n' (g.text.before.drop (i + 1))).length) :
    ∃ j, StopsAt numCols back g.text.before j ∧
      g.scanBack numCols i row lineLen g.text.before[i + 1]? = (j - 1, g.text.before[j]?) := by
  induction i generalizing row lineLen with
  | zero => exact ⟨1, ⟨le_refl 1, hpassed, Or.inr rfl⟩, rfl⟩
  | succ i ih =>
    have hrow' := hrow (Nat.succ_pos i)
    have hline' := hline (Nat.succ_pos i)
    rw [scanBack]
    by_cases hpos : 0 < row
    · have hlen := h.length_before
      have hlt : i + 1 < g.text.before.length := by omega
      have hread : g.get (i + 1) = some g.text.before[i + 1] := by
        rw [h.get_before hi, List.getElem?_eq_getElem hlt]
      have hdrop := List.drop_eq_getElem_cons hlt
      have hcell := List.getElem?_eq_getElem hlt
      have hpassed' : ∀ k, i + 1 < k → rows '\n' numCols (g.text.before.drop k) < back := by
        intro k hk
        rcases Nat.lt_or_eq_of_le (show i + 1 + 1 ≤ k from hk) with hlt | rfl
        · exact hpassed k hlt
        · omega
      rw [if_pos hpos, hread]
      simp only [← hcell]
      split_ifs with hbreak hwrap
      · rw [hbreak] at hdrop
        refine ih (by omega) hpassed' (fun _ => ?_) (fun _ => ?_)
        · rw [hdrop, rows_cons_break]
          omega
        · rw [hdrop, headLine_cons_break]
          rfl
      · refine ih (by omega) hpassed' (fun _ => ?_) (fun _ => ?_)
        · rw [hdrop, rows_cons hbreak, if_pos (by rw [← hline']; exact Nat.dvd_of_mod_eq_zero hwrap.2)]
          omega
        · rw [hdrop, headLine_cons hbreak, List.length_cons, hline']
      · refine ih (by omega) hpassed' (fun hi => ?_) (fun _ => ?_)
        · rw [hdrop, rows_cons hbreak, if_neg]
          · omega
          · rw [← hline']
            exact fun hdvd => hwrap ⟨hi, Nat.mod_eq_zero_of_dvd hdvd⟩
        · rw [hdrop, headLine_cons hbreak, List.length_cons, hline']
    · refine ⟨i + 1 + 1, ⟨by omega, hpassed, Or.inl (by omega)⟩, ?_⟩
      rw [if_neg hpos]
      rfl

/-- **The start of the window** after scanning back: behind the line break the scan ends at, or before the character -/
theorem startOfArea_eq (h : g.Readable) (hrows : 0 < numRows) (hcols : 0 < numCols) (hscroll : scroll ≤ g.cursor) :
    ∃ j, StopsAt numCols (min (rows '\n' numCols (g.shown scroll)) (numRows - 1) + 1) g.text.before j ∧
      g.startOfArea scroll numRows numCols = if g.text.before[j]? = some '\n' then j + 1 else j - 1 := by
  have hlen := h.length_before
  have hrow : ((g.cursorLocation scroll numRows numCols).getD (numRows - 1, 0)).1 =
      min (rows '\n' numCols (g.shown scroll)) (numRows - 1) := by
    rw [cursorLocation_eq h hrows hcols]
    by_cases hin : rows '\n' numCols (g.shown scroll) < numRows
    · rw [if_pos ⟨hscroll, hin⟩, Option.getD_some]
      omega
    · rw [if_neg (fun hand => hin hand.2), Option.getD_none]
      omega
  have hempty : ∀ k, g.cursor ≤ k → rows '\n' numCols (g.text.before.drop k) = 0 := by
    intro k hk
    rw [List.drop_of_length_le (by omega), rows_nil]
  unfold startOfArea
  rw [if_neg (by omega)]
  simp only [hrow]
  by_cases hone : g.cursor ≤ 1
  · refine ⟨1, ⟨le_refl 1, fun k hk => ?_, Or.inr rfl⟩, ?_⟩
    · rw [hempty k (by omega)]
      omega
    · rw [if_pos hone, List.getElem?_eq_none (by omega)]
      simp
  · have hnext : g.cursor - 1 + 1 = g.cursor := by omega
    obtain ⟨j, hstop, hscan⟩ := @scanBack_spec g numCols h
      (min (rows '\n' numCols (g.shown scroll)) (numRows - 1) + 1) (g.cursor - 1)
      (min (rows '\n' numCols (g.shown scroll)) (numRows - 1) + 1) 0 (by omega)
      (fun k hk => by rw [hempty k (by omega)]; omega)
      (fun _ => by rw [hnext, hempty g.cursor (le_refl _), Nat.zero_add])
      (fun _ => by rw [hnext, List.drop_of_length_le (by omega)]; rfl)
    have hnone : g.text.before[g.cursor - 1 + 1]? = none := List.getElem?_eq_none (by omega)
    rw [hnone] at hscan
    refine ⟨j, hstop, ?_⟩
    have hpos := hstop.pos
    rw [if_neg hone, hscan]
    simp only
    split_ifs
    · omega
    · rfl

end GapBuffer

/-! ## Windows -/

/-- the cursor behind `before` is in the window from `scroll` on -/
def InWindow (numRows numCols scroll : ℕ) (before : List Char) : Prop :=
  scroll ≤ before.length ∧ rows '\n' numCols (before.drop scroll) < numRows

/-- after a key that moves back: a cursor before the window is in a row of the window from the start of its line on, any
other is not below the window -/
def UpShows (numRows numCols scroll : ℕ) (before : List Char) : Prop :=
  if before.length < scroll then (lastLine '\n' before).length / numCols < numRows
  else rows '\n' numCols (before.drop scroll) < numRows

/-- scanning back from a cursor in row `row` ends at a line break, or the text from the character before that place on
takes fewer rows than the window has -/
def ScanShows (numRows numCols row : ℕ) (before : List Char) : Prop :=
  before[GapBuffer.scanStop numCols (row + 1) before]? = some '\n' ∨
    rows '\n' numCols (before.drop (GapBuffer.scanStop numCols (row + 1) before - 1)) < numRows

/-- after a key that moves on: from a cursor at the end of the text or below the window, scanning back shows it; any
other is not before the window -/
def DownShows (numRows numCols scroll : ℕ) (x : Text) : Prop :=
  if scroll ≤ x.before.length ∧ (x.after = [] ∨ numRows ≤ rows '\n' numCols (x.before.drop scroll)) then
    ScanShows numRows numCols (min (rows '\n' numCols (x.before.drop scroll)) (numRows - 1)) x.before
  else scroll ≤ x.before.length

instance (numRows numCols scroll : ℕ) (before : List Char) : Decidable (InWindow numRows numCols scroll before) :=
  inferInstanceAs (Decidable (_ ∧ _))

instance (numRows numCols scroll : ℕ) (before : List Char) : Decidable (UpShows numRows numCols scroll before) :=
  inferInstanceAs (Decidable (if before.length < scroll then (lastLine '\n' before).length / numCols < numRows
    else rows '\n' numCols (before.drop scroll) < numRows))

instance (numRows numCols row : ℕ) (before : List Char) : Decidable (ScanShows numRows numCols row before) :=
  inferInstanceAs (Decidable (_ ∨ _))

instance (numRows numCols scroll : ℕ) (x : Text) : Decidable (DownShows numRows numCols scroll x) :=
  inferInstanceAs (Decidable (if scroll ≤ x.before.length ∧
      (x.after = [] ∨ numRows ≤ rows '\n' numCols (x.before.drop scroll)) then
    ScanShows numRows numCols (min (rows '\n' numCols (x.before.drop scroll)) (numRows - 1)) x.before
    else scroll ≤ x.before.length))

namespace Text

/-- the same text, with the cursor before its `i`-th character -/
def goTo (x : Text) (i : ℕ) : Text := ⟨x.all.take i, x.all.drop i⟩

def backspace (x : Text) : Text := (x.edit .backspace).2

/-- at the end of the text, the last character is deleted -/
def delete (x : Text) : Text := (x.edit .right).2.backspace

end Text

namespace TextArea

/-- the cursor is in the visible window -/
def Shown (t : TextArea) : Prop :=
  (t.innerText.cursorLocation t.scroll t.numRows.toNat t.numCols.toNat).isSome

/-- the form has a cell, and its buffer can be read and reallocated -/
structure Sound (t : TextArea) : Prop where
  readable : t.innerText.Readable
  gapSize : 1 ≤ t.innerText.gapSize
  numRows : 0 < t.numRows.toNat
  numCols : 0 < t.numCols.toNat

variable {t t' u : TextArea}

theorem shown_iff (h : t.Sound) :
    t.Shown ↔ InWindow t.numRows.toNat t.numCols.toNat t.scroll t.innerText.text.before := by
  rw [Shown, GapBuffer.cursorLocation_eq h.readable h.numRows h.numCols, InWindow, h.readable.length_before]
  split_ifs with hin
  · exact iff_of_true rfl hin
  · exact iff_of_false (by simp) hin

/-- **Scrolling up** to the start of the line -/
theorem scrollUp_shown (h : u.Sound) (hup : u.scrollUp = some t') :
    t'.Sound ∧ (t'.Shown ↔ UpShows u.numRows.toNat u.numCols.toNat u.scroll u.innerText.text.before) := by
  have hlen := h.readable.length_before
  unfold scrollUp at hup
  by_cases hbefore : u.innerText.cursor < u.scroll
  · rw [if_pos hbefore] at hup
    obtain ⟨i, hfind, rfl⟩ := Option.map_eq_some_iff.1 hup
    have hsound : Sound { u with scroll := i } := ⟨h.readable, h.gapSize, h.numRows, h.numCols⟩
    have hi := GapBuffer.findLineStart_eq h.readable hfind
    have hdrop : u.innerText.text.before.drop i = lastLine '\n' u.innerText.text.before := by
      rw [hi, ← hlen, drop_lastLine]
    refine ⟨hsound, ?_⟩
    rw [shown_iff hsound, InWindow, UpShows, if_pos (by omega), hdrop, rows_line (not_mem_lastLine _)]
    exact and_iff_right (show i ≤ u.innerText.text.before.length by omega)
  · rw [if_neg hbefore] at hup
    cases hup
    refine ⟨h, ?_⟩
    rw [shown_iff h, InWindow, UpShows, if_neg (by omega)]
    exact and_iff_right (by omega)

/-- the window from where scanning back ends -/
theorem scan_inWindow {numRows numCols row j : ℕ} {before : List Char} (hrow : row < numRows)
    (hstop : GapBuffer.StopsAt numCols (row + 1) before j) :
    InWindow numRows numCols (if before[j]? = some '\n' then j + 1 else j - 1) before ↔
      ScanShows numRows numCols row before := by
  rw [ScanShows, GapBuffer.scanStop_eq hstop (Nat.succ_pos row), InWindow]
  by_cases hbreak : before[j]? = some '\n'
  · obtain ⟨hlt, -⟩ := List.getElem?_eq_some_iff.1 hbreak
    have hpassed := hstop.passed (j + 1) (Nat.lt_succ_self j)
    rw [if_pos hbreak]
    exact iff_of_true ⟨hlt, by omega⟩ (Or.inl hbreak)
  · have hle : j - 1 ≤ before.length := by
      rcases hstop.stop with hrows | hone
      · by_contra hgt
        rw [List.drop_of_length_le (by omega), rows_nil] at hrows
        omega
      · omega
    rw [if_neg hbreak, and_iff_right hle, or_iff_right hbreak]

/-- **Scrolling down** by scanning back -/
theorem scrollDown_shown (h : u.Sound) :
    u.scrollDown.Sound ∧
      (u.scrollDown.Shown ↔ DownShows u.numRows.toNat u.numCols.toNat u.scroll u.innerText.text) := by
  have hlen := h.readable.length_before
  have hsound : ∀ i, Sound { u with scroll := i } := fun i => ⟨h.readable, h.gapSize, h.numRows, h.numCols⟩
  by_cases hscroll : u.scroll ≤ u.innerText.cursor
  · have hend := GapBuffer.endOfArea_le_iff h.readable h.numRows h.numCols hscroll
    by_cases hout : u.innerText.endOfArea u.scroll u.numRows.toNat u.numCols.toNat ≤ u.innerText.cursor
    · obtain ⟨j, hstop, hstart⟩ := GapBuffer.startOfArea_eq h.readable h.numRows h.numCols hscroll
      have hrows := h.numRows
      rw [scrollDown, if_pos hout, DownShows, if_pos ⟨by omega, (hend.1 hout).symm⟩]
      refine ⟨hsound _, ?_⟩
      rw [shown_iff (hsound _)]
      simp only [hstart]
      exact scan_inWindow (by omega) hstop
    · have hin : ¬ u.numRows.toNat ≤ rows '\n' u.numCols.toNat (u.innerText.text.before.drop u.scroll) :=
        fun hle => hout (hend.2 (Or.inl hle))
      rw [scrollDown, if_neg hout, DownShows, if_neg (fun hand => hout (hend.2 hand.2.symm)), shown_iff h, InWindow]
      exact ⟨h, and_iff_left (Nat.lt_of_not_le hin)⟩
  · have hbefore : u.innerText.cursor < u.scroll := Nat.lt_of_not_le hscroll
    rw [scrollDown, if_neg (GapBuffer.lt_endOfArea h.numRows h.numCols hbefore), DownShows, if_neg (by omega),
      shown_iff h, InWindow]
    exact ⟨h, iff_of_false (by omega) (by omega)⟩

/-! ## Keys -/

/-- how a key scrolls -/
inductive Scroll where
  | up
  | down
  | stay
deriving DecidableEq

def Scroll.apply : Scroll → TextArea → Option TextArea
  | .up, u => u.scrollUp
  | .down, u => some u.scrollDown
  | .stay, u => some u

def scrollOf : Key → Scroll
  | .left | .up | .home | .backspace | .delete => .up
  | .right | .down | .endKey | .char _ => .down
  | .ctrl c => if c = 'h' ∨ c = '?' then .up else .stay
  | .insert | .other => .stay

/-- the text that a key leaves, with the cursor in its place -/
def pressed (t : TextArea) : Key → Text
  | .left => (t.innerText.text.edit .left).2
  | .right => (t.innerText.text.edit .right).2
  | .up => t.innerText.text.goTo (upOf t.innerText.text.all t.innerText.lineStart t.cursorCol t.innerText.cursor)
  | .down => t.innerText.text.goTo (downOf t.innerText.text.all t.cursorCol t.innerText.cursor)
  | .home => t.innerText.text.goTo (homeOf t.innerText.text.all t.innerText.cursor)
  | .endKey => t.innerText.text.goTo (endOf t.innerText.text.all t.innerText.cursor)
  | .backspace => t.innerText.text.backspace
  | .delete => t.innerText.text.delete
  | .ctrl c =>
    if c = 'h' then t.innerText.text.backspace else if c = '?' then t.innerText.text.delete else t.innerText.text
  | .insert | .other => t.innerText.text
  | .char c =>
    ⟨t.innerText.text.before ++ [c], if t.insert then t.innerText.text.after else t.innerText.text.after.tail⟩

/-- before it scrolls, the form has the text `x` up to the cursor, and as much behind it; its sizes are those it had -/
structure Leaves (t u : TextArea) (x : Text) : Prop where
  readable : u.innerText.Readable
  gapSize : 1 ≤ u.innerText.gapSize
  before : u.innerText.text.before = x.before
  after : u.innerText.text.after.length = x.after.length
  scroll : u.scroll = t.scroll
  numRows : u.numRows = t.numRows
  numCols : u.numCols = t.numCols
  maxLen : u.maxLen = t.maxLen

theorem Leaves.edited {g : GapBuffer} {x : Text} {col : ℕ} (h : 1 ≤ t.innerText.gapSize) (hread : g.Readable)
    (hsize : g.gapSize = t.innerText.gapSize) (hbefore : g.text.before = x.before)
    (hafter : g.text.after.length = x.after.length) : Leaves t { t with innerText := g, cursorCol := col } x :=
  ⟨hread, hsize ▸ h, hbefore, hafter, rfl, rfl, rfl, rfl⟩

theorem Leaves.moved {g : GapBuffer} {i col : ℕ} (h : 1 ≤ t.innerText.gapSize)
    (hat : g.At t.innerText.text.all i t.innerText.gapSize) :
    Leaves t { t with innerText := g, cursorCol := col } (t.innerText.text.goTo i) := by
  have htext := hat.text
  exact Leaves.edited h hat.readable hat.gapSize (by rw [htext]; rfl) (by rw [htext]; rfl)

theorem Leaves.of_text {g : GapBuffer} {x : Text} {col : ℕ} (h : 1 ≤ t.innerText.gapSize) (hread : g.Readable)
    (htext : g.text = x) (hsize : g.gapSize = t.innerText.gapSize) :
    Leaves t { t with innerText := g, cursorCol := col } x :=
  Leaves.edited h hread hsize (by rw [htext]) (by rw [htext])

theorem Leaves.refl (hread : t.innerText.Readable) (h : 1 ≤ t.innerText.gapSize) : Leaves t t t.innerText.text :=
  ⟨hread, h, rfl, rfl, rfl, rfl, rfl, rfl⟩

/-- **What a key does**: it edits the text or moves in it, and then scrolls -/
theorem handleKey_leaves {key : Key} (hread : t.innerText.Readable) (h : 1 ≤ t.innerText.gapSize)
    (hk : t.handleKey key = some t') : ∃ u, Leaves t u (t.pressed key) ∧ (scrollOf key).apply u = some t' := by
  have hback : ∀ g, t.innerText.backspace = some g →
      Leaves t { t with innerText := g } t.innerText.text.backspace := by
    intro g hg
    obtain ⟨hread', htext, hsize⟩ := GapBuffer.backspace_text hread hg
    exact Leaves.of_text h hread' htext hsize
  have hdelete : ∀ g, t.innerText.delete = some g → Leaves t { t with innerText := g } t.innerText.text.delete := by
    intro g hg
    obtain ⟨hread', htext, hsize⟩ := GapBuffer.delete_text hread hg
    exact Leaves.of_text h hread' htext hsize
  cases key with
  | left =>
    obtain ⟨⟨r, g⟩, hg, hup⟩ := Option.bind_eq_some_iff.1 hk
    obtain ⟨r', g', hleft, hread', hedit, hsize⟩ := GapBuffer.left_text hread
    cases hleft.symm.trans hg
    exact ⟨_, Leaves.of_text h hread' (congrArg Prod.snd hedit) hsize, hup⟩
  | right =>
    obtain ⟨⟨r, g⟩, hg, hdown⟩ := Option.bind_eq_some_iff.1 hk
    obtain ⟨r', g', hright, hread', hedit, hsize⟩ := GapBuffer.right_text hread
    cases hright.symm.trans hg
    exact ⟨_, Leaves.of_text h hread' (congrArg Prod.snd hedit) hsize, hdown⟩
  | up =>
    obtain ⟨g, hg, hup⟩ := Option.bind_eq_some_iff.1 hk
    obtain ⟨g', hmove, hat⟩ := GapBuffer.up_at hread.at t.cursorCol
    cases hmove.symm.trans hg
    exact ⟨_, Leaves.moved h hat, hup⟩
  | down =>
    obtain ⟨g, hg, hdown⟩ := Option.bind_eq_some_iff.1 hk
    obtain ⟨g', hmove, hat⟩ := GapBuffer.down_at hread.at t.cursorCol
    cases hmove.symm.trans hg
    exact ⟨_, Leaves.moved h hat, hdown⟩
  | home =>
    obtain ⟨⟨r, g⟩, hg, hup⟩ := Option.bind_eq_some_iff.1 hk
    obtain ⟨r', g', hmove, hat⟩ := GapBuffer.home_at hread.at
    cases hmove.symm.trans hg
    exact ⟨_, Leaves.moved h hat, hup⟩
  | endKey =>
    obtain ⟨⟨r, g⟩, hg, hdown⟩ := Option.bind_eq_some_iff.1 hk
    obtain ⟨r', g', hmove, hat⟩ := GapBuffer.end_at hread.at
    cases hmove.symm.trans hg
    exact ⟨_, Leaves.moved h hat, hdown⟩
  | backspace =>
    obtain ⟨g, hg, hup⟩ := Option.bind_eq_some_iff.1 hk
    exact ⟨_, hback g hg, hup⟩
  | delete =>
    obtain ⟨g, hg, hup⟩ := Option.bind_eq_some_iff.1 hk
    exact ⟨_, hdelete g hg, hup⟩
  | ctrl c =>
    rw [handleKey] at hk
    rw [scrollOf, pressed]
    split_ifs at hk with hh hq
    · obtain ⟨g, hg, hup⟩ := Option.bind_eq_some_iff.1 hk
      rw [if_pos hh, if_pos (Or.inl hh)]
      exact ⟨_, hback g hg, hup⟩
    · obtain ⟨g, hg, hup⟩ := Option.bind_eq_some_iff.1 hk
      rw [if_neg hh, if_pos hq, if_pos (Or.inr hq)]
      exact ⟨_, hdelete g hg, hup⟩
    · rw [if_neg hh, if_neg hq, if_neg (not_or.2 ⟨hh, hq⟩)]
      exact ⟨t, Leaves.refl hread h, hk⟩
  | insert =>
    have hholds : Leaves t { t with insert := !t.insert } t.innerText.text :=
      ⟨hread, h, rfl, rfl, rfl, rfl, rfl, rfl⟩
    exact ⟨_, hholds, hk⟩
  | char c =>
    rw [handleKey] at hk
    rw [pressed]
    cases hmode : t.insert with
    | true =>
      rw [if_pos hmode] at hk
      obtain ⟨g, hg, hdown⟩ := Option.bind_eq_some_iff.1 hk
      obtain ⟨hread', hbefore, hafter, hsize⟩ := GapBuffer.insert_text hread h hg
      exact ⟨_, Leaves.edited h hread' hsize hbefore hafter, hdown⟩
    | false =>
      rw [if_neg (by simp [hmode])] at hk
      obtain ⟨g, hg, hdown⟩ := Option.bind_eq_some_iff.1 hk
      obtain ⟨hread', hbefore, hafter, hsize⟩ := GapBuffer.overwrite_text hread h hg
      exact ⟨_, Leaves.edited h hread' hsize hbefore hafter, hdown⟩
  | other => exact ⟨t, Leaves.refl hread h, hk⟩

theorem Leaves.sound {x : Text} (hu : Leaves t u x) (h : t.Sound) : u.Sound :=
  ⟨hu.readable, hu.gapSize, by rw [hu.numRows]; exact h.numRows, by rw [hu.numCols]; exact h.numCols⟩

/-! ## Runs -/

/-- scrolling down looks at the text before the cursor, and whether any is behind it -/
theorem downShows_congr {numRows numCols scroll : ℕ} {x y : Text} (hbefore : x.before = y.before)
    (hafter : x.after.length = y.after.length) :
    DownShows numRows numCols scroll x ↔ DownShows numRows numCols scroll y := by
  have hnil : x.after = [] ↔ y.after = [] := by
    rw [← List.length_eq_zero_iff, hafter, List.length_eq_zero_iff]
  simp only [DownShows, hbefore, hnil]

/-- **The key keeps the cursor in sight** -/
def Tracks (t : TextArea) (key : Key) : Prop :=
  match scrollOf key with
  | .up => UpShows t.numRows.toNat t.numCols.toNat t.scroll (t.pressed key).before
  | .down => DownShows t.numRows.toNat t.numCols.toNat t.scroll (t.pressed key)
  | .stay => InWindow t.numRows.toNat t.numCols.toNat t.scroll (t.pressed key).before

theorem handleKey_shown {key : Key} (h : t.Sound) (hk : t.handleKey key = some t') :
    t'.Sound ∧ (t'.Shown ↔ t.Tracks key) := by
  obtain ⟨u, hu, happly⟩ := handleKey_leaves h.readable h.gapSize hk
  have hsound := hu.sound h
  rw [Tracks, ← hu.scroll, ← hu.numRows, ← hu.numCols, ← hu.before]
  cases hscroll : scrollOf key with
  | up =>
    rw [hscroll] at happly
    exact scrollUp_shown hsound happly
  | down =>
    rw [hscroll] at happly
    obtain rfl := Option.some.inj happly
    dsimp only
    rw [← downShows_congr hu.before hu.after]
    exact scrollDown_shown hsound
  | stay =>
    rw [hscroll] at happly
    obtain rfl := Option.some.inj happly
    exact ⟨hsound, shown_iff hsound⟩

/-- one key; none if it panics -/
def step (t : TextArea) (key : Key) : Option (Unit × TextArea) := (t.handleKey key).map fun t => ((), t)

/-- once the key is handled, the cursor is shown -/
def ShowsAfter (t : TextArea) (key : Key) : Prop := ∀ t', t.handleKey key = some t' → t'.Shown

/-- where the key is handled, it keeps the cursor in sight -/
def Follows (t : TextArea) (key : Key) : Prop := (t.handleKey key).isSome → t.Tracks key

theorem showsAfter_iff {key : Key} (h : t.Sound) : t.ShowsAfter key ↔ t.Follows key := by
  unfold ShowsAfter Follows
  cases hk : t.handleKey key with
  | none => simp
  | some t' => simp [(handleKey_shown h hk).2]

theorem step_sound {key : Key} {r : Unit} (h : t.Sound) (hstep : t.step key = some (r, t')) : t'.Sound := by
  obtain ⟨t₁, hk, heq⟩ := Option.map_eq_some_iff.1 hstep
  cases heq
  exact (handleKey_shown h hk).1

theorem sound_of_new {text : List Char} (hnew : GapBuffer.new text GAP_SIZE = some t.innerText)
    (hrows : 1 ≤ t.numRows) (hcols : 1 ≤ t.numCols) : t.Sound := by
  obtain ⟨hread, hsize⟩ := GapBuffer.readable_new hnew
  exact ⟨hread, by simp [hsize, GAP_SIZE], UInt64.le_iff_toNat_le.1 hrows, UInt64.le_iff_toNat_le.1 hcols⟩

/-- **In every run of keys on every text**, after each key handled the cursor is shown exactly when each of them keeps
it in sight -/
theorem shown_iff_tracks (t : TextArea) (text : List Char) (hnew : GapBuffer.new text GAP_SIZE = some t.innerText)
    (hrows : 1 ≤ t.numRows) (hcols : 1 ≤ t.numCols) (keys : List Key) :
    AlwaysSome step ShowsAfter t keys ↔ AlwaysSome step Follows t keys :=
  alwaysSome_iff (I := Sound) (P := ShowsAfter) (Q := Follows) (fun _ _ h => showsAfter_iff h)
    (fun _ _ _ _ h hstep => step_sound h hstep) (sound_of_new hnew hrows hcols) keys

/-! ## Typing at the end of the text -/

theorem toChar_val (c : Char) : GapBuffer.toChar c.val = c := by simp [GapBuffer.toChar]

theorem text_of_represents {g : GapBuffer} {x : Text} (h : g.Represents x) : g.text = x := by
  have hchars : ∀ w : List Char, (w.map Char.val).map GapBuffer.toChar = w := by
    intro w
    rw [List.map_map]
    exact List.map_id'' toChar_val w
  have hbefore : g.buffer.take g.cursor = x.before.map Char.val := by
    rw [h.buffer]
    exact List.take_left' (by simp [h.cursor])
  have hafter : g.buffer.drop (g.cursor + g.gap) = x.after.map Char.val := by
    rw [h.buffer, ← List.append_assoc]
    exact List.drop_left' (by simp [h.cursor])
  rw [GapBuffer.text, hbefore, hafter, hchars, hchars]

/-- a form with an ASCII text takes a character at its end, and shows its cursor as scrolling down says -/
theorem newDetached_typed {text : List Char} (hascii : GapBuffer.IsAscii text) (numRows numCols : UInt64) (maxLen : ℕ)
    (ch : Char) : ∃ t, newDetached text numRows numCols maxLen = some t ∧ (t.handleKey (.char ch)).isSome ∧
      GapBuffer.new text GAP_SIZE = some t.innerText ∧ t.numRows = numRows ∧ t.numCols = numCols ∧
      (t.Tracks (.char ch) ↔ DownShows numRows.toNat numCols.toNat 0 ⟨text ++ [ch], []⟩) := by
  obtain ⟨g, hnew, hloaded⟩ := (GapBuffer.new_loaded_iff text GAP_SIZE).2 ⟨hascii, by simp [GAP_SIZE]⟩
  have hrun := hloaded.runs (.insert ch)
  obtain ⟨g', hinsert⟩ : ∃ g', g.insert ch = some g' := by
    simpa [GapBuffer.perform, Option.isSome_iff_exists] using hrun
  refine ⟨_, by rw [newDetached, hnew]; rfl, ?_, hnew, rfl, rfl, ?_⟩
  · rw [handleKey, if_pos rfl, hinsert]
    rfl
  · rw [Tracks, pressed, text_of_represents hloaded.represents]
    exact Iff.rfl

/-- a character typed into the first row -/
theorem shown_iff_tracks_typed : ∃ t, newDetached ['a', 'b'] 2 3 9 = some t ∧
    AlwaysSome step ShowsAfter t [.char 'c'] := by
  obtain ⟨t, ht, -, hnew, hrows, hcols, htracks⟩ := @newDetached_typed ['a', 'b'] (by decide) 2 3 9 'c'
  have hfollows : t.Follows (.char 'c') := fun _ => htracks.2 (by decide +kernel)
  refine ⟨t, ht, (shown_iff_tracks t ['a', 'b'] hnew (by simp [hrows]) (by simp [hcols]) _).2 ?_⟩
  exact ⟨hfollows, fun _ _ => trivial⟩

/-- the character that fills an area of two rows hides the cursor -/
theorem typed_out_of_sight : ∃ t t', newDetached ['a', 'b', 'c', 'd', 'e'] 2 3 9 = some t ∧
    t.handleKey (.char 'f') = some t' ∧ ¬ t'.Shown := by
  obtain ⟨t, ht, hsome, hnew, hrows, hcols, htracks⟩ :=
    @newDetached_typed ['a', 'b', 'c', 'd', 'e'] (by decide) 2 3 9 'f'
  obtain ⟨t', hk⟩ := Option.isSome_iff_exists.1 hsome
  have hsound := sound_of_new hnew (by simp [hrows]) (by simp [hcols])
  refine ⟨t, t', ht, hk, ?_⟩
  rw [(handleKey_shown hsound hk).2, htracks]
  decide +kernel

end TextArea

end Wrb.Ui
