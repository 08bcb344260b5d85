/-
Moves from line to line (`up` and `down` of a `GapBuffer`, `ui/forms/textarea.rs`), against their documentation: to the
line before or behind, at the column asked for or at the end of a shorter line, and nowhere from the first or last line.

* `loops_end`: the loops of all moves end by themselves, from every buffer that can be read. `moves_keep`: so the moves
  return, and leave the text as it is.
* `up_lands_iff`, `down_lands_iff`: where `up` and `down` go, against the documentation. Both go by `line_start`, which
  at the end of a text that ends with a line break goes to the start of the line before.
* `moves_documented_iff`: the moves are as documented exactly when `UpLands` and `DownLands` hold.
* `down_in_last_line`: in the last line `down` does not stay where it is.
-/
import Mathlib.Tactic
import Wrb.Ui.Moves

namespace Wrb.Ui

open Wrb.Wrap

/-! ## Lines of a text -/

section Lines

variable {w : List Char} {i : ℕ}

theorem lineStartOf_spec (hi : i ≤ w.length) : lineStartOf w i ≤ i ∧
    (∀ j, lineStartOf w i ≤ j → j < i → w[j]? ≠ some '\n') ∧
      (lineStartOf w i = 0 ∨ w[lineStartOf w i - 1]? = some '\n') := by
  obtain ⟨start, hle, hline, hstart⟩ : ∃ start, start ≤ i ∧ (∀ j, start ≤ j → j < i → w[j]? ≠ some '\n') ∧
      (start = 0 ∨ w[start - 1]? = some '\n') := by
    induction i with
    | zero => exact ⟨0, le_refl 0, fun j _ hj => absurd hj (Nat.not_lt_zero j), Or.inl rfl⟩
    | succ i ih =>
      by_cases hbreak : w[i]? = some '\n'
      · exact ⟨i + 1, le_refl _, fun j hj hji => by omega, Or.inr hbreak⟩
      · obtain ⟨start, hle, hline, hstart⟩ := ih (by omega)
        refine ⟨start, by omega, ?_, hstart⟩
        intro j hj hji
        rcases Nat.lt_succ_iff_lt_or_eq.1 hji with hlt | rfl
        · exact hline j hj hlt
        · exact hbreak
  rw [lineStartOf_eq hle hi hline hstart]
  exact ⟨hle, hline, hstart⟩

theorem endOf_spec (hi : i ≤ w.length) : i ≤ endOf w i ∧ endOf w i ≤ w.length ∧
    (∀ j, i ≤ j → j < endOf w i → w[j]? ≠ some '\n') ∧ (endOf w i = w.length ∨ w[endOf w i]? = some '\n') := by
  obtain ⟨k, hle, hk, hline, hend⟩ : ∃ k, i ≤ k ∧ k ≤ w.length ∧ (∀ j, i ≤ j → j < k → w[j]? ≠ some '\n') ∧
      (k = w.length ∨ w[k]? = some '\n') := by
    induction hi using Nat.decreasingInduction with
    | self => exact ⟨w.length, le_refl _, le_refl _, fun j hj hjk => by omega, Or.inl rfl⟩
    | of_succ i hlt ih =>
      by_cases hbreak : w[i]? = some '\n'
      · exact ⟨i, le_refl i, Nat.le_of_lt hlt, fun j hj hjk => by omega, Or.inr hbreak⟩
      · obtain ⟨k, hle, hk, hline, hend⟩ := ih
        refine ⟨k, by omega, hk, ?_, hend⟩
        intro j hj hjk
        rcases Nat.eq_or_lt_of_le hj with rfl | hlt
        · exact hbreak
        · exact hline j hlt hjk
  rw [endOf_eq hle hk hline hend]
  exact ⟨hle, hk, hline, hend⟩

/-- behind a line break a line starts -/
theorem lineStartOf_of_break (hi : i < w.length) (hbreak : w[i]? = some '\n') : lineStartOf w (i + 1) = i + 1 :=
  lineStartOf_eq (le_refl _) hi (fun j hj hji => by omega) (Or.inr hbreak)

/-- places with no break between them are in one line -/
theorem lineStartOf_congr {j : ℕ} (hij : i ≤ j) (hj : j ≤ w.length) (hline : ∀ l, i ≤ l → l < j → w[l]? ≠ some '\n') :
    lineStartOf w j = lineStartOf w i := by
  obtain ⟨hle, hno, hstart⟩ := lineStartOf_spec (hij.trans hj)
  apply lineStartOf_eq (hle.trans hij) hj ?_ hstart
  intro l hl hlj
  rcases Nat.lt_or_ge l i with hlt | hge
  · exact hno l hl hlt
  · exact hline l hge hlj

theorem endOf_congr {j : ℕ} (hij : i ≤ j) (hj : j ≤ w.length) (hline : ∀ l, i ≤ l → l < j → w[l]? ≠ some '\n') :
    endOf w i = endOf w j := by
  obtain ⟨hle, hlen, hno, hend⟩ := endOf_spec hj
  apply endOf_eq (hij.trans hle) hlen ?_ hend
  intro l hl hlk
  rcases Nat.lt_or_ge l j with hlt | hge
  · exact hline l hl hlt
  · exact hno l hge hlk

/-- the line of a place ends where the line that starts at its start does -/
theorem endOf_lineStartOf (hi : i ≤ w.length) : endOf w (lineStartOf w i) = endOf w i := by
  obtain ⟨hle, hno, -⟩ := lineStartOf_spec hi
  exact endOf_congr hle hi hno

theorem alongLine_eq (w : List Char) (col i : ℕ) : alongLine w col i = i + min col (endOf w i - i) := by
  rw [alongLine, endOf, Nat.add_sub_cancel_left]

theorem alongLine_le (w : List Char) (col i : ℕ) : alongLine w col i ≤ endOf w i := by
  rw [alongLine, endOf]
  exact Nat.add_le_add_left (Nat.min_le_right _ _) i

theorem homeOf_of_lt (hi : i < w.length) : homeOf w i = lineStartOf w i := by rw [homeOf, if_neg (by omega)]

/-- but behind a last line break, `line_start` goes to the start of the line -/
theorem homeOf_eq (hi : i ≤ w.length) (hlast : ¬ (i = w.length ∧ w[i - 1]? = some '\n')) :
    homeOf w i = lineStartOf w i := by
  unfold homeOf
  split_ifs with hend
  · refine (@lineStartOf_congr w (i - 1) i (by omega) hi fun l hl hlt hbreak => hlast ⟨hend, ?_⟩).symm
    rwa [show i - 1 = l by omega]
  · rfl

theorem homeOf_zero (w : List Char) : homeOf w 0 = 0 := by
  unfold homeOf lineStartOf
  split_ifs <;> simp

end Lines

/-! ## The documented moves -/

/-- the line before, at column `col` or at the end of a shorter line; from the first line nowhere -/
def lineAbove (w : List Char) (col i : ℕ) : ℕ :=
  if lineStartOf w i = 0 then i else alongLine w col (lineStartOf w (lineStartOf w i - 1))

/-- the line behind, at column `col` or at the end of a shorter line; from the last line nowhere -/
def lineBelow (w : List Char) (col i : ℕ) : ℕ := if endOf w i = w.length then i else alongLine w col (endOf w i + 1)

/-- **When `up` goes where it should**, `lineStart` being what the buffer takes for the start of the line. In the first
line, it is known to be the first one, or the column asked for is that of the cursor. Elsewhere, it is not taken for the
first line, and the cursor is not at the end of a text that ends with a line break, unless that is its only one -/
def UpLands (w : List Char) (lineStart col i : ℕ) : Prop :=
  if lineStartOf w i = 0 then lineStart = 0 ∨ min col (endOf w i) = i
  else lineStart ≠ 0 ∧ ¬ (i = w.length ∧ w[i - 1]? = some '\n' ∧ lineStartOf w (i - 1) ≠ 0)

/-- **When `down` goes where it should.** In the last line, the text does not end with a line break and the column asked
for is that of the cursor. Elsewhere, the break at the end of the line is not the last character of the text -/
def DownLands (w : List Char) (col i : ℕ) : Prop :=
  if endOf w i = w.length then
    w[w.length - 1]? ≠ some '\n' ∧ min col (w.length - lineStartOf w i) = i - lineStartOf w i
  else endOf w i + 1 < w.length

instance (w : List Char) (lineStart col i : ℕ) : Decidable (UpLands w lineStart col i) :=
  inferInstanceAs (Decidable (if lineStartOf w i = 0 then lineStart = 0 ∨ min col (endOf w i) = i
    else lineStart ≠ 0 ∧ ¬ (i = w.length ∧ w[i - 1]? = some '\n' ∧ lineStartOf w (i - 1) ≠ 0)))

instance (w : List Char) (col i : ℕ) : Decidable (DownLands w col i) :=
  inferInstanceAs (Decidable (if endOf w i = w.length then
      w[w.length - 1]? ≠ some '\n' ∧ min col (w.length - lineStartOf w i) = i - lineStartOf w i
    else endOf w i + 1 < w.length))

section Documented

variable {w : List Char} {col i : ℕ}

theorem upOf_first_line {lineStart : ℕ} (hi : i ≤ w.length) (hfirst : lineStartOf w i = 0) (hline : lineStart ≠ 0) :
    upOf w lineStart col i = min col (endOf w i) := by
  obtain ⟨-, hno, -⟩ := lineStartOf_spec hi
  have hlast : ¬ (i = w.length ∧ w[i - 1]? = some '\n') := by
    rintro ⟨hend, hbreak⟩
    have hlt := (List.getElem?_eq_some_iff.1 hbreak).1
    exact hno (i - 1) (by omega) (by omega) hbreak
  have hhome : homeOf w i = 0 := by rw [homeOf_eq hi hlast, hfirst]
  have hends := endOf_lineStartOf hi
  rw [hfirst] at hends
  rw [upOf, if_neg hline, hhome, Nat.zero_sub, homeOf_zero, alongLine_eq, hends, Nat.sub_zero, Nat.zero_add]

/-- **Up**, against the documentation -/
theorem upOf_eq_iff (hi : i ≤ w.length) (lineStart : ℕ) :
    upOf w lineStart col i = lineAbove w col i ↔ UpLands w lineStart col i := by
  obtain ⟨hle, hno, hstart⟩ := lineStartOf_spec hi
  unfold lineAbove UpLands
  by_cases hfirst : lineStartOf w i = 0
  · rw [if_pos hfirst, if_pos hfirst]
    by_cases hline : lineStart = 0
    · simp [upOf, hline]
    · rw [upOf_first_line hi hfirst hline]
      simp [hline]
  · rw [if_neg hfirst, if_neg hfirst]
    -- the line before ends at the break before this line
    obtain ⟨s, hs⟩ : ∃ s, lineStartOf w i = s := ⟨_, rfl⟩
    rw [hs] at hle hno hstart hfirst ⊢
    have hbreak : w[s - 1]? = some '\n' := hstart.resolve_left hfirst
    have hends : endOf w (lineStartOf w (s - 1)) = s - 1 := by
      rw [endOf_lineStartOf (by omega)]
      exact endOf_of_break (by simp [hbreak])
    have hbelow := alongLine_le w col (lineStartOf w (s - 1))
    by_cases hline : lineStart = 0
    · rw [upOf, if_pos hline]
      refine iff_of_false ?_ fun h => h.1 hline
      omega
    · rw [upOf, if_neg hline]
      by_cases hlast : i = w.length ∧ w[i - 1]? = some '\n'
      · obtain ⟨hend, hb⟩ := hlast
        have hsi : s = i := by
          have hnext := @lineStartOf_of_break w (i - 1) (by omega) hb
          rw [Nat.sub_add_cancel (by omega)] at hnext
          rw [← hs, hnext]
        have hhome : homeOf w i = lineStartOf w (i - 1) := by rw [homeOf, if_pos hend]
        rw [hhome, hsi]
        by_cases hzero : lineStartOf w (i - 1) = 0
        · rw [hzero, Nat.zero_sub, homeOf_zero]
          simp [hline]
        · -- one line too far
          refine iff_of_false ?_ fun h => h.2 ⟨hend, hb, hzero⟩
          obtain ⟨hle', -, hstart'⟩ := @lineStartOf_spec w (i - 1) (by omega)
          rw [homeOf_of_lt (by omega)]
          have habove := alongLine_le w col (lineStartOf w (lineStartOf w (i - 1) - 1))
          rw [endOf_lineStartOf (by omega), endOf_of_break (by simp [hstart'.resolve_left hzero])] at habove
          have hfrom : lineStartOf w (i - 1) ≤ alongLine w col (lineStartOf w (i - 1)) := Nat.le_add_right _ _
          omega
      · rw [homeOf_eq hi hlast, hs, homeOf_of_lt (by omega)]
        exact iff_of_true rfl ⟨hline, fun h => hlast ⟨h.1, h.2.1⟩⟩

/-- **Down**, against the documentation -/
theorem downOf_eq_iff (hi : i ≤ w.length) : downOf w col i = lineBelow w col i ↔ DownLands w col i := by
  obtain ⟨hle, hlen, hno, hend⟩ := endOf_spec hi
  unfold lineBelow DownLands downOf
  by_cases hlast : endOf w i = w.length
  · rw [if_pos hlast, if_pos hlast, hlast, Nat.min_eq_right (Nat.le_succ _)]
    by_cases hb : w[w.length - 1]? = some '\n'
    · -- behind the last break: back into the line before
      refine iff_of_false ?_ fun h => h.1 hb
      rw [homeOf, if_pos rfl]
      obtain ⟨hlt, -⟩ := List.getElem?_eq_some_iff.1 hb
      have hill : i = w.length := by
        by_contra hne
        exact hno (w.length - 1) (by omega) (by omega) hb
      have hbelow := alongLine_le w col (lineStartOf w (w.length - 1))
      rw [endOf_lineStartOf (by omega), endOf_of_break (by simp [hb])] at hbelow
      omega
    · have hstart : homeOf w w.length = lineStartOf w i := by
        rw [homeOf_eq (le_refl _) fun h => hb h.2]
        exact lineStartOf_congr hi (le_refl _) fun l hl hlt => hno l hl (by omega)
      obtain ⟨hstart_le, -⟩ := lineStartOf_spec hi
      rw [hstart, alongLine_eq, endOf_lineStartOf hi, hlast]
      constructor
      · intro h
        exact ⟨hb, by omega⟩
      · rintro ⟨-, h⟩
        omega
  · have hbreak : w[endOf w i]? = some '\n' := hend.resolve_left hlast
    rw [if_neg hlast, if_neg hlast, Nat.min_eq_left (by omega)]
    by_cases hnext : endOf w i + 1 < w.length
    · rw [homeOf_of_lt hnext, lineStartOf_of_break (by omega) hbreak]
      exact iff_of_true rfl hnext
    · -- the line behind is empty and the last one: `line_start` goes back to this line
      refine iff_of_false ?_ hnext
      have hsize : endOf w i + 1 = w.length := by omega
      have hbelow := alongLine_le w col (lineStartOf w (endOf w i))
      rw [endOf_lineStartOf hlen, @endOf_of_break w (endOf w i) (by simp [hbreak])] at hbelow
      rw [hsize, homeOf, if_pos rfl, ← hsize, Nat.add_sub_cancel]
      have hfrom : endOf w i + 1 ≤ alongLine w col (endOf w i + 1) := Nat.le_add_right _ _
      omega

end Documented

/-! ## The moves of the buffer -/

namespace GapBuffer

/-- what a `while` loop does that moves the cursor: it ends where the test fails, or where the move reports the end of
the text -/
inductive Loops (move : GapBuffer → Option (Bool × GapBuffer)) (p : Option Char → Bool) :
    GapBuffer → GapBuffer → Prop where
  | stop {g : GapBuffer} (h : p g.chr = false) : Loops move p g g
  | stuck {g g' : GapBuffer} (h : p g.chr = true) (hmove : move g = some (false, g')) : Loops move p g g'
  | next {g g₁ g' : GapBuffer} (h : p g.chr = true) (hmove : move g = some (true, g₁)) (hrest : Loops move p g₁ g') :
    Loops move p g g'

/-- the moves that are loops, or made of loops -/
def lineMoves (col : ℕ) : List Op := [.up col, .down col, .lineStart, .lineEnd, .leftWord, .rightWord]

/-- **The documented moves.** Their loops end, also from where the cursor is in the middle of a move; they return, and
keep the text; `up` and `down` go to the line before and behind -/
structure MovesDocumented (g : GapBuffer) (col : ℕ) : Prop where
  ends : ∀ (h : GapBuffer), h.Readable → h.text.all = g.text.all → ∀ p,
    (∃ h', Loops left p h h' ∧ h.leftWhile p (h.buffer.length + 1) = some h') ∧
      ∃ h', Loops right p h h' ∧ h.rightWhile p (h.buffer.length + 1) = some h'
  keeps : ∀ op ∈ lineMoves col, ∃ r g', g.perform op = some (r, g') ∧ g'.toText = g.toText
  up : ∀ g', g.up col = some g' → g'.cursor = lineAbove g.text.all col g.cursor
  down : ∀ g', g.down col = some g' → g'.cursor = lineBelow g.text.all col g.cursor

variable {g : GapBuffer} {w : List Char} {i size : ℕ}

theorem At.text_all (h : g.At w i size) : g.text.all = w := by rw [h.text, Text.all, List.take_append_drop]

/-- a loop whose moves bring down a number that the fuel exceeds ends by itself -/
theorem loops_of_measure {move : GapBuffer → Option (Bool × GapBuffer)} {p : Option Char → Bool}
    {f : ℕ → GapBuffer → Option GapBuffer} {m : GapBuffer → ℕ}
    (hloop : ∀ n g, f (n + 1) g =
      if p g.chr then (move g).bind fun r => if r.1 then f n r.2 else some r.2 else some g)
    (hmove : ∀ g, g.Readable → ∃ b g', move g = some (b, g') ∧ g'.Readable ∧ (b = true → m g' < m g)) {fuel : ℕ}
    (h : g.Readable) (hfuel : m g < fuel) : ∃ g', Loops move p g g' ∧ f fuel g = some g' := by
  induction fuel generalizing g with
  | zero => omega
  | succ fuel ih =>
    cases hp : p g.chr with
    | false => exact ⟨g, .stop hp, by rw [hloop, hp]; rfl⟩
    | true =>
      obtain ⟨b, g₁, hstep, h₁, hless⟩ := hmove g h
      cases b with
      | false => exact ⟨g₁, .stuck hp hstep, by rw [hloop, hp, hstep]; rfl⟩
      | true =>
        have hless := hless rfl
        obtain ⟨g', hrest, hend⟩ := ih h₁ (by omega)
        exact ⟨g', .next hp hstep hrest, by rw [hloop, hp, hstep]; exact hend⟩

/-- **Every loop of a move ends**: it passes over no more cells than the text has -/
theorem loops_end (h : g.Readable) (p : Option Char → Bool) :
    (∃ g', Loops left p g g' ∧ g.leftWhile p (g.buffer.length + 1) = some g') ∧
      ∃ g', Loops right p g g' ∧ g.rightWhile p (g.buffer.length + 1) = some g' := by
  have hroom := h.room
  constructor
  · refine loops_of_measure (f := fun n g => g.leftWhile p n) (m := cursor) (fun _ _ => rfl) ?_ h (by omega)
    intro g hg
    obtain ⟨g', hleft, hat⟩ := left_at hg.at
    refine ⟨_, g', hleft, hat.readable, ?_⟩
    intro hpos
    have hcursor := hat.cursor
    have hpos := of_decide_eq_true hpos
    omega
  · refine loops_of_measure (f := fun n g => g.rightWhile p n) (m := fun g => g.text.after.length) (fun _ _ => rfl) ?_
      h (by rw [length_after]; omega)
    intro g hg
    obtain ⟨g', hright, hat⟩ := right_at hg.at
    refine ⟨_, g', hright, hat.readable, ?_⟩
    intro hlt
    have hlt := of_decide_eq_true hlt
    have hafter : g.text.after.length = g.text.all.length - g.cursor := by
      rw [Text.all, List.length_append, hg.length_before, Nat.add_sub_cancel_left]
    rw [hat.text, hafter, List.length_drop]
    omega

/-- **The moves keep the text**, and return -/
theorem moves_keep (h : g.Readable) (col : ℕ) :
    ∀ op ∈ lineMoves col, ∃ r g', g.perform op = some (r, g') ∧ g'.toText = g.toText := by
  have hkept : ∀ {g' : GapBuffer} {j : ℕ}, g'.At g.text.all j g.gapSize → g'.toText = g.toText := by
    intro g' j hat
    rw [hat.readable.toText, h.toText, hat.text_all]
  intro op hop
  simp only [lineMoves, List.mem_cons, List.not_mem_nil, or_false] at hop
  rcases hop with rfl | rfl | rfl | rfl | rfl | rfl
  · obtain ⟨g', hup, hat⟩ := up_at h.at col
    exact ⟨none, g', by rw [perform, hup]; rfl, hkept hat⟩
  · obtain ⟨g', hdown, hat⟩ := down_at h.at col
    exact ⟨none, g', by rw [perform, hdown]; rfl, hkept hat⟩
  · obtain ⟨b, g', hhome, hat⟩ := home_at h.at
    exact ⟨some b, g', by rw [perform, hhome]; rfl, hkept hat⟩
  · obtain ⟨b, g', hend, hat⟩ := end_at h.at
    exact ⟨some b, g', by rw [perform, hend]; rfl, hkept hat⟩
  · obtain ⟨j, k, g₁, g₂, g', b, r, -, -, -, -, hat, hword, -⟩ := leftWord_at h.at
    exact ⟨some b, g', by rw [perform, hword]; rfl, hkept hat⟩
  · obtain ⟨k, g', b, -, hat, hword, -⟩ := rightWord_at h.at
    exact ⟨some b, g', by rw [perform, hword]; rfl, hkept hat⟩

theorem up_lands_iff (h : g.Readable) (col : ℕ) :
    (∀ g', g.up col = some g' → g'.cursor = lineAbove g.text.all col g.cursor) ↔
      UpLands g.text.all g.lineStart col g.cursor := by
  obtain ⟨g', hup, hat⟩ := up_at h.at col
  rw [← upOf_eq_iff h.at.le]
  simp only [hup, Option.some.injEq, forall_eq', hat.cursor]

theorem down_lands_iff (h : g.Readable) (col : ℕ) :
    (∀ g', g.down col = some g' → g'.cursor = lineBelow g.text.all col g.cursor) ↔
      DownLands g.text.all col g.cursor := by
  obtain ⟨g', hdown, hat⟩ := down_at h.at col
  rw [← downOf_eq_iff h.at.le]
  simp only [hdown, Option.some.injEq, forall_eq', hat.cursor]

/-- **The moves are as documented** exactly when `up` and `down` land where they should, for every buffer that can be
read and every column -/
theorem moves_documented_iff (g : GapBuffer) (h : g.Readable) (col : ℕ) :
    g.MovesDocumented col ↔ UpLands g.text.all g.lineStart col g.cursor ∧ DownLands g.text.all col g.cursor := by
  rw [← up_lands_iff h, ← down_lands_iff h]
  constructor
  · intro hmoves
    exact ⟨hmoves.up, hmoves.down⟩
  · rintro ⟨hup, hdown⟩
    exact ⟨fun g' hg' _ p => loops_end hg' p, moves_keep h col, hup, hdown⟩

/-- the text "a", a line break and "bc", with the cursor on the "b" -/
def twoRows : GapBuffer := ⟨[97, 10, 0, 0, 98, 99], 2, 2, 2, 1, 2⟩

theorem readable_twoRows : twoRows.Readable := by
  have hcells : ∀ x ∈ twoRows.buffer, x.toNat < 0xd800 := by simp [twoRows]
  exact ⟨by decide, fun x hx => Or.inl (hcells x hx)⟩

theorem moves_documented_twoRows : twoRows.MovesDocumented 0 :=
  (moves_documented_iff twoRows readable_twoRows 0).2 (by decide +kernel)

/-- **Down from the last line**: at the end of "ab" the cursor goes to column 0 -/
theorem down_in_last_line : ¬ ∀ (txt : List Char) (gapSize col : ℕ) (g : GapBuffer), new txt gapSize = some g →
    g.Readable → g.MovesDocumented col := by
  intro h
  have hnew : new ['a', 'b'] 2 = some ⟨[97, 98, 0, 0], 2, 2, 2, 0, 0⟩ := by decide +kernel
  have hread := (readable_new hnew).1
  have hmoves := h ['a', 'b'] 2 0 _ hnew hread
  exact absurd ((down_lands_iff hread 0).1 hmoves.down) (by decide +kernel)

/-- up from the end of a text that ends with a line break: over two lines -/
example : (⟨[97, 10, 98, 10, 0], 4, 1, 1, 2, 4⟩ : GapBuffer).up 0 = some ⟨[0, 97, 10, 98, 10], 0, 1, 1, 4, 0⟩ := by
  decide +kernel

end GapBuffer

end Wrb.Ui
