/-
Where a print ends (`CharBuff::inner_print` in `ui/charbuff.rs`), and with it where the next text goes
(`PrintText::render` in `ui/forms/print_text.rs`, `Root::set_all_forms` in `ui/root.rs`).

`inner_print` keeps the position in its layout (`row`, `idx`), and beside it the position it returns (`ret`), which only
words move. So a text that ends in line breaks returns the end of its last word.

Results:
- `print_ends_iff`: `print` returns the end of the text, `println` the row below, and a text without a cursor goes on
  there (`EndsRight`), exactly if the text does not end in a line break and no sum overflows (`RightEnd`);
- `newline_not_counted`: a text of one letter and a line break ends in the row of the letter.
-/
import Mathlib.Tactic
import Wrb.Lib.WordWrap
import Wrb.Ui.Printing
import Wrb.Ui.Root

namespace Wrb.Ui

open Wrb.WordWrap

/-- where the layout of a text ends -/
def endOfText (w : ℕ) (start : ℕ × ℕ) (text : List Char) : ℕ × ℕ := finish w start (piecesOf text)

/-- **The end of a text is returned**, and the next text goes on there -/
structure EndsRight (numCols : UInt64) (start : Coord) (text : List Char) : Prop where
  print : ∀ (b : CharBuff) elementId bg fg, b.numCols = numCols → ∃ ret b',
    b.print elementId start bg fg text = some (ret, b') ∧ natPos ret = endOfText numCols.toNat (natPos start) text
  println : ∀ (b : CharBuff) elementId bg fg, b.numCols = numCols → ∃ ret b',
    b.println elementId start bg fg text = some (ret, b') ∧
      natPos ret = ((endOfText numCols.toNat (natPos start) text).1 + 1, 0)
  /-- of the forms in a viewport, the one behind `f` is shown as if it had a cursor of its own there -/
  continues : ∀ (root : Root) (v : Viewport) (cursors : Std.ExtTreeMap ℕ Coord) (f g : PrintText)
    (others rest : List Form), root.scenegraph.refViewport f.viewportId = some v → v.buff.numCols = numCols →
    f.text = text → f.cursor.getD (cursors[f.viewportId]?.getD (0, 0)) = start → g.viewportId = f.viewportId →
    g.cursor = none → (∀ other ∈ others, other.viewportId ≠ f.viewportId) →
    ∃ stop, natPos stop = (if f.newline then ((endOfText numCols.toNat (natPos start) text).1 + 1, 0)
        else endOfText numCols.toNat (natPos start) text) ∧
      Root.renderAll (.print f :: (others ++ .print g :: rest)) cursors root =
        Root.renderAll (.print f :: (others ++ .print { g with cursor := some stop } :: rest)) cursors root

/-- the column behind the first word, of `n` characters, overflows into the row -/
def Overflows (w col n : ℕ) : Prop := 2 ^ 64 ≤ col + n ∧ col + n - 2 ^ 64 < w

/-- when `print` returns the end -/
structure RightRet (w : ℕ) (start : ℕ × ℕ) (text : List Char) : Prop where
  word : text.getLast? ≠ some '\n'
  /-- the end has a number -/
  cell : text ≠ [] → index w (endOfText w start text) < 2 ^ 64
  /-- where the column overflows the row is lost, and the rest of the text has to make up for it -/
  column : ∀ cs rest, piecesOf text = .word cs :: rest → Overflows w start.2 cs.length →
    finish w (start.1 + cs.length / w, start.2 + cs.length - 2 ^ 64) rest = endOfText w start text

/-- when all of them do -/
structure RightEnd (w : ℕ) (start : ℕ × ℕ) (text : List Char) : Prop extends RightRet w start text where
  /-- there is a row below the end -/
  below : (endOfText w start text).1 + 1 < 2 ^ 64

/-! ## The last piece -/

theorem piecesOf_ne {text : List Char} : ∀ cs, Piece.word cs ∈ piecesOf text → cs ≠ [] := split_ne

theorem piecesOf_pieces (text : List Char) :
    ∀ p ∈ piecesOf text, p = .newline '\n' ∨ ∃ cs, p = .word cs ∧ '\n' ∉ cs := by
  intro p hp
  rcases @split_pieces Char isWhitespace (fun c => decide (c = '\n')) text [] (List.forall_mem_nil _)
    isWhitespace_newline p hp with ⟨c, rfl, hc⟩ | ⟨cs, rfl, hcs⟩
  · exact Or.inl (by rw [of_decide_eq_true hc])
  · refine Or.inr ⟨cs, rfl, fun hmem => ?_⟩
    simpa using hcs '\n' hmem

theorem piecesOf_eq_nil {text : List Char} : piecesOf text = [] ↔ text = [] := by
  constructor
  · intro h
    rw [← piecesOf_chars text, h]
    rfl
  · rintro rfl
    rfl

/-- a text that does not end in a line break ends in a word -/
theorem getLast?_piecesOf {text : List Char} (hne : text ≠ []) :
    text.getLast? ≠ some '\n' ↔ EndsInWord (piecesOf text) := by
  obtain ⟨ps, p, hlast⟩ := (piecesOf text).eq_nil_or_concat.resolve_left (piecesOf_eq_nil.not.2 hne)
  rw [List.concat_eq_append] at hlast
  have hmem : p ∈ piecesOf text := by simp [hlast]
  have hchars := piecesOf_chars text
  rw [hlast, List.flatMap_append] at hchars
  rcases piecesOf_pieces text p hmem with rfl | ⟨cs, rfl, hcs⟩
  · refine iff_of_false ?_ ?_
    · rw [← hchars]
      simp [Piece.chars]
    · rintro ⟨ps', cs, hword⟩
      rw [hlast] at hword
      cases (List.append_inj' hword rfl).2
  · refine iff_of_true ?_ ⟨ps, cs, hlast⟩
    obtain ⟨cs', c, hcs'⟩ := cs.eq_nil_or_concat.resolve_left (piecesOf_ne cs hmem)
    rw [List.concat_eq_append] at hcs'
    rw [← hchars, hcs']
    simp only [List.flatMap_cons, Piece.chars, List.flatMap_nil, List.append_nil, ← List.append_assoc,
      List.getLast?_append, List.getLast?_singleton, Option.some_or, ne_eq, Option.some.injEq]
    rintro rfl
    exact hcs (by simp [hcs'])

/-! ## Overflows -/

/-- from a place in a row nothing overflows if the end has a number -/
theorem fits_of_index {w : ℕ} {pos : ℕ × ℕ} {ps : List (Piece Char)} (hw : 0 < w) (h : pos.2 < w)
    (hcell : index w (finish w pos ps) < 2 ^ 64) : Fits w pos ps := by
  induction ps generalizing pos with
  | nil => trivial
  | cons p ps ih =>
    have hlt := next_lt hw pos p
    have hnext : index w (next w pos p) < 2 ^ 64 := (index_le_finish hw hlt ps).trans_lt hcell
    have hrow : (next w pos p).1 ≤ index w (next w pos p) :=
      (Nat.le_mul_of_pos_left _ hw).trans (Nat.le_add_right _ _)
    cases p with
    | word cs =>
      refine ⟨?_, hrow.trans_lt hnext, ?_, ih hlt hcell⟩
      · rw [index_next] at hnext
        have hput : pos.2 ≤ index w (put w pos cs.length) := by
          rw [put]
          split_ifs
          · exact Nat.le_add_left _ _
          · simp only [index, Nat.mul_add, Nat.mul_one]
            omega
        omega
      · rwa [index_next] at hnext
    | newline c => exact ⟨hrow.trans_lt hnext, ih hlt hcell⟩

namespace CharBuff

variable {b b' : CharBuff} {elementId : ℕ} {bg fg : Color} {start ret : Coord} {text : List Char}

/-- what is returned is the number of a cell, or the start of a text without words -/
theorem printParts_ret {parts : List PrintPartType} {row idx : UInt64} {ret₀ : Coord}
    (h : printParts elementId bg fg parts row idx ret₀ b = some (ret, b')) :
    (∀ part ∈ parts, part = .newline) ∧ ret = ret₀ ∨ index b.numCols.toNat (natPos ret) < 2 ^ 64 := by
  induction parts generalizing row idx ret₀ b with
  | nil =>
    cases h
    exact Or.inl ⟨List.forall_mem_nil _, rfl⟩
  | cons part parts ih =>
    cases part with
    | newline =>
      rcases ih h with ⟨hall, hret⟩ | hcell
      · exact Or.inl ⟨List.forall_mem_cons.2 ⟨rfl, hall⟩, hret⟩
      · exact Or.inr hcell
    | word cs len =>
      rw [printParts_word] at h
      obtain ⟨⟨ret₁, b₁⟩, hprint, hrest⟩ := Option.bind_eq_some_iff.1 h
      rw [← printAt_numCols hprint]
      rcases ih hrest with ⟨-, rfl⟩ | hcell
      · right
        rw [printAt_ret hprint, printAt_numCols hprint, index, Nat.div_add_mod]
        exact Nat.mod_lt _ (by decide)
      · exact Or.inr hcell

/-- line breaks alone end below the start -/
theorem finish_newlines {w : ℕ} {pos : ℕ × ℕ} {ps : List (Piece Char)} (h : ∀ p ∈ ps, partOf p = .newline)
    (hne : ps ≠ []) : pos.1 < (finish w pos ps).1 := by
  induction ps generalizing pos with
  | nil => exact absurd rfl hne
  | cons p ps ih =>
    obtain ⟨hp, hps⟩ := List.forall_mem_cons.1 h
    cases p with
    | word cs => cases hp
    | newline c =>
      by_cases hnil : ps = []
      · subst hnil
        exact Nat.lt_succ_self _
      · have hrest := @ih (next w pos (.newline c)) hps hnil
        exact (Nat.lt_succ_self _).trans hrest

/-- an end that is returned has a number -/
theorem index_of_ret (h : printParts elementId bg fg ((piecesOf text).map partOf) start.1 start.2 start b =
      some (ret, b')) (hne : text ≠ []) (hend : natPos ret = endOfText b.numCols.toNat (natPos start) text) :
    index b.numCols.toNat (endOfText b.numCols.toNat (natPos start) text) < 2 ^ 64 := by
  rw [← hend]
  rcases printParts_ret h with ⟨hall, rfl⟩ | hcell
  · have hbelow := @finish_newlines b.numCols.toNat (natPos ret) (piecesOf text)
      (fun p hp => hall _ (List.mem_map_of_mem hp)) (piecesOf_eq_nil.not.2 hne)
    rw [← endOfText, ← hend] at hbelow
    exact absurd hbelow (lt_irrefl _)
  · exact hcell

/-- a word whose column overflows: it counts as one that fits, and ends in the row at most -/
theorem printParts_overflow (hcols : b.numCols ≠ 0) {row idx : UInt64} {cs : List Char} (hlen : cs.length < 2 ^ 64)
    (hover : Overflows b.numCols.toNat idx.toNat cs.length) (hrow : row.toNat + cs.length / b.numCols.toNat < 2 ^ 64)
    (parts : List PrintPartType) (ret : Coord) :
    ∃ pos ret₁ b₁, natPos pos = (row.toNat + cs.length / b.numCols.toNat, idx.toNat + cs.length - 2 ^ 64) ∧
      (natPos ret₁).1 ≤ row.toNat ∧ b₁.numCols = b.numCols ∧
      printParts elementId bg fg (partOf (.word cs) :: parts) row idx ret b =
        printParts elementId bg fg parts pos.1 pos.2 ret₁ b₁ := by
  obtain ⟨hge, hlt⟩ := hover
  have hw : 0 < b.numCols.toNat := toNat_pos hcols
  have hidx := idx.toNat_lt
  have hlen' : (UInt64.ofNat cs.length).toNat = cs.length := UInt64.toNat_ofNat_of_lt' hlen
  have hsum : (idx + UInt64.ofNat cs.length).toNat = idx.toNat + cs.length - 2 ^ 64 := by
    rw [UInt64.toNat_add, hlen']
    omega
  have hfit : idx + UInt64.ofNat cs.length < b.numCols := by
    rw [UInt64.lt_iff_toNat_lt, hsum]
    exact hlt
  have hput : putOf b.numCols row idx (UInt64.ofNat cs.length) = (row, idx) := if_pos hfit
  have hnext : natPos (nextOf b.numCols row idx (UInt64.ofNat cs.length)) =
      (row.toNat + cs.length / b.numCols.toNat, idx.toNat + cs.length - 2 ^ 64) := by
    have hrows := div_row row (UInt64.ofNat cs.length) b.numCols (by rw [hlen']; exact hrow)
    rw [hlen'] at hrows
    rw [nextOf, if_pos hfit, natPos, hrows, hsum]
  obtain ⟨⟨ret₁, b₁⟩, hprint⟩ : ∃ r, b.printAt elementId (row, idx) bg fg cs = some r := by
    rw [printAt, if_neg hcols]
    exact ⟨_, rfl⟩
  refine ⟨nextOf b.numCols row idx (UInt64.ofNat cs.length), ret₁, b₁, hnext, ?_, printAt_numCols hprint, ?_⟩
  · -- the number of the cell, modulo 2^64, is at most that of the overflown column in the row
    have hmod : ((b.numCols * row + idx).toNat + cs.length) % 2 ^ 64 =
        (b.numCols.toNat * row.toNat + (idx.toNat + cs.length - 2 ^ 64)) % 2 ^ 64 := by
      rw [UInt64.toNat_add, UInt64.toNat_mul]
      omega
    have hle := Nat.mod_le (b.numCols.toNat * row.toNat + (idx.toNat + cs.length - 2 ^ 64)) (2 ^ 64)
    rw [printAt_ret hprint, hmod]
    refine (Nat.div_le_div_right hle).trans_eq ?_
    rw [Nat.mul_add_div hw, Nat.div_eq_of_lt hlt, Nat.add_zero]
  · rw [partOf, printParts_word, hput, hprint, Option.bind_some]

theorem ret_of_fits (hcols : b.numCols ≠ 0) {ps : List (Piece Char)} {pos ret₀ : Coord}
    (hfit : Fits b.numCols.toNat (natPos pos) ps)
    (h : printParts elementId bg fg (ps.map partOf) pos.1 pos.2 ret₀ b = some (ret, b')) :
    natPos ret = lastEnd b.numCols.toNat (natPos pos) (natPos ret₀) ps := by
  obtain ⟨ret', b'', hparts, hend, -⟩ := @printParts_written b elementId bg fg hcols pos.1 pos.2 ret₀ ps hfit
  rw [hparts] at h
  cases h
  exact hend

theorem next_cell {w : ℕ} (hw : 0 < w) {pos : ℕ × ℕ} {p : Piece Char} {ps : List (Piece Char)}
    (hcell : index w (finish w pos (p :: ps)) < 2 ^ 64) :
    index w (next w pos p) < 2 ^ 64 ∧ (next w pos p).1 < 2 ^ 64 ∧ Fits w (next w pos p) ps := by
  have hlt := next_lt hw pos p
  have hnext : index w (next w pos p) < 2 ^ 64 := (index_le_finish hw hlt ps).trans_lt hcell
  have hrow : (next w pos p).1 ≤ index w (next w pos p) := (Nat.le_mul_of_pos_left _ hw).trans (Nat.le_add_right _ _)
  exact ⟨hnext, hrow.trans_lt hnext, fits_of_index hw hlt hcell⟩

/-- without an overflow the end of the last word is returned -/
theorem ret_of_no_overflow (hcols : b.numCols ≠ 0) {ps : List (Piece Char)}
    (hcell : index b.numCols.toNat (finish b.numCols.toNat (natPos start) ps) < 2 ^ 64)
    (hno : ∀ cs rest, ps = .word cs :: rest → ¬ Overflows b.numCols.toNat start.2.toNat cs.length)
    (h : printParts elementId bg fg (ps.map partOf) start.1 start.2 start b = some (ret, b')) :
    natPos ret = lastEnd b.numCols.toNat (natPos start) (natPos start) ps := by
  have hw : 0 < b.numCols.toNat := toNat_pos hcols
  cases ps with
  | nil =>
    cases h
    rfl
  | cons p ps =>
    obtain ⟨hnext, hrow, hfit⟩ := next_cell hw hcell
    cases p with
    | newline c => exact ret_of_fits hcols ⟨hrow, hfit⟩ h
    | word cs =>
      rw [index_next] at hnext
      have hlen : cs.length < 2 ^ 64 := (Nat.le_add_left _ _).trans_lt hnext
      have hsame : start.2 + UInt64.ofNat cs.length < b.numCols ↔
          start.2.toNat + cs.length < b.numCols.toNat := by
        have hno' := hno cs ps rfl
        have hcol := start.2.toNat_lt
        have hcols' := b.numCols.toNat_lt
        rw [UInt64.lt_iff_toNat_lt, UInt64.toNat_add, UInt64.toNat_ofNat_of_lt' hlen]
        simp only [Overflows, not_and, not_lt] at hno'
        omega
      obtain ⟨pos, b₁, hpos, hcols₁, -, hparts⟩ :=
        @printParts_word_written b elementId bg fg hcols start.1 start.2 cs hlen hsame hrow hnext (ps.map partOf) start
      change natPos pos = next b.numCols.toNat (natPos start) (.word cs) at hpos
      rw [List.map_cons, hparts] at h
      rw [← hpos, ← hcols₁] at hfit
      rw [lastEnd, ← hpos, ← hcols₁]
      exact ret_of_fits (by rw [hcols₁]; exact hcols) hfit h

/-- with an overflow it is the end of the last word of a layout that is behind -/
theorem ret_of_overflow (hcols : b.numCols ≠ 0) {cs : List Char} {ps : List (Piece Char)} {behind : ℕ × ℕ}
    (hcell : index b.numCols.toNat (finish b.numCols.toNat (natPos start) (.word cs :: ps)) < 2 ^ 64)
    (hover : Overflows b.numCols.toNat start.2.toNat cs.length)
    (hbehind : behind = (start.1.toNat + cs.length / b.numCols.toNat, start.2.toNat + cs.length - 2 ^ 64))
    (h : printParts elementId bg fg ((Piece.word cs :: ps).map partOf) start.1 start.2 start b = some (ret, b')) :
    behind.1 < (finish b.numCols.toNat (natPos start) (.word cs :: ps)).1 ∧
      (finish b.numCols.toNat behind ps).1 ≤ (finish b.numCols.toNat (natPos start) (.word cs :: ps)).1 ∧
      ∃ ret₁, ret₁.1 ≤ start.1.toNat ∧ natPos ret = lastEnd b.numCols.toNat behind ret₁ ps := by
  have hw : 0 < b.numCols.toNat := toNat_pos hcols
  obtain ⟨hnext, hrow, -⟩ := next_cell hw hcell
  rw [index_next] at hnext
  have hlen : cs.length < 2 ^ 64 := (Nat.le_add_left _ _).trans_lt hnext
  have hwrap : (next b.numCols.toNat (natPos start) (.word cs)).1 = behind.1 + 1 := by
    have hcols' := b.numCols.toNat_lt
    have hge := hover.1
    rw [next, if_neg (by simp only [natPos]; omega), hbehind]
    simp only [natPos]
    omega
  have hcol : behind.2 < b.numCols.toNat := by
    rw [hbehind]
    exact hover.2
  have hlt : (next b.numCols.toNat (natPos start) (.word cs)).2 < b.numCols.toNat := next_lt hw _ _
  have hle : index b.numCols.toNat behind ≤ index b.numCols.toNat (next b.numCols.toNat (natPos start) (.word cs)) :=
    (index_le_iff hcol hlt).2 (Or.inl (by omega))
  have hmono := finish_mono hw hcol hlt hle ps
  have hfit := fits_of_index hw hcol (hmono.trans_lt hcell)
  refine ⟨?_, ?_, ?_⟩
  · have hrows := @row_le_finish _ b.numCols.toNat (next b.numCols.toNat (natPos start) (.word cs)) ps
    rw [hwrap] at hrows
    exact hrows
  · rcases (index_le_iff (finish_lt hw hcol ps) (finish_lt hw hlt ps)).1 hmono with hless | ⟨heq, -⟩
    · exact hless.le
    · exact heq.le
  · have hrow' : behind.1 < 2 ^ 64 := by omega
    rw [hbehind] at hrow'
    obtain ⟨pos, ret₁, b₁, hpos, hret₁, hcols₁, hparts⟩ :=
      @printParts_overflow b elementId bg fg hcols start.1 start.2 cs hlen hover hrow' (ps.map partOf) start
    rw [← hbehind] at hpos
    rw [List.map_cons, hparts] at h
    rw [← hpos, ← hcols₁] at hfit
    refine ⟨natPos ret₁, hret₁, ?_⟩
    rw [← hpos, ← hcols₁]
    exact ret_of_fits (by rw [hcols₁]; exact hcols) hfit h

/-- so the end is returned only if the layout that is behind ends there too, with a word -/
theorem ret_eq_finish_of_overflow (hcols : b.numCols ≠ 0) {cs : List Char} {ps : List (Piece Char)} {behind : ℕ × ℕ}
    (hcell : index b.numCols.toNat (finish b.numCols.toNat (natPos start) (.word cs :: ps)) < 2 ^ 64)
    (hover : Overflows b.numCols.toNat start.2.toNat cs.length)
    (hbehind : behind = (start.1.toNat + cs.length / b.numCols.toNat, start.2.toNat + cs.length - 2 ^ 64))
    (h : printParts elementId bg fg ((Piece.word cs :: ps).map partOf) start.1 start.2 start b = some (ret, b')) :
    natPos ret = finish b.numCols.toNat (natPos start) (.word cs :: ps) ↔ EndsInWord (.word cs :: ps) ∧
      finish b.numCols.toNat behind ps = finish b.numCols.toNat (natPos start) (.word cs :: ps) := by
  obtain ⟨hbelow, hle, ret₁, hret₁, hend⟩ := ret_of_overflow hcols hcell hover hbehind h
  have hret : ret₁.1 ≤ behind.1 := by
    rw [hbehind]
    exact hret₁.trans (Nat.le_add_right _ _)
  rw [hend]
  by_cases hnil : ps = []
  · -- the word is the last one: its end is in the row of the start
    subst hnil
    have hne : ∀ pos : ℕ × ℕ, pos.1 ≤ behind.1 → pos ≠ finish b.numCols.toNat (natPos start) [.word cs] := by
      intro pos hpos heq
      rw [← heq] at hbelow
      omega
    exact iff_of_false (hne ret₁ hret) fun hright => hne behind (le_refl _) hright.2
  · rw [endsInWord_cons hnil]
    by_cases hword : EndsInWord ps
    · rw [lastEnd_word behind ret₁ hword]
      exact ⟨fun heq => ⟨hword, heq⟩, fun hright => hright.2⟩
    · refine iff_of_false (fun heq => ?_) fun hright => hword hright.1
      have hlt := (lastEnd_lt hret hnil hword).trans_le hle
      rw [heq] at hlt
      exact absurd hlt (lt_irrefl _)

/-- **When `print` returns the end of the text** -/
theorem ret_eq_end_iff (hcols : b.numCols ≠ 0) (h : printParts elementId bg fg ((piecesOf text).map partOf) start.1
      start.2 start b = some (ret, b')) :
    natPos ret = endOfText b.numCols.toNat (natPos start) text ↔ RightRet b.numCols.toNat (natPos start) text := by
  by_cases hne : text = []
  · subst hne
    cases h
    exact iff_of_true rfl ⟨by simp, fun hne => absurd rfl hne, nofun⟩
  by_cases hcell : index b.numCols.toNat (endOfText b.numCols.toNat (natPos start) text) < 2 ^ 64
  · have hright : RightRet b.numCols.toNat (natPos start) text ↔ EndsInWord (piecesOf text) ∧
        ∀ cs rest, piecesOf text = .word cs :: rest → Overflows b.numCols.toNat start.2.toNat cs.length →
          finish b.numCols.toNat (start.1.toNat + cs.length / b.numCols.toNat,
            start.2.toNat + cs.length - 2 ^ 64) rest = endOfText b.numCols.toNat (natPos start) text := by
      rw [← getLast?_piecesOf hne]
      exact ⟨fun hright => ⟨hright.word, hright.column⟩, fun hright => ⟨hright.1, fun _ => hcell, hright.2⟩⟩
    rw [hright]
    by_cases hover : ∃ cs rest, piecesOf text = .word cs :: rest ∧ Overflows b.numCols.toNat start.2.toNat cs.length
    · obtain ⟨cs, rest, hpieces, hover⟩ := hover
      rw [endOfText, hpieces] at hcell ⊢
      rw [hpieces] at h
      have hcolumn : (∀ cs' rest', Piece.word cs :: rest = .word cs' :: rest' →
          Overflows b.numCols.toNat start.2.toNat cs'.length →
          finish b.numCols.toNat (start.1.toNat + cs'.length / b.numCols.toNat,
            start.2.toNat + cs'.length - 2 ^ 64) rest' = finish b.numCols.toNat (natPos start) (.word cs :: rest)) ↔
          finish b.numCols.toNat (start.1.toNat + cs.length / b.numCols.toNat,
            start.2.toNat + cs.length - 2 ^ 64) rest = finish b.numCols.toNat (natPos start) (.word cs :: rest) := by
        constructor
        · exact fun hall => hall cs rest rfl hover
        · intro heq cs' rest' hsame
          cases hsame
          exact fun _ => heq
      rw [hcolumn]
      exact ret_eq_finish_of_overflow hcols hcell hover rfl h
    · have hno : ∀ cs rest, piecesOf text = .word cs :: rest → ¬ Overflows b.numCols.toNat start.2.toNat cs.length :=
        fun cs rest hpieces hover' => hover ⟨cs, rest, hpieces, hover'⟩
      rw [ret_of_no_overflow hcols hcell hno h, endOfText,
        lastEnd_eq_finish_iff (le_refl _) (piecesOf_eq_nil.not.2 hne)]
      exact ⟨fun hword => ⟨hword, fun cs rest hpieces hover' => absurd hover' (hno cs rest hpieces)⟩,
        fun hright => hright.1⟩
  · exact iff_of_false (fun hend => hcell (index_of_ret h hne hend)) fun hright => hcell (hright.cell hne)

end CharBuff

/-! ## The next text -/

/-- what is returned when all is right, by `print` and by `println` -/
theorem RightEnd.inner_print {b : CharBuff} {start : Coord} {text : List Char}
    (h : RightEnd b.numCols.toNat (natPos start) text) (hcols : b.numCols ≠ 0) (elementId : ℕ) (bg fg : Color)
    (newline : Bool) :
    ∃ ret b', b.innerPrint elementId start bg fg text newline = some (ret, b') ∧
      natPos ret = if newline then ((endOfText b.numCols.toNat (natPos start) text).1 + 1, 0)
        else endOfText b.numCols.toNat (natPos start) text := by
  obtain ⟨ret, b', hparts⟩ := CharBuff.exists_printParts hcols elementId bg fg ((piecesOf text).map partOf) start.1
    start.2 start
  have hend := (CharBuff.ret_eq_end_iff hcols hparts).2 h.toRightRet
  refine ⟨_, b', CharBuff.innerPrint_of_parts hparts newline, ?_⟩
  cases newline with
  | false => exact hend
  | true =>
    have hbelow := h.below
    rw [← hend] at hbelow ⊢
    exact Prod.ext (toNat_add_one hbelow) rfl

theorem RightEnd.paint {start cursor : Coord} {f : PrintText} {v : Viewport}
    (h : RightEnd v.buff.numCols.toNat (natPos start) f.text) (hcols : v.buff.numCols ≠ 0)
    (hstart : f.cursor.getD cursor = start) :
    ∃ stop v', f.paint cursor v = some (stop, v') ∧
      natPos stop = if f.newline then ((endOfText v.buff.numCols.toNat (natPos start) f.text).1 + 1, 0)
        else endOfText v.buff.numCols.toNat (natPos start) f.text := by
  obtain ⟨stop, b', hprint, hend⟩ := h.inner_print hcols f.elementId f.bgColor f.fgColor f.newline
  have hpaint : f.paint cursor v =
      v.printWith f.elementId start fun b => b.innerPrint f.elementId start f.bgColor f.fgColor f.text f.newline := by
    rw [PrintText.paint, hstart]
    cases f.newline <;> rfl
  refine ⟨stop, { v.updateElementCoord f.elementId start with buff := b' }, ?_, hend⟩
  rw [hpaint, Viewport.printWith]
  simp only [Viewport.updateElementCoord_buff, hprint, Option.map_some]

theorem Root.renderForm_of_paint {root : Root} {form : Form} {v v' : Viewport} {cursor stop : Coord}
    (hview : root.scenegraph.refViewport form.viewportId = some v)
    (hpaint : form.paint (root.isFocused form.elementId) cursor v = some (stop, v')) :
    ∃ root', root.renderForm form cursor = some (.ok stop, root') := by
  obtain ⟨i, hi, hget⟩ := Option.bind_eq_some_iff.1 hview
  rw [renderForm, withViewport, hi]
  simp only [hget, hpaint, Option.map_some, Option.bind_eq_bind, Option.bind_some]
  exact ⟨_, rfl⟩

/-- a text without a cursor is rendered like one with its cursor where the last text in the viewport ended -/
theorem Root.renderAll_at {cursors : Std.ExtTreeMap ℕ Coord} {root : Root} {g : PrintText} {stop : Coord}
    {others rest : List Form} (hstop : cursors[g.viewportId]? = some stop) (hg : g.cursor = none)
    (hothers : ∀ other ∈ others, other.viewportId ≠ g.viewportId) :
    renderAll (others ++ .print g :: rest) cursors root =
      renderAll (others ++ .print { g with cursor := some stop } :: rest) cursors root := by
  induction others generalizing cursors root with
  | nil =>
    have hpaint : g.paint stop = PrintText.paint { g with cursor := some stop } stop := by
      funext v
      simp only [PrintText.paint, hg, Option.getD_none, Option.getD_some]
    have hsame : root.renderForm (.print g) stop = root.renderForm (.print { g with cursor := some stop }) stop := by
      have hform : ∀ focused, (Form.print g).paint focused stop =
          (Form.print { g with cursor := some stop }).paint focused stop := fun _ => hpaint
      rw [renderForm, hform]
      rfl
    simp only [List.nil_append, renderAll, Form.viewportId, hstop, Option.getD_some, hsame]
  | cons other others ih =>
    obtain ⟨hother, hothers⟩ := List.forall_mem_cons.1 hothers
    simp only [List.cons_append, renderAll, Option.bind_eq_bind]
    congr 1
    funext r
    cases r.1 with
    | error e => rfl
    | ok cursor =>
      refine ih ?_ hothers
      rw [Std.ExtTreeMap.getElem?_insert, if_neg (by simpa using hother), hstop]

/-- **When the end of a text is returned, and the next text goes on there** -/
theorem print_ends_iff {numCols : UInt64} (hcols : 1 ≤ numCols) (start : Coord) (text : List Char) :
    EndsRight numCols start text ↔ RightEnd numCols.toNat (natPos start) text := by
  have hne : numCols ≠ 0 := ne_zero_of_one_le hcols
  constructor
  · intro h
    obtain ⟨ret, b₁, hprint, hend⟩ := h.print (.new numCols) 0 (.ofU32 0) (.ofU32 0) rfl
    obtain ⟨below, b₂, -, hbelow⟩ := h.println (.new numCols) 0 (.ofU32 0) (.ofU32 0) rfl
    obtain ⟨ret', b₃, hparts⟩ := @CharBuff.exists_printParts (.new numCols) hne 0 (.ofU32 0) (.ofU32 0)
      ((piecesOf text).map partOf) start.1 start.2 start
    have hret : ret' = ret := by
      have hinner := CharBuff.innerPrint_of_parts hparts false
      rw [← CharBuff.print, hprint] at hinner
      cases hinner
      rfl
    rw [hret] at hparts
    refine ⟨(CharBuff.ret_eq_end_iff hne hparts).1 hend, ?_⟩
    rw [← (Prod.mk.inj hbelow).1]
    exact below.1.toNat_lt
  · intro h
    refine ⟨?_, ?_, ?_⟩
    · rintro b elementId bg fg rfl
      exact h.inner_print hne elementId bg fg false
    · rintro b elementId bg fg rfl
      exact h.inner_print hne elementId bg fg true
    · rintro root v cursors f g others rest hview rfl rfl hstart hsame hg hothers
      obtain ⟨stop, v', hpaint, hend⟩ := h.paint hne hstart
      refine ⟨stop, hend, ?_⟩
      obtain ⟨root', hrender⟩ := @Root.renderForm_of_paint root (.print f) v v' _ stop hview hpaint
      simp only [Root.renderAll, Option.bind_eq_bind, Form.viewportId, hrender, Option.bind_some]
      refine Root.renderAll_at ?_ hg ?_
      · rw [hsame, Std.ExtTreeMap.getElem?_insert_self]
      · rw [hsame]
        exact hothers

/-- a word, a line break and a word: the second text goes on behind the last word -/
theorem print_ends_iff_twoWords : EndsRight 10 (0, 0) ['a', '\n', 'b'] :=
  (print_ends_iff (by decide) (0, 0) ['a', '\n', 'b']).2
    ⟨⟨by decide, fun _ => by decide, fun cs rest hpieces hover => by
      cases hpieces
      exact absurd hover.1 (by decide)⟩, by decide⟩

/-- **The line break at the end is not counted**: the next text goes on behind the letter, in its row -/
theorem newline_not_counted : ¬ ∀ (numCols : UInt64) (start : Coord) (text : List Char), 1 ≤ numCols →
    EndsRight numCols start text := by
  intro h
  obtain ⟨ret, b', hprint, hend⟩ := (h 10 (0, 0) ['a', '\n'] (by decide)).print (.new 10) 1 (.ofU32 0) (.ofU32 0) rfl
  have hret : (CharBuff.new 10).print 1 (0, 0) (.ofU32 0) (.ofU32 0) ['a', '\n'] =
      some ((0, 1), ⟨10, [CharBuff.cellOf 1 (.ofU32 0) (.ofU32 0) 'a']⟩) := by decide
  rw [hret] at hprint
  cases hprint
  exact absurd hend (by decide)

end Wrb.Ui
