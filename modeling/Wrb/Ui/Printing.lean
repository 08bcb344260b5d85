/-
Word-wrapped printing (`CharBuff::inner_print` in `ui/charbuff.rs`): `print` and `println`.

Layers:
- `Wrb.Lib.WordWrap`: the words of a text laid out in rows, in natural numbers;
- `splitParts_eq`, `printParts_written`: the source splits a text into these pieces, and writes them where the layout
  has them, as long as no sum overflows (`Fits`).

Results:
- `print_laidOut`: a print puts the text on the buffer as `LaidOut` says: from the start on, every character but the
  breaks in a cell of its own, the cells going up, a row for each break, and words in one row.
- `LaidOut.shown`: what such a cell shows.
-/
import Mathlib.Tactic
import Wrb.Lib.WordWrap
import Wrb.Ui.Ink

namespace Wrb.Ui

open Wrb.Overlay Wrb.WordWrap

/-- the pieces of a text as `inner_print` splits it; `cur` is the word read so far -/
def piecesFrom (text cur : List Char) : List (Piece Char) := split isWhitespace (fun c => decide (c = '\n')) text cur

def piecesOf (text : List Char) : List (Piece Char) := piecesFrom text []

/-- a piece as the source has it, with its length as a `u64` -/
def partOf : Piece Char → PrintPartType
  | .word cs => .word cs (UInt64.ofNat cs.length)
  | .newline _ => .newline

/-- a position in natural numbers -/
def natPos (pos : Coord) : ℕ × ℕ := (pos.1.toNat, pos.2.toNat)

/-- no sum of `inner_print` overflows: the column behind a word, the row below, the rows of a long word, the cell behind
the last one written -/
def Fits (w : ℕ) : (pos : ℕ × ℕ) → List (Piece Char) → Prop
  | _, [] => True
  | pos, .word cs :: ps =>
    pos.2 + cs.length < 2 ^ 64 ∧ (next w pos (.word cs)).1 < 2 ^ 64 ∧
      index w (put w pos cs.length) + cs.length < 2 ^ 64 ∧ Fits w (next w pos (.word cs)) ps
  | pos, .newline c :: ps => pos.1 + 1 < 2 ^ 64 ∧ Fits w (next w pos (.newline c)) ps

instance Fits.decidable (w : ℕ) : (pos : ℕ × ℕ) → (ps : List (Piece Char)) → Decidable (Fits w pos ps)
  | _, [] => inferInstanceAs (Decidable True)
  | pos, .word cs :: ps =>
    have := Fits.decidable w (next w pos (.word cs)) ps
    inferInstanceAs (Decidable (pos.2 + cs.length < 2 ^ 64 ∧ (next w pos (Piece.word cs)).1 < 2 ^ 64 ∧
      index w (put w pos cs.length) + cs.length < 2 ^ 64 ∧ Fits w (next w pos (.word cs)) ps))
  | pos, .newline c :: ps =>
    have := Fits.decidable w (next w pos (.newline c)) ps
    inferInstanceAs (Decidable (pos.1 + 1 < 2 ^ 64 ∧ Fits w (next w pos (.newline c)) ps))

/-- the characters of `l` are in their cells of `cells'`, and the other cells are those of `cells`, or new and blank -/
structure Written (cells cells' : List CharCell) (cell : Char → CharCell) (l : List (Char × Option ℕ)) : Prop where
  written : ∀ c p, (c, some p) ∈ l → cells'[p]? = some (cell c)
  others : ∀ p, (∀ c, (c, some p) ∉ l) → cells'[p]? = cells[p]? ∨ cells.length ≤ p ∧ cells'[p]? = some .blank

/-- **A text laid out from `start`**; `places` has a cell for each character -/
structure LaidOut (b b' : CharBuff) (start : Coord) (cell : Char → CharCell) (text : List Char)
    (places : List (Option ℕ)) : Prop where
  length : places.length = text.length
  /-- line breaks are left out -/
  omitted : ∀ i : ℕ, i < text.length → (places[i]? = some none ↔ text[i]? = some '\n')
  written : ∀ (i : ℕ) c p, text[i]? = some c → places[i]? = some (some p) → b'.cells[p]? = some (cell c)
  increasing : (places.filterMap id).Pairwise (· < ·)
  fromStart : ∀ p, some p ∈ places → b.numCols.toNat * start.1.toNat + start.2.toNat ≤ p
  /-- no other cell changes; new ones are blank -/
  others : ∀ p, some p ∉ places → b'.cells[p]? = b.cells[p]? ∨ b.cells.length ≤ p ∧ b'.cells[p]? = some .blank
  rows : Rows b.numCols.toNat start.1.toNat false (text.zip places)
  words : ∀ before word after, text = before ++ word ++ after → (∀ c ∈ word, isWhitespace c = false) →
    (∀ c ∈ before.getLast?, isWhitespace c = true) → (∀ c ∈ after.head?, isWhitespace c = true) →
    word.length ≤ b.numCols.toNat →
    ∃ row, ∀ k < word.length, ∃ p, places[before.length + k]? = some (some p) ∧ p / b.numCols.toNat = row

/-- a cell shows its character, or U+FFFD for a control character, with the colours and the element of the print -/
theorem LaidOut.shown {b b' : CharBuff} {start : Coord} {elementId : ℕ} {bg fg : Color} {text : List Char}
    {places : List (Option ℕ)} (h : LaidOut b b' start (CharBuff.cellOf elementId bg fg) text places) {i p : ℕ}
    {c : Char} (hc : text[i]? = some c) (hp : places[i]? = some (some p)) :
    b'.cells[p]? = some (.fill (if isControl c then '\uFFFD' else c) bg fg elementId) := by
  rw [h.written i c p hc hp, CharBuff.cellOf_eq]

/-! ## Pieces -/

theorem flush_map (cur : List Char) :
    (flush cur).map partOf = if cur ≠ [] then [.word cur (UInt64.ofNat cur.length)] else [] := by
  cases cur <;> rfl

/-- the source splits a text into these pieces -/
theorem splitParts_eq (text cur : List Char) : CharBuff.splitParts text cur = (piecesFrom text cur).map partOf := by
  induction text generalizing cur with
  | nil => exact (flush_map cur).symm
  | cons c text ih =>
    rw [CharBuff.splitParts, piecesFrom, split]
    by_cases hs : isWhitespace c = true
    · rw [if_pos hs, if_pos hs, List.map_append, flush_map, List.map_cons, ih]
      by_cases hc : c = '\n'
      · simp [hc, partOf, piecesFrom]
      · simp [hc, partOf, piecesFrom]
    · rw [if_neg hs, if_neg hs]
      exact ih (cur ++ [c])

/-! ## Cells -/

theorem Written.append {cells₀ cells₁ cells₂ : List CharCell} {cell : Char → CharCell} {l₁ l₂ : List (Char × Option ℕ)}
    (h₁ : Written cells₀ cells₁ cell l₁) (h₂ : Written cells₁ cells₂ cell l₂)
    (hlt : ∀ c d p q, (c, some p) ∈ l₁ → (d, some q) ∈ l₂ → p < q) : Written cells₀ cells₂ cell (l₁ ++ l₂) where
  written c p hmem := by
    rcases List.mem_append.1 hmem with hmem | hmem
    · have hcell := h₁.written c p hmem
      rcases h₂.others p fun d hd => absurd (hlt c d p p hmem hd) (lt_irrefl p) with hsame | ⟨hout, -⟩
      · rw [hsame, hcell]
      · rw [List.getElem?_eq_none hout] at hcell
        cases hcell
    · exact h₂.written c p hmem
  others p hno := by
    have hno₁ : ∀ c, (c, some p) ∉ l₁ := fun c hc => hno c (List.mem_append_left _ hc)
    have hno₂ : ∀ c, (c, some p) ∉ l₂ := fun c hc => hno c (List.mem_append_right _ hc)
    rcases h₂.others p hno₂ with hsame | ⟨hout, hblank⟩
    · rw [hsame]
      exact h₁.others p hno₁
    · refine Or.inr ⟨?_, hblank⟩
      rcases h₁.others p hno₁ with hsame | ⟨hout', -⟩
      · rw [List.getElem?_eq_none hout] at hsame
        exact List.getElem?_eq_none_iff.1 hsame.symm
      · exact hout'

theorem mem_place {i p : ℕ} {c : Char} {cs : List Char} (h : (c, some p) ∈ place i cs) :
    i ≤ p ∧ cs[p - i]? = some c := by
  obtain ⟨⟨d, q⟩, hmem, heq⟩ := List.mem_map.1 h
  cases heq
  exact ⟨List.le_snd_of_mem_zipIdx hmem, List.mk_mem_zipIdx_iff_le_and_getElem?_sub.1 hmem |>.2⟩

/-! ## Sums in `u64` -/

theorem toNat_pos {n : UInt64} (h : n ≠ 0) : 0 < n.toNat := UInt64.lt_iff_toNat_lt.1 (UInt64.pos_iff_ne_zero.2 h)

theorem ne_zero_of_one_le {n : UInt64} (h : 1 ≤ n) : n ≠ 0 :=
  UInt64.pos_iff_ne_zero.1 (UInt64.lt_iff_toNat_lt.2 (UInt64.le_iff_toNat_le.1 h))

theorem toNat_add_one {n : UInt64} (h : n.toNat + 1 < 2 ^ 64) : (n + 1).toNat = n.toNat + 1 := by
  rw [UInt64.toNat_add, UInt64.toNat_one, Nat.mod_eq_of_lt h]

/-- the row below -/
theorem next_newline {row : UInt64} (w col : ℕ) (c : Char) (h : row.toNat + 1 < 2 ^ 64) :
    next w (row.toNat, col) (.newline c) = ((row + 1).toNat, (0 : UInt64).toNat) := by
  rw [next, toNat_add_one h]
  rfl

/-- the comparison of the source, where its sum does not overflow -/
theorem fits_in_row {idx numCols : UInt64} {n : ℕ} (h : idx.toNat + n < 2 ^ 64) :
    idx + UInt64.ofNat n < numCols ↔ idx.toNat + n < numCols.toNat := by
  have hlen : n < 2 ^ 64 := (Nat.le_add_left _ _).trans_lt h
  rw [UInt64.lt_iff_toNat_lt, UInt64.toNat_add, UInt64.toNat_ofNat_of_lt' hlen, Nat.mod_eq_of_lt h]

namespace CharBuff

variable {b : CharBuff} {elementId : ℕ} {bg fg : Color}

theorem index_toNat {row idx : UInt64} (h : index b.numCols.toNat (row.toNat, idx.toNat) < 2 ^ 64) :
    (b.numCols * row + idx).toNat = index b.numCols.toNat (row.toNat, idx.toNat) := by
  simp only [index] at h ⊢
  have hmul : (b.numCols * row).toNat = b.numCols.toNat * row.toNat := by
    rw [UInt64.toNat_mul, Nat.mod_eq_of_lt (by omega)]
  rw [UInt64.toNat_add, hmul, Nat.mod_eq_of_lt (by omega)]

theorem natPos_inj {pos pos' : Coord} (h : natPos pos = natPos pos') : pos = pos' := by
  obtain ⟨hrow, hcol⟩ := Prod.mk.inj h
  exact Prod.ext (UInt64.toNat_inj.1 hrow) (UInt64.toNat_inj.1 hcol)

theorem printAt_ret {start ret : Coord} {text : List Char} {b' : CharBuff}
    (h : b.printAt elementId start bg fg text = some (ret, b')) :
    natPos ret = (((b.numCols * start.1 + start.2).toNat + text.length) % 2 ^ 64 / b.numCols.toNat,
      ((b.numCols * start.1 + start.2).toNat + text.length) % 2 ^ 64 % b.numCols.toNat) := by
  simp only [printAt, Option.ite_none_left_eq_some, Option.some.injEq, Prod.mk.injEq] at h
  rw [← h.2.1, natPos, UInt64.toNat_div, UInt64.toNat_mod, UInt64.toNat_ofNat']

/-- one word -/
theorem printAt_written (hcols : b.numCols ≠ 0) {row idx : UInt64} {cs : List Char}
    (h : index b.numCols.toNat (row.toNat, idx.toNat) < 2 ^ 64) :
    ∃ ret b', b.printAt elementId (row, idx) bg fg cs = some (ret, b') ∧ b'.numCols = b.numCols ∧
      Written b.cells b'.cells (cellOf elementId bg fg) (place (index b.numCols.toNat (row.toNat, idx.toNat)) cs) := by
  have hne := map_cellOf_ne_blank elementId bg fg cs
  rw [printAt, if_neg hcols, index_toNat h, writeText_padded]
  refine ⟨_, _, rfl, rfl, ?_, ?_⟩
  · intro c p hmem
    obtain ⟨hle, hc⟩ := mem_place hmem
    rw [getElem?_overlay_from .blank b.cells hne hle, List.getElem?_map, hc]
    rfl
  · intro p hno
    rcases Nat.lt_or_ge p (index b.numCols.toNat (row.toNat, idx.toNat)) with hlt | hge
    · rw [getElem?_overlay_before .blank b.cells _ hlt]
      rcases Nat.lt_or_ge p b.cells.length with hin | hout
      · left
        rw [List.getElem?_eq_getElem hin]
        rfl
      · right
        rw [List.getElem?_eq_none hout]
        exact ⟨hout, rfl⟩
    · left
      have hnone : cs[p - index b.numCols.toNat (row.toNat, idx.toNat)]? = none := by
        rw [← Option.not_isSome_iff_eq_none, Option.isSome_iff_exists]
        rintro ⟨c, hc⟩
        exact hno c (List.mem_map.2 ⟨(c, p), List.mk_mem_zipIdx_iff_le_and_getElem?_sub.2 ⟨hge, hc⟩, rfl⟩)
      rw [getElem?_overlay_from .blank b.cells hne hge, List.getElem?_map, hnone]
      rfl

/-- the position that the source computes for a word -/
def putOf (numCols row idx len : UInt64) : Coord := if idx + len < numCols then (row, idx) else (row + 1, 0)

/-- and for the piece behind it -/
def nextOf (numCols row idx len : UInt64) : Coord :=
  if idx + len < numCols then (if 1 ≤ len / numCols then row + len / numCols else row, idx + len)
  else (if 1 ≤ len / numCols then row + 1 + len / numCols else row + 1, len % numCols)

theorem printParts_word (parts : List PrintPartType) (row idx : UInt64) (ret : Coord) (text : List Char)
    (len : UInt64) : printParts elementId bg fg (.word text len :: parts) row idx ret b =
      (b.printAt elementId (putOf b.numCols row idx len) bg fg text).bind fun r =>
        printParts elementId bg fg parts (nextOf b.numCols row idx len).1 (nextOf b.numCols row idx len).2 r.1 r.2 := by
  rw [printParts, putOf, nextOf]
  split_ifs <;> rfl

theorem div_row (row len numCols : UInt64) (h : row.toNat + len.toNat / numCols.toNat < 2 ^ 64) :
    (if 1 ≤ len / numCols then row + len / numCols else row).toNat = row.toNat + len.toNat / numCols.toNat := by
  split_ifs with hone
  · rw [UInt64.toNat_add, UInt64.toNat_div, Nat.mod_eq_of_lt h]
  · rw [UInt64.le_iff_toNat_le, UInt64.toNat_div] at hone
    rw [Nat.lt_one_iff.1 (Nat.lt_of_not_le hone), Nat.add_zero]

/-- where the comparison of the source is that of the layout, and the row is not too far down, so are the positions -/
theorem put_next_toNat {numCols row idx : UInt64} {cs : List Char} (hlen : cs.length < 2 ^ 64)
    (hsame : idx + UInt64.ofNat cs.length < numCols ↔ idx.toNat + cs.length < numCols.toNat)
    (hrow : (next numCols.toNat (row.toNat, idx.toNat) (.word cs)).1 < 2 ^ 64) :
    natPos (putOf numCols row idx (UInt64.ofNat cs.length)) = put numCols.toNat (row.toNat, idx.toNat) cs.length ∧
      natPos (nextOf numCols row idx (UInt64.ofNat cs.length)) =
        next numCols.toNat (row.toNat, idx.toNat) (.word cs) := by
  have hlen' : (UInt64.ofNat cs.length).toNat = cs.length := UInt64.toNat_ofNat_of_lt' hlen
  unfold putOf nextOf put natPos
  simp only [next, hsame] at hrow ⊢
  by_cases hfit : idx.toNat + cs.length < numCols.toNat
  · have hsum : (idx + UInt64.ofNat cs.length).toNat = idx.toNat + cs.length := by
      rw [UInt64.toNat_add, hlen', Nat.mod_eq_of_lt (hfit.trans numCols.toNat_lt)]
    have hzero : cs.length / numCols.toNat = 0 := Nat.div_eq_of_lt (by omega)
    have hrows := div_row row (UInt64.ofNat cs.length) numCols (by rw [hlen', hzero]; exact row.toNat_lt)
    rw [hlen', hzero, Nat.add_zero] at hrows
    simp only [hsum, if_pos hfit, hrows, and_self]
  · rw [if_neg hfit] at hrow
    have hbelow : (row + 1).toNat = row.toNat + 1 := toNat_add_one (lt_of_le_of_lt (Nat.le_add_right _ _) hrow)
    have hrows := div_row (row + 1) (UInt64.ofNat cs.length) numCols (by rw [hlen', hbelow]; exact hrow)
    rw [hlen', hbelow] at hrows
    simp only [if_neg hfit, hrows, hbelow, UInt64.toNat_mod, hlen', UInt64.toNat_zero, and_self]

/-- **One word of the layout**: it is written where the layout has it, and the next piece goes where it ends -/
theorem printParts_word_written (hcols : b.numCols ≠ 0) {row idx : UInt64} {cs : List Char} (hlen : cs.length < 2 ^ 64)
    (hsame : idx + UInt64.ofNat cs.length < b.numCols ↔ idx.toNat + cs.length < b.numCols.toNat)
    (hrow : (next b.numCols.toNat (row.toNat, idx.toNat) (.word cs)).1 < 2 ^ 64)
    (hcell : index b.numCols.toNat (put b.numCols.toNat (row.toNat, idx.toNat) cs.length) + cs.length < 2 ^ 64)
    (parts : List PrintPartType) (ret : Coord) :
    ∃ pos b', natPos pos = next b.numCols.toNat (row.toNat, idx.toNat) (.word cs) ∧ b'.numCols = b.numCols ∧
      Written b.cells b'.cells (cellOf elementId bg fg)
        (place (index b.numCols.toNat (put b.numCols.toNat (row.toNat, idx.toNat) cs.length)) cs) ∧
      printParts elementId bg fg (partOf (.word cs) :: parts) row idx ret b =
        printParts elementId bg fg parts pos.1 pos.2 pos b' := by
  have hw : 0 < b.numCols.toNat := toNat_pos hcols
  obtain ⟨hput, hnext⟩ := put_next_toNat hlen hsame hrow
  rw [← hput] at hcell
  obtain ⟨ret₁, b₁, hprint, hcols₁, hwritten₁⟩ := @printAt_written b elementId bg fg hcols
    (putOf b.numCols row idx (UInt64.ofNat cs.length)).1 (putOf b.numCols row idx (UInt64.ofNat cs.length)).2 cs
    (lt_of_le_of_lt (Nat.le_add_right _ _) hcell)
  have hret : ret₁ = nextOf b.numCols row idx (UInt64.ofNat cs.length) := by
    have hlt := next_lt hw (row.toNat, idx.toNat) (.word cs)
    have hstop := @index_next _ b.numCols.toNat (row.toNat, idx.toNat) cs
    refine natPos_inj ?_
    rw [printAt_ret hprint, index_toNat (lt_of_le_of_lt (Nat.le_add_right _ _) hcell)]
    change ((index _ (natPos _) + _) % _ / _, (index _ (natPos _) + _) % _ % _) = _
    rw [Nat.mod_eq_of_lt hcell, hput, ← hstop, index_div hlt, index_mod hlt, hnext]
  refine ⟨ret₁, b₁, ?_, hcols₁, ?_, ?_⟩
  · rw [hret, hnext]
  · rw [← hput]
    exact hwritten₁
  · rw [partOf, printParts_word, hprint, Option.bind_some, hret]

/-- **The source writes what the layout says**, and ends where the last word of the layout does -/
theorem printParts_written (hcols : b.numCols ≠ 0) {row idx : UInt64} (ret : Coord) {ps : List (Piece Char)}
    (hfit : Fits b.numCols.toNat (row.toNat, idx.toNat) ps) :
    ∃ ret' b', printParts elementId bg fg (ps.map partOf) row idx ret b = some (ret', b') ∧
      natPos ret' = lastEnd b.numCols.toNat (row.toNat, idx.toNat) (natPos ret) ps ∧
      Written b.cells b'.cells (cellOf elementId bg fg) (layout b.numCols.toNat (row.toNat, idx.toNat) ps) := by
  induction ps generalizing row idx ret b with
  | nil => exact ⟨ret, b, rfl, rfl, fun _ _ hmem => absurd hmem List.not_mem_nil, fun _ _ => Or.inl rfl⟩
  | cons piece ps ih =>
    cases piece with
    | word cs =>
      obtain ⟨hidx, hrow, hcell, hrest⟩ := hfit
      have hlen : cs.length < 2 ^ 64 := lt_of_le_of_lt (Nat.le_add_left _ _) hidx
      obtain ⟨pos, b₁, hpos, hcols₁, hwritten₁, hparts₁⟩ :=
        @printParts_word_written b elementId bg fg hcols row idx cs hlen (fits_in_row hidx) hrow hcell (ps.map partOf)
          ret
      rw [← hpos, ← hcols₁] at hrest
      obtain ⟨ret', b', hparts, hend, hwritten⟩ := ih (by rw [hcols₁]; exact hcols) pos hrest
      rw [hcols₁] at hend hwritten
      refine ⟨ret', b', ?_, ?_, ?_⟩
      · rw [List.map_cons, hparts₁, hparts]
      · rw [lastEnd, ← hpos]
        exact hend
      · have hup := layout_increasing (toNat_pos hcols) (row.toNat, idx.toNat) (.word cs :: ps)
        rw [layout, ← hpos, List.filterMap_append, List.pairwise_append] at hup
        rw [layout, ← hpos]
        refine hwritten₁.append hwritten ?_
        intro c d p q hp hq
        exact hup.2.2 p (List.mem_filterMap.2 ⟨_, hp, rfl⟩) q (List.mem_filterMap.2 ⟨_, hq, rfl⟩)
    | newline c =>
      obtain ⟨hrow, hrest⟩ := hfit
      have hpos := next_newline b.numCols.toNat idx.toNat c hrow
      rw [hpos] at hrest
      obtain ⟨ret', b', hparts, hend, hwritten, hothers⟩ := ih hcols ret hrest
      refine ⟨ret', b', hparts, ?_, ?_, ?_⟩
      · rw [lastEnd, hpos, hend]
      · intro c' p hmem
        rw [layout, hpos] at hmem
        exact hwritten c' p ((List.mem_cons.1 hmem).resolve_left (by simp))
      · intro p hno
        rw [layout, hpos] at hno
        exact hothers p fun c' hc' => hno c' (List.mem_cons_of_mem _ hc')

end CharBuff

/-! ## The layout of a text -/

theorem isWhitespace_newline (c : Char) (h : decide (c = '\n') = true) : isWhitespace c = true := by
  rw [of_decide_eq_true h]
  decide

theorem piecesOf_chars (text : List Char) : (piecesOf text).flatMap Piece.chars = text := split_chars _ _ text []

/-- each character with its cell -/
theorem layout_fst_piecesOf (w : ℕ) (pos : ℕ × ℕ) (text : List Char) :
    (layout w pos (piecesOf text)).map Prod.fst = text := by
  rw [layout_fst, piecesOf_chars]

theorem getElem?_layout {w : ℕ} {pos : ℕ × ℕ} {text : List Char} {i : ℕ} {c : Char} {o : Option ℕ} :
    (layout w pos (piecesOf text))[i]? = some (c, o) ↔
      text[i]? = some c ∧ ((layout w pos (piecesOf text)).map Prod.snd)[i]? = some o := by
  have hfst := congrArg (fun l : List Char => l[i]?) (layout_fst_piecesOf w pos text)
  simp only [List.getElem?_map] at hfst ⊢
  rw [← hfst]
  cases (layout w pos (piecesOf text))[i]? with
  | none => simp
  | some e => simp [Prod.ext_iff]

/-- the line breaks, and nothing else, have no cell -/
theorem getElem?_layout_none {w : ℕ} {pos : ℕ × ℕ} {text : List Char} (i : ℕ) :
    (∃ c, (layout w pos (piecesOf text))[i]? = some (c, none)) ↔ text[i]? = some '\n' := by
  have hbreak := @layout_break Char w _ pos _
    (@split_pieces Char isWhitespace (fun c => decide (c = '\n')) text [] (List.forall_mem_nil _) isWhitespace_newline)
  constructor
  · rintro ⟨c, hentry⟩
    have hc : decide (c = '\n') = true := (hbreak _ (List.mem_of_getElem? hentry)).1 rfl
    rw [(getElem?_layout.1 hentry).1, of_decide_eq_true hc]
  · intro hc
    have hi := (List.getElem?_eq_some_iff.1 hc).1
    rw [← layout_fst_piecesOf w pos text, List.length_map] at hi
    have hentry := List.getElem?_eq_getElem hi
    have hc' := (getElem?_layout.1 hentry).1
    rw [hc, Option.some.injEq] at hc'
    have hnone := (hbreak _ (List.mem_of_getElem? hentry)).2 (decide_eq_true hc'.symm)
    exact ⟨_, hentry.trans (congrArg some (Prod.ext rfl hnone))⟩

namespace CharBuff

variable {b : CharBuff} {elementId : ℕ} {bg fg : Color}

theorem laidOut_of_written {b' : CharBuff} {start : Coord} {cell : Char → CharCell} {text : List Char}
    (hw : 0 < b.numCols.toNat) (hstart : start.2.toNat < b.numCols.toNat)
    (h : Written b.cells b'.cells cell (layout b.numCols.toNat (natPos start) (piecesOf text))) :
    LaidOut b b' start cell text ((layout b.numCols.toNat (natPos start) (piecesOf text)).map Prod.snd) := by
  have hfst := layout_fst_piecesOf b.numCols.toNat (natPos start) text
  refine ⟨?_, ?_, ?_, ?_, ?_, ?_, ?_, ?_⟩
  · conv_rhs => rw [← hfst]
    rw [List.length_map, List.length_map]
  · intro i hi
    constructor
    · intro hnone
      exact (getElem?_layout_none i).1 ⟨_, getElem?_layout.2 ⟨List.getElem?_eq_getElem hi, hnone⟩⟩
    · intro hc
      obtain ⟨c, hentry⟩ := (getElem?_layout_none i).2 hc
      exact (getElem?_layout.1 hentry).2
  · intro i c p hc hp
    exact h.written c p (List.mem_of_getElem? (getElem?_layout.2 ⟨hc, hp⟩))
  · rw [List.filterMap_map]
    exact layout_increasing hw _ _
  · intro p hp
    obtain ⟨e, he, hsnd⟩ := List.mem_map.1 hp
    exact layout_ge hw hstart _ p (List.mem_filterMap.2 ⟨e, he, hsnd⟩)
  · intro p hno
    exact h.others p fun c hc => hno (List.mem_map.2 ⟨_, hc, rfl⟩)
  · have hzip : text.zip ((layout b.numCols.toNat (natPos start) (piecesOf text)).map Prod.snd) =
        layout b.numCols.toNat (natPos start) (piecesOf text) := (List.zip_of_prod hfst rfl).symm
    rw [hzip]
    exact @layout_rows Char b.numCols.toNat (natPos start) hw hstart false nofun _ split_ne
  · intro before word after htext hword hbefore hafter hlen
    subst htext
    by_cases hne : word = []
    · exact ⟨0, fun k hk => by simp [hne] at hk⟩
    · have hsplit := @split_word Char isWhitespace (fun c => decide (c = '\n')) word before after hword hne hbefore
        hafter
      have hrow := layout_word hw (natPos start) (split isWhitespace (fun c => decide (c = '\n')) before [])
        (split isWhitespace (fun c => decide (c = '\n')) after []) hlen
      rw [← hsplit, split_chars, List.nil_append] at hrow
      exact hrow

theorem innerPrint_of_parts {ret start : Coord} {b' : CharBuff} {text : List Char}
    (h : printParts elementId bg fg ((piecesOf text).map partOf) start.1 start.2 start b = some (ret, b'))
    (newline : Bool) :
    b.innerPrint elementId start bg fg text newline = some (if newline then (ret.1 + 1, 0) else ret, b') := by
  rw [innerPrint, splitParts_eq]
  change printParts elementId bg fg ((piecesFrom text []).map partOf) start.1 start.2 start b = _ at h
  rw [h]
  rfl

/-- **A print lays the text out**, whatever starts in a row of the buffer and overflows nowhere -/
theorem print_laidOut (b : CharBuff) (elementId : ℕ) (start : Coord) (bg fg : Color) (text : List Char)
    (hcols : 1 ≤ b.numCols) (hstart : start.2 < b.numCols)
    (hfit : Fits b.numCols.toNat (natPos start) (piecesOf text)) :
    ∃ places b', (∃ ret, b.print elementId start bg fg text = some (ret, b')) ∧
      (∃ ret, b.println elementId start bg fg text = some (ret, b')) ∧
      LaidOut b b' start (cellOf elementId bg fg) text places := by
  have hw : 0 < b.numCols.toNat := UInt64.le_iff_toNat_le.1 hcols
  have hne : b.numCols ≠ 0 := ne_zero_of_one_le hcols
  obtain ⟨ret, b', hparts, -, hwritten⟩ := @printParts_written b elementId bg fg hne _ _ start _ hfit
  exact ⟨_, b', ⟨ret, innerPrint_of_parts hparts false⟩, ⟨(ret.1 + 1, 0), innerPrint_of_parts hparts true⟩,
    laidOut_of_written hw (UInt64.lt_iff_toNat_lt.1 hstart) hwritten⟩

/-- three words, of which the second does not fit and the third comes behind a break -/
theorem print_laidOut_threeWords :
    let b : CharBuff := .new 4
    let bg : Color := .ofU32 0
    let fg : Color := .ofU32 0xffffff
    ∃ places b', (∃ ret, b.print 7 (0, 1) bg fg ['a', 'b', ' ', 'c', 'd', '\n', 'e'] = some (ret, b')) ∧
      (∃ ret, b.println 7 (0, 1) bg fg ['a', 'b', ' ', 'c', 'd', '\n', 'e'] = some (ret, b')) ∧
      LaidOut b b' (0, 1) (cellOf 7 bg fg) ['a', 'b', ' ', 'c', 'd', '\n', 'e'] places :=
  print_laidOut _ 7 (0, 1) _ _ ['a', 'b', ' ', 'c', 'd', '\n', 'e'] (by decide) (by decide) (by decide)

end CharBuff

end Wrb.Ui
