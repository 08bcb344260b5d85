/-
Gap buffers that can be read (`ui/forms/textarea.rs`): the gap lies within the buffer, and every cell is a character.

A new buffer is readable and every edit keeps it so, also an edit that reallocates in the middle of the text and moves
it to the wrong cells (`GapBuffer.realloc_shuffles`). In a readable buffer `text` is what is read back, and the moves of
the cursor are those of the text. An insertion puts its character before the cursor and keeps the length of what is
after it.

Results: `readable_new`, `left_text`, `right_text`, `backspace_text`, `insert_text`.
-/
import Mathlib.Tactic
import Wrb.Ui.GapBuffer

namespace Wrb.Ui

namespace GapBuffer

/-- the character of a cell, as `chr` reads it -/
def toChar (x : UInt32) : Char := (charFromU32 x).getD '\uFFFD'

/-- the characters before the gap and those after it -/
def text (g : GapBuffer) : Text :=
  ⟨(g.buffer.take g.cursor).map toChar, (g.buffer.drop (g.cursor + g.gap)).map toChar⟩

/-- the gap lies within the buffer, and every cell is a character -/
structure Readable (g : GapBuffer) : Prop where
  room : g.cursor + g.gap ≤ g.buffer.length
  cells : ∀ x ∈ g.buffer, x.isValidChar

theorem charFromU32_of_valid {x : UInt32} (hx : x.isValidChar) : charFromU32 x = some (toChar x) := by
  simp [toChar, charFromU32, hx]

/-! ## What is read back -/

section Reading

variable {g : GapBuffer}

theorem Readable.length_before (h : g.Readable) : g.text.before.length = g.cursor := by
  have hroom := h.room
  simp only [text, List.length_map, List.length_take]
  omega

theorem length_after (g : GapBuffer) : g.text.after.length = g.buffer.length - (g.cursor + g.gap) := by
  simp [text]

theorem Readable.after_eq_nil_iff (h : g.Readable) : g.text.after = [] ↔ g.cursor + g.gap = g.buffer.length := by
  have hroom := h.room
  rw [← List.length_eq_zero_iff, length_after]
  omega

theorem chr_text (g : GapBuffer) : g.chr = g.text.after.head? := by
  simp only [chr, text, List.head?_map, List.head?_drop]
  rfl

theorem Readable.get_text (h : g.Readable) (i : ℕ) : g.get i = g.text.all[i]? := by
  have hread : ∀ j : ℕ, g.buffer[j]?.bind charFromU32 = g.buffer[j]?.map toChar := by
    intro j
    cases hj : g.buffer[j]? with
    | none => rfl
    | some x => exact charFromU32_of_valid (h.cells x (List.mem_of_getElem? hj))
  have hbefore := h.length_before
  unfold get Text.all
  split_ifs with hi
  · rw [hread, List.getElem?_append_left (by omega)]
    simp [text, hi]
  · rw [hread, List.getElem?_append_right (by omega), hbefore]
    simp only [text, List.getElem?_map, List.getElem?_drop]
    rw [show g.cursor + g.gap + (i - g.cursor) = i + g.gap by omega]

/-- `to_string` reads the text back -/
theorem Readable.toText (h : g.Readable) : g.toText = g.text.all := by
  have hlen : g.len = g.text.all.length := by
    have hroom := h.room
    rw [Text.all, List.length_append, h.length_before, length_after, GapBuffer.len]
    omega
  rw [GapBuffer.toText, hlen, funext h.get_text]
  exact filterMap_getElem?_range g.text.all

/-- the characters before the cursor are read one by one -/
theorem Readable.get_before (h : g.Readable) {i : ℕ} (hi : i < g.cursor) : g.get i = g.text.before[i]? := by
  have hbefore := h.length_before
  rw [h.get_text, Text.all, List.getElem?_append_left (by omega)]

end Reading

/-! ## Edits -/

section Edits

variable {g g' : GapBuffer}

/-- the line count is no part of the text -/
theorem Readable.relined (h : g.Readable) (n l : ℕ) : Readable { g with lineno := n, lineStart := l } :=
  ⟨h.room, h.cells⟩

theorem crossLine_eq {b : Prop} [Decidable b] {lineno : ℕ} (h : (if b then g.crossLine lineno else some g) = some g') :
    ∃ n l, g' = { g with lineno := n, lineStart := l } := by
  split_ifs at h with hb
  · obtain ⟨l, -, hl⟩ := Option.bind_eq_some_iff.1 h
    cases hl
    exact ⟨_, _, rfl⟩
  · cases h
    exact ⟨_, _, rfl⟩

theorem setCell_eq_some {buffer buffer' : List UInt32} {i : ℕ} {v : UInt32} (h : setCell buffer i v = some buffer') :
    i < buffer.length ∧ buffer' = buffer.set i v := by
  unfold setCell at h
  split_ifs at h with hi
  cases h
  exact ⟨hi, rfl⟩

/-- an assignment of a character keeps every cell a character -/
theorem valid_set {buffer : List UInt32} (h : ∀ x ∈ buffer, x.isValidChar) (i : ℕ) {v : UInt32} (hv : v.isValidChar) :
    ∀ x ∈ buffer.set i v, x.isValidChar := by
  intro x hx
  rcases List.mem_or_eq_of_mem_set hx with hx | rfl
  · exact h x hx
  · exact hv

theorem valid_zero : (0 : UInt32).isValidChar := Or.inl (by decide)

/-- a cell and the cells after it -/
theorem drop_set_cell {buffer : List UInt32} {i : ℕ} (hi : i < buffer.length) (v : UInt32) :
    (buffer.set i v).drop i = v :: buffer.drop (i + 1) := by
  rw [List.drop_set, if_neg (by omega), Nat.sub_self, List.drop_eq_getElem_cons hi]
  rfl

/-- **Left**: the cursor moves over a character, which is the first one after it then -/
theorem left_text (h : g.Readable) :
    ∃ r g', g.left = some (r, g') ∧ g'.Readable ∧ (some r, g'.text) = g.text.edit .left ∧ g'.gapSize = g.gapSize := by
  have hroom := h.room
  by_cases hzero : g.cursor = 0
  · refine ⟨false, g, if_pos hzero, h, ?_, rfl⟩
    simp [Text.edit, text, hzero]
  · have hlt : g.cursor - 1 < g.buffer.length := by omega
    let x := g.buffer[g.cursor - 1]
    let g₁ : GapBuffer := { g with
      buffer := (g.buffer.set (g.cursor - 1) 0).set (g.cursor - 1 + g.gap) x, cursor := g.cursor - 1 }
    have hread : g₁.Readable := by
      constructor
      · simp only [g₁, List.length_set]
        omega
      · exact valid_set (valid_set h.cells _ valid_zero) _ (h.cells x (List.getElem_mem hlt))
    have hbefore : g.buffer.take g.cursor = g.buffer.take (g.cursor - 1) ++ [x] :=
      calc g.buffer.take g.cursor = g.buffer.take (g.cursor - 1 + 1) := by rw [Nat.sub_add_cancel (by omega)]
        _ = g.buffer.take (g.cursor - 1) ++ [x] := List.take_succ_eq_append_getElem hlt
    have hafter : g₁.buffer.drop (g.cursor - 1 + g.gap) = x :: g.buffer.drop (g.cursor + g.gap) := by
      rw [drop_set_cell (by rw [List.length_set]; omega), List.drop_set_of_lt (by omega),
        show g.cursor - 1 + g.gap + 1 = g.cursor + g.gap by omega]
    have htext : g₁.text = ⟨(g.buffer.take (g.cursor - 1)).map toChar, toChar x :: g.text.after⟩ := by
      simp only [text, Text.mk.injEq]
      refine ⟨?_, ?_⟩
      · simp only [g₁, List.take_set_of_le (Nat.le_add_right (g.cursor - 1) g.gap), List.take_set_of_le (le_refl _)]
      · simpa [g₁] using congrArg (List.map toChar) hafter
    obtain ⟨n, l, hl⟩ := crossLine_cases (g := g₁) (by simp only [g₁, List.length_set]; omega) (x = NEWLINE)
      (g.lineno + 1)
    refine ⟨true, _, ?_, hread.relined n l, ?_, rfl⟩
    · unfold left
      rw [if_neg hzero]
      simp only [List.getElem?_eq_getElem hlt, setCell, List.length_set, if_pos hlt,
        if_pos (show g.cursor - 1 + g.gap < g.buffer.length by omega), Option.bind_eq_bind, Option.bind_some]
      exact congrArg (Option.map (Prod.mk true)) hl
    · have hedit : g.text.edit .left = (some true, g₁.text) := by
        rw [htext]
        simp [Text.edit, text, hbefore]
      exact hedit.symm

/-- **Right**: the cursor moves over the first character after it -/
theorem right_text (h : g.Readable) :
    ∃ r g', g.right = some (r, g') ∧ g'.Readable ∧ (some r, g'.text) = g.text.edit .right ∧ g'.gapSize = g.gapSize := by
  have hroom := h.room
  by_cases hend : g.cursor + g.gap = g.buffer.length
  · refine ⟨false, g, if_pos hend, h, ?_, rfl⟩
    simp [Text.edit, h.after_eq_nil_iff.2 hend]
  · have hlt : g.cursor + g.gap < g.buffer.length := by omega
    let x := g.buffer[g.cursor + g.gap]
    let g₁ : GapBuffer := { g with
      buffer := (g.buffer.set (g.cursor + g.gap) 0).set g.cursor x, cursor := g.cursor + 1 }
    have hread : g₁.Readable := by
      constructor
      · simp only [g₁, List.length_set]
        omega
      · exact valid_set (valid_set h.cells _ valid_zero) _ (h.cells x (List.getElem_mem hlt))
    have hbefore : g₁.buffer.take (g.cursor + 1) = g.buffer.take g.cursor ++ [x] := by
      have hcell : g.cursor < g₁.buffer.length := by
        simp only [g₁, List.length_set]
        omega
      rw [List.take_succ_eq_append_getElem hcell]
      simp only [g₁, List.getElem_set_self, List.take_set_of_le (le_refl g.cursor),
        List.take_set_of_le (Nat.le_add_right g.cursor g.gap)]
    have hafter : g.text.after = toChar x :: (g.buffer.drop (g.cursor + g.gap + 1)).map toChar := by
      rw [text, List.drop_eq_getElem_cons hlt]
      rfl
    have htext : g₁.text = ⟨g.text.before ++ [toChar x], (g.buffer.drop (g.cursor + g.gap + 1)).map toChar⟩ := by
      simp only [text, Text.mk.injEq]
      refine ⟨?_, ?_⟩
      · simpa [g₁] using congrArg (List.map toChar) hbefore
      · simp only [g₁]
        rw [List.drop_set_of_lt (by omega), List.drop_set_of_lt (by omega),
          show g.cursor + 1 + g.gap = g.cursor + g.gap + 1 by omega]
    obtain ⟨n, l, hl⟩ := crossLine_cases (g := g₁) (by simp only [g₁, List.length_set]; omega) (x = NEWLINE)
      (g.lineno - 1)
    refine ⟨true, _, ?_, hread.relined n l, ?_, rfl⟩
    · unfold right
      rw [if_neg hend]
      simp only [List.getElem?_eq_getElem hlt, setCell, List.length_set, if_pos hlt,
        if_pos (show g.cursor < g.buffer.length by omega), Option.bind_eq_bind, Option.bind_some]
      exact congrArg (Option.map (Prod.mk true)) hl
    · have hedit : g.text.edit .right = (some true, g₁.text) := by
        rw [htext]
        simp [Text.edit, hafter]
      exact hedit.symm

/-- **Backspace**: the last character before the cursor goes -/
theorem backspace_text (h : g.Readable) (hg : g.backspace = some g') :
    g'.Readable ∧ g'.text = ⟨g.text.before.dropLast, g.text.after⟩ ∧ g'.gapSize = g.gapSize := by
  have hroom := h.room
  by_cases hzero : g.cursor = 0
  · have hnil : g.text.before = [] := by rw [← List.length_eq_zero_iff, h.length_before, hzero]
    unfold backspace at hg
    rw [if_pos hzero] at hg
    cases hg
    refine ⟨h, ?_, rfl⟩
    rw [hnil]
    exact congrArg (Text.mk · g.text.after) hnil
  · unfold backspace at hg
    rw [if_neg hzero] at hg
    obtain ⟨x, hx, hg⟩ := Option.bind_eq_some_iff.1 hg
    obtain ⟨buffer, hset, hg⟩ := Option.bind_eq_some_iff.1 hg
    obtain ⟨n, l, rfl⟩ := crossLine_eq hg
    obtain ⟨hlt, rfl⟩ := setCell_eq_some hset
    refine ⟨⟨?_, valid_set h.cells _ valid_zero⟩, ?_, rfl⟩
    · simp only [List.length_set]
      omega
    · simp only [text, Text.mk.injEq]
      refine ⟨?_, ?_⟩
      · rw [List.take_set_of_le (le_refl _), ← List.map_dropLast, List.dropLast_eq_take, List.take_take,
        List.length_take, show min (min g.cursor g.buffer.length - 1) g.cursor = g.cursor - 1 by omega]
      · rw [List.drop_set_of_lt (by omega), show g.cursor - 1 + (g.gap + 1) = g.cursor + g.gap by omega]

/-- the loop of `realloc` writes at and after the cursor only -/
theorem moveTail_keeps {cursor gapStart n i : ℕ} {buffer buffer' : List UInt32}
    (h : moveTail cursor gapStart n i buffer = some buffer') (hcells : ∀ x ∈ buffer, x.isValidChar) :
    buffer'.length = buffer.length ∧ buffer'.take cursor = buffer.take cursor ∧
      ∀ x ∈ buffer', x.isValidChar := by
  induction n generalizing i buffer with
  | zero =>
    cases h
    exact ⟨rfl, rfl, hcells⟩
  | succ n ih =>
    unfold moveTail at h
    split_ifs at h with hend
    · cases h
      exact ⟨rfl, rfl, hcells⟩
    · obtain ⟨x, hx, h⟩ := Option.bind_eq_some_iff.1 h
      obtain ⟨buffer₁, h₁, h⟩ := Option.bind_eq_some_iff.1 h
      obtain ⟨buffer₂, h₂, h⟩ := Option.bind_eq_some_iff.1 h
      obtain ⟨-, rfl⟩ := setCell_eq_some h₁
      obtain ⟨-, rfl⟩ := setCell_eq_some h₂
      have hvalid := valid_set (valid_set hcells (gapStart + cursor + i) (hcells x (List.mem_of_getElem? hx)))
        (cursor + i) valid_zero
      obtain ⟨hlen, htake, hvalid'⟩ := ih h hvalid
      refine ⟨by rw [hlen, List.length_set, List.length_set], ?_, hvalid'⟩
      rw [htake, List.take_set_of_le (by omega), List.take_set_of_le (by omega)]

/-- a reallocation keeps the characters before the cursor and the length of what is after it, whatever it moves there -/
theorem realloc_text (h : g.Readable) (hgap : g.gap = 0) (hg : g.realloc = some g') :
    g'.Readable ∧ g'.text.before = g.text.before ∧ g'.text.after.length = g.text.after.length ∧
      g'.gap = g.gapSize ∧ g'.gapSize = g.gapSize := by
  have hroom := h.room
  obtain ⟨buffer, hmove, heq⟩ := Option.bind_eq_some_iff.1 hg
  cases heq
  have hcells : ∀ x ∈ g.buffer ++ List.replicate g.gapSize 0, x.isValidChar := by
    intro x hx
    rcases List.mem_append.1 hx with hx | hx
    · exact h.cells x hx
    · rw [List.eq_of_mem_replicate hx]
      exact valid_zero
  obtain ⟨hlen, htake, hvalid⟩ := moveTail_keeps hmove hcells
  rw [List.length_append, List.length_replicate] at hlen
  refine ⟨⟨?_, hvalid⟩, ?_, ?_, rfl, rfl⟩
  · show g.cursor + g.gapSize ≤ buffer.length
    omega
  · show (buffer.take g.cursor).map toChar = (g.buffer.take g.cursor).map toChar
    rw [htake, List.take_append_of_le_length (by omega)]
  · rw [length_after, length_after]
    show buffer.length - (g.cursor + g.gapSize) = g.buffer.length - (g.cursor + g.gap)
    omega

theorem insert_of_gap {ch : Char} (h : g.Readable) (hgap : 0 < g.gap) (hg : g.insert ch = some g') :
    g'.Readable ∧ g'.text = ⟨g.text.before ++ [ch], g.text.after⟩ ∧ g'.gapSize = g.gapSize := by
  have hroom := h.room
  have hlt : g.cursor < g.buffer.length := by omega
  unfold insert at hg
  rw [if_neg (show ¬ g.gap = 0 by omega)] at hg
  simp only [List.getElem?_eq_getElem hlt, setCell, if_pos hlt, Option.bind_eq_bind, Option.bind_some] at hg
  by_cases hzero : g.buffer[g.cursor] = 0
  · rw [if_neg (not_not.2 hzero)] at hg
    obtain ⟨n, l, rfl⟩ := crossLine_eq hg
    refine ⟨⟨?_, valid_set h.cells _ ch.valid⟩, ?_, rfl⟩
    · simp only [List.length_set]
      omega
    · simp only [text, Text.mk.injEq]
      refine ⟨?_, ?_⟩
      · rw [List.take_succ_eq_append_getElem (by rw [List.length_set]; exact hlt), List.getElem_set_self,
          List.take_set_of_le (le_refl _)]
        simp [toChar]
      · rw [List.drop_set_of_lt (by omega), show g.cursor + 1 + (g.gap - 1) = g.cursor + g.gap by omega]
  · rw [if_pos hzero] at hg
    exact absurd hg (by simp)

/-- with the gap used up, an insertion is one into the reallocated buffer -/
theorem insert_of_full {ch : Char} (hgap : g.gap = 0) (hsize : 1 ≤ g.gapSize) (hg : g.insert ch = some g') :
    ∃ g₁, g.realloc = some g₁ ∧ g₁.insert ch = some g' := by
  cases hrealloc : g.realloc with
  | none =>
    unfold insert at hg
    rw [if_pos hgap, hrealloc] at hg
    cases hg
  | some g₁ =>
    obtain ⟨buffer, -, heq⟩ := Option.bind_eq_some_iff.1 hrealloc
    have hgap₁ : g₁.gap = g.gapSize := by
      cases heq
      rfl
    refine ⟨g₁, rfl, ?_⟩
    rw [← hg]
    unfold insert
    rw [if_pos hgap, if_neg (show ¬ g₁.gap = 0 by omega), hrealloc]

/-- **Insertion**: the character is the last one before the cursor, and as many characters are after it as before -/
theorem insert_text {ch : Char} (h : g.Readable) (hsize : 1 ≤ g.gapSize) (hg : g.insert ch = some g') :
    g'.Readable ∧ g'.text.before = g.text.before ++ [ch] ∧ g'.text.after.length = g.text.after.length ∧
      g'.gapSize = g.gapSize := by
  by_cases hgap : g.gap = 0
  · obtain ⟨g₁, h₁, hg⟩ := insert_of_full hgap hsize hg
    obtain ⟨hread, hbefore, hafter, hgap₁, hsize₁⟩ := realloc_text h hgap h₁
    obtain ⟨hread', htext, hsize'⟩ := insert_of_gap hread (by omega) hg
    rw [htext]
    exact ⟨hread', by rw [hbefore], hafter, by rw [hsize', hsize₁]⟩
  · obtain ⟨hread', htext, hsize'⟩ := insert_of_gap h (by omega) hg
    rw [htext]
    exact ⟨hread', rfl, rfl, hsize'⟩

end Edits

/-! ## The first buffer -/

theorem sum_utf8Size_le (txt : List Char) : txt.length ≤ (txt.map Char.utf8Size).sum := by
  induction txt with
  | nil => exact le_refl 0
  | cons c txt ih =>
    have hpos : 0 < c.utf8Size := c.utf8Size_pos
    rw [List.map_cons, List.sum_cons, List.length_cons]
    omega

/-- the text of a new buffer, and a zero for each byte of it beyond its characters -/
theorem readable_new {txt : List Char} {gapSize : ℕ} {g : GapBuffer} (hg : new txt gapSize = some g) :
    g.Readable ∧ g.gapSize = gapSize := by
  have hle := sum_utf8Size_le txt
  obtain ⟨l, -, heq⟩ := Option.bind_eq_some_iff.1 hg
  cases heq
  refine ⟨⟨?_, ?_⟩, rfl⟩
  · simp only [List.length_append, List.length_map, List.length_replicate]
    omega
  · intro x hx
    rcases List.mem_append.1 hx with hx | hx
    · obtain ⟨c, -, rfl⟩ := List.mem_map.1 hx
      exact c.valid
    · rw [List.eq_of_mem_replicate hx]
      exact valid_zero

end GapBuffer

end Wrb.Ui
