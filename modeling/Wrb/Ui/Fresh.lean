/-
A text put into a gap buffer (`GapBuffer::{new, set_text}` in `ui/forms/textarea.rs`).

Both count the cells in bytes of the text. `new` puts the cursor at the number of bytes, `set_text` behind the gap.

* `Loaded`: what both are for: the text is in the buffer with the cursor at its end, and every operation runs.
* `new_loaded_iff`: `new` does that for ASCII texts and a gap of at least one cell, and for no others.
* `setText_not_loaded`: `set_text` never does.
-/
import Mathlib.Tactic
import Wrb.Ui.Moves
import Wrb.Ui.Overwrite

namespace Wrb.Ui.GapBuffer

/-- every character takes one byte -/
def IsAscii (text : List Char) : Prop := ∀ c ∈ text, c.val ≤ 127

instance (text : List Char) : Decidable (IsAscii text) := List.decidableBAll (fun c : Char => c.val ≤ 127) text

/-- the buffer holds the text with the cursor at its end, reads back as the text, and every operation runs from it -/
structure Loaded (g : GapBuffer) (text : List Char) : Prop where
  represents : g.Represents ⟨text, []⟩
  toText : g.toText = text
  len : g.len = text.length
  cursor : g.cursor = text.length
  runs : ∀ op : Op, (g.perform op).isSome

variable {g : GapBuffer} {text : List Char} {gapSize : ℕ}

/-! ## Operations that run -/

/-- the operations that only move run on every buffer that can be read -/
theorem moves_run (h : g.Readable) :
    g.left.isSome ∧ g.right.isSome ∧ g.leftWord.isSome ∧ g.rightWord.isSome ∧ g.moveToLineStart.isSome ∧
      g.moveToLineEnd.isSome ∧ (∀ col, (g.up col).isSome) ∧ ∀ col, (g.down col).isSome := by
  obtain ⟨_, hleft, -⟩ := left_at h.at
  obtain ⟨_, hright, -⟩ := right_at h.at
  obtain ⟨_, _, _, _, _, _, _, -, -, -, -, -, hleftWord, -⟩ := leftWord_at h.at
  obtain ⟨_, _, _, -, -, hrightWord, -⟩ := rightWord_at h.at
  obtain ⟨_, _, hstart, -⟩ := home_at h.at
  obtain ⟨_, _, hend, -⟩ := end_at h.at
  refine ⟨by simp [hleft], by simp [hright], by simp [hleftWord], by simp [hrightWord], by simp [hstart],
    by simp [hend], ?_, ?_⟩
  · intro col
    obtain ⟨_, hup, -⟩ := up_at h.at col
    simp [hup]
  · intro col
    obtain ⟨_, hdown, -⟩ := down_at h.at col
    simp [hdown]

theorem Represents.readable {t : Text} (h : g.Represents t) : g.Readable := by
  have hlen := h.length
  refine ⟨?_, ?_⟩
  · rw [hlen, h.cursor]
    omega
  · intro x hx
    rw [h.buffer] at hx
    simp only [List.mem_append, List.mem_map, List.mem_replicate] at hx
    rcases hx with ⟨c, -, rfl⟩ | ⟨-, rfl⟩ | ⟨c, -, rfl⟩
    · exact c.valid
    · exact valid_zero
    · exact c.valid

/-- a text set finds its first line, if the buffer has a cell -/
theorem setText_runs (hsize : 0 < g.gapSize) (text : List Char) : (g.setText text).isSome := by
  have hle := sum_utf8Size_le text
  obtain ⟨l, hl⟩ := @findLineStart_isSome
    { g with
      buffer := text.map Char.val ++ List.replicate ((text.map Char.utf8Size).sum + g.gapSize - text.length) 0
      cursor := (text.map Char.val ++
        List.replicate ((text.map Char.utf8Size).sum + g.gapSize - text.length) (0 : UInt32)).length
      gap := g.gapSize
      lineno := countLines text } (by
    simp only [List.length_append, List.length_map, List.length_replicate]
    omega)
  unfold setText
  simp only [hl, Option.bind_eq_bind, Option.bind_some]
  rfl

/-- with room in the gap, every operation runs at the end of the text -/
theorem perform_runs (h : g.Represents ⟨text, []⟩) (hgap : 0 < g.gap) (hsize : 0 < g.gapSize) (op : Op) :
    (g.perform op).isSome := by
  obtain ⟨hleft, hright, hleftWord, hrightWord, hstart, hend, hup, hdown⟩ := moves_run h.readable
  have hfits : g.Fits .backspace := by
    refine Or.inr ?_
    rw [h.length, h.cursor]
    show text.length < text.length + (g.gap + 0)
    omega
  obtain ⟨g₁, hback, hrep, -⟩ := backspace_refines h hfits
  have hdelete : g.delete = some g₁ := by rw [delete_of_nil h rfl, hback]
  have hinsert : ∀ ch, (g.insert ch).isSome := by
    intro ch
    obtain ⟨_, hinsert, -⟩ := insert_of_room h hgap ch
    simp [hinsert]
  cases op with
  | insert ch => simpa [perform] using hinsert ch
  | backspace => simp [perform, hback]
  | delete => simp [perform, hdelete]
  | replace ch =>
    have hgap₁ : 0 < g₁.gap := by
      by_cases hzero : g.cursor = 0
      · rw [backspace, if_pos hzero] at hback
        cases hback
        exact hgap
      · rw [gap_of_backspace hzero hback]
        exact Nat.succ_pos _
    obtain ⟨g₂, hinsert₂, hrep₂, -⟩ := insert_of_room hrep hgap₁ ch
    obtain ⟨_, _, _, -, hleft₂, -⟩ := left_refines hrep₂
    have hreplace : (g.replace ch).isSome := by
      unfold replace
      simp only [hdelete, hinsert₂, hleft₂, Option.bind_eq_bind, Option.bind_some]
      rfl
    simpa [perform] using hreplace
  | overwrite ch =>
    have hat : g.cursor + g.gap = g.buffer.length := by rw [h.length, h.cursor]; rfl
    have hover : g.overwrite ch = g.insert ch := if_pos hat
    simpa [perform, hover] using hinsert ch
  | left => simpa [perform] using hleft
  | right => simpa [perform] using hright
  | leftWord => simpa [perform] using hleftWord
  | rightWord => simpa [perform] using hrightWord
  | lineStart => simpa [perform] using hstart
  | lineEnd => simpa [perform] using hend
  | up col => simpa [perform] using hup col
  | down col => simpa [perform] using hdown col
  | setText text => simpa [perform] using setText_runs hsize text

/-! ## A new buffer -/

theorem sum_utf8Size_eq_iff (text : List Char) : (text.map Char.utf8Size).sum = text.length ↔ IsAscii text := by
  induction text with
  | nil => simp [IsAscii]
  | cons c text ih =>
    have hpos := c.utf8Size_pos
    have hle := sum_utf8Size_le text
    have hone : IsAscii (c :: text) ↔ c.utf8Size = 1 ∧ (text.map Char.utf8Size).sum = text.length := by
      rw [ih, Char.utf8Size_eq_one_iff]
      simp [IsAscii]
    rw [hone, List.map_cons, List.sum_cons, List.length_cons]
    omega

theorem of_new (h : new text gapSize = some g) :
    g.cursor = (text.map Char.utf8Size).sum ∧ g.gap = gapSize ∧ g.gapSize = gapSize ∧
      g.buffer = text.map Char.val ++ List.replicate ((text.map Char.utf8Size).sum + gapSize - text.length) 0 := by
  obtain ⟨l, -, heq⟩ := Option.bind_eq_some_iff.1 h
  cases heq
  exact ⟨rfl, rfl, rfl, rfl⟩

/-- **A new buffer is right for ASCII texts, with a gap of at least one cell.** -/
theorem new_loaded_iff (text : List Char) (gapSize : ℕ) :
    (∃ g, new text gapSize = some g ∧ g.Loaded text) ↔ IsAscii text ∧ 1 ≤ gapSize := by
  rw [← sum_utf8Size_eq_iff]
  apply Iff.intro
  · rintro ⟨g, hnew, hloaded⟩
    obtain ⟨hcursor, hgap, hsize, -⟩ := of_new hnew
    refine ⟨by rw [← hcursor, hloaded.cursor], ?_⟩
    by_contra hzero
    have hinsert := hloaded.runs (.insert 'a')
    rw [perform, insert_none hloaded.represents rfl (by omega) (by omega)] at hinsert
    cases hinsert
  · rintro ⟨hbytes, hpos⟩
    obtain ⟨l, hl⟩ := @findLineStart_isSome
      { buffer := text.map Char.val ++ List.replicate ((text.map Char.utf8Size).sum + gapSize - text.length) 0
        cursor := (text.map Char.utf8Size).sum
        gap := gapSize
        gapSize := gapSize
        lineno := countLines text
        lineStart := 0 } (by
      simp only [List.length_append, List.length_map, List.length_replicate]
      omega)
    obtain ⟨g, hnew⟩ : ∃ g, new text gapSize = some g := by
      unfold new
      simp only [hl, Option.bind_eq_bind, Option.bind_some]
      exact ⟨_, rfl⟩
    obtain ⟨hcursor, hgap, hsize, hbuffer⟩ := of_new hnew
    have hrep : g.Represents ⟨text, []⟩ := by
      refine ⟨?_, by rw [hcursor, hbytes]⟩
      rw [hbuffer, hbytes, hgap, Nat.add_sub_cancel_left]
      simp
    refine ⟨g, hnew, hrep, ?_, ?_, hrep.cursor, perform_runs hrep (by omega) (by omega)⟩
    · rw [hrep.toText, Text.all, List.append_nil]
    · rw [hrep.len, Text.all, List.append_nil]

/-! ## A text set -/

/-- **`set_text` never leaves the text with the cursor at its end**: with a gap the cursor is behind the gap, and
without one an insertion has no cell -/
theorem setText_not_loaded (g : GapBuffer) (text : List Char) : ¬ ∃ g', g.setText text = some g' ∧ g'.Loaded text := by
  rintro ⟨g', hset, hloaded⟩
  have hle := sum_utf8Size_le text
  have hcursor := hloaded.cursor
  have hrep := hloaded.represents
  have hinsert := hloaded.runs (.insert 'a')
  obtain ⟨l, -, heq⟩ := Option.bind_eq_some_iff.1 hset
  cases heq
  simp only [List.length_append, List.length_map, List.length_replicate] at hcursor
  have hzero : g.gapSize = 0 := by omega
  rw [perform, insert_none hrep rfl hzero hzero] at hinsert
  cases hinsert

/-- **When a text put into a buffer is there**: for `new`, exactly the ASCII texts with a gap; for `set_text`, never.
The sizes are those that a `Vec` can hold -/
theorem loaded_iff (text : List Char) (gapSize : ℕ) :
    ((∃ g, new text gapSize = some g ∧ g.Loaded text) ↔ IsAscii text ∧ 1 ≤ gapSize) ∧
      ∀ g : GapBuffer, ¬ ∃ g', g.setText text = some g' ∧ g'.Loaded text :=
  ⟨new_loaded_iff text gapSize, fun g => setText_not_loaded g text⟩

/-- **An accent misplaces the cursor, a text set puts it behind the gap**: the new buffer of "é" has its cursor at 2,
and after `set_text("a")` a move to the left panics -/
theorem text_misplaced :
    (∃ g, new ['é'] 4 = some g ∧ ¬ g.Loaded ['é'] ∧ g.cursor = 2) ∧
      ∃ g g', new [] 4 = some g ∧ g.setText ['a'] = some g' ∧ ¬ g'.Loaded ['a'] ∧ g'.left = none := by
  refine ⟨⟨⟨[233, 0, 0, 0, 0, 0], 2, 4, 4, 0, 0⟩, by decide +kernel, ?_, rfl⟩,
    ⟨[0, 0, 0, 0], 0, 4, 4, 0, 0⟩, ⟨[97, 0, 0, 0, 0], 5, 4, 4, 0, 0⟩, by decide +kernel, by decide +kernel, ?_, rfl⟩
  · intro h
    exact absurd h.cursor (by decide)
  · intro h
    exact absurd h.cursor (by decide)

end Wrb.Ui.GapBuffer
