/-
The line of the cursor (`lineno` and `line_start` of a `GapBuffer`, `ui/forms/textarea.rs`).

`Located`: `lineno` counts the line breaks before the cursor, `line_start` is the place behind the last one. The buffer
updates both when the cursor crosses a break. It looks `line_start` up again then; to `lineno` a move left adds one and
a move right takes one away. A backspace goes by the cell at the cursor, not by the character it removes.

* `Swept`: what the moves do keep is the sum of `lineno` and the line breaks before the cursor. So a move that comes
  back to its line is right in the end.
* `perform_located`: an operation that meets `Keeps` keeps the line right. `ops_located`: so does a run of them from
  `new`.
* `left_miscounts`: one move left over a line break counts two.
-/
import Mathlib.Tactic
import Wrb.Ui.Fresh
import Wrb.Ui.Scrolling

namespace Wrb.Ui

open Wrb.Runs
open Wrb.Wrap

/-- the place behind the last line break -/
def startOf (before : List Char) : ℕ := before.length - (lastLine '\n' before).length

theorem startOf_concat {c : Char} (hc : c ≠ '\n') (before : List Char) : startOf (before ++ [c]) = startOf before := by
  rw [startOf, startOf, lastLine_concat hc, List.length_append, List.length_append]
  omega

namespace GapBuffer

/-- the line of the cursor is right -/
structure Located (g : GapBuffer) : Prop where
  lineno : g.lineno = g.text.before.count '\n'
  lineStart : g.lineStart = startOf g.text.before

/-- the start of the line is right, and with the line breaks before the cursor `lineno` makes `m` -/
structure Swept (m : ℕ) (g : GapBuffer) : Prop where
  readable : g.Readable
  lineStart : g.lineStart = startOf g.text.before
  sum : g.lineno + g.text.before.count '\n' = m

variable {g g' : GapBuffer} {m : ℕ}

theorem Located.swept (h : g.Located) (hread : g.Readable) : Swept (2 * g.text.before.count '\n') g :=
  ⟨hread, h.lineStart, by rw [h.lineno, Nat.two_mul]⟩

theorem Swept.located (h : Swept m g) (hm : m = 2 * g.text.before.count '\n') : g.Located := by
  have hsum := h.sum
  exact ⟨by omega, h.lineStart⟩

/-! ## Crossing a line break -/

theorem crossLine_start {n : ℕ} (h : g.crossLine n = some g') (hread : g'.Readable) :
    g'.lineno = n ∧ g'.lineStart = startOf g'.text.before := by
  obtain ⟨l, hfind, heq⟩ := Option.bind_eq_some_iff.1 h
  cases heq
  have hread₁ : Readable { g with lineno := n } := hread.relined n g.lineStart
  have hstart := findLineStart_eq hread₁ hfind
  refine ⟨rfl, ?_⟩
  rw [startOf, hread.length_before]
  exact hstart

theorem line_cases {b : Prop} [Decidable b] {n : ℕ} (h : (if b then g.crossLine n else some g) = some g')
    (hread : g'.Readable) : b ∧ g'.lineno = n ∧ g'.lineStart = startOf g'.text.before ∨ ¬ b ∧ g' = g := by
  split_ifs at h with hb
  · exact Or.inl ⟨hb, crossLine_start h hread⟩
  · cases h
    exact Or.inr ⟨hb, rfl⟩

/-- the cell before the cursor is the last character before it -/
theorem Readable.last_cell (h : g.Readable) {x : UInt32} {before : List Char} {c : Char}
    (hx : g.buffer[g.cursor - 1]? = some x) (hbefore : g.text.before = before ++ [c]) : x = NEWLINE ↔ c = '\n' := by
  have hlen := h.length_before
  rw [hbefore, List.length_append, List.length_singleton] at hlen
  have hcell := h.cell_newline_iff (show g.cursor - 1 < g.cursor by omega)
  rw [hx, hbefore, show g.cursor - 1 = before.length by omega, List.getElem?_concat_length] at hcell
  simpa using hcell

/-- the cell behind the gap is the first character after the cursor -/
theorem Readable.head_cell (h : g.Readable) {x : UInt32} (hx : g.buffer[g.cursor + g.gap]? = some x) :
    g.text.after.head? = some (toChar x) ∧ (x = NEWLINE ↔ toChar x = '\n') := by
  refine ⟨?_, (toChar_eq_newline (h.cells x (List.mem_of_getElem? hx))).symm⟩
  rw [← chr_text, chr, hx]
  rfl

theorem Readable.exists_last (h : g.Readable) (hzero : g.cursor ≠ 0) : ∃ before c, g.text.before = before ++ [c] := by
  have hne : g.text.before ≠ [] := by
    intro hnil
    have hlen := h.length_before
    rw [hnil] at hlen
    exact hzero hlen.symm
  exact ⟨_, _, (List.dropLast_append_getLast hne).symm⟩

/-- **A move left keeps the sum**: it adds one to `lineno` where it takes a break off the text before the cursor -/
theorem Swept.left {r : Bool} (h : Swept m g) (hleft : g.left = some (r, g')) : Swept m g' := by
  obtain ⟨r', g'', hleft', hread', hedit, -⟩ := left_text h.readable
  rw [hleft] at hleft'
  cases hleft'
  have hsum := h.sum
  unfold GapBuffer.left at hleft
  split_ifs at hleft with hzero
  · cases hleft
    exact h
  · obtain ⟨x, hx, hleft⟩ := Option.bind_eq_some_iff.1 hleft
    obtain ⟨buffer₁, -, hleft⟩ := Option.bind_eq_some_iff.1 hleft
    obtain ⟨buffer₂, -, hleft⟩ := Option.bind_eq_some_iff.1 hleft
    obtain ⟨g₁, hline, heq⟩ := Option.map_eq_some_iff.1 hleft
    cases heq
    obtain ⟨before, c, hbefore⟩ := h.readable.exists_last hzero
    have hcell := h.readable.last_cell hx hbefore
    have htext : g'.text.before = before := by
      have heq := congrArg (fun t => t.2.before) hedit
      simpa [Text.edit, hbefore] using heq
    rw [hbefore, List.count_append] at hsum
    rcases line_cases hline hread' with ⟨hbreak, hno, hstart⟩ | ⟨hbreak, rfl⟩
    · refine ⟨hread', hstart, ?_⟩
      rw [hcell.1 hbreak, List.count_singleton_self] at hsum
      rw [hno, htext]
      change g.lineno + 1 + before.count '\n' = m
      omega
    · have hc : c ≠ '\n' := mt hcell.2 hbreak
      rw [List.count_singleton, if_neg (by simpa using hc)] at hsum
      refine ⟨hread', ?_, ?_⟩
      · rw [htext, ← startOf_concat hc, ← hbefore, ← h.lineStart]
      · rw [htext]
        exact hsum

/-- **A move right keeps the sum**, where it has one to take off `lineno` for the break it crosses -/
theorem Swept.right {r : Bool} (h : Swept m g) (hcross : g.text.after.head? = some '\n' → 0 < g.lineno)
    (hright : g.right = some (r, g')) : Swept m g' := by
  obtain ⟨r', g'', hright', hread', hedit, -⟩ := right_text h.readable
  rw [hright] at hright'
  cases hright'
  have hsum := h.sum
  unfold GapBuffer.right at hright
  split_ifs at hright with hend
  · cases hright
    exact h
  · obtain ⟨x, hx, hright⟩ := Option.bind_eq_some_iff.1 hright
    obtain ⟨buffer₁, -, hright⟩ := Option.bind_eq_some_iff.1 hright
    obtain ⟨buffer₂, -, hright⟩ := Option.bind_eq_some_iff.1 hright
    obtain ⟨g₁, hline, heq⟩ := Option.map_eq_some_iff.1 hright
    cases heq
    obtain ⟨hhead, hcell⟩ := h.readable.head_cell hx
    obtain ⟨after, hafter⟩ : ∃ after, g.text.after = toChar x :: after := by
      cases hcase : g.text.after with
      | nil => rw [hcase] at hhead; cases hhead
      | cons c after =>
        rw [hcase] at hhead
        cases hhead
        exact ⟨after, rfl⟩
    have htext : g'.text.before = g.text.before ++ [toChar x] := by
      have heq := congrArg (fun t => t.2.before) hedit
      simpa [Text.edit, hafter] using heq
    rcases line_cases hline hread' with ⟨hbreak, hno, hstart⟩ | ⟨hbreak, rfl⟩
    · refine ⟨hread', hstart, ?_⟩
      have hpos := hcross (by rw [hhead, hcell.1 hbreak])
      rw [hno, htext, hcell.1 hbreak, List.count_append, List.count_singleton_self]
      change g.lineno - 1 + (g.text.before.count '\n' + 1) = m
      omega
    · have hc : toChar x ≠ '\n' := mt hcell.2 hbreak
      refine ⟨hread', ?_, ?_⟩
      · rw [htext, startOf_concat hc, ← h.lineStart]
      · rw [htext, List.count_append, List.count_singleton, if_neg (by simpa using hc)]
        exact hsum

/-! ## Edits at the cursor -/

/-- the part of `insert` after the reallocation -/
def insertCell (g : GapBuffer) (ch : Char) : Option GapBuffer := do
  let x ← g.buffer[g.cursor]?
  if x ≠ 0 then none
  let buffer ← setCell g.buffer g.cursor ch.val
  let g := { g with buffer := buffer, cursor := g.cursor + 1, gap := g.gap - 1 }
  if ch = '\n' then g.crossLine (g.lineno + 1) else some g

theorem insert_eq (g : GapBuffer) (ch : Char) :
    g.insert ch = (if g.gap = 0 then g.realloc else some g).bind fun g => g.insertCell ch := by
  unfold insert
  by_cases hgap : g.gap = 0
  · rw [if_pos hgap, if_pos hgap]
    rfl
  · rw [if_neg hgap, if_neg hgap]
    rfl

/-- the character is put into the cell at the cursor -/
theorem insertCell_cases {ch : Char} (hg : g.insertCell ch = some g') :
    g.cursor < g.buffer.length ∧
      (if ch = '\n' then
        crossLine { g with buffer := g.buffer.set g.cursor ch.val, cursor := g.cursor + 1, gap := g.gap - 1 }
          (g.lineno + 1)
      else some { g with buffer := g.buffer.set g.cursor ch.val, cursor := g.cursor + 1, gap := g.gap - 1 }) =
        some g' := by
  obtain ⟨x, -, hg⟩ := Option.bind_eq_some_iff.1 hg
  by_cases hzero : x = 0
  · rw [if_neg (not_not.2 hzero)] at hg
    obtain ⟨buffer, hset, hg⟩ := Option.bind_eq_some_iff.1 hg
    obtain ⟨hlt, rfl⟩ := setCell_eq_some hset
    exact ⟨hlt, hg⟩
  · rw [if_pos hzero] at hg
    cases hg

theorem insertCell_before {ch : Char} (h : g.Readable) (hg : g.insertCell ch = some g') :
    g'.Readable ∧ g'.text.before = g.text.before ++ [ch] := by
  have hroom := h.room
  obtain ⟨hlt, hline⟩ := insertCell_cases hg
  obtain ⟨n, l, rfl⟩ := crossLine_eq hline
  refine ⟨⟨?_, valid_set h.cells _ ch.valid⟩, ?_⟩
  · simp only [List.length_set]
    omega
  · simp only [text]
    rw [List.take_succ_eq_append_getElem (by rw [List.length_set]; exact hlt), List.getElem_set_self,
      List.take_set_of_le (le_refl _)]
    simp [toChar]

theorem line_of_realloc (h : g.realloc = some g') : g'.lineno = g.lineno ∧ g'.lineStart = g.lineStart := by
  obtain ⟨buffer, -, heq⟩ := Option.bind_eq_some_iff.1 h
  cases heq
  exact ⟨rfl, rfl⟩

theorem insertCell_located {ch : Char} (h : g.Readable) (hloc : g.Located) (hg : g.insertCell ch = some g') :
    g'.Readable ∧ g'.Located ∧ g'.text.before = g.text.before ++ [ch] := by
  obtain ⟨hread', hbefore⟩ := insertCell_before h hg
  obtain ⟨-, hline⟩ := insertCell_cases hg
  refine ⟨hread', ?_, hbefore⟩
  rcases line_cases hline hread' with ⟨hbreak, hno, hstart⟩ | ⟨hbreak, rfl⟩
  · refine ⟨?_, hstart⟩
    rw [hno, hbefore, hbreak, List.count_append, List.count_singleton_self, ← hloc.lineno]
  · refine ⟨?_, ?_⟩
    · rw [hbefore, List.count_append, List.count_singleton, if_neg (by simpa using hbreak), ← hloc.lineno]
      rfl
    · rw [hbefore, startOf_concat hbreak, ← hloc.lineStart]

/-- **An insertion keeps the line right**, also where a reallocation misplaces the text after the cursor -/
theorem insert_located {ch : Char} (h : g.Readable) (hloc : g.Located) (hg : g.insert ch = some g') :
    g'.Readable ∧ g'.Located ∧ g'.text.before = g.text.before ++ [ch] := by
  rw [insert_eq] at hg
  obtain ⟨g₀, hg₀, hg⟩ := Option.bind_eq_some_iff.1 hg
  split_ifs at hg₀ with hgap
  · obtain ⟨hread₀, hbefore₀, -⟩ := realloc_text h hgap hg₀
    obtain ⟨hno₀, hstart₀⟩ := line_of_realloc hg₀
    have hloc₀ : g₀.Located := ⟨by rw [hno₀, hbefore₀, hloc.lineno], by rw [hstart₀, hbefore₀, hloc.lineStart]⟩
    rw [← hbefore₀]
    exact insertCell_located hread₀ hloc₀ hg
  · cases hg₀
    exact insertCell_located h hloc hg

/-- the cell at the cursor says whether a backspace removes a line break, or there is none to count -/
def Erases (before : List Char) (cell : Option UInt32) : Prop :=
  '\n' ∉ before ∨ (before.getLast? = some '\n' ↔ cell = some NEWLINE)

theorem backspace_located (h : g.Readable) (hloc : g.Located) (hcell : Erases g.text.before g.buffer[g.cursor]?)
    (hg : g.backspace = some g') : g'.Readable ∧ g'.Located := by
  obtain ⟨hread', htext, -⟩ := backspace_text h hg
  refine ⟨hread', ?_⟩
  unfold backspace at hg
  split_ifs at hg with hzero
  · cases hg
    exact hloc
  · obtain ⟨x, hx, hg⟩ := Option.bind_eq_some_iff.1 hg
    obtain ⟨buffer, -, hg⟩ := Option.bind_eq_some_iff.1 hg
    obtain ⟨before, c, hbefore⟩ := h.exists_last hzero
    have hbefore' : g'.text.before = before := by rw [htext, hbefore, List.dropLast_concat]
    have hno := hloc.lineno
    rw [hbefore, List.count_append, List.count_singleton] at hno
    rw [hx, hbefore, Erases, List.getLast?_concat, Option.some.injEq, Option.some.injEq] at hcell
    rcases line_cases hg hread' with ⟨hbreak, hno', hstart⟩ | ⟨hbreak, rfl⟩
    · refine ⟨?_, hstart⟩
      rw [hno', hbefore']
      change g.lineno - 1 = before.count '\n'
      rcases hcell with hnone | hiff
      · have hzero' : before.count '\n' = 0 := List.count_eq_zero_of_not_mem fun hmem => hnone (by simp [hmem])
        have hc : c ≠ '\n' := fun hc => hnone (by simp [hc])
        rw [if_neg (by simpa using hc)] at hno
        omega
      · rw [if_pos (by simpa using hiff.2 hbreak)] at hno
        omega
    · have hc : c ≠ '\n' := by
        intro hc
        rcases hcell with hnone | hiff
        · exact hnone (by simp [hc])
        · exact hbreak (hiff.1 hc)
      rw [if_neg (by simpa using hc)] at hno
      refine ⟨by rw [hbefore']; exact hno, ?_⟩
      rw [hbefore', ← startOf_concat hc, ← hbefore, ← hloc.lineStart]

/-! ## Single moves -/

theorem text_of_left {r : Bool} (h : g.Readable) (hleft : g.left = some (r, g')) : g'.text = (g.text.edit .left).2 := by
  obtain ⟨r', g'', hleft', -, hedit, -⟩ := left_text h
  rw [hleft] at hleft'
  cases hleft'
  exact congrArg Prod.snd hedit

theorem text_of_right {r : Bool} (h : g.Readable) (hright : g.right = some (r, g')) :
    g'.text = (g.text.edit .right).2 := by
  obtain ⟨r', g'', hright', -, hedit, -⟩ := right_text h
  rw [hright] at hright'
  cases hright'
  exact congrArg Prod.snd hedit

theorem edit_left_before (t : Text) : (t.edit .left).2.before = t.before.dropLast := by
  rcases List.eq_nil_or_concat t.before with hnil | ⟨before, c, hconcat⟩
  · simp [Text.edit, hnil]
  · simp [Text.edit, hconcat]

theorem edit_right_before (t : Text) : (t.edit .right).2.before = t.before ++ t.after.head?.toList := by
  cases h : t.after with
  | nil => simp [Text.edit, h]
  | cons c after => simp [Text.edit, h]

theorem count_dropLast {before : List Char} (h : before.getLast? ≠ some '\n') :
    before.dropLast.count '\n' = before.count '\n' := by
  rcases List.eq_nil_or_concat before with rfl | ⟨before, c, rfl⟩
  · rfl
  · have hc : c ≠ '\n' := by simpa using h
    simp [hc]

theorem left_located {r : Bool} (h : g.Readable) (hloc : g.Located) (hno : g.text.before.getLast? ≠ some '\n')
    (hleft : g.left = some (r, g')) : g'.Readable ∧ g'.Located := by
  have hswept := (hloc.swept h).left hleft
  refine ⟨hswept.readable, hswept.located ?_⟩
  rw [text_of_left h hleft, edit_left_before, count_dropLast hno]

theorem right_located {r : Bool} (h : g.Readable) (hloc : g.Located) (hno : g.text.after.head? ≠ some '\n')
    (hright : g.right = some (r, g')) : g'.Readable ∧ g'.Located := by
  have hswept := (hloc.swept h).right (fun hbreak => absurd hbreak hno) hright
  refine ⟨hswept.readable, hswept.located ?_⟩
  rw [text_of_right h hright, edit_right_before, List.count_append]
  cases hhead : g.text.after.head? with
  | none => rfl
  | some c =>
    have hc : c ≠ '\n' := by simpa [hhead] using hno
    simp [hc]

/-- a move that may end with one step right, on the line it started on -/
theorem located_of_return {n : ℕ} (h : Swept (2 * n) g' ∨ ∃ g₁ r, Swept (2 * n) g₁ ∧ g₁.right = some (r, g'))
    (hcount : g'.text.before.count '\n' = n) : g'.Readable ∧ g'.Located := by
  have hswept : Swept (2 * n) g' := by
    rcases h with h | ⟨g₁, r, h, hright⟩
    · exact h
    · apply h.right _ hright
      -- the step right crosses back the break that a step left has crossed
      intro hbreak
      have hsum := h.sum
      rw [text_of_right h.readable hright, edit_right_before, hbreak, List.count_append] at hcount
      simp only [Option.toList_some, List.count_singleton_self] at hcount
      omega
  exact ⟨hswept.readable, hswept.located (by rw [hcount])⟩

/-! ## Deleting and overwriting -/

/-- the cell that `backspace` reads while a deletion is under way -/
def cellBehind (g : GapBuffer) : Option UInt32 := if g.gap = 1 then some 0 else g.buffer[g.cursor + 1]?

theorem cell_of_right {r : Bool} (h : g.Readable) (hne : g.text.after ≠ []) (hright : g.right = some (r, g')) :
    g'.buffer[g'.cursor]? = g.cellBehind := by
  have hend := mt h.after_eq_nil_iff.2 hne
  unfold right at hright
  rw [if_neg hend] at hright
  obtain ⟨x, -, hright⟩ := Option.bind_eq_some_iff.1 hright
  obtain ⟨buffer₁, h₁, hright⟩ := Option.bind_eq_some_iff.1 hright
  obtain ⟨buffer₂, h₂, hright⟩ := Option.bind_eq_some_iff.1 hright
  obtain ⟨g₁, hline, heq⟩ := Option.map_eq_some_iff.1 hright
  cases heq
  obtain ⟨n, l, rfl⟩ := crossLine_eq hline
  obtain ⟨hlt, rfl⟩ := setCell_eq_some h₁
  obtain ⟨-, rfl⟩ := setCell_eq_some h₂
  unfold cellBehind
  change ((g.buffer.set (g.cursor + g.gap) 0).set g.cursor x)[g.cursor + 1]? = _
  rw [List.getElem?_set_ne (by omega)]
  split_ifs with hgap
  · rw [hgap] at hlt ⊢
    exact List.getElem?_set_self hlt
  · exact List.getElem?_set_ne (by omega)

/-- when a deletion keeps the line right: at the end of the text it is a backspace; elsewhere the character is no break,
and `backspace` reads none -/
def DeletesInLine (g : GapBuffer) : Prop :=
  if g.text.after = [] then Erases g.text.before g.buffer[g.cursor]?
  else g.text.after.head? ≠ some '\n' ∧ ('\n' ∉ g.text.before ∨ g.cellBehind ≠ some NEWLINE)

theorem delete_located (h : g.Readable) (hloc : g.Located) (hkeeps : g.DeletesInLine) (hg : g.delete = some g') :
    g'.Readable ∧ g'.Located := by
  obtain ⟨⟨r, g₁⟩, hright, hback⟩ := Option.bind_eq_some_iff.1 hg
  unfold DeletesInLine at hkeeps
  by_cases hnil : g.text.after = []
  · rw [if_pos hnil] at hkeeps
    have hsame : g₁ = g := by
      rw [right, if_pos (h.after_eq_nil_iff.1 hnil)] at hright
      cases hright
      rfl
    rw [hsame] at hback
    exact backspace_located h hloc hkeeps hback
  · rw [if_neg hnil] at hkeeps
    obtain ⟨c, after, hafter⟩ := List.exists_cons_of_ne_nil hnil
    obtain ⟨hread₁, hloc₁⟩ := right_located h hloc hkeeps.1 hright
    have hc : c ≠ '\n' := by simpa [hafter] using hkeeps.1
    have hbefore : g₁.text.before = g.text.before ++ [c] := by
      rw [text_of_right h hright, edit_right_before, hafter]
      rfl
    apply backspace_located hread₁ hloc₁ _ hback
    rw [cell_of_right h hnil hright, hbefore]
    rcases hkeeps.2 with hnone | hcell
    · left
      simp [hnone, Ne.symm hc]
    · right
      simp [hc, hcell]

/-- a step left and back ends on the line it started on -/
theorem leave_and_return {r₁ r₂ : Bool} {g₁ : GapBuffer} {c : Char} {before : List Char} (h : g.Readable)
    (hloc : g.Located) (hbefore : g.text.before = before ++ [c]) (hleft : g.left = some (r₁, g₁))
    (hright : g₁.right = some (r₂, g')) : g'.Readable ∧ g'.Located := by
  have hswept := (hloc.swept h).left hleft
  have htext₁ : g₁.text = ⟨before, c :: g.text.after⟩ := by
    rw [text_of_left h hleft]
    simp [Text.edit, hbefore]
  apply located_of_return (Or.inr ⟨g₁, r₂, hswept, hright⟩)
  rw [text_of_right hswept.readable hright, edit_right_before, htext₁, hbefore]
  rfl

theorem replace_located {ch : Char} (h : g.Readable) (hloc : g.Located) (hkeeps : g.DeletesInLine) (hch : ch ≠ '\n')
    (hg : g.replace ch = some g') : g'.Readable ∧ g'.Located := by
  obtain ⟨g₁, hdelete, hg⟩ := Option.bind_eq_some_iff.1 hg
  obtain ⟨g₂, hinsert, hg⟩ := Option.bind_eq_some_iff.1 hg
  obtain ⟨⟨r, g₃⟩, hleft, heq⟩ := Option.bind_eq_some_iff.1 hg
  cases heq
  obtain ⟨hread₁, hloc₁⟩ := delete_located h hloc hkeeps hdelete
  obtain ⟨hread₂, hloc₂, hbefore⟩ := insert_located hread₁ hloc₁ hinsert
  exact left_located hread₂ hloc₂ (by simp [hbefore, hch]) hleft

theorem overwrite_located {ch : Char} (h : g.Readable) (hloc : g.Located)
    (hkeeps : g.text.after = [] ∨ g.DeletesInLine) (hg : g.overwrite ch = some g') : g'.Readable ∧ g'.Located := by
  unfold overwrite at hg
  split_ifs at hg with hend
  · obtain ⟨hread', hloc', -⟩ := insert_located h hloc hg
    exact ⟨hread', hloc'⟩
  · have hkeeps' := hkeeps.resolve_left (mt h.after_eq_nil_iff.1 hend)
    obtain ⟨g₃, hreplace, hg⟩ := Option.bind_eq_some_iff.1 hg
    obtain ⟨⟨r₄, g₄⟩, hright, heq⟩ := Option.bind_eq_some_iff.1 hg
    cases heq
    obtain ⟨g₁, hdelete, hreplace⟩ := Option.bind_eq_some_iff.1 hreplace
    obtain ⟨g₂, hinsert, hreplace⟩ := Option.bind_eq_some_iff.1 hreplace
    obtain ⟨⟨r₃, g₃'⟩, hleft, heq⟩ := Option.bind_eq_some_iff.1 hreplace
    cases heq
    obtain ⟨hread₁, hloc₁⟩ := delete_located h hloc hkeeps' hdelete
    obtain ⟨hread₂, hloc₂, hbefore⟩ := insert_located hread₁ hloc₁ hinsert
    exact leave_and_return hread₂ hloc₂ hbefore hleft hright

/-! ## Moves over a line -/

theorem leftWhile_swept {p : Option Char → Bool} {fuel : ℕ} (h : Swept m g) (hg : g.leftWhile p fuel = some g') :
    Swept m g' := by
  induction fuel generalizing g with
  | zero =>
    cases hg
    exact h
  | succ fuel ih =>
    unfold leftWhile at hg
    split_ifs at hg with hp
    · obtain ⟨⟨moved, g₁⟩, hleft, hg⟩ := Option.bind_eq_some_iff.1 hg
      cases moved with
      | false =>
        cases hg
        exact h.left hleft
      | true => exact ih (h.left hleft) hg
    · cases hg
      exact h

/-- a loop to the right that passes no line break -/
theorem rightWhile_located {p : Option Char → Bool} {fuel : ℕ} (h : g.Readable) (hloc : g.Located)
    (hp : p (some '\n') = false) (hg : g.rightWhile p fuel = some g') : g'.Readable ∧ g'.Located := by
  induction fuel generalizing g with
  | zero =>
    cases hg
    exact ⟨h, hloc⟩
  | succ fuel ih =>
    unfold rightWhile at hg
    split_ifs at hg with hgo
    · obtain ⟨⟨moved, g₁⟩, hright, hg⟩ := Option.bind_eq_some_iff.1 hg
      have hno : g.text.after.head? ≠ some '\n' := by
        intro hbreak
        rw [chr_text, hbreak, hp] at hgo
        cases hgo
      obtain ⟨hread₁, hloc₁⟩ := right_located h hloc hno hright
      cases moved with
      | false =>
        cases hg
        exact ⟨hread₁, hloc₁⟩
      | true => exact ih hread₁ hloc₁ hg
    · cases hg
      exact ⟨h, hloc⟩

theorem rightInLine_located {col : ℕ} (h : g.Readable) (hloc : g.Located) (hg : g.rightInLine col = some g') :
    g'.Readable ∧ g'.Located := by
  induction col generalizing g with
  | zero =>
    cases hg
    exact ⟨h, hloc⟩
  | succ col ih =>
    unfold rightInLine at hg
    split_ifs at hg with hbreak
    · cases hg
      exact ⟨h, hloc⟩
    · obtain ⟨⟨moved, g₁⟩, hright, hg⟩ := Option.bind_eq_some_iff.1 hg
      have hno : g.text.after.head? ≠ some '\n' := by
        intro hhead
        rw [chr_text, hhead] at hbreak
        exact hbreak rfl
      obtain ⟨hread₁, hloc₁⟩ := right_located h hloc hno hright
      exact ih hread₁ hloc₁ hg

theorem lineEnd_located {b : Bool} (h : g.Readable) (hloc : g.Located) (hg : g.moveToLineEnd = some (b, g')) :
    g'.Readable ∧ g'.Located := by
  obtain ⟨g₁, hloop, heq⟩ := Option.bind_eq_some_iff.1 hg
  cases heq
  exact rightWhile_located h hloc (by decide) hloop

/-- `line_start` moves left, and at most one step right at its end -/
theorem moveToLineStart_swept {b : Bool} (h : Swept m g) (hg : g.moveToLineStart = some (b, g')) :
    Swept m g' ∨ ∃ g₁ r, Swept m g₁ ∧ g₁.right = some (r, g') := by
  have hstep : ∀ {c : Prop} [Decidable c] {g : GapBuffer} {r}, Swept m g →
      (if c then g.left else some (true, g)) = some r → Swept m r.2 := by
    intro c _ g r h hr
    split_ifs at hr
    · exact h.left hr
    · cases hr
      exact h
  rw [moveToLineStart_eq] at hg
  obtain ⟨r₁, h₁, hg⟩ := Option.bind_eq_some_iff.1 hg
  have hs₁ := hstep h h₁
  by_cases hmoved₁ : r₁.1 = false
  · rw [if_pos hmoved₁] at hg
    cases hg
    exact Or.inl hs₁
  · rw [if_neg hmoved₁] at hg
    obtain ⟨r₂, h₂, hg⟩ := Option.bind_eq_some_iff.1 hg
    have hs₂ := hstep hs₁ h₂
    by_cases hmoved₂ : r₂.1 = false
    · rw [if_pos hmoved₂] at hg
      cases hg
      exact Or.inl hs₂
    · rw [if_neg hmoved₂] at hg
      obtain ⟨g₃, h₃, hg⟩ := Option.bind_eq_some_iff.1 hg
      have hs₃ := leftWhile_swept hs₂ h₃
      obtain ⟨r₄, h₄, hg⟩ := Option.bind_eq_some_iff.1 hg
      have hlast : r₄.2 = g' := by
        split_ifs at hg
        · cases hg
          rfl
        · cases hg
          rfl
      split_ifs at h₄
      · exact Or.inr ⟨g₃, r₄.1, hs₃, by rw [h₄, ← hlast]⟩
      · cases h₄
        exact Or.inl (hlast ▸ hs₃)

theorem count_take_eq {w : List Char} {a b : ℕ} (hab : a ≤ b) (h : ∀ l, a ≤ l → l < b → w[l]? ≠ some '\n') :
    (w.take a).count '\n' = (w.take b).count '\n' := by
  have hsplit : w.take b = w.take a ++ (w.take b).drop a := by
    calc w.take b = (w.take b).take a ++ (w.take b).drop a := (List.take_append_drop a _).symm
      _ = w.take a ++ (w.take b).drop a := by rw [List.take_take, Nat.min_eq_left hab]
  have hno : '\n' ∉ (w.take b).drop a := by
    intro hmem
    obtain ⟨k, hk⟩ := List.mem_iff_getElem?.1 hmem
    rw [List.getElem?_drop, List.getElem?_take] at hk
    split_ifs at hk with hlt
    exact h (a + k) (Nat.le_add_right _ _) hlt hk
  rw [hsplit, List.count_append, List.count_eq_zero_of_not_mem hno, Nat.add_zero]

theorem count_lineStartOf {w : List Char} {i : ℕ} (hi : i ≤ w.length) :
    (w.take (lineStartOf w i)).count '\n' = (w.take i).count '\n' := by
  have hlen : (w.take i).length = i := by rw [List.length_take, Nat.min_eq_left hi]
  have hdrop : (w.take i).drop (lineStartOf w i) = lastLine '\n' (w.take i) := by
    have hlast := @drop_lastLine _ _ '\n' (w.take i)
    rwa [hlen] at hlast
  apply count_take_eq (Nat.sub_le _ _)
  intro l (hl : lineStartOf w i ≤ l) hli hbreak
  have hcell : ((w.take i).drop (lineStartOf w i))[l - lineStartOf w i]? = some '\n' := by
    rw [List.getElem?_drop, Nat.add_sub_cancel' hl, List.getElem?_take, if_pos hli, hbreak]
  rw [hdrop] at hcell
  exact not_mem_lastLine _ (List.mem_of_getElem? hcell)

/-- the cursor is behind a line break that ends the text -/
def BehindLastBreak (t : Text) : Prop := t.after = [] ∧ t.before.getLast? = some '\n'

theorem lineStart_located {b : Bool} (h : g.Readable) (hloc : g.Located) (hno : ¬ BehindLastBreak g.text)
    (hg : g.moveToLineStart = some (b, g')) : g'.Readable ∧ g'.Located := by
  have hat := h.at
  obtain ⟨b', g'', hhome, hat'⟩ := home_at hat
  rw [hg] at hhome
  cases hhome
  apply located_of_return (moveToLineStart_swept (hloc.swept h) hg)
  have hbefore : g.text.before = g.text.all.take g.cursor := congrArg Text.before hat.text
  have hbefore' : g'.text.before = g.text.all.take (homeOf g.text.all g.cursor) := congrArg Text.before hat'.text
  rw [hbefore', hbefore]
  unfold homeOf
  split_ifs with hend
  · -- from the end of the text, by way of its last character
    have hnil : g.text.after = [] := by
      have hlen := h.length_before
      rw [Text.all, List.length_append] at hend
      exact List.length_eq_zero_iff.1 (by omega)
    rw [count_lineStartOf (by omega)]
    have hall : g.text.all.take g.cursor = g.text.before := by
      rw [Text.all, ← h.length_before, List.take_left]
    have hback : g.text.all.take (g.cursor - 1) = g.text.before.dropLast := by
      rw [List.dropLast_eq_take, h.length_before, ← hall, List.take_take, Nat.min_eq_left (Nat.sub_le _ _)]
    rw [hall, hback]
    exact count_dropLast fun hbreak => hno ⟨hnil, hbreak⟩
  · exact count_lineStartOf hat.le

/-! ## Words -/

/-- no line break in the white space before the cursor, nor at the cursor at the start of the text -/
def LeftWordInLine (t : Text) : Prop :=
  t.after.head?.all isWhitespace = false ∨
    '\n' ∉ t.before.reverse.takeWhile isWhitespace ∧ ¬ (t.before = [] ∧ t.after.head? = some '\n')

theorem not_isWhitespace {c : Option Char} (h : c.all isWhitespace = false) : c ≠ some '\n' := by
  rintro rfl
  revert h
  decide

/-- the white space before the cursor, cell by cell -/
theorem mem_takeWhile_reverse {w : List Char} {i j : ℕ} (hji : j < i)
    (hspace : ∀ l, j ≤ l → l < i → w[l]?.all isWhitespace = true) {c : Char} (hc : w[j]? = some c) :
    c ∈ (w.take i).reverse.takeWhile isWhitespace := by
  have hsplit : (w.take i).reverse = ((w.take i).drop j).reverse ++ ((w.take i).take j).reverse := by
    rw [← List.reverse_append, List.take_append_drop]
  have hrun : ∀ x ∈ ((w.take i).drop j).reverse, isWhitespace x = true := by
    intro x hx
    obtain ⟨k, hk⟩ := List.mem_iff_getElem?.1 (List.mem_reverse.1 hx)
    rw [List.getElem?_drop, List.getElem?_take] at hk
    split_ifs at hk with hlt
    have hall := hspace (j + k) (Nat.le_add_right _ _) hlt
    rw [hk] at hall
    exact hall
  rw [hsplit, List.takeWhile_append_of_pos hrun]
  apply List.mem_append_left
  rw [List.mem_reverse, List.mem_iff_getElem?]
  exact ⟨0, by rw [List.getElem?_drop, List.getElem?_take, Nat.add_zero, if_pos hji, hc]⟩

theorem leftWord_located {b : Bool} (h : g.Readable) (hloc : g.Located) (hkeeps : LeftWordInLine g.text)
    (hg : g.leftWord = some (b, g')) : g'.Readable ∧ g'.Located := by
  have hat := h.at
  have hle := hat.le
  obtain ⟨j, k, g₁, g₂, g'', b', r, hloop₁, hloop₂, h₂, hright, h', hword, hkj, hji, hspace, hnospace, hstop⟩ :=
    leftWord_at hat
  rw [hg] at hword
  cases hword
  have hswept := leftWhile_swept (leftWhile_swept (hloc.swept h) hloop₁) hloop₂
  apply located_of_return (Or.inr ⟨g₂, r, hswept, hright⟩)
  have hbefore : g.text.before = g.text.all.take g.cursor := congrArg Text.before hat.text
  have hafter : g.text.after = g.text.all.drop g.cursor := congrArg Text.after hat.text
  have hbefore' : g'.text.before = g.text.all.take (min (k + 1) g.text.all.length) := congrArg Text.before h'.text
  -- the breaks that may have been crossed are in the white space behind the word
  have hno : ∀ l, k < l → l < g.cursor → g.text.all[l]? ≠ some '\n' := by
    intro l hkl hl
    by_cases hlj : l ≤ j
    · exact not_isWhitespace (hnospace l hkl hlj)
    · intro hbreak
      rcases hkeeps with hword | ⟨hrun, -⟩
      · rw [hafter, List.head?_drop, hspace g.cursor (by omega) (le_refl _)] at hword
        cases hword
      · apply hrun
        rw [hbefore]
        exact mem_takeWhile_reverse hl (fun m hm hmi => hspace m (by omega) (by omega)) hbreak
  rw [hbefore', hbefore]
  by_cases hlt : k < g.cursor
  · rw [Nat.min_eq_left (by omega)]
    exact count_take_eq hlt fun l hl hli => hno l hl hli
  · -- no move to the left: the step right goes over a character that is no break
    have hk : k = g.cursor := by omega
    have hhead : g.text.all[g.cursor]? ≠ some '\n' := by
      rcases hstop with hzero | hchar
      · rcases hkeeps with hword | ⟨-, hfirst⟩
        · rw [hafter, List.head?_drop] at hword
          exact not_isWhitespace hword
        · intro hbreak
          apply hfirst
          refine ⟨?_, by rw [hafter, List.head?_drop, hbreak]⟩
          rw [hbefore, show g.cursor = 0 by omega, List.take_zero]
      · rw [show g.cursor = j by omega]
        exact not_isWhitespace hchar
    symm
    apply count_take_eq (by omega)
    intro l hl hlk
    rwa [show l = g.cursor by omega]

/-- no line break in the white space at the cursor -/
def RightWordInLine (t : Text) : Prop := '\n' ∉ t.after.takeWhile isWhitespace

theorem rightWhile_space_located {fuel : ℕ} (h : g.Readable) (hloc : g.Located) (hkeeps : RightWordInLine g.text)
    (hg : g.rightWhile (fun c => c.all isWhitespace) fuel = some g') : g'.Readable ∧ g'.Located := by
  induction fuel generalizing g with
  | zero =>
    cases hg
    exact ⟨h, hloc⟩
  | succ fuel ih =>
    unfold rightWhile at hg
    split_ifs at hg with hspace
    · obtain ⟨⟨moved, g₁⟩, hright, hg⟩ := Option.bind_eq_some_iff.1 hg
      have htext₁ := text_of_right h hright
      rw [chr_text] at hspace
      unfold RightWordInLine at hkeeps
      cases hafter : g.text.after with
      | nil =>
        obtain ⟨hread₁, hloc₁⟩ := right_located h hloc (by simp [hafter]) hright
        have hsame : g₁.text.after = [] := by simp [htext₁, Text.edit, hafter]
        cases moved with
        | false =>
          cases hg
          exact ⟨hread₁, hloc₁⟩
        | true => exact ih hread₁ hloc₁ (by simp [RightWordInLine, hsame]) hg
      | cons c after =>
        have hc : isWhitespace c = true := by simpa [hafter] using hspace
        rw [hafter, List.takeWhile_cons_of_pos hc, List.mem_cons, not_or] at hkeeps
        obtain ⟨hread₁, hloc₁⟩ := right_located h hloc (by simpa [hafter] using Ne.symm hkeeps.1) hright
        have hnext : g₁.text.after = after := by simp [htext₁, Text.edit, hafter]
        cases moved with
        | false =>
          cases hg
          exact ⟨hread₁, hloc₁⟩
        | true => exact ih hread₁ hloc₁ (by rw [RightWordInLine, hnext]; exact hkeeps.2) hg
    · cases hg
      exact ⟨h, hloc⟩

theorem rightWord_located {b : Bool} (h : g.Readable) (hloc : g.Located) (hkeeps : RightWordInLine g.text)
    (hg : g.rightWord = some (b, g')) : g'.Readable ∧ g'.Located := by
  obtain ⟨g₁, hloop, heq⟩ := Option.bind_eq_some_iff.1 hg
  cases heq
  exact rightWhile_space_located h hloc hkeeps hloop

/-! ## Up and down -/

/-- the line of the cursor is the last one, and its break is not behind the text -/
def DownInLine (t : Text) : Prop := '\n' ∉ t.after ∧ ¬ BehindLastBreak t

theorem down_located {col : ℕ} (h : g.Readable) (hloc : g.Located) (hkeeps : DownInLine g.text)
    (hg : g.down col = some g') : g'.Readable ∧ g'.Located := by
  obtain ⟨⟨b₁, g₁⟩, hend, hg⟩ := Option.bind_eq_some_iff.1 hg
  obtain ⟨⟨r, g₂⟩, hright, hg⟩ := Option.bind_eq_some_iff.1 hg
  obtain ⟨⟨b₃, g₃⟩, hstart, hg⟩ := Option.bind_eq_some_iff.1 hg
  obtain ⟨hread₁, hloc₁⟩ := lineEnd_located h hloc hend
  -- the line ends at the end of the text, and the step right does not move
  obtain ⟨b', g₁', hend', hat⟩ := end_at h.at
  rw [hend] at hend'
  cases hend'
  have hlast : endOf g.text.all g.cursor = g.text.all.length := by
    have hafter : g.text.all.drop g.cursor = g.text.after := (congrArg Text.after h.at.text).symm
    rw [endOf, hafter, headLine_line hkeeps.1, Text.all, List.length_append, h.length_before]
  have htext₁ : g₁.text = ⟨g.text.all, []⟩ := by rw [hat.text, hlast, List.take_length, List.drop_length]
  have hsame : g₂ = g₁ := by
    have hnil : g₁.text.after = [] := by rw [htext₁]
    rw [right, if_pos (hread₁.after_eq_nil_iff.1 hnil)] at hright
    cases hright
    rfl
  rw [hsame] at hstart
  have hno : ¬ BehindLastBreak g₁.text := by
    rw [htext₁]
    rintro ⟨-, hbreak⟩
    rcases List.eq_nil_or_concat g.text.after with hnil | ⟨after, c, hconcat⟩
    · apply hkeeps.2
      refine ⟨hnil, ?_⟩
      simpa [Text.all, hnil] using hbreak
    · have hc : c = '\n' := by simpa [Text.all, hconcat] using hbreak
      apply hkeeps.1
      rw [hconcat, hc]
      simp
  obtain ⟨hread₃, hloc₃⟩ := lineStart_located hread₁ hloc₁ hno hstart
  exact rightInLine_located hread₃ hloc₃ hg

/-! ## Texts put into a buffer -/

theorem map_toChar_cells (txt : List Char) (n : ℕ) :
    (txt.map Char.val ++ List.replicate n 0).map toChar = txt ++ List.replicate n '\x00' := by
  have hchars : (txt.map Char.val).map toChar = txt := by
    rw [List.map_map]
    conv_rhs => rw [← List.map_id txt]
    apply List.map_congr_left
    intro c _
    simp [toChar]
  rw [List.map_append, hchars, List.map_replicate]
  rfl

theorem count_take_cells {txt : List Char} {n k : ℕ} (hk : txt.length ≤ k) :
    ((txt ++ List.replicate n '\x00').take k).count '\n' = countLines txt := by
  have hnone : '\n' ∉ (List.replicate n '\x00').take (k - txt.length) := fun hmem =>
    absurd (List.eq_of_mem_replicate (List.mem_of_mem_take hmem)) (by decide)
  rw [List.take_append, List.take_of_length_le hk, List.count_append, List.count_eq_zero_of_not_mem hnone]
  rfl

theorem located_of_find {l : ℕ} (h : g.Readable) (hno : g.lineno = g.text.before.count '\n')
    (hfind : g.findLineStart = some l) : Located { g with lineStart := l } := by
  refine ⟨hno, ?_⟩
  change l = startOf g.text.before
  rw [startOf, h.length_before]
  exact findLineStart_eq h hfind

/-- **The line of a new buffer is right** -/
theorem new_located {txt : List Char} {gapSize : ℕ} (hg : new txt gapSize = some g) : g.Readable ∧ g.Located := by
  have hle := sum_utf8Size_le txt
  obtain ⟨hread, -⟩ := readable_new hg
  refine ⟨hread, ?_⟩
  obtain ⟨l, hfind, heq⟩ := Option.bind_eq_some_iff.1 hg
  cases heq
  refine located_of_find (hread.relined (countLines txt) 0) ?_ hfind
  simp only [text, List.map_take, map_toChar_cells]
  exact (count_take_cells hle).symm

/-- the cursor is behind the last cell, with a gap: what `set_text` leaves -/
structure Stuck (g : GapBuffer) : Prop where
  cursor : g.cursor = g.buffer.length
  gap : 0 < g.gap
  room : g.gap ≤ g.buffer.length

/-- the gap only matters for a break in the last cells of the text -/
theorem findLineStart_stuck {l : ℕ} {txt : List Char} {n : ℕ} (h : g.Stuck)
    (hcells : g.buffer = txt.map Char.val ++ List.replicate n 0) (hn : 0 < n)
    (hlast : ∀ k, txt[k]? = some '\n' → k + 1 + g.gap < g.buffer.length) (hfind : g.findLineStart = some l) :
    l = startOf g.text.before := by
  have hcursor := h.cursor
  have hgap := h.gap
  have hroom := h.room
  let g₀ : GapBuffer := { g with gap := 0 }
  have hread₀ : g₀.Readable := by
    refine ⟨by simp [g₀, hcursor], ?_⟩
    intro x hx
    change x ∈ g.buffer at hx
    rw [hcells, List.mem_append] at hx
    rcases hx with hx | hx
    · obtain ⟨c, -, rfl⟩ := List.mem_map.1 hx
      exact c.valid
    · rw [List.eq_of_mem_replicate hx]
      exact valid_zero
  have hzero : g.buffer[g.cursor - 1]? = some 0 := by
    obtain ⟨n', rfl⟩ : ∃ n', n = n' + 1 := ⟨n - 1, by omega⟩
    rw [hcursor, hcells, List.replicate_succ', ← List.append_assoc, List.length_append, List.length_singleton,
      Nat.add_sub_cancel, List.getElem?_concat_length]
  obtain ⟨x, hx, hfind⟩ := Option.bind_eq_some_iff.1 hfind
  rw [hzero] at hx
  cases hx
  rw [if_neg fun hbreak => absurd hbreak.1 (by decide)] at hfind
  obtain ⟨k, hk, hfind⟩ := Option.bind_eq_some_iff.1 hfind
  -- with no gap the line is found as in a buffer that can be read
  have hfind₀ : g₀.findLineStart = some l := by
    have hsame : (0 < g.cursor ∧ k + 1 + g.gap < g.buffer.length ∧ g.buffer[k]? = some NEWLINE) ↔
        (0 < g.cursor ∧ k + 1 + 0 < g.buffer.length ∧ g.buffer[k]? = some NEWLINE) := by
      refine and_congr_right fun _ => and_congr_left fun hbreak => ?_
      rw [hcells] at hbreak
      have htxt : txt[k]? = some '\n' := by
        rw [List.getElem?_append] at hbreak
        split_ifs at hbreak with hlt
        · rw [List.getElem?_map] at hbreak
          obtain ⟨c, hc, hval⟩ := Option.map_eq_some_iff.1 hbreak
          rw [hc, show c = '\n' from Char.ext hval]
        · exact absurd (List.eq_of_mem_replicate (List.mem_of_getElem? hbreak)) (by decide)
      have hlt := hlast k htxt
      omega
    unfold findLineStart
    change (do
      let x ← g.buffer[g.cursor - 1]?
      if x = NEWLINE ∧ g₀.chr.isNone then return g.cursor
      let i ← lineBreakBefore g.buffer (g.cursor - 1)
      if 0 < g.cursor ∧ i + 1 + 0 < g.buffer.length ∧ g.buffer[i]? = some NEWLINE then return i + 1
      return i) = some l
    simp only [hzero, hk, Option.bind_eq_bind, Option.bind_some]
    rw [if_neg (fun hbreak => absurd hbreak.1 (by decide)), ← if_congr hsame rfl rfl]
    exact hfind
  have htext : g₀.text.before = g.text.before := rfl
  rw [findLineStart_eq hread₀ hfind₀, ← htext, startOf, hread₀.length_before]

/-- **A text set**: the buffer can be read if it has no gap, and is stuck otherwise. Its line is right unless the text
is ASCII and ends with a line break -/
theorem setText_located {txt : List Char} (hkeeps : g.gapSize = 0 ∨ ¬ (IsAscii txt ∧ txt.getLast? = some '\n'))
    (hg : g.setText txt = some g') : (g'.Readable ∨ g'.Stuck) ∧ g'.Located := by
  have hle := sum_utf8Size_le txt
  have hbytes := sum_utf8Size_eq_iff txt
  let n := (txt.map Char.utf8Size).sum + g.gapSize - txt.length
  let cells := txt.map Char.val ++ List.replicate n (0 : UInt32)
  let g₀ : GapBuffer := { g with buffer := cells, cursor := cells.length, gap := g.gapSize, lineno := countLines txt }
  have hlen : cells.length = (txt.map Char.utf8Size).sum + g.gapSize := by
    simp only [cells, n, List.length_append, List.length_map, List.length_replicate]
    omega
  have hno : g₀.lineno = g₀.text.before.count '\n' := by
    simp only [text, List.map_take, g₀, cells, map_toChar_cells]
    exact (count_take_cells (by simp)).symm
  obtain ⟨l, hfind, heq⟩ := Option.bind_eq_some_iff.1 hg
  cases heq
  change g₀.findLineStart = some l at hfind
  change (Readable { g₀ with lineStart := l } ∨ Stuck { g₀ with lineStart := l }) ∧ Located { g₀ with lineStart := l }
  by_cases hsize : g.gapSize = 0
  · have hread : g₀.Readable := by
      refine ⟨by simp [g₀, hsize], ?_⟩
      intro x hx
      rcases List.mem_append.1 hx with hx | hx
      · obtain ⟨c, -, rfl⟩ := List.mem_map.1 hx
        exact c.valid
      · rw [List.eq_of_mem_replicate hx]
        exact valid_zero
    exact ⟨Or.inl (hread.relined _ l), located_of_find hread hno hfind⟩
  · have hstuck : g₀.Stuck := ⟨rfl, Nat.pos_of_ne_zero hsize, by change g.gapSize ≤ cells.length; omega⟩
    have hlast : ∀ k, txt[k]? = some '\n' → k + 1 + g.gapSize < cells.length := by
      intro k hk
      obtain ⟨hlt, -⟩ := List.getElem?_eq_some_iff.1 hk
      by_contra hnot
      -- the break is the last byte of the text
      apply hkeeps.resolve_left hsize
      refine ⟨hbytes.1 (by omega), ?_⟩
      rw [List.getLast?_eq_getElem?, show txt.length - 1 = k by omega, hk]
    have hstart : l = startOf g₀.text.before := findLineStart_stuck hstuck rfl (by omega) hlast hfind
    exact ⟨Or.inr ⟨hstuck.cursor, hstuck.gap, hstuck.room⟩, hno, hstart⟩

namespace Stuck

theorem chr (h : g.Stuck) : g.chr = none := by
  have hcursor := h.cursor
  rw [GapBuffer.chr, List.getElem?_eq_none (by omega)]
  rfl

theorem left (h : g.Stuck) : g.left = none := by
  have hcursor := h.cursor
  have hgap := h.gap
  have hroom := h.room
  unfold GapBuffer.left
  rw [if_neg (by omega), List.getElem?_eq_getElem (show g.cursor - 1 < g.buffer.length by omega)]
  simp only [setCell, if_pos (show g.cursor - 1 < g.buffer.length by omega), List.length_set,
    if_neg (show ¬ g.cursor - 1 + g.gap < g.buffer.length by omega), Option.bind_eq_bind, Option.bind_some,
    Option.bind_none]

theorem right (h : g.Stuck) : g.right = none := by
  have hcursor := h.cursor
  have hgap := h.gap
  unfold GapBuffer.right
  rw [if_neg (by omega), List.getElem?_eq_none (by omega)]
  rfl

theorem insert (h : g.Stuck) (ch : Char) : g.insert ch = none := by
  have hcursor := h.cursor
  have hgap := h.gap
  rw [insert_eq, if_neg (by omega), Option.bind_some, insertCell, List.getElem?_eq_none (by omega)]
  rfl

theorem backspace (h : g.Stuck) : g.backspace = none := by
  have hcursor := h.cursor
  have hgap := h.gap
  have hroom := h.room
  exact backspace_none (by omega) (by omega)

theorem delete (h : g.Stuck) : g.delete = none := by
  rw [GapBuffer.delete, h.right]
  rfl

theorem leftWhile (h : g.Stuck) {p : Option Char → Bool} (hp : p none = true) (fuel : ℕ) :
    g.leftWhile p (fuel + 1) = none := by
  rw [GapBuffer.leftWhile, h.chr, if_pos hp, h.left]
  rfl

theorem rightWhile (h : g.Stuck) {p : Option Char → Bool} (hp : p none = true) (fuel : ℕ) :
    g.rightWhile p (fuel + 1) = none := by
  rw [GapBuffer.rightWhile, h.chr, if_pos hp, h.right]
  rfl

theorem moveToLineStart (h : g.Stuck) : g.moveToLineStart = none := by
  rw [moveToLineStart_eq, h.chr]
  simp [h.left]

theorem moveToLineEnd (h : g.Stuck) : g.moveToLineEnd = none := by
  rw [GapBuffer.moveToLineEnd, h.rightWhile rfl]
  rfl

/-- **A stuck buffer panics at every operation**, but for another `set_text` and an `up` from the first line -/
theorem perform (h : g.Stuck) {op : Op} {r : Option Bool} (hg : g.perform op = some (r, g')) :
    g' = g ∨ ∃ txt, op = .setText txt := by
  have hcursor := h.cursor
  have hgap := h.gap
  cases op with
  | insert ch => simp [GapBuffer.perform, h.insert] at hg
  | backspace => simp [GapBuffer.perform, h.backspace] at hg
  | delete => simp [GapBuffer.perform, h.delete] at hg
  | replace ch => simp [GapBuffer.perform, replace, h.delete] at hg
  | overwrite ch =>
    have hend : ¬ g.cursor + g.gap = g.buffer.length := by omega
    simp [GapBuffer.perform, overwrite, replace, hend, h.delete] at hg
  | left => simp [GapBuffer.perform, h.left] at hg
  | right => simp [GapBuffer.perform, h.right] at hg
  | leftWord => simp [GapBuffer.perform, leftWord, h.leftWhile] at hg
  | rightWord => simp [GapBuffer.perform, rightWord, h.rightWhile] at hg
  | lineStart => simp [GapBuffer.perform, h.moveToLineStart] at hg
  | lineEnd => simp [GapBuffer.perform, h.moveToLineEnd] at hg
  | up col =>
    by_cases hline : g.lineStart = 0
    · left
      simp only [GapBuffer.perform, up, if_pos hline] at hg
      cases hg
      rfl
    · simp [GapBuffer.perform, up, hline, h.moveToLineStart] at hg
  | down col => simp [GapBuffer.perform, down, h.moveToLineEnd] at hg
  | setText txt => exact Or.inr ⟨txt, rfl⟩

end Stuck

/-! ## Runs -/

/-- **When an operation keeps the line right.** A move does that if it ends on the line it started on; a removal, if the
cell `backspace` reads is a line break exactly when the character removed is one, or there is no break to count -/
def Keeps (g : GapBuffer) : Op → Prop
  | .insert _ => True
  | .backspace => Erases g.text.before g.buffer[g.cursor]?
  | .delete => g.DeletesInLine
  | .replace ch => g.DeletesInLine ∧ ch ≠ '\n'
  | .overwrite _ => g.text.after = [] ∨ g.DeletesInLine
  | .left => g.text.before.getLast? ≠ some '\n'
  | .right => g.text.after.head? ≠ some '\n'
  | .leftWord => LeftWordInLine g.text
  | .rightWord => RightWordInLine g.text
  | .lineStart => ¬ BehindLastBreak g.text
  | .lineEnd => True
  | .up _ => g.lineStart = 0
  | .down _ => DownInLine g.text
  | .setText txt => g.gapSize = 0 ∨ ¬ (IsAscii txt ∧ txt.getLast? = some '\n')

instance (t : Text) : Decidable (LeftWordInLine t) :=
  inferInstanceAs (Decidable (t.after.head?.all isWhitespace = false ∨
    '\n' ∉ t.before.reverse.takeWhile isWhitespace ∧ ¬ (t.before = [] ∧ t.after.head? = some '\n')))

instance (t : Text) : Decidable (RightWordInLine t) :=
  inferInstanceAs (Decidable ('\n' ∉ t.after.takeWhile isWhitespace))

instance (t : Text) : Decidable (BehindLastBreak t) :=
  inferInstanceAs (Decidable (t.after = [] ∧ t.before.getLast? = some '\n'))

instance (t : Text) : Decidable (DownInLine t) := inferInstanceAs (Decidable ('\n' ∉ t.after ∧ ¬ BehindLastBreak t))

instance (before : List Char) (cell : Option UInt32) : Decidable (Erases before cell) :=
  inferInstanceAs (Decidable ('\n' ∉ before ∨ (before.getLast? = some '\n' ↔ cell = some NEWLINE)))

instance (g : GapBuffer) : Decidable g.DeletesInLine :=
  inferInstanceAs (Decidable (if g.text.after = [] then Erases g.text.before g.buffer[g.cursor]?
    else g.text.after.head? ≠ some '\n' ∧ ('\n' ∉ g.text.before ∨ g.cellBehind ≠ some NEWLINE)))

instance (g : GapBuffer) : (op : Op) → Decidable (g.Keeps op)
  | .insert _ | .lineEnd => .isTrue trivial
  | .backspace => inferInstanceAs (Decidable (Erases g.text.before g.buffer[g.cursor]?))
  | .delete => inferInstanceAs (Decidable g.DeletesInLine)
  | .replace ch => inferInstanceAs (Decidable (g.DeletesInLine ∧ ch ≠ '\n'))
  | .overwrite _ => inferInstanceAs (Decidable (g.text.after = [] ∨ g.DeletesInLine))
  | .left => inferInstanceAs (Decidable (g.text.before.getLast? ≠ some '\n'))
  | .right => inferInstanceAs (Decidable (g.text.after.head? ≠ some '\n'))
  | .leftWord => inferInstanceAs (Decidable (LeftWordInLine g.text))
  | .rightWord => inferInstanceAs (Decidable (RightWordInLine g.text))
  | .lineStart => inferInstanceAs (Decidable (¬ BehindLastBreak g.text))
  | .up _ => inferInstanceAs (Decidable (g.lineStart = 0))
  | .down _ => inferInstanceAs (Decidable (DownInLine g.text))
  | .setText txt => inferInstanceAs (Decidable (g.gapSize = 0 ∨ ¬ (IsAscii txt ∧ txt.getLast? = some '\n')))

theorem run_of_map {x : Option GapBuffer} {r : Option Bool} (h : x.map (none, ·) = some (r, g')) : x = some g' := by
  obtain ⟨g₁, hrun, heq⟩ := Option.map_eq_some_iff.1 h
  cases heq
  exact hrun

theorem move_of_map {x : Option (Bool × GapBuffer)} {r : Option Bool}
    (h : (x.map fun r => (some r.1, r.2)) = some (r, g')) : ∃ b, x = some (b, g') := by
  obtain ⟨⟨b, g₁⟩, hrun, heq⟩ := Option.map_eq_some_iff.1 h
  cases heq
  exact ⟨b, hrun⟩

/-- **One operation** -/
theorem perform_located {op : Op} {r : Option Bool} (h : g.Readable ∨ g.Stuck) (hloc : g.Located)
    (hkeeps : g.Keeps op) (hg : g.perform op = some (r, g')) : (g'.Readable ∨ g'.Stuck) ∧ g'.Located := by
  rcases h with h | h
  · cases op with
    | insert ch =>
      obtain ⟨hread', hloc', -⟩ := insert_located h hloc (run_of_map hg)
      exact ⟨Or.inl hread', hloc'⟩
    | backspace => exact (backspace_located h hloc hkeeps (run_of_map hg)).imp_left Or.inl
    | delete => exact (delete_located h hloc hkeeps (run_of_map hg)).imp_left Or.inl
    | replace ch => exact (replace_located h hloc hkeeps.1 hkeeps.2 (run_of_map hg)).imp_left Or.inl
    | overwrite ch => exact (overwrite_located h hloc hkeeps (run_of_map hg)).imp_left Or.inl
    | left =>
      obtain ⟨b, hmove⟩ := move_of_map hg
      exact (left_located h hloc hkeeps hmove).imp_left Or.inl
    | right =>
      obtain ⟨b, hmove⟩ := move_of_map hg
      exact (right_located h hloc hkeeps hmove).imp_left Or.inl
    | leftWord =>
      obtain ⟨b, hmove⟩ := move_of_map hg
      exact (leftWord_located h hloc hkeeps hmove).imp_left Or.inl
    | rightWord =>
      obtain ⟨b, hmove⟩ := move_of_map hg
      exact (rightWord_located h hloc hkeeps hmove).imp_left Or.inl
    | lineStart =>
      obtain ⟨b, hmove⟩ := move_of_map hg
      exact (lineStart_located h hloc hkeeps hmove).imp_left Or.inl
    | lineEnd =>
      obtain ⟨b, hmove⟩ := move_of_map hg
      exact (lineEnd_located h hloc hmove).imp_left Or.inl
    | up col =>
      have hfirst : g.lineStart = 0 := hkeeps
      have hrun := run_of_map hg
      rw [up, if_pos hfirst] at hrun
      cases hrun
      exact ⟨Or.inl h, hloc⟩
    | down col => exact (down_located h hloc hkeeps (run_of_map hg)).imp_left Or.inl
    | setText txt => exact setText_located hkeeps (run_of_map hg)
  · rcases h.perform hg with rfl | ⟨txt, rfl⟩
    · exact ⟨Or.inr h, hloc⟩
    · exact setText_located hkeeps (run_of_map hg)

/-- **The line stays right.** From a new buffer, in every run of operations that each meet `Keeps`, `lineno` and
`line_start` are right after any number of them, as far as the run gets without a panic. -/
theorem ops_located {txt : List Char} {gapSize : ℕ} (hnew : new txt gapSize = some g) {ops : List Op}
    (hkeeps : AlwaysSome perform Keeps g ops) {n : ℕ} {rs : List (Option Bool)}
    (hrun : runSome perform g (ops.take n) = some (rs, g')) : g'.Located := by
  obtain ⟨hread, hloc⟩ := new_located hnew
  have hinv : (g'.Readable ∨ g'.Stuck) ∧ g'.Located :=
    runSome_inv (I := fun g => (g.Readable ∨ g.Stuck) ∧ g.Located)
      (fun _ _ _ _ hI hP hg => perform_located hI.1 hI.2 hP hg) ⟨Or.inl hread, hloc⟩ (hkeeps.take n) hrun
  exact hinv.2

/-- a run on two lines: "a", a break and "cd", with the cursor behind the break -/
theorem ops_located_lines : (⟨[97, 10, 0, 0, 0, 99, 100], 2, 3, 4, 1, 2⟩ : GapBuffer).Located :=
  @ops_located ⟨[97, 10, 98, 0, 0, 0, 0], 3, 4, 4, 1, 2⟩ _ ['a', '\n', 'b'] 4 (by decide +kernel)
    [.insert 'c', .left, .lineStart, .lineEnd, .overwrite 'd', .leftWord, .delete] (by decide +kernel) 7
    [none, some true, some false, some false, none, some false, none] (by decide +kernel)

/-- **A move left over a line break counts it twice**: in "a" and a break, one move left from the end leaves `lineno` at
2, with no break before the cursor -/
theorem left_miscounts :
    ¬ ∀ (txt : List Char) (gapSize : ℕ) (ops : List Op) (g g' : GapBuffer) (rs : List (Option Bool)), IsAscii txt →
      new txt gapSize = some g → runSome perform g ops = some (rs, g') → g'.Located := by
  intro h
  have hloc := h ['a', '\n'] 4 [.left] ⟨[97, 10, 0, 0, 0, 0], 2, 4, 4, 1, 2⟩ ⟨[97, 0, 0, 0, 0, 10], 1, 4, 4, 2, 0⟩
    [some true] (by decide) (by decide +kernel) (by decide +kernel)
  exact absurd hloc.lineno (by decide +kernel)

/-- a backspace that removes the break takes nothing off -/
example : (⟨[97, 10, 0, 0, 0, 0], 2, 4, 4, 1, 2⟩ : GapBuffer).backspace =
    some ⟨[97, 0, 0, 0, 0, 0], 1, 5, 4, 1, 2⟩ := by
  decide +kernel

end GapBuffer

end Wrb.Ui
