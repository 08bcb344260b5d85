/-
`Scanline::compile_rows` (`ui/scanline.rs`): a character buffer as a sequence of terminal commands, and the rows of it
that a window shows.

Layers:
- the compiler of the source: the commands so far, the colours carried along, the run of text not printed yet;
- `Terminal`: what the commands do to a screen, the abstract meaning of the compiled program;
- `shown`: the screen once the pending text is printed. Each step of the compiler is one step of this screen, so the
  invariant (`Shows`) is about the screen and the colours carried only;
- the window: every line break is followed by a colour reset, so that what a row shows does not depend on the rows
  before it (`Resets`, `Windowed.run`).

Result, `compileRows_shows`: on a terminal with default colours, the window shows exactly the cells of its rows.
-/
import Mathlib.Tactic
import Wrb.Ui.CharBuff

namespace Wrb.Ui

/-- rendering commands for the whole screen -/
inductive Scanline where
  | fgColor (c : Color)
  | bgColor (c : Color)
  | text (s : List Char)
  | newline
  | clearLine
  | resetColor
deriving DecidableEq, Repr

/-! ## The compiler -/

/-- the variables of `compile_rows` -/
structure Compiler where
  cmds : List Scanline
  curFgColor : Option Color
  curBgColor : Option Color
  curStr : List Char
  inBlank : Bool
deriving DecidableEq, Repr

namespace Compiler

def init : Compiler := ⟨[], none, none, [], true⟩

def push (s : Compiler) (cmd : Scanline) : Compiler := { s with cmds := s.cmds ++ [cmd] }

def pushAll (s : Compiler) (cmds : List Scanline) : Compiler := { s with cmds := s.cmds ++ cmds }

def finishString (s : Compiler) : Compiler :=
  if s.curStr ≠ [] then { s with cmds := s.cmds ++ [.text s.curStr], curStr := [] } else s

def carryFg (s : Compiler) : Compiler :=
  match s.curFgColor with
  | some fg => s.push (.fgColor fg)
  | none => s

def carryBg (s : Compiler) : Compiler :=
  match s.curBgColor with
  | some bg => s.push (.bgColor bg)
  | none => s

/-- finish up, and go to the next line -/
def breakRow (s : Compiler) (i : ℕ) : Compiler :=
  (if 0 < i then s.finishString.pushAll [.newline, .resetColor] else s.finishString).push .clearLine

/-- a row starts at cell `i`: the colours are carried over -/
def startRow (s : Compiler) (i : ℕ) : Compiler := (s.breakRow i).carryFg.carryBg

/-- the next cell's foreground, unless it is the one carried -/
def setFg (s : Compiler) (fg : Color) : Compiler :=
  let s := if s.curFgColor = some fg then s else s.finishString.push (.fgColor fg)
  { s with curFgColor := some fg }

def setBg (s : Compiler) (bg : Color) : Compiler :=
  let s := if s.curBgColor = some bg then s else s.finishString.push (.bgColor bg)
  { s with curBgColor := some bg }

def addCell (s : Compiler) : CharCell → Compiler
  | .blank =>
    let s := if s.inBlank then s else { s with inBlank := true }.finishString.push .resetColor
    { s with curStr := s.curStr ++ [' '], curFgColor := none, curBgColor := none }
  | .fill value bg fg _ =>
    let s := if s.inBlank then { s.finishString with inBlank := false } else s
    let s := (s.setFg fg).setBg bg
    { s with curStr := s.curStr ++ [value] }

/-- one round of the loop over the cells: cell `i` of a buffer `numCols` wide -/
def round (numCols : ℕ) (s : Compiler) (cell : CharCell × ℕ) : Compiler :=
  (if cell.2 % numCols = 0 then s.startRow cell.2 else s).addCell cell.1

def finish (s : Compiler) : Compiler := s.finishString.push .resetColor

end Compiler

/-- the commands of the rows from `startRow` up to `endRow`; `rowNum` is the row of the next command -/
def inRange (startRow endRow : ℕ) : (rowNum : ℕ) → List Scanline → List Scanline
  | _, [] => []
  | rowNum, cmd :: cmds =>
    (if startRow ≤ rowNum ∧ rowNum < endRow then [cmd] else []) ++
      inRange startRow endRow (if cmd = .newline then rowNum + 1 else rowNum) cmds

/-- all commands of a buffer; the index of the first cell is divided by the width -/
def CharBuff.compileAll (b : CharBuff) : Option (List Scanline) :=
  if b.numCols = 0 ∧ b.cells ≠ [] then none
  else some (b.cells.zipIdx.foldl (Compiler.round b.numCols.toNat) Compiler.init).finish.cmds

def CharBuff.compileRows (b : CharBuff) (startRow numRows : UInt64) : Option (List Scanline) :=
  b.compileAll.map (inRange startRow.toNat (startRow + numRows).toNat 0)

/-! ## A terminal -/

/-- a character on the screen; a colour that is not set is the default -/
structure Glyph where
  value : Char
  fg : Option Color
  bg : Option Color
deriving DecidableEq, Repr

/-- the rows above the cursor, and the row it is in -/
structure Terminal where
  fg : Option Color
  bg : Option Color
  above : List (List Glyph)
  row : List Glyph
deriving DecidableEq, Repr

namespace Terminal

def init : Terminal := ⟨none, none, [], []⟩

def exec (t : Terminal) : Scanline → Terminal
  | .fgColor c => { t with fg := some c }
  | .bgColor c => { t with bg := some c }
  | .text s => { t with row := t.row ++ s.map fun c => ⟨c, t.fg, t.bg⟩ }
  | .newline => { t with above := t.above ++ [t.row], row := [] }
  | .clearLine => { t with row := [] }
  | .resetColor => { t with fg := none, bg := none }

def run (t : Terminal) (cmds : List Scanline) : Terminal := cmds.foldl exec t

def rowAt (t : Terminal) (r : ℕ) : List Glyph := ((t.above ++ [t.row])[r]?).getD []

def glyphAt (t : Terminal) (r c : ℕ) : Option Glyph := (t.rowAt r)[c]?

@[simp] theorem run_nil (t : Terminal) : t.run [] = t := rfl

@[simp] theorem run_cons (t : Terminal) (cmd : Scanline) (cmds : List Scanline) :
    t.run (cmd :: cmds) = (t.exec cmd).run cmds := rfl

theorem run_append (t : Terminal) (a b : List Scanline) : t.run (a ++ b) = (t.run a).run b := List.foldl_append

end Terminal

/-- what a cell looks like: a blank is a space in default colours -/
def CharCell.glyph : CharCell → Glyph
  | .blank => ⟨' ', none, none⟩
  | .fill value bg fg _ => ⟨value, some fg, some bg⟩

/-! ## The screen of a compiler -/

namespace Compiler

/-- the screen once the pending text is printed -/
def shown (s : Compiler) : Terminal := Terminal.init.run s.finishString.cmds

@[simp] theorem finishString_curStr (s : Compiler) : s.finishString.curStr = [] := by
  unfold finishString
  split_ifs with h
  · rfl
  · simpa using h

theorem finishString_of_nil {s : Compiler} (h : s.curStr = []) : s.finishString = s := if_neg (not_not.2 h)

@[simp] theorem finishString_curFg (s : Compiler) : s.finishString.curFgColor = s.curFgColor := by
  unfold finishString; split_ifs <;> rfl

@[simp] theorem finishString_curBg (s : Compiler) : s.finishString.curBgColor = s.curBgColor := by
  unfold finishString; split_ifs <;> rfl

@[simp] theorem finishString_inBlank (s : Compiler) : s.finishString.inBlank = s.inBlank := by
  unfold finishString; split_ifs <;> rfl

@[simp] theorem shown_finishString (s : Compiler) : s.finishString.shown = s.shown := by
  unfold shown
  rw [finishString_of_nil (finishString_curStr s)]

theorem shown_pushAll {s : Compiler} (h : s.curStr = []) (cmds : List Scanline) :
    (s.pushAll cmds).shown = s.shown.run cmds := by
  unfold shown
  rw [finishString_of_nil h, finishString_of_nil (s := s.pushAll cmds) h]
  exact Terminal.run_append _ _ _

theorem shown_push {s : Compiler} (h : s.curStr = []) (cmd : Scanline) : (s.push cmd).shown = s.shown.exec cmd :=
  shown_pushAll h [cmd]

/-- pending text is printed in the colours of the screen -/
theorem shown_eq (s : Compiler) : s.shown = (Terminal.init.run s.cmds).exec (.text s.curStr) := by
  unfold shown finishString
  split_ifs with h
  · rw [Terminal.run_append]
    rfl
  · have hnil : s.curStr = [] := by simpa using h
    simp [hnil, Terminal.exec]

theorem shown_addChar (s : Compiler) (c : Char) :
    ({ s with curStr := s.curStr ++ [c] } : Compiler).shown = s.shown.exec (.text [c]) := by
  rw [shown_eq, shown_eq]
  simp [Terminal.exec]

/-- only the commands and the pending text are on the screen -/
theorem shown_with (s : Compiler) (fg bg : Option Color) (inBlank : Bool) :
    ({ s with curFgColor := fg, curBgColor := bg, inBlank := inBlank } : Compiler).shown = s.shown := by
  rw [shown_eq, shown_eq]

/-! ## The invariant -/

/-- the compiler carries the colours of its screen: both default while in blank cells, both set otherwise -/
structure Tracks (s : Compiler) : Prop where
  fg : s.curFgColor = s.shown.fg
  bg : s.curBgColor = s.shown.bg
  fg_none : s.inBlank = true → s.shown.fg = none
  bg_none : s.inBlank = true → s.shown.bg = none

theorem carryFg_shown {s : Compiler} (h : s.curStr = []) :
    s.carryFg.shown = { s.shown with fg := s.curFgColor.or s.shown.fg } := by
  unfold carryFg
  cases s.curFgColor with
  | none => rfl
  | some fg => exact shown_push h _

theorem carryBg_shown {s : Compiler} (h : s.curStr = []) :
    s.carryBg.shown = { s.shown with bg := s.curBgColor.or s.shown.bg } := by
  unfold carryBg
  cases s.curBgColor with
  | none => rfl
  | some bg => exact shown_push h _

theorem push_fields (s : Compiler) (cmd : Scanline) : (s.push cmd).curStr = s.curStr ∧
    (s.push cmd).curFgColor = s.curFgColor ∧ (s.push cmd).curBgColor = s.curBgColor ∧
    (s.push cmd).inBlank = s.inBlank := ⟨rfl, rfl, rfl, rfl⟩

theorem carryFg_fields (s : Compiler) : s.carryFg.curStr = s.curStr ∧ s.carryFg.curFgColor = s.curFgColor ∧
    s.carryFg.curBgColor = s.curBgColor ∧ s.carryFg.inBlank = s.inBlank := by
  unfold carryFg
  split
  · exact push_fields s _
  · exact ⟨rfl, rfl, rfl, rfl⟩

theorem carryBg_fields (s : Compiler) : s.carryBg.curStr = s.curStr ∧ s.carryBg.curFgColor = s.curFgColor ∧
    s.carryBg.curBgColor = s.curBgColor ∧ s.carryBg.inBlank = s.inBlank := by
  unfold carryBg
  split
  · exact push_fields s _
  · exact ⟨rfl, rfl, rfl, rfl⟩

theorem breakRow_fields (s : Compiler) (i : ℕ) : (s.breakRow i).curStr = [] ∧
    (s.breakRow i).curFgColor = s.curFgColor ∧ (s.breakRow i).curBgColor = s.curBgColor ∧
    (s.breakRow i).inBlank = s.inBlank := by
  unfold breakRow
  split_ifs
  · exact ⟨finishString_curStr s, finishString_curFg s, finishString_curBg s, finishString_inBlank s⟩
  · exact ⟨finishString_curStr s, finishString_curFg s, finishString_curBg s, finishString_inBlank s⟩

/-- a row start only ends the row of the screen; the colours are as before -/
theorem startRow_shown {s : Compiler} (h : s.Tracks) (i : ℕ) :
    (s.startRow i).shown = { s.shown with
      above := if 0 < i then s.shown.above ++ [s.shown.row] else s.shown.above, row := [] } := by
  unfold startRow
  obtain ⟨hnil, hfg, hbg, -⟩ := breakRow_fields s i
  obtain ⟨hnil', -, hbg', -⟩ := carryFg_fields (s.breakRow i)
  rw [carryBg_shown (hnil'.trans hnil), carryFg_shown hnil, hbg', hfg, hbg, h.fg, h.bg]
  unfold breakRow
  split_ifs
  · rw [shown_push (s := s.finishString.pushAll _) (finishString_curStr s), shown_pushAll (finishString_curStr s),
      shown_finishString]
    simp [Terminal.exec]
  · rw [shown_push (finishString_curStr s), shown_finishString]
    simp [Terminal.exec]

theorem startRow_fields (s : Compiler) (i : ℕ) : (s.startRow i).curFgColor = s.curFgColor ∧
    (s.startRow i).curBgColor = s.curBgColor ∧ (s.startRow i).inBlank = s.inBlank := by
  unfold startRow
  obtain ⟨-, hfg, hbg, hin⟩ := carryBg_fields (s.breakRow i).carryFg
  obtain ⟨-, hfg', hbg', hin'⟩ := carryFg_fields (s.breakRow i)
  obtain ⟨-, hfg₀, hbg₀, hin₀⟩ := breakRow_fields s i
  exact ⟨hfg.trans (hfg'.trans hfg₀), hbg.trans (hbg'.trans hbg₀), hin.trans (hin'.trans hin₀)⟩

theorem startRow_tracks {s : Compiler} (h : s.Tracks) (i : ℕ) : (s.startRow i).Tracks := by
  obtain ⟨hfg, hbg, hin⟩ := startRow_fields s i
  have hshown := startRow_shown h i
  constructor
  · rw [hfg, hshown]; exact h.fg
  · rw [hbg, hshown]; exact h.bg
  · rw [hin, hshown]; exact h.fg_none
  · rw [hin, hshown]; exact h.bg_none

/-- the foreground of the screen is set, whatever it was -/
theorem setFg_shown {s : Compiler} (hfg : s.curFgColor = s.shown.fg) (fg : Color) :
    (s.setFg fg).shown = { s.shown with fg := some fg } := by
  unfold setFg
  dsimp only
  split_ifs with heq
  · rw [shown_with s, ← heq, hfg]
  · rw [shown_with (s.finishString.push (.fgColor fg)), shown_push (finishString_curStr s), shown_finishString]
    rfl

theorem setFg_fields (s : Compiler) (fg : Color) : (s.setFg fg).curFgColor = some fg ∧
    (s.setFg fg).curBgColor = s.curBgColor ∧ (s.setFg fg).inBlank = s.inBlank := by
  unfold setFg
  dsimp only
  split_ifs
  · exact ⟨rfl, rfl, rfl⟩
  · exact ⟨rfl, finishString_curBg s, finishString_inBlank s⟩

theorem setBg_shown {s : Compiler} (hbg : s.curBgColor = s.shown.bg) (bg : Color) :
    (s.setBg bg).shown = { s.shown with bg := some bg } := by
  unfold setBg
  dsimp only
  split_ifs with heq
  · rw [shown_with s, ← heq, hbg]
  · rw [shown_with (s.finishString.push (.bgColor bg)), shown_push (finishString_curStr s), shown_finishString]
    rfl

theorem setBg_fields (s : Compiler) (bg : Color) : (s.setBg bg).curBgColor = some bg ∧
    (s.setBg bg).curFgColor = s.curFgColor ∧ (s.setBg bg).inBlank = s.inBlank := by
  unfold setBg
  dsimp only
  split_ifs
  · exact ⟨rfl, rfl, rfl⟩
  · exact ⟨rfl, finishString_curFg s, finishString_inBlank s⟩

/-- a blank resets the colours where the cells before it were not blank -/
theorem addCell_blank_shown {s : Compiler} (h : s.Tracks) :
    (s.addCell .blank).Tracks ∧ (s.addCell .blank).shown.above = s.shown.above ∧
      (s.addCell .blank).shown.row = s.shown.row ++ [CharCell.blank.glyph] := by
  unfold addCell
  dsimp only
  generalize hs₁ : (if s.inBlank then s else { s with inBlank := true }.finishString.push .resetColor) = s₁
  have hshown₁ : s₁.shown = { s.shown with fg := none, bg := none } := by
    rw [← hs₁]
    split_ifs with hin
    · rw [← h.fg_none hin]
      exact congrArg (fun c => { s.shown with bg := c }) ((h.bg_none hin).trans (h.fg_none hin).symm)
    · rw [shown_push (finishString_curStr _), shown_finishString, shown_with s]
      rfl
  have hshown : ({ s₁ with curStr := s₁.curStr ++ [' '], curFgColor := none, curBgColor := none } : Compiler).shown =
      { s.shown with fg := none, bg := none, row := s.shown.row ++ [⟨' ', none, none⟩] } := by
    rw [shown_with { s₁ with curStr := s₁.curStr ++ [' '] }, shown_addChar, hshown₁]
    rfl
  rw [hshown]
  exact ⟨⟨hshown ▸ rfl, hshown ▸ rfl, fun _ => hshown ▸ rfl, fun _ => hshown ▸ rfl⟩, rfl, rfl⟩

/-- a filled cell sets its colours where they are not set already -/
theorem addCell_fill_shown {s : Compiler} (h : s.Tracks) (value : Char) (bg fg : Color) (elementId : ℕ) :
    (s.addCell (.fill value bg fg elementId)).Tracks ∧
      (s.addCell (.fill value bg fg elementId)).shown.above = s.shown.above ∧
      (s.addCell (.fill value bg fg elementId)).shown.row =
        s.shown.row ++ [(CharCell.fill value bg fg elementId).glyph] := by
  unfold addCell
  dsimp only
  generalize hs₁ : (if s.inBlank then { s.finishString with inBlank := false } else s) = s₁
  have hshown₁ : s₁.shown = s.shown := by
    rw [← hs₁]
    split_ifs
    · rw [shown_with s.finishString, shown_finishString]
    · rfl
  have hin₁ : s₁.inBlank = false := by
    rw [← hs₁]
    split_ifs with hin
    · rfl
    · simpa using hin
  have hfg₁ : s₁.curFgColor = s₁.shown.fg := by
    rw [hshown₁, ← h.fg, ← hs₁]
    split_ifs
    · exact finishString_curFg s
    · rfl
  have hbg₁ : s₁.curBgColor = s₁.shown.bg := by
    rw [hshown₁, ← h.bg, ← hs₁]
    split_ifs
    · exact finishString_curBg s
    · rfl
  have hf := setFg_shown hfg₁ fg
  obtain ⟨hf₁, hf₂, hf₃⟩ := setFg_fields s₁ fg
  have hb := setBg_shown (s := s₁.setFg fg) (by rw [hf₂, hf, hbg₁]) bg
  obtain ⟨hb₁, hb₂, hb₃⟩ := setBg_fields (s₁.setFg fg) bg
  generalize hs₂ : (s₁.setFg fg).setBg bg = s₂ at *
  have hshown : ({ s₂ with curStr := s₂.curStr ++ [value] } : Compiler).shown =
      { s.shown with fg := some fg, bg := some bg, row := s.shown.row ++ [⟨value, some fg, some bg⟩] } := by
    rw [shown_addChar, hb, hf, hshown₁]
    rfl
  have hin₂ : s₂.inBlank = false := by rw [hb₃, hf₃, hin₁]
  rw [hshown]
  refine ⟨⟨?_, ?_, ?_, ?_⟩, rfl, rfl⟩
  · rw [hshown]; exact hb₂.trans hf₁
  · rw [hshown]; exact hb₁
  · intro hin; exact absurd (hin₂.symm.trans hin) (by decide)
  · intro hin; exact absurd (hin₂.symm.trans hin) (by decide)

/-- **One cell** adds its glyph to the row of the screen -/
theorem addCell_shown {s : Compiler} (h : s.Tracks) (cell : CharCell) :
    (s.addCell cell).Tracks ∧ (s.addCell cell).shown.above = s.shown.above ∧
      (s.addCell cell).shown.row = s.shown.row ++ [cell.glyph] := by
  cases cell with
  | blank => exact addCell_blank_shown h
  | fill value bg fg elementId => exact addCell_fill_shown h value bg fg elementId

/-- after the cells `cells` of a buffer `numCols` wide: the screen shows them in rows of this width -/
structure Shows (numCols : ℕ) (cells : List CharCell) (s : Compiler) : Prop extends s.Tracks where
  glyphs : s.shown.above.flatten ++ s.shown.row = cells.map CharCell.glyph
  full : ∀ row ∈ s.shown.above, row.length = numCols
  fits : s.shown.row.length ≤ numCols
  started : cells ≠ [] → s.shown.row ≠ []

theorem shows_init (numCols : ℕ) : Shows numCols [] init where
  fg := rfl
  bg := rfl
  fg_none _ := rfl
  bg_none _ := rfl
  glyphs := rfl
  full _ h := by cases h
  fits := Nat.zero_le _
  started h := absurd rfl h

theorem sum_length_of_full {numCols : ℕ} {rows : List (List Glyph)} (h : ∀ row ∈ rows, row.length = numCols) :
    rows.flatten.length = rows.length * numCols := by
  rw [List.length_flatten, List.eq_replicate_of_mem (l := rows.map List.length) (a := numCols) (by simpa using h)]
  simp

/-- the current row is full exactly when the next cell starts a row -/
theorem Shows.starts {numCols : ℕ} {cells : List CharCell} {s : Compiler} (h : Shows numCols cells s) :
    cells.length % numCols = 0 ↔ cells = [] ∨ s.shown.row.length = numCols := by
  have hlen := congrArg List.length h.glyphs
  rw [List.length_append, sum_length_of_full h.full, List.length_map] at hlen
  have hfits := h.fits
  constructor
  · intro hmod
    by_cases hnil : cells = []
    · exact .inl hnil
    · right
      have hpos' := List.length_pos_of_ne_nil (h.started hnil)
      rw [← hlen, Nat.mul_comm, Nat.mul_add_mod] at hmod
      by_contra hne
      rw [Nat.mod_eq_of_lt (by omega)] at hmod
      omega
  · rintro (hnil | hfull)
    · simp [hnil]
    · rw [← hlen, hfull, Nat.mul_comm, Nat.mul_add_mod, Nat.mod_self]

/-- the round of one cell adds it to what the screen shows -/
theorem round_shows {numCols : ℕ} (hpos : 0 < numCols) {cells : List CharCell} {s : Compiler}
    (h : Shows numCols cells s) (cell : CharCell) :
    Shows numCols (cells ++ [cell]) (s.round numCols (cell, cells.length)) := by
  unfold round
  dsimp only
  split_ifs with hstart
  · -- a new row
    obtain ⟨htracks, habove, hrow⟩ := addCell_shown (startRow_tracks h.toTracks cells.length) cell
    rw [startRow_shown h.toTracks] at habove hrow
    dsimp only at habove hrow
    rcases h.starts.1 hstart with hnil | hfull
    · subst hnil
      have hglyphs := List.append_eq_nil_iff.1 h.glyphs
      rw [if_neg (by simp)] at habove
      refine { htracks with glyphs := ?_, full := ?_, fits := ?_, started := ?_ }
      · rw [habove, hrow, hglyphs.1]; rfl
      · rw [habove]; exact h.full
      · rw [hrow]; exact hpos
      · rw [hrow]; simp
    · have hne : 0 < cells.length := by
        have hlen := congrArg List.length h.glyphs
        rw [List.length_append, List.length_map] at hlen
        omega
      rw [if_pos hne] at habove
      refine { htracks with glyphs := ?_, full := ?_, fits := ?_, started := ?_ }
      · rw [habove, hrow, List.flatten_concat, h.glyphs]
        simp
      · rw [habove]
        intro row hmem
        rcases List.mem_append.1 hmem with hold | hnew
        · exact h.full row hold
        · rw [List.mem_singleton.1 hnew, hfull]
      · rw [hrow]; exact hpos
      · rw [hrow]; simp
  · obtain ⟨htracks, habove, hrow⟩ := addCell_shown h.toTracks cell
    have hroom : s.shown.row.length < numCols := by
      have hne := mt h.starts.2 hstart
      have hfits := h.fits
      omega
    refine { htracks with glyphs := ?_, full := ?_, fits := ?_, started := ?_ }
    · rw [habove, hrow, ← List.append_assoc, h.glyphs]
      simp
    · rw [habove]; exact h.full
    · rw [hrow, List.length_append, List.length_singleton]; exact hroom
    · rw [hrow]; simp

theorem rounds_show {numCols : ℕ} (hpos : 0 < numCols) (cells more : List CharCell) {s : Compiler}
    (h : Shows numCols cells s) :
    Shows numCols (cells ++ more) ((more.zipIdx cells.length).foldl (Compiler.round numCols) s) := by
  induction more generalizing cells s with
  | nil => simpa using h
  | cons cell more ih =>
    have hnext := ih (cells ++ [cell]) (round_shows hpos h cell)
    simpa using hnext

end Compiler

/-! ## The window -/

/-- every line break is followed by a colour reset -/
def Resets : List Scanline → Prop
  | [] => True
  | .newline :: cmds => (∃ rest, cmds = .resetColor :: rest) ∧ Resets cmds
  | _ :: cmds => Resets cmds

theorem Resets.append {a b : List Scanline} (ha : Resets a) (hb : Resets b) : Resets (a ++ b) := by
  induction a with
  | nil => exact hb
  | cons cmd a ih =>
    cases cmd with
    | newline =>
      obtain ⟨⟨rest, rfl⟩, hrest⟩ := ha
      exact ⟨⟨rest ++ b, rfl⟩, ih hrest⟩
    | fgColor c => exact ih ha
    | bgColor c => exact ih ha
    | text t => exact ih ha
    | clearLine => exact ih ha
    | resetColor => exact ih ha

namespace Compiler

theorem finishString_resets {s : Compiler} (h : Resets s.cmds) : Resets s.finishString.cmds := by
  unfold finishString
  split_ifs
  · exact h.append trivial
  · exact h

theorem startRow_resets {s : Compiler} (h : Resets s.cmds) (i : ℕ) : Resets (s.startRow i).cmds := by
  have hbreak : Resets (s.breakRow i).cmds := by
    unfold breakRow
    split_ifs
    · exact ((finishString_resets h).append (b := [.newline, .resetColor]) ⟨⟨[], rfl⟩, trivial⟩).append trivial
    · exact (finishString_resets h).append trivial
  have hfg : Resets (s.breakRow i).carryFg.cmds := by
    unfold carryFg
    split
    · exact hbreak.append trivial
    · exact hbreak
  unfold startRow carryBg
  split
  · exact hfg.append trivial
  · exact hfg

theorem setFg_resets {s : Compiler} (h : Resets s.cmds) (fg : Color) : Resets (s.setFg fg).cmds := by
  unfold setFg
  dsimp only
  split_ifs
  · exact h
  · exact (finishString_resets h).append trivial

theorem setBg_resets {s : Compiler} (h : Resets s.cmds) (bg : Color) : Resets (s.setBg bg).cmds := by
  unfold setBg
  dsimp only
  split_ifs
  · exact h
  · exact (finishString_resets h).append trivial

theorem addCell_resets {s : Compiler} (h : Resets s.cmds) (cell : CharCell) : Resets (s.addCell cell).cmds := by
  cases cell with
  | blank =>
    unfold addCell
    dsimp only
    split_ifs
    · exact h
    · exact (finishString_resets (s := { s with inBlank := true }) h).append trivial
  | fill value bg fg elementId =>
    refine setBg_resets (setFg_resets ?_ fg) bg
    split_ifs
    · exact finishString_resets h
    · exact h

theorem rounds_reset (numCols : ℕ) (cells : List (CharCell × ℕ)) {s : Compiler} (h : Resets s.cmds) :
    Resets (cells.foldl (Compiler.round numCols) s).cmds := by
  induction cells generalizing s with
  | nil => exact h
  | cons cell cells ih =>
    refine ih (addCell_resets ?_ cell.1)
    split_ifs
    · exact startRow_resets h _
    · exact h

end Compiler

/-- a screen of all commands (`full`) and one of the commands in the window (`win`), where `cmds` are still to come and
the next one is in row `rowNum` -/
structure Windowed (startRow endRow rowNum : ℕ) (cmds : List Scanline) (full win : Terminal) : Prop where
  count : full.above.length = rowNum
  before : rowNum < startRow → win = .init
  above : startRow ≤ rowNum → win.above = (full.above.drop startRow).take (endRow - startRow)
  row : startRow ≤ rowNum → win.row = if rowNum < endRow then full.row else []
  /-- on entering the window the colours may differ, until the reset -/
  colors : startRow ≤ rowNum → rowNum < endRow →
    (win.fg = full.fg ∧ win.bg = full.bg) ∨ ∃ rest, cmds = .resetColor :: rest

/-- a command other than a line break keeps the screens together -/
theorem Windowed.exec {startRow endRow rowNum : ℕ} {cmd : Scanline} {cmds : List Scanline} {full win : Terminal}
    (h : Windowed startRow endRow rowNum (cmd :: cmds) full win) (hcmd : cmd ≠ .newline) :
    Windowed startRow endRow rowNum cmds (full.exec cmd)
      (if startRow ≤ rowNum ∧ rowNum < endRow then win.exec cmd else win) := by
  have habove : (full.exec cmd).above = full.above := by cases cmd <;> first | rfl | exact absurd rfl hcmd
  split_ifs with hin
  · have habove' : (win.exec cmd).above = win.above := by cases cmd <;> first | rfl | exact absurd rfl hcmd
    have hrow := h.row hin.1
    rw [if_pos hin.2] at hrow
    refine ⟨by rw [habove, h.count], fun hlt => absurd hlt (by omega), ?_, ?_, ?_⟩
    · intro hle
      rw [habove', habove, h.above hle]
    · intro _
      rw [if_pos hin.2]
      rcases h.colors hin.1 hin.2 with ⟨hfg, hbg⟩ | ⟨rest, hrest⟩
      · cases cmd <;> simp [Terminal.exec, hrow, hfg, hbg]
      · cases hrest
        exact hrow
    · intro _ _
      left
      rcases h.colors hin.1 hin.2 with ⟨hfg, hbg⟩ | ⟨rest, hrest⟩
      · cases cmd <;> simp [Terminal.exec, hfg, hbg]
      · cases hrest
        exact ⟨rfl, rfl⟩
  · refine ⟨by rw [habove, h.count], h.before, ?_, ?_, fun hle hlt => absurd ⟨hle, hlt⟩ hin⟩
    · intro hle
      rw [habove, h.above hle]
    · intro hle
      have hend : ¬ rowNum < endRow := fun hlt => hin ⟨hle, hlt⟩
      rw [h.row hle, if_neg hend, if_neg hend]

/-- a line break takes both screens to the next row; it may enter or leave the window -/
theorem Windowed.newline {startRow endRow rowNum : ℕ} {cmds : List Scanline} {full win : Terminal}
    (h : Windowed startRow endRow rowNum (.newline :: cmds) full win) (hreset : ∃ rest, cmds = .resetColor :: rest) :
    Windowed startRow endRow (rowNum + 1) cmds (full.exec .newline)
      (if startRow ≤ rowNum ∧ rowNum < endRow then win.exec .newline else win) := by
  have hlen := h.count
  refine ⟨by simp [Terminal.exec, hlen], ?_, ?_, ?_, fun _ _ => .inr hreset⟩
  · intro hlt
    rw [if_neg (by omega)]
    exact h.before (by omega)
  · intro hle
    split_ifs with hin
    · have hrow := h.row hin.1
      rw [if_pos hin.2] at hrow
      have hshort : (full.above.drop startRow).length < endRow - startRow := by rw [List.length_drop]; omega
      simp only [Terminal.exec]
      rw [h.above hin.1, hrow, List.drop_append_of_le_length (by omega), List.take_of_length_le (by omega),
        List.take_of_length_le (by rw [List.length_append, List.length_singleton]; omega)]
    · simp only [Terminal.exec]
      by_cases hbefore : rowNum < startRow
      · rw [h.before hbefore, List.drop_eq_nil_of_le (by rw [List.length_append, List.length_singleton]; omega)]
        exact List.take_nil.symm
      · have hlong : endRow - startRow ≤ (full.above.drop startRow).length := by rw [List.length_drop]; omega
        rw [h.above (by omega), List.drop_append_of_le_length (by omega), List.take_append_of_le_length hlong]
  · intro hle
    have hnil : (full.exec .newline).row = [] := rfl
    rw [hnil, ite_self]
    split_ifs with hin
    · rfl
    · by_cases hbefore : rowNum < startRow
      · rw [h.before hbefore]
        rfl
      · rw [h.row (by omega), if_neg (by omega)]

/-- **The window**: its screen goes along with the screen of all commands -/
theorem Windowed.run {startRow endRow rowNum : ℕ} {cmds : List Scanline} {full win : Terminal}
    (h : Windowed startRow endRow rowNum cmds full win) (hresets : Resets cmds) :
    ∃ n, Windowed startRow endRow n [] (full.run cmds) (win.run (inRange startRow endRow rowNum cmds)) := by
  induction cmds generalizing rowNum full win with
  | nil => exact ⟨rowNum, h⟩
  | cons cmd cmds ih =>
    have hwin : win.run (inRange startRow endRow rowNum (cmd :: cmds)) =
        (if startRow ≤ rowNum ∧ rowNum < endRow then win.exec cmd else win).run
          (inRange startRow endRow (if cmd = .newline then rowNum + 1 else rowNum) cmds) := by
      rw [inRange, Terminal.run_append]
      split_ifs <;> rfl
    rw [hwin, Terminal.run_cons]
    by_cases hcmd : cmd = .newline
    · subst hcmd
      rw [if_pos rfl]
      exact ih (h.newline hresets.1) hresets.2
    · have hrest : Resets cmds := by
        cases cmd with
        | newline => exact absurd rfl hcmd
        | fgColor c => exact hresets
        | bgColor c => exact hresets
        | text t => exact hresets
        | clearLine => exact hresets
        | resetColor => exact hresets
      rw [if_neg hcmd]
      exact ih (h.exec hcmd) hrest

/-- the rows of the window are those rows of the whole screen -/
theorem Windowed.rowAt {startRow endRow rowNum : ℕ} {cmds : List Scanline} {full win : Terminal}
    (h : Windowed startRow endRow rowNum cmds full win) (r : ℕ) :
    win.rowAt r = if r < endRow - startRow then full.rowAt (startRow + r) else [] := by
  have hlen := h.count
  unfold Terminal.rowAt
  by_cases hle : startRow ≤ rowNum
  · have hrow := h.row hle
    rw [h.above hle]
    by_cases hend : rowNum < endRow
    · -- the screens are in the same row
      rw [if_pos hend] at hrow
      rw [hrow, List.take_of_length_le (by rw [List.length_drop]; omega), ← List.drop_append_of_le_length (by omega),
        List.getElem?_drop]
      split_ifs with hr
      · rfl
      · rw [List.getElem?_eq_none (by rw [List.length_append, List.length_singleton]; omega)]
        rfl
    · rw [if_neg hend] at hrow
      have htake : ((full.above.drop startRow).take (endRow - startRow)).length = endRow - startRow := by
        rw [List.length_take, List.length_drop]
        omega
      split_ifs with hr
      · rw [List.getElem?_append_left (by omega), List.getElem?_take_of_lt hr, List.getElem?_drop,
          List.getElem?_append_left (by omega)]
      · rw [List.getElem?_append_right (by omega), hrow, htake]
        cases r - (endRow - startRow) <;> rfl
  · have hnone : (full.above ++ [full.row])[startRow + r]? = none :=
      List.getElem?_eq_none (by rw [List.length_append, List.length_singleton]; omega)
    rw [h.before (by omega), hnone, Option.getD_none, ite_self]
    cases r <;> rfl

/-- cell `c` of row `r`, where all rows but the last are `numCols` wide -/
theorem getElem?_rows {numCols : ℕ} {rows : List (List Glyph)} {last : List Glyph}
    (hfull : ∀ row ∈ rows, row.length = numCols) (hlast : last.length ≤ numCols) (r c : ℕ) :
    (((rows ++ [last])[r]?).getD [])[c]? = if c < numCols then (rows.flatten ++ last)[r * numCols + c]? else none := by
  induction rows generalizing r with
  | nil =>
    cases r with
    | zero =>
      split_ifs with hc
      · simp
      · simp only [List.nil_append, List.getElem?_cons_zero, Option.getD_some]
        exact List.getElem?_eq_none (by omega)
    | succ r =>
      split_ifs with hc
      · have hnone : last[(r + 1) * numCols + c]? = none := List.getElem?_eq_none (by rw [Nat.succ_mul]; omega)
        simp only [List.flatten_nil, List.nil_append, hnone]
        rfl
      · rfl
  | cons row rows ih =>
    have hrow : row.length = numCols := hfull row List.mem_cons_self
    cases r with
    | zero =>
      split_ifs with hc
      · simp only [List.cons_append, List.getElem?_cons_zero, Option.getD_some, List.flatten_cons, Nat.zero_mul,
          Nat.zero_add, List.append_assoc]
        rw [List.getElem?_append_left (by omega)]
      · simp only [List.cons_append, List.getElem?_cons_zero, Option.getD_some]
        exact List.getElem?_eq_none (by omega)
    | succ r =>
      have hrest := ih (fun row' hmem => hfull row' (List.mem_cons_of_mem _ hmem)) r
      have hskip : (row ++ (rows.flatten ++ last))[(r + 1) * numCols + c]? =
          (rows.flatten ++ last)[r * numCols + c]? := by
        rw [List.getElem?_append_right (by rw [Nat.succ_mul]; omega), hrow, Nat.succ_mul]
        congr 1
        omega
      rw [List.cons_append, List.getElem?_cons_succ, hrest, List.flatten_cons, List.append_assoc, hskip]

/-- all commands of a buffer, on a whole screen -/
theorem compileAll_shows {b : CharBuff} (hcols : 1 ≤ b.numCols) : ∃ cmds, b.compileAll = some cmds ∧ Resets cmds ∧
    ∀ r c, (Terminal.init.run cmds).glyphAt r c =
      if c < b.numCols.toNat then (b.cells[r * b.numCols.toNat + c]?).map CharCell.glyph else none := by
  have hpos : 0 < b.numCols.toNat := by
    have := UInt64.le_iff_toNat_le.1 hcols
    exact this
  have hne : ¬ (b.numCols = 0 ∧ b.cells ≠ []) := by
    rintro ⟨hzero, -⟩
    rw [hzero] at hpos
    exact absurd hpos (by decide)
  refine ⟨_, if_neg hne, ?_, ?_⟩
  · have hrounds := Compiler.rounds_reset b.numCols.toNat b.cells.zipIdx (s := Compiler.init) trivial
    exact (Compiler.finishString_resets hrounds).append trivial
  · intro r c
    have hshows := Compiler.rounds_show hpos [] b.cells (Compiler.shows_init b.numCols.toNat)
    rw [List.nil_append, List.length_nil] at hshows
    have hrun : Terminal.init.run (b.cells.zipIdx.foldl (Compiler.round b.numCols.toNat) Compiler.init).finish.cmds =
        (b.cells.zipIdx.foldl (Compiler.round b.numCols.toNat) Compiler.init).shown.exec .resetColor :=
      Terminal.run_append _ _ _
    rw [hrun]
    have hrows := getElem?_rows hshows.full hshows.fits r c
    rw [hshows.glyphs, List.getElem?_map] at hrows
    exact hrows

/-- **What a window shows.** For every buffer and every window of rows, the compiled commands put on a terminal with
default colours exactly the cells of the rows of the window, and nothing else. -/
theorem compileRows_shows (b : CharBuff) (startRow numRows : UInt64) (hcols : 1 ≤ b.numCols)
    (hrows : startRow.toNat + numRows.toNat < 2 ^ 64) : ∃ cmds, b.compileRows startRow numRows = some cmds ∧
    ∀ r c, (Terminal.init.run cmds).glyphAt r c = if r < numRows.toNat ∧ c < b.numCols.toNat then
      (b.cells[(startRow.toNat + r) * b.numCols.toNat + c]?).map CharCell.glyph else none := by
  obtain ⟨cmds, hcmds, hresets, hscreen⟩ := compileAll_shows hcols
  have hend : (startRow + numRows).toNat = startRow.toNat + numRows.toNat := by
    rw [UInt64.toNat_add, Nat.mod_eq_of_lt hrows]
  refine ⟨inRange startRow.toNat (startRow + numRows).toNat 0 cmds, by rw [CharBuff.compileRows, hcmds]; rfl, ?_⟩
  intro r c
  have hinit : Windowed startRow.toNat (startRow + numRows).toNat 0 cmds .init .init := by
    refine ⟨rfl, fun _ => rfl, fun _ => ?_, fun _ => ?_, fun _ _ => .inl ⟨rfl, rfl⟩⟩
    · simp [Terminal.init]
    · simp [Terminal.init]
  obtain ⟨n, hwin⟩ := hinit.run hresets
  have hrow := hwin.rowAt r
  have hglyph := hscreen (startRow.toNat + r) c
  unfold Terminal.glyphAt at hglyph ⊢
  rw [hrow, hend, Nat.add_sub_cancel_left]
  by_cases hr : r < numRows.toNat
  · rw [if_pos hr, hglyph]
    simp [hr]
  · rw [if_neg hr, if_neg (fun h => hr h.1)]
    rfl

/-- the second row of a buffer two columns wide: the colours of its cell are set again after the first row -/
theorem compileRows_shows_second_row : ∃ cmds,
    (⟨2, [.blank, .fill 'a' ⟨0, 0, 0⟩ ⟨255, 0, 0⟩ 1, .fill 'b' ⟨0, 0, 0⟩ ⟨255, 0, 0⟩ 1]⟩ : CharBuff).compileRows 1 1 =
      some cmds ∧
    ∀ r c, (Terminal.init.run cmds).glyphAt r c = if r < (1 : UInt64).toNat ∧ c < (2 : UInt64).toNat then
      ([.blank, .fill 'a' ⟨0, 0, 0⟩ ⟨255, 0, 0⟩ 1, .fill 'b' ⟨0, 0, 0⟩ ⟨255, 0, 0⟩ 1][((1 : UInt64).toNat + r) *
        (2 : UInt64).toNat + c]?).map CharCell.glyph else none :=
  compileRows_shows _ 1 1 (by decide) (by decide)

end Wrb.Ui
