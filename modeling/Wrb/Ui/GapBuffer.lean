/-
`GapBuffer` (`ui/forms/textarea.rs`): the text under edit, with a gap of free cells at the cursor.

Model: the fields of the source but the debug flag; a `char` is a `Char` and a cell its code point. An index out of
bounds and a failed assertion are `none`. Sizes are natural numbers: a vector's length is below 2^63.

Layers:
- the functions of the source (`new` to `toText`);
- `Text`: what a text under edit is for, the characters before and after the cursor, with its operations;
- `Represents`: the buffer is the text with `gap` zeros at the cursor (well-formed);
- one lemma for each operation: where it meets `Fits`, it does not panic and does to the buffer what the operation of
  `Text` does to the text.

Results:
- `edits_refine`: in every run whose steps all meet `Fits`, every state reached represents the text of the model, and
  the reports are those of the model.
- `realloc_shuffles`: without the condition this fails. When the gap is used up, `realloc` moves the text after the
  cursor by `gap_start + cursor` instead of `gap_size + cursor`.
-/
import Mathlib.Tactic
import Wrb.Lib.Runs

namespace Wrb.Ui

open Wrb.Runs

/-! ## The buffer -/

structure GapBuffer where
  /-- text before the cursor, a gap of zeros at the cursor, text after it -/
  buffer : List UInt32
  cursor : ℕ
  /-- current size of the gap -/
  gap : ℕ
  /-- size of the gap after a reallocation -/
  gapSize : ℕ
  lineno : ℕ
  lineStart : ℕ
deriving DecidableEq, Repr

/-- the code point of a line break -/
def NEWLINE : UInt32 := '\n'.val

/-- `char::from_u32` -/
def charFromU32 (x : UInt32) : Option Char := if h : x.isValidChar then some ⟨x, h⟩ else none

@[simp] theorem charFromU32_val (c : Char) : charFromU32 c.val = some c := by
  simp [charFromU32, c.valid]

/-- an assignment to a cell; outside the vector it panics -/
def setCell (buffer : List UInt32) (i : ℕ) (v : UInt32) : Option (List UInt32) :=
  if i < buffer.length then some (buffer.set i v) else none

namespace GapBuffer

def countLines (txt : List Char) : ℕ := txt.count '\n'

def chr (g : GapBuffer) : Option Char := g.buffer[g.cursor + g.gap]?.map fun x => (charFromU32 x).getD '\uFFFD'

/-- the loop of `find_line_start`: back to a line break, or to the first cell -/
def lineBreakBefore (buffer : List UInt32) : ℕ → Option ℕ
  | 0 => some 0
  | i + 1 => do
    let x ← buffer[i + 1]?
    if x ≠ NEWLINE then lineBreakBefore buffer i else return i + 1

/-- index of the start of the line the cursor is in -/
def findLineStart (g : GapBuffer) : Option ℕ := do
  let eof := g.chr.isNone
  let i := g.cursor - 1
  let x ← g.buffer[i]?
  if x = NEWLINE ∧ eof then return g.cursor
  let i ← lineBreakBefore g.buffer i
  if 0 < g.cursor ∧ i + 1 + g.gap < g.buffer.length ∧ g.buffer[i]? = some NEWLINE then return i + 1
  return i

/-- the cells are counted in bytes of the text, the characters written one by one from the first cell -/
def new (startText : List Char) (gapSize : ℕ) : Option GapBuffer := do
  let len := (startText.map Char.utf8Size).sum
  let g : GapBuffer :=
    { buffer := startText.map Char.val ++ List.replicate (len + gapSize - startText.length) 0
      cursor := len
      gap := gapSize
      gapSize := gapSize
      lineno := countLines startText
      lineStart := 0 }
  return { g with lineStart := ← g.findLineStart }

/-- the loop of `realloc`, from the `i`-th cell after the cursor on; `n` rounds are left -/
def moveTail (cursor gapStart : ℕ) : (n i : ℕ) → List UInt32 → Option (List UInt32)
  | 0, _, buffer => some buffer
  | n + 1, i, buffer =>
    if gapStart ≤ cursor + i then some buffer
    else do
      let ch ← buffer[cursor + i]?
      let buffer ← setCell buffer (gapStart + cursor + i) ch
      let buffer ← setCell buffer (cursor + i) 0
      moveTail cursor gapStart n (i + 1) buffer

def realloc (g : GapBuffer) : Option GapBuffer := do
  -- the new space is at the end of the buffer
  let gapStart := g.buffer.length
  let buffer := g.buffer ++ List.replicate g.gapSize 0
  return { g with buffer := ← moveTail g.cursor gapStart g.gapSize 0 buffer, gap := g.gapSize }

/-- the cursor crossed a line break: the line is `lineno` now, and its start is looked up -/
def crossLine (g : GapBuffer) (lineno : ℕ) : Option GapBuffer := do
  let g := { g with lineno := lineno }
  return { g with lineStart := ← g.findLineStart }

/-- insert a character at the cursor -/
def insert (g : GapBuffer) (ch : Char) : Option GapBuffer := do
  let g ← if g.gap = 0 then g.realloc else some g
  let x ← g.buffer[g.cursor]?
  if x ≠ 0 then none
  let buffer ← setCell g.buffer g.cursor ch.val
  let g := { g with buffer := buffer, cursor := g.cursor + 1, gap := g.gap - 1 }
  if ch = '\n' then g.crossLine (g.lineno + 1) else some g

/-- backspace at the cursor. The cell read for the line count is the one at the cursor -/
def backspace (g : GapBuffer) : Option GapBuffer := do
  if g.cursor = 0 then return g
  let chr ← g.buffer[g.cursor]?
  let buffer ← setCell g.buffer (g.cursor - 1) 0
  let g := { g with buffer := buffer, cursor := g.cursor - 1, gap := g.gap + 1 }
  if chr = NEWLINE then g.crossLine (g.lineno - 1) else some g

/-- move the cursor left, and shift the gap with it; `true` if the cursor moved -/
def left (g : GapBuffer) : Option (Bool × GapBuffer) := do
  if g.cursor = 0 then return (false, g)
  let ch ← g.buffer[g.cursor - 1]?
  let buffer ← setCell g.buffer (g.cursor - 1) 0
  let buffer ← setCell buffer (g.cursor - 1 + g.gap) ch
  let g := { g with buffer := buffer, cursor := g.cursor - 1 }
  (if ch = NEWLINE then g.crossLine (g.lineno + 1) else some g).map (true, ·)

/-- move the cursor right, and shift the gap with it; `true` if the cursor moved -/
def right (g : GapBuffer) : Option (Bool × GapBuffer) := do
  if g.cursor + g.gap = g.buffer.length then return (false, g)
  let ch ← g.buffer[g.cursor + g.gap]?
  let buffer ← setCell g.buffer (g.cursor + g.gap) 0
  let buffer ← setCell buffer g.cursor ch
  let g := { g with buffer := buffer, cursor := g.cursor + 1 }
  (if ch = NEWLINE then g.crossLine (g.lineno - 1) else some g).map (true, ·)

/-- length of the text -/
def len (g : GapBuffer) : ℕ := g.buffer.length - g.gap

def get (g : GapBuffer) (idx : ℕ) : Option Char :=
  if idx < g.cursor then g.buffer[idx]?.bind charFromU32 else g.buffer[idx + g.gap]?.bind charFromU32

/-- `to_string` -/
def toText (g : GapBuffer) : List Char := (List.range g.len).filterMap g.get

end GapBuffer

/-! ## The text under edit -/

inductive Edit where
  | insert (ch : Char)
  | backspace
  | left
  | right
deriving DecidableEq, Repr

/-- a text and a place in it -/
structure Text where
  before : List Char
  after : List Char
deriving DecidableEq, Repr

namespace Text

def cursor (t : Text) : ℕ := t.before.length

def all (t : Text) : List Char := t.before ++ t.after

/-- one edit, and whether a move of the cursor moved it -/
def edit (t : Text) : Edit → Option Bool × Text
  | .insert ch => (none, ⟨t.before ++ [ch], t.after⟩)
  | .backspace => (none, ⟨t.before.dropLast, t.after⟩)
  | .left =>
    match t.before.getLast? with
    | none => (some false, t)
    | some ch => (some true, ⟨t.before.dropLast, ch :: t.after⟩)
  | .right =>
    match t.after with
    | [] => (some false, t)
    | ch :: after => (some true, ⟨t.before ++ [ch], after⟩)

end Text

namespace GapBuffer

/-- one edit of the buffer, and what it reports -/
def edit (g : GapBuffer) : Edit → Option (Option Bool × GapBuffer)
  | .insert ch => (g.insert ch).map fun g => (none, g)
  | .backspace => g.backspace.map fun g => (none, g)
  | .left => g.left.map fun r => (some r.1, r.2)
  | .right => g.right.map fun r => (some r.1, r.2)

/-- the buffer is the text, with `gap` zeros at the cursor -/
structure Represents (g : GapBuffer) (t : Text) : Prop where
  buffer : g.buffer = t.before.map Char.val ++ (List.replicate g.gap 0 ++ t.after.map Char.val)
  cursor : g.cursor = t.before.length

/-- **When an edit is right.** An insertion finds room in the gap, or reallocates with no text after the cursor or with
exactly `gapSize` characters of text; a backspace finds a cell at the cursor -/
def Fits (g : GapBuffer) : Edit → Prop
  | .insert _ => 0 < g.gap ∨ g.cursor = g.buffer.length ∨ g.buffer.length = g.gapSize
  | .backspace => g.cursor = 0 ∨ g.cursor < g.buffer.length
  | .left => True
  | .right => True

instance (g : GapBuffer) : (e : Edit) → Decidable (g.Fits e)
  | .insert _ => inferInstanceAs (Decidable (0 < g.gap ∨ g.cursor = g.buffer.length ∨ g.buffer.length = g.gapSize))
  | .backspace => inferInstanceAs (Decidable (g.cursor = 0 ∨ g.cursor < g.buffer.length))
  | .left => .isTrue trivial
  | .right => .isTrue trivial

/-! ## The line count never gets in the way -/

theorem lineBreakBefore_isSome {buffer : List UInt32} {i : ℕ} (h : i < buffer.length) :
    ∃ j, lineBreakBefore buffer i = some j := by
  induction i with
  | zero => exact ⟨0, rfl⟩
  | succ i ih =>
    obtain ⟨j, hj⟩ := ih (by omega)
    unfold lineBreakBefore
    simp only [List.getElem?_eq_getElem h, Option.bind_eq_bind, Option.bind_some]
    split_ifs
    · exact ⟨j, hj⟩
    · exact ⟨i + 1, rfl⟩

theorem findLineStart_isSome {g : GapBuffer} (h : g.cursor - 1 < g.buffer.length) : ∃ i, g.findLineStart = some i := by
  obtain ⟨j, hj⟩ := lineBreakBefore_isSome h
  unfold findLineStart
  simp only [List.getElem?_eq_getElem h, hj, Option.bind_eq_bind, Option.bind_some]
  split_ifs
  · exact ⟨_, rfl⟩
  · exact ⟨_, rfl⟩
  · exact ⟨_, rfl⟩

/-- with a cell before the cursor the line is found, and only the line count and the start of the line change -/
theorem crossLine_cases {g : GapBuffer} (h : g.cursor - 1 < g.buffer.length) (b : Prop) [Decidable b] (lineno : ℕ) :
    ∃ n l, (if b then g.crossLine lineno else some g) = some { g with lineno := n, lineStart := l } := by
  by_cases hb : b
  · obtain ⟨l, hl⟩ := findLineStart_isSome (g := { g with lineno := lineno }) h
    refine ⟨lineno, l, ?_⟩
    rw [if_pos hb]
    simp only [crossLine, hl, Option.bind_eq_bind, Option.bind_some]
    rfl
  · exact ⟨g.lineno, g.lineStart, if_neg hb⟩

/-! ## Cells -/

theorem setCell_append {pre post buffer : List UInt32} {x v : UInt32} {i : ℕ} (hb : buffer = pre ++ x :: post)
    (hi : i = pre.length) : setCell buffer i v = some (pre ++ v :: post) := by
  subst hb hi
  simp [setCell]

theorem getElem?_cell {pre post buffer : List UInt32} {x : UInt32} {i : ℕ} (hb : buffer = pre ++ x :: post)
    (hi : i = pre.length) : buffer[i]? = some x := by
  subst hb hi
  simp

/-! ## Reallocation -/

/-- with no text left after the cursor the loop ends -/
theorem moveTail_end {cursor gapStart i : ℕ} (h : gapStart ≤ cursor + i) (n : ℕ) (buffer : List UInt32) :
    moveTail cursor gapStart n i buffer = some buffer := by
  cases n with
  | zero => rfl
  | succ n => exact if_pos h

/-- one round of the loop, where the cell it writes to is free -/
theorem moveTail_step {A B C : List UInt32} {x : UInt32} {cursor gapStart i : ℕ} (n : ℕ) (hlt : cursor + i < gapStart)
    (hfrom : cursor + i = A.length) (hto : gapStart + cursor + i = (A ++ x :: B).length) :
    moveTail cursor gapStart (n + 1) i (A ++ x :: B ++ 0 :: C) =
      moveTail cursor gapStart n (i + 1) (A ++ 0 :: B ++ x :: C) := by
  have hread : (A ++ x :: B ++ 0 :: C)[cursor + i]? = some x :=
    @getElem?_cell A (B ++ 0 :: C) _ x _ (by simp) hfrom
  have hwrite : setCell (A ++ x :: B ++ 0 :: C) (gapStart + cursor + i) x = some (A ++ x :: B ++ x :: C) :=
    setCell_append rfl hto
  have hzero : setCell (A ++ x :: B ++ x :: C) (cursor + i) 0 = some (A ++ 0 :: (B ++ x :: C)) :=
    setCell_append (x := x) (by simp) hfrom
  rw [moveTail, if_neg (by omega)]
  simp only [hread, hwrite, hzero, Option.bind_eq_bind, Option.bind_some]
  simp

/-- the loop over a text of exactly `gapSize` characters: `moved` are the characters moved so far, `rest` those left.
Only then do `gap_start + cursor` and `cursor + gap_size` name the same cell -/
theorem moveTail_exact (pre moved rest : List UInt32) :
    moveTail pre.length (pre.length + (moved.length + rest.length)) (pre.length + rest.length) moved.length
      (pre ++ List.replicate moved.length 0 ++ rest ++ List.replicate pre.length 0 ++ moved ++
        List.replicate rest.length 0) =
    some (pre ++ List.replicate (moved.length + rest.length + pre.length) 0 ++ moved ++ rest) := by
  induction rest generalizing moved with
  | nil =>
    rw [moveTail_end (by simp)]
    simp
  | cons x rest ih =>
    have hstep := @moveTail_step (pre ++ List.replicate moved.length 0) (rest ++ List.replicate pre.length 0 ++ moved)
      (List.replicate rest.length 0) x pre.length (pre.length + (moved.length + (x :: rest).length)) moved.length
      (pre.length + rest.length) (by simp) (by simp) (by simp; omega)
    have hnext := ih (moved ++ [x])
    have hlen : (moved ++ [x]).length + rest.length = moved.length + (x :: rest).length := by simp; omega
    have hzeros : List.replicate (moved ++ [x]).length (0 : UInt32) = List.replicate moved.length 0 ++ [0] := by
      rw [List.length_append, List.length_singleton, List.replicate_succ']
    rw [hlen] at hnext
    calc moveTail pre.length (pre.length + (moved.length + (x :: rest).length)) (pre.length + (x :: rest).length)
          moved.length (pre ++ List.replicate moved.length 0 ++ x :: rest ++ List.replicate pre.length 0 ++ moved ++
            List.replicate (x :: rest).length 0)
        = moveTail pre.length (pre.length + (moved.length + (x :: rest).length)) (pre.length + rest.length)
          (moved ++ [x]).length (pre ++ List.replicate (moved ++ [x]).length 0 ++ rest ++
            List.replicate pre.length 0 ++ (moved ++ [x]) ++ List.replicate rest.length 0) := by
          rw [hzeros]
          simpa [List.replicate_succ, Nat.add_assoc] using hstep
      _ = _ := by rw [hnext]; simp

namespace Represents

variable {g : GapBuffer} {t : Text}

theorem length (h : g.Represents t) : g.buffer.length = t.before.length + (g.gap + t.after.length) := by
  simp [h.buffer]

/-- the line count is no part of the text -/
theorem relined (h : g.Represents t) (n l : ℕ) : Represents { g with lineno := n, lineStart := l } t :=
  ⟨h.buffer, h.cursor⟩

theorem realloc (h : g.Represents t) (hgap : g.gap = 0) (hroom : t.after = [] ∨ g.buffer.length = g.gapSize) :
    ∃ g', g.realloc = some g' ∧ g'.Represents t ∧ g'.gap = g.gapSize ∧ g'.gapSize = g.gapSize := by
  have hlen := h.length
  have hbuf : g.buffer = t.before.map Char.val ++ t.after.map Char.val := by simpa [hgap] using h.buffer
  have hmoved : moveTail g.cursor g.buffer.length g.gapSize 0 (g.buffer ++ List.replicate g.gapSize 0) =
      some (t.before.map Char.val ++ (List.replicate g.gapSize 0 ++ t.after.map Char.val)) := by
    rcases hroom with hnil | hexact
    · rw [moveTail_end (by rw [h.cursor, hlen, hgap, hnil]; simp)]
      simp [hbuf, hnil]
    · have hsize : g.gapSize = t.before.length + t.after.length := by omega
      have hmove := moveTail_exact (t.before.map Char.val) [] (t.after.map Char.val)
      simp only [List.length_map, List.length_nil, Nat.zero_add, List.replicate_zero, List.append_nil] at hmove
      rw [h.cursor, hlen, hgap, Nat.zero_add, hbuf, hsize, List.replicate_add]
      rw [Nat.add_comm t.after.length] at hmove
      simpa using hmove
  refine ⟨{ g with
    buffer := t.before.map Char.val ++ (List.replicate g.gapSize 0 ++ t.after.map Char.val), gap := g.gapSize },
    ?_, ⟨rfl, h.cursor⟩, rfl, rfl⟩
  simp only [GapBuffer.realloc, hmoved, Option.bind_eq_bind, Option.bind_some]
  rfl

end Represents

/-! ## What each edit does -/

section Edits

variable {g : GapBuffer} {t : Text}

/-- with room in the gap, an insertion takes one cell of it -/
theorem insert_of_room (h : g.Represents t) (hgap : 0 < g.gap) (ch : Char) :
    ∃ g', g.insert ch = some g' ∧ g'.Represents ⟨t.before ++ [ch], t.after⟩ ∧ g'.gapSize = g.gapSize := by
  obtain ⟨k, hk⟩ : ∃ k, g.gap = k + 1 := ⟨g.gap - 1, by omega⟩
  have hbuf : g.buffer = t.before.map Char.val ++ 0 :: (List.replicate k 0 ++ t.after.map Char.val) := by
    rw [h.buffer, hk, List.replicate_succ, List.cons_append]
  have hcur : g.cursor = (t.before.map Char.val).length := by rw [h.cursor, List.length_map]
  have hread := getElem?_cell hbuf hcur
  have hwrite := setCell_append (v := ch.val) hbuf hcur
  let g₁ : GapBuffer := { g with
    buffer := t.before.map Char.val ++ ch.val :: (List.replicate k 0 ++ t.after.map Char.val)
    cursor := g.cursor + 1, gap := g.gap - 1 }
  have hrep : g₁.Represents ⟨t.before ++ [ch], t.after⟩ := by
    constructor
    · simp [g₁, hk]
    · simp [g₁, h.cursor]
  obtain ⟨n, l, hl⟩ := crossLine_cases (g := g₁) (by rw [hrep.length, hrep.cursor]; simp; omega) (ch = '\n')
    (g.lineno + 1)
  refine ⟨_, ?_, hrep.relined n l, rfl⟩
  rw [← hl]
  unfold insert
  rw [if_neg (by omega)]
  simp only [hread, hwrite, Option.bind_eq_bind, Option.bind_some]
  rfl

theorem insert_refines (h : g.Represents t) (hsize : 1 ≤ g.gapSize) {ch : Char} (hfits : g.Fits (.insert ch)) :
    ∃ g', g.insert ch = some g' ∧ g'.Represents ⟨t.before ++ [ch], t.after⟩ ∧ g'.gapSize = g.gapSize := by
  by_cases hgap : g.gap = 0
  · -- the gap is used up: after the reallocation there is room
    have hlen := h.length
    have hroom : t.after = [] ∨ g.buffer.length = g.gapSize := by
      rcases hfits with hpos | hend | hexact
      · omega
      · exact .inl (List.length_eq_zero_iff.1 (by rw [h.cursor] at hend; omega))
      · exact .inr hexact
    obtain ⟨g₁, h₁, hrep, hg, hs⟩ := h.realloc hgap hroom
    obtain ⟨g₂, h₂, hrep₂, hs₂⟩ := insert_of_room hrep (by omega) ch
    refine ⟨g₂, ?_, hrep₂, by rw [hs₂, hs]⟩
    rw [← h₂]
    unfold insert
    rw [if_pos hgap, if_neg (show ¬ g₁.gap = 0 by omega), h₁]
  · exact insert_of_room h (by omega) ch

theorem backspace_refines (h : g.Represents t) (hfits : g.Fits .backspace) :
    ∃ g', g.backspace = some g' ∧ g'.Represents ⟨t.before.dropLast, t.after⟩ ∧ g'.gapSize = g.gapSize := by
  by_cases hzero : g.cursor = 0
  · have hnil : t.before = [] := List.length_eq_zero_iff.1 (by rw [← h.cursor, hzero])
    refine ⟨g, if_pos hzero, ?_, rfl⟩
    rw [hnil]
    exact ⟨by rw [h.buffer, hnil]; rfl, by rw [h.cursor, hnil]; rfl⟩
  · have hlt : g.cursor < g.buffer.length := hfits.resolve_left hzero
    have hne : t.before ≠ [] := by
      intro hnil
      exact hzero (by rw [h.cursor, hnil]; rfl)
    obtain ⟨before, ch, hb⟩ : ∃ before ch, t.before = before ++ [ch] :=
      ⟨_, _, (List.dropLast_append_getLast hne).symm⟩
    have hbuf : g.buffer = before.map Char.val ++ ch.val :: (List.replicate g.gap 0 ++ t.after.map Char.val) := by
      simp [h.buffer, hb]
    have hcur : g.cursor - 1 = (before.map Char.val).length := by simp [h.cursor, hb]
    have hwrite := setCell_append (v := 0) hbuf hcur
    let g₁ : GapBuffer := { g with
      buffer := before.map Char.val ++ 0 :: (List.replicate g.gap 0 ++ t.after.map Char.val)
      cursor := g.cursor - 1, gap := g.gap + 1 }
    have hrep : g₁.Represents ⟨t.before.dropLast, t.after⟩ := by
      constructor
      · simp [g₁, hb, List.replicate_succ]
      · simp [g₁, h.cursor, hb]
    obtain ⟨n, l, hl⟩ := crossLine_cases (g := g₁) (by rw [hrep.length, hrep.cursor]; simp [g₁]; omega)
      (g.buffer[g.cursor] = NEWLINE) (g.lineno - 1)
    refine ⟨_, ?_, hrep.relined n l, rfl⟩
    rw [← hl]
    unfold backspace
    rw [if_neg hzero]
    simp only [List.getElem?_eq_getElem hlt, hwrite, Option.bind_eq_bind, Option.bind_some]
    rfl

theorem left_refines (h : g.Represents t) :
    ∃ r t' g', t.edit .left = (some r, t') ∧ g.left = some (r, g') ∧ g'.Represents t' ∧ g'.gapSize = g.gapSize := by
  rcases List.eq_nil_or_concat t.before with hnil | ⟨before, ch, hb⟩
  · have hzero : g.cursor = 0 := by rw [h.cursor, hnil]; rfl
    exact ⟨false, t, g, by simp [Text.edit, hnil], if_pos hzero, h, rfl⟩
  · rw [List.concat_eq_append] at hb
    have hbuf : g.buffer = before.map Char.val ++ ch.val :: (List.replicate g.gap 0 ++ t.after.map Char.val) := by
      simp [h.buffer, hb]
    have hcur : g.cursor - 1 = (before.map Char.val).length := by simp [h.cursor, hb]
    have hread := getElem?_cell hbuf hcur
    have hzero := setCell_append (v := 0) hbuf hcur
    -- the cell left free joins the gap at its start, and the last cell of the gap takes the character
    have hgap : before.map Char.val ++ 0 :: (List.replicate g.gap 0 ++ t.after.map Char.val) =
        (before.map Char.val ++ List.replicate g.gap 0) ++ 0 :: t.after.map Char.val := by
      rw [List.append_assoc, ← List.cons_append, ← List.replicate_succ, List.replicate_succ', List.append_assoc,
        List.singleton_append]
    have hwrite := setCell_append (v := ch.val) (i := g.cursor - 1 + g.gap) hgap (by simp [hcur])
    let g₁ : GapBuffer := { g with
      buffer := before.map Char.val ++ List.replicate g.gap 0 ++ ch.val :: t.after.map Char.val
      cursor := g.cursor - 1 }
    have hrep : g₁.Represents ⟨before, ch :: t.after⟩ := by
      constructor
      · simp [g₁]
      · simp [g₁, h.cursor, hb]
    obtain ⟨n, l, hl⟩ := crossLine_cases (g := g₁) (by rw [hrep.length, hrep.cursor]; simp; omega) (ch.val = NEWLINE)
      (g.lineno + 1)
    refine ⟨true, _, _, ?_, ?_, hrep.relined n l, rfl⟩
    · simp [Text.edit, hb]
    · unfold left
      rw [if_neg (by rw [h.cursor, hb]; simp)]
      simp only [hread, hzero, hwrite, Option.bind_eq_bind, Option.bind_some]
      exact congrArg (Option.map (Prod.mk true)) hl

theorem right_refines (h : g.Represents t) :
    ∃ r t' g', t.edit .right = (some r, t') ∧ g.right = some (r, g') ∧ g'.Represents t' ∧ g'.gapSize = g.gapSize := by
  have hlen := h.length
  have hcursor := h.cursor
  cases hb : t.after with
  | nil =>
    rw [hb, List.length_nil] at hlen
    exact ⟨false, t, g, by simp [Text.edit, hb], if_pos (by omega), h, rfl⟩
  | cons ch after =>
    rw [hb, List.length_cons] at hlen
    have hbuf : g.buffer = (t.before.map Char.val ++ List.replicate g.gap 0) ++ ch.val :: after.map Char.val := by
      simp [h.buffer, hb]
    have hcur : g.cursor + g.gap = (t.before.map Char.val ++ List.replicate g.gap (0 : UInt32)).length := by
      simp [h.cursor]
    have hread := getElem?_cell hbuf hcur
    have hzero := setCell_append (v := 0) hbuf hcur
    -- the cell left free joins the gap at its end, and the first cell of the gap takes the character
    have hgap : t.before.map Char.val ++ List.replicate g.gap 0 ++ 0 :: after.map Char.val =
        t.before.map Char.val ++ 0 :: (List.replicate g.gap 0 ++ after.map Char.val) := by
      rw [List.append_assoc, ← List.cons_append, ← List.replicate_succ, List.replicate_succ', List.append_assoc,
        List.singleton_append]
    have hwrite := setCell_append (v := ch.val) (i := g.cursor) hgap (by simp [h.cursor])
    let g₁ : GapBuffer := { g with
      buffer := t.before.map Char.val ++ ch.val :: (List.replicate g.gap 0 ++ after.map Char.val)
      cursor := g.cursor + 1 }
    have hrep : g₁.Represents ⟨t.before ++ [ch], after⟩ := by
      constructor
      · simp [g₁]
      · simp [g₁, h.cursor]
    obtain ⟨n, l, hl⟩ := crossLine_cases (g := g₁) (by rw [hrep.length, hrep.cursor]; simp; omega) (ch.val = NEWLINE)
      (g.lineno - 1)
    refine ⟨true, _, _, ?_, ?_, hrep.relined n l, rfl⟩
    · simp [Text.edit, hb]
    · unfold right
      rw [if_neg (by omega)]
      simp only [hread, hzero, hwrite, Option.bind_eq_bind, Option.bind_some]
      exact congrArg (Option.map (Prod.mk true)) hl

/-- **One edit**: where it meets `Fits`, the buffer does what the text does -/
theorem edit_refines (h : g.Represents t) (hsize : 1 ≤ g.gapSize) {e : Edit} (hfits : g.Fits e) :
    ∃ g', g.edit e = some ((t.edit e).1, g') ∧ g'.Represents (t.edit e).2 ∧ 1 ≤ g'.gapSize := by
  cases e with
  | insert ch =>
    obtain ⟨g', hg, hrep, hs⟩ := insert_refines h hsize hfits
    exact ⟨g', by simp [edit, hg, Text.edit], hrep, by omega⟩
  | backspace =>
    obtain ⟨g', hg, hrep, hs⟩ := backspace_refines h hfits
    exact ⟨g', by simp [edit, hg, Text.edit], hrep, by omega⟩
  | left =>
    obtain ⟨r, t', g', ht, hg, hrep, hs⟩ := left_refines h
    exact ⟨g', by simp [edit, hg, ht], by rwa [ht], by omega⟩
  | right =>
    obtain ⟨r, t', g', ht, hg, hrep, hs⟩ := right_refines h
    exact ⟨g', by simp [edit, hg, ht], by rwa [ht], by omega⟩

end Edits

/-! ## What is read back -/

theorem Represents.len {g : GapBuffer} {t : Text} (h : g.Represents t) : g.len = t.all.length := by
  unfold GapBuffer.len Text.all
  rw [h.length, List.length_append]
  omega

theorem Represents.get {g : GapBuffer} {t : Text} (h : g.Represents t) (i : ℕ) : g.get i = t.all[i]? := by
  unfold GapBuffer.get Text.all
  rw [h.cursor]
  split_ifs with hi
  · rw [h.buffer, List.getElem?_append_left (by simpa using hi), List.getElem?_append_left hi, List.getElem?_map]
    cases t.before[i]? with
    | none => rfl
    | some c => simp
  · have hle : t.before.length ≤ i := Nat.le_of_not_lt hi
    rw [h.buffer, List.getElem?_append_right (by simp; omega), List.getElem?_append_right (by simp; omega),
      List.getElem?_append_right hle, List.getElem?_map, List.length_map, List.length_replicate]
    rw [show i + g.gap - t.before.length - g.gap = i - t.before.length by omega]
    cases t.after[i - t.before.length]? with
    | none => rfl
    | some c => simp

theorem filterMap_getElem?_range {α : Type} (l : List α) : (List.range l.length).filterMap (l[·]?) = l := by
  induction l with
  | nil => rfl
  | cons x l ih =>
    rw [List.length_cons, List.range_succ_eq_map, List.filterMap_cons, List.filterMap_map]
    exact congrArg (x :: ·) ih

/-- a well-formed buffer reads back as its text -/
theorem Represents.toText {g : GapBuffer} {t : Text} (h : g.Represents t) : g.toText = t.all := by
  unfold GapBuffer.toText
  rw [h.len, funext h.get]
  exact filterMap_getElem?_range t.all

/-! ## Runs of edits -/

/-- what a run of edits must give: no panic, the reports of the model, and in the state reached a well-formed buffer
with the text and the cursor of the model -/
def Refines (g : GapBuffer) (t : Text) (edits : List Edit) : Prop :=
  ∃ g', runSome edit g edits = some ((runModel Text.edit t edits).1, g') ∧
    g'.Represents (runModel Text.edit t edits).2 ∧
    g'.toText = (runModel Text.edit t edits).2.all ∧ g'.cursor = (runModel Text.edit t edits).2.cursor

/-- **Edits refine the text.** From every well-formed buffer, in every run of edits that all meet `Fits`, after any
number of them the buffer has not panicked, is well-formed, and holds the text and the cursor of the model. -/
theorem edits_refine (g : GapBuffer) (t : Text) (h : g.Represents t) (hsize : 1 ≤ g.gapSize) (edits : List Edit)
    (hfits : AlwaysSome edit Fits g edits) (n : ℕ) : g.Refines t (edits.take n) := by
  have hstep : ∀ g t e, (Represents g t ∧ 1 ≤ g.gapSize) → Fits g e →
      ∃ g', edit g e = some ((t.edit e).1, g') ∧ (g'.Represents (t.edit e).2 ∧ 1 ≤ g'.gapSize) :=
    fun _ _ _ hg hf => edit_refines hg.1 hg.2 hf
  obtain ⟨g', hrun, hrep, -⟩ := runSome_refines hstep ⟨h, hsize⟩ (hfits.take n)
  exact ⟨g', hrun, hrep, hrep.toText, hrep.cursor⟩

/-- a run with a reallocation in the middle of the text: it has just the two characters of a gap -/
theorem edits_refine_exact : (⟨[0, 0], 0, 2, 2, 0, 0⟩ : GapBuffer).Refines ⟨[], []⟩
    ([.insert 'a', .insert 'b', .left, .insert 'c', .backspace, .right].take 6) :=
  edits_refine _ _ ⟨rfl, rfl⟩ (by decide) _ (by decide +kernel) 6

/-- **Without the condition text moves.** The text "a" under edit with a gap of two: after typing "bc", three moves to
the left and one more character, the text is "dcab" and not "dabc" -/
theorem realloc_shuffles : ¬ ∀ (g : GapBuffer) (t : Text) (edits : List Edit), g.Represents t → 1 ≤ g.gapSize →
    g.Refines t edits := by
  intro h
  obtain ⟨g, hrun, -, htext, -⟩ := h ⟨[97, 0, 0], 1, 2, 2, 0, 0⟩ ⟨['a'], []⟩
    [.insert 'b', .insert 'c', .left, .left, .left, .insert 'd'] ⟨rfl, rfl⟩ (by decide)
  have hgot : runSome edit ⟨[97, 0, 0], 1, 2, 2, 0, 0⟩
      [.insert 'b', .insert 'c', .left, .left, .left, .insert 'd'] =
      some ([none, none, some true, some true, some true, none], ⟨[100, 0, 99, 97, 98], 1, 1, 2, 0, 0⟩) := by
    decide +kernel
  rw [hgot] at hrun
  obtain ⟨-, rfl⟩ : _ ∧ (⟨[100, 0, 99, 97, 98], 1, 1, 2, 0, 0⟩ : GapBuffer) = g := by simpa using hrun
  exact absurd htext (by decide +kernel)

end GapBuffer

end Wrb.Ui
