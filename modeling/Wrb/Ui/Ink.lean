/-
What a form paints, apart from what it is painted on.

Printing to a buffer puts a layer of cells on it that depends on the width of the buffer only, not on its cells
(`CharBuff.Inks`), and so does painting a form (`Form.paint_inks`). `Form.inkOn` is this layer: what the form leaves on
an empty viewport. Whether a form can be painted does not depend on where it starts (`Form.inkOn_isSome`).
-/
import Mathlib.Tactic
import Wrb.Lib.Overlay
import Wrb.Ui.Forms

namespace Wrb.Ui

open Wrb.Overlay

namespace CharBuff

/-- printing puts one layer of cells on the buffer, whatever is on it, and ends at the same place -/
def Inks (how : CharBuff → Option (Coord × CharBuff)) : Prop :=
  ∀ b, how b = (how (CharBuff.new b.numCols)).map fun r => (r.1, ⟨b.numCols, overlay .blank b.cells r.2.cells⟩)

theorem cellOf_ne_blank (elementId : ℕ) (bg fg : Color) (c : Char) : cellOf elementId bg fg c ≠ .blank := by
  rw [cellOf_eq]
  exact nofun

/-- no cell of a printed text is blank -/
theorem map_cellOf_ne_blank (elementId : ℕ) (bg fg : Color) (text : List Char) :
    ∀ o ∈ text.map (cellOf elementId bg fg), o ≠ .blank := by
  intro o ho
  obtain ⟨c, -, rfl⟩ := List.mem_map.1 ho
  exact cellOf_ne_blank elementId bg fg c

theorem writeText_append (elementId : ℕ) (bg fg : Color) (text : List Char) (a b : List CharCell) :
    writeText elementId bg fg text a.length (a ++ b) = a ++ overlay .blank b (text.map (cellOf elementId bg fg)) := by
  induction text generalizing a b with
  | nil => rw [List.map_nil, overlay_nil_right]; rfl
  | cons c text ih =>
    have hnext := fun rest => ih (a ++ [cellOf elementId bg fg c]) rest
    rw [List.length_append, List.length_singleton] at hnext
    unfold writeText writeCell
    cases b with
    | nil =>
      have hrest := hnext []
      rw [List.append_nil] at hrest ⊢
      rw [if_neg (Nat.lt_irrefl _), hrest, overlay_nil_left, overlay_nil_left, List.map_cons, List.append_assoc,
        List.singleton_append]
    | cons x b =>
      have hset : (a ++ x :: b).set a.length (cellOf elementId bg fg c) = a ++ [cellOf elementId bg fg c] ++ b := by
        rw [List.set_append_right _ _ (Nat.le_refl _), Nat.sub_self, List.set_cons_zero, List.append_assoc,
          List.singleton_append]
      rw [if_pos (by simp), hset, hnext b, List.map_cons, overlay_cons, if_neg (cellOf_ne_blank elementId bg fg c),
        List.append_assoc, List.singleton_append]

/-- the loop of `print_at_iter` after its padding -/
theorem writeText_padded (elementId : ℕ) (bg fg : Color) (text : List Char) (offset : ℕ) (cells : List CharCell) :
    writeText elementId bg fg text offset (cells ++ List.replicate (offset - cells.length) .blank) =
      overlay .blank cells (List.replicate offset .blank ++ text.map (cellOf elementId bg fg)) := by
  rcases Nat.le_total offset cells.length with hle | hge
  · obtain ⟨a, b, rfl, rfl⟩ : ∃ a b, cells = a ++ b ∧ offset = a.length :=
      ⟨cells.take offset, cells.drop offset, (List.take_append_drop _ _).symm, (List.length_take_of_le hle).symm⟩
    rw [Nat.sub_eq_zero_of_le hle, List.replicate_zero, List.append_nil, writeText_append, overlay_append]
  · obtain ⟨k, rfl⟩ := Nat.exists_eq_add_of_le hge
    have hpad := writeText_append elementId bg fg text (cells ++ List.replicate k .blank) []
    rw [List.length_append, List.length_replicate, List.append_nil, overlay_nil_left] at hpad
    have hblank := overlay_append CharCell.blank cells []
      (List.replicate k .blank ++ text.map (cellOf elementId bg fg))
    rw [List.append_nil, overlay_nil_left] at hblank
    rw [Nat.add_sub_cancel_left, hpad, List.replicate_add, List.append_assoc, List.append_assoc, hblank]

theorem printAt_inks (elementId : ℕ) (start : Coord) (bg fg : Color) (text : List Char) :
    Inks fun b => b.printAt elementId start bg fg text := by
  intro b
  unfold printAt
  dsimp only [CharBuff.new]
  split_ifs
  · rfl
  · rw [writeText_padded, writeText_padded, overlay_nil_left]
    rfl

/-- printing nothing -/
theorem inks_some (ret : Coord) : Inks fun b => some (ret, b) := by
  intro b
  simp [CharBuff.new]

theorem Inks.bind {how : CharBuff → Option (Coord × CharBuff)} {next : Coord → CharBuff → Option (Coord × CharBuff)}
    (h : Inks how) (hnext : ∀ ret, Inks (next ret)) : Inks fun b => (how b).bind fun r => next r.1 r.2 := by
  intro b
  dsimp only
  rw [h b]
  cases hink : how (CharBuff.new b.numCols) with
  | none => rfl
  | some r =>
    obtain ⟨ret, ink⟩ := r
    have hcols : ink.numCols = b.numCols := by
      have hself := h (CharBuff.new b.numCols)
      change how (CharBuff.new b.numCols) = (how (CharBuff.new b.numCols)).map _ at hself
      rw [hink, Option.map_some] at hself
      exact congrArg (fun r => r.2.numCols) (Option.some.inj hself)
    rw [Option.map_some, Option.bind_some, Option.bind_some, hnext ret ⟨_, _⟩, hnext ret ink, hcols, Option.map_map]
    dsimp only [Function.comp_def]
    simp only [overlay_assoc]

/-- the way to print may depend on the width -/
theorem inks_of_numCols {how : UInt64 → CharBuff → Option (Coord × CharBuff)} (h : ∀ numCols, Inks (how numCols)) :
    Inks fun b => how b.numCols b :=
  fun b => h b.numCols b

theorem inks_ite {c : Prop} [Decidable c] {how how' : CharBuff → Option (Coord × CharBuff)} (h : Inks how)
    (h' : Inks how') : Inks fun b => if c then how b else how' b := by
  by_cases hc : c
  · simpa only [if_pos hc] using h
  · simpa only [if_neg hc] using h'

theorem printParts_inks (elementId : ℕ) (bg fg : Color) (parts : List PrintPartType) (row idx : UInt64) (ret : Coord) :
    Inks (printParts elementId bg fg parts row idx ret) := by
  induction parts generalizing row idx ret with
  | nil => exact inks_some ret
  | cons part parts ih =>
    cases part with
    | newline => exact ih (row + 1) 0 ret
    | word text len =>
      have hword : ∀ numCols : UInt64, Inks fun b =>
          if idx + len < numCols then (b.printAt elementId (row, idx) bg fg text).bind fun r =>
            printParts elementId bg fg parts (if 1 ≤ len / numCols then row + len / numCols else row)
              (idx + len) r.1 r.2
          else (b.printAt elementId (row + 1, 0) bg fg text).bind fun r =>
            printParts elementId bg fg parts (if 1 ≤ len / numCols then row + 1 + len / numCols else row + 1)
              (len % numCols) r.1 r.2 := by
        intro numCols
        refine inks_ite ?_ ?_
        · exact (printAt_inks elementId _ bg fg text).bind fun ret => ih _ _ ret
        · exact (printAt_inks elementId _ bg fg text).bind fun ret => ih _ _ ret
      exact inks_of_numCols hword

theorem innerPrint_inks (elementId : ℕ) (start : Coord) (bg fg : Color) (text : List Char) (newline : Bool) :
    Inks fun b => b.innerPrint elementId start bg fg text newline :=
  (printParts_inks elementId bg fg (splitParts text []) start.1 start.2 start).bind fun ret =>
    inks_some (if newline then (ret.1 + 1, 0) else ret)

/-- whether there is anything to print decides whether a width of zero is a panic -/
theorem printParts_isSome (elementId : ℕ) (bg fg : Color) (parts : List PrintPartType) (row idx : UInt64) (ret : Coord)
    (b : CharBuff) : (printParts elementId bg fg parts row idx ret b).isSome =
      (decide (b.numCols ≠ 0) || parts.all fun part => decide (part = .newline)) := by
  induction parts generalizing row idx ret b with
  | nil => simp [printParts]
  | cons part parts ih =>
    cases part with
    | newline =>
      rw [printParts, ih]
      simp
    | word text len =>
      rw [printParts]
      by_cases hcols : b.numCols = 0
      · simp [printAt, hcols]
      · split_ifs
        all_goals simp [printAt, hcols, ih]

theorem exists_printParts {b : CharBuff} (hcols : b.numCols ≠ 0) (elementId : ℕ) (bg fg : Color)
    (parts : List PrintPartType) (row idx : UInt64) (ret : Coord) :
    ∃ ret' b', printParts elementId bg fg parts row idx ret b = some (ret', b') := by
  have hsome := printParts_isSome elementId bg fg parts row idx ret b
  rw [decide_eq_true hcols, Bool.true_or] at hsome
  obtain ⟨⟨ret', b'⟩, hr⟩ := Option.isSome_iff_exists.1 hsome
  exact ⟨ret', b', hr⟩

theorem innerPrint_isSome (b : CharBuff) (elementId : ℕ) (start start' : Coord) (bg fg : Color) (text : List Char)
    (newline : Bool) : (b.innerPrint elementId start bg fg text newline).isSome =
      (b.innerPrint elementId start' bg fg text newline).isSome := by
  have hsome : ∀ start : Coord, (b.innerPrint elementId start bg fg text newline).isSome =
      (printParts elementId bg fg (splitParts text []) start.1 start.2 start b).isSome := by
    intro start
    unfold innerPrint
    cases printParts elementId bg fg (splitParts text []) start.1 start.2 start b <;> rfl
  rw [hsome, hsome, printParts_isSome, printParts_isSome]

end CharBuff

namespace Viewport

/-- painting on a viewport is printing to its buffer, in a way that puts one layer on it -/
def Inks (how : Viewport → Option (Coord × Viewport)) : Prop :=
  ∃ print : CharBuff → Option (Coord × CharBuff), CharBuff.Inks print ∧
    ∀ v, (how v).map (fun r => (r.1, r.2.buff)) = print v.buff

@[simp] theorem updateElementCoord_buff (v : Viewport) (elementId : ℕ) (start : Coord) :
    (v.updateElementCoord elementId start).buff = v.buff := by
  unfold updateElementCoord
  split <;> rfl

theorem printWith_inks (elementId : ℕ) (start : Coord) {print : CharBuff → Option (Coord × CharBuff)}
    (h : CharBuff.Inks print) : Inks fun v => v.printWith elementId start print := by
  refine ⟨print, h, ?_⟩
  intro v
  unfold printWith
  dsimp only
  rw [updateElementCoord_buff, Option.map_map]
  cases print v.buff <;> rfl

theorem inks_some (ret : Coord) : Inks fun v => some (ret, v) :=
  ⟨fun b => some (ret, b), CharBuff.inks_some ret, fun _ => rfl⟩

theorem Inks.bind {how : Viewport → Option (Coord × Viewport)} {next : Coord → Viewport → Option (Coord × Viewport)}
    (h : Inks how) (hnext : ∀ ret, Inks (next ret)) : Inks fun v => (how v).bind fun r => next r.1 r.2 := by
  obtain ⟨print, hprint, hhow⟩ := h
  choose rest hrest hnext using hnext
  refine ⟨fun b => (print b).bind fun r => rest r.1 r.2, hprint.bind hrest, ?_⟩
  intro v
  dsimp only
  rw [← hhow v]
  cases how v with
  | none => rfl
  | some r => exact hnext r.1 r.2

theorem inks_of_numCols {how : UInt64 → Viewport → Option (Coord × Viewport)} (h : ∀ numCols, Inks (how numCols)) :
    Inks fun v => how v.buff.numCols v := by
  choose print hprint hhow using h
  exact ⟨fun b => print b.numCols b, CharBuff.inks_of_numCols hprint, fun v => hhow v.buff.numCols v⟩

theorem inks_ite {c : Prop} [Decidable c] {how how' : Viewport → Option (Coord × Viewport)} (h : Inks how)
    (h' : Inks how') : Inks fun v => if c then how v else how' v := by
  by_cases hc : c
  · simpa only [if_pos hc] using h
  · simpa only [if_neg hc] using h'

theorem printTo_inks (elementId : ℕ) (start : Coord) (bg fg : Color) (text : List Char) :
    Inks fun v => v.printTo elementId start bg fg text :=
  printWith_inks elementId start (CharBuff.printAt_inks elementId start bg fg text)

end Viewport

/-! ## Forms -/

theorem PrintText.paint_inks (f : PrintText) (cursor : Coord) : Viewport.Inks (f.paint cursor) :=
  Viewport.inks_ite (Viewport.printWith_inks _ _ (CharBuff.innerPrint_inks _ _ _ _ _ true))
    (Viewport.printWith_inks _ _ (CharBuff.innerPrint_inks _ _ _ _ _ false))

theorem Button.paint_inks (f : Button) (focused : Bool) : Viewport.Inks (f.paint focused) :=
  Viewport.inks_ite (Viewport.printTo_inks _ _ _ _ _) (Viewport.printTo_inks _ _ _ _ _)

theorem TextLine.paint_inks (f : TextLine) (focused : Bool) : Viewport.Inks (f.paint focused) := by
  have hpadded : ∀ numCols : UInt64, Viewport.Inks fun v =>
      v.printTo f.elementId (f.row, f.col) (if focused then f.focusedBgColor else f.bgColor)
        (if focused then f.focusedFgColor else f.fgColor)
        (f.innerText ++ List.replicate (min (numCols.toNat - f.col.toNat) f.maxLen - f.innerText.length) ' ') :=
    fun _ => Viewport.printTo_inks _ _ _ _ _
  exact Viewport.inks_of_numCols hpadded

theorem Checkbox.paintOptions_inks (f : Checkbox) (bg fg : Color) (options : List CheckboxOption) (i : ℕ)
    (cursor : Coord) : Viewport.Inks (f.paintOptions bg fg options i cursor) := by
  induction options generalizing i cursor with
  | nil => exact Viewport.inks_some cursor
  | cons option options ih =>
    exact (Viewport.printWith_inks f.elementId _ (CharBuff.printAt_inks f.elementId _ _ _ _)).bind fun cursor =>
      ih (i + 1) cursor

/-- **A form puts one layer of cells on its viewport** -/
theorem Form.paint_inks (f : Form) (focused : Bool) (cursor : Coord) : Viewport.Inks (f.paint focused cursor) := by
  cases f with
  | print f => exact f.paint_inks cursor
  | text f => exact Viewport.printTo_inks _ _ _ _ _
  | button f => exact f.paint_inks focused
  | checkbox f => exact f.paintOptions_inks _ _ f.options 0 cursor
  | textLine f => exact f.paint_inks focused
  | textArea f => exact Viewport.printWith_inks _ _ (CharBuff.printAt_inks _ _ _ _ _)

/-- the layer that a form puts on a viewport, and where it ends: what it leaves on an empty one -/
def Form.inkOn (f : Form) (focused : Bool) (cursor : Coord) (numCols : UInt64) : Option (Coord × List CharCell) :=
  (f.paint focused cursor (Viewport.new 0 0 0 0 numCols)).map fun r => (r.1, r.2.buff.cells)

namespace Form

variable {f : Form} {focused : Bool} {cursor : Coord}

theorem paint_eq (f : Form) (focused : Bool) (cursor : Coord) (v : Viewport) :
    (f.paint focused cursor v).map (fun r => (r.1, r.2.buff.cells)) =
      (f.inkOn focused cursor v.buff.numCols).map fun r => (r.1, overlay .blank v.buff.cells r.2) := by
  obtain ⟨print, hinks, hprint⟩ := f.paint_inks focused cursor
  have hon := hprint v
  have hempty := hprint (Viewport.new 0 0 0 0 v.buff.numCols)
  have hlayer := hinks v.buff
  calc (f.paint focused cursor v).map (fun r => (r.1, r.2.buff.cells))
    _ = (print v.buff).map fun r => (r.1, r.2.cells) := by rw [← hon, Option.map_map]; rfl
    _ = (print (CharBuff.new v.buff.numCols)).map fun r => (r.1, overlay .blank v.buff.cells r.2.cells) := by
        rw [hlayer, Option.map_map]; rfl
    _ = (f.inkOn focused cursor v.buff.numCols).map fun r => (r.1, overlay .blank v.buff.cells r.2) := by
        unfold inkOn
        rw [show CharBuff.new v.buff.numCols = (Viewport.new 0 0 0 0 v.buff.numCols).buff from rfl, ← hempty,
          Option.map_map, Option.map_map]
        rfl

/-- painting puts the layer of the form on the viewport -/
theorem exists_inkOn {v v' : Viewport} {ret : Coord} (h : f.paint focused cursor v = some (ret, v')) :
    ∃ ink, f.inkOn focused cursor v.buff.numCols = some (ret, ink) ∧
      v'.buff.cells = overlay .blank v.buff.cells ink := by
  have heq := f.paint_eq focused cursor v
  rw [h, Option.map_some] at heq
  obtain ⟨⟨ret', ink⟩, hink, hpair⟩ := Option.map_eq_some_iff.1 heq.symm
  obtain ⟨rfl, hcells⟩ := Prod.ext_iff.1 hpair
  exact ⟨ink, hink, hcells.symm⟩

theorem exists_paint {v : Viewport} {ret : Coord} {ink : List CharCell}
    (h : f.inkOn focused cursor v.buff.numCols = some (ret, ink)) :
    ∃ v', f.paint focused cursor v = some (ret, v') ∧ v'.buff.cells = overlay .blank v.buff.cells ink := by
  have heq := f.paint_eq focused cursor v
  rw [h, Option.map_some] at heq
  obtain ⟨⟨ret', v'⟩, hpaint, hpair⟩ := Option.map_eq_some_iff.1 heq
  obtain ⟨rfl, hcells⟩ := Prod.ext_iff.1 hpair
  exact ⟨v', hpaint, hcells⟩

/-- **Where a form starts does not decide whether it can be painted** -/
theorem inkOn_isSome (f : Form) (focused : Bool) (cursor cursor' : Coord) (numCols : UInt64) :
    (f.inkOn focused cursor numCols).isSome = (f.inkOn focused cursor' numCols).isSome := by
  unfold inkOn
  rw [Option.isSome_map, Option.isSome_map]
  cases f with
  | print f =>
    have hstart : ∀ (v : Viewport) (start start' : Coord) (newline : Bool),
        (v.printWith f.elementId start fun b => b.innerPrint f.elementId start f.bgColor f.fgColor
          f.text newline).isSome =
        (v.printWith f.elementId start' fun b =>
          b.innerPrint f.elementId start' f.bgColor f.fgColor f.text newline).isSome := by
      intro v start start' newline
      unfold Viewport.printWith
      dsimp only
      rw [Option.isSome_map, Option.isSome_map, Viewport.updateElementCoord_buff, Viewport.updateElementCoord_buff]
      exact CharBuff.innerPrint_isSome _ _ _ _ _ _ _ _
    unfold paint PrintText.paint
    dsimp only
    split_ifs
    · exact hstart _ _ _ true
    · exact hstart _ _ _ false
  | text f => rfl
  | button f => rfl
  | checkbox f =>
    unfold paint Checkbox.paint
    dsimp only
    cases f.options with
    | nil => rfl
    | cons option options => rfl
  | textLine f => rfl
  | textArea f => rfl

end Form

end Wrb.Ui
