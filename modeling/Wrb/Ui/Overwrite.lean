/-
Deleting and overwriting at the cursor (`GapBuffer::{delete, replace, overwrite}` in `ui/forms/textarea.rs`).

The source composes them of moves, a backspace and an insertion: `delete` is `right` and `backspace`, `overwrite`
inserts at the end of the text, and elsewhere deletes, inserts, and moves left and right. `Text.rewrite` is what they
are for.

* `rewrite_iff`: from a well-formed buffer they do that exactly where `Rewritable` holds: a deletion has a character
  at the cursor (or no text at all), and while it is under way there is a cell at the cursor for `backspace` to read.
* `delete_at_end`: at the end of "a", a deletion takes the "a".
-/
import Mathlib.Tactic
import Wrb.Ui.Readable
import Wrb.Ui.TextArea

namespace Wrb.Ui

inductive Rewrite where
  | delete
  | overwrite (ch : Char)
deriving DecidableEq, Repr

/-- the character at the cursor goes, or gives way to another one; the cursor never moves left -/
def Text.rewrite (t : Text) : Rewrite → Text
  | .delete => ⟨t.before, t.after.tail⟩
  | .overwrite ch => ⟨t.before ++ [ch], t.after.tail⟩

namespace GapBuffer

def rewrite (g : GapBuffer) : Rewrite → Option GapBuffer
  | .delete => g.delete
  | .overwrite ch => g.overwrite ch

/-- the cell that `backspace` reads is there: in the gap, or behind the character at the cursor -/
def CellBehind (g : GapBuffer) (t : Text) : Prop := 0 < g.gap ∨ 2 ≤ t.after.length

/-- when a deletion or an overwriting is right -/
def Rewritable (g : GapBuffer) (t : Text) : Rewrite → Prop
  | .delete => if t.after = [] then t.before = [] else g.CellBehind t
  | .overwrite _ => if t.after = [] then 0 < g.gap ∨ 0 < g.gapSize else g.CellBehind t

instance (g : GapBuffer) (t : Text) : Decidable (g.CellBehind t) :=
  inferInstanceAs (Decidable (0 < g.gap ∨ 2 ≤ t.after.length))

instance (g : GapBuffer) (t : Text) : (r : Rewrite) → Decidable (g.Rewritable t r)
  | .delete => inferInstanceAs (Decidable (if t.after = [] then t.before = [] else g.CellBehind t))
  | .overwrite _ =>
    inferInstanceAs (Decidable (if t.after = [] then 0 < g.gap ∨ 0 < g.gapSize else g.CellBehind t))

variable {g g' : GapBuffer} {t : Text}

/-! ## The gap -/

theorem gap_of_right {r : Bool} (h : g.right = some (r, g')) : g'.gap = g.gap := by
  unfold right at h
  split_ifs at h
  · cases h
    rfl
  · obtain ⟨x, -, h⟩ := Option.bind_eq_some_iff.1 h
    obtain ⟨buffer₁, -, h⟩ := Option.bind_eq_some_iff.1 h
    obtain ⟨buffer₂, -, h⟩ := Option.bind_eq_some_iff.1 h
    obtain ⟨g₁, hline, h⟩ := Option.map_eq_some_iff.1 h
    obtain ⟨n, l, rfl⟩ := crossLine_eq hline
    cases h
    rfl

theorem gap_of_backspace (hzero : g.cursor ≠ 0) (h : g.backspace = some g') : g'.gap = g.gap + 1 := by
  unfold backspace at h
  rw [if_neg hzero] at h
  obtain ⟨x, -, h⟩ := Option.bind_eq_some_iff.1 h
  obtain ⟨buffer, -, h⟩ := Option.bind_eq_some_iff.1 h
  obtain ⟨n, l, rfl⟩ := crossLine_eq h
  rfl

/-- a backspace with no cell at the cursor panics -/
theorem backspace_none (hzero : g.cursor ≠ 0) (h : g.buffer.length ≤ g.cursor) : g.backspace = none := by
  unfold backspace
  rw [if_neg hzero, List.getElem?_eq_none h]
  rfl

/-- a buffer is one text -/
theorem Represents.unique {t' : Text} (h : g.Represents t) (h' : g.Represents t') : t = t' := by
  have hlen : t.before.length = t'.before.length := by rw [← h.cursor, ← h'.cursor]
  have hall : t.all = t'.all := by rw [← h.toText, ← h'.toText]
  obtain ⟨hbefore, hafter⟩ := List.append_inj hall hlen
  cases t
  cases t'
  rw [Text.mk.injEq]
  exact ⟨hbefore, hafter⟩

/-! ## Deleting -/

/-- at the end of the text a deletion is a backspace -/
theorem delete_of_nil (h : g.Represents t) (hnil : t.after = []) : g.delete = g.backspace := by
  have hlen := h.length
  rw [hnil, List.length_nil] at hlen
  have hend : g.cursor + g.gap = g.buffer.length := by rw [h.cursor, hlen]; rfl
  unfold delete right
  rw [if_pos hend]
  rfl

/-- elsewhere it takes the character at the cursor, and leaves a gap -/
theorem delete_of_cons (h : g.Represents t) {ch : Char} {after : List Char} (hcons : t.after = ch :: after)
    (hcell : g.CellBehind t) : ∃ g', g.delete = some g' ∧ g'.Represents ⟨t.before, after⟩ ∧ 0 < g'.gap := by
  obtain ⟨r, t₁, g₁, hedit, hright, hrep, -⟩ := right_refines h
  have hgap := gap_of_right hright
  have ht₁ : t₁ = ⟨t.before ++ [ch], after⟩ := by
    rw [Text.edit, hcons] at hedit
    exact (congrArg Prod.snd hedit).symm
  subst ht₁
  have hcursor : g₁.cursor ≠ 0 := by simp [hrep.cursor]
  have hfits : g₁.Fits .backspace := by
    unfold CellBehind at hcell
    simp only [hcons, List.length_cons] at hcell
    refine Or.inr ?_
    rw [hrep.length, hrep.cursor]
    show (t.before ++ [ch]).length < (t.before ++ [ch]).length + (g₁.gap + after.length)
    omega
  obtain ⟨g₂, hback, hrep₂, -⟩ := backspace_refines hrep hfits
  refine ⟨g₂, ?_, ?_, ?_⟩
  · unfold delete
    rw [hright]
    exact hback
  · simpa using hrep₂
  · rw [gap_of_backspace hcursor hback]
    exact Nat.succ_pos _

/-- without a cell behind the character it panics -/
theorem delete_none (h : g.Represents t) (hne : t.after ≠ []) (hcell : ¬ g.CellBehind t) : g.delete = none := by
  obtain ⟨ch, after, hcons⟩ := List.exists_cons_of_ne_nil hne
  obtain ⟨r, t₁, g₁, hedit, hright, hrep, -⟩ := right_refines h
  have hgap := gap_of_right hright
  have ht₁ : t₁ = ⟨t.before ++ [ch], after⟩ := by
    rw [Text.edit, hcons] at hedit
    exact (congrArg Prod.snd hedit).symm
  subst ht₁
  unfold CellBehind at hcell
  simp only [hcons, List.length_cons] at hcell
  have hback : g₁.backspace = none := by
    apply backspace_none
    · simp [hrep.cursor]
    · rw [hrep.length, hrep.cursor]
      show (t.before ++ [ch]).length + (g₁.gap + after.length) ≤ (t.before ++ [ch]).length
      omega
  unfold delete
  rw [hright]
  exact hback

theorem delete_iff (h : g.Represents t) :
    (∃ g', g.delete = some g' ∧ g'.Represents ⟨t.before, t.after.tail⟩) ↔
      if t.after = [] then t.before = [] else g.CellBehind t := by
  by_cases hnil : t.after = []
  · rw [if_pos hnil, delete_of_nil h hnil, hnil, List.tail_nil]
    apply Iff.intro
    · rintro ⟨g', hback, hrep⟩
      by_contra hne
      have hpos : g.cursor ≠ 0 := by
        rw [h.cursor]
        simpa using hne
      by_cases hcell : g.cursor < g.buffer.length
      · -- the backspace takes the character before the cursor
        obtain ⟨g₁, hback₁, hrep₁, -⟩ := backspace_refines h (Or.inr hcell)
        rw [hback] at hback₁
        cases hback₁
        have heq : t.before.dropLast = t.before := congrArg Text.before (hrep₁.unique hrep)
        have hlen := congrArg List.length heq
        rw [List.length_dropLast] at hlen
        have hlen' := List.length_pos_of_ne_nil hne
        omega
      · rw [backspace_none hpos (Nat.le_of_not_lt hcell)] at hback
        cases hback
    · intro hempty
      obtain ⟨g', hback, hrep, -⟩ := backspace_refines h (Or.inl (by rw [h.cursor, hempty]; rfl))
      refine ⟨g', hback, ?_⟩
      rw [hempty, hnil] at hrep
      rw [hempty]
      exact hrep
  · rw [if_neg hnil]
    obtain ⟨ch, after, hcons⟩ := List.exists_cons_of_ne_nil hnil
    apply Iff.intro
    · rintro ⟨g', hdelete, -⟩
      by_contra hcell
      rw [delete_none h hnil hcell] at hdelete
      cases hdelete
    · intro hcell
      obtain ⟨g', hdelete, hrep, -⟩ := delete_of_cons h hcons hcell
      exact ⟨g', hdelete, by rwa [hcons, List.tail_cons]⟩

/-! ## Overwriting -/

theorem realloc_zero (hgap : g.gap = 0) (hsize : g.gapSize = 0) : g.realloc = some g := by
  cases g
  cases hgap
  cases hsize
  simp [realloc, moveTail]

/-- with no gap, and none to come from a reallocation, there is no cell to insert into -/
theorem insert_none (h : g.Represents t) (hnil : t.after = []) (hgap : g.gap = 0) (hsize : g.gapSize = 0) {ch : Char} :
    g.insert ch = none := by
  have hlen := h.length
  rw [hnil, List.length_nil, Nat.add_zero, hgap] at hlen
  have hread : g.buffer[g.cursor]? = none := by
    apply List.getElem?_eq_none
    rw [hlen, h.cursor, Nat.add_zero]
  unfold insert
  rw [if_pos hgap, realloc_zero hgap hsize]
  simp [hread]

/-- at the end of the text, an insertion: there is room in the gap, or a reallocation makes room -/
theorem insert_at_end (h : g.Represents t) (hnil : t.after = []) (ch : Char) :
    (∃ g', g.insert ch = some g' ∧ g'.Represents ⟨t.before ++ [ch], []⟩) ↔ 0 < g.gap ∨ 0 < g.gapSize := by
  have hlen := h.length
  rw [hnil, List.length_nil, Nat.add_zero] at hlen
  apply Iff.intro
  · rintro ⟨g', hinsert, -⟩
    by_contra hnone
    rw [insert_none h hnil (by omega) (by omega)] at hinsert
    cases hinsert
  · intro hroom
    by_cases hgap : g.gap = 0
    · have hend : g.cursor = g.buffer.length := by
        rw [hlen, h.cursor]
        omega
      have hfits : g.Fits (.insert ch) := Or.inr (Or.inl hend)
      obtain ⟨g', hinsert, hrep, -⟩ := insert_refines h (by omega) hfits
      exact ⟨g', hinsert, hnil ▸ hrep⟩
    · obtain ⟨g', hinsert, hrep, -⟩ := insert_of_room h (by omega) ch
      exact ⟨g', hinsert, hnil ▸ hrep⟩

/-- elsewhere a deletion makes the room, and the two moves cancel out -/
theorem replace_of_cons (h : g.Represents t) {old : Char} {after : List Char} (hcons : t.after = old :: after)
    (hcell : g.CellBehind t) (ch : Char) : ∃ g', g.replace ch = some g' ∧ g'.Represents ⟨t.before, ch :: after⟩ := by
  obtain ⟨g₁, hdelete, hrep₁, hgap⟩ := delete_of_cons h hcons hcell
  obtain ⟨g₂, hinsert, hrep₂, -⟩ := insert_of_room hrep₁ hgap ch
  obtain ⟨r, t₃, g₃, hedit, hleft, hrep₃, -⟩ := left_refines hrep₂
  have ht₃ : t₃ = ⟨t.before, ch :: after⟩ := by simpa [Text.edit] using (congrArg Prod.snd hedit).symm
  subst ht₃
  refine ⟨g₃, ?_, hrep₃⟩
  unfold replace
  simp only [hdelete, hinsert, hleft, Option.bind_eq_bind, Option.bind_some]
  rfl

theorem overwrite_iff (h : g.Represents t) (ch : Char) :
    (∃ g', g.overwrite ch = some g' ∧ g'.Represents ⟨t.before ++ [ch], t.after.tail⟩) ↔
      if t.after = [] then 0 < g.gap ∨ 0 < g.gapSize else g.CellBehind t := by
  have hlen := h.length
  by_cases hnil : t.after = []
  · have hend : g.cursor + g.gap = g.buffer.length := by
      rw [hlen, h.cursor, hnil]
      rfl
    rw [if_pos hnil, overwrite, if_pos hend, hnil, List.tail_nil]
    exact insert_at_end h hnil ch
  · obtain ⟨old, after, hcons⟩ := List.exists_cons_of_ne_nil hnil
    have hend : g.cursor + g.gap ≠ g.buffer.length := by
      rw [hlen, h.cursor, hcons, List.length_cons]
      omega
    rw [if_neg hnil, overwrite, if_neg hend]
    apply Iff.intro
    · rintro ⟨g', hreplace, -⟩
      by_contra hcell
      unfold replace at hreplace
      rw [delete_none h hnil hcell] at hreplace
      cases hreplace
    · intro hcell
      obtain ⟨g₁, hreplace, hrep₁⟩ := replace_of_cons h hcons hcell ch
      obtain ⟨r, t₂, g₂, hedit, hright, hrep₂, -⟩ := right_refines hrep₁
      have ht₂ : t₂ = ⟨t.before ++ [ch], after⟩ := (congrArg Prod.snd hedit).symm
      subst ht₂
      refine ⟨g₂, ?_, by rwa [hcons, List.tail_cons]⟩
      simp only [hreplace, hright, Option.bind_eq_bind, Option.bind_some]
      rfl

/-- **A deletion and an overwriting are right exactly where `Rewritable` holds.** -/
theorem rewrite_iff (h : g.Represents t) (r : Rewrite) :
    (∃ g', g.rewrite r = some g' ∧ g'.Represents (t.rewrite r)) ↔ g.Rewritable t r := by
  cases r with
  | delete => exact delete_iff h
  | overwrite ch => exact overwrite_iff h ch

theorem rewrite_iff_middle :
    (∃ g', (⟨[97, 0, 98, 99], 1, 1, 8, 0, 0⟩ : GapBuffer).rewrite (.overwrite 'x') = some g' ∧
        g'.Represents (Text.rewrite ⟨['a'], ['b', 'c']⟩ (.overwrite 'x'))) ↔
      (⟨[97, 0, 98, 99], 1, 1, 8, 0, 0⟩ : GapBuffer).Rewritable ⟨['a'], ['b', 'c']⟩ (.overwrite 'x') :=
  rewrite_iff ⟨rfl, rfl⟩ _

/-- **At the end of the text a deletion takes the last character.** The buffer is the new one of "a" with a gap of 8 -/
theorem delete_at_end :
    new ['a'] 8 = some ⟨[97, 0, 0, 0, 0, 0, 0, 0, 0], 1, 8, 8, 0, 0⟩ ∧
      ¬ ∀ (g : GapBuffer) (t : Text) (r : Rewrite), g.Represents t →
        ∃ g', g.rewrite r = some g' ∧ g'.Represents (t.rewrite r) := by
  refine ⟨by decide +kernel, ?_⟩
  intro h
  obtain ⟨g', hdelete, hrep⟩ := h ⟨[97, 0, 0, 0, 0, 0, 0, 0, 0], 1, 8, 8, 0, 0⟩ ⟨['a'], []⟩ .delete ⟨rfl, rfl⟩
  have hgot : (⟨[97, 0, 0, 0, 0, 0, 0, 0, 0], 1, 8, 8, 0, 0⟩ : GapBuffer).rewrite .delete =
      some ⟨[0, 0, 0, 0, 0, 0, 0, 0, 0], 0, 9, 8, 0, 0⟩ := by decide +kernel
  rw [hgot] at hdelete
  cases hdelete
  exact absurd hrep.cursor (by decide)

/-- with the gap used up, a deletion of the last character panics -/
example : (⟨[97], 0, 0, 1, 0, 0⟩ : GapBuffer).delete = none := by decide +kernel

end GapBuffer

end Wrb.Ui
