/-
Moves of the cursor over a text (`ui/forms/textarea.rs`): `line_start`, `line_end`, `up`, `down`, and the keys that
edit.

Model: a text and an index in it. `At g w i` says that the buffer holds the text `w` with the cursor at `i`; a move
keeps `w` and takes `i` to the index that a definition on texts gives (`homeOf`, `endOf`, `upOf`, `downOf`).

Results: `left_at`, `right_at`, `home_at`, `end_at`, `up_at`, `down_at`, with no condition on the buffer but that it can
be read; `delete_text`, `overwrite_text` for the keys that edit.
-/
import Mathlib.Tactic
import Wrb.Lib.Wrap
import Wrb.Ui.Readable
import Wrb.Ui.TextArea

namespace Wrb.Ui

open Wrb.Wrap

/-! ## Places in a text -/

/-- the start of the line that `i` is in -/
def lineStartOf (w : List Char) (i : ℕ) : ℕ := i - (lastLine '\n' (w.take i)).length

/-- where `line_start` goes from `i`: at the end of the text, to the start of the line of the last character -/
def homeOf (w : List Char) (i : ℕ) : ℕ := lineStartOf w (if i = w.length then i - 1 else i)

/-- where `line_end` goes -/
def endOf (w : List Char) (i : ℕ) : ℕ := i + (headLine '\n' (w.drop i)).length

/-- at most `col` characters on, within the line -/
def alongLine (w : List Char) (col i : ℕ) : ℕ := i + min col (headLine '\n' (w.drop i)).length

/-- where `up` goes; `lineStart` is what the buffer takes for the start of the line -/
def upOf (w : List Char) (lineStart col i : ℕ) : ℕ :=
  if lineStart = 0 then i else alongLine w col (homeOf w (homeOf w i - 1))

/-- where `down` goes -/
def downOf (w : List Char) (col i : ℕ) : ℕ := alongLine w col (homeOf w (min (endOf w i + 1) w.length))

/-- the line starts where the text does, or behind a break, with no break up to `i` -/
theorem lineStartOf_eq {w : List Char} {start i : ℕ} (hle : start ≤ i) (hi : i ≤ w.length)
    (hline : ∀ j, start ≤ j → j < i → w[j]? ≠ some '\n') (hstart : start = 0 ∨ w[start - 1]? = some '\n') :
    lineStartOf w i = start := by
  have hno : '\n' ∉ (w.take i).drop start := by
    intro hmem
    obtain ⟨k, hk⟩ := List.mem_iff_getElem?.1 hmem
    rw [List.getElem?_drop, List.getElem?_take] at hk
    split_ifs at hk with hlt
    exact hline (start + k) (Nat.le_add_right _ _) hlt hk
  have hlen : ((w.take i).drop start).length = i - start := by
    rw [List.length_drop, List.length_take, Nat.min_eq_left hi]
  have hlast : lastLine '\n' (w.take i) = (w.take i).drop start := by
    cases start with
    | zero =>
      rw [List.drop_zero] at hno ⊢
      exact lastLine_line hno
    | succ k =>
      have hcell : (w.take i)[k]? = some '\n' := by
        rw [List.getElem?_take, if_pos (show k < i from hle)]
        exact hstart.resolve_left (Nat.succ_ne_zero k)
      obtain ⟨hlt, hget⟩ := List.getElem?_eq_some_iff.1 hcell
      have hsplit : w.take i = (w.take i).take k ++ '\n' :: (w.take i).drop (k + 1) := by
        rw [← hget, ← List.drop_eq_getElem_cons hlt, List.take_append_drop]
      calc lastLine '\n' (w.take i) = lastLine '\n' ((w.take i).take k ++ '\n' :: (w.take i).drop (k + 1)) := by
            rw [← hsplit]
        _ = (w.take i).drop (k + 1) := lastLine_append_line hno _
  rw [lineStartOf, hlast, hlen]
  omega

theorem endOf_of_break {w : List Char} {i : ℕ} (h : w[i]?.all (· = '\n')) : endOf w i = i := by
  cases hc : w[i]? with
  | none =>
    rw [endOf, List.drop_of_length_le (List.getElem?_eq_none_iff.1 hc)]
    rfl
  | some c =>
    obtain ⟨hlt, hget⟩ := List.getElem?_eq_some_iff.1 hc
    have hbreak : c = '\n' := by simpa [hc] using h
    rw [endOf, List.drop_eq_getElem_cons hlt, hget, hbreak, headLine_cons_break]
    rfl

theorem headLine_drop {w : List Char} {i : ℕ} (h : ¬ w[i]?.all (· = '\n')) :
    i < w.length ∧ (headLine '\n' (w.drop i)).length = (headLine '\n' (w.drop (i + 1))).length + 1 := by
  cases hc : w[i]? with
  | none => simp [hc] at h
  | some c =>
    obtain ⟨hlt, hget⟩ := List.getElem?_eq_some_iff.1 hc
    have hbreak : c ≠ '\n' := by simpa [hc] using h
    refine ⟨hlt, ?_⟩
    rw [List.drop_eq_getElem_cons hlt, hget, headLine_cons hbreak, List.length_cons]

/-- the line ends at the text's end or before a break, with no break from `i` to there -/
theorem endOf_eq {w : List Char} {i k : ℕ} (hle : i ≤ k) (hk : k ≤ w.length)
    (hline : ∀ j, i ≤ j → j < k → w[j]? ≠ some '\n') (hend : k = w.length ∨ w[k]? = some '\n') : endOf w i = k := by
  induction hle using Nat.decreasingInduction with
  | self =>
    apply endOf_of_break
    rcases hend with rfl | hbreak
    · simp
    · simp [hbreak]
  | of_succ i hlt ih =>
    have hne := hline i (le_refl i) hlt
    obtain ⟨-, hlen⟩ := @headLine_drop w i (by simpa [List.getElem?_eq_getElem (show i < w.length by omega)] using hne)
    have hnext := ih fun j hj hjk => hline j (Nat.le_of_succ_le hj) hjk
    rw [endOf] at hnext ⊢
    omega

/-! ## The buffer at a place -/

namespace GapBuffer

/-- the buffer holds the text `w`, with the cursor at `i`, and reallocates `size` cells -/
structure At (g : GapBuffer) (w : List Char) (i size : ℕ) : Prop where
  readable : g.Readable
  text : g.text = ⟨w.take i, w.drop i⟩
  le : i ≤ w.length
  gapSize : g.gapSize = size

variable {g : GapBuffer} {w : List Char} {i size : ℕ}

theorem Readable.at (h : g.Readable) : g.At g.text.all g.cursor g.gapSize := by
  have hlen := h.length_before
  refine ⟨h, ?_, ?_, rfl⟩
  · rw [Text.all, ← hlen, List.take_left, List.drop_left]
  · rw [Text.all, List.length_append]
    omega

theorem At.cursor (h : g.At w i size) : g.cursor = i := by
  rw [← h.readable.length_before, h.text, List.length_take, Nat.min_eq_left h.le]

theorem At.chr (h : g.At w i size) : g.chr = w[i]? := by rw [chr_text, h.text, List.head?_drop]

theorem At.length_le (h : g.At w i size) : w.length ≤ g.buffer.length := by
  have hroom := h.readable.room
  have hafter := length_after g
  rw [h.text, List.length_drop, h.cursor] at hafter
  rw [h.cursor] at hroom
  omega

theorem left_at (h : g.At w i size) : ∃ g', g.left = some (decide (0 < i), g') ∧ g'.At w (i - 1) size := by
  obtain ⟨r, g', hleft, hread, hedit, hsize⟩ := left_text h.readable
  have hle := h.le
  cases i with
  | zero =>
    rw [h.text] at hedit
    simp only [Text.edit, List.take_zero, List.getLast?_nil, Prod.mk.injEq, Option.some.injEq] at hedit
    exact ⟨g', by simp [hleft, hedit.1], hread, by simp [hedit.2], Nat.zero_le _, hsize.trans h.gapSize⟩
  | succ i =>
    rw [h.text, List.take_succ_eq_append_getElem (by omega)] at hedit
    simp only [Text.edit, List.getLast?_append_cons, List.getLast?_singleton, List.dropLast_concat, Prod.mk.injEq,
      Option.some.injEq] at hedit
    refine ⟨g', by simp [hleft, hedit.1], hread, ?_, by omega, hsize.trans h.gapSize⟩
    rw [hedit.2, Nat.add_sub_cancel, ← List.drop_eq_getElem_cons (show i < w.length by omega)]

theorem right_at (h : g.At w i size) :
    ∃ g', g.right = some (decide (i < w.length), g') ∧ g'.At w (min (i + 1) w.length) size := by
  obtain ⟨r, g', hright, hread, hedit, hsize⟩ := right_text h.readable
  have hle := h.le
  by_cases hlt : i < w.length
  · rw [h.text, List.drop_eq_getElem_cons hlt] at hedit
    simp only [Text.edit, Prod.mk.injEq, Option.some.injEq] at hedit
    refine ⟨g', by simp [hright, hedit.1, hlt], hread, ?_, Nat.min_le_right _ _, hsize.trans h.gapSize⟩
    rw [hedit.2, Nat.min_eq_left hlt, List.take_succ_eq_append_getElem hlt]
  · have heq : i = w.length := by omega
    rw [h.text, heq, List.drop_length] at hedit
    simp only [Text.edit, Prod.mk.injEq, Option.some.injEq] at hedit
    refine ⟨g', by simp [hright, hedit.1, hlt], hread, ?_, Nat.min_le_right _ _, hsize.trans h.gapSize⟩
    rw [hedit.2, Nat.min_eq_right (by omega), List.drop_length]

/-! ## Moves over a line -/

/-- `leftWhile` stops at the first place from `i` back where `p` fails, or at the start of the text -/
theorem leftWhile_at {p : Option Char → Bool} {fuel : ℕ} (h : g.At w i size) (hfuel : i < fuel) :
    ∃ k g', g.leftWhile p fuel = some g' ∧ g'.At w k size ∧ k ≤ i ∧ (k = 0 ∨ p w[k]? = false) ∧
      ∀ j, k < j → j ≤ i → p w[j]? = true := by
  induction fuel generalizing g i with
  | zero => omega
  | succ fuel ih =>
    cases hp : p w[i]? with
    | false =>
      refine ⟨i, g, ?_, h, le_refl i, Or.inr hp, fun j hj hle => by omega⟩
      rw [leftWhile, if_neg (by simp [h.chr, hp])]
    | true =>
      obtain ⟨g₁, hleft, h₁⟩ := left_at h
      have hgo : p g.chr = true := by rw [h.chr, hp]
      have hstep : g.leftWhile p (fuel + 1) = if 0 < i then g₁.leftWhile p fuel else some g₁ := by
        simp only [leftWhile, hgo, if_true, hleft, Option.bind_eq_bind, Option.bind_some, decide_eq_true_eq]
      rw [hstep]
      by_cases hzero : 0 < i
      · obtain ⟨k, g', hloop, hat, hle, hstop, hpassed⟩ := ih h₁ (by omega)
        refine ⟨k, g', by rw [if_pos hzero, hloop], hat, by omega, hstop, ?_⟩
        intro j hj hji
        rcases Nat.lt_or_eq_of_le hji with hlt | rfl
        · exact hpassed j hj (by omega)
        · exact hp
      · have hi : i = 0 := by omega
        subst hi
        exact ⟨0, g₁, if_neg hzero, h₁, le_refl 0, Or.inl rfl, fun j hj hle => by omega⟩

/-- `rightWhile` stops at the first place from `i` on where `p` fails, or at the end of the text -/
theorem rightWhile_at {p : Option Char → Bool} {fuel : ℕ} (h : g.At w i size) (hfuel : w.length < fuel + i) :
    ∃ k g', g.rightWhile p fuel = some g' ∧ g'.At w k size ∧ i ≤ k ∧ (k = w.length ∨ p w[k]? = false) ∧
      ∀ j, i ≤ j → j < k → p w[j]? = true := by
  induction fuel generalizing g i with
  | zero =>
    have hle := h.le
    omega
  | succ fuel ih =>
    cases hp : p w[i]? with
    | false =>
      refine ⟨i, g, ?_, h, le_refl i, Or.inr hp, fun j hj hlt => by omega⟩
      rw [rightWhile, if_neg (by simp [h.chr, hp])]
    | true =>
      obtain ⟨g₁, hright, h₁⟩ := right_at h
      have hgo : p g.chr = true := by rw [h.chr, hp]
      have hstep : g.rightWhile p (fuel + 1) = if i < w.length then g₁.rightWhile p fuel else some g₁ := by
        simp only [rightWhile, hgo, if_true, hright, Option.bind_eq_bind, Option.bind_some, decide_eq_true_eq]
      rw [hstep]
      by_cases hlt : i < w.length
      · rw [Nat.min_eq_left hlt] at h₁
        obtain ⟨k, g', hloop, hat, hle, hstop, hpassed⟩ := ih h₁ (by omega)
        refine ⟨k, g', by rw [if_pos hlt, hloop], hat, by omega, hstop, ?_⟩
        intro j hj hjk
        rcases Nat.lt_or_eq_of_le hj with hij | rfl
        · exact hpassed j hij hjk
        · exact hp
      · have hle := h.le
        have heq : i = w.length := by omega
        rw [heq, Nat.min_eq_right (by omega)] at h₁
        exact ⟨w.length, g₁, if_neg hlt, h₁, by omega, Or.inl rfl, fun j hj hjk => by omega⟩

/-- the test of the loops that stay in a line -/
theorem stays_iff {c : Option Char} : c.all (· ≠ '\n') = true ↔ c ≠ some '\n' := by
  cases c <;> simp

theorem stops_iff {c : Option Char} : c.all (· ≠ '\n') = false ↔ c = some '\n' := by
  cases c <;> simp

theorem rightInLine_at (h : g.At w i size) (col : ℕ) :
    ∃ g', g.rightInLine col = some g' ∧ g'.At w (alongLine w col i) size := by
  induction col generalizing g i with
  | zero =>
    rw [alongLine, Nat.zero_min, Nat.add_zero]
    exact ⟨g, rfl, h⟩
  | succ col ih =>
    by_cases hbreak : w[i]?.all (· = '\n')
    · refine ⟨g, by rw [rightInLine, h.chr, if_pos hbreak], ?_⟩
      have hend := endOf_of_break hbreak
      have hnone : (headLine '\n' (w.drop i)).length = 0 := by
        rw [endOf] at hend
        omega
      rw [alongLine, hnone, Nat.min_zero, Nat.add_zero]
      exact h
    · obtain ⟨hlt, hlen⟩ := headLine_drop hbreak
      obtain ⟨g₁, hright, h₁⟩ := right_at h
      rw [Nat.min_eq_left hlt] at h₁
      obtain ⟨g', hloop, hat⟩ := ih h₁
      refine ⟨g', ?_, ?_⟩
      · rw [rightInLine, h.chr, if_neg hbreak, hright]
        exact hloop
      · rw [alongLine, hlen]
        rw [alongLine] at hat
        rwa [show i + min (col + 1) ((headLine '\n' (w.drop (i + 1))).length + 1) =
          i + 1 + min col (headLine '\n' (w.drop (i + 1))).length by omega]

/-! ## Moves -/

theorem end_at (h : g.At w i size) : ∃ b g', g.moveToLineEnd = some (b, g') ∧ g'.At w (endOf w i) size := by
  have hle := h.length_le
  obtain ⟨k, g', hloop, hat, hik, hstop, hpassed⟩ := 
    @rightWhile_at g w i size (fun c => c.all (· ≠ '\n')) (g.buffer.length + 1) h (by omega)
  have hend : endOf w i = k := by
    apply endOf_eq hik hat.le
    · intro j hj hjk
      exact stays_iff.1 (hpassed j hj hjk)
    · exact hstop.imp_right stops_iff.1
  refine ⟨decide (g'.cursor = g.cursor), g', ?_, hend ▸ hat⟩
  simp only [moveToLineEnd, hloop, Option.bind_eq_bind, Option.bind_some]
  rfl

/-- the last two steps of `line_start`, from a place with no break between it and `i` -/
theorem backToStart_at {q : ℕ} (h : g.At w q size) (hq : q < w.length) (hqi : q ≤ i) (hi : i ≤ w.length)
    (hline : ∀ j, q < j → j < i → w[j]? ≠ some '\n') (hbreak : q = i → w[q]? ≠ some '\n') :
    ∃ k g₁ g', g.leftWhile (fun c => c.all (· ≠ '\n')) (g.buffer.length + 1) = some g₁ ∧ g₁.At w k size ∧
      (if g₁.chr.all (· = '\n') then g₁.right else some (true, g₁)) = some (true, g') ∧
      g'.At w (lineStartOf w i) size := by
  have hlen := h.length_le
  obtain ⟨k, g₁, hloop, h₁, hkq, hstop, hpassed⟩ :=
    @leftWhile_at g w q size (fun c => c.all (· ≠ '\n')) (g.buffer.length + 1) h (by omega)
  have hline' : ∀ j, k < j → j < i → w[j]? ≠ some '\n' := by
    intro j hj hji
    by_cases hjq : j ≤ q
    · exact stays_iff.1 (hpassed j hj hjq)
    · exact hline j (by omega) hji
  by_cases hk : w[k]? = some '\n'
  · obtain ⟨g', hright, h'⟩ := right_at h₁
    rw [Nat.min_eq_left (by omega)] at h'
    have hki : k < i := by
      by_contra hnot
      rw [show k = q by omega] at hk
      exact hbreak (by omega) hk
    refine ⟨k, g₁, g', hloop, h₁, ?_, ?_⟩
    · rw [if_pos (by simp [h₁.chr, hk]), hright]
      simp [show k < w.length by omega]
    · rwa [lineStartOf_eq (show k + 1 ≤ i from hki) hi (fun j hj => hline' j hj) (Or.inr hk)]
  · have hzero : k = 0 := hstop.resolve_right (mt stops_iff.1 hk)
    subst hzero
    refine ⟨0, g₁, g₁, hloop, h₁, ?_, ?_⟩
    · rw [if_neg]
      rw [h₁.chr, List.getElem?_eq_getElem (by omega)]
      simpa [List.getElem?_eq_getElem (show 0 < w.length by omega)] using hk
    · rw [lineStartOf_eq (Nat.zero_le i) hi ?_ (Or.inl rfl)]
      · exact h₁
      · intro j _ hji
        rcases Nat.eq_zero_or_pos j with rfl | hpos
        · exact hk
        · exact hline' j hpos hji

theorem ite_bind {α β : Type} {c : Prop} [Decidable c] (a b : Option α) (f : α → Option β) :
    (if c then a else b).bind f = if c then a.bind f else b.bind f := apply_ite (fun o => Option.bind o f) c a b

/-- `line_start`, one step after the other -/
theorem moveToLineStart_eq (g : GapBuffer) :
    g.moveToLineStart =
      (if g.chr.isNone then g.left else some (true, g)).bind fun r₁ =>
        if r₁.1 = false then some (false, r₁.2) else
          (if r₁.2.chr.all (· = '\n') then r₁.2.left else some (true, r₁.2)).bind fun r₂ =>
            if r₂.1 = false then some (false, r₂.2) else
              (leftWhile (fun c => c.all (· ≠ '\n')) (r₂.2.buffer.length + 1) r₂.2).bind fun g₃ =>
                (if g₃.chr.all (· = '\n') then g₃.right else some (true, g₃)).bind fun r₄ =>
                  if r₄.1 = false then some (false, r₄.2) else some (decide (r₄.2.cursor = g.cursor), r₄.2) := by
  simp only [ite_bind, Option.bind_some]
  rfl

/-- **Home**: `line_start` goes to `homeOf` -/
theorem home_at (h : g.At w i size) : ∃ b g', g.moveToLineStart = some (b, g') ∧ g'.At w (homeOf w i) size := by
  have hle := h.le
  let p := if i = w.length then i - 1 else i
  have hp : p ≤ w.length := by
    simp only [p]
    split_ifs
    · omega
    · exact hle
  -- at the end of the text, to the last character
  have hfirst : ∃ g₁, (if g.chr.isNone then g.left else some (true, g)) = some (decide (0 < w.length), g₁) ∧
      g₁.At w p size := by
    by_cases hend : i = w.length
    · obtain ⟨g₁, hleft, h₁⟩ := left_at h
      refine ⟨g₁, ?_, by rwa [show p = i - 1 from if_pos hend]⟩
      rw [if_pos (by simp [h.chr, hend]), hleft, hend]
    · refine ⟨g, ?_, by rwa [show p = i from if_neg hend]⟩
      rw [if_neg (by simp [h.chr, show i < w.length by omega])]
      simp [show 0 < w.length by omega]
  obtain ⟨g₁, hstep₁, h₁⟩ := hfirst
  have hzero : p = 0 → lineStartOf w p = 0 := fun h => by rw [h, lineStartOf, Nat.zero_sub]
  rw [moveToLineStart_eq, hstep₁, Option.bind_some, show homeOf w i = lineStartOf w p from rfl]
  by_cases hnil : w.length = 0
  · refine ⟨false, g₁, by simp [hnil], ?_⟩
    rwa [hzero (by omega), show 0 = p by omega]
  · have hlt : p < w.length := by
      simp only [p]
      split_ifs
      · omega
      · omega
    rw [if_neg (by simpa using List.length_eq_zero_iff.not.1 hnil)]
    by_cases hbreak : w[p]? = some '\n'
    · -- on a break: it ends the line
      obtain ⟨g₂, hleft, h₂⟩ := left_at h₁
      rw [if_pos (by simp [h₁.chr, hbreak]), hleft, Option.bind_some]
      by_cases hpos : 0 < p
      · obtain ⟨k, g₃, g', hloop, -, hright, hat⟩ := @backToStart_at g₂ w p size (p - 1) h₂ (by omega) (by omega) hp
          (fun j hj hji => by omega) (fun heq => by omega)
        rw [if_neg (by simpa using Nat.ne_of_gt hpos), hloop, Option.bind_some, hright, Option.bind_some]
        exact ⟨_, g', if_neg (by simp), hat⟩
      · refine ⟨false, g₂, if_pos (by simpa using hpos), ?_⟩
        rwa [hzero (by omega), show 0 = p - 1 by omega]
    · obtain ⟨k, g₃, g', hloop, -, hright, hat⟩ := @backToStart_at g₁ w p size p h₁ hlt (le_refl p) hp
        (fun j hj hji => by omega) (fun _ => hbreak)
      rw [if_neg (by simp [h₁.chr, List.getElem?_eq_getElem hlt] at hbreak ⊢; exact hbreak), Option.bind_some,
        if_neg (by simp), hloop, Option.bind_some, hright, Option.bind_some]
      exact ⟨_, g', if_neg (by simp), hat⟩

/-- **Up** -/
theorem up_at (h : g.At w i size) (col : ℕ) : ∃ g', g.up col = some g' ∧ g'.At w (upOf w g.lineStart col i) size := by
  by_cases hline : g.lineStart = 0
  · refine ⟨g, if_pos hline, ?_⟩
    rwa [upOf, if_pos hline]
  · obtain ⟨b₁, g₁, hhome₁, h₁⟩ := home_at h
    obtain ⟨g₂, hleft, h₂⟩ := left_at h₁
    obtain ⟨b₃, g₃, hhome₃, h₃⟩ := home_at h₂
    obtain ⟨g', hloop, hat⟩ := rightInLine_at h₃ col
    refine ⟨g', ?_, ?_⟩
    · rw [up, if_neg hline]
      simp only [hhome₁, hleft, hhome₃, Option.bind_eq_bind, Option.bind_some]
      exact hloop
    · rwa [upOf, if_neg hline]

/-- **Down** -/
theorem down_at (h : g.At w i size) (col : ℕ) : ∃ g', g.down col = some g' ∧ g'.At w (downOf w col i) size := by
  obtain ⟨b₁, g₁, hend, h₁⟩ := end_at h
  obtain ⟨g₂, hright, h₂⟩ := right_at h₁
  obtain ⟨b₃, g₃, hhome, h₃⟩ := home_at h₂
  obtain ⟨g', hloop, hat⟩ := rightInLine_at h₃ col
  refine ⟨g', ?_, hat⟩
  rw [down]
  simp only [hend, hright, hhome, Option.bind_eq_bind, Option.bind_some]
  exact hloop

/-! ## Words -/

/-- `left_word` from `i`: over white space to `j`, over a word to `k`, and one step back. Nothing is passed over but
white space down to `j`, and no white space from there down to `k` -/
theorem leftWord_at (h : g.At w i size) :
    ∃ j k g₁ g₂ g' b r, g.leftWhile (fun c => c.all isWhitespace) (g.buffer.length + 1) = some g₁ ∧
      g₁.leftWhile (fun c => !c.all isWhitespace) (g₁.buffer.length + 1) = some g₂ ∧ g₂.At w k size ∧
      g₂.right = some (r, g') ∧ g'.At w (min (k + 1) w.length) size ∧ g.leftWord = some (b, g') ∧ k ≤ j ∧ j ≤ i ∧
      (∀ l, j < l → l ≤ i → w[l]?.all isWhitespace = true) ∧
      (∀ l, k < l → l ≤ j → w[l]?.all isWhitespace = false) ∧ (j = 0 ∨ w[j]?.all isWhitespace = false) := by
  have hlen := h.length_le
  have hle := h.le
  obtain ⟨j, g₁, hloop₁, h₁, hji, hstop₁, hpassed₁⟩ :=
    @leftWhile_at g w i size (fun c => c.all isWhitespace) (g.buffer.length + 1) h (by omega)
  have hlen₁ := h₁.length_le
  obtain ⟨k, g₂, hloop₂, h₂, hkj, -, hpassed₂⟩ :=
    @leftWhile_at g₁ w j size (fun c => !c.all isWhitespace) (g₁.buffer.length + 1) h₁ (by omega)
  obtain ⟨g', hright, h'⟩ := right_at h₂
  refine ⟨j, k, g₁, g₂, g', decide (g'.cursor = g.cursor), _, hloop₁, hloop₂, h₂, hright, h', ?_, hkj, hji, hpassed₁,
    ?_, hstop₁⟩
  · unfold leftWord
    simp only [hloop₁, hloop₂, hright, Option.bind_eq_bind, Option.bind_some]
    rfl
  · intro l hkl hlj
    simpa using hpassed₂ l hkl hlj

theorem rightWord_at (h : g.At w i size) :
    ∃ k g' b, g.rightWhile (fun c => c.all isWhitespace) (g.buffer.length + 1) = some g' ∧ g'.At w k size ∧
      g.rightWord = some (b, g') ∧ i ≤ k ∧ ∀ l, i ≤ l → l < k → w[l]?.all isWhitespace = true := by
  have hlen := h.length_le
  obtain ⟨k, g', hloop, h', hik, -, hpassed⟩ :=
    @rightWhile_at g w i size (fun c => c.all isWhitespace) (g.buffer.length + 1) h (by omega)
  refine ⟨k, g', decide (g'.cursor = g.cursor), hloop, h', ?_, hik, hpassed⟩
  unfold rightWord
  simp only [hloop, Option.bind_eq_bind, Option.bind_some]
  rfl

/-! ## Keys that edit -/

section Edits

variable {g' : GapBuffer}

/-- **Delete** moves right, and is a backspace then: at the end of the text it takes the last character -/
theorem delete_text (h : g.Readable) (hg : g.delete = some g') :
    g'.Readable ∧ g'.text = ((g.text.edit .right).2.edit .backspace).2 ∧ g'.gapSize = g.gapSize := by
  obtain ⟨r, g₁, hright, hread, hedit, hsize⟩ := right_text h
  obtain ⟨r', hr', hg⟩ := Option.bind_eq_some_iff.1 hg
  rw [hright] at hr'
  cases hr'
  obtain ⟨hread', htext, hsize'⟩ := backspace_text hread hg
  rw [← hedit]
  exact ⟨hread', htext, hsize'.trans hsize⟩

theorem overwrite_text {ch : Char} (h : g.Readable) (hsize : 1 ≤ g.gapSize) (hg : g.overwrite ch = some g') :
    g'.Readable ∧ g'.text.before = g.text.before ++ [ch] ∧ g'.text.after.length = g.text.after.tail.length ∧
      g'.gapSize = g.gapSize := by
  unfold overwrite at hg
  split_ifs at hg with hend
  · obtain ⟨hread, hbefore, hafter, hsize'⟩ := insert_text h hsize hg
    refine ⟨hread, hbefore, ?_, hsize'⟩
    rw [hafter, h.after_eq_nil_iff.2 hend]
    rfl
  · obtain ⟨c, after, hc⟩ := List.exists_cons_of_ne_nil (mt h.after_eq_nil_iff.1 hend)
    obtain ⟨g₃, hreplace, hg⟩ := Option.bind_eq_some_iff.1 hg
    obtain ⟨g₁, hdelete, hreplace⟩ := Option.bind_eq_some_iff.1 hreplace
    obtain ⟨g₂, hinsert, hreplace⟩ := Option.bind_eq_some_iff.1 hreplace
    obtain ⟨hread₁, htext₁, hsize₁⟩ := delete_text h hdelete
    obtain ⟨hread₂, hbefore₂, hafter₂, hsize₂⟩ := insert_text hread₁ (by omega) hinsert
    obtain ⟨r₃, g₃', hleft, hread₃, hedit₃, hsize₃⟩ := left_text hread₂
    rw [hleft] at hreplace
    cases hreplace
    obtain ⟨r₄, g₄, hright, hread₄, hedit₄, hsize₄⟩ := right_text hread₃
    rw [hright] at hg
    cases hg
    have htext₁' : g₁.text = ⟨g.text.before, after⟩ := by simp [htext₁, Text.edit, hc]
    have htext₃ : g₃.text = ⟨g.text.before, ch :: g₂.text.after⟩ := by
      have heq := congrArg Prod.snd hedit₃
      simpa [Text.edit, hbefore₂, htext₁'] using heq
    have htext₄ : g'.text = ⟨g.text.before ++ [ch], g₂.text.after⟩ := by
      have heq := congrArg Prod.snd hedit₄
      simpa [Text.edit, htext₃] using heq
    refine ⟨hread₄, by rw [htext₄], ?_, by omega⟩
    rw [htext₄, hafter₂, htext₁', hc]
    rfl

end Edits

end GapBuffer

end Wrb.Ui
