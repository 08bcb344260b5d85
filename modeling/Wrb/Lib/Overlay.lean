/-
Layers of cells, one on top of the other. A blank cell of the upper layer lets the lower one through.

`overlay_assoc`, `overlay_nil_left`, `overlay_nil_right`: layers form a monoid, so that painting in several steps is
painting one layer. `overlay_eq_left_iff`: painting a layer again changes nothing exactly when it shows (`Shows`).
-/
import Mathlib.Tactic

namespace Wrb.Overlay

variable {α : Type} [DecidableEq α] (blank : α)

def overlay : (lower upper : List α) → List α
  | lower, [] => lower
  | [], upper => upper
  | u :: lower, o :: upper => (if o = blank then u else o) :: overlay lower upper

/-- the cells of `upper` that are not blank are seen in `l`, and `l` is long enough -/
structure Shows (l upper : List α) : Prop where
  length_le : upper.length ≤ l.length
  cell : ∀ (i : ℕ) o, upper[i]? = some o → o ≠ blank → l[i]? = some o

@[simp] theorem overlay_nil_right (lower : List α) : overlay blank lower [] = lower := by
  cases lower <;> rfl

@[simp] theorem overlay_nil_left (upper : List α) : overlay blank [] upper = upper := by
  cases upper <;> rfl

@[simp] theorem overlay_cons (u o : α) (lower upper : List α) :
    overlay blank (u :: lower) (o :: upper) = (if o = blank then u else o) :: overlay blank lower upper := rfl

theorem overlay_assoc (a b c : List α) :
    overlay blank (overlay blank a b) c = overlay blank a (overlay blank b c) := by
  induction a generalizing b c with
  | nil => rw [overlay_nil_left, overlay_nil_left]
  | cons x a ih =>
    cases b with
    | nil => rw [overlay_nil_right, overlay_nil_left]
    | cons y b =>
      cases c with
      | nil => rw [overlay_nil_right, overlay_nil_right]
      | cons z c =>
        rw [overlay_cons, overlay_cons, overlay_cons, overlay_cons, ih]
        by_cases hz : z = blank
        · rw [if_pos hz, if_pos hz]
        · rw [if_neg hz, if_neg hz, if_neg hz]

/-- a layer whose first cells are blank leaves them as they are -/
theorem overlay_append (a b c : List α) :
    overlay blank (a ++ b) (List.replicate a.length blank ++ c) = a ++ overlay blank b c := by
  induction a with
  | nil => rfl
  | cons x a ih =>
    rw [List.cons_append, List.length_cons, List.replicate_succ, List.cons_append, overlay_cons, if_pos rfl, ih,
      List.cons_append]

theorem length_overlay (lower upper : List α) : (overlay blank lower upper).length = max lower.length upper.length := by
  induction lower generalizing upper with
  | nil => simp
  | cons u lower ih =>
    cases upper with
    | nil => simp
    | cons o upper => rw [overlay_cons, List.length_cons, ih, List.length_cons, List.length_cons, Nat.succ_max_succ]

theorem getElem?_overlay (lower upper : List α) (i : ℕ) :
    (overlay blank lower upper)[i]? = match upper[i]? with
      | none => lower[i]?
      | some o => if o = blank then some (lower[i]?.getD blank) else some o := by
  induction lower generalizing upper i with
  | nil =>
    rw [overlay_nil_left]
    cases h : upper[i]? with
    | none => rfl
    | some o => by_cases ho : o = blank <;> simp [ho]
  | cons u lower ih =>
    cases upper with
    | nil => rw [overlay_nil_right]; rfl
    | cons o upper =>
      cases i with
      | zero => by_cases ho : o = blank <;> simp [ho]
      | succ i => exact ih upper i

/-- before the place of a layer that starts further on, the lower one is seen, with blank cells where it has none -/
theorem getElem?_overlay_before (lower upper : List α) {start i : ℕ} (hlt : i < start) :
    (overlay blank lower (List.replicate start blank ++ upper))[i]? = some (lower[i]?.getD blank) := by
  have hblank : (List.replicate start blank ++ upper)[i]? = some blank := by
    rw [List.getElem?_append_left (by simpa using hlt), List.getElem?_replicate, if_pos hlt]
  rw [getElem?_overlay, hblank]
  exact if_pos rfl

/-- and from there on the upper one, as far as it goes -/
theorem getElem?_overlay_from (lower : List α) {upper : List α} (hne : ∀ o ∈ upper, o ≠ blank) {start i : ℕ}
    (hge : start ≤ i) :
    (overlay blank lower (List.replicate start blank ++ upper))[i]? = upper[i - start]?.or lower[i]? := by
  rw [getElem?_overlay, List.getElem?_append_right (by simpa using hge), List.length_replicate]
  cases ho : upper[i - start]? with
  | none => rfl
  | some o => exact if_neg (hne o (List.mem_of_getElem? ho))

/-- what is painted shows -/
theorem shows_overlay (lower upper : List α) : Shows blank (overlay blank lower upper) upper where
  length_le := by
    rw [length_overlay]
    exact Nat.le_max_right _ _
  cell i o ho hne := by
    rw [getElem?_overlay, ho]
    exact if_neg hne

/-- **Painting a layer changes nothing exactly when it shows** -/
theorem overlay_eq_left_iff {l upper : List α} : overlay blank l upper = l ↔ Shows blank l upper := by
  constructor
  · intro h
    have hshows := shows_overlay blank l upper
    rwa [h] at hshows
  · intro h
    refine List.ext_getElem? ?_
    intro i
    rw [getElem?_overlay]
    cases ho : upper[i]? with
    | none => rfl
    | some o =>
      have hlt : i < l.length := (List.getElem?_eq_some_iff.1 ho).1.trans_le h.length_le
      by_cases hne : o = blank
      · simp [hne, List.getElem?_eq_getElem hlt]
      · simp [hne, h.cell i o ho hne]

end Wrb.Overlay
