/-
The length of the text of a text area (`TextArea` in `ui/forms/textarea.rs`) against its `max_len`.

The form takes `max_len` from the page and carries it along, and no key looks at it: the sibling `TextLine` types a
character only into a text that is shorter.

* `handleKey_bounded`: from a text within the bound, the text after a key is within it exactly when there is room for
  the key: a character that makes the text longer needs a text below the bound.
* `bounded_iff`: in every run of keys on every initial text, the text stays within the bound exactly when the bytes of
  the initial text are within it (its characters are not enough: a new buffer has a cell for each byte) and there is
  room for every key.
* `typed_past_maxLen`: a character typed into a full form.
-/
import Mathlib.Tactic
import Wrb.Lib.Runs
import Wrb.Ui.Scrolling

namespace Wrb.Ui.TextArea

open Wrb.Runs

variable {t t' u : TextArea} {key : Key}

/-- the method `text` -/
def text (t : TextArea) : List Char := t.innerText.toText

/-- the text is at most `max_len` characters long -/
def Bounded (t : TextArea) : Prop := t.text.length ≤ t.maxLen

/-- the key makes the text longer: a character that is inserted, or overwrites nothing -/
def Grows (t : TextArea) : Key → Prop
  | .char _ => t.insert ∨ t.innerText.cursor + t.innerText.gap = t.innerText.buffer.length
  | _ => False

/-- a key that is handled, and makes the text longer, finds it below the bound -/
def HasRoom (t : TextArea) (key : Key) : Prop := (t.handleKey key).isSome → t.Grows key → t.text.length < t.maxLen

/-! ## One key -/

theorem scroll_keeps {s : Scroll} (h : s.apply u = some t') :
    t'.innerText = u.innerText ∧ t'.maxLen = u.maxLen := by
  cases s with
  | up =>
    simp only [Scroll.apply, scrollUp] at h
    split_ifs at h
    · obtain ⟨i, -, rfl⟩ := Option.map_eq_some_iff.1 h
      exact ⟨rfl, rfl⟩
    · cases h
      exact ⟨rfl, rfl⟩
  | down =>
    cases h
    unfold scrollDown
    split_ifs
    · exact ⟨rfl, rfl⟩
    · exact ⟨rfl, rfl⟩
  | stay =>
    cases h
    exact ⟨rfl, rfl⟩

/-- before a key scrolls, and after, the text has the length of the text it leaves -/
theorem handleKey_length (hread : t.innerText.Readable) (hsize : 1 ≤ t.innerText.gapSize)
    (hk : t.handleKey key = some t') :
    t'.innerText.Readable ∧ 1 ≤ t'.innerText.gapSize ∧ t'.maxLen = t.maxLen ∧
      t'.text.length = (t.pressed key).all.length := by
  obtain ⟨u, hu, happly⟩ := handleKey_leaves hread hsize hk
  obtain ⟨hinner, hmax⟩ := scroll_keeps happly
  refine ⟨by rw [hinner]; exact hu.readable, by rw [hinner]; exact hu.gapSize, by rw [hmax, hu.maxLen], ?_⟩
  rw [text, hinner, hu.readable.toText, Text.all, List.length_append, hu.before, hu.after, Text.all, List.length_append]

theorem length_goTo (x : Text) (i : ℕ) : (x.goTo i).all.length = x.all.length := by
  rw [Text.goTo, Text.all, List.take_append_drop]

theorem length_edit_left (x : Text) : (x.edit .left).2.all.length = x.all.length := by
  rcases x with ⟨before, after⟩
  rcases List.eq_nil_or_concat before with rfl | ⟨before, c, rfl⟩
  · rfl
  · simp [Text.edit, Text.all]

theorem length_edit_right (x : Text) : (x.edit .right).2.all.length = x.all.length := by
  rcases x with ⟨before, _ | ⟨c, after⟩⟩
  · rfl
  · simp [Text.edit, Text.all]

theorem length_backspace_le (x : Text) : x.backspace.all.length ≤ x.all.length := by
  rcases x with ⟨before, after⟩
  simp [Text.backspace, Text.edit, Text.all]

theorem length_delete_le (x : Text) : x.delete.all.length ≤ x.all.length := by
  rw [Text.delete, ← length_edit_right x]
  exact length_backspace_le _

/-- **The length of the text** after a key: one more where the key makes it longer, and no more elsewhere -/
theorem length_pressed (hread : t.innerText.Readable) :
    (t.Grows key → (t.pressed key).all.length = t.text.length + 1) ∧
      (¬ t.Grows key → (t.pressed key).all.length ≤ t.text.length) := by
  have htext : t.text = t.innerText.text.all := hread.toText
  rw [htext]
  cases key with
  | char c =>
    have hnil := hread.after_eq_nil_iff
    rw [pressed, Grows, ← hnil]
    cases hmode : t.insert with
    | true => simp [Text.all, Nat.add_assoc]
    | false =>
      rcases hafter : t.innerText.text.after with _ | ⟨c', after⟩
      · simp [Text.all, hafter]
      · simp [Text.all, hafter, Nat.add_assoc, Nat.add_comm]
  | left => exact ⟨False.elim, fun _ => (length_edit_left _).le⟩
  | right => exact ⟨False.elim, fun _ => (length_edit_right _).le⟩
  | up => exact ⟨False.elim, fun _ => (length_goTo _ _).le⟩
  | down => exact ⟨False.elim, fun _ => (length_goTo _ _).le⟩
  | home => exact ⟨False.elim, fun _ => (length_goTo _ _).le⟩
  | endKey => exact ⟨False.elim, fun _ => (length_goTo _ _).le⟩
  | backspace => exact ⟨False.elim, fun _ => length_backspace_le _⟩
  | delete => exact ⟨False.elim, fun _ => length_delete_le _⟩
  | ctrl c =>
    refine ⟨False.elim, fun _ => ?_⟩
    rw [pressed]
    split_ifs
    · exact length_backspace_le _
    · exact length_delete_le _
    · exact le_refl _
  | insert => exact ⟨False.elim, fun _ => le_refl _⟩
  | other => exact ⟨False.elim, fun _ => le_refl _⟩

theorem handleKey_bounded (hread : t.innerText.Readable) (hsize : 1 ≤ t.innerText.gapSize) (hb : t.Bounded)
    (hk : t.handleKey key = some t') : t'.Bounded ↔ (t.Grows key → t.text.length < t.maxLen) := by
  obtain ⟨-, -, hmax, hlen⟩ := handleKey_length hread hsize hk
  obtain ⟨hgrows, hkept⟩ := @length_pressed t key hread
  unfold Bounded at hb ⊢
  rw [hmax, hlen]
  by_cases hg : t.Grows key
  · rw [hgrows hg]
    simp [hg]
  · simp [hg, (hkept hg).trans hb]

/-! ## Runs -/

theorem length_text_new {txt : List Char} (hnew : GapBuffer.new txt GAP_SIZE = some t.innerText) :
    t.text.length = (txt.map Char.utf8Size).sum := by
  obtain ⟨hread, -⟩ := GapBuffer.readable_new hnew
  obtain ⟨hcursor, hgap, -, hbuffer⟩ := GapBuffer.of_new hnew
  have hle := GapBuffer.sum_utf8Size_le txt
  have hbefore := hread.length_before
  have hafter := GapBuffer.length_after t.innerText
  rw [hbuffer, hcursor, hgap] at hafter
  rw [text, hread.toText, Text.all, List.length_append, hbefore, hafter, hcursor]
  simp only [List.length_append, List.length_map, List.length_replicate]
  omega

/-- **The text stays within `max_len`** in every run of keys on every initial text, exactly when its bytes are within
the bound and there is room for every key -/
theorem bounded_iff (t : TextArea) (txt : List Char) (hnew : GapBuffer.new txt GAP_SIZE = some t.innerText)
    (keys : List Key) :
    (∀ n rs t', runSome step t (keys.take n) = some (rs, t') → t'.Bounded) ↔
      (txt.map Char.utf8Size).sum ≤ t.maxLen ∧ AlwaysSome step HasRoom t keys := by
  obtain ⟨hread, hsize⟩ := GapBuffer.readable_new hnew
  have hpos : 1 ≤ t.innerText.gapSize := by simp [hsize, GAP_SIZE]
  have hstart : t.Bounded ↔ (txt.map Char.utf8Size).sum ≤ t.maxLen := by rw [Bounded, length_text_new hnew]
  rw [← hstart]
  refine runSome_inv_iff (J := fun t => t.innerText.Readable ∧ 1 ≤ t.innerText.gapSize) ?_ ?_ ⟨hread, hpos⟩ keys
  · rintro s key r s' ⟨hread, hsize⟩ hs
    obtain ⟨s₁, hk, heq⟩ := Option.map_eq_some_iff.1 hs
    cases heq
    obtain ⟨hread', hsize', -⟩ := handleKey_length hread hsize hk
    exact ⟨hread', hsize'⟩
  · rintro s key ⟨hread, hsize⟩ hb
    cases hk : s.handleKey key with
    | none => simp [step, hk, HasRoom]
    | some s' => simp [step, hk, HasRoom, handleKey_bounded hread hsize hb hk]

/-- two characters and room for a third one -/
theorem bounded_of_room : ∃ t, newDetached ['a', 'b'] 2 3 3 = some t ∧
    ∀ n rs t', runSome step t ([Key.char 'c'].take n) = some (rs, t') → t'.Bounded := by
  obtain ⟨t, ht, -, hnew, -⟩ := @newDetached_typed ['a', 'b'] (by decide) 2 3 3 'c'
  have hmax : t.maxLen = 3 := by
    obtain ⟨g, -, rfl⟩ := Option.map_eq_some_iff.1 ht
    rfl
  have hlen := length_text_new hnew
  have hbytes : (['a', 'b'].map Char.utf8Size).sum = 2 := by decide
  have hroom : t.HasRoom (.char 'c') := fun _ _ => by omega
  exact ⟨t, ht, (bounded_iff t ['a', 'b'] hnew [.char 'c']).2 ⟨by omega, hroom, fun _ _ => trivial⟩⟩

/-- **A character typed into a full form** goes past `max_len` -/
theorem typed_past_maxLen : ¬ ∀ (txt : List Char) (numRows numCols : UInt64) (maxLen : ℕ) (t : TextArea)
    (keys : List Key) (n : ℕ) (rs : List Unit) (t' : TextArea),
    newDetached txt numRows numCols maxLen = some t → txt.length ≤ maxLen →
    runSome step t (keys.take n) = some (rs, t') → t'.Bounded := by
  intro h
  obtain ⟨t, ht, hsome, hnew, -⟩ := @newDetached_typed ['a'] (by decide) 2 3 1 'b'
  obtain ⟨t', hk⟩ := Option.isSome_iff_exists.1 hsome
  have hbounded := h ['a'] 2 3 1 t [.char 'b'] 1 [()] t' ht (le_refl 1) (by simp [runSome, step, hk])
  have hinsert : t.maxLen = 1 ∧ t.insert = true := by
    obtain ⟨g, -, rfl⟩ := Option.map_eq_some_iff.1 ht
    exact ⟨rfl, rfl⟩
  have hlen : t.text.length = 1 := length_text_new hnew
  obtain ⟨hread, hsize⟩ := GapBuffer.readable_new hnew
  have hroom := (handleKey_bounded hread (by simp [hsize, GAP_SIZE]) (by simp [Bounded, hlen, hinsert.1]) hk).1 hbounded
    (Or.inl hinsert.2)
  omega

end Wrb.Ui.TextArea
