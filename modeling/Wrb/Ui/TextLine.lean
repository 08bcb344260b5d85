/-
The line editor of `ui/forms/textline.rs`: what keys and `set_text` make of the text of a `TextLine`.

Layers:
- the functions of the source, `TextLine.handleKey` (in `Wrb.Ui.Forms`), `setText` and `newDetached`;
- `Line`: what a line under edit is for, at most `maxLen` characters and a cursor between 0 and their number;
- `Fits`: the events that the source counts right. Positions are counted in characters by the loops, and in bytes of
  UTF-8 by the comparisons before them.

Results:
- `step_agrees_iff`: one event does to the form what it does to the line exactly when it meets `Fits`;
- `edits_agree_iff`: text and cursor are those of the line all along a run exactly when every event of it meets `Fits`;
- `end_past_text`: the End key on the text "é" puts the cursor at 2.
-/
import Mathlib.Tactic
import Wrb.Lib.Runs
import Wrb.Ui.Forms

namespace Wrb.Ui

open Wrb.Runs

/-! ## A line under edit -/

/-- a line of at most `maxLen` characters, and a place in it -/
structure Line (maxLen : ℕ) where
  text : List Char
  cursor : ℕ
  /-- typed characters go before the one at the cursor, or replace it -/
  insert : Bool
  cursor_le : cursor ≤ text.length
  bounded : text.length ≤ maxLen
deriving DecidableEq

/-- a key pressed, or the text replaced by one that fits -/
inductive LineEvent (maxLen : ℕ) where
  | key (k : Key)
  | setText (text : { text : List Char // text.length ≤ maxLen })
deriving DecidableEq

/-- line breaks are not typed into a line -/
def isLineBreak (c : Char) : Bool := decide (c = '\n' ∨ c = '\r')

namespace Line

variable {maxLen : ℕ}

/-- the cursor at position `i`, or at the end of the text -/
def moveTo (l : Line maxLen) (i : ℕ) : Line maxLen :=
  { l with cursor := min i l.text.length, cursor_le := Nat.min_le_right _ _ }

/-- without the character at position `i`, the cursor there -/
def erase (l : Line maxLen) (i : ℕ) (h : i < l.text.length) : Line maxLen where
  text := l.text.eraseIdx i
  cursor := i
  insert := l.insert
  cursor_le := by rw [List.length_eraseIdx_of_lt h]; omega
  bounded := (List.length_eraseIdx_le l.text i).trans l.bounded

def backspace (l : Line maxLen) : Line maxLen :=
  if h : 0 < l.cursor then l.erase (l.cursor - 1) (by have := l.cursor_le; omega) else l

def delete (l : Line maxLen) : Line maxLen :=
  if h : l.cursor < l.text.length then l.erase l.cursor h else l

/-- type a character: at the end, and before the character at the cursor, only where there is room -/
def type (l : Line maxLen) (c : Char) : Line maxLen :=
  if isLineBreak c then l
  else if hend : l.insert = true ∨ l.cursor = l.text.length then
    if hroom : l.text.length < maxLen then
      { l with
        text := l.text.insertIdx l.cursor c
        cursor := l.cursor + 1
        cursor_le := by rw [List.length_insertIdx_of_le_length l.cursor_le]; exact Nat.succ_le_succ l.cursor_le
        bounded := by rw [List.length_insertIdx_of_le_length l.cursor_le]; exact hroom }
    else l
  else
    { l with
      text := l.text.set l.cursor c
      cursor := l.cursor + 1
      cursor_le := by rw [List.length_set]; exact lt_of_le_of_ne l.cursor_le (not_or.1 hend).2
      bounded := by rw [List.length_set]; exact l.bounded }

/-- a character typed moves the cursor, unless the line is full and it would have to make room -/
theorem type_cursor {l : Line maxLen} {c : Char} (hc : isLineBreak c = false)
    (hroom : l.text.length < maxLen ∨ ¬ (l.insert = true ∨ l.cursor = l.text.length)) :
    (l.type c).cursor = l.cursor + 1 := by
  unfold type
  rw [if_neg (by simp [hc])]
  split_ifs with hend hlt
  · rfl
  · exact absurd hend (hroom.resolve_left hlt)
  · rfl

theorem type_text {l : Line maxLen} {c : Char} (hc : isLineBreak c = false) (hroom : l.text.length < maxLen) :
    (l.type c).text =
      if l.insert = true ∨ l.cursor = l.text.length then l.text.insertIdx l.cursor c else l.text.set l.cursor c := by
  unfold type
  rw [if_neg (by simp [hc])]
  split_ifs with hend
  · rfl
  · rfl

@[simp] theorem backspace_insert (l : Line maxLen) : l.backspace.insert = l.insert := by
  unfold backspace
  split_ifs <;> rfl

@[simp] theorem delete_insert (l : Line maxLen) : l.delete.insert = l.insert := by
  unfold delete
  split_ifs <;> rfl

@[simp] theorem type_insert (l : Line maxLen) (c : Char) : (l.type c).insert = l.insert := by
  unfold type
  split_ifs <;> rfl

/-- a character that is typed is stored, at the cursor -/
theorem type_stored {l : Line maxLen} {c : Char} (h : l.type c ≠ l) : (l.type c).text[l.cursor]? = some c := by
  have hle := l.cursor_le
  unfold type at h ⊢
  split_ifs at h ⊢ with hbreak hend hroom
  · exact absurd rfl h
  · show (l.text.insertIdx l.cursor c)[l.cursor]? = some c
    rw [List.getElem?_insertIdx_self, if_pos hle]
  · exact absurd rfl h
  · show (l.text.set l.cursor c)[l.cursor]? = some c
    rw [List.getElem?_set_self (lt_of_le_of_ne hle (not_or.1 hend).2)]

theorem type_full {l : Line maxLen} {c : Char} (hfull : l.text.length = maxLen)
    (hend : l.insert = true ∨ l.cursor = l.text.length) : l.type c = l := by
  unfold type
  rw [dif_pos hend, dif_neg (by omega), ite_self]

def press (l : Line maxLen) : Key → Line maxLen
  | .left => l.moveTo (l.cursor - 1)
  | .right => l.moveTo (l.cursor + 1)
  | .home => l.moveTo 0
  | .endKey => l.moveTo l.text.length
  | .backspace => l.backspace
  | .delete => l.delete
  | .ctrl c => if c = 'h' then l.backspace else if c = '?' then l.delete else l
  | .insert => { l with insert := !l.insert }
  | .char c => l.type c
  | .up => l
  | .down => l
  | .other => l

/-- a text replaced keeps the cursor, or puts it at its end -/
def step (l : Line maxLen) : LineEvent maxLen → Line maxLen
  | .key k => l.press k
  | .setText text =>
    { text := text.1, cursor := min l.cursor text.1.length, insert := l.insert
      cursor_le := Nat.min_le_right _ _, bounded := text.2 }

/-- a line before any event -/
def start (text : { text : List Char // text.length ≤ maxLen }) : Line maxLen :=
  ⟨text.1, 0, true, Nat.zero_le _, text.2⟩

end Line

/-! ## The form -/

namespace TextLine

variable {maxLen : ℕ}

def newDetached (text : List Char) (maxLen : ℕ) : TextLine where
  elementId := 0
  viewportId := 0
  row := 0
  col := 0
  cursor := 0
  bgColor := Color.ofU32 0
  fgColor := Color.ofU32 0xffffff
  focusedBgColor := Color.ofU32 0xffffff
  focusedFgColor := Color.ofU32 0
  innerText := text
  maxLen := maxLen
  insert := true

def setText (f : TextLine) (txt : List Char) : TextLine := { f with innerText := txt }

def step (f : TextLine) : LineEvent maxLen → TextLine
  | .key k => f.handleKey k
  | .setText text => f.setText text.1

/-- the form shows the text and the cursor of the line -/
structure Shows (f : TextLine) (l : Line maxLen) : Prop where
  text : f.innerText = l.text
  cursor : f.cursor = l.cursor

/-- and types as the line does -/
structure Agrees (f : TextLine) (l : Line maxLen) : Prop extends f.Shows l where
  insert : f.insert = l.insert
  maxLen_eq : f.maxLen = maxLen

/-- **When an event is right.** To the right of the text, `handle_event` goes by the bytes of the text: they have to be
as many as the characters, or the characters as many as fit. A character typed needs a byte to spare, and a full line is
not typed over. A text replaced has to reach to the cursor -/
def Fits (f : TextLine) : LineEvent maxLen → Prop
  | .setText text => f.cursor ≤ text.1.length
  | .key .right =>
    f.cursor < f.innerText.length ∨ byteLen f.innerText = f.innerText.length ∨ f.innerText.length = f.maxLen
  | .key .endKey => byteLen f.innerText = f.innerText.length
  | .key (.char c) =>
    isLineBreak c = true ∨
    (byteLen f.innerText < f.maxLen ∧ (f.cursor < f.innerText.length ∨ byteLen f.innerText = f.innerText.length)) ∨
    (f.innerText.length = f.maxLen ∧ (f.insert = true ∨ f.cursor = f.innerText.length))
  | .key _ => True

theorem newDetached_agrees (text : { text : List Char // text.length ≤ maxLen }) :
    (newDetached text.1 maxLen).Agrees (Line.start text) := ⟨⟨rfl, rfl⟩, rfl, rfl⟩

/-! ## One event -/

theorem length_le_byteLen (text : List Char) : text.length ≤ byteLen text := by
  induction text with
  | nil => exact Nat.le_refl 0
  | cons c text ih =>
    have hpos := Char.utf8Size_pos c
    have hcons : byteLen (c :: text) = c.utf8Size + byteLen text := List.sum_cons
    rw [List.length_cons, hcons]
    omega

/-- nothing is typed at a position the loop does not come to -/
theorem typeAt_of_out {c : Char} {insert : Bool} {cursor i : ℕ} {text : List Char}
    (hout : cursor < i ∨ i + text.length ≤ cursor) : typeAt c insert cursor text i = text := by
  induction text generalizing i with
  | nil => rfl
  | cons chr text ih =>
    rw [List.length_cons] at hout
    unfold typeAt
    rw [if_neg (by omega), ih (by omega)]
    rfl

/-- in a text that reaches beyond the cursor, a character typed goes to the cursor -/
theorem typeAt_eq {c : Char} {insert : Bool} {cursor i : ℕ} {text : List Char} (hi : i ≤ cursor)
    (hlt : cursor < i + text.length) :
    typeAt c insert cursor text i = if insert then text.insertIdx (cursor - i) c else text.set (cursor - i) c := by
  induction text generalizing i with
  | nil =>
    rw [List.length_nil] at hlt
    omega
  | cons chr text ih =>
    rw [List.length_cons] at hlt
    unfold typeAt
    by_cases heq : i = cursor
    · subst heq
      rw [if_pos rfl, typeAt_of_out (.inl (Nat.lt_succ_self i)), Nat.sub_self]
      cases insert <;> rfl
    · have hsub : cursor - i = cursor - (i + 1) + 1 := by omega
      rw [if_neg heq, ih (by omega) (by omega), hsub]
      cases insert <;> rfl

section Step

variable {f : TextLine} {l : Line maxLen}

theorem Agrees.cursor_le (h : f.Agrees l) : f.cursor ≤ f.innerText.length := by
  rw [h.cursor, h.text]
  exact l.cursor_le

theorem Agrees.bounded (h : f.Agrees l) : f.innerText.length ≤ f.maxLen := by
  rw [h.text, h.maxLen_eq]
  exact l.bounded

/-- where text and cursor agree, they agree after an event exactly when it puts the same text and cursor -/
theorem agrees_iff (h : f.Agrees l) {f' : TextLine} {l' : Line maxLen} (hinsert : f'.insert = l'.insert)
    (hmax : f'.maxLen = f.maxLen) : f'.Agrees l' ↔ f'.innerText = l'.text ∧ f'.cursor = l'.cursor :=
  ⟨fun h' => ⟨h'.text, h'.cursor⟩, fun h' => ⟨⟨h'.1, h'.2⟩, hinsert, hmax.trans h.maxLen_eq⟩⟩

theorem eraseBefore_agrees (h : f.Agrees l) : f.eraseBefore.Agrees l.backspace := by
  unfold eraseBefore Line.backspace
  by_cases hpos : 0 < f.cursor
  · have hpos' : 0 < l.cursor := h.cursor ▸ hpos
    rw [if_pos hpos, dif_pos hpos']
    refine ⟨⟨?_, ?_⟩, h.insert, h.maxLen_eq⟩
    · show f.innerText.eraseIdx (f.cursor - 1) = l.text.eraseIdx (l.cursor - 1)
      rw [h.text, h.cursor]
    · show f.cursor - 1 = l.cursor - 1
      rw [h.cursor]
  · rw [if_neg hpos, dif_neg (h.cursor ▸ hpos)]
    exact h

/-- where the text is longer in bytes, there may be no character at the cursor: nothing is erased -/
theorem eraseAt_agrees (h : f.Agrees l) : f.eraseAt.Agrees l.delete := by
  have hbytes := length_le_byteLen f.innerText
  unfold eraseAt Line.delete
  by_cases hlt : f.cursor < f.innerText.length
  · have hlt' : l.cursor < l.text.length := by rwa [← h.cursor, ← h.text]
    rw [if_pos (by omega), dif_pos hlt']
    refine ⟨⟨?_, h.cursor⟩, h.insert, h.maxLen_eq⟩
    show f.innerText.eraseIdx f.cursor = l.text.eraseIdx l.cursor
    rw [h.text, h.cursor]
  · have hlt' : ¬ l.cursor < l.text.length := by rwa [← h.cursor, ← h.text]
    rw [dif_neg hlt']
    split_ifs
    · refine ⟨⟨?_, h.cursor⟩, h.insert, h.maxLen_eq⟩
      show f.innerText.eraseIdx f.cursor = l.text
      rw [List.eraseIdx_of_length_le (by omega), h.text]
    · exact h

theorem right_agrees_iff (h : f.Agrees l) :
    (f.handleKey .right).Agrees (l.press .right) ↔ f.Fits (.key .right : LineEvent maxLen) := by
  have hbytes := length_le_byteLen f.innerText
  have hle := h.cursor_le
  have hmax := h.bounded
  have hline : (l.press .right).cursor = min (f.cursor + 1) f.innerText.length := by rw [h.cursor, h.text]; rfl
  have hiff : (f.handleKey .right).Agrees (l.press .right) ↔ _ := agrees_iff h h.insert rfl
  rw [hiff, hline]
  show f.innerText = l.text ∧ min (min (f.cursor + 1) (byteLen f.innerText)) f.maxLen = _ ↔ _ ∨ _ ∨ _
  rw [and_iff_right h.text]
  omega

theorem end_agrees_iff (h : f.Agrees l) :
    (f.handleKey .endKey).Agrees (l.press .endKey) ↔ f.Fits (.key .endKey : LineEvent maxLen) := by
  have hline : (l.press .endKey).cursor = f.innerText.length := by
    rw [h.text]
    exact Nat.min_self _
  have hiff : (f.handleKey .endKey).Agrees (l.press .endKey) ↔ _ := agrees_iff h h.insert rfl
  rw [hiff, hline]
  show f.innerText = l.text ∧ byteLen f.innerText = f.innerText.length ↔ byteLen f.innerText = f.innerText.length
  rw [and_iff_right h.text]

theorem setText_agrees_iff (h : f.Agrees l) (text : { text : List Char // text.length ≤ maxLen }) :
    (f.setText text.1).Agrees (l.step (.setText text)) ↔ f.Fits (.setText text) := by
  have hline : (l.step (.setText text)).cursor = min f.cursor text.1.length := by rw [h.cursor]; rfl
  have hiff : (f.setText text.1).Agrees (l.step (.setText text)) ↔ _ := agrees_iff h h.insert rfl
  rw [hiff, hline]
  show text.1 = text.1 ∧ f.cursor = min f.cursor text.1.length ↔ f.cursor ≤ text.1.length
  rw [and_iff_right rfl]
  omega

/-- what a character other than a line break does to the form -/
theorem handleKey_char {c : Char} (hc : isLineBreak c = false) :
    f.handleKey (.char c) =
      if f.cursor = byteLen f.innerText ∧ byteLen f.innerText < f.maxLen then
        { f with innerText := f.innerText ++ [c], cursor := f.cursor + 1 }
      else if byteLen f.innerText < f.maxLen then
        { f with innerText := typeAt c f.insert f.cursor f.innerText 0, cursor := f.cursor + 1 }
      else f := if_neg fun h => Bool.false_ne_true (hc.symm.trans (decide_eq_true h))

/-- where the text leaves no byte to spare, a character typed changes nothing -/
theorem char_full_agrees_iff (h : f.Agrees l) {c : Char} (hc : isLineBreak c = false)
    (hfull : f.maxLen ≤ byteLen f.innerText) :
    (f.handleKey (.char c)).Agrees (l.type c) ↔
      f.innerText.length = f.maxLen ∧ (f.insert = true ∨ f.cursor = f.innerText.length) := by
  have hf : f.handleKey (.char c) = f := by
    rw [handleKey_char hc, if_neg (by omega), if_neg (by omega)]
  rw [hf]
  by_cases hstay : l.text.length = maxLen ∧ (l.insert = true ∨ l.cursor = l.text.length)
  · rw [Line.type_full hstay.1 hstay.2]
    refine iff_of_true h ?_
    rwa [h.text, h.maxLen_eq, h.insert, h.cursor]
  · have hroom : l.text.length < maxLen ∨ ¬ (l.insert = true ∨ l.cursor = l.text.length) := by
      rcases Nat.lt_or_ge l.text.length maxLen with hlt | hge
      · exact .inl hlt
      · exact .inr fun hend => hstay ⟨Nat.le_antisymm l.bounded hge, hend⟩
    have hcursor := Line.type_cursor hc hroom
    refine iff_of_false ?_ ?_
    · intro h'
      have heq : f.cursor = (l.type c).cursor := h'.cursor
      rw [hcursor, h.cursor] at heq
      omega
    · rwa [h.text, h.maxLen_eq, h.insert, h.cursor]

/-- where there is a byte to spare, a character typed at the end is lost if the text is longer in bytes -/
theorem char_room_agrees_iff (h : f.Agrees l) {c : Char} (hc : isLineBreak c = false)
    (hroom : byteLen f.innerText < f.maxLen) :
    (f.handleKey (.char c)).Agrees (l.type c) ↔
      f.cursor < f.innerText.length ∨ byteLen f.innerText = f.innerText.length := by
  have hbytes := length_le_byteLen f.innerText
  have hle := h.cursor_le
  have hlt : l.text.length < maxLen := by
    rw [← h.text, ← h.maxLen_eq]
    omega
  have hcursor : (l.type c).cursor = f.cursor + 1 := by rw [Line.type_cursor hc (.inl hlt), h.cursor]
  have htext := Line.type_text hc hlt
  rw [← h.text, ← h.cursor, ← h.insert] at htext
  have hinsert : f.insert = (l.type c).insert := by rw [h.insert, l.type_insert]
  rw [handleKey_char hc]
  by_cases happend : f.cursor = byteLen f.innerText
  · have hend : f.cursor = f.innerText.length := by omega
    rw [if_pos ⟨happend, hroom⟩]
    refine iff_of_true ⟨⟨?_, hcursor.symm⟩, hinsert, h.maxLen_eq⟩ (.inr (by omega))
    rw [htext, if_pos (.inr hend), hend]
    exact (List.insertIdx_length_self).symm
  · rw [if_neg fun hc => happend hc.1, if_pos hroom]
    by_cases hin : f.cursor < f.innerText.length
    · refine iff_of_true ⟨⟨?_, hcursor.symm⟩, hinsert, h.maxLen_eq⟩ (.inl hin)
      show typeAt c f.insert f.cursor f.innerText 0 = (l.type c).text
      rw [htext, typeAt_eq (Nat.zero_le _) (by omega), Nat.sub_zero]
      exact if_congr (or_iff_left (Nat.ne_of_lt hin)).symm rfl rfl
    · have hend : f.cursor = f.innerText.length := by omega
      refine iff_of_false ?_ (by omega)
      intro h'
      have hlen : (typeAt c f.insert f.cursor f.innerText 0).length = (l.type c).text.length := congrArg _ h'.text
      rw [typeAt_of_out (.inr (by omega)), htext, if_pos (.inr hend), List.length_insertIdx_of_le_length hle] at hlen
      omega

theorem char_agrees_iff (h : f.Agrees l) (c : Char) :
    (f.handleKey (.char c)).Agrees (l.press (.char c)) ↔ f.Fits (.key (.char c) : LineEvent maxLen) := by
  show _ ↔ _ ∨ _ ∨ _
  cases hbreak : isLineBreak c with
  | true =>
    have hf : f.handleKey (.char c) = f := if_pos (of_decide_eq_true hbreak)
    have hl : l.press (.char c) = l := if_pos hbreak
    rw [hf, hl]
    exact iff_of_true h (.inl rfl)
  | false =>
    have hbytes := length_le_byteLen f.innerText
    rw [or_iff_right Bool.false_ne_true]
    rcases Nat.lt_or_ge (byteLen f.innerText) f.maxLen with hroom | hfull
    · have hiff : (f.handleKey (.char c)).Agrees (l.press (.char c)) ↔ _ := char_room_agrees_iff h hbreak hroom
      have hshort : ¬ (f.innerText.length = f.maxLen ∧ (f.insert = true ∨ f.cursor = f.innerText.length)) := by omega
      rw [hiff, or_iff_left hshort, and_iff_right hroom]
    · have hiff : (f.handleKey (.char c)).Agrees (l.press (.char c)) ↔ _ := char_full_agrees_iff h hbreak hfull
      have hnot : ¬ (byteLen f.innerText < f.maxLen ∧
          (f.cursor < f.innerText.length ∨ byteLen f.innerText = f.innerText.length)) := by omega
      rw [hiff, or_iff_right hnot]

/-- **One event.** It does to the form what it does to the line exactly when it meets `Fits` -/
theorem step_agrees_iff (h : f.Agrees l) (e : LineEvent maxLen) : (f.step e).Agrees (l.step e) ↔ f.Fits e := by
  cases e with
  | setText text => exact setText_agrees_iff h text
  | key k =>
    cases k with
    | char c => exact char_agrees_iff h c
    | right => exact right_agrees_iff h
    | endKey => exact end_agrees_iff h
    | left =>
      refine iff_of_true ⟨⟨h.text, ?_⟩, h.insert, h.maxLen_eq⟩ trivial
      show f.cursor - 1 = min (l.cursor - 1) l.text.length
      have := l.cursor_le
      rw [h.cursor, Nat.min_eq_left (by omega)]
    | home => exact iff_of_true ⟨⟨h.text, (Nat.zero_min _).symm⟩, h.insert, h.maxLen_eq⟩ trivial
    | insert => exact iff_of_true ⟨⟨h.text, h.cursor⟩, congrArg (! ·) h.insert, h.maxLen_eq⟩ trivial
    | backspace => exact iff_of_true (eraseBefore_agrees h) trivial
    | delete => exact iff_of_true (eraseAt_agrees h) trivial
    | ctrl c =>
      refine iff_of_true ?_ trivial
      show (if c = 'h' then f.eraseBefore else if c = '?' then f.eraseAt else f).Agrees
        (if c = 'h' then l.backspace else if c = '?' then l.delete else l)
      split_ifs
      · exact eraseBefore_agrees h
      · exact eraseAt_agrees h
      · exact h
    | up => exact iff_of_true h trivial
    | down => exact iff_of_true h trivial
    | other => exact iff_of_true h trivial

end Step

/-! ## Runs -/

theorem eraseBefore_insert (f : TextLine) : f.eraseBefore.insert = f.insert ∧ f.eraseBefore.maxLen = f.maxLen := by
  unfold eraseBefore
  split_ifs <;> exact ⟨rfl, rfl⟩

theorem eraseAt_insert (f : TextLine) : f.eraseAt.insert = f.insert ∧ f.eraseAt.maxLen = f.maxLen := by
  unfold eraseAt
  split_ifs <;> exact ⟨rfl, rfl⟩

theorem handleKey_char_insert (f : TextLine) (c : Char) :
    (f.handleKey (.char c)).insert = f.insert ∧ (f.handleKey (.char c)).maxLen = f.maxLen := by
  cases hc : isLineBreak c with
  | true =>
    have hf : f.handleKey (.char c) = f := if_pos (of_decide_eq_true hc)
    rw [hf]
    exact ⟨rfl, rfl⟩
  | false =>
    rw [handleKey_char hc]
    split_ifs <;> exact ⟨rfl, rfl⟩

/-- Insert switches the mode of form and line, and no other event does -/
theorem step_insert {f : TextLine} {l : Line maxLen} (h : f.insert = l.insert ∧ f.maxLen = maxLen)
    (e : LineEvent maxLen) : (f.step e).insert = (l.step e).insert ∧ (f.step e).maxLen = maxLen := by
  have hbefore : f.eraseBefore.insert = l.backspace.insert ∧ f.eraseBefore.maxLen = maxLen := by
    rw [(eraseBefore_insert f).1, (eraseBefore_insert f).2, l.backspace_insert]
    exact h
  have hat : f.eraseAt.insert = l.delete.insert ∧ f.eraseAt.maxLen = maxLen := by
    rw [(eraseAt_insert f).1, (eraseAt_insert f).2, l.delete_insert]
    exact h
  cases e with
  | setText text => exact h
  | key k =>
    cases k with
    | backspace => exact hbefore
    | delete => exact hat
    | ctrl c =>
      show (if c = 'h' then f.eraseBefore else if c = '?' then f.eraseAt else f).insert =
          (if c = 'h' then l.backspace else if c = '?' then l.delete else l).insert ∧
        (if c = 'h' then f.eraseBefore else if c = '?' then f.eraseAt else f).maxLen = maxLen
      split_ifs
      · exact hbefore
      · exact hat
      · exact h
    | char c =>
      show (f.handleKey (.char c)).insert = (l.type c).insert ∧ (f.handleKey (.char c)).maxLen = maxLen
      rw [(handleKey_char_insert f c).1, (handleKey_char_insert f c).2, l.type_insert]
      exact h
    | insert => exact ⟨congrArg (! ·) h.1, h.2⟩
    | left => exact h
    | right => exact h
    | home => exact h
    | endKey => exact h
    | up => exact h
    | down => exact h
    | other => exact h

/-- **Runs.** The form shows the text and the cursor of the line after every event of a run exactly when every event
meets `Fits`. The cursor of a line is within its text, and its text within `maxLen` -/
theorem edits_agree_iff (text : { text : List Char // text.length ≤ maxLen }) (events : List (LineEvent maxLen)) :
    (∀ n, Shows (run step (newDetached text.1 maxLen) (events.take n)) (run Line.step (.start text) (events.take n))) ↔
      Always step Fits (newDetached text.1 maxLen) events := by
  have hmode : ∀ es : List (LineEvent maxLen), ∀ f : TextLine, ∀ l : Line maxLen,
      f.insert = l.insert ∧ f.maxLen = maxLen →
      (run step f es).insert = (run Line.step l es).insert ∧ (run step f es).maxLen = maxLen := by
    intro es
    induction es with
    | nil => exact fun _ _ h => h
    | cons e es ih => exact fun f l h => ih _ _ (step_insert h e)
  have hagree : (∀ n, Agrees (run step (newDetached text.1 maxLen) (events.take n))
      (run Line.step (.start text) (events.take n))) ↔ Always step Fits (newDetached text.1 maxLen) events :=
    agree_iff_always (R := Agrees) (fun _ _ e h => step_agrees_iff h e) (newDetached_agrees text) events
  rw [← hagree]
  refine forall_congr' fun n => ⟨fun h => ?_, fun h => h.toShows⟩
  obtain ⟨hinsert, hmax⟩ := hmode (events.take n) (newDetached text.1 maxLen) (.start text) ⟨rfl, rfl⟩
  exact ⟨h, hinsert, hmax⟩

/-- the End key goes by the bytes of the text: on a text of one character of two bytes, to position 2 -/
theorem end_past_text :
    (run step (newDetached ['é'] 20) [(.key .endKey : LineEvent 20)]).cursor = 2 ∧
      ¬ Shows (run step (newDetached ['é'] 20) [(.key .endKey : LineEvent 20)])
        (run Line.step (.start ⟨['é'], Nat.le_of_ble_eq_true rfl⟩ : Line 20) [.key .endKey]) := by
  refine ⟨by decide +kernel, ?_⟩
  intro h
  exact absurd h.cursor (by decide +kernel)

end TextLine

end Wrb.Ui
