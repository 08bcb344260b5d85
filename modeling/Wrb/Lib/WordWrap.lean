/-
Word wrapping: the words of a text laid out in rows of `w` cells, numbered row by row.

A text is split into pieces (`split`): words, spaces one by one, and line breaks. A piece goes where the one before
ended if the row has room for it and a cell more, else to the next row; a break starts a row (`put`, `next`). `layout`
gives each character its cell, and a break none.

* `split_chars`, `split_word`: the pieces are the text, and each word of the text is one of them.
* `layout_increasing`, `layout_ge`: the cells go up, from where the text starts.
* `layout_rows`: no character is in a row before the one of the character before it, and each break starts a row.
* `layout_word`: a word no longer than a row is in one row.
* `lastEnd_eq_finish_iff`: the text ends where its last word does only if that is its last piece.
* `finish_mono`: of two starts in rows the later one has the later end.
-/
import Mathlib.Tactic

namespace Wrb.WordWrap

variable {α : Type}

/-! ## Pieces -/

inductive Piece (α : Type) where
  | word (cs : List α)
  | newline (c : α)
deriving DecidableEq, Repr

namespace Piece

def chars : Piece α → List α
  | word cs => cs
  | newline c => [c]

end Piece

/-- the word read so far, if there is one -/
def flush : List α → List (Piece α)
  | [] => []
  | c :: cur => [.word (c :: cur)]

/-- the pieces of a text; `cur` is the word read so far -/
def split (isSpace isBreak : α → Bool) : List α → (cur : List α) → List (Piece α)
  | [], cur => flush cur
  | c :: text, cur =>
    if isSpace c then
      flush cur ++ (if isBreak c then .newline c else .word [c]) :: split isSpace isBreak text []
    else split isSpace isBreak text (cur ++ [c])

section Split

variable {isSpace isBreak : α → Bool} {text word before after cur : List α}

theorem flush_of_ne (h : cur ≠ []) : flush cur = [.word cur] := by
  cases cur with
  | nil => exact absurd rfl h
  | cons c cur => rfl

theorem mem_flush {p : Piece α} (h : p ∈ flush cur) : p = .word cur ∧ cur ≠ [] := by
  cases cur with
  | nil => cases h
  | cons c cur => exact ⟨List.mem_singleton.1 h, List.cons_ne_nil c cur⟩

theorem flush_chars (cur : List α) : (flush cur).flatMap Piece.chars = cur := by
  cases cur with
  | nil => rfl
  | cons c cur => simp [flush, Piece.chars]

/-- **The pieces are the text** -/
theorem split_chars (isSpace isBreak : α → Bool) (text cur : List α) :
    (split isSpace isBreak text cur).flatMap Piece.chars = cur ++ text := by
  induction text generalizing cur with
  | nil => rw [split, flush_chars, List.append_nil]
  | cons c text ih =>
    rw [split]
    by_cases hs : isSpace c = true
    · rw [if_pos hs, List.flatMap_append, flush_chars, List.flatMap_cons, ih, List.nil_append]
      by_cases hb : isBreak c = true
      · rw [if_pos hb]
        rfl
      · rw [if_neg hb]
        rfl
    · rw [if_neg hs, ih, List.append_assoc, List.singleton_append]

/-- breaks are pieces of their own -/
theorem split_pieces (hcur : ∀ c ∈ cur, isSpace c = false) (hbreak : ∀ c, isBreak c = true → isSpace c = true) :
    ∀ p ∈ split isSpace isBreak text cur,
      (∃ c, p = .newline c ∧ isBreak c = true) ∨ ∃ cs, p = .word cs ∧ ∀ c ∈ cs, isBreak c = false := by
  have hflush : ∀ cur : List α, (∀ c ∈ cur, isSpace c = false) → ∀ p ∈ flush cur,
      (∃ c, p = .newline c ∧ isBreak c = true) ∨ ∃ cs, p = .word cs ∧ ∀ c ∈ cs, isBreak c = false := by
    intro cur hcur p hp
    refine Or.inr ⟨cur, (mem_flush hp).1, fun c hc => ?_⟩
    have hspace := hcur c hc
    by_contra hb
    rw [hbreak c (by simpa using hb)] at hspace
    cases hspace
  induction text generalizing cur with
  | nil => exact hflush cur hcur
  | cons c text ih =>
    intro p hp
    rw [split] at hp
    by_cases hs : isSpace c = true
    · rw [if_pos hs] at hp
      rcases List.mem_append.1 hp with hp | hp
      · exact hflush cur hcur p hp
      · rcases List.mem_cons.1 hp with rfl | hp
        · by_cases hb : isBreak c = true
          · exact Or.inl ⟨c, if_pos hb, hb⟩
          · refine Or.inr ⟨[c], if_neg hb, ?_⟩
            simpa using hb
        · exact ih (List.forall_mem_nil _) p hp
    · rw [if_neg hs] at hp
      refine ih ?_ p hp
      intro c' hc'
      rcases List.mem_append.1 hc' with hc' | hc'
      · exact hcur c' hc'
      · rw [List.mem_singleton.1 hc']
        exact Bool.eq_false_iff.2 hs

theorem split_append_word (hword : ∀ c ∈ word, isSpace c = false) (after cur : List α) :
    split isSpace isBreak (word ++ after) cur = split isSpace isBreak after (cur ++ word) := by
  induction word generalizing cur with
  | nil => rw [List.nil_append, List.append_nil]
  | cons c word ih =>
    obtain ⟨hc, hword⟩ := List.forall_mem_cons.1 hword
    rw [List.cons_append, split, if_neg (by simp [hc]), ih hword, List.append_assoc, List.singleton_append]

/-- where a space follows, or nothing, the word read so far is a piece -/
theorem split_flush (hafter : ∀ c ∈ after.head?, isSpace c = true) (cur : List α) :
    split isSpace isBreak after cur = flush cur ++ split isSpace isBreak after [] := by
  cases after with
  | nil => simp [split, flush]
  | cons c after =>
    have hs : isSpace c = true := hafter c rfl
    rw [split, split, if_pos hs, if_pos hs]
    rfl

/-- behind a space the pieces start anew -/
theorem split_append (hbefore : ∀ c ∈ before.getLast?, isSpace c = true) (hne : before ≠ []) (rest cur : List α) :
    split isSpace isBreak (before ++ rest) cur = split isSpace isBreak before cur ++ split isSpace isBreak rest [] := by
  induction before generalizing cur with
  | nil => exact absurd rfl hne
  | cons c before ih =>
    rw [List.cons_append, split, split]
    by_cases hlast : before = []
    · subst hlast
      have hs : isSpace c = true := hbefore c rfl
      simp [hs, split, flush]
    · have hbefore' : ∀ c ∈ before.getLast?, isSpace c = true := by
        intro c' hc'
        refine hbefore c' ?_
        rw [List.getLast?_cons, Option.mem_def.1 hc']
        rfl
      by_cases hs : isSpace c = true
      · rw [if_pos hs, if_pos hs, ih hbefore' hlast, List.append_assoc, List.cons_append]
      · rw [if_neg hs, if_neg hs, ih hbefore' hlast]

/-- **Each word is a piece**: one without spaces, between spaces or the ends of the text -/
theorem split_word (hword : ∀ c ∈ word, isSpace c = false) (hne : word ≠ [])
    (hbefore : ∀ c ∈ before.getLast?, isSpace c = true) (hafter : ∀ c ∈ after.head?, isSpace c = true) :
    split isSpace isBreak (before ++ word ++ after) [] =
      split isSpace isBreak before [] ++ .word word :: split isSpace isBreak after [] := by
  have hrest : split isSpace isBreak (word ++ after) [] = .word word :: split isSpace isBreak after [] := by
    rw [split_append_word hword, List.nil_append, split_flush hafter, flush_of_ne hne]
    rfl
  rw [List.append_assoc]
  by_cases hnil : before = []
  · rw [hnil, List.nil_append, hrest]
    rfl
  · rw [split_append hbefore hnil, hrest]

end Split

/-! ## Places -/

section Layout

variable (w : ℕ)

/-- the number of the cell at a row and a column -/
def index (pos : ℕ × ℕ) : ℕ := w * pos.1 + pos.2

/-- where a word of `n` characters goes -/
def put (pos : ℕ × ℕ) (n : ℕ) : ℕ × ℕ := if pos.2 + n < w then pos else (pos.1 + 1, 0)

/-- where the piece after the next one goes -/
def next (pos : ℕ × ℕ) : Piece α → ℕ × ℕ
  | .word cs => if pos.2 + cs.length < w then (pos.1, pos.2 + cs.length)
    else (pos.1 + 1 + cs.length / w, cs.length % w)
  | .newline _ => (pos.1 + 1, 0)

/-- characters in cells one behind the other -/
def place (i : ℕ) (cs : List α) : List (α × Option ℕ) := (cs.zipIdx i).map fun e => (e.1, some e.2)

/-- each character of a piece with its cell, a break with none -/
def layout : (pos : ℕ × ℕ) → List (Piece α) → List (α × Option ℕ)
  | _, [] => []
  | pos, .word cs :: ps => place (index w (put w pos cs.length)) cs ++ layout (next w pos (.word cs)) ps
  | pos, .newline c :: ps => (c, none) :: layout (next w pos (.newline c)) ps

/-- where the next piece goes after all of them -/
def finish (pos : ℕ × ℕ) (ps : List (Piece α)) : ℕ × ℕ := ps.foldl (next w) pos

/-- where the last word of them ends; `ret` without words -/
def lastEnd : (pos ret : ℕ × ℕ) → List (Piece α) → ℕ × ℕ
  | _, ret, [] => ret
  | pos, _, .word cs :: ps => lastEnd (next w pos (.word cs)) (next w pos (.word cs)) ps
  | pos, ret, .newline c :: ps => lastEnd (next w pos (.newline c)) ret ps

/-- no cell is in a row before `row`, or before the row of the character before; each break is one row more, and behind
it comes the first cell of a row -/
def Rows : (row : ℕ) → (atBreak : Bool) → List (α × Option ℕ) → Prop
  | _, _, [] => True
  | row, _, (_, none) :: l => Rows (row + 1) true l
  | row, atBreak, (_, some p) :: l => row ≤ p / w ∧ (atBreak = true → p % w = 0) ∧ Rows (p / w) false l

variable {w} {pos : ℕ × ℕ} {ps qs : List (Piece α)}

theorem next_lt (hw : 0 < w) (pos : ℕ × ℕ) (p : Piece α) : (next w pos p).2 < w := by
  cases p with
  | word cs =>
    rw [next]
    split_ifs with hfit
    · exact hfit
    · exact Nat.mod_lt _ hw
  | newline c => exact hw

/-- a word ends right behind its last character -/
theorem index_next (cs : List α) : index w (next w pos (.word cs)) = index w (put w pos cs.length) + cs.length := by
  by_cases hfit : pos.2 + cs.length < w
  · simp only [index, next, put, if_pos hfit]
    omega
  · have hdiv := Nat.div_add_mod cs.length w
    simp only [index, next, put, if_neg hfit, Nat.mul_add, Nat.mul_one]
    omega

theorem index_le_put (h : pos.2 < w) (n : ℕ) : index w pos ≤ index w (put w pos n) := by
  unfold put
  split_ifs
  · exact le_refl _
  · simp only [index, Nat.mul_add, Nat.mul_one]
    omega

theorem index_le_newline (h : pos.2 < w) (c : α) : index w pos ≤ index w (next w pos (.newline c)) := by
  simp only [index, next, Nat.mul_add, Nat.mul_one]
  omega

/-! ## The layout of a text -/

theorem map_fst_place (i : ℕ) (cs : List α) : (place i cs).map Prod.fst = cs := by
  rw [place, List.map_map, Function.comp_def]
  exact List.zipIdx_map_fst i cs

theorem filterMap_place (i : ℕ) (cs : List α) : (place i cs).filterMap Prod.snd = List.range' i cs.length := by
  rw [place, List.filterMap_map]
  simp only [Function.comp_def, List.filterMap_eq_map']
  exact List.zipIdx_map_snd i cs

/-- every character is in the layout, in its turn -/
theorem layout_fst (pos : ℕ × ℕ) (ps : List (Piece α)) : (layout w pos ps).map Prod.fst = ps.flatMap Piece.chars := by
  induction ps generalizing pos with
  | nil => rfl
  | cons p ps ih =>
    cases p with
    | word cs => rw [layout, List.map_append, map_fst_place, ih, List.flatMap_cons]; rfl
    | newline c => rw [layout, List.map_cons, ih, List.flatMap_cons]; rfl

theorem layout_append (pos : ℕ × ℕ) (ps qs : List (Piece α)) :
    layout w pos (ps ++ qs) = layout w pos ps ++ layout w (finish w pos ps) qs := by
  induction ps generalizing pos with
  | nil => rfl
  | cons p ps ih =>
    cases p with
    | word cs => rw [List.cons_append, layout, ih, layout, List.append_assoc]; rfl
    | newline c => rw [List.cons_append, layout, ih, layout]; rfl

/-- the breaks have no cell, and nothing else -/
theorem layout_break {isBreak : α → Bool} (pos : ℕ × ℕ) {ps : List (Piece α)} (hps : ∀ p ∈ ps,
    (∃ c, p = .newline c ∧ isBreak c = true) ∨ ∃ cs, p = .word cs ∧ ∀ c ∈ cs, isBreak c = false) :
    ∀ e ∈ layout w pos ps, e.2 = none ↔ isBreak e.1 = true := by
  induction ps generalizing pos with
  | nil => exact List.forall_mem_nil _
  | cons p ps ih =>
    obtain ⟨hp, hrest⟩ := List.forall_mem_cons.1 hps
    intro e he
    rcases hp with ⟨c, rfl, hc⟩ | ⟨cs, rfl, hcs⟩
    · rcases List.mem_cons.1 he with rfl | he
      · exact iff_of_true rfl hc
      · exact ih _ hrest e he
    · rcases List.mem_append.1 he with he | he
      · obtain ⟨⟨c, i⟩, hmem, rfl⟩ := List.mem_map.1 he
        exact iff_of_false nofun (by simp [hcs c (List.fst_mem_of_mem_zipIdx hmem)])
      · exact ih _ hrest e he

/-- the cells of the layout are not before the start -/
theorem layout_ge (hw : 0 < w) (h : pos.2 < w) (ps : List (Piece α)) :
    ∀ p ∈ (layout w pos ps).filterMap Prod.snd, index w pos ≤ p := by
  induction ps generalizing pos with
  | nil => exact List.forall_mem_nil _
  | cons piece ps ih =>
    intro p hp
    have hrest := ih (next_lt hw pos piece)
    cases piece with
    | word cs =>
      have hput := index_le_put h cs.length
      rw [layout, List.filterMap_append, filterMap_place] at hp
      rcases List.mem_append.1 hp with hp | hp
      · exact hput.trans (List.mem_range'_1.1 hp).1
      · have hle := hrest p hp
        rw [index_next] at hle
        omega
    | newline c =>
      rw [layout, List.filterMap_cons_none rfl] at hp
      exact (index_le_newline h c).trans (hrest p hp)

/-- **The cells go up** -/
theorem layout_increasing (hw : 0 < w) (pos : ℕ × ℕ) (ps : List (Piece α)) :
    ((layout w pos ps).filterMap Prod.snd).Pairwise (· < ·) := by
  induction ps generalizing pos with
  | nil => exact List.Pairwise.nil
  | cons piece ps ih =>
    cases piece with
    | word cs =>
      rw [layout, List.filterMap_append, filterMap_place, List.pairwise_append]
      refine ⟨List.pairwise_lt_range', ih _, ?_⟩
      intro p hp q hq
      have hlt := (List.mem_range'_1.1 hp).2
      have hle := layout_ge hw (next_lt hw pos (.word cs)) ps q hq
      rw [index_next] at hle
      omega
    | newline c =>
      rw [layout, List.filterMap_cons_none rfl]
      exact ih _

/-! ## Rows -/

theorem Rows.mono {l : List (α × Option ℕ)} {row row' : ℕ} {atBreak : Bool} (h : Rows w row atBreak l)
    (hle : row' ≤ row) : Rows w row' atBreak l := by
  induction l generalizing row row' atBreak with
  | nil => trivial
  | cons e l ih =>
    rcases e with ⟨c, _ | p⟩
    · exact ih h (Nat.succ_le_succ hle)
    · exact ⟨hle.trans h.1, h.2⟩

/-- a word, and what comes behind it -/
theorem Rows.word {l : List (α × Option ℕ)} {row i : ℕ} {atBreak : Bool} (cs : List α) (hrow : row ≤ i / w)
    (hbreak : atBreak = true → i % w = 0) (hne : cs ≠ []) (h : Rows w ((i + cs.length) / w) false l) :
    Rows w row atBreak (place i cs ++ l) := by
  induction cs generalizing row i atBreak with
  | nil => exact absurd rfl hne
  | cons c cs ih =>
    refine ⟨hrow, hbreak, ?_⟩
    by_cases hnil : cs = []
    · subst hnil
      exact h.mono (Nat.div_le_div_right (Nat.le_succ i))
    · refine ih (Nat.div_le_div_right (Nat.le_succ i)) nofun hnil ?_
      rwa [List.length_cons, Nat.add_comm cs.length, ← Nat.add_assoc] at h

theorem index_div (h : pos.2 < w) : index w pos / w = pos.1 := by
  rw [index, Nat.mul_add_div (Nat.zero_lt_of_lt h), Nat.div_eq_of_lt h, Nat.add_zero]

theorem index_mod (h : pos.2 < w) : index w pos % w = pos.2 := by
  rw [index, Nat.mul_add_mod, Nat.mod_eq_of_lt h]

theorem put_lt (hw : 0 < w) (h : pos.2 < w) (n : ℕ) : (put w pos n).2 < w := by
  unfold put
  split_ifs
  · exact h
  · exact hw

/-- **Rows go on, and breaks start rows** -/
theorem layout_rows (hw : 0 < w) (h : pos.2 < w) {atBreak : Bool} (hbreak : atBreak = true → pos.2 = 0)
    {ps : List (Piece α)} (hne : ∀ cs, Piece.word cs ∈ ps → cs ≠ []) : Rows w pos.1 atBreak (layout w pos ps) := by
  induction ps generalizing pos atBreak with
  | nil => trivial
  | cons piece ps ih =>
    have hrest : ∀ cs, Piece.word cs ∈ ps → cs ≠ [] := fun cs hcs => hne cs (List.mem_cons_of_mem _ hcs)
    have hlt := next_lt hw pos piece
    cases piece with
    | word cs =>
      have hput := put_lt hw h cs.length
      refine Rows.word cs ?_ ?_ (hne cs List.mem_cons_self) ?_
      · rw [index_div hput]
        unfold put
        split_ifs
        · exact le_refl _
        · exact Nat.le_succ _
      · intro hat
        have hzero : (put w pos cs.length).2 = 0 := by
          unfold put
          split_ifs
          · exact hbreak hat
          · rfl
        rw [index, hzero, Nat.add_zero, Nat.mul_mod_right]
      · rw [← index_next, index_div hlt]
        exact ih hlt nofun hrest
    | newline c => exact ih hlt (fun _ => rfl) hrest

theorem split_ne {isSpace isBreak : α → Bool} {text cur : List α} :
    ∀ cs, Piece.word cs ∈ split isSpace isBreak text cur → cs ≠ [] := by
  have hflush : ∀ cur cs : List α, Piece.word cs ∈ flush cur → cs ≠ [] := by
    intro cur cs hcs
    obtain ⟨hword, hne⟩ := mem_flush hcs
    cases hword
    exact hne
  induction text generalizing cur with
  | nil => exact hflush cur
  | cons c text ih =>
    intro cs hcs
    rw [split] at hcs
    split_ifs at hcs
    · rcases List.mem_append.1 hcs with hcs | hcs
      · exact hflush cur cs hcs
      · rcases List.mem_cons.1 hcs with hcs | hcs
        · cases hcs
        · exact ih cs hcs
    · rcases List.mem_append.1 hcs with hcs | hcs
      · exact hflush cur cs hcs
      · rcases List.mem_cons.1 hcs with hcs | hcs
        · cases hcs
          exact List.cons_ne_nil _ _
        · exact ih cs hcs
    · exact ih cs hcs

theorem finish_lt (hw : 0 < w) (h : pos.2 < w) (ps : List (Piece α)) : (finish w pos ps).2 < w := by
  induction ps generalizing pos with
  | nil => exact h
  | cons p ps ih => exact ih (next_lt hw pos p)

theorem getElem?_place {i k : ℕ} {cs : List α} (hk : k < cs.length) :
    ((place i cs).map Prod.snd)[k]? = some (some (i + k)) := by
  simp [place, hk]

/-- **A word no longer than a row is in one row** -/
theorem layout_word (hw : 0 < w) (pos : ℕ × ℕ) (ps qs : List (Piece α)) {cs : List α} (hlen : cs.length ≤ w) :
    ∃ row, ∀ k < cs.length, ∃ p, ((layout w pos (ps ++ .word cs :: qs)).map Prod.snd)[
      (ps.flatMap Piece.chars).length + k]? = some (some p) ∧ p / w = row := by
  have hbefore : ((layout w pos ps).map Prod.snd).length = (ps.flatMap Piece.chars).length := by
    rw [← layout_fst pos ps, List.length_map, List.length_map]
  refine ⟨(put w (finish w pos ps) cs.length).1, ?_⟩
  intro k hk
  refine ⟨index w (put w (finish w pos ps) cs.length) + k, ?_, ?_⟩
  · rw [layout_append, layout, List.map_append, List.map_append, List.getElem?_append_right (by omega), hbefore,
      Nat.add_sub_cancel_left, List.getElem?_append_left (by simpa [place] using hk)]
    exact getElem?_place hk
  · have hroom : (put w (finish w pos ps) cs.length).2 + k < w := by
      unfold put
      split_ifs
      · omega
      · simp only
        omega
    rw [index, Nat.add_assoc, Nat.mul_add_div hw, Nat.div_eq_of_lt hroom, Nat.add_zero]

/-! ## The end of a text -/

theorem finish_append (pos : ℕ × ℕ) (ps qs : List (Piece α)) :
    finish w pos (ps ++ qs) = finish w (finish w pos ps) qs := List.foldl_append

theorem row_le_next (pos : ℕ × ℕ) (p : Piece α) : pos.1 ≤ (next w pos p).1 := by
  cases p with
  | word cs =>
    rw [next]
    split_ifs
    · exact le_refl _
    · simp only [Nat.add_assoc]
      exact Nat.le_add_right _ _
  | newline c => exact Nat.le_succ _

theorem row_le_finish (pos : ℕ × ℕ) (ps : List (Piece α)) : pos.1 ≤ (finish w pos ps).1 := by
  induction ps generalizing pos with
  | nil => exact le_refl _
  | cons p ps ih => exact (row_le_next pos p).trans (ih _)

theorem index_le_next (h : pos.2 < w) (p : Piece α) : index w pos ≤ index w (next w pos p) := by
  cases p with
  | word cs =>
    rw [index_next]
    exact (index_le_put h cs.length).trans (Nat.le_add_right _ _)
  | newline c => exact index_le_newline h c

theorem index_le_finish (hw : 0 < w) (h : pos.2 < w) (ps : List (Piece α)) :
    index w pos ≤ index w (finish w pos ps) := by
  induction ps generalizing pos with
  | nil => exact le_refl _
  | cons p ps ih => exact (index_le_next h p).trans (ih (next_lt hw pos p))

/-- of positions in rows, the one before in reading order -/
theorem index_le_iff {pos' : ℕ × ℕ} (h : pos.2 < w) (h' : pos'.2 < w) :
    index w pos ≤ index w pos' ↔ pos.1 < pos'.1 ∨ pos.1 = pos'.1 ∧ pos.2 ≤ pos'.2 := by
  simp only [index]
  rcases Nat.lt_trichotomy pos.1 pos'.1 with hlt | heq | hgt
  · have hrow := Nat.mul_le_mul_left w hlt
    rw [Nat.mul_succ] at hrow
    constructor
    · exact fun _ => Or.inl hlt
    · omega
  · rw [heq]
    omega
  · have hrow := Nat.mul_le_mul_left w hgt
    rw [Nat.mul_succ] at hrow
    constructor
    · omega
    · omega

/-- a piece keeps the order of two positions -/
theorem index_next_mono {pos' : ℕ × ℕ} (hw : 0 < w) (h : pos.2 < w) (h' : pos'.2 < w)
    (hle : index w pos ≤ index w pos') (p : Piece α) : index w (next w pos p) ≤ index w (next w pos' p) := by
  rw [index_le_iff (next_lt hw pos p) (next_lt hw pos' p)]
  rw [index_le_iff h h'] at hle
  cases p with
  | word cs =>
    simp only [next]
    split_ifs with hfit hfit'
    · simp only
      omega
    · have hrows := Nat.zero_le (cs.length / w)
      simp only
      omega
    · -- only the first one wraps: the word is shorter than a row
      have hzero : cs.length / w = 0 := Nat.div_eq_of_lt (by omega)
      have hmod : cs.length % w = cs.length := Nat.mod_eq_of_lt (by omega)
      simp only [hzero, hmod]
      omega
    · simp only
      omega
  | newline c =>
    simp only [next]
    omega

theorem finish_mono {pos' : ℕ × ℕ} (hw : 0 < w) (h : pos.2 < w) (h' : pos'.2 < w)
    (hle : index w pos ≤ index w pos') (ps : List (Piece α)) :
    index w (finish w pos ps) ≤ index w (finish w pos' ps) := by
  induction ps generalizing pos pos' with
  | nil => exact hle
  | cons p ps ih => exact ih (next_lt hw pos p) (next_lt hw pos' p) (index_next_mono hw h h' hle p)

theorem lastEnd_le {ret : ℕ × ℕ} (hret : ret.1 ≤ pos.1) (ps : List (Piece α)) :
    (lastEnd w pos ret ps).1 ≤ (finish w pos ps).1 := by
  induction ps generalizing pos ret with
  | nil => exact hret
  | cons p ps ih =>
    cases p with
    | word cs => exact ih (le_refl _)
    | newline c => exact ih (hret.trans (row_le_next pos (.newline c)))

theorem lastEnd_append (pos ret : ℕ × ℕ) (ps qs : List (Piece α)) :
    lastEnd w pos ret (ps ++ qs) = lastEnd w (finish w pos ps) (lastEnd w pos ret ps) qs := by
  induction ps generalizing pos ret with
  | nil => rfl
  | cons p ps ih =>
    cases p with
    | word cs => exact ih _ _
    | newline c => exact ih _ _

/-- is the last piece a word? -/
def EndsInWord (ps : List (Piece α)) : Prop := ∃ qs cs, ps = qs ++ [.word cs]

theorem endsInWord_cons {p : Piece α} (hne : ps ≠ []) : EndsInWord (p :: ps) ↔ EndsInWord ps := by
  constructor
  · rintro ⟨qs, cs, heq⟩
    cases qs with
    | nil => exact absurd (List.cons.inj heq).2 hne
    | cons q qs => exact ⟨qs, cs, (List.cons.inj heq).2⟩
  · rintro ⟨qs, cs, rfl⟩
    exact ⟨p :: qs, cs, rfl⟩

/-- with a word at the end the text ends where that does, with a break in a later row -/
theorem lastEnd_word (pos ret : ℕ × ℕ) (h : EndsInWord ps) : lastEnd w pos ret ps = finish w pos ps := by
  obtain ⟨qs, cs, rfl⟩ := h
  rw [lastEnd_append, finish_append]
  rfl

theorem lastEnd_lt {ret : ℕ × ℕ} (hret : ret.1 ≤ pos.1) (hne : ps ≠ []) (h : ¬ EndsInWord ps) :
    (lastEnd w pos ret ps).1 < (finish w pos ps).1 := by
  obtain ⟨qs, p, hlast⟩ := ps.eq_nil_or_concat.resolve_left hne
  rw [List.concat_eq_append] at hlast
  cases p with
  | word cs => exact absurd ⟨qs, cs, hlast⟩ h
  | newline c =>
    rw [hlast, lastEnd_append, finish_append]
    exact Nat.lt_succ_of_le (lastEnd_le hret qs)

theorem lastEnd_eq_finish_iff {ret : ℕ × ℕ} (hret : ret.1 ≤ pos.1) (hne : ps ≠ []) :
    lastEnd w pos ret ps = finish w pos ps ↔ EndsInWord ps := by
  constructor
  · intro heq
    by_contra hno
    have hlt := lastEnd_lt (w := w) hret hne hno
    rw [heq] at hlt
    exact absurd hlt (lt_irrefl _)
  · exact lastEnd_word pos ret

end Layout

end Wrb.WordWrap
