/-
Cells in a table, each with a link to another: the list that the links make from a cursor on, and reading it in pages.

- `Chain`: the keys of the cells from a cursor along the links to the end;
- `Chain.congr`: what does not change a link on the chain does not change the chain;
- `iterate_readCell`: `n` steps of reading take the first `n` cells;
- `readPages_eq`: reading page after page, each from the link of the last cell of the page before, reads the whole chain
  once, also where its length is a multiple of the page size.
-/
import Mathlib.Tactic

namespace Wrb.Links

variable {κ β : Type} (cells : κ → Option β) (link : β → Option κ)

/-- the keys from a cursor on -/
inductive Chain : Option κ → List κ → Prop where
  | nil : Chain none []
  | cons {k : κ} {b : β} {ks : List κ} : cells k = some b → Chain (link b) ks → Chain (some k) (k :: ks)

/-- one step of reading: the cell at the cursor goes to the list. At the end, and at a cell that is not there, nothing
happens -/
def readCell (s : Option κ × List (κ × β)) : Option κ × List (κ × β) :=
  match s.1 with
  | none => s
  | some k =>
    match cells k with
    | none => s
    | some b => (link b, s.2 ++ [(k, b)])

/-- keys with their cells -/
def entries (ks : List κ) : List (κ × β) := ks.filterMap fun k => (cells k).map fun b => (k, b)

variable {cells link}

namespace Chain

theorem congr {cells' : κ → Option β} {c : Option κ} {ks : List κ} (h : Chain cells link c ks)
    (hsame : ∀ k ∈ ks, (cells' k).map link = (cells k).map link) : Chain cells' link c ks := by
  induction h with
  | nil => exact .nil
  | @cons k b ks hk hrest ih =>
    have hlink : (cells' k).map link = some (link b) := by rw [hsame k List.mem_cons_self, hk, Option.map_some]
    obtain ⟨b', hk', hb'⟩ := Option.map_eq_some_iff.1 hlink
    refine .cons hk' ?_
    rw [hb']
    exact ih fun k' hk' => hsame k' (List.mem_cons_of_mem k hk')

/-- the rest of a chain starts at the link of the cell before it -/
theorem after {c : Option κ} {k : κ} {ks ks' : List κ} (h : Chain cells link c (ks ++ k :: ks')) :
    ∃ b, cells k = some b ∧ Chain cells link (link b) ks' := by
  induction ks generalizing c with
  | nil =>
    cases h with
    | cons hk hrest => exact ⟨_, hk, hrest⟩
  | cons k₀ ks ih =>
    cases h with
    | cons _ hrest => exact ih hrest

theorem eq_nil {ks : List κ} (h : Chain cells link none ks) : ks = [] := by
  cases h
  rfl

end Chain

theorem entries_cons {k : κ} {b : β} (h : cells k = some b) (ks : List κ) :
    entries cells (k :: ks) = (k, b) :: entries cells ks := by
  have hhead : (fun k => (cells k).map fun b => (k, b)) k = some (k, b) := by
    show (cells k).map _ = _
    rw [h, Option.map_some]
  exact List.filterMap_cons_some hhead

theorem entries_map_fst {ks : List κ} (h : ∀ k ∈ ks, (cells k).isSome) : (entries cells ks).map Prod.fst = ks := by
  induction ks with
  | nil => rfl
  | cons k ks ih =>
    obtain ⟨hk, hks⟩ := List.forall_mem_cons.1 h
    obtain ⟨b, hb⟩ := Option.isSome_iff_exists.1 hk
    rw [entries_cons hb, List.map_cons, ih hks]

theorem mem_entries {ks : List κ} {k : κ} {b : β} (h : (k, b) ∈ entries cells ks) : k ∈ ks ∧ cells k = some b := by
  obtain ⟨k', hk', hmap⟩ := List.mem_filterMap.1 h
  obtain ⟨b', hb', heq⟩ := Option.map_eq_some_iff.1 hmap
  cases heq
  exact ⟨hk', hb'⟩

theorem entries_append (ks ks' : List κ) : entries cells (ks ++ ks') = entries cells ks ++ entries cells ks' :=
  List.filterMap_append

theorem iterate_readCell_none (n : ℕ) (acc : List (κ × β)) : (readCell cells link)^[n] (none, acc) = (none, acc) := by
  induction n with
  | zero => rfl
  | succ n ih => rw [Function.iterate_succ_apply]; exact ih

/-- nothing is read but cells of the table -/
theorem mem_iterate_readCell {n : ℕ} {s : Option κ × List (κ × β)} (h : ∀ e ∈ s.2, cells e.1 = some e.2) :
    ∀ e ∈ ((readCell cells link)^[n] s).2, cells e.1 = some e.2 := by
  induction n generalizing s with
  | zero => exact h
  | succ n ih =>
    rw [Function.iterate_succ_apply]
    apply ih
    rcases s with ⟨_ | k, acc⟩
    · exact h
    · cases hk : cells k with
      | none => simp only [readCell, hk]; exact h
      | some b =>
        simp only [readCell, hk]
        exact List.forall_mem_append.2 ⟨h, List.forall_mem_singleton.2 hk⟩

/-- **A page.** `n` steps of reading take the first `n` cells -/
theorem iterate_readCell {c : Option κ} {ks : List κ} (h : Chain cells link c ks) (n : ℕ) (acc : List (κ × β)) :
    ((readCell cells link)^[n] (c, acc)).2 = acc ++ entries cells (ks.take n) := by
  induction n generalizing c ks acc with
  | zero => exact (List.append_nil acc).symm
  | succ n ih =>
    cases h with
    | nil => rw [iterate_readCell_none, List.take_nil]; exact (List.append_nil acc).symm
    | @cons k b ks hk hrest =>
      have hstep : readCell cells link (some k, acc) = (link b, acc ++ [(k, b)]) := by simp only [readCell, hk]
      rw [Function.iterate_succ_apply, hstep, ih hrest, List.take_succ_cons, entries_cons hk, List.append_assoc]
      rfl

/-! ## Pages -/

/-- page after page, until one is empty, or its last cell has no link. `none` is a run out of fuel -/
def readPages (cells : κ → Option β) (link : β → Option κ) (n : ℕ) : (fuel : ℕ) → Option κ → Option (List (κ × β))
  | 0, _ => none
  | fuel + 1, c =>
    let page := ((readCell cells link)^[n] (c, [])).2
    match page.getLast? with
    | none => some []
    | some e =>
      match link e.2 with
      | none => some page
      | some k => (readPages cells link n fuel (some k)).map (page ++ ·)

/-- **All the pages.** They hold each cell of the chain once, in the order of the chain -/
theorem readPages_eq {n : ℕ} (hn : 0 < n) {c : Option κ} {ks : List κ} (h : Chain cells link c ks) {fuel : ℕ}
    (hfuel : ks.length < fuel) : readPages cells link n fuel c = some (entries cells ks) := by
  induction fuel generalizing c ks with
  | zero => exact absurd hfuel (Nat.not_lt_zero _)
  | succ fuel ih =>
    have hpage : ((readCell cells link)^[n] (c, [])).2 = entries cells (ks.take n) := iterate_readCell h n []
    have hsplit : entries cells ks = entries cells (ks.take n) ++ entries cells (ks.drop n) := by
      rw [← entries_append, List.take_append_drop]
    unfold readPages
    simp only [hpage]
    rcases List.eq_nil_or_concat' (ks.take n) with hnil | ⟨front, k, hlast⟩
    · have hks : ks = [] := (List.take_eq_nil_iff.1 hnil).resolve_left (Nat.ne_of_gt hn)
      rw [hks, List.take_nil]
      rfl
    · have hall : ks = front ++ k :: ks.drop n := by
        rw [← List.singleton_append, ← List.append_assoc, ← hlast, List.take_append_drop]
      obtain ⟨b, hb, hrest⟩ := (hall ▸ h).after
      have hpage' : (entries cells (ks.take n)).getLast? = some (k, b) := by
        have hk : entries cells [k] = [(k, b)] := entries_cons hb []
        rw [hlast, entries_append, hk, List.getLast?_concat]
      rw [hsplit]
      simp only [hpage']
      cases hlink : link b with
      | none =>
        have hnil : ks.drop n = [] := (hlink ▸ hrest).eq_nil
        rw [hnil]
        exact congrArg some (List.append_nil _).symm
      | some k' =>
        have hpos : 0 < ks.length := by
          rw [hall, List.length_append, List.length_cons]
          omega
        have hlen : (ks.drop n).length < fuel := by
          rw [List.length_drop]
          omega
        have hnext : readPages cells link n fuel (some k') = some (entries cells (ks.drop n)) := ih (hlink ▸ hrest) hlen
        simp only [hnext, Option.map_some]

end Wrb.Links
