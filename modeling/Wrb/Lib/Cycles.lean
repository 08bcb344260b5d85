/-
The successor map of a list read as a cycle, and the map back.

`links back l` pairs each element with the next one, and the last with `back`. Where an element comes more than once, a
map filled from these pairs keeps the last. `isCycle_iff`: such a map and the one filled from the swapped pairs are
inverse and go round all elements once if and only if the last occurrences of the elements stand in a row at the end of
the list, beginning with the element the list begins with.
-/
import Mathlib.Tactic
import Wrb.Lib.TreeMap

namespace Wrb.Cycles

open Std Wrb.TreeMap

variable {α : Type}

/-- each element with the next one, and the last with `back` -/
def links (back : α) : List α → List (α × α)
  | [] => []
  | [a] => [(a, back)]
  | a :: b :: l => (a, b) :: links back (b :: l)

theorem map_fst_links (back : α) (l : List α) : (links back l).map Prod.fst = l := by
  induction l using links.induct with
  | case1 => rfl
  | case2 a => rfl
  | case3 a b l ih => rw [links, List.map_cons, ih]

theorem map_snd_links (back : α) (a : α) (l : List α) : (links back (a :: l)).map Prod.snd = l ++ [back] := by
  induction l generalizing a with
  | nil => rfl
  | cons b l ih => rw [links, List.map_cons, ih, List.cons_append]

theorem snd_mem_of_mem_links {back x y a : α} {l : List α} (h : (x, y) ∈ links back (a :: l)) : y ∈ l ++ [back] := by
  rw [← map_snd_links back a l]
  exact List.mem_map_of_mem (f := Prod.snd) h

theorem fst_mem_of_mem_links {back x y : α} {l : List α} (h : (x, y) ∈ links back l) : x ∈ l := by
  rw [← map_fst_links back l]
  exact List.mem_map_of_mem (f := Prod.fst) h

theorem exists_mem_links {back x : α} {l : List α} (h : x ∈ l) : ∃ y, (x, y) ∈ links back l := by
  rw [← map_fst_links back l] at h
  obtain ⟨⟨x', y⟩, hmem, rfl⟩ := List.mem_map.1 h
  exact ⟨y, hmem⟩

/-- the links of the front of a list come first -/
theorem links_append (back : α) (front : List α) (a : α) (l : List α) :
    links back (front ++ a :: l) = links a front ++ links back (a :: l) := by
  induction front using links.induct with
  | case1 => rfl
  | case2 b => rfl
  | case3 b c front ih =>
    calc links back (b :: c :: front ++ a :: l)
      _ = (b, c) :: links back (c :: front ++ a :: l) := rfl
      _ = (b, c) :: (links a (c :: front) ++ links back (a :: l)) := by rw [ih]

/-- a relation that holds along all links holds all the way round -/
theorem isChain_of_links {r : α → α → Prop} {back : α} {l : List α} (h : ∀ x y, (x, y) ∈ links back l → r x y) :
    (l ++ [back]).IsChain r := by
  induction l using links.induct with
  | case1 => exact List.isChain_singleton back
  | case2 a =>
    refine List.isChain_cons_cons.2 ⟨h a back ?_, List.isChain_singleton back⟩
    exact List.mem_singleton_self _
  | case3 a b l ih =>
    refine List.isChain_cons_cons.2 ⟨h a b List.mem_cons_self, ih ?_⟩
    intro x y hxy
    exact h x y (List.mem_cons_of_mem _ hxy)

/-- from `first`, `next` visits every element of `E` once before it returns -/
def IsCycle (next : α → Option α) (E : α → Prop) (first : α) : Prop :=
  ∃ rest, (first :: rest).Nodup ∧ (∀ a, a ∈ first :: rest ↔ E a) ∧
    (first :: rest ++ [first]).IsChain fun a b => next a = some b

/-- a set that holds the first element and with each element the next one holds them all -/
theorem IsCycle.subset_of_closed {next : α → Option α} {E : α → Prop} {first : α} (h : IsCycle next E first)
    {T : List α} (hfirst : first ∈ T) (hnext : ∀ a b, a ∈ T → next a = some b → b ∈ T) : ∀ a, E a → a ∈ T := by
  obtain ⟨rest, -, hmem, hchain⟩ := h
  intro a ha
  refine hchain.induction (fun a => a ∈ T) _ ?_ (fun _ => hfirst) a ?_
  · intro x y hxy hx
    exact hnext x y hx hxy
  · exact List.mem_append_left _ ((hmem a).2 ha)

variable [Ord α] [TransOrd α] [LawfulEqOrd α]

/-- within a repetition-free end of the list the links are in the map -/
theorem next_of_mem_links {back a : α} {l : List α} (front : List α) (hl : (a :: l).Nodup) {x y : α}
    (h : (x, y) ∈ links back (a :: l)) : (table (links back (front ++ a :: l)))[x]? = some y := by
  rw [links_append]
  refine table_append_of_mem _ ?_ h
  rwa [map_fst_links]

/-- what comes before a repetition-free end of the list is what the map back gives at its start -/
theorem prev_of_nodup {back x a : α} {l : List α} (front : List α) (hl : (a :: l).Nodup) (hback : a ≠ back) :
    (table ((links back (front ++ x :: a :: l)).map Prod.swap))[a]? = some x := by
  rw [links_append, List.map_append, links, List.map_cons]
  refine table_of_last _ x ?_
  rw [List.map_map, show Prod.fst ∘ Prod.swap = (Prod.snd : α × α → α) from rfl, map_snd_links, List.mem_append,
    List.mem_singleton]
  intro h
  rcases h with h | h
  · exact (List.nodup_cons.1 hl).1 h
  · exact hback h

/-- a repetition-free end of the list grows to the left until it begins with `first`: where it does, it is closed under
`next` and has every element; where it does not, the element before it is not in it yet -/
theorem exists_suffix {first : α} {all : List α} (hhead : all.head? = some first)
    (hinv : ∀ a b : α, (table (links first all))[a]? = some b ↔ (table ((links first all).map Prod.swap))[b]? = some a)
    (hcycle : IsCycle (fun a : α => (table (links first all))[a]?) (· ∈ all) first) (front : List α)
    (a : α) (l : List α)
    (hall : front ++ a :: l = all) (hl : (a :: l).Nodup) :
    ∃ front rest, front ++ first :: rest = all ∧ (first :: rest).Nodup ∧ ∀ x ∈ all, x ∈ first :: rest := by
  induction front using List.reverseRecOn generalizing a l with
  | nil =>
    subst hall
    cases Option.some.inj hhead
    exact ⟨[], l, rfl, hl, fun x hx => hx⟩
  | append_singleton front x ih =>
    rw [List.append_assoc, List.singleton_append] at hall
    have hend : ∀ u v : α, (u, v) ∈ links first (a :: l) → (table (links first all))[u]? = some v := by
      intro u v huv
      rw [← hall, List.append_cons]
      exact next_of_mem_links _ hl huv
    by_cases ha : a = first
    · subst ha
      refine ⟨front ++ [x], l, by rw [← hall, ← List.append_cons], hl, ?_⟩
      refine hcycle.subset_of_closed List.mem_cons_self ?_
      intro u v hu huv
      obtain ⟨w, hw⟩ : ∃ w, (u, w) ∈ links a (a :: l) := exists_mem_links hu
      cases Option.some.inj ((hend u w hw).symm.trans huv)
      rcases List.mem_append.1 (snd_mem_of_mem_links hw) with hv | hv
      · exact List.mem_cons_of_mem _ hv
      · rw [List.mem_singleton.1 hv]
        exact List.mem_cons_self
    · have hprev : (table ((links first all).map Prod.swap))[a]? = some x := by
        rw [← hall]
        exact prev_of_nodup front hl ha
      have hx : x ∉ a :: l := by
        intro hmem
        obtain ⟨w, hw⟩ : ∃ w, (x, w) ∈ links first (a :: l) := exists_mem_links hmem
        cases Option.some.inj ((hend x w hw).symm.trans ((hinv x a).2 hprev))
        rcases List.mem_append.1 (snd_mem_of_mem_links hw) with hv | hv
        · exact (List.nodup_cons.1 hl).1 hv
        · exact ha (List.mem_singleton.1 hv)
      exact ih x (a :: l) hall (List.nodup_cons.2 ⟨hx, hl⟩)

section Suffix

variable {first : α} {front rest all : List α} (hall : front ++ first :: rest = all) (hnodup : (first :: rest).Nodup)
  (hmem : ∀ x, x ∈ first :: rest ↔ x ∈ all)
include hall hnodup hmem

/-- where a repetition-free end of the list has all elements, its links are the map -/
theorem next_iff_of_suffix (a b : α) :
    (table (links first all))[a]? = some b ↔ (a, b) ∈ links first (first :: rest) := by
  rw [← hall, links_append]
  refine table_append_iff (by rwa [map_fst_links]) ?_ a b
  intro e he
  rw [map_fst_links, hmem, ← hall]
  exact List.mem_append_left _ (fst_mem_of_mem_links he)

/-- and they are the map back: the second elements are the same ones, with `first` put last -/
theorem prev_iff_of_suffix (a b : α) :
    (table ((links first all).map Prod.swap))[b]? = some a ↔ (a, b) ∈ links first (first :: rest) := by
  have hkeys : ((links first (first :: rest)).map Prod.swap).map Prod.fst = rest ++ [first] := by
    rw [List.map_map]
    exact map_snd_links first first rest
  have hperm : (rest ++ [first]).Perm (first :: rest) := List.perm_append_singleton first rest
  rw [← hall, links_append, List.map_append, table_append_iff]
  · exact List.mem_map.trans ⟨fun ⟨e, he, heq⟩ => by cases heq; exact he, fun h => ⟨(a, b), h, rfl⟩⟩
  · rw [hkeys]
    exact hperm.nodup_iff.2 hnodup
  · intro e he
    rw [hkeys, hperm.mem_iff, hmem, ← hall]
    obtain ⟨p, hp, rfl⟩ := List.mem_map.1 he
    rw [Prod.fst_swap]
    cases front with
    | nil => cases hp
    | cons b front =>
      rcases List.mem_append.1 (snd_mem_of_mem_links (x := p.1) (y := p.2) hp) with h | h
      · exact List.mem_append_left _ (List.mem_cons_of_mem _ h)
      · refine List.mem_append_right _ ?_
        rw [List.mem_singleton.1 h]
        exact List.mem_cons_self

theorem isCycle_of_suffix : IsCycle (fun a : α => (table (links first all))[a]?) (· ∈ all) first := by
  refine ⟨rest, hnodup, hmem, isChain_of_links ?_⟩
  intro x y hxy
  exact (next_iff_of_suffix hall hnodup hmem x y).2 hxy

end Suffix

/-- **The maps of a list are one cycle and its inverse exactly when the last occurrences of the elements stand in a row
at the end, beginning with the first element of the list.** -/
theorem isCycle_iff [DecidableEq α] {first : α} {all : List α} (hhead : all.head? = some first) :
    ((∀ a b : α, (table (links first all))[a]? = some b ↔ (table ((links first all).map Prod.swap))[b]? = some a) ∧
      IsCycle (fun a : α => (table (links first all))[a]?) (· ∈ all) first) ↔
    all.dedup <:+ all ∧ all.dedup.head? = some first := by
  constructor
  · intro ⟨hinv, hcycle⟩
    have hne : all ≠ [] := by
      intro h
      rw [h] at hhead
      cases hhead
    obtain ⟨front, rest, hall, hnodup, hmem⟩ := exists_suffix hhead hinv hcycle all.dropLast (all.getLast hne) []
      (List.dropLast_append_getLast hne) (List.nodup_singleton _)
    have hdedup : all.dedup = first :: rest := by
      rw [← hall, List.Subset.dedup_append_right, hnodup.dedup]
      intro x hx
      exact hmem x (hall ▸ List.mem_append_left _ hx)
    rw [hdedup]
    exact ⟨⟨front, hall⟩, rfl⟩
  · intro ⟨⟨front, hall⟩, hfirst⟩
    obtain ⟨rest, hdedup⟩ : ∃ rest, all.dedup = first :: rest := List.head?_eq_some_iff.1 hfirst
    have hmem : ∀ x, x ∈ first :: rest ↔ x ∈ all := by
      intro x
      rw [← hdedup, List.mem_dedup]
    have hnodup : (first :: rest).Nodup := hdedup ▸ List.nodup_dedup all
    rw [hdedup] at hall
    refine ⟨?_, isCycle_of_suffix hall hnodup hmem⟩
    intro a b
    exact (next_iff_of_suffix hall hnodup hmem a b).trans (prev_iff_of_suffix hall hnodup hmem a b).symm

end Wrb.Cycles
