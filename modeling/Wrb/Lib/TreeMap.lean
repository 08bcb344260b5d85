/-
Rebuilding an ordered map from its entries, in the order a decoder reads them.

`foldl_insert_toList`: inserting a map's entries into the empty map gives the map back.
`sum_insert`, `sum_erase`: how a sum over the entries changes when one of them does.
`Fresh`: the entries still to be inserted are distinct and not in the map yet. It holds of a map's own entry list and
survives each insertion, so a loop that refuses duplicates accepts every entry (`fresh_toList`, `Fresh.tail`).
`table`: a map filled from a list of entries. With distinct keys it answers each key with its entry (`table_of_mem`),
else with the last entry the key has (`table_of_last`, `table_append_iff`).
-/
import Mathlib.Tactic
import Std.Data.ExtTreeMap

namespace Wrb.TreeMap

open Std

variable {α β : Type} [Ord α] [TransOrd α] [LawfulEqOrd α]

theorem foldl_insert_toList (m : ExtTreeMap α β) :
    m.toList.foldl (fun t e => t.insert e.1 e.2) (∅ : ExtTreeMap α β) = m := by
  classical
  have hself : ∀ k : α, compare k k = .eq := fun k => by simp
  rw [← ExtTreeMap.insertMany_list_eq_foldl]
  ext k v
  constructor
  · intro h
    by_contra hne
    cases hm : m[k]? with
    | some w =>
      have hmem : (k, w) ∈ m.toList := ExtTreeMap.mem_toList_iff_getElem?_eq_some.2 hm
      rw [ExtTreeMap.getElem?_insertMany_list_of_mem (hself k) ExtTreeMap.distinct_keys_toList hmem] at h
      exact hne (hm.trans h)
    | none =>
      have hout : (m.toList.map Prod.fst).contains k = false := by
        rw [ExtTreeMap.map_fst_toList_eq_keys, Bool.eq_false_iff, ne_eq, List.contains_iff_mem, ExtTreeMap.mem_keys,
          ← ExtTreeMap.isSome_getElem?_iff_mem, hm]
        simp
      rw [ExtTreeMap.getElem?_insertMany_list_of_contains_eq_false hout] at h
      simp at h
  · intro h
    have hmem : (k, v) ∈ m.toList := ExtTreeMap.mem_toList_iff_getElem?_eq_some.2 h
    exact ExtTreeMap.getElem?_insertMany_list_of_mem (hself k) ExtTreeMap.distinct_keys_toList hmem

/-- the entries `l` have distinct keys, none of them in `m` yet -/
structure Fresh (m : ExtTreeMap α β) (l : List (α × β)) : Prop where
  notMem : ∀ e ∈ l, e.1 ∉ m
  distinct : l.Pairwise fun a b => a.1 ≠ b.1

theorem fresh_toList (m : ExtTreeMap α β) : Fresh ∅ m.toList where
  notMem _ _ := by simp
  distinct := (ExtTreeMap.distinct_keys_toList (t := m)).imp fun h heq => h (by simp [heq])

omit [LawfulEqOrd α] in
theorem Fresh.head {m : ExtTreeMap α β} {e : α × β} {l : List (α × β)} (h : Fresh m (e :: l)) : e.1 ∉ m :=
  h.notMem e List.mem_cons_self

theorem Fresh.tail {m : ExtTreeMap α β} {e : α × β} {l : List (α × β)} (h : Fresh m (e :: l)) :
    Fresh (m.insert e.1 e.2) l where
  notMem x hx := by
    rw [ExtTreeMap.mem_insert]
    rintro (heq | hm)
    · exact (List.pairwise_cons.1 h.distinct).1 x hx (by simpa using heq)
    · exact h.notMem x (List.mem_cons_of_mem e hx) hm
  distinct := (List.pairwise_cons.1 h.distinct).2

/-- a map filled from a list of entries -/
def table (l : List (α × β)) : ExtTreeMap α β := l.foldl (fun t e => t.insert e.1 e.2) ∅

omit [LawfulEqOrd α] in
theorem table_eq_insertMany (l : List (α × β)) : table l = (∅ : ExtTreeMap α β).insertMany l :=
  (ExtTreeMap.insertMany_list_eq_foldl).symm

theorem table_of_mem {l : List (α × β)} (hl : (l.map Prod.fst).Nodup) {k : α} {v : β} (h : (k, v) ∈ l) :
    (table l)[k]? = some v := by
  classical
  rw [table_eq_insertMany]
  refine ExtTreeMap.getElem?_insertMany_list_of_mem (k := k) (by simp) ?_ h
  exact (List.pairwise_map.1 hl).imp fun hne heq => hne (by simpa using heq)

omit [LawfulEqOrd α] in
theorem table_concat (l : List (α × β)) (e : α × β) : table (l ++ [e]) = (table l).insert e.1 e.2 := by
  unfold table
  rw [List.foldl_append]
  rfl

/-- every entry of the map is on the list -/
theorem mem_of_table {l : List (α × β)} {k : α} {v : β} (h : (table l)[k]? = some v) : (k, v) ∈ l := by
  induction l using List.reverseRecOn with
  | nil => simp [table] at h
  | append_singleton l e ih =>
    rw [table_concat, ExtTreeMap.getElem?_insert] at h
    split_ifs at h with heq
    · cases h
      rw [← LawfulEqOrd.eq_of_compare heq]
      exact List.mem_append_right _ (List.mem_singleton_self _)
    · exact List.mem_append_left _ (ih h)

theorem table_of_notMem {l : List (α × β)} {k : α} (h : k ∉ l.map Prod.fst) : (table l)[k]? = none := by
  classical
  have hout : (l.map Prod.fst).contains k = false := by
    rw [Bool.eq_false_iff, ne_eq, List.contains_iff_mem]
    exact h
  rw [table_eq_insertMany, ExtTreeMap.getElem?_insertMany_list_of_contains_eq_false hout]
  simp

/-- the last entry with a key is the one that stays -/
theorem table_of_last {l : List (α × β)} (earlier : List (α × β)) {k : α} (v : β) (h : k ∉ l.map Prod.fst) :
    (table (earlier ++ (k, v) :: l))[k]? = some v := by
  classical
  have hout : (l.map Prod.fst).contains k = false := by
    rw [Bool.eq_false_iff, ne_eq, List.contains_iff_mem]
    exact h
  unfold table
  rw [List.foldl_append, List.foldl_cons, ← ExtTreeMap.insertMany_list_eq_foldl,
    ExtTreeMap.getElem?_insertMany_list_of_contains_eq_false hout, ExtTreeMap.getElem?_insert_self]

theorem table_append_of_mem {l : List (α × β)} (earlier : List (α × β)) (hl : (l.map Prod.fst).Nodup) {k : α} {v : β}
    (h : (k, v) ∈ l) : (table (earlier ++ l))[k]? = some v := by
  obtain ⟨front, back, rfl⟩ := List.append_of_mem h
  have hback : k ∉ back.map Prod.fst := by
    rw [List.map_append, List.map_cons, List.nodup_append] at hl
    exact (List.nodup_cons.1 hl.2.1).1
  rw [← List.append_assoc]
  exact table_of_last (earlier ++ front) v hback

/-- where the keys come again later, the earlier entries do not count -/
theorem table_append_iff {earlier l : List (α × β)} (hl : (l.map Prod.fst).Nodup)
    (hsub : ∀ e ∈ earlier, e.1 ∈ l.map Prod.fst) (k : α) (v : β) :
    (table (earlier ++ l))[k]? = some v ↔ (k, v) ∈ l := by
  refine ⟨?_, table_append_of_mem earlier hl⟩
  intro h
  by_cases hk : k ∈ l.map Prod.fst
  · obtain ⟨⟨k', w⟩, hmem, rfl⟩ := List.mem_map.1 hk
    cases Option.some.inj ((table_append_of_mem earlier hl hmem).symm.trans h)
    exact hmem
  · have hnone : k ∉ (earlier ++ l).map Prod.fst := by
      intro hmem
      rw [List.map_append, List.mem_append] at hmem
      rcases hmem with hmem | hmem
      · obtain ⟨e, he, rfl⟩ := List.mem_map.1 hmem
        exact hk (hsub e he)
      · exact hk hmem
    rw [table_of_notMem hnone] at h
    exact absurd h (by simp)

/-- a map all of whose keys are on a list is no larger than the list -/
theorem size_le_of_subset {m : ExtTreeMap α β} {l : List α} (h : ∀ k ∈ m, k ∈ l) : m.size ≤ l.length := by
  have hnodup : m.keys.Nodup := (ExtTreeMap.distinct_keys (t := m)).imp fun hne heq => hne (by simp [heq])
  rw [← ExtTreeMap.length_keys]
  exact (List.subperm_of_subset hnodup fun k hk => h k (ExtTreeMap.mem_keys.1 hk)).length_le

/-! ## Sums over the entries -/

theorem nodup_toList (m : ExtTreeMap α β) : m.toList.Nodup :=
  (ExtTreeMap.distinct_keys_toList (t := m)).imp fun h heq => h (by simp [heq])

theorem toList_perm_of_getElem? {m : ExtTreeMap α β} {k : α} {v : β} (h : m[k]? = some v) :
    m.toList.Perm ((k, v) :: (m.erase k).toList) := by
  have hnew : (k, v) ∉ (m.erase k).toList := by
    rw [ExtTreeMap.mem_toList_iff_getElem?_eq_some]
    simp
  rw [List.perm_ext_iff_of_nodup (nodup_toList m) (List.nodup_cons.2 ⟨hnew, nodup_toList _⟩)]
  rintro ⟨k', v'⟩
  simp only [List.mem_cons, ExtTreeMap.mem_toList_iff_getElem?_eq_some, ExtTreeMap.getElem?_erase, Prod.mk.injEq]
  by_cases hk : k = k'
  · subst hk
    simp [h, eq_comm]
  · simp [hk, Ne.symm hk]

theorem erase_insert (m : ExtTreeMap α β) (k : α) (v : β) : (m.insert k v).erase k = m.erase k := by
  ext k' v'
  simp only [ExtTreeMap.getElem?_erase, ExtTreeMap.getElem?_insert]
  by_cases hk : k = k' <;> simp [hk]

theorem erase_of_getElem?_none {m : ExtTreeMap α β} {k : α} (h : m[k]? = none) : m.erase k = m := by
  ext k' v'
  simp only [ExtTreeMap.getElem?_erase]
  by_cases hk : k = k'
  · subst hk; simp [h]
  · simp [hk]

theorem sum_erase (f : α × β → ℕ) (m : ExtTreeMap α β) (k : α) :
    (m.toList.map f).sum = ((m.erase k).toList.map f).sum + (m[k]?.elim 0 fun v => f (k, v)) := by
  cases h : m[k]? with
  | none => rw [erase_of_getElem?_none h]; rfl
  | some v =>
    rw [((toList_perm_of_getElem? h).map f).sum_eq, List.map_cons, List.sum_cons, Option.elim_some]
    omega

theorem sum_insert (f : α × β → ℕ) (m : ExtTreeMap α β) (k : α) (v : β) :
    ((m.insert k v).toList.map f).sum + (m[k]?.elim 0 fun v => f (k, v)) = (m.toList.map f).sum + f (k, v) := by
  have h1 := sum_erase f (m.insert k v) k
  have h2 := sum_erase f m k
  rw [erase_insert, ExtTreeMap.getElem?_insert_self, Option.elim_some] at h1
  omega

end Wrb.TreeMap
