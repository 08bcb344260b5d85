/-
Forests given by a list of nodes that name their parents by key.

`WellFormed`: keys are distinct, every named parent is in the list, and no node is its own ancestor. In any order of the
list, every node then has one chain of ancestors up to a root (`exists_ancestry`, `Ancestry.unique`), without repetition
and shorter than the list (`Ancestry.nodup`, `Ancestry.length_lt`), so that a walk to the root ends. Nodes may be
replaced by others with the same keys and parents (`WellFormed.map`, `Ancestry.map`).
-/
import Mathlib.Tactic
import Mathlib.Order.WellFoundedSet

namespace Wrb.Forest

variable {α κ : Type} (key : α → κ) (parent : α → Option κ) (nodes : List α)

/-- `p` is the parent of `v`, both in the list -/
def IsParent (p v : α) : Prop := p ∈ nodes ∧ v ∈ nodes ∧ parent v = some (key p)

structure WellFormed : Prop where
  distinct : (nodes.map key).Nodup
  closed : ∀ v ∈ nodes, ∀ k, parent v = some k → ∃ p ∈ nodes, key p = k
  acyclic : ∀ v, ¬ Relation.TransGen (IsParent key parent nodes) v v

/-- the ancestors of a node, from its parent to the root -/
inductive Ancestry : α → List α → Prop where
  | root {v : α} (h : parent v = none) : Ancestry v []
  | child {v p : α} {as : List α} (hp : p ∈ nodes) (h : parent v = some (key p)) (has : Ancestry p as) :
    Ancestry v (p :: as)

variable {key parent nodes}

/-- where a rank grows from parent to child there is no cycle -/
theorem acyclic_of_rank {rank : α → ℕ} (h : ∀ p v, IsParent key parent nodes p v → rank p < rank v) (v : α) :
    ¬ Relation.TransGen (IsParent key parent nodes) v v := by
  have hlt : ∀ a b, Relation.TransGen (IsParent key parent nodes) a b → rank a < rank b := by
    intro a b hab
    induction hab with
    | single hp => exact h _ _ hp
    | tail _ hp ih => exact ih.trans (h _ _ hp)
  exact fun hv => Nat.lt_irrefl _ (hlt v v hv)

/-- the parent relation has no infinite chain upwards -/
theorem WellFormed.wellFounded (h : WellFormed key parent nodes) : WellFounded (IsParent key parent nodes) := by
  have hirrefl : Std.Irrefl (Relation.TransGen (IsParent key parent nodes)) := ⟨h.acyclic⟩
  have hstrict : IsStrictOrder α (Relation.TransGen (IsParent key parent nodes)) := {}
  have hon := (List.finite_toSet nodes).wellFoundedOn (r := Relation.TransGen (IsParent key parent nodes))
  refine Subrelation.wf ?_ (Set.wellFoundedOn_iff.1 hon)
  intro p v hpv
  exact ⟨Relation.TransGen.single hpv, hpv.1, hpv.2.1⟩

theorem WellFormed.exists_ancestry (h : WellFormed key parent nodes) {v : α} (hv : v ∈ nodes) :
    ∃ as, Ancestry key parent nodes v as := by
  induction v using h.wellFounded.induction with
  | _ v ih =>
    cases hp : parent v with
    | none => exact ⟨[], .root hp⟩
    | some k =>
      obtain ⟨p, hmem, rfl⟩ := h.closed v hv k hp
      obtain ⟨as, has⟩ := ih p ⟨hmem, hv, hp⟩ hmem
      exact ⟨p :: as, .child hmem hp has⟩

namespace Ancestry

variable {v : α} {as bs : List α}

theorem mem (h : Ancestry key parent nodes v as) : ∀ a ∈ as, a ∈ nodes := by
  induction h with
  | root _ =>
    intro a ha
    cases ha
  | child hp _ _ ih =>
    intro a ha
    rcases List.mem_cons.1 ha with rfl | ha
    · exact hp
    · exact ih a ha

/-- keys tell nodes of the list apart -/
theorem eq_of_key (h : WellFormed key parent nodes) {a b : α} (ha : a ∈ nodes) (hb : b ∈ nodes) (hk : key a = key b) :
    a = b :=
  List.inj_on_of_nodup_map h.distinct ha hb hk

theorem unique (hwf : WellFormed key parent nodes) (h : Ancestry key parent nodes v as)
    (h' : Ancestry key parent nodes v bs) : as = bs := by
  induction h generalizing bs with
  | root hnone =>
    cases h' with
    | root _ => rfl
    | child _ hsome _ => exact absurd (hnone.symm.trans hsome) (by simp)
  | child hp hk _ ih =>
    cases h' with
    | root hnone => exact absurd (hnone.symm.trans hk) (by simp)
    | child hp' hk' has' =>
      have hkey := Option.some.inj (hk.symm.trans hk')
      cases eq_of_key hwf hp hp' hkey
      rw [ih has']

/-- the ancestors of an ancestor are what is left of the chain -/
theorem of_append {pre post : List α} {a : α} (h : Ancestry key parent nodes v (pre ++ a :: post)) :
    Ancestry key parent nodes a post := by
  induction pre generalizing v with
  | nil =>
    cases h with
    | child _ _ has => exact has
  | cons p pre ih =>
    cases h with
    | child _ _ has => exact ih has

/-- an ancestor stands above, by a chain of parents -/
theorem transGen (h : Ancestry key parent nodes v as) (hv : v ∈ nodes) :
    ∀ a ∈ as, Relation.TransGen (IsParent key parent nodes) a v := by
  induction h with
  | root _ =>
    intro a ha
    cases ha
  | child hp hk _ ih =>
    intro a ha
    rcases List.mem_cons.1 ha with rfl | ha
    · exact .single ⟨hp, hv, hk⟩
    · exact .tail (ih hp a ha) ⟨hp, hv, hk⟩

theorem nodup (hwf : WellFormed key parent nodes) (h : Ancestry key parent nodes v as) (hv : v ∈ nodes) :
    (v :: as).Nodup := by
  induction h with
  | root _ => simp
  | child hp hk has ih =>
    refine List.nodup_cons.2 ⟨?_, ih hp⟩
    intro hmem
    exact hwf.acyclic _ ((Ancestry.child hp hk has).transGen hv _ hmem)

theorem length_lt (hwf : WellFormed key parent nodes) (h : Ancestry key parent nodes v as) (hv : v ∈ nodes) :
    as.length < nodes.length := by
  have hsub : v :: as ⊆ nodes := List.cons_subset.2 ⟨hv, h.mem⟩
  exact ((h.nodup hwf hv).subperm hsub).length_le

end Ancestry

/-! ## Nodes replaced by nodes with the same key and parent -/

section Map

variable {β : Type} {f : α → β} {key' : β → κ} {parent' : β → Option κ}

theorem Ancestry.map (hkey : ∀ v, key' (f v) = key v) (hparent : ∀ v, parent' (f v) = parent v) {v : α} {as : List α}
    (h : Ancestry key parent nodes v as) : Ancestry key' parent' (nodes.map f) (f v) (as.map f) := by
  induction h with
  | root hnone => exact .root ((hparent _).trans hnone)
  | child hp hsome _ ih =>
    refine .child (List.mem_map_of_mem hp) ?_ ih
    rw [hparent, hkey, hsome]

/-- a chain of parents comes from one among the nodes replaced -/
theorem transGen_of_map (hkey : ∀ v, key' (f v) = key v)
    (hparent : ∀ v, parent' (f v) = parent v) {a' b' : β}
    (hab : Relation.TransGen (IsParent key' parent' (nodes.map f)) a' b') {b : α} (hb : b ∈ nodes) (hfb : f b = b') :
    ∃ a ∈ nodes, f a = a' ∧ Relation.TransGen (IsParent key parent nodes) a b := by
  have hstep : ∀ {p' : β} {v : α}, v ∈ nodes → IsParent key' parent' (nodes.map f) p' (f v) →
      ∃ p ∈ nodes, f p = p' ∧ IsParent key parent nodes p v := by
    intro p' v hv hp
    obtain ⟨p, hmem, rfl⟩ := List.mem_map.1 hp.1
    refine ⟨p, hmem, rfl, hmem, hv, ?_⟩
    rw [← hparent, hp.2.2, hkey]
  induction hab generalizing b with
  | single hp =>
    subst hfb
    obtain ⟨a, ha, hfa, hp⟩ := hstep hb hp
    exact ⟨a, ha, hfa, .single hp⟩
  | tail _ hp ih =>
    subst hfb
    obtain ⟨p, hmem, hfp, hp⟩ := hstep hb hp
    obtain ⟨a, ha, hfa, hap⟩ := ih hmem hfp
    exact ⟨a, ha, hfa, hap.tail hp⟩

theorem WellFormed.map (h : WellFormed key parent nodes) (hkey : ∀ v, key' (f v) = key v)
    (hparent : ∀ v, parent' (f v) = parent v) : WellFormed key' parent' (nodes.map f) where
  distinct := by
    have hcomp : key' ∘ f = key := funext hkey
    rw [List.map_map, hcomp]
    exact h.distinct
  closed := by
    intro v' hv' k hk
    obtain ⟨v, hv, rfl⟩ := List.mem_map.1 hv'
    obtain ⟨p, hp, rfl⟩ := h.closed v hv k ((hparent v).symm.trans hk)
    exact ⟨f p, List.mem_map_of_mem hp, hkey p⟩
  acyclic := by
    intro v' hv'
    have hmem : v' ∈ nodes.map f := by
      cases hv' with
      | single hp => exact hp.2.1
      | tail _ hp => exact hp.2.1
    obtain ⟨v, hv, rfl⟩ := List.mem_map.1 hmem
    obtain ⟨a, ha, hfa, hcycle⟩ := transGen_of_map hkey hparent hv' hv rfl
    have heq : a = v := Ancestry.eq_of_key h ha hv (by rw [← hkey a, hfa, hkey])
    subst heq
    exact h.acyclic a hcycle

end Map

end Wrb.Forest
