/-
`SceneGraph` (`ui/root.rs`): where each viewport lies on the root pane, and which of them is in front.

Layers:
- the functions of the source. The walk of `SceneGraph::new` up to the root has as much fuel as there are viewports;
  running out of it is a walk that never ends, `none` as a panic is;
- viewports as a forest (`Wrb.Forest`): the ancestors of a viewport, the sum of the positions;
- `walk_eq` and `placeAll_spec`: what the walk and the loop over the viewports compute, for any list order.

Results:
- `new_returns`: for every well-formed list, in any order, the graph is built, and every offset is the sum of the
  positions modulo 2^64;
- `depth_eq` and `depth_lt`: the depth found is the number of ancestors where the list is in order, and too small where
  it is not. At an ancestor already processed, the walk sets the depth to the ancestor's plus one and drops the levels
  walked so far.
-/
import Mathlib.Tactic
import Wrb.Lib.Forest
import Wrb.Lib.TreeMap
import Wrb.Ui.Viewport

namespace Wrb.Ui

open Std Wrb.TreeMap Wrb.Forest

structure SceneGraph where
  viewports : List Viewport
  /-- viewport ID to index -/
  viewportTable : ExtTreeMap ℕ ℕ
  /-- viewport ID to the index of the parent -/
  tree : ExtTreeMap ℕ (Option ℕ)
  hierarchy : List (List ℕ)
  /-- absolute positions -/
  coordOffsets : ExtTreeMap ℕ Coord

namespace SceneGraph

def tableOf (viewports : List Viewport) : ExtTreeMap ℕ ℕ := table (viewports.zipIdx.map fun e => (e.1.id, e.2))

/-- a parent without an entry in the table is a panic -/
def treeOf (viewports : List Viewport) : Option (ExtTreeMap ℕ (Option ℕ)) := do
  let entries ← viewports.mapM fun vp =>
    match vp.parent with
    | none => some (vp.id, none)
    | some parentId => (tableOf viewports)[parentId]?.map fun i => (vp.id, some i)
  return table entries

/-- offsets of the viewports processed so far, and the depth of each -/
structure Placing where
  coordOffsets : ExtTreeMap ℕ Coord
  depths : List ℕ

/-- walk to the root, or to a viewport already processed: offset and depth -/
def walk (viewports : List Viewport) (tree : ExtTreeMap ℕ (Option ℕ)) (acc : Placing) :
    (fuel : ℕ) → Coord → (id depth : ℕ) → Option (Coord × ℕ)
  | 0, _, _, _ => none
  | fuel + 1, (row, col), id, depth =>
    match tree[id]? with
    | some (some parentIndex) => do
      let parent ← viewports[parentIndex]?
      match acc.coordOffsets[parent.id]? with
      | some (offsetRow, offsetCol) => do
        let parentDepth ← acc.depths[parentIndex]?
        return ((row + offsetRow, col + offsetCol), parentDepth + 1)
      | none => walk viewports tree acc fuel (row + parent.startRow, col + parent.startCol) parent.id (depth + 1)
    | _ => some ((row, col), depth)

/-- the loop over the viewports -/
def placeAll (viewports : List Viewport) (tree : ExtTreeMap ℕ (Option ℕ)) : List Viewport → Placing → Option Placing
  | [], acc => some acc
  | vp :: rest, acc => do
    let (offset, depth) ← walk viewports tree acc viewports.length vp.pos vp.id 0
    placeAll viewports tree rest ⟨acc.coordOffsets.insert vp.id offset, acc.depths ++ [depth]⟩

/-- the IDs by depth, in list order -/
def hierarchyOf (viewports : List Viewport) (depths : List ℕ) : List (List ℕ) :=
  (viewports.zip depths).foldl (fun h e => h.modify e.2 (· ++ [e.1.id])) (List.replicate (depths.foldl max 0 + 1) [])

def new (viewports : List Viewport) : Option SceneGraph := do
  let tree ← treeOf viewports
  let placing ← placeAll viewports tree viewports ⟨∅, []⟩
  return {
    viewports := viewports
    viewportTable := tableOf viewports
    tree := tree
    hierarchy := hierarchyOf viewports placing.depths
    coordOffsets := placing.coordOffsets }

def absCoords (g : SceneGraph) (viewportId : ℕ) (rel : Coord) : Option Coord :=
  g.coordOffsets[viewportId]?.map fun offset => (offset.1 + rel.1, offset.2 + rel.2)

def refViewport (g : SceneGraph) (viewportId : ℕ) : Option Viewport := do
  let i ← g.viewportTable[viewportId]?
  g.viewports[i]?

/-- does the viewport take the given place -/
def shows (g : SceneGraph) (row col : UInt64) (checkVisible : Bool) (viewportId : ℕ) : Bool :=
  match g.refViewport viewportId with
  | none => false
  | some vp =>
    if checkVisible && !vp.visible then false
    else
      match g.coordOffsets[viewportId]? with
      | none => false
      | some (offsetRow, offsetCol) =>
        offsetRow ≤ row && row < offsetRow + vp.numRows && offsetCol ≤ col && col < offsetCol + vp.buff.numCols

/-- the viewport at an absolute place: the last one of the deepest level that has one there -/
def viewportAt (g : SceneGraph) (row col : UInt64) (checkVisible : Bool) : Option ℕ :=
  g.hierarchy.reverse.findSome? fun ids => ids.reverse.find? (g.shows row col checkVisible)

def viewportCoords (g : SceneGraph) (viewportId : ℕ) : Option Coord := g.absCoords viewportId (0, 0)

end SceneGraph

/-! ## Viewports as a forest -/

/-- distinct IDs, existing parents, no cycle -/
abbrev SceneWellFormed (vps : List Viewport) : Prop := WellFormed Viewport.id Viewport.parent vps

/-- the ancestors of a viewport, from its parent to the root -/
abbrev Ancestors (vps : List Viewport) (v : Viewport) (as : List Viewport) : Prop :=
  Ancestry Viewport.id Viewport.parent vps v as

/-- the sum of the positions of some viewports -/
def sumPos (vps : List Viewport) : ℕ × ℕ :=
  ((vps.map fun v => v.startRow.toNat).sum, (vps.map fun v => v.startCol.toNat).sum)

/-- the sum as `u64` has it -/
def wrappedPos (vps : List Viewport) : Coord := (UInt64.ofNat (sumPos vps).1, UInt64.ofNat (sumPos vps).2)

/-- a viewport and its ancestors place it over an absolute coordinate -/
def Covers (v : Viewport) (as : List Viewport) (row col : UInt64) : Prop :=
  let offset := sumPos (v :: as)
  offset.1 ≤ row.toNat ∧ row.toNat < offset.1 + v.numRows.toNat ∧
    offset.2 ≤ col.toNat ∧ col.toNat < offset.2 + v.buff.numCols.toNat

/-- no sum of positions from a viewport up to the root overflows -/
def NoOverflow (vps : List Viewport) : Prop :=
  ∀ v as, v ∈ vps → Ancestors vps v as → (sumPos (v :: as)).1 < 2 ^ 64 ∧ (sumPos (v :: as)).2 < 2 ^ 64

/-- a viewport ends before row and column 2^64 -/
def Ends (v : Viewport) (as : List Viewport) : Prop :=
  (sumPos (v :: as)).1 + v.numRows.toNat < 2 ^ 64 ∧ (sumPos (v :: as)).2 + v.buff.numCols.toNat < 2 ^ 64

/-- **The list order that `SceneGraph::new` needs**: a viewport stands after its parent, or before all its ancestors -/
def AncestorsInOrder (vps : List Viewport) : Prop :=
  ∀ i v as, vps[i]? = some v → Ancestors vps v as →
    (∀ p, as.head? = some p → p ∈ vps.take i) ∨ ∀ a ∈ as, a ∉ vps.take i

namespace SceneGraph

/-! ## The tables -/

section Tables

variable {vps : List Viewport}

theorem tableOf_eq (h : SceneWellFormed vps) {i : ℕ} {v : Viewport} (hv : vps[i]? = some v) :
    (tableOf vps)[v.id]? = some i := by
  refine table_of_mem ?_ ?_
  · have hkeys : (vps.zipIdx.map fun e => (e.1.id, e.2)).map Prod.fst = vps.map Viewport.id := by
      have hcomp : (Prod.fst ∘ fun e : Viewport × ℕ => (e.1.id, e.2)) = Viewport.id ∘ Prod.fst := rfl
      rw [List.map_map, hcomp, ← List.map_map, List.zipIdx_map_fst]
    rw [hkeys]
    exact h.distinct
  · exact List.mem_map.2 ⟨(v, i), List.mem_zipIdx_iff_getElem?.2 hv, rfl⟩

theorem mapM_eq_some {α β : Type} {f : α → Option β} {g : α → β} {l : List α} (h : ∀ x ∈ l, f x = some (g x)) :
    l.mapM f = some (l.map g) := by
  induction l with
  | nil => rfl
  | cons x l ih =>
    have hrest := ih fun y hy => h y (List.mem_cons_of_mem x hy)
    rw [List.mapM_cons, h x List.mem_cons_self, hrest]
    rfl

/-- the tree names the index of the parent of each viewport -/
structure TreeOf (vps : List Viewport) (tree : ExtTreeMap ℕ (Option ℕ)) : Prop where
  root : ∀ v ∈ vps, v.parent = none → tree[v.id]? = some none
  child : ∀ v ∈ vps, ∀ (i : ℕ) (p : Viewport), vps[i]? = some p → v.parent = some p.id → tree[v.id]? = some (some i)

theorem treeOf_spec (h : SceneWellFormed vps) : ∃ tree, treeOf vps = some tree ∧ TreeOf vps tree := by
  let entry : Viewport → ℕ × Option ℕ := fun v => (v.id, v.parent.bind fun k => (tableOf vps)[k]?)
  have hentries : ∀ v ∈ vps, (match v.parent with
      | none => some (v.id, none)
      | some parentId => (tableOf vps)[parentId]?.map fun i => (v.id, some i)) = some (entry v) := by
    intro v hv
    cases hp : v.parent with
    | none => simp [entry, hp]
    | some k =>
      obtain ⟨p, hmem, rfl⟩ := h.closed v hv k hp
      obtain ⟨i, hi⟩ := List.mem_iff_getElem?.1 hmem
      simp [entry, hp, tableOf_eq h hi]
  have hdistinct : ((vps.map entry).map Prod.fst).Nodup := by
    rw [List.map_map]
    exact h.distinct
  refine ⟨table (vps.map entry), ?_, ?_⟩
  · unfold treeOf
    rw [mapM_eq_some hentries]
    rfl
  · have hlookup : ∀ v ∈ vps, (table (vps.map entry))[v.id]? = some (entry v).2 := fun v hv =>
      table_of_mem hdistinct (List.mem_map.2 ⟨v, hv, rfl⟩)
    constructor
    · intro v hv hp
      simp [hlookup v hv, entry, hp]
    · intro v hv i p hi hp
      simp [hlookup v hv, entry, hp, tableOf_eq h hi]

theorem nodup (h : SceneWellFormed vps) : vps.Nodup := h.distinct.of_map

end Tables

/-! ## The walk to the root -/

theorem sumPos_cons (v : Viewport) (as : List Viewport) :
    sumPos (v :: as) = (v.startRow.toNat + (sumPos as).1, v.startCol.toNat + (sumPos as).2) := by simp [sumPos]

theorem wrappedPos_cons (v : Viewport) (as : List Viewport) :
    wrappedPos (v :: as) = (v.startRow + (wrappedPos as).1, v.startCol + (wrappedPos as).2) := by
  simp [wrappedPos, sumPos_cons, UInt64.ofNat_add]

/-- the depth that a walk finds, with `as` still above it and `depth` levels walked: all of them where no ancestor is
processed yet (`n` viewports are), else one more than the depth of the first ancestor that is -/
def DepthFound (vps : List Viewport) (depths : List ℕ) (n : ℕ) (as : List Viewport) (depth found : ℕ) : Prop :=
  ((∀ a ∈ as, a ∉ vps.take n) ∧ found = depth + as.length) ∨
  ∃ pre a post j d, as = pre ++ a :: post ∧ (∀ x ∈ pre, x ∉ vps.take n) ∧ vps[j]? = some a ∧ j < n ∧
    depths[j]? = some d ∧ found = d + 1

/-- the accumulators of the loop after the first `n` viewports -/
structure Processed (vps : List Viewport) (n : ℕ) (acc : Placing) : Prop where
  offset : ∀ v as, v ∈ vps.take n → Ancestors vps v as → acc.coordOffsets[v.id]? = some (wrappedPos (v :: as))
  fresh : ∀ v ∈ vps, v ∉ vps.take n → acc.coordOffsets[v.id]? = none
  count : acc.depths.length = n
  depth : ∀ i v as, i < n → vps[i]? = some v → Ancestors vps v as →
    ∃ d, acc.depths[i]? = some d ∧ DepthFound vps acc.depths i as 0 d

/-- a level walked past an ancestor not processed yet -/
theorem DepthFound.step {vps : List Viewport} {depths : List ℕ} {n depth found : ℕ} {p : Viewport} {as : List Viewport}
    (hp : p ∉ vps.take n) (h : DepthFound vps depths n as (depth + 1) found) :
    DepthFound vps depths n (p :: as) depth found := by
  rcases h with ⟨hnone, rfl⟩ | ⟨pre, a, post, j, d, rfl, hpre, hj, hlt, hd, rfl⟩
  · refine .inl ⟨?_, by rw [List.length_cons]; omega⟩
    exact List.forall_mem_cons.2 ⟨hp, hnone⟩
  · exact .inr ⟨p :: pre, a, post, j, d, rfl, List.forall_mem_cons.2 ⟨hp, hpre⟩, hj, hlt, hd, rfl⟩

theorem lt_of_mem_take {vps : List Viewport} (hnodup : vps.Nodup) {n i : ℕ} {p : Viewport} (hi : vps[i]? = some p)
    (hp : p ∈ vps.take n) : i < n := by
  obtain ⟨j, hj⟩ := List.mem_iff_getElem?.1 hp
  rw [List.getElem?_take] at hj
  split_ifs at hj with hlt
  obtain ⟨hlen, -⟩ := List.getElem?_eq_some_iff.1 hi
  rwa [(List.getElem?_inj hlen hnodup).1 (hi.trans hj.symm)]

/-- **The walk**, in any list order: the offset found is the sum of the positions up to the root, and the depth that of
`DepthFound` -/
theorem walk_eq {vps : List Viewport} (h : SceneWellFormed vps) {tree : ExtTreeMap ℕ (Option ℕ)}
    (htree : TreeOf vps tree) {n : ℕ} {acc : Placing} (hacc : Processed vps n acc) {v : Viewport} {as : List Viewport}
    (hv : v ∈ vps) (has : Ancestors vps v as) {fuel : ℕ} (hfuel : as.length < fuel) (row col : UInt64) (depth : ℕ) :
    ∃ found, walk vps tree acc fuel (row, col) v.id depth =
        some ((row + (wrappedPos as).1, col + (wrappedPos as).2), found) ∧
      DepthFound vps acc.depths n as depth found := by
  induction has generalizing fuel row col depth with
  | root hp =>
    obtain ⟨fuel, rfl⟩ : ∃ k, fuel = k + 1 := ⟨fuel - 1, by simp at hfuel; omega⟩
    refine ⟨depth, ?_, .inl ⟨by simp, by simp⟩⟩
    simp [walk, htree.root _ hv hp, wrappedPos, sumPos]
  | child hmem hp has ih =>
    rename_i v p as
    obtain ⟨fuel, rfl⟩ : ∃ k, fuel = k + 1 := ⟨fuel - 1, by simp at hfuel; omega⟩
    obtain ⟨i, hi⟩ := List.mem_iff_getElem?.1 hmem
    have hlookup := htree.child _ hv i p hi hp
    by_cases hdone : p ∈ vps.take n
    · -- the parent is processed: its offset is the sum of the rest
      have hoffset := hacc.offset p as hdone has
      have hlt := lt_of_mem_take (nodup h) hi hdone
      obtain ⟨d, hd, -⟩ := hacc.depth i p as hlt hi has
      refine ⟨d + 1, ?_, .inr ⟨[], p, as, i, d, rfl, by simp, hi, hlt, hd, rfl⟩⟩
      simp only [walk, hlookup, hi, hoffset, hd, Option.bind_eq_bind, Option.bind_some]
      rfl
    · have hfresh := hacc.fresh p hmem hdone
      have hshort : as.length < fuel := by simp at hfuel; omega
      obtain ⟨found, hwalk, hfound⟩ := ih hmem hshort (row + p.startRow) (col + p.startCol) (depth + 1)
      refine ⟨found, ?_, hfound.step hdone⟩
      simp only [walk, hlookup, hi, hfresh, Option.bind_eq_bind, Option.bind_some]
      rw [hwalk]
      simp [wrappedPos_cons, UInt64.add_assoc]

/-- more depths do not change what a walk found -/
theorem DepthFound.append {vps : List Viewport} {depths : List ℕ} {n depth found : ℕ} {as : List Viewport}
    (h : DepthFound vps depths n as depth found) (more : List ℕ) :
    DepthFound vps (depths ++ more) n as depth found := by
  rcases h with hnone | ⟨pre, a, post, j, d, heq, hpre, hj, hlt, hd, hfound⟩
  · exact .inl hnone
  · have hlen := (List.getElem?_eq_some_iff.1 hd).1
    exact .inr ⟨pre, a, post, j, d, heq, hpre, hj, hlt, by rw [List.getElem?_append_left hlen, hd], hfound⟩

theorem take_succ_of_getElem? {vps : List Viewport} {n : ℕ} {v : Viewport} (hv : vps[n]? = some v) :
    vps.take (n + 1) = vps.take n ++ [v] := by
  rw [List.take_add_one, hv]
  rfl

/-- one round of the loop processes one viewport -/
theorem Processed.next {vps : List Viewport} (h : SceneWellFormed vps) {n : ℕ} {acc : Placing}
    (hacc : Processed vps n acc) {v : Viewport} {as : List Viewport} (hv : vps[n]? = some v) (has : Ancestors vps v as)
    {d : ℕ} (hd : DepthFound vps acc.depths n as 0 d) :
    Processed vps (n + 1) ⟨acc.coordOffsets.insert v.id (wrappedPos (v :: as)), acc.depths ++ [d]⟩ := by
  have hmem := List.mem_of_getElem? hv
  have htake := take_succ_of_getElem? hv
  constructor
  · intro x bs hx hbs
    rw [htake] at hx
    rcases List.mem_append.1 hx with hx | hx
    · have hne : v.id ≠ x.id := by
        intro heq
        cases Ancestry.eq_of_key h hmem (List.mem_of_mem_take hx) heq
        exact absurd (lt_of_mem_take (nodup h) hv hx) (Nat.lt_irrefl n)
      rw [ExtTreeMap.getElem?_insert, if_neg (by simpa using hne)]
      exact hacc.offset x bs hx hbs
    · cases List.mem_singleton.1 hx
      rw [ExtTreeMap.getElem?_insert_self, hbs.unique h has]
  · intro x hx hnot
    rw [htake, List.mem_append, not_or, List.mem_singleton] at hnot
    have hne : v.id ≠ x.id := fun heq => hnot.2 (Ancestry.eq_of_key h hmem hx heq).symm
    rw [ExtTreeMap.getElem?_insert, if_neg (by simpa using hne)]
    exact hacc.fresh x hx hnot.1
  · rw [List.length_append, hacc.count, List.length_singleton]
  · intro i x bs hi hx hbs
    by_cases hlast : i = n
    · subst hlast
      cases hv.symm.trans hx
      cases hbs.unique h has
      refine ⟨d, ?_, hd.append [d]⟩
      rw [List.getElem?_append_right (by rw [hacc.count]), hacc.count, Nat.sub_self]
      rfl
    · have hlt : i < n := by omega
      obtain ⟨d', hd', hfound⟩ := hacc.depth i x bs hlt hx hbs
      exact ⟨d', by rw [List.getElem?_append_left (by rw [hacc.count]; exact hlt), hd'], hfound.append [d]⟩

/-- **The loop ends**, and has processed every viewport -/
theorem placeAll_spec {vps : List Viewport} (h : SceneWellFormed vps) {tree : ExtTreeMap ℕ (Option ℕ)}
    (htree : TreeOf vps tree) {n : ℕ} (hn : n ≤ vps.length) {acc : Placing} (hacc : Processed vps n acc) :
    ∃ acc', placeAll vps tree (vps.drop n) acc = some acc' ∧ Processed vps vps.length acc' := by
  induction hk : vps.length - n generalizing n acc with
  | zero =>
    have heq : n = vps.length := by omega
    subst heq
    exact ⟨acc, by rw [List.drop_length]; rfl, hacc⟩
  | succ k ih =>
    have hlt : n < vps.length := by omega
    have hv : vps[n]? = some vps[n] := List.getElem?_eq_getElem hlt
    have hmem : vps[n] ∈ vps := List.getElem_mem hlt
    obtain ⟨as, has⟩ := h.exists_ancestry hmem
    obtain ⟨d, hwalk, hd⟩ := walk_eq h htree hacc hmem has (has.length_lt h hmem) vps[n].startRow vps[n].startCol 0
    obtain ⟨acc', hrest, hacc'⟩ := ih (n := n + 1) (by omega) (hacc.next h hv has hd) (by omega)
    refine ⟨acc', ?_, hacc'⟩
    rw [List.drop_eq_getElem_cons hlt, placeAll]
    simp only [Viewport.pos, hwalk, Option.bind_eq_bind, Option.bind_some]
    rw [← wrappedPos_cons]
    exact hrest

theorem processed_nil (vps : List Viewport) : Processed vps 0 ⟨∅, []⟩ where
  offset v as hv := by simp at hv
  fresh v _ _ := by simp
  count := rfl
  depth i v as hi := absurd hi (Nat.not_lt_zero i)

/-- **The graph is built**, for every well-formed list in any order -/
theorem new_returns {vps : List Viewport} (h : SceneWellFormed vps) : ∃ tree placing, TreeOf vps tree ∧
    Processed vps vps.length placing ∧ new vps = some {
      viewports := vps
      viewportTable := tableOf vps
      tree := tree
      hierarchy := hierarchyOf vps placing.depths
      coordOffsets := placing.coordOffsets } := by
  obtain ⟨tree, htree, hspec⟩ := treeOf_spec h
  obtain ⟨placing, hplace, hdone⟩ := placeAll_spec h hspec (Nat.zero_le _) (processed_nil vps)
  rw [List.drop_zero] at hplace
  refine ⟨tree, placing, hspec, hdone, ?_⟩
  simp only [new, htree, hplace, Option.bind_eq_bind, Option.bind_some]
  rfl

/-! ## Depths -/

section Depths

variable {vps : List Viewport} {acc : Placing} {i : ℕ} {v : Viewport} {as : List Viewport}

theorem mem_take_of_getElem? {a : Viewport} {j n : ℕ} (hj : vps[j]? = some a) (hlt : j < n) : a ∈ vps.take n := by
  refine List.mem_of_getElem? (i := j) ?_
  rw [List.getElem?_take_of_lt hlt, hj]

/-- a depth found is never more than the number of ancestors -/
theorem depth_le (hacc : Processed vps vps.length acc) (hv : vps[i]? = some v) (has : Ancestors vps v as) :
    ∃ d, acc.depths[i]? = some d ∧ d ≤ as.length := by
  induction i using Nat.strong_induction_on generalizing v as with
  | _ i ih =>
    obtain ⟨d, hd, hfound⟩ := hacc.depth i v as (List.getElem?_eq_some_iff.1 hv).1 hv has
    refine ⟨d, hd, ?_⟩
    rcases hfound with ⟨-, rfl⟩ | ⟨pre, a, post, j, d', rfl, -, hj, hlt, hd', rfl⟩
    · omega
    · obtain ⟨d'', hd'', hle⟩ := ih j hlt hj has.of_append
      cases hd'.symm.trans hd''
      rw [List.length_append, List.length_cons]
      omega

/-- in the right order it is the number of ancestors -/
theorem depth_eq (hacc : Processed vps vps.length acc) (horder : AncestorsInOrder vps) (hv : vps[i]? = some v)
    (has : Ancestors vps v as) : acc.depths[i]? = some as.length := by
  induction i using Nat.strong_induction_on generalizing v as with
  | _ i ih =>
    obtain ⟨d, hd, hfound⟩ := hacc.depth i v as (List.getElem?_eq_some_iff.1 hv).1 hv has
    rw [hd]
    rcases hfound with ⟨-, rfl⟩ | ⟨pre, a, post, j, d', rfl, hpre, hj, hlt, hd', rfl⟩
    · rw [Nat.zero_add]
    · have hdone := mem_take_of_getElem? hj hlt
      have hnil : pre = [] := by
        rcases horder i v _ hv has with hparent | hnone
        · cases pre with
          | nil => rfl
          | cons p pre => exact absurd (hparent p rfl) (hpre p List.mem_cons_self)
        · exact absurd hdone (hnone a (by simp))
      subst hnil
      have hparent := ih j hlt hj has.of_append
      cases hd'.symm.trans hparent
      rfl

/-- a viewport out of order is put too high -/
theorem depth_lt (hacc : Processed vps vps.length acc) (hv : vps[i]? = some v) (has : Ancestors vps v as)
    (hout : ¬ ((∀ p, as.head? = some p → p ∈ vps.take i) ∨ ∀ a ∈ as, a ∉ vps.take i)) :
    ∃ d, acc.depths[i]? = some d ∧ d < as.length := by
  obtain ⟨d, hd, hfound⟩ := hacc.depth i v as (List.getElem?_eq_some_iff.1 hv).1 hv has
  refine ⟨d, hd, ?_⟩
  rcases hfound with ⟨hnone, -⟩ | ⟨pre, a, post, j, d', rfl, -, hj, hlt, hd', rfl⟩
  · exact absurd (.inr hnone) hout
  · obtain ⟨d'', hd'', hle⟩ := depth_le hacc hj has.of_append
    cases hd'.symm.trans hd''
    cases pre with
    | nil =>
      refine absurd (.inl ?_) hout
      intro p hp
      cases hp
      exact mem_take_of_getElem? hj hlt
    | cons p pre =>
      rw [List.length_append, List.length_cons, List.length_cons]
      omega

end Depths

/-! ## Levels -/

/-- the IDs of depth `d`, in list order -/
def levelIds (vps : List Viewport) (depths : List ℕ) (d : ℕ) : List ℕ :=
  ((vps.zip depths).filter fun e => e.2 = d).map fun e => e.1.id

theorem foldl_modify_getElem? (l : List (Viewport × ℕ)) (h : List (List ℕ)) (d : ℕ) :
    (l.foldl (fun h e => h.modify e.2 (· ++ [e.1.id])) h)[d]? =
      h[d]?.map (· ++ (l.filter fun e => e.2 = d).map fun e => e.1.id) := by
  induction l generalizing h with
  | nil => simp
  | cons e l ih =>
    rw [List.foldl_cons, ih, List.getElem?_modify]
    by_cases hd : e.2 = d
    · rw [List.filter_cons_of_pos (by simpa using hd)]
      cases h[d]? <;> simp [hd]
    · rw [List.filter_cons_of_neg (by simpa using hd)]
      cases h[d]? <;> simp [hd]

theorem le_foldl_max (l : List ℕ) (m : ℕ) : m ≤ l.foldl max m ∧ ∀ d ∈ l, d ≤ l.foldl max m := by
  induction l generalizing m with
  | nil => simp
  | cons x l ih =>
    obtain ⟨hle, hall⟩ := ih (max m x)
    rw [List.foldl_cons]
    refine ⟨by omega, List.forall_mem_cons.2 ⟨by omega, hall⟩⟩

theorem hierarchyOf_getD (vps : List Viewport) (depths : List ℕ) (d : ℕ) :
    ((hierarchyOf vps depths)[d]?).getD [] = levelIds vps depths d := by
  unfold hierarchyOf
  rw [foldl_modify_getElem?, List.getElem?_replicate]
  split_ifs with hd
  · rfl
  · -- no viewport is this deep
    have hnil : levelIds vps depths d = [] := by
      unfold levelIds
      rw [List.map_eq_nil_iff, List.filter_eq_nil_iff]
      intro e he heq
      have hle := (le_foldl_max depths 0).2 e.2 (List.of_mem_zip he).2
      simp only [decide_eq_true_eq] at heq
      omega
    rw [hnil]
    rfl

theorem mem_levelIds {vps : List Viewport} (h : SceneWellFormed vps) {depths : List ℕ} {i d : ℕ} {v : Viewport}
    (hv : vps[i]? = some v) (hd : depths[i]? = some d) (d' : ℕ) : v.id ∈ levelIds vps depths d' ↔ d = d' := by
  unfold levelIds
  rw [List.mem_map]
  constructor
  · rintro ⟨⟨x, dx⟩, hmem, hid⟩
    obtain ⟨hzip, hdx⟩ := List.mem_filter.1 hmem
    obtain ⟨j, hj⟩ := List.mem_iff_getElem?.1 hzip
    obtain ⟨hx, hdj⟩ := List.getElem?_zip_eq_some.1 hj
    cases Ancestry.eq_of_key h (List.mem_of_getElem? hx) (List.mem_of_getElem? hv) hid
    have hij : i = j := (List.getElem?_inj (List.getElem?_eq_some_iff.1 hv).1 (nodup h)).1 (hv.trans hx.symm)
    subst hij
    cases hd.symm.trans hdj
    simpa using hdx
  · rintro rfl
    refine ⟨(v, d), List.mem_filter.2 ⟨?_, by simp⟩, rfl⟩
    exact List.mem_of_getElem? (List.getElem?_zip_eq_some.2 ⟨hv, hd⟩)

theorem levelIds_nodup {vps : List Viewport} (h : SceneWellFormed vps) {depths : List ℕ}
    (hlen : depths.length = vps.length) (d : ℕ) : (levelIds vps depths d).Nodup := by
  have hids : ((vps.zip depths).map fun e => e.1.id) = vps.map Viewport.id := by
    have hcomp : (fun e : Viewport × ℕ => e.1.id) = Viewport.id ∘ Prod.fst := rfl
    rw [hcomp, ← List.map_map, List.map_fst_zip (by omega)]
  have hsub : (levelIds vps depths d).Sublist (vps.map Viewport.id) := by
    rw [← hids]
    exact List.filter_sublist.map _
  exact h.distinct.sublist hsub

theorem count_levelIds {vps : List Viewport} (h : SceneWellFormed vps) {depths : List ℕ}
    (hlen : depths.length = vps.length) {i d : ℕ} {v : Viewport} (hv : vps[i]? = some v) (hd : depths[i]? = some d)
    (d' : ℕ) : (levelIds vps depths d').count v.id = if d' = d then 1 else 0 := by
  have hmem := mem_levelIds h hv hd d'
  rw [(levelIds_nodup h hlen d').count]
  by_cases heq : d' = d
  · rw [if_pos (hmem.2 heq.symm), if_pos heq]
  · rw [if_neg fun hin => heq (hmem.1 hin).symm, if_neg heq]

end SceneGraph

end Wrb.Ui
