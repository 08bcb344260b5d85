/-
Which viewport of a scene graph is in front (`SceneGraph::viewport_at`).

`viewport_at` goes through the levels from the last to the first, so of the viewports that it may find it finds the one
that no other stands behind (`BuiltFrom.viewportAt_iff`). It adds an offset and a size as `u64`s, and never finds a
viewport that does not end before row and column 2^64 (`shows_iff`).

Results:
- `arranged_iff`: each offset is the sum of the positions, each ID stands in the level of its number of ancestors, and
  no ancestor is found in front of its descendant, exactly when no sum of positions overflows, the list is in order
  (`AncestorsInOrder`), and an ancestor of a viewport that does not end before row and column 2^64 is hidden where both
  are (`AncestorsHidden`);
- `grandchild_listed_first`: root, grandchild, child.
-/
import Mathlib.Tactic
import Wrb.Ui.SceneGraph

namespace Wrb.Ui

open Std Wrb.Forest

/-- a viewport below its ancestors that may be found at a place -/
structure Candidate (vps : List Viewport) (row col : UInt64) (checkVisible : Bool) (v : Viewport)
    (as : List Viewport) : Prop where
  listed : v ∈ vps
  ancestors : Ancestors vps v as
  visible : checkVisible = true → v.visible = true
  covers : Covers v as row col
  ends : Ends v as

/-- `w` is in front of `v`: it has more ancestors, or as many and stands later in the list -/
def InFront (vps : List Viewport) (w : Viewport) (bs : List Viewport) (v : Viewport) (as : List Viewport) : Prop :=
  as.length < bs.length ∨
    as.length = bs.length ∧ ∃ i j : ℕ, i < j ∧ vps[i]? = some v ∧ vps[j]? = some w

/-- **The sizes that `viewport_at` needs**: where a visible viewport that does not end before row and column 2^64 is
over an ancestor that does, some other viewport that does is in front of the ancestor -/
def AncestorsHidden (vps : List Viewport) : Prop :=
  ∀ v as a bs row col checkVisible, v ∈ vps → Ancestors vps v as → v.visible = true → Covers v as row col →
    ¬ Ends v as → a ∈ as → Candidate vps row col checkVisible a bs →
      ∃ w cs, Candidate vps row col checkVisible w cs ∧ InFront vps w cs a bs

/-- what a scene graph of the viewports must be -/
structure Arranged (vps : List Viewport) (g : SceneGraph) : Prop where
  /-- the offset is the sum of the positions -/
  offsets : ∀ v as, v ∈ vps → Ancestors vps v as →
    ∃ offset, g.coordOffsets[v.id]? = some offset ∧ (offset.1.toNat, offset.2.toNat) = sumPos (v :: as)
  /-- an ID stands once in the level of its number of ancestors, and in no other -/
  levels : ∀ v as, v ∈ vps → Ancestors vps v as → ∀ d,
    ((g.hierarchy[d]?).getD []).count v.id = if d = as.length then 1 else 0
  /-- no ancestor is in front of its descendant -/
  front : ∀ v as a bs row col, v ∈ vps → Ancestors vps v as → a ∈ as → Ancestors vps a bs → v.visible →
    Covers v as row col → Covers a bs row col → ∀ checkVisible, g.viewportAt row col checkVisible ≠ some a.id

namespace SceneGraph

/-! ## The viewports over a place -/

/-- a sum of positions that does not overflow is the one that is computed -/
theorem wrappedPos_toNat {as : List Viewport} (h : (sumPos as).1 < 2 ^ 64 ∧ (sumPos as).2 < 2 ^ 64) :
    (wrappedPos as).1.toNat = (sumPos as).1 ∧ (wrappedPos as).2.toNat = (sumPos as).2 :=
  ⟨UInt64.toNat_ofNat_of_lt' h.1, UInt64.toNat_ofNat_of_lt' h.2⟩

/-- a span of `u64`s is taken for empty if it does not end before 2^64 -/
theorem span_iff (start len x : UInt64) :
    start ≤ x ∧ x < start + len ↔
      (start.toNat ≤ x.toNat ∧ x.toNat < start.toNat + len.toNat) ∧ start.toNat + len.toNat < 2 ^ 64 := by
  have hstart := start.toNat_lt
  have hlen := len.toNat_lt
  have hx := x.toNat_lt
  rw [UInt64.le_iff_toNat_le, UInt64.lt_iff_toNat_lt, UInt64.toNat_add]
  omega

/-- what `shows` asks: visible if that is checked, over the place, and ending before row and column 2^64 -/
theorem shows_iff {g : SceneGraph} {v : Viewport} {as : List Viewport} (hv : g.refViewport v.id = some v)
    (hoffset : g.coordOffsets[v.id]? = some (wrappedPos (v :: as)))
    (hno : (sumPos (v :: as)).1 < 2 ^ 64 ∧ (sumPos (v :: as)).2 < 2 ^ 64) (row col : UInt64) (checkVisible : Bool) :
    g.shows row col checkVisible v.id = true ↔
      (checkVisible = true → v.visible = true) ∧ Covers v as row col ∧ Ends v as := by
  obtain ⟨hrow, hcol⟩ := wrappedPos_toNat hno
  have hrows := span_iff (wrappedPos (v :: as)).1 v.numRows row
  have hcols := span_iff (wrappedPos (v :: as)).2 v.buff.numCols col
  rw [hrow] at hrows
  rw [hcol] at hcols
  have hspans : (wrappedPos (v :: as)).1 ≤ row ∧ row < (wrappedPos (v :: as)).1 + v.numRows ∧
      (wrappedPos (v :: as)).2 ≤ col ∧ col < (wrappedPos (v :: as)).2 + v.buff.numCols ↔
      Covers v as row col ∧ Ends v as := by
    unfold Covers Ends
    dsimp only
    tauto
  unfold shows
  rw [hv, hoffset]
  dsimp only
  rw [← hspans]
  cases checkVisible <;> cases v.visible <;> simp [and_assoc]

/-- the graph holds what the loop over its viewports computed -/
structure BuiltFrom (g : SceneGraph) (acc : Placing) : Prop where
  table : g.viewportTable = tableOf g.viewports
  offsets : g.coordOffsets = acc.coordOffsets
  levels : g.hierarchy = hierarchyOf g.viewports acc.depths
  done : Processed g.viewports g.viewports.length acc

theorem builtFrom_of_new {g : SceneGraph} (h : SceneWellFormed g.viewports)
    (hg : SceneGraph.new g.viewports = some g) : ∃ acc, BuiltFrom g acc := by
  obtain ⟨tree, acc, -, hdone, hnew⟩ := new_returns h
  have heq := Option.some.inj (hg.symm.trans hnew)
  refine ⟨acc, ?_, ?_, ?_, hdone⟩
  · rw [heq]
  · rw [heq]
  · rw [heq]

section Front

variable {g : SceneGraph} {acc : Placing}

theorem BuiltFrom.ref (hb : BuiltFrom g acc) (h : SceneWellFormed g.viewports) {i : ℕ} {v : Viewport}
    (hv : g.viewports[i]? = some v) : g.refViewport v.id = some v := by
  unfold refViewport
  rw [hb.table, tableOf_eq h hv]
  exact hv

theorem BuiltFrom.offset (hb : BuiltFrom g acc) {v : Viewport} {as : List Viewport} (hv : v ∈ g.viewports)
    (has : Ancestors g.viewports v as) : g.coordOffsets[v.id]? = some (wrappedPos (v :: as)) := by
  rw [hb.offsets]
  refine hb.done.offset v as ?_ has
  rwa [List.take_length]

theorem BuiltFrom.shows_iff (hb : BuiltFrom g acc) (h : SceneWellFormed g.viewports) (hno : NoOverflow g.viewports)
    {v : Viewport} {as : List Viewport} (hv : v ∈ g.viewports) (has : Ancestors g.viewports v as) (row col : UInt64)
    (checkVisible : Bool) :
    g.shows row col checkVisible v.id = true ↔ Candidate g.viewports row col checkVisible v as := by
  obtain ⟨i, hi⟩ := List.mem_iff_getElem?.1 hv
  rw [SceneGraph.shows_iff (hb.ref h hi) (hb.offset hv has) (hno v as hv has)]
  constructor
  · rintro ⟨hvisible, hcovers, hends⟩
    exact ⟨hv, has, hvisible, hcovers, hends⟩
  · intro hc
    exact ⟨hc.visible, hc.covers, hc.ends⟩

/-! ## The order of the levels -/

/-- IDs tell listed viewports apart -/
theorem index_of_id {vps : List Viewport} (h : SceneWellFormed vps) {n m : ℕ} {x y : Viewport} (hx : vps[n]? = some x)
    (hy : vps[m]? = some y) (hid : x.id = y.id) : n = m ∧ x = y := by
  have heq := Ancestry.eq_of_key h (List.mem_of_getElem? hx) (List.mem_of_getElem? hy) hid
  subst heq
  exact ⟨(List.getElem?_inj (List.getElem?_eq_some_iff.1 hx).1 (nodup h)).1 (hx.trans hy.symm), rfl⟩

/-- viewport `x` comes before `y` in the levels, from back to front -/
def Behind (g : SceneGraph) (acc : Placing) (x y : ℕ) : Prop :=
  ∃ (i d j e : ℕ) (v w : Viewport), g.viewports[i]? = some v ∧ v.id = x ∧ acc.depths[i]? = some d ∧
    g.viewports[j]? = some w ∧ w.id = y ∧ acc.depths[j]? = some e ∧ (d < e ∨ d = e ∧ i < j)

theorem behind_iff (h : SceneWellFormed g.viewports) {i j d e : ℕ} {v w : Viewport} (hv : g.viewports[i]? = some v)
    (hd : acc.depths[i]? = some d) (hw : g.viewports[j]? = some w) (he : acc.depths[j]? = some e) :
    Behind g acc v.id w.id ↔ d < e ∨ d = e ∧ i < j := by
  constructor
  · rintro ⟨i', d', j', e', v', w', hv', hid, hd', hw', hid', he', hlt⟩
    obtain ⟨rfl, -⟩ := index_of_id h hv' hv hid
    obtain ⟨rfl, -⟩ := index_of_id h hw' hw hid'
    cases hd.symm.trans hd'
    cases he.symm.trans he'
    exact hlt
  · intro hlt
    exact ⟨i, d, j, e, v, w, hv, rfl, hd, hw, rfl, he, hlt⟩

theorem behind_asymm (h : SceneWellFormed g.viewports) {x y : ℕ} (hxy : Behind g acc x y) : ¬ Behind g acc y x := by
  obtain ⟨i, d, j, e, v, w, hv, rfl, hd, hw, rfl, he, hlt⟩ := hxy
  rw [behind_iff h hw he hv hd]
  omega

theorem levelIds_pairwise (g : SceneGraph) (acc : Placing) (d : ℕ) :
    (levelIds g.viewports acc.depths d).Pairwise (Behind g acc) := by
  have hzip : (g.viewports.zip acc.depths).Pairwise fun e e' => ∃ i j : ℕ, i < j ∧ g.viewports[i]? = some e.1 ∧
      acc.depths[i]? = some e.2 ∧ g.viewports[j]? = some e'.1 ∧ acc.depths[j]? = some e'.2 := by
    rw [List.pairwise_iff_getElem]
    intro i j hi hj hlt
    have hzi := List.getElem?_zip_eq_some.1 (List.getElem?_eq_getElem hi)
    have hzj := List.getElem?_zip_eq_some.1 (List.getElem?_eq_getElem hj)
    exact ⟨i, j, hlt, hzi.1, hzi.2, hzj.1, hzj.2⟩
  unfold levelIds
  rw [List.pairwise_map]
  refine (hzip.filter _).imp_of_mem ?_
  intro e e' he he' ⟨i, j, hlt, hvi, hdi, hvj, hdj⟩
  have hd : e.2 = d := by simpa using (List.mem_filter.1 he).2
  have hd' : e'.2 = d := by simpa using (List.mem_filter.1 he').2
  exact ⟨i, e.2, j, e'.2, e.1, e'.1, hvi, rfl, hdi, hvj, rfl, hdj, .inr ⟨hd.trans hd'.symm, hlt⟩⟩

theorem mem_levelIds_iff {vps : List Viewport} {depths : List ℕ} {d x : ℕ} :
    x ∈ levelIds vps depths d ↔ ∃ (i : ℕ) (v : Viewport), vps[i]? = some v ∧ depths[i]? = some d ∧ v.id = x := by
  unfold levelIds
  rw [List.mem_map]
  constructor
  · intro ⟨⟨v, d'⟩, hmem, hx⟩
    obtain ⟨hzip, hd⟩ := List.mem_filter.1 hmem
    obtain ⟨i, hi⟩ := List.mem_iff_getElem?.1 hzip
    obtain ⟨hv, hd'⟩ := List.getElem?_zip_eq_some.1 hi
    have heq : d' = d := by simpa using hd
    exact ⟨i, v, hv, heq ▸ hd', hx⟩
  · intro ⟨i, v, hv, hd, hx⟩
    refine ⟨(v, d), List.mem_filter.2 ⟨?_, by simp⟩, hx⟩
    exact List.mem_of_getElem? (List.getElem?_zip_eq_some.2 ⟨hv, hd⟩)

theorem level_eq {vps : List Viewport} {depths : List ℕ} {d : ℕ} (hd : d < (hierarchyOf vps depths).length) :
    (hierarchyOf vps depths)[d] = levelIds vps depths d := by
  rw [← hierarchyOf_getD, List.getElem?_eq_getElem hd]
  rfl

/-- the levels list the viewports from back to front -/
theorem BuiltFrom.pairwise (hb : BuiltFrom g acc) : g.hierarchy.flatten.Pairwise (Behind g acc) := by
  rw [hb.levels, List.pairwise_flatten]
  constructor
  · intro ids hids
    obtain ⟨d, hd, rfl⟩ := List.mem_iff_getElem.1 hids
    rw [level_eq hd]
    exact levelIds_pairwise g acc d
  · rw [List.pairwise_iff_getElem]
    intro d d' hd hd' hlt x hx y hy
    rw [level_eq hd] at hx
    rw [level_eq hd'] at hy
    obtain ⟨i, v, hv, hdi, hx⟩ := mem_levelIds_iff.1 hx
    obtain ⟨j, w, hw, hdj, hy⟩ := mem_levelIds_iff.1 hy
    exact ⟨i, d, j, d', v, w, hv, hx, hdi, hw, hy, hdj, .inl hlt⟩

theorem BuiltFrom.mem_flatten (hb : BuiltFrom g acc) {x : ℕ} :
    x ∈ g.hierarchy.flatten ↔ ∃ (i : ℕ) (v : Viewport) (d : ℕ), g.viewports[i]? = some v ∧
      acc.depths[i]? = some d ∧ v.id = x := by
  rw [List.mem_flatten, hb.levels]
  constructor
  · rintro ⟨ids, hids, hx⟩
    obtain ⟨d, hd, rfl⟩ := List.mem_iff_getElem.1 hids
    rw [level_eq hd] at hx
    obtain ⟨i, v, hv, hd, hx⟩ := mem_levelIds_iff.1 hx
    exact ⟨i, v, d, hv, hd, hx⟩
  · rintro ⟨i, v, d, hv, hd, hx⟩
    have hmem := mem_levelIds_iff.2 ⟨i, v, hv, hd, hx⟩
    rw [← hierarchyOf_getD] at hmem
    cases hlevel : (hierarchyOf g.viewports acc.depths)[d]? with
    | none =>
      rw [hlevel] at hmem
      cases hmem
    | some ids =>
      rw [hlevel] at hmem
      exact ⟨ids, List.mem_of_getElem? hlevel, hmem⟩

/-- a search from the end of an ordered list finds the element that none of the others found comes after -/
theorem find?_reverse_iff {l : List ℕ} {r : ℕ → ℕ → Prop} (hl : l.Pairwise r) (hr : ∀ x y, r x y → ¬ r y x)
    {p : ℕ → Bool} {x : ℕ} :
    l.reverse.find? p = some x ↔ x ∈ l ∧ p x = true ∧ ∀ y ∈ l, p y = true → ¬ r x y := by
  constructor
  · intro hfind
    obtain ⟨hp, back, front, hsplit, hback⟩ := List.find?_eq_some_iff_append.1 hfind
    have hl' : l = front.reverse ++ x :: back.reverse := by
      rw [← List.reverse_reverse l, hsplit]
      simp
    subst hl'
    refine ⟨by simp, hp, ?_⟩
    intro y hy hpy hxy
    rcases List.mem_append.1 hy with hy | hy
    · exact hr x y hxy ((List.pairwise_append.1 hl).2.2 y hy x List.mem_cons_self)
    · rcases List.mem_cons.1 hy with rfl | hy
      · exact hr y y hxy hxy
      · have hno := hback y (List.mem_reverse.1 hy)
        rw [hpy] at hno
        cases hno
  · rintro ⟨hx, hp, hlast⟩
    obtain ⟨front, back, rfl⟩ := List.append_of_mem hx
    have hback : back.reverse.find? p = none := by
      rw [List.find?_eq_none]
      intro y hy hpy
      rw [List.mem_reverse] at hy
      have hxy := (List.pairwise_cons.1 (List.pairwise_append.1 hl).2.1).1 y hy
      exact hlast y (by simp [hy]) hpy hxy
    rw [List.reverse_append, List.reverse_cons, List.append_assoc, List.find?_append, hback, Option.none_or,
      List.singleton_append, List.find?_cons_of_pos hp]

/-- the viewports from back to front -/
theorem viewportAt_eq_find (g : SceneGraph) (row col : UInt64) (checkVisible : Bool) :
    g.viewportAt row col checkVisible = g.hierarchy.flatten.reverse.find? (g.shows row col checkVisible) := by
  unfold viewportAt
  rw [List.reverse_flatten, List.find?_flatten, ← List.map_reverse, List.findSome?_map]
  rfl

/-- **Which viewport is found**: one that may be, if none that may be comes later in the levels -/
theorem BuiltFrom.viewportAt_iff (hb : BuiltFrom g acc) (h : SceneWellFormed g.viewports)
    (hno : NoOverflow g.viewports) {row col : UInt64} {checkVisible : Bool} {i d : ℕ} {v : Viewport}
    {as : List Viewport} (hv : g.viewports[i]? = some v) (has : Ancestors g.viewports v as)
    (hd : acc.depths[i]? = some d) :
    g.viewportAt row col checkVisible = some v.id ↔ Candidate g.viewports row col checkVisible v as ∧
      ∀ j w bs e, g.viewports[j]? = some w → acc.depths[j]? = some e → Candidate g.viewports row col checkVisible w bs →
        ¬ (d < e ∨ d = e ∧ i < j) := by
  rw [viewportAt_eq_find, find?_reverse_iff hb.pairwise fun x y => behind_asymm h,
    hb.shows_iff h hno (List.mem_of_getElem? hv) has]
  constructor
  · rintro ⟨-, hc, hlast⟩
    refine ⟨hc, ?_⟩
    intro j w bs e hw he hcw hlt
    refine hlast w.id (hb.mem_flatten.2 ⟨j, w, e, hw, he, rfl⟩) ?_ ((behind_iff h hv hd hw he).2 hlt)
    exact (hb.shows_iff h hno hcw.listed hcw.ancestors row col checkVisible).2 hcw
  · rintro ⟨hc, hlast⟩
    refine ⟨hb.mem_flatten.2 ⟨i, v, d, hv, hd, rfl⟩, hc, ?_⟩
    intro y hy hshows hbehind
    obtain ⟨j, w, e, hw, he, rfl⟩ := hb.mem_flatten.1 hy
    obtain ⟨bs, hbs⟩ := h.exists_ancestry (List.mem_of_getElem? hw)
    have hcw := (hb.shows_iff h hno (List.mem_of_getElem? hw) hbs row col checkVisible).1 hshows
    exact hlast j w bs e hw he hcw ((behind_iff h hv hd hw he).1 hbehind)

/-- what is found may be -/
theorem BuiltFrom.candidate_of_viewportAt (hb : BuiltFrom g acc) (h : SceneWellFormed g.viewports)
    (hno : NoOverflow g.viewports) {row col : UInt64} {checkVisible : Bool} {x : ℕ}
    (hx : g.viewportAt row col checkVisible = some x) :
    ∃ v as, v.id = x ∧ Candidate g.viewports row col checkVisible v as := by
  rw [viewportAt_eq_find] at hx
  obtain ⟨i, v, d, hv, -, rfl⟩ := hb.mem_flatten.1 (List.mem_reverse.1 (List.mem_of_find?_eq_some hx))
  obtain ⟨as, has⟩ := h.exists_ancestry (List.mem_of_getElem? hv)
  exact ⟨v, as, rfl, (hb.shows_iff h hno (List.mem_of_getElem? hv) has row col checkVisible).1 (List.find?_some hx)⟩

/-- from a list in order, it is the one that no other is in front of -/
theorem BuiltFrom.viewportAt_iff_front (hb : BuiltFrom g acc) (h : SceneWellFormed g.viewports)
    (hno : NoOverflow g.viewports) (horder : AncestorsInOrder g.viewports) {row col : UInt64} {checkVisible : Bool}
    {v : Viewport} {as : List Viewport} (hv : v ∈ g.viewports) (has : Ancestors g.viewports v as) :
    g.viewportAt row col checkVisible = some v.id ↔ Candidate g.viewports row col checkVisible v as ∧
      ∀ w bs, Candidate g.viewports row col checkVisible w bs → ¬ InFront g.viewports w bs v as := by
  obtain ⟨i, hi⟩ := List.mem_iff_getElem?.1 hv
  rw [hb.viewportAt_iff h hno hi has (depth_eq hb.done horder hi has)]
  refine and_congr_right fun _ => ?_
  constructor
  · intro hlast w bs hw hfront
    obtain ⟨j, hj⟩ := List.mem_iff_getElem?.1 hw.listed
    refine hlast j w bs _ hj (depth_eq hb.done horder hj hw.ancestors) hw (hfront.imp_right ?_)
    rintro ⟨hlen, i', j', hlt, hi', hj'⟩
    obtain ⟨rfl, -⟩ := index_of_id h hi hi' rfl
    obtain ⟨rfl, -⟩ := index_of_id h hj hj' rfl
    exact ⟨hlen, hlt⟩
  · intro hlast j w bs e hj he hw hlt
    cases he.symm.trans (depth_eq hb.done horder hj hw.ancestors)
    exact hlast w bs hw (hlt.imp_right fun hlt => ⟨hlt.1, i, j, hlt.2, hi, hj⟩)

end Front

/-! ## Exactly when the graph is right -/

theorem viewports_of_new {vps : List Viewport} {g : SceneGraph} (hg : SceneGraph.new vps = some g) :
    g.viewports = vps := by
  obtain ⟨tree, -, hg⟩ := Option.bind_eq_some_iff.1 hg
  obtain ⟨placing, -, hg⟩ := Option.bind_eq_some_iff.1 hg
  cases hg
  rfl

/-- a graph that is right shows that the list was in order -/
theorem order_of_arranged {vps : List Viewport} (h : SceneWellFormed vps) {g : SceneGraph}
    (hg : SceneGraph.new vps = some g) (harr : Arranged vps g) : AncestorsInOrder vps := by
  obtain ⟨tree, placing, -, hdone, hnew⟩ := new_returns h
  intro i v as hv has
  by_contra hout
  obtain ⟨d, hd, hlt⟩ := depth_lt hdone hv has hout
  have hlevel := harr.levels v as (List.mem_of_getElem? hv) has d
  cases hnew.symm.trans hg
  rw [hierarchyOf_getD, count_levelIds h hdone.count hv hd, if_pos rfl, if_neg (by omega)] at hlevel
  exact absurd hlevel (by decide)

/-- an offset that is right shows that its sum did not overflow -/
theorem noOverflow_of_arranged {vps : List Viewport} {g : SceneGraph} (harr : Arranged vps g) : NoOverflow vps := by
  intro v as hv has
  obtain ⟨offset, -, hsum⟩ := harr.offsets v as hv has
  rw [← hsum]
  exact ⟨offset.1.toNat_lt, offset.2.toNat_lt⟩

/-- nothing is found where an ancestor should not be -/
theorem hidden_of_arranged {g : SceneGraph} (h : SceneWellFormed g.viewports)
    (hg : SceneGraph.new g.viewports = some g) (harr : Arranged g.viewports g) : AncestorsHidden g.viewports := by
  intro v as a bs row col checkVisible hv has hvisible hcovers _ ha hca
  obtain ⟨acc, hb⟩ := builtFrom_of_new h hg
  have hfound : g.viewportAt row col checkVisible = some a.id ↔ _ :=
    hb.viewportAt_iff_front h (noOverflow_of_arranged harr) (order_of_arranged h hg harr) hca.listed hca.ancestors
  by_contra hnone
  refine harr.front v as a bs row col hv has ha hca.ancestors hvisible hcovers hca.covers checkVisible (hfound.2 ?_)
  refine ⟨hca, ?_⟩
  intro w cs hw hfront
  exact hnone ⟨w, cs, hw, hfront⟩

theorem length_lt_of_mem {vps : List Viewport} (h : SceneWellFormed vps) {v a : Viewport} {as bs : List Viewport}
    (has : Ancestors vps v as) (ha : a ∈ as) (hbs : Ancestors vps a bs) : bs.length < as.length := by
  obtain ⟨pre, post, rfl⟩ := List.append_of_mem ha
  cases has.of_append.unique h hbs
  rw [List.length_append, List.length_cons]
  omega

/-- from a list in order, without overflow and with such sizes, the graph is right -/
theorem arranged_of_order {g : SceneGraph} (h : SceneWellFormed g.viewports)
    (hg : SceneGraph.new g.viewports = some g) (horder : AncestorsInOrder g.viewports) (hno : NoOverflow g.viewports)
    (hhidden : AncestorsHidden g.viewports) : Arranged g.viewports g := by
  obtain ⟨acc, hb⟩ := builtFrom_of_new h hg
  refine ⟨?_, ?_, ?_⟩
  · intro v as hv has
    obtain ⟨hrow, hcol⟩ := wrappedPos_toNat (hno v as hv has)
    exact ⟨wrappedPos (v :: as), hb.offset hv has, Prod.ext hrow hcol⟩
  · intro v as hv has d
    obtain ⟨i, hi⟩ := List.mem_iff_getElem?.1 hv
    rw [hb.levels, hierarchyOf_getD, count_levelIds h hb.done.count hi (depth_eq hb.done horder hi has)]
  · intro v as a bs row col hv has ha hbs hvisible hcovers _ checkVisible hfound
    obtain ⟨hca, hlast⟩ := (hb.viewportAt_iff_front h hno horder (has.mem a ha) hbs).1 hfound
    by_cases hends : Ends v as
    · exact hlast v as ⟨hv, has, fun _ => hvisible, hcovers, hends⟩ (.inl (length_lt_of_mem h has ha hbs))
    · obtain ⟨w, cs, hw, hfront⟩ := hhidden v as a bs row col checkVisible hv has hvisible hcovers hends ha hca
      exact hlast w cs hw hfront

/-- **Exactly when the graph is right**: for every well-formed list of viewports, it is built and places each viewport
at the sum of the positions, in the level of its number of ancestors and in front of them, if and only if no viewport is
listed before its parent but after another of its ancestors, no sum of positions overflows, and where a viewport that
does not end before row and column 2^64 is over an ancestor that does, the ancestor is hidden. -/
theorem arranged_iff (vps : List Viewport) (h : SceneWellFormed vps) :
    (∃ g, SceneGraph.new vps = some g ∧ Arranged vps g) ↔
      AncestorsInOrder vps ∧ NoOverflow vps ∧ AncestorsHidden vps := by
  constructor
  · rintro ⟨g, hg, harr⟩
    obtain rfl := viewports_of_new hg
    exact ⟨order_of_arranged h hg harr, noOverflow_of_arranged harr, hidden_of_arranged h hg harr⟩
  · rintro ⟨horder, hno, hhidden⟩
    obtain ⟨g, hg⟩ : ∃ g, SceneGraph.new vps = some g := by
      obtain ⟨tree, placing, -, -, hnew⟩ := new_returns h
      exact ⟨_, hnew⟩
    obtain rfl := viewports_of_new hg
    exact ⟨g, hg, arranged_of_order h hg horder hno hhidden⟩

/-- a list whose IDs grow from parent to child is well-formed -/
theorem wellFormed_of_ids {vps : List Viewport} (hids : (vps.map Viewport.id).Nodup)
    (hparents : ∀ v ∈ vps, ∀ k, v.parent = some k → k < v.id ∧ ∃ p ∈ vps, p.id = k) : SceneWellFormed vps where
  distinct := hids
  closed v hv k hk := (hparents v hv k hk).2
  acyclic := @acyclic_of_rank _ _ _ _ _ Viewport.id fun p v hp => (hparents v hp.2.1 p.id hp.2.2).1

/-- the scene of a root with a child: the graph is right -/
theorem arranged_iff_child : (∃ g, SceneGraph.new [Viewport.new 0 0 0 4 4, Viewport.newChild 1 0 1 1 2 2] = some g ∧
    Arranged [Viewport.new 0 0 0 4 4, Viewport.newChild 1 0 1 1 2 2] g) ↔
    AncestorsInOrder [Viewport.new 0 0 0 4 4, Viewport.newChild 1 0 1 1 2 2] ∧
      NoOverflow [Viewport.new 0 0 0 4 4, Viewport.newChild 1 0 1 1 2 2] ∧
      AncestorsHidden [Viewport.new 0 0 0 4 4, Viewport.newChild 1 0 1 1 2 2] :=
  arranged_iff _ (wellFormed_of_ids (by decide) (by simp [Viewport.new, Viewport.newChild]))

/-- root, grandchild, child -/
def grandchildFirst : List Viewport :=
  [Viewport.new 0 0 0 4 4, Viewport.newChild 2 1 0 0 1 1, Viewport.newChild 1 0 0 0 2 2]

theorem grandchildFirst_wellFormed : SceneWellFormed grandchildFirst :=
  wellFormed_of_ids (by decide) (by simp [grandchildFirst, Viewport.new, Viewport.newChild])

/-- the grandchild stands after the root, and before its parent -/
theorem grandchildFirst_out_of_order : ¬ AncestorsInOrder grandchildFirst := by
  intro horder
  have hroot : Ancestors grandchildFirst (Viewport.new 0 0 0 4 4) [] := .root rfl
  have hchild : Ancestors grandchildFirst (Viewport.newChild 1 0 0 0 2 2) [Viewport.new 0 0 0 4 4] :=
    .child (by simp [grandchildFirst]) rfl hroot
  have hgrand : Ancestors grandchildFirst (Viewport.newChild 2 1 0 0 1 1)
      [Viewport.newChild 1 0 0 0 2 2, Viewport.new 0 0 0 4 4] := .child (by simp [grandchildFirst]) rfl hchild
  rcases horder 1 _ _ rfl hgrand with hparent | hnone
  · have hmem := List.mem_map_of_mem (f := Viewport.id) (hparent _ rfl)
    exact absurd hmem (by decide)
  · exact hnone (Viewport.new 0 0 0 4 4) (by simp) (by simp [grandchildFirst])

/-- **A grandchild listed before its parent**, but after the root, is put in the level of its parent -/
theorem grandchild_listed_first : ¬ ∀ vps, SceneWellFormed vps → ∃ g, SceneGraph.new vps = some g ∧ Arranged vps g := by
  intro hall
  obtain ⟨g, hg, harr⟩ := hall grandchildFirst grandchildFirst_wellFormed
  exact grandchildFirst_out_of_order (order_of_arranged grandchildFirst_wellFormed hg harr)

end SceneGraph

end Wrb.Ui
