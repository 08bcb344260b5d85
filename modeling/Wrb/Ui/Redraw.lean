/-
Redrawing all forms of a pane (`Root::redraw`), in whatever order the hash map yields them.

A redraw paints over what is there, and starts each form where the form before it in its viewport ended.
- `Starts`: the places where some order may start a form.
- `Settled`: wherever it may start, no form paints anything that its viewport does not show already.
- `Steady`: what a form paints is the same wherever it may start. Only prints without a cursor can fail this.

Results, after any `set_all_forms`:
- `redraw_keeps`: if the forms are settled, every redraw leaves all buffers as they are. They are settled exactly when
  no part of a redraw changes a buffer, and for steady forms exactly when no redraw does;
- `prints_swap`: two prints that continue each other are swapped.
-/
import Mathlib.Tactic
import Wrb.Ui.Coherence
import Wrb.Ui.Ink

namespace Wrb.Ui

open Std Wrb.Overlay Wrb.TreeMap

namespace Root

/-! ## Forms and the places they start -/

/-- the width of a viewport -/
def colsOf (root : Root) (viewportId : ℕ) : Option UInt64 :=
  (root.scenegraph.refViewport viewportId).map fun viewport => viewport.buff.numCols

/-- what a form would paint from a place, and where it would end -/
def inkIn (root : Root) (form : Form) (cursor : Coord) : Option (Coord × List CharCell) := do
  let numCols ← root.colsOf form.viewportId
  form.inkOn (root.isFocused form.elementId) cursor numCols

/-- where forms painted one after the other end -/
def endOf (root : Root) (forms : List Form) (cursor : Coord) : Option Coord :=
  forms.foldlM (fun cursor form => (root.inkIn form cursor).map Prod.fst) cursor

/-- the form that the pane keeps for its element ID -/
def Retained (root : Root) (form : Form) : Prop := root.forms[form.elementId]? = some form

/-- a place where some order starts the form: where other forms of its viewport end -/
def Starts (root : Root) (form : Form) (cursor : Coord) : Prop :=
  ∃ before : List Form, (form :: before).Nodup ∧
    (∀ g ∈ before, root.Retained g ∧ g.viewportId = form.viewportId) ∧ root.endOf before (0, 0) = some cursor

/-- **Wherever it may start, a form paints only what its viewport shows already** -/
def Settled (root : Root) : Prop :=
  ∀ form cursor ret ink viewport, root.Retained form → root.Starts form cursor →
    root.inkIn form cursor = some (ret, ink) → root.scenegraph.refViewport form.viewportId = some viewport →
    Shows .blank viewport.buff.cells ink

/-- what a form paints is the same wherever it may start -/
def Steady (root : Root) : Prop :=
  ∀ form cursor cursor', root.Retained form → root.Starts form cursor → root.Starts form cursor' →
    (root.inkIn form cursor).map Prod.snd = (root.inkIn form cursor').map Prod.snd

/-- the buffers of the viewports -/
def buffers (root : Root) : List CharBuff := root.scenegraph.viewports.map Viewport.buff

/-- a redraw in any order leaves all buffers as they are -/
def RedrawKeeps (root : Root) : Prop :=
  ∀ order : List ℕ, order.Perm root.forms.keys → ∃ root', root.redraw order = some (.ok (), root') ∧
    root'.buffers = root.buffers

/-- so does any part of a redraw: painting some of the forms in any order -/
def PartsKeep (root : Root) : Prop :=
  ∀ forms : List Form, forms.Nodup → (∀ form ∈ forms, root.Retained form) → ∃ cursors root',
    renderAll forms ∅ { root with forms := ∅ } = some (.ok cursors, root') ∧ root'.buffers = root.buffers

/-! ## Painting one form -/

theorem renderForm_ok {root root' : Root} {form : Form} {cursor ret : Coord}
    (h : root.renderForm form cursor = some (.ok ret, root')) :
    ∃ (i : ℕ) (v v' : Viewport), root.scenegraph.viewportTable[form.viewportId]? = some i ∧
      root.scenegraph.viewports[i]? = some v ∧
      form.paint (root.isFocused form.elementId) cursor v = some (ret, v') ∧
      root'.scenegraph = { root.scenegraph with viewports := root.scenegraph.viewports.set i v' } ∧
      root'.focused = root.focused := by
  obtain ⟨⟨painted, root₁⟩, hpaint, hrest⟩ := Option.bind_eq_some_iff.1 h
  have hpoint : ∀ root : Root, (root.pointAt form).scenegraph = root.scenegraph ∧
      (root.pointAt form).focused = root.focused := by
    intro root
    unfold pointAt
    split
    · exact ⟨rfl, rfl⟩
    · exact ⟨rfl, rfl⟩
  unfold withViewport at hpaint
  match htable : root.scenegraph.viewportTable[form.viewportId]? with
  | none =>
    rw [htable] at hpaint
    cases hpaint
    cases hrest
  | some i =>
    simp only [htable] at hpaint
    match hv : root.scenegraph.viewports[i]? with
    | none =>
      rw [hv] at hpaint
      cases hpaint
      cases hrest
    | some v =>
      simp only [hv] at hpaint
      obtain ⟨⟨ret', v'⟩, hdone, heq⟩ := Option.map_eq_some_iff.1 hpaint
      cases heq
      refine ⟨i, v, v', rfl, hv, ?_⟩
      cases hfocused : root.isFocused form.elementId with
      | true =>
        rw [hfocused] at hrest hdone
        cases hrest
        exact ⟨hdone, (hpoint _).1, (hpoint _).2⟩
      | false =>
        rw [hfocused] at hrest hdone
        cases hrest
        exact ⟨hdone, rfl, rfl⟩

theorem exists_renderForm {root : Root} {form : Form} {cursor ret : Coord} {i : ℕ} {v v' : Viewport}
    (htable : root.scenegraph.viewportTable[form.viewportId]? = some i) (hv : root.scenegraph.viewports[i]? = some v)
    (hpaint : form.paint (root.isFocused form.elementId) cursor v = some (ret, v')) :
    ∃ root', root.renderForm form cursor = some (.ok ret, root') := by
  unfold renderForm withViewport
  simp only [htable, hv, hpaint, Option.map_some, Option.bind_eq_bind, Option.bind_some]
  exact ⟨_, rfl⟩

/-! ## Painting many forms -/

theorem Relaid.colsOf {root root' : Root} (h : Relaid SameFrame root root') (viewportId : ℕ) :
    root'.colsOf viewportId = root.colsOf viewportId := by
  have hcols : root'.scenegraph.viewports.map (fun v => v.buff.numCols) =
      root.scenegraph.viewports.map fun v => v.buff.numCols := by
    have hviewports := h.viewports
    generalize root.scenegraph.viewports = vps at hviewports
    generalize root'.scenegraph.viewports = vps' at hviewports
    induction hviewports with
    | nil => rfl
    | cons hv _ ih => rw [List.map_cons, List.map_cons, ih, hv.numCols]
  have htable : root'.scenegraph.viewportTable = root.scenegraph.viewportTable := by
    rw [h.graph]
  unfold Root.colsOf SceneGraph.refViewport
  rw [htable]
  cases root.scenegraph.viewportTable[viewportId]? with
  | none => rfl
  | some i =>
    have hget := congrArg (fun l => l[i]?) hcols
    simp only [List.getElem?_map] at hget
    exact hget

/-- a pane after some forms were painted on it, with the places where they ended -/
structure Painted (root : Root) (done : List Form) (cursors : ExtTreeMap ℕ Coord) (root' : Root) : Prop where
  relaid : Relaid SameFrame root root'
  focused : root'.focused = root.focused
  ends : ∀ viewportId, root.endOf (done.filter fun g => g.viewportId = viewportId) (0, 0) =
    some (cursors[viewportId]?.getD (0, 0))

theorem Painted.inkIn {root root' : Root} {done : List Form} {cursors : ExtTreeMap ℕ Coord}
    (h : Painted root done cursors root') (form : Form) (cursor : Coord) :
    root'.inkIn form cursor = root.inkIn form cursor := by
  unfold Root.inkIn isFocused
  rw [h.relaid.colsOf, h.focused]

theorem painted_self (root : Root) : Painted root [] ∅ root where
  relaid := .refl root
  focused := rfl
  ends viewportId := by simp [endOf]

theorem painted_nil (root : Root) : Painted root [] ∅ { root with forms := ∅ } where
  relaid := .of_graph SameFrame.refl rfl rfl rfl rfl
  focused := rfl
  ends := (painted_self root).ends

/-- one form more: it puts its layer on its viewport, from where the last form there ended -/
theorem Painted.next {root root₁ root₂ : Root} {done : List Form} {cursors : ExtTreeMap ℕ Coord}
    (h : Painted root done cursors root₁) {form : Form} {ret : Coord}
    (hform : root₁.renderForm form (cursors[form.viewportId]?.getD (0, 0)) = some (.ok ret, root₂)) :
    Painted root (done ++ [form]) (cursors.insert form.viewportId ret) root₂ ∧
    ∃ (i : ℕ) (v v' : Viewport) (ink : List CharCell),
      root₁.scenegraph.viewportTable[form.viewportId]? = some i ∧ root₁.scenegraph.viewports[i]? = some v ∧
      root.inkIn form (cursors[form.viewportId]?.getD (0, 0)) = some (ret, ink) ∧
      root₂.scenegraph = { root₁.scenegraph with viewports := root₁.scenegraph.viewports.set i v' } ∧
      v'.buff = ⟨v.buff.numCols, overlay .blank v.buff.cells ink⟩ := by
  obtain ⟨i, v, v', htable, hv, hpaint, hgraph, hfocused⟩ := renderForm_ok hform
  obtain ⟨ink, hink, hcells⟩ := Form.exists_inkOn hpaint
  have hcols : root₁.colsOf form.viewportId = some v.buff.numCols := by
    unfold colsOf SceneGraph.refViewport
    rw [htable, Option.bind_eq_bind, Option.bind_some, hv, Option.map_some]
  have hroot : root.inkIn form (cursors[form.viewportId]?.getD (0, 0)) = some (ret, ink) := by
    rw [← h.inkIn]
    unfold Root.inkIn
    rw [hcols]
    exact hink
  refine ⟨⟨h.relaid.trans' (renderForm_relaid hform), hfocused.trans h.focused, ?_⟩,
    i, v, v', ink, htable, hv, hroot, hgraph, ?_⟩
  · intro viewportId
    rw [List.filter_append, ExtTreeMap.getElem?_insert]
    by_cases hid : form.viewportId = viewportId
    · subst hid
      rw [List.filter_cons_of_pos (by simp), List.filter_nil, if_pos (by simp)]
      unfold endOf
      have hends := h.ends form.viewportId
      unfold endOf at hends
      rw [List.foldlM_append, hends]
      simp [hroot]
    · rw [List.filter_cons_of_neg (by simpa using hid), List.filter_nil, List.append_nil, if_neg (by simpa using hid)]
      exact h.ends viewportId
  · have hsame := (Form.paint_sameFrame hpaint).numCols
    cases hbuff : v'.buff with
    | mk numCols cells =>
      rw [hbuff] at hsame hcells
      rw [← hsame, ← hcells]

theorem renderAll_append (forms more : List Form) (cursors : ExtTreeMap ℕ Coord) (root : Root) :
    renderAll (forms ++ more) cursors root = (renderAll forms cursors root).bind fun r => match r.1 with
      | .error e => some (.error e, r.2)
      | .ok cursors => renderAll more cursors r.2 := by
  induction forms generalizing cursors root with
  | nil => rfl
  | cons form forms ih =>
    rw [List.cons_append, renderAll, renderAll]
    simp only [Option.bind_eq_bind]
    cases root.renderForm form (cursors[form.viewportId]?.getD (0, 0)) with
    | none => rfl
    | some r =>
      obtain ⟨result, root₁⟩ := r
      cases result with
      | error e => rfl
      | ok cursor => exact ih _ _

/-- painting forms one after the other -/
theorem Painted.all {root root₁ root₂ : Root} {done forms : List Form} {cursors cursors' : ExtTreeMap ℕ Coord}
    (h : Painted root done cursors root₁) (hforms : renderAll forms cursors root₁ = some (.ok cursors', root₂)) :
    Painted root (done ++ forms) cursors' root₂ := by
  induction forms generalizing done cursors root₁ with
  | nil =>
    cases hforms
    rwa [List.append_nil]
  | cons form forms ih =>
    obtain ⟨⟨result, root₃⟩, hform, hrest⟩ := Option.bind_eq_some_iff.1 hforms
    cases result with
    | error e => cases hrest
    | ok cursor =>
      rw [List.append_cons]
      exact ih (h.next hform).1 hrest

/-- **The form painted last shows**, from a place where it may start -/
theorem last_shows {root root' : Root} {forms : List Form} {form : Form} {cursors : ExtTreeMap ℕ Coord}
    (hnodup : (forms ++ [form]).Nodup) (hretained : ∀ g ∈ forms, root.Retained g)
    (h : renderAll (forms ++ [form]) ∅ { root with forms := ∅ } = some (.ok cursors, root')) :
    ∃ cursor ret ink v, root.endOf (forms.filter fun g => g.viewportId = form.viewportId) (0, 0) = some cursor ∧
      root.Starts form cursor ∧ root.inkIn form cursor = some (ret, ink) ∧
      root'.scenegraph.refViewport form.viewportId = some v ∧ Shows .blank v.buff.cells ink := by
  rw [renderAll_append] at h
  obtain ⟨⟨result, root₁⟩, hfirst, hrest⟩ := Option.bind_eq_some_iff.1 h
  cases result with
  | error e => cases hrest
  | ok cursors₁ =>
    obtain ⟨⟨result, root₂⟩, hlast, hdone⟩ := Option.bind_eq_some_iff.1 hrest
    have hpainted := (painted_nil root).all hfirst
    rw [List.nil_append] at hpainted
    cases result with
    | error e => cases hdone
    | ok ret =>
      cases hdone
      obtain ⟨hnext, i, v, v', ink, htable, hv, hink, hgraph, hbuff⟩ := hpainted.next hlast
      have hends := hpainted.ends form.viewportId
      refine ⟨_, ret, ink, v', hends, ⟨_, ?_, ?_, hends⟩, hink, ?_, ?_⟩
      · rw [List.nodup_append] at hnodup
        refine List.nodup_cons.2 ⟨?_, hnodup.1.filter _⟩
        intro hmem
        exact hnodup.2.2 form (List.mem_of_mem_filter hmem) form (List.mem_singleton_self _) rfl
      · intro g hg
        exact ⟨hretained g (List.mem_of_mem_filter hg), by simpa using List.of_mem_filter hg⟩
      · unfold SceneGraph.refViewport
        rw [hgraph]
        dsimp only
        rw [htable, Option.bind_eq_bind, Option.bind_some]
        rw [List.getElem?_set_self (List.getElem?_eq_some_iff.1 hv).1]
      · rw [hbuff]
        exact shows_overlay _ _ _

/-! ## Settled forms -/

/-- what `set_all_forms` has painted can be painted again -/
def Paintable (root : Root) : Prop :=
  ∀ form cursor, root.Retained form → ∃ ret ink, root.inkIn form cursor = some (ret, ink)

/-- with the same buffers, a viewport has the same buffer -/
theorem Relaid.ref_of_buffers {root root' : Root} (h : Relaid SameFrame root root')
    (hbuffers : root'.buffers = root.buffers) {viewportId : ℕ} {v : Viewport}
    (hv : root'.scenegraph.refViewport viewportId = some v) :
    ∃ u, root.scenegraph.refViewport viewportId = some u ∧ u.buff = v.buff := by
  obtain ⟨i, htable, hi⟩ := Option.bind_eq_some_iff.1 hv
  have htables : root'.scenegraph.viewportTable = root.scenegraph.viewportTable := by
    rw [h.graph]
  have hlookup : (root.scenegraph.viewports[i]?).map Viewport.buff = some v.buff := by
    have hget := congrArg (fun l => l[i]?) hbuffers
    simp only [buffers, List.getElem?_map, hi, Option.map_some] at hget
    exact hget.symm
  obtain ⟨u, hu, hbuff⟩ := Option.map_eq_some_iff.1 hlookup
  refine ⟨u, ?_, hbuff⟩
  unfold SceneGraph.refViewport
  rw [← htables, htable]
  exact hu

/-- painting a settled form leaves the buffers as they are -/
theorem paint_settled {root root₁ : Root} {done : List Form} {cursors : ExtTreeMap ℕ Coord}
    (hsettled : root.Settled) (hpaintable : root.Paintable) (h : Painted root done cursors root₁)
    (hbuffers : root₁.buffers = root.buffers) {form : Form} (hretained : root.Retained form)
    (hnodup : (done ++ [form]).Nodup) (hdone : ∀ g ∈ done, root.Retained g) :
    ∃ ret root₂, root₁.renderForm form (cursors[form.viewportId]?.getD (0, 0)) = some (.ok ret, root₂) ∧
      root₂.buffers = root.buffers := by
  obtain ⟨ret, ink, hink⟩ := hpaintable form (cursors[form.viewportId]?.getD (0, 0)) hretained
  have hstarts : root.Starts form (cursors[form.viewportId]?.getD (0, 0)) := by
    rw [List.nodup_append] at hnodup
    refine ⟨_, List.nodup_cons.2 ⟨?_, hnodup.1.filter _⟩, ?_, h.ends form.viewportId⟩
    · intro hmem
      exact hnodup.2.2 form (List.mem_of_mem_filter hmem) form (List.mem_singleton_self _) rfl
    · intro g hg
      exact ⟨hdone g (List.mem_of_mem_filter hg), by simpa using List.of_mem_filter hg⟩
  have hink₁ := (h.inkIn form _).trans hink
  obtain ⟨numCols, hcols, hform⟩ := Option.bind_eq_some_iff.1 hink₁
  obtain ⟨v, href, rfl⟩ := Option.map_eq_some_iff.1 hcols
  obtain ⟨i, htable, hv⟩ := Option.bind_eq_some_iff.1 href
  obtain ⟨v', hpaint, -⟩ := Form.exists_paint hform
  obtain ⟨root₂, hrender⟩ := exists_renderForm htable hv hpaint
  refine ⟨ret, root₂, hrender, ?_⟩
  obtain ⟨-, i', w, w', ink', htable', hw, hink', hgraph, hbuff⟩ := h.next hrender
  cases htable.symm.trans htable'
  cases hv.symm.trans hw
  cases hink.symm.trans hink'
  obtain ⟨u, huref, hubuff⟩ := h.relaid.ref_of_buffers hbuffers href
  have hshows := hsettled form _ ret ink u hretained hstarts hink huref
  rw [hubuff, ← overlay_eq_left_iff] at hshows
  rw [hshows] at hbuff
  rw [← hbuffers]
  unfold buffers
  rw [hgraph, List.map_set, hbuff]
  obtain ⟨hlt, rfl⟩ := List.getElem?_eq_some_iff.1 hv
  have hlt' : i < (root₁.scenegraph.viewports.map Viewport.buff).length := by simpa using hlt
  have hget : (root₁.scenegraph.viewports.map Viewport.buff)[i] = root₁.scenegraph.viewports[i].buff :=
    List.getElem_map _
  rw [← hget]
  exact List.set_getElem_self hlt'

/-- painting settled forms, in any order, leaves the buffers as they are -/
theorem paintAll_settled {root root₁ : Root} {done forms : List Form} {cursors : ExtTreeMap ℕ Coord}
    (hsettled : root.Settled) (hpaintable : root.Paintable) (h : Painted root done cursors root₁)
    (hbuffers : root₁.buffers = root.buffers) (hnodup : (done ++ forms).Nodup)
    (hretained : ∀ g ∈ done ++ forms, root.Retained g) :
    ∃ cursors' root₂, renderAll forms cursors root₁ = some (.ok cursors', root₂) ∧ root₂.buffers = root.buffers := by
  induction forms generalizing done cursors root₁ with
  | nil => exact ⟨cursors, root₁, rfl, hbuffers⟩
  | cons form forms ih =>
    rw [List.append_cons] at hnodup hretained
    have hform := hretained form (by simp)
    have hdone : ∀ g ∈ done, root.Retained g := fun g hg => hretained g (by simp [hg])
    obtain ⟨ret, root₂, hrender, hkept⟩ := paint_settled hsettled hpaintable h hbuffers hform
      (List.nodup_append.1 hnodup).1 hdone
    obtain ⟨cursors', root₃, hrest, hkept'⟩ := ih (h.next hrender).1 hkept hnodup hretained
    refine ⟨cursors', root₃, ?_, hkept'⟩
    rw [renderAll, hrender]
    exact hrest

theorem partsKeep_of_settled {root : Root} (hsettled : root.Settled) (hpaintable : root.Paintable) :
    root.PartsKeep := by
  intro forms hnodup hretained
  exact paintAll_settled hsettled hpaintable (painted_nil root) rfl hnodup hretained

theorem settled_of_partsKeep {root : Root} (h : root.PartsKeep) : root.Settled := by
  intro form cursor ret ink viewport hretained hstarts hink href
  obtain ⟨before, hnodup, hbefore, hends⟩ := hstarts
  have hsame : (before.filter fun g => g.viewportId = form.viewportId) = before :=
    List.filter_eq_self.2 fun g hg => by simpa using (hbefore g hg).2
  have hnodup : (before ++ [form]).Nodup := (List.perm_append_singleton form before).nodup_iff.2 hnodup
  obtain ⟨cursors, root', hrender, hkept⟩ := h (before ++ [form]) hnodup (by
    intro g hg
    rcases List.mem_append.1 hg with hg | hg
    · exact (hbefore g hg).1
    · rwa [List.mem_singleton.1 hg])
  obtain ⟨cursor', ret', ink', v, hends', -, hink', href', hshows⟩ :=
    last_shows hnodup (fun g hg => (hbefore g hg).1) hrender
  rw [hsame] at hends'
  cases hends.symm.trans hends'
  cases hink.symm.trans hink'
  obtain ⟨u, href₀, hbuff⟩ := ((painted_nil root).all hrender).relaid.ref_of_buffers hkept href'
  cases href.symm.trans href₀
  rwa [hbuff]

/-! ## Redraws -/

/-- every form is kept under its own ID -/
def Keyed (root : Root) : Prop := ∀ (id : ℕ) form, root.forms[id]? = some form → form.elementId = id

theorem mem_inOrder {forms : ExtTreeMap ℕ Form} {order : List ℕ} {form : Form} :
    form ∈ inOrder forms order ↔ ∃ id ∈ order, forms[id]? = some form :=
  List.mem_filterMap

theorem inOrder_nodup {root : Root} (hkeyed : root.Keyed) {order : List ℕ} (h : order.Nodup) :
    (inOrder root.forms order).Nodup := by
  refine h.filterMap ?_
  intro id id' form hid hid'
  rw [← hkeyed id form hid, hkeyed id' form hid']

theorem inOrder_retained {root : Root} (hkeyed : root.Keyed) {order : List ℕ} :
    ∀ form ∈ inOrder root.forms order, root.Retained form := by
  intro form hform
  obtain ⟨id, -, hid⟩ := mem_inOrder.1 hform
  unfold Retained
  rwa [hkeyed id form hid]

theorem redraw_eq {root root' : Root} {order : List ℕ} : root.redraw order = some (.ok (), root') ↔
    ∃ cursors root₁, renderAll (inOrder root.forms order) ∅ { root with forms := ∅ } = some (.ok cursors, root₁) ∧
      root' = { root₁ with forms := root.forms } := by
  unfold redraw
  simp only [Option.bind_eq_bind]
  constructor
  · intro h
    obtain ⟨⟨result, root₁⟩, hrender, hrest⟩ := Option.bind_eq_some_iff.1 h
    cases result with
    | error e => cases hrest
    | ok cursors =>
      cases hrest
      exact ⟨cursors, root₁, hrender, rfl⟩
  · intro ⟨cursors, root₁, hrender, heq⟩
    rw [hrender, heq]
    rfl

theorem redrawKeeps_of_partsKeep {root : Root} (hkeyed : root.Keyed) (h : root.PartsKeep) : root.RedrawKeeps := by
  intro order horder
  have hnodup : order.Nodup := horder.nodup_iff.2 ExtTreeMap.nodup_keys
  obtain ⟨cursors, root₁, hrender, hkept⟩ := h _ (inOrder_nodup hkeyed hnodup) (inOrder_retained hkeyed)
  exact ⟨_, redraw_eq.2 ⟨cursors, root₁, hrender, rfl⟩, hkept⟩

/-- each form can come last -/
theorem settled_of_redrawKeeps {root : Root} (hkeyed : root.Keyed) (hsteady : root.Steady) (h : root.RedrawKeeps) :
    root.Settled := by
  intro form cursor ret ink viewport hretained hstarts hink href
  have hmem : form.elementId ∈ root.forms.keys := by
    rw [ExtTreeMap.mem_keys, ← ExtTreeMap.isSome_getElem?_iff_mem, hretained]
    rfl
  let others := root.forms.keys.erase form.elementId
  have horder : (others ++ [form.elementId]).Perm root.forms.keys :=
    (List.perm_append_singleton _ _).trans (List.perm_cons_erase hmem).symm
  obtain ⟨root', hredraw, hkept⟩ := h _ horder
  obtain ⟨cursors, root₁, hrender, rfl⟩ := redraw_eq.1 hredraw
  have hsplit : inOrder root.forms (others ++ [form.elementId]) = inOrder root.forms others ++ [form] := by
    unfold inOrder
    rw [List.filterMap_append]
    congr 1
    simp [show root.forms[form.elementId]? = some form from hretained]
  have hnodup := inOrder_nodup hkeyed (horder.nodup_iff.2 ExtTreeMap.nodup_keys)
  rw [hsplit] at hrender hnodup
  obtain ⟨cursor', ret', ink', v, -, hstarts', hink', href', hshows⟩ :=
    last_shows hnodup (inOrder_retained hkeyed) hrender
  have hinks := hsteady form cursor cursor' hretained hstarts hstarts'
  rw [hink, hink'] at hinks
  cases hinks
  obtain ⟨u, href₀, hbuff⟩ := ((painted_nil root).all hrender).relaid.ref_of_buffers hkept href'
  cases href.symm.trans href₀
  rwa [hbuff]

/-! ## After all forms are set -/

theorem setAllForms_ok {root root' : Root} {staticForms dynamicForms : List Form}
    (h : root.setAllForms staticForms dynamicForms = some (.ok (), root')) :
    ∃ cursors root₁ cursors' root₂, renderAll staticForms ∅ root = some (.ok cursors, root₁) ∧
      renderAll dynamicForms cursors root₁ = some (.ok cursors', root₂) ∧
      root' = { root₂ with
        forms := formTable (staticForms ++ dynamicForms)
        dynamicForms := dynamicForms.map Form.elementId } := by
  obtain ⟨⟨result, root₁⟩, hstatic, hrest⟩ := Option.bind_eq_some_iff.1 h
  cases result with
  | error e => cases hrest
  | ok cursors =>
    obtain ⟨⟨result, root₂⟩, hdynamic, hrest⟩ := Option.bind_eq_some_iff.1 hrest
    cases result with
    | error e => cases hrest
    | ok cursors' =>
      cases hrest
      exact ⟨cursors, root₁, cursors', root₂, hstatic, hdynamic, rfl⟩

/-- a form that was painted paints something from some place -/
theorem Painted.exists_inkIn {root root₁ root₂ : Root} {done forms : List Form} {cursors cursors' : ExtTreeMap ℕ Coord}
    (h : Painted root done cursors root₁) (hforms : renderAll forms cursors root₁ = some (.ok cursors', root₂)) :
    ∀ form ∈ forms, ∃ cursor ret ink, root.inkIn form cursor = some (ret, ink) := by
  induction forms generalizing done cursors root₁ with
  | nil =>
    intro form hform
    cases hform
  | cons form forms ih =>
    obtain ⟨⟨result, root₃⟩, hrender, hrest⟩ := Option.bind_eq_some_iff.1 hforms
    cases result with
    | error e => cases hrest
    | ok ret =>
      obtain ⟨hnext, _, _, _, ink, _, _, hink, _⟩ := h.next hrender
      intro g hg
      rcases List.mem_cons.1 hg with rfl | hg
      · exact ⟨_, ret, ink, hink⟩
      · exact ih hnext hrest g hg

/-- what `set_all_forms` leaves: the forms it painted, under their IDs -/
theorem keyed_paintable {root root' : Root} {staticForms dynamicForms : List Form}
    (h : root.setAllForms staticForms dynamicForms = some (.ok (), root')) : root'.Keyed ∧ root'.Paintable := by
  obtain ⟨cursors, root₁, cursors', root₂, hstatic, hdynamic, rfl⟩ := setAllForms_ok h
  have hlisted : ∀ {id : ℕ} {form}, (formTable (staticForms ++ dynamicForms))[id]? = some form →
      form ∈ staticForms ++ dynamicForms ∧ form.elementId = id := by
    intro id form hform
    obtain ⟨g, hg, heq⟩ := List.mem_map.1 (mem_of_table hform)
    cases heq
    exact ⟨hg, rfl⟩
  refine ⟨fun id form hform => (hlisted hform).2, ?_⟩
  intro form cursor hretained
  have hpainted := (painted_self root).all hstatic
  rw [List.nil_append] at hpainted
  obtain ⟨cursor₀, ret₀, ink₀, hink₀⟩ : ∃ cursor ret ink, root.inkIn form cursor = some (ret, ink) := by
    rcases List.mem_append.1 (hlisted hretained).1 with hform | hform
    · exact (painted_self root).exists_inkIn hstatic form hform
    · exact hpainted.exists_inkIn hdynamic form hform
  have hsame : ∀ cursor, root₂.inkIn form cursor = root.inkIn form cursor := (hpainted.all hdynamic).inkIn form
  obtain ⟨numCols, hcols, hon⟩ := Option.bind_eq_some_iff.1 hink₀
  have hsome : (root.inkIn form cursor).isSome = true := by
    unfold Root.inkIn
    rw [hcols, Option.bind_eq_bind, Option.bind_some, form.inkOn_isSome _ cursor cursor₀, hon]
    rfl
  obtain ⟨⟨ret, ink⟩, hink⟩ := Option.isSome_iff_exists.1 hsome
  exact ⟨ret, ink, (hsame cursor).trans hink⟩

/-- **When a redraw changes nothing**: after any `set_all_forms`, if wherever it may start no form paints anything that
its viewport does not show already, then a redraw in any order leaves all buffers as they are. This is so exactly when
no part of a redraw changes a buffer, and for forms that paint the same wherever they may start, exactly when no redraw
does. -/
theorem redraw_keeps {root root' : Root} {staticForms dynamicForms : List Form}
    (h : root.setAllForms staticForms dynamicForms = some (.ok (), root')) :
    (root'.Settled → root'.RedrawKeeps) ∧ (root'.Settled ↔ root'.PartsKeep) ∧
      (root'.Steady → (root'.RedrawKeeps ↔ root'.Settled)) := by
  obtain ⟨hkeyed, hpaintable⟩ := keyed_paintable h
  have hparts : root'.Settled ↔ root'.PartsKeep :=
    ⟨fun hsettled => partsKeep_of_settled hsettled hpaintable, settled_of_partsKeep⟩
  have hkeeps : root'.Settled → root'.RedrawKeeps := fun hsettled => redrawKeeps_of_partsKeep hkeyed (hparts.1 hsettled)
  exact ⟨hkeeps, hparts, fun hsteady => ⟨settled_of_redrawKeeps hkeyed hsteady, hkeeps⟩⟩

/-- two prints, the second one where the first one ends -/
def twoPrints : List Form :=
  let white : Color := ⟨255, 255, 255⟩
  let black : Color := ⟨0, 0, 0⟩
  [.print ⟨1, 0, none, black, white, ['a'], false⟩, .print ⟨2, 0, none, black, white, ['b'], false⟩]

/-- the page of these prints -/
def twoPrintsRoot : Option (Except UiError Unit × Root) := do
  let scenegraph ← SceneGraph.new [Viewport.new 0 0 0 1 4]
  (Root.new 1 4 scenegraph).setAllForms twoPrints []

theorem twoPrints_set : ∃ root root' : Root, root.setAllForms twoPrints [] = some (.ok (), root') ∧
    twoPrintsRoot = some (.ok (), root') := by
  have hok : (twoPrintsRoot.map fun r => r.1.isOk) = some true := by decide +kernel
  obtain ⟨⟨result, root'⟩, hset, hresult⟩ := Option.map_eq_some_iff.1 hok
  cases result with
  | error e => cases hresult
  | ok _ =>
    have hmade := hset
    unfold twoPrintsRoot at hmade
    obtain ⟨scenegraph, -, hmade⟩ := Option.bind_eq_some_iff.1 hmade
    exact ⟨_, root', hmade, hset⟩

theorem redraw_keeps_twoPrints : ∃ root root' : Root, root.setAllForms twoPrints [] = some (.ok (), root') ∧
    (root'.Settled → root'.RedrawKeeps) ∧ (root'.Settled ↔ root'.PartsKeep) ∧
      (root'.Steady → (root'.RedrawKeeps ↔ root'.Settled)) := by
  obtain ⟨root, root', hset, -⟩ := twoPrints_set
  exact ⟨root, root', hset, redraw_keeps hset⟩

theorem twoPrints_keys : (twoPrintsRoot.map fun r => r.2.forms.keys) = some [1, 2] := by decide +kernel

/-- the buffers after a redraw that begins with the second print -/
theorem twoPrints_redrawn : (twoPrintsRoot.bind fun r =>
    (r.2.redraw [2, 1]).map fun r' => decide (r'.2.buffers = r.2.buffers)) = some false := by
  decide +kernel

/-- **A redraw swaps two prints**, when the map yields the second one first -/
theorem prints_swap : ¬ ∀ (root root' : Root) staticForms dynamicForms,
    root.setAllForms staticForms dynamicForms = some (.ok (), root') → root'.RedrawKeeps := by
  intro hall
  obtain ⟨root, root', hset, hmade⟩ := twoPrints_set
  have hkeys := twoPrints_keys
  have hredrawn := twoPrints_redrawn
  rw [hmade, Option.map_some, Option.some.injEq] at hkeys
  obtain ⟨root'', hredraw, hkept⟩ := hall root root' twoPrints [] hset [2, 1] (by
    rw [hkeys]
    exact List.Perm.swap 1 2 [])
  rw [hmade, Option.bind_some, hredraw, Option.map_some, Option.some.injEq] at hredrawn
  exact of_decide_eq_false hredrawn hkept

end Root

end Wrb.Ui
