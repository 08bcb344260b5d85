/-
Forms taken out of the root and put back (`ui/root.rs`): `next_focus`, `prev_focus`, `clear_focus` and `handle_event`
take one form out of the map, `redraw` and `update_forms` all of them, and an error on the way returns before they are
back.

Layers:
- `Root.Taking`: the operations on one form as the source has them, with the form out of the map while it works on the
  root, and the error return in between;
- the operations of `Wrb.Ui.Root`, which leave the form where it is: `innerNextFocus_eq`, `clearFocus_eq`,
  `handleEvent_eq` say that they are the same, since no form returns an error to them.

Results:
- `redraw_cases`: a redraw ends with an error only where a form has no viewport, and the forms are gone then;
- `updateForms_ok`: an update never ends with an error, since it passes over such forms;
- `keepsStatic_iff`: no operation loses a static form, exactly when every form has its viewport, or there are no static
  forms;
- `setAllForms_hasViewport`: it does not happen to forms set by `set_all_forms`, which refuses such forms;
- `redraw_loses`: a root with one form on a viewport that does not exist, redrawn.
-/
import Mathlib.Tactic
import Wrb.Ui.Redraw

namespace Wrb.Ui

open Std Wrb.TreeMap

namespace Form

/-- `WrbForm::focus`, for any form -/
def focus (f : Form) (root : Root) (focused : Bool) : Except UiError Unit × Root :=
  (.ok (), if focused then root.pointAt f else root)

/-- `WrbForm::handle_event`, for any form: the key, and `focus` where the form is now -/
def handleEvent (f : Form) (root : Root) (key : Key) : Option (Except UiError (Option Bool) × Form × Root) := do
  let (payload, f) ← f.handleKey key
  match f.focus root (root.isFocused f.elementId) with
  | (.error e, root) => some (.error e, f, root)
  | (.ok (), root) => some (.ok payload, f, root)

end Form

namespace Root

/-! ## Operations that take a form -/

namespace Taking

/-- a form works on the root while it is out of the map, and is put back; on an error it is not. If there is no form
with this ID, nothing happens -/
def withForm {α : Type} (root : Root) (id : ℕ) (how : Form → Root → Option (Except UiError α × Form × Root)) :
    Option (Except UiError (Option (Form × α)) × Root) :=
  match root.forms[id]? with
  | none => some (.ok none, root)
  | some form => do
    let (result, form, root) ← how form { root with forms := root.forms.erase id }
    match result with
    | .error e => some (.error e, root)
    | .ok a => some (.ok (some (form, a)), { root with forms := root.forms.insert id form })

/-- `focus` of the form with this ID, if there is one -/
def focusForm (root : Root) (id : Option ℕ) (focused : Bool) : Option (Except UiError Unit × Root) :=
  match id with
  | none => some (.ok (), root)
  | some id => (withForm root id fun form root =>
      some ((form.focus root focused).1, form, (form.focus root focused).2)).map fun r => (r.1.map fun _ => (), r.2)

def innerNextFocus (root : Root) (reverse : Bool) : Option (Except UiError Unit × Root) := do
  let oldFocused := root.focused
  let nextFocused := match root.focused with
    | some focused => if reverse then root.reverseFocusOrder[focused]? else root.focusOrder[focused]?
    | none => root.focusFirst
  let (result, root) ← focusForm { root with focused := nextFocused } oldFocused false
  match result with
  | .error e => some (.error e, root)
  | .ok () => focusForm root root.focused true

def clearFocus (root : Root) : Option (Except UiError Unit × Root) :=
  focusForm { root with focused := none } root.focused false

def handleEvent (root : Root) (key : Key) : Option (Except UiError Unit × Root) :=
  match root.focused with
  | none => some (.ok (), root)
  | some focused => do
    let (result, root) ← withForm root focused fun form root => form.handleEvent root key
    match result with
    | .error e => some (.error e, root)
    | .ok none => some (.ok (), root)
    | .ok (some (form, payload)) =>
      match payload with
      | some payload => some (.ok (), { root with
          runtimeEvents := root.runtimeEvents ++ [⟨form.typeId, form.elementId, payload⟩] })
      | none => some (.ok (), root)

end Taking

/-! ## No form is lost to an error -/

variable {root root' : Root}

theorem insert_erase {forms : ExtTreeMap ℕ Form} {id : ℕ} {form form' : Form} (h : forms[id]? = some form) :
    (forms.erase id).insert id form' = forms.insert id form' ∧ forms.insert id form = forms := by
  constructor
  · ext k v
    by_cases hk : id = k <;> simp [ExtTreeMap.getElem?_insert, ExtTreeMap.getElem?_erase, hk]
  · ext k v
    by_cases hk : id = k
    · simp [← hk, h]
    · simp [ExtTreeMap.getElem?_insert, hk]

/-- where a form points does not depend on the map of the forms -/
theorem pointAt_with (root : Root) (forms : ExtTreeMap ℕ Form) (form : Form) :
    { root with forms := forms }.pointAt form = { root.pointAt form with forms := forms } := by
  unfold pointAt
  cases form.cursorAt <;> rfl

@[simp] theorem pointAt_forms (root : Root) (form : Form) : (root.pointAt form).forms = root.forms := by
  unfold pointAt
  cases form.cursorAt <;> rfl

@[simp] theorem pointAt_dynamicForms (root : Root) (form : Form) :
    (root.pointAt form).dynamicForms = root.dynamicForms := by
  unfold pointAt
  cases form.cursorAt <;> rfl

theorem focusForm_eq (root : Root) (id : Option ℕ) (focused : Bool) : Taking.focusForm root id focused =
    some (.ok (), match id.bind fun id => root.forms[id]? with
      | some form => if focused then root.pointAt form else root
      | none => root) := by
  cases id with
  | none => rfl
  | some id =>
    rw [Taking.focusForm, Taking.withForm, Option.bind_some]
    cases hform : root.forms[id]? with
    | none => rfl
    | some form =>
      obtain ⟨hback, hself⟩ := @insert_erase root.forms id form form hform
      cases focused with
      | false => simp [Form.focus, Except.map, hback, hself]
      | true =>
        have hforms := root.pointAt_forms form
        simp only [Form.focus, Except.map, pointAt_with, if_true, Option.bind_eq_bind, Option.bind_some,
          Option.map_some, hback, hself]
        rw [← hforms]

theorem innerNextFocus_eq (root : Root) (reverse : Bool) :
    Taking.innerNextFocus root reverse = some (.ok (), root.innerNextFocus reverse) := by
  unfold Taking.innerNextFocus innerNextFocus
  simp only [focusForm_eq, Option.bind_eq_bind, Option.bind_some, if_true]
  cases root.focused with
  | none => rfl
  | some focused =>
    simp only [Option.bind_some]
    cases root.forms[focused]? <;> rfl

theorem clearFocus_eq (root : Root) : Taking.clearFocus root = some (.ok (), root.clearFocus) := by
  unfold Taking.clearFocus clearFocus
  rw [focusForm_eq]
  split <;> rfl

theorem handleEvent_eq (root : Root) (key : Key) :
    Taking.handleEvent root key = (root.handleEvent key).map fun root => (.ok (), root) := by
  unfold Taking.handleEvent handleEvent
  cases root.focused with
  | none => rfl
  | some focused =>
    simp only [Taking.withForm]
    cases hform : root.forms[focused]? with
    | none => rfl
    | some form =>
      simp only [Form.handleEvent]
      cases hkey : form.handleKey key with
      | none => rfl
      | some r =>
        obtain ⟨payload, form'⟩ := r
        obtain ⟨hback, -⟩ := @insert_erase root.forms focused form form' hform
        have hfocused : { root with forms := root.forms.erase focused }.isFocused form'.elementId =
            root.isFocused form'.elementId := rfl
        simp only [Form.focus, hfocused, Option.bind_eq_bind, Option.bind_some]
        cases root.isFocused form'.elementId with
        | false => cases payload <;> simp [hback]
        | true => cases payload <;> simp [pointAt_with, hback]

/-! ## Viewports that are there -/

/-- the viewport of the form exists -/
def HasViewport (root : Root) (form : Form) : Prop := (root.scenegraph.refViewport form.viewportId).isSome

theorem withViewport_none {α : Type} {id : ℕ} (h : root.scenegraph.refViewport id = none)
    (how : Viewport → Option (α × Viewport)) : root.withViewport id how = some (.error (.noViewport id), root) := by
  unfold withViewport
  cases htable : root.scenegraph.viewportTable[id]? with
  | none => rfl
  | some i =>
    have hnone : root.scenegraph.viewports[i]? = none := by
      unfold SceneGraph.refViewport at h
      rwa [htable] at h
    simp only [hnone]

theorem withViewport_error {α : Type} {id : ℕ} {how : Viewport → Option (α × Viewport)} {e : UiError}
    (h : root.withViewport id how = some (.error e, root')) : root.scenegraph.refViewport id = none := by
  unfold withViewport at h
  unfold SceneGraph.refViewport
  cases htable : root.scenegraph.viewportTable[id]? with
  | none => rfl
  | some i =>
    rw [htable] at h
    cases hv : root.scenegraph.viewports[i]? with
    | none => exact hv
    | some v =>
      simp only [hv] at h
      obtain ⟨r, -, heq⟩ := Option.map_eq_some_iff.1 h
      cases heq

theorem withViewport_forms {α : Type} {id : ℕ} {how : Viewport → Option (α × Viewport)} {result : Except UiError α}
    (h : root.withViewport id how = some (result, root')) :
    root'.forms = root.forms ∧ root'.dynamicForms = root.dynamicForms := by
  unfold withViewport at h
  split at h
  · cases h
    exact ⟨rfl, rfl⟩
  · split at h
    · cases h
      exact ⟨rfl, rfl⟩
    · obtain ⟨r, -, heq⟩ := Option.map_eq_some_iff.1 h
      cases heq
      exact ⟨rfl, rfl⟩

/-- painting keeps the viewports that there are -/
theorem Relaid.hasViewport (h : Relaid SameFrame root root') (form : Form) :
    root'.HasViewport form ↔ root.HasViewport form := by
  have htable : root'.scenegraph.viewportTable = root.scenegraph.viewportTable := by rw [h.graph]
  have hlen := h.viewports.length_eq
  unfold HasViewport SceneGraph.refViewport
  rw [htable]
  cases root.scenegraph.viewportTable[form.viewportId]? with
  | none => exact Iff.rfl
  | some i =>
    show (root'.scenegraph.viewports[i]?).isSome ↔ (root.scenegraph.viewports[i]?).isSome
    simp [hlen]

/-! ## Painting -/

theorem renderForm_none {form : Form} (h : ¬ root.HasViewport form) (cursor : Coord) :
    root.renderForm form cursor = some (.error (.noViewport form.viewportId), root) := by
  rw [renderForm, withViewport_none (Option.not_isSome_iff_eq_none.1 h)]
  rfl

theorem renderForm_of_hasViewport {form : Form} {cursor : Coord} {result : Except UiError Coord}
    (h : root.renderForm form cursor = some (result, root')) :
    root'.forms = root.forms ∧ root'.dynamicForms = root.dynamicForms ∧
      (root.HasViewport form → ∃ c, result = .ok c) := by
  obtain ⟨⟨painted, root₁⟩, hpaint, hrest⟩ := Option.bind_eq_some_iff.1 h
  obtain ⟨hforms, hdynamic⟩ := withViewport_forms hpaint
  cases painted with
  | error e =>
    cases hrest
    refine ⟨hforms, hdynamic, fun hview => ?_⟩
    rw [HasViewport, withViewport_error hpaint] at hview
    cases hview
  | ok c =>
    cases hrest
    refine ⟨?_, ?_, fun _ => ⟨c, rfl⟩⟩
    · split_ifs
      · rw [pointAt_forms, hforms]
      · exact hforms
    · split_ifs
      · rw [pointAt_dynamicForms, hdynamic]
      · exact hdynamic

/-- **Painting forms that have their viewports** does not end with an error, and the forms of the root stay -/
theorem renderAll_of_hasViewport {forms : List Form} {cursors : ExtTreeMap ℕ Coord}
    {result : Except UiError (ExtTreeMap ℕ Coord)} (h : renderAll forms cursors root = some (result, root')) :
    root'.forms = root.forms ∧ root'.dynamicForms = root.dynamicForms ∧
      ((∀ form ∈ forms, root.HasViewport form) → ∃ c, result = .ok c) := by
  induction forms generalizing cursors root with
  | nil =>
    cases h
    exact ⟨rfl, rfl, fun _ => ⟨cursors, rfl⟩⟩
  | cons form forms ih =>
    obtain ⟨⟨painted, root₁⟩, hform, hrest⟩ := Option.bind_eq_some_iff.1 h
    obtain ⟨hforms, hdynamic, hok⟩ := renderForm_of_hasViewport hform
    cases painted with
    | error e =>
      cases hrest
      refine ⟨hforms, hdynamic, fun hall => ?_⟩
      obtain ⟨c, hc⟩ := hok (hall form List.mem_cons_self)
      cases hc
    | ok cursor =>
      obtain ⟨hforms', hdynamic', hok'⟩ := ih hrest
      refine ⟨hforms'.trans hforms, hdynamic'.trans hdynamic, fun hall => hok' fun form' hform' => ?_⟩
      exact ((renderForm_relaid hform).hasViewport form').2 (hall form' (List.mem_cons_of_mem form hform'))

/-! ## Static forms -/

/-- the ID of a form that is not dynamic -/
def IsStatic (root : Root) (id : ℕ) : Prop := id ∈ root.forms ∧ id ∉ root.dynamicForms

/-- the static forms are those that were there -/
def SameStatic (root root' : Root) : Prop := ∀ id, root'.IsStatic id ↔ root.IsStatic id

/-- **No static form is lost**: after each operation, whether it returns an error or not, the static forms are those
that were there; `order` is the order in which the map yields the forms -/
structure KeepsStatic (root : Root) : Prop where
  nextFocus : ∀ reverse result root', Taking.innerNextFocus root reverse = some (result, root') → SameStatic root root'
  clearFocus : ∀ result root', Taking.clearFocus root = some (result, root') → SameStatic root root'
  handleEvent : ∀ key result root', Taking.handleEvent root key = some (result, root') → SameStatic root root'
  redraw : ∀ order : List ℕ, order.Perm root.forms.keys → ∀ result root', root.redraw order = some (result, root') →
    SameStatic root root'
  updateForms : ∀ frame order e root', root.updateForms frame order = some (.error e, root') → SameStatic root root'

theorem SameStatic.of_forms (hforms : ∀ id, id ∈ root'.forms ↔ id ∈ root.forms)
    (hdynamic : root'.dynamicForms = root.dynamicForms) : SameStatic root root' := by
  intro id
  rw [IsStatic, IsStatic, hforms, hdynamic]

theorem innerNextFocus_sameStatic (root : Root) (reverse : Bool) : SameStatic root (root.innerNextFocus reverse) := by
  unfold innerNextFocus
  dsimp only
  split
  · exact .of_forms (fun id => by rw [pointAt_forms]) (by rw [pointAt_dynamicForms])
  · exact .of_forms (fun _ => Iff.rfl) rfl

theorem handleEvent_sameStatic {key : Key} (h : root.handleEvent key = some root') : SameStatic root root' := by
  unfold handleEvent at h
  cases hfocused : root.focused with
  | none =>
    rw [hfocused] at h
    cases h
    exact .of_forms (fun _ => Iff.rfl) rfl
  | some focused =>
    simp only [hfocused] at h
    cases hform : root.forms[focused]? with
    | none =>
      rw [hform] at h
      cases h
      exact .of_forms (fun _ => Iff.rfl) rfl
    | some form =>
      simp only [hform] at h
      obtain ⟨⟨payload, form'⟩, -, hrest⟩ := Option.bind_eq_some_iff.1 h
      have hmem : focused ∈ root.forms := ExtTreeMap.isSome_getElem?_iff_mem.1 (by rw [hform]; rfl)
      have hback : ∀ id, id ∈ root.forms.insert focused form' ↔ id ∈ root.forms := by
        intro id
        rw [ExtTreeMap.mem_insert, or_iff_right_of_imp]
        intro heq
        rwa [← LawfulEqOrd.eq_of_compare heq]
      obtain ⟨hforms, hdynamic⟩ :
          (if root.isFocused form'.elementId then root.pointAt form' else root).forms = root.forms ∧
          (if root.isFocused form'.elementId then root.pointAt form' else root).dynamicForms = root.dynamicForms := by
        split_ifs <;> simp
      cases payload with
      | none =>
        cases hrest
        exact .of_forms (fun id => by rw [hforms]; exact hback id) hdynamic
      | some payload =>
        cases hrest
        exact .of_forms (fun id => by rw [hforms]; exact hback id) hdynamic

/-- **A redraw ends with an error** only where a form has no viewport, and the forms are gone. Else it keeps them -/
theorem redraw_cases {order : List ℕ} {result : Except UiError Unit} (h : root.redraw order = some (result, root')) :
    root'.dynamicForms = root.dynamicForms ∧ (result = .ok () ∧ root'.forms = root.forms ∨
      root'.forms = ∅ ∧ ∃ form ∈ inOrder root.forms order, ¬ root.HasViewport form) := by
  obtain ⟨⟨painted, root₁⟩, hpaint, hrest⟩ := Option.bind_eq_some_iff.1 h
  obtain ⟨hforms, hdynamic, hok⟩ := renderAll_of_hasViewport hpaint
  cases painted with
  | error e =>
    cases hrest
    refine ⟨hdynamic, Or.inr ⟨hforms, ?_⟩⟩
    by_contra hall
    obtain ⟨c, hc⟩ := hok fun form hform => by_contra fun hview => hall ⟨form, hform, hview⟩
    cases hc
  | ok cursors =>
    cases hrest
    exact ⟨hdynamic, Or.inl ⟨rfl, rfl⟩⟩

/-- where the form yielded first has no viewport, the forms are gone -/
theorem redraw_none {id : ℕ} {form : Form} (hform : root.forms[id]? = some form) (hview : ¬ root.HasViewport form)
    (order : List ℕ) : root.redraw (id :: order) =
      some (.error (.noViewport form.viewportId), { root with forms := ∅ }) := by
  have horder : inOrder root.forms (id :: order) = form :: inOrder root.forms order := by
    rw [inOrder, List.filterMap_cons, hform]
    rfl
  have hnone : ¬ { root with forms := ∅ }.HasViewport form := hview
  unfold redraw
  simp only [horder, renderAll, renderForm_none hnone]
  rfl

theorem hasViewport_of_visible {form : Form} (h : root.isVisible form.viewportId = true) : root.HasViewport form := by
  unfold isVisible at h
  unfold HasViewport
  cases hview : root.scenegraph.refViewport form.viewportId with
  | none =>
    rw [hview] at h
    cases h
  | some v => rfl

/-- **An update does not end with an error**: it passes over the forms without a viewport -/
theorem updateForms_ok {frame : FrameUpdate} {order : List ℕ} {result : Except UiError Unit}
    (h : root.updateForms frame order = some (result, root')) : result = .ok () := by
  obtain ⟨⟨painted, root₁⟩, hshown, hrest⟩ := Option.bind_eq_some_iff.1 h
  obtain ⟨-, -, hok⟩ := renderAll_of_hasViewport hshown
  obtain ⟨cursors, rfl⟩ := hok fun form hform => hasViewport_of_visible (List.mem_filter.1 hform).2
  obtain ⟨⟨painted, root₂⟩, hadded, hrest⟩ := Option.bind_eq_some_iff.1 hrest
  obtain ⟨-, -, hok'⟩ := renderAll_of_hasViewport hadded
  obtain ⟨cursors', rfl⟩ := hok' fun form hform =>
    ((renderAll_relaid hshown).hasViewport form).2 (hasViewport_of_visible (List.mem_filter.1 hform).2)
  cases hrest
  rfl

/-- **No static form is lost**, whatever the operation and the order of the map, exactly when every form has its
viewport, or there are no static forms -/
theorem keepsStatic_iff (root : Root) : root.KeepsStatic ↔
    (∀ (id : ℕ) (form : Form), root.forms[id]? = some form → root.HasViewport form) ∨ ∀ id, ¬ root.IsStatic id := by
  constructor
  · intro h
    by_contra hlost
    push Not at hlost
    obtain ⟨⟨id, form, hform, hview⟩, kept, hstatic⟩ := hlost
    have hmem : id ∈ root.forms.keys := by
      rw [ExtTreeMap.mem_keys, ← ExtTreeMap.isSome_getElem?_iff_mem, hform]
      rfl
    have hperm : (id :: root.forms.keys.erase id).Perm root.forms.keys := (List.perm_cons_erase hmem).symm
    have hkept := (h.redraw _ hperm _ _ (redraw_none hform hview _) kept).2 hstatic
    simp [IsStatic] at hkept
  · intro hcond
    refine ⟨?_, ?_, ?_, ?_, ?_⟩
    · intro reverse result root' h
      cases (innerNextFocus_eq root reverse).symm.trans h
      exact innerNextFocus_sameStatic root reverse
    · intro result root' h
      cases (clearFocus_eq root).symm.trans h
      exact .of_forms (fun _ => Iff.rfl) rfl
    · intro key result root' h
      rw [handleEvent_eq] at h
      obtain ⟨root₁, hevent, heq⟩ := Option.map_eq_some_iff.1 h
      cases heq
      exact handleEvent_sameStatic hevent
    · intro order hperm result root' h
      obtain ⟨hdynamic, ⟨-, hforms⟩ | ⟨hempty, form, hmem, hview⟩⟩ := redraw_cases h
      · exact .of_forms (fun id => by rw [hforms]) hdynamic
      · rcases hcond with hall | hnone
        · obtain ⟨id, -, hform⟩ := mem_inOrder.1 hmem
          exact absurd (hall id form hform) hview
        · intro id
          rw [IsStatic, hempty]
          exact iff_of_false (by simp) (hnone id)
    · intro frame order e root' h
      cases updateForms_ok h

theorem hasViewport_of_renderAll {forms : List Form} {cursors cursors' : ExtTreeMap ℕ Coord}
    (h : renderAll forms cursors root = some (.ok cursors', root')) : ∀ form ∈ forms, root.HasViewport form := by
  induction forms generalizing cursors root with
  | nil => exact List.forall_mem_nil _
  | cons form forms ih =>
    obtain ⟨⟨painted, root₁⟩, hform, hrest⟩ := Option.bind_eq_some_iff.1 h
    cases painted with
    | error e => cases hrest
    | ok cursor =>
      refine List.forall_mem_cons.2 ⟨?_, fun form' hform' => ?_⟩
      · by_contra hview
        cases (renderForm_none hview _).symm.trans hform
      · exact ((renderForm_relaid hform).hasViewport form').1 (ih hrest form' hform')

/-- **The forms of a page** have their viewports: else `set_all_forms` ends with an error -/
theorem setAllForms_hasViewport {staticForms dynamicForms : List Form}
    (h : root.setAllForms staticForms dynamicForms = some (.ok (), root')) :
    ∀ (id : ℕ) (form : Form), root'.forms[id]? = some form → root'.HasViewport form := by
  have hrelaid := setAllForms_relaid h
  obtain ⟨⟨painted, root₁⟩, hstatic, hrest⟩ := Option.bind_eq_some_iff.1 h
  cases painted with
  | error e => cases hrest
  | ok cursors =>
    obtain ⟨⟨painted, root₂⟩, hdynamic, hrest⟩ := Option.bind_eq_some_iff.1 hrest
    cases painted with
    | error e => cases hrest
    | ok cursors' =>
      cases hrest
      intro id form hform
      obtain ⟨f, hf, heq⟩ := List.mem_map.1 (mem_of_table hform)
      cases heq
      rw [hrelaid.hasViewport]
      rcases List.mem_append.1 hf with hf | hf
      · exact hasViewport_of_renderAll hstatic form hf
      · exact ((renderAll_relaid hstatic).hasViewport form).1 (hasViewport_of_renderAll hdynamic form hf)

/-- a text on a viewport that does not exist -/
def strayText : Form := .text ⟨1, 7, 0, 0, ⟨0, 0, 0⟩, ⟨255, 255, 255⟩, ['a']⟩

/-- **A redraw loses the form** that has no viewport, and with it all others -/
theorem redraw_loses : ¬ ∀ root : Root, root.KeepsStatic := by
  intro h
  let root : Root := { new 1 4 ⟨[], ∅, ∅, [], ∅⟩ with forms := (∅ : ExtTreeMap ℕ Form).insert 1 strayText }
  have hform : root.forms[1]? = some strayText := ExtTreeMap.getElem?_insert_self
  have hmem : 1 ∈ root.forms.keys := by
    rw [ExtTreeMap.mem_keys, ← ExtTreeMap.isSome_getElem?_iff_mem, hform]
    rfl
  have hview : ¬ root.HasViewport strayText := by
    intro hview
    simp [HasViewport, SceneGraph.refViewport, root, new] at hview
  have hstatic : root.IsStatic 1 := ⟨ExtTreeMap.mem_keys.1 hmem, List.not_mem_nil⟩
  have hkept := ((h root).redraw _ (List.perm_cons_erase hmem).symm _ _ (redraw_none hform hview _) 1).2 hstatic
  simp [IsStatic] at hkept

end Root

end Wrb.Ui
