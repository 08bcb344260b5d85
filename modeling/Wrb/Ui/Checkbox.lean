/-
Check boxes under keys (`ui/forms/checkbox.rs`): `Checkbox::from_clarity_value` and `Checkbox::handle_event`.

The selector starts at 0, Up and Down keep it in the range of the options with saturating arithmetic, and Enter and
Space take it for the index of an option as it is. Without options the selector is 0, and there is no option 0.

* `handleKey_right`: from a valid selector a key is handled as it should be, unless it toggles and there are no options.
* `keys_right_iff`: every run of keys is handled without a panic, selector and options being as they should, exactly
  when there are options, or no key of the run toggles.
* `enter_without_options`: a check box without options panics on Enter.
-/
import Mathlib.Tactic
import Wrb.Contracts.Elements
import Wrb.Lib.Runs
import Wrb.Ui.Forms
import Wrb.Ui.Loading

namespace Wrb.Ui

open Wrb.Contracts Wrb.Runs

/-- the part of `ui::Error` that the loading of a form returns -/
inductive LoadError where
  | codec (msg : String)
  | page (msg : String)
  | clarity (e : ClarityError)
deriving DecidableEq, Repr

def CHECKBOX_MAX_LEN : ℕ := 256

/-- a color of a page, truncated -/
def truncateColor (x : ℕ) : Color := Color.ofU32 (UInt32.ofNat (x &&& 0xffffffff))

def CheckboxOption.fromClarityValue (value : OptionRow) : Except LoadError CheckboxOption := do
  let text ← (Value.utf8 value.text).expectUtf8.mapError LoadError.clarity
  return { text := text, selected := value.selected }

/-- a field of a page as a `u64` -/
def u64Field (field : String) (x : ℕ) : Except LoadError UInt64 :=
  match u64TryFrom x with
  | some x => .ok x
  | none => .error (.codec s!"{field} is too big")

namespace Checkbox

/-- `from_clarity_value`, from the row of the contract -/
def fromClarityValue (viewportId : ℕ) (value : CheckboxRow) : Except LoadError Checkbox := do
  let row ← u64Field "row" value.row
  let col ← u64Field "col" value.col
  if CHECKBOX_MAX_LEN < value.options.length then
    .error (.page s!"Too many checkbox items (max is {CHECKBOX_MAX_LEN}, but got {value.options.length})")
  else do
    let options ← value.options.mapM CheckboxOption.fromClarityValue
    return { elementId := value.elementId
             viewportId := viewportId
             row := row
             col := col
             bgColor := truncateColor value.bgColor
             fgColor := truncateColor value.fgColor
             focusedBgColor := truncateColor value.focusedBgColor
             focusedFgColor := truncateColor value.focusedFgColor
             selectorColor := truncateColor value.selectorColor
             options := options
             selector := 0 }

/-- one key; none if it panics -/
def step (f : Checkbox) (key : Key) : Option (Unit × Checkbox) := (f.handleKey key).map fun f => ((), f)

/-- the selector is the index of an option, or 0 if there are none -/
def Valid (f : Checkbox) : Prop := f.selector < f.options.length ∨ f.options = [] ∧ f.selector = 0

/-- Enter and Space -/
def Toggles (key : Key) : Prop := key = .char '\n' ∨ key = .char ' '

instance (key : Key) : Decidable (Toggles key) := inferInstanceAs (Decidable (_ ∨ _))

def toggle (o : CheckboxOption) : CheckboxOption := { o with selected := !o.selected }

/-- **What a key should do** to the selector and the options: Up and Down move the selector by one at most, Enter and
Space toggle the option selected and no other, and no other key changes anything -/
structure Moves (f f' : Checkbox) (key : Key) : Prop where
  up : key = .up → f'.options = f.options ∧ f'.selector ≤ f.selector ∧ f.selector ≤ f'.selector + 1
  down : key = .down → f'.options = f.options ∧ f.selector ≤ f'.selector ∧ f'.selector ≤ f.selector + 1
  toggled : Toggles key → f'.selector = f.selector ∧
    ∀ i, f'.options[i]? = if i = f.selector then f.options[i]?.map toggle else f.options[i]?
  other : key ≠ .up → key ≠ .down → ¬ Toggles key → f' = f

/-- the key is handled without a panic, as it should be, and leaves a valid selector -/
def Right (f : Checkbox) (key : Key) : Prop := ∃ f', f.handleKey key = some f' ∧ f'.Valid ∧ f.Moves f' key

variable {f f' : Checkbox} {key : Key}

/-! ## One key -/

theorem handleKey_up (h : f.Valid) : f.Right .up := by
  refine ⟨_, rfl, ?_, fun _ => ⟨rfl, Nat.sub_le _ _, ?_⟩, nofun, nofun, fun hup => absurd rfl hup⟩
  · rcases h with hlt | ⟨hnil, hzero⟩
    · exact Or.inl (lt_of_le_of_lt (Nat.sub_le _ _) hlt)
    · exact Or.inr ⟨hnil, by simp [hzero]⟩
  · dsimp only
    omega

theorem handleKey_down (h : f.Valid) : f.Right .down := by
  refine ⟨_, rfl, ?_, nofun, fun _ => ⟨rfl, ?_, Nat.min_le_left _ _⟩, nofun, fun _ hdown => absurd rfl hdown⟩
  · rcases h with hlt | ⟨hnil, hzero⟩
    · refine Or.inl ?_
      dsimp only
      omega
    · exact Or.inr ⟨hnil, by simp [hnil]⟩
  · rcases h with hlt | ⟨-, hzero⟩
    · dsimp only
      omega
    · rw [hzero]
      exact Nat.zero_le _

theorem handleKey_toggles (htoggles : Toggles key) : f.handleKey key =
    f.options[f.selector]?.map fun o => { f with options := f.options.set f.selector (toggle o) } := by
  rcases htoggles with rfl | rfl
  · rfl
  · rfl

theorem toggle_right (h : f.selector < f.options.length) (htoggles : Toggles key) : f.Right key := by
  refine ⟨{ f with options := f.options.set f.selector (toggle f.options[f.selector]) }, ?_, ?_, ?_⟩
  · rw [handleKey_toggles htoggles, List.getElem?_eq_getElem h]
    rfl
  · exact Or.inl (by rw [List.length_set]; exact h)
  · refine ⟨?_, ?_, fun _ => ⟨rfl, fun i => ?_⟩, fun _ _ hno => absurd htoggles hno⟩
    · rintro rfl
      exact absurd htoggles (by decide)
    · rintro rfl
      exact absurd htoggles (by decide)
    · rw [List.getElem?_set]
      by_cases hi : i = f.selector
      · simp [hi, h]
      · rw [if_neg (Ne.symm hi), if_neg hi]

/-- the keys that do nothing -/
theorem handleKey_other (hup : key ≠ .up) (hdown : key ≠ .down) (hno : ¬ Toggles key) : f.handleKey key = some f := by
  cases key with
  | up => exact absurd rfl hup
  | down => exact absurd rfl hdown
  | char c =>
    rw [handleKey, if_neg]
    rintro (rfl | rfl)
    · exact hno (Or.inl rfl)
    · exact hno (Or.inr rfl)
  | _ => rfl

/-- **One key** is handled as it should be, unless it toggles an option and there is none -/
theorem handleKey_right (h : f.Valid) (key : Key) : f.Right key ↔ (f.options = [] → ¬ Toggles key) := by
  by_cases htoggles : Toggles key
  · by_cases hnil : f.options = []
    · refine iff_of_false ?_ (fun hno => hno hnil htoggles)
      rintro ⟨f', hk, -⟩
      rw [handleKey_toggles htoggles, hnil] at hk
      cases hk
    · have hlt : f.selector < f.options.length := h.resolve_right fun hand => hnil hand.1
      exact iff_of_true (toggle_right hlt htoggles) fun h => absurd h hnil
  · refine iff_of_true ?_ fun _ => htoggles
    by_cases hup : key = .up
    · rw [hup]
      exact handleKey_up h
    · by_cases hdown : key = .down
      · rw [hdown]
        exact handleKey_down h
      · exact ⟨f, handleKey_other hup hdown htoggles, h,
          ⟨fun h => absurd h hup, fun h => absurd h hdown, fun h => absurd h htoggles, fun _ _ _ => rfl⟩⟩

theorem handleKey_length (hk : f.handleKey key = some f') : f'.options.length = f.options.length := by
  cases key with
  | up =>
    cases hk
    rfl
  | down =>
    cases hk
    rfl
  | char c =>
    rw [handleKey] at hk
    split_ifs at hk
    · obtain ⟨o, -, rfl⟩ := Option.map_eq_some_iff.1 hk
      exact List.length_set
    · cases hk
      rfl
  | _ =>
    cases hk
    rfl

/-! ## Runs -/

theorem run_right_iff (h : f.Valid) (keys : List Key) :
    AlwaysSome step Right f keys ↔ (f.options = [] → ∀ key ∈ keys, ¬ Toggles key) := by
  induction keys generalizing f with
  | nil => simp [AlwaysSome]
  | cons key keys ih =>
    rw [AlwaysSome, handleKey_right h key, List.forall_mem_cons, imp_and, and_congr_right_iff]
    intro hno
    obtain ⟨f', hk, hvalid, -⟩ := (handleKey_right h key).2 hno
    have hstep : f.step key = some ((), f') := by rw [step, hk]; rfl
    have hnil : f'.options = [] ↔ f.options = [] := by
      rw [← List.length_eq_zero_iff, handleKey_length hk, List.length_eq_zero_iff]
    simp only [hstep, Option.mem_def, Option.some.injEq, forall_eq', ih hvalid, hnil]

theorem mapM_options (rows : List OptionRow) : rows.mapM CheckboxOption.fromClarityValue =
    .ok (rows.map fun o => { text := o.text.map charOfItem, selected := o.selected }) := by
  induction rows with
  | nil => rfl
  | cons o rows ih =>
    rw [List.mapM_cons, ih]
    rfl

theorem of_fromClarityValue {viewportId : ℕ} {value : CheckboxRow} (h : fromClarityValue viewportId value = .ok f) :
    f.selector = 0 ∧ f.options.length = value.options.length ∧ value.options.length ≤ CHECKBOX_MAX_LEN := by
  unfold fromClarityValue at h
  rw [mapM_options] at h
  cases hrow : u64Field "row" value.row with
  | error e =>
    rw [hrow] at h
    cases h
  | ok row =>
    cases hcol : u64Field "col" value.col with
    | error e =>
      rw [hrow, hcol] at h
      cases h
    | ok col =>
      rw [hrow, hcol] at h
      by_cases hmax : CHECKBOX_MAX_LEN < value.options.length
      · simp only [if_pos hmax] at h
        cases h
      · simp only [if_neg hmax] at h
        cases h
        exact ⟨rfl, List.length_map _, Nat.le_of_not_lt hmax⟩

/-- **Every run of keys** on a check box from a page is handled without a panic, the selector valid, exactly when there
are options, or no key toggles -/
theorem keys_right_iff (viewportId : ℕ) (value : CheckboxRow) (f : Checkbox)
    (h : fromClarityValue viewportId value = .ok f) (keys : List Key) :
    (f.Valid ∧ AlwaysSome step Right f keys) ↔ (value.options = [] → ∀ key ∈ keys, ¬ Toggles key) := by
  obtain ⟨hselector, hlen, -⟩ := of_fromClarityValue h
  have hnil : f.options = [] ↔ value.options = [] := by
    rw [← List.length_eq_zero_iff, hlen, List.length_eq_zero_iff]
  have hvalid : f.Valid := by
    rcases Nat.eq_zero_or_pos f.options.length with hzero | hpos
    · exact Or.inr ⟨List.length_eq_zero_iff.1 hzero, hselector⟩
    · exact Or.inl (by rw [hselector]; exact hpos)
  rw [and_iff_right hvalid, run_right_iff hvalid, hnil]

/-- a check box with `options`, in black at the origin -/
def blackRow (options : List OptionRow) : CheckboxRow := ⟨1, 0, 0, 0, 0, 0, 0, 0, options⟩

/-- two options, the second one toggled -/
theorem keys_right_twoOptions : ∃ f, fromClarityValue 0 (blackRow [⟨[[97]], false⟩, ⟨[[98]], true⟩]) = .ok f ∧
    f.Valid ∧ AlwaysSome step Right f [.down, .char ' '] :=
  ⟨_, rfl, (keys_right_iff 0 (blackRow [⟨[[97]], false⟩, ⟨[[98]], true⟩]) _ rfl _).2 (by decide)⟩

/-- **Enter without options** is a panic -/
theorem enter_without_options : ¬ ∀ (viewportId : ℕ) (value : CheckboxRow) (f : Checkbox) (keys : List Key),
    fromClarityValue viewportId value = .ok f → f.Valid ∧ AlwaysSome step Right f keys := by
  intro h
  obtain ⟨-, ⟨f', hk, -⟩, -⟩ := h 0 (blackRow []) _ [.char '\n'] rfl
  cases hk

end Checkbox

end Wrb.Ui
