/-
Corners of elements (`ui/viewport.rs`): a viewport keeps, for each UI element, the least row and the least column that
it was printed from, and gives the place of a cell in its element relative to them.

The place a text is printed from is not always the upper-left corner of where it is: word wrapping goes on in the first
column of the next row, and a line break or a long word at the start leave the row of the start empty.

Model: `runSome` with the ways to print (`PrintCall.perform`). `cells` are the cells that a call prints, from the
positions that `inner_print` goes through, and so whatever overflows.

Results:
- `mapsToCorners_iff`: after any run of prints on any viewport every cell is found relative to the upper-left corner of
  its element (`MapsToCorners`), exactly if the starts and the cells of each element to be seen have the same corner
  (`CornersAtStarts`);
- `cornersAtStarts_of_each`, `printTo_isCorner`, `print_isCorner`: as they have on a new viewport if each text begins at
  its start, and starts a row or stays in one;
- `wrapped_not_found`: a word that is wrapped to the left of its start is not found.
-/
import Mathlib.Tactic
import Wrb.Lib.Runs
import Wrb.Ui.PrintAt

namespace Wrb.Ui

open Wrb.Runs Wrb.WordWrap

/-! ## Corners -/

/-- the upper-left corner of the bounding box of some places -/
structure IsCorner (places : List (ℕ × ℕ)) (corner : ℕ × ℕ) : Prop where
  row : ∃ place ∈ places, place.1 = corner.1
  col : ∃ place ∈ places, place.2 = corner.2
  le : ∀ place ∈ places, corner.1 ≤ place.1 ∧ corner.2 ≤ place.2

section Corners

variable {places : List (ℕ × ℕ)} {corner corner' : ℕ × ℕ}

theorem IsCorner.unique (h : IsCorner places corner) (h' : IsCorner places corner') : corner = corner' := by
  obtain ⟨p, hp, hrow⟩ := h.row
  obtain ⟨q, hq, hcol⟩ := h.col
  obtain ⟨p', hp', hrow'⟩ := h'.row
  obtain ⟨q', hq', hcol'⟩ := h'.col
  refine Prod.ext (le_antisymm ?_ ?_) (le_antisymm ?_ ?_)
  · exact (h.le p' hp').1.trans_eq hrow'
  · exact (h'.le p hp).1.trans_eq hrow
  · exact (h.le q' hq').2.trans_eq hcol'
  · exact (h'.le q hq).2.trans_eq hcol

theorem isCorner_singleton (place : ℕ × ℕ) : IsCorner [place] place where
  row := ⟨place, List.mem_singleton_self _, rfl⟩
  col := ⟨place, List.mem_singleton_self _, rfl⟩
  le p hp := by
    rw [List.mem_singleton.1 hp]
    exact ⟨le_refl _, le_refl _⟩

/-- one place more -/
theorem IsCorner.snoc (h : IsCorner places corner) (place : ℕ × ℕ) :
    IsCorner (places ++ [place]) (min corner.1 place.1, min corner.2 place.2) where
  row := by
    rcases min_choice corner.1 place.1 with hmin | hmin
    · obtain ⟨p, hp, hrow⟩ := h.row
      exact ⟨p, List.mem_append_left _ hp, hrow.trans hmin.symm⟩
    · exact ⟨place, by simp, hmin.symm⟩
  col := by
    rcases min_choice corner.2 place.2 with hmin | hmin
    · obtain ⟨p, hp, hcol⟩ := h.col
      exact ⟨p, List.mem_append_left _ hp, hcol.trans hmin.symm⟩
    · exact ⟨place, by simp, hmin.symm⟩
  le p hp := by
    rcases List.mem_append.1 hp with hp | hp
    · obtain ⟨hrow, hcol⟩ := h.le p hp
      exact ⟨(min_le_left _ _).trans hrow, (min_le_left _ _).trans hcol⟩
    · rw [List.mem_singleton.1 hp]
      exact ⟨min_le_right _ _, min_le_right _ _⟩

theorem exists_isCorner (h : places ≠ []) : ∃ corner, IsCorner places corner := by
  induction places using List.reverseRecOn with
  | nil => exact absurd rfl h
  | append_singleton places place ih =>
    by_cases hnil : places = []
    · subst hnil
      exact ⟨place, isCorner_singleton place⟩
    · obtain ⟨corner, hcorner⟩ := ih hnil
      exact ⟨_, hcorner.snoc place⟩

/-- a box of boxes has the corner of their corners -/
theorem isCorner_flatMap {α : Type} {l : List α} {f : α → List (ℕ × ℕ)} {g : α → ℕ × ℕ}
    (h : ∀ x ∈ l, IsCorner (f x) (g x)) (hcorner : IsCorner (l.map g) corner) : IsCorner (l.flatMap f) corner where
  row := by
    obtain ⟨_, hmem, hrow⟩ := hcorner.row
    obtain ⟨x, hx, rfl⟩ := List.mem_map.1 hmem
    obtain ⟨p, hp, hrow'⟩ := (h x hx).row
    exact ⟨p, List.mem_flatMap.2 ⟨x, hx, hp⟩, hrow'.trans hrow⟩
  col := by
    obtain ⟨_, hmem, hcol⟩ := hcorner.col
    obtain ⟨x, hx, rfl⟩ := List.mem_map.1 hmem
    obtain ⟨p, hp, hcol'⟩ := (h x hx).col
    exact ⟨p, List.mem_flatMap.2 ⟨x, hx, hp⟩, hcol'.trans hcol⟩
  le p hp := by
    obtain ⟨x, hx, hp⟩ := List.mem_flatMap.1 hp
    obtain ⟨hrow, hcol⟩ := hcorner.le (g x) (List.mem_map_of_mem hx)
    obtain ⟨hrow', hcol'⟩ := (h x hx).le p hp
    exact ⟨hrow.trans hrow', hcol.trans hcol'⟩

end Corners

/-! ## Prints -/

/-- the ways to print on a viewport -/
inductive PrintKind where
  | printTo
  | print
  | println
  | printIter
  | printAtIter
deriving DecidableEq, Repr

structure PrintCall where
  kind : PrintKind
  elementId : ℕ
  start : Coord
  bg : Color
  fg : Color
  text : List Char
deriving DecidableEq, Repr

/-- the cells of the parts of a text, from a position on -/
def partCells (numCols : UInt64) : List PrintPartType → (row idx : UInt64) → List ℕ
  | [], _, _ => []
  | .newline :: parts, row, _ => partCells numCols parts (row + 1) 0
  | .word text len :: parts, row, idx =>
    List.range' (numCols * (CharBuff.putOf numCols row idx len).1 + (CharBuff.putOf numCols row idx len).2).toNat
        text.length ++
      partCells numCols parts (CharBuff.nextOf numCols row idx len).1 (CharBuff.nextOf numCols row idx len).2

namespace PrintCall

def perform (v : Viewport) (call : PrintCall) : Option (Coord × Viewport) :=
  match call.kind with
  | .printTo => v.printTo call.elementId call.start call.bg call.fg call.text
  | .print => v.print call.elementId call.start call.bg call.fg call.text
  | .println => v.println call.elementId call.start call.bg call.fg call.text
  | .printIter => v.printIter call.elementId call.start call.bg call.fg call.text
  | .printAtIter => v.printAtIter call.elementId call.start call.bg call.fg call.text

/-- the cells that the call prints -/
def cells (numCols : UInt64) (call : PrintCall) : List ℕ :=
  match call.kind with
  | .printTo | .printAtIter => List.range' (numCols * call.start.1 + call.start.2).toNat call.text.length
  | .print | .println | .printIter =>
    partCells numCols (CharBuff.splitParts call.text []) call.start.1 call.start.2

/-- and their places -/
def places (numCols : UInt64) (call : PrintCall) : List (ℕ × ℕ) :=
  (call.cells numCols).map fun p => (p / numCols.toNat, p % numCols.toNat)

end PrintCall

/-- the calls for an element -/
def callsOf (calls : List PrintCall) (elementId : ℕ) : List PrintCall :=
  calls.filter fun call => decide (call.elementId = elementId)

/-- the element of a cell -/
def elementIn (cells : List CharCell) (p : ℕ) : Option ℕ :=
  match cells[p]? with
  | some (.fill _ _ _ elementId) => some elementId
  | _ => none

/-- the places of an element on a buffer -/
def shownAt (b : CharBuff) (elementId : ℕ) : List (ℕ × ℕ) :=
  ((List.range b.cells.length).filter fun p => decide (elementIn b.cells p = some elementId)).map fun p =>
    (p / b.numCols.toNat, p % b.numCols.toNat)

/-- the places that an element is printed from, on `v`: the corner that `v` keeps stands for the prints before -/
def startsOf (v : Viewport) (calls : List PrintCall) (elementId : ℕ) : List (ℕ × ℕ) :=
  v.elementCoords[elementId]?.toList.map natPos ++ (callsOf calls elementId).map fun call => natPos call.start

/-- and the places that it is printed at; those that it has on `v` stand for the prints before -/
def placesOf (v : Viewport) (calls : List PrintCall) (elementId : ℕ) : List (ℕ × ℕ) :=
  shownAt v.buff elementId ++ (callsOf calls elementId).flatMap fun call => call.places v.buff.numCols

/-- the element that was the last to be printed at a cell -/
def ownerOf (v : Viewport) (calls : List PrintCall) (p : ℕ) : Option ℕ :=
  calls.foldl (fun owner call => if p ∈ call.cells v.buff.numCols then some call.elementId else owner)
    (elementIn v.buff.cells p)

/-- **Every cell is found in its element**: after the calls, on `v'`, relative to the corner of all that was printed for
the element -/
def MapsToCorners (v v' : Viewport) (calls : List PrintCall) : Prop :=
  ∀ (r c : UInt64) value bg fg elementId, c < v'.buff.numCols →
    index v'.buff.numCols.toNat (natPos (r, c)) < 2 ^ 64 →
    v'.buff.cells[index v'.buff.numCols.toNat (natPos (r, c))]? = some (.fill value bg fg elementId) →
    ∃ top left, IsCorner (placesOf v calls elementId) (natPos (top, left)) ∧
      v'.getUiCoordinate r c = some (elementId, r - top, c - left)

/-- the starts and the places of each element to be seen have the same corner -/
def CornersAtStarts (v : Viewport) (calls : List PrintCall) : Prop :=
  ∀ (r c : UInt64) elementId, c < v.buff.numCols → index v.buff.numCols.toNat (natPos (r, c)) < 2 ^ 64 →
    ownerOf v calls (index v.buff.numCols.toNat (natPos (r, c))) = some elementId →
    ∃ corner, IsCorner (startsOf v calls elementId) corner ∧ IsCorner (placesOf v calls elementId) corner

/-! ## What a print does to the cells -/

/-- some cells become those of an element -/
structure Claims (b b' : CharBuff) (elementId : ℕ) (cells : List ℕ) : Prop where
  numCols : b'.numCols = b.numCols
  element : ∀ p, elementIn b'.cells p = if p ∈ cells then some elementId else elementIn b.cells p

theorem Claims.append {b b' b'' : CharBuff} {elementId : ℕ} {cells cells' : List ℕ} (h : Claims b b' elementId cells)
    (h' : Claims b' b'' elementId cells') : Claims b b'' elementId (cells ++ cells') where
  numCols := h'.numCols.trans h.numCols
  element p := by
    rw [h'.element, h.element]
    by_cases hp : p ∈ cells
    · simp [hp]
    · simp [hp]

theorem Claims.refl (b : CharBuff) (elementId : ℕ) : Claims b b elementId [] := ⟨rfl, fun _ => rfl⟩

namespace CharBuff

variable {b b' : CharBuff} {elementId : ℕ} {bg fg : Color} {ret : Coord} {text : List Char}

theorem elementIn_cellOf {cells : List CharCell} {p : ℕ} {c : Char}
    (h : cells[p]? = some (cellOf elementId bg fg c)) : elementIn cells p = some elementId := by
  rw [elementIn, h, cellOf_eq]

theorem elementIn_congr {cells cells' : List CharCell} {p : ℕ} (h : cells'[p]? = cells[p]?) :
    elementIn cells' p = elementIn cells p := by
  rw [elementIn, elementIn, h]

theorem claims_of_writesFrom {cell : ℕ} (h : WritesFrom b b' cell (text.map (cellOf elementId bg fg))) :
    Claims b b' elementId (List.range' cell text.length) where
  numCols := h.numCols
  element p := by
    have hkept := h.kept
    have hlen := h.length
    rw [List.length_map] at hkept hlen
    by_cases hp : p ∈ List.range' cell text.length
    · rw [if_pos hp]
      obtain ⟨hge, hlt⟩ := List.mem_range'_1.1 hp
      obtain ⟨k, rfl⟩ := Nat.exists_eq_add_of_le hge
      have hk : k < text.length := by omega
      refine elementIn_cellOf (h.written k (cellOf elementId bg fg text[k]) ?_)
      rw [List.getElem?_map, List.getElem?_eq_getElem hk]
      rfl
    · rw [if_neg hp]
      rw [List.mem_range'_1, not_and_or, not_le, not_lt] at hp
      rcases Nat.lt_or_ge p b.cells.length with hin | hout
      · exact elementIn_congr (hkept p hin hp)
      · have hnone : elementIn b.cells p = none := by rw [elementIn, List.getElem?_eq_none hout]
        rw [hnone]
        rcases hp with hlt | hge
        · rw [elementIn, h.padded p hlt hout]
        · rw [elementIn, List.getElem?_eq_none (by omega)]

theorem printAt_claims {start : Coord} (h : b.printAt elementId start bg fg text = some (ret, b')) :
    Claims b b' elementId (List.range' (b.numCols * start.1 + start.2).toNat text.length) := by
  have hcols : b.numCols ≠ 0 := by
    intro hzero
    rw [printAt, if_pos hzero] at h
    cases h
  obtain ⟨ret', b'', hprint, hwrites⟩ := printAt_writesFrom hcols elementId start bg fg text
  rw [hprint] at h
  cases h
  rw [number_toNat]
  exact claims_of_writesFrom hwrites

theorem printParts_claims {parts : List PrintPartType} {row idx : UInt64} {ret₀ : Coord}
    (h : printParts elementId bg fg parts row idx ret₀ b = some (ret, b')) :
    Claims b b' elementId (partCells b.numCols parts row idx) := by
  induction parts generalizing row idx ret₀ b with
  | nil =>
    cases h
    exact .refl _ _
  | cons part parts ih =>
    cases part with
    | newline => exact ih h
    | word cs len =>
      rw [printParts_word] at h
      obtain ⟨⟨ret₁, b₁⟩, hprint, hrest⟩ := Option.bind_eq_some_iff.1 h
      have hword := printAt_claims hprint
      have hparts := ih hrest
      rw [hword.numCols] at hparts
      exact hword.append hparts

theorem innerPrint_claims {start : Coord} {newline : Bool}
    (h : b.innerPrint elementId start bg fg text newline = some (ret, b')) :
    Claims b b' elementId (partCells b.numCols (splitParts text []) start.1 start.2) := by
  obtain ⟨⟨ret₁, b₁⟩, hparts, heq⟩ := Option.bind_eq_some_iff.1 h
  cases heq
  exact printParts_claims hparts

end CharBuff

/-! ## What a print does to the viewport -/

/-- what a call does with the buffer -/
def PrintCall.how (call : PrintCall) (b : CharBuff) : Option (Coord × CharBuff) :=
  match call.kind with
  | .printTo | .printAtIter => b.printAt call.elementId call.start call.bg call.fg call.text
  | .print | .printIter => b.print call.elementId call.start call.bg call.fg call.text
  | .println => b.println call.elementId call.start call.bg call.fg call.text

theorem PrintCall.perform_eq (v : Viewport) (call : PrintCall) :
    call.perform v = v.printWith call.elementId call.start call.how := by
  rcases call with ⟨kind, elementId, start, bg, fg, text⟩
  cases kind <;> rfl

theorem PrintCall.how_claims {b b' : CharBuff} {call : PrintCall} {ret : Coord} (h : call.how b = some (ret, b')) :
    Claims b b' call.elementId (call.cells b.numCols) := by
  rcases call with ⟨kind, elementId, start, bg, fg, text⟩
  cases kind with
  | printTo => exact CharBuff.printAt_claims h
  | print => exact CharBuff.innerPrint_claims h
  | println => exact CharBuff.innerPrint_claims h
  | printIter => exact CharBuff.innerPrint_claims h
  | printAtIter => exact CharBuff.printAt_claims h

/-- **A print claims its cells**, and its start counts for the corner of its element -/
theorem PrintCall.perform_claims {v v' : Viewport} {call : PrintCall} {ret : Coord}
    (h : call.perform v = some (ret, v')) : Claims v.buff v'.buff call.elementId (call.cells v.buff.numCols) ∧
      v'.elementCoords = (v.updateElementCoord call.elementId call.start).elementCoords := by
  rw [perform_eq] at h
  obtain ⟨⟨ret', b'⟩, hprint, heq⟩ := Option.map_eq_some_iff.1 h
  cases heq
  rw [Viewport.updateElementCoord_buff] at hprint
  exact ⟨how_claims hprint, rfl⟩

/-- the corner kept for an element, if there is one, is that of its starts -/
def KeepsCorner (starts : List (ℕ × ℕ)) (kept : Option Coord) : Prop :=
  match kept with
  | none => starts = []
  | some corner => IsCorner starts (natPos corner)

theorem natPos_min (a b : Coord) :
    natPos (min a.1 b.1, min a.2 b.2) = (min (natPos a).1 (natPos b).1, min (natPos a).2 (natPos b).2) := by
  have hmin : ∀ x y : UInt64, (min x y).toNat = min x.toNat y.toNat := by
    intro x y
    change (if x ≤ y then x else y).toNat = _
    split_ifs with hle
    · exact (min_eq_left (UInt64.le_iff_toNat_le.1 hle)).symm
    · exact (min_eq_right (le_of_not_ge fun h => hle (UInt64.le_iff_toNat_le.2 h))).symm
  exact Prod.ext (hmin a.1 b.1) (hmin a.2 b.2)

theorem updateElementCoord_keeps {v : Viewport} {elementId : ℕ} {start : Coord} {starts : ℕ → List (ℕ × ℕ)}
    (h : ∀ id, KeepsCorner (starts id) v.elementCoords[id]?) (id : ℕ) :
    KeepsCorner (if elementId = id then starts id ++ [natPos start] else starts id)
      (v.updateElementCoord elementId start).elementCoords[id]? := by
  have hkept := h elementId
  unfold Viewport.updateElementCoord
  by_cases hid : elementId = id
  · subst hid
    rw [if_pos rfl]
    cases hold : v.elementCoords[elementId]? with
    | none =>
      rw [hold] at hkept
      simp only [Std.ExtTreeMap.getElem?_insert_self, KeepsCorner]
      rw [hkept]
      exact isCorner_singleton _
    | some corner =>
      rw [hold] at hkept
      simp only [Std.ExtTreeMap.getElem?_insert_self, KeepsCorner]
      rw [natPos_min]
      exact IsCorner.snoc hkept _
  · rw [if_neg hid]
    cases hold : v.elementCoords[elementId]? with
    | none => simpa [Std.ExtTreeMap.getElem?_insert, hid] using h id
    | some corner => simpa [Std.ExtTreeMap.getElem?_insert, hid] using h id

/-- **What a viewport knows of the calls so far**, made on `v` -/
structure Tracks (v : Viewport) (calls : List PrintCall) (v' : Viewport) : Prop where
  cols : v'.buff.numCols = v.buff.numCols
  owner : ∀ p, elementIn v'.buff.cells p = ownerOf v calls p
  corner : ∀ elementId, KeepsCorner (startsOf v calls elementId) v'.elementCoords[elementId]?

theorem perform_tracks {v v' v'' : Viewport} {calls : List PrintCall} {call : PrintCall} {ret : Coord}
    (h : Tracks v calls v') (hstep : call.perform v' = some (ret, v'')) : Tracks v (calls ++ [call]) v'' := by
  obtain ⟨hclaims, hcoords⟩ := PrintCall.perform_claims hstep
  rw [h.cols] at hclaims
  refine ⟨hclaims.numCols.trans h.cols, ?_, ?_⟩
  · intro p
    rw [hclaims.element, h.owner, ownerOf, ownerOf, List.foldl_append]
    rfl
  · intro elementId
    have hkept := @updateElementCoord_keeps v' call.elementId call.start _ h.corner elementId
    rw [← hcoords] at hkept
    rw [startsOf, callsOf, List.filter_append, List.map_append, ← List.append_assoc]
    by_cases hid : call.elementId = elementId
    · rw [if_pos hid] at hkept
      simpa [startsOf, callsOf, hid] using hkept
    · rw [if_neg hid] at hkept
      simpa [startsOf, callsOf, hid] using hkept

theorem tracks_nil (v : Viewport) : Tracks v [] v where
  cols := rfl
  owner _ := rfl
  corner elementId := by
    rw [startsOf]
    cases v.elementCoords[elementId]? with
    | none => rfl
    | some corner => exact isCorner_singleton (natPos corner)

theorem run_tracks {v v' : Viewport} {calls : List PrintCall} {rets : List Coord}
    (hrun : runSome (fun v call => PrintCall.perform v call) v calls = some (rets, v')) : Tracks v calls v' :=
  runSome_record (fun _ _ _ _ _ h hstep => perform_tracks h hstep) (tracks_nil v) hrun

/-! ## Where cells are found -/

theorem exists_call_of_owner {v : Viewport} {calls : List PrintCall} {p elementId : ℕ}
    (h : ownerOf v calls p = some elementId) :
    elementIn v.buff.cells p = some elementId ∨ ∃ call ∈ callsOf calls elementId, p ∈ call.cells v.buff.numCols := by
  induction calls using List.reverseRecOn with
  | nil => exact Or.inl h
  | append_singleton calls call ih =>
    rw [ownerOf, List.foldl_append, List.foldl_cons, List.foldl_nil] at h
    split_ifs at h with hp
    · cases h
      exact Or.inr ⟨call, by simp [callsOf], hp⟩
    · rcases ih h with hshown | ⟨call', hmem, hp'⟩
      · exact Or.inl hshown
      · refine Or.inr ⟨call', ?_, hp'⟩
        rw [callsOf, List.filter_append]
        exact List.mem_append_left _ hmem

theorem elementIn_eq_some {cells : List CharCell} {p elementId : ℕ} :
    elementIn cells p = some elementId ↔ ∃ value bg fg, cells[p]? = some (.fill value bg fg elementId) := by
  rw [elementIn]
  split
  · next value bg fg id hcell =>
    simp [hcell]
  · next hno =>
    refine iff_of_false nofun ?_
    rintro ⟨value, bg, fg, hcell⟩
    exact hno value bg fg elementId hcell

section Found

variable {v v' : Viewport} {calls : List PrintCall} {r c : UInt64} {elementId : ℕ}

/-- a place to be seen is one of those that its element was printed at -/
theorem mem_placesOf (hcol : c < v.buff.numCols)
    (howner : ownerOf v calls (index v.buff.numCols.toNat (natPos (r, c))) = some elementId) :
    natPos (r, c) ∈ placesOf v calls elementId := by
  have hlt : (natPos (r, c)).2 < v.buff.numCols.toNat := UInt64.lt_iff_toNat_lt.1 hcol
  have hplace : (index v.buff.numCols.toNat (natPos (r, c)) / v.buff.numCols.toNat,
      index v.buff.numCols.toNat (natPos (r, c)) % v.buff.numCols.toNat) = natPos (r, c) := by
    rw [index_div hlt, index_mod hlt]
  rcases exists_call_of_owner howner with hshown | ⟨call, hcall, hp⟩
  · obtain ⟨value, bg, fg, hcell⟩ := elementIn_eq_some.1 hshown
    refine List.mem_append_left _ (List.mem_map.2 ⟨_, List.mem_filter.2 ⟨?_, decide_eq_true hshown⟩, hplace⟩)
    exact List.mem_range.2 (List.getElem?_eq_some_iff.1 hcell).1
  · exact List.mem_append_right _ (List.mem_flatMap.2 ⟨call, hcall, List.mem_map.2 ⟨_, hp, hplace⟩⟩)

/-- what is found at a cell: nothing, or its place relative to the corner of the starts of its element -/
theorem getUiCoordinate_eq (h : Tracks v calls v') (hcell : index v.buff.numCols.toNat (natPos (r, c)) < 2 ^ 64)
    (howner : ownerOf v calls (index v.buff.numCols.toNat (natPos (r, c))) = some elementId) :
    startsOf v calls elementId = [] ∧ v'.getUiCoordinate r c = none ∨
      ∃ corner : Coord, IsCorner (startsOf v calls elementId) (natPos corner) ∧ v'.getUiCoordinate r c =
        if corner.1 ≤ r ∧ corner.2 ≤ c then some (elementId, r - corner.1, c - corner.2) else none := by
  have hkept := h.corner elementId
  rw [← h.owner] at howner
  obtain ⟨value, bg, fg, hfill⟩ := elementIn_eq_some.1 howner
  have hread : v'.buff.charcellAt r c = some (.fill value bg fg elementId) := by
    rw [CharBuff.charcellAt, h.cols, CharBuff.number_toNat v.buff.numCols (r, c), Nat.mod_eq_of_lt hcell, hfill]
  cases hold : v'.elementCoords[elementId]? with
  | none =>
    rw [hold] at hkept
    exact Or.inl ⟨hkept, by simp only [Viewport.getUiCoordinate, hread, hold]⟩
  | some corner =>
    rw [hold] at hkept
    exact Or.inr ⟨corner, hkept, by simp only [Viewport.getUiCoordinate, hread, hold]⟩

theorem Tracks.maps_iff (h : Tracks v calls v') : MapsToCorners v v' calls ↔ CornersAtStarts v calls := by
  unfold MapsToCorners
  rw [h.cols]
  constructor
  · intro hmaps r c elementId hcol hcell howner
    obtain ⟨value, bg, fg, hfill⟩ := elementIn_eq_some.1 ((h.owner _).trans howner)
    obtain ⟨top, left, hcorner, hfound⟩ := hmaps r c value bg fg elementId hcol hcell hfill
    rcases getUiCoordinate_eq h hcell howner with ⟨-, hui⟩ | ⟨corner, hstarts, hui⟩
    · rw [hfound] at hui
      cases hui
    · rw [hfound] at hui
      split_ifs at hui with hle
      obtain ⟨-, hrow, hcol'⟩ : elementId = elementId ∧ r - top = r - corner.1 ∧ c - left = c - corner.2 := by
        simpa using hui
      have hsame : corner = (top, left) := by
        refine Prod.ext ?_ ?_
        · exact ((UInt64.sub_right_inj r).1 hrow).symm
        · exact ((UInt64.sub_right_inj c).1 hcol').symm
      rw [hsame] at hstarts
      exact ⟨_, hstarts, hcorner⟩
  · intro hcorners r c value bg fg elementId hcol hcell hfill
    have howner := (h.owner _).symm.trans (elementIn_eq_some.2 ⟨value, bg, fg, hfill⟩)
    obtain ⟨place, hstarts, hplaces⟩ := hcorners r c elementId hcol hcell howner
    rcases getUiCoordinate_eq h hcell howner with ⟨hnil, -⟩ | ⟨corner, hstarts', hui⟩
    · obtain ⟨start, hmem, -⟩ := hstarts.row
      rw [hnil] at hmem
      cases hmem
    · rw [hstarts.unique hstarts'] at hplaces
      refine ⟨corner.1, corner.2, hplaces, ?_⟩
      obtain ⟨hrow, hcol'⟩ := hplaces.le _ (mem_placesOf hcol howner)
      rw [hui, if_pos ⟨UInt64.le_iff_toNat_le.2 hrow, UInt64.le_iff_toNat_le.2 hcol'⟩]

end Found

/-- **When every cell is found in its element** -/
theorem mapsToCorners_iff {v v' : Viewport} {calls : List PrintCall} {rets : List Coord}
    (hrun : runSome (fun v call => PrintCall.perform v call) v calls = some (rets, v')) :
    MapsToCorners v v' calls ↔ CornersAtStarts v calls := (run_tracks hrun).maps_iff

/-! ## Texts in their rows -/

/-- from its start on, and not to the left of it -/
theorem isCorner_of_start {w : ℕ} {start : ℕ × ℕ} {cells : List ℕ} (hlt : start.2 < w) (hmem : index w start ∈ cells)
    (hcells : ∀ p ∈ cells, index w start ≤ p ∧ (p / w = start.1 ∨ start.2 = 0)) :
    IsCorner (cells.map fun p => (p / w, p % w)) start where
  row := ⟨_, List.mem_map_of_mem hmem, index_div hlt⟩
  col := ⟨_, List.mem_map_of_mem hmem, index_mod hlt⟩
  le place hplace := by
    obtain ⟨p, hp, rfl⟩ := List.mem_map.1 hplace
    obtain ⟨hge, hleft⟩ := hcells p hp
    refine ⟨(index_div hlt).symm.trans_le (Nat.div_le_div_right hge), ?_⟩
    rcases hleft with hrow | hzero
    · have hdiv := Nat.div_add_mod p w
      rw [hrow] at hdiv
      simp only [index] at hge ⊢
      omega
    · exact hzero.trans_le (Nat.zero_le _)

/-- a text printed without wrapping, in one row -/
theorem printTo_isCorner {numCols : UInt64} {call : PrintCall} (hkind : call.kind = .printTo ∨ call.kind = .printAtIter)
    (hne : call.text ≠ []) (hrow : call.start.2.toNat + call.text.length ≤ numCols.toNat)
    (hcell : index numCols.toNat (natPos call.start) < 2 ^ 64) :
    IsCorner (call.places numCols) (natPos call.start) := by
  have hpos : 0 < call.text.length := List.length_pos_iff.2 hne
  have hlt : (natPos call.start).2 < numCols.toNat := by
    change call.start.2.toNat < _
    omega
  have hcells : call.cells numCols = List.range' (index numCols.toNat (natPos call.start)) call.text.length := by
    rw [← Nat.mod_eq_of_lt hcell, ← CharBuff.number_toNat]
    rcases hkind with hkind | hkind
    · rw [PrintCall.cells, hkind]
    · rw [PrintCall.cells, hkind]
  rw [PrintCall.places, hcells]
  refine isCorner_of_start hlt (List.mem_range'_1.2 ⟨le_refl _, by omega⟩) fun p hp => ?_
  obtain ⟨hge, hend⟩ := List.mem_range'_1.1 hp
  refine ⟨hge, Or.inl (le_antisymm ?_ ?_)⟩
  · rw [← Nat.lt_succ_iff, Nat.div_lt_iff_lt_mul (by omega), Nat.succ_mul, Nat.mul_comm]
    simp only [index, natPos] at hend ⊢
    omega
  · exact (index_div hlt).symm.trans_le (Nat.div_le_div_right hge)

/-- where nothing overflows, the cells are those of the layout -/
theorem partCells_eq {numCols row idx : UInt64} {ps : List (Piece Char)}
    (hfit : Fits numCols.toNat (row.toNat, idx.toNat) ps) :
    partCells numCols (ps.map partOf) row idx =
      (layout numCols.toNat (row.toNat, idx.toNat) ps).filterMap Prod.snd := by
  induction ps generalizing row idx with
  | nil => rfl
  | cons piece ps ih =>
    cases piece with
    | word cs =>
      obtain ⟨hidx, hrow, hcell, hrest⟩ := hfit
      have hlen : cs.length < 2 ^ 64 := (Nat.le_add_left _ _).trans_lt hidx
      obtain ⟨hput, hnext⟩ := CharBuff.put_next_toNat hlen (fits_in_row hidx) hrow
      rw [← hput] at hcell
      have hnumber := CharBuff.number_toNat numCols (CharBuff.putOf numCols row idx (UInt64.ofNat cs.length))
      rw [Nat.mod_eq_of_lt ((Nat.le_add_right _ _).trans_lt hcell), hput] at hnumber
      rw [← hnext] at hrest
      rw [List.map_cons, partOf, partCells, hnumber, layout, List.filterMap_append, filterMap_place, ← hnext]
      exact congrArg _ (ih hrest)
    | newline c =>
      obtain ⟨hrow, hrest⟩ := hfit
      have hpos := next_newline numCols.toNat idx.toNat c hrow
      rw [hpos] at hrest
      rw [List.map_cons, partOf, partCells, layout, List.filterMap_cons_none rfl, hpos]
      exact ih hrest

/-- a text printed with wrapping: its first cell is at its start, and it starts a row or stays in one -/
theorem print_isCorner {numCols : UInt64} {call : PrintCall}
    (hkind : call.kind ≠ .printTo ∧ call.kind ≠ .printAtIter) (hlt : call.start.2 < numCols)
    (hfit : Fits numCols.toNat (natPos call.start) (piecesOf call.text))
    (hmem : index numCols.toNat (natPos call.start) ∈
      (layout numCols.toNat (natPos call.start) (piecesOf call.text)).filterMap Prod.snd)
    (hleft : call.start.2 = 0 ∨
      ∀ p ∈ (layout numCols.toNat (natPos call.start) (piecesOf call.text)).filterMap Prod.snd,
        p / numCols.toNat = call.start.1.toNat) :
    IsCorner (call.places numCols) (natPos call.start) := by
  have hlt' : (natPos call.start).2 < numCols.toNat := UInt64.lt_iff_toNat_lt.1 hlt
  have hcells : call.cells numCols =
      (layout numCols.toNat (natPos call.start) (piecesOf call.text)).filterMap Prod.snd := by
    refine Eq.trans ?_ (partCells_eq hfit)
    rw [piecesOf, ← splitParts_eq]
    obtain ⟨hto, hat⟩ := hkind
    rcases call with ⟨kind, elementId, start, bg, fg, text⟩
    cases kind with
    | printTo => exact absurd rfl hto
    | printAtIter => exact absurd rfl hat
    | print => rfl
    | println => rfl
    | printIter => rfl
  rw [PrintCall.places, hcells]
  refine isCorner_of_start hlt' hmem fun p hp => ?_
  refine ⟨layout_ge (Nat.zero_lt_of_lt hlt') hlt' _ p hp, ?_⟩
  rcases hleft with hzero | hrow
  · exact Or.inr (by rw [natPos, hzero]; rfl)
  · exact Or.inl (hrow p hp)

/-- on a viewport without cells and corners, if every text is so, every cell is found -/
theorem cornersAtStarts_of_each {v : Viewport} {calls : List PrintCall} (hcells : v.buff.cells = [])
    (hcoords : v.elementCoords = ∅)
    (h : ∀ call ∈ calls, IsCorner (call.places v.buff.numCols) (natPos call.start)) : CornersAtStarts v calls := by
  intro r c elementId hcol _ howner
  have hstarts : startsOf v calls elementId = (callsOf calls elementId).map fun call => natPos call.start := by
    rw [startsOf, hcoords, Std.ExtTreeMap.getElem?_empty]
    rfl
  have hplaces : placesOf v calls elementId =
      (callsOf calls elementId).flatMap fun call => call.places v.buff.numCols := by
    rw [placesOf, shownAt, hcells]
    rfl
  have hne : startsOf v calls elementId ≠ [] := by
    intro hnil
    have hmem := mem_placesOf hcol howner
    rw [hstarts, List.map_eq_nil_iff] at hnil
    rw [hplaces, hnil] at hmem
    cases hmem
  obtain ⟨corner, hcorner⟩ := exists_isCorner hne
  refine ⟨corner, hcorner, ?_⟩
  rw [hstarts] at hcorner
  rw [hplaces]
  exact isCorner_flatMap (fun call hcall => h call (List.mem_filter.1 hcall).1) hcorner

/-! ## Runs -/

theorem PrintCall.exists_how {b : CharBuff} (hcols : b.numCols ≠ 0) (call : PrintCall) : ∃ r, call.how b = some r := by
  have hinner : ∀ newline, ∃ r, b.innerPrint call.elementId call.start call.bg call.fg call.text newline = some r := by
    intro newline
    obtain ⟨ret, b', hparts⟩ := CharBuff.exists_printParts hcols call.elementId call.bg call.fg
      (CharBuff.splitParts call.text []) call.start.1 call.start.2 call.start
    rw [CharBuff.innerPrint, hparts]
    exact ⟨_, rfl⟩
  have hat : ∃ r, b.printAt call.elementId call.start call.bg call.fg call.text = some r := by
    rw [CharBuff.printAt, if_neg hcols]
    exact ⟨_, rfl⟩
  rcases call with ⟨kind, elementId, start, bg, fg, text⟩
  cases kind with
  | printTo => exact hat
  | print => exact hinner false
  | println => exact hinner true
  | printIter => exact hinner false
  | printAtIter => exact hat

/-- with a column at least, no print fails -/
theorem exists_run {v : Viewport} (hcols : v.buff.numCols ≠ 0) (calls : List PrintCall) :
    ∃ rets v', runSome (fun v call => PrintCall.perform v call) v calls = some (rets, v') := by
  induction calls generalizing v with
  | nil => exact ⟨[], v, rfl⟩
  | cons call calls ih =>
    obtain ⟨⟨ret, b'⟩, hprint⟩ := call.exists_how hcols
    have hstep : call.perform v =
        some (ret, { v.updateElementCoord call.elementId call.start with buff := b' }) := by
      rw [PrintCall.perform_eq, Viewport.printWith]
      simp only [Viewport.updateElementCoord_buff, hprint, Option.map_some]
    have hcols' : b'.numCols ≠ 0 := by
      rw [(PrintCall.how_claims hprint).numCols]
      exact hcols
    obtain ⟨rets, v', hrun⟩ := @ih { v.updateElementCoord call.elementId call.start with buff := b' } hcols'
    refine ⟨ret :: rets, v', ?_⟩
    simp only [runSome, hstep, hrun, Option.bind_eq_bind, Option.bind_some]
    rfl

/-- two letters in their row -/
theorem mapsToCorners_twoLetters : ∃ rets v', runSome (fun v call => PrintCall.perform v call) (Viewport.new 1 0 0 3 2)
      [⟨.printTo, 7, (1, 0), .ofU32 0, .ofU32 0, ['a', 'b']⟩] = some (rets, v') ∧
    MapsToCorners (Viewport.new 1 0 0 3 2) v' [⟨.printTo, 7, (1, 0), .ofU32 0, .ofU32 0, ['a', 'b']⟩] := by
  obtain ⟨rets, v', hrun⟩ := @exists_run (Viewport.new 1 0 0 3 2) (by decide)
    [⟨.printTo, 7, (1, 0), .ofU32 0, .ofU32 0, ['a', 'b']⟩]
  refine ⟨rets, v', hrun, (mapsToCorners_iff hrun).2 (cornersAtStarts_of_each rfl rfl fun call hcall => ?_)⟩
  rw [List.mem_singleton.1 hcall]
  exact printTo_isCorner (Or.inl rfl) (List.cons_ne_nil _ _) (by decide) (by decide)

/-- **A word wrapped to the left of its start is not found** -/
theorem wrapped_not_found : ¬ ∀ (v v' : Viewport) (calls : List PrintCall) (rets : List Coord),
    runSome (fun v call => PrintCall.perform v call) v calls = some (rets, v') → MapsToCorners v v' calls := by
  intro h
  obtain ⟨rets, v', hrun⟩ := @exists_run (Viewport.new 1 0 0 3 2) (by decide)
    [⟨.print, 7, (0, 1), .ofU32 0, .ofU32 0, ['a', 'b']⟩]
  obtain ⟨corner, hstarts, hplaces⟩ := (run_tracks hrun).maps_iff.1 (h _ _ _ _ hrun) 1 0 7 (by decide) (by decide)
    (by decide)
  have hstart : corner = (0, 1) := hstarts.unique (isCorner_singleton _)
  obtain ⟨place, hmem, hrow⟩ := hplaces.row
  rw [hstart] at hrow
  have hcells : placesOf (Viewport.new 1 0 0 3 2) [⟨.print, 7, (0, 1), .ofU32 0, .ofU32 0, ['a', 'b']⟩] 7 =
      [(1, 0), (1, 1)] := by decide
  rw [hcells] at hmem
  rcases List.mem_cons.1 hmem with rfl | hmem
  · cases hrow
  · rw [List.mem_singleton.1 hmem] at hrow
    cases hrow

/-- a cleared viewport keeps its corners: what is printed to the right of one is found relative to it -/
example : ((runSome (fun v call => PrintCall.perform v call) (Viewport.new 1 0 0 3 2)
    [⟨.printTo, 7, (0, 0), .ofU32 0, .ofU32 0, ['a']⟩]).bind fun r =>
      (PrintCall.perform r.2.clear ⟨.printTo, 7, (0, 1), .ofU32 0, .ofU32 0, ['a']⟩).map fun r =>
        r.2.getUiCoordinate 0 1) = some (some (7, 0, 1)) := by
  decide +kernel

end Wrb.Ui
