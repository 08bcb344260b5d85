/-
`WrbpodSuperblock` (`src/storage/wrbpod.rs`): which StackerDB slots belong to which app.

Ownership is kept twice: as the free list `slotIds` and as each app's list of slots.

Layers:
- the functions of the source (`new`, `fillFreeSlot`, `allocateSlots`, `deleteSlots` and the readers);
- `Fills`: what the allocation loop does to the free list, and `fillSlots_spec`: an allocation that runs out of slots
  rolls back to where it started;
- `allocateSlots_cases`, `deleteSlots_cases`: everything an operation can do;
- `Owned`: the two records agree. Every operation keeps it (`step_owned`).

Results:
- `ownership_run`: from distinct slot IDs, after any operations, the filled IDs are the disjoint union of the apps'
  lists, the sequence of IDs is the first one, and a refused allocation changes nothing;
- `rollback_perm`: the order in which a rollback visits the slots does not matter.
-/
import Wrb.Lib.Runs
import Wrb.Lib.TreeMap
import Wrb.Storage.Basic

namespace Wrb.Storage

namespace WrbpodSuperblock

/-! ## Functions of the source -/

def empty : WrbpodSuperblock := ⟨WRBPOD_SUPERBLOCK_VERSION, [], ∅⟩

def new (slotIds : List UInt32) : WrbpodSuperblock := ⟨WRBPOD_SUPERBLOCK_VERSION, slotIds.map WrbpodSlot.free, ∅⟩

/-- the first free position from `i` on that is not used; positions from 2³² on are never tried -/
def findFree (used : List UInt32) : ℕ → List WrbpodSlot → Option ℕ
  | _, [] => none
  | i, slot :: rest =>
    if 2 ^ 32 ≤ i then none
    else if UInt32.ofNat i ∈ used then findFree used (i + 1) rest
    else if slot.isFree then some i
    else findFree used (i + 1) rest

/-- fill a free slot: its ID, the superblock after it, and the positions used. Where there is none, nothing changes -/
def fillFreeSlot (s : WrbpodSuperblock) (used : List UInt32) : Option (UInt32 × WrbpodSuperblock × List UInt32) :=
  match findFree used 0 s.slotIds with
  | none => none
  | some i =>
    match s.slotIds[i]? with
    | none => none
    | some slot =>
      some (slot.asFilled.slotId, { s with slotIds := s.slotIds.set i slot.asFilled }, UInt32.ofNat i :: used)

/-- the loop of `allocateSlots`: the superblock and the slots found, or, where no slot is free, the superblock and the
positions used up to there -/
def fillSlots : ℕ → WrbpodSuperblock → List UInt32 → List UInt32 →
    Except (WrbpodSuperblock × List UInt32) (WrbpodSuperblock × List UInt32)
  | 0, s, _, slots => .ok (s, slots)
  | n + 1, s, used, slots =>
    match s.fillFreeSlot used with
    | some (slotId, s', used') => fillSlots n s' used' (slots ++ [slotId])
    | none => .error (s, used)

def freeAt (slots : List WrbpodSlot) (i : UInt32) : List WrbpodSlot := slots.modify i.toNat WrbpodSlot.asFree

/-- free the positions a failed allocation used -/
def rollback (s : WrbpodSuperblock) (used : List UInt32) : WrbpodSuperblock :=
  { s with slotIds := used.foldl freeAt s.slotIds }

/-- allocate more slots to an app, making its state if there is none: whether there was enough space, and the
superblock after it -/
def allocateSlots (s : WrbpodSuperblock) (appName : String) (codeHash : Hash160) (numSlots : UInt32) :
    Bool × WrbpodSuperblock :=
  match fillSlots numSlots.toNat s [] [] with
  | .error (s', used) => (false, s'.rollback used)
  | .ok (s', slots) =>
    match s'.apps[appName]? with
    | none => (true, { s' with apps := s'.apps.insert appName ⟨WRBPOD_APP_STATE_VERSION, codeHash, slots⟩ })
    | some appState =>
      (true, { s' with apps := s'.apps.insert appName { appState with slots := appState.slots ++ slots } })

/-- mark the first entry of this slot ID as free -/
def freeSlot (id : UInt32) : List WrbpodSlot → List WrbpodSlot
  | [] => []
  | slot :: rest => if slot.slotId = id then slot.asFree :: rest else slot :: freeSlot id rest

/-- free up an app's slots and drop all of its state -/
def deleteSlots (s : WrbpodSuperblock) (appName : String) : WrbpodSuperblock :=
  match s.apps[appName]? with
  | none => s
  | some appRec =>
    { s with
      apps := s.apps.erase appName
      slotIds := appRec.slots.foldl (fun slots id => freeSlot id slots) s.slotIds }

def appState (s : WrbpodSuperblock) (appName : String) : Option WrbpodAppState := s.apps[appName]?

def numAppSlots (s : WrbpodSuperblock) (appName : String) : ℕ :=
  match s.appState appName with
  | some appState => appState.slots.length
  | none => 0

/-- an app's slots are numbered from 0; this is the StackerDB slot behind such a number -/
def appSlotIdToStackerdbChunkId (s : WrbpodSuperblock) (appName : String) (appSlotId : UInt32) : Option UInt32 :=
  match s.apps[appName]? with
  | none => none
  | some appState => appState.slots[appSlotId.toNat]?

/-! ## The allocation loop -/

theorem findFree_some {used : List UInt32} {i j : ℕ} {l : List WrbpodSlot} (h : findFree used i l = some j) :
    i ≤ j ∧ j < 2 ^ 32 ∧ ∃ slot, l[j - i]? = some slot ∧ slot.isFree = true := by
  induction l generalizing i with
  | nil => simp [findFree] at h
  | cons slot rest ih =>
    have hlater : findFree used (i + 1) rest = some j →
        i ≤ j ∧ j < 2 ^ 32 ∧ ∃ slot', (slot :: rest)[j - i]? = some slot' ∧ slot'.isFree = true := by
      intro h'
      obtain ⟨hle, hlt, slot', hget, hfree⟩ := ih h'
      have hsucc : j - i = (j - (i + 1)) + 1 := by omega
      exact ⟨by omega, hlt, slot', by rw [hsucc]; simpa using hget, hfree⟩
    rw [findFree] at h
    split_ifs at h with hbig hused hfree
    · exact hlater h
    · obtain rfl := Option.some.inj h
      exact ⟨le_rfl, by omega, slot, by simp, hfree⟩
    · exact hlater h

/-- a filled slot was free, and nothing else changes -/
theorem fillFreeSlot_some {s s' : WrbpodSuperblock} {used used' : List UInt32} {id : UInt32}
    (h : s.fillFreeSlot used = some (id, s', used')) :
    ∃ i : UInt32, s.slotIds[i.toNat]? = some (.free id) ∧ used' = i :: used ∧
      s' = { s with slotIds := s.slotIds.set i.toNat (.filled id) } := by
  unfold fillFreeSlot at h
  cases hfind : findFree used 0 s.slotIds with
  | none => simp [hfind] at h
  | some j =>
    obtain ⟨-, hlt, slot, hget, hfree⟩ := findFree_some hfind
    rw [Nat.sub_zero] at hget
    have hpos : (UInt32.ofNat j).toNat = j := by
      rw [UInt32.toNat_ofNat']
      exact Nat.mod_eq_of_lt hlt
    simp only [hfind, hget, Option.some.injEq, Prod.mk.injEq, WrbpodSlot.slotId_asFilled] at h
    obtain ⟨rfl, rfl, rfl⟩ := h
    refine ⟨UInt32.ofNat j, ?_, rfl, ?_⟩
    · rw [hpos, hget, WrbpodSlot.isFree_iff.1 hfree, WrbpodSlot.slotId_free]
    · rw [hpos, WrbpodSlot.asFilled]

/-- how many entries are filled -/
def filledCount (l : List WrbpodSlot) : ℕ := l.countP fun slot => !slot.isFree

/-- `l'` is the free list `l` after `slots` were filled -/
structure Fills (l l' : List WrbpodSlot) (slots : List UInt32) : Prop where
  count : filledCount l' = filledCount l + slots.length
  ids : l'.map WrbpodSlot.slotId = l.map WrbpodSlot.slotId
  wasFree : ∀ id ∈ slots, .free id ∈ l
  filled : ∀ id, .filled id ∈ l' ↔ .filled id ∈ l ∨ id ∈ slots
  stillFree : ∀ id, .free id ∈ l' → .free id ∈ l
  nodup : (l.map WrbpodSlot.slotId).Nodup → slots.Nodup

theorem Fills.refl (l : List WrbpodSlot) : Fills l l [] :=
  ⟨rfl, rfl, by simp, by simp, fun _ h => h, by simp⟩

/-- with distinct IDs, no ID is both free and filled -/
theorem not_filled_of_free {l : List WrbpodSlot} (hl : (l.map WrbpodSlot.slotId).Nodup) {id : UInt32}
    (h : .free id ∈ l) : .filled id ∉ l := by
  intro h'
  have := List.inj_on_of_nodup_map hl h h' rfl
  cases this

theorem map_slotId_set {l : List WrbpodSlot} {i : ℕ} {slot slot' : WrbpodSlot} (h : l[i]? = some slot)
    (hid : slot'.slotId = slot.slotId) : (l.set i slot').map WrbpodSlot.slotId = l.map WrbpodSlot.slotId := by
  apply List.ext_getElem?
  intro j
  rw [List.map_set, hid, List.getElem?_set, List.getElem?_map]
  split_ifs with hij hlt
  · subst hij
    simp [h]
  · subst hij
    simp [List.getElem?_eq_none (not_lt.1 (by simpa using hlt))]
  · rfl

theorem filled_mem_set {l : List WrbpodSlot} {i : ℕ} {id : UInt32} (h : l[i]? = some (.free id)) (x : UInt32) :
    .filled x ∈ l.set i (.filled id) ↔ .filled x ∈ l ∨ x = id := by
  obtain ⟨hlt, hget⟩ := List.getElem?_eq_some_iff.1 h
  constructor
  · intro hx
    rcases List.mem_or_eq_of_mem_set hx with hx | hx
    · exact Or.inl hx
    · exact Or.inr (WrbpodSlot.filled.inj hx)
  · rintro (hx | rfl)
    · obtain ⟨j, hj⟩ := List.mem_iff_getElem?.1 hx
      have hne : i ≠ j := by
        rintro rfl
        rw [h] at hj
        cases hj
      exact List.mem_iff_getElem?.2 ⟨j, by rw [List.getElem?_set_ne hne]; exact hj⟩
    · exact List.mem_set hlt _

/-- one more slot -/
theorem Fills.fill {l l' : List WrbpodSlot} {slots : List UInt32} (h : Fills l l' slots) {i : ℕ} {id : UInt32}
    (hget : l'[i]? = some (.free id)) : Fills l (l'.set i (.filled id)) (slots ++ [id]) := by
  have hfree : .free id ∈ l' := List.mem_of_getElem? hget
  refine ⟨?_, ?_, fun x hx => ?_, fun x => ?_, fun x hx => ?_, fun hl => ?_⟩
  · obtain ⟨hlt, hget'⟩ := List.getElem?_eq_some_iff.1 hget
    have hcount := h.count
    unfold filledCount at hcount ⊢
    rw [List.countP_set hlt, hget', hcount, List.length_append, List.length_singleton]
    exact Nat.add_assoc _ _ _
  · rw [map_slotId_set hget (by simp), h.ids]
  · rcases List.mem_append.1 hx with hx | hx
    · exact h.wasFree x hx
    · obtain rfl := List.mem_singleton.1 hx
      exact h.stillFree x hfree
  · rw [filled_mem_set hget, h.filled, List.mem_append, List.mem_singleton, or_assoc]
  · rcases List.mem_or_eq_of_mem_set hx with hx | hx
    · exact h.stillFree x hx
    · cases hx
  · have hnew : id ∉ slots := fun hid =>
      not_filled_of_free (h.ids ▸ hl) hfree ((h.filled id).2 (Or.inr hid))
    rw [List.nodup_append]
    refine ⟨h.nodup hl, by simp, ?_⟩
    intro a ha b hb
    obtain rfl := List.mem_singleton.1 hb
    exact fun hab => hnew (hab ▸ ha)

theorem freeAt_set {l : List WrbpodSlot} {i id : UInt32} (h : l[i.toNat]? = some (.free id)) :
    freeAt (l.set i.toNat (.filled id)) i = l := by
  obtain ⟨hlt, hget⟩ := List.getElem?_eq_some_iff.1 h
  apply List.ext_getElem?
  intro j
  rw [freeAt, List.getElem?_modify]
  by_cases hj : i.toNat = j
  · subst hj
    simp [List.getElem?_set_self hlt, h, WrbpodSlot.asFree]
  · simp [hj]

/-- the loop, from where `slots` are filled: it ends with `n` more slots filled, or with positions whose rollback gives
back the superblock it started from -/
theorem fillSlots_spec (s₀ : WrbpodSuperblock) (n : ℕ) (l : List WrbpodSlot) (used slots : List UInt32)
    (hfills : Fills s₀.slotIds l slots) (hback : used.foldl freeAt l = s₀.slotIds) :
    (∃ s' used', fillSlots n { s₀ with slotIds := l } used slots = .error (s', used') ∧ s'.rollback used' = s₀) ∨
    (∃ l' slots', fillSlots n { s₀ with slotIds := l } used slots = .ok ({ s₀ with slotIds := l' }, slots') ∧
      Fills s₀.slotIds l' slots' ∧ slots'.length = slots.length + n) := by
  induction n generalizing l used slots with
  | zero => exact Or.inr ⟨l, slots, rfl, hfills, rfl⟩
  | succ n ih =>
    rw [fillSlots]
    cases hfill : fillFreeSlot { s₀ with slotIds := l } used with
    | none => exact Or.inl ⟨_, _, rfl, by simp [rollback, hback]⟩
    | some r =>
      obtain ⟨id, s', used'⟩ := r
      obtain ⟨i, hget, rfl, rfl⟩ := fillFreeSlot_some hfill
      have hget' : l[i.toNat]? = some (.free id) := hget
      have hback' : (i :: used).foldl freeAt (l.set i.toNat (.filled id)) = s₀.slotIds := by
        rw [List.foldl_cons, freeAt_set hget', hback]
      rcases ih (l.set i.toNat (.filled id)) (i :: used) (slots ++ [id]) (hfills.fill hget') hback' with
        herr | ⟨l', slots', heq, hf, hlen⟩
      · exact Or.inl herr
      · refine Or.inr ⟨l', slots', heq, hf, ?_⟩
        rw [hlen, List.length_append, List.length_singleton]
        omega

theorem freeAt_comm (l : List WrbpodSlot) (i j : UInt32) : freeAt (freeAt l i) j = freeAt (freeAt l j) i := by
  apply List.ext_getElem?
  intro k
  simp only [freeAt, List.getElem?_modify]
  cases l[k]? with
  | none => rfl
  | some slot =>
    by_cases hi : i.toNat = k <;> by_cases hj : j.toNat = k <;> simp [hi, hj]

/-- a rollback may visit its positions in any order -/
theorem rollback_perm (s : WrbpodSuperblock) {used used' : List UInt32} (h : used.Perm used') :
    s.rollback used = s.rollback used' := by
  have : RightCommutative freeAt := ⟨freeAt_comm⟩
  rw [rollback, rollback, h.foldl_eq]

/-! ## What an operation does -/

/-- an app's state after `slots` are added to it -/
def withSlots (old : Option WrbpodAppState) (codeHash : Hash160) (slots : List UInt32) : WrbpodAppState :=
  match old with
  | none => ⟨WRBPOD_APP_STATE_VERSION, codeHash, slots⟩
  | some appState => { appState with slots := appState.slots ++ slots }

/-- everything an `allocateSlots` can do: refuse and change nothing, or fill as many slots as asked for and add them to
the app -/
theorem allocateSlots_cases (s : WrbpodSuperblock) (app : String) (hash : Hash160) (n : UInt32) :
    s.allocateSlots app hash n = (false, s) ∨
    (∃ l slots, Fills s.slotIds l slots ∧ slots.length = n.toNat ∧
      s.allocateSlots app hash n =
        (true, { s with slotIds := l, apps := s.apps.insert app (withSlots s.apps[app]? hash slots) })) := by
  unfold allocateSlots
  rcases fillSlots_spec s n.toNat s.slotIds [] [] (Fills.refl _) rfl with
    ⟨s', used', heq, hback⟩ | ⟨l, slots, heq, hfills, hlen⟩
  · have heq' : fillSlots n.toNat s [] [] = .error (s', used') := heq
    exact Or.inl (by rw [heq']; simp only [hback])
  · have heq' : fillSlots n.toNat s [] [] = .ok ({ s with slotIds := l }, slots) := heq
    refine Or.inr ⟨l, slots, hfills, by simpa using hlen, ?_⟩
    rw [heq']
    cases happ : s.apps[app]? <;> simp [happ, withSlots]

theorem map_slotId_freeSlot (id : UInt32) (l : List WrbpodSlot) :
    (freeSlot id l).map WrbpodSlot.slotId = l.map WrbpodSlot.slotId := by
  induction l with
  | nil => rfl
  | cons slot rest ih =>
    rw [freeSlot]
    split_ifs with h
    · simp
    · simp [ih]

/-- freeing one ID frees at most one entry -/
theorem filledCount_freeSlot (id : UInt32) (l : List WrbpodSlot) : filledCount l ≤ filledCount (freeSlot id l) + 1 := by
  induction l with
  | nil => simp [freeSlot]
  | cons slot rest ih =>
    unfold filledCount at ih ⊢
    rw [freeSlot]
    split_ifs with h
    · simp only [List.countP_cons, WrbpodSlot.asFree, WrbpodSlot.isFree]
      split_ifs <;> omega
    · simp only [List.countP_cons]
      omega

theorem filledCount_freeSlots (slots : List UInt32) (l : List WrbpodSlot) :
    filledCount l ≤ filledCount (slots.foldl (fun l id => freeSlot id l) l) + slots.length := by
  induction slots generalizing l with
  | nil => simp
  | cons id slots ih =>
    have h1 := filledCount_freeSlot id l
    have h2 := ih (freeSlot id l)
    rw [List.foldl_cons, List.length_cons]
    omega

/-- with distinct IDs, freeing one leaves exactly the others filled -/
theorem filled_mem_freeSlot {l : List WrbpodSlot} (hl : (l.map WrbpodSlot.slotId).Nodup) (id x : UInt32) :
    .filled x ∈ freeSlot id l ↔ .filled x ∈ l ∧ x ≠ id := by
  induction l with
  | nil => simp [freeSlot]
  | cons slot rest ih =>
    obtain ⟨hnot, hrest⟩ := List.nodup_cons.1 hl
    rw [freeSlot]
    split_ifs with h
    · subst h
      have hgone : .filled x ∈ rest → x ≠ slot.slotId := by
        rintro hx rfl
        exact hnot (List.mem_map.2 ⟨_, hx, rfl⟩)
      have hself : .filled x = slot → x = slot.slotId := by
        rintro rfl
        rfl
      simp only [List.mem_cons, WrbpodSlot.asFree, reduceCtorEq, false_or]
      tauto
    · have hself : .filled x = slot → x ≠ id := by
        rintro rfl
        exact h
      simp only [List.mem_cons, ih hrest]
      tauto

theorem map_slotId_freeSlots (slots : List UInt32) (l : List WrbpodSlot) :
    (slots.foldl (fun l id => freeSlot id l) l).map WrbpodSlot.slotId = l.map WrbpodSlot.slotId := by
  induction slots generalizing l with
  | nil => rfl
  | cons id slots ih => exact (ih (freeSlot id l)).trans (map_slotId_freeSlot id l)

theorem filled_mem_freeSlots (slots : List UInt32) {l : List WrbpodSlot} (hl : (l.map WrbpodSlot.slotId).Nodup)
    (x : UInt32) : .filled x ∈ slots.foldl (fun l id => freeSlot id l) l ↔ .filled x ∈ l ∧ x ∉ slots := by
  induction slots generalizing l with
  | nil => simp
  | cons id slots ih =>
    rw [List.foldl_cons, ih (map_slotId_freeSlot id l ▸ hl), filled_mem_freeSlot hl]
    simp only [List.mem_cons, not_or, and_assoc]

/-- everything a `deleteSlots` can do: nothing for an unknown app, else drop the app and free its slots -/
theorem deleteSlots_cases (s : WrbpodSuperblock) (app : String) :
    (s.apps[app]? = none ∧ s.deleteSlots app = s) ∨
    (∃ st, s.apps[app]? = some st ∧ s.deleteSlots app =
      { s with apps := s.apps.erase app, slotIds := st.slots.foldl (fun l id => freeSlot id l) s.slotIds }) := by
  unfold deleteSlots
  cases happ : s.apps[app]? with
  | none => exact Or.inl ⟨rfl, rfl⟩
  | some st => exact Or.inr ⟨st, rfl, rfl⟩

theorem apps_deleteSlots (s : WrbpodSuperblock) (app : String) : (s.deleteSlots app).apps = s.apps.erase app := by
  rcases deleteSlots_cases s app with ⟨happ, heq⟩ | ⟨st, -, heq⟩
  · rw [heq, TreeMap.erase_of_getElem?_none happ]
  · rw [heq]

/-! ## Ownership -/

inductive Op where
  | allocate (appName : String) (codeHash : Hash160) (numSlots : UInt32)
  | delete (appName : String)

/-- whether an operation succeeds, and the superblock after it -/
def Op.apply : Op → WrbpodSuperblock → Bool × WrbpodSuperblock
  | .allocate appName codeHash numSlots, s => s.allocateSlots appName codeHash numSlots
  | .delete appName, s => (true, s.deleteSlots appName)

def step (s : WrbpodSuperblock) (op : Op) : WrbpodSuperblock := (op.apply s).2

def Op.appName : Op → String
  | .allocate appName _ _ => appName
  | .delete appName => appName

/-- `id` is one of the app's slots -/
def Lists (s : WrbpodSuperblock) (app : String) (id : UInt32) : Prop :=
  ∃ appState, s.apps[app]? = some appState ∧ id ∈ appState.slots

/-- every app with each of its slots -/
def listed (s : WrbpodSuperblock) : List (String × UInt32) :=
  s.apps.toList.flatMap fun e => e.2.slots.map fun id => (e.1, id)

theorem mem_listed {s : WrbpodSuperblock} {app : String} {id : UInt32} : (app, id) ∈ s.listed ↔ s.Lists app id := by
  simp only [listed, List.mem_flatMap, List.mem_map, Prod.mk.injEq, Prod.exists]
  constructor
  · rintro ⟨app', st, hmem, id', hid, rfl, rfl⟩
    exact ⟨st, Std.ExtTreeMap.mem_toList_iff_getElem?_eq_some.1 hmem, hid⟩
  · rintro ⟨st, hst, hid⟩
    exact ⟨app, st, Std.ExtTreeMap.mem_toList_iff_getElem?_eq_some.2 hst, id, hid, rfl, rfl⟩

theorem lists_of_chunkId {s : WrbpodSuperblock} {app : String} {appSlotId id : UInt32}
    (h : s.appSlotIdToStackerdbChunkId app appSlotId = some id) : s.Lists app id := by
  unfold appSlotIdToStackerdbChunkId at h
  cases hst : s.apps[app]? with
  | none => rw [hst] at h; cases h
  | some st =>
    rw [hst] at h
    exact ⟨st, hst, List.mem_of_getElem? h⟩

/-- the free list and the apps' lists agree: the filled IDs are the disjoint union of the apps' slots -/
structure Owned (ids : List UInt32) (s : WrbpodSuperblock) : Prop where
  ids : s.slotIds.map WrbpodSlot.slotId = ids
  nodup : ∀ (app : String) (appState : WrbpodAppState), s.apps[app]? = some appState → appState.slots.Nodup
  disjoint : ∀ (a b : String) (id : UInt32), s.Lists a id → s.Lists b id → a = b
  filled : ∀ id, .filled id ∈ s.slotIds ↔ ∃ app, s.Lists app id

/-- only slots of the superblock are listed -/
theorem Owned.mem_ids {ids : List UInt32} {s : WrbpodSuperblock} (h : Owned ids s) {app : String} {id : UInt32}
    (hid : s.Lists app id) : id ∈ ids := by
  rw [← h.ids]
  exact List.mem_map.2 ⟨_, (h.filled id).2 ⟨app, hid⟩, rfl⟩

theorem not_lists_new (ids : List UInt32) (app : String) (id : UInt32) : ¬ (new ids).Lists app id := by
  simp [Lists, new]

theorem owned_new (ids : List UInt32) : Owned ids (new ids) := by
  refine ⟨?_, by simp [new], by simp [Lists, new], ?_⟩
  · simp [new, Function.comp_def]
  · simp [Lists, new]

theorem getElem?_apps_insert (m : Std.ExtTreeMap String WrbpodAppState) (app app' : String) (st : WrbpodAppState) :
    (m.insert app st)[app']? = if app = app' then some st else m[app']? := by
  simp [Std.ExtTreeMap.getElem?_insert]

theorem mem_withSlots {old : Option WrbpodAppState} {hash : Hash160} {slots : List UInt32} {id : UInt32} :
    id ∈ (withSlots old hash slots).slots ↔ (∃ st, old = some st ∧ id ∈ st.slots) ∨ id ∈ slots := by
  cases old <;> simp [withSlots]

/-- what is listed after slots were added to an app -/
theorem lists_insert {s : WrbpodSuperblock} {l : List WrbpodSlot} {app : String} {hash : Hash160}
    {slots : List UInt32} (a : String) (id : UInt32) :
    Lists { s with slotIds := l, apps := s.apps.insert app (withSlots s.apps[app]? hash slots) } a id ↔
      s.Lists a id ∨ (a = app ∧ id ∈ slots) := by
  simp only [Lists, getElem?_apps_insert]
  by_cases h : app = a
  · subst h
    simp [mem_withSlots]
  · simp [h, Ne.symm h]

theorem lists_deleteSlots {s : WrbpodSuperblock} {app : String} (a : String) (id : UInt32) :
    (s.deleteSlots app).Lists a id ↔ s.Lists a id ∧ a ≠ app := by
  simp only [Lists, apps_deleteSlots, Std.ExtTreeMap.getElem?_erase]
  by_cases h : app = a
  · subst h
    simp
  · simp [h, Ne.symm h]

/-- a slot that was free belonged to no app -/
theorem Owned.not_lists_of_fills {ids : List UInt32} (hids : ids.Nodup) {s : WrbpodSuperblock} (h : Owned ids s)
    {l : List WrbpodSlot} {slots : List UInt32} (hfills : Fills s.slotIds l slots) :
    ∀ id ∈ slots, ∀ a, ¬ s.Lists a id := fun id hid a ha =>
  not_filled_of_free (h.ids ▸ hids) (hfills.wasFree id hid) ((h.filled id).2 ⟨a, ha⟩)

theorem allocate_owned {ids : List UInt32} (hids : ids.Nodup) {s : WrbpodSuperblock} (h : Owned ids s) (app : String)
    (hash : Hash160) (n : UInt32) : Owned ids (s.allocateSlots app hash n).2 := by
  rcases allocateSlots_cases s app hash n with heq | ⟨l, slots, hfills, -, heq⟩
  · rw [heq]; exact h
  · rw [heq]
    have hl : (s.slotIds.map WrbpodSlot.slotId).Nodup := h.ids ▸ hids
    have hnew := h.not_lists_of_fills hids hfills
    refine ⟨hfills.ids.trans h.ids, fun a st hst => ?_, fun a b id ha hb => ?_, fun id => ?_⟩
    · simp only [getElem?_apps_insert] at hst
      split_ifs at hst with happ
      · obtain rfl := Option.some.inj hst
        cases hold : s.apps[app]? with
        | none => exact hfills.nodup hl
        | some old =>
          refine List.nodup_append.2 ⟨h.nodup app old hold, hfills.nodup hl, ?_⟩
          rintro x hx y hy rfl
          exact hnew x hy app ⟨old, hold, hx⟩
      · exact h.nodup a st hst
    · rw [lists_insert] at ha hb
      rcases ha with ha | ⟨rfl, hid⟩
      · rcases hb with hb | ⟨-, hid⟩
        · exact h.disjoint a b id ha hb
        · exact absurd ha (hnew id hid a)
      · rcases hb with hb | ⟨rfl, -⟩
        · exact absurd hb (hnew id hid b)
        · rfl
    · rw [hfills.filled, h.filled]
      simp only [lists_insert, exists_or, exists_eq_left]

theorem delete_owned {ids : List UInt32} (hids : ids.Nodup) {s : WrbpodSuperblock} (h : Owned ids s) (app : String) :
    Owned ids (s.deleteSlots app) := by
  have hl : (s.slotIds.map WrbpodSlot.slotId).Nodup := h.ids ▸ hids
  rcases deleteSlots_cases s app with ⟨-, heq⟩ | ⟨st, happ, heq⟩
  · rw [heq]; exact h
  · have hslots := congrArg slotIds heq
    refine ⟨?_, fun a st' hst => ?_, fun a b id ha hb => ?_, fun id => ?_⟩
    · rw [hslots]
      exact (map_slotId_freeSlots st.slots s.slotIds).trans h.ids
    · rw [apps_deleteSlots, Std.ExtTreeMap.getElem?_erase] at hst
      split_ifs at hst
      exact h.nodup a st' hst
    · exact h.disjoint a b id (lists_deleteSlots a id |>.1 ha).1 (lists_deleteSlots b id |>.1 hb).1
    · rw [hslots]
      simp only [filled_mem_freeSlots st.slots hl, h.filled, lists_deleteSlots]
      constructor
      · rintro ⟨⟨a, ha⟩, hnot⟩
        refine ⟨a, ha, ?_⟩
        rintro rfl
        obtain ⟨st', hst', hid⟩ := ha
        obtain rfl := Option.some.inj (happ.symm.trans hst')
        exact hnot hid
      · rintro ⟨a, ha, hne⟩
        exact ⟨⟨a, ha⟩, fun hid => hne (h.disjoint a app id ha ⟨st, happ, hid⟩)⟩

/-- an operation adds no app but its own -/
theorem mem_apps_apply {op : Op} {s : WrbpodSuperblock} {name : String} (h : name ∈ (op.apply s).2.apps) :
    name ∈ s.apps ∨ name = op.appName := by
  cases op with
  | allocate app hash n =>
    rw [Op.apply] at h
    rcases allocateSlots_cases s app hash n with heq | ⟨l, slots, -, -, heq⟩
    · rw [heq] at h
      exact Or.inl h
    · rw [heq] at h
      rcases Std.ExtTreeMap.mem_insert.1 h with hname | hname
      · have heq' : app = name := by simpa using hname
        exact Or.inr heq'.symm
      · exact Or.inl hname
  | delete app =>
    rw [Op.apply, apps_deleteSlots, Std.ExtTreeMap.mem_erase] at h
    exact Or.inl h.2

theorem size_apps_apply (op : Op) (s : WrbpodSuperblock) : (op.apply s).2.apps.size ≤ s.apps.size + 1 := by
  cases op with
  | allocate app hash n =>
    rw [Op.apply]
    rcases allocateSlots_cases s app hash n with heq | ⟨l, slots, -, -, heq⟩
    · rw [heq]
      exact Nat.le_succ _
    · rw [heq]
      exact Std.ExtTreeMap.size_insert_le
  | delete app =>
    rw [Op.apply, apps_deleteSlots]
    exact Nat.le_succ_of_le Std.ExtTreeMap.size_erase_le

theorem step_owned {ids : List UInt32} (hids : ids.Nodup) (s : WrbpodSuperblock) (op : Op) (h : Owned ids s) :
    Owned ids (step s op) := by
  cases op with
  | allocate app hash n => exact allocate_owned hids h app hash n
  | delete app => exact delete_owned hids h app

/-- no slot changes hands: what is listed before an operation is not listed for another app after it -/
theorem Owned.lists_apply {ids : List UInt32} (hids : ids.Nodup) {s : WrbpodSuperblock} (h : Owned ids s) (op : Op)
    {a b : String} {id : UInt32} (ha : s.Lists a id) (hb : (op.apply s).2.Lists b id) : a = b := by
  cases op with
  | allocate app hash n =>
    rw [Op.apply] at hb
    rcases allocateSlots_cases s app hash n with heq | ⟨l, slots, hfills, -, heq⟩
    · rw [heq] at hb
      exact h.disjoint a b id ha hb
    · rw [heq, lists_insert] at hb
      rcases hb with hb | ⟨-, hid⟩
      · exact h.disjoint a b id ha hb
      · exact absurd ha (h.not_lists_of_fills hids hfills id hid a)
  | delete app => exact h.disjoint a b id ha (lists_deleteSlots b id |>.1 hb).1

theorem run_owned {ids : List UInt32} (hids : ids.Nodup) (ops : List Op) : Owned ids (Runs.run step (new ids) ops) :=
  Runs.run_inv (step_owned hids) (owned_new ids) ops

/-- a refused allocation changes nothing -/
theorem refused_allocate {s : WrbpodSuperblock} {app : String} {hash : Hash160} {n : UInt32}
    (h : (s.allocateSlots app hash n).1 = false) : (s.allocateSlots app hash n).2 = s := by
  rcases allocateSlots_cases s app hash n with heq | ⟨l, slots, -, -, heq⟩
  · rw [heq]
  · rw [heq] at h
    cases h

/-- **Ownership.** From distinct slot IDs, after any allocations and deletions: the filled IDs are the disjoint union of
the apps' lists, the sequence of slot IDs is the first one, and a refused allocation leaves the superblock as it was. -/
theorem ownership_run (ids : List UInt32) (hids : ids.Nodup) (ops : List Op) :
    Owned ids (Runs.run step (new ids) ops) ∧
    ∀ app hash n, ((Runs.run step (new ids) ops).allocateSlots app hash n).1 = false →
      ((Runs.run step (new ids) ops).allocateSlots app hash n).2 = Runs.run step (new ids) ops :=
  ⟨run_owned hids ops, fun _ _ _ h => refused_allocate h⟩

theorem ownership_three_slots :
    ([1, 3, 4] : List UInt32).Nodup ∧
    Owned [1, 3, 4] (Runs.run step (new [1, 3, 4]) [.allocate "a" 0 2, .delete "a", .allocate "b" 0 1]) ∧
    ∀ app hash n,
      ((Runs.run step (new [1, 3, 4]) [.allocate "a" 0 2, .delete "a", .allocate "b" 0 1]).allocateSlots
        app hash n).1 = false →
      ((Runs.run step (new [1, 3, 4]) [.allocate "a" 0 2, .delete "a", .allocate "b" 0 1]).allocateSlots
        app hash n).2 = Runs.run step (new [1, 3, 4]) [.allocate "a" 0 2, .delete "a", .allocate "b" 0 1] :=
  ⟨by decide, ownership_run [1, 3, 4] (by decide) [.allocate "a" 0 2, .delete "a", .allocate "b" 0 1]⟩

end WrbpodSuperblock

end Wrb.Storage
