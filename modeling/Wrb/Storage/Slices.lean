/-
`WrbpodSlices` (`src/storage/wrbpod.rs`): a map from slice IDs to byte strings, kept as an index of positions into a
vector, with a running count of the encoded size.

Layers:
- the functions of the source (`new`, `sliceEncodedSize`, `canFitSlice`, `putSlice`, `getSlice`);
- `putSlice_cases`: everything one `putSlice` can do;
- `Placed`: the index has one entry for each position counted, and every entry points into the vector. It makes the
  vector accesses of `putSlice` safe and every indexed ID readable (`Placed.getSlice_isSome`). `putSlice` keeps it
  (`step_placed`);
- `Unshared`: the put does not overwrite a position that another ID reads from. This is the exact condition for one put
  to behave as a map update (`mapLaw_iff`). It holds for every put when no two IDs share a position (`Exclusive`).
-/
import Wrb.Storage.Basic
import Wrb.Lib.Runs

namespace Wrb.Storage

open Wrb.Wire

def WRBPOD_SLICES_INITIAL_SIZE : ℕ := 1 + 8

namespace WrbpodSlices

def new (X : Ext) : WrbpodSlices where
  version := WRBPOD_SLICES_VERSION
  slices := []
  index := ∅
  dirty := false
  encodedSize := WRBPOD_SLICES_INITIAL_SIZE
  maxSize := X.maxChunkSize.toNat

/-- the encoded size of an additional slice: a new one also has a 16-byte ID and an 8-byte position in the index -/
def sliceEncodedSize (sliceLen : ℕ) (present : Bool) : ℕ :=
  let sz := 4 + sliceLen
  if present then sz else sz + 16 + 8

def canFitSlice (s : WrbpodSlices) (id : BitVec 128) (size : ℕ) : Bool :=
  decide (s.encodedSize + sliceEncodedSize size (s.index.contains id) ≤ s.maxSize)

/-- add or replace a slice: whether it was inserted, and the slices after it. A position beyond the vector would be a
panic of the source; `Placed` excludes it -/
def putSlice (s : WrbpodSlices) (id : BitVec 128) (slice : Bytes) : Bool × WrbpodSlices :=
  match s.index[id]? with
  | some idx =>
    if s.encodedSize + sliceEncodedSize slice.length true > s.maxSize then (false, s)
    else
      (true, { s with
        encodedSize := s.encodedSize + sliceEncodedSize slice.length true
        slices := s.slices.set idx slice
        dirty := true })
  | none =>
    if s.encodedSize + sliceEncodedSize slice.length false > s.maxSize then (false, s)
    else
      (true, { s with
        encodedSize := s.encodedSize + sliceEncodedSize slice.length false
        index := s.index.insert id s.slices.length
        slices := s.slices ++ [slice]
        dirty := true })

def getSlice (s : WrbpodSlices) (id : BitVec 128) : Option Bytes :=
  match s.index[id]? with
  | none => none
  | some idx => s.slices[idx]?

def isDirty (s : WrbpodSlices) : Bool := s.dirty

def setDirty (s : WrbpodSlices) (dirty : Bool) : WrbpodSlices := { s with dirty := dirty }

/-! ## What one put does -/

/-- everything a `putSlice` can do: refuse and change nothing, replace the slice at the ID's position, or append -/
theorem putSlice_cases (s : WrbpodSlices) (id : BitVec 128) (v : Bytes) :
    (s.maxSize < s.encodedSize + sliceEncodedSize v.length s.index[id]?.isSome ∧ s.putSlice id v = (false, s)) ∨
    (∃ idx, s.index[id]? = some idx ∧ s.encodedSize + (4 + v.length) ≤ s.maxSize ∧
      s.putSlice id v = (true, { s with
        encodedSize := s.encodedSize + (4 + v.length), slices := s.slices.set idx v, dirty := true })) ∨
    (s.index[id]? = none ∧ s.encodedSize + (4 + v.length + 24) ≤ s.maxSize ∧
      s.putSlice id v = (true, { s with
        encodedSize := s.encodedSize + (4 + v.length + 24), index := s.index.insert id s.slices.length,
        slices := s.slices ++ [v], dirty := true })) := by
  unfold putSlice
  cases hidx : s.index[id]? with
  | some idx =>
    by_cases hfit : s.encodedSize + sliceEncodedSize v.length true > s.maxSize
    · exact Or.inl ⟨by simpa using hfit, by simp [hfit]⟩
    · exact Or.inr (Or.inl ⟨idx, rfl, by simpa [sliceEncodedSize] using hfit, by
        simp only [if_neg hfit]; simp [sliceEncodedSize]⟩)
  | none =>
    by_cases hfit : s.encodedSize + sliceEncodedSize v.length false > s.maxSize
    · exact Or.inl ⟨by simpa using hfit, by simp [hfit]⟩
    · refine Or.inr (Or.inr ⟨rfl, ?_, ?_⟩)
      · simp only [sliceEncodedSize, Bool.false_eq_true, if_false] at hfit
        omega
      · simp only [if_neg hfit]
        simp [sliceEncodedSize, Nat.add_assoc]

theorem getSlice_of_index {s : WrbpodSlices} {id : BitVec 128} {idx : ℕ} (h : s.index[id]? = some idx) :
    s.getSlice id = s.slices[idx]? := by
  simp [getSlice, h]

theorem getSlice_of_index_none {s : WrbpodSlices} {id : BitVec 128} (h : s.index[id]? = none) :
    s.getSlice id = none := by
  simp [getSlice, h]

theorem getElem?_index_insert (m : Std.ExtTreeMap (BitVec 128) ℕ) (id id' : BitVec 128) (idx : ℕ) :
    (m.insert id idx)[id']? = if id = id' then some idx else m[id']? := by
  simp [Std.ExtTreeMap.getElem?_insert]

/-! ## Runs of puts -/

/-- one put of a run -/
def putStep (s : WrbpodSlices) (p : BitVec 128 × Bytes) : WrbpodSlices := (s.putSlice p.1 p.2).2

/-- the index counts the vector's positions and points into it -/
structure Placed (s : WrbpodSlices) : Prop where
  count : s.index.size = s.slices.length
  inRange : ∀ (id : BitVec 128) (idx : ℕ), s.index[id]? = some idx → idx < s.slices.length

/-- no two IDs share a position -/
def Exclusive (s : WrbpodSlices) : Prop :=
  ∀ (id id' : BitVec 128) (idx : ℕ), s.index[id]? = some idx → s.index[id']? = some idx → id = id'

theorem placed_new (X : Ext) : Placed (new X) := ⟨by simp [new], by simp [new]⟩

theorem exclusive_new (X : Ext) : Exclusive (new X) := by simp [Exclusive, new]

theorem Placed.getSlice_isSome {s : WrbpodSlices} (h : Placed s) {id : BitVec 128} (hid : id ∈ s.index) :
    (s.getSlice id).isSome = true := by
  obtain ⟨idx, hidx⟩ := Option.isSome_iff_exists.1 (Std.ExtTreeMap.isSome_getElem?_iff_mem.2 hid)
  rw [getSlice_of_index hidx]
  simpa using h.inRange id idx hidx

theorem step_placed (s : WrbpodSlices) (p : BitVec 128 × Bytes) (h : Placed s) : Placed (putStep s p) := by
  obtain ⟨id, v⟩ := p
  rcases putSlice_cases s id v with ⟨-, heq⟩ | ⟨idx, hidx, -, heq⟩ | ⟨hnone, -, heq⟩
  · rw [putStep, heq]; exact h
  · rw [putStep, heq]
    exact ⟨by simpa using h.count, fun id' idx' h' => by simpa using h.inRange id' idx' h'⟩
  · rw [putStep, heq]
    refine ⟨?_, fun id' idx' h' => ?_⟩
    · have hnot : id ∉ s.index := by
        rw [← Std.ExtTreeMap.isSome_getElem?_iff_mem, hnone]
        simp
      simp [Std.ExtTreeMap.size_insert, hnot, h.count]
    · simp only [getElem?_index_insert] at h'
      simp only [List.length_append, List.length_singleton]
      split_ifs at h' with hid
      · simp only [Option.some.injEq] at h'; omega
      · exact Nat.lt_succ_of_lt (h.inRange id' idx' h')

theorem step_exclusive (s : WrbpodSlices) (p : BitVec 128 × Bytes) (hp : Placed s) (h : Exclusive s) :
    Exclusive (putStep s p) := by
  obtain ⟨id, v⟩ := p
  rcases putSlice_cases s id v with ⟨-, heq⟩ | ⟨idx, hidx, -, heq⟩ | ⟨hnone, -, heq⟩
  · rw [putStep, heq]; exact h
  · rw [putStep, heq]; exact h
  · rw [putStep, heq]
    intro a b idx ha hb
    simp only [getElem?_index_insert] at ha hb
    -- the new position is past every old one
    split_ifs at ha hb with h1 h2 h2
    · exact h1 ▸ h2
    · simp only [Option.some.injEq] at ha
      have := hp.inRange b idx hb; omega
    · simp only [Option.some.injEq] at hb
      have := hp.inRange a idx ha; omega
    · exact h a b idx ha hb

/-! ## The map law -/

/-- what a put must do to a map: an accepted put sets its ID and nothing else, a refused one changes nothing -/
structure MapLaw (s : WrbpodSlices) (p : BitVec 128 × Bytes) : Prop where
  set : (s.putSlice p.1 p.2).1 = true → (putStep s p).getSlice p.1 = some p.2
  others : (s.putSlice p.1 p.2).1 = true → ∀ id, id ≠ p.1 → (putStep s p).getSlice id = s.getSlice id
  refused : (s.putSlice p.1 p.2).1 = false → ∀ id, (putStep s p).getSlice id = s.getSlice id
  indexed : ∀ id ∈ (putStep s p).index, ((putStep s p).getSlice id).isSome = true

/-- the put does not change a slice that another ID shares: where it is accepted and replaces, no other ID is at the
same position unless the bytes stay the same -/
def Unshared (s : WrbpodSlices) (p : BitVec 128 × Bytes) : Prop :=
  ∀ idx, s.index[p.1]? = some idx → s.encodedSize + (4 + p.2.length) ≤ s.maxSize →
    ∀ id, id ≠ p.1 → s.index[id]? = some idx → s.slices[idx]? = some p.2

theorem Exclusive.unshared {s : WrbpodSlices} (h : Exclusive s) (p : BitVec 128 × Bytes) : Unshared s p :=
  fun idx hidx _ id hne hid => absurd (h id p.1 idx hid hidx) hne

/-- one put obeys the map law exactly when it does not overwrite a shared position -/
theorem mapLaw_iff (s : WrbpodSlices) (p : BitVec 128 × Bytes) (h : Placed s) : MapLaw s p ↔ Unshared s p := by
  obtain ⟨id, v⟩ := p
  have hindexed : ∀ i ∈ (putStep s (id, v)).index, ((putStep s (id, v)).getSlice i).isSome = true :=
    fun i hi => (step_placed s (id, v) h).getSlice_isSome hi
  rcases putSlice_cases s id v with ⟨hbig, heq⟩ | ⟨idx, hidx, hfit, heq⟩ | ⟨hnone, -, heq⟩
  · -- refused: nothing changes, and the condition is about accepted puts only
    refine ⟨fun _ idx hidx hfit => ?_, fun _ => ⟨?_, ?_, ?_, hindexed⟩⟩
    · have hfit' : s.encodedSize + (4 + v.length) ≤ s.maxSize := hfit
      have hidx' : s.index[id]? = some idx := hidx
      simp only [hidx', Option.isSome_some, sliceEncodedSize, if_true] at hbig
      omega
    · simp [heq]
    · simp [heq]
    · simp [putStep, heq]
  · have hlt := h.inRange id idx hidx
    have hafter : ∀ i j, s.index[i]? = some j → (putStep s (id, v)).getSlice i = (s.slices.set idx v)[j]? := by
      intro i j hi
      simp only [putStep, heq, getSlice, hi]
    constructor
    · intro hlaw idx' hidx' _ i hne hi
      obtain rfl : idx = idx' := Option.some.inj (hidx.symm.trans hidx')
      have hsame := hlaw.others (by simp [heq]) i hne
      rw [hafter i idx hi, getSlice_of_index hi, List.getElem?_set_self hlt] at hsame
      exact hsame.symm
    · intro hun
      refine ⟨fun _ => ?_, fun _ i hne => ?_, by simp [heq], hindexed⟩
      · rw [hafter id idx hidx]
        exact List.getElem?_set_self hlt
      · cases hi : s.index[i]? with
        | none => simp only [putStep, heq, getSlice, hi]
        | some j =>
          rw [hafter i j hi, getSlice_of_index hi]
          by_cases hj : idx = j
          · subst hj
            rw [hun idx hidx hfit i hne hi]
            exact List.getElem?_set_self hlt
          · exact List.getElem?_set_ne hj
  · have hafter : ∀ i, i ≠ id → (putStep s (id, v)).getSlice i = s.getSlice i := by
      intro i hne
      simp only [putStep, heq, getSlice, getElem?_index_insert, if_neg (Ne.symm hne)]
      cases hi : s.index[i]? with
      | none => rfl
      | some j => exact List.getElem?_append_left (h.inRange i j hi)
    refine ⟨fun _ idx hidx => ?_, fun _ => ⟨fun _ => ?_, fun _ => hafter, by simp [heq], hindexed⟩⟩
    · simp only [hnone] at hidx
      exact absurd hidx (by simp)
    · simp [putStep, heq, getSlice]

end WrbpodSlices

end Wrb.Storage
