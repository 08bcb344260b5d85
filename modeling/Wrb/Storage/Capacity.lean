/-
What `can_fit_slice` of a wrbpod predicts of `put_slice` (`src/storage/wrbpod.rs`).

A put goes to the slot's cached slices, or, where the slot is mapped but not cached, to new ones. Slices take a put iff
their own `can_fit_slice` says so; that is also what the wrbpod answers for a cached slot. For a slot without cached
slices it compares the sizes itself, with `<` where the slices have `<=`.

Results:
- `putSlice_fst`, `canFitSlice_cached`, `canFitSlice_uncached`: both answers, by the slices the put goes to;
- `canFitSlice_iff`: the prediction is right unless the slot is not cached and the slice fills the chunk exactly;
- `exact_fit_denied`: that slice, for a slot that was just allocated.
-/
import Wrb.Storage.Reopen

namespace Wrb.Storage

open Wrb.Wire

/-- slices take a put iff their own check says so -/
theorem WrbpodSlices.putSlice_fst (s : WrbpodSlices) (id : BitVec 128) (v : Bytes) :
    (s.putSlice id v).1 = s.canFitSlice id v.length := by
  unfold putSlice canFitSlice
  cases hidx : s.index[id]? with
  | some idx =>
    have hmem : s.index.contains id = true := by simp [← Std.ExtTreeMap.isSome_getElem?_eq_contains, hidx]
    simp only [hmem]
    split_ifs with hbig
    · simpa using hbig
    · simpa using hbig
  | none =>
    have hmem : s.index.contains id = false := by simp [← Std.ExtTreeMap.isSome_getElem?_eq_contains, hidx]
    simp only [hmem]
    split_ifs with hbig
    · simpa using hbig
    · simpa using hbig

namespace Wrbpod

variable {X : Ext} {w : Wrbpod} {app : String} {appSlotId chunkId : UInt32}

/-- the slot is mapped to a chunk that is not cached -/
def Uncached (w : Wrbpod) (app : String) (appSlotId : UInt32) : Prop :=
  ∃ chunkId, w.appSlotIdToStackerdbChunkId app appSlotId = some chunkId ∧ w.chunks[chunkId]? = none

/-- a put goes to the cached slices, or to new ones -/
theorem putSlice_fst (h : w.appSlotIdToStackerdbChunkId app appSlotId = some chunkId) (id : BitVec 128) (v : Bytes) :
    (putSlice X w app appSlotId id v).1 =
      (w.chunks[chunkId]?.getD (WrbpodSlices.new X)).canFitSlice id v.length := by
  have hmapped : w.superblock.appSlotIdToStackerdbChunkId app appSlotId = some chunkId := h
  unfold putSlice
  rw [hmapped]
  dsimp only
  cases hcached : w.chunks[chunkId]? with
  | some slices => simp [WrbpodSlices.putSlice_fst]
  | none =>
    dsimp only
    rw [WrbpodSlices.putSlice_fst]
    cases hfit : (WrbpodSlices.new X).canFitSlice id v.length with
    | true => simp [hfit]
    | false => simp [hfit]

theorem canFitSlice_cached {slices : WrbpodSlices} (h : w.appSlotIdToStackerdbChunkId app appSlotId = some chunkId)
    (hcached : w.chunks[chunkId]? = some slices) (id : BitVec 128) (size : ℕ) :
    canFitSlice X w app appSlotId id size = slices.canFitSlice id size := by
  have hmapped : w.superblock.appSlotIdToStackerdbChunkId app appSlotId = some chunkId := h
  simp [canFitSlice, hmapped, hcached]

/-- a new slice of `size` bytes takes 28 bytes more, and new slices have 9 bytes -/
theorem canFitSlice_uncached (h : w.appSlotIdToStackerdbChunkId app appSlotId = some chunkId)
    (hcached : w.chunks[chunkId]? = none) (id : BitVec 128) (size : ℕ) :
    canFitSlice X w app appSlotId id size = decide (size + 37 < X.maxChunkSize.toNat) := by
  have hmapped : w.superblock.appSlotIdToStackerdbChunkId app appSlotId = some chunkId := h
  have hsize : WrbpodSlices.sliceEncodedSize size false + WRBPOD_SLICES_INITIAL_SIZE = size + 37 := by
    simp [WrbpodSlices.sliceEncodedSize, WRBPOD_SLICES_INITIAL_SIZE]
    omega
  simp [canFitSlice, hmapped, hcached, hsize]

theorem canFitSlice_new (X : Ext) (id : BitVec 128) (size : ℕ) :
    (WrbpodSlices.new X).canFitSlice id size = decide (size + 37 ≤ X.maxChunkSize.toNat) := by
  have hsize : WRBPOD_SLICES_INITIAL_SIZE + WrbpodSlices.sliceEncodedSize size false = size + 37 := by
    simp [WrbpodSlices.sliceEncodedSize, WRBPOD_SLICES_INITIAL_SIZE]
    omega
  simp [WrbpodSlices.canFitSlice, WrbpodSlices.new, hsize]

/-- slices of one size are all taken, or none of them is -/
theorem forall_length_iff {P : ℕ → Prop} {size : ℕ} : (∀ v : Bytes, v.length = size → P v.length) ↔ P size := by
  apply Iff.intro
  · intro h
    have := h (List.replicate size 0) List.length_replicate
    rwa [List.length_replicate] at this
  · intro h v hv
    rwa [hv]

/-- **The prediction is right unless the slot is not cached and the slice fills the chunk exactly.** -/
theorem canFitSlice_iff (X : Ext) (w : Wrbpod) (app : String) (appSlotId : UInt32) (id : BitVec 128) (size : ℕ) :
    (canFitSlice X w app appSlotId id size = true ↔
        ∀ v : Bytes, v.length = size → (putSlice X w app appSlotId id v).1 = true) ↔
      ¬ (Uncached w app appSlotId ∧ size + 37 = X.maxChunkSize.toNat) := by
  cases hmapped : w.appSlotIdToStackerdbChunkId app appSlotId with
  | none =>
    have hmapped' : w.superblock.appSlotIdToStackerdbChunkId app appSlotId = none := hmapped
    have hlen : ∃ v : Bytes, v.length = size := ⟨List.replicate size 0, List.length_replicate⟩
    simp [canFitSlice, putSlice, hmapped', Uncached, hmapped, hlen]
  | some chunkId =>
    have hput :=
      @forall_length_iff (fun n => (w.chunks[chunkId]?.getD (WrbpodSlices.new X)).canFitSlice id n = true) size
    simp only [putSlice_fst hmapped, hput, Uncached, hmapped, Option.some.injEq, exists_eq_left']
    cases hcached : w.chunks[chunkId]? with
    | some slices => simp [canFitSlice_cached hmapped hcached]
    | none =>
      simp only [canFitSlice_uncached hmapped hcached, Option.getD_none, canFitSlice_new, decide_eq_true_eq, true_and]
      omega

/-! ## A slice that fills the chunk -/

/-- the slot was just allocated; the slice is put all the same -/
theorem exact_fit_denied : ∃ wf sf w s,
    threeSlotReplica.exec (format X0 2 7 0) noHandle threeSlots = some ((), wf, sf) ∧
      runOps threeSlotReplica 2 [.allocate "a" 0 1] (wf, sf) = some (w, s) ∧
      canFitSlice X0 w "a" 0 0 2097115 = false ∧
      ∀ v : Bytes, v.length = 2097115 → (putSlice X0 w "a" 0 0 v).1 = true := by
  have hrun : (((threeSlotReplica.exec (format X0 2 7 0) noHandle threeSlots).bind fun r =>
      runOps threeSlotReplica 2 [.allocate "a" 0 1] r.2).map fun p =>
        (p.1.appSlotIdToStackerdbChunkId "a" 0, p.1.chunks[(1 : UInt32)]?)) = some (some 1, none) := by decide +kernel
  obtain ⟨⟨w, s⟩, h, hslot⟩ := Option.map_eq_some_iff.1 hrun
  obtain ⟨⟨_, wf, sf⟩, hformat, hops⟩ := Option.bind_eq_some_iff.1 h
  obtain ⟨hmapped, hcached⟩ := Prod.mk.inj hslot
  refine ⟨wf, sf, w, s, hformat, hops, ?_, fun v hv => ?_⟩
  · rw [canFitSlice_uncached hmapped hcached]
    rfl
  · rw [putSlice_fst hmapped, hcached, Option.getD_none, canFitSlice_new, hv]
    rfl

end Wrbpod

end Wrb.Storage
