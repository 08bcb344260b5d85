/-
The wire format of `WrbpodSlices` (`src/storage/mod.rs`), its size and its round trip.

The format: a version byte, the number of index entries, the entries (16-byte slice ID, 8-byte position) in ID order,
and the slices. The number of slices is not written: the decoder reads as many slices as there were index entries.

Results:
- `length_consensusSerialize`: the exact length of the encoding;
- `decoded_placed`, `decoded_sizeExact`: whatever bytes the decoder accepts, the index points into the vector and
  `encodedSize` is the exact length of the encoding. It does not reject two IDs at one position;
- `Storable`: what every value built by puts satisfies, and `Storable.roundTrip`: such a value is read back, clean, with
  every byte consumed and counted.
-/
import Wrb.Lib.TreeMap
import Wrb.Storage.Reference
import Wrb.Storage.Slices

namespace Wrb.Storage

open Wrb.Wire Wrb.TreeMap

/-! ## `u128` on the wire -/

def u128ConsensusSerialize (value : BitVec 128) : Bytes := beBytes 16 value.toNat

def u128ConsensusDeserialize : Decoder CodecError (BitVec 128) := do
  let bytes ← readExact (.deserializeError
    "Failed to read u128: Error \x7b kind: UnexpectedEof, message: \"failed to fill whole buffer\" \x7d") 16
  pure (BitVec.ofNat 128 (beNat bytes))

theorem reads_u128 (v : BitVec 128) : Reads u128ConsensusDeserialize (u128ConsensusSerialize v) v := by
  have hlt : v.toNat < 256 ^ 16 := v.isLt
  have hread := Reads.exact (CodecError.deserializeError
    "Failed to read u128: Error \x7b kind: UnexpectedEof, message: \"failed to fill whole buffer\" \x7d")
    (u128ConsensusSerialize v)
  rw [u128ConsensusSerialize, length_beBytes] at hread
  refine hread.map ?_
  rw [beNat_beBytes hlt, BitVec.ofNat_toNat, BitVec.setWidth_eq]
  exact Reads.pure v

namespace WrbpodSlices

/-! ## Encoder and decoder -/

def serializeIndexEntry (X : Ext) (e : BitVec 128 × ℕ) : Bytes :=
  u128ConsensusSerialize e.1 ++ X.u64.enc (UInt64.ofNat e.2)

/-- `usize` is 64 bits wide, so the conversions to `u64` that could fail do not -/
def consensusSerialize (X : Ext) (s : WrbpodSlices) : Bytes :=
  X.u8.enc s.version ++ (X.u64.enc (UInt64.ofNat s.index.size) ++ (s.index.toList.flatMap (serializeIndexEntry X) ++
    s.slices.flatMap (X.vec X.u8).enc))

/-- one round of the index loop: the index so far and the size counted so far -/
def readIndexEntry (X : Ext) (indexCount : UInt64) (acc : Std.ExtTreeMap (BitVec 128) ℕ × ℕ) :
    Decoder CodecError (Std.ExtTreeMap (BitVec 128) ℕ × ℕ) := do
  let id ← u128ConsensusDeserialize
  let idxU64 ← X.u64.dec
  if idxU64 ≥ indexCount then
    throw (.deserializeError s!"index {idxU64} exceeds number of slices {indexCount}")
  else if acc.1.contains id then
    throw (.deserializeError "duplicate slice ID")
  else
    pure (acc.1.insert id idxU64.toNat, acc.2 + 16 + 8)

/-- one round of the slice loop: the slices so far and the size counted so far -/
def readSlice (X : Ext) (acc : List Bytes × ℕ) : Decoder CodecError (List Bytes × ℕ) := do
  let slice ← (X.vec X.u8).dec
  pure (acc.1 ++ [slice], acc.2 + (4 + slice.length))

def consensusDeserialize (X : Ext) : Decoder CodecError WrbpodSlices := do
  let version ← X.u8.dec
  let indexCount ← X.u64.dec
  let index ← iter (readIndexEntry X indexCount) indexCount.toNat (∅, 1 + 8)
  let slices ← iter (readSlice X) indexCount.toNat ([], index.2)
  pure {
    version := version
    index := index.1
    slices := slices.1
    dirty := false
    encodedSize := slices.2
    maxSize := X.maxChunkSize.toNat }

/-- load from the data of a chunk; bytes after the encoding are ignored -/
def fromSlice (X : Ext) (data : Bytes) : Except CodecError WrbpodSlices :=
  ((consensusDeserialize X).run data).map Prod.fst

/-- convert to an unsigned chunk -/
def toStackerdbChunk (X : Ext) (s : WrbpodSlices) (slotId slotVersion : UInt32) : StackerDBChunkData where
  slotId := slotId
  slotVersion := slotVersion
  sig := 0
  data := s.consensusSerialize X

/-! ## The length of an encoding -/

theorem length_consensusSerialize {X : Ext} (hX : SizeLaws X) (s : WrbpodSlices) :
    (s.consensusSerialize X).length = 9 + 24 * s.index.size + (s.slices.map fun v => 4 + v.length).sum := by
  have hentry : ∀ e, (serializeIndexEntry X e).length = 24 := by
    intro e; simp [serializeIndexEntry, u128ConsensusSerialize, hX.u64]
  have hindex : (s.index.toList.flatMap (serializeIndexEntry X)).length = 24 * s.index.size := by
    rw [List.length_flatMap]
    simp [hentry, Nat.mul_comm]
  have hslices : (s.slices.flatMap (X.vec X.u8).enc).length = (s.slices.map fun v => 4 + v.length).sum := by
    rw [List.length_flatMap]
    simp only [hX.bytes]
  simp only [consensusSerialize, List.length_append, hX.u8, hX.u64, hindex, hslices]
  omega

/-! ## What the decoder accepts -/

/-- one accepted index entry: a new ID, and a position below the count -/
theorem readIndexEntry_ok {X : Ext} {count : UInt64} {acc acc' : Std.ExtTreeMap (BitVec 128) ℕ × ℕ} {b b' : Bytes}
    (h : (readIndexEntry X count acc).run b = .ok (acc', b')) :
    ∃ id idx, id ∉ acc.1 ∧ idx < count.toNat ∧ acc' = (acc.1.insert id idx, acc.2 + 24) := by
  obtain ⟨id, b1, -, h1⟩ := run_bind_ok.1 h
  obtain ⟨idx, b2, -, h2⟩ := run_bind_ok.1 h1
  split_ifs at h2 with hbig hdup
  · cases h2
  · cases h2
  · obtain h3 := run_pure_ok.1 h2
    refine ⟨id, idx.toNat, fun hmem => hdup (Std.ExtTreeMap.contains_iff_mem.2 hmem), ?_, (Prod.ext_iff.1 h3).1⟩
    simpa [UInt64.lt_iff_toNat_lt] using hbig

/-- the index after `n` accepted entries -/
structure IndexRead (count : ℕ) (n : ℕ) (acc : Std.ExtTreeMap (BitVec 128) ℕ × ℕ) : Prop where
  size : acc.1.size = n
  inRange : ∀ (id : BitVec 128) (idx : ℕ), acc.1[id]? = some idx → idx < count
  counted : acc.2 = 9 + 24 * n

theorem readIndexEntry_indexRead {X : Ext} {count : UInt64} (n : ℕ) (acc : Std.ExtTreeMap (BitVec 128) ℕ × ℕ)
    (b : Bytes) (acc' : Std.ExtTreeMap (BitVec 128) ℕ × ℕ) (b' : Bytes) (h : IndexRead count.toNat n acc)
    (hr : (readIndexEntry X count acc).run b = .ok (acc', b')) : IndexRead count.toNat (n + 1) acc' := by
  obtain ⟨id, idx, hnew, hlt, rfl⟩ := readIndexEntry_ok hr
  refine ⟨?_, fun id' idx' h' => ?_, ?_⟩
  · simp [Std.ExtTreeMap.size_insert, hnew, h.size]
  · rw [getElem?_index_insert] at h'
    split_ifs at h' with hid
    · simp only [Option.some.injEq] at h'; omega
    · exact h.inRange id' idx' h'
  · simp only [h.counted]; omega

theorem readSlice_counted {X : Ext} (start n : ℕ) (acc : List Bytes × ℕ) (b : Bytes) (acc' : List Bytes × ℕ)
    (b' : Bytes) (h : acc.1.length = n ∧ acc.2 = start + (acc.1.map fun v => 4 + v.length).sum)
    (hr : (readSlice X acc).run b = .ok (acc', b')) :
    acc'.1.length = n + 1 ∧ acc'.2 = start + (acc'.1.map fun v => 4 + v.length).sum := by
  obtain ⟨v, b1, -, h1⟩ := run_bind_ok.1 hr
  obtain ⟨rfl, -⟩ := Prod.ext_iff.1 (run_pure_ok.1 h1)
  simp only [List.length_append, List.length_singleton, List.map_append, List.map_cons, List.map_nil, List.sum_append,
    List.sum_cons, List.sum_nil]
  omega

/-- what an accepted byte string decodes to: as many slices as index entries, each entry in range, every byte counted -/
theorem decoded_spec {X : Ext} {b b' : Bytes} {s : WrbpodSlices} (h : (consensusDeserialize X).run b = .ok (s, b')) :
    Placed s ∧ s.encodedSize = 9 + 24 * s.index.size + (s.slices.map fun v => 4 + v.length).sum := by
  obtain ⟨version, b1, -, h1⟩ := run_bind_ok.1 h
  obtain ⟨count, b2, -, h2⟩ := run_bind_ok.1 h1
  obtain ⟨index, b3, h3, h4⟩ := run_bind_ok.1 h2
  obtain ⟨slices, b4, h5, h6⟩ := run_bind_ok.1 h4
  obtain ⟨rfl, -⟩ := Prod.ext_iff.1 (run_pure_ok.1 h6)
  have hindex : IndexRead count.toNat (0 + count.toNat) index :=
    iter_inv (IndexRead count.toNat) readIndexEntry_indexRead ⟨by simp, by simp, rfl⟩ h3
  have hslices := iter_inv (fun n (acc : List Bytes × ℕ) =>
    acc.1.length = n ∧ acc.2 = index.2 + (acc.1.map fun v => 4 + v.length).sum)
    (readSlice_counted index.2) (n := 0) ⟨rfl, by simp⟩ h5
  simp only [Nat.zero_add] at hindex hslices
  refine ⟨⟨?_, fun id idx hid => ?_⟩, ?_⟩
  · exact hindex.size.trans hslices.1.symm
  · exact lt_of_lt_of_eq (hindex.inRange id idx hid) hslices.1.symm
  · simp only [hslices.2, hindex.counted, hindex.size]

theorem decoded_placed {X : Ext} {b b' : Bytes} {s : WrbpodSlices}
    (h : (consensusDeserialize X).run b = .ok (s, b')) : Placed s := (decoded_spec h).1

theorem decoded_maxSize {X : Ext} {b b' : Bytes} {s : WrbpodSlices}
    (h : (consensusDeserialize X).run b = .ok (s, b')) : s.maxSize = X.maxChunkSize.toNat := by
  obtain ⟨version, b1, -, h1⟩ := run_bind_ok.1 h
  obtain ⟨count, b2, -, h2⟩ := run_bind_ok.1 h1
  obtain ⟨index, b3, -, h3⟩ := run_bind_ok.1 h2
  obtain ⟨slices, b4, -, h4⟩ := run_bind_ok.1 h3
  obtain ⟨rfl, -⟩ := Prod.ext_iff.1 (run_pure_ok.1 h4)
  rfl

/-- the tracked size is the exact length of the encoding -/
def SizeExact (X : Ext) (s : WrbpodSlices) : Prop := s.encodedSize = (s.consensusSerialize X).length

instance (X : Ext) (s : WrbpodSlices) : Decidable (SizeExact X s) := inferInstanceAs (Decidable (_ = _))

theorem decoded_sizeExact {X : Ext} (hX : SizeLaws X) {b b' : Bytes} {s : WrbpodSlices}
    (h : (consensusDeserialize X).run b = .ok (s, b')) : SizeExact X s := by
  rw [SizeExact, length_consensusSerialize hX]
  exact (decoded_spec h).2

/-- where a run of puts starts: from `new()`, or from accepted bytes -/
inductive Start (X : Ext) : WrbpodSlices → Prop
  | new : Start X (new X)
  | decoded {s : WrbpodSlices} (b b' : Bytes) (h : (consensusDeserialize X).run b = .ok (s, b')) : Start X s

theorem Start.placed {X : Ext} {s : WrbpodSlices} (h : Start X s) : Placed s := by
  cases h with
  | new => exact placed_new X
  | decoded b b' h => exact decoded_placed h

theorem Start.sizeExact {X : Ext} (hX : SizeLaws X) {s : WrbpodSlices} (h : Start X s) : SizeExact X s := by
  cases h with
  | new =>
    rw [SizeExact, length_consensusSerialize hX]
    simp [WrbpodSlices.new, WRBPOD_SLICES_INITIAL_SIZE]
  | decoded b b' h => exact decoded_sizeExact hX h

/-! ## The tracked size along a run -/

/-- the value a put would produce if it were not refused -/
def withSlice (s : WrbpodSlices) (id : BitVec 128) (slice : Bytes) : WrbpodSlices :=
  match s.index[id]? with
  | some idx => { s with slices := s.slices.set idx slice }
  | none => { s with index := s.index.insert id s.slices.length, slices := s.slices ++ [slice] }

/-- one put and the sizes around it: tracked exactly before and after, and refused exactly when the resulting value
would not fit -/
structure SizeLaw (X : Ext) (s : WrbpodSlices) (p : BitVec 128 × Bytes) : Prop where
  before : SizeExact X s
  after : SizeExact X (putStep s p)
  refused : (s.putSlice p.1 p.2).1 = false ↔ s.maxSize < ((s.withSlice p.1 p.2).consensusSerialize X).length

/-- the put does not replace a slice, except where the replacement is too big even after the old slice is gone -/
def NoReplacement (s : WrbpodSlices) (p : BitVec 128 × Bytes) : Prop :=
  ∀ (idx : ℕ) (old : Bytes), s.index[p.1]? = some idx → s.slices[idx]? = some old →
    s.maxSize + old.length < s.encodedSize + p.2.length

theorem sum_set (l : List Bytes) (i : ℕ) (old v : Bytes) (h : l[i]? = some old) :
    ((l.set i v).map fun x => 4 + x.length).sum + old.length = (l.map fun x => 4 + x.length).sum + v.length := by
  induction l generalizing i with
  | nil => simp at h
  | cons x l ih =>
    cases i with
    | zero =>
      simp only [List.getElem?_cons_zero, Option.some.injEq] at h
      subst h
      simp only [List.set_cons_zero, List.map_cons, List.sum_cons]
      omega
    | succ i =>
      simp only [List.getElem?_cons_succ] at h
      have := ih i h
      simp only [List.set_cons_succ, List.map_cons, List.sum_cons]
      omega

theorem length_append_slice {X : Ext} (hX : SizeLaws X) {s : WrbpodSlices} {id : BitVec 128}
    (hnone : s.index[id]? = none) (v : Bytes) :
    (consensusSerialize X { s with index := s.index.insert id s.slices.length, slices := s.slices ++ [v] }).length =
      (s.consensusSerialize X).length + (4 + v.length + 24) := by
  have hnot : id ∉ s.index := by
    rw [← Std.ExtTreeMap.isSome_getElem?_iff_mem, hnone]
    simp
  have hsize : (s.index.insert id s.slices.length).size = s.index.size + 1 := by
    simp [Std.ExtTreeMap.size_insert, hnot]
  simp only [length_consensusSerialize hX, hsize, List.map_append, List.map_cons, List.map_nil, List.sum_append,
    List.sum_cons, List.sum_nil]
  omega

theorem length_set_slice {X : Ext} (hX : SizeLaws X) {s : WrbpodSlices} {idx : ℕ} {old : Bytes}
    (hold : s.slices[idx]? = some old) (v : Bytes) :
    (consensusSerialize X { s with slices := s.slices.set idx v }).length + old.length =
      (s.consensusSerialize X).length + v.length := by
  have hsum := sum_set s.slices idx old v hold
  simp only [length_consensusSerialize hX]
  omega

/-- a put of a new slice keeps to the size law -/
theorem sizeLaw_fresh {X : Ext} (hX : SizeLaws X) {s : WrbpodSlices} (hexact : SizeExact X s) {id : BitVec 128}
    (hidx : s.index[id]? = none) (v : Bytes) : SizeLaw X s (id, v) := by
  have hexact' : s.encodedSize = (s.consensusSerialize X).length := hexact
  have hlen := length_append_slice hX hidx v
  have hwith : s.withSlice id v =
      { s with index := s.index.insert id s.slices.length, slices := s.slices ++ [v] } := by
    simp only [withSlice, hidx]
  refine ⟨hexact, ?_, ?_⟩
  · rcases putSlice_cases s id v with ⟨-, heq⟩ | ⟨idx, h', -⟩ | ⟨-, -, heq⟩
    · rw [putStep, heq]; exact hexact
    · rw [hidx] at h'; cases h'
    · rw [putStep, heq, SizeExact]
      exact (congrArg (· + (4 + v.length + 24)) hexact').trans hlen.symm
  · rw [hwith, hlen, ← hexact']
    rcases putSlice_cases s id v with ⟨hbig, heq⟩ | ⟨idx, h', -⟩ | ⟨-, hfit, heq⟩
    · simp only [hidx, Option.isSome_none, sliceEncodedSize, Bool.false_eq_true, if_false] at hbig
      simp only [heq, true_iff]
      omega
    · rw [hidx] at h'; cases h'
    · simp only [heq, Bool.true_eq_false, false_iff]
      omega

/-- a put over a slice keeps to it exactly when the slice would not fit -/
theorem sizeLaw_replacement {X : Ext} (hX : SizeLaws X) {s : WrbpodSlices} (hplaced : Placed s)
    (hexact : SizeExact X s) {id : BitVec 128} {idx : ℕ} (hidx : s.index[id]? = some idx) (v : Bytes) :
    SizeLaw X s (id, v) ↔ NoReplacement s (id, v) := by
  have hexact' : s.encodedSize = (s.consensusSerialize X).length := hexact
  obtain ⟨old, hold⟩ : ∃ old, s.slices[idx]? = some old :=
    ⟨_, List.getElem?_eq_getElem (hplaced.inRange id idx hidx)⟩
  have hlen := length_set_slice hX hold v
  have hwith : s.withSlice id v = { s with slices := s.slices.set idx v } := by simp only [withSlice, hidx]
  rcases putSlice_cases s id v with ⟨hbig, heq⟩ | ⟨idx', h', hfit, heq⟩ | ⟨h', -⟩
  · -- refused: right exactly when the replacement would not fit
    have hsize : SizeExact X (putStep s (id, v)) := by rw [putStep, heq]; exact hexact
    constructor
    · intro hlaw idx' old' hidx' hold'
      obtain rfl : idx = idx' := Option.some.inj (hidx.symm.trans hidx')
      obtain rfl : old = old' := Option.some.inj (hold.symm.trans hold')
      have := hlaw.refused.1 (by simp [heq])
      simp only [hwith] at this ⊢
      omega
    · intro hno
      refine ⟨hexact, hsize, ?_⟩
      have hroom := hno idx old hidx hold
      simp only [heq, hwith, true_iff]
      simp only at hroom
      omega
  · -- accepted: the old slice stays counted, so the tracked size is now too large
    obtain rfl : idx = idx' := Option.some.inj (hidx.symm.trans h')
    constructor
    · intro hlaw
      have hafter : s.encodedSize + (4 + v.length) =
          (consensusSerialize X { s with slices := s.slices.set idx v }).length := by
        have := hlaw.after
        rw [putStep, heq] at this
        exact this
      omega
    · intro hno
      have hroom := hno idx old hidx hold
      simp only at hroom
      omega
  · rw [hidx] at h'; cases h'

/-- one put keeps to the size law exactly when it does not replace a slice that would fit -/
theorem sizeLaw_iff {X : Ext} (hX : SizeLaws X) (s : WrbpodSlices) (p : BitVec 128 × Bytes)
    (h : Placed s ∧ SizeExact X s) : SizeLaw X s p ↔ NoReplacement s p := by
  obtain ⟨id, v⟩ := p
  cases hidx : s.index[id]? with
  | none =>
    refine iff_of_true (sizeLaw_fresh hX h.2 hidx v) ?_
    intro idx old hsome
    cases hidx.symm.trans hsome
  | some idx => exact sizeLaw_replacement hX h.1 h.2 hidx v

/-- **Tracked size.** From `new()` or any accepted bytes, along any run of puts: the tracked size is exact at every
step and puts are refused exactly when the result would not fit, if and only if no put of the run replaces a slice
(except where the replacement would not fit anyway). -/
theorem sizeLaw_run_iff {X : Ext} (hX : SizeLaws X) {s : WrbpodSlices} (h : Start X s)
    (puts : List (BitVec 128 × Bytes)) :
    (SizeExact X s ∧ Runs.Always putStep (SizeLaw X) s puts) ↔ Runs.Always putStep NoReplacement s puts := by
  have hstart : Placed s ∧ SizeExact X s := ⟨h.placed, h.sizeExact hX⟩
  rw [← Runs.always_iff (fun s p => sizeLaw_iff hX s p)
    (fun s p hs hlaw => ⟨step_placed s p hs.1, hlaw.after⟩) hstart puts]
  exact ⟨And.right, fun hlaw => ⟨hstart.2, hlaw⟩⟩

/-- two fresh IDs: both sides hold -/
theorem sizeLaw_two_puts :
    Start X0 (new X0) ∧ ((SizeExact X0 (new X0) ∧ Runs.Always putStep (SizeLaw X0) (new X0) [(1, [7]), (2, [8])]) ↔
      Runs.Always putStep NoReplacement (new X0) [(1, [7]), (2, [8])]) :=
  ⟨Start.new, sizeLaw_run_iff X0_sizeLaws Start.new [(1, [7]), (2, [8])]⟩

/-- replacing one byte by one byte: the tracked size grows by five, the encoding does not -/
theorem replacement_drifts :
    (Runs.run putStep (new X0) [(1, [7]), (1, [8])]).encodedSize = 43 ∧
    ((Runs.run putStep (new X0) [(1, [7]), (1, [8])]).consensusSerialize X0).length = 38 ∧
    ¬ SizeExact X0 (Runs.run putStep (new X0) [(1, [7]), (1, [8])]) := by
  decide

/-! ## The map law along a run -/

/-- **Map from IDs to bytes.** From `new()` or any accepted bytes, along any run of puts: every indexed ID has a slice
and every put acts as a map update, if and only if no accepted put of the run overwrites, with other bytes, a position
that a second ID reads from. -/
theorem mapLaw_run_iff {X : Ext} {s : WrbpodSlices} (h : Start X s) (puts : List (BitVec 128 × Bytes)) :
    ((∀ id ∈ s.index, (s.getSlice id).isSome = true) ∧ Runs.Always putStep MapLaw s puts) ↔
      Runs.Always putStep Unshared s puts := by
  rw [← Runs.always_iff mapLaw_iff (fun s p hs _ => step_placed s p hs) h.placed puts]
  exact ⟨And.right, fun hlaw => ⟨fun id hid => h.placed.getSlice_isSome hid, hlaw⟩⟩

/-- where no two IDs share a position at the start, every run of puts acts as a run of map updates -/
theorem mapLaw_of_exclusive {X : Ext} {s : WrbpodSlices} (h : Start X s) (hex : Exclusive s)
    (puts : List (BitVec 128 × Bytes)) : Runs.Always putStep MapLaw s puts :=
  Runs.always_of_inv (I := fun s => Placed s ∧ Exclusive s)
    (fun s p hs => ⟨step_placed s p hs.1, step_exclusive s p hs.1 hs.2⟩)
    (fun s p hs => (mapLaw_iff s p hs.1).2 (hs.2.unshared p)) ⟨h.placed, hex⟩ puts

/-- 66 bytes the decoder accepts: IDs 1 and 2, both at position 0 of two slices -/
def sharedBytes : Bytes :=
  [0] ++ beBytes 8 2 ++ beBytes 16 1 ++ beBytes 8 0 ++ beBytes 16 2 ++ beBytes 8 0 ++ beBytes 4 1 ++ [5] ++ beBytes 4 0

def sharedSlices : WrbpodSlices where
  version := 0
  slices := [[5], []]
  index := ((∅ : Std.ExtTreeMap (BitVec 128) ℕ).insert 1 0).insert 2 0
  dirty := false
  encodedSize := 66
  maxSize := 2097152

/-- the law and its condition, from the decoded value -/
theorem mapLaw_shared_start :
    Start X0 sharedSlices ∧ (((∀ id ∈ sharedSlices.index, (sharedSlices.getSlice id).isSome = true) ∧
      Runs.Always putStep MapLaw sharedSlices [(3, [9])]) ↔ Runs.Always putStep Unshared sharedSlices [(3, [9])]) := by
  have hstart : Start X0 sharedSlices := Start.decoded sharedBytes [] (by decide +kernel)
  exact ⟨hstart, mapLaw_run_iff hstart [(3, [9])]⟩

/-- putting slice 1 of the decoded value changes slice 2 -/
theorem shared_position_aliases :
    (consensusDeserialize X0).run sharedBytes = .ok (sharedSlices, []) ∧
    (sharedSlices.putSlice 1 [9]).1 = true ∧
    sharedSlices.getSlice 2 = some [5] ∧ (putStep sharedSlices (1, [9])).getSlice 2 = some [9] := by
  decide +kernel

/-! ## Round trip -/

/-- what every value built by puts satisfies, and what the round trip needs: the index points into the vector, and all
lengths fit their length prefixes -/
structure Storable (X : Ext) (s : WrbpodSlices) : Prop where
  placed : Placed s
  slices_lt : ∀ v ∈ s.slices, v.length < 2 ^ 32
  counted : 28 * s.index.size ≤ s.encodedSize
  index_lt : s.index.size < 2 ^ 64
  maxSize : s.maxSize = X.maxChunkSize.toNat

theorem storable_new (X : Ext) : Storable X (new X) := by
  refine ⟨placed_new X, ?_, ?_, ?_, rfl⟩ <;> simp [WrbpodSlices.new]

theorem step_storable {X : Ext} (s : WrbpodSlices) (p : BitVec 128 × Bytes) (h : Storable X s) :
    Storable X (putStep s p) := by
  have hplaced := step_placed s p h.placed
  have hmax := X.maxChunkSize.toNat_lt
  have hcap := h.maxSize
  obtain ⟨id, v⟩ := p
  rcases putSlice_cases s id v with ⟨-, heq⟩ | ⟨idx, hidx, hfit, heq⟩ | ⟨hnone, hfit, heq⟩
  · rw [putStep, heq]; exact h
  · rw [putStep, heq] at hplaced ⊢
    refine ⟨hplaced, fun w hw => ?_, ?_, h.index_lt, hcap⟩
    · rcases List.mem_or_eq_of_mem_set hw with hw | rfl
      · exact h.slices_lt w hw
      · omega
    · have := h.counted
      simp only; omega
  · rw [putStep, heq] at hplaced ⊢
    have hsize : (s.index.insert id s.slices.length).size ≤ s.index.size + 1 := Std.ExtTreeMap.size_insert_le
    have hcount := h.counted
    refine ⟨hplaced, fun w hw => ?_, ?_, ?_, hcap⟩
    · rcases List.mem_append.1 hw with hw | hw
      · exact h.slices_lt w hw
      · obtain rfl := List.mem_singleton.1 hw
        omega
    · simp only; omega
    · simp only; omega

theorem reads_indexEntry {X : Ext} (hX : CodecLaws X) {count : UInt64}
    {acc : Std.ExtTreeMap (BitVec 128) ℕ × ℕ} {e : BitVec 128 × ℕ} (hnew : e.1 ∉ acc.1) (hlt : e.2 < count.toNat) :
    Reads (readIndexEntry X count acc) (serializeIndexEntry X e) (acc.1.insert e.1 e.2, acc.2 + 16 + 8) := by
  have hpos : (UInt64.ofNat e.2).toNat = e.2 := by
    rw [UInt64.toNat_ofNat']
    exact Nat.mod_eq_of_lt (lt_trans hlt count.toNat_lt)
  have hsmall : ¬ UInt64.ofNat e.2 ≥ count := by
    rw [ge_iff_le, UInt64.not_le, UInt64.lt_iff_toNat_lt, hpos]
    exact hlt
  have hfresh : ¬ acc.1.contains e.1 = true := fun hc => hnew (Std.ExtTreeMap.contains_iff_mem.1 hc)
  refine (reads_u128 e.1).bind ((hX.u64 (UInt64.ofNat e.2)).map ?_)
  rw [if_neg hsmall, if_neg hfresh, hpos]
  exact Reads.pure _

theorem reads_index {X : Ext} (hX : CodecLaws X) (m : Std.ExtTreeMap (BitVec 128) ℕ) (hsize : m.size < 2 ^ 64)
    (hlt : ∀ (id : BitVec 128) (idx : ℕ), m[id]? = some idx → idx < m.size) :
    Reads (iter (readIndexEntry X (UInt64.ofNat m.size)) (UInt64.ofNat m.size).toNat (∅, 1 + 8))
      (m.toList.flatMap (serializeIndexEntry X)) (m, 9 + 24 * m.size) := by
  have hcount : (UInt64.ofNat m.size).toNat = m.size := by
    rw [UInt64.toNat_ofNat']
    exact Nat.mod_eq_of_lt hsize
  -- the loop accepts an entry as long as the entries to come are new and in range
  have hloop := Reads.iter (readIndexEntry X (UInt64.ofNat m.size)) (serializeIndexEntry X)
    (fun acc e => (acc.1.insert e.1 e.2, acc.2 + 16 + 8))
    (fun acc l => Fresh acc.1 l ∧ ∀ e ∈ l, e.2 < (UInt64.ofNat m.size).toNat)
    (fun acc e l h => ⟨reads_indexEntry hX h.1.head (h.2 e List.mem_cons_self),
      h.1.tail, fun x hx => h.2 x (List.mem_cons_of_mem e hx)⟩)
    (∅, 1 + 8) m.toList
    ⟨fresh_toList m, fun e he => by
      rw [hcount]
      exact hlt e.1 e.2 (Std.ExtTreeMap.mem_toList_iff_getElem?_eq_some.1 he)⟩
  have hfold : ∀ (l : List (BitVec 128 × ℕ)) (t : Std.ExtTreeMap (BitVec 128) ℕ) (n : ℕ),
      l.foldl (fun acc e => (acc.1.insert e.1 e.2, acc.2 + 16 + 8)) (t, n) =
        (l.foldl (fun t e => t.insert e.1 e.2) t, n + 24 * l.length) := by
    intro l
    induction l with
    | nil => simp
    | cons e l ih =>
      intro t n
      rw [List.foldl_cons, ih, List.foldl_cons, List.length_cons]
      congr 1
      omega
  rw [hfold, foldl_insert_toList, Std.ExtTreeMap.length_toList] at hloop
  rw [hcount]
  exact hloop

theorem reads_slices {X : Ext} (hX : CodecLaws X) (slices : List Bytes) (hlt : ∀ v ∈ slices, v.length < 2 ^ 32)
    (start : ℕ) :
    Reads (iter (readSlice X) slices.length ([], start)) (slices.flatMap (X.vec X.u8).enc)
      (slices, start + (slices.map fun v => 4 + v.length).sum) := by
  have hloop := Reads.iter (readSlice X) (X.vec X.u8).enc (fun acc v => (acc.1 ++ [v], acc.2 + (4 + v.length)))
    (fun _ l => ∀ v ∈ l, v.length < 2 ^ 32)
    (fun acc v l h => ⟨(hX.bytes (h v List.mem_cons_self)).map (Reads.pure _),
      fun x hx => h x (List.mem_cons_of_mem v hx)⟩) ([], start) slices hlt
  have hfold : ∀ (l done : List Bytes) (n : ℕ),
      l.foldl (fun acc v => (acc.1 ++ [v], acc.2 + (4 + v.length))) (done, n) =
        (done ++ l, n + (l.map fun v => 4 + v.length).sum) := by
    intro l
    induction l with
    | nil => simp
    | cons v l ih =>
      intro done n
      rw [List.foldl_cons, ih, List.append_assoc, List.map_cons, List.sum_cons, Nat.add_assoc]
      rfl
  rw [hfold, List.nil_append] at hloop
  exact hloop

/-- a storable value is read back from its encoding, clean, with the exact size -/
theorem Storable.reads {X : Ext} (hC : CodecLaws X) (hS : SizeLaws X) {s : WrbpodSlices} (h : Storable X s) :
    Reads (consensusDeserialize X) (s.consensusSerialize X)
      { s with dirty := false, encodedSize := (s.consensusSerialize X).length } := by
  have hcount : (UInt64.ofNat s.index.size).toNat = s.slices.length := by
    rw [UInt64.toNat_ofNat', ← h.placed.count]
    exact Nat.mod_eq_of_lt h.index_lt
  have hindex := reads_index hC s.index h.index_lt fun id idx hid =>
    lt_of_lt_of_eq (h.placed.inRange id idx hid) h.placed.count.symm
  have hslices := reads_slices hC s.slices h.slices_lt (9 + 24 * s.index.size)
  rw [← hcount] at hslices
  refine (hC.u8 s.version).bind ((hC.u64 (UInt64.ofNat s.index.size)).bind (hindex.bind (hslices.map ?_)))
  rw [length_consensusSerialize hS, h.maxSize]
  exact Reads.pure _

/-- **Round trip.** Whatever puts built the slices, decoding their encoding succeeds, consumes every byte, and gives
back the same version, index and slices, clean, with the number of bytes read as the encoded size. -/
theorem deserialize_serialize {X : Ext} (hC : CodecLaws X) (hS : SizeLaws X) (puts : List (BitVec 128 × Bytes)) :
    let s := Runs.run putStep (new X) puts
    (consensusDeserialize X).run (s.consensusSerialize X) =
      .ok ({ s with dirty := false, encodedSize := (s.consensusSerialize X).length }, []) := by
  intro s
  have hs : Storable X s := Runs.run_inv step_storable (storable_new X) puts
  have hread := hs.reads hC hS []
  rwa [List.append_nil] at hread

theorem deserialize_serialize_two_puts :
    let s := Runs.run putStep (new X0) [(1, [7]), (2, [])]
    (consensusDeserialize X0).run (s.consensusSerialize X0) =
      .ok ({ s with dirty := false, encodedSize := (s.consensusSerialize X0).length }, []) :=
  deserialize_serialize X0_codecLaws X0_sizeLaws [(1, [7]), (2, [])]

/-! ## What slices hold -/

/-- slices as puts build them, from which only what `P` allows is read -/
structure Holding (X : Ext) (P : BitVec 128 → Bytes → Prop) (s : WrbpodSlices) : Prop where
  storable : Storable X s
  exclusive : Exclusive s
  reads : ∀ id v, s.getSlice id = some v → P id v

theorem holding_new (X : Ext) (P : BitVec 128 → Bytes → Prop) : Holding X P (new X) :=
  ⟨storable_new X, exclusive_new X, fun id v h => by simp [getSlice, WrbpodSlices.new] at h⟩

theorem Holding.mono {X : Ext} {P Q : BitVec 128 → Bytes → Prop} {s : WrbpodSlices} (h : Holding X P s)
    (hPQ : ∀ id v, P id v → Q id v) : Holding X Q s :=
  ⟨h.storable, h.exclusive, fun id v hv => hPQ id v (h.reads id v hv)⟩

/-- after a put, what was put is read too, if it was accepted -/
theorem Holding.put {X : Ext} {P : BitVec 128 → Bytes → Prop} {s : WrbpodSlices} (h : Holding X P s) (id : BitVec 128)
    (v : Bytes) : Holding X (fun id' v' => P id' v' ∨ ((s.putSlice id v).1 = true ∧ id' = id ∧ v' = v))
      (s.putSlice id v).2 := by
  have hplaced := h.storable.placed
  have hlaw : MapLaw s (id, v) := (mapLaw_iff s (id, v) hplaced).2 (h.exclusive.unshared (id, v))
  refine ⟨step_storable s (id, v) h.storable, step_exclusive s (id, v) hplaced h.exclusive, fun id' v' hv => ?_⟩
  cases hput : (s.putSlice id v).1 with
  | false => exact Or.inl (h.reads id' v' ((hlaw.refused hput id').symm.trans hv))
  | true =>
    by_cases hid : id' = id
    · subst hid
      exact Or.inr ⟨rfl, rfl, Option.some.inj (hv.symm.trans (hlaw.set hput))⟩
    · exact Or.inl (h.reads id' v' ((hlaw.others hput id' hid).symm.trans hv))

theorem Holding.setDirty {X : Ext} {P : BitVec 128 → Bytes → Prop} {s : WrbpodSlices} (h : Holding X P s)
    (dirty : Bool) : Holding X P (s.setDirty dirty) :=
  ⟨⟨⟨h.storable.placed.count, h.storable.placed.inRange⟩, h.storable.slices_lt, h.storable.counted,
    h.storable.index_lt, h.storable.maxSize⟩, h.exclusive, h.reads⟩

theorem fromSlice_consensusSerialize {X : Ext} (hC : CodecLaws X) (hS : SizeLaws X) {s : WrbpodSlices}
    (h : Storable X s) : fromSlice X (s.consensusSerialize X) =
      .ok { s with dirty := false, encodedSize := (s.consensusSerialize X).length } := by
  have hread := h.reads hC hS []
  rw [List.append_nil] at hread
  rw [fromSlice, hread]
  rfl

/-- slices that are stored and read back hold the same -/
theorem Holding.decoded {X : Ext} (hC : CodecLaws X) (hS : SizeLaws X) {P : BitVec 128 → Bytes → Prop}
    {s s' : WrbpodSlices} (h : Holding X P s) (hd : fromSlice X (s.consensusSerialize X) = .ok s') :
    Holding X P s' := by
  rw [fromSlice_consensusSerialize hC hS h.storable] at hd
  obtain rfl := Except.ok.inj hd
  have hcounted : 28 * s.index.size ≤ (s.consensusSerialize X).length := by
    have hsum : s.slices.length * 4 ≤ (s.slices.map fun v => 4 + v.length).sum := by simp
    have hcount := h.storable.placed.count
    rw [length_consensusSerialize hS]
    omega
  exact ⟨⟨⟨h.storable.placed.count, h.storable.placed.inRange⟩, h.storable.slices_lt, hcounted, h.storable.index_lt,
    h.storable.maxSize⟩, h.exclusive, h.reads⟩

theorem index_eq_none {s : WrbpodSlices} (h : s.index.isEmpty = true) (id : BitVec 128) : s.index[id]? = none := by
  rw [Std.ExtTreeMap.isEmpty_iff.1 h]
  exact Std.ExtTreeMap.getElem?_empty

/-- where nothing is indexed, nothing is read -/
theorem Holding.of_isEmpty {X : Ext} {P : BitVec 128 → Bytes → Prop} {s : WrbpodSlices} (h : Holding X P s)
    (hempty : s.index.isEmpty = true) (Q : BitVec 128 → Bytes → Prop) : Holding X Q s :=
  ⟨h.storable, h.exclusive, fun id v hv => by
    rw [getSlice_of_index_none (index_eq_none hempty id)] at hv
    cases hv⟩

theorem run_of_fromSlice {X : Ext} {data : Bytes} {s : WrbpodSlices} (hd : fromSlice X data = .ok s) :
    ∃ rest, (consensusDeserialize X).run data = .ok (s, rest) := by
  unfold fromSlice at hd
  cases hr : (consensusDeserialize X).run data with
  | error e => rw [hr] at hd; cases hd
  | ok r =>
    rw [hr] at hd
    obtain rfl := Except.ok.inj hd
    exact ⟨r.2, rfl⟩

theorem holding_of_decoded {X : Ext} {data : Bytes} {s : WrbpodSlices} (hd : fromSlice X data = .ok s)
    (hempty : s.index.isEmpty = true) (P : BitVec 128 → Bytes → Prop) : Holding X P s := by
  obtain ⟨rest, hr⟩ := run_of_fromSlice hd
  have hplaced := decoded_placed hr
  have hsize : s.index.size = 0 := by
    rw [Std.ExtTreeMap.isEmpty_iff.1 hempty]
    exact Std.ExtTreeMap.size_empty
  have hslices : s.slices = [] := List.eq_nil_of_length_eq_zero (by rw [← hplaced.count, hsize])
  have hstorable : Storable X s := ⟨hplaced, by simp [hslices], by omega, by omega, decoded_maxSize hr⟩
  refine ⟨hstorable, fun id id' idx h => ?_, fun id v h => ?_⟩
  · rw [index_eq_none hempty] at h
    cases h
  · rw [getSlice_of_index_none (index_eq_none hempty id)] at h
    cases h

/-- the slices of accepted bytes can be stored again -/
theorem storable_of_decoded {X : Ext} (hC : CodecLaws X) {data : Bytes} {s : WrbpodSlices}
    (hd : fromSlice X data = .ok s) : Storable X s := by
  obtain ⟨rest, hr⟩ := run_of_fromSlice hd
  obtain ⟨hplaced, hcounted⟩ := decoded_spec hr
  have hmax := decoded_maxSize hr
  obtain ⟨version, b1, -, h1⟩ := run_bind_ok.1 hr
  obtain ⟨count, b2, -, h2⟩ := run_bind_ok.1 h1
  obtain ⟨index, b3, h3, h4⟩ := run_bind_ok.1 h2
  obtain ⟨slices, b4, h5, h6⟩ := run_bind_ok.1 h4
  obtain ⟨rfl, -⟩ := Prod.ext_iff.1 (run_pure_ok.1 h6)
  have hindex : IndexRead count.toNat (0 + count.toNat) index :=
    iter_inv (IndexRead count.toNat) readIndexEntry_indexRead ⟨by simp, by simp, rfl⟩ h3
  -- each slice was read by the codec of byte vectors, whose count has 32 bits
  have hslices := iter_inv (fun _ (acc : List Bytes × ℕ) => ∀ v ∈ acc.1, v.length < 2 ^ 32)
    (fun _ acc b acc' b' hacc hread v hv => by
      obtain ⟨v', b1, hvec, hend⟩ := run_bind_ok.1 hread
      obtain ⟨rfl, -⟩ := Prod.ext_iff.1 (run_pure_ok.1 hend)
      rcases List.mem_append.1 hv with hv | hv
      · exact hacc v hv
      · obtain rfl := List.mem_singleton.1 hv
        exact hC.vec_lt X.u8 b _ hvec) (n := 0) (by simp) h5
  have hlen : slices.1.length * 4 ≤ (slices.1.map fun v => 4 + v.length).sum := by simp
  refine ⟨hplaced, hslices, ?_, ?_, hmax⟩
  · have hcount := hplaced.count
    simp only at hcounted hcount ⊢
    omega
  · have hsize := hindex.size
    have hlt := count.toNat_lt
    simp only [Nat.zero_add] at hsize ⊢
    omega

end WrbpodSlices

end Wrb.Storage
