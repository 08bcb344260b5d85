/-
The wire format of `WrbpodSuperblock` (`src/storage/mod.rs`).

The format: a version byte, the free list (at most `WRBPOD_MAX_SLOTS` entries), the app names as byte strings in order,
and the app states in the same order. The decoder refuses names that are not ASCII; the encoder and the operations
take any name.

Results:
- `Encodable`: the names are ASCII, and names and their number fit the 32-bit counts;
- `decoded_encodable`: whatever the decoder accepts is `Encodable`;
- `Storable.reads`: an `Encodable` superblock whose lists are not too long is read back;
- `roundTrip_iff`: for a superblock built by operations from at most `WRBPOD_MAX_SLOTS` slots, being read back is the
  same as being `Encodable`;
- `accented_name_bricks`: one allocation for an app with a name outside ASCII gives a superblock that is not.
-/
import Wrb.Lib.TreeMap
import Wrb.Storage.Reference
import Wrb.Storage.Superblock

namespace Wrb.Storage

open Wrb.Wire Wrb.TreeMap

/-! ## Encoders and decoders -/

def WrbpodSlot.consensusSerialize (X : Ext) : WrbpodSlot → Bytes
  | .filled x => X.u8.enc 1 ++ X.u32.enc x
  | .free x => X.u8.enc 0 ++ X.u32.enc x

def WrbpodSlot.consensusDeserialize (X : Ext) : Decoder CodecError WrbpodSlot := do
  let filled ← X.u8.dec
  if filled = 0 then
    let slotId ← X.u32.dec
    pure (.free slotId)
  else if filled = 1 then
    let slotId ← X.u32.dec
    pure (.filled slotId)
  else
    throw (.deserializeError "Invalid fill/free byte")

def WrbpodSlot.codec (X : Ext) : Codec CodecError WrbpodSlot where
  enc := consensusSerialize X
  dec := consensusDeserialize X

def WrbpodAppState.consensusSerialize (X : Ext) (s : WrbpodAppState) : Bytes :=
  X.u8.enc s.version ++ (X.hash160.enc s.codeHash ++ (X.vec X.u32).enc s.slots)

def WrbpodAppState.consensusDeserialize (X : Ext) : Decoder CodecError WrbpodAppState := do
  let version ← X.u8.dec
  let codeHash ← X.hash160.dec
  let slots ← (X.vec X.u32).dec
  pure ⟨version, codeHash, slots⟩

/-- `str::as_bytes` -/
def asBytes (name : String) : Bytes := name.toByteArray.data.toList

/-- `str::is_ascii` -/
def isAscii (name : String) : Bool := (asBytes name).all (· < 128)

/-- `str::from_utf8` -/
def fromUtf8 (bytes : Bytes) : Option String := String.fromUTF8? ⟨bytes.toArray⟩

theorem asBytes_eq (s : String) : asBytes s = s.toList.flatMap String.utf8EncodeChar := by
  have hbytes : s.toByteArray = (s.toList.flatMap String.utf8EncodeChar).toByteArray := by
    rw [← String.utf8Encode_toList]
    rfl
  rw [asBytes, hbytes, List.toList_data_toByteArray]

theorem asBytes_append (s t : String) : asBytes (s ++ t) = asBytes s ++ asBytes t := by
  rw [asBytes_eq, asBytes_eq, asBytes_eq, String.toList_append, List.flatMap_append]

theorem toDigits_range {n : ℕ} {c : Char} (h : c ∈ Nat.toDigits 10 n) : 0x30 ≤ c.toNat ∧ c.toNat ≤ 0x39 := by
  simpa [Char.isDigit, UInt32.le_iff_toNat_le] using Nat.isDigit_of_mem_toDigits (by decide) (by decide) h

/-- numbers are written with digits, of one byte each -/
theorem asBytes_toString (n : ℕ) : asBytes (toString n) = (Nat.toDigits 10 n).map fun c => UInt8.ofNat c.toNat := by
  rw [asBytes_eq, Nat.toString_eq_ofList_toDigits, String.toList_ofList, ← List.flatMap_pure_eq_map]
  refine List.flatMap_congr fun c hc => ?_
  exact if_pos ((toDigits_range hc).2.trans (by decide))

namespace WrbpodSuperblock

def bnsNames (s : WrbpodSuperblock) : List Bytes := s.apps.toList.map fun e => asBytes e.1

def consensusSerialize (X : Ext) (s : WrbpodSuperblock) : Bytes :=
  X.u8.enc s.version ++ ((X.vec (WrbpodSlot.codec X)).enc s.slotIds ++ ((X.vec (X.vec X.u8)).enc s.bnsNames ++
    s.apps.toList.flatMap fun e => e.2.consensusSerialize X))

def readBnsName (bnsNameBytes : Bytes) : Decoder CodecError String :=
  match fromUtf8 bnsNameBytes with
  | none => throw (.deserializeError "BNS name is not UTF-8")
  | some bnsName =>
    if isAscii bnsName then pure bnsName else throw (.deserializeError "BNS name is not ASCII")

def readApp (X : Ext) (apps : Std.ExtTreeMap String WrbpodAppState) (bnsName : String) :
    Decoder CodecError (Std.ExtTreeMap String WrbpodAppState) := do
  let appState ← WrbpodAppState.consensusDeserialize X
  pure (apps.insert bnsName appState)

def consensusDeserialize (X : Ext) : Decoder CodecError WrbpodSuperblock := do
  let version ← X.u8.dec
  let slotIds ← X.readNextAtMost (WrbpodSlot.codec X) WRBPOD_MAX_SLOTS
  let bnsNamesBytes ← (X.vec (X.vec X.u8)).dec
  let bnsNames ← bnsNamesBytes.mapM readBnsName
  let apps ← bnsNames.foldlM (readApp X) ∅
  pure ⟨version, slotIds, apps⟩

/-- decode a superblock at the start of `data`; bytes after it are ignored -/
def fromBytes (X : Ext) (data : Bytes) : Except CodecError WrbpodSuperblock :=
  ((consensusDeserialize X).run data).map Prod.fst

/-! ## What the decoder accepts -/

/-- what the decoder demands of the apps -/
structure Encodable (s : WrbpodSuperblock) : Prop where
  ascii : ∀ name ∈ s.apps, isAscii name = true
  name_lt : ∀ name ∈ s.apps, (asBytes name).length < 2 ^ 32
  apps_lt : s.apps.size < 2 ^ 32

theorem asBytes_of_fromUtf8 {bytes : Bytes} {name : String} (h : fromUtf8 bytes = some name) :
    asBytes name = bytes := by
  unfold fromUtf8 String.fromUTF8? at h
  split_ifs at h
  obtain rfl := Option.some.inj h
  rfl

theorem fromUtf8_asBytes (name : String) : fromUtf8 (asBytes name) = some name := by
  unfold fromUtf8 String.fromUTF8? asBytes
  rw [dif_pos (by simpa using name.isValidUTF8)]
  rfl

/-- an accepted name is ASCII, and its bytes are the ones read -/
theorem readBnsName_ok {bytes b b' : Bytes} {name : String} (h : (readBnsName bytes).run b = .ok (name, b')) :
    isAscii name = true ∧ asBytes name = bytes := by
  unfold readBnsName at h
  cases hutf : fromUtf8 bytes with
  | none =>
    simp only [hutf] at h
    cases h
  | some name' =>
    simp only [hutf] at h
    split_ifs at h with hascii
    · obtain ⟨rfl, -⟩ := Prod.ext_iff.1 (run_pure_ok.1 h)
      exact ⟨hascii, asBytes_of_fromUtf8 hutf⟩
    · cases h

/-- reading the app states gives no app that was not named -/
theorem readApps_ok {X : Ext} {names : List String} {b : Bytes} {r : Std.ExtTreeMap String WrbpodAppState × Bytes}
    (h : (names.foldlM (readApp X) ∅).run b = .ok r) : ∀ name ∈ r.1, name ∈ names := by
  refine foldlM_inv (fun m => ∀ name ∈ m, name ∈ names) ?_ (fun name h => absurd h Std.ExtTreeMap.not_mem_empty) h
  intro m name hname b1 m' b2 hm hr
  obtain ⟨st, b3, -, h1⟩ := run_bind_ok.1 hr
  obtain ⟨rfl, -⟩ := Prod.ext_iff.1 (run_pure_ok.1 h1)
  intro x hx
  rcases Std.ExtTreeMap.mem_insert.1 hx with heq | hx
  · obtain rfl : name = x := by simpa using heq
    exact hname
  · exact hm x hx

theorem decoded_encodable {X : Ext} (hX : CodecLaws X) {b b' : Bytes} {s : WrbpodSuperblock}
    (h : (consensusDeserialize X).run b = .ok (s, b')) : Encodable s := by
  obtain ⟨version, b1, -, h1⟩ := run_bind_ok.1 h
  obtain ⟨slotIds, b2, -, h2⟩ := run_bind_ok.1 h1
  obtain ⟨bytes, b3, h3, h4⟩ := run_bind_ok.1 h2
  obtain ⟨names, b4, h5, h6⟩ := run_bind_ok.1 h4
  obtain ⟨apps, b5, h7, h8⟩ := run_bind_ok.1 h6
  obtain ⟨rfl, -⟩ := Prod.ext_iff.1 (run_pure_ok.1 h8)
  obtain ⟨hlen, hnames, -⟩ := mapM_ok h5
  have hcount : bytes.length < 2 ^ 32 := hX.vec_lt _ _ _ h3
  have hsub := readApps_ok h7
  have hread : ∀ name ∈ apps, isAscii name = true ∧ asBytes name ∈ bytes := by
    intro name hname
    obtain ⟨x, hx, b₁, b₂, hr⟩ := hnames name (hsub name hname)
    obtain ⟨hascii, rfl⟩ := readBnsName_ok hr
    exact ⟨hascii, hx⟩
  refine ⟨fun name hname => (hread name hname).1, fun name hname => ?_, ?_⟩
  · obtain ⟨b₁, b₂, hr⟩ := hX.vec_items _ _ _ h3 _ (hread name hname).2
    exact hX.vec_lt _ _ _ hr
  · have hle : apps.size ≤ names.length := size_le_of_subset hsub
    simp only at hlen ⊢
    omega

/-- the lists of slots are not too long -/
structure Sized (s : WrbpodSuperblock) : Prop where
  slotIds_le : s.slotIds.length ≤ WRBPOD_MAX_SLOTS.toNat
  slots_lt : ∀ (app : String) (appState : WrbpodAppState), s.apps[app]? = some appState →
    appState.slots.length < 2 ^ 32

theorem decoded_sized {X : Ext} (hX : CodecLaws X) {b b' : Bytes} {s : WrbpodSuperblock}
    (h : (consensusDeserialize X).run b = .ok (s, b')) : Sized s := by
  obtain ⟨version, b1, -, h1⟩ := run_bind_ok.1 h
  obtain ⟨slotIds, b2, h2, h3⟩ := run_bind_ok.1 h1
  obtain ⟨bytes, b3, -, h4⟩ := run_bind_ok.1 h3
  obtain ⟨names, b4, -, h5⟩ := run_bind_ok.1 h4
  obtain ⟨apps, b5, h6, h7⟩ := run_bind_ok.1 h5
  obtain ⟨rfl, -⟩ := Prod.ext_iff.1 (run_pure_ok.1 h7)
  refine ⟨hX.atMost_le _ _ _ _ h2, ?_⟩
  refine foldlM_inv (fun m => ∀ (app : String) (st : WrbpodAppState), m[app]? = some st → st.slots.length < 2 ^ 32)
    (fun m name _ c m' c' hm hr => ?_) (fun app st hst => by simp at hst) h6
  obtain ⟨st, c1, h8, h9⟩ := run_bind_ok.1 hr
  obtain ⟨rfl, -⟩ := Prod.ext_iff.1 (run_pure_ok.1 h9)
  obtain ⟨ver, c2, -, h10⟩ := run_bind_ok.1 h8
  obtain ⟨hash, c3, -, h11⟩ := run_bind_ok.1 h10
  obtain ⟨slots, c4, h12, h13⟩ := run_bind_ok.1 h11
  obtain ⟨rfl, -⟩ := Prod.ext_iff.1 (run_pure_ok.1 h13)
  intro app st' hst
  rw [getElem?_apps_insert] at hst
  split_ifs at hst
  · obtain rfl := Option.some.inj hst
    exact hX.vec_lt _ _ _ h12
  · exact hm app st' hst

/-! ## Round trip -/

theorem slot_roundTrips {X : Ext} (hX : CodecLaws X) (slot : WrbpodSlot) : (WrbpodSlot.codec X).RoundTrips slot := by
  cases slot with
  | filled x => exact (hX.u8 1).bind ((hX.u32 x).map (Reads.pure _))
  | free x => exact (hX.u8 0).bind ((hX.u32 x).map (Reads.pure _))

theorem reads_appState {X : Ext} (hX : CodecLaws X) {st : WrbpodAppState} (h : st.slots.length < 2 ^ 32) :
    Reads (WrbpodAppState.consensusDeserialize X) (st.consensusSerialize X) st :=
  (hX.u8 st.version).bind ((hX.hash160 st.codeHash).bind
    ((hX.vec X.u32 st.slots h fun x _ => hX.u32 x).map (Reads.pure _)))

theorem reads_bnsName {name : String} (h : isAscii name = true) : Reads (readBnsName (asBytes name)) [] name := by
  unfold readBnsName
  rw [fromUtf8_asBytes]
  simp only [h, if_true]
  exact Reads.pure name

theorem reads_apps {X : Ext} (hX : CodecLaws X) (m : Std.ExtTreeMap String WrbpodAppState)
    (h : ∀ (app : String) (st : WrbpodAppState), m[app]? = some st → st.slots.length < 2 ^ 32) :
    Reads ((m.toList.map Prod.fst).foldlM (readApp X) ∅) (m.toList.flatMap fun e => e.2.consensusSerialize X) m := by
  have hstep : ∀ t, ∀ e ∈ m.toList, Reads (readApp X t e.1) (e.2.consensusSerialize X) (t.insert e.1 e.2) := by
    intro t e he
    have hlt := h e.1 e.2 (Std.ExtTreeMap.mem_toList_iff_getElem?_eq_some.1 he)
    exact (reads_appState hX hlt).map (Reads.pure _)
  have hloop := Reads.foldlM ∅ m.toList hstep
  rw [foldl_insert_toList] at hloop
  rw [List.foldlM_map]
  exact hloop

theorem mem_apps_of_mem_toList {s : WrbpodSuperblock} {e : String × WrbpodAppState} (he : e ∈ s.apps.toList) :
    e.1 ∈ s.apps := by
  obtain ⟨name, st⟩ := e
  rw [← Std.ExtTreeMap.isSome_getElem?_iff_mem, Std.ExtTreeMap.mem_toList_iff_getElem?_eq_some.1 he]
  rfl

/-- all lengths fit their counts; the names need not be ASCII -/
structure Fits (s : WrbpodSuperblock) : Prop where
  name_lt : ∀ name ∈ s.apps, (asBytes name).length < 2 ^ 32
  apps_lt : s.apps.size < 2 ^ 32
  sized : Sized s

instance (s : WrbpodSuperblock) : Decidable (Fits s) :=
  decidable_of_iff ((∀ e ∈ s.apps.toList, (asBytes e.1).length < 2 ^ 32 ∧ e.2.slots.length < 2 ^ 32) ∧
      s.apps.size < 2 ^ 32 ∧ s.slotIds.length ≤ WRBPOD_MAX_SLOTS.toNat)
    ⟨fun ⟨hall, happs, hslots⟩ =>
      ⟨fun name hname => by
        obtain ⟨st, hst⟩ := Option.isSome_iff_exists.1 (Std.ExtTreeMap.isSome_getElem?_iff_mem.2 hname)
        exact (hall _ (Std.ExtTreeMap.mem_toList_iff_getElem?_eq_some.2 hst)).1,
      happs, hslots, fun app st hst => (hall _ (Std.ExtTreeMap.mem_toList_iff_getElem?_eq_some.2 hst)).2⟩,
    fun h => ⟨fun e he => ⟨h.name_lt e.1 (mem_apps_of_mem_toList he),
      h.sized.slots_lt e.1 e.2 (Std.ExtTreeMap.mem_toList_iff_getElem?_eq_some.1 he)⟩, h.apps_lt, h.sized.slotIds_le⟩⟩

theorem bnsNames_roundTrips {X : Ext} (hX : CodecLaws X) {s : WrbpodSuperblock} (h : Fits s) :
    (X.vec (X.vec X.u8)).RoundTrips s.bnsNames := by
  refine hX.vec _ _ ?_ fun bytes hbytes => ?_
  · simpa [bnsNames] using h.apps_lt
  · obtain ⟨e, he, rfl⟩ := List.mem_map.1 hbytes
    exact hX.bytes (h.name_lt e.1 (mem_apps_of_mem_toList he))

/-- an encodable superblock is read back from its encoding -/
theorem Encodable.reads {X : Ext} (hX : CodecLaws X) {s : WrbpodSuperblock} (h : Encodable s) (hs : Sized s) :
    Reads (consensusDeserialize X) (s.consensusSerialize X) s := by
  have hslots := hX.atMost (WrbpodSlot.codec X) WRBPOD_MAX_SLOTS s.slotIds hs.slotIds_le
    fun slot _ => slot_roundTrips hX slot
  have hcheck : Reads (s.bnsNames.mapM readBnsName) [] (s.apps.toList.map Prod.fst) := by
    rw [bnsNames, List.mapM_map]
    exact Reads.mapM fun e he => reads_bnsName (h.ascii e.1 (mem_apps_of_mem_toList he))
  exact (hX.u8 s.version).bind (hslots.bind ((bnsNames_roundTrips hX ⟨h.name_lt, h.apps_lt, hs⟩).bind
    (Reads.bind (b := []) hcheck
    ((reads_apps hX s.apps hs.slots_lt).map (Reads.pure _)))))

theorem fromBytes_consensusSerialize {X : Ext} (hX : CodecLaws X) {s : WrbpodSuperblock} (h : Encodable s)
    (hs : Sized s) : fromBytes X (s.consensusSerialize X) = .ok s := by
  have hread := h.reads hX hs []
  rw [List.append_nil] at hread
  rw [fromBytes, hread]
  rfl

theorem run_of_fromBytes {X : Ext} {data : Bytes} {s : WrbpodSuperblock} (h : fromBytes X data = .ok s) :
    ∃ rest, (consensusDeserialize X).run data = .ok (s, rest) := by
  unfold fromBytes at h
  cases hr : (consensusDeserialize X).run data with
  | error e =>
    rw [hr] at h
    cases h
  | ok r =>
    rw [hr] at h
    obtain rfl := Except.ok.inj h
    exact ⟨r.2, rfl⟩

theorem encodable_of_fromBytes {X : Ext} (hX : CodecLaws X) {data : Bytes} {s : WrbpodSuperblock}
    (h : fromBytes X data = .ok s) : Encodable s := by
  obtain ⟨rest, hr⟩ := run_of_fromBytes h
  exact decoded_encodable hX hr

/-- what a superblock needs to be read back -/
structure Readable (s : WrbpodSuperblock) : Prop where
  encodable : Encodable s
  sized : Sized s

theorem readable_of_fromBytes {X : Ext} (hX : CodecLaws X) {data : Bytes} {s : WrbpodSuperblock}
    (h : fromBytes X data = .ok s) : Readable s := by
  obtain ⟨rest, hr⟩ := run_of_fromBytes h
  exact ⟨decoded_encodable hX hr, decoded_sized hX hr⟩

/-- an encoding whose lengths fit is read as nothing else than what was encoded -/
theorem eq_of_fromBytes {X : Ext} (hX : CodecLaws X) {s s' : WrbpodSuperblock} (h : Fits s)
    (hd : fromBytes X (s.consensusSerialize X) = .ok s') : s' = s := by
  obtain ⟨rest, hr⟩ := run_of_fromBytes hd
  obtain ⟨version, b1, h1, h2⟩ := run_bind_ok.1 hr
  obtain ⟨-, rfl⟩ := Prod.mk.inj ((hX.u8 s.version).eq h1)
  obtain ⟨slotIds, b2, h3, h4⟩ := run_bind_ok.1 h2
  have hslots := hX.atMost (WrbpodSlot.codec X) WRBPOD_MAX_SLOTS s.slotIds h.sized.slotIds_le
    fun slot _ => slot_roundTrips hX slot
  obtain ⟨-, rfl⟩ := Prod.mk.inj (hslots.eq h3)
  obtain ⟨names, b3, h5, h6⟩ := run_bind_ok.1 h4
  obtain ⟨rfl, rfl⟩ := Prod.mk.inj ((bnsNames_roundTrips hX h).eq h5)
  obtain ⟨names', b4, h7, -⟩ := run_bind_ok.1 h6
  -- every name was accepted, so the encoding is read back
  have hencodable : Encodable s := by
    refine ⟨fun name hname => ?_, h.name_lt, h.apps_lt⟩
    obtain ⟨st, hst⟩ := Option.isSome_iff_exists.1 (Std.ExtTreeMap.isSome_getElem?_iff_mem.2 hname)
    have hmem : (name, st) ∈ s.apps.toList := Std.ExtTreeMap.mem_toList_iff_getElem?_eq_some.2 hst
    obtain ⟨y, b₁, b₂, hread⟩ := (mapM_ok h7).2.2 (asBytes name) (List.mem_map.2 ⟨_, hmem, rfl⟩)
    obtain ⟨hascii, hbytes⟩ := readBnsName_ok hread
    simpa [isAscii, hbytes] using hascii
  exact Except.ok.inj (hd.symm.trans (fromBytes_consensusSerialize hX hencodable h.sized))

/-! ## Superblocks built by operations -/

/-- how many slots the apps list, over all apps -/
def listedCount (s : WrbpodSuperblock) : ℕ := (s.apps.toList.map fun e => e.2.slots.length).sum

/-- no more slots are listed than filled; this holds whether or not the slot IDs are distinct -/
structure Counted (n : ℕ) (s : WrbpodSuperblock) : Prop where
  length : s.slotIds.length = n
  listed_le : listedCount s ≤ filledCount s.slotIds

theorem counted_new (ids : List UInt32) : Counted ids.length (new ids) := by
  have hnil : (∅ : Std.ExtTreeMap String WrbpodAppState).toList = [] := Std.ExtTreeMap.toList_eq_nil_iff.2 rfl
  refine ⟨by simp [new], ?_⟩
  simp [listedCount, new, hnil]

theorem step_counted {n : ℕ} (s : WrbpodSuperblock) (op : Op) (h : Counted n s) : Counted n (step s op) := by
  have hle := h.listed_le
  cases op with
  | allocate app hash num =>
    rcases allocateSlots_cases s app hash num with heq | ⟨l, slots, hfills, -, heq⟩
    · simp only [step, Op.apply, heq]; exact h
    · simp only [step, Op.apply, heq]
      have hlen : l.length = s.slotIds.length := by simpa using congrArg List.length hfills.ids
      refine ⟨hlen.trans h.length, ?_⟩
      have hsum := sum_insert (fun e => e.2.slots.length) s.apps app (withSlots s.apps[app]? hash slots)
      have hcount := hfills.count
      simp only [listedCount] at hle ⊢
      cases hold : s.apps[app]? with
      | none =>
        simp only [hold, withSlots, Option.elim_none] at hsum ⊢
        omega
      | some old =>
        simp only [hold, withSlots, Option.elim_some, List.length_append] at hsum ⊢
        omega
  | delete app =>
    rcases deleteSlots_cases s app with ⟨-, heq⟩ | ⟨st, happ, heq⟩
    · simp only [step, Op.apply, heq]; exact h
    · simp only [step, Op.apply, heq]
      have hlen := congrArg List.length (map_slotId_freeSlots st.slots s.slotIds)
      rw [List.length_map, List.length_map] at hlen
      refine ⟨hlen.trans h.length, ?_⟩
      have hsum := sum_erase (fun e => e.2.slots.length) s.apps app
      have hcount := filledCount_freeSlots st.slots s.slotIds
      simp only [happ, Option.elim_some] at hsum
      simp only [listedCount] at hle ⊢
      omega

theorem Counted.sized {n : ℕ} {s : WrbpodSuperblock} (h : Counted n s) (hn : n ≤ WRBPOD_MAX_SLOTS.toNat) : Sized s := by
  have hmax : WRBPOD_MAX_SLOTS.toNat = 4096 := rfl
  refine ⟨h.length.trans_le hn, fun app st hst => ?_⟩
  have hsum := sum_erase (fun e => e.2.slots.length) s.apps app
  have hfilled : filledCount s.slotIds ≤ s.slotIds.length := List.countP_le_length
  have hle := h.listed_le
  have hlen := h.length
  simp only [hst, Option.elim_some] at hsum
  simp only [listedCount] at hle
  omega

theorem run_sized {ids : List UInt32} (hids : ids.length ≤ WRBPOD_MAX_SLOTS.toNat) (ops : List Op) :
    Sized (Runs.run step (new ids) ops) :=
  (Runs.run_inv step_counted (counted_new ids) ops).sized hids

/-- the apps of an owned superblock list no more slots than there are -/
theorem Owned.sized {ids : List UInt32} {s : WrbpodSuperblock} (h : Owned ids s)
    (hids : ids.length ≤ WRBPOD_MAX_SLOTS.toNat) : Sized s := by
  have hmax : WRBPOD_MAX_SLOTS.toNat = 4096 := rfl
  have hlen : s.slotIds.length = ids.length := by simpa using congrArg List.length h.ids
  refine ⟨hlen.trans_le hids, fun app st hst => ?_⟩
  have hsub : st.slots ⊆ ids := fun id hid => h.mem_ids ⟨st, hst, hid⟩
  have hle := ((h.nodup app st hst).subperm hsub).length_le
  omega

/-- an operation on an owned superblock gives one that fits, as long as its app's name and one more app fit -/
theorem Owned.fits_apply {ids : List UInt32} (hnodup : ids.Nodup) (hids : ids.length ≤ WRBPOD_MAX_SLOTS.toNat)
    {s : WrbpodSuperblock} (h : Owned ids s) (hnames : ∀ name ∈ s.apps, (asBytes name).length < 2 ^ 32)
    (happs : s.apps.size + 1 < 2 ^ 32) {op : Op} (hop : (asBytes op.appName).length < 2 ^ 32) :
    Fits (op.apply s).2 := by
  refine ⟨fun name hname => ?_, lt_of_le_of_lt (size_apps_apply op s) happs, (step_owned hnodup s op h).sized hids⟩
  rcases mem_apps_apply hname with hname | rfl
  · exact hnames name hname
  · exact hop

/-- **Round trip.** A superblock built by any operations from at most `WRBPOD_MAX_SLOTS` slots is read back from its
encoding if and only if its app names are ASCII, and the names and their number fit the 32-bit counts. -/
theorem roundTrip_iff {X : Ext} (hX : CodecLaws X) (ids : List UInt32) (hids : ids.length ≤ WRBPOD_MAX_SLOTS.toNat)
    (ops : List Op) :
    fromBytes X ((Runs.run step (new ids) ops).consensusSerialize X) = .ok (Runs.run step (new ids) ops) ↔
      Encodable (Runs.run step (new ids) ops) :=
  ⟨encodable_of_fromBytes hX, fun h => fromBytes_consensusSerialize hX h (run_sized hids ops)⟩

theorem roundTrip_one_app :
    CodecLaws X0 ∧ ([1, 2] : List UInt32).length ≤ WRBPOD_MAX_SLOTS.toNat ∧
    (fromBytes X0 ((Runs.run step (new [1, 2]) [.allocate "a" 0 1]).consensusSerialize X0) =
        .ok (Runs.run step (new [1, 2]) [.allocate "a" 0 1]) ↔
      Encodable (Runs.run step (new [1, 2]) [.allocate "a" 0 1])) :=
  ⟨X0_codecLaws, by decide, roundTrip_iff X0_codecLaws [1, 2] (by decide) [.allocate "a" 0 1]⟩

/-- one slot for the app "é": the superblock encodes, and the encoding is refused -/
theorem accented_name_bricks :
    ((new [1]).allocateSlots "é" 0 1).1 = true ∧
    fromBytes X0 ((Runs.run step (new [1]) [.allocate "é" 0 1]).consensusSerialize X0) =
      .error (.deserializeError "BNS name is not ASCII") := by
  decide +kernel

end WrbpodSuperblock

end Wrb.Storage
