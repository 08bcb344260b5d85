/-
The data model of wrbpods (`src/storage/mod.rs`), and what the storage layer takes from code outside the repository.

Bottom layer: the structures of the source under the source's names. Fixed-width integers keep their width: `u8`, `u32`
and `u64` are `UInt8`, `UInt32` and `UInt64`, a `u128` slice ID is a `BitVec 128`; a `usize` position and the `u64` byte
counters of `WrbpodSlices` are natural numbers. `BTreeMap` and `HashMap` are extensional ordered maps.

`Ext` holds the functions of `stacks_common` and `libstackerdb` that the source calls: they are parameters, and what the
results rely on is named in `SizeLaws`, `CodecLaws` and `SignLaws`.
-/
import Mathlib.Tactic
import Std.Data.ExtTreeMap
import Wrb.Lib.Wire

namespace Wrb.Storage

open Wrb.Wire

/-! ## Types of `stacks_common` and `libstackerdb` -/

abbrev Hash160 := BitVec 160
abbrev Sha512Trunc256Sum := BitVec 256
abbrev MessageSignature := BitVec 520
abbrev Secp256k1PrivateKey := BitVec 256
abbrev StacksPublicKey := BitVec 264

/-- `stacks_common::codec::Error`, as far as the storage layer builds or sees it -/
inductive CodecError where
  | serializeError (msg : String)
  | deserializeError (msg : String)
  | readError (msg : String)
deriving DecidableEq, Repr

/-- the error `SlotMetadata::verify` answers for a malformed signature -/
inductive NetError where
  | verifyingError (msg : String)
deriving DecidableEq, Repr

structure StacksAddress where
  version : UInt8
  bytes : Hash160
deriving DecidableEq, Repr

structure SlotMetadata where
  slotId : UInt32
  slotVersion : UInt32
  dataHash : Sha512Trunc256Sum
  signature : MessageSignature
deriving DecidableEq, Repr

/-- no chunk was written to the slot yet -/
def SlotMetadata.isEmpty (md : SlotMetadata) : Bool := md.slotVersion == 0 && md.dataHash == 0

structure StackerDBChunkData where
  slotId : UInt32
  slotVersion : UInt32
  sig : MessageSignature
  data : Bytes
deriving DecidableEq, Repr

structure StackerDBChunkAckData where
  accepted : Bool
  reason : Option String
  metadata : Option SlotMetadata
  code : Option UInt32
deriving DecidableEq, Repr

/-- functions and constants of `stacks_common` and `libstackerdb` that the source calls -/
structure Ext where
  /-- `libstackerdb::STACKERDB_MAX_CHUNK_SIZE` -/
  maxChunkSize : UInt32
  u8 : Codec CodecError UInt8
  u32 : Codec CodecError UInt32
  u64 : Codec CodecError UInt64
  hash160 : Codec CodecError Hash160
  /-- the length-prefixed codec of `Vec<T>` -/
  vec : {α : Type} → Codec CodecError α → Codec CodecError (List α)
  readNextAtMost : {α : Type} → Codec CodecError α → UInt32 → Decoder CodecError (List α)
  /-- `Sha512Trunc256Sum::from_data` -/
  fromData : Bytes → Sha512Trunc256Sum
  /-- `StacksAddress::p2pkh(mainnet, &StacksPublicKey::from_private(key))` -/
  p2pkh : Bool → Secp256k1PrivateKey → StacksAddress
  /-- the signature of `StackerDBChunkData::sign`, over slot ID, slot version and data hash -/
  sign : Secp256k1PrivateKey → UInt32 → UInt32 → Sha512Trunc256Sum → Option MessageSignature
  /-- `SlotMetadata::verify` -/
  verify : SlotMetadata → StacksAddress → Except NetError Bool
  recoverToPubkey : Sha512Trunc256Sum → MessageSignature → Option StacksPublicKey
  /-- how addresses, metadata and errors are written in error messages -/
  showAddress : StacksAddress → String
  showMetadata : SlotMetadata → String
  showNetError : NetError → String

/-- how long the encodings of `stacks_common` are: fixed-width integers, and a four-byte count before a
vector's items -/
structure SizeLaws (X : Ext) : Prop where
  u8 : ∀ v, (X.u8.enc v).length = 1
  u64 : ∀ v, (X.u64.enc v).length = 8
  vec : ∀ {α : Type} (c : Codec CodecError α) (xs : List α),
    ((X.vec c).enc xs).length = 4 + (xs.map fun x => (c.enc x).length).sum

theorem SizeLaws.bytes {X : Ext} (hX : SizeLaws X) (v : Bytes) : ((X.vec X.u8).enc v).length = 4 + v.length := by
  simp [hX.vec, hX.u8]

/-- the codecs of `stacks_common` round-trip, a vector as long as its length fits the 32-bit count; a vector that was
read is no longer than its count allows, and its items were read by the codec of the items -/
structure CodecLaws (X : Ext) : Prop where
  u8 : ∀ v, X.u8.RoundTrips v
  u32 : ∀ v, X.u32.RoundTrips v
  u64 : ∀ v, X.u64.RoundTrips v
  hash160 : ∀ v, X.hash160.RoundTrips v
  vec : ∀ {α : Type} (c : Codec CodecError α) (xs : List α), xs.length < 2 ^ 32 → (∀ x ∈ xs, c.RoundTrips x) →
    (X.vec c).RoundTrips xs
  vec_lt : ∀ {α : Type} (c : Codec CodecError α) (b : Bytes) (r : List α × Bytes),
    (X.vec c).dec.run b = .ok r → r.1.length < 2 ^ 32
  vec_items : ∀ {α : Type} (c : Codec CodecError α) (b : Bytes) (r : List α × Bytes),
    (X.vec c).dec.run b = .ok r → ∀ x ∈ r.1, ∃ b₁ b₂, c.dec.run b₁ = .ok (x, b₂)
  atMost : ∀ {α : Type} (c : Codec CodecError α) (max : UInt32) (xs : List α), xs.length ≤ max.toNat →
    (∀ x ∈ xs, c.RoundTrips x) → Reads (X.readNextAtMost c max) ((X.vec c).enc xs) xs
  atMost_le : ∀ {α : Type} (c : Codec CodecError α) (max : UInt32) (b : Bytes) (r : List α × Bytes),
    (X.readNextAtMost c max).run b = .ok r → r.1.length ≤ max.toNat

theorem CodecLaws.bytes {X : Ext} (hX : CodecLaws X) {v : Bytes} (h : v.length < 2 ^ 32) :
    (X.vec X.u8).RoundTrips v :=
  hX.vec X.u8 v h fun x _ => hX.u8 x

/-- a chunk signed with a key verifies for every address of that key, and no data hashes to the all-zero digest that
stands for "no chunk" -/
structure SignLaws (X : Ext) : Prop where
  verify_sign : ∀ key id version hash sig addr, X.sign key id version hash = some sig →
    addr.bytes = (X.p2pkh true key).bytes → X.verify ⟨id, version, hash, sig⟩ addr = .ok true
  fromData_ne_zero : ∀ data, X.fromData data ≠ 0

/-- a written slot is not taken for an empty one -/
theorem SignLaws.isEmpty_eq {X : Ext} (hS : SignLaws X) (id version : UInt32) (data : Bytes) (sig : MessageSignature) :
    SlotMetadata.isEmpty ⟨id, version, X.fromData data, sig⟩ = false := by
  have hne : (X.fromData data == 0) = false := beq_eq_false_iff_ne.2 (hS.fromData_ne_zero data)
  rw [SlotMetadata.isEmpty, hne, Bool.and_false]

/-! ## `src/storage/mod.rs` -/

def WRBPOD_SLICES_VERSION : UInt8 := 0
def WRBPOD_SUPERBLOCK_VERSION : UInt8 := 0
def WRBPOD_APP_STATE_VERSION : UInt8 := 0
def WRBPOD_MAX_SLOTS : UInt32 := 4096

/-- slice IDs are ordered as numbers -/
instance transOrdSliceId : Std.TransOrd (BitVec 128) := BitVec.instTransOrd

/-- chunks that make up a slot in a StackerDB -/
structure WrbpodSlices where
  version : UInt8
  slices : List Bytes
  /-- maps a slice ID to its position in `slices` -/
  index : Std.ExtTreeMap (BitVec 128) ℕ
  dirty : Bool
  encodedSize : ℕ
  maxSize : ℕ
deriving DecidableEq

/-- control state for an application -/
structure WrbpodAppState where
  version : UInt8
  codeHash : Hash160
  slots : List UInt32
deriving DecidableEq, Repr

/-- an entry of the free list -/
inductive WrbpodSlot where
  | filled (id : UInt32)
  | free (id : UInt32)
deriving DecidableEq, Repr

/-- control structure for a wrbpod -/
structure WrbpodSuperblock where
  version : UInt8
  slotIds : List WrbpodSlot
  apps : Std.ExtTreeMap String WrbpodAppState
deriving DecidableEq

namespace WrbpodSlot

def slotId : WrbpodSlot → UInt32
  | filled x => x
  | free x => x

def isFree : WrbpodSlot → Bool
  | filled _ => false
  | free _ => true

def asFilled (s : WrbpodSlot) : WrbpodSlot := filled s.slotId

def asFree (s : WrbpodSlot) : WrbpodSlot := free s.slotId

@[simp] theorem slotId_filled (x : UInt32) : (filled x).slotId = x := rfl
@[simp] theorem slotId_free (x : UInt32) : (free x).slotId = x := rfl
@[simp] theorem slotId_asFilled (s : WrbpodSlot) : s.asFilled.slotId = s.slotId := rfl
@[simp] theorem slotId_asFree (s : WrbpodSlot) : s.asFree.slotId = s.slotId := rfl

theorem isFree_iff {s : WrbpodSlot} : s.isFree = true ↔ s = free s.slotId := by
  cases s <;> simp [isFree]

end WrbpodSlot

end Wrb.Storage
