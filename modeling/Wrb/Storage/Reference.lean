/-
A concrete `Ext`, for witnesses and counterexamples.

The codecs are the formats of `stacks_common`: big-endian integers, raw hashes, and a big-endian `u32` count before the
items of a vector. Hash, signature and key derivation are stand-ins with the interface of the real ones: the digest is
never zero, a signature covers slot ID, slot version and data hash, verifying answers `true` for the signer's address,
`false` for another one and an error for a signature that is not of this digest.
-/
import Wrb.Storage.Basic

namespace Wrb.Storage

open Wrb.Wire

namespace Reference

/-- a fixed-width big-endian codec -/
def be {α : Type} (width : ℕ) (toNat : α → ℕ) (ofNat : ℕ → α) : Codec CodecError α where
  enc v := beBytes width (toNat v)
  dec := do
    let b ← readExact (.readError "failed to fill whole buffer") width
    pure (ofNat (beNat b))

/-- the item count before a vector -/
def count : Codec CodecError ℕ := be 4 id id

def vec {α : Type} (c : Codec CodecError α) : Codec CodecError (List α) where
  enc xs := count.enc xs.length ++ xs.flatMap c.enc
  dec := do readMany c.dec (← count.dec)

def readNextAtMost {α : Type} (c : Codec CodecError α) (max : UInt32) : Decoder CodecError (List α) := do
  let n ← count.dec
  if n > max.toNat then throw (.deserializeError "Array has too many items") else readMany c.dec n

def fromData (data : Bytes) : Sha512Trunc256Sum :=
  BitVec.ofNat 256 (2 * data.foldl (fun acc x => (acc * 1000003 + x.toNat + 1) % 2 ^ 200) 7 + 1)

def authDigest (slotId slotVersion : UInt32) (dataHash : Sha512Trunc256Sum) : Sha512Trunc256Sum :=
  fromData (beBytes 4 slotId.toNat ++ beBytes 4 slotVersion.toNat ++ beBytes 32 dataHash.toNat)

def p2pkh (mainnet : Bool) (key : Secp256k1PrivateKey) : StacksAddress := ⟨if mainnet then 22 else 26, key.setWidth 160⟩

def sign (key : Secp256k1PrivateKey) (slotId slotVersion : UInt32) (dataHash : Sha512Trunc256Sum) :
    Option MessageSignature :=
  some (BitVec.ofNat 520 ((p2pkh true key).bytes.toNat * 2 ^ 256 + (authDigest slotId slotVersion dataHash).toNat))

def verify (md : SlotMetadata) (addr : StacksAddress) : Except NetError Bool :=
  if md.signature.toNat % 2 ^ 256 = (authDigest md.slotId md.slotVersion md.dataHash).toNat then
    .ok (md.signature.toNat / 2 ^ 256 == addr.bytes.toNat)
  else .error (.verifyingError "malformed signature")

def recoverToPubkey (digest : Sha512Trunc256Sum) (sig : MessageSignature) : Option StacksPublicKey :=
  if sig.toNat % 2 ^ 256 = digest.toNat then some (BitVec.ofNat 264 (sig.toNat / 2 ^ 256)) else none

theorem be_roundTrips {α : Type} {width : ℕ} {toNat : α → ℕ} {ofNat : ℕ → α} {v : α} (hlt : toNat v < 256 ^ width)
    (hinv : ofNat (toNat v) = v) : (be width toNat ofNat).RoundTrips v := by
  have hread := Reads.exact (CodecError.readError "failed to fill whole buffer") (beBytes width (toNat v))
  rw [length_beBytes] at hread
  refine hread.map ?_
  rw [beNat_beBytes hlt, hinv]
  exact Reads.pure v

theorem count_roundTrips {n : ℕ} (h : n < 2 ^ 32) : count.RoundTrips n := be_roundTrips (by simpa using h) rfl

theorem count_lt {b : Bytes} {r : ℕ × Bytes} (h : count.dec.run b = .ok r) : r.1 < 2 ^ 32 := by
  obtain ⟨bytes, b', h1, h2⟩ := run_bind_ok.1 h
  obtain rfl := run_pure_ok.1 h2
  have hlt := beNat_lt bytes
  rw [length_of_readExact h1] at hlt
  exact hlt

theorem vec_roundTrips {α : Type} {c : Codec CodecError α} {xs : List α} (hlen : xs.length < 2 ^ 32)
    (h : ∀ x ∈ xs, c.RoundTrips x) : (vec c).RoundTrips xs :=
  (count_roundTrips hlen).bind (Reads.many h)

theorem vec_lt {α : Type} {c : Codec CodecError α} {b : Bytes} {r : List α × Bytes}
    (h : (vec c).dec.run b = .ok r) : r.1.length < 2 ^ 32 := by
  obtain ⟨n, b', h1, h2⟩ := run_bind_ok.1 h
  exact lt_of_eq_of_lt (length_of_readMany h2) (count_lt h1)

theorem vec_items {α : Type} {c : Codec CodecError α} {b : Bytes} {r : List α × Bytes}
    (h : (vec c).dec.run b = .ok r) {x : α} (hx : x ∈ r.1) : ∃ b₁ b₂, c.dec.run b₁ = .ok (x, b₂) := by
  obtain ⟨n, b', -, h2⟩ := run_bind_ok.1 h
  exact mem_of_readMany h2 hx

theorem atMost_reads {α : Type} {c : Codec CodecError α} {max : UInt32} {xs : List α} (hlen : xs.length ≤ max.toNat)
    (h : ∀ x ∈ xs, c.RoundTrips x) : Reads (readNextAtMost c max) ((vec c).enc xs) xs := by
  refine (count_roundTrips (lt_of_le_of_lt hlen max.toNat_lt)).bind ?_
  rw [if_neg (by omega)]
  exact Reads.many h

theorem atMost_le {α : Type} {c : Codec CodecError α} {max : UInt32} {b : Bytes} {r : List α × Bytes}
    (h : (readNextAtMost c max).run b = .ok r) : r.1.length ≤ max.toNat := by
  obtain ⟨n, b', -, h2⟩ := run_bind_ok.1 h
  split_ifs at h2 with hbig
  · cases h2
  · have := length_of_readMany h2
    omega

end Reference

open Reference in
/-- the reference functions -/
def X0 : Ext where
  maxChunkSize := 2097152
  u8 := be 1 UInt8.toNat UInt8.ofNat
  u32 := be 4 UInt32.toNat UInt32.ofNat
  u64 := be 8 UInt64.toNat UInt64.ofNat
  hash160 := be 20 BitVec.toNat (BitVec.ofNat 160)
  vec := vec
  readNextAtMost := readNextAtMost
  fromData := fromData
  p2pkh := p2pkh
  sign := sign
  verify := verify
  recoverToPubkey := recoverToPubkey
  showAddress addr := s!"{addr.version}:{addr.bytes.toNat}"
  showMetadata md := s!"{md.slotId}.{md.slotVersion}"
  showNetError _ := "bad signature"

theorem X0_sizeLaws : SizeLaws X0 where
  u8 v := length_beBytes 1 _
  u64 v := length_beBytes 8 _
  vec c xs := by
    simp [X0, Reference.vec, Reference.count, Reference.be, List.length_flatMap]

theorem X0_codecLaws : CodecLaws X0 where
  u8 v := Reference.be_roundTrips (by simpa using v.toNat_lt) (by simp)
  u32 v := Reference.be_roundTrips (by simpa using v.toNat_lt) (by simp)
  u64 v := Reference.be_roundTrips (by simpa using v.toNat_lt) (by simp)
  hash160 v := Reference.be_roundTrips (lt_of_lt_of_eq v.isLt (by norm_num)) (by simp)
  vec c xs hlen h := Reference.vec_roundTrips hlen h
  vec_lt c b r h := Reference.vec_lt h
  vec_items c b r h x hx := Reference.vec_items h hx
  atMost c max xs hlen h := Reference.atMost_reads hlen h
  atMost_le c max b r h := Reference.atMost_le h

theorem X0_signLaws : SignLaws X0 where
  verify_sign key id version hash sig addr hsign haddr := by
    obtain rfl := Option.some.inj hsign
    have hdigest := (Reference.authDigest id version hash).isLt
    have hbytes := (Reference.p2pkh true key).bytes.isLt
    have hsig : (BitVec.ofNat 520 ((Reference.p2pkh true key).bytes.toNat * 2 ^ 256 +
        (Reference.authDigest id version hash).toNat)).toNat =
        (Reference.p2pkh true key).bytes.toNat * 2 ^ 256 + (Reference.authDigest id version hash).toNat := by
      rw [BitVec.toNat_ofNat]
      exact Nat.mod_eq_of_lt (by omega)
    have hmod : ((Reference.p2pkh true key).bytes.toNat * 2 ^ 256 + (Reference.authDigest id version hash).toNat) %
        2 ^ 256 = (Reference.authDigest id version hash).toNat := by omega
    have hdiv : ((Reference.p2pkh true key).bytes.toNat * 2 ^ 256 + (Reference.authDigest id version hash).toNat) /
        2 ^ 256 = (Reference.p2pkh true key).bytes.toNat := by omega
    show Reference.verify _ addr = _
    rw [Reference.verify, if_pos (by rw [hsig]; exact hmod), hsig, hdiv]
    have haddr' : addr.bytes = (Reference.p2pkh true key).bytes := haddr
    simp [haddr']
  fromData_ne_zero data h := by
    have hodd := congrArg (fun v : BitVec 256 => v.toNat % 2) h
    have hzero : (0 : BitVec 256).toNat = 0 := rfl
    simp only [X0, Reference.fromData, BitVec.toNat_ofNat, hzero] at hodd
    omega

end Wrb.Storage
