/-
A concrete `TxExt`, for witnesses.

The codecs are the formats of `stacks_common` and `clarity`: big-endian integers and raw arrays, an address with its
version, a counted vector, names with their length. Hash, signature and address are stand-ins with the interface of the
real ones: a signature holds the key and the hash it signs, an address is a hash of the mode, the number of signatures
and the keys, with the checks of `StacksAddress::from_public_keys`. Clarity values are numbers.
-/
import Wrb.Tx.Codec

namespace Wrb.Tx

open Wrb.Wire Wrb.Storage Wrb.Runner Wrb.Net

namespace Reference

open Wrb.Storage.Reference

/-! ## Formats -/

def shortBuffer : CodecError := .readError "failed to fill whole buffer"

/-- text with its length in one byte, of `1` to `max` bytes -/
def nameEnc (max : ℕ) (name : String) : Except CodecError Bytes :=
  if 1 ≤ (asBytes name).length ∧ (asBytes name).length ≤ max then
    .ok (X0.u8.enc (UInt8.ofNat (asBytes name).length) ++ asBytes name)
  else .error (.serializeError "Failed to serialize name: too short or too long")

def nameOk (max : ℕ) (name : String) : Bool := decide (1 ≤ (asBytes name).length ∧ (asBytes name).length ≤ max)

def nameDec (max : ℕ) : Decoder CodecError {s : String // nameOk max s = true} := do
  let len ← X0.u8.dec
  let bytes ← readExact shortBuffer len.toNat
  match fromUtf8 bytes with
  | none => throw (.deserializeError "Failed to parse name: not UTF-8")
  | some name =>
    if h : nameOk max name = true then pure ⟨name, h⟩
    else throw (.deserializeError "Failed to parse name: too short or too long")

def contractNameDec : Decoder CodecError String := do
  let name ← nameDec 40
  pure name.1

def stacksAddress : Codec CodecError StacksAddress where
  enc a := X0.u8.enc a.version ++ X0.hash160.enc a.bytes
  dec := do
    let version ← X0.u8.dec
    let bytes ← X0.hash160.dec
    pure ⟨version, bytes⟩

/-! ## Keys -/

def signHash (key : Secp256k1PrivateKey) (hash : Txid) : Except String MessageSignature :=
  .ok (BitVec.ofNat 520 (2 ^ 512 + key.toNat * 2 ^ 256 + hash.toNat))

def recoverPoint (hash : Txid) (sig : MessageSignature) : Except String (BitVec 264) :=
  if sig.toNat / 2 ^ 512 = 1 ∧ sig.toNat % 2 ^ 256 = hash.toNat then
    .ok (BitVec.ofNat 264 (sig.toNat / 2 ^ 256 % 2 ^ 256))
  else .error "Invalid signature"

/-- bytes that tell mode, number of signatures and keys apart -/
def keyBytes (mode : AddressHashMode) (numSigs : ℕ) (keys : List (StacksPublicKey (BitVec 264))) : Bytes :=
  let modeByte : UInt8 := match mode with
    | .serializeP2PKH => 0
    | .serializeP2SH => 1
    | .serializeP2WPKH => 2
    | .serializeP2WSH => 3
  modeByte :: beBytes 8 numSigs ++ keys.flatMap fun k => (if k.compressed then 1 else 0) :: beBytes 33 k.point.toNat

def fromPublicKeys (mode : AddressHashMode) (numSigs : ℕ) (keys : List (StacksPublicKey (BitVec 264))) :
    Option Hash160 :=
  let single : Bool := mode = .serializeP2PKH || mode = .serializeP2WPKH
  let segwit : Bool := mode = .serializeP2WPKH || mode = .serializeP2WSH
  if keys.length < numSigs then none
  else if single && (numSigs ≠ 1 || keys.length ≠ 1) then none
  else if segwit && keys.any (fun k => !k.compressed) then none
  else some ((fromData (keyBytes mode numSigs keys)).setWidth 160)

end Reference

open Reference Storage.Reference in
/-- the reference functions, with the formats of transactions -/
def X3 : TxExt where
  toNetExt := { X2 with contractNameEnc := nameEnc 40, contractNameDec := contractNameDec }
  Point := BitVec 264
  Value := UInt64
  signature := be 65 BitVec.toNat (BitVec.ofNat 520)
  memo := be 34 BitVec.toNat (BitVec.ofNat 272)
  stacksAddress := stacksAddress
  principal := Runner.Reference.principal
  value := be 8 UInt64.toNat UInt64.ofNat
  isContractName := nameOk 40
  isClarityName := nameOk 128
  clarityNameEnc := nameEnc 128
  clarityNameDec := nameDec 128
  vecEnc w as := vecWrite w as
  vecDec limit d := vecRead shortBuffer (.deserializeError "Array has too many items") limit d
  maxMessageLen := 16778054
  maxBytes := 16778054
  maxFields := 190659
  maxPostConditions := 39947
  maxFunctionArgs := 233028
  pointToBuffer p := p
  pointOfBuffer b := .ok b
  fromPrivate key := BitVec.ofNat 264 key.toNat
  signHash := signHash
  recoverPoint := recoverPoint
  fromPublicKeys := fromPublicKeys
  showHash160 hash := s!"{hash.toNat}"

namespace Reference

open Wrb.Storage.Reference

/-! ## Reading back -/

theorem name_length {max : ℕ} (hmax : max < 256) {name : String} (h : (asBytes name).length ≤ max) :
    (UInt8.ofNat (asBytes name).length).toNat = (asBytes name).length := by
  simpa using lt_of_le_of_lt h hmax

theorem nameDec_reads {max : ℕ} (hmax : max < 256) {name : {s : String // nameOk max s = true}} {b : Bytes}
    (h : nameEnc max name.1 = .ok b) : Reads (nameDec max) b name := by
  unfold nameEnc at h
  split_ifs at h with hlen
  obtain rfl := Except.ok.inj h
  apply (X0_codecLaws.u8 _).bind
  rw [name_length hmax hlen.2]
  apply (Reads.exact _ (asBytes name.1)).map
  rw [WrbpodSuperblock.fromUtf8_asBytes]
  simp only [dif_pos name.2]
  exact Reads.pure name

theorem contractNameDec_reads {name : String} {b : Bytes} (h : nameEnc 40 name = .ok b) :
    Reads contractNameDec b name := by
  have hok : nameOk 40 name = true := by
    unfold nameEnc at h
    split_ifs at h with hlen
    exact decide_eq_true hlen
  exact (@nameDec_reads 40 (by decide) ⟨name, hok⟩ b h).map (Reads.pure name)

theorem stacksAddress_roundTrips (a : StacksAddress) : stacksAddress.RoundTrips a :=
  (X0_codecLaws.u8 a.version).bind ((X0_codecLaws.hash160 a.bytes).map (Reads.pure a))

/-! ## What was taken -/

theorem be_took {α : Type} {width : ℕ} {toNat : α → ℕ} {ofNat : ℕ → α} :
    Took (be width toNat ofNat).dec fun _ n => n = width := by
  refine Took.exact.bind fun b n hn => Took.pure ?_
  exact hn.2

theorem be_sound {α : Type} {width : ℕ} {toNat : α → ℕ} {ofNat : ℕ → α}
    (h : ∀ a, (be width toNat ofNat).RoundTrips a) : (be width toNat ofNat).Sound :=
  .of_width h (fun _ => length_beBytes width _) be_took

theorem nameDec_took (max : ℕ) : Took (nameDec max) fun name n => Fits (nameEnc max name.1) n := by
  refine be_took.bind fun len n hn => Took.exact.bind fun bytes m hm => ?_
  subst hn
  obtain ⟨hlen, rfl⟩ := hm
  cases hname : fromUtf8 bytes with
  | none => exact Took.throw
  | some name =>
    have hbytes : asBytes name = bytes := WrbpodSuperblock.asBytes_of_fromUtf8 hname
    dsimp only
    split_ifs with hok
    · refine Took.pure ?_
      have hbound := of_decide_eq_true hok
      rw [nameEnc, if_pos hbound]
      refine Fits.ok ?_
      rw [List.length_append, hbytes, hlen]
      exact Nat.add_le_add (length_beBytes 1 _).le le_rfl
    · exact Took.throw

theorem contractNameDec_took : Took contractNameDec fun name n => Fits (nameEnc 40 name) n :=
  (nameDec_took 40).bind fun _ _ h => Took.pure h

theorem u8_took : Took X0.u8.dec fun _ n => n = 1 := be_took

theorem hash160_took : Took X0.hash160.dec fun _ n => n = 20 := be_took

theorem length_u8 (v : UInt8) : (X0.u8.enc v).length = 1 := length_beBytes 1 _

theorem length_hash160 (v : Hash160) : (X0.hash160.enc v).length = 20 := length_beBytes 20 _

theorem stacksAddress_sound : stacksAddress.Sound := by
  refine u8_took.bind fun version n hn => hash160_took.bind fun bytes m hm => Took.pure ?_
  subst hn hm
  refine ⟨stacksAddress_roundTrips _, ?_⟩
  rw [stacksAddress, List.length_append, length_u8, length_hash160]

theorem standardPrincipal_roundTrips (p : StandardPrincipalData) : Runner.Reference.standardPrincipal.RoundTrips p :=
  (X0_codecLaws.u8 p.version).bind ((X0_codecLaws.hash160 p.bytes).map (Reads.pure p))

theorem principal_standard_roundTrips (p : StandardPrincipalData) :
    Runner.Reference.principal.RoundTrips (.standard p) := by
  apply (X0_codecLaws.u8 5).bind
  rw [if_pos rfl]
  exact (standardPrincipal_roundTrips p).map (Reads.pure _)

theorem standardPrincipal_sound : Runner.Reference.standardPrincipal.Sound := by
  refine u8_took.bind fun version n hn => hash160_took.bind fun bytes m hm => Took.pure ?_
  subst hn hm
  refine ⟨standardPrincipal_roundTrips _, ?_⟩
  rw [Runner.Reference.standardPrincipal, List.length_append, length_u8, length_hash160]

/-- a contract name of a principal, of up to 255 bytes -/
theorem contractName_sound : Runner.Reference.contractName.Sound := by
  refine u8_took.bind fun len n hn => Took.exact.bind fun bytes m hm => ?_
  subst hn
  obtain ⟨hlen, rfl⟩ := hm
  cases hname : fromUtf8 bytes with
  | none => exact Took.throw
  | some name =>
    have hbytes : asBytes name = bytes := WrbpodSuperblock.asBytes_of_fromUtf8 hname
    have hcount : (UInt8.ofNat (asBytes name).length).toNat = (asBytes name).length := by
      rw [hbytes, hlen, UInt8.ofNat_toNat]
    refine Took.pure ⟨?_, ?_⟩
    · apply (X0_codecLaws.u8 _).bind
      rw [hcount]
      apply (Reads.exact _ (asBytes name)).map
      rw [WrbpodSuperblock.fromUtf8_asBytes]
      exact Reads.pure name
    · rw [Runner.Reference.contractName, List.length_append, length_u8, hbytes, hlen]
      exact le_rfl

theorem principal_sound : Runner.Reference.principal.Sound := by
  refine u8_took.bind fun typePrefix n hn => ?_
  subst hn
  refine Took.ite (fun _ => ?_) fun _ => Took.ite (fun _ => ?_) fun _ => Took.throw
  · refine standardPrincipal_sound.bind fun p n hp => Took.pure ⟨principal_standard_roundTrips p, ?_⟩
    rw [Runner.Reference.principal, List.length_append, length_u8]
    exact Nat.add_le_add_left hp.2 1
  · refine standardPrincipal_sound.bind fun issuer n hi => contractName_sound.bind fun name m hname => ?_
    refine Took.pure ⟨?_, ?_⟩
    · apply (X0_codecLaws.u8 6).bind
      rw [if_neg (by decide), if_pos rfl]
      exact hi.1.bind (hname.1.map (Reads.pure _))
    · rw [Runner.Reference.principal, List.length_append, List.length_append, length_u8]
      exact Nat.add_le_add_left (Nat.add_le_add hi.2 hname.2) 1

end Reference

open Reference Storage.Reference

theorem X3_txLaws : TxLaws X3 where
  toNetLaws :=
    { X2_laws with
      contractName := fun _ _ h => contractNameDec_reads h }
  u8_raw v := by
    simp [X3, X2, X0, be, beBytes]
  hash160 v := X0_codecLaws.hash160 v
  signature v := @Net.Reference.array_roundTrips 65 v
  memo v := @Net.Reference.array_roundTrips 34 v
  clarityName _ _ h := nameDec_reads (by decide) h
  vec _ _ _ _ hlimit hlen h := vec_readsBack (lt_of_le_of_lt hlen hlimit) hlen h
  maxBytes := by decide
  maxFields := by decide
  maxPostConditions := by decide
  maxFunctionArgs := by decide
  maxTransactionLen_le := by decide
  pointOfBuffer _ := rfl

theorem X3_acceptLaws : AcceptLaws X3 where
  u8 := be_took
  u16 := be_sound X2_laws.u16
  u32 := be_sound X0_codecLaws.u32
  u64 := be_sound X0_codecLaws.u64
  hash160 := be_sound X0_codecLaws.hash160
  signature := be_sound (@Net.Reference.array_roundTrips 65)
  memo := be_sound (@Net.Reference.array_roundTrips 34)
  publicKeyBuffer := be_sound (@Net.Reference.array_roundTrips 33)
  stacksAddress := stacksAddress_sound
  principal := principal_sound
  value := be_sound X0_codecLaws.u64
  pointToBuffer _ _ h := (Except.ok.inj h).symm
  contractName := contractNameDec_took
  clarityName := nameDec_took 128
  vec w d limit P h := by
    refine (Took.vec h).mono fun as n hn => ?_
    obtain ⟨hlen, ns, hall, rfl⟩ := hn
    obtain ⟨hP, hfits⟩ := (List.forall₂_and_left as ns).1 hall
    exact ⟨⟨hlen, hP⟩, Fits.vec hfits⟩

theorem fromPublicKeys_compressed {numSigs : ℕ} {keys : List (StacksPublicKey (BitVec 264))} {hash : Hash160}
    (h : fromPublicKeys .serializeP2WPKH numSigs keys = some hash) : ∀ k ∈ keys, k.compressed = true := by
  intro k hk
  simp only [fromPublicKeys] at h
  split_ifs at h with _ _ hsegwit
  by_contra hbad
  have hany : keys.any (fun k => !k.compressed) = true := List.any_eq_true.2 ⟨k, hk, by simpa using hbad⟩
  exact hsegwit (by rw [hany]; rfl)

/-- the packed number fits a signature -/
theorem sign_toNat (key : Secp256k1PrivateKey) (hash : Txid) :
    (BitVec.ofNat 520 (2 ^ 512 + key.toNat * 2 ^ 256 + hash.toNat)).toNat =
      2 ^ 512 + key.toNat * 2 ^ 256 + hash.toNat := by
  have hkey := key.isLt
  have hhash := hash.isLt
  rw [BitVec.toNat_ofNat]
  exact Nat.mod_eq_of_lt (by omega)

theorem X3_signingLaws : SigningLaws X3 where
  recover_sign key hash sig h := by
    obtain rfl := Except.ok.inj h
    have hsig := sign_toNat key hash
    have hkey := key.isLt
    have hhash := hash.isLt
    have htag : (2 ^ 512 + key.toNat * 2 ^ 256 + hash.toNat) / 2 ^ 512 = 1 := by omega
    have hlow : (2 ^ 512 + key.toNat * 2 ^ 256 + hash.toNat) % 2 ^ 256 = hash.toNat := by omega
    have hmid : (2 ^ 512 + key.toNat * 2 ^ 256 + hash.toNat) / 2 ^ 256 % 2 ^ 256 = key.toNat := by omega
    show recoverPoint hash _ = _
    rw [recoverPoint, hsig, if_pos ⟨htag, hlow⟩, hmid]
    rfl
  sign_ne_empty key hash sig h := by
    obtain rfl := Except.ok.inj h
    intro hbad
    have hsig := sign_toNat key hash
    rw [hbad] at hsig
    have hzero : BitVec.toNat MessageSignature.empty = 0 := BitVec.toNat_zero
    omega
  p2wpkh_compressed numSigs keys hash h := by
    exact fromPublicKeys_compressed h

/-- a transfer of 100 with this authorization -/
def transfer (auth : TransactionAuth X3) : StacksTransaction X3 :=
  ⟨.testnet, 0x80000000, auth, .any, .deny, [], .tokenTransfer (.standard ⟨26, 9⟩) 100 0⟩

end Wrb.Tx
