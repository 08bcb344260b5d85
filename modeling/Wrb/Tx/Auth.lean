/-
Signing and verifying (`src/tx/auth.rs`, `src/tx/transaction.rs`).

A signature signs a hash of the sighash so far, the role of the signer, the fee and the nonce, and yields the next
sighash. In a multisig condition each signature commits to the ones before it; in an order-independent one all of them
sign the same sighash. Verification walks over the fields, recovers the keys, and compares their hash with the signer.

Results:
- `MultisigCondition.verify_ok`, `SinglesigSpendingCondition.verify_ok`: what a successful verification says;
- `TransactionAuth.wf_of_verify`: spending conditions that verify pass the checks of the reader.
-/
import Wrb.Tx.RoundTrip

namespace Wrb.Tx

open Wrb.Wire Wrb.Storage Wrb.Runner Wrb.Net

variable {X : TxExt}

theorem bind_eq_ok {ε α β : Type} {x : Except ε α} {f : α → Except ε β} {b : β} :
    (x >>= f) = .ok b ↔ ∃ a, x = .ok a ∧ f a = .ok b := by
  cases x with
  | error e => exact iff_of_false (fun h => nomatch h) (fun ⟨_, h, _⟩ => nomatch h)
  | ok a => exact ⟨fun h => ⟨a, rfl, h⟩, fun ⟨a', h, h'⟩ => Except.ok.inj h ▸ h'⟩

/-! ## Addresses -/

def C32_ADDRESS_VERSION_MAINNET_SINGLESIG : UInt8 := 22
def C32_ADDRESS_VERSION_MAINNET_MULTISIG : UInt8 := 20
def C32_ADDRESS_VERSION_TESTNET_SINGLESIG : UInt8 := 26
def C32_ADDRESS_VERSION_TESTNET_MULTISIG : UInt8 := 21

/-! ## Sighashes -/

namespace TransactionSpendingCondition

/-- the hash a signature signs: the previous hash, the auth flag, the fee and the nonce -/
def makeSighashPresign (X : TxExt) (curSighash : Txid) (condCode : TransactionAuthFlags) (txFee nonce : UInt64) :
    Txid :=
  X.fromData (beBytes 32 curSighash.toNat ++ [condCode.toU8] ++ beBytes 8 txFee.toNat ++ beBytes 8 nonce.toNat)

/-- the hash after a signature: the hash it signed, the encoding of the key and the signature -/
def makeSighashPostsign (X : TxExt) (curSighash : Txid) (pubkey : StacksPublicKey X.Point) (sig : MessageSignature) :
    Txid :=
  X.fromData (beBytes 32 curSighash.toNat ++ [(TransactionPublicKeyEncoding.ofBool pubkey.compressed).toU8] ++
    beBytes 65 sig.toNat)

/-- the next signature and the sighash that the next private key must sign -/
def nextSignature (X : TxExt) (curSighash : Txid) (condCode : TransactionAuthFlags) (txFee nonce : UInt64)
    (privk : StacksPrivateKey) : Except Fault (MessageSignature × Txid) :=
  let sighashPresign := makeSighashPresign X curSighash condCode txFee nonce
  match X.signHash privk.key sighashPresign with
  | .error se => .error (.error (.signingError se))
  | .ok sig => .ok (sig, makeSighashPostsign X sighashPresign (StacksPublicKey.fromPrivate X privk) sig)

/-- the key of a signature and the sighash that the next verifier must verify -/
def nextVerification (X : TxExt) (curSighash : Txid) (condCode : TransactionAuthFlags) (txFee nonce : UInt64)
    (keyEncoding : TransactionPublicKeyEncoding) (sig : MessageSignature) :
    Except Fault (StacksPublicKey X.Point × Txid) :=
  let sighashPresign := makeSighashPresign X curSighash condCode txFee nonce
  match X.recoverPoint sighashPresign sig with
  | .error ve => .error (.error (.verifyingError ve))
  | .ok point =>
    let pubk : StacksPublicKey X.Point := ⟨point, keyEncoding.toBool⟩
    .ok (pubk, makeSighashPostsign X sighashPresign pubk sig)

end TransactionSpendingCondition

/-! ## Singlesig conditions -/

namespace SinglesigSpendingCondition

def setSignature (c : SinglesigSpendingCondition) (signature : MessageSignature) : SinglesigSpendingCondition :=
  { c with signature }

def addressMainnet (c : SinglesigSpendingCondition) : StacksAddress :=
  match c.hashMode with
  | .p2pkh => ⟨C32_ADDRESS_VERSION_MAINNET_SINGLESIG, c.signer⟩
  | .p2wpkh => ⟨C32_ADDRESS_VERSION_MAINNET_MULTISIG, c.signer⟩

def addressTestnet (c : SinglesigSpendingCondition) : StacksAddress :=
  match c.hashMode with
  | .p2pkh => ⟨C32_ADDRESS_VERSION_TESTNET_SINGLESIG, c.signer⟩
  | .p2wpkh => ⟨C32_ADDRESS_VERSION_TESTNET_MULTISIG, c.signer⟩

def clear (c : SinglesigSpendingCondition) : SinglesigSpendingCondition :=
  { c with txFee := 0, nonce := 0, signature := MessageSignature.empty }

def verify (X : TxExt) (c : SinglesigSpendingCondition) (initialSighash : Txid) (condCode : TransactionAuthFlags) :
    Except Fault Txid := do
  let (pubkey, nextSighash) ←
    TransactionSpendingCondition.nextVerification X initialSighash condCode c.txFee c.nonce c.keyEncoding c.signature
  match X.fromPublicKeys c.hashMode.toAddressHashMode 1 [pubkey] with
  | none => throw (.error (.verifyingError "Failed to generate address from public key"))
  | some hash =>
    if hash ≠ c.signer then
      throw (.error (.verifyingError ("Signer hash does not equal hash of public key(s): " ++
        s!"{X.showHash160 hash} != {X.showHash160 c.signer}")))
    else pure nextSighash

end SinglesigSpendingCondition

/-! ## Multisig conditions -/

/-- the loop variables of verification -/
structure Scan (X : TxExt) where
  pubkeys : List (StacksPublicKey X.Point)
  curSighash : Txid
  numSigs : ℕ
  haveUncompressed : Bool

namespace MultisigCondition

variable {Mode : Type}

def pushSignature (c : MultisigCondition X Mode) (keyEncoding : TransactionPublicKeyEncoding)
    (signature : MessageSignature) : MultisigCondition X Mode :=
  { c with fields := c.fields ++ [.signature keyEncoding signature] }

def pushPublicKey (c : MultisigCondition X Mode) (publicKey : StacksPublicKey X.Point) : MultisigCondition X Mode :=
  { c with fields := c.fields ++ [.publicKey publicKey] }

def addressMainnet (c : MultisigCondition X Mode) : StacksAddress := ⟨C32_ADDRESS_VERSION_MAINNET_MULTISIG, c.signer⟩

def addressTestnet (c : MultisigCondition X Mode) : StacksAddress := ⟨C32_ADDRESS_VERSION_TESTNET_MULTISIG, c.signer⟩

def clear (c : MultisigCondition X Mode) : MultisigCondition X Mode := { c with txFee := 0, nonce := 0, fields := [] }

/-- one field of the loop in `verify` -/
def scanField (K : MultisigKind Mode) (c : MultisigCondition X Mode) (condCode : TransactionAuthFlags) (s : Scan X) :
    TransactionAuthField X → Except Fault (Scan X)
  | .publicKey pubkey =>
    .ok ⟨s.pubkeys ++ [pubkey], s.curSighash, s.numSigs, s.haveUncompressed || !pubkey.compressed⟩
  | .signature pubkeyEncoding sigbuf => do
    let (pubkey, nextSighash) ←
      TransactionSpendingCondition.nextVerification X s.curSighash condCode c.txFee c.nonce pubkeyEncoding sigbuf
    if s.numSigs + 1 < 2 ^ 16 then
      pure ⟨s.pubkeys ++ [pubkey], if K.rolls then nextSighash else s.curSighash, s.numSigs + 1,
        s.haveUncompressed || pubkeyEncoding = .uncompressed⟩
    else throw (.error (.verifyingError "Too many signatures"))

def scan (K : MultisigKind Mode) (c : MultisigCondition X Mode) (initialSighash : Txid)
    (condCode : TransactionAuthFlags) : Except Fault (Scan X) :=
  c.fields.foldlM (c.scanField K condCode) ⟨[], initialSighash, 0, false⟩

def verify (K : MultisigKind Mode) (c : MultisigCondition X Mode) (initialSighash : Txid)
    (condCode : TransactionAuthFlags) : Except Fault Txid := do
  let s ← c.scan K initialSighash condCode
  if K.countOk s.numSigs c.signaturesRequired = false then
    throw (.error (.verifyingError (K.verifyCountMsg s.numSigs c.signaturesRequired)))
  else if s.haveUncompressed && K.isP2WSH c.hashMode then
    throw (.error (.verifyingError "Uncompressed keys are not allowed in this hash mode"))
  else
    match X.fromPublicKeys (K.toAddressHashMode c.hashMode) c.signaturesRequired.toNat s.pubkeys with
    | none => throw (.error (.verifyingError "Failed to generate address from public keys"))
    | some hash =>
      if hash ≠ c.signer then
        throw (.error (.verifyingError ("Signer hash does not equal hash of public key(s): " ++
          s!"{X.showHash160 hash} != {X.showHash160 c.signer}")))
      else pure s.curSighash

end MultisigCondition

def MultisigSpendingCondition.verify : MultisigSpendingCondition X → Txid → TransactionAuthFlags → Except Fault Txid :=
  MultisigCondition.verify multisigKind

def OrderIndependentMultisigSpendingCondition.verify :
    OrderIndependentMultisigSpendingCondition X → Txid → TransactionAuthFlags → Except Fault Txid :=
  MultisigCondition.verify orderIndependentKind

/-- count the signatures in a `u16` -/
def countSignatures (numSigs : ℕ) : List (TransactionAuthField X) → Option ℕ
  | [] => some numSigs
  | f :: fs =>
    if f.isSignature then if numSigs + 1 < 2 ^ 16 then countSignatures (numSigs + 1) fs else none
    else countSignatures numSigs fs

/-! ## Spending conditions -/

namespace TransactionSpendingCondition

def newSinglesigP2pkh (pubkey : StacksPublicKey X.Point) : Option (TransactionSpendingCondition X) := do
  let signer ← X.fromPublicKeys .serializeP2PKH 1 [pubkey]
  some (.singlesig ⟨.p2pkh, signer, 0, 0, .ofBool pubkey.compressed, MessageSignature.empty⟩)

def newSinglesigP2wpkh (pubkey : StacksPublicKey X.Point) : Option (TransactionSpendingCondition X) := do
  let signer ← X.fromPublicKeys .serializeP2WPKH 1 [pubkey]
  some (.singlesig ⟨.p2wpkh, signer, 0, 0, .compressed, MessageSignature.empty⟩)

/-- the condition of an account of these keys, so many of which must sign -/
def newMultisig {Mode : Type} (K : MultisigKind Mode) (hashMode : Mode) (numSigs : UInt16)
    (pubkeys : List (StacksPublicKey X.Point)) : Option (MultisigCondition X Mode) := do
  let signer ← X.fromPublicKeys (K.toAddressHashMode hashMode) numSigs.toNat pubkeys
  some ⟨hashMode, signer, 0, 0, [], numSigs⟩

def newMultisigP2sh (numSigs : UInt16) (pubkeys : List (StacksPublicKey X.Point)) :
    Option (TransactionSpendingCondition X) :=
  (newMultisig multisigKind .p2sh numSigs pubkeys).map multisig

def newMultisigP2wsh (numSigs : UInt16) (pubkeys : List (StacksPublicKey X.Point)) :
    Option (TransactionSpendingCondition X) :=
  (newMultisig multisigKind .p2wsh numSigs pubkeys).map multisig

def newMultisigOrderIndependentP2sh (numSigs : UInt16) (pubkeys : List (StacksPublicKey X.Point)) :
    Option (TransactionSpendingCondition X) :=
  (newMultisig orderIndependentKind .p2sh numSigs pubkeys).map orderIndependentMultisig

def newMultisigOrderIndependentP2wsh (numSigs : UInt16) (pubkeys : List (StacksPublicKey X.Point)) :
    Option (TransactionSpendingCondition X) :=
  (newMultisig orderIndependentKind .p2wsh numSigs pubkeys).map orderIndependentMultisig

/-- the sponsor that an origin commits to -/
def newInitialSighash : TransactionSpendingCondition X :=
  .singlesig ⟨.p2pkh, 0, 0, 0, .compressed, MessageSignature.empty⟩

def numSignatures : TransactionSpendingCondition X → Except Fault ℕ
  | singlesig data => .ok (if data.signature ≠ MessageSignature.empty then 1 else 0)
  | multisig data =>
    (countSignatures 0 data.fields).elim (.error (.panicked "Unreasonable amount of signatures")) .ok
  | orderIndependentMultisig data =>
    (countSignatures 0 data.fields).elim (.error (.panicked "Unreasonable amount of signatures")) .ok

def signaturesRequired : TransactionSpendingCondition X → ℕ
  | singlesig _ => 1
  | multisig data => data.signaturesRequired.toNat
  | orderIndependentMultisig data => data.signaturesRequired.toNat

def nonce : TransactionSpendingCondition X → UInt64
  | singlesig data => data.nonce
  | multisig data => data.nonce
  | orderIndependentMultisig data => data.nonce

def txFee : TransactionSpendingCondition X → UInt64
  | singlesig data => data.txFee
  | multisig data => data.txFee
  | orderIndependentMultisig data => data.txFee

def setNonce (n : UInt64) : TransactionSpendingCondition X → TransactionSpendingCondition X
  | singlesig data => singlesig { data with nonce := n }
  | multisig data => multisig { data with nonce := n }
  | orderIndependentMultisig data => orderIndependentMultisig { data with nonce := n }

def setTxFee (txFee : UInt64) : TransactionSpendingCondition X → TransactionSpendingCondition X
  | singlesig data => singlesig { data with txFee }
  | multisig data => multisig { data with txFee }
  | orderIndependentMultisig data => orderIndependentMultisig { data with txFee }

def addressMainnet : TransactionSpendingCondition X → StacksAddress
  | singlesig data => data.addressMainnet
  | multisig data => data.addressMainnet
  | orderIndependentMultisig data => data.addressMainnet

def addressTestnet : TransactionSpendingCondition X → StacksAddress
  | singlesig data => data.addressTestnet
  | multisig data => data.addressTestnet
  | orderIndependentMultisig data => data.addressTestnet

/-- clear fee rate, nonces, signatures and public keys -/
def clear : TransactionSpendingCondition X → TransactionSpendingCondition X
  | singlesig data => singlesig data.clear
  | multisig data => multisig data.clear
  | orderIndependentMultisig data => orderIndependentMultisig data.clear

def verify (c : TransactionSpendingCondition X) (initialSighash : Txid) (condCode : TransactionAuthFlags) :
    Except Fault Txid :=
  match c with
  | singlesig data => data.verify X initialSighash condCode
  | multisig data => MultisigSpendingCondition.verify data initialSighash condCode
  | orderIndependentMultisig data => OrderIndependentMultisigSpendingCondition.verify data initialSighash condCode

end TransactionSpendingCondition

/-! ## Authorizations -/

namespace TransactionAuth

def origin : TransactionAuth X → TransactionSpendingCondition X
  | standard s => s
  | sponsored s _ => s

def sponsor : TransactionAuth X → Option (TransactionSpendingCondition X)
  | standard _ => none
  | sponsored _ s => some s

def getOriginNonce (a : TransactionAuth X) : UInt64 := a.origin.nonce

def getSponsorNonce (a : TransactionAuth X) : Option UInt64 := a.sponsor.map (·.nonce)

/-- the fee, which the sponsor pays if there is one -/
def getTxFee : TransactionAuth X → UInt64
  | standard s => s.txFee
  | sponsored _ s => s.txFee

def isSponsored : TransactionAuth X → Bool
  | standard _ => false
  | sponsored _ _ => true

/-- what the origin signs: it does not commit to the sponsor, only that there is one -/
def intoInitialSighashAuth : TransactionAuth X → TransactionAuth X
  | standard origin => standard origin.clear
  | sponsored origin _ => sponsored origin.clear .newInitialSighash

def verifyOrigin (a : TransactionAuth X) (initialSighash : Txid) : Except Fault Txid :=
  a.origin.verify initialSighash .authStandard

def verify (a : TransactionAuth X) (initialSighash : Txid) : Except Fault Unit := do
  let originSighash ← a.verifyOrigin initialSighash
  match a with
  | standard _ => pure ()
  | sponsored _ sponsorCondition => (sponsorCondition.verify originSighash .authSponsored).map fun _ => ()

end TransactionAuth

/-! ## Transactions -/

namespace StacksTransaction

def new (version : TransactionVersion) (auth : TransactionAuth X) (payload : TransactionPayload X) :
    StacksTransaction X :=
  ⟨version, 0, auth, .any, .deny, [], payload⟩

/-- a txid is a hash of the transaction's bytes -/
def txid (tx : StacksTransaction X) : Except Fault Txid :=
  match tx.consensusSerialize with
  | .error _ => .error (.panicked "BUG: failed to serialize to a vec")
  | .ok bytes => .ok (X.fromData bytes)

/-- the initial sighash -/
def signBegin (tx : StacksTransaction X) : Except Fault Txid :=
  { tx with auth := tx.auth.intoInitialSighashAuth }.txid

def verifyBegin (tx : StacksTransaction X) : Except Fault Txid :=
  { tx with auth := tx.auth.intoInitialSighashAuth }.txid

def verify (tx : StacksTransaction X) : Except Fault Unit := do
  let initialSighash ← tx.verifyBegin
  tx.auth.verify initialSighash

/-- used by sponsors to get the next sighash to sign -/
def verifyOrigin (tx : StacksTransaction X) : Except Fault Txid := do
  let initialSighash ← tx.verifyBegin
  tx.auth.verifyOrigin initialSighash

def originAddress (tx : StacksTransaction X) : StacksAddress :=
  match tx.version with
  | .mainnet => tx.auth.origin.addressMainnet
  | .testnet => tx.auth.origin.addressTestnet

def sponsorAddress (tx : StacksTransaction X) : Option StacksAddress :=
  match tx.version with
  | .mainnet => tx.auth.sponsor.map (·.addressMainnet)
  | .testnet => tx.auth.sponsor.map (·.addressTestnet)

end StacksTransaction

/-! ## Signing and recovering -/

namespace TransactionSpendingCondition

theorem nextSignature_ok {cur next : Txid} {code : TransactionAuthFlags} {fee nonce : UInt64} {privk : StacksPrivateKey}
    {sig : MessageSignature} : nextSignature X cur code fee nonce privk = .ok (sig, next) ↔
      X.signHash privk.key (makeSighashPresign X cur code fee nonce) = .ok sig ∧
        next = makeSighashPostsign X (makeSighashPresign X cur code fee nonce) (.fromPrivate X privk) sig := by
  simp only [nextSignature]
  cases X.signHash privk.key (makeSighashPresign X cur code fee nonce) with
  | error e => simp
  | ok sig' =>
    simp only [Except.ok.injEq, Prod.mk.injEq]
    constructor
    · rintro ⟨rfl, rfl⟩
      exact ⟨rfl, rfl⟩
    · rintro ⟨rfl, rfl⟩
      exact ⟨rfl, rfl⟩

theorem nextVerification_ok {cur next : Txid} {code : TransactionAuthFlags} {fee nonce : UInt64}
    {enc : TransactionPublicKeyEncoding} {sig : MessageSignature} {key : StacksPublicKey X.Point} :
    nextVerification X cur code fee nonce enc sig = .ok (key, next) ↔
      X.recoverPoint (makeSighashPresign X cur code fee nonce) sig = .ok key.point ∧ key.compressed = enc.toBool ∧
        next = makeSighashPostsign X (makeSighashPresign X cur code fee nonce) key sig := by
  simp only [nextVerification]
  cases X.recoverPoint (makeSighashPresign X cur code fee nonce) sig with
  | error e => simp
  | ok point =>
    obtain ⟨point', compressed⟩ := key
    simp only [Except.ok.injEq, Prod.mk.injEq, StacksPublicKey.mk.injEq]
    constructor
    · rintro ⟨⟨rfl, rfl⟩, rfl⟩
      exact ⟨rfl, rfl, rfl⟩
    · rintro ⟨rfl, rfl, rfl⟩
      exact ⟨⟨rfl, rfl⟩, rfl⟩

/-- what is signed is recovered with the sighash that the signer went on with, if the encoding is the key's -/
theorem nextVerification_of_nextSignature (hS : SigningLaws X) {cur next : Txid} {code : TransactionAuthFlags}
    {fee nonce : UInt64} {privk : StacksPrivateKey} {sig : MessageSignature}
    (h : nextSignature X cur code fee nonce privk = .ok (sig, next)) :
    nextVerification X cur code fee nonce (.ofBool privk.compressPublic) sig = .ok (.fromPrivate X privk, next) ∧
      sig ≠ MessageSignature.empty := by
  obtain ⟨hsign, hnext⟩ := nextSignature_ok.1 h
  refine ⟨nextVerification_ok.2 ⟨hS.recover_sign _ _ _ hsign, ?_, hnext⟩, hS.sign_ne_empty _ _ _ hsign⟩
  rw [TransactionPublicKeyEncoding.toBool_ofBool]
  rfl

end TransactionSpendingCondition

/-! ## What verification says -/

/-- the keys are those of the condition's account -/
def SinglesigSpendingCondition.OwnedBy (c : SinglesigSpendingCondition) (keys : List (StacksPublicKey X.Point)) :
    Prop :=
  X.fromPublicKeys c.hashMode.toAddressHashMode 1 keys = some c.signer

structure MultisigCondition.OwnedBy {Mode : Type} (K : MultisigKind Mode) (c : MultisigCondition X Mode)
    (keys : List (StacksPublicKey X.Point)) : Prop where
  compressed : K.isP2WSH c.hashMode = true → ∀ k ∈ keys, k.compressed = true
  signer : X.fromPublicKeys (K.toAddressHashMode c.hashMode) c.signaturesRequired.toNat keys = some c.signer

def TransactionSpendingCondition.OwnedBy (c : TransactionSpendingCondition X)
    (keys : List (StacksPublicKey X.Point)) : Prop :=
  match c with
  | singlesig data => data.OwnedBy keys
  | multisig data => data.OwnedBy multisigKind keys
  | orderIndependentMultisig data => data.OwnedBy orderIndependentKind keys

theorem SinglesigSpendingCondition.verify_ok {c : SinglesigSpendingCondition} {cur next : Txid}
    {code : TransactionAuthFlags} : c.verify X cur code = .ok next ↔
      ∃ key, TransactionSpendingCondition.nextVerification X cur code c.txFee c.nonce c.keyEncoding c.signature =
        .ok (key, next) ∧ c.OwnedBy [key] := by
  rw [verify, bind_eq_ok]
  constructor
  · rintro ⟨⟨key, next'⟩, hnext, hrest⟩
    dsimp only at hrest
    split at hrest
    · exact nomatch hrest
    · next hash haddr =>
      split_ifs at hrest with hsigner
      obtain rfl := not_ne_iff.1 hsigner
      obtain rfl := Except.ok.inj hrest
      exact ⟨key, hnext, haddr⟩
  · rintro ⟨key, hnext, howned⟩
    refine ⟨(key, next), hnext, ?_⟩
    rw [OwnedBy] at howned
    simp only [howned, ne_eq, not_true_eq_false, if_false]
    rfl

namespace MultisigCondition

variable {Mode : Type} {K : MultisigKind Mode} {c : MultisigCondition X Mode}

/-- every key seen so far is compressed, unless an uncompressed one was noted -/
def Scan.Noted (s : Scan X) : Prop := s.haveUncompressed = s.pubkeys.any fun k => !k.compressed

theorem scanField_ok {code : TransactionAuthFlags} {s s' : Scan X} {f : TransactionAuthField X}
    (h : c.scanField K code s f = .ok s') :
    ∃ key, s'.pubkeys = s.pubkeys ++ [key] ∧ f.uncompressed = !key.compressed ∧
      s'.haveUncompressed = (s.haveUncompressed || f.uncompressed) ∧
      s'.numSigs = s.numSigs + (if f.isSignature then 1 else 0) ∧ (f.isSignature = true → s'.numSigs < 2 ^ 16) := by
  cases f with
  | publicKey key =>
    obtain rfl := Except.ok.inj h
    exact ⟨key, rfl, rfl, rfl, rfl, fun hsig => nomatch hsig⟩
  | signature enc sig =>
    obtain ⟨⟨key, next⟩, hnext, hrest⟩ := bind_eq_ok.1 h
    obtain ⟨-, hkey, -⟩ := TransactionSpendingCondition.nextVerification_ok.1 hnext
    have hunc : (enc = .uncompressed : Bool) = !key.compressed := by
      rw [hkey]
      cases enc <;> rfl
    dsimp only at hrest
    by_cases hlt : s.numSigs + 1 < 2 ^ 16
    · rw [if_pos hlt] at hrest
      obtain rfl := Except.ok.inj hrest
      exact ⟨key, rfl, hunc, rfl, rfl, fun _ => hlt⟩
    · rw [if_neg hlt] at hrest
      exact nomatch hrest

theorem foldlM_scan {code : TransactionAuthFlags} {fs : List (TransactionAuthField X)} {s s' : Scan X}
    (h : fs.foldlM (c.scanField K code) s = .ok s') (hnoted : Scan.Noted s) :
    tally s.numSigs s.haveUncompressed fs = some (s'.numSigs, s'.haveUncompressed) ∧ Scan.Noted s' := by
  induction fs generalizing s with
  | nil =>
    obtain rfl := Except.ok.inj h
    exact ⟨rfl, hnoted⟩
  | cons f fs ih =>
    rw [List.foldlM_cons] at h
    obtain ⟨s₁, h₁, hrest⟩ := bind_eq_ok.1 h
    obtain ⟨key, hkeys, hkey, hunc, hnum, hlt⟩ := scanField_ok h₁
    have hnoted₁ : Scan.Noted s₁ := by
      rw [Scan.Noted, hunc, hkeys, List.any_append, hkey, hnoted]
      simp
    obtain ⟨htally, hs'⟩ := ih hrest hnoted₁
    refine ⟨?_, hs'⟩
    rw [tally, ← hunc]
    split_ifs with hsig hfit
    · rw [← htally, hnum, if_pos hsig]
    · rw [if_pos hsig] at hnum
      have := hlt hsig
      omega
    · rw [← htally, hnum, if_neg hsig, Nat.add_zero]

theorem scan_ok {cur : Txid} {code : TransactionAuthFlags} {s : Scan X} (h : c.scan K cur code = .ok s) :
    tally 0 false c.fields = some (s.numSigs, s.haveUncompressed) ∧ Scan.Noted s :=
  foldlM_scan h rfl

theorem verify_ok {cur next : Txid} {code : TransactionAuthFlags} : c.verify K cur code = .ok next ↔
    ∃ s, c.scan K cur code = .ok s ∧ s.curSighash = next ∧ K.countOk s.numSigs c.signaturesRequired = true ∧
      c.OwnedBy K s.pubkeys := by
  rw [verify, bind_eq_ok]
  apply exists_congr
  intro s
  apply and_congr_right
  intro hscan
  have hnoted := (scan_ok hscan).2
  have hcompressed : ¬((s.haveUncompressed && K.isP2WSH c.hashMode) = true) ↔
      (K.isP2WSH c.hashMode = true → ∀ k ∈ s.pubkeys, k.compressed = true) := by
    rw [hnoted]
    simp only [Bool.and_eq_true, List.any_eq_true, Bool.not_eq_true', not_and]
    grind
  constructor
  · intro hrest
    split_ifs at hrest with hcount hunc
    split at hrest
    · exact nomatch hrest
    · next hash haddr =>
      split_ifs at hrest with hsigner
      obtain rfl := not_ne_iff.1 hsigner
      exact ⟨Except.ok.inj hrest, by simpa using hcount, hcompressed.1 hunc, haddr⟩
  · rintro ⟨rfl, hcount, howned⟩
    rw [if_neg (by simp [hcount]), if_neg (hcompressed.2 howned.compressed)]
    simp only [howned.signer, ne_eq, not_true_eq_false, if_false]
    rfl

end MultisigCondition

theorem TransactionAuth.verify_ok {a : TransactionAuth X} {cur : Txid} : a.verify cur = .ok () ↔
    ∃ next, a.origin.verify cur .authStandard = .ok next ∧
      ∀ c ∈ a.sponsor, ∃ last, c.verify next .authSponsored = .ok last := by
  rw [verify, bind_eq_ok]
  apply exists_congr
  intro next
  apply and_congr_right
  intro _
  cases a with
  | standard origin => exact iff_of_true rfl fun c hc => nomatch hc
  | sponsored origin sponsor =>
    constructor
    · intro h c hc
      obtain rfl := Option.some.inj hc
      cases hs : sponsor.verify next .authSponsored with
      | error e => simp [hs, Except.map] at h
      | ok last => exact ⟨last, rfl⟩
    · intro h
      obtain ⟨last, hlast⟩ := h sponsor rfl
      simp only [hlast]
      rfl

/-! ## What verifies can be read -/

/-- the auth fields of a multisig condition -/
def TransactionSpendingCondition.fields : TransactionSpendingCondition X → List (TransactionAuthField X)
  | singlesig _ => []
  | multisig data => data.fields
  | orderIndependentMultisig data => data.fields

theorem MultisigCondition.wf_of_verify {Mode : Type} {K : MultisigKind Mode} {c : MultisigCondition X Mode}
    {cur next : Txid} {code : TransactionAuthFlags} (h : c.verify K cur code = .ok next)
    (hlen : c.fields.length ≤ X.maxFields) : c.Wf K := by
  obtain ⟨s, hscan, -, hcount, howned⟩ := verify_ok.1 h
  obtain ⟨htally, hnoted⟩ := scan_ok hscan
  refine ⟨hlen, s.numSigs, s.haveUncompressed, htally, hcount, ?_⟩
  by_contra hbad
  obtain ⟨hunc, hmode⟩ : s.haveUncompressed = true ∧ K.isP2WSH c.hashMode = true := by simpa using hbad
  rw [hnoted] at hunc
  obtain ⟨key, hmem, hkey⟩ := List.any_eq_true.1 hunc
  simp [howned.compressed hmode key hmem] at hkey

theorem TransactionSpendingCondition.wf_of_verify (hS : SigningLaws X) {c : TransactionSpendingCondition X}
    {cur next : Txid} {code : TransactionAuthFlags} (h : c.verify cur code = .ok next)
    (hlen : c.fields.length ≤ X.maxFields) : c.Wf := by
  cases c with
  | singlesig data =>
    obtain ⟨key, hnext, howned⟩ := SinglesigSpendingCondition.verify_ok.1 h
    intro hmode
    rw [SinglesigSpendingCondition.OwnedBy, hmode] at howned
    have hkey := hS.p2wpkh_compressed _ _ _ howned key (List.mem_singleton_self key)
    rw [(nextVerification_ok.1 hnext).2.1] at hkey
    cases hencoding : data.keyEncoding with
    | compressed => rfl
    | uncompressed => simp [hencoding, TransactionPublicKeyEncoding.toBool] at hkey
  | multisig data => exact MultisigCondition.wf_of_verify h hlen
  | orderIndependentMultisig data => exact MultisigCondition.wf_of_verify h hlen

theorem TransactionAuth.wf_of_verify (hS : SigningLaws X) {a : TransactionAuth X} {cur : Txid}
    (h : a.verify cur = .ok ()) (horigin : a.origin.fields.length ≤ X.maxFields)
    (hsponsor : ∀ c ∈ a.sponsor, c.fields.length ≤ X.maxFields) : a.Wf := by
  obtain ⟨next, hnext, hrest⟩ := verify_ok.1 h
  cases a with
  | standard origin => exact origin.wf_of_verify hS hnext horigin
  | sponsored origin sponsor =>
    obtain ⟨last, hlast⟩ := hrest sponsor rfl
    exact ⟨origin.wf_of_verify hS hnext horigin, sponsor.wf_of_verify hS hlast (hsponsor sponsor rfl)⟩

end Wrb.Tx
