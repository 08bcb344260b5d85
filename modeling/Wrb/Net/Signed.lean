/-
Signed p2p messages (`src/net/codec.rs`, `Preamble` and `StacksMessage`).

A message is a preamble, the relays that it came through, and a payload. Each node on the way signs it anew: the
signature is over the preamble, with a blank signature, and everything behind it. A node that passes the message on adds
itself to the relays, with the sequence number that the message had when it came.

What is taken from `stacks_common` is in `P2pExt`, with `P2pLaws` and `NamesLaws`; `X4` is a concrete one.
-/
import Wrb.Net.Messages
import Wrb.Tx.Reference

namespace Wrb.Net

open Wrb.Wire Wrb.Storage Wrb.Runner

/-! ## Types -/

abbrev BurnchainHeaderHash := BitVec 256

/-- what signed messages take from outside the repository, besides what their payloads do -/
structure P2pExt extends NetExt where
  /-- `Secp256k1PublicKey` -/
  Key : Type
  burnchainHeaderHash : Codec CodecError BurnchainHeaderHash
  messageSignature : Codec CodecError MessageSignature
  /-- `MAX_MESSAGE_LEN`, `PREAMBLE_ENCODED_SIZE` and `MAX_RELAYERS_LEN` of `stacks_common::codec` -/
  maxMessageLen : UInt32
  preambleEncodedSize : UInt32
  maxRelayersLen : UInt32
  /-- `Sha512_256` -/
  digest : Bytes → BitVec 256
  /-- `Secp256k1PublicKey::from_private` -/
  fromPrivate : Secp256k1PrivateKey → Key
  /-- `Secp256k1PrivateKey::sign` and `Secp256k1PublicKey::verify`; their errors are given as text -/
  signDigest : Secp256k1PrivateKey → BitVec 256 → Except String MessageSignature
  verifyDigest : Key → BitVec 256 → MessageSignature → Except String Bool
  /-- `StacksPublicKeyBuffer::from_public_key` and `to_public_key` -/
  fromPublicKey : Key → StacksPublicKeyBuffer
  toPublicKey : StacksPublicKeyBuffer → Except String Key

/-- included in all p2p network messages -/
structure Preamble where
  peerVersion : UInt32
  networkId : UInt32
  /-- message sequence number, pairs this message to a request -/
  seq : UInt32
  burnBlockHeight : UInt64
  burnBlockHash : BurnchainHeaderHash
  burnStableBlockHeight : UInt64
  burnStableBlockHash : BurnchainHeaderHash
  additionalData : UInt32
  /-- signature from the peer that sent this -/
  signature : MessageSignature
  /-- length of the following payload, including the relayers vector -/
  payloadLen : UInt32
deriving DecidableEq, Repr

/-- a descriptor of a peer -/
structure NeighborAddress where
  addrbytes : PeerAddress
  port : UInt16
  publicKeyHash : Hash160
deriving DecidableEq, Repr

structure RelayData where
  peer : NeighborAddress
  seq : UInt32
deriving DecidableEq, Repr

structure StacksMessage (X : P2pExt) where
  preamble : Preamble
  relayers : List RelayData
  payload : StacksMessageType X.toNetExt
deriving DecidableEq

/-- the errors of `Error` that signing and verifying build; a write can also panic -/
inductive MessageError where
  | write (e : WriteFault)
  | signingError (msg : String)
  | verifyingError (msg : String)
  | deserializeError (msg : String)
  | invalidMessage
deriving DecidableEq, Repr

variable {X : P2pExt}

/-! ## Codecs -/

def Preamble.new (peerVersion networkId : UInt32) (blockHeight : UInt64) (burnBlockHash : BurnchainHeaderHash)
    (stableBlockHeight : UInt64) (stableBurnBlockHash : BurnchainHeaderHash) (payloadLen : UInt32) : Preamble :=
  ⟨peerVersion, networkId, 0, blockHeight, burnBlockHash, stableBlockHeight, stableBurnBlockHash, 0, 0, payloadLen⟩

/-- the checks of the reader of preambles -/
def Preamble.check (X : P2pExt) (p : Preamble) : Except CodecError Unit :=
  -- a vector of length zero and a type identifier
  if p.payloadLen < 5 then .error (.deserializeError s!"Payload len is too small: {p.payloadLen}")
  else if p.payloadLen ≥ X.maxMessageLen then .error (.deserializeError s!"Payload len is too big: {p.payloadLen}")
  else if p.burnBlockHeight ≤ p.burnStableBlockHeight then
    .error (.deserializeError
      s!"Burn block height {p.burnBlockHeight} <= burn stable block height {p.burnStableBlockHeight}")
  else .ok ()

def Preamble.codec (X : P2pExt) : Codec CodecError Preamble where
  enc p := X.u32.enc p.peerVersion ++ (X.u32.enc p.networkId ++ (X.u32.enc p.seq ++ (X.u64.enc p.burnBlockHeight ++
    (X.burnchainHeaderHash.enc p.burnBlockHash ++ (X.u64.enc p.burnStableBlockHeight ++
    (X.burnchainHeaderHash.enc p.burnStableBlockHash ++ (X.u32.enc p.additionalData ++
    (X.messageSignature.enc p.signature ++ X.u32.enc p.payloadLen))))))))
  dec := do
    let peerVersion ← X.u32.dec
    let networkId ← X.u32.dec
    let seq ← X.u32.dec
    let burnBlockHeight ← X.u64.dec
    let burnBlockHash ← X.burnchainHeaderHash.dec
    let burnStableBlockHeight ← X.u64.dec
    let burnStableBlockHash ← X.burnchainHeaderHash.dec
    let additionalData ← X.u32.dec
    let signature ← X.messageSignature.dec
    let payloadLen ← X.u32.dec
    let p : Preamble := ⟨peerVersion, networkId, seq, burnBlockHeight, burnBlockHash, burnStableBlockHeight,
      burnStableBlockHash, additionalData, signature, payloadLen⟩
    match p.check X with
    | .error e => throw e
    | .ok () => pure p

def NeighborAddress.codec (X : P2pExt) : Codec CodecError NeighborAddress where
  enc a := X.peerAddress.enc a.addrbytes ++ (X.u16.enc a.port ++ X.hash160.enc a.publicKeyHash)
  dec := do
    let addrbytes ← X.peerAddress.dec
    let port ← X.u16.dec
    let publicKeyHash ← X.hash160.dec
    pure ⟨addrbytes, port, publicKeyHash⟩

def RelayData.codec (X : P2pExt) : Codec CodecError RelayData where
  enc r := (NeighborAddress.codec X).enc r.peer ++ X.u32.enc r.seq
  dec := do
    let peer ← (NeighborAddress.codec X).dec
    let seq ← X.u32.dec
    pure ⟨peer, seq⟩

namespace StacksMessage

/-- the relays and the payload, that the signature is over -/
def messageBits (m : StacksMessage X) : Except WriteFault Bytes :=
  andThen (.ok ((X.vec (RelayData.codec X)).enc m.relayers)) m.payload.consensusSerialize

def consensusSerialize (m : StacksMessage X) : Except WriteFault Bytes :=
  andThen (.ok ((Preamble.codec X).enc m.preamble)) <|
    andThen (.ok ((X.vec (RelayData.codec X)).enc m.relayers)) m.payload.consensusSerialize

def deserializeBody (X : P2pExt) : Decoder CodecError (List RelayData × StacksMessageType X.toNetExt) := do
  let relayers ← X.readNextAtMost (RelayData.codec X) X.maxRelayersLen
  let payload ← StacksMessageType.consensusDeserialize X.toNetExt
  pure (relayers, payload)

def consensusDeserialize (X : P2pExt) : Decoder CodecError (StacksMessage X) := do
  let preamble ← (Preamble.codec X).dec
  if preamble.payloadLen > X.maxMessageLen - X.preambleEncodedSize then
    throw (.deserializeError "Message would be too big")
  else
    let (relayers, payload) ← deserializeBody X
    pure ⟨preamble, relayers, payload⟩

/-- an unsigned message -/
def new (peerVersion networkId : UInt32) (blockHeight : UInt64) (burnHeaderHash : BurnchainHeaderHash)
    (stableBlockHeight : UInt64) (stableBurnHeaderHash : BurnchainHeaderHash)
    (message : StacksMessageType X.toNetExt) : StacksMessage X :=
  ⟨Preamble.new peerVersion networkId blockHeight burnHeaderHash stableBlockHeight stableBurnHeaderHash 0, [], message⟩

end StacksMessage

/-! ## Signatures -/

/-- what a signature is over: the preamble with a blank signature, and the bits behind it -/
def Preamble.digestBits (X : P2pExt) (p : Preamble) (messageBits : Bytes) : BitVec 256 :=
  X.digest ((Preamble.codec X).enc { p with signature := 0 } ++ messageBits)

/-- the signature itself is left out of what is signed -/
theorem Preamble.digestBits_signature (p : Preamble) (sig : MessageSignature) (messageBits : Bytes) :
    Preamble.digestBits X { p with signature := sig } messageBits = p.digestBits X messageBits := rfl

def Preamble.sign (X : P2pExt) (p : Preamble) (messageBits : Bytes) (privkey : Secp256k1PrivateKey) :
    Except MessageError Preamble :=
  match X.signDigest privkey (p.digestBits X messageBits) with
  | .error e => .error (.signingError e)
  | .ok sig => .ok { p with signature := sig }

def Preamble.verify (X : P2pExt) (p : Preamble) (messageBits : Bytes) (pubkey : X.Key) : Except MessageError Unit :=
  match X.verifyDigest pubkey (p.digestBits X messageBits) p.signature with
  | .error _ => .error (.verifyingError "Failed to verify signature")
  | .ok res => if res then .ok () else .error (.verifyingError "Invalid message signature")

namespace StacksMessage

/-- with the message as the call leaves it -/
def doSign (m : StacksMessage X) (privateKey : Secp256k1PrivateKey) : Except MessageError Unit × StacksMessage X :=
  match m.messageBits with
  | .error e => (.error (.write e), m)
  | .ok bits =>
    let m := { m with preamble := { m.preamble with payloadLen := UInt32.ofNat bits.length } }
    match m.preamble.sign X bits privateKey with
    | .error e => (.error e, m)
    | .ok preamble => (.ok (), { m with preamble := preamble })

/-- the message must not have any relayers -/
def sign (m : StacksMessage X) (seq : UInt32) (privateKey : Secp256k1PrivateKey) :
    Except MessageError Unit × StacksMessage X :=
  if m.relayers ≠ [] then (.error .invalidMessage, m)
  else { m with preamble := { m.preamble with seq := seq } }.doSign privateKey

/-- sign the message and add ourselves as a relayer -/
def signRelay (m : StacksMessage X) (privateKey : Secp256k1PrivateKey) (ourSeq : UInt32) (ourAddr : NeighborAddress) :
    Except MessageError Unit × StacksMessage X :=
  if X.maxRelayersLen.toNat ≤ m.relayers.length then (.error .invalidMessage, m)
  -- don't sign if signed more than once
  else if m.relayers.any fun relayer => relayer.peer.publicKeyHash == ourAddr.publicKeyHash then
    (.error .invalidMessage, m)
  else
    let ourRelay : RelayData := ⟨ourAddr, m.preamble.seq⟩
    { m with
      relayers := m.relayers ++ [ourRelay], preamble := { m.preamble with seq := ourSeq } }.doSign privateKey

def verifySecp256k1 (m : StacksMessage X) (publicKey : StacksPublicKeyBuffer) : Except MessageError Unit :=
  match X.toPublicKey publicKey with
  | .error e => .error (.deserializeError e)
  | .ok pubkey =>
    match m.messageBits with
    | .error e => .error (.write e)
    | .ok bits => m.preamble.verify X bits pubkey

end StacksMessage

/-- what `stacks_common` promises: its codecs read back what they write, a signature verifies under the key it was made
with, also after this went through its buffer, and a message can be longer than a preamble -/
structure P2pLaws (X : P2pExt) : Prop where
  net : NetLaws X.toNetExt
  codecs : CodecLaws X.toExt
  sizes : SizeLaws X.toExt
  burnchainHeaderHash : ∀ v, X.burnchainHeaderHash.RoundTrips v
  messageSignature : ∀ v, X.messageSignature.RoundTrips v
  signs : ∀ key digest, ∃ sig pubkey, X.signDigest key digest = .ok sig ∧
    X.toPublicKey (X.fromPublicKey (X.fromPrivate key)) = .ok pubkey ∧ X.verifyDigest pubkey digest sig = .ok true
  preamble_pos : 0 < X.preambleEncodedSize
  preamble_le : X.preambleEncodedSize ≤ X.maxMessageLen

/-- what is read as a contract name can be written as one, and addresses have a version that can be written -/
structure NamesLaws (X : NetExt) : Prop where
  contractName : ∀ b name rest, X.contractNameDec.run b = .ok (name, rest) → ∃ b', X.contractNameEnc name = .ok b'
  stacksAddressNew : ∀ version bytes addr, X.stacksAddressNew version bytes = some addr → addr.version < 32

namespace Reference

open Storage.Reference

/-- a stand-in that holds the key and what it signs -/
def signatureOf (key : BitVec 264) (digest : BitVec 256) : MessageSignature :=
  BitVec.ofNat 520 (key.toNat * 2 ^ 256 + digest.toNat)

end Reference

open Storage.Reference in
/-- the reference functions, with the formats and the constants of signed messages -/
def X4 : P2pExt where
  toNetExt := Tx.X3.toNetExt
  Key := BitVec 264
  burnchainHeaderHash := be 32 BitVec.toNat (BitVec.ofNat 256)
  messageSignature := be 65 BitVec.toNat (BitVec.ofNat 520)
  maxMessageLen := 16778054
  preambleEncodedSize := 165
  maxRelayersLen := 16
  digest := X0.fromData
  fromPrivate key := key.setWidth 264
  signDigest key digest := .ok (Reference.signatureOf (key.setWidth 264) digest)
  verifyDigest key digest sig := .ok (decide (sig = Reference.signatureOf key digest))
  fromPublicKey key := key
  toPublicKey buffer := .ok buffer

theorem X4_laws : P2pLaws X4 where
  net := Tx.X3_txLaws.toNetLaws
  codecs := X0_codecLaws
  sizes := X0_sizeLaws
  burnchainHeaderHash v := @Reference.array_roundTrips 32 v
  messageSignature v := @Reference.array_roundTrips 65 v
  signs key digest := ⟨_, _, rfl, rfl, by simp [X4]⟩
  preamble_pos := by decide
  preamble_le := by decide

theorem X4_namesLaws : NamesLaws X4.toNetExt where
  contractName b name rest h := by
    obtain ⟨n, -, b', hb', -⟩ := Tx.X3_acceptLaws.contractName b name rest h
    exact ⟨b', hb'⟩
  stacksAddressNew version bytes addr h := by
    have hnew : (if version < 32 then some (⟨version, bytes⟩ : StacksAddress) else none) = some addr := h
    split_ifs at hnew with hversion
    cases hnew
    exact hversion

/-- the rejection of a handshake, ten blocks above the last stable one -/
def rejection : StacksMessage X4 := .new 0x18000000 1 110 5 100 6 .handshakeReject

end Wrb.Net
