/-
The p2p messages of the client and their wire format (`src/net/codec.rs`, `src/net/mod.rs`, `src/tx/string.rs`).

A message is one ID byte and the payload of its variant. Writing is `Except WriteFault Bytes`: it can fail with an error
of the codec, and it can panic. Reading is a `Decoder`.

Results:
- `reads_back_iff`: a valid message is read back from the bytes it is written as iff it is not a `Nack` and lists at
  most 255 contracts.
- `serialize_full`: with the documented 256 contracts the write panics.
Failing trace: `nack_and_256_lost`.
-/
import Wrb.Runner.Reference

namespace Wrb.Net

open Wrb.Wire Wrb.Storage Wrb.Runner

/-! ## Types of `stacks_common`, `clarity` and `url` -/

abbrev PeerAddress := BitVec 128
abbrev StacksPublicKeyBuffer := BitVec 264
abbrev ConsensusHash := BitVec 160

/-- a parsed URL, as far as `parse_to_block_url` looks at it -/
structure Url where
  scheme : String
  username : String
  password : Option String
  hostStr : Option String
  query : Option String
  fragment : Option String
deriving DecidableEq, Repr

/-- what the p2p codec takes from outside the repository, besides what the storage layer does -/
structure NetExt extends Ext where
  u16 : Codec CodecError UInt16
  peerAddress : Codec CodecError PeerAddress
  publicKeyBuffer : Codec CodecError StacksPublicKeyBuffer
  consensusHash : Codec CodecError ConsensusHash
  /-- the codec of `[u8; 20]` -/
  bytes20 : Codec CodecError (BitVec 160)
  /-- the codec of `ContractName`, which writes names of a limited length only -/
  contractNameEnc : String → Except CodecError Bytes
  contractNameDec : Decoder CodecError String
  /-- `StacksAddress::new`, which refuses a version it cannot write in an address -/
  stacksAddressNew : UInt8 → Hash160 → Option StacksAddress
  /-- `clarity::vm::representations::MAX_STRING_LEN` -/
  clarityMaxStringLength : UInt8
  /-- `url::Url::parse`; the error is given as it is written in messages -/
  urlParse : String → Except String Url
  /-- a text as `\x7b:?\x7d` writes it -/
  showDebug : String → String

/-- how a write ends that does not succeed -/
inductive WriteFault where
  | error (e : CodecError)
  | arrayTooLong
  | panicked (msg : String)
deriving DecidableEq, Repr

/-! ## URL strings -/

/-- the character class of `URL_STRING_REGEX` -/
def isUrlChar (c : Char) : Bool :=
  ('a' ≤ c && c ≤ 'z') || ('A' ≤ c && c ≤ 'Z') || ('0' ≤ c && c ≤ '9') ||
    "._~:/?#[]@!$&'()*+,;%=-".toList.contains c

/-- text that passes the checks of `guarded_string!`: its length and its characters -/
structure UrlString (X : NetExt) where
  text : String
  short : (asBytes text).length ≤ X.clarityMaxStringLength.toNat
  legal : text.toList.all isUrlChar = true
deriving DecidableEq

namespace UrlString

variable {X : NetExt}

def tryFrom (X : NetExt) (s : String) : Except String (UrlString X) :=
  if h : (asBytes s).length ≤ X.clarityMaxStringLength.toNat ∧ s.toList.all isUrlChar = true then .ok ⟨s, h.1, h.2⟩
  else .error s!"BadNameValue(\"UrlString\", {X.showDebug s})"

/-- a block URL is an HTTP(S) URL without a query or fragment, and without a login -/
def parseToBlockUrl (u : UrlString X) : Except CodecError Url :=
  match X.urlParse u.text with
  | .error e => .error (.deserializeError s!"Invalid URL: {e}")
  | .ok url =>
    if url.scheme ≠ "http" ∧ url.scheme ≠ "https" then
      .error (.deserializeError s!"Invalid URL: invalid scheme '{url.scheme}'")
    else if url.username ≠ "" ∨ url.password.isSome = true then
      .error (.deserializeError "Invalid URL: must not contain a username/password")
    else if url.hostStr = none then .error (.deserializeError "Invalid URL: no host string")
    else if url.query.isSome = true then
      .error (.deserializeError "Invalid URL: query strings not supported for block URLs")
    else if url.fragment.isSome = true then
      .error (.deserializeError "Invalid URL: fragments are not supported for block URLs")
    else .ok url

/-- the check on both ways: a block URL, or the empty text -/
def checkBlockUrl (u : UrlString X) : Except CodecError Unit :=
  if asBytes u.text = [] then .ok () else u.parseToBlockUrl.map fun _ => ()

def consensusSerialize (u : UrlString X) : Except WriteFault Bytes :=
  if (asBytes u.text).length > X.clarityMaxStringLength.toNat then
    .error (.error (.serializeError "Failed to serialize URL string: too long"))
  else
    match u.checkBlockUrl with
    | .error e => .error (.error e)
    | .ok () => .ok (X.u8.enc (UInt8.ofNat (asBytes u.text).length) ++ asBytes u.text)

/-- `String::from_utf8`, `UrlString::try_from` and the check, on the bytes after the length -/
def ofBytes (X : NetExt) (bytes : Bytes) : Decoder CodecError (UrlString X) :=
  match fromUtf8 bytes with
  | none => throw (.deserializeError "Failed to parse URL string: could not contruct from utf8")
  | some s =>
    match tryFrom X s with
    | .error e => throw (.deserializeError s!"Failed to parse URL string: {e}")
    | .ok url =>
      match url.checkBlockUrl with
      | .error e => throw e
      | .ok () => pure url

def consensusDeserialize (X : NetExt) : Decoder CodecError (UrlString X) := do
  let lenByte ← X.u8.dec
  if lenByte > X.clarityMaxStringLength then throw (.deserializeError "Failed to deserialize URL string: too long")
  else
    let bytes ← readExact (.readError "failed to fill whole buffer") lenByte.toNat
    ofBytes X bytes

end UrlString

/-! ## Payloads -/

structure HandshakeData (X : NetExt) where
  addrbytes : PeerAddress
  port : UInt16
  /-- bit field representing services this node offers -/
  services : UInt16
  nodePublicKey : StacksPublicKeyBuffer
  /-- burn block height after which this node's key will be revoked -/
  expireBlockHeight : UInt64
  dataUrl : UrlString X
deriving DecidableEq

structure HandshakeAcceptData (X : NetExt) where
  handshake : HandshakeData X
  /-- hint as to how long this peer will remember you -/
  heartbeatInterval : UInt32
deriving DecidableEq

structure NackData where
  errorCode : UInt32
deriving DecidableEq, Repr

structure StackerDBHandshakeData where
  rcConsensusHash : ConsensusHash
  /-- there can be as many as 256 entries -/
  smartContracts : List QualifiedContractIdentifier
deriving DecidableEq, Repr

inductive StacksMessageType (X : NetExt) where
  | handshake (m : HandshakeData X)
  | handshakeAccept (m : HandshakeAcceptData X)
  | handshakeReject
  | nack (m : NackData)
  | stackerDBHandshakeAccept (h : HandshakeAcceptData X) (m : StackerDBHandshakeData)
deriving DecidableEq

inductive StacksMessageID where
  | handshake
  | handshakeAccept
  | handshakeReject
  | nack
  | stackerDBHandshakeAccept
deriving DecidableEq, Repr

/-- `self as u8` -/
def StacksMessageID.toU8 : StacksMessageID → UInt8
  | handshake => 0
  | handshakeAccept => 1
  | handshakeReject => 2
  | nack => 14
  | stackerDBHandshakeAccept => 19

/-! ## Codecs -/

def HandshakeData.consensusSerialize {X : NetExt} (m : HandshakeData X) : Except WriteFault Bytes :=
  andThen (.ok (X.peerAddress.enc m.addrbytes)) <| andThen (.ok (X.u16.enc m.port)) <|
    andThen (.ok (X.u16.enc m.services)) <| andThen (.ok (X.publicKeyBuffer.enc m.nodePublicKey)) <|
    andThen (.ok (X.u64.enc m.expireBlockHeight)) m.dataUrl.consensusSerialize

def HandshakeData.consensusDeserialize (X : NetExt) : Decoder CodecError (HandshakeData X) := do
  let addrbytes ← X.peerAddress.dec
  let port ← X.u16.dec
  if port = 0 then throw (.deserializeError "Invalid handshake data: port is 0")
  else
    let services ← X.u16.dec
    let nodePublicKey ← X.publicKeyBuffer.dec
    let expireBlockHeight ← X.u64.dec
    let dataUrl ← UrlString.consensusDeserialize X
    pure ⟨addrbytes, port, services, nodePublicKey, expireBlockHeight, dataUrl⟩

def HandshakeAcceptData.consensusSerialize {X : NetExt} (m : HandshakeAcceptData X) : Except WriteFault Bytes :=
  andThen m.handshake.consensusSerialize (.ok (X.u32.enc m.heartbeatInterval))

def HandshakeAcceptData.consensusDeserialize (X : NetExt) : Decoder CodecError (HandshakeAcceptData X) := do
  let handshake ← HandshakeData.consensusDeserialize X
  let heartbeatInterval ← X.u32.dec
  pure ⟨handshake, heartbeatInterval⟩

def NackData.consensusSerialize (X : NetExt) (m : NackData) : Except WriteFault Bytes := .ok (X.u32.enc m.errorCode)

def NackData.consensusDeserialize (X : NetExt) : Decoder CodecError NackData := do
  let errorCode ← X.u32.dec
  pure ⟨errorCode⟩

def contractIdConsensusSerialize (X : NetExt) (cid : QualifiedContractIdentifier) : Except WriteFault Bytes :=
  andThen (.ok (X.u8.enc cid.issuer.version)) <| andThen (.ok (X.bytes20.enc cid.issuer.bytes)) <|
    (X.contractNameEnc cid.name).mapError .error

def contractIdConsensusDeserialize (X : NetExt) : Decoder CodecError QualifiedContractIdentifier := do
  let version ← X.u8.dec
  let bytes ← X.bytes20.dec
  let name ← X.contractNameDec
  match X.stacksAddressNew version bytes with
  | none => throw (.deserializeError "Failed to make StacksAddress with given version")
  | some addr => pure ⟨⟨addr.version, addr.bytes⟩, name⟩

def StackerDBHandshakeData.consensusSerialize (X : NetExt) (m : StackerDBHandshakeData) : Except WriteFault Bytes :=
  if m.smartContracts.length > 256 then .error .arrayTooLong
  -- the length into a `u8`, with `.expect("Unreachable")`
  else if m.smartContracts.length > 255 then .error (.panicked "Unreachable")
  else
    andThen (.ok (X.consensusHash.enc m.rcConsensusHash)) <|
      andThen (.ok (X.u8.enc (UInt8.ofNat m.smartContracts.length))) <|
      writeMany (contractIdConsensusSerialize X) m.smartContracts

def StackerDBHandshakeData.consensusDeserialize (X : NetExt) : Decoder CodecError StackerDBHandshakeData := do
  let rcConsensusHash ← X.consensusHash.dec
  let lenU8 ← X.u8.dec
  let smartContracts ← readMany (contractIdConsensusDeserialize X) lenU8.toNat
  pure ⟨rcConsensusHash, smartContracts⟩

def StacksMessageID.consensusSerialize (X : NetExt) (id : StacksMessageID) : Except WriteFault Bytes :=
  .ok (X.u8.enc id.toU8)

def StacksMessageID.consensusDeserialize (X : NetExt) : Decoder CodecError StacksMessageID := do
  let asU8 ← X.u8.dec
  if asU8 = handshake.toU8 then pure handshake
  else if asU8 = handshakeAccept.toU8 then pure handshakeAccept
  else if asU8 = handshakeReject.toU8 then pure handshakeReject
  else if asU8 = stackerDBHandshakeAccept.toU8 then pure stackerDBHandshakeAccept
  else throw (.deserializeError "Unknown message ID")

namespace StacksMessageType

variable {X : NetExt}

def getMessageId : StacksMessageType X → StacksMessageID
  | handshake _ => .handshake
  | handshakeAccept _ => .handshakeAccept
  | handshakeReject => .handshakeReject
  | nack _ => .nack
  | stackerDBHandshakeAccept _ _ => .stackerDBHandshakeAccept

/-- what follows the ID -/
def serializePayload : StacksMessageType X → Except WriteFault Bytes
  | handshake m => m.consensusSerialize
  | handshakeAccept m => m.consensusSerialize
  | handshakeReject => .ok []
  | nack m => m.consensusSerialize X
  | stackerDBHandshakeAccept h m => andThen h.consensusSerialize (m.consensusSerialize X)

def consensusSerialize (m : StacksMessageType X) : Except WriteFault Bytes :=
  andThen (.ok (X.u8.enc m.getMessageId.toU8)) m.serializePayload

def deserializePayload (X : NetExt) : StacksMessageID → Decoder CodecError (StacksMessageType X)
  | .handshake => do
    let m ← HandshakeData.consensusDeserialize X
    pure (handshake m)
  | .handshakeAccept => do
    let m ← HandshakeAcceptData.consensusDeserialize X
    pure (handshakeAccept m)
  | .handshakeReject => pure handshakeReject
  | .nack => do
    let m ← NackData.consensusDeserialize X
    pure (nack m)
  | .stackerDBHandshakeAccept => do
    let h ← HandshakeAcceptData.consensusDeserialize X
    let m ← StackerDBHandshakeData.consensusDeserialize X
    pure (stackerDBHandshakeAccept h m)

def consensusDeserialize (X : NetExt) : Decoder CodecError (StacksMessageType X) := do
  let messageId ← StacksMessageID.consensusDeserialize X
  deserializePayload X messageId

end StacksMessageType

/-! ## What the codecs outside promise, and which messages are valid -/

/-- the codecs of `stacks_common` and `clarity` read back what they write, and an address takes every version below
32 -/
structure NetLaws (X : NetExt) : Prop where
  u8 : ∀ v, X.u8.RoundTrips v
  u16 : ∀ v, X.u16.RoundTrips v
  u32 : ∀ v, X.u32.RoundTrips v
  u64 : ∀ v, X.u64.RoundTrips v
  peerAddress : ∀ v, X.peerAddress.RoundTrips v
  publicKeyBuffer : ∀ v, X.publicKeyBuffer.RoundTrips v
  consensusHash : ∀ v, X.consensusHash.RoundTrips v
  bytes20 : ∀ v, X.bytes20.RoundTrips v
  contractName : ∀ name b, X.contractNameEnc name = .ok b → Reads X.contractNameDec b name
  stacksAddressNew : ∀ version bytes, version < 32 → X.stacksAddressNew version bytes = some ⟨version, bytes⟩

/-- a port that is not zero, and a URL for blocks or none -/
structure HandshakeData.Valid {X : NetExt} (m : HandshakeData X) : Prop where
  port : m.port ≠ 0
  dataUrl : m.dataUrl.checkBlockUrl = .ok ()

/-- a contract ID as `clarity` builds and writes it -/
structure ContractIdValid (X : NetExt) (cid : QualifiedContractIdentifier) : Prop where
  version : cid.issuer.version < 32
  name : ∃ b, X.contractNameEnc cid.name = .ok b

structure StackerDBHandshakeData.Valid (X : NetExt) (m : StackerDBHandshakeData) : Prop where
  length_le : m.smartContracts.length ≤ 256
  ids : ∀ cid ∈ m.smartContracts, ContractIdValid X cid

namespace StacksMessageType

variable {X : NetExt}

def Valid : StacksMessageType X → Prop
  | handshake m => m.Valid
  | handshakeAccept m => m.handshake.Valid
  | handshakeReject => True
  | nack _ => True
  | stackerDBHandshakeAccept h m => h.handshake.Valid ∧ m.Valid X

/-- writing the message succeeds, and reading the bytes returns it and leaves nothing -/
def SurvivesTheWire (m : StacksMessageType X) : Prop :=
  ∃ b, m.consensusSerialize = .ok b ∧ (consensusDeserialize X).run b = .ok (m, [])

/-- not a `Nack`, and not the 256 contracts that the documentation allows -/
def Carried : StacksMessageType X → Prop
  | nack _ => False
  | stackerDBHandshakeAccept _ m => m.smartContracts.length ≤ 255
  | _ => True

instance (m : StacksMessageType X) : Decidable m.Carried := by
  cases m <;> unfold Carried <;> infer_instance

end StacksMessageType

/-! ## One payload after the other -/

section Payloads

variable {X : NetExt}

theorem UrlString.tryFrom_text (u : UrlString X) : UrlString.tryFrom X u.text = .ok u := by
  have h : (asBytes u.text).length ≤ X.clarityMaxStringLength.toNat ∧ u.text.toList.all isUrlChar = true :=
    ⟨u.short, u.legal⟩
  rw [UrlString.tryFrom, dif_pos h]

theorem UrlString.readsBack (hX : NetLaws X) {u : UrlString X} (hu : u.checkBlockUrl = .ok ()) :
    ReadsBack u.consensusSerialize (UrlString.consensusDeserialize X) u := by
  have hlt : (asBytes u.text).length < 256 := lt_of_le_of_lt u.short X.clarityMaxStringLength.toNat_lt
  have hlen : (UInt8.ofNat (asBytes u.text).length).toNat = (asBytes u.text).length := by
    simpa using hlt
  have hread : Reads (UrlString.ofBytes X (asBytes u.text)) [] u := by
    simp only [UrlString.ofBytes, WrbpodSuperblock.fromUtf8_asBytes, UrlString.tryFrom_text, hu]
    exact Reads.pure u
  refine ⟨X.u8.enc (UInt8.ofNat (asBytes u.text).length) ++ asBytes u.text, ?_, ?_⟩
  · have hshort := u.short
    rw [UrlString.consensusSerialize, if_neg (by omega), hu]
  · apply (hX.u8 _).bind
    have hle : ¬UInt8.ofNat (asBytes u.text).length > X.clarityMaxStringLength := by
      have hshort := u.short
      rw [gt_iff_lt, UInt8.lt_iff_toNat_lt, hlen]
      omega
    rw [if_neg hle, hlen]
    exact (Reads.exact _ (asBytes u.text)).map hread

theorem HandshakeData.readsBack (hX : NetLaws X) {m : HandshakeData X} (hm : m.Valid) :
    ReadsBack m.consensusSerialize (HandshakeData.consensusDeserialize X) m := by
  apply (ReadsBack.of_codec (hX.peerAddress m.addrbytes)).andThen
  apply (ReadsBack.of_codec (hX.u16 m.port)).andThen
  rw [if_neg hm.port]
  apply (ReadsBack.of_codec (hX.u16 m.services)).andThen
  apply (ReadsBack.of_codec (hX.publicKeyBuffer m.nodePublicKey)).andThen
  apply (ReadsBack.of_codec (hX.u64 m.expireBlockHeight)).andThen
  exact (UrlString.readsBack hX hm.dataUrl).map (Reads.pure m)

theorem HandshakeAcceptData.readsBack (hX : NetLaws X) {m : HandshakeAcceptData X} (hm : m.handshake.Valid) :
    ReadsBack m.consensusSerialize (HandshakeAcceptData.consensusDeserialize X) m := by
  apply (HandshakeData.readsBack hX hm).andThen
  exact (ReadsBack.of_codec (hX.u32 m.heartbeatInterval)).map (Reads.pure m)

theorem contractId_readsBack (hX : NetLaws X) {cid : QualifiedContractIdentifier} (h : ContractIdValid X cid) :
    ReadsBack (contractIdConsensusSerialize X cid) (contractIdConsensusDeserialize X) cid := by
  obtain ⟨b, hb⟩ := h.name
  have hname : ReadsBack ((X.contractNameEnc cid.name).mapError WriteFault.error) X.contractNameDec cid.name := by
    rw [hb]
    exact ⟨b, rfl, hX.contractName cid.name b hb⟩
  apply (ReadsBack.of_codec (hX.u8 cid.issuer.version)).andThen
  apply (ReadsBack.of_codec (hX.bytes20 cid.issuer.bytes)).andThen
  apply hname.map
  rw [hX.stacksAddressNew _ _ h.version]
  exact Reads.pure cid

/-- the count of up to 255 contracts fits its byte -/
theorem StackerDBHandshakeData.readsBack (hX : NetLaws X) {m : StackerDBHandshakeData} (hm : m.Valid X)
    (hlen : m.smartContracts.length ≤ 255) :
    ReadsBack (m.consensusSerialize X) (StackerDBHandshakeData.consensusDeserialize X) m := by
  have hcount : (UInt8.ofNat m.smartContracts.length).toNat = m.smartContracts.length := by
    simpa using Nat.lt_succ_of_le hlen
  have hids := ReadsBack.many fun cid hcid => contractId_readsBack hX (hm.ids cid hcid)
  rw [StackerDBHandshakeData.consensusSerialize, if_neg (by omega), if_neg (by omega)]
  apply (ReadsBack.of_codec (hX.consensusHash m.rcConsensusHash)).andThen
  apply (ReadsBack.of_codec (hX.u8 _)).andThen
  rw [hcount]
  exact hids.map (Reads.pure m)

/-- one contract more, and the conversion to a byte panics, or the list is refused -/
theorem StackerDBHandshakeData.serialize_ne_ok {m : StackerDBHandshakeData} (hlen : 255 < m.smartContracts.length)
    (b : Bytes) : m.consensusSerialize X ≠ .ok b := by
  unfold StackerDBHandshakeData.consensusSerialize
  rw [if_pos hlen]
  split_ifs <;> exact fun heq => nomatch heq

/-- the reader of IDs knows all of them but `Nack` -/
theorem StacksMessageID.readsBack (hX : NetLaws X) {id : StacksMessageID} (h : id ≠ .nack) :
    ReadsBack (id.consensusSerialize X) (StacksMessageID.consensusDeserialize X) id := by
  apply (ReadsBack.of_codec (hX.u8 id.toU8)).map
  cases id with
  | nack => exact absurd rfl h
  | _ => exact Reads.pure _

theorem StacksMessageID.run_nack (hX : NetLaws X) (rest : Bytes) :
    (StacksMessageID.consensusDeserialize X).run (X.u8.enc StacksMessageID.nack.toU8 ++ rest) =
      .error (.deserializeError "Unknown message ID") := by
  rw [StacksMessageID.consensusDeserialize, StateT.run_bind, hX.u8 _ rest]
  rfl

end Payloads

/-! ## Messages -/

namespace StacksMessageType

variable {X : NetExt}

/-- what follows the ID of a carried message -/
theorem payload_readsBack (hX : NetLaws X) {m : StacksMessageType X} (hm : m.Valid) (h : m.Carried) :
    ReadsBack m.serializePayload (deserializePayload X m.getMessageId) m := by
  cases m with
  | handshake d => exact (HandshakeData.readsBack hX hm).map (Reads.pure _)
  | handshakeAccept d => exact (HandshakeAcceptData.readsBack hX hm).map (Reads.pure _)
  | handshakeReject => exact ⟨[], rfl, Reads.pure _⟩
  | nack d => exact absurd h id
  | stackerDBHandshakeAccept d e =>
    obtain ⟨hd, he⟩ := hm
    have hcontracts := StackerDBHandshakeData.readsBack hX he h
    exact (HandshakeAcceptData.readsBack hX hd).andThen (hcontracts.map (Reads.pure _))

theorem readsBack (hX : NetLaws X) {m : StacksMessageType X} (hm : m.Valid) (h : m.Carried) :
    ReadsBack m.consensusSerialize (consensusDeserialize X) m := by
  have hid : m.getMessageId ≠ .nack := by
    cases m with
    | nack d => exact absurd h id
    | _ => exact StacksMessageID.noConfusion
  exact (StacksMessageID.readsBack hX hid).andThen (payload_readsBack hX hm h)

/-- **Which messages survive the wire.** A valid message is written and read back iff it is not a `Nack`, whose ID the
reader does not know, and lists at most 255 contracts, the most whose count is a byte. -/
theorem reads_back_iff (hX : NetLaws X) (m : StacksMessageType X) (hm : m.Valid) : m.SurvivesTheWire ↔ m.Carried := by
  constructor
  · intro ⟨b, hb, hread⟩
    cases m with
    | nack d =>
      obtain rfl := Except.ok.inj hb
      rw [consensusDeserialize, StateT.run_bind, getMessageId, StacksMessageID.run_nack hX] at hread
      exact nomatch hread
    | stackerDBHandshakeAccept d e =>
      by_contra hlong
      have hfail : ∀ b', e.consensusSerialize X ≠ .ok b' :=
        StackerDBHandshakeData.serialize_ne_ok (not_le.1 hlong)
      exact andThen_ne_ok (andThen_ne_ok hfail) b hb
    | handshake d => trivial
    | handshakeAccept d => trivial
    | handshakeReject => trivial
  · intro h
    obtain ⟨b, hb, hread⟩ := readsBack hX hm h
    refine ⟨b, hb, ?_⟩
    have hrun := hread []
    rwa [List.append_nil] at hrun

/-- with the documented 256 contracts, writing a message that is valid otherwise panics -/
theorem serialize_full (hX : NetLaws X) {h : HandshakeAcceptData X} {m : StackerDBHandshakeData}
    (hh : h.handshake.Valid) (hfull : m.smartContracts.length = 256) :
    (stackerDBHandshakeAccept h m).consensusSerialize = .error (.panicked "Unreachable") := by
  obtain ⟨b, hb, -⟩ := HandshakeAcceptData.readsBack hX hh
  have hpanic : m.consensusSerialize X = .error (.panicked "Unreachable") := by
    rw [StackerDBHandshakeData.consensusSerialize, if_neg (by omega), if_pos (by omega)]
  rw [consensusSerialize, serializePayload, hb, hpanic]
  rfl

end StacksMessageType

/-! ## The formats of `stacks_common` and `clarity`, and messages in them -/

namespace Reference

open Storage.Reference

/-- names of 1 to 40 bytes -/
def contractNameEnc (name : String) : Except CodecError Bytes :=
  if 1 ≤ (asBytes name).length ∧ (asBytes name).length ≤ 40 then .ok (Runner.Reference.contractName.enc name)
  else .error (.serializeError "Failed to serialize contract name: too short or too long")

/-- URLs of a host, a port and a path, without a login, a query or a fragment; any other text is refused -/
def urlParse (s : String) : Except String Url :=
  let cs := s.toList
  if "http://".toList.isPrefixOf cs ∧ cs.all (fun c => !"@?#".toList.contains c) = true then
    let host := (cs.drop 7).takeWhile fun c => c ≠ '/' && c ≠ ':'
    .ok ⟨"http", "", none, some (String.ofList host), none, none⟩
  else .error "RelativeUrlWithoutBase"

/-- a raw array of `n` bytes -/
theorem array_roundTrips {n : ℕ} (v : BitVec (8 * n)) : (be n BitVec.toNat (BitVec.ofNat (8 * n))).RoundTrips v :=
  be_roundTrips (lt_of_lt_of_eq v.isLt (pow_mul 2 8 n)) (BitVec.ofNat_toNat _ _ |>.trans (BitVec.setWidth_eq v))

theorem contractName_reads {name : String} {b : Bytes} (h : contractNameEnc name = .ok b) :
    Reads Runner.Reference.contractName.dec b name := by
  unfold contractNameEnc at h
  split_ifs at h with hlen
  obtain rfl := Except.ok.inj h
  have hcount : (UInt8.ofNat (asBytes name).length).toNat = (asBytes name).length := by
    simpa using lt_of_le_of_lt hlen.2 (by decide : 40 < 256)
  apply (X0_codecLaws.u8 _).bind
  rw [hcount]
  apply (Reads.exact _ (asBytes name)).map
  rw [WrbpodSuperblock.fromUtf8_asBytes]
  exact Reads.pure name

end Reference

open Reference Storage.Reference in
/-- the reference functions, with the formats of the p2p codec -/
def X2 : NetExt where
  toExt := X0
  u16 := be 2 UInt16.toNat UInt16.ofNat
  peerAddress := be 16 BitVec.toNat (BitVec.ofNat 128)
  publicKeyBuffer := be 33 BitVec.toNat (BitVec.ofNat 264)
  consensusHash := be 20 BitVec.toNat (BitVec.ofNat 160)
  bytes20 := be 20 BitVec.toNat (BitVec.ofNat 160)
  contractNameEnc := contractNameEnc
  contractNameDec := Runner.Reference.contractName.dec
  stacksAddressNew version bytes := if version < 32 then some ⟨version, bytes⟩ else none
  clarityMaxStringLength := 128
  urlParse := urlParse
  showDebug s := s!"\"{s}\""

theorem X2_laws : NetLaws X2 where
  u8 v := X0_codecLaws.u8 v
  u16 v := Storage.Reference.be_roundTrips (by simpa using v.toNat_lt) (by simp)
  u32 v := X0_codecLaws.u32 v
  u64 v := X0_codecLaws.u64 v
  peerAddress v := @Reference.array_roundTrips 16 v
  publicKeyBuffer v := @Reference.array_roundTrips 33 v
  consensusHash v := @Reference.array_roundTrips 20 v
  bytes20 v := @Reference.array_roundTrips 20 v
  contractName _ _ h := Reference.contractName_reads h
  stacksAddressNew _ _ h := if_pos h

/-- a node on the local host that serves its data over HTTP -/
def localNode : HandshakeAcceptData X2 where
  handshake := ⟨1, 20444, 7, 2, 100, ⟨"http://localhost:20443", by decide +kernel, by decide +kernel⟩⟩
  heartbeatInterval := 3600

theorem localNode_valid : localNode.handshake.Valid where
  port := by decide
  dataUrl := by decide +kernel

/-- `n` contracts of one issuer -/
def contracts (n : ℕ) : StackerDBHandshakeData := ⟨5, List.replicate n ⟨⟨22, 9⟩, "db"⟩⟩

theorem contracts_valid {n : ℕ} (h : n ≤ 256) : (contracts n).Valid X2 where
  length_le := by simpa [contracts] using h
  ids cid hcid := by
    obtain rfl := List.eq_of_mem_replicate hcid
    exact ⟨by decide, _, rfl⟩

/-- a list of 255 contracts is read back -/
theorem reads_back_255 : (StacksMessageType.stackerDBHandshakeAccept localNode (contracts 255)).Valid ∧
    (StacksMessageType.stackerDBHandshakeAccept localNode (contracts 255)).SurvivesTheWire := by
  have hvalid : (StacksMessageType.stackerDBHandshakeAccept localNode (contracts 255)).Valid :=
    ⟨localNode_valid, contracts_valid (by decide)⟩
  refine ⟨hvalid, (StacksMessageType.reads_back_iff X2_laws _ hvalid).2 ?_⟩
  exact le_of_eq List.length_replicate

/-- the two ways a valid message is lost: a `Nack` is written and not read, and the 256th contract panics -/
theorem nack_and_256_lost :
    ((StacksMessageType.nack ⟨1⟩ : StacksMessageType X2).Valid ∧
      ∃ b, (StacksMessageType.nack ⟨1⟩ : StacksMessageType X2).consensusSerialize = .ok b ∧
        (StacksMessageType.consensusDeserialize X2).run b = .error (.deserializeError "Unknown message ID")) ∧
    (StacksMessageType.stackerDBHandshakeAccept localNode (contracts 256)).Valid ∧
      (StacksMessageType.stackerDBHandshakeAccept localNode (contracts 256)).consensusSerialize =
        .error (.panicked "Unreachable") := by
  refine ⟨⟨trivial, _, rfl, ?_⟩, ⟨localNode_valid, contracts_valid le_rfl⟩, ?_⟩
  · rw [StacksMessageType.consensusDeserialize, StateT.run_bind, StacksMessageType.getMessageId,
      StacksMessageID.run_nack X2_laws]
    rfl
  · exact StacksMessageType.serialize_full X2_laws localNode_valid List.length_replicate

end Wrb.Net
