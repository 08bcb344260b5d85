/-
A session with a node (`src/net/session.rs`; `has_routable_host` and `get_port` of `src/tx/string.rs`).

A session begins with a handshake that carries the key of the client. What `begin` asks the node over HTTP is given, and
the socket is the bytes that go each way. Where the code panics the result is `none`.

Results:
- `messages_numbered`: over every run of messages, each one that is made has the next sequence number and no relays, and
  verifies under the key of the session;
- `begin_iff`: when a session begins, the node can read the handshake that is sent exactly when the port is not zero and
  the stable height is below the tip, it then verifies under the key in it, and the session holds what the reply says.
-/
import Wrb.Net.Relays
import Wrb.Lib.Runs

namespace Wrb.Net

open Wrb.Wire Wrb.Storage Wrb.Runner Wrb.Runs

structure SessionExt extends P2pExt where
  /-- `Url::port_or_known_default` -/
  portOrKnownDefault : Url → Option UInt16
  /-- `PeerAddress::to_socketaddr`, as it is written in a URL -/
  showSocketaddr : PeerAddress → UInt16 → String

variable {X : SessionExt}

namespace UrlString

/-- the host is not one that stands for any address -/
def hasRoutableHost (u : UrlString X.toNetExt) : Bool :=
  match X.urlParse u.text with
  | .error _ => false
  | .ok url =>
    match url.hostStr with
    | some hostStr => !(hostStr == "0.0.0.0" || hostStr == "[::]" || hostStr == "::")
    | none => false

def getPort (u : UrlString X.toNetExt) : Option UInt16 :=
  match X.urlParse u.text with
  | .error _ => none
  | .ok url => X.portOrKnownDefault url

end UrlString

/-! ## Sessions -/

structure LocalPeer (X : SessionExt) where
  networkId : UInt32
  parentNetworkId : UInt32
  privateKey : Secp256k1PrivateKey
  privateKeyExpire : UInt64
  addrbytes : PeerAddress
  port : UInt16
  services : UInt16
  dataUrl : UrlString X.toNetExt

/-- what `/v2/info` says that the session uses -/
structure RPCPeerInfoData where
  peerVersion : UInt32
  networkId : UInt32
  parentNetworkId : UInt32
  burnBlockHeight : UInt64
  stableBurnBlockHeight : UInt64
deriving DecidableEq, Repr

structure NodeSession (X : SessionExt) where
  localPeer : LocalPeer X
  peerInfo : RPCPeerInfoData
  burnBlockHash : BurnchainHeaderHash
  stableBurnBlockHash : BurnchainHeaderHash
  handshakeAcceptData : Option (HandshakeData X.toNetExt)
  stackerdbAcceptData : Option StackerDBHandshakeData
  seq : UInt32

/-- `RELAY` and `RPC` -/
def LocalPeer.new (X : SessionExt) (networkId parentNetworkId : UInt32) (addrbytes : PeerAddress) (port : UInt16)
    (privkey : Secp256k1PrivateKey) (keyExpire : UInt64) (dataUrl : UrlString X.toNetExt) : LocalPeer X :=
  ⟨networkId, parentNetworkId, privkey, keyExpire, addrbytes, port, 0x01 ||| 0x02, dataUrl⟩

def HandshakeData.fromLocalPeer (p : LocalPeer X) : Option (HandshakeData X.toNetExt) := do
  let dataUrl ←
    if p.dataUrl.hasRoutableHost then some p.dataUrl
    else
      match p.dataUrl.getPort with
      -- deduce from public IP
      | some dataPort => (UrlString.tryFrom X.toNetExt s!"http://{X.showSocketaddr p.addrbytes dataPort}").toOption
      -- unroutable, so don't bother
      | none => (UrlString.tryFrom X.toNetExt "").toOption
  some ⟨p.addrbytes, p.port, p.services, X.fromPublicKey (X.fromPrivate p.privateKey), p.privateKeyExpire, dataUrl⟩

namespace NodeSession

def unsigned (s : NodeSession X) (payload : StacksMessageType X.toNetExt) : StacksMessage X.toP2pExt :=
  StacksMessage.new s.peerInfo.peerVersion s.peerInfo.networkId s.peerInfo.burnBlockHeight s.burnBlockHash
    s.peerInfo.stableBurnBlockHeight s.stableBurnBlockHash payload

/-- sign a message and set its sequence number -/
def makePeerMessage (s : NodeSession X) (payload : StacksMessageType X.toNetExt) :
    Except MessageError (StacksMessage X.toP2pExt) × NodeSession X :=
  match (s.unsigned payload).sign s.seq s.localPeer.privateKey with
  | (.error e, _) => (.error e, s)
  | (.ok (), msg) => (.ok msg, { s with seq := s.seq + 1 })

/-- a session before its handshake -/
def opened (info : RPCPeerInfoData) (burnBlockHash stableBurnBlockHash : BurnchainHeaderHash) (p : LocalPeer X) :
    NodeSession X :=
  ⟨p, info, burnBlockHash, stableBurnBlockHash, none, none, 0⟩

/-- the reply to the handshake -/
def accept (s : NodeSession X) : StacksMessageType X.toNetExt → Option (NodeSession X)
  | .handshakeAccept h => some { s with handshakeAcceptData := some h.handshake }
  | .stackerDBHandshakeAccept h d =>
    some { s with handshakeAcceptData := some h.handshake, stackerdbAcceptData := some d }
  | _ => none

/-- the handshake of `begin`: what is sent, and the session after the bytes of the reply; `none` where it fails -/
def shakeHands (s : NodeSession X) (reply : Bytes) :
    Option (StacksMessage X.toP2pExt × Bytes × Option (NodeSession X)) := do
  let data ← HandshakeData.fromLocalPeer s.localPeer
  match s.makePeerMessage (.handshake data) with
  | (.error _, _) => none
  | (.ok handshake, s) =>
    match handshake.consensusSerialize with
    | .error _ => none
    | .ok b =>
      match (StacksMessage.consensusDeserialize X.toP2pExt).run reply with
      | .error _ => some (handshake, b, none)
      | .ok (resp, _) => some (handshake, b, s.accept resp.payload)

/-- a session with the node behind a peer address: the data URL stands for the HTTP port of the node -/
def begin (X : SessionExt) (info : RPCPeerInfoData) (burnBlockHash stableBurnBlockHash : BurnchainHeaderHash)
    (privkey : Secp256k1PrivateKey) (replicaAddr : PeerAddress) (replicaPort dataPort : UInt16) (reply : Bytes) :
    Option (StacksMessage X.toP2pExt × Bytes × Option (NodeSession X)) := do
  let dataUrl ← (UrlString.tryFrom X.toNetExt s!"http://127.0.0.1:{dataPort}").toOption
  let localPeer := LocalPeer.new X info.networkId info.parentNetworkId replicaAddr replicaPort privkey
    (UInt64.ofNat (2 ^ 64 - 1)) dataUrl
  (opened info burnBlockHash stableBurnBlockHash localPeer).shakeHands reply

/-- the reference functions, with what a session needs of URLs -/
def X5 : SessionExt where
  toP2pExt := X4
  portOrKnownDefault url := if url.scheme = "http" then some 80 else if url.scheme = "https" then some 443 else none
  -- as it is written for an IPv4 address
  showSocketaddr a port :=
    let byte i := ((a >>> i).setWidth 8 : BitVec 8).toNat
    s!"{byte 24}.{byte 16}.{byte 8}.{byte 0}:{port}"

/-- the data URL of a client -/
def localUrl : UrlString X5.toNetExt := ⟨"http://127.0.0.1:20443", by decide +kernel, by decide +kernel⟩

/-- what a node at height 110 says of itself -/
def localInfo : RPCPeerInfoData := ⟨0x18000000, 1, 2, 110, 100⟩

/-- a session with that node before its handshake -/
def localSession : NodeSession X5 :=
  opened localInfo 5 6 (LocalPeer.new X5 1 2 1 20444 7 (UInt64.ofNat (2 ^ 64 - 1)) localUrl)

/-! ## Sequence numbers -/

section Messages

variable (hX : P2pLaws X.toP2pExt)
include hX

/-- a message is made if its payload can be written -/
theorem makePeerMessage_ok (s : NodeSession X) {payload : StacksMessageType X.toNetExt}
    (hpayload : ∃ b, payload.consensusSerialize = .ok b) :
    ∃ m, s.makePeerMessage payload = (.ok m, { s with seq := s.seq + 1 }) ∧ m.payload = payload ∧ m.relayers = [] ∧
      m.preamble.burnBlockHeight = s.peerInfo.burnBlockHeight ∧
      m.preamble.burnStableBlockHeight = s.peerInfo.stableBurnBlockHeight ∧
      m.SignedBy (s.localPeer.privateKey, s.seq) := by
  obtain ⟨m, hm, hcontent, hrelayers, hsigned⟩ := StacksMessage.doSign_spec hX s.localPeer.privateKey
    (m := { s.unsigned payload with preamble := { (s.unsigned payload).preamble with seq := s.seq } }) hpayload
  obtain ⟨seq, sig, len, hpreamble⟩ := hcontent.preamble
  refine ⟨m, ?_, hcontent.payload, hrelayers, ?_, ?_, hsigned⟩
  · rw [makePeerMessage, StacksMessage.sign, if_neg (show ¬(s.unsigned payload).relayers ≠ [] from not_not.2 rfl), hm]
  · rw [hpreamble]
    rfl
  · rw [hpreamble]
    rfl

/-- a message takes its sequence number only if it can be signed -/
theorem makePeerMessage_cases (s : NodeSession X) (payload : StacksMessageType X.toNetExt) :
    (∃ m, s.makePeerMessage payload = (.ok m, { s with seq := s.seq + 1 }) ∧ m.payload = payload ∧ m.relayers = [] ∧
      m.SignedBy (s.localPeer.privateKey, s.seq)) ∨
    ∃ e, s.makePeerMessage payload = (.error e, s) := by
  cases hpayload : payload.consensusSerialize with
  | error e =>
    have hbits : StacksMessage.messageBits
        { s.unsigned payload with preamble := { (s.unsigned payload).preamble with seq := s.seq } } = .error e := by
      show andThen _ payload.consensusSerialize = _
      rw [hpayload]
      rfl
    refine .inr ⟨.write e, ?_⟩
    rw [makePeerMessage, StacksMessage.sign, if_neg (show ¬(s.unsigned payload).relayers ≠ [] from not_not.2 rfl),
      StacksMessage.doSign, hbits]
  | ok b =>
    obtain ⟨m, hmake, hsame, hrelayers, -, -, hsigned⟩ := makePeerMessage_ok hX s ⟨b, hpayload⟩
    exact .inl ⟨m, hmake, hsame, hrelayers, hsigned⟩

/-- the messages of a run have the next numbers, the ones that failed not counted -/
theorem numbered {s : NodeSession X} {payloads : List (StacksMessageType X.toNetExt)} {i : ℕ}
    {m : StacksMessage X.toP2pExt} (hm : (runModel makePeerMessage s payloads).1[i]? = some (.ok m)) :
    m.preamble.seq = s.seq + UInt32.ofNat (((runModel makePeerMessage s payloads).1.take i).countP Except.isOk) ∧
      payloads[i]? = some m.payload ∧ m.relayers = [] ∧
      m.verifySecp256k1 (X.fromPublicKey (X.fromPrivate s.localPeer.privateKey)) = .ok () := by
  induction payloads generalizing s i with
  | nil => cases hm
  | cons payload payloads ih =>
    rcases makePeerMessage_cases hX s payload with ⟨m₁, hmake, hpayload, hrelayers, hsigned⟩ | ⟨e, hmake⟩
    · simp only [runModel, hmake] at hm ⊢
      cases i with
      | zero =>
        cases hm
        exact ⟨by simp [hsigned.seq], by simp [hpayload], hrelayers, hsigned.verifies⟩
      | succ i =>
        obtain ⟨hseq', hpayload', hrest⟩ := ih hm
        refine ⟨?_, hpayload', hrest⟩
        rw [hseq', List.take_succ_cons, List.countP_cons_of_pos rfl, UInt32.ofNat_add, UInt32.add_assoc,
          UInt32.add_comm 1]
        rfl
    · simp only [runModel, hmake] at hm ⊢
      cases i with
      | zero => cases hm
      | succ i =>
        obtain ⟨hseq', hpayload', hrest⟩ := ih hm
        refine ⟨?_, hpayload', hrest⟩
        rw [hseq', List.take_succ_cons, List.countP_cons_of_neg (by simp [Except.isOk, Except.toBool])]

omit hX in
/-- what is counted between two places, the first of which counts -/
theorem countP_take {α : Type} {p : α → Bool} {l : List α} {a : α} {j k : ℕ} (ha : l[j]? = some a) (hp : p a = true)
    (hk : 0 < k) :
    (l.take j).countP p < (l.take (j + k)).countP p ∧ (l.take (j + k)).countP p ≤ (l.take j).countP p + k := by
  obtain ⟨hj, rfl⟩ := List.getElem?_eq_some_iff.1 ha
  obtain ⟨k, rfl⟩ := Nat.exists_eq_succ_of_ne_zero hk.ne'
  rw [List.take_add, List.countP_append, List.drop_eq_getElem_cons hj, List.take_succ_cons, List.countP_cons_of_pos hp]
  have hle := List.countP_le_length (p := p) (l := (l.drop (j + 1)).take k)
  have hlen : ((l.drop (j + 1)).take k).length ≤ k := List.length_take_le ..
  omega

/-- **The messages of a session.** In every run of messages, each one that is made carries its payload and no relays,
verifies under the key of the session, and has the next sequence number, where those that failed are not counted; so no
two of less than `2 ^ 32` messages in a row have the same one. -/
theorem messages_numbered {s : NodeSession X} {payloads : List (StacksMessageType X.toNetExt)} {i : ℕ}
    {m : StacksMessage X.toP2pExt} (hm : (runModel makePeerMessage s payloads).1[i]? = some (.ok m)) :
    (m.preamble.seq = s.seq + UInt32.ofNat (((runModel makePeerMessage s payloads).1.take i).countP Except.isOk) ∧
      payloads[i]? = some m.payload ∧ m.relayers = [] ∧
      m.verifySecp256k1 (X.fromPublicKey (X.fromPrivate s.localPeer.privateKey)) = .ok ()) ∧
    ∀ j m', j < i → i < j + 2 ^ 32 → (runModel makePeerMessage s payloads).1[j]? = some (.ok m') →
      m'.preamble.seq ≠ m.preamble.seq := by
  have hnumbered := numbered hX hm
  refine ⟨hnumbered, ?_⟩
  intro j m' hlt hnear hm' hsame
  have hseq' := (numbered hX hm').1
  rw [hsame, hnumbered.1] at hseq'
  obtain ⟨k, rfl⟩ := Nat.exists_eq_add_of_lt hlt
  obtain ⟨hmore, hle⟩ := countP_take (p := Except.isOk) hm' rfl (Nat.succ_pos k)
  have hcount := congrArg UInt32.toNat ((UInt32.add_right_inj s.seq).1 hseq')
  simp only [UInt32.toNat_ofNat', Nat.add_assoc] at hcount
  simp only [Nat.succ_eq_add_one] at hmore hle
  omega

omit hX in
theorem messages_numbered_rejectTwice : ∃ m,
    (runModel makePeerMessage localSession [.handshakeReject, .handshakeReject]).1[1]? = some (.ok m) ∧
      m.preamble.seq = 1 := by
  obtain ⟨m, hm⟩ : ∃ m, (runModel makePeerMessage localSession [.handshakeReject, .handshakeReject]).1[1]? =
    some (.ok m) := ⟨_, rfl⟩
  exact ⟨m, hm, (messages_numbered X4_laws hm).1.1.trans (by decide +kernel)⟩

end Messages

/-! ## The handshake -/

/-- the formats of a handshake, that a message can be as long as one, and a URL as that of a local node -/
structure SessionLaws (X : SessionExt) : Prop where
  p2p : P2pLaws X.toP2pExt
  names : NamesLaws X.toNetExt
  u16 : ∀ v, (X.u16.enc v).length = 2
  peerAddress : ∀ v, (X.peerAddress.enc v).length = 16
  publicKeyBuffer : ∀ v, (X.publicKeyBuffer.enc v).length = 33
  room : 322 ≤ (X.maxMessageLen - X.preambleEncodedSize).toNat
  urlRoom : 22 ≤ X.clarityMaxStringLength.toNat

/-- what the reply to a handshake says: the data of the node, and its databases if it has some -/
def accepted : StacksMessageType X.toNetExt → Option (HandshakeData X.toNetExt × Option StackerDBHandshakeData)
  | .handshakeAccept h => some (h.handshake, none)
  | .stackerDBHandshakeAccept h d => some (h.handshake, some d)
  | _ => none

theorem handshake_fits (hX : SessionLaws X) {d : HandshakeData X.toNetExt} (hurl : d.dataUrl.checkBlockUrl = .ok ()) :
    Fits (StacksMessageType.handshake d : StacksMessageType X.toNetExt).consensusSerialize 318 := by
  have hu8 := hX.p2p.sizes.u8
  have hurlFits : Fits d.dataUrl.consensusSerialize 256 := by
    have hshort := d.dataUrl.short
    have hlt := X.clarityMaxStringLength.toNat_lt
    refine ⟨X.u8.enc (UInt8.ofNat (asBytes d.dataUrl.text).length) ++ asBytes d.dataUrl.text, ?_, ?_⟩
    · rw [UrlString.consensusSerialize, if_neg (not_lt.2 hshort), hurl]
    · rw [List.length_append, hu8]
      omega
  exact (Fits.ok (hu8 _).le).andThen <| (Fits.ok (hX.peerAddress _).le).andThen <| (Fits.ok (hX.u16 _).le).andThen <|
    (Fits.ok (hX.u16 _).le).andThen <| (Fits.ok (hX.publicKeyBuffer _).le).andThen <|
    (Fits.ok (hX.p2p.sizes.u64 _).le).andThen hurlFits

/-- the URL of a port of the local host is short enough, and legal -/
theorem tryFrom_localHost (hX : SessionLaws X) (port : UInt16) :
    ∃ u, UrlString.tryFrom X.toNetExt s!"http://127.0.0.1:{port}" = .ok u ∧ u.text = s!"http://127.0.0.1:{port}" := by
  have hport : (asBytes (toString port.toNat)).length ≤ 5 := by
    rw [asBytes_toString, List.length_map, Nat.length_toDigits_le_iff (by decide) (by decide)]
    exact port.toNat_lt.trans (by decide)
  have hhost : (asBytes "http://127.0.0.1:").length = 17 := by decide +kernel
  have hshort : (asBytes s!"http://127.0.0.1:{port}").length ≤ X.clarityMaxStringLength.toNat := by
    show (asBytes ("http://127.0.0.1:" ++ toString port.toNat)).length ≤ _
    have hroom := hX.urlRoom
    rw [asBytes_append, List.length_append, hhost]
    omega
  have hlegal : s!"http://127.0.0.1:{port}".toList.all isUrlChar = true := by
    show ("http://127.0.0.1:" ++ toString port.toNat).toList.all isUrlChar = true
    rw [String.toList_append, List.all_append, Nat.toString_eq_repr, Nat.toList_repr, Bool.and_eq_true]
    refine ⟨by decide +kernel, List.all_eq_true.2 fun c hc => ?_⟩
    obtain ⟨hge, hle⟩ := toDigits_range hc
    have hdigit : '0' ≤ c ∧ c ≤ '9' := ⟨UInt32.le_iff_toNat_le.2 hge, UInt32.le_iff_toNat_le.2 hle⟩
    simp [isUrlChar, hdigit]
  exact ⟨⟨_, hshort, hlegal⟩, dif_pos ⟨hshort, hlegal⟩, rfl⟩

/-- the data of a client on the local host -/
theorem fromLocalPeer_local {p : LocalPeer X} (hparse : X.urlParse p.dataUrl.text =
    .ok ⟨"http", "", none, some "127.0.0.1", none, none⟩) :
    HandshakeData.fromLocalPeer p = some ⟨p.addrbytes, p.port, p.services, X.fromPublicKey (X.fromPrivate p.privateKey),
      p.privateKeyExpire, p.dataUrl⟩ ∧ p.dataUrl.checkBlockUrl = .ok () := by
  have hroutable : p.dataUrl.hasRoutableHost = true := by
    simp only [UrlString.hasRoutableHost, hparse]
    decide
  refine ⟨?_, ?_⟩
  · simp only [HandshakeData.fromLocalPeer, hroutable, if_true]
    rfl
  · unfold UrlString.checkBlockUrl
    split_ifs with hempty
    · rfl
    · simp only [UrlString.parseToBlockUrl, hparse]
      rfl

/-- the handshake of a session that just opened -/
theorem shakeHands_opened (hX : SessionLaws X) (info : RPCPeerInfoData)
    (burnBlockHash stableBurnBlockHash : BurnchainHeaderHash) {p : LocalPeer X} {data : HandshakeData X.toNetExt}
    (hdata : HandshakeData.fromLocalPeer p = some data) (hurl : data.dataUrl.checkBlockUrl = .ok ()) (reply : Bytes) :
    ∃ handshake b session,
      (opened info burnBlockHash stableBurnBlockHash p).shakeHands reply = some (handshake, b, session) ∧
      handshake.payload = .handshake data ∧ handshake.SignedBy (p.privateKey, 0) ∧
      ((StacksMessage.consensusDeserialize X.toP2pExt).run b = .ok (handshake, []) ↔
        data.port ≠ 0 ∧ info.stableBurnBlockHeight < info.burnBlockHeight) ∧
      session.map (fun s => (s.handshakeAcceptData, s.stackerdbAcceptData)) =
        ((StacksMessage.consensusDeserialize X.toP2pExt).run reply).toOption.bind fun resp =>
          (accepted resp.1.payload).map fun r => (some r.1, r.2) := by
  let s := opened info burnBlockHash stableBurnBlockHash p
  have hfits := handshake_fits hX hurl
  obtain ⟨payloadBytes, hpayloadBytes, hshort⟩ := hfits
  obtain ⟨m, hmake, hpayload, hrelayers, hheight, hstable, hsigned⟩ :=
    makePeerMessage_ok hX.p2p s ⟨payloadBytes, hpayloadBytes⟩
  obtain ⟨bits, hbits, -⟩ := hsigned.payloadLen
  have hwrite : m.consensusSerialize = .ok ((Preamble.codec X.toP2pExt).enc m.preamble ++ bits) := by
    show andThen _ m.messageBits = _
    rw [hbits]
    rfl
  have hfit : Fits m.messageBits (X.maxMessageLen - X.preambleEncodedSize).toNat := by
    refine Fits.mono (n := 4 + 318) (Fits.andThen (Fits.ok ?_) ?_) hX.room
    · rw [hrelayers, hX.p2p.sizes.vec]
      rfl
    · rw [hpayload]
      exact ⟨payloadBytes, hpayloadBytes, hshort⟩
  have hshake : s.shakeHands reply = some (m, (Preamble.codec X.toP2pExt).enc m.preamble ++ bits,
      match (StacksMessage.consensusDeserialize X.toP2pExt).run reply with
      | .error _ => none
      | .ok (resp, _) => NodeSession.accept { s with seq := s.seq + 1 } resp.payload) := by
    simp only [shakeHands]
    rw [show HandshakeData.fromLocalPeer s.localPeer = some data from hdata]
    simp only [Option.bind_eq_bind, Option.bind_some, hmake, hwrite]
    cases (StacksMessage.consensusDeserialize X.toP2pExt).run reply with
    | error e => rfl
    | ok r => rfl
  refine ⟨m, _, _, hshake, hpayload, hsigned, ⟨?_, ?_⟩, ?_⟩
  · intro hrun
    obtain ⟨hreadable, b', rest', hparsed⟩ := StacksMessage.accepted_parts hX.p2p hrun
    rw [hpayload] at hparsed
    have hvalid : data.Valid := StacksMessage.payload_valid hX.names hparsed
    have hheights := hreadable.heights
    rw [hheight, hstable] at hheights
    exact ⟨hvalid.port, hheights⟩
  · rintro ⟨hport, hheights⟩
    have hreadable : m.Readable := by
      refine StacksMessage.readable_of_signed hX.p2p hsigned (by rw [hpayload]; trivial) (by simp [hrelayers]) ?_ hfit
      rw [hheight, hstable]
      exact hheights
    have hvalid : m.payload.Valid := by
      rw [hpayload]
      exact ⟨hport, hurl⟩
    obtain ⟨b, hb, hread⟩ := StacksMessage.survives_of_readable hX.p2p hvalid hreadable
    rwa [← Except.ok.inj (hb.symm.trans hwrite)]
  · cases (StacksMessage.consensusDeserialize X.toP2pExt).run reply with
    | error e => rfl
    | ok resp =>
      obtain ⟨⟨preamble, relayers, payload⟩, rest⟩ := resp
      cases payload <;> rfl

theorem X5_laws : SessionLaws X5 where
  p2p := X4_laws
  names := X4_namesLaws
  u16 v := length_beBytes 2 v.toNat
  peerAddress v := length_beBytes 16 v.toNat
  publicKeyBuffer v := length_beBytes 33 v.toNat
  room := by decide
  urlRoom := by decide

/-- **The handshake of a session.** The client sends a handshake with its first sequence number that verifies under the
key it carries; the node can read it exactly when the port is not zero and the stable height is below the tip. If the
node answers with a message that can be read, the session holds what it says, or fails if it is not an acceptance; and a
session only begins with an acceptance. -/
theorem begin_iff (hX : SessionLaws X) {info : RPCPeerInfoData}
    {burnBlockHash stableBurnBlockHash : BurnchainHeaderHash} {key : Secp256k1PrivateKey} {addr : PeerAddress}
    {port dataPort : UInt16} {reply : Bytes}
    (hparse : X.urlParse s!"http://127.0.0.1:{dataPort}" =
      .ok ⟨"http", "", none, some "127.0.0.1", none, none⟩) :
    ∃ handshake b session data,
      NodeSession.begin X info burnBlockHash stableBurnBlockHash key addr port dataPort reply =
        some (handshake, b, session) ∧
      handshake.payload = .handshake data ∧ handshake.preamble.seq = 0 ∧
      handshake.verifySecp256k1 data.nodePublicKey = .ok () ∧
      ((StacksMessage.consensusDeserialize X.toP2pExt).run b = .ok (handshake, []) ↔
        port ≠ 0 ∧ info.stableBurnBlockHeight < info.burnBlockHeight) ∧
      (∀ resp : StacksMessage X.toP2pExt, resp.payload.Valid → resp.Readable → resp.consensusSerialize = .ok reply →
        session.map (fun s => (s.handshakeAcceptData, s.stackerdbAcceptData)) =
          (accepted resp.payload).map fun r => (some r.1, r.2)) ∧
      (session.isSome = true → ∃ resp rest,
        (StacksMessage.consensusDeserialize X.toP2pExt).run reply = .ok (resp, rest) ∧
          (accepted resp.payload).isSome = true) := by
  obtain ⟨u, hu, htext⟩ := tryFrom_localHost hX dataPort
  let p := LocalPeer.new X info.networkId info.parentNetworkId addr port key (UInt64.ofNat (2 ^ 64 - 1)) u
  obtain ⟨hdata, hurl⟩ := fromLocalPeer_local (p := p) (htext ▸ hparse)
  obtain ⟨handshake, b, session, hshake, hpayload, hsigned, hread, hsession⟩ :=
    shakeHands_opened hX info burnBlockHash stableBurnBlockHash hdata hurl reply
  refine ⟨handshake, b, session, _, ?_, hpayload, hsigned.seq, hsigned.verifies, hread, ?_, ?_⟩
  · rw [NodeSession.begin, hu]
    exact hshake
  · intro resp hvalid hreadable hreply
    obtain ⟨b', hb', hrun⟩ := StacksMessage.survives_of_readable hX.p2p hvalid hreadable
    rw [hsession, Except.ok.inj (hreply.symm.trans hb'), hrun]
    rfl
  · intro hsome
    have hsome' := congrArg Option.isSome hsession
    rw [Option.isSome_map, hsome] at hsome'
    cases hrun : (StacksMessage.consensusDeserialize X.toP2pExt).run reply with
    | error e =>
      rw [hrun] at hsome'
      cases hsome'
    | ok r =>
      refine ⟨r.1, r.2, rfl, ?_⟩
      rw [hrun] at hsome'
      exact Option.isSome_map.symm.trans hsome'.symm

/-- a node accepts the handshake; its own key is 9 -/
def acceptance : StacksMessage X5.toP2pExt :=
  (StacksMessage.sign (.new 0x18000000 1 110 5 100 6 (.handshakeAccept ⟨⟨1, 20444, 3, 9, 200, localUrl⟩, 3600⟩)) 0 9).2

theorem begin_iff_localNode : ∃ handshake b session,
    NodeSession.begin X5 localInfo 5 6 7 1 20444 20443 (acceptance.consensusSerialize.toOption.getD []) =
      some (handshake, b, some session) ∧
      (StacksMessage.consensusDeserialize X5.toP2pExt).run b = .ok (handshake, []) ∧
      session.handshakeAcceptData = some ⟨1, 20444, 3, 9, 200, localUrl⟩ := by
  have hvalid : acceptance.payload.Valid := ⟨by decide, by decide +kernel⟩
  have hreadable : acceptance.Readable := ⟨trivial, by decide, by decide +kernel, by decide⟩
  have hreply : acceptance.consensusSerialize = .ok (acceptance.consensusSerialize.toOption.getD []) := by
    decide +kernel
  obtain ⟨handshake, b, session, data, hbegin, -, -, -, hread, hsession, -⟩ :=
    @begin_iff X5 X5_laws localInfo 5 6 7 1 20444 20443 _ (by decide +kernel)
  obtain ⟨session, rfl, hheld⟩ := Option.map_eq_some_iff.1 (hsession acceptance hvalid hreadable hreply)
  exact ⟨handshake, b, session, hbegin, hread.2 ⟨by decide, by decide⟩, (Prod.mk.inj hheld).1⟩

end NodeSession

end Wrb.Net
