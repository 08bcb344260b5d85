/-
The path of a signed message, and what its signatures are over.

Results:
- `relayAll_iff`: a message can be passed on along a path exactly when the path is no longer than allowed and no key
  signs twice;
- `relayAll_travels`: what arrives at the end of such a path is what was sent, with the path, and verifies under the key
  of the last node;
- `signed_commits`: two messages have the same signed digest exactly when they differ in their signatures only, or the
  texts that were hashed for them collide.
-/
import Wrb.Net.Accepted

namespace Wrb.Net

open Wrb.Wire Wrb.Storage Wrb.Runner

variable {X : P2pExt}

/-! ## Paths -/

/-- a node that passes a message on -/
structure Relay where
  privateKey : Secp256k1PrivateKey
  ourSeq : UInt32
  ourAddr : NeighborAddress

def firstRelay : Relay := ⟨11, 70, ⟨1, 20444, 31⟩⟩

def secondRelay : Relay := ⟨12, 80, ⟨2, 20444, 32⟩⟩

def Relay.keyHash (r : Relay) : Hash160 := r.ourAddr.publicKeyHash

/-- what the nodes of a path add to the relays of a message with this sequence number -/
def relaysOf (seq : UInt32) : List Relay → List RelayData
  | [] => []
  | r :: path => ⟨r.ourAddr, seq⟩ :: relaysOf r.ourSeq path

/-- the last node of a path, with its key and its sequence number -/
def lastNode (node : Secp256k1PrivateKey × UInt32) : List Relay → Secp256k1PrivateKey × UInt32
  | [] => node
  | r :: path => lastNode (r.privateKey, r.ourSeq) path

namespace StacksMessage

def keyHashes (m : StacksMessage X) : List Hash160 := m.relayers.map fun relayer => relayer.peer.publicKeyHash

/-- passed on along a path: `none` if one of the nodes refuses -/
def relayAll (m : StacksMessage X) : List Relay → Option (StacksMessage X)
  | [] => some m
  | r :: path =>
    match m.signRelay r.privateKey r.ourSeq r.ourAddr with
    | (.error _, _) => none
    | (.ok (), m) => m.relayAll path

/-- signed with a key, over all that is in the message -/
structure SignedBy (m : StacksMessage X) (node : Secp256k1PrivateKey × UInt32) : Prop where
  seq : m.preamble.seq = node.2
  payloadLen : ∃ bits, m.messageBits = .ok bits ∧ m.preamble.payloadLen = UInt32.ofNat bits.length
  verifies : m.verifySecp256k1 (X.fromPublicKey (X.fromPrivate node.1)) = .ok ()

/-- what a signature leaves as it is -/
structure SameContent (m m' : StacksMessage X) : Prop where
  payload : m'.payload = m.payload
  preamble : ∃ seq sig len, m'.preamble = { m.preamble with seq := seq, signature := sig, payloadLen := len }

theorem SameContent.trans {m₁ m₂ m₃ : StacksMessage X} (h : SameContent m₁ m₂) (h' : SameContent m₂ m₃) :
    SameContent m₁ m₃ := by
  obtain ⟨seq, sig, len, hpreamble⟩ := h.preamble
  obtain ⟨seq', sig', len', hpreamble'⟩ := h'.preamble
  refine ⟨h'.payload.trans h.payload, seq', sig', len', ?_⟩
  rw [hpreamble', hpreamble]

/-! ## Signing and passing on -/

section Signing

variable (hX : P2pLaws X)
include hX

/-- a message that can be written can be signed -/
theorem doSign_spec {m : StacksMessage X} (key : Secp256k1PrivateKey)
    (hpayload : ∃ b, m.payload.consensusSerialize = .ok b) :
    ∃ m', m.doSign key = (.ok (), m') ∧ SameContent m m' ∧ m'.relayers = m.relayers ∧
      m'.SignedBy (key, m.preamble.seq) := by
  obtain ⟨b, hb⟩ := hpayload
  obtain ⟨bits, hbits⟩ : ∃ bits, m.messageBits = .ok bits := by
    rw [messageBits, hb]
    exact ⟨_, rfl⟩
  let p : Preamble := { m.preamble with payloadLen := UInt32.ofNat bits.length }
  obtain ⟨sig, pubkey, hsig, hkey, hverify⟩ := hX.signs key (p.digestBits X bits)
  refine ⟨{ m with preamble := { p with signature := sig } }, ?_, ⟨rfl, _, _, _, rfl⟩, rfl, rfl, ⟨bits, hbits, rfl⟩, ?_⟩
  · simp only [doSign, hbits, Preamble.sign]
    rw [hsig]
  · have hbits' : messageBits { m with preamble := { p with signature := sig } } = .ok bits := hbits
    simp only [verifySecp256k1, hkey, hbits', Preamble.verify, Preamble.digestBits_signature, hverify]
    rfl

/-- when a node passes a message on -/
theorem signRelay_cases {m : StacksMessage X} (r : Relay) (hpayload : ∃ b, m.payload.consensusSerialize = .ok b) :
    (m.relayers.length < X.maxRelayersLen.toNat ∧ r.keyHash ∉ m.keyHashes ∧
      ∃ m', m.signRelay r.privateKey r.ourSeq r.ourAddr = (.ok (), m') ∧ SameContent m m' ∧
        m'.relayers = m.relayers ++ [⟨r.ourAddr, m.preamble.seq⟩] ∧ m'.SignedBy (r.privateKey, r.ourSeq)) ∨
    (¬(m.relayers.length < X.maxRelayersLen.toNat ∧ r.keyHash ∉ m.keyHashes) ∧
      m.signRelay r.privateKey r.ourSeq r.ourAddr = (.error .invalidMessage, m)) := by
  unfold signRelay
  split_ifs with hmany htwice
  · exact .inr ⟨fun h => absurd h.1 (Nat.not_lt.2 hmany), rfl⟩
  · refine .inr ⟨fun h => h.2 ?_, rfl⟩
    obtain ⟨relayer, hmem, hsame⟩ := List.any_eq_true.1 htwice
    exact List.mem_map.2 ⟨relayer, hmem, by simpa [Relay.keyHash] using hsame⟩
  · refine .inl ⟨Nat.not_le.1 hmany, ?_, ?_⟩
    · intro hmem
      obtain ⟨relayer, hmem, hsame⟩ := List.mem_map.1 hmem
      exact htwice (List.any_eq_true.2 ⟨relayer, hmem, by simpa [Relay.keyHash] using hsame⟩)
    · obtain ⟨m', hsign, hcontent, hrelayers, hsigned⟩ := doSign_spec hX r.privateKey
        (m := { m with
          relayers := m.relayers ++ [⟨r.ourAddr, m.preamble.seq⟩]
          preamble := { m.preamble with seq := r.ourSeq } }) hpayload
      obtain ⟨seq, sig, len, hpreamble⟩ := hcontent.preamble
      exact ⟨m', hsign, ⟨hcontent.payload, seq, sig, len, hpreamble⟩, hrelayers, hsigned⟩

/-- **How far a message goes.** A message that can be written is passed on along a path exactly when there is room for
all nodes of the path among its relays, and no key signs that has signed before. -/
theorem relayAll_iff {m : StacksMessage X} (hpayload : ∃ b, m.payload.consensusSerialize = .ok b) (path : List Relay) :
    (m.relayAll path).isSome = true ↔
      (path ≠ [] → m.relayers.length + path.length ≤ X.maxRelayersLen.toNat) ∧
        (path.map Relay.keyHash).Nodup ∧ ∀ r ∈ path, r.keyHash ∉ m.keyHashes := by
  induction path generalizing m with
  | nil => simp [relayAll]
  | cons r path ih =>
    rcases signRelay_cases hX r hpayload with
      ⟨hroom, hnew, m', hsign, hcontent, hrelayers, -⟩ | ⟨hrefused, hsign⟩
    · have hhashes : m'.keyHashes = m.keyHashes ++ [r.keyHash] := by simp [keyHashes, hrelayers, Relay.keyHash]
      have hpayload' : ∃ b, m'.payload.consensusSerialize = .ok b := by rwa [hcontent.payload]
      simp only [relayAll, hsign]
      rw [ih hpayload', hhashes, hrelayers]
      have hcount : (path ≠ [] → (m.relayers ++ [RelayData.mk r.ourAddr m.preamble.seq]).length + path.length ≤
            X.maxRelayersLen.toNat) ↔ m.relayers.length + (path.length + 1) ≤ X.maxRelayersLen.toNat := by
        rw [List.length_append, List.length_singleton]
        cases path with
        | nil => simpa using hroom
        | cons r' path => simp [Nat.add_comm, Nat.add_left_comm]
      rw [hcount]
      simp only [List.mem_append, List.mem_singleton, List.map_cons, List.nodup_cons, List.mem_map, List.length_cons,
        List.forall_mem_cons, hnew, ne_eq, reduceCtorEq, not_false_eq_true, forall_const, true_and, not_or, not_exists,
        not_and]
      constructor
      · rintro ⟨hle, hnodup, hall⟩
        exact ⟨hle, ⟨fun r' hr' => (hall r' hr').2, hnodup⟩, fun r' hr' => (hall r' hr').1⟩
      · rintro ⟨hle, ⟨hnot, hnodup⟩, hall⟩
        exact ⟨hle, hnodup, fun r' hr' => ⟨hall r' hr', hnot r' hr'⟩⟩
    · simp only [relayAll, hsign, Option.isSome_none, Bool.false_eq_true, false_iff]
      rintro ⟨hle, -, hall⟩
      have hle' := hle (by simp)
      rw [List.length_cons] at hle'
      exact hrefused ⟨by omega, hall r List.mem_cons_self⟩

omit hX in
theorem relayAll_iff_rejection : (rejection.relayAll [firstRelay, secondRelay]).isSome = true ∧
    (rejection.relayAll [firstRelay, secondRelay, firstRelay]).isSome = false := by
  refine ⟨(relayAll_iff X4_laws ⟨_, rfl⟩ _).2 ⟨by decide, by decide, by decide⟩, ?_⟩
  rw [Bool.eq_false_iff, ne_eq, relayAll_iff X4_laws ⟨_, rfl⟩]
  decide

/-- what the path makes of a signed message -/
theorem relayAll_spec {m m' : StacksMessage X} {node : Secp256k1PrivateKey × UInt32} {path : List Relay}
    (hpayload : ∃ b, m.payload.consensusSerialize = .ok b) (hm : m.SignedBy node) (h : m.relayAll path = some m') :
    SameContent m m' ∧ m'.relayers = m.relayers ++ relaysOf node.2 path ∧ m'.SignedBy (lastNode node path) ∧
      (m.relayers.length ≤ X.maxRelayersLen.toNat → m'.relayers.length ≤ X.maxRelayersLen.toNat) := by
  induction path generalizing m node with
  | nil =>
    cases h
    exact ⟨⟨rfl, _, _, _, rfl⟩, (List.append_nil _).symm, hm, id⟩
  | cons r path ih =>
    rcases signRelay_cases hX r hpayload with ⟨hroom, -, m₁, hsign, hcontent, hrelayers, hsigned⟩ | ⟨-, hsign⟩
    · simp only [relayAll, hsign] at h
      have hpayload₁ : ∃ b, m₁.payload.consensusSerialize = .ok b := by rwa [hcontent.payload]
      obtain ⟨hcontent', hrelayers', hsigned', hlength⟩ := ih hpayload₁ hsigned h
      refine ⟨hcontent.trans hcontent', ?_, hsigned', fun _ => hlength ?_⟩
      · rw [hrelayers', hrelayers, hm.seq, List.append_assoc]
        rfl
      · rw [hrelayers, List.length_append]
        exact hroom
    · simp only [relayAll, hsign] at h
      cases h

omit hX in
theorem andThen_ok {w w' : Except WriteFault Bytes} {b : Bytes} (h : andThen w w' = .ok b) :
    ∃ b₁ b₂, w = .ok b₁ ∧ w' = .ok b₂ ∧ b = b₁ ++ b₂ := by
  cases w with
  | error e => cases h
  | ok b₁ =>
    cases w' with
    | error e => cases h
    | ok b₂ => exact ⟨b₁, b₂, rfl, rfl, (Except.ok.inj h).symm⟩

/-- a signed message has a length that its reader accepts, if that is the length it is -/
theorem readable_of_signed {m : StacksMessage X} {node : Secp256k1PrivateKey × UInt32} (hm : m.SignedBy node)
    (hcarried : m.payload.Carried) (hrelayers : m.relayers.length ≤ X.maxRelayersLen.toNat)
    (hheights : m.preamble.burnStableBlockHeight < m.preamble.burnBlockHeight)
    (hfit : Fits m.messageBits (X.maxMessageLen - X.preambleEncodedSize).toNat) : m.Readable := by
  obtain ⟨bits, hbits, hlen⟩ := hm.payloadLen
  obtain ⟨bits', hbits', hle⟩ := hfit
  obtain rfl := Except.ok.inj (hbits.symm.trans hbits')
  have hlt : bits.length < 2 ^ 32 := lt_of_le_of_lt hle (UInt32.toNat_lt _)
  have htoNat : m.preamble.payloadLen.toNat = bits.length := by
    rw [hlen]
    exact UInt32.toNat_ofNat_of_lt' hlt
  have hfive : 5 ≤ bits.length := by
    obtain ⟨b₁, b₂, h₁, h₂, rfl⟩ := andThen_ok hbits
    obtain rfl := Except.ok.inj h₁
    obtain ⟨b₃, b₄, h₃, -, rfl⟩ := andThen_ok h₂
    obtain rfl := Except.ok.inj h₃
    have hvec := hX.sizes.vec (RelayData.codec X) m.relayers
    have hid := hX.sizes.u8 m.payload.getMessageId.toU8
    simp only [List.length_append, hvec, hid]
    omega
  refine ⟨hcarried, hrelayers, ⟨?_, ?_⟩, hheights⟩
  · rw [UInt32.le_iff_toNat_le, htoNat]
    exact hfive
  · rw [UInt32.le_iff_toNat_le, htoNat]
    exact hle

/-- **What arrives.** A message is signed, passed on along a path, and written. If it is not too long, the bytes are
read as the message that the last node of the path wrote: with the payload that was sent, one relay for each node of the
path with the number that the message had before, the number of the last node, and a signature of that node. -/
theorem relayAll_travels {m m₁ m₂ : StacksMessage X} {key : Secp256k1PrivateKey} {seq : UInt32} {path : List Relay}
    (hvalid : m.payload.Valid) (hcarried : m.payload.Carried)
    (hheights : m.preamble.burnStableBlockHeight < m.preamble.burnBlockHeight)
    (hsign : m.sign seq key = (.ok (), m₁)) (hpath : m₁.relayAll path = some m₂)
    (hfit : Fits m₂.messageBits (X.maxMessageLen - X.preambleEncodedSize).toNat) :
    m₂.SurvivesTheWire ∧ m₂.payload = m.payload ∧ m₂.relayers = relaysOf seq path ∧
      m₂.preamble.seq = (lastNode (key, seq) path).2 ∧
      m₂.verifySecp256k1 (X.fromPublicKey (X.fromPrivate (lastNode (key, seq) path).1)) = .ok () := by
  have hpayload : ∃ b, m.payload.consensusSerialize = .ok b :=
    (StacksMessageType.readsBack hX.net hvalid hcarried).ok
  unfold sign at hsign
  split_ifs at hsign with hrelayers
  · cases hsign
  · obtain ⟨m', hsign', hcontent, hsame, hsigned⟩ := doSign_spec hX key
      (m := { m with preamble := { m.preamble with seq := seq } }) hpayload
    obtain rfl : m' = m₁ := congrArg Prod.snd (hsign'.symm.trans hsign)
    have hnone : m'.relayers = [] := hsame.trans (not_not.1 hrelayers)
    have hpayload' : ∃ b, m'.payload.consensusSerialize = .ok b := by rwa [hcontent.payload]
    obtain ⟨hcontent', hrelayers', hsigned', hlength⟩ := relayAll_spec hX hpayload' hsigned hpath
    have hpayload₂ : m₂.payload = m.payload := hcontent'.payload.trans hcontent.payload
    obtain ⟨seq₂, sig₂, len₂, hpreamble⟩ := (hcontent.trans hcontent').preamble
    have hreadable : m₂.Readable := by
      refine readable_of_signed hX hsigned' (by rwa [hpayload₂]) (hlength (by simp [hnone])) ?_ hfit
      rw [hpreamble]
      exact hheights
    refine ⟨survives_of_readable hX (by rwa [hpayload₂]) hreadable, hpayload₂, ?_, hsigned'.seq, hsigned'.verifies⟩
    rw [hrelayers', hnone]
    rfl

omit hX in
theorem relayAll_travels_rejection : ∃ m₁ m₂, rejection.sign 7 10 = (.ok (), m₁) ∧
    m₁.relayAll [firstRelay, secondRelay] = some m₂ ∧ m₂.SurvivesTheWire ∧
      m₂.relayers = [⟨firstRelay.ourAddr, 7⟩, ⟨secondRelay.ourAddr, 70⟩] := by
  obtain ⟨m₁, hsign, m₂, hpath, hfit⟩ : ∃ m₁, rejection.sign 7 10 = (.ok (), m₁) ∧
      ∃ m₂, m₁.relayAll [firstRelay, secondRelay] = some m₂ ∧ Fits m₂.messageBits 16777889 :=
    ⟨_, rfl, _, rfl, by decide +kernel⟩
  have htravels := relayAll_travels X4_laws (m := rejection) trivial trivial (by decide) hsign hpath hfit
  exact ⟨m₁, m₂, hsign, hpath, htravels.1, htravels.2.2.1⟩

/-! ## What a signature is over -/

theorem preamble_tells (p p' : Preamble) :
    Tells (.ok ((Preamble.codec X).enc { p with signature := 0 }) : Except WriteFault Bytes)
      (.ok ((Preamble.codec X).enc { p' with signature := 0 })) (p' = { p with signature := p'.signature }) := by
  have h32 := fun v v' : UInt32 => Tells.of_codec (φ := WriteFault) (hX.net.u32 v) (hX.net.u32 v')
  have h64 := fun v v' : UInt64 => Tells.of_codec (φ := WriteFault) (hX.net.u64 v) (hX.net.u64 v')
  have hhash := fun v v' => Tells.of_codec (φ := WriteFault) (hX.burnchainHeaderHash v) (hX.burnchainHeaderHash v')
  have hblank := Tells.of_codec (φ := WriteFault) (hX.messageSignature 0) (hX.messageSignature 0)
  have htells := (h32 p.peerVersion p'.peerVersion).andThen fun _ => (h32 p.networkId p'.networkId).andThen fun _ =>
    (h32 p.seq p'.seq).andThen fun _ => (h64 p.burnBlockHeight p'.burnBlockHeight).andThen fun _ =>
    (hhash p.burnBlockHash p'.burnBlockHash).andThen fun _ =>
    (h64 p.burnStableBlockHeight p'.burnStableBlockHeight).andThen fun _ =>
    (hhash p.burnStableBlockHash p'.burnStableBlockHash).andThen fun _ =>
    (h32 p.additionalData p'.additionalData).andThen fun _ => hblank.andThen fun _ => h32 p.payloadLen p'.payloadLen
  refine Tells.mono htells ?_
  rintro ⟨hversion, hnetwork, hseq, hheight, hburn, hstable, hstableHash, hdata, -, hlen⟩
  obtain ⟨⟩ := p
  obtain ⟨⟩ := p'
  simp_all

omit hX in
/-- a list of contracts that can be written is carried -/
theorem contracts_short {d : HandshakeAcceptData X.toNetExt} {e : StackerDBHandshakeData} {b : Bytes}
    (h : (StacksMessageType.stackerDBHandshakeAccept d e).serializePayload = .ok b) :
    e.smartContracts.length ≤ 255 := by
  obtain ⟨_, b₂, -, he, -⟩ := andThen_ok h
  by_contra hlong
  exact StackerDBHandshakeData.serialize_ne_ok (not_le.1 hlong) b₂ he

/-- the bytes of a payload tell what it is, also those of a `Nack` that no reader takes -/
theorem payload_tells {payload payload' : StacksMessageType X.toNetExt} (h : payload.Valid) (h' : payload'.Valid) :
    Tells payload.consensusSerialize payload'.consensusSerialize (payload = payload') := by
  have hid : ∀ {w w' : Except WriteFault Bytes} {v v' : UInt8} {P : Prop}, (v = v' → Tells w w' P) →
      Tells (andThen (.ok (X.u8.enc v)) w) (andThen (.ok (X.u8.enc v')) w') P := fun htail =>
    ((Tells.of_codec (hX.net.u8 _) (hX.net.u8 _)).andThen htail).mono And.right
  have hread := fun {m : StacksMessageType X.toNetExt} (hm : m.Valid) (hc : m.Carried) =>
    StacksMessageType.payload_readsBack hX.net hm hc
  refine hid fun hsame => ?_
  cases payload with
  | handshake d =>
    cases payload' with
    | handshake d' => exact Tells.of_readsBack (hread h trivial) (hread h' trivial)
    | _ => cases hsame
  | handshakeAccept d =>
    cases payload' with
    | handshakeAccept d' => exact Tells.of_readsBack (hread h trivial) (hread h' trivial)
    | _ => cases hsame
  | handshakeReject =>
    cases payload' with
    | handshakeReject => exact Tells.of_readsBack (hread h trivial) (hread h' trivial)
    | _ => cases hsame
  | nack d =>
    cases payload' with
    | nack d' =>
      refine (Tells.of_codec (hX.net.u32 d.errorCode) (hX.net.u32 d'.errorCode)).mono ?_
      exact fun hcode => congrArg (fun code => StacksMessageType.nack ⟨code⟩) hcode
    | _ => cases hsame
  | stackerDBHandshakeAccept d e =>
    cases payload' with
    | stackerDBHandshakeAccept d' e' =>
      intro b b' rest rest' hb hb' hbytes
      have hread' := hread h' (contracts_short hb')
      exact Tells.of_readsBack (hread h (contracts_short hb)) hread' b b' rest rest' hb hb' hbytes
    | _ => cases hsame

/-- the text that a message is signed over: its preamble with a blank signature, and the bits behind it -/
def signedText (m : StacksMessage X) (bits : Bytes) : Bytes :=
  (Preamble.codec X).enc { m.preamble with signature := 0 } ++ bits

/-- **What a signature commits to.** The digests that two valid messages are signed with are the same exactly when the
messages differ in their signatures only, or the two texts that were hashed collide. -/
theorem signed_commits {m m' : StacksMessage X} {bits bits' : Bytes} (hm : m.payload.Valid) (hm' : m'.payload.Valid)
    (hlen : m.relayers.length < 2 ^ 32) (hlen' : m'.relayers.length < 2 ^ 32) (hbits : m.messageBits = .ok bits)
    (hbits' : m'.messageBits = .ok bits') :
    m.preamble.digestBits X bits = m'.preamble.digestBits X bits' ↔
      m' = { m with preamble := { m.preamble with signature := m'.preamble.signature } } ∨
        Collide X.digest (m.signedText bits) (m'.signedText bits') := by
  have hrelayers : ∀ {m : StacksMessage X}, m.relayers.length < 2 ^ 32 → (X.vec (RelayData.codec X)).RoundTrips
      m.relayers := fun hlen => hX.codecs.vec _ _ hlen fun r _ => RelayData.roundTrips hX r
  have htells := (preamble_tells hX m.preamble m'.preamble).andThen fun _ =>
    (Tells.of_codec (φ := WriteFault) (hrelayers hlen) (hrelayers hlen')).andThen fun _ => payload_tells hX hm hm'
  have htext : m.signedText bits = m'.signedText bits' ↔
      m' = { m with preamble := { m.preamble with signature := m'.preamble.signature } } := by
    constructor
    · intro hsame
      obtain ⟨⟨hpreamble, hrel, hpay⟩, -⟩ := htells (m.signedText bits) (m'.signedText bits') [] []
        (by rw [← messageBits, hbits]; rfl) (by rw [← messageBits, hbits']; rfl) (by rw [hsame])
      obtain ⟨p, relayers, payload⟩ := m
      obtain ⟨p', relayers', payload'⟩ := m'
      dsimp only at hpreamble hrel hpay ⊢
      rw [← hrel, ← hpay, ← hpreamble]
    · intro hsame
      rw [hsame] at hbits' ⊢
      obtain rfl := Except.ok.inj (hbits.symm.trans hbits')
      rfl
  exact hash_eq_iff.trans (or_congr_left htext)

end Signing

/-- a message with another signature on it -/
def resigned : StacksMessage X4 := { rejection with preamble := { rejection.preamble with signature := 9 } }

theorem signed_commits_rejection : rejection.preamble.digestBits X4 (rejection.messageBits.toOption.getD []) =
    resigned.preamble.digestBits X4 (rejection.messageBits.toOption.getD []) := by
  have hbits : rejection.messageBits = .ok (rejection.messageBits.toOption.getD []) := by decide +kernel
  have hbits' : resigned.messageBits = .ok (rejection.messageBits.toOption.getD []) := by decide +kernel
  have hsame : resigned =
      { rejection with preamble := { rejection.preamble with signature := resigned.preamble.signature } } := by
    simp only [resigned]
  have hvalid : rejection.payload.Valid := trivial
  have hvalid' : resigned.payload.Valid := trivial
  exact (signed_commits X4_laws hvalid hvalid' (by decide) (by decide) hbits hbits').2 (.inl hsame)

end StacksMessage

end Wrb.Net
