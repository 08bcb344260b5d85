/-
Which messages are read, and which are read back.

Results:
- `survives_iff`: which messages are read back from the bytes they are written as;
- `accepted_survives`: whatever is read as a message is well formed, and survives when it is written again.
-/
import Wrb.Net.Signed

namespace Wrb.Net

open Wrb.Wire Wrb.Storage Wrb.Runner

variable {X : P2pExt}

/-! ## Round trips -/

section RoundTrips

variable (hX : P2pLaws X)
include hX

/-- the bytes of any preamble are read as it, or refused by the checks -/
theorem Preamble.dec_run (p : Preamble) (rest : Bytes) :
    (Preamble.codec X).dec.run ((Preamble.codec X).enc p ++ rest) = (p.check X).map fun _ => (p, rest) := by
  have hread : ∀ {α β : Type} {d : Decoder CodecError α} {f : α → Decoder CodecError β} {b b' : Bytes} {a : α},
      Reads d b a → (d >>= f).run (b ++ b' ++ rest) = (f a).run (b' ++ rest) := by
    intro α β d f b b' a h
    rw [StateT.run_bind, List.append_assoc, h (b' ++ rest)]
    rfl
  have hlast : ∀ {α β : Type} {d : Decoder CodecError α} {f : α → Decoder CodecError β} {b : Bytes} {a : α},
      Reads d b a → (d >>= f).run (b ++ rest) = (f a).run rest := by
    intro α β d f b a h
    rw [StateT.run_bind, h rest]
    rfl
  simp only [Preamble.codec]
  rw [hread (hX.net.u32 _), hread (hX.net.u32 _), hread (hX.net.u32 _), hread (hX.net.u64 _),
    hread (hX.burnchainHeaderHash _), hread (hX.net.u64 _), hread (hX.burnchainHeaderHash _), hread (hX.net.u32 _),
    hread (hX.messageSignature _), hlast (hX.net.u32 _)]
  cases p.check X with
  | error e => rfl
  | ok u => rfl

theorem NeighborAddress.roundTrips (a : NeighborAddress) : (NeighborAddress.codec X).RoundTrips a :=
  (hX.net.peerAddress _).bind ((hX.net.u16 _).bind ((hX.codecs.hash160 _).map (Reads.pure a)))

theorem RelayData.roundTrips (r : RelayData) : (RelayData.codec X).RoundTrips r :=
  (NeighborAddress.roundTrips hX r.peer).bind ((hX.net.u32 _).map (Reads.pure r))

namespace StacksMessage

/-- writing the message succeeds, and reading the bytes returns it and leaves nothing -/
def SurvivesTheWire (m : StacksMessage X) : Prop :=
  ∃ b, m.consensusSerialize = .ok b ∧ (consensusDeserialize X).run b = .ok (m, [])

/-- what the readers of the three parts accept -/
structure Readable (m : StacksMessage X) : Prop where
  payload : m.payload.Carried
  relayers : m.relayers.length ≤ X.maxRelayersLen.toNat
  payloadLen : 5 ≤ m.preamble.payloadLen ∧ m.preamble.payloadLen ≤ X.maxMessageLen - X.preambleEncodedSize
  heights : m.preamble.burnStableBlockHeight < m.preamble.burnBlockHeight

theorem room_lt : X.maxMessageLen - X.preambleEncodedSize < X.maxMessageLen := by
  have hpos := UInt32.lt_iff_toNat_lt.1 hX.preamble_pos
  have hle := UInt32.le_iff_toNat_le.1 hX.preamble_le
  rw [UInt32.lt_iff_toNat_lt, UInt32.toNat_sub_of_le _ _ hX.preamble_le]
  simp only [UInt32.toNat_zero] at hpos
  omega

theorem check_ok_iff (p : Preamble) (hlen : p.payloadLen ≤ X.maxMessageLen - X.preambleEncodedSize) :
    p.check X = .ok () ↔ 5 ≤ p.payloadLen ∧ p.burnStableBlockHeight < p.burnBlockHeight := by
  have hlt := UInt32.lt_of_le_of_lt hlen (room_lt hX)
  unfold Preamble.check
  rw [if_neg (UInt32.not_le.2 hlt)]
  split_ifs with hfew hheights
  · simp [UInt32.not_le.2 hfew]
  · simp [UInt64.not_lt.2 hheights]
  · simp [UInt32.not_lt.1 hfew, UInt64.not_le.1 hheights]

theorem readsBack {m : StacksMessage X} (hm : m.payload.Valid) (h : m.Readable) :
    ReadsBack m.consensusSerialize (consensusDeserialize X) m := by
  have hbody : ReadsBack m.messageBits (deserializeBody X) (m.relayers, m.payload) := by
    refine ReadsBack.andThen ⟨_, rfl, hX.codecs.atMost _ _ _ h.relayers fun r _ => RelayData.roundTrips hX r⟩ ?_
    exact (StacksMessageType.readsBack hX.net hm h.payload).map (Reads.pure _)
  have hpreamble : ReadsBack (.ok ((Preamble.codec X).enc m.preamble) : Except WriteFault Bytes) (Preamble.codec X).dec
      m.preamble := by
    refine ⟨_, rfl, ?_⟩
    intro rest
    rw [Preamble.dec_run hX, (check_ok_iff hX _ h.payloadLen.2).2 ⟨h.payloadLen.1, h.heights⟩]
    rfl
  refine hpreamble.andThen ?_
  rw [if_neg (UInt32.not_lt.2 h.payloadLen.2)]
  exact hbody.map (Reads.pure m)

theorem survives_of_readable {m : StacksMessage X} (hm : m.payload.Valid) (h : m.Readable) : m.SurvivesTheWire := by
  obtain ⟨b, hb, hread⟩ := readsBack hX hm h
  refine ⟨b, hb, ?_⟩
  have hrun := hread []
  rwa [List.append_nil] at hrun

/-! ### What is accepted -/

omit hX in
theorem url_checked {X : NetExt} {b rest : Bytes} {u : UrlString X}
    (h : (UrlString.consensusDeserialize X).run b = .ok (u, rest)) : u.checkBlockUrl = .ok () := by
  obtain ⟨lenByte, b₁, -, h⟩ := run_bind_ok.1 h
  split_ifs at h
  · cases h
  · obtain ⟨bytes, b₂, -, h⟩ := run_bind_ok.1 h
    unfold UrlString.ofBytes at h
    split at h
    · cases h
    · split at h
      · cases h
      · split at h
        · cases h
        · next hcheck =>
          cases h
          exact hcheck

omit hX in
theorem handshake_valid {X : NetExt} {b rest : Bytes} {d : HandshakeData X}
    (h : (HandshakeData.consensusDeserialize X).run b = .ok (d, rest)) : d.Valid := by
  obtain ⟨addrbytes, b₁, -, h⟩ := run_bind_ok.1 h
  obtain ⟨port, b₂, -, h⟩ := run_bind_ok.1 h
  split_ifs at h with hport
  · cases h
  · obtain ⟨services, b₃, -, h⟩ := run_bind_ok.1 h
    obtain ⟨nodePublicKey, b₄, -, h⟩ := run_bind_ok.1 h
    obtain ⟨expireBlockHeight, b₅, -, h⟩ := run_bind_ok.1 h
    obtain ⟨dataUrl, b₆, hurl, h⟩ := run_bind_ok.1 h
    cases h
    exact ⟨hport, url_checked hurl⟩

omit hX in
theorem handshakeAccept_valid {X : NetExt} {b rest : Bytes} {d : HandshakeAcceptData X}
    (h : (HandshakeAcceptData.consensusDeserialize X).run b = .ok (d, rest)) : d.handshake.Valid := by
  obtain ⟨handshake, b₁, hhandshake, h⟩ := run_bind_ok.1 h
  obtain ⟨heartbeatInterval, b₂, -, h⟩ := run_bind_ok.1 h
  cases h
  exact handshake_valid hhandshake

omit hX in
theorem contractId_valid {X : NetExt} (hA : NamesLaws X) {b rest : Bytes} {cid : QualifiedContractIdentifier}
    (h : (contractIdConsensusDeserialize X).run b = .ok (cid, rest)) : ContractIdValid X cid := by
  obtain ⟨version, b₁, -, h⟩ := run_bind_ok.1 h
  obtain ⟨bytes, b₂, -, h⟩ := run_bind_ok.1 h
  obtain ⟨name, b₃, hname, h⟩ := run_bind_ok.1 h
  split at h
  · cases h
  · next addr haddr =>
    cases h
    exact ⟨hA.stacksAddressNew _ _ _ haddr, hA.contractName _ _ _ hname⟩

omit hX in
theorem contracts_short_of_run {X : NetExt} {b rest : Bytes} {e : StackerDBHandshakeData}
    (h : (StackerDBHandshakeData.consensusDeserialize X).run b = .ok (e, rest)) : e.smartContracts.length ≤ 255 := by
  obtain ⟨rcConsensusHash, b₁, -, h⟩ := run_bind_ok.1 h
  obtain ⟨lenU8, b₂, -, h⟩ := run_bind_ok.1 h
  obtain ⟨smartContracts, b₃, hmany, h⟩ := run_bind_ok.1 h
  cases h
  rw [show smartContracts.length = lenU8.toNat from length_of_readMany hmany]
  exact Nat.le_of_lt_succ lenU8.toNat_lt

omit hX in
theorem contracts_valid_of_run {X : NetExt} (hA : NamesLaws X) {b rest : Bytes} {e : StackerDBHandshakeData}
    (h : (StackerDBHandshakeData.consensusDeserialize X).run b = .ok (e, rest)) : e.Valid X := by
  refine ⟨(contracts_short_of_run h).trans (by decide), ?_⟩
  obtain ⟨rcConsensusHash, b₁, -, h⟩ := run_bind_ok.1 h
  obtain ⟨lenU8, b₂, -, h⟩ := run_bind_ok.1 h
  obtain ⟨smartContracts, b₃, hmany, h⟩ := run_bind_ok.1 h
  cases h
  intro cid hcid
  obtain ⟨b₄, b₅, hrun⟩ := mem_of_readMany hmany hcid
  exact contractId_valid hA hrun

omit hX in
theorem payload_carried {X : NetExt} {b rest : Bytes} {payload : StacksMessageType X}
    (h : (StacksMessageType.consensusDeserialize X).run b = .ok (payload, rest)) : payload.Carried := by
  obtain ⟨id, b₁, hid, h⟩ := run_bind_ok.1 h
  cases id with
  | handshake =>
    obtain ⟨d, b₂, hd, h⟩ := run_bind_ok.1 h
    cases h
    trivial
  | handshakeAccept =>
    obtain ⟨d, b₂, hd, h⟩ := run_bind_ok.1 h
    cases h
    trivial
  | handshakeReject =>
    cases h
    trivial
  | nack =>
    -- the reader of IDs never yields this one
    obtain ⟨asU8, b₂, -, hid⟩ := run_bind_ok.1 hid
    split_ifs at hid <;> cases hid
  | stackerDBHandshakeAccept =>
    obtain ⟨d, b₂, hd, h⟩ := run_bind_ok.1 h
    obtain ⟨e, b₃, he, h⟩ := run_bind_ok.1 h
    cases h
    exact contracts_short_of_run he

omit hX in
theorem payload_valid {X : NetExt} (hA : NamesLaws X) {b rest : Bytes} {payload : StacksMessageType X}
    (h : (StacksMessageType.consensusDeserialize X).run b = .ok (payload, rest)) : payload.Valid := by
  obtain ⟨id, b₁, -, h⟩ := run_bind_ok.1 h
  cases id with
  | handshake =>
    obtain ⟨d, b₂, hd, h⟩ := run_bind_ok.1 h
    cases h
    exact handshake_valid hd
  | handshakeAccept =>
    obtain ⟨d, b₂, hd, h⟩ := run_bind_ok.1 h
    cases h
    exact handshakeAccept_valid hd
  | handshakeReject =>
    cases h
    trivial
  | nack =>
    obtain ⟨d, b₂, -, h⟩ := run_bind_ok.1 h
    cases h
    trivial
  | stackerDBHandshakeAccept =>
    obtain ⟨d, b₂, hd, h⟩ := run_bind_ok.1 h
    obtain ⟨e, b₃, he, h⟩ := run_bind_ok.1 h
    cases h
    exact ⟨handshakeAccept_valid hd, contracts_valid_of_run hA he⟩

omit hX in
theorem preamble_checked {b rest : Bytes} {p : Preamble} (h : (Preamble.codec X).dec.run b = .ok (p, rest)) :
    p.check X = .ok () := by
  obtain ⟨peerVersion, b₁, -, h⟩ := run_bind_ok.1 h
  obtain ⟨networkId, b₂, -, h⟩ := run_bind_ok.1 h
  obtain ⟨seq, b₃, -, h⟩ := run_bind_ok.1 h
  obtain ⟨burnBlockHeight, b₄, -, h⟩ := run_bind_ok.1 h
  obtain ⟨burnBlockHash, b₅, -, h⟩ := run_bind_ok.1 h
  obtain ⟨burnStableBlockHeight, b₆, -, h⟩ := run_bind_ok.1 h
  obtain ⟨burnStableBlockHash, b₇, -, h⟩ := run_bind_ok.1 h
  obtain ⟨additionalData, b₈, -, h⟩ := run_bind_ok.1 h
  obtain ⟨signature, b₉, -, h⟩ := run_bind_ok.1 h
  obtain ⟨payloadLen, b₁₀, -, h⟩ := run_bind_ok.1 h
  dsimp only at h
  split at h
  · cases h
  · next hcheck =>
    cases h
    exact hcheck

/-- whatever is read as a message was accepted by the readers of its parts -/
theorem accepted_parts {b rest : Bytes} {m : StacksMessage X} (h : (consensusDeserialize X).run b = .ok (m, rest)) :
    m.Readable ∧
      ∃ b' rest', (StacksMessageType.consensusDeserialize X.toNetExt).run b' = .ok (m.payload, rest') := by
  obtain ⟨preamble, b₁, hpreamble, h⟩ := run_bind_ok.1 h
  split_ifs at h with hbig
  · cases h
  · have hlen := UInt32.not_lt.1 hbig
    obtain ⟨⟨relayers, payload⟩, b₂, hbody, h⟩ := run_bind_ok.1 h
    cases h
    obtain ⟨relayers, b₃, hrelayers, hbody⟩ := run_bind_ok.1 hbody
    obtain ⟨payload, b₄, hpayload, hbody⟩ := run_bind_ok.1 hbody
    cases hbody
    obtain ⟨hfew, hheights⟩ := (check_ok_iff hX _ hlen).1 (preamble_checked hpreamble)
    have hcount := hX.codecs.atMost_le _ _ _ _ hrelayers
    exact ⟨⟨payload_carried hpayload, hcount, ⟨hfew, hlen⟩, hheights⟩, b₃, _, hpayload⟩

/-- **Which messages survive the wire.** A message with a valid payload is written and read back iff its payload is
carried, it came through no more relays than allowed, and its preamble gives a length that a payload can have and a
stable height below the height of the tip. -/
theorem survives_iff (m : StacksMessage X) (hm : m.payload.Valid) : m.SurvivesTheWire ↔ m.Readable := by
  constructor
  · intro h
    obtain ⟨b, -, hrun⟩ := h
    exact (accepted_parts hX hrun).1
  · exact survives_of_readable hX hm

omit hX in
theorem survives_iff_rejection :
    SurvivesTheWire { rejection with preamble := { rejection.preamble with payloadLen := 5 } } := by
  rw [survives_iff X4_laws { rejection with preamble := { rejection.preamble with payloadLen := 5 } } trivial]
  exact ⟨trivial, by decide, ⟨by decide, by decide⟩, by decide⟩

/-- **What is accepted is well formed.** Whatever bytes are read as a message, its payload is valid, and written again
it is read as the same message. -/
theorem accepted_survives (hA : NamesLaws X.toNetExt) {b rest : Bytes} {m : StacksMessage X}
    (h : (consensusDeserialize X).run b = .ok (m, rest)) : m.payload.Valid ∧ m.Readable ∧ m.SurvivesTheWire := by
  obtain ⟨hreadable, b', rest', hpayload⟩ := accepted_parts hX h
  have hvalid := payload_valid hA hpayload
  exact ⟨hvalid, hreadable, survives_of_readable hX hvalid hreadable⟩

omit hX in
theorem accepted_survives_rejection : ∃ b m, (consensusDeserialize X4).run b = .ok (m, []) ∧ m.SurvivesTheWire := by
  obtain ⟨b, -, hread⟩ := readsBack X4_laws
    (m := { rejection with preamble := { rejection.preamble with payloadLen := 5 } }) trivial
    ⟨trivial, by decide, ⟨by decide, by decide⟩, by decide⟩
  have hrun := hread []
  exact ⟨b ++ [], _, hrun, (accepted_survives X4_laws X4_namesLaws hrun).2.2⟩

end StacksMessage

end RoundTrips

end Wrb.Net
