/-
What the methods of `Wrbpod` ask and do, whoever answers: their traces.

One lemma for each method reads its outcomes off its text; the results about wrbpods use these and never unfold a method
again.
- `Read`: the traces that give a superblock, from a fresh slot or from a stored one (`readSuperblock_ok`);
- `Puts`: the traces of the retry loop. Every attempt carries the same bytes, signed for the slot, and the last one is
  accepted exactly on success (`putSigned_puts`);
- `Update`: what `allocateSlots` and `deleteSlots` do (`runOp_update`);
- `fetchChunk_outcome`, `getAndVerifyRawChunk_ok`, `syncSlot_outcome`.
-/
import Wrb.Storage.Wrbpod

namespace Wrb.Storage

open Wrb.Wire Wrb.Programs

/-! ## Events -/

/-- a call of a wrbpod and its answer -/
abbrev Ev := Event Call Answer

def isList (e : Ev) : Bool := decide (e.1 = .listChunks)

def isPut : Call → Bool
  | .putChunk _ => true
  | _ => false

def isGet : Call → Bool
  | .getLatestChunks _ => true
  | _ => false

/-- a put that the replica accepted -/
def accepted : Ev → Bool
  | ⟨.putChunk _, .ok ack⟩ => ack.accepted
  | _ => false

theorem accepted_of_not_isPut {e : Ev} (h : isPut e.1 = false) : accepted e = false := by
  obtain ⟨q, a⟩ := e
  cases q with
  | putChunk c => cases h
  | _ => rfl

/-- the chunk of an accepted put -/
def acceptedChunk : Ev → Option StackerDBChunkData
  | ⟨.putChunk c, .ok ack⟩ => if ack.accepted then some c else none
  | _ => none

theorem acceptedChunk_eq_some {e : Ev} {c : StackerDBChunkData} :
    acceptedChunk e = some c ↔ ∃ ack, e = ⟨.putChunk c, .ok ack⟩ ∧ ack.accepted = true := by
  constructor
  · intro h
    unfold acceptedChunk at h
    split at h
    · split_ifs at h with hack
      obtain rfl := Option.some.inj h
      exact ⟨_, rfl, hack⟩
    · cases h
  · rintro ⟨ack, rfl, hack⟩
    simp [acceptedChunk, hack]

theorem isSome_acceptedChunk (e : Ev) : (acceptedChunk e).isSome = accepted e := by
  obtain ⟨q, a⟩ := e
  cases q with
  | putChunk c =>
    cases a with
    | ok ack => cases hack : ack.accepted <;> simp [acceptedChunk, accepted, hack]
    | error e => rfl
  | _ => rfl

/-- the listings of a trace, in order -/
def listings (tr : List Ev) : List (List SlotMetadata) :=
  tr.filterMap fun
    | ⟨.listChunks, .ok mds⟩ => some mds
    | _ => none

/-! ## Building blocks -/

section Blocks

variable {w w' : Wrbpod} {tr : List Ev} {α : Type}

theorem outcome_callClient {q : Call} {r : Except Error (Payload q)} :
    Outcome (callClient q) w tr r w' ↔ w' = w ∧ ∃ a : Answer q, tr = [⟨q, a⟩] ∧
      ((∃ p, a = .ok p ∧ r = .ok p) ∨ ∃ e, a = .error e ∧ r = .error (.runtime e)) := by
  constructor
  · intro h
    rcases outcome_bind.1 h with ⟨a, w₁, t₁, t₂, rfl, h1, h2⟩ | ⟨e, -, h1⟩
    · obtain ⟨a', rfl, ha, rfl⟩ := outcome_request.1 h1
      obtain rfl := Except.ok.inj ha
      cases a with
      | ok p =>
        obtain ⟨rfl, rfl, rfl⟩ := outcome_pure.1 h2
        exact ⟨rfl, .ok p, rfl, Or.inl ⟨p, rfl, rfl⟩⟩
      | error e =>
        obtain ⟨rfl, rfl, rfl⟩ := outcome_throw.1 h2
        exact ⟨rfl, .error e, rfl, Or.inr ⟨e, rfl, rfl⟩⟩
    · obtain ⟨a, -, ha, -⟩ := outcome_request.1 h1
      cases ha
  · rintro ⟨rfl, a, rfl, ⟨p, rfl, rfl⟩ | ⟨e, rfl, rfl⟩⟩
    · exact outcome_bind.2 (Or.inl ⟨.ok p, w', [⟨q, .ok p⟩], [], rfl, outcome_request.2 ⟨_, rfl, rfl, rfl⟩,
        outcome_pure.2 ⟨rfl, rfl, rfl⟩⟩)
    · exact outcome_bind.2 (Or.inl ⟨.error e, w', [⟨q, .error e⟩], [], rfl, outcome_request.2 ⟨_, rfl, rfl, rfl⟩,
        outcome_throw.2 ⟨rfl, rfl, rfl⟩⟩)

theorem callClient_ok {q : Call} {p : Payload q} :
    Outcome (callClient q) w tr (.ok p) w' ↔ w' = w ∧ tr = [⟨q, .ok p⟩] := by
  rw [outcome_callClient]
  constructor
  · rintro ⟨hw, a, rfl, ⟨p', rfl, hp⟩ | ⟨e, -, he⟩⟩
    · obtain rfl := Except.ok.inj hp
      exact ⟨hw, rfl⟩
    · cases he
  · rintro ⟨hw, rfl⟩
    exact ⟨hw, .ok p, rfl, Or.inl ⟨p, rfl, rfl⟩⟩

theorem outcome_orThrow {o : Option α} {e : Error} {r : Except Error α} :
    Outcome (orThrow o e) w tr r w' ↔
      tr = [] ∧ w' = w ∧ ((∃ a, o = some a ∧ r = .ok a) ∨ (o = none ∧ r = .error e)) := by
  cases o with
  | none =>
    rw [orThrow, outcome_throw]
    simp [and_comm]
  | some a =>
    rw [orThrow, outcome_pure]
    simp [and_comm]

theorem orThrow_ok {o : Option α} {e : Error} {a : α} :
    Outcome (orThrow o e) w tr (.ok a) w' ↔ tr = [] ∧ w' = w ∧ o = some a := by
  simp [outcome_orThrow, eq_comm]

theorem outcome_ofExcept {x r : Except Error α} :
    Outcome (ofExcept x) w tr r w' ↔ tr = [] ∧ w' = w ∧ r = x := by
  cases x with
  | ok a =>
    rw [ofExcept, outcome_pure]
    simp [and_comm]
  | error e =>
    rw [ofExcept, outcome_throw]
    simp [and_comm]

theorem outcome_verifyMetadata {X : Ext} {md : SlotMetadata} {signer : StacksAddress} {msg : String}
    {r : Except Error Bool} (h : Outcome (Wrbpod.verifyMetadata X md signer msg) w tr r w') :
    tr = [] ∧ w' = w ∧ ∀ valid, r = .ok valid → X.verify md signer = .ok valid := by
  unfold Wrbpod.verifyMetadata at h
  cases hv : X.verify md signer with
  | ok valid =>
    rw [hv] at h
    obtain ⟨rfl, rfl, rfl⟩ := outcome_pure.1 h
    exact ⟨rfl, rfl, fun _ hr => by rw [Except.ok.inj hr]⟩
  | error e =>
    rw [hv] at h
    obtain ⟨rfl, rfl, rfl⟩ := outcome_throw.1 h
    exact ⟨rfl, rfl, fun _ hr => by cases hr⟩

section Keeps

variable {γ : Type} {g : Wrbpod → γ} {C : Call → Prop}

theorem keeps_callClient {q : Call} (hq : C q) : Keeps g C (callClient q) := by
  intro w tr r w' h
  obtain ⟨rfl, a, rfl, -⟩ := outcome_callClient.1 h
  refine ⟨rfl, fun e he => ?_⟩
  obtain rfl := List.mem_singleton.1 he
  exact hq

theorem keeps_orThrow (o : Option α) (e : Error) : Keeps g C (orThrow o e) := by
  intro w tr r w' h
  obtain ⟨rfl, rfl, -⟩ := outcome_orThrow.1 h
  exact ⟨rfl, by simp⟩

theorem keeps_ofExcept (x : Except Error α) : Keeps g C (ofExcept x) := by
  intro w tr r w' h
  obtain ⟨rfl, rfl, -⟩ := outcome_ofExcept.1 h
  exact ⟨rfl, by simp⟩

theorem keeps_verifyMetadata (X : Ext) (md : SlotMetadata) (signer : StacksAddress) (msg : String) :
    Keeps g C (Wrbpod.verifyMetadata X md signer msg) := by
  intro w tr r w' h
  obtain ⟨rfl, rfl, -⟩ := outcome_verifyMetadata h
  exact ⟨rfl, by simp⟩

end Keeps

end Blocks

namespace Wrbpod

/-! ## Signers -/

/-- the parts of the handle that only building it sets -/
def identity (w : Wrbpod) : Secp256k1PrivateKey × UInt32 := (w.privkey, w.superblockSlotId)

/-- all of the handle but for its signers -/
def contents (w : Wrbpod) : WrbpodSuperblock × (Secp256k1PrivateKey × UInt32) × Std.ExtTreeMap UInt32 WrbpodSlices :=
  (w.superblock, w.identity, w.chunks)

theorem refreshSigners_ok {w w' : Wrbpod} {tr : List Ev} (h : Outcome refreshSigners w tr (.ok ()) w') :
    ∃ signers, tr = [⟨.getSigners, .ok signers⟩] ∧ w' = { w with signers := some signers } := by
  obtain ⟨signers, w₁, t₁, t₂, rfl, h1, h2⟩ := outcome_bind_ok.1 h
  obtain ⟨rfl, rfl⟩ := callClient_ok.1 h1
  obtain ⟨rfl, -, rfl⟩ := outcome_modify.1 h2
  exact ⟨signers, rfl, rfl⟩

theorem keeps_refreshSigners {γ : Type} {g : Wrbpod → γ} {C : Call → Prop} (hC : C .getSigners)
    (hg : ∀ (w : Wrbpod) signers, g { w with signers := signers } = g w) : Keeps g C refreshSigners :=
  Keeps.bind (keeps_callClient hC) fun _ => Keeps.modify fun w => hg w _

theorem keeps_loadSigners {γ : Type} {g : Wrbpod → γ} {C : Call → Prop} (hC : C .getSigners)
    (hg : ∀ (w : Wrbpod) signers, g { w with signers := signers } = g w) : Keeps g C loadSigners := by
  refine Keeps.bind Keeps.get fun w => ?_
  cases w.signers with
  | some signers => exact Keeps.pure signers
  | none =>
    exact Keeps.bind (keeps_refreshSigners hC hg) fun _ => Keeps.bind Keeps.get fun w' => keeps_orThrow _ _

/-- how `loadSigners` comes by the signers: they are cached, or the home node is asked -/
def SignersTrace (w : Wrbpod) (tr : List Ev) (signers : List StacksAddress) : Prop :=
  (w.signers = some signers ∧ tr = []) ∨ (w.signers = none ∧ tr = [⟨.getSigners, .ok signers⟩])

theorem loadSigners_ok {w w' : Wrbpod} {tr : List Ev} {signers : List StacksAddress}
    (h : Outcome loadSigners w tr (.ok signers) w') :
    w' = { w with signers := some signers } ∧ SignersTrace w tr signers := by
  unfold loadSigners at h
  rw [outcome_get_bind] at h
  cases hs : w.signers with
  | some signers' =>
    rw [hs] at h
    obtain ⟨rfl, hr, rfl⟩ := outcome_pure.1 h
    obtain rfl := Except.ok.inj hr
    exact ⟨by rw [← hs], Or.inl ⟨hs, rfl⟩⟩
  | none =>
    rw [hs] at h
    obtain ⟨_, w₁, t₁, t₂, rfl, h1, h2⟩ := outcome_bind_ok.1 h
    obtain ⟨signers', rfl, rfl⟩ := refreshSigners_ok h1
    rw [outcome_get_bind] at h2
    obtain ⟨rfl, rfl, hs'⟩ := orThrow_ok.1 h2
    obtain rfl := Option.some.inj hs'
    exact ⟨rfl, Or.inr ⟨hs, rfl⟩⟩

/-! ## Superblock -/

theorem mem_findAvailableSlots {X : Ext} {signers : List StacksAddress} {key : Secp256k1PrivateKey} {slot : UInt32} :
    slot ∈ findAvailableSlots X signers key ↔
      ∃ signer, signers[slot.toNat]? = some signer ∧ signer.bytes = (X.p2pkh true key).bytes := by
  simp only [findAvailableSlots, List.mem_map, List.mem_filter, Prod.exists, beq_iff_eq]
  constructor
  · rintro ⟨signer, i, ⟨hmem, hbytes⟩, rfl⟩
    have hget := List.mem_zipIdx_iff_getElem?.1 hmem
    rw [List.getElem?_take] at hget
    split_ifs at hget with hlt
    refine ⟨signer, ?_, hbytes⟩
    rw [UInt32.toNat_ofNat', Nat.mod_eq_of_lt hlt]
    exact hget
  · rintro ⟨signer, hget, hbytes⟩
    refine ⟨signer, slot.toNat, ⟨List.mem_zipIdx_iff_getElem?.2 ?_, hbytes⟩, UInt32.ofNat_toNat⟩
    rw [List.getElem?_take, if_pos slot.toNat_lt]
    exact hget

theorem nodup_findAvailableSlots (X : Ext) (signers : List StacksAddress) (key : Secp256k1PrivateKey) :
    (findAvailableSlots X signers key).Nodup := by
  refine List.Nodup.map_on ?_ ?_
  · intro a ha b hb hab
    have hlt : ∀ e ∈ (signers.take (2 ^ 32)).zipIdx, e.2 < 2 ^ 32 := by
      intro e he
      have hget := List.mem_zipIdx_iff_getElem?.1 he
      rw [List.getElem?_take] at hget
      split_ifs at hget with h
      exact h
    have ha' := (List.mem_filter.1 ha).1
    have hb' := (List.mem_filter.1 hb).1
    have hpos : a.2 = b.2 := by
      have := congrArg UInt32.toNat hab
      rwa [UInt32.toNat_ofNat', UInt32.toNat_ofNat', Nat.mod_eq_of_lt (hlt a ha'), Nat.mod_eq_of_lt (hlt b hb')] at this
    have hget := List.mem_zipIdx_iff_getElem?.1 ha'
    have hget' := List.mem_zipIdx_iff_getElem?.1 hb'
    rw [hpos] at hget
    exact Prod.ext (Option.some.inj (hget.symm.trans hget')) hpos
  · exact List.Nodup.filter _ (List.Nodup.of_map Prod.snd (by simp [List.nodup_range']))

/-- a superblock is made over distinct slots of the key, without the superblock's own, which is one of the key's too -/
theorem makeSuperblock_ok {X : Ext} {slot : UInt32} {signers : List StacksAddress} {key : Secp256k1PrivateKey}
    {sb : WrbpodSuperblock} (h : makeSuperblock X slot signers key = .ok sb) :
    (∃ signer, signers[slot.toNat]? = some signer ∧ signer.bytes = (X.p2pkh true key).bytes) ∧
    ∃ ids : List UInt32, sb = .new ids ∧ ids.Nodup ∧ slot ∉ ids := by
  unfold makeSuperblock at h
  dsimp only at h
  split_ifs at h with hlen
  obtain rfl := Except.ok.inj h
  refine ⟨?_, _, rfl, (nodup_findAvailableSlots X signers key).filter _, by simp⟩
  by_contra hnot
  rw [← mem_findAvailableSlots] at hnot
  apply hlen
  rw [List.filter_eq_self.2]
  intro id hid
  simp only [decide_eq_true_eq]
  rintro rfl
  exact hnot hid

theorem keeps_readSuperblock (X : Ext) : Keeps contents (fun q => isPut q = false) (readSuperblock X) := by
  refine Keeps.bind (keeps_callClient rfl) fun mds => Keeps.bind Keeps.get fun w => ?_
  refine Keeps.bind (keeps_orThrow _ _) fun md => Keeps.bind (keeps_loadSigners rfl fun _ _ => rfl) fun signers => ?_
  refine Keeps.bind (keeps_orThrow _ _) fun signer => ?_
  split_ifs
  · exact keeps_ofExcept _
  · refine Keeps.bind (keeps_verifyMetadata _ _ _ _) fun valid => ?_
    split_ifs
    · exact Keeps.throw _
    · refine Keeps.bind (keeps_callClient rfl) fun chunks => Keeps.bind (keeps_orThrow _ _) fun chunkOpt => ?_
      refine Keeps.bind (keeps_orThrow _ _) fun chunk => ?_
      split_ifs
      · exact Keeps.throw _
      · exact keeps_ofExcept _

/-- the traces along which `readSuperblock` gives `sb`: the slot is empty and the superblock is a new one, or its
metadata verifies for the slot's signer and its chunk has the hash in the metadata -/
inductive Read (X : Ext) (w : Wrbpod) (signers : List StacksAddress) : List Ev → WrbpodSuperblock → Prop
  | fresh (mds : List SlotMetadata) (md : SlotMetadata) (t : List Ev) (sb : WrbpodSuperblock)
    (hmd : mds[w.superblockSlotIndex]? = some md) (hempty : md.isEmpty = true)
    (hmake : makeSuperblock X w.superblockSlotId signers w.privkey = .ok sb) (ht : SignersTrace w t signers) :
    Read X w signers (⟨.listChunks, .ok mds⟩ :: t) sb
  | stored (mds : List SlotMetadata) (md : SlotMetadata) (t : List Ev) (signer : StacksAddress)
    (chunks : List (Option Bytes)) (data : Bytes) (sb : WrbpodSuperblock)
    (hmd : mds[w.superblockSlotIndex]? = some md) (hempty : md.isEmpty = false)
    (hsigner : signers[w.superblockSlotIndex]? = some signer) (hverify : X.verify md signer = .ok true)
    (hchunk : chunks[w.superblockSlotIndex]? = some (some data)) (hhash : md.dataHash = X.fromData data)
    (hdecode : WrbpodSuperblock.fromBytes X data = .ok sb) (ht : SignersTrace w t signers) :
    Read X w signers (⟨.listChunks, .ok mds⟩ :: (t ++ [⟨.getLatestChunks [w.superblockSlotId], .ok chunks⟩])) sb

theorem mapError_ok {ε ε' α : Type} {x : Except ε α} {f : ε → ε'} {a : α} (h : x.mapError f = .ok a) : x = .ok a := by
  cases x with
  | ok a' => exact congrArg Except.ok (Except.ok.inj h)
  | error e => cases h

theorem readSuperblock_ok {X : Ext} {w w' : Wrbpod} {tr : List Ev} {sb : WrbpodSuperblock}
    (h : Outcome (readSuperblock X) w tr (.ok sb) w') :
    ∃ signers, w' = { w with signers := some signers } ∧ Read X w signers tr sb := by
  unfold readSuperblock at h
  rw [outcome_bind_ok] at h
  obtain ⟨mds, w₁, t₁, t₂, rfl, h1, h⟩ := h
  obtain ⟨rfl, rfl⟩ := callClient_ok.1 h1
  rw [outcome_get_bind, outcome_bind_ok] at h
  obtain ⟨md, w₂, t₁, t₂, rfl, h1, h⟩ := h
  obtain ⟨rfl, rfl, hmd⟩ := orThrow_ok.1 h1
  rw [outcome_bind_ok] at h
  obtain ⟨signers, w₃, t, t₂, rfl, h1, h⟩ := h
  obtain ⟨rfl, ht⟩ := loadSigners_ok h1
  rw [outcome_bind_ok] at h
  obtain ⟨signer, w₄, t₁, t₂, rfl, h1, h⟩ := h
  obtain ⟨rfl, rfl, hsigner⟩ := orThrow_ok.1 h1
  refine ⟨signers, ?_⟩
  split_ifs at h with hempty
  · obtain ⟨rfl, rfl, hmake⟩ := outcome_ofExcept.1 h
    refine ⟨rfl, ?_⟩
    simpa using Read.fresh mds md t sb hmd hempty hmake.symm ht
  · rw [outcome_bind_ok] at h
    obtain ⟨valid, w₅, t₁, t₂, rfl, h1, h⟩ := h
    obtain ⟨rfl, rfl, hverify⟩ := outcome_verifyMetadata h1
    split_ifs at h with hvalid
    · obtain ⟨-, hr, -⟩ := outcome_throw.1 h
      cases hr
    · rw [outcome_bind_ok] at h
      obtain ⟨chunks, w₅, t₁, t₂, rfl, h1, h⟩ := h
      obtain ⟨rfl, rfl⟩ := callClient_ok.1 h1
      rw [outcome_bind_ok] at h
      obtain ⟨chunkOpt, w₅, t₁, t₂, rfl, h1, h⟩ := h
      obtain ⟨rfl, rfl, hchunk⟩ := orThrow_ok.1 h1
      rw [outcome_bind_ok] at h
      obtain ⟨data, w₅, t₁, t₂, rfl, h1, h⟩ := h
      obtain ⟨rfl, rfl, rfl⟩ := orThrow_ok.1 h1
      split_ifs at h with hhash
      · obtain ⟨-, hr, -⟩ := outcome_throw.1 h
        cases hr
      · obtain ⟨rfl, rfl, hdecode⟩ := outcome_ofExcept.1 h
        have htrue : X.verify md signer = .ok true := by
          rw [hverify valid rfl]
          simpa using hvalid
        refine ⟨rfl, ?_⟩
        simpa using Read.stored mds md t signer chunks data sb hmd (by simpa using hempty) hsigner htrue hchunk
          (by simpa using hhash) (mapError_ok hdecode.symm) ht

/-- where the signers are cached and everything checks, `readSuperblock` gives the stored superblock -/
theorem readSuperblock_of_stored {X : Ext} {w : Wrbpod} {signers : List StacksAddress} {signer : StacksAddress}
    {mds : List SlotMetadata} {md : SlotMetadata} {chunks : List (Option Bytes)} {data : Bytes} {sb : WrbpodSuperblock}
    (hs : w.signers = some signers) (hmd : mds[w.superblockSlotIndex]? = some md) (hempty : md.isEmpty = false)
    (hsigner : signers[w.superblockSlotIndex]? = some signer) (hverify : X.verify md signer = .ok true)
    (hchunk : chunks[w.superblockSlotIndex]? = some (some data)) (hhash : md.dataHash = X.fromData data)
    (hdecode : WrbpodSuperblock.fromBytes X data = .ok sb) :
    Outcome (readSuperblock X) w [⟨.listChunks, .ok mds⟩, ⟨.getLatestChunks [w.superblockSlotId], .ok chunks⟩]
      (.ok sb) w := by
  refine outcome_bind_ok.2 ⟨mds, w, _, _, rfl, callClient_ok.2 ⟨rfl, rfl⟩, outcome_get_bind.2 ?_⟩
  refine outcome_bind_ok.2 ⟨md, w, [], _, rfl, orThrow_ok.2 ⟨rfl, rfl, hmd⟩, ?_⟩
  refine outcome_bind_ok.2 ⟨signers, w, [], _, rfl, outcome_get_bind.2 ?_, ?_⟩
  · rw [hs]
    exact outcome_pure.2 ⟨rfl, rfl, rfl⟩
  refine outcome_bind_ok.2 ⟨signer, w, [], _, rfl, orThrow_ok.2 ⟨rfl, rfl, hsigner⟩, ?_⟩
  rw [if_neg (by simp [hempty])]
  refine outcome_bind_ok.2 ⟨true, w, [], _, rfl, ?_, ?_⟩
  · rw [verifyMetadata, hverify]
    exact outcome_pure.2 ⟨rfl, rfl, rfl⟩
  rw [if_neg (by simp)]
  refine outcome_bind_ok.2 ⟨chunks, w, _, [], rfl, callClient_ok.2 ⟨rfl, rfl⟩, ?_⟩
  refine outcome_bind_ok.2 ⟨some data, w, [], _, rfl, orThrow_ok.2 ⟨rfl, rfl, hchunk⟩, ?_⟩
  refine outcome_bind_ok.2 ⟨data, w, [], _, rfl, orThrow_ok.2 ⟨rfl, rfl, rfl⟩, ?_⟩
  rw [if_neg (by simp [hhash])]
  exact outcome_ofExcept.2 ⟨rfl, rfl, by rw [hdecode]; rfl⟩

theorem downloadSuperblock_ok {X : Ext} {w w' : Wrbpod} {tr : List Ev}
    (h : Outcome (downloadSuperblock X) w tr (.ok ()) w') :
    ∃ signers sb, w' = { w with signers := some signers, superblock := sb } ∧ Read X w signers tr sb := by
  obtain ⟨sb, w₁, t₁, t₂, rfl, h1, h2⟩ := outcome_bind_ok.1 h
  obtain ⟨signers, rfl, hread⟩ := readSuperblock_ok h1
  obtain ⟨rfl, -, rfl⟩ := outcome_modify.1 h2
  exact ⟨signers, sb, rfl, by simpa using hread⟩

/-- a failed download leaves everything but the signers, and puts nothing -/
theorem downloadSuperblock_error {X : Ext} {w w' : Wrbpod} {tr : List Ev} {e : Error}
    (h : Outcome (downloadSuperblock X) w tr (.error e) w') :
    w'.contents = w.contents ∧ ∀ e ∈ tr, isPut e.1 = false := by
  rcases outcome_bind.1 h with ⟨sb, w₁, t₁, t₂, rfl, -, h2⟩ | ⟨e', -, h1⟩
  · obtain ⟨-, hr, -⟩ := outcome_modify.1 h2
    cases hr
  · exact keeps_readSuperblock X _ _ _ _ h1

/-- a trace of attempts to put one chunk's bytes: each is signed for the slot, and exactly the last one of a
successful trace is accepted -/
structure Puts (X : Ext) (key : Secp256k1PrivateKey) (slotId : UInt32) (data : Bytes) (tr : List Ev)
    (r : Except Error Unit) : Prop where
  attempts : ∀ e ∈ tr, ∃ c a, e = ⟨.putChunk c, a⟩ ∧ c.slotId = slotId ∧ c.data = data ∧
    X.sign key slotId c.slotVersion (X.fromData data) = some c.sig
  success : r = .ok () → ∃ init c ack, tr = init ++ [⟨.putChunk c, .ok ack⟩] ∧ ack.accepted = true ∧
    ∀ e ∈ init, accepted e = false
  failure : r ≠ .ok () → ∀ e ∈ tr, accepted e = false

theorem outcome_sign {X : Ext} {key : Secp256k1PrivateKey} {chunk : StackerDBChunkData} {w w' : Wrbpod}
    {tr : List Ev} {r : Except Error StackerDBChunkData} (h : Outcome (sign X key chunk) w tr r w') :
    tr = [] ∧ w' = w ∧ ∀ signed, r = .ok signed → ∃ sig, signed = { chunk with sig := sig } ∧
      X.sign key chunk.slotId chunk.slotVersion (X.fromData chunk.data) = some sig := by
  unfold sign at h
  cases hs : X.sign key chunk.slotId chunk.slotVersion (X.fromData chunk.data) with
  | some sig =>
    rw [hs] at h
    obtain ⟨rfl, rfl, rfl⟩ := outcome_pure.1 h
    exact ⟨rfl, rfl, fun _ hr => ⟨sig, (Except.ok.inj hr).symm, rfl⟩⟩
  | none =>
    rw [hs] at h
    obtain ⟨rfl, rfl, rfl⟩ := outcome_throw.1 h
    exact ⟨rfl, rfl, fun _ hr => by cases hr⟩

/-- an attempt that was not accepted, before further ones -/
theorem Puts.cons {X : Ext} {key : Secp256k1PrivateKey} {slotId : UInt32} {data : Bytes} {tr : List Ev}
    {r : Except Error Unit} {c : StackerDBChunkData} {a : Answer (.putChunk c)} (hslot : c.slotId = slotId)
    (hdata : c.data = data) (hsig : X.sign key slotId c.slotVersion (X.fromData data) = some c.sig)
    (ha : accepted ⟨.putChunk c, a⟩ = false) (h : Puts X key slotId data tr r) :
    Puts X key slotId data (⟨.putChunk c, a⟩ :: tr) r := by
  refine ⟨fun e he => ?_, fun hr => ?_, fun hr e he => ?_⟩
  · rcases List.mem_cons.1 he with rfl | he
    · exact ⟨c, a, rfl, hslot, hdata, hsig⟩
    · exact h.attempts e he
  · obtain ⟨init, c', ack, rfl, hack, hinit⟩ := h.success hr
    refine ⟨⟨.putChunk c, a⟩ :: init, c', ack, rfl, hack, fun e he => ?_⟩
    rcases List.mem_cons.1 he with rfl | he
    · exact ha
    · exact hinit e he
  · rcases List.mem_cons.1 he with rfl | he
    · exact ha
    · exact h.failure hr e he

theorem Puts.nil {X : Ext} {key : Secp256k1PrivateKey} {slotId : UInt32} {data : Bytes} {r : Except Error Unit}
    (h : r ≠ .ok ()) : Puts X key slotId data [] r :=
  ⟨by simp, fun hr => absurd hr h, by simp⟩

theorem putSigned_puts {X : Ext} {attempts : ℕ} {chunk : StackerDBChunkData} {w w' : Wrbpod} {tr : List Ev}
    {r : Except Error Unit} (h : Outcome (putSigned X attempts chunk) w tr r w') :
    w' = w ∧ Puts X w.privkey chunk.slotId chunk.data tr r := by
  induction attempts generalizing chunk tr r with
  | zero => exact absurd h not_outcome_spin
  | succ attempts ih =>
    rw [putSigned, outcome_get_bind, outcome_bind] at h
    rcases h with ⟨signed, w₁, t₁, t₂, rfl, h1, h⟩ | ⟨e, rfl, h1⟩
    · obtain ⟨rfl, rfl, hsigned⟩ := outcome_sign h1
      obtain ⟨sig, rfl, hsig⟩ := hsigned signed rfl
      rw [outcome_bind] at h
      rcases h with ⟨ack, w₂, t₁, t₂, rfl, h1, h⟩ | ⟨e, rfl, h1⟩
      · obtain ⟨rfl, rfl⟩ := callClient_ok.1 h1
        split_ifs at h with hack
        · obtain ⟨rfl, rfl, rfl⟩ := outcome_pure.1 h
          refine ⟨rfl, fun e he => ?_, fun _ => ⟨[], _, ack, rfl, hack, by simp⟩, fun hr => absurd rfl hr⟩
          obtain rfl := List.mem_singleton.1 he
          exact ⟨_, _, rfl, rfl, rfl, hsig⟩
        · have hrejected : accepted ⟨.putChunk { chunk with sig := sig }, .ok ack⟩ = false := by
            simpa [accepted] using hack
          cases hmd : ack.metadata with
          | some md =>
            rw [hmd] at h
            obtain ⟨rfl, hputs⟩ := ih h
            exact ⟨rfl, hputs.cons rfl rfl hsig hrejected⟩
          | none =>
            rw [hmd] at h
            obtain ⟨rfl, rfl, rfl⟩ := outcome_throw.1 h
            exact ⟨rfl, (Puts.nil (by simp)).cons rfl rfl hsig hrejected⟩
      · obtain ⟨rfl, a, rfl, ⟨p, -, hr⟩ | ⟨e', rfl, -⟩⟩ := outcome_callClient.1 h1
        · cases hr
        · exact ⟨rfl, (Puts.nil (by simp)).cons rfl rfl hsig rfl⟩
    · obtain ⟨rfl, rfl, -⟩ := outcome_sign h1
      exact ⟨rfl, Puts.nil (by simp)⟩

/-- an upload lists once and then puts the superblock's encoding -/
theorem uploadSuperblock_puts {X : Ext} {attempts : ℕ} {w w' : Wrbpod} {tr : List Ev} {r : Except Error Unit}
    (h : Outcome (uploadSuperblock X attempts) w tr r w') :
    w' = w ∧ ∃ (a : Answer .listChunks) (puts : List Ev), tr = ⟨.listChunks, a⟩ :: puts ∧
      Puts X w.privkey w.superblockSlotId (w.superblock.consensusSerialize X) puts r := by
  unfold uploadSuperblock at h
  rw [outcome_bind] at h
  rcases h with ⟨mds, w₁, t₁, t₂, rfl, h1, h⟩ | ⟨e, rfl, h1⟩
  · obtain ⟨rfl, rfl⟩ := callClient_ok.1 h1
    rw [outcome_get_bind, outcome_bind] at h
    rcases h with ⟨md, w₂, t₁, t₂, rfl, h1, h⟩ | ⟨e, rfl, h1⟩
    · obtain ⟨rfl, rfl, -⟩ := orThrow_ok.1 h1
      obtain ⟨rfl, hputs⟩ := putSigned_puts h
      exact ⟨rfl, .ok mds, t₂, rfl, hputs⟩
    · obtain ⟨rfl, rfl, -⟩ := outcome_orThrow.1 h1
      exact ⟨rfl, .ok mds, [], rfl, Puts.nil (by simp)⟩
  · obtain ⟨rfl, a, rfl, -⟩ := outcome_callClient.1 h1
    exact ⟨rfl, a, [], rfl, Puts.nil (by simp)⟩

/-- the superblock operation of a wrbpod: whether it succeeded -/
def runOp (X : Ext) (attempts : ℕ) : WrbpodSuperblock.Op → WrbpodM Bool
  | .allocate appName codeHash numSlots => allocateSlots X attempts appName codeHash numSlots
  | .delete appName => do
    deleteSlots X attempts appName
    pure true

/-- everything `allocateSlots` and `deleteSlots` can do: fail to download, refuse, or upload what the operation makes of
the downloaded superblock -/
inductive Update (X : Ext) (op : WrbpodSuperblock.Op) (w : Wrbpod) : List Ev → Except Error Bool → Wrbpod → Prop
  | failed (tr : List Ev) (e : Error) (w' : Wrbpod) (hsame : w'.contents = w.contents)
    (hputs : ∀ e ∈ tr, isPut e.1 = false) : Update X op w tr (.error e) w'
  | refused (signers : List StacksAddress) (sb : WrbpodSuperblock) (tr : List Ev) (hread : Read X w signers tr sb)
    (hop : (op.apply sb).1 = false) :
    Update X op w tr (.ok false) { w with signers := some signers, superblock := (op.apply sb).2 }
  | uploaded (signers : List StacksAddress) (sb : WrbpodSuperblock) (tr : List Ev) (a : Answer .listChunks)
    (puts : List Ev) (r : Except Error Unit) (hread : Read X w signers tr sb) (hop : (op.apply sb).1 = true)
    (hputs : Puts X w.privkey w.superblockSlotId ((op.apply sb).2.consensusSerialize X) puts r) :
    Update X op w (tr ++ ⟨.listChunks, a⟩ :: puts) (r.map fun _ => true)
      { w with signers := some signers, superblock := (op.apply sb).2 }

theorem allocateSlots_update {X : Ext} {attempts : ℕ} {app : String} {hash : Hash160} {n : UInt32} {w w' : Wrbpod}
    {tr : List Ev} {r : Except Error Bool} (h : Outcome (allocateSlots X attempts app hash n) w tr r w') :
    Update X (.allocate app hash n) w tr r w' := by
  unfold allocateSlots at h
  rw [outcome_bind] at h
  rcases h with ⟨_, w₁, tr, t₂, rfl, h1, h⟩ | ⟨e, rfl, h1⟩
  · obtain ⟨signers, sb, rfl, hread⟩ := downloadSuperblock_ok h1
    rw [outcome_get_bind, outcome_modify_bind] at h
    cases hop : (sb.allocateSlots app hash n).1 with
    | false =>
      simp only [hop, Bool.false_eq_true, if_false] at h
      obtain ⟨rfl, rfl, rfl⟩ := outcome_pure.1 h
      have hupdate : Update X (.allocate app hash n) w _ _ _ := .refused signers sb tr hread hop
      simpa [WrbpodSuperblock.Op.apply] using hupdate
    | true =>
      simp only [hop, if_true] at h
      rw [outcome_bind] at h
      rcases h with ⟨_, w₁, t₁, t₂, rfl, h1, h⟩ | ⟨e, rfl, h1⟩
      · obtain ⟨rfl, a, puts, rfl, hputs⟩ := uploadSuperblock_puts h1
        obtain ⟨rfl, rfl, rfl⟩ := outcome_pure.1 h
        have hupdate : Update X (.allocate app hash n) w _ _ _ :=
          .uploaded signers sb tr a puts (.ok ()) hread hop hputs
        simpa [WrbpodSuperblock.Op.apply, Except.map] using hupdate
      · obtain ⟨rfl, a, puts, rfl, hputs⟩ := uploadSuperblock_puts h1
        have hupdate : Update X (.allocate app hash n) w _ _ _ :=
          .uploaded signers sb tr a puts (.error e) hread hop hputs
        simpa [WrbpodSuperblock.Op.apply, Except.map] using hupdate
  · obtain ⟨hsame, hputs⟩ := downloadSuperblock_error h1
    exact .failed tr e w' hsame hputs

theorem deleteSlots_update {X : Ext} {attempts : ℕ} {app : String} {w w' : Wrbpod} {tr : List Ev}
    {r : Except Error Unit} (h : Outcome (deleteSlots X attempts app) w tr r w') :
    Update X (.delete app) w tr (r.map fun _ => true) w' := by
  unfold deleteSlots at h
  rw [outcome_bind] at h
  rcases h with ⟨_, w₁, tr, t₂, rfl, h1, h⟩ | ⟨e, rfl, h1⟩
  · obtain ⟨signers, sb, rfl, hread⟩ := downloadSuperblock_ok h1
    rw [outcome_modify_bind] at h
    obtain ⟨rfl, a, puts, rfl, hputs⟩ := uploadSuperblock_puts h
    have hupdate : Update X (.delete app) w _ _ _ := .uploaded signers sb tr a puts r hread rfl hputs
    simpa [WrbpodSuperblock.Op.apply] using hupdate
  · obtain ⟨hsame, hputs⟩ := downloadSuperblock_error h1
    exact .failed tr e w' hsame hputs

theorem runOp_update {X : Ext} {attempts : ℕ} {op : WrbpodSuperblock.Op} {w w' : Wrbpod} {tr : List Ev}
    {r : Except Error Bool} (h : Outcome (runOp X attempts op) w tr r w') : Update X op w tr r w' := by
  cases op with
  | allocate app hash n => exact allocateSlots_update h
  | delete app =>
    rw [runOp, outcome_bind] at h
    rcases h with ⟨_, w₁, t₁, t₂, rfl, h1, h2⟩ | ⟨e, rfl, h1⟩
    · obtain ⟨rfl, rfl, rfl⟩ := outcome_pure.1 h2
      simpa [Except.map] using deleteSlots_update h1
    · exact deleteSlots_update h1

theorem format_ok {X : Ext} {attempts : ℕ} {key : Secp256k1PrivateKey} {slotId : UInt32} {w w' : Wrbpod}
    {tr : List Ev} (h : Outcome (format X attempts key slotId) w tr (.ok ()) w') :
    ∃ signers sb a puts, tr = ⟨.getSigners, .ok signers⟩ :: ⟨.listChunks, a⟩ :: puts ∧
      makeSuperblock X slotId signers key = .ok sb ∧ w' = ⟨sb, key, some signers, ∅, slotId⟩ ∧
      Puts X key slotId (sb.consensusSerialize X) puts (.ok ()) := by
  unfold format at h
  rw [outcome_bind_ok] at h
  obtain ⟨signers, w₁, t₁, t₂, rfl, h1, h⟩ := h
  obtain ⟨rfl, rfl⟩ := callClient_ok.1 h1
  rw [outcome_bind_ok] at h
  obtain ⟨sb, w₂, t₁, t₂, rfl, h1, h⟩ := h
  obtain ⟨rfl, rfl, hmake⟩ := outcome_ofExcept.1 h1
  rw [outcome_modify_bind] at h
  obtain ⟨rfl, a, puts, rfl, hputs⟩ := uploadSuperblock_puts h
  exact ⟨signers, sb, a, puts, rfl, hmake.symm, rfl, hputs⟩

theorem open_ok {X : Ext} {key : Secp256k1PrivateKey} {slotId : UInt32} {w w' : Wrbpod} {tr : List Ev}
    (h : Outcome («open» X key slotId) w tr (.ok ()) w') :
    ∃ signers sb t, tr = ⟨.getSigners, .ok signers⟩ :: t ∧ w' = ⟨sb, key, some signers, ∅, slotId⟩ ∧
      Read X ⟨.empty, key, some signers, ∅, slotId⟩ signers t sb := by
  unfold «open» at h
  rw [outcome_modify_bind, outcome_bind_ok] at h
  obtain ⟨_, w₁, t₁, t₂, rfl, h1, h⟩ := h
  obtain ⟨signers, rfl, rfl⟩ := refreshSigners_ok h1
  obtain ⟨signers', sb, rfl, hread⟩ := downloadSuperblock_ok h
  have hsame : signers' = signers := by
    cases hread with
    | fresh mds md t sb hmd hempty hmake ht =>
      rcases ht with ⟨hw, -⟩ | ⟨hw, -⟩
      · exact (Option.some.inj hw).symm
      · cases hw
    | stored mds md t signer chunks data sb hmd hempty hsigner hverify hchunk hhash hdecode ht =>
      rcases ht with ⟨hw, -⟩ | ⟨hw, -⟩
      · exact (Option.some.inj hw).symm
      · cases hw
  subst hsame
  exact ⟨signers', sb, t₂, rfl, rfl, hread⟩

/-- where everything checks, `open` loads the stored superblock -/
theorem open_of_stored {X : Ext} (key : Secp256k1PrivateKey) {slotId : UInt32} (w : Wrbpod)
    {signers : List StacksAddress} {signer : StacksAddress} {mds : List SlotMetadata} {md : SlotMetadata}
    {chunks : List (Option Bytes)} {data : Bytes} {sb : WrbpodSuperblock} (hmd : mds[slotId.toNat]? = some md)
    (hempty : md.isEmpty = false) (hsigner : signers[slotId.toNat]? = some signer)
    (hverify : X.verify md signer = .ok true) (hchunk : chunks[slotId.toNat]? = some (some data))
    (hhash : md.dataHash = X.fromData data) (hdecode : WrbpodSuperblock.fromBytes X data = .ok sb) :
    Outcome («open» X key slotId) w
      [⟨.getSigners, .ok signers⟩, ⟨.listChunks, .ok mds⟩, ⟨.getLatestChunks [slotId], .ok chunks⟩] (.ok ())
      ⟨sb, key, some signers, ∅, slotId⟩ := by
  apply outcome_modify_bind.2
  refine outcome_bind_ok.2 ⟨⟨⟩, ⟨.empty, key, some signers, ∅, slotId⟩, [⟨.getSigners, .ok signers⟩], _, rfl, ?_, ?_⟩
  · refine outcome_bind_ok.2 ⟨signers, _, _, [], rfl, callClient_ok.2 ⟨rfl, rfl⟩, ?_⟩
    exact outcome_modify.2 ⟨rfl, rfl, rfl⟩
  · have hread := readSuperblock_of_stored (w := ⟨.empty, key, some signers, ∅, slotId⟩) rfl hmd hempty hsigner hverify
      hchunk hhash hdecode
    exact outcome_bind_ok.2 ⟨sb, _, _, [], rfl, hread, outcome_modify.2 ⟨rfl, rfl, rfl⟩⟩

/-! ## Chunks -/

/-- a chunk the replica served for the slot, with the hash asked for -/
structure RawRead (X : Ext) (slotId : UInt32) (dataHash : Sha512Trunc256Sum) (tr : List Ev) (data : Bytes) : Prop where
  trace : ∃ chunks, tr = [⟨.getLatestChunks [slotId], .ok chunks⟩] ∧ chunks[0]? = some (some data)
  hash : dataHash = X.fromData data

theorem getRawChunk_ok {X : Ext} {slotId : UInt32} {dataHash : Sha512Trunc256Sum} {w w' : Wrbpod} {tr : List Ev}
    {data : Bytes} (h : Outcome (getRawChunk X slotId dataHash) w tr (.ok data) w') :
    w' = w ∧ RawRead X slotId dataHash tr data := by
  unfold getRawChunk at h
  rw [outcome_bind_ok] at h
  obtain ⟨chunks, w₁, t₁, t₂, rfl, h1, h⟩ := h
  obtain ⟨rfl, rfl⟩ := callClient_ok.1 h1
  rw [outcome_bind_ok] at h
  obtain ⟨chunkOpt, w₂, t₁, t₂, rfl, h1, h⟩ := h
  obtain ⟨rfl, rfl, hchunk⟩ := orThrow_ok.1 h1
  rw [outcome_bind_ok] at h
  obtain ⟨chunk, w₃, t₁, t₂, rfl, h1, h⟩ := h
  obtain ⟨rfl, rfl, rfl⟩ := orThrow_ok.1 h1
  split_ifs at h with hhash
  · obtain ⟨-, hr, -⟩ := outcome_throw.1 h
    cases hr
  · obtain ⟨rfl, hr, rfl⟩ := outcome_pure.1 h
    obtain rfl := Except.ok.inj hr
    exact ⟨rfl, ⟨chunks, by simp, hchunk⟩, by simpa using hhash⟩

theorem keeps_getRawChunk {γ : Type} (g : Wrbpod → γ) (X : Ext) (slotId : UInt32) (dataHash : Sha512Trunc256Sum) :
    Keeps g (fun q => isPut q = false) (getRawChunk X slotId dataHash) := by
  refine Keeps.bind (keeps_callClient rfl) fun chunks => Keeps.bind (keeps_orThrow _ _) fun chunkOpt => ?_
  refine Keeps.bind (keeps_orThrow _ _) fun chunk => ?_
  split_ifs
  · exact Keeps.throw _
  · exact Keeps.pure _

/-- the metadata the replica listed for a slot verifies for the slot's signer -/
structure Verified (X : Ext) (signers : List StacksAddress) (slotId : UInt32) (mds : List SlotMetadata)
    (md : SlotMetadata) : Prop where
  listed : mds[slotId.toNat]? = some md
  verifies : ∃ signer, signers[slotId.toNat]? = some signer ∧ X.verify md signer = .ok true

theorem getAndVerifyRawChunk_ok {X : Ext} {slotId : UInt32} {w w' : Wrbpod} {tr : List Ev} {data : Bytes}
    (h : Outcome (getAndVerifyRawChunk X slotId) w tr (.ok (some data)) w') :
    ∃ signers mds md t t', SignersTrace w t signers ∧ tr = t ++ ⟨.listChunks, .ok mds⟩ :: t' ∧
      Verified X signers slotId mds md ∧ RawRead X slotId md.dataHash t' data := by
  unfold getAndVerifyRawChunk at h
  rw [outcome_bind_ok] at h
  obtain ⟨signers, w₁, t, t₂, rfl, h1, h⟩ := h
  obtain ⟨rfl, ht⟩ := loadSigners_ok h1
  rw [outcome_bind_ok] at h
  obtain ⟨signer, w₂, t₁, t₂, rfl, h1, h⟩ := h
  obtain ⟨rfl, rfl, hsigner⟩ := orThrow_ok.1 h1
  rw [outcome_bind_ok] at h
  obtain ⟨mds, w₃, t₁, t₂, rfl, h1, h⟩ := h
  obtain ⟨rfl, rfl⟩ := callClient_ok.1 h1
  rw [outcome_bind_ok] at h
  obtain ⟨md, w₄, t₁, t₂, rfl, h1, h⟩ := h
  obtain ⟨rfl, rfl, hmd⟩ := orThrow_ok.1 h1
  split_ifs at h with hempty
  · obtain ⟨-, hr, -⟩ := outcome_pure.1 h
    cases hr
  · rw [outcome_bind_ok] at h
    obtain ⟨valid, w₅, t₁, t₂, rfl, h1, h⟩ := h
    obtain ⟨rfl, rfl, hverify⟩ := outcome_verifyMetadata h1
    split_ifs at h with hvalid
    · obtain ⟨-, hr, -⟩ := outcome_throw.1 h
      cases hr
    · rw [outcome_bind_ok] at h
      obtain ⟨data', w₅, t₁, t₂, rfl, h1, h⟩ := h
      obtain ⟨rfl, hraw⟩ := getRawChunk_ok h1
      obtain ⟨rfl, hr, -⟩ := outcome_pure.1 h
      obtain rfl := Option.some.inj (Except.ok.inj hr)
      obtain rfl : valid = true := by simpa using hvalid
      exact ⟨signers, mds, md, t, t₁, ht, by simp, ⟨hmd, signer, hsigner, hverify true rfl⟩, hraw⟩

/-- what `getChunk` caches, whatever its outcome: nothing, or the slices decoded from the chunk it read -/
theorem getChunk_outcome {X : Ext} {slotId : UInt32} {dataHash : Sha512Trunc256Sum} {w w' : Wrbpod} {tr : List Ev}
    {r : Except Error Unit} (h : Outcome (getChunk X slotId dataHash) w tr r w') :
    ((∃ e, r = .error e) ∧ w' = w ∧ ∀ e ∈ tr, isPut e.1 = false) ∨
    (r = .ok () ∧ ∃ data slices, RawRead X slotId dataHash tr data ∧ WrbpodSlices.fromSlice X data = .ok slices ∧
      w' = { w with chunks := w.chunks.insert slotId slices }) := by
  unfold getChunk at h
  rw [outcome_bind] at h
  rcases h with ⟨data, w₁, t₁, t₂, rfl, h1, h⟩ | ⟨e, rfl, h1⟩
  · obtain ⟨rfl, hraw⟩ := getRawChunk_ok h1
    rw [outcome_bind] at h
    rcases h with ⟨slices, w₂, t₃, t₂, rfl, h1, h⟩ | ⟨e, rfl, h1⟩
    · obtain ⟨rfl, rfl, hslices⟩ := outcome_ofExcept.1 h1
      obtain ⟨rfl, rfl, rfl⟩ := outcome_modify.1 h
      exact Or.inr ⟨rfl, data, slices, by simpa using hraw, mapError_ok hslices.symm, rfl⟩
    · obtain ⟨rfl, rfl, -⟩ := outcome_ofExcept.1 h1
      obtain ⟨chunks, rfl, -⟩ := hraw.trace
      exact Or.inl ⟨⟨e, rfl⟩, rfl, by simp [isPut]⟩
  · obtain ⟨hw, hputs⟩ := keeps_getRawChunk id X slotId dataHash _ _ _ _ h1
    exact Or.inl ⟨⟨e, rfl⟩, hw, hputs⟩

theorem keeps_getChunk {γ : Type} {g : Wrbpod → γ} (X : Ext) (slotId : UInt32) (dataHash : Sha512Trunc256Sum)
    (hg : ∀ (w : Wrbpod) chunks, g { w with chunks := chunks } = g w) :
    Keeps g (fun q => isPut q = false) (getChunk X slotId dataHash) :=
  Keeps.bind (keeps_getRawChunk g X slotId dataHash) fun _ => Keeps.bind (keeps_ofExcept _) fun _ =>
    Keeps.modify fun w => hg w _

/-- where slices that `fetchChunk` cached come from: the chunk has the hash in the metadata listed last, which verifies
for the signer of the slot -/
structure FetchedFrom (X : Ext) (w : Wrbpod) (tr : List Ev) (slotId : UInt32) (slices : WrbpodSlices)
    (mds : List SlotMetadata) (md : SlotMetadata) (data : Bytes) : Prop where
  listing : (listings tr).getLast? = some mds
  verified : ∃ signers, (w.signers = some signers ∨ ⟨.getSigners, .ok signers⟩ ∈ tr) ∧ Verified X signers slotId mds md
  raw : ∃ t t', tr = t ++ t' ∧ RawRead X slotId md.dataHash t' data
  decoded : WrbpodSlices.fromSlice X data = .ok slices

/-- what `fetchChunk` does to the cache: nothing, and then it gives no signer's key, or one slot of the app is cached -/
def Fetched (X : Ext) (app : String) (appSlotId : UInt32) (w : Wrbpod) (tr : List Ev)
    (r : Except Error (UInt32 × Option StacksPublicKey)) (w' : Wrbpod) : Prop :=
  (w'.chunks = w.chunks ∧ ∀ version pubk, r ≠ .ok (version, some pubk)) ∨ ∃ slotId slices mds md data,
    w.superblock.appSlotIdToStackerdbChunkId app appSlotId = some slotId ∧
    w'.chunks = w.chunks.insert slotId slices ∧ FetchedFrom X w tr slotId slices mds md data

/-- a round before a fetch that refreshes the signers only -/
theorem Fetched.after {X : Ext} {app : String} {appSlotId : UInt32} {w₁ w' : Wrbpod} {t : List Ev}
    {r : Except Error (UInt32 × Option StacksPublicKey)} (h : Fetched X app appSlotId w₁ t r w')
    (w : Wrbpod) (t₀ : List Ev)
    (hw : w₁.superblock = w.superblock ∧ w₁.chunks = w.chunks)
    (hs : ∀ signers, w₁.signers = some signers → ⟨.getSigners, .ok signers⟩ ∈ t₀) :
    Fetched X app appSlotId w (t₀ ++ t) r w' := by
  rcases h with ⟨h, hr⟩ | ⟨slotId, slices, mds, md, data, hslot, hchunks, hfrom⟩
  · exact Or.inl ⟨h.trans hw.2, hr⟩
  · refine Or.inr ⟨slotId, slices, mds, md, data, hw.1 ▸ hslot, hw.2 ▸ hchunks, ?_, ?_, ?_, hfrom.decoded⟩
    · have hlast := hfrom.listing
      rw [listings, List.filterMap_append, List.getLast?_append, ← listings, hlast]
      rfl
    · obtain ⟨signers, hsrc, hver⟩ := hfrom.verified
      refine ⟨signers, Or.inr (List.mem_append.2 ?_), hver⟩
      exact hsrc.imp (hs signers) fun h => h
    · obtain ⟨t₁, t₂, rfl, hraw⟩ := hfrom.raw
      exact ⟨t₀ ++ t₁, t₂, by rw [List.append_assoc], hraw⟩

theorem SignersTrace.source {w : Wrbpod} {t : List Ev} {signers : List StacksAddress} (h : SignersTrace w t signers) :
    w.signers = some signers ∨ ⟨.getSigners, .ok signers⟩ ∈ t := by
  rcases h with ⟨hw, -⟩ | ⟨-, rfl⟩
  · exact Or.inl hw
  · exact Or.inr List.mem_cons_self

theorem SignersTrace.listings_eq {w : Wrbpod} {t : List Ev} {signers : List StacksAddress}
    (h : SignersTrace w t signers) : listings t = [] := by
  rcases h with ⟨-, rfl⟩ | ⟨-, rfl⟩ <;> rfl

theorem keeps_fetchRound {γ : Type} {g : Wrbpod → γ} (X : Ext) (app : String) (appSlotId : UInt32) (refreshed : Bool)
    {retry : WrbpodM (UInt32 × Option StacksPublicKey)} (hs : ∀ (w : Wrbpod) s, g { w with signers := s } = g w)
    (hc : ∀ (w : Wrbpod) c, g { w with chunks := c } = g w) (hretry : Keeps g (fun q => isPut q = false) retry) :
    Keeps g (fun q => isPut q = false) (fetchRound X app appSlotId refreshed retry) := by
  refine Keeps.bind Keeps.get fun w => Keeps.bind (keeps_orThrow _ _) fun chunkId => ?_
  refine Keeps.bind (keeps_callClient rfl) fun mds => Keeps.bind (keeps_orThrow _ _) fun md => ?_
  refine Keeps.bind (keeps_loadSigners rfl hs) fun signers => Keeps.bind (keeps_orThrow _ _) fun signer => ?_
  refine Keeps.ite (Keeps.pure _) (Keeps.bind (keeps_verifyMetadata _ _ _ _) fun valid => Keeps.ite ?_ ?_)
  · exact Keeps.ite (Keeps.bind (keeps_refreshSigners rfl hs) fun _ => hretry) (Keeps.throw _)
  · exact Keeps.bind (keeps_getChunk X _ _ hc) fun _ => Keeps.bind (keeps_orThrow _ _) fun _ => Keeps.pure _

/-- the end of a round: the chunk stays cached where the key is not recovered -/
theorem cacheChunk_outcome {X : Ext} {slotId version : UInt32} {dataHash : Sha512Trunc256Sum}
    {key : Option StacksPublicKey} {error : Error} {w w' : Wrbpod} {tr : List Ev}
    {r : Except Error (UInt32 × Option StacksPublicKey)}
    (h : Outcome (do
      getChunk X slotId dataHash
      let pubk ← orThrow key error
      pure (version, some pubk)) w tr r w') :
    (w'.chunks = w.chunks ∧ ∃ e, r = .error e) ∨ ∃ data slices, RawRead X slotId dataHash tr data ∧
      WrbpodSlices.fromSlice X data = .ok slices ∧ w'.chunks = w.chunks.insert slotId slices := by
  rw [outcome_bind] at h
  rcases h with ⟨_, w₁, t₁, t₂, rfl, h1, h⟩ | ⟨e, rfl, h1⟩
  · rcases getChunk_outcome h1 with ⟨⟨e, hr⟩, -⟩ | ⟨-, data, slices, hraw, hslices, rfl⟩
    · cases hr
    · have hlast : t₂ = [] ∧ w'.chunks = w.chunks.insert slotId slices := by
        rw [outcome_bind] at h
        rcases h with ⟨_, w₂, t₁, t₂, rfl, h1, h⟩ | ⟨e, rfl, h1⟩
        · obtain ⟨rfl, rfl, -⟩ := orThrow_ok.1 h1
          obtain ⟨rfl, -, rfl⟩ := outcome_pure.1 h
          exact ⟨rfl, rfl⟩
        · obtain ⟨rfl, rfl, -⟩ := outcome_orThrow.1 h1
          exact ⟨rfl, rfl⟩
      obtain ⟨rfl, hchunks⟩ := hlast
      rw [List.append_nil]
      exact Or.inr ⟨data, slices, hraw, hslices, hchunks⟩
  · rcases getChunk_outcome h1 with ⟨-, rfl, -⟩ | ⟨hr, -⟩
    · exact Or.inl ⟨rfl, e, rfl⟩
    · cases hr

theorem fetchRound_fetched {X : Ext} {app : String} {appSlotId : UInt32} {refreshed : Bool}
    {retry : WrbpodM (UInt32 × Option StacksPublicKey)}
    (hretry : ∀ w tr r w', Outcome retry w tr r w' → Fetched X app appSlotId w tr r w') {w w' : Wrbpod} {tr : List Ev}
    {r : Except Error (UInt32 × Option StacksPublicKey)}
    (h : Outcome (fetchRound X app appSlotId refreshed retry) w tr r w') : Fetched X app appSlotId w tr r w' := by
  have herror : ∀ {e : Error}, r = .error e → ∀ version pubk, r ≠ .ok (version, some pubk) := by
    rintro e rfl version pubk h
    cases h
  unfold fetchRound at h
  rw [outcome_get_bind] at h
  replace h := (keeps_orThrow (C := fun _ => True) _ _).bind_cases (g := chunks) h
  rcases h with ⟨slotId, w₂, t₁, t₂, rfl, h1, h⟩ | ⟨hw, e, hr⟩
  swap; · exact Or.inl ⟨hw, herror hr⟩
  obtain ⟨rfl, rfl, hslot⟩ := orThrow_ok.1 h1
  replace h := (keeps_callClient (C := fun _ => True) trivial).bind_cases (g := chunks) h
  rcases h with ⟨mds, w₂, t₁, t₂, rfl, h1, h⟩ | ⟨hw, e, hr⟩
  swap; · exact Or.inl ⟨hw, herror hr⟩
  obtain ⟨rfl, rfl⟩ := callClient_ok.1 h1
  replace h := (keeps_orThrow (C := fun _ => True) _ _).bind_cases (g := chunks) h
  rcases h with ⟨md, w₂, t₁, t₂, rfl, h1, h⟩ | ⟨hw, e, hr⟩
  swap; · exact Or.inl ⟨hw, herror hr⟩
  obtain ⟨rfl, rfl, hmd⟩ := orThrow_ok.1 h1
  replace h := (keeps_loadSigners (C := fun _ => True) trivial fun _ _ => rfl).bind_cases (g := chunks) h
  rcases h with ⟨signers, w₂, ts, t₂, rfl, h1, h⟩ | ⟨hw, e, hr⟩
  swap; · exact Or.inl ⟨hw, herror hr⟩
  obtain ⟨rfl, ht⟩ := loadSigners_ok h1
  replace h := (keeps_orThrow (C := fun _ => True) _ _).bind_cases (g := chunks) h
  rcases h with ⟨signer, w₃, t₁, t₂, rfl, h1, h⟩ | ⟨hw, e, hr⟩
  swap; · exact Or.inl ⟨hw, herror hr⟩
  obtain ⟨rfl, rfl, hsigner⟩ := orThrow_ok.1 h1
  by_cases hempty : md.isEmpty = true
  · rw [if_pos hempty] at h
    obtain ⟨-, rfl, rfl⟩ := outcome_pure.1 h
    exact Or.inl ⟨rfl, fun version pubk hr => by cases hr⟩
  rw [if_neg hempty] at h
  replace h := (keeps_verifyMetadata (C := fun _ => True) _ _ _ _).bind_cases (g := chunks) h
  rcases h with ⟨valid, w₃, t₁, t₂, rfl, h1, h⟩ | ⟨hw, e, hr⟩
  swap; · exact Or.inl ⟨hw, herror hr⟩
  obtain ⟨rfl, rfl, hverify⟩ := outcome_verifyMetadata h1
  cases valid with
  | false =>
    simp only [Bool.not_false, if_true] at h
    split_ifs at h
    · replace h := (keeps_refreshSigners (C := fun _ => True) trivial fun _ _ => rfl).bind_cases (g := chunks) h
      rcases h with ⟨_, w₃, t₁, t₂, rfl, h1, h⟩ | ⟨hw, e, hr⟩
      swap; · exact Or.inl ⟨hw, herror hr⟩
      obtain ⟨signers', rfl, rfl⟩ := refreshSigners_ok h1
      have hafter := (hretry _ _ _ _ h).after w₂ (⟨.listChunks, .ok mds⟩ :: (ts ++ [⟨.getSigners, .ok signers'⟩]))
        ⟨rfl, rfl⟩ fun s hs => by
          obtain rfl := Option.some.inj hs
          simp
      simpa using hafter
    · obtain ⟨-, hr, rfl⟩ := outcome_throw.1 h
      exact Or.inl ⟨rfl, herror hr⟩
  | true =>
    simp only [Bool.not_true, Bool.false_eq_true, if_false] at h
    rcases cacheChunk_outcome h with ⟨hw, e, hr⟩ | ⟨data, slices, hraw, hslices, hchunks⟩
    · exact Or.inl ⟨hw, herror hr⟩
    · refine Or.inr ⟨slotId, slices, mds, md, data, hslot, hchunks, ?_, ?_, ?_, hslices⟩
      · obtain ⟨chunks, rfl, -⟩ := hraw.trace
        have hnil := ht.listings_eq
        simp only [listings] at hnil ⊢
        simp [hnil]
      · refine ⟨signers, ?_, hmd, signer, hsigner, hverify true rfl⟩
        exact ht.source.imp (fun h => h) fun h => by simp [h]
      · exact ⟨⟨.listChunks, .ok mds⟩ :: ts, t₂, by simp, hraw⟩

/-- everything `fetchChunk` does: it leaves the superblock, puts nothing, and caches at most one slot of the app -/
theorem fetchChunk_outcome {X : Ext} {app : String} {appSlotId : UInt32} {w w' : Wrbpod} {tr : List Ev}
    {r : Except Error (UInt32 × Option StacksPublicKey)} (h : Outcome (fetchChunk X app appSlotId) w tr r w') :
    (w'.superblock = w.superblock ∧ w'.identity = w.identity) ∧ (∀ e ∈ tr, isPut e.1 = false) ∧
      Fetched X app appSlotId w tr r w' := by
  have hkeeps : Keeps (fun w => (w.superblock, w.identity)) (fun q => isPut q = false) (fetchChunk X app appSlotId) :=
    keeps_fetchRound X app appSlotId false (fun _ _ => rfl) (fun _ _ => rfl)
      (keeps_fetchRound X app appSlotId true (fun _ _ => rfl) (fun _ _ => rfl) Keeps.spin)
  obtain ⟨hw, hputs⟩ := hkeeps _ _ _ _ h
  refine ⟨Prod.mk.inj hw, hputs, fetchRound_fetched (fun w tr r w' h => ?_) h⟩
  exact fetchRound_fetched (fun _ _ _ _ h => absurd h not_outcome_spin) h

/-- everything `putSlice` can do: refuse and change nothing, or put into the slices of one of the app's slots; there are
new ones where none are cached -/
theorem putSlice_cases (X : Ext) (w : Wrbpod) (app : String) (appSlotId : UInt32) (id : BitVec 128) (v : Bytes) :
    w.putSlice X app appSlotId id v = (false, w) ∨
    ∃ (slotId : UInt32) (slices : WrbpodSlices), w.superblock.appSlotIdToStackerdbChunkId app appSlotId = some slotId ∧
      (w.chunks[slotId]? = some slices ∨ w.chunks[slotId]? = none ∧ slices = .new X) ∧
      w.putSlice X app appSlotId id v =
        ((slices.putSlice id v).1, { w with chunks := w.chunks.insert slotId (slices.putSlice id v).2 }) := by
  unfold putSlice
  cases hslot : w.superblock.appSlotIdToStackerdbChunkId app appSlotId with
  | none => exact Or.inl rfl
  | some slotId =>
    cases hchunk : w.chunks[slotId]? with
    | some slices => exact Or.inr ⟨slotId, slices, rfl, Or.inl hchunk, by simp only [hchunk]⟩
    | none =>
      simp only [hchunk]
      cases hput : ((WrbpodSlices.new X).putSlice id v).1 with
      | false => exact Or.inl (by simp)
      | true => exact Or.inr ⟨slotId, .new X, rfl, Or.inr ⟨hchunk, rfl⟩, by simp [hput]⟩

/-- everything `syncSlot` can do: put nothing and change nothing, or put the encoding of the cached slices of one of the
app's slots, and perhaps mark them clean -/
inductive Synced (X : Ext) (app : String) (appSlotId : UInt32) (w : Wrbpod) : List Ev → Wrbpod → Prop
  | nothing (tr : List Ev) (hputs : ∀ e ∈ tr, isPut e.1 = false) : Synced X app appSlotId w tr w
  | puts (slotId : UInt32) (slices : WrbpodSlices) (a : Answer .listChunks) (puts : List Ev) (r : Except Error Unit)
    (w' : Wrbpod) (hslot : w.superblock.appSlotIdToStackerdbChunkId app appSlotId = some slotId)
    (hslices : w.chunks[slotId]? = some slices)
    (hputs : Puts X w.privkey slotId (slices.consensusSerialize X) puts r)
    (hw : w' = w ∨ w' = { w with chunks := w.chunks.insert slotId (slices.setDirty false) }) :
    Synced X app appSlotId w (⟨.listChunks, a⟩ :: puts) w'

theorem syncSlot_synced {X : Ext} {attempts : ℕ} {app : String} {appSlotId : UInt32} {w w' : Wrbpod} {tr : List Ev}
    {r : Except Error Unit} (h : Outcome (syncSlot X attempts app appSlotId) w tr r w') :
    Synced X app appSlotId w tr w' := by
  unfold syncSlot at h
  rw [outcome_get_bind, outcome_bind] at h
  rcases h with ⟨slotId, w₂, t₁, t₂, rfl, h1, h⟩ | ⟨e, -, h1⟩
  swap
  · obtain ⟨rfl, rfl, -⟩ := outcome_orThrow.1 h1
    exact .nothing _ (by simp)
  obtain ⟨rfl, rfl, hslot⟩ := orThrow_ok.1 h1
  rw [outcome_bind] at h
  rcases h with ⟨slices, w₂, t₁, t₂, rfl, h1, h⟩ | ⟨e, -, h1⟩
  swap
  · obtain ⟨rfl, rfl, -⟩ := outcome_orThrow.1 h1
    exact .nothing _ (by simp)
  obtain ⟨rfl, rfl, hslices⟩ := orThrow_ok.1 h1
  rw [outcome_bind] at h
  rcases h with ⟨mds, w₂, t₁, t₂, rfl, h1, h⟩ | ⟨e, -, h1⟩
  swap
  · obtain ⟨rfl, a, rfl, -⟩ := outcome_callClient.1 h1
    exact .nothing _ (by simp [isPut])
  obtain ⟨rfl, rfl⟩ := callClient_ok.1 h1
  rw [outcome_bind] at h
  rcases h with ⟨md, w₂, t₁, t₂, rfl, h1, h⟩ | ⟨e, -, h1⟩
  swap
  · obtain ⟨rfl, rfl, -⟩ := outcome_orThrow.1 h1
    exact .nothing _ (by simp [isPut])
  obtain ⟨rfl, rfl, -⟩ := orThrow_ok.1 h1
  rw [outcome_bind] at h
  rcases h with ⟨_, w₂, puts, t₂, rfl, h1, h⟩ | ⟨e, -, h1⟩
  swap
  · obtain ⟨rfl, hputs⟩ := putSigned_puts h1
    simpa using Synced.puts slotId slices (.ok mds) _ _ _ hslot hslices hputs (Or.inl rfl)
  obtain ⟨rfl, hputs⟩ := putSigned_puts h1
  rw [outcome_get_bind, outcome_bind] at h
  rcases h with ⟨slices', w₃, t₁, t₂, rfl, h1, h⟩ | ⟨e, -, h1⟩
  swap
  · obtain ⟨rfl, rfl, -⟩ := outcome_orThrow.1 h1
    simpa using Synced.puts slotId slices (.ok mds) _ _ _ hslot hslices hputs (Or.inl rfl)
  obtain ⟨rfl, rfl, hslices'⟩ := orThrow_ok.1 h1
  obtain ⟨rfl, -, rfl⟩ := outcome_modify.1 h
  obtain rfl : slices = slices' := Option.some.inj (hslices.symm.trans hslices')
  simpa using Synced.puts slotId slices (.ok mds) _ _ _ hslot hslices hputs (Or.inr rfl)

/-- a successful `syncSlot` lists once, stores the encoding of the cached slices, and marks them clean -/
theorem syncSlot_ok {X : Ext} {attempts : ℕ} {app : String} {appSlotId : UInt32} {w w' : Wrbpod} {tr : List Ev}
    (h : Outcome (syncSlot X attempts app appSlotId) w tr (.ok ()) w') :
    ∃ (slotId : UInt32) (slices : WrbpodSlices) (mds : List SlotMetadata) (puts : List Ev),
      w.superblock.appSlotIdToStackerdbChunkId app appSlotId = some slotId ∧ w.chunks[slotId]? = some slices ∧
      tr = ⟨.listChunks, .ok mds⟩ :: puts ∧ Puts X w.privkey slotId (slices.consensusSerialize X) puts (.ok ()) ∧
      w' = { w with chunks := w.chunks.insert slotId (slices.setDirty false) } := by
  unfold syncSlot at h
  rw [outcome_get_bind, outcome_bind_ok] at h
  obtain ⟨slotId, w₂, t₁, t₂, rfl, h1, h⟩ := h
  obtain ⟨rfl, rfl, hslot⟩ := orThrow_ok.1 h1
  rw [outcome_bind_ok] at h
  obtain ⟨slices, w₂, t₁, t₂, rfl, h1, h⟩ := h
  obtain ⟨rfl, rfl, hslices⟩ := orThrow_ok.1 h1
  rw [outcome_bind_ok] at h
  obtain ⟨mds, w₂, t₁, t₂, rfl, h1, h⟩ := h
  obtain ⟨rfl, rfl⟩ := callClient_ok.1 h1
  rw [outcome_bind_ok] at h
  obtain ⟨md, w₂, t₁, t₂, rfl, h1, h⟩ := h
  obtain ⟨rfl, rfl, -⟩ := orThrow_ok.1 h1
  rw [outcome_bind_ok] at h
  obtain ⟨_, w₂, puts, t₂, rfl, h1, h⟩ := h
  obtain ⟨rfl, hputs⟩ := putSigned_puts h1
  rw [outcome_get_bind, outcome_bind_ok] at h
  obtain ⟨slices', w₃, t₁, t₂, rfl, h1, h⟩ := h
  obtain ⟨rfl, rfl, hslices'⟩ := orThrow_ok.1 h1
  obtain ⟨rfl, -, rfl⟩ := outcome_modify.1 h
  obtain rfl : slices = slices' := Option.some.inj (hslices.symm.trans hslices')
  exact ⟨slotId, slices, mds, puts, hslot, hslices, by simp, hputs, rfl⟩

/-! ## What is asked before a method returns -/

section Asks

variable {C : Call → Prop} {α : Type}

theorem asks_callClient {q : Call} (hq : C q) : Asks C (callClient q) := by
  refine Asks.bind (Asks.request hq) fun a => ?_
  cases a with
  | ok payload => exact Asks.pure payload
  | error e => exact Asks.throw _

theorem asks_orThrow (o : Option α) (e : Error) : Asks C (orThrow o e) := by
  cases o with
  | some a => exact Asks.pure a
  | none => exact Asks.throw e

theorem asks_ofExcept (x : Except Error α) : Asks C (ofExcept x) := by
  cases x with
  | ok a => exact Asks.pure a
  | error e => exact Asks.throw e

theorem asks_verifyMetadata (X : Ext) (md : SlotMetadata) (signer : StacksAddress) (msg : String) :
    Asks C (verifyMetadata X md signer msg) := by
  unfold verifyMetadata
  cases X.verify md signer with
  | ok valid => exact Asks.pure valid
  | error e => exact Asks.throw _

theorem asks_refreshSigners (hC : C .getSigners) : Asks C refreshSigners :=
  Asks.bind (asks_callClient hC) fun _ => Asks.modify _

theorem asks_loadSigners (hC : C .getSigners) : Asks C loadSigners := by
  refine Asks.bind Asks.get fun w => ?_
  cases w.signers with
  | some signers => exact Asks.pure signers
  | none => exact Asks.bind (asks_refreshSigners hC) fun _ => Asks.bind Asks.get fun w' => asks_orThrow _ _

theorem asks_getChunk (X : Ext) {slotId : UInt32} (dataHash : Sha512Trunc256Sum) (hC : C (.getLatestChunks [slotId])) :
    Asks C (getChunk X slotId dataHash) := by
  refine Asks.bind ?_ fun chunk => Asks.bind (asks_ofExcept _) fun slices => Asks.modify _
  refine Asks.bind (asks_callClient hC) fun chunks => Asks.bind (asks_orThrow _ _) fun chunkOpt => ?_
  exact Asks.bind (asks_orThrow _ _) fun chunk => Asks.ite (Asks.throw _) (Asks.pure _)

theorem asks_fetchRound (X : Ext) (app : String) (appSlotId : UInt32) (refreshed : Bool)
    {retry : WrbpodM (UInt32 × Option StacksPublicKey)} (hretry : Asks (fun q => isPut q = false) retry) :
    Asks (fun q => isPut q = false) (fetchRound X app appSlotId refreshed retry) := by
  refine Asks.bind Asks.get fun w => Asks.bind (asks_orThrow _ _) fun chunkId => ?_
  refine Asks.bind (asks_callClient rfl) fun mds => Asks.bind (asks_orThrow _ _) fun md => ?_
  refine Asks.bind (asks_loadSigners rfl) fun signers => Asks.bind (asks_orThrow _ _) fun signer => ?_
  refine Asks.ite (Asks.pure _) (Asks.bind (asks_verifyMetadata _ _ _ _) fun valid => Asks.ite ?_ ?_)
  · exact Asks.ite (Asks.bind (asks_refreshSigners rfl) fun _ => hretry) (Asks.throw _)
  · exact Asks.bind (asks_getChunk X _ rfl) fun _ => Asks.bind (asks_orThrow _ _) fun _ => Asks.pure _

/-- `fetchChunk` puts nothing -/
theorem asks_fetchChunk (X : Ext) (app : String) (appSlotId : UInt32) :
    Asks (fun q => isPut q = false) (fetchChunk X app appSlotId) :=
  asks_fetchRound X app appSlotId false (asks_fetchRound X app appSlotId true Asks.spin)

/-- the calls that put nothing but these bytes in this slot -/
def PutsOnly (slotId : UInt32) (data : Bytes) : Call → Prop
  | .putChunk c => c.slotId = slotId ∧ c.data = data
  | _ => True

theorem asks_putSigned (X : Ext) (attempts : ℕ) (chunk : StackerDBChunkData) :
    Asks (PutsOnly chunk.slotId chunk.data) (putSigned X attempts chunk) := by
  induction attempts generalizing chunk with
  | zero => exact Asks.spin
  | succ attempts ih =>
    intro w
    show Only (PutsOnly chunk.slotId chunk.data) (((sign X w.privkey chunk : WrbpodM StackerDBChunkData) >>= _).prog w)
    unfold sign
    cases X.sign w.privkey chunk.slotId chunk.slotVersion (X.fromData chunk.data) with
    | none => trivial
    | some sig =>
      refine Asks.bind (asks_callClient ⟨rfl, rfl⟩) (fun result => ?_) w
      refine Asks.ite (Asks.pure _) ?_
      cases result.metadata with
      | some metadata => exact ih { chunk with slotVersion := metadata.slotVersion + 1 }
      | none => exact Asks.throw _

/-- whatever it is answered, `syncSlot` puts only the encoding of the cached slices of the app's slot -/
theorem only_syncSlot (X : Ext) (attempts : ℕ) (app : String) (appSlotId : UInt32) (w : Wrbpod) :
    Only (fun q => isPut q = true → ∃ (slotId : UInt32) (slices : WrbpodSlices),
        w.superblock.appSlotIdToStackerdbChunkId app appSlotId = some slotId ∧ w.chunks[slotId]? = some slices ∧
        PutsOnly slotId (slices.consensusSerialize X) q) ((syncSlot X attempts app appSlotId).prog w) := by
  unfold syncSlot
  show Only _ ((orThrow (w.superblock.appSlotIdToStackerdbChunkId app appSlotId) .noSuchChunk >>= _ :
    WrbpodM Unit).prog w)
  cases hslot : w.superblock.appSlotIdToStackerdbChunkId app appSlotId with
  | none => trivial
  | some slotId =>
    show Only _ ((orThrow w.chunks[slotId]? .noSuchChunk >>= _ : WrbpodM Unit).prog w)
    cases hslices : w.chunks[slotId]? with
    | none => trivial
    | some slices =>
      have hrest : Asks (PutsOnly slotId (slices.consensusSerialize X)) (do
          let slotMetadata ← callClient .listChunks
          let slotMd ← orThrow slotMetadata[slotId.toNat]? .noSuchChunk
          putChunk X attempts (slices.toStackerdbChunk X slotId (slotMd.slotVersion + 1))
          let w' ← get
          let slices' ← orThrow w'.chunks[slotId]? .noSuchChunk
          modify fun w => { w with chunks := w.chunks.insert slotId (slices'.setDirty false) }) := by
        refine Asks.bind (asks_callClient trivial) fun mds => Asks.bind (asks_orThrow _ _) fun md => ?_
        refine Asks.bind (asks_putSigned X attempts (slices.toStackerdbChunk X slotId (md.slotVersion + 1))) fun _ => ?_
        exact Asks.bind Asks.get fun w' => Asks.bind (asks_orThrow _ _) fun slices' => Asks.modify _
      exact (hrest w).mono fun q hq _ => ⟨slotId, slices, rfl, hslices, hq⟩

end Asks

end Wrbpod

end Wrb.Storage
