/-
Who signed what a wrbpod reads: the replica is untrusted, and may answer anything; the home node is trusted for the list
of signers.

The three reading methods (`fetchChunk`, `getAndVerifyRawChunk`, `downloadSuperblock`) pick a slot's metadata by its
position in the listing, verify it for the slot's signer and compare the hash of the data. None of them compares the
slot ID in the metadata with the slot.

Results:
- `Vouched`: what all three check of the data they hand over, whatever the replica answers;
- `authentic_iff`: the data is authentic for its slot if and only if the listing names that slot at its position;
- `other_slot_passes`: a replica that lists the metadata of slot 1 at position 2 passes off slot 1 as slot 2.
-/
import Wrb.Storage.WrbpodTraces

namespace Wrb.Storage

open Wrb.Wire Wrb.Programs

namespace Wrbpod

/-- the home node answers `signers`, and a cached list came from it -/
structure Trusted (signers : List StacksAddress) (w : Wrbpod) (tr : List Ev) : Prop where
  cached : ∀ s, w.signers = some s → s = signers
  answers : ∀ s, ⟨.getSigners, .ok s⟩ ∈ tr → s = signers

/-- the metadata at the slot's position in the last listing -/
def listedAt (slotId : UInt32) (tr : List Ev) : Option SlotMetadata :=
  (listings tr).getLast?.bind fun mds => mds[slotId.toNat]?

/-- the data has the hash in metadata that is listed for the slot, and that verifies for the slot's signer -/
structure Vouched (X : Ext) (signers : List StacksAddress) (slotId : UInt32) (tr : List Ev) (data : Bytes) : Prop where
  metadata : ∃ md signer, listedAt slotId tr = some md ∧ md.dataHash = X.fromData data ∧
    signers[slotId.toNat]? = some signer ∧ X.verify md signer = .ok true

/-- the data has the hash in metadata of this very slot, listed for it and verifying for its signer -/
structure Authentic (X : Ext) (signers : List StacksAddress) (slotId : UInt32) (tr : List Ev) (data : Bytes) :
    Prop where
  metadata : ∃ md signer, listedAt slotId tr = some md ∧ md.slotId = slotId ∧ md.dataHash = X.fromData data ∧
    signers[slotId.toNat]? = some signer ∧ X.verify md signer = .ok true

/-- the metadata listed for the slot names the slot -/
def NamesSlot (slotId : UInt32) (tr : List Ev) : Prop := ∃ md, listedAt slotId tr = some md ∧ md.slotId = slotId

theorem Vouched.authenticFor_iff {X : Ext} {signers : List StacksAddress} {slotId : UInt32}
    {tr : List Ev} {data : Bytes}
    (h : Vouched X signers slotId tr data) : Authentic X signers slotId tr data ↔ NamesSlot slotId tr := by
  obtain ⟨md, signer, hlisted, hhash, hsigner, hverify⟩ := h.metadata
  constructor
  · rintro ⟨md', -, hlisted', hslot, -⟩
    exact ⟨md', hlisted', hslot⟩
  · rintro ⟨md', hlisted', hslot⟩
    obtain rfl : md = md' := Option.some.inj (hlisted.symm.trans hlisted')
    exact ⟨md, signer, hlisted, hslot, hhash, hsigner, hverify⟩

theorem Trusted.source {signers s : List StacksAddress} {w : Wrbpod} {tr : List Ev} (h : Trusted signers w tr)
    (hs : w.signers = some s ∨ ⟨.getSigners, .ok s⟩ ∈ tr) : s = signers := by
  rcases hs with hs | hs
  · exact h.cached s hs
  · exact h.answers s hs

theorem listedAt_of_getLast? {slotId : UInt32} {tr : List Ev} {mds : List SlotMetadata} {md : SlotMetadata}
    (h : (listings tr).getLast? = some mds) (hmd : mds[slotId.toNat]? = some md) : listedAt slotId tr = some md := by
  rw [listedAt, h]
  exact hmd

/-- what `fetchChunk` caches is vouched for -/
theorem fetchChunk_vouched {X : Ext} {signers : List StacksAddress} {app : String} {appSlotId : UInt32} {w w' : Wrbpod}
    {tr : List Ev} {r : Except Error (UInt32 × Option StacksPublicKey)} (ht : Trusted signers w tr)
    (h : Outcome (fetchChunk X app appSlotId) w tr r w') :
    (w'.chunks = w.chunks ∧ ∀ version pubk, r ≠ .ok (version, some pubk)) ∨
    ∃ slotId slices data, w'.chunks = w.chunks.insert slotId slices ∧ WrbpodSlices.fromSlice X data = .ok slices ∧
      Vouched X signers slotId tr data := by
  obtain ⟨-, -, hfetched⟩ := fetchChunk_outcome h
  refine hfetched.imp (fun h => h) ?_
  rintro ⟨slotId, slices, mds, md, data, -, hchunks, hfrom⟩
  obtain ⟨s, hs, hlisted, signer, hsigner, hverify⟩ := hfrom.verified
  obtain rfl := ht.source hs
  obtain ⟨t, t', -, hraw⟩ := hfrom.raw
  exact ⟨slotId, slices, data, hchunks, hfrom.decoded, md, signer, listedAt_of_getLast? hfrom.listing hlisted,
    hraw.hash,
    hsigner, hverify⟩

/-- what `getAndVerifyRawChunk` returns is vouched for -/
theorem getAndVerifyRawChunk_vouched {X : Ext} {signers : List StacksAddress} {slotId : UInt32} {w w' : Wrbpod}
    {tr : List Ev} {data : Bytes} (ht : Trusted signers w tr)
    (h : Outcome (getAndVerifyRawChunk X slotId) w tr (.ok (some data)) w') : Vouched X signers slotId tr data := by
  obtain ⟨s, mds, md, t, t', hs, rfl, hver, hraw⟩ := getAndVerifyRawChunk_ok h
  obtain rfl := ht.source (hs.source.imp (fun h => h) fun h => List.mem_append_left _ h)
  obtain ⟨signer, hsigner, hverify⟩ := hver.verifies
  obtain ⟨chunks, rfl, -⟩ := hraw.trace
  refine ⟨md, signer, listedAt_of_getLast? ?_ hver.listed, hraw.hash, hsigner, hverify⟩
  have hnil := hs.listings_eq
  simp only [listings] at hnil ⊢
  simp [hnil]

/-- a superblock that `downloadSuperblock` installs is a new one, where the slot is listed as empty, or it is decoded
from data that is vouched for -/
theorem downloadSuperblock_vouched {X : Ext} {signers : List StacksAddress} {w w' : Wrbpod} {tr : List Ev}
    (ht : Trusted signers w tr) (h : Outcome (downloadSuperblock X) w tr (.ok ()) w') :
    ((∃ md, listedAt w.superblockSlotId tr = some md ∧ md.isEmpty = true) ∧
      makeSuperblock X w.superblockSlotId signers w.privkey = .ok w'.superblock) ∨
    ∃ data, WrbpodSuperblock.fromBytes X data = .ok w'.superblock ∧
      Vouched X signers w.superblockSlotId tr data := by
  obtain ⟨s, sb, rfl, hread⟩ := downloadSuperblock_ok h
  cases hread with
  | fresh mds md t sb hmd hempty hmake hs =>
    obtain rfl := ht.source (hs.source.imp (fun h => h) fun h => List.mem_cons_of_mem _ h)
    refine Or.inl ⟨⟨md, listedAt_of_getLast? ?_ hmd, hempty⟩, hmake⟩
    have hnil := hs.listings_eq
    simp only [listings] at hnil ⊢
    simp [hnil]
  | stored mds md t signer chunks data sb hmd hempty hsigner hverify hchunk hhash hdecode hs =>
    obtain rfl := ht.source (hs.source.imp (fun h => h) fun h => by simp [h])
    refine Or.inr ⟨data, hdecode, md, signer, listedAt_of_getLast? ?_ hmd, hhash, hsigner, hverify⟩
    have hnil := hs.listings_eq
    simp only [listings] at hnil ⊢
    simp [hnil]

/-- **Slots are bound by position only.** Whatever the replica answers: what `fetchChunk` caches for a slot, what
`getAndVerifyRawChunk` returns for it and the stored superblock that `downloadSuperblock` installs from it is authentic
for that slot if and only if the replica listed metadata naming the slot at the slot's position. -/
theorem authentic_iff (X : Ext) (signers : List StacksAddress) :
    (∀ app appSlotId w tr r w', Trusted signers w tr → Outcome (fetchChunk X app appSlotId) w tr r w' →
      (w'.chunks = w.chunks ∧ ∀ version pubk, r ≠ .ok (version, some pubk)) ∨
      ∃ slotId slices data, w'.chunks = w.chunks.insert slotId slices ∧ WrbpodSlices.fromSlice X data = .ok slices ∧
        (Authentic X signers slotId tr data ↔ NamesSlot slotId tr)) ∧
    (∀ slotId w tr data w', Trusted signers w tr →
      Outcome (getAndVerifyRawChunk X slotId) w tr (.ok (some data)) w' →
      (Authentic X signers slotId tr data ↔ NamesSlot slotId tr)) ∧
    (∀ w tr w', Trusted signers w tr → Outcome (downloadSuperblock X) w tr (.ok ()) w' →
      ((∃ md, listedAt w.superblockSlotId tr = some md ∧ md.isEmpty = true) ∧
        makeSuperblock X w.superblockSlotId signers w.privkey = .ok w'.superblock) ∨
      ∃ data, WrbpodSuperblock.fromBytes X data = .ok w'.superblock ∧
        (Authentic X signers w.superblockSlotId tr data ↔ NamesSlot w.superblockSlotId tr)) := by
  refine ⟨fun app appSlotId w tr r w' ht h => ?_, fun slotId w tr data w' ht h => ?_, fun w tr w' ht h => ?_⟩
  · refine (fetchChunk_vouched ht h).imp (fun h => h) ?_
    rintro ⟨slotId, slices, data, hchunks, hslices, hvouched⟩
    exact ⟨slotId, slices, data, hchunks, hslices, hvouched.authenticFor_iff⟩
  · exact (getAndVerifyRawChunk_vouched ht h).authenticFor_iff
  · refine (downloadSuperblock_vouched ht h).imp (fun h => h) ?_
    rintro ⟨data, hdata, hvouched⟩
    exact ⟨data, hdata, hvouched.authenticFor_iff⟩

/-! ## One slot passed off as another -/

/-- three slots of one signer -/
def oneSigner : List StacksAddress := List.replicate 3 (X0.p2pkh true 7)

def emptyMetadata (slotId : UInt32) : SlotMetadata := ⟨slotId, 0, 0, 0⟩

/-- the metadata of slot 1, version 5, signed by the signer of slots 0, 1 and 2 -/
def slotOneMetadata : SlotMetadata :=
  ⟨1, 5, X0.fromData [42], (X0.sign 7 1 5 (X0.fromData [42])).getD 0⟩

/-- a replica that lists `md` for slot 2 and answers slot `slotId` with the data of slot 1 -/
def servedTrace (slotId : UInt32) (md : SlotMetadata) : List Ev :=
  [⟨.listChunks, .ok [emptyMetadata 0, slotOneMetadata, md]⟩, ⟨.getLatestChunks [slotId], .ok [some [42]]⟩]

def oneSignerHandle : Wrbpod := ⟨.empty, 7, some oneSigner, ∅, 0⟩

theorem trusted_servedTrace (slotId : UInt32) (md : SlotMetadata) :
    Trusted oneSigner oneSignerHandle (servedTrace slotId md) := by
  refine ⟨fun s hs => (Option.some.inj hs).symm, fun s hs => ?_⟩
  simp [servedTrace] at hs

/-- an honest listing: slot 1 is read for slot 1 -/
theorem authentic_honest_slot :
    Outcome (getAndVerifyRawChunk X0 1) oneSignerHandle (servedTrace 1 (emptyMetadata 2)) (.ok (some [42]))
      oneSignerHandle ∧
    (Authentic X0 oneSigner 1 (servedTrace 1 (emptyMetadata 2)) [42]
      ↔ NamesSlot 1 (servedTrace 1 (emptyMetadata 2))) := by
  have hread : Outcome (getAndVerifyRawChunk X0 1) oneSignerHandle (servedTrace 1 (emptyMetadata 2)) (.ok (some [42]))
      oneSignerHandle := yields_of_replay (by decide +kernel)
  exact ⟨hread, (authentic_iff X0 oneSigner).2.1 1 _ _ [42] _ (trusted_servedTrace 1 _) hread⟩

/-- the metadata of slot 1 listed for slot 2: its data is returned for slot 2, and is not authentic there -/
theorem other_slot_passes :
    Outcome (getAndVerifyRawChunk X0 2) oneSignerHandle (servedTrace 2 slotOneMetadata) (.ok (some [42]))
      oneSignerHandle ∧
    Trusted oneSigner oneSignerHandle (servedTrace 2 slotOneMetadata) ∧
    ¬ Authentic X0 oneSigner 2 (servedTrace 2 slotOneMetadata) [42] := by
  refine ⟨yields_of_replay (by decide +kernel), trusted_servedTrace 2 _, ?_⟩
  rintro ⟨md, signer, hlisted, hslot, -⟩
  have hmd : listedAt 2 (servedTrace 2 slotOneMetadata) = some slotOneMetadata := rfl
  obtain rfl := Option.some.inj (hmd.symm.trans hlisted)
  exact absurd hslot (by decide)

end Wrbpod

end Wrb.Storage
