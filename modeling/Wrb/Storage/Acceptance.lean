/-
Which chunks the local StackerDB of `src/storage/mock.rs` accepts.

`put_chunk` checks the signature of the chunk that is stored, where the one that comes in is meant.

Results:
- `putChunk_accepted_iff`: when a chunk is accepted;
- `puts_signed_iff`: all along a sequence of calls on a new table, every chunk accepted is signed by the slot's signer
  and newer, every chunk stored verifies and no version decreases, exactly when every chunk that passes the other checks
  is `Proper`: signed by the slot's signer;
- `unsigned_in_slot`, `unsigned_wedges`: an unsigned chunk is accepted into an empty slot, and none after it.
-/
import Wrb.Lib.Runs
import Wrb.Storage.Mock

namespace Wrb.Storage

open Wrb.Runs

namespace LocalStackerDB

/-- the metadata of a chunk, with its own signature -/
def getSlotMetadata (X : Ext) (chunk : StackerDBChunkData) : SlotMetadata :=
  ⟨chunk.slotId, chunk.slotVersion, X.fromData chunk.data, chunk.sig⟩

/-- the address of a slot's signer, as `put_chunk` makes it -/
def signer (row : LocalStackerDBChunk) : StacksAddress := ⟨0, row.pubkh⟩

/-- `SlotMetadata::verify`, where an error is a failure -/
def Verifies (X : Ext) (md : SlotMetadata) (addr : StacksAddress) : Prop :=
  (X.verify md addr).toOption.getD false = true

/-- a slot without a chunk, or with an older one -/
def Newer (row : LocalStackerDBChunk) (chunk : StackerDBChunkData) : Prop :=
  (metadata chunk.slotId.toNat row).isEmpty = true ∨ row.slotVersion < chunk.slotVersion

/-- **What accepting must mean**: the chunk is signed by the slot's signer, and newer than the chunk stored -/
def AcceptsSigned (X : Ext) (db : LocalStackerDB) (chunk : StackerDBChunkData) : Prop :=
  (db.putChunk X chunk).1.accepted = true → ∃ row, db.chunks[chunk.slotId.toNat]? = some row ∧
    Verifies X (getSlotMetadata X chunk) (signer row) ∧ Newer row chunk

/-- **A proper chunk**: where it names a slot, and is newer than the chunk stored, it is signed by the slot's signer -/
def Proper (X : Ext) (db : LocalStackerDB) (chunk : StackerDBChunkData) : Prop :=
  chunk.slotId < db.maxSlots → ∀ row, db.chunks[chunk.slotId.toNat]? = some row → Newer row chunk →
    Verifies X (getSlotMetadata X chunk) (signer row)

/-- every chunk stored is signed by the slot's signer -/
def AllSigned (X : Ext) (db : LocalStackerDB) : Prop :=
  ∀ (i : ℕ) (row : LocalStackerDBChunk), db.chunks[i]? = some row → (metadata i row).isEmpty = false →
    Verifies X (metadata i row) (signer row)

/-- no slot has an older chunk in `db'` -/
def NoOlder (db db' : LocalStackerDB) : Prop :=
  ∀ (i : ℕ) (row row' : LocalStackerDBChunk), db.chunks[i]? = some row → db'.chunks[i]? = some row' →
    row.slotVersion ≤ row'.slotVersion

def put (X : Ext) (db : LocalStackerDB) (chunk : StackerDBChunkData) : LocalStackerDB := (db.putChunk X chunk).2

section

variable {X : Ext} {db : LocalStackerDB} {chunk : StackerDBChunkData}

/-- **Accepted**: a chunk for a slot that is empty, or has an older chunk, whose own signature verifies -/
theorem putChunk_accepted_iff : (db.putChunk X chunk).1.accepted = true ↔ chunk.slotId < db.maxSlots ∧
    ∃ row, db.chunks[chunk.slotId.toNat]? = some row ∧ Newer row chunk ∧
      ((metadata chunk.slotId.toNat row).isEmpty = false →
        Verifies X (metadata chunk.slotId.toNat row) (signer row)) := by
  unfold putChunk Newer Verifies signer
  dsimp only
  by_cases hbig : chunk.slotId ≥ db.maxSlots
  · rw [if_pos hbig]
    exact iff_of_false Bool.false_ne_true fun h => absurd h.1 (UInt32.not_lt.2 hbig)
  rw [if_neg hbig, and_iff_right (UInt32.not_le.1 hbig)]
  cases hrow : db.chunks[chunk.slotId.toNat]? with
  | none => exact iff_of_false Bool.false_ne_true fun ⟨_, h, _⟩ => nomatch h
  | some row =>
    have hsingle : ∀ P : LocalStackerDBChunk → Prop, (∃ r, some row = some r ∧ P r) ↔ P row :=
      fun P => ⟨fun ⟨_, h, hP⟩ => Option.some.inj h ▸ hP, fun hP => ⟨row, rfl, hP⟩⟩
    have hver : (metadata chunk.slotId.toNat row).slotVersion = row.slotVersion := rfl
    rw [hsingle]
    dsimp only
    cases (metadata chunk.slotId.toNat row).isEmpty with
    | true => simp
    | false =>
      cases (X.verify (metadata chunk.slotId.toNat row) ⟨0, row.pubkh⟩).toOption.getD false with
      | false => simp [refuse]
      | true =>
        by_cases hlt : row.slotVersion < chunk.slotVersion
        · simp [hver, hlt, UInt32.not_le.2 hlt]
        · simp [hver, hlt, UInt32.not_lt.1 hlt, refuse]

/-- the chunk stored is the one that came in, under its own signature -/
theorem metadata_updated (row : LocalStackerDBChunk) :
    metadata chunk.slotId.toNat (updated X row chunk) = getSlotMetadata X chunk := by
  simp [metadata, updated, getSlotMetadata]

/-- where every chunk stored is signed, one that comes in is accepted only if signed exactly when it is proper -/
theorem acceptsSigned_iff (h : AllSigned X db) : AcceptsSigned X db chunk ↔ Proper X db chunk := by
  unfold AcceptsSigned Proper
  rw [putChunk_accepted_iff]
  constructor
  · intro haccepts hslot row hrow hnewer
    obtain ⟨row', hrow', hverifies, -⟩ := haccepts ⟨hslot, row, hrow, hnewer, h _ row hrow⟩
    cases hrow.symm.trans hrow'
    exact hverifies
  · rintro hproper ⟨hslot, row, hrow, hnewer, -⟩
    exact ⟨row, hrow, hproper hslot row hrow hnewer, hnewer⟩

/-- a call stores a chunk that is accepted, and nothing else -/
theorem put_cases (X : Ext) (db : LocalStackerDB) (chunk : StackerDBChunkData) : put X db chunk = db ∨
    ∃ row, (db.putChunk X chunk).1.accepted = true ∧ db.chunks[chunk.slotId.toNat]? = some row ∧ Newer row chunk ∧
      (put X db chunk).chunks = db.chunks.set chunk.slotId.toNat (updated X row chunk) := by
  rcases putChunk_cases X db chunk with ⟨-, heq⟩ | ⟨row, hrow, hyes, hnewer, heq⟩
  · exact .inl heq
  · exact .inr ⟨row, hyes, hrow, hnewer, congrArg LocalStackerDB.chunks heq⟩

theorem put_allSigned (h : AllSigned X db) (haccepts : AcceptsSigned X db chunk) : AllSigned X (put X db chunk) := by
  rcases put_cases X db chunk with heq | ⟨row, hyes, hrow, -, heq⟩
  · rw [heq]
    exact h
  · intro i row' hi hfull
    rw [heq, List.getElem?_set] at hi
    split_ifs at hi with hslot
    · subst hslot
      cases hi
      obtain ⟨row₀, hrow₀, hverifies, -⟩ := haccepts hyes
      cases hrow.symm.trans hrow₀
      rw [metadata_updated]
      exact hverifies
    · exact h i row' hi hfull

theorem noOlder_refl (db : LocalStackerDB) : NoOlder db db := by
  intro i row row' hi hi'
  cases hi.symm.trans hi'
  exact UInt32.le_refl _

/-- whatever is put, no slot gets an older chunk -/
theorem put_noOlder (X : Ext) (db : LocalStackerDB) (chunk : StackerDBChunkData) : NoOlder db (put X db chunk) := by
  intro i row row' hi hi'
  rcases put_cases X db chunk with heq | ⟨row₀, -, hrow, hnewer, heq⟩
  · rw [heq] at hi'
    exact noOlder_refl db i row row' hi hi'
  · rw [heq, List.getElem?_set] at hi'
    split_ifs at hi' with hslot
    · subst hslot
      cases hi'
      cases hrow.symm.trans hi
      rcases hnewer with hempty | hlt
      · have hzero : row.slotVersion = 0 := by
          have hboth := Bool.and_eq_true_iff.1 hempty
          exact eq_of_beq hboth.1
        rw [hzero]
        exact UInt32.zero_le
      · exact UInt32.le_of_lt hlt
    · exact noOlder_refl db i row row' hi hi'

/-- no slot of a new table has a chunk -/
theorem create_allSigned (X : Ext) (maxSlots : UInt32) (mainnet : Bool) (signers : List Signer) :
    AllSigned X (create maxSlots mainnet signers) := by
  intro i row hi hfull
  obtain ⟨signer, -, hrow⟩ := List.mem_flatMap.1 (List.mem_of_getElem? hi)
  rw [List.eq_of_mem_replicate hrow] at hfull
  exact absurd hfull (by simp [metadata, SlotMetadata.isEmpty])

end

/-- **All along a sequence of calls** on a new table, every chunk accepted is signed and newer, every chunk stored is
signed and no version decreases, exactly when every chunk put is proper -/
theorem puts_signed_iff (X : Ext) (maxSlots : UInt32) (mainnet : Bool) (signers : List Signer)
    (chunks : List StackerDBChunkData) :
    (Always (put X) (AcceptsSigned X) (create maxSlots mainnet signers) chunks ∧
      ∀ n, AllSigned X (run (put X) (create maxSlots mainnet signers) (chunks.take n)) ∧
        NoOlder (run (put X) (create maxSlots mainnet signers) (chunks.take n))
          (run (put X) (create maxSlots mainnet signers) (chunks.take (n + 1)))) ↔
      Always (put X) (Proper X) (create maxSlots mainnet signers) chunks := by
  have hiff : Always (put X) (AcceptsSigned X) (create maxSlots mainnet signers) chunks ↔
      Always (put X) (Proper X) (create maxSlots mainnet signers) chunks :=
    always_iff (I := AllSigned X) (fun _ _ h => acceptsSigned_iff h) (fun _ _ => put_allSigned)
      (create_allSigned X maxSlots mainnet signers) chunks
  rw [← hiff]
  refine ⟨fun h => h.1, fun h => ⟨h, fun n => ⟨?_, ?_⟩⟩⟩
  · rw [← List.take_append_drop n chunks, always_append] at h
    exact run_inv_of_always (I := AllSigned X) (fun _ _ => put_allSigned)
      (create_allSigned X maxSlots mainnet signers) h.1
  · rw [List.take_add_one, run_append]
    cases chunks[n]? with
    | none => exact noOlder_refl _
    | some chunk => exact put_noOlder X _ chunk

/-- one slot -/
def oneSlot : LocalStackerDB := create 1 true [⟨⟨22, 7⟩, 1⟩]

/-- a chunk without a signature -/
def unsigned : StackerDBChunkData := ⟨0, 1, 0, [42]⟩

/-- it is accepted into the empty slot -/
theorem unsigned_accepted : (oneSlot.putChunk X0 unsigned).1.accepted = true := by decide +kernel

/-- and stored there -/
theorem unsigned_stored : (put X0 oneSlot unsigned).chunks[unsigned.slotId.toNat]? =
    some (updated X0 ⟨0, 7, 0, [], 0⟩ unsigned) := by
  have hrow : oneSlot.chunks[unsigned.slotId.toNat]? = some ⟨0, 7, 0, [], 0⟩ := rfl
  rcases putChunk_cases X0 oneSlot unsigned with ⟨hno, -⟩ | ⟨row, hrow', -, -, heq⟩
  · exact absurd (hno.symm.trans unsigned_accepted) Bool.false_ne_true
  · cases hrow.symm.trans hrow'
    rw [put, heq]
    exact List.getElem?_set_self (by decide)

/-- where it does not verify for the slot's signer -/
theorem unsigned_bad : ¬ Verifies X0 (getSlotMetadata X0 unsigned) ⟨0, 7⟩ := by
  unfold Verifies
  decide +kernel

/-- the unsigned chunk is accepted and stored in the slot of another's -/
theorem unsigned_in_slot : ¬ AcceptsSigned X0 oneSlot unsigned ∧ ¬ AllSigned X0 (put X0 oneSlot unsigned) := by
  constructor
  · intro haccepts
    obtain ⟨row, hrow, hverifies, -⟩ := haccepts unsigned_accepted
    have hempty : oneSlot.chunks[unsigned.slotId.toNat]? = some ⟨0, 7, 0, [], 0⟩ := rfl
    cases hempty.symm.trans hrow
    exact unsigned_bad hverifies
  · intro hall
    have hmd := hall _ _ unsigned_stored
    rw [metadata_updated] at hmd
    exact unsigned_bad (hmd (by decide +kernel))

/-- and no later chunk is accepted there, not even one of the signer -/
theorem unsigned_wedges (chunk : StackerDBChunkData) (h : chunk.slotId = 0) :
    ((put X0 oneSlot unsigned).putChunk X0 chunk).1.accepted = false := by
  have hslot : chunk.slotId.toNat = unsigned.slotId.toNat := congrArg UInt32.toNat h
  rw [← Bool.not_eq_true, putChunk_accepted_iff, hslot]
  rintro ⟨-, row, hrow, -, hverifies⟩
  obtain rfl := Option.some.inj (unsigned_stored.symm.trans hrow)
  rw [metadata_updated] at hverifies
  exact unsigned_bad (hverifies (by decide +kernel))

end LocalStackerDB

end Wrb.Storage
