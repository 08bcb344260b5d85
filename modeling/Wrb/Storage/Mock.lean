/-
The local StackerDB of `src/storage/mock.rs`, a home node and replica in one.

A row's position in the table is its slot ID (the primary key, assigned from 0 on when the table is made). The database
layer is taken not to fail.

`localReplica`: it is an honest replica, and always answers (`localReplica_live`).
-/
import Wrb.Storage.Reference
import Wrb.Storage.Replica

namespace Wrb.Storage

open Wrb.Wire Wrb.Programs

structure LocalStackerDBChunk where
  slotVersion : UInt32
  pubkh : Hash160
  dataHash : Sha512Trunc256Sum
  data : Bytes
  signature : MessageSignature
deriving DecidableEq

structure Signer where
  address : StacksAddress
  numSlots : UInt32

structure LocalStackerDB where
  maxSlots : UInt32
  mainnet : Bool
  chunks : List LocalStackerDBChunk
deriving DecidableEq

namespace LocalStackerDB

/-- a new table: empty rows, as many for each signer as it has slots -/
def create (maxSlots : UInt32) (mainnet : Bool) (signers : List Signer) : LocalStackerDB where
  maxSlots := maxSlots
  mainnet := mainnet
  chunks := signers.flatMap fun signer => List.replicate signer.numSlots.toNat ⟨0, signer.address.bytes, 0, [], 0⟩

def metadata (slotId : ℕ) (chunk : LocalStackerDBChunk) : SlotMetadata :=
  ⟨UInt32.ofNat slotId, chunk.slotVersion, chunk.dataHash, chunk.signature⟩

def listChunks (db : LocalStackerDB) : List SlotMetadata := db.chunks.mapIdx metadata

/-- chunks whose metadata is empty seem not to exist -/
def getLatestChunks (db : LocalStackerDB) (slotIds : List UInt32) : List (Option Bytes) :=
  slotIds.map fun slotId =>
    match db.chunks[slotId.toNat]? with
    | none => none
    | some chunk => if (metadata slotId.toNat chunk).isEmpty then none else some chunk.data

def refuse (reason : String) (metadata : Option SlotMetadata) (code : UInt32) : StackerDBChunkAckData :=
  ⟨false, some reason, metadata, some code⟩

/-- a row after the update statement of `putChunk` -/
def updated (X : Ext) (row : LocalStackerDBChunk) (chunk : StackerDBChunkData) : LocalStackerDBChunk :=
  { row with
    slotVersion := chunk.slotVersion
    dataHash := X.fromData chunk.data
    data := chunk.data
    signature := chunk.sig }

def putChunk (X : Ext) (db : LocalStackerDB) (chunk : StackerDBChunkData) : StackerDBChunkAckData × LocalStackerDB :=
  let slotId := chunk.slotId
  let maxSlots := db.maxSlots
  if slotId ≥ maxSlots then
    (refuse s!"Slot {slotId} too big (max is {maxSlots})" none 1, db)
  else
    match db.chunks[slotId.toNat]? with
    | none => (refuse s!"No such slot {slotId}" none 1, db)
    | some row =>
      let md := metadata slotId.toNat row
      let version := chunk.slotVersion
      let slotVersion := md.slotVersion
      if !md.isEmpty && !(X.verify md ⟨0, row.pubkh⟩).toOption.getD false then
        (refuse s!"Slot {slotId}: bad signature" (some md) 2, db)
      else if !md.isEmpty && decide (version ≤ slotVersion) then
        (refuse s!"Slot {slotId}: version {version} <= {slotVersion}" (some md) 0, db)
      else
        (⟨true, none, none, none⟩, { db with chunks := db.chunks.set slotId.toNat (updated X row chunk) })

def getSigners (db : LocalStackerDB) : List StacksAddress :=
  db.chunks.map fun chunk => ⟨if db.mainnet then 22 else 26, chunk.pubkh⟩

/-- what the client answers -/
def serve (X : Ext) (q : Call) (db : LocalStackerDB) : Answer q × LocalStackerDB :=
  match q with
  | .getSigners => (.ok db.getSigners, db)
  | .listChunks => (.ok db.listChunks, db)
  | .getLatestChunks slotIds => (.ok (db.getLatestChunks slotIds), db)
  | .putChunk chunk => (.ok (db.putChunk X chunk).1, (db.putChunk X chunk).2)

def rows (db : LocalStackerDB) : List Row := db.chunks.mapIdx fun i chunk => ⟨metadata i chunk, chunk.data⟩

/-! ## The local StackerDB is honest -/

/-- everything a `putChunk` can do: refuse and change nothing, or store the chunk under the row's key hash -/
theorem putChunk_cases (X : Ext) (db : LocalStackerDB) (chunk : StackerDBChunkData) :
    ((db.putChunk X chunk).1.accepted = false ∧ (db.putChunk X chunk).2 = db) ∨
    (∃ row, db.chunks[chunk.slotId.toNat]? = some row ∧ (db.putChunk X chunk).1.accepted = true ∧
      ((metadata chunk.slotId.toNat row).isEmpty = true ∨ row.slotVersion < chunk.slotVersion) ∧
      (db.putChunk X chunk).2 =
        { db with chunks := db.chunks.set chunk.slotId.toNat (updated X row chunk) }) := by
  unfold putChunk
  dsimp only
  by_cases hbig : chunk.slotId ≥ db.maxSlots
  · rw [if_pos hbig]
    exact Or.inl ⟨rfl, rfl⟩
  rw [if_neg hbig]
  cases hrow : db.chunks[chunk.slotId.toNat]? with
  | none => exact Or.inl ⟨rfl, rfl⟩
  | some row =>
    dsimp only
    split_ifs with hbad hold
    · exact Or.inl ⟨rfl, rfl⟩
    · exact Or.inl ⟨rfl, rfl⟩
    · refine Or.inr ⟨row, rfl, rfl, ?_, rfl⟩
      cases hempty : (metadata chunk.slotId.toNat row).isEmpty with
      | true => exact Or.inl rfl
      | false =>
        simp only [hempty, Bool.not_false, Bool.true_and, decide_eq_true_eq] at hold
        exact Or.inr (UInt32.not_le.1 hold)

theorem getSigners_putChunk (X : Ext) (db : LocalStackerDB) (chunk : StackerDBChunkData) :
    (db.putChunk X chunk).2.getSigners = db.getSigners := by
  rcases putChunk_cases X db chunk with ⟨-, heq⟩ | ⟨row, hrow, -, -, heq⟩
  · rw [heq]
  · rw [heq, getSigners, getSigners]
    apply List.ext_getElem?
    intro i
    simp only [List.getElem?_map, List.getElem?_set]
    by_cases hi : chunk.slotId.toNat = i
    · subst hi
      obtain ⟨hlt, hget⟩ := List.getElem?_eq_some_iff.1 hrow
      simp [hlt, hget, updated]
    · simp [hi]

theorem getSigners_serve (X : Ext) (q : Call) (db : LocalStackerDB) : (serve X q db).2.getSigners = db.getSigners := by
  cases q with
  | putChunk chunk => exact getSigners_putChunk X db chunk
  | _ => rfl

theorem rows_putChunk {X : Ext} {db : LocalStackerDB} {chunk : StackerDBChunkData}
    (h : (db.putChunk X chunk).1.accepted = true) :
    (db.putChunk X chunk).2.rows = storeRow X db.rows chunk ∧
    ∃ row, db.rows[chunk.slotId.toNat]? = some row ∧
      (row.md.isEmpty = true ∨ row.md.slotVersion < chunk.slotVersion) := by
  rcases putChunk_cases X db chunk with ⟨hno, -⟩ | ⟨row, hrow, -, hnew, heq⟩
  · rw [hno] at h
    cases h
  · refine ⟨?_, ⟨metadata chunk.slotId.toNat row, row.data⟩, ?_, hnew⟩
    · rw [heq, rows, rows, storeRow, List.mapIdx_set]
      simp [rowOf, metadata, updated]
    · simp [rows, List.getElem?_mapIdx, hrow]

/-- a local StackerDB with these signers -/
abbrev WithSigners (signers : List StacksAddress) := { db : LocalStackerDB // db.getSigners = signers }

/-- the local StackerDB as a replica -/
def localReplica (X : Ext) (signers : List StacksAddress) : HonestReplica X (WithSigners signers) where
  serve q db := ((serve X q db.1).1, ⟨(serve X q db.1).2, (getSigners_serve X q db.1).trans db.2⟩)
  view db := db.1.rows
  signers := signers
  view_read q db h := by
    cases q with
    | putChunk chunk =>
      rcases putChunk_cases X db.1 chunk with ⟨-, heq⟩ | ⟨row, -, hyes, -, -⟩
      · exact congrArg rows heq
      · exact absurd hyes (by simpa [accepted, serve] using h)
    | _ => rfl
  getSigners db answer h := by
    rw [← Except.ok.inj h]
    exact db.2
  listChunks db mds h := by
    rw [← Except.ok.inj h, rows]
    exact List.ext_getElem? fun i => by simp [listChunks, List.getElem?_mapIdx, Function.comp_def]
  getLatestChunks ids db chunks h := by
    rw [← Except.ok.inj h, getLatestChunks]
    congr 1
    funext slotId
    simp only [lookup, rows, List.getElem?_mapIdx]
    cases db.1.chunks[slotId.toNat]? <;> rfl
  putChunk chunk db h := rows_putChunk h

theorem localReplica_live (X : Ext) (signers : List StacksAddress) : (localReplica X signers).Live where
  getSigners _ := ⟨_, rfl⟩
  listChunks _ := ⟨_, rfl⟩
  getLatestChunks _ _ := ⟨_, rfl⟩

end LocalStackerDB

end Wrb.Storage
