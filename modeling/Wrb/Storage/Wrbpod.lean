/-
`Wrbpod` (`src/storage/wrbpod.rs`): the client of a wrbpod, over its home node and a replica.

The handle is the state; every method that talks to a node is an action that calls it. The home client is only asked
for the signers, the replica client for everything else, so a call does not name its client.

The retry loops (`uploadSuperblock`, `putChunk`) have no bound in the source: they take the number of attempts as an
argument, and spin once that many were refused. `slot_version + 1` wraps around, as it does in a release build.
-/
import Wrb.Lib.Programs
import Wrb.Runner.Error
import Wrb.Storage.SlicesCodec
import Wrb.Storage.SuperblockCodec

namespace Wrb.Storage

open Wrb.Wire Wrb.Programs

/-! ## Calls -/

/-- the methods of `StackerDBClient` that a wrbpod calls -/
inductive Call where
  /-- asked of the home node -/
  | getSigners
  | listChunks
  | getLatestChunks (slotIds : List UInt32)
  | putChunk (chunk : StackerDBChunkData)
deriving DecidableEq

/-- what a call answers on success -/
abbrev Payload : Call → Type
  | .getSigners => List StacksAddress
  | .listChunks => List SlotMetadata
  | .getLatestChunks _ => List (Option Bytes)
  | .putChunk _ => StackerDBChunkAckData

abbrev Answer (q : Call) : Type := Except Runner.Error (Payload q)

inductive Error where
  | runtime (e : Runner.Error)
  | codec (e : CodecError)
  | getChunk (msg : String)
  | putChunk (msg : String)
  | overflow (msg : String)
  | noSuchChunk
  | noSpace
  | noSuperblock
  | noSuchRow
  | alreadyExists
deriving DecidableEq

/-- instantiated handle to a wrbpod -/
structure Wrbpod where
  superblock : WrbpodSuperblock
  privkey : Secp256k1PrivateKey
  /-- cached copy of the signers in the DB -/
  signers : Option (List StacksAddress)
  /-- maps a StackerDB slot ID to slices -/
  chunks : Std.ExtTreeMap UInt32 WrbpodSlices
  /-- which slot holds the superblock -/
  superblockSlotId : UInt32
deriving DecidableEq

abbrev WrbpodM (α : Type) := Action Call Answer Wrbpod Error α

/-- make a call; an error answer is an error of the caller -/
def callClient (q : Call) : WrbpodM (Payload q) := do
  match ← request q with
  | .ok payload => pure payload
  | .error e => throw (.runtime e)

def orThrow {α : Type} (o : Option α) (e : Error) : WrbpodM α :=
  match o with
  | some a => pure a
  | none => throw e

def ofExcept {α : Type} (x : Except Error α) : WrbpodM α :=
  match x with
  | .ok a => pure a
  | .error e => throw e

namespace Wrbpod

/-! ## Superblock -/

/-- the slot IDs a private key can access -/
def findAvailableSlots (X : Ext) (signers : List StacksAddress) (privkey : Secp256k1PrivateKey) : List UInt32 :=
  ((signers.take (2 ^ 32)).zipIdx.filter fun e => e.1.bytes == (X.p2pkh true privkey).bytes).map fun e =>
    UInt32.ofNat e.2

def superblockSlotIndex (w : Wrbpod) : ℕ := w.superblockSlotId.toNat

/-- a superblock over the slots the key can access, but for the superblock's own -/
def makeSuperblock (X : Ext) (superblockSlotId : UInt32) (signers : List StacksAddress)
    (privkey : Secp256k1PrivateKey) : Except Error WrbpodSuperblock :=
  let availableSlots := findAvailableSlots X signers privkey
  let wrbpodSlots := availableSlots.filter fun slot => slot ≠ superblockSlotId
  if availableSlots.length = wrbpodSlots.length then .error .noSuperblock else .ok (.new wrbpodSlots)

/-- ask the home node for the signers -/
def refreshSigners : WrbpodM Unit := do
  let signers ← callClient .getSigners
  modify fun w => { w with signers := some signers }

/-- the cached signers; they are loaded where there are none -/
def loadSigners : WrbpodM (List StacksAddress) := do
  let w ← get
  match w.signers with
  | some signers => pure signers
  | none => do
    refreshSigners
    let w' ← get
    orThrow w'.signers (.getChunk "Unable to load signer list")

/-- check a slot's metadata against its signer; a malformed signature is an error -/
def verifyMetadata (X : Ext) (md : SlotMetadata) (signerAddr : StacksAddress) (msg : String) : WrbpodM Bool :=
  match X.verify md signerAddr with
  | .ok valid => pure valid
  | .error e =>
    let err := X.showNetError e
    throw (.getChunk s!"{msg}: {err}")

/-- the superblock that `downloadSuperblock` installs: both of its branches end with that assignment -/
def readSuperblock (X : Ext) : WrbpodM WrbpodSuperblock := do
  let allSlotMetadata ← callClient .listChunks
  let w ← get
  let slotMd ← orThrow allSlotMetadata[w.superblockSlotIndex]?
    (.getChunk "no superblock chunk defined in slot metadata")
  let signers ← loadSigners
  let signerAddr ← orThrow signers[w.superblockSlotIndex]? (.getChunk "No such signer for chunk ID 0")
  if slotMd.isEmpty then
    -- no superblock instantiated yet
    ofExcept (makeSuperblock X w.superblockSlotId signers w.privkey)
  else
    let addr := X.showAddress signerAddr
    let md := X.showMetadata slotMd
    let valid ← verifyMetadata X slotMd signerAddr s!"Failed to verify signature by {addr} on {md}"
    if !valid then
      throw (.getChunk "Invalid superblock signature")
    else
      let chunks ← callClient (.getLatestChunks [w.superblockSlotId])
      -- indexed by the slot ID, in a list that has one entry
      let chunkOpt ← orThrow chunks[w.superblockSlotIndex]? .noSuchChunk
      let chunk ← orThrow chunkOpt .noSuchChunk
      if slotMd.dataHash ≠ X.fromData chunk then
        throw (.getChunk "superblock chunk hash mismatch")
      else
        ofExcept ((WrbpodSuperblock.fromBytes X chunk).mapError Error.codec)

/-- update the cached copy of the superblock -/
def downloadSuperblock (X : Ext) : WrbpodM Unit := do
  let superblock ← readSuperblock X
  modify fun w => { w with superblock := superblock }

/-- sign a chunk -/
def sign (X : Ext) (privkey : Secp256k1PrivateKey) (chunk : StackerDBChunkData) : WrbpodM StackerDBChunkData :=
  match X.sign privkey chunk.slotId chunk.slotVersion (X.fromData chunk.data) with
  | some sig => pure { chunk with sig := sig }
  | none => throw (.codec (.serializeError "Failed to sign"))

/-- sign and put a chunk; where a newer version is in the way, try again with the version after it -/
def putSigned (X : Ext) : ℕ → StackerDBChunkData → WrbpodM Unit
  | 0, _ => spin
  | attempts + 1, chunk => do
    let w ← get
    let signed ← sign X w.privkey chunk
    let result ← callClient (.putChunk signed)
    if result.accepted then
      pure ()
    else
      match result.metadata with
      | some metadata => putSigned X attempts { chunk with slotVersion := metadata.slotVersion + 1 }
      | none => throw (.putChunk (result.reason.getD "(reason not given)"))

/-- save the superblock; a stale version is retried with the same bytes -/
def uploadSuperblock (X : Ext) (attempts : ℕ) : WrbpodM Unit := do
  let slotMetadata ← callClient .listChunks
  let w ← get
  let superblockMd ← orThrow slotMetadata[w.superblockSlotIndex]?
    (.putChunk "No superblock chunk defined in slot metadata")
  putSigned X attempts ⟨w.superblockSlotId, superblockMd.slotVersion, 0, w.superblock.consensusSerialize X⟩

/-- open an existing wrbpod: the handle is the state this ends in -/
def «open» (X : Ext) (privkey : Secp256k1PrivateKey) (superblockSlotId : UInt32) : WrbpodM Unit := do
  modify fun _ => ⟨.empty, privkey, none, ∅, superblockSlotId⟩
  refreshSigners
  downloadSuperblock X

/-- create a new wrbpod with an empty superblock: the handle is the state this ends in -/
def format (X : Ext) (attempts : ℕ) (privkey : Secp256k1PrivateKey) (superblockSlotId : UInt32) : WrbpodM Unit := do
  let signers ← callClient .getSigners
  let superblock ← ofExcept (makeSuperblock X superblockSlotId signers privkey)
  modify fun _ => ⟨superblock, privkey, some signers, ∅, superblockSlotId⟩
  uploadSuperblock X attempts

/-- allocate slots in the superblock for an app -/
def allocateSlots (X : Ext) (attempts : ℕ) (appName : String) (codeHash : Hash160) (numSlots : UInt32) :
    WrbpodM Bool := do
  downloadSuperblock X
  let w ← get
  let (success, superblock) := w.superblock.allocateSlots appName codeHash numSlots
  modify fun w => { w with superblock := superblock }
  if success then uploadSuperblock X attempts
  pure success

def getNumSlots (w : Wrbpod) (appName : String) : ℕ := w.superblock.numAppSlots appName

/-- delete an app's state from the superblock -/
def deleteSlots (X : Ext) (attempts : ℕ) (appName : String) : WrbpodM Unit := do
  downloadSuperblock X
  modify fun w => { w with superblock := w.superblock.deleteSlots appName }
  uploadSuperblock X attempts

/-! ## Chunks -/

/-- save a chunk directly -/
def putChunk (X : Ext) (attempts : ℕ) (chunk : StackerDBChunkData) : WrbpodM Unit := putSigned X attempts chunk

def listChunks : WrbpodM (List SlotMetadata) := callClient .listChunks

/-- get a raw chunk; its signature is not checked -/
def getRawChunk (X : Ext) (slotId : UInt32) (dataHash : Sha512Trunc256Sum) : WrbpodM Bytes := do
  let chunks ← callClient (.getLatestChunks [slotId])
  let chunkOpt ← orThrow chunks[0]? .noSuchChunk
  let chunk ← orThrow chunkOpt .noSuchChunk
  if dataHash ≠ X.fromData chunk then throw (.getChunk "chunk hash mismatch") else pure chunk

/-- get and authenticate a raw chunk, by StackerDB slot ID -/
def getAndVerifyRawChunk (X : Ext) (slotId : UInt32) : WrbpodM (Option Bytes) := do
  let signers ← loadSigners
  let signerAddr ← orThrow signers[slotId.toNat]? (.getChunk s!"No such signer for chunk ID {slotId}")
  let allSlotMetadata ← callClient .listChunks
  let slotMd ← orThrow allSlotMetadata[slotId.toNat]? (.getChunk "no app chunk defined in slot metadata")
  if slotMd.isEmpty then
    pure none
  else
    let md := X.showMetadata slotMd
    let valid ← verifyMetadata X slotMd signerAddr s!"Failed to verify signature on {md}"
    if !valid then
      throw (.getChunk "Invalid chunk signature")
    else
      let chunk ← getRawChunk X slotId slotMd.dataHash
      pure (some chunk)

/-- get a chunk, a bundle of slices, and cache it -/
def getChunk (X : Ext) (slotId : UInt32) (dataHash : Sha512Trunc256Sum) : WrbpodM Unit := do
  let chunk ← getRawChunk X slotId dataHash
  let slices ← ofExcept ((WrbpodSlices.fromSlice X chunk).mapError Error.codec)
  modify fun w => { w with chunks := w.chunks.insert slotId slices }

def refChunk (w : Wrbpod) (slotId : UInt32) : Option WrbpodSlices := w.chunks[slotId]?

def appSlotIdToStackerdbChunkId (w : Wrbpod) (appName : String) (appSlotId : UInt32) : Option UInt32 :=
  w.superblock.appSlotIdToStackerdbChunkId appName appSlotId

def refAppChunk (w : Wrbpod) (appName : String) (appSlotId : UInt32) : Option WrbpodSlices :=
  match w.appSlotIdToStackerdbChunkId appName appSlotId with
  | none => none
  | some slotId => w.chunks[slotId]?

/-- the digest that a chunk's signature covers -/
def chunkAuthDigest (X : Ext) (slotId slotVersion : UInt32) (dataHash : Sha512Trunc256Sum) : Sha512Trunc256Sum :=
  X.fromData (beBytes 4 slotId.toNat ++ beBytes 4 slotVersion.toNat ++ beBytes 32 dataHash.toNat)

/-- a round of `fetchChunk`, and `retry`, its next round -/
def fetchRound (X : Ext) (appName : String) (appSlotId : UInt32) (refreshedSigners : Bool)
    (retry : WrbpodM (UInt32 × Option StacksPublicKey)) : WrbpodM (UInt32 × Option StacksPublicKey) := do
  let w ← get
  let chunkId ← orThrow (w.superblock.appSlotIdToStackerdbChunkId appName appSlotId) (.getChunk "no such app chunk")
  let allSlotMetadata ← callClient .listChunks
  let slotMd ← orThrow allSlotMetadata[chunkId.toNat]? (.getChunk "no app chunk defined in slot metadata")
  let refreshed := refreshedSigners || w.signers.isNone
  let signers ← loadSigners
  let signerAddr ← orThrow signers[chunkId.toNat]? (.getChunk s!"No such signer for chunk ID {chunkId}")
  if slotMd.isEmpty then
    -- this slot is empty, so pass a null signer
    pure (0, none)
  else
    let md := X.showMetadata slotMd
    let valid ← verifyMetadata X slotMd signerAddr s!"Failed to verify signature on {md}"
    if !valid then
      if !refreshed then
        refreshSigners
        retry
      else
        throw (.getChunk "Invalid chunk signature")
    else
      getChunk X chunkId slotMd.dataHash
      let sigh := chunkAuthDigest X chunkId slotMd.slotVersion slotMd.dataHash
      let pubk ← orThrow (X.recoverToPubkey sigh slotMd.signature) (.getChunk "failed to recover public key")
      pure (slotMd.slotVersion, some pubk)

/-- fetch a chunk for an app and cache it. The signers are refreshed at most once, so the second round is the last -/
def fetchChunk (X : Ext) (appName : String) (appSlotId : UInt32) : WrbpodM (UInt32 × Option StacksPublicKey) :=
  fetchRound X appName appSlotId false (fetchRound X appName appSlotId true spin)

/-! ## Slices -/

def getSlice (w : Wrbpod) (appName : String) (appSlotId : UInt32) (id : BitVec 128) : Option Bytes :=
  match w.superblock.appSlotIdToStackerdbChunkId appName appSlotId with
  | none => none
  | some chunkId =>
    match w.chunks[chunkId]? with
    | none => none
    | some slices => slices.getSlice id

def canFitSlice (X : Ext) (w : Wrbpod) (appName : String) (appSlotId : UInt32) (sliceId : BitVec 128) (size : ℕ) :
    Bool :=
  match w.superblock.appSlotIdToStackerdbChunkId appName appSlotId with
  | none => false
  | some chunkId =>
    match w.chunks[chunkId]? with
    | some slotSlices => slotSlices.canFitSlice sliceId size
    | none => decide (WrbpodSlices.sliceEncodedSize size false + WRBPOD_SLICES_INITIAL_SIZE < X.maxChunkSize.toNat)

/-- add a slice to the local copy: whether it was inserted, and the handle after it -/
def putSlice (X : Ext) (w : Wrbpod) (appName : String) (appSlotId : UInt32) (sliceId : BitVec 128)
    (sliceBytes : Bytes) : Bool × Wrbpod :=
  match w.superblock.appSlotIdToStackerdbChunkId appName appSlotId with
  | none => (false, w)
  | some chunkId =>
    match w.chunks[chunkId]? with
    | some slotSlices =>
      ((slotSlices.putSlice sliceId sliceBytes).1,
        { w with chunks := w.chunks.insert chunkId (slotSlices.putSlice sliceId sliceBytes).2 })
    | none =>
      let slices := (WrbpodSlices.new X).putSlice sliceId sliceBytes
      if !slices.1 then (false, w) else (true, { w with chunks := w.chunks.insert chunkId slices.2 })

/-- save a dirty slot -/
def syncSlot (X : Ext) (attempts : ℕ) (appName : String) (appSlotId : UInt32) : WrbpodM Unit := do
  let w ← get
  let chunkId ← orThrow (w.superblock.appSlotIdToStackerdbChunkId appName appSlotId) .noSuchChunk
  let slices ← orThrow w.chunks[chunkId]? .noSuchChunk
  let slotMetadata ← callClient .listChunks
  let slotMd ← orThrow slotMetadata[chunkId.toNat]? .noSuchChunk
  putChunk X attempts (slices.toStackerdbChunk X chunkId (slotMd.slotVersion + 1))
  let w' ← get
  let slices' ← orThrow w'.chunks[chunkId]? .noSuchChunk
  modify fun w => { w with chunks := w.chunks.insert chunkId (slices'.setDirty false) }

end Wrbpod

end Wrb.Storage
