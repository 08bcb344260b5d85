/-
The retry loops of `put_chunk` and `upload_superblock` (`src/storage/wrbpod.rs`) against the local StackerDB of
`src/storage/mock.rs`.

A refusal that carries the metadata of the slot is retried with the version after the stored one. That answers a stale
version. A refusal for a bad signature carries metadata too, and no version helps against it.

Results:
- `Blocks`: a row that is in the way of a chunk. A round of the loop is a signature that fails (`Ends.of_unsigned`), a
  put that nothing blocks (`Ends.of_unblocked`), or a refusal and the rest of the loop (`ends_of_blocks`);
- `putSigned_ends_iff`: the loop ends without an overflow iff the chunk is not stuck;
- `retries_end_iff`: both loops;
- `retries_stuck`: an unsigned chunk in the slot, and a chunk with the last version.
-/
import Wrb.Storage.Acceptance

namespace Wrb.Storage.Wrbpod

open Wrb.Wire Wrb.Programs LocalStackerDB

variable {X : Ext} {w : Wrbpod} {db : LocalStackerDB} {chunk : StackerDBChunkData} {row : LocalStackerDBChunk}

/-- the metadata that a refused put is answered with -/
def refusal : Ev → Option SlotMetadata
  | ⟨.putChunk _, .ok ack⟩ => if ack.accepted then none else ack.metadata
  | _ => none

/-- the version after the one in some refusal is no `u32` -/
def Overflows (tr : List Ev) : Prop := ∃ e ∈ tr, ∃ md, refusal e = some md ∧ 2 ^ 32 ≤ md.slotVersion.toNat + 1

/-- against the local StackerDB, a loop ends after some number of attempts, and never overflows -/
@[mk_iff]
structure Ends (X : Ext) (loop : ℕ → WrbpodM Unit) (w : Wrbpod) (db : LocalStackerDB) : Prop where
  finite : ∃ attempts, (run (serve X) ((loop attempts).prog w) db).isSome = true
  fits : ∀ attempts, ¬ Overflows (transcript (serve X) ((loop attempts).prog w) db)

/-- the key signs the chunk -/
def Signs (X : Ext) (key : Secp256k1PrivateKey) (chunk : StackerDBChunkData) : Prop :=
  (X.sign key chunk.slotId chunk.slotVersion (X.fromData chunk.data)).isSome = true

/-- the row of the chunk's slot is not empty, and its signature is bad or its version is not older than the chunk's -/
def Blocks (X : Ext) (db : LocalStackerDB) (chunk : StackerDBChunkData) (row : LocalStackerDBChunk) : Prop :=
  chunk.slotId < db.maxSlots ∧ db.chunks[chunk.slotId.toNat]? = some row ∧
    (metadata chunk.slotId.toNat row).isEmpty = false ∧
    (¬ Verifies X (metadata chunk.slotId.toNat row) (signer row) ∨ chunk.slotVersion ≤ row.slotVersion)

/-- the chunk of the next attempt -/
def retried (chunk : StackerDBChunkData) (row : LocalStackerDBChunk) : StackerDBChunkData :=
  { chunk with slotVersion := row.slotVersion + 1 }

/-- a put that a row blocks is refused with the row's metadata, whatever its signature -/
theorem putChunk_of_blocks (h : Blocks X db chunk row) (sig : MessageSignature) :
    ∃ reason code, db.putChunk X { chunk with sig := sig } =
      (refuse reason (some (metadata chunk.slotId.toNat row)) code, db) := by
  obtain ⟨hslot, hrow, hfull, hcases⟩ := h
  unfold LocalStackerDB.putChunk
  dsimp only
  rw [if_neg (UInt32.not_le.2 hslot), hrow]
  dsimp only
  cases hvalid : (X.verify (metadata chunk.slotId.toNat row) ⟨0, row.pubkh⟩).toOption.getD false with
  | false =>
    rw [if_pos (by simp [hfull])]
    exact ⟨_, _, rfl⟩
  | true =>
    have hold : chunk.slotVersion ≤ (metadata chunk.slotId.toNat row).slotVersion := by
      cases hcases with
      | inl hbad => exact absurd hvalid hbad
      | inr hold => exact hold
    rw [if_neg (by simp), if_pos (by simp [hfull, hold])]
    exact ⟨_, _, rfl⟩

/-- a put that no row blocks is accepted, or refused without metadata -/
theorem putChunk_of_unblocked (h : ∀ row, ¬ Blocks X db chunk row) (sig : MessageSignature) :
    (db.putChunk X { chunk with sig := sig }).1.accepted = true ∨
      ((db.putChunk X { chunk with sig := sig }).1.accepted = false ∧
        (db.putChunk X { chunk with sig := sig }).1.metadata = none) := by
  unfold LocalStackerDB.putChunk
  dsimp only
  by_cases hbig : chunk.slotId ≥ db.maxSlots
  · rw [if_pos hbig]
    exact Or.inr ⟨rfl, rfl⟩
  rw [if_neg hbig]
  cases hrow : db.chunks[chunk.slotId.toNat]? with
  | none => exact Or.inr ⟨rfl, rfl⟩
  | some row =>
    dsimp only
    have hslot : chunk.slotId < db.maxSlots := UInt32.not_le.1 hbig
    split_ifs with hbad hold
    · rw [Bool.and_eq_true, Bool.not_eq_true', Bool.not_eq_true'] at hbad
      exact absurd ⟨hslot, hrow, hbad.1, Or.inl (by simp [Verifies, signer, hbad.2])⟩ (h row)
    · rw [Bool.and_eq_true, Bool.not_eq_true', decide_eq_true_eq] at hold
      exact absurd ⟨hslot, hrow, hold.1, Or.inr hold.2⟩ (h row)
    · exact Or.inl rfl

/-! ## Rounds -/

/-- what is left of the loop when a put was answered -/
def afterPut (X : Ext) (attempts : ℕ) (chunk : StackerDBChunkData) (w : Wrbpod) {signed : StackerDBChunkData}
    (answer : Answer (.putChunk signed)) : Prog Call Answer (Except Error Unit × Wrbpod) :=
  match answer with
  | .error e => .ret (.error (.runtime e), w)
  | .ok ack =>
    if ack.accepted then .ret (.ok (), w)
    else
      match ack.metadata with
      | some md => (putSigned X attempts { chunk with slotVersion := md.slotVersion + 1 }).prog w
      | none => .ret (.error (.putChunk (ack.reason.getD "(reason not given)")), w)

theorem prog_putSigned_unsigned {attempts : ℕ}
    (h : X.sign w.privkey chunk.slotId chunk.slotVersion (X.fromData chunk.data) = none) :
    (putSigned X (attempts + 1) chunk).prog w = .ret (.error (.codec (.serializeError "Failed to sign")), w) := by
  have hsign : sign X w.privkey chunk = throw (.codec (.serializeError "Failed to sign")) := by
    rw [sign, h]
  rw [putSigned]
  change Action.prog (do let signed ← sign X w.privkey chunk; _) w = _
  rw [hsign]
  rfl

theorem prog_putSigned {attempts : ℕ} {sig : MessageSignature}
    (h : X.sign w.privkey chunk.slotId chunk.slotVersion (X.fromData chunk.data) = some sig) :
    (putSigned X (attempts + 1) chunk).prog w =
      .call (.putChunk { chunk with sig := sig }) fun answer => afterPut X attempts chunk w answer := by
  have hsign : sign X w.privkey chunk = pure { chunk with sig := sig } := by
    rw [sign, h]
  rw [putSigned]
  change Action.prog (do let signed ← sign X w.privkey chunk; _) w = _
  rw [hsign]
  change Prog.call _ _ = _
  congr 1
  funext answer
  cases answer with
  | error e => rfl
  | ok ack =>
    change Action.prog (if ack.accepted = true then pure () else _) w = _
    unfold afterPut
    dsimp only
    cases ack.accepted with
    | true => rfl
    | false =>
      cases ack.metadata with
      | some md => rfl
      | none => rfl

/-- an accepted put, or one refused without metadata, is the last -/
theorem afterPut_last {signed : StackerDBChunkData} {ack : StackerDBChunkAckData} {attempts : ℕ}
    (h : ack.accepted = true ∨ (ack.accepted = false ∧ ack.metadata = none)) :
    (∃ r, @afterPut X attempts chunk w signed (.ok ack) = .ret r) ∧ refusal ⟨.putChunk signed, .ok ack⟩ = none := by
  unfold afterPut refusal
  cases h with
  | inl hyes => simp [hyes]
  | inr hno => simp [hno.1, hno.2]

theorem signs_iff : Signs X w.privkey chunk ↔
    ∃ sig, X.sign w.privkey chunk.slotId chunk.slotVersion (X.fromData chunk.data) = some sig :=
  Option.isSome_iff_exists

theorem not_overflows_nil : ¬ Overflows [] := by
  simp [Overflows]

theorem overflows_cons {e : Ev} {tr : List Ev} :
    Overflows (e :: tr) ↔ (∃ md, refusal e = some md ∧ 2 ^ 32 ≤ md.slotVersion.toNat + 1) ∨ Overflows tr := by
  simp [Overflows]

/-- a first round that is the last ends the loop -/
theorem Ends.of_first (h : ∀ attempts, (run (serve X) ((putSigned X (attempts + 1) chunk).prog w) db).isSome = true ∧
    ¬ Overflows (transcript (serve X) ((putSigned X (attempts + 1) chunk).prog w) db)) :
    Ends X (fun n => putSigned X n chunk) w db := by
  refine ⟨⟨1, (h 0).1⟩, fun attempts => ?_⟩
  cases attempts with
  | zero => exact not_overflows_nil
  | succ attempts => exact (h attempts).2

/-- a chunk that the key does not sign ends the loop -/
theorem Ends.of_unsigned (h : ¬ Signs X w.privkey chunk) : Ends X (fun n => putSigned X n chunk) w db := by
  apply Ends.of_first
  intro attempts
  rw [prog_putSigned_unsigned (Option.not_isSome_iff_eq_none.1 h)]
  exact ⟨rfl, not_overflows_nil⟩

/-- a chunk that nothing blocks ends the loop -/
theorem Ends.of_unblocked (h : ∀ row, ¬ Blocks X db chunk row) : Ends X (fun n => putSigned X n chunk) w db := by
  by_cases hsigns : Signs X w.privkey chunk
  · obtain ⟨sig, hsig⟩ := signs_iff.1 hsigns
    apply Ends.of_first
    intro attempts
    obtain ⟨⟨r, hr⟩, hnone⟩ := @afterPut_last X w chunk _ _ attempts (putChunk_of_unblocked h sig)
    have hserve : (serve X (.putChunk { chunk with sig := sig }) db).1 =
        .ok (db.putChunk X { chunk with sig := sig }).1 := rfl
    rw [prog_putSigned hsig, run, transcript, hserve, hr, overflows_cons, hnone]
    refine ⟨rfl, not_or.2 ⟨?_, not_overflows_nil⟩⟩
    simp
  · exact Ends.of_unsigned hsigns

/-- a put that a row blocks is a round of the loop: the rest of it is the loop with the next version -/
theorem round_of_blocks (h : Blocks X db chunk row) (hsigns : Signs X w.privkey chunk) (attempts : ℕ) :
    run (serve X) ((putSigned X (attempts + 1) chunk).prog w) db =
      run (serve X) ((putSigned X attempts (retried chunk row)).prog w) db ∧
    ∃ e, refusal e = some (metadata chunk.slotId.toNat row) ∧
      transcript (serve X) ((putSigned X (attempts + 1) chunk).prog w) db =
        e :: transcript (serve X) ((putSigned X attempts (retried chunk row)).prog w) db := by
  obtain ⟨sig, hsig⟩ := signs_iff.1 hsigns
  obtain ⟨reason, code, hput⟩ := putChunk_of_blocks h sig
  have hserve : serve X (.putChunk { chunk with sig := sig }) db =
      (.ok (refuse reason (some (metadata chunk.slotId.toNat row)) code), db) := by
    rw [serve, hput]
  rw [prog_putSigned hsig, run, transcript, hserve]
  exact ⟨rfl, _, rfl, rfl⟩

/-- where a row blocks the put, the loop ends iff the next version is a `u32`, and the loop ends with it -/
theorem ends_of_blocks (h : Blocks X db chunk row) (hsigns : Signs X w.privkey chunk) :
    Ends X (fun n => putSigned X n chunk) w db ↔ row.slotVersion.toNat + 1 < 2 ^ 32 ∧
      Ends X (fun n => putSigned X n (retried chunk row)) w db := by
  have hround := round_of_blocks h hsigns
  have hoverflows : ∀ attempts, Overflows (transcript (serve X) ((putSigned X (attempts + 1) chunk).prog w) db) ↔
      2 ^ 32 ≤ row.slotVersion.toNat + 1 ∨
        Overflows (transcript (serve X) ((putSigned X attempts (retried chunk row)).prog w) db) := by
    intro attempts
    obtain ⟨-, e, he, htr⟩ := hround attempts
    rw [htr, overflows_cons, he]
    simp [metadata]
  constructor
  · intro hends
    have hfits := fun attempts => not_or.1 ((hoverflows attempts).not.1 (hends.fits (attempts + 1)))
    obtain ⟨attempts, hrun⟩ := hends.finite
    refine ⟨Nat.not_le.1 (hfits 0).1, ⟨?_, fun attempts => (hfits attempts).2⟩⟩
    cases attempts with
    | zero => cases hrun
    | succ attempts =>
      rw [(hround attempts).1] at hrun
      exact ⟨attempts, hrun⟩
  · intro hnext
    obtain ⟨attempts, hrun⟩ := hnext.2.finite
    rw [← (hround attempts).1] at hrun
    refine ⟨⟨attempts + 1, hrun⟩, fun attempts => ?_⟩
    cases attempts with
    | zero => exact not_overflows_nil
    | succ attempts =>
      rw [hoverflows, not_or]
      exact ⟨Nat.not_le.2 hnext.1, hnext.2.fits attempts⟩

/-! ## The loops -/

/-- a stored chunk with a bad signature blocks every version -/
theorem blocks_retried (h : Blocks X db chunk row)
    (hbad : ¬ Verifies X (metadata chunk.slotId.toNat row) (signer row)) : Blocks X db (retried chunk row) row :=
  ⟨h.1, h.2.1, h.2.2.1, Or.inl hbad⟩

/-- one whose signature is good does not block the next version -/
theorem not_blocks_retried (h : Blocks X db chunk row)
    (hgood : Verifies X (metadata chunk.slotId.toNat row) (signer row)) (hfits : row.slotVersion.toNat + 1 < 2 ^ 32)
    (row' : LocalStackerDBChunk) : ¬ Blocks X db (retried chunk row) row' := by
  intro hblocks
  obtain ⟨-, hrow', -, hcases⟩ := hblocks
  obtain rfl : row = row' := Option.some.inj (h.2.1.symm.trans hrow')
  cases hcases with
  | inl hbad => exact hbad hgood
  | inr hold =>
    have hle : (row.slotVersion + 1).toNat ≤ row.slotVersion.toNat := UInt32.le_iff_toNat_le.1 hold
    rw [UInt32.toNat_add, UInt32.toNat_one, Nat.mod_eq_of_lt hfits] at hle
    omega

/-- a chunk that is its own next attempt never ends the loop -/
theorem not_ends_of_retried (h : Blocks X db chunk row) (hsame : retried chunk row = chunk)
    (hsigns : Signs X w.privkey chunk) : ¬ Ends X (fun n => putSigned X n chunk) w db := by
  have hnever : ∀ attempts, run (serve X) ((putSigned X attempts chunk).prog w) db = none := by
    intro attempts
    induction attempts with
    | zero => rfl
    | succ attempts ih => rw [(round_of_blocks h hsigns attempts).1, hsame, ih]
  intro hends
  obtain ⟨attempts, hrun⟩ := hends.finite
  rw [hnever attempts] at hrun
  cases hrun

/-- **A stuck chunk**: a row is in its way, and has the last version, or a bad signature -/
def Stuck (X : Ext) (key : Secp256k1PrivateKey) (db : LocalStackerDB) (chunk : StackerDBChunkData) : Prop :=
  ∃ row, Blocks X db chunk row ∧ Signs X key chunk ∧
    (row.slotVersion.toNat + 1 = 2 ^ 32 ∨
      (¬ Verifies X (metadata chunk.slotId.toNat row) (signer row) ∧ Signs X key (retried chunk row)))

theorem stuck_iff_of_blocks (h : Blocks X db chunk row) {key : Secp256k1PrivateKey} (hsigns : Signs X key chunk) :
    Stuck X key db chunk ↔ row.slotVersion.toNat + 1 = 2 ^ 32 ∨
      (¬ Verifies X (metadata chunk.slotId.toNat row) (signer row) ∧ Signs X key (retried chunk row)) := by
  apply Iff.intro
  · intro ⟨row', h', _, hcases⟩
    obtain rfl : row = row' := Option.some.inj (h.2.1.symm.trans h'.2.1)
    exact hcases
  · intro hcases
    exact ⟨row, h, hsigns, hcases⟩

/-- where a row blocks a put, the loop ends with the next version, or never -/
theorem ends_iff_of_blocks (h : Blocks X db chunk row) (hsigns : Signs X w.privkey chunk) :
    Ends X (fun n => putSigned X n chunk) w db ↔ ¬ Stuck X w.privkey db chunk := by
  have hlast : row.slotVersion.toNat + 1 < 2 ^ 32 ↔ ¬ row.slotVersion.toNat + 1 = 2 ^ 32 := by
    have := row.slotVersion.toNat_lt
    omega
  rw [ends_of_blocks h hsigns, stuck_iff_of_blocks h hsigns, not_or, ← hlast]
  apply and_congr_right
  intro hfits
  by_cases hgood : Verifies X (metadata chunk.slotId.toNat row) (signer row)
  · exact iff_of_true (Ends.of_unblocked (not_blocks_retried h hgood hfits)) fun hbad => hbad.1 hgood
  · rw [not_and, imp_iff_right hgood]
    apply Iff.intro
    · intro hends hsigns'
      exact not_ends_of_retried (blocks_retried h hgood) rfl hsigns' hends
    · intro hunsigned
      exact Ends.of_unsigned hunsigned

theorem putSigned_ends_iff : Ends X (fun n => putSigned X n chunk) w db ↔ ¬ Stuck X w.privkey db chunk := by
  by_cases hblocks : ∃ row, Blocks X db chunk row
  · obtain ⟨row, h⟩ := hblocks
    by_cases hsigns : Signs X w.privkey chunk
    · exact ends_iff_of_blocks h hsigns
    · exact iff_of_true (Ends.of_unsigned hsigns) fun ⟨_, _, hs, _⟩ => hsigns hs
  · exact iff_of_true (Ends.of_unblocked fun row h => hblocks ⟨row, h⟩) fun ⟨row, h, _⟩ => hblocks ⟨row, h⟩

/-- the chunk of the first attempt to save the superblock over a row -/
def superblockChunk (X : Ext) (w : Wrbpod) (row : LocalStackerDBChunk) : StackerDBChunkData :=
  ⟨w.superblockSlotId, row.slotVersion, 0, w.superblock.consensusSerialize X⟩

theorem prog_uploadSuperblock (attempts : ℕ) : (uploadSuperblock X attempts).prog w =
    .call .listChunks fun answer =>
      match answer with
      | .error e => .ret (.error (.runtime e), w)
      | .ok mds =>
        match mds[w.superblockSlotIndex]? with
        | none => .ret (.error (.putChunk "No superblock chunk defined in slot metadata"), w)
        | some md =>
          (putSigned X attempts
            ⟨w.superblockSlotId, md.slotVersion, 0, w.superblock.consensusSerialize X⟩).prog w := by
  rw [uploadSuperblock]
  change Prog.call _ _ = _
  congr 1
  funext answer
  cases answer with
  | error e => rfl
  | ok mds =>
    change Action.prog (do let md ← orThrow mds[w.superblockSlotIndex]? _; _) w = _
    dsimp only
    cases mds[w.superblockSlotIndex]? with
    | none => rfl
    | some md => rfl

theorem uploadSuperblock_ends_iff : Ends X (fun n => uploadSuperblock X n) w db ↔
    ∀ row, db.chunks[w.superblockSlotIndex]? = some row →
      Ends X (fun n => putSigned X n (superblockChunk X w row)) w db := by
  have hlist : db.listChunks[w.superblockSlotIndex]? =
      db.chunks[w.superblockSlotIndex]?.map (metadata w.superblockSlotIndex) := List.getElem?_mapIdx
  have hserve : serve X .listChunks db = (.ok db.listChunks, db) := rfl
  cases hrow : db.chunks[w.superblockSlotIndex]? with
  | none =>
    rw [hrow] at hlist
    refine iff_of_true ⟨⟨0, ?_⟩, fun attempts => ?_⟩ (by simp)
    · rw [prog_uploadSuperblock, run, hserve]
      dsimp only
      rw [hlist]
      rfl
    · rw [prog_uploadSuperblock, transcript, hserve]
      dsimp only
      rw [hlist, overflows_cons]
      exact not_or.2 ⟨by simp [refusal], not_overflows_nil⟩
  | some row =>
    rw [hrow] at hlist
    have hrun : ∀ attempts, run (serve X) ((uploadSuperblock X attempts).prog w) db =
        run (serve X) ((putSigned X attempts (superblockChunk X w row)).prog w) db := by
      intro attempts
      rw [prog_uploadSuperblock, run, hserve]
      dsimp only
      rw [hlist]
      rfl
    have hoverflows : ∀ attempts, Overflows (transcript (serve X) ((uploadSuperblock X attempts).prog w) db) ↔
        Overflows (transcript (serve X) ((putSigned X attempts (superblockChunk X w row)).prog w) db) := by
      intro attempts
      rw [prog_uploadSuperblock, transcript, hserve]
      dsimp only
      rw [hlist, overflows_cons]
      exact or_iff_right (by simp [refusal])
    simp [ends_iff, hrun, hoverflows]

/-- **Both loops**: against the local StackerDB, whatever it stores, the loops of `put_chunk` and of
`upload_superblock` end after finitely many attempts, with no next version beyond `u32`, exactly when the chunk they
put is not stuck -/
theorem retries_end_iff (X : Ext) (w : Wrbpod) (db : LocalStackerDB) :
    (∀ chunk, Ends X (fun n => Wrbpod.putChunk X n chunk) w db ↔ ¬ Stuck X w.privkey db chunk) ∧
      (Ends X (fun n => uploadSuperblock X n) w db ↔
        ∀ row, db.chunks[w.superblockSlotIndex]? = some row → ¬ Stuck X w.privkey db (superblockChunk X w row)) := by
  refine ⟨fun chunk => putSigned_ends_iff, ?_⟩
  rw [uploadSuperblock_ends_iff]
  exact forall₂_congr fun row _ => putSigned_ends_iff

/-- the signer's chunk with the last version -/
def lastVersion : StackerDBChunkData :=
  { slotId := 0, slotVersion := 4294967295, sig := (X0.sign 7 0 4294967295 (X0.fromData [42])).getD 0, data := [42] }

/-- over an unsigned chunk in the slot, the signer's own chunk is retried for ever; over the signer's chunk with the
last version, the next version overflows -/
theorem retries_stuck :
    ¬ Ends X0 (fun n => Wrbpod.putChunk X0 n ⟨0, 1, 0, [43]⟩) ⟨.empty, 7, none, ∅, 0⟩ (put X0 oneSlot unsigned) ∧
      ¬ Ends X0 (fun n => Wrbpod.putChunk X0 n ⟨0, 1, 0, [43]⟩) ⟨.empty, 7, none, ∅, 0⟩
        (put X0 oneSlot lastVersion) := by
  have hsigns : ∀ chunk, Signs X0 7 chunk := fun _ => rfl
  have hstuck : ∀ db, Stuck X0 7 db ⟨0, 1, 0, [43]⟩ →
      ¬ Ends X0 (fun n => Wrbpod.putChunk X0 n ⟨0, 1, 0, [43]⟩) ⟨.empty, 7, none, ∅, 0⟩ db := by
    intro db h hends
    exact putSigned_ends_iff.1 hends h
  constructor
  · have hbad : ¬ Verifies X0 (metadata unsigned.slotId.toNat (updated X0 ⟨0, 7, 0, [], 0⟩ unsigned)) ⟨0, 7⟩ := by
      rw [metadata_updated]
      exact unsigned_bad
    have hblocks : Blocks X0 (put X0 oneSlot unsigned) ⟨0, 1, 0, [43]⟩ (updated X0 ⟨0, 7, 0, [], 0⟩ unsigned) :=
      ⟨by decide +kernel, unsigned_stored, by decide +kernel, Or.inl hbad⟩
    exact hstuck _ ⟨_, hblocks, hsigns _, Or.inr ⟨hbad, hsigns _⟩⟩
  · have hstored : (put X0 oneSlot lastVersion).chunks[lastVersion.slotId.toNat]? =
        some (updated X0 ⟨0, 7, 0, [], 0⟩ lastVersion) := by decide +kernel
    have hblocks : Blocks X0 (put X0 oneSlot lastVersion) ⟨0, 1, 0, [43]⟩ (updated X0 ⟨0, 7, 0, [], 0⟩ lastVersion) :=
      ⟨by decide +kernel, hstored, by decide +kernel, Or.inr (by decide +kernel)⟩
    exact hstuck _ ⟨_, hblocks, hsigns _, Or.inl (by decide +kernel)⟩

end Wrb.Storage.Wrbpod
