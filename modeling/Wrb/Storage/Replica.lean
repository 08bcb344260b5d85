/-
Honest nodes: a home node and a replica that do what the `StackerDBClient` trait documents.

An honest node keeps one row for each slot. It lists the rows' metadata in slot order, answers the i-th requested slot
at position i, and accepts a chunk only if its version exceeds the stored one (an empty slot takes any). It may fail or
refuse at any time: `Live` is the assumption that it answers what is read.

- `HonestReplica` carries these laws, over any state; `view` gives its rows;
- `view_of_served`: only accepted puts change the rows; what is read in between is read from the rows at the start
  (`listing_of_served`, `chunks_of_served`, `signers_of_served`);
- `readRow_of_served`: a superblock that is read is the one in the slot's row;
- `view_of_puts`: a successful retry loop leaves exactly its own chunk in the slot's row, a failed one leaves the rows.
-/
import Wrb.Storage.WrbpodTraces

namespace Wrb.Storage

open Wrb.Wire Wrb.Programs

/-- a slot of a StackerDB -/
structure Row where
  md : SlotMetadata
  data : Bytes
deriving DecidableEq

/-- the data of a slot; there is none while the slot is empty -/
def lookup (rows : List Row) (slotId : UInt32) : Option Bytes :=
  match rows[slotId.toNat]? with
  | none => none
  | some row => if row.md.isEmpty then none else some row.data

/-- the row an accepted chunk leaves -/
def rowOf (X : Ext) (c : StackerDBChunkData) : Row := ⟨⟨c.slotId, c.slotVersion, X.fromData c.data, c.sig⟩, c.data⟩

def storeRow (X : Ext) (rows : List Row) (c : StackerDBChunkData) : List Row := rows.set c.slotId.toNat (rowOf X c)

theorem storeRow_self {X : Ext} {rows : List Row} {c : StackerDBChunkData} {row : Row}
    (h : rows[c.slotId.toNat]? = some row) : (storeRow X rows c)[c.slotId.toNat]? = some (rowOf X c) := by
  obtain ⟨hlt, -⟩ := List.getElem?_eq_some_iff.1 h
  exact List.getElem?_set_self hlt

/-- a home node and a replica that answer as documented -/
structure HonestReplica (X : Ext) (σ : Type) where
  serve : (q : Call) → σ → Answer q × σ
  view : σ → List Row
  signers : List StacksAddress
  view_read : ∀ q s, accepted ⟨q, (serve q s).1⟩ = false → view (serve q s).2 = view s
  getSigners : ∀ s answer, (serve .getSigners s).1 = .ok answer → answer = signers
  listChunks : ∀ s mds, (serve .listChunks s).1 = .ok mds → mds = (view s).map Row.md
  getLatestChunks : ∀ ids s chunks, (serve (.getLatestChunks ids) s).1 = .ok chunks → chunks = ids.map (lookup (view s))
  putChunk : ∀ c s, accepted ⟨.putChunk c, (serve (.putChunk c) s).1⟩ = true →
    view (serve (.putChunk c) s).2 = storeRow X (view s) c ∧
    ∃ row, (view s)[c.slotId.toNat]? = some row ∧ (row.md.isEmpty = true ∨ row.md.slotVersion < c.slotVersion)

namespace HonestReplica

variable {X : Ext} {σ : Type} (R : HonestReplica X σ)

/-- an action of a wrbpod over the replica: its result, the handle and the replica's state after it, if it succeeds -/
def exec {α : Type} (m : WrbpodM α) (w : Wrbpod) (s : σ) : Option (α × Wrbpod × σ) :=
  match run R.serve (m.prog w) s with
  | some ((.ok a, w'), s') => some (a, w', s')
  | _ => none

theorem exec_eq_some {α : Type} {m : WrbpodM α} {w w' : Wrbpod} {s s' : σ} {a : α} :
    R.exec m w s = some (a, w', s') ↔ ∃ tr, Outcome m w tr (.ok a) w' ∧ Served R.serve s tr s' := by
  show R.exec m w s = some (a, w', s') ↔ ∃ tr, Yields (m.prog w) tr (.ok a, w') ∧ Served R.serve s tr s'
  rw [← run_eq_some, exec]
  split
  next a' w₁ s₁ heq => simp [heq, and_assoc]
  next h =>
    constructor
    · intro hnone
      cases hnone
    · intro heq
      exact absurd heq (h a w' s')

/-- whatever is read is answered -/
structure Live : Prop where
  getSigners : ∀ s, ∃ answer, (R.serve .getSigners s).1 = .ok answer
  listChunks : ∀ s, ∃ mds, (R.serve .listChunks s).1 = .ok mds
  getLatestChunks : ∀ ids s, ∃ chunks, (R.serve (.getLatestChunks ids) s).1 = .ok chunks

variable {R} {s s' : σ} {tr : List Ev}

/-- without an accepted put, the rows stay -/
theorem view_of_served (h : Served R.serve s tr s') (hputs : ∀ e ∈ tr, accepted e = false) :
    R.view s' = R.view s :=
  served_inv (I := fun s₁ => R.view s₁ = R.view s) h (fun e he s₁ hs ha => by
    have hread : accepted ⟨e.1, (R.serve e.1 s₁).1⟩ = false := by
      rw [ha]
      exact hputs e he
    exact (R.view_read e.1 s₁ hread).trans hs) rfl

/-- the chunks that were accepted along a trace, in order -/
def storedChunks (tr : List Ev) : List StackerDBChunkData := tr.filterMap acceptedChunk

theorem storedChunks_eq_nil (h : ∀ e ∈ tr, accepted e = false) : storedChunks tr = [] := by
  refine List.filterMap_eq_nil_iff.2 fun e he => ?_
  have := h e he
  rw [← isSome_acceptedChunk] at this
  exact Option.not_isSome_iff_eq_none.1 (by simp [this])

theorem storedChunks_append (t₁ t₂ : List Ev) : storedChunks (t₁ ++ t₂) = storedChunks t₁ ++ storedChunks t₂ :=
  List.filterMap_append

theorem storedChunks_cons {c : StackerDBChunkData} {ack : StackerDBChunkAckData} (hack : ack.accepted = true)
    (tr : List Ev) : storedChunks (⟨.putChunk c, .ok ack⟩ :: tr) = c :: storedChunks tr :=
  List.filterMap_cons_some (acceptedChunk_eq_some.2 ⟨ack, rfl, hack⟩)

/-- the rows after a trace are what its accepted chunks make of the rows before it -/
theorem view_eq_foldl (h : Served R.serve s tr s') :
    R.view s' = (storedChunks tr).foldl (storeRow X) (R.view s) := by
  induction tr generalizing s with
  | nil =>
    obtain rfl : s = s' := h
    rfl
  | cons e tr ih =>
    obtain ⟨ha, h'⟩ := h
    rw [ih h', storedChunks, storedChunks, List.filterMap_cons]
    cases hc : acceptedChunk e with
    | none =>
      have hread : accepted ⟨e.1, (R.serve e.1 s).1⟩ = false := by
        rw [ha, ← isSome_acceptedChunk, hc]
        rfl
      rw [R.view_read e.1 s hread]
    | some c =>
      obtain ⟨ack, rfl, hack⟩ := acceptedChunk_eq_some.1 hc
      have haccepted : accepted ⟨.putChunk c, (R.serve (.putChunk c) s).1⟩ = true := by
        have ha' : (R.serve (.putChunk c) s).1 = .ok ack := ha
        rw [ha']
        exact hack
      rw [(R.putChunk c s haccepted).1]
      rfl

/-- without an accepted put, every event was served with the rows of the start -/
theorem event_of_served (h : Served R.serve s tr s') (hputs : ∀ e ∈ tr, accepted e = false) {e : Ev} (he : e ∈ tr) :
    ∃ s₁, R.view s₁ = R.view s ∧ (R.serve e.1 s₁).1 = e.2 := by
  obtain ⟨t₁, t₂, s₁, rfl, h1, ha⟩ := served_mem h he
  exact ⟨s₁, view_of_served h1 fun e he => hputs e (List.mem_append_left _ he), ha⟩

theorem listing_of_served (h : Served R.serve s tr s') (hputs : ∀ e ∈ tr, accepted e = false)
    {mds : List SlotMetadata} (he : ⟨.listChunks, .ok mds⟩ ∈ tr) : mds = (R.view s).map Row.md := by
  obtain ⟨s₁, hview, ha⟩ := event_of_served h hputs he
  rw [← hview]
  exact R.listChunks s₁ mds ha

theorem chunks_of_served (h : Served R.serve s tr s') (hputs : ∀ e ∈ tr, accepted e = false) {ids : List UInt32}
    {chunks : List (Option Bytes)} (he : ⟨.getLatestChunks ids, .ok chunks⟩ ∈ tr) :
    chunks = ids.map (lookup (R.view s)) := by
  obtain ⟨s₁, hview, ha⟩ := event_of_served h hputs he
  rw [← hview]
  exact R.getLatestChunks ids s₁ chunks ha

theorem signers_of_served (h : Served R.serve s tr s') {signers : List StacksAddress}
    (he : ⟨.getSigners, .ok signers⟩ ∈ tr) : signers = R.signers := by
  obtain ⟨t₁, t₂, s₁, rfl, -, ha⟩ := served_mem h he
  exact R.getSigners s₁ signers ha

/-- the signers that a handle goes by: the cached ones, else the home node's -/
def known (R : HonestReplica X σ) (w : Wrbpod) : List StacksAddress := w.signers.getD R.signers

theorem known_of_trace {w : Wrbpod} {t : List Ev} {signers : List StacksAddress}
    (h : Wrbpod.SignersTrace w t signers)
    (hanswer : ∀ answer, ⟨.getSigners, .ok answer⟩ ∈ t → answer = R.signers) : signers = R.known w := by
  rcases h with ⟨hw, -⟩ | ⟨hw, rfl⟩
  · rw [known, hw]
    rfl
  · rw [known, hw]
    exact hanswer signers List.mem_cons_self

/-- what `readSuperblock` reads from the slot's row: a new superblock while the row is empty, else its data. The chunk
is looked up at the slot's own position in a list of one, so nothing is read from a slot other than 0 -/
def ReadRow (X : Ext) (w : Wrbpod) (signers : List StacksAddress) (rows : List Row) (sb : WrbpodSuperblock) : Prop :=
  ∃ row, rows[w.superblockSlotIndex]? = some row ∧
    ((row.md.isEmpty = true ∧ Wrbpod.makeSuperblock X w.superblockSlotId signers w.privkey = .ok sb) ∨
      (row.md.isEmpty = false ∧ w.superblockSlotId = 0 ∧ WrbpodSuperblock.fromBytes X row.data = .ok sb))

/-- only the slot's own row is read -/
theorem ReadRow.congr {w : Wrbpod} {signers : List StacksAddress} {rows rows' : List Row} {sb : WrbpodSuperblock}
    (h : ReadRow X w signers rows sb) (heq : rows[w.superblockSlotIndex]? = rows'[w.superblockSlotIndex]?) :
    ReadRow X w signers rows' sb := by
  obtain ⟨row, hrow, hcases⟩ := h
  exact ⟨row, heq ▸ hrow, hcases⟩

theorem lookup_eq_some {rows : List Row} {slotId : UInt32} {data : Bytes} :
    lookup rows slotId = some data ↔
      ∃ row, rows[slotId.toNat]? = some row ∧ row.md.isEmpty = false ∧ row.data = data := by
  unfold lookup
  cases rows[slotId.toNat]? with
  | none => simp
  | some row => cases hempty : row.md.isEmpty <;> simp [hempty]

/-- a list of one has an entry at position 0 only -/
theorem ReadRow.of_chunks {w : Wrbpod} (signers : List StacksAddress) {rows : List Row} {data : Bytes}
    {sb : WrbpodSuperblock}
    (hchunk : ([w.superblockSlotId].map (lookup rows))[w.superblockSlotIndex]? = some (some data))
    (hdecode : WrbpodSuperblock.fromBytes X data = .ok sb) : ReadRow X w signers rows sb := by
  obtain ⟨hlt, hget⟩ := List.getElem?_eq_some_iff.1 hchunk
  have hzero : w.superblockSlotId.toNat = 0 := by simpa [Wrbpod.superblockSlotIndex] using hlt
  have hlookup : lookup rows w.superblockSlotId = some data := by simpa using hget
  obtain ⟨row, hrow, hempty, rfl⟩ := lookup_eq_some.1 hlookup
  exact ⟨row, hrow, Or.inr ⟨hempty, UInt32.toNat_inj.1 hzero, hdecode⟩⟩

theorem SignersTrace.accepted_eq {w : Wrbpod} {t : List Ev} {signers : List StacksAddress}
    (h : Wrbpod.SignersTrace w t signers) : ∀ e ∈ t, accepted e = false := by
  rcases h with ⟨-, rfl⟩ | ⟨-, rfl⟩ <;> simp [accepted]

theorem Read.accepted_eq {w : Wrbpod} {signers : List StacksAddress} {sb : WrbpodSuperblock}
    (h : Wrbpod.Read X w signers tr sb) : ∀ e ∈ tr, accepted e = false := by
  intro e he
  cases h with
  | fresh mds md t sb hmd hempty hmake ht =>
    rcases List.mem_cons.1 he with rfl | he
    · rfl
    · exact SignersTrace.accepted_eq ht e he
  | stored mds md t signer chunks data sb hmd hempty hsigner hverify hchunk hhash hdecode ht =>
    rcases List.mem_cons.1 he with rfl | he
    · rfl
    rcases List.mem_append.1 he with he | he
    · exact SignersTrace.accepted_eq ht e he
    · obtain rfl := List.mem_singleton.1 he
      rfl

/-- a superblock read from an honest replica is the one in the slot's row, and the rows stay -/
theorem readRow_of_served {w : Wrbpod} {signers : List StacksAddress} {sb : WrbpodSuperblock}
    (h : Served R.serve s tr s') (hread : Wrbpod.Read X w signers tr sb) :
    ReadRow X w signers (R.view s) sb ∧ R.view s' = R.view s := by
  have hputs := Read.accepted_eq hread
  refine ⟨?_, view_of_served h hputs⟩
  cases hread with
  | fresh mds md t sb hmd hempty hmake ht =>
    obtain rfl := listing_of_served h hputs List.mem_cons_self
    rw [List.getElem?_map] at hmd
    obtain ⟨row, hrow, rfl⟩ := Option.map_eq_some_iff.1 hmd
    exact ⟨row, hrow, Or.inl ⟨hempty, hmake⟩⟩
  | stored mds md t signer chunks data sb hmd hempty hsigner hverify hchunk hhash hdecode ht =>
    have hlast : (⟨.getLatestChunks [w.superblockSlotId], .ok chunks⟩ : Ev) ∈ t ++
        [⟨.getLatestChunks [w.superblockSlotId], .ok chunks⟩] := List.mem_append_right _ List.mem_cons_self
    obtain rfl := chunks_of_served h hputs (List.mem_cons_of_mem _ hlast)
    exact ReadRow.of_chunks signers hchunk hdecode

/-- what an accepted chunk leaves: the row of the slot, and all others as they were -/
structure Stored (X : Ext) (key : Secp256k1PrivateKey) (slotId : UInt32) (data : Bytes) (rows rows' : List Row) :
    Prop where
  row : ∃ c, c.slotId = slotId ∧ c.data = data ∧ X.sign key slotId c.slotVersion (X.fromData data) = some c.sig ∧
    rows' = storeRow X rows c ∧ ∃ row, rows[slotId.toNat]? = some row ∧
      (row.md.isEmpty = true ∨ row.md.slotVersion < c.slotVersion)

/-- a successful retry loop stores its chunk, a failed one stores nothing -/
theorem view_of_puts {key : Secp256k1PrivateKey} {slotId : UInt32} {data : Bytes} {r : Except Error Unit}
    (h : Served R.serve s tr s') (hputs : Wrbpod.Puts X key slotId data tr r) :
    (r = .ok () → Stored X key slotId data (R.view s) (R.view s')) ∧ (r ≠ .ok () → R.view s' = R.view s) := by
  refine ⟨fun hr => ?_, fun hr => view_of_served h (hputs.failure hr)⟩
  obtain ⟨init, c, ack, rfl, hack, hinit⟩ := hputs.success hr
  obtain ⟨s₁, h1, h2⟩ := served_append.1 h
  obtain ⟨ha, hlast⟩ := h2
  have haccepted : accepted ⟨.putChunk c, (R.serve (.putChunk c) s₁).1⟩ = true := by
    have ha' : (R.serve (.putChunk c) s₁).1 = .ok ack := ha
    rw [ha']
    exact hack
  obtain ⟨hview, hrow⟩ := R.putChunk c s₁ haccepted
  have hstart := view_of_served h1 hinit
  obtain ⟨c', a, hevent, hslot, hdata, hsig⟩ := hputs.attempts ⟨.putChunk c, .ok ack⟩ (by simp)
  obtain rfl : c = c' := by
    have := congrArg Sigma.fst hevent
    exact Call.putChunk.inj this
  subst hslot hdata
  refine ⟨c, rfl, rfl, hsig, ?_, ?_⟩
  · rw [← hlast, ← hstart]
    exact hview
  · rw [← hstart]
    exact hrow

theorem Stored.row_self {key : Secp256k1PrivateKey} {slotId : UInt32} {data : Bytes} {rows rows' : List Row}
    (h : Stored X key slotId data rows rows') : ∃ version sig, X.sign key slotId version (X.fromData data) = some sig ∧
      rows'[slotId.toNat]? = some ⟨⟨slotId, version, X.fromData data, sig⟩, data⟩ := by
  obtain ⟨c, rfl, rfl, hsig, rfl, row, hrow, -⟩ := h.row
  exact ⟨c.slotVersion, c.sig, hsig, storeRow_self hrow⟩

theorem Stored.row_other {key : Secp256k1PrivateKey} {slotId other : UInt32} {data : Bytes} {rows rows' : List Row}
    (h : Stored X key slotId data rows rows') (hne : slotId ≠ other) :
    rows'[other.toNat]? = rows[other.toNat]? := by
  obtain ⟨c, rfl, rfl, -, rfl, -⟩ := h.row
  exact List.getElem?_set_ne fun heq => hne (UInt32.toNat_inj.1 heq)

theorem lookup_congr {rows rows' : List Row} {slotId : UInt32} (h : rows'[slotId.toNat]? = rows[slotId.toNat]?) :
    lookup rows' slotId = lookup rows slotId := by
  unfold lookup
  rw [h]

theorem Stored.lookup_self (hS : SignLaws X) {key : Secp256k1PrivateKey} {slotId : UInt32} {data : Bytes}
    {rows rows' : List Row} (h : Stored X key slotId data rows rows') : lookup rows' slotId = some data := by
  obtain ⟨version, sig, -, hrow⟩ := h.row_self
  exact lookup_eq_some.2 ⟨_, hrow, hS.isEmpty_eq _ _ _ _, rfl⟩

theorem Stored.lookup_other {key : Secp256k1PrivateKey} {slotId other : UInt32} {data : Bytes} {rows rows' : List Row}
    (h : Stored X key slotId data rows rows') (hne : slotId ≠ other) : lookup rows' other = lookup rows other :=
  lookup_congr (h.row_other hne)

/-- from a slot that is not empty, its data is read -/
theorem ReadRow.decoded {w : Wrbpod} {signers : List StacksAddress} {rows : List Row} {sb : WrbpodSuperblock}
    {data : Bytes} (h : ReadRow X w signers rows sb) (hdata : lookup rows w.superblockSlotId = some data) :
    WrbpodSuperblock.fromBytes X data = .ok sb := by
  obtain ⟨row, hrow, hempty, rfl⟩ := lookup_eq_some.1 hdata
  obtain ⟨row', hrow', hcases⟩ := h
  obtain rfl := Option.some.inj (hrow.symm.trans hrow')
  rcases hcases with ⟨hnew, -⟩ | ⟨-, -, hdecode⟩
  · rw [hempty] at hnew
    cases hnew
  · exact hdecode

end HonestReplica

end Wrb.Storage
