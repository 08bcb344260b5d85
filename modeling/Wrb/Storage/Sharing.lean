/-
Two wrbpods that share slots: `fetch_chunk`, `put_slice` and `sync_slot` of two clients, interleaved call by call.

`sync_slot` lists the slot when it is called and puts the cached slices with the version after the listed one; where
that is refused, `put_chunk` sends the same bytes with a version after the one in the way. Neither looks at the version
that the slices were fetched with, so a sync may overwrite slices that its client never saw.

Layers:
- `Shared.step`: a turn of a client, which begins an operation or makes the next call of the one under way;
- `Memo`: for each client, the data its copy of a slot was last fetched from or stored as, and the slices it put. No
  step depends on it;
- `NotStale`: the put that a client is about to make, if it is accepted, overwrites the data that the client saw last;
- `Inv`: a cached copy still has every slice of the data it was made from, but for those that its client put. Every
  `NotStale` step keeps it (`step_inv`).

Results:
- `syncs_keep`: in any run of `NotStale` steps, a successful `sync_slot` keeps every stored slice that its client never
  put, and is not made from a stale copy;
- `sync_drops`: without that, a client's synced slice is dropped by the other's successful `sync_slot`.
-/
import Wrb.Storage.Concurrent
import Wrb.Storage.Isolation

namespace Wrb.Storage

open Wrb.Wire Wrb.Programs

namespace Wrbpod

variable {X : Ext} {σ : Type}

/-! ## Operations -/

/-- the operations on the slices of a slot -/
inductive SlotOp where
  | fetchChunk (appName : String) (appSlotId : UInt32)
  | putSlice (appName : String) (appSlotId : UInt32) (sliceId : BitVec 128) (sliceBytes : Bytes)
  | syncSlot (appName : String) (appSlotId : UInt32)
deriving DecidableEq

/-- what an operation reports on success -/
inductive Report where
  | fetched (version : UInt32) (signer : Option StacksPublicKey)
  | put (inserted : Bool)
  | synced
deriving DecidableEq

namespace SlotOp

def run (X : Ext) (attempts : ℕ) : SlotOp → WrbpodM Report
  | .fetchChunk appName appSlotId => do
    let (version, signer) ← Wrbpod.fetchChunk X appName appSlotId
    pure (.fetched version signer)
  | .putSlice appName appSlotId sliceId sliceBytes => do
    let w ← get
    modify fun w => (w.putSlice X appName appSlotId sliceId sliceBytes).2
    pure (.put (w.putSlice X appName appSlotId sliceId sliceBytes).1)
  | .syncSlot appName appSlotId => do
    Wrbpod.syncSlot X attempts appName appSlotId
    pure .synced

/-- the slot that the operation is about -/
def slot (w : Wrbpod) : SlotOp → Option UInt32
  | .fetchChunk appName appSlotId => w.superblock.appSlotIdToStackerdbChunkId appName appSlotId
  | .putSlice appName appSlotId _ _ => w.superblock.appSlotIdToStackerdbChunkId appName appSlotId
  | .syncSlot appName appSlotId => w.superblock.appSlotIdToStackerdbChunkId appName appSlotId

end SlotOp

/-! ## Turns -/

/-- an operation under way -/
abbrev Left := Prog Call Answer (Except Error Report × Wrbpod)

/-- a client: its handle as the last operation left it, and what is left of the one under way -/
structure Peer where
  handle : Wrbpod
  running : Option (SlotOp × Left)

/-- what is remembered of a client: the data that its copy of a slot was last fetched from or stored as, and the IDs of
the slices it put -/
structure Memo where
  seen : UInt32 → Option Bytes
  wrote : List (UInt32 × BitVec 128)

structure Shared (σ : Type) where
  server : σ
  peers : Client → Peer
  memos : Client → Memo

/-- a client begins an operation, or makes the next call of the one under way -/
inductive Turn where
  | start (i : Client) (op : SlotOp)
  | call (i : Client)
deriving DecidableEq

/-- what is remembered once an operation has ended with the result `r` and the handle `w`, the server being in state
`s` -/
def Memo.note (R : HonestReplica X σ) (s : σ) (op : SlotOp) (r : Except Error Report) (w : Wrbpod) (m : Memo) : Memo :=
  match op.slot w with
  | none => m
  | some slotId =>
    match op, r with
    | .fetchChunk _ _, _ =>
      -- also a fetch that fails after the chunk was cached
      if w.chunks[slotId]?.isSome ∧ storedSlices R slotId s = w.chunks[slotId]? then
        { m with seen := Function.update m.seen slotId (lookup (R.view s) slotId) }
      else m
    | .putSlice _ _ sliceId _, .ok (.put true) => { m with wrote := (slotId, sliceId) :: m.wrote }
    | .syncSlot _ _, .ok _ => { m with seen := Function.update m.seen slotId (lookup (R.view s) slotId) }
    | _, _ => m

namespace Shared

/-- two clients that have just opened their wrbpods -/
def opened (w : Client → Wrbpod) (s : σ) : Shared σ where
  server := s
  peers i := ⟨w i, none⟩
  memos _ := ⟨fun _ => none, []⟩

/-- client `i` is left with this much of the operation, and the server with `s` -/
def proceed (R : HonestReplica X σ) (p : Shared σ) (i : Client) (op : SlotOp) (s : σ) (left : Left) : Shared σ :=
  match left with
  | .ret (r, w) =>
    { server := s
      peers := Function.update p.peers i ⟨w, none⟩
      memos := Function.update p.memos i ((p.memos i).note R s op r w) }
  | _ => { p with server := s, peers := Function.update p.peers i ⟨(p.peers i).handle, some (op, left)⟩ }

def step (R : HonestReplica X σ) (attempts : ℕ) (p : Shared σ) : Turn → Shared σ
  | .start i op =>
    match (p.peers i).running with
    | none => p.proceed R i op p.server ((op.run X attempts).prog (p.peers i).handle)
    | some _ => p
  | .call i =>
    match (p.peers i).running with
    | some (op, .call q k) => p.proceed R i op (R.serve q p.server).2 (k (R.serve q p.server).1)
    | _ => p

/-! ## What a sync must do -/

/-- the put that the client is about to make, if it is accepted, overwrites the data that the client saw last in the
slot, or an empty slot -/
def NotStale (R : HonestReplica X σ) (p : Shared σ) : Turn → Prop
  | .start _ _ => True
  | .call i => ∀ running ∈ (p.peers i).running, ∀ c ∈ nextPut running.2,
      accepted ⟨.putChunk c, (R.serve (.putChunk c) p.server).1⟩ = true →
        ∀ data ∈ lookup (R.view p.server) c.slotId, (p.memos i).seen c.slotId = some data

/-- the operation that the client's next call ends, and its result -/
def ending (R : HonestReplica X σ) (p : Shared σ) (i : Client) : Option (SlotOp × Except Error Report) :=
  match (p.peers i).running with
  | some (op, .call q k) =>
    match k (R.serve q p.server).1 with
    | .ret (r, _) => some (op, r)
    | _ => none
  | _ => none

/-- a `sync_slot` of the slot by client `i`, from `p` to `p'`: the stored slices that the client never put are there
after it, and the client's copy was of the data in the slot -/
structure Keeps (R : HonestReplica X σ) (i : Client) (slotId : UInt32) (p p' : Shared σ) : Prop where
  others : ∀ slices, storedSlices R slotId p.server = some slices →
    ∃ slices', storedSlices R slotId p'.server = some slices' ∧ ∀ id, (slotId, id) ∉ (p.memos i).wrote →
      ∀ v, slices.getSlice id = some v → slices'.getSlice id = some v
  current : ∀ data, lookup (R.view p.server) slotId = some data → (p.memos i).seen slotId = some data

/-- if the turn ends a `sync_slot` with success, the sync keeps what it must -/
def SyncKeeps (R : HonestReplica X σ) (attempts : ℕ) (p : Shared σ) : Turn → Prop
  | .start _ _ => True
  | .call i => ∀ app appSlotId report, ending R p i = some (.syncSlot app appSlotId, .ok report) →
      ∃ slotId, (p.peers i).handle.superblock.appSlotIdToStackerdbChunkId app appSlotId = some slotId ∧
        Keeps R i slotId p (p.step R attempts (.call i))

instance (R : HonestReplica X σ) (p : Shared σ) : (t : Turn) → Decidable (NotStale R p t)
  | .start _ _ => .isTrue trivial
  | .call i => inferInstanceAs (Decidable (∀ running ∈ (p.peers i).running, ∀ c ∈ nextPut running.2, _ → _))

end Shared

/-! ## A client's copies -/

/-- the cache of a client against its memo: it is built by puts, and a cached copy still has every slice of the data
that was seen last, but for those that the client put -/
structure Copies (X : Ext) (m : Memo) (w : Wrbpod) : Prop where
  holding : ∀ (slotId : UInt32) (slices : WrbpodSlices), w.chunks[slotId]? = some slices →
    WrbpodSlices.Holding X (fun _ _ => True) slices
  unseen : ∀ slotId : UInt32, w.chunks[slotId]? = none → m.seen slotId = none
  kept : ∀ (slotId : UInt32) (slices : WrbpodSlices) (data : Bytes) (base : WrbpodSlices),
    w.chunks[slotId]? = some slices → m.seen slotId = some data → WrbpodSlices.fromSlice X data = .ok base →
      ∀ id, (slotId, id) ∉ m.wrote → ∀ v, base.getSlice id = some v → slices.getSlice id = some v

theorem copies_opened {w : Wrbpod} (h : w.chunks = ∅) : Copies X ⟨fun _ => none, []⟩ w := by
  have hnone : ∀ slotId : UInt32, w.chunks[slotId]? = none := fun slotId => by
    rw [h]
    exact Std.ExtTreeMap.getElem?_empty
  exact ⟨fun slotId slices hget => absurd hget (by simp [hnone]), fun _ _ => rfl,
    fun _ _ _ _ _ hseen => nomatch hseen⟩

/-- the copy of a slot is made anew from `data`, or stored as it -/
theorem Copies.see {m : Memo} {w w' : Wrbpod} (h : Copies X m w) {slotId : UInt32} {slices : WrbpodSlices}
    {data : Bytes} (hself : w'.chunks[slotId]? = some slices)
    (hother : ∀ other : UInt32, slotId ≠ other → w'.chunks[other]? = w.chunks[other]?)
    (hholding : WrbpodSlices.Holding X (fun _ _ => True) slices)
    (hdata : ∀ base, WrbpodSlices.fromSlice X data = .ok base → ∀ id v, base.getSlice id = some v →
      slices.getSlice id = some v) :
    Copies X { m with seen := Function.update m.seen slotId (some data) } w' := by
  refine ⟨fun other got hget => ?_, fun other hget => ?_, fun other got data' base hget hseen hbase id hid => ?_⟩
  · by_cases hne : slotId = other
    · subst hne
      obtain rfl := Option.some.inj (hself.symm.trans hget)
      exact hholding
    · exact h.holding other got ((hother other hne).symm.trans hget)
  · by_cases hne : slotId = other
    · subst hne
      rw [hself] at hget
      cases hget
    · show Function.update m.seen slotId (some data) other = none
      rw [Function.update_of_ne (Ne.symm hne)]
      exact h.unseen other ((hother other hne).symm.trans hget)
  · by_cases hne : slotId = other
    · subst hne
      obtain rfl := Option.some.inj (hself.symm.trans hget)
      have hseen' : Function.update m.seen slotId (some data) slotId = some data' := hseen
      rw [Function.update_self] at hseen'
      obtain rfl := Option.some.inj hseen'
      exact hdata base hbase id
    · have hseen' : Function.update m.seen slotId (some data) other = some data' := hseen
      rw [Function.update_of_ne (Ne.symm hne)] at hseen'
      exact h.kept other got data' base ((hother other hne).symm.trans hget) hseen' hbase id hid

/-- a copy is replaced by one from which the same is read, but for IDs that are now among those put -/
theorem Copies.insert {m : Memo} {w : Wrbpod} (h : Copies X m w) {slotId : UInt32} {slices slices' : WrbpodSlices}
    {wrote : List (UInt32 × BitVec 128)} (hcached : w.chunks[slotId]? = some slices ∨ w.chunks[slotId]? = none)
    (hholding : WrbpodSlices.Holding X (fun _ _ => True) slices') (hsub : m.wrote ⊆ wrote)
    (hsame : ∀ id, (slotId, id) ∉ wrote → slices'.getSlice id = slices.getSlice id) :
    Copies X { m with wrote := wrote } { w with chunks := w.chunks.insert slotId slices' } := by
  refine ⟨fun other got hget => ?_, fun other hget => ?_, fun other got data base hget hseen hbase id hid v hv => ?_⟩
  · simp only [Std.ExtTreeMap.getElem?_insert] at hget
    split_ifs at hget with heq
    · obtain rfl := Option.some.inj hget
      exact hholding
    · exact h.holding other got hget
  · simp only [Std.ExtTreeMap.getElem?_insert] at hget
    split_ifs at hget with heq
    exact h.unseen other hget
  · have hid' : (other, id) ∉ m.wrote := fun hmem => hid (hsub hmem)
    simp only [Std.ExtTreeMap.getElem?_insert] at hget
    split_ifs at hget with heq
    · obtain rfl := Option.some.inj hget
      obtain rfl : slotId = other := by simpa using heq
      rcases hcached with hcached | hnone
      · rw [hsame id hid]
        exact h.kept slotId slices data base hcached hseen hbase id hid' v hv
      · rw [h.unseen slotId hnone] at hseen
        cases hseen
    · exact h.kept other got data base hget hseen hbase id hid' v hv

theorem Copies.congr {m : Memo} {w w' : Wrbpod} (h : Copies X m w) (hchunks : w'.chunks = w.chunks) :
    Copies X m w' := by
  refine ⟨fun slotId slices => ?_, fun slotId => ?_, fun slotId slices data base => ?_⟩
  · rw [hchunks]
    exact h.holding slotId slices
  · rw [hchunks]
    exact h.unseen slotId
  · rw [hchunks]
    exact h.kept slotId slices data base

/-! ## What an operation does to its client's copies -/

theorem storedSlices_eq_some {R : HonestReplica X σ} {slotId : UInt32} {s : σ} {slices : WrbpodSlices} :
    storedSlices R slotId s = some slices ↔
      ∃ data, lookup (R.view s) slotId = some data ∧ WrbpodSlices.fromSlice X data = .ok slices := by
  unfold storedSlices
  rw [Option.bind_eq_some_iff]
  constructor
  · rintro ⟨data, hdata, hslices⟩
    cases hdecode : WrbpodSlices.fromSlice X data with
    | error e => rw [hdecode] at hslices; cases hslices
    | ok slices' =>
      rw [hdecode] at hslices
      obtain rfl := Option.some.inj hslices
      exact ⟨data, hdata, hdecode⟩
  · rintro ⟨data, hdata, hdecode⟩
    exact ⟨data, hdata, by rw [hdecode]; rfl⟩

/-- no two IDs of a stored chunk share a position -/
def ExclusiveRows (R : HonestReplica X σ) (s : σ) : Prop :=
  ∀ slotId slices, storedSlices R slotId s = some slices → slices.Exclusive

theorem ExclusiveRows.holding (hC : CodecLaws X) {R : HonestReplica X σ} {s : σ} (h : ExclusiveRows R s)
    {slotId : UInt32} {slices : WrbpodSlices} (hstored : storedSlices R slotId s = some slices) :
    WrbpodSlices.Holding X (fun _ _ => True) slices := by
  obtain ⟨data, -, hdecode⟩ := storedSlices_eq_some.1 hstored
  exact ⟨WrbpodSlices.storable_of_decoded hC hdecode, h slotId slices hstored, fun _ _ _ => trivial⟩

/-- the copy is what the slot holds -/
theorem Copies.see_stored {R : HonestReplica X σ} {m : Memo} {w w' : Wrbpod} {s : σ} (h : Copies X m w)
    {slotId : UInt32} {slices : WrbpodSlices} (hstored : storedSlices R slotId s = some slices)
    (hself : w'.chunks[slotId]? = some slices)
    (hother : ∀ other : UInt32, slotId ≠ other → w'.chunks[other]? = w.chunks[other]?)
    (hholding : WrbpodSlices.Holding X (fun _ _ => True) slices) :
    Copies X { m with seen := Function.update m.seen slotId (lookup (R.view s) slotId) } w' := by
  obtain ⟨data, hdata, hdecode⟩ := storedSlices_eq_some.1 hstored
  rw [hdata]
  refine h.see hself hother hholding fun base hbase => ?_
  obtain rfl := Except.ok.inj (hdecode.symm.trans hbase)
  exact fun _ _ hv => hv

section Outcomes

variable {attempts : ℕ} {app : String} {appSlotId : UInt32} {w w' : Wrbpod} {tr : List Ev} {r : Except Error Report}

theorem outcome_run_fetchChunk (h : Outcome ((SlotOp.fetchChunk app appSlotId).run X attempts) w tr r w') :
    ∃ r', Outcome (fetchChunk X app appSlotId) w tr r' w' := by
  rcases outcome_bind.1 h with ⟨⟨version, signer⟩, w₁, t₁, t₂, rfl, h1, h2⟩ | ⟨e, -, h1⟩
  · obtain ⟨rfl, -, rfl⟩ := outcome_pure.1 h2
    rw [List.append_nil]
    exact ⟨_, h1⟩
  · exact ⟨_, h1⟩

theorem outcome_run_putSlice {id : BitVec 128} {v : Bytes}
    (h : Outcome ((SlotOp.putSlice app appSlotId id v).run X attempts) w tr r w') :
    r = .ok (.put (w.putSlice X app appSlotId id v).1) ∧ w' = (w.putSlice X app appSlotId id v).2 := by
  rw [SlotOp.run, outcome_get_bind, outcome_modify_bind] at h
  obtain ⟨-, rfl, rfl⟩ := outcome_pure.1 h
  exact ⟨rfl, rfl⟩

theorem outcome_run_syncSlot (h : Outcome ((SlotOp.syncSlot app appSlotId).run X attempts) w tr r w') :
    ∃ r', Outcome (syncSlot X attempts app appSlotId) w tr r' w' ∧ ∀ report, r = .ok report → r' = .ok () := by
  rcases outcome_bind.1 h with ⟨u, w₁, t₁, t₂, rfl, h1, h2⟩ | ⟨e, rfl, h1⟩
  · obtain ⟨rfl, -, rfl⟩ := outcome_pure.1 h2
    rw [List.append_nil]
    exact ⟨_, h1, fun _ _ => rfl⟩
  · exact ⟨_, h1, fun _ hr => nomatch hr⟩

/-- an operation puts nothing, or it is a `sync_slot` and puts the encoding of its client's copy -/
theorem only_run (op : SlotOp) (w : Wrbpod) :
    Only (fun q => isPut q = true → ∃ (slotId : UInt32) (slices : WrbpodSlices), op.slot w = some slotId ∧
      w.chunks[slotId]? = some slices ∧ PutsOnly slotId (slices.consensusSerialize X) q)
      ((op.run X attempts).prog w) := by
  cases op with
  | fetchChunk app appSlotId =>
    have hasks : Asks (fun q => isPut q = false) ((SlotOp.fetchChunk app appSlotId).run X attempts) :=
      Asks.bind (asks_fetchChunk X app appSlotId) fun _ => Asks.pure _
    exact (hasks w).mono fun q hq hput => by rw [hq] at hput; cases hput
  | putSlice app appSlotId id v => trivial
  | syncSlot app appSlotId =>
    refine Only.bind (only_syncSlot X attempts app appSlotId w) fun x => ?_
    obtain ⟨u | e, w₁⟩ := x <;> trivial

end Outcomes

section Copies

variable {R : HonestReplica X σ} {attempts : ℕ} {app : String} {appSlotId : UInt32} {w w' : Wrbpod} {tr : List Ev}
  {r : Except Error Report} {m : Memo} {s s' : σ}

theorem Copies.putSlice (h : Copies X m w) {id : BitVec 128} {v : Bytes}
    (ho : Outcome ((SlotOp.putSlice app appSlotId id v).run X attempts) w tr r w') :
    Copies X (m.note R s (.putSlice app appSlotId id v) r w') w' := by
  obtain ⟨rfl, rfl⟩ := outcome_run_putSlice ho
  rcases putSlice_cases X w app appSlotId id v with heq | ⟨slotId, slices, hslot, hcached, heq⟩
  · rw [heq]
    have hnote : m.note R s (.putSlice app appSlotId id v) (.ok (.put false)) w = m := by
      unfold Memo.note
      split <;> rfl
    rw [hnote]
    exact h
  · have hholding : WrbpodSlices.Holding X (fun _ _ => True) slices := by
      rcases hcached with hcached | ⟨-, rfl⟩
      · exact h.holding slotId slices hcached
      · exact WrbpodSlices.holding_new X _
    have hlaw : WrbpodSlices.MapLaw slices (id, v) :=
      (WrbpodSlices.mapLaw_iff slices (id, v) hholding.storable.placed).2 (hholding.exclusive.unshared (id, v))
    have hput := (hholding.put id v).mono fun _ _ _ => trivial
    have hcases := hcached.imp_right And.left
    rw [heq, Memo.note]
    simp only [SlotOp.slot, hslot]
    cases haccepted : (slices.putSlice id v).1 with
    | true =>
      refine h.insert hcases hput (List.subset_cons_self _ _) fun id' hid' => ?_
      exact hlaw.others haccepted id' fun heq => hid' (by rw [heq]; exact List.mem_cons_self)
    | false => exact h.insert hcases hput (List.Subset.refl _) fun id' _ => hlaw.refused haccepted id'

/-- a fetch replaces the copy by what the slot holds, or leaves it -/
theorem Copies.fetchChunk (hC : CodecLaws X) (h : Copies X m w) (hrows : ExclusiveRows R s)
    (ho : Outcome ((SlotOp.fetchChunk app appSlotId).run X attempts) w tr r w')
    (hlast : ∀ e ∈ tr.getLast?, (R.serve e.1 s).1 = e.2 ∧ (R.serve e.1 s).2 = s') :
    Copies X (m.note R s' (.fetchChunk app appSlotId) r w') w' := by
  obtain ⟨r', hfetch⟩ := outcome_run_fetchChunk ho
  obtain ⟨⟨hsb, -⟩, -, hfetched⟩ := fetchChunk_outcome hfetch
  rcases hfetched with ⟨hchunks, -⟩ | ⟨slotId, slices, mds, md, data, hslot, hchunks, hfrom⟩
  · have hsame := h.congr hchunks
    unfold Memo.note
    cases hslot : (SlotOp.fetchChunk app appSlotId).slot w' with
    | none => exact hsame
    | some slotId =>
      dsimp only
      split_ifs with hcopy
      · obtain ⟨slices, hslices⟩ := Option.isSome_iff_exists.1 hcopy.1
        exact hsame.see_stored (hcopy.2.trans hslices) hslices (fun _ _ => rfl) (hsame.holding slotId slices hslices)
      · exact hsame
  · -- the last call served the chunk, from the row that the slot still has
    obtain ⟨t, t', rfl, hraw⟩ := hfrom.raw
    obtain ⟨chunks, rfl, hget⟩ := hraw.trace
    obtain ⟨hanswer, rfl⟩ := hlast _ (by rw [List.getLast?_concat]; exact rfl)
    obtain rfl := R.getLatestChunks _ _ _ hanswer
    have hdata : lookup (R.view s) slotId = some data := by simpa using hget
    have hstored : storedSlices R slotId s = some slices := storedSlices_eq_some.2 ⟨data, hdata, hfrom.decoded⟩
    have hview : R.view (R.serve (.getLatestChunks [slotId]) s).2 = R.view s := R.view_read _ _ rfl
    have hself : w'.chunks[slotId]? = some slices := by rw [hchunks, Std.ExtTreeMap.getElem?_insert_self]
    have hstored' : storedSlices R slotId (R.serve (.getLatestChunks [slotId]) s).2 = some slices := by
      rw [storedSlices, hview]
      exact hstored
    have hslot' : (SlotOp.fetchChunk app appSlotId).slot w' = some slotId := by
      rw [SlotOp.slot, hsb]
      exact hslot
    have hcopy : w'.chunks[slotId]?.isSome = true ∧
        storedSlices R slotId (R.serve (.getLatestChunks [slotId]) s).2 = w'.chunks[slotId]? :=
      ⟨by rw [hself]; rfl, hstored'.trans hself.symm⟩
    rw [Memo.note, hslot']
    dsimp only
    rw [if_pos hcopy]
    refine h.see_stored hstored' hself (fun other hne => ?_) (hrows.holding hC hstored)
    rw [hchunks, Std.ExtTreeMap.getElem?_insert, if_neg (by simpa using hne)]

/-- what an accepted chunk leaves: its data in the slot, and all other slots as they were -/
theorem lookup_of_accepted (hS : SignLaws X) {c : StackerDBChunkData}
    (h : accepted ⟨.putChunk c, (R.serve (.putChunk c) s).1⟩ = true) :
    lookup (R.view (R.serve (.putChunk c) s).2) c.slotId = some c.data ∧
    ∀ other, c.slotId ≠ other → lookup (R.view (R.serve (.putChunk c) s).2) other = lookup (R.view s) other := by
  obtain ⟨hview, row, hrow, -⟩ := R.putChunk c s h
  rw [hview]
  refine ⟨HonestReplica.lookup_eq_some.2 ⟨_, storeRow_self hrow, hS.isEmpty_eq _ _ _ _, rfl⟩, fun other hne => ?_⟩
  exact HonestReplica.lookup_congr (List.getElem?_set_ne fun heq => hne (UInt32.toNat_inj.1 heq))

/-- the last call of a successful sync: the put of its client's copy, and it is accepted -/
theorem syncSlot_last (h : Outcome (Wrbpod.syncSlot X attempts app appSlotId) w tr (.ok ()) w')
    (hlast : ∀ e ∈ tr.getLast?, (R.serve e.1 s).1 = e.2 ∧ (R.serve e.1 s).2 = s') :
    ∃ (slices : WrbpodSlices) (c : StackerDBChunkData),
      w.superblock.appSlotIdToStackerdbChunkId app appSlotId = some c.slotId ∧ w.chunks[c.slotId]? = some slices ∧
      c.data = slices.consensusSerialize X ∧ (∃ a, tr.getLast? = some ⟨.putChunk c, a⟩) ∧
      accepted ⟨.putChunk c, (R.serve (.putChunk c) s).1⟩ = true ∧ (R.serve (.putChunk c) s).2 = s' ∧
      w' = { w with chunks := w.chunks.insert c.slotId (slices.setDirty false) } := by
  obtain ⟨slotId, slices, mds, puts, hslot, hslices, rfl, hputs, rfl⟩ := syncSlot_ok h
  obtain ⟨init, c, ack, rfl, hack, -⟩ := hputs.success rfl
  obtain ⟨c', a, hevent, hc, hdata, -⟩ := hputs.attempts ⟨.putChunk c, .ok ack⟩ (by simp)
  obtain rfl : c = c' := Call.putChunk.inj (congrArg Sigma.fst hevent)
  subst hc
  have hend : (⟨.listChunks, .ok mds⟩ :: (init ++ [⟨.putChunk c, .ok ack⟩]) : List Ev).getLast? =
      some ⟨.putChunk c, .ok ack⟩ := by
    rw [← List.cons_append, List.getLast?_concat]
  obtain ⟨hanswer, hstate⟩ := hlast _ hend
  have hanswer' : (R.serve (.putChunk c) s).1 = .ok ack := hanswer
  have haccepted : accepted ⟨.putChunk c, (R.serve (.putChunk c) s).1⟩ = true := by
    rw [hanswer']
    exact hack
  exact ⟨slices, c, hslot, hslices, hdata, ⟨_, hend⟩, haccepted, hstate, rfl⟩

/-- a sync stores the copy, or leaves what the client saw; marking it clean changes no slice -/
theorem Copies.syncSlot (hC : CodecLaws X) (hZ : SizeLaws X) (hS : SignLaws X) (h : Copies X m w)
    (ho : Outcome ((SlotOp.syncSlot app appSlotId).run X attempts) w tr r w')
    (hlast : ∀ e ∈ tr.getLast?, (R.serve e.1 s).1 = e.2 ∧ (R.serve e.1 s).2 = s') :
    Copies X (m.note R s' (.syncSlot app appSlotId) r w') w' := by
  obtain ⟨r', hsync, hok⟩ := outcome_run_syncSlot ho
  cases r with
  | ok report =>
    obtain rfl := hok report rfl
    obtain ⟨slices, c, hslot, hslices, hdata, -, haccepted, rfl, rfl⟩ := syncSlot_last hsync hlast
    have hholding := h.holding c.slotId slices hslices
    have hstored := (lookup_of_accepted hS haccepted).1
    rw [Memo.note]
    simp only [SlotOp.slot, hslot, hstored]
    have hself := Std.ExtTreeMap.getElem?_insert_self (t := w.chunks) (k := c.slotId) (v := slices.setDirty false)
    refine h.see hself (fun other hne => ?_) (hholding.setDirty false) fun base hbase => ?_
    · rw [Std.ExtTreeMap.getElem?_insert, if_neg (by simpa using hne)]
    · rw [hdata, WrbpodSlices.fromSlice_consensusSerialize hC hZ hholding.storable] at hbase
      obtain rfl := Except.ok.inj hbase
      exact fun _ _ hv => hv
  | error e =>
    have hnote : m.note R s' (.syncSlot app appSlotId) (.error e) w' = m := by
      unfold Memo.note
      split <;> rfl
    rw [hnote]
    cases syncSlot_synced hsync with
    | nothing tr hputs => exact h
    | puts slotId slices a puts r w' hslot hslices hputs hw =>
      rcases hw with rfl | rfl
      · exact h
      · exact h.insert (Or.inl hslices) ((h.holding slotId slices hslices).setDirty false) (List.Subset.refl _)
          fun _ _ => rfl

end Copies

/-- whatever the operation, its client's copies are right after it -/
theorem Copies.note (hC : CodecLaws X) (hZ : SizeLaws X) (hS : SignLaws X) {R : HonestReplica X σ} {attempts : ℕ}
    {w w' : Wrbpod} {tr : List Ev} {r : Except Error Report} {m : Memo} {s s' : σ} (h : Copies X m w)
    (hrows : ExclusiveRows R s) (op : SlotOp) (ho : Outcome (op.run X attempts) w tr r w')
    (hlast : ∀ e ∈ tr.getLast?, (R.serve e.1 s).1 = e.2 ∧ (R.serve e.1 s).2 = s') :
    Copies X (m.note R s' op r w') w' := by
  cases op with
  | fetchChunk app appSlotId => exact h.fetchChunk hC hrows ho hlast
  | putSlice app appSlotId id v => exact h.putSlice ho
  | syncSlot app appSlotId => exact h.syncSlot hC hZ hS ho hlast

namespace Shared

/-! ## The invariant -/

/-- every copy is right, every operation under way goes on from where its client's handle was, and no stored chunk has
two IDs at one position -/
structure Inv (R : HonestReplica X σ) (attempts : ℕ) (p : Shared σ) : Prop where
  copies : ∀ i, Copies X (p.memos i) (p.peers i).handle
  running : ∀ i op left, (p.peers i).running = some (op, left) →
    ∃ tr, Leaves ((op.run X attempts).prog (p.peers i).handle) tr left
  rows : ExclusiveRows R p.server

variable {R : HonestReplica X σ} {attempts : ℕ} {p : Shared σ}

theorem inv_opened {w : Client → Wrbpod} {s : σ} (hw : ∀ i, (w i).chunks = ∅) (hrows : ExclusiveRows R s) :
    Inv R attempts (opened w s) :=
  ⟨fun i => copies_opened (hw i), fun _ _ _ h => (nomatch h), hrows⟩

theorem Inv.proceed (hC : CodecLaws X) (hZ : SizeLaws X) (hS : SignLaws X) (h : Inv R attempts p) {i : Client}
    {op : SlotOp} {s' : σ} {left : Left} {tr : List Ev} (hrows : ExclusiveRows R s')
    (hleaves : Leaves ((op.run X attempts).prog (p.peers i).handle) tr left)
    (hlast : ∀ e ∈ tr.getLast?, (R.serve e.1 p.server).1 = e.2 ∧ (R.serve e.1 p.server).2 = s') :
    Inv R attempts (p.proceed R i op s' left) := by
  have hwaiting : Inv R attempts
      { p with server := s', peers := Function.update p.peers i ⟨(p.peers i).handle, some (op, left)⟩ } := by
    refine ⟨fun j => ?_, fun j op' left' hrunning => ?_, hrows⟩
    · by_cases hj : j = i
      · subst hj
        simp only [Function.update_self]
        exact h.copies j
      · simp only [Function.update_of_ne hj]
        exact h.copies j
    · by_cases hj : j = i
      · subst hj
        simp only [Function.update_self, Option.some.injEq, Prod.mk.injEq] at hrunning ⊢
        obtain ⟨rfl, rfl⟩ := hrunning
        exact ⟨tr, hleaves⟩
      · simp only [Function.update_of_ne hj] at hrunning ⊢
        exact h.running j op' left' hrunning
  cases left with
  | ret x =>
    obtain ⟨r, w⟩ := x
    have hnote := (h.copies i).note hC hZ hS h.rows op hleaves.yields hlast
    refine ⟨fun j => ?_, fun j op' left' hrunning => ?_, hrows⟩
    · by_cases hj : j = i
      · subst hj
        simp only [Shared.proceed, Function.update_self]
        exact hnote
      · simp only [Shared.proceed, Function.update_of_ne hj]
        exact h.copies j
    · by_cases hj : j = i
      · subst hj
        simp only [Shared.proceed, Function.update_self] at hrunning
        cases hrunning
      · simp only [Shared.proceed, Function.update_of_ne hj] at hrunning ⊢
        exact h.running j op' left' hrunning
  | spin => exact hwaiting
  | call q k => exact hwaiting

/-- a put of an operation under way carries its client's copy -/
theorem Inv.put (h : Inv R attempts p) {i : Client} {op : SlotOp} {c : StackerDBChunkData}
    {k : Answer (.putChunk c) → Left} (hrunning : (p.peers i).running = some (op, .call (.putChunk c) k)) :
    ∃ slices : WrbpodSlices, (p.peers i).handle.chunks[c.slotId]? = some slices ∧
      c.data = slices.consensusSerialize X := by
  obtain ⟨tr, hleaves⟩ := h.running i op _ hrunning
  obtain ⟨slotId, slices, -, hslices, rfl, hdata⟩ := ((only_run op _).leaves hleaves).1 rfl
  exact ⟨slices, hslices, hdata⟩

/-- what is stored was a copy -/
theorem Inv.rows_serve (hC : CodecLaws X) (hZ : SizeLaws X) (hS : SignLaws X) (h : Inv R attempts p) {i : Client}
    {op : SlotOp} {q : Call} {k : Answer q → Left} (hrunning : (p.peers i).running = some (op, .call q k)) :
    ExclusiveRows R (R.serve q p.server).2 := by
  cases haccepted : accepted ⟨q, (R.serve q p.server).1⟩ with
  | false =>
    intro slotId slices hstored
    rw [storedSlices, R.view_read q p.server haccepted] at hstored
    exact h.rows slotId slices hstored
  | true =>
    cases q with
    | putChunk c =>
      obtain ⟨slices, hslices, hdata⟩ := h.put hrunning
      obtain ⟨hself, hother⟩ := lookup_of_accepted hS haccepted
      intro slotId slices' hstored
      by_cases hne : c.slotId = slotId
      · subst hne
        have hholding := (h.copies i).holding c.slotId slices hslices
        obtain ⟨data, hlookup, hdecode⟩ := storedSlices_eq_some.1 hstored
        obtain rfl := Option.some.inj (hself.symm.trans hlookup)
        rw [hdata, WrbpodSlices.fromSlice_consensusSerialize hC hZ hholding.storable] at hdecode
        obtain rfl := Except.ok.inj hdecode
        exact hholding.exclusive
      · rw [storedSlices, hother slotId hne] at hstored
        exact h.rows slotId slices' hstored
    | getSigners => cases haccepted
    | listChunks => cases haccepted
    | getLatestChunks ids => cases haccepted

theorem step_inv (hC : CodecLaws X) (hZ : SizeLaws X) (hS : SignLaws X) (p : Shared σ) (t : Turn)
    (h : Inv R attempts p) : Inv R attempts (p.step R attempts t) := by
  cases t with
  | start i op =>
    rw [step]
    cases hrunning : (p.peers i).running with
    | some x => exact h
    | none => exact h.proceed hC hZ hS h.rows (.refl _) (by simp)
  | call i =>
    rw [step]
    cases hrunning : (p.peers i).running with
    | none => exact h
    | some x =>
      obtain ⟨op, left⟩ := x
      cases left with
      | ret y => exact h
      | spin => exact h
      | call q k =>
        obtain ⟨tr, hleaves⟩ := h.running i op _ hrunning
        refine h.proceed hC hZ hS (h.rows_serve hC hZ hS hrunning) (hleaves.snoc _) fun e he => ?_
        rw [List.getLast?_concat] at he
        obtain rfl := Option.some.inj he
        exact ⟨rfl, rfl⟩

/-! ## Syncs that keep -/

theorem server_step_call {i : Client} {op : SlotOp} {q : Call} {k : Answer q → Left}
    (hrunning : (p.peers i).running = some (op, .call q k)) :
    (p.step R attempts (.call i)).server = (R.serve q p.server).2 := by
  simp only [step, hrunning, proceed]
  split <;> rfl

/-- where client `i` ends an operation, it is along a trace whose last call is this one -/
theorem Inv.ending (h : Inv R attempts p) {i : Client} {op : SlotOp} {r : Except Error Report}
    (hending : ending R p i = some (op, r)) :
    ∃ q k tr w, (p.peers i).running = some (op, .call q k) ∧
      Outcome (op.run X attempts) (p.peers i).handle (tr ++ [⟨q, (R.serve q p.server).1⟩]) r w := by
  unfold Shared.ending at hending
  cases hrunning : (p.peers i).running with
  | none => rw [hrunning] at hending; cases hending
  | some x =>
    obtain ⟨op', left⟩ := x
    cases left with
    | ret y => rw [hrunning] at hending; cases hending
    | spin => rw [hrunning] at hending; cases hending
    | call q k =>
      simp only [hrunning] at hending
      cases hleft : k (R.serve q p.server).1 with
      | spin => rw [hleft] at hending; cases hending
      | call q' k' => rw [hleft] at hending; cases hending
      | ret y =>
        obtain ⟨r', w⟩ := y
        rw [hleft] at hending
        obtain ⟨rfl, rfl⟩ := Prod.mk.inj (Option.some.inj hending)
        obtain ⟨tr, hleaves⟩ := h.running i op' _ hrunning
        have hend := hleaves.snoc (R.serve q p.server).1
        rw [hleft] at hend
        exact ⟨q, k, tr, w, rfl, hend.yields⟩

/-- a sync that is not stale keeps what it must -/
theorem Inv.keeps (hC : CodecLaws X) (hZ : SizeLaws X) (hS : SignLaws X) (h : Inv R attempts p) (t : Turn)
    (hnot : NotStale R p t) : SyncKeeps R attempts p t := by
  cases t with
  | start i op => trivial
  | call i =>
    intro app appSlotId report hending
    obtain ⟨q, k, tr, w, hrunning, houtcome⟩ := h.ending hending
    obtain ⟨r', hsync, hok⟩ := outcome_run_syncSlot houtcome
    obtain rfl := hok report rfl
    obtain ⟨slices, c, hslot, hslices, hdata, ⟨a, hend⟩, haccepted, -, -⟩ := syncSlot_last hsync fun e he => by
      rw [List.getLast?_concat] at he
      obtain rfl := Option.some.inj he
      exact ⟨rfl, rfl⟩
    rw [List.getLast?_concat] at hend
    obtain rfl : q = .putChunk c := congrArg Sigma.fst (Option.some.inj hend)
    have hcurrent := hnot _ hrunning c rfl haccepted
    have hholding := (h.copies i).holding c.slotId slices hslices
    have hnew := WrbpodSlices.fromSlice_consensusSerialize hC hZ hholding.storable
    rw [← hdata] at hnew
    refine ⟨c.slotId, hslot, fun base hbase => ?_, hcurrent⟩
    obtain ⟨data, hlookup, hdecode⟩ := storedSlices_eq_some.1 hbase
    refine ⟨_, storedSlices_eq_some.2 ⟨c.data, ?_, hnew⟩, fun id hid v hv => ?_⟩
    · rw [server_step_call hrunning]
      exact (lookup_of_accepted hS haccepted).1
    · exact (h.copies i).kept c.slotId slices data base hslices (hcurrent data hlookup) hdecode id hid v hv

/-- **Syncs keep each other's slices.** In any run whose steps are all `NotStale`, from two wrbpods that have just been
opened: a successful `sync_slot` keeps every stored slice under an ID that its client never put, and was made from a
copy of the data that it overwrites. -/
theorem syncs_keep (hC : CodecLaws X) (hZ : SizeLaws X) (hS : SignLaws X) (R : HonestReplica X σ) (attempts : ℕ)
    (w : Client → Wrbpod) (s : σ) (hw : ∀ i, (w i).chunks = ∅) (hrows : ExclusiveRows R s) (turns : List Turn)
    (hturns : Runs.Always (step R attempts) (NotStale R) (opened w s) turns) :
    Runs.Always (step R attempts) (SyncKeeps R attempts) (opened w s) turns := by
  have hkeeps : Runs.Always (step R attempts) (fun p t => NotStale R p t → SyncKeeps R attempts p t) (opened w s)
      turns :=
    Runs.always_of_inv (fun p t hp => step_inv hC hZ hS p t hp) (fun p t hp => hp.keeps hC hZ hS t)
      (inv_opened hw hrows) turns
  exact hturns.mp hkeeps

/-! ## Two clients of one slot -/

/-- a handle whose app "a" has slot 1 -/
def appHandle : Wrbpod :=
  ⟨((WrbpodSuperblock.new [1, 2]).allocateSlots "a" 0 1).2, 7, some (List.replicate 3 (X0.p2pkh true 7)), ∅, 0⟩

/-- the operation and its calls, without a turn of the other client -/
def whole (i : Client) (op : SlotOp) (calls : ℕ) : List Turn := .start i op :: List.replicate calls (.call i)

/-- both clients look at the empty slot, and then the first one puts slice 1 and syncs -/
def firstSyncs : List Turn :=
  whole .first (.fetchChunk "a" 0) 1 ++ whole .second (.fetchChunk "a" 0) 1 ++
    whole .first (.putSlice "a" 0 1 [7]) 0 ++ whole .first (.syncSlot "a" 0) 2

/-- the second client fetches again before it puts slice 2 and syncs -/
def refetched : List Turn :=
  firstSyncs ++ whole .second (.fetchChunk "a" 0) 2 ++ whole .second (.putSlice "a" 0 2 [8]) 0 ++
    whole .second (.syncSlot "a" 0) 2

/-- the second client does not fetch again, and is about to make the put of its sync -/
def notRefetched : List Turn :=
  firstSyncs ++ whole .second (.putSlice "a" 0 2 [8]) 0 ++ whole .second (.syncSlot "a" 0) 1

theorem exclusive_threeSlots : ExclusiveRows threeSlotReplica threeSlots := by
  intro slotId slices hstored
  obtain ⟨data, hlookup, -⟩ := storedSlices_eq_some.1 hstored
  obtain ⟨row, hrow, hempty, -⟩ := HonestReplica.lookup_eq_some.1 hlookup
  have hall : ∀ row ∈ threeSlotReplica.view threeSlots, row.md.isEmpty = true := by decide +kernel
  rw [hall row (List.mem_of_getElem? hrow)] at hempty
  cases hempty

theorem syncs_keep_refetched :
    Runs.Always (step threeSlotReplica 2) (SyncKeeps threeSlotReplica 2) (opened (fun _ => appHandle) threeSlots)
      refetched :=
  syncs_keep X0_codecLaws X0_sizeLaws X0_signLaws threeSlotReplica 2 (fun _ => appHandle) threeSlots (fun _ => rfl)
    exclusive_threeSlots refetched (by decide +kernel)

/-- before the last call of the second client's sync -/
def beforeDrop : Shared (LocalStackerDB.WithSigners (List.replicate 3 (X0.p2pkh true 7))) :=
  Runs.run (step threeSlotReplica 2) (opened (fun _ => appHandle) threeSlots) notRefetched

/-- slice 1 is stored, the second client never put it, and its sync succeeds and leaves slice 2 alone in the slot -/
theorem sync_drops :
    (storedSlices threeSlotReplica 1 beforeDrop.server).map (fun slices => (slices.getSlice 1, slices.getSlice 2)) =
      some (some [7], none) ∧
    (beforeDrop.memos .second).wrote = [(1, 2)] ∧
    ending threeSlotReplica beforeDrop .second = some (.syncSlot "a" 0, .ok .synced) ∧
    (storedSlices threeSlotReplica 1 (beforeDrop.step threeSlotReplica 2 (.call .second)).server).map
      (fun slices => (slices.getSlice 1, slices.getSlice 2)) = some (none, some [8]) := by
  decide +kernel

end Shared

end Wrbpod

end Wrb.Storage
