/-
App isolation: what an app reads, over any run of one client on an honest replica.

Slices are cached and stored by StackerDB slot. An operation on the superblock gives slots to apps and takes them away;
it touches neither the cache nor the stored chunks.

Layers:
- `Session.step`: one call of the client, from its handle and the replica's state;
- `gstep`: the same, with a record of what was put for each app since its slot was last given to it. The record does not
  change the run (`gstep_fst`);
- `Inv`: the superblock is owned and saved, and what is cached or stored for an app's slot holds only what was put for
  the app. Every step that gives out clean slots only (`CleanStep`) keeps it (`step_inv`).

Results:
- `isolation`: in any run of clean steps from a `format`, an app reads only what was put for its current allocation, and
  its `sync_slot` puts nothing else;
- `leftovers_read`: a slot that is deleted and allocated again is not clean: the new app reads and stores the old one's
  slice.
-/
import Wrb.Storage.Reopen

namespace Wrb.Storage

open Wrb.Wire Wrb.Programs

namespace Wrbpod

variable {X : Ext} {σ : Type}

/-! ## Sessions -/

/-- a client and the nodes it talks to -/
structure Session (σ : Type) where
  handle : Wrbpod
  server : σ

/-- the calls of a session -/
inductive AppOp where
  | superblock (op : WrbpodSuperblock.Op)
  | fetchChunk (appName : String) (appSlotId : UInt32)
  | putSlice (appName : String) (appSlotId : UInt32) (sliceId : BitVec 128) (sliceBytes : Bytes)
  | getSlice (appName : String) (appSlotId : UInt32) (id : BitVec 128)
  | syncSlot (appName : String) (appSlotId : UInt32)

namespace Session

/-- run an action, whatever its result; an action that does not return leaves the session -/
def perform {α : Type} (R : HonestReplica X σ) (m : WrbpodM α) (p : Session σ) : Session σ :=
  match run R.serve (m.prog p.handle) p.server with
  | some ((_, w), s) => ⟨w, s⟩
  | none => p

def step (R : HonestReplica X σ) (attempts : ℕ) (p : Session σ) : AppOp → Session σ
  | .superblock op => perform R (runOp X attempts op) p
  | .fetchChunk appName appSlotId => perform R (fetchChunk X appName appSlotId) p
  | .putSlice appName appSlotId sliceId sliceBytes =>
    ⟨(p.handle.putSlice X appName appSlotId sliceId sliceBytes).2, p.server⟩
  | .getSlice _ _ _ => p
  | .syncSlot appName appSlotId => perform R (syncSlot X attempts appName appSlotId) p

/-- everything an action can do to a session: nothing, or one of its outcomes -/
theorem perform_cases {α : Type} (R : HonestReplica X σ) (m : WrbpodM α) (p : Session σ) :
    perform R m p = p ∨
    ∃ tr r w s, perform R m p = ⟨w, s⟩ ∧ Outcome m p.handle tr r w ∧ Served R.serve p.server tr s := by
  unfold perform
  cases hrun : run R.serve (m.prog p.handle) p.server with
  | none => exact Or.inl rfl
  | some x =>
    obtain ⟨⟨r, w⟩, s⟩ := x
    obtain ⟨tr, hy, hserved⟩ := run_eq_some.1 hrun
    exact Or.inr ⟨tr, r, w, s, rfl, hy, hserved⟩

end Session

/-! ## What was put for whom -/

/-- a slice that was put for an app, in one of the app's slots -/
structure PutRecord where
  appName : String
  slotId : UInt32
  sliceId : BitVec 128
  sliceBytes : Bytes
deriving DecidableEq

/-- the record of a call: an accepted `put_slice` -/
def recorded (X : Ext) (p : Session σ) : AppOp → List PutRecord
  | .putSlice appName appSlotId sliceId sliceBytes =>
    match p.handle.superblock.appSlotIdToStackerdbChunkId appName appSlotId with
    | some slotId =>
      if (p.handle.putSlice X appName appSlotId sliceId sliceBytes).1 then [⟨appName, slotId, sliceId, sliceBytes⟩]
      else []
    | none => []
  | _ => []

/-- a session with the puts for the current allocations: those of an app that loses a slot are dropped with it -/
def gstep (R : HonestReplica X σ) (attempts : ℕ) (g : Session σ × List PutRecord) (op : AppOp) :
    Session σ × List PutRecord :=
  let p := g.1.step R attempts op
  (p, (g.2.filter fun r => decide ((r.appName, r.slotId) ∈ p.handle.superblock.listed)) ++ recorded X g.1 op)

/-- the record does not change the run -/
theorem gstep_fst (R : HonestReplica X σ) (attempts : ℕ) (g : Session σ × List PutRecord) (op : AppOp) :
    (gstep R attempts g op).1 = g.1.step R attempts op := rfl

/-- the slices in the slot's stored chunk -/
def storedSlices (R : HonestReplica X σ) (slotId : UInt32) (s : σ) : Option WrbpodSlices :=
  (lookup (R.view s) slotId).bind fun data => (WrbpodSlices.fromSlice X data).toOption

/-- the slot holds no slices, neither cached nor stored -/
def Clean (R : HonestReplica X σ) (p : Session σ) (slotId : UInt32) : Prop :=
  (∀ slices ∈ p.handle.chunks[slotId]?, slices.index.isEmpty = true) ∧
  ∀ slices ∈ storedSlices R slotId p.server, slices.index.isEmpty = true

instance (R : HonestReplica X σ) (p : Session σ) (slotId : UInt32) : Decidable (Clean R p slotId) :=
  inferInstanceAs (Decidable (_ ∧ _))

/-- each slot that the call gives to an app is clean, and the superblock after it fits its format -/
def CleanStep (R : HonestReplica X σ) (attempts : ℕ) (p : Session σ) (op : AppOp) : Prop :=
  (∀ e ∈ (p.step R attempts op).handle.superblock.listed, e ∉ p.handle.superblock.listed → Clean R p e.2) ∧
  WrbpodSuperblock.Fits (p.step R attempts op).handle.superblock

instance (R : HonestReplica X σ) (attempts : ℕ) (p : Session σ) (op : AppOp) : Decidable (CleanStep R attempts p op) :=
  inferInstanceAs (Decidable (_ ∧ _))

/-! ## The invariant -/

/-- what was put for the app in one of its slots -/
def PutFor (puts : List PutRecord) (appName : String) (slotId : UInt32) (id : BitVec 128) (v : Bytes) : Prop :=
  ⟨appName, slotId, id, v⟩ ∈ puts

/-- the superblock is owned, and saved in its slot; all that is cached was built by puts; what is cached or stored for
an app's slot was put for the app -/
structure Inv (R : HonestReplica X σ) (slot : UInt32) (ids : List UInt32) (g : Session σ × List PutRecord) : Prop where
  slotId : g.1.handle.superblockSlotId = slot
  owned : WrbpodSuperblock.Owned ids g.1.handle.superblock
  saved : ∃ sb, lookup (R.view g.1.server) slot = some (sb.consensusSerialize X) ∧ WrbpodSuperblock.Owned ids sb ∧
    WrbpodSuperblock.Fits sb
  cached : ∀ (slotId : UInt32) (slices : WrbpodSlices), g.1.handle.chunks[slotId]? = some slices →
    WrbpodSlices.Holding X (fun _ _ => True) slices
  ownCached : ∀ (app : String) (slotId : UInt32), g.1.handle.superblock.Lists app slotId → ∀ slices : WrbpodSlices,
    g.1.handle.chunks[slotId]? = some slices → WrbpodSlices.Holding X (PutFor g.2 app slotId) slices
  ownStored : ∀ app slotId, g.1.handle.superblock.Lists app slotId → ∀ data slices,
    lookup (R.view g.1.server) slotId = some data → WrbpodSlices.fromSlice X data = .ok slices →
      WrbpodSlices.Holding X (PutFor g.2 app slotId) slices

variable {R : HonestReplica X σ} {attempts : ℕ} {slot : UInt32} {ids : List UInt32} {g : Session σ × List PutRecord}

/-- the records of an app's slot are kept as long as the app has it -/
theorem putFor_kept {puts : List PutRecord} {sb : WrbpodSuperblock} {app : String} {slotId : UInt32}
    (h : sb.Lists app slotId) {id : BitVec 128} {v : Bytes} (hput : PutFor puts app slotId id v) :
    PutFor (puts.filter fun r => decide ((r.appName, r.slotId) ∈ sb.listed)) app slotId id v :=
  List.mem_filter.2 ⟨hput, by simpa using WrbpodSuperblock.mem_listed.2 h⟩

/-- a new superblock, the cache and all but the superblock's slot as they were: slots that are given out were clean -/
theorem Inv.of_superblock (hslot : slot ∉ ids) (h : Inv R slot ids g) {p : Session σ}
    (hid : p.handle.superblockSlotId = slot) (hchunks : p.handle.chunks = g.1.handle.chunks)
    (howned : WrbpodSuperblock.Owned ids p.handle.superblock)
    (hsaved : ∃ sb, lookup (R.view p.server) slot = some (sb.consensusSerialize X) ∧ WrbpodSuperblock.Owned ids sb ∧
      WrbpodSuperblock.Fits sb)
    (hother : ∀ other, slot ≠ other → lookup (R.view p.server) other = lookup (R.view g.1.server) other)
    (hclean : ∀ e ∈ p.handle.superblock.listed, e ∉ g.1.handle.superblock.listed → Clean R g.1 e.2) :
    Inv R slot ids (p, g.2.filter fun r => decide ((r.appName, r.slotId) ∈ p.handle.superblock.listed)) := by
  refine ⟨hid, howned, hsaved, fun slotId slices hslices => ?_, fun app slotId hlists slices hslices => ?_,
    fun app slotId hlists data slices hdata hdecode => ?_⟩
  · rw [hchunks] at hslices
    exact h.cached slotId slices hslices
  · rw [hchunks] at hslices
    by_cases hold : (app, slotId) ∈ g.1.handle.superblock.listed
    · exact (h.ownCached app slotId (WrbpodSuperblock.mem_listed.1 hold) slices hslices).mono
        fun id v => putFor_kept hlists
    · have hempty := (hclean _ (WrbpodSuperblock.mem_listed.2 hlists) hold).1 slices hslices
      exact (h.cached slotId slices hslices).of_isEmpty hempty _
  · have hne : slot ≠ slotId := by
      rintro rfl
      exact hslot (howned.mem_ids hlists)
    have hdata' : lookup (R.view g.1.server) slotId = some data := (hother slotId hne).symm.trans hdata
    by_cases hold : (app, slotId) ∈ g.1.handle.superblock.listed
    · exact (h.ownStored app slotId (WrbpodSuperblock.mem_listed.1 hold) data slices hdata' hdecode).mono
        fun id v => putFor_kept hlists
    · refine WrbpodSlices.holding_of_decoded hdecode ?_ _
      refine (hclean _ (WrbpodSuperblock.mem_listed.2 hlists) hold).2 slices ?_
      rw [storedSlices, hdata', Option.bind_some, hdecode]
      rfl

/-- what is downloaded is the saved superblock, and the rows stay -/
theorem Inv.read (hC : CodecLaws X) (h : Inv R slot ids g) {signers : List StacksAddress} {tr : List Ev}
    {sb : WrbpodSuperblock} {s : σ} (hread : Read X g.1.handle signers tr sb)
    (hserved : Served R.serve g.1.server tr s) : WrbpodSuperblock.Owned ids sb ∧ R.view s = R.view g.1.server := by
  obtain ⟨hrow, hview⟩ := HonestReplica.readRow_of_served hserved hread
  obtain ⟨saved, hdata, howned, hfits⟩ := h.saved
  have hdecode := hrow.decoded (h.slotId.symm ▸ hdata)
  obtain rfl := WrbpodSuperblock.eq_of_fromBytes hC hfits hdecode
  exact ⟨howned, hview⟩

theorem step_superblock (hC : CodecLaws X) (hS : SignLaws X) (hids : ids.Nodup) (hslot : slot ∉ ids)
    (h : Inv R slot ids g) {op : WrbpodSuperblock.Op} (hclean : CleanStep R attempts g.1 (.superblock op)) :
    Inv R slot ids (gstep R attempts g (.superblock op)) := by
  have hrecorded : recorded X g.1 (.superblock op) = [] := rfl
  rw [gstep, hrecorded, List.append_nil]
  obtain ⟨hnew, hfits⟩ := hclean
  rcases Session.perform_cases R (runOp X attempts op) g.1 with heq | ⟨tr, r, w, s, heq, hy, hserved⟩
  · have hstep : g.1.step R attempts (.superblock op) = g.1 := heq
    rw [hstep]
    exact h.of_superblock hslot h.slotId rfl h.owned h.saved (fun _ _ => rfl) fun e he hnot => absurd he hnot
  have hstep : g.1.step R attempts (.superblock op) = ⟨w, s⟩ := heq
  rw [hstep] at hnew hfits ⊢
  cases runOp_update hy with
  | failed tr e w hsame hputs =>
    obtain ⟨hsb, hidentity, hchunks⟩ : w.superblock = g.1.handle.superblock ∧ w.identity = g.1.handle.identity ∧
        w.chunks = g.1.handle.chunks := by simpa [contents] using hsame
    have hview := HonestReplica.view_of_served hserved fun e he => accepted_of_not_isPut (hputs e he)
    refine h.of_superblock hslot ((Prod.mk.inj hidentity).2.trans h.slotId) hchunks (hsb.symm ▸ h.owned) ?_ ?_ hnew
    · rw [hview]
      exact h.saved
    · intro other _
      rw [hview]
  | refused signers sb tr hread hop =>
    obtain ⟨howned, hview⟩ := h.read hC hread hserved
    refine h.of_superblock hslot h.slotId rfl (WrbpodSuperblock.step_owned hids sb op howned) ?_ ?_ hnew
    · rw [hview]
      exact h.saved
    · intro other _
      rw [hview]
  | uploaded signers sb tr a puts r hread hop hputs =>
    obtain ⟨s₁, hserved₁, -, hserved₂⟩ := served_append.1 hserved
    obtain ⟨howned, hview⟩ := h.read hC hread hserved₁
    have hview₂ : R.view (R.serve .listChunks s₁).2 = R.view g.1.server := (R.view_read _ _ rfl).trans hview
    obtain ⟨hok, hno⟩ := HonestReplica.view_of_puts hserved₂ hputs
    rw [hview₂] at hok hno
    have howned' := WrbpodSuperblock.step_owned hids sb op howned
    by_cases hr : r = .ok ()
    · have hstored := hok hr
      rw [h.slotId] at hstored
      exact h.of_superblock hslot h.slotId rfl howned' ⟨_, hstored.lookup_self hS, howned', hfits⟩
        (fun other hne => hstored.lookup_other hne) hnew
    · refine h.of_superblock hslot h.slotId rfl howned' ?_ ?_ hnew
      · rw [hno hr]
        exact h.saved
      · intro other _
        rw [hno hr]

/-- a step that keeps the superblock, the cache and the stored data -/
theorem Inv.keep (hslot : slot ∉ ids) (h : Inv R slot ids g) {p : Session σ}
    (hsb : p.handle.superblock = g.1.handle.superblock) (hid : p.handle.superblockSlotId = g.1.handle.superblockSlotId)
    (hchunks : p.handle.chunks = g.1.handle.chunks) (hview : R.view p.server = R.view g.1.server) :
    Inv R slot ids (p, g.2.filter fun r => decide ((r.appName, r.slotId) ∈ p.handle.superblock.listed)) := by
  refine h.of_superblock hslot (hid.trans h.slotId) hchunks (hsb.symm ▸ h.owned) (hview.symm ▸ h.saved) ?_ ?_
  · intro other _
    rw [hview]
  · intro e he hnot
    rw [hsb] at he
    exact absurd he hnot

/-- more records -/
theorem Inv.mono {p : Session σ} {puts puts' : List PutRecord} (h : Inv R slot ids (p, puts)) (hsub : puts ⊆ puts') :
    Inv R slot ids (p, puts') :=
  ⟨h.slotId, h.owned, h.saved, h.cached,
    fun app slotId hlists slices hslices =>
      (h.ownCached app slotId hlists slices hslices).mono fun _ _ hput => hsub hput,
    fun app slotId hlists data slices hdata hdecode =>
      (h.ownStored app slotId hlists data slices hdata hdecode).mono fun _ _ hput => hsub hput⟩

/-- other slices of an app's slot are cached -/
theorem Inv.insert {w : Wrbpod} {s : σ} {puts : List PutRecord} (h : Inv R slot ids (⟨w, s⟩, puts)) {app : String}
    {slotId : UInt32} {slices : WrbpodSlices} (hlists : w.superblock.Lists app slotId)
    (hslices : WrbpodSlices.Holding X (PutFor puts app slotId) slices) :
    Inv R slot ids (⟨{ w with chunks := w.chunks.insert slotId slices }, s⟩, puts) := by
  refine ⟨h.slotId, h.owned, h.saved, fun slotId' slices' hget => ?_, fun app' slotId' hlists' slices' hget => ?_,
    h.ownStored⟩
  · simp only [Std.ExtTreeMap.getElem?_insert] at hget
    split_ifs at hget with heq
    · obtain rfl := Option.some.inj hget
      exact hslices.mono fun _ _ _ => trivial
    · exact h.cached slotId' slices' hget
  · simp only [Std.ExtTreeMap.getElem?_insert] at hget
    split_ifs at hget with heq
    · obtain rfl := Option.some.inj hget
      obtain rfl : slotId = slotId' := by simpa using heq
      obtain rfl : app = app' := h.owned.disjoint app app' slotId hlists hlists'
      exact hslices
    · exact h.ownCached app' slotId' hlists' slices' hget

/-- the cached slices of an app's slot are stored in it -/
theorem Inv.store (hC : CodecLaws X) (hZ : SizeLaws X) (hslot : slot ∉ ids) {w : Wrbpod} {s s' : σ}
    {puts : List PutRecord} (h : Inv R slot ids (⟨w, s⟩, puts)) {app : String} {slotId : UInt32} {slices : WrbpodSlices}
    (hlists : w.superblock.Lists app slotId) (hslices : w.chunks[slotId]? = some slices)
    (hself : lookup (R.view s') slotId = some (slices.consensusSerialize X))
    (hother : ∀ other, slotId ≠ other → lookup (R.view s') other = lookup (R.view s) other) :
    Inv R slot ids (⟨w, s'⟩, puts) := by
  have hne : slotId ≠ slot := by
    rintro rfl
    exact hslot (h.owned.mem_ids hlists)
  refine ⟨h.slotId, h.owned, ?_, h.cached, h.ownCached, fun app' slotId' hlists' data slices' hdata hdecode => ?_⟩
  · rw [hother slot hne]
    exact h.saved
  · by_cases heq : slotId = slotId'
    · subst heq
      obtain rfl : app = app' := h.owned.disjoint app app' slotId hlists hlists'
      obtain rfl := Option.some.inj (hself.symm.trans hdata)
      exact (h.ownCached app slotId hlists slices hslices).decoded hC hZ hdecode
    · exact h.ownStored app' slotId' hlists' data slices' ((hother slotId' heq).symm.trans hdata) hdecode

theorem step_fetchChunk (hslot : slot ∉ ids) (h : Inv R slot ids g) (app : String) (appSlotId : UInt32) :
    Inv R slot ids (gstep R attempts g (.fetchChunk app appSlotId)) := by
  have hrecorded : recorded X g.1 (.fetchChunk app appSlotId) = [] := rfl
  rw [gstep, hrecorded, List.append_nil]
  rcases Session.perform_cases R (fetchChunk X app appSlotId) g.1 with heq | ⟨tr, r, w, s, heq, hy, hserved⟩
  · have hstep : g.1.step R attempts (.fetchChunk app appSlotId) = g.1 := heq
    rw [hstep]
    exact h.keep hslot rfl rfl rfl rfl
  have hstep : g.1.step R attempts (.fetchChunk app appSlotId) = ⟨w, s⟩ := heq
  rw [hstep]
  obtain ⟨⟨hsb, hidentity⟩, hputs, hfetched⟩ := fetchChunk_outcome hy
  have hid := (Prod.mk.inj hidentity).2
  have hno : ∀ e ∈ tr, accepted e = false := fun e he => accepted_of_not_isPut (hputs e he)
  have hview := HonestReplica.view_of_served hserved hno
  rcases hfetched with ⟨hchunks, -⟩ | ⟨slotId, slices, mds, md, data, hchunkId, hchunks, hfrom⟩
  · exact h.keep hslot hsb hid hchunks hview
  · -- the chunk was served from the slot's row, so it holds what was put for the app
    obtain ⟨t, t', rfl, hraw⟩ := hfrom.raw
    obtain ⟨served, rfl, hget⟩ := hraw.trace
    obtain rfl := HonestReplica.chunks_of_served hserved hno (List.mem_append_right t List.mem_cons_self)
    have hdata : lookup (R.view g.1.server) slotId = some data := by simpa using hget
    have hlists := WrbpodSuperblock.lists_of_chunkId hchunkId
    have hholding := h.ownStored app slotId hlists data slices hdata hfrom.decoded
    exact (Inv.insert h hlists hholding).keep hslot hsb hid hchunks hview

theorem step_putSlice (hslot : slot ∉ ids) (h : Inv R slot ids g) (app : String) (appSlotId : UInt32)
    (id : BitVec 128) (v : Bytes) : Inv R slot ids (gstep R attempts g (.putSlice app appSlotId id v)) := by
  have hstep : g.1.step R attempts (.putSlice app appSlotId id v) =
      ⟨(g.1.handle.putSlice X app appSlotId id v).2, g.1.server⟩ := rfl
  rw [gstep, hstep]
  rcases putSlice_cases X g.1.handle app appSlotId id v with heq | ⟨slotId, slices, hchunkId, hslices, heq⟩
  · rw [heq]
    exact (h.keep hslot (p := g.1) rfl rfl rfl rfl).mono (List.subset_append_left _ _)
  · have hlists := WrbpodSuperblock.lists_of_chunkId hchunkId
    rw [heq]
    have hkeep := (h.keep hslot (p := g.1) rfl rfl rfl rfl).mono
      (List.subset_append_left _ (recorded X g.1 (.putSlice app appSlotId id v)))
    refine Inv.insert hkeep hlists ?_
    have hholding : WrbpodSlices.Holding X (PutFor g.2 app slotId) slices := by
      rcases hslices with hslices | ⟨-, rfl⟩
      · exact h.ownCached app slotId hlists slices hslices
      · exact WrbpodSlices.holding_new X _
    refine (hholding.put id v).mono fun id' v' hput => List.mem_append.2 ?_
    rcases hput with hput | ⟨haccepted, rfl, rfl⟩
    · exact Or.inl (putFor_kept hlists hput)
    · refine Or.inr ?_
      simp [recorded, hchunkId, heq, haccepted]

theorem step_syncSlot (hC : CodecLaws X) (hZ : SizeLaws X) (hS : SignLaws X) (hslot : slot ∉ ids)
    (h : Inv R slot ids g) (app : String) (appSlotId : UInt32) :
    Inv R slot ids (gstep R attempts g (.syncSlot app appSlotId)) := by
  have hrecorded : recorded X g.1 (.syncSlot app appSlotId) = [] := rfl
  rw [gstep, hrecorded, List.append_nil]
  rcases Session.perform_cases R (syncSlot X attempts app appSlotId) g.1 with heq | ⟨tr, r, w, s, heq, hy, hserved⟩
  · have hstep : g.1.step R attempts (.syncSlot app appSlotId) = g.1 := heq
    rw [hstep]
    exact h.keep hslot rfl rfl rfl rfl
  have hstep : g.1.step R attempts (.syncSlot app appSlotId) = ⟨w, s⟩ := heq
  rw [hstep]
  generalize hw₀ : g.1.handle = w₀ at hy
  cases syncSlot_synced hy with
  | nothing tr hputs =>
    have hview := HonestReplica.view_of_served hserved fun e he => accepted_of_not_isPut (hputs e he)
    subst hw₀
    exact h.keep hslot rfl rfl rfl hview
  | puts slotId slices a puts r w hchunkId hslices hputs hw =>
    subst hw₀
    obtain ⟨-, hserved'⟩ := hserved
    have hview₁ : R.view (R.serve .listChunks g.1.server).2 = R.view g.1.server := R.view_read _ _ rfl
    obtain ⟨hok, hno⟩ := HonestReplica.view_of_puts hserved' hputs
    rw [hview₁] at hok hno
    have hlists := WrbpodSuperblock.lists_of_chunkId hchunkId
    have hstored : Inv R slot ids (⟨g.1.handle, s⟩, g.2) := by
      by_cases hr : r = .ok ()
      · have hrow := hok hr
        exact Inv.store hC hZ hslot h hlists hslices (hrow.lookup_self hS) fun other hne => hrow.lookup_other hne
      · have hsame := hno hr
        refine ⟨h.slotId, h.owned, ?_, h.cached, h.ownCached, ?_⟩ <;> rw [hsame]
        · exact h.saved
        · exact h.ownStored
    rcases hw with rfl | rfl
    · exact hstored.keep hslot rfl rfl rfl rfl
    · have hholding := (h.ownCached app slotId hlists slices hslices).setDirty false
      exact (Inv.insert hstored hlists hholding).keep hslot rfl rfl rfl rfl

theorem step_inv (hC : CodecLaws X) (hZ : SizeLaws X) (hS : SignLaws X) (hids : ids.Nodup) (hslot : slot ∉ ids)
    (h : Inv R slot ids g) (op : AppOp) (hclean : CleanStep R attempts g.1 op) :
    Inv R slot ids (gstep R attempts g op) := by
  cases op with
  | superblock op => exact step_superblock hC hS hids hslot h hclean
  | fetchChunk app appSlotId => exact step_fetchChunk hslot h app appSlotId
  | putSlice app appSlotId id v => exact step_putSlice hslot h app appSlotId id v
  | getSlice app appSlotId id => exact (h.keep hslot rfl rfl rfl rfl).mono (List.subset_append_left _ _)
  | syncSlot app appSlotId => exact step_syncSlot hC hZ hS hslot h app appSlotId

/-! ## Isolation -/

/-- an app reads only what was put for it, and a `sync_slot` puts only that -/
structure Isolated (X : Ext) (attempts : ℕ) (w : Wrbpod) (puts : List PutRecord) : Prop where
  reads : ∀ app appSlotId id v, w.getSlice app appSlotId id = some v →
    ∃ slotId, w.superblock.appSlotIdToStackerdbChunkId app appSlotId = some slotId ∧ PutFor puts app slotId id v
  uploads : ∀ app appSlotId tr r w' c a, Outcome (syncSlot X attempts app appSlotId) w tr r w' →
    ⟨.putChunk c, a⟩ ∈ tr → ∃ slices, WrbpodSlices.fromSlice X c.data = .ok slices ∧
      ∀ id v, slices.getSlice id = some v → PutFor puts app c.slotId id v

theorem Inv.isolated (hC : CodecLaws X) (hZ : SizeLaws X) (h : Inv R slot ids g) :
    Isolated X attempts g.1.handle g.2 := by
  refine ⟨fun app appSlotId id v hget => ?_, fun app appSlotId tr r w' c a hy hput => ?_⟩
  · unfold getSlice at hget
    cases hchunkId : g.1.handle.superblock.appSlotIdToStackerdbChunkId app appSlotId with
    | none => simp [hchunkId] at hget
    | some slotId =>
      cases hslices : g.1.handle.chunks[slotId]? with
      | none => simp [hchunkId, hslices] at hget
      | some slices =>
        simp only [hchunkId, hslices] at hget
        have hlists := WrbpodSuperblock.lists_of_chunkId hchunkId
        exact ⟨slotId, rfl, (h.ownCached app slotId hlists slices hslices).reads id v hget⟩
  · generalize hw₀ : g.1.handle = w₀ at hy
    cases syncSlot_synced hy with
    | nothing tr hputs =>
      have := hputs _ hput
      cases this
    | puts slotId slices b puts r w hchunkId hslices hputs hw =>
      subst hw₀
      rcases List.mem_cons.1 hput with heq | hput
      · cases congrArg Sigma.fst heq
      · obtain ⟨c', a', hevent, rfl, hdata, -⟩ := hputs.attempts _ hput
        obtain rfl : c = c' := Call.putChunk.inj (congrArg Sigma.fst hevent)
        have hlists := WrbpodSuperblock.lists_of_chunkId hchunkId
        have hholding := h.ownCached app c.slotId hlists slices hslices
        have hdecode := WrbpodSlices.fromSlice_consensusSerialize hC hZ hholding.storable
        rw [← hdata] at hdecode
        refine ⟨_, hdecode, (hholding.decoded hC hZ ?_).reads⟩
        rw [← hdata]
        exact hdecode

/-- right after a `format`, no app has a slot -/
theorem format_inv (hS : SignLaws X) {key : Secp256k1PrivateKey} {w₀ w : Wrbpod} {s₀ s : σ}
    (h : R.exec (format X attempts key slot) w₀ s₀ = some ((), w, s)) (hfits : WrbpodSuperblock.Fits w.superblock) :
    ∃ ids, ids.Nodup ∧ slot ∉ ids ∧ Inv R slot ids (⟨w, s⟩, []) := by
  obtain ⟨sb, hmake, rfl, rows, hstored⟩ := format_stored h
  obtain ⟨-, ids, rfl, hids, hslot⟩ := makeSuperblock_ok hmake
  have howned := WrbpodSuperblock.owned_new ids
  refine ⟨ids, hids, hslot, rfl, howned, ⟨_, hstored.lookup_self hS, howned, hfits⟩, fun slotId slices hslices => ?_,
    fun app slotId hlists => ?_, fun app slotId hlists => ?_⟩
  · rw [Std.ExtTreeMap.getElem?_empty] at hslices
    cases hslices
  · exact absurd hlists (WrbpodSuperblock.not_lists_new ids app slotId)
  · exact absurd hlists (WrbpodSuperblock.not_lists_new ids app slotId)

/-- **App isolation.** In any run of clean steps from a `format` over an honest replica: an app reads only slices that
were put for its current allocation, and its `sync_slot` puts nothing else. -/
theorem isolation (hC : CodecLaws X) (hZ : SizeLaws X) (hS : SignLaws X) (R : HonestReplica X σ) (attempts : ℕ)
    (key : Secp256k1PrivateKey) (slot : UInt32) (w₀ w : Wrbpod) (s₀ s : σ)
    (hformat : R.exec (format X attempts key slot) w₀ s₀ = some ((), w, s))
    (hfits : WrbpodSuperblock.Fits w.superblock) (ops : List AppOp)
    (hops : Runs.Always (Session.step R attempts) (CleanStep R attempts) ⟨w, s⟩ ops) :
    (Runs.run (gstep R attempts) (⟨w, s⟩, []) ops).1 = Runs.run (Session.step R attempts) ⟨w, s⟩ ops ∧
    Isolated X attempts (Runs.run (Session.step R attempts) ⟨w, s⟩ ops).handle
      (Runs.run (gstep R attempts) (⟨w, s⟩, []) ops).2 := by
  obtain ⟨ids, hids, hslot, hinv⟩ := format_inv hS hformat hfits
  have hproj := Runs.run_proj (gstep_fst R attempts) (⟨w, s⟩, []) ops
  have hstep : ∀ g op, Inv R slot ids g → CleanStep R attempts g.1 op → Inv R slot ids (gstep R attempts g op) :=
    fun g op hg hclean => step_inv hC hZ hS hids hslot hg op hclean
  have hend := Runs.run_inv_of_always hstep hinv (Runs.always_proj (gstep_fst R attempts) hops)
  refine ⟨hproj, ?_⟩
  have hisolated : Isolated X attempts _ _ := hend.isolated hC hZ
  rwa [hproj] at hisolated

/-! ## Leftovers -/

/-- an app that puts, syncs and fetches in its own slot, and then a second app -/
def twoApps : List AppOp :=
  [.superblock (.allocate "a" 0 1), .putSlice "a" 0 5 [42], .syncSlot "a" 0, .fetchChunk "a" 0,
    .superblock (.allocate "b" 0 1), .putSlice "b" 0 5 [7], .getSlice "a" 0 5]

theorem isolation_two_apps :
    ∃ w s, threeSlotReplica.exec (format X0 2 7 0) noHandle threeSlots = some ((), w, s) ∧
      WrbpodSuperblock.Fits w.superblock ∧
      Runs.Always (Session.step threeSlotReplica 2) (CleanStep threeSlotReplica 2) ⟨w, s⟩ twoApps ∧
      (Runs.run (gstep threeSlotReplica 2) (⟨w, s⟩, []) twoApps).1 =
        Runs.run (Session.step threeSlotReplica 2) ⟨w, s⟩ twoApps ∧
      Isolated X0 2 (Runs.run (Session.step threeSlotReplica 2) ⟨w, s⟩ twoApps).handle
        (Runs.run (gstep threeSlotReplica 2) (⟨w, s⟩, []) twoApps).2 := by
  have hrun : (threeSlotReplica.exec (format X0 2 7 0) noHandle threeSlots).map (fun r =>
      decide (WrbpodSuperblock.Fits r.2.1.superblock ∧
        Runs.Always (Session.step threeSlotReplica 2) (CleanStep threeSlotReplica 2) ⟨r.2.1, r.2.2⟩ twoApps)) =
      some true := by decide +kernel
  obtain ⟨⟨_, w, s⟩, hformat, hgood⟩ := Option.map_eq_some_iff.1 hrun
  obtain ⟨hfits, hops⟩ := of_decide_eq_true hgood
  exact ⟨w, s, hformat, hfits, hops, isolation X0_codecLaws X0_sizeLaws X0_signLaws threeSlotReplica 2 7 0 noHandle w
    threeSlots s hformat hfits twoApps hops⟩

/-- an app's slot is deleted and allocated to another app -/
def reallocation : List AppOp :=
  [.superblock (.allocate "a" 0 1), .putSlice "a" 0 5 [42], .superblock (.delete "a"), .superblock (.allocate "b" 0 1)]

/-- nothing was put for "b", which reads the slice of "a", and stores it in a `sync_slot` -/
theorem leftovers_read :
    (threeSlotReplica.exec (format X0 2 7 0) noHandle threeSlots).map (fun r =>
      ((Runs.run (Session.step threeSlotReplica 2) ⟨r.2.1, r.2.2⟩ reallocation).handle.getSlice "b" 0 5,
        (Runs.run (gstep threeSlotReplica 2) (⟨r.2.1, r.2.2⟩, []) reallocation).2,
        (storedSlices threeSlotReplica 1 (Runs.run (Session.step threeSlotReplica 2) ⟨r.2.1, r.2.2⟩
          (reallocation ++ [.syncSlot "b" 0])).server).bind fun slices => slices.getSlice 5)) =
      some (some [42], [], some [42]) := by
  decide +kernel

end Wrbpod

end Wrb.Storage
