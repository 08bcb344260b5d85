/-
Reopening a wrbpod: what `open` loads after a `format` and any successful allocations and deletions, from an honest
replica.

The replica answers the i-th requested slot at position i. `download_superblock` requests one slot, its own, and then
looks at the position that is the slot's number.

Results:
- `Saved`: the row of the superblock's slot holds the encoding of the handle's superblock, signed for the slot by the
  handle's key. `format` establishes it (`format_saved`), every successful operation keeps it (`opStep_saved`);
- `reopen_iff`: `open` succeeds and loads the superblock last uploaded if and only if the superblock's slot is slot 0
  and that superblock is readable;
- `slot_two_lost`: a wrbpod formatted in slot 2 cannot be opened.
-/
import Wrb.Storage.Mock

namespace Wrb.Storage

open Wrb.Programs

namespace Wrbpod

variable {X : Ext} {σ : Type}

/-- an operation on a wrbpod over `R`: the handle and the replica's state after it, if it succeeds -/
def opStep (R : HonestReplica X σ) (attempts : ℕ) (p : Wrbpod × σ) (op : WrbpodSuperblock.Op) : Option (Wrbpod × σ) :=
  match R.exec (runOp X attempts op) p.1 p.2 with
  | some (true, w, s) => some (w, s)
  | _ => none

/-- operations one after another, each of them a success -/
def runOps (R : HonestReplica X σ) (attempts : ℕ) (ops : List WrbpodSuperblock.Op) (p : Wrbpod × σ) :
    Option (Wrbpod × σ) :=
  ops.foldlM (opStep R attempts) p

/-- the slot's row holds the encoding of the handle's superblock, signed for the slot by the handle's key -/
structure Saved (R : HonestReplica X σ) (key : Secp256k1PrivateKey) (slot : UInt32) (w : Wrbpod) (s : σ) : Prop where
  identity : w.identity = (key, slot)
  row : ∃ version sig, X.sign key slot version (X.fromData (w.superblock.consensusSerialize X)) = some sig ∧
    (R.view s)[slot.toNat]? = some ⟨⟨slot, version, X.fromData (w.superblock.consensusSerialize X), sig⟩,
      w.superblock.consensusSerialize X⟩

variable {R : HonestReplica X σ} {attempts : ℕ} {key : Secp256k1PrivateKey} {slot : UInt32}

/-- a `format` that succeeds makes a handle over a new superblock and stores it -/
theorem format_stored {w w' : Wrbpod} {s s' : σ}
    (h : R.exec (format X attempts key slot) w s = some ((), w', s')) :
    ∃ sb, makeSuperblock X slot R.signers key = .ok sb ∧ w' = ⟨sb, key, some R.signers, ∅, slot⟩ ∧
      ∃ rows, HonestReplica.Stored X key slot (sb.consensusSerialize X) rows (R.view s') := by
  obtain ⟨tr, hy, hserved⟩ := R.exec_eq_some.1 h
  obtain ⟨signers, sb, a, puts, rfl, hmake, rfl, hputs⟩ := format_ok hy
  obtain rfl := HonestReplica.signers_of_served hserved List.mem_cons_self
  obtain ⟨-, -, hlast⟩ := hserved
  exact ⟨sb, hmake, rfl, _, (HonestReplica.view_of_puts hlast hputs).1 rfl⟩

theorem format_saved {w w' : Wrbpod} {s s' : σ}
    (h : R.exec (format X attempts key slot) w s = some ((), w', s')) :
    Saved R key slot w' s' ∧ makeSuperblock X slot R.signers key = .ok w'.superblock := by
  obtain ⟨sb, hmake, rfl, rows, hstored⟩ := format_stored h
  obtain ⟨version, sig, hsig, hrow⟩ := hstored.row_self
  exact ⟨⟨rfl, version, sig, hsig, hrow⟩, hmake⟩

theorem opStep_saved {op : WrbpodSuperblock.Op} {p p' : Wrbpod × σ} (h : opStep R attempts p op = some p')
    (hp : Saved R key slot p.1 p.2) : Saved R key slot p'.1 p'.2 := by
  obtain ⟨w, s⟩ := p
  obtain ⟨hkey, hslot⟩ := Prod.mk.inj hp.identity
  subst hkey hslot
  unfold opStep at h
  split at h
  swap
  · cases h
  next w' s' hrun =>
  obtain rfl := Option.some.inj h
  obtain ⟨tr, hy, hserved⟩ := R.exec_eq_some.1 hrun
  have hupdate := runOp_update hy
  generalize hr : (Except.ok true : Except Error Bool) = r at hupdate
  cases hupdate with
  | failed tr e w' hsame hputs => cases hr
  | refused signers sb tr hread hop => cases hr
  | uploaded signers sb tr a puts r hread hop hputs =>
    obtain rfl : r = .ok () := by
      cases r with
      | ok u => rfl
      | error e => cases hr
    obtain ⟨s₁, -, -, hlast⟩ := served_append.1 hserved
    obtain ⟨version, sig, hsig, hrow⟩ := ((HonestReplica.view_of_puts hlast hputs).1 rfl).row_self
    exact ⟨rfl, version, sig, hsig, hrow⟩

theorem runOps_saved {ops : List WrbpodSuperblock.Op} {p p' : Wrbpod × σ} (h : runOps R attempts ops p = some p')
    (hp : Saved R key slot p.1 p.2) : Saved R key slot p'.1 p'.2 := by
  induction ops generalizing p with
  | nil =>
    obtain rfl := Option.some.inj h
    exact hp
  | cons op ops ih =>
    obtain ⟨p₁, h1, h2⟩ := Option.bind_eq_some_iff.1 h
    exact ih h2 (opStep_saved h1 hp)

/-- a superblock opened from a saved slot is the saved one; the slot is slot 0 and its data was accepted -/
theorem eq_of_open (hC : CodecLaws X) (hS : SignLaws X) {w w₀ wo : Wrbpod} {s so : σ} (h : Saved R key slot w s)
    (hopen : R.exec («open» X key slot) w₀ s = some ((), wo, so))
    (heq : wo.superblock = w.superblock) : slot = 0 ∧ WrbpodSuperblock.Readable w.superblock := by
  obtain ⟨tr, hy, hserved⟩ := R.exec_eq_some.1 hopen
  obtain ⟨signers, sb, t, rfl, rfl, hread⟩ := open_ok hy
  obtain ⟨-, hserved'⟩ := hserved
  have hview : R.view (R.serve .getSigners s).2 = R.view s := R.view_read _ _ rfl
  obtain ⟨⟨row, hrow, hcases⟩, -⟩ := HonestReplica.readRow_of_served hserved' hread
  rw [hview] at hrow
  obtain ⟨version, sig, -, hsaved⟩ := h.row
  obtain rfl := Option.some.inj (hsaved.symm.trans hrow)
  rcases hcases with ⟨hempty, -⟩ | ⟨-, hslot, hdecode⟩
  · rw [hS.isEmpty_eq] at hempty
    cases hempty
  · have hsb : sb = w.superblock := heq
    subst hsb
    exact ⟨hslot, WrbpodSuperblock.readable_of_fromBytes hC hdecode⟩

/-- a readable superblock saved in slot 0 is opened -/
theorem open_saved (hC : CodecLaws X) (hS : SignLaws X) (hR : R.Live) {w : Wrbpod} {s : σ} (h : Saved R key 0 w s)
    (hsigner : ∃ signer, R.signers[(0 : UInt32).toNat]? = some signer ∧ signer.bytes = (X.p2pkh true key).bytes)
    (hread : WrbpodSuperblock.Readable w.superblock) (w₀ : Wrbpod) :
    ∃ wo so, R.exec («open» X key 0) w₀ s = some ((), wo, so) ∧ wo.superblock = w.superblock := by
  obtain ⟨version, sig, hsig, hrow⟩ := h.row
  obtain ⟨signer, hsigner, hbytes⟩ := hsigner
  -- the three calls of `open`, each answered
  obtain ⟨signers, h1⟩ := hR.getSigners s
  obtain rfl := R.getSigners s signers h1
  have hview1 : R.view (R.serve .getSigners s).2 = R.view s := R.view_read _ _ rfl
  generalize hs₁ : (R.serve .getSigners s).2 = s₁ at hview1
  obtain ⟨mds, h2⟩ := hR.listChunks s₁
  obtain rfl := R.listChunks s₁ mds h2
  have hview2 : R.view (R.serve .listChunks s₁).2 = R.view s₁ := R.view_read _ _ rfl
  generalize hs₂ : (R.serve .listChunks s₁).2 = s₂ at hview2
  obtain ⟨chunks, h3⟩ := hR.getLatestChunks [0] s₂
  obtain rfl := R.getLatestChunks [0] s₂ chunks h3
  rw [← hview1, ← hview2] at hrow
  have hmd : ((R.view s₁).map Row.md)[(0 : UInt32).toNat]? =
      some ⟨0, version, X.fromData (w.superblock.consensusSerialize X), sig⟩ := by
    rw [← hview2, List.getElem?_map, hrow]
    rfl
  have hchunk : ([0].map (lookup (R.view s₂)))[(0 : UInt32).toNat]? =
      some (some (w.superblock.consensusSerialize X)) := by
    have hlookup : lookup (R.view s₂) 0 = some (w.superblock.consensusSerialize X) :=
      HonestReplica.lookup_eq_some.2 ⟨_, hrow, hS.isEmpty_eq _ _ _ _, rfl⟩
    rw [List.map_cons, hlookup]
    rfl
  have hyields := open_of_stored key w₀ hmd (hS.isEmpty_eq _ _ _ _) hsigner
    (hS.verify_sign key 0 version _ sig signer hsig hbytes) hchunk rfl
    (WrbpodSuperblock.fromBytes_consensusSerialize hC hread.encodable hread.sized)
  refine ⟨_, (R.serve (.getLatestChunks [0]) s₂).2, R.exec_eq_some.2 ⟨_, hyields, h1, ?_⟩, rfl⟩
  subst hs₁ hs₂
  exact ⟨h2, h3, rfl⟩

/-- **Reopening.** After a `format` and any successful operations over an honest replica, `open` with the same slot
succeeds and loads the superblock last uploaded if and only if the slot is slot 0 and that superblock is readable. -/
theorem reopen_iff (hC : CodecLaws X) (hS : SignLaws X) (R : HonestReplica X σ) (hR : R.Live) (attempts : ℕ)
    (key : Secp256k1PrivateKey) (slot : UInt32) (w₀ wf : Wrbpod) (s₀ sf : σ)
    (hformat : R.exec (format X attempts key slot) w₀ s₀ = some ((), wf, sf))
    (ops : List WrbpodSuperblock.Op) (w : Wrbpod) (s : σ) (hops : runOps R attempts ops (wf, sf) = some (w, s))
    (w₁ : Wrbpod) :
    (∃ wo so, R.exec («open» X key slot) w₁ s = some ((), wo, so) ∧ wo.superblock = w.superblock) ↔
      slot = 0 ∧ WrbpodSuperblock.Readable w.superblock := by
  obtain ⟨hsaved, hmake⟩ := format_saved hformat
  replace hsaved := runOps_saved hops hsaved
  constructor
  · rintro ⟨wo, so, hopen, heq⟩
    exact eq_of_open hC hS hsaved hopen heq
  · rintro ⟨rfl, hread⟩
    exact open_saved hC hS hR hsaved (makeSuperblock_ok hmake).1 hread w₁

/-! ## A wrbpod in slot 2 -/

/-- a StackerDB of three slots, all of one key -/
def threeSlots : LocalStackerDB.WithSigners (List.replicate 3 (X0.p2pkh true 7)) :=
  ⟨.create 3 true [⟨X0.p2pkh true 7, 3⟩], by decide⟩

abbrev threeSlotReplica : HonestReplica X0 (LocalStackerDB.WithSigners (List.replicate 3 (X0.p2pkh true 7))) :=
  LocalStackerDB.localReplica X0 _

def noHandle : Wrbpod := ⟨.empty, 0, none, ∅, 0⟩

/-- formatted in slot 0, with one allocation after that -/
theorem reopen_slot_zero :
    CodecLaws X0 ∧ SignLaws X0 ∧ threeSlotReplica.Live ∧ ∃ wf sf w s,
      threeSlotReplica.exec (format X0 2 7 0) noHandle threeSlots = some ((), wf, sf) ∧
      runOps threeSlotReplica 2 [.allocate "a" 0 1] (wf, sf) = some (w, s) ∧
      ((∃ wo so, threeSlotReplica.exec («open» X0 7 0) noHandle s = some ((), wo, so) ∧
          wo.superblock = w.superblock) ↔
        (0 : UInt32) = 0 ∧ WrbpodSuperblock.Readable w.superblock) := by
  have hlive := LocalStackerDB.localReplica_live X0 (List.replicate 3 (X0.p2pkh true 7))
  have hrun : ((threeSlotReplica.exec (format X0 2 7 0) noHandle threeSlots).bind fun r =>
      runOps threeSlotReplica 2 [.allocate "a" 0 1] r.2).isSome = true := by decide +kernel
  obtain ⟨⟨w, s⟩, h⟩ := Option.isSome_iff_exists.1 hrun
  obtain ⟨⟨_, wf, sf⟩, hformat, hops⟩ := Option.bind_eq_some_iff.1 h
  exact ⟨X0_codecLaws, X0_signLaws, hlive, wf, sf, w, s, hformat, hops, reopen_iff X0_codecLaws X0_signLaws
    threeSlotReplica hlive 2 7 0 noHandle wf threeSlots sf hformat [.allocate "a" 0 1] w s hops noHandle⟩

/-- formatted in slot 2, which the key owns, the wrbpod cannot be opened -/
theorem slot_two_lost :
    makeSuperblock X0 2 threeSlotReplica.signers 7 = .ok (.new [0, 1]) ∧
    ((threeSlotReplica.exec (format X0 2 7 2) noHandle threeSlots).map fun r =>
      (run threeSlotReplica.serve ((«open» X0 7 2).prog noHandle) r.2.2).map fun o => o.1.1) =
      some (some (.error .noSuchChunk)) := by
  decide +kernel

end Wrbpod

end Wrb.Storage
