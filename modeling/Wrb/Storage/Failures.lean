/-
What a failed `allocate_slots` or `delete_slots` leaves in the client (`src/storage/wrbpod.rs`).

The call downloads the superblock, changes the local copy and uploads it. A failed download leaves the copy as it was. A
failed upload leaves it changed, while nothing was stored: the change is not taken back.

Results:
- `Records`: the superblock that the replica records for a handle; it records one at most (`Records.unique`);
- `runOp_error`: a call that fails, fails in its download or in its upload;
- `failed_records_iff`: after a failed call the client has the recorded superblock iff the call was harmless: the
  download failed over the recorded superblock, or the operation changes nothing in it;
- `failed_allocation_stays`: a slot that stays allocated in the client after its upload failed.
-/
import Wrb.Storage.Reopen

namespace Wrb.Storage.Wrbpod

open Wrb.Wire Wrb.Programs

variable {X : Ext} {σ : Type} {R : HonestReplica X σ} {w w' : Wrbpod} {s s' : σ}

/-- the superblock that the row of the handle's slot records: what its data says, or a new one while the row is empty -/
def Records (R : HonestReplica X σ) (w : Wrbpod) (s : σ) (sb : WrbpodSuperblock) : Prop :=
  ∃ row, (R.view s)[w.superblockSlotIndex]? = some row ∧
    ((row.md.isEmpty = true ∧ makeSuperblock X w.superblockSlotId (R.known w) w.privkey = .ok sb) ∨
      (row.md.isEmpty = false ∧ WrbpodSuperblock.fromBytes X row.data = .ok sb))

theorem Records.unique {sb sb' : WrbpodSuperblock} (h : Records R w s sb) (h' : Records R w s sb') : sb = sb' := by
  obtain ⟨row, hrow, hcases⟩ := h
  obtain ⟨row', hrow', hcases'⟩ := h'
  obtain rfl := Option.some.inj (hrow.symm.trans hrow')
  cases hcases with
  | inl hnew =>
    cases hcases' with
    | inl hnew' => exact Except.ok.inj (hnew.2.symm.trans hnew'.2)
    | inr hdata => simp [hnew.1] at hdata
  | inr hdata =>
    cases hcases' with
    | inl hnew => simp [hdata.1] at hnew
    | inr hdata' => exact Except.ok.inj (hdata.2.symm.trans hdata'.2)

theorem Records.congr {sb : WrbpodSuperblock} (h : Records R w s sb) (hview : R.view s' = R.view s) :
    Records R w s' sb := by
  unfold Records
  rwa [hview]

/-- what is downloaded is the recorded superblock -/
theorem records_of_read {signers : List StacksAddress} {tr : List Ev} {sb : WrbpodSuperblock}
    (hread : Read X w signers tr sb) (hserved : Served R.serve s tr s') :
    Records R w s sb ∧ R.view s' = R.view s := by
  obtain ⟨⟨row, hrow, hcases⟩, hview⟩ := HonestReplica.readRow_of_served hserved hread
  have hknown : ∀ t, SignersTrace w t signers → (∀ e ∈ t, e ∈ tr) → signers = R.known w := by
    intro t ht hsub
    apply HonestReplica.known_of_trace ht
    intro answer hanswer
    exact HonestReplica.signers_of_served hserved (hsub _ hanswer)
  have hsigners : signers = R.known w := by
    cases hread with
    | fresh mds md t sb hmd hempty hmake ht => exact hknown t ht fun e he => List.mem_cons_of_mem _ he
    | stored mds md t signer chunks data sb hmd hempty hsigner hverify hchunk hhash hdecode ht =>
      exact hknown t ht fun e he => List.mem_cons_of_mem _ (List.mem_append_left _ he)
  refine ⟨⟨row, hrow, ?_⟩, hview⟩
  rw [← hsigners]
  cases hcases with
  | inl hnew => exact Or.inl hnew
  | inr hdata => exact Or.inr ⟨hdata.1, hdata.2.2⟩

/-- a failed upload stores nothing -/
theorem uploadSuperblock_error {attempts : ℕ} {tr : List Ev} {e : Error}
    (h : Outcome (uploadSuperblock X attempts) w tr (.error e) w') : w' = w ∧ ∀ ev ∈ tr, accepted ev = false := by
  obtain ⟨hw, a, puts, rfl, hputs⟩ := uploadSuperblock_puts h
  refine ⟨hw, fun ev hev => ?_⟩
  cases List.mem_cons.1 hev with
  | inl hlist =>
    rw [hlist]
    rfl
  | inr hput => exact hputs.failure (by simp) ev hput

/-- **A call that fails, fails in its download or in its upload.** In between, the local copy was changed. -/
theorem runOp_error {attempts : ℕ} {op : WrbpodSuperblock.Op} {tr : List Ev} {e : Error}
    (h : Outcome (runOp X attempts op) w tr (.error e) w') :
    Outcome (downloadSuperblock X) w tr (.error e) w' ∨
      ∃ w₁ t₁ t₂, tr = t₁ ++ t₂ ∧ Outcome (downloadSuperblock X) w t₁ (.ok ()) w₁ ∧
        w' = { w₁ with superblock := (op.apply w₁.superblock).2 } ∧ ∀ ev ∈ t₂, accepted ev = false := by
  cases op with
  | allocate app hash n =>
    rw [runOp, allocateSlots, outcome_bind] at h
    rcases h with ⟨_, w₁, t₁, t₂, rfl, h1, h⟩ | ⟨e', he, h1⟩
    swap
    · obtain rfl := Except.error.inj he
      exact Or.inl h1
    refine Or.inr ⟨w₁, t₁, t₂, rfl, h1, ?_⟩
    rw [outcome_get_bind, outcome_modify_bind] at h
    cases hop : (w₁.superblock.allocateSlots app hash n).1 with
    | false =>
      -- a refused allocation is no error
      simp only [hop, Bool.false_eq_true, if_false] at h
      simpa using outcome_pure.1 h
    | true =>
      simp only [hop, if_true] at h
      rw [outcome_bind] at h
      rcases h with ⟨_, w₄, t, t₅, rfl, h2, h⟩ | ⟨e', he, h2⟩
      · simpa using outcome_pure.1 h
      · exact uploadSuperblock_error h2
  | delete app =>
    rw [runOp, outcome_bind] at h
    rcases h with ⟨_, w₄, t, t₅, rfl, h2, h⟩ | ⟨e', he, h⟩
    · simpa using outcome_pure.1 h
    obtain rfl := Except.error.inj he
    rw [deleteSlots, outcome_bind] at h
    rcases h with ⟨_, w₁, t₁, t₂, rfl, h1, h⟩ | ⟨e', he', h1⟩
    swap
    · obtain rfl := Except.error.inj he'
      exact Or.inl h1
    rw [outcome_modify_bind] at h
    exact Or.inr ⟨w₁, t₁, t₂, rfl, h1, uploadSuperblock_error h⟩

/-! ## After a failed call -/

/-- the download of the superblock succeeds -/
def Downloads (R : HonestReplica X σ) (w : Wrbpod) (s : σ) : Prop :=
  ∃ w₁ s₁, R.exec (downloadSuperblock X) w s = some ((), w₁, s₁)

/-- an operation whose failure does no harm: where the download succeeds, it changes nothing in the recorded superblock,
and where the download fails, the client has the recorded one -/
structure Harmless (R : HonestReplica X σ) (w : Wrbpod) (s : σ) (op : WrbpodSuperblock.Op) : Prop where
  changes_nothing : Downloads R w s → ∀ sb, Records R w s sb → (op.apply sb).2 = sb
  up_to_date : ¬ Downloads R w s → Records R w s w.superblock

/-- **After a failed call the client has the recorded superblock iff the call was harmless.** -/
theorem failed_records_iff {attempts : ℕ} {op : WrbpodSuperblock.Op} {e : Error}
    (h : run R.serve ((runOp X attempts op).prog w) s = some ((.error e, w'), s')) :
    Records R w s' w'.superblock ↔ Harmless R w s op := by
  obtain ⟨tr, hy, hserved⟩ := run_eq_some.1 h
  cases runOp_error hy with
  | inl hfailed =>
    have hnot : ¬ Downloads R w s := by
      intro hdown
      obtain ⟨w₁, s₁, hexec⟩ := hdown
      obtain ⟨tr₁, h1, hserved₁⟩ := R.exec_eq_some.1 hexec
      have hrun₁ := run_eq_some.2 ⟨tr₁, h1, hserved₁⟩
      rw [run_eq_some.2 ⟨tr, hfailed, hserved⟩] at hrun₁
      cases hrun₁
    obtain ⟨hsame, hputs⟩ := downloadSuperblock_error hfailed
    have hview : R.view s' = R.view s :=
      HonestReplica.view_of_served hserved fun ev hev => accepted_of_not_isPut (hputs ev hev)
    have hsb : w'.superblock = w.superblock := congrArg Prod.fst hsame
    rw [hsb]
    apply Iff.intro
    · intro hrec
      exact ⟨fun hdown => absurd hdown hnot, fun _ => hrec.congr hview.symm⟩
    · intro hharmless
      exact (hharmless.up_to_date hnot).congr hview
  | inr hfailed =>
    obtain ⟨w₁, t₁, t₂, rfl, h1, rfl, hputs⟩ := hfailed
    obtain ⟨s₁, hserved₁, hserved₂⟩ := served_append.1 hserved
    have hdown : Downloads R w s := ⟨w₁, s₁, R.exec_eq_some.2 ⟨t₁, h1, hserved₁⟩⟩
    obtain ⟨signers, sb, rfl, hread⟩ := downloadSuperblock_ok h1
    obtain ⟨hrec, hview₁⟩ := records_of_read hread hserved₁
    have hview : R.view s' = R.view s := (HonestReplica.view_of_served hserved₂ hputs).trans hview₁
    apply Iff.intro
    · intro hrec'
      refine ⟨fun _ sb' hsb' => ?_, fun hnot => absurd hdown hnot⟩
      rw [hsb'.unique hrec]
      exact (hrec'.congr hview.symm).unique hrec
    · intro hharmless
      have hsame : (op.apply sb).2 = sb := hharmless.changes_nothing hdown sb hrec
      change Records R w s' (op.apply sb).2
      rw [hsame]
      exact hrec.congr hview

/-! ## A failed allocation -/

/-- the three slots, while no chunk can be put -/
def downReplica : HonestReplica X0 (LocalStackerDB.WithSigners (List.replicate 3 (X0.p2pkh true 7))) where
  serve
    | .putChunk _, db => (.error .notConnected, db)
    | .getSigners, db => threeSlotReplica.serve .getSigners db
    | .listChunks, db => threeSlotReplica.serve .listChunks db
    | .getLatestChunks slotIds, db => threeSlotReplica.serve (.getLatestChunks slotIds) db
  view := threeSlotReplica.view
  signers := threeSlotReplica.signers
  view_read q db h := by
    cases q with
    | putChunk chunk => rfl
    | _ => rfl
  getSigners := threeSlotReplica.getSigners
  listChunks := threeSlotReplica.listChunks
  getLatestChunks := threeSlotReplica.getLatestChunks
  putChunk _ _ h := by simp [accepted] at h

/-- an app without slots is deleted, and the upload fails -/
theorem failed_records_iff_delete : ∃ w s w' s',
    threeSlotReplica.exec (format X0 2 7 0) noHandle threeSlots = some ((), w, s) ∧
      run downReplica.serve ((runOp X0 2 (.delete "a")).prog w) s =
        some ((.error (.runtime .notConnected), w'), s') ∧
      (Records downReplica w s' w'.superblock ↔ Harmless downReplica w s (.delete "a")) := by
  have hrun : ((threeSlotReplica.exec (format X0 2 7 0) noHandle threeSlots).bind fun r =>
      (run downReplica.serve ((runOp X0 2 (.delete "a")).prog r.2.1) r.2.2).map fun o =>
        decide (o.1.1 = .error (.runtime .notConnected))) = some true := by decide +kernel
  obtain ⟨⟨_, w, s⟩, hformat, hcall⟩ := Option.bind_eq_some_iff.1 hrun
  obtain ⟨⟨⟨r, w'⟩, s'⟩, hcall, hr⟩ := Option.map_eq_some_iff.1 hcall
  have hr' : r = .error (.runtime .notConnected) := of_decide_eq_true hr
  subst hr'
  exact ⟨w, s, w', s', hformat, hcall, failed_records_iff hcall⟩

/-- the upload fails, and the client reports a slot for the app all the same, of which the replica records nothing -/
theorem failed_allocation_stays : ∃ w s w' s',
    threeSlotReplica.exec (format X0 2 7 0) noHandle threeSlots = some ((), w, s) ∧
      run downReplica.serve ((allocateSlots X0 2 "a" 0 1).prog w) s =
        some ((.error (.runtime .notConnected), w'), s') ∧
      w'.getNumSlots "a" = 1 ∧ w'.appSlotIdToStackerdbChunkId "a" 0 = some 1 ∧
      Records downReplica w s' w.superblock ∧ w.getNumSlots "a" = 0 ∧ ¬ Records downReplica w s' w'.superblock := by
  have hrun : ((threeSlotReplica.exec (format X0 2 7 0) noHandle threeSlots).bind fun r =>
      (run downReplica.serve ((allocateSlots X0 2 "a" 0 1).prog r.2.1) r.2.2).map fun o =>
        decide (o.1.1 = .error (.runtime .notConnected) ∧ o.1.2.getNumSlots "a" = 1 ∧
          o.1.2.appSlotIdToStackerdbChunkId "a" 0 = some 1 ∧ r.2.1.getNumSlots "a" = 0 ∧
          ((downReplica.view o.2)[r.2.1.superblockSlotIndex]?.any fun row =>
            !row.md.isEmpty && decide (WrbpodSuperblock.fromBytes X0 row.data = .ok r.2.1.superblock)) = true)) =
      some true := by decide +kernel
  obtain ⟨⟨_, w, s⟩, hformat, hcall⟩ := Option.bind_eq_some_iff.1 hrun
  obtain ⟨⟨⟨r, w'⟩, s'⟩, hcall, hgood⟩ := Option.map_eq_some_iff.1 hcall
  obtain ⟨hr, hnum', hchunk', hnum, hrow⟩ := of_decide_eq_true hgood
  obtain ⟨row, hrow, hdata⟩ := (Option.any_eq_true _ _).1 hrow
  rw [Bool.and_eq_true, Bool.not_eq_true', decide_eq_true_eq] at hdata
  have hrecords : Records downReplica w s' w.superblock := ⟨row, hrow, Or.inr hdata⟩
  have hr' : r = .error (.runtime .notConnected) := hr
  subst hr'
  refine ⟨w, s, w', s', hformat, hcall, hnum', hchunk', hrecords, hnum, fun hrecords' => ?_⟩
  have hsame : w'.superblock = w.superblock := hrecords'.unique hrecords
  have hnums : w'.getNumSlots "a" = w.getNumSlots "a" := congrArg (fun sb => sb.numAppSlots "a") hsame
  have hone : w'.getNumSlots "a" = 1 := hnum'
  have hzero : w.getNumSlots "a" = 0 := hnum
  omega

end Wrb.Storage.Wrbpod
