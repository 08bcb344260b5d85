/-
Which wrbsites a load finds behind other records of the zonefile (`src/runner/site.rs`).

Records that are malformed, foreign, or not well signed are passed over with a note, and so are replicas that do not
answer. The home node's own errors are not: a record whose StackerDB the home node cannot reach, whose signers it cannot
list, or, once the record is well signed, whose replicas it cannot find, ends the load.

Results:
- `load_some_iff`: a load gives a site iff some record is offered before the home node fails;
- `resolves_iff`: every valid record leads to a site iff, where there is one, some record is offered before the home
  node fails;
- `unreachable_hides`: a record of a StackerDB that cannot be reached hides a valid record behind it.
-/
import Wrb.Runner.RoundTrip
import Wrb.Runner.Site

namespace Wrb.Runner

open Wrb.Wire Wrb.Storage Wrb.Loops

variable {X : SiteExt} {net : Network} {r : Runner} {zonefile : Bytes} {home : SocketAddr}

/-- the home node reaches the record's StackerDB, the signature is that of the signer it lists at the record's slot, and
one of the replicas it finds serves the chunk -/
def Valid (X : SiteExt) (net : Network) (home : SocketAddr) (i : ℕ) (w : WrbTxtRecordV1) : Prop :=
  ∃ client signers signer replicas j addr bytes, net.homeConnector i w.contractId home = .ok client ∧
    client.getSigners = .ok signers ∧ signers[w.slotMetadata.slotId.toNat]? = some signer ∧
    X.verify w.slotMetadata signer = .ok true ∧ client.findReplicas = .ok replicas ∧ replicas[j]? = some addr ∧
    Serves X net i w j addr bytes

/-- the home node answers all queries about the WRB TXT records before position `i` -/
def AnswersBefore (X : SiteExt) (net : Network) (home : SocketAddr) (zonefile : Bytes) (i : ℕ) : Prop :=
  ∀ k < i, ∀ v, WrbRecordAt X zonefile k v → ∀ e, ¬ HomeFails X net home k v e

/-- the record at position `i` is offered, and the home node answers about those before it -/
def OfferedInTime (X : SiteExt) (net : Network) (home : SocketAddr) (zonefile : Bytes) (i : ℕ) (w : WrbTxtRecordV1) :
    Prop :=
  WrbRecordAt X zonefile i w ∧ Offered X net home i w ∧ AnswersBefore X net home zonefile i

/-- the first record that is offered in time is the first one offered -/
theorem exists_firstOffered {i : ℕ} {w : WrbTxtRecordV1} (h : OfferedInTime X net home zonefile i w) :
    ∃ k v, FirstOffered X net home zonefile k v := by
  induction i using Nat.strong_induction_on generalizing w with
  | _ i ih =>
    obtain ⟨hat, hoffered, hanswers⟩ := h
    by_cases hearlier : ∃ k < i, ∃ v, WrbRecordAt X zonefile k v ∧ Offered X net home k v
    · obtain ⟨k, hk, v, hv, hoffered'⟩ := hearlier
      exact ih k hk ⟨hv, hoffered', fun l hl => hanswers l (hl.trans hk)⟩
    · refine ⟨i, w, hat, hoffered, fun k hk v hv => ⟨hanswers k hk v hv, fun hoffered' => ?_⟩⟩
      exact hearlier ⟨k, hk, v, hv, hoffered'⟩

/-- **A load gives a site iff some record is offered before the home node fails.** -/
theorem load_some_iff (hhome : r.resolveNode net = .ok (some home)) :
    (∃ site, wrbsiteLoadFromZonefile X net r zonefile = .ok (some site)) ↔
      ∃ i w, OfferedInTime X net home zonefile i w := by
  apply Iff.intro
  · intro h
    obtain ⟨site, hload⟩ := h
    obtain ⟨home', i, w, hhome', ⟨hat, hoffered, hpassed⟩, -⟩ := load_ok_iff.1 hload
    obtain rfl := Option.some.inj (Except.ok.inj (hhome.symm.trans hhome'))
    exact ⟨i, w, hat, hoffered, fun k hk v hv => (hpassed k hk v hv).1⟩
  · intro h
    obtain ⟨i, w, hintime⟩ := h
    obtain ⟨k, v, hfirst⟩ := exists_firstOffered hintime
    obtain ⟨replicas, hreach, j, bytes, hserves⟩ := offered_iff.1 hfirst.2.1
    exact ⟨(bytes, v.slotMetadata.slotVersion),
      load_ok_iff.2 ⟨home, k, v, hhome, hfirst, replicas, hreach, j, bytes, hserves, rfl⟩⟩

/-- a zonefile with a valid record leads to a site -/
def Resolves (X : SiteExt) (net : Network) (r : Runner) (zonefile : Bytes) : Prop :=
  ∀ home, r.resolveNode net = .ok (some home) → (∃ i w, WrbRecordAt X zonefile i w ∧ Valid X net home i w) →
    ∃ site, wrbsiteLoadFromZonefile X net r zonefile = .ok (some site)

/-- **A zonefile with a valid record leads to a site iff some record is offered before the home node fails.** -/
theorem resolves_iff (X : SiteExt) (net : Network) (r : Runner) (zonefile : Bytes) :
    Resolves X net r zonefile ↔
      ∀ home, r.resolveNode net = .ok (some home) → (∃ i w, WrbRecordAt X zonefile i w ∧ Valid X net home i w) →
        ∃ i w, OfferedInTime X net home zonefile i w := by
  apply forall_congr'
  intro home
  apply forall_congr'
  intro hhome
  rw [load_some_iff hhome]

/-! ## A StackerDB that cannot be reached -/

/-- the record's signature is that of key 7 -/
def recordOf (contract : String) : WrbTxtRecordV1 where
  contractId := ⟨⟨22, 1⟩, contract⟩
  slotMetadata := ⟨0, 1, X1.fromData siteBytes, (X1.sign 7 0 1 (X1.fromData siteBytes)).getD 0⟩

def resourceRecordOf (contract : String) : ZonefileResourceRecord :=
  wrbResourceRecord (X1.base64Encode ((WrbTxtRecord.v1 (recordOf contract)).consensusSerialize X1))

/-- the record of the site stands behind one of a StackerDB that is gone -/
def goneZonefile : Bytes :=
  asBytes (String.ofList (['\n'].intercalate
    [(resourceRecordOf "gone").toText.toList, (resourceRecordOf "site").toText.toList]))

/-- the home node cannot connect to the StackerDB that is gone, and the only replica of the other one serves the site -/
def goneNetwork : Network where
  toSocketAddrs _ _ := .ok [.v4 1 80]
  homeConnector _ contract _ :=
    if contract.name = "gone" then .error .notConnected else .ok ⟨.ok [X1.p2pkh true 7], .ok [.v4 2 80]⟩
  replicaConnector _ _ _ _ := .ok fun _ => .ok [some siteBytes]

theorem decode_goneZonefile :
    decodeZonefileRecords X1 goneZonefile = .ok [resourceRecordOf "gone", resourceRecordOf "site"] := by
  obtain ⟨hascii, hblank, -⟩ := base64_plain X1_base64Laws ((WrbTxtRecord.v1 (recordOf "gone")).consensusSerialize X1)
  obtain ⟨hascii', hblank', -⟩ := base64_plain X1_base64Laws ((WrbTxtRecord.v1 (recordOf "site")).consensusSerialize X1)
  have hline : isAsciiText (resourceRecordOf "site").toText.toList = true ∧
      '\n' ∉ (resourceRecordOf "site").toText.toList := line_toText hascii' hblank'
  have hread : decodeLine (resourceRecordOf "site").toText.toList = some (resourceRecordOf "site") :=
    decodeLine_toText hascii' hblank'
  have hdecode := @decode_embedded X1 _ hascii hblank [] [(resourceRecordOf "site").toText.toList]
    (by simpa only [List.nil_append, List.forall_mem_singleton] using hline)
  rw [List.nil_append, List.filterMap_cons_some hread] at hdecode
  exact hdecode

theorem tryFrom_resourceRecordOf {contract : String} (h : (asBytes contract).length < 256) :
    WrbTxtRecord.tryFrom X1 (resourceRecordOf contract) = .ok (.v1 (recordOf contract)) :=
  tryFrom_wrbResourceRecord X1_base64Laws (X1_fieldsRoundTrip h)

theorem load_of_returned {recs : List ZonefileResourceRecord} {outcome : Outcome}
    (hhome : r.resolveNode net = .ok (some home)) (hdecode : decodeZonefileRecords X zonefile = .ok recs)
    (hrun : run (tryRecord X net home) 0 recs [] = .returned outcome) :
    wrbsiteLoadFromZonefile X net r zonefile = outcome := by
  simp only [wrbsiteLoadFromZonefile, hhome, hdecode, hrun]

/-- the second record is valid, and the first one ends the load -/
theorem unreachable_hides :
    WrbRecordAt X1 goneZonefile 1 (recordOf "site") ∧ Valid X1 goneNetwork (.v4 1 80) 1 (recordOf "site") ∧
      wrbsiteLoadFromZonefile X1 goneNetwork siteRunner goneZonefile = .error .notConnected ∧
      ¬ Resolves X1 goneNetwork siteRunner goneZonefile := by
  have hgone := @tryFrom_resourceRecordOf "gone" (by decide +kernel)
  have hsite := @tryFrom_resourceRecordOf "site" (by decide +kernel)
  have hat : WrbRecordAt X1 goneZonefile 1 (recordOf "site") := ⟨_, _, decode_goneZonefile, rfl, hsite⟩
  have hvalid : Valid X1 goneNetwork (.v4 1 80) 1 (recordOf "site") :=
    ⟨_, [X1.p2pkh true 7], X1.p2pkh true 7, [.v4 2 80], 0, .v4 2 80, siteBytes, rfl, rfl, rfl, by decide +kernel, rfl,
      rfl, _, rfl, rfl, rfl⟩
  have hload : wrbsiteLoadFromZonefile X1 goneNetwork siteRunner goneZonefile = .error .notConnected := by
    have hround : tryRecord X1 goneNetwork (.v4 1 80) 0 (resourceRecordOf "gone") =
        .returned (.error .notConnected) := by
      rw [tryRecord_of_tryFrom hgone]
      rfl
    have hhome : siteRunner.resolveNode goneNetwork = .ok (some (.v4 1 80)) := rfl
    exact load_of_returned hhome decode_goneZonefile (run_cons_of_returned hround)
  refine ⟨hat, hvalid, hload, fun hresolves => ?_⟩
  obtain ⟨site, hsome⟩ := hresolves _ rfl ⟨1, recordOf "site", hat, hvalid⟩
  rw [hload] at hsome
  cases hsome

end Wrb.Runner
