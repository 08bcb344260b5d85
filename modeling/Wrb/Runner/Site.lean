/-
Loading a wrbsite from the zonefile of a BNS name (`src/runner/site.rs`).

For each WRB TXT record in turn, the home node is asked for the signers and the replicas of the record's StackerDB, the
record's signature is checked against the signer of its slot, and the replicas are asked for the chunk that the record
names by version and hash. The load ends with the first chunk of that hash.

The check asks `SlotMetadata::verify` for an error only: the answer `false`, a well-formed signature by another key, is
let through like `true`.

Results:
- `tryWrbRecord_goesOn_iff`, `tryWrbRecord_ok_iff`: what one round of the record loop does, from the nodes' answers;
- `load_ok_iff`: a load gives what the first record offered by the nodes names;
- `authenticated_iff`: everything that is loaded is backed by an authentic record of the zonefile iff the first offered
  record is not forged, or has an authentic twin;
- `forged_site_loads`: a site signed by a key that is not the signer's is loaded.
-/
import Wrb.Lib.Loops
import Wrb.Runner.Reference

structure Wrb.Runner where
  nodeHost : String
  nodePort : UInt16
  node : Option Wrb.Runner.SocketAddr

namespace Wrb.Runner

open Wrb.Wire Wrb.Storage Wrb.Loops

/-! ## Nodes -/

/-- the answers of the home node about one record -/
structure HomeClient where
  getSigners : Except Error (List StacksAddress)
  findReplicas : Except Error (List SocketAddr)

/-- the answer of a replica to `get_chunks` -/
abbrev ReplicaClient := List (UInt32 × UInt32) → Except Error (List (Option Bytes))

/-- the nodes, as one load sees them. A load makes each of its calls at most once for a position in the zonefile and one
in the list of replicas, so that answers which depend on these positions are any answers -/
structure Network where
  toSocketAddrs : String → UInt16 → Except String (List SocketAddr)
  homeConnector : ℕ → QualifiedContractIdentifier → SocketAddr → Except Error HomeClient
  replicaConnector : ℕ → ℕ → QualifiedContractIdentifier → SocketAddr → Except Error ReplicaClient

def resolveNode (net : Network) (r : Runner) : Except Error (Option SocketAddr) :=
  match r.node with
  | some node => .ok (some node)
  | none =>
    match net.toSocketAddrs r.nodeHost r.nodePort with
    | .error e => .error (.io e)
    | .ok addrs => .ok addrs.getLast?

/-! ## Loading -/

/-- what a load returns: a site and its version -/
abbrev Outcome := Except Error (Option (Bytes × UInt32))

/-- load a wrbsite, given the decoded WRB TXT record -/
def wrbsiteLoadFromZonefileRec (X : SiteExt) (wrbrec : WrbTxtRecordV1) (replicaClient : ReplicaClient) :
    Except Error (Option Bytes) :=
  let md := wrbrec.slotMetadata
  let site := s!"{X.showContractId wrbrec.contractId}[{md.slotId}.{md.slotVersion}]"
  match replicaClient [(md.slotId, md.slotVersion)] with
  | .error e => .error e
  | .ok [some chunkBytes] =>
    let chunkHash := X.fromData chunkBytes
    if chunkHash ≠ md.dataHash then
      .error (.storage s!"Site hash mismatch for site {site}: {X.showHash md.dataHash} != {X.showHash chunkHash}")
    else .ok (some chunkBytes)
  | .ok [none] => .error (.storage s!"Failed to get StackerDB chunk for site {site}: no slot data returned")
  | .ok _ => .error (.storage s!"Failed to get StackerDB chunk for site {site}: did not get any slots")

/-- one round of the replica loop -/
def tryReplica (X : SiteExt) (net : Network) (i : ℕ) (recTxt : String) (wrbrec : WrbTxtRecordV1) (j : ℕ)
    (replicaAddr : SocketAddr) : Round String Outcome :=
  let replica := X.showSocketAddr replicaAddr
  let contract := X.showContractId wrbrec.contractId
  match net.replicaConnector i j wrbrec.contractId replicaAddr with
  | .error e =>
    .next [s!"Failed to connect to replica {replica} of {contract} in record {i} '{recTxt}': {X.showError e}"]
  | .ok replicaClient =>
    match wrbsiteLoadFromZonefileRec X wrbrec replicaClient with
    | .ok (some wrbsiteBytes) => .returned (.ok (some (wrbsiteBytes, wrbrec.slotMetadata.slotVersion)))
    | .ok none =>
      .next [s!"Failed to load wrbsite from zonefile record {i} '{recTxt}' for replica {contract} at {replica}"]
    | .error e =>
      .next [s!"Failed to load wrbsite from zonefile record {i} '{recTxt}' for replica {contract} at {replica}: " ++
        X.showError e]

/-- make sure the record is consistent with the current signers, or say why it is not -/
def authenticate (X : SiteExt) (i : ℕ) (recTxt : String) (wrbrec : WrbTxtRecordV1) (signers : List StacksAddress) :
    Except String Unit :=
  let slotId := wrbrec.slotMetadata.slotId
  if slotId.toNat ≥ min signers.length (2 ^ 32 - 1) then
    .error s!"Slot {slotId} exceeds number of signers ({signers.length}) in record {i} '{recTxt}'"
  else
    match signers[slotId.toNat]? with
    | none => .error s!"No such signer for slot {slotId} in record {i} '{recTxt}'"
    | some signerAddr =>
      match X.verify wrbrec.slotMetadata signerAddr with
      | .error _ =>
        .error s!"Failed to authenticate slot {slotId} with {X.showAddress signerAddr} in record {i} '{recTxt}'"
      | .ok _ => .ok () -- only an error is asked for, so `Ok(false)` is let through

/-- one round of the record loop, for a WRB TXT record -/
def tryWrbRecord (X : SiteExt) (net : Network) (homeNodeAddr : SocketAddr) (i : ℕ) (recTxt : String)
    (wrbrec : WrbTxtRecordV1) : Round String Outcome :=
  match net.homeConnector i wrbrec.contractId homeNodeAddr with
  | .error e => .returned (.error e)
  | .ok homeClient =>
    match homeClient.getSigners with
    | .error e => .returned (.error e)
    | .ok signers =>
      match authenticate X i recTxt wrbrec signers with
      | .error reason => .next [reason]
      | .ok () =>
        match homeClient.findReplicas with
        | .error e => .returned (.error e)
        | .ok replicas =>
          if replicas.length = 0 then
            .next [s!"No replicas found for StackerDB {X.showContractId wrbrec.contractId} in record {i} '{recTxt}'"]
          else run (tryReplica X net i recTxt wrbrec) 0 replicas []

/-- one round of the record loop -/
def tryRecord (X : SiteExt) (net : Network) (homeNodeAddr : SocketAddr) (i : ℕ) (rr : ZonefileResourceRecord) :
    Round String Outcome :=
  let recTxt := rr.toText
  if rr.rrName ≠ "wrb" then .next [s!"Invalid name in record {i} of '{recTxt}'"]
  else if rr.rrClass ≠ "IN" then .next [s!"Invalid class in record {i} of '{recTxt}'"]
  else if rr.rrType ≠ "TXT" then .next [s!"Invalid type in record {i} of '{recTxt}'"]
  else
    match WrbTxtRecord.tryFrom X rr with
    | .error _ => .next [s!"Invalid payload in record {i} '{recTxt}'"]
    | .ok (.v1 wrbrec) => tryWrbRecord X net homeNodeAddr i recTxt wrbrec

/-- load a wrbsite, given the zonefile of a BNS name -/
def wrbsiteLoadFromZonefile (X : SiteExt) (net : Network) (r : Runner) (zonefile : Bytes) : Outcome :=
  match r.resolveNode net with
  | .error e => .error e
  | .ok none => .error .notConnected
  | .ok (some homeNodeAddr) =>
    match decodeZonefileRecords X zonefile with
    | .error e => .error e
    | .ok recs =>
      match run (tryRecord X net homeNodeAddr) 0 recs [] with
      | .returned outcome => outcome
      | .next errorReasons => .error (.failedToRun "Failed to resolve WRB site" errorReasons)

/-! ## What the nodes say about a record -/

section Answers

variable (X : SiteExt) (net : Network) (home : SocketAddr) (i : ℕ) (w : WrbTxtRecordV1)

/-- the home node lists these signers for the record's StackerDB -/
def HomeLists (signers : List StacksAddress) : Prop :=
  ∃ client, net.homeConnector i w.contractId home = .ok client ∧ client.getSigners = .ok signers

/-- checked against the signer the home node lists at the record's slot, the signature verifies as `valid` -/
def Verifies (valid : Bool) : Prop :=
  ∃ signers signer, HomeLists net home i w signers ∧ signers[w.slotMetadata.slotId.toNat]? = some signer ∧
    X.verify w.slotMetadata signer = .ok valid

/-- the signature is well formed for the signer at the record's slot, whether or not it is the signer's -/
def WellSigned (signers : List StacksAddress) : Prop :=
  w.slotMetadata.slotId.toNat < 2 ^ 32 - 1 ∧ ∃ signer valid, signers[w.slotMetadata.slotId.toNat]? = some signer ∧
    X.verify w.slotMetadata signer = .ok valid

/-- the record is well signed, and the home node names these replicas for it -/
def Reaches (replicas : List SocketAddr) : Prop :=
  ∃ client signers, net.homeConnector i w.contractId home = .ok client ∧ client.getSigners = .ok signers ∧
    WellSigned X w signers ∧ client.findReplicas = .ok replicas

/-- the replica at position `j` answers with a chunk that has the record's hash -/
def Serves (j : ℕ) (addr : SocketAddr) (bytes : Bytes) : Prop :=
  ∃ client, net.replicaConnector i j w.contractId addr = .ok client ∧
    client [(w.slotMetadata.slotId, w.slotMetadata.slotVersion)] = .ok [some bytes] ∧
    X.fromData bytes = w.slotMetadata.dataHash

/-- the replica at position `j` is the first of the list to serve the record, with `bytes` -/
def FirstServes (replicas : List SocketAddr) (j : ℕ) (bytes : Bytes) : Prop :=
  (∃ addr, replicas[j]? = some addr ∧ Serves X net i w j addr bytes) ∧
    ∀ k < j, ∀ addr, replicas[k]? = some addr → ∀ b, ¬ Serves X net i w k addr b

/-- a query about the record that the load makes is answered by the home node with an error -/
def HomeFails (e : Error) : Prop :=
  net.homeConnector i w.contractId home = .error e ∨
    ∃ client, net.homeConnector i w.contractId home = .ok client ∧
      (client.getSigners = .error e ∨
        ∃ signers, client.getSigners = .ok signers ∧ WellSigned X w signers ∧ client.findReplicas = .error e)

/-- the record is well signed, and one of its replicas serves it -/
def Offered : Prop :=
  ∃ replicas j addr bytes, Reaches X net home i w replicas ∧ replicas[j]? = some addr ∧ Serves X net i w j addr bytes

/-- the home node answers, but the record is not offered -/
def PassedOver : Prop := (∀ e, ¬ HomeFails X net home i w e) ∧ ¬ Offered X net home i w

end Answers

/-! ## One record -/

theorem loadRec_ok_iff {X : SiteExt} {w : WrbTxtRecordV1} {client : ReplicaClient} {r : Option Bytes} :
    wrbsiteLoadFromZonefileRec X w client = .ok r ↔ ∃ bytes, r = some bytes ∧
      client [(w.slotMetadata.slotId, w.slotMetadata.slotVersion)] = .ok [some bytes] ∧
      X.fromData bytes = w.slotMetadata.dataHash := by
  unfold wrbsiteLoadFromZonefileRec
  dsimp only
  generalize client [(w.slotMetadata.slotId, w.slotMetadata.slotVersion)] = answer
  match answer with
  | .error e => simp
  | .ok [] => simp
  | .ok [none] => simp
  | .ok (_ :: _ :: _) => simp
  | .ok [some chunkBytes] =>
    simp only [Except.ok.injEq, List.cons.injEq, Option.some.injEq, and_true]
    split_ifs with hhash
    · refine iff_of_false (by simp) ?_
      rintro ⟨bytes, -, rfl, heq⟩
      exact hhash heq
    · constructor
      · intro h
        exact ⟨chunkBytes, (Except.ok.inj h).symm, rfl, not_not.1 hhash⟩
      · rintro ⟨bytes, rfl, rfl, -⟩
        rfl

section Round

variable {X : SiteExt} {net : Network} {home : SocketAddr} {i : ℕ} {recTxt : String} {w : WrbTxtRecordV1}

theorem serves_iff {j : ℕ} {addr : SocketAddr} {client : ReplicaClient}
    (h : net.replicaConnector i j w.contractId addr = .ok client) (bytes : Bytes) :
    Serves X net i w j addr bytes ↔ wrbsiteLoadFromZonefileRec X w client = .ok (some bytes) := by
  rw [loadRec_ok_iff]
  constructor
  · rintro ⟨client', hconn, hanswer⟩
    obtain rfl := Except.ok.inj (h.symm.trans hconn)
    exact ⟨bytes, rfl, hanswer⟩
  · rintro ⟨bytes', heq, hanswer⟩
    obtain rfl := Option.some.inj heq
    exact ⟨client, h, hanswer⟩

theorem not_serves_of_error {j : ℕ} {addr : SocketAddr} {e : Error}
    (h : net.replicaConnector i j w.contractId addr = .error e) (bytes : Bytes) :
    ¬ Serves X net i w j addr bytes := by
  rintro ⟨client, hconn, -⟩
  rw [h] at hconn
  cases hconn

/-- a replica that serves the record ends the load -/
theorem tryReplica_returned_iff {j : ℕ} {addr : SocketAddr} {o : Outcome} :
    tryReplica X net i recTxt w j addr = .returned o ↔
      ∃ bytes, Serves X net i w j addr bytes ∧ o = .ok (some (bytes, w.slotMetadata.slotVersion)) := by
  unfold tryReplica
  dsimp only
  cases hclient : net.replicaConnector i j w.contractId addr with
  | error e => simp [not_serves_of_error hclient]
  | ok client =>
    simp only [serves_iff hclient]
    cases hload : wrbsiteLoadFromZonefileRec X w client with
    | error e => simp
    | ok r =>
      obtain ⟨bytes, rfl, -⟩ := loadRec_ok_iff.1 hload
      simp [eq_comm]

/-- any other replica is passed over -/
theorem tryReplica_goesOn_iff {j : ℕ} {addr : SocketAddr} :
    (tryReplica X net i recTxt w j addr).GoesOn ↔ ∀ bytes, ¬ Serves X net i w j addr bytes := by
  simp only [Round.goesOn_iff, ne_eq, tryReplica_returned_iff, not_exists, not_and]
  exact ⟨fun h bytes hserves => h _ bytes hserves rfl, fun h o bytes hserves _ => h bytes hserves⟩

theorem authenticate_ok_iff {signers : List StacksAddress} :
    authenticate X i recTxt w signers = .ok () ↔ WellSigned X w signers := by
  unfold authenticate WellSigned
  dsimp only
  split_ifs with hrange
  · refine iff_of_false (by simp) ?_
    rintro ⟨hmax, signer, valid, hsigner, -⟩
    have hlt := (List.getElem?_eq_some_iff.1 hsigner).1
    omega
  · have hmax : w.slotMetadata.slotId.toNat < 2 ^ 32 - 1 := by omega
    cases hsigner : signers[w.slotMetadata.slotId.toNat]? with
    | none => simp
    | some signer =>
      cases hverify : X.verify w.slotMetadata signer with
      | error e => simp [hverify]
      | ok valid =>
        simp only [hverify, true_iff]
        exact ⟨hmax, signer, valid, rfl, hverify⟩

/-- the replica loop ends with the first replica that serves the record -/
theorem replicas_returned_iff {replicas : List SocketAddr} {o : Outcome} :
    run (tryReplica X net i recTxt w) 0 replicas [] = .returned o ↔
      ∃ j bytes, FirstServes X net i w replicas j bytes ∧ o = .ok (some (bytes, w.slotMetadata.slotVersion)) := by
  have hbefore : ∀ j, GoOnUntil (tryReplica X net i recTxt w) 0 replicas j ↔
      ∀ k < j, ∀ addr, replicas[k]? = some addr → ∀ b, ¬ Serves X net i w k addr b := by
    intro j
    simp only [GoOnUntil, Nat.zero_add, tryReplica_goesOn_iff]
  rw [run_returned_iff]
  constructor
  · rintro ⟨j, addr, haddr, hret, hon⟩
    rw [Nat.zero_add] at hret
    obtain ⟨bytes, hserves, ho⟩ := tryReplica_returned_iff.1 hret
    exact ⟨j, bytes, ⟨⟨addr, haddr, hserves⟩, (hbefore j).1 hon⟩, ho⟩
  · rintro ⟨j, bytes, ⟨⟨addr, haddr, hserves⟩, hon⟩, ho⟩
    refine ⟨j, addr, haddr, ?_, (hbefore j).2 hon⟩
    rw [Nat.zero_add]
    exact tryReplica_returned_iff.2 ⟨bytes, hserves, ho⟩

theorem replicas_goesOn_iff {replicas : List SocketAddr} :
    (run (tryReplica X net i recTxt w) 0 replicas []).GoesOn ↔
      ∀ j addr, replicas[j]? = some addr → ∀ bytes, ¬ Serves X net i w j addr bytes := by
  simp only [goesOn_run_iff, Nat.zero_add, tryReplica_goesOn_iff]

/-- a replica list with one that serves the record has a first one -/
theorem exists_firstServes {replicas : List SocketAddr} {j : ℕ} {addr : SocketAddr} {bytes : Bytes}
    (haddr : replicas[j]? = some addr) (hserves : Serves X net i w j addr bytes) :
    ∃ j bytes, FirstServes X net i w replicas j bytes := by
  have hstop : ¬ (run (tryReplica X net i "" w) 0 replicas []).GoesOn := by
    rw [replicas_goesOn_iff]
    exact fun h => h j addr haddr bytes hserves
  rw [Round.goesOn_iff, not_forall] at hstop
  obtain ⟨o, hret⟩ := hstop
  rw [not_not] at hret
  obtain ⟨j, bytes, hfirst, -⟩ := replicas_returned_iff.1 hret
  exact ⟨j, bytes, hfirst⟩

theorem offered_iff :
    Offered X net home i w ↔
      ∃ replicas, Reaches X net home i w replicas ∧ ∃ j bytes, FirstServes X net i w replicas j bytes := by
  constructor
  · rintro ⟨replicas, j, addr, bytes, hreach, haddr, hserves⟩
    exact ⟨replicas, hreach, exists_firstServes haddr hserves⟩
  · rintro ⟨replicas, hreach, j, bytes, ⟨addr, haddr, hserves⟩, -⟩
    exact ⟨replicas, j, addr, bytes, hreach, haddr, hserves⟩

/-- **A WRB TXT record ends the load if the home node fails on it, or with what its first serving replica serves.** -/
theorem tryWrbRecord_returned_iff {o : Outcome} :
    tryWrbRecord X net home i recTxt w = .returned o ↔
      (∃ e, HomeFails X net home i w e ∧ o = .error e) ∨
        ∃ replicas, Reaches X net home i w replicas ∧
          ∃ j bytes, FirstServes X net i w replicas j bytes ∧ o = .ok (some (bytes, w.slotMetadata.slotVersion)) := by
  unfold tryWrbRecord
  cases hclient : net.homeConnector i w.contractId home with
  | error e => simp [HomeFails, Reaches, hclient, eq_comm]
  | ok client =>
    dsimp only
    cases hsigners : client.getSigners with
    | error e => simp [HomeFails, Reaches, hclient, hsigners, eq_comm]
    | ok signers =>
      dsimp only
      cases hauth : authenticate X i recTxt w signers with
      | error reason =>
        have hnot : ¬ WellSigned X w signers := by
          intro hwell
          have hok : authenticate X i recTxt w signers = .ok () := authenticate_ok_iff.2 hwell
          rw [hauth] at hok
          cases hok
        simp [HomeFails, Reaches, hclient, hsigners, hnot]
      | ok u =>
        have hwell : WellSigned X w signers := authenticate_ok_iff.1 hauth
        dsimp only
        cases hreplicas : client.findReplicas with
        | error e => simp [HomeFails, Reaches, hclient, hsigners, hwell, hreplicas, eq_comm]
        | ok replicas =>
          dsimp only
          have hloop : run (tryReplica X net i recTxt w) 0 replicas [] = .returned o ↔ _ := replicas_returned_iff
          split_ifs with hempty
          · obtain rfl := List.length_eq_zero_iff.1 hempty
            simp [HomeFails, Reaches, FirstServes, hclient, hsigners, hwell, hreplicas]
          · simp [HomeFails, Reaches, hclient, hsigners, hwell, hreplicas, hloop]

theorem tryWrbRecord_goesOn_iff :
    (tryWrbRecord X net home i recTxt w).GoesOn ↔ PassedOver X net home i w := by
  simp only [Round.goesOn_iff, ne_eq, tryWrbRecord_returned_iff, PassedOver, offered_iff]
  constructor
  · intro h
    constructor
    · intro e hfails
      exact h _ (Or.inl ⟨e, hfails, rfl⟩)
    · rintro ⟨replicas, hreach, j, bytes, hfirst⟩
      exact h _ (Or.inr ⟨replicas, hreach, j, bytes, hfirst, rfl⟩)
  · rintro ⟨hanswers, hnot⟩ o (⟨e, hfails, -⟩ | ⟨replicas, hreach, j, bytes, hfirst, -⟩)
    · exact hanswers e hfails
    · exact hnot ⟨replicas, hreach, j, bytes, hfirst⟩

/-! ## One record of the zonefile -/

theorem tryRecord_of_tryFrom {rr : ZonefileResourceRecord} (h : WrbTxtRecord.tryFrom X rr = .ok (.v1 w)) :
    tryRecord X net home i rr = tryWrbRecord X net home i rr.toText w := by
  obtain ⟨hname, htype, hclass, -⟩ := WrbTxtRecord.tryFrom_ok_iff.1 h
  unfold tryRecord
  dsimp only
  rw [if_neg (not_not.2 hname), if_neg (not_not.2 hclass), if_neg (not_not.2 htype), h]

/-- a record that is not a WRB TXT record is passed over -/
theorem tryRecord_goesOn_of_error {rr : ZonefileResourceRecord} {e : Error} (h : WrbTxtRecord.tryFrom X rr = .error e) :
    (tryRecord X net home i rr).GoesOn := by
  unfold tryRecord
  dsimp only
  rw [h]
  split_ifs <;> exact Round.goesOn_next _

theorem tryRecord_goesOn_iff {rr : ZonefileResourceRecord} :
    (tryRecord X net home i rr).GoesOn ↔
      ∀ w, WrbTxtRecord.tryFrom X rr = .ok (.v1 w) → PassedOver X net home i w := by
  cases hrec : WrbTxtRecord.tryFrom X rr with
  | error e => exact iff_of_true (tryRecord_goesOn_of_error hrec) (by simp)
  | ok r =>
    obtain ⟨w⟩ := r
    rw [tryRecord_of_tryFrom hrec, tryWrbRecord_goesOn_iff]
    simp

/-- a load that succeeds, does so in the round of a WRB TXT record -/
theorem tryRecord_ok_iff {rr : ZonefileResourceRecord} {site : Option (Bytes × UInt32)} :
    tryRecord X net home i rr = .returned (.ok site) ↔
      ∃ w, WrbTxtRecord.tryFrom X rr = .ok (.v1 w) ∧ ∃ replicas, Reaches X net home i w replicas ∧
        ∃ j bytes, FirstServes X net i w replicas j bytes ∧ site = some (bytes, w.slotMetadata.slotVersion) := by
  cases hrec : WrbTxtRecord.tryFrom X rr with
  | error e =>
    obtain ⟨notes, hnext⟩ : (tryRecord X net home i rr).GoesOn := tryRecord_goesOn_of_error hrec
    simp [hnext]
  | ok r =>
    obtain ⟨w⟩ := r
    rw [tryRecord_of_tryFrom hrec, tryWrbRecord_returned_iff]
    simp

end Round

/-! ## The whole zonefile -/

/-- the record at position `i` of the zonefile is the WRB TXT record `w` -/
def WrbRecordAt (X : SiteExt) (zonefile : Bytes) (i : ℕ) (w : WrbTxtRecordV1) : Prop :=
  ∃ recs rr, decodeZonefileRecords X zonefile = .ok recs ∧ recs[i]? = some rr ∧ WrbTxtRecord.tryFrom X rr = .ok (.v1 w)

/-- the record at position `i` is offered, and every WRB TXT record before it is passed over -/
def FirstOffered (X : SiteExt) (net : Network) (home : SocketAddr) (zonefile : Bytes) (i : ℕ) (w : WrbTxtRecordV1) :
    Prop :=
  WrbRecordAt X zonefile i w ∧ Offered X net home i w ∧
    ∀ k < i, ∀ v, WrbRecordAt X zonefile k v → PassedOver X net home k v

theorem wrbRecordAt_iff {X : SiteExt} {zonefile : Bytes} {recs : List ZonefileResourceRecord}
    (h : decodeZonefileRecords X zonefile = .ok recs) {i : ℕ} {w : WrbTxtRecordV1} :
    WrbRecordAt X zonefile i w ↔ ∃ rr, recs[i]? = some rr ∧ WrbTxtRecord.tryFrom X rr = .ok (.v1 w) := by
  simp [WrbRecordAt, h]

/-- **A load gives what the first offered record names.** -/
theorem load_ok_iff {X : SiteExt} {net : Network} {r : Runner} {zonefile : Bytes} {site : Option (Bytes × UInt32)} :
    wrbsiteLoadFromZonefile X net r zonefile = .ok site ↔
      ∃ home i w, r.resolveNode net = .ok (some home) ∧ FirstOffered X net home zonefile i w ∧
        ∃ replicas, Reaches X net home i w replicas ∧
          ∃ j bytes, FirstServes X net i w replicas j bytes ∧ site = some (bytes, w.slotMetadata.slotVersion) := by
  unfold wrbsiteLoadFromZonefile
  cases hhome : r.resolveNode net with
  | error e => simp
  | ok node =>
    cases node with
    | none => simp
    | some home =>
      dsimp only
      cases hrecs : decodeZonefileRecords X zonefile with
      | error e => simp [FirstOffered, WrbRecordAt, hrecs]
      | ok recs =>
        dsimp only
        -- the load succeeds iff the record loop returns a success
        trans run (tryRecord X net home) 0 recs [] = .returned (.ok site)
        · cases run (tryRecord X net home) 0 recs [] <;> simp
        have hbefore : ∀ i, GoOnUntil (tryRecord X net home) 0 recs i ↔
            ∀ k < i, ∀ v, WrbRecordAt X zonefile k v → PassedOver X net home k v := by
          intro i
          simp only [GoOnUntil, Nat.zero_add, tryRecord_goesOn_iff, wrbRecordAt_iff hrecs]
          constructor
          · rintro h k hk v ⟨rr, hrr, hv⟩
            exact h k hk rr hrr v hv
          · intro h k hk rr hrr v hv
            exact h k hk v ⟨rr, hrr, hv⟩
        rw [run_returned_iff]
        constructor
        · rintro ⟨i, rr, hrr, hret, hon⟩
          rw [Nat.zero_add] at hret
          obtain ⟨w, hw, replicas, hreach, j, bytes, hfirst, hsite⟩ := tryRecord_ok_iff.1 hret
          refine ⟨home, i, w, rfl, ⟨?_, ?_, (hbefore i).1 hon⟩, replicas, hreach, j, bytes, hfirst, hsite⟩
          · exact (wrbRecordAt_iff hrecs).2 ⟨rr, hrr, hw⟩
          · exact offered_iff.2 ⟨replicas, hreach, j, bytes, hfirst⟩
        · rintro ⟨home', i, w, heq, ⟨hat, -, hon⟩, replicas, hreach, j, bytes, hfirst, hsite⟩
          obtain rfl := Option.some.inj (Except.ok.inj heq)
          obtain ⟨rr, hrr, hw⟩ := (wrbRecordAt_iff hrecs).1 hat
          refine ⟨i, rr, hrr, ?_, (hbefore i).2 hon⟩
          rw [Nat.zero_add]
          exact tryRecord_ok_iff.2 ⟨w, hw, replicas, hreach, j, bytes, hfirst, hsite⟩

/-! ## Authenticity -/

theorem FirstServes.hash {X : SiteExt} {net : Network} {i : ℕ} {w : WrbTxtRecordV1} {replicas : List SocketAddr} {j : ℕ}
    {bytes : Bytes} (h : FirstServes X net i w replicas j bytes) : X.fromData bytes = w.slotMetadata.dataHash := by
  obtain ⟨⟨addr, -, client, -, -, hhash⟩, -⟩ := h
  exact hhash

theorem Reaches.verifies {X : SiteExt} {net : Network} {home : SocketAddr} {i : ℕ} {w : WrbTxtRecordV1}
    {replicas : List SocketAddr} (h : Reaches X net home i w replicas) : ∃ valid, Verifies X net home i w valid := by
  obtain ⟨client, signers, hclient, hsigners, ⟨-, signer, valid, hsigner, hverify⟩, -⟩ := h
  exact ⟨valid, signers, signer, ⟨client, hclient, hsigners⟩, hsigner, hverify⟩

/-- some WRB TXT record of the zonefile has this version and hash, and its signature verifies as true for the signer the
home node lists at its slot -/
def Backed (X : SiteExt) (net : Network) (home : SocketAddr) (zonefile : Bytes) (version : UInt32)
    (hash : Sha512Trunc256Sum) : Prop :=
  ∃ i w, WrbRecordAt X zonefile i w ∧ w.slotMetadata.slotVersion = version ∧ w.slotMetadata.dataHash = hash ∧
    Verifies X net home i w true

/-- whatever the load returns is backed by a record of the zonefile -/
def Authenticated (X : SiteExt) (net : Network) (r : Runner) (zonefile : Bytes) : Prop :=
  ∀ bytes version, wrbsiteLoadFromZonefile X net r zonefile = .ok (some (bytes, version)) →
    ∃ home, r.resolveNode net = .ok (some home) ∧ Backed X net home zonefile version (X.fromData bytes)

/-- **A load is authenticated iff the first offered record is not forged**, or an authentic record of the zonefile has
the version and the hash of the forged one. -/
theorem authenticated_iff (X : SiteExt) (net : Network) (r : Runner) (zonefile : Bytes) :
    Authenticated X net r zonefile ↔
      ∀ home i w, r.resolveNode net = .ok (some home) → FirstOffered X net home zonefile i w →
        Verifies X net home i w false →
        Backed X net home zonefile w.slotMetadata.slotVersion w.slotMetadata.dataHash := by
  constructor
  · intro hauth home i w hhome hoffered _
    obtain ⟨replicas, hreach, j, bytes, hfirst⟩ := offered_iff.1 hoffered.2.1
    have hload := load_ok_iff.2 ⟨home, i, w, hhome, hoffered, replicas, hreach, j, bytes, hfirst, rfl⟩
    obtain ⟨home', hhome', hbacked⟩ := hauth _ _ hload
    obtain rfl := Option.some.inj (Except.ok.inj (hhome.symm.trans hhome'))
    rwa [hfirst.hash] at hbacked
  · intro hforged bytes version hload
    obtain ⟨home, i, w, hhome, hoffered, replicas, hreach, j, b, hfirst, hsite⟩ := load_ok_iff.1 hload
    obtain ⟨rfl, rfl⟩ := Prod.mk.inj (Option.some.inj hsite)
    refine ⟨home, hhome, ?_⟩
    rw [hfirst.hash]
    obtain ⟨valid, hverifies⟩ := hreach.verifies
    cases valid with
    | true => exact ⟨i, w, hoffered.1, rfl, rfl, hverifies⟩
    | false => exact hforged home i w hhome hoffered hverifies

/-! ## A forged site -/

def siteBytes : Bytes := [104, 105]

/-- the record that names the site as version 1 of slot 0, signed with key 9 -/
def forgedRecord : WrbTxtRecordV1 where
  contractId := ⟨⟨22, 1⟩, "site"⟩
  slotMetadata := ⟨0, 1, X1.fromData siteBytes, (X1.sign 9 0 1 (X1.fromData siteBytes)).getD 0⟩

def forgedPayload : List Char :=
  Reference.base64EncodeChars ((WrbTxtRecord.v1 forgedRecord).consensusSerialize X1)

def forgedResourceRecord : ZonefileResourceRecord := ⟨"wrb", none, "IN", "TXT", String.ofList forgedPayload⟩

/-- a zonefile with this record only -/
def forgedZonefile : Bytes := asBytes (String.ofList ("wrb IN TXT ".toList ++ forgedPayload))

/-- the only signer is that of key 7, and the only replica serves the site -/
def siteNetwork : Network where
  toSocketAddrs _ _ := .ok [.v4 1 80]
  homeConnector _ _ _ := .ok ⟨.ok [X1.p2pkh true 7], .ok [.v4 2 80]⟩
  replicaConnector _ _ _ _ := .ok fun _ => .ok [some siteBytes]

def siteRunner : Runner := ⟨"localhost", 80, none⟩

theorem decode_forgedZonefile : decodeZonefileRecords X1 forgedZonefile = .ok [forgedResourceRecord] := by
  rw [forgedZonefile, decodeZonefileRecords_asBytes X1 (by decide +kernel)]
  exact congrArg Except.ok (by decide +kernel)

theorem tryFrom_forgedResourceRecord : WrbTxtRecord.tryFrom X1 forgedResourceRecord = .ok (.v1 forgedRecord) := by
  have hquotes : WrbTxtRecord.dequote forgedPayload = .ok forgedPayload := by decide +kernel
  have hbase64 : Reference.base64DecodeChars forgedPayload =
      some ((WrbTxtRecord.v1 forgedRecord).consensusSerialize X1) := by decide +kernel
  have hcodec : (WrbTxtRecord.consensusDeserialize X1).run ((WrbTxtRecord.v1 forgedRecord).consensusSerialize X1) =
      .ok (.v1 forgedRecord, []) := by decide +kernel
  rw [WrbTxtRecord.tryFrom_ok_iff]
  refine ⟨rfl, rfl, rfl, forgedPayload, _, _, ?_, X1_base64Decode hbase64, hcodec⟩
  rw [forgedResourceRecord, String.toList_ofList, hquotes]

/-- the signature is well formed, but not the signer's -/
theorem verify_forgedRecord : X1.verify forgedRecord.slotMetadata (X1.p2pkh true 7) = .ok false := by decide +kernel

theorem load_forgedZonefile :
    wrbsiteLoadFromZonefile X1 siteNetwork siteRunner forgedZonefile = .ok (some (siteBytes, 1)) := by
  have hat : WrbRecordAt X1 forgedZonefile 0 forgedRecord :=
    ⟨_, _, decode_forgedZonefile, rfl, tryFrom_forgedResourceRecord⟩
  have hreach : Reaches X1 siteNetwork (.v4 1 80) 0 forgedRecord [.v4 2 80] :=
    ⟨_, _, rfl, rfl, ⟨by decide, X1.p2pkh true 7, false, rfl, verify_forgedRecord⟩, rfl⟩
  have hserves : Serves X1 siteNetwork 0 forgedRecord 0 (.v4 2 80) siteBytes := ⟨_, rfl, rfl, rfl⟩
  have hfirst : FirstServes X1 siteNetwork 0 forgedRecord [.v4 2 80] 0 siteBytes :=
    ⟨⟨_, rfl, hserves⟩, fun k hk => absurd hk (Nat.not_lt_zero k)⟩
  have hoffered := offered_iff.2 ⟨_, hreach, 0, siteBytes, hfirst⟩
  exact load_ok_iff.2 ⟨.v4 1 80, 0, forgedRecord, rfl, ⟨hat, hoffered, fun k hk => absurd hk (Nat.not_lt_zero k)⟩,
    _, hreach, 0, siteBytes, hfirst, rfl⟩

/-- a site signed with key 9 is loaded for the signer of key 7 -/
theorem forged_site_loads :
    wrbsiteLoadFromZonefile X1 siteNetwork siteRunner forgedZonefile = .ok (some (siteBytes, 1)) ∧
      ¬ Authenticated X1 siteNetwork siteRunner forgedZonefile := by
  refine ⟨load_forgedZonefile, fun hauth => ?_⟩
  obtain ⟨home, -, i, w, hat, -, -, signers, signer, ⟨client, hclient, hsigners⟩, hsigner, hverify⟩ :=
    hauth siteBytes 1 load_forgedZonefile
  obtain ⟨rr, hrr, hw⟩ := (wrbRecordAt_iff decode_forgedZonefile).1 hat
  obtain rfl : rr = forgedResourceRecord := by simpa using List.mem_of_getElem? hrr
  rw [tryFrom_forgedResourceRecord] at hw
  injection hw with hw
  injection hw with hw
  subst hw
  obtain rfl := Except.ok.inj hclient
  obtain rfl := Except.ok.inj hsigners
  obtain rfl := Option.some.inj hsigner
  rw [verify_forgedRecord] at hverify
  cases hverify

end Wrb.Runner
