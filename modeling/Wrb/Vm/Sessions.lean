/-
Sessions on the storage: boot sessions as `initialize_app` makes them, and page loads.

A session is a list of batches (`put_all_data`) and reads (`get_data`) between the opening of its store and its commit.
A session that fails or panics leaves the file as it was (`ClarityVM.next`), so a run is a run of any sessions.

`runOps_inv`: what every batch keeps, a session keeps. `InPageLoad`, `InBoot`: the stores of the two kinds of session.
`reached_run`: as long as page loads begin on a file with a tip of its own, every file between sessions is new or
settled (`Reached`).
-/
import Mathlib.Tactic
import Std.Data.ExtTreeMap
import Wrb.Lib.Runs
import Wrb.Vm.Layers

namespace Wrb.Vm

open Std (ExtTreeMap)
open Wrb.Storage (Sha512Trunc256Sum)
open Wrb.Runs

/-! ## Sessions -/

/-- what a session does with its store -/
inductive Op where
  | put (items : List (String × String))
  | get (key : String)
deriving DecidableEq, Repr

def Op.values : Op → List String
  | .put items => items.map Prod.snd
  | .get _ => []

/-- what the reads return, and the store afterwards -/
def WritableWrbStore.runOps (e : Engine) (sha : String → Sha512Trunc256Sum) (s : WritableWrbStore) :
    List Op → Except Fault (List (Option String) × WritableWrbStore)
  | [] => .ok ([], s)
  | .put items :: ops => do
    let s ← s.putAllData e sha items
    s.runOps e sha ops
  | .get key :: ops => do
    let value ← s.getData e key
    let (values, s) ← s.runOps e sha ops
    return (value :: values, s)

inductive Session where
  | boot (ops : List Op)
  | pageLoad (ops : List Op)
deriving DecidableEq, Repr

def Session.ops : Session → List Op
  | .boot ops => ops
  | .pageLoad ops => ops

def Session.values (s : Session) : List String := s.ops.flatMap Op.values

theorem Session.values_of_op {values : List String} {s : Session} (h : ∀ v ∈ s.values, v ∈ values) :
    ∀ o ∈ s.ops, ∀ v ∈ o.values, v ∈ values :=
  fun o ho v hv => h v (List.mem_flatMap.2 ⟨o, ho, hv⟩)

namespace ClarityVM

def setConn (vm : ClarityVM) (conn : Db) : ClarityVM := { vm with db := { vm.db with conn := conn } }

/-- the session `initialize_app` makes -/
def bootSession (e : Engine) (sha : String → Sha512Trunc256Sum) (vm : ClarityVM) (ops : List Op) :
    Except Fault (List (Option String) × ClarityVM) := do
  let writeTx ← vm.db.begin e BOOT_BLOCK_ID GENESIS_BLOCK_ID
  let (values, writeTx) ← writeTx.runOps e sha ops
  let conn ← writeTx.commitTo e GENESIS_BLOCK_ID
  return (values, vm.setConn conn)

def pageLoad (e : Engine) (sha : String → Sha512Trunc256Sum) (vm : ClarityVM) (ops : List Op) :
    Except Fault (List (Option String) × ClarityVM) := do
  let writeTx ← vm.beginPageLoad e
  let (values, writeTx) ← writeTx.runOps e sha ops
  let conn ← writeTx.commit e
  return (values, vm.setConn conn)

/-- what the reads of the session return, and the VM after the commit -/
def session (e : Engine) (sha : String → Sha512Trunc256Sum) (vm : ClarityVM) :
    Session → Except Fault (List (Option String) × ClarityVM)
  | .boot ops => vm.bootSession e sha ops
  | .pageLoad ops => vm.pageLoad e sha ops

/-- the VM after a session. A transaction that is dropped leaves the file as it was -/
def next (e : Engine) (sha : String → Sha512Trunc256Sum) (vm : ClarityVM) (s : Session) : ClarityVM :=
  match vm.session e sha s with
  | .ok (_, vm') => vm'
  | .error _ => vm

end ClarityVM

variable {e : Engine} {sha : String → Sha512Trunc256Sum} {values : List String} {n : ℕ}

/-- what every batch keeps, a session that gets through keeps -/
theorem runOps_inv {I : WritableWrbStore → Prop}
    (hput : ∀ s items s', I s → (∀ item ∈ items, item.2 ∈ values) → s.putAllData e sha items = .ok s' → I s')
    {s s' : WritableWrbStore} (h : I s) {ops : List Op} (hv : ∀ o ∈ ops, ∀ v ∈ o.values, v ∈ values)
    {reads : List (Option String)} (hrun : s.runOps e sha ops = .ok (reads, s')) : I s' := by
  induction ops generalizing s reads with
  | nil =>
    cases hrun
    exact h
  | cons o ops ih =>
    have hv' : ∀ o ∈ ops, ∀ v ∈ o.values, v ∈ values := fun o' ho' => hv o' (List.mem_cons_of_mem o ho')
    cases o with
    | put items =>
      rw [WritableWrbStore.runOps] at hrun
      obtain ⟨s₁, h₁, hrest⟩ := ok_of_bind hrun
      refine ih (hput s items s₁ h ?_ h₁) hv' hrest
      intro item hitem
      exact hv _ List.mem_cons_self _ (List.mem_map_of_mem hitem)
    | get key =>
      rw [WritableWrbStore.runOps] at hrun
      obtain ⟨value, _, hrest⟩ := ok_of_bind hrun
      obtain ⟨r, hr, hret⟩ := ok_of_bind hrest
      cases hret
      exact ih h hv' hr

/-! ## Page loads -/

/-- the store of a page load from height `n`: it writes one above -/
structure InPageLoad (n : ℕ) (s : WritableWrbStore) : Prop where
  chainTip : s.chainTip = makeWrbChainTip n
  tipHeight : s.tipHeight = n + 1
  nextTip : s.nextTip = makeWrbChainTip (n + 1)
  writeBuf : s.writeBuf = .new
  layered : Layered n (n + 1) s.tx
  noBoot : NoBoot s.tx

theorem NoBoot.write {d : Db} (h : NoBoot d) {place : StacksBlockId × ℕ} (hplace : place.1 ≠ BOOT_BLOCK_ID)
    (key v : String) (hash : Sha512Trunc256Sum) : NoBoot (d.write place key hash v) := by
  intro r hr
  rcases Db.mem_write.1 hr with hr | rfl
  · exact h r hr.1
  · exact hplace

namespace InPageLoad

variable {s s' : WritableWrbStore} {items : List (String × String)}

/-- a page load that has just begun -/
theorem of_settled {d : Db} (h : Settled n d) :
    InPageLoad n ⟨makeWrbChainTip n, n + 1, makeWrbChainTip (n + 1), d, .new⟩ :=
  ⟨rfl, rfl, rfl, rfl, ⟨h.layered.tip, h.layered.small, fun r hr => (h.layered.le r hr).trans (Nat.le_succ n),
    h.layered.reached⟩, h.noBoot⟩

theorem place_eq (h : InPageLoad n s) : s.place e = (makeWrbChainTip (n + 1), n + 1) := by
  unfold WritableWrbStore.place
  rw [h.chainTip, h.layered.target_make e h.noBoot, h.nextTip]

/-- a row of a page load -/
theorem write {d : Db} (h : Layered n (n + 1) d ∧ NoBoot d) (hn : n + 1 < 2 ^ 63) (key : String)
    (hash : Sha512Trunc256Sum) (v : String) :
    Layered n (n + 1) (d.write (makeWrbChainTip (n + 1), n + 1) key hash v) ∧
      NoBoot (d.write (makeWrbChainTip (n + 1), n + 1) key hash v) :=
  ⟨h.1.write (Or.inl rfl) hn (le_refl _) key hash v, h.2.write (makeWrbChainTip_ne_boot hn) key v hash⟩

/-- **A batch keeps the store of a page load.** -/
theorem putAllData (h : InPageLoad n s) (hput : s.putAllData e sha items = .ok s') : InPageLoad n s' := by
  have hplace := h.place_eq (e := e)
  obtain ⟨heq, hlayered, hboot⟩ := WritableWrbStore.putAllData_inv (I := fun d => Layered n (n + 1) d ∧ NoBoot d)
    (fun d key hash v hsmall hI => by
      rw [hplace] at hsmall ⊢
      exact write hI hsmall key hash v) ⟨h.layered, h.noBoot⟩ hput
  rw [heq]
  exact ⟨h.chainTip, h.tipHeight, h.nextTip, rfl, hlayered, hboot⟩

/-- the commit of a page load renames its tip to itself -/
theorem commit (h : InPageLoad n s) : s.commit e = .ok s.tx := by
  have htarget : s.targetTip = s.nextTip := by
    unfold WritableWrbStore.targetTip
    rw [h.chainTip, if_neg (makeWrbChainTip_ne_boot h.layered.small_of_reached)]
  refine WritableWrbStore.commitTo_of_some h.writeBuf ?_
  rw [htarget]
  exact Kvstore.setChainTip_self _ _

end InPageLoad

/-! ## Boot sessions -/

/-- the store of a boot session: it writes under the boot tip -/
structure InBoot (n : ℕ) (s : WritableWrbStore) : Prop where
  chainTip : s.chainTip = BOOT_BLOCK_ID
  tipHeight : s.tipHeight = 0
  writeBuf : s.writeBuf = .new
  layered : Layered n n s.tx

namespace InBoot

variable {s s' : WritableWrbStore} {items : List (String × String)}

theorem of_layered {d : Db} (h : Layered n n d) : InBoot n ⟨BOOT_BLOCK_ID, 0, GENESIS_BLOCK_ID, d, .new⟩ :=
  ⟨rfl, rfl, rfl, h⟩

theorem place_eq (h : InBoot n s) : s.place e = (BOOT_BLOCK_ID, 0) := by
  unfold WritableWrbStore.place
  rw [h.chainTip, h.layered.target_boot e]

theorem targetTip_eq (h : InBoot n s) : s.targetTip = BOOT_BLOCK_ID := by
  unfold WritableWrbStore.targetTip
  rw [h.chainTip, if_pos rfl]

/-- a row of a boot session -/
theorem write {d : Db} (h : Layered n n d) (key : String) (hash : Sha512Trunc256Sum) (v : String) :
    Layered n n (d.write (BOOT_BLOCK_ID, 0) key hash v) :=
  h.write (Or.inr ⟨rfl, rfl⟩) (Nat.two_pow_pos 63) (Nat.zero_le n) key hash v

/-- **A batch keeps the store of a boot session.** -/
theorem putAllData (h : InBoot n s) (hput : s.putAllData e sha items = .ok s') : InBoot n s' := by
  have hplace := h.place_eq (e := e)
  obtain ⟨heq, hlayered⟩ := WritableWrbStore.putAllData_inv (I := Layered n n)
    (fun d key hash v _ hI => by
      rw [hplace]
      exact write hI key hash v) h.layered hput
  rw [heq]
  exact ⟨h.chainTip, h.tipHeight, rfl, hlayered⟩

/-- the commit of a boot session renames the boot tip to genesis -/
theorem commitTo_cases (h : InBoot n s) {conn : Db} (hcommit : s.commitTo e GENESIS_BLOCK_ID = .ok conn) :
    ∃ kvstore, s.tx.kvstore.setChainTip GENESIS_BLOCK_ID BOOT_BLOCK_ID = some kvstore ∧
      { s.tx with kvstore := kvstore } = conn := by
  cases hset : s.tx.kvstore.setChainTip GENESIS_BLOCK_ID BOOT_BLOCK_ID with
  | none =>
    rw [WritableWrbStore.commitTo_of_none h.writeBuf (h.targetTip_eq ▸ hset)] at hcommit
    cases hcommit
  | some kvstore =>
    rw [WritableWrbStore.commitTo_of_some h.writeBuf (h.targetTip_eq ▸ hset)] at hcommit
    exact ⟨kvstore, rfl, Except.ok.inj hcommit⟩

end InBoot

/-! ## Files between sessions -/

/-- a page load begins on a file with a tip of its own, as it does after `initialize_app` -/
def Session.Initialised (e : Engine) (vm : ClarityVM) : Session → Prop
  | .boot _ => True
  | .pageLoad _ => getWrbChainTip e vm.db.conn ≠ BOOT_BLOCK_ID

instance (e : Engine) (vm : ClarityVM) : (s : Session) → Decidable (s.Initialised e vm)
  | .boot _ => .isTrue trivial
  | .pageLoad _ => inferInstanceAs (Decidable (getWrbChainTip e vm.db.conn ≠ BOOT_BLOCK_ID))

/-- the file between sessions: new, or settled at some height -/
def Reached (d : Db) : Prop := d = freshDb ∨ ∃ n, Settled n d

theorem getWrbChainTip_freshDb : getWrbChainTip e freshDb = BOOT_BLOCK_ID := by
  unfold getWrbChainTip
  cases hq : e.queryRow freshDb.kvstore .highest with
  | none => rfl
  | some r =>
    have hr := (Select.mem_highest.1 (Engine.mem_of_queryRow hq)).1
    rw [List.mem_singleton.1 hr]
    rfl

theorem Reached.layered {d : Db} (h : Reached d) : ∃ n, Layered n n d := by
  rcases h with rfl | ⟨n, hn⟩
  · exact ⟨0, layered_freshDb⟩
  · exact ⟨n, hn.layered⟩

theorem Reached.settled {d : Db} (h : Reached d) (hne : getWrbChainTip e d ≠ BOOT_BLOCK_ID) : ∃ n, Settled n d := by
  rcases h with rfl | hn
  · exact absurd getWrbChainTip_freshDb hne
  · exact hn

variable {vm vm' : ClarityVM} {ops : List Op} {reads : List (Option String)}

theorem mem_values (ops : List Op) : ∀ o ∈ ops, ∀ v ∈ o.values, v ∈ ops.flatMap Op.values :=
  fun o ho _ hv => List.mem_flatMap.2 ⟨o, ho, hv⟩

/-- **A page load leaves a settled file**, no lower than it found it -/
theorem settled_pageLoad (h : Settled n vm.db.conn) (hsession : vm.pageLoad e sha ops = .ok (reads, vm')) :
    ∃ n', n ≤ n' ∧ Settled n' vm'.db.conn := by
  unfold ClarityVM.pageLoad at hsession
  rw [h.beginPageLoad e rfl, ok_bind] at hsession
  obtain ⟨⟨reads', s'⟩, hrun, hrest⟩ := ok_of_bind hsession
  have hin : InPageLoad n s' :=
    runOps_inv (fun s items s' hI _ hput => hI.putAllData hput) (InPageLoad.of_settled h) (mem_values ops) hrun
  obtain ⟨conn, hcommit, hret⟩ := ok_of_bind hrest
  rw [hin.commit] at hcommit
  cases hcommit
  cases hret
  rcases hin.layered.settled hin.noBoot with hdone | hdone
  · exact ⟨n, le_refl n, hdone⟩
  · exact ⟨n + 1, Nat.le_succ n, hdone⟩

/-- **A boot session leaves a settled file.** -/
theorem settled_boot (h : Layered n n vm.db.conn) (hsession : vm.bootSession e sha ops = .ok (reads, vm')) :
    Settled n vm'.db.conn := by
  unfold ClarityVM.bootSession at hsession
  rw [WrbDB.begin_boot, ok_bind] at hsession
  obtain ⟨⟨reads', s'⟩, hrun, hrest⟩ := ok_of_bind hsession
  have hin : InBoot n s' :=
    runOps_inv (fun s items s' hI _ hput => hI.putAllData hput) (InBoot.of_layered h) (mem_values ops) hrun
  obtain ⟨conn, hcommit, hret⟩ := ok_of_bind hrest
  cases hret
  obtain ⟨kvstore, hset, rfl⟩ := hin.commitTo_cases hcommit
  exact hin.layered.setChainTip hset

theorem reached_next {s : Session} (h : Reached vm.db.conn) (hs : s.Initialised e vm) :
    Reached (vm.next e sha s).db.conn := by
  unfold ClarityVM.next
  cases hsession : vm.session e sha s with
  | error f => exact h
  | ok r =>
    cases s with
    | boot ops =>
      obtain ⟨n, hn⟩ := h.layered
      exact Or.inr ⟨n, settled_boot hn hsession⟩
    | pageLoad ops =>
      obtain ⟨n, hn⟩ := h.settled hs
      obtain ⟨n', _, hn'⟩ := settled_pageLoad hn hsession
      exact Or.inr ⟨n', hn'⟩

/-! ## New files -/

theorem getBlockAtHeight_freshDb : getBlockAtHeight e freshDb 0 0 = .ok (some BOOT_BLOCK_ID) := by
  obtain ⟨r, hr, hq⟩ := e.exists_queryRow (t := freshDb.kvstore) (q := .tipAt 0) (r := WrbDB.sentinel)
    (Select.mem_tipAt.2 ⟨List.mem_singleton_self _, rfl⟩)
  have hrow : r = WrbDB.sentinel := List.mem_singleton.1 (Select.mem_tipAt.1 hr).1
  unfold getBlockAtHeight
  rw [if_neg (lt_irrefl 0), u64ToSql_of_lt (Nat.two_pow_pos 63)]
  simp only [ok_bind, hq, hrow]
  rfl

theorem openDb_freshDb {file : Option Db} (hfile : (WrbDB.setupDb file).1 = freshDb) :
    WrbDB.openDb e file none = .ok ⟨BOOT_BLOCK_ID, freshDb, (WrbDB.setupDb file).2⟩ := by
  have hheight : tiplessGetHighestTipHeight freshDb = 0 := rfl
  unfold WrbDB.openDb
  simp only [hfile, hheight, getBlockAtHeight_freshDb, ok_bind]
  rfl

theorem beginReadOnly_boot {db : WrbDB} :
    db.beginReadOnly e (some BOOT_BLOCK_ID) = .ok ⟨BOOT_BLOCK_ID, 0, db.conn⟩ := by
  unfold WrbDB.beginReadOnly tiplessGetBlockHeightOf
  simp only [Option.getD_some, if_true, expect_ok, ok_bind, expectSome_some]
  rfl

theorem new_none : ClarityVM.new e none = .ok ⟨⟨BOOT_BLOCK_ID, freshDb, true⟩⟩ := by
  unfold ClarityVM.new
  rw [openDb_freshDb rfl]
  rfl

theorem conn_of_new (hnew : ClarityVM.new e none = .ok vm) : vm.db.conn = freshDb := by
  rw [new_none] at hnew
  cases hnew
  rfl

/-- **Files between sessions are new or settled**, as long as page loads begin on initialised files. -/
theorem reached_run (hnew : ClarityVM.new e none = .ok vm) {sessions : List Session}
    (hinit : Always (ClarityVM.next e sha) (fun vm s => s.Initialised e vm) vm sessions) :
    Reached (run (ClarityVM.next e sha) vm sessions).db.conn :=
  run_inv_of_always (I := fun vm : ClarityVM => Reached vm.db.conn) (fun _ _ h hs => reached_next h hs)
    (Or.inl (conn_of_new hnew)) hinit

/-! ## Examples -/

/-- the hashes of a few values -/
def exampleSha (value : String) : Sha512Trunc256Sum :=
  if value = "1" then 0x18d27566bd1ac66b2332d8c54ad43f7bb22079c906d05f491f3f07a28d5c6990
  else if value = "2" then 0x05c005d8e42cf93abcfff401b807ca7b43153bc11a5666ee4fcb6aa9c9cfc13f
  else if value = "3" then 0x4e36e78cb8eb346375194c1de90113cab8680519945fec5bb7cd216eefb482be
  else 0

def exampleVm : ClarityVM := ⟨⟨BOOT_BLOCK_ID, freshDb, true⟩⟩

end Wrb.Vm
