/-
Moving a store to an earlier block and back (`set_block_hash`), as Clarity's `at-block` does.

`Store.restores_iff_findsBack`: what the two switches need, in any file whatsoever.
`Open`: the stores the database hands out, after any batches and any switches. Their files are `Layered`, where every
tip has one height (`Open.layered`), so that the store comes back exactly when its tip and the block stand at the height
the store reads at (`setBlockHash_restores_iff`). A read-only store comes back from its own tip only
(`readOnly_restores_iff`), the store of a page load never, since it reads one above its tip (`pageLoad_never_restores`).
-/
import Mathlib.Tactic
import Std.Data.ExtTreeMap
import Wrb.Lib.Runs
import Wrb.Vm.Sessions

namespace Wrb.Vm

open Wrb.Storage (Sha512Trunc256Sum)
open Wrb.Runs

/-! ## Stores of both kinds -/

inductive Store where
  | readOnly (s : ReadOnlyWrbStore)
  | writable (s : WritableWrbStore)
deriving DecidableEq

namespace Store

def chainTip : Store → StacksBlockId
  | .readOnly s => s.chainTip
  | .writable s => s.chainTip

def tipHeight : Store → ℕ
  | .readOnly s => s.tipHeight
  | .writable s => s.tipHeight

def conn : Store → Db
  | .readOnly s => s.conn
  | .writable s => s.tx

def setBlockHash (e : Engine) : Store → StacksBlockId → Except Fault (StacksBlockId × Store)
  | .readOnly s, bhh => do
    let (old, s) ← s.setBlockHash e bhh
    return (old, .readOnly s)
  | .writable s, bhh => do
    let (old, s) ← s.setBlockHash e bhh
    return (old, .writable s)

/-- the store at another tip and height -/
def moved (tip : StacksBlockId) (height : ℕ) : Store → Store
  | .readOnly s => .readOnly { s with chainTip := tip, tipHeight := height }
  | .writable s => .writable { s with chainTip := tip, tipHeight := height }

@[simp] theorem moved_chainTip (s : Store) (tip : StacksBlockId) (height : ℕ) :
    (s.moved tip height).chainTip = tip := by
  cases s <;> rfl

@[simp] theorem moved_tipHeight (s : Store) (tip : StacksBlockId) (height : ℕ) :
    (s.moved tip height).tipHeight = height := by
  cases s <;> rfl

@[simp] theorem moved_conn (s : Store) (tip : StacksBlockId) (height : ℕ) : (s.moved tip height).conn = s.conn := by
  cases s <;> rfl

@[simp] theorem moved_moved (s : Store) (tip tip' : StacksBlockId) (height height' : ℕ) :
    (s.moved tip height).moved tip' height' = s.moved tip' height' := by
  cases s <;> rfl

@[simp] theorem moved_self (s : Store) : s.moved s.chainTip s.tipHeight = s := by
  cases s <;> rfl

/-- **A switch moves the store**, and reports where it was -/
theorem setBlockHash_eq (e : Engine) (s : Store) (bhh : StacksBlockId) :
    s.setBlockHash e bhh = (switchBlock e s.conn s.tipHeight bhh).map fun h => (s.chainTip, s.moved bhh h) := by
  cases s with
  | readOnly s =>
    unfold setBlockHash ReadOnlyWrbStore.setBlockHash
    cases h : switchBlock e s.conn s.tipHeight bhh <;> simp only [conn, tipHeight, h] <;> rfl
  | writable s =>
    unfold setBlockHash WritableWrbStore.setBlockHash
    cases h : switchBlock e s.tx s.tipHeight bhh <;> simp only [conn, tipHeight, h] <;> rfl

end Store

variable {e : Engine} {sha : String → Sha512Trunc256Sum}

/-! ## There and back -/

theorem switchBlock_eq_ok_iff {conn : Db} {n h : ℕ} {bhh : StacksBlockId} :
    switchBlock e conn n bhh = .ok h ↔
      checkBlockHash e conn n bhh = .ok true ∧ tiplessGetBlockHeightOf e conn bhh = .ok (some h) := by
  constructor
  · intro hswitch
    unfold switchBlock at hswitch
    obtain ⟨found, hfound, hrest⟩ := ok_of_bind hswitch
    cases found with
    | false => cases hrest
    | true =>
      obtain ⟨height, hheight, hret⟩ := ok_of_bind hrest
      cases height with
      | none => cases hret
      | some h' =>
        cases hret
        exact ⟨ok_of_expect hfound, ok_of_expect hheight⟩
  · rintro ⟨hcheck, hheight⟩
    unfold switchBlock
    rw [hcheck, hheight]
    rfl

namespace Store

/-- the switch to `bhh` answers the tip of the store, the switch back answers `bhh` and leaves the store as it was -/
def Restores (e : Engine) (s : Store) (bhh : StacksBlockId) : Prop :=
  ∃ s', s.setBlockHash e bhh = .ok (s.chainTip, s') ∧ s'.setBlockHash e s.chainTip = .ok (bhh, s)

/-- `bhh` is found from the height of the store, the tip of the store from the height of `bhh`, and the tip's height is
that of the store -/
def FindsBack (e : Engine) (s : Store) (bhh : StacksBlockId) : Prop :=
  checkBlockHash e s.conn s.tipHeight bhh = .ok true ∧
    (∃ h, tiplessGetBlockHeightOf e s.conn bhh = .ok (some h) ∧ checkBlockHash e s.conn h s.chainTip = .ok true) ∧
    tiplessGetBlockHeightOf e s.conn s.chainTip = .ok (some s.tipHeight)

theorem setBlockHash_eq_ok_iff {s s' : Store} {bhh old : StacksBlockId} :
    s.setBlockHash e bhh = .ok (old, s') ↔
      ∃ h, switchBlock e s.conn s.tipHeight bhh = .ok h ∧ old = s.chainTip ∧ s' = s.moved bhh h := by
  rw [setBlockHash_eq]
  cases switchBlock e s.conn s.tipHeight bhh with
  | error f => simp [Except.map]
  | ok h => simp [Except.map, eq_comm]

/-- what the two switches need -/
theorem restores_iff_findsBack {s : Store} {bhh : StacksBlockId} : s.Restores e bhh ↔ s.FindsBack e bhh := by
  constructor
  · rintro ⟨s', hthere, hback⟩
    obtain ⟨h, hswitch, -, rfl⟩ := setBlockHash_eq_ok_iff.1 hthere
    obtain ⟨h', hswitch', -, hs⟩ := setBlockHash_eq_ok_iff.1 hback
    rw [moved_conn, moved_tipHeight] at hswitch'
    have hheight : h' = s.tipHeight := by
      have hmoved := congrArg tipHeight hs
      rw [moved_tipHeight] at hmoved
      exact hmoved.symm
    obtain ⟨hcheck, hfound⟩ := switchBlock_eq_ok_iff.1 hswitch
    obtain ⟨hcheck', hfound'⟩ := switchBlock_eq_ok_iff.1 hswitch'
    rw [hheight] at hfound'
    exact ⟨hcheck, ⟨h, hfound, hcheck'⟩, hfound'⟩
  · rintro ⟨hcheck, ⟨h, hfound, hcheck'⟩, hfound'⟩
    refine ⟨s.moved bhh h, setBlockHash_eq_ok_iff.2 ⟨h, switchBlock_eq_ok_iff.2 ⟨hcheck, hfound⟩, rfl, rfl⟩, ?_⟩
    refine setBlockHash_eq_ok_iff.2 ⟨s.tipHeight, ?_, (moved_chainTip s bhh h).symm, ?_⟩
    · rw [moved_conn, moved_tipHeight]
      exact switchBlock_eq_ok_iff.2 ⟨hcheck', hfound'⟩
    · rw [moved_moved, moved_self]

end Store

/-! ## Files in which every tip has one height -/

/-- a row under the tip at the height -/
def StandsAt (d : Db) (tip : StacksBlockId) (h : ℕ) : Prop := ∃ r ∈ d.kvstore.rows, r.chainTip = tip ∧ r.height = h

instance (d : Db) (tip : StacksBlockId) (h : ℕ) : Decidable (StandsAt d tip h) :=
  inferInstanceAs (Decidable (∃ _ ∈ _, _ ∧ _))

theorem checkBlockHash_eq_true_iff {d : Db} {h : ℕ} {bhh : StacksBlockId} :
    checkBlockHash e d h bhh = .ok true ↔ h < 2 ^ 63 ∧ ∃ r ∈ d.kvstore.rows, r.chainTip = bhh ∧ r.height ≤ h := by
  unfold checkBlockHash u64ToSql
  split_ifs with hsmall
  · rw [ok_bind]
    rcases e.queryRow_cases (t := d.kvstore) (q := .heightOfUpTo bhh h) with ⟨r, hr, hq⟩ | ⟨hq, hnone⟩
    · rw [hq]
      exact iff_of_true rfl ⟨hsmall, r, Select.mem_heightOfUpTo.1 hr⟩
    · rw [hq]
      refine iff_of_false (by intro h; cases h) ?_
      rintro ⟨-, r, hr⟩
      exact hnone r (Select.mem_heightOfUpTo.2 hr)
  · refine iff_of_false (by intro h; cases h) ?_
    intro h
    exact hsmall h.1

namespace Layered

variable {n top : ℕ} {d : Db}

theorem height_unique (h : Layered n top d) {r r' : Row} (hr : r ∈ d.kvstore.rows) (hr' : r' ∈ d.kvstore.rows)
    (htip : r.chainTip = r'.chainTip) : r.height = r'.height := by
  by_cases hboot : r'.chainTip = BOOT_BLOCK_ID
  · rw [h.height_of_boot hr (htip.trans hboot), h.height_of_boot hr' hboot]
  · exact h.height_eq hr (h.small r' hr') (htip.trans (h.tip_of_ne hr' hboot))

theorem tiplessGetBlockHeightOf_of_row (h : Layered n top d) {r : Row} (hr : r ∈ d.kvstore.rows) :
    Vm.tiplessGetBlockHeightOf e d r.chainTip = .ok (some r.height) := by
  unfold Vm.tiplessGetBlockHeightOf
  by_cases hboot : r.chainTip = BOOT_BLOCK_ID
  · rw [if_pos hboot, h.height_of_boot hr hboot]
  · obtain ⟨r', hr', hq⟩ := e.exists_queryRow (t := d.kvstore) (Select.mem_heightOf.2 ⟨hr, rfl⟩)
    rw [Select.mem_heightOf] at hr'
    have hheight := h.height_unique hr'.1 hr hr'.2
    have hassert : ¬ (r.chainTip ≠ GENESIS_BLOCK_ID ∧ r.height = 0) := by
      intro hzero
      rw [h.tip_of_ne hr hboot, hzero.2, makeWrbChainTip_zero] at hzero
      exact hzero.1 rfl
    simp only [if_neg hboot, hq, hheight, if_neg hassert]

/-- **There and back, where every tip has one height** -/
theorem findsBack_iff {s : Store} (h : Layered n top s.conn) {bhh : StacksBlockId} :
    s.FindsBack e bhh ↔ StandsAt s.conn s.chainTip s.tipHeight ∧ StandsAt s.conn bhh s.tipHeight := by
  constructor
  · rintro ⟨hcheck, ⟨m, hheight, hcheck'⟩, htip⟩
    obtain ⟨-, rb, hrb, rfl, hrb'⟩ := checkBlockHash_eq_true_iff.1 hcheck
    obtain ⟨-, rt, hrt, hrttip, hrt'⟩ := checkBlockHash_eq_true_iff.1 hcheck'
    rw [h.tiplessGetBlockHeightOf_of_row hrb] at hheight
    rw [← hrttip, h.tiplessGetBlockHeightOf_of_row hrt] at htip
    cases hheight
    have htop : rt.height = s.tipHeight := Option.some.inj (Except.ok.inj htip)
    exact ⟨⟨rt, hrt, hrttip, htop⟩, rb, hrb, rfl, le_antisymm hrb' (htop ▸ hrt')⟩
  · rintro ⟨⟨rt, hrt, hrttip, hrt'⟩, rb, hrb, rfl, hrb'⟩
    have hsmall : s.tipHeight < 2 ^ 63 := hrb' ▸ h.small rb hrb
    refine ⟨checkBlockHash_eq_true_iff.2 ⟨hsmall, rb, hrb, rfl, hrb'.le⟩, ⟨rb.height, ?_, ?_⟩, ?_⟩
    · exact h.tiplessGetBlockHeightOf_of_row hrb
    · exact checkBlockHash_eq_true_iff.2 ⟨h.small rb hrb, rt, hrt, hrttip, (hrt'.trans hrb'.symm).le⟩
    · rw [← hrttip, h.tiplessGetBlockHeightOf_of_row hrt, hrt']

end Layered

/-! ## Stores that the database hands out -/

/-- a store as it is opened, after any batches -/
inductive Opened (e : Engine) (sha : String → Sha512Trunc256Sum) (vm : ClarityVM) : Store → Prop where
  | readOnly (tip : Option StacksBlockId) {s : ReadOnlyWrbStore} (h : vm.db.beginReadOnly e tip = .ok s) :
    Opened e sha vm (.readOnly s)
  | boot {s : WritableWrbStore} (h : vm.db.begin e BOOT_BLOCK_ID GENESIS_BLOCK_ID = .ok s) :
    Opened e sha vm (.writable s)
  | pageLoad {s : WritableWrbStore} (h : vm.beginPageLoad e = .ok s) : Opened e sha vm (.writable s)
  | put {s s' : WritableWrbStore} {items : List (String × String)} (h : Opened e sha vm (.writable s))
    (hput : s.putAllData e sha items = .ok s') : Opened e sha vm (.writable s')

/-- the same, after any switches -/
inductive Open (e : Engine) (sha : String → Sha512Trunc256Sum) (vm : ClarityVM) : Store → Prop where
  | opened {s : Store} (h : Opened e sha vm s) : Open e sha vm s
  | switched {s s' : Store} {bhh old : StacksBlockId} (h : Open e sha vm s)
    (hset : s.setBlockHash e bhh = .ok (old, s')) : Open e sha vm s'

/-- what is true of a store that has not been switched -/
def Store.Fits : Store → Prop
  | .readOnly s => ∃ n, Layered n n s.conn
  | .writable s => ∃ n, InBoot n s ∨ InPageLoad n s

theorem Store.Fits.layered {s : Store} (h : s.Fits) : ∃ n top, Layered n top s.conn := by
  cases s with
  | readOnly s =>
    obtain ⟨n, hn⟩ := h
    exact ⟨n, n, hn⟩
  | writable s =>
    obtain ⟨n, hboot | hpage⟩ := h
    · exact ⟨n, n, hboot.layered⟩
    · exact ⟨n, n + 1, hpage.layered⟩

theorem conn_of_beginReadOnly {db : WrbDB} {tip : Option StacksBlockId} {s : ReadOnlyWrbStore}
    (h : db.beginReadOnly e tip = .ok s) : s.conn = db.conn := by
  unfold WrbDB.beginReadOnly at h
  obtain ⟨height, _, hrest⟩ := ok_of_bind h
  obtain ⟨tipHeight, _, hret⟩ := ok_of_bind hrest
  cases hret
  rfl

/-- a page load on a new file opens a store at the boot tip -/
theorem beginPageLoad_freshDb {vm : ClarityVM} (h : vm.db.conn = freshDb) :
    vm.beginPageLoad e = .ok ⟨BOOT_BLOCK_ID, 0, makeWrbChainTip 1, freshDb, .new⟩ := by
  have hheight : getWrbBlockHeight e freshDb BOOT_BLOCK_ID = some 0 := by
    obtain ⟨r, hr, hq⟩ := e.exists_queryRow (t := freshDb.kvstore) (q := .heightOf BOOT_BLOCK_ID) (r := WrbDB.sentinel)
      (Select.mem_heightOf.2 ⟨List.mem_singleton_self _, rfl⟩)
    have hrow : r = WrbDB.sentinel := List.mem_singleton.1 (Select.mem_heightOf.1 hr).1
    unfold getWrbBlockHeight
    rw [hq, hrow]
    rfl
  unfold ClarityVM.beginPageLoad
  simp only [h, getWrbChainTip_freshDb, hheight, expectSome_some, ok_bind, WrbDB.begin_boot]

variable {vm : ClarityVM}

theorem Opened.fits {s : Store} (hvm : Reached vm.db.conn) (h : Opened e sha vm s) : s.Fits := by
  obtain ⟨n, hn⟩ := hvm.layered
  induction h with
  | readOnly _ hopen =>
    refine ⟨n, ?_⟩
    rw [conn_of_beginReadOnly hopen]
    exact hn
  | boot hopen =>
    rw [WrbDB.begin_boot] at hopen
    cases hopen
    exact ⟨n, Or.inl (InBoot.of_layered hn)⟩
  | pageLoad hopen =>
    rcases hvm with hfresh | ⟨m, hm⟩
    · rw [beginPageLoad_freshDb hfresh] at hopen
      cases hopen
      exact ⟨0, Or.inl ⟨rfl, rfl, rfl, layered_freshDb⟩⟩
    · rw [hm.beginPageLoad e rfl] at hopen
      cases hopen
      exact ⟨m, Or.inr (InPageLoad.of_settled hm)⟩
  | put _ hput ih =>
    obtain ⟨m, hboot | hpage⟩ := ih
    · exact ⟨m, Or.inl (hboot.putAllData hput)⟩
    · exact ⟨m, Or.inr (hpage.putAllData hput)⟩

/-- **In the file of an open store every tip has one height.** -/
theorem Open.layered {s : Store} (hvm : Reached vm.db.conn) (h : Open e sha vm s) : ∃ n top, Layered n top s.conn := by
  induction h with
  | opened h => exact (h.fits hvm).layered
  | switched _ hset ih =>
    obtain ⟨height, _, _, rfl⟩ := Store.setBlockHash_eq_ok_iff.1 hset
    rw [Store.moved_conn]
    exact ih

/-! ## Which stores come back -/

/-- a read-only store comes back from its own tip only -/
theorem readOnly_restores_iff {n m : ℕ} {d : Db} (h : Settled n d) (hm : m ≤ n) {bhh : StacksBlockId} :
    (Store.readOnly ⟨makeWrbChainTip m, m, d⟩).Restores e bhh ↔ bhh = makeWrbChainTip m := by
  have htip : StandsAt d (makeWrbChainTip m) m := by
    obtain ⟨r, hr, hheight⟩ := h.layered.reached m hm
    exact ⟨r, hr, by rw [h.layered.tip_of_ne hr (h.noBoot r hr), hheight], hheight⟩
  rw [Store.restores_iff_findsBack, Layered.findsBack_iff (s := .readOnly ⟨makeWrbChainTip m, m, d⟩) h.layered]
  constructor
  · rintro ⟨-, r, hr, rfl, hheight⟩
    have hrow := h.layered.tip_of_ne hr (h.noBoot r hr)
    rw [hrow, show r.height = m from hheight]
  · intro heq
    rw [heq]
    exact ⟨htip, htip⟩

/-- the store of a page load reads one above its tip, and comes back from no block -/
theorem pageLoad_never_restores {n : ℕ} {s : WritableWrbStore} (h : InPageLoad n s) (bhh : StacksBlockId) :
    ¬ (Store.writable s).Restores e bhh := by
  rw [Store.restores_iff_findsBack, Layered.findsBack_iff (s := .writable s) h.layered]
  rintro ⟨⟨r, hr, htip, hheight⟩, -⟩
  have hrow : r.height = n := h.layered.height_eq hr h.layered.small_of_reached (htip.trans h.chainTip)
  have htop : r.height = n + 1 := hheight.trans h.tipHeight
  omega

/-- **When a store comes back.** Any store: when its tip is found again at its height. An open store: exactly when its
tip and the block both stand at the height it reads at. -/
theorem setBlockHash_restores_iff (e : Engine) (sha : String → Sha512Trunc256Sum) (s : Store) (bhh : StacksBlockId) :
    (s.Restores e bhh ↔ s.FindsBack e bhh) ∧
      ∀ (vm : ClarityVM) (before : List Session), ClarityVM.new e none = .ok vm →
        Always (ClarityVM.next e sha) (fun vm s => s.Initialised e vm) vm before →
        Open e sha (run (ClarityVM.next e sha) vm before) s →
        (s.Restores e bhh ↔ StandsAt s.conn s.chainTip s.tipHeight ∧ StandsAt s.conn bhh s.tipHeight) := by
  refine ⟨Store.restores_iff_findsBack, ?_⟩
  intro vm before hnew hinit hopen
  obtain ⟨n, top, hlayered⟩ := hopen.layered (reached_run hnew hinit)
  rw [Store.restores_iff_findsBack, hlayered.findsBack_iff]

def exampleSessions : List Session := [.boot [.put [("a", "1")]], .pageLoad [.put [("a", "2")]]]

/-- an app after one page load -/
def exampleLoaded : ClarityVM := run (ClarityVM.next .inOrder exampleSha) exampleVm exampleSessions

def exampleReadOnly : ReadOnlyWrbStore := ⟨makeWrbChainTip 1, 1, exampleLoaded.db.conn⟩

def examplePageLoad : WritableWrbStore :=
  ⟨makeWrbChainTip 1, 2, makeWrbChainTip 2, exampleLoaded.db.conn, .new⟩

theorem setBlockHash_restores_own_tip : (Store.readOnly exampleReadOnly).Restores .inOrder (makeWrbChainTip 1) :=
  ((setBlockHash_restores_iff .inOrder exampleSha _ _).2 exampleVm exampleSessions new_none (by decide +kernel)
    (.opened (.readOnly (some (makeWrbChainTip 1)) (by decide +kernel)))).2 (by decide +kernel)

/-- **An earlier block does not give the store back.** From the genesis block the tip is not found again; a page load
comes back one height too low even from its own tip. -/
theorem at_block_fails :
    (Opened .inOrder exampleSha exampleLoaded (.readOnly exampleReadOnly) ∧
      StandsAt exampleLoaded.db.conn GENESIS_BLOCK_ID 0 ∧
      ¬ (Store.readOnly exampleReadOnly).Restores .inOrder GENESIS_BLOCK_ID) ∧
    Opened .inOrder exampleSha exampleLoaded (.writable examplePageLoad) ∧
      StandsAt exampleLoaded.db.conn (makeWrbChainTip 1) 1 ∧
      ¬ (Store.writable examplePageLoad).Restores .inOrder (makeWrbChainTip 1) := by
  refine ⟨⟨.readOnly (some (makeWrbChainTip 1)) (by decide +kernel), by decide +kernel, ?_⟩,
    .pageLoad (by decide +kernel), by decide +kernel, ?_⟩
  · rw [Store.restores_iff_findsBack]
    rintro ⟨-, ⟨h, hheight, hcheck⟩, -⟩
    have hgenesis : tiplessGetBlockHeightOf .inOrder exampleLoaded.db.conn GENESIS_BLOCK_ID = .ok (some 0) := by
      decide +kernel
    have hlost : checkBlockHash .inOrder exampleLoaded.db.conn 0 (makeWrbChainTip 1) = .ok false := by decide +kernel
    cases hgenesis.symm.trans hheight
    cases hlost.symm.trans hcheck
  · rw [Store.restores_iff_findsBack]
    rintro ⟨-, -, htip⟩
    have hheight : tiplessGetBlockHeightOf .inOrder exampleLoaded.db.conn (makeWrbChainTip 1) = .ok (some 1) := by
      decide +kernel
    cases hheight.symm.trans htip

end Wrb.Vm
