/-
What the sessions keep true of the file. Every height carries one tip: genesis at height 0, above it the tip that
`make_wrb_chain_tip` makes. Rows under the boot tip stand at height 0, and only before or during a boot session.

`Layered`: this invariant, for a transaction too, with the heights up to `n` all present and no row above `top`.
`Settled`: the file after a commit. `Layered.write` and `Layered.setChainTip` are its step lemmas. Under it each query
has one answer: `Settled.getWrbChainTip`, `Layered.tiplessGetBlockHeightOf`, `Layered.getBlockAtHeight` and so on, and
from them what the functions that open a store return.
`Stored`: the side store knows the value of every hash in the table.
-/
import Mathlib.Tactic
import Std.Data.ExtTreeMap
import Wrb.Vm.Db

namespace Wrb.Vm

open Std (ExtTreeMap LawfulEqOrd)
open Wrb.Storage (Sha512Trunc256Sum)

/-! ## The invariant -/

structure Layered (n top : ℕ) (d : Db) : Prop where
  tip : ∀ r ∈ d.kvstore.rows, r.chainTip = makeWrbChainTip r.height ∨ r.chainTip = BOOT_BLOCK_ID ∧ r.height = 0
  small : ∀ r ∈ d.kvstore.rows, r.height < 2 ^ 63
  le : ∀ r ∈ d.kvstore.rows, r.height ≤ top
  reached : ∀ h ≤ n, ∃ r ∈ d.kvstore.rows, r.height = h

/-- no row stands under the boot tip -/
def NoBoot (d : Db) : Prop := ∀ r ∈ d.kvstore.rows, r.chainTip ≠ BOOT_BLOCK_ID

/-- the file after a commit -/
structure Settled (n : ℕ) (d : Db) : Prop where
  layered : Layered n n d
  noBoot : NoBoot d

/-- a new file -/
def freshDb : Db := (WrbDB.setupDb none).1

variable {n top : ℕ} {d : Db}

theorem layered_freshDb : Layered 0 0 freshDb where
  tip r hr := by
    rw [List.mem_singleton.1 hr]
    exact Or.inr ⟨rfl, rfl⟩
  small r hr := by
    rw [List.mem_singleton.1 hr]
    exact Nat.two_pow_pos 63
  le r hr := by
    rw [List.mem_singleton.1 hr]
    exact le_refl 0
  reached h hh := by
    obtain rfl := Nat.le_zero.1 hh
    exact ⟨WrbDB.sentinel, List.mem_singleton_self _, rfl⟩

namespace Layered

/-- rows of the boot tip are at height 0, all others at the tip of their height -/
theorem height_of_boot (h : Layered n top d) {r : Row} (hr : r ∈ d.kvstore.rows)
    (hboot : r.chainTip = BOOT_BLOCK_ID) : r.height = 0 := by
  rcases h.tip r hr with htip | htip
  · exact absurd (htip.symm.trans hboot) (makeWrbChainTip_ne_boot (h.small r hr))
  · exact htip.2

theorem tip_of_ne (h : Layered n top d) {r : Row} (hr : r ∈ d.kvstore.rows)
    (hne : r.chainTip ≠ BOOT_BLOCK_ID) : r.chainTip = makeWrbChainTip r.height := by
  rcases h.tip r hr with htip | htip
  · exact htip
  · exact absurd htip.1 hne

theorem small_of_reached (h : Layered n top d) : n < 2 ^ 63 := by
  obtain ⟨r, hr, heq⟩ := h.reached n (le_refl n)
  rw [← heq]
  exact h.small r hr

/-- which rows stand under the tip of a height -/
theorem height_eq (h : Layered n top d) {r : Row} (hr : r ∈ d.kvstore.rows) {m : ℕ} (hm : m < 2 ^ 63)
    (htip : r.chainTip = makeWrbChainTip m) : r.height = m := by
  have hne : r.chainTip ≠ BOOT_BLOCK_ID := by
    rw [htip]
    exact makeWrbChainTip_ne_boot hm
  rw [h.tip_of_ne hr hne] at htip
  exact (makeWrbChainTip_inj (h.small r hr) hm).1 htip

/-- one entry of a key for each height -/
theorem onePer (h : Layered n top d) (hboot : NoBoot d) :
    Versions.OnePer Row.height Row.key d.kvstore.rows := by
  intro x hx y hy hkey hheight
  refine d.kvstore.eq_of_primaryKey hx hy ?_
  have htip : x.chainTip = y.chainTip := by
    rw [h.tip_of_ne hx (hboot x hx), h.tip_of_ne hy (hboot y hy), hheight]
  unfold Row.primaryKey
  rw [htip, hheight, hkey]

/-! ### Writes -/

/-- **Writing a row at the tip of its height keeps the invariant.** -/
theorem write (h : Layered n top d) {place : StacksBlockId × ℕ}
    (hplace : place.1 = makeWrbChainTip place.2 ∨ place.1 = BOOT_BLOCK_ID ∧ place.2 = 0) (hsmall : place.2 < 2 ^ 63)
    (htop : place.2 ≤ top) (key : String) (hash : Sha512Trunc256Sum) (v : String) :
    Layered n top (d.write place key hash v) where
  tip r hr := by
    rcases Db.mem_write.1 hr with hr | rfl
    · exact h.tip r hr.1
    · exact hplace
  small r hr := by
    rcases Db.mem_write.1 hr with hr | rfl
    · exact h.small r hr.1
    · exact hsmall
  le r hr := by
    rcases Db.mem_write.1 hr with hr | rfl
    · exact h.le r hr.1
    · exact htop
  reached m hm := by
    obtain ⟨r, hr, hheight⟩ := h.reached m hm
    by_cases hkey : r.primaryKey = (place.1, place.2, key)
    · -- the row is replaced, at the same height
      have heq : r.height = place.2 := (Prod.ext_iff.1 (Prod.ext_iff.1 hkey).2).1
      exact ⟨_, Db.mem_write.2 (Or.inr rfl), heq.symm.trans hheight⟩
    · exact ⟨r, Db.mem_write.2 (Or.inl ⟨hr, hkey⟩), hheight⟩

/-! ### Commits -/

/-- the boot rows become genesis rows -/
theorem setChainTip (h : Layered n n d) {kvstore : Kvstore}
    (hset : d.kvstore.setChainTip GENESIS_BLOCK_ID BOOT_BLOCK_ID = some kvstore) :
    Settled n { d with kvstore := kvstore } := by
  have hmem : ∀ x ∈ kvstore.rows, ∃ r ∈ d.kvstore.rows, Kvstore.renamed GENESIS_BLOCK_ID BOOT_BLOCK_ID r = x :=
    fun x hx => (Kvstore.mem_of_setChainTip hset).1 hx
  have htip : ∀ r ∈ d.kvstore.rows,
      (Kvstore.renamed GENESIS_BLOCK_ID BOOT_BLOCK_ID r).chainTip = makeWrbChainTip r.height := by
    intro r hr
    unfold Kvstore.renamed
    split_ifs with hboot
    · rw [h.height_of_boot hr hboot, makeWrbChainTip_zero]
    · exact h.tip_of_ne hr hboot
  refine ⟨⟨?_, ?_, ?_, ?_⟩, ?_⟩
  · intro x hx
    obtain ⟨r, hr, rfl⟩ := hmem x hx
    exact Or.inl (by rw [htip r hr, Kvstore.renamed_height])
  · intro x hx
    obtain ⟨r, hr, rfl⟩ := hmem x hx
    rw [Kvstore.renamed_height]
    exact h.small r hr
  · intro x hx
    obtain ⟨r, hr, rfl⟩ := hmem x hx
    rw [Kvstore.renamed_height]
    exact h.le r hr
  · intro m hm
    obtain ⟨r, hr, hheight⟩ := h.reached m hm
    exact ⟨_, (Kvstore.mem_of_setChainTip hset).2 ⟨r, hr, rfl⟩, by rw [Kvstore.renamed_height, hheight]⟩
  · intro x hx
    obtain ⟨r, hr, rfl⟩ := hmem x hx
    rw [htip r hr]
    exact makeWrbChainTip_ne_boot (h.small r hr)

/-- a page load leaves a new height behind, or none -/
theorem settled (h : Layered n (n + 1) d) (hboot : NoBoot d) :
    Settled n d ∨ Settled (n + 1) d := by
  by_cases hnew : ∃ r ∈ d.kvstore.rows, r.height = n + 1
  · refine Or.inr ⟨⟨h.tip, h.small, h.le, ?_⟩, hboot⟩
    intro m hm
    rcases Nat.le_succ_iff.1 hm with hm | rfl
    · exact h.reached m hm
    · exact hnew
  · refine Or.inl ⟨⟨h.tip, h.small, ?_, h.reached⟩, hboot⟩
    intro r hr
    have hle := h.le r hr
    have hne : r.height ≠ n + 1 := fun heq => hnew ⟨r, hr, heq⟩
    omega

/-! ### Queries -/

section Queries

variable (e : Engine)

theorem queryRow_heightOf (h : Layered n top d) (hboot : NoBoot d) {m : ℕ} (hm : m ≤ n) :
    ∃ r ∈ d.kvstore.rows, r.height = m ∧ e.queryRow d.kvstore (.heightOf (makeWrbChainTip m)) = some r := by
  have hsmall : m < 2 ^ 63 := hm.trans_lt h.small_of_reached
  obtain ⟨r, hr, hheight⟩ := h.reached m hm
  have htip : r.chainTip = makeWrbChainTip m := by rw [h.tip_of_ne hr (hboot r hr), hheight]
  obtain ⟨r', hr', hq⟩ := e.exists_queryRow (Select.mem_heightOf.2 ⟨hr, htip⟩)
  rw [Select.mem_heightOf] at hr'
  exact ⟨r', hr'.1, h.height_eq hr'.1 hsmall hr'.2, hq⟩

theorem getWrbBlockHeight (h : Layered n top d) (hboot : NoBoot d) {m : ℕ} (hm : m ≤ n) :
    Vm.getWrbBlockHeight e d (makeWrbChainTip m) = some m := by
  obtain ⟨r, hr, hheight, hq⟩ := h.queryRow_heightOf e hboot hm
  unfold Vm.getWrbBlockHeight
  rw [hq, Option.map_some, hheight]

theorem tiplessGetBlockHeightOf (h : Layered n top d) (hboot : NoBoot d) {m : ℕ} (hm : m ≤ n) :
    Vm.tiplessGetBlockHeightOf e d (makeWrbChainTip m) = .ok (some m) := by
  obtain ⟨r, hr, hheight, hq⟩ := h.queryRow_heightOf e hboot hm
  have hne := makeWrbChainTip_ne_boot (hm.trans_lt h.small_of_reached)
  have hassert : ¬ (makeWrbChainTip m ≠ GENESIS_BLOCK_ID ∧ m = 0) := by
    intro hzero
    rw [hzero.2, makeWrbChainTip_zero] at hzero
    exact hzero.1 rfl
  unfold Vm.tiplessGetBlockHeightOf
  simp only [if_neg hne, hq, hheight, if_neg hassert]

theorem getBlockHeightOf (h : Layered n top d) (hboot : NoBoot d) {m : ℕ} (hm : m ≤ n) :
    Vm.getBlockHeightOf e d m (makeWrbChainTip m) = .ok (some m) := by
  have hsmall : m < 2 ^ 63 := hm.trans_lt h.small_of_reached
  obtain ⟨r, hr, hheight⟩ := h.reached m hm
  have htip : r.chainTip = makeWrbChainTip m := by rw [h.tip_of_ne hr (hboot r hr), hheight]
  obtain ⟨r', hr', hq⟩ := e.exists_queryRow (Select.mem_heightOfUpTo.2 ⟨hr, htip, hheight.le⟩)
  rw [Select.mem_heightOfUpTo] at hr'
  unfold Vm.getBlockHeightOf
  rw [u64ToSql_of_lt hsmall, ok_bind, hq]
  exact congrArg (fun x => Except.ok (some x)) (h.height_eq hr'.1 hsmall hr'.2.1)

/-- **One tip for each height** -/
theorem getBlockAtHeight (h : Layered n top d) (hboot : NoBoot d) {m tipHeight : ℕ} (hm : m ≤ n)
    (hle : m ≤ tipHeight) : Vm.getBlockAtHeight e d tipHeight m = .ok (some (makeWrbChainTip m)) := by
  have hsmall : m < 2 ^ 63 := hm.trans_lt h.small_of_reached
  obtain ⟨r, hr, hheight⟩ := h.reached m hm
  obtain ⟨r', hr', hq⟩ := e.exists_queryRow (Select.mem_tipAt.2 ⟨hr, hheight⟩)
  rw [Select.mem_tipAt] at hr'
  have htip : r'.chainTip = makeWrbChainTip m := by rw [h.tip_of_ne hr'.1 (hboot r' hr'.1), hr'.2]
  unfold Vm.getBlockAtHeight
  rw [if_neg (Nat.not_lt.2 hle), u64ToSql_of_lt hsmall]
  simp only [ok_bind, hq, Option.map_some, htip]
  rfl

/-- a boot session writes at height 0 -/
theorem target_boot (h : Layered n top d) (nextTip : StacksBlockId) :
    WriteBuffer.target e d BOOT_BLOCK_ID nextTip = (BOOT_BLOCK_ID, 0) := by
  have hheight : ∀ m ∈ Vm.getWrbBlockHeight e d BOOT_BLOCK_ID, m = 0 := by
    intro m hm
    obtain ⟨r, hq, rfl⟩ := Option.map_eq_some_iff.1 hm
    have hr := Select.mem_heightOf.1 (Engine.mem_of_queryRow hq)
    exact h.height_of_boot hr.1 hr.2
  unfold WriteBuffer.target
  cases hm : Vm.getWrbBlockHeight e d BOOT_BLOCK_ID with
  | none => rfl
  | some m =>
    obtain rfl := hheight m hm
    rfl

/-- a page load writes one above its tip -/
theorem target_make (h : Layered n top d) (hboot : NoBoot d) (nextTip : StacksBlockId) :
    WriteBuffer.target e d (makeWrbChainTip n) nextTip = (nextTip, n + 1) := by
  unfold WriteBuffer.target
  rw [h.getWrbBlockHeight e hboot (le_refl n), if_neg (makeWrbChainTip_ne_boot h.small_of_reached)]

end Queries

end Layered

/-! ## Values -/

/-- the side store knows the value of every hash in the table, the sentinel's apart -/
structure Stored (sha : String → Sha512Trunc256Sum) (values : List String) (d : Db) : Prop where
  value : ∀ r ∈ d.kvstore.rows, r.dataHash = BOOT_BLOCK_ID ∨ ∃ v ∈ values, r.dataHash = sha v ∧ d.side[sha v]? = some v
  sentinel : d.side[BOOT_BLOCK_ID]? = none

namespace Stored

variable {sha : String → Sha512Trunc256Sum} {values : List String}

theorem freshDb (sha : String → Sha512Trunc256Sum) (values : List String) : Stored sha values Vm.freshDb where
  value r hr := by
    rw [List.mem_singleton.1 hr]
    exact Or.inl rfl
  sentinel := by simp [Vm.freshDb, WrbDB.setupDb]

/-- the values that are there stay -/
theorem value_write (h : Stored sha values d) (hsha : Faithful sha values) {v : String} (hv : v ∈ values)
    (place : StacksBlockId × ℕ) (key : String) {r : Row} (hr : r ∈ d.kvstore.rows) :
    (d.write place key (sha v) v).value r = d.value r := by
  simp only [Db.value, Db.write, ExtTreeMap.getElem?_insert, LawfulEqOrd.compare_eq_iff_eq]
  split_ifs with heq
  · rcases h.value r hr with hsentinel | ⟨w, hw, hhash, hside⟩
    · rw [hsentinel] at heq
      exact absurd heq (hsha.ne_boot v hv)
    · rw [hhash] at heq
      rw [hhash, hside, hsha.inj v hv w hw heq]
  · rfl

theorem write (h : Stored sha values d) (hsha : Faithful sha values) {v : String} (hv : v ∈ values)
    (place : StacksBlockId × ℕ) (key : String) : Stored sha values (d.write place key (sha v) v) where
  value r hr := by
    rcases Db.mem_write.1 hr with hr | rfl
    · rcases h.value r hr.1 with hsentinel | ⟨w, hw, hhash, hside⟩
      · exact Or.inl hsentinel
      · refine Or.inr ⟨w, hw, hhash, ?_⟩
        have hvalue := h.value_write hsha hv place key hr.1
        unfold Db.value at hvalue
        rw [hhash, hside] at hvalue
        exact hvalue
    · exact Or.inr ⟨v, hv, rfl, ExtTreeMap.getElem?_insert_self⟩
  sentinel := by
    simp only [Db.write, ExtTreeMap.getElem?_insert, LawfulEqOrd.compare_eq_iff_eq]
    rw [if_neg (hsha.ne_boot v hv)]
    exact h.sentinel

theorem writeAll (h : Stored sha values d) (hsha : Faithful sha values) {items : List (String × String)}
    (hv : ∀ item ∈ items, item.2 ∈ values) (place : StacksBlockId × ℕ) :
    Stored sha values (d.writeAll sha place items) := by
  induction items generalizing d with
  | nil => exact h
  | cons item items ih =>
    refine ih (h.write hsha (hv item List.mem_cons_self) place item.1) ?_
    intro x hx
    exact hv x (List.mem_cons_of_mem item hx)

/-- renaming a tip changes no value -/
theorem setChainTip (h : Stored sha values d) {final target : StacksBlockId} {kvstore : Kvstore}
    (hset : d.kvstore.setChainTip final target = some kvstore) : Stored sha values { d with kvstore := kvstore } where
  value x hx := by
    obtain ⟨r, hr, rfl⟩ := (Kvstore.mem_of_setChainTip hset).1 hx
    rw [Kvstore.renamed_dataHash]
    exact h.value r hr
  sentinel := h.sentinel

end Stored

/-! ## What a file answers -/

namespace Settled

variable (e : Engine)

theorem getWrbChainTip (h : Settled n d) : Vm.getWrbChainTip e d = makeWrbChainTip n := by
  have htip : ∀ r ∈ d.kvstore.rows, r.chainTip = makeWrbChainTip r.height :=
    fun r hr => h.layered.tip_of_ne hr (h.noBoot r hr)
  obtain ⟨r, hr, hheight⟩ := h.layered.reached n (le_refl n)
  have hcand : r ∈ Select.highest.candidates d.kvstore.rows := by
    refine Select.mem_highest.2 ⟨hr, ?_⟩
    intro r' hr'
    have hle := h.layered.le r' hr'
    rcases Nat.lt_or_eq_of_le hle with hlt | heq
    · exact Or.inl (hheight ▸ hlt)
    · refine Or.inr ⟨heq.trans hheight.symm, ?_⟩
      rw [htip r hr, htip r' hr', hheight, heq]
      exact BitVec.le_refl _
  obtain ⟨r', hr', hq⟩ := e.exists_queryRow hcand
  rw [Select.mem_highest] at hr'
  have hge : n ≤ r'.height := by
    rcases hr'.2 r hr with hlt | heq
    · omega
    · omega
  have heq : r'.height = n := le_antisymm (h.layered.le r' hr'.1) hge
  simp only [Vm.getWrbChainTip, hq]
  rw [htip r' hr'.1, heq]

theorem tiplessGetHighestTipHeight (h : Settled n d) : Vm.tiplessGetHighestTipHeight d = n := by
  obtain ⟨r, hr, hheight⟩ := h.layered.reached n (le_refl n)
  have hmax : (d.kvstore.rows.map Row.height).max? = some n := by
    rw [List.max?_eq_some_iff]
    refine ⟨List.mem_map.2 ⟨r, hr, hheight⟩, ?_⟩
    intro m hm
    obtain ⟨r', hr', rfl⟩ := List.mem_map.1 hm
    exact h.layered.le r' hr'
  unfold Vm.tiplessGetHighestTipHeight
  rw [hmax, Option.getD_some]

/-- opening the file finds the newest tip -/
theorem openDb (h : Settled n d) :
    WrbDB.openDb e (some d) none = .ok ⟨makeWrbChainTip n, d, false⟩ := by
  unfold WrbDB.openDb
  simp only [WrbDB.setupDb, h.tiplessGetHighestTipHeight,
    h.layered.getBlockAtHeight e h.noBoot (le_refl n) (le_refl n), ok_bind]
  rfl

theorem beginReadOnly (h : Settled n d) {db : WrbDB} (hdb : db.conn = d) {m : ℕ} (hm : m ≤ n) :
    db.beginReadOnly e (some (makeWrbChainTip m)) = .ok ⟨makeWrbChainTip m, m, d⟩ := by
  unfold WrbDB.beginReadOnly
  simp only [hdb, Option.getD_some, h.layered.tiplessGetBlockHeightOf e h.noBoot hm, expect_ok, ok_bind,
    expectSome_some]
  rfl

theorem beginPageLoad (h : Settled n d) {vm : ClarityVM} (hvm : vm.db.conn = d) :
    vm.beginPageLoad e = .ok ⟨makeWrbChainTip n, n + 1, makeWrbChainTip (n + 1), d, .new⟩ := by
  have hne := makeWrbChainTip_ne_boot h.layered.small_of_reached
  unfold ClarityVM.beginPageLoad WrbDB.begin
  simp only [hvm, h.getWrbChainTip e, h.layered.getWrbBlockHeight e h.noBoot (le_refl n), expectSome_some, ok_bind,
    h.layered.tiplessGetBlockHeightOf e h.noBoot (le_refl n), expect_ok, if_neg hne,
    h.layered.getBlockHeightOf e h.noBoot (le_refl n)]
  rfl

end Settled

theorem WrbDB.begin_boot (e : Engine) (db : WrbDB) (next : StacksBlockId) :
    db.begin e BOOT_BLOCK_ID next = .ok ⟨BOOT_BLOCK_ID, 0, next, db.conn, .new⟩ := by
  unfold WrbDB.begin Vm.tiplessGetBlockHeightOf
  simp only [if_true, expect_ok, expectSome_some, ok_bind]
  rfl

end Wrb.Vm
