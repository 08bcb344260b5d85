/-
The table under the Clarity VM's storage (`src/vm/storage/db.rs`, `src/vm/storage/util.rs`) and the statements on it.

A block ID is the number its 32 bytes spell, which is also the order of the `TEXT` column `chain_tip`; heights are
natural numbers. `Kvstore` carries its primary key. Where SQLite does not say which of several rows comes first,
`Engine` chooses. `Db` is the file: `kvstore`, and the side store from hashes to values, which is code outside the
repository.

`Kvstore.mem_replaceInto`, `Kvstore.mem_of_setChainTip`: the rows after `REPLACE` and after `UPDATE`.
`Engine.queryRow_cases`: a query answers with some row that may come first, or there is none.
-/
import Mathlib.Tactic
import Std.Data.ExtTreeMap
import Wrb.Lib.Versions
import Wrb.Storage.Basic

namespace Wrb.Vm

open Std
open Wrb.Storage (Sha512Trunc256Sum)

/-! ## Block IDs -/

abbrev StacksBlockId := BitVec 256

def BOOT_BLOCK_ID : StacksBlockId := BitVec.allOnes 256
def GENESIS_BLOCK_ID : StacksBlockId := 0

/-- the height in the first eight bytes, big-endian, and zeros after it -/
def makeWrbChainTip (curHeight : ℕ) : StacksBlockId := BitVec.ofNat 64 curHeight ++ (0 : BitVec 192)

theorem makeWrbChainTip_zero : makeWrbChainTip 0 = GENESIS_BLOCK_ID := by decide +kernel

theorem toNat_makeWrbChainTip {h : ℕ} (hh : h < 2 ^ 63) : (makeWrbChainTip h).toNat = h * 2 ^ 192 := by
  have hmod : h % 2 ^ 64 = h := Nat.mod_eq_of_lt (by omega)
  unfold makeWrbChainTip
  rw [BitVec.toNat_append, BitVec.toNat_ofNat, hmod]
  simp [Nat.shiftLeft_eq]

theorem makeWrbChainTip_inj {h h' : ℕ} (hh : h < 2 ^ 63) (hh' : h' < 2 ^ 63) :
    makeWrbChainTip h = makeWrbChainTip h' ↔ h = h' := by
  constructor
  · intro heq
    have hnat := congrArg BitVec.toNat heq
    rw [toNat_makeWrbChainTip hh, toNat_makeWrbChainTip hh'] at hnat
    exact Nat.eq_of_mul_eq_mul_right (by positivity) hnat
  · intro heq
    rw [heq]

theorem makeWrbChainTip_ne_boot {h : ℕ} (hh : h < 2 ^ 63) : makeWrbChainTip h ≠ BOOT_BLOCK_ID := by
  intro heq
  have hnat := congrArg BitVec.toNat heq
  rw [toNat_makeWrbChainTip hh, BOOT_BLOCK_ID, BitVec.toNat_allOnes] at hnat
  omega

/-! ## The table -/

structure Row where
  chainTip : StacksBlockId
  height : ℕ
  key : String
  dataHash : Sha512Trunc256Sum
deriving DecidableEq, Repr

def Row.primaryKey (r : Row) : StacksBlockId × ℕ × String := (r.chainTip, r.height, r.key)

/-- `kvstore`, with its rows in any order -/
structure Kvstore where
  rows : List Row
  unique : (rows.map Row.primaryKey).Nodup
deriving DecidableEq

namespace Kvstore

/-- `REPLACE INTO kvstore`: a row with the same primary key goes -/
def replaceInto (t : Kvstore) (r : Row) : Kvstore where
  rows := t.rows.filter (fun x => x.primaryKey ≠ r.primaryKey) ++ [r]
  unique := by
    rw [List.map_append, List.nodup_append]
    refine ⟨t.unique.sublist (List.filter_sublist.map _), by simp, ?_⟩
    intro a ha b hb
    obtain ⟨x, hx, rfl⟩ := List.mem_map.1 ha
    have hne := (List.mem_filter.1 hx).2
    have hb' : b = r.primaryKey := by simpa using hb
    rw [hb']
    exact of_decide_eq_true hne

def renamed (final target : StacksBlockId) (r : Row) : Row :=
  if r.chainTip = target then { r with chainTip := final } else r

/-- `UPDATE kvstore SET chain_tip = ?1 WHERE chain_tip = ?2`; `none` is a violation of the primary key -/
def setChainTip (t : Kvstore) (final target : StacksBlockId) : Option Kvstore :=
  if h : ((t.rows.map (renamed final target)).map Row.primaryKey).Nodup then some ⟨_, h⟩ else none

theorem eq_of_primaryKey (t : Kvstore) {r r' : Row} (hr : r ∈ t.rows) (hr' : r' ∈ t.rows)
    (h : r.primaryKey = r'.primaryKey) : r = r' :=
  List.inj_on_of_nodup_map t.unique hr hr' h

theorem mem_replaceInto {t : Kvstore} {r x : Row} :
    x ∈ (t.replaceInto r).rows ↔ (x ∈ t.rows ∧ x.primaryKey ≠ r.primaryKey) ∨ x = r := by
  simp [replaceInto, List.mem_append, List.mem_filter]

@[simp] theorem renamed_height (final target : StacksBlockId) (r : Row) :
    (renamed final target r).height = r.height := by
  unfold renamed
  split <;> rfl

@[simp] theorem renamed_key (final target : StacksBlockId) (r : Row) : (renamed final target r).key = r.key := by
  unfold renamed
  split <;> rfl

@[simp] theorem renamed_dataHash (final target : StacksBlockId) (r : Row) :
    (renamed final target r).dataHash = r.dataHash := by
  unfold renamed
  split <;> rfl

theorem renamed_self (tip : StacksBlockId) (r : Row) : renamed tip tip r = r := by
  unfold renamed
  split
  · rename_i h
    rw [← h]
  · rfl

theorem rows_of_setChainTip {t t' : Kvstore} {final target : StacksBlockId} (h : t.setChainTip final target = some t') :
    t'.rows = t.rows.map (renamed final target) := by
  unfold setChainTip at h
  split_ifs at h
  cases h
  rfl

theorem mem_of_setChainTip {t t' : Kvstore} {final target : StacksBlockId} (h : t.setChainTip final target = some t')
    {x : Row} : x ∈ t'.rows ↔ ∃ r ∈ t.rows, renamed final target r = x := by
  rw [rows_of_setChainTip h, List.mem_map]

/-- renaming a tip to itself changes nothing -/
theorem setChainTip_self (t : Kvstore) (tip : StacksBlockId) : t.setChainTip tip tip = some t := by
  have hmap : t.rows.map (renamed tip tip) = t.rows := by
    rw [List.map_congr_left fun r _ => renamed_self tip r, List.map_id']
  unfold setChainTip
  rw [dif_pos (by rw [hmap]; exact t.unique)]
  congr 1
  cases t
  simpa using hmap

/-- the rename meets no row that is there already -/
theorem setChainTip_of_injOn {t : Kvstore} (final target : StacksBlockId)
    (h : ∀ r ∈ t.rows, ∀ r' ∈ t.rows, r.height = r'.height → r.key = r'.key → r = r') :
    ∃ t', t.setChainTip final target = some t' := by
  refine ⟨_, dif_pos ?_⟩
  rw [List.map_map]
  refine (List.nodup_map_iff_inj_on (t.unique.of_map _)).2 ?_
  intro r hr r' hr' heq
  simp only [Function.comp_apply, Row.primaryKey, renamed_height, renamed_key, Prod.mk.injEq] at heq
  exact h r hr r' hr' heq.2.1 heq.2.2

end Kvstore

/-! ## Queries -/

/-- the statements of which the code takes the first row -/
inductive Select where
  /-- `SELECT height FROM kvstore WHERE chain_tip = ?1` -/
  | heightOf (bhh : StacksBlockId)
  /-- `SELECT height FROM kvstore WHERE chain_tip = ?1 AND height <= ?2`, and the same with `SELECT 1` -/
  | heightOfUpTo (bhh : StacksBlockId) (tipHeight : ℕ)
  /-- `SELECT chain_tip FROM kvstore WHERE height = ?1` -/
  | tipAt (height : ℕ)
  /-- `SELECT data_hash FROM kvstore WHERE key = ?1 AND height <= ?2 ORDER BY height DESC` -/
  | hashOf (key : String) (tipHeight : ℕ)
  /-- `SELECT chain_tip FROM kvstore ORDER BY height DESC, chain_tip ASC LIMIT 1` -/
  | highest
deriving DecidableEq, Repr

/-- the rows that may come first -/
def Select.candidates : Select → List Row → List Row
  | .heightOf bhh, rows => rows.filter fun r => r.chainTip = bhh
  | .heightOfUpTo bhh tipHeight, rows => rows.filter fun r => r.chainTip = bhh ∧ r.height ≤ tipHeight
  | .tipAt height, rows => rows.filter fun r => r.height = height
  | .hashOf key tipHeight, rows => rows.filter fun r => r.key = key ∧ r.height ≤ tipHeight ∧
      ∀ r' ∈ rows, r'.key = key → r'.height ≤ tipHeight → r'.height ≤ r.height
  | .highest, rows => rows.filter fun r =>
      ∀ r' ∈ rows, r'.height < r.height ∨ r'.height = r.height ∧ r.chainTip ≤ r'.chainTip

/-- how SQLite orders rows where the statement leaves it open -/
structure Engine where
  first : Select → (rows : List Row) → rows ≠ [] → {r // r ∈ rows}

/-- the rows in the order in which they were written -/
def Engine.inOrder : Engine where
  first _ rows h := ⟨rows.head h, List.head_mem h⟩

/-- `query_row`: the first row, if there is one -/
def Engine.queryRow (e : Engine) (t : Kvstore) (q : Select) : Option Row :=
  if h : q.candidates t.rows ≠ [] then some (e.first q _ h).1 else none

section Queries

variable {e : Engine} {t : Kvstore} {q : Select}

theorem Engine.mem_of_queryRow {r : Row} (h : e.queryRow t q = some r) : r ∈ q.candidates t.rows := by
  unfold queryRow at h
  split_ifs at h
  cases h
  exact (e.first q _ _).2

theorem Engine.queryRow_eq_none_iff : e.queryRow t q = none ↔ ∀ r, r ∉ q.candidates t.rows := by
  unfold queryRow
  split_ifs with h
  · exact iff_of_false (by simp) fun hnone => h (List.eq_nil_iff_forall_not_mem.2 hnone)
  · exact iff_of_true rfl (List.eq_nil_iff_forall_not_mem.1 (not_not.1 h))

theorem Engine.queryRow_cases :
    (∃ r ∈ q.candidates t.rows, e.queryRow t q = some r) ∨
      e.queryRow t q = none ∧ ∀ r, r ∉ q.candidates t.rows := by
  cases h : e.queryRow t q with
  | none => exact Or.inr ⟨rfl, Engine.queryRow_eq_none_iff.1 h⟩
  | some r => exact Or.inl ⟨r, Engine.mem_of_queryRow h, rfl⟩

theorem Engine.exists_queryRow {r : Row} (h : r ∈ q.candidates t.rows) :
    ∃ r' ∈ q.candidates t.rows, e.queryRow t q = some r' := by
  rcases e.queryRow_cases (t := t) (q := q) with hsome | hnone
  · exact hsome
  · exact absurd h (hnone.2 r)

theorem Select.mem_heightOf {bhh : StacksBlockId} {rows : List Row} {r : Row} :
    r ∈ (Select.heightOf bhh).candidates rows ↔ r ∈ rows ∧ r.chainTip = bhh := by
  simp [candidates]

theorem Select.mem_heightOfUpTo {bhh : StacksBlockId} {h : ℕ} {rows : List Row} {r : Row} :
    r ∈ (Select.heightOfUpTo bhh h).candidates rows ↔ r ∈ rows ∧ r.chainTip = bhh ∧ r.height ≤ h := by
  simp [candidates]

theorem Select.mem_tipAt {h : ℕ} {rows : List Row} {r : Row} :
    r ∈ (Select.tipAt h).candidates rows ↔ r ∈ rows ∧ r.height = h := by
  simp [candidates]

open Wrb.Versions in
/-- the rows `get_hash` may answer with are the newest of the key -/
theorem Select.mem_hashOf {key : String} {h : ℕ} {rows : List Row} {r : Row} :
    r ∈ (Select.hashOf key h).candidates rows ↔ Newest Row.height Row.key rows h key r := by
  simp only [candidates, List.mem_filter, decide_eq_true_eq]
  constructor
  · intro hr
    exact ⟨hr.1, hr.2.1, hr.2.2.1, hr.2.2.2⟩
  · intro hr
    exact ⟨hr.mem, hr.key_eq, hr.le, hr.max⟩

theorem Select.mem_highest {rows : List Row} {r : Row} :
    r ∈ Select.highest.candidates rows ↔
      r ∈ rows ∧ ∀ r' ∈ rows, r'.height < r.height ∨ r'.height = r.height ∧ r.chainTip ≤ r'.chainTip := by
  simp [candidates]

end Queries

end Wrb.Vm
