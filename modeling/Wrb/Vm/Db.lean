/-
The storage of the Clarity VM (`src/vm/storage/db.rs`, and the sessions `src/vm/clarity_vm.rs` opens on it).

A function that returns `Result` is a function to `Except Fault`; a panic is a fault of its own, named after its
message. A transaction is the file as the session sees it: dropping it leaves the file as it was. `sha` is
`Sha512Trunc256Sum::from_data`. File paths and the metadata table of the side store are left out.

`WriteBuffer.dump_new`: dumping the empty buffer does nothing. `WritableWrbStore.putAllData_eq`: a batch is one
`REPLACE` for each item, at the store's place (`WritableWrbStore.place`), and leaves the buffer empty.
-/
import Mathlib.Tactic
import Std.Data.ExtTreeMap
import Wrb.Vm.Kvstore

namespace Wrb.Vm

open Std (ExtTreeMap LawfulEqOrd TransOrd)
open Wrb.Storage (Sha512Trunc256Sum)

instance transOrdSha : TransOrd (BitVec 256) := BitVec.instTransOrd

/-! ## Faults -/

/-- errors that a `Result` carries -/
inductive Error where
  /-- a number SQLite has no room for -/
  | parseError
  /-- the primary key is violated -/
  | sqliteError
  /-- `RuntimeErrorType::UnknownBlockHeaderHash` -/
  | unknownBlockHeaderHash (bhh : StacksBlockId)
  /-- `InterpreterError::Expect("failed to get hash: ..")` -/
  | interpreter
deriving DecidableEq, Repr

inductive Panic where
  /-- `FATAL: DB error`, `DB failure`, `FATAL: failed to query DB` -/
  | dbError
  /-- `FATAL: do not have height for tip {}` -/
  | noHeight (tip : StacksBlockId)
  /-- `FATAL: given tip {} has no known block height as of tip {} (height {})` -/
  | noHeightAsOf (tip : StacksBlockId) (height : ℕ)
  /-- the assertion `BUG: bhh = {} height {}` -/
  | heightZero (bhh : StacksBlockId) (height : ℕ)
  /-- `FATAL: no block at height {}` -/
  | noBlockAt (height : ℕ)
  /-- `FATAL: failed to determine height of {}` -/
  | unknownTip (tip : StacksBlockId)
  /-- `BUG: have hash but no value` -/
  | hashWithoutValue
  /-- an index outside of a vector -/
  | outOfBounds
deriving DecidableEq, Repr

inductive Fault where
  | err (e : Error)
  | panic (p : Panic)
deriving DecidableEq, Repr

/-- `expect` on a `Result` -/
def expect {α : Type} (x : Except Fault α) (p : Panic) : Except Fault α :=
  match x with
  | .error (.err _) => .error (.panic p)
  | .error (.panic q) => .error (.panic q)
  | .ok a => .ok a

/-- `expect` on an `Option` -/
def expectSome {α : Type} (x : Option α) (p : Panic) : Except Fault α :=
  match x with
  | none => .error (.panic p)
  | some a => .ok a

@[simp] theorem expect_ok {α : Type} (a : α) (p : Panic) : expect (.ok a) p = .ok a := rfl

theorem ok_of_expect {α : Type} {x : Except Fault α} {p : Panic} {a : α} (h : expect x p = .ok a) : x = .ok a := by
  cases x with
  | error f => cases f <;> cases h
  | ok b =>
    cases h
    rfl

@[simp] theorem expectSome_some {α : Type} (a : α) (p : Panic) : expectSome (some a) p = .ok a := rfl

@[simp] theorem ok_bind {α β : Type} (a : α) (f : α → Except Fault β) : ((.ok a : Except Fault α) >>= f) = f a := rfl

theorem ok_of_bind {α β : Type} {x : Except Fault α} {f : α → Except Fault β} {b : β} (h : x >>= f = .ok b) :
    ∃ a, x = .ok a ∧ f a = .ok b := by
  cases x with
  | error y => cases h
  | ok a => exact ⟨a, rfl, h⟩

/-! ## The file and its queries -/

structure Db where
  kvstore : Kvstore
  /-- `SqliteConnection::{get, put}` -/
  side : ExtTreeMap Sha512Trunc256Sum String
deriving DecidableEq

/-- `u64_to_sql` -/
def u64ToSql (x : ℕ) : Except Fault ℕ := if x < 2 ^ 63 then .ok x else .error (.err .parseError)

theorem u64ToSql_of_lt {x : ℕ} (h : x < 2 ^ 63) : u64ToSql x = .ok x := if_pos h

def tiplessGetBlockHeightOf (e : Engine) (conn : Db) (bhh : StacksBlockId) : Except Fault (Option ℕ) :=
  if bhh = BOOT_BLOCK_ID then .ok (some 0)
  else
    match e.queryRow conn.kvstore (.heightOf bhh) with
    | none => .ok none
    | some r =>
      if bhh ≠ GENESIS_BLOCK_ID ∧ r.height = 0 then .error (.panic (.heightZero bhh r.height)) else .ok (some r.height)

def checkBlockHash (e : Engine) (conn : Db) (tipHeight : ℕ) (bhh : StacksBlockId) : Except Fault Bool := do
  let tipHeight ← u64ToSql tipHeight
  return (e.queryRow conn.kvstore (.heightOfUpTo bhh tipHeight)).isSome

def getBlockHeightOf (e : Engine) (conn : Db) (tipHeight : ℕ) (bhh : StacksBlockId) : Except Fault (Option ℕ) := do
  let tipHeight ← u64ToSql tipHeight
  return (e.queryRow conn.kvstore (.heightOfUpTo bhh tipHeight)).map Row.height

def getBlockAtHeight (e : Engine) (conn : Db) (tipHeight height : ℕ) : Except Fault (Option StacksBlockId) := do
  if tipHeight < height then return none
  let height ← u64ToSql height
  return (e.queryRow conn.kvstore (.tipAt height)).map Row.chainTip

def getHash (e : Engine) (conn : Db) (tipHeight : ℕ) (key : String) : Except Fault (Option Sha512Trunc256Sum) := do
  let tipHeight ← u64ToSql tipHeight
  return (e.queryRow conn.kvstore (.hashOf key tipHeight)).map Row.dataHash

/-- `SELECT IFNULL(MAX(height),0) FROM kvstore` -/
def tiplessGetHighestTipHeight (conn : Db) : ℕ := (conn.kvstore.rows.map Row.height).max?.getD 0

/-- `get_wrb_chain_tip`: the loop passes over the boot tip, and gives it where there is no other row -/
def getWrbChainTip (e : Engine) (conn : Db) : StacksBlockId :=
  match e.queryRow conn.kvstore .highest with
  | none => BOOT_BLOCK_ID
  | some r => r.chainTip

/-- `get_wrb_block_height` -/
def getWrbBlockHeight (e : Engine) (conn : Db) (blockId : StacksBlockId) : Option ℕ :=
  (e.queryRow conn.kvstore (.heightOf blockId)).map Row.height

/-! ## The write buffer -/

structure WriteBuffer where
  pendingHashes : List (String × Sha512Trunc256Sum)
  pendingData : ExtTreeMap Sha512Trunc256Sum String
  pendingIndex : ExtTreeMap String ℕ
deriving DecidableEq

namespace WriteBuffer

def new : WriteBuffer := ⟨[], ∅, ∅⟩

def get (w : WriteBuffer) (key : String) : Except Fault (Option String) :=
  match w.pendingIndex[key]? with
  | none => .ok none
  | some idx =>
    match w.pendingHashes[idx]? with
    | none => .error (.panic .outOfBounds)
    | some entry => .ok w.pendingData[entry.2]?

/-- the index is taken after the push, and so points behind the entry -/
def put (sha : String → Sha512Trunc256Sum) (w : WriteBuffer) (key value : String) : WriteBuffer :=
  let pendingHashes := w.pendingHashes ++ [(key, sha value)]
  ⟨pendingHashes, w.pendingData.insert (sha value) value, w.pendingIndex.insert key pendingHashes.length⟩

/-- the tip and the height at which a dump writes -/
def target (e : Engine) (conn : Db) (curTip nextTip : StacksBlockId) : StacksBlockId × ℕ :=
  let nextHeight := match getWrbBlockHeight e conn curTip with
    | some height => height + 1
    | none => 1
  if curTip = BOOT_BLOCK_ID then (curTip, nextHeight - 1) else (nextTip, nextHeight)

/-- one round of the loop of `dump` -/
def dumpOne (w : WriteBuffer) (target : StacksBlockId × ℕ) (conn : Db) (entry : String × Sha512Trunc256Sum) :
    Except Fault Db := do
  let height ← u64ToSql target.2
  let value ← expectSome w.pendingData[entry.2]? .hashWithoutValue
  return { kvstore := conn.kvstore.replaceInto ⟨target.1, height, entry.1, entry.2⟩,
           side := conn.side.insert entry.2 value }

/-- the buffer and the file afterwards -/
def dump (e : Engine) (w : WriteBuffer) (conn : Db) (curTip nextTip : StacksBlockId) :
    Except Fault (WriteBuffer × Db) := do
  let conn ← w.pendingHashes.foldlM (w.dumpOne (target e conn curTip nextTip)) conn
  return (new, conn)

end WriteBuffer

/-! ## Stores -/

structure ReadOnlyWrbStore where
  /-- block ID at which this KV was opened -/
  chainTip : StacksBlockId
  tipHeight : ℕ
  conn : Db
deriving DecidableEq

structure WritableWrbStore where
  /-- block ID at which this KV was opened -/
  chainTip : StacksBlockId
  tipHeight : ℕ
  /-- block ID of the chain tip we're building -/
  nextTip : StacksBlockId
  /-- open transaction on the underlying store -/
  tx : Db
  writeBuf : WriteBuffer
deriving DecidableEq

/-- the part of `get_data` that both stores share: the hash at the height, then the value -/
def getCommitted (e : Engine) (conn : Db) (tipHeight : ℕ) (key : String) : Except Fault (Option String) :=
  match getHash e conn tipHeight key with
  | .error _ => .error (.err .interpreter)
  | .ok none => .ok none
  | .ok (some hash) => .ok conn.side[hash]?

/-- `set_block_hash`, which both stores share: where the store was, and the height it is at now -/
def switchBlock (e : Engine) (conn : Db) (tipHeight : ℕ) (bhh : StacksBlockId) : Except Fault ℕ := do
  if !(← expect (checkBlockHash e conn tipHeight bhh) .dbError) then
    .error (.err (.unknownBlockHeaderHash bhh))
  match ← expect (tiplessGetBlockHeightOf e conn bhh) .dbError with
  | none => .error (.err (.unknownBlockHeaderHash bhh))
  | some newTipHeight => return newTipHeight

namespace ReadOnlyWrbStore

/-- the chain tip before the switch, and the store after it -/
def setBlockHash (e : Engine) (s : ReadOnlyWrbStore) (bhh : StacksBlockId) :
    Except Fault (StacksBlockId × ReadOnlyWrbStore) := do
  let newTipHeight ← switchBlock e s.conn s.tipHeight bhh
  return (s.chainTip, { s with chainTip := bhh, tipHeight := newTipHeight })

def getData (e : Engine) (s : ReadOnlyWrbStore) (key : String) : Except Fault (Option String) :=
  getCommitted e s.conn s.tipHeight key

def getBlockAtHeight (e : Engine) (s : ReadOnlyWrbStore) (blockHeight : ℕ) : Except Fault (Option StacksBlockId) :=
  expect (Vm.getBlockAtHeight e s.conn s.tipHeight blockHeight) (.noBlockAt blockHeight)

end ReadOnlyWrbStore

namespace WritableWrbStore

/-- the chain tip before the switch, and the store after it -/
def setBlockHash (e : Engine) (s : WritableWrbStore) (bhh : StacksBlockId) :
    Except Fault (StacksBlockId × WritableWrbStore) := do
  let newTipHeight ← switchBlock e s.tx s.tipHeight bhh
  return (s.chainTip, { s with chainTip := bhh, tipHeight := newTipHeight })

def getData (e : Engine) (s : WritableWrbStore) (key : String) : Except Fault (Option String) := do
  match ← s.writeBuf.get key with
  | some value => return some value
  | none => getCommitted e s.tx s.tipHeight key

def getBlockAtHeight (e : Engine) (s : WritableWrbStore) (blockHeight : ℕ) : Except Fault (Option StacksBlockId) :=
  expect (Vm.getBlockAtHeight e s.tx s.tipHeight blockHeight) (.noBlockAt blockHeight)

def putAllData (e : Engine) (sha : String → Sha512Trunc256Sum) (s : WritableWrbStore) (items : List (String × String)) :
    Except Fault WritableWrbStore := do
  let writeBuf := items.foldl (fun w item => w.put sha item.1 item.2) s.writeBuf
  let (writeBuf, tx) ← expect (writeBuf.dump e s.tx s.chainTip s.nextTip) .dbError
  return { s with tx := tx, writeBuf := writeBuf }

/-- the file after the commit -/
def commitTo (e : Engine) (s : WritableWrbStore) (finalBhh : StacksBlockId) : Except Fault Db := do
  let targetTip := if s.chainTip = BOOT_BLOCK_ID then s.chainTip else s.nextTip
  let (_, tx) ← s.writeBuf.dump e s.tx targetTip finalBhh
  match tx.kvstore.setChainTip finalBhh targetTip with
  | none => .error (.err .sqliteError)
  | some kvstore => return { tx with kvstore := kvstore }

def commit (e : Engine) (s : WritableWrbStore) : Except Fault Db := s.commitTo e s.nextTip

end WritableWrbStore

/-! ## The database and the VM -/

structure WrbDB where
  chainTip : StacksBlockId
  conn : Db
  created : Bool
deriving DecidableEq

structure ClarityVM where
  db : WrbDB
deriving DecidableEq

namespace WrbDB

/-- the sentinel boot block state of a new file -/
def sentinel : Row := ⟨BOOT_BLOCK_ID, 0, "genesis", BOOT_BLOCK_ID⟩

/-- `setup_db`: the file if there is one, or a new one -/
def setupDb (file : Option Db) : Db × Bool :=
  match file with
  | some conn => (conn, false)
  | none => (⟨⟨[sentinel], List.nodup_singleton _⟩, ∅⟩, true)

/-- `WrbDB::open` -/
def openDb (e : Engine) (file : Option Db) (chainTip : Option StacksBlockId) : Except Fault WrbDB := do
  let (conn, created) := setupDb file
  match chainTip with
  | some tip => return ⟨tip, conn, created⟩
  | none =>
    let height := tiplessGetHighestTipHeight conn
    match ← getBlockAtHeight e conn height height with
    | some bhh => return ⟨bhh, conn, created⟩
    | none => return ⟨BOOT_BLOCK_ID, conn, created⟩

def beginReadOnly (e : Engine) (db : WrbDB) (atBlock : Option StacksBlockId) : Except Fault ReadOnlyWrbStore := do
  let chainTip := atBlock.getD db.chainTip
  let tipHeight ← expectSome (← expect (tiplessGetBlockHeightOf e db.conn chainTip) .dbError) (.noHeight chainTip)
  return ⟨chainTip, tipHeight, db.conn⟩

def begin (e : Engine) (db : WrbDB) (current next : StacksBlockId) : Except Fault WritableWrbStore := do
  let tipHeight ← expectSome (← expect (tiplessGetBlockHeightOf e db.conn current) .dbError) (.noHeight current)
  if current = BOOT_BLOCK_ID then
    return ⟨current, 0, next, db.conn, .new⟩
  else
    let height ← expectSome (← expect (getBlockHeightOf e db.conn tipHeight current) .dbError)
      (.noHeightAsOf current tipHeight)
    return ⟨current, height + 1, next, db.conn, .new⟩

end WrbDB

namespace ClarityVM

/-- `ClarityVM::new`, on the file if there is one -/
def new (e : Engine) (file : Option Db) : Except Fault ClarityVM := do
  let db ← WrbDB.openDb e file none
  return ⟨db⟩

def beginPageLoad (e : Engine) (vm : ClarityVM) : Except Fault WritableWrbStore := do
  let curTip := getWrbChainTip e vm.db.conn
  let curHeight ← expectSome (getWrbBlockHeight e vm.db.conn curTip) (.unknownTip curTip)
  vm.db.begin e curTip (makeWrbChainTip (curHeight + 1))

def beginReadOnly (e : Engine) (vm : ClarityVM) : Except Fault ReadOnlyWrbStore :=
  vm.db.beginReadOnly e (some (getWrbChainTip e vm.db.conn))

end ClarityVM

/-! ## Reads -/

/-- the value a row stands for -/
def Db.value (d : Db) (r : Row) : Option String := d.side[r.dataHash]?

open Wrb.Versions in
/-- a read of the key at the height -/
def Db.Reads (d : Db) (height : ℕ) (key : String) (value : Option String) : Prop :=
  Versions.Reads Row.height Row.key d.value d.kvstore.rows height key value

/-- **`get_data` reads the newest row of the key.** -/
theorem getCommitted_of_reads {e : Engine} {d : Db} {height : ℕ} {key : String} {value : Option String}
    (hh : height < 2 ^ 63) (h : d.Reads height key value) : getCommitted e d height key = .ok value := by
  unfold getCommitted getHash
  rw [u64ToSql_of_lt hh, ok_bind]
  rcases e.queryRow_cases (t := d.kvstore) (q := .hashOf key height) with ⟨r, hr, hq⟩ | ⟨hq, hnone⟩
  · rw [hq]
    exact congrArg Except.ok (h.newest r (Select.mem_hashOf.1 hr))
  · rw [hq]
    refine congrArg Except.ok (h.none ?_).symm
    intro x hx hkey
    by_contra hle
    obtain ⟨y, hy⟩ := Versions.exists_newest hx hkey (not_lt.1 hle)
    exact hnone y (Select.mem_hashOf.2 hy)

/-! ## Writes -/

/-- the values `sha` is applied to do not collide, and none has the hash of the sentinel -/
structure Faithful (sha : String → Sha512Trunc256Sum) (values : List String) : Prop where
  inj : ∀ v ∈ values, ∀ w ∈ values, sha v = sha w → v = w
  ne_boot : ∀ v ∈ values, sha v ≠ BOOT_BLOCK_ID

instance (sha : String → Sha512Trunc256Sum) (values : List String) : Decidable (Faithful sha values) :=
  decidable_of_iff ((∀ v ∈ values, ∀ w ∈ values, sha v = sha w → v = w) ∧ ∀ v ∈ values, sha v ≠ BOOT_BLOCK_ID)
    ⟨fun h => ⟨h.1, h.2⟩, fun h => ⟨h.inj, h.ne_boot⟩⟩

/-- one row of a dump, and its value in the side store -/
def Db.write (d : Db) (place : StacksBlockId × ℕ) (key : String) (hash : Sha512Trunc256Sum) (value : String) : Db where
  kvstore := d.kvstore.replaceInto ⟨place.1, place.2, key, hash⟩
  side := d.side.insert hash value

theorem Db.mem_write {d : Db} {place : StacksBlockId × ℕ} {key : String} {hash : Sha512Trunc256Sum} {v : String}
    {x : Row} : x ∈ (d.write place key hash v).kvstore.rows ↔
      (x ∈ d.kvstore.rows ∧ x.primaryKey ≠ (place.1, place.2, key)) ∨ x = ⟨place.1, place.2, key, hash⟩ :=
  Kvstore.mem_replaceInto

theorem Db.value_written (d : Db) (place : StacksBlockId × ℕ) (key : String) (hash : Sha512Trunc256Sum) (v : String) :
    (d.write place key hash v).value ⟨place.1, place.2, key, hash⟩ = some v := by
  simp [Db.value, Db.write]

def Db.writeAll (sha : String → Sha512Trunc256Sum) (d : Db) (place : StacksBlockId × ℕ)
    (items : List (String × String)) :
    Db :=
  items.foldl (fun d item => d.write place item.1 (sha item.2) item.2) d

namespace WriteBuffer

@[simp] theorem get_new (key : String) : new.get key = .ok none := by
  simp [get, new]

@[simp] theorem dump_new (e : Engine) (conn : Db) (curTip nextTip : StacksBlockId) :
    new.dump e conn curTip nextTip = .ok (new, conn) := rfl

variable {sha : String → Sha512Trunc256Sum}

theorem pendingHashes_puts (sha : String → Sha512Trunc256Sum) (w : WriteBuffer) (items : List (String × String)) :
    (items.foldl (fun w item => w.put sha item.1 item.2) w).pendingHashes =
      w.pendingHashes ++ items.map fun item => (item.1, sha item.2) := by
  induction items generalizing w with
  | nil => simp
  | cons item items ih =>
    rw [List.foldl_cons, ih, List.map_cons]
    simp [put]

/-- without collisions the buffer knows the value of every hash in it -/
theorem pendingData_puts {values : List String} (hinj : ∀ v ∈ values, ∀ w ∈ values, sha v = sha w → v = w)
    (w : WriteBuffer) {items : List (String × String)} (hvalues : ∀ item ∈ items, item.2 ∈ values)
    {item : String × String} (hitem : item ∈ items) :
    (items.foldl (fun w item => w.put sha item.1 item.2) w).pendingData[sha item.2]? = some item.2 := by
  induction items using List.reverseRecOn with
  | nil => cases hitem
  | append_singleton items last ih =>
    rw [List.foldl_append, List.foldl_cons, List.foldl_nil]
    simp only [put, ExtTreeMap.getElem?_insert, LawfulEqOrd.compare_eq_iff_eq]
    have hlast : last.2 ∈ values := hvalues last (by simp)
    split_ifs with heq
    · exact congrArg some (hinj last.2 hlast item.2 (hvalues item hitem) heq)
    · rcases List.mem_append.1 hitem with hmem | hmem
      · exact ih (fun x hx => hvalues x (List.mem_append_left _ hx)) hmem
      · rw [List.mem_singleton.1 hmem] at heq
        exact absurd rfl heq

theorem dumpOne_eq {w : WriteBuffer} {place : StacksBlockId × ℕ} {conn : Db} {key value : String}
    {hash : Sha512Trunc256Sum} (hh : place.2 < 2 ^ 63) (hdata : w.pendingData[hash]? = some value) :
    w.dumpOne place conn (key, hash) = .ok (conn.write place key hash value) := by
  unfold dumpOne
  rw [u64ToSql_of_lt hh, hdata]
  rfl

/-- a dump goes through its entries one by one -/
theorem foldlM_dumpOne {w : WriteBuffer} {place : StacksBlockId × ℕ} (hh : place.2 < 2 ^ 63)
    {items : List (String × String)} (hdata : ∀ item ∈ items, w.pendingData[sha item.2]? = some item.2) (conn : Db) :
    (items.map fun item => (item.1, sha item.2)).foldlM (w.dumpOne place) conn =
      .ok (conn.writeAll sha place items) := by
  induction items generalizing conn with
  | nil => rfl
  | cons item items ih =>
    rw [List.map_cons, List.foldlM_cons, dumpOne_eq hh (hdata item List.mem_cons_self), ok_bind,
      ih fun x hx => hdata x (List.mem_cons_of_mem item hx)]
    rfl

/-- what a row at the place keeps, a dump that gets through keeps -/
theorem foldlM_dumpOne_inv {I : Db → Prop} {w : WriteBuffer} {place : StacksBlockId × ℕ}
    (hstep : ∀ d key hash v, place.2 < 2 ^ 63 → I d → I (d.write place key hash v))
    {entries : List (String × Sha512Trunc256Sum)} {conn conn' : Db} (h : I conn)
    (hdump : entries.foldlM (w.dumpOne place) conn = .ok conn') : I conn' := by
  induction entries generalizing conn with
  | nil =>
    cases hdump
    exact h
  | cons entry entries ih =>
    rw [List.foldlM_cons] at hdump
    obtain ⟨conn₁, hone, hrest⟩ := ok_of_bind hdump
    unfold dumpOne at hone
    obtain ⟨height, hheight, hone⟩ := ok_of_bind hone
    obtain ⟨value, _, hone⟩ := ok_of_bind hone
    unfold u64ToSql at hheight
    split_ifs at hheight with hsmall
    cases hheight
    cases hone
    exact ih (hstep conn entry.1 entry.2 value hsmall h) hrest

end WriteBuffer

namespace WritableWrbStore

/-- where the store writes -/
def place (e : Engine) (s : WritableWrbStore) : StacksBlockId × ℕ := WriteBuffer.target e s.tx s.chainTip s.nextTip

variable {e : Engine} {sha : String → Sha512Trunc256Sum} {s : WritableWrbStore} {items : List (String × String)}

theorem putAllData_nil (hbuf : s.writeBuf = .new) : s.putAllData e sha [] = .ok s := by
  cases s
  cases hbuf
  rfl

/-- **A batch is one `REPLACE` for each item, at the store's place.** -/
theorem putAllData_eq (hbuf : s.writeBuf = .new) {values : List String} (hsha : Faithful sha values)
    (hvalues : ∀ item ∈ items, item.2 ∈ values) (hh : (s.place e).2 < 2 ^ 63) :
    s.putAllData e sha items = .ok { s with tx := s.tx.writeAll sha (s.place e) items } := by
  have hhashes := WriteBuffer.pendingHashes_puts sha s.writeBuf items
  have hdata : ∀ item ∈ items, _ := fun item hitem =>
    WriteBuffer.pendingData_puts hsha.inj s.writeBuf hvalues hitem
  have hnil : s.writeBuf.pendingHashes = [] := by rw [hbuf]; rfl
  rw [hnil, List.nil_append] at hhashes
  unfold putAllData WriteBuffer.dump
  simp only [hhashes]
  rw [show WriteBuffer.target e s.tx s.chainTip s.nextTip = s.place e from rfl,
    WriteBuffer.foldlM_dumpOne hh hdata s.tx]
  cases s
  cases hbuf
  rfl

/-- what a row at the store's place keeps, a batch that gets through keeps -/
theorem putAllData_inv {I : Db → Prop}
    (hstep : ∀ d key hash v, (s.place e).2 < 2 ^ 63 → I d → I (d.write (s.place e) key hash v)) (h : I s.tx)
    {s' : WritableWrbStore} (hput : s.putAllData e sha items = .ok s') :
    s' = { s with tx := s'.tx, writeBuf := .new } ∧ I s'.tx := by
  unfold putAllData at hput
  obtain ⟨⟨writeBuf, tx⟩, hexpect, hret⟩ := ok_of_bind hput
  have hdump := ok_of_expect hexpect
  unfold WriteBuffer.dump at hdump
  obtain ⟨conn, hfold, hpair⟩ := ok_of_bind hdump
  cases hpair
  cases hret
  exact ⟨rfl, WriteBuffer.foldlM_dumpOne_inv hstep h hfold⟩

/-- SQLite has no room for the height -/
theorem putAllData_of_le (hbuf : s.writeBuf = .new) (hne : items ≠ []) (hh : 2 ^ 63 ≤ (s.place e).2) :
    s.putAllData e sha items = .error (.panic .dbError) := by
  have hhashes := WriteBuffer.pendingHashes_puts sha s.writeBuf items
  have hnil : s.writeBuf.pendingHashes = [] := by rw [hbuf]; rfl
  rw [hnil, List.nil_append] at hhashes
  cases items with
  | nil => exact absurd rfl hne
  | cons item items =>
    have hsql : u64ToSql (s.place e).2 = .error (.err .parseError) := if_neg (not_lt.2 hh)
    unfold putAllData WriteBuffer.dump
    simp only [hhashes, List.map_cons, List.foldlM_cons]
    rw [show WriteBuffer.target e s.tx s.chainTip s.nextTip = s.place e from rfl]
    unfold WriteBuffer.dumpOne
    rw [hsql]
    rfl

/-- what a batch that got through has written -/
theorem writes_of_putAllData (hbuf : s.writeBuf = .new) {values : List String} (hsha : Faithful sha values)
    (hvalues : ∀ item ∈ items, item.2 ∈ values) {s' : WritableWrbStore} (hput : s.putAllData e sha items = .ok s') :
    s' = { s with tx := s.tx.writeAll sha (s.place e) items } := by
  by_cases hh : (s.place e).2 < 2 ^ 63
  · rw [putAllData_eq hbuf hsha hvalues hh] at hput
    exact (Except.ok.inj hput).symm
  · cases items with
    | nil =>
      rw [putAllData_nil hbuf] at hput
      exact (Except.ok.inj hput).symm
    | cons item items =>
      rw [putAllData_of_le hbuf (List.cons_ne_nil _ _) (Nat.not_lt.1 hh)] at hput
      cases hput

theorem getData_eq (hbuf : s.writeBuf = .new) (key : String) :
    s.getData e key = getCommitted e s.tx s.tipHeight key := by
  unfold getData
  rw [hbuf, WriteBuffer.get_new, ok_bind]

/-- the tip a commit renames -/
def targetTip (s : WritableWrbStore) : StacksBlockId := if s.chainTip = BOOT_BLOCK_ID then s.chainTip else s.nextTip

/-- the commit of a store whose buffer is empty is the rename -/
theorem commitTo_of_some (hbuf : s.writeBuf = .new) {finalBhh : StacksBlockId} {kvstore : Kvstore}
    (h : s.tx.kvstore.setChainTip finalBhh s.targetTip = some kvstore) :
    s.commitTo e finalBhh = .ok { s.tx with kvstore := kvstore } := by
  unfold targetTip at h
  unfold commitTo
  simp only [hbuf, WriteBuffer.dump_new, ok_bind, h]
  rfl

theorem commitTo_of_none (hbuf : s.writeBuf = .new) {finalBhh : StacksBlockId}
    (h : s.tx.kvstore.setChainTip finalBhh s.targetTip = none) :
    s.commitTo e finalBhh = .error (.err .sqliteError) := by
  unfold targetTip at h
  unfold commitTo
  simp only [hbuf, WriteBuffer.dump_new, ok_bind, h]

end WritableWrbStore

end Wrb.Vm
