/-
The write buffer read back (`WriteBuffer::{put, get, dump}` in `src/vm/storage/db.rs`).

`puts sha items` is the buffer after the puts, `lastPut` the value each key should have. `put` notes the position of a
write after the write is pushed, so that the index of a key points at the write after its last one.

* `get_puts`: `get` answers with the write after the key's last one, and panics where there is none.
* `get_right_iff`: so it is right for the keys never put, and for those whose next write has the same value.
* `dump_puts`, `handsOver_puts`: a dump is not affected; it leaves each key's last value in the store.
-/
import Wrb.Vm.Sessions

namespace Wrb.Vm.WriteBuffer

open Wrb.Storage (Sha512Trunc256Sum)

/-- the buffer after the puts -/
def puts (sha : String → Sha512Trunc256Sum) (items : List (String × String)) : WriteBuffer :=
  items.foldl (fun w item => w.put sha item.1 item.2) new

/-- the value last put for the key -/
def lastPut (items : List (String × String)) (key : String) : Option String :=
  (items.reverse.find? fun item => item.1 = key).map Prod.snd

/-- the values put do not collide -/
def NoCollision (sha : String → Sha512Trunc256Sum) (items : List (String × String)) : Prop :=
  ∀ v ∈ items.map Prod.snd, ∀ w ∈ items.map Prod.snd, sha v = sha w → v = w

instance (sha : String → Sha512Trunc256Sum) (items : List (String × String)) : Decidable (NoCollision sha items) :=
  inferInstanceAs (Decidable (∀ v ∈ items.map Prod.snd, ∀ w ∈ items.map Prod.snd, sha v = sha w → v = w))

variable {sha : String → Sha512Trunc256Sum} {items : List (String × String)} {key : String}

/-! ## What was put last -/

@[simp] theorem lastPut_nil (key : String) : lastPut [] key = none := rfl

theorem lastPut_append_singleton (items : List (String × String)) (item : String × String) (key : String) :
    lastPut (items ++ [item]) key = if item.1 = key then some item.2 else lastPut items key := by
  simp only [lastPut, List.reverse_append, List.reverse_singleton, List.singleton_append, List.find?_cons]
  by_cases h : item.1 = key <;> simp [h]

theorem notMem_append_singleton {item : String × String} :
    key ∉ (items ++ [item]).map Prod.fst ↔ key ∉ items.map Prod.fst ∧ item.1 ≠ key := by
  simp [not_or, eq_comm]

/-- a key put has a last write -/
theorem exists_last (h : key ∈ items.map Prod.fst) :
    ∃ before value after, items = before ++ (key, value) :: after ∧ key ∉ after.map Prod.fst := by
  induction items using List.reverseRecOn with
  | nil => cases h
  | append_singleton items item ih =>
    by_cases heq : item.1 = key
    · exact ⟨items, item.2, [], by rw [← heq], by simp⟩
    · have hmem : key ∈ items.map Prod.fst := by simpa [Ne.symm heq] using h
      obtain ⟨before, value, after, rfl, hafter⟩ := ih hmem
      refine ⟨before, value, after ++ [item], by simp, ?_⟩
      simpa [Ne.symm heq] using hafter

theorem lastPut_of_notMem (h : key ∉ items.map Prod.fst) : lastPut items key = none := by
  have hfind : items.reverse.find? (fun item => item.1 = key) = none := by
    apply List.find?_eq_none.2
    intro item hitem heq
    apply h
    rw [← of_decide_eq_true heq]
    exact List.mem_map_of_mem (List.mem_reverse.1 hitem)
  rw [lastPut, hfind, Option.map_none]

theorem mem_of_lastPut {value : String} (h : lastPut items key = some value) : (key, value) ∈ items := by
  obtain ⟨item, hfind, hvalue⟩ := Option.map_eq_some_iff.1 h
  have hkey : item.1 = key := by simpa using List.find?_some hfind
  have hmem := List.mem_reverse.1 (List.mem_of_find?_eq_some hfind)
  rwa [← hkey, ← hvalue]

theorem lastPut_of_last {before after : List (String × String)} {value : String} (h : key ∉ after.map Prod.fst) :
    lastPut (before ++ (key, value) :: after) key = some value := by
  induction after using List.reverseRecOn with
  | nil => simp [lastPut_append_singleton]
  | append_singleton after item ih =>
    obtain ⟨hafter, hne⟩ := notMem_append_singleton.1 h
    rw [← List.cons_append, ← List.append_assoc, lastPut_append_singleton, if_neg hne]
    exact ih hafter

/-! ## The index -/

theorem puts_append_singleton (sha : String → Sha512Trunc256Sum) (items : List (String × String))
    (item : String × String) : puts sha (items ++ [item]) = (puts sha items).put sha item.1 item.2 := by
  simp [puts]

@[simp] theorem pendingHashes_puts_new (sha : String → Sha512Trunc256Sum) (items : List (String × String)) :
    (puts sha items).pendingHashes = items.map fun item => (item.1, sha item.2) := by
  rw [puts, pendingHashes_puts]
  rfl

theorem pendingIndex_append_singleton (item : String × String) :
    (puts sha (items ++ [item])).pendingIndex[key]? =
      if item.1 = key then some (items.length + 1) else (puts sha items).pendingIndex[key]? := by
  rw [puts_append_singleton]
  simp [put, Std.ExtTreeMap.getElem?_insert]

theorem pendingIndex_of_notMem (h : key ∉ items.map Prod.fst) : (puts sha items).pendingIndex[key]? = none := by
  induction items using List.reverseRecOn with
  | nil => simp [puts, new]
  | append_singleton items item ih =>
    obtain ⟨hitems, hne⟩ := notMem_append_singleton.1 h
    rw [pendingIndex_append_singleton, if_neg hne]
    exact ih hitems

/-- the index of a key points behind its last write -/
theorem pendingIndex_of_last {before after : List (String × String)} {value : String}
    (h : key ∉ after.map Prod.fst) :
    (puts sha (before ++ (key, value) :: after)).pendingIndex[key]? = some (before.length + 1) := by
  induction after using List.reverseRecOn with
  | nil => simp [pendingIndex_append_singleton]
  | append_singleton after item ih =>
    obtain ⟨hafter, hne⟩ := notMem_append_singleton.1 h
    rw [← List.cons_append, ← List.append_assoc, pendingIndex_append_singleton, if_neg hne]
    exact ih hafter

/-! ## Reading -/

theorem pendingData_puts_new (hsha : NoCollision sha items) {item : String × String} (hitem : item ∈ items) :
    (puts sha items).pendingData[sha item.2]? = some item.2 :=
  pendingData_puts hsha new (fun _ h => List.mem_map_of_mem h) hitem

theorem get_of_notMem (h : key ∉ items.map Prod.fst) : (puts sha items).get key = .ok none := by
  simp [get, pendingIndex_of_notMem h]

/-- **`get` answers with the write after the key's last one.** -/
theorem get_puts {before after : List (String × String)} {value : String} (h : key ∉ after.map Prod.fst)
    (hsha : NoCollision sha (before ++ (key, value) :: after)) :
    (puts sha (before ++ (key, value) :: after)).get key =
      match after.head? with
      | none => .error (.panic .outOfBounds)
      | some next => .ok (some next.2) := by
  unfold get
  rw [pendingIndex_of_last h, pendingHashes_puts_new]
  cases after with
  | nil => simp
  | cons next after =>
    have hdata : (puts sha (before ++ (key, value) :: next :: after)).pendingData[sha next.2]? = some next.2 :=
      pendingData_puts_new hsha (by simp)
    simp [hdata]

/-- the put right after the last one of the key has the same value -/
def FollowedBySame (items : List (String × String)) (key : String) : Prop :=
  ∀ before value after, items = before ++ (key, value) :: after → key ∉ after.map Prod.fst →
    ∃ next rest, after = (next, value) :: rest

/-- **`get` is right for the keys never put, and for those whose last put is followed by one of the same value.** -/
theorem get_eq_lastPut_iff (hsha : NoCollision sha items) :
    (puts sha items).get key = .ok (lastPut items key) ↔ FollowedBySame items key := by
  by_cases hmem : key ∈ items.map Prod.fst
  · apply Iff.intro
    · intro hget before value after heq hafter
      rw [heq] at hsha
      rw [heq, get_puts hafter hsha, lastPut_of_last hafter] at hget
      cases after with
      | nil => cases hget
      | cons next rest =>
        have hvalue : next.2 = value := by simpa using hget
        exact ⟨next.1, rest, by rw [← hvalue]⟩
    · intro hsame
      obtain ⟨before, value, after, heq, hafter⟩ := exists_last hmem
      obtain ⟨next, rest, hnext⟩ := hsame before value after heq hafter
      rw [heq] at hsha
      rw [heq, get_puts hafter hsha, lastPut_of_last hafter, hnext]
      rfl
  · apply iff_of_true
    · rw [get_of_notMem hmem, lastPut_of_notMem hmem]
    · intro before value after heq _
      exact absurd (by simp [heq]) hmem

/-- **There is always a key it is not right for: the one put last.** -/
theorem get_last (hsha : NoCollision sha (items ++ [(key, value)])) :
    (puts sha (items ++ [(key, value)])).get key = .error (.panic .outOfBounds) :=
  get_puts (by simp) hsha

/-! ## Dumping -/

/-- **A dump is one write for each put, at one place.** It fails where SQLite has no room for the height. -/
theorem dump_puts (hsha : NoCollision sha items) (e : Engine) (conn : Db) (curTip nextTip : StacksBlockId) :
    (puts sha items).dump e conn curTip nextTip =
      if items = [] ∨ (target e conn curTip nextTip).2 < 2 ^ 63 then
        .ok (new, conn.writeAll sha (target e conn curTip nextTip) items)
      else .error (.err .parseError) := by
  have hdata : ∀ item ∈ items, (puts sha items).pendingData[sha item.2]? = some item.2 :=
    fun _ hitem => pendingData_puts_new hsha hitem
  unfold dump
  rw [pendingHashes_puts_new]
  by_cases hh : (target e conn curTip nextTip).2 < 2 ^ 63
  · rw [foldlM_dumpOne hh hdata, if_pos (Or.inr hh)]
    rfl
  · cases items with
    | nil => rfl
    | cons item items =>
      have hsql : u64ToSql (target e conn curTip nextTip).2 = .error (.err .parseError) := if_neg hh
      rw [if_neg (by simpa using hh), List.map_cons, List.foldlM_cons, dumpOne, hsql]
      rfl

/-- the row of the key at the place holds the value -/
def HasRow (d : Db) (place : StacksBlockId × ℕ) (key value : String) : Prop :=
  ∃ r ∈ d.kvstore.rows, r.primaryKey = (place.1, place.2, key) ∧ d.value r = some value

/-- what a dump of the puts has to do to the store: each key put has its last value at the place, the rows of the
other keys stay -/
def Dumped (d d' : Db) (place : StacksBlockId × ℕ) (items : List (String × String)) : Prop :=
  (∀ key value, lastPut items key = some value → HasRow d' place key value) ∧
    ∀ r : Row, lastPut items r.key = none → (r ∈ d'.kvstore.rows ↔ r ∈ d.kvstore.rows)

theorem writeAll_append_singleton (sha : String → Sha512Trunc256Sum) (d : Db) (place : StacksBlockId × ℕ)
    (items : List (String × String)) (item : String × String) :
    d.writeAll sha place (items ++ [item]) = (d.writeAll sha place items).write place item.1 (sha item.2) item.2 := by
  simp [Db.writeAll]

theorem NoCollision.of_append {rest : List (String × String)} (h : NoCollision sha (items ++ rest)) :
    NoCollision sha items := by
  intro v hv w hw
  apply h v _ w _
  · simp only [List.map_append, List.mem_append]
    exact Or.inl hv
  · simp only [List.map_append, List.mem_append]
    exact Or.inl hw

/-- the row and the side value of each key put -/
theorem written (hsha : NoCollision sha items) (d : Db) (place : StacksBlockId × ℕ) {value : String}
    (h : lastPut items key = some value) :
    ⟨place.1, place.2, key, sha value⟩ ∈ (d.writeAll sha place items).kvstore.rows ∧
      (d.writeAll sha place items).side[sha value]? = some value := by
  induction items using List.reverseRecOn with
  | nil => cases h
  | append_singleton items item ih =>
    have hmem := mem_of_lastPut h
    rw [lastPut_append_singleton] at h
    rw [writeAll_append_singleton]
    by_cases heq : item.1 = key
    · rw [if_pos heq] at h
      cases h
      refine ⟨Db.mem_write.2 (Or.inr ?_), ?_⟩
      · rw [heq]
      · simp [Db.write]
    · rw [if_neg heq] at h
      obtain ⟨hrow, hside⟩ := ih hsha.of_append h
      refine ⟨Db.mem_write.2 (Or.inl ⟨hrow, ?_⟩), ?_⟩
      · simp [Row.primaryKey, Ne.symm heq]
      · -- a later value with the same hash is the same value
        simp only [Db.write, Std.ExtTreeMap.getElem?_insert, Std.LawfulEqOrd.compare_eq_iff_eq]
        split_ifs with hhash
        · exact congrArg some (hsha _ (by simp) _ (List.mem_map_of_mem hmem) hhash)
        · exact hside

/-- the rows of the keys that were not put -/
theorem mem_writeAll_of_none (d : Db) (place : StacksBlockId × ℕ) {r : Row} (h : lastPut items r.key = none) :
    r ∈ (d.writeAll sha place items).kvstore.rows ↔ r ∈ d.kvstore.rows := by
  induction items using List.reverseRecOn with
  | nil => rfl
  | append_singleton items item ih =>
    rw [lastPut_append_singleton] at h
    by_cases heq : item.1 = r.key
    · rw [if_pos heq] at h
      cases h
    · rw [if_neg heq] at h
      have hpk : r.primaryKey ≠ (place.1, place.2, item.1) := by
        intro hpk
        exact heq (congrArg (fun x => x.2.2) hpk).symm
      have hne : r ≠ ⟨place.1, place.2, item.1, sha item.2⟩ := by
        intro hr
        apply hpk
        rw [hr]
        rfl
      rw [writeAll_append_singleton, Db.mem_write, ih h]
      simp [hpk, hne]

theorem dumped_writeAll (hsha : NoCollision sha items) (d : Db) (place : StacksBlockId × ℕ) :
    Dumped d (d.writeAll sha place items) place items := by
  refine ⟨?_, fun r hr => mem_writeAll_of_none d place hr⟩
  intro key value h
  obtain ⟨hrow, hside⟩ := written hsha d place h
  exact ⟨_, hrow, rfl, hside⟩

/-- a dump hands the store the last values and leaves the buffer empty, or SQLite has no room for the height -/
def HandsOver (sha : String → Sha512Trunc256Sum) (items : List (String × String)) : Prop :=
  ∀ e conn curTip nextTip,
    if items = [] ∨ (target e conn curTip nextTip).2 < 2 ^ 63 then
      ∃ conn', (puts sha items).dump e conn curTip nextTip = .ok (new, conn') ∧
        Dumped conn conn' (target e conn curTip nextTip) items
    else (puts sha items).dump e conn curTip nextTip = .error (.err .parseError)

/-- **A dump is right for every sequence of puts.** -/
theorem handsOver_puts (hsha : NoCollision sha items) : HandsOver sha items := by
  intro e conn curTip nextTip
  have hdump := dump_puts hsha e conn curTip nextTip
  split_ifs with hh
  · rw [if_pos hh] at hdump
    exact ⟨_, hdump, dumped_writeAll hsha conn _⟩
  · rw [if_neg hh] at hdump
    exact hdump

/-! ## The buffer as a map -/

/-- **The buffer is a map for a key exactly where the key was never put, or the put right after its last one has the
same value.** -/
theorem get_dump_iff (hsha : NoCollision sha items) :
    ((puts sha items).get key = .ok (lastPut items key) ∧ HandsOver sha items) ↔ FollowedBySame items key := by
  rw [get_eq_lastPut_iff hsha, and_iff_left (handsOver_puts hsha)]

theorem get_dump_iff_two :
    ((puts exampleSha [("a", "1"), ("b", "1")]).get "a" = .ok (lastPut [("a", "1"), ("b", "1")] "a") ∧
      HandsOver exampleSha [("a", "1"), ("b", "1")]) ↔ FollowedBySame [("a", "1"), ("b", "1")] "a" :=
  get_dump_iff (by decide)

/-- **A key read back after one put panics.** -/
theorem get_panics :
    NoCollision exampleSha [("a", "1")] ∧
      ¬ ((puts exampleSha [("a", "1")]).get "a" = .ok (lastPut [("a", "1")] "a") ∧ HandsOver exampleSha [("a", "1")]) ∧
      (puts exampleSha [("a", "1")]).get "a" = .error (.panic .outOfBounds) := by
  have hget : (puts exampleSha [("a", "1")]).get "a" = .error (.panic .outOfBounds) := by decide +kernel
  refine ⟨by decide, ?_, hget⟩
  intro h
  rw [hget] at h
  cases h.1

/-- the value of another key -/
example : (puts exampleSha [("a", "1"), ("b", "2")]).get "a" = .ok (some "2") := by decide +kernel

end Wrb.Vm.WriteBuffer
