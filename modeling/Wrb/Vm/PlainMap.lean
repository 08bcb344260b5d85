/-
The storage against a plain map.

`Plain` is what the storage is for: a map in which the last write wins.

`runOps_refines`: batches and reads of a session, from a relation that a batch keeps and a read respects.
`Db.Shows.write`: a row that becomes the newest of its key updates the map that the reads amount to.
`bootSession_refines`, `pageLoad_refines`: a session that meets its condition (`Session.Meets`) commits, and does to the
file what it does to the map.
`sessions_refine`: so does a run of such sessions from a new file, and a store opened after it reads the map. A boot
session that writes a key again which an earlier session wrote does not (`reinstall_fails`).
-/
import Mathlib.Tactic
import Std.Data.ExtTreeMap
import Wrb.Lib.Runs
import Wrb.Vm.Sessions

namespace Wrb.Vm

open Std (ExtTreeMap)
open Wrb.Storage (Sha512Trunc256Sum)
open Wrb.Runs

/-! ## The plain map -/

/-- what a key holds -/
abbrev Plain := String → Option String

namespace Plain

def empty : Plain := fun _ => none

def putAll (m : Plain) (items : List (String × String)) : Plain :=
  items.foldl (fun m item => Function.update m item.1 (some item.2)) m

/-- what the reads return, and the map afterwards -/
def runOps (m : Plain) : List Op → List (Option String) × Plain
  | [] => ([], m)
  | .put items :: ops => (m.putAll items).runOps ops
  | .get key :: ops => (m key :: (m.runOps ops).1, (m.runOps ops).2)

def session (m : Plain) (s : Session) : List (Option String) × Plain := m.runOps s.ops

end Plain

variable {e : Engine} {sha : String → Sha512Trunc256Sum} {values : List String} {n : ℕ}

/-- a session's store does what the map does, if a batch keeps it related to the map and a read respects the relation -/
theorem runOps_refines {R : WritableWrbStore → Plain → Prop} {P : Op → Prop}
    (hput : ∀ s m items, R s m → P (.put items) → ∃ s', s.putAllData e sha items = .ok s' ∧ R s' (m.putAll items))
    (hget : ∀ s m key, R s m → P (.get key) → s.getData e key = .ok (m key)) {s : WritableWrbStore} {m : Plain}
    (h : R s m) {ops : List Op} (hops : ∀ o ∈ ops, P o) :
    ∃ s', s.runOps e sha ops = .ok ((m.runOps ops).1, s') ∧ R s' (m.runOps ops).2 := by
  induction ops generalizing s m with
  | nil => exact ⟨s, rfl, h⟩
  | cons o ops ih =>
    have hops' : ∀ o ∈ ops, P o := fun o' ho' => hops o' (List.mem_cons_of_mem o ho')
    cases o with
    | put items =>
      obtain ⟨s₁, h₁, hR₁⟩ := hput s m items h (hops _ List.mem_cons_self)
      obtain ⟨s₂, h₂, hR₂⟩ := ih hR₁ hops'
      refine ⟨s₂, ?_, hR₂⟩
      rw [WritableWrbStore.runOps, h₁, ok_bind, h₂]
      rfl
    | get key =>
      obtain ⟨s₂, h₂, hR₂⟩ := ih h hops'
      refine ⟨s₂, ?_, hR₂⟩
      rw [WritableWrbStore.runOps, hget s m key h (hops _ List.mem_cons_self), ok_bind, h₂]
      rfl

/-- what a row of a batch keeps, a batch keeps -/
theorem writeAll_induct {I : Db → Plain → Prop} (sha : String → Sha512Trunc256Sum) (place : StacksBlockId × ℕ)
    {items : List (String × String)}
    (hstep : ∀ d m item, I d m → item ∈ items →
      I (d.write place item.1 (sha item.2) item.2) (Function.update m item.1 (some item.2))) {d : Db} {m : Plain}
    (h : I d m) : I (d.writeAll sha place items) (m.putAll items) := by
  induction items generalizing d m with
  | nil => exact h
  | cons item items ih =>
    refine ih ?_ (hstep d m item h List.mem_cons_self)
    intro d m x hI hx
    exact hstep d m x hI (List.mem_cons_of_mem item hx)

/-! ## Reads across a write -/

/-- the reads at a height amount to the map, whose values the side store has -/
structure Db.Shows (sha : String → Sha512Trunc256Sum) (values : List String) (d : Db) (height : ℕ) (m : Plain) :
    Prop where
  reads : ∀ key, d.Reads height key (m key)
  stored : Stored sha values d

/-- **A row that becomes the newest of its key updates the map.** -/
theorem Db.Shows.write {d : Db} {m : Plain} {place : StacksBlockId × ℕ} {key v : String}
    (h : d.Shows sha values n m) (hsha : Faithful sha values) (hv : v ∈ values) (hle : place.2 ≤ n)
    (htop : ∀ r ∈ (d.write place key (sha v) v).kvstore.rows, r.key = key → r.height ≤ place.2)
    (hone : Versions.OnePer Row.height Row.key (d.write place key (sha v) v).kvstore.rows) :
    (d.write place key (sha v) v).Shows sha values n (Function.update m key (some v)) := by
  have hnew : (⟨place.1, place.2, key, sha v⟩ : Row) ∈ (d.write place key (sha v) v).kvstore.rows :=
    Db.mem_write.2 (Or.inr rfl)
  refine ⟨?_, h.stored.write hsha hv place key⟩
  intro k
  by_cases hk : k = key
  · subst hk
    rw [Function.update_self, ← Db.value_written d place k (sha v) v]
    exact Versions.Reads.of_mem hnew hle htop fun z hz hkey hheight => hone z hz _ hnew hkey hheight
  · rw [Function.update_of_ne hk]
    refine (h.reads k).congr ?_ fun r hr _ => h.stored.value_write hsha hv place key hr
    intro z hz _
    rw [Db.mem_write]
    constructor
    · intro hmem
      refine Or.inl ⟨hmem, ?_⟩
      intro heq
      exact hk (hz.symm.trans (Prod.ext_iff.1 (Prod.ext_iff.1 heq).2).2)
    · rintro (hmem | rfl)
      · exact hmem.1
      · exact absurd hz.symm hk

/-! ## Page loads -/

/-- a row of a page load -/
theorem InPageLoad.shows_write {d : Db} {m : Plain} (hsha : Faithful sha values) (hn : n + 1 < 2 ^ 63)
    (h : Layered n (n + 1) d ∧ NoBoot d) (hm : d.Shows sha values (n + 1) m) {v : String}
    (hv : v ∈ values) (key : String) :
    (d.write (makeWrbChainTip (n + 1), n + 1) key (sha v) v).Shows sha values (n + 1)
      (Function.update m key (some v)) := by
  obtain ⟨hlayered, hboot⟩ := InPageLoad.write h hn key (sha v) v
  refine hm.write hsha hv (le_refl _) ?_ (hlayered.onePer hboot)
  intro r hr _
  exact hlayered.le r hr

/-- **A batch of a page load** -/
theorem InPageLoad.putAllData_refines {s : WritableWrbStore} (h : InPageLoad n s) (hsha : Faithful sha values)
    (hn : n + 1 < 2 ^ 63) {items : List (String × String)} (hv : ∀ item ∈ items, item.2 ∈ values) {m : Plain}
    (hm : s.tx.Shows sha values (n + 1) m) :
    ∃ s', s.putAllData e sha items = .ok s' ∧ InPageLoad n s' ∧ s'.tx.Shows sha values (n + 1) (m.putAll items) := by
  have hplace := h.place_eq (e := e)
  have hput := WritableWrbStore.putAllData_eq (e := e) h.writeBuf hsha hv (by rw [hplace]; exact hn)
  refine ⟨_, hput, h.putAllData hput, ?_⟩
  rw [hplace]
  have hwrites := writeAll_induct sha (makeWrbChainTip (n + 1), n + 1)
    (I := fun d m => (Layered n (n + 1) d ∧ NoBoot d) ∧ d.Shows sha values (n + 1) m)
    (fun d m item hI hitem => ⟨InPageLoad.write hI.1 hn item.1 (sha item.2) item.2,
      InPageLoad.shows_write hsha hn hI.1 hI.2 (hv item hitem) item.1⟩) ⟨⟨h.layered, h.noBoot⟩, hm⟩
  exact hwrites.2

/-! ## Boot sessions -/

/-- what an operation of a boot session needs of the file the session begins on: a key it writes has no committed row,
and a key it reads has no row of a page load -/
def Op.MeetsBoot (d : Db) : Op → Prop
  | .put items => ∀ item ∈ items, ∀ r ∈ d.kvstore.rows, r.key = item.1 → r.chainTip = BOOT_BLOCK_ID
  | .get key => ∀ r ∈ d.kvstore.rows, r.key = key → r.height = 0

instance (d : Db) : (o : Op) → Decidable (o.MeetsBoot d)
  | .put items =>
    inferInstanceAs (Decidable (∀ item ∈ items, ∀ r ∈ d.kvstore.rows, r.key = item.1 → r.chainTip = BOOT_BLOCK_ID))
  | .get key => inferInstanceAs (Decidable (∀ r ∈ d.kvstore.rows, r.key = key → r.height = 0))

/-- the transaction of a boot session that began on the file `d₀` -/
structure BootTx (n : ℕ) (d₀ d : Db) : Prop where
  layered : Layered n n d
  onePer : Versions.OnePer Row.height Row.key d.kvstore.rows
  kept : ∀ r ∈ d.kvstore.rows, r.chainTip ≠ BOOT_BLOCK_ID → r ∈ d₀.kvstore.rows

namespace BootTx

variable {d₀ d : Db}

/-- all rows of a key the session may write are its own -/
theorem boot_of_key (h : BootTx n d₀ d) {key : String}
    (hkey : ∀ r ∈ d₀.kvstore.rows, r.key = key → r.chainTip = BOOT_BLOCK_ID) {r : Row} (hr : r ∈ d.kvstore.rows)
    (heq : r.key = key) : r.chainTip = BOOT_BLOCK_ID := by
  by_contra hne
  exact hne (hkey r (h.kept r hr hne) heq)

/-- a row of a boot session -/
theorem write (h : BootTx n d₀ d) {key : String}
    (hkey : ∀ r ∈ d₀.kvstore.rows, r.key = key → r.chainTip = BOOT_BLOCK_ID) (hash : Sha512Trunc256Sum) (v : String) :
    BootTx n d₀ (d.write (BOOT_BLOCK_ID, 0) key hash v) where
  layered := InBoot.write h.layered key hash v
  onePer := by
    -- the new row replaces the one of its key, if there is one
    have hnew : ∀ r ∈ d.kvstore.rows, r.primaryKey ≠ (BOOT_BLOCK_ID, 0, key) → r.key ≠ key := by
      intro r hr hne heq
      have hboot := h.boot_of_key hkey hr heq
      refine hne ?_
      unfold Row.primaryKey
      rw [hboot, h.layered.height_of_boot hr hboot, heq]
    intro x hx y hy hkeys hheight
    rcases Db.mem_write.1 hx with hx | rfl
    · rcases Db.mem_write.1 hy with hy | rfl
      · exact h.onePer x hx.1 y hy.1 hkeys hheight
      · exact absurd hkeys (hnew x hx.1 hx.2)
    · rcases Db.mem_write.1 hy with hy | rfl
      · exact absurd hkeys.symm (hnew y hy.1 hy.2)
      · rfl
  kept r hr hne := by
    rcases Db.mem_write.1 hr with hr | rfl
    · exact h.kept r hr.1 hne
    · exact absurd rfl hne

theorem shows_write (h : BootTx n d₀ d) (hsha : Faithful sha values) {m : Plain} (hm : d.Shows sha values n m)
    {v : String} (hv : v ∈ values) {key : String}
    (hkey : ∀ r ∈ d₀.kvstore.rows, r.key = key → r.chainTip = BOOT_BLOCK_ID) :
    (d.write (BOOT_BLOCK_ID, 0) key (sha v) v).Shows sha values n (Function.update m key (some v)) := by
  have h' := h.write hkey (sha v) v
  refine hm.write hsha hv (Nat.zero_le n) ?_ h'.onePer
  intro r hr heq
  exact (h'.layered.height_of_boot hr (h'.boot_of_key hkey hr heq)).le

/-- a read at height 0 sees the newest row of a key without rows above it -/
theorem reads_zero (h : BootTx n d₀ d) {key : String} {value : Option String} (hread : d.Reads n key value)
    (hkey : ∀ r ∈ d₀.kvstore.rows, r.key = key → r.height = 0) : d.Reads 0 key value := by
  refine (Versions.Reads.of_le (Nat.zero_le n) ?_).1 hread
  intro r hr heq
  by_cases hboot : r.chainTip = BOOT_BLOCK_ID
  · exact (h.layered.height_of_boot hr hboot).le
  · exact (hkey r (h.kept r hr hboot) heq).le

/-- **A batch of a boot session** -/
theorem putAllData_refines {s : WritableWrbStore} (hin : InBoot n s) (h : BootTx n d₀ s.tx) (hsha : Faithful sha values)
    {items : List (String × String)} (hv : ∀ item ∈ items, item.2 ∈ values) (hitems : (Op.put items).MeetsBoot d₀)
    {m : Plain} (hm : s.tx.Shows sha values n m) :
    ∃ s', s.putAllData e sha items = .ok s' ∧ InBoot n s' ∧ BootTx n d₀ s'.tx ∧
      s'.tx.Shows sha values n (m.putAll items) := by
  have hplace := hin.place_eq (e := e)
  have hput := WritableWrbStore.putAllData_eq (e := e) hin.writeBuf hsha hv (by rw [hplace]; exact Nat.two_pow_pos 63)
  refine ⟨_, hput, hin.putAllData hput, ?_⟩
  rw [hplace]
  exact writeAll_induct sha (BOOT_BLOCK_ID, 0)
    (I := fun d m => BootTx n d₀ d ∧ d.Shows sha values n m)
    (fun d m item hI hitem => ⟨hI.1.write (hitems item hitem) (sha item.2) item.2,
      hI.1.shows_write hsha hI.2 (hv item hitem) (hitems item hitem)⟩) ⟨h, hm⟩

/-- **The commit of a boot session meets no row that is there already.** -/
theorem setChainTip (h : BootTx n d₀ d) {m : Plain} (hm : d.Shows sha values n m) :
    ∃ kvstore, d.kvstore.setChainTip GENESIS_BLOCK_ID BOOT_BLOCK_ID = some kvstore ∧
      Settled n { d with kvstore := kvstore } ∧ Db.Shows sha values { d with kvstore := kvstore } n m := by
  obtain ⟨kvstore, hset⟩ := Kvstore.setChainTip_of_injOn GENESIS_BLOCK_ID BOOT_BLOCK_ID
    (t := d.kvstore) fun r hr r' hr' hheight hkey => h.onePer r hr r' hr' hkey hheight
  refine ⟨kvstore, hset, h.layered.setChainTip hset, ?_, hm.stored.setChainTip hset⟩
  intro key
  have hmap := (hm.reads key).map (Kvstore.renamed_height GENESIS_BLOCK_ID BOOT_BLOCK_ID)
    (Kvstore.renamed_key GENESIS_BLOCK_ID BOOT_BLOCK_ID)
    (fun r => by unfold Db.value; rw [Kvstore.renamed_dataHash])
  rw [← Kvstore.rows_of_setChainTip hset] at hmap
  exact hmap

end BootTx

/-! ## Sessions against the map -/

/-- the file holds what the map holds -/
structure Holds (sha : String → Sha512Trunc256Sum) (values : List String) (n : ℕ) (d : Db) (m : Plain) : Prop where
  layered : Layered n n d
  onePer : Versions.OnePer Row.height Row.key d.kvstore.rows
  shows : d.Shows sha values n m
  reached : d = freshDb ∨ NoBoot d

theorem holds_freshDb (sha : String → Sha512Trunc256Sum) (values : List String) :
    Holds sha values 0 freshDb Plain.empty where
  layered := layered_freshDb
  onePer := by
    intro x hx y hy _ _
    rw [List.mem_singleton.1 hx, List.mem_singleton.1 hy]
  shows := by
    refine ⟨?_, Stored.freshDb sha values⟩
    intro key
    refine ⟨?_, fun _ => rfl⟩
    intro x hx
    rw [List.mem_singleton.1 hx.mem]
    exact (Stored.freshDb sha values).sentinel
  reached := Or.inl rfl

theorem Settled.holds {d : Db} {m : Plain} (h : Settled n d) (hm : d.Shows sha values n m) : Holds sha values n d m :=
  ⟨h.layered, h.layered.onePer h.noBoot, hm, Or.inr h.noBoot⟩

/-- the condition of a session: what it begins on. A page load needs a file with a tip of its own, and room for one more
height; a boot session must not come back to a key -/
def Session.Meets (e : Engine) (vm : ClarityVM) : Session → Prop
  | .boot ops => ∀ o ∈ ops, o.MeetsBoot vm.db.conn
  | .pageLoad _ => getWrbChainTip e vm.db.conn ≠ BOOT_BLOCK_ID ∧
      ∀ h ∈ getWrbBlockHeight e vm.db.conn (getWrbChainTip e vm.db.conn), h + 1 < 2 ^ 63

instance (e : Engine) (vm : ClarityVM) : (s : Session) → Decidable (s.Meets e vm)
  | .boot ops => inferInstanceAs (Decidable (∀ o ∈ ops, o.MeetsBoot vm.db.conn))
  | .pageLoad _ => inferInstanceAs (Decidable (getWrbChainTip e vm.db.conn ≠ BOOT_BLOCK_ID ∧
      ∀ h ∈ getWrbBlockHeight e vm.db.conn (getWrbChainTip e vm.db.conn), h + 1 < 2 ^ 63))

theorem Holds.settled {d : Db} {m : Plain} (h : Holds sha values n d m) (hne : getWrbChainTip e d ≠ BOOT_BLOCK_ID) :
    Settled n d := by
  rcases h.reached with rfl | hboot
  · exact absurd getWrbChainTip_freshDb hne
  · exact ⟨h.layered, hboot⟩

variable {vm : ClarityVM} {m : Plain} {ops : List Op}

/-- the operations of a page load -/
theorem InPageLoad.runOps_refines {s : WritableWrbStore} (h : InPageLoad n s) (hsha : Faithful sha values)
    (hn : n + 1 < 2 ^ 63) (hm : s.tx.Shows sha values (n + 1) m) (hv : ∀ o ∈ ops, ∀ v ∈ o.values, v ∈ values) :
    ∃ s', s.runOps e sha ops = .ok ((m.runOps ops).1, s') ∧ InPageLoad n s' ∧
      s'.tx.Shows sha values (n + 1) (m.runOps ops).2 := by
  refine Vm.runOps_refines (R := fun s m => InPageLoad n s ∧ s.tx.Shows sha values (n + 1) m)
    (P := fun o => ∀ v ∈ o.values, v ∈ values) ?_ ?_ ⟨h, hm⟩ hv
  · intro s m items hR hitems
    exact hR.1.putAllData_refines hsha hn (fun item hitem => hitems _ (List.mem_map_of_mem hitem)) hR.2
  · intro s m key hR _
    rw [WritableWrbStore.getData_eq hR.1.writeBuf, hR.1.tipHeight]
    exact getCommitted_of_reads hn (hR.2.reads key)

/-- **A page load that meets its condition commits, and does what the map does.** -/
theorem pageLoad_refines (hsha : Faithful sha values) (h : Holds sha values n vm.db.conn m)
    (hmeets : (Session.pageLoad ops).Meets e vm) (hv : ∀ o ∈ ops, ∀ v ∈ o.values, v ∈ values) :
    ∃ vm' n', vm.pageLoad e sha ops = .ok ((m.runOps ops).1, vm') ∧
      Holds sha values n' vm'.db.conn (m.runOps ops).2 := by
  have hsettled := h.settled hmeets.1
  have hn : n + 1 < 2 ^ 63 := by
    refine hmeets.2 n ?_
    rw [hsettled.getWrbChainTip e]
    exact h.layered.getWrbBlockHeight e hsettled.noBoot (le_refl n)
  -- the height the store reads at is still empty
  have hshows : vm.db.conn.Shows sha values (n + 1) m :=
    ⟨fun key => (Versions.Reads.of_le (Nat.le_succ n) fun r hr _ => h.layered.le r hr).2 (h.shows.reads key),
      h.shows.stored⟩
  obtain ⟨s', hrun, hin, hshows'⟩ := (InPageLoad.of_settled hsettled).runOps_refines (e := e) hsha hn hshows hv
  have hsession : vm.pageLoad e sha ops = .ok ((m.runOps ops).1, vm.setConn s'.tx) := by
    unfold ClarityVM.pageLoad
    rw [hsettled.beginPageLoad e rfl, ok_bind, hrun, ok_bind]
    simp only [hin.commit, ok_bind]
    rfl
  rcases hin.layered.settled hin.noBoot with hdone | hdone
  · refine ⟨_, n, hsession, hdone.holds ⟨?_, hshows'.stored⟩⟩
    intro key
    exact (Versions.Reads.of_le (Nat.le_succ n) fun r hr _ => hdone.layered.le r hr).1 (hshows'.reads key)
  · exact ⟨_, n + 1, hsession, hdone.holds hshows'⟩

/-- the operations of a boot session -/
theorem BootTx.runOps_refines {d₀ : Db} {s : WritableWrbStore} (hin : InBoot n s) (h : BootTx n d₀ s.tx)
    (hsha : Faithful sha values) (hm : s.tx.Shows sha values n m)
    (hops : ∀ o ∈ ops, o.MeetsBoot d₀ ∧ ∀ v ∈ o.values, v ∈ values) :
    ∃ s', s.runOps e sha ops = .ok ((m.runOps ops).1, s') ∧ InBoot n s' ∧ BootTx n d₀ s'.tx ∧
      s'.tx.Shows sha values n (m.runOps ops).2 := by
  refine Vm.runOps_refines (R := fun s m => InBoot n s ∧ BootTx n d₀ s.tx ∧ s.tx.Shows sha values n m)
    (P := fun o => o.MeetsBoot d₀ ∧ ∀ v ∈ o.values, v ∈ values) ?_ ?_ ⟨hin, h, hm⟩ hops
  · intro s m items hR hitems
    exact BootTx.putAllData_refines hR.1 hR.2.1 hsha (fun item hitem => hitems.2 _ (List.mem_map_of_mem hitem)) hitems.1
      hR.2.2
  · intro s m key hR hkey
    rw [WritableWrbStore.getData_eq hR.1.writeBuf, hR.1.tipHeight]
    exact getCommitted_of_reads (Nat.two_pow_pos 63) (hR.2.1.reads_zero (hR.2.2.reads key) hkey.1)

/-- **A boot session that meets its condition commits, and does what the map does.** -/
theorem bootSession_refines (hsha : Faithful sha values) (h : Holds sha values n vm.db.conn m)
    (hmeets : (Session.boot ops).Meets e vm) (hv : ∀ o ∈ ops, ∀ v ∈ o.values, v ∈ values) :
    ∃ vm' n', vm.bootSession e sha ops = .ok ((m.runOps ops).1, vm') ∧
      Holds sha values n' vm'.db.conn (m.runOps ops).2 := by
  obtain ⟨s', hrun, hin, htx, hshows⟩ := BootTx.runOps_refines (e := e) (InBoot.of_layered h.layered)
    ⟨h.layered, h.onePer, fun _ hr _ => hr⟩ hsha h.shows fun o ho => ⟨hmeets o ho, hv o ho⟩
  obtain ⟨kvstore, hset, hdone, hshows'⟩ := htx.setChainTip hshows
  refine ⟨vm.setConn { s'.tx with kvstore := kvstore }, n, ?_, hdone.holds hshows'⟩
  unfold ClarityVM.bootSession
  rw [WrbDB.begin_boot, ok_bind, hrun, ok_bind]
  simp only [WritableWrbStore.commitTo_of_some hin.writeBuf (hin.targetTip_eq ▸ hset), ok_bind]
  rfl

theorem session_refines (hsha : Faithful sha values) (h : Holds sha values n vm.db.conn m) {s : Session}
    (hmeets : s.Meets e vm) (hv : ∀ v ∈ s.values, v ∈ values) :
    ∃ vm' n', vm.session e sha s = .ok ((m.session s).1, vm') ∧ Holds sha values n' vm'.db.conn (m.session s).2 := by
  cases s with
  | boot ops => exact bootSession_refines hsha h hmeets (Session.values_of_op hv)
  | pageLoad ops => exact pageLoad_refines hsha h hmeets (Session.values_of_op hv)

/-! ## Opening a store again -/

/-- `WrbDB::open`, then a read-only store at the tip it found -/
def readBack (e : Engine) (file : Db) (key : String) : Except Fault (Option String) := do
  let db ← WrbDB.openDb e (some file) none
  let s ← db.beginReadOnly e none
  s.getData e key

/-- `ClarityVM::new`, then its read-only store -/
def readBackVm (e : Engine) (file : Db) (key : String) : Except Fault (Option String) := do
  let vm ← ClarityVM.new e (some file)
  let s ← vm.beginReadOnly e
  s.getData e key

/-- where a read-only store is opened: at the newest tip -/
theorem Holds.opens {d : Db} (h : Holds sha values n d m) :
    ∃ tip, WrbDB.openDb e (some d) none = .ok ⟨tip, d, false⟩ ∧ getWrbChainTip e d = tip ∧
      (⟨tip, d, false⟩ : WrbDB).beginReadOnly e (some tip) = .ok ⟨tip, n, d⟩ := by
  rcases h.reached with rfl | hboot
  · have hn : n = 0 := by
      obtain ⟨r, hr, heq⟩ := h.layered.reached n (le_refl n)
      rw [← heq, List.mem_singleton.1 hr]
      rfl
    subst hn
    exact ⟨BOOT_BLOCK_ID, openDb_freshDb rfl, getWrbChainTip_freshDb, beginReadOnly_boot⟩
  · have hsettled : Settled n d := ⟨h.layered, hboot⟩
    exact ⟨makeWrbChainTip n, hsettled.openDb e, hsettled.getWrbChainTip e, hsettled.beginReadOnly e rfl (le_refl n)⟩

/-- **A store opened on the file reads the map.** -/
theorem Holds.readBack {d : Db} (h : Holds sha values n d m) (key : String) :
    Vm.readBack e d key = .ok (m key) ∧ readBackVm e d key = .ok (m key) := by
  obtain ⟨tip, hopen, htip, hbegin⟩ := h.opens (e := e)
  have hget : (⟨tip, n, d⟩ : ReadOnlyWrbStore).getData e key = .ok (m key) :=
    getCommitted_of_reads h.layered.small_of_reached (h.shows.reads key)
  constructor
  · unfold Vm.readBack
    rw [hopen, ok_bind]
    have hnone : (⟨tip, d, false⟩ : WrbDB).beginReadOnly e none = .ok ⟨tip, n, d⟩ := hbegin
    rw [hnone, ok_bind, hget]
  · unfold readBackVm ClarityVM.new
    rw [hopen, ok_bind]
    have hvm : (⟨⟨tip, d, false⟩⟩ : ClarityVM).beginReadOnly e = .ok ⟨tip, n, d⟩ := by
      unfold ClarityVM.beginReadOnly
      rw [htip, hbegin]
    change ((⟨⟨tip, d, false⟩⟩ : ClarityVM).beginReadOnly e >>= fun s => s.getData e key) = .ok (m key)
    rw [hvm, ok_bind, hget]

/-! ## Runs of sessions -/

/-- the sessions commit, their reads return what the map holds, and so does a store opened afterwards -/
def RefinesPlain (e : Engine) (sha : String → Sha512Trunc256Sum) (vm : ClarityVM) (sessions : List Session) : Prop :=
  ∃ vm', runSome (fun vm s => (vm.session e sha s).toOption) vm sessions =
      some ((runModel Plain.session Plain.empty sessions).1, vm') ∧
    ∀ key, Vm.readBack e vm'.db.conn key = .ok ((runModel Plain.session Plain.empty sessions).2 key) ∧
      readBackVm e vm'.db.conn key = .ok ((runModel Plain.session Plain.empty sessions).2 key)

/-- **The storage is a plain map.** From a new file, sessions that each meet their condition all commit; every read
returns the value written last, in the session and when the store is opened again. -/
theorem sessions_refine (hnew : ClarityVM.new e none = .ok vm) {sessions : List Session}
    (hsha : Faithful sha (sessions.flatMap Session.values))
    (hmeets : AlwaysSome (fun vm s => (ClarityVM.session e sha vm s).toOption) (fun vm s => s.Meets e vm) vm sessions) :
    RefinesPlain e sha vm sessions := by
  have hstart : Holds sha (sessions.flatMap Session.values) 0 vm.db.conn Plain.empty := by
    rw [conn_of_new hnew]
    exact holds_freshDb _ _
  have hsteps := hmeets.and (Q := fun s => ∀ v ∈ s.values, v ∈ sessions.flatMap Session.values)
    fun s hs v hv => List.mem_flatMap.2 ⟨s, hs, hv⟩
  obtain ⟨vm', hrun, n, hholds⟩ : ∃ vm', runSome (fun vm s => (ClarityVM.session e sha vm s).toOption) vm sessions =
      some ((runModel Plain.session Plain.empty sessions).1, vm') ∧
      ∃ n, Holds sha (sessions.flatMap Session.values) n vm'.db.conn
        (runModel Plain.session Plain.empty sessions).2 := by
    refine runSome_refines
      (R := fun vm m => ∃ n, Holds sha (sessions.flatMap Session.values) n vm.db.conn m) ?_ ⟨0, hstart⟩ hsteps
    intro vm m s hR hs
    obtain ⟨n, hR⟩ := hR
    obtain ⟨vm', n', hsession, hholds⟩ := session_refines hsha hR hs.1 hs.2
    exact ⟨vm', by rw [hsession]; rfl, n', hholds⟩
  exact ⟨vm', hrun, fun key => hholds.readBack key⟩

theorem sessions_refine_install :
    RefinesPlain .inOrder exampleSha exampleVm
      [.boot [.put [("a", "1"), ("b", "2")]], .pageLoad [.get "a", .put [("a", "3")], .get "a"],
        .boot [.put [("c", "2")]], .pageLoad [.get "a", .get "c"]] :=
  sessions_refine new_none (by decide +kernel) (by decide +kernel)

/-- **A second boot session that writes a key again fails to commit**: its row takes the place of the row that
is there -/
theorem reinstall_fails :
    ClarityVM.new .inOrder none = .ok exampleVm ∧
      ¬ RefinesPlain .inOrder exampleSha exampleVm [.boot [.put [("a", "1")]], .boot [.put [("a", "2")]]] := by
  refine ⟨new_none, ?_⟩
  rintro ⟨vm', hrun, -⟩
  have hnone : (runSome (fun vm s => (ClarityVM.session .inOrder exampleSha vm s).toOption) exampleVm
      [.boot [.put [("a", "1")]], .boot [.put [("a", "2")]]]).isNone := by decide +kernel
  rw [hrun] at hnone
  cases hnone

end Wrb.Vm
