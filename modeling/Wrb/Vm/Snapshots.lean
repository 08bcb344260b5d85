/-
Reads at an earlier tip (`WrbDB::begin_read_only`) while page loads go on.

`Keeps`: the rows up to a height, and their values, are the same in two files. A page load keeps everything up to the
height it begins at (`keeps_pageLoad`), and so do any page loads (`keeps_run`).
`snapshot_reads`: a read-only store at a committed tip reads the same before and after any page loads, and finds one
tip for each height. A page load on a new file breaks this (`uninitialised_page_load`).
`reads_plain`: at the tip that sessions ended at, it reads the plain map of these sessions.
-/
import Mathlib.Tactic
import Std.Data.ExtTreeMap
import Wrb.Lib.Runs
import Wrb.Vm.PlainMap

namespace Wrb.Vm

open Wrb.Storage (Sha512Trunc256Sum)
open Wrb.Runs

variable {e : Engine} {sha : String → Sha512Trunc256Sum} {values : List String} {vm vm' : ClarityVM} {n : ℕ}
  {ops : List Op} {out : List (Option String)}

/-! ## What a page load keeps -/

/-- up to the height, the files have the same rows and values -/
structure Keeps (n : ℕ) (d d' : Db) : Prop where
  rows : ∀ r : Row, r.height ≤ n → (r ∈ d.kvstore.rows ↔ r ∈ d'.kvstore.rows)
  value : ∀ r ∈ d.kvstore.rows, r.height ≤ n → d'.value r = d.value r

namespace Keeps

theorem refl (n : ℕ) (d : Db) : Keeps n d d := ⟨fun _ _ => Iff.rfl, fun _ _ _ => rfl⟩

theorem trans {d d' d'' : Db} {n' : ℕ} (h : Keeps n d d') (h' : Keeps n' d' d'') (hn : n ≤ n') : Keeps n d d'' where
  rows r hr := (h.rows r hr).trans (h'.rows r (hr.trans hn))
  value r hmem hr := (h'.value r ((h.rows r hr).1 hmem) (hr.trans hn)).trans (h.value r hmem hr)

theorem reads {d d' : Db} (h : Keeps n d d') {m : ℕ} (hm : m ≤ n) {key : String} {value : Option String}
    (hread : d.Reads m key value) : d'.Reads m key value :=
  Versions.Reads.congr hread (fun r _ hr => h.rows r (hr.trans hm)) fun r hmem hr => h.value r hmem (hr.trans hm)

/-- a row above the height -/
theorem write {d : Db} (h : Stored sha values d) (hsha : Faithful sha values) {v : String} (hv : v ∈ values)
    {place : StacksBlockId × ℕ} (hplace : n < place.2) (key : String) : Keeps n d (d.write place key (sha v) v) where
  rows r hr := by
    rw [Db.mem_write]
    constructor
    · intro hmem
      refine Or.inl ⟨hmem, ?_⟩
      intro heq
      have hheight : r.height = place.2 := (Prod.ext_iff.1 (Prod.ext_iff.1 heq).2).1
      omega
    · rintro (hmem | rfl)
      · exact hmem.1
      · exact absurd hr (not_le.2 hplace)
  value r hr _ := h.value_write hsha hv place key hr

theorem writeAll {d : Db} (h : Stored sha values d) (hsha : Faithful sha values) {items : List (String × String)}
    (hv : ∀ item ∈ items, item.2 ∈ values) {place : StacksBlockId × ℕ} (hplace : n < place.2) :
    Keeps n d (d.writeAll sha place items) := by
  induction items generalizing d with
  | nil => exact refl n d
  | cons item items ih =>
    have hitem : item.2 ∈ values := hv item List.mem_cons_self
    have hrest := ih (h.write hsha hitem place item.1) fun x hx => hv x (List.mem_cons_of_mem item hx)
    exact (write h hsha hitem hplace item.1).trans hrest (le_refl n)

end Keeps

/-- **A page load keeps everything up to the height it begins at.** -/
theorem keeps_pageLoad (h : Settled n vm.db.conn) (hstored : Stored sha values vm.db.conn) (hsha : Faithful sha values)
    (hv : ∀ o ∈ ops, ∀ v ∈ o.values, v ∈ values) (hsession : vm.pageLoad e sha ops = .ok (out, vm')) :
    Keeps n vm.db.conn vm'.db.conn ∧ Stored sha values vm'.db.conn := by
  unfold ClarityVM.pageLoad at hsession
  rw [h.beginPageLoad e rfl, ok_bind] at hsession
  obtain ⟨⟨out', s'⟩, hrun, hrest⟩ := ok_of_bind hsession
  obtain ⟨hin, hstored', hkeeps⟩ := runOps_inv
    (I := fun s => InPageLoad n s ∧ Stored sha values s.tx ∧ Keeps n vm.db.conn s.tx)
    (fun s items s' hI hitems hput => by
      obtain ⟨hin, hstored, hkeeps⟩ := hI
      refine ⟨hin.putAllData hput, ?_⟩
      rw [WritableWrbStore.writes_of_putAllData hin.writeBuf hsha hitems hput, hin.place_eq]
      exact ⟨hstored.writeAll hsha hitems _,
        hkeeps.trans (Keeps.writeAll hstored hsha hitems (Nat.lt_succ_self n)) (le_refl n)⟩)
    ⟨InPageLoad.of_settled h, hstored, Keeps.refl n _⟩ hv hrun
  obtain ⟨conn, hcommit, hret⟩ := ok_of_bind hrest
  rw [hin.commit] at hcommit
  cases hcommit
  cases hret
  exact ⟨hkeeps, hstored'⟩

/-- a boot session keeps the values -/
theorem stored_boot (h : Layered n n vm.db.conn) (hstored : Stored sha values vm.db.conn) (hsha : Faithful sha values)
    (hv : ∀ o ∈ ops, ∀ v ∈ o.values, v ∈ values) (hsession : vm.bootSession e sha ops = .ok (out, vm')) :
    Stored sha values vm'.db.conn := by
  unfold ClarityVM.bootSession at hsession
  rw [WrbDB.begin_boot, ok_bind] at hsession
  obtain ⟨⟨out', s'⟩, hrun, hrest⟩ := ok_of_bind hsession
  obtain ⟨hin, hstored'⟩ := runOps_inv (I := fun s => InBoot n s ∧ Stored sha values s.tx)
    (fun s items s' hI hitems hput => by
      refine ⟨hI.1.putAllData hput, ?_⟩
      rw [WritableWrbStore.writes_of_putAllData hI.1.writeBuf hsha hitems hput]
      exact hI.2.writeAll hsha hitems _) ⟨InBoot.of_layered h, hstored⟩ hv hrun
  obtain ⟨conn, hcommit, hret⟩ := ok_of_bind hrest
  cases hret
  obtain ⟨kvstore, hset, rfl⟩ := hin.commitTo_cases hcommit
  exact hstored'.setChainTip hset

/-! ## Runs -/

/-- the file of a VM between sessions -/
def Sound (sha : String → Sha512Trunc256Sum) (values : List String) (vm : ClarityVM) : Prop :=
  Reached vm.db.conn ∧ Stored sha values vm.db.conn

theorem sound_next (hsha : Faithful sha values) {s : Session} (h : Sound sha values vm)
    (hs : s.Initialised e vm ∧ ∀ v ∈ s.values, v ∈ values) : Sound sha values (vm.next e sha s) := by
  refine ⟨reached_next h.1 hs.1, ?_⟩
  unfold ClarityVM.next
  cases hsession : vm.session e sha s with
  | error f => exact h.2
  | ok r =>
    cases s with
    | boot ops =>
      obtain ⟨n, hn⟩ := h.1.layered
      exact stored_boot hn h.2 hsha (Session.values_of_op hs.2) hsession
    | pageLoad ops =>
      obtain ⟨n, hn⟩ := h.1.settled hs.1
      exact (keeps_pageLoad hn h.2 hsha (Session.values_of_op hs.2) hsession).2

/-- one page load, or none if it fails -/
theorem keeps_next (hsha : Faithful sha values) (h : Settled n vm.db.conn) (hstored : Stored sha values vm.db.conn)
    (hv : ∀ v ∈ (Session.pageLoad ops).values, v ∈ values) :
    ∃ n', n ≤ n' ∧ Settled n' (vm.next e sha (.pageLoad ops)).db.conn ∧
      Keeps n vm.db.conn (vm.next e sha (.pageLoad ops)).db.conn ∧
      Stored sha values (vm.next e sha (.pageLoad ops)).db.conn := by
  unfold ClarityVM.next
  cases hsession : vm.session e sha (.pageLoad ops) with
  | error f => exact ⟨n, le_refl n, h, Keeps.refl n _, hstored⟩
  | ok r =>
    obtain ⟨n', hle, hn'⟩ := settled_pageLoad h hsession
    exact ⟨n', hle, hn', keeps_pageLoad h hstored hsha (Session.values_of_op hv) hsession⟩

/-- **Any page loads keep everything up to the height they begin at.** -/
theorem keeps_run (hsha : Faithful sha values) (h : Settled n vm.db.conn) (hstored : Stored sha values vm.db.conn)
    {pages : List (List Op)} (hv : ∀ s ∈ pages.map Session.pageLoad, ∀ v ∈ s.values, v ∈ values) :
    ∃ n', n ≤ n' ∧ Settled n' (run (ClarityVM.next e sha) vm (pages.map .pageLoad)).db.conn ∧
      Keeps n vm.db.conn (run (ClarityVM.next e sha) vm (pages.map .pageLoad)).db.conn := by
  induction pages generalizing vm n with
  | nil => exact ⟨n, le_refl n, h, Keeps.refl n _⟩
  | cons ops pages ih =>
    obtain ⟨n₁, hle₁, h₁, hkeeps₁, hstored₁⟩ := keeps_next (e := e) hsha h hstored (hv _ List.mem_cons_self)
    obtain ⟨n₂, hle₂, h₂, hkeeps₂⟩ := ih h₁ hstored₁ fun s hs => hv s (List.mem_cons_of_mem _ hs)
    exact ⟨n₂, hle₁.trans hle₂, h₂, hkeeps₁.trans hkeeps₂ hle₁⟩

/-! ## Snapshots -/

/-- a read-only store at the tip, and a read in it -/
def readAt (e : Engine) (vm : ClarityVM) (tip : StacksBlockId) (key : String) : Except Fault (Option String) := do
  let s ← vm.db.beginReadOnly e (some tip)
  s.getData e key

/-- a tip some row stands under -/
def Committed (vm : ClarityVM) (tip : StacksBlockId) : Prop := ∃ r ∈ vm.db.conn.kvstore.rows, r.chainTip = tip

instance (vm : ClarityVM) (tip : StacksBlockId) : Decidable (Committed vm tip) :=
  inferInstanceAs (Decidable (∃ _ ∈ _, _))

/-- what a read-only store at the tip gives, when the file was that of `vm` and is that of `vm'` now -/
structure Snapshot (e : Engine) (tip : StacksBlockId) (vm vm' : ClarityVM) : Prop where
  reads : ∀ key, ∃ value, readAt e vm tip key = .ok value ∧ readAt e vm' tip key = .ok value
  tips : ∃ s, vm'.db.beginReadOnly e (some tip) = .ok s ∧ ∀ h ≤ s.tipHeight, ∃ bhh,
    s.getBlockAtHeight e h = .ok (some bhh) ∧ ∀ r ∈ vm'.db.conn.kvstore.rows, r.height = h ↔ r.chainTip = bhh

theorem snapshot_freshDb (h : vm.db.conn = freshDb) : Snapshot e BOOT_BLOCK_ID vm vm := by
  have hopen : vm.db.beginReadOnly e (some BOOT_BLOCK_ID) = .ok ⟨BOOT_BLOCK_ID, 0, freshDb⟩ := by
    rw [beginReadOnly_boot, h]
  have hread : ∀ key, readAt e vm BOOT_BLOCK_ID key = .ok none := by
    intro key
    unfold readAt
    rw [hopen, ok_bind]
    exact getCommitted_of_reads (Nat.two_pow_pos 63) ((holds_freshDb (fun _ => 0) []).shows.reads key)
  refine ⟨fun key => ⟨none, hread key, hread key⟩, _, hopen, ?_⟩
  intro m hm
  obtain rfl := Nat.le_zero.1 hm
  refine ⟨BOOT_BLOCK_ID, ?_, ?_⟩
  · unfold ReadOnlyWrbStore.getBlockAtHeight
    rw [getBlockAtHeight_freshDb, expect_ok]
  · intro r hr
    rw [h] at hr
    rw [List.mem_singleton.1 hr]
    exact iff_of_true rfl rfl

/-- a settled file, and what page loads make of it -/
theorem Settled.snapshot (h : Settled n vm.db.conn) {n' : ℕ} (h' : Settled n' vm'.db.conn)
    (hkeeps : Keeps n vm.db.conn vm'.db.conn) (hn : n ≤ n') {m : ℕ} (hm : m ≤ n) :
    Snapshot e (makeWrbChainTip m) vm vm' where
  reads key := by
    have hsmall : m < 2 ^ 63 := hm.trans_lt h.layered.small_of_reached
    obtain ⟨value, hread⟩ := Versions.exists_reads vm.db.conn.value (h.layered.onePer h.noBoot) m key
    refine ⟨value, ?_, ?_⟩
    · unfold readAt
      rw [h.beginReadOnly e rfl hm, ok_bind]
      exact getCommitted_of_reads hsmall hread
    · unfold readAt
      rw [h'.beginReadOnly e rfl (hm.trans hn), ok_bind]
      exact getCommitted_of_reads hsmall (hkeeps.reads hm hread)
  tips := by
    refine ⟨_, h'.beginReadOnly e rfl (hm.trans hn), ?_⟩
    intro i hi
    have hi' : i ≤ n' := hi.trans (hm.trans hn)
    refine ⟨makeWrbChainTip i, ?_, ?_⟩
    · unfold ReadOnlyWrbStore.getBlockAtHeight
      rw [h'.layered.getBlockAtHeight e h'.noBoot hi' hi, expect_ok]
    · intro r hr
      have htip := h'.layered.tip_of_ne hr (h'.noBoot r hr)
      constructor
      · intro heq
        rw [htip, heq]
      · intro heq
        exact h'.layered.height_eq hr (hi'.trans_lt h'.layered.small_of_reached) heq

/-- **Reads at a committed tip do not change.** After any sessions, as long as page loads begin on initialised files, a
read-only store at a committed tip reads the same whatever page loads come after, and finds one tip for each height. -/
theorem snapshot_reads (hnew : ClarityVM.new e none = .ok vm) {before : List Session} {pages : List (List Op)}
    (hsha : Faithful sha ((before ++ pages.map Session.pageLoad).flatMap Session.values))
    (hinit : Always (ClarityVM.next e sha) (fun vm s => s.Initialised e vm) vm (before ++ pages.map Session.pageLoad))
    {tip : StacksBlockId} (htip : Committed (run (ClarityVM.next e sha) vm before) tip) :
    Snapshot e tip (run (ClarityVM.next e sha) vm before)
      (run (ClarityVM.next e sha) vm (before ++ pages.map Session.pageLoad)) := by
  have hvalues : ∀ s ∈ before ++ pages.map Session.pageLoad, ∀ v ∈ s.values,
      v ∈ (before ++ pages.map Session.pageLoad).flatMap Session.values :=
    fun s hs v hv => List.mem_flatMap.2 ⟨s, hs, hv⟩
  obtain ⟨hbefore, hpages⟩ := always_append.1 hinit
  have hstart : Sound sha ((before ++ pages.map Session.pageLoad).flatMap Session.values) vm := by
    unfold Sound
    rw [conn_of_new hnew]
    exact ⟨Or.inl rfl, Stored.freshDb _ _⟩
  obtain ⟨hreached, hstored⟩ := run_inv_of_always (fun vm s => sound_next hsha) hstart
    (hbefore.and fun s hs => hvalues s (List.mem_append_left _ hs))
  rw [run_append]
  generalize run (ClarityVM.next e sha) vm before = vm₁ at hreached hstored htip hpages ⊢
  rcases hreached with hfresh | ⟨n, hn⟩
  · -- nothing is committed yet, and no page load can begin
    have hboot : tip = BOOT_BLOCK_ID := by
      obtain ⟨r, hr, rfl⟩ := htip
      rw [hfresh] at hr
      rw [List.mem_singleton.1 hr]
      rfl
    cases pages with
    | nil =>
      rw [hboot]
      exact snapshot_freshDb hfresh
    | cons ops pages =>
      have hfirst : getWrbChainTip e vm₁.db.conn ≠ BOOT_BLOCK_ID := hpages.1
      rw [hfresh] at hfirst
      exact absurd getWrbChainTip_freshDb hfirst
  · obtain ⟨r, hr, rfl⟩ := htip
    rw [hn.layered.tip_of_ne hr (hn.noBoot r hr)]
    obtain ⟨n', hle, hn', hkeeps⟩ := keeps_run (e := e) hsha hn hstored fun s hs =>
      hvalues s (List.mem_append_right _ hs)
    exact hn.snapshot hn' hkeeps hle (hn.layered.le r hr)

theorem snapshot_reads_install :
    Snapshot .inOrder (makeWrbChainTip 1)
      (run (ClarityVM.next .inOrder exampleSha) exampleVm [.boot [.put [("a", "1")]], .pageLoad [.put [("a", "2")]]])
      (run (ClarityVM.next .inOrder exampleSha) exampleVm
        ([.boot [.put [("a", "1")]], .pageLoad [.put [("a", "2")]]] ++
          [[.put [("a", "3")]], [.get "a", .put [("b", "1")]]].map Session.pageLoad)) :=
  snapshot_reads new_none (by decide +kernel) (by decide +kernel) (by decide +kernel)

/-- the file after sessions that each meet their condition holds the map that the sessions make -/
theorem holds_run (hsha : Faithful sha values) {m : Plain} (h : Holds sha values n vm.db.conn m)
    {sessions : List Session} (hmeets : Always (ClarityVM.next e sha) (fun vm s => s.Meets e vm) vm sessions)
    (hv : ∀ s ∈ sessions, ∀ v ∈ s.values, v ∈ values) :
    ∃ n', Holds sha values n' (run (ClarityVM.next e sha) vm sessions).db.conn
      (runModel Plain.session m sessions).2 := by
  induction sessions generalizing vm n m with
  | nil => exact ⟨n, h⟩
  | cons s sessions ih =>
    obtain ⟨vm', n', hsession, hholds⟩ := session_refines hsha h hmeets.1 (hv s List.mem_cons_self)
    have hnext : vm.next e sha s = vm' := by rw [ClarityVM.next, hsession]
    rw [run_cons, hnext]
    exact ih hholds (hnext ▸ hmeets.2) fun s' hs' => hv s' (List.mem_cons_of_mem s hs')

/-- **What a snapshot reads**: at the tip that sessions ended at, the map that they made, also after any page loads -/
theorem reads_plain (hnew : ClarityVM.new e none = .ok vm) {sessions : List Session} {pages : List (List Op)}
    (hsha : Faithful sha ((sessions ++ pages.map Session.pageLoad).flatMap Session.values))
    (hmeets : Always (ClarityVM.next e sha) (fun vm s => s.Meets e vm) vm sessions)
    (hinit : getWrbChainTip e (run (ClarityVM.next e sha) vm sessions).db.conn ≠ BOOT_BLOCK_ID) (key : String) :
    readAt e (run (ClarityVM.next e sha) vm (sessions ++ pages.map Session.pageLoad))
        (getWrbChainTip e (run (ClarityVM.next e sha) vm sessions).db.conn) key =
      .ok ((runModel Plain.session Plain.empty sessions).2 key) := by
  have hvalues : ∀ s ∈ sessions ++ pages.map Session.pageLoad, ∀ v ∈ s.values,
      v ∈ (sessions ++ pages.map Session.pageLoad).flatMap Session.values :=
    fun s hs v hv => List.mem_flatMap.2 ⟨s, hs, hv⟩
  have hstart : Holds sha ((sessions ++ pages.map Session.pageLoad).flatMap Session.values) 0 vm.db.conn
      Plain.empty := by
    rw [conn_of_new hnew]
    exact holds_freshDb _ _
  obtain ⟨n, hholds⟩ := holds_run hsha hstart hmeets fun s hs => hvalues s (List.mem_append_left _ hs)
  have hsettled := hholds.settled hinit
  obtain ⟨n', hle, hsettled', hkeeps⟩ := keeps_run (e := e) hsha hsettled hholds.shows.stored
    fun s hs => hvalues s (List.mem_append_right _ hs)
  rw [run_append, readAt, hsettled.getWrbChainTip e, hsettled'.beginReadOnly e rfl hle, ok_bind]
  exact getCommitted_of_reads hsettled.layered.small_of_reached (hkeeps.reads (le_refl n) (hholds.shows.reads key))

/-- **A page load on a file without an app** writes at height 0. It changes what the boot tip showed, and the tip it
commits cannot be opened. -/
theorem uninitialised_page_load :
    ClarityVM.new .inOrder none = .ok exampleVm ∧
      Committed exampleVm BOOT_BLOCK_ID ∧
      Committed (run (ClarityVM.next .inOrder exampleSha) exampleVm [.pageLoad [.put [("a", "1")]]])
        (makeWrbChainTip 1) ∧
      ¬ Snapshot .inOrder BOOT_BLOCK_ID exampleVm
        (run (ClarityVM.next .inOrder exampleSha) exampleVm ([] ++ [[.put [("a", "1")]]].map Session.pageLoad)) ∧
      ¬ Snapshot .inOrder (makeWrbChainTip 1)
        (run (ClarityVM.next .inOrder exampleSha) exampleVm [.pageLoad [.put [("a", "1")]]])
        (run (ClarityVM.next .inOrder exampleSha) exampleVm
          ([.pageLoad [.put [("a", "1")]]] ++ ([] : List (List Op)).map Session.pageLoad)) := by
  refine ⟨new_none, by decide +kernel, by decide +kernel, ?_, ?_⟩
  · intro h
    obtain ⟨value, hbefore, hafter⟩ := h.reads "a"
    have hne : readAt .inOrder exampleVm BOOT_BLOCK_ID "a" ≠ readAt .inOrder
        (run (ClarityVM.next .inOrder exampleSha) exampleVm ([] ++ [[.put [("a", "1")]]].map Session.pageLoad))
        BOOT_BLOCK_ID "a" := by decide +kernel
    exact hne (hbefore.trans hafter.symm)
  · intro h
    obtain ⟨value, hbefore, -⟩ := h.reads "a"
    have hpanic : readAt .inOrder (run (ClarityVM.next .inOrder exampleSha) exampleVm [.pageLoad [.put [("a", "1")]]])
        (makeWrbChainTip 1) "a" = .error (.panic (.heightZero (makeWrbChainTip 1) 0)) := by decide +kernel
    rw [hpanic] at hbefore
    cases hbefore

end Wrb.Vm
