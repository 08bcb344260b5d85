/-
Two clients of one superblock slot, interleaved call by call.

`allocate_slots` and `delete_slots` read the superblock, change it and put it back. The version of a chunk is not tied
to the version that was read: the upload lists the slot again, and where a newer version is in the way it sends the same
bytes with the version after it. So a put may overwrite a superblock that its client never saw.

Results:
- `NotStale`: the put that a client is about to make, if it is accepted, overwrites the row that the client read;
- `Uploads`, `uploads_of_ret`: the history of a client whose operation succeeded;
- `no_lost_update`: in any run whose steps are all `NotStale`, once both clients succeeded, the stored superblock is the
  first one with both operations applied in the order of their puts, and no slot is listed for two apps across what the
  clients were told;
- `allocations_collide`: two allocations, interleaved between the reads and the puts, both succeed with the same slot,
  and the first one's app is gone.
-/
import Wrb.Storage.Reopen

namespace Wrb.Storage

open Wrb.Programs

/-- the two clients -/
inductive Client where
  | first
  | second
deriving DecidableEq

namespace Client

def other : Client → Client
  | first => second
  | second => first

theorem eq_or_eq_other (i j : Client) : j = i ∨ j = i.other := by cases i <;> cases j <;> simp [other]

end Client

namespace Wrbpod

variable {X : Ext} {σ : Type}

abbrev ClientPool (σ : Type) := Pool Client σ Call Answer (Except Error Bool × Wrbpod)

/-- two clients about to run their operations -/
def start (X : Ext) (attempts : ℕ) (op : Client → WrbpodSuperblock.Op) (w : Client → Wrbpod)
    (s : σ) : ClientPool σ where
  server := s
  clients i := (runOp X attempts (op i)).prog (w i)
  history _ := []

/-- the chunk that a program puts next -/
def nextPut {α : Type} : Prog Call Answer α → Option StackerDBChunkData
  | .call (.putChunk c) _ => some c
  | _ => none

/-- the state that a client's superblock was read in: where its data was served, or where the slot was listed
as empty -/
def readState (h : List (σ × Ev)) : Option σ :=
  ((h.find? fun e => isGet e.2.1).or (h.find? fun e => isList e.2)).map Prod.fst

def rowAt (R : HonestReplica X σ) (slot : UInt32) (s : σ) : Option Row := (R.view s)[slot.toNat]?

/-- the put that client `i` is about to make, if it is accepted, overwrites the row that the client read -/
def NotStale (R : HonestReplica X σ) (slot : UInt32) (p : ClientPool σ) (i : Client) : Prop :=
  ∀ c ∈ nextPut (p.clients i), accepted ⟨.putChunk c, (R.serve (.putChunk c) p.server).1⟩ = true →
    (readState (p.history i)).bind (rowAt R slot) = rowAt R slot p.server

instance (R : HonestReplica X σ) (slot : UInt32) (p : ClientPool σ) (i : Client) : Decidable (NotStale R slot p i) :=
  inferInstanceAs (Decidable (∀ c ∈ nextPut (p.clients i), _ → _))

/-! ## The history of a successful client -/

/-- the history of a client whose operation succeeded: it read `sb` in some state, and its last call, the only accepted
put, is `c`, which carries what the operation makes of `sb` -/
structure Uploads (R : HonestReplica X σ) (op : WrbpodSuperblock.Op) (w w' : Wrbpod) (h : List (σ × Ev))
    (sb : WrbpodSuperblock) (c : StackerDBChunkData) : Prop where
  applies : op.apply sb = (true, w'.superblock)
  slotId : c.slotId = w.superblockSlotId
  data : c.data = w'.superblock.consensusSerialize X
  history : ∃ h₁ s ack, h = h₁ ++ [(s, ⟨.putChunk c, .ok ack⟩)] ∧ ack.accepted = true ∧
    (∀ x ∈ h₁, accepted x.2 = false) ∧
    ∃ s', readState h₁ = some s' ∧ HonestReplica.ReadRow X w (R.known w) (R.view s') sb

/-- a superblock read along a history of calls was read in its `readState` -/
theorem readState_of_read {R : HonestReplica X σ} {w : Wrbpod} {signers : List StacksAddress} {sb : WrbpodSuperblock}
    {h : List (σ × Ev)} {tr rest : List Ev} (hh : h.map Prod.snd = tr ++ rest) (hrest : ∀ e ∈ rest, isGet e.1 = false)
    (hanswered : ∀ x ∈ h, (R.serve x.2.1 x.1).1 = x.2.2) (hread : Read X w signers tr sb) :
    ∃ s', readState h = some s' ∧ HonestReplica.ReadRow X w (R.known w) (R.view s') sb := by
  have hknown : ∀ t, SignersTrace w t signers → (∀ e ∈ t, e ∈ tr) → signers = R.known w := by
    intro t ht hsub
    refine HonestReplica.known_of_trace ht fun answer ha => ?_
    have hmem : (⟨.getSigners, .ok answer⟩ : Ev) ∈ h.map Prod.snd := by
      rw [hh]
      exact List.mem_append_left _ (hsub _ ha)
    obtain ⟨⟨s', e⟩, hx, rfl⟩ := List.mem_map.1 hmem
    exact R.getSigners s' answer (hanswered _ hx)
  have hsigners : ∀ t, SignersTrace w t signers → ∀ e ∈ t, isGet e.1 = false := by
    rintro t (⟨-, rfl⟩ | ⟨-, rfl⟩) <;> simp [isGet]
  cases hread with
  | fresh mds md t sb hmd hempty hmake ht =>
    obtain rfl := hknown t ht fun e he => List.mem_cons_of_mem _ he
    have hnone : h.find? (fun e => isGet e.2.1) = none := by
      refine List.find?_eq_none.2 fun x hx => ?_
      have hmem : x.2 ∈ ⟨.listChunks, .ok mds⟩ :: t ++ rest := hh ▸ List.mem_map_of_mem hx
      rw [List.cons_append] at hmem
      rcases List.mem_cons.1 hmem with heq | hmem
      · rw [heq]; simp [isGet]
      rcases List.mem_append.1 hmem with hmem | hmem
      · simp [hsigners t ht _ hmem]
      · simp [hrest _ hmem]
    obtain ⟨⟨s', e⟩, h', rfl, he, -⟩ := List.map_eq_cons_iff.1 hh
    obtain rfl : e = ⟨.listChunks, .ok mds⟩ := he
    refine ⟨s', by simp [readState, hnone, isList], ?_⟩
    obtain rfl := R.listChunks s' mds (hanswered _ List.mem_cons_self)
    rw [List.getElem?_map] at hmd
    obtain ⟨row, hrow, rfl⟩ := Option.map_eq_some_iff.1 hmd
    exact ⟨row, hrow, Or.inl ⟨hempty, hmake⟩⟩
  | stored mds md t signer chunks data sb hmd hempty hsigner hverify hchunk hhash hdecode ht =>
    obtain rfl := hknown t ht fun e he => List.mem_cons_of_mem _ (List.mem_append_left _ he)
    rw [List.cons_append, List.append_assoc, List.singleton_append] at hh
    obtain ⟨x, h', rfl, hx, hh'⟩ := List.map_eq_cons_iff.1 hh
    obtain ⟨h₁, h₂, rfl, ht₁, hh₂⟩ := List.map_eq_append_iff.1 hh'
    obtain ⟨⟨s', e⟩, h₃, rfl, he, -⟩ := List.map_eq_cons_iff.1 hh₂
    obtain rfl : e = ⟨.getLatestChunks [w.superblockSlotId], .ok chunks⟩ := he
    have hnone : h₁.find? (fun e => isGet e.2.1) = none := by
      refine List.find?_eq_none.2 fun y hy => ?_
      simp [hsigners t ht y.2 (ht₁ ▸ List.mem_map_of_mem hy)]
    have hfind : (x :: (h₁ ++ (s', ⟨.getLatestChunks [w.superblockSlotId], .ok chunks⟩) :: h₃)).find?
        (fun e => isGet e.2.1) = some (s', ⟨.getLatestChunks [w.superblockSlotId], .ok chunks⟩) := by
      rw [List.find?_cons_of_neg (by simp [hx, isGet]), List.find?_append, hnone]
      rfl
    refine ⟨s', by rw [readState, hfind]; rfl, ?_⟩
    have ha := hanswered _ (List.mem_cons_of_mem _ (List.mem_append_right _ List.mem_cons_self))
    obtain rfl := R.getLatestChunks _ s' chunks ha
    exact HonestReplica.ReadRow.of_chunks (R.known w) hchunk hdecode

theorem uploads_of_ret {R : HonestReplica X σ} {attempts : ℕ} {op : Client → WrbpodSuperblock.Op} {w : Client → Wrbpod}
    {s : σ} {schedule : List Client} {i : Client} {w' : Wrbpod}
    (hret : (Pool.run R.serve (start X attempts op w s) schedule).clients i = .ret (.ok true, w')) :
    ∃ sb c, Uploads R (op i) (w i) w' ((Pool.run R.serve (start X attempts op w s) schedule).history i) sb c := by
  obtain ⟨hy, hanswered⟩ := Pool.run_history rfl hret
  generalize (Pool.run R.serve (start X attempts op w s) schedule).history i = h at hy hanswered
  generalize htr : h.map Prod.snd = tr at hy
  have hupdate := runOp_update hy
  generalize hr : (Except.ok true : Except Error Bool) = r at hupdate
  cases hupdate with
  | failed tr e w' hsame hputs => cases hr
  | refused signers sb tr hread hop => cases hr
  | uploaded signers sb tr a puts r hread hop hputs =>
    obtain rfl : r = .ok () := by
      cases r with
      | ok u => rfl
      | error e => cases hr
    obtain ⟨init, c, ack, rfl, hack, hinit⟩ := hputs.success rfl
    obtain ⟨c', a', hevent, hslot, hdata, -⟩ := hputs.attempts ⟨.putChunk c, .ok ack⟩ (by simp)
    obtain rfl : c = c' := Call.putChunk.inj (congrArg Sigma.fst hevent)
    refine ⟨sb, c, Prod.ext hop rfl, hslot, hdata, ?_⟩
    rw [← List.cons_append, ← List.append_assoc] at htr
    obtain ⟨h₁, h₂, rfl, htr₁, htr₂⟩ := List.map_eq_append_iff.1 htr
    obtain ⟨⟨s', e⟩, h₃, rfl, he, hnil⟩ := List.map_eq_cons_iff.1 htr₂
    obtain rfl : e = ⟨.putChunk c, .ok ack⟩ := he
    obtain rfl := List.map_eq_nil_iff.1 hnil
    refine ⟨h₁, s', ack, rfl, hack, fun x hx => ?_, ?_⟩
    · have hmem : x.2 ∈ tr ++ ⟨.listChunks, a⟩ :: init := htr₁ ▸ List.mem_map_of_mem hx
      rcases List.mem_append.1 hmem with hmem | hmem
      · exact HonestReplica.Read.accepted_eq hread _ hmem
      rcases List.mem_cons.1 hmem with heq | hmem
      · rw [heq]; rfl
      · exact hinit _ hmem
    · have hrest : ∀ e ∈ (⟨.listChunks, a⟩ :: init : List Ev), isGet e.1 = false := by
        intro e he
        rcases List.mem_cons.1 he with rfl | he
        · rfl
        · obtain ⟨c', a', rfl, -⟩ := hputs.attempts e (List.mem_append_left _ he)
          rfl
      obtain ⟨s'', hstate, hrow⟩ := readState_of_read htr₁ hrest
        (fun x hx => hanswered x (List.mem_append_left _ hx)) hread
      exact ⟨s'', hstate, hrow⟩

/-! ## No lost update -/

/-- a list is split at its first element with a property in one way only -/
theorem eq_of_split {α : Type} {p : α → Bool} {a b c d : List α} {x y : α} (h : a ++ x :: b = c ++ y :: d)
    (ha : ∀ e ∈ a, p e = false) (hx : p x = true) (hc : ∀ e ∈ c, p e = false) (hy : p y = true) : a = c := by
  have hsplit : ∀ {a b : List α} {x : α}, (∀ e ∈ a, p e = false) → p x = true →
      (a ++ x :: b).takeWhile (fun e => !p e) = a := by
    intro a b x ha hx
    rw [List.takeWhile_append_of_pos (by simpa using ha), List.takeWhile_cons_of_neg (by simp [hx]), List.append_nil]
  rw [← hsplit ha hx, h, hsplit hc hy]

theorem two_of_filter {β : Type} {l : List (Client × β)} {x y : Client × β}
    (hx : l.filter (fun e => decide (e.1 = .first)) = [x]) (hy : l.filter (fun e => decide (e.1 = .second)) = [y]) :
    l = [x, y] ∨ l = [y, x] := by
  have hall : ∀ {l : List (Client × β)} {i : Client}, l.filter (fun e => decide (e.1 = i)) = [] →
      l.filter (fun e => decide (e.1 = i.other)) = l := by
    intro l i h
    refine List.filter_eq_self.2 fun e he => ?_
    have hne : e.1 ≠ i := by simpa using List.filter_eq_nil_iff.1 h e he
    simpa [hne] using i.eq_or_eq_other e.1
  cases l with
  | nil => cases hx
  | cons e l =>
    obtain ⟨i, b⟩ := e
    cases i with
    | first =>
      rw [List.filter_cons_of_pos (by simp)] at hx
      rw [List.filter_cons_of_neg (by simp)] at hy
      obtain ⟨rfl, hnil⟩ := List.cons.inj hx
      exact Or.inl (by rw [← hy]; exact congrArg (List.cons _) (hall hnil).symm)
    | second =>
      rw [List.filter_cons_of_neg (by simp)] at hx
      rw [List.filter_cons_of_pos (by simp)] at hy
      obtain ⟨rfl, hnil⟩ := List.cons.inj hy
      exact Or.inr (by rw [← hx]; exact congrArg (List.cons _) (hall hnil).symm)

section Run

variable {R : HonestReplica X σ} {slot : UInt32} {attempts : ℕ} {op : Client → WrbpodSuperblock.Op}
  {w : Client → Wrbpod} {s : σ} {schedule : List Client}

theorem history_start (i : Client) : (Pool.run R.serve (start X attempts op w s) schedule).history i =
    ((Pool.log R.serve (start X attempts op w s) schedule).filter fun x => decide (x.1 = i)).map Prod.snd := by
  rw [Pool.history_log]
  rfl

/-- the one accepted put of a successful client, in the log -/
theorem Uploads.puts {i : Client} {w' : Wrbpod} {sb : WrbpodSuperblock} {c : StackerDBChunkData}
    (h : Uploads R (op i) (w i) w' ((Pool.run R.serve (start X attempts op w s) schedule).history i) sb c) :
    ∃ s' ack, ack.accepted = true ∧
      ((Pool.log R.serve (start X attempts op w s) schedule).filter fun x => accepted x.2.2).filter
        (fun x => decide (x.1 = i)) = [(i, s', ⟨.putChunk c, .ok ack⟩)] := by
  obtain ⟨h₁, s', ack, hh, hack, hnone, -⟩ := h.history
  refine ⟨s', ack, hack, ?_⟩
  rw [history_start] at hh
  have hfilter := congrArg (List.filter fun x : σ × Ev => accepted x.2) hh
  have hnil : h₁.filter (fun x => accepted x.2) = [] := List.filter_eq_nil_iff.2 fun x hx => by simp [hnone x hx]
  rw [List.filter_append, hnil, List.nil_append, List.filter_cons_of_pos (by simpa [accepted] using hack),
    List.filter_nil, List.filter_map] at hfilter
  obtain ⟨z, hz, hz'⟩ := List.map_eq_singleton_iff.1 hfilter
  rw [List.filter_comm] at hz
  have hi : z.1 = i := by
    have hmem : z ∈ List.filter (fun x : Client × σ × Ev => decide (x.1 = i)) _ := hz ▸ List.mem_singleton.2 rfl
    simpa using (List.mem_filter.1 hmem).2
  obtain ⟨j, x⟩ := z
  obtain rfl : j = i := hi
  obtain rfl : x = (s', ⟨.putChunk c, .ok ack⟩) := hz'
  exact hz

/-- at the put of a successful client, in a run of `NotStale` steps, the rows are what the puts before it made of the
first ones, and they hold the superblock that the client read -/
theorem Uploads.readRow {i : Client} {w' : Wrbpod} {sb : WrbpodSuperblock} {c : StackerDBChunkData} {s' : σ}
    {ack : StackerDBChunkAckData} {l₁ l₂ : List (Client × σ × Ev)}
    (h : Uploads R (op i) (w i) w' ((Pool.run R.serve (start X attempts op w s) schedule).history i) sb c)
    (hslot : (w i).superblockSlotId = slot)
    (hsteps : Runs.Always (Pool.step R.serve) (NotStale R slot) (start X attempts op w s) schedule)
    (hlog : Pool.log R.serve (start X attempts op w s) schedule = l₁ ++ (i, s', ⟨.putChunk c, .ok ack⟩) :: l₂)
    (hack : ack.accepted = true) (hl₁ : ∀ x ∈ l₁, x.1 = i → accepted x.2.2 = false) :
    R.view s' = (HonestReplica.storedChunks (l₁.map fun x => x.2.2)).foldl (storeRow X) (R.view s) ∧
    HonestReplica.ReadRow X (w i) (R.known (w i)) (R.view s') sb := by
  obtain ⟨before, after, k, rfl, hbefore, rfl, hclient, hanswer⟩ := Pool.log_split hlog
  have hview := HonestReplica.view_eq_foldl (R := R) (Pool.log_served (start X attempts op w s) before)
  rw [hbefore] at hview
  refine ⟨hview, ?_⟩
  obtain ⟨h₁, s'', ack', hh, hack', hnone, s₀, hstate, hread⟩ := h.history
  -- what the client has done before this put is all it did before its accepted put
  have hhistory : (Pool.run R.serve (start X attempts op w s) before).history i = h₁ := by
    rw [history_start, hbefore]
    rw [history_start, hlog, List.filter_append, List.map_append, List.filter_cons_of_pos (by simp),
      List.map_cons] at hh
    refine eq_of_split (p := fun x : σ × Ev => accepted x.2) hh (fun x hx => ?_) (by simpa [accepted] using hack) hnone
      (by simpa [accepted] using hack')
    obtain ⟨y, hy, rfl⟩ := List.mem_map.1 hx
    obtain ⟨hy, hi⟩ := List.mem_filter.1 hy
    exact hl₁ y hy (by simpa using hi)
  have hnot : NotStale R slot (Pool.run R.serve (start X attempts op w s) before) i := hsteps.at
  have hrow := hnot c (by rw [hclient]; rfl) (by
    have ha : (R.serve (.putChunk c) (Pool.run R.serve (start X attempts op w s) before).server).1 = .ok ack := hanswer
    rw [ha]
    exact hack)
  rw [hhistory, hstate] at hrow
  have hindex : (w i).superblockSlotIndex = slot.toNat := by rw [superblockSlotIndex, hslot]
  exact hread.congr (by rw [hindex]; exact hrow)

/-- the operations took effect one after the other: `told` is what the first one made of the superblock stored at the
start, `told'` what the second one made of that, and `told'` is stored now -/
structure InOrder (R : HonestReplica X σ) (slot : UInt32) (w : Wrbpod) (s s' : σ) (op op' : WrbpodSuperblock.Op)
    (told told' : WrbpodSuperblock) : Prop where
  applied : ∃ sb, HonestReplica.ReadRow X w (R.known w) (R.view s) sb ∧ op.apply sb = (true, told)
  applied' : op'.apply told = (true, told')
  stored : ∃ row, rowAt R slot s' = some row ∧ row.data = told'.consensusSerialize X

/-- a client whose row another client's put wrote has read the superblock of that client -/
theorem Uploads.eq_of_readRow {i : Client} {wi wj : Wrbpod} {sbi sbj : WrbpodSuperblock} {c : StackerDBChunkData}
    {h : List (σ × Ev)} {known : List StacksAddress} {rows : List Row} (hC : CodecLaws X) (hS : SignLaws X)
    (hi : Uploads R (op i) (w i) wi h sbi c) (hfits : WrbpodSuperblock.Fits ((op i).apply sbi).2)
    (hrow : rows[wj.superblockSlotIndex]? = some (rowOf X c)) (hread : HonestReplica.ReadRow X wj known rows sbj) :
    sbj = wi.superblock := by
  obtain ⟨row, hrow', hcases⟩ := hread
  obtain rfl := Option.some.inj (hrow.symm.trans hrow')
  have hempty : (rowOf X c).md.isEmpty = false := hS.isEmpty_eq _ _ _ _
  rcases hcases with ⟨hnew, -⟩ | ⟨-, -, hdecode⟩
  · rw [hempty] at hnew
    cases hnew
  · rw [hi.applies] at hfits
    have hdecode' : WrbpodSuperblock.fromBytes X c.data = .ok sbj := hdecode
    rw [hi.data] at hdecode'
    exact WrbpodSuperblock.eq_of_fromBytes hC hfits hdecode'

/-- two successful clients whose puts came in this order -/
theorem inOrder_of_log (hC : CodecLaws X) (hS : SignLaws X) (hslot : ∀ i, (w i).superblockSlotId = slot)
    (hfits : ∀ i sb, HonestReplica.ReadRow X (w i) (R.known (w i)) (R.view s) sb →
      WrbpodSuperblock.Fits ((op i).apply sb).2)
    (hsteps : Runs.Always (Pool.step R.serve) (NotStale R slot) (start X attempts op w s) schedule) {i j : Client}
    (hij : i ≠ j) {wi wj : Wrbpod} {sbi sbj : WrbpodSuperblock} {ci cj : StackerDBChunkData} {si sj : σ}
    {acki ackj : StackerDBChunkAckData}
    (hi : Uploads R (op i) (w i) wi ((Pool.run R.serve (start X attempts op w s) schedule).history i) sbi ci)
    (hj : Uploads R (op j) (w j) wj ((Pool.run R.serve (start X attempts op w s) schedule).history j) sbj cj)
    (hacki : acki.accepted = true) (hackj : ackj.accepted = true)
    (hlog : ((Pool.log R.serve (start X attempts op w s) schedule).filter fun x => accepted x.2.2) =
      [(i, si, ⟨.putChunk ci, .ok acki⟩), (j, sj, ⟨.putChunk cj, .ok ackj⟩)]) :
    InOrder R slot (w i) s (Pool.run R.serve (start X attempts op w s) schedule).server (op i) (op j) wi.superblock
      wj.superblock := by
  obtain ⟨l₁, l₂, hl, hl₁, -, hrest⟩ := List.filter_eq_cons_iff.1 hlog
  obtain ⟨l₂, l₃, rfl, hl₂, -, hnil⟩ := List.filter_eq_cons_iff.1 hrest
  have hl₁' : ∀ x ∈ l₁, accepted x.2.2 = false := fun x hx => by simpa using hl₁ x hx
  have hl₂' : ∀ x ∈ l₂, accepted x.2.2 = false := fun x hx => by simpa using hl₂ x hx
  have hl₃' : ∀ x ∈ l₃, accepted x.2.2 = false := fun x hx => by simpa using List.filter_eq_nil_iff.1 hnil x hx
  -- no chunk is stored by the calls around the two puts
  have hno : ∀ l : List (Client × σ × Ev), (∀ x ∈ l, accepted x.2.2 = false) →
      HonestReplica.storedChunks (l.map fun x => x.2.2) = [] := fun l hl => HonestReplica.storedChunks_eq_nil (by
    intro e he
    obtain ⟨x, hx, rfl⟩ := List.mem_map.1 he
    exact hl x hx)
  obtain ⟨hview, hread⟩ := hi.readRow (hslot i) hsteps hl hacki fun x hx _ => hl₁' x hx
  rw [hno l₁ hl₁', List.foldl_nil] at hview
  have hl' : Pool.log R.serve (start X attempts op w s) schedule =
      (l₁ ++ (i, si, ⟨.putChunk ci, .ok acki⟩) :: l₂) ++ (j, sj, ⟨.putChunk cj, .ok ackj⟩) :: l₃ := by
    rw [hl]
    simp
  obtain ⟨hview', hread'⟩ := hj.readRow (hslot j) hsteps hl' hackj fun x hx hx' => by
    rcases List.mem_append.1 hx with hx | hx
    · exact hl₁' x hx
    rcases List.mem_cons.1 hx with rfl | hx
    · exact absurd hx' hij
    · exact hl₂' x hx
  have hfinal := HonestReplica.view_eq_foldl (R := R) (Pool.log_served (start X attempts op w s) schedule)
  rw [hl'] at hfinal
  simp only [List.map_append, List.map_cons, HonestReplica.storedChunks_append, HonestReplica.storedChunks_cons hacki,
    HonestReplica.storedChunks_cons hackj, hno l₁ hl₁', hno l₂ hl₂', hno l₃ hl₃', List.nil_append,
    List.foldl_cons, List.foldl_nil, List.cons_append] at hview' hfinal
  rw [hview] at hread
  rw [hview'] at hread'
  have hci : ci.slotId = slot := hi.slotId.trans (hslot i)
  have hcj : cj.slotId = slot := hj.slotId.trans (hslot j)
  -- the first put's row, and what the second client read from it
  obtain ⟨row, hrow, -⟩ := id hread
  have hrow' : (storeRow X (R.view s) ci)[slot.toNat]? = some (rowOf X ci) := by
    rw [superblockSlotIndex, hslot, ← hci] at hrow
    rw [← hci]
    exact storeRow_self hrow
  have hindex : (w j).superblockSlotIndex = slot.toNat := by rw [superblockSlotIndex, hslot]
  have hsb : sbj = wi.superblock := hi.eq_of_readRow hC hS (hfits i sbi hread) (by rw [hindex]; exact hrow') hread'
  subst hsb
  refine ⟨⟨sbi, hread, hi.applies⟩, hj.applies, rowOf X cj, ?_, hj.data⟩
  rw [← hcj] at hrow'
  rw [rowAt, hfinal, ← hcj]
  exact storeRow_self hrow'

/-- **No lost update.** In any run whose steps are all `NotStale`: once both clients succeeded, one operation took
effect after the other on the stored superblock, and no slot is listed for two apps across what the clients
were told. -/
theorem no_lost_update (hC : CodecLaws X) (hS : SignLaws X) (R : HonestReplica X σ) (slot : UInt32) (attempts : ℕ)
    (op : Client → WrbpodSuperblock.Op) (w : Client → Wrbpod) (s : σ) (hslot : ∀ i, (w i).superblockSlotId = slot)
    (hstored : ∀ row sb, rowAt R slot s = some row → row.md.isEmpty = false →
      WrbpodSuperblock.fromBytes X row.data = .ok sb → ∃ ids, ids.Nodup ∧ WrbpodSuperblock.Owned ids sb)
    (hfits : ∀ i sb, HonestReplica.ReadRow X (w i) (R.known (w i)) (R.view s) sb →
      WrbpodSuperblock.Fits ((op i).apply sb).2)
    (schedule : List Client)
    (hsteps : Runs.Always (Pool.step R.serve) (NotStale R slot) (start X attempts op w s) schedule)
    (w' : Client → Wrbpod)
    (hret : ∀ i, (Pool.run R.serve (start X attempts op w s) schedule).clients i = .ret (.ok true, w' i)) :
    (∃ i, InOrder R slot (w i) s (Pool.run R.serve (start X attempts op w s) schedule).server (op i) (op i.other)
      (w' i).superblock (w' i.other).superblock) ∧
    ∀ a b id, (∃ i, (w' i).superblock.Lists a id) → (∃ i, (w' i).superblock.Lists b id) → a = b := by
  have horder : ∃ i, InOrder R slot (w i) s (Pool.run R.serve (start X attempts op w s) schedule).server (op i)
      (op i.other) (w' i).superblock (w' i.other).superblock := by
    obtain ⟨sb₁, c₁, h₁⟩ := uploads_of_ret (hret .first)
    obtain ⟨sb₂, c₂, h₂⟩ := uploads_of_ret (hret .second)
    obtain ⟨s₁, ack₁, hack₁, hlog₁⟩ := h₁.puts
    obtain ⟨s₂, ack₂, hack₂, hlog₂⟩ := h₂.puts
    rcases two_of_filter hlog₁ hlog₂ with hlog | hlog
    · exact ⟨.first, inOrder_of_log hC hS hslot hfits hsteps (by decide) h₁ h₂ hack₁ hack₂ hlog⟩
    · exact ⟨.second, inOrder_of_log hC hS hslot hfits hsteps (by decide) h₂ h₁ hack₂ hack₁ hlog⟩
  refine ⟨horder, ?_⟩
  obtain ⟨i, ⟨sb, hread, happlied⟩, happlied', -⟩ := horder
  obtain ⟨ids, hids, howned⟩ : ∃ ids, ids.Nodup ∧ WrbpodSuperblock.Owned ids sb := by
    obtain ⟨row, hrow, ⟨-, hmake⟩ | ⟨hempty, -, hdecode⟩⟩ := hread
    · obtain ⟨-, ids, rfl, hids, -⟩ := makeSuperblock_ok hmake
      exact ⟨ids, hids, WrbpodSuperblock.owned_new ids⟩
    · rw [superblockSlotIndex, hslot] at hrow
      exact hstored row sb hrow hempty hdecode
  have htold : WrbpodSuperblock.Owned ids (w' i).superblock := by
    have := WrbpodSuperblock.step_owned hids sb (op i) howned
    rwa [WrbpodSuperblock.step, happlied] at this
  have htold' : WrbpodSuperblock.Owned ids (w' i.other).superblock := by
    have := WrbpodSuperblock.step_owned hids _ (op i.other) htold
    rwa [WrbpodSuperblock.step, happlied'] at this
  -- a slot told to the first client is told to the second one for the same app only
  have hacross : ∀ a b id, (w' i).superblock.Lists a id → (w' i.other).superblock.Lists b id → a = b := by
    intro a b id ha hb
    refine htold.lists_apply hids (op i.other) ha ?_
    rw [happlied']
    exact hb
  rintro a b id ⟨j, ha⟩ ⟨k, hb⟩
  rcases i.eq_or_eq_other j with hj | hj <;> rcases i.eq_or_eq_other k with hk | hk <;> rw [hj] at ha <;>
    rw [hk] at hb
  · exact htold.disjoint a b id ha hb
  · exact hacross a b id ha hb
  · exact (hacross b a id hb ha).symm
  · exact htold'.disjoint a b id ha hb

end Run

/-! ## Two allocations -/

def twoAllocations : Client → WrbpodSuperblock.Op
  | .first => .allocate "a" 0 1
  | .second => .allocate "b" 0 1

/-- a handle on the three slots, none of them written yet -/
def freshHandle : Wrbpod := ⟨.new [1, 2], 7, some (List.replicate 3 (X0.p2pkh true 7)), ∅, 0⟩

/-- the result of a program that has returned -/
def returned {α : Type} : Prog Call Answer α → Option α
  | .ret a => some a
  | _ => none

theorem eq_ret_of_returned {α : Type} {p : Prog Call Answer α} {a : α} (h : returned p = some a) : p = .ret a := by
  cases p with
  | ret b => rw [Option.some.inj h]
  | spin => cases h
  | call q k => cases h

/-- one client after the other -/
def oneByOne : List Client := List.replicate 3 .first ++ List.replicate 5 .second

/-- both clients read before either of them puts -/
def crossed : List Client := [.first, .second, .first, .first, .second, .second, .second]

theorem empty_threeSlots {row : Row} (h : rowAt threeSlotReplica 0 threeSlots = some row) : row.md.isEmpty = true := by
  have hrow : rowAt threeSlotReplica 0 threeSlots = some ⟨⟨0, 0, 0, 0⟩, []⟩ := by decide +kernel
  obtain rfl := Option.some.inj (hrow.symm.trans h)
  decide

/-- the slot is empty, so both clients start from a new superblock, and "a" and "b" fit -/
theorem fits_twoAllocations (i : Client) (sb : WrbpodSuperblock)
    (h : HonestReplica.ReadRow X0 freshHandle (threeSlotReplica.known freshHandle) (threeSlotReplica.view threeSlots)
      sb) : WrbpodSuperblock.Fits ((twoAllocations i).apply sb).2 := by
  obtain ⟨row, hrow, ⟨-, hmake⟩ | ⟨hempty, -⟩⟩ := h
  · have hnew : makeSuperblock X0 0 (threeSlotReplica.known freshHandle) 7 = .ok (.new [1, 2]) := by decide +kernel
    obtain rfl : sb = .new [1, 2] := Except.ok.inj (hmake.symm.trans hnew)
    have hnone : ∀ name, name ∉ (WrbpodSuperblock.new [1, 2]).apps := fun name => Std.ExtTreeMap.not_mem_empty
    refine (WrbpodSuperblock.owned_new [1, 2]).fits_apply (by decide) (by decide)
      (fun name hname => absurd hname (hnone name)) (by decide +kernel) ?_
    cases i <;> decide +kernel
  · rw [empty_threeSlots hrow] at hempty
    cases hempty

/-- one allocation after the other: no step is stale -/
theorem no_lost_update_one_by_one :
    ∃ w' : Client → Wrbpod,
      Runs.Always (Pool.step threeSlotReplica.serve) (NotStale threeSlotReplica 0)
        (start X0 2 twoAllocations (fun _ => freshHandle) threeSlots) oneByOne ∧
      (∀ i, (Pool.run threeSlotReplica.serve (start X0 2 twoAllocations (fun _ => freshHandle) threeSlots)
        oneByOne).clients i = .ret (.ok true, w' i)) ∧
      (∃ i, InOrder threeSlotReplica 0 freshHandle threeSlots
        (Pool.run threeSlotReplica.serve (start X0 2 twoAllocations (fun _ => freshHandle) threeSlots) oneByOne).server
        (twoAllocations i) (twoAllocations i.other) (w' i).superblock (w' i.other).superblock) ∧
      ∀ a b id, (∃ i, (w' i).superblock.Lists a id) → (∃ i, (w' i).superblock.Lists b id) → a = b := by
  have hsteps : Runs.Always (Pool.step threeSlotReplica.serve) (NotStale threeSlotReplica 0)
      (start X0 2 twoAllocations (fun _ => freshHandle) threeSlots) oneByOne := by
    decide +kernel
  have hret : ∀ i, ∃ w', (Pool.run threeSlotReplica.serve
      (start X0 2 twoAllocations (fun _ => freshHandle) threeSlots) oneByOne).clients i = .ret (.ok true, w') := by
    intro i
    have hok : (returned ((Pool.run threeSlotReplica.serve
        (start X0 2 twoAllocations (fun _ => freshHandle) threeSlots) oneByOne).clients i)).map Prod.fst =
        some (.ok true) := by
      cases i <;> decide +kernel
    obtain ⟨⟨r, w'⟩, hr, rfl⟩ := Option.map_eq_some_iff.1 hok
    exact ⟨w', eq_ret_of_returned hr⟩
  choose w' hw' using hret
  refine ⟨w', hsteps, hw', ?_⟩
  exact no_lost_update X0_codecLaws X0_signLaws threeSlotReplica 0 2 twoAllocations (fun _ => freshHandle) threeSlots
    (fun _ => rfl) (fun row sb hrow hempty _ => by rw [empty_threeSlots hrow] at hempty; cases hempty)
    fits_twoAllocations oneByOne hsteps w' hw'

/-- where the crossed run ends -/
def collided : ClientPool (LocalStackerDB.WithSigners (List.replicate 3 (X0.p2pkh true 7))) :=
  Pool.run threeSlotReplica.serve (start X0 2 twoAllocations (fun _ => freshHandle) threeSlots) crossed

/-- both allocations succeed with slot 1, and only the second one is stored -/
theorem allocations_collide :
    (returned (collided.clients .first)).map
        (fun r => (r.1, r.2.appSlotIdToStackerdbChunkId "a" 0)) = some (.ok true, some 1) ∧
    (returned (collided.clients .second)).map
        (fun r => (r.1, r.2.appSlotIdToStackerdbChunkId "b" 0)) = some (.ok true, some 1) ∧
    (rowAt threeSlotReplica 0 collided.server).map (fun row =>
        (WrbpodSuperblock.fromBytes X0 row.data).toOption.map fun sb =>
          (sb.appSlotIdToStackerdbChunkId "a" 0, sb.appSlotIdToStackerdbChunkId "b" 0)) =
      some (some (none, some 1)) := by
  decide +kernel

end Wrbpod

end Wrb.Storage
