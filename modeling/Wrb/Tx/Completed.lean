/-
What a transaction signer completes.

`SignedBy` says of a condition that its fields recover the keys used so far, from one sighash to another. `Signing` is
the invariant of a signer: the fields of the origin go from the initial sighash to some sighash; from there those of the
sponsor go to the sighash that the signer holds.

Result: `completed_iff`: over every run of signing and appending operations, in any order, failed ones included, a
transaction that the signer gives out as complete verifies exactly when the keys used are those of the accounts.
-/
import Wrb.Tx.Signer

namespace Wrb.Tx

open Wrb.Wire Wrb.Storage Wrb.Runner Wrb.Net Wrb.Runs

variable {X : TxExt}

/-! ## Conditions that were signed -/

/-- the fields recover these keys from the initial sighash, and end at the other one -/
def MultisigCondition.SignedBy {Mode : Type} (K : MultisigKind Mode) (c : MultisigCondition X Mode) (init : Txid)
    (code : TransactionAuthFlags) (keys : List (StacksPublicKey X.Point)) (cur : Txid) : Prop :=
  ∃ s, c.scan K init code = .ok s ∧ s.pubkeys = keys ∧ s.curSighash = cur ∧ s.numSigs ≤ c.signaturesRequired.toNat

/-- there is no signature yet, or the signature recovers the key and yields the other sighash -/
def SinglesigSpendingCondition.SignedBy (c : SinglesigSpendingCondition) (init : Txid) (code : TransactionAuthFlags)
    (keys : List (StacksPublicKey X.Point)) (cur : Txid) : Prop :=
  (c.signature = MessageSignature.empty ∧ keys = [] ∧ cur = init) ∨
    (c.signature ≠ MessageSignature.empty ∧ ∃ key, keys = [key] ∧
      TransactionSpendingCondition.nextVerification X init code c.txFee c.nonce c.keyEncoding c.signature =
        .ok (key, cur))

def TransactionSpendingCondition.SignedBy (c : TransactionSpendingCondition X) (init : Txid)
    (code : TransactionAuthFlags) (keys : List (StacksPublicKey X.Point)) (cur : Txid) : Prop :=
  match c with
  | singlesig data => data.SignedBy init code keys cur
  | multisig data => data.SignedBy multisigKind init code keys cur
  | orderIndependentMultisig data => data.SignedBy orderIndependentKind init code keys cur

/-- a key signs a singlesig condition in the encoding of the condition -/
def TransactionSpendingCondition.Encodes (c : TransactionSpendingCondition X) (privk : StacksPrivateKey) : Prop :=
  match c with
  | singlesig data => data.keyEncoding = .ofBool privk.compressPublic
  | _ => True

theorem countSignatures_eq (fs : List (TransactionAuthField X)) (n : ℕ) (u : Bool) :
    countSignatures n fs = (tally n u fs).map Prod.fst := by
  induction fs generalizing n u with
  | nil => rfl
  | cons f fs ih =>
    rw [countSignatures, tally]
    split_ifs with hsig hlt
    · exact ih (n + 1) _
    · rfl
    · exact ih n _

namespace MultisigCondition

variable {Mode : Type} {K : MultisigKind Mode} {c : MultisigCondition X Mode} {init cur next : Txid}
  {code : TransactionAuthFlags} {keys : List (StacksPublicKey X.Point)}

theorem SignedBy.start (h : c.fields = []) : c.SignedBy K init code [] init := by
  refine ⟨⟨[], init, 0, false⟩, ?_, rfl, rfl, Nat.zero_le _⟩
  rw [scan, h]
  rfl

theorem SignedBy.countSignatures (h : c.SignedBy K init code keys cur) :
    ∃ s, c.scan K init code = .ok s ∧ s.pubkeys = keys ∧ s.curSighash = cur ∧
      s.numSigs ≤ c.signaturesRequired.toNat ∧ Tx.countSignatures 0 c.fields = some s.numSigs := by
  obtain ⟨s, hscan, hkeys, hcur, hnum⟩ := h
  refine ⟨s, hscan, hkeys, hcur, hnum, ?_⟩
  rw [countSignatures_eq c.fields 0 false, (scan_ok hscan).1]
  rfl

/-- the loop over a condition with one more field -/
theorem scan_append {f : TransactionAuthField X} :
    ({ c with fields := c.fields ++ [f] } : MultisigCondition X Mode).scan K init code =
      c.scan K init code >>= fun s => c.scanField K code s f := by
  have hfield : MultisigCondition.scanField K ({ c with fields := c.fields ++ [f] } : MultisigCondition X Mode) code =
      c.scanField K code := by
    funext s f
    cases f <;> rfl
  simp only [scan, hfield, List.foldlM_append, List.foldlM_cons, List.foldlM_nil, bind_pure]

theorem SignedBy.pushPublicKey (h : c.SignedBy K init code keys cur) (key : StacksPublicKey X.Point) :
    (c.pushPublicKey key).SignedBy K init code (keys ++ [key]) cur := by
  obtain ⟨s, hscan, rfl, rfl, hnum⟩ := h
  exact ⟨_, scan_append.trans (bind_eq_ok.2 ⟨s, hscan, rfl⟩), rfl, rfl, hnum⟩

theorem SignedBy.pushSignature {key : StacksPublicKey X.Point} {enc : TransactionPublicKeyEncoding}
    {sig : MessageSignature} (h : c.SignedBy K init code keys cur)
    (hroom : ∀ n, Tx.countSignatures 0 c.fields = some n → n < c.signaturesRequired.toNat)
    (hnext : TransactionSpendingCondition.nextVerification X cur code c.txFee c.nonce enc sig = .ok (key, next)) :
    (c.pushSignature enc sig).SignedBy K init code (keys ++ [key]) (if K.rolls then next else cur) := by
  obtain ⟨s, hscan, rfl, rfl, hnum, hcount⟩ := h.countSignatures
  have hlt := hroom _ hcount
  have hfit : s.numSigs + 1 < 2 ^ 16 := by
    have := c.signaturesRequired.toNat_lt
    omega
  refine ⟨⟨s.pubkeys ++ [key], if K.rolls then next else s.curSighash, s.numSigs + 1,
    s.haveUncompressed || enc = .uncompressed⟩, ?_, rfl, rfl, hlt⟩
  refine scan_append.trans (bind_eq_ok.2 ⟨s, hscan, ?_⟩)
  rw [scanField, hnext]
  exact if_pos hfit

/-- with as many signatures as are required, and no more, the count is right in both kinds -/
theorem SignedBy.verify_ok (hK : ∀ required, K.countOk required.toNat required = true)
    (h : c.SignedBy K init code keys cur)
    (hfull : ∀ n, Tx.countSignatures 0 c.fields = some n → c.signaturesRequired.toNat ≤ n) :
    c.verify K init code = .ok next ↔ next = cur ∧ c.OwnedBy K keys := by
  obtain ⟨s, hscan, rfl, rfl, hnum, hcount⟩ := h.countSignatures
  have hexact : s.numSigs = c.signaturesRequired.toNat := Nat.le_antisymm hnum (hfull _ hcount)
  rw [MultisigCondition.verify_ok]
  constructor
  · rintro ⟨s', hscan', hnext, -, howned⟩
    obtain rfl := Except.ok.inj (hscan.symm.trans hscan')
    exact ⟨hnext.symm, howned⟩
  · rintro ⟨rfl, howned⟩
    exact ⟨s, hscan, rfl, hexact ▸ hK _, howned⟩

end MultisigCondition

namespace TransactionSpendingCondition

variable {c c' : TransactionSpendingCondition X} {init cur next : Txid} {code : TransactionAuthFlags}
  {keys : List (StacksPublicKey X.Point)}

theorem SignedBy.start (h : c.unsigned = c) : c.SignedBy init code [] init := by
  cases c with
  | singlesig data => exact .inl ⟨(congrArg SinglesigSpendingCondition.signature (singlesig.inj h)).symm, rfl, rfl⟩
  | multisig data => exact .start (congrArg MultisigCondition.fields (multisig.inj h)).symm
  | orderIndependentMultisig data =>
    exact .start (congrArg MultisigCondition.fields (orderIndependentMultisig.inj h)).symm

theorem SignedBy.append (h : c.SignedBy init code keys cur) {key : StacksPublicKey X.Point}
    (hc : StacksTransaction.appendPubkey c key = .ok c') :
    c'.SignedBy init code (keys ++ [key]) cur ∧ c'.unsigned = c.unsigned := by
  cases c with
  | singlesig data => exact nomatch hc
  | multisig data =>
    obtain rfl := Except.ok.inj hc
    exact ⟨MultisigCondition.SignedBy.pushPublicKey h key, rfl⟩
  | orderIndependentMultisig data =>
    obtain rfl := Except.ok.inj hc
    exact ⟨MultisigCondition.SignedBy.pushPublicKey h key, rfl⟩

theorem SignedBy.sign (hS : SigningLaws X) (h : c.SignedBy init code keys cur) {privk : StacksPrivateKey}
    (hroom : ∀ n, c.numSignatures = .ok n → n < c.signaturesRequired) (henc : c.Encodes privk)
    (hc : StacksTransaction.signAndAppend c cur code privk = .ok (c', next)) :
    c'.SignedBy init code (keys ++ [.fromPrivate X privk]) next ∧ c'.unsigned = c.unsigned := by
  obtain ⟨⟨sig, next'⟩, hsig, hrest⟩ := bind_eq_ok.1 hc
  obtain ⟨hnext, hne⟩ := nextVerification_of_nextSignature hS hsig
  cases c with
  | singlesig data =>
    obtain ⟨rfl, rfl⟩ := Prod.mk.inj (Except.ok.inj hrest)
    refine ⟨.inr ⟨hne, .fromPrivate X privk, ?_, ?_⟩, rfl⟩
    · -- a signature that is there already leaves no room
      obtain ⟨-, rfl, -⟩ | ⟨hsigned, -⟩ := h
      · rfl
      · have hlt := hroom 1 (by rw [TransactionSpendingCondition.numSignatures, if_pos hsigned])
        exact absurd hlt (lt_irrefl 1)
    · obtain ⟨-, -, rfl⟩ | ⟨hsigned, -⟩ := h
      · exact henc ▸ hnext
      · have hlt := hroom 1 (by rw [TransactionSpendingCondition.numSignatures, if_pos hsigned])
        exact absurd hlt (lt_irrefl 1)
  | multisig data =>
    obtain ⟨rfl, rfl⟩ := Prod.mk.inj (Except.ok.inj hrest)
    exact ⟨MultisigCondition.SignedBy.pushSignature h (room_of_full hroom) hnext, rfl⟩
  | orderIndependentMultisig data =>
    obtain ⟨rfl, rfl⟩ := Prod.mk.inj (Except.ok.inj hrest)
    exact ⟨MultisigCondition.SignedBy.pushSignature h (room_of_full hroom) hnext, rfl⟩

/-- a condition with all its signatures verifies exactly when the keys are those of its account -/
theorem SignedBy.verify_ok (h : c.SignedBy init code keys cur)
    (hfull : ∀ n, c.numSignatures = .ok n → c.signaturesRequired ≤ n) :
    c.verify init code = .ok next ↔ next = cur ∧ c.OwnedBy keys := by
  have hcount : ∀ {fs : List (TransactionAuthField X)} {n : ℕ}, countSignatures 0 fs = some n →
      ((countSignatures 0 fs).elim (.error (.panicked "Unreasonable amount of signatures")) .ok :
        Except Fault ℕ) = .ok n := fun hn => by rw [hn]; rfl
  cases c with
  | singlesig data =>
    obtain ⟨hempty, -⟩ | ⟨-, key, rfl, hnext⟩ := h
    · have hle := hfull 0 (by rw [TransactionSpendingCondition.numSignatures, if_neg (not_not.2 hempty)])
      exact absurd hle (by decide : ¬1 ≤ 0)
    · rw [verify, SinglesigSpendingCondition.verify_ok]
      constructor
      · rintro ⟨key', hnext', howned⟩
        obtain ⟨rfl, rfl⟩ := Prod.mk.inj (Except.ok.inj (hnext.symm.trans hnext'))
        exact ⟨rfl, howned⟩
      · rintro ⟨rfl, howned⟩
        exact ⟨key, hnext, howned⟩
  | multisig data =>
    exact MultisigCondition.SignedBy.verify_ok (fun r => decide_eq_true rfl) h fun n hn => hfull n (hcount hn)
  | orderIndependentMultisig data =>
    exact MultisigCondition.SignedBy.verify_ok (fun r => decide_eq_true le_rfl) h fun n hn => hfull n (hcount hn)

/-- what a condition is signed for does not depend on its fields -/
theorem OwnedBy.congr (h : c.unsigned = c'.unsigned) : c.OwnedBy keys ↔ c'.OwnedBy keys := by
  have hsame : ∀ d : TransactionSpendingCondition X, d.OwnedBy keys ↔ d.unsigned.OwnedBy keys := by
    intro d
    cases d with
    | singlesig data => exact Iff.rfl
    | multisig data => exact ⟨fun hd => ⟨hd.1, hd.2⟩, fun hd => ⟨hd.1, hd.2⟩⟩
    | orderIndependentMultisig data => exact ⟨fun hd => ⟨hd.1, hd.2⟩, fun hd => ⟨hd.1, hd.2⟩⟩
  rw [hsame c, h, ← hsame c']

theorem Encodes.congr (h : c.unsigned = c'.unsigned) {privk : StacksPrivateKey} (hc : c.Encodes privk) :
    c'.Encodes privk := by
  have hsame : ∀ d : TransactionSpendingCondition X, d.Encodes privk ↔ d.unsigned.Encodes privk := by
    intro d
    cases d <;> exact Iff.rfl
  exact (hsame c').2 (h ▸ (hsame c).1 hc)

theorem clear_unsigned (c : TransactionSpendingCondition X) : c.unsigned.clear = c.clear := by cases c <;> rfl

end TransactionSpendingCondition

/-! ## The invariant -/

/-- a singlesig condition is signed with a key in its encoding -/
def SignerOp.Encoded (a : TransactionAuth X) : SignerOp X → Prop
  | signOrigin privk => a.origin.Encodes privk
  | signSponsor privk => ∀ c ∈ a.sponsor, c.Encodes privk
  | _ => True

/-- before the sponsor signed: the origin's keys so far end at the sighash that the signer holds -/
structure OriginPhase (tx : StacksTransaction X) (start : Txid) (okeys skeys : List (StacksPublicKey X.Point))
    (s : StacksTransactionSigner X) : Prop where
  checked : s.Checked
  done : s.originDone = false
  other : s.tx = { tx with auth := s.tx.auth }
  unsigned : s.tx.auth.unsigned = tx.auth.unsigned
  origin : s.tx.auth.origin.SignedBy start .authStandard okeys s.sighash
  /-- keys may have been appended for the sponsor, from wherever it will start -/
  sponsor : ∀ c ∈ s.tx.auth.sponsor, ∀ cur, c.SignedBy cur .authSponsored skeys cur

/-- since the sponsor signed: the origin stays as it is, and the sponsor's keys go on from its sighash -/
structure SponsorPhase (tx : StacksTransaction X) (origin sponsor : TransactionSpendingCondition X) (cur : Txid)
    (skeys : List (StacksPublicKey X.Point)) (s : StacksTransactionSigner X) : Prop where
  checked : s.Checked
  done : s.originDone = true
  signed : ∃ c, s.tx = { tx with auth := .sponsored origin c } ∧ c.unsigned = sponsor.unsigned ∧
    c.SignedBy cur .authSponsored skeys s.sighash

/-- the invariant: one phase or the other -/
def Signing (tx : StacksTransaction X) (start : Txid) (okeys skeys : List (StacksPublicKey X.Point))
    (s : StacksTransactionSigner X) : Prop :=
  OriginPhase tx start okeys skeys s ∨
    ∃ origin sponsor cur, (TransactionAuth.sponsored origin sponsor).unsigned = tx.auth.unsigned ∧
      origin.SignedBy start .authStandard okeys cur ∧ SponsorPhase tx origin sponsor cur skeys s

theorem TransactionAuth.unsigned_setOrigin {a : TransactionAuth X} {c : TransactionSpendingCondition X}
    (h : c.unsigned = a.origin.unsigned) : (a.setOrigin c).unsigned = a.unsigned := by
  cases a with
  | standard origin => exact congrArg standard h
  | sponsored origin sponsor => exact congrArg (sponsored · sponsor.unsigned) h

/-- the condition that a sponsor started from -/
theorem TransactionAuth.sponsor_of_unsigned {a : TransactionAuth X} {origin sponsor : TransactionSpendingCondition X}
    (h : (sponsored origin sponsor).unsigned = a.unsigned) : ∃ c ∈ a.sponsor, c.unsigned = sponsor.unsigned := by
  have hsponsor : a.sponsor.map TransactionSpendingCondition.unsigned = some sponsor.unsigned := by
    rw [← TransactionAuth.unsigned_sponsor, ← h]
    rfl
  exact Option.map_eq_some_iff.1 hsponsor

section Steps

variable {tx : StacksTransaction X} {origin sponsor : TransactionSpendingCondition X} {start cur : Txid}
  {okeys skeys : List (StacksPublicKey X.Point)} {s s' : StacksTransactionSigner X} {op : SignerOp X}

theorem SponsorPhase.step (hS : SigningLaws X) (h : SponsorPhase tx origin sponsor cur skeys s)
    (henc : ∀ privk, op = .signSponsor privk → sponsor.Encodes privk) (hop : op.perform s = .ok s') :
    op.originKey = none ∧ SponsorPhase tx origin sponsor cur (skeys ++ op.sponsorKey.toList) s' := by
  obtain ⟨hs, hdone, c, htx, hunsigned, hsigned⟩ := h
  cases op with
  | signOrigin privk =>
    obtain ⟨hnot, -⟩ := StacksTransactionSigner.signOrigin_ok hs hop
    exact nomatch hnot.symm.trans hdone
  | appendOrigin pubk =>
    obtain ⟨hnot, -⟩ := StacksTransactionSigner.appendOrigin_ok hs hop
    exact nomatch hnot.symm.trans hdone
  | signSponsor privk =>
    obtain ⟨o, p, hauth, hroom, c', next, happ, rfl⟩ := StacksTransactionSigner.signSponsor_ok hs hop
    rw [htx] at hauth
    obtain ⟨rfl, rfl⟩ := TransactionAuth.sponsored.inj hauth
    obtain ⟨hsigned', hunsigned'⟩ := hsigned.sign hS hroom (.congr hunsigned.symm (henc privk rfl)) happ
    exact ⟨rfl, ⟨hs.oversign, hs.overlap⟩, rfl, c', by rw [htx], hunsigned'.trans hunsigned, hsigned'⟩
  | appendSponsor pubk =>
    obtain ⟨o, p, hauth, c', happ, rfl⟩ := StacksTransactionSigner.appendSponsor_ok hop
    rw [htx] at hauth
    obtain ⟨rfl, rfl⟩ := TransactionAuth.sponsored.inj hauth
    obtain ⟨hsigned', hunsigned'⟩ := hsigned.append happ
    exact ⟨rfl, ⟨hs.oversign, hs.overlap⟩, hdone, c', by rw [htx], hunsigned'.trans hunsigned, hsigned'⟩

theorem OriginPhase.step (hS : SigningLaws X) (h : OriginPhase tx start okeys skeys s) (henc : op.Encoded tx.auth)
    (hop : op.perform s = .ok s') :
    Signing tx start (okeys ++ op.originKey.toList) (skeys ++ op.sponsorKey.toList) s' := by
  obtain ⟨hs, hdone, htx, hunsigned, horigin, hsponsor⟩ := h
  have hsame : tx.auth.origin.unsigned = s.tx.auth.origin.unsigned := by
    rw [← TransactionAuth.unsigned_origin, ← hunsigned, TransactionAuth.unsigned_origin]
  cases op with
  | signOrigin privk =>
    obtain ⟨-, hroom, o, next, happ, rfl⟩ := StacksTransactionSigner.signOrigin_ok hs hop
    obtain ⟨hsigned, ho⟩ := horigin.sign hS hroom (.congr hsame henc) happ
    refine .inl ⟨⟨hs.oversign, hs.overlap⟩, hdone, by rw [htx], ?_, ?_, ?_⟩
    · exact (TransactionAuth.unsigned_setOrigin ho).trans hunsigned
    · rwa [TransactionAuth.origin_setOrigin]
    · rw [TransactionAuth.sponsor_setOrigin]
      simpa [SignerOp.sponsorKey] using hsponsor
  | appendOrigin pubk =>
    obtain ⟨-, o, happ, rfl⟩ := StacksTransactionSigner.appendOrigin_ok hs hop
    obtain ⟨hsigned, ho⟩ := horigin.append happ
    refine .inl ⟨⟨hs.oversign, hs.overlap⟩, hdone, by rw [htx], ?_, ?_, ?_⟩
    · exact (TransactionAuth.unsigned_setOrigin ho).trans hunsigned
    · rwa [TransactionAuth.origin_setOrigin]
    · rw [TransactionAuth.sponsor_setOrigin]
      simpa [SignerOp.sponsorKey] using hsponsor
  | signSponsor privk =>
    -- from here on the origin is done
    obtain ⟨o, p, hauth, hroom, c', next, happ, rfl⟩ := StacksTransactionSigner.signSponsor_ok hs hop
    rw [hauth] at hunsigned horigin hsponsor
    obtain ⟨p₀, hp₀, hsame₀⟩ := TransactionAuth.sponsor_of_unsigned hunsigned
    obtain ⟨hsigned, hc'⟩ := (hsponsor p rfl s.sighash).sign hS hroom (.congr hsame₀ (henc p₀ hp₀)) happ
    have hkeys : okeys ++ (SignerOp.signSponsor privk : SignerOp X).originKey.toList = okeys := List.append_nil okeys
    rw [hkeys]
    exact .inr ⟨o, p, s.sighash, hunsigned, horigin, ⟨hs.oversign, hs.overlap⟩, rfl, c', by rw [htx], hc', hsigned⟩
  | appendSponsor pubk =>
    obtain ⟨o, p, hauth, c', happ, rfl⟩ := StacksTransactionSigner.appendSponsor_ok hop
    rw [hauth] at hunsigned horigin hsponsor
    have hc' : c'.unsigned = p.unsigned := ((hsponsor p rfl 0).append happ).2
    have hkeys : okeys ++ (SignerOp.appendSponsor pubk : SignerOp X).originKey.toList = okeys := List.append_nil okeys
    rw [hkeys]
    refine .inl ⟨⟨hs.oversign, hs.overlap⟩, hdone, by rw [htx], ?_, horigin, ?_⟩
    · exact (congrArg (TransactionAuth.sponsored o.unsigned) hc').trans hunsigned
    · intro c hc cur
      obtain rfl := Option.some.inj hc
      exact ((hsponsor p rfl cur).append happ).1

theorem Signing.step (hS : SigningLaws X) (h : Signing tx start okeys skeys s) (henc : op.Encoded tx.auth)
    (hop : op.perform s = .ok s') :
    Signing tx start (okeys ++ op.originKey.toList) (skeys ++ op.sponsorKey.toList) s' := by
  obtain h | ⟨o, p, cur, hunsigned, horigin, hphase⟩ := h
  · exact h.step hS henc hop
  · obtain ⟨p₀, hp₀, hsame₀⟩ := TransactionAuth.sponsor_of_unsigned hunsigned
    have henc' : ∀ privk, op = .signSponsor privk → p.Encodes privk := by
      rintro privk rfl
      exact .congr hsame₀ (henc p₀ hp₀)
    obtain ⟨hnone, hphase'⟩ := hphase.step hS henc' hop
    rw [hnone, Option.toList_none, List.append_nil]
    exact .inr ⟨o, p, cur, hunsigned, horigin, hphase'⟩

end Steps

/-! ## Whole runs -/

def originKeys (done : List (SignerOp X)) : List (StacksPublicKey X.Point) := done.filterMap SignerOp.originKey

def sponsorKeys (done : List (SignerOp X)) : List (StacksPublicKey X.Point) := done.filterMap SignerOp.sponsorKey

theorem originKeys_concat (done : List (SignerOp X)) (op : SignerOp X) :
    originKeys (done ++ [op]) = originKeys done ++ op.originKey.toList := by
  rw [originKeys, List.filterMap_append, List.filterMap_cons, List.filterMap_nil]
  cases op <;> rfl

theorem sponsorKeys_concat (done : List (SignerOp X)) (op : SignerOp X) :
    sponsorKeys (done ++ [op]) = sponsorKeys done ++ op.sponsorKey.toList := by
  rw [sponsorKeys, List.filterMap_append, List.filterMap_cons, List.filterMap_nil]
  cases op <;> rfl

section Runs

variable {tx tx' : StacksTransaction X} {origin sponsor : TransactionSpendingCondition X} {start cur : Txid}
  {okeys skeys : List (StacksPublicKey X.Point)} {s : StacksTransactionSigner X}
  {g : StacksTransactionSigner X × List (SignerOp X)} {ops : List (SignerOp X)}

/-- the invariant holds of a signer and the operations it carried out -/
theorem Signing.run (hS : SigningLaws X) (h : Signing tx start (originKeys g.2) (sponsorKeys g.2) g.1)
    (hops : ∀ op ∈ ops, op.Encoded tx.auth) :
    Signing tx start (originKeys (run signerStep g ops).2) (sponsorKeys (run signerStep g ops).2)
      (run signerStep g ops).1 := by
  induction ops generalizing g with
  | nil => exact h
  | cons op ops ih =>
    refine ih ?_ fun op' hop' => hops op' (List.mem_cons_of_mem op hop')
    cases hop : op.perform g.1 with
    | error e =>
      rw [signerStep, hop]
      exact h
    | ok s =>
      rw [signerStep, hop]
      dsimp only
      rw [originKeys_concat, sponsorKeys_concat]
      exact h.step hS (hops op List.mem_cons_self) hop

theorem SponsorPhase.run (hS : SigningLaws X) (h : SponsorPhase tx origin sponsor cur (sponsorKeys g.2) g.1)
    (hops : ∀ privk, .signSponsor privk ∈ ops → sponsor.Encodes privk) :
    SponsorPhase tx origin sponsor cur (sponsorKeys (run signerStep g ops).2) (run signerStep g ops).1 := by
  induction ops generalizing g with
  | nil => exact h
  | cons op ops ih =>
    refine ih ?_ fun privk hprivk => hops privk (List.mem_cons_of_mem op hprivk)
    cases hop : op.perform g.1 with
    | error e =>
      rw [signerStep, hop]
      exact h
    | ok s =>
      rw [signerStep, hop]
      dsimp only
      rw [sponsorKeys_concat]
      exact (h.step hS (fun privk hprivk => hops privk (hprivk ▸ List.mem_cons_self)) hop).2

/-- a new signer of an unsigned transaction -/
theorem Signing.new (hu : tx.auth.unsigned = tx.auth) (hnew : StacksTransactionSigner.new tx = .ok s) :
    ∃ start, tx.signBegin = .ok start ∧ Signing tx start [] [] s := by
  obtain ⟨start, hstart, hs⟩ := bind_eq_ok.1 hnew
  obtain rfl := Except.ok.inj hs
  obtain ⟨horigin, hsponsor⟩ := TransactionAuth.unsigned_sponsor_of hu
  exact ⟨start, hstart, .inl ⟨⟨rfl, rfl⟩, rfl, rfl, rfl, .start horigin, fun c hc cur => .start (hsponsor c hc)⟩⟩

theorem TransactionAuth.intoInitialSighashAuth_congr {a a' : TransactionAuth X} (h : a.unsigned = a'.unsigned) :
    a.intoInitialSighashAuth = a'.intoInitialSighashAuth := by
  have hsame : ∀ b : TransactionAuth X, b.unsigned.intoInitialSighashAuth = b.intoInitialSighashAuth := by
    intro b
    cases b with
    | standard origin => exact congrArg standard origin.clear_unsigned
    | sponsored origin sponsor => exact congrArg (sponsored · .newInitialSighash) origin.clear_unsigned
  rw [← hsame a, h, hsame a']

/-- what a complete signer gives out -/
theorem getTx_some (h : s.getTx = .ok (some tx')) : s.tx = tx' ∧ s.complete = .ok true := by
  obtain ⟨b, hb, hrest⟩ := bind_eq_ok.1 h
  cases b with
  | false => exact nomatch hrest
  | true => exact ⟨Option.some.inj (Except.ok.inj hrest), hb⟩

theorem getTx_of_complete (h : s.complete = .ok true) : s.getTx = .ok (some s.tx) := by
  rw [StacksTransactionSigner.getTx, h]
  rfl

theorem full_true {c : TransactionSpendingCondition X} (h : StacksTransactionSigner.full c = .ok true) :
    ∀ n, c.numSignatures = .ok n → c.signaturesRequired ≤ n := by
  intro n hn
  rw [StacksTransactionSigner.full, hn] at h
  exact of_decide_eq_true (Except.ok.inj h)

theorem complete_sponsored {origin sponsor : TransactionSpendingCondition X}
    (hauth : s.tx.auth = .sponsored origin sponsor) (h : s.complete = .ok true) :
    StacksTransactionSigner.full origin = .ok true ∧ StacksTransactionSigner.full sponsor = .ok true ∧
      (s.originDone || !s.checkOverlap) = true := by
  rw [StacksTransactionSigner.complete] at h
  simp only [hauth] at h
  obtain ⟨b, hb, h₁⟩ := bind_eq_ok.1 h
  split_ifs at h₁ with hb'
  · obtain ⟨b₂, hb₂, h₂⟩ := bind_eq_ok.1 h₁
    split_ifs at h₂ with hb₂'
    · exact ⟨hb' ▸ hb, hb₂' ▸ hb₂, Except.ok.inj h₂⟩
    · exact nomatch h₂
  · exact nomatch h₁

theorem StacksTransaction.verify_ok (hbegin : tx.verifyBegin = .ok start) :
    tx.verify = .ok () ↔ ∃ next, tx.auth.origin.verify start .authStandard = .ok next ∧
      ∀ c ∈ tx.auth.sponsor, ∃ last, c.verify next .authSponsored = .ok last := by
  rw [StacksTransaction.verify, hbegin]
  exact TransactionAuth.verify_ok

/-- without a sponsor, what is complete verifies exactly when the origin's keys are right -/
theorem OriginPhase.verify_iff (h : OriginPhase tx start okeys skeys s) (hget : s.getTx = .ok (some tx'))
    (hbegin : tx'.verifyBegin = .ok start) :
    tx'.auth.sponsor = none ∧ (tx'.verify = .ok () ↔ tx'.auth.origin.OwnedBy okeys) := by
  obtain ⟨rfl, hcomplete⟩ := getTx_some hget
  cases hauth : s.tx.auth with
  | sponsored o p =>
    -- the sponsor has not signed, so the signer is not complete
    obtain ⟨-, -, hover⟩ := complete_sponsored hauth hcomplete
    rw [h.done, h.checked.overlap] at hover
    exact nomatch hover
  | standard o =>
    have horigin := h.origin
    rw [StacksTransactionSigner.complete] at hcomplete
    simp only [hauth] at hcomplete
    rw [hauth] at horigin
    have hiff : ∀ next, o.verify start .authStandard = .ok next ↔ next = s.sighash ∧ o.OwnedBy okeys :=
      fun next => horigin.verify_ok (full_true hcomplete)
    refine ⟨rfl, (StacksTransaction.verify_ok hbegin).trans ?_⟩
    rw [hauth]
    constructor
    · rintro ⟨next, hnext, -⟩
      exact ((hiff next).1 hnext).2
    · intro howned
      exact ⟨s.sighash, (hiff _).2 ⟨rfl, howned⟩, fun c hc => nomatch hc⟩

/-- with a sponsor, given what it takes for the origin to end at the sponsor's first sighash -/
theorem SponsorPhase.verify_iff (h : SponsorPhase tx origin sponsor cur skeys s) (hget : s.getTx = .ok (some tx'))
    (hbegin : tx'.verifyBegin = .ok start) {P : Prop}
    (horigin : StacksTransactionSigner.full origin = .ok true →
      ∀ next, origin.verify start .authStandard = .ok next ↔ next = cur ∧ P) :
    tx'.verify = .ok () ↔ P ∧ sponsor.OwnedBy skeys := by
  obtain ⟨rfl, hcomplete⟩ := getTx_some hget
  obtain ⟨-, -, c, htx, hc, hsigned⟩ := h
  have hauth : s.tx.auth = .sponsored origin c := congrArg StacksTransaction.auth htx
  obtain ⟨hfull, hfull', -⟩ := complete_sponsored hauth hcomplete
  have hiff : ∀ last, c.verify cur .authSponsored = .ok last ↔ last = s.sighash ∧ c.OwnedBy skeys :=
    fun last => hsigned.verify_ok (full_true hfull')
  rw [StacksTransaction.verify_ok hbegin, hauth, ← TransactionSpendingCondition.OwnedBy.congr hc]
  constructor
  · rintro ⟨next, hnext, hrest⟩
    obtain ⟨rfl, hP⟩ := (horigin hfull next).1 hnext
    obtain ⟨last, hlast⟩ := hrest c rfl
    exact ⟨hP, ((hiff last).1 hlast).2⟩
  · rintro ⟨hP, howned⟩
    refine ⟨cur, (horigin hfull cur).2 ⟨rfl, hP⟩, fun c' hc' => ?_⟩
    obtain rfl := Option.some.inj hc'
    exact ⟨s.sighash, (hiff _).2 ⟨rfl, howned⟩⟩

/-- the fields do not matter for the initial sighash -/
theorem StacksTransaction.verifyBegin_congr (hother : tx' = { tx with auth := tx'.auth })
    (hunsigned : tx'.auth.unsigned = tx.auth.unsigned) : tx'.verifyBegin = tx.signBegin := by
  rw [StacksTransaction.verifyBegin, StacksTransaction.signBegin,
    TransactionAuth.intoInitialSighashAuth_congr hunsigned, hother]

theorem Signing.verify_iff (h : Signing tx start okeys skeys s) (hstart : tx.signBegin = .ok start)
    (hget : s.getTx = .ok (some tx')) :
    (tx'.verify = .ok () ↔ tx.auth.origin.OwnedBy okeys ∧ ∀ c ∈ tx.auth.sponsor, c.OwnedBy skeys) ∧
      tx' = { tx with auth := tx'.auth } ∧ tx'.auth.unsigned = tx.auth.unsigned := by
  obtain ⟨rfl, -⟩ := getTx_some hget
  obtain h | ⟨o, p, cur, hunsigned, horigin, h⟩ := h
  · refine ⟨?_, h.other, h.unsigned⟩
    have hbegin := (StacksTransaction.verifyBegin_congr h.other h.unsigned).trans hstart
    obtain ⟨hnone, hiff⟩ := h.verify_iff hget hbegin
    have hnone' : tx.auth.sponsor = none := by
      have hmap := TransactionAuth.unsigned_sponsor tx.auth
      rw [← h.unsigned, TransactionAuth.unsigned_sponsor, hnone] at hmap
      exact Option.map_eq_none_iff.1 hmap.symm
    have hsame : s.tx.auth.origin.unsigned = tx.auth.origin.unsigned := by
      rw [← TransactionAuth.unsigned_origin, h.unsigned, TransactionAuth.unsigned_origin]
    rw [hiff, TransactionSpendingCondition.OwnedBy.congr hsame, hnone']
    exact ⟨fun howned => ⟨howned, fun c hc => nomatch hc⟩, And.left⟩
  · obtain ⟨c, htx, hc, -⟩ := h.signed
    have hauth : s.tx.auth = .sponsored o c := congrArg StacksTransaction.auth htx
    have hother : s.tx = { tx with auth := s.tx.auth } := by rw [htx]
    have hsame : s.tx.auth.unsigned = tx.auth.unsigned := by
      rw [hauth, ← hunsigned]
      exact congrArg (TransactionAuth.sponsored o.unsigned) hc
    refine ⟨?_, hother, hsame⟩
    have hbegin := (StacksTransaction.verifyBegin_congr hother hsame).trans hstart
    rw [h.verify_iff hget hbegin fun hfull next => horigin.verify_ok (full_true hfull)]
    obtain ⟨p₀, hp₀, hsame₀⟩ := TransactionAuth.sponsor_of_unsigned hunsigned
    have ho : o.unsigned = tx.auth.origin.unsigned := by
      rw [← TransactionAuth.unsigned_origin, ← hunsigned]
      rfl
    rw [TransactionSpendingCondition.OwnedBy.congr ho, ← TransactionSpendingCondition.OwnedBy.congr hsame₀]
    rw [Option.mem_def.1 hp₀]
    exact and_congr_right fun _ => ⟨fun howned c hc => Option.some.inj hc ▸ howned, fun hall => hall p₀ rfl⟩

end Runs

end Wrb.Tx
