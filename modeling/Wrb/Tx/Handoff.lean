/-
A sponsored transaction over the wire (`src/tx/transaction.rs`, `StacksTransactionSigner::new_sponsor`), and the calls
that make a transaction and sign it (`src/tx/mod.rs`, `serialize_sign_tx` and its callers).

The origin signs without knowing its sponsor, and sends the transaction on. The sponsor's signer puts its own condition
in, verifies the origin, and goes on from the sighash that the origin ended at.

Results:
- `origin_to_sponsor`: what an origin has signed arrives as it was sent; a sponsor's signer takes it up exactly when the
  origin's keys are those of its account, and whatever the sponsor does from there, a transaction it completes verifies
  exactly when the sponsor's keys are those of its account;
- `serializeSignTx_succeeds`: with keys that can sign, a transaction is made, never left incomplete; it verifies, and
  has the nonces, fee and chain that were asked for;
- `makeContractCall_posted`: a contract call made here is read from its bytes as it was made, and verifies there.
-/
import Wrb.Tx.Completed

namespace Wrb.Tx

open Wrb.Wire Wrb.Storage Wrb.Runner Wrb.Net Wrb.Runs

variable {X : TxExt}

/-! ## The sponsor's side -/

section Sponsor

variable {tx tx' : StacksTransaction X} {c : TransactionSpendingCondition X} {s s' : StacksTransactionSigner X}

end Sponsor

/-! ## The hand-off -/

section Handoff

variable {tx : StacksTransaction X} {c : TransactionSpendingCondition X} {s s₁ : StacksTransactionSigner X}
  {ops done : List (SignerOp X)}

end Handoff

def CHAIN_ID_MAINNET : UInt32 := 0x00000001
def CHAIN_ID_TESTNET : UInt32 := 0x80000000

/-- the condition of a key, which the callers expect to exist -/
def expectP2pkh (pubkey : StacksPublicKey X.Point) : Except Fault (TransactionSpendingCondition X) :=
  match TransactionSpendingCondition.newSinglesigP2pkh pubkey with
  | none => .error (.panicked "Failed to create p2pkh spending condition from public key.")
  | some condition => .ok condition

section Make

variable (version : TransactionVersion) (payload : TransactionPayload X) (sender : StacksPrivateKey)
  (payer : Option StacksPrivateKey) (senderNonce : UInt64) (payerNonce : Option UInt64) (txFee : UInt64)
  (postConditionMode : TransactionPostConditionMode) (postConditions : List (TransactionPostCondition X))

/-- the authorization that `serialize_sign_tx` makes: sponsored if there is a payer and a nonce for it -/
def signTxAuth (X : TxExt) : Except Fault (TransactionAuth X) := do
  let senderSpendingCondition ← expectP2pkh (.fromPrivate X sender)
  match payer, payerNonce with
  | some payer, some payerNonce => do
    let payerSpendingCondition ← expectP2pkh (.fromPrivate X payer)
    pure (.sponsored (senderSpendingCondition.setNonce senderNonce)
      ((payerSpendingCondition.setNonce payerNonce).setTxFee txFee))
  | _, _ => pure (.standard ((senderSpendingCondition.setNonce senderNonce).setTxFee txFee))

/-- the transaction before it is signed -/
def unsignedTx (auth : TransactionAuth X) : StacksTransaction X :=
  { StacksTransaction.new version auth payload with
    anchorMode := .any, postConditionMode, postConditions,
    chainId := if version = .mainnet then CHAIN_ID_MAINNET else CHAIN_ID_TESTNET }

/-- the keys sign: the sender, then the payer if its nonce is given -/
def signKeys (txSigner : StacksTransactionSigner X) : Except Fault (StacksTransactionSigner X) := do
  let txSigner ← txSigner.signOrigin sender
  match payer, payerNonce with
  | some payer, some _ => txSigner.signSponsor payer
  | _, _ => pure txSigner

def serializeSignTx : Except Fault (StacksTransaction X) := do
  let auth ← signTxAuth sender payer senderNonce payerNonce txFee X
  let txSigner ← StacksTransactionSigner.new (unsignedTx version payload postConditionMode postConditions auth)
  let txSigner ← signKeys sender payer payerNonce txSigner
  match ← txSigner.getTx with
  | none => throw (.error .incomplete)
  | some tx => pure tx

end Make

/-! ## What is made -/

@[simp] theorem unsigned_nonce (c : TransactionSpendingCondition X) : c.unsigned.nonce = c.nonce := by cases c <;> rfl

@[simp] theorem unsigned_txFee (c : TransactionSpendingCondition X) : c.unsigned.txFee = c.txFee := by cases c <;> rfl

@[simp] theorem getOriginNonce_unsigned (a : TransactionAuth X) : a.unsigned.getOriginNonce = a.getOriginNonce := by
  cases a <;> exact unsigned_nonce _

@[simp] theorem getSponsorNonce_unsigned (a : TransactionAuth X) : a.unsigned.getSponsorNonce = a.getSponsorNonce := by
  cases a with
  | standard origin => rfl
  | sponsored origin sponsor => exact congrArg some (unsigned_nonce sponsor)

@[simp] theorem getTxFee_unsigned (a : TransactionAuth X) : a.unsigned.getTxFee = a.getTxFee := by
  cases a <;> exact unsigned_txFee _

/-- the condition of one key: its account, its encoding, and no signature yet -/
theorem expectP2pkh_ok {key : StacksPublicKey X.Point} {c : TransactionSpendingCondition X}
    (h : expectP2pkh key = .ok c) : ∃ signer, X.fromPublicKeys .serializeP2PKH 1 [key] = some signer ∧
      c = .singlesig ⟨.p2pkh, signer, 0, 0, .ofBool key.compressed, MessageSignature.empty⟩ := by
  unfold expectP2pkh TransactionSpendingCondition.newSinglesigP2pkh at h
  cases haddr : X.fromPublicKeys .serializeP2PKH 1 [key] with
  | none =>
    rw [haddr] at h
    exact nomatch h
  | some signer =>
    rw [haddr] at h
    exact ⟨signer, rfl, (Except.ok.inj h).symm⟩

/-- a condition of one key, whatever its nonce and fee -/
def OneKey (privk : StacksPrivateKey) (c : TransactionSpendingCondition X) : Prop :=
  c.OwnedBy [.fromPrivate X privk] ∧ c.Encodes privk ∧ c.unsigned = c ∧ ∃ data, c = .singlesig data

theorem oneKey_of_expect {privk : StacksPrivateKey} {c : TransactionSpendingCondition X}
    (h : expectP2pkh (.fromPrivate X privk) = .ok c) (nonce txFee : UInt64) :
    OneKey privk (c.setNonce nonce) ∧ OneKey privk ((c.setNonce nonce).setTxFee txFee) := by
  obtain ⟨signer, haddr, rfl⟩ := expectP2pkh_ok h
  exact ⟨⟨haddr, rfl, rfl, _, rfl⟩, ⟨haddr, rfl, rfl, _, rfl⟩⟩

/-- a singlesig condition that a key signed is full -/
theorem full_of_signed {c : TransactionSpendingCondition X} {init cur : Txid} {code : TransactionAuthFlags}
    {keys : List (StacksPublicKey X.Point)} (h : c.SignedBy init code keys cur) (hkeys : keys ≠ [])
    (hdata : ∃ data, c.unsigned = .singlesig data) : StacksTransactionSigner.full c = .ok true := by
  cases c with
  | singlesig data =>
    obtain ⟨-, hnil, -⟩ | ⟨hne, -⟩ := h
    · exact absurd hnil hkeys
    · rw [StacksTransactionSigner.full, TransactionSpendingCondition.numSignatures, if_pos hne]
      rfl
  | multisig data =>
    obtain ⟨_, hdata⟩ := hdata
    cases hdata
  | orderIndependentMultisig data =>
    obtain ⟨_, hdata⟩ := hdata
    cases hdata

/-- a signer of one-key conditions is complete when every one of them was signed -/
theorem Signing.complete {tx : StacksTransaction X} {start : Txid} {okeys skeys : List (StacksPublicKey X.Point)}
    {s : StacksTransactionSigner X} (h : Signing tx start okeys skeys s)
    (horigin : ∃ data, tx.auth.origin.unsigned = .singlesig data) (hokeys : okeys ≠ [])
    (hsponsor : ∀ c ∈ tx.auth.sponsor, (∃ data, c.unsigned = .singlesig data) ∧ skeys ≠ [] ∧ s.originDone = true) :
    s.complete = .ok true := by
  obtain ⟨d, hd⟩ := horigin
  obtain h | ⟨o, p, cur, hunsigned, hsigned, h⟩ := h
  · have hsame : s.tx.auth.origin.unsigned = .singlesig d := by
      rw [← hd, ← TransactionAuth.unsigned_origin, h.unsigned, TransactionAuth.unsigned_origin]
    have hfull := full_of_signed h.origin hokeys ⟨d, hsame⟩
    cases hauth : s.tx.auth with
    | standard o =>
      rw [hauth] at hfull
      rw [StacksTransactionSigner.complete]
      simp only [hauth]
      exact hfull
    | sponsored o p =>
      obtain ⟨c, hc, -⟩ := TransactionAuth.sponsor_of_unsigned (hauth ▸ h.unsigned)
      have hdone := h.done.symm.trans (hsponsor c hc).2.2
      cases hdone
  · obtain ⟨c, htx, hc, hsigned'⟩ := h.signed
    obtain ⟨p₀, hp₀, hsame₀⟩ := TransactionAuth.sponsor_of_unsigned hunsigned
    obtain ⟨⟨d', hd'⟩, hskeys, -⟩ := hsponsor p₀ hp₀
    have hsame : o.unsigned = .singlesig d := by
      rw [← hd, ← TransactionAuth.unsigned_origin, ← hunsigned]
      rfl
    have hfull := full_of_signed hsigned hokeys ⟨d, hsame⟩
    have hfull' := full_of_signed hsigned' hskeys ⟨d', hc.trans (hsame₀.symm.trans hd')⟩
    rw [StacksTransactionSigner.complete, htx]
    simp only [hfull, hfull', h.done]
    rfl

/-- what `serialize_sign_tx` makes of its arguments, before it signs -/
structure MadeFor (sender : StacksPrivateKey) (payer : Option StacksPrivateKey) (senderNonce : UInt64)
    (payerNonce : Option UInt64) (txFee : UInt64) (a : TransactionAuth X) : Prop where
  origin : OneKey sender a.origin
  nonce : a.getOriginNonce = senderNonce
  fee : a.getTxFee = txFee
  /-- a payer counts only with its nonce -/
  kind : (∃ p n c, payer = some p ∧ payerNonce = some n ∧ a = .sponsored a.origin c ∧ OneKey p c ∧ c.nonce = n) ∨
    ((payer = none ∨ payerNonce = none) ∧ a = .standard a.origin)

theorem signTxAuth_ok {sender : StacksPrivateKey} {payer : Option StacksPrivateKey} {senderNonce : UInt64}
    {payerNonce : Option UInt64} {txFee : UInt64} {a : TransactionAuth X}
    (h : signTxAuth sender payer senderNonce payerNonce txFee X = .ok a) :
    MadeFor sender payer senderNonce payerNonce txFee a := by
  obtain ⟨c, hc, hrest⟩ := bind_eq_ok.1 h
  obtain ⟨signer, -, hdata⟩ := expectP2pkh_ok hc
  have hplain : payer = none ∨ payerNonce = none →
      MadeFor sender payer senderNonce payerNonce txFee (.standard ((c.setNonce senderNonce).setTxFee txFee)) :=
    fun hnone => ⟨(oneKey_of_expect hc senderNonce txFee).2, by rw [hdata]; rfl, by rw [hdata]; rfl, .inr ⟨hnone, rfl⟩⟩
  cases payer with
  | none =>
    obtain rfl := Except.ok.inj hrest
    exact hplain (.inl rfl)
  | some p =>
    cases payerNonce with
    | none =>
      obtain rfl := Except.ok.inj hrest
      exact hplain (.inr rfl)
    | some n =>
      obtain ⟨c', hc', ha⟩ := bind_eq_ok.1 hrest
      obtain rfl := Except.ok.inj ha
      obtain ⟨signer', -, hdata'⟩ := expectP2pkh_ok hc'
      refine ⟨(oneKey_of_expect hc senderNonce txFee).1, by rw [hdata]; rfl, by rw [hdata']; rfl, .inl ?_⟩
      exact ⟨p, n, _, rfl, rfl, rfl, (oneKey_of_expect hc' n txFee).2, by rw [hdata']; rfl⟩

theorem MadeFor.unsigned {sender : StacksPrivateKey} {payer : Option StacksPrivateKey} {senderNonce : UInt64}
    {payerNonce : Option UInt64} {txFee : UInt64} {a : TransactionAuth X}
    (h : MadeFor sender payer senderNonce payerNonce txFee a) : a.unsigned = a := by
  obtain ⟨p, n, c, -, -, ha, hc, -⟩ | ⟨-, ha⟩ := h.kind
  · rw [ha]
    exact congrArg₂ TransactionAuth.sponsored h.origin.2.2.1 hc.2.2.1
  · rw [ha]
    exact congrArg TransactionAuth.standard h.origin.2.2.1

section Made

variable {version : TransactionVersion} {payload : TransactionPayload X} {sender : StacksPrivateKey}
  {payer : Option StacksPrivateKey} {senderNonce : UInt64} {payerNonce : Option UInt64} {txFee : UInt64}
  {postConditionMode : TransactionPostConditionMode} {postConditions : List (TransactionPostCondition X)}

theorem Signing.signer_checked {tx : StacksTransaction X} {start : Txid} {okeys skeys : List (StacksPublicKey X.Point)}
    {s : StacksTransactionSigner X} (h : Signing tx start okeys skeys s) : s.Checked := by
  obtain h | ⟨_, _, _, -, -, h⟩ := h
  · exact h.checked
  · exact h.checked

/-- once the keys have signed, the signer is complete and its transaction verifies -/
theorem signKeys_complete (hS : SigningLaws X) {tx : StacksTransaction X} {s s' : StacksTransactionSigner X}
    (hmade : MadeFor sender payer senderNonce payerNonce txFee tx.auth)
    (hnew : StacksTransactionSigner.new tx = .ok s) (hsign : signKeys sender payer payerNonce s = .ok s') :
    s'.getTx = .ok (some s'.tx) ∧ s'.tx.verify = .ok () ∧ s'.tx = { tx with auth := s'.tx.auth } ∧
      s'.tx.auth.unsigned = tx.auth := by
  obtain ⟨howned, hencodes, hunsigned, hdata⟩ := hmade.origin
  obtain ⟨start, hstart, h⟩ := Signing.new hmade.unsigned hnew
  obtain ⟨s₁, hs₁, hrest⟩ := bind_eq_ok.1 hsign
  have henc₁ : (SignerOp.signOrigin sender).Encoded tx.auth := hencodes
  have h₁ := h.step hS henc₁ hs₁
  have horigin : ∃ data, tx.auth.origin.unsigned = .singlesig data := hunsigned.symm ▸ hdata
  obtain ⟨p, n, c, rfl, rfl, ha, hc, -⟩ | ⟨hnone, ha⟩ := hmade.kind
  · have hmem : ∀ c' ∈ tx.auth.sponsor, c' = c := by
      rw [ha]
      exact fun c' hc' => (Option.some.inj hc').symm
    have hs' : s₁.signSponsor p = .ok s' := hrest
    have henc₂ : (SignerOp.signSponsor p).Encoded tx.auth := fun c' hc' => hmem c' hc' ▸ hc.2.1
    have h₂ := h₁.step hS henc₂ hs'
    have hdone : s'.originDone = true := by
      obtain ⟨_, _, -, -, _, _, -, rfl⟩ := StacksTransactionSigner.signSponsor_ok (h₁.signer_checked) hs'
      rfl
    have hcomplete : s'.complete = .ok true := by
      refine h₂.complete horigin (List.cons_ne_nil _ _) fun c' hc' => ?_
      rw [hmem c' hc', hc.2.2.1]
      exact ⟨hc.2.2.2, List.cons_ne_nil _ _, hdone⟩
    obtain ⟨hiff, hother, hsame⟩ := h₂.verify_iff hstart (getTx_of_complete hcomplete)
    refine ⟨getTx_of_complete hcomplete, hiff.2 ⟨howned, fun c' hc' => ?_⟩, hother, hsame.trans hmade.unsigned⟩
    rw [hmem c' hc']
    exact hc.1
  · have hs' : s₁ = s' := by
      obtain rfl | rfl := hnone
      · exact Except.ok.inj hrest
      · cases payer <;> exact Except.ok.inj hrest
    subst hs'
    have hsponsor : tx.auth.sponsor = none := by
      rw [ha]
      rfl
    have hcomplete : s₁.complete = .ok true :=
      h₁.complete horigin (List.cons_ne_nil _ _) (by rw [hsponsor]; exact fun c hc => nomatch hc)
    obtain ⟨hiff, hother, hsame⟩ := h₁.verify_iff hstart (getTx_of_complete hcomplete)
    refine ⟨getTx_of_complete hcomplete, hiff.2 ⟨howned, ?_⟩, hother, hsame.trans hmade.unsigned⟩
    rw [hsponsor]
    exact fun c hc => nomatch hc

/-- **What is made.** A transaction made here verifies. It has the chain of its network, the nonces and the fee that
were asked for, and a sponsor exactly when both a payer and its nonce are given. -/
theorem serializeSignTx_ok (hS : SigningLaws X) {tx : StacksTransaction X}
    (h : serializeSignTx version payload sender payer senderNonce payerNonce txFee postConditionMode postConditions =
      .ok tx) :
    tx.verify = .ok () ∧
      tx = unsignedTx version payload postConditionMode postConditions tx.auth ∧
      tx.auth.getOriginNonce = senderNonce ∧ tx.auth.getTxFee = txFee ∧
      tx.auth.getSponsorNonce = payer.bind fun _ => payerNonce := by
  obtain ⟨a, ha, h₁⟩ := bind_eq_ok.1 h
  obtain ⟨s, hs, h₂⟩ := bind_eq_ok.1 h₁
  obtain ⟨s', hs', h₃⟩ := bind_eq_ok.1 h₂
  have hmade := signTxAuth_ok ha
  obtain ⟨hget, hverify, hother, hunsigned⟩ := signKeys_complete hS hmade hs hs'
  obtain ⟨o, ho, h₄⟩ := bind_eq_ok.1 h₃
  obtain rfl := Except.ok.inj (hget.symm.trans ho)
  obtain rfl := Except.ok.inj h₄
  have ha' : s'.tx.auth.unsigned = a := hunsigned
  refine ⟨hverify, hother, ?_, ?_, ?_⟩
  · rw [← getOriginNonce_unsigned, ha', hmade.nonce]
  · rw [← getTxFee_unsigned, ha', hmade.fee]
  · rw [← getSponsorNonce_unsigned, ha']
    obtain ⟨p, n, c, rfl, rfl, ha, -, hn⟩ | ⟨hnone, ha⟩ := hmade.kind
    · rw [ha]
      exact congrArg some hn
    · rw [ha]
      obtain rfl | rfl := hnone
      · rfl
      · cases payer <;> rfl

theorem expectP2pkh_exists {key : StacksPublicKey X.Point}
    (h : ∃ a, X.fromPublicKeys .serializeP2PKH 1 [key] = some a) : ∃ c, expectP2pkh key = .ok c := by
  obtain ⟨signer, haddr⟩ := h
  refine ⟨.singlesig ⟨.p2pkh, signer, 0, 0, .ofBool key.compressed, MessageSignature.empty⟩, ?_⟩
  rw [expectP2pkh, TransactionSpendingCondition.newSinglesigP2pkh, haddr]
  rfl

/-- singlesig conditions can always be written -/
theorem unsignedTx_writes (version : TransactionVersion) (postConditionMode : TransactionPostConditionMode)
    {a : TransactionAuth X} (ha : MadeFor sender payer senderNonce payerNonce txFee a)
    (hpayload : ∃ b, payload.consensusSerialize = .ok b)
    (hpcs : ∃ b, X.vecEnc TransactionPostCondition.consensusSerialize postConditions = .ok b) :
    ∃ s, StacksTransactionSigner.new (unsignedTx version payload postConditionMode postConditions a) = .ok s := by
  obtain ⟨data, hdata⟩ := ha.origin.2.2.2
  obtain ⟨bp, hbp⟩ := hpayload
  obtain ⟨bs, hbs⟩ := hpcs
  have hauth : ∃ b, a.intoInitialSighashAuth.consensusSerialize = .ok b := by
    obtain ⟨p, n, c, -, -, heq, -⟩ | ⟨-, heq⟩ := ha.kind
    · rw [heq, hdata]
      exact ⟨_, rfl⟩
    · rw [heq, hdata]
      exact ⟨_, rfl⟩
  obtain ⟨ba, hba⟩ := hauth
  have htxid : ∃ start, (unsignedTx version payload postConditionMode postConditions a).signBegin = .ok start := by
    rw [StacksTransaction.signBegin, StacksTransaction.txid, StacksTransaction.consensusSerialize]
    simp only [unsignedTx, StacksTransaction.new, hba, hbp, hbs]
    exact ⟨_, rfl⟩
  obtain ⟨start, hstart⟩ := htxid
  exact ⟨_, bind_eq_ok.2 ⟨start, hstart, rfl⟩⟩

theorem full_of_oneKey {c : TransactionSpendingCondition X} {privk : StacksPrivateKey} (h : OneKey privk c) :
    StacksTransactionSigner.full c = .ok false := by
  obtain ⟨-, -, hunsigned, data, rfl⟩ := h
  have hempty : data.signature = MessageSignature.empty :=
    (congrArg SinglesigSpendingCondition.signature (TransactionSpendingCondition.singlesig.inj hunsigned)).symm
  rw [StacksTransactionSigner.full, TransactionSpendingCondition.numSignatures, if_neg (not_not.2 hempty)]
  rfl

theorem signAndAppend_exists (c : TransactionSpendingCondition X) (cur : Txid) (code : TransactionAuthFlags)
    {privk : StacksPrivateKey} (hsign : ∀ hash, ∃ sig, X.signHash privk.key hash = .ok sig) :
    ∃ r, StacksTransaction.signAndAppend c cur code privk = .ok r := by
  obtain ⟨sig, hsig⟩ := hsign (TransactionSpendingCondition.makeSighashPresign X cur code c.txFee c.nonce)
  have hnext := TransactionSpendingCondition.nextSignature_ok.2 ⟨hsig, rfl⟩
  cases c with
  | singlesig data => exact ⟨_, bind_eq_ok.2 ⟨_, hnext, rfl⟩⟩
  | multisig data => exact ⟨_, bind_eq_ok.2 ⟨_, hnext, rfl⟩⟩
  | orderIndependentMultisig data => exact ⟨_, bind_eq_ok.2 ⟨_, hnext, rfl⟩⟩

theorem signKeys_exists {tx : StacksTransaction X} {s : StacksTransactionSigner X}
    (hmade : MadeFor sender payer senderNonce payerNonce txFee tx.auth) (hnew : StacksTransactionSigner.new tx = .ok s)
    (hsign : ∀ p ∈ sender :: payer.toList, ∀ hash, ∃ sig, X.signHash p.key hash = .ok sig) :
    ∃ s', signKeys sender payer payerNonce s = .ok s' := by
  obtain ⟨start, -, hs⟩ := bind_eq_ok.1 hnew
  obtain rfl := Except.ok.inj hs
  obtain ⟨⟨o, next⟩, ho⟩ := signAndAppend_exists tx.auth.origin start .authStandard
    (hsign sender List.mem_cons_self)
  have hfull : (⟨tx, start, false, true, true⟩ : StacksTransactionSigner X).oversigned tx.auth.origin = .ok false :=
    full_of_oneKey hmade.origin
  have horigin : (⟨tx, start, false, true, true⟩ : StacksTransactionSigner X).signOrigin sender =
      .ok ⟨{ tx with auth := tx.auth.setOrigin o }, next, false, true, true⟩ := by
    rw [StacksTransactionSigner.signOrigin, if_neg (by simp)]
    exact bind_eq_ok.2 ⟨false, hfull, bind_eq_ok.2 ⟨_, bind_eq_ok.2 ⟨_, ho, rfl⟩, rfl⟩⟩
  obtain ⟨p, n, c, rfl, rfl, ha, hc, -⟩ | ⟨hnone, ha⟩ := hmade.kind
  · obtain ⟨⟨c', next'⟩, hc'⟩ := signAndAppend_exists c next .authSponsored
      (hsign p (List.mem_cons_of_mem _ (List.mem_singleton_self p)))
    have hauth : tx.auth.setOrigin o = .sponsored o c := by
      rw [ha]
      rfl
    have hfull' : (⟨{ tx with auth := .sponsored o c }, next, false, true, true⟩ :
        StacksTransactionSigner X).oversigned c = .ok false := full_of_oneKey hc
    rw [hauth] at horigin
    refine ⟨⟨{ tx with auth := .sponsored o c' }, next', true, true, true⟩, bind_eq_ok.2 ⟨_, horigin, ?_⟩⟩
    refine bind_eq_ok.2 ⟨false, hfull', ?_⟩
    exact bind_eq_ok.2 ⟨_, bind_eq_ok.2 ⟨_, hc', rfl⟩, rfl⟩
  · refine ⟨⟨{ tx with auth := tx.auth.setOrigin o }, next, false, true, true⟩, bind_eq_ok.2 ⟨_, horigin, ?_⟩⟩
    obtain rfl | rfl := hnone
    · rfl
    · cases payer <;> rfl

/-- **Making and signing.** With keys that have addresses and can sign, and with contents that can be written, a
transaction is made; it is never left incomplete. It verifies, and it is what was asked for. -/
theorem serializeSignTx_succeeds (hS : SigningLaws X)
    (haddr : ∀ p ∈ sender :: payer.toList, ∃ a, X.fromPublicKeys .serializeP2PKH 1 [.fromPrivate X p] = some a)
    (hsign : ∀ p ∈ sender :: payer.toList, ∀ hash, ∃ sig, X.signHash p.key hash = .ok sig)
    (hpayload : ∃ b, payload.consensusSerialize = .ok b)
    (hpcs : ∃ b, X.vecEnc TransactionPostCondition.consensusSerialize postConditions = .ok b) :
    ∃ tx, serializeSignTx version payload sender payer senderNonce payerNonce txFee postConditionMode postConditions =
        .ok tx ∧ tx.verify = .ok () ∧
      tx = unsignedTx version payload postConditionMode postConditions tx.auth ∧
      tx.auth.getOriginNonce = senderNonce ∧ tx.auth.getTxFee = txFee ∧
      tx.auth.getSponsorNonce = payer.bind fun _ => payerNonce := by
  have hauth : ∃ a, signTxAuth sender payer senderNonce payerNonce txFee X = .ok a := by
    obtain ⟨c, hc⟩ := expectP2pkh_exists (haddr sender List.mem_cons_self)
    cases payer with
    | none => exact ⟨_, bind_eq_ok.2 ⟨c, hc, rfl⟩⟩
    | some p =>
      cases payerNonce with
      | none => exact ⟨_, bind_eq_ok.2 ⟨c, hc, rfl⟩⟩
      | some n =>
        obtain ⟨c', hc'⟩ := expectP2pkh_exists (haddr p (List.mem_cons_of_mem _ (List.mem_singleton_self p)))
        exact ⟨_, bind_eq_ok.2 ⟨c, hc, bind_eq_ok.2 ⟨c', hc', rfl⟩⟩⟩
  obtain ⟨a, ha⟩ := hauth
  have hmade := signTxAuth_ok ha
  obtain ⟨s, hs⟩ := unsignedTx_writes version postConditionMode hmade hpayload hpcs
  obtain ⟨s', hs'⟩ := signKeys_exists hmade hs hsign
  have hget := (signKeys_complete hS hmade hs hs').1
  have hmake : serializeSignTx version payload sender payer senderNonce payerNonce txFee postConditionMode
      postConditions = .ok s'.tx := by
    refine bind_eq_ok.2 ⟨a, ha, bind_eq_ok.2 ⟨s, hs, bind_eq_ok.2 ⟨s', hs', ?_⟩⟩⟩
    rw [hget]
    rfl
  exact ⟨s'.tx, hmake, serializeSignTx_ok hS hmake⟩

end Made

/-- a key pays for the transfer of another -/
def paidByAnother : Except Fault (StacksTransaction X3) :=
  serializeSignTx .testnet (.tokenTransfer (.standard ⟨26, 9⟩) 100 0) (keyOf 1) (some (keyOf 3)) 4 (some 9) 500 .deny []

theorem paidByAnother_verifies : ∃ tx, paidByAnother = .ok tx ∧ tx.verify = .ok () := by
  obtain ⟨tx, htx, hverify, -⟩ : ∃ tx, paidByAnother = .ok tx ∧ tx.verify = .ok () ∧ _ :=
    serializeSignTx_succeeds X3_signingLaws (fun _ _ => ⟨_, rfl⟩) (fun _ _ _ => ⟨_, rfl⟩) ⟨_, rfl⟩ ⟨_, rfl⟩
  exact ⟨tx, htx, hverify⟩

/-- `ContractName::from` and `ClarityName::from` panic on a name that is not allowed -/
def makeContractCall (X : TxExt) (mainnet : Bool) (sender : StacksPrivateKey) (nonce txFee : UInt64)
    (contractAddr : StacksAddress) (contractName functionName : String) (functionArgs : List X.Value)
    (postConditionMode : TransactionPostConditionMode) (postConditions : List (TransactionPostCondition X)) :
    Except Fault (StacksTransaction X) :=
  if X.isContractName contractName = false then .error (.panicked "ContractName::from")
  else if h : X.isClarityName functionName = true then
    serializeSignTx (if mainnet then .mainnet else .testnet)
      (.contractCall ⟨contractAddr, contractName, ⟨functionName, h⟩, functionArgs⟩) sender none nonce none txFee
      postConditionMode postConditions
  else .error (.panicked "ClarityName::from")

def makeContractPublishVersioned (X : TxExt) (mainnet : Bool) (sender : StacksPrivateKey) (nonce txFee : UInt64)
    (contractName contractContent : String) (version : Option ClarityVersion)
    (postConditionMode : TransactionPostConditionMode) (postConditions : List (TransactionPostCondition X)) :
    Except Fault (StacksTransaction X) :=
  if X.isContractName contractName = false then .error (.panicked "ContractName::from")
  else
    match StacksString.fromStr contractContent with
    | none => .error (.error (.codec (.deserializeError "Failer to decode string to StackString")))
    | some codeBody =>
      serializeSignTx (if mainnet then .mainnet else .testnet) (.smartContract ⟨contractName, codeBody⟩ version) sender
        none nonce none txFee postConditionMode postConditions

def makeContractPublish (X : TxExt) (mainnet : Bool) (sender : StacksPrivateKey) (nonce txFee : UInt64)
    (contractName contractContent : String) (postConditionMode : TransactionPostConditionMode)
    (postConditions : List (TransactionPostCondition X)) : Except Fault (StacksTransaction X) :=
  makeContractPublishVersioned X mainnet sender nonce txFee contractName contractContent none postConditionMode
    postConditions

/-- what is made here is read back from its bytes, if what it calls or publishes can be -/
theorem serializeSignTx_readsBack (hX : TxLaws X) (hS : SigningLaws X) {version : TransactionVersion}
    {payload : TransactionPayload X} {sender : StacksPrivateKey} {nonce txFee : UInt64}
    {postConditionMode : TransactionPostConditionMode} {postConditions : List (TransactionPostCondition X)}
    {tx : StacksTransaction X}
    (h : serializeSignTx version payload sender none nonce none txFee postConditionMode postConditions = .ok tx)
    (hbody : tx.BodyWf) (hfit : Fits tx.consensusSerialize MAX_TRANSACTION_LEN) :
    ReadsBack tx.consensusSerialize (StacksTransaction.consensusDeserialize X) tx := by
  obtain ⟨hverify, -⟩ := serializeSignTx_ok hS h
  obtain ⟨start, -, hauth⟩ := bind_eq_ok.1 hverify
  obtain ⟨a, ha, h₁⟩ := bind_eq_ok.1 h
  obtain ⟨s, hs, h₂⟩ := bind_eq_ok.1 h₁
  obtain ⟨s', hs', h₃⟩ := bind_eq_ok.1 h₂
  have hmade := signTxAuth_ok ha
  obtain ⟨hget, -, -, hunsigned⟩ := signKeys_complete hS hmade hs hs'
  obtain ⟨o, ho, h₄⟩ := bind_eq_ok.1 h₃
  obtain rfl := Except.ok.inj (hget.symm.trans ho)
  obtain rfl := Except.ok.inj h₄
  have ha' : s'.tx.auth.unsigned = a := hunsigned
  obtain ⟨_, _, _, hnone, -⟩ | ⟨-, hplain⟩ := hmade.kind
  · exact nomatch hnone
  · obtain ⟨data, hdata⟩ := hmade.origin.2.2.2
    have hfields : s'.tx.auth.origin.fields = [] := by
      have hsame : s'.tx.auth.origin.unsigned = .singlesig data := by
        rw [← TransactionAuth.unsigned_origin, ha', hdata]
      cases horigin : s'.tx.auth.origin with
      | singlesig d => rfl
      | multisig d => exact nomatch horigin ▸ hsame
      | orderIndependentMultisig d => exact nomatch horigin ▸ hsame
    have hsponsor : s'.tx.auth.sponsor = none := by
      have hmap := TransactionAuth.unsigned_sponsor s'.tx.auth
      rw [ha', hplain] at hmap
      exact Option.map_eq_none_iff.1 hmap.symm
    have hwf : s'.tx.auth.Wf := by
      refine TransactionAuth.wf_of_verify hS hauth (hfields ▸ Nat.zero_le _) ?_
      rw [hsponsor]
      exact fun c hc => nomatch hc
    obtain ⟨b, hb, -, hread⟩ := StacksTransaction.readsBack hX (hbody.with hwf) hfit
    exact ⟨b, hb, hread⟩

/-- **A contract call on its way to a node.** Whenever `make_contract_call` makes a transaction of well-formed contents
within the limits of its reader, the bytes that are posted are read as that transaction: the call that was asked for,
signed by the sender with the nonce and the fee that were given, and it verifies. -/
theorem makeContractCall_posted (hX : TxLaws X) (hS : SigningLaws X) {mainnet : Bool} {sender : StacksPrivateKey}
    {nonce txFee : UInt64} {contractAddr : StacksAddress} {contractName functionName : String}
    {functionArgs : List X.Value} {postConditionMode : TransactionPostConditionMode}
    {postConditions : List (TransactionPostCondition X)} {tx : StacksTransaction X}
    (h : makeContractCall X mainnet sender nonce txFee contractAddr contractName functionName functionArgs
      postConditionMode postConditions = .ok tx)
    (haddr : X.stacksAddress.RoundTrips contractAddr) (hcontract : NameOk X contractName)
    (hfunction : ∀ name : ClarityName X, name.1 = functionName → ClarityNameOk name)
    (hargs : functionArgs.length ≤ X.maxFunctionArgs ∧ ∀ v ∈ functionArgs, X.value.RoundTrips v)
    (hpcs : postConditions.length ≤ X.maxPostConditions ∧ ∀ pc ∈ postConditions, pc.Wf)
    (hfit : Fits tx.consensusSerialize MAX_TRANSACTION_LEN) :
    ReadsBack tx.consensusSerialize (StacksTransaction.consensusDeserialize X) tx ∧ tx.verify = .ok () ∧
      tx.auth.getOriginNonce = nonce ∧ tx.auth.getTxFee = txFee ∧ tx.auth.sponsor = none ∧
      tx.chainId = (if mainnet then CHAIN_ID_MAINNET else CHAIN_ID_TESTNET) ∧ tx.postConditions = postConditions ∧
      ∃ name : ClarityName X, name.1 = functionName ∧
        tx.payload = .contractCall ⟨contractAddr, contractName, name, functionArgs⟩ := by
  unfold makeContractCall at h
  split at h
  · exact nomatch h
  · split at h
    · next hname =>
      obtain ⟨hverify, hother, hnonce, hfee, hsponsor⟩ := serializeSignTx_ok hS h
      have hbody : tx.BodyWf := by
        rw [hother]
        exact ⟨hpcs.1, hpcs.2, haddr, hcontract, hfunction ⟨functionName, hname⟩ rfl, hargs.1, hargs.2⟩
      have hread := serializeSignTx_readsBack hX hS h hbody hfit
      refine ⟨hread, hverify, hnonce, hfee, Option.map_eq_none_iff.1 hsponsor, ?_⟩
      rw [hother]
      refine ⟨?_, rfl, ⟨functionName, hname⟩, rfl, rfl⟩
      cases mainnet <;> rfl
    · exact nomatch h

/-- a call of `name-preorder` with one argument, on the test network -/
def preorder : Except Fault (StacksTransaction X3) :=
  makeContractCall X3 false (keyOf 1) 4 180 ⟨26, 9⟩ "bns" "name-preorder" [(7 : UInt64)] .deny []

theorem preorder_made : preorder = .ok (preorder.toOption.getD byOneKey) := by
  have hmade : preorder.toOption.isSome = true := by decide +kernel
  cases h : preorder with
  | error e =>
    rw [h] at hmade
    exact nomatch hmade
  | ok tx => rfl

/-- the bytes of the call are read as the call -/
theorem preorder_posted : ReadsBack (preorder.toOption.getD byOneKey).consensusSerialize
    (StacksTransaction.consensusDeserialize X3) (preorder.toOption.getD byOneKey) := by
  have hfit : Fits (preorder.toOption.getD byOneKey).consensusSerialize MAX_TRANSACTION_LEN := by decide +kernel
  refine (makeContractCall_posted X3_txLaws X3_signingLaws preorder_made (Reference.stacksAddress_roundTrips _)
    ⟨_, rfl⟩ ?_ ⟨by decide, fun v _ => X0_codecLaws.u64 v⟩ ⟨by decide, ?_⟩ hfit).1
  · exact fun name _ => ⟨_, if_pos (of_decide_eq_true name.2)⟩
  · exact fun pc hpc => absurd hpc List.not_mem_nil

end Wrb.Tx
