/-
The transaction signer (`src/tx/transaction.rs`, `StacksTransactionSigner`) as a state machine.

A signer holds a transaction and the sighash that the next key must sign. Origin keys sign or are appended first, then
those of the sponsor; an operation that fails leaves the signer as it was. Here are its operations, what each of them
does when it succeeds, and the first invariant: no condition gets more signatures than it needs.

Result: `run_no_panic`: over every run of signing and appending operations, in any order, failed ones included, the
count of signatures does not overflow, so that nothing panics. What a run signs is the subject of `Wrb.Tx.Completed`.
-/
import Wrb.Lib.Runs
import Wrb.Tx.Auth

namespace Wrb.Tx

open Wrb.Wire Wrb.Storage Wrb.Runner Wrb.Net Wrb.Runs

variable {X : TxExt}

/-! ## Model -/

namespace TransactionAuth

/-- the authorization with another origin condition -/
def setOrigin (a : TransactionAuth X) (origin : TransactionSpendingCondition X) : TransactionAuth X :=
  match a with
  | standard _ => standard origin
  | sponsored _ sponsor => sponsored origin sponsor

end TransactionAuth

namespace StacksTransaction

/-- sign a sighash and append the signature to the condition -/
def signAndAppend (condition : TransactionSpendingCondition X) (curSighash : Txid) (authFlag : TransactionAuthFlags)
    (privk : StacksPrivateKey) : Except Fault (TransactionSpendingCondition X × Txid) := do
  let (nextSig, nextSighash) ←
    TransactionSpendingCondition.nextSignature X curSighash authFlag condition.txFee condition.nonce privk
  match condition with
  | .singlesig cond => pure (.singlesig (cond.setSignature nextSig), nextSighash)
  | .multisig cond => pure (.multisig (cond.pushSignature (.ofBool privk.compressPublic) nextSig), nextSighash)
  | .orderIndependentMultisig cond =>
    pure (.orderIndependentMultisig (cond.pushSignature (.ofBool privk.compressPublic) nextSig), curSighash)

def appendPubkey (condition : TransactionSpendingCondition X) (pubkey : StacksPublicKey X.Point) :
    Except Fault (TransactionSpendingCondition X) :=
  match condition with
  | .multisig cond => .ok (.multisig (cond.pushPublicKey pubkey))
  | .orderIndependentMultisig cond => .ok (.orderIndependentMultisig (cond.pushPublicKey pubkey))
  | .singlesig _ => .error (.error (.signingError "Not a multisig condition"))

def signNextOrigin (tx : StacksTransaction X) (curSighash : Txid) (privk : StacksPrivateKey) :
    Except Fault (StacksTransaction X × Txid) := do
  let (origin, nextSighash) ← signAndAppend tx.auth.origin curSighash .authStandard privk
  pure ({ tx with auth := tx.auth.setOrigin origin }, nextSighash)

def appendNextOrigin (tx : StacksTransaction X) (pubk : StacksPublicKey X.Point) :
    Except Fault (StacksTransaction X) := do
  let origin ← appendPubkey tx.auth.origin pubk
  pure { tx with auth := tx.auth.setOrigin origin }

def signNextSponsor (tx : StacksTransaction X) (curSighash : Txid) (privk : StacksPrivateKey) :
    Except Fault (StacksTransaction X × Txid) :=
  match tx.auth with
  | .standard _ =>
    .error (.error (.signingError "Cannot sign standard authorization with a sponsoring private key"))
  | .sponsored origin sponsorCondition => do
    let (sponsor, nextSighash) ← signAndAppend sponsorCondition curSighash .authSponsored privk
    pure ({ tx with auth := .sponsored origin sponsor }, nextSighash)

def appendNextSponsor (tx : StacksTransaction X) (pubk : StacksPublicKey X.Point) :
    Except Fault (StacksTransaction X) :=
  match tx.auth with
  | .standard _ =>
    .error (.error (.signingError "Cannot appned a public key to the sponsor of a standard auth condition"))
  | .sponsored origin sponsorCondition => do
    let sponsor ← appendPubkey sponsorCondition pubk
    pure { tx with auth := .sponsored origin sponsor }

end StacksTransaction

structure StacksTransactionSigner (X : TxExt) where
  tx : StacksTransaction X
  sighash : Txid
  originDone : Bool
  checkOversign : Bool
  checkOverlap : Bool

namespace StacksTransactionSigner

def new (tx : StacksTransaction X) : Except Fault (StacksTransactionSigner X) := do
  let sighash ← tx.signBegin
  pure ⟨tx, sighash, false, true, true⟩

/-- there is no room for another signature -/
def full (c : TransactionSpendingCondition X) : Except Fault Bool := do
  let numSignatures ← c.numSignatures
  pure (c.signaturesRequired ≤ numSignatures)

/-- the check before a signature, which is made only when the signer checks for too many -/
def oversigned (s : StacksTransactionSigner X) (c : TransactionSpendingCondition X) : Except Fault Bool :=
  if s.checkOversign then full c else pure false

def signOrigin (s : StacksTransactionSigner X) (privk : StacksPrivateKey) :
    Except Fault (StacksTransactionSigner X) := do
  -- can't sign another origin private key since we started signing sponsors
  if s.checkOverlap && s.originDone then throw (.error (.signingError "Cannot sign origin after sponsor key"))
  else if ← s.oversigned s.tx.auth.origin then
    throw (.error (.signingError "Origin would have too many signatures"))
  else
    let (tx, nextSighash) ← s.tx.signNextOrigin s.sighash privk
    pure { s with tx, sighash := nextSighash }

def appendOrigin (s : StacksTransactionSigner X) (pubk : StacksPublicKey X.Point) :
    Except Fault (StacksTransactionSigner X) := do
  if s.checkOverlap && s.originDone then
    throw (.error (.signingError "Cannot append public key to origin after sponsor key"))
  else
    let tx ← s.tx.appendNextOrigin pubk
    pure { s with tx }

def signSponsor (s : StacksTransactionSigner X) (privk : StacksPrivateKey) :
    Except Fault (StacksTransactionSigner X) := do
  let tooMany ← s.tx.auth.sponsor.elim (pure false) s.oversigned
  if tooMany then throw (.error (.signingError "Sponsor would have too many signatures"))
  else
    let (tx, nextSighash) ← s.tx.signNextSponsor s.sighash privk
    pure { s with tx, sighash := nextSighash, originDone := true }

def appendSponsor (s : StacksTransactionSigner X) (pubk : StacksPublicKey X.Point) :
    Except Fault (StacksTransactionSigner X) := do
  let tx ← s.tx.appendNextSponsor pubk
  pure { s with tx }

def complete (s : StacksTransactionSigner X) : Except Fault Bool :=
  match s.tx.auth with
  | .standard originCondition => full originCondition
  | .sponsored originCondition sponsoredCondition => do
    if ← full originCondition then
      if ← full sponsoredCondition then pure (s.originDone || !s.checkOverlap) else pure false
    else pure false

def getTx (s : StacksTransactionSigner X) : Except Fault (Option (StacksTransaction X)) := do
  pure (if ← s.complete then some s.tx else none)

end StacksTransactionSigner

/-! ## Runs -/

inductive SignerOp (X : TxExt) where
  | signOrigin (privk : StacksPrivateKey)
  | appendOrigin (pubk : StacksPublicKey X.Point)
  | signSponsor (privk : StacksPrivateKey)
  | appendSponsor (pubk : StacksPublicKey X.Point)

namespace SignerOp

def perform (s : StacksTransactionSigner X) : SignerOp X → Except Fault (StacksTransactionSigner X)
  | signOrigin privk => s.signOrigin privk
  | appendOrigin pubk => s.appendOrigin pubk
  | signSponsor privk => s.signSponsor privk
  | appendSponsor pubk => s.appendSponsor pubk

/-- the key that the operation uses for the origin -/
def originKey : SignerOp X → Option (StacksPublicKey X.Point)
  | signOrigin privk => some (.fromPrivate X privk)
  | appendOrigin pubk => some pubk
  | _ => none

def sponsorKey : SignerOp X → Option (StacksPublicKey X.Point)
  | signSponsor privk => some (.fromPrivate X privk)
  | appendSponsor pubk => some pubk
  | _ => none

end SignerOp

/-- an operation on a signer, and on the list of those that were carried out; one that fails changes nothing -/
def signerStep (g : StacksTransactionSigner X × List (SignerOp X)) (op : SignerOp X) :
    StacksTransactionSigner X × List (SignerOp X) :=
  match op.perform g.1 with
  | .error _ => g
  | .ok s => (s, g.2 ++ [op])

/-- the condition without its keys and signatures -/
def TransactionSpendingCondition.unsigned : TransactionSpendingCondition X → TransactionSpendingCondition X
  | singlesig data => singlesig { data with signature := MessageSignature.empty }
  | multisig data => multisig { data with fields := [] }
  | orderIndependentMultisig data => orderIndependentMultisig { data with fields := [] }

def TransactionAuth.unsigned : TransactionAuth X → TransactionAuth X
  | standard origin => standard origin.unsigned
  | sponsored origin sponsor => sponsored origin.unsigned sponsor.unsigned

theorem TransactionAuth.unsigned_origin (a : TransactionAuth X) : a.unsigned.origin = a.origin.unsigned := by
  cases a <;> rfl

theorem TransactionAuth.unsigned_sponsor (a : TransactionAuth X) :
    a.unsigned.sponsor = a.sponsor.map TransactionSpendingCondition.unsigned := by
  cases a <;> rfl

theorem TransactionAuth.unsigned_sponsor_of {a : TransactionAuth X} (h : a.unsigned = a) :
    a.origin.unsigned = a.origin ∧ ∀ c ∈ a.sponsor, c.unsigned = c := by
  refine ⟨by rw [← TransactionAuth.unsigned_origin, h], fun c hc => ?_⟩
  have hsponsor := TransactionAuth.unsigned_sponsor a
  rw [h, Option.mem_def.1 hc] at hsponsor
  exact (Option.some.inj hsponsor).symm

theorem TransactionAuth.origin_setOrigin (a : TransactionAuth X) (c : TransactionSpendingCondition X) :
    (a.setOrigin c).origin = c := by
  cases a <;> rfl

theorem TransactionAuth.sponsor_setOrigin (a : TransactionAuth X) (c : TransactionSpendingCondition X) :
    (a.setOrigin c).sponsor = a.sponsor := by
  cases a <;> rfl

/-! ## One operation -/

namespace StacksTransactionSigner

variable {s s' : StacksTransactionSigner X} {privk : StacksPrivateKey} {pubk : StacksPublicKey X.Point}

/-- both checks are made, as they are unless they were switched off -/
structure Checked (s : StacksTransactionSigner X) : Prop where
  oversign : s.checkOversign = true
  overlap : s.checkOverlap = true

theorem room_of_oversigned (hs : s.Checked) {c : TransactionSpendingCondition X} (h : s.oversigned c = .ok false) :
    ∀ n, c.numSignatures = .ok n → n < c.signaturesRequired := by
  intro n hn
  rw [oversigned, if_pos hs.oversign, full, hn] at h
  have hle : decide (c.signaturesRequired ≤ n) = false := Except.ok.inj h
  exact not_le.1 (of_decide_eq_false hle)

theorem signOrigin_ok (hs : s.Checked) (h : s.signOrigin privk = .ok s') :
    s.originDone = false ∧ (∀ n, s.tx.auth.origin.numSignatures = .ok n → n < s.tx.auth.origin.signaturesRequired) ∧
      ∃ origin next, StacksTransaction.signAndAppend s.tx.auth.origin s.sighash .authStandard privk =
        .ok (origin, next) ∧
        s' = { s with tx := { s.tx with auth := s.tx.auth.setOrigin origin }, sighash := next } := by
  unfold signOrigin at h
  have hcheck : (s.checkOverlap && s.originDone) = s.originDone := by rw [hs.overlap, Bool.true_and]
  rw [hcheck] at h
  split_ifs at h with hdone
  obtain ⟨tooMany, hover, hrest⟩ := bind_eq_ok.1 h
  split_ifs at hrest with hfull
  obtain rfl : tooMany = false := by simpa using hfull
  obtain ⟨⟨tx, next⟩, hsign, hs'⟩ := bind_eq_ok.1 hrest
  obtain ⟨⟨origin, next'⟩, happ, htx⟩ := bind_eq_ok.1 hsign
  obtain ⟨rfl, rfl⟩ := Prod.mk.inj (Except.ok.inj htx)
  obtain rfl := Except.ok.inj hs'
  exact ⟨by simpa using hdone, room_of_oversigned hs hover, origin, _, happ, rfl⟩

theorem appendOrigin_ok (hs : s.Checked) (h : s.appendOrigin pubk = .ok s') :
    s.originDone = false ∧ ∃ origin, StacksTransaction.appendPubkey s.tx.auth.origin pubk = .ok origin ∧
      s' = { s with tx := { s.tx with auth := s.tx.auth.setOrigin origin } } := by
  unfold appendOrigin at h
  have hcheck : (s.checkOverlap && s.originDone) = s.originDone := by rw [hs.overlap, Bool.true_and]
  rw [hcheck] at h
  split_ifs at h with hdone
  obtain ⟨tx, happend, hs'⟩ := bind_eq_ok.1 h
  obtain ⟨origin, happ, htx⟩ := bind_eq_ok.1 happend
  obtain rfl := Except.ok.inj htx
  obtain rfl := Except.ok.inj hs'
  exact ⟨by simpa using hdone, origin, happ, rfl⟩

theorem signSponsor_ok (hs : s.Checked) (h : s.signSponsor privk = .ok s') :
    ∃ origin sponsor, s.tx.auth = .sponsored origin sponsor ∧
      (∀ n, sponsor.numSignatures = .ok n → n < sponsor.signaturesRequired) ∧
      ∃ sponsor' next, StacksTransaction.signAndAppend sponsor s.sighash .authSponsored privk = .ok (sponsor', next) ∧
        s' = { s with
          tx := { s.tx with auth := .sponsored origin sponsor' }, sighash := next, originDone := true } := by
  obtain ⟨tooMany, hover, hrest⟩ := bind_eq_ok.1 h
  split_ifs at hrest with hfull
  obtain rfl : tooMany = false := by simpa using hfull
  obtain ⟨⟨tx, next⟩, hsign, hs'⟩ := bind_eq_ok.1 hrest
  obtain rfl := Except.ok.inj hs'
  unfold StacksTransaction.signNextSponsor at hsign
  cases hauth : s.tx.auth with
  | standard origin =>
    simp only [hauth] at hsign
    exact nomatch hsign
  | sponsored origin sponsor =>
    simp only [hauth] at hsign hover
    obtain ⟨⟨sponsor', next'⟩, happ, htx⟩ := bind_eq_ok.1 hsign
    obtain ⟨rfl, rfl⟩ := Prod.mk.inj (Except.ok.inj htx)
    exact ⟨origin, sponsor, rfl, room_of_oversigned hs hover, sponsor', _, happ, rfl⟩

theorem appendSponsor_ok (h : s.appendSponsor pubk = .ok s') :
    ∃ origin sponsor, s.tx.auth = .sponsored origin sponsor ∧
      ∃ sponsor', StacksTransaction.appendPubkey sponsor pubk = .ok sponsor' ∧
        s' = { s with tx := { s.tx with auth := .sponsored origin sponsor' } } := by
  obtain ⟨tx, happend, hs'⟩ := bind_eq_ok.1 h
  obtain rfl := Except.ok.inj hs'
  unfold StacksTransaction.appendNextSponsor at happend
  cases hauth : s.tx.auth with
  | standard origin =>
    simp only [hauth] at happend
    exact nomatch happend
  | sponsored origin sponsor =>
    simp only [hauth] at happend
    obtain ⟨sponsor', happ, htx⟩ := bind_eq_ok.1 happend
    obtain rfl := Except.ok.inj htx
    exact ⟨origin, sponsor, rfl, sponsor', happ, rfl⟩

end StacksTransactionSigner

/-! ## Counting -/

/-- the room that the signer made sure of, said of the fields -/
theorem room_of_full {data : List (TransactionAuthField X)} {required : ℕ}
    (hroom : ∀ n, ((countSignatures 0 data).elim (.error (.panicked "Unreasonable amount of signatures")) .ok :
      Except Fault ℕ) = .ok n → n < required) :
    ∀ n, countSignatures 0 data = some n → n < required := by
  intro n hn
  exact hroom n (by rw [hn]; rfl)

theorem countSignatures_append (fs gs : List (TransactionAuthField X)) (n : ℕ) :
    countSignatures n (fs ++ gs) = (countSignatures n fs).bind fun m => countSignatures m gs := by
  induction fs generalizing n with
  | nil => rfl
  | cons f fs ih =>
    rw [List.cons_append, countSignatures, countSignatures]
    split_ifs
    · exact ih (n + 1)
    · rfl
    · exact ih n

/-- no more signatures than are required, so their number fits a `u16` -/
def Room (c : TransactionSpendingCondition X) : Prop := ∃ n, c.numSignatures = .ok n ∧ n ≤ c.signaturesRequired

/-- the fields of a multisig condition that has room -/
theorem room_fields {fs : List (TransactionAuthField X)} {required : ℕ} :
    (∃ n, ((countSignatures 0 fs).elim (.error (.panicked "Unreasonable amount of signatures")) .ok :
      Except Fault ℕ) = .ok n ∧ n ≤ required) ↔ ∃ n, countSignatures 0 fs = some n ∧ n ≤ required := by
  apply exists_congr
  intro n
  apply and_congr_left
  intro _
  cases countSignatures 0 fs with
  | none => exact iff_of_false (fun h => nomatch h) (fun h => nomatch h)
  | some m => exact ⟨fun h => congrArg some (Except.ok.inj h), fun h => congrArg Except.ok (Option.some.inj h)⟩

theorem countSignatures_publicKey {fs : List (TransactionAuthField X)} {n : ℕ} (h : countSignatures 0 fs = some n)
    (key : StacksPublicKey X.Point) : countSignatures 0 (fs ++ [.publicKey key]) = some n := by
  rw [countSignatures_append, h]
  rfl

theorem countSignatures_signature {fs : List (TransactionAuthField X)} {n : ℕ} (h : countSignatures 0 fs = some n)
    (hlt : n + 1 < 2 ^ 16) (enc : TransactionPublicKeyEncoding) (sig : MessageSignature) :
    countSignatures 0 (fs ++ [.signature enc sig]) = some (n + 1) := by
  rw [countSignatures_append, h]
  exact if_pos hlt

theorem Room.append {c c' : TransactionSpendingCondition X} {key : StacksPublicKey X.Point} (h : Room c)
    (hc : StacksTransaction.appendPubkey c key = .ok c') : Room c' := by
  cases c with
  | singlesig data => exact nomatch hc
  | multisig data =>
    obtain rfl := Except.ok.inj hc
    obtain ⟨n, hn, hle⟩ := room_fields.1 h
    exact room_fields.2 ⟨n, countSignatures_publicKey hn key, hle⟩
  | orderIndependentMultisig data =>
    obtain rfl := Except.ok.inj hc
    obtain ⟨n, hn, hle⟩ := room_fields.1 h
    exact room_fields.2 ⟨n, countSignatures_publicKey hn key, hle⟩

theorem Room.sign {c c' : TransactionSpendingCondition X} {cur next : Txid} {code : TransactionAuthFlags}
    {privk : StacksPrivateKey} (h : Room c) (hroom : ∀ n, c.numSignatures = .ok n → n < c.signaturesRequired)
    (hc : StacksTransaction.signAndAppend c cur code privk = .ok (c', next)) : Room c' := by
  obtain ⟨⟨sig, next'⟩, -, hrest⟩ := bind_eq_ok.1 hc
  cases c with
  | singlesig data =>
    obtain ⟨rfl, -⟩ := Prod.mk.inj (Except.ok.inj hrest)
    refine ⟨_, rfl, ?_⟩
    rw [TransactionSpendingCondition.signaturesRequired]
    split_ifs <;> decide
  | multisig data =>
    obtain ⟨rfl, -⟩ := Prod.mk.inj (Except.ok.inj hrest)
    obtain ⟨n, hn, -⟩ := room_fields.1 h
    have hlt : n < data.signaturesRequired.toNat := room_of_full hroom n hn
    have hfit : n + 1 < 2 ^ 16 := by
      have := data.signaturesRequired.toNat_lt
      omega
    exact room_fields.2 ⟨n + 1, countSignatures_signature hn hfit _ sig, hlt⟩
  | orderIndependentMultisig data =>
    obtain ⟨rfl, -⟩ := Prod.mk.inj (Except.ok.inj hrest)
    obtain ⟨n, hn, -⟩ := room_fields.1 h
    have hlt : n < data.signaturesRequired.toNat := room_of_full hroom n hn
    have hfit : n + 1 < 2 ^ 16 := by
      have := data.signaturesRequired.toNat_lt
      omega
    exact room_fields.2 ⟨n + 1, countSignatures_signature hn hfit _ sig, hlt⟩

/-- the checks are on, and no condition has more signatures than it needs -/
structure Counted (s : StacksTransactionSigner X) : Prop where
  checked : s.Checked
  origin : Room s.tx.auth.origin
  sponsor : ∀ c ∈ s.tx.auth.sponsor, Room c

section Counting

variable {tx : StacksTransaction X} {s s' : StacksTransactionSigner X} {op : SignerOp X} {ops : List (SignerOp X)}

theorem Counted.step (h : Counted s) (hop : op.perform s = .ok s') : Counted s' := by
  obtain ⟨hs, horigin, hsponsor⟩ := h
  cases op with
  | signOrigin privk =>
    obtain ⟨-, hroom, o, next, happ, rfl⟩ := StacksTransactionSigner.signOrigin_ok hs hop
    refine ⟨⟨hs.oversign, hs.overlap⟩, ?_, ?_⟩
    · rw [TransactionAuth.origin_setOrigin]
      exact horigin.sign hroom happ
    · rwa [TransactionAuth.sponsor_setOrigin]
  | appendOrigin pubk =>
    obtain ⟨-, o, happ, rfl⟩ := StacksTransactionSigner.appendOrigin_ok hs hop
    refine ⟨⟨hs.oversign, hs.overlap⟩, ?_, ?_⟩
    · rw [TransactionAuth.origin_setOrigin]
      exact horigin.append happ
    · rwa [TransactionAuth.sponsor_setOrigin]
  | signSponsor privk =>
    obtain ⟨o, p, hauth, hroom, c', next, happ, rfl⟩ := StacksTransactionSigner.signSponsor_ok hs hop
    rw [hauth] at horigin hsponsor
    refine ⟨⟨hs.oversign, hs.overlap⟩, horigin, fun c hc => ?_⟩
    obtain rfl := Option.some.inj hc
    exact (hsponsor p rfl).sign hroom happ
  | appendSponsor pubk =>
    obtain ⟨o, p, hauth, c', happ, rfl⟩ := StacksTransactionSigner.appendSponsor_ok hop
    rw [hauth] at horigin hsponsor
    refine ⟨⟨hs.oversign, hs.overlap⟩, horigin, fun c hc => ?_⟩
    obtain rfl := Option.some.inj hc
    exact (hsponsor p rfl).append happ

/-- whatever is done to a signer, failed operations included -/
theorem Counted.run {g : StacksTransactionSigner X × List (SignerOp X)} (h : Counted g.1) :
    Counted (run signerStep g ops).1 := by
  have hstep : ∀ (g : StacksTransactionSigner X × List (SignerOp X)) (op : SignerOp X), Counted g.1 →
      Counted (signerStep g op).1 := by
    intro g op hg
    cases hop : op.perform g.1 with
    | error e => rwa [signerStep, hop]
    | ok s =>
      rw [signerStep, hop]
      exact hg.step hop
  exact @run_inv _ _ signerStep (fun g => Counted g.1) hstep g h ops

/-- the call returns or fails with an error -/
def NoPanic {α : Type} (r : Except Fault α) : Prop := ∀ msg, r ≠ .error (.panicked msg)

theorem NoPanic.ok {α : Type} {a : α} : NoPanic (.ok a) := fun _ h => nomatch h

theorem NoPanic.bind {α β : Type} {r : Except Fault α} {f : α → Except Fault β} (h : NoPanic r)
    (h' : ∀ a, r = .ok a → NoPanic (f a)) : NoPanic (r >>= f) := by
  intro msg hbad
  cases r with
  | error e => exact h msg (congrArg Except.error (Except.error.inj hbad))
  | ok a => exact h' a rfl msg hbad

theorem signAndAppend_noPanic (c : TransactionSpendingCondition X) (cur : Txid) (code : TransactionAuthFlags)
    (privk : StacksPrivateKey) : NoPanic (StacksTransaction.signAndAppend c cur code privk) := by
  refine NoPanic.bind ?_ fun r _ => ?_
  · intro msg hbad
    simp only [TransactionSpendingCondition.nextSignature] at hbad
    split at hbad <;> cases hbad
  · cases c <;> exact NoPanic.ok

theorem appendPubkey_noPanic (c : TransactionSpendingCondition X) (pubk : StacksPublicKey X.Point) :
    NoPanic (StacksTransaction.appendPubkey c pubk) := by
  cases c with
  | singlesig data => exact fun msg hbad => nomatch hbad
  | multisig data => exact NoPanic.ok
  | orderIndependentMultisig data => exact NoPanic.ok

theorem full_noPanic {c : TransactionSpendingCondition X} (h : Room c) :
    NoPanic (StacksTransactionSigner.full c) := by
  obtain ⟨n, hn, -⟩ := h
  rw [StacksTransactionSigner.full, hn]
  exact NoPanic.ok

theorem oversigned_noPanic {c : TransactionSpendingCondition X} (h : Room c) : NoPanic (s.oversigned c) := by
  unfold StacksTransactionSigner.oversigned
  split_ifs
  · exact full_noPanic h
  · exact NoPanic.ok

theorem Counted.perform (h : Counted s) (op : SignerOp X) : NoPanic (op.perform s) := by
  cases op with
  | signOrigin privk =>
    show NoPanic (s.signOrigin privk)
    unfold StacksTransactionSigner.signOrigin
    split_ifs
    · exact fun msg hbad => nomatch hbad
    · refine NoPanic.bind (oversigned_noPanic h.origin) fun tooMany _ => ?_
      split_ifs
      · exact fun msg hbad => nomatch hbad
      · refine NoPanic.bind ?_ fun r _ => NoPanic.ok
        exact NoPanic.bind (signAndAppend_noPanic _ _ _ _) fun r _ => NoPanic.ok
  | appendOrigin pubk =>
    show NoPanic (s.appendOrigin pubk)
    unfold StacksTransactionSigner.appendOrigin
    split_ifs
    · exact fun msg hbad => nomatch hbad
    · refine NoPanic.bind ?_ fun r _ => NoPanic.ok
      exact NoPanic.bind (appendPubkey_noPanic _ _) fun r _ => NoPanic.ok
  | signSponsor privk =>
    refine NoPanic.bind ?_ fun tooMany _ => ?_
    · cases hsponsor : s.tx.auth.sponsor with
      | none => exact NoPanic.ok
      | some c => exact oversigned_noPanic (h.sponsor c hsponsor)
    · split_ifs
      · exact fun msg hbad => nomatch hbad
      · refine NoPanic.bind ?_ fun r _ => NoPanic.ok
        unfold StacksTransaction.signNextSponsor
        split
        · exact fun msg hbad => nomatch hbad
        · exact NoPanic.bind (signAndAppend_noPanic _ _ _ _) fun r _ => NoPanic.ok
  | appendSponsor pubk =>
    refine NoPanic.bind ?_ fun r _ => NoPanic.ok
    unfold StacksTransaction.appendNextSponsor
    split
    · exact fun msg hbad => nomatch hbad
    · exact NoPanic.bind (appendPubkey_noPanic _ _) fun r _ => NoPanic.ok

theorem Counted.getTx (h : Counted s) : NoPanic s.getTx := by
  refine NoPanic.bind ?_ fun r _ => NoPanic.ok
  obtain ⟨-, horigin, hsponsor⟩ := h
  unfold StacksTransactionSigner.complete
  split
  · next o hauth =>
    rw [hauth] at horigin
    exact full_noPanic horigin
  · next o p hauth =>
    rw [hauth] at horigin hsponsor
    refine NoPanic.bind (full_noPanic horigin) fun b _ => ?_
    split_ifs
    · refine NoPanic.bind (full_noPanic (hsponsor p rfl)) fun b _ => ?_
      split_ifs <;> exact NoPanic.ok
    · exact NoPanic.ok

theorem Room.of_unsigned {c : TransactionSpendingCondition X} (h : c.unsigned = c) : Room c := by
  cases c with
  | singlesig data =>
    refine ⟨_, rfl, ?_⟩
    rw [TransactionSpendingCondition.signaturesRequired]
    split_ifs <;> decide
  | multisig data =>
    have hfields : data.fields = [] :=
      (congrArg MultisigCondition.fields (TransactionSpendingCondition.multisig.inj h)).symm
    exact room_fields.2 ⟨0, by rw [hfields]; rfl, Nat.zero_le _⟩
  | orderIndependentMultisig data =>
    have hfields : data.fields = [] :=
      (congrArg MultisigCondition.fields (TransactionSpendingCondition.orderIndependentMultisig.inj h)).symm
    exact room_fields.2 ⟨0, by rw [hfields]; rfl, Nat.zero_le _⟩

/-- **No panic.** In every state that a signer of an unsigned transaction reaches, the count of signatures does not
overflow: no operation and no question for the transaction panics. -/
theorem run_no_panic (hu : tx.auth.unsigned = tx.auth) (hnew : StacksTransactionSigner.new tx = .ok s)
    (ops : List (SignerOp X)) (op : SignerOp X) :
    NoPanic (op.perform (run signerStep (s, []) ops).1) ∧ NoPanic (run signerStep (s, []) ops).1.getTx := by
  obtain ⟨start, -, hs⟩ := bind_eq_ok.1 hnew
  obtain rfl := Except.ok.inj hs
  obtain ⟨horigin, hsponsor⟩ := TransactionAuth.unsigned_sponsor_of hu
  have hcounted : Counted (⟨tx, start, false, true, true⟩ : StacksTransactionSigner X) :=
    ⟨⟨rfl, rfl⟩, .of_unsigned horigin, fun c hc => .of_unsigned (hsponsor c hc)⟩
  have hend : Counted (run signerStep (⟨tx, start, false, true, true⟩, []) ops).1 := Counted.run hcounted
  exact ⟨hend.perform op, hend.getTx⟩

end Counting

/-- keys for witnesses, and an account of the first two -/
def keyOf (n : ℕ) : StacksPrivateKey := ⟨BitVec.ofNat 256 n, true⟩

def pubOf (n : ℕ) : StacksPublicKey X3.Point := .fromPrivate X3 (keyOf n)

def signerOf (mode : AddressHashMode) (numSigs : ℕ) (keys : List (StacksPublicKey X3.Point)) : Hash160 :=
  (X3.fromPublicKeys mode numSigs keys).getD 0

def twoOfTwo : TransactionSpendingCondition X3 :=
  .multisig ⟨.p2sh, signerOf .serializeP2SH 2 [pubOf 1, pubOf 2], 4, 180, [], 2⟩

def oneOfOne : TransactionSpendingCondition X3 :=
  .singlesig ⟨.p2pkh, signerOf .serializeP2PKH 1 [pubOf 3], 9, 500, .compressed, MessageSignature.empty⟩

/-- a transfer by two keys, paid for by a third -/
def paidTransfer : StacksTransaction X3 := transfer (.sponsored twoOfTwo oneOfOne)

/-- the signer of a transaction, from its initial sighash -/
def startedAt (tx : StacksTransaction X3) : StacksTransactionSigner X3 :=
  ⟨tx, tx.signBegin.toOption.getD 0, false, true, true⟩

theorem new_paidTransfer : StacksTransactionSigner.new paidTransfer = .ok (startedAt paidTransfer) :=
  bind_eq_ok.2 ⟨_, (by decide +kernel : paidTransfer.signBegin = .ok (paidTransfer.signBegin.toOption.getD 0)), rfl⟩

theorem run_no_panic_paid : NoPanic ((SignerOp.signSponsor (keyOf 3)).perform
      (run signerStep (startedAt paidTransfer, []) (List.replicate 70000 (.signOrigin (keyOf 1)))).1) :=
  (run_no_panic rfl new_paidTransfer _ _).1

end Wrb.Tx
