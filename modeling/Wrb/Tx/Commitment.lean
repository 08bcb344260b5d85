/-
What the hash that an origin signs commits to, and signatures made apart (`src/tx/auth.rs`, `src/tx/transaction.rs`).

The initial sighash is a hash of the transaction with its fees, nonces, keys and signatures cleared and a sentinel for
the sponsor; the hash that is signed adds the role, the fee and the nonce. That the cleared transaction may be one its
reader refuses (a multisig condition without its signatures) does not matter: its bytes still tell what it is.

Results:
- `origin_commits`: the origins of two transactions sign the same hash exactly when the transactions agree on everything
  but keys, signatures and the sponsor, or the texts that were hashed for them collide;
- `apart_iff`: the cosigners of an order-independent condition can sign in any order and apart from each other; put
  together, their signatures verify exactly when there are enough and the keys are those of the account.
-/
import Wrb.Tx.Completed

namespace Wrb.Tx

open Wrb.Wire Wrb.Storage Wrb.Runner Wrb.Net

variable {X : TxExt}

/-! ## What the bytes tell -/

theorem beBytes_inj {n v v' : ℕ} (hv : v < 256 ^ n) (hv' : v' < 256 ^ n) (h : beBytes n v = beBytes n v') : v = v' := by
  rw [← beNat_beBytes hv, h, beNat_beBytes hv']

theorem singlesig_ne_multisig (m : SinglesigHashMode) (m' : MultisigHashMode) : m.toU8 ≠ m'.toU8 := by
  cases m <;> cases m' <;> decide

theorem singlesig_ne_orderIndependent (m : SinglesigHashMode) (m' : OrderIndependentMultisigHashMode) :
    m.toU8 ≠ m'.toU8 := by
  cases m <;> cases m' <;> decide

theorem multisig_ne_orderIndependent (m : MultisigHashMode) (m' : OrderIndependentMultisigHashMode) :
    m.toU8 ≠ m'.toU8 := by
  cases m <;> cases m' <;> decide

theorem TransactionAnchorMode.toU8_inj {m m' : TransactionAnchorMode} (h : m.toU8 = m'.toU8) : m = m' := by
  revert h
  cases m <;> cases m' <;> decide

theorem TransactionPostConditionMode.toU8_inj {m m' : TransactionPostConditionMode} (h : m.toU8 = m'.toU8) :
    m = m' := by
  revert h
  cases m <;> cases m' <;> decide

section Telling

variable (hX : TxLaws X)
include hX

theorem byte_tells {w w' : Except WriteFault Bytes} {v v' : UInt8} {P : Prop} (h : v = v' → Tells w w' P) :
    Tells (andThen (.ok (X.u8.enc v)) w) (andThen (.ok (X.u8.enc v')) w') (v = v' ∧ P) :=
  (Tells.of_codec (hX.u8 v) (hX.u8 v')).andThen h

/-- a cleared multisig condition is told by its bytes, although its reader may refuse it -/
theorem MultisigCondition.clear_tells {Mode : Type} {K : MultisigKind Mode} (hK : K.Lawful)
    (c c' : MultisigCondition X Mode) :
    Tells (c.clear.consensusSerialize K) (c'.clear.consensusSerialize K) (c.clear = c'.clear) := by
  have hfields : ∀ a : MultisigCondition X Mode, ReadsBack
      (X.vecEnc TransactionAuthField.consensusSerialize a.clear.fields)
      (X.vecDec X.maxFields (TransactionAuthField.consensusDeserialize X)) a.clear.fields := fun a =>
    hX.vec _ _ _ _ hX.maxFields (Nat.zero_le _) fun f hf => absurd hf List.not_mem_nil
  refine Tells.mono (byte_tells hX fun _ => (Tells.of_codec (hX.hash160 _) (hX.hash160 _)).andThen fun _ =>
    (Tells.of_codec (hX.u64 _) (hX.u64 _)).andThen fun _ => (Tells.of_codec (hX.u64 _) (hX.u64 _)).andThen fun _ =>
    (Tells.of_readsBack (hfields c) (hfields c')).andThen fun _ => Tells.of_codec (hX.u16 _) (hX.u16 _)) ?_
  rintro ⟨hmode, hsigner, -, -, -, hrequired⟩
  have hmode' : c.hashMode = c'.hashMode := Option.some.inj ((hK _).symm.trans ((congrArg K.fromU8 hmode).trans (hK _)))
  have hsigner' : c.signer = c'.signer := hsigner
  have hrequired' : c.signaturesRequired = c'.signaturesRequired := hrequired
  rw [clear, clear, hmode', hsigner', hrequired']

theorem SinglesigSpendingCondition.clear_tells (c c' : SinglesigSpendingCondition) :
    Tells (c.clear.consensusSerialize X) (c'.clear.consensusSerialize X) (c.clear = c'.clear) := by
  refine Tells.mono (byte_tells hX fun _ => (Tells.of_codec (hX.hash160 _) (hX.hash160 _)).andThen fun _ =>
    (Tells.of_codec (hX.u64 _) (hX.u64 _)).andThen fun _ => (Tells.of_codec (hX.u64 _) (hX.u64 _)).andThen fun _ =>
    byte_tells hX fun _ => Tells.of_codec (hX.signature _) (hX.signature _)) ?_
  rintro ⟨hmode, hsigner, -, -, hencoding, -⟩
  have hmode' : c.hashMode = c'.hashMode := by
    have := congrArg SinglesigHashMode.fromU8 hmode
    simpa [clear] using this
  have hencoding' : c.keyEncoding = c'.keyEncoding := by
    have := congrArg TransactionPublicKeyEncoding.fromU8 hencoding
    simpa [clear] using this
  have hsigner' : c.signer = c'.signer := hsigner
  rw [clear, clear, hmode', hsigner', hencoding']

/-- conditions of different kinds differ in their first byte -/
theorem kinds_tell {w w' : Except WriteFault Bytes} {v v' : UInt8} {P : Prop} (h : v ≠ v') :
    Tells (andThen (.ok (X.u8.enc v)) w) (andThen (.ok (X.u8.enc v')) w') P :=
  Tells.mono (byte_tells hX (P := P) fun heq => absurd heq h) And.right

theorem TransactionSpendingCondition.clear_tells (c c' : TransactionSpendingCondition X) :
    Tells c.clear.consensusSerialize c'.clear.consensusSerialize (c.clear = c'.clear) := by
  cases c with
  | singlesig data =>
    cases c' with
    | singlesig data' => exact (SinglesigSpendingCondition.clear_tells hX data data').mono (congrArg singlesig)
    | multisig data' => exact kinds_tell hX (singlesig_ne_multisig _ _)
    | orderIndependentMultisig data' => exact kinds_tell hX (singlesig_ne_orderIndependent _ _)
  | multisig data =>
    cases c' with
    | singlesig data' => exact kinds_tell hX (singlesig_ne_multisig _ _).symm
    | multisig data' =>
      exact (MultisigCondition.clear_tells hX multisigKind_lawful data data').mono (congrArg multisig)
    | orderIndependentMultisig data' => exact kinds_tell hX (multisig_ne_orderIndependent _ _)
  | orderIndependentMultisig data =>
    cases c' with
    | singlesig data' => exact kinds_tell hX (singlesig_ne_orderIndependent _ _).symm
    | multisig data' => exact kinds_tell hX (multisig_ne_orderIndependent _ _).symm
    | orderIndependentMultisig data' =>
      exact (MultisigCondition.clear_tells hX orderIndependentKind_lawful data data').mono
        (congrArg orderIndependentMultisig)

/-- what an origin knows of the authorization: whether there is a sponsor, and its own condition -/
theorem TransactionAuth.initial_tells (a a' : TransactionAuth X) :
    Tells a.intoInitialSighashAuth.consensusSerialize a'.intoInitialSighashAuth.consensusSerialize
      (a.isSponsored = a'.isSponsored ∧ a.origin.clear = a'.origin.clear) := by
  cases a with
  | standard o =>
    cases a' with
    | standard o' =>
      refine Tells.mono (byte_tells hX fun _ => TransactionSpendingCondition.clear_tells hX o o') ?_
      exact fun h => ⟨rfl, h.2⟩
    | sponsored o' p' => exact kinds_tell hX (by decide)
  | sponsored o p =>
    cases a' with
    | standard o' => exact kinds_tell hX (by decide)
    | sponsored o' p' =>
      have hsentinel : Tells (TransactionSpendingCondition.newInitialSighash (X := X)).consensusSerialize
          (TransactionSpendingCondition.newInitialSighash (X := X)).consensusSerialize True := by
        intro b b' rest rest' hb hb' hsame
        obtain rfl := Except.ok.inj (hb.symm.trans hb')
        exact ⟨trivial, List.append_cancel_left hsame⟩
      refine Tells.mono (byte_tells hX fun _ =>
        (TransactionSpendingCondition.clear_tells hX o o').andThen fun _ => hsentinel) ?_
      exact fun h => ⟨rfl, h.2.1⟩

/-- everything that the initial sighash is a hash of -/
theorem StacksTransaction.initial_tells {tx tx' : StacksTransaction X} (h : tx.BodyWf) (h' : tx'.BodyWf)
    (hfit : Fits tx.payload.consensusSerialize MAX_TRANSACTION_LEN)
    (hfit' : Fits tx'.payload.consensusSerialize MAX_TRANSACTION_LEN) :
    Tells ({ tx with auth := tx.auth.intoInitialSighashAuth } : StacksTransaction X).consensusSerialize
      ({ tx' with auth := tx'.auth.intoInitialSighashAuth } : StacksTransaction X).consensusSerialize
      (tx' = { tx with auth := tx'.auth } ∧ tx.auth.isSponsored = tx'.auth.isSponsored ∧
        tx.auth.origin.clear = tx'.auth.origin.clear) := by
  refine Tells.mono (byte_tells hX fun _ => (Tells.of_codec (hX.u32 _) (hX.u32 _)).andThen fun _ =>
    (TransactionAuth.initial_tells hX tx.auth tx'.auth).andThen fun _ => byte_tells hX fun _ => byte_tells hX fun _ =>
    (Tells.of_readsBack (postConditions_readsBack hX h) (postConditions_readsBack hX h')).andThen fun _ =>
    Tells.of_readsBack (TransactionPayload.readsBack hX h.payload hfit)
      (TransactionPayload.readsBack hX h'.payload hfit')) ?_
  rintro ⟨hversion, hchain, hauth, hanchor, hmode, hpcs, hpayload⟩
  obtain ⟨version, chainId, auth, anchorMode, postConditionMode, postConditions, payload⟩ := tx
  obtain ⟨version', chainId', auth', anchorMode', postConditionMode', postConditions', payload'⟩ := tx'
  have hversion' : version = version' := by
    have := congrArg versionOf hversion
    simpa using this
  have hanchor' : anchorMode = anchorMode' := TransactionAnchorMode.toU8_inj hanchor
  have hmode' : postConditionMode = postConditionMode' := TransactionPostConditionMode.toU8_inj hmode
  have hchain' : chainId = chainId' := hchain
  have hpcs' : postConditions = postConditions' := hpcs
  have hpayload' : payload = payload' := hpayload
  exact ⟨by rw [hversion', hanchor', hmode', hchain', hpcs', hpayload'], hauth⟩

end Telling

/-! ## What the hash commits to -/

/-- the text that a signed hash is the hash of -/
def presignText (cur : Txid) (code : TransactionAuthFlags) (fee nonce : UInt64) : Bytes :=
  beBytes 32 cur.toNat ++ [code.toU8] ++ beBytes 8 fee.toNat ++ beBytes 8 nonce.toNat

theorem presignText_inj {cur cur' : Txid} {code : TransactionAuthFlags} {fee fee' nonce nonce' : UInt64} :
    presignText cur code fee nonce = presignText cur' code fee' nonce' ↔ cur = cur' ∧ fee = fee' ∧ nonce = nonce' := by
  refine ⟨fun h => ?_, fun ⟨hcur, hfee, hnonce⟩ => by rw [hcur, hfee, hnonce]⟩
  obtain ⟨h₁, hnonce⟩ := List.append_inj' h (by rw [length_beBytes, length_beBytes])
  obtain ⟨h₂, hfee⟩ := List.append_inj' h₁ (by rw [length_beBytes, length_beBytes])
  obtain ⟨hcur, -⟩ := List.append_inj' h₂ rfl
  have hcur' := beBytes_inj (by simpa using cur.isLt) (by simpa using cur'.isLt) hcur
  have hfee' := beBytes_inj (by simpa using fee.toNat_lt) (by simpa using fee'.toNat_lt) hfee
  have hnonce' := beBytes_inj (by simpa using nonce.toNat_lt) (by simpa using nonce'.toNat_lt) hnonce
  exact ⟨BitVec.eq_of_toNat_eq hcur', UInt64.toNat_inj.1 hfee', UInt64.toNat_inj.1 hnonce'⟩

namespace StacksTransaction

/-- the text that the initial sighash is the hash of -/
def initialText (tx : StacksTransaction X) : Except WriteFault Bytes :=
  { tx with auth := tx.auth.intoInitialSighashAuth }.consensusSerialize

/-- the text, after this initial sighash, of the hash that the first key of the origin signs, and every key where the
order does not matter -/
def originText (tx : StacksTransaction X) (start : Txid) : Bytes :=
  presignText start .authStandard tx.auth.origin.txFee tx.auth.origin.nonce

/-- the hash itself -/
def originPresign (tx : StacksTransaction X) : Except Fault Txid := do
  let start ← tx.signBegin
  pure (TransactionSpendingCondition.makeSighashPresign X start .authStandard tx.auth.origin.txFee tx.auth.origin.nonce)

theorem originPresign_eq {tx : StacksTransaction X} {b : Bytes} (h : tx.initialText = .ok b) :
    tx.originPresign = .ok (X.fromData (tx.originText (X.fromData b))) := by
  have hstart : tx.signBegin = .ok (X.fromData b) := by
    rw [initialText] at h
    rw [signBegin, txid, h]
  rw [originPresign, hstart]
  rfl

end StacksTransaction

/-- the parts that the signed hash has of a condition: the fee and the nonce, and the rest in the initial sighash -/
theorem TransactionSpendingCondition.unsigned_eq_iff {c c' : TransactionSpendingCondition X} :
    c'.unsigned = c.unsigned ↔ c.clear = c'.clear ∧ c.txFee = c'.txFee ∧ c.nonce = c'.nonce := by
  have hback : ∀ d : TransactionSpendingCondition X, d.unsigned = (d.clear.setNonce d.nonce).setTxFee d.txFee := by
    intro d
    cases d <;> rfl
  have hparts : ∀ d : TransactionSpendingCondition X,
      d.clear = d.unsigned.clear ∧ d.txFee = d.unsigned.txFee ∧ d.nonce = d.unsigned.nonce := by
    intro d
    cases d <;> exact ⟨rfl, rfl, rfl⟩
  constructor
  · intro h
    obtain ⟨hclear, hfee, hnonce⟩ := hparts c
    obtain ⟨hclear', hfee', hnonce'⟩ := hparts c'
    rw [hclear, hfee, hnonce, hclear', hfee', hnonce', h]
    exact ⟨rfl, rfl, rfl⟩
  · rintro ⟨hclear, hfee, hnonce⟩
    rw [hback c, hback c', hclear, hfee, hnonce]

theorem TransactionAuth.intoInitialSighashAuth_of {a a' : TransactionAuth X}
    (hsponsored : a.isSponsored = a'.isSponsored) (hclear : a.origin.clear = a'.origin.clear) :
    a.intoInitialSighashAuth = a'.intoInitialSighashAuth := by
  cases a with
  | standard o =>
    cases a' with
    | standard o' => exact congrArg TransactionAuth.standard hclear
    | sponsored o' p' => exact nomatch hsponsored
  | sponsored o p =>
    cases a' with
    | standard o' => exact nomatch hsponsored
    | sponsored o' p' => exact congrArg (TransactionAuth.sponsored · _) hclear

/-- **What an origin commits to.** The hashes that the origins of two transactions sign are the same exactly when the
transactions agree on everything but the keys, the signatures and the sponsor, or when one of the two pairs of texts
that were hashed collides. -/
theorem origin_commits (hX : TxLaws X) {tx tx' : StacksTransaction X} (h : tx.BodyWf) (h' : tx'.BodyWf)
    (hfit : Fits tx.payload.consensusSerialize MAX_TRANSACTION_LEN)
    (hfit' : Fits tx'.payload.consensusSerialize MAX_TRANSACTION_LEN) {b b' : Bytes} (hb : tx.initialText = .ok b)
    (hb' : tx'.initialText = .ok b') :
    tx.originPresign = tx'.originPresign ↔
      (tx' = { tx with auth := tx'.auth } ∧ tx'.auth.isSponsored = tx.auth.isSponsored ∧
        tx'.auth.origin.unsigned = tx.auth.origin.unsigned) ∨
      (Collide X.fromData b b' ∧ tx.auth.origin.txFee = tx'.auth.origin.txFee ∧
        tx.auth.origin.nonce = tx'.auth.origin.nonce) ∨
      Collide X.fromData (tx.originText (X.fromData b)) (tx'.originText (X.fromData b')) := by
  have hbytes : b = b' ↔ tx' = { tx with auth := tx'.auth } ∧ tx'.auth.isSponsored = tx.auth.isSponsored ∧
      tx.auth.origin.clear = tx'.auth.origin.clear := by
    constructor
    · rintro rfl
      obtain ⟨⟨hother, hsponsored, hclear⟩, -⟩ :=
        StacksTransaction.initial_tells hX h h' hfit hfit' b b [] [] hb hb' rfl
      exact ⟨hother, hsponsored.symm, hclear⟩
    · rintro ⟨hother, hsponsored, hclear⟩
      have htext : tx'.initialText = tx.initialText := by
        rw [StacksTransaction.initialText, StacksTransaction.initialText,
          TransactionAuth.intoInitialSighashAuth_of hsponsored hclear.symm, hother]
      exact Except.ok.inj (hb.symm.trans (htext.symm.trans hb'))
  rw [StacksTransaction.originPresign_eq hb, StacksTransaction.originPresign_eq hb', Except.ok.injEq, hash_eq_iff,
    StacksTransaction.originText, StacksTransaction.originText, presignText_inj, hash_eq_iff, hbytes,
    TransactionSpendingCondition.unsigned_eq_iff, ← or_assoc]
  refine or_congr_left ?_
  tauto

/-- two transfers that differ in their signature only: the origin signed the same hash -/
def byOneKeyAgain : StacksTransaction X3 := transfer (.standard (.singlesig ⟨.p2pkh, 7, 0, 180, .compressed, 6⟩))

theorem origin_commits_transfer : byOneKey.originPresign = byOneKeyAgain.originPresign := by
  have hfit : Fits byOneKey.payload.consensusSerialize MAX_TRANSACTION_LEN := by decide +kernel
  have hfit' : Fits byOneKeyAgain.payload.consensusSerialize MAX_TRANSACTION_LEN := by decide +kernel
  have hb : byOneKey.initialText = .ok (byOneKey.initialText.toOption.getD []) := by decide +kernel
  have hb' : byOneKeyAgain.initialText = .ok (byOneKey.initialText.toOption.getD []) := by decide +kernel
  have hbody : byOneKey.BodyWf := transfer_body _
  have hbody' : byOneKeyAgain.BodyWf := transfer_body _
  have hother : ∀ a a' : TransactionAuth X3, transfer a' = { transfer a with auth := (transfer a').auth } :=
    fun _ _ => rfl
  have hsponsored : ∀ o o' : TransactionSpendingCondition X3,
      (transfer (.standard o')).auth.isSponsored = (transfer (.standard o)).auth.isSponsored := fun _ _ => rfl
  have hunsigned : ∀ sig, (TransactionSpendingCondition.singlesig ⟨.p2pkh, 7, 0, 180, .compressed, sig⟩ :
      TransactionSpendingCondition X3).unsigned = .singlesig ⟨.p2pkh, 7, 0, 180, .compressed, MessageSignature.empty⟩ :=
    fun _ => rfl
  exact (origin_commits X3_txLaws hbody hbody' hfit hfit' hb hb').2
    (.inl ⟨hother _ _, hsponsored _ _, (hunsigned 6).trans (hunsigned 5).symm⟩)

/-! ## Signatures made apart -/

/-- the field is the key, or a signature by the key of the hash that every cosigner of the condition signs -/
def MadeApart (start : Txid) (code : TransactionAuthFlags) (fee nonce : UInt64) :
    TransactionAuthField X → StacksPublicKey X.Point → Prop
  | .publicKey pubk, key => pubk = key
  | .signature enc sig, key => ∃ privk, enc = .ofBool privk.compressPublic ∧ key = .fromPrivate X privk ∧
      X.signHash privk.key (TransactionSpendingCondition.makeSighashPresign X start code fee nonce) = .ok sig

def signatureCount (fs : List (TransactionAuthField X)) : ℕ := fs.countP TransactionAuthField.isSignature

theorem tally_count {fs : List (TransactionAuthField X)} {n m : ℕ} {u v : Bool} (h : tally n u fs = some (m, v)) :
    m = n + signatureCount fs ∧ (n < 2 ^ 16 → m < 2 ^ 16) := by
  induction fs generalizing n u with
  | nil =>
    obtain ⟨rfl, -⟩ := Prod.mk.inj (Option.some.inj h)
    exact ⟨rfl, id⟩
  | cons f fs ih =>
    rw [tally] at h
    split_ifs at h with hsig hlt
    · obtain ⟨hm, hlt'⟩ := ih h
      rw [signatureCount, List.countP_cons_of_pos hsig]
      exact ⟨by rw [hm, signatureCount]; omega, fun _ => hlt' hlt⟩
    · obtain ⟨hm, hlt'⟩ := ih h
      rw [signatureCount, List.countP_cons_of_neg hsig]
      exact ⟨hm, hlt'⟩

section Apart

variable {c : OrderIndependentMultisigSpendingCondition X} {start : Txid} {code : TransactionAuthFlags}

/-- one field: its key is recovered, and the sighash stays -/
theorem scanField_apart (hS : SigningLaws X) {f : TransactionAuthField X} {key : StacksPublicKey X.Point}
    (h : MadeApart start code c.txFee c.nonce f key) {s : Scan X} (hcur : s.curSighash = start)
    (hfit : s.numSigs + signatureCount [f] < 2 ^ 16) :
    ∃ s', MultisigCondition.scanField orderIndependentKind c code s f = .ok s' ∧ s'.pubkeys = s.pubkeys ++ [key] ∧
      s'.curSighash = start ∧ s'.numSigs = s.numSigs + signatureCount [f] := by
  cases f with
  | publicKey pubk =>
    obtain rfl := h
    exact ⟨_, rfl, rfl, hcur, rfl⟩
  | signature enc sig =>
    obtain ⟨privk, rfl, rfl, hsign⟩ := h
    subst hcur
    obtain ⟨hnext, -⟩ := TransactionSpendingCondition.nextVerification_of_nextSignature hS
      (TransactionSpendingCondition.nextSignature_ok.2 ⟨hsign, rfl⟩)
    exact ⟨_, bind_eq_ok.2 ⟨_, hnext, if_pos hfit⟩, rfl, rfl, rfl⟩

theorem foldlM_apart (hS : SigningLaws X) {fs : List (TransactionAuthField X)} {keys : List (StacksPublicKey X.Point)}
    (h : List.Forall₂ (MadeApart start code c.txFee c.nonce) fs keys) {s : Scan X} (hcur : s.curSighash = start)
    (hfit : s.numSigs + signatureCount fs < 2 ^ 16) :
    ∃ s', fs.foldlM (MultisigCondition.scanField orderIndependentKind c code) s = .ok s' ∧
      s'.pubkeys = s.pubkeys ++ keys ∧ s'.curSighash = start ∧ s'.numSigs = s.numSigs + signatureCount fs := by
  induction h generalizing s with
  | nil => exact ⟨s, rfl, (List.append_nil _).symm, hcur, rfl⟩
  | @cons f key fs keys hf _ ih =>
    have hsum : signatureCount (f :: fs) = signatureCount [f] + signatureCount fs :=
      @List.countP_append _ TransactionAuthField.isSignature [f] fs
    rw [hsum] at hfit ⊢
    obtain ⟨s₁, h₁, hkeys₁, hcur₁, hnum₁⟩ := scanField_apart hS hf hcur (by omega)
    obtain ⟨s', h', hkeys', hcur', hnum'⟩ := ih hcur₁ (by omega)
    refine ⟨s', ?_, ?_, hcur', by omega⟩
    · rw [List.foldlM_cons]
      exact bind_eq_ok.2 ⟨s₁, h₁, h'⟩
    · rw [hkeys', hkeys₁, List.append_assoc, List.singleton_append]

/-- **Signing apart.** The cosigners of an order-independent condition sign the same hash, each without the others. In
whatever order they did, their fields put together in the order of the keys verify exactly when there are enough
signatures, not too many to count, and the keys are those of the account. -/
theorem apart_iff (hS : SigningLaws X) {keys : List (StacksPublicKey X.Point)}
    (h : List.Forall₂ (MadeApart start code c.txFee c.nonce) c.fields keys) (next : Txid) :
    OrderIndependentMultisigSpendingCondition.verify c start code = .ok next ↔
      next = start ∧ c.signaturesRequired.toNat ≤ signatureCount c.fields ∧ signatureCount c.fields < 2 ^ 16 ∧
        c.OwnedBy orderIndependentKind keys := by
  rw [OrderIndependentMultisigSpendingCondition.verify, MultisigCondition.verify_ok]
  constructor
  · rintro ⟨s, hscan, hnext, hcount, howned⟩
    obtain ⟨hnum, hlt⟩ := tally_count (MultisigCondition.scan_ok hscan).1
    rw [Nat.zero_add] at hnum
    have hfit : signatureCount c.fields < 2 ^ 16 := hnum ▸ hlt (by decide)
    obtain ⟨s', hscan', hkeys, hcur, -⟩ := foldlM_apart hS h (s := ⟨[], start, 0, false⟩) rfl
      (by rwa [Nat.zero_add])
    obtain rfl := Except.ok.inj (hscan.symm.trans hscan')
    rw [List.nil_append] at hkeys
    exact ⟨hnext.symm.trans hcur, hnum ▸ of_decide_eq_true hcount, hfit, hkeys ▸ howned⟩
  · rintro ⟨rfl, hcount, hfit, howned⟩
    obtain ⟨s', hscan', hkeys, hcur, hnum⟩ := foldlM_apart hS h (s := ⟨[], next, 0, false⟩) rfl
      (by rwa [Nat.zero_add])
    rw [Nat.zero_add] at hnum
    rw [List.nil_append] at hkeys
    exact ⟨s', hscan', hcur, hnum ▸ decide_eq_true hcount, hkeys ▸ howned⟩

end Apart

/-- an order-independent account of three keys, of which two sign -/
def twoOfThree (fields : List (TransactionAuthField X3)) : OrderIndependentMultisigSpendingCondition X3 :=
  ⟨.p2sh, signerOf .serializeP2SH 2 [pubOf 1, pubOf 2, pubOf 3], 4, 180, fields, 2⟩

/-- a signature over the sighash `5` -/
def apartField (n : ℕ) : TransactionAuthField X3 :=
  .signature .compressed ((X3.signHash (keyOf n).key
    (TransactionSpendingCondition.makeSighashPresign X3 5 .authStandard 180 4)).toOption.getD 0)

theorem apart_verifies : OrderIndependentMultisigSpendingCondition.verify
    (twoOfThree [apartField 1, .publicKey (pubOf 2), apartField 3]) 5 .authStandard = .ok 5 := by
  have happart : List.Forall₂ (MadeApart 5 .authStandard 180 4) [apartField 1, .publicKey (pubOf 2), apartField 3]
      [pubOf 1, pubOf 2, pubOf 3] := .cons ⟨keyOf 1, rfl, rfl, rfl⟩ (.cons rfl (.cons ⟨keyOf 3, rfl, rfl, rfl⟩ .nil))
  refine (apart_iff (c := twoOfThree _) X3_signingLaws happart 5).2 ⟨rfl, ?_, ?_, ?_, ?_⟩ <;> decide +kernel

end Wrb.Tx
