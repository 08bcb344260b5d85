/-
Which transactions survive the wire, and what the reader accepts.

`Wf` says of a transaction what its reader checks: the count of signatures and the compression of keys in its spending
conditions, the limits on its vectors, and that its names, addresses and values can be written.

Results:
- `StacksTransaction.readsBack`: a well-formed transaction of at most 2 MiB is read back from what it is written as,
  whatever follows it, with the number of its bytes;
- `transaction_reads_back_iff`: these are all that are read back; one that lacks signatures is not;
- `accepted_transaction_stable`: whatever bytes the reader accepts, the transaction is well-formed, is written again in
  no more bytes, and is read back from them.
-/
import Wrb.Tx.Reference

namespace Wrb.Tx

open Wrb.Wire Wrb.Storage Wrb.Runner Wrb.Net

variable {X : TxExt}

/-! ## Well-formed transactions -/

/-- a contract name of a length that can be written -/
def NameOk (X : TxExt) (name : String) : Prop := ∃ b, X.contractNameEnc name = .ok b

def ClarityNameOk (name : ClarityName X) : Prop := ∃ b, X.clarityNameEnc name.1 = .ok b

/-- the fields pass the reader's checks -/
structure MultisigCondition.Wf {Mode : Type} (K : MultisigKind Mode) (c : MultisigCondition X Mode) : Prop where
  length_le : c.fields.length ≤ X.maxFields
  checked : ∃ n u, tally 0 false c.fields = some (n, u) ∧ K.countOk n c.signaturesRequired = true ∧
    (u && K.isP2WSH c.hashMode) = false

def SinglesigSpendingCondition.Wf (c : SinglesigSpendingCondition) : Prop :=
  c.hashMode = .p2wpkh → c.keyEncoding = .compressed

def TransactionSpendingCondition.Wf : TransactionSpendingCondition X → Prop
  | singlesig data => data.Wf
  | multisig data => data.Wf multisigKind
  | orderIndependentMultisig data => data.Wf orderIndependentKind

def TransactionAuth.Wf : TransactionAuth X → Prop
  | standard origin => origin.Wf
  | sponsored origin sponsor => origin.Wf ∧ sponsor.Wf

structure TransactionContractCall.Wf (cc : TransactionContractCall X) : Prop where
  address : X.stacksAddress.RoundTrips cc.address
  contractName : NameOk X cc.contractName
  functionName : ClarityNameOk cc.functionName
  length_le : cc.functionArgs.length ≤ X.maxFunctionArgs
  functionArgs : ∀ v ∈ cc.functionArgs, X.value.RoundTrips v

structure TransactionSmartContract.Wf (X : TxExt) (sc : TransactionSmartContract) : Prop where
  name : NameOk X sc.name
  length_le : (asBytes sc.codeBody.text).length ≤ X.maxBytes

def TransactionPayload.Wf : TransactionPayload X → Prop
  | tokenTransfer address _ _ => X.principal.RoundTrips address
  | contractCall cc => cc.Wf
  | smartContract sc _ => sc.Wf X

def PostConditionPrincipal.Wf (X : TxExt) : PostConditionPrincipal → Prop
  | origin => True
  | standard address => X.stacksAddress.RoundTrips address
  | contract address contractName => X.stacksAddress.RoundTrips address ∧ NameOk X contractName

structure AssetInfo.Wf (a : AssetInfo X) : Prop where
  contractAddress : X.stacksAddress.RoundTrips a.contractAddress
  contractName : NameOk X a.contractName
  assetName : ClarityNameOk a.assetName

def TransactionPostCondition.Wf : TransactionPostCondition X → Prop
  | stx principal _ _ => principal.Wf X
  | fungible principal asset _ _ => principal.Wf X ∧ asset.Wf
  | nonfungible principal asset assetValue _ => principal.Wf X ∧ asset.Wf ∧ X.value.RoundTrips assetValue

/-- what is not the authorization -/
structure StacksTransaction.BodyWf (tx : StacksTransaction X) : Prop where
  length_le : tx.postConditions.length ≤ X.maxPostConditions
  postConditions : ∀ pc ∈ tx.postConditions, pc.Wf
  payload : tx.payload.Wf

structure StacksTransaction.Wf (tx : StacksTransaction X) : Prop extends StacksTransaction.BodyWf tx where
  auth : tx.auth.Wf

theorem StacksTransaction.BodyWf.with {tx : StacksTransaction X} (h : tx.BodyWf) {a : TransactionAuth X} (ha : a.Wf) :
    { tx with auth := a }.Wf := ⟨⟨h.length_le, h.postConditions, h.payload⟩, ha⟩

/-! ## Numbers -/

/-- the hash modes of a kind are told apart by their numbers -/
def MultisigKind.Lawful {Mode : Type} (K : MultisigKind Mode) : Prop := ∀ mode, K.fromU8 (K.toU8 mode) = some mode

theorem multisigKind_lawful : multisigKind.Lawful := by intro mode; cases mode <;> rfl

theorem orderIndependentKind_lawful : orderIndependentKind.Lawful := by intro mode; cases mode <;> rfl

@[simp] theorem SinglesigHashMode.fromU8_toU8 (m : SinglesigHashMode) : fromU8 m.toU8 = some m := by cases m <;> rfl

@[simp] theorem TransactionPublicKeyEncoding.fromU8_toU8 (e : TransactionPublicKeyEncoding) :
    fromU8 e.toU8 = some e := by
  cases e <;> rfl

@[simp] theorem FungibleConditionCode.fromU8_toU8 (c : FungibleConditionCode) : fromU8 c.toU8 = some c := by
  cases c <;> rfl

@[simp] theorem NonfungibleConditionCode.fromU8_toU8 (c : NonfungibleConditionCode) : fromU8 c.toU8 = some c := by
  cases c <;> rfl

@[simp] theorem TransactionPayloadID.fromU8_toU8 (i : TransactionPayloadID) : fromU8 i.toU8 = some i := by
  cases i <;> rfl

@[simp] theorem StacksTransaction.versionOf_toU8 (v : TransactionVersion) : versionOf v.toU8 = v := by cases v <;> rfl

/-! ## Reading back -/

section ReadingBack

variable (hX : TxLaws X)
include hX

theorem contractName_readsBack {name : String} (h : NameOk X name) :
    ReadsBack (contractNameSerialize X name) X.contractNameDec name := by
  obtain ⟨b, hb⟩ := h
  exact ⟨b, by rw [contractNameSerialize, hb]; rfl, hX.contractName name b hb⟩

theorem clarityName_readsBack {name : ClarityName X} (h : ClarityNameOk name) :
    ReadsBack (clarityNameSerialize X name) X.clarityNameDec name := by
  obtain ⟨b, hb⟩ := h
  exact ⟨b, by rw [clarityNameSerialize, hb]; rfl, hX.clarityName name b hb⟩

theorem TransactionAuthField.readsBack (f : TransactionAuthField X) :
    ReadsBack f.consensusSerialize (consensusDeserialize X) f := by
  apply (ReadsBack.of_codec (hX.u8 f.fieldId.toU8)).andThen
  cases f with
  | publicKey pubk =>
    obtain ⟨point, compressed⟩ := pubk
    have hkey : ReadsBack (.ok (X.publicKeyBuffer.enc (X.pointToBuffer point)) : Except WriteFault Bytes)
        (deserializePublicKey X compressed) (publicKey ⟨point, compressed⟩) := by
      apply (ReadsBack.of_codec (hX.publicKeyBuffer _)).map
      rw [hX.pointOfBuffer]
      exact Reads.pure _
    cases compressed <;> exact hkey
  | signature keyEncoding sig =>
    have hsig : ReadsBack (.ok (X.signature.enc sig) : Except WriteFault Bytes)
        (deserializeSignature X keyEncoding) (signature keyEncoding sig) :=
      (ReadsBack.of_codec (hX.signature sig)).map (Reads.pure _)
    cases keyEncoding <;> exact hsig

theorem MultisigCondition.readsBack {Mode : Type} {K : MultisigKind Mode} (hK : K.Lawful) {c : MultisigCondition X Mode}
    (h : c.Wf K) (hfit : Fits (c.consensusSerialize K) X.maxMessageLen) :
    ReadsBack (c.consensusSerialize K) (consensusDeserialize X K) c := by
  have hfields := hX.vec TransactionAuthField.consensusSerialize _ _ c.fields hX.maxFields h.length_le
    fun f _ => TransactionAuthField.readsBack hX f
  have hcheck : Reads (checkFields K c) [] c := by
    obtain ⟨n, u, htally, hcount, hcompressed⟩ := h.checked
    rw [checkFields, htally]
    simp only [hcount, hcompressed]
    exact Reads.pure c
  have hfitFields := hfit.right.right.right.right.left
  apply (ReadsBack.of_codec (hX.u8 (K.toU8 c.hashMode))).andThen
  rw [hK]
  apply (ReadsBack.of_codec (hX.hash160 c.signer)).andThen
  apply (ReadsBack.of_codec (hX.u64 c.nonce)).andThen
  apply (ReadsBack.of_codec (hX.u64 c.txFee)).andThen
  apply (hfields.limited hfitFields).andThen
  exact (ReadsBack.of_codec (hX.u16 c.signaturesRequired)).map hcheck

theorem SinglesigSpendingCondition.readsBack {c : SinglesigSpendingCondition} (h : c.Wf) :
    ReadsBack (c.consensusSerialize X) (consensusDeserialize X) c := by
  have hmode : ¬(c.hashMode = .p2wpkh ∧ c.keyEncoding ≠ .compressed) := fun hbad => hbad.2 (h hbad.1)
  apply (ReadsBack.of_codec (hX.u8 c.hashMode.toU8)).andThen
  rw [SinglesigHashMode.fromU8_toU8]
  apply (ReadsBack.of_codec (hX.hash160 c.signer)).andThen
  apply (ReadsBack.of_codec (hX.u64 c.nonce)).andThen
  apply (ReadsBack.of_codec (hX.u64 c.txFee)).andThen
  apply (ReadsBack.of_codec (hX.u8 c.keyEncoding.toU8)).andThen
  rw [TransactionPublicKeyEncoding.fromU8_toU8]
  apply (ReadsBack.of_codec (hX.signature c.signature)).map
  rw [if_neg hmode]
  exact Reads.pure c

/-- a writer that starts with a byte, and a reader that looks at it first -/
theorem peek_readsBack {α : Type} {w : Except WriteFault Bytes} {f : UInt8 → Decoder CodecError α} {v : UInt8} {a : α}
    (h : ReadsBack (andThen (.ok (X.u8.enc v)) w) (f v) a) :
    ReadsBack (andThen (.ok (X.u8.enc v)) w) (peekByte X.u8.dec f) a := by
  have hread : Reads X.u8.dec [v] v := hX.u8_raw v ▸ hX.u8 v
  rw [hX.u8_raw] at h ⊢
  exact h.peekByte hread

theorem TransactionSpendingCondition.readsBack {c : TransactionSpendingCondition X} (h : c.Wf)
    (hfit : Fits c.consensusSerialize X.maxMessageLen) :
    ReadsBack c.consensusSerialize (consensusDeserialize X) c := by
  cases c with
  | singlesig data =>
    have hselect : ReadsBack (data.consensusSerialize X) (deserializeMode X data.hashMode.toU8) (singlesig data) := by
      rw [deserializeMode, if_pos (by simp)]
      exact (SinglesigSpendingCondition.readsBack hX h).map (Reads.pure _)
    exact peek_readsBack hX hselect
  | multisig data =>
    have hselect : ReadsBack (MultisigSpendingCondition.consensusSerialize data)
        (deserializeMode X data.hashMode.toU8) (multisig data) := by
      have hback := MultisigCondition.readsBack hX multisigKind_lawful h hfit
      rw [deserializeMode, if_neg (by cases data.hashMode <;> decide), if_pos (by cases data.hashMode <;> decide)]
      exact hback.map (Reads.pure _)
    exact peek_readsBack hX hselect
  | orderIndependentMultisig data =>
    have hselect : ReadsBack (OrderIndependentMultisigSpendingCondition.consensusSerialize data)
        (deserializeMode X data.hashMode.toU8) (orderIndependentMultisig data) := by
      have hback := MultisigCondition.readsBack hX orderIndependentKind_lawful h hfit
      rw [deserializeMode, if_neg (by cases data.hashMode <;> decide), if_neg (by cases data.hashMode <;> decide),
        if_pos (by cases data.hashMode <;> decide)]
      exact hback.map (Reads.pure _)
    exact peek_readsBack hX hselect

theorem TransactionAuth.readsBack {a : TransactionAuth X} (h : a.Wf)
    (hfit : Fits a.consensusSerialize X.maxMessageLen) :
    ReadsBack a.consensusSerialize (consensusDeserialize X) a := by
  cases a with
  | standard origin =>
    apply (ReadsBack.of_codec (hX.u8 _)).andThen
    rw [if_pos rfl]
    exact (TransactionSpendingCondition.readsBack hX h hfit.right).map (Reads.pure _)
  | sponsored origin sponsor =>
    apply (ReadsBack.of_codec (hX.u8 _)).andThen
    rw [if_neg (by decide), if_pos rfl]
    apply (TransactionSpendingCondition.readsBack hX h.1 hfit.right.left).andThen
    exact (TransactionSpendingCondition.readsBack hX h.2 hfit.right.right).map (Reads.pure _)

theorem StacksString.readsBack {s : StacksString} (hlen : (asBytes s.text).length ≤ X.maxBytes)
    (hfit : Fits (s.consensusSerialize X) X.maxMessageLen) :
    ReadsBack (s.consensusSerialize X) (consensusDeserialize X) s := by
  have hbytes : ReadsBack (s.consensusSerialize X) (X.vecDec X.maxBytes X.u8.dec) (asBytes s.text) :=
    hX.vec _ _ _ _ hX.maxBytes hlen fun c _ => ReadsBack.of_codec (hX.u8 c)
  apply (hbytes.limited hfit).map
  rw [ofBytes, WrbpodSuperblock.fromUtf8_asBytes]
  simp only [fromStr_text]
  exact Reads.pure s

theorem TransactionContractCall.readsBack {cc : TransactionContractCall X} (h : cc.Wf)
    (hfit : Fits cc.consensusSerialize MAX_TRANSACTION_LEN) :
    ReadsBack cc.consensusSerialize (consensusDeserialize X) cc := by
  have hargs : ReadsBack (X.vecEnc (fun v => .ok (X.value.enc v)) cc.functionArgs)
      (X.vecDec X.maxFunctionArgs X.value.dec) cc.functionArgs :=
    hX.vec _ _ _ _ hX.maxFunctionArgs h.length_le fun v hv => ReadsBack.of_codec (h.functionArgs v hv)
  apply (ReadsBack.of_codec h.address).andThen
  apply (contractName_readsBack hX h.contractName).andThen
  apply (clarityName_readsBack hX h.functionName).andThen
  apply (hargs.limited hfit.right.right.right).map
  rw [if_neg (by simp [cc.functionName.2])]
  exact Reads.pure cc

theorem TransactionSmartContract.readsBack {sc : TransactionSmartContract} (h : sc.Wf X)
    (hfit : Fits (sc.consensusSerialize X) X.maxMessageLen) :
    ReadsBack (sc.consensusSerialize X) (consensusDeserialize X) sc := by
  apply (contractName_readsBack hX h.name).andThen
  exact (StacksString.readsBack hX h.length_le hfit.right).map (Reads.pure _)

theorem ClarityVersion.readsBack (v : ClarityVersion) :
    ReadsBack (v.consensusSerialize X) (consensusDeserialize X) v := by
  apply (ReadsBack.of_codec (hX.u8 v.toU8)).map
  cases v <;> exact Reads.pure _

theorem TransactionPayload.readsBack {p : TransactionPayload X} (h : p.Wf)
    (hfit : Fits p.consensusSerialize MAX_TRANSACTION_LEN) :
    ReadsBack p.consensusSerialize (consensusDeserialize X) p := by
  apply (ReadsBack.of_codec (hX.u8 _)).andThen
  rw [TransactionPayloadID.fromU8_toU8]
  have hbody := hfit.right
  match p, h, hbody with
  | tokenTransfer address amount memo, h, _ =>
    apply (ReadsBack.of_codec h).andThen
    apply (ReadsBack.of_codec (hX.u64 amount)).andThen
    exact (ReadsBack.of_codec (hX.memo memo)).map (Reads.pure _)
  | contractCall cc, h, hbody => exact (TransactionContractCall.readsBack hX h hbody).map (Reads.pure _)
  | smartContract sc none, h, hbody =>
    exact (TransactionSmartContract.readsBack hX h (hbody.mono hX.maxTransactionLen_le)).map (Reads.pure _)
  | smartContract sc (some version), h, hbody =>
    apply (ClarityVersion.readsBack hX version).andThen
    exact (TransactionSmartContract.readsBack hX h (hbody.right.mono hX.maxTransactionLen_le)).map (Reads.pure _)

theorem PostConditionPrincipal.readsBack {p : PostConditionPrincipal} (h : p.Wf X) :
    ReadsBack (p.consensusSerialize X) (consensusDeserialize X) p := by
  cases p with
  | origin => exact (ReadsBack.of_codec (hX.u8 _)).map (Reads.pure _)
  | standard address =>
    apply (ReadsBack.of_codec (hX.u8 _)).andThen
    rw [if_neg (by decide), if_pos rfl]
    exact (ReadsBack.of_codec h).map (Reads.pure _)
  | contract address contractName =>
    apply (ReadsBack.of_codec (hX.u8 _)).andThen
    rw [if_neg (by decide), if_neg (by decide), if_pos rfl]
    apply (ReadsBack.of_codec h.1).andThen
    exact (contractName_readsBack hX h.2).map (Reads.pure _)

theorem AssetInfo.readsBack {a : AssetInfo X} (h : a.Wf) :
    ReadsBack a.consensusSerialize (consensusDeserialize X) a := by
  apply (ReadsBack.of_codec h.contractAddress).andThen
  apply (contractName_readsBack hX h.contractName).andThen
  exact (clarityName_readsBack hX h.assetName).map (Reads.pure _)

/-- condition code and amount, whatever the message says that a wrong code gets -/
theorem amount_readsBack (kind : String) (condition : FungibleConditionCode) (amount : UInt64) :
    ReadsBack (andThen (.ok (X.u8.enc condition.toU8)) (.ok (X.u64.enc amount)) : Except WriteFault Bytes)
      (TransactionPostCondition.deserializeAmount X kind) (condition, amount) := by
  apply (ReadsBack.of_codec (hX.u8 _)).andThen
  apply (ReadsBack.of_codec (hX.u64 amount)).map
  rw [FungibleConditionCode.fromU8_toU8]
  exact Reads.pure _

theorem TransactionPostCondition.readsBack {pc : TransactionPostCondition X} (h : pc.Wf) :
    ReadsBack pc.consensusSerialize (consensusDeserialize X) pc := by
  cases pc with
  | stx principal condition amount =>
    apply (ReadsBack.of_codec (hX.u8 _)).andThen
    rw [if_pos rfl]
    apply (PostConditionPrincipal.readsBack hX h).andThen
    exact (amount_readsBack hX _ condition amount).map (Reads.pure _)
  | fungible principal asset condition amount =>
    apply (ReadsBack.of_codec (hX.u8 _)).andThen
    rw [if_neg (by decide), if_pos rfl]
    apply (PostConditionPrincipal.readsBack hX h.1).andThen
    apply (AssetInfo.readsBack hX h.2).andThen
    exact (amount_readsBack hX _ condition amount).map (Reads.pure _)
  | nonfungible principal asset assetValue condition =>
    obtain ⟨hprincipal, hasset, hvalue⟩ := h
    apply (ReadsBack.of_codec (hX.u8 _)).andThen
    rw [if_neg (by decide), if_neg (by decide), if_pos rfl]
    apply (PostConditionPrincipal.readsBack hX hprincipal).andThen
    apply (AssetInfo.readsBack hX hasset).andThen
    apply (ReadsBack.of_codec hvalue).andThen
    apply (ReadsBack.of_codec (hX.u8 _)).map
    rw [NonfungibleConditionCode.fromU8_toU8]
    exact Reads.pure _

theorem StacksTransaction.postConditions_readsBack {tx : StacksTransaction X} (h : tx.BodyWf) :
    ReadsBack (X.vecEnc TransactionPostCondition.consensusSerialize tx.postConditions)
      (X.vecDec X.maxPostConditions (TransactionPostCondition.consensusDeserialize X)) tx.postConditions :=
  hX.vec TransactionPostCondition.consensusSerialize _ _ tx.postConditions hX.maxPostConditions h.length_le
    fun pc hpc => TransactionPostCondition.readsBack hX (h.postConditions pc hpc)

theorem StacksTransaction.parts_readsBack {tx : StacksTransaction X} (h : tx.Wf)
    (hfit : Fits tx.consensusSerialize MAX_TRANSACTION_LEN) :
    ReadsBack tx.consensusSerialize (deserializeParts X) tx := by
  have hpcs := postConditions_readsBack hX h.toBodyWf
  have hauth := hfit.right.right.left.mono hX.maxTransactionLen_le
  have hpayload := hfit.right.right.right.right.right.right
  have hanchor : Reads (anchorModeOf tx.anchorMode.toU8) [] tx.anchorMode := by
    cases tx.anchorMode <;> exact Reads.pure _
  have hmode : Reads (postConditionModeOf tx.postConditionMode.toU8) [] tx.postConditionMode := by
    cases tx.postConditionMode <;> exact Reads.pure _
  apply (ReadsBack.of_codec (hX.u8 _)).andThen
  apply (ReadsBack.of_codec (hX.u32 _)).andThen
  apply (TransactionAuth.readsBack hX h.auth hauth).andThen
  apply (ReadsBack.of_codec (hX.u8 _)).andThen
  apply (ReadsBack.of_codec (hX.u8 _)).andThen
  apply hpcs.andThen
  apply (TransactionPayload.readsBack hX h.payload hpayload).map
  rw [versionOf_toU8]
  exact hanchor.map (hmode.map (Reads.pure _))

/-- **Transactions survive the wire.** A well-formed transaction of at most 2 MiB is read back from its bytes, whatever
follows them, and the reader reports their number. -/
theorem StacksTransaction.readsBack {tx : StacksTransaction X} (h : tx.Wf)
    (hfit : Fits tx.consensusSerialize MAX_TRANSACTION_LEN) :
    ∃ b, tx.consensusSerialize = .ok b ∧ Reads (consensusDeserializeWithLen X) b (tx, b.length) ∧
      Reads (consensusDeserialize X) b tx := by
  obtain ⟨b, hb, hread⟩ := parts_readsBack hX h hfit
  obtain ⟨b', hb', hlen⟩ := hfit
  obtain rfl := Except.ok.inj (hb.symm.trans hb')
  exact ⟨b, hb, hread.limitedLen hlen, hread.limited hlen⟩

end ReadingBack

/-! ## Accepting -/

section Accepting

variable (hX : TxLaws X) (hA : AcceptLaws X)
include hX

theorem u8_fits (v : UInt8) : Fits (.ok (X.u8.enc v) : Except WriteFault Bytes) 1 :=
  Fits.ok (by rw [hX.u8_raw, List.length_singleton])

include hA

theorem TransactionAuthField.took :
    Took (consensusDeserialize X) fun f n => True ∧ Fits (TransactionAuthField.consensusSerialize f) n := by
  have hkey : ∀ compressed,
      Took (deserializePublicKey X compressed) fun f n => True ∧ Fits f.consensusSerialize (1 + n) := by
    intro compressed
    refine hA.publicKeyBuffer.bind fun buf n hbuf => ?_
    cases hpoint : X.pointOfBuffer buf with
    | error e => exact Took.throw
    | ok point =>
      have hlen := hbuf.2
      rw [← hA.pointToBuffer buf point hpoint] at hlen
      exact Took.pure ⟨trivial, (u8_fits hX _).andThen (Fits.ok hlen)⟩
  have hsig : ∀ keyEncoding,
      Took (deserializeSignature X keyEncoding) fun f n => True ∧ Fits f.consensusSerialize (1 + n) := by
    intro keyEncoding
    refine hA.signature.bind fun sig n hsig => Took.pure ?_
    exact ⟨trivial, (u8_fits hX _).andThen (Fits.ok hsig.2)⟩
  refine hA.u8.bind fun fieldId n hn => ?_
  subst hn
  exact Took.ite (fun _ => hkey true) fun _ => Took.ite (fun _ => hkey false) fun _ =>
    Took.ite (fun _ => hsig _) fun _ => Took.ite (fun _ => hsig _) fun _ => Took.throw

theorem MultisigCondition.took {Mode : Type} (K : MultisigKind Mode) :
    Took (consensusDeserialize X K) fun c n => c.Wf K ∧ Fits (c.consensusSerialize K) n := by
  refine hA.u8.bind fun hashModeU8 n hn => ?_
  subst hn
  cases K.fromU8 hashModeU8 with
  | none => exact Took.throw
  | some hashMode =>
    refine hA.hash160.bind fun signer n₁ h₁ => hA.u64.bind fun nonce n₂ h₂ => hA.u64.bind fun txFee n₃ h₃ => ?_
    refine (hA.vec _ _ X.maxFields _ (TransactionAuthField.took hX hA)).limited.bind fun fields n₄ h₄ => ?_
    refine hA.u16.bind fun signaturesRequired n₅ h₅ => ?_
    obtain ⟨⟨⟨hlen, -⟩, hfields⟩, -⟩ := h₄
    have hfit : Fits ((⟨hashMode, signer, nonce, txFee, fields, signaturesRequired⟩ :
        MultisigCondition X Mode).consensusSerialize K) (1 + (n₁ + (n₂ + (n₃ + (n₄ + n₅))))) :=
      (u8_fits hX _).andThen ((Fits.ok h₁.2).andThen ((Fits.ok h₂.2).andThen ((Fits.ok h₃.2).andThen
        (hfields.andThen (Fits.ok h₅.2)))))
    unfold checkFields
    split
    · exact Took.throw
    · next num haveUncompressed htally =>
      refine Took.ite (fun _ => Took.throw) fun hcount => Took.ite (fun _ => Took.throw) fun hcompressed => ?_
      have hwf : (⟨hashMode, signer, nonce, txFee, fields, signaturesRequired⟩ : MultisigCondition X Mode).Wf K :=
        ⟨hlen, num, haveUncompressed, htally, by simpa using hcount, by simpa using hcompressed⟩
      exact Took.pure ⟨hwf, hfit⟩

theorem SinglesigSpendingCondition.took :
    Took (consensusDeserialize X) fun c n => c.Wf ∧ Fits (c.consensusSerialize X) n := by
  refine hA.u8.bind fun hashModeU8 n hn => ?_
  subst hn
  cases SinglesigHashMode.fromU8 hashModeU8 with
  | none => exact Took.throw
  | some hashMode =>
    refine hA.hash160.bind fun signer n₁ h₁ => hA.u64.bind fun nonce n₂ h₂ => hA.u64.bind fun txFee n₃ h₃ => ?_
    refine hA.u8.bind fun keyEncodingU8 n₄ h₄ => ?_
    subst h₄
    cases TransactionPublicKeyEncoding.fromU8 keyEncodingU8 with
    | none => exact Took.throw
    | some keyEncoding =>
      refine hA.signature.bind fun signature n₅ h₅ => Took.ite (fun _ => Took.throw) fun hmode => Took.pure ?_
      refine ⟨fun hp2wpkh => ?_, ?_⟩
      · by_contra hne
        exact hmode ⟨hp2wpkh, hne⟩
      · exact (u8_fits hX _).andThen ((Fits.ok h₁.2).andThen ((Fits.ok h₂.2).andThen ((Fits.ok h₃.2).andThen
          ((u8_fits hX _).andThen (Fits.ok h₅.2)))))

theorem TransactionSpendingCondition.took :
    Took (consensusDeserialize X) fun c n => c.Wf ∧ Fits (TransactionSpendingCondition.consensusSerialize c) n := by
  refine Took.peekByte hA.u8 fun hashModeU8 => ?_
  refine Took.ite (fun _ => ?_) fun _ => Took.ite (fun _ => ?_) fun _ => Took.ite (fun _ => ?_) fun _ => Took.throw
  · exact (SinglesigSpendingCondition.took hX hA).bind fun c n hc => Took.pure hc
  · exact (MultisigCondition.took hX hA multisigKind).bind fun c n hc => Took.pure hc
  · exact (MultisigCondition.took hX hA orderIndependentKind).bind fun c n hc => Took.pure hc

theorem TransactionAuth.took :
    Took (consensusDeserialize X) fun a n => a.Wf ∧ Fits (TransactionAuth.consensusSerialize a) n := by
  have hcond := TransactionSpendingCondition.took hX hA
  refine hA.u8.bind fun typeId n hn => ?_
  subst hn
  refine Took.ite (fun _ => ?_) fun _ => Took.ite (fun _ => ?_) fun _ => Took.throw
  · exact hcond.bind fun origin n ho => Took.pure ⟨ho.1, (u8_fits hX _).andThen ho.2⟩
  · refine hcond.bind fun origin n ho => hcond.bind fun sponsor m hs => Took.pure ?_
    exact ⟨⟨ho.1, hs.1⟩, (u8_fits hX _).andThen (ho.2.andThen hs.2)⟩

omit hX in
theorem contractName_took :
    Took X.contractNameDec fun name n => NameOk X name ∧ Fits (contractNameSerialize X name) n := by
  refine hA.contractName.mono fun name n hfit => ⟨?_, hfit.mapError _⟩
  obtain ⟨b, hb, -⟩ := hfit
  exact ⟨b, hb⟩

omit hX in
theorem clarityName_took :
    Took X.clarityNameDec fun name n => ClarityNameOk name ∧ Fits (clarityNameSerialize X name) n := by
  refine hA.clarityName.mono fun name n hfit => ⟨?_, hfit.mapError _⟩
  obtain ⟨b, hb, -⟩ := hfit
  exact ⟨b, hb⟩

theorem StacksString.took : Took (consensusDeserialize X) fun s n =>
    (asBytes s.text).length ≤ X.maxBytes ∧ Fits (s.consensusSerialize X) n := by
  have hbyte : Took X.u8.dec fun c n => True ∧ Fits (.ok (X.u8.enc c) : Except WriteFault Bytes) n := by
    refine hA.u8.mono fun c n hn => ⟨trivial, ?_⟩
    subst hn
    exact u8_fits hX c
  refine (hA.vec _ _ X.maxBytes _ hbyte).limited.bind fun bytes n hbytes => ?_
  obtain ⟨⟨⟨hlen, -⟩, hfit⟩, -⟩ := hbytes
  unfold ofBytes
  split
  · exact Took.throw
  · next text htext =>
    split
    · exact Took.throw
    · next s hs =>
      obtain ⟨hvalid, rfl⟩ : ∃ h : isValidString text = true, (⟨text, h⟩ : StacksString) = s := by
        unfold fromStr at hs
        split_ifs at hs with hvalid
        exact ⟨hvalid, Option.some.inj hs⟩
      have hback : asBytes text = bytes := WrbpodSuperblock.asBytes_of_fromUtf8 htext
      subst hback
      exact Took.pure ⟨hlen, hfit⟩

omit hX in
theorem TransactionContractCall.took :
    Took (consensusDeserialize X) fun cc n => cc.Wf ∧ Fits (TransactionContractCall.consensusSerialize cc) n := by
  have hvalue : Took X.value.dec fun v n =>
      X.value.RoundTrips v ∧ Fits (.ok (X.value.enc v) : Except WriteFault Bytes) n :=
    hA.value.mono fun v n hv => ⟨hv.1, Fits.ok hv.2⟩
  refine hA.stacksAddress.bind fun address n₁ h₁ => (contractName_took hA).bind fun contractName n₂ h₂ => ?_
  refine (clarityName_took hA).bind fun functionName n₃ h₃ => ?_
  refine (hA.vec _ _ X.maxFunctionArgs _ hvalue).limited.bind fun functionArgs n₄ h₄ => ?_
  obtain ⟨⟨⟨hlen, hargs⟩, hfit⟩, -⟩ := h₄
  refine Took.ite (fun _ => Took.throw) fun _ => Took.pure ⟨⟨h₁.1, h₂.1, h₃.1, hlen, hargs⟩, ?_⟩
  exact (Fits.ok h₁.2).andThen (h₂.2.andThen (h₃.2.andThen hfit))

theorem TransactionSmartContract.took :
    Took (consensusDeserialize X) fun sc n => sc.Wf X ∧ Fits (sc.consensusSerialize X) n := by
  refine (contractName_took hA).bind fun name n h₁ => (StacksString.took hX hA).bind fun codeBody m h₂ => Took.pure ?_
  exact ⟨⟨h₁.1, h₂.1⟩, h₁.2.andThen h₂.2⟩

theorem ClarityVersion.took : Took (consensusDeserialize X) fun v n => Fits (v.consensusSerialize X) n := by
  refine hA.u8.bind fun versionByte n hn => ?_
  subst hn
  have hfit : ∀ v : ClarityVersion, Took (pure v : Decoder CodecError ClarityVersion)
      fun v m => Fits (v.consensusSerialize X) (1 + m) := fun v => Took.pure (u8_fits hX v.toU8)
  exact Took.ite (fun _ => hfit _) fun _ => Took.ite (fun _ => hfit _) fun _ => Took.ite (fun _ => hfit _) fun _ =>
    Took.throw

theorem TransactionPayload.took :
    Took (consensusDeserialize X) fun p n => p.Wf ∧ Fits (TransactionPayload.consensusSerialize p) n := by
  refine hA.u8.bind fun typeIdU8 n hn => ?_
  subst hn
  cases TransactionPayloadID.fromU8 typeIdU8 with
  | none => exact Took.throw
  | some typeId =>
    cases typeId with
    | tokenTransfer =>
      refine hA.principal.bind fun address n₁ h₁ => hA.u64.bind fun amount n₂ h₂ => hA.memo.bind fun memo n₃ h₃ => ?_
      exact Took.pure ⟨h₁.1, (u8_fits hX _).andThen ((Fits.ok h₁.2).andThen ((Fits.ok h₂.2).andThen (Fits.ok h₃.2)))⟩
    | smartContract =>
      refine (TransactionSmartContract.took hX hA).bind fun sc n h => Took.pure ?_
      exact ⟨h.1, (u8_fits hX _).andThen h.2⟩
    | contractCall =>
      refine (TransactionContractCall.took hA).bind fun cc n h => Took.pure ?_
      exact ⟨h.1, (u8_fits hX _).andThen h.2⟩
    | versionedSmartContract =>
      refine (ClarityVersion.took hX hA).bind fun version n h₁ => ?_
      refine (TransactionSmartContract.took hX hA).bind fun sc m h => Took.pure ?_
      exact ⟨h.1, (u8_fits hX _).andThen (h₁.andThen h.2)⟩

theorem PostConditionPrincipal.took :
    Took (consensusDeserialize X) fun p n => p.Wf X ∧ Fits (p.consensusSerialize X) n := by
  refine hA.u8.bind fun principalId n hn => ?_
  subst hn
  refine Took.ite (fun _ => ?_) fun _ => Took.ite (fun _ => ?_) fun _ => Took.ite (fun _ => ?_) fun _ => Took.throw
  · exact Took.pure ⟨trivial, u8_fits hX _⟩
  · exact hA.stacksAddress.bind fun addr n h => Took.pure ⟨h.1, (u8_fits hX _).andThen (Fits.ok h.2)⟩
  · refine hA.stacksAddress.bind fun addr n h₁ => (contractName_took hA).bind fun contractName m h₂ => Took.pure ?_
    exact ⟨⟨h₁.1, h₂.1⟩, (u8_fits hX _).andThen ((Fits.ok h₁.2).andThen h₂.2)⟩

omit hX in
theorem AssetInfo.took : Took (consensusDeserialize X) fun a n => a.Wf ∧ Fits (AssetInfo.consensusSerialize a) n := by
  refine hA.stacksAddress.bind fun contractAddress n₁ h₁ => (contractName_took hA).bind fun contractName n₂ h₂ => ?_
  refine (clarityName_took hA).bind fun assetName n₃ h₃ => Took.pure ⟨⟨h₁.1, h₂.1, h₃.1⟩, ?_⟩
  exact (Fits.ok h₁.2).andThen (h₂.2.andThen h₃.2)

theorem amount_took (kind : String) : Took (TransactionPostCondition.deserializeAmount X kind) fun r n =>
    Fits (andThen (.ok (X.u8.enc r.1.toU8)) (.ok (X.u64.enc r.2)) : Except WriteFault Bytes) n := by
  refine hA.u8.bind fun conditionU8 n hn => hA.u64.bind fun amount m h => ?_
  subst hn
  cases FungibleConditionCode.fromU8 conditionU8 with
  | none => exact Took.throw
  | some conditionCode => exact Took.pure ((u8_fits hX _).andThen (Fits.ok h.2))

theorem TransactionPostCondition.took :
    Took (consensusDeserialize X) fun pc n => pc.Wf ∧ Fits (TransactionPostCondition.consensusSerialize pc) n := by
  have hprincipal := PostConditionPrincipal.took hX hA
  refine hA.u8.bind fun assetInfoId n hn => ?_
  subst hn
  refine Took.ite (fun _ => ?_) fun _ => Took.ite (fun _ => ?_) fun _ => Took.ite (fun _ => ?_) fun _ => Took.throw
  · refine hprincipal.bind fun principal n₁ h₁ => (amount_took hX hA _).bind fun r n₂ h₂ => Took.pure ?_
    exact ⟨h₁.1, (u8_fits hX _).andThen (h₁.2.andThen h₂)⟩
  · refine hprincipal.bind fun principal n₁ h₁ => (AssetInfo.took hA).bind fun asset n₂ h₂ => ?_
    refine (amount_took hX hA _).bind fun r n₃ h₃ => Took.pure ?_
    exact ⟨⟨h₁.1, h₂.1⟩, (u8_fits hX _).andThen (h₁.2.andThen (h₂.2.andThen h₃))⟩
  · refine hprincipal.bind fun principal n₁ h₁ => (AssetInfo.took hA).bind fun asset n₂ h₂ => ?_
    refine hA.value.bind fun assetValue n₃ h₃ => hA.u8.bind fun conditionU8 n₄ h₄ => ?_
    subst h₄
    cases NonfungibleConditionCode.fromU8 conditionU8 with
    | none => exact Took.throw
    | some conditionCode =>
      refine Took.pure ⟨⟨h₁.1, h₂.1, h₃.1⟩, ?_⟩
      exact (u8_fits hX _).andThen (h₁.2.andThen (h₂.2.andThen ((Fits.ok h₃.2).andThen (u8_fits hX _))))

theorem StacksTransaction.parts_took :
    Took (deserializeParts X) fun tx n => tx.Wf ∧ Fits (StacksTransaction.consensusSerialize tx) n := by
  have hanchor : ∀ v, Took (anchorModeOf v) fun _ n => n = 0 := fun v =>
    Took.ite (fun _ => Took.pure rfl) fun _ => Took.ite (fun _ => Took.pure rfl) fun _ =>
      Took.ite (fun _ => Took.pure rfl) fun _ => Took.throw
  have hmode : ∀ v, Took (postConditionModeOf v) fun _ n => n = 0 := fun v =>
    Took.ite (fun _ => Took.pure rfl) fun _ => Took.ite (fun _ => Took.pure rfl) fun _ => Took.throw
  refine hA.u8.bind fun versionU8 n₁ h₁ => hA.u32.bind fun chainId n₂ h₂ => ?_
  refine (TransactionAuth.took hX hA).bind fun auth n₃ h₃ => ?_
  refine hA.u8.bind fun anchorModeU8 n₄ h₄ => hA.u8.bind fun postConditionModeU8 n₅ h₅ => ?_
  refine (hA.vec _ _ X.maxPostConditions _ (TransactionPostCondition.took hX hA)).bind fun postConditions n₆ h₆ => ?_
  refine (TransactionPayload.took hX hA).bind fun payload n₇ h₇ => ?_
  refine (hanchor anchorModeU8).bind fun anchorMode n₈ h₈ => (hmode postConditionModeU8).bind fun mode n₉ h₉ => ?_
  subst h₁ h₄ h₅ h₈ h₉
  refine Took.pure ⟨⟨⟨h₆.1.1, h₆.1.2, h₇.1⟩, h₃.1⟩, ?_⟩
  exact (u8_fits hX _).andThen ((Fits.ok h₂.2).andThen (h₃.2.andThen ((u8_fits hX _).andThen ((u8_fits hX _).andThen
    (h₆.2.andThen h₇.2)))))

/-- **Which transactions survive the wire.** A transaction of at most 2 MiB is read back from its bytes exactly when it
is well-formed. -/
theorem transaction_reads_back_iff {tx : StacksTransaction X} (hfit : Fits tx.consensusSerialize MAX_TRANSACTION_LEN) :
    ReadsBack tx.consensusSerialize (StacksTransaction.consensusDeserialize X) tx ↔ tx.Wf := by
  constructor
  · rintro ⟨b, -, hread⟩
    obtain ⟨r, b', hr, hrest⟩ := run_bind_ok.1 (hread [])
    obtain ⟨rfl, rfl⟩ := Prod.mk.inj (run_pure_ok.1 hrest)
    obtain ⟨n, -, ⟨hwf, -⟩, -⟩ := (StacksTransaction.parts_took hX hA).limitedLen _ r _ hr
    exact hwf
  · intro hwf
    obtain ⟨b, hb, -, hread⟩ := StacksTransaction.readsBack hX hwf hfit
    exact ⟨b, hb, hread⟩

end Accepting

theorem transfer_body (auth : TransactionAuth X3) : (transfer auth).BodyWf :=
  ⟨Nat.zero_le _, fun _ hpc => absurd hpc List.not_mem_nil, Reference.principal_standard_roundTrips _⟩

/-- a transfer by one key, and by two of two keys before they signed -/
def byOneKey : StacksTransaction X3 := transfer (.standard (.singlesig ⟨.p2pkh, 7, 0, 180, .compressed, 5⟩))

def unsignedByTwo : StacksTransaction X3 := transfer (.standard (.multisig ⟨.p2sh, 7, 0, 180, [], 2⟩))

theorem byOneKey_wf : byOneKey.Wf := ⟨transfer_body _, fun h => nomatch h⟩

theorem byOneKey_fits : Fits byOneKey.consensusSerialize MAX_TRANSACTION_LEN := by decide +kernel

/-- the first is read back; the second is refused for its missing signatures -/
theorem reads_back_transfer :
    ReadsBack byOneKey.consensusSerialize (StacksTransaction.consensusDeserialize X3) byOneKey ∧
      ¬ ReadsBack unsignedByTwo.consensusSerialize (StacksTransaction.consensusDeserialize X3) unsignedByTwo := by
  have hfit : Fits unsignedByTwo.consensusSerialize MAX_TRANSACTION_LEN := by decide +kernel
  refine ⟨(transaction_reads_back_iff X3_txLaws X3_acceptLaws byOneKey_fits).2 byOneKey_wf, fun h => ?_⟩
  obtain ⟨n, u, htally, hcount, -⟩ := ((transaction_reads_back_iff X3_txLaws X3_acceptLaws hfit).1 h).auth.checked
  obtain ⟨rfl, rfl⟩ := Prod.mk.inj (Option.some.inj htally)
  exact absurd hcount (by decide)

/-- **What the reader accepts.** Whatever bytes are read as a transaction, it is well-formed, the reader reports the
number of bytes it took, at most 2 MiB, and the transaction is written again in no more bytes, from which it is read
back. -/
theorem accepted_transaction_stable (hX : TxLaws X) (hA : AcceptLaws X) {b rest : Bytes} {tx : StacksTransaction X}
    {len : ℕ} (h : (StacksTransaction.consensusDeserializeWithLen X).run b = .ok ((tx, len), rest)) :
    tx.Wf ∧ len + rest.length = b.length ∧ len ≤ MAX_TRANSACTION_LEN ∧
      ∃ b', tx.consensusSerialize = .ok b' ∧ b'.length ≤ len ∧
        Reads (StacksTransaction.consensusDeserializeWithLen X) b' (tx, b'.length) := by
  obtain ⟨n, hn, ⟨hwf, hfit⟩, rfl, hle⟩ := (StacksTransaction.parts_took hX hA).limitedLen b (tx, len) rest h
  obtain ⟨b', hb', hread, -⟩ := StacksTransaction.readsBack hX hwf (hfit.mono hle)
  obtain ⟨b'', hb'', hlen⟩ := hfit
  obtain rfl := Except.ok.inj (hb'.symm.trans hb'')
  exact ⟨hwf, hn.symm, hle, b', hb', hlen, hread⟩

/-- the bytes of a transfer, with three more behind them -/
theorem accepted_transfer : ∃ b, (StacksTransaction.consensusDeserializeWithLen X3).run (b ++ [1, 2, 3]) =
      .ok ((byOneKey, b.length), [1, 2, 3]) ∧ b.length ≤ MAX_TRANSACTION_LEN := by
  obtain ⟨b, -, hread, -⟩ := StacksTransaction.readsBack X3_txLaws byOneKey_wf byOneKey_fits
  exact ⟨b, hread [1, 2, 3], (accepted_transaction_stable X3_txLaws X3_acceptLaws (hread [1, 2, 3])).2.2.1⟩

end Wrb.Tx
