/-
The wire format of Stacks transactions (`src/tx/auth.rs`, `src/tx/transaction.rs`, `src/tx/string.rs`).

Writing is `Except WriteFault Bytes`, because names can be too long to be written; reading is a `Decoder`. A spending
condition is read by looking at its hash mode first, and the reader counts the signatures of a multisig condition and
refuses uncompressed keys where the hash mode does. `MultisigKind` holds what the two kinds of multisig conditions do
differently. What is read back, and what is accepted, is shown in `Wrb.Tx.RoundTrip`.

`TxLaws` is what the codecs outside promise for writing and reading back, `AcceptLaws` what they promise of what they
accept, `SigningLaws` what is known of signatures and addresses.
-/
import Wrb.Lib.Taken
import Wrb.Tx.Basic

namespace Wrb.Tx

open Wrb.Wire Wrb.Storage Wrb.Runner Wrb.Net

variable {X : TxExt}

/-! ## Auth fields -/

namespace TransactionAuthField

def isSignature : TransactionAuthField X → Bool
  | publicKey _ => false
  | signature _ _ => true

/-- the field holds an uncompressed public key, or a signature of one -/
def uncompressed : TransactionAuthField X → Bool
  | publicKey pubk => !pubk.compressed
  | signature keyEncoding _ => keyEncoding = .uncompressed

def fieldId : TransactionAuthField X → TransactionAuthFieldID
  | publicKey pubk => if pubk.compressed then .publicKeyCompressed else .publicKeyUncompressed
  | signature keyEncoding _ => if keyEncoding = .compressed then .signatureCompressed else .signatureUncompressed

def consensusSerialize (f : TransactionAuthField X) : Except WriteFault Bytes :=
  andThen (.ok (X.u8.enc f.fieldId.toU8)) <|
    match f with
    | publicKey pubk => .ok (X.publicKeyBuffer.enc (X.pointToBuffer pubk.point))
    | signature _ sig => .ok (X.signature.enc sig)

def deserializePublicKey (X : TxExt) (compressed : Bool) : Decoder CodecError (TransactionAuthField X) := do
  let pubkeyBuf ← X.publicKeyBuffer.dec
  match X.pointOfBuffer pubkeyBuf with
  | .error e => throw (.deserializeError e)
  | .ok point => pure (publicKey ⟨point, compressed⟩)

def deserializeSignature (X : TxExt) (keyEncoding : TransactionPublicKeyEncoding) :
    Decoder CodecError (TransactionAuthField X) := do
  let sig ← X.signature.dec
  pure (signature keyEncoding sig)

def consensusDeserialize (X : TxExt) : Decoder CodecError (TransactionAuthField X) := do
  let fieldId ← X.u8.dec
  if fieldId = TransactionAuthFieldID.publicKeyCompressed.toU8 then deserializePublicKey X true
  else if fieldId = TransactionAuthFieldID.publicKeyUncompressed.toU8 then deserializePublicKey X false
  else if fieldId = TransactionAuthFieldID.signatureCompressed.toU8 then deserializeSignature X .compressed
  else if fieldId = TransactionAuthFieldID.signatureUncompressed.toU8 then deserializeSignature X .uncompressed
  else throw (.deserializeError s!"Failed to parse auth field: unkonwn auth field ID {fieldId}")

end TransactionAuthField

/-! ## Spending conditions -/

/-- what the two kinds of multisig conditions do differently -/
structure MultisigKind (Mode : Type) where
  toU8 : Mode → UInt8
  fromU8 : UInt8 → Option Mode
  toAddressHashMode : Mode → AddressHashMode
  isP2WSH : Mode → Bool
  /-- each signature commits to the ones before it -/
  rolls : Bool
  /-- are this many signatures right, where so many are required? -/
  countOk : ℕ → UInt16 → Bool
  tooManyMsg : String
  countMsg : ℕ → UInt16 → String
  compressedMsg : String
  /-- what verification says of a wrong count -/
  verifyCountMsg : ℕ → UInt16 → String

def multisigKind : MultisigKind MultisigHashMode where
  toU8 := MultisigHashMode.toU8
  fromU8 := MultisigHashMode.fromU8
  toAddressHashMode := MultisigHashMode.toAddressHashMode
  isP2WSH mode := mode = .p2wsh
  rolls := true
  countOk given required := given = required.toNat
  tooManyMsg := "Failed to parse multisig spending condition: too many signatures"
  countMsg given required :=
    s!"Failed to parse multisig spending condition: got {given} sigs, expected {required}"
  compressedMsg := "Failed to parse multisig spending condition: expected compressed keys only"
  verifyCountMsg _ _ := "Incorrect number of signatures"

def orderIndependentKind : MultisigKind OrderIndependentMultisigHashMode where
  toU8 := OrderIndependentMultisigHashMode.toU8
  fromU8 := OrderIndependentMultisigHashMode.fromU8
  toAddressHashMode := OrderIndependentMultisigHashMode.toAddressHashMode
  isP2WSH mode := mode = .p2wsh
  rolls := false
  countOk given required := required.toNat ≤ given
  tooManyMsg := "Failed to parse order independent multisig spending condition: too many signatures"
  countMsg given required := "Failed to deserialize order independent multisig spending condition: got " ++
    s!"{given} sigs, expected at least {required}"
  compressedMsg :=
    "Failed to deserialize order independent multisig spending condition: expected compressed keys only"
  verifyCountMsg given required := s!"Not enough signatures. Got {given}, expected at least {required}"

/-- count the signatures in a `u16`, and look for uncompressed keys; `none` when the count overflows -/
def tally (num : ℕ) (haveUncompressed : Bool) : List (TransactionAuthField X) → Option (ℕ × Bool)
  | [] => some (num, haveUncompressed)
  | f :: fs =>
    if f.isSignature then
      if num + 1 < 2 ^ 16 then tally (num + 1) (haveUncompressed || f.uncompressed) fs else none
    else tally num (haveUncompressed || f.uncompressed) fs

namespace MultisigCondition

variable {Mode : Type}

def consensusSerialize (K : MultisigKind Mode) (c : MultisigCondition X Mode) : Except WriteFault Bytes :=
  andThen (.ok (X.u8.enc (K.toU8 c.hashMode))) <| andThen (.ok (X.hash160.enc c.signer)) <|
    andThen (.ok (X.u64.enc c.nonce)) <| andThen (.ok (X.u64.enc c.txFee)) <|
    andThen (X.vecEnc TransactionAuthField.consensusSerialize c.fields) (.ok (X.u16.enc c.signaturesRequired))

/-- the checks after the fields were read -/
def checkFields (K : MultisigKind Mode) (c : MultisigCondition X Mode) :
    Decoder CodecError (MultisigCondition X Mode) :=
  match tally 0 false c.fields with
  | none => throw (.deserializeError K.tooManyMsg)
  | some (numSigsGiven, haveUncompressed) =>
    if K.countOk numSigsGiven c.signaturesRequired = false then
      throw (.deserializeError (K.countMsg numSigsGiven c.signaturesRequired))
    else if haveUncompressed && K.isP2WSH c.hashMode then throw (.deserializeError K.compressedMsg)
    else pure c

def consensusDeserialize (X : TxExt) (K : MultisigKind Mode) : Decoder CodecError (MultisigCondition X Mode) := do
  let hashModeU8 ← X.u8.dec
  match K.fromU8 hashModeU8 with
  | none => throw (.deserializeError s!"Failed to parse multisig spending condition: unknown hash mode {hashModeU8}")
  | some hashMode =>
    let signer ← X.hash160.dec
    let nonce ← X.u64.dec
    let txFee ← X.u64.dec
    let fields ← limited X.maxMessageLen (X.vecDec X.maxFields (TransactionAuthField.consensusDeserialize X))
    let signaturesRequired ← X.u16.dec
    checkFields K ⟨hashMode, signer, nonce, txFee, fields, signaturesRequired⟩

end MultisigCondition

def MultisigSpendingCondition.consensusSerialize : MultisigSpendingCondition X → Except WriteFault Bytes :=
  MultisigCondition.consensusSerialize multisigKind

def MultisigSpendingCondition.consensusDeserialize (X : TxExt) : Decoder CodecError (MultisigSpendingCondition X) :=
  MultisigCondition.consensusDeserialize X multisigKind

def OrderIndependentMultisigSpendingCondition.consensusSerialize :
    OrderIndependentMultisigSpendingCondition X → Except WriteFault Bytes :=
  MultisigCondition.consensusSerialize orderIndependentKind

def OrderIndependentMultisigSpendingCondition.consensusDeserialize (X : TxExt) :
    Decoder CodecError (OrderIndependentMultisigSpendingCondition X) :=
  MultisigCondition.consensusDeserialize X orderIndependentKind

namespace SinglesigSpendingCondition

def consensusSerialize (X : TxExt) (c : SinglesigSpendingCondition) : Except WriteFault Bytes :=
  andThen (.ok (X.u8.enc c.hashMode.toU8)) <| andThen (.ok (X.hash160.enc c.signer)) <|
    andThen (.ok (X.u64.enc c.nonce)) <| andThen (.ok (X.u64.enc c.txFee)) <|
    andThen (.ok (X.u8.enc c.keyEncoding.toU8)) (.ok (X.signature.enc c.signature))

def consensusDeserialize (X : TxExt) : Decoder CodecError SinglesigSpendingCondition := do
  let hashModeU8 ← X.u8.dec
  match SinglesigHashMode.fromU8 hashModeU8 with
  | none => throw (.deserializeError s!"Failed to parse singlesig spending condition: unknown hash mode {hashModeU8}")
  | some hashMode =>
    let signer ← X.hash160.dec
    let nonce ← X.u64.dec
    let txFee ← X.u64.dec
    let keyEncodingU8 ← X.u8.dec
    match TransactionPublicKeyEncoding.fromU8 keyEncodingU8 with
    | none =>
      throw (.deserializeError
        s!"Failed to parse singlesig spending condition: unknown key encoding {keyEncodingU8}")
    | some keyEncoding =>
      let signature ← X.signature.dec
      -- must be compressed if we're using p2wpkh
      if hashMode = .p2wpkh ∧ keyEncoding ≠ .compressed then
        throw (.deserializeError
          "Failed to parse singlesig spending condition: incomaptible hash mode and key encoding")
      else pure ⟨hashMode, signer, nonce, txFee, keyEncoding, signature⟩

end SinglesigSpendingCondition

namespace TransactionSpendingCondition

def consensusSerialize : TransactionSpendingCondition X → Except WriteFault Bytes
  | singlesig data => data.consensusSerialize X
  | multisig data => MultisigSpendingCondition.consensusSerialize data
  | orderIndependentMultisig data => OrderIndependentMultisigSpendingCondition.consensusSerialize data

/-- the reader that the hash mode selects -/
def deserializeMode (X : TxExt) (hashModeU8 : UInt8) : Decoder CodecError (TransactionSpendingCondition X) :=
  if (SinglesigHashMode.fromU8 hashModeU8).isSome then do
    let cond ← SinglesigSpendingCondition.consensusDeserialize X
    pure (singlesig cond)
  else if (MultisigHashMode.fromU8 hashModeU8).isSome then do
    let cond ← MultisigSpendingCondition.consensusDeserialize X
    pure (multisig cond)
  else if (OrderIndependentMultisigHashMode.fromU8 hashModeU8).isSome then do
    let cond ← OrderIndependentMultisigSpendingCondition.consensusDeserialize X
    pure (orderIndependentMultisig cond)
  else throw (.deserializeError s!"Failed to parse spending condition: invalid hash mode {hashModeU8}")

/-- peek the hash mode byte -/
def consensusDeserialize (X : TxExt) : Decoder CodecError (TransactionSpendingCondition X) :=
  peekByte X.u8.dec (deserializeMode X)

end TransactionSpendingCondition

namespace TransactionAuth

def consensusSerialize : TransactionAuth X → Except WriteFault Bytes
  | standard origin => andThen (.ok (X.u8.enc TransactionAuthFlags.authStandard.toU8)) origin.consensusSerialize
  | sponsored origin sponsor => andThen (.ok (X.u8.enc TransactionAuthFlags.authSponsored.toU8)) <|
      andThen origin.consensusSerialize sponsor.consensusSerialize

def consensusDeserialize (X : TxExt) : Decoder CodecError (TransactionAuth X) := do
  let typeId ← X.u8.dec
  if typeId = TransactionAuthFlags.authStandard.toU8 then do
    let origin ← TransactionSpendingCondition.consensusDeserialize X
    pure (standard origin)
  else if typeId = TransactionAuthFlags.authSponsored.toU8 then do
    let origin ← TransactionSpendingCondition.consensusDeserialize X
    let sponsor ← TransactionSpendingCondition.consensusDeserialize X
    pure (sponsored origin sponsor)
  else throw (.deserializeError s!"Failed to parse transaction authorization: unrecognized auth flags {typeId}")

end TransactionAuth

/-! ## Names and payloads -/

def contractNameSerialize (X : TxExt) (name : String) : Except WriteFault Bytes :=
  (X.contractNameEnc name).mapError .error

def clarityNameSerialize (X : TxExt) (name : ClarityName X) : Except WriteFault Bytes :=
  (X.clarityNameEnc name.1).mapError .error

namespace StacksString

def consensusSerialize (X : TxExt) (s : StacksString) : Except WriteFault Bytes :=
  X.vecEnc (fun c => .ok (X.u8.enc c)) (asBytes s.text)

def ofBytes (bytes : Bytes) : Decoder CodecError StacksString :=
  match fromUtf8 bytes with
  | none => throw (.deserializeError "Invalid Stacks string: could not build from utf8")
  | some s =>
    match fromStr s with
    | none => throw (.deserializeError "Invalid Stacks string: non-printable or non-ASCII string")
    | some string => pure string

def consensusDeserialize (X : TxExt) : Decoder CodecError StacksString := do
  let bytes ← limited X.maxMessageLen (X.vecDec X.maxBytes X.u8.dec)
  ofBytes bytes

end StacksString

namespace TransactionContractCall

def consensusSerialize (cc : TransactionContractCall X) : Except WriteFault Bytes :=
  andThen (.ok (X.stacksAddress.enc cc.address)) <| andThen (contractNameSerialize X cc.contractName) <|
    andThen (clarityNameSerialize X cc.functionName) (X.vecEnc (fun v => .ok (X.value.enc v)) cc.functionArgs)

def consensusDeserialize (X : TxExt) : Decoder CodecError (TransactionContractCall X) := do
  let address ← X.stacksAddress.dec
  let contractName ← X.contractNameDec
  let functionName ← X.clarityNameDec
  let functionArgs ← limited MAX_TRANSACTION_LEN (X.vecDec X.maxFunctionArgs X.value.dec)
  -- function name must be valid Clarity variable
  if X.isClarityName functionName.1 = false then
    throw (.deserializeError "Failed to parse transaction: invalid function name -- not a Clarity variable")
  else pure ⟨address, contractName, functionName, functionArgs⟩

end TransactionContractCall

namespace TransactionSmartContract

def consensusSerialize (X : TxExt) (sc : TransactionSmartContract) : Except WriteFault Bytes :=
  andThen (contractNameSerialize X sc.name) (sc.codeBody.consensusSerialize X)

def consensusDeserialize (X : TxExt) : Decoder CodecError TransactionSmartContract := do
  let name ← X.contractNameDec
  let codeBody ← StacksString.consensusDeserialize X
  pure ⟨name, codeBody⟩

end TransactionSmartContract

namespace ClarityVersion

def toU8 : ClarityVersion → UInt8
  | clarity1 => 1
  | clarity2 => 2
  | clarity3 => 3

def consensusSerialize (X : TxExt) (v : ClarityVersion) : Except WriteFault Bytes := .ok (X.u8.enc v.toU8)

def consensusDeserialize (X : TxExt) : Decoder CodecError ClarityVersion := do
  let versionByte ← X.u8.dec
  if versionByte = 1 then pure clarity1
  else if versionByte = 2 then pure clarity2
  else if versionByte = 3 then pure clarity3
  else throw (.deserializeError s!"Unrecognized ClarityVersion byte {versionByte}")

end ClarityVersion

namespace TransactionPayload

def payloadId : TransactionPayload X → TransactionPayloadID
  | tokenTransfer _ _ _ => .tokenTransfer
  | contractCall _ => .contractCall
  | smartContract _ (some _) => .versionedSmartContract
  | smartContract _ none => .smartContract

/-- what follows the ID -/
def serializeBody : TransactionPayload X → Except WriteFault Bytes
  | tokenTransfer address amount memo => andThen (.ok (X.principal.enc address)) <|
      andThen (.ok (X.u64.enc amount)) (.ok (X.memo.enc memo))
  | contractCall cc => cc.consensusSerialize
  | smartContract sc (some version) => andThen (version.consensusSerialize X) (sc.consensusSerialize X)
  | smartContract sc none => sc.consensusSerialize X

def consensusSerialize (p : TransactionPayload X) : Except WriteFault Bytes :=
  andThen (.ok (X.u8.enc p.payloadId.toU8)) p.serializeBody

def deserializeBody (X : TxExt) : TransactionPayloadID → Decoder CodecError (TransactionPayload X)
  | .tokenTransfer => do
    let principal ← X.principal.dec
    let amount ← X.u64.dec
    let memo ← X.memo.dec
    pure (tokenTransfer principal amount memo)
  | .contractCall => do
    let payload ← TransactionContractCall.consensusDeserialize X
    pure (contractCall payload)
  | .smartContract => do
    let payload ← TransactionSmartContract.consensusDeserialize X
    pure (smartContract payload none)
  | .versionedSmartContract => do
    let version ← ClarityVersion.consensusDeserialize X
    let payload ← TransactionSmartContract.consensusDeserialize X
    pure (smartContract payload (some version))

def consensusDeserialize (X : TxExt) : Decoder CodecError (TransactionPayload X) := do
  let typeIdU8 ← X.u8.dec
  match TransactionPayloadID.fromU8 typeIdU8 with
  | none => throw (.deserializeError s!"Failed to parse transaction -- unknown payload ID {typeIdU8}")
  | some typeId => deserializeBody X typeId

end TransactionPayload

/-! ## Post-conditions -/

namespace AssetInfo

def consensusSerialize (a : AssetInfo X) : Except WriteFault Bytes :=
  andThen (.ok (X.stacksAddress.enc a.contractAddress)) <|
    andThen (contractNameSerialize X a.contractName) (clarityNameSerialize X a.assetName)

def consensusDeserialize (X : TxExt) : Decoder CodecError (AssetInfo X) := do
  let contractAddress ← X.stacksAddress.dec
  let contractName ← X.contractNameDec
  let assetName ← X.clarityNameDec
  pure ⟨contractAddress, contractName, assetName⟩

end AssetInfo

namespace PostConditionPrincipal

def consensusSerialize (X : TxExt) : PostConditionPrincipal → Except WriteFault Bytes
  | origin => .ok (X.u8.enc PostConditionPrincipalID.origin.toU8)
  | standard address =>
      andThen (.ok (X.u8.enc PostConditionPrincipalID.standard.toU8)) (.ok (X.stacksAddress.enc address))
  | contract address contractName => andThen (.ok (X.u8.enc PostConditionPrincipalID.contract.toU8)) <|
      andThen (.ok (X.stacksAddress.enc address)) (contractNameSerialize X contractName)

def consensusDeserialize (X : TxExt) : Decoder CodecError PostConditionPrincipal := do
  let principalId ← X.u8.dec
  if principalId = PostConditionPrincipalID.origin.toU8 then pure origin
  else if principalId = PostConditionPrincipalID.standard.toU8 then do
    let addr ← X.stacksAddress.dec
    pure (standard addr)
  else if principalId = PostConditionPrincipalID.contract.toU8 then do
    let addr ← X.stacksAddress.dec
    let contractName ← X.contractNameDec
    pure (contract addr contractName)
  else throw (.deserializeError s!"Failed to parse transaction: unknown post condition principal ID {principalId}")

end PostConditionPrincipal

namespace TransactionPostCondition

def consensusSerialize : TransactionPostCondition X → Except WriteFault Bytes
  | stx principal condition amount => andThen (.ok (X.u8.enc AssetInfoID.stx.toU8)) <|
      andThen (principal.consensusSerialize X) <| andThen (.ok (X.u8.enc condition.toU8)) (.ok (X.u64.enc amount))
  | fungible principal asset condition amount => andThen (.ok (X.u8.enc AssetInfoID.fungibleAsset.toU8)) <|
      andThen (principal.consensusSerialize X) <| andThen asset.consensusSerialize <|
      andThen (.ok (X.u8.enc condition.toU8)) (.ok (X.u64.enc amount))
  | nonfungible principal asset assetValue condition => andThen (.ok (X.u8.enc AssetInfoID.nonfungibleAsset.toU8)) <|
      andThen (principal.consensusSerialize X) <| andThen asset.consensusSerialize <|
      andThen (.ok (X.value.enc assetValue)) (.ok (X.u8.enc condition.toU8))

/-- the end of an STX or fungible post-condition: the condition code is looked up after the amount was read -/
def deserializeAmount (X : TxExt) (kind : String) : Decoder CodecError (FungibleConditionCode × UInt64) := do
  let conditionU8 ← X.u8.dec
  let amount ← X.u64.dec
  match FungibleConditionCode.fromU8 conditionU8 with
  | none =>
    throw (.deserializeError s!"Failed to parse transaction: Failed to parse {kind} condition code {conditionU8}")
  | some conditionCode => pure (conditionCode, amount)

def consensusDeserialize (X : TxExt) : Decoder CodecError (TransactionPostCondition X) := do
  let assetInfoId ← X.u8.dec
  if assetInfoId = AssetInfoID.stx.toU8 then do
    let principal ← PostConditionPrincipal.consensusDeserialize X
    let r ← deserializeAmount X "STX fungible"
    pure (stx principal r.1 r.2)
  else if assetInfoId = AssetInfoID.fungibleAsset.toU8 then do
    let principal ← PostConditionPrincipal.consensusDeserialize X
    let asset ← AssetInfo.consensusDeserialize X
    let r ← deserializeAmount X "FungibleAsset"
    pure (fungible principal asset r.1 r.2)
  else if assetInfoId = AssetInfoID.nonfungibleAsset.toU8 then do
    let principal ← PostConditionPrincipal.consensusDeserialize X
    let asset ← AssetInfo.consensusDeserialize X
    let assetValue ← X.value.dec
    let conditionU8 ← X.u8.dec
    match NonfungibleConditionCode.fromU8 conditionU8 with
    | none =>
      throw (.deserializeError
        s!"Failed to parse transaction: Failed to parse NonfungibleAsset condition code {conditionU8}")
    | some conditionCode => pure (nonfungible principal asset assetValue conditionCode)
  else throw (.deserializeError s!"Failed to aprse transaction: unknown asset info ID {assetInfoId}")

end TransactionPostCondition

/-! ## Transactions -/

namespace StacksTransaction

def consensusSerialize (tx : StacksTransaction X) : Except WriteFault Bytes :=
  andThen (.ok (X.u8.enc tx.version.toU8)) <| andThen (.ok (X.u32.enc tx.chainId)) <|
    andThen tx.auth.consensusSerialize <| andThen (.ok (X.u8.enc tx.anchorMode.toU8)) <|
    andThen (.ok (X.u8.enc tx.postConditionMode.toU8)) <|
    andThen (X.vecEnc TransactionPostCondition.consensusSerialize tx.postConditions) tx.payload.consensusSerialize

def anchorModeOf (anchorModeU8 : UInt8) : Decoder CodecError TransactionAnchorMode :=
  if anchorModeU8 = TransactionAnchorMode.offChainOnly.toU8 then pure .offChainOnly
  else if anchorModeU8 = TransactionAnchorMode.onChainOnly.toU8 then pure .onChainOnly
  else if anchorModeU8 = TransactionAnchorMode.any.toU8 then pure .any
  else throw (.deserializeError s!"Failed to parse transaction: invalid anchor mode {anchorModeU8}")

def postConditionModeOf (modeU8 : UInt8) : Decoder CodecError TransactionPostConditionMode :=
  if modeU8 = TransactionPostConditionMode.allow.toU8 then pure .allow
  else if modeU8 = TransactionPostConditionMode.deny.toU8 then pure .deny
  else throw (.deserializeError s!"Failed to parse transaction: invalid post-condition mode {modeU8}")

/-- only the top bit of the version is looked at -/
def versionOf (versionU8 : UInt8) : TransactionVersion := if versionU8 &&& 0x80 = 0 then .mainnet else .testnet

def deserializeParts (X : TxExt) : Decoder CodecError (StacksTransaction X) := do
  let versionU8 ← X.u8.dec
  let chainId ← X.u32.dec
  let auth ← TransactionAuth.consensusDeserialize X
  let anchorModeU8 ← X.u8.dec
  let postConditionModeU8 ← X.u8.dec
  let postConditions ← X.vecDec X.maxPostConditions (TransactionPostCondition.consensusDeserialize X)
  let payload ← TransactionPayload.consensusDeserialize X
  let anchorMode ← anchorModeOf anchorModeU8
  let postConditionMode ← postConditionModeOf postConditionModeU8
  pure ⟨versionOf versionU8, chainId, auth, anchorMode, postConditionMode, postConditions, payload⟩

def consensusDeserializeWithLen (X : TxExt) : Decoder CodecError (StacksTransaction X × ℕ) :=
  limitedLen MAX_TRANSACTION_LEN (deserializeParts X)

def consensusDeserialize (X : TxExt) : Decoder CodecError (StacksTransaction X) := do
  let r ← consensusDeserializeWithLen X
  pure r.1

end StacksTransaction

/-! ## What the functions outside promise -/

/-- what is written is read back; names as long as they can be written, vectors up to the reader's limit -/
structure TxLaws (X : TxExt) : Prop extends NetLaws X.toNetExt where
  /-- a byte is written as itself -/
  u8_raw : ∀ v, X.u8.enc v = [v]
  hash160 : ∀ v, X.hash160.RoundTrips v
  signature : ∀ v, X.signature.RoundTrips v
  memo : ∀ v, X.memo.RoundTrips v
  clarityName : ∀ (name : ClarityName X) b, X.clarityNameEnc name.1 = .ok b → Reads X.clarityNameDec b name
  vec : ∀ {α : Type} (w : α → Except WriteFault Bytes) (d : Decoder CodecError α) (limit : ℕ) (as : List α),
    limit < 2 ^ 32 → as.length ≤ limit → (∀ a ∈ as, ReadsBack (w a) d a) →
    ReadsBack (X.vecEnc w as) (X.vecDec limit d) as
  maxBytes : X.maxBytes < 2 ^ 32
  maxFields : X.maxFields < 2 ^ 32
  maxPostConditions : X.maxPostConditions < 2 ^ 32
  maxFunctionArgs : X.maxFunctionArgs < 2 ^ 32
  /-- a transaction may be no longer than a message may -/
  maxTransactionLen_le : MAX_TRANSACTION_LEN ≤ X.maxMessageLen
  pointOfBuffer : ∀ p, X.pointOfBuffer (X.pointToBuffer p) = .ok p

/-- what is accepted can be written again in no more bytes, and read back from them -/
structure AcceptLaws (X : TxExt) : Prop where
  u8 : Took X.u8.dec fun _ n => n = 1
  u16 : X.u16.Sound
  u32 : X.u32.Sound
  u64 : X.u64.Sound
  hash160 : X.hash160.Sound
  signature : X.signature.Sound
  memo : X.memo.Sound
  publicKeyBuffer : X.publicKeyBuffer.Sound
  stacksAddress : X.stacksAddress.Sound
  principal : X.principal.Sound
  value : X.value.Sound
  /-- a public key has one encoding -/
  pointToBuffer : ∀ buf p, X.pointOfBuffer buf = .ok p → X.pointToBuffer p = buf
  contractName : Took X.contractNameDec fun name n => Fits (X.contractNameEnc name) n
  clarityName : Took X.clarityNameDec fun name n => Fits (X.clarityNameEnc name.1) n
  vec : ∀ {α : Type} (w : α → Except WriteFault Bytes) (d : Decoder CodecError α) (limit : ℕ) (P : α → Prop),
    Took d (fun a n => P a ∧ Fits (w a) n) →
    Took (X.vecDec limit d) fun as n => (as.length ≤ limit ∧ ∀ a ∈ as, P a) ∧ Fits (X.vecEnc w as) n

/-- a signature recovers the key that made it, and is not the all-zero one that stands for none; an address of the
segregated-witness modes has compressed keys -/
structure SigningLaws (X : TxExt) : Prop where
  recover_sign : ∀ key hash sig, X.signHash key hash = .ok sig → X.recoverPoint hash sig = .ok (X.fromPrivate key)
  sign_ne_empty : ∀ key hash sig, X.signHash key hash = .ok sig → sig ≠ MessageSignature.empty
  p2wpkh_compressed : ∀ numSigs keys hash, X.fromPublicKeys .serializeP2WPKH numSigs keys = some hash →
    ∀ k ∈ keys, k.compressed = true

end Wrb.Tx
