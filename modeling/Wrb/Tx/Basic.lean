/-
Stacks transactions (`src/tx/mod.rs`, `src/tx/string.rs`): their data, under the source's names.

A transaction has an authorization, which is one spending condition (standard) or two (sponsored: an origin and the
sponsor that pays), and a payload. The two kinds of multisig conditions have the same fields and differ in their hash
modes, so they are one structure over the type of hash modes. Numbers keep their width.

`TxExt` holds what the source takes from `stacks_common` and `clarity`: codecs, hashing and signatures, and the types of
public keys and Clarity values.
-/
import Wrb.Net.Messages

namespace Wrb.Tx

open Wrb.Wire Wrb.Storage Wrb.Runner Wrb.Net

/-! ## Types of `stacks_common` and `clarity` -/

abbrev Txid := BitVec 256
abbrev TokenTransferMemo := BitVec 272

/-- a public key, and whether it is written in compressed form -/
structure StacksPublicKey (Point : Type) where
  point : Point
  compressed : Bool
deriving DecidableEq, Repr

/-- a private key, and whether its public key is written in compressed form -/
structure StacksPrivateKey where
  key : Secp256k1PrivateKey
  compressPublic : Bool
deriving DecidableEq, Repr

inductive AddressHashMode where
  | serializeP2PKH
  | serializeP2SH
  | serializeP2WPKH
  | serializeP2WSH
deriving DecidableEq, Repr

inductive ClarityVersion where
  | clarity1
  | clarity2
  | clarity3
deriving DecidableEq, Repr

/-- `MessageSignature::empty()` -/
def MessageSignature.empty : MessageSignature := 0

/-- what the transaction code takes from outside the repository, besides what the p2p codec does -/
structure TxExt extends NetExt where
  Point : Type
  Value : Type
  signature : Codec CodecError MessageSignature
  memo : Codec CodecError TokenTransferMemo
  stacksAddress : Codec CodecError StacksAddress
  principal : Codec CodecError PrincipalData
  value : Codec CodecError Value
  /-- `ContractName::try_from(..).is_ok()` and `ClarityName::try_from(..).is_ok()` -/
  isContractName : String → Bool
  isClarityName : String → Bool
  clarityNameEnc : String → Except CodecError Bytes
  clarityNameDec : Decoder CodecError {s : String // isClarityName s = true}
  /-- the codec of `Vec<T>`; the reader refuses more items than the given limit -/
  vecEnc : {α : Type} → (α → Except WriteFault Bytes) → List α → Except WriteFault Bytes
  vecDec : {α : Type} → ℕ → Decoder CodecError α → Decoder CodecError (List α)
  /-- `MAX_MESSAGE_LEN` of `stacks_common::codec` -/
  maxMessageLen : ℕ
  /-- the limit of vectors of bytes, auth fields, post-conditions and values: `MAX_MESSAGE_LEN / size_of::<T>()` -/
  maxBytes : ℕ
  maxFields : ℕ
  maxPostConditions : ℕ
  maxFunctionArgs : ℕ
  /-- `StacksPublicKeyBuffer::from_public_key`, of the key alone -/
  pointToBuffer : Point → StacksPublicKeyBuffer
  /-- `StacksPublicKeyBuffer::to_public_key` -/
  pointOfBuffer : StacksPublicKeyBuffer → Except String Point
  /-- `StacksPublicKey::from_private`, of the key alone -/
  fromPrivate : Secp256k1PrivateKey → Point
  /-- `StacksPrivateKey::sign` -/
  signHash : Secp256k1PrivateKey → Txid → Except String MessageSignature
  /-- `StacksPublicKey::recover_to_pubkey` -/
  recoverPoint : Txid → MessageSignature → Except String Point
  /-- the hash of `StacksAddress::from_public_keys(0, mode, num_sigs, keys)` -/
  fromPublicKeys : AddressHashMode → ℕ → List (StacksPublicKey Point) → Option Hash160
  /-- a hash as it is written in messages -/
  showHash160 : Hash160 → String

/-- `StacksPublicKey::from_private` -/
def StacksPublicKey.fromPrivate (X : TxExt) (privk : StacksPrivateKey) : StacksPublicKey X.Point :=
  ⟨X.fromPrivate privk.key, privk.compressPublic⟩

def StacksPublicKey.setCompressed {Point : Type} (pubk : StacksPublicKey Point) (b : Bool) : StacksPublicKey Point :=
  { pubk with compressed := b }

@[simp] theorem StacksPublicKey.setCompressed_self {Point : Type} (pubk : StacksPublicKey Point) :
    pubk.setCompressed pubk.compressed = pubk := rfl

/-! ## `src/tx/string.rs` -/

/-- a printable ASCII character, a tab or a newline -/
def isPrintableChar (c : Char) : Bool :=
  (decide (0x20 ≤ c.toNat) || c.toNat = 9 || c.toNat = 10) && decide (c.toNat ≤ 0x7e)

/-- text that can be encoded: printable ASCII -/
structure StacksString where
  text : String
  valid : text.toList.all isPrintableChar = true
deriving DecidableEq

namespace StacksString

def isValidString (s : String) : Bool := s.toList.all isPrintableChar

def fromStr (s : String) : Option StacksString :=
  if h : isValidString s = true then some ⟨s, h⟩ else none

@[simp] theorem fromStr_text (s : StacksString) : fromStr s.text = some s := dif_pos s.valid

end StacksString

/-- a name that `clarity` accepts for a variable or a function -/
abbrev ClarityName (X : TxExt) := {s : String // X.isClarityName s = true}

/-! ## `src/tx/mod.rs` -/

/-- `src/tx/mod.rs`, `Error` -/
inductive Error where
  | signingError (msg : String)
  | verifyingError (msg : String)
  | incomplete
  | codec (e : CodecError)
  | incompatibleSpendingConditionError
deriving DecidableEq, Repr

/-- how a call ends that does not succeed -/
inductive Fault where
  | error (e : Error)
  | panicked (msg : String)
deriving DecidableEq, Repr

def MAX_TRANSACTION_LEN : ℕ := 2 * 1024 * 1024

inductive TransactionAnchorMode where
  | onChainOnly
  | offChainOnly
  | any
deriving DecidableEq, Repr

inductive TransactionAuthFlags where
  | authStandard
  | authSponsored
deriving DecidableEq, Repr

inductive TransactionAuthFieldID where
  | publicKeyCompressed
  | publicKeyUncompressed
  | signatureCompressed
  | signatureUncompressed
deriving DecidableEq, Repr

inductive TransactionPublicKeyEncoding where
  | compressed
  | uncompressed
deriving DecidableEq, Repr

inductive TransactionAuthField (X : TxExt) where
  | publicKey (pubk : StacksPublicKey X.Point)
  | signature (keyEncoding : TransactionPublicKeyEncoding) (sig : MessageSignature)

inductive SinglesigHashMode where
  | p2pkh
  | p2wpkh
deriving DecidableEq, Repr

inductive MultisigHashMode where
  | p2sh
  | p2wsh
deriving DecidableEq, Repr

inductive OrderIndependentMultisigHashMode where
  | p2sh
  | p2wsh
deriving DecidableEq, Repr

structure SinglesigSpendingCondition where
  hashMode : SinglesigHashMode
  signer : Hash160
  /-- nth authorization from this account -/
  nonce : UInt64
  txFee : UInt64
  keyEncoding : TransactionPublicKeyEncoding
  signature : MessageSignature
deriving DecidableEq, Repr

/-- the fields of both kinds of multisig conditions -/
structure MultisigCondition (X : TxExt) (Mode : Type) where
  hashMode : Mode
  signer : Hash160
  nonce : UInt64
  txFee : UInt64
  fields : List (TransactionAuthField X)
  signaturesRequired : UInt16

abbrev MultisigSpendingCondition (X : TxExt) := MultisigCondition X MultisigHashMode
abbrev OrderIndependentMultisigSpendingCondition (X : TxExt) := MultisigCondition X OrderIndependentMultisigHashMode

inductive TransactionSpendingCondition (X : TxExt) where
  | singlesig (data : SinglesigSpendingCondition)
  | multisig (data : MultisigSpendingCondition X)
  | orderIndependentMultisig (data : OrderIndependentMultisigSpendingCondition X)

inductive TransactionAuth (X : TxExt) where
  | standard (origin : TransactionSpendingCondition X)
  /-- the second account pays on behalf of the first account -/
  | sponsored (origin sponsor : TransactionSpendingCondition X)

structure TransactionContractCall (X : TxExt) where
  address : StacksAddress
  contractName : String
  functionName : ClarityName X
  functionArgs : List X.Value

structure TransactionSmartContract where
  name : String
  codeBody : StacksString
deriving DecidableEq

inductive TransactionPayload (X : TxExt) where
  | tokenTransfer (address : PrincipalData) (amount : UInt64) (memo : TokenTransferMemo)
  | contractCall (cc : TransactionContractCall X)
  | smartContract (sc : TransactionSmartContract) (version : Option ClarityVersion)

structure AssetInfo (X : TxExt) where
  contractAddress : StacksAddress
  contractName : String
  assetName : ClarityName X

inductive FungibleConditionCode where
  | sentEq
  | sentGt
  | sentGe
  | sentLt
  | sentLe
deriving DecidableEq, Repr

inductive NonfungibleConditionCode where
  | sent
  | notSent
deriving DecidableEq, Repr

inductive PostConditionPrincipal where
  | origin
  | standard (address : StacksAddress)
  | contract (address : StacksAddress) (contractName : String)
deriving DecidableEq, Repr

inductive TransactionPostCondition (X : TxExt) where
  | stx (principal : PostConditionPrincipal) (condition : FungibleConditionCode) (amount : UInt64)
  | fungible (principal : PostConditionPrincipal) (asset : AssetInfo X) (condition : FungibleConditionCode)
    (amount : UInt64)
  | nonfungible (principal : PostConditionPrincipal) (asset : AssetInfo X) (assetValue : X.Value)
    (condition : NonfungibleConditionCode)

inductive TransactionPostConditionMode where
  | allow
  | deny
deriving DecidableEq, Repr

inductive TransactionVersion where
  | mainnet
  | testnet
deriving DecidableEq, Repr

structure StacksTransaction (X : TxExt) where
  version : TransactionVersion
  chainId : UInt32
  auth : TransactionAuth X
  anchorMode : TransactionAnchorMode
  postConditionMode : TransactionPostConditionMode
  postConditions : List (TransactionPostCondition X)
  payload : TransactionPayload X

/-! ## Numbers of the enumerations -/

def TransactionAuthFlags.toU8 : TransactionAuthFlags → UInt8
  | authStandard => 0x04
  | authSponsored => 0x05

def TransactionAuthFieldID.toU8 : TransactionAuthFieldID → UInt8
  | publicKeyCompressed => 0x00
  | publicKeyUncompressed => 0x01
  | signatureCompressed => 0x02
  | signatureUncompressed => 0x03

namespace TransactionPublicKeyEncoding

def toU8 : TransactionPublicKeyEncoding → UInt8
  | compressed => 0x00
  | uncompressed => 0x01

def fromU8 (n : UInt8) : Option TransactionPublicKeyEncoding :=
  if n = compressed.toU8 then some compressed else if n = uncompressed.toU8 then some uncompressed else none

/-- the encoding of a key with this flag -/
def ofBool (b : Bool) : TransactionPublicKeyEncoding := if b then compressed else uncompressed

def toBool : TransactionPublicKeyEncoding → Bool
  | compressed => true
  | uncompressed => false

@[simp] theorem toBool_ofBool (b : Bool) : (ofBool b).toBool = b := by cases b <;> rfl
@[simp] theorem ofBool_toBool (e : TransactionPublicKeyEncoding) : ofBool e.toBool = e := by cases e <;> rfl

end TransactionPublicKeyEncoding

namespace SinglesigHashMode

def toU8 : SinglesigHashMode → UInt8
  | p2pkh => 0x00
  | p2wpkh => 0x02

def fromU8 (n : UInt8) : Option SinglesigHashMode :=
  if n = p2pkh.toU8 then some p2pkh else if n = p2wpkh.toU8 then some p2wpkh else none

def toAddressHashMode : SinglesigHashMode → AddressHashMode
  | p2pkh => .serializeP2PKH
  | p2wpkh => .serializeP2WPKH

end SinglesigHashMode

namespace MultisigHashMode

def toU8 : MultisigHashMode → UInt8
  | p2sh => 0x01
  | p2wsh => 0x03

def fromU8 (n : UInt8) : Option MultisigHashMode :=
  if n = p2sh.toU8 then some p2sh else if n = p2wsh.toU8 then some p2wsh else none

def toAddressHashMode : MultisigHashMode → AddressHashMode
  | p2sh => .serializeP2SH
  | p2wsh => .serializeP2WSH

end MultisigHashMode

namespace OrderIndependentMultisigHashMode

def toU8 : OrderIndependentMultisigHashMode → UInt8
  | p2sh => 0x05
  | p2wsh => 0x07

def fromU8 (n : UInt8) : Option OrderIndependentMultisigHashMode :=
  if n = p2sh.toU8 then some p2sh else if n = p2wsh.toU8 then some p2wsh else none

def toAddressHashMode : OrderIndependentMultisigHashMode → AddressHashMode
  | p2sh => .serializeP2SH
  | p2wsh => .serializeP2WSH

end OrderIndependentMultisigHashMode

def TransactionAnchorMode.toU8 : TransactionAnchorMode → UInt8
  | onChainOnly => 1
  | offChainOnly => 2
  | any => 3

def TransactionPostConditionMode.toU8 : TransactionPostConditionMode → UInt8
  | allow => 0x01
  | deny => 0x02

def TransactionVersion.toU8 : TransactionVersion → UInt8
  | mainnet => 0x00
  | testnet => 0x80

namespace FungibleConditionCode

def toU8 : FungibleConditionCode → UInt8
  | sentEq => 0x01
  | sentGt => 0x02
  | sentGe => 0x03
  | sentLt => 0x04
  | sentLe => 0x05

def fromU8 (b : UInt8) : Option FungibleConditionCode :=
  if b = 0x01 then some sentEq else if b = 0x02 then some sentGt else if b = 0x03 then some sentGe
  else if b = 0x04 then some sentLt else if b = 0x05 then some sentLe else none

end FungibleConditionCode

namespace NonfungibleConditionCode

def toU8 : NonfungibleConditionCode → UInt8
  | sent => 0x10
  | notSent => 0x11

def fromU8 (b : UInt8) : Option NonfungibleConditionCode :=
  if b = 0x10 then some sent else if b = 0x11 then some notSent else none

end NonfungibleConditionCode

/-- the numbers of the variants of `TransactionPayload`, post-condition principals and asset types -/
inductive TransactionPayloadID where
  | tokenTransfer
  | smartContract
  | contractCall
  | versionedSmartContract
deriving DecidableEq, Repr

def TransactionPayloadID.toU8 : TransactionPayloadID → UInt8
  | tokenTransfer => 0
  | smartContract => 1
  | contractCall => 2
  | versionedSmartContract => 6

def TransactionPayloadID.fromU8 (n : UInt8) : Option TransactionPayloadID :=
  if n = tokenTransfer.toU8 then some tokenTransfer else if n = smartContract.toU8 then some smartContract
  else if n = contractCall.toU8 then some contractCall
  else if n = versionedSmartContract.toU8 then some versionedSmartContract else none

inductive AssetInfoID where
  | stx
  | fungibleAsset
  | nonfungibleAsset
deriving DecidableEq, Repr

def AssetInfoID.toU8 : AssetInfoID → UInt8
  | stx => 0
  | fungibleAsset => 1
  | nonfungibleAsset => 2

inductive PostConditionPrincipalID where
  | origin
  | standard
  | contract
deriving DecidableEq, Repr

def PostConditionPrincipalID.toU8 : PostConditionPrincipalID → UInt8
  | origin => 0x01
  | standard => 0x02
  | contract => 0x03

end Wrb.Tx
