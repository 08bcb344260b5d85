/-
Zonefiles and the WRB TXT records in them (`src/runner/site.rs`).

A zonefile is decoded line by line; a line that does not read as `NAME [TTL] CLASS TYPE PAYLOAD` is skipped. The payload
of a WRB TXT record is the base64 text of a contract ID and of the metadata of the slot that holds the site.

Text is a list of characters while it is taken apart. `SiteExt` adds to `Ext` what this part of the source takes from
`clarity`, `base64ct` and the standard library's formatting.
-/
import Mathlib.Data.List.DropRight
import Wrb.Runner.Error
import Wrb.Storage.SuperblockCodec

namespace Wrb.Runner

open Wrb.Wire Wrb.Storage

/-! ## Types of `clarity` and of the standard library -/

structure StandardPrincipalData where
  version : UInt8
  bytes : Hash160
deriving DecidableEq, Repr

structure QualifiedContractIdentifier where
  issuer : StandardPrincipalData
  name : String
deriving DecidableEq, Repr

inductive PrincipalData where
  | standard (p : StandardPrincipalData)
  | contract (id : QualifiedContractIdentifier)
deriving DecidableEq, Repr

inductive SocketAddr where
  | v4 (ip : BitVec 32) (port : UInt16)
  | v6 (ip : BitVec 128) (port : UInt16) (flowinfo scopeId : UInt32)
deriving DecidableEq, Repr

/-- what loading a site takes from outside the repository, besides what the storage layer does -/
structure SiteExt extends Ext where
  principal : Codec CodecError PrincipalData
  sha512Trunc256Sum : Codec CodecError Sha512Trunc256Sum
  messageSignature : Codec CodecError MessageSignature
  base64Encode : Bytes → String
  /-- `Base64::decode_vec`; the error is given as it is written in messages -/
  base64Decode : String → Except String Bytes
  showUtf8Error : Bytes → String
  showContractId : QualifiedContractIdentifier → String
  showSocketAddr : SocketAddr → String
  showHash : Sha512Trunc256Sum → String
  /-- an error of the runner, as `\x7b:?\x7d` writes it -/
  showError : Error → String

/-! ## Text -/

/-- `str::is_ascii` -/
def isAsciiText (s : List Char) : Bool := s.all fun c => c.toNat < 128

/-- the whitespace of ASCII text, for `str::trim` -/
def isWhitespace (c : Char) : Bool := c = ' ' || ('\t' ≤ c && c ≤ '\r')

def trim (s : List Char) : List Char := (s.dropWhile isWhitespace).rdropWhile isWhitespace

/-- drop the pattern's characters that are left, then look for the next match -/
def replaceFrom (pattern new : List Char) : ℕ → List Char → List Char
  | _, [] => []
  | skip + 1, _ :: cs => replaceFrom pattern new skip cs
  | 0, c :: cs =>
    if pattern.isPrefixOf (c :: cs) then new ++ replaceFrom pattern new (pattern.length - 1) cs
    else c :: replaceFrom pattern new 0 cs

/-- `str::replace`, for a pattern that is not empty -/
def replace (pattern new s : List Char) : List Char := replaceFrom pattern new 0 s

def stripPrefix (p : Char) : List Char → Option (List Char)
  | c :: cs => if c = p then some cs else none
  | [] => none

def stripSuffix (p : Char) (s : List Char) : Option (List Char) := (stripPrefix p s.reverse).map List.reverse

def startsWith (p : Char) (s : List Char) : Bool := s.head? == some p

def endsWith (p : Char) (s : List Char) : Bool := s.getLast? == some p

/-- `str::parse::<u64>`: decimal digits after an optional plus sign, of a number below `2 ^ 64` -/
def parseU64 (tok : List Char) : Option UInt64 :=
  let digits := (stripPrefix '+' tok).getD tok
  let n := digits.foldl (fun acc c => acc * 10 + (c.toNat - '0'.toNat)) 0
  if digits ≠ [] ∧ digits.all Char.isDigit = true ∧ n < 2 ^ 64 then some (UInt64.ofNat n) else none

/-! ## Resource records -/

/-- barebones zonefile resource record -/
structure ZonefileResourceRecord where
  rrName : String
  rrTtl : Option UInt64
  rrClass : String
  rrType : String
  /-- the record text, unescaped -/
  rrPayload : String
deriving DecidableEq

namespace ZonefileResourceRecord

def escapeString (s : List Char) : Option (List Char) :=
  if isAsciiText s then
    let escaped := replace ['"'] ['\\', '"'] (replace ['\\'] ['\\', '\\'] s)
    some ('"' :: escaped ++ ['"'])
  else none

def unescapeString (s : List Char) : Option (List Char) :=
  if isAsciiText s then
    let stripped :=
      if startsWith '"' s && endsWith '"' s then (stripPrefix '"' s).bind (stripSuffix '"') else some s
    stripped.map fun t => replace ['\\', '\\'] ['\\'] (replace ['\\', '"'] ['"'] t)
  else none

/-- `ToString::to_string` -/
def toText (rr : ZonefileResourceRecord) : String :=
  let payloadQuoted := String.ofList ((escapeString rr.rrPayload.toList).getD ['"', '"'])
  let ttl := (rr.rrTtl.map fun ttl => s!"{ttl}").getD ""
  s!"{rr.rrName}\t{ttl}\t{rr.rrClass}\t{rr.rrType}\t{payloadQuoted}"

end ZonefileResourceRecord

/-- the token loop: the fields and the TTL, or `none` for a line whose class is not of two bytes; number tokens after
the name are TTLs, and the last one counts -/
def readTokens : List (List Char) → List (List Char) → Option UInt64 → Option (List (List Char) × Option UInt64)
  | [], parts, rrTtl => some (parts, rrTtl)
  | tok :: toks, parts, rrTtl =>
    if tok.length = 0 then readTokens toks parts rrTtl
    else if parts.length = 1 then
      match parseU64 tok with
      | some ttl => readTokens toks parts (some ttl)
      | none => if tok.length ≠ 2 then none else readTokens toks (parts ++ [tok]) rrTtl
    else readTokens toks (parts ++ [tok]) rrTtl

/-- one round of the line loop: the record the line reads as. The fields are taken from the end, so that what stands
between the name and the last three fields is dropped -/
def decodeLine (rawLine : List Char) : Option ZonefileResourceRecord :=
  if rawLine.length = 0 then none
  else
    match readTokens ((trim rawLine).splitOnP fun c => c = ' ' || c = '\t') [] none with
    | none => none
    | some (parts, rrTtl) =>
      match parts.reverse with
      | payload :: rrType :: rrClass :: rrName :: _ => some {
          rrName := String.ofList rrName
          rrTtl := rrTtl
          rrClass := String.ofList rrClass
          rrType := String.ofList rrType
          rrPayload := String.ofList ((ZonefileResourceRecord.unescapeString payload).getD []) }
      | _ => none

/-- decode a zonefile into resource records -/
def decodeZonefileRecords (X : SiteExt) (zonefile : Bytes) : Except Error (List ZonefileResourceRecord) :=
  match fromUtf8 zonefile with
  | none => .error (.deserialize s!"Zonefile is not a UTF-8 string: {X.showUtf8Error zonefile}")
  | some zonefileStr =>
    if isAsciiText zonefileStr.toList then .ok ((zonefileStr.toList.splitOn '\n').filterMap decodeLine)
    else .error (.deserialize "Zonefile is not an ASCII string")

/-- the records of an ASCII zonefile are those of its lines -/
theorem decodeZonefileRecords_eq (X : SiteExt) {zonefile : Bytes} {text : String}
    (htext : fromUtf8 zonefile = some text) (h : isAsciiText text.toList = true) :
    decodeZonefileRecords X zonefile = .ok ((text.toList.splitOn '\n').filterMap decodeLine) := by
  unfold decodeZonefileRecords
  rw [htext]
  dsimp only
  rw [if_pos h]

theorem decodeZonefileRecords_asBytes (X : SiteExt) {s : List Char} (h : isAsciiText s = true) :
    decodeZonefileRecords X (asBytes (String.ofList s)) = .ok ((s.splitOn '\n').filterMap decodeLine) := by
  have heq := decodeZonefileRecords_eq X (WrbpodSuperblock.fromUtf8_asBytes (String.ofList s))
  rw [String.toList_ofList] at heq
  exact heq h

/-! ## WRB TXT records -/

structure WrbTxtRecordV1 where
  contractId : QualifiedContractIdentifier
  slotMetadata : SlotMetadata
deriving DecidableEq, Repr

/-- information embedded in a wrbsite TXT record in a BNS zonefile -/
inductive WrbTxtRecord where
  | v1 (payload : WrbTxtRecordV1)
deriving DecidableEq, Repr

namespace WrbTxtRecordV1

def serializeSlotMetadata (X : SiteExt) (r : WrbTxtRecordV1) : Bytes :=
  X.u32.enc r.slotMetadata.slotId ++ (X.u32.enc r.slotMetadata.slotVersion ++
    (X.sha512Trunc256Sum.enc r.slotMetadata.dataHash ++ X.messageSignature.enc r.slotMetadata.signature))

def serializeContractId (X : SiteExt) (r : WrbTxtRecordV1) : Bytes := X.principal.enc (.contract r.contractId)

def deserializeSlotMetadata (X : SiteExt) : Decoder CodecError SlotMetadata := do
  let slotId ← X.u32.dec
  let slotVersion ← X.u32.dec
  let dataHash ← X.sha512Trunc256Sum.dec
  let signature ← X.messageSignature.dec
  pure ⟨slotId, slotVersion, dataHash, signature⟩

def deserializeContractId (X : SiteExt) : Decoder CodecError QualifiedContractIdentifier := do
  match ← X.principal.dec with
  | .contract c => pure c
  | .standard _ => throw (.deserializeError "Not a contract principal")

def consensusSerialize (X : SiteExt) (r : WrbTxtRecordV1) : Bytes :=
  r.serializeContractId X ++ r.serializeSlotMetadata X

def consensusDeserialize (X : SiteExt) : Decoder CodecError WrbTxtRecordV1 := do
  let contractId ← deserializeContractId X
  let slotMetadata ← deserializeSlotMetadata X
  pure ⟨contractId, slotMetadata⟩

end WrbTxtRecordV1

namespace WrbTxtRecord

def consensusSerialize (X : SiteExt) : WrbTxtRecord → Bytes
  | .v1 payload => X.u8.enc 1 ++ payload.consensusSerialize X

def consensusDeserialize (X : SiteExt) : Decoder CodecError WrbTxtRecord := do
  let version ← X.u8.dec
  if version = 1 then
    let payload ← WrbTxtRecordV1.consensusDeserialize X
    pure (.v1 payload)
  else throw (.deserializeError s!"Unsupported version {version}")

/-- the payload without its quotes, if it stands between quotes -/
def dequote (rrPayload : List Char) : Except Error (List Char) :=
  if startsWith '"' rrPayload && endsWith '"' rrPayload then
    match stripPrefix '"' rrPayload with
    | none => .error (.deserialize "Failed to strip leading '\"'")
    | some rest =>
      match stripSuffix '"' rest with
      | none => .error (.deserialize "Failed to strip trailing '\"'")
      | some inner => .ok (replace ['\\', '"'] ['"'] inner)
  else .ok rrPayload

/-- `TryFrom<ZonefileResourceRecord>`; bytes after the record are ignored -/
def tryFrom (X : SiteExt) (rr : ZonefileResourceRecord) : Except Error WrbTxtRecord :=
  if rr.rrName ≠ "wrb" then .error (.deserialize "Resource record name is not 'wrb'")
  else if rr.rrType ≠ "TXT" then .error (.deserialize "Resource record type is not 'TXT'")
  else if rr.rrClass ≠ "IN" then .error (.deserialize "Resource record class is not 'IN'")
  else
    match dequote rr.rrPayload.toList with
    | .error e => .error e
    | .ok rrPayload =>
      match X.base64Decode (String.ofList rrPayload) with
      | .error e => .error (.deserialize s!"Failed to decode base64 TXT: {e}")
      | .ok bytes =>
        match (consensusDeserialize X).run bytes with
        | .error _ => .error (.deserialize "Failed to decode WrbTxtRecord")
        | .ok (r, _) => .ok r

/-- what a resource record must be to read as the WRB TXT record `r` -/
theorem tryFrom_ok_iff {X : SiteExt} {rr : ZonefileResourceRecord} {r : WrbTxtRecord} :
    tryFrom X rr = .ok r ↔ rr.rrName = "wrb" ∧ rr.rrType = "TXT" ∧ rr.rrClass = "IN" ∧
      ∃ payload bytes rest, dequote rr.rrPayload.toList = .ok payload ∧
        X.base64Decode (String.ofList payload) = .ok bytes ∧ (consensusDeserialize X).run bytes = .ok (r, rest) := by
  unfold tryFrom
  split_ifs with hname htype hclass
  · simp [hname]
  · simp [htype]
  · simp [hclass]
  rw [not_not] at hname htype hclass
  cases hquotes : dequote rr.rrPayload.toList with
  | error e => simp
  | ok payload =>
    dsimp only
    cases hbase64 : X.base64Decode (String.ofList payload) with
    | error e => simp [hbase64]
    | ok bytes =>
      dsimp only
      cases hdec : (consensusDeserialize X).run bytes with
      | error e => simp [hbase64, hdec]
      | ok p => simp [hname, htype, hclass, hbase64, hdec, Prod.ext_iff]

end WrbTxtRecord

/-- `TryFrom<WrbTxtRecord>` -/
def ZonefileResourceRecord.tryFrom (X : SiteExt) (wrbTxt : WrbTxtRecord) : Except Error ZonefileResourceRecord :=
  let bytesB64 := X.base64Encode (wrbTxt.consensusSerialize X)
  if bytesB64.utf8ByteSize > 256 then
    .error (.serialize s!"Wrb TXT payload is too long: {bytesB64.utf8ByteSize} bytes")
  else .ok {
    rrName := "wrb"
    rrTtl := none
    rrClass := "IN"
    rrType := "TXT"
    rrPayload := bytesB64 }

end Wrb.Runner
