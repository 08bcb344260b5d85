/-
A concrete `SiteExt`, for counterexamples.

Base64 is the standard alphabet with padding, and refuses text that no encoder writes. Principals have the format of
`clarity`: a type byte, an address, and for a contract the length and the bytes of its name. Hash and signature are
those of `X0`. Only the texts that go into messages are not the real ones.
-/
import Wrb.Runner.Zonefile
import Wrb.Storage.Reference

namespace Wrb.Runner

open Wrb.Wire Wrb.Storage

namespace Reference

open Wrb.Storage.Reference

/-- the character of a sextet -/
def base64Char (v : ℕ) : Char :=
  if v < 26 then Char.ofNat (v + 65)
  else if v < 52 then Char.ofNat (v + 71)
  else if v < 62 then Char.ofNat (v - 4)
  else if v = 62 then '+'
  else '/'

/-- the sextet of a character of the alphabet -/
def base64Digit (c : Char) : Option ℕ :=
  let n := c.toNat
  if 65 ≤ n ∧ n < 91 then some (n - 65)
  else if 97 ≤ n ∧ n < 123 then some (n - 71)
  else if 48 ≤ n ∧ n < 58 then some (n + 4)
  else if n = 43 then some 62
  else if n = 47 then some 63
  else none

/-- the characters of the `n` low sextets of `v`, most significant first -/
def base64Chars (n v : ℕ) : List Char := (List.range n).reverse.map fun k => base64Char (v / 64 ^ k % 64)

def base64Value (s : List Char) : Option ℕ :=
  s.foldlM (fun acc c => (base64Digit c).map (acc * 64 + ·)) 0

def base64EncodeChars : Bytes → List Char
  | [] => []
  | [x] => base64Chars 2 (x.toNat * 16) ++ ['=', '=']
  | [x, y] => base64Chars 3 (beNat [x, y] * 4) ++ ['=']
  | x :: y :: z :: rest => base64Chars 4 (beNat [x, y, z]) ++ base64EncodeChars rest

def base64DecodeChars : List Char → Option Bytes
  | [] => some []
  | [a, b, '=', '='] => (base64Value [a, b]).bind fun v => if v % 16 = 0 then some (beBytes 1 (v / 16)) else none
  | [a, b, c, '='] => (base64Value [a, b, c]).bind fun v => if v % 4 = 0 then some (beBytes 2 (v / 4)) else none
  | a :: b :: c :: d :: rest => (base64Value [a, b, c, d]).bind fun v => (base64DecodeChars rest).map (beBytes 3 v ++ ·)
  | _ => none

def standardPrincipal : Codec CodecError StandardPrincipalData where
  enc p := X0.u8.enc p.version ++ X0.hash160.enc p.bytes
  dec := do
    let version ← X0.u8.dec
    let bytes ← X0.hash160.dec
    pure ⟨version, bytes⟩

def contractName : Codec CodecError String where
  enc name := X0.u8.enc (UInt8.ofNat (asBytes name).length) ++ asBytes name
  dec := do
    let len ← X0.u8.dec
    let bytes ← readExact (.readError "failed to fill whole buffer") len.toNat
    match fromUtf8 bytes with
    | some name => pure name
    | none => throw (.deserializeError "Failed to parse Contract name: not UTF-8")

def principal : Codec CodecError PrincipalData where
  enc
    | .standard p => X0.u8.enc 5 ++ standardPrincipal.enc p
    | .contract c => X0.u8.enc 6 ++ (standardPrincipal.enc c.issuer ++ contractName.enc c.name)
  dec := do
    let typePrefix ← X0.u8.dec
    if typePrefix = 5 then
      let p ← standardPrincipal.dec
      pure (.standard p)
    else if typePrefix = 6 then
      let issuer ← standardPrincipal.dec
      let name ← contractName.dec
      pure (.contract ⟨issuer, name⟩)
    else throw (.deserializeError s!"Unknown principal type prefix {typePrefix}")

end Reference

/-- the reference functions, with base64 and the formats of `clarity` -/
def X1 : SiteExt where
  toExt := X0
  principal := Reference.principal
  sha512Trunc256Sum := Storage.Reference.be 32 BitVec.toNat (BitVec.ofNat 256)
  messageSignature := Storage.Reference.be 65 BitVec.toNat (BitVec.ofNat 520)
  base64Encode bytes := String.ofList (Reference.base64EncodeChars bytes)
  base64Decode s :=
    match Reference.base64DecodeChars s.toList with
    | some bytes => .ok bytes
    | none => .error "InvalidEncoding"
  showUtf8Error _ := "Utf8Error"
  showContractId c := s!"{c.issuer.version}:{c.issuer.bytes.toNat}.{c.name}"
  showSocketAddr
    | .v4 ip port => s!"{ip.toNat}:{port}"
    | .v6 ip port _ _ => s!"[{ip.toNat}]:{port}"
  showHash hash := s!"{hash.toNat}"
  showError _ := "Error"

theorem X1_base64Decode {s : List Char} {bytes : Bytes} (h : Reference.base64DecodeChars s = some bytes) :
    X1.base64Decode (String.ofList s) = .ok bytes := by
  simp only [X1, String.toList_ofList, h]

end Wrb.Runner
