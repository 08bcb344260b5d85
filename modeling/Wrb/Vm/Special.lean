/-
The special cases of `.wrb-ll` that turn bytes and texts into values for contracts (`vm/special.rs`): `err_ascii_512`,
the two string conversions, and the failed case of `call-readonly`.

A contract calls one of these functions, its handler makes a response, and stores it by calling a private function of
the contract, which takes a response of a declared type. What goes wrong on the way, past the arguments, is a panic.

Model: `none` is a panic. The constructors of Clarity values are not in the repository, they are parameters
(`ClarityExt`). A response that is not of the declared type cannot be stored (`fits`).

Results:
- `trampolines_right_iff`: a call is answered right, whatever is stored before it (`Call.Right`), exactly if
  `Call.RightWhen`: an error message is short and ASCII; bytes are no text, or a short ASCII text without escapes; an
  ASCII text has no escapes, and is shorter than the longest one;
- `longest_ascii_refused`: the longest ASCII text is refused.
-/
import Mathlib.Tactic
import Wrb.Storage.SuperblockCodec

namespace Wrb.Vm

open Wrb.Wire
open Wrb.Storage (asBytes asBytes_eq asBytes_append asBytes_toString toDigits_range isAscii fromUtf8)

/-! ## Clarity -/

/-- an item of a `string-ascii`: a letter, a digit, a punctuation mark or whitespace -/
def isAsciiItem (b : UInt8) : Bool := (0x20 ≤ b && b ≤ 0x7E) || b = 0x09 || b = 0x0A || b = 0x0C || b = 0x0D

def isHexDigit (c : Char) : Bool := c.isDigit || ('a' ≤ c && c ≤ 'f') || ('A' ≤ c && c ≤ 'F')

/-- does a text start with a code point in hexadecimal, as literals have it: a backslash, `u`, and digits in braces -/
def startsWithEscape : List Char → Bool
  | '\\' :: 'u' :: '\x7b' :: text =>
    !(text.takeWhile isHexDigit).isEmpty && (text.dropWhile isHexDigit).head? = some '\x7d'
  | _ => false

def hasEscape (text : List Char) : Bool := text.tails.any startsWithEscape

/-- the constructors of Clarity values; `none` is an error, or a panic -/
structure ClarityExt where
  /-- `Value::string_ascii_from_bytes` -/
  stringAsciiFromBytes : Bytes → Option Bytes
  stringAscii_eq : ∀ bytes data, stringAsciiFromBytes bytes = some data → data = bytes
  /-- of short bytes only the items are checked -/
  stringAscii_isSome : ∀ bytes, bytes.length ≤ 512 →
    ((stringAsciiFromBytes bytes).isSome = true ↔ ∀ b ∈ bytes, isAsciiItem b = true)
  /-- `Value::buff_from` -/
  buffFrom : Bytes → Option Bytes
  /-- `Value::string_utf8_from_string_utf8_literal`: the code points of a literal in a program -/
  stringUtf8FromStringUtf8Literal : String → Option (List Char)
  /-- a literal is ASCII, and only escapes are not taken as they stand -/
  literal_self : ∀ s : String, s.length ≤ 102400 →
    (stringUtf8FromStringUtf8Literal s = some s.toList ↔ isAscii s = true ∧ hasEscape s.toList = false)

/-- `{ code: uint, message: (string-ascii 512) }`, of which the length is checked only where it is stored -/
structure ErrAscii where
  code : ℕ
  message : Bytes
deriving DecidableEq, Repr

abbrev Response (α : Type) := Except ErrAscii α

/-- is it a `(response (T maxLen) { code: uint, message: (string-ascii 512) })`, for a type of sequences `T` -/
def fits {α : Type} (maxLen : ℕ) : Response (List α) → Bool
  | .ok items => items.length ≤ maxLen
  | .error e => e.message.length ≤ 512

/-- a value that a contract passes to a handler -/
inductive ArgValue where
  | buff (data : Bytes)
  | ascii (text : String)
  | other
deriving DecidableEq, Repr

/-- the errors that a handler returns; those of Clarity without their texts -/
inductive InterpreterError where
  | interpreterError (msg : String)
  | expect
deriving DecidableEq, Repr

/-- `Value::expect_buff` -/
def ArgValue.expectBuff (maxLen : ℕ) : ArgValue → Except InterpreterError Bytes
  | .buff data => if data.length ≤ maxLen then .ok data else .error .expect
  | _ => .error .expect

/-- `Value::expect_ascii` -/
def ArgValue.expectAscii : ArgValue → Except InterpreterError String
  | .ascii text => .ok text
  | _ => .error .expect

/-! ## The data variables of `.wrb-ll` -/

structure LowLevelVars where
  lastCallReadonly : Response Bytes
  lastBuffToStringUtf8 : Response (List Char)
  lastStringAsciiToStringUtf8 : Response (List Char)

namespace LowLevelVars

def setLastCallReadonly (vars : LowLevelVars) (result : Response Bytes) : Option LowLevelVars :=
  if fits 102400 result then some { vars with lastCallReadonly := result } else none

def setLastBuffToStringUtf8 (vars : LowLevelVars) (convRes : Response (List Char)) : Option LowLevelVars :=
  if fits 25600 convRes then some { vars with lastBuffToStringUtf8 := convRes } else none

def setLastStringAsciiToStringUtf8 (vars : LowLevelVars) (convRes : Response (List Char)) : Option LowLevelVars :=
  if fits 25600 convRes then some { vars with lastStringAsciiToStringUtf8 := convRes } else none

end LowLevelVars

/-! ## Errors of UTF-8 -/

/-- `std::str::Utf8Error` -/
structure Utf8Error where
  validUpTo : ℕ
  errorLen : Option ℕ
deriving DecidableEq, Repr

def isContinuation (b : UInt8) : Bool := 0x80 ≤ b && b ≤ 0xBF

/-- the number of bytes of the code point that a byte starts; zero if it starts none -/
def utf8CharWidth (b : UInt8) : ℕ :=
  if b ≤ 0x7F then 1
  else if 0xC2 ≤ b ∧ b ≤ 0xDF then 2
  else if 0xE0 ≤ b ∧ b ≤ 0xEF then 3
  else if 0xF0 ≤ b ∧ b ≤ 0xF4 then 4
  else 0

/-- may the byte be the second one of a code point of three bytes or more: overlong forms, surrogates and numbers beyond
the last code point are left out -/
def isSecond (first b : UInt8) : Bool :=
  if first = 0xE0 then 0xA0 ≤ b && b ≤ 0xBF
  else if first = 0xED then 0x80 ≤ b && b ≤ 0x9F
  else if first = 0xF0 then 0x90 ≤ b && b ≤ 0xBF
  else if first = 0xF4 then 0x80 ≤ b && b ≤ 0x8F
  else isContinuation b

/-- the length of the bad sequence at the start of `bytes`, or `none` where the bytes end too early -/
def badLen : Bytes → Option ℕ
  | [] => none
  | first :: rest =>
    match utf8CharWidth first, rest with
    | 2, [] => none
    | 3, [] => none
    | 3, second :: rest => if isSecond first second then if rest = [] then none else some 2 else some 1
    | 4, [] => none
    | 4, second :: rest =>
      if isSecond first second then
        match rest with
        | [] => none
        | third :: rest => if isContinuation third then if rest = [] then none else some 3 else some 2
      else some 1
    | _, _ => some 1

/-- the error of `from_utf8`, for bytes that are no text -/
def utf8Error (bytes : Bytes) : Utf8Error :=
  let validUpTo := Nat.findGreatest (fun i => (fromUtf8 (bytes.take i)).isSome = true) bytes.length
  ⟨validUpTo, badLen (bytes.drop validUpTo)⟩

namespace Utf8Error

def debugLen : Option ℕ → String
  | none => "None"
  | some n => "Some(" ++ toString n ++ ")"

/-- as `\x7b:?\x7d` writes it -/
def debug (e : Utf8Error) : String :=
  "Utf8Error \x7b valid_up_to: " ++ toString e.validUpTo ++ ", error_len: " ++ debugLen e.errorLen ++ " \x7d"

end Utf8Error

/-! ## The handlers -/

def WRB_ERR_READONLY_FAILURE : ℕ := 2000
def WRB_ERR_BUFF_TO_UTF8_FAILURE : ℕ := 3000
def WRB_ERR_STRING_ASCII_TO_STRING_UTF8_FAILURE : ℕ := 4000

section Handlers

variable (X : ClarityExt)

/-- make an `(err { code: uint, message: (string-ascii 512) })` -/
def errAscii512 {α : Type} (code : ℕ) (msg : String) : Option (Response α) :=
  (X.stringAsciiFromBytes (asBytes msg)).map fun message => .error ⟨code, message⟩

/-- the response of `handle_wrb_call_readonly` to what the runner answers: a value, serialized, or an error as
`\x7b:?\x7d` writes it -/
def callReadonlyResponse : Except String Bytes → Option (Response Bytes)
  | .ok data => (X.buffFrom data).map .ok
  | .error e => errAscii512 X WRB_ERR_READONLY_FAILURE ("wrb: failed call-readonly: " ++ e)

/-- `handle_wrb_call_readonly` from the answer of the runner on -/
def handleWrbCallReadonly (answer : Except String Bytes) (vars : LowLevelVars) :
    Option (Except InterpreterError LowLevelVars) := do
  let value ← callReadonlyResponse X answer
  let vars ← vars.setLastCallReadonly value
  return .ok vars

/-- the message for bytes that are no text -/
def notUtf8 (bytes : Bytes) : String := "wrb: failed to decode buffer to UTF-8: " ++ (utf8Error bytes).debug

def buffResponse (hexBuff : Bytes) : Option (Response (List Char)) :=
  match fromUtf8 hexBuff with
  | some s => (X.stringUtf8FromStringUtf8Literal s).map .ok
  | none => errAscii512 X WRB_ERR_BUFF_TO_UTF8_FAILURE (notUtf8 hexBuff)

def handleBuffToStringUtf8 (args : List ArgValue) (vars : LowLevelVars) :
    Option (Except InterpreterError LowLevelVars) :=
  match args with
  | [arg] =>
    match arg.expectBuff 102400 with
    | .error e => some (.error e)
    | .ok hexBuff => do
      let value ← buffResponse X hexBuff
      let vars ← vars.setLastBuffToStringUtf8 value
      return .ok vars
  | _ => some (.error (.interpreterError s!"Expected 1 argument, got {args.length}"))

def stringAsciiResponse (asciiStr : String) : Option (Response (List Char)) :=
  if (asBytes asciiStr).length < 25600 then (X.stringUtf8FromStringUtf8Literal asciiStr).map .ok
  else errAscii512 X WRB_ERR_STRING_ASCII_TO_STRING_UTF8_FAILURE "wrb: failed to convert ASCII to UTF-8: too big"

def handleStringAsciiToStringUtf8 (args : List ArgValue) (vars : LowLevelVars) :
    Option (Except InterpreterError LowLevelVars) :=
  match args with
  | [arg] =>
    match arg.expectAscii with
    | .error e => some (.error e)
    | .ok asciiStr => do
      let value ← stringAsciiResponse X asciiStr
      let vars ← vars.setLastStringAsciiToStringUtf8 value
      return .ok vars
  | _ => some (.error (.interpreterError s!"Expected 1 argument, got {args.length}"))

end Handlers

/-! ## Calls -/

/-- a call of a trampoline, or of `err_ascii_512` by any of them -/
inductive Call where
  | failedCallReadonly (e : String)
  | buffToStringUtf8 (arg : Bytes)
  | stringAsciiToStringUtf8 (arg : String)
  | errAscii512 (code : ℕ) (msg : String)
deriving DecidableEq, Repr

namespace Call

/-- is a text a `(string-ascii maxLen)` -/
def IsStringAscii (maxLen : ℕ) (text : String) : Prop :=
  (asBytes text).length ≤ maxLen ∧ ∀ b ∈ asBytes text, isAsciiItem b = true

/-- the arguments that the types of the contract admit -/
def Admitted : Call → Prop
  | failedCallReadonly _ => True
  | buffToStringUtf8 arg => arg.length ≤ 102400
  | stringAsciiToStringUtf8 arg => IsStringAscii 25600 arg
  | errAscii512 _ _ => True

/-- the response to bytes: their text, if they are one and it is not too long, and else an error -/
def RightResponse (arg : Bytes) (value : Response (List Char)) : Prop :=
  match fromUtf8 arg with
  | some s => if s.length ≤ 25600 then value = .ok s.toList else ∃ e, value = .error e
  | none => ∃ e, value = .error e

/-- **A call is answered**: there is no panic, and the right response is stored, of the declared type -/
def Right (X : ClarityExt) : Call → Prop
  | failedCallReadonly e => ∀ vars : LowLevelVars, ∃ err : ErrAscii,
      handleWrbCallReadonly X (.error e) vars = some (.ok { vars with lastCallReadonly := .error err }) ∧
        err.message.length ≤ 512
  | buffToStringUtf8 arg => ∀ vars : LowLevelVars, ∃ value,
      handleBuffToStringUtf8 X [.buff arg] vars = some (.ok { vars with lastBuffToStringUtf8 := value }) ∧
        fits 25600 value = true ∧ RightResponse arg value
  | stringAsciiToStringUtf8 arg => ∀ vars : LowLevelVars,
      handleStringAsciiToStringUtf8 X [.ascii arg] vars =
        some (.ok { vars with lastStringAsciiToStringUtf8 := .ok arg.toList }) ∧
          fits 25600 (.ok arg.toList : Response (List Char)) = true
  | errAscii512 code msg => ∃ err : ErrAscii, Vm.errAscii512 X code msg = some (.error err : Response Bytes) ∧
      err.message.length ≤ 512

/-- when it is -/
def RightWhen : Call → Prop
  | failedCallReadonly e => IsStringAscii 512 ("wrb: failed call-readonly: " ++ e)
  | buffToStringUtf8 arg => ∀ s, fromUtf8 arg = some s →
      s.length ≤ 25600 ∧ isAscii s = true ∧ hasEscape s.toList = false
  | stringAsciiToStringUtf8 arg => (asBytes arg).length < 25600 ∧ hasEscape arg.toList = false
  | errAscii512 _ msg => IsStringAscii 512 msg

end Call

/-! ## Texts and their bytes -/

/-- a character has a byte at least -/
theorem length_le_asBytes (s : String) : s.length ≤ (asBytes s).length := by
  rw [asBytes_eq, ← String.length_toList]
  induction s.toList with
  | nil => exact le_refl _
  | cons c cs ih =>
    have hpos := c.utf8Size_pos
    rw [List.flatMap_cons, List.length_append, List.length_cons, String.length_utf8EncodeChar]
    omega

theorem isAscii_of_items {s : String} (h : ∀ b ∈ asBytes s, isAsciiItem b = true) : isAscii s = true := by
  have hlow : ∀ b : UInt8, isAsciiItem b = true → b < 128 := by
    intro b hb
    simp only [isAsciiItem, Bool.or_eq_true, Bool.and_eq_true, decide_eq_true_eq] at hb
    rw [UInt8.lt_iff_toNat_lt]
    rcases hb with (((⟨-, hle⟩ | rfl) | rfl) | rfl) | rfl
    · exact (UInt8.le_iff_toNat_le.1 hle).trans_lt (by decide)
    all_goals decide
  exact List.all_eq_true.2 fun b hb => decide_eq_true (hlow b (h b hb))

/-! ## Messages -/

theorem Call.IsStringAscii.append {m n : ℕ} {s t : String} (hs : IsStringAscii m s) (ht : IsStringAscii n t) :
    IsStringAscii (m + n) (s ++ t) := by
  rw [IsStringAscii, asBytes_append, List.length_append]
  exact ⟨Nat.add_le_add hs.1 ht.1, List.forall_mem_append.2 ⟨hs.2, ht.2⟩⟩

theorem isStringAscii_of_all {n : ℕ} {s : String} (hlen : (asBytes s).length ≤ n)
    (hitems : (asBytes s).all isAsciiItem = true) : Call.IsStringAscii n s := ⟨hlen, List.all_eq_true.1 hitems⟩

theorem isAsciiItem_digits {n : ℕ} {b : UInt8} (h : b ∈ asBytes (toString n)) : isAsciiItem b = true := by
  rw [asBytes_toString] at h
  obtain ⟨c, hc, rfl⟩ := List.mem_map.1 h
  obtain ⟨hge, hle⟩ := toDigits_range hc
  have hval : (UInt8.ofNat c.toNat).toNat = c.toNat := UInt8.toNat_ofNat_of_lt' (hle.trans_lt (by decide))
  have hrange : 0x20 ≤ UInt8.ofNat c.toNat ∧ UInt8.ofNat c.toNat ≤ 0x7E := by
    rw [UInt8.le_iff_toNat_le, UInt8.le_iff_toNat_le, hval]
    exact ⟨le_trans (by decide) hge, hle.trans (by decide)⟩
  simp [isAsciiItem, hrange]

theorem isStringAscii_toString {n k : ℕ} (hk : 0 < k) (h : n < 10 ^ k) : Call.IsStringAscii k (toString n) := by
  refine ⟨?_, fun b hb => isAsciiItem_digits hb⟩
  rw [asBytes_toString, List.length_map]
  exact (Nat.length_toDigits_le_iff (by decide) hk).2 h

theorem badLen_le {bytes : Bytes} {n : ℕ} (h : badLen bytes = some n) : n ≤ 3 := by
  unfold badLen at h
  grind

/-- the message for bytes that are no text is a short one -/
theorem isStringAscii_notUtf8 {bytes : Bytes} (h : bytes.length ≤ 102400) : Call.IsStringAscii 512 (notUtf8 bytes) := by
  have hvalid : Call.IsStringAscii 6 (toString (utf8Error bytes).validUpTo) :=
    isStringAscii_toString (by decide) (((Nat.findGreatest_le _).trans h).trans_lt (by decide))
  have hlen : Call.IsStringAscii 7 (Utf8Error.debugLen (utf8Error bytes).errorLen) := by
    cases hbad : (utf8Error bytes).errorLen with
    | none => exact isStringAscii_of_all (by decide) (by decide)
    | some n =>
      have hn : Call.IsStringAscii 1 (toString n) :=
        isStringAscii_toString (by decide) ((badLen_le hbad).trans_lt (by decide))
      have hopen : Call.IsStringAscii 5 "Some(" := isStringAscii_of_all (by decide) (by decide)
      have hclose : Call.IsStringAscii 1 ")" := isStringAscii_of_all (by decide) (by decide)
      exact (hopen.append hn).append hclose
  have hpre : Call.IsStringAscii 39 "wrb: failed to decode buffer to UTF-8: " :=
    isStringAscii_of_all (by decide) (by decide)
  have hname : Call.IsStringAscii 27 "Utf8Error \x7b valid_up_to: " := isStringAscii_of_all (by decide) (by decide)
  have hsep : Call.IsStringAscii 13 ", error_len: " := isStringAscii_of_all (by decide) (by decide)
  have hend : Call.IsStringAscii 2 " \x7d" := isStringAscii_of_all (by decide) (by decide)
  have hmsg := hpre.append ((((hname.append hvalid).append hsep).append hlen).append hend)
  exact ⟨hmsg.1.trans (by decide), hmsg.2⟩

/-! ## Responses -/

section Responses

variable {X : ClarityExt} {α : Type} {code : ℕ} {msg : String}

theorem errAscii512_of_ascii (h : Call.IsStringAscii 512 msg) :
    errAscii512 X code msg = some (.error ⟨code, asBytes msg⟩ : Response α) := by
  obtain ⟨data, hdata⟩ := Option.isSome_iff_exists.1 ((X.stringAscii_isSome _ h.1).2 h.2)
  rw [errAscii512, hdata, X.stringAscii_eq _ _ hdata]
  rfl

theorem ascii_of_errAscii512 {value : Response α} (h : errAscii512 X code msg = some value) :
    value = .error ⟨code, asBytes msg⟩ ∧ ((asBytes msg).length ≤ 512 → Call.IsStringAscii 512 msg) := by
  obtain ⟨data, hdata, rfl⟩ := Option.map_eq_some_iff.1 h
  rw [X.stringAscii_eq _ _ hdata]
  exact ⟨rfl, fun hlen => ⟨hlen, (X.stringAscii_isSome _ hlen).1 (Option.isSome_of_eq_some hdata)⟩⟩

/-- **An error fits exactly if its message does** -/
theorem errAscii512_iff : (∃ err : ErrAscii, errAscii512 X code msg = some (.error err : Response α) ∧
    err.message.length ≤ 512) ↔ Call.IsStringAscii 512 msg := by
  constructor
  · rintro ⟨err, hmake, hlen⟩
    obtain ⟨heq, hascii⟩ := ascii_of_errAscii512 hmake
    cases heq
    exact hascii hlen
  · exact fun h => ⟨_, errAscii512_of_ascii h, h.1⟩

/-- the end of a handler: a response that is made is stored if it fits -/
theorem stored_iff {β : Type} {maxLen : ℕ} {make : Option (Response (List β))}
    {set : Response (List β) → Option LowLevelVars} (store : Response (List β) → LowLevelVars)
    (hset : ∀ r, set r = if fits maxLen r then some (store r) else none) (hinj : Function.Injective store)
    {value : Response (List β)} :
    (make.bind fun r => (set r).bind fun vars => some (Except.ok vars : Except InterpreterError LowLevelVars)) =
        some (.ok (store value)) ↔ make = some value ∧ fits maxLen value = true := by
  cases make with
  | none => simp
  | some r =>
    rw [Option.bind_some, hset]
    by_cases hfits : fits maxLen r = true
    · rw [if_pos hfits, Option.bind_some, Option.some.injEq, Except.ok.injEq, hinj.eq_iff, Option.some.injEq]
      exact ⟨fun heq => ⟨heq, heq ▸ hfits⟩, And.left⟩
    · rw [if_neg hfits, Option.bind_none]
      refine iff_of_false nofun ?_
      rintro ⟨heq, hfits'⟩
      cases heq
      exact hfits hfits'

theorem failedCallReadonly_iff (e : String) :
    (Call.failedCallReadonly e).Right X ↔ (Call.failedCallReadonly e).RightWhen := by
  have hstored : ∀ (vars : LowLevelVars) (err : ErrAscii),
      handleWrbCallReadonly X (.error e) vars = some (.ok { vars with lastCallReadonly := .error err }) ↔
        callReadonlyResponse X (.error e) = some (.error err) ∧ fits 102400 (.error err : Response Bytes) = true :=
    fun vars err => stored_iff (fun r => { vars with lastCallReadonly := r }) (fun _ => rfl)
      fun _ _ heq => congrArg LowLevelVars.lastCallReadonly heq
  simp only [Call.Right, Call.RightWhen, hstored]
  rw [← @errAscii512_iff X Bytes WRB_ERR_READONLY_FAILURE]
  constructor
  · intro h
    obtain ⟨err, ⟨hmake, -⟩, hlen⟩ := h ⟨.ok [], .ok [], .ok []⟩
    exact ⟨err, hmake, hlen⟩
  · rintro ⟨err, hmake, hlen⟩ -
    exact ⟨err, ⟨hmake, by simpa [fits] using hlen⟩, hlen⟩

/-- bytes that are no text are answered with an error, and a text if the literal is the text itself, and short -/
theorem buffToStringUtf8_iff {arg : Bytes} (h : (Call.buffToStringUtf8 arg).Admitted) :
    (Call.buffToStringUtf8 arg).Right X ↔ (Call.buffToStringUtf8 arg).RightWhen := by
  have hstored : ∀ (vars : LowLevelVars) (value : Response (List Char)),
      handleBuffToStringUtf8 X [.buff arg] vars = some (.ok { vars with lastBuffToStringUtf8 := value }) ↔
        buffResponse X arg = some value ∧ fits 25600 value = true := by
    intro vars value
    have harg : (ArgValue.buff arg).expectBuff 102400 = .ok arg := if_pos h
    rw [handleBuffToStringUtf8, harg]
    exact stored_iff (fun r => { vars with lastBuffToStringUtf8 := r }) (fun _ => rfl)
      fun _ _ heq => congrArg LowLevelVars.lastBuffToStringUtf8 heq
  simp only [Call.Right, Call.RightWhen, Call.RightResponse, hstored, buffResponse]
  cases htext : fromUtf8 arg with
  | none =>
    have hshort := isStringAscii_notUtf8 h
    refine iff_of_true (fun vars => ?_) nofun
    exact ⟨_, ⟨errAscii512_of_ascii hshort, by simpa [fits] using hshort.1⟩, by simpa [fits] using hshort.1, _, rfl⟩
  | some s =>
    have hlen : s.length ≤ 102400 := by
      have hbytes := length_le_asBytes s
      rw [Wrb.Storage.WrbpodSuperblock.asBytes_of_fromUtf8 htext] at hbytes
      exact hbytes.trans h
    have hself := X.literal_self s hlen
    constructor
    · intro hright s' hs'
      cases hs'
      obtain ⟨value, ⟨hmake, -⟩, -, hvalue⟩ := hright ⟨.ok [], .ok [], .ok []⟩
      obtain ⟨text, htext', rfl⟩ := Option.map_eq_some_iff.1 hmake
      simp only at hvalue
      split_ifs at hvalue with hshort
      · cases hvalue
        exact ⟨hshort, hself.1 htext'⟩
      · obtain ⟨e, he⟩ := hvalue
        cases he
    · intro hwhen vars
      obtain ⟨hshort, hplain⟩ := hwhen s rfl
      have hfits : fits 25600 (.ok s.toList : Response (List Char)) = true := by
        simpa [fits, String.length_toList] using hshort
      refine ⟨.ok s.toList, ⟨?_, hfits⟩, hfits, ?_⟩
      · simp only [hself.2 hplain, Option.map_some]
      · simp only [if_pos hshort]

theorem stringAsciiToStringUtf8_iff {arg : String} (h : (Call.stringAsciiToStringUtf8 arg).Admitted) :
    (Call.stringAsciiToStringUtf8 arg).Right X ↔ (Call.stringAsciiToStringUtf8 arg).RightWhen := by
  have hlen := (length_le_asBytes arg).trans h.1
  have hfits : fits 25600 (.ok arg.toList : Response (List Char)) = true := by
    simpa [fits, String.length_toList] using hlen
  have hself := X.literal_self arg (hlen.trans (by decide))
  have hstored : ∀ vars : LowLevelVars, handleStringAsciiToStringUtf8 X [.ascii arg] vars =
      some (.ok { vars with lastStringAsciiToStringUtf8 := .ok arg.toList }) ↔
        stringAsciiResponse X arg = some (.ok arg.toList) ∧
          fits 25600 (.ok arg.toList : Response (List Char)) = true :=
    fun vars => stored_iff (fun r => { vars with lastStringAsciiToStringUtf8 := r }) (fun _ => rfl)
      fun _ _ heq => congrArg LowLevelVars.lastStringAsciiToStringUtf8 heq
  simp only [Call.Right, Call.RightWhen, hstored, hfits, and_true, stringAsciiResponse]
  constructor
  · intro hright
    have hmake := hright ⟨.ok [], .ok [], .ok []⟩
    split_ifs at hmake with hshort
    · obtain ⟨text, htext, heq⟩ := Option.map_eq_some_iff.1 hmake
      cases heq
      exact ⟨hshort, (hself.1 htext).2⟩
    · cases (ascii_of_errAscii512 hmake).1
  · rintro ⟨hshort, hplain⟩ -
    rw [if_pos hshort, hself.2 ⟨isAscii_of_items h.2, hplain⟩]
    rfl

end Responses

/-- **When a call is answered right** -/
theorem trampolines_right_iff (X : ClarityExt) (call : Call) (h : call.Admitted) : call.Right X ↔ call.RightWhen := by
  cases call with
  | failedCallReadonly e => exact failedCallReadonly_iff e
  | buffToStringUtf8 arg => exact buffToStringUtf8_iff h
  | stringAsciiToStringUtf8 arg => exact stringAsciiToStringUtf8_iff h
  | errAscii512 code msg => exact errAscii512_iff

/-- constructors that take what has to be taken, and nothing else -/
def plainClarity : ClarityExt where
  stringAsciiFromBytes bytes := if bytes.all isAsciiItem then some bytes else none
  stringAscii_eq bytes data h := by
    split_ifs at h
    exact (Option.some.inj h).symm
  stringAscii_isSome bytes _ := by
    simp only [Option.isSome_ite, List.all_eq_true]
  buffFrom bytes := some bytes
  stringUtf8FromStringUtf8Literal s := if isAscii s ∧ hasEscape s.toList = false then some s.toList else none
  literal_self s _ := by simp

/-- two letters are stored as they are -/
theorem trampolines_right_twoLetters : (Call.buffToStringUtf8 [0x68, 0x69]).Right plainClarity := by
  have hadmitted : (Call.buffToStringUtf8 [0x68, 0x69]).Admitted := Nat.le_of_ble_eq_true rfl
  refine (trampolines_right_iff plainClarity _ hadmitted).2 fun s hs => ?_
  have htext : fromUtf8 [0x68, 0x69] = some "hi" := Wrb.Storage.WrbpodSuperblock.fromUtf8_asBytes "hi"
  obtain rfl := Option.some.inj (htext.symm.trans hs)
  exact ⟨by decide, by decide, by decide⟩

/-- a text of `n` letters -/
def letters (n : ℕ) : String := String.ofList (List.replicate n 'a')

theorem asBytes_letters (n : ℕ) : asBytes (letters n) = List.replicate n 0x61 := by
  rw [asBytes_eq, letters, String.toList_ofList]
  induction n with
  | zero => rfl
  | succ n ih =>
    rw [List.replicate_succ, List.replicate_succ, List.flatMap_cons, ih]
    rfl

theorem isStringAscii_letters (n : ℕ) : Call.IsStringAscii n (letters n) := by
  rw [Call.IsStringAscii, asBytes_letters, List.length_replicate]
  refine ⟨le_refl _, fun b hb => ?_⟩
  rw [List.eq_of_mem_replicate hb]
  decide

theorem letters_lt {n : ℕ} (h : (Call.stringAsciiToStringUtf8 (letters n)).RightWhen) : n < 25600 := by
  have hlen := h.1
  rwa [asBytes_letters, List.length_replicate] at hlen

/-- **The longest ASCII text is refused**: one of 25600 letters is answered with an error -/
theorem longest_ascii_refused : ¬ ∀ call : Call, call.Admitted → call.Right plainClarity := by
  intro h
  have hadmitted : (Call.stringAsciiToStringUtf8 (letters 25600)).Admitted := isStringAscii_letters 25600
  have hright := h _ hadmitted
  exact absurd (letters_lt ((stringAsciiToStringUtf8_iff hadmitted).1 hright)) (lt_irrefl _)

end Wrb.Vm
