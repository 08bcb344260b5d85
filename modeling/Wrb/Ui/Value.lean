/-
`ValueExtensions::expect_utf8` (`ui/mod.rs`): the text of a `string-utf8` value of Clarity.

Clarity stores a text as a list of items, the UTF-8 bytes of one code point each. `expect_utf8` takes the bytes of an
item for the code point itself, in big-endian order. The two are the same for a code point of one byte.

Results:
- `expectUtf8_eq`: what is read from the value of a text, character by character;
- `expectUtf8_iff`: it is the text exactly when every character of it is an ASCII character, or the replacement
  character, which is what a failure to read leaves.
-/
import Mathlib.Tactic
import Wrb.Lib.Wire
import Wrb.Ui.GapBuffer

namespace Wrb.Ui

open Wrb.Wire

/-- a Clarity value: a `string-utf8` with its items, or any other -/
inductive Value where
  | utf8 (data : List (List UInt8))
  | other
deriving DecidableEq, Repr

/-- the part of `clarity_error` returned here -/
inductive ClarityError where
  | expect (msg : String)
deriving DecidableEq, Repr

def REPLACEMENT_CHARACTER : Char := '\uFFFD'

/-- `u32::from_be_bytes`, then `char::from_u32` -/
def charFromBe (a b c d : UInt8) : Char :=
  (charFromU32 (UInt32.ofNat (beNat [a, b, c, d]))).getD REPLACEMENT_CHARACTER

/-- the character pushed for an item -/
def charOfItem : List UInt8 → Char
  | [] => charFromBe 0 0 0 0
  | [a] => charFromBe 0 0 0 a
  | [a, b] => charFromBe 0 0 a b
  | [a, b, c] => charFromBe 0 a b c
  | [a, b, c, d] => charFromBe a b c d
  | _ => REPLACEMENT_CHARACTER

namespace Value

def expectUtf8 : Value → Except ClarityError (List Char)
  | utf8 data => .ok (data.map charOfItem)
  | other => .error (.expect "expected utf8 string")

/-- the value of a text, as the constructors of Clarity make it -/
def stringUtf8 (s : List Char) : Value := utf8 (s.map String.utf8EncodeChar)

theorem expectUtf8_eq (s : List Char) :
    (stringUtf8 s).expectUtf8 = .ok (s.map fun c => charOfItem (String.utf8EncodeChar c)) := by
  show Except.ok ((s.map String.utf8EncodeChar).map charOfItem) = _
  rw [List.map_map]
  rfl

/-! ## One character -/

/-- four bytes are read as their value, or as the replacement character -/
theorem charFromBe_eq (a b c d : UInt8) :
    charFromBe a b c d = REPLACEMENT_CHARACTER ∨
      (charFromBe a b c d).toNat = beNat [a, b, c, d] ∧ beNat [a, b, c, d] < 0x110000 := by
  have hlt : beNat [a, b, c, d] < 2 ^ 32 := (beNat_lt [a, b, c, d]).trans_eq (by norm_num)
  have hval : (UInt32.ofNat (beNat [a, b, c, d])).toNat = beNat [a, b, c, d] := UInt32.toNat_ofNat_of_lt' hlt
  unfold charFromBe charFromU32
  split_ifs with hvalid
  · right
    have hchar : (UInt32.ofNat (beNat [a, b, c, d])).toNat < 0x110000 := by
      rcases hvalid with h | h
      · exact h.trans (by decide)
      · exact h.2
    exact ⟨hval, hval ▸ hchar⟩
  · exact .inl rfl

theorem charFromBe_val {a b c d : UInt8} {chr : Char} (h : beNat [a, b, c, d] = chr.toNat) :
    charFromBe a b c d = chr := by
  have hval : UInt32.ofNat (beNat [a, b, c, d]) = chr.val := by rw [h]; exact UInt32.ofNat_toNat
  unfold charFromBe
  rw [hval, charFromU32_val]
  rfl

theorem charFromBe_of_big {a b c d : UInt8} (h : 0x110000 ≤ beNat [a, b, c, d]) :
    charFromBe a b c d = REPLACEMENT_CHARACTER :=
  (charFromBe_eq a b c d).resolve_right fun h' => absurd h'.2 (by omega)

theorem beNat_four (a b c d : UInt8) :
    beNat [a, b, c, d] = ((a.toNat * 256 + b.toNat) * 256 + c.toNat) * 256 + d.toNat := by
  simp [beNat]

theorem encode_one {c : Char} (h : c.toNat ≤ 0x7F) : String.utf8EncodeChar c = [UInt8.ofNat c.toNat] := if_pos h

theorem encode_two {c : Char} (h : 0x7F < c.toNat) (h' : c.toNat ≤ 0x7FF) :
    String.utf8EncodeChar c = [UInt8.ofNat (c.toNat / 64 % 32 + 0xC0), UInt8.ofNat (c.toNat % 64 + 0x80)] :=
  (if_neg (Nat.not_le_of_lt h)).trans (if_pos h')

theorem encode_three {c : Char} (h : 0x7FF < c.toNat) (h' : c.toNat ≤ 0xFFFF) :
    String.utf8EncodeChar c = [UInt8.ofNat (c.toNat / 4096 % 16 + 0xE0), UInt8.ofNat (c.toNat / 64 % 64 + 0x80),
      UInt8.ofNat (c.toNat % 64 + 0x80)] :=
  (if_neg (Nat.not_le_of_lt (lt_trans (by decide) h))).trans ((if_neg (Nat.not_le_of_lt h)).trans (if_pos h'))

theorem encode_four {c : Char} (h : 0xFFFF < c.toNat) :
    String.utf8EncodeChar c = [UInt8.ofNat (c.toNat / 262144 % 8 + 0xF0), UInt8.ofNat (c.toNat / 4096 % 64 + 0x80),
      UInt8.ofNat (c.toNat / 64 % 64 + 0x80), UInt8.ofNat (c.toNat % 64 + 0x80)] :=
  (if_neg (Nat.not_le_of_lt (lt_trans (by decide) h))).trans
    ((if_neg (Nat.not_le_of_lt (lt_trans (by decide) h))).trans (if_neg (Nat.not_le_of_lt h)))

/-- a code point of one byte is read as it is -/
theorem charOfItem_one {c : Char} (h : c.toNat ≤ 0x7F) : charOfItem (String.utf8EncodeChar c) = c := by
  rw [encode_one h]
  apply charFromBe_val
  rw [beNat_four, UInt8.toNat_ofNat_of_lt' (show c.toNat < 2 ^ 8 by omega)]
  exact Nat.zero_add _

/-- of two bytes: their value is beyond every code point of two bytes -/
theorem charOfItem_two {c : Char} (h : 0x7F < c.toNat) (h' : c.toNat ≤ 0x7FF) :
    charOfItem (String.utf8EncodeChar c) ≠ c := by
  rw [encode_two h h']
  intro heq
  have hhi : (UInt8.ofNat (c.toNat / 64 % 32 + 0xC0)).toNat = c.toNat / 64 % 32 + 0xC0 :=
    UInt8.toNat_ofNat_of_lt' (show c.toNat / 64 % 32 + 0xC0 < 2 ^ 8 by omega)
  rcases charFromBe_eq 0 0 (UInt8.ofNat (c.toNat / 64 % 32 + 0xC0)) (UInt8.ofNat (c.toNat % 64 + 0x80)) with hr | hv
  · have hbig : c = REPLACEMENT_CHARACTER := heq.symm.trans hr
    rw [hbig] at h'
    exact absurd h' (by decide)
  · have hval : c.toNat = _ := (congrArg Char.toNat heq).symm.trans hv.1
    rw [beNat_four, hhi] at hval
    simp only [UInt8.toNat_zero] at hval
    omega

/-- of more: their value is beyond every code point -/
theorem charOfItem_more {c : Char} (h : 0x7FF < c.toNat) :
    charOfItem (String.utf8EncodeChar c) = REPLACEMENT_CHARACTER := by
  rcases Nat.lt_or_ge 0xFFFF c.toNat with hfour | hthree
  · rw [encode_four hfour]
    apply charFromBe_of_big
    rw [beNat_four, UInt8.toNat_ofNat_of_lt' (show c.toNat / 262144 % 8 + 0xF0 < 2 ^ 8 by omega)]
    omega
  · rw [encode_three h hthree]
    apply charFromBe_of_big
    rw [beNat_four, UInt8.toNat_ofNat_of_lt' (show c.toNat / 4096 % 16 + 0xE0 < 2 ^ 8 by omega), UInt8.toNat_zero]
    omega

theorem charOfItem_iff (c : Char) :
    charOfItem (String.utf8EncodeChar c) = c ↔ c.toNat ≤ 0x7F ∨ c = REPLACEMENT_CHARACTER := by
  rcases Nat.lt_or_ge 0x7F c.toNat with hlong | hone
  · rw [or_iff_right (Nat.not_le_of_lt hlong)]
    rcases Nat.lt_or_ge 0x7FF c.toNat with hmore | htwo
    · rw [charOfItem_more hmore]
      exact eq_comm
    · refine iff_of_false (charOfItem_two hlong htwo) ?_
      intro heq
      rw [heq] at htwo
      exact absurd htwo (by decide)
  · exact iff_of_true (charOfItem_one hone) (.inl hone)

/-! ## A text -/

/-- **The text is read back** exactly when its characters are ASCII, or the replacement character -/
theorem expectUtf8_iff (s : List Char) :
    (stringUtf8 s).expectUtf8 = .ok s ↔ ∀ c ∈ s, c.toNat ≤ 0x7F ∨ c = REPLACEMENT_CHARACTER := by
  rw [expectUtf8_eq, Except.ok.injEq]
  calc s.map (fun c => charOfItem (String.utf8EncodeChar c)) = s
      ↔ s.map (fun c => charOfItem (String.utf8EncodeChar c)) = s.map id := by rw [List.map_id]
    _ ↔ ∀ c ∈ s, charOfItem (String.utf8EncodeChar c) = id c := List.map_inj_left
    _ ↔ ∀ c ∈ s, c.toNat ≤ 0x7F ∨ c = REPLACEMENT_CHARACTER := forall₂_congr fun c _ => charOfItem_iff c

/-- the two bytes of "é", 0xC3 and 0xA9, are read as U+C3A9 -/
theorem expectUtf8_two : (stringUtf8 ['é']).expectUtf8 = .ok ['\uC3A9'] ∧
    (stringUtf8 ['é']).expectUtf8 ≠ .ok ['é'] := by
  decide +kernel

end Value

end Wrb.Ui
