/-
Printing a WRB TXT record into a zonefile and reading it back (`src/runner/site.rs`).

A quoted text has a backslash before each quote and each backslash. Unescaping replaces the quote pairs first and the
backslash pairs after them, which is right for the texts that escaping writes: a replacement `c ↦ p c` is undone by
`p c ↦ c`, whatever the text, because what it wrote before a `c` is the only place where the pattern matches.

Results:
- `replace_replace`, `unescape_escape`: unescaping undoes escaping;
- `decodeLine_toText`: the line of a WRB TXT record is read as that record;
- `decode_embedded`: it is read so among any other lines;
- `record_round_trip`: a WRB TXT record that can be converted comes back from any zonefile with its line.
-/
import Wrb.Runner.Decoding

namespace Wrb.Runner

open Wrb.Wire Wrb.Storage

/-! ## Escaping -/

section Escaping

theorem replace_nil (pattern new : List Char) : replace pattern new [] = [] := rfl

/-- a pattern of one character is replaced wherever it stands -/
theorem replace_char (q c : Char) (new s : List Char) :
    replace [q] new (c :: s) = (if c = q then new else [c]) ++ replace [q] new s := by
  unfold replace
  rw [replaceFrom]
  by_cases hc : c = q
  · simp [hc]
  · have hne : q ≠ c := fun h => hc h.symm
    simp [hc, hne]

/-- a pair that does not stand at the front -/
theorem replace_pair_skip {p q c : Char} {new s : List Char} (h : ¬ [p, q].isPrefixOf (c :: s) = true) :
    replace [p, q] new (c :: s) = c :: replace [p, q] new s := by
  unfold replace
  rw [replaceFrom, if_neg h]

theorem replace_pair (p q : Char) (new s : List Char) :
    replace [p, q] new (p :: q :: s) = new ++ replace [p, q] new s := by
  unfold replace
  rw [replaceFrom, if_pos (by simp)]
  rfl

/-- the escaped text never goes on with the escaped character itself -/
theorem head?_replace_ne {p q : Char} (hne : p ≠ q) (s : List Char) : (replace [q] [p, q] s).head? ≠ some q := by
  cases s with
  | nil => simp [replace_nil]
  | cons c s =>
    rw [replace_char]
    by_cases hc : c = q
    · simp [hc, hne]
    · simp [hc]

/-- **Putting `p` before each `q` is undone by dropping it there**, also where `p` is `q`. -/
theorem replace_replace (p q : Char) (s : List Char) : replace [p, q] [q] (replace [q] [p, q] s) = s := by
  induction s with
  | nil => rfl
  | cons c s ih =>
    rw [replace_char]
    by_cases hc : c = q
    · rw [if_pos hc, List.cons_append, List.cons_append, List.nil_append, replace_pair, ih, hc]
      rfl
    · have hskip : ¬ [p, q].isPrefixOf (c :: replace [q] [p, q] s) = true := by
        intro hprefix
        obtain ⟨t, ht⟩ := List.isPrefixOf_iff_prefix.1 hprefix
        obtain ⟨hpc, hrest⟩ := List.cons.inj ht
        have hne : p ≠ q := fun heq => hc (hpc.symm.trans heq)
        apply head?_replace_ne hne s
        rw [← hrest]
        rfl
      rw [if_neg hc, List.cons_append, List.nil_append, replace_pair_skip hskip, ih]

/-- a replacement of characters keeps what holds of all of them -/
theorem all_replace {P : Char → Bool} {q : Char} {new s : List Char} (hnew : new.all P = true) (h : s.all P = true) :
    (replace [q] new s).all P = true := by
  induction s with
  | nil => rfl
  | cons c s ih =>
    rw [List.all_cons, Bool.and_eq_true] at h
    rw [replace_char, List.all_append, ih h.2, Bool.and_true]
    split_ifs
    · exact hnew
    · simpa using h.1

/-- the text between the quotes -/
def escapeChars (s : List Char) : List Char := replace ['"'] ['\\', '"'] (replace ['\\'] ['\\', '\\'] s)

theorem all_quoted {P : Char → Bool} (hquote : P '"' = true) (hslash : P '\\' = true) {s : List Char}
    (h : s.all P = true) : ('"' :: escapeChars s ++ ['"']).all P = true := by
  have hslashes : (replace ['\\'] ['\\', '\\'] s).all P = true := all_replace (by simp [hslash]) h
  have hquotes : (replace ['"'] ['\\', '"'] (replace ['\\'] ['\\', '\\'] s)).all P = true :=
    all_replace (by simp [hslash, hquote]) hslashes
  simp [List.all_append, hquote, escapeChars, hquotes]

theorem stripSuffix_append (q : Char) (s : List Char) : stripSuffix q (s ++ [q]) = some s := by
  simp [stripSuffix, stripPrefix]

theorem escapeString_eq {s : List Char} (h : isAsciiText s = true) :
    ZonefileResourceRecord.escapeString s = some ('"' :: escapeChars s ++ ['"']) := if_pos h

/-- what escaping wrote, is read back -/
theorem unescapeString_quoted {s : List Char} (h : isAsciiText s = true) :
    ZonefileResourceRecord.unescapeString ('"' :: escapeChars s ++ ['"']) = some s := by
  have hascii : isAsciiText ('"' :: escapeChars s ++ ['"']) = true := all_quoted rfl rfl h
  have hquoted : (startsWith '"' ('"' :: escapeChars s ++ ['"']) && endsWith '"' ('"' :: escapeChars s ++ ['"'])) =
      true := by
    unfold endsWith
    rw [List.getLast?_concat]
    simp [startsWith]
  have hstrip : (stripPrefix '"' ('"' :: escapeChars s ++ ['"'])).bind (stripSuffix '"') = some (escapeChars s) :=
    stripSuffix_append '"' _
  unfold ZonefileResourceRecord.unescapeString
  rw [if_pos hascii, if_pos hquoted, hstrip, Option.map_some, escapeChars, replace_replace, replace_replace]

/-- **Unescaping undoes escaping.** -/
theorem unescape_escape {s : List Char} (h : isAsciiText s = true) :
    (ZonefileResourceRecord.escapeString s).bind ZonefileResourceRecord.unescapeString = some s := by
  rw [escapeString_eq h, Option.bind_some, unescapeString_quoted h]

end Escaping

/-! ## The line of a record -/

/-- the resource record of a WRB TXT record with this payload -/
def wrbResourceRecord (payload : String) : ZonefileResourceRecord := ⟨"wrb", none, "IN", "TXT", payload⟩

/-- the printed line: nothing stands for the TTL, between the first two tabs -/
theorem toText_eq {payload : String} (hascii : isAsciiText payload.toList = true) :
    (wrbResourceRecord payload).toText.toList = "wrb".toList ++ '\t' :: ([] ++ '\t' :: ("IN".toList ++ '\t' ::
      ("TXT".toList ++ '\t' :: ('"' :: escapeChars payload.toList ++ ['"'])))) := by
  unfold ZonefileResourceRecord.toText wrbResourceRecord
  dsimp only
  rw [escapeString_eq hascii]
  simp [String.toList_append, toString]

theorem not_separator {c : Char} (h : isWhitespace c = false) : (c = ' ' || c = '\t') = false := by
  have hspace : c ≠ ' ' := by
    intro heq
    simp [heq, isWhitespace] at h
  have htab : c ≠ '\t' := by
    intro heq
    rw [heq] at h
    revert h
    decide
  simp [hspace, htab]

theorem splitOnP_tab {piece : List Char} (h : (piece.all fun c => !isWhitespace c) = true) (rest : List Char) :
    (piece ++ '\t' :: rest).splitOnP (fun c => c = ' ' || c = '\t') =
      piece :: rest.splitOnP fun c => c = ' ' || c = '\t' := by
  apply List.splitOnP_append_cons_of_forall_mem
  · intro c hc
    apply not_separator
    simpa using List.all_eq_true.1 h c hc
  · decide

/-- text that ends in characters other than white space is not trimmed -/
theorem trim_eq {a b : Char} {s : List Char} (ha : isWhitespace a = false) (hb : isWhitespace b = false) :
    trim (a :: s ++ [b]) = a :: s ++ [b] := by
  unfold trim
  rw [List.cons_append, List.dropWhile_cons_of_neg (by simp [ha]), ← List.cons_append,
    List.rdropWhile_concat_neg _ _ _ (by simp [hb])]

/-- the fields of the printed line -/
theorem fields_toText {payload : String} (hascii : isAsciiText payload.toList = true)
    (hblank : (payload.toList.all fun c => !isWhitespace c) = true) :
    fields (wrbResourceRecord payload).toText.toList =
      ["wrb".toList, "IN".toList, "TXT".toList, '"' :: escapeChars payload.toList ++ ['"']] := by
  have hquoted : ∀ c ∈ '"' :: escapeChars payload.toList ++ ['"'], (c = ' ' || c = '\t') = false := by
    intro c hc
    apply not_separator
    simpa using List.all_eq_true.1 (all_quoted (P := fun c => !isWhitespace c) (by decide) (by decide) hblank) c hc
  have htrim : trim (wrbResourceRecord payload).toText.toList = (wrbResourceRecord payload).toText.toList := by
    obtain ⟨s, hs⟩ : ∃ s, (wrbResourceRecord payload).toText.toList = 'w' :: s ++ ['"'] :=
      ⟨"rb".toList ++ '\t' :: '\t' ::
          ("IN".toList ++ '\t' :: ("TXT".toList ++ '\t' :: '"' :: escapeChars payload.toList)),
        by rw [toText_eq hascii]; simp⟩
    rw [hs, trim_eq (by decide) (by decide)]
  unfold fields
  rw [htrim, toText_eq hascii, splitOnP_tab (by decide), splitOnP_tab (by decide), splitOnP_tab (by decide),
    splitOnP_tab (by decide), List.splitOnP_eq_singleton hquoted]
  simp

/-- **The line of a WRB TXT record is read as that record.** -/
theorem decodeLine_toText {payload : String} (hascii : isAsciiText payload.toList = true)
    (hblank : (payload.toList.all fun c => !isWhitespace c) = true) :
    decodeLine (wrbResourceRecord payload).toText.toList = some (wrbResourceRecord payload) := by
  have hclass : isNumber "IN".toList = false := by decide
  have hpayload : payloadText ('"' :: escapeChars payload.toList ++ ['"']) = payload.toList := by
    rw [payloadText, unescapeString_quoted hascii, Option.getD_some]
  have hread : taken ["wrb".toList, "IN".toList, "TXT".toList, '"' :: escapeChars payload.toList ++ ['"']] =
      some (record "wrb".toList none "IN".toList "TXT".toList ('"' :: escapeChars payload.toList ++ ['"'])) := by
    simp only [taken, List.dropWhile_cons, List.takeWhile_cons, hclass]
    rfl
  rw [decodeLine_eq, fields_toText hascii hblank, hread, record, hpayload]
  simp [wrbResourceRecord]

theorem all_intercalate {P : Char → Bool} {sep : Char} (hsep : P sep = true) {lines : List (List Char)}
    (h : ∀ line ∈ lines, line.all P = true) : ([sep].intercalate lines).all P = true := by
  induction lines with
  | nil => rfl
  | cons line lines ih =>
    have hline := h line List.mem_cons_self
    have hlines := ih fun l hl => h l (List.mem_cons_of_mem line hl)
    cases lines with
    | nil => simpa using hline
    | cons next lines =>
      rw [List.intercalate_cons_cons, List.all_append, List.all_append, hline, hlines]
      simp [hsep]

/-- what holds of tabs, quotes, backslashes, `wrbINTXT` and the payload, holds of the printed line -/
theorem all_toText {P : Char → Bool} (hfixed : "wrb\t\tIN\tTXT\t\"\\".toList.all P = true) {payload : String}
    (hascii : isAsciiText payload.toList = true) (h : payload.toList.all P = true) :
    (wrbResourceRecord payload).toText.toList.all P = true := by
  simp at hfixed
  rw [toText_eq hascii]
  have hquoted := all_quoted (P := P) (by simp [hfixed]) (by simp [hfixed]) h
  simp only [List.all_append, List.all_cons] at hquoted ⊢
  simp [hfixed] at hquoted ⊢
  exact hquoted

/-- the printed line is one line of ASCII text -/
theorem line_toText {payload : String} (hascii : isAsciiText payload.toList = true)
    (hblank : (payload.toList.all fun c => !isWhitespace c) = true) :
    isAsciiText (wrbResourceRecord payload).toText.toList = true ∧
      '\n' ∉ (wrbResourceRecord payload).toText.toList := by
  have hpayload : (payload.toList.all fun c => c != '\n') = true := by
    rw [List.all_eq_true] at hblank ⊢
    intro c hc
    have hc' := hblank c hc
    by_contra heq
    simp only [bne_iff_ne, ne_eq, not_not] at heq
    rw [heq] at hc'
    revert hc'
    decide
  refine ⟨all_toText (by decide) hascii hascii, fun hmem => ?_⟩
  have hline := List.all_eq_true.1 (all_toText (by decide) hascii hpayload) '\n' hmem
  simp at hline

/-- **It is read so among any other lines.** -/
theorem decode_embedded (X : SiteExt) {payload : String} (hascii : isAsciiText payload.toList = true)
    (hblank : (payload.toList.all fun c => !isWhitespace c) = true) {before after : List (List Char)}
    (hlines : ∀ line ∈ before ++ after, isAsciiText line = true ∧ '\n' ∉ line) :
    decodeZonefileRecords X (asBytes (String.ofList
        (['\n'].intercalate (before ++ (wrbResourceRecord payload).toText.toList :: after)))) =
      .ok (before.filterMap decodeLine ++ wrbResourceRecord payload :: after.filterMap decodeLine) := by
  have hall : ∀ line ∈ before ++ (wrbResourceRecord payload).toText.toList :: after,
      isAsciiText line = true ∧ '\n' ∉ line := by
    intro line hmem
    cases List.mem_append.1 hmem with
    | inl hbefore => exact hlines line (List.mem_append_left after hbefore)
    | inr hrest =>
      cases List.mem_cons.1 hrest with
      | inl heq =>
        rw [heq]
        exact line_toText hascii hblank
      | inr hafter => exact hlines line (List.mem_append_right before hafter)
  have htext := all_intercalate (by decide : decide ('\n'.toNat < 128) = true) fun line hmem => (hall line hmem).1
  rw [decodeZonefileRecords_asBytes X htext,
    List.splitOn_intercalate '\n' (fun line hmem => (hall line hmem).2) (by simp), List.filterMap_append,
    List.filterMap_cons_some (decodeLine_toText hascii hblank)]

/-! ## The whole record -/

/-- the alphabet of base64, with the padding -/
def base64Alphabet : List Char := "ABCDEFGHIJKLMNOPQRSTUVWXYZabcdefghijklmnopqrstuvwxyz0123456789+/=".toList

/-- what `base64ct` documents of its encoding -/
structure Base64Laws (X : SiteExt) : Prop where
  alphabet : ∀ bytes, ∀ c ∈ (X.base64Encode bytes).toList, c ∈ base64Alphabet
  decode_encode : ∀ bytes, X.base64Decode (X.base64Encode bytes) = .ok bytes

/-- the codecs read back the fields of the record -/
structure FieldsRoundTrip (X : SiteExt) (w : WrbTxtRecordV1) : Prop where
  version : X.u8.RoundTrips 1
  contractId : X.principal.RoundTrips (.contract w.contractId)
  slotId : X.u32.RoundTrips w.slotMetadata.slotId
  slotVersion : X.u32.RoundTrips w.slotMetadata.slotVersion
  dataHash : X.sha512Trunc256Sum.RoundTrips w.slotMetadata.dataHash
  signature : X.messageSignature.RoundTrips w.slotMetadata.signature

theorem alphabet_plain : ∀ c ∈ base64Alphabet, c.toNat < 128 ∧ isWhitespace c = false ∧ c ≠ '"' := by
  have hall : (base64Alphabet.all fun c => decide (c.toNat < 128) && (!isWhitespace c && c != '"')) = true := by decide
  intro c hc
  simpa using List.all_eq_true.1 hall c hc

theorem consensusDeserialize_reads {X : SiteExt} {w : WrbTxtRecordV1} (h : FieldsRoundTrip X w) :
    Reads (WrbTxtRecord.consensusDeserialize X) ((WrbTxtRecord.v1 w).consensusSerialize X) (.v1 w) := by
  have hid : Reads (WrbTxtRecordV1.deserializeContractId X) (w.serializeContractId X) w.contractId :=
    h.contractId.map (Reads.pure _)
  have hmetadata : Reads (WrbTxtRecordV1.deserializeSlotMetadata X) (w.serializeSlotMetadata X) w.slotMetadata :=
    h.slotId.bind (h.slotVersion.bind (h.dataHash.bind (h.signature.map (Reads.pure _))))
  have hrecord : Reads (WrbTxtRecordV1.consensusDeserialize X) (w.consensusSerialize X) w :=
    hid.bind (hmetadata.map (Reads.pure _))
  exact h.version.bind (hrecord.map (Reads.pure _))

theorem dequote_of_noQuote {s : List Char} (h : ∀ c ∈ s, c ≠ '"') : WrbTxtRecord.dequote s = .ok s := by
  have hstart : startsWith '"' s = false := by
    cases s with
    | nil => rfl
    | cons c s => simpa [startsWith] using h c List.mem_cons_self
  rw [WrbTxtRecord.dequote, hstart]
  simp

/-- base64 text has no need for quotes -/
theorem base64_plain {X : SiteExt} (hX : Base64Laws X) (bytes : Bytes) :
    isAsciiText (X.base64Encode bytes).toList = true ∧
      ((X.base64Encode bytes).toList.all fun c => !isWhitespace c) = true ∧
      ∀ c ∈ (X.base64Encode bytes).toList, c ≠ '"' := by
  have hplain := fun c hc => alphabet_plain c (hX.alphabet bytes c hc)
  refine ⟨?_, ?_, fun c hc => (hplain c hc).2.2⟩
  · rw [isAsciiText, List.all_eq_true]
    intro c hc
    simpa using (hplain c hc).1
  · rw [List.all_eq_true]
    intro c hc
    simp [(hplain c hc).2.1]

/-- the resource record of a WRB TXT record reads as that record -/
theorem tryFrom_wrbResourceRecord {X : SiteExt} (hX : Base64Laws X) {w : WrbTxtRecordV1}
    (hfields : FieldsRoundTrip X w) :
    WrbTxtRecord.tryFrom X (wrbResourceRecord (X.base64Encode ((WrbTxtRecord.v1 w).consensusSerialize X))) =
      .ok (.v1 w) := by
  apply WrbTxtRecord.tryFrom_ok_iff.2
  refine ⟨rfl, rfl, rfl, _, (WrbTxtRecord.v1 w).consensusSerialize X, [],
    dequote_of_noQuote (base64_plain hX ((WrbTxtRecord.v1 w).consensusSerialize X)).2.2, ?_, ?_⟩
  · rw [String.ofList_toList]
    exact hX.decode_encode _
  · have hread := consensusDeserialize_reads hfields []
    rwa [List.append_nil] at hread

/-- **A WRB TXT record that can be converted comes back from any zonefile with its line**, and any ASCII text comes back
from its quoted form. -/
theorem record_round_trip {X : SiteExt} (hX : Base64Laws X) {w : WrbTxtRecordV1} {rr : ZonefileResourceRecord}
    (hfields : FieldsRoundTrip X w) (hrr : ZonefileResourceRecord.tryFrom X (.v1 w) = .ok rr)
    {before after : List (List Char)} (hlines : ∀ line ∈ before ++ after, isAsciiText line = true ∧ '\n' ∉ line) :
    decodeZonefileRecords X (asBytes (String.ofList (['\n'].intercalate (before ++ rr.toText.toList :: after)))) =
        .ok (before.filterMap decodeLine ++ rr :: after.filterMap decodeLine) ∧
      WrbTxtRecord.tryFrom X rr = .ok (.v1 w) ∧
      ∀ s, isAsciiText s = true →
        (ZonefileResourceRecord.escapeString s).bind ZonefileResourceRecord.unescapeString = some s := by
  unfold ZonefileResourceRecord.tryFrom at hrr
  dsimp only at hrr
  split_ifs at hrr with hlong
  obtain rfl := Except.ok.inj hrr
  obtain ⟨hascii, hblank, -⟩ := base64_plain hX ((WrbTxtRecord.v1 w).consensusSerialize X)
  exact ⟨decode_embedded X hascii hblank hlines, tryFrom_wrbResourceRecord hX hfields, fun s => unescape_escape⟩

/-! ## The laws of the reference functions -/

namespace Reference

theorem base64Digit_char : ∀ d < 64, base64Digit (base64Char d) = some d ∧ base64Char d ≠ '=' ∧
    base64Char d ∈ base64Alphabet := by
  decide

theorem base64Chars_zero (v : ℕ) : base64Chars 0 v = [] := rfl

theorem base64Chars_succ (n v : ℕ) : base64Chars (n + 1) v = base64Char (v / 64 ^ n % 64) :: base64Chars n v := by
  simp [base64Chars, List.range_succ]

/-- the characters of sextets put these behind what was read before -/
theorem foldlM_base64Chars (n v acc : ℕ) :
    (base64Chars n v).foldlM (fun acc c => (base64Digit c).map (acc * 64 + ·)) acc =
      some (acc * 64 ^ n + v % 64 ^ n) := by
  induction n generalizing acc with
  | zero => simp [base64Chars, Nat.mod_one]
  | succ n ih =>
    have hdigit := (base64Digit_char (v / 64 ^ n % 64) (Nat.mod_lt _ (by norm_num))).1
    rw [base64Chars_succ, List.foldlM_cons, hdigit, Option.map_some]
    change (base64Chars n v).foldlM _ _ = _
    rw [ih, Nat.mod_pow_succ]
    ring_nf

theorem base64Value_chars {n v : ℕ} (h : v < 64 ^ n) : base64Value (base64Chars n v) = some v := by
  rw [base64Value, foldlM_base64Chars, Nat.mod_eq_of_lt h]
  simp

/-- four characters of which the last one is not padding -/
theorem base64DecodeChars_quantum {a b c d : Char} (hd : d ≠ '=') (rest : List Char) :
    base64DecodeChars (a :: b :: c :: d :: rest) =
      (base64Value [a, b, c, d]).bind fun v => (base64DecodeChars rest).map (beBytes 3 v ++ ·) := by
  rw [base64DecodeChars]
  · simp [hd]
  · simp [hd]

theorem base64_decode_encode (bytes : Bytes) : base64DecodeChars (base64EncodeChars bytes) = some bytes := by
  induction bytes using base64EncodeChars.induct with
  | case1 => rfl
  | case2 x =>
    have hvalue := base64Value_chars (n := 2) (v := x.toNat * 16) (by have := x.toNat_lt; omega)
    have hx : beBytes 1 x.toNat = [x] := by simpa [beNat] using beBytes_beNat [x]
    rw [base64EncodeChars]
    simp only [base64Chars_succ, base64Chars_zero] at hvalue ⊢
    rw [List.cons_append, List.cons_append, List.nil_append, base64DecodeChars, hvalue]
    simp [hx]
  | case3 x y =>
    have hlt := beNat_lt [x, y]
    have hvalue := base64Value_chars (n := 3) (v := beNat [x, y] * 4) (by simp at hlt; omega)
    have hxy : beBytes 2 (beNat [x, y]) = [x, y] := beBytes_beNat [x, y]
    rw [base64EncodeChars]
    simp only [base64Chars_succ, base64Chars_zero] at hvalue ⊢
    have hpad := (base64Digit_char (beNat [x, y] * 4 / 64 ^ 0 % 64) (Nat.mod_lt _ (by norm_num))).2.1
    rw [List.cons_append, List.cons_append, List.cons_append, List.nil_append, base64DecodeChars, hvalue]
    · simp [hxy]
    · simpa using hpad
  | case4 x y z rest ih =>
    have hlt := beNat_lt [x, y, z]
    have hvalue := base64Value_chars (n := 4) (v := beNat [x, y, z]) (by simp at hlt; omega)
    have hxyz : beBytes 3 (beNat [x, y, z]) = [x, y, z] := beBytes_beNat [x, y, z]
    have hpad := (base64Digit_char (beNat [x, y, z] / 64 ^ 0 % 64) (Nat.mod_lt _ (by norm_num))).2.1
    rw [base64EncodeChars]
    simp only [base64Chars_succ, base64Chars_zero] at hvalue ⊢
    rw [List.cons_append, List.cons_append, List.cons_append, List.cons_append, List.nil_append,
      base64DecodeChars_quantum hpad, hvalue, ih, Option.bind_some, Option.map_some, hxyz]
    rfl

theorem base64Chars_alphabet (n v : ℕ) : ∀ c ∈ base64Chars n v, c ∈ base64Alphabet := by
  intro c hc
  obtain ⟨k, -, rfl⟩ := List.mem_map.1 hc
  exact (base64Digit_char (v / 64 ^ k % 64) (Nat.mod_lt _ (by norm_num))).2.2

theorem base64EncodeChars_alphabet (bytes : Bytes) : ∀ c ∈ base64EncodeChars bytes, c ∈ base64Alphabet := by
  have hpad : '=' ∈ base64Alphabet := by decide
  induction bytes using base64EncodeChars.induct with
  | case1 => simp [base64EncodeChars]
  | case2 x =>
    rw [base64EncodeChars, List.forall_mem_append]
    exact ⟨base64Chars_alphabet _ _, by simp [hpad]⟩
  | case3 x y =>
    rw [base64EncodeChars, List.forall_mem_append]
    exact ⟨base64Chars_alphabet _ _, by simp [hpad]⟩
  | case4 x y z rest ih =>
    rw [base64EncodeChars, List.forall_mem_append]
    exact ⟨base64Chars_alphabet _ _, ih⟩

theorem standardPrincipal_roundTrips (p : StandardPrincipalData) : standardPrincipal.RoundTrips p :=
  (X0_codecLaws.u8 p.version).bind ((X0_codecLaws.hash160 p.bytes).map (Reads.pure _))

/-- the length of a contract name fits in one byte -/
theorem contractName_roundTrips {name : String} (h : (asBytes name).length < 256) : contractName.RoundTrips name := by
  have hlen : (UInt8.ofNat (asBytes name).length).toNat = (asBytes name).length := by
    rw [UInt8.toNat_ofNat']
    exact Nat.mod_eq_of_lt h
  apply (X0_codecLaws.u8 (UInt8.ofNat (asBytes name).length)).bind
  rw [hlen]
  apply (Reads.exact _ (asBytes name)).map
  rw [WrbpodSuperblock.fromUtf8_asBytes]
  exact Reads.pure name

theorem principal_roundTrips {c : QualifiedContractIdentifier} (h : (asBytes c.name).length < 256) :
    principal.RoundTrips (.contract c) :=
  (X0_codecLaws.u8 6).bind <|
    (standardPrincipal_roundTrips c.issuer).bind ((contractName_roundTrips h).map (Reads.pure _))

theorem toNat_lt_pow {width bits : ℕ} (h : bits = 8 * width) (v : BitVec bits) : v.toNat < 256 ^ width := by
  subst h
  exact lt_of_lt_of_eq v.isLt (pow_mul 2 8 width)

end Reference

theorem X1_base64Laws : Base64Laws X1 where
  alphabet bytes c hc := by
    have hmem : c ∈ Reference.base64EncodeChars bytes := by simpa [X1] using hc
    exact Reference.base64EncodeChars_alphabet bytes c hmem
  decode_encode bytes := X1_base64Decode (Reference.base64_decode_encode bytes)

theorem X1_fieldsRoundTrip {w : WrbTxtRecordV1} (h : (asBytes w.contractId.name).length < 256) :
    FieldsRoundTrip X1 w where
  version := X0_codecLaws.u8 1
  contractId := Reference.principal_roundTrips h
  slotId := X0_codecLaws.u32 _
  slotVersion := X0_codecLaws.u32 _
  dataHash := Storage.Reference.be_roundTrips (Reference.toNat_lt_pow (by norm_num) _) (by simp)
  signature := Storage.Reference.be_roundTrips (Reference.toNat_lt_pow (by norm_num) _) (by simp)

def siteRecord : WrbTxtRecordV1 := ⟨⟨⟨22, 1⟩, "site"⟩, ⟨0, 1, 2, 3⟩⟩

/-- the record of a site comes back from between two other lines -/
theorem record_round_trip_site :
    decodeZonefileRecords X1 (asBytes (String.ofList (['\n'].intercalate (["; site".toList] ++
        (wrbResourceRecord (X1.base64Encode ((WrbTxtRecord.v1 siteRecord).consensusSerialize X1))).toText.toList ::
          [[]])))) =
        .ok (["; site".toList].filterMap decodeLine ++
          wrbResourceRecord (X1.base64Encode ((WrbTxtRecord.v1 siteRecord).consensusSerialize X1)) ::
            [[]].filterMap decodeLine) ∧
      WrbTxtRecord.tryFrom X1
          (wrbResourceRecord (X1.base64Encode ((WrbTxtRecord.v1 siteRecord).consensusSerialize X1))) =
        .ok (.v1 siteRecord) ∧
      ∀ s, isAsciiText s = true →
        (ZonefileResourceRecord.escapeString s).bind ZonefileResourceRecord.unescapeString = some s :=
  record_round_trip X1_base64Laws (X1_fieldsRoundTrip (by decide +kernel)) (if_neg (by decide +kernel)) (by decide)

end Wrb.Runner
