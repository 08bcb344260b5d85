/-
What the decoder reads from the lines of a zonefile, against the records its documentation describes
(`src/runner/site.rs`).

A line of the form `NAME [TTL] CLASS TYPE P1 ... Pk` stands for the record with these fields, whose payload is the
unescaped concatenation of all of `P1 ... Pk`. The decoder counts its fields from the end instead: the last one is the
payload, and the three before it are name, class and type. It also takes any number of numbers after the name, of which
the last one is the TTL.

Results:
- `documented_eq_some_iff`: what is documented, as a function;
- `decodeLine_eq`: what the decoder reads, from the fields of the line;
- `decode_eq_iff`: a zonefile decodes as documented iff each of its lines is plain;
- `payload_cut`: a line with a payload of two fields, of which the decoder takes the first one as the type.
-/
import Wrb.Runner.Reference

namespace Wrb.Runner

open Wrb.Wire Wrb.Storage

/-! ## Fields -/

/-- the fields of a line: what spaces and tabs separate within the white space around it -/
def fields (rawLine : List Char) : List (List Char) :=
  ((trim rawLine).splitOnP fun c => c = ' ' || c = '\t').filter (· ≠ [])

def isNumber (tok : List Char) : Bool := (parseU64 tok).isSome

/-- a class: two characters that are not a number -/
def IsClass (tok : List Char) : Prop := tok.length = 2 ∧ isNumber tok = false

instance (tok : List Char) : Decidable (IsClass tok) := inferInstanceAs (Decidable (_ ∧ _))

/-- the payload a text stands for -/
def payloadText (text : List Char) : List Char := (ZonefileResourceRecord.unescapeString text).getD []

def record (name : List Char) (ttl : Option UInt64) (rrClass rrType text : List Char) : ZonefileResourceRecord where
  rrName := String.ofList name
  rrTtl := ttl
  rrClass := String.ofList rrClass
  rrType := String.ofList rrType
  rrPayload := String.ofList (payloadText text)

theorem record_inj {name name' rrClass rrClass' rrType rrType' text text' : List Char} {ttl ttl' : Option UInt64} :
    record name ttl rrClass rrType text = record name' ttl' rrClass' rrType' text' ↔
      name = name' ∧ ttl = ttl' ∧ rrClass = rrClass' ∧ rrType = rrType' ∧ payloadText text = payloadText text' := by
  simp [record, String.ofList_inj]

/-! ## What is documented -/

/-- the fields have the form `NAME [TTL] CLASS TYPE P1 ... Pk`, and stand for the record -/
inductive Documents : List (List Char) → ZonefileResourceRecord → Prop where
  | untimed (name rrClass rrType p : List Char) (ps : List (List Char)) (hclass : IsClass rrClass) :
    Documents (name :: rrClass :: rrType :: p :: ps) (record name none rrClass rrType (p :: ps).flatten)
  | timed (name tok rrClass rrType p : List Char) (ps : List (List Char)) (ttl : UInt64)
    (httl : parseU64 tok = some ttl) (hclass : IsClass rrClass) :
    Documents (name :: tok :: rrClass :: rrType :: p :: ps) (record name (some ttl) rrClass rrType (p :: ps).flatten)

/-- the record that the fields stand for, if they have the form -/
def documented : List (List Char) → Option ZonefileResourceRecord
  | [] => none
  | name :: toks =>
    let numbers := toks.takeWhile isNumber
    match toks.dropWhile isNumber with
    | rrClass :: rrType :: p :: ps =>
      if numbers.length ≤ 1 ∧ rrClass.length = 2 then
        some (record name (numbers.head?.bind parseU64) rrClass rrType (p :: ps).flatten)
      else none
    | _ => none

theorem takeWhile_isNumber {tok : List Char} {toks : List (List Char)} {ttl : UInt64} (h : parseU64 tok = some ttl) :
    (tok :: toks).takeWhile isNumber = tok :: toks.takeWhile isNumber ∧
      (tok :: toks).dropWhile isNumber = toks.dropWhile isNumber := by
  have hnumber : isNumber tok = true := by simp [isNumber, h]
  exact ⟨List.takeWhile_cons_of_pos hnumber, List.dropWhile_cons_of_pos hnumber⟩

/-- **The function finds the documented record.** -/
theorem documented_eq_some_iff {fs : List (List Char)} {rr : ZonefileResourceRecord} :
    documented fs = some rr ↔ Documents fs rr := by
  apply Iff.intro
  · intro h
    cases fs with
    | nil => simp [documented] at h
    | cons name toks =>
      have htoks : toks.takeWhile isNumber ++ toks.dropWhile isNumber = toks := List.takeWhile_append_dropWhile
      have hnumbers : ∀ t ∈ toks.takeWhile isNumber, isNumber t = true := fun t ht => List.mem_takeWhile_imp ht
      simp only [documented] at h
      match hwords : toks.dropWhile isNumber with
      | [] => simp [hwords] at h
      | [_] => simp [hwords] at h
      | [_, _] => simp [hwords] at h
      | rrClass :: rrType :: p :: ps =>
        simp only [hwords] at h htoks
        split_ifs at h with hform
        obtain ⟨hone, hlen⟩ := hform
        have hclass : IsClass rrClass := by
          refine ⟨hlen, ?_⟩
          have hhead := List.head?_dropWhile_not isNumber toks
          simpa [hwords] using hhead
        obtain rfl := Option.some.inj h
        match hnums : toks.takeWhile isNumber with
        | [] =>
          rw [hnums] at htoks
          rw [← htoks]
          exact Documents.untimed name rrClass rrType p ps hclass
        | [tok] =>
          rw [hnums] at htoks hnumbers
          obtain ⟨ttl, httl⟩ := Option.isSome_iff_exists.1 (hnumbers tok List.mem_cons_self)
          rw [← htoks]
          simpa [httl] using Documents.timed name tok rrClass rrType p ps ttl httl hclass
        | _ :: _ :: _ => simp [hnums] at hone
  · intro h
    cases h with
    | untimed name rrClass rrType p ps hclass =>
      have hnumber : ¬ isNumber rrClass = true := by simp [hclass.2]
      simp [documented, List.takeWhile_cons_of_neg hnumber, List.dropWhile_cons_of_neg hnumber, hclass.1]
    | timed name tok rrClass rrType p ps ttl httl hclass =>
      have hnumber : ¬ isNumber rrClass = true := by simp [hclass.2]
      simp [documented, takeWhile_isNumber httl, List.takeWhile_cons_of_neg hnumber,
        List.dropWhile_cons_of_neg hnumber, hclass.1, httl]

/-! ## What is read -/

/-- the record of the last four fields -/
def lastFour (ttl : Option UInt64) (parts : List (List Char)) : Option ZonefileResourceRecord :=
  match parts.reverse with
  | payload :: rrType :: rrClass :: rrName :: _ => some (record rrName ttl rrClass rrType payload)
  | _ => none

/-- the record the decoder takes from the fields -/
def taken : List (List Char) → Option ZonefileResourceRecord
  | [] => none
  | name :: toks =>
    match toks.dropWhile isNumber with
    | [] => none
    | rrClass :: more =>
      if rrClass.length = 2 then
        lastFour ((toks.takeWhile isNumber).getLast?.bind parseU64) (name :: rrClass :: more)
      else none

/-- empty tokens are skipped -/
theorem readTokens_filter (toks parts : List (List Char)) (ttl : Option UInt64) :
    readTokens toks parts ttl = readTokens (toks.filter (· ≠ [])) parts ttl := by
  induction toks generalizing parts ttl with
  | nil => rfl
  | cons tok toks ih =>
    by_cases hempty : tok = []
    · rw [hempty, List.filter_cons_of_neg (by simp), ← ih]
      rfl
    · rw [List.filter_cons_of_pos (by simpa using hempty), readTokens, readTokens]
      simp only [ih]

/-- behind the class, every token is a field -/
theorem readTokens_fields {toks parts : List (List Char)} {ttl : Option UInt64} (h : [] ∉ toks)
    (hparts : 2 ≤ parts.length) : readTokens toks parts ttl = some (parts ++ toks, ttl) := by
  induction toks generalizing parts with
  | nil => simp [readTokens]
  | cons tok toks ih =>
    obtain ⟨htok, htoks⟩ := not_or.1 (mt List.mem_cons.2 h)
    have hlen : tok.length ≠ 0 := fun hzero => htok (List.length_eq_zero_iff.1 hzero).symm
    rw [readTokens, if_neg hlen, if_neg (by omega), ih htoks (by simp; omega)]
    simp

/-- the TTL of the numbers between name and class, over the one found before them -/
theorem lastTtl_cons {tok : List Char} {numbers : List (List Char)} {v : UInt64} {ttl : Option UInt64}
    (htok : parseU64 tok = some v) (h : ∀ t ∈ numbers, isNumber t = true) :
    ((tok :: numbers).getLast?.bind parseU64).or ttl = (numbers.getLast?.bind parseU64).or (some v) := by
  rw [List.getLast?_cons]
  cases hlast : numbers.getLast? with
  | none => simp [htok]
  | some last =>
    obtain ⟨w, hw⟩ := Option.isSome_iff_exists.1 (h last (List.mem_of_getLast? hlast))
    simp [hw]

/-- between the name and the class, numbers are passed over, and the last one is kept -/
theorem readTokens_numbers {toks : List (List Char)} {name : List Char} {ttl : Option UInt64} (h : [] ∉ toks) :
    readTokens toks [name] ttl =
      match toks.dropWhile isNumber with
      | [] => some ([name], ((toks.takeWhile isNumber).getLast?.bind parseU64).or ttl)
      | rrClass :: more =>
        if rrClass.length = 2 then
          some (name :: rrClass :: more, ((toks.takeWhile isNumber).getLast?.bind parseU64).or ttl)
        else none := by
  induction toks generalizing ttl with
  | nil => simp [readTokens]
  | cons tok toks ih =>
    obtain ⟨htok, htoks⟩ := not_or.1 (mt List.mem_cons.2 h)
    have hlen : tok.length ≠ 0 := fun hzero => htok (List.length_eq_zero_iff.1 hzero).symm
    rw [readTokens, if_neg hlen, if_pos (by simp)]
    cases hparse : parseU64 tok with
    | some v =>
      have hnumber : isNumber tok = true := by simp [isNumber, hparse]
      have hall : ∀ t ∈ toks.takeWhile isNumber, isNumber t = true := fun t ht => List.mem_takeWhile_imp ht
      simp only [List.dropWhile_cons_of_pos hnumber, List.takeWhile_cons_of_pos hnumber, lastTtl_cons hparse hall]
      exact ih htoks
    | none =>
      have hnumber : ¬ isNumber tok = true := by simp [isNumber, hparse]
      simp only [List.dropWhile_cons_of_neg hnumber, List.takeWhile_cons_of_neg hnumber, List.getLast?_nil,
        Option.bind_none, Option.none_or]
      by_cases hclass : tok.length = 2
      · rw [if_neg (not_not.2 hclass), if_pos hclass, readTokens_fields htoks (by simp)]
        rfl
      · rw [if_pos hclass, if_neg hclass]

/-- what the decoder reads from the fields -/
theorem readTokens_name {name : List Char} {toks : List (List Char)} (h : [] ∉ name :: toks) :
    readTokens (name :: toks) [] none = readTokens toks [name] none := by
  have hlen : name.length ≠ 0 := fun hzero => h (List.mem_cons.2 (Or.inl (List.length_eq_zero_iff.1 hzero).symm))
  rw [readTokens, if_neg hlen, if_neg (by simp)]
  rfl

theorem nil_notMem_fields (rawLine : List Char) : [] ∉ fields rawLine := by
  simp [fields]

/-- **The decoder takes the record of a line from its fields.** -/
theorem decodeLine_eq (rawLine : List Char) : decodeLine rawLine = taken (fields rawLine) := by
  unfold decodeLine
  split_ifs with hlen
  · rw [List.length_eq_zero_iff.1 hlen]
    rfl
  have hfilter : ((trim rawLine).splitOnP fun c => c = ' ' || c = '\t').filter (· ≠ []) = fields rawLine := rfl
  rw [readTokens_filter, hfilter]
  have hnil := nil_notMem_fields rawLine
  cases hfields : fields rawLine with
  | nil => rfl
  | cons name toks =>
    rw [hfields] at hnil
    rw [readTokens_name hnil, readTokens_numbers fun hmem => hnil (List.mem_cons_of_mem name hmem)]
    simp only [taken, Option.or_none]
    cases toks.dropWhile isNumber with
    | nil => rfl
    | cons rrClass more =>
      dsimp only
      split_ifs with hclass
      · rfl
      · rfl

/-! ## Where they agree -/

/-- the three fields before the last one repeat name, class and type, and the last one reads like the whole payload -/
def Echoes (name rrClass rrType : List Char) (payload : List (List Char)) : Prop :=
  [name, rrClass, rrType] <:+ name :: rrClass :: rrType :: payload.dropLast ∧
    payloadText payload.flatten = payloadText (payload.getLast?.getD [])

instance (name rrClass rrType : List Char) (payload : List (List Char)) :
    Decidable (Echoes name rrClass rrType payload) := inferInstanceAs (Decidable (_ ∧ _))

/-- the fields have at most one number between name and class, and one payload field, or such ones that it makes no
difference; fields without a class of two characters, or without a payload, are plain -/
def Plain : List (List Char) → Prop
  | [] => True
  | name :: toks =>
    match toks.dropWhile isNumber with
    | rrClass :: rrType :: p :: ps =>
      rrClass.length = 2 → (toks.takeWhile isNumber).length ≤ 1 ∧ (ps = [] ∨ Echoes name rrClass rrType (p :: ps))
    | _ => True

instance : DecidablePred Plain
  | [] => isTrue trivial
  | name :: toks =>
    match h : toks.dropWhile isNumber with
    | rrClass :: rrType :: p :: ps =>
      decidable_of_iff (rrClass.length = 2 →
        (toks.takeWhile isNumber).length ≤ 1 ∧ (ps = [] ∨ Echoes name rrClass rrType (p :: ps))) (by simp [Plain, h])
    | [] => isTrue (by simp [Plain, h])
    | [_] => isTrue (by simp [Plain, h])
    | [_, _] => isTrue (by simp [Plain, h])

theorem echoes_single (name rrClass rrType p : List Char) : Echoes name rrClass rrType [p] := by
  simp [Echoes]

theorem lastFour_append (ttl : Option UInt64) (before : List (List Char)) (name rrClass rrType payload : List Char) :
    lastFour ttl (before ++ [name, rrClass, rrType, payload]) = some (record name ttl rrClass rrType payload) := by
  simp [lastFour]

-- two payload fields, and the last four fields still give the documented record
example : Echoes ['"', '"'] ['"', '"'] ['"', '"'] [['"', '"'], ['\\', '"', '"']] := by decide

/-- the fields, cut before the last four -/
theorem exists_lastFour (name rrClass rrType p : List Char) (ps : List (List Char)) :
    ∃ before a b c last, name :: rrClass :: rrType :: p :: ps = before ++ [a, b, c, last] ∧
      (p :: ps).getLast? = some last ∧ name :: rrClass :: rrType :: (p :: ps).dropLast = before ++ [a, b, c] := by
  induction ps using List.reverseRecOn with
  | nil => exact ⟨[], name, rrClass, rrType, p, rfl, rfl, rfl⟩
  | append_singleton ps last ih =>
    obtain ⟨before, a, b, c, last', hall, -, -⟩ := ih
    refine ⟨before ++ [a], b, c, last', last, ?_, ?_, ?_⟩
    · simpa using congrArg (· ++ [last]) hall
    · rw [← List.cons_append, List.getLast?_concat]
    · have hdrop : (p :: (ps ++ [last])).dropLast = p :: ps := by
        rw [← List.cons_append, List.dropLast_concat]
      simpa [hdrop] using hall

/-- the last four fields are the documented ones iff there are no others, or the others make no difference -/
theorem lastFour_eq_iff {ttl ttl' : Option UInt64} {name rrClass rrType p : List Char} {ps : List (List Char)} :
    lastFour ttl (name :: rrClass :: rrType :: p :: ps) = some (record name ttl' rrClass rrType (p :: ps).flatten) ↔
      ttl = ttl' ∧ Echoes name rrClass rrType (p :: ps) := by
  obtain ⟨before, a, b, c, last, hall, hlast, hbutlast⟩ := exists_lastFour name rrClass rrType p ps
  have hsuffix : [name, rrClass, rrType] <:+ before ++ [a, b, c] ↔ a = name ∧ b = rrClass ∧ c = rrType := by
    apply Iff.intro
    · intro h
      have heq := List.append_inj_right' (h.choose_spec) rfl
      simp only [List.cons.injEq, and_true] at heq
      exact ⟨heq.1.symm, heq.2.1.symm, heq.2.2.symm⟩
    · intro h
      obtain ⟨rfl, rfl, rfl⟩ := h
      exact List.suffix_append before _
  unfold Echoes
  rw [hbutlast, hsuffix, hall, lastFour_append, Option.some_inj, record_inj, hlast, Option.getD_some,
    eq_comm (a := payloadText last)]
  apply Iff.intro
  · intro h
    obtain ⟨ha, httl, hb, hc, htext⟩ := h
    exact ⟨httl, ⟨ha, hb, hc⟩, htext⟩
  · intro h
    obtain ⟨httl, ⟨ha, hb, hc⟩, htext⟩ := h
    exact ⟨ha, httl, hb, hc, htext⟩

theorem single_or_echoes {name rrClass rrType p : List Char} {ps : List (List Char)} :
    ps = [] ∨ Echoes name rrClass rrType (p :: ps) ↔ Echoes name rrClass rrType (p :: ps) := by
  apply Iff.intro
  · intro h
    cases h with
    | inl hnil =>
      rw [hnil]
      exact echoes_single name rrClass rrType p
    | inr hechoes => exact hechoes
  · exact Or.inr

theorem head?_eq_getLast? {α : Type} {l : List α} (h : l.length ≤ 1) : l.head? = l.getLast? := by
  match l, h with
  | [], _ => rfl
  | [x], _ => rfl

theorem lastFour_isSome {ttl : Option UInt64} {name rrClass rrType p : List Char} {ps : List (List Char)} :
    (lastFour ttl (name :: rrClass :: rrType :: p :: ps)).isSome = true := by
  obtain ⟨before, a, b, c, last, hall, -, -⟩ := exists_lastFour name rrClass rrType p ps
  rw [hall, lastFour_append]
  rfl

/-- what is documented is read, if perhaps as another record -/
theorem taken_isSome {fs : List (List Char)} (h : (documented fs).isSome = true) : (taken fs).isSome = true := by
  cases fs with
  | nil => exact h
  | cons name toks =>
    simp only [documented, taken] at h ⊢
    match hwords : toks.dropWhile isNumber with
    | [] => simp [hwords] at h
    | [_] => simp [hwords] at h
    | [_, _] => simp [hwords] at h
    | rrClass :: rrType :: p :: ps =>
      simp only [hwords] at h ⊢
      split_ifs at h with hform
      · rw [if_pos hform.2]
        exact lastFour_isSome
      · simp at h

/-- **The fields are read as documented iff they are plain.** -/
theorem taken_eq_iff (fs : List (List Char)) : taken fs = documented fs ↔ Plain fs := by
  cases fs with
  | nil => exact iff_of_true rfl trivial
  | cons name toks =>
    simp only [documented, taken, Plain]
    match toks.dropWhile isNumber with
    | [] => exact iff_of_true rfl trivial
    | [rrClass] => simp [lastFour]
    | [rrClass, rrType] => simp [lastFour]
    | rrClass :: rrType :: p :: ps =>
      by_cases hclass : rrClass.length = 2
      · by_cases hone : (toks.takeWhile isNumber).length ≤ 1
        · simp only [hclass, hone, and_self, if_true, true_imp_iff, true_and, single_or_echoes, lastFour_eq_iff,
            head?_eq_getLast? hone]
        · have hsome : lastFour ((toks.takeWhile isNumber).getLast?.bind parseU64)
              (name :: rrClass :: rrType :: p :: ps) ≠ none := by
            rw [ne_eq, ← Option.not_isSome_iff_eq_none, lastFour_isSome]
            simp
          simp [hclass, hone, hsome]
      · simp [hclass]

/-! ## The whole zonefile -/

theorem length_filterMap_le {α β : Type} {f g : α → Option β} {l : List α}
    (h : ∀ x ∈ l, (g x).isSome = true → (f x).isSome = true) : (l.filterMap g).length ≤ (l.filterMap f).length := by
  induction l with
  | nil => simp
  | cons x xs ih =>
    have hxs := ih fun y hy => h y (List.mem_cons_of_mem x hy)
    have hx := h x List.mem_cons_self
    cases hg : g x with
    | none =>
      rw [List.filterMap_cons_none hg]
      exact hxs.trans ((List.sublist_cons_self x xs).filterMap f).length_le
    | some b =>
      obtain ⟨a, ha⟩ := Option.isSome_iff_exists.1 (hx (by simp [hg]))
      simpa [hg, ha] using hxs

/-- two selections, the first of which leaves nothing out that the second has, agree iff they do on each element -/
theorem filterMap_eq_iff {α β : Type} {f g : α → Option β} {l : List α}
    (h : ∀ x ∈ l, (g x).isSome = true → (f x).isSome = true) :
    l.filterMap f = l.filterMap g ↔ ∀ x ∈ l, f x = g x := by
  induction l with
  | nil => simp
  | cons x xs ih =>
    have hxs := fun y hy => h y (List.mem_cons_of_mem x hy)
    rw [List.forall_mem_cons, ← ih hxs]
    cases hf : f x with
    | none =>
      have hg : g x = none := by
        by_contra hsome
        have := h x List.mem_cons_self (Option.isSome_iff_ne_none.2 hsome)
        simp [hf] at this
      simp [hf, hg]
    | some a =>
      cases hg : g x with
      | none =>
        -- the first selection is the longer one
        have hlen := length_filterMap_le hxs
        refine iff_of_false (fun heq => ?_) (by simp)
        rw [List.filterMap_cons_some hf, List.filterMap_cons_none hg] at heq
        have := congrArg List.length heq
        simp at this
        omega
      | some b => simp [hf, hg]

/-- **A zonefile decodes as documented iff each of its lines is plain.** -/
theorem decode_eq_iff (X : SiteExt) {zonefile : Bytes} {text : String} (htext : fromUtf8 zonefile = some text)
    (h : isAsciiText text.toList = true) :
    decodeZonefileRecords X zonefile =
        .ok ((text.toList.splitOn '\n').filterMap fun line => documented (fields line)) ↔
      ∀ line ∈ text.toList.splitOn '\n', Plain (fields line) := by
  have hread : decodeLine = fun line => taken (fields line) := funext decodeLine_eq
  rw [decodeZonefileRecords_eq X htext h, hread, Except.ok.injEq, filterMap_eq_iff fun line _ => taken_isSome]
  simp only [taken_eq_iff]

/-- a comment and a TTL that is too large do not disturb the other lines -/
def plainZonefile : String :=
  "alpha 60 IN TXT one\n; two\n\tbeta IN TXT \"three\"\ngamma 18446744073709551616 IN TXT four"

theorem plain_decodes :
    decodeZonefileRecords X1 (asBytes plainZonefile) =
      .ok ((plainZonefile.toList.splitOn '\n').filterMap fun line => documented (fields line)) :=
  (decode_eq_iff X1 (WrbpodSuperblock.fromUtf8_asBytes plainZonefile) (by decide +kernel)).2 (by decide +kernel)

def longZonefile : String := "alpha 60 IN TXT one\nbeta IN TXT two three"

theorem documented_longZonefile :
    ((longZonefile.toList.splitOn '\n').filterMap fun line => documented (fields line)) =
      [⟨"alpha", some 60, "IN", "TXT", "one"⟩, ⟨"beta", none, "IN", "TXT", "twothree"⟩] := by
  decide +kernel

/-- the payload of the second line is cut: its first field is taken for the type -/
theorem payload_cut :
    fromUtf8 (asBytes longZonefile) = some longZonefile ∧ isAsciiText longZonefile.toList = true ∧
      decodeZonefileRecords X1 (asBytes longZonefile) =
        .ok [⟨"alpha", some 60, "IN", "TXT", "one"⟩, ⟨"IN", none, "TXT", "two", "three"⟩] ∧
      decodeZonefileRecords X1 (asBytes longZonefile) ≠
        .ok ((longZonefile.toList.splitOn '\n').filterMap fun line => documented (fields line)) := by
  have htext := WrbpodSuperblock.fromUtf8_asBytes longZonefile
  have hascii : isAsciiText longZonefile.toList = true := by decide +kernel
  have hread : (longZonefile.toList.splitOn '\n').filterMap decodeLine =
      [⟨"alpha", some 60, "IN", "TXT", "one"⟩, ⟨"IN", none, "TXT", "two", "three"⟩] := by decide +kernel
  have hdecode := decodeZonefileRecords_eq X1 htext hascii
  rw [hread] at hdecode
  refine ⟨htext, hascii, hdecode, ?_⟩
  rw [hdecode, documented_longZonefile]
  simp

end Wrb.Runner
