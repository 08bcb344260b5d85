/-
What a decoder has read when it accepts, readers with a limit, and counted vectors.

`Took d Q` is the partial correctness of a decoder: whenever `d` accepts, the value `a` and the number `n` of bytes it
took satisfy `Q a n`. It composes along `do` blocks (`Took.bind`), loops (`Took.many`) and limits (`Took.limited`).
`Fits w n` is the matching statement about a write: it succeeds with at most `n` bytes.

Results:
- `ReadsBack.limited`: a limit is not noticed by what fits under it;
- `Tells.andThen`: what one write tells and what the next one tells, the two in a row tell;
- `hash_eq_iff`: two texts have one hash exactly when they are the same, or collide;
- `Took.limited`: what a limited reader accepts took no more bytes than the limit.
-/
import Wrb.Lib.Wire

namespace Wrb.Wire

variable {ε φ α β : Type}

/-! ## What was taken -/

/-- whatever `d` accepts, `Q` holds of the value and of the number of bytes taken -/
def Took (d : Decoder ε α) (Q : α → ℕ → Prop) : Prop :=
  ∀ b a rest, d.run b = .ok (a, rest) → ∃ n, b.length = n + rest.length ∧ Q a n

theorem Took.pure {a : α} {Q : α → ℕ → Prop} (h : Q a 0) : Took (Pure.pure a : Decoder ε α) Q := by
  intro b a' rest hr
  obtain ⟨rfl, rfl⟩ := Prod.mk.inj (run_pure_ok.1 hr)
  exact ⟨0, (Nat.zero_add _).symm, h⟩

theorem Took.throw {e : ε} {Q : α → ℕ → Prop} : Took (throw e : Decoder ε α) Q := fun _ _ _ hr => nomatch hr

theorem Took.bind {d : Decoder ε α} {f : α → Decoder ε β} {Q : α → ℕ → Prop} {R : β → ℕ → Prop} (h : Took d Q)
    (h' : ∀ a n, Q a n → Took (f a) fun c m => R c (n + m)) : Took (d >>= f) R := by
  intro b c rest hr
  obtain ⟨a, b', h1, h2⟩ := run_bind_ok.1 hr
  obtain ⟨n, hn, hQ⟩ := h b a b' h1
  obtain ⟨m, hm, hR⟩ := h' a n hQ b' c rest h2
  exact ⟨n + m, by omega, hR⟩

theorem Took.mono {d : Decoder ε α} {Q R : α → ℕ → Prop} (h : Took d Q) (hQR : ∀ a n, Q a n → R a n) : Took d R := by
  intro b a rest hr
  obtain ⟨n, hn, hQ⟩ := h b a rest hr
  exact ⟨n, hn, hQR a n hQ⟩

theorem Took.ite {P : Prop} [Decidable P] {d d' : Decoder ε α} {Q : α → ℕ → Prop} (h : P → Took d Q)
    (h' : ¬P → Took d' Q) : Took (if P then d else d') Q := by
  split_ifs with hP
  · exact h hP
  · exact h' hP

/-- `n` values in a row, each with the bytes it took -/
theorem Took.many {d : Decoder ε α} {Q : α → ℕ → Prop} (h : Took d Q) (n : ℕ) :
    Took (readMany d n) fun as m => as.length = n ∧ ∃ ms, List.Forall₂ Q as ms ∧ m = ms.sum := by
  induction n with
  | zero => exact Took.pure ⟨rfl, [], .nil, rfl⟩
  | succ n ih =>
    refine h.bind fun a k hQ => ih.bind fun as m hm => Took.pure ?_
    obtain ⟨hlen, ms, hall, rfl⟩ := hm
    exact ⟨congrArg (· + 1) hlen, k :: ms, .cons hQ hall, rfl⟩

/-! ## What fits -/

/-- the write succeeds, with at most `n` bytes -/
def Fits (w : Except φ Bytes) (n : ℕ) : Prop := ∃ b, w = .ok b ∧ b.length ≤ n

theorem Fits.ok {b : Bytes} {n : ℕ} (h : b.length ≤ n) : Fits (.ok b : Except φ Bytes) n := ⟨b, rfl, h⟩

instance decidableFits (w : Except φ Bytes) (n : ℕ) : Decidable (Fits w n) :=
  match w with
  | .error _ => .isFalse fun h => nomatch h.choose_spec.1
  | .ok b => decidable_of_iff (b.length ≤ n) ⟨Fits.ok, fun ⟨_, hb, hlen⟩ => Except.ok.inj hb ▸ hlen⟩

theorem Fits.mono {w : Except φ Bytes} {n m : ℕ} (h : Fits w n) (hle : n ≤ m) : Fits w m := by
  obtain ⟨b, hb, hlen⟩ := h
  exact ⟨b, hb, hlen.trans hle⟩

theorem Fits.andThen {w w' : Except φ Bytes} {n m : ℕ} (h : Fits w n) (h' : Fits w' m) :
    Fits (Wire.andThen w w') (n + m) := by
  obtain ⟨b, rfl, hlen⟩ := h
  obtain ⟨b', rfl, hlen'⟩ := h'
  refine ⟨b ++ b', rfl, ?_⟩
  rw [List.length_append]
  exact Nat.add_le_add hlen hlen'

/-- a write that fits is made of two that fit together -/
theorem Fits.split {w w' : Except φ Bytes} {n : ℕ} (h : Fits (Wire.andThen w w') n) :
    ∃ b b', w = .ok b ∧ w' = .ok b' ∧ b.length + b'.length ≤ n := by
  obtain ⟨b, hb, hlen⟩ := h
  cases w with
  | error e => exact nomatch hb
  | ok b₁ =>
    cases w' with
    | error e => exact nomatch hb
    | ok b₂ =>
      obtain rfl := Except.ok.inj hb
      exact ⟨b₁, b₂, rfl, rfl, by simpa using hlen⟩

theorem Fits.left {w w' : Except φ Bytes} {n : ℕ} (h : Fits (Wire.andThen w w') n) : Fits w n := by
  obtain ⟨b, b', hb, -, hlen⟩ := h.split
  exact ⟨b, hb, by omega⟩

theorem Fits.right {w w' : Except φ Bytes} {n : ℕ} (h : Fits (Wire.andThen w w') n) : Fits w' n := by
  obtain ⟨b, b', -, hb', hlen⟩ := h.split
  exact ⟨b', hb', by omega⟩

theorem Fits.mapError {ψ : Type} {w : Except φ Bytes} {n : ℕ} (f : φ → ψ) (h : Fits w n) : Fits (w.mapError f) n := by
  obtain ⟨b, rfl, hlen⟩ := h
  exact ⟨b, rfl, hlen⟩

theorem Fits.many {w : α → Except φ Bytes} {as : List α} {ns : List ℕ}
    (h : List.Forall₂ (fun a n => Fits (w a) n) as ns) :
    Fits (writeMany w as) ns.sum := by
  induction h with
  | nil => exact Fits.ok (Nat.zero_le _)
  | cons hfit _ ih =>
    rw [List.sum_cons]
    exact hfit.andThen ih

theorem ReadsBack.ok {w : Except φ Bytes} {d : Decoder ε α} {a : α} (h : ReadsBack w d a) : ∃ b, w = .ok b := by
  obtain ⟨b, hb, -⟩ := h
  exact ⟨b, hb⟩

/-- what `c` accepts it reads back, from no more bytes than it took -/
def Codec.Sound (c : Codec ε α) : Prop := Took c.dec fun a n => c.RoundTrips a ∧ (c.enc a).length ≤ n

/-- a codec of values of one width -/
theorem Codec.Sound.of_width {c : Codec ε α} {n : ℕ} (h : ∀ a, c.RoundTrips a) (hlen : ∀ a, (c.enc a).length = n)
    (htook : Took c.dec fun _ m => m = n) : c.Sound := by
  apply htook.mono
  rintro a m rfl
  exact ⟨h a, (hlen a).le⟩

/-! ## What is told by what was written -/

/-- if the two writes are the same, whatever follows them, then `P`, and the same follows them -/
def Tells (w w' : Except φ Bytes) (P : Prop) : Prop :=
  ∀ b b' rest rest', w = .ok b → w' = .ok b' → b ++ rest = b' ++ rest' → P ∧ rest = rest'

/-- what can be read back tells what it was -/
theorem Tells.of_readsBack {w w' : Except φ Bytes} {d : Decoder ε α} {a a' : α} (h : ReadsBack w d a)
    (h' : ReadsBack w' d a') : Tells w w' (a = a') := by
  intro b b' rest rest' hb hb' hsame
  obtain ⟨c, hc, hread⟩ := h
  obtain ⟨c', hc', hread'⟩ := h'
  obtain rfl := Except.ok.inj (hc.symm.trans hb)
  obtain rfl := Except.ok.inj (hc'.symm.trans hb')
  have hrun := hread rest
  rw [hsame, hread' rest'] at hrun
  obtain ⟨ha, hrest⟩ := Prod.mk.inj (Except.ok.inj hrun)
  exact ⟨ha.symm, hrest.symm⟩

theorem Tells.of_codec {c : Codec ε α} {a a' : α} (h : c.RoundTrips a) (h' : c.RoundTrips a') :
    Tells (.ok (c.enc a) : Except φ Bytes) (.ok (c.enc a')) (a = a') :=
  .of_readsBack (.of_codec h) (.of_codec h')

theorem Tells.andThen {w₁ w₂ w₁' w₂' : Except φ Bytes} {P Q : Prop} (h : Tells w₁ w₁' P) (h' : P → Tells w₂ w₂' Q) :
    Tells (Wire.andThen w₁ w₂) (Wire.andThen w₁' w₂') (P ∧ Q) := by
  intro b b' rest rest' hb hb' hsame
  cases w₁ with
  | error e => exact nomatch hb
  | ok b₁ =>
    cases w₂ with
    | error e => exact nomatch hb
    | ok b₂ =>
      cases w₁' with
      | error e => exact nomatch hb'
      | ok b₁' =>
        cases w₂' with
        | error e => exact nomatch hb'
        | ok b₂' =>
          obtain rfl := Except.ok.inj hb
          obtain rfl := Except.ok.inj hb'
          rw [List.append_assoc, List.append_assoc] at hsame
          obtain ⟨hP, hrest⟩ := h b₁ b₁' _ _ rfl rfl hsame
          obtain ⟨hQ, hrest'⟩ := h' hP b₂ b₂' _ _ rfl rfl hrest
          exact ⟨⟨hP, hQ⟩, hrest'⟩

theorem Tells.mono {w w' : Except φ Bytes} {P Q : Prop} (h : Tells w w' P) (hPQ : P → Q) : Tells w w' Q := by
  intro b b' rest rest' hb hb' hsame
  obtain ⟨hP, hrest⟩ := h b b' rest rest' hb hb' hsame
  exact ⟨hPQ hP, hrest⟩

/-- the two texts differ and have one hash -/
def Collide {H : Type} (hash : Bytes → H) (b b' : Bytes) : Prop := b ≠ b' ∧ hash b = hash b'

theorem hash_eq_iff {H : Type} {hash : Bytes → H} {b b' : Bytes} :
    hash b = hash b' ↔ b = b' ∨ Collide hash b b' := by
  constructor
  · intro h
    by_cases hb : b = b'
    · exact .inl hb
    · exact .inr ⟨hb, h⟩
  · rintro (rfl | ⟨-, h⟩)
    · rfl
    · exact h

/-! ## Readers with a limit -/

/-- `d` on at most `limit` bytes of the input, with the number of bytes it took -/
def limitedLen (limit : ℕ) (d : Decoder ε α) : Decoder ε (α × ℕ) := fun b =>
  match d.run (b.take limit) with
  | .error e => .error e
  | .ok (a, rest) => .ok ((a, (b.take limit).length - rest.length), rest ++ b.drop limit)

def limited (limit : ℕ) (d : Decoder ε α) : Decoder ε α := do
  let r ← limitedLen limit d
  pure r.1

theorem Reads.limitedLen {limit : ℕ} {d : Decoder ε α} {b : Bytes} {a : α} (h : Reads d b a) (hlen : b.length ≤ limit) :
    Reads (limitedLen limit d) b (a, b.length) := by
  intro rest
  have htake : (b ++ rest).take limit = b ++ rest.take (limit - b.length) := by
    rw [List.take_append, List.take_of_length_le hlen]
  have hdrop : (b ++ rest).drop limit = rest.drop (limit - b.length) := by
    rw [List.drop_append, List.drop_of_length_le hlen, List.nil_append]
  have hrun := h (rest.take (limit - b.length))
  simp only [Wire.limitedLen, StateT.run] at hrun ⊢
  rw [htake, hdrop, hrun]
  simp

theorem Reads.limited {limit : ℕ} {d : Decoder ε α} {b : Bytes} {a : α} (h : Reads d b a) (hlen : b.length ≤ limit) :
    Reads (limited limit d) b a := (h.limitedLen hlen).map (Reads.pure a)

/-- a limit is not noticed by what fits under it -/
theorem ReadsBack.limited {limit : ℕ} {w : Except φ Bytes} {d : Decoder ε α} {a : α} (h : ReadsBack w d a)
    (hfit : Fits w limit) : ReadsBack w (limited limit d) a := by
  obtain ⟨b, rfl, hread⟩ := h
  obtain ⟨b', hb', hlen⟩ := hfit
  obtain rfl := Except.ok.inj hb'
  exact ⟨b, rfl, hread.limited hlen⟩

theorem Took.limitedLen {limit : ℕ} {d : Decoder ε α} {Q : α → ℕ → Prop} (h : Took d Q) :
    Took (limitedLen limit d) fun r n => Q r.1 n ∧ r.2 = n ∧ n ≤ limit := by
  intro b r rest hr
  simp only [Wire.limitedLen, StateT.run] at hr
  split at hr
  · exact nomatch hr
  · next a rest' hrun =>
    obtain ⟨n, hn, hQ⟩ := h _ a rest' hrun
    obtain ⟨rfl, rfl⟩ := Prod.mk.inj (Except.ok.inj hr)
    have hsplit : (b.take limit).length + (b.drop limit).length = b.length := by
      rw [← List.length_append, List.take_append_drop]
    have hle : (b.take limit).length ≤ limit := by simp
    exact ⟨n, by rw [List.length_append]; omega, hQ, by dsimp only; omega, by omega⟩

/-- what a limited reader accepts took no more than the limit -/
theorem Took.limited {limit : ℕ} {d : Decoder ε α} {Q : α → ℕ → Prop} (h : Took d Q) :
    Took (limited limit d) fun a n => Q a n ∧ n ≤ limit := by
  refine h.limitedLen.bind fun r n hr => Took.pure ?_
  obtain ⟨hQ, -, hle⟩ := hr
  exact ⟨hQ, hle⟩

/-! ## Looking at the next byte -/

/-- read a byte, put it back and go on -/
def peekByte (d : Decoder ε UInt8) (f : UInt8 → Decoder ε α) : Decoder ε α := do
  let v ← d
  modify fun b => v :: b
  f v

theorem Reads.peekByte {d : Decoder ε UInt8} {f : UInt8 → Decoder ε α} {v : UInt8} {b : Bytes} {a : α}
    (hv : Reads d [v] v) (h : Reads (f v) (v :: b) a) : Reads (peekByte d f) (v :: b) a := by
  intro rest
  have hrun : d.run (v :: (b ++ rest)) = .ok (v, b ++ rest) := hv (b ++ rest)
  rw [List.cons_append, Wire.peekByte, StateT.run_bind, hrun]
  exact h rest

theorem ReadsBack.peekByte {w : Except φ Bytes} {d : Decoder ε UInt8} {f : UInt8 → Decoder ε α} {v : UInt8} {a : α}
    (hv : Reads d [v] v) (h : ReadsBack (Wire.andThen (.ok [v]) w) (f v) a) :
    ReadsBack (Wire.andThen (.ok [v]) w) (peekByte d f) a := by
  obtain ⟨b, hb, hread⟩ := h
  cases w with
  | error e => exact nomatch hb
  | ok b' =>
    obtain rfl := Except.ok.inj hb
    exact ⟨_, rfl, Reads.peekByte hv hread⟩

theorem Took.peekByte {d : Decoder ε UInt8} {f : UInt8 → Decoder ε α} {Q : α → ℕ → Prop}
    (hd : Took d fun _ n => n = 1) (h : ∀ v, Took (f v) Q) : Took (peekByte d f) Q := by
  intro b a rest hr
  obtain ⟨v, b', h1, h2⟩ := run_bind_ok.1 hr
  obtain ⟨n, hn, rfl⟩ := hd b v b' h1
  obtain ⟨m, hm, hQ⟩ := h v (v :: b') a rest h2
  rw [List.length_cons] at hm
  exact ⟨m, by omega, hQ⟩

/-! ## Counted vectors -/

/-- the number of items in four bytes, and the items -/
def vecWrite (w : α → Except φ Bytes) (as : List α) : Except φ Bytes :=
  andThen (.ok (beBytes 4 as.length)) (writeMany w as)

/-- at most `limit` items; more are refused with `e` -/
def vecRead (short e : ε) (limit : ℕ) (d : Decoder ε α) : Decoder ε (List α) := do
  let count ← readExact short 4
  if limit < beNat count then throw e else readMany d (beNat count)

theorem vec_readsBack {short e : ε} {limit : ℕ} {w : α → Except φ Bytes} {d : Decoder ε α} {as : List α}
    (hlt : as.length < 2 ^ 32) (hlen : as.length ≤ limit) (h : ∀ a ∈ as, ReadsBack (w a) d a) :
    ReadsBack (vecWrite w as) (vecRead short e limit d) as := by
  have hcount : beNat (beBytes 4 as.length) = as.length := beNat_beBytes (by norm_num; omega)
  have hread : Reads (readExact short 4) (beBytes 4 as.length) (beBytes 4 as.length) := by
    have hexact := Reads.exact short (beBytes 4 as.length)
    rwa [length_beBytes] at hexact
  have hitems : ReadsBack (writeMany w as)
      (if limit < beNat (beBytes 4 as.length) then throw e else readMany d (beNat (beBytes 4 as.length))) as := by
    rw [hcount, if_neg (by omega)]
    exact ReadsBack.many h
  exact ReadsBack.andThen ⟨_, rfl, hread⟩ hitems

theorem Took.exact {e : ε} {n : ℕ} : Took (readExact e n) fun b m => b.length = n ∧ m = n := by
  intro b r rest hr
  have hlen := length_of_readExact hr
  simp only [readExact, StateT.run] at hr
  split_ifs at hr with hlt
  obtain ⟨rfl, rfl⟩ := Prod.mk.inj (Except.ok.inj hr)
  exact ⟨n, by rw [List.length_drop]; omega, hlen, rfl⟩

theorem Took.vec {short e : ε} {limit : ℕ} {d : Decoder ε α} {Q : α → ℕ → Prop} (h : Took d Q) :
    Took (vecRead short e limit d) fun as n =>
      as.length ≤ limit ∧ ∃ ns, List.Forall₂ Q as ns ∧ n = 4 + ns.sum := by
  refine Took.exact.bind fun count n hn => Took.ite (fun _ => Took.throw) fun hle => ?_
  obtain ⟨-, rfl⟩ := hn
  refine (h.many _).mono fun as m hm => ?_
  obtain ⟨hcount, ns, hall, rfl⟩ := hm
  exact ⟨by omega, ns, hall, rfl⟩

theorem Fits.vec {w : α → Except φ Bytes} {as : List α} {ns : List ℕ}
    (h : List.Forall₂ (fun a n => Fits (w a) n) as ns) : Fits (vecWrite w as) (4 + ns.sum) :=
  (Fits.ok (length_beBytes 4 as.length).le).andThen (Fits.many h)

end Wrb.Wire
