/-
Byte decoders, codecs and what "round trip" means for them, over any error type.

A decoder reads a prefix of its input and returns the bytes it left. `Reads d b a` says that `d` reads exactly the bytes
`b` as `a`, whatever follows them. This is the form in which round trips compose:
- `Reads.bind`: reading `b` and then `b'` reads `b ++ b'`;
- `Reads.many`, `Reads.iter`, `Reads.foldlM`: a counted loop, and a loop along a list, read the concatenation of what
  their steps read.
An encoder that can fail is a value of `Except φ Bytes`; `ReadsBack w d a` says that it does not, and that `d` reads `a`
back (`ReadsBack.andThen`, `ReadsBack.many`).
Big-endian numbers (`beBytes`, `beNat`) are the only concrete format here.
-/
import Mathlib.Tactic

namespace Wrb.Wire

abbrev Bytes := List UInt8

/-- a decoder reads a prefix of its input and returns the rest -/
abbrev Decoder (ε α : Type) := StateT Bytes (Except ε) α

variable {ε α β γ : Type}

/-- `d` reads the bytes `b` as `a`, whatever follows them -/
def Reads (d : Decoder ε α) (b : Bytes) (a : α) : Prop := ∀ rest, d.run (b ++ rest) = .ok (a, rest)

theorem Reads.pure (a : α) : Reads (Pure.pure a : Decoder ε α) [] a := fun _ => rfl

theorem Reads.bind {d : Decoder ε α} {f : α → Decoder ε β} {b b' : Bytes} {a : α} {c : β} (h : Reads d b a)
    (h' : Reads (f a) b' c) : Reads (d >>= f) (b ++ b') c := by
  intro rest
  rw [StateT.run_bind, List.append_assoc, h (b' ++ rest)]
  exact h' rest

/-- the step of a decoder that reads nothing more than `b` -/
theorem Reads.map {d : Decoder ε α} {f : α → Decoder ε β} {b : Bytes} {a : α} {c : β} (h : Reads d b a)
    (h' : Reads (f a) [] c) : Reads (d >>= f) b c := by
  simpa using h.bind h'

theorem Reads.eq {d : Decoder ε α} {b rest : Bytes} {a : α} {r : α × Bytes} (h : Reads d b a)
    (hr : d.run (b ++ rest) = .ok r) : r = (a, rest) := Except.ok.inj (hr.symm.trans (h rest))

/-- a successful bind is a success of both parts -/
theorem run_bind_ok {d : Decoder ε α} {f : α → Decoder ε β} {b : Bytes} {r : β × Bytes} :
    (d >>= f).run b = .ok r ↔ ∃ a b', d.run b = .ok (a, b') ∧ (f a).run b' = .ok r := by
  rw [StateT.run_bind]
  cases h : d.run b with
  | error e => simp [Bind.bind, Except.bind]
  | ok p =>
    obtain ⟨a, b'⟩ := p
    simp only [Bind.bind, Except.bind, Except.ok.injEq, Prod.mk.injEq]
    exact ⟨fun hr => ⟨a, b', ⟨rfl, rfl⟩, hr⟩, by rintro ⟨_, _, ⟨rfl, rfl⟩, hr⟩; exact hr⟩

theorem run_pure_ok {a : α} {b : Bytes} {r : α × Bytes} :
    (pure a : Decoder ε α).run b = .ok r ↔ r = (a, b) := by
  rw [StateT.run_pure]
  simp [Pure.pure, Except.pure, eq_comm]

/-- a decoder together with the encoder it is meant to invert -/
structure Codec (ε α : Type) where
  enc : α → Bytes
  dec : Decoder ε α

/-- the codec reads back the value `a` it wrote -/
def Codec.RoundTrips (c : Codec ε α) (a : α) : Prop := Reads c.dec (c.enc a) a

/-! ## Loops -/

/-- read `n` values in a row -/
def readMany (d : Decoder ε α) : ℕ → Decoder ε (List α)
  | 0 => pure []
  | n + 1 => do
    let a ← d
    let as ← readMany d n
    pure (a :: as)

/-- run a reading step `n` times on an accumulator -/
def iter (f : α → Decoder ε α) : ℕ → α → Decoder ε α
  | 0, a => pure a
  | n + 1, a => do iter f n (← f a)

theorem Reads.many {d : Decoder ε α} {enc : α → Bytes} {as : List α} (h : ∀ a ∈ as, Reads d (enc a) a) :
    Reads (readMany d as.length) (as.flatMap enc) as := by
  induction as with
  | nil => exact Reads.pure _
  | cons a as ih =>
    have htail := ih fun x hx => h x (List.mem_cons_of_mem a hx)
    exact (h a List.mem_cons_self).bind (htail.map (Reads.pure _))

/-- a loop whose step reads `enc x` and turns the accumulator `s` into `g s x`, as long as `P` holds of what is still to
be read -/
theorem Reads.iter (f : β → Decoder ε β) (enc : α → Bytes) (g : β → α → β) (P : β → List α → Prop)
    (hstep : ∀ s x xs, P s (x :: xs) → Reads (f s) (enc x) (g s x) ∧ P (g s x) xs) (s : β) (xs : List α)
    (h : P s xs) : Reads (Wire.iter f xs.length s) (xs.flatMap enc) (xs.foldl g s) := by
  induction xs generalizing s with
  | nil => exact Reads.pure _
  | cons x xs ih =>
    obtain ⟨hread, hnext⟩ := hstep s x xs h
    exact hread.bind (ih _ hnext)

theorem Reads.foldlM {f : β → α → Decoder ε β} {enc : α → Bytes} {g : β → α → β} (s : β) (xs : List α)
    (h : ∀ s, ∀ x ∈ xs, Reads (f s x) (enc x) (g s x)) : Reads (xs.foldlM f s) (xs.flatMap enc) (xs.foldl g s) := by
  induction xs generalizing s with
  | nil => exact Reads.pure _
  | cons x xs ih =>
    have htail := ih (g s x) fun s y hy => h s y (List.mem_cons_of_mem x hy)
    simpa using (h s x List.mem_cons_self).bind htail

/-- a check along a list, reading nothing -/
theorem Reads.mapM {f : α → Decoder ε β} {g : α → β} {xs : List α} (h : ∀ x ∈ xs, Reads (f x) [] (g x)) :
    Reads (xs.mapM f) [] (xs.map g) := by
  induction xs with
  | nil => exact Reads.pure _
  | cons x xs ih =>
    have htail := ih fun y hy => h y (List.mem_cons_of_mem x hy)
    rw [List.mapM_cons]
    exact (h x List.mem_cons_self).map (htail.map (Reads.pure _))

/-- what the steps of a successful loop along a list preserve -/
theorem foldlM_inv {f : β → α → Decoder ε β} (P : β → Prop) {xs : List α}
    (hstep : ∀ s, ∀ x ∈ xs, ∀ b s' b', P s → (f s x).run b = .ok (s', b') → P s') {s : β} {b : Bytes} {r : β × Bytes}
    (h : P s) (hr : (xs.foldlM f s).run b = .ok r) : P r.1 := by
  induction xs generalizing s b with
  | nil =>
    obtain rfl := run_pure_ok.1 hr
    exact h
  | cons x xs ih =>
    rw [List.foldlM_cons] at hr
    obtain ⟨s', b', h1, h2⟩ := run_bind_ok.1 hr
    exact ih (fun s y hy => hstep s y (List.mem_cons_of_mem x hy)) (hstep s x List.mem_cons_self b s' b' h h1) h2

/-- what a successful check along a list says of its results and of the list -/
theorem mapM_ok {f : α → Decoder ε β} {xs : List α} {b : Bytes} {r : List β × Bytes} (hr : (xs.mapM f).run b = .ok r) :
    r.1.length = xs.length ∧ (∀ y ∈ r.1, ∃ x ∈ xs, ∃ b₁ b₂, (f x).run b₁ = .ok (y, b₂)) ∧
      ∀ x ∈ xs, ∃ y b₁ b₂, (f x).run b₁ = .ok (y, b₂) := by
  induction xs generalizing b r with
  | nil =>
    obtain rfl := run_pure_ok.1 hr
    simp
  | cons x xs ih =>
    rw [List.mapM_cons] at hr
    obtain ⟨y, b1, h1, h2⟩ := run_bind_ok.1 hr
    obtain ⟨ys, b2, h3, h4⟩ := run_bind_ok.1 h2
    obtain rfl := run_pure_ok.1 h4
    obtain ⟨hlen, hall, hevery⟩ := ih h3
    refine ⟨by simpa using hlen, fun z hz => ?_, fun z hz => ?_⟩
    · rcases List.mem_cons.1 hz with rfl | hz
      · exact ⟨x, List.mem_cons_self, b, b1, h1⟩
      · obtain ⟨x', hx', hread⟩ := hall z hz
        exact ⟨x', List.mem_cons_of_mem x hx', hread⟩
    · rcases List.mem_cons.1 hz with rfl | hz
      · exact ⟨y, b, b1, h1⟩
      · exact hevery z hz

/-- what `n` successful steps of a loop preserve -/
theorem iter_inv {f : α → Decoder ε α} (P : ℕ → α → Prop)
    (hstep : ∀ n a b a' b', P n a → (f a).run b = .ok (a', b') → P (n + 1) a') {n m : ℕ} {a : α} {b : Bytes}
    {r : α × Bytes} (h : P n a) (hr : (iter f m a).run b = .ok r) : P (n + m) r.1 := by
  induction m generalizing n a b with
  | zero =>
    obtain rfl := run_pure_ok.1 hr
    exact h
  | succ m ih =>
    obtain ⟨a', b', h1, h2⟩ := run_bind_ok.1 hr
    have := ih (hstep n a b a' b' h h1) h2
    rwa [Nat.add_right_comm] at this

theorem length_of_readMany {d : Decoder ε α} {n : ℕ} {b : Bytes} {r : List α × Bytes}
    (h : (readMany d n).run b = .ok r) : r.1.length = n := by
  induction n generalizing b r with
  | zero =>
    obtain rfl := run_pure_ok.1 h
    rfl
  | succ n ih =>
    obtain ⟨a, b1, -, h1⟩ := run_bind_ok.1 h
    obtain ⟨as, b2, h2, h3⟩ := run_bind_ok.1 h1
    obtain rfl := run_pure_ok.1 h3
    simpa using ih h2

theorem mem_of_readMany {d : Decoder ε α} {n : ℕ} {b : Bytes} {r : List α × Bytes}
    (h : (readMany d n).run b = .ok r) {x : α} (hx : x ∈ r.1) : ∃ b₁ b₂, d.run b₁ = .ok (x, b₂) := by
  induction n generalizing b r with
  | zero =>
    obtain rfl := run_pure_ok.1 h
    cases hx
  | succ n ih =>
    obtain ⟨a, b1, h0, h1⟩ := run_bind_ok.1 h
    obtain ⟨as, b2, h2, h3⟩ := run_bind_ok.1 h1
    obtain rfl := run_pure_ok.1 h3
    rcases List.mem_cons.1 hx with rfl | hx
    · exact ⟨b, b1, h0⟩
    · exact ih h2 hx

/-! ## Encoders that can fail -/

variable {φ : Type}

/-- write one value after another -/
def andThen (w w' : Except φ Bytes) : Except φ Bytes := do
  let b ← w
  let b' ← w'
  pure (b ++ b')

/-- write the items of a list in a row -/
def writeMany (w : α → Except φ Bytes) : List α → Except φ Bytes
  | [] => pure []
  | a :: as => andThen (w a) (writeMany w as)

/-- the write `w` succeeds, and `d` reads what it wrote as `a` -/
def ReadsBack (w : Except φ Bytes) (d : Decoder ε α) (a : α) : Prop := ∃ b, w = .ok b ∧ Reads d b a

theorem ReadsBack.of_codec {c : Codec ε α} {a : α} (h : c.RoundTrips a) :
    ReadsBack (.ok (c.enc a) : Except φ Bytes) c.dec a := ⟨c.enc a, rfl, h⟩

theorem ReadsBack.andThen {w w' : Except φ Bytes} {d : Decoder ε α} {f : α → Decoder ε β} {a : α} {c : β}
    (h : ReadsBack w d a) (h' : ReadsBack w' (f a) c) : ReadsBack (Wire.andThen w w') (d >>= f) c := by
  obtain ⟨b, rfl, hread⟩ := h
  obtain ⟨b', rfl, hread'⟩ := h'
  exact ⟨b ++ b', rfl, hread.bind hread'⟩

/-- the step of a decoder that reads nothing more than what `w` wrote -/
theorem ReadsBack.map {w : Except φ Bytes} {d : Decoder ε α} {f : α → Decoder ε β} {a : α} {c : β}
    (h : ReadsBack w d a) (h' : Reads (f a) [] c) : ReadsBack w (d >>= f) c := by
  obtain ⟨b, hw, hread⟩ := h
  exact ⟨b, hw, hread.map h'⟩

theorem ReadsBack.many {w : α → Except φ Bytes} {d : Decoder ε α} {as : List α}
    (h : ∀ a ∈ as, ReadsBack (w a) d a) : ReadsBack (writeMany w as) (readMany d as.length) as := by
  induction as with
  | nil => exact ⟨[], rfl, Reads.pure _⟩
  | cons a as ih =>
    have htail := ih fun x hx => h x (List.mem_cons_of_mem a hx)
    exact (h a List.mem_cons_self).andThen (htail.map (Reads.pure _))

/-- a write fails when its second part does -/
theorem andThen_ne_ok {w w' : Except φ Bytes} (h : ∀ b, w' ≠ .ok b) (b : Bytes) : andThen w w' ≠ .ok b := by
  cases w with
  | error e => exact fun heq => nomatch heq
  | ok b₁ =>
    cases w' with
    | error e => exact fun heq => nomatch heq
    | ok b₂ => exact absurd rfl (h b₂)

/-! ## Big-endian numbers -/

/-- the `n` low bytes of `v`, most significant first -/
def beBytes : ℕ → ℕ → Bytes
  | 0, _ => []
  | n + 1, v => UInt8.ofNat (v / 256 ^ n) :: beBytes n v

def beNat (b : Bytes) : ℕ := b.foldl (fun acc x => acc * 256 + x.toNat) 0

@[simp] theorem length_beBytes (n v : ℕ) : (beBytes n v).length = n := by
  induction n with
  | zero => rfl
  | succ n ih => simp [beBytes, ih]

theorem foldl_beBytes (n v acc : ℕ) :
    (beBytes n v).foldl (fun acc x => acc * 256 + x.toNat) acc = acc * 256 ^ n + v % 256 ^ n := by
  induction n generalizing acc with
  | zero => simp [beBytes, Nat.mod_one]
  | succ n ih =>
    have hdigit : (UInt8.ofNat (v / 256 ^ n)).toNat = v / 256 ^ n % 256 := by simp
    have hsplit : v % 256 ^ (n + 1) = v % 256 ^ n + 256 ^ n * (v / 256 ^ n % 256) := by
      rw [pow_succ, Nat.mod_mul]
    rw [beBytes, List.foldl_cons, ih, hdigit, hsplit]
    ring

theorem beNat_beBytes {n v : ℕ} (h : v < 256 ^ n) : beNat (beBytes n v) = v := by
  rw [beNat, foldl_beBytes, Nat.mod_eq_of_lt h]; simp

theorem beNat_concat (b : Bytes) (x : UInt8) : beNat (b ++ [x]) = beNat b * 256 + x.toNat := by simp [beNat]

theorem beBytes_concat (n v : ℕ) : beBytes (n + 1) v = beBytes n (v / 256) ++ [UInt8.ofNat v] := by
  induction n with
  | zero => simp [beBytes]
  | succ n ih =>
    have hdiv : v / 256 ^ (n + 1) = v / 256 / 256 ^ n := by rw [Nat.div_div_eq_div_mul, pow_succ']
    rw [beBytes, ih, hdiv]
    rfl

theorem beBytes_beNat (b : Bytes) : beBytes b.length (beNat b) = b := by
  induction b using List.reverseRecOn with
  | nil => rfl
  | append_singleton b x ih =>
    have hx := x.toNat_lt
    have hdiv : (beNat b * 256 + x.toNat) / 256 = beNat b := by omega
    have hlast : UInt8.ofNat (beNat b * 256 + x.toNat) = x := by
      apply UInt8.toNat_inj.1
      rw [UInt8.toNat_ofNat']
      omega
    rw [List.length_append, List.length_singleton, beNat_concat, beBytes_concat, hdiv, hlast, ih]

theorem beNat_lt (b : Bytes) : beNat b < 256 ^ b.length := by
  induction b using List.reverseRecOn with
  | nil => simp [beNat]
  | append_singleton b x ih =>
    have hx := x.toNat_lt
    rw [beNat_concat, List.length_append, List.length_singleton, pow_succ]
    omega

/-- read exactly `n` bytes, or fail with `e` -/
def readExact (e : ε) (n : ℕ) : Decoder ε Bytes := fun b =>
  if b.length < n then .error e else .ok (b.take n, b.drop n)

theorem Reads.exact (e : ε) (b : Bytes) : Reads (readExact e b.length) b b := by
  intro rest
  simp [readExact, StateT.run]

theorem length_of_readExact {e : ε} {n : ℕ} {b : Bytes} {r : Bytes × Bytes}
    (h : (readExact e n).run b = .ok r) : r.1.length = n := by
  simp only [readExact, StateT.run] at h
  split_ifs at h with hlt
  obtain rfl := Except.ok.inj h
  simp only [List.length_take]
  omega

end Wrb.Wire
