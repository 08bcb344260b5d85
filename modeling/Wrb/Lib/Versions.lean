/-
Tables that keep every version of an entry: an entry has a key and a version, and a read at version `n` answers with the
newest entry of its key up to `n`.

`Newest`: the entry a read finds. It exists as soon as any entry does (`exists_newest`), it is the only one where a key
has one entry for each version (`Newest.unique`), and it depends on nothing but the entries of its key up to `n`
(`newest_congr`): entries of later versions are not seen.
`Reads`: what a read answers. The same where the table agrees up to `n` (`Reads.congr`), the value of an entry that is
the newest of its key (`Reads.of_mem`).
-/
import Mathlib.Tactic

namespace Wrb.Versions

variable {ε κ ν α : Type} [LinearOrder ν] (ver : ε → ν) (key : ε → κ)

/-- `x` is the newest entry of `k` in `l` up to version `n` -/
structure Newest (l : List ε) (n : ν) (k : κ) (x : ε) : Prop where
  mem : x ∈ l
  key_eq : key x = k
  le : ver x ≤ n
  max : ∀ y ∈ l, key y = k → ver y ≤ n → ver y ≤ ver x

/-- a key has at most one entry for each version -/
def OnePer (l : List ε) : Prop := ∀ x ∈ l, ∀ y ∈ l, key x = key y → ver x = ver y → x = y

variable {ver key} {l l' : List ε} {n n' : ν} {k : κ} {x y : ε}

theorem Newest.unique (hl : OnePer ver key l) (hx : Newest ver key l n k x) (hy : Newest ver key l n k y) : x = y :=
  hl x hx.mem y hy.mem (hx.key_eq.trans hy.key_eq.symm)
    (le_antisymm (hy.max x hx.mem hx.key_eq hx.le) (hx.max y hy.mem hy.key_eq hy.le))

theorem exists_newest (hx : x ∈ l) (hkey : key x = k) (hle : ver x ≤ n) : ∃ y, Newest ver key l n k y := by
  classical
  have hmem : x ∈ l.filter fun z => key z = k ∧ ver z ≤ n := by
    rw [List.mem_filter]
    exact ⟨hx, by simp [hkey, hle]⟩
  obtain ⟨y, hy, hmax⟩ := (l.filter fun z => key z = k ∧ ver z ≤ n).toFinset.exists_max_image ver
    ⟨x, List.mem_toFinset.2 hmem⟩
  rw [List.mem_toFinset, List.mem_filter, decide_eq_true_iff] at hy
  refine ⟨y, hy.1, hy.2.1, hy.2.2, ?_⟩
  intro z hz hk hn
  exact hmax z (by rw [List.mem_toFinset, List.mem_filter]; exact ⟨hz, by simp [hk, hn]⟩)

/-- a read at version `n` sees only the entries of its key up to `n` -/
theorem newest_congr (h : ∀ z, key z = k → ver z ≤ n → (z ∈ l ↔ z ∈ l')) :
    Newest ver key l n k x ↔ Newest ver key l' n k x := by
  constructor
  · intro hx
    refine ⟨(h x hx.key_eq hx.le).1 hx.mem, hx.key_eq, hx.le, ?_⟩
    intro z hz hk hn
    exact hx.max z ((h z hk hn).2 hz) hk hn
  · intro hx
    refine ⟨(h x hx.key_eq hx.le).2 hx.mem, hx.key_eq, hx.le, ?_⟩
    intro z hz hk hn
    exact hx.max z ((h z hk hn).1 hz) hk hn

/-- where the key has no entry above `n`, a read at a later version finds the same -/
theorem newest_of_le (hn : n ≤ n') (h : ∀ z ∈ l, key z = k → ver z ≤ n) :
    Newest ver key l n' k x ↔ Newest ver key l n k x := by
  constructor
  · intro hx
    exact ⟨hx.mem, hx.key_eq, h x hx.mem hx.key_eq, fun z hz hk hz' => hx.max z hz hk (hz'.trans hn)⟩
  · intro hx
    exact ⟨hx.mem, hx.key_eq, hx.le.trans hn, fun z hz hk _ => hx.max z hz hk (h z hz hk)⟩

/-! ## What a read answers -/

variable (ver key) in
/-- reading `k` at version `n` answers `v`, whichever of its newest entries is found -/
structure Reads (val : ε → Option α) (l : List ε) (n : ν) (k : κ) (v : Option α) : Prop where
  newest : ∀ x, Newest ver key l n k x → val x = v
  none : (∀ x ∈ l, key x = k → n < ver x) → v = none

variable {val : ε → Option α} {v : Option α}

theorem exists_reads (val : ε → Option α) (hl : OnePer ver key l) (n : ν) (k : κ) : ∃ v, Reads ver key val l n k v := by
  by_cases h : ∃ x, Newest ver key l n k x
  · obtain ⟨x, hx⟩ := h
    refine ⟨val x, fun y hy => by rw [hy.unique hl hx], ?_⟩
    intro habove
    exact absurd hx.le (not_le.2 (habove x hx.mem hx.key_eq))
  · exact ⟨.none, fun x hx => absurd ⟨x, hx⟩ h, fun _ => rfl⟩

/-- the answer is the same where the values and the entries of the key up to `n` are -/
theorem Reads.congr {val' : ε → Option α} (h : Reads ver key val l n k v)
    (hl : ∀ z, key z = k → ver z ≤ n → (z ∈ l ↔ z ∈ l')) (hval : ∀ z ∈ l, ver z ≤ n → val' z = val z) :
    Reads ver key val' l' n k v where
  newest x hx := by
    have hx' := (newest_congr hl).2 hx
    rw [hval x hx'.mem hx'.le]
    exact h.newest x hx'
  none habove := by
    refine h.none ?_
    intro x hx hkey
    by_contra hlt
    exact hlt (habove x ((hl x hkey (not_lt.1 hlt)).1 hx) hkey)

/-- two versions answer the same where the key has no entry above the lower one -/
theorem Reads.of_le (hn : n ≤ n') (hl : ∀ z ∈ l, key z = k → ver z ≤ n) :
    Reads ver key val l n' k v ↔ Reads ver key val l n k v := by
  have hnone : (∀ x ∈ l, key x = k → n < ver x) ↔ ∀ x ∈ l, key x = k → n' < ver x := by
    constructor
    · intro h x hx hk
      exact absurd (hl x hx hk) (not_le.2 (h x hx hk))
    · intro h x hx hk
      exact hn.trans_lt (h x hx hk)
  constructor
  · intro h
    exact ⟨fun x hx => h.newest x ((newest_of_le hn hl).2 hx), fun habove => h.none (hnone.1 habove)⟩
  · intro h
    exact ⟨fun x hx => h.newest x ((newest_of_le hn hl).1 hx), fun habove => h.none (hnone.2 habove)⟩

/-- **A new newest entry of the key is what the read answers.** -/
theorem Reads.of_mem (hx : x ∈ l) (hle : ver x ≤ n) (htop : ∀ z ∈ l, key z = key x → ver z ≤ ver x)
    (hone : ∀ z ∈ l, key z = key x → ver z = ver x → z = x) : Reads ver key val l n (key x) (val x) where
  newest y hy := by
    have hver : ver y = ver x := le_antisymm (htop y hy.mem hy.key_eq) (hy.max x hx rfl hle)
    rw [hone y hy.mem hy.key_eq hver]
  none habove := absurd (habove x hx rfl) (not_lt.2 hle)

/-- changing entries in what neither version, key nor value depends on changes no answer -/
theorem Reads.map {f : ε → ε} (hver : ∀ z, ver (f z) = ver z) (hkey : ∀ z, key (f z) = key z)
    (hval : ∀ z, val (f z) = val z) (h : Reads ver key val l n k v) : Reads ver key val (l.map f) n k v where
  newest x hx := by
    obtain ⟨z, hz, rfl⟩ := List.mem_map.1 hx.mem
    rw [hval]
    refine h.newest z ⟨hz, (hkey z).symm.trans hx.key_eq, (hver z).symm.trans_le hx.le, ?_⟩
    intro y hy hk hn
    have hmax := hx.max (f y) (List.mem_map_of_mem hy) ((hkey y).trans hk) ((hver y).trans_le hn)
    rwa [hver, hver] at hmax
  none habove := by
    refine h.none ?_
    intro z hz hk
    have hlt := habove (f z) (List.mem_map_of_mem hz) ((hkey z).trans hk)
    rwa [hver] at hlt

end Wrb.Versions
