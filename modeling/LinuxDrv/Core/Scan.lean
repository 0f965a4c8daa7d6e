/-
Programs that scan a buffer.

A scan looks at the bytes of a buffer by their index. Where it looks at an index that the buffer does not have, it has
no result: what is behind the buffer need not be readable.
- `Stable`: bytes behind the buffer do not change a result. Scans that are put together of stable ones are stable.
- `sameBehind_iff`: so the result is the same for all bytes behind the buffer iff the scan has one without any.
- `simpleStrtoul`: the numeral at the begin of a buffer. `simpleStrtoul_isSome`: it is read without looking behind the
  buffer iff it ends inside.
-/
import Mathlib.Data.List.Basic
import Mathlib.Order.Nat

namespace LinuxDrv.Core

variable {α β : Type}

abbrev Buf := List UInt8

/-- the byte of a character -/
def ch (c : Char) : UInt8 := UInt8.ofNat c.toNat

/-- bytes behind the buffer do not change a result -/
def Stable (f : Buf → Option α) : Prop := ∀ b t x, f b = some x → f (b ++ t) = some x

/-- the result is the same, whatever is behind these bytes -/
def SameBehind (f : Buf → Option α) (bytes : Buf) : Prop := ∀ t t', f (bytes ++ t) = f (bytes ++ t')

theorem byte_of_lt {b : Buf} {k : ℕ} (hk : k < b.length) : ∃ c, b[k]? = some c := ⟨_, List.getElem?_eq_getElem hk⟩

/-! ## Stable scans -/

theorem Stable.const (x : Option α) : Stable fun _ => x := fun _ _ _ h => h

theorem Stable.byte (k : ℕ) : Stable fun b => b[k]? := by
  intro b t x h
  obtain ⟨hk, -⟩ := List.getElem?_eq_some_iff.1 h
  dsimp only
  rw [List.getElem?_append_left hk]
  exact h

theorem Stable.bind {f : Buf → Option α} {g : α → Buf → Option β} (hf : Stable f) (hg : ∀ x, Stable (g x)) :
    Stable fun b => (f b).bind fun x => g x b := by
  intro b t y h
  obtain ⟨x, hx, hy⟩ := Option.bind_eq_some_iff.1 h
  have hfx : f (b ++ t) = some x := hf b t x hx
  dsimp only
  rw [hfx, Option.bind_some]
  exact hg x b t y hy

theorem Stable.ite {c : Prop} [Decidable c] {f g : Buf → Option α} (hf : Stable f) (hg : Stable g) :
    Stable fun b => if c then f b else g b := by
  by_cases hc : c
  · simpa only [if_pos hc] using hf
  · simpa only [if_neg hc] using hg

/-- a scan of what is behind the first k bytes -/
theorem Stable.drop {f : Buf → Option α} (hf : Stable f) (k : ℕ) : Stable fun b => f (b.drop k) := by
  intro b t x h
  dsimp only at h ⊢
  rw [List.drop_append]
  exact hf _ _ x h

/-- a stable scan that some bytes behind the buffer would complete has the same result for all iff it needs none -/
theorem sameBehind_iff {f : Buf → Option α} (hf : Stable f) {bytes : Buf} (hsome : ∃ t, (f (bytes ++ t)).isSome) :
    SameBehind f bytes ↔ (f bytes).isSome := by
  constructor
  · intro h
    obtain ⟨t, ht⟩ := hsome
    rw [h t [], List.append_nil] at ht
    exact ht
  · intro h t t'
    obtain ⟨x, hx⟩ := Option.isSome_iff_exists.1 h
    rw [hf bytes t x hx, hf bytes t' x hx]

/-! ## Numerals -/

/-- `TOLOWER` of a letter -/
def toLower (c : UInt8) : UInt8 := c ||| 0x20

/-- the value of a hexadecimal digit -/
def digitVal (c : UInt8) : Option ℕ :=
  if ch '0' ≤ c ∧ c ≤ ch '9' then some (c - ch '0').toNat
  else if ch 'a' ≤ toLower c ∧ toLower c ≤ ch 'f' then some ((toLower c - ch 'a').toNat + 10)
  else none

/-- the value of a digit of a base -/
def digitOf (base : ℕ) (c : UInt8) : Option ℕ := (digitVal c).filter fun v => decide (v < base)

/-- the digits of a numeral, up to a byte that is none -/
def parseDigits (base : ℕ) : ℕ → Buf → Option ℕ
  | _, [] => none
  | n, c :: cs =>
    match digitOf base c with
    | none => some n
    | some v => parseDigits base (n * base + v) cs

/-- `simple_guess_base` -/
def guessBase (b : Buf) : Option ℕ :=
  b[0]?.bind fun c =>
    if c ≠ ch '0' then some 10
    else b[1]?.bind fun x =>
      if toLower x ≠ ch 'x' then some 8
      else b[2]?.bind fun d => if (digitVal d).isSome then some 16 else some 8

/-- what is in front of the digits -/
def prefixLen (base : ℕ) : ℕ := if base = 16 then 2 else 0

/-- `simple_strtoul` with base 0; the number is not cut to a machine word -/
def simpleStrtoul (b : Buf) : Option ℕ :=
  (guessBase b).bind fun base => parseDigits base 0 (b.drop (prefixLen base))

/-- the base can be told from the bytes, and one of them is no digit of it -/
def NumeralEnds (b : Buf) : Prop := ∃ base ∈ guessBase b, ∃ c ∈ b.drop (prefixLen base), digitOf base c = none

instance (b : Buf) : Decidable (NumeralEnds b) := inferInstanceAs (Decidable (∃ base ∈ guessBase b, _))

theorem parseDigits_isSome (base : ℕ) : ∀ n b, (parseDigits base n b).isSome ↔ ∃ c ∈ b, digitOf base c = none := by
  intro n b
  induction b generalizing n with
  | nil => simp [parseDigits]
  | cons c cs ih =>
    rw [parseDigits]
    rcases hc : digitOf base c with _ | v
    · exact iff_of_true rfl ⟨c, List.mem_cons_self, hc⟩
    · rw [ih]
      simp [hc]

theorem Stable.parseDigits (base n : ℕ) : Stable (parseDigits base n) := by
  intro b t x h
  induction b generalizing n with
  | nil => cases h
  | cons c cs ih =>
    rw [List.cons_append]
    rw [Core.parseDigits] at h ⊢
    rcases hc : digitOf base c with _ | v
    · rw [hc] at h
      exact h
    · rw [hc] at h
      exact ih _ h

theorem Stable.guessBase : Stable guessBase :=
  (Stable.byte 0).bind fun _ => (Stable.const _).ite
    ((Stable.byte 1).bind fun _ => (Stable.const _).ite
      ((Stable.byte 2).bind fun _ => (Stable.const _).ite (Stable.const _)))

theorem Stable.simpleStrtoul : Stable simpleStrtoul :=
  Stable.guessBase.bind fun base => (Stable.parseDigits base 0).drop (prefixLen base)

theorem simpleStrtoul_isSome (b : Buf) : (simpleStrtoul b).isSome ↔ NumeralEnds b := by
  unfold simpleStrtoul NumeralEnds
  rcases guessBase b with _ | base
  · simp
  · rw [Option.bind_some, parseDigits_isSome]
    simp

/-- a numeral ends before three zero bytes -/
theorem numeralEnds_zeros (b : Buf) : NumeralEnds (b ++ [0, 0, 0]) := by
  have hbyte : ∀ k < 3, ∃ c, (b ++ [0, 0, 0])[k]? = some c := by
    intro k hk
    exact byte_of_lt (by rw [List.length_append]; exact Nat.lt_add_left _ hk)
  obtain ⟨c, hc⟩ := hbyte 0 (by decide)
  obtain ⟨x, hx⟩ := hbyte 1 (by decide)
  obtain ⟨d, hd⟩ := hbyte 2 (by decide)
  have hbase : ∃ base, guessBase (b ++ [0, 0, 0]) = some base := by
    unfold guessBase
    rw [hc, hx, hd]
    simp only [Option.bind_some]
    split_ifs <;> exact ⟨_, rfl⟩
  obtain ⟨base, hbase⟩ := hbase
  have hlast : (0 : UInt8) ∈ (b ++ [0, 0, 0]).drop (prefixLen base) := by
    have hlen : prefixLen base ≤ 2 := by
      unfold prefixLen
      split_ifs
      · exact Nat.le_refl 2
      · exact Nat.zero_le 2
    have htail : List.drop 2 (b ++ [0, 0]) ++ [0] <:+ (b ++ [0, 0, 0]).drop (prefixLen base) := by
      have hsplit : b ++ [0, 0, 0] = (b ++ [0, 0]) ++ [0] := by simp
      rw [hsplit, ← List.drop_append_of_le_length (by simp)]
      exact List.drop_suffix_drop_left _ hlen
    exact htail.subset (List.mem_append_right _ (List.mem_singleton_self 0))
  refine ⟨base, hbase, 0, hlast, ?_⟩
  have hnone : digitVal 0 = none := by decide
  rw [digitOf, hnone]
  rfl

end LinuxDrv.Core
