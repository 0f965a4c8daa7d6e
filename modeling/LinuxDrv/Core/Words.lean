/-
Words in a memory of bytes.

Addresses have a bits and wrap; a word of n bytes is kept in the n bytes from its address on, the most significant byte
first or last. Two rules are all that a program needs that keeps its variables apart: `ld_st` reads back what was
written, and `ld_st_apart` reads a word that does not overlap the one that was written.
-/
import Mathlib.Data.BitVec
import Mathlib.Data.Nat.Bitwise
import Mathlib.Tactic

namespace LinuxDrv.Core

variable {a : ℕ}

/-- the bytes at all addresses -/
abbrev Bytes (a : ℕ) := BitVec a → BitVec 8

namespace Bytes

/-- the place in a word of n bytes of the one at offset k -/
def place (big : Bool) (n k : ℕ) : ℕ := if big then n - 1 - k else k

/-- the word of n bytes at an address -/
def ld (big : Bool) (n : ℕ) (m : Bytes a) (p : BitVec a) : BitVec (8 * n) :=
  BitVec.ofNat _ (Nat.ofBits fun i : Fin (8 * n) => (m (p + BitVec.ofNat a (place big n (i / 8)))).getLsbD (i % 8))

/-- a word of n bytes is written to an address -/
def st (big : Bool) (n : ℕ) (m : Bytes a) (p : BitVec a) (v : BitVec (8 * n)) : Bytes a := fun x =>
  if (x - p).toNat < n then v.extractLsb' (8 * place big n (x - p).toNat) 8 else m x

variable {big : Bool} {n k : ℕ} {m : Bytes a} {p q : BitVec a}

theorem place_lt (h : k < n) : place big n k < n := by
  unfold place
  split_ifs <;> omega

theorem place_place (h : k < n) : place big n (place big n k) = k := by
  unfold place
  split_ifs <;> omega

/-- the distance of a byte from the address of its word -/
theorem offset_toNat (p : BitVec a) (hk : k < 2 ^ a) : (p + BitVec.ofNat a k - p).toNat = k := by
  rw [BitVec.add_comm, BitVec.add_sub_cancel, BitVec.toNat_ofNat, Nat.mod_eq_of_lt hk]

/-- the bits of a word are those of its bytes -/
theorem ld_getLsbD {i : ℕ} (hi : i < 8 * n) :
    (ld big n m p).getLsbD i = (m (p + BitVec.ofNat a (place big n (i / 8)))).getLsbD (i % 8) := by
  rw [ld, BitVec.getLsbD_ofNat, decide_eq_true hi, Bool.true_and, Nat.testBit_ofBits_lt _ _ hi]

/-- a word that was written is read back -/
theorem ld_st (hn : n ≤ 2 ^ a) (v : BitVec (8 * n)) : ld big n (st big n m p v) p = v := by
  apply BitVec.eq_of_getLsbD_eq
  intro i hi
  have hk : i / 8 < n := by omega
  have hplace : place big n (i / 8) < n := place_lt hk
  have hdist := offset_toNat p (hplace.trans_le hn)
  have hbit : 8 * (i / 8) + i % 8 = i := Nat.div_add_mod i 8
  rw [ld_getLsbD hi]
  simp only [st, hdist, hplace, ↓reduceIte, place_place hk, BitVec.getLsbD_extractLsb', hbit]
  simp [Nat.mod_lt]

/-- two words that have no byte in common -/
def Apart (p : BitVec a) (n : ℕ) (q : BitVec a) (k : ℕ) : Prop :=
  ∀ j < n, ¬ (p + BitVec.ofNat a j - q).toNat < k

/-- a word that does not overlap the one that was written is as it was -/
theorem ld_st_apart (h : Apart p n q k) (v : BitVec (8 * k)) : ld big n (st big k m q v) p = ld big n m p := by
  apply BitVec.eq_of_getLsbD_eq
  intro i hi
  have hk : i / 8 < n := by omega
  have hout := h (place big n (i / 8)) (place_lt hk)
  rw [ld_getLsbD hi, ld_getLsbD hi]
  simp only [st, hout, ↓reduceIte]

/-- a word at an offset from another one: the first ends before the second begins, and the second before they wrap -/
theorem apart_offset {off : ℕ} (hn : n ≤ off) (hk : off + k ≤ 2 ^ a) : Apart p n (p + BitVec.ofNat a off) k := by
  intro j hj
  have hoff : off < 2 ^ a ∨ k = 0 := by omega
  rcases hoff with hoff | rfl
  · have hsub : p + BitVec.ofNat a j - (p + BitVec.ofNat a off) = BitVec.ofNat a j - BitVec.ofNat a off :=
      add_sub_add_left_eq_sub _ _ p
    rw [hsub, BitVec.toNat_sub, BitVec.toNat_ofNat, BitVec.toNat_ofNat, Nat.mod_eq_of_lt hoff,
      Nat.mod_eq_of_lt (show j < 2 ^ a by omega), Nat.mod_eq_of_lt (by omega)]
    omega
  · simp

end Bytes

end LinuxDrv.Core
