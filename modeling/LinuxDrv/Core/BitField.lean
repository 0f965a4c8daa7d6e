/-
Fields of bits in a word.

`Bits` is a range of bit positions. `get` reads the bits of a range, `put` writes them and leaves the others. Fields
with widths are given ranges in two ways: one after the other from the lowest bit up, or from the highest bit down.
- `get_put_self`, `get_put_of_disjoint`, `getLsbD_put_of_notMem`: reads after a write.
- `allocLow_reverse`: from the lowest bit up in the reverse order is from the highest bit down in the order.
- `allocHigh_pairwise`: the ranges go down and do not overlap.
-/
import Mathlib.Data.BitVec
import Mathlib.Data.List.Pairwise
import Mathlib.Algebra.Order.Ring.Int
import Mathlib.Algebra.BigOperators.Group.List.Basic

namespace LinuxDrv.Core

/-- a range of bits -/
structure Bits where
  lsb : ℕ
  width : ℕ
deriving DecidableEq

namespace Bits

variable {n : ℕ}

/-- the bit is in the range -/
def Has (b : Bits) (j : ℕ) : Prop := b.lsb ≤ j ∧ j < b.lsb + b.width

instance (b : Bits) (j : ℕ) : Decidable (b.Has j) := inferInstanceAs (Decidable (_ ∧ _))

/-- c is below b -/
def Above (b c : Bits) : Prop := c.lsb + c.width ≤ b.lsb

theorem Above.not_has {b c : Bits} (h : b.Above c) {j : ℕ} (hb : b.Has j) : ¬ c.Has j := by
  intro hc
  have hlt := hc.2
  have hle := hb.1
  unfold Above at h
  omega

/-- no bit is in both ranges -/
def Disjoint (b c : Bits) : Prop := ∀ j, b.Has j → ¬ c.Has j

theorem Above.disjoint {b c : Bits} (h : b.Above c) : b.Disjoint c := fun _ hb => h.not_has hb

instance {α : Type} : Std.Symm fun p q : α × Bits => p.2.Disjoint q.2 := ⟨fun _ _ h j hq hp => h j hp hq⟩

/-- the value of the bits of the range -/
def get (b : Bits) (v : BitVec n) : ℕ := (v.extractLsb' b.lsb b.width).toNat

/-- the bits of the range are written with the low bits of x -/
def put (b : Bits) (x : ℤ) (v : BitVec n) : BitVec n :=
  let mask : BitVec n := (BitVec.allOnes b.width).setWidth n <<< b.lsb
  (v &&& ~~~mask) ||| (BitVec.ofInt n x <<< b.lsb &&& mask)

variable {b c : Bits} {v : BitVec n} {x : ℤ} {j : ℕ}

theorem getLsbD_put (b : Bits) (x : ℤ) (v : BitVec n) (j : ℕ) : (b.put x v).getLsbD j =
    if j < n ∧ b.Has j then (BitVec.ofInt n x).getLsbD (j - b.lsb) else v.getLsbD j := by
  unfold put Has
  by_cases hn : j < n
  · by_cases hlo : b.lsb ≤ j
    · by_cases hhi : j < b.lsb + b.width
      · have hbit : j - b.lsb < b.width := by omega
        have hbit' : j - b.lsb < n := by omega
        simp [hn, hlo, hhi, hbit, hbit', not_lt.2 hlo]
      · have hbit : ¬ j - b.lsb < b.width := by omega
        simp [hn, hlo, hhi, hbit]
    · simp [hn, hlo, not_le.1 hlo]
  · simp [hn, BitVec.getLsbD_of_ge _ _ (not_lt.1 hn)]

/-- the other bits stay -/
theorem getLsbD_put_of_not_has (hj : ¬ b.Has j) : (b.put x v).getLsbD j = v.getLsbD j := by
  rw [getLsbD_put, if_neg (fun h => hj h.2)]

/-- a range that is written is read back, modulo its size -/
theorem get_put_self (hb : b.lsb + b.width ≤ n) : ((b.get (b.put x v) : ℕ) : ℤ) = x % 2 ^ b.width := by
  have hext : (b.put x v).extractLsb' b.lsb b.width = (BitVec.ofInt n x).setWidth b.width := by
    apply BitVec.eq_of_getLsbD_eq
    intro i hi
    rw [BitVec.getLsbD_extractLsb', getLsbD_put, if_pos ⟨by omega, by omega, by omega⟩, Nat.add_sub_cancel_left,
      BitVec.getLsbD_setWidth]
  have hpos : (0 : ℤ) < 2 ^ n := pow_pos (by decide) n
  rw [get, hext, BitVec.toNat_setWidth, BitVec.toNat_ofInt]
  push_cast
  rw [Int.toNat_of_nonneg (Int.emod_nonneg _ hpos.ne')]
  exact Int.emod_emod_of_dvd x (pow_dvd_pow 2 (by omega))

/-- a range that is not written reads as before -/
theorem get_put_of_disjoint (h : c.Disjoint b) : c.get (b.put x v) = c.get v := by
  have hext : (b.put x v).extractLsb' c.lsb c.width = v.extractLsb' c.lsb c.width := by
    apply BitVec.eq_of_getLsbD_eq
    intro i hi
    rw [BitVec.getLsbD_extractLsb', BitVec.getLsbD_extractLsb', getLsbD_put_of_not_has]
    exact h (c.lsb + i) ⟨by omega, by omega⟩
  rw [get, get, hext]

end Bits

/-! ## Allocation -/

section Alloc

variable {α : Type} (width : α → ℕ)

/-- the fields are given ranges from bit `lsb` up -/
def allocLow : ℕ → List α → List (α × Bits)
  | _, [] => []
  | lsb, f :: fs => (f, ⟨lsb, width f⟩) :: allocLow (lsb + width f) fs

/-- the fields are given ranges from below bit `top` down -/
def allocHigh : ℕ → List α → List (α × Bits)
  | _, [] => []
  | top, f :: fs => (f, ⟨top - width f, width f⟩) :: allocHigh (top - width f) fs

/-- how many bits the fields have -/
def widthSum (fs : List α) : ℕ := (fs.map width).sum

variable {width}

theorem widthSum_cons (f : α) (fs : List α) : widthSum width (f :: fs) = width f + widthSum width fs := List.sum_cons

theorem widthSum_reverse (fs : List α) : widthSum width fs.reverse = widthSum width fs := by
  rw [widthSum, List.map_reverse, List.sum_reverse, widthSum]

theorem allocLow_append (fs gs : List α) (lsb : ℕ) :
    allocLow width lsb (fs ++ gs) = allocLow width lsb fs ++ allocLow width (lsb + widthSum width fs) gs := by
  induction fs generalizing lsb with
  | nil => rfl
  | cons f fs ih => simp only [List.cons_append, allocLow, ih, widthSum_cons, Nat.add_assoc]

/-- the two ways agree, if the order is reversed -/
theorem allocLow_reverse (fs : List α) (lsb : ℕ) :
    allocLow width lsb fs.reverse = (allocHigh width (lsb + widthSum width fs) fs).reverse := by
  induction fs with
  | nil => rfl
  | cons f fs ih =>
    have htop : lsb + widthSum width (f :: fs) - width f = lsb + widthSum width fs := by
      rw [widthSum_cons]
      omega
    calc allocLow width lsb (f :: fs).reverse
        = allocLow width lsb fs.reverse ++ allocLow width (lsb + widthSum width fs) [f] := by
          rw [List.reverse_cons, allocLow_append, widthSum_reverse]
      _ = (allocHigh width (lsb + widthSum width fs) fs).reverse ++ [(f, ⟨lsb + widthSum width fs, width f⟩)] := by
          rw [ih]
          rfl
      _ = (allocHigh width (lsb + widthSum width (f :: fs)) (f :: fs)).reverse := by
          rw [allocHigh, htop, List.reverse_cons]

theorem allocHigh_fst (fs : List α) (top : ℕ) : (allocHigh width top fs).map Prod.fst = fs := by
  induction fs generalizing top with
  | nil => rfl
  | cons f fs ih => rw [allocHigh, List.map_cons, ih]

theorem allocHigh_width {fs : List α} {top : ℕ} {p : α × Bits} (hp : p ∈ allocHigh width top fs) :
    p.2.width = width p.1 := by
  induction fs generalizing top with
  | nil => exact absurd hp List.not_mem_nil
  | cons f fs ih =>
    rcases List.mem_cons.1 hp with rfl | hp
    · rfl
    · exact ih hp

/-- no range reaches above `top`, if the fields fit below it -/
theorem allocHigh_le {fs : List α} {top : ℕ} (hfit : widthSum width fs ≤ top) {p : α × Bits}
    (hp : p ∈ allocHigh width top fs) : p.2.lsb + p.2.width ≤ top := by
  induction fs generalizing top with
  | nil => exact absurd hp List.not_mem_nil
  | cons f fs ih =>
    rw [widthSum_cons] at hfit
    rcases List.mem_cons.1 hp with rfl | hp
    · dsimp only
      omega
    · exact (ih (by omega) hp).trans (Nat.sub_le _ _)

/-- the ranges go down -/
theorem allocHigh_pairwise {fs : List α} {top : ℕ} (hfit : widthSum width fs ≤ top) :
    (allocHigh width top fs).Pairwise fun p q => p.2.Above q.2 := by
  induction fs generalizing top with
  | nil => exact List.Pairwise.nil
  | cons f fs ih =>
    rw [widthSum_cons] at hfit
    have hrest : widthSum width fs ≤ top - width f := by omega
    rw [allocHigh, List.pairwise_cons]
    exact ⟨fun q hq => allocHigh_le hrest hq, ih hrest⟩

end Alloc

end LinuxDrv.Core
