/-
Memory as a function from offsets to cells, and loops that copy it in units of two cells.

A unit is read before it is written. `copyUnits` copies n units one after the other; `copyUnits_apply` says what every
cell holds afterwards, whether it is in the range that was copied to or not.
-/
import Mathlib.Tactic

namespace LinuxDrv.Core

variable {β : Type}

/-- the two cells at `s` of `src` are copied to `d` -/
def put2 (src : ℤ → β) (s d : ℤ) (dst : ℤ → β) : ℤ → β :=
  Function.update (Function.update dst d (src s)) (d + 1) (src (s + 1))

theorem put2_apply (src dst : ℤ → β) (s d k : ℤ) :
    put2 src s d dst k = if d ≤ k ∧ k < d + 2 then src (s + (k - d)) else dst k := by
  unfold put2
  by_cases h1 : k = d + 1
  · subst h1
    rw [Function.update_self, if_pos ⟨by omega, by omega⟩]
    congr 1
    omega
  rw [Function.update_of_ne h1]
  by_cases h0 : k = d
  · subst h0
    rw [Function.update_self, if_pos ⟨by omega, by omega⟩]
    congr 1
    omega
  · rw [Function.update_of_ne h0, if_neg (by omega)]

/-- `n` units at `s` of `src` are copied to `d` -/
def copyUnits (src : ℤ → β) (s d : ℤ) (n : ℕ) (dst : ℤ → β) : ℤ → β :=
  (List.range n).foldl (fun b (j : ℕ) => put2 src (s + 2 * j) (d + 2 * j) b) dst

/-- after the loop the cells of the range hold the cells of the source, the others what they held -/
theorem copyUnits_apply (src dst : ℤ → β) (s d : ℤ) (n : ℕ) (k : ℤ) :
    copyUnits src s d n dst k = if d ≤ k ∧ k < d + 2 * n then src (s + (k - d)) else dst k := by
  induction n with
  | zero => exact (if_neg (by omega)).symm
  | succ n ih =>
    have hstep : copyUnits src s d (n + 1) dst = put2 src (s + 2 * n) (d + 2 * n) (copyUnits src s d n dst) := by
      rw [copyUnits, List.range_succ, List.foldl_append]
      rfl
    rw [hstep, put2_apply, ih]
    by_cases hlast : d + 2 * (n : ℤ) ≤ k ∧ k < d + 2 * n + 2
    · rw [if_pos hlast, if_pos (by push_cast; omega)]
      congr 1
      omega
    · rw [if_neg hlast]
      by_cases hold : d ≤ k ∧ k < d + 2 * (n : ℤ)
      · rw [if_pos hold, if_pos (by push_cast; omega)]
      · rw [if_neg hold, if_neg (by push_cast; omega)]

end LinuxDrv.Core
