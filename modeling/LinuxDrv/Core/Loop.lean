/-
Loops that need not end, and the signed integers of C.

A loop is run with fuel: `whileLoop stuck c body n s` makes n rounds at most, and ends in the fault `stuck` if the
condition still holds then. `Returns f t` says that f returns t with every fuel from some amount on, so it is the
statement that the program ends. More fuel never changes what a loop returned (`whileLoop_mono`).
- `returns_whileLoop`: a loop with an invariant and a variant returns, in a state with the invariant in which the
  condition fails.
- `Returns.bind`: a program returns if its parts do.
- `returns_doWhile_once`: a loop that tests its condition last, and whose first round makes it fail.

The values of a signed type of w bits are the integers that fit. A conversion to the type wraps (`conv`), an operation
whose result is no value of the type is a fault (`checked`).
-/
import LinuxDrv.Core.Outcome
import Mathlib.Algebra.Order.Ring.Int
import Mathlib.Tactic.Ring

namespace LinuxDrv.Core

variable {σ τ φ : Type}

/-! ## Fuel -/

/-- with enough fuel, f returns t -/
def Returns (f : ℕ → Except φ σ) (t : σ) : Prop := ∃ n, ∀ m, n ≤ m → f m = .ok t

theorem Returns.ok (t : σ) : Returns (fun _ => (.ok t : Except φ σ)) t := ⟨0, fun _ _ => rfl⟩

/-- what a program returns does not depend on the fuel -/
theorem Returns.unique {f : ℕ → Except φ σ} {t u : σ} (ht : Returns f t) (hu : Returns f u) : t = u := by
  obtain ⟨n, hn⟩ := ht
  obtain ⟨m, hm⟩ := hu
  have h : (.ok t : Except φ σ) = .ok u := by rw [← hn (max n m) (le_max_left n m), hm (max n m) (le_max_right n m)]
  exact Except.ok.inj h

theorem Returns.bind {f : ℕ → Except φ σ} {g : σ → ℕ → Except φ τ} {t : σ} {u : τ} (hf : Returns f t)
    (hg : Returns (g t) u) : Returns (fun n => f n >>= fun s => g s n) u := by
  obtain ⟨n, hn⟩ := hf
  obtain ⟨m, hm⟩ := hg
  refine ⟨max n m, fun k hk => ?_⟩
  dsimp only
  rw [hn k (le_trans (le_max_left n m) hk), ok_bind]
  exact hm k (le_trans (le_max_right n m) hk)

/-! ## While -/

section While

variable (stuck : φ) (c : σ → Bool) (body : σ → Except φ σ)

/-- `while (c) body`, n rounds at most -/
def whileLoop : ℕ → σ → Except φ σ
  | 0, s => if c s then .error stuck else .ok s
  | n + 1, s => if c s then body s >>= whileLoop n else .ok s

/-- `do body while (c)` -/
def doWhile (n : ℕ) (s : σ) : Except φ σ := body s >>= whileLoop stuck c body n

variable {stuck c body}

theorem whileLoop_done {s : σ} (hs : c s = false) (n : ℕ) : whileLoop stuck c body n s = .ok s := by
  cases n <;> simp [whileLoop, hs]

theorem whileLoop_round {s t : σ} (hs : c s = true) (ht : body s = .ok t) (n : ℕ) :
    whileLoop stuck c body (n + 1) s = whileLoop stuck c body n t := by
  rw [whileLoop, if_pos hs, ht, ok_bind]

/-- what a loop returned, it returns with more fuel -/
theorem whileLoop_mono {n : ℕ} {s t : σ} (h : whileLoop stuck c body n s = .ok t) {m : ℕ} (hm : n ≤ m) :
    whileLoop stuck c body m s = .ok t := by
  induction n generalizing s m with
  | zero =>
    rcases hs : c s with _ | _
    · rw [whileLoop_done hs] at h ⊢
      exact h
    · simp [whileLoop, hs] at h
  | succ n ih =>
    rcases hs : c s with _ | _
    · rw [whileLoop_done hs] at h ⊢
      exact h
    · obtain ⟨k, rfl⟩ : ∃ k, m = k + 1 := ⟨m - 1, by omega⟩
      rw [whileLoop, if_pos hs] at h
      obtain ⟨u, hu, ht⟩ := bind_eq_ok h
      rw [whileLoop_round hs hu]
      exact ih ht (by omega)

/-- the rule of a loop: its body returns, keeps I, and makes v smaller -/
theorem returns_whileLoop {I : σ → Prop} (v : σ → ℕ)
    (hbody : ∀ s, I s → c s = true → ∃ t, body s = .ok t ∧ I t ∧ v t < v s) {s : σ} (hs : I s) :
    ∃ t, Returns (fun n => whileLoop stuck c body n s) t ∧ I t ∧ c t = false := by
  suffices hgen : ∀ n s, I s → v s ≤ n → ∃ t, whileLoop stuck c body n s = .ok t ∧ I t ∧ c t = false by
    obtain ⟨t, ht, hIt, hct⟩ := hgen (v s) s hs le_rfl
    exact ⟨t, ⟨v s, fun m hm => whileLoop_mono ht hm⟩, hIt, hct⟩
  intro n
  induction n with
  | zero =>
    intro s hs hv
    rcases hc : c s with _ | _
    · exact ⟨s, whileLoop_done hc 0, hs, hc⟩
    · obtain ⟨t, -, -, hlt⟩ := hbody s hs hc
      omega
  | succ n ih =>
    intro s hs hv
    rcases hc : c s with _ | _
    · exact ⟨s, whileLoop_done hc (n + 1), hs, hc⟩
    · obtain ⟨t, ht, hIt, hlt⟩ := hbody s hs hc
      obtain ⟨u, hu, hIu, hcu⟩ := ih t hIt (by omega)
      exact ⟨u, by rw [whileLoop_round hc ht, hu], hIu, hcu⟩

theorem returns_doWhile_once {s t : σ} (ht : body s = .ok t) (hc : c t = false) :
    Returns (fun n => doWhile stuck c body n s) t := by
  refine ⟨0, fun m _ => ?_⟩
  dsimp only
  rw [doWhile, ht, ok_bind, whileLoop_done hc]

end While

/-! ## Signed integers -/

/-- x is a value of the signed type of w bits -/
def Fits (w : ℕ) (x : ℤ) : Prop := -2 ^ (w - 1) ≤ x ∧ x < 2 ^ (w - 1)

instance (w : ℕ) (x : ℤ) : Decidable (Fits w x) := inferInstanceAs (Decidable (_ ∧ _))

/-- the conversion to the signed type of w bits -/
def conv (w : ℕ) (x : ℤ) : ℤ := x.bmod (2 ^ w)

/-- the result of an operation of the signed type of w bits -/
def checked (overflow : φ) (w : ℕ) (x : ℤ) : Except φ ℤ := if Fits w x then .ok x else .error overflow

theorem conv_of_fits {w : ℕ} {x : ℤ} (hw : 0 < w) (hx : Fits w x) : conv w x = x := by
  obtain ⟨k, rfl⟩ : ∃ k, w = k + 1 := ⟨w - 1, by omega⟩
  obtain ⟨hlo, hhi⟩ := hx
  rw [Nat.add_sub_cancel] at hlo hhi
  apply Int.bmod_eq_of_le <;> (push_cast; rw [pow_succ]; omega)

theorem checked_of_fits {overflow : φ} {w : ℕ} {x : ℤ} (hx : Fits w x) : checked overflow w x = .ok x := if_pos hx

end LinuxDrv.Core
