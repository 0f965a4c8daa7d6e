/-
Bounded waiting in a first-come, first-served list.

A system keeps a list in its state. Entries arrive at the tail, and the head is served at some of the steps. Four
notions are developed, for any state, event, fault and entry type:
- `Since l₀ P l`: the history `l` has grown from `l₀`, and an entry that meets P is new in it.
- `Within q done n x s`: x is done, or is among the first n entries of the list `q s`. It is kept when entries leave
  that are not x (`Within.filter`) and when entries arrive (`Within.append`), and n drops by one when the head leaves
  (`Within.serve`).
- `services step S s es`: at how many steps of the run of `es` from `s` the condition S holds.
- `run_within`: if no step moves an entry back and every step with S serves the head, an entry that is among the first n
  is done after n services, whatever else arrives.
-/
import LinuxDrv.Core.Outcome
import Mathlib.Data.List.Basic

namespace LinuxDrv.Core

variable {α σ φ ι : Type}

/-! ## What is new in a history -/

/-- `l` extends the history `l₀` at its front, by an entry that meets `P` among others -/
def Since (l₀ : List α) (P : α → Prop) (l : List α) : Prop := ∃ new, l = new ++ l₀ ∧ ∃ a ∈ new, P a

namespace Since

variable {l₀ l l' : List α} {P : α → Prop}

/-- histories only grow -/
theorem mono (h : Since l₀ P l) (hl : l <:+ l') : Since l₀ P l' := by
  obtain ⟨new, rfl, a, ha, hP⟩ := h
  obtain ⟨more, rfl⟩ := hl
  exact ⟨more ++ new, (List.append_assoc ..).symm, a, List.mem_append_right more ha, hP⟩

theorem cons {a : α} (ha : P a) (hl : l₀ <:+ l) : Since l₀ P (a :: l) := by
  obtain ⟨new, rfl⟩ := hl
  exact ⟨a :: new, rfl, a, List.mem_cons_self, ha⟩

theorem suffix (h : Since l₀ P l) : l₀ <:+ l := by
  obtain ⟨new, rfl, -⟩ := h
  exact List.suffix_append new l₀

/-- what is new in a history is new in one that was shorter at its start -/
theorem weaken {l₁ : List α} (h : Since l₁ P l) (hl : l₀ <:+ l₁) : Since l₀ P l := by
  obtain ⟨new, rfl, a, ha, hP⟩ := h
  obtain ⟨more, rfl⟩ := hl
  exact ⟨new ++ more, (List.append_assoc ..).symm, a, List.mem_append_left more ha, hP⟩

/-- what is new came before a point in between, or after it -/
theorem split {l₁ : List α} (h : Since l₀ P l) (h₀ : l₀ <:+ l₁) (h₁ : l₁ <:+ l) : Since l₀ P l₁ ∨ Since l₁ P l := by
  obtain ⟨new, hl, a, ha, hP⟩ := h
  obtain ⟨mid, rfl⟩ := h₀
  obtain ⟨last, rfl⟩ := h₁
  have hnew : new = last ++ mid := List.append_cancel_right ((List.append_assoc last mid l₀).trans hl).symm
  rcases List.mem_append.1 (hnew ▸ ha) with ha | ha
  · exact Or.inr ⟨last, rfl, a, ha, hP⟩
  · exact Or.inl ⟨mid, rfl, a, ha, hP⟩

theorem not_refl : ¬ Since l P l := by
  rintro ⟨new, hl, a, ha, -⟩
  rw [List.self_eq_append_left.1 hl] at ha
  exact absurd ha List.not_mem_nil

/-- the one entry that is new meets P -/
theorem of_cons {a : α} (h : Since l P (a :: l)) : P a := by
  obtain ⟨new, hl, b, hb, hP⟩ := h
  have hnew : new = [a] := List.append_cancel_right (hl.symm.trans (List.singleton_append).symm)
  rw [hnew, List.mem_singleton] at hb
  exact hb ▸ hP

theorem not_cons {a : α} (h : ¬ Since l₀ P l) (hl : l₀ <:+ l) (ha : ¬ P a) : ¬ Since l₀ P (a :: l) := fun hs =>
  (hs.split hl (List.suffix_cons ..)).elim h fun hs => ha hs.of_cons

end Since

/-! ## Places in a list -/

/-- an entry that stays when others leave does not move back -/
theorem mem_take_filter {p : α → Bool} {x : α} (hx : p x = true) {n : ℕ} {l : List α} (h : x ∈ l.take n) :
    x ∈ (l.filter p).take n := by
  induction l generalizing n with
  | nil => simp at h
  | cons y l ih =>
    cases n with
    | zero => simp at h
    | succ n =>
      rw [List.take_succ_cons, List.mem_cons] at h
      rcases h with rfl | h
      · simp [hx]
      · have hm := ih h
        cases hy : p y with
        | true => simp [hy, hm]
        | false =>
          rw [List.filter_cons_of_neg (by simp [hy])]
          exact (List.take_subset_take_left _ (Nat.le_succ n)) hm

/-- an entry behind the head moves up when the head leaves -/
theorem mem_take_tail {y x : α} (hx : x ≠ y) {n : ℕ} {l : List α} (h : x ∈ (y :: l).take (n + 1)) : x ∈ l.take n := by
  rw [List.take_succ_cons, List.mem_cons] at h
  exact h.resolve_left hx

/-- `x` is done, or among the first `n` of the list -/
def Within (q : σ → List α) (done : σ → Prop) (n : ℕ) (x : α) (s : σ) : Prop := done s ∨ x ∈ (q s).take n

namespace Within

variable {q : σ → List α} {done : σ → Prop} {n m : ℕ} {x : α} {s t : σ}

theorem le (h : Within q done n x s) (hnm : n ≤ m) : Within q done m x s :=
  h.imp_right fun hx => List.take_subset_take_left _ hnm hx

/-- the list is as it was -/
theorem congr (h : Within q done n x s) (hd : done s → done t) (hq : q t = q s) : Within q done n x t :=
  h.imp hd fun hx => hq ▸ hx

/-- entries leave the list, and if `x` is one of them it is done -/
theorem filter (h : Within q done n x s) (hd : done s → done t) {p : α → Bool} (hq : q t = (q s).filter p)
    (hx : x ∈ q s → p x = false → done t) : Within q done n x t := by
  rcases h with h | h
  · exact Or.inl (hd h)
  · cases hp : p x with
    | false => exact Or.inl (hx (List.mem_of_mem_take h) hp)
    | true => exact Or.inr (hq ▸ mem_take_filter hp h)

/-- entries arrive -/
theorem append (h : Within q done n x s) (hd : done s → done t) {new : List α} (hq : q t = q s ++ new) :
    Within q done n x t := by
  rcases h with h | h
  · exact Or.inl (hd h)
  · rw [Within, hq, List.take_append]
    exact Or.inr (List.mem_append_left _ h)

/-- the head is served -/
theorem serve (h : Within q done (n + 1) x s) (hd : done s → done t) {y : α} {l new : List α} (hs : q s = y :: l)
    (hq : q t = l ++ new) (hy : x = y → done t) : Within q done n x t := by
  rcases h with h | h
  · exact Or.inl (hd h)
  · by_cases hxy : x = y
    · exact Or.inl (hy hxy)
    · rw [hs] at h
      rw [Within, hq, List.take_append]
      exact Or.inr (List.mem_append_left _ (mem_take_tail hxy h))

end Within

/-! ## Runs -/

section Run

variable (step : σ → ι → Except φ σ) (S : σ → ι → Prop) [∀ s e, Decidable (S s e)]

/-- the number of steps of the run of `es` from `s` at which `S` holds -/
def services : σ → List ι → ℕ
  | _, [] => 0
  | s, e :: es => (if S s e then 1 else 0) + match step s e with
    | .ok t => services t es
    | .error _ => 0

variable {step S}

theorem services_cons {s t : σ} {e : ι} (h : step s e = .ok t) (es : List ι) :
    services step S s (e :: es) = (if S s e then 1 else 0) + services step S t es := by
  simp only [services, h]

/-- **Bounded waiting.** A step keeps the place of every entry or moves it up, and moves it up when it serves. Then
every service of a run moves an entry up by one, and after as many services as its place it is done. -/
theorem run_within {q : σ → List α} {done : σ → Prop} {x : α} {I : σ → Prop} {P : ι → Prop}
    (hinv : ∀ s e t, P e → I s → step s e = .ok t → I t)
    (hkeep : ∀ s e t n, P e → I s → step s e = .ok t → Within q done n x s → Within q done n x t)
    (hserve : ∀ s e t n, P e → I s → S s e → step s e = .ok t → Within q done (n + 1) x s → Within q done n x t)
    {s t : σ} {es : List ι} (hes : ∀ e ∈ es, P e) (hs : I s) {n : ℕ} (hx : Within q done n x s)
    (h : runFrom step s es = .ok t) : Within q done (n - services step S s es) x t := by
  induction es generalizing s n with
  | nil => cases h; exact hx
  | cons e es ih =>
    rw [runFrom_cons] at h
    obtain ⟨u, hu, hr⟩ := bind_eq_ok h
    have he := hes e List.mem_cons_self
    have hrest := fun e' he' => hes e' (List.mem_cons_of_mem e he')
    have hIu := hinv s e u he hs hu
    rw [services_cons hu]
    by_cases hS : S s e
    · have hup : Within q done (n - 1) x u :=
        hserve s e u (n - 1) he hs hS hu (hx.le (by omega))
      have hend := ih hrest hIu hup hr
      rw [if_pos hS, Nat.sub_add_eq]
      exact hend
    · have hend := ih hrest hIu (hkeep s e u n he hs hu hx) hr
      rw [if_neg hS, Nat.zero_add]
      exact hend

end Run

end LinuxDrv.Core
