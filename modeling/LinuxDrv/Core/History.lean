/-
What happened, newest first.

A history is a list that grows at its front. A run of a system may keep one beside its states: `noting step note` is the
system with a history that each event adds to, and `runFrom_noting` says that it does nothing else. Two ways to measure a
history are developed, for any type of entries:
- `streak a l`: how many of the newest entries are a, without another entry between them. `le_streak_iff`: the streak is
  at least n iff the newest n entries are all a.
- `countSince p q l`: how many entries meet q after the newest one that meets p.
-/
import LinuxDrv.Core.Outcome
import Mathlib.Data.List.TakeWhile

namespace LinuxDrv.Core

variable {α σ η φ ι : Type}

/-! ## Runs with a history -/

/-- the events of a system, each of which adds to a history what `note` says -/
def noting (step : σ → ι → Except φ σ) (note : σ → ι → η → η) (x : σ × η) (e : ι) : Except φ (σ × η) :=
  step x.1 e >>= fun t => .ok (t, note x.1 e x.2)

theorem noting_eq_ok {step : σ → ι → Except φ σ} {note : σ → ι → η → η} {x y : σ × η} {e : ι} :
    noting step note x e = .ok y ↔ step x.1 e = .ok y.1 ∧ y.2 = note x.1 e x.2 := by
  unfold noting
  rcases step x.1 e with f | t
  · simp
  · simp [Prod.ext_iff, eq_comm]

/-- every run has a history, and the run is as without it -/
theorem runFrom_noting {step : σ → ι → Except φ σ} {note : σ → ι → η → η} {s t : σ} {es : List ι} (h : η) :
    runFrom step s es = .ok t ↔ ∃ h', runFrom (noting step note) (s, h) es = .ok (t, h') := by
  induction es generalizing s h with
  | nil =>
    constructor
    · rintro ⟨⟩
      exact ⟨h, rfl⟩
    · rintro ⟨h', ⟨⟩⟩
      rfl
  | cons e es ih =>
    rw [runFrom_cons]
    have hcons := fun x => runFrom_cons (noting step note) x e es
    constructor
    · intro hr
      obtain ⟨u, hu, hr⟩ := bind_eq_ok hr
      obtain ⟨h', hr⟩ := (ih (note s e h)).1 hr
      refine ⟨h', ?_⟩
      rw [hcons, noting, hu]
      exact hr
    · rintro ⟨h', hr⟩
      rw [hcons] at hr
      obtain ⟨y, hy, hr⟩ := bind_eq_ok hr
      rw [(noting_eq_ok.1 hy).1]
      exact (ih y.2).2 ⟨h', hr⟩

/-! ## Streaks -/

section Streak

variable [DecidableEq α]

/-- how many of the newest entries are `a` -/
def streak (a : α) (l : List α) : ℕ := (l.takeWhile fun x => decide (x = a)).length

@[simp] theorem streak_nil (a : α) : streak a [] = 0 := rfl

@[simp] theorem streak_cons_self (a : α) (l : List α) : streak a (a :: l) = streak a l + 1 := by
  simp [streak]

theorem streak_cons_of_ne {a b : α} (h : b ≠ a) (l : List α) : streak a (b :: l) = 0 := by
  simp [streak, h]

theorem le_streak_iff (a : α) (n : ℕ) (l : List α) : n ≤ streak a l ↔ l.take n = List.replicate n a := by
  induction n generalizing l with
  | zero => simp
  | succ n ih =>
    rcases l with _ | ⟨b, l⟩
    · simp [List.replicate_succ]
    · by_cases hb : b = a
      · subst hb
        simp [ih, List.replicate_succ]
      · simp [streak_cons_of_ne hb, List.replicate_succ, hb]

end Streak

/-! ## Counts -/

section Count

variable {p q : α → Prop} [DecidablePred p] [DecidablePred q] {a : α}

/-- how many entries meet `q` after the newest one that meets `p` -/
def countSince (p q : α → Prop) [DecidablePred p] [DecidablePred q] (l : List α) : ℕ :=
  (l.takeWhile fun x => decide (¬ p x)).countP fun x => decide (q x)

@[simp] theorem countSince_nil : countSince p q [] = 0 := rfl

theorem countSince_cons_reset (h : p a) (l : List α) : countSince p q (a :: l) = 0 := by
  simp [countSince, h]

theorem countSince_cons (h : ¬ p a) (l : List α) :
    countSince p q (a :: l) = countSince p q l + if q a then 1 else 0 := by
  by_cases hq : q a
  · simp [countSince, h, hq]
  · simp [countSince, h, hq]

end Count

end LinuxDrv.Core
