/-
Two levels of one system that do the same: the rules of refinement for computations that may fault.

`SameUpTo X R x y`: x and y both return, and R relates what they return, or both end in the same fault. If x ends in a
fault that X excuses, nothing is said of y. For any fault, state, result and event types:
- `SameUpTo.bind`, `SameUpTo.foldlM`: it composes along the sequencing and the loops of a program.
- `SameUpTo.strict`: no fault is excused if x ends in none that is.
- `sameUpTo_run`: if the steps of two systems agree, wherever an invariant of the first one holds, so do their runs.
-/
import LinuxDrv.Core.Outcome

namespace LinuxDrv.Core

variable {φ α β γ δ ι σ τ : Type}

def SameUpTo (X : φ → Prop) (R : α → β → Prop) : Except φ α → Except φ β → Prop
  | .ok a, .ok b => R a b
  | .error e, .error f => X e ∨ e = f
  | .error e, .ok _ => X e
  | .ok _, .error _ => False

namespace SameUpTo

variable {X : φ → Prop} {R : α → β → Prop} {S : γ → δ → Prop} {x : Except φ α} {y : Except φ β}

theorem ok {a : α} {b : β} (h : R a b) : SameUpTo X R (.ok a) (.ok b) := h

theorem error (e : φ) : SameUpTo X R (.error e) (.error e) := Or.inr rfl

theorem excused {e : φ} (h : X e) (y : Except φ β) : SameUpTo X R (.error e) y := by
  cases y with
  | ok b => exact h
  | error f => exact Or.inl h

theorem bind {f : α → Except φ γ} {g : β → Except φ δ} (h : SameUpTo X R x y)
    (hf : ∀ a b, x = .ok a → R a b → SameUpTo X S (f a) (g b)) : SameUpTo X S (x >>= f) (y >>= g) := by
  rcases x with e | a <;> rcases y with e' | b
  · exact h
  · exact excused (X := X) h _
  · exact absurd h id
  · exact hf a b rfl h

theorem mono {R' : α → β → Prop} (h : SameUpTo X R x y) (hR : ∀ a b, R a b → R' a b) : SameUpTo X R' x y := by
  rcases x with e | a <;> rcases y with e' | b
  · exact h
  · exact h
  · exact h
  · exact hR a b h

/-- two loops over the same list; the relation may speak of the entries that are still to come -/
theorem foldlM {f : α → ι → Except φ α} {g : β → ι → Except φ β} {R : List ι → α → β → Prop}
    (hf : ∀ i l a b, R (i :: l) a b → SameUpTo X (R l) (f a i) (g b i)) (l : List ι) {a : α} {b : β} (h : R l a b) :
    SameUpTo X (R []) (l.foldlM f a) (l.foldlM g b) := by
  induction l generalizing a b with
  | nil => exact h
  | cons i l ih =>
    rw [List.foldlM_cons, List.foldlM_cons]
    exact (hf i l a b h).bind fun _ _ _ hr => ih hr

/-- no fault is excused where none of these ends `x` -/
theorem strict (h : SameUpTo X R x y) (hx : ∀ e, x = .error e → ¬ X e) : SameUpTo (fun _ => False) R x y := by
  rcases x with e | a <;> rcases y with e' | b
  · exact Or.inr (h.resolve_left (hx e rfl))
  · exact absurd h (hx e rfl)
  · exact h
  · exact h

end SameUpTo

/-- runs agree if steps do -/
theorem sameUpTo_run {X : φ → Prop} {R : σ → τ → Prop} {I : σ → Prop} {step : σ → ι → Except φ σ}
    {step' : τ → ι → Except φ τ} (hinv : ∀ s e t, I s → step s e = .ok t → I t)
    (hstep : ∀ s q e, I s → R s q → SameUpTo X R (step s e) (step' q e)) {s : σ} {q : τ} (hs : I s) (hq : R s q)
    (es : List ι) : SameUpTo X R (runFrom step s es) (runFrom step' q es) := by
  induction es generalizing s q with
  | nil => exact hq
  | cons e es ih =>
    rw [runFrom_cons, runFrom_cons]
    exact (hstep s q e hs hq).bind fun t r ht hr => ih (hinv s e t hs ht) hr

end LinuxDrv.Core
