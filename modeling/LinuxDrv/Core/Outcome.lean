/-
Computations that may fault, and runs of them.

A computation over a state σ is a function into `Except φ σ`: it ends in a state, or a fault φ ends it. Three notions
are developed, for any state, fault and event type:
- `Outcome R F s x`: x is what a computation started in s did, seen as a chain of moves of a relation R. A fault must
  be one that F allows in the state in which it struck. `Outcome.bind` and `Outcome.foldlM` compose outcomes along
  the sequencing and the loops of a program. `foldlM_done` is the rule of a loop whose invariant speaks of the entries
  that are done, `foldlM_done_total` the one of a loop whose rounds all return.
- `Frame f d x`: a component f of the result of x is d, if x returns. `Frame.bind` and `Frame.foldlM` compose frames.
- `runFrom step s es`: the run of a list of events. `runFrom_inv` is the induction rule for what every step keeps,
  `runFrom_total` the one for steps that return when they meet a condition on the state and the event. `Always step P`
  says that P holds at every step of a run; `always_iff` compares two such properties under an invariant, and
  `always_iff_of` does in the runs whose steps meet a third one.
-/
import Mathlib.Logic.Relation

namespace LinuxDrv.Core

open Relation

variable {σ φ ι : Type}

/-! ## Sequencing -/

@[simp] theorem ok_bind {β γ : Type} (a : β) (f : β → Except φ γ) : (Except.ok a >>= f) = f a := rfl

@[simp] theorem error_bind {β γ : Type} (x : φ) (f : β → Except φ γ) : (Except.error x >>= f) = .error x := rfl

theorem bind_eq_ok {β γ : Type} {x : Except φ β} {f : β → Except φ γ} {c : γ} (h : x >>= f = .ok c) :
    ∃ b, x = .ok b ∧ f b = .ok c := by
  cases x with
  | error e => simp at h
  | ok b => exact ⟨b, rfl, h⟩

/-! ## Outcomes -/

/-- what a computation started in `s` may do: a chain of `R`-moves, then return, or a fault that `F` allows there -/
def Outcome (R : σ → σ → Prop) (F : σ → φ → Prop) (s : σ) : Except φ σ → Prop
  | .ok t => ReflTransGen R s t
  | .error x => ∃ t, ReflTransGen R s t ∧ F t x

namespace Outcome

variable {R : σ → σ → Prop} {F : σ → φ → Prop} {s t : σ}

theorem refl (s : σ) : Outcome R F s (.ok s) := ReflTransGen.refl

theorem move (h : R s t) : Outcome R F s (.ok t) := ReflTransGen.single h

theorem fault {x : φ} (h : F s x) : Outcome R F s (.error x) := ⟨s, ReflTransGen.refl, h⟩

theorem head {x : Except φ σ} (h : ReflTransGen R s t) (hx : Outcome R F t x) : Outcome R F s x := by
  cases x with
  | ok u => exact h.trans hx
  | error e =>
    obtain ⟨u, hu, hf⟩ := hx
    exact ⟨u, h.trans hu, hf⟩

theorem bind {x : Except φ σ} {f : σ → Except φ σ} (hx : Outcome R F s x)
    (hf : ∀ t, ReflTransGen R s t → x = .ok t → Outcome R F t (f t)) : Outcome R F s (x >>= f) := by
  cases x with
  | ok t => exact head hx (hf t hx rfl)
  | error e => exact hx

/-- a loop over a list: every round, started where the rounds before it led, has an outcome -/
theorem foldlM {f : σ → ι → Except φ σ} {l : List ι} (hf : ∀ t a, a ∈ l → ReflTransGen R s t → Outcome R F t (f t a)) :
    Outcome R F s (l.foldlM f s) := by
  induction l generalizing s with
  | nil => exact refl s
  | cons a l ih =>
    rw [List.foldlM_cons]
    refine bind (hf s a List.mem_cons_self ReflTransGen.refl) fun t ht _ => ih fun u b hb hu => ?_
    exact hf u b (List.mem_cons_of_mem a hb) (ht.trans hu)

/-- a larger relation has the same outcomes -/
theorem mono {S : σ → σ → Prop} {x : Except φ σ} (hR : ∀ a b, R a b → S a b) (h : Outcome R F s x) :
    Outcome S F s x := by
  cases x with
  | ok t => exact ReflTransGen.mono hR _ _ h
  | error e =>
    obtain ⟨t, ht, hf⟩ := h
    exact ⟨t, ReflTransGen.mono hR _ _ ht, hf⟩

end Outcome

/-- the rule of a loop that returns: its invariant speaks of the entries that are done -/
theorem foldlM_done {f : σ → ι → Except φ σ} {l : List ι} {I : List ι → σ → Prop} {s t : σ}
    (hstep : ∀ done a rest u v, done ++ a :: rest = l → I done u → f u a = .ok v → I (done ++ [a]) v)
    (hs : I [] s) (h : l.foldlM f s = .ok t) : I l t := by
  suffices hgen : ∀ rest done u, done ++ rest = l → I done u → rest.foldlM f u = .ok t → I l t from
    hgen l [] s rfl hs h
  intro rest
  induction rest with
  | nil =>
    intro done u hl hu ht
    cases ht
    exact (List.append_nil done).symm.trans hl ▸ hu
  | cons a rest ih =>
    intro done u hl hu ht
    rw [List.foldlM_cons] at ht
    obtain ⟨v, hv, ht⟩ := bind_eq_ok ht
    exact ih (done ++ [a]) v (by simpa using hl) (hstep done a rest u v hl hu hv) ht

/-- the rule of a loop whose rounds all return -/
theorem foldlM_done_total {f : σ → ι → Except φ σ} {l : List ι} {I : List ι → σ → Prop} {s : σ}
    (hstep : ∀ done a rest u, done ++ a :: rest = l → I done u → ∃ v, f u a = .ok v ∧ I (done ++ [a]) v)
    (hs : I [] s) : ∃ t, l.foldlM f s = .ok t ∧ I l t := by
  suffices hgen : ∀ rest done u, done ++ rest = l → I done u → ∃ t, rest.foldlM f u = .ok t ∧ I l t from
    hgen l [] s rfl hs
  intro rest
  induction rest with
  | nil =>
    intro done u hl hu
    exact ⟨u, rfl, (List.append_nil done).symm.trans hl ▸ hu⟩
  | cons a rest ih =>
    intro done u hl hu
    obtain ⟨v, hv, hIv⟩ := hstep done a rest u hl hu
    obtain ⟨t, ht, hIt⟩ := ih (done ++ [a]) v (by simpa using hl) hIv
    exact ⟨t, by rw [List.foldlM_cons, hv, ok_bind, ht], hIt⟩

/-- what every move keeps, a chain of moves keeps -/
theorem chain_inv {R : σ → σ → Prop} {I : σ → Prop} (hI : ∀ a b, R a b → I a → I b) {s t : σ}
    (h : ReflTransGen R s t) (hs : I s) : I t := by
  induction h with
  | refl => exact hs
  | tail _ hab ih => exact hI _ _ hab ih

/-! ## Frames -/

/-- what a computation returns, if it returns, has the value `d` of the component `f` -/
def Frame {β γ : Type} (f : β → γ) (d : γ) : Except φ β → Prop
  | .ok b => f b = d
  | .error _ => True

namespace Frame

variable {β γ δ : Type} {f : β → δ} {g : γ → δ} {d : δ}

theorem bind {x : Except φ β} {k : β → Except φ γ} (hx : Frame f d x) (hk : ∀ b, f b = d → Frame g d (k b)) :
    Frame g d (x >>= k) := by
  rcases x with e | b
  · trivial
  · exact hk b hx

/-- a loop whose rounds leave the component leaves it -/
theorem foldlM {body : β → ι → Except φ β} (hbody : ∀ b a, f b = d → Frame f d (body b a)) (l : List ι) {b : β}
    (hb : f b = d) : Frame f d (l.foldlM body b) := by
  induction l generalizing b with
  | nil => exact hb
  | cons a l ih =>
    rw [List.foldlM_cons]
    exact (hbody b a hb).bind fun c hc => ih hc

end Frame

/-! ## Runs -/

/-- the run of the events `es` from `s` -/
def runFrom (step : σ → ι → Except φ σ) (s : σ) (es : List ι) : Except φ σ := es.foldlM step s

theorem runFrom_cons (step : σ → ι → Except φ σ) (s : σ) (e : ι) (es : List ι) :
    runFrom step s (e :: es) = step s e >>= fun t => runFrom step t es := List.foldlM_cons

/-- what holds at the start and is kept by every step that returns holds at the end of every run that returns -/
theorem runFrom_inv {step : σ → ι → Except φ σ} {I : σ → Prop} {P : ι → Prop}
    (hstep : ∀ s e t, P e → I s → step s e = .ok t → I t) {s t : σ} {es : List ι} (hes : ∀ e ∈ es, P e)
    (hs : I s) (h : runFrom step s es = .ok t) : I t := by
  induction es generalizing s with
  | nil => cases h; exact hs
  | cons e es ih =>
    rw [runFrom_cons] at h
    obtain ⟨u, hu, hr⟩ := bind_eq_ok h
    exact ih (fun e' he' => hes e' (List.mem_cons_of_mem e he')) (hstep s e u (hes e List.mem_cons_self) hs hu) hr

/-- a fault that ends a run is one of a step, from a state with what the steps keep -/
theorem runFrom_fault {step : σ → ι → Except φ σ} {I : σ → Prop} (hkeep : ∀ s e t, I s → step s e = .ok t → I t)
    {s : σ} {es : List ι} {x : φ} (hs : I s) (h : runFrom step s es = .error x) :
    ∃ t e, I t ∧ step t e = .error x := by
  induction es generalizing s with
  | nil => cases h
  | cons e es ih =>
    rw [runFrom_cons] at h
    cases hst : step s e with
    | error y =>
      rw [hst] at h
      exact ⟨s, e, hs, hst.trans h⟩
    | ok t =>
      rw [hst, ok_bind] at h
      exact ih (hkeep s e t hs hst) h

/-- P holds at every step of the run of `es` from `s` -/
def Always (step : σ → ι → Except φ σ) (P : σ → ι → Prop) : σ → List ι → Prop
  | _, [] => True
  | s, e :: es => P s e ∧ match step s e with
    | .ok t => Always step P t es
    | .error _ => True

instance Always.decidable (step : σ → ι → Except φ σ) (P : σ → ι → Prop) [∀ s e, Decidable (P s e)] :
    ∀ s es, Decidable (Always step P s es)
  | _, [] => isTrue trivial
  | s, e :: es =>
    have : Decidable (match step s e with | .ok t => Always step P t es | .error _ => True) :=
      match step s e with
      | .ok t => Always.decidable step P t es
      | .error _ => isTrue trivial
    inferInstanceAs (Decidable (_ ∧ _))

theorem always_cons {step : σ → ι → Except φ σ} {P : σ → ι → Prop} {s t : σ} {e : ι} (h : step s e = .ok t)
    (es : List ι) : Always step P s (e :: es) ↔ P s e ∧ Always step P t es := by
  simp only [Always, h]

theorem Always.mono {step : σ → ι → Except φ σ} {P Q : σ → ι → Prop} (hPQ : ∀ s e, P s e → Q s e) {s : σ} {es : List ι}
    (h : Always step P s es) : Always step Q s es := by
  induction es generalizing s with
  | nil => trivial
  | cons e es ih =>
    refine ⟨hPQ s e h.1, ?_⟩
    have h2 := h.2
    cases hst : step s e with
    | error x => trivial
    | ok t =>
      rw [hst] at h2
      exact ih h2

/-- where every step returns, a condition on the events holds along a run iff every event meets it -/
theorem always_forall {step : σ → ι → Except φ σ} (htotal : ∀ s e, ∃ t, step s e = .ok t) {P : ι → Prop} {s : σ}
    (es : List ι) : Always step (fun _ e => P e) s es ↔ ∀ e ∈ es, P e := by
  induction es generalizing s with
  | nil => exact iff_of_true trivial fun e he => absurd he List.not_mem_nil
  | cons e es ih =>
    obtain ⟨t, ht⟩ := htotal s e
    rw [always_cons ht, ih, List.forall_mem_cons]

/-- a property of steps holds along every run, if it follows from what every step keeps -/
theorem always_of_inv {step : σ → ι → Except φ σ} {P : σ → ι → Prop} {I : σ → Prop} (hP : ∀ s e, I s → P s e)
    (hkeep : ∀ s e t, I s → step s e = .ok t → I t) {s : σ} (hs : I s) (es : List ι) : Always step P s es := by
  induction es generalizing s with
  | nil => trivial
  | cons e es ih =>
    refine ⟨hP s e hs, ?_⟩
    cases hst : step s e with
    | error x => trivial
    | ok t => exact ih (hkeep s e t hs hst)

/-- in a run whose steps meet H, two properties of steps hold alike, if they agree at such steps wherever an invariant
holds that the steps with the second property keep -/
theorem always_iff_of {step : σ → ι → Except φ σ} {H P Q : σ → ι → Prop} {I : σ → Prop}
    (hiff : ∀ s e, I s → H s e → (P s e ↔ Q s e)) (hkeep : ∀ s e t, I s → H s e → Q s e → step s e = .ok t → I t)
    {s : σ} {es : List ι} (hs : I s) (hH : Always step H s es) : Always step P s es ↔ Always step Q s es := by
  induction es generalizing s with
  | nil => exact Iff.rfl
  | cons e es ih =>
    obtain ⟨hHe, hHes⟩ := hH
    simp only [Always]
    rw [hiff s e hs hHe]
    apply and_congr_right
    intro hQ
    cases hst : step s e with
    | error x => exact Iff.rfl
    | ok t =>
      rw [hst] at hHes
      exact ih (hkeep s e t hs hHe hQ hst) hHes

/-- two properties of steps hold along the same runs, if they agree wherever an invariant holds that the steps with the
second property keep -/
theorem always_iff {step : σ → ι → Except φ σ} {P Q : σ → ι → Prop} {I : σ → Prop}
    (hiff : ∀ s e, I s → (P s e ↔ Q s e)) (hkeep : ∀ s e t, I s → Q s e → step s e = .ok t → I t) {s : σ} {es : List ι}
    (hs : I s) : Always step P s es ↔ Always step Q s es := by
  have htrue : Always step (fun _ _ => True) s es :=
    always_of_inv (I := fun _ => True) (fun _ _ _ => trivial) (fun _ _ _ _ _ => trivial) trivial es
  exact always_iff_of (fun s e hI _ => hiff s e hI) (fun s e t hI _ hQ => hkeep s e t hI hQ) hs htrue

/-- if every step that meets P returns and keeps the invariant, a run whose steps meet P returns and keeps it -/
theorem runFrom_total {step : σ → ι → Except φ σ} {I : σ → Prop} {P : σ → ι → Prop}
    (hstep : ∀ s e, I s → P s e → ∃ t, step s e = .ok t ∧ I t) {s : σ} {es : List ι} (hs : I s)
    (h : Always step P s es) : ∃ t, runFrom step s es = .ok t ∧ I t := by
  induction es generalizing s with
  | nil => exact ⟨s, rfl, hs⟩
  | cons e es ih =>
    obtain ⟨t, ht, hIt⟩ := hstep s e hs h.1
    have h2 := h.2
    rw [ht] at h2
    obtain ⟨u, hu, hIu⟩ := ih hIt h2
    exact ⟨u, by rw [runFrom_cons, ht, ok_bind, hu], hIu⟩

end LinuxDrv.Core
