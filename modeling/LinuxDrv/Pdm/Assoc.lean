/-
Managers and records: the association of `bd_ass.h` and the accounting of the pool, in every run, shutdown calls
included and whatever the environment answers.

`Core` has the invariant and `move_core` its step; here are the assertions. `move_failed`: an assertion that fails is
one about the state of a record, or `assert(0)` on the way out of a failed call. So those of `attach` and `dettach`,
those of `sCapture` about the pool, and those about the child or the card of a manager never fail.
-/
import LinuxDrv.Pdm.Outcomes

namespace LinuxDrv.Pdm

open LinuxDrv.Core

variable {ε μ : Type} {E : Env ε μ} {V : ETinDev → Prop} {s t : St ε}

/-- the assertions about the association and the pool, and about the child and the card of a manager -/
def assocAsserts : List Assert :=
  [.attachChld, .attachParent, .dettachChld, .dettachParent, .capturePool, .captureFirst, .killTimeoutParent,
    .buryParent, .mngStartChld, .subStartChld, .subStartCard, .subStopChld, .handleNewCard]

theorem breaks_mem {x : RtPrcInfo} {a : Assert} (h : Breaks x a) : a ∈ recordAsserts := by
  cases a <;> first | decide | exact absurd h id

/-- what can fail in a move -/
theorem move_failed {k : Kind} (hm : Move E V k s t) :
    ∀ a ∈ t.failed, a ∈ s.failed ∨ a.errPath = true ∨ a ∈ recordAsserts := by
  have hfails : ∀ {r l F}, Fails s r l F → ∀ a ∈ F, a ∈ s.failed ∨ a.errPath = true ∨ a ∈ recordAsserts := by
    intro r l F hF a ha
    rcases hF a ha with h | h | ⟨-, h⟩
    · exact Or.inl h
    · exact Or.inr (Or.inl h)
    · exact Or.inr (Or.inr (breaks_mem h))
  have herr : ∀ {F}, FailsErr s F → ∀ a ∈ F, a ∈ s.failed ∨ a.errPath = true ∨ a ∈ recordAsserts := by
    intro F hF a ha
    rcases hF a ha with h | h
    · exact Or.inl h
    · exact Or.inr (Or.inl h)
  cases hm with
  | outside | timerOff | filter | goneWait | reap | sleep | setExit | ioctlInt | timersOff =>
    intro a ha
    exact Or.inl ha
  | noStart | capture | waitFail | stopStat | stopOff | stopLost | stopAgain | kill | counts | goneTerm | goneKeep
  | signal =>
    apply hfails
    assumption
  | come | errPath =>
    apply herr
    assumption

/-- an assertion of `assocAsserts` is neither about a record nor on the way out of a failed call -/
theorem assocAsserts_other {a : Assert} (h : a ∈ assocAsserts) : a.errPath = false ∧ a ∉ recordAsserts := by
  fin_cases h <;> exact ⟨rfl, by decide⟩

theorem move_assocAsserts {k : Kind} (hm : Move E V k s t) (h : ∀ a ∈ assocAsserts, a ∉ s.failed) :
    ∀ a ∈ assocAsserts, a ∉ t.failed := by
  intro a ha hf
  obtain ⟨herr, hrec⟩ := assocAsserts_other ha
  rcases move_failed hm a hf with h' | h' | h'
  · exact h a ha h'
  · rw [herr] at h'; cases h'
  · exact hrec h'

/-- **Association and pool.** In every state that any run reaches, shutdown calls included, manager p has child r iff r
has parent p; a record has a parent iff it is not in the pool; no two records have one parent; while a manager has no
child, as when `start` reaches `sCapture`, the pool is not empty; and no assertion about these has failed. -/
theorem association_accounting {es : List (Event μ)} (hr : Reached E es s) :
    (∀ p r, s.chld p = some r ↔ (s.rt r).pParent = some p) ∧
    (∀ r, (s.rt r).pParent ≠ none ↔ r ∉ s.lists .pool) ∧
    (∀ p r r', (s.rt r).pParent = some p → (s.rt r').pParent = some p → r = r') ∧
    (∀ p, s.chld p = none → s.lists .pool ≠ []) ∧
    ∀ a ∈ assocAsserts, a ∉ s.failed := by
  obtain ⟨env, hr⟩ := hr
  obtain ⟨hc, ha⟩ := hr.inv (I := fun s => ∀ a ∈ assocAsserts, a ∉ s.failed)
    (fun _ _ _ _ a _ => List.not_mem_nil) fun _ _ _ _ hm h => move_assocAsserts hm h
  refine ⟨hc.assoc, fun r => (hc.pool r).not, ?_, fun p hp => hc.pool_ne_nil hp, ha⟩
  intro p r r' h h'
  have h₁ := (hc.assoc p r).2 h
  rw [(hc.assoc p r').2 h'] at h₁
  exact (Option.some.inj h₁).symm

/-- every process is started, and then the shutdown stops them all -/
theorem association_accounting_stopped : ∃ s, Reached (stillEnv 0) (startAll ++ [.processStop]) s ∧
    (∀ p, s.chld p = none → s.lists .pool ≠ []) ∧ ∀ a ∈ assocAsserts, a ∉ s.failed := by
  obtain ⟨s, hs, -⟩ := exists_reached (stillEnv 0) 0 (startAll ++ [.processStop])
    (fun _ => true)
    (by decide +kernel)
  obtain ⟨-, -, -, hpool, ha⟩ := association_accounting (E := stillEnv 0) ⟨_, hs⟩
  exact ⟨s, ⟨_, hs⟩, hpool, ha⟩

end LinuxDrv.Pdm
