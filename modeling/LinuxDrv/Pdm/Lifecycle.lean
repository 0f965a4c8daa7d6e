/-
The life of a process record: NULL -> NORMAL -> EXITING -> KILLING -> NULL.

- `Forward old new`: the law of one write of `m_state`. `Lifecycle s`: every write so far obeys it, and `signalTerm` and
  `signalKill` were only called in the states they assert.
- `runtime_lifecycle`: callbacks keep it, since they keep the agreement of list and state.
- `lifecycle_iff`: `CProcessPdm::Stop` keeps it exactly when no record is being killed. `Term4Stop` sends SIGTERM to
  every child without looking at its state, so a record in KILLING fails the assertion of `signalTerm` and goes back to
  EXITING; `term_after_kill` is such a run.
-/
import LinuxDrv.Pdm.Records
import LinuxDrv.Pdm.Stop

namespace LinuxDrv.Pdm

open LinuxDrv.Core

variable {ε μ : Type} {E : Env ε μ} {V : ETinDev → Prop} {s t : St ε}

/-- the order of the states of a life -/
def PrcRtState.rank : PrcRtState → ℕ
  | null => 0
  | normal => 1
  | exiting => 2
  | killing => 3

/-- a write of `m_state` keeps it, moves it forward, or ends the life -/
def Forward (old new : PrcRtState) : Prop := old = new ∨ old.rank < new.rank ∨ (old ≠ .null ∧ new = .null)

structure Lifecycle (s : St ε) : Prop where
  forward : ∀ w ∈ s.writes, Forward w.2.1 w.2.2
  term : .signalTermState ∉ s.failed
  kill : .signalKillState ∉ s.failed

theorem forward_null (old : PrcRtState) : Forward old .null := by
  by_cases h : old = .null
  · exact Or.inl h
  · exact Or.inr (Or.inr ⟨h, rfl⟩)

namespace Lifecycle

/-- one more write, and no new failure of the two assertions -/
theorem write (h : Lifecycle s) (ha : Agree t) {w : RecId × PrcRtState × PrcRtState} (hw : t.writes = w :: s.writes)
    (hf : Forward w.2.1 w.2.2) : Lifecycle t := by
  refine ⟨?_, fun hm => ha.asserts _ hm (by decide), fun hm => ha.asserts _ hm (by decide)⟩
  intro w' hw'
  rw [hw] at hw'
  rcases List.mem_cons.1 hw' with rfl | hw'
  · exact hf
  · exact h.forward w' hw'

/-- no write -/
theorem keep (h : Lifecycle s) (ha : Agree t) (hw : t.writes = s.writes) : Lifecycle t :=
  ⟨fun w hm => h.forward w (hw ▸ hm), fun hm => ha.asserts _ hm (by decide), fun hm => ha.asserts _ hm (by decide)⟩

end Lifecycle

/-- every move of a callback keeps the lifecycle -/
theorem runtime_lifecycle (hc : Core s) (ha : Agree s) (hm : Runtime E V s t) (h : Lifecycle s) : Lifecycle t := by
  have ha' := runtime_agree hc hm ha
  rcases hm with hm | hm
  · cases hm with
    | outside | timerOff | noStart | waitFail | counts | filter | goneKeep | goneWait | come | errPath =>
      exact h.keep ha' rfl
    | capture p r name pid e F _ hr =>
      refine h.write ha' rfl (Or.inr (Or.inl ?_))
      show (s.rt r).state.rank < PrcRtState.normal.rank
      rw [ha.state .pool r hr]
      decide
    | stopStat | stopOff | stopLost | stopAgain => exact h.write ha' rfl (forward_null _)
    | kill r k e F hr =>
      refine h.write ha' rfl (Or.inr (Or.inl ?_))
      show (s.rt r).state.rank < PrcRtState.killing.rank
      rcases hr with hr | hr
      · rw [ha.state .normal r hr]; decide
      · rw [ha.state .exiting r hr]; decide
    | goneTerm i r k e F _ _ hst =>
      refine h.write ha' rfl (Or.inr (Or.inl ?_))
      show (s.rt r).state.rank < PrcRtState.exiting.rank
      rw [hst]
      decide
  · cases hm with
    | reap => exact h.keep ha' rfl

theorem Reached.lifecycle {es : List (Event μ)} (hr : Reached E es s) (hes : ∀ e ∈ es, e.runtime = true) :
    Core s ∧ Agree s ∧ Lifecycle s :=
  hr.runtime_inv (I := fun s => Agree s ∧ Lifecycle s) hes
    (fun _ _ _ _ _ => ⟨ready_agree .., fun _ hw => absurd hw List.not_mem_nil, List.not_mem_nil, List.not_mem_nil⟩)
    fun _ _ hc hm h => ⟨runtime_agree hc hm h.1, runtime_lifecycle hc h.1 hm h.2⟩

/-! ## Shutdown -/

/-- a child is in the list of a process that lives -/
theorem chld_state (hc : Core s) (ha : Agree s) {p : MngId} {r : RecId} (hr : s.chld p = some r)
    (hk : s.lists .killing = []) : (s.rt r).state = .normal ∨ (s.rt r).state = .exiting := by
  obtain ⟨l, hl⟩ := hc.total r
  have hst := ha.state l r hl
  cases l with
  | pool => exact absurd hl (hc.chld_not_pool hr)
  | normal => exact Or.inl hst
  | exiting => exact Or.inr hst
  | killing => rw [hk] at hl; exact absurd hl List.not_mem_nil

/-- a record that is being killed is sent SIGTERM, and its write goes backward -/
theorem killing_backward (hc : Core s) (ha : Agree s) {r : RecId} (hr : r ∈ s.lists .killing)
    (h : Signalled4Stop E .sigterm .exiting stopOrder s t) : (r, .killing, .exiting) ∈ t.writes := by
  obtain ⟨p, -, hp⟩ := hc.parent_of_mem hr (by simp)
  obtain ⟨ws, hws, hmem⟩ := h.writes
  rw [hws]
  refine List.mem_append_left _ ((hmem _).2 ⟨p, mem_stopOrder p, hp, ?_⟩)
  rw [ha.state .killing r hr]
  rfl

theorem not_forward_killing : ¬ Forward .killing .exiting := by
  intro hx
  rcases hx with h | h | ⟨-, h⟩
  · cases h
  · exact absurd h (by decide)
  · cases h

/-- with no record being killed, both signals find their children in the states they assert -/
theorem signals_forward (hc : Core s) (ha : Agree s) (hk : s.lists .killing = []) {t₁ t₂ : St ε} {e : ε}
    (h₁ : Signalled4Stop E .sigterm .exiting stopOrder s t₁)
    (h₂ : Signalled4Stop E .sigkill .killing stopOrder { t₁ with env := e } t₂) (h : Lifecycle s) : Lifecycle t₂ := by
  have hex : ∀ p r, t₁.chld p = some r → (t₁.rt r).state = .exiting := by
    intro p r hr
    rw [h₁.hit p (mem_stopOrder p) r (h₁.chld ▸ hr)]
  have hF₁ : t₁.failed = s.failed := h₁.asserts fun p _ r hr => chld_state hc ha hr hk
  have hF₂ : t₂.failed = t₁.failed := h₂.asserts fun p _ r hr => Or.inr (hex p r hr)
  obtain ⟨ws₁, hws₁, hmem₁⟩ := h₁.writes
  obtain ⟨ws₂, hws₂, hmem₂⟩ := h₂.writes
  refine ⟨?_, ?_, ?_⟩
  · intro w hw
    rw [hws₂] at hw
    rcases List.mem_append.1 hw with hw | hw
    · obtain ⟨p, -, hr, hval⟩ := (hmem₂ w).1 hw
      rw [hval]
      refine Or.inr (Or.inl ?_)
      show (t₁.rt w.1).state.rank < PrcRtState.killing.rank
      rw [hex p w.1 hr]
      decide
    · change w ∈ t₁.writes at hw
      rw [hws₁] at hw
      rcases List.mem_append.1 hw with hw | hw
      · obtain ⟨p, -, hr, hval⟩ := (hmem₁ w).1 hw
        rw [hval]
        show Forward (s.rt w.1).state .exiting
        rcases chld_state hc ha hr hk with hst | hst
        · rw [hst]; exact Or.inr (Or.inl (by decide))
        · exact Or.inl hst
      · exact h.forward w hw
  · rw [hF₂, hF₁]; exact h.term
  · rw [hF₂, hF₁]; exact h.kill

/-- the stops of a shutdown end lives -/
theorem StopWrites.lifecycle (h : StopWrites s t) (hs : Lifecycle s) : Lifecycle t := by
  obtain ⟨ws, hws, hnull⟩ := h.writes
  refine ⟨?_, ?_, ?_⟩
  · intro w hw
    rw [hws] at hw
    rcases List.mem_append.1 hw with hw | hw
    · rw [hnull w hw]; exact forward_null _
    · exact hs.forward w hw
  · intro hm
    rcases h.asserts _ hm with h' | h' | h'
    · exact hs.term h'
    · cases h'
    · cases h'
  · intro hm
    rcases h.asserts _ hm with h' | h' | h'
    · exact hs.kill h'
    · cases h'
    · cases h'

theorem processStop_lifecycle (hc : Core s) (ha : Agree s) (h : Lifecycle s) (ht : processStop E s = .ok t) :
    Lifecycle t ↔ s.lists .killing = [] := by
  unfold processStop at ht
  obtain ⟨u, hu, ht⟩ := bind_eq_ok ht
  obtain ⟨v, hv, ht⟩ := bind_eq_ok ht
  cases ht
  obtain ⟨t₁, t₂, h₁, h₂, rfl, hcu⟩ := stopSignals_spec hc hu
  have hw := stopAll_writes hcu hv
  constructor
  · intro hl
    by_contra hk
    obtain ⟨r, hr⟩ := List.exists_mem_of_ne_nil _ hk
    have hback := killing_backward hc ha hr h₁
    obtain ⟨ws₂, hws₂, -⟩ := h₂.writes
    obtain ⟨ws₃, hws₃, -⟩ := hw.writes
    refine not_forward_killing (hl.forward (r, .killing, .exiting) ?_)
    show _ ∈ v.writes
    rw [hws₃]
    refine List.mem_append_right _ ?_
    show _ ∈ t₂.writes
    rw [hws₂]
    exact List.mem_append_right _ hback
  · intro hk
    have hl := signals_forward hc ha hk h₁ h₂ h
    have hl' : Lifecycle v := hw.lifecycle ⟨hl.forward, hl.term, hl.kill⟩
    exact ⟨hl'.forward, hl'.term, hl'.kill⟩

/-- **The lifecycle moves forward**, in every run of callbacks; and the shutdown keeps it so exactly when no record is
being killed when `CProcessPdm::Stop` is called. -/
theorem lifecycle_iff (E : Env ε μ) :
    (∀ es s, (∀ e ∈ es, e.runtime = true) → Reached E es s → Lifecycle s) ∧
    ∀ es s t, (∀ e ∈ es, e.runtime = true) → Reached E es s → processStop E s = .ok t →
      (Lifecycle t ↔ s.lists .killing = []) := by
  refine ⟨fun es s hes hr => (hr.lifecycle hes).2.2, ?_⟩
  intro es s t hes hr ht
  obtain ⟨hc, ha, h⟩ := hr.lifecycle hes
  exact processStop_lifecycle hc ha h ht

/-- every process runs, and the shutdown finds none that is being killed -/
theorem lifecycle_iff_running : ∃ s t, Reached (stillEnv 0) startAll s ∧ processStop (stillEnv 0) s = .ok t ∧
    Lifecycle s ∧ Lifecycle t := by
  obtain ⟨s, hs, hf⟩ := exists_reached (stillEnv 0) 0 startAll
    (fun s => decide (s.lists .killing = []) && (processStop (stillEnv 0) s).toOption.any fun _ => true)
    (by decide +kernel)
  simp only [Bool.and_eq_true, decide_eq_true_eq] at hf
  obtain ⟨hk, hok⟩ := hf
  have hr : Reached (stillEnv 0) startAll s := ⟨_, hs⟩
  have hes : ∀ e ∈ (startAll : List (Event Unit)), e.runtime = true := by decide
  cases ht : processStop (stillEnv 0) s with
  | error x => rw [ht] at hok; cases hok
  | ok t =>
    have hafter := (lifecycle_iff (stillEnv 0)).2 _ s t hes hr ht
    exact ⟨s, t, hr, ht, (lifecycle_iff (stillEnv 0)).1 _ s hes hr, hafter.2 hk⟩

/-- every process is being killed when the shutdown sends SIGTERM: the assertion of `signalTerm` fails, and a record
goes from KILLING back to EXITING -/
theorem term_after_kill : ∃ s, Reached (stillEnv 0) (startAll ++ killAll ++ [.processStop]) s ∧
    .signalTermState ∈ s.failed ∧ (0, .killing, .exiting) ∈ s.writes ∧ ¬ Lifecycle s := by
  obtain ⟨s, hs, hf⟩ := exists_reached (stillEnv 0) 0 (startAll ++ killAll ++ [.processStop])
    (fun s => decide (.signalTermState ∈ s.failed) && decide ((0, .killing, .exiting) ∈ s.writes)) (by decide +kernel)
  simp only [Bool.and_eq_true, decide_eq_true_eq] at hf
  exact ⟨s, ⟨_, hs⟩, hf.1, hf.2, fun hl => hl.term hf.1⟩

end LinuxDrv.Pdm
