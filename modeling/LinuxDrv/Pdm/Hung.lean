/-
A process that hangs is replaced: the way through the live check, the kill timer and the start timer.

A live check that finds too few acks takes the record to `s_listKilling`. Two stages follow, in which any other
callbacks may come:
- `killing_released`, `run_freed`: in its turn the record goes back to the pool, so its manager has no child any more,
  or was served in the meantime;
- `waiting_served`: a manager without a child waits for the start timer, and is served in its turn.
`hung_replaced` puts them together. As many ticks of each timer as there are managers suffice.
-/
import LinuxDrv.Pdm.Supervise

namespace LinuxDrv.Pdm

open LinuxDrv.Core Relation

variable {ε μ : Type} {E : Env ε μ} {s t u v s₀ : St ε} {p : MngId} {r : RecId}

/-! ## From the live check to the release -/

/-- a live check takes a process that has missed too many acks to `s_listKilling`, and its manager keeps it -/
theorem sCheckLiveState_hung (h : Core s) (hn : s.needKillPrc = true) (hp : s.chld p = some r)
    (hm : r ∈ s.lists .normal) (hmiss : Missed (s.rt r)) (ht : RtPrcInfo.sCheckLiveState E s = .ok t) (hct : Core t) :
    t.chld p = some r ∧ r ∈ t.lists .killing := by
  obtain ⟨-, hx⟩ | ⟨t', ht', hchecked⟩ := sCheckLiveState_cases (E := E) h.wf hn
  · rw [hx] at ht
    cases ht
  · rw [ht'] at ht
    cases ht
    constructor
    · rw [hct.assoc, hchecked.rt, if_pos hm]
      exact (h.assoc p r).1 hp
    · rw [hchecked.mem, if_pos ⟨hm, hmiss⟩]

/-- a manager keeps its child, which is not released, or it loses it -/
theorem runtime_child (hcore : Core s) (hm : Runtime E ValidType s t) (hc : s.chld p = some r) :
    (t.chld p = some r ∧ ¬ Since s.writes (TakenOut .killing r) t.writes) ∨ t.chld p = none := by
  have h0 : ¬ Since s.writes (TakenOut .killing r) s.writes := Since.not_refl
  have hsignal : ∀ {r' old new}, new ≠ .null → new.rank ≤ PrcRtState.killing.rank →
      ¬ Since s.writes (TakenOut .killing r) ((r', old, new) :: s.writes) := by
    intro r' old new hnull hrank hs
    rcases hs.of_cons.2 with h | h
    · exact hnull h
    · exact absurd h (not_lt.2 hrank)
  have hstop : ∀ {q r'}, s.chld q = some r' → t.chld = Function.update s.chld q none →
      t.writes = (r', (s.rt r').state, .null) :: s.writes →
      (t.chld p = some r ∧ ¬ Since s.writes (TakenOut .killing r) t.writes) ∨ t.chld p = none := by
    intro q r' hq ht hw
    by_cases hpq : p = q
    · subst hpq
      exact Or.inr (by rw [ht, Function.update_self])
    · refine Or.inl ⟨by rw [ht, Function.update_of_ne hpq, hc], fun hs => hpq ?_⟩
      rw [hw] at hs
      obtain rfl : r' = r := hs.of_cons.1
      exact hcore.chld_inj hc hq
  rcases hm with hm | hm
  · cases hm with
    | outside | timerOff | noStart | waitFail | counts | filter | goneKeep | goneWait | come | errPath =>
      exact Or.inl ⟨hc, h0⟩
    | capture q r' name pid e F hq =>
      have hpq : p ≠ q := by
        rintro rfl
        rw [hcore.link p hq] at hc
        cases hc
      exact Or.inl ⟨(Function.update_of_ne hpq ..).trans hc, hsignal (by simp) (by decide)⟩
    | stopStat i r' w e F hq => exact hstop hq rfl rfl
    | stopOff i r' w e ret e' F hq => exact hstop hq rfl rfl
    | stopLost i r' w e ret e' ret' e'' F hq => exact hstop hq rfl rfl
    | stopAgain i r' w e ret e' ret' e'' F hq => exact hstop hq rfl rfl
    | kill => exact Or.inl ⟨hc, hsignal (by simp) le_rfl⟩
    | goneTerm => exact Or.inl ⟨hc, hsignal (by simp) (by decide)⟩
  · cases hm with
    | reap => exact Or.inl ⟨hc, h0⟩

/-- a manager without a child gets one only by being served -/
theorem runtime_childless (hm : Runtime E ValidType s t) (hc : s.chld p = none) :
    t.chld p = none ∨ Since s.trace (Served p) t.trace := by
  have hstop : ∀ {q}, t.chld = Function.update s.chld q none → t.chld p = none := by
    intro q ht
    by_cases hpq : p = q
    · rw [ht, hpq, Function.update_self]
    · rw [ht, Function.update_of_ne hpq, hc]
  rcases hm with hm | hm
  · cases hm with
    | outside | timerOff | noStart | waitFail | counts | filter | goneKeep | goneWait | come | errPath | kill
    | goneTerm => exact Or.inl hc
    | capture q r name pid e F =>
      by_cases hpq : p = q
      · exact Or.inr (Since.cons (P := Served p) hpq.symm List.suffix_rfl)
      · exact Or.inl ((Function.update_of_ne hpq ..).trans hc)
    | stopStat | stopOff | stopLost | stopAgain => exact Or.inl (hstop rfl)
  · cases hm with
    | reap => exact Or.inl hc

/-- since `s₀` the manager has kept child `r`, which was not released; or it has none; or it was served -/
structure Freed (p : MngId) (r : RecId) (s₀ s : St ε) : Prop where
  trace : s₀.trace <:+ s.trace
  writes : s₀.writes <:+ s.writes
  child : (s.chld p = some r ∧ ¬ Since s₀.writes (TakenOut .killing r) s.writes) ∨ s.chld p = none ∨
    Since s₀.trace (Served p) s.trace

theorem runtime_freed (hcore : Core s) (hm : Runtime E ValidType s t) (h : Freed p r s₀ s) : Freed p r s₀ t := by
  have htrace : s.trace <:+ t.trace := hm.elim move_trace move_trace
  have hwrites : s.writes <:+ t.writes := hm.elim move_writes move_writes
  refine ⟨h.trace.trans htrace, h.writes.trans hwrites, ?_⟩
  rcases h.child with ⟨hc, hno⟩ | hc | hserved
  · rcases runtime_child hcore hm hc with ⟨hct, hnot⟩ | hct
    · exact Or.inl ⟨hct, fun hs => (hs.split h.writes hwrites).elim hno hnot⟩
    · exact Or.inr (Or.inl hct)
  · rcases runtime_childless hm hc with hct | hserved
    · exact Or.inr (Or.inl hct)
    · exact Or.inr (Or.inr (hserved.weaken h.trace))
  · exact Or.inr (Or.inr (hserved.mono htrace))

theorem run_freed {es : List (Event μ)} (hes : ∀ e ∈ es, e.runtime = true ∧ e.Observes ValidType) (h : Core s)
    (hc : s.chld p = some r) (hrun : run E s es = .ok t) : Freed p r s t := by
  have hs : Freed p r s s := ⟨List.suffix_rfl, List.suffix_rfl, Or.inl ⟨hc, Since.not_refl⟩⟩
  exact (run_runtime_inv (V := ValidType) (I := Freed p r s) (fun _ hx => hx)
    (fun _ _ hcore hm hx => runtime_freed hcore hm hx) hes h hs hrun).2

/-- a process that is being killed is released after as many ticks that release as there are records -/
theorem killing_released {es₀ es : List (Event μ)} (hr : Reached E es₀ s) (hes₀ : ∀ e ∈ es₀, e.runtime = true)
    (hes : ∀ e ∈ es, e.runtime = true ∧ e.Observes ValidType) (hrun : run E s es = .ok t) (hm : r ∈ s.lists .killing)
    (hn : etinSlotMax + maxStaticPrcNum ≤ services (step E) (Releases E) s es) :
    Since s.writes (TakenOut .killing r) t.writes := by
  have hlen : (s.lists .killing).length ≤ etinSlotMax + maxStaticPrcNum := by
    calc (s.lists .killing).length ≤ Fintype.card RecId := (hr.core.wf.nodup .killing).length_le_card
      _ = etinSlotMax + maxStaticPrcNum := by decide
  refine (ending_turn (n := etinSlotMax + maxStaticPrcNum) (Or.inr ⟨rfl, rfl⟩) ?_ hes₀ hr hes hrun ?_).1 hn
  · intro a e b y ys hc hS hb hq
    obtain ⟨hl, hw⟩ := releases_serves hc hS hb hq
    exact ⟨hl, _, _, hw, Or.inl rfl⟩
  · rwa [List.take_of_length_le hlen]

/-! ## From the release to the start -/

/-- **A process that hangs is replaced.** Let a live check in a reachable state find a process that has missed too many
acks. Let as many ticks of the kill timer that find the head of `s_listKilling` ended follow as there are managers, and
then as many ticks of the start timer at which a process can be forked, with any other callbacks in between. If no ioctl
that puts a card on line again has failed when the former are over, and the card of the process, if it is for one, is
there, its manager waits to be started then, unless it was served already; and in the end it was forked again, unless
its card has gone. -/
theorem hung_replaced {es₀ es₁ es₂ : List (Event μ)} (hes₀ : ∀ e ∈ es₀, e.runtime = true ∧ e.Observes ValidType)
    (hr : Reached E es₀ s) (hneed : s.needKillPrc = true) (hp : s.chld p = some r) (hm : r ∈ s.lists .normal)
    (hmiss : Missed (s.rt r)) (hcheck : step E s .sCheckLiveState = .ok t)
    (hes₁ : ∀ e ∈ es₁, e.runtime = true ∧ e.Observes ValidType) (hrun₁ : run E t es₁ = .ok u)
    (hkill : etinSlotMax + maxStaticPrcNum ≤ services (step E) (Releases E) t es₁) (hok : RestartsOk u.trace)
    (hcard : Wanted u p) (hes₂ : ∀ e ∈ es₂, e.runtime = true ∧ e.Observes ValidType) (hrun₂ : run E u es₂ = .ok v) :
    (p ∈ u.list2Start ∨ Since t.trace (Served p) u.trace) ∧
    (etinSlotMax + maxStaticPrcNum ≤ services (step E) (Starts E) u es₂ → Since t.trace (Served p) v.trace) := by
  have hrt : Reached E (es₀ ++ [.sCheckLiveState]) t := hr.append ((run_one s _).trans hcheck)
  have hest : ∀ e ∈ es₀ ++ [Event.sCheckLiveState], e.runtime = true ∧ e.Observes ValidType := by
    intro e he
    rcases List.mem_append.1 he with he | he
    · exact hes₀ e he
    · rw [List.mem_singleton.1 he]
      exact ⟨rfl, trivial⟩
  have hru : Reached E (es₀ ++ [.sCheckLiveState] ++ es₁) u := hrt.append hrun₁
  have hesu : ∀ e ∈ es₀ ++ [Event.sCheckLiveState] ++ es₁, e.runtime = true ∧ e.Observes ValidType := fun e he =>
    (List.mem_append.1 he).elim (hest e) (hes₁ e)
  -- the record is killed, and then released
  obtain ⟨hpt, hkt⟩ := sCheckLiveState_hung hr.core hneed hp hm hmiss hcheck hrt.core
  have hout := killing_released hrt (fun e he => (hest e he).1) hes₁ hrun₁ hkt hkill
  have hfreed := run_freed hes₁ hrt.core hpt hrun₁
  obtain ⟨-, htrace⟩ := run_trace hrun₂ (fun e he => (hes₂ e he).1) hru.core
  rcases hfreed.child with ⟨-, hno⟩ | hnone | hserved
  · exact absurd hout hno
  · have hwait : p ∈ u.list2Start := (hru.schedule fun e he => (hesu e he).1).2.waiting hok p hnone hcard
    exact ⟨Or.inl hwait, fun hn => (waiting_served hru hesu hes₂ hrun₂ hwait hn).weaken hfreed.trace⟩
  · exact ⟨Or.inr hserved, fun _ => hserved.mono htrace⟩

/-- five ticks that all processes but one answer -/
def oneHangs : List (Event ℤ) :=
  startAll ++ List.replicate 5 .sHello4Live ++ List.ofFn fun k : Fin 5 => .sUpdateLiveState (k + 1)

/-- the process of the card does not answer, and another one is forked for the card -/
theorem hung_replaced_mio : ∃ s t u v, ReachedFrom World.env World.fresh oneHangs s ∧
    s.lists .normal = [0, 1, 2, 3, 4, 5] ∧ step World.env s .sCheckLiveState = .ok t ∧ t.lists .killing = [5] ∧
    run World.env t (List.replicate 7 .sCheckKillTimeout) = .ok u ∧
    run World.env u (List.replicate 7 .sCheckNeedStart) = .ok v ∧ Since t.trace (Served (.dyn 1)) v.trace := by
  obtain ⟨s, hs, hf⟩ := exists_reached World.env World.fresh oneHangs
    (fun s : St World => decide (s.chld (.dyn 1) = some 5 ∧ s.lists .normal = [0, 1, 2, 3, 4, 5] ∧
        s.needKillPrc = true ∧ Missed (s.rt 5)) &&
      (step World.env s .sCheckLiveState).toOption.any fun t : St World => decide (t.lists .killing = [5]) &&
        decide (7 ≤ services (step World.env) (Releases World.env) t (List.replicate 7 .sCheckKillTimeout)) &&
        (run World.env t (List.replicate 7 .sCheckKillTimeout)).toOption.any fun u : St World =>
          decide (RestartsOk u.trace) && decide ((u.dyn 1).cardType ≠ etindevNull) &&
          decide (7 ≤ services (step World.env) (Starts World.env) u (List.replicate 7 .sCheckNeedStart)) &&
          (run World.env u (List.replicate 7 .sCheckNeedStart)).toOption.isSome) (by decide +kernel)
  cases ht : step World.env s .sCheckLiveState with
  | error x =>
    rw [ht] at hf
    simp [Except.toOption] at hf
  | ok t =>
    rw [ht] at hf
    simp only [Except.toOption, Option.any_some, Bool.and_eq_true, decide_eq_true_eq] at hf
    obtain ⟨⟨hp, hnormal, hneed, hmiss⟩, ⟨hkilling, hkill⟩, hf⟩ := hf
    cases hu : run World.env t (List.replicate 7 .sCheckKillTimeout) with
    | error x =>
      rw [hu] at hf
      cases hf
    | ok u =>
      rw [hu] at hf
      simp only [Option.any_some, Bool.and_eq_true, decide_eq_true_eq] at hf
      obtain ⟨⟨⟨hok, hcard⟩, hstart⟩, hf⟩ := hf
      cases hv : run World.env u (List.replicate 7 .sCheckNeedStart) with
      | error x =>
        rw [hv] at hf
        cases hf
      | ok v =>
        have hend := hung_replaced (by decide) ⟨_, hs⟩ hneed hp (by simp [hnormal]) hmiss ht (by decide) hu hkill hok
          hcard (by decide) hv
        exact ⟨s, t, u, v, hs, hnormal, ht, hkilling, hu, hv, hend.2 hstart⟩

end LinuxDrv.Pdm
