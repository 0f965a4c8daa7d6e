/-
The records of `s_preAllPool`: list, state, pid and counters agree in every run up to `CProcessPdm::Stop`.

- `Agree s`: a record is in the list of its state, has pid -1 iff it is in the pool, counts hellos only in
  `s_listNormal`, and no assertion about the state of a record has failed.
- `runtime_agree`: every move of a callback keeps it, whatever fork, waitpid and the ioctls return. The two statements
  that matter, the write of the state and the move to the list, are one move.
- `list_state_agreement`: so it holds after `sInitPool` and in every state a run of callbacks reaches.
The shutdown path does not keep it: `Term4Stop` and `Kill4Stop` write the state of a record and leave it in its list.
-/
import LinuxDrv.Pdm.Outcomes

namespace LinuxDrv.Pdm

open LinuxDrv.Core

variable {ε μ : Type} {E : Env ε μ} {V : ETinDev → Prop} {s t : St ε}

/-- the state of the records of a list -/
def ListId.state : ListId → PrcRtState
  | pool => .null
  | normal => .normal
  | exiting => .exiting
  | killing => .killing

theorem ListId.state_injective : Function.Injective ListId.state := by
  intro l l' h
  cases l <;> cases l' <;> first | rfl | cases h

structure Agree (s : St ε) : Prop where
  state : ∀ l r, r ∈ s.lists l → (s.rt r).state = l.state
  pid : ∀ r, (s.rt r).pid = -1 ↔ r ∈ s.lists .pool
  times : ∀ r, r ∉ s.lists .normal → (s.rt r).nExpTimes = 0 ∧ (s.rt r).nRealTimes = 0
  asserts : ∀ a ∈ s.failed, a ∉ recordAsserts

namespace Agree

/-- nothing the invariant reads changed -/
theorem congr (h : Agree s) (hr : t.rt = s.rt) (hl : t.lists = s.lists) (hF : ∀ a ∈ t.failed, a ∉ recordAsserts) :
    Agree t := by
  refine ⟨?_, ?_, ?_, hF⟩
  · rw [hr, hl]; exact h.state
  · rw [hr, hl]; exact h.pid
  · rw [hr, hl]; exact h.times

/-- assertions that the record meets do not fail -/
theorem fails (h : Agree s) {r : RecId} {l F : List Assert} (hF : Fails s r l F)
    (hl : ∀ a ∈ l, ¬ Breaks (s.rt r) a) : ∀ a ∈ F, a ∉ recordAsserts := by
  intro a ha hrec
  rcases hF a ha with h' | h' | ⟨h', hb⟩
  · exact h.asserts a h' hrec
  · fin_cases hrec <;> cases h'
  · exact hl a h' hb

theorem failsErr (h : Agree s) {F : List Assert} (hF : FailsErr s F) : ∀ a ∈ F, a ∉ recordAsserts := by
  intro a ha hrec
  rcases hF a ha with h' | h'
  · exact h.asserts a h' hrec
  · fin_cases hrec <;> cases h'

/-- a record of the pool meets the assertions of `start` -/
theorem start_asserts (h : Agree s) (hwf : s.lists.Wf) {r : RecId} (hr : r ∈ s.lists .pool) :
    ∀ a ∈ [Assert.startState, .startPid, .startExp, .startReal], ¬ Breaks (s.rt r) a := by
  have hn : r ∉ s.lists .normal := fun hn => by cases hwf.disj _ _ r hn hr
  have hst := h.state .pool r hr
  have hpid := (h.pid r).2 hr
  obtain ⟨hexp, hreal⟩ := h.times r hn
  intro a ha
  fin_cases ha <;> simp [Breaks, hst, hpid, hexp, hreal, ListId.state]

/-- a child meets the assertion of `stop` -/
theorem stop_asserts (h : Agree s) (hc : Core s) {p : MngId} {r : RecId} (hr : s.chld p = some r) :
    ∀ a ∈ [Assert.stopState], ¬ Breaks (s.rt r) a := by
  intro a ha
  obtain ⟨l, hl⟩ := hc.total r
  have hne : l ≠ .pool := fun he => hc.chld_not_pool hr (he ▸ hl)
  rw [List.mem_singleton.1 ha]
  show ¬ (s.rt r).state = .null
  rw [h.state l r hl]
  exact fun he => hne (ListId.state_injective he)

/-- record `r` is moved to list `l` and gets the state of that list -/
theorem accept (h : Agree s) {l : ListId} {r : RecId} {x : RtPrcInfo} (hl : t.lists = s.lists.accept l r)
    (hr : t.rt = Function.update s.rt r x) (hst : x.state = l.state) (hpid : x.pid = -1 ↔ l = .pool)
    (htimes : l ≠ .normal → x.nExpTimes = 0 ∧ x.nRealTimes = 0) (hF : ∀ a ∈ t.failed, a ∉ recordAsserts) :
    Agree t := by
  refine ⟨?_, ?_, ?_, hF⟩
  · intro l' r' hr'
    rw [hl, Lists.mem_accept] at hr'
    rcases hr' with ⟨hr', hne⟩ | ⟨rfl, rfl⟩
    · rw [hr, Function.update_of_ne hne]
      exact h.state l' r' hr'
    · rw [hr, Function.update_self]
      exact hst
  · intro r'
    rw [hl, hr, Lists.mem_accept]
    by_cases hne : r' = r
    · subst hne
      simpa [eq_comm] using hpid
    · simpa [hne] using h.pid r'
  · intro r' hr'
    rw [hl, Lists.mem_accept, not_or] at hr'
    rw [hr]
    by_cases hne : r' = r
    · subst hne
      rw [Function.update_self]
      exact htimes fun he => hr'.2 ⟨rfl, he.symm⟩
    · rw [Function.update_of_ne hne]
      exact h.times r' fun hm => hr'.1 ⟨hm, hne⟩

/-- the manager's child is released to the pool -/
theorem released (h : Agree s) (hc : Core s) {p : MngId} {r : RecId} (hr : s.chld p = some r) {F : List Assert}
    (hF : Fails s r [.stopState] F) (hl : t.lists = s.lists.accept .pool r)
    (hrt : t.rt = Function.update s.rt r ⟨.null, -1, 0, 0, none⟩) (hf : t.failed = F) : Agree t :=
  h.accept hl hrt rfl (by simp) (fun _ => ⟨rfl, rfl⟩) (hf ▸ h.fails hF (h.stop_asserts hc hr))

/-- a record outside the pool has a pid -/
theorem pid_ne (h : Agree s) (hwf : s.lists.Wf) {l : ListId} (hl : l ≠ .pool) {r : RecId} (hr : r ∈ s.lists l) :
    (s.rt r).pid ≠ -1 := fun he => hl (hwf.disj l .pool r hr ((h.pid r).1 he))

end Agree

/-- every move of a callback keeps the agreement -/
theorem runtime_agree (hc : Core s) (hm : Runtime E V s t) (h : Agree s) : Agree t := by
  rcases hm with hm | hm
  · cases hm with
    | outside | timerOff | filter | goneWait => exact h.congr rfl rfl h.asserts
    | noStart e F _ r hr hF => exact h.congr rfl rfl (h.fails hF (h.start_asserts hc.wf hr))
    | capture p r name pid e F _ hr _ _ hF =>
      refine h.accept rfl rfl rfl ?_ (fun hn => absurd rfl hn) (h.fails hF (h.start_asserts hc.wf hr))
      have := pid.2
      simp only [reduceCtorEq, iff_false]
      omega
    | waitFail p r w e F hr _ _ hF => exact h.congr rfl rfl (h.fails hF (h.stop_asserts hc hr))
    | stopStat i r w e F hr _ _ hF => exact h.released hc hr hF rfl rfl rfl
    | stopOff i r w e ret e' F hr _ _ _ _ hF => exact h.released hc hr hF rfl rfl rfl
    | stopLost i r w e ret e' ret' e'' F hr _ _ _ _ _ _ _ hF => exact h.released hc hr hF rfl rfl rfl
    | stopAgain i r w e ret e' ret' e'' F hr _ _ _ _ _ _ _ hF => exact h.released hc hr hF rfl rfl rfl
    | kill r k e F hr _ _ _ hF =>
      refine h.accept (l := .killing) (r := r) rfl (Function.update_idem ..)
        (by simp [St.signalled, ListId.state]) ?_ (fun _ => ⟨rfl, rfl⟩) (h.fails hF ?_)
      · have hpid : (s.rt r).pid ≠ -1 := by
          rcases hr with hr | hr
          · exact h.pid_ne hc.wf (by simp) hr
          · exact h.pid_ne hc.wf (by simp) hr
        simpa [St.signalled] using hpid
      · intro a ha
        rw [List.mem_singleton.1 ha]
        intro hx
        obtain ⟨h₁, h₂⟩ := hx
        rcases hr with hr | hr
        · exact h₁ (h.state _ r hr)
        · exact h₂ (h.state _ r hr)
    | counts r x y F hr hF =>
      have hne : ∀ r', r' ∉ s.lists .normal → r' ≠ r := fun r' hr' he => hr' (he ▸ hr)
      refine ⟨?_, ?_, ?_, h.fails hF ?_⟩
      · intro l r' hr'
        by_cases he : r' = r
        · subst he; simpa [St.setRt] using h.state l r' hr'
        · simpa [St.setRt, he] using h.state l r' hr'
      · intro r'
        by_cases he : r' = r
        · subst he; simpa [St.setRt] using h.pid r'
        · simpa [St.setRt, he] using h.pid r'
      · intro r' hr'
        simpa [St.setRt, hne r' hr'] using h.times r' hr'
      · intro a ha
        rw [List.mem_singleton.1 ha]
        exact fun hno => hno (h.state _ r hr)
    | goneTerm i r k e F _ hr _ _ _ hF =>
      refine h.accept (l := .exiting) (r := r) rfl (Function.update_idem ..)
        (by simp [St.signalled, ListId.state]) ?_ (fun _ => ⟨rfl, rfl⟩) (h.fails hF fun a ha => by cases ha)
      obtain ⟨l, hl⟩ := hc.total r
      have hpid := h.pid_ne hc.wf (fun he => hc.chld_not_pool hr (he ▸ hl)) hl
      simpa [St.signalled, St.cardOff, St.setDyn] using hpid
    | goneKeep i r F _ hr _ hF =>
      refine h.congr rfl rfl (h.fails hF ?_)
      intro a ha
      rw [List.mem_singleton.1 ha]
      exact h.stop_asserts hc hr .stopState List.mem_cons_self
    | come i new ret e F _ _ _ _ _ hF => exact h.congr rfl rfl (h.failsErr hF)
    | errPath F hF => exact h.congr rfl rfl (h.failsErr hF)
  · cases hm with
    | reap => exact h.congr rfl rfl h.asserts

theorem ready_agree (timer : TimerId → Bool) (needKillPrc : Bool) (exeName : Option String) (selfSlot : ℤ) (env : ε) :
    Agree (boot timer needKillPrc exeName selfSlot env).ready := by
  refine ⟨?_, ?_, fun _ _ => ⟨rfl, rfl⟩, fun _ ha => absurd ha List.not_mem_nil⟩
  · intro l r hr
    cases l with
    | pool => rfl
    | _ => simp [St.ready] at hr
  · intro r
    simp [St.ready, boot]

/-- what the lists, the states, the pids and the counters say of the records -/
structure ListState (s : St ε) : Prop where
  once : ∀ r, ∃! l, r ∈ s.lists l
  nodup : ∀ l, (s.lists l).Nodup
  state : ∀ l r, r ∈ s.lists l ↔ (s.rt r).state = l.state
  pid : ∀ r, (s.rt r).pid = -1 ↔ r ∈ s.lists .pool
  times : ∀ r, r ∉ s.lists .normal → (s.rt r).nExpTimes = 0 ∧ (s.rt r).nRealTimes = 0

theorem Agree.listState (h : Agree s) (hwf : s.lists.Wf) (htotal : ∀ r, ∃ l, r ∈ s.lists l) : ListState s := by
  refine ⟨?_, hwf.nodup, fun l r => ⟨h.state l r, ?_⟩, h.pid, h.times⟩
  · intro r
    obtain ⟨l, hl⟩ := htotal r
    exact ⟨l, hl, fun l' hl' => hwf.disj l' l r hl' hl⟩
  · intro hst
    obtain ⟨l', hl'⟩ := htotal r
    have : l = l' := ListId.state_injective (hst.symm.trans (h.state l' r hl'))
    exact this ▸ hl'

theorem Reached.agree {es : List (Event μ)} (hr : Reached E es s) (hes : ∀ e ∈ es, e.runtime = true) :
    Core s ∧ Agree s :=
  hr.runtime_inv hes ready_agree fun _ _ hc hm h => runtime_agree hc hm h

/-- **List and state agree.** After `sInitPool`, and in every state that callbacks reach before `CProcessPdm::Stop`, in
any order and whatever fork, waitpid and the ioctls return, every record is linked once, in the list of its state; it
has pid -1 iff it is in the pool and counts nothing outside `s_listNormal`; and no assertion about the state of a record
has failed. -/
theorem list_state_agreement (E : Env ε μ) :
    (∀ timer needKillPrc exeName selfSlot env,
      ListState (RtPrcInfo.sInitPool (boot timer needKillPrc exeName selfSlot (env : ε)))) ∧
    ∀ es s, (∀ e ∈ es, e.runtime = true) → Reached E es s → ListState s ∧ ∀ a ∈ recordAsserts, a ∉ s.failed := by
  refine ⟨?_, ?_⟩
  · intro timer needKillPrc exeName selfSlot env
    have hc := ready_core timer needKillPrc exeName selfSlot env
    have ha := ready_agree timer needKillPrc exeName selfSlot env
    rw [sInitPool_boot]
    exact (ha.congr (t := { boot timer needKillPrc exeName selfSlot env with lists := _ }) rfl rfl ha.asserts).listState
      hc.wf hc.total
  · intro es s hes hr
    obtain ⟨hc, ha⟩ := hr.agree hes
    exact ⟨ha.listState hc.wf hc.total, fun a hrec hf => ha.asserts a hf hrec⟩

/-- every process is started and killed -/
theorem list_state_agreement_killed : ∃ s, Reached (stillEnv 0) (startAll ++ killAll) s ∧
    ListState s ∧ ∀ a ∈ recordAsserts, a ∉ s.failed := by
  obtain ⟨s, hs, -⟩ := exists_reached (stillEnv 0) 0 (startAll ++ killAll)
    (fun _ => true) (by decide +kernel)
  exact ⟨s, ⟨_, hs⟩, (list_state_agreement (stillEnv 0)).2 _ s (by decide) ⟨_, hs⟩⟩

end LinuxDrv.Pdm
