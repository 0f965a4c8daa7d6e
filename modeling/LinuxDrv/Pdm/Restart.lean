/-
No lost restart: a manager that wants a process and has none waits in `s_list2Start`, and a timer whose list is not
empty runs.

- `TimersRun`: a timer is started on an emptiness test made before the insertion, and stopped by a callback that finds
  its list empty. Every run of callbacks keeps it, whatever the environment answers.
- `Waiting`: a manager without a child waits, if it is static or has a card. `CDynamicPrcMngInfo::subStop` breaks it
  when one of its ioctls fails after the process is released: it returns before `addIn2Start`. `RestartsOk` says that no
  ioctl of a stop that is to be followed by a restart has failed.
- `no_lost_restart`: with ioctls that succeed, the list to start is exactly the managers that want a process.
- `subStop_done_iff`: a stop leaves its manager as it should exactly when it is `StopFine`; `subStop_lost_unlinked` is a
  run in which it does not, and the next unplug of the card dereferences NULL.
-/
import LinuxDrv.Pdm.Outcomes

namespace LinuxDrv.Pdm

open LinuxDrv.Core Relation

variable {ε μ : Type} {E : Env ε μ} {V : ETinDev → Prop} {s t : St ε}

/-! ## Timers -/

/-- a timer whose list is not empty runs -/
def TimersRun (s : St ε) : Prop := ∀ tm, ¬ TimerIdle s tm → s.timer tm = true

namespace TimersRun

/-- the lists at most shrink -/
theorem shrink (h : TimersRun s) (ht : t.timer = s.timer) (hi : ∀ tm, TimerIdle s tm → TimerIdle t tm) :
    TimersRun t := fun tm hn => ht ▸ h tm fun hs => hn (hi tm hs)

theorem captured (h : TimersRun s) (p : MngId) (r : RecId) (argv : List (Option String)) (pid : ℤ) (e : ε) :
    TimersRun (s.captured p r argv pid e) := by
  refine h.shrink rfl fun tm hi => ?_
  cases tm with
  | start =>
    show s.list2Start.filter _ = []
    rw [show s.list2Start = [] from hi, List.filter_nil]
  | term => exact Lists.accept_nil (L := s.lists) (l := .normal) (by decide) r hi
  | kill => exact Lists.accept_nil (L := s.lists) (l := .normal) (by decide) r hi

theorem released (h : TimersRun s) (p : MngId) (r : RecId) (ret : ℤ) (e : ε) : TimersRun (s.released p r ret e) := by
  refine h.shrink rfl fun tm hi => ?_
  cases tm with
  | start => exact hi
  | term => exact Lists.accept_nil (L := s.lists) (l := .pool) (by decide) r hi
  | kill => exact Lists.accept_nil (L := s.lists) (l := .pool) (by decide) r hi

theorem linked (h : TimersRun s) (p : MngId) : TimersRun (s.linked p) := by
  intro tm hn
  by_cases h0 : s.list2Start = []
  · -- the list was empty: its timer is started, the others are as they were
    simp only [St.linked, h0, ↓reduceIte]
    cases tm with
    | start => exact Function.update_self ..
    | term => exact (Function.update_of_ne (by simp) ..).trans (h .term hn)
    | kill => exact (Function.update_of_ne (by simp) ..).trans (h .kill hn)
  · simp only [St.linked, h0, ↓reduceIte]
    cases tm with
    | start => exact h .start h0
    | term => exact h .term hn
    | kill => exact h .kill hn

/-- the list of a timer that a move to list `l` starts -/
def forList (l : ListId) (tm : TimerId) : Prop := (l = .exiting ∧ tm = .term) ∨ (l = .killing ∧ tm = .kill)

theorem moved (h : TimersRun s) {l : ListId} {tm : TimerId} (hl : forList l tm) (r : RecId) :
    TimersRun (s.moved l tm r) := by
  have hidle : TimerIdle s tm ↔ s.lists l = [] := by
    rcases hl with ⟨rfl, rfl⟩ | ⟨rfl, rfl⟩ <;> rfl
  have hother : ∀ tm', tm' ≠ tm → TimerIdle s tm' → TimerIdle (s.moved l tm r) tm' := by
    intro tm' hne hi
    rcases hl with ⟨rfl, rfl⟩ | ⟨rfl, rfl⟩
    · cases tm' with
      | start => exact hi
      | term => exact absurd rfl hne
      | kill => exact Lists.accept_nil (L := s.lists) (l := .exiting) (by decide) r hi
    · cases tm' with
      | start => exact hi
      | term => exact Lists.accept_nil (L := s.lists) (l := .killing) (by decide) r hi
      | kill => exact absurd rfl hne
  intro tm' hn
  by_cases hne : tm' = tm
  · subst hne
    by_cases h0 : s.lists l = []
    · simp [St.moved, h0]
    · simpa [St.moved, h0] using h tm' (mt hidle.1 h0)
  · have ht := h tm' fun hs => hn (hother tm' hne hs)
    by_cases h0 : s.lists l = []
    · simpa [St.moved, h0, hne] using ht
    · simpa [St.moved, h0] using ht

end TimersRun

/-- every move of a callback keeps the timers running -/
theorem runtime_timersRun (hm : Runtime E V s t) (h : TimersRun s) : TimersRun t := by
  rcases hm with hm | hm
  · cases hm with
    | outside | noStart | waitFail | counts | filter | goneKeep | errPath => exact h
    | timerOff tm hi =>
      intro tm' hn
      have hne : tm' ≠ tm := by
        rintro rfl
        exact hn (by cases tm' <;> exact hi)
      exact (Function.update_of_ne hne ..).trans (h tm' (by cases tm' <;> exact hn))
    | capture p r name pid e F => exact h.captured p r (PrcMngInfo.argv s name p) pid e
    | stopStat i r w e F => exact (h.released (.stat i) r w.pid e).linked (.stat i)
    | stopOff i r w e ret e' F => exact h.released (.dyn i) r w.pid e
    | stopLost i r w e ret e' ret' e'' F => exact h.released (.dyn i) r w.pid e
    | stopAgain i r w e ret e' ret' e'' F => exact (h.released (.dyn i) r w.pid e).linked (.dyn i)
    | kill r k e F =>
      have hs : TimersRun (s.signalled r .sigkill .killing e) := h
      exact hs.moved (Or.inr ⟨rfl, rfl⟩) r
    | goneTerm i r k e F =>
      have hs : TimersRun ((s.cardOff i).signalled r .sigterm .exiting e) := h
      exact hs.moved (Or.inl ⟨rfl, rfl⟩) r
    | goneWait i ret e =>
      refine h.shrink rfl fun tm hi => ?_
      cases tm with
      | start =>
        show s.list2Start.filter _ = []
        rw [show s.list2Start = [] from hi, List.filter_nil]
      | term => exact hi
      | kill => exact hi
    | come i new ret e F =>
      have hs : TimersRun (s.setDyn i ⟨new, etindevNull, 0⟩) := h
      exact hs.linked (.dyn i)
  · cases hm with
    | reap => exact h

/-! ## Managers that wait -/

/-- the manager wants a process -/
def Wanted (s : St ε) : MngId → Prop
  | .stat _ => True
  | .dyn i => (s.dyn i).cardType ≠ etindevNull

/-- a manager that wants a process and has none waits for its start -/
def Waiting (s : St ε) : Prop := ∀ p, s.chld p = none → Wanted s p → p ∈ s.list2Start

/-- the call is not an ioctl that failed in a stop which a restart was to follow -/
def RestartOk : Call ε → Prop
  | .ioctl (.subStop true) _ ret _ => 0 ≤ ret
  | _ => True

/-- no ioctl of a stop that a restart was to follow has failed -/
def RestartsOk (tr : List (Call ε)) : Prop := ∀ c ∈ tr, RestartOk c

instance : (c : Call ε) → Decidable (RestartOk c)
  | .ioctl (.subStop true) _ ret _ => inferInstanceAs (Decidable (0 ≤ ret))
  | .ioctl (.subStop false) .. | .ioctl .handleNewType .. | .fork .. | .waitpid .. | .kill .. => isTrue trivial

instance (tr : List (Call ε)) : Decidable (RestartsOk tr) := inferInstanceAs (Decidable (∀ c ∈ tr, RestartOk c))

theorem restartsOk_cons {c : Call ε} {tr : List (Call ε)} : RestartsOk (c :: tr) ↔ RestartOk c ∧ RestartsOk tr :=
  List.forall_mem_cons

theorem restartOk_subStop {again : Bool} {arg : DevMngDrvData} {ret : ℤ} {w : ε} :
    RestartOk (.ioctl (.subStop again) arg ret w) ↔ (again = true → 0 ≤ ret) := by
  cases again with
  | false => exact ⟨fun _ h => Bool.noConfusion h, fun _ => trivial⟩
  | true => exact ⟨fun h _ => h, fun h => h rfl⟩

/-- the history of calls only grows -/
theorem move_trace {k : Kind} (hm : Move E V k s t) : s.trace <:+ t.trace := by
  cases hm with
  | outside | timerOff | noStart | counts | filter | goneKeep | errPath | sleep | setExit | ioctlInt | timersOff =>
    exact List.suffix_rfl
  | capture | waitFail | stopStat | kill | goneTerm | goneWait | come | reap | signal => exact List.suffix_cons ..
  | stopOff => exact ⟨[_, _], rfl⟩
  | stopLost => exact ⟨[_, _, _], rfl⟩
  | stopAgain => exact ⟨[_, _, _], rfl⟩

theorem RestartsOk.suffix {tr tr' : List (Call ε)} (h : RestartsOk tr') (hs : tr <:+ tr') : RestartsOk tr :=
  fun c hm => h c (hs.subset hm)

namespace Waiting

/-- nothing the invariant reads changed -/
theorem congr (h : Waiting s) (hc : t.chld = s.chld) (h2 : t.list2Start = s.list2Start)
    (hd : ∀ i, (t.dyn i).cardType = (s.dyn i).cardType) : Waiting t := by
  intro p hp hw
  rw [h2]
  refine h p (hc ▸ hp) ?_
  cases p with
  | stat i => trivial
  | dyn i => exact fun he => hw ((hd i).trans he)

theorem captured (h : Waiting s) (p : MngId) (r : RecId) (argv : List (Option String)) (pid : ℤ) (e : ε) :
    Waiting (s.captured p r argv pid e) := by
  intro q hq hw
  have hne : q ≠ p := by rintro rfl; simp [St.captured] at hq
  have hq' : s.chld q = none := by simpa [St.captured, hne] using hq
  have hmem := h q hq' (by cases q <;> exact hw)
  exact List.mem_filter.2 ⟨hmem, by simpa using hne⟩

/-- a manager that loses its process and is linked, or wants none -/
theorem stopped (h : Waiting s) {p : MngId} (hc : t.chld = Function.update s.chld p none) (hd : t.dyn = s.dyn)
    (h2 : ∀ q ∈ s.list2Start, q ∈ t.list2Start) (hp : Wanted s p → p ∈ t.list2Start) : Waiting t := by
  intro q hq hw
  have hw' : Wanted s q := by
    cases q with
    | stat i => trivial
    | dyn i => exact fun he => hw (hd ▸ he)
  by_cases hne : q = p
  · exact hne ▸ hp (hne ▸ hw')
  · rw [hc, Function.update_of_ne hne] at hq
    exact h2 q (h q hq hw')

/-- the card of a manager changes; if it wants a process it has one or waits -/
theorem setCard (h : Waiting s) {i : SlotId} (hc : t.chld = s.chld) (hd : ∀ j, j ≠ i → t.dyn j = s.dyn j)
    (h2 : ∀ q ∈ s.list2Start, q ≠ .dyn i → q ∈ t.list2Start)
    (hi : (t.dyn i).cardType ≠ etindevNull → MngId.dyn i ∈ t.list2Start) : Waiting t := by
  intro q hq hw
  rw [hc] at hq
  cases q with
  | stat j => exact h2 _ (h _ hq trivial) (by simp)
  | dyn j =>
    by_cases hji : j = i
    · subst hji; exact hi hw
    · refine h2 _ (h _ hq fun he => hw ?_) (by simpa using hji)
      rw [hd j hji]; exact he

end Waiting

/-- every move of a callback keeps the managers waiting, unless an ioctl of a stop fails -/
theorem runtime_waiting (hm : Runtime E V s t) (hx : s.exitFlag = false) (hok : RestartsOk t.trace) (h : Waiting s) :
    Waiting t := by
  rcases hm with hm | hm
  · cases hm with
    | outside | timerOff | noStart | waitFail | errPath => exact h.congr rfl rfl fun _ => rfl
    | counts => exact h.congr rfl rfl fun _ => rfl
    | kill => exact h.congr rfl rfl fun _ => rfl
    | capture p r name pid e F => exact h.captured p r (PrcMngInfo.argv s name p) pid e
    | stopStat i r w e F => exact h.stopped rfl rfl (fun _ hq => List.mem_append_left _ hq) fun _ => by simp [St.linked]
    | stopOff i r w e ret e' F _ _ _ _ hret =>
      refine h.stopped rfl rfl (fun _ hq => hq) fun hw => ?_
      -- with a card the ioctl was followed by a restart, so it succeeded, and the branch was not taken
      have hagain : s.again i = true := St.again_iff.2 ⟨hw, hx⟩
      have hret0 : 0 ≤ ret := by
        exact restartOk_subStop.1 (restartsOk_cons.1 hok).1 hagain
      rcases hret with hret | ⟨-, hret⟩
      · omega
      · rw [hagain] at hret; cases hret
    | stopLost i r w e ret e' ret' e'' F _ _ _ _ _ _ _ hret' =>
      have hret0 : 0 ≤ ret' := (restartsOk_cons.1 hok).1
      omega
    | stopAgain i r w e ret e' ret' e'' F =>
      exact h.stopped rfl rfl (fun _ hq => List.mem_append_left _ hq) fun _ => by simp [St.linked]
    | filter i new cnt =>
      refine h.congr rfl rfl fun j => ?_
      by_cases hji : j = i
      · subst hji; simp [St.setDyn]
      · simp [St.setDyn, hji]
    | goneTerm i r k e F =>
      refine h.setCard (i := i) rfl ?_ (fun _ hq _ => hq) ?_
      · intro j hji
        simp [St.moved, St.signalled, St.cardOff, St.setDyn, hji]
      · intro hno
        simp [St.moved, St.signalled, St.cardOff, St.setDyn] at hno
    | goneKeep i r F =>
      refine h.setCard (i := i) rfl ?_ (fun _ hq _ => hq) ?_
      · intro j hji
        simp [St.cardOff, St.setDyn, hji]
      · intro hno
        simp [St.cardOff, St.setDyn] at hno
    | goneWait i ret e =>
      refine h.setCard (i := i) rfl ?_ ?_ ?_
      · intro j hji
        simp [St.cardOff, St.setDyn, hji]
      · intro q hq hne
        exact List.mem_filter.2 ⟨hq, by simpa using hne⟩
      · intro hno
        simp [St.cardOff, St.setDyn] at hno
    | come i new ret e F =>
      refine h.setCard (i := i) rfl ?_ ?_ ?_
      · intro j hji
        simp [St.linked, St.setDyn, hji]
      · intro q hq _
        exact List.mem_append_left _ hq
      · intro _
        simp [St.linked]
  · cases hm with
    | reap => exact h

/-- callbacks leave `m_sExitFlag` alone -/
theorem runtime_exitFlag (hm : Runtime E V s t) : t.exitFlag = s.exitFlag := by
  rcases hm with hm | hm <;> cases hm <;> rfl

/-! ## Runs -/

/-- what callbacks keep of the schedule -/
structure Schedule (s : St ε) : Prop where
  timers : TimersRun s
  exit : s.exitFlag = false
  waiting : RestartsOk s.trace → Waiting s

theorem runtime_schedule (hm : Runtime E V s t) (h : Schedule s) : Schedule t := by
  refine ⟨runtime_timersRun hm h.timers, (runtime_exitFlag hm).trans h.exit, ?_⟩
  intro hok
  have hsuf : s.trace <:+ t.trace := hm.elim move_trace move_trace
  exact runtime_waiting hm h.exit hok (h.waiting (hok.suffix hsuf))

theorem ready_schedule (timer : TimerId → Bool) (needKillPrc : Bool) (exeName : Option String) (selfSlot : ℤ)
    (env : ε) : Schedule (boot timer needKillPrc exeName selfSlot env).ready := by
  refine ⟨?_, rfl, ?_⟩
  · intro tm hn
    cases tm with
    | start => exact Function.update_self TimerId.start true timer
    | term => exact absurd rfl hn
    | kill => exact absurd rfl hn
  · intro _ p _ hw
    cases p with
    | stat i => exact List.mem_map_of_mem (List.mem_finRange i)
    | dyn i => exact absurd rfl hw

theorem Reached.schedule {es : List (Event μ)} (hr : Reached E es s) (hes : ∀ e ∈ es, e.runtime = true) :
    Core s ∧ Schedule s :=
  hr.runtime_inv hes ready_schedule fun _ _ _ hm h => runtime_schedule hm h

/-- an invariant of callbacks, when every ioctl of the environment succeeds -/
theorem runtime_restartsOk (hio : ∀ arg e, 0 ≤ (E.ioctl arg e).1) (hm : Runtime E V s t) (h : RestartsOk s.trace) :
    RestartsOk t.trace := by
  have hret : ∀ {arg e ret e'}, E.ioctl arg e = (ret, e') → 0 ≤ ret := fun {arg e ret e'} hi => by
    have := hio arg e
    rwa [hi] at this
  rcases hm with hm | hm
  · cases hm with
    | outside | timerOff | noStart | counts | filter | goneKeep | errPath => exact h
    | capture | waitFail | stopStat | kill | goneTerm | goneWait | come => exact restartsOk_cons.2 ⟨trivial, h⟩
    | stopOff i r w e ret e' F _ _ _ hi =>
      exact restartsOk_cons.2 ⟨restartOk_subStop.2 fun _ => hret hi, restartsOk_cons.2 ⟨trivial, h⟩⟩
    | stopLost i r w e ret e' ret' e'' F _ _ _ hi _ _ hi' =>
      exact restartsOk_cons.2 ⟨hret hi', restartsOk_cons.2 ⟨hret hi, restartsOk_cons.2 ⟨trivial, h⟩⟩⟩
    | stopAgain i r w e ret e' ret' e'' F _ _ _ hi _ _ hi' =>
      exact restartsOk_cons.2 ⟨hret hi', restartsOk_cons.2 ⟨hret hi, restartsOk_cons.2 ⟨trivial, h⟩⟩⟩
  · cases hm with
    | reap => exact restartsOk_cons.2 ⟨trivial, h⟩

/-- **No lost restart.** In every run of callbacks in which the ioctls succeed, the list to start is exactly the
managers that want a process and have none; no manager is linked twice or unlinked when it is not linked; and a timer
whose list is not empty runs. -/
theorem no_lost_restart (hio : ∀ arg e, 0 ≤ (E.ioctl arg e).1) {es : List (Event μ)}
    (hes : ∀ e ∈ es, e.runtime = true) (hr : Reached E es s) :
    (∀ i, .stat i ∈ s.list2Start ↔ s.chld (.stat i) = none) ∧
    (∀ i, .dyn i ∈ s.list2Start ↔ s.chld (.dyn i) = none ∧ (s.dyn i).cardType ≠ etindevNull) ∧
    s.list2Start.Nodup ∧
    (s.list2Start ≠ [] → s.timer .start = true) ∧
    (s.lists .exiting ≠ [] → s.timer .term = true) ∧
    (s.lists .killing ≠ [] → s.timer .kill = true) ∧
    ∀ e : Event μ, e.runtime = true → ∀ p,
      step E s e ≠ .error (.addLinked p) ∧ step E s e ≠ .error (.delUnlinked p) := by
  have hkeep : ∀ a b, Runtime E AnyType a b → Core a ∧ Schedule a ∧ RestartsOk a.trace →
      Core b ∧ Schedule b ∧ RestartsOk b.trace := fun a b hm ⟨hc, hs, hok⟩ =>
    ⟨hm.elim (fun h => move_core h hc) fun h => move_core h hc, runtime_schedule hm hs, runtime_restartsOk hio hm hok⟩
  obtain ⟨hc, hs, hok⟩ := hr.runtime_inv (I := fun s => Schedule s ∧ RestartsOk s.trace) hes
    (fun _ _ _ _ _ => ⟨ready_schedule .., fun _ hm => absurd hm List.not_mem_nil⟩)
    fun a b _ hm h => ⟨runtime_schedule hm h.1, runtime_restartsOk hio hm h.2⟩
  have hw := hs.waiting hok
  refine ⟨fun i => ⟨hc.link _, fun h => hw _ h trivial⟩, fun i => ⟨fun h => ⟨hc.link _ h, hc.card i h⟩,
    fun h => hw _ h.1 h.2⟩, hc.nodup, hs.timers .start, hs.timers .term, hs.timers .kill, ?_⟩
  intro e he p
  have hout := step_runtime (E := E) (V := AnyType) (fun _ _ => trivial) hc he (observes_any e)
  constructor
  · intro herr
    rw [herr] at hout
    obtain ⟨u, -, hf⟩ := hout
    exact hf
  · intro herr
    rw [herr] at hout
    -- the state in which the callback dereferences NULL is one that moves lead to
    obtain ⟨u, hu, i, rfl, hcard, hchld, hl⟩ := hout
    obtain ⟨-, hsu, hoku⟩ := chain_inv hkeep hu ⟨hc, hs, hok⟩
    exact hl (hsu.waiting hoku _ hchld hcard)

theorem no_lost_restart_killed : ∃ s, Reached (stillEnv 0) (startAll ++ killAll) s ∧
    (∀ i, .stat i ∈ s.list2Start ↔ s.chld (.stat i) = none) ∧ (s.lists .killing ≠ [] → s.timer .kill = true) := by
  obtain ⟨s, hs, -⟩ := exists_reached (stillEnv 0) 0 (startAll ++ killAll)
    (fun _ => true) (by decide +kernel)
  obtain ⟨hstat, -, -, -, -, hkill, -⟩ := no_lost_restart (E := stillEnv 0) (fun _ _ => le_refl 0) (by decide) ⟨_, hs⟩
  exact ⟨s, ⟨_, hs⟩, hstat, hkill⟩

/-! ## The error path of a stop -/

/-- `subStop` did nothing, or released the child and linked the manager exactly if it is to be started again -/
def StopDone (i : SlotId) (r : RecId) (s t : St ε) : Prop :=
  (t.rt = s.rt ∧ t.lists = s.lists ∧ t.chld = s.chld ∧ t.list2Start = s.list2Start ∧
    t.chld (.dyn i) = some r ∧ r ∉ t.lists .pool) ∨
  (t.chld (.dyn i) = none ∧ (t.rt r).pParent = none ∧ r ∈ t.lists .pool ∧
    (.dyn i ∈ t.list2Start ↔ (t.dyn i).cardType ≠ etindevNull ∧ t.exitFlag = false))

/-- the process has not ended, or no restart is to follow, or both ioctls succeed -/
def StopFine (E : Env ε μ) (i : SlotId) (r : RecId) (s : St ε) : Prop :=
  let w := E.waitpid (s.rt r).pid s.env
  let off := E.ioctl ⟨slotId i, etindevNull⟩ w.2
  let on := E.ioctl ⟨slotId i, (s.dyn i).cardType⟩ off.2
  ¬ RtPrcInfo.WaitOk (s.rt r).pid w.1 ∨ (s.dyn i).cardType = etindevNull ∨ s.exitFlag = true ∨ (0 ≤ off.1 ∧ 0 ≤ on.1)

instance (E : Env ε μ) (i : SlotId) (r : RecId) (s : St ε) : Decidable (StopFine E i r s) :=
  inferInstanceAs (Decidable (_ ∨ _ ∨ _ ∨ (_ ∧ _)))

/-- after a release the child is in the pool, and the manager is linked or not as `l2` says -/
theorem released_done {i : SlotId} {r : RecId}
    (hrt : t.rt = Function.update s.rt r ⟨.null, -1, 0, 0, none⟩) (hl : t.lists = s.lists.accept .pool r)
    (hch : t.chld = Function.update s.chld (.dyn i) none) :
    StopDone i r s t ↔ (.dyn i ∈ t.list2Start ↔ (t.dyn i).cardType ≠ etindevNull ∧ t.exitFlag = false) := by
  have hnone : t.chld (.dyn i) = none := by rw [hch, Function.update_self]
  constructor
  · intro hx
    rcases hx with ⟨-, -, -, -, hsome, -⟩ | ⟨-, -, -, hiff⟩
    · rw [hnone] at hsome; cases hsome
    · exact hiff
  · intro hiff
    refine Or.inr ⟨hnone, by rw [hrt, Function.update_self], ?_, hiff⟩
    rw [hl]
    exact Lists.mem_accept.2 (Or.inr ⟨rfl, rfl⟩)

theorem subStop_done_iff (h : Core s) {i : SlotId} {r : RecId} (hc : s.chld (.dyn i) = some r) :
    ∃ n t, PrcMngInfo.subStop E (.dyn i) s = .ok (n, t) ∧ (StopDone i r s t ↔ StopFine E i r s) ∧
      (RestartsOk s.trace → (RestartsOk t.trace ↔ StopFine E i r s)) := by
  obtain ⟨⟨w, e⟩, hw⟩ : ∃ x, E.waitpid (s.rt r).pid s.env = x := ⟨_, rfl⟩
  obtain ⟨⟨ret, e'⟩, hi⟩ : ∃ x, E.ioctl ⟨slotId i, etindevNull⟩ e = x := ⟨_, rfl⟩
  obtain ⟨⟨ret', e''⟩, hi'⟩ : ∃ x, E.ioctl ⟨slotId i, (s.dyn i).cardType⟩ e' = x := ⟨_, rfl⟩
  have hfine : StopFine E i r s ↔ ¬ RtPrcInfo.WaitOk (s.rt r).pid w ∨ ¬ s.again i = true ∨ (0 ≤ ret ∧ 0 ≤ ret') := by
    simp only [StopFine, hw, hi, hi', St.again_iff, not_and_or, not_not, or_assoc, Bool.not_eq_false]
  have hl := h.not_linked hc
  rw [hfine]
  rcases subStop_dyn_cases h hc hw hi hi' with ⟨hno, F, -, hs⟩ | ⟨hok, hret, n, F, -, hs⟩ |
    ⟨hok, hret, ha, hret', n, F, -, hs⟩ | ⟨hok, hret, ha, hret', n, F, -, hs⟩
  · refine ⟨_, _, hs, ⟨fun _ => Or.inl hno, fun _ => Or.inl ⟨rfl, rfl, rfl, rfl, hc, h.chld_not_pool hc⟩⟩,
      fun htr => ⟨fun _ => Or.inl hno, fun _ => restartsOk_cons.2 ⟨trivial, htr⟩⟩⟩
  · -- the card stays off line, and the manager unlinked
    have hna : (¬ RtPrcInfo.WaitOk (s.rt r).pid w ∨ ¬ s.again i = true ∨ (0 ≤ ret ∧ 0 ≤ ret')) ↔
        ¬ s.again i = true := by
      constructor
      · intro hx
        rcases hx with hno | hna | ⟨hret0, -⟩
        · exact absurd hok hno
        · exact hna
        · rcases hret with hret | ⟨-, hret⟩
          · omega
          · simp [hret]
      · exact fun hna => Or.inr (Or.inl hna)
    refine ⟨_, _, hs, (released_done rfl rfl rfl).trans ?_, ?_⟩
    · rw [hna]
      show (MngId.dyn i ∈ s.list2Start ↔ _) ↔ _
      rw [iff_false_left hl]
      exact not_congr St.again_iff.symm
    · intro htr
      have htr' : RestartsOk (.waitpid (s.rt r).pid w.pid :: s.trace) := restartsOk_cons.2 ⟨trivial, htr⟩
      rw [hna]
      refine restartsOk_cons.trans ?_
      rw [restartOk_subStop, and_iff_left htr']
      rcases hret with hret | ⟨-, hret⟩
      · exact imp_congr_right fun _ => iff_false_intro (not_le.2 hret)
      · simp [hret]
  · -- the second ioctl failed
    have hno : ¬ (¬ RtPrcInfo.WaitOk (s.rt r).pid w ∨ ¬ s.again i = true ∨ (0 ≤ ret ∧ 0 ≤ ret')) := by
      intro hx
      rcases hx with h | h | ⟨-, h⟩
      · exact h hok
      · exact h ha
      · omega
    refine ⟨_, _, hs, (released_done rfl rfl rfl).trans ?_, ?_⟩
    · refine iff_of_false (fun hiff => hl (hiff.2 (St.again_iff.1 ha))) hno
    · intro htr
      exact iff_of_false (fun htr' => not_le.2 hret' (restartsOk_cons.1 htr').1) hno
  · have hyes : ¬ RtPrcInfo.WaitOk (s.rt r).pid w ∨ ¬ s.again i = true ∨ (0 ≤ ret ∧ 0 ≤ ret') :=
      Or.inr (Or.inr ⟨hret, hret'⟩)
    refine ⟨_, _, hs, (released_done rfl rfl rfl).trans ?_, ?_⟩
    · exact iff_of_true (iff_of_true (by simp [St.linked]) (St.again_iff.1 ha)) hyes
    · intro htr
      exact iff_of_true (restartsOk_cons.2 ⟨hret', restartsOk_cons.2 ⟨hret, restartsOk_cons.2 ⟨trivial, htr⟩⟩⟩) hyes

theorem addIn2Start_ne_delUnlinked (p q : MngId) : PrcMngInfo.addIn2Start p s ≠ .error (.delUnlinked q) := by
  intro he
  unfold PrcMngInfo.addIn2Start at he
  split_ifs at he
  all_goals cases he

/-- `handleNewType` takes a manager out of the list to start only when its card goes and it has no child -/
theorem handleNewType_delUnlinked {i : SlotId} {new : ETinDev} {p : MngId}
    (he : PrcMngInfo.handleNewType E i new s = .error (.delUnlinked p)) :
    (s.dyn i).cardType ≠ etindevNull ∧ s.chld (.dyn i) = none ∧ .dyn i ∉ s.list2Start := by
  rw [handleNewType_eq] at he
  dsimp only at he
  split_ifs at he with h1 h2 h3 h4 h5
  · refine ⟨h2, ?_⟩
    rw [cardGone_eq] at he
    cases hc : s.chld (.dyn i) with
    | some r =>
      -- with a child the only fault is a signal that cannot be sent
      rw [hc] at he
      dsimp only at he
      split_ifs at he with hst
      unfold RtPrcInfo.sTerm RtPrcInfo.signalTerm at he
      rcases signal_cases (E := E) .signalTermState .sigterm .exiting r
        ((s.cardOff i).chk .handleState ((s.rt r).state ≠ .null)) (Or.inr rfl) with ⟨-, hs⟩ | ⟨-, F, -, -, -, hs⟩
      · rw [hs] at he; cases he
      · rw [hs] at he; cases he
    | none =>
      refine ⟨rfl, ?_⟩
      intro hl
      rw [hc] at he
      have hl' : MngId.dyn i ∈ (s.cardOff i).list2Start := hl
      simp [PrcMngInfo.delFrom2Start, hl'] at he
  · exact absurd he (addIn2Start_ne_delUnlinked _ _)

/-- **The error path of stopping a card process.** In every state that any run reaches, `subStop` of a dynamic manager
with a child returns, and it leaves the child where it was, or releases it and links the manager iff it is to be started
again, exactly under `StopFine`. It records a failed ioctl of a restart exactly when that does not hold. In every run of
callbacks with no such record, a manager whose card is inserted runs or waits, and an unplug finds it linked. -/
theorem subStop_done (E : Env ε μ) :
    (∀ es s i r, Reached E es s → s.chld (.dyn i) = some r → ∃ n t, PrcMngInfo.subStop E (.dyn i) s = .ok (n, t) ∧
      (StopDone i r s t ↔ StopFine E i r s) ∧ (RestartsOk s.trace → (RestartsOk t.trace ↔ StopFine E i r s))) ∧
    ∀ es s, (∀ e ∈ es, e.runtime = true) → Reached E es s → RestartsOk s.trace →
      (∀ i, (s.dyn i).cardType ≠ etindevNull → s.chld (.dyn i) ≠ none ∨ .dyn i ∈ s.list2Start) ∧
      ∀ i new p, PrcMngInfo.handleNewType E i new s ≠ .error (.delUnlinked p) := by
  refine ⟨?_, ?_⟩
  · intro es s i r hr hc
    exact subStop_done_iff hr.core hc
  · intro es s hes hr hok
    obtain ⟨-, hs⟩ := hr.schedule hes
    have hw := hs.waiting hok
    refine ⟨?_, ?_⟩
    · intro i hcard
      by_cases hc : s.chld (.dyn i) = none
      · exact Or.inr (hw _ hc hcard)
      · exact Or.inl hc
    · intro i new p he
      obtain ⟨hcard, hc, hl⟩ := handleNewType_delUnlinked he
      exact hl (hw _ hc hcard)

/-- a process that is killed and waited for while both ioctls succeed -/
theorem subStop_done_again : ∃ s n t, Reached (stillEnv 0) (startAll ++ killAll) s ∧ s.chld (.dyn 1) = some 5 ∧
    PrcMngInfo.subStop (stillEnv 0) (.dyn 1) s = .ok (n, t) ∧ (StopDone 1 5 s t ↔ StopFine (stillEnv 0) 1 5 s) ∧
    ((s.dyn 1).cardType ≠ etindevNull → s.chld (.dyn 1) ≠ none ∨ .dyn 1 ∈ s.list2Start) := by
  obtain ⟨s, hs, hf⟩ := exists_reached (stillEnv 0) 0 (startAll ++ killAll)
    (fun s => decide (s.chld (.dyn 1) = some 5) && decide (RestartsOk s.trace)) (by decide +kernel)
  simp only [Bool.and_eq_true, decide_eq_true_eq] at hf
  have hs : Reached (stillEnv 0) (startAll ++ killAll) s := ⟨_, hs⟩
  obtain ⟨n, t, hst, hdone, -⟩ := (subStop_done (stillEnv 0)).1 _ s 1 5 hs hf.1
  exact ⟨s, n, t, hs, hf.1, hst, hdone, ((subStop_done (stillEnv 0)).2 _ s (by decide) hs hf.2).1 1⟩

/-- The offline ioctl of a stop fails: the card is inserted, its manager has no child and does not wait, and when the
card goes the manager is taken out of a list it is not in. -/
theorem subStop_lost_unlinked : ∃ s n t,
    Reached (stillEnv (-1)) (startAll ++ killAll ++ List.replicate 5 .sCheckKillTimeout) s ∧ s.chld (.dyn 1) = some 5 ∧
    PrcMngInfo.subStop (stillEnv (-1)) (.dyn 1) s = .ok (n, t) ∧ ¬ StopDone 1 5 s t ∧
    run (stillEnv (-1)) s [.sCheckKillTimeout, .handleNewType 1 etindevNull] = .error (.delUnlinked (.dyn 1)) := by
  obtain ⟨s, hs, hf⟩ := exists_reached (stillEnv (-1)) 0
    (startAll ++ killAll ++ List.replicate 5 .sCheckKillTimeout)
    (fun s => decide (s.chld (.dyn 1) = some 5) && !decide (StopFine (stillEnv (-1)) 1 5 s) &&
      match run (stillEnv (-1)) s [.sCheckKillTimeout, .handleNewType 1 etindevNull] with
      | .error x => decide (x = .delUnlinked (.dyn 1))
      | .ok _ => false) (by decide +kernel)
  simp only [Bool.and_eq_true, decide_eq_true_eq, Bool.not_eq_true', decide_eq_false_iff_not] at hf
  obtain ⟨⟨hc, hfine⟩, hrun⟩ := hf
  obtain ⟨n, t, hst, hdone, -⟩ := subStop_done_iff (E := stillEnv (-1)) (Reached.core ⟨_, hs⟩) hc
  refine ⟨s, n, t, ⟨_, hs⟩, hc, hst, mt hdone.1 hfine, ?_⟩
  cases hr : run (stillEnv (-1)) s [.sCheckKillTimeout, .handleNewType 1 etindevNull] with
  | error x => rw [hr] at hrun; exact congrArg _ (of_decide_eq_true hrun)
  | ok u => rw [hr] at hrun; cases hrun

end LinuxDrv.Pdm
