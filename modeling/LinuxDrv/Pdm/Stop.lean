/-
The shutdown path, `CProcessPdm::Stop`: what its two loops of signals and its loop of stops do.

- `Signalled4Stop ps`: the children of the managers `ps` were sent a signal and have the state it leaves; nothing else
  changed, in particular no record moved.
- `stop_exit_cases`: with `m_sExitFlag` set, a stop whose process has ended releases the record; a static manager then
  waits in `s_list2Start`, the card of a dynamic one is taken off line and the manager does not wait.
- `stops_spec`: what the loop of stops writes, whatever the environment answers.
A relation between the state before a loop and the one after a number of its rounds is given for the whole loop by
`foldlM_done`.
-/
import LinuxDrv.Pdm.Outcomes

namespace LinuxDrv.Pdm

open LinuxDrv.Core

variable {ε μ : Type} {E : Env ε μ} {s t u : St ε}

/-! ## Signals -/

/-- the managers in the order of the shutdown -/
def stopOrder : List MngId := dynamics.reverse ++ statics.reverse

theorem mem_stopOrder (p : MngId) : p ∈ stopOrder := by
  cases p with
  | stat i => simp [stopOrder, statics]
  | dyn i => simp [stopOrder, dynamics]

theorem stopOrder_nodup : stopOrder.Nodup := by decide

/-- what `Term4Stop` and `Kill4Stop` have in common -/
def signal4Stop (E : Env ε μ) (a : Assert) (sig : Sig) (new : PrcRtState) (s : St ε) (p : MngId) :
    Except Fault (St ε) :=
  match s.chld p with
  | none => .ok s
  | some r => RtPrcInfo.signal E a sig new r s

theorem stopSignals_eq : stopSignals E s =
    stopOrder.foldlM (signal4Stop E .signalTermState .sigterm .exiting) s >>= fun t =>
      stopOrder.foldlM (signal4Stop E .signalKillState .sigkill .killing) { t with env := E.sleep 2 t.env } >>= fun u =>
        .ok { u with env := E.sleep 1 u.env } := rfl

/-- the children of the managers `ps` were sent a signal, and nothing else happened -/
structure Signalled4Stop (E : Env ε μ) (sig : Sig) (new : PrcRtState) (ps : List MngId) (s t : St ε) : Prop where
  lists : t.lists = s.lists
  chld : t.chld = s.chld
  dyn : t.dyn = s.dyn
  list2Start : t.list2Start = s.list2Start
  hit : ∀ p ∈ ps, ∀ r, s.chld p = some r → t.rt r = { s.rt r with state := new }
  miss : ∀ r, (∀ p ∈ ps, s.chld p ≠ some r) → t.rt r = s.rt r
  writes : ∃ ws, t.writes = ws ++ s.writes ∧
    ∀ w, w ∈ ws ↔ ∃ p ∈ ps, s.chld p = some w.1 ∧ w.2 = ((s.rt w.1).state, new)
  trace : ∃ cs, t.trace = cs ++ s.trace ∧
    (∀ p ∈ ps, ∀ r, s.chld p = some r → ∃ e, .kill (s.rt r).pid sig e ∈ cs) ∧ ∀ c ∈ cs, ∃ pid e, c = .kill pid sig e
  asserts : (∀ p ∈ ps, ∀ r, s.chld p = some r → (s.rt r).state = .normal ∨ (s.rt r).state = .exiting) →
    t.failed = s.failed
  env : ∀ P : ε → Prop, (∀ pid sig e, P e → P (E.kill pid sig e).2) → P s.env → P t.env

/-- a manager without a child is passed over -/
theorem Signalled4Stop.skip {sig : Sig} {new : PrcRtState} {done : List MngId} {p : MngId} (hc : s.chld p = none)
    (h : Signalled4Stop E sig new done s t) : Signalled4Stop E sig new (done ++ [p]) s t := by
  have hsame : ∀ r q, q ∈ done ++ [p] → s.chld q = some r → q ∈ done := by
    intro r q hq hr
    rcases List.mem_append.1 hq with hq | hq
    · exact hq
    · rw [List.mem_singleton.1 hq, hc] at hr; cases hr
  obtain ⟨ws, hws, hmem⟩ := h.writes
  obtain ⟨cs, hcs, hkill, honly⟩ := h.trace
  refine ⟨h.lists, h.chld, h.dyn, h.list2Start, fun q hq r hr => h.hit q (hsame r q hq hr) r hr,
    fun r hr => h.miss r fun q hq => hr q (List.mem_append_left _ hq), ⟨ws, hws, fun w => (hmem w).trans ?_⟩,
    ⟨cs, hcs, fun q hq r hr => hkill q (hsame r q hq hr) r hr, honly⟩,
    fun hst => h.asserts fun q hq => hst q (List.mem_append_left _ hq), h.env⟩
  constructor
  · intro hx
    obtain ⟨q, hq, hr, hw⟩ := hx
    exact ⟨q, List.mem_append_left _ hq, hr, hw⟩
  · intro hx
    obtain ⟨q, hq, hr, hw⟩ := hx
    exact ⟨q, hsame _ q hq hr, hr, hw⟩

/-- the child of a manager that comes next is signalled; no manager before it has this child -/
theorem Signalled4Stop.next {sig : Sig} {new : PrcRtState} {done : List MngId} {p : MngId} {r : RecId}
    {F : List Assert} (hc : s.chld p = some r) (hother : ∀ q ∈ done, s.chld q ≠ some r)
    (h : Signalled4Stop E sig new done s t)
    (hF : (t.rt r).state = .normal ∨ (t.rt r).state = .exiting → F = t.failed) :
    Signalled4Stop E sig new (done ++ [p]) s
      { t.signalled r sig new (E.kill (t.rt r).pid sig t.env).2 with failed := F } := by
  have hrt : t.rt r = s.rt r := h.miss r hother
  obtain ⟨ws, hws, hmem⟩ := h.writes
  obtain ⟨cs, hcs, hkill, honly⟩ := h.trace
  refine ⟨h.lists, h.chld, h.dyn, h.list2Start, ?_, ?_,
    ⟨(r, (s.rt r).state, new) :: ws, by simp [St.signalled, hws, hrt], ?_⟩,
    ⟨.kill (t.rt r).pid sig t.env :: cs, by simp [St.signalled, hcs], ?_, ?_⟩,
    ?_, ?_⟩
  · intro q hq r' hr'
    by_cases hrr : r' = r
    · subst hrr; simp [St.signalled, hrt]
    · rcases List.mem_append.1 hq with hq | hq
      · simpa [St.signalled, hrr] using h.hit q hq r' hr'
      · rw [List.mem_singleton.1 hq, hc] at hr'
        exact absurd (Option.some.inj hr').symm hrr
  · intro r' hr'
    have hrr : r' ≠ r := fun he => hr' p (by simp) (he ▸ hc)
    simpa [St.signalled, hrr] using h.miss r' fun q hq => hr' q (List.mem_append_left _ hq)
  · intro w
    rw [List.mem_cons, hmem]
    constructor
    · intro hx
      rcases hx with rfl | ⟨q, hq, hr, hw⟩
      · exact ⟨p, by simp, hc, rfl⟩
      · exact ⟨q, List.mem_append_left _ hq, hr, hw⟩
    · intro hx
      obtain ⟨q, hq, hr, hw⟩ := hx
      rcases List.mem_append.1 hq with hq | hq
      · exact Or.inr ⟨q, hq, hr, hw⟩
      · rw [List.mem_singleton.1 hq, hc] at hr
        obtain rfl := Option.some.inj hr
        exact Or.inl (Prod.ext rfl hw)
  · intro q hq r' hr'
    rcases List.mem_append.1 hq with hq | hq
    · obtain ⟨e, hm⟩ := hkill q hq r' hr'
      exact ⟨e, List.mem_cons_of_mem _ hm⟩
    · rw [List.mem_singleton.1 hq, hc] at hr'
      obtain rfl := Option.some.inj hr'
      exact ⟨t.env, by rw [hrt]; exact List.mem_cons_self⟩
  · intro c hcm
    rcases List.mem_cons.1 hcm with rfl | hcm
    · exact ⟨_, _, rfl⟩
    · exact honly c hcm
  · intro hst
    have hst' : (t.rt r).state = .normal ∨ (t.rt r).state = .exiting := hrt ▸ hst p (by simp) r hc
    exact (hF hst').trans (h.asserts fun q hq => hst q (List.mem_append_left _ hq))
  · intro P hP hs
    exact hP _ _ _ (h.env P hP hs)

theorem signalled_step {a : Assert} (ha : a = .signalKillState ∨ a = .signalTermState) {sig : Sig} {new : PrcRtState}
    {done : List MngId} {p : MngId} (hp : p ∉ done) (hinj : ∀ p q r, s.chld p = some r → s.chld q = some r → p = q)
    (h : Signalled4Stop E sig new done s t) (hu : signal4Stop E a sig new t p = .ok u) :
    Signalled4Stop E sig new (done ++ [p]) s u := by
  unfold signal4Stop at hu
  cases hc : s.chld p with
  | none =>
    rw [h.chld, hc] at hu
    cases hu
    exact h.skip hc
  | some r =>
    rw [h.chld, hc] at hu
    dsimp only at hu
    have hother : ∀ q ∈ done, s.chld q ≠ some r := fun q hq hr => hp (hinj q p r hr hc ▸ hq)
    rcases signal_cases (E := E) a sig new r t ha with ⟨-, he⟩ | ⟨-, F, -, hF, -, he⟩
    · rw [he] at hu; cases hu
    · rw [he] at hu
      cases hu
      exact h.next hc hother hF

theorem signalled_refl (E : Env ε μ) (sig : Sig) (new : PrcRtState) (s : St ε) : Signalled4Stop E sig new [] s s :=
  ⟨rfl, rfl, rfl, rfl, fun _ hp => absurd hp List.not_mem_nil, fun _ _ => rfl, ⟨[], rfl, by simp⟩,
    ⟨[], rfl, fun _ hp => absurd hp List.not_mem_nil, fun _ hc => absurd hc List.not_mem_nil⟩, fun _ => rfl,
    fun _ _ h => h⟩

/-- **A loop of signals reaches every child**, whatever its state, and does nothing else. -/
theorem signals_spec (h : Core s) {a : Assert} (ha : a = .signalKillState ∨ a = .signalTermState) {sig : Sig}
    {new : PrcRtState} (ht : stopOrder.foldlM (signal4Stop E a sig new) s = .ok t) :
    Signalled4Stop E sig new stopOrder s t := by
  refine foldlM_done (I := fun ps u => Signalled4Stop E sig new ps s u) ?_
    (signalled_refl E sig new s) ht
  intro done p rest u v hl hu hv
  have hnd := stopOrder_nodup
  rw [← hl] at hnd
  have hp : p ∉ done := fun hm => (List.nodup_append'.1 hnd).2.2 hm (by simp)
  exact signalled_step ha hp (fun _ _ _ => h.chld_inj) hu hv

/-- a signal leaves a record all but its state -/
theorem Signalled4Stop.rt_eq {sig : Sig} {new : PrcRtState} (h : Signalled4Stop E sig new stopOrder s t) (r : RecId) :
    ∃ st, t.rt r = { s.rt r with state := st } := by
  by_cases hr : ∃ p, s.chld p = some r
  · obtain ⟨p, hp⟩ := hr
    exact ⟨new, h.hit p (mem_stopOrder p) r hp⟩
  · exact ⟨(s.rt r).state, h.miss r fun p _ hp => hr ⟨p, hp⟩⟩

theorem Signalled4Stop.core {sig : Sig} {new : PrcRtState} (h : Signalled4Stop E sig new stopOrder s t)
    (hc : Core s) : Core t := by
  refine hc.congr h.lists ?_ h.chld h.list2Start fun i _ => by rw [h.dyn]
  intro r
  obtain ⟨st, hst⟩ := h.rt_eq r
  rw [hst]

/-- the two loops of signals, with the sleeps after them -/
theorem stopSignals_spec (h : Core s) (hu : stopSignals E s = .ok u) : ∃ t₁ t₂,
    Signalled4Stop E .sigterm .exiting stopOrder s t₁ ∧
    Signalled4Stop E .sigkill .killing stopOrder { t₁ with env := E.sleep 2 t₁.env } t₂ ∧
    u = { t₂ with env := E.sleep 1 t₂.env } ∧ Core u := by
  rw [stopSignals_eq] at hu
  obtain ⟨t₁, ht₁, hu⟩ := bind_eq_ok hu
  obtain ⟨t₂, ht₂, hu⟩ := bind_eq_ok hu
  cases hu
  have h₁ := signals_spec h (Or.inr rfl) ht₁
  have hc₁ : Core { t₁ with env := E.sleep 2 t₁.env } :=
    (h₁.core h).congr rfl (fun _ => rfl) rfl rfl fun _ _ => rfl
  have h₂ := signals_spec hc₁ (Or.inl rfl) ht₂
  exact ⟨t₁, t₂, h₁, h₂, rfl, (h₂.core hc₁).congr rfl (fun _ => rfl) rfl rfl fun _ _ => rfl⟩

/-! ## Stops -/

/-- manager `p` gave back its record `r` during the shutdown -/
def St.stopped (s : St ε) (E : Env ε μ) (p : MngId) (r : RecId) (w : WaitRet) (e : ε) : St ε :=
  match p with
  | .stat i => (s.released (.stat i) r w.pid e).linked (.stat i)
  | .dyn i =>
    let x := E.ioctl ⟨slotId i, etindevNull⟩ e
    { s.released (.dyn i) r w.pid e with
      env := x.2
      trace := .ioctl (.subStop false) ⟨slotId i, etindevNull⟩ x.1 e :: .waitpid (s.rt r).pid w.pid :: s.trace }

/-- a caller that asserts the error code of `subStop` -/
theorem Fails.stopSub {r : RecId} {l F : List Assert} (h : Fails s r l F) (n : ℤ) :
    Fails s r l (if n < 0 then .mngStopSub :: F else F) := by
  split_ifs
  · exact h.chk (a := .mngStopSub) (c := False) fun _ => Or.inl rfl
  · exact h

theorem stop_exit_cases (h : Core s) (hx : s.exitFlag = true) {p : MngId} {r : RecId} (hc : s.chld p = some r)
    {w : WaitRet} {e : ε} (hw : E.waitpid (s.rt r).pid s.env = (w, e)) :
    ∃ F, Fails s r [.stopState] F ∧
      ((¬ RtPrcInfo.WaitOk (s.rt r).pid w ∧ PrcMngInfo.stop E p s =
        .ok { s with env := e, trace := .waitpid (s.rt r).pid w.pid :: s.trace, failed := F }) ∨
      (RtPrcInfo.WaitOk (s.rt r).pid w ∧ PrcMngInfo.stop E p s = .ok { s.stopped E p r w e with failed := F })) := by
  have hstop : ∀ n u, PrcMngInfo.subStop E p s = .ok (n, u) →
      PrcMngInfo.stop E p s = .ok (if n < 0 then u.chk .mngStopSub False else u) := by
    intro n u hs
    unfold PrcMngInfo.stop
    rw [if_neg (by simp [hc]), hs]
    rfl
  have hchk : ∀ (n : ℤ) (u : St ε), (if n < 0 then u.chk .mngStopSub False else u) =
      { u with failed := if n < 0 then .mngStopSub :: u.failed else u.failed } := by
    intro n u
    split_ifs <;> rfl
  cases p with
  | stat i =>
    rcases subStop_stat_cases h hc hw with ⟨hno, F, hF, hs⟩ | ⟨hok, F, hF, hs⟩
    · refine ⟨_, hF.stopSub (-1), Or.inl ⟨hno, (hstop _ _ hs).trans ?_⟩⟩
      rw [hchk]
    · refine ⟨_, hF.stopSub 0, Or.inr ⟨hok, (hstop _ _ hs).trans ?_⟩⟩
      rw [hchk]
      rfl
  | dyn i =>
    have hna : s.again i = false := by simp [St.again, hx]
    obtain ⟨⟨ret, e'⟩, hi⟩ : ∃ x, E.ioctl ⟨slotId i, etindevNull⟩ e = x := ⟨_, rfl⟩
    obtain ⟨⟨ret', e''⟩, hi'⟩ : ∃ x, E.ioctl ⟨slotId i, (s.dyn i).cardType⟩ e' = x := ⟨_, rfl⟩
    rcases subStop_dyn_cases h hc hw hi hi' with ⟨hno, F, hF, hs⟩ | ⟨hok, -, n, F, hF, hs⟩ |
      ⟨-, -, ha, -⟩ | ⟨-, -, ha, -⟩
    · refine ⟨_, hF.stopSub (-1), Or.inl ⟨hno, (hstop _ _ hs).trans ?_⟩⟩
      rw [hchk]
    · refine ⟨_, hF.stopSub n, Or.inr ⟨hok, (hstop _ _ hs).trans ?_⟩⟩
      rw [hchk, hna]
      simp only [St.stopped, hi]
    · rw [hna] at ha; cases ha
    · rw [hna] at ha; cases ha

theorem stop_core {p : MngId} (h : Core s) (ht : PrcMngInfo.stop E p s = .ok t) : Core t := by
  have hout := stop_outcome (E := E) (V := AnyType) h p
  rw [ht] at hout
  exact plain_core h hout

/-- what a loop of stops writes: each record it releases goes to NULL -/
structure StopWrites (s t : St ε) : Prop where
  core : Core t
  exit : t.exitFlag = true
  writes : ∃ ws, t.writes = ws ++ s.writes ∧ ∀ w ∈ ws, w.2.2 = .null
  asserts : ∀ a ∈ t.failed, a ∈ s.failed ∨ a.errPath = true ∨ a = .stopState

theorem stopWrites_step {p : MngId} (h : StopWrites s t) (hu : PrcMngInfo.stop E p t = .ok u) : StopWrites s u := by
  have hcu := stop_core h.core hu
  cases hc : t.chld p with
  | none =>
    unfold PrcMngInfo.stop at hu
    rw [if_pos hc] at hu
    cases hu
    exact h
  | some r =>
    obtain ⟨⟨w, e⟩, hw⟩ : ∃ x, E.waitpid (t.rt r).pid t.env = x := ⟨_, rfl⟩
    obtain ⟨F, hF, hs⟩ := stop_exit_cases h.core h.exit hc hw
    have hasserts : ∀ a ∈ F, a ∈ s.failed ∨ a.errPath = true ∨ a = .stopState := by
      intro a ha
      rcases hF a ha with ha | ha | ⟨ha, -⟩
      · exact h.asserts a ha
      · exact Or.inr (Or.inl ha)
      · exact Or.inr (Or.inr (List.mem_singleton.1 ha))
    obtain ⟨ws, hws, hnull⟩ := h.writes
    rcases hs with ⟨-, hs⟩ | ⟨-, hs⟩
    · rw [hs] at hu
      cases hu
      exact ⟨hcu, h.exit, ⟨ws, hws, hnull⟩, hasserts⟩
    · rw [hs] at hu
      cases hu
      refine ⟨hcu, ?_, ⟨(r, (t.rt r).state, .null) :: ws, ?_, ?_⟩, hasserts⟩
      · cases p <;> exact h.exit
      · rw [List.cons_append, ← hws]
        cases p <;> rfl
      · intro w hw
        rcases List.mem_cons.1 hw with rfl | hw
        · rfl
        · exact hnull w hw

theorem stops_spec (h : Core s) (hx : s.exitFlag = true)
    (ht : stopOrder.foldlM (fun s p => PrcMngInfo.stop E p s) s = .ok t) : StopWrites s t :=
  foldlM_done (I := fun _ u => StopWrites s u) (fun _ _ _ _ _ _ hu hv => stopWrites_step hu hv)
    ⟨h, hx, ⟨[], rfl, fun _ hw => absurd hw List.not_mem_nil⟩, fun _ ha => Or.inl ha⟩ ht

theorem ioctlInt_ok {c : IntIoc} (h : ioctlInt E c s = .ok t) : t = { s with env := (E.ioctlInt c s.env).2 } := by
  unfold ioctlInt at h
  dsimp only at h
  split_ifs at h
  cases h
  rfl

theorem stopAll_eq : stopAll E s = ioctlInt E .stateInt { s with exitFlag := true } >>= fun t =>
    ioctlInt E .masterInt t >>= fun u => stopOrder.foldlM (fun s p => PrcMngInfo.stop E p s) u := rfl

/-- `sStop` sets the exit flag, disables the interrupts and stops every manager -/
theorem stopAll_spec (ht : stopAll E s = .ok t) : stopOrder.foldlM (fun s p => PrcMngInfo.stop E p s) { s with
    exitFlag := true, env := (E.ioctlInt .masterInt (E.ioctlInt .stateInt s.env).2).2 } = .ok t := by
  rw [stopAll_eq] at ht
  obtain ⟨v, hv, ht⟩ := bind_eq_ok ht
  obtain ⟨u, hu, ht⟩ := bind_eq_ok ht
  rw [ioctlInt_ok hu, ioctlInt_ok hv] at ht
  exact ht

theorem stopAll_writes (h : Core s) (ht : stopAll E s = .ok t) : StopWrites s t := by
  have hs : Core { s with exitFlag := true, env := (E.ioctlInt .masterInt (E.ioctlInt .stateInt s.env).2).2 } :=
    h.congr rfl (fun _ => rfl) rfl rfl fun _ _ => rfl
  have hw := stops_spec hs rfl (stopAll_spec ht)
  exact ⟨hw.core, hw.exit, hw.writes, hw.asserts⟩

end LinuxDrv.Pdm
