/-
Pid safety: the records outside the pool hold the pids of the un-reaped children, each once.

- `PidInv`: the pids of the children of managers are distinct, they are exactly the un-reaped children, and every signal
  so far was sent to an un-reaped child.
- `effect_pid`: every move but the reaping of `waitpid(-1)` keeps it.
- `sBuryChld_pid`: the loop of `sBuryChld` reaps a child before its record is released. In between, one record holds
  the pid of a child that is gone; the `waitpid` of `stop` then says ECHILD, which it takes for the end of the process.
  The loop ends only when no child has exited, so however many SIGCHLDs were one, no record is left behind.
- `pid_safety` is the result for all runs, shutdown calls included.
-/
import LinuxDrv.Pdm.Os

namespace LinuxDrv.Pdm

open LinuxDrv.Core Relation

variable {ε μ : Type} {E : Env ε μ} {V : ETinDev → Prop} {s t u : St ε} {os : Os E}

/-- the pids that the children of managers hold -/
def held (s : St ε) : Set ℤ := {z | ∃ p r, s.chld p = some r ∧ (s.rt r).pid = z}

/-- the call sends a signal -/
def Call.isKill : Call ε → Bool
  | kill .. => true
  | _ => false

/-- every signal was sent to a child that was un-reaped then -/
def SignalsOk (os : Os E) (tr : List (Call ε)) : Prop := ∀ pid sig w, .kill pid sig w ∈ tr → pid ∈ os.unreaped w

/-- the pids of children are positive -/
def PidPos (s : St ε) : Prop := ∀ p r, s.chld p = some r → 0 < (s.rt r).pid

/-- the pids of children belong to one manager each, and the other records have none -/
structure PidOnce (s : St ε) : Prop where
  free : ∀ r, (s.rt r).pParent = none → (s.rt r).pid = -1
  pos : PidPos s
  inj : ∀ p q r r', s.chld p = some r → s.chld q = some r' → (s.rt r).pid = (s.rt r').pid → p = q

structure PidInv (os : Os E) (s : St ε) : Prop where
  once : PidOnce s
  exact : held s = os.unreaped s.env
  signals : SignalsOk os s.trace

/-! ## Moves -/

/-- no record got another pid or another parent -/
def SamePids (s t : St ε) : Prop := ∀ r, (t.rt r).pid = (s.rt r).pid ∧ (t.rt r).pParent = (s.rt r).pParent

theorem SamePids.of_eq (h : t.rt = s.rt) : SamePids s t := fun _ => h ▸ ⟨rfl, rfl⟩

theorem PidPos.congr (h : PidPos s) (hc : t.chld = s.chld) (hp : SamePids s t) : PidPos t := by
  intro p r hr
  rw [(hp r).1]
  exact h p r (hc ▸ hr)

theorem PidPos.released (h : PidPos s) (hcore : Core s) {p : MngId} {r : RecId} (hr : s.chld p = some r)
    (hc : t.chld = Function.update s.chld p none) (hrt : t.rt = Function.update s.rt r ⟨.null, -1, 0, 0, none⟩) :
    PidPos t := by
  intro q r' hq
  have hqp : q ≠ p := by rintro rfl; rw [hc, Function.update_self] at hq; cases hq
  rw [hc, Function.update_of_ne hqp] at hq
  have hrr : r' ≠ r := fun he => hqp (hcore.chld_inj (he ▸ hq) hr)
  rw [hrt, Function.update_of_ne hrr]
  exact h q r' hq

theorem PidPos.captured (h : PidPos s) (p : MngId) (r : RecId) (argv : List (Option String)) (pid : Pid) (e : ε) :
    PidPos (s.captured p r argv pid e) := by
  intro q r' hq
  simp only [St.captured] at hq ⊢
  by_cases hrr : r' = r
  · subst hrr; simpa using pid.2
  · have hqp : q ≠ p := by
      rintro rfl
      rw [Function.update_self] at hq
      exact hrr (Option.some.inj hq).symm
    rw [Function.update_of_ne hqp] at hq
    rw [Function.update_of_ne hrr]
    exact h q r' hq

theorem PidOnce.congr (h : PidOnce s) (hc : t.chld = s.chld) (hp : SamePids s t) : PidOnce t := by
  refine ⟨?_, h.pos.congr hc hp, ?_⟩
  · intro r hr
    rw [(hp r).1]; exact h.free r ((hp r).2 ▸ hr)
  · intro p q r r' hr hr' he
    rw [(hp r).1, (hp r').1] at he
    exact h.inj p q r r' (hc ▸ hr) (hc ▸ hr') he

theorem held_congr (hc : t.chld = s.chld) (hp : SamePids s t) : held t = held s := by
  ext z
  simp only [held, hc, fun r => (hp r).1]

/-- no child and no pid changed, and no child was reaped -/
theorem PidInv.congr (h : PidInv os s) (hc : t.chld = s.chld) (hp : SamePids s t)
    (he : os.unreaped t.env = os.unreaped s.env) (htr : SignalsOk os t.trace) : PidInv os t :=
  ⟨h.once.congr hc hp, by rw [held_congr hc hp, he]; exact h.exact, htr⟩

theorem SignalsOk.cons {tr : List (Call ε)} (h : SignalsOk os tr) {c : Call ε}
    (hc : ∀ pid sig w, c = .kill pid sig w → pid ∈ os.unreaped w) : SignalsOk os (c :: tr) := by
  intro pid sig w hm
  rcases List.mem_cons.1 hm with hm | hm
  · exact hc pid sig w hm.symm
  · exact h pid sig w hm

/-- a call that is not `kill` sends no signal -/
theorem SignalsOk.call {tr : List (Call ε)} (h : SignalsOk os tr) {c : Call ε} (hc : c.isKill = false) :
    SignalsOk os (c :: tr) := by
  apply h.cons
  intro pid sig w he
  subst he
  cases hc

/-- the manager's child is given back, and its pid with it -/
theorem PidOnce.released (h : PidOnce s) {p : MngId} {r : RecId} (hr : s.chld p = some r)
    (hc : t.chld = Function.update s.chld p none) (hrt : t.rt = Function.update s.rt r ⟨.null, -1, 0, 0, none⟩)
    (hcore : Core s) : PidOnce t ∧ held t = held s \ {(s.rt r).pid} := by
  have hother : ∀ r', r' ≠ r → t.rt r' = s.rt r' := fun r' hne => by rw [hrt, Function.update_of_ne hne]
  have hold : ∀ q r', t.chld q = some r' → q ≠ p ∧ s.chld q = some r' ∧ t.rt r' = s.rt r' := by
    intro q r' hq
    by_cases hqp : q = p
    · subst hqp; rw [hc, Function.update_self] at hq; cases hq
    · rw [hc, Function.update_of_ne hqp] at hq
      have hrr : r' ≠ r := fun he => hqp (hcore.chld_inj (he ▸ hq) hr)
      exact ⟨hqp, hq, hother r' hrr⟩
  refine ⟨⟨?_, h.pos.released hcore hr hc hrt, ?_⟩,
    Set.ext fun z => ⟨?_, ?_⟩⟩
  · intro r' hr'
    by_cases hrr : r' = r
    · subst hrr; rw [hrt, Function.update_self]
    · rw [hother r' hrr] at hr' ⊢
      exact h.free r' hr'
  · intro q q' r₁ r₂ h₁ h₂ he
    obtain ⟨-, h₁', hrt₁⟩ := hold q r₁ h₁
    obtain ⟨-, h₂', hrt₂⟩ := hold q' r₂ h₂
    rw [hrt₁, hrt₂] at he
    exact h.inj q q' r₁ r₂ h₁' h₂' he
  · intro hx
    obtain ⟨q, r', hq, hz⟩ := hx
    obtain ⟨hqp, hq', hrt'⟩ := hold q r' hq
    rw [hrt'] at hz
    refine ⟨⟨q, r', hq', hz⟩, fun he => hqp (h.inj q p r' r hq' hr (hz.trans he))⟩
  · intro hx
    obtain ⟨⟨q, r', hq, hz⟩, hne⟩ := hx
    have hqp : q ≠ p := by
      rintro rfl
      rw [hr] at hq
      cases hq
      exact hne hz.symm
    have hrr : r' ≠ r := fun he => hqp (hcore.chld_inj (he ▸ hq) hr)
    exact ⟨q, r', by rw [hc, Function.update_of_ne hqp]; exact hq, by rw [hother r' hrr]; exact hz⟩

/-- a child that `waitpid` takes for ended is reaped by it, or was not un-reaped -/
theorem waitOk_unreaped (os : Os E) {pid : ℤ} (hpos : 0 < pid) {e e' : ε} {w : WaitRet} (hw : E.waitpid pid e = (w, e'))
    (hok : RtPrcInfo.WaitOk pid w) : os.unreaped e' = os.unreaped e \ {pid} ∧ os.exited e \ {pid} ⊆ os.exited e' := by
  rcases os.waitpid hpos hw with ⟨hn, -, hu, he⟩ | ⟨-, -, hu, he⟩ | ⟨-, -, h0, -, -⟩
  · exact ⟨by rw [hu, Set.sdiff_singleton_eq_self hn], fun z hz => he hz.1⟩
  · exact ⟨hu, he⟩
  · rcases hok with h | ⟨h, -⟩ <;> omega

/-- a child of a manager that `waitpid` does not take for ended is alive -/
theorem waitFail_unreaped {pid : ℤ} (hpos : 0 < pid) {e e' : ε} {w : WaitRet} (hw : E.waitpid pid e = (w, e'))
    (hno : ¬ RtPrcInfo.WaitOk pid w) : os.unreaped e' = os.unreaped e := by
  rcases os.waitpid hpos hw with ⟨-, hw', -, -⟩ | ⟨-, hw', -, -⟩ | ⟨-, -, -, hu, -⟩
  · subst hw'; exact absurd (Or.inr ⟨rfl, rfl⟩) hno
  · exact absurd (Or.inl hw') hno
  · exact hu

theorem PidInv.released (h : PidInv os s) (hcore : Core s) {p : MngId} {r : RecId} (hr : s.chld p = some r)
    {w : WaitRet} {e : ε} (hw : E.waitpid (s.rt r).pid s.env = (w, e)) (hok : RtPrcInfo.WaitOk (s.rt r).pid w)
    (hc : t.chld = Function.update s.chld p none) (hrt : t.rt = Function.update s.rt r ⟨.null, -1, 0, 0, none⟩)
    (he : os.unreaped t.env = os.unreaped e) (htr : SignalsOk os t.trace) : PidInv os t := by
  obtain ⟨honce, hheld⟩ := h.once.released hr hc hrt hcore
  refine ⟨honce, ?_, htr⟩
  calc held t = held s \ {(s.rt r).pid} := hheld
    _ = os.unreaped s.env \ {(s.rt r).pid} := by rw [h.exact]
    _ = os.unreaped e := (waitOk_unreaped os (h.once.pos p r hr) hw hok).1.symm
    _ = os.unreaped t.env := he.symm

theorem PidInv.captured (h : PidInv os s) (hcore : Core s) {p : MngId} {r : RecId} (hp : p ∈ s.list2Start)
    (hr : r ∈ s.lists .pool) {pid : Pid} {e : ε} (hf : E.fork s.env = (some pid, e)) (argv : List (Option String))
    (F : List Assert) : PidInv os { s.captured p r argv pid e with failed := F } := by
  obtain ⟨hfresh, hun, -⟩ := os.fork hf
  have hnone := hcore.link p hp
  have hnot : ∀ q, s.chld q ≠ some r := fun q hq => hcore.chld_not_pool hq hr
  have hnew : ∀ q r' , s.chld q = some r' → (s.rt r').pid ≠ pid := by
    intro q r' hq he
    exact hfresh (h.exact ▸ ⟨q, r', hq, he⟩)
  have hcase : ∀ q r', Function.update s.chld p (some r) q = some r' →
      (q = p ∧ r' = r) ∨ (q ≠ p ∧ r' ≠ r ∧ s.chld q = some r') := by
    intro q r' hq
    by_cases hqp : q = p
    · subst hqp
      rw [Function.update_self] at hq
      exact Or.inl ⟨rfl, (Option.some.inj hq).symm⟩
    · rw [Function.update_of_ne hqp] at hq
      exact Or.inr ⟨hqp, fun he => hnot q (he ▸ hq), hq⟩
  refine ⟨⟨?_, h.once.pos.captured p r argv pid e, ?_⟩, Set.ext ?_,
    h.signals.call rfl⟩
  · intro r' hr'
    by_cases hrr : r' = r
    · subst hrr; simp [St.captured] at hr'
    · simp only [St.captured, Function.update_of_ne hrr] at hr' ⊢
      exact h.once.free r' hr'
  · intro q q' r₁ r₂ h₁ h₂ he
    rcases hcase q r₁ h₁ with ⟨rfl, rfl⟩ | ⟨-, hr₁, h₁'⟩ <;> rcases hcase q' r₂ h₂ with ⟨rfl, rfl⟩ | ⟨-, hr₂, h₂'⟩
    · rfl
    · simp only [St.captured, Function.update_self, Function.update_of_ne hr₂] at he
      exact absurd he.symm (hnew q' r₂ h₂')
    · simp only [St.captured, Function.update_self, Function.update_of_ne hr₁] at he
      exact absurd he (hnew q r₁ h₁')
    · simp only [St.captured, Function.update_of_ne hr₁, Function.update_of_ne hr₂] at he
      exact h.once.inj q q' r₁ r₂ h₁' h₂' he
  · intro z
    show z ∈ held _ ↔ z ∈ os.unreaped e
    rw [hun, ← h.exact]
    constructor
    · intro hx
      obtain ⟨q, r', hq, hz⟩ := hx
      rcases hcase q r' hq with ⟨rfl, rfl⟩ | ⟨-, hrr, hq'⟩
      · simp only [St.captured, Function.update_self] at hz
        exact Or.inl hz.symm
      · simp only [St.captured, Function.update_of_ne hrr] at hz
        exact Or.inr ⟨q, r', hq', hz⟩
    · intro hx
      rcases hx with rfl | ⟨q, r', hq, hz⟩
      · exact ⟨p, r, by simp [St.captured], by simp [St.captured]⟩
      · have hqp : q ≠ p := by rintro rfl; rw [hnone] at hq; cases hq
        have hrr : r' ≠ r := fun he => hnot q (he ▸ hq)
        exact ⟨q, r', by simpa [St.captured, hqp] using hq, by simpa [St.captured, hrr] using hz⟩

/-- a signal goes to a child -/
theorem PidInv.signalled (h : PidInv os s) {p : MngId} {r : RecId} (hr : s.chld p = some r) {sig : Sig} {k : ℤ} {e : ε}
    (hk : E.kill (s.rt r).pid sig s.env = (k, e)) (hc : t.chld = s.chld) (hp : SamePids s t)
    (he : t.env = e) (htr : t.trace = .kill (s.rt r).pid sig s.env :: s.trace) : PidInv os t := by
  have hkeep := (os.kill (s.rt r).pid sig s.env).1
  rw [hk] at hkeep
  refine h.congr hc hp (by rw [he]; exact hkeep) ?_
  rw [htr]
  apply h.signals.cons
  intro pid sig' w hm
  cases hm
  exact h.exact ▸ ⟨p, r, hr, rfl⟩

/-- what an ioctl leaves of the children -/
theorem ioctl_children (os : Os E) {arg : DevMngDrvData} {e e' : ε} {ret : ℤ} (hi : E.ioctl arg e = (ret, e')) :
    os.unreaped e' = os.unreaped e ∧ os.exited e ⊆ os.exited e' := by
  have h := os.ioctl arg e
  rwa [hi] at h

theorem signalled_pids (s : St ε) (r : RecId) (sig : Sig) (new : PrcRtState) (e : ε) :
    SamePids s (s.signalled r sig new e) := by
  intro r'
  by_cases hr : r' = r
  · subst hr; simp [St.signalled]
  · simp [St.signalled, hr]

theorem moved_pids (s : St ε) (l : ListId) (tm : TimerId) (r : RecId) : SamePids s (s.moved l tm r) := by
  intro r'
  by_cases hr : r' = r
  · subst hr; simp [St.moved]
  · simp [St.moved, hr]

theorem setRt_pids (s : St ε) (r : RecId) (x y : ℤ) :
    SamePids s (s.setRt r fun z => { z with nExpTimes := x, nRealTimes := y }) := by
  intro r'
  by_cases hr : r' = r
  · subst hr; simp [St.setRt]
  · simp [St.setRt, hr]

theorem SamePids.trans (h : SamePids s t) (h' : SamePids t u) : SamePids s u :=
  fun r => ⟨(h' r).1.trans (h r).1, (h' r).2.trans (h r).2⟩

theorem kill_pids (s : St ε) (r : RecId) (e : ε) :
    SamePids s ((s.signalled r .sigkill .killing e).moved .killing .kill r) :=
  (signalled_pids s r .sigkill .killing e).trans (moved_pids _ .killing .kill r)

theorem goneTerm_pids (s : St ε) (i : SlotId) (r : RecId) (e : ε) :
    SamePids s (((s.cardOff i).signalled r .sigterm .exiting e).moved .exiting .term r) :=
  (signalled_pids (s.cardOff i) r .sigterm .exiting e).trans (moved_pids _ .exiting .term r)

theorem plain_pid (hcore : Core s) (h : PidInv os s) (hm : Move E V .plain s t) : PidInv os t := by
  cases hm with
  | outside m => exact h.congr rfl (.of_eq rfl) (os.outside m s.env).1 h.signals
  | timerOff | filter | errPath => exact h.congr rfl (.of_eq rfl) rfl h.signals
  | noStart e F he r =>
    refine h.congr rfl (.of_eq rfl) ?_ h.signals
    rcases he with rfl | hf
    · rfl
    · exact (os.forkFail hf).1
  | capture p r name pid e F hp hr _ hf => exact h.captured hcore hp hr hf _ F
  | waitFail p r w e F hc hw hno =>
    have hpos := h.once.pos p r hc
    exact h.congr rfl (.of_eq rfl) (waitFail_unreaped hpos hw hno) (h.signals.call rfl)
  | stopStat i r w e F hc hw hok =>
    exact h.released hcore hc hw hok rfl rfl rfl (h.signals.call rfl)
  | stopOff i r w e ret e' F hc hw hok hi =>
    refine h.released hcore hc hw hok rfl rfl (ioctl_children os hi).1 ?_
    exact (h.signals.call rfl).call rfl
  | stopLost i r w e ret e' ret' e'' F hc hw hok hi _ _ hi' =>
    refine h.released hcore hc hw hok rfl rfl ((ioctl_children os hi').1.trans (ioctl_children os hi).1) ?_
    exact ((h.signals.call rfl).call rfl).call rfl
  | stopAgain i r w e ret e' ret' e'' F hc hw hok hi _ _ hi' =>
    refine h.released hcore hc hw hok rfl rfl ((ioctl_children os hi').1.trans (ioctl_children os hi).1) ?_
    exact ((h.signals.call rfl).call rfl).call rfl
  | kill r k e F hr _ hk =>
    obtain ⟨p, -, hc⟩ : ∃ p, (s.rt r).pParent = some p ∧ s.chld p = some r := by
      rcases hr with hr | hr
      · exact hcore.parent_of_mem hr (by simp)
      · exact hcore.parent_of_mem hr (by simp)
    exact h.signalled hc hk rfl (kill_pids s r e) rfl rfl
  | counts r x y F => exact h.congr rfl (setRt_pids s r x y) rfl h.signals
  | goneTerm i r k e F _ hc _ hk => exact h.signalled hc hk rfl (goneTerm_pids s i r e) rfl rfl
  | goneKeep i r F => exact h.congr rfl (.of_eq rfl) rfl h.signals
  | goneWait i ret e _ _ hi =>
    exact h.congr rfl (.of_eq rfl) (ioctl_children os hi).1 (h.signals.call rfl)
  | come i new ret e F _ _ _ _ hi =>
    exact h.congr rfl (.of_eq rfl) (ioctl_children os hi).1 (h.signals.call rfl)

/-- **Every move but a reaping keeps the pids.** -/
theorem effect_pid (hcore : Core s) (h : PidInv os s) (hm : Effect E V s t) : PidInv os t := by
  rcases hm with hm | hm
  · exact plain_pid hcore h hm
  · cases hm with
    | signal p r sig new a k e F hc _ hk => exact h.signalled hc hk rfl (signalled_pids s r sig new e) rfl rfl
    | sleep n => exact h.congr rfl (.of_eq rfl) (os.sleep n s.env).1 h.signals
    | setExit | timersOff => exact h.congr rfl (.of_eq rfl) rfl h.signals
    | ioctlInt c k e hk =>
      have hkeep := (os.ioctlInt c s.env).1
      rw [hk] at hkeep
      exact h.congr rfl (.of_eq rfl) hkeep h.signals

/-! ## Burying -/

/-- a stop whose `waitpid` gives the end of the process: its record is free again, and nothing else happens to the
children -/
theorem stop_ended (os : Os E) (hcore : Core s) {p : MngId} {r : RecId} (hc : s.chld p = some r) {w : WaitRet} {e : ε}
    (hw : E.waitpid (s.rt r).pid s.env = (w, e)) (hok : RtPrcInfo.WaitOk (s.rt r).pid w) :
    ∃ t, PrcMngInfo.stop E p s = .ok t ∧ t.chld = Function.update s.chld p none ∧
      t.rt = Function.update s.rt r ⟨.null, -1, 0, 0, none⟩ ∧ os.unreaped t.env = os.unreaped e ∧
      os.exited e ⊆ os.exited t.env ∧ (SignalsOk os s.trace → SignalsOk os t.trace) := by
  have hne : ¬ s.chld p = none := by simp [hc]
  unfold PrcMngInfo.stop
  rw [if_neg hne]
  cases p with
  | stat i =>
    rcases subStop_stat_cases hcore hc hw with ⟨hno, -⟩ | ⟨-, F, -, hs⟩
    · exact absurd hok hno
    · rw [hs]
      exact ⟨_, rfl, rfl, rfl, rfl, subset_rfl, fun h => h.call rfl⟩
  | dyn i =>
    obtain ⟨⟨ret, e'⟩, hi⟩ : ∃ x, E.ioctl ⟨slotId i, etindevNull⟩ e = x := ⟨_, rfl⟩
    obtain ⟨⟨ret', e''⟩, hi'⟩ : ∃ x, E.ioctl ⟨slotId i, (s.dyn i).cardType⟩ e' = x := ⟨_, rfl⟩
    have h₁ := ioctl_children os hi
    have h₂ := ioctl_children os hi'
    rcases subStop_dyn_cases hcore hc hw hi hi' with
      ⟨hno, -⟩ | ⟨-, -, n, F, -, hs⟩ | ⟨-, -, -, -, n, F, -, hs⟩ | ⟨-, -, -, -, n, F, -, hs⟩
    · exact absurd hok hno
    · rw [hs, ok_bind]
      dsimp only
      split_ifs
      all_goals
        refine ⟨_, rfl, rfl, rfl, h₁.1, h₁.2, ?_⟩
        intro h
        exact (h.call rfl).call rfl
    all_goals
      rw [hs, ok_bind]
      dsimp only
      split_ifs
      all_goals
        refine ⟨_, rfl, rfl, rfl, h₂.1.trans h₁.1, h₁.2.trans h₂.2, ?_⟩
        intro h
        exact ((h.call rfl).call rfl).call rfl

/-- the record of a child is found by its pid -/
theorem findChld_held (hcore : Core s) {z : ℤ} (hz : z ∈ held s) :
    ∃ p r, s.chld p = some r ∧ (s.rt r).pid = z ∧ RtPrcInfo.findChld s z = some r := by
  obtain ⟨p, r, hc, hpid⟩ := hz
  have hfound : ∃ r', RtPrcInfo.findChld s z = some r' := by
    obtain ⟨l, hl⟩ := hcore.total r
    have hlp : l ≠ .pool := by rintro rfl; exact hcore.chld_not_pool hc hl
    have hsome : (RtPrcInfo.sFindObj s l z).isSome := List.find?_isSome.2 ⟨r, hl, by simpa using hpid⟩
    rw [← Option.isSome_iff_exists]
    unfold RtPrcInfo.findChld
    cases l with
    | pool => exact absurd rfl hlp
    | normal => simp [hsome]
    | exiting => simp [hsome]
    | killing => simp [hsome]
  obtain ⟨r', hr'⟩ := hfound
  obtain ⟨l, hl, hlp, hpid'⟩ := findChld_some hr'
  obtain ⟨q, -, hq⟩ := hcore.parent_of_mem hl hlp
  exact ⟨q, r', hq, hpid', hr'⟩

/-- between the two waits for a child: the record of manager `p` holds the pid `z` of a child that is gone, and
the others hold those of the un-reaped children -/
structure Reaped (os : Os E) (z : ℤ) (s : St ε) : Prop where
  core : Core s
  once : PidOnce s
  mem : z ∈ held s
  exact : os.unreaped s.env = held s \ {z}
  signals : SignalsOk os s.trace

/-- the rest of a round of `sBuryChld` that reaped a child: its manager stops it, `waitpid` says that there is no such
child any more, and the record is free -/
theorem buryPid_reaped {z : ℤ} (h : Reaped os z s) : ∃ t p, RtPrcInfo.buryPid E z s = .ok t ∧ Core t ∧ PidInv os t ∧
    s.chld p ≠ none ∧ t.chld = Function.update s.chld p none ∧ held t = held s \ {z} ∧
    os.exited s.env ⊆ os.exited t.env := by
  obtain ⟨p, r, hc, hpid, hfind⟩ := findChld_held h.core h.mem
  obtain ⟨⟨w, e⟩, hw⟩ : ∃ x, E.waitpid (s.rt r).pid s.env = x := ⟨_, rfl⟩
  obtain ⟨hecho, hun, hex⟩ : w = ⟨-1, true⟩ ∧ os.unreaped e = os.unreaped s.env ∧ os.exited s.env ⊆ os.exited e := by
    have hnot : (s.rt r).pid ∉ os.unreaped s.env := by rw [h.exact, hpid]; exact fun hx => hx.2 rfl
    rcases os.waitpid (h.once.pos p r hc) hw with ⟨-, hok⟩ | ⟨hx, -⟩ | ⟨hx, -⟩
    · exact hok
    · exact absurd hx hnot
    · exact absurd hx hnot
  obtain ⟨t, ht, htc, htr, htu, hte, hts⟩ := stop_ended os h.core hc hw (by rw [hecho]; exact Or.inr ⟨rfl, rfl⟩)
  obtain ⟨hto, hth⟩ := h.once.released hc htc htr h.core
  have hb : RtPrcInfo.buryPid E z s = .ok t := by
    obtain ⟨l, hl, hlp, -⟩ := findChld_some hfind
    obtain ⟨q, hq, hb⟩ := bury_eq (E := E) h.core hl hlp .buryParent
    unfold RtPrcInfo.buryPid
    rw [hfind]
    dsimp only
    rw [hb, h.core.chld_inj hq hc, ht]
  have hct : Core t := by
    have hout := buryPid_outcome (E := E) (V := AnyType) h.core z
    rw [hb] at hout
    exact plain_core h.core hout
  rw [hpid] at hth
  have hexact : held t = os.unreaped t.env := by
    calc held t = held s \ {z} := hth
      _ = os.unreaped s.env := h.exact.symm
      _ = os.unreaped e := hun.symm
      _ = os.unreaped t.env := htu.symm
  exact ⟨t, p, hb, hct, ⟨hto, hexact, hts h.signals⟩, by simp [hc], htc, hth, hex.trans hte⟩

theorem waitAny_eq {w : WaitRet} {e : ε} (hw : E.waitpid (-1) s.env = (w, e)) :
    RtPrcInfo.waitAny E s = (w.pid, { s with env := e, trace := .waitpid (-1) w.pid :: s.trace }) := by
  unfold RtPrcInfo.waitAny
  rw [hw]

/-- one call of `waitpid(-1)`: it reaps a child, or no child has exited and nothing changed -/
theorem waitAny_cases (hcore : Core s) (h : PidInv os s) {w : WaitRet} {e : ε} (hw : E.waitpid (-1) s.env = (w, e)) :
    (0 < w.pid ∧ Reaped os w.pid (RtPrcInfo.waitAny E s).2 ∧ os.exited s.env \ {w.pid} ⊆ os.exited e) ∨
    (w.pid ≤ 0 ∧ PidInv os (RtPrcInfo.waitAny E s).2 ∧ os.exited s.env = ∅) := by
  rw [waitAny_eq hw]
  rcases os.waitAny hw with ⟨hpos, hmem, hun, hex⟩ | ⟨hle, hnone, hun⟩
  · refine Or.inl ⟨hpos, ⟨?_, h.once.congr rfl (.of_eq rfl), ?_, ?_, h.signals.call rfl⟩, hex⟩
    · exact move_core (V := AnyType) (Move.reap w e hw) hcore
    · exact (h.exact ▸ hmem : w.pid ∈ held s)
    · exact hun.trans (by rw [← h.exact]; rfl)
  · exact Or.inr ⟨hle, h.congr rfl (.of_eq rfl) hun (h.signals.call rfl), hnone⟩

/-- **`sBuryChld` keeps the pids, and no child that had exited before keeps a record.** -/
theorem sBuryChld_pid (n : ℕ) : ∀ s : St ε, Core s → PidInv os s → RtPrcInfo.sBuryChld E n s = .ok t →
    PidInv os t ∧ held t ⊆ held s ∧ ∀ z ∈ held t, z ∉ os.exited s.env := by
  induction n with
  | zero => intro s _ _ ht; cases ht
  | succ n ih =>
    intro s hcore h ht
    obtain ⟨⟨w, e⟩, hw⟩ : ∃ x, E.waitpid (-1) s.env = x := ⟨_, rfl⟩
    have heq := waitAny_eq (E := E) hw
    unfold RtPrcInfo.sBuryChld at ht
    dsimp only at ht
    rcases waitAny_cases hcore h hw with ⟨hpos, hreap, hex⟩ | ⟨hle, hpid, hnone⟩
    · rw [if_neg (by rw [heq]; exact not_le.2 hpos)] at ht
      rw [heq] at hreap ht
      obtain ⟨u, p, hu, hcu, hpu, -, -, hheld, hex'⟩ := buryPid_reaped hreap
      rw [hu, ok_bind] at ht
      obtain ⟨hpt, hsub, hold⟩ := ih u hcu hpu ht
      have hdrop : ∀ z ∈ held t, z ∈ held s ∧ z ≠ w.pid := fun z hz => by
        have hzu := hsub hz
        rw [hheld] at hzu
        exact hzu
      exact ⟨hpt, fun z hz => (hdrop z hz).1, fun z hz hzx => hold z hz (hex' (hex ⟨hzx, (hdrop z hz).2⟩))⟩
    · -- no child has exited: the loop ends
      rw [if_pos (by rw [heq]; exact hle)] at ht
      cases ht
      rw [heq] at hpid ⊢
      exact ⟨hpid, subset_rfl, fun z _ => by simp [hnone]⟩

/-- the managers with a child -/
def busy (s : St ε) : Finset MngId := Finset.univ.filter fun p => s.chld p ≠ none

/-- **`sBuryChld` returns:** every round but the last frees a record. -/
theorem sBuryChld_returns (os : Os E) (n : ℕ) : ∀ s : St ε, Core s → PidInv os s → (busy s).card < n →
    ∃ t, RtPrcInfo.sBuryChld E n s = .ok t := by
  induction n with
  | zero => intro s _ _ hn; omega
  | succ n ih =>
    intro s hcore h hn
    obtain ⟨⟨w, e⟩, hw⟩ : ∃ x, E.waitpid (-1) s.env = x := ⟨_, rfl⟩
    have heq := waitAny_eq (E := E) hw
    unfold RtPrcInfo.sBuryChld
    dsimp only
    rcases waitAny_cases hcore h hw with ⟨hpos, hreap, -⟩ | ⟨hle, -, -⟩
    · rw [if_neg (by rw [heq]; exact not_le.2 hpos)]
      rw [heq] at hreap ⊢
      obtain ⟨u, p, hu, hcu, hpu, hp, hchld, -, -⟩ := buryPid_reaped hreap
      rw [hu, ok_bind]
      refine ih u hcu hpu ?_
      have hlt : busy u ⊂ busy s := by
        refine Finset.ssubset_iff_of_subset ?_ |>.2 ⟨p, by simpa [busy] using hp, by simp [busy, hchld]⟩
        intro q hq
        by_cases hqp : q = p
        · subst hqp; simpa [busy] using hp
        · simpa [busy, hchld, hqp] using hq
      have := Finset.card_lt_card hlt
      omega
    · exact ⟨_, if_pos (by rw [heq]; exact hle)⟩

/-! ## Runs -/

theorem ReachedFrom.pid (os : Os E) {env : ε} (h0 : os.unreaped env = ∅) {es : List (Event μ)}
    (hr : ReachedFrom E env es s) : Core s ∧ PidInv os s := by
  obtain ⟨timer, needKillPrc, exeName, selfSlot, s₀, hs₀, hrun⟩ := hr
  rw [processStart_boot] at hs₀
  cases hs₀
  refine runFrom_inv (I := fun a => Core a ∧ PidInv os a) (P := fun _ => True) ?_
    (fun _ _ => trivial) ⟨ready_core .., ?_⟩ hrun
  · intro a e b _ ha hb
    cases hn : e.reaps with
    | false =>
      have hout := step_effect (E := E) (V := AnyType) (fun _ _ => trivial) ha.1 hn (observes_any e)
      rw [hb] at hout
      refine chain_inv (I := fun a => Core a ∧ PidInv os a) (fun x y hm hx => ⟨?_, effect_pid hx.1 hx.2 hm⟩) hout ha
      exact hm.elim (fun hm => move_core hm hx.1) fun hm => move_core hm hx.1
    | true =>
      cases e with
      | sBuryChld n =>
        have hout := sBuryChld_outcome (E := E) (V := AnyType) n a ha.1
        have hok : RtPrcInfo.sBuryChld E n a = .ok b := hb
        rw [hok] at hout
        exact ⟨runtime_core ha.1 hout, (sBuryChld_pid n a ha.1 ha.2 hok).1⟩
      | _ => cases hn
  · refine ⟨⟨fun _ _ => rfl, ?_, ?_⟩, ?_, ?_⟩
    · intro p r hp
      cases hp
    · intro p q r r' hp
      cases hp
    · have hnone : held (boot timer needKillPrc exeName selfSlot env).ready = ∅ := by
        ext z
        simp [held, St.ready, boot]
      rw [hnone]
      exact h0.symm
    · intro _ _ _ hm
      cases hm

theorem sFindObj_iff (hcore : Core s) (h : PidOnce s) {l : ListId} (hl : l ≠ .pool) (pid : ℤ) (r : RecId) :
    RtPrcInfo.sFindObj s l pid = some r ↔ r ∈ s.lists l ∧ (s.rt r).pid = pid := by
  refine ⟨sFindObj_some, fun ⟨hr, hpid⟩ => ?_⟩
  obtain ⟨p, -, hc⟩ := hcore.parent_of_mem hr hl
  have hsome : (RtPrcInfo.sFindObj s l pid).isSome := List.find?_isSome.2 ⟨r, hr, by simpa using hpid⟩
  obtain ⟨r', hr'⟩ := Option.isSome_iff_exists.1 hsome
  obtain ⟨hm, hpid'⟩ := sFindObj_some hr'
  obtain ⟨q, -, hq⟩ := hcore.parent_of_mem hm hl
  obtain rfl := h.inj p q r r' hc hq (hpid.trans hpid'.symm)
  rw [hc] at hq
  rw [hr', hq]

/-- a record is a child's iff it is not in the pool -/
theorem chld_iff (hcore : Core s) (r : RecId) : r ∉ s.lists .pool ↔ ∃ p, s.chld p = some r := by
  refine ⟨?_, fun ⟨p, hc⟩ => hcore.chld_not_pool hc⟩
  intro hr
  obtain ⟨l, hl⟩ := hcore.total r
  obtain ⟨p, -, hc⟩ := hcore.parent_of_mem hl fun he => hr (he ▸ hl)
  exact ⟨p, hc⟩

/-- **Pid safety.** In every run, shutdown calls included, the pids of the records outside the pool are distinct and are
those of the un-reaped children; every signal was sent to a child that was un-reaped then; `sFindObj` finds the record
of a pid in its list; and `sBuryChld` returns, and then no record has the pid of a child that had exited before. -/
theorem pid_safety (os : Os E) {env : ε} (h0 : os.unreaped env = ∅) {es : List (Event μ)}
    (hr : ReachedFrom E env es s) :
    (∀ r r', r ∉ s.lists .pool → r' ∉ s.lists .pool → (s.rt r).pid = (s.rt r').pid → r = r') ∧
    (∀ z, z ∈ os.unreaped s.env ↔ ∃ r, r ∉ s.lists .pool ∧ (s.rt r).pid = z) ∧
    (∀ pid sig w, .kill pid sig w ∈ s.trace → pid ∈ os.unreaped w) ∧
    (∀ l pid r, l ≠ .pool → (RtPrcInfo.sFindObj s l pid = some r ↔ r ∈ s.lists l ∧ (s.rt r).pid = pid)) ∧
    (∃ n t, RtPrcInfo.sBuryChld E n s = .ok t) ∧
    ∀ n t, RtPrcInfo.sBuryChld E n s = .ok t → ∀ r, (t.rt r).pid ∉ os.exited s.env := by
  obtain ⟨hcore, h⟩ := hr.pid os h0
  refine ⟨?_, ?_, h.signals, fun l pid r hl => sFindObj_iff hcore h.once hl pid r,
    ⟨_, sBuryChld_returns os _ s hcore h (Nat.lt_succ_self _)⟩, ?_⟩
  · intro r r' hm hm' he
    obtain ⟨p, hp⟩ := (chld_iff hcore r).1 hm
    obtain ⟨q, hq⟩ := (chld_iff hcore r').1 hm'
    obtain rfl := h.once.inj p q r r' hp hq he
    rw [hp] at hq
    exact Option.some.inj hq
  · intro z
    rw [← h.exact]
    constructor
    · intro hx
      obtain ⟨p, r, hc, hz⟩ := hx
      exact ⟨r, hcore.chld_not_pool hc, hz⟩
    · intro hx
      obtain ⟨r, hm, hz⟩ := hx
      obtain ⟨p, hp⟩ := (chld_iff hcore r).1 hm
      exact ⟨p, r, hp, hz⟩
  · intro n t ht r hx
    obtain ⟨hpt, -, hold⟩ := sBuryChld_pid n s hcore h ht
    have hct : Core t := by
      have hout := sBuryChld_outcome (E := E) (V := AnyType) n s hcore
      rw [ht] at hout
      exact runtime_core hcore hout
    cases hp : (t.rt r).pParent with
    | some p => exact hold _ ⟨p, r, (hct.assoc p r).2 hp, rfl⟩ hx
    | none =>
      -- a free record has pid -1, and that of a child is positive
      rw [hpt.once.free r hp] at hx
      obtain ⟨q, r', hq, hneg⟩ : (-1 : ℤ) ∈ held s := h.exact ▸ os.exited_sub _ hx
      have hpos := h.once.pos q r' hq
      omega

/-- every process runs, two of them exit, and one SIGCHLD is left of the two -/
theorem pid_safety_exits : ∃ s, ReachedFrom World.env World.fresh (startAll ++ [.outside 2, .outside 3]) s ∧
    (∀ z, z ∈ World.os.unreaped s.env ↔ ∃ r, r ∉ s.lists .pool ∧ (s.rt r).pid = z) ∧
    ∃ n t, RtPrcInfo.sBuryChld World.env n s = .ok t ∧ ∀ r, (t.rt r).pid ∉ World.os.exited s.env := by
  obtain ⟨s, hs, -⟩ := exists_reached World.env World.fresh (startAll ++ [.outside 2, .outside 3])
    (fun s => decide (s.env.zombies = [3, 2])) (by decide +kernel)
  have h0 : World.os.unreaped World.fresh = ∅ := by simp [World.os, World.unreaped, World.fresh]
  obtain ⟨-, hun, -, -, ⟨n, t, ht⟩, hold⟩ := pid_safety World.os h0 hs
  exact ⟨s, hs, hun, n, t, ht, hold n t ht⟩

end LinuxDrv.Pdm
