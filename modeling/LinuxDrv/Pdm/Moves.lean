/-
What an event can do to the process manager, said once.

`Move E V k s t` is one effect: a process started or released, a record moved between the lists, a card come or gone, a
timer stopped. Its constructors give the state after it and what was true before it. Every event is a chain of moves
(`Pdm/Outcomes.lean`), so an invariant of all runs is proved by looking at the moves alone.

`Core` is what every run keeps, shutdown included and whatever the environment answers:
- `wf`, `total`: every record is linked exactly once, in exactly one list;
- `assoc`, `pool`: a manager has a record as child iff the record has it as parent, and the records without a parent
  are those of the pool;
- `nodup`, `link`, `card`: no manager is twice in the list to start, those in it have no child, and a dynamic one has a
  card.
`pool_ne_nil` is the counting argument: there are as many records as managers, so a manager without a child leaves a
record in the pool.
-/
import LinuxDrv.Pdm.Process

namespace LinuxDrv.Pdm

open LinuxDrv.Core

variable {ε μ : Type}

/-! ## Effects -/

namespace St

/-- record `r` is the process `pid` of manager `p` now, and `p` waits no longer -/
def captured (s : St ε) (p : MngId) (r : RecId) (argv : List (Option String)) (pid : ℤ) (e : ε) : St ε :=
  { s with
    rt := Function.update s.rt r { s.rt r with state := .normal, pid := pid, pParent := some p }
    lists := s.lists.accept .normal r
    chld := Function.update s.chld p (some r)
    list2Start := s.list2Start.filter fun q => decide (q ≠ p)
    env := e
    writes := (r, (s.rt r).state, .normal) :: s.writes
    trace := .fork p argv pid :: s.trace }

/-- record `r` of manager `p` is back in the pool, after `waitpid` returned `ret` -/
def released (s : St ε) (p : MngId) (r : RecId) (ret : ℤ) (e : ε) : St ε :=
  { s with
    rt := Function.update s.rt r ⟨.null, -1, 0, 0, none⟩
    lists := s.lists.accept .pool r
    chld := Function.update s.chld p none
    env := e
    writes := (r, (s.rt r).state, .null) :: s.writes
    trace := .waitpid (s.rt r).pid ret :: s.trace }

/-- record `r` was sent a signal -/
def signalled (s : St ε) (r : RecId) (sig : Sig) (new : PrcRtState) (e : ε) : St ε :=
  { s with
    rt := Function.update s.rt r { s.rt r with state := new }
    env := e
    writes := (r, (s.rt r).state, new) :: s.writes
    trace := .kill (s.rt r).pid sig s.env :: s.trace }

/-- record `r` is in list `l` now, whose timer runs -/
def moved (s : St ε) (l : ListId) (t : TimerId) (r : RecId) : St ε :=
  { s with
    rt := Function.update s.rt r { s.rt r with nExpTimes := 0, nRealTimes := 0 }
    lists := s.lists.accept l r
    timer := if s.lists l = [] then Function.update s.timer t true else s.timer }

/-- manager `p` waits in the list to start, whose timer runs -/
def linked (s : St ε) (p : MngId) : St ε :=
  { s with
    list2Start := s.list2Start ++ [p]
    timer := if s.list2Start = [] then Function.update s.timer .start true else s.timer }

/-- the card filter of slot `i` is `d` -/
def setDyn (s : St ε) (i : SlotId) (d : DynamicPrcMngInfo) : St ε := { s with dyn := Function.update s.dyn i d }

/-- the card of slot `i` is gone -/
def cardOff (s : St ε) (i : SlotId) : St ε :=
  s.setDyn i { s.dyn i with cardType := etindevNull, cardTypeNew := etindevNull }

/-- the manager of slot `i` is to be started again when its process is released -/
def again (s : St ε) (i : SlotId) : Bool := s.haveCardInserted i && !s.exitFlag

theorem again_iff {s : St ε} {i : SlotId} :
    s.again i = true ↔ (s.dyn i).cardType ≠ etindevNull ∧ s.exitFlag = false := by
  simp [St.again, St.haveCardInserted]

end St

/-- the assertion about a record fails for `x` -/
def Breaks (x : RtPrcInfo) : Assert → Prop
  | .startState => x.state ≠ .null
  | .startPid => x.pid ≠ -1
  | .startExp => x.nExpTimes ≠ 0
  | .startReal => x.nRealTimes ≠ 0
  | .stopState | .handleState => x.state = .null
  | .sendHelloState => x.state ≠ .normal
  | .signalKillState | .signalTermState => x.state ≠ .normal ∧ x.state ≠ .exiting
  | _ => False

/-- the assertions of `start`, `stop`, `sendHello`, `signalKill`, `signalTerm` and `handleNewType` about a record -/
def recordAsserts : List Assert :=
  [.startState, .startPid, .startExp, .startReal, .stopState, .sendHelloState, .signalKillState, .signalTermState,
    .handleState]

/-- `F` has the failed assertions of `s`, some on the way out of a failed call, and those of `l` that fail for `r` -/
def Fails (s : St ε) (r : RecId) (l : List Assert) (F : List Assert) : Prop :=
  ∀ a ∈ F, a ∈ s.failed ∨ a.errPath = true ∨ (a ∈ l ∧ Breaks (s.rt r) a)

/-- no assertion failed but on the way out of a failed call -/
def FailsErr (s : St ε) (F : List Assert) : Prop := ∀ a ∈ F, a ∈ s.failed ∨ a.errPath = true

/-- the list a timer is for has nothing in it -/
def TimerIdle (s : St ε) : TimerId → Prop
  | .start => s.list2Start = []
  | .term => s.lists .exiting = []
  | .kill => s.lists .killing = []

inductive Kind where
  | plain
  | reap
  | shut

/-- one effect of an event: of any callback, of `waitpid(-1)` in `sBuryChld`, or of the shutdown path. V has the card
types that are observed. -/
inductive Move (E : Env ε μ) (V : ETinDev → Prop) : Kind → St ε → St ε → Prop
  | outside {s : St ε} (m) : Move E V .plain s { s with env := E.outside m s.env }
  | timerOff {s : St ε} (t) (h : TimerIdle s t) : Move E V .plain s (s.stopTimer t)
  | noStart {s : St ε} (e F) (he : e = s.env ∨ E.fork s.env = (none, e)) (r) (hr : r ∈ s.lists .pool)
      (hF : Fails s r [.startState, .startPid, .startExp, .startReal] F) :
      Move E V .plain s { s with env := e, failed := F }
  | capture {s : St ε} (p r name pid e F) (hp : p ∈ s.list2Start) (hr : r ∈ s.lists .pool)
      (hname : ∀ i, p = .dyn i → name = getCardTypeStr (s.dyn i).cardType ∧ name.isSome)
      (hf : E.fork s.env = (some pid, e)) (hF : Fails s r [.startState, .startPid, .startExp, .startReal] F) :
      Move E V .plain s { s.captured p r (PrcMngInfo.argv s name p) pid e with failed := F }
  | waitFail {s : St ε} (p r w e F) (hc : s.chld p = some r) (hw : E.waitpid (s.rt r).pid s.env = (w, e))
      (hno : ¬ RtPrcInfo.WaitOk (s.rt r).pid w) (hF : Fails s r [.stopState] F) :
      Move E V .plain s { s with env := e, trace := .waitpid (s.rt r).pid w.pid :: s.trace, failed := F }
  | stopStat {s : St ε} (i r w e F) (hc : s.chld (.stat i) = some r) (hw : E.waitpid (s.rt r).pid s.env = (w, e))
      (hok : RtPrcInfo.WaitOk (s.rt r).pid w) (hF : Fails s r [.stopState] F) :
      Move E V .plain s { (s.released (.stat i) r w.pid e).linked (.stat i) with failed := F }
  /-- the child is released and the card stays off line: the ioctl failed, or it is not to be started again -/
  | stopOff {s : St ε} (i r w e ret e' F) (hc : s.chld (.dyn i) = some r) (hw : E.waitpid (s.rt r).pid s.env = (w, e))
      (hok : RtPrcInfo.WaitOk (s.rt r).pid w) (hi : E.ioctl ⟨slotId i, etindevNull⟩ e = (ret, e'))
      (hret : ret < 0 ∨ (0 ≤ ret ∧ s.again i = false)) (hF : Fails s r [.stopState] F) :
      Move E V .plain s { s.released (.dyn i) r w.pid e with
        env := e', failed := F
        trace := .ioctl (.subStop (s.again i)) ⟨slotId i, etindevNull⟩ ret e :: .waitpid (s.rt r).pid w.pid ::
          s.trace }
  /-- the child is released and the card was taken off line, but putting it on line again failed -/
  | stopLost {s : St ε} (i r w e ret e' ret' e'' F) (hc : s.chld (.dyn i) = some r)
      (hw : E.waitpid (s.rt r).pid s.env = (w, e)) (hok : RtPrcInfo.WaitOk (s.rt r).pid w)
      (hi : E.ioctl ⟨slotId i, etindevNull⟩ e = (ret, e')) (hret : 0 ≤ ret) (ha : s.again i = true)
      (hi' : E.ioctl ⟨slotId i, (s.dyn i).cardType⟩ e' = (ret', e'')) (hret' : ret' < 0)
      (hF : Fails s r [.stopState] F) :
      Move E V .plain s { s.released (.dyn i) r w.pid e with
        env := e'', failed := F
        trace := .ioctl (.subStop true) ⟨slotId i, (s.dyn i).cardType⟩ ret' e' ::
          .ioctl (.subStop true) ⟨slotId i, etindevNull⟩ ret e :: .waitpid (s.rt r).pid w.pid :: s.trace }
  /-- the child is released, the card was taken off line and on line again, and the manager waits to be started -/
  | stopAgain {s : St ε} (i r w e ret e' ret' e'' F) (hc : s.chld (.dyn i) = some r)
      (hw : E.waitpid (s.rt r).pid s.env = (w, e)) (hok : RtPrcInfo.WaitOk (s.rt r).pid w)
      (hi : E.ioctl ⟨slotId i, etindevNull⟩ e = (ret, e')) (hret : 0 ≤ ret) (ha : s.again i = true)
      (hi' : E.ioctl ⟨slotId i, (s.dyn i).cardType⟩ e' = (ret', e'')) (hret' : 0 ≤ ret')
      (hF : Fails s r [.stopState] F) :
      Move E V .plain s { (s.released (.dyn i) r w.pid e).linked (.dyn i) with
        env := e'', failed := F
        trace := .ioctl (.subStop true) ⟨slotId i, (s.dyn i).cardType⟩ ret' e' ::
          .ioctl (.subStop true) ⟨slotId i, etindevNull⟩ ret e :: .waitpid (s.rt r).pid w.pid :: s.trace }
  | kill {s : St ε} (r k e F) (hr : r ∈ s.lists .normal ∨ r ∈ s.lists .exiting) (hn : s.needKillPrc = true)
      (hk : E.kill (s.rt r).pid .sigkill s.env = (k, e)) (hk0 : 0 ≤ k) (hF : Fails s r [.signalKillState] F) :
      Move E V .plain s { (s.signalled r .sigkill .killing e).moved .killing .kill r with failed := F }
  | counts {s : St ε} (r x y F) (hr : r ∈ s.lists .normal) (hF : Fails s r [.sendHelloState] F) :
      Move E V .plain s { s.setRt r fun z => { z with nExpTimes := x, nRealTimes := y } with failed := F }
  /-- an observation that only the filter sees -/
  | filter {s : St ε} (i new cnt) :
      Move E V .plain s (s.setDyn i { s.dyn i with cardTypeNew := new, cnt4Filter := cnt })
  /-- the card of a running process is gone -/
  | goneTerm {s : St ε} (i r k e F) (hcard : (s.dyn i).cardType ≠ etindevNull) (hc : s.chld (.dyn i) = some r)
      (hst : (s.rt r).state = .normal) (hk : E.kill (s.rt r).pid .sigterm s.env = (k, e)) (hk0 : 0 ≤ k)
      (hF : Fails s r [] F) :
      Move E V .plain s { ((s.cardOff i).signalled r .sigterm .exiting e).moved .exiting .term r with failed := F }
  /-- the card of a process that is being killed is gone -/
  | goneKeep {s : St ε} (i r F) (hcard : (s.dyn i).cardType ≠ etindevNull) (hc : s.chld (.dyn i) = some r)
      (hst : (s.rt r).state ≠ .normal) (hF : Fails s r [.handleState] F) :
      Move E V .plain s { s.cardOff i with failed := F }
  /-- the card of a process still to be started is gone -/
  | goneWait {s : St ε} (i ret e) (hcard : (s.dyn i).cardType ≠ etindevNull) (hp : MngId.dyn i ∈ s.list2Start)
      (hi : E.ioctl ⟨slotId i, etindevNull⟩ s.env = (ret, e)) :
      Move E V .plain s { s.cardOff i with
        list2Start := s.list2Start.filter fun q => decide (q ≠ .dyn i)
        env := e
        trace := .ioctl .handleNewType ⟨slotId i, etindevNull⟩ ret s.env :: s.trace }
  /-- a card of type `new` is through the filter -/
  | come {s : St ε} (i new ret e F) (hV : V new) (hcard : (s.dyn i).cardType = etindevNull) (hnew : new ≠ etindevNull)
      (hc : s.chld (.dyn i) = none) (hi : E.ioctl ⟨slotId i, new⟩ s.env = (ret, e)) (hF : FailsErr s F) :
      Move E V .plain s { (s.setDyn i ⟨new, etindevNull, 0⟩).linked (.dyn i) with
        env := e, failed := F, trace := .ioctl .handleNewType ⟨slotId i, new⟩ ret s.env :: s.trace }
  | errPath {s : St ε} (F) (hF : FailsErr s F) : Move E V .plain s { s with failed := F }
  | reap {s : St ε} (w e) (hw : E.waitpid (-1) s.env = (w, e)) :
      Move E V .reap s { s with env := e, trace := .waitpid (-1) w.pid :: s.trace }
  | signal {s : St ε} (p r sig new a k e F) (hc : s.chld p = some r)
      (hs : (a = .signalTermState ∧ sig = .sigterm ∧ new = .exiting) ∨
        (a = .signalKillState ∧ sig = .sigkill ∧ new = .killing))
      (hk : E.kill (s.rt r).pid sig s.env = (k, e)) (hk0 : 0 ≤ k) (hF : Fails s r [a] F) :
      Move E V .shut s { s.signalled r sig new e with failed := F }
  | sleep {s : St ε} (n) : Move E V .shut s { s with env := E.sleep n s.env }
  | setExit {s : St ε} : Move E V .shut s { s with exitFlag := true }
  | ioctlInt {s : St ε} (c k e) (hk : E.ioctlInt c s.env = (k, e)) (hk0 : 0 ≤ k) : Move E V .shut s { s with env := e }
  | timersOff {s : St ε} : Move E V .shut s { s with timer := fun _ => false }

/-- where a fault can strike: a call that failed, a card gone while its manager neither runs nor waits, and the bound
on a `waitpid` loop -/
def FaultAt (E : Env ε μ) (s : St ε) : Fault → Prop
  | .exit => (∃ pid sig, (E.kill pid sig s.env).1 < 0) ∨ ∃ c, (E.ioctlInt c s.env).1 < 0
  | .delUnlinked p => ∃ i, p = .dyn i ∧ (s.dyn i).cardType ≠ etindevNull ∧ s.chld p = none ∧ p ∉ s.list2Start
  | .stray => True
  | _ => False

/-! ## What every run keeps -/

structure Core (s : St ε) : Prop where
  wf : s.lists.Wf
  total : ∀ r, ∃ l, r ∈ s.lists l
  assoc : ∀ p r, s.chld p = some r ↔ (s.rt r).pParent = some p
  pool : ∀ r, (s.rt r).pParent = none ↔ r ∈ s.lists .pool
  nodup : s.list2Start.Nodup
  link : ∀ p ∈ s.list2Start, s.chld p = none
  card : ∀ i, MngId.dyn i ∈ s.list2Start → (s.dyn i).cardType ≠ etindevNull

namespace Core

variable {s t : St ε}

/-- the child of a manager is not in the pool -/
theorem chld_not_pool (h : Core s) {p : MngId} {r : RecId} (hc : s.chld p = some r) : r ∉ s.lists .pool := by
  intro hr
  have hp := (h.assoc p r).1 hc
  rw [(h.pool r).2 hr] at hp
  cases hp

/-- a record outside the pool is the child of its parent -/
theorem parent_of_mem (h : Core s) {r : RecId} {l : ListId} (hr : r ∈ s.lists l) (hl : l ≠ .pool) :
    ∃ p, (s.rt r).pParent = some p ∧ s.chld p = some r := by
  cases hp : (s.rt r).pParent with
  | none => exact absurd (h.wf.disj l .pool r hr ((h.pool r).1 hp)) hl
  | some p => exact ⟨p, rfl, (h.assoc p r).2 hp⟩

/-- a record is the child of one manager -/
theorem chld_inj (h : Core s) {p q : MngId} {r : RecId} (hp : s.chld p = some r) (hq : s.chld q = some r) : p = q := by
  have h₁ := (h.assoc p r).1 hp
  rw [(h.assoc q r).1 hq] at h₁
  exact (Option.some.inj h₁).symm

/-- as many managers as records: one without a child leaves a record in the pool -/
theorem pool_ne_nil (h : Core s) {p : MngId} (hp : s.chld p = none) : s.lists .pool ≠ [] := by
  intro hnil
  have hpar : ∀ r, ∃ q, (s.rt r).pParent = some q := by
    intro r
    cases hq : (s.rt r).pParent with
    | none => have := (h.pool r).1 hq; simp [hnil] at this
    | some q => exact ⟨q, rfl⟩
  choose f hf using hpar
  have hinj : Function.Injective f := by
    intro r r' hrr
    have h₁ := (h.assoc (f r) r).2 (hf r)
    have h₂ := (h.assoc (f r') r').2 (hf r')
    rw [hrr, h₂] at h₁
    exact (Option.some.inj h₁).symm
  have hcard : Fintype.card RecId = Fintype.card MngId := by decide
  obtain ⟨r, hr⟩ := ((Fintype.bijective_iff_injective_and_card f).2 ⟨hinj, hcard⟩).2 p
  have hc := (h.assoc (f r) r).2 (hf r)
  rw [hr, hp] at hc
  cases hc

/-- nothing of `Core` changed -/
theorem congr (h : Core s) (hl : t.lists = s.lists) (hr : ∀ r, (t.rt r).pParent = (s.rt r).pParent)
    (hc : t.chld = s.chld) (h2 : t.list2Start = s.list2Start)
    (hd : ∀ i, MngId.dyn i ∈ s.list2Start → (t.dyn i).cardType = (s.dyn i).cardType) : Core t := by
  refine ⟨hl ▸ h.wf, hl ▸ h.total, ?_, ?_, h2 ▸ h.nodup, ?_, ?_⟩
  · intro p r; rw [hc, hr]; exact h.assoc p r
  · intro r; rw [hr, hl]; exact h.pool r
  · rw [h2, hc]; exact h.link
  · intro i hi; rw [h2] at hi; rw [hd i hi]; exact h.card i hi

/-- a record moves between lists other than the pool -/
theorem moved (h : Core s) {l : ListId} (hl : l ≠ .pool) {r : RecId} (hr : r ∉ s.lists .pool) (tm : TimerId) :
    Core (s.moved l tm r) := by
  have hpar : ∀ r', ((s.moved l tm r).rt r').pParent = (s.rt r').pParent := by
    intro r'
    by_cases hrr : r' = r
    · subst hrr; simp [St.moved]
    · simp [St.moved, hrr]
  refine ⟨h.wf.accept l r, ?_, ?_, ?_, h.nodup, h.link, h.card⟩
  · intro r'
    exact Lists.total_accept h.total l r r'
  · intro p r'
    rw [hpar]; exact h.assoc p r'
  · intro r'
    rw [hpar, h.pool r']
    show r' ∈ s.lists .pool ↔ r' ∈ s.lists.accept l r .pool
    rw [Lists.mem_accept]
    constructor
    · intro hm; exact Or.inl ⟨hm, fun hrr => hr (hrr ▸ hm)⟩
    · intro hx
      rcases hx with ⟨hm, -⟩ | ⟨-, hp⟩
      · exact hm
      · exact absurd hp.symm hl

/-- a manager that waits gets a record of the pool -/
theorem captured (h : Core s) {p : MngId} (hp : p ∈ s.list2Start) {r : RecId} (hr : r ∈ s.lists .pool)
    (argv : List (Option String)) (pid : ℤ) (e : ε) : Core (s.captured p r argv pid e) := by
  have hnone : (s.rt r).pParent = none := (h.pool r).2 hr
  have hchld : ∀ q, s.chld q ≠ some r := fun q hq => h.chld_not_pool hq hr
  have hmem : ∀ q, q ∈ (s.captured p r argv pid e).list2Start ↔ q ∈ s.list2Start ∧ q ≠ p := by
    intro q; simp [St.captured]
  refine ⟨h.wf.accept .normal r, ?_, ?_, ?_, h.nodup.filter _, ?_,
    fun i hi => h.card i ((hmem _).1 hi).1⟩
  · intro r'
    exact Lists.total_accept h.total .normal r r'
  · intro q r'
    -- the association grows by the pair (p, r), neither of which was in it
    have hp0 := h.link p hp
    by_cases hq : q = p <;> by_cases hrr : r' = r
    · subst hq; subst hrr; simp [St.captured]
    · subst hq
      have := (h.assoc q r').not.1 (by simp [hp0])
      simpa [St.captured, hrr, Ne.symm hrr] using this
    · subst hrr
      simpa [St.captured, hq, Ne.symm hq] using hchld q
    · simpa [St.captured, hq, hrr] using h.assoc q r'
  · intro r'
    show (Function.update s.rt r _ r').pParent = none ↔ r' ∈ s.lists.accept .normal r .pool
    rw [Lists.mem_accept]
    by_cases hrr : r' = r
    · subst hrr; simp
    · simpa [hrr] using h.pool r'
  · intro q hq
    obtain ⟨hq, hqp⟩ := (hmem q).1 hq
    simpa [St.captured, hqp] using h.link q hq

/-- a manager gives its record back -/
theorem released (h : Core s) {p : MngId} {r : RecId} (hc : s.chld p = some r) (ret : ℤ) (e : ε) :
    Core (s.released p r ret e) := by
  have hpar := (h.assoc p r).1 hc
  refine ⟨h.wf.accept .pool r, ?_, ?_, ?_, h.nodup, ?_, h.card⟩
  · intro r'
    exact Lists.total_accept h.total .pool r r'
  · intro q r'
    -- the association loses the pair (p, r)
    by_cases hq : q = p <;> by_cases hrr : r' = r
    · subst hq; subst hrr; simp [St.released]
    · subst hq
      have : s.chld q ≠ some r' := by rw [hc]; simpa using Ne.symm hrr
      simpa [St.released, hrr] using (h.assoc q r').not.1 this
    · subst hrr
      have : s.chld q ≠ some r' := fun hq' => hq (h.chld_inj hq' hc)
      simpa [St.released, hq] using this
    · simpa [St.released, hq, hrr] using h.assoc q r'
  · intro r'
    show (Function.update s.rt r _ r').pParent = none ↔ r' ∈ s.lists.accept .pool r .pool
    rw [Lists.mem_accept]
    by_cases hrr : r' = r
    · subst hrr; simp
    · simpa [hrr] using h.pool r'
  · intro q hq
    have hq0 := h.link q hq
    have hqp : q ≠ p := by rintro rfl; rw [hc] at hq0; cases hq0
    simpa [St.released, hqp] using hq0

/-- a manager without a child is put into the list to start -/
theorem linked (h : Core s) {p : MngId} (hp : p ∉ s.list2Start) (hc : s.chld p = none)
    (hcard : ∀ i, p = .dyn i → (s.dyn i).cardType ≠ etindevNull) : Core (s.linked p) := by
  refine ⟨h.wf, h.total, h.assoc, h.pool, ?_, ?_, ?_⟩
  · exact h.nodup.append (List.nodup_singleton p) (List.disjoint_singleton.2 hp)
  · intro q hq
    simp only [St.linked, List.mem_append, List.mem_singleton] at hq
    rcases hq with hq | rfl
    · exact h.link q hq
    · exact hc
  · intro i hi
    simp only [St.linked, List.mem_append, List.mem_singleton] at hi
    rcases hi with hi | hi
    · exact h.card i hi
    · exact hcard i hi.symm

/-- a manager without a child is taken out of the list to start, whatever becomes of its card -/
theorem unlinked (h : Core s) (i : SlotId) (d : DynamicPrcMngInfo) :
    Core { s.setDyn i d with list2Start := s.list2Start.filter fun q => decide (q ≠ .dyn i) } := by
  refine ⟨h.wf, h.total, h.assoc, h.pool, h.nodup.filter _, fun q hq => h.link q (List.mem_filter.1 hq).1, ?_⟩
  intro j hj
  obtain ⟨hj, hji⟩ := List.mem_filter.1 hj
  have hji : j ≠ i := by simpa using hji
  simpa [St.setDyn, hji] using h.card j hj

/-- the card of a manager that does not wait changes -/
theorem setDyn (h : Core s) {i : SlotId} (hi : MngId.dyn i ∉ s.list2Start) (d : DynamicPrcMngInfo) :
    Core (s.setDyn i d) := by
  refine h.congr rfl (fun _ => rfl) rfl rfl fun j hj => ?_
  have hji : j ≠ i := by rintro rfl; exact hi hj
  simp [St.setDyn, hji]

/-- a signal changes nothing of `Core` -/
theorem signalled (h : Core s) (r : RecId) (sig : Sig) (new : PrcRtState) (e : ε) :
    Core (s.signalled r sig new e) := by
  refine h.congr rfl ?_ rfl rfl fun _ _ => rfl
  intro r'
  by_cases hrr : r' = r
  · subst hrr; simp [St.signalled]
  · simp [St.signalled, hrr]

/-- a write that leaves the parent of a record changes nothing of `Core` -/
theorem setRt (h : Core s) (r : RecId) {f : RtPrcInfo → RtPrcInfo} (hf : ∀ x, (f x).pParent = x.pParent) :
    Core (s.setRt r f) := by
  refine h.congr rfl ?_ rfl rfl fun _ _ => rfl
  intro r'
  by_cases hrr : r' = r
  · subst hrr; simp [St.setRt, hf]
  · simp [St.setRt, hrr]

/-- a manager with a child does not wait -/
theorem not_linked (h : Core s) {p : MngId} {r : RecId} (hc : s.chld p = some r) : p ∉ s.list2Start := by
  intro hp
  rw [h.link p hp] at hc
  cases hc

end Core

/-- **Every move keeps `Core`.** -/
theorem move_core {E : Env ε μ} {V : ETinDev → Prop} {k : Kind} {s t : St ε} (hm : Move E V k s t) (h : Core s) :
    Core t := by
  cases hm with
  | outside | timerOff | noStart | waitFail | errPath | reap | sleep | setExit | ioctlInt | timersOff =>
    exact h.congr rfl (fun _ => rfl) rfl rfl fun _ _ => rfl
  | capture p r name pid e F hp hr =>
    exact (h.captured hp hr (PrcMngInfo.argv s name p) pid e).congr rfl (fun _ => rfl) rfl rfl fun _ _ => rfl
  | stopStat i r w e F hc =>
    have hrel := h.released hc w.pid e
    refine (hrel.linked (p := .stat i) (h.not_linked hc) (by simp [St.released]) ?_).congr rfl (fun _ => rfl) rfl rfl
      fun _ _ => rfl
    intro j hj; cases hj
  | stopOff i r w e ret e' F hc =>
    exact (h.released hc w.pid e).congr rfl (fun _ => rfl) rfl rfl fun _ _ => rfl
  | stopLost i r w e ret e' ret' e'' F hc =>
    exact (h.released hc w.pid e).congr rfl (fun _ => rfl) rfl rfl fun _ _ => rfl
  | stopAgain i r w e ret e' ret' e'' F hc _ _ _ _ ha =>
    have hrel := h.released hc w.pid e
    refine (hrel.linked (p := .dyn i) (h.not_linked hc) (by simp [St.released]) ?_).congr rfl (fun _ => rfl) rfl rfl
      fun _ _ => rfl
    intro j hj; cases hj
    exact (St.again_iff.1 ha).1
  | kill r k e F hr =>
    have hp : r ∉ (s.signalled r .sigkill .killing e).lists .pool := by
      intro hp
      rcases hr with hr | hr
      · cases h.wf.disj _ _ r hp hr
      · cases h.wf.disj _ _ r hp hr
    exact ((h.signalled r .sigkill .killing e).moved (by simp) hp .kill).congr rfl (fun _ => rfl) rfl rfl
      fun _ _ => rfl
  | counts r x y F hr =>
    have hset := h.setRt r (f := fun z => { z with nExpTimes := x, nRealTimes := y }) fun _ => rfl
    exact hset.congr rfl (fun _ => rfl) rfl rfl fun _ _ => rfl
  | filter i new cnt =>
    refine h.congr rfl (fun _ => rfl) rfl rfl fun j _ => ?_
    by_cases hji : j = i
    · subst hji; simp [St.setDyn]
    · simp [St.setDyn, hji]
  | goneTerm i r k e F _ hc =>
    have hoff := h.setDyn (h.not_linked hc) { s.dyn i with cardType := etindevNull, cardTypeNew := etindevNull }
    exact ((hoff.signalled r .sigterm .exiting e).moved (by simp) (h.chld_not_pool hc) .term).congr rfl
      (fun _ => rfl) rfl rfl fun _ _ => rfl
  | goneKeep i r F _ hc =>
    exact (h.setDyn (h.not_linked hc) _).congr rfl (fun _ => rfl) rfl rfl fun _ _ => rfl
  | goneWait i ret e =>
    exact (h.unlinked i _).congr rfl (fun _ => rfl) rfl rfl fun _ _ => rfl
  | come i new ret e F _ hcard hnew hc =>
    have hi : MngId.dyn i ∉ s.list2Start := fun hi => h.card i hi hcard
    refine ((h.setDyn hi ⟨new, etindevNull, 0⟩).linked hi hc ?_).congr rfl (fun _ => rfl) rfl rfl fun _ _ => rfl
    intro j hj; cases hj
    simpa [St.setDyn] using hnew
  | signal p r sig new a k e F =>
    exact (h.signalled r sig new e).congr rfl (fun _ => rfl) rfl rfl fun _ _ => rfl

end LinuxDrv.Pdm
