/-
The process manager over the file of the pdm driver.

`CDynamicPrcMngInfo` hears about cards in two ways: its timer asks the driver for all card types, and the event loop
hands it each record that it reads from the file of the driver. Here both answers come from the driver: a `Whole` is
the process manager with the lists and the card types of `pdm_drv_main_t`. Callbacks come in any order, processes fail
and exit as they like, and other processes read the file.

The library of the event loop is not in the repository: it calls `sHandleCardChange` for a record that it read, and
reads when `pdm_drv_poll` says that the file is readable. The file never is.
- `SlotMove`: what a callback that observes no card can do to a slot.
- `Watch`: the filter of ETIN_SLOT_SELF after k ticks of the timer, and what is in the slot.
- `card_supervised`: from the fourth tick on the slot has an MIO card in the driver, and an MIO process that runs or
  waits to be started; before it has neither. This needs a driver as `SlotDriver` says: no `cb_online` fails, and nobody
  else puts a card on or off line.
-/
import LinuxDrv.Driver.FileOp
import LinuxDrv.Pdm.Filter
import LinuxDrv.Pdm.SlotAgree

namespace LinuxDrv.Pdm

open LinuxDrv.Core LinuxDrv.Driver Relation

variable {ε μ : Type} {E : Env ε μ} {V : ETinDev → Prop} {s t : St ε} {os : Os E} {D : SlotDriver E} {i j : SlotId}

/-! ## The whole -/

structure Whole (ε : Type) where
  prc : St ε
  /-- `card_type` of the entries of `m_cardData` -/
  cardType : SlotId → ETinDev
  lists : Lists CardListId SlotId

/-- the driver behind the file -/
def Whole.main (D : SlotDriver E) (n : Whole ε) : PdmDrvMain := ⟨etinSlotPdm, n.cardType, D.drv n.prc.env⟩

/-- `m_data` of the entries of `m_cardData` -/
def Whole.data (n : Whole ε) (i : SlotId) : DevMngDrvData := ⟨slotId i, n.cardType i⟩

/-- the event loop finds the file of the driver readable, reads a record and calls `sHandleCardChange` -/
def fdReady (E : Env ε μ) (fault : ℕ → Bool) (n : Whole ε) : Except Fault (Whole ε) :=
  if pdmDrvPoll n.lists &&& pollin ≠ 0 then
    match pdmDrvRead fault n.data sizeofData 0 n.lists with
    | none => .error .stray
    | some x => do
      let s ← x.buf.foldlM (fun s c => PrcMngInfo.sHandleCardChange E c s) n.prc
      .ok { n with prc := s, lists := x.lists }
  else .ok n

/-- another process reads from the file -/
def otherRead (fault : ℕ → Bool) (nBytes : ℕ) (pOff : ℤ) (n : Whole ε) : Except Fault (Whole ε) :=
  match pdmDrvRead fault n.data nBytes pOff n.lists with
  | none => .error .stray
  | some x => .ok { n with lists := x.lists }

/-- the timer of `CDynamicPrcMngInfo` ticks: `sCheckDevChange`, whose `cardtype` is `arg` before the ioctl -/
def devTimer (D : SlotDriver E) (arg : PdmArg) (n : Whole ε) : Except Fault (Whole ε) := do
  let x := pdmDrvIoctl ⟨0, none⟩ pdmIocGetAllCardType arg (n.main D)
  let s ← PrcMngInfo.sCheckDevChange E x.ret x.arg.cardType n.prc
  .ok { n with prc := s, cardType := x.main.cardType }

inductive WholeOp (μ : Type) where
  /-- a callback that observes no card, or something outside -/
  | callback (e : Event μ) (he : e.runtime = true ∧ e.blind = true)
  | devTimer (arg : PdmArg)
  | fdReady (fault : ℕ → Bool)
  | otherRead (fault : ℕ → Bool) (nBytes : ℕ) (pOff : ℤ)

def wholeStep (D : SlotDriver E) (n : Whole ε) : WholeOp μ → Except Fault (Whole ε)
  | .callback e _ => do
    let s ← step E n.prc e
    .ok { n with prc := s }
  | .devTimer arg => devTimer D arg n
  | .fdReady fault => fdReady E fault n
  | .otherRead fault nBytes pOff => otherRead fault nBytes pOff n

/-- `n` is reached by `ops` from the end of `CProcessPdm::Start`, called in world `env` after `pdm_drv_main_init` -/
def WholeReached (D : SlotDriver E) (env : ε) (ops : List (WholeOp μ)) (n : Whole ε) : Prop :=
  ∃ timer needKillPrc exeName selfSlot s₀, processStart (boot timer needKillPrc exeName selfSlot env) = .ok s₀ ∧
    runFrom (wholeStep D) ⟨s₀, fun _ => etindevNull, pdmDrvMainLists⟩ ops = .ok n

/-- how often the timer ticked -/
def timerTicks (ops : List (WholeOp μ)) : ℕ := ops.countP fun
  | .devTimer _ => true
  | _ => false

/-- what the process manager sees of an operation -/
def WholeOp.events : WholeOp μ → List (Event μ)
  | callback e _ => [e]
  | devTimer _ => [.sCheckDevChange 0 pdmGetSlotCardType]
  | fdReady _ => []
  | otherRead .. => []

/-- with no record to read, the file gives nothing but the card types -/
theorem wholeStep_eq_ok {n n' : Whole ε} (hq : n.lists .hd2Read = []) {op : WholeOp μ}
    (hstep : wholeStep D n op = .ok n') : n'.lists = n.lists ∧ run E n.prc op.events = .ok n'.prc := by
  cases op with
  | callback e he =>
    obtain ⟨s, hs, hstep⟩ := bind_eq_ok hstep
    cases hstep
    refine ⟨rfl, ?_⟩
    show runFrom (step E) n.prc [e] = .ok s
    rw [runFrom_cons, hs]
    rfl
  | devTimer arg =>
    have hmem : (pdmIocGetAllCardType, PdmIoctl.getAllCardType) ∈ pdmIoctlFunSet := by decide
    simp only [wholeStep, Pdm.devTimer, pdmDrvIoctl_of_mem hmem] at hstep
    obtain ⟨s, hs, hstep⟩ := bind_eq_ok hstep
    cases hstep
    refine ⟨rfl, ?_⟩
    have hstep : step E n.prc (.sCheckDevChange 0 pdmGetSlotCardType : Event μ) = .ok s := hs
    show runFrom (step E) n.prc [.sCheckDevChange 0 pdmGetSlotCardType] = .ok s
    rw [runFrom_cons, hstep]
    rfl
  | fdReady fault =>
    have hpoll : ¬ pdmDrvPoll n.lists &&& pollin ≠ 0 := fun hp => (pdmDrvPoll_pollin n.lists).1 hp hq
    simp only [wholeStep, Pdm.fdReady, if_neg hpoll] at hstep
    cases hstep
    exact ⟨rfl, rfl⟩
  | otherRead fault nBytes pOff =>
    simp only [wholeStep, Pdm.otherRead, pdmDrvRead_empty fault n.data nBytes pOff hq] at hstep
    cases hstep
    exact ⟨rfl, rfl⟩

/-! ## What callbacks do to a slot -/

/-- a callback that observes no card is a chain of moves, whatever is observed elsewhere -/
theorem step_blind (h : Core s) {e : Event μ} (he : e.runtime = true) (hb : e.blind = true) :
    Outcome (Runtime E V) (FaultAt E) s (step E s e) := by
  have hplain : ∀ {x : Except Fault (St ε)}, Outcome (Move E V .plain) (FaultAt E) s x →
      Outcome (Runtime E V) (FaultAt E) s x := fun hx => hx.mono fun _ _ => Or.inl
  cases e with
  | sCheckNeedStart => exact hplain (sCheckNeedStart_outcome h)
  | sHello4Live => exact hplain (sHello4Live_outcome h)
  | sUpdateLiveState pid => exact hplain (sUpdateLiveState_outcome pid)
  | sCheckLiveState => exact hplain (sCheckLiveState_outcome h)
  | sCheckTermTimeout => exact hplain sCheckTermTimeout_outcome
  | sCheckKillTimeout => exact hplain (sCheckKillTimeout_outcome h)
  | sBuryChld n => exact sBuryChld_outcome n s h
  | outside m => exact hplain (Outcome.move (Move.outside m))
  | handleNewType | sCheckDevChange | sHandleCardChange => cases hb
  | term4Stop | kill4Stop | stop | processStop => cases he

/-- one move, for slot `i`: its manager, its card and the driver's record of it -/
inductive SlotMove (D : SlotDriver E) (i : SlotId) (s t : St ε) : Prop where
  | quiet (hcard : (t.dyn i).cardType = (s.dyn i).cardType) (hchld : t.chld (.dyn i) = s.chld (.dyn i))
      (htype : D.typeInfo i t.env = D.typeInfo i s.env)
  | start (hp : .dyn i ∈ s.list2Start) (hcard : (t.dyn i).cardType = (s.dyn i).cardType)
      (htype : D.typeInfo i t.env = D.typeInfo i s.env)
  | stop (hc : s.chld (.dyn i) ≠ none) (hcard : (t.dyn i).cardType = (s.dyn i).cardType)
      (htype : D.typeInfo i t.env = none ∨ ((s.dyn i).cardType ≠ etindevNull ∧
        ∀ k, checkType (s.dyn i).cardType = some k → D.typeInfo i t.env = some k))
  | gone (hcard : (s.dyn i).cardType ≠ etindevNull) (hnone : (t.dyn i).cardType = etindevNull)
      (htype : D.typeInfo i t.env = D.typeInfo i s.env ∨ D.typeInfo i t.env = none)

/-- no type of card is observed -/
def NoType : ETinDev → Prop := fun _ => False

/-- a slot whose manager is not the one that a move is about -/
theorem SlotMove.other {p : MngId} {o : Option RecId} (hp : p ≠ .dyn i) (hd : t.dyn = s.dyn)
    (hc : t.chld = Function.update s.chld p o) (htype : D.typeInfo i t.env = D.typeInfo i s.env) : SlotMove D i s t :=
  .quiet (by rw [hd]) (by rw [hc, Function.update_of_ne (Ne.symm hp)]) htype

theorem cardOff_slotMove {a : St ε} (hcard : (s.dyn j).cardType ≠ etindevNull) (hd : a.dyn = (s.cardOff j).dyn)
    (hc : a.chld = s.chld) (htype : D.typeInfo i a.env = D.typeInfo i s.env) : SlotMove D i s a := by
  by_cases hji : j = i
  · subst hji
    refine .gone hcard ?_ (Or.inl htype)
    rw [hd]
    simp [St.cardOff, St.setDyn]
  · refine .quiet ?_ (by rw [hc]) htype
    rw [hd]
    simp [St.cardOff, St.setDyn, Ne.symm hji]

/-- a process ends, and its card goes off line and on line again -/
theorem again_slotMove (hi : slotId i ≠ etinSlotPdm) {k : SlotId} {r : RecId} {w : WaitRet} {ret ret' : ℤ}
    {e e' e'' : ε} (hc : s.chld (.dyn k) = some r) (hw : E.waitpid (s.rt r).pid s.env = (w, e))
    (hoff : E.ioctl ⟨slotId k, etindevNull⟩ e = (ret, e')) (ha : s.again k = true)
    (hon : E.ioctl ⟨slotId k, (s.dyn k).cardType⟩ e' = (ret', e'')) (hd : t.dyn = s.dyn)
    (hchld : t.chld = Function.update s.chld (.dyn k) none) (henv : t.env = e'') : SlotMove D i s t := by
  by_cases hki : k = i
  · subst hki
    refine .stop (by simp [hc]) (by rw [hd]) (Or.inr ⟨(St.again_iff.1 ha).1, fun x hx => ?_⟩)
    rw [henv]
    exact (D.on hi hx hon (D.off hi hoff).2).2
  · refine .other (p := .dyn k) (by simpa using hki) hd hchld ?_
    rw [henv]
    exact (D.other hki hon).trans ((D.other hki hoff).trans (D.waitpid hw i hi))

theorem plain_slotMove (hi : slotId i ≠ etinSlotPdm) (hm : Move E NoType .plain s t) : SlotMove D i s t := by
  cases hm with
  | outside m => exact .quiet rfl rfl (D.outside m s.env i hi)
  | timerOff | errPath | counts => exact .quiet rfl rfl rfl
  | noStart e F he r =>
    refine .quiet rfl rfl ?_
    rcases he with rfl | hf
    · rfl
    · exact D.fork hf i hi
  | capture p r name pid e F hp hr hname hf =>
    by_cases hpi : p = .dyn i
    · subst hpi
      exact .start hp rfl (D.fork hf i hi)
    · exact .other hpi rfl rfl (D.fork hf i hi)
  | waitFail p r w e F hc hw => exact .quiet rfl rfl (D.waitpid hw i hi)
  | stopStat k r w e F hc hw => exact .other (p := .stat k) (by simp) rfl rfl (D.waitpid hw i hi)
  | stopOff k r w e ret e' F hc hw hok hio hret =>
    by_cases hki : k = i
    · subst hki
      exact .stop (by simp [hc]) rfl (Or.inl (D.off hi hio).2)
    · exact .other (p := .dyn k) (by simpa using hki) rfl rfl
        ((D.other hki hio).trans (D.waitpid hw i hi))
  | stopLost k r w e ret e' ret' e'' F hc hw hok hio _ ha hio' => exact again_slotMove hi hc hw hio ha hio' rfl rfl rfl
  | stopAgain k r w e ret e' ret' e'' F hc hw hok hio _ ha hio' => exact again_slotMove hi hc hw hio ha hio' rfl rfl rfl
  | kill r k e F _ _ hk => exact .quiet rfl rfl (D.kill hk i hi)
  | filter k new cnt =>
    refine .quiet ?_ rfl rfl
    by_cases hki : i = k
    · subst hki
      simp [St.setDyn]
    · simp [St.setDyn, hki]
  | goneTerm k r z e F hcard hc _ hk => exact cardOff_slotMove hcard rfl rfl (D.kill hk i hi)
  | goneKeep k r F hcard => exact cardOff_slotMove hcard rfl rfl rfl
  | goneWait k ret e hcard hp hio =>
    by_cases hki : k = i
    · subst hki
      exact .gone hcard (by simp [St.cardOff, St.setDyn]) (Or.inr (D.off hi hio).2)
    · exact .quiet (by simp [St.cardOff, St.setDyn, Ne.symm hki]) rfl (D.other hki hio)
  | come k new ret e F hV => exact hV.elim

theorem runtime_slotMove (hi : slotId i ≠ etinSlotPdm) (hm : Runtime E NoType s t) : SlotMove D i s t := by
  rcases hm with hm | hm
  · exact plain_slotMove hi hm
  · cases hm with
    | reap w e hw => exact .quiet rfl rfl (D.waitpid hw i hi)

/-! ## ETIN_SLOT_SELF -/

/-- an MIO card -/
def mio : TypeId := 1

/-- the filter of a slot after k observations of an MIO card -/
def filterAfter : ℕ → DynamicPrcMngInfo
  | 0 => ⟨etindevNull, etindevNull, 0⟩
  | 1 => ⟨etindevNull, etindevMio, 0⟩
  | 2 => ⟨etindevNull, etindevMio, 1⟩
  | 3 => ⟨etindevNull, etindevMio, 2⟩
  | _ + 4 => ⟨etindevMio, etindevNull, 0⟩

theorem filterAfter_null {k : ℕ} (hk : k < 4) : (filterAfter k).cardType = etindevNull := by
  interval_cases k <;> rfl

theorem filterAfter_mio {k : ℕ} (hk : 4 ≤ k) : filterAfter k = ⟨etindevMio, etindevNull, 0⟩ := by
  obtain ⟨j, rfl⟩ := Nat.exists_eq_add_of_le' hk
  rfl

/-- one more observation; a process in the way matters only at the fourth -/
theorem observe_filterAfter (k : ℕ) {free : Bool} (hfree : k < 4 → free = true) :
    (filterAfter k).observe free etindevMio = filterAfter (k + 1) := by
  by_cases hk : k < 4
  · rw [hfree hk]
    interval_cases k <;> rfl
  · rw [not_lt] at hk
    rw [filterAfter_mio hk, filterAfter_mio (Nat.le_succ_of_le hk)]
    rfl

/-- the card is MIO or none, and so is the driver's record -/
structure OnlyMio (D : SlotDriver E) (s : St ε) : Prop where
  card : (s.dyn 1).cardType = etindevNull ∨ (s.dyn 1).cardType = etindevMio
  type : D.typeInfo 1 s.env = none ∨ D.typeInfo 1 s.env = some mio

/-- there is no card, and nobody runs for it -/
structure Vacant (D : SlotDriver E) (s : St ε) : Prop where
  card : (s.dyn 1).cardType = etindevNull
  chld : s.chld (.dyn 1) = none
  type : D.typeInfo 1 s.env = none

theorem SlotMove.onlyMio (h : OnlyMio D s) (hm : SlotMove D 1 s t) : OnlyMio D t := by
  cases hm with
  | quiet hcard _ htype => exact ⟨by rw [hcard]; exact h.card, by rw [htype]; exact h.type⟩
  | start _ hcard htype => exact ⟨by rw [hcard]; exact h.card, by rw [htype]; exact h.type⟩
  | stop _ hcard htype =>
    refine ⟨by rw [hcard]; exact h.card, ?_⟩
    rcases htype with hnone | ⟨hne, hk⟩
    · exact Or.inl hnone
    · -- the card that comes on line again is the one of the manager
      have hmio := h.card.resolve_left hne
      exact Or.inr (hk mio (by rw [hmio]; rfl))
  | gone _ hnone htype =>
    refine ⟨Or.inl hnone, ?_⟩
    rcases htype with hsame | hnone
    · rw [hsame]
      exact h.type
    · exact Or.inl hnone

theorem SlotMove.vacant (hcore : Core s) (h : Vacant D s) (hm : SlotMove D 1 s t) : Vacant D t := by
  cases hm with
  | quiet hcard hchld htype => exact ⟨hcard.trans h.card, hchld.trans h.chld, htype.trans h.type⟩
  | start hp => exact absurd h.card (hcore.card 1 hp)
  | stop hc => exact absurd h.chld hc
  | gone hcard => exact absurd h.card hcard

/-- the process manager after k ticks of the timer -/
structure Watch (D : SlotDriver E) (k : ℕ) (s : St ε) : Prop where
  core : Core s
  filter : s.dyn 1 = filterAfter k
  vacant : k < 4 → Vacant D s
  only : OnlyMio D s

/-- a callback that observes no card keeps it -/
theorem Watch.blind {k : ℕ} (h : Watch D k s) {e : Event μ} (he : e.runtime = true) (hb : e.blind = true)
    (hstep : step E s e = .ok t) : Watch D k t := by
  have hself : slotId 1 ≠ etinSlotPdm := by decide
  have hmoves := step_blind (E := E) (V := NoType) h.core he hb
  rw [hstep] at hmoves
  have hdyn := step_leaves (E := E) hb s
  rw [hstep] at hdyn
  refine ⟨runtime_core h.core hmoves, (congrFun hdyn 1).trans h.filter, fun hk => ?_, ?_⟩
  · refine (chain_inv (I := fun a => Core a ∧ Vacant D a) (fun a b hab hI => ?_) hmoves ⟨h.core, h.vacant hk⟩).2
    exact ⟨runtime_core hI.1 (ReflTransGen.single hab), (runtime_slotMove hself hab).vacant hI.1 hI.2⟩
  · exact chain_inv (I := OnlyMio D) (fun a b hab hI => (runtime_slotMove hself hab).onlyMio hI) hmoves h.only

/-- a card that stays, or stays away, is no business of the driver -/
theorem handleNewType_known {o : ETinDev} (h : PrcMngInfo.handleNewType E i o s = .ok t)
    (hcard : (t.dyn i).cardType = (s.dyn i).cardType) : t.env = s.env ∧ t.chld = s.chld := by
  have hobs := (handleNewType_observes (E := E) i o s).slot i
  rw [h, Function.update_self] at hobs
  have hdyn : t.dyn i = (s.dyn i).observe (decide (s.chld (.dyn i) = none)) o := hobs
  rw [handleNewType_eq] at h
  by_cases h1 : o = (s.dyn i).cardType
  · rw [if_pos h1] at h
    cases h
    exact ⟨rfl, rfl⟩
  rw [if_neg h1] at h
  by_cases h2 : (s.dyn i).cardType = etindevNull
  · rw [if_neg (not_not.2 h2)] at h
    have hnew : o ≠ etindevNull := fun he => h1 (he.trans h2.symm)
    simp only [St.chk_pos hnew] at h
    by_cases h3 : o = (s.dyn i).cardTypeNew
    · rw [if_neg (not_not.2 h3)] at h
      rw [observe_filter h1 h2 h3] at hdyn
      split_ifs at h hdyn with h4 h5 h6 h6
      · cases h
        exact ⟨rfl, rfl⟩
      · cases h
        exact ⟨rfl, rfl⟩
      · -- the card would have come
        rw [hdyn] at hcard
        exact absurd hcard h1
      · exact absurd ⟨h4, decide_eq_true (not_not.1 h5)⟩ h6
      · cases h
        exact ⟨rfl, rfl⟩
      · cases h
        exact ⟨rfl, rfl⟩
    · rw [if_pos h3] at h
      cases h
      exact ⟨rfl, rfl⟩
  · -- the card would be gone
    rw [observe_gone h1 h2] at hdyn
    rw [hdyn] at hcard
    exact absurd hcard.symm h2

/-- a card that comes is put on line in the driver -/
theorem cardCome_env {new : ETinDev} (h : PrcMngInfo.cardCome E i new s = .ok t) :
    t.env = (E.ioctl ⟨slotId i, new⟩ s.env).2 ∧ t.chld = s.chld := by
  unfold PrcMngInfo.cardCome PrcMngInfo.addIn2Start at h
  dsimp only at h
  split_ifs at h <;> (cases h; exact ⟨rfl, rfl⟩)

/-- a tick of the timer, with the card types of the driver -/
theorem Watch.tick {k : ℕ} (h : Watch D k s)
    (hstep : step E s (.sCheckDevChange 0 pdmGetSlotCardType : Event μ) = .ok t) : Watch D (k + 1) t := by
  have hhandle : PrcMngInfo.handleNewType E 1 etindevMio s = .ok t := by
    calc PrcMngInfo.handleNewType E 1 etindevMio s = PrcMngInfo.sCheckDevChange E 0 pdmGetSlotCardType s :=
          (sCheckDevChange_eq 0 pdmGetSlotCardType s).symm
      _ = .ok t := hstep
  have hout : Outcome (Move E AnyType .plain) (FaultAt E) s (PrcMngInfo.handleNewType E 1 etindevMio s) :=
    handleNewType_outcome h.core 1 trivial
  rw [hhandle] at hout
  have hcore : Core t := chain_inv (I := Core) (fun _ _ => move_core) hout h.core
  have hobs := (handleNewType_observes (E := E) 1 etindevMio s).slot 1
  rw [hhandle, Function.update_self, h.filter] at hobs
  have hfilter : t.dyn 1 = filterAfter (k + 1) := by
    refine Eq.trans hobs (observe_filterAfter k fun hk => ?_)
    exact decide_eq_true (h.vacant hk).chld
  by_cases hthree : k = 3
  · -- the card is through the filter
    subst hthree
    obtain ⟨-, hchld, htype⟩ := h.vacant (by decide)
    have hcome : PrcMngInfo.cardCome E 1 etindevMio (s.setDyn 1 ⟨etindevNull, etindevMio, 3⟩) = .ok t := by
      rw [handleNewType_eq, h.filter] at hhandle
      simpa [filterAfter, etindevMio, etindevNull, PrcMngInfo.onlineFilterCount, hchld, St.setDyn, St.chk] using hhandle
    obtain ⟨henv, -⟩ := cardCome_env hcome
    have hon := (D.on (by decide) (i := 1) (k := mio) (x := etindevMio) rfl rfl htype).2
    refine ⟨hcore, hfilter, fun hk => absurd hk (by decide), Or.inr (by rw [hfilter]; rfl), Or.inr ?_⟩
    rw [henv]
    exact hon
  · have hcard : (t.dyn 1).cardType = (s.dyn 1).cardType := by
      rw [hfilter, h.filter]
      by_cases hk : k < 3
      · rw [filterAfter_null (Nat.succ_lt_succ hk), filterAfter_null (Nat.lt_succ_of_lt hk)]
      · rw [filterAfter_mio (show 4 ≤ k by omega), filterAfter_mio (show 4 ≤ k + 1 by omega)]
    obtain ⟨henv, hchld⟩ := handleNewType_known hhandle hcard
    refine ⟨hcore, hfilter, fun hk => ?_, by rw [hcard]; exact h.only.card, by rw [henv]; exact h.only.type⟩
    obtain ⟨hnull, hnone, htype⟩ := h.vacant (Nat.lt_of_succ_lt hk)
    exact ⟨hcard.trans hnull, by rw [hchld]; exact hnone, by rw [henv]; exact htype⟩

/-! ## Runs -/

/-- the driver, the manager of the slot and its processes after k ticks of the timer -/
structure SlotSupervised (D : SlotDriver E) (k : ℕ) (n : Whole ε) : Prop where
  driver : D.typeInfo 1 n.prc.env = if PrcMngInfo.onlineFilterCount < k then some mio else none
  process : (n.prc.chld (.dyn 1) ≠ none ∨ .dyn 1 ∈ n.prc.list2Start) ↔ PrcMngInfo.onlineFilterCount < k
  child : ∀ c ∈ unreapedOf (.dyn 1) n.prc.trace, c.2[1]? = some (some (cardName mio))
  unread : pdmDrvPoll n.lists &&& pollin = 0

theorem timerTicks_cons (op : WholeOp μ) (ops : List (WholeOp μ)) :
    timerTicks (op :: ops) = timerTicks ops + timerTicks [op] := by
  rw [timerTicks, timerTicks, timerTicks, ← List.singleton_append, List.countP_append, Nat.add_comm]

/-- one operation of the whole -/
theorem wholeStep_watch {k : ℕ} {n n' : Whole ε} (hq : n.lists .hd2Read = []) (h : Watch D k n.prc) {op : WholeOp μ}
    (hstep : wholeStep D n op = .ok n') : Watch D (k + timerTicks [op]) n'.prc := by
  obtain ⟨-, hrun⟩ := wholeStep_eq_ok hq hstep
  cases op with
  | callback e he =>
    obtain ⟨s, hs, hend⟩ := bind_eq_ok hrun
    cases hend
    exact h.blind he.1 he.2 hs
  | devTimer arg =>
    obtain ⟨s, hs, hend⟩ := bind_eq_ok hrun
    cases hend
    exact h.tick hs
  | fdReady | otherRead =>
    have hsame : n.prc = n'.prc := Except.ok.inj hrun
    exact hsame ▸ h

/-- a run of the whole is a run of the process manager -/
theorem wholeRun {ops : List (WholeOp μ)} : ∀ {k : ℕ} {n n' : Whole ε}, n.lists .hd2Read = [] → Watch D k n.prc →
    runFrom (wholeStep D) n ops = .ok n' → n'.lists .hd2Read = [] ∧ Watch D (k + timerTicks ops) n'.prc ∧
      run E n.prc (ops.flatMap WholeOp.events) = .ok n'.prc := by
  induction ops with
  | nil =>
    intro k n n' hq h hrun
    cases hrun
    exact ⟨hq, h, rfl⟩
  | cons op ops ih =>
    intro k n n' hq h hrun
    rw [runFrom_cons] at hrun
    obtain ⟨u, hu, hrun⟩ := bind_eq_ok hrun
    obtain ⟨hlists, hevents⟩ := wholeStep_eq_ok hq hu
    obtain ⟨hq', hwatch, hrest⟩ := ih (by rw [hlists]; exact hq) (wholeStep_watch hq h hu) hrun
    refine ⟨hq', ?_, ?_⟩
    · rw [timerTicks_cons, add_comm (timerTicks ops), ← add_assoc]
      exact hwatch
    · unfold run runFrom at hevents hrest ⊢
      rw [List.flatMap_cons, List.foldlM_append, hevents]
      exact hrest

/-- what the process manager sees is a run of its callbacks that observes valid card types -/
theorem events_runtime {ops : List (WholeOp μ)} :
    ∀ e ∈ ops.flatMap WholeOp.events, e.runtime = true ∧ e.Observes ValidType := by
  intro e he
  obtain ⟨op, -, he⟩ := List.mem_flatMap.1 he
  cases op with
  | callback e' he' =>
    obtain rfl := List.mem_singleton.1 he
    refine ⟨he'.1, ?_⟩
    cases e with
    | handleNewType => cases he'.2
    | _ => trivial
  | devTimer arg =>
    obtain rfl := List.mem_singleton.1 he
    exact ⟨rfl, trivial⟩
  | fdReady | otherRead => cases he

theorem WholeReached.watch {env : ε} (h0 : D.typeInfo 1 env = none) {ops : List (WholeOp μ)} {n : Whole ε}
    (hr : WholeReached D env ops n) : n.lists .hd2Read = [] ∧ Watch D (timerTicks ops) n.prc ∧
      ReachedFrom E env (ops.flatMap WholeOp.events) n.prc := by
  obtain ⟨timer, needKillPrc, exeName, selfSlot, s₀, hs₀, hrun⟩ := hr
  have hready := hs₀
  rw [processStart_boot] at hready
  cases hready
  have hstart : Watch D 0 (boot timer needKillPrc exeName selfSlot env).ready :=
    ⟨ready_core .., rfl, fun _ => ⟨rfl, rfl, h0⟩, ⟨Or.inl rfl, Or.inl h0⟩⟩
  obtain ⟨hq, hwatch, hevents⟩ := wholeRun (n := ⟨_, fun _ => etindevNull, pdmDrvMainLists⟩) rfl hstart hrun
  rw [Nat.zero_add] at hwatch
  exact ⟨hq, hwatch, timer, needKillPrc, exeName, selfSlot, _, hs₀, hevents⟩

/-- **The card is supervised from the fourth tick on.** With the process manager over the file of the driver, started
with an empty slot, where every `cb_online` that a card ioctl calls succeeds and only the process manager issues card
ioctls (`SlotDriver`), whatever the order of callbacks, ticks and reads, and whenever processes end: before the fourth
tick the driver has no card in ETIN_SLOT_SELF, and no process for it runs or is to be started; from then on it has an
MIO card, and an MIO process runs or is to be started. The event loop never finds a record of a card that changed. -/
theorem card_supervised (os : Os E) (D : SlotDriver E) {env : ε} (h0 : D.typeInfo 1 env = none)
    {ops : List (WholeOp μ)} {n : Whole ε} (hr : WholeReached D env ops n) : SlotSupervised D (timerTicks ops) n := by
  obtain ⟨hq, hwatch, hreach⟩ := hr.watch h0
  obtain ⟨hcore, -, hslot⟩ := hreach.slot os D (i := 1) (by decide) h0 events_runtime
  have hunread : pdmDrvPoll n.lists &&& pollin = 0 := not_not.1 fun hp => (pdmDrvPoll_pollin n.lists).1 hp hq
  by_cases hk : PrcMngInfo.onlineFilterCount < timerTicks ops
  · have hcard : (n.prc.dyn 1).cardType = etindevMio := by
      rw [hwatch.filter, filterAfter_mio hk]
    have hne : (n.prc.dyn 1).cardType ≠ etindevNull := by
      rw [hcard]
      decide
    -- the process has the type of the card, whether it runs or waits
    have htype : D.typeInfo 1 n.prc.env = some mio := by
      rcases hchld : n.prc.chld (.dyn 1) with _ | r
      · rw [(hslot.idle hchld).1, hcard]
        rfl
      · obtain ⟨x, hx, -⟩ := hslot.busy r hchld
        exact hwatch.only.type.resolve_left (by rw [hx]; exact Option.some_ne_none x)
    refine ⟨by rw [if_pos hk, htype], iff_of_true ?_ hk, fun c hc => ?_, hunread⟩
    · by_cases hchld : n.prc.chld (.dyn 1) = none
      · exact Or.inr (hslot.waits hchld hne)
      · exact Or.inl hchld
    · rcases hchld : n.prc.chld (.dyn 1) with _ | r
      · rw [(hslot.idle hchld).2] at hc
        cases hc
      · obtain ⟨x, hx, hall⟩ := hslot.busy r hchld
        have hmio : x = mio := Option.some.inj (hx.symm.trans htype)
        exact hmio ▸ (hall c hc).2.2
  · obtain ⟨hnull, hchld, htype⟩ := hwatch.vacant (Nat.lt_succ_of_le (not_lt.1 hk))
    refine ⟨by rw [if_neg hk, htype], iff_of_false ?_ hk, fun c hc => ?_, hunread⟩
    · rintro (hrun | hwait)
      · exact hrun hchld
      · exact hcore.card 1 hwait hnull
    · rw [(hslot.idle hchld).2] at hc
      cases hc

/-- the timer ticks four times and the processes are started in turn; then the MIO process ends and is buried -/
def plugged : List (WholeOp ℤ) :=
  List.replicate 4 (.devTimer ⟨0, ⟨0, 0⟩, fun _ => 0, 0⟩) ++ List.replicate 6 (.callback .sCheckNeedStart ⟨rfl, rfl⟩) ++
    [.fdReady fun _ => false, .callback (.outside 6) ⟨rfl, rfl⟩, .callback (.sBuryChld 8) ⟨rfl, rfl⟩]

theorem card_supervised_plugged : ∃ n, WholeReached World.slotDriver World.fresh plugged n ∧
    n.prc.chld (.dyn 1) = none ∧ SlotSupervised World.slotDriver 4 n := by
  have hseen : (runFrom (wholeStep World.slotDriver) ⟨(boot (fun _ => false) true (some "pdm") 0 World.fresh).ready,
      fun _ => etindevNull, pdmDrvMainLists⟩ plugged).toOption.any
      (fun n => decide (n.prc.chld (.dyn 1) = none)) = true := by decide +kernel
  rcases hrun : runFrom (wholeStep World.slotDriver) ⟨(boot (fun _ => false) true (some "pdm") 0 World.fresh).ready,
      fun _ => etindevNull, pdmDrvMainLists⟩ plugged with e | n
  · rw [hrun] at hseen
    cases hseen
  · rw [hrun] at hseen
    have hr : WholeReached World.slotDriver World.fresh plugged n := ⟨_, _, _, _, _, processStart_boot .., hrun⟩
    exact ⟨n, hr, of_decide_eq_true hseen, card_supervised World.os World.slotDriver rfl hr⟩

end LinuxDrv.Pdm
