/-
Every event is a chain of moves: one outcome lemma a function of the source, under `Core`.

`step_outcome` and `step_runtime` are what the rest of the development uses. A callback makes plain moves, `sBuryChld`
also reaps, the shutdown path also makes its own moves. The traversals of `s_listNormal` are loops over a snapshot
(`listForEachSafe_eq`), although `sCheckLiveState` moves records out of the list it walks.
-/
import LinuxDrv.Pdm.Moves

namespace LinuxDrv.Pdm

open LinuxDrv.Core Relation

variable {ε μ : Type} {E : Env ε μ} {V : ETinDev → Prop} {s t : St ε}

/-- any number for a card type -/
def AnyType : ETinDev → Prop := fun _ => True

/-! ## Failed assertions -/

theorem Fails.refl (s : St ε) (r : RecId) (l : List Assert) : Fails s r l s.failed := fun _ ha => Or.inl ha

/-- an assertion that is one of `l`, or on the way out of a failed call, is checked -/
theorem Fails.chk {r : RecId} {l F : List Assert} (h : Fails s r l F) {a : Assert} {c : Prop} [Decidable c]
    (ha : ¬ c → a.errPath = true ∨ (a ∈ l ∧ Breaks (s.rt r) a)) : Fails s r l (if c then F else a :: F) := by
  split_ifs with hc
  · exact h
  · intro b hb
    rcases List.mem_cons.1 hb with rfl | hb
    · exact Or.inr (ha hc)
    · exact h b hb

theorem Fails.mono {r : RecId} {l l' F : List Assert} (h : Fails s r l F) (hl : l ⊆ l') : Fails s r l' F := by
  intro a ha
  rcases h a ha with h | h | ⟨h₁, h₂⟩
  · exact Or.inl h
  · exact Or.inr (Or.inl h)
  · exact Or.inr (Or.inr ⟨hl h₁, h₂⟩)

/-! ## Signals -/

theorem moveTo_eq (l : ListId) (tm : TimerId) (r : RecId) (s : St ε) : RtPrcInfo.moveTo l tm r s = s.moved l tm r := by
  by_cases h : s.lists l = []
  · simp [RtPrcInfo.moveTo, St.moved, St.clrTimes, St.setRt, St.accept, St.startTimer, h]
  · simp [RtPrcInfo.moveTo, St.moved, St.clrTimes, St.setRt, St.accept, h]

/-- a signal was sent, or the process exited because it could not be -/
theorem signal_cases (a : Assert) (sig : Sig) (new : PrcRtState) (r : RecId) (s : St ε)
    (ha : a = .signalKillState ∨ a = .signalTermState) :
    ((E.kill (s.rt r).pid sig s.env).1 < 0 ∧ RtPrcInfo.signal E a sig new r s = .error .exit) ∨
    (0 ≤ (E.kill (s.rt r).pid sig s.env).1 ∧ ∃ F, Fails s r [a] F ∧
      ((s.rt r).state = .normal ∨ (s.rt r).state = .exiting → F = s.failed) ∧
      ((s.rt r).state ≠ .normal → (s.rt r).state ≠ .exiting → a ∈ F) ∧
      RtPrcInfo.signal E a sig new r s =
        .ok { s.signalled r sig new (E.kill (s.rt r).pid sig s.env).2 with failed := F }) := by
  unfold RtPrcInfo.signal
  by_cases hk : (E.kill (s.rt r).pid sig s.env).1 < 0
  · exact Or.inl ⟨hk, if_pos hk⟩
  · refine Or.inr ⟨not_lt.1 hk, _, (Fails.refl s r [a]).chk fun hc => Or.inr ⟨by simp, ?_⟩, fun h => if_pos h,
      ?_, if_neg hk⟩
    · rw [not_or] at hc
      rcases ha with rfl | rfl <;> exact hc
    · intro h₁ h₂
      rw [if_neg (by tauto)]
      exact List.mem_cons_self

theorem sKill_outcome {r : RecId} (hr : r ∈ s.lists .normal ∨ r ∈ s.lists .exiting) :
    Outcome (Move E V .plain) (FaultAt E) s (RtPrcInfo.sKill E r s) := by
  unfold RtPrcInfo.sKill RtPrcInfo.signalKill
  split_ifs with hn
  · exact Outcome.refl s
  · rcases signal_cases (E := E) .signalKillState .sigkill .killing r s (Or.inl rfl) with ⟨hk, h⟩ | ⟨hk, F, hF, -, -, h⟩
    · rw [h]
      exact Outcome.fault (Or.inl ⟨_, _, hk⟩)
    · rw [h]
      simp only [ok_bind, moveTo_eq]
      exact Outcome.move (Move.kill r _ _ F hr (by simpa using hn) rfl hk hF)

/-! ## Starting a process -/

/-- `start` failed, or there is a new process -/
theorem rtStart_cases (p : MngId) (r : RecId) (argv : List (Option String)) (s : St ε) :
    (∃ e F, (e = s.env ∨ E.fork s.env = (none, e)) ∧
      Fails s r [.startState, .startPid, .startExp, .startReal] F ∧
      RtPrcInfo.start E p r argv s = (-1, { s with env := e, failed := F })) ∨
    ∃ pid e F, E.fork s.env = (some pid, e) ∧ Fails s r [.startState, .startPid, .startExp, .startReal] F ∧
      RtPrcInfo.start E p r argv s = (0, { s with
        rt := Function.update s.rt r { s.rt r with state := .normal, pid := pid }
        env := e, failed := F
        writes := (r, (s.rt r).state, .normal) :: s.writes, trace := .fork p argv pid :: s.trace }) := by
  have h₁ := (Fails.refl s r [.startState, .startPid, .startExp, .startReal]).chk (a := .startState)
    (c := (s.rt r).state = .null) fun hc => Or.inr ⟨by simp, hc⟩
  have h₂ := ((h₁.chk (a := .startPid) (c := (s.rt r).pid = -1) fun hc => Or.inr ⟨by simp, hc⟩).chk
    (a := .startExp) (c := (s.rt r).nExpTimes = 0) fun hc => Or.inr ⟨by simp, hc⟩).chk
    (a := .startReal) (c := (s.rt r).nRealTimes = 0) fun hc => Or.inr ⟨by simp, hc⟩
  by_cases hexe : s.exeName = none
  · refine Or.inl ⟨s.env, _, Or.inl rfl, h₁.chk (a := .startExeName) (c := False) fun _ => Or.inl rfl, ?_⟩
    simp only [RtPrcInfo.start, St.chk, hexe, ↓reduceIte]
  · cases hf : E.fork s.env with
    | mk o e =>
      cases o with
      | none =>
        refine Or.inl ⟨e, _, Or.inr rfl, h₂, ?_⟩
        simp only [RtPrcInfo.start, St.chk, hexe, ↓reduceIte, hf]
        rfl
      | some pid =>
        refine Or.inr ⟨pid, e, _, rfl, h₂, ?_⟩
        simp only [RtPrcInfo.start, St.chk, hexe, ↓reduceIte, hf, St.setState, St.setRt, Function.update_self,
          Function.update_idem]
        rfl

/-- an assertion that holds changes nothing -/
theorem St.chk_pos {a : Assert} {c : Prop} [Decidable c] (h : c) : s.chk a c = s := by
  simp only [St.chk, if_pos h]

/-- an assertion on the way out of a failed call is a move -/
theorem chk_errPath {a : Assert} {c : Prop} [Decidable c] (ha : a.errPath = true) : Move E V .plain s (s.chk a c) := by
  apply Move.errPath _
  intro b hb
  split_ifs at hb
  · exact Or.inl hb
  · rcases List.mem_cons.1 hb with rfl | hb
    · exact Or.inr ha
    · exact Or.inl hb

/-- a computation that cannot fault and makes plain moves only -/
def Plain (E : Env ε μ) (V : ETinDev → Prop) (s : St ε) (x : Except Fault (ℤ × St ε)) : Prop :=
  ∃ y, x = .ok y ∧ ReflTransGen (Move E V .plain) s y.2

theorem Plain.chk {x : ℤ × St ε} {a : Assert} {n : ℤ} {c : Prop} [Decidable c] (ha : a.errPath = true)
    (h : ReflTransGen (Move E V .plain) s x.2) : Plain E V s (.ok (n, x.2.chk a c)) :=
  ⟨_, rfl, h.tail (chk_errPath ha)⟩

/-- what a caller that ignores the error code makes of it -/
theorem Plain.ignore {x : Except Fault (ℤ × St ε)} {a : Assert} (ha : a.errPath = true) (h : Plain E V s x) :
    Outcome (Move E V .plain) (FaultAt E) s (x >>= fun y => .ok (if y.1 < 0 then y.2.chk a False else y.2)) := by
  obtain ⟨y, rfl, hy⟩ := h
  simp only [ok_bind]
  split_ifs
  · exact hy.tail (chk_errPath ha)
  · exact hy

theorem capture_plain (h : Core s) {p : MngId} (hp : p ∈ s.list2Start) {name : Option String}
    (hname : ∀ i, p = .dyn i → name = getCardTypeStr (s.dyn i).cardType ∧ name.isSome) :
    Plain E V s (PrcMngInfo.capture E p name s) := by
  have hc := h.link p hp
  have hpool := h.pool_ne_nil hc
  obtain ⟨r, rs, hr⟩ := List.exists_cons_of_ne_nil hpool
  have hmem : r ∈ s.lists .pool := by simp [hr]
  have hpar := (h.pool r).2 hmem
  have hhead : (s.lists .pool).head? = some r := by simp [hr]
  unfold PrcMngInfo.capture RtPrcInfo.sCapture
  simp only [St.chk_pos hpool, hhead]
  rcases rtStart_cases (E := E) p r (PrcMngInfo.argv s name p) s with ⟨e, F, he, hF, hs⟩ | ⟨pid, e, F, hf, hF, hs⟩
  · have hno : ReflTransGen (Move E V .plain) s { s with env := e, failed := F } :=
      ReflTransGen.single (Move.noStart e F he r hmem hF)
    simp only [hs, Int.reduceNeg, Int.reduceLT, ↓reduceIte]
    exact Plain.chk (x := (-1, _)) rfl (hno.tail (chk_errPath rfl))
  · simp only [hs, lt_self_iff_false, ↓reduceIte, PrcMngInfo.delFrom2Start, St.buildBdAss, St.setRt, St.accept, St.chk,
      hc, hpar, hp, not_true_eq_false, Function.update_self, Function.update_idem, ok_bind]
    exact ⟨_, rfl, ReflTransGen.single (Move.capture p r name pid e F hp hmem hname hf hF)⟩

theorem subStart_plain (h : Core s) {p : MngId} (hp : p ∈ s.list2Start) : Plain E V s (PrcMngInfo.subStart E p s) := by
  unfold PrcMngInfo.subStart
  simp only [St.chk_pos (h.link p hp)]
  cases p with
  | stat i => exact capture_plain h hp fun j hj => by cases hj
  | dyn i =>
    have hcard : s.haveCardInserted i = true := by simpa [St.haveCardInserted] using h.card i hp
    simp only [hcard, Bool.true_eq_false, ↓reduceIte]
    cases hn : getCardTypeStr (s.dyn i).cardType with
    | none => exact Plain.chk (x := (0, s)) rfl ReflTransGen.refl
    | some name =>
      apply capture_plain h hp
      intro j hj
      cases hj
      exact ⟨hn.symm, rfl⟩

theorem start_outcome (h : Core s) {p : MngId} (hp : p ∈ s.list2Start) :
    Outcome (Move E V .plain) (FaultAt E) s (PrcMngInfo.start E p s) := by
  unfold PrcMngInfo.start
  rw [if_neg (not_not.2 (h.link p hp))]
  exact (subStart_plain h hp).ignore rfl

theorem sCheckNeedStart_outcome (h : Core s) :
    Outcome (Move E V .plain) (FaultAt E) s (PrcMngInfo.sCheckNeedStart E s) := by
  unfold PrcMngInfo.sCheckNeedStart
  refine Outcome.bind ?_ ?_
  · cases hl : s.list2Start with
    | nil => exact Outcome.refl s
    | cons p ps => exact start_outcome h (by simp [hl])
  · intro t _ _
    split_ifs with ht
    · exact Outcome.move (Move.timerOff .start ht)
    · exact Outcome.refl t

/-! ## Releasing a process -/

/-- the child was not waited for, or it is released -/
theorem sRelease_cases (h : Core s) {p : MngId} {r : RecId} (hc : s.chld p = some r) {w : WaitRet} {e : ε}
    (hw : E.waitpid (s.rt r).pid s.env = (w, e)) :
    (¬ RtPrcInfo.WaitOk (s.rt r).pid w ∧ ∃ F, Fails s r [.stopState] F ∧ RtPrcInfo.sRelease E r s =
      .ok (-1, { s with env := e, trace := .waitpid (s.rt r).pid w.pid :: s.trace, failed := F })) ∨
    (RtPrcInfo.WaitOk (s.rt r).pid w ∧ ∃ F, Fails s r [.stopState] F ∧
      RtPrcInfo.sRelease E r s = .ok (0, { s.released p r w.pid e with failed := F })) := by
  have hpar := (h.assoc p r).1 hc
  have hF := (Fails.refl s r [.stopState]).chk (a := .stopState)
    (c := (s.rt r).state = .normal ∨ (s.rt r).state = .exiting ∨ (s.rt r).state = .killing) fun hno => by
      refine Or.inr ⟨by simp, ?_⟩
      show (s.rt r).state = .null
      cases hs : (s.rt r).state <;> simp_all
  unfold RtPrcInfo.sRelease RtPrcInfo.stop
  by_cases hok : RtPrcInfo.WaitOk (s.rt r).pid w
  · refine Or.inr ⟨hok, _, hF, ?_⟩
    simp only [St.chk, hw, hok, not_true_eq_false, ↓reduceIte, St.setState, St.setRt, Function.update_self,
      Function.update_idem, hpar, lt_self_iff_false, St.destroyBdAss, St.clrTimes, St.accept, hc, ne_eq,
      reduceCtorEq, not_false_eq_true]
    rfl
  · refine Or.inl ⟨hok, _, (hF.chk (a := .stopWaitpid) (c := False) fun _ => Or.inl rfl).chk (a := .releaseStop)
      (c := False) fun _ => Or.inl rfl, ?_⟩
    simp only [St.chk, hw, hok, not_false_eq_true, ↓reduceIte, Int.reduceNeg, Int.reduceLT]

/-- with a child, `subStop` starts by releasing it -/
theorem subStop_eq {p : MngId} {r : RecId} (hc : s.chld p = some r) :
    PrcMngInfo.subStop E p s = RtPrcInfo.sRelease E r s >>= fun x =>
      if x.1 < 0 then .ok (x.1, x.2.chk .subStopRelease False)
      else match p with
        | .stat _ => PrcMngInfo.addIn2Start p x.2 >>= fun t => .ok (0, t)
        | .dyn i => PrcMngInfo.reonline E i x.2 := by
  unfold PrcMngInfo.subStop
  rw [St.chk_pos (a := .subStopChld) (c := s.chld p ≠ none) (by simp [hc])]
  simp only [hc]
  cases p <;> rfl

theorem addIn2Start_ok {p : MngId} (hp : p ∉ s.list2Start) : PrcMngInfo.addIn2Start p s = .ok (s.linked p) := by
  unfold PrcMngInfo.addIn2Start
  rw [if_neg hp]
  by_cases hn : s.list2Start = []
  · simp [St.linked, St.startTimer, hn]
  · simp [St.linked, hn]

theorem subStop_stat_cases (h : Core s) {i : Fin maxStaticPrcNum} {r : RecId} (hc : s.chld (.stat i) = some r)
    {w : WaitRet} {e : ε} (hw : E.waitpid (s.rt r).pid s.env = (w, e)) :
    (¬ RtPrcInfo.WaitOk (s.rt r).pid w ∧ ∃ F, Fails s r [.stopState] F ∧ PrcMngInfo.subStop E (.stat i) s =
      .ok (-1, { s with env := e, trace := .waitpid (s.rt r).pid w.pid :: s.trace, failed := F })) ∨
    (RtPrcInfo.WaitOk (s.rt r).pid w ∧ ∃ F, Fails s r [.stopState] F ∧ PrcMngInfo.subStop E (.stat i) s =
      .ok (0, { (s.released (.stat i) r w.pid e).linked (.stat i) with failed := F })) := by
  rw [subStop_eq hc]
  rcases sRelease_cases h hc hw with ⟨hno, F, hF, hs⟩ | ⟨hok, F, hF, hs⟩
  · refine Or.inl ⟨hno, _, hF.chk (a := .subStopRelease) (c := False) fun _ => Or.inl rfl, ?_⟩
    simp only [hs, ok_bind, Int.reduceNeg, Int.reduceLT, ↓reduceIte, St.chk]
  · refine Or.inr ⟨hok, F, hF, ?_⟩
    simp only [hs, ok_bind, lt_self_iff_false, ↓reduceIte]
    rw [addIn2Start_ok (by simpa [St.released] using h.not_linked hc)]
    rfl

/-- the three ways out of `reonline`: the card stays off line; it could not be put on line again; the manager waits to
be started again -/
theorem reonline_cases {i : SlotId} (hl : MngId.dyn i ∉ s.list2Start) {e' e'' : ε} {ret ret' : ℤ}
    (hi : E.ioctl ⟨slotId i, etindevNull⟩ s.env = (ret, e'))
    (hi' : E.ioctl ⟨slotId i, (s.dyn i).cardType⟩ e' = (ret', e'')) :
    ((ret < 0 ∨ (0 ≤ ret ∧ s.again i = false)) ∧ ∃ n F, FailsErr s F ∧ PrcMngInfo.reonline E i s =
      .ok (n, { s with
        env := e', failed := F
        trace := .ioctl (.subStop (s.again i)) ⟨slotId i, etindevNull⟩ ret s.env :: s.trace })) ∨
    (0 ≤ ret ∧ s.again i = true ∧ ret' < 0 ∧ ∃ n F, FailsErr s F ∧ PrcMngInfo.reonline E i s =
      .ok (n, { s with
        env := e'', failed := F
        trace := .ioctl (.subStop true) ⟨slotId i, (s.dyn i).cardType⟩ ret' e' ::
          .ioctl (.subStop true) ⟨slotId i, etindevNull⟩ ret s.env :: s.trace })) ∨
    (0 ≤ ret ∧ s.again i = true ∧ 0 ≤ ret' ∧ ∃ n, PrcMngInfo.reonline E i s =
      .ok (n, { s.linked (.dyn i) with
        env := e''
        trace := .ioctl (.subStop true) ⟨slotId i, (s.dyn i).cardType⟩ ret' e' ::
          .ioctl (.subStop true) ⟨slotId i, etindevNull⟩ ret s.env :: s.trace })) := by
  have hno : ∀ a : Assert, a.errPath = true → FailsErr s (a :: s.failed) := by
    intro a ha b hb
    rcases List.mem_cons.1 hb with rfl | hb
    · exact Or.inr ha
    · exact Or.inl hb
  unfold PrcMngInfo.reonline
  rw [show (s.haveCardInserted i && !s.exitFlag) = s.again i from rfl]
  simp only [St.ioctl, hi]
  by_cases hret : ret < 0
  · refine Or.inl ⟨Or.inl hret, ret, _, hno .subStopOffline rfl, ?_⟩
    simp only [hret, ↓reduceIte, St.chk]
  · have hret0 : 0 ≤ ret := not_lt.1 hret
    cases ha : s.again i with
    | false =>
      refine Or.inl ⟨Or.inr ⟨hret0, rfl⟩, 0, s.failed, fun _ h => Or.inl h, ?_⟩
      simp only [hret, ↓reduceIte]
    | true =>
      by_cases hret' : ret' < 0
      · refine Or.inr (Or.inl ⟨hret0, rfl, hret', ret', _, hno .subStopOnline rfl, ?_⟩)
        simp only [hret, ↓reduceIte, Bool.true_eq_false, hi', hret', St.chk]
      · refine Or.inr (Or.inr ⟨hret0, rfl, not_lt.1 hret', 0, ?_⟩)
        simp only [hret, ↓reduceIte, Bool.true_eq_false, hi', hret']
        rw [addIn2Start_ok (by exact hl)]
        rfl

theorem Fails.trans {r : RecId} {l F : List Assert} (h : Fails s r l t.failed) (hF : FailsErr t F) : Fails s r l F := by
  intro a ha
  rcases hF a ha with h' | h'
  · exact h a h'
  · exact Or.inr (Or.inl h')

/-- the four ways out of `CDynamicPrcMngInfo::subStop`: the child was not waited for; or it is released, with the three
ways out of `reonline` -/
theorem subStop_dyn_cases (h : Core s) {i : SlotId} {r : RecId} (hc : s.chld (.dyn i) = some r)
    {w : WaitRet} {e e' e'' : ε} {ret ret' : ℤ} (hw : E.waitpid (s.rt r).pid s.env = (w, e))
    (hi : E.ioctl ⟨slotId i, etindevNull⟩ e = (ret, e'))
    (hi' : E.ioctl ⟨slotId i, (s.dyn i).cardType⟩ e' = (ret', e'')) :
    (¬ RtPrcInfo.WaitOk (s.rt r).pid w ∧ ∃ F, Fails s r [.stopState] F ∧ PrcMngInfo.subStop E (.dyn i) s =
      .ok (-1, { s with env := e, trace := .waitpid (s.rt r).pid w.pid :: s.trace, failed := F })) ∨
    (RtPrcInfo.WaitOk (s.rt r).pid w ∧ (ret < 0 ∨ (0 ≤ ret ∧ s.again i = false)) ∧ ∃ n F, Fails s r [.stopState] F ∧
      PrcMngInfo.subStop E (.dyn i) s = .ok (n, { s.released (.dyn i) r w.pid e with
        env := e', failed := F
        trace := .ioctl (.subStop (s.again i)) ⟨slotId i, etindevNull⟩ ret e :: .waitpid (s.rt r).pid w.pid ::
          s.trace })) ∨
    (RtPrcInfo.WaitOk (s.rt r).pid w ∧ 0 ≤ ret ∧ s.again i = true ∧ ret' < 0 ∧ ∃ n F, Fails s r [.stopState] F ∧
      PrcMngInfo.subStop E (.dyn i) s = .ok (n, { s.released (.dyn i) r w.pid e with
        env := e'', failed := F
        trace := .ioctl (.subStop true) ⟨slotId i, (s.dyn i).cardType⟩ ret' e' ::
          .ioctl (.subStop true) ⟨slotId i, etindevNull⟩ ret e :: .waitpid (s.rt r).pid w.pid :: s.trace })) ∨
    (RtPrcInfo.WaitOk (s.rt r).pid w ∧ 0 ≤ ret ∧ s.again i = true ∧ 0 ≤ ret' ∧ ∃ n F, Fails s r [.stopState] F ∧
      PrcMngInfo.subStop E (.dyn i) s = .ok (n, { (s.released (.dyn i) r w.pid e).linked (.dyn i) with
        env := e'', failed := F
        trace := .ioctl (.subStop true) ⟨slotId i, (s.dyn i).cardType⟩ ret' e' ::
          .ioctl (.subStop true) ⟨slotId i, etindevNull⟩ ret e :: .waitpid (s.rt r).pid w.pid :: s.trace })) := by
  rw [subStop_eq hc]
  rcases sRelease_cases h hc hw with ⟨hno, F, hF, hs⟩ | ⟨hok, F, hF, hs⟩
  · refine Or.inl ⟨hno, _, hF.chk (a := .subStopRelease) (c := False) fun _ => Or.inl rfl, ?_⟩
    simp only [hs, ok_bind, Int.reduceNeg, Int.reduceLT, ↓reduceIte, St.chk]
  · refine Or.inr ?_
    set u : St ε := { s.released (.dyn i) r w.pid e with failed := F }
    have hFu : Fails s r [.stopState] u.failed := hF
    simp only [hs, ok_bind, lt_self_iff_false, ↓reduceIte]
    rcases reonline_cases (E := E) (s := u) (h.not_linked hc) hi hi' with
      ⟨hret, n, F', hF', hu⟩ | ⟨hret, ha, hret', n, F', hF', hu⟩ | ⟨hret, ha, hret', n, hu⟩
    · exact Or.inl ⟨hok, hret, n, F', hFu.trans hF', hu⟩
    · exact Or.inr (Or.inl ⟨hok, hret, ha, hret', n, F', hFu.trans hF', hu⟩)
    · exact Or.inr (Or.inr ⟨hok, hret, ha, hret', n, F, hF, hu⟩)

/-- a stop is one move, or none if there is no child -/
theorem stop_outcome (h : Core s) (p : MngId) : Outcome (Move E V .plain) (FaultAt E) s (PrcMngInfo.stop E p s) := by
  unfold PrcMngInfo.stop
  cases hc : s.chld p with
  | none => exact Outcome.refl s
  | some r =>
    rw [if_neg (by simp)]
    obtain ⟨⟨w, e⟩, hw⟩ : ∃ x, E.waitpid (s.rt r).pid s.env = x := ⟨_, rfl⟩
    refine Plain.ignore rfl ?_
    cases p with
    | stat i =>
      rcases subStop_stat_cases h hc hw with ⟨hno, F, hF, hs⟩ | ⟨hok, F, hF, hs⟩
      · exact ⟨_, hs, ReflTransGen.single (Move.waitFail _ r w e F hc hw hno hF)⟩
      · exact ⟨_, hs, ReflTransGen.single (Move.stopStat i r w e F hc hw hok hF)⟩
    | dyn i =>
      obtain ⟨⟨ret, e'⟩, hi⟩ : ∃ x, E.ioctl ⟨slotId i, etindevNull⟩ e = x := ⟨_, rfl⟩
      obtain ⟨⟨ret', e''⟩, hi'⟩ : ∃ x, E.ioctl ⟨slotId i, (s.dyn i).cardType⟩ e' = x := ⟨_, rfl⟩
      rcases subStop_dyn_cases h hc hw hi hi' with ⟨hno, F, hF, hs⟩ | ⟨hok, hret, n, F, hF, hs⟩ |
        ⟨hok, hret, ha, hret', n, F, hF, hs⟩ | ⟨hok, hret, ha, hret', n, F, hF, hs⟩
      · exact ⟨_, hs, ReflTransGen.single (Move.waitFail _ r w e F hc hw hno hF)⟩
      · exact ⟨_, hs, ReflTransGen.single (Move.stopOff i r w e ret e' F hc hw hok hi hret hF)⟩
      · exact ⟨_, hs, ReflTransGen.single
          (Move.stopLost i r w e ret e' ret' e'' F hc hw hok hi hret ha hi' hret' hF)⟩
      · exact ⟨_, hs, ReflTransGen.single
          (Move.stopAgain i r w e ret e' ret' e'' F hc hw hok hi hret ha hi' hret' hF)⟩

/-! ## Cards -/

theorem cardGone_eq (i : SlotId) : PrcMngInfo.cardGone E i s = match s.chld (.dyn i) with
    | some r => if (s.rt r).state = .normal then
        RtPrcInfo.sTerm E r ((s.cardOff i).chk .handleState ((s.rt r).state ≠ .null))
      else .ok ((s.cardOff i).chk .handleState ((s.rt r).state ≠ .null))
    | none => PrcMngInfo.delFrom2Start (.dyn i) (s.cardOff i) >>= fun t =>
        .ok (t.ioctl E .handleNewType ⟨slotId i, etindevNull⟩).2 := rfl

theorem cardGone_outcome {i : SlotId} (hcard : (s.dyn i).cardType ≠ etindevNull) :
    Outcome (Move E V .plain) (FaultAt E) s (PrcMngInfo.cardGone E i s) := by
  rw [cardGone_eq]
  cases hc : s.chld (.dyn i) with
  | some r =>
    by_cases hst : (s.rt r).state = .normal
    · -- the process runs: both assertions hold, and it is told to exit
      simp only [hst, ↓reduceIte]
      rw [St.chk_pos (by simp), RtPrcInfo.sTerm, RtPrcInfo.signalTerm]
      rcases signal_cases (E := E) .signalTermState .sigterm .exiting r (s.cardOff i) (Or.inr rfl) with
        ⟨hk, hs⟩ | ⟨hk, F, -, hF, -, hs⟩
      · rw [hs]
        exact Outcome.fault (Or.inl ⟨_, _, hk⟩)
      · have hF' : F = s.failed := hF (Or.inl hst)
        rw [hs]
        simp only [ok_bind, moveTo_eq]
        exact Outcome.move (Move.goneTerm i r _ _ F hcard hc hst rfl hk (hF' ▸ Fails.refl s r []))
    · simp only [hst, ↓reduceIte]
      refine Outcome.move (Move.goneKeep i r _ hcard hc hst ((Fails.refl s r [.handleState]).chk (a := .handleState)
        (c := (s.rt r).state ≠ .null) fun hno => Or.inr ⟨by simp, not_not.1 hno⟩))
  | none =>
    by_cases hp : MngId.dyn i ∈ s.list2Start
    · have hp' : MngId.dyn i ∈ (s.cardOff i).list2Start := hp
      simp only [PrcMngInfo.delFrom2Start, hp', not_true_eq_false, ↓reduceIte, ok_bind, St.ioctl]
      exact Outcome.move (Move.goneWait i _ _ hcard hp rfl)
    · have hp' : MngId.dyn i ∉ (s.cardOff i).list2Start := hp
      simp only [PrcMngInfo.delFrom2Start, hp', not_false_eq_true, ↓reduceIte, error_bind]
      exact Outcome.fault ⟨i, rfl, hcard, hc, hp⟩

theorem cardCome_outcome (h : Core s) {i : SlotId} {new : ETinDev} (hV : V new)
    (hcard : (s.dyn i).cardType = etindevNull) (hnew : new ≠ etindevNull) (hc : s.chld (.dyn i) = none)
    (d : DynamicPrcMngInfo) :
    Outcome (Move E V .plain) (FaultAt E) s (PrcMngInfo.cardCome E i new (s.setDyn i d)) := by
  have hl : MngId.dyn i ∉ s.list2Start := fun hl => h.card i hl hcard
  obtain ⟨⟨ret, e⟩, hi⟩ : ∃ x, E.ioctl ⟨slotId i, new⟩ s.env = x := ⟨_, rfl⟩
  unfold PrcMngInfo.cardCome
  simp only [St.ioctl, St.setDyn, Function.update_idem, hi]
  by_cases hret : ret < 0
  · simp only [hret, ↓reduceIte]
    rw [addIn2Start_ok (by exact hl)]
    refine Outcome.move (Move.come i new ret e (.handleOnline :: s.failed) hV hcard hnew hc hi ?_)
    intro a ha
    rcases List.mem_cons.1 ha with rfl | ha
    · exact Or.inr rfl
    · exact Or.inl ha
  · simp only [hret, ↓reduceIte]
    rw [addIn2Start_ok (by exact hl)]
    exact Outcome.move (Move.come i new ret e s.failed hV hcard hnew hc hi fun _ ha => Or.inl ha)

theorem handleNewType_eq (i : SlotId) (new : ETinDev) : PrcMngInfo.handleNewType E i new s =
    if new = (s.dyn i).cardType then .ok (s.setDyn i { s.dyn i with cardTypeNew := etindevNull })
    else if (s.dyn i).cardType ≠ etindevNull then PrcMngInfo.cardGone E i s
    else
      let t := s.chk .handleNewCard (new ≠ etindevNull)
      if new ≠ (s.dyn i).cardTypeNew then .ok (t.setDyn i { s.dyn i with cardTypeNew := new, cnt4Filter := 0 })
      else
        let t := t.setDyn i { s.dyn i with cnt4Filter := (s.dyn i).cnt4Filter + 1 }
        if PrcMngInfo.onlineFilterCount ≤ (s.dyn i).cnt4Filter + 1 then
          if s.chld (.dyn i) ≠ none then .ok t else PrcMngInfo.cardCome E i new t
        else .ok t := rfl

theorem handleNewType_outcome (h : Core s) (i : SlotId) {new : ETinDev} (hV : V new) :
    Outcome (Move E V .plain) (FaultAt E) s (PrcMngInfo.handleNewType E i new s) := by
  rw [handleNewType_eq]
  by_cases h1 : new = (s.dyn i).cardType
  · rw [if_pos h1]
    exact Outcome.move (Move.filter i etindevNull (s.dyn i).cnt4Filter)
  rw [if_neg h1]
  by_cases h2 : (s.dyn i).cardType ≠ etindevNull
  · rw [if_pos h2]
    exact cardGone_outcome h2
  have hnull : (s.dyn i).cardType = etindevNull := not_not.1 h2
  have hnew : new ≠ etindevNull := fun hn => h1 (hn.trans hnull.symm)
  rw [if_neg h2, St.chk_pos hnew]
  dsimp only
  have hcount : Move E V .plain s (s.setDyn i { s.dyn i with cnt4Filter := (s.dyn i).cnt4Filter + 1 }) :=
    Move.filter i (s.dyn i).cardTypeNew _
  split_ifs with h3 h4 h5
  · exact Outcome.move (Move.filter i new 0)
  · exact Outcome.move hcount
  · exact cardCome_outcome h hV hnull hnew (not_not.1 h5) _
  · exact Outcome.move hcount

theorem checkDev_outcome (hV : ∀ x, ¬ isCardTypeInvalid x → V x) (h : Core s) (cardtype : SlotId → ETinDev)
    (i : SlotId) : Outcome (Move E V .plain) (FaultAt E) s (PrcMngInfo.checkDev E cardtype s i) := by
  unfold PrcMngInfo.checkDev
  split_ifs with _ hty
  · exact Outcome.refl s
  · exact Outcome.move (chk_errPath rfl)
  · exact handleNewType_outcome h i (hV _ hty)

theorem plain_core (h : Core s) (hs : ReflTransGen (Move E V .plain) s t) : Core t :=
  chain_inv (I := Core) (fun _ _ hm => move_core hm) hs h

theorem sCheckDevChange_outcome (hV : ∀ x, ¬ isCardTypeInvalid x → V x) (h : Core s) (ret : ℤ)
    (cardtype : SlotId → ETinDev) :
    Outcome (Move E V .plain) (FaultAt E) s (PrcMngInfo.sCheckDevChange E ret cardtype s) := by
  unfold PrcMngInfo.sCheckDevChange
  split_ifs
  · exact Outcome.refl s
  · exact Outcome.foldlM fun t i _ ht => checkDev_outcome hV (plain_core h ht) cardtype i

theorem sHandleCardChange_outcome (hV : ∀ x, ¬ isCardTypeInvalid x → V x) (h : Core s) (c : DevMngDrvData) :
    Outcome (Move E V .plain) (FaultAt E) s (PrcMngInfo.sHandleCardChange E c s) := by
  unfold PrcMngInfo.sHandleCardChange
  cases checkSlot c.slotId with
  | none => exact Outcome.refl s
  | some i =>
    dsimp only
    split_ifs with hty
    · exact Outcome.refl s
    · exact Outcome.refl s
    · exact handleNewType_outcome h i (hV _ hty)

/-! ## Traversals -/

theorem mem_listIds (l : ListId) : l ∈ RtPrcInfo.listIds := by cases l <;> decide

/-- what the body of a traversal of list `l` may do: keep `Core`, and take the current record out of the list -/
def Body (l : ListId) (body : RecId → St ε → Except Fault (St ε)) : Prop :=
  ∀ s r t, Core s → r ∈ s.lists l → body r s = .ok t →
    Core t ∧ (t.lists l = s.lists l ∨ t.lists l = (s.lists l).filter fun y => decide (y ≠ r))

/-- a traversal is the loop over the list as it stood at the start -/
theorem listForEachSafe_eq (h : Core s) {l : ListId} {body : RecId → St ε → Except Fault (St ε)} (hb : Body l body) :
    RtPrcInfo.listForEachSafe l body s = (s.lists l).foldlM (fun s r => body r s) s :=
  Lists.traverse_eq_foldlM mem_listIds (fun _ hs => hs.wf) hb h

/-- the records still to be visited are still in the list -/
theorem foldlM_outcome {l : ListId} {body : RecId → St ε → Except Fault (St ε)} (hb : Body l body)
    (hout : ∀ s r, Core s → r ∈ s.lists l → Outcome (Move E V .plain) (FaultAt E) s (body r s)) (rs : List RecId) :
    ∀ s : St ε, Core s → rs.Nodup → (∀ r ∈ rs, r ∈ s.lists l) →
      Outcome (Move E V .plain) (FaultAt E) s (rs.foldlM (fun s r => body r s) s) := by
  induction rs with
  | nil => intro s _ _ _; exact Outcome.refl s
  | cons r rs ih =>
    intro s h hnd hrs
    have hr := hrs r List.mem_cons_self
    rw [List.foldlM_cons]
    apply Outcome.bind (hout s r h hr)
    intro t _ ht
    obtain ⟨hct, hlt⟩ := hb s r t h hr ht
    apply ih t hct (List.nodup_cons.1 hnd).2
    intro r' hr'
    have hne : r' ≠ r := fun he => (List.nodup_cons.1 hnd).1 (he ▸ hr')
    have hr's := hrs r' (List.mem_cons_of_mem r hr')
    rcases hlt with hlt | hlt
    · exact hlt ▸ hr's
    · rw [hlt]; exact List.mem_filter.2 ⟨hr's, by simpa using hne⟩

theorem listForEachSafe_outcome (h : Core s) {l : ListId} {body : RecId → St ε → Except Fault (St ε)}
    (hb : Body l body)
    (hout : ∀ s r, Core s → r ∈ s.lists l → Outcome (Move E V .plain) (FaultAt E) s (body r s)) :
    Outcome (Move E V .plain) (FaultAt E) s (RtPrcInfo.listForEachSafe l body s) := by
  rw [listForEachSafe_eq h hb]
  exact foldlM_outcome hb hout _ s h (h.wf.nodup l) fun _ hr => hr

theorem sendHello_move (r : RecId) (hr : r ∈ s.lists .normal) : Move E V .plain s (RtPrcInfo.sendHello r s) :=
  Move.counts r _ (s.rt r).nRealTimes _ hr ((Fails.refl s r [.sendHelloState]).chk (a := .sendHelloState)
    (c := (s.rt r).state = .normal) fun hno => Or.inr ⟨by simp, hno⟩)

theorem sendHello_body : Body .normal fun r (s : St ε) => .ok (RtPrcInfo.sendHello r s) := by
  intro s r t h hr ht
  cases ht
  refine ⟨?_, Or.inl rfl⟩
  have hset := h.setRt r (f := fun z => { z with nExpTimes := z.nExpTimes + 1 }) fun _ => rfl
  exact hset.congr rfl (fun _ => rfl) rfl rfl fun _ _ => rfl

theorem clrTimes_move (r : RecId) (hr : r ∈ s.lists .normal) : Move E V .plain s (s.clrTimes r) :=
  Move.counts r 0 0 s.failed hr (Fails.refl s r _)

theorem sKill_lists {r : RecId} (hs : RtPrcInfo.sKill E r s = .ok t) :
    t.lists = s.lists ∨ t.lists = s.lists.accept .killing r := by
  unfold RtPrcInfo.sKill RtPrcInfo.signalKill at hs
  split_ifs at hs with hn
  · cases hs; exact Or.inl rfl
  · rcases signal_cases (E := E) .signalKillState .sigkill .killing r s (Or.inl rfl) with ⟨-, h⟩ | ⟨-, F, -, -, -, h⟩
    · rw [h] at hs; cases hs
    · rw [h] at hs
      simp only [ok_bind, moveTo_eq, Except.ok.injEq] at hs
      exact Or.inr (hs ▸ rfl)

theorem checkLive_outcome {r : RecId} (hr : r ∈ s.lists .normal) :
    Outcome (Move E V .plain) (FaultAt E) s (RtPrcInfo.checkLive E r s) := by
  unfold RtPrcInfo.checkLive
  split_ifs
  · exact Outcome.move (clrTimes_move r hr)
  · exact sKill_outcome (Or.inl hr)

theorem checkLive_body : Body .normal (RtPrcInfo.checkLive E) := by
  intro s r t h hr ht
  have hout := checkLive_outcome (E := E) (V := AnyType) hr
  rw [ht] at hout
  refine ⟨plain_core h hout, ?_⟩
  unfold RtPrcInfo.checkLive at ht
  split_ifs at ht
  · cases ht; exact Or.inl rfl
  · rcases sKill_lists ht with hl | hl
    · exact Or.inl (by rw [hl])
    · exact Or.inr (by rw [hl, Lists.accept_other (by simp)])

theorem sCheckLiveState_outcome (h : Core s) :
    Outcome (Move E V .plain) (FaultAt E) s (RtPrcInfo.sCheckLiveState E s) :=
  listForEachSafe_outcome h checkLive_body fun _ _ _ hr => checkLive_outcome hr

theorem sHello4Live_outcome (h : Core s) : Outcome (Move E V .plain) (FaultAt E) s (RtPrcInfo.sHello4Live s) :=
  listForEachSafe_outcome h sendHello_body fun _ r _ hr => Outcome.move (sendHello_move r hr)

/-! ## Timeouts and burials -/

theorem sFindObj_some {l : ListId} {pid : ℤ} {r : RecId} (h : RtPrcInfo.sFindObj s l pid = some r) :
    r ∈ s.lists l ∧ (s.rt r).pid = pid :=
  ⟨List.mem_of_find?_eq_some h, by simpa using List.find?_some h⟩

theorem sUpdateLiveState_outcome (pid : ℤ) :
    Outcome (Move E V .plain) (FaultAt E) s (.ok (RtPrcInfo.sUpdateLiveState pid s)) := by
  unfold RtPrcInfo.sUpdateLiveState
  cases hf : RtPrcInfo.sFindObj s .normal pid with
  | none => exact Outcome.refl s
  | some r =>
    exact Outcome.move (Move.counts r (s.rt r).nExpTimes _ s.failed (sFindObj_some hf).1 (Fails.refl s r _))

theorem sCheckTermTimeout_outcome :
    Outcome (Move E V .plain) (FaultAt E) s (RtPrcInfo.sCheckTermTimeout E s) := by
  unfold RtPrcInfo.sCheckTermTimeout
  refine Outcome.bind ?_ ?_
  · cases hl : s.lists .exiting with
    | nil => exact Outcome.refl s
    | cons r rs => exact sKill_outcome (Or.inr (by simp [hl]))
  · intro t _ _
    split_ifs with ht
    · exact Outcome.move (Move.timerOff .term ht)
    · exact Outcome.refl t

/-- a record outside the pool has a manager, which buries it -/
theorem bury_eq (h : Core s) {l : ListId} {r : RecId} (hr : r ∈ s.lists l) (hl : l ≠ .pool) (a : Assert) :
    ∃ p, s.chld p = some r ∧ RtPrcInfo.bury E a r s = PrcMngInfo.stop E p s := by
  obtain ⟨p, hp, hc⟩ := h.parent_of_mem hr hl
  refine ⟨p, hc, ?_⟩
  unfold RtPrcInfo.bury
  rw [hp]

theorem bury_outcome (h : Core s) {l : ListId} {r : RecId} (hr : r ∈ s.lists l) (hl : l ≠ .pool) (a : Assert) :
    Outcome (Move E V .plain) (FaultAt E) s (RtPrcInfo.bury E a r s) := by
  obtain ⟨p, -, hb⟩ := bury_eq (E := E) h hr hl a
  rw [hb]
  exact stop_outcome h p

theorem sCheckKillTimeout_outcome (h : Core s) :
    Outcome (Move E V .plain) (FaultAt E) s (RtPrcInfo.sCheckKillTimeout E s) := by
  unfold RtPrcInfo.sCheckKillTimeout
  refine Outcome.bind ?_ ?_
  · cases hl : s.lists .killing with
    | nil => exact Outcome.refl s
    | cons r rs => exact bury_outcome h (l := .killing) (by simp [hl]) (by simp) _
  · intro t _ _
    split_ifs with ht
    · exact Outcome.move (Move.timerOff .kill ht)
    · exact Outcome.refl t

theorem findChld_some {pid : ℤ} {r : RecId} (h : RtPrcInfo.findChld s pid = some r) :
    ∃ l, r ∈ s.lists l ∧ l ≠ .pool ∧ (s.rt r).pid = pid := by
  unfold RtPrcInfo.findChld at h
  rcases Option.or_eq_some_iff.1 h with h | ⟨-, h⟩
  · exact ⟨_, (sFindObj_some h).1, by simp, (sFindObj_some h).2⟩
  · rcases Option.or_eq_some_iff.1 h with h | ⟨-, h⟩
    · exact ⟨_, (sFindObj_some h).1, by simp, (sFindObj_some h).2⟩
    · exact ⟨_, (sFindObj_some h).1, by simp, (sFindObj_some h).2⟩

theorem buryPid_outcome (h : Core s) (pid : ℤ) :
    Outcome (Move E V .plain) (FaultAt E) s (RtPrcInfo.buryPid E pid s) := by
  unfold RtPrcInfo.buryPid
  cases hf : RtPrcInfo.findChld s pid with
  | none => exact Outcome.refl s
  | some r =>
    obtain ⟨l, hr, hl, -⟩ := findChld_some hf
    exact bury_outcome h hr hl _

/-- a move of a callback -/
def Runtime (E : Env ε μ) (V : ETinDev → Prop) (s t : St ε) : Prop := Move E V .plain s t ∨ Move E V .reap s t

theorem runtime_core (h : Core s) (hs : ReflTransGen (Runtime E V) s t) : Core t :=
  chain_inv (I := Core) (fun _ _ hm => hm.elim move_core move_core) hs h

theorem sBuryChld_outcome (n : ℕ) : ∀ s : St ε, Core s →
    Outcome (Runtime E V) (FaultAt E) s (RtPrcInfo.sBuryChld E n s) := by
  induction n with
  | zero => intro s _; exact Outcome.fault trivial
  | succ n ih =>
    intro s h
    have hw : Runtime E V s (RtPrcInfo.waitAny E s).2 := Or.inr (Move.reap _ _ rfl)
    have hcw := runtime_core h (ReflTransGen.single hw)
    unfold RtPrcInfo.sBuryChld
    refine Outcome.head (ReflTransGen.single hw) ?_
    dsimp only
    split_ifs with hpid
    · exact Outcome.refl _
    · have hb := (buryPid_outcome (E := E) hcw (RtPrcInfo.waitAny E s).1).mono (S := Runtime E V) fun _ _ => Or.inl
      exact hb.bind fun t ht _ => ih t (runtime_core hcw ht)

/-- what the event observes in a slot is in V -/
def Event.Observes (V : ETinDev → Prop) : Event μ → Prop
  | handleNewType _ new => V new
  | _ => True

instance (V : ETinDev → Prop) [DecidablePred V] : (e : Event μ) → Decidable (e.Observes V)
  | .handleNewType _ new => inferInstanceAs (Decidable (V new))
  | .sCheckNeedStart | .sHello4Live | .sUpdateLiveState _ | .sCheckLiveState | .sCheckTermTimeout | .sCheckKillTimeout
  | .sBuryChld _ | .sCheckDevChange .. | .sHandleCardChange _ | .outside _ | .term4Stop _ | .kill4Stop _ | .stop _
  | .processStop => isTrue trivial

/-- the event reaps whatever child has exited -/
def Event.reaps : Event μ → Bool
  | sBuryChld _ => true
  | _ => false

theorem step_plain (hV : ∀ x, ¬ isCardTypeInvalid x → V x) (h : Core s) {e : Event μ} (he : e.runtime = true)
    (hn : e.reaps = false) (ho : e.Observes V) : Outcome (Move E V .plain) (FaultAt E) s (step E s e) := by
  cases e with
  | sCheckNeedStart => exact sCheckNeedStart_outcome h
  | sHello4Live => exact sHello4Live_outcome h
  | sUpdateLiveState pid => exact sUpdateLiveState_outcome pid
  | sCheckLiveState => exact sCheckLiveState_outcome h
  | sCheckTermTimeout => exact sCheckTermTimeout_outcome
  | sCheckKillTimeout => exact sCheckKillTimeout_outcome h
  | handleNewType i new => exact handleNewType_outcome h i ho
  | sCheckDevChange ret cardtype => exact sCheckDevChange_outcome hV h ret cardtype
  | sHandleCardChange c => exact sHandleCardChange_outcome hV h c
  | outside m => exact Outcome.move (Move.outside m)
  | sBuryChld => cases hn
  | term4Stop | kill4Stop | stop | processStop => cases he

/-- **Every callback is a chain of runtime moves.** -/
theorem step_runtime (hV : ∀ x, ¬ isCardTypeInvalid x → V x) (h : Core s) {e : Event μ} (he : e.runtime = true)
    (ho : e.Observes V) : Outcome (Runtime E V) (FaultAt E) s (step E s e) := by
  cases hn : e.reaps with
  | false => exact (step_plain hV h he hn ho).mono fun _ _ => Or.inl
  | true =>
    cases e with
    | sBuryChld n => exact sBuryChld_outcome n s h
    | _ => cases hn

/-! ## Shutdown -/

/-- a move of an event that does not reap -/
def Effect (E : Env ε μ) (V : ETinDev → Prop) (s t : St ε) : Prop := Move E V .plain s t ∨ Move E V .shut s t

theorem effect_core (h : Core s) (hs : ReflTransGen (Effect E V) s t) : Core t :=
  chain_inv (I := Core) (fun _ _ hm => hm.elim move_core move_core) hs h

/-- `Term4Stop` sends its signal whatever the state of the child -/
theorem term4Stop_outcome (p : MngId) : Outcome (Effect E V) (FaultAt E) s (PrcMngInfo.term4Stop E p s) := by
  unfold PrcMngInfo.term4Stop RtPrcInfo.signalTerm
  cases hc : s.chld p with
  | none => exact Outcome.refl s
  | some r =>
    dsimp only
    rcases signal_cases (E := E) .signalTermState .sigterm .exiting r s (Or.inr rfl) with
      ⟨hk, hs⟩ | ⟨hk, F, hF, -, -, hs⟩
    · rw [hs]; exact Outcome.fault (Or.inl ⟨_, _, hk⟩)
    · rw [hs]; exact Outcome.move (Or.inr (Move.signal p r _ _ _ _ _ F hc (Or.inl ⟨rfl, rfl, rfl⟩) rfl hk hF))

theorem kill4Stop_outcome (p : MngId) : Outcome (Effect E V) (FaultAt E) s (PrcMngInfo.kill4Stop E p s) := by
  unfold PrcMngInfo.kill4Stop RtPrcInfo.signalKill
  cases hc : s.chld p with
  | none => exact Outcome.refl s
  | some r =>
    dsimp only
    rcases signal_cases (E := E) .signalKillState .sigkill .killing r s (Or.inl rfl) with
      ⟨hk, hs⟩ | ⟨hk, F, hF, -, -, hs⟩
    · rw [hs]; exact Outcome.fault (Or.inl ⟨_, _, hk⟩)
    · rw [hs]; exact Outcome.move (Or.inr (Move.signal p r _ _ _ _ _ F hc (Or.inr ⟨rfl, rfl, rfl⟩) rfl hk hF))

theorem ioctlInt_outcome (c : IntIoc) : Outcome (Effect E V) (FaultAt E) s (ioctlInt E c s) := by
  unfold ioctlInt
  dsimp only
  split_ifs with hk
  · exact Outcome.fault (Or.inr ⟨c, hk⟩)
  · exact Outcome.move (Or.inr (Move.ioctlInt c _ _ rfl (not_lt.1 hk)))

theorem stopSignals_outcome : Outcome (Effect E V) (FaultAt E) s (stopSignals E s) := by
  unfold stopSignals
  apply (Outcome.foldlM fun t p _ _ => term4Stop_outcome p).bind
  intro t _ _
  refine Outcome.head (ReflTransGen.single (Or.inr (Move.sleep 2))) ?_
  apply (Outcome.foldlM fun t p _ _ => kill4Stop_outcome p).bind
  intro t _ _
  exact Outcome.move (Or.inr (Move.sleep 1))

theorem stopAll_outcome (h : Core s) : Outcome (Effect E V) (FaultAt E) s (stopAll E s) := by
  unfold stopAll
  have hexit : ReflTransGen (Effect E V) s { s with exitFlag := true } := ReflTransGen.single (Or.inr Move.setExit)
  refine Outcome.head hexit ?_
  apply (ioctlInt_outcome .stateInt).bind
  intro t ht _
  apply (ioctlInt_outcome .masterInt).bind
  intro u hu _
  have hcu : Core u := effect_core h ((hexit.trans ht).trans hu)
  exact Outcome.foldlM fun v p _ hv =>
    (stop_outcome (effect_core hcu hv) p).mono fun _ _ => Or.inl

theorem processStop_outcome (h : Core s) : Outcome (Effect E V) (FaultAt E) s (processStop E s) := by
  unfold processStop
  apply stopSignals_outcome.bind
  intro t ht _
  apply (stopAll_outcome (effect_core h ht)).bind
  intro u _ _
  exact Outcome.move (Or.inr Move.timersOff)

/-- an event that does not reap is a chain of moves that do not -/
theorem step_effect (hV : ∀ x, ¬ isCardTypeInvalid x → V x) (h : Core s) {e : Event μ} (hn : e.reaps = false)
    (ho : e.Observes V) : Outcome (Effect E V) (FaultAt E) s (step E s e) := by
  cases he : e.runtime with
  | true => exact (step_plain hV h he hn ho).mono fun _ _ => Or.inl
  | false =>
    cases e with
    | term4Stop p => exact term4Stop_outcome p
    | kill4Stop p => exact kill4Stop_outcome p
    | stop p => exact (stop_outcome h p).mono fun _ _ => Or.inl
    | processStop => exact processStop_outcome h
    | _ => cases he

/-- **Every event is a chain of moves.** -/
theorem step_outcome (hV : ∀ x, ¬ isCardTypeInvalid x → V x) (h : Core s) {e : Event μ} (ho : e.Observes V) :
    Outcome (fun s t => ∃ k, Move E V k s t) (FaultAt E) s (step E s e) := by
  cases hn : e.reaps with
  | false => exact (step_effect hV h hn ho).mono fun _ _ hm => hm.elim (fun hm => ⟨_, hm⟩) fun hm => ⟨_, hm⟩
  | true =>
    cases e with
    | sBuryChld n =>
      exact (sBuryChld_outcome n s h).mono fun _ _ hm => hm.elim (fun hm => ⟨_, hm⟩) fun hm => ⟨_, hm⟩
    | _ => cases hn

/-! ## Runs -/

theorem addIn2Start_foldlM (ps : List MngId) : ∀ s : St ε, ps.Nodup → (∀ p ∈ ps, p ∉ s.list2Start) → ps ≠ [] →
    ps.foldlM (fun s p => PrcMngInfo.addIn2Start p s) s = .ok { s with
      list2Start := s.list2Start ++ ps
      timer := if s.list2Start = [] then Function.update s.timer .start true else s.timer } := by
  induction ps with
  | nil => intro s _ _ h; exact absurd rfl h
  | cons p ps ih =>
    intro s hnd hps _
    rw [List.foldlM_cons, addIn2Start_ok (hps p List.mem_cons_self), ok_bind]
    by_cases hnil : ps = []
    · subst hnil; rfl
    · rw [ih (s.linked p) (List.nodup_cons.1 hnd).2 (fun q hq => ?_) hnil]
      · simp [St.linked]
      · have hqp : q ≠ p := fun he => (List.nodup_cons.1 hnd).1 (he ▸ hq)
        simp [St.linked, hps q (List.mem_cons_of_mem p hq), hqp]

theorem sInitPool_eq (rs : List RecId) : ∀ s : St ε,
    rs.foldl (fun s r => { s with lists := s.lists.addTail .pool r }) s =
      { s with lists := Function.update s.lists .pool (s.lists .pool ++ rs) } := by
  induction rs with
  | nil => intro s; simp
  | cons r rs ih => intro s; rw [List.foldl_cons, ih]; simp [Lists.addTail]

/-- the state `CProcessPdm::Start` leaves: every record in the pool, the static managers waiting to be started -/
def St.ready (s : St ε) : St ε :=
  { s with
    lists := fun l => if l = .pool then List.finRange (etinSlotMax + maxStaticPrcNum) else []
    list2Start := statics
    timer := Function.update s.timer .start true }

theorem sInitPool_boot (timer : TimerId → Bool) (needKillPrc : Bool) (exeName : Option String) (selfSlot : ℤ)
    (env : ε) : RtPrcInfo.sInitPool (boot timer needKillPrc exeName selfSlot env) =
      { boot timer needKillPrc exeName selfSlot env with
        lists := (boot timer needKillPrc exeName selfSlot env).ready.lists } := by
  unfold RtPrcInfo.sInitPool
  rw [sInitPool_eq]
  simp only [boot, St.ready, List.nil_append, St.mk.injEq, true_and, and_true]
  funext l
  by_cases hl : l = .pool
  · subst hl; simp
  · simp [hl]

theorem processStart_boot (timer : TimerId → Bool) (needKillPrc : Bool) (exeName : Option String) (selfSlot : ℤ)
    (env : ε) : processStart (boot timer needKillPrc exeName selfSlot env) =
      .ok (boot timer needKillPrc exeName selfSlot env).ready := by
  unfold processStart
  rw [sInitPool_boot]
  dsimp only
  rw [addIn2Start_foldlM statics _ (by decide) (by simp [boot]) (by decide)]
  rfl

theorem ready_core (timer : TimerId → Bool) (needKillPrc : Bool) (exeName : Option String) (selfSlot : ℤ) (env : ε) :
    Core (boot timer needKillPrc exeName selfSlot env).ready := by
  refine ⟨⟨?_, ?_⟩, fun r => ⟨.pool, ?_⟩, ?_, ?_, ?_, fun _ _ => rfl,
    ?_⟩
  · intro l
    by_cases hl : l = .pool
    · simpa [St.ready, hl] using List.nodup_finRange _
    · simp [St.ready, hl]
  · intro l l' r hr hr'
    by_cases hl : l = .pool <;> by_cases hl' : l' = .pool
    · rw [hl, hl']
    · simp [St.ready, hl'] at hr'
    · simp [St.ready, hl] at hr
    · simp [St.ready, hl] at hr
  · simp [St.ready]
  · intro p r
    simp [St.ready, boot]
  · intro r
    simp [St.ready, boot]
  · show statics.Nodup
    decide
  · intro i hi
    have : MngId.dyn i ∉ statics := by simp [statics]
    exact absurd hi this

theorem observes_any (e : Event μ) : e.Observes AnyType := by cases e <;> exact trivial

/-- an invariant of the moves of callbacks is one of the runs of callbacks -/
theorem run_runtime_inv (hV : ∀ x, ¬ isCardTypeInvalid x → V x) {I : St ε → Prop}
    (hI : ∀ a b, Core a → Runtime E V a b → I a → I b) {es : List (Event μ)}
    (hes : ∀ e ∈ es, e.runtime = true ∧ e.Observes V) (h : Core s) (hs : I s) (hr : run E s es = .ok t) :
    Core t ∧ I t := by
  refine runFrom_inv (I := fun a => Core a ∧ I a) (P := fun e => e.runtime = true ∧ e.Observes V)
    ?_ hes ⟨h, hs⟩ hr
  intro a e b he ha hb
  have hout := step_runtime (E := E) hV ha.1 he.1 he.2
  rw [hb] at hout
  refine chain_inv (I := fun a => Core a ∧ I a) (fun x y hxy hx => ⟨?_, hI x y hx.1 hxy hx.2⟩) hout ha
  exact hxy.elim (fun hm => move_core hm hx.1) fun hm => move_core hm hx.1

/-- an invariant of all moves is one of all runs -/
theorem run_inv {I : St ε → Prop} (hI : ∀ a b k, Core a → Move E AnyType k a b → I a → I b) {es : List (Event μ)}
    (h : Core s) (hs : I s) (hr : run E s es = .ok t) : Core t ∧ I t := by
  refine runFrom_inv (I := fun a => Core a ∧ I a) (P := fun _ => True) ?_ (fun _ _ => trivial)
    ⟨h, hs⟩ hr
  intro a e b _ ha hb
  have hout := step_outcome (E := E) (V := AnyType) (fun _ _ => trivial) ha.1 (observes_any e)
  rw [hb] at hout
  refine chain_inv (I := fun a => Core a ∧ I a) ?_ hout ha
  intro x y ⟨k, hm⟩ hx
  exact ⟨move_core hm hx.1, hI x y k hx.1 hm hx.2⟩

/-- a run that is seen to return a state with a property reaches one -/
theorem exists_reached (E : Env ε μ) (env : ε) (es : List (Event μ)) (f : St ε → Bool)
    (h : (run E (boot (fun _ => false) true (some "pdm") 0 env).ready es).toOption.any f = true) :
    ∃ s, ReachedFrom E env es s ∧ f s = true := by
  cases hs : run E (boot (fun _ => false) true (some "pdm") 0 env).ready es with
  | error x => rw [hs] at h; cases h
  | ok s =>
    rw [hs] at h
    exact ⟨s, ⟨_, _, _, _, _, processStart_boot .., hs⟩, h⟩

/-- what holds after the start and is kept by the moves of callbacks holds before the shutdown -/
theorem ReachedFrom.runtime_inv (hV : ∀ x, ¬ isCardTypeInvalid x → V x) {I : St ε → Prop} {env : ε}
    {es : List (Event μ)} (hr : ReachedFrom E env es s) (hes : ∀ e ∈ es, e.runtime = true ∧ e.Observes V)
    (h0 : ∀ timer needKillPrc exeName selfSlot, I (boot timer needKillPrc exeName selfSlot env).ready)
    (hI : ∀ a b, Core a → Runtime E V a b → I a → I b) : Core s ∧ I s := by
  obtain ⟨timer, needKillPrc, exeName, selfSlot, s₀, hs₀, hrun⟩ := hr
  rw [processStart_boot] at hs₀
  cases hs₀
  exact run_runtime_inv hV hI hes (ready_core ..) (h0 ..) hrun

/-- the same in any world and for any observation -/
theorem Reached.runtime_inv {I : St ε → Prop} {es : List (Event μ)} (hr : Reached E es s)
    (hes : ∀ e ∈ es, e.runtime = true)
    (h0 : ∀ timer needKillPrc exeName selfSlot env, I (boot timer needKillPrc exeName selfSlot env).ready)
    (hI : ∀ a b, Core a → Runtime E AnyType a b → I a → I b) : Core s ∧ I s := by
  obtain ⟨env, hr⟩ := hr
  exact hr.runtime_inv (fun _ _ => trivial) (fun e he => ⟨hes e he, observes_any e⟩) (fun _ _ _ _ => h0 ..) hI

/-- what holds after the start and is kept by all moves holds in every run -/
theorem ReachedFrom.inv {I : St ε → Prop} {env : ε} {es : List (Event μ)} (hr : ReachedFrom E env es s)
    (h0 : ∀ timer needKillPrc exeName selfSlot, I (boot timer needKillPrc exeName selfSlot env).ready)
    (hI : ∀ a b k, Core a → Move E AnyType k a b → I a → I b) : Core s ∧ I s := by
  obtain ⟨timer, needKillPrc, exeName, selfSlot, s₀, hs₀, hrun⟩ := hr
  rw [processStart_boot] at hs₀
  cases hs₀
  exact run_inv hI (ready_core ..) (h0 ..) hrun

theorem Reached.core {es : List (Event μ)} (hr : Reached E es s) : Core s := by
  obtain ⟨env, hr⟩ := hr
  exact (hr.inv (I := fun _ => True) (fun _ _ _ _ => trivial) fun _ _ _ _ _ _ => trivial).1

end LinuxDrv.Pdm
