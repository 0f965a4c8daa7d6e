/-
What the process manager does to a process, and for it.

- `left_alone`: in every run of callbacks, a process that has not ended, passes the live checks and keeps its card stays
  with its manager in `s_listNormal`, and is not sent any signal.
- `replaced`: a process that has exited when `sBuryChld` is called is replaced. From then on its manager waits, and as
  many ticks of the start timer as there are managers suffice to fork it again, unless its card goes.
Both look at a callback as a chain of moves. Moves alone do not say which callback kills, or that `sBuryChld` starts
nothing; but both write the state of a record, and `written` says which states a callback writes.
-/
import LinuxDrv.Pdm.CardFrame
import LinuxDrv.Pdm.Hello
import LinuxDrv.Pdm.Progress

namespace LinuxDrv.Pdm

open LinuxDrv.Core Relation

variable {ε μ : Type} {E : Env ε μ} {s t u : St ε}

/-! ## The states that a function writes -/

/-- the writes of a state that is in P -/
def written (P : PrcRtState → Bool) (s : St ε) : List (RecId × PrcRtState × PrcRtState) :=
  s.writes.filter fun w => P w.2.2

/-- what a function returns, with its error code or without, has `d` for the writes of a state in P -/
abbrev Writes (P : PrcRtState → Bool) (d : List (RecId × PrcRtState × PrcRtState)) (x : Except Fault (St ε)) : Prop :=
  Frame (written P) d x
abbrev WritesRet (P : PrcRtState → Bool) (d : List (RecId × PrcRtState × PrcRtState))
    (x : Except Fault (ℤ × St ε)) : Prop :=
  Frame (fun y => written P y.2) d x

section Written

variable {P : PrcRtState → Bool} {d : List (RecId × PrcRtState × PrcRtState)}

theorem Writes.ret {x : Except Fault (St ε)} (h : Writes P d x) (n : ℤ) : WritesRet P d (x >>= fun t => .ok (n, t)) :=
  Frame.bind h fun _ ht => ht

theorem written_cons {w : RecId × PrcRtState × PrcRtState} (hw : P w.2.2 = false) (ht : t.writes = w :: s.writes) :
    written P t = written P s := by
  unfold written
  rw [ht, List.filter_cons_of_neg (by simp [hw])]

/-- nothing is new that is in P -/
theorem not_since_of_written {Q : RecId × PrcRtState × PrcRtState → Prop} (h : written P t = written P s)
    (hQ : ∀ w, Q w → P w.2.2 = true) : ¬ Since s.writes Q t.writes := by
  intro hs
  obtain ⟨new, hnew, w, hw, hq⟩ := hs
  unfold written at h
  rw [hnew, List.filter_append, List.append_left_eq_self, List.filter_eq_nil_iff] at h
  exact h w hw (hQ w hq)

theorem addIn2Start_writes (p : MngId) (hs : written P s = d) : Writes P d (PrcMngInfo.addIn2Start p s) := by
  unfold PrcMngInfo.addIn2Start
  dsimp only
  split_ifs
  · trivial
  · exact hs
  · exact hs

theorem delFrom2Start_writes (p : MngId) (hs : written P s = d) : Writes P d (PrcMngInfo.delFrom2Start p s) := by
  unfold PrcMngInfo.delFrom2Start
  by_cases hp : p ∉ s.list2Start
  · rw [if_pos hp]
    trivial
  · rw [if_neg hp]
    exact hs

/-! ### Starting -/

theorem sCapture_written (hP : P .normal = false) (p : MngId) (argv : List (Option String)) (s : St ε) :
    written P (RtPrcInfo.sCapture E p argv s).2 = written P s := by
  unfold RtPrcInfo.sCapture
  dsimp only
  rcases ((s.chk .capturePool (s.lists .pool ≠ [])).lists .pool).head? with _ | r
  · rfl
  · have hstart : written P (RtPrcInfo.start E p r argv (s.chk .capturePool (s.lists .pool ≠ []))).2 = written P s := by
      rcases rtStart_cases (E := E) p r argv (s.chk .capturePool (s.lists .pool ≠ [])) with
        ⟨e, F, -, -, heq⟩ | ⟨pid, e, F, -, -, heq⟩
      · rw [heq]
        rfl
      · rw [heq]
        exact written_cons (w := (r, _, .normal)) hP rfl
    dsimp only
    split_ifs <;> exact hstart

theorem capture_writes (hP : P .normal = false) (p : MngId) (name : Option String) (hs : written P s = d) :
    WritesRet P d (PrcMngInfo.capture E p name s) := by
  have hcapture := (sCapture_written (E := E) hP p (PrcMngInfo.argv s name p) s).trans hs
  unfold PrcMngInfo.capture
  dsimp only
  split_ifs
  · exact hcapture
  · exact Writes.ret (delFrom2Start_writes p hcapture) 0

theorem start_writes (hP : P .normal = false) (p : MngId) (hs : written P s = d) :
    Writes P d (PrcMngInfo.start E p s) := by
  have hsub : WritesRet P d (PrcMngInfo.subStart E p s) := by
    unfold PrcMngInfo.subStart
    rcases p with i | i
    · exact capture_writes hP _ none hs
    · dsimp only
      split_ifs
      · exact Writes.ret (delFrom2Start_writes _ (by exact hs)) 0
      · rcases getCardTypeStr ((s.chk .subStartChld (s.chld (.dyn i) = none)).dyn i).cardType with _ | name
        · exact hs
        · exact capture_writes hP _ (some name) hs
  unfold PrcMngInfo.start
  split_ifs
  · exact hs
  · refine hsub.bind fun x hx => ?_
    show written P (if x.1 < 0 then x.2.chk .mngStartSub False else x.2) = d
    split_ifs <;> exact hx

theorem sCheckNeedStart_writes (hP : P .normal = false) (hs : written P s = d) :
    Writes P d (PrcMngInfo.sCheckNeedStart E s) := by
  unfold PrcMngInfo.sCheckNeedStart
  refine Frame.bind (f := written P) (d := d) ?_ ?_
  · rcases s.list2Start.head? with _ | p
    · exact hs
    · exact start_writes hP p hs
  · intro t ht
    split_ifs <;> exact ht

/-! ### Stopping -/

theorem sRelease_writes (hP : P .null = false) (r : RecId) (hs : written P s = d) :
    WritesRet P d (RtPrcInfo.sRelease E r s) := by
  have hstop : written P (RtPrcInfo.stop E r s).2 = d := by
    unfold RtPrcInfo.stop
    dsimp only
    split_ifs
    · exact (written_cons (w := (r, _, .null)) hP rfl).trans hs
    · exact hs
  unfold RtPrcInfo.sRelease
  dsimp only
  split_ifs
  · exact hstop
  · rcases ((RtPrcInfo.stop E r s).2.rt r).pParent with _ | p
    · trivial
    · exact hstop

theorem reonline_writes (i : SlotId) (hs : written P s = d) : WritesRet P d (PrcMngInfo.reonline E i s) := by
  unfold PrcMngInfo.reonline
  dsimp only
  split_ifs
  · exact hs
  · exact hs
  · exact hs
  · exact Writes.ret (addIn2Start_writes _ (by exact hs)) 0

theorem stop_writes (hP : P .null = false) (p : MngId) (hs : written P s = d) :
    Writes P d (PrcMngInfo.stop E p s) := by
  have hsub : WritesRet P d (PrcMngInfo.subStop E p s) := by
    unfold PrcMngInfo.subStop
    dsimp only
    rcases (s.chk .subStopChld (s.chld p ≠ none)).chld p with _ | r
    · trivial
    · refine (sRelease_writes hP r (by exact hs)).bind fun x hx => ?_
      by_cases hret : x.1 < 0
      · rw [if_pos hret]
        exact hx
      · rw [if_neg hret]
        rcases p with i | i
        · exact Writes.ret (addIn2Start_writes _ hx) 0
        · exact reonline_writes i hx
  unfold PrcMngInfo.stop
  split_ifs
  · exact hs
  · refine hsub.bind fun x hx => ?_
    show written P (if x.1 < 0 then x.2.chk .mngStopSub False else x.2) = d
    split_ifs <;> exact hx

theorem bury_writes (hP : P .null = false) (a : Assert) (r : RecId) (hs : written P s = d) :
    Writes P d (RtPrcInfo.bury E a r s) := by
  unfold RtPrcInfo.bury
  rcases (s.rt r).pParent with _ | p
  · exact hs
  · exact stop_writes hP p hs

theorem sCheckKillTimeout_writes (hP : P .null = false) (hs : written P s = d) :
    Writes P d (RtPrcInfo.sCheckKillTimeout E s) := by
  unfold RtPrcInfo.sCheckKillTimeout
  refine Frame.bind (f := written P) (d := d) ?_ ?_
  · rcases (s.lists .killing).head? with _ | r
    · exact hs
    · exact bury_writes hP _ r hs
  · intro t ht
    split_ifs <;> exact ht

theorem sBuryChld_writes (hP : P .null = false) (n : ℕ) (hs : written P s = d) :
    Writes P d (RtPrcInfo.sBuryChld E n s) := by
  induction n generalizing s with
  | zero => trivial
  | succ n ih =>
    have hbury : Writes P d (RtPrcInfo.buryPid E (RtPrcInfo.waitAny E s).1 (RtPrcInfo.waitAny E s).2) := by
      unfold RtPrcInfo.buryPid
      rcases RtPrcInfo.findChld (RtPrcInfo.waitAny E s).2 (RtPrcInfo.waitAny E s).1 with _ | r
      · exact hs
      · exact bury_writes hP _ r hs
    unfold RtPrcInfo.sBuryChld
    dsimp only
    split_ifs
    · exact hs
    · exact hbury.bind fun t ht => ih ht

/-! ### Cards -/

theorem cardGone_writes (hP : P .exiting = false) (i : SlotId) (hs : written P s = d) :
    Writes P d (PrcMngInfo.cardGone E i s) := by
  have hterm : ∀ {u : St ε} r, written P u = d → Writes P d (RtPrcInfo.sTerm E r u) := by
    intro u r hu
    unfold RtPrcInfo.sTerm RtPrcInfo.signalTerm
    rcases signal_cases (E := E) .signalTermState .sigterm .exiting r u (Or.inr rfl) with ⟨-, h⟩ | ⟨-, F, -, -, -, h⟩
    · rw [h]
      trivial
    · rw [h, ok_bind, moveTo_eq]
      exact (written_cons (w := (r, _, .exiting)) hP rfl).trans hu
  unfold PrcMngInfo.cardGone
  dsimp only
  cases s.chld (.dyn i) with
  | none => exact (delFrom2Start_writes _ (by exact hs)).bind fun u hu => hu
  | some r =>
    dsimp only
    split_ifs
    · exact hterm r hs
    · exact hs

theorem cardCome_writes (i : SlotId) (new : ETinDev) (hs : written P s = d) :
    Writes P d (PrcMngInfo.cardCome E i new s) := by
  unfold PrcMngInfo.cardCome
  refine addIn2Start_writes _ ?_
  split_ifs <;> exact hs

theorem handleNewType_writes (hP : P .exiting = false) (i : SlotId) (new : ETinDev) (hs : written P s = d) :
    Writes P d (PrcMngInfo.handleNewType E i new s) := by
  unfold PrcMngInfo.handleNewType
  dsimp only
  split_ifs
  · exact hs
  · exact cardGone_writes hP i hs
  · exact hs
  · exact hs
  · exact cardCome_writes i new hs
  · exact hs

theorem sCheckDevChange_writes (hP : P .exiting = false) (ret : ℤ) (cardtype : SlotId → ETinDev)
    (hs : written P s = d) : Writes P d (PrcMngInfo.sCheckDevChange E ret cardtype s) := by
  unfold PrcMngInfo.sCheckDevChange
  split_ifs
  · exact hs
  · refine Frame.foldlM (fun u i hu => ?_) _ hs
    unfold PrcMngInfo.checkDev
    split_ifs
    · exact hu
    · exact hu
    · exact handleNewType_writes hP i _ hu

theorem sHandleCardChange_writes (hP : P .exiting = false) (c : DevMngDrvData) (hs : written P s = d) :
    Writes P d (PrcMngInfo.sHandleCardChange E c s) := by
  unfold PrcMngInfo.sHandleCardChange
  rcases checkSlot c.slotId with _ | i
  · exact hs
  · dsimp only
    split_ifs
    · exact hs
    · exact hs
    · exact handleNewType_writes hP i _ hs

end Written

/-- the callback kills processes -/
def Event.kills : Event μ → Bool
  | sCheckLiveState | sCheckTermTimeout => true
  | _ => false

/-- all other callbacks take no record to `s_listKilling` -/
theorem step_writes {e : Event μ} (he : e.runtime = true) (hk : e.kills = false) (s : St ε) :
    Writes (fun x => decide (x = .killing)) (written (fun x => decide (x = .killing)) s) (step E s e) := by
  cases e with
  | sCheckNeedStart => exact sCheckNeedStart_writes (by decide) rfl
  | sHello4Live =>
    refine Lists.traverse_frame (f := written _) ?_ Fault.stray ListId.normal rfl
    exact fun r u hu => hu
  | sUpdateLiveState pid =>
    show written _ (RtPrcInfo.sUpdateLiveState pid s) = _
    unfold RtPrcInfo.sUpdateLiveState
    rcases RtPrcInfo.sFindObj s .normal pid with _ | r <;> rfl
  | sCheckKillTimeout => exact sCheckKillTimeout_writes (by decide) rfl
  | sBuryChld n => exact sBuryChld_writes (by decide) n rfl
  | handleNewType i new => exact handleNewType_writes (by decide) i new rfl
  | sCheckDevChange ret cardtype => exact sCheckDevChange_writes (by decide) ret cardtype rfl
  | sHandleCardChange c => exact sHandleCardChange_writes (by decide) c rfl
  | outside m => exact rfl
  | sCheckLiveState | sCheckTermTimeout => cases hk
  | term4Stop | kill4Stop | stop | processStop => cases he

/-! ## A process and its record -/

/-- `waitpid` returned child `z` -/
def Waited (z : ℤ) : Call ε → Prop
  | .waitpid _ ret => ret = z
  | .fork .. | .kill .. | .ioctl .. => False

instance (z : ℤ) : DecidablePred (Waited (ε := ε) z)
  | .waitpid _ ret => inferInstanceAs (Decidable (ret = z))
  | .fork .. | .kill .. | .ioctl .. => isFalse id

theorem wait_ret_ne {z : ℤ} (h : ¬ Since s.trace (Waited z) t.trace) {arg ret : ℤ}
    (hsuf : .waitpid arg ret :: s.trace <:+ t.trace) : ret ≠ z := fun hret =>
  h ((Since.cons (a := .waitpid arg ret) (P := Waited z) hret List.suffix_rfl).mono hsuf)

/-- a signal was sent to child `z` -/
def SentTo (z : ℤ) : Call ε → Prop
  | .kill pid _ _ => pid = z
  | .fork .. | .waitpid .. | .ioctl .. => False

/-- record `r` was taken to `s_listKilling` -/
def Killed (r : RecId) (w : RecId × PrcRtState × PrcRtState) : Prop := w.1 = r ∧ w.2.2 = .killing

/-- child `z` was not reaped, and manager `p` has it in record `r`, which is the only one with its pid -/
structure Own (os : Os E) (p : MngId) (r : RecId) (z : ℤ) (s : St ε) : Prop where
  pos : PidPos s
  chld : s.chld p = some r
  pid : (s.rt r).pid = z
  unreaped : z ∈ os.unreaped s.env
  only : ∀ q r', s.chld q = some r' → (s.rt r').pid = z → r' = r

namespace Own

variable {os : Os E} {p q : MngId} {r r' : RecId} {z : ℤ} {w : WaitRet} {e : ε}

/-- nobody got another child or another pid -/
theorem congr (h : Own os p r z s) (hc : t.chld = s.chld) (hp : SamePids s t) (hu : z ∈ os.unreaped t.env) :
    Own os p r z t := by
  refine ⟨h.pos.congr hc hp, hc ▸ h.chld, (hp r).1.trans h.pid, hu, ?_⟩
  intro q r' hq hz
  rw [(hp r').1] at hz
  exact h.only q r' (hc ▸ hq) hz

theorem ioctl (h : z ∈ os.unreaped e) {arg : DevMngDrvData} {ret : ℤ} {e' : ε} (hi : E.ioctl arg e = (ret, e')) :
    z ∈ os.unreaped e' := by
  rw [(ioctl_children os hi).1]
  exact h

/-- a wait that did not return it leaves it -/
theorem wait (h : Own os p r z s) (hc : s.chld q = some r') (hw : E.waitpid (s.rt r').pid s.env = (w, e))
    (hne : w.pid ≠ z) : z ∈ os.unreaped e := by
  rcases os.waitpid (h.pos q r' hc) hw with ⟨-, -, hu, -⟩ | ⟨-, hpid, hu, -⟩ | ⟨-, -, -, hu, -⟩
  · rw [hu]
    exact h.unreaped
  · rw [hu]
    exact ⟨h.unreaped, fun hz => hne (hpid.trans (Set.mem_singleton_iff.1 hz).symm)⟩
  · rw [hu]
    exact h.unreaped

/-- a record whose process has ended is another one, if no wait returned `z` -/
theorem ended_ne (h : Own os p r z s) (hc : s.chld q = some r') (hw : E.waitpid (s.rt r').pid s.env = (w, e))
    (hok : RtPrcInfo.WaitOk (s.rt r').pid w) (hne : w.pid ≠ z) : r' ≠ r := by
  rintro rfl
  have hpos := h.pos q r' hc
  rcases os.waitpid hpos hw with ⟨hno, -⟩ | ⟨-, hpid, -⟩ | ⟨-, -, hpid, -⟩
  · exact hno (h.pid ▸ h.unreaped)
  · exact hne (hpid.trans h.pid)
  · rcases hok with hok | ⟨hok, -⟩ <;> omega

/-- another record goes back to the pool -/
theorem released (h : Own os p r z s) (hcore : Core s) (hc : s.chld q = some r') (hne : r' ≠ r)
    (ht : t.chld = Function.update s.chld q none) (hrt : t.rt = Function.update s.rt r' ⟨.null, -1, 0, 0, none⟩)
    (hu : z ∈ os.unreaped t.env) : Own os p r z t := by
  have hqp : p ≠ q := by
    rintro rfl
    rw [h.chld] at hc
    exact hne (Option.some.inj hc).symm
  refine ⟨h.pos.released hcore hc ht hrt, ?_, ?_, hu, ?_⟩
  · rw [ht, Function.update_of_ne hqp]
    exact h.chld
  · rw [hrt, Function.update_of_ne hne.symm]
    exact h.pid
  · intro q' r'' hq' hz
    have hqq : q' ≠ q := by
      rintro rfl
      rw [ht, Function.update_self] at hq'
      cases hq'
    rw [ht, Function.update_of_ne hqq] at hq'
    have hrr : r'' ≠ r' := fun he => hqq (hcore.chld_inj (he ▸ hq') hc)
    rw [hrt, Function.update_of_ne hrr] at hz
    exact h.only q' r'' hq' hz

/-- a new process is in another record and has another pid -/
theorem captured (h : Own os p r z s) (hcore : Core s) (hq : q ∈ s.list2Start) (hr : r' ∈ s.lists .pool)
    (argv : List (Option String)) {pid : Pid} (hf : E.fork s.env = (some pid, e)) (F : List Assert) :
    Own os p r z { s.captured q r' argv pid e with failed := F } := by
  have hne : r ≠ r' := fun he => hcore.chld_not_pool h.chld (he ▸ hr)
  have hpq : p ≠ q := by
    rintro rfl
    have := hcore.link p hq
    rw [h.chld] at this
    cases this
  obtain ⟨hnew, hu, -⟩ := os.fork hf
  refine ⟨h.pos.captured q r' argv pid e, ?_, ?_, ?_, ?_⟩
  · exact (Function.update_of_ne hpq ..).trans h.chld
  · simpa [St.captured, hne] using h.pid
  · show z ∈ os.unreaped e
    rw [hu]
    exact Set.mem_insert_of_mem _ h.unreaped
  · intro q' r'' hq' hz
    simp only [St.captured] at hq' hz
    by_cases hrr : r'' = r'
    · subst hrr
      rw [Function.update_self] at hz
      have hzp : (pid : ℤ) = z := hz
      rw [hzp] at hnew
      exact absurd h.unreaped hnew
    · have hqq : q' ≠ q := by
        rintro rfl
        rw [Function.update_self] at hq'
        exact hrr (Option.some.inj hq').symm
      rw [Function.update_of_ne hqq] at hq'
      rw [Function.update_of_ne hrr] at hz
      exact h.only q' r'' hq' hz

end Own

section Moves

variable {V : ETinDev → Prop} {os : Os E} {p : MngId} {r : RecId} {z : ℤ}

/-- as long as no wait returns it, a child stays with its manager -/
theorem runtime_own (hcore : Core s) (hm : Runtime E V s t) (h : Own os p r z s)
    (hwait : ¬ Since s.trace (Waited z) t.trace) : Own os p r z t := by
  have hne : ∀ {arg ret : ℤ}, .waitpid arg ret :: s.trace <:+ t.trace → ret ≠ z := wait_ret_ne hwait
  rcases hm with hm | hm
  · cases hm with
    | outside m =>
      refine h.congr rfl (.of_eq rfl) ?_
      rw [(os.outside m s.env).1]
      exact h.unreaped
    | timerOff | filter | goneKeep | errPath => exact h.congr rfl (.of_eq rfl) h.unreaped
    | noStart e F he =>
      refine h.congr rfl (.of_eq rfl) ?_
      rcases he with rfl | hf
      · exact h.unreaped
      · show z ∈ os.unreaped e
        rw [(os.forkFail hf).1]
        exact h.unreaped
    | capture q r' name pid e F hq hr _ hf => exact h.captured hcore hq hr _ hf F
    | waitFail q r' w e F hc hw =>
      exact h.congr rfl (.of_eq rfl) (h.wait hc hw (hne List.suffix_rfl))
    | stopStat i r' w e F hc hw hok =>
      have hw' := hne List.suffix_rfl
      exact h.released hcore hc (h.ended_ne hc hw hok hw') rfl rfl (h.wait hc hw hw')
    | stopOff i r' w e ret e' F hc hw hok hi =>
      have hw' := hne (List.suffix_cons ..)
      exact h.released hcore hc (h.ended_ne hc hw hok hw') rfl rfl (Own.ioctl (h.wait hc hw hw') hi)
    | stopLost i r' w e ret e' ret' e'' F hc hw hok hi _ _ hi' =>
      have hw' := hne ⟨[_, _], rfl⟩
      exact h.released hcore hc (h.ended_ne hc hw hok hw') rfl rfl (Own.ioctl (Own.ioctl (h.wait hc hw hw') hi) hi')
    | stopAgain i r' w e ret e' ret' e'' F hc hw hok hi _ _ hi' =>
      have hw' := hne ⟨[_, _], rfl⟩
      exact h.released hcore hc (h.ended_ne hc hw hok hw') rfl rfl (Own.ioctl (Own.ioctl (h.wait hc hw hw') hi) hi')
    | kill r' k e F _ _ hk =>
      refine h.congr rfl (kill_pids s r' e) ?_
      have hu := (os.kill (s.rt r').pid .sigkill s.env).1
      rw [hk] at hu
      exact hu.symm ▸ h.unreaped
    | counts r' x y F => exact h.congr rfl (setRt_pids s r' x y) h.unreaped
    | goneTerm i r' k e F _ _ _ hk =>
      refine h.congr rfl (goneTerm_pids s i r' e) ?_
      have hu := (os.kill (s.rt r').pid .sigterm s.env).1
      rw [hk] at hu
      exact hu.symm ▸ h.unreaped
    | goneWait i ret e _ _ hi => exact h.congr rfl (.of_eq rfl) (Own.ioctl h.unreaped hi)
    | come i new ret e F _ _ _ _ hi => exact h.congr rfl (.of_eq rfl) (Own.ioctl h.unreaped hi)
  · cases hm with
    | reap w e hw =>
      have hw' : w.pid ≠ z := hne List.suffix_rfl
      refine h.congr rfl (.of_eq rfl) ?_
      rcases os.waitAny hw with ⟨-, -, hu, -⟩ | ⟨-, -, hu⟩
      · show z ∈ os.unreaped e
        rw [hu]
        exact ⟨h.unreaped, fun hz => hw' (Set.mem_singleton_iff.1 hz).symm⟩
      · show z ∈ os.unreaped e
        rw [hu]
        exact h.unreaped

/-- a child whose card is gone does not get it back -/
theorem runtime_gone (hm : Runtime E V s t) (h : Own os p r z s) (hg : ¬ Wanted s p) : ¬ Wanted t p := by
  obtain ⟨i, rfl⟩ : ∃ i, p = .dyn i := by
    cases p with
    | stat i => exact absurd trivial hg
    | dyn i => exact ⟨i, rfl⟩
  have hcard : (s.dyn i).cardType = etindevNull := not_not.1 hg
  refine not_not.2 ?_
  have hset : ∀ j (d : DynamicPrcMngInfo), (i = j → d.cardType = etindevNull) →
      ((s.setDyn j d).dyn i).cardType = etindevNull := by
    intro j d hd
    by_cases hij : i = j
    · subst hij
      simpa [St.setDyn] using hd rfl
    · simpa [St.setDyn, hij] using hcard
  rcases hm with hm | hm
  · cases hm with
    | outside | timerOff | noStart | capture | waitFail | stopStat | stopOff | stopLost | stopAgain | kill | counts
    | errPath => exact hcard
    | filter j new cnt => exact hset j _ fun hij => hij ▸ hcard
    | goneTerm j | goneKeep j | goneWait j => exact hset j _ fun _ => rfl
    | come j new ret e F _ _ _ hc =>
      refine hset j _ fun hij => ?_
      subst hij
      rw [h.chld] at hc
      cases hc
  · cases hm with
    | reap => exact hcard

/-- **What a callback can do to a child.** If it is not reaped and not killed, it stays in `s_listNormal` without a
signal, or its card goes. -/
theorem runtime_spared (hcore : Core s) (hm : Runtime E V s t) (h : Own os p r z s) (hr : r ∈ s.lists .normal)
    (hwait : ¬ Since s.trace (Waited z) t.trace) (hkill : ¬ Since s.writes (Killed r) t.writes) :
    (r ∈ t.lists .normal ∧ ¬ Since s.trace (SentTo z) t.trace) ∨ ¬ Wanted t p := by
  have hne : ∀ {arg ret : ℤ}, .waitpid arg ret :: s.trace <:+ t.trace → ret ≠ z := wait_ret_ne hwait
  have hstay : ∀ l {r'}, r' ≠ r → r ∈ s.lists.accept l r' .normal := fun l r' hrr =>
    Lists.mem_accept.2 (Or.inl ⟨hr, hrr.symm⟩)
  have h0 : ¬ Since s.trace (SentTo z) s.trace := Since.not_refl
  have h1 : ∀ {c : Call ε}, ¬ SentTo z c → ¬ Since s.trace (SentTo z) (c :: s.trace) := fun hc =>
    Since.not_cons h0 List.suffix_rfl hc
  have h2 : ∀ {c c' : Call ε}, ¬ SentTo z c → ¬ SentTo z c' → ¬ Since s.trace (SentTo z) (c :: c' :: s.trace) :=
    fun hc hc' => Since.not_cons (h1 hc') (List.suffix_cons ..) hc
  rcases hm with hm | hm
  · cases hm with
    | outside | timerOff | noStart | counts | filter | goneKeep | errPath => exact Or.inl ⟨hr, h0⟩
    | capture q r' name pid e F _ hr' =>
      have hrr : r' ≠ r := by
        rintro rfl
        cases hcore.wf.disj _ _ r' hr hr'
      exact Or.inl ⟨hstay .normal hrr, h1 id⟩
    | waitFail => exact Or.inl ⟨hr, h1 id⟩
    | stopStat i r' w e F hc hw hok =>
      exact Or.inl ⟨hstay .pool (h.ended_ne hc hw hok (hne List.suffix_rfl)), h1 id⟩
    | stopOff i r' w e ret e' F hc hw hok =>
      exact Or.inl ⟨hstay .pool (h.ended_ne hc hw hok (hne (List.suffix_cons ..))), h2 id id⟩
    | stopLost i r' w e ret e' ret' e'' F hc hw hok =>
      exact Or.inl ⟨hstay .pool (h.ended_ne hc hw hok (hne ⟨[_, _], rfl⟩)),
        Since.not_cons (h2 id id) ⟨[_, _], rfl⟩ id⟩
    | stopAgain i r' w e ret e' ret' e'' F hc hw hok =>
      exact Or.inl ⟨hstay .pool (h.ended_ne hc hw hok (hne ⟨[_, _], rfl⟩)),
        Since.not_cons (h2 id id) ⟨[_, _], rfl⟩ id⟩
    | kill r' k e F hr' =>
      have hrr : r' ≠ r := by
        rintro rfl
        exact hkill (Since.cons (a := (r', _, .killing)) (P := Killed r') ⟨rfl, rfl⟩ List.suffix_rfl)
      obtain ⟨q, -, hc⟩ : ∃ q, (s.rt r').pParent = some q ∧ s.chld q = some r' := by
        rcases hr' with hr' | hr'
        · exact hcore.parent_of_mem hr' (by simp)
        · exact hcore.parent_of_mem hr' (by simp)
      exact Or.inl ⟨hstay .killing hrr, h1 fun hz => hrr (h.only q r' hc hz)⟩
    | goneTerm i r' k e F _ hc =>
      by_cases hrr : r' = r
      · subst hrr
        have hp := hcore.chld_inj h.chld hc
        subst hp
        exact Or.inr (not_not.2 (by simp [St.moved, St.signalled, St.cardOff, St.setDyn]))
      · exact Or.inl ⟨hstay .exiting hrr, h1 fun hz => hrr (h.only _ r' hc hz)⟩
    | goneWait | come => exact Or.inl ⟨hr, h1 id⟩
  · cases hm with
    | reap => exact Or.inl ⟨hr, h1 id⟩

end Moves

/-! ## Who is killed -/

theorem sKill_cases {r : RecId} (h : RtPrcInfo.sKill E r s = .ok t) :
    t = s ∨ ∃ e F, t = { (s.signalled r .sigkill .killing e).moved .killing .kill r with failed := F } := by
  unfold RtPrcInfo.sKill RtPrcInfo.signalKill at h
  split_ifs at h
  · cases h
    exact Or.inl rfl
  · rcases signal_cases (E := E) .signalKillState .sigkill .killing r s (Or.inl rfl) with ⟨-, hs⟩ | ⟨-, F, -, -, -, hs⟩
    · rw [hs] at h
      cases h
    · rw [hs, ok_bind, moveTo_eq] at h
      cases h
      exact Or.inr ⟨_, F, rfl⟩

/-- a live check does not kill a process that passes it -/
theorem sCheckLiveState_spares (hcore : Core s) {r : RecId}
    (hlive : RtPrcInfo.isLive (s.rt r) RtPrcInfo.diffSpvHello = true) (ht : RtPrcInfo.sCheckLiveState E s = .ok t) :
    ¬ Since s.writes (Killed r) t.writes := by
  rw [sCheckLiveState_eq hcore.wf] at ht
  refine (foldlM_done (I := fun _ u => RtPrcInfo.isLive (u.rt r) RtPrcInfo.diffSpvHello = true ∧
    s.writes <:+ u.writes ∧ ¬ Since s.writes (Killed r) u.writes) ?_ ⟨hlive, List.suffix_rfl, Since.not_refl⟩ ht).2.2
  intro _ r' _ u v _ hu hv
  obtain ⟨hul, hsuf, hno⟩ := hu
  unfold RtPrcInfo.checkLive at hv
  split_ifs at hv with hlive'
  · cases hv
    refine ⟨?_, hsuf, hno⟩
    by_cases hrr : r = r'
    · subst hrr
      simp [St.clrTimes, St.setRt, RtPrcInfo.isLive, RtPrcInfo.diffSpvHello]
    · simpa [St.clrTimes, St.setRt, hrr] using hul
  · have hrr : r ≠ r' := fun he => hlive' (he ▸ hul)
    rcases sKill_cases hv with rfl | ⟨e, F, rfl⟩
    · exact ⟨hul, hsuf, hno⟩
    · refine ⟨?_, hsuf.trans (List.suffix_cons ..), Since.not_cons hno hsuf fun hk => hrr hk.1.symm⟩
      simpa [St.moved, St.signalled, hrr] using hul

/-- a tick of the term timer kills a process that was told to exit -/
theorem sCheckTermTimeout_spares (hcore : Core s) {r : RecId} (hr : r ∈ s.lists .normal)
    (ht : RtPrcInfo.sCheckTermTimeout E s = .ok t) : ¬ Since s.writes (Killed r) t.writes := by
  unfold RtPrcInfo.sCheckTermTimeout at ht
  obtain ⟨u, hu, ht⟩ := bind_eq_ok ht
  have hwrites : t.writes = u.writes := by
    cases ht
    split_ifs <;> rfl
  rw [hwrites]
  cases hh : (s.lists .exiting).head? with
  | none =>
    rw [hh] at hu
    cases hu
    exact Since.not_refl
  | some r' =>
    rw [hh] at hu
    rcases sKill_cases hu with rfl | ⟨e, F, rfl⟩
    · exact Since.not_refl
    · refine Since.not_cons Since.not_refl List.suffix_rfl fun hk => ?_
      have hrr : r' = r := hk.1
      subst hrr
      cases hcore.wf.disj _ _ r' hr (List.mem_of_mem_head? hh)

/-- if the event is a live check, record `r` passes it -/
def Answers (r : RecId) (s : St ε) : Event μ → Prop
  | .sCheckLiveState => RtPrcInfo.isLive (s.rt r) RtPrcInfo.diffSpvHello = true
  | _ => True

instance (r : RecId) (s : St ε) : (e : Event μ) → Decidable (Answers r s e)
  | .sCheckLiveState => inferInstanceAs (Decidable (_ = true))
  | .sCheckNeedStart | .sHello4Live | .sUpdateLiveState _ | .sCheckTermTimeout | .sCheckKillTimeout | .sBuryChld _
  | .handleNewType .. | .sCheckDevChange .. | .sHandleCardChange _ | .outside _ | .term4Stop _ | .kill4Stop _ | .stop _
  | .processStop => isTrue trivial

theorem step_spares (hcore : Core s) {r : RecId} (hr : r ∈ s.lists .normal) {e : Event μ} (he : e.runtime = true)
    (ha : Answers r s e) (ht : step E s e = .ok t) : ¬ Since s.writes (Killed r) t.writes := by
  cases hk : e.kills with
  | true =>
    cases e with
    | sCheckLiveState => exact sCheckLiveState_spares hcore ha ht
    | sCheckTermTimeout => exact sCheckTermTimeout_spares hcore hr ht
    | _ => cases hk
  | false =>
    have hw := step_writes (E := E) he hk s
    rw [ht] at hw
    exact not_since_of_written hw fun w hkill => decide_eq_true hkill.2

/-! ## Left alone -/

/-- manager `p` has child `z`, which is not to end -/
structure Kept (os : Os E) (p : MngId) (r : RecId) (z : ℤ) (s : St ε) : Prop where
  core : Core s
  own : Own os p r z s
  mem : r ∈ s.lists .normal

/-- where a chain of moves from `s` took the child: it is spared or its card is gone, if it was neither reaped nor
killed -/
structure SparedSince (os : Os E) (p : MngId) (r : RecId) (z : ℤ) (s t : St ε) : Prop where
  core : Core t
  trace : s.trace <:+ t.trace
  writes : s.writes <:+ t.writes
  spared : ¬ Since s.trace (Waited z) t.trace → ¬ Since s.writes (Killed r) t.writes →
    Own os p r z t ∧ ((r ∈ t.lists .normal ∧ ¬ Since s.trace (SentTo z) t.trace) ∨ ¬ Wanted t p)

theorem SparedSince.move {V : ETinDev → Prop} {os : Os E} {p : MngId} {r : RecId} {z : ℤ}
    (h : SparedSince os p r z s t) (hm : Runtime E V t u) : SparedSince os p r z s u := by
  have htrace : t.trace <:+ u.trace := hm.elim move_trace move_trace
  have hwrites : t.writes <:+ u.writes := hm.elim move_writes move_writes
  refine ⟨runtime_core h.core (.single hm), h.trace.trans htrace, h.writes.trans hwrites, ?_⟩
  intro hwait hkill
  have hwait' : ¬ Since t.trace (Waited z) u.trace := fun hs => hwait (hs.weaken h.trace)
  have hkill' : ¬ Since t.writes (Killed r) u.writes := fun hs => hkill (hs.weaken h.writes)
  obtain ⟨hown, hsp⟩ := h.spared (fun hs => hwait (hs.mono htrace)) fun hs => hkill (hs.mono hwrites)
  refine ⟨runtime_own h.core hm hown hwait', ?_⟩
  rcases hsp with ⟨hmem, hsent⟩ | hgone
  · rcases runtime_spared h.core hm hown hmem hwait' hkill' with ⟨hmem', hsent'⟩ | hgone
    · exact Or.inl ⟨hmem', fun hs => (hs.split h.trace htrace).elim hsent hsent'⟩
    · exact Or.inr hgone
  · exact Or.inr (runtime_gone hm hown hgone)

theorem step_kept {os : Os E} {p : MngId} {r : RecId} {z : ℤ} (h : Kept os p r z s) {e : Event μ}
    (he : e.runtime = true) (ha : Answers r s e) (ht : step E s e = .ok t)
    (hwait : ¬ Since s.trace (Waited z) t.trace) (hcard : Wanted t p) :
    Kept os p r z t ∧ ¬ Since s.trace (SentTo z) t.trace := by
  have hkill := step_spares h.core h.mem he ha ht
  have hout := step_runtime (E := E) (V := AnyType) (fun _ _ => trivial) h.core he (observes_any e)
  rw [ht] at hout
  have hs : SparedSince os p r z s s :=
    ⟨h.core, List.suffix_rfl, List.suffix_rfl, fun _ _ => ⟨h.own, Or.inl ⟨h.mem, Since.not_refl⟩⟩⟩
  have hend : SparedSince os p r z s t := chain_inv (fun _ _ hm hi => hi.move hm) hout hs
  obtain ⟨hown, hsp⟩ := hend.spared hwait hkill
  obtain ⟨hmem, hsent⟩ := hsp.resolve_right (not_not.2 hcard)
  exact ⟨⟨hend.core, hown, hmem⟩, hsent⟩

theorem run_one (s : St ε) (e : Event μ) : run E s [e] = step E s e := by
  unfold run
  rw [runFrom_cons]
  cases step E s e <;> rfl

theorem run_trace {es : List (Event μ)} (hrun : run E s es = .ok t) (hes : ∀ e ∈ es, e.runtime = true) (h : Core s) :
    Core t ∧ s.trace <:+ t.trace :=
  run_runtime_inv (V := AnyType) (I := fun a => s.trace <:+ a.trace) (fun _ _ => trivial)
    (fun _ _ _ hm hx => hx.trans (hm.elim move_trace move_trace)) (fun e he => ⟨hes e he, observes_any e⟩) h
    List.suffix_rfl hrun

theorem run_kept {os : Os E} {p : MngId} {r : RecId} {z : ℤ} {es : List (Event μ)}
    (hes : ∀ e ∈ es, e.runtime = true) (h : Kept os p r z s) (hrun : run E s es = .ok t)
    (hwait : ¬ Since s.trace (Waited z) t.trace)
    (hok : Always (step E) (fun a e => Wanted a p ∧ Answers r a e) s es) (hcard : Wanted t p) :
    Kept os p r z t ∧ ¬ Since s.trace (SentTo z) t.trace := by
  induction es generalizing s with
  | nil =>
    cases hrun
    exact ⟨h, Since.not_refl⟩
  | cons e es ih =>
    have hes' : ∀ e ∈ es, e.runtime = true := fun e he => hes e (List.mem_cons_of_mem _ he)
    unfold run at hrun
    rw [runFrom_cons] at hrun
    obtain ⟨u, hu, hrun⟩ := bind_eq_ok hrun
    obtain ⟨⟨-, ha⟩, hrest⟩ := hok
    rw [hu] at hrest
    obtain ⟨hcu, hsu⟩ := run_trace ((run_one s e).trans hu) (by simpa using hes e List.mem_cons_self) h.core
    obtain ⟨-, hut⟩ := run_trace hrun hes' hcu
    -- the card is there after the event: at the next one, or at the end
    have hcardu : Wanted u p := by
      cases es with
      | nil =>
        cases hrun
        exact hcard
      | cons e' es' => exact hrest.1.1
    obtain ⟨hku, hsent⟩ := step_kept h (hes e List.mem_cons_self) ha hu (fun hs => hwait (hs.mono hut)) hcardu
    obtain ⟨hkt, hsent'⟩ := ih hes' hku hrun (fun hs => hwait (hs.weaken hsu)) hrest
    exact ⟨hkt, fun hs => (hs.split hsu hut).elim hsent hsent'⟩

/-- **A process that does its work is left alone.** In every run of callbacks from a reachable state, a process of
`s_listNormal` that no wait returned, that passes every live check and whose card, if it is for one, stays where it is
is still the child of its manager, in `s_listNormal` and with its pid, and no signal was sent to it. -/
theorem left_alone (os : Os E) {env : ε} (h0 : os.unreaped env = ∅) {es₀ es : List (Event μ)}
    (hr : ReachedFrom E env es₀ s) {p : MngId} {r : RecId} (hp : s.chld p = some r) (hn : r ∈ s.lists .normal)
    (hes : ∀ e ∈ es, e.runtime = true) (hrun : run E s es = .ok t)
    (hwait : ¬ Since s.trace (Waited (s.rt r).pid) t.trace)
    (hok : Always (step E) (fun a e => Wanted a p ∧ Answers r a e) s es) (hcard : Wanted t p) :
    t.chld p = some r ∧ (t.rt r).pid = (s.rt r).pid ∧ r ∈ t.lists .normal ∧
      ¬ Since s.trace (SentTo (s.rt r).pid) t.trace := by
  obtain ⟨hcore, hpid⟩ := hr.pid os h0
  have hown : Own os p r (s.rt r).pid s := by
    refine ⟨hpid.once.pos, hp, rfl, ?_, fun q r' hq hz => ?_⟩
    · rw [← hpid.exact]
      exact ⟨p, r, hp, rfl⟩
    · obtain rfl := hpid.once.inj q p r' r hq hp hz
      rw [hp] at hq
      exact (Option.some.inj hq).symm
  obtain ⟨hkept, hsent⟩ := run_kept hes ⟨hcore, hown, hn⟩ hrun hwait hok hcard
  exact ⟨hkept.own.chld, hkept.own.pid, hkept.mem, hsent⟩

/-- every process has five ticks, one of them answers, and the live check kills the others -/
def oneAnswers : List (Event ℤ) :=
  List.replicate 5 .sHello4Live ++ [.sUpdateLiveState 1, .sCheckLiveState, .sBuryChld 8]

theorem left_alone_answers : ∃ s t, ReachedFrom World.env World.fresh startAll s ∧ run World.env s oneAnswers = .ok t ∧
    t.lists .normal = [0] ∧ ¬ Since s.trace (SentTo 1) t.trace := by
  obtain ⟨s, hs, hf⟩ := exists_reached World.env World.fresh startAll
    (fun s : St World => decide (s.chld (.stat ⟨0, by decide⟩) = some 0 ∧ 0 ∈ s.lists .normal ∧ (s.rt 0).pid = 1) &&
      decide (Always (step World.env) (fun a e => Answers 0 a e) s oneAnswers) &&
      (run World.env s oneAnswers).toOption.any fun t : St World =>
        decide (t.lists .normal = [0]) && decide (∀ c ∈ t.trace, ¬ Waited 1 c)) (by decide +kernel)
  have h0 : World.os.unreaped World.fresh = ∅ := by simp [World.os, World.unreaped, World.fresh]
  cases ht : run World.env s oneAnswers with
  | error x =>
    rw [ht] at hf
    simp [Except.toOption] at hf
  | ok t =>
    rw [ht] at hf
    simp only [Except.toOption, Option.any_some, Bool.and_eq_true, decide_eq_true_eq] at hf
    obtain ⟨⟨⟨hc, hn, hpid⟩, hok⟩, hnormal, hwait⟩ := hf
    refine ⟨s, t, hs, ht, hnormal, ?_⟩
    have hend := left_alone World.os h0 hs hc hn (by decide) ht ?_ (hok.mono fun _ _ ha => ⟨trivial, ha⟩) trivial
    · exact hpid ▸ hend.2.2.2
    · rw [hpid]
      intro h
      obtain ⟨new, hnew, c, hcn, hcw⟩ := h
      exact hwait c (hnew ▸ List.mem_append_left _ hcn) hcw

/-! ## Replaced -/

/-- a process was forked for the record -/
def Forked (w : RecId × PrcRtState × PrcRtState) : Prop := w.2.2 = .normal

/-- without a new process, managers only lose children -/
theorem runtime_unforked {V : ETinDev → Prop} (hcore : Core s) (hm : Runtime E V s t)
    (hw : ¬ Since s.writes Forked t.writes) {q : MngId} {r : RecId} (hq : t.chld q = some r) :
    s.chld q = some r ∧ (t.rt r).pid = (s.rt r).pid := by
  have hkeep : SamePids s t → t.chld = s.chld → s.chld q = some r ∧ (t.rt r).pid = (s.rt r).pid :=
    fun hp hc => ⟨hc ▸ hq, (hp r).1⟩
  have hdrop : ∀ {q' r'}, s.chld q' = some r' → t.chld = Function.update s.chld q' none →
      t.rt = Function.update s.rt r' ⟨.null, -1, 0, 0, none⟩ → s.chld q = some r ∧ (t.rt r).pid = (s.rt r).pid := by
    intro q' r' hc ht hrt
    have hqq : q ≠ q' := by
      rintro rfl
      rw [ht, Function.update_self] at hq
      cases hq
    rw [ht, Function.update_of_ne hqq] at hq
    have hrr : r ≠ r' := fun he => hqq (hcore.chld_inj (he ▸ hq) hc)
    rw [hrt, Function.update_of_ne hrr]
    exact ⟨hq, rfl⟩
  rcases hm with hm | hm
  · cases hm with
    | outside | timerOff | noStart | waitFail | filter | goneKeep | goneWait | come | errPath =>
      exact hkeep (.of_eq rfl) rfl
    | capture p r' name pid e F =>
      exact absurd (Since.cons (a := (r', _, .normal)) (P := Forked) rfl List.suffix_rfl) hw
    | stopStat i r' w e F hc => exact hdrop hc rfl rfl
    | stopOff i r' w e ret e' F hc => exact hdrop hc rfl rfl
    | stopLost i r' w e ret e' ret' e'' F hc => exact hdrop hc rfl rfl
    | stopAgain i r' w e ret e' ret' e'' F hc => exact hdrop hc rfl rfl
    | kill r' k e F => exact hkeep (kill_pids s r' e) rfl
    | counts r' x y F => exact hkeep (setRt_pids s r' x y) rfl
    | goneTerm i r' k e F => exact hkeep (goneTerm_pids s i r' e) rfl
  · cases hm with
    | reap => exact hkeep (.of_eq rfl) rfl

theorem sBuryChld_unforked (hcore : Core s) {n : ℕ} (ht : RtPrcInfo.sBuryChld E n s = .ok t) {q : MngId} {r : RecId}
    (hq : t.chld q = some r) : s.chld q = some r ∧ (t.rt r).pid = (s.rt r).pid := by
  have hout := sBuryChld_outcome (E := E) (V := AnyType) n s hcore
  have hw := sBuryChld_writes (E := E) (P := fun x => decide (x = .normal)) (s := s) (by decide) n rfl
  rw [ht] at hout hw
  have hno : ¬ Since s.writes Forked t.writes :=
    not_since_of_written hw fun w hn => decide_eq_true hn
  obtain ⟨-, -, hend⟩ := chain_inv (I := fun a => Core a ∧ s.writes <:+ a.writes ∧
      (¬ Since s.writes Forked a.writes → ∀ {q r}, a.chld q = some r →
        s.chld q = some r ∧ (a.rt r).pid = (s.rt r).pid))
    (fun a b hm ⟨hc, hwr, hI⟩ => by
      have hwa : a.writes <:+ b.writes := hm.elim move_writes move_writes
      refine ⟨hm.elim (fun hm => move_core hm hc) fun hm => move_core hm hc, hwr.trans hwa, ?_⟩
      intro hn q r hq
      obtain ⟨hqa, hpa⟩ := runtime_unforked hc hm (fun hs => hn (hs.weaken hwr)) hq
      obtain ⟨hqs, hps⟩ := hI (fun hs => hn (hs.mono hwa)) hqa
      exact ⟨hqs, hpa.trans hps⟩) hout ⟨hcore, List.suffix_rfl, fun _ _ _ h => ⟨h, rfl⟩⟩
  exact hend hno hq

/-- a run may go on after a reachable state -/
theorem Reached.append {es es' : List (Event μ)} (hr : Reached E es s) (hrun : run E s es' = .ok t) :
    Reached E (es ++ es') t := by
  obtain ⟨env, timer, needKillPrc, exeName, selfSlot, s₀, hs₀, hrun₀⟩ := hr
  refine ⟨env, timer, needKillPrc, exeName, selfSlot, s₀, hs₀, ?_⟩
  unfold run runFrom at hrun₀ hrun ⊢
  rw [List.foldlM_append, hrun₀]
  exact hrun

/-- a manager that waits is served after as many ticks that fork as there are managers -/
theorem waiting_served {es₀ es : List (Event μ)} (hr : Reached E es₀ s)
    (hes₀ : ∀ e ∈ es₀, e.runtime = true ∧ e.Observes ValidType)
    (hes : ∀ e ∈ es, e.runtime = true ∧ e.Observes ValidType) (hrun : run E s es = .ok t) {p : MngId}
    (hp : p ∈ s.list2Start) (hn : etinSlotMax + maxStaticPrcNum ≤ services (step E) (Starts E) s es) :
    Since s.trace (Served p) t.trace := by
  obtain ⟨hcore, hstart⟩ := hr.starting hes₀
  have hlen : s.list2Start.length ≤ etinSlotMax + maxStaticPrcNum := by
    calc s.list2Start.length ≤ Fintype.card MngId := hcore.nodup.length_le_card
      _ = etinSlotMax + maxStaticPrcNum := by decide
  obtain ⟨-, hend⟩ := starting_turn hcore hstart hes hrun (n := etinSlotMax + maxStaticPrcNum)
    (by rwa [List.take_of_length_le hlen])
  rw [Nat.sub_eq_zero_of_le hn] at hend
  exact hend.resolve_right (by simp)

/-- **A process that has exited is replaced.** Let a process have exited in a reachable state in which `sBuryChld` is
called, and let its card, if it is for one, be there. If no ioctl that puts a card on line again has failed, its manager
waits to be started then; and in every run of callbacks, as many ticks of the start timer at which a process can be
forked as there are managers suffice to fork it again, unless its card goes. -/
theorem replaced (os : Os E) {env : ε} (h0 : os.unreaped env = ∅) {es₀ es : List (Event μ)}
    (hes₀ : ∀ e ∈ es₀, e.runtime = true ∧ e.Observes ValidType) (hr : ReachedFrom E env es₀ s) {p : MngId} {r : RecId}
    (hp : s.chld p = some r) (hexit : (s.rt r).pid ∈ os.exited s.env) (hcard : Wanted s p) {n : ℕ}
    (hbury : step E s (.sBuryChld n) = .ok t) (hok : RestartsOk t.trace)
    (hes : ∀ e ∈ es, e.runtime = true ∧ e.Observes ValidType) (hrun : run E t es = .ok u) :
    p ∈ t.list2Start ∧
    (etinSlotMax + maxStaticPrcNum ≤ services (step E) (Starts E) t es → Since t.trace (Served p) u.trace) := by
  obtain ⟨hcore, hpid⟩ := hr.pid os h0
  have hbury' : RtPrcInfo.sBuryChld E n s = .ok t := hbury
  have hrt : Reached E (es₀ ++ [.sBuryChld n]) t := Reached.append ⟨_, hr⟩ ((run_one s _).trans hbury)
  have hes₁ : ∀ e ∈ es₀ ++ [Event.sBuryChld n], e.runtime = true ∧ e.Observes ValidType := by
    intro e he
    rcases List.mem_append.1 he with he | he
    · exact hes₀ e he
    · rw [List.mem_singleton.1 he]
      exact ⟨rfl, trivial⟩
  -- the record that had the pid is free
  have hnone : t.chld p = none := by
    cases hq : t.chld p with
    | none => rfl
    | some r' =>
      obtain ⟨hqs, hps⟩ := sBuryChld_unforked hcore hbury' hq
      rw [hp] at hqs
      obtain rfl := Option.some.inj hqs
      exact absurd hexit ((sBuryChld_pid n s hcore hpid hbury').2.2 _ ⟨p, r, hq, hps⟩)
  have hdyn : t.dyn = s.dyn := by
    have h := sBuryChld_leaves (E := E) n (s := s) rfl
    rwa [hbury'] at h
  have hwait : p ∈ t.list2Start := by
    refine (hrt.schedule fun e he => (hes₁ e he).1).2.waiting hok p hnone ?_
    cases p with
    | stat i => trivial
    | dyn i =>
      show (t.dyn i).cardType ≠ etindevNull
      rw [hdyn]
      exact hcard
  exact ⟨hwait, fun hn => waiting_served hrt hes₁ hes hrun hwait hn⟩

/-- the process of a card ends, and seven ticks later the card has another one -/
theorem replaced_mio : ∃ s t u, ReachedFrom World.env World.fresh (startAll ++ [.outside 6]) s ∧
    (s.rt 5).pid ∈ World.os.exited s.env ∧ step World.env s (.sBuryChld 8) = .ok t ∧
    run World.env t (List.replicate 7 .sCheckNeedStart) = .ok u ∧ Since t.trace (Served (.dyn 1)) u.trace := by
  obtain ⟨s, hs, hf⟩ := exists_reached World.env World.fresh (startAll ++ [.outside 6])
    (fun s : St World => decide (s.chld (.dyn 1) = some 5 ∧ (s.rt 5).pid = 6 ∧ 6 ∈ s.env.zombies ∧
        (s.dyn 1).cardType ≠ etindevNull) &&
      (step World.env s (.sBuryChld 8)).toOption.any fun t : St World =>
        decide (∀ c ∈ t.trace, RestartOk c) &&
        decide (7 ≤ services (step World.env) (Starts World.env) t (List.replicate 7 .sCheckNeedStart)) &&
        (run World.env t (List.replicate 7 .sCheckNeedStart)).toOption.isSome) (by decide +kernel)
  have h0 : World.os.unreaped World.fresh = ∅ := by simp [World.os, World.unreaped, World.fresh]
  cases ht : step World.env s (.sBuryChld 8) with
  | error x =>
    rw [ht] at hf
    simp [Except.toOption] at hf
  | ok t =>
    rw [ht] at hf
    simp only [Except.toOption, Option.any_some, Bool.and_eq_true, decide_eq_true_eq] at hf
    obtain ⟨⟨hc, hpid, hz, hcard⟩, ⟨hok, hn⟩, hrun⟩ := hf
    cases hu : run World.env t (List.replicate 7 .sCheckNeedStart) with
    | error x =>
      rw [hu] at hrun
      cases hrun
    | ok u =>
      have hexit : (s.rt 5).pid ∈ World.os.exited s.env := by
        rw [hpid]
        exact ⟨by decide, hz⟩
      exact ⟨s, t, u, hs, hexit, ht, hu,
        (replaced World.os h0 (by decide) hs hc hexit hcard ht hok (by decide) hu).2 hn⟩

end LinuxDrv.Pdm
