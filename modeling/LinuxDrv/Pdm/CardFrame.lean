/-
What leaves the cards alone: `m_cardType`, `m_cardTypeNew` and `m_cnt4Filter` are written by `handleNewType` only.

One frame lemma a function, without any invariant: starting and stopping a process, moving a record, the traversals and
the burials leave `St.dyn`, and so does every event that observes no card (`step_dyn`).
-/
import LinuxDrv.Pdm.Outcomes

namespace LinuxDrv.Pdm

open LinuxDrv.Core

variable {ε μ : Type} {E : Env ε μ} {d : SlotId → DynamicPrcMngInfo} {s : St ε}

/-- what a function returns, with its error code or without, has `d` for the cards -/
abbrev Leaves (d : SlotId → DynamicPrcMngInfo) (x : Except Fault (St ε)) : Prop := Frame St.dyn d x
abbrev LeavesRet (d : SlotId → DynamicPrcMngInfo) (x : Except Fault (ℤ × St ε)) : Prop := Frame (fun y => y.2.dyn) d x

theorem Leaves.ret {x : Except Fault (St ε)} (h : Leaves d x) (n : ℤ) : LeavesRet d (x >>= fun t => .ok (n, t)) :=
  Frame.bind h fun _ ht => ht

/-! ## Records -/

theorem rtStart_dyn (p : MngId) (r : RecId) (argv : List (Option String)) (s : St ε) :
    (RtPrcInfo.start E p r argv s).2.dyn = s.dyn := by
  rcases rtStart_cases (E := E) p r argv s with ⟨e, F, -, -, heq⟩ | ⟨pid, e, F, -, -, heq⟩
  · rw [heq]
  · rw [heq]

theorem rtStop_dyn (r : RecId) (s : St ε) : (RtPrcInfo.stop E r s).2.dyn = s.dyn := by
  unfold RtPrcInfo.stop
  dsimp only
  split_ifs <;> rfl

theorem sCapture_dyn (p : MngId) (argv : List (Option String)) (s : St ε) :
    (RtPrcInfo.sCapture E p argv s).2.dyn = s.dyn := by
  unfold RtPrcInfo.sCapture
  dsimp only
  rcases ((s.chk .capturePool (s.lists .pool ≠ [])).lists .pool).head? with _ | r
  · rfl
  · have hstart := rtStart_dyn (E := E) p r argv (s.chk .capturePool (s.lists .pool ≠ []))
    dsimp only
    split_ifs <;> exact hstart

theorem signal_leaves (a : Assert) (sig : Sig) (new : PrcRtState) (r : RecId) (hs : s.dyn = d) :
    Leaves d (RtPrcInfo.signal E a sig new r s) := by
  unfold RtPrcInfo.signal
  dsimp only
  split_ifs
  · trivial
  · exact hs

theorem moveTo_dyn (l : ListId) (tm : TimerId) (r : RecId) (s : St ε) : (RtPrcInfo.moveTo l tm r s).dyn = s.dyn := by
  unfold RtPrcInfo.moveTo
  dsimp only
  split_ifs <;> rfl

theorem sTerm_leaves (r : RecId) (hs : s.dyn = d) : Leaves d (RtPrcInfo.sTerm E r s) :=
  (signal_leaves _ _ _ r hs).bind fun t ht => (moveTo_dyn _ _ r t).trans ht

theorem sKill_leaves (r : RecId) (hs : s.dyn = d) : Leaves d (RtPrcInfo.sKill E r s) := by
  unfold RtPrcInfo.sKill
  split_ifs
  · exact hs
  · exact (signal_leaves _ _ _ r hs).bind fun t ht => (moveTo_dyn _ _ r t).trans ht

theorem sRelease_leaves (r : RecId) (hs : s.dyn = d) : LeavesRet d (RtPrcInfo.sRelease E r s) := by
  have hstop := (rtStop_dyn (E := E) r s).trans hs
  unfold RtPrcInfo.sRelease
  dsimp only
  split_ifs
  · exact hstop
  · rcases ((RtPrcInfo.stop E r s).2.rt r).pParent with _ | p
    · trivial
    · exact hstop

/-! ## Managers -/

theorem addIn2Start_leaves (p : MngId) (hs : s.dyn = d) : Leaves d (PrcMngInfo.addIn2Start p s) := by
  unfold PrcMngInfo.addIn2Start
  dsimp only
  split_ifs
  · trivial
  · exact hs
  · exact hs

theorem delFrom2Start_leaves (p : MngId) (hs : s.dyn = d) : Leaves d (PrcMngInfo.delFrom2Start p s) := by
  unfold PrcMngInfo.delFrom2Start
  by_cases hp : p ∉ s.list2Start
  · rw [if_pos hp]
    trivial
  · rw [if_neg hp]
    exact hs

theorem capture_leaves (p : MngId) (name : Option String) (hs : s.dyn = d) :
    LeavesRet d (PrcMngInfo.capture E p name s) := by
  have hcapture := (sCapture_dyn (E := E) p (PrcMngInfo.argv s name p) s).trans hs
  unfold PrcMngInfo.capture
  dsimp only
  split_ifs
  · exact hcapture
  · exact Leaves.ret (delFrom2Start_leaves p hcapture) 0

theorem subStart_leaves (p : MngId) (hs : s.dyn = d) : LeavesRet d (PrcMngInfo.subStart E p s) := by
  unfold PrcMngInfo.subStart
  rcases p with i | i
  · exact capture_leaves _ none hs
  · dsimp only
    split_ifs
    · exact Leaves.ret (delFrom2Start_leaves _ (by exact hs)) 0
    · rcases getCardTypeStr ((s.chk .subStartChld (s.chld (.dyn i) = none)).dyn i).cardType with _ | name
      · exact hs
      · exact capture_leaves _ (some name) hs

theorem start_leaves (p : MngId) (hs : s.dyn = d) : Leaves d (PrcMngInfo.start E p s) := by
  unfold PrcMngInfo.start
  split_ifs
  · exact hs
  · refine (subStart_leaves p hs).bind fun x hx => ?_
    show (if x.1 < 0 then x.2.chk .mngStartSub False else x.2).dyn = d
    split_ifs <;> exact hx

theorem reonline_leaves (i : SlotId) (hs : s.dyn = d) : LeavesRet d (PrcMngInfo.reonline E i s) := by
  unfold PrcMngInfo.reonline
  dsimp only
  split_ifs
  · exact hs
  · exact hs
  · exact hs
  · exact Leaves.ret (addIn2Start_leaves _ (by exact hs)) 0

theorem subStop_leaves (p : MngId) (hs : s.dyn = d) : LeavesRet d (PrcMngInfo.subStop E p s) := by
  unfold PrcMngInfo.subStop
  dsimp only
  rcases (s.chk .subStopChld (s.chld p ≠ none)).chld p with _ | r
  · trivial
  · refine (sRelease_leaves r (by exact hs)).bind fun x hx => ?_
    by_cases hret : x.1 < 0
    · rw [if_pos hret]
      exact hx
    · rw [if_neg hret]
      rcases p with i | i
      · exact Leaves.ret (addIn2Start_leaves _ hx) 0
      · exact reonline_leaves i hx

theorem stop_leaves (p : MngId) (hs : s.dyn = d) : Leaves d (PrcMngInfo.stop E p s) := by
  unfold PrcMngInfo.stop
  split_ifs
  · exact hs
  · refine (subStop_leaves p hs).bind fun x hx => ?_
    show (if x.1 < 0 then x.2.chk .mngStopSub False else x.2).dyn = d
    split_ifs <;> exact hx

theorem term4Stop_leaves (p : MngId) (hs : s.dyn = d) : Leaves d (PrcMngInfo.term4Stop E p s) := by
  unfold PrcMngInfo.term4Stop
  rcases s.chld p with _ | r
  · exact hs
  · exact signal_leaves _ _ _ r hs

theorem kill4Stop_leaves (p : MngId) (hs : s.dyn = d) : Leaves d (PrcMngInfo.kill4Stop E p s) := by
  unfold PrcMngInfo.kill4Stop
  rcases s.chld p with _ | r
  · exact hs
  · exact signal_leaves _ _ _ r hs

/-! ## Callbacks -/

theorem sCheckNeedStart_leaves (hs : s.dyn = d) : Leaves d (PrcMngInfo.sCheckNeedStart E s) := by
  unfold PrcMngInfo.sCheckNeedStart
  refine Frame.bind (f := St.dyn) (d := d) ?_ ?_
  · rcases s.list2Start.head? with _ | p
    · exact hs
    · exact start_leaves p hs
  · intro t ht
    split_ifs <;> exact ht

theorem sUpdateLiveState_dyn (pid : ℤ) (s : St ε) : (RtPrcInfo.sUpdateLiveState pid s).dyn = s.dyn := by
  unfold RtPrcInfo.sUpdateLiveState
  rcases RtPrcInfo.sFindObj s .normal pid with _ | r <;> rfl

theorem listForEachSafe_leaves {body : RecId → St ε → Except Fault (St ε)}
    (hbody : ∀ r t, t.dyn = d → Leaves d (body r t)) (l : ListId) (hs : s.dyn = d) :
    Leaves d (RtPrcInfo.listForEachSafe l body s) := Lists.traverse_frame hbody .stray l hs

theorem sHello4Live_leaves (hs : s.dyn = d) : Leaves d (RtPrcInfo.sHello4Live s) := by
  apply listForEachSafe_leaves _ .normal hs
  exact fun r t ht => ht

theorem sCheckLiveState_leaves (hs : s.dyn = d) : Leaves d (RtPrcInfo.sCheckLiveState E s) := by
  refine listForEachSafe_leaves (fun r t ht => ?_) .normal hs
  unfold RtPrcInfo.checkLive
  split_ifs
  · exact ht
  · exact sKill_leaves r ht

theorem sCheckTermTimeout_leaves (hs : s.dyn = d) : Leaves d (RtPrcInfo.sCheckTermTimeout E s) := by
  unfold RtPrcInfo.sCheckTermTimeout
  refine Frame.bind (f := St.dyn) (d := d) ?_ ?_
  · rcases (s.lists .exiting).head? with _ | r
    · exact hs
    · exact sKill_leaves r hs
  · intro t ht
    split_ifs <;> exact ht

theorem bury_leaves (a : Assert) (r : RecId) (hs : s.dyn = d) : Leaves d (RtPrcInfo.bury E a r s) := by
  unfold RtPrcInfo.bury
  rcases (s.rt r).pParent with _ | p
  · exact hs
  · exact stop_leaves p hs

theorem sCheckKillTimeout_leaves (hs : s.dyn = d) : Leaves d (RtPrcInfo.sCheckKillTimeout E s) := by
  unfold RtPrcInfo.sCheckKillTimeout
  refine Frame.bind (f := St.dyn) (d := d) ?_ ?_
  · rcases (s.lists .killing).head? with _ | r
    · exact hs
    · exact bury_leaves _ r hs
  · intro t ht
    split_ifs <;> exact ht

theorem buryPid_leaves (pid : ℤ) (hs : s.dyn = d) : Leaves d (RtPrcInfo.buryPid E pid s) := by
  unfold RtPrcInfo.buryPid
  rcases RtPrcInfo.findChld s pid with _ | r
  · exact hs
  · exact bury_leaves _ r hs

theorem sBuryChld_leaves (n : ℕ) (hs : s.dyn = d) : Leaves d (RtPrcInfo.sBuryChld E n s) := by
  induction n generalizing s with
  | zero => trivial
  | succ n ih =>
    unfold RtPrcInfo.sBuryChld
    dsimp only
    split_ifs
    · exact hs
    · exact (buryPid_leaves _ (s := (RtPrcInfo.waitAny E s).2) hs).bind fun t ht => ih ht

theorem ioctlInt_leaves (c : IntIoc) (hs : s.dyn = d) : Leaves d (ioctlInt E c s) := by
  unfold ioctlInt
  dsimp only
  split_ifs
  · trivial
  · exact hs

theorem processStop_leaves (hs : s.dyn = d) : Leaves d (processStop E s) := by
  have hsignals : Leaves d (stopSignals E s) := by
    unfold stopSignals
    apply (Frame.foldlM (fun t p ht => term4Stop_leaves p ht) _ hs).bind
    intro t ht
    apply (Frame.foldlM (fun u p hu => kill4Stop_leaves p hu) _ (by exact ht)).bind
    exact fun u hu => hu
  apply hsignals.bind
  intro t ht
  have hall : Leaves d (stopAll E t) := by
    apply (ioctlInt_leaves .stateInt (s := { t with exitFlag := true }) ht).bind
    intro u hu
    apply (ioctlInt_leaves .masterInt hu).bind
    intro v hv
    exact Frame.foldlM (fun w p hw => stop_leaves p hw) _ hv
  exact hall.bind fun u hu => hu

/-- the event hands nothing to `handleNewType` -/
def Event.blind : Event μ → Bool
  | handleNewType .. | sCheckDevChange .. | sHandleCardChange _ => false
  | _ => true

/-- an event that observes no card leaves the cards -/
theorem step_leaves {e : Event μ} (he : e.blind = true) (s : St ε) : Leaves s.dyn (step E s e) := by
  cases e with
  | sCheckNeedStart => exact sCheckNeedStart_leaves rfl
  | sHello4Live => exact sHello4Live_leaves rfl
  | sUpdateLiveState pid => exact sUpdateLiveState_dyn pid s
  | sCheckLiveState => exact sCheckLiveState_leaves rfl
  | sCheckTermTimeout => exact sCheckTermTimeout_leaves rfl
  | sCheckKillTimeout => exact sCheckKillTimeout_leaves rfl
  | sBuryChld n => exact sBuryChld_leaves n rfl
  | outside m => exact rfl
  | term4Stop p => exact term4Stop_leaves p rfl
  | kill4Stop p => exact kill4Stop_leaves p rfl
  | stop p => exact stop_leaves p rfl
  | processStop => exact processStop_leaves rfl
  | handleNewType | sCheckDevChange | sHandleCardChange => cases he

end LinuxDrv.Pdm
