/-
The callbacks of the process manager, `CProcessPdm::Start` and `Stop`, and runs.

`step` is one event: a callback, something that happens outside, or a call of the shutdown path. Callbacks come in any
order, whether or not their timer is running. `sBuryChld` has a bound on the rounds of its `waitpid` loop: a run in
which the loop needs more rounds is not a run with that bound, it is one with a larger bound.
-/
import LinuxDrv.Pdm.PrcMngInfo

namespace LinuxDrv.Pdm

open LinuxDrv.Core

variable {ε μ : Type} (E : Env ε μ)

namespace RtPrcInfo

/-- `DIFF_SPV_HELLO` -/
def diffSpvHello : ℤ := 5

/-! ## Timers and signals -/

def listIds : List ListId := [.pool, .normal, .exiting, .killing]

/-- `listForEachSafe(pObj, l)` -/
def listForEachSafe (l : ListId) (body : RecId → St ε → Except Fault (St ε)) (s : St ε) : Except Fault (St ε) :=
  Lists.traverse listIds St.lists body .stray l s

/-- the body of the loop of `sCheckLiveState` -/
def checkLive (r : RecId) (s : St ε) : Except Fault (St ε) :=
  if isLive (s.rt r) diffSpvHello then .ok (s.clrTimes r) else sKill E r s

/-- `sCheckLiveState` -/
def sCheckLiveState (s : St ε) : Except Fault (St ε) := listForEachSafe .normal (checkLive E) s

/-- `sHello4Live` -/
def sHello4Live (s : St ε) : Except Fault (St ε) := listForEachSafe .normal (fun r s => .ok (sendHello r s)) s

/-- `sUpdateLiveState`, for a hello ack from process `pid` -/
def sUpdateLiveState (pid : ℤ) (s : St ε) : St ε :=
  match sFindObj s .normal pid with
  | none => s
  | some r => updateRealTimes r s

/-- `sCheckTermTimeout` -/
def sCheckTermTimeout (s : St ε) : Except Fault (St ε) := do
  let s ← (match (s.lists .exiting).head? with
    | some r => sKill E r s
    | none => .ok s)
  .ok (if s.lists .exiting = [] then s.stopTimer .term else s)

/-- the record's manager buries it: the end of `sCheckKillTimeout` and of a round of `sBuryChld` -/
def bury (a : Assert) (r : RecId) (s : St ε) : Except Fault (St ε) :=
  match (s.rt r).pParent with
  | some p => PrcMngInfo.stop E p s
  | none => .ok (s.chk a False)

/-- `sCheckKillTimeout` -/
def sCheckKillTimeout (s : St ε) : Except Fault (St ε) := do
  let s ← (match (s.lists .killing).head? with
    | some r => bury E .killTimeoutParent r s
    | none => .ok s)
  .ok (if s.lists .killing = [] then s.stopTimer .kill else s)

/-- the three searches of `sBuryChld` -/
def findChld (s : St ε) (pid : ℤ) : Option RecId :=
  (sFindObj s .killing pid).or ((sFindObj s .exiting pid).or (sFindObj s .normal pid))

/-- `waitpid(-1, &status, WNOHANG)` -/
def waitAny (s : St ε) : ℤ × St ε :=
  let w := E.waitpid (-1) s.env
  (w.1.pid, { s with env := w.2, trace := .waitpid (-1) w.1.pid :: s.trace })

/-- what `sBuryChld` does for a process that `waitpid` returned -/
def buryPid (pid : ℤ) (s : St ε) : Except Fault (St ε) :=
  match findChld s pid with
  | none => .ok s
  | some r => bury E .buryParent r s

/-- `sBuryChld`, in at most `n` calls of `waitpid` -/
def sBuryChld : ℕ → St ε → Except Fault (St ε)
  | 0, _ => .error .stray
  | n + 1, s =>
    let x := waitAny E s
    if x.1 ≤ 0 then .ok x.2
    else do
      let s ← buryPid E x.1 x.2
      sBuryChld n s

end RtPrcInfo

/-! ## Start and stop -/

/-- the managers, in the order of `CStaticPrcMngInfo::sStart` -/
def statics : List MngId := (List.finRange maxStaticPrcNum).map .stat
def dynamics : List MngId := (List.finRange etinSlotMax).map .dyn

/-- the static objects as constructed: every list empty, no association. Timers, the command line, the slot number
and the world outside are whatever they are. -/
def boot (timer : TimerId → Bool) (needKillPrc : Bool) (exeName : Option String) (selfSlot : ℤ) (env : ε) : St ε where
  rt := fun _ => ⟨.null, -1, 0, 0, none⟩
  lists := fun _ => []
  chld := fun _ => none
  dyn := fun _ => ⟨etindevNull, etindevNull, 0⟩
  list2Start := []
  timer := timer
  exitFlag := false
  needKillPrc := needKillPrc
  exeName := exeName
  selfSlot := selfSlot
  env := env
  failed := []
  writes := []
  trace := []

/-- `CProcessPdm::Start` after the timers are made: `CRtPrcInfo::sStart`, `CStaticPrcMngInfo::sStart`,
`CDynamicPrcMngInfo::sStart` -/
def processStart (s : St ε) : Except Fault (St ε) := do
  let s := RtPrcInfo.sInitPool s
  let s ← statics.foldlM (fun s p => PrcMngInfo.addIn2Start p s) s
  .ok { s with exitFlag := false }

/-- an interrupt ioctl of `CDynamicPrcMngInfo::sStop`, which exits if it fails -/
def ioctlInt (c : IntIoc) (s : St ε) : Except Fault (St ε) :=
  let x := E.ioctlInt c s.env
  if x.1 < 0 then .error .exit else .ok { s with env := x.2 }

/-- `sTerm4Stop` and `sKill4Stop` of both kinds of managers, with the sleeps after them -/
def stopSignals (s : St ε) : Except Fault (St ε) := do
  let s ← (dynamics.reverse ++ statics.reverse).foldlM (fun s p => PrcMngInfo.term4Stop E p s) s
  let s := { s with env := E.sleep 2 s.env }
  let s ← (dynamics.reverse ++ statics.reverse).foldlM (fun s p => PrcMngInfo.kill4Stop E p s) s
  .ok { s with env := E.sleep 1 s.env }

/-- `CDynamicPrcMngInfo::sStop`, then `CStaticPrcMngInfo::sStop` -/
def stopAll (s : St ε) : Except Fault (St ε) := do
  let s := { s with exitFlag := true }
  let s ← ioctlInt E .stateInt s
  let s ← ioctlInt E .masterInt s
  (dynamics.reverse ++ statics.reverse).foldlM (fun s p => PrcMngInfo.stop E p s) s

/-- `CProcessPdm::Stop`: after the managers, `CPrcMngInfo::sStop` and `CRtPrcInfo::sStop` stop the timers -/
def processStop (s : St ε) : Except Fault (St ε) := do
  let s ← stopSignals E s
  let s ← stopAll E s
  .ok { s with timer := fun _ => false }

/-! ## Runs -/

inductive Event (μ : Type) where
  | sCheckNeedStart
  | sHello4Live
  | sUpdateLiveState (pid : ℤ)
  | sCheckLiveState
  | sCheckTermTimeout
  | sCheckKillTimeout
  | sBuryChld (n : ℕ)
  | handleNewType (i : SlotId) (newCardType : ETinDev)
  | sCheckDevChange (ret : ℤ) (cardtype : SlotId → ETinDev)
  | sHandleCardChange (c : DevMngDrvData)
  | outside (m : μ)
  | term4Stop (p : MngId)
  | kill4Stop (p : MngId)
  | stop (p : MngId)
  | processStop

/-- the event is a callback or happens outside: it is not a call of the shutdown path -/
def Event.runtime : Event μ → Bool
  | term4Stop _ | kill4Stop _ | stop _ | processStop => false
  | _ => true

def step (s : St ε) : Event μ → Except Fault (St ε)
  | .sCheckNeedStart => PrcMngInfo.sCheckNeedStart E s
  | .sHello4Live => RtPrcInfo.sHello4Live s
  | .sUpdateLiveState pid => .ok (RtPrcInfo.sUpdateLiveState pid s)
  | .sCheckLiveState => RtPrcInfo.sCheckLiveState E s
  | .sCheckTermTimeout => RtPrcInfo.sCheckTermTimeout E s
  | .sCheckKillTimeout => RtPrcInfo.sCheckKillTimeout E s
  | .sBuryChld n => RtPrcInfo.sBuryChld E n s
  | .handleNewType i newCardType => PrcMngInfo.handleNewType E i newCardType s
  | .sCheckDevChange ret cardtype => PrcMngInfo.sCheckDevChange E ret cardtype s
  | .sHandleCardChange c => PrcMngInfo.sHandleCardChange E c s
  | .outside m => .ok { s with env := E.outside m s.env }
  | .term4Stop p => PrcMngInfo.term4Stop E p s
  | .kill4Stop p => PrcMngInfo.kill4Stop E p s
  | .stop p => PrcMngInfo.stop E p s
  | .processStop => processStop E s

/-- the run of the events `es` from a state -/
def run (s : St ε) (es : List (Event μ)) : Except Fault (St ε) := runFrom (step E) s es

/-- `s` is reached from the end of `CProcessPdm::Start`, called in world `env`, by the events `es` -/
def ReachedFrom (env : ε) (es : List (Event μ)) (s : St ε) : Prop :=
  ∃ timer needKillPrc exeName selfSlot s₀,
    processStart (boot timer needKillPrc exeName selfSlot env) = .ok s₀ ∧ run E s₀ es = .ok s

/-- `s` is reached by the events `es` in some world -/
def Reached (es : List (Event μ)) (s : St ε) : Prop := ∃ env, ReachedFrom E env es s

/-! ## A world for examples -/

/-- every fork succeeds, every process has ended when it is waited for, and an ioctl returns `ret` -/
def stillEnv (ret : ℤ) : Env ℕ Unit where
  fork n := (some ⟨n + 1, by omega⟩, n + 1)
  waitpid pid n := (⟨pid, false⟩, n)
  kill _ _ n := (0, n)
  ioctl _ n := (ret, n)
  ioctlInt _ n := (0, n)
  sleep _ n := n
  outside _ n := n

/-- every static manager is started, then a card comes into slot 1 and its manager is started too -/
def startAll : List (Event μ) :=
  List.replicate 5 .sCheckNeedStart ++ List.replicate 4 (.handleNewType 1 etindevMio) ++ [.sCheckNeedStart]

/-- nobody answers a hello, and the live check kills every process -/
def killAll : List (Event μ) := List.replicate 5 .sHello4Live ++ [.sCheckLiveState]

end LinuxDrv.Pdm
