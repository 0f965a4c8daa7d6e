/-
`rt_prc_info.cpp`: the records of running processes, and the four operations that move them between the lists.

`start`, `stop`, `signalKill` and `signalTerm` are the member functions that talk to the operating system; `sCapture`,
`sRelease`, `sTerm` and `sKill` take a record to `s_listNormal`, `s_listPool`, `s_listExiting` and `s_listKilling`.
Functions that return an error code return it with the state. In `start` the child's side of `fork` is not modelled:
it runs `execvp` and exits, and never returns into this process.
-/
import LinuxDrv.Pdm.State

namespace LinuxDrv.Pdm

open LinuxDrv.Core

variable {ε μ : Type} (E : Env ε μ)

namespace RtPrcInfo

/-! ## Member functions -/

/-- `start`, for a process of manager `p` -/
def start (p : MngId) (r : RecId) (argv : List (Option String)) (s : St ε) : ℤ × St ε :=
  let s := s.chk .startState ((s.rt r).state = .null)
  if s.exeName = none then (-1, s.chk .startExeName False)
  else
    let s := s.chk .startPid ((s.rt r).pid = -1)
    let s := s.chk .startExp ((s.rt r).nExpTimes = 0)
    let s := s.chk .startReal ((s.rt r).nRealTimes = 0)
    match E.fork s.env with
    | (none, e) => (-1, { s with env := e })
    | (some pid, e) =>
      let s := { s with env := e, trace := .fork p argv pid :: s.trace }
      let s := s.setState r .normal
      (0, s.setRt r fun x => { x with pid := pid })

/-- the answers of `waitpid` that `stop` takes for the end of the process -/
def WaitOk (pid : ℤ) (w : WaitRet) : Prop := w.pid = pid ∨ (w.pid = -1 ∧ w.echild = true)

instance (pid : ℤ) (w : WaitRet) : Decidable (WaitOk pid w) := inferInstanceAs (Decidable (_ ∨ _))

/-- `stop` -/
def stop (r : RecId) (s : St ε) : ℤ × St ε :=
  let s := s.chk .stopState ((s.rt r).state = .normal ∨ (s.rt r).state = .exiting ∨ (s.rt r).state = .killing)
  let w := E.waitpid (s.rt r).pid s.env
  let s := { s with env := w.2, trace := .waitpid (s.rt r).pid w.1.pid :: s.trace }
  if ¬ WaitOk (s.rt r).pid w.1 then (-1, s.chk .stopWaitpid False)
  else
    let s := s.setState r .null
    (0, s.setRt r fun x => { x with pid := -1 })

/-- `sendHello` -/
def sendHello (r : RecId) (s : St ε) : St ε :=
  let s := s.chk .sendHelloState ((s.rt r).state = .normal)
  s.setRt r fun x => { x with nExpTimes := x.nExpTimes + 1 }

/-- `updateRealTimes` -/
def updateRealTimes (r : RecId) (s : St ε) : St ε := s.setRt r fun x => { x with nRealTimes := x.nRealTimes + 1 }

/-- `isLive` -/
def isLive (x : RtPrcInfo) (diff : ℤ) : Bool := x.nExpTimes - x.nRealTimes < diff

/-- what `signalKill` and `signalTerm` have in common: `CHECK_ERR` exits if the signal cannot be sent -/
def signal (a : Assert) (sig : Sig) (new : PrcRtState) (r : RecId) (s : St ε) : Except Fault (St ε) :=
  let s := s.chk a ((s.rt r).state = .normal ∨ (s.rt r).state = .exiting)
  let k := E.kill (s.rt r).pid sig s.env
  let s := { s with env := k.2, trace := .kill (s.rt r).pid sig s.env :: s.trace }
  if k.1 < 0 then .error .exit else .ok (s.setState r new)

/-- `signalKill` -/
def signalKill (r : RecId) (s : St ε) : Except Fault (St ε) := signal E .signalKillState .sigkill .killing r s

/-- `signalTerm` -/
def signalTerm (r : RecId) (s : St ε) : Except Fault (St ε) := signal E .signalTermState .sigterm .exiting r s

/-! ## Moves between the lists -/

/-- `sInitPool` -/
def sInitPool (s : St ε) : St ε :=
  (List.finRange (etinSlotMax + maxStaticPrcNum)).foldl (fun s r => { s with lists := s.lists.addTail .pool r }) s

/-- `sCapture`: NULL -> NORMAL -/
def sCapture (p : MngId) (argv : List (Option String)) (s : St ε) : ℤ × St ε :=
  let s := s.chk .capturePool (s.lists .pool ≠ [])
  match (s.lists .pool).head? with
  | none => (-1, s.chk .captureFirst False)
  | some r =>
    let x := start E p r argv s
    if x.1 < 0 then (-1, x.2.chk .captureStart False)
    else
      let s := x.2.buildBdAss p r
      (0, s.accept .normal r)

/-- `sRelease`: * -> NULL -/
def sRelease (r : RecId) (s : St ε) : Except Fault (ℤ × St ε) :=
  let x := stop E r s
  if x.1 < 0 then .ok (x.1, x.2.chk .releaseStop False)
  else
    let s := x.2
    match (s.rt r).pParent with
    | none => .error (.nullParent r)
    | some p =>
      let s := s.destroyBdAss p r
      let s := s.clrTimes r
      .ok (0, s.accept .pool r)

/-- the end of `sTerm` and of `sKill`: the timer is started on an emptiness test made before the record arrives -/
def moveTo (l : ListId) (t : TimerId) (r : RecId) (s : St ε) : St ε :=
  let s := s.clrTimes r
  let s := if s.lists l = [] then s.startTimer t else s
  s.accept l r

/-- `sTerm`: * -> EXITING -/
def sTerm (r : RecId) (s : St ε) : Except Fault (St ε) := do
  let s ← signalTerm E r s
  .ok (moveTo .exiting .term r s)

/-- `sKill`: * -> KILLING, unless the debug build suppressed it -/
def sKill (r : RecId) (s : St ε) : Except Fault (St ε) :=
  if s.needKillPrc = false then .ok s
  else do
    let s ← signalKill E r s
    .ok (moveTo .killing .kill r s)

/-- `sFindObj` -/
def sFindObj (s : St ε) (l : ListId) (pid : ℤ) : Option RecId := (s.lists l).find? fun r => decide ((s.rt r).pid = pid)

end RtPrcInfo

end LinuxDrv.Pdm
