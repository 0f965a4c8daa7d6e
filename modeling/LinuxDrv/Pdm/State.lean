/-
The state of the process manager (pdm) and the operating system it calls.

- `RtPrcInfo` is a record of `s_preAllPool`, `DynamicPrcMngInfo` the card filter of a slot's manager. A record is a
  `RecId`, a manager a `MngId` (static or dynamic); the two-sided association of `bd_ass.h` is `RtPrcInfo.pParent` on
  one side and `St.chld` on the other.
- `Env ε μ` is what the manager calls: fork, waitpid, kill, the ioctls of the pdm device, sleep. ε is the state of the
  world outside the process, μ what may happen there between two callbacks. Results that no theorem restricts are
  arbitrary, since the environment is a parameter.
- The last three fields of `St` are history only: no code reads them. `failed` has the assertions that failed (an
  assertion is checked, recorded and passed, as with NDEBUG), `writes` every assignment to a record's state, `trace`
  every call made to the outside, newest first.
- A `Fault` ends the process. `delUnlinked` is the NULL dereference of `CListHeader::del` on a node that is in no list,
  `addLinked` an `addTail` of a node that is in one, which corrupts both lists. `nullParent` and `nullChld` are
  dereferences of a missing association; `stray` is a loop that runs out of its fuel.
-/
import LinuxDrv.DrvCmm
import LinuxDrv.Core.Outcome
import LinuxDrv.Core.Family

namespace LinuxDrv.Pdm

open LinuxDrv.Core

/-! ## Records and managers -/

/-- `MAX_STATIC_PRC_NUM` -/
def maxStaticPrcNum : ℕ := 5

/-- an entry of `s_preAllPool` -/
abbrev RecId := Fin (etinSlotMax + maxStaticPrcNum)

instance : NeZero (etinSlotMax + maxStaticPrcNum) := ⟨by decide⟩

/-- an entry of `s_staticPrcList` or of `s_dynamicPrcList` -/
inductive MngId where
  | stat (i : Fin maxStaticPrcNum)
  | dyn (i : SlotId)
deriving DecidableEq, Fintype

/-- `EPrcRtState_t` -/
inductive PrcRtState where
  | null
  | normal
  | exiting
  | killing
deriving DecidableEq, Repr

/-- `CRtPrcInfo` -/
structure RtPrcInfo where
  state : PrcRtState
  pid : ℤ
  nExpTimes : ℤ
  nRealTimes : ℤ
  pParent : Option MngId
deriving DecidableEq

/-- `CDynamicPrcMngInfo`: the card in the slot, and the filter for a new one -/
structure DynamicPrcMngInfo where
  cardType : ETinDev
  cardTypeNew : ETinDev
  cnt4Filter : ℕ
deriving DecidableEq

/-- `s_listPool`, `s_listNormal`, `s_listExiting`, `s_listKilling` -/
inductive ListId where
  | pool
  | normal
  | exiting
  | killing
deriving DecidableEq

/-- `s_fdTimerStart`, `s_fdTermTimer`, `s_fdKillTimer`: the timers that callbacks start and stop -/
inductive TimerId where
  | start
  | term
  | kill
deriving DecidableEq

/-! ## The world outside -/

/-- a process id `fork` returns to the parent -/
abbrev Pid := {z : ℤ // 0 < z}

/-- what `waitpid` returned, and whether it left `ECHILD` in errno -/
structure WaitRet where
  pid : ℤ
  echild : Bool
deriving DecidableEq

inductive Sig where
  | sigterm
  | sigkill
deriving DecidableEq

/-- the two interrupt ioctls of `CDynamicPrcMngInfo::sStop` -/
inductive IntIoc where
  | stateInt
  | masterInt
deriving DecidableEq

structure Env (ε μ : Type) where
  /-- the parent's side of `fork`: `none` is a failure -/
  fork : ε → Option Pid × ε
  /-- `waitpid(pid, &status, WNOHANG)` -/
  waitpid : ℤ → ε → WaitRet × ε
  kill : ℤ → Sig → ε → ℤ × ε
  /-- `ioctl(s_fdCPLD, PDM_IOC_CARD_ON_OFF_LINE, &arg)` -/
  ioctl : DevMngDrvData → ε → ℤ × ε
  /-- `ioctl(s_fdCPLD, PDM_IOC_ENABLE_..._INT, &arg)` with arg 0 -/
  ioctlInt : IntIoc → ε → ℤ × ε
  sleep : ℕ → ε → ε
  /-- something that happens outside between two callbacks -/
  outside : μ → ε → ε

/-! ## History -/

/-- the assertions of the process manager, by the function that makes them -/
inductive Assert where
  | startState | startExeName | startPid | startExp | startReal
  | stopState | stopWaitpid
  | sendHelloState | signalKillState | signalTermState
  | killTimeoutParent | buryParent
  | capturePool | captureFirst | captureStart | releaseStop
  | attachChld | attachParent | dettachChld | dettachParent
  | mngStartChld | mngStartSub | mngStopSub
  | subStartChld | subStartCard | subStartName | subStartCapture
  | subStopChld | subStopRelease | subStopOffline | subStopOnline
  | handleState | handleNewCard | handleOnline | devChangeType
deriving DecidableEq, Repr

/-- the assertions `assert(0)` on the way out of a call that failed -/
def Assert.errPath : Assert → Bool
  | startExeName | stopWaitpid | captureStart | releaseStop | mngStartSub | mngStopSub | subStartName
  | subStartCapture | subStopRelease | subStopOffline | subStopOnline | handleOnline | devChangeType => true
  | _ => false

/-- where `PDM_IOC_CARD_ON_OFF_LINE` is issued; in `subStop` also whether the manager is to be started again -/
inductive Site where
  | subStop (again : Bool)
  | handleNewType
deriving DecidableEq

/-- a call to the outside, with what it returned and, where it matters, the world it was made in -/
inductive Call (ε : Type) where
  | fork (p : MngId) (argv : List (Option String)) (pid : ℤ)
  | waitpid (arg ret : ℤ)
  | kill (pid : ℤ) (sig : Sig) (world : ε)
  | ioctl (site : Site) (arg : DevMngDrvData) (ret : ℤ) (world : ε)

inductive Fault where
  | exit
  | delUnlinked (p : MngId)
  | addLinked (p : MngId)
  | nullParent (r : RecId)
  | nullChld (p : MngId)
  | stray
deriving DecidableEq

/-! ## State -/

structure St (ε : Type) where
  /-- `s_preAllPool` -/
  rt : RecId → RtPrcInfo
  lists : Lists ListId RecId
  /-- `CBdAssParent::m_pChld` of every manager -/
  chld : MngId → Option RecId
  /-- `s_dynamicPrcList` -/
  dyn : SlotId → DynamicPrcMngInfo
  list2Start : List MngId
  /-- the timer is running -/
  timer : TimerId → Bool
  /-- `CDynamicPrcMngInfo::m_sExitFlag` -/
  exitFlag : Bool
  /-- `CPdmGlobal::s_needKillPrc` -/
  needKillPrc : Bool
  /-- `CPdmGlobal::getExeName()` -/
  exeName : Option String
  /-- `g_slot_vir_2_phy[ETIN_SLOT_SELF]` -/
  selfSlot : ℤ
  env : ε
  failed : List Assert
  writes : List (RecId × PrcRtState × PrcRtState)
  trace : List (Call ε)

namespace St

variable {ε : Type}

/-- `assert(c)` -/
def chk (s : St ε) (a : Assert) (c : Prop) [Decidable c] : St ε :=
  { s with failed := if c then s.failed else a :: s.failed }

/-- an assignment to the fields of record `r` -/
def setRt (s : St ε) (r : RecId) (f : RtPrcInfo → RtPrcInfo) : St ε :=
  { s with rt := Function.update s.rt r (f (s.rt r)) }

/-- `m_state = new` -/
def setState (s : St ε) (r : RecId) (new : PrcRtState) : St ε :=
  { s with
    rt := Function.update s.rt r { s.rt r with state := new }
    writes := (r, (s.rt r).state, new) :: s.writes }

/-- `clrTimes` -/
def clrTimes (s : St ε) (r : RecId) : St ε := s.setRt r fun x => { x with nExpTimes := 0, nRealTimes := 0 }

/-- `CListHead::accept` -/
def accept (s : St ε) (l : ListId) (r : RecId) : St ε := { s with lists := s.lists.accept l r }

def startTimer (s : St ε) (t : TimerId) : St ε := { s with timer := Function.update s.timer t true }
def stopTimer (s : St ε) (t : TimerId) : St ε := { s with timer := Function.update s.timer t false }

/-- the parent's `attach`, then the child's: `buildBdAss` -/
def buildBdAss (s : St ε) (p : MngId) (r : RecId) : St ε :=
  let s := s.chk .attachChld (s.chld p = none)
  let s := { s with chld := Function.update s.chld p (some r) }
  let s := s.chk .attachParent ((s.rt r).pParent = none)
  s.setRt r fun x => { x with pParent := some p }

/-- the parent's `dettach`, then the child's: `destroyBdAss` -/
def destroyBdAss (s : St ε) (p : MngId) (r : RecId) : St ε :=
  let s := s.chk .dettachChld (s.chld p ≠ none)
  let s := { s with chld := Function.update s.chld p none }
  let s := s.chk .dettachParent ((s.rt r).pParent ≠ none)
  s.setRt r fun x => { x with pParent := none }

/-- `haveCardInserted` -/
def haveCardInserted (s : St ε) (i : SlotId) : Bool := (s.dyn i).cardType ≠ etindevNull

/-- `ioctl(s_fdCPLD, PDM_IOC_CARD_ON_OFF_LINE, &arg)` -/
def ioctl {μ : Type} (E : Env ε μ) (site : Site) (arg : DevMngDrvData) (s : St ε) : ℤ × St ε :=
  let x := E.ioctl arg s.env
  (x.1, { s with env := x.2, trace := .ioctl site arg x.1 s.env :: s.trace })

end St

/-- `m_slotID` of a dynamic manager: `s_dynamicPrcList` is in the order of `ETinSlot_t` -/
def slotId (i : SlotId) : ℤ := (i : ℕ)

/-- `m_pBinName` of a static manager -/
def binName : Fin maxStaticPrcNum → String := ![("DE"), "APM", "SYS", "AGENT", "UMI"]

/-- `convDig2Str` -/
def convDig2Str (i : ℤ) : Option String := if i = 0 then some "0" else if i = 1 then some "1" else none

/-- `conv_slot_vir_2_phy`, after `gen_slot_converter(self)` -/
def convSlotVir2Phy (self : ℤ) (i : SlotId) : ℤ := if slotId i = etinSlotSelf then self else 0

end LinuxDrv.Pdm
