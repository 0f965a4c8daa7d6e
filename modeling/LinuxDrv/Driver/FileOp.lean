/-
The file of the pdm driver (`file_op.c`): `pdm_drv_ioctl`, `pdm_drv_poll`, and the lists of `pdm_drv_main_t`.

An ioctl is dispatched by its number in `s_ioctl_fun_set`. The argument of an ioctl points to a structure of the user,
which each of the functions reads, or fills, as its own type.

With `__PDM_TEST_ON_OFF_LINE__`, which `pdm_drv_write` defines, nothing moves a record to `m_hd2Read`. So the list is
empty after `pdm_drv_main_init`, a read finds no record (`pdmDrvRead_empty`), and `pdm_drv_poll` does not say that there
is something to read.
-/
import LinuxDrv.Core.Dispatch
import LinuxDrv.Driver.CardData
import LinuxDrv.Driver.Cmd
import LinuxDrv.Udf.IoctlIf

namespace LinuxDrv.Driver

open LinuxDrv.Core LinuxDrv.Udf

/-! ## pdm_drv_ioctl -/

/-- the functions of `s_ioctl_fun_set` -/
inductive PdmIoctl where
  | enableMasterInt
  | enableStateInt
  | cardOnOffLine
  | getAllCardType
  | getSelfSlotId
deriving DecidableEq

/-- `PDM_IOC_MAGIC`, a 'P' -/
def pdmIocMagic : ℕ := 0x50

def pdmIocEnableMasterInt : BitVec 32 := iow pdmIocMagic 0 4
def pdmIocEnableStateInt : BitVec 32 := iow pdmIocMagic 1 4
def pdmIocCardOnOffLine : BitVec 32 := iow pdmIocMagic 2 8
def pdmIocGetAllCardType : BitVec 32 := ior pdmIocMagic 3 8
def pdmIocGetSelfSlotId : BitVec 32 := ior pdmIocMagic 4 4

/-- `s_ioctl_fun_set` -/
def pdmIoctlFunSet : List (BitVec 32 × PdmIoctl) :=
  [(pdmIocEnableMasterInt, .enableMasterInt), (pdmIocEnableStateInt, .enableStateInt),
    (pdmIocCardOnOffLine, .cardOnOffLine), (pdmIocGetAllCardType, .getAllCardType),
    (pdmIocGetSelfSlotId, .getSelfSlotId)]

/-- what the argument points to, as each of the types of the functions -/
structure PdmArg where
  isEnable : BitVec 32
  card : DevMngDrvData
  cardType : SlotId → ETinDev
  slotId : ℤ

/-- what an ioctl returns, what it leaves in the argument, and the driver after it -/
structure PdmIoctlRes where
  ret : ℤ
  arg : PdmArg
  main : PdmDrvMain

/-- `pdm_ioctl_enable_master_int` and `pdm_ioctl_enable_state_int` have no body -/
def pdmIoctlEnableMasterInt (arg : PdmArg) (s : PdmDrvMain) : PdmIoctlRes := ⟨0, arg, s⟩
def pdmIoctlEnableStateInt (arg : PdmArg) (s : PdmDrvMain) : PdmIoctlRes := ⟨0, arg, s⟩

/-- `pdm_ioctl_get_self_slot_id` -/
def pdmIoctlGetSelfSlotId (arg : PdmArg) (s : PdmDrvMain) : PdmIoctlRes := ⟨0, { arg with slotId := 1 }, s⟩

/-- `func` of a row of `s_ioctl_fun_set`; `res` is what a `cb_online` does -/
def PdmIoctl.func (res : OnlineRes) (arg : PdmArg) (s : PdmDrvMain) : PdmIoctl → PdmIoctlRes
  | enableMasterInt => pdmIoctlEnableMasterInt arg s
  | enableStateInt => pdmIoctlEnableStateInt arg s
  | cardOnOffLine =>
    let x := pdmIoctlCardOnOffLine s.mSlot arg.card res s.drv
    ⟨x.1, arg, { s with drv := x.2 }⟩
  | getAllCardType =>
    let s := pdmIoctlGetAllCardType s
    ⟨0, { arg with cardType := s.cardType }, s⟩
  | getSelfSlotId => pdmIoctlGetSelfSlotId arg s

/-- `pdm_drv_ioctl` -/
def pdmDrvIoctl (res : OnlineRes) (cmd : BitVec 32) (arg : PdmArg) (s : PdmDrvMain) : PdmIoctlRes :=
  match dispatch iocNr pdmIoctlFunSet cmd with
  | none => ⟨-enoioctlcmd, arg, s⟩
  | some f => f.func res arg s

theorem pdmIoctlFunSet_numbered : Numbered iocNr pdmIoctlFunSet := by decide

/-- a request of the table runs its function -/
theorem pdmDrvIoctl_of_mem {res : OnlineRes} {cmd : BitVec 32} {f : PdmIoctl} (h : (cmd, f) ∈ pdmIoctlFunSet)
    (arg : PdmArg) (s : PdmDrvMain) : pdmDrvIoctl res cmd arg s = f.func res arg s := by
  rw [pdmDrvIoctl, (dispatch_eq_some pdmIoctlFunSet_numbered).2 h]

/-! ## pdm_drv_poll -/

def pollin : BitVec 32 := 0x1
def pollout : BitVec 32 := 0x4
def pollrdnorm : BitVec 32 := 0x40
def pollwrnorm : BitVec 32 := 0x100

/-- the lists after `pdm_drv_main_init` -/
def pdmDrvMainLists : Lists CardListId SlotId
  | .hdData => List.finRange etinSlotMax
  | .hd2Read => []

/-- `pdm_drv_poll` -/
def pdmDrvPoll (L : Lists CardListId SlotId) : BitVec 32 :=
  (if L .hd2Read ≠ [] then pollin ||| pollrdnorm else 0) ||| (if L .hdData ≠ [] then pollout ||| pollwrnorm else 0)

/-- the file is readable iff there is a record to read -/
theorem pdmDrvPoll_pollin (L : Lists CardListId SlotId) : pdmDrvPoll L &&& pollin ≠ 0 ↔ L .hd2Read ≠ [] := by
  unfold pdmDrvPoll
  split_ifs with hread hdata hdata
  · exact iff_of_true (by decide) hread
  · exact iff_of_true (by decide) hread
  · exact iff_of_false (by decide) hread
  · exact iff_of_false (by decide) hread

/-- without records to read a read returns 0 and leaves the lists, the buffer and the offset -/
theorem pdmDrvRead_empty (fault : ℕ → Bool) (data : SlotId → DevMngDrvData) (nBytes : ℕ) (pOff : ℤ)
    {L : Lists CardListId SlotId} (h : L .hd2Read = []) :
    pdmDrvRead fault data nBytes pOff L = some ⟨L, [], 0, nBytes, pOff⟩ := by
  unfold pdmDrvRead Lists.traverse
  simp [h, Lists.forEachSafe, Lists.next, Lists.cur]

end LinuxDrv.Driver
