/-
The fast path to a card (`slot_info_fast_path.c`): a file of the pdm driver through which applications read from a card,
set its leds and enable its inventory, by call-backs that the driver of the card registered for its slot.

The table `s_sifp_drv` has an entry for every slot, but only ETIN_SLOT_SELF has a file name, so only its entry can be
filled. Registration replaces the entry as a whole, and so does the end of it. Each function runs under the mutex of the
entry, so it is one step. What a call-back returns is an argument of the function that calls it.
- `sifpTable_reg`, `sifpTable_unreg`: what happens to the entry of a slot.
- `SifpCall.Of`: a call-back is called with the argument that was registered with it; `sifpDrvRead_calls` and
  `sifpDrvIoctl_calls`: the file makes no other calls.
-/
import LinuxDrv.Core.Dispatch
import LinuxDrv.Driver.Ext
import LinuxDrv.Udf.IoctlIf

namespace LinuxDrv.Driver

open LinuxDrv.Core LinuxDrv.Udf

def enosys : ℤ := 38

/-! ## Call-backs -/

/-- `sifp_info_t` -/
structure SifpInfo where
  readCb : Option Ptr
  readArg : Option Ptr
  setLedRedCb : Option Ptr
  setLedYellowCb : Option Ptr
  setLedGreenCb : Option Ptr
  setLedArg : Option Ptr
  enInventoryCb : Option Ptr
  enInventoryArg : Option Ptr
deriving DecidableEq

/-- `s_null_info` -/
def sNullInfo : SifpInfo := ⟨none, none, none, none, none, none, none, none⟩

/-- a call of a call-back -/
inductive SifpCall where
  | read (cb : Ptr) (arg : Option Ptr) (nBytes : ℕ) (pOff : ℤ)
  | setLed (cb : Ptr) (arg : Option Ptr) (setting : ℤ)
  | enInventory (cb : Ptr) (arg : Option Ptr) (enable : ℤ)
deriving DecidableEq

/-- a call of a call-back of `info`, with the argument that goes with it -/
def SifpCall.Of (info : SifpInfo) : SifpCall → Prop
  | .read cb arg _ _ => info.readCb = some cb ∧ info.readArg = arg
  | .setLed cb arg _ => (info.setLedRedCb = some cb ∨ info.setLedYellowCb = some cb ∨ info.setLedGreenCb = some cb) ∧
      info.setLedArg = arg
  | .enInventory cb arg _ => info.enInventoryCb = some cb ∧ info.enInventoryArg = arg

instance (info : SifpInfo) : DecidablePred (SifpCall.Of info)
  | .read .. => inferInstanceAs (Decidable (_ ∧ _))
  | .setLed .. => inferInstanceAs (Decidable (_ ∧ _))
  | .enInventory .. => inferInstanceAs (Decidable (_ ∧ _))

/-- nothing is registered, nothing can be called -/
theorem not_of_sNullInfo (x : SifpCall) : ¬ x.Of sNullInfo := by
  cases x <;> simp [SifpCall.Of, sNullInfo]

/-! ## Registration -/

/-- `s_sifp_dev_file_name` -/
def sSifpDevFileName (i : SlotId) : Option String := if i = 1 then some "tin_sifp_self" else none

/-- `s_is_sifp_slot_err`: the slot, if it passes -/
def checkSifpSlot (slot : ℤ) : Option SlotId := (checkSlot slot).filter fun i => (sSifpDevFileName i).isSome

/-- `slot_info` of the entries of `s_sifp_drv` -/
abbrev SifpTable := SlotId → SifpInfo

/-- `sifp_reg_for_online` -/
def sifpRegForOnline (slot : ℤ) (ds : SifpInfo) (s : SifpTable) : ℤ × SifpTable :=
  match checkSifpSlot slot with
  | none => (-einval, s)
  | some i => (0, Function.update s i ds)

/-- `sifp_unreg_for_offline` -/
def sifpUnregForOffline (slot : ℤ) (s : SifpTable) : SifpTable :=
  match checkSifpSlot slot with
  | none => s
  | some i => Function.update s i sNullInfo

section Registration

variable {slot : ℤ} {i : SlotId} {ds : SifpInfo} {s : SifpTable}

theorem checkSifpSlot_eq (slot : ℤ) : checkSifpSlot slot = if checkSlot slot = some 1 then some 1 else none := by
  unfold checkSifpSlot
  rcases checkSlot slot with _ | i
  · rfl
  · by_cases hi : i = 1
    · subst hi
      rfl
    · simp [sSifpDevFileName, hi]

/-- ETIN_SLOT_SELF gets the call-backs -/
theorem sifpTable_reg (h : checkSlot slot = some 1) : sifpRegForOnline slot ds s = (0, Function.update s 1 ds) := by
  rw [sifpRegForOnline, checkSifpSlot_eq, if_pos h]

/-- the other slots are refused -/
theorem sifpTable_refused (h : checkSlot slot ≠ some 1) : sifpRegForOnline slot ds s = (-einval, s) := by
  rw [sifpRegForOnline, checkSifpSlot_eq, if_neg h]

theorem sifpTable_unreg (slot : ℤ) (s : SifpTable) : sifpUnregForOffline slot s =
    if checkSlot slot = some 1 then Function.update s 1 sNullInfo else s := by
  rw [sifpUnregForOffline, checkSifpSlot_eq]
  split_ifs <;> rfl

end Registration

/-! ## The file -/

/-- a call through a pointer that may be NULL; `ret` is what the call-back returns -/
def callCb (cb : Option Ptr) (call : Ptr → SifpCall) (ret : ℤ) : ℤ × List SifpCall :=
  match cb with
  | some f => (ret, [call f])
  | none => (-enosys, [])

/-- `sifp_drv_read` -/
def sifpDrvRead (info : SifpInfo) (nBytes : ℕ) (pOff ret : ℤ) : ℤ × List SifpCall :=
  callCb info.readCb (fun f => .read f info.readArg nBytes pOff) ret

/-- `sifp_ioctl_led_g_set` -/
def sifpIoctlLedGSet (info : SifpInfo) (op ret : ℤ) : ℤ × List SifpCall :=
  callCb info.setLedGreenCb (fun f => .setLed f info.setLedArg op) ret

/-- `sifp_ioctl_led_r_set` -/
def sifpIoctlLedRSet (info : SifpInfo) (op ret : ℤ) : ℤ × List SifpCall :=
  callCb info.setLedRedCb (fun f => .setLed f info.setLedArg op) ret

/-- `sifp_ioctl_inventory_en` -/
def sifpIoctlInventoryEn (info : SifpInfo) (op ret : ℤ) : ℤ × List SifpCall :=
  callCb info.enInventoryCb (fun f => .enInventory f info.enInventoryArg op) ret

/-- `sifp_ioctl_led_y_set` -/
def sifpIoctlLedYSet (info : SifpInfo) (op ret : ℤ) : ℤ × List SifpCall :=
  callCb info.setLedYellowCb (fun f => .setLed f info.setLedArg op) ret

/-- `TIN_SIFP_IOC_MAGIC`, an 's' -/
def tinSifpIocMagic : ℕ := 0x73

def tinSifpIocLedGSet : BitVec 32 := iow tinSifpIocMagic 0 4
def tinSifpIocLedYSet : BitVec 32 := iow tinSifpIocMagic 1 4
def tinSifpIocLedRSet : BitVec 32 := iow tinSifpIocMagic 2 4
def tinSifpIocInventoryEn : BitVec 32 := iow tinSifpIocMagic 3 4

/-- `s_ioctl_fun_set` -/
def sifpIoctlFunSet : List (BitVec 32 × (SifpInfo → ℤ → ℤ → ℤ × List SifpCall)) :=
  [(tinSifpIocLedGSet, sifpIoctlLedGSet), (tinSifpIocLedYSet, sifpIoctlLedYSet),
    (tinSifpIocLedRSet, sifpIoctlLedRSet), (tinSifpIocInventoryEn, sifpIoctlInventoryEn)]

/-- `sifp_drv_ioctl`; `op` is what the argument points to -/
def sifpDrvIoctl (info : SifpInfo) (cmd : BitVec 32) (op ret : ℤ) : ℤ × List SifpCall :=
  match dispatch iocNr sifpIoctlFunSet cmd with
  | none => (-enoioctlcmd, [])
  | some f => f info op ret

theorem sifpIoctlFunSet_numbered : Numbered iocNr sifpIoctlFunSet := by
  unfold Numbered
  decide

section File

variable {info : SifpInfo} {cmd : BitVec 32} {op ret : ℤ}

theorem callCb_calls {cb : Option Ptr} {call : Ptr → SifpCall} (h : ∀ f, cb = some f → (call f).Of info) :
    ∀ x ∈ (callCb cb call ret).2, x.Of info := by
  rcases cb with _ | f
  · intro x hx
    cases hx
  · intro x hx
    rw [List.mem_singleton.1 hx]
    exact h f rfl

/-- a read calls the call-back for reading or nothing -/
theorem sifpDrvRead_calls (nBytes : ℕ) (pOff : ℤ) : ∀ x ∈ (sifpDrvRead info nBytes pOff ret).2, x.Of info :=
  callCb_calls fun _ hf => ⟨hf, rfl⟩

/-- an ioctl calls a call-back for the leds or for the inventory, or nothing -/
theorem sifpDrvIoctl_calls : ∀ x ∈ (sifpDrvIoctl info cmd op ret).2, x.Of info := by
  unfold sifpDrvIoctl
  rcases hf : dispatch iocNr sifpIoctlFunSet cmd with _ | f
  · intro x hx
    cases hx
  have hmem := (dispatch_eq_some sifpIoctlFunSet_numbered).1 hf
  simp only [sifpIoctlFunSet, List.mem_cons, Prod.mk.injEq, List.not_mem_nil, or_false] at hmem
  rcases hmem with ⟨-, rfl⟩ | ⟨-, rfl⟩ | ⟨-, rfl⟩ | ⟨-, rfl⟩
  · exact callCb_calls fun _ hg => ⟨Or.inr (Or.inr hg), rfl⟩
  · exact callCb_calls fun _ hy => ⟨Or.inr (Or.inl hy), rfl⟩
  · exact callCb_calls fun _ hr => ⟨Or.inl hr, rfl⟩
  · exact callCb_calls fun _ hi => ⟨hi, rfl⟩

end File

end LinuxDrv.Driver
