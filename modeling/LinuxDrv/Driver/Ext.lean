/-
`pdm_drv_ext.c`: the tables `s_card_type_info` and `s_slot_info` of the pdm driver, and the functions that card drivers,
the pdm process and interrupts call on them.

A card driver registers two callbacks for its card type; they are called when a card of the type comes on or goes off
line, and for the cards that are on line when the driver is registered or unregistered. Each function runs under the
mutex of the tables, so it is one step here. What a `cb_online` does is an argument of the function that calls it: its
return value, and the slot interrupt it requests, if any.

`DrvSt.calls` is history: no code reads it. It has the callbacks that were called, newest first, each with the table
entry it was called from or is about to be stored in, which is the driver it belongs to.
-/
import LinuxDrv.DrvCmm

namespace LinuxDrv.Driver

/-! ## Tables -/

/-- the address of a function or of an object, other than NULL -/
abbrev Ptr := ℕ

def efault : ℤ := 14
def einval : ℤ := 22
def eexist : ℤ := 17
def enodev : ℤ := 19

/-- `struct card_type_info_t` -/
structure CardTypeInfo where
  cbOnline : Option Ptr
  cbOffline : Option Ptr
deriving DecidableEq

/-- `struct drv_vsn_info_t` -/
structure DrvVsnInfo where
  srcVsn : Option String
  udfVsn : Option String
deriving DecidableEq

/-- `struct slot_info_t`; the two bits are those of `flags` -/
structure SlotInfo where
  typeInfo : Option TypeId
  isr : Option Ptr
  arg : Option Ptr
  workIdx : Bool
  intEnabled : Bool
deriving DecidableEq

/-- a call of a callback of the driver `drv` of card type `t` -/
inductive CbCall where
  | online (t : TypeId) (drv : CardTypeInfo) (slot : SlotId) (ret : ℤ)
  | offline (t : TypeId) (drv : CardTypeInfo) (slot : SlotId)
deriving DecidableEq

structure DrvSt where
  /-- `s_card_type_info` -/
  cardType : TypeId → CardTypeInfo
  /-- `s_drv_vsn_info` -/
  vsn : TypeId → DrvVsnInfo
  /-- `s_slot_info` -/
  slot : SlotId → SlotInfo
  /-- the mask bit of the slot's interrupt in the registers -/
  masked : SlotId → Bool
  calls : List CbCall

/-- what a `cb_online` returns, and the isr and argument it passes to `pdm_request_irq` for its slot -/
structure OnlineRes where
  ret : ℤ
  irq : Option (Ptr × Option Ptr)

/-- `cb_offline` is called through a NULL pointer -/
inductive Fault where
  | nullCall (t : TypeId)
deriving DecidableEq

namespace DrvSt

def setSlot (d : DrvSt) (i : SlotId) (f : SlotInfo → SlotInfo) : DrvSt :=
  { d with slot := Function.update d.slot i (f (d.slot i)) }

def setTypeInfo (d : DrvSt) (i : SlotId) (t : Option TypeId) : DrvSt := d.setSlot i fun x => { x with typeInfo := t }

def call (d : DrvSt) (c : CbCall) : DrvSt := { d with calls := c :: d.calls }

/-- `pdm_ctor_mng_info` -/
def pdmCtorMngInfo (masked : SlotId → Bool) : DrvSt where
  cardType := fun _ => ⟨none, none⟩
  vsn := fun _ => ⟨none, none⟩
  slot := fun _ => ⟨none, none, none, false, false⟩
  masked := masked
  calls := []

end DrvSt

/-! ## Interrupts of a slot -/

/-- the slots with an entry in `s_int_reg_op_func` -/
def hasIntReg (i : SlotId) : Bool := ((i : ℕ) : ℤ) = etinSlotSelf

/-- `pdm_enable_int_reg` and `pdm_disable_int_reg` -/
def setIntReg (i : SlotId) (val : Bool) (d : DrvSt) : DrvSt :=
  if hasIntReg i then { d with masked := Function.update d.masked i val } else d

/-- `pdm_request_irq` -/
def pdmRequestIrq (slot : ℤ) (isr : Option Ptr) (arg : Option Ptr) (d : DrvSt) : ℤ × DrvSt :=
  match checkSlot slot, isr with
  | some i, some f =>
    if (d.slot i).typeInfo = none then (-enodev, d)
    else if (d.slot i).isr ≠ none then (-eexist, d)
    else (0, d.setSlot i fun x => { x with arg := arg, isr := some f })
  | _, _ => (-einval, d)

/-- `pdm_enable_int` -/
def pdmEnableInt (slot : ℤ) (d : DrvSt) : ℤ × DrvSt :=
  match checkSlot slot with
  | none => (-einval, d)
  | some i => (0, setIntReg i false (d.setSlot i fun x => { x with intEnabled := true }))

/-- `pdm_disable_int` -/
def pdmDisableInt (slot : ℤ) (d : DrvSt) : ℤ × DrvSt :=
  match checkSlot slot with
  | none => (-einval, d)
  | some i => (0, setIntReg i true (d.setSlot i fun x => { x with intEnabled := false }))

/-- `pdm_free_irq` -/
def pdmFreeIrq (slot : ℤ) (d : DrvSt) : DrvSt :=
  match checkSlot slot with
  | none => d
  | some i => (pdmDisableInt slot d).2.setSlot i fun x => { x with isr := none, arg := none }

/-! ## Registration of drivers -/

/-- a call of the `cb_online` of `drv` for slot `i` -/
def callOnline (t : TypeId) (drv : CardTypeInfo) (i : SlotId) (res : OnlineRes) (d : DrvSt) : DrvSt :=
  let d := match res.irq with
    | some x => (pdmRequestIrq (i : ℕ) (some x.1) x.2 d).2
    | none => d
  d.call (.online t drv i res.ret)

/-- one round of the loop of `pdm_reg_online_offline_cb` -/
def regSlot (t : TypeId) (drv : CardTypeInfo) (res : SlotId → OnlineRes) (x : ℤ × DrvSt) (i : SlotId) : ℤ × DrvSt :=
  if (x.2.slot i).typeInfo = some t then ((res i).ret, callOnline t drv i (res i) x.2) else x

/-- `pdm_reg_online_offline_cb`; `res` is what `cb_online` does for each slot -/
def pdmRegOnlineOfflineCb (cardType : ℤ) (cbOnline cbOffline : Option Ptr) (vsn : DrvVsnInfo) (res : SlotId → OnlineRes)
    (d : DrvSt) : ℤ × DrvSt :=
  match checkType cardType, cbOnline, cbOffline with
  | some t, some f, some g =>
    if (d.cardType t).cbOnline ≠ none ∨ (d.cardType t).cbOffline ≠ none then (-eexist, d)
    else
      let x := (List.finRange etinSlotMax).foldl (regSlot t ⟨some f, some g⟩ res) (0, d)
      (x.1, { x.2 with
        cardType := Function.update x.2.cardType t ⟨some f, some g⟩
        vsn := Function.update x.2.vsn t vsn })
  | _, _, _ => (-einval, d)

/-- one round of the loop of `pdm_unreg_online_offline_cb`; `drv` is the entry as it was before it was cleared -/
def unregSlot (t : TypeId) (drv : CardTypeInfo) (d : DrvSt) (i : SlotId) : Except Fault DrvSt :=
  if (d.slot i).typeInfo = some t then
    match drv.cbOffline with
    | none => .error (.nullCall t)
    | some _ => .ok (d.call (.offline t drv i))
  else .ok d

/-- `pdm_unreg_online_offline_cb` -/
def pdmUnregOnlineOfflineCb (cardType : ℤ) (d : DrvSt) : Except Fault DrvSt :=
  match checkType cardType with
  | none => .ok d
  | some t =>
    (List.finRange etinSlotMax).foldlM (unregSlot t (d.cardType t)) { d with
      cardType := Function.update d.cardType t ⟨none, none⟩
      vsn := Function.update d.vsn t ⟨none, none⟩ }

/-! ## Cards -/

/-- `pdm_card_online`; `res` is what `cb_online` does if it is called -/
def pdmCardOnline (slot cardType : ℤ) (res : OnlineRes) (d : DrvSt) : ℤ × DrvSt :=
  match checkSlot slot, checkType cardType with
  | some i, some t =>
    if (d.slot i).typeInfo ≠ none then (-eexist, d)
    else
      match (d.cardType t).cbOnline with
      | some _ =>
        let d := callOnline t (d.cardType t) i res d
        if res.ret < 0 then (res.ret, d) else (res.ret, d.setTypeInfo i (some t))
      | none => (0, d.setTypeInfo i (some t))
  | _, _ => (-einval, d)

/-- `pdm_card_offline` -/
def pdmCardOffline (slot : ℤ) (d : DrvSt) : DrvSt :=
  match checkSlot slot with
  | none => d
  | some i =>
    match (d.slot i).typeInfo with
    | none => d
    | some t =>
      let d := (pdmDisableInt slot d).2
      let d := pdmFreeIrq slot d
      let d := match (d.cardType t).cbOffline with
        | some _ => d.call (.offline t (d.cardType t) i)
        | none => d
      d.setTypeInfo i none

/-- `pdm_ioctl_card_on_off_line` (`file_op.c`); `mSlot` is the slot of the device the ioctl came through -/
def pdmIoctlCardOnOffLine (mSlot : ℤ) (arg : DevMngDrvData) (res : OnlineRes) (d : DrvSt) : ℤ × DrvSt :=
  if isSlotErr arg.slotId ∨ arg.slotId = mSlot ∨ (arg.cardType ≠ etindevNull ∧ isCardTypeErr arg.cardType) then
    (-einval, d)
  else if arg.cardType = etindevNull then (0, pdmCardOffline arg.slotId d)
  else pdmCardOnline arg.slotId arg.cardType res d

/-! ## Runs -/

/-- an operation of card drivers and of the pdm process on the tables -/
inductive Op where
  | reg (cardType : ℤ) (cbOnline cbOffline : Option Ptr) (vsn : DrvVsnInfo) (res : SlotId → OnlineRes)
  | unreg (cardType : ℤ)
  | online (slot cardType : ℤ) (res : OnlineRes)
  | offline (slot : ℤ)

def step (d : DrvSt) : Op → Except Fault DrvSt
  | .reg cardType cbOnline cbOffline vsn res => .ok (pdmRegOnlineOfflineCb cardType cbOnline cbOffline vsn res d).2
  | .unreg cardType => pdmUnregOnlineOfflineCb cardType d
  | .online slot cardType res => .ok (pdmCardOnline slot cardType res d).2
  | .offline slot => .ok (pdmCardOffline slot d)

end LinuxDrv.Driver
