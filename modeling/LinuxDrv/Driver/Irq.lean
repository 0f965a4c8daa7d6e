/-
The interrupt of a slot (`pdm_drv_ext.c`): the two work items of a slot, `pdm_handle_slot_int` and `slot_int_handler`.

`IntSt` is the tables with the work queue. An interrupt masks the interrupt of its slot and queues one of the slot's two
work items, which runs later, once for each time it was queued; work that is queued already stays queued once. The
interrupt bits of the register and what an isr returns are arguments.

`IntSt.hist` is history: no code reads it. It has what happened to the interrupts, newest first, each time with the
slot's entry of `s_slot_info` at that moment. The events of a function of `pdm_drv_ext.c` are given next to it, in the
order of the code; `lastReq` reads off the history which isr should be registered.
-/
import LinuxDrv.Driver.Callbacks

namespace LinuxDrv.Driver

open LinuxDrv.Core

/-! ## History -/

inductive IrqEv where
  /-- a `pdm_request_irq` succeeded -/
  | request (i : SlotId) (isr : Ptr) (arg : Option Ptr) (info : SlotInfo)
  | free (i : SlotId)
  | offline (i : SlotId)
  /-- the `cb_offline` of a driver is called, while the mask bit of the slot is `masked` -/
  | cbOffline (t : TypeId) (drv : CardTypeInfo) (i : SlotId) (info : SlotInfo) (masked : Bool)
  /-- `slot_int_handler` calls an isr -/
  | isr (i : SlotId) (isr : Ptr) (arg : Option Ptr) (info : SlotInfo)
deriving DecidableEq

/-- the isr and the argument of the last `pdm_request_irq` for slot `i` that succeeded, if since then neither the
interrupt was freed nor a card taken off line -/
def lastReq (i : SlotId) : List IrqEv → Option (Ptr × Option Ptr)
  | [] => none
  | .request j f arg _ :: h => if j = i then some (f, arg) else lastReq i h
  | .free j :: h => if j = i then none else lastReq i h
  | .offline j :: h => if j = i then none else lastReq i h
  | .cbOffline .. :: h => lastReq i h
  | .isr .. :: h => lastReq i h

/-- of `pdm_request_irq` -/
def requestEvents (slot : ℤ) (isr arg : Option Ptr) (d : DrvSt) : List IrqEv :=
  match checkSlot slot, isr with
  | some i, some f => if (pdmRequestIrq slot isr arg d).1 = 0 then [.request i f arg (d.slot i)] else []
  | _, _ => []

/-- of `pdm_free_irq` -/
def freeEvents (slot : ℤ) : List IrqEv :=
  match checkSlot slot with
  | some i => [.free i]
  | none => []

/-- of a `cb_online` -/
def onlineEvents (i : SlotId) (res : OnlineRes) (d : DrvSt) : List IrqEv :=
  match res.irq with
  | some x => requestEvents (i : ℕ) (some x.1) x.2 d
  | none => []

/-- of `pdm_reg_online_offline_cb`: what a `cb_online` does concerns its own slot only -/
def regEvents (cardType : ℤ) (cbOnline cbOffline : Option Ptr) (res : SlotId → OnlineRes) (d : DrvSt) : List IrqEv :=
  match checkType cardType, cbOnline, cbOffline with
  | some t, some _, some _ =>
    if (d.cardType t).cbOnline ≠ none ∨ (d.cardType t).cbOffline ≠ none then []
    else (List.finRange etinSlotMax).flatMap fun i =>
      if (d.slot i).typeInfo = some t then onlineEvents i (res i) d else []
  | _, _, _ => []

/-- of `pdm_unreg_online_offline_cb` -/
def unregEvents (cardType : ℤ) (d : DrvSt) : List IrqEv :=
  match checkType cardType with
  | none => []
  | some t =>
    match (d.cardType t).cbOffline with
    | none => []
    | some _ => ((List.finRange etinSlotMax).filter fun i => decide ((d.slot i).typeInfo = some t)).map fun i =>
      .cbOffline t (d.cardType t) i (d.slot i) (d.masked i)

/-- of `pdm_card_online` -/
def cardOnlineEvents (slot cardType : ℤ) (res : OnlineRes) (d : DrvSt) : List IrqEv :=
  match checkSlot slot, checkType cardType with
  | some i, some t =>
    if (d.slot i).typeInfo ≠ none ∨ (d.cardType t).cbOnline = none then [] else onlineEvents i res d
  | _, _ => []

/-- of `pdm_card_offline` -/
def cardOfflineEvents (slot : ℤ) (d : DrvSt) : List IrqEv :=
  match checkSlot slot with
  | none => []
  | some i =>
    match (d.slot i).typeInfo with
    | none => [.offline i]
    | some t =>
      let d := pdmFreeIrq slot (pdmDisableInt slot d).2
      let cb := match (d.cardType t).cbOffline with
        | some _ => [.cbOffline t (d.cardType t) i (d.slot i) (d.masked i)]
        | none => []
      .free i :: cb ++ [.offline i]

/-! ## Interrupts -/

structure IntSt where
  drv : DrvSt
  /-- `work[0]` and `work[1]` of a slot are in the work queue -/
  pending : SlotId → Bool → Bool
  hist : List IrqEv

/-- `pdm_ctor_mng_info` -/
def IntSt.pdmCtorMngInfo (masked : SlotId → Bool) : IntSt := ⟨DrvSt.pdmCtorMngInfo masked, fun _ _ => false, []⟩

/-- the work item of a slot is in the queue, or not -/
def IntSt.setPending (s : IntSt) (i : SlotId) (idx val : Bool) : IntSt :=
  { s with pending := Function.update s.pending i (Function.update (s.pending i) idx val) }

/-- the slots with an entry in `s_int_reg_bmp` -/
def hasIntBmp (i : SlotId) : Bool := ((i : ℕ) : ℤ) = etinSlotSelf

/-- one round of the loop of `pdm_handle_slot_int` -/
def intSlot (bits : SlotId → Bool) (x : ℤ × IntSt) (i : SlotId) : ℤ × IntSt :=
  if hasIntBmp i && bits i then
    let d := setIntReg i true x.2.drv
    let workIdx := (d.slot i).workIdx
    let s := { x.2 with drv := d.setSlot i fun y => { y with workIdx := !workIdx } }
    (x.1 + 1, s.setPending i workIdx true)
  else x

/-- `pdm_handle_slot_int`; `bits` has the slots whose bit is set in the interrupt register -/
def pdmHandleSlotInt (bits : SlotId → Bool) (s : IntSt) : ℤ × IntSt :=
  (List.finRange etinSlotMax).foldl (intSlot bits) (0, s)

/-- `slot_int_handler`; `ret` is what the isr returns if it is called -/
def slotIntHandler (i : SlotId) (ret : ℤ) (s : IntSt) : IntSt :=
  if (s.drv.slot i).intEnabled then
    match (s.drv.slot i).isr with
    | some f =>
      let s := { s with hist := .isr i f (s.drv.slot i).arg (s.drv.slot i) :: s.hist }
      if 0 < ret then { s with drv := setIntReg i false s.drv } else s
    | none => s
  else s

/-! ## Runs -/

inductive IntOp where
  | table (op : Op)
  | requestIrq (slot : ℤ) (isr arg : Option Ptr)
  | freeIrq (slot : ℤ)
  | enableInt (slot : ℤ)
  | disableInt (slot : ℤ)
  | handleSlotInt (bits : SlotId → Bool)
  | slotIntHandler (i : SlotId) (idx : Bool) (ret : ℤ)

/-- the events of an operation on the tables, in order -/
def IntOp.events (d : DrvSt) : IntOp → List IrqEv
  | table (.reg cardType cbOnline cbOffline _ res) => regEvents cardType cbOnline cbOffline res d
  | table (.unreg cardType) => unregEvents cardType d
  | table (.online slot cardType res) => cardOnlineEvents slot cardType res d
  | table (.offline slot) => cardOfflineEvents slot d
  | requestIrq slot isr arg => requestEvents slot isr arg d
  | freeIrq slot => freeEvents slot
  | _ => []

/-- an operation on the tables left them as `d`, and `evs` happened -/
def IntSt.update (s : IntSt) (d : DrvSt) (evs : List IrqEv) : IntSt :=
  { s with drv := d, hist := evs.reverse ++ s.hist }

/-- one step. A work item runs if it is queued. -/
def intStep (s : IntSt) (op : IntOp) : Except Fault IntSt :=
  let evs := op.events s.drv
  match op with
  | .table op => do
    let d ← step s.drv op
    .ok (s.update d evs)
  | .requestIrq slot isr arg => .ok (s.update (pdmRequestIrq slot isr arg s.drv).2 evs)
  | .freeIrq slot => .ok (s.update (pdmFreeIrq slot s.drv) evs)
  | .enableInt slot => .ok (s.update (pdmEnableInt slot s.drv).2 evs)
  | .disableInt slot => .ok (s.update (pdmDisableInt slot s.drv).2 evs)
  | .handleSlotInt bits => .ok (pdmHandleSlotInt bits s).2
  | .slotIntHandler i idx ret => .ok (if s.pending i idx then slotIntHandler i ret (s.setPending i idx false) else s)

end LinuxDrv.Driver
