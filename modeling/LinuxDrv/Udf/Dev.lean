/-
The device instances of a card driver and the files open on them (`udf_drv.c` and `file_op.c` of the template).

`udf_online` allocates an instance for the card in a slot and adds a character device for it, `udf_offline` frees both.
`udf_open` finds the instance by the device number and stores a pointer to it in the file. `udf_release` follows that
pointer, however many cards came and went in between.

Memory is a map from addresses to instances. What the kernel returns is an argument of the function that asks for it:
an address for `kmalloc`, which is any address that is not in use, so the one of a freed instance can come again. A file
is named by the number of the `udf_open` that opened it, and `m_pData` by the file it was allocated for.

`insts`, `opens`, `gen`, `irqOwner` and `offlines` are history: no code reads them. They number the instances and the
files, and have the file whose `udf_open` made the slot interrupt registration, and how often `udf_offline` ran.
-/
import LinuxDrv.Udf.Module

namespace LinuxDrv.Udf

open LinuxDrv.Core LinuxDrv.Driver

def enxio : ℤ := 6

/-- `udf_drv_t` -/
structure Inst where
  /-- the minor of `m_pDevice` -/
  slot : SlotId
  mPData : Option ℕ
  gen : ℕ
deriving DecidableEq

/-- a file that is open; `slot`, `gen` and `offlines` are those of its `udf_open` -/
structure File where
  privateData : Ptr
  slot : SlotId
  gen : ℕ
  offlines : ℕ
deriving DecidableEq

structure DevSt where
  drv : DrvSt
  /-- `g_udf_dev_set` -/
  devSet : SlotId → Option Ptr
  /-- `g_udf_hw_addr` -/
  hwAddr : SlotId → Option Ptr
  /-- the character devices that are added, by their minor -/
  cdev : SlotId → Option Ptr
  heap : Ptr → Option Inst
  file : ℕ → Option File
  insts : ℕ
  opens : ℕ
  irqOwner : SlotId → Option ℕ
  offlines : SlotId → ℕ

/-- an instance is used that is not allocated -/
inductive DevFault where
  | useAfterFree (p : Ptr)
deriving DecidableEq

/-- what the kernel returns to `udf_online`: the address for `kmalloc`, the result of `cdev_add`, whether
`device_create` returns another pointer than NULL, and the result of `udf_bh_online` -/
structure OnlineEnv where
  malloc : Option Ptr
  cdevAdd : ℤ
  deviceCreate : Bool
  bhOnline : ℤ

/-- the module is loaded and its callbacks are registered, and no card is plugged -/
def DevSt.load (c : Cfg) (masked : SlotId → Bool) : DevSt where
  drv := (pdmRegOnlineOfflineCb c.cardType (some c.udfOnline) (some c.udfOffline) c.vsn (fun _ => ⟨0, none⟩)
    (DrvSt.pdmCtorMngInfo masked)).2
  devSet := fun _ => none
  hwAddr := fun _ => none
  cdev := fun _ => none
  heap := fun _ => none
  file := fun _ => none
  insts := 0
  opens := 0
  irqOwner := fun _ => none
  offlines := fun _ => 0

/-! ## Instances -/

/-- `ukc_malloc`: `kmalloc` may fail, and gives no address that is in use -/
def ukcMalloc (want : Option Ptr) (s : DevSt) : Option Ptr := want.filter fun p => s.heap p = none

/-- `udf_main_exit` -/
def udfMainExit (i : SlotId) (p : Ptr) (s : DevSt) : Except DevFault DevSt :=
  match s.heap p with
  | none => .error (.useAfterFree p)
  | some _ => .ok { s with
      cdev := Function.update s.cdev i (if s.cdev i = some p then none else s.cdev i)
      heap := Function.update s.heap p none }

/-- `udf_main_init` -/
def udfMainInit (i : SlotId) (env : OnlineEnv) (s : DevSt) : Except DevFault (Option Ptr × DevSt) :=
  match ukcMalloc env.malloc s with
  | none => .ok (none, s)
  | some p =>
    let s := { s with heap := Function.update s.heap p (some ⟨i, none, s.insts⟩), insts := s.insts + 1 }
    if env.cdevAdd < 0 then do
      let s ← udfMainExit i p s
      .ok (none, s)
    else
      let s := { s with cdev := Function.update s.cdev i (some p) }
      if env.deviceCreate = false then do
        let s ← udfMainExit i p s
        .ok (none, s)
      else .ok (some p, s)

/-- `udf_online` -/
def udfOnline (slot : ℤ) (cardBaseAddr : Option Ptr) (env : OnlineEnv) (s : DevSt) : Except DevFault (ℤ × DevSt) :=
  match checkSlot slot, cardBaseAddr with
  | some i, some a =>
    if s.hwAddr i ≠ none then .ok (-eexist, s)
    else do
      let (p, s) ← udfMainInit i env { s with hwAddr := Function.update s.hwAddr i (some a) }
      match p with
      | none => .ok (-enomem, { s with hwAddr := Function.update s.hwAddr i none })
      | some p => .ok (env.bhOnline, { s with devSet := Function.update s.devSet i (some p) })
  | _, _ => .ok (-einval, s)

/-- `udf_offline` -/
def udfOffline (slot : ℤ) (s : DevSt) : Except DevFault DevSt :=
  match checkSlot slot with
  | none => .ok s
  | some i => do
    let s := { s with offlines := Function.update s.offlines i (s.offlines i + 1) }
    let s ← match s.devSet i with
      | some p => do
        let s ← udfMainExit i p s
        .ok { s with devSet := Function.update s.devSet i none }
      | none => .ok s
    .ok { s with hwAddr := Function.update s.hwAddr i none }

/-! ## Files -/

/-- `udf_open` of a new file on the device of slot `i`; `drvOpen` says whether `UDF_DRV_OPEN` succeeds -/
def udfOpen (c : Cfg) (i : SlotId) (drvOpen : Bool) (s : DevSt) : Except DevFault (ℤ × DevSt) :=
  match s.cdev i with
  | none => .ok (-enxio, s)
  | some p =>
    match s.heap p with
    | none => .error (.useAfterFree p)
    | some pDrv =>
      if pDrv.mPData ≠ none then .ok (-eexist, s)
      else if drvOpen = false then .ok (-enomem, s)
      else
        let x := pdmRequestIrq (pDrv.slot : ℕ) (some c.udfIsr) (some p) s.drv
        if x.1 < 0 then .ok (x.1, { s with drv := x.2 })
        else .ok (x.1, { s with
          drv := x.2
          heap := Function.update s.heap p (some { pDrv with mPData := some s.opens })
          file := Function.update s.file s.opens (some ⟨p, i, pDrv.gen, s.offlines i⟩)
          opens := s.opens + 1
          irqOwner := Function.update s.irqOwner pDrv.slot (some s.opens) })

/-- `udf_release` of the file of the open number `f`, if it is open -/
def udfRelease (f : ℕ) (s : DevSt) : Except DevFault DevSt :=
  match s.file f with
  | none => .ok s
  | some file =>
    match s.heap file.privateData with
    | none => .error (.useAfterFree file.privateData)
    | some pDrv => .ok { s with
        drv := pdmFreeIrq (pDrv.slot : ℕ) s.drv
        heap := Function.update s.heap file.privateData (some { pDrv with mPData := none })
        file := Function.update s.file f none
        irqOwner := Function.update s.irqOwner pDrv.slot none }

/-! ## Cards -/

/-- `pdm_card_online` calls `udf_online` -/
def onlineCalls (c : Cfg) (slot cardType : ℤ) (d : DrvSt) : Prop :=
  ∃ i ∈ checkSlot slot, ∃ t ∈ checkType cardType,
    (d.slot i).typeInfo = none ∧ (d.cardType t).cbOnline = some c.udfOnline

/-- `pdm_card_offline` calls `udf_offline` -/
def offlineCalls (c : Cfg) (slot : ℤ) (d : DrvSt) : Prop :=
  ∃ i ∈ checkSlot slot, ∃ t ∈ (d.slot i).typeInfo, (d.cardType t).cbOffline = some c.udfOffline

instance (c : Cfg) (slot cardType : ℤ) (d : DrvSt) : Decidable (onlineCalls c slot cardType d) :=
  inferInstanceAs (Decidable (∃ i ∈ checkSlot slot, ∃ t ∈ checkType cardType, _))

instance (c : Cfg) (slot : ℤ) (d : DrvSt) : Decidable (offlineCalls c slot d) :=
  inferInstanceAs (Decidable (∃ i ∈ checkSlot slot, ∃ t ∈ (d.slot i).typeInfo, _))

/-- `pdm_card_online`, with the `udf_online` it calls -/
def cardOnline (c : Cfg) (slot cardType : ℤ) (cardBaseAddr : Option Ptr) (env : OnlineEnv) (s : DevSt) :
    Except DevFault DevSt := do
  let (ret, s) ← if onlineCalls c slot cardType s.drv then udfOnline slot cardBaseAddr env s else .ok (0, s)
  .ok { s with drv := (pdmCardOnline slot cardType ⟨ret, none⟩ s.drv).2 }

/-- the slot interrupt registration that `pdm_card_offline` frees has no owner any more -/
def freedOwner (slot : ℤ) (s : DevSt) : SlotId → Option ℕ := fun i =>
  if checkSlot slot = some i ∧ (s.drv.slot i).typeInfo ≠ none then none else s.irqOwner i

/-- `pdm_card_offline`, with the `udf_offline` it calls -/
def cardOffline (c : Cfg) (slot : ℤ) (s : DevSt) : Except DevFault DevSt := do
  let s' := { s with drv := pdmCardOffline slot s.drv, irqOwner := freedOwner slot s }
  if offlineCalls c slot s.drv then udfOffline slot s' else .ok s'

/-! ## Runs -/

inductive DevOp where
  | cardOnline (slot cardType : ℤ) (cardBaseAddr : Option Ptr) (env : OnlineEnv)
  | cardOffline (slot : ℤ)
  | udfOpen (i : SlotId) (drvOpen : Bool)
  | udfRelease (f : ℕ)

def devStep (c : Cfg) (s : DevSt) : DevOp → Except DevFault DevSt
  | .cardOnline slot cardType cardBaseAddr env => cardOnline c slot cardType cardBaseAddr env s
  | .cardOffline slot => cardOffline c slot s
  | .udfOpen i drvOpen => Prod.snd <$> udfOpen c i drvOpen s
  | .udfRelease f => udfRelease f s

end LinuxDrv.Udf
