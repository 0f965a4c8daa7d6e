/-
Arming the slot interrupt again, in a kernel-mode and in a user-mode driver (`th/udf_dth.c` and `file_op.c` of the
template).

An interrupt masks itself and queues work. In kernel mode the work calls `udf_th_isr`, which runs `udf_int_handler`, and
`slot_int_handler` arms the interrupt again if interrupts were found. In user mode the work calls `udf_bh_isr`, which
finds none, and makes the file readable; the application's `udf_th_read` runs `udf_int_handler`, and then arms the
interrupt by what `udf_read_int_data` returns.

One device is open, on slot i. The results h of `udf_int_handler` and r of `udf_read_int_data` are arguments. `on` is
history: the setting of the application's last `udf_enable_int`.
- `service_armed`: what a service leaves. In kernel mode `BIT_INT_ENABLED` is the setting of the application; in user
  mode nobody looks at it.
- `rearm_iff`: so after every service the interrupt is armed iff h > 0 and the setting is on, iff in user mode r is
  negative exactly when the setting is off, and the interrupt was not armed before the service, or should be after it.
-/
import LinuxDrv.Driver.IrqSafe

namespace LinuxDrv.Udf

open LinuxDrv.Core LinuxDrv.Driver

/-- `DRV_USR_MODE` or not -/
inductive Mode where
  | kernel
  | user
deriving DecidableEq

structure ArmSt where
  int : IntSt
  /-- `BIT_CAN_READ` -/
  canRead : Bool
  on : Bool

/-- the tables are initialised, a card of type `t` is in the slot, and `udf_open` has requested its interrupt -/
def ArmSt.udfOpen (masked : SlotId → Bool) (i : SlotId) (t : TypeId) (isr : Ptr) (arg : Option Ptr) : ArmSt :=
  let d := (DrvSt.pdmCtorMngInfo masked).setTypeInfo i (some t)
  ⟨⟨(pdmRequestIrq (i : ℕ) (some isr) arg d).2, fun _ _ => false, []⟩, false, false⟩

/-- the interrupt of the slot is not masked -/
def Armed (i : SlotId) (s : ArmSt) : Prop := s.int.drv.masked i = false

instance (i : SlotId) (s : ArmSt) : Decidable (Armed i s) := inferInstanceAs (Decidable (_ = _))

/-! ## The functions -/

/-- what `udf_isr` returns: the result of `udf_th_isr` or of `udf_bh_isr` -/
def udfIsr (m : Mode) (h : ℤ) : ℤ :=
  match m with
  | .kernel => h
  | .user => 0

/-- `slot_int_handler` calls `udf_isr` -/
def callsIsr (i : SlotId) (s : IntSt) : Bool := (s.drv.slot i).intEnabled && (s.drv.slot i).isr.isSome

/-- `slot_int_handler` for a work item that is queued; `udf_isr` makes the file readable -/
def slotWork (m : Mode) (i : SlotId) (idx : Bool) (h : ℤ) (s : ArmSt) : ArmSt :=
  { s with
    int := slotIntHandler i (udfIsr m h) (s.int.setPending i idx false)
    canRead := s.canRead || callsIsr i s.int }

/-- `udf_enable_int` -/
def udfEnableInt (i : SlotId) (arg : ℤ) (s : ArmSt) : ArmSt :=
  { s with
    int := { s.int with drv := if arg ≠ 0 then (pdmEnableInt (i : ℕ) s.int.drv).2 else (pdmDisableInt (i : ℕ) s.int.drv).2 }
    on := decide (arg ≠ 0) }

/-- `udf_th_read`, with the `udf_read` of the driver; `udf_bh_read` returns 0 -/
def udfThRead (m : Mode) (i : SlotId) (h r : ℤ) (s : ArmSt) : ℤ × ArmSt :=
  let s := { s with canRead := false }
  match m with
  | .kernel => (r, s)
  | .user =>
    if h ≤ 0 then (h, s)
    else if 0 ≤ r then (r, { s with int := { s.int with drv := (pdmEnableInt (i : ℕ) s.int.drv).2 } })
    else (r, s)

/-! ## Runs -/

inductive ArmOp where
  | slotInt (bits : SlotId → Bool)
  | work (idx : Bool) (h : ℤ)
  | enableInt (arg : ℤ)
  | read (h r : ℤ)

def armNext (m : Mode) (i : SlotId) (s : ArmSt) : ArmOp → ArmSt
  | .slotInt bits => { s with int := (pdmHandleSlotInt bits s.int).2 }
  | .work idx h => if s.int.pending i idx then slotWork m i idx h s else s
  | .enableInt arg => udfEnableInt i arg s
  | .read h r => (udfThRead m i h r s).2

def armStep (m : Mode) (i : SlotId) (s : ArmSt) (op : ArmOp) : Except Fault ArmSt := .ok (armNext m i s op)

/-- the result of `udf_int_handler`, if the step completes the service of an interrupt: the work that calls
`udf_th_isr`, or the first read after work that called `udf_bh_isr` -/
def serviced (m : Mode) (i : SlotId) (s : ArmSt) : ArmOp → Option ℤ
  | .work idx h => if m = .kernel ∧ s.int.pending i idx ∧ callsIsr i s.int then some h else none
  | .read h _ => if m = .user ∧ s.canRead then some h else none
  | _ => none

/-- after a service the interrupt is armed iff interrupts were found and the setting of the application is on -/
def Rearms (m : Mode) (i : SlotId) (s : ArmSt) (op : ArmOp) : Prop :=
  ∀ h ∈ serviced m i s op, Armed i (armNext m i s op) ↔ 0 < h ∧ s.on = true

/-- an interrupt that is armed already when it is serviced has been found again and is not turned off; and in user mode,
if interrupts were found and it is not armed, the result of `udf_read_int_data` is negative exactly when it is turned
off -/
def RearmCond (m : Mode) (i : SlotId) (s : ArmSt) (op : ArmOp) : Prop :=
  ∀ h ∈ serviced m i s op, (Armed i s → 0 < h ∧ s.on = true) ∧
    ∀ r, m = .user → op = .read h r → ¬ Armed i s → 0 < h → (0 ≤ r ↔ s.on = true)

instance (m : Mode) (i : SlotId) (s : ArmSt) (op : ArmOp) : Decidable (Rearms m i s op) :=
  inferInstanceAs (Decidable (∀ h ∈ serviced m i s op, _))

/-! ## What a service leaves -/

structure ArmInv (m : Mode) (i : SlotId) (s : ArmSt) : Prop where
  enabled : m = .kernel → (s.int.drv.slot i).intEnabled = s.on
  pending : hasIntReg i = false → ∀ idx, s.int.pending i idx = false
  canRead : hasIntReg i = false → s.canRead = false

section Service

variable {m : Mode} {i : SlotId} {s : ArmSt}

theorem slotIntHandler_masked {s : IntSt} (hcall : callsIsr i s = true) (ret : ℤ) (hreg : hasIntReg i = true) :
    (slotIntHandler i ret s).drv.masked i = if 0 < ret then false else s.drv.masked i := by
  unfold callsIsr at hcall
  rw [Bool.and_eq_true, Option.isSome_iff_exists] at hcall
  obtain ⟨hen, f, hf⟩ := hcall
  unfold slotIntHandler
  rw [if_pos hen, hf]
  dsimp only
  split_ifs
  · exact setIntReg_masked _ i false hreg
  · rfl

theorem pdmEnableInt_masked (d : DrvSt) (hreg : hasIntReg i = true) : (pdmEnableInt (i : ℕ) d).2.masked i = false := by
  unfold pdmEnableInt
  simp only [checkSlot_coe]
  exact setIntReg_masked _ i false hreg

theorem serviced_cases {op : ArmOp} {h : ℤ} (hs : serviced m i s op = some h) :
    (∃ idx, m = .kernel ∧ op = .work idx h ∧ s.int.pending i idx = true ∧ callsIsr i s.int = true) ∨
    ∃ r, m = .user ∧ op = .read h r ∧ s.canRead = true := by
  cases op with
  | work idx h' =>
    simp only [serviced, Option.ite_none_right_eq_some, Option.some.injEq] at hs
    obtain ⟨⟨hm, hp, hcall⟩, rfl⟩ := hs
    exact Or.inl ⟨idx, hm, rfl, hp, hcall⟩
  | read h' r =>
    simp only [serviced, Option.ite_none_right_eq_some, Option.some.injEq] at hs
    obtain ⟨⟨hm, hread⟩, rfl⟩ := hs
    exact Or.inr ⟨r, hm, rfl, hread⟩
  | slotInt | enableInt => cases hs

/-- kernel mode: the interrupt stays armed, or is armed if interrupts were found -/
theorem work_armed (hinv : ArmInv .kernel i s) {idx : Bool} (hp : s.int.pending i idx = true)
    (hcall : callsIsr i s.int = true) (h : ℤ) : Armed i (armNext .kernel i s (.work idx h)) ↔ Armed i s ∨ 0 < h := by
  have hreg : hasIntReg i = true := by
    by_contra hno
    rw [hinv.pending (Bool.eq_false_iff.2 hno)] at hp
    cases hp
  have hmask : (armNext .kernel i s (.work idx h)).int.drv.masked i =
      if 0 < h then false else s.int.drv.masked i := by
    simp only [armNext, if_pos hp]
    exact slotIntHandler_masked (s := s.int.setPending i idx false) hcall h hreg
  unfold Armed
  rw [hmask]
  by_cases hh : 0 < h
  · simp [hh]
  · simp [hh]

/-- user mode: it stays armed, or is armed if interrupts were found and `udf_read_int_data` gives no error -/
theorem read_armed (hinv : ArmInv .user i s) (hread : s.canRead = true) (h r : ℤ) :
    Armed i (armNext .user i s (.read h r)) ↔ Armed i s ∨ (0 < h ∧ 0 ≤ r) := by
  have hreg : hasIntReg i = true := by
    by_contra hno
    rw [hinv.canRead (Bool.eq_false_iff.2 hno)] at hread
    cases hread
  have hmask : (armNext .user i s (.read h r)).int.drv.masked i =
      if 0 < h ∧ 0 ≤ r then false else s.int.drv.masked i := by
    simp only [armNext, udfThRead]
    by_cases hh : 0 < h
    · rw [if_neg (not_le.2 hh)]
      by_cases hr : 0 ≤ r
      · rw [if_pos hr, if_pos ⟨hh, hr⟩]
        exact pdmEnableInt_masked _ hreg
      · rw [if_neg hr, if_neg fun hx => hr hx.2]
    · rw [if_pos (not_lt.1 hh), if_neg fun hx => hh hx.1]
  unfold Armed
  rw [hmask]
  by_cases hx : 0 < h ∧ 0 ≤ r
  · rw [if_pos hx]
    exact iff_of_true rfl (Or.inr hx)
  · rw [if_neg hx, or_iff_left hx]

/-- under the invariant the two properties of a step agree -/
theorem rearms_iff (op : ArmOp) (hinv : ArmInv m i s) : Rearms m i s op ↔ RearmCond m i s op := by
  refine forall₂_congr fun h hs => ?_
  rcases serviced_cases hs with ⟨idx, rfl, rfl, hp, hcall⟩ | ⟨r, rfl, rfl, hread⟩
  · -- the isr is only called if the setting is on
    have hon : s.on = true := by
      rw [← hinv.enabled rfl]
      exact (Bool.and_eq_true_iff.1 hcall).1
    rw [work_armed hinv hp hcall]
    simp only [hon, and_true, reduceCtorEq, false_imp_iff, implies_true]
    exact ⟨fun hx ha => hx.1 (Or.inl ha), fun hx => ⟨fun ha => ha.elim hx id, Or.inr⟩⟩
  · rw [read_armed hinv hread]
    constructor
    · intro hx
      refine ⟨fun ha => hx.1 (Or.inl ha), ?_⟩
      rintro r' - hr ha hh
      cases hr
      constructor
      · exact fun hr => (hx.1 (Or.inr ⟨hh, hr⟩)).2
      · exact fun hon => ((hx.2 ⟨hh, hon⟩).resolve_left ha).2
    · rintro ⟨hx, hr⟩
      constructor
      · rintro (ha | ⟨hh, hr'⟩)
        · exact hx ha
        · by_cases ha : Armed i s
          · exact hx ha
          · exact ⟨hh, (hr r rfl rfl ha hh).1 hr'⟩
      · rintro ⟨hh, hon⟩
        by_cases ha : Armed i s
        · exact Or.inl ha
        · exact Or.inr ⟨hh, (hr r rfl rfl ha hh).2 hon⟩

end Service

/-! ## Runs -/

section Runs

variable {m : Mode} {i : SlotId} {s : ArmSt}

/-- `pdm_handle_slot_int` leaves `BIT_INT_ENABLED`, and queues work for slots with an interrupt only -/
theorem handleSlotInt_spec (bits : SlotId → Bool) (s : IntSt) :
    (∀ j, ((pdmHandleSlotInt bits s).2.drv.slot j).intEnabled = (s.drv.slot j).intEnabled) ∧
    ∀ j idx, hasIntReg j = false → (pdmHandleSlotInt bits s).2.pending j idx = s.pending j idx := by
  unfold pdmHandleSlotInt
  suffices hgen : ∀ (js : List SlotId) (x : ℤ × IntSt),
      (∀ j, ((js.foldl (intSlot bits) x).2.drv.slot j).intEnabled = (x.2.drv.slot j).intEnabled) ∧
      ∀ j idx, hasIntReg j = false → (js.foldl (intSlot bits) x).2.pending j idx = x.2.pending j idx from
    hgen _ (0, s)
  intro js
  induction js with
  | nil => exact fun x => ⟨fun _ => rfl, fun _ _ _ => rfl⟩
  | cons k js ih =>
    intro x
    rw [List.foldl_cons]
    obtain ⟨hen, hpend⟩ := ih (intSlot bits x k)
    have hround : (∀ j, ((intSlot bits x k).2.drv.slot j).intEnabled = (x.2.drv.slot j).intEnabled) ∧
        ∀ j idx, hasIntReg j = false → (intSlot bits x k).2.pending j idx = x.2.pending j idx := by
      unfold intSlot
      split_ifs with hk
      · constructor
        · intro j
          dsimp only [IntSt.setPending]
          rw [setSlot_slot, setIntReg_slot]
          split_ifs with hj
          · rw [hj]
          · rfl
        · intro j idx hj
          have hjk : j ≠ k := by
            rintro rfl
            have hbmp : hasIntReg j = true := (Bool.and_eq_true_iff.1 hk).1
            rw [hj] at hbmp
            cases hbmp
          show Function.update x.2.pending k _ j idx = _
          rw [Function.update_of_ne hjk]
      · exact ⟨fun _ => rfl, fun _ _ _ => rfl⟩
    exact ⟨fun j => (hen j).trans (hround.1 j), fun j idx hj => (hpend j idx hj).trans (hround.2 j idx hj)⟩

theorem slotIntHandler_slot (i : SlotId) (ret : ℤ) (s : IntSt) : (slotIntHandler i ret s).drv.slot = s.drv.slot := by
  unfold slotIntHandler
  by_cases hen : (s.drv.slot i).intEnabled = true
  · rw [if_pos hen]
    rcases (s.drv.slot i).isr with _ | f
    · rfl
    dsimp only
    split_ifs
    · exact setIntReg_slot _ i false
    · rfl
  · rw [if_neg hen]

theorem armNext_inv (hinv : ArmInv m i s) (op : ArmOp) : ArmInv m i (armNext m i s op) := by
  cases op with
  | slotInt bits =>
    obtain ⟨hen, hpend⟩ := handleSlotInt_spec bits s.int
    exact ⟨fun hm => (hen i).trans (hinv.enabled hm), fun hreg idx => (hpend i idx hreg).trans (hinv.pending hreg idx),
      hinv.canRead⟩
  | work idx h =>
    simp only [armNext]
    split_ifs with hp
    · -- the slot has an interrupt, or there would be no work for it
      have hreg : hasIntReg i ≠ false := by
        intro hreg
        rw [hinv.pending hreg] at hp
        cases hp
      refine ⟨fun hm => ?_, fun hr => absurd hr hreg, fun hr => absurd hr hreg⟩
      have hslot : (slotWork m i idx h s).int.drv.slot = s.int.drv.slot :=
        slotIntHandler_slot i _ (s.int.setPending i idx false)
      rw [hslot]
      exact hinv.enabled hm
    · exact hinv
  | enableInt arg =>
    refine ⟨fun _ => ?_, hinv.pending, hinv.canRead⟩
    show ((if arg ≠ 0 then (pdmEnableInt (i : ℕ) s.int.drv).2 else (pdmDisableInt (i : ℕ) s.int.drv).2).slot
      i).intEnabled = decide (arg ≠ 0)
    by_cases harg : arg ≠ 0
    · rw [if_pos harg, pdmEnableInt_slot, checkSlot_coe, if_pos rfl, decide_eq_true harg]
    · rw [if_neg harg, pdmDisableInt_slot, checkSlot_coe, if_pos rfl, decide_eq_false harg]
  | read h r =>
    cases m with
    | kernel => exact ⟨hinv.enabled, hinv.pending, fun _ => rfl⟩
    | user =>
      have hpend : (armNext .user i s (.read h r)).int.pending = s.int.pending := by
        simp only [armNext, udfThRead]
        split_ifs <;> rfl
      have hread : (armNext .user i s (.read h r)).canRead = false := by
        simp only [armNext, udfThRead]
        split_ifs <;> rfl
      refine ⟨fun hm => absurd hm (by decide), fun hreg idx => ?_, fun _ => hread⟩
      rw [hpend, hinv.pending hreg]

theorem udfOpen_armInv (m : Mode) (masked : SlotId → Bool) (i : SlotId) (t : TypeId) (isr : Ptr) (arg : Option Ptr) :
    ArmInv m i (ArmSt.udfOpen masked i t isr arg) := by
  refine ⟨fun _ => ?_, fun _ _ => rfl, fun _ => rfl⟩
  have hclear : ∀ j, (((DrvSt.pdmCtorMngInfo masked).setTypeInfo i (some t)).slot j).intEnabled = false := by
    intro j
    rw [DrvSt.setTypeInfo, setSlot_slot]
    split_ifs <;> rfl
  show ((pdmRequestIrq (i : ℕ) (some isr) arg ((DrvSt.pdmCtorMngInfo masked).setTypeInfo i (some t))).2.slot
    i).intEnabled = false
  rcases pdmRequestIrq_cases ((DrvSt.pdmCtorMngInfo masked).setTypeInfo i (some t)) (i : ℕ) (some isr) arg with
    ⟨-, heq⟩ | ⟨k, f, -, -, -, -, -, heq⟩
  · rw [heq]
    exact hclear i
  · rw [heq, setSlot_slot]
    split_ifs
    · exact hclear k
    · exact hclear i

end Runs

/-- **The slot interrupt is armed again as it should be, iff the results do not contradict the application.** In a run
of interrupts, work, `udf_enable_int` and reads on an open device, in either mode, every service leaves the interrupt
armed iff interrupts were found and the last `udf_enable_int` turned it on, iff in every service the interrupt was not
armed already, or was found again and is turned on, and in user mode `udf_read_int_data`, where it decides, gives an
error exactly when the interrupt is turned off. -/
theorem rearm_iff (m : Mode) (masked : SlotId → Bool) (i : SlotId) (t : TypeId) (isr : Ptr) (arg : Option Ptr)
    (ops : List ArmOp) :
    Always (armStep m i) (Rearms m i) (ArmSt.udfOpen masked i t isr arg) ops ↔
      Always (armStep m i) (RearmCond m i) (ArmSt.udfOpen masked i t isr arg) ops := by
  refine always_iff (I := ArmInv m i) (fun s op hinv => rearms_iff op hinv) ?_ (udfOpen_armInv m masked i t isr arg)
  intro s op u hinv _ hu
  cases hu
  exact armNext_inv hinv op

/-- the interrupt is turned on, and a service finds one. In user mode it stays masked if `udf_read_int_data` gives an
error, and it is armed if the application turned it off before the read; in kernel mode neither happens. -/
theorem user_mode_differs : let s := ArmSt.udfOpen (fun _ => true) 1 1 10 none
    ¬ Always (armStep .user 1) (Rearms .user 1) s [.enableInt 1, .slotInt fun _ => true, .work false 1, .read 1 (-1)] ∧
    ¬ Always (armStep .user 1) (Rearms .user 1) s
      [.enableInt 1, .slotInt fun _ => true, .work false 1, .enableInt 0, .read 1 0] ∧
    Always (armStep .kernel 1) (Rearms .kernel 1) s
      [.enableInt 1, .slotInt fun _ => true, .work false 1, .read 1 (-1)] ∧
    Always (armStep .kernel 1) (Rearms .kernel 1) s
      [.enableInt 1, .slotInt fun _ => true, .work false 1, .enableInt 0, .read 1 0] := by
  refine ⟨?_, ?_, ?_, ?_⟩ <;> decide +kernel

end LinuxDrv.Udf
