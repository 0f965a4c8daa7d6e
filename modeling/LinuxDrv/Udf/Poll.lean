/-
The file of a device is readable after an interrupt (`udf_isr`, `udf_read` and `udf_poll` in `file_op.c` of the
template).

`udf_isr` sets `BIT_CAN_READ` and wakes those who sleep in `m_inq`, and `udf_read` clears the bit before it reads. An
application that polls sleeps until it is woken, and polls again then. All of it runs under `m_mutex`. The rest is the
model of `Udf/Rearm`.

`PollSt.hist` is history: no code reads it. It has the calls of `udf_isr` and the reads.
- `pollNext_box`: the file runs as a box (`Core/Notify`) that collects with `||`.
- `udf_poll_exact`: so it is readable iff `udf_isr` was called after the last read, and nobody sleeps then.
- `udf_interrupt_readable`: an interrupt that is enabled makes the file readable once its work has run, and wakes all.
-/
import LinuxDrv.Core.Notify
import LinuxDrv.Driver.FileOp
import LinuxDrv.Driver.IrqServed
import LinuxDrv.Udf.Rearm

namespace LinuxDrv.Udf

open LinuxDrv.Core LinuxDrv.Driver

structure PollSt (κ : Type) where
  arm : ArmSt
  inq : List κ
  hist : List (Mail Bool)

section Functions

variable {κ : Type} [DecidableEq κ]

/-- the device is open, and nothing has happened -/
def PollSt.udfOpen (masked : SlotId → Bool) (i : SlotId) (t : TypeId) (isr : Ptr) (arg : Option Ptr) : PollSt κ :=
  ⟨ArmSt.udfOpen masked i t isr arg, [], []⟩

/-- the operation calls `udf_isr` -/
def ArmOp.callsUdfIsr (i : SlotId) (s : ArmSt) : ArmOp → Bool
  | .work idx _ => s.int.pending i idx && callsIsr i s.int
  | _ => false

/-- it calls `udf_isr`, or it is a read -/
def ArmOp.mail (i : SlotId) (s : ArmSt) (op : ArmOp) : List (Mail Bool) :=
  if op.callsUdfIsr i s then [.put true]
  else match op with
    | .read .. => [.take s.canRead]
    | _ => []

/-- `udf_poll` -/
def udfPoll (s : ArmSt) : BitVec 32 := if s.canRead then pollin ||| pollrdnorm else 0

inductive PollOp (κ : Type) where
  | arm (op : ArmOp)
  | poll (k : κ)
  /-- an application stops waiting by itself -/
  | leave (k : κ)

/-- one step. `wake_up_interruptible` in `udf_isr` empties `m_inq`. -/
def pollNext (m : Mode) (i : SlotId) (s : PollSt κ) : PollOp κ → PollSt κ
  | .arm op =>
    { arm := armNext m i s.arm op
      inq := if op.callsUdfIsr i s.arm then [] else s.inq
      hist := op.mail i s.arm ++ s.hist }
  | .poll k =>
    let rest := s.inq.filter fun j => j ≠ k
    { s with inq := if udfPoll s.arm = 0 then k :: rest else rest }
  | .leave k => { s with inq := s.inq.filter fun j => j ≠ k }

/-- the run of the operations `ops` -/
def pollRun (m : Mode) (i : SlotId) (s : PollSt κ) (ops : List (PollOp κ)) : PollSt κ := ops.foldl (pollNext m i) s

end Functions

/-! ## The file is a box -/

section Refinement

variable {κ : Type} [DecidableEq κ] {m : Mode} {i : SlotId} {s : PollSt κ}

/-- what the file collects -/
def PollSt.box (s : PollSt κ) : Box Bool κ := ⟨s.arm.canRead, s.inq, s.hist⟩

/-- what an operation does to it -/
def PollOp.boxOps (i : SlotId) (s : PollSt κ) : PollOp κ → List (BoxOp Bool κ)
  | arm op => (op.mail i s.arm).map fun
    | .put a => .put a
    | .take _ => .take
  | poll k => [.poll k]
  | leave k => [.leave k]

/-- `BIT_CAN_READ` after an operation -/
theorem armNext_canRead (s : ArmSt) (op : ArmOp) : (armNext m i s op).canRead =
    if op.callsUdfIsr i s then true else match op with
      | .read .. => false
      | _ => s.canRead := by
  cases op with
  | slotInt | enableInt => rfl
  | work idx h =>
    have hcalls : ArmOp.callsUdfIsr i s (.work idx h) = (s.int.pending i idx && callsIsr i s.int) := rfl
    rw [hcalls]
    simp only [armNext]
    rcases hp : s.int.pending i idx with _ | _
    · simp
    · rcases hc : callsIsr i s.int with _ | _
      · simp [slotWork, hc]
      · simp [slotWork, hc]
  | read h r =>
    cases m with
    | kernel => rfl
    | user =>
      show (udfThRead .user i h r s).2.canRead = false
      unfold udfThRead
      dsimp only
      split_ifs <;> rfl

theorem udfPoll_eq_zero (s : ArmSt) : udfPoll s = 0 ↔ s.canRead = false := by
  unfold udfPoll
  rcases s.canRead with _ | _
  · exact iff_of_true rfl rfl
  · exact iff_of_false (by decide) Bool.noConfusion

theorem pollNext_box (op : PollOp κ) :
    (pollNext m i s op).box = (op.boxOps i s).foldl (Box.next (· || ·) false) s.box := by
  cases op with
  | arm op =>
    have hread := armNext_canRead (m := m) (i := i) s.arm op
    unfold PollSt.box pollNext PollOp.boxOps ArmOp.mail
    dsimp only
    rw [hread]
    by_cases hc : op.callsUdfIsr i s.arm = true
    · simp [hc, Box.next]
    · simp only [Bool.eq_false_iff.2 hc, Bool.false_eq_true, ↓reduceIte]
      cases op <;> rfl
  | poll k =>
    simp only [PollOp.boxOps, List.foldl_cons, List.foldl_nil, Box.next, PollSt.box, pollNext, udfPoll_eq_zero]
  | leave k => rfl

theorem pollRun_box (h : s.box.Inv (· || ·) false) (ops : List (PollOp κ)) :
    (pollRun m i s ops).box.Inv (· || ·) false := by
  induction ops generalizing s with
  | nil => exact h
  | cons op ops ih =>
    refine ih ?_
    rw [pollNext_box]
    exact Box.run_inv h _

end Refinement

/-! ## Runs -/

section Runs

variable {κ : Type} [DecidableEq κ] {m : Mode} {i : SlotId} {s : PollSt κ}

omit [DecidableEq κ] in
theorem PollSt.nobody_sleeps (h : s.box.Inv (· || ·) false) (hread : s.arm.canRead = true) : s.inq = [] := by
  refine h.awake ?_
  show s.arm.canRead ≠ false
  rw [hread]
  exact Bool.noConfusion

/-- **A file is readable iff its isr was called after the last read, and nobody sleeps then.** In every run of
interrupts, work, ioctls, reads and polls on an open device, in either mode: `udf_poll` says that there is something to
read iff `udf_isr` was called after the last read, and if so no application sleeps. -/
theorem udf_poll_exact (m : Mode) (masked : SlotId → Bool) (i : SlotId) (t : TypeId) (isr : Ptr) (arg : Option Ptr)
    (ops : List (PollOp κ)) : let s := pollRun m i (PollSt.udfOpen masked i t isr arg) ops
    (udfPoll s.arm &&& pollin ≠ 0 ↔ collected (· || ·) false s.hist = true) ∧
    (collected (· || ·) false s.hist = true → s.inq = []) := by
  intro s
  have hinv : s.box.Inv (· || ·) false := pollRun_box Box.empty_inv ops
  have hval : s.arm.canRead = collected (· || ·) false s.hist := hinv.val
  rw [← hval]
  refine ⟨?_, fun hread => PollSt.nobody_sleeps hinv hread⟩
  unfold udfPoll
  rcases s.arm.canRead with _ | _
  · exact iff_of_false (by decide) Bool.noConfusion
  · exact iff_of_true (by decide) rfl

/-! ### From an interrupt to the file -/

/-- a device that is open has an isr, and its interrupt is enabled if the application's setting is on -/
structure Opened (i : SlotId) (s : ArmSt) : Prop where
  isr : (s.int.drv.slot i).isr.isSome = true
  enabled : s.on = true → (s.int.drv.slot i).intEnabled = true

theorem Opened.callsIsr {s : ArmSt} (h : Opened i s) (hon : s.on = true) : callsIsr i s.int = true := by
  rw [Udf.callsIsr, h.enabled hon, h.isr]
  rfl

theorem pdmEnableInt_opened {s : ArmSt} (h : Opened i s) :
    Opened i { s with int := { s.int with drv := (pdmEnableInt (i : ℕ) s.int.drv).2 } } := by
  refine ⟨?_, fun _ => ?_⟩ <;> dsimp only <;> rw [pdmEnableInt_slot, checkSlot_coe, if_pos rfl]
  exact h.isr

theorem armNext_opened {s : ArmSt} (h : Opened i s) (op : ArmOp) : Opened i (armNext m i s op) := by
  cases op with
  | slotInt bits =>
    obtain ⟨w, hw⟩ := handleSlotInt_slot bits s.int i
    refine ⟨?_, fun hon => ?_⟩
    · show ((pdmHandleSlotInt bits s.int).2.drv.slot i).isr.isSome = true
      rw [hw]
      exact h.isr
    · show ((pdmHandleSlotInt bits s.int).2.drv.slot i).intEnabled = true
      rw [hw]
      exact h.enabled hon
  | work idx hres =>
    simp only [armNext]
    split_ifs
    · have hslot : (slotWork m i idx hres s).int.drv.slot = s.int.drv.slot :=
        slotIntHandler_slot i _ (s.int.setPending i idx false)
      exact ⟨by rw [hslot]; exact h.isr, fun hon => by rw [hslot]; exact h.enabled hon⟩
    · exact h
  | enableInt arg =>
    by_cases harg : arg ≠ 0
    · refine ⟨?_, fun _ => ?_⟩ <;> simp only [armNext, udfEnableInt] <;>
        rw [if_pos harg, pdmEnableInt_slot, checkSlot_coe, if_pos rfl]
      exact h.isr
    · refine ⟨?_, fun hon => absurd (of_decide_eq_true hon) harg⟩
      simp only [armNext, udfEnableInt]
      rw [if_neg harg, pdmDisableInt_slot, checkSlot_coe, if_pos rfl]
      exact h.isr
  | read hres r =>
    cases m with
    | kernel => exact ⟨h.isr, h.enabled⟩
    | user =>
      have hclear : Opened i { s with canRead := false } := ⟨h.isr, h.enabled⟩
      simp only [armNext, udfThRead]
      split_ifs
      · exact hclear
      · exact pdmEnableInt_opened hclear
      · exact hclear

theorem udfOpen_opened (masked : SlotId → Bool) (i : SlotId) (t : TypeId) (isr : Ptr) (arg : Option Ptr) :
    Opened i (ArmSt.udfOpen masked i t isr arg) := by
  have hslot : (((DrvSt.pdmCtorMngInfo masked).setTypeInfo i (some t)).slot i).typeInfo = some t ∧
      (((DrvSt.pdmCtorMngInfo masked).setTypeInfo i (some t)).slot i).isr = none := by
    rw [DrvSt.setTypeInfo, setSlot_slot, if_pos rfl]
    exact ⟨rfl, rfl⟩
  refine ⟨?_, fun hon => absurd hon Bool.false_ne_true⟩
  show ((pdmRequestIrq (i : ℕ) (some isr) arg ((DrvSt.pdmCtorMngInfo masked).setTypeInfo i (some t))).2.slot
    i).isr.isSome = true
  rcases pdmRequestIrq_cases ((DrvSt.pdmCtorMngInfo masked).setTypeInfo i (some t)) (i : ℕ) (some isr) arg with
    ⟨hno, -⟩ | ⟨k, f, hk, -, -, -, -, heq⟩
  · -- a card is in the slot, and no isr
    simp [requestEvents, pdmRequestIrq, hslot] at hno
  · rw [checkSlot_coe, Option.some.injEq] at hk
    rw [heq, ← hk, setSlot_slot, if_pos rfl]
    rfl

theorem pollRun_opened (h : Opened i s.arm) (ops : List (PollOp κ)) : Opened i (pollRun m i s ops).arm := by
  induction ops generalizing s with
  | nil => exact h
  | cons op ops ih =>
    refine ih ?_
    cases op with
    | arm op => exact armNext_opened h op
    | poll | leave => exact h

/-- no read, and the application leaves its setting on -/
def PollOp.Quiet : PollOp κ → Prop
  | arm (.enableInt arg) => arg ≠ 0
  | arm (.read ..) => False
  | _ => True

/-- the setting is on, and the work item of an interrupt is in the queue or the file is readable -/
structure Alert (i : SlotId) (idx : Bool) (s : ArmSt) : Prop where
  opened : Opened i s
  on : s.on = true
  alert : s.int.pending i idx = true ∨ s.canRead = true

/-- only a read takes what there is to read -/
theorem canRead_stays {s : ArmSt} {op : ArmOp} (hop : ∀ hres r, op ≠ .read hres r) (hread : s.canRead = true) :
    (armNext m i s op).canRead = true := by
  rw [armNext_canRead, hread]
  cases op with
  | read hres r => exact absurd rfl (hop hres r)
  | slotInt | work | enableInt => split_ifs <;> rfl

theorem Alert.work {idx : Bool} {s : ArmSt} (h : Alert i idx s) (hres : ℤ) :
    (armNext m i s (.work idx hres)).canRead = true := by
  rcases h.alert with hp | hread
  · -- the work runs and calls the isr
    rw [armNext_canRead, ArmOp.callsUdfIsr, hp, h.opened.callsIsr h.on]
    rfl
  · exact canRead_stays (fun _ _ => ArmOp.noConfusion) hread

theorem Alert.next {idx : Bool} {s : PollSt κ} (h : Alert i idx s.arm) {op : PollOp κ} (hq : op.Quiet) :
    Alert i idx (pollNext m i s op).arm ∧ (s.arm.canRead = true → (pollNext m i s op).arm.canRead = true) := by
  cases op with
  | poll | leave => exact ⟨h, id⟩
  | arm op =>
    refine ⟨⟨armNext_opened h.opened op, ?_, ?_⟩, fun hread => ?_⟩
    · cases op with
      | slotInt => exact h.on
      | work idx' hres =>
        simp only [pollNext, armNext]
        split_ifs
        · exact h.on
        · exact h.on
      | enableInt arg => exact decide_eq_true hq
      | read => exact absurd hq id
    · cases op with
      | slotInt bits =>
        refine h.alert.imp_left fun hp => ?_
        show (pdmHandleSlotInt bits s.arm.int).2.pending i idx = true
        rw [handleSlotInt_pending, hp, ite_self]
      | work idx' hres =>
        by_cases hidx : idx' = idx
        · subst hidx
          exact Or.inr (h.work hres)
        · refine h.alert.imp (fun hp => ?_) fun hread => canRead_stays (fun _ _ => ArmOp.noConfusion) hread
          simp only [pollNext, armNext]
          split_ifs
          · show (slotIntHandler i _ (s.arm.int.setPending i idx' false)).pending i idx = true
            rw [(slotIntHandler_spec i _ _).1, IntSt.setPending]
            simp [Ne.symm hidx, hp]
          · exact hp
      | enableInt arg => exact h.alert
      | read => exact absurd hq id
    · refine canRead_stays (fun hres r he => ?_) hread
      subst he
      exact hq

theorem Alert.run {idx : Bool} {s : PollSt κ} (h : Alert i idx s.arm) {ops : List (PollOp κ)}
    (hq : ∀ op ∈ ops, op.Quiet) : Alert i idx (pollRun m i s ops).arm ∧
    ((s.arm.canRead = true ∨ ∃ hres, .arm (.work idx hres) ∈ ops) → (pollRun m i s ops).arm.canRead = true) := by
  induction ops generalizing s with
  | nil =>
    refine ⟨h, ?_⟩
    rintro (hread | ⟨hres, hmem⟩)
    · exact hread
    · cases hmem
  | cons op ops ih =>
    obtain ⟨hnext, hkeep⟩ := h.next (m := m) (hq op List.mem_cons_self)
    obtain ⟨hend, hread⟩ := ih hnext fun o ho => hq o (List.mem_cons_of_mem op ho)
    refine ⟨hend, ?_⟩
    rintro (hnow | ⟨hres, hmem⟩)
    · exact hread (Or.inl (hkeep hnow))
    · rcases List.mem_cons.1 hmem with rfl | hmem
      · exact hread (Or.inl (h.work hres))
      · exact hread (Or.inr ⟨hres, hmem⟩)

/-- **An interrupt makes the file readable.** In every run on an open device, in either mode: an interrupt is found
while the application's setting is on, and from there the setting stays on and nothing is read. Then its work item is in
the queue or the file is readable, and once the work item has run the file is readable and no application sleeps. -/
theorem udf_interrupt_readable (m : Mode) (masked : SlotId → Bool) (t : TypeId) (isr : Ptr) (arg : Option Ptr)
    (ops₁ ops₂ : List (PollOp κ)) {bits : SlotId → Bool} (hi : hasIntBmp i = true) (hbit : bits i = true)
    (hon : (pollRun m i (PollSt.udfOpen masked i t isr arg) ops₁).arm.on = true) (hquiet : ∀ op ∈ ops₂, op.Quiet) :
    let s := pollRun m i (PollSt.udfOpen masked i t isr arg) ops₁
    let idx := (s.arm.int.drv.slot i).workIdx
    let u := pollRun m i s (.arm (.slotInt bits) :: ops₂)
    (u.arm.int.pending i idx = true ∨ u.arm.canRead = true) ∧
    ((∃ hres, .arm (.work idx hres) ∈ ops₂) → udfPoll u.arm = pollin ||| pollrdnorm ∧ u.inq = []) := by
  intro s idx u
  have hopened : Opened i s.arm := pollRun_opened (udfOpen_opened masked i t isr arg) ops₁
  have hstart : Alert i idx (pollNext m i s (.arm (.slotInt bits))).arm := by
    refine ⟨armNext_opened (m := m) hopened (.slotInt bits), hon, Or.inl ?_⟩
    show (pdmHandleSlotInt bits s.arm.int).2.pending i idx = true
    rw [handleSlotInt_pending, if_pos ⟨by rw [hi, hbit]; rfl, rfl⟩]
  obtain ⟨hend, hread⟩ := hstart.run (m := m) hquiet
  refine ⟨hend.alert, fun hwork => ?_⟩
  have hcan : u.arm.canRead = true := hread (Or.inr hwork)
  have hinv : u.box.Inv (· || ·) false :=
    pollRun_box (pollRun_box Box.empty_inv ops₁) (.arm (.slotInt bits) :: ops₂)
  exact ⟨by rw [udfPoll, hcan]; rfl, PollSt.nobody_sleeps hinv hcan⟩

/-- in user mode an application sleeps, and an interrupt comes -/
theorem udf_interrupt_readable_woken :
    let s : PollSt ℕ := pollRun .user 1 (PollSt.udfOpen (fun _ => true) 1 1 10 none) [.arm (.enableInt 1), .poll 7]
    let u := pollRun .user 1 s [.arm (.slotInt fun _ => true), .arm (.work false 0)]
    s.inq = [7] ∧ udfPoll u.arm = pollin ||| pollrdnorm ∧ u.inq = [] := by
  intro s u
  refine ⟨by decide +kernel, ?_⟩
  exact (udf_interrupt_readable (κ := ℕ) (i := 1) .user (fun _ => true) 1 10 none [.arm (.enableInt 1), .poll 7]
    [.arm (.work false 0)] (by decide) (show (fun _ : SlotId => true) 1 = true from rfl) (by decide +kernel)
    (List.forall_mem_singleton.2 trivial)).2 ⟨0, List.mem_singleton_self _⟩

end Runs

end LinuxDrv.Udf
