/-
Interrupts are dispatched to the isr that is registered.

`IrqInv d h` relates the tables to the history: the isr of a slot is the one `lastReq` reads off the history, a slot
without a card has none, and the history is as it should be. Each function keeps it.
- `dispatch_safety`: for every sequence of steps, an isr is only called for a slot that has a card and whose interrupt
  is enabled, and it is the one of the last `pdm_request_irq` that succeeded, with its argument. So work that was queued
  before a card went never runs the isr of that card.
-/
import LinuxDrv.Driver.Irq

namespace LinuxDrv.Driver

open LinuxDrv.Core

/-! ## The slots after each function -/

section Slots

variable (d : DrvSt) {slot : ℤ} {i j : SlotId}

theorem setSlot_slot (i : SlotId) (f : SlotInfo → SlotInfo) (j : SlotId) :
    (d.setSlot i f).slot j = if j = i then f (d.slot i) else d.slot j := by
  by_cases hj : j = i
  · subst hj; simp [DrvSt.setSlot]
  · simp [DrvSt.setSlot, hj]

theorem setIntReg_slot (i : SlotId) (val : Bool) : (setIntReg i val d).slot = d.slot := by
  unfold setIntReg
  split_ifs <;> rfl

theorem setIntReg_masked (i : SlotId) (val : Bool) (h : hasIntReg i = true) : (setIntReg i val d).masked i = val := by
  simp [setIntReg, h]

theorem pdmEnableInt_slot (slot : ℤ) (j : SlotId) : (pdmEnableInt slot d).2.slot j =
    if checkSlot slot = some j then { d.slot j with intEnabled := true } else d.slot j := by
  unfold pdmEnableInt
  cases checkSlot slot with
  | none => rfl
  | some i =>
    simp only [setIntReg_slot, setSlot_slot, Option.some.injEq]
    by_cases hj : j = i
    · subst hj; simp
    · simp [hj, Ne.symm hj]

theorem pdmDisableInt_slot (slot : ℤ) (j : SlotId) : (pdmDisableInt slot d).2.slot j =
    if checkSlot slot = some j then { d.slot j with intEnabled := false } else d.slot j := by
  unfold pdmDisableInt
  cases checkSlot slot with
  | none => rfl
  | some i =>
    simp only [setIntReg_slot, setSlot_slot, Option.some.injEq]
    by_cases hj : j = i
    · subst hj; simp
    · simp [hj, Ne.symm hj]

theorem pdmFreeIrq_slot (slot : ℤ) (j : SlotId) : (pdmFreeIrq slot d).slot j =
    if checkSlot slot = some j then { d.slot j with intEnabled := false, isr := none, arg := none }
    else d.slot j := by
  unfold pdmFreeIrq
  cases hi : checkSlot slot with
  | none => rfl
  | some i =>
    simp only [setSlot_slot, pdmDisableInt_slot, hi, Option.some.injEq]
    by_cases hj : j = i
    · subst hj; simp
    · simp [hj, Ne.symm hj]

theorem pdmFreeIrq_masked (hi : checkSlot slot = some i) (h : hasIntReg i = true) :
    (pdmFreeIrq slot d).masked i = true := by
  unfold pdmFreeIrq pdmDisableInt
  simp only [hi]
  exact setIntReg_masked _ i true h

/-- the two ways of `pdm_request_irq` -/
theorem pdmRequestIrq_cases (slot : ℤ) (isr arg : Option Ptr) :
    (requestEvents slot isr arg d = [] ∧ (pdmRequestIrq slot isr arg d).2 = d) ∨
    ∃ i f, checkSlot slot = some i ∧ isr = some f ∧ (d.slot i).typeInfo ≠ none ∧ (d.slot i).isr = none ∧
      requestEvents slot isr arg d = [.request i f arg (d.slot i)] ∧
      (pdmRequestIrq slot isr arg d).2 = d.setSlot i fun x => { x with arg := arg, isr := some f } := by
  unfold requestEvents pdmRequestIrq
  cases checkSlot slot with
  | none => exact Or.inl ⟨rfl, rfl⟩
  | some i =>
    cases isr with
    | none => exact Or.inl ⟨rfl, rfl⟩
    | some f =>
      dsimp only
      by_cases hty : (d.slot i).typeInfo = none
      · simp [hty, enodev]
      · by_cases hisr : (d.slot i).isr = none
        · refine Or.inr ⟨i, f, rfl, rfl, hty, hisr, ?_, ?_⟩ <;> simp [hty, hisr]
        · simp [hty, hisr, eexist]

/-- a `cb_online` changes its own slot only -/
theorem callOnline_slot_ne (t : TypeId) (drv : CardTypeInfo) (res : OnlineRes) (hj : j ≠ i) :
    (callOnline t drv i res d).slot j = d.slot j := by
  unfold callOnline
  cases res.irq with
  | none => rfl
  | some x =>
    rcases pdmRequestIrq_cases d (i : ℕ) (some x.1) x.2 with h | h
    · exact congrFun (congrArg DrvSt.slot h.2) j
    · obtain ⟨k, f, hk, -, -, -, -, heq⟩ := h
      rw [checkSlot_coe, Option.some.injEq] at hk
      subst hk
      show (pdmRequestIrq (i : ℕ) (some x.1) x.2 d).2.slot j = _
      rw [heq, setSlot_slot, if_neg hj]

/-- what a `pdm_request_irq` does depends on its slot only -/
theorem onlineEvents_congr {d d' : DrvSt} (h : d'.slot i = d.slot i) (res : OnlineRes) :
    onlineEvents i res d' = onlineEvents i res d := by
  unfold onlineEvents requestEvents pdmRequestIrq
  cases res.irq with
  | none => rfl
  | some x =>
    simp only [checkSlot_coe, h]
    by_cases hty : (d.slot i).typeInfo = none
    · simp only [hty, ↓reduceIte]
    · simp only [hty, ↓reduceIte, apply_ite Prod.fst]

/-- `pdm_unreg_online_offline_cb` leaves the slots -/
theorem unreg_slot {d d' : DrvSt} {cardType : ℤ} (hd : pdmUnregOnlineOfflineCb cardType d = .ok d') :
    d'.slot = d.slot := by
  unfold pdmUnregOnlineOfflineCb at hd
  cases ht : checkType cardType with
  | none =>
    simp only [ht, Except.ok.injEq] at hd
    rw [hd]
  | some t =>
    simp only [ht] at hd
    refine foldlM_done (I := fun _ x => x.slot = d.slot) ?_ rfl hd
    intro _ i _ u v _ hu hv
    unfold unregSlot at hv
    split_ifs at hv
    · cases hg : (d.cardType t).cbOffline with
      | none => simp [hg] at hv
      | some g =>
        simp only [hg, Except.ok.injEq] at hv
        subst hv
        exact hu
    · simp only [Except.ok.injEq] at hv
      subst hv
      exact hu

end Slots

/-! ## The invariant -/

/-- what a call of an isr or a request that succeeded must meet, after the history `h` -/
def IrqEv.Ok (h : List IrqEv) : IrqEv → Prop
  | isr i f arg info => info.typeInfo ≠ none ∧ info.intEnabled = true ∧ lastReq i h = some (f, arg)
  | request _ _ _ info => info.typeInfo ≠ none
  | _ => True

/-- every event of a history was as it should be -/
def HistOk : List IrqEv → Prop
  | [] => True
  | e :: h => e.Ok h ∧ HistOk h

theorem HistOk.split {e : IrqEv} {pre : List IrqEv} : ∀ {post : List IrqEv}, HistOk (post ++ e :: pre) → e.Ok pre
  | [], h => h.1
  | _ :: _, h => HistOk.split h.2

structure IrqInv (d : DrvSt) (h : List IrqEv) : Prop where
  reg : ∀ i, lastReq i h = (d.slot i).isr.map fun f => (f, (d.slot i).arg)
  card : ∀ i, (d.slot i).isr ≠ none → (d.slot i).typeInfo ≠ none
  hist : HistOk h

namespace IrqInv

variable {d d' : DrvSt} {h : List IrqEv}

/-- nothing of the isr, the argument and the card of a slot changed -/
theorem congr (hi : IrqInv d h) (hisr : ∀ i, (d'.slot i).isr = (d.slot i).isr)
    (harg : ∀ i, (d'.slot i).arg = (d.slot i).arg) (hty : ∀ i, (d'.slot i).typeInfo = (d.slot i).typeInfo) :
    IrqInv d' h := by
  refine ⟨?_, ?_, hi.hist⟩
  · intro i
    rw [hisr, harg]
    exact hi.reg i
  · intro i
    rw [hisr, hty]
    exact hi.card i

theorem request (hi : IrqInv d h) (slot : ℤ) (isr arg : Option Ptr) :
    IrqInv (pdmRequestIrq slot isr arg d).2 ((requestEvents slot isr arg d).reverse ++ h) := by
  rcases pdmRequestIrq_cases d slot isr arg with ⟨hev, heq⟩ | ⟨i, f, -, -, hty, -, hev, heq⟩
  · rw [hev, heq]
    exact hi
  · rw [hev, heq]
    refine ⟨?_, ?_, hty, hi.hist⟩
    · intro j
      rw [setSlot_slot]
      by_cases hj : j = i
      · subst hj; simp [lastReq]
      · simpa [lastReq, hj, Ne.symm hj] using hi.reg j
    · intro j
      rw [setSlot_slot]
      by_cases hj : j = i
      · subst hj; simpa using hty
      · simpa [hj] using hi.card j

/-- `cb_online`, called for a slot with or without a card -/
theorem online (hi : IrqInv d h) (t : TypeId) (drv : CardTypeInfo) (i : SlotId) (res : OnlineRes) :
    IrqInv (callOnline t drv i res d) ((onlineEvents i res d).reverse ++ h) := by
  unfold callOnline onlineEvents
  cases res.irq with
  | none => exact hi.congr (fun _ => rfl) (fun _ => rfl) fun _ => rfl
  | some x => exact (hi.request (i : ℕ) (some x.1) x.2).congr (fun _ => rfl) (fun _ => rfl) fun _ => rfl

/-- the loop of `pdm_reg_online_offline_cb`: a slot that is still to come is as it was before the loop -/
theorem regLoop (t : TypeId) (drv : CardTypeInfo) (res : SlotId → OnlineRes) (js : List SlotId) :
    ∀ (x : ℤ × DrvSt) (h : List IrqEv), js.Nodup → (∀ j ∈ js, x.2.slot j = d.slot j) → IrqInv x.2 h →
      IrqInv (js.foldl (regSlot t drv res) x).2 ((js.flatMap fun i =>
        if (d.slot i).typeInfo = some t then onlineEvents i (res i) d else []).reverse ++ h) := by
  induction js with
  | nil => intro x h _ _ hi; exact hi
  | cons j js ih =>
    intro x h hnd hsame hi
    obtain ⟨hj, hnd⟩ := List.nodup_cons.1 hnd
    have hslot := hsame j List.mem_cons_self
    rw [List.foldl_cons, List.flatMap_cons, List.reverse_append, List.append_assoc]
    apply ih _ _ hnd
    · intro k hk
      have hkj : k ≠ j := fun he => hj (he ▸ hk)
      rw [regSlot]
      split_ifs
      · rw [callOnline_slot_ne _ _ _ _ hkj]
        exact hsame k (List.mem_cons_of_mem j hk)
      · exact hsame k (List.mem_cons_of_mem j hk)
    · rw [regSlot, hslot]
      split_ifs
      · rw [← onlineEvents_congr hslot]
        exact hi.online t drv j (res j)
      · exact hi

theorem reg_cb (hi : IrqInv d h) (cardType : ℤ) (f g : Option Ptr) (vsn : DrvVsnInfo) (res : SlotId → OnlineRes) :
    IrqInv (pdmRegOnlineOfflineCb cardType f g vsn res d).2 ((regEvents cardType f g res d).reverse ++ h) := by
  unfold pdmRegOnlineOfflineCb regEvents
  cases checkType cardType with
  | none => exact hi
  | some t =>
    cases f with
    | none => exact hi
    | some f =>
      cases g with
      | none => exact hi
      | some g =>
        dsimp only
        split_ifs
        · exact hi
        · have hloop := regLoop t ⟨some f, some g⟩ res (List.finRange etinSlotMax) (0, d) h (List.nodup_finRange _)
            (fun _ _ => rfl) hi
          exact hloop.congr (fun _ => rfl) (fun _ => rfl) fun _ => rfl

theorem cbOffline (hi : IrqInv d h) (t : TypeId) (drv : CardTypeInfo) (i : SlotId) (info : SlotInfo) (m : Bool) :
    IrqInv d (.cbOffline t drv i info m :: h) := ⟨hi.reg, hi.card, trivial, hi.hist⟩

/-- the calls of `cb_offline` in `pdm_unreg_online_offline_cb` concern no isr -/
theorem cbOfflines (hi : IrqInv d h) (t : TypeId) (drv : CardTypeInfo) (info : SlotId → SlotInfo) (m : SlotId → Bool)
    (js : List SlotId) : IrqInv d ((js.map fun i => .cbOffline t drv i (info i) (m i)).reverse ++ h) := by
  induction js generalizing h with
  | nil => exact hi
  | cons j js ih =>
    rw [List.map_cons, List.reverse_cons, List.append_assoc]
    exact ih (hi.cbOffline t drv j (info j) (m j))

theorem unreg_cb (hi : IrqInv d h) (cardType : ℤ) (hd : pdmUnregOnlineOfflineCb cardType d = .ok d') :
    IrqInv d' ((unregEvents cardType d).reverse ++ h) := by
  have hslot := unreg_slot hd
  have hi : IrqInv d' h := hi.congr (by simp [hslot]) (by simp [hslot]) (by simp [hslot])
  unfold unregEvents
  cases checkType cardType with
  | none => exact hi
  | some t =>
    cases hg : (d.cardType t).cbOffline with
    | none => simpa [hg] using hi
    | some g => simpa [hg] using hi.cbOfflines t (d.cardType t) d.slot d.masked _

theorem enable (hi : IrqInv d h) (slot : ℤ) : IrqInv (pdmEnableInt slot d).2 h := by
  apply hi.congr <;> intro j <;> rw [pdmEnableInt_slot] <;> split_ifs <;> rfl

theorem disable (hi : IrqInv d h) (slot : ℤ) : IrqInv (pdmDisableInt slot d).2 h := by
  apply hi.congr <;> intro j <;> rw [pdmDisableInt_slot] <;> split_ifs <;> rfl

theorem free (hi : IrqInv d h) (slot : ℤ) : IrqInv (pdmFreeIrq slot d) ((freeEvents slot).reverse ++ h) := by
  unfold freeEvents
  cases hs : checkSlot slot with
  | none => apply hi.congr <;> simp [pdmFreeIrq_slot, hs]
  | some i =>
    refine ⟨?_, ?_, trivial, hi.hist⟩
    · intro j
      rw [pdmFreeIrq_slot, hs]
      by_cases hj : j = i
      · subst hj; simp [lastReq]
      · simpa [lastReq, hj, Ne.symm hj] using hi.reg j
    · intro j
      rw [pdmFreeIrq_slot, hs]
      by_cases hj : j = i
      · subst hj; simp
      · simpa [Ne.symm hj] using hi.card j

/-- a slot without a card has no isr, so it may get a card -/
theorem setTypeInfo (hi : IrqInv d h) {i : SlotId} (t : Option TypeId) (ht : t = none → (d.slot i).isr = none) :
    IrqInv (d.setTypeInfo i t) h := by
  refine ⟨?_, ?_, hi.hist⟩
  · intro j
    rw [DrvSt.setTypeInfo, setSlot_slot]
    by_cases hj : j = i
    · subst hj; simpa using hi.reg j
    · simpa [hj] using hi.reg j
  · intro j
    rw [DrvSt.setTypeInfo, setSlot_slot]
    by_cases hj : j = i
    · subst hj; simpa using mt ht
    · simpa [hj] using hi.card j

theorem offlineEv (hi : IrqInv d h) {i : SlotId} (hisr : (d.slot i).isr = none) : IrqInv d (.offline i :: h) := by
  refine ⟨?_, hi.card, trivial, hi.hist⟩
  intro j
  by_cases hj : j = i
  · subst hj; simp [lastReq, hisr]
  · simpa [lastReq, Ne.symm hj] using hi.reg j

theorem card_online (hi : IrqInv d h) (slot cardType : ℤ) (res : OnlineRes) :
    IrqInv (pdmCardOnline slot cardType res d).2 ((cardOnlineEvents slot cardType res d).reverse ++ h) := by
  unfold pdmCardOnline cardOnlineEvents
  cases checkSlot slot with
  | none => exact hi
  | some i =>
    cases checkType cardType with
    | none => exact hi
    | some t =>
      by_cases hty : (d.slot i).typeInfo ≠ none
      · simpa [hty] using hi
      · cases hon : (d.cardType t).cbOnline with
        | none => simpa [hty, hon] using hi.setTypeInfo (i := i) (some t) (by simp)
        | some f =>
          have hon' := hi.online t (d.cardType t) i res
          by_cases hret : res.ret < 0
          · simpa [hty, hon, hret] using hon'
          · simpa [hty, hon, hret] using hon'.setTypeInfo (i := i) (some t) (by simp)

theorem card_offline (hi : IrqInv d h) (slot : ℤ) :
    IrqInv (pdmCardOffline slot d) ((cardOfflineEvents slot d).reverse ++ h) := by
  unfold pdmCardOffline cardOfflineEvents
  cases hs : checkSlot slot with
  | none => exact hi
  | some i =>
    cases hty : (d.slot i).typeInfo with
    | none =>
      have hisr : (d.slot i).isr = none := by
        by_contra hne
        exact hi.card i hne hty
      simpa [hty] using hi.offlineEv hisr
    | some t =>
      -- the interrupt is disabled and freed before the driver is told
      have hfree := (hi.disable slot).free slot
      have hisr : ((pdmFreeIrq slot (pdmDisableInt slot d).2).slot i).isr = none := by simp [pdmFreeIrq_slot, hs]
      simp only [freeEvents, hs] at hfree
      simp only [hty]
      cases hg : ((pdmFreeIrq slot (pdmDisableInt slot d).2).cardType t).cbOffline with
      | none =>
        simpa using (hfree.offlineEv hisr).setTypeInfo (i := i) none fun _ => hisr
      | some g =>
        have hcb := hfree.cbOffline t ((pdmFreeIrq slot (pdmDisableInt slot d).2).cardType t) i
          ((pdmFreeIrq slot (pdmDisableInt slot d).2).slot i) ((pdmFreeIrq slot (pdmDisableInt slot d).2).masked i)
        have hcall : IrqInv ((pdmFreeIrq slot (pdmDisableInt slot d).2).call (.offline t
            ((pdmFreeIrq slot (pdmDisableInt slot d).2).cardType t) i)) _ :=
          hcb.congr (fun _ => rfl) (fun _ => rfl) fun _ => rfl
        simpa using (hcall.offlineEv hisr).setTypeInfo (i := i) none fun _ => hisr

end IrqInv

/-! ## Steps -/

theorem ctor_irqInv (masked : SlotId → Bool) : IrqInv (DrvSt.pdmCtorMngInfo masked) [] :=
  ⟨fun _ => rfl, fun _ h => absurd rfl h, trivial⟩

theorem handleSlotInt_irqInv (bits : SlotId → Bool) {s : IntSt} (hi : IrqInv s.drv s.hist) :
    IrqInv (pdmHandleSlotInt bits s).2.drv (pdmHandleSlotInt bits s).2.hist := by
  unfold pdmHandleSlotInt
  generalize List.finRange etinSlotMax = js
  suffices hgen : ∀ x : ℤ × IntSt, IrqInv x.2.drv x.2.hist →
      IrqInv (js.foldl (intSlot bits) x).2.drv (js.foldl (intSlot bits) x).2.hist from hgen (0, s) hi
  induction js with
  | nil => intro x hx; exact hx
  | cons j js ih =>
    intro x hx
    apply ih
    unfold intSlot
    split_ifs
    · apply hx.congr <;> intro i <;> simp only [IntSt.setPending, setSlot_slot, setIntReg_slot] <;> split_ifs with hij
        <;> simp [hij]
    · exact hx

theorem slotIntHandler_irqInv (i : SlotId) (ret : ℤ) {s : IntSt} (hi : IrqInv s.drv s.hist) :
    IrqInv (slotIntHandler i ret s).drv (slotIntHandler i ret s).hist := by
  unfold slotIntHandler
  by_cases hen : (s.drv.slot i).intEnabled = true
  · rw [if_pos hen]
    cases hisr : (s.drv.slot i).isr with
    | none => exact hi
    | some f =>
      have hev : IrqInv s.drv (.isr i f (s.drv.slot i).arg (s.drv.slot i) :: s.hist) := by
        refine ⟨hi.reg, hi.card, ⟨hi.card i (by simp [hisr]), hen, ?_⟩, hi.hist⟩
        rw [hi.reg, hisr]
        rfl
      dsimp only
      split_ifs
      · exact hev.congr (fun _ => by simp only [setIntReg_slot]) (fun _ => by simp only [setIntReg_slot])
          fun _ => by simp only [setIntReg_slot]
      · exact hev
  · rw [if_neg hen]
    exact hi

theorem intStep_irqInv {s t : IntSt} {op : IntOp} (hi : IrqInv s.drv s.hist) (hs : intStep s op = .ok t) :
    IrqInv t.drv t.hist := by
  cases op with
  | table op =>
    obtain ⟨d, hd, hs⟩ := bind_eq_ok hs
    cases hs
    cases op with
    | reg cardType f g vsn res => cases hd; exact hi.reg_cb cardType f g vsn res
    | unreg cardType => exact hi.unreg_cb cardType hd
    | online slot cardType res => cases hd; exact hi.card_online slot cardType res
    | offline slot => cases hd; exact hi.card_offline slot
  | requestIrq slot isr arg => cases hs; exact hi.request slot isr arg
  | freeIrq slot => cases hs; exact hi.free slot
  | enableInt slot => cases hs; exact hi.enable slot
  | disableInt slot => cases hs; exact hi.disable slot
  | handleSlotInt bits => cases hs; exact handleSlotInt_irqInv bits hi
  | slotIntHandler i idx ret =>
    cases hs
    split_ifs
    · exact slotIntHandler_irqInv i ret hi
    · exact hi

theorem intRun_irqInv {masked : SlotId → Bool} {ops : List IntOp} {s : IntSt}
    (hs : runFrom intStep (IntSt.pdmCtorMngInfo masked) ops = .ok s) : IrqInv s.drv s.hist :=
  runFrom_inv (I := fun s => IrqInv s.drv s.hist) (P := fun _ => True) (fun _ _ _ _ hi hst => intStep_irqInv hi hst)
    (fun _ _ => trivial) (ctor_irqInv masked) hs

/-- **Interrupt dispatch.** In every sequence of steps: when `slot_int_handler` calls an isr, the slot has a card and its
interrupt is enabled, and the isr and its argument are those of the last `pdm_request_irq` for the slot that succeeded,
with no `pdm_free_irq` and no `pdm_card_offline` of the slot since. An isr is only registered for a slot with a card, and
none is left when the card is gone. -/
theorem dispatch_safety (masked : SlotId → Bool) (ops : List IntOp) (s : IntSt)
    (hs : runFrom intStep (IntSt.pdmCtorMngInfo masked) ops = .ok s) :
    (∀ post pre i f arg info, s.hist = post ++ .isr i f arg info :: pre →
      info.typeInfo ≠ none ∧ info.intEnabled = true ∧ lastReq i pre = some (f, arg)) ∧
    (∀ post pre i f arg info, s.hist = post ++ .request i f arg info :: pre → info.typeInfo ≠ none) ∧
    ∀ i, (s.drv.slot i).isr ≠ none → (s.drv.slot i).typeInfo ≠ none := by
  have hi := intRun_irqInv hs
  refine ⟨?_, ?_, hi.card⟩
  · intro post pre i f arg info hsplit
    have hok := hi.hist
    rw [hsplit] at hok
    exact hok.split
  · intro post pre i f arg info hsplit
    have hok := hi.hist
    rw [hsplit] at hok
    exact hok.split

/-- an interrupt of the first card is still queued when the card goes and another one comes, whose isr is run -/
theorem dispatch_safety_replug : ∃ s, runFrom intStep (IntSt.pdmCtorMngInfo fun _ => true)
    [.table (.online 1 1 ⟨0, none⟩), .requestIrq 1 (some 20) (some 21), .enableInt 1, .handleSlotInt fun _ => true,
      .table (.offline 1), .table (.online 1 1 ⟨0, none⟩), .requestIrq 1 (some 30) (some 31), .enableInt 1,
      .slotIntHandler 1 false 1] = .ok s ∧
    ∃ info pre, s.hist = .isr 1 30 (some 31) info :: pre ∧ lastReq 1 pre = some (30, some 31) := by
  refine ⟨_, rfl, _, _, rfl, ?_⟩
  exact ((dispatch_safety (fun _ => true)
    [.table (.online 1 1 ⟨0, none⟩), .requestIrq 1 (some 20) (some 21), .enableInt 1, .handleSlotInt fun _ => true,
      .table (.offline 1), .table (.online 1 1 ⟨0, none⟩), .requestIrq 1 (some 30) (some 31), .enableInt 1,
      .slotIntHandler 1 false 1] _ rfl).1 [] _ 1 30 (some 31) _ rfl).2.2

end LinuxDrv.Driver
