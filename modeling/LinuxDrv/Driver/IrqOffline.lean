/-
Interrupts and the calls of `cb_offline`.

- `offline_silent_iff`: a driver's `cb_offline` is called with the interrupt of the slot freed, disabled and masked, in
  every sequence of steps in which no driver is unregistered while a slot of its type has an interrupt.
  `pdm_card_offline` frees the interrupt first, `pdm_unreg_online_offline_cb` does not: `unreg_keeps_isr`.
- `calls_agree`: the calls of `cb_offline` in the history of interrupts are those in the history of calls.
-/
import LinuxDrv.Driver.IrqSafe

namespace LinuxDrv.Driver

open LinuxDrv.Core

/-! ## Calls of `cb_offline` -/

/-- no isr, the interrupt disabled, and masked where there is a mask bit -/
def Silent (i : SlotId) (info : SlotInfo) (masked : Bool) : Prop :=
  info.isr = none ∧ info.intEnabled = false ∧ (hasIntReg i = true → masked = true)

instance (i : SlotId) (info : SlotInfo) (masked : Bool) : Decidable (Silent i info masked) :=
  inferInstanceAs (Decidable (_ ∧ _ ∧ _))

/-- whenever the step calls the `cb_offline` of a driver, the interrupt of the slot is silent, and no isr is left in the
slot after the step -/
def IntOp.OfflineSilent (s : IntSt) (op : IntOp) : Prop :=
  ∀ t drv i info m, .cbOffline t drv i info m ∈ op.events s.drv →
    Silent i info m ∧ ∀ s', intStep s op = .ok s' → (s'.drv.slot i).isr = none

/-- a driver is only unregistered while the interrupts of the cards of its type are silent -/
def IntOp.UnregSilent (s : IntSt) : IntOp → Prop
  | table (.unreg cardType) => ∀ t i, checkType cardType = some t → (s.drv.cardType t).cbOffline ≠ none →
    (s.drv.slot i).typeInfo = some t → Silent i (s.drv.slot i) (s.drv.masked i)
  | _ => True

instance (s : IntSt) : (op : IntOp) → Decidable (op.UnregSilent s)
  | .table (.unreg cardType) => inferInstanceAs (Decidable (∀ t i, checkType cardType = some t →
    (s.drv.cardType t).cbOffline ≠ none → (s.drv.slot i).typeInfo = some t →
      Silent i (s.drv.slot i) (s.drv.masked i)))
  | .table (.reg ..) | .table (.online ..) | .table (.offline _) | .requestIrq .. | .freeIrq _ | .enableInt _
  | .disableInt _ | .handleSlotInt _ | .slotIntHandler .. => isTrue trivial

section Offline

variable {d : DrvSt} {t : TypeId} {drv : CardTypeInfo} {i : SlotId} {info : SlotInfo} {m : Bool}

theorem not_mem_requestEvents (slot : ℤ) (isr arg : Option Ptr) :
    .cbOffline t drv i info m ∉ requestEvents slot isr arg d := by
  rcases pdmRequestIrq_cases d slot isr arg with h | ⟨k, f, -, -, -, -, h, -⟩
  · simp [h.1]
  · simp [h]

theorem not_mem_freeEvents (slot : ℤ) : .cbOffline t drv i info m ∉ freeEvents slot := by
  unfold freeEvents
  cases checkSlot slot with
  | none => simp
  | some j => simp

theorem not_mem_onlineEvents (j : SlotId) (res : OnlineRes) : .cbOffline t drv i info m ∉ onlineEvents j res d := by
  unfold onlineEvents
  cases res.irq with
  | none => simp
  | some x => exact not_mem_requestEvents (j : ℕ) (some x.1) x.2

theorem not_mem_regEvents (cardType : ℤ) (f g : Option Ptr) (res : SlotId → OnlineRes) :
    .cbOffline t drv i info m ∉ regEvents cardType f g res d := by
  unfold regEvents
  cases checkType cardType with
  | none => simp
  | some t' =>
    cases f with
    | none => simp
    | some f =>
      cases g with
      | none => simp
      | some g =>
        dsimp only
        split_ifs
        · simp
        · rw [List.mem_flatMap]
          rintro ⟨j, -, hj⟩
          split_ifs at hj
          · exact not_mem_onlineEvents j (res j) hj
          · cases hj

theorem not_mem_cardOnlineEvents (slot cardType : ℤ) (res : OnlineRes) :
    .cbOffline t drv i info m ∉ cardOnlineEvents slot cardType res d := by
  unfold cardOnlineEvents
  cases checkSlot slot with
  | none => simp
  | some j =>
    cases checkType cardType with
    | none => simp
    | some t' =>
      dsimp only
      split_ifs
      · simp
      · exact not_mem_onlineEvents j res

/-- the calls of `pdm_unreg_online_offline_cb` -/
theorem mem_unregEvents {cardType : ℤ} : .cbOffline t drv i info m ∈ unregEvents cardType d ↔
    checkType cardType = some t ∧ (d.cardType t).cbOffline ≠ none ∧ (d.slot i).typeInfo = some t ∧
      drv = d.cardType t ∧ info = d.slot i ∧ m = d.masked i := by
  unfold unregEvents
  cases checkType cardType with
  | none => simp
  | some t' =>
    dsimp only
    cases hg : (d.cardType t').cbOffline with
    | none =>
      simp only [Option.some.injEq, ne_eq, List.not_mem_nil, false_iff, not_and]
      rintro rfl hne
      exact absurd hg hne
    | some g =>
      simp only [List.mem_map, List.mem_filter, List.mem_finRange, decide_eq_true_eq, true_and, Option.some.injEq,
        IrqEv.cbOffline.injEq]
      constructor
      · rintro ⟨j, hj, rfl, rfl, rfl, rfl, rfl⟩
        exact ⟨rfl, by simp [hg], hj, rfl, rfl, rfl⟩
      · rintro ⟨rfl, -, hj, rfl, rfl, rfl⟩
        exact ⟨i, hj, rfl, rfl, rfl, rfl, rfl⟩

/-- `pdm_card_offline` frees the interrupt before it calls `cb_offline` -/
theorem cardOfflineEvents_silent {slot : ℤ} (h : .cbOffline t drv i info m ∈ cardOfflineEvents slot d) :
    Silent i info m ∧ ((pdmCardOffline slot d).slot i).isr = none := by
  unfold cardOfflineEvents at h
  unfold pdmCardOffline
  cases hs : checkSlot slot with
  | none => simp [hs] at h
  | some j =>
    simp only [hs] at h ⊢
    cases hty : (d.slot j).typeInfo with
    | none => simp [hty] at h
    | some t' =>
      simp only [hty] at h ⊢
      have hslot := pdmFreeIrq_slot (pdmDisableInt slot d).2 slot j
      rw [if_pos hs] at hslot
      cases hg : ((pdmFreeIrq slot (pdmDisableInt slot d).2).cardType t').cbOffline with
      | none => simp [hg] at h
      | some g =>
        simp only [hg, List.cons_append, List.nil_append, List.mem_cons, reduceCtorEq, IrqEv.cbOffline.injEq,
          List.not_mem_nil, or_false, false_or] at h
        obtain ⟨rfl, rfl, rfl, rfl, rfl⟩ := h
        refine ⟨⟨by rw [hslot], by rw [hslot], fun hreg => pdmFreeIrq_masked _ hs hreg⟩, ?_⟩
        rw [DrvSt.setTypeInfo, setSlot_slot, if_pos rfl]
        show ((pdmFreeIrq slot (pdmDisableInt slot d).2).slot i).isr = none
        rw [hslot]

/-- a step calls `cb_offline` on silent interrupts iff it does not unregister a driver of cards with an interrupt -/
theorem offlineSilent_iff (s : IntSt) (op : IntOp) : op.OfflineSilent s ↔ op.UnregSilent s := by
  cases op with
  | table op =>
    cases op with
    | reg cardType f g vsn res =>
      exact iff_of_true (fun _ _ _ _ _ h => absurd h (not_mem_regEvents cardType f g res)) trivial
    | online slot cardType res =>
      exact iff_of_true (fun _ _ _ _ _ h => absurd h (not_mem_cardOnlineEvents slot cardType res)) trivial
    | offline slot =>
      refine iff_of_true ?_ trivial
      intro t drv i info m h
      obtain ⟨hsilent, hisr⟩ := cardOfflineEvents_silent h
      refine ⟨hsilent, ?_⟩
      intro s' hs'
      cases hs'
      exact hisr
    | unreg cardType =>
      constructor
      · intro h t i ht hoff hty
        exact (h t _ i _ _ (mem_unregEvents.2 ⟨ht, hoff, hty, rfl, rfl, rfl⟩)).1
      · intro h t drv i info m hev
        obtain ⟨ht, hoff, hty, rfl, rfl, rfl⟩ := mem_unregEvents.1 hev
        have hsilent := h t i ht hoff hty
        refine ⟨hsilent, ?_⟩
        intro s' hs'
        obtain ⟨d', hd', hs'⟩ := bind_eq_ok hs'
        cases hs'
        show (d'.slot i).isr = none
        rw [unreg_slot hd']
        exact hsilent.1
  | requestIrq slot isr arg =>
    exact iff_of_true (fun _ _ _ _ _ h => absurd h (not_mem_requestEvents slot isr arg)) trivial
  | freeIrq slot => exact iff_of_true (fun _ _ _ _ _ h => absurd h (not_mem_freeEvents slot)) trivial
  | enableInt | disableInt | handleSlotInt | slotIntHandler =>
    exact iff_of_true (fun _ _ _ _ _ h => absurd h List.not_mem_nil) trivial

end Offline

/-! ## The history and the calls -/

/-- the call that an event is about -/
def IrqEv.call : IrqEv → Option CbCall
  | cbOffline t drv i _ _ => some (.offline t drv i)
  | _ => none

def CbCall.isOffline : CbCall → Bool
  | offline .. => true
  | online .. => false

/-- the history has the calls of `cb_offline` that were made, in order -/
def CallsAgree (d : DrvSt) (h : List IrqEv) : Prop := h.filterMap IrqEv.call = d.calls.filter CbCall.isOffline

theorem CallsAgree.quiet {d e : DrvSt} {h : List IrqEv} (ha : CallsAgree d h) (evs : List IrqEv)
    (hcalls : e.calls = d.calls) (hev : ∀ t drv i info m, .cbOffline t drv i info m ∉ evs) :
    CallsAgree e (evs.reverse ++ h) := by
  have hnil : evs.reverse.filterMap IrqEv.call = [] := by
    rw [List.filterMap_eq_nil_iff]
    intro e he
    cases e with
    | cbOffline t drv i info m => exact absurd (List.mem_reverse.1 he) (hev t drv i info m)
    | _ => rfl
  rw [CallsAgree, List.filterMap_append, hnil, hcalls]
  exact ha

theorem CallsAgree.online {d e : DrvSt} {h : List IrqEv} (ha : CallsAgree d h) (evs : List IrqEv) (cs : List CbCall)
    (hcs : ∀ c ∈ cs, c.isOffline = false) (hcalls : e.calls = cs ++ d.calls)
    (hev : ∀ t drv i info m, .cbOffline t drv i info m ∉ evs) : CallsAgree e (evs.reverse ++ h) := by
  have hq : CallsAgree d (evs.reverse ++ h) := ha.quiet evs rfl hev
  have hnil : cs.filter CbCall.isOffline = [] := List.filter_eq_nil_iff.2 fun c hc => by simp [hcs c hc]
  rw [CallsAgree, hcalls, List.filter_append, hnil]
  exact hq

/-- a registration calls `cb_online` only -/
theorem reg_calls (cardType : ℤ) (f g : Option Ptr) (vsn : DrvVsnInfo) (res : SlotId → OnlineRes) (d : DrvSt) :
    ∃ cs : List CbCall, (∀ c ∈ cs, c.isOffline = false) ∧
      (pdmRegOnlineOfflineCb cardType f g vsn res d).2.calls = cs ++ d.calls := by
  unfold pdmRegOnlineOfflineCb
  cases checkType cardType with
  | none => exact ⟨[], by simp, rfl⟩
  | some t =>
    cases f with
    | none => exact ⟨[], by simp, rfl⟩
    | some f =>
      cases g with
      | none => exact ⟨[], by simp, rfl⟩
      | some g =>
        dsimp only
        split_ifs
        · exact ⟨[], by simp, rfl⟩
        · refine ⟨_, ?_, (regSlot_foldl t ⟨some f, some g⟩ res (List.finRange etinSlotMax) (0, d)).2⟩
          intro c hc
          obtain ⟨i, -, rfl⟩ := List.mem_map.1 hc
          rfl

/-- a card that comes on line has `cb_online` called at most -/
theorem cardOnline_calls (slot cardType : ℤ) (res : OnlineRes) (d : DrvSt) :
    ∃ cs : List CbCall, (∀ c ∈ cs, c.isOffline = false) ∧
      (pdmCardOnline slot cardType res d).2.calls = cs ++ d.calls := by
  unfold pdmCardOnline
  cases checkSlot slot with
  | none => exact ⟨[], by simp, rfl⟩
  | some i =>
    cases checkType cardType with
    | none => exact ⟨[], by simp, rfl⟩
    | some t =>
      by_cases hty : (d.slot i).typeInfo ≠ none
      · exact ⟨[], by simp, by simp [hty]⟩
      · have hcalls := (callOnline_spec t (d.cardType t) i res d).2
        cases hon : (d.cardType t).cbOnline with
        | none => exact ⟨[], by simp, by simp [hty, hon, DrvSt.setTypeInfo, DrvSt.setSlot]⟩
        | some f =>
          refine ⟨[.online t (d.cardType t) i res.ret], by simp [CbCall.isOffline], ?_⟩
          dsimp only
          rw [if_neg hty, hon]
          dsimp only
          split_ifs
          · exact hcalls
          · exact hcalls

theorem pdmEnableInt_calls (slot : ℤ) (d : DrvSt) : (pdmEnableInt slot d).2.calls = d.calls := by
  unfold pdmEnableInt
  cases checkSlot slot with
  | none => rfl
  | some i => exact (setIntReg_spec i false _).2

theorem unreg_calls {d d' : DrvSt} {h : List IrqEv} {cardType : ℤ} (ha : CallsAgree d h)
    (hd : pdmUnregOnlineOfflineCb cardType d = .ok d') : CallsAgree d' ((unregEvents cardType d).reverse ++ h) := by
  unfold pdmUnregOnlineOfflineCb at hd
  unfold unregEvents
  cases ht : checkType cardType with
  | none =>
    simp only [ht, Except.ok.injEq] at hd
    subst hd
    exact ha
  | some t =>
    simp only [ht] at hd
    dsimp only
    cases hg : (d.cardType t).cbOffline with
    | none =>
      -- no round of the loop returned from a call
      have hcalls : d'.calls = d.calls := by
        refine foldlM_done (I := fun _ x => x.calls = d.calls) ?_ rfl hd
        intro _ i _ u v _ hu hv
        unfold unregSlot at hv
        split_ifs at hv
        · simp [hg] at hv
        · simp only [Except.ok.injEq] at hv
          subst hv
          exact hu
      exact ha.quiet [] hcalls (by simp)
    | some g =>
      rw [unregSlot_foldlM t hg] at hd
      simp only [Except.ok.injEq] at hd
      subst hd
      have hoff : ∀ js : List SlotId, (js.map fun i => CbCall.offline t (d.cardType t) i).filter CbCall.isOffline =
          js.map fun i => .offline t (d.cardType t) i := by
        intro js
        rw [List.filter_eq_self]
        intro c hc
        obtain ⟨i, -, rfl⟩ := List.mem_map.1 hc
        rfl
      rw [CallsAgree, List.filterMap_append, List.filter_append, hoff, ← List.map_reverse, List.filterMap_map, ha]
      exact congrArg (· ++ _) (congrFun List.filterMap_eq_map' _)

theorem offline_calls {d : DrvSt} {h : List IrqEv} (ha : CallsAgree d h) (slot : ℤ) :
    CallsAgree (pdmCardOffline slot d) ((cardOfflineEvents slot d).reverse ++ h) := by
  have hcalls := (pdmFreeIrq_spec slot (pdmDisableInt slot d).2).2.trans (pdmDisableInt_spec slot d).2
  unfold pdmCardOffline cardOfflineEvents
  cases checkSlot slot with
  | none => exact ha
  | some i =>
    dsimp only
    cases hty : (d.slot i).typeInfo with
    | none => exact ha
    | some t =>
      dsimp only
      cases hg : ((pdmFreeIrq slot (pdmDisableInt slot d).2).cardType t).cbOffline with
      | none => exact ha.quiet [.free i, .offline i] hcalls (by simp)
      | some g =>
        have hcons : ∀ cs : List CbCall, (CbCall.offline t
            ((pdmFreeIrq slot (pdmDisableInt slot d).2).cardType t) i :: cs).filter CbCall.isOffline =
            .offline t ((pdmFreeIrq slot (pdmDisableInt slot d).2).cardType t) i :: cs.filter CbCall.isOffline :=
          fun cs => List.filter_cons_of_pos rfl
        show _ = (CbCall.offline t _ i :: (pdmFreeIrq slot (pdmDisableInt slot d).2).calls).filter _
        rw [hcons, hcalls, ← ha]
        rfl

theorem handleSlotInt_calls (bits : SlotId → Bool) (s : IntSt) :
    (pdmHandleSlotInt bits s).2.drv.calls = s.drv.calls ∧ (pdmHandleSlotInt bits s).2.hist = s.hist := by
  unfold pdmHandleSlotInt
  generalize List.finRange etinSlotMax = js
  suffices hgen : ∀ x : ℤ × IntSt, (js.foldl (intSlot bits) x).2.drv.calls = x.2.drv.calls ∧
      (js.foldl (intSlot bits) x).2.hist = x.2.hist from hgen (0, s)
  induction js with
  | nil => intro x; exact ⟨rfl, rfl⟩
  | cons j js ih =>
    intro x
    obtain ⟨hc, hh⟩ := ih (intSlot bits x j)
    rw [List.foldl_cons, hc, hh]
    unfold intSlot
    split_ifs
    · exact ⟨(setIntReg_spec j true x.2.drv).2, rfl⟩
    · exact ⟨rfl, rfl⟩

theorem slotIntHandler_calls (i : SlotId) (ret : ℤ) {s : IntSt} (ha : CallsAgree s.drv s.hist) :
    CallsAgree (slotIntHandler i ret s).drv (slotIntHandler i ret s).hist := by
  unfold slotIntHandler
  by_cases hen : (s.drv.slot i).intEnabled = true
  · rw [if_pos hen]
    cases (s.drv.slot i).isr with
    | none => exact ha
    | some f =>
      have hev : CallsAgree s.drv (.isr i f (s.drv.slot i).arg (s.drv.slot i) :: s.hist) := ha
      dsimp only
      split_ifs
      · exact hev.trans (congrArg _ (setIntReg_spec i false s.drv).2.symm)
      · exact hev
  · rw [if_neg hen]
    exact ha

theorem intStep_calls {s t : IntSt} {op : IntOp} (ha : CallsAgree s.drv s.hist) (hs : intStep s op = .ok t) :
    CallsAgree t.drv t.hist := by
  cases op with
  | table op =>
    obtain ⟨d, hd, hs⟩ := bind_eq_ok hs
    cases hs
    cases op with
    | reg cardType f g vsn res =>
      cases hd
      have hev : ∀ t drv i info m, .cbOffline t drv i info m ∉ regEvents cardType f g res s.drv :=
        fun _ _ _ _ _ => not_mem_regEvents cardType f g res
      obtain ⟨cs, hcs, hcalls⟩ := reg_calls cardType f g vsn res s.drv
      exact ha.online _ cs hcs hcalls hev
    | unreg cardType => exact unreg_calls ha hd
    | online slot cardType res =>
      cases hd
      have hev : ∀ t drv i info m, .cbOffline t drv i info m ∉ cardOnlineEvents slot cardType res s.drv :=
        fun _ _ _ _ _ => not_mem_cardOnlineEvents slot cardType res
      obtain ⟨cs, hcs, hcalls⟩ := cardOnline_calls slot cardType res s.drv
      exact ha.online _ cs hcs hcalls hev
    | offline slot => cases hd; exact offline_calls ha slot
  | requestIrq slot isr arg =>
    cases hs
    exact ha.quiet _ (pdmRequestIrq_spec slot isr arg s.drv).2 fun _ _ _ _ _ => not_mem_requestEvents slot isr arg
  | freeIrq slot =>
    cases hs
    exact ha.quiet _ (pdmFreeIrq_spec slot s.drv).2 fun _ _ _ _ _ => not_mem_freeEvents slot
  | enableInt slot => cases hs; exact ha.quiet [] (pdmEnableInt_calls slot s.drv) (by simp)
  | disableInt slot => cases hs; exact ha.quiet [] (pdmDisableInt_spec slot s.drv).2 (by simp)
  | handleSlotInt bits =>
    cases hs
    obtain ⟨hc, hh⟩ := handleSlotInt_calls bits s
    rw [CallsAgree, hc, hh]
    exact ha
  | slotIntHandler i idx ret =>
    cases hs
    split_ifs
    · exact slotIntHandler_calls i ret (s := s.setPending i idx false) ha
    · exact ha

/-- In every sequence of steps, the history of the interrupts has the calls of `cb_offline` that were made. -/
theorem calls_agree {masked : SlotId → Bool} {ops : List IntOp} {s : IntSt}
    (hs : runFrom intStep (IntSt.pdmCtorMngInfo masked) ops = .ok s) : CallsAgree s.drv s.hist := by
  have hinit : CallsAgree (DrvSt.pdmCtorMngInfo masked) [] := rfl
  exact runFrom_inv (I := fun s => CallsAgree s.drv s.hist) (P := fun _ => True)
    (fun _ _ _ _ ha hst => intStep_calls ha hst) (fun _ _ => trivial) hinit hs

/-! ## Results -/

/-- **No interrupt survives its driver, unless the driver is unregistered.** In a sequence of steps, every `cb_offline`
of a driver is called with no isr in the slot, its interrupt disabled and masked, and none is left after it, iff no
driver is unregistered while a slot with a card of its type has an isr, or its interrupt enabled or unmasked. -/
theorem offline_silent_iff (masked : SlotId → Bool) (ops : List IntOp) :
    Always intStep IntOp.OfflineSilent (IntSt.pdmCtorMngInfo masked) ops ↔
      Always intStep IntOp.UnregSilent (IntSt.pdmCtorMngInfo masked) ops :=
  always_iff (I := fun _ => True) (fun s op _ => offlineSilent_iff s op) (fun _ _ _ _ _ _ => trivial) trivial

/-- a driver requests the interrupt of its card and is unregistered: its isr stays registered -/
theorem unreg_keeps_isr : ∃ s, runFrom intStep (IntSt.pdmCtorMngInfo fun _ => true)
    [.table (.reg 1 (some 10) (some 11) ⟨none, none⟩ fun _ => ⟨0, none⟩), .table (.online 1 1 ⟨0, none⟩),
      .requestIrq 1 (some 20) (some 21), .enableInt 1, .table (.unreg 1)] = .ok s ∧
    (s.drv.slot 1).isr = some 20 ∧ s.drv.masked 1 = false ∧
    s.drv.calls = [.offline 1 ⟨some 10, some 11⟩ 1, .online 1 ⟨some 10, some 11⟩ 1 0] ∧
    ¬ Always intStep IntOp.OfflineSilent (IntSt.pdmCtorMngInfo fun _ => true)
      [.table (.reg 1 (some 10) (some 11) ⟨none, none⟩ fun _ => ⟨0, none⟩), .table (.online 1 1 ⟨0, none⟩),
        .requestIrq 1 (some 20) (some 21), .enableInt 1, .table (.unreg 1)] := by
  refine ⟨_, rfl, rfl, rfl, rfl, ?_⟩
  intro h
  have h := h.2.2.2.2.1 1 ⟨some 10, some 11⟩ 1 _ _ (List.mem_singleton.2 rfl)
  exact absurd h.1.1 (by decide)

end LinuxDrv.Driver
