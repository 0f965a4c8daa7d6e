/-
No interrupt is lost, and no isr is called without one (`pdm_handle_slot_int` and `slot_int_handler`).

An interrupt is masked and leaves nothing but a work item in the queue; the isr is called when the work runs. A slot has
two work items, which take turns. An interrupt whose work item is queued already adds nothing to the queue: the call of
the isr that is to come has to serve both.
- `intStep_pending`, `intStep_addsCall`: what a step does to the work items of a slot and to the calls of its isr.
- `irq_served`: once the work item of an interrupt has run, the isr was called after the interrupt; before that the work
  item is in the queue.
- `irq_caused`: in every run, the calls of an isr and the work in the queue are at most as many as the interrupts.
-/
import LinuxDrv.Driver.IrqSafe
import LinuxDrv.Core.Fifo

namespace LinuxDrv.Driver

open LinuxDrv.Core

/-- the event is a call of the isr of slot `i` -/
def IrqEv.isCall (i : SlotId) : IrqEv → Bool
  | isr j .. => decide (j = i)
  | _ => false

/-- the step finds an interrupt of slot `i` -/
def IntOp.interrupts (i : SlotId) : IntOp → Bool
  | handleSlotInt bits => hasIntBmp i && bits i
  | _ => false

/-- the step runs a work item, if it is in the queue -/
def IntOp.runs (i : SlotId) (idx : Bool) : IntOp → Bool
  | slotIntHandler j idx' _ => decide (j = i ∧ idx' = idx)
  | _ => false

/-- the work items of slot `i` that are in the queue -/
def IntSt.queued (i : SlotId) (s : IntSt) : ℕ := (s.pending i false).toNat + (s.pending i true).toNat

/-- the step calls the isr of slot `i` -/
def CallsAt (i : SlotId) (s : IntSt) (op : IntOp) : Prop :=
  (∃ idx, op.runs i idx = true ∧ s.pending i idx = true) ∧ (s.drv.slot i).intEnabled = true ∧ (s.drv.slot i).isr ≠ none

/-! ## Interrupts -/

section Interrupts

variable (bits : SlotId → Bool)

theorem intSlot_pending (x : ℤ × IntSt) (k j : SlotId) (idx : Bool) : (intSlot bits x k).2.pending j idx =
    if j = k ∧ (hasIntBmp k && bits k) = true ∧ idx = (x.2.drv.slot k).workIdx then true else x.2.pending j idx := by
  unfold intSlot
  by_cases hk : (hasIntBmp k && bits k) = true
  · rw [if_pos hk]
    dsimp only [IntSt.setPending]
    rw [setIntReg_slot]
    by_cases hj : j = k
    · subst hj
      by_cases hidx : idx = (x.2.drv.slot j).workIdx
      · simp [hk, hidx]
      · simp [hidx]
    · simp [hj]
  · rw [if_neg hk]
    simp [hk]

theorem intSlot_frame (x : ℤ × IntSt) (k : SlotId) : (intSlot bits x k).2.hist = x.2.hist ∧
    ∀ j, j ≠ k → (intSlot bits x k).2.drv.slot j = x.2.drv.slot j := by
  unfold intSlot
  by_cases hk : (hasIntBmp k && bits k) = true
  · rw [if_pos hk]
    refine ⟨rfl, fun j hj => ?_⟩
    dsimp only [IntSt.setPending]
    rw [setSlot_slot, if_neg hj, setIntReg_slot]
  · rw [if_neg hk]
    exact ⟨rfl, fun _ _ => rfl⟩

/-- the loop of `pdm_handle_slot_int` -/
theorem intSlot_foldl (js : List SlotId) (hjs : js.Nodup) (x : ℤ × IntSt) (j : SlotId) (idx : Bool) :
    (js.foldl (intSlot bits) x).2.hist = x.2.hist ∧
    (js.foldl (intSlot bits) x).2.pending j idx =
      if j ∈ js ∧ (hasIntBmp j && bits j) = true ∧ idx = (x.2.drv.slot j).workIdx then true else x.2.pending j idx := by
  induction js generalizing x with
  | nil => simp
  | cons k js ih =>
    obtain ⟨hk, hjs⟩ := List.nodup_cons.1 hjs
    obtain ⟨hhist, hslot⟩ := intSlot_frame bits x k
    obtain ⟨ihhist, ihpend⟩ := ih hjs (intSlot bits x k)
    rw [List.foldl_cons]
    refine ⟨ihhist.trans hhist, ?_⟩
    rw [ihpend, intSlot_pending]
    by_cases hj : j = k
    · subst hj
      simp [hk]
    · simp [hj, hslot j hj]

theorem handleSlotInt_pending (s : IntSt) (j : SlotId) (idx : Bool) : (pdmHandleSlotInt bits s).2.pending j idx =
    if (hasIntBmp j && bits j) = true ∧ idx = (s.drv.slot j).workIdx then true else s.pending j idx := by
  have h := (intSlot_foldl bits (List.finRange etinSlotMax) (List.nodup_finRange _) (0, s) j idx).2
  unfold pdmHandleSlotInt
  simpa using h

theorem handleSlotInt_hist (s : IntSt) : (pdmHandleSlotInt bits s).2.hist = s.hist :=
  (intSlot_foldl bits (List.finRange etinSlotMax) (List.nodup_finRange _) (0, s) 0 false).1

/-- an interrupt changes which work item is next, and nothing else of a slot -/
theorem handleSlotInt_slot (s : IntSt) (j : SlotId) :
    ∃ w, (pdmHandleSlotInt bits s).2.drv.slot j = { s.drv.slot j with workIdx := w } := by
  unfold pdmHandleSlotInt
  suffices hgen : ∀ (js : List SlotId) (x : ℤ × IntSt),
      ∃ w, (js.foldl (intSlot bits) x).2.drv.slot j = { x.2.drv.slot j with workIdx := w } from hgen _ (0, s)
  intro js
  induction js with
  | nil => exact fun x => ⟨(x.2.drv.slot j).workIdx, rfl⟩
  | cons k js ih =>
    intro x
    rw [List.foldl_cons]
    obtain ⟨w, hw⟩ := ih (intSlot bits x k)
    refine ⟨w, hw.trans ?_⟩
    by_cases hj : j = k
    · subst hj
      unfold intSlot
      split_ifs
      · simp [IntSt.setPending, setSlot_slot, setIntReg_slot]
      · rfl
    · rw [(intSlot_frame bits x k).2 j hj]

end Interrupts

/-! ## Steps -/

section Steps

variable {s t : IntSt} {op : IntOp} {i : SlotId}

/-- no function of the tables calls an isr -/
theorem requestEvents_isCall (slot : ℤ) (f arg : Option Ptr) (d : DrvSt) :
    ∀ e ∈ requestEvents slot f arg d, e.isCall i = false := by
  rcases pdmRequestIrq_cases d slot f arg with ⟨hev, -⟩ | ⟨k, g, -, -, -, -, hev, -⟩
  · simp [hev]
  · simp [hev, IrqEv.isCall]

theorem onlineEvents_isCall (k : SlotId) (res : OnlineRes) (d : DrvSt) :
    ∀ e ∈ onlineEvents k res d, e.isCall i = false := by
  unfold onlineEvents
  rcases res.irq with _ | x
  · simp
  · exact requestEvents_isCall (k : ℕ) (some x.1) x.2 d

theorem IntOp.events_isCall (d : DrvSt) (op : IntOp) : ∀ e ∈ op.events d, e.isCall i = false := by
  cases op with
  | table op =>
    cases op with
    | reg cardType f g vsn res =>
      simp only [IntOp.events, regEvents]
      split
      · split_ifs
        · simp
        · intro e he
          obtain ⟨k, -, hk⟩ := List.mem_flatMap.1 he
          split_ifs at hk
          · exact onlineEvents_isCall k (res k) d e hk
          · cases hk
      · simp
    | unreg cardType =>
      simp only [IntOp.events, unregEvents]
      split
      · simp
      · split
        · simp
        · intro e he
          obtain ⟨k, -, rfl⟩ := List.mem_map.1 he
          rfl
    | online slot cardType res =>
      simp only [IntOp.events, cardOnlineEvents]
      split
      · split_ifs
        · simp
        · exact onlineEvents_isCall _ res d
      · simp
    | offline slot =>
      simp only [IntOp.events, cardOfflineEvents]
      split
      · simp
      · split
        · simp [IrqEv.isCall]
        · split <;> simp [IrqEv.isCall]
  | requestIrq slot f arg => exact requestEvents_isCall slot f arg d
  | freeIrq slot =>
    simp only [IntOp.events, freeEvents]
    split <;> simp [IrqEv.isCall]
  | enableInt | disableInt | handleSlotInt | slotIntHandler => simp [IntOp.events]

/-- a work item runs -/
theorem slotIntHandler_spec (i : SlotId) (ret : ℤ) (s : IntSt) : (slotIntHandler i ret s).pending = s.pending ∧
    (((s.drv.slot i).intEnabled = true ∧ ∃ f, (s.drv.slot i).isr = some f ∧
      (slotIntHandler i ret s).hist = .isr i f (s.drv.slot i).arg (s.drv.slot i) :: s.hist) ∨
    (¬ ((s.drv.slot i).intEnabled = true ∧ (s.drv.slot i).isr ≠ none) ∧ (slotIntHandler i ret s).hist = s.hist)) := by
  unfold slotIntHandler
  by_cases hen : (s.drv.slot i).intEnabled = true
  · rw [if_pos hen]
    rcases hf : (s.drv.slot i).isr with _ | f
    · exact ⟨rfl, Or.inr ⟨by simp, rfl⟩⟩
    · dsimp only
      split_ifs
      · exact ⟨rfl, Or.inl ⟨hen, f, rfl, rfl⟩⟩
      · exact ⟨rfl, Or.inl ⟨hen, f, rfl, rfl⟩⟩
  · rw [if_neg hen]
    exact ⟨rfl, Or.inr ⟨fun h => hen h.1, rfl⟩⟩

/-- a work item comes into the queue by an interrupt, and leaves it by running -/
theorem intStep_pending (h : intStep s op = .ok t) (idx : Bool) : t.pending i idx =
    if op.interrupts i = true ∧ idx = (s.drv.slot i).workIdx then true
    else if op.runs i idx = true then false else s.pending i idx := by
  cases op with
  | table op =>
    obtain ⟨d, -, h⟩ := bind_eq_ok h
    cases h
    simp [IntOp.interrupts, IntOp.runs, IntSt.update]
  | requestIrq | freeIrq | enableInt | disableInt =>
    cases h
    simp [IntOp.interrupts, IntOp.runs, IntSt.update]
  | handleSlotInt bits =>
    cases h
    rw [handleSlotInt_pending]
    simp [IntOp.interrupts, IntOp.runs]
  | slotIntHandler k idx' ret =>
    cases h
    simp only [IntOp.interrupts, IntOp.runs, Bool.false_eq_true, false_and, ↓reduceIte, decide_eq_true_eq]
    by_cases hp : s.pending k idx' = true
    · rw [if_pos hp, (slotIntHandler_spec k ret _).1]
      dsimp only [IntSt.setPending]
      by_cases hk : k = i
      · subst hk
        by_cases hidx : idx' = idx
        · simp [hidx]
        · simp [hidx, Ne.symm hidx]
      · simp [hk, Ne.symm hk]
    · rw [if_neg hp]
      by_cases hk : k = i ∧ idx' = idx
      · rw [if_pos hk, ← hk.1, ← hk.2]
        exact Bool.eq_false_iff.2 hp
      · rw [if_neg hk]

/-- what a step adds to the history: the call of the isr of slot `i` if it calls it, and else no such call -/
structure AddsCall (i : SlotId) (s t : IntSt) (op : IntOp) : Prop where
  grow : s.hist <:+ t.hist
  call : (CallsAt i s op ∧ ∃ f, (s.drv.slot i).isr = some f ∧
      t.hist = .isr i f (s.drv.slot i).arg (s.drv.slot i) :: s.hist) ∨
    (¬ CallsAt i s op ∧ t.hist.countP (IrqEv.isCall i) = s.hist.countP (IrqEv.isCall i))

theorem update_addsCall (op : IntOp) (hop : ∀ idx, op.runs i idx = false) (d : DrvSt) :
    AddsCall i s (s.update d (op.events s.drv)) op := by
  refine ⟨List.suffix_append _ _, Or.inr ⟨?_, ?_⟩⟩
  · rintro ⟨⟨idx, hrun, -⟩, -⟩
    rw [hop idx] at hrun
    cases hrun
  · dsimp only [IntSt.update]
    rw [List.countP_append, List.countP_eq_zero.2, Nat.zero_add]
    intro e he
    rw [IntOp.events_isCall s.drv op e (List.mem_reverse.1 he)]
    exact Bool.false_ne_true

theorem runs_slotIntHandler {k : SlotId} {idx idx' : Bool} {ret : ℤ} :
    IntOp.runs i idx' (.slotIntHandler k idx ret) = true ↔ k = i ∧ idx = idx' :=
  decide_eq_true_iff

theorem work_addsCall {k : SlotId} {idx : Bool} (ret : ℤ) (hp : s.pending k idx = true) :
    AddsCall i s (slotIntHandler k ret (s.setPending k idx false)) (.slotIntHandler k idx ret) := by
  obtain ⟨-, ⟨hen, f, hf, hhist⟩ | ⟨hno, hhist⟩⟩ := slotIntHandler_spec k ret (s.setPending k idx false)
  · refine ⟨by rw [hhist]; exact List.suffix_cons _ _, ?_⟩
    rw [hhist]
    by_cases hk : k = i
    · subst hk
      have hisr : (s.drv.slot k).isr = some f := hf
      refine Or.inl ⟨⟨⟨idx, runs_slotIntHandler.2 ⟨rfl, rfl⟩, hp⟩, hen, ?_⟩, f, hisr, rfl⟩
      rw [hisr]
      exact Option.some_ne_none f
    · refine Or.inr ⟨?_, ?_⟩
      · rintro ⟨⟨idx', hrun, -⟩, -⟩
        exact hk (runs_slotIntHandler.1 hrun).1
      · simp [IrqEv.isCall, hk, IntSt.setPending]
  · -- the slot is disabled or has no isr
    refine ⟨by rw [hhist]; exact List.suffix_rfl, Or.inr ⟨?_, by rw [hhist]; rfl⟩⟩
    rintro ⟨⟨idx', hrun, -⟩, hcall⟩
    obtain ⟨rfl, -⟩ := runs_slotIntHandler.1 hrun
    exact hno hcall

theorem intStep_addsCall (h : intStep s op = .ok t) : AddsCall i s t op := by
  cases op with
  | table op =>
    obtain ⟨d, -, h⟩ := bind_eq_ok h
    cases h
    exact update_addsCall (.table op) (fun _ => rfl) d
  | requestIrq | freeIrq | enableInt | disableInt =>
    cases h
    exact update_addsCall _ (fun _ => rfl) _
  | handleSlotInt bits =>
    cases h
    have hhist := handleSlotInt_hist bits s
    refine ⟨by rw [hhist], Or.inr ⟨?_, by rw [hhist]⟩⟩
    simp [CallsAt, IntOp.runs]
  | slotIntHandler k idx ret =>
    cases h
    by_cases hp : s.pending k idx = true
    · rw [if_pos hp]
      exact work_addsCall ret hp
    · rw [if_neg hp]
      refine ⟨List.suffix_rfl, Or.inr ⟨?_, rfl⟩⟩
      rintro ⟨⟨idx', hrun, hp'⟩, -⟩
      obtain ⟨rfl, rfl⟩ := runs_slotIntHandler.1 hrun
      exact hp hp'

end Steps

/-! ## No interrupt is lost -/

/-- the interrupt of the slot is enabled, for this isr and this argument -/
def Registered (i : SlotId) (f : Ptr) (arg : Option Ptr) (s : IntSt) : Prop :=
  (s.drv.slot i).intEnabled = true ∧ (s.drv.slot i).isr = some f ∧ (s.drv.slot i).arg = arg

instance (i : SlotId) (f : Ptr) (arg : Option Ptr) (s : IntSt) : Decidable (Registered i f arg s) :=
  inferInstanceAs (Decidable (_ ∧ _ ∧ _))

/-- the isr of the slot was called, with its argument -/
def IsrCalled (i : SlotId) (f : Ptr) (arg : Option Ptr) (e : IrqEv) : Prop := ∃ info, e = .isr i f arg info

section Served

variable {s t : IntSt} {i : SlotId} {f : Ptr} {arg : Option Ptr} {idx : Bool} {h₀ : List IrqEv}

theorem run_hist {ops : List IntOp} (h : runFrom intStep s ops = .ok t) : s.hist <:+ t.hist :=
  runFrom_inv (P := fun _ => True) (I := fun t => s.hist <:+ t.hist)
    (fun _ _ _ _ hs hstep => hs.trans (intStep_addsCall (i := 0) hstep).grow) (fun _ _ => trivial) List.suffix_rfl h

/-- the work item is in the queue, or the isr was called since -/
theorem intStep_served {op : IntOp} (hreg : Registered i f arg s) (h : intStep s op = .ok t) (hsuf : h₀ <:+ s.hist)
    (hs : s.pending i idx = true ∨ Since h₀ (IsrCalled i f arg) s.hist) :
    (t.pending i idx = true ∨ Since h₀ (IsrCalled i f arg) t.hist) ∧
    (op.runs i idx = true → Since h₀ (IsrCalled i f arg) t.hist) := by
  obtain ⟨hen, hisr, harg⟩ := hreg
  obtain ⟨hgrow, hcalls⟩ := intStep_addsCall (i := i) h
  rcases hs with hp | hs
  · by_cases hrun : op.runs i idx = true
    · -- the work runs, and the isr is registered
      have hcall : CallsAt i s op := ⟨⟨idx, hrun, hp⟩, hen, by rw [hisr]; exact Option.some_ne_none f⟩
      obtain ⟨-, g, hg, hhist⟩ := hcalls.resolve_right fun hno => hno.1 hcall
      have hgf : g = f := Option.some.inj (hg.symm.trans hisr)
      have hsince : Since h₀ (IsrCalled i f arg) t.hist := by
        rw [hhist]
        exact Since.cons ⟨s.drv.slot i, by rw [hgf, harg]⟩ hsuf
      exact ⟨Or.inr hsince, fun _ => hsince⟩
    · refine ⟨Or.inl ?_, fun hx => absurd hx hrun⟩
      rw [intStep_pending h, if_neg hrun, hp, ite_self]
  · have hsince := hs.mono hgrow
    exact ⟨Or.inr hsince, fun _ => hsince⟩

theorem run_served {ops : List IntOp} (hreg : Always intStep (fun s _ => Registered i f arg s) s ops)
    (h : runFrom intStep s ops = .ok t) (hsuf : h₀ <:+ s.hist)
    (hs : s.pending i idx = true ∨ Since h₀ (IsrCalled i f arg) s.hist) :
    (t.pending i idx = true ∨ Since h₀ (IsrCalled i f arg) t.hist) ∧
    ((∃ op ∈ ops, op.runs i idx = true) → Since h₀ (IsrCalled i f arg) t.hist) := by
  induction ops generalizing s with
  | nil =>
    cases h
    refine ⟨hs, ?_⟩
    rintro ⟨op, hop, -⟩
    cases hop
  | cons op ops ih =>
    rw [runFrom_cons] at h
    obtain ⟨u, hu, h⟩ := bind_eq_ok h
    obtain ⟨hreg, hrest⟩ := hreg
    rw [hu] at hrest
    obtain ⟨hkeep, hnow⟩ := intStep_served hreg hu hsuf hs
    have hsuf' := hsuf.trans (intStep_addsCall (i := i) hu).grow
    obtain ⟨hend, hlater⟩ := ih hrest h hsuf' hkeep
    have hgrow := run_hist h
    refine ⟨hend, ?_⟩
    rintro ⟨op', hop', hrun⟩
    rcases List.mem_cons.1 hop' with rfl | hop'
    · exact (hnow hrun).mono hgrow
    · exact hlater ⟨op', hop', hrun⟩

/-- **No interrupt is lost.** An interrupt of ETIN_SLOT_SELF is found, and from there a run in which the interrupt stays
enabled for isr `f` with argument `arg`: its work item is in the queue, or `f` was called with `arg` after the
interrupt; and if the work item ran, `f` was called after the interrupt. This also holds of an interrupt that came
while the work item was in the queue for an earlier one. -/
theorem irq_served {u : IntSt} {bits : SlotId → Bool} {ops : List IntOp} (hi : hasIntBmp i = true)
    (hbit : bits i = true) (hint : intStep s (.handleSlotInt bits) = .ok t)
    (hreg : Always intStep (fun s _ => Registered i f arg s) t ops)
    (hrun : runFrom intStep t ops = .ok u) :
    (u.pending i (s.drv.slot i).workIdx = true ∨ Since s.hist (IsrCalled i f arg) u.hist) ∧
    ((∃ op ∈ ops, op.runs i (s.drv.slot i).workIdx = true) → Since s.hist (IsrCalled i f arg) u.hist) := by
  have hpend : t.pending i (s.drv.slot i).workIdx = true := by
    rw [intStep_pending hint, if_pos ⟨by simp [IntOp.interrupts, hi, hbit], rfl⟩]
  exact run_served hreg hrun (intStep_addsCall (i := i) hint).grow (Or.inl hpend)

end Served

/-- a third interrupt comes while both work items are in the queue: the first of them serves it -/
theorem irq_served_third : ∃ s t u,
    runFrom intStep (IntSt.pdmCtorMngInfo fun _ => true) [.table (.online 1 1 ⟨0, none⟩), .requestIrq 1 (some 10) none,
      .enableInt 1, .handleSlotInt fun _ => true, .handleSlotInt fun _ => true] = .ok s ∧
    intStep s (.handleSlotInt fun _ => true) = .ok t ∧ runFrom intStep t [.slotIntHandler 1 false 1] = .ok u ∧
    Since s.hist (IsrCalled 1 10 none) u.hist := by
  refine ⟨_, _, _, rfl, rfl, rfl, ?_⟩
  refine (irq_served (i := 1) (f := 10) (by decide) (show (fun _ : SlotId => true) 1 = true from rfl) rfl ?_
    (show runFrom intStep _ [.slotIntHandler 1 false 1] = .ok _ from rfl)).2 ⟨_, List.mem_singleton_self _, ?_⟩
  · decide +kernel
  · decide +kernel

/-! ## No isr is called without an interrupt -/

section Caused

variable {s t : IntSt} {i : SlotId}

/-- a step that runs a work item finds no interrupt, and leaves the other work item -/
theorem IntOp.runs_only {op : IntOp} {idx : Bool} (h : op.runs i idx = true) :
    op.interrupts i = false ∧ op.runs i (!idx) = false := by
  cases op with
  | slotIntHandler j idx' ret =>
    have hidx : j = i ∧ idx' = idx := of_decide_eq_true h
    refine ⟨rfl, ?_⟩
    simp [IntOp.runs, hidx.2]
  | table | requestIrq | freeIrq | enableInt | disableInt | handleSlotInt => cases h

/-- a step adds a call or a work item only if it finds an interrupt, or if a work item leaves the queue for a call -/
theorem intStep_caused {op : IntOp} (h : intStep s op = .ok t) :
    t.hist.countP (IrqEv.isCall i) + t.queued i ≤
      s.hist.countP (IrqEv.isCall i) + s.queued i + (op.interrupts i).toNat := by
  have hpend := fun idx => intStep_pending (i := i) h idx
  obtain ⟨-, ⟨⟨⟨idx, hrun, hp⟩, -⟩, f, -, hhist⟩ | ⟨-, hcount⟩⟩ := intStep_addsCall (i := i) h
  · -- the work item that calls the isr leaves the queue
    have hcount : t.hist.countP (IrqEv.isCall i) = s.hist.countP (IrqEv.isCall i) + 1 := by
      rw [hhist]
      simp [IrqEv.isCall]
    obtain ⟨hint, hother⟩ := IntOp.runs_only hrun
    have hleft : t.queued i + 1 = s.queued i := by
      unfold IntSt.queued
      rw [hpend false, hpend true]
      cases idx with
      | false =>
        rw [Bool.not_false] at hother
        simp [hint, hrun, hother, hp, Nat.add_comm]
      | true =>
        rw [Bool.not_true] at hother
        simp [hint, hrun, hother, hp]
    omega
  · rw [hcount]
    have hone : t.queued i ≤ s.queued i + (op.interrupts i).toNat := by
      unfold IntSt.queued
      rw [hpend false, hpend true]
      rcases hop : op.interrupts i with _ | _
      · simp only [Bool.false_eq_true, false_and, ↓reduceIte]
        split_ifs <;> simp
      · rcases (s.drv.slot i).workIdx with _ | _
        · simp only [true_and, Bool.true_eq_false, ↓reduceIte]
          have := (s.pending i false).toNat_le
          split_ifs <;> simp
          omega
        · simp only [true_and, Bool.false_eq_true, ↓reduceIte]
          split_ifs <;> simp
    omega

/-- **No isr is called without an interrupt.** In every run from the start of the driver, the calls of the isr of a slot
and the work items of the slot that are in the queue are together at most as many as the interrupts that were found. -/
theorem irq_caused (masked : SlotId → Bool) {ops : List IntOp} (i : SlotId)
    (h : runFrom intStep (IntSt.pdmCtorMngInfo masked) ops = .ok s) :
    s.hist.countP (IrqEv.isCall i) + s.queued i ≤ ops.countP (IntOp.interrupts i) := by
  suffices hgen : ∀ (ops : List IntOp) (s t : IntSt), runFrom intStep s ops = .ok t →
      t.hist.countP (IrqEv.isCall i) + t.queued i ≤
        s.hist.countP (IrqEv.isCall i) + s.queued i + ops.countP (IntOp.interrupts i) by
    have hrun := hgen ops _ s h
    simpa [IntSt.pdmCtorMngInfo, IntSt.queued] using hrun
  intro ops
  induction ops with
  | nil =>
    intro s t h
    cases h
    simp
  | cons op ops ih =>
    intro s t h
    rw [runFrom_cons] at h
    obtain ⟨u, hu, h⟩ := bind_eq_ok h
    have hrest := ih u t h
    have hfirst := intStep_caused (i := i) hu
    rw [List.countP_cons]
    rcases hop : op.interrupts i with _ | _
    · rw [hop] at hfirst
      simp at hfirst ⊢
      omega
    · rw [hop] at hfirst
      simp at hfirst ⊢
      omega

end Caused

/-- one interrupt, whose work item is run twice: one call -/
theorem irq_caused_once : ∃ s, runFrom intStep (IntSt.pdmCtorMngInfo fun _ => true) [.table (.online 1 1 ⟨0, none⟩),
      .requestIrq 1 (some 10) none, .enableInt 1, .handleSlotInt fun _ => true, .slotIntHandler 1 false 1,
      .slotIntHandler 1 false 1] = .ok s ∧ s.hist.countP (IrqEv.isCall 1) + s.queued 1 ≤ 1 := by
  have hrun : ∃ s, runFrom intStep (IntSt.pdmCtorMngInfo fun _ => true) [.table (.online 1 1 ⟨0, none⟩),
      .requestIrq 1 (some 10) none, .enableInt 1, .handleSlotInt fun _ => true, .slotIntHandler 1 false 1,
      .slotIntHandler 1 false 1] = .ok s := ⟨_, rfl⟩
  obtain ⟨s, hs⟩ := hrun
  exact ⟨s, hs, irq_caused (fun _ => true) 1 hs⟩

end LinuxDrv.Driver
