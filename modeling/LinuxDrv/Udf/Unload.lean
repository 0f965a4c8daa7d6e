/-
The unloading of a card driver (`udf_drv_mod_exit` of the template).

A module is unloaded when no file of it is open. `udf_drv_mod_exit` takes the callbacks back, which calls `udf_offline`
for every slot with a card of the type, and prints an alert for every instance that is left then.
- `Loaded`: what every run keeps of the instances and of the slot interrupts: an instance is the one of its slot, and a
  slot with an interrupt has an open file on its instance.
- `run_lost_iff`: a run either has no `udf_bh_online` that fails, and then a slot with a base address has a card of the
  driver; or there is a slot that no `udf_offline` will be called for, and its instance stays.
- `unload_clean_iff`: so nothing of the module is left iff no `udf_bh_online` failed while it was loaded, and this is
  what the absence of alerts says.
-/
import LinuxDrv.Udf.Online

namespace LinuxDrv.Udf

open LinuxDrv.Core LinuxDrv.Driver

/-! ## Unloading -/

/-- what can stop `udf_drv_mod_exit` -/
inductive ExitFault where
  | drv (x : Fault)
  | dev (x : DevFault)
deriving DecidableEq

/-- one round of the loop of `pdm_unreg_online_offline_cb`, with the `udf_offline` it calls -/
def unregDev (c : Cfg) (t : TypeId) (drv : CardTypeInfo) (s : DevSt) (i : SlotId) : Except ExitFault DevSt := do
  let d ← (unregSlot t drv s.drv i).mapError .drv
  let s := { s with drv := d }
  if (s.drv.slot i).typeInfo = some t ∧ drv.cbOffline = some c.udfOffline then (udfOffline (i : ℕ) s).mapError .dev
  else .ok s

/-- `pdm_unreg_online_offline_cb`, with the `udf_offline` it calls -/
def unregOnlineOfflineCb (c : Cfg) (cardType : ℤ) (s : DevSt) : Except ExitFault DevSt :=
  match checkType cardType with
  | none => .ok s
  | some t =>
    (List.finRange etinSlotMax).foldlM (unregDev c t (s.drv.cardType t)) { s with drv := { s.drv with
      cardType := Function.update s.drv.cardType t ⟨none, none⟩
      vsn := Function.update s.drv.vsn t ⟨none, none⟩ } }

/-- the slots that `udf_drv_mod_exit` prints an alert for -/
def DevSt.alerts (s : DevSt) : List SlotId := (List.finRange etinSlotMax).filter fun i => decide (s.devSet i ≠ none)

/-- `udf_drv_mod_exit` of a module that is loaded, with its alerts -/
def DevSt.udfDrvModExit (c : Cfg) (s : DevSt) : Except ExitFault (List SlotId × DevSt) := do
  let s ← unregOnlineOfflineCb c c.cardType s
  .ok (s.alerts, s)

variable {c : Cfg} {s t : DevSt} {i : SlotId} {p : Ptr}

/-! ## Instances -/

/-- an instance is allocated iff it is the one of its slot, which has its device and a base address -/
structure Insts (s : DevSt) : Prop where
  cdev : s.cdev = s.devSet
  hwAddr : ∀ i, s.hwAddr i = none → s.devSet i = none
  devSet : ∀ i p, s.devSet i = some p → ∃ x, s.heap p = some x ∧ x.slot = i
  heap : ∀ p x, s.heap p = some x → s.devSet x.slot = some p

namespace Insts

/-- the tables are as they were -/
theorem frame (h : Insts s) (hcdev : t.cdev = s.cdev) (hdev : t.devSet = s.devSet) (hhw : t.hwAddr = s.hwAddr)
    (hheap : t.heap = s.heap) : Insts t :=
  ⟨by rw [hcdev, hdev, h.cdev], by rw [hhw, hdev]; exact h.hwAddr, by rw [hdev, hheap]; exact h.devSet,
    by rw [hdev, hheap]; exact h.heap⟩

/-- an instance gets other data -/
theorem setData (h : Insts s) {x y : Inst} (hx : s.heap p = some x) (hy : y.slot = x.slot) (hcdev : t.cdev = s.cdev)
    (hdev : t.devSet = s.devSet) (hhw : t.hwAddr = s.hwAddr) (hheap : t.heap = Function.update s.heap p (some y)) :
    Insts t := by
  refine ⟨by rw [hcdev, hdev, h.cdev], by rw [hhw, hdev]; exact h.hwAddr, fun i q hq => ?_, fun q z hz => ?_⟩
  · rw [hdev] at hq
    obtain ⟨z, hz, hzi⟩ := h.devSet i q hq
    rw [hheap]
    by_cases hqp : q = p
    · subst hqp
      obtain rfl : x = z := Option.some.inj (hx.symm.trans hz)
      exact ⟨y, Function.update_self .., hy.trans hzi⟩
    · exact ⟨z, (Function.update_of_ne hqp ..).trans hz, hzi⟩
  · rw [hheap] at hz
    rw [hdev]
    by_cases hqp : q = p
    · subst hqp
      rw [Function.update_self] at hz
      obtain rfl := Option.some.inj hz
      exact hy ▸ h.heap q x hx
    · rw [Function.update_of_ne hqp] at hz
      exact h.heap q z hz

/-- a slot gets an instance at an address that is not in use -/
theorem plugged (h : Insts s) (hp : s.heap p = none) (hi : s.devSet i = none) {x : Inst} (hx : x.slot = i)
    (hcdev : t.cdev = Function.update s.cdev i (some p)) (hdev : t.devSet = Function.update s.devSet i (some p))
    (hhw : t.hwAddr i ≠ none ∧ ∀ j, j ≠ i → t.hwAddr j = s.hwAddr j)
    (hheap : t.heap = Function.update s.heap p (some x)) : Insts t := by
  refine ⟨by rw [hcdev, hdev, h.cdev], fun j hj => ?_, fun j q hq => ?_, fun q y hy => ?_⟩
  · have hji : j ≠ i := by
      rintro rfl
      exact hhw.1 hj
    rw [hdev, Function.update_of_ne hji]
    exact h.hwAddr j ((hhw.2 j hji).symm.trans hj)
  · rw [hdev] at hq
    rw [hheap]
    by_cases hji : j = i
    · subst hji
      rw [Function.update_self] at hq
      obtain rfl := Option.some.inj hq
      exact ⟨x, Function.update_self .., hx⟩
    · rw [Function.update_of_ne hji] at hq
      obtain ⟨y, hy, hyj⟩ := h.devSet j q hq
      have hqp : q ≠ p := by
        rintro rfl
        rw [hp] at hy
        cases hy
      exact ⟨y, (Function.update_of_ne hqp ..).trans hy, hyj⟩
  · rw [hheap] at hy
    rw [hdev]
    by_cases hqp : q = p
    · subst hqp
      rw [Function.update_self] at hy
      obtain rfl := Option.some.inj hy
      rw [hx, Function.update_self]
    · rw [Function.update_of_ne hqp] at hy
      have hq := h.heap q y hy
      have hyi : y.slot ≠ i := fun he => by
        rw [he, hi] at hq
        cases hq
      rw [Function.update_of_ne hyi]
      exact hq

/-- the instance of a slot is freed -/
theorem unplugged (h : Insts s) (hcdev : t.cdev = Function.update s.cdev i none)
    (hdev : t.devSet = Function.update s.devSet i none) (hhw : t.hwAddr = Function.update s.hwAddr i none)
    (hheap : ∀ q x, t.heap q = some x ↔ s.heap q = some x ∧ x.slot ≠ i) : Insts t := by
  refine ⟨by rw [hcdev, hdev, h.cdev], fun j hj => ?_, fun j q hq => ?_, fun q y hy => ?_⟩
  · rw [hhw] at hj
    rw [hdev]
    by_cases hji : j = i
    · rw [hji, Function.update_self]
    · rw [Function.update_of_ne hji] at hj ⊢
      exact h.hwAddr j hj
  · rw [hdev] at hq
    have hji : j ≠ i := by
      rintro rfl
      rw [Function.update_self] at hq
      cases hq
    rw [Function.update_of_ne hji] at hq
    obtain ⟨y, hy, hyj⟩ := h.devSet j q hq
    exact ⟨y, (hheap q y).2 ⟨hy, by rwa [hyj]⟩, hyj⟩
  · obtain ⟨hy, hyi⟩ := (hheap q y).1 hy
    rw [hdev, Function.update_of_ne hyi]
    exact h.heap q y hy

end Insts

/-- the files and the tables of the pdm driver are as they were -/
structure SameFiles (s t : DevSt) : Prop where
  drv : t.drv = s.drv
  file : t.file = s.file
  opens : t.opens = s.opens

/-- `udf_offline` of a slot frees its instance and returns -/
theorem udfOffline_insts (h : Insts s) (i : SlotId) : ∃ t, udfOffline (i : ℕ) s = .ok t ∧ Insts t ∧ SameFiles s t ∧
    t.devSet = Function.update s.devSet i none ∧ t.hwAddr = Function.update s.hwAddr i none := by
  have hret : ∃ t, udfOffline (i : ℕ) s = .ok t ∧ SameFiles s t ∧
      ∀ q x, t.heap q = some x ↔ s.heap q = some x ∧ x.slot ≠ i := by
    unfold udfOffline
    rw [checkSlot_coe]
    dsimp only
    rcases hi : s.devSet i with _ | p
    · refine ⟨_, rfl, ⟨rfl, rfl, rfl⟩, fun q x => ⟨fun hx => ⟨hx, fun hxi => ?_⟩, And.left⟩⟩
      have := h.heap q x hx
      rw [hxi, hi] at this
      cases this
    · obtain ⟨x, hx, hxi⟩ := h.devSet i p hi
      simp only [udfMainExit, hx, ok_bind]
      refine ⟨_, rfl, ⟨rfl, rfl, rfl⟩, fun q y => ?_⟩
      dsimp only
      by_cases hqp : q = p
      · subst hqp
        rw [Function.update_self, hx]
        refine ⟨fun hy => (by cases hy), fun hy => absurd hxi ?_⟩
        rw [Option.some.inj hy.1]
        exact hy.2
      · rw [Function.update_of_ne hqp]
        refine ⟨fun hy => ⟨hy, fun hyi => hqp ?_⟩, And.left⟩
        have := h.heap q y hy
        rw [hyi, hi] at this
        exact (Option.some.inj this).symm
  obtain ⟨t, ht, hfiles, hheap⟩ := hret
  obtain ⟨hhw, -, hboth⟩ := udfOffline_frame (checkSlot_coe i) ht
  obtain ⟨hdev, hcdev⟩ := hboth h.cdev
  exact ⟨t, ht, h.unplugged hcdev hdev hhw hheap, hfiles, hdev, hhw⟩

/-- `udf_online` returns, and gives no slot with an instance another one -/
theorem udfOnline_insts (h : Insts s) (slot : ℤ) (cardBaseAddr : Option Ptr) (env : OnlineEnv) :
    ∃ x, udfOnline slot cardBaseAddr env s = .ok x ∧ Insts x.2 ∧ SameFiles s x.2 ∧
      ∀ i p, s.devSet i = some p → x.2.devSet i = some p := by
  unfold udfOnline
  rcases checkSlot slot with _ | i
  · exact ⟨_, rfl, h, ⟨rfl, rfl, rfl⟩, fun _ _ hp => hp⟩
  rcases cardBaseAddr with _ | a
  · exact ⟨_, rfl, h, ⟨rfl, rfl, rfl⟩, fun _ _ hp => hp⟩
  dsimp only
  by_cases hhw : s.hwAddr i ≠ none
  · rw [if_pos hhw]
    exact ⟨_, rfl, h, ⟨rfl, rfl, rfl⟩, fun _ _ hp => hp⟩
  rw [if_neg hhw]
  rw [not_not] at hhw
  have hdev : s.devSet i = none := h.hwAddr i hhw
  have hcdev : s.cdev i = none := h.cdev ▸ hdev
  have hback : Function.update (Function.update s.hwAddr i (some a)) i none = s.hwAddr := by
    rw [Function.update_idem, ← hhw]
    exact Function.update_eq_self i s.hwAddr
  rcases mainInit_cases (s := { s with hwAddr := Function.update s.hwAddr i (some a) }) hcdev env with
    hinit | hinit | ⟨p, hp, hinit⟩
  · rw [hinit]
    exact ⟨_, rfl, h.frame rfl rfl hback rfl, ⟨rfl, rfl, rfl⟩, fun _ _ hp => hp⟩
  · rw [hinit]
    exact ⟨_, rfl, h.frame rfl rfl hback rfl, ⟨rfl, rfl, rfl⟩, fun _ _ hp => hp⟩
  · rw [hinit]
    refine ⟨_, rfl, h.plugged (i := i) (p := p) (x := ⟨i, none, s.insts⟩) hp hdev rfl rfl rfl ⟨?_, fun j hj => ?_⟩ rfl,
      ⟨rfl, rfl, rfl⟩, fun j q hq => ?_⟩
    · dsimp only
      rw [Function.update_self]
      exact Option.some_ne_none a
    · exact Function.update_of_ne hj ..
    · have hji : j ≠ i := by
        rintro rfl
        rw [hdev] at hq
        cases hq
      exact (Function.update_of_ne hji ..).trans hq

/-! ## What every run keeps -/

/-- the callbacks of the card drivers: the module is registered for its type, and nobody else is -/
def registered (c : Cfg) (t : TypeId) : CardTypeInfo :=
  if checkType c.cardType = some t then ⟨some c.udfOnline, some c.udfOffline⟩ else ⟨none, none⟩

structure Loaded (c : Cfg) (s : DevSt) : Prop where
  insts : Insts s
  table : s.drv.cardType = registered c
  opens : ∀ f, s.opens ≤ f → s.file f = none
  /-- the interrupt of a slot was requested for a file that is open on its instance -/
  isr : ∀ i, (s.drv.slot i).isr ≠ none → ∃ f file, s.file f = some file ∧ s.devSet i = some file.privateData

theorem load_drv (c : Cfg) (masked : SlotId → Bool) : (DevSt.load c masked).drv.cardType = registered c ∧
    ∀ i, ((DevSt.load c masked).drv.slot i).isr = none := by
  show (pdmRegOnlineOfflineCb c.cardType (some c.udfOnline) (some c.udfOffline) c.vsn (fun _ => ⟨0, none⟩)
    (DrvSt.pdmCtorMngInfo masked)).2.cardType = _ ∧ ∀ i, ((pdmRegOnlineOfflineCb c.cardType (some c.udfOnline)
    (some c.udfOffline) c.vsn (fun _ => ⟨0, none⟩) (DrvSt.pdmCtorMngInfo masked)).2.slot i).isr = none
  unfold pdmRegOnlineOfflineCb
  rcases ht : checkType c.cardType with _ | t
  · refine ⟨funext fun k => ?_, fun _ => rfl⟩
    rw [registered, ht, if_neg (by simp)]
    rfl
  · -- no slot has a card, so no `cb_online` is called
    have hloop : (List.finRange etinSlotMax).foldl (regSlot t ⟨some c.udfOnline, some c.udfOffline⟩ fun _ => ⟨0, none⟩)
        (0, DrvSt.pdmCtorMngInfo masked) = (0, DrvSt.pdmCtorMngInfo masked) := List.foldl_fixed' (fun _ => rfl) _
    have hnone : ¬ (((DrvSt.pdmCtorMngInfo masked).cardType t).cbOnline ≠ none ∨
        ((DrvSt.pdmCtorMngInfo masked).cardType t).cbOffline ≠ none) := by simp [DrvSt.pdmCtorMngInfo]
    dsimp only
    rw [if_neg hnone, hloop]
    refine ⟨funext fun k => ?_, fun _ => rfl⟩
    rw [registered, ht]
    by_cases hkt : k = t
    · subst hkt
      rw [if_pos rfl]
      exact Function.update_self ..
    · rw [if_neg fun he => hkt (Option.some.inj he).symm]
      exact Function.update_of_ne hkt ..

theorem load_loaded (c : Cfg) (masked : SlotId → Bool) : Loaded c (DevSt.load c masked) where
  insts := ⟨rfl, fun _ _ => rfl, (fun _ _ h => nomatch h), fun _ _ h => nomatch h⟩
  table := (load_drv c masked).1
  opens := fun _ _ => rfl
  isr := fun i hi => absurd ((load_drv c masked).2 i) hi

theorem cardOnline_loaded (h : Loaded c s) {slot cardType : ℤ} {cardBaseAddr : Option Ptr} {env : OnlineEnv}
    (ht : cardOnline c slot cardType cardBaseAddr env s = .ok t) :
    Loaded c t ∧ ∀ i p, s.devSet i = some p → t.devSet i = some p := by
  -- `pdm_card_online` after an `udf_online` that gave no slot with an instance another one
  have hpdm : ∀ (ret : ℤ) (u : DevSt), Insts u → SameFiles s u → (∀ i p, s.devSet i = some p → u.devSet i = some p) →
      Loaded c { u with drv := (pdmCardOnline slot cardType ⟨ret, none⟩ u.drv).2 } := by
    intro ret u hu hfiles hkeep
    refine ⟨hu.frame rfl rfl rfl rfl, ?_, ?_, fun i hi => ?_⟩
    · show (pdmCardOnline slot cardType ⟨ret, none⟩ u.drv).2.cardType = _
      rw [pdmCardOnline_cardType, hfiles.drv]
      exact h.table
    · rw [hfiles.opens, hfiles.file]
      exact h.opens
    · rw [pdmCardOnline_isr, hfiles.drv] at hi
      obtain ⟨f, file, hf, hp⟩ := h.isr i hi
      exact ⟨f, file, by rw [hfiles.file]; exact hf, hkeep i _ hp⟩
  unfold cardOnline at ht
  by_cases hcalls : onlineCalls c slot cardType s.drv
  · rw [if_pos hcalls] at ht
    obtain ⟨x, hon, hu, hfiles, hkeep⟩ := udfOnline_insts h.insts slot cardBaseAddr env
    rw [hon] at ht
    cases ht
    exact ⟨hpdm x.1 x.2 hu hfiles hkeep, hkeep⟩
  · rw [if_neg hcalls] at ht
    cases ht
    exact ⟨hpdm 0 s h.insts ⟨rfl, rfl, rfl⟩ fun _ _ hp => hp, fun _ _ hp => hp⟩

theorem cardOffline_loaded (h : Loaded c s) {slot : ℤ} (ht : cardOffline c slot s = .ok t) :
    Loaded c t ∧ ∀ i p, (offlineCalls c slot s.drv → checkSlot slot ≠ some i) → s.devSet i = some p →
      t.devSet i = some p := by
  have htable : (pdmCardOffline slot s.drv).cardType = registered c :=
    (pdmCardOffline_cardType slot s.drv).trans h.table
  have hisr : ∀ i, ((pdmCardOffline slot s.drv).slot i).isr ≠ none →
      ¬ (checkSlot slot = some i ∧ (s.drv.slot i).typeInfo ≠ none) ∧ (s.drv.slot i).isr ≠ none := by
    intro i hi
    rw [pdmCardOffline_isr] at hi
    split_ifs at hi with hcard
    · exact absurd rfl hi
    · exact ⟨hcard, hi⟩
  unfold cardOffline at ht
  by_cases hcalls : offlineCalls c slot s.drv
  · obtain ⟨i, hslot, k, hk, -⟩ := id hcalls
    have hnum : slot = (i : ℕ) := checkSlot_eq_some hslot
    subst hnum
    dsimp only at ht
    rw [if_pos hcalls] at ht
    have hs : Insts { s with drv := pdmCardOffline (i : ℕ) s.drv, irqOwner := freedOwner (i : ℕ) s } :=
      h.insts.frame rfl rfl rfl rfl
    obtain ⟨t', ht', hinsts, hfiles, hdev, -⟩ := udfOffline_insts hs i
    rw [ht] at ht'
    cases ht'
    refine ⟨⟨hinsts, by rw [hfiles.drv]; exact htable, by rw [hfiles.opens, hfiles.file]; exact h.opens, ?_⟩, ?_⟩
    · intro j hj
      rw [hfiles.drv] at hj
      obtain ⟨hno, hj⟩ := hisr j hj
      have hji : j ≠ i := by
        rintro rfl
        exact hno ⟨hslot, by rw [hk]; exact Option.some_ne_none k⟩
      obtain ⟨f, file, hf, hp⟩ := h.isr j hj
      exact ⟨f, file, by rw [hfiles.file]; exact hf, by rw [hdev, Function.update_of_ne hji]; exact hp⟩
    · intro j p hj hp
      have hji : j ≠ i := by
        rintro rfl
        exact hj hcalls hslot
      rw [hdev, Function.update_of_ne hji]
      exact hp
  · dsimp only at ht
    rw [if_neg hcalls] at ht
    cases ht
    exact ⟨⟨h.insts.frame rfl rfl rfl rfl, htable, h.opens, fun j hj => h.isr j (hisr j hj).2⟩, fun _ _ _ hp => hp⟩

theorem udfOpen_loaded (h : Loaded c s) {i : SlotId} {drvOpen : Bool} {x : ℤ × DevSt}
    (hx : udfOpen c i drvOpen s = .ok x) : Loaded c x.2 := by
  unfold udfOpen at hx
  rcases hi : s.cdev i with _ | p
  · simp only [hi] at hx
    cases hx
    exact h
  have hdev : s.devSet i = some p := h.insts.cdev ▸ hi
  obtain ⟨y, hy, hyi⟩ := h.insts.devSet i p hdev
  simp only [hi, hy] at hx
  by_cases hdata : y.mPData ≠ none
  · rw [if_pos hdata] at hx
    cases hx
    exact h
  rw [if_neg hdata] at hx
  by_cases hopen : drvOpen = false
  · rw [if_pos hopen] at hx
    cases hx
    exact h
  rw [if_neg hopen] at hx
  rcases requestIrq_cases s.drv y.slot c.udfIsr (some p) with ⟨hret, hdrv⟩ | ⟨hret, hdrv⟩
  · rw [if_pos hret, hdrv] at hx
    cases hx
    exact h
  rw [if_neg hret, hdrv] at hx
  cases hx
  refine ⟨h.insts.setData (y := { y with mPData := some s.opens }) hy rfl rfl rfl rfl rfl, h.table, fun f hf => ?_,
    fun j hj => ?_⟩
  · dsimp only at hf ⊢
    rw [Function.update_of_ne (by omega)]
    exact h.opens f (by omega)
  · by_cases hji : j = i
    · subst hji
      exact ⟨s.opens, _, Function.update_self .., hdev⟩
    · have hold : (s.drv.slot j).isr ≠ none := by
        dsimp only at hj
        rwa [setSlot_slot, if_neg fun he => hji (he.trans hyi)] at hj
      obtain ⟨f, file, hf, hp⟩ := h.isr j hold
      have hfo : f ≠ s.opens := by
        rintro rfl
        rw [h.opens s.opens le_rfl] at hf
        cases hf
      exact ⟨f, file, (Function.update_of_ne hfo ..).trans hf, hp⟩

theorem udfRelease_loaded (h : Loaded c s) {f : ℕ} (ht : udfRelease f s = .ok t) : Loaded c t := by
  unfold udfRelease at ht
  rcases hf : s.file f with _ | file
  · simp only [hf] at ht
    cases ht
    exact h
  rcases hx : s.heap file.privateData with _ | x
  · simp only [hf, hx] at ht
    cases ht
  simp only [hf, hx] at ht
  cases ht
  refine ⟨h.insts.setData hx (y := { x with mPData := none }) rfl rfl rfl rfl rfl, ?_, fun g hg => ?_, fun j hj => ?_⟩
  · exact (pdmFreeIrq_spec (x.slot : ℕ) s.drv).1.cardType.trans h.table
  · by_cases hgf : g = f
    · exact hgf ▸ Function.update_self ..
    · exact (Function.update_of_ne hgf ..).trans (h.opens g hg)
  · have hj' : ((pdmFreeIrq (x.slot : ℕ) s.drv).slot j).isr ≠ none := hj
    rw [pdmFreeIrq_slot, checkSlot_coe] at hj'
    by_cases hjx : some x.slot = some j
    · rw [if_pos hjx] at hj'
      exact absurd rfl hj'
    rw [if_neg hjx] at hj'
    obtain ⟨g, file', hg, hp⟩ := h.isr j hj'
    -- another file, since the instance of this one is in another slot
    have hgf : g ≠ f := by
      rintro rfl
      rw [hf] at hg
      obtain rfl := Option.some.inj hg
      obtain ⟨y, hy, hyj⟩ := h.insts.devSet j _ hp
      rw [hx] at hy
      exact hjx (congrArg some ((congrArg Inst.slot (Option.some.inj hy)).trans hyj))
    exact ⟨g, file', (Function.update_of_ne hgf ..).trans hg, hp⟩

theorem devStep_loaded (h : Loaded c s) {op : DevOp} (hstep : devStep c s op = .ok t) : Loaded c t := by
  cases op with
  | cardOnline slot cardType cardBaseAddr env => exact (cardOnline_loaded h hstep).1
  | cardOffline slot => exact (cardOffline_loaded h hstep).1
  | udfOpen i drvOpen =>
    simp only [devStep] at hstep
    rcases hopen : udfOpen c i drvOpen s with e | x
    · rw [hopen] at hstep
      cases hstep
    · rw [hopen] at hstep
      cases hstep
      exact udfOpen_loaded h hopen
  | udfRelease f => exact udfRelease_loaded h hstep

/-! ## Slots that are lost -/

theorem offlineCalls_coe {d : DrvSt} : offlineCalls c (i : ℕ) d ↔
    ∃ k ∈ (d.slot i).typeInfo, (d.cardType k).cbOffline = some c.udfOffline := by
  simp [offlineCalls]

/-- the slot has an instance, and no card that an `udf_offline` will be called for -/
structure Lost (c : Cfg) (i : SlotId) (s : DevSt) : Prop where
  wedged : Wedged c i s
  devSet : s.devSet i ≠ none

theorem devStep_lost (h : Loaded c s) (hl : Lost c i s) {op : DevOp} (hstep : devStep c s op = .ok t) :
    Lost c i t := by
  refine ⟨wedged_step hl.wedged hstep, ?_⟩
  obtain ⟨p, hp⟩ := Option.ne_none_iff_exists'.1 hl.devSet
  have hsome : t.devSet i = some p → t.devSet i ≠ none := fun he => by
    rw [he]
    exact Option.some_ne_none p
  cases op with
  | cardOnline slot cardType cardBaseAddr env => exact hsome ((cardOnline_loaded h hstep).2 i p hp)
  | cardOffline slot =>
    refine hsome ((cardOffline_loaded h hstep).2 i p (fun hcalls hslot => ?_) hp)
    rw [checkSlot_eq_some hslot, offlineCalls_coe] at hcalls
    obtain ⟨k, hk, hoff⟩ := hcalls
    exact hl.wedged.typeInfo k hk hoff
  | udfOpen j drvOpen =>
    simp only [devStep] at hstep
    rcases hopen : udfOpen c j drvOpen s with e | x
    · rw [hopen] at hstep
      cases hstep
    · rw [hopen] at hstep
      cases hstep
      exact hsome ((congrFun (udfOpen_frame hopen).2.1 i).trans hp)
  | udfRelease f => exact hsome ((congrFun (udfRelease_frame hstep).2.1 i).trans hp)

/-- a `udf_bh_online` that fails loses the slot -/
theorem devStep_fails (h : OnlineInv c s) {op : DevOp} (hbh : ¬ BhOk c s op) (hstep : devStep c s op = .ok t) :
    ∃ i, Lost c i t := by
  cases op with
  | cardOnline slot cardType cardBaseAddr env =>
    obtain ⟨hcalls, hbh⟩ := Classical.not_imp.1 hbh
    obtain ⟨hcomes, hneg⟩ := Classical.not_imp.1 hbh
    rcases udfOnline_cases h slot cardBaseAddr env with ⟨hno, -⟩ | ⟨i, a, p, hslot, -, -, -, -, honline⟩
    · exact absurd hcomes hno
    have hstep' : cardOnline c slot cardType cardBaseAddr env s = .ok t := hstep
    unfold cardOnline at hstep'
    rw [if_pos hcalls, honline] at hstep'
    cases hstep'
    have htable := pdmCardOnline_cardType slot cardType ⟨env.bhOnline, none⟩ s.drv
    refine ⟨i, ⟨by dsimp only; rw [htable]; exact h.calls, ?_, fun k hk => ?_⟩, ?_⟩
    · dsimp only
      rw [Function.update_self]
      exact Option.some_ne_none a
    · -- the callback failed, so no card was recorded
      exfalso
      obtain ⟨j, hj, k', hk', hnone, hon⟩ := hcalls
      obtain rfl : j = i := Option.some.inj (hj.symm.trans hslot)
      rcases pdmCardOnline_typeInfo slot cardType env.bhOnline s.drv j with hsame | ⟨k'', -, hk'', -, -, hret⟩
      · dsimp only at hk
        rw [hsame, hnone] at hk
        cases hk
      · obtain rfl : k' = k'' := Option.some.inj (hk'.symm.trans hk'')
        exact absurd (hret (by rw [hon]; exact Option.some_ne_none _)) hneg
    · dsimp only
      rw [Function.update_self]
      exact Option.some_ne_none p
  | cardOffline | udfOpen | udfRelease => exact absurd trivial hbh

/-- in a run no `udf_bh_online` fails, or a slot is lost at the end -/
theorem run_lost {ops : List DevOp} (h : Loaded c s) (ho : OnlineInv c s)
    (hrun : runFrom (devStep c) s ops = .ok t) : (Always (devStep c) (BhOk c) s ops ∧ OnlineInv c t) ∨
      (¬ Always (devStep c) (BhOk c) s ops ∧ ∃ i, Lost c i t) := by
  induction ops generalizing s with
  | nil =>
    cases hrun
    exact Or.inl ⟨trivial, ho⟩
  | cons op ops ih =>
    rw [runFrom_cons] at hrun
    obtain ⟨u, hu, hrun⟩ := bind_eq_ok hrun
    have hloaded := devStep_loaded h hu
    rw [always_cons hu]
    by_cases hbh : BhOk c s op
    · rcases ih hloaded (devStep_online ho hbh hu) hrun with ⟨hall, ht⟩ | ⟨hall, ht⟩
      · exact Or.inl ⟨⟨hbh, hall⟩, ht⟩
      · exact Or.inr ⟨fun hx => hall hx.2, ht⟩
    · obtain ⟨i, hi⟩ := devStep_fails ho hbh hu
      have hend : Loaded c t ∧ Lost c i t := runFrom_inv (I := fun a => Loaded c a ∧ Lost c i a) (P := fun _ => True)
        (fun a op b _ ha hb => ⟨devStep_loaded ha.1 hb, devStep_lost ha.1 ha.2 hb⟩) (fun _ _ => trivial)
        ⟨hloaded, hi⟩ hrun
      exact Or.inr ⟨fun hx => hbh hx.1, i, hend.2⟩

/-! ## The end -/

/-- `udf_offline` was called for the slots of `done` that have a card of the driver -/
structure Swept (c : Cfg) (s : DevSt) (done : List SlotId) (u : DevSt) : Prop where
  insts : Insts u
  slot : u.drv.slot = s.drv.slot
  table : ∀ k, u.drv.cardType k = ⟨none, none⟩
  devSet : ∀ i, u.devSet i = if i ∈ done ∧ offlineCalls c (i : ℕ) s.drv then none else s.devSet i
  hwAddr : ∀ i, u.hwAddr i = if i ∈ done ∧ offlineCalls c (i : ℕ) s.drv then none else s.hwAddr i

/-- in the table of the pdm driver only the type of the module has callbacks -/
theorem registered_offline {k k' : TypeId} (hk : checkType c.cardType = some k) :
    (registered c k').cbOffline = some c.udfOffline ↔ k' = k := by
  unfold registered
  rw [hk]
  by_cases hkk : k' = k
  · subst hkk
    simp
  · rw [if_neg fun he => hkk (Option.some.inj he).symm]
    simp [hkk]

theorem Swept.round {k : TypeId} (h : Loaded c s) (hk : checkType c.cardType = some k) {done : List SlotId} {u : DevSt}
    (hu : Swept c s done u) (i : SlotId) : ∃ v, unregDev c k ⟨some c.udfOnline, some c.udfOffline⟩ u i = .ok v ∧
      Swept c s (done ++ [i]) v := by
  have hcalls : offlineCalls c (i : ℕ) s.drv ↔ (s.drv.slot i).typeInfo = some k := by
    rw [offlineCalls_coe, h.table]
    simp only [registered_offline hk, Option.mem_def, exists_eq_right]
  have hmem : ∀ j, j ≠ i → (j ∈ done ++ [i] ↔ j ∈ done) := fun j hj => by simp [hj]
  have hself : i ∈ done ++ [i] := List.mem_append_right _ (List.mem_singleton_self i)
  unfold unregDev unregSlot
  rw [hu.slot]
  by_cases hi : (s.drv.slot i).typeInfo = some k
  · have hinsts : Insts { u with drv := u.drv.call (.offline k ⟨some c.udfOnline, some c.udfOffline⟩ i) } :=
      hu.insts.frame rfl rfl rfl rfl
    obtain ⟨v, hv, hvinsts, hfiles, hdev, hhw⟩ := udfOffline_insts hinsts i
    rw [if_pos hi]
    refine ⟨v, ?_, hvinsts, ?_, ?_, fun j => ?_, fun j => ?_⟩
    · have hslot : ((u.drv.call (.offline k ⟨some c.udfOnline, some c.udfOffline⟩ i)).slot i).typeInfo = some k :=
        (congrArg (fun f => (f i).typeInfo) hu.slot).trans hi
      simp only [Except.mapError, ok_bind, hslot, true_and, ↓reduceIte, hv]
    · rw [hfiles.drv]
      exact hu.slot
    · rw [hfiles.drv]
      exact hu.table
    · rw [hdev]
      by_cases hji : j = i
      · subst hji
        rw [Function.update_self, if_pos ⟨hself, hcalls.2 hi⟩]
      · rw [Function.update_of_ne hji]
        simp only [hmem j hji]
        exact hu.devSet j
    · rw [hhw]
      by_cases hji : j = i
      · subst hji
        rw [Function.update_self, if_pos ⟨hself, hcalls.2 hi⟩]
      · rw [Function.update_of_ne hji]
        simp only [hmem j hji]
        exact hu.hwAddr j
  · rw [if_neg hi]
    have hno : ¬ ((u.drv.slot i).typeInfo = some k ∧ some c.udfOffline = some c.udfOffline) := by
      rw [hu.slot]
      exact fun he => hi he.1
    have hsame : ∀ j, (j ∈ done ++ [i] ∧ offlineCalls c (j : ℕ) s.drv) ↔ (j ∈ done ∧ offlineCalls c (j : ℕ) s.drv) := by
      intro j
      by_cases hji : j = i
      · subst hji
        exact iff_of_false (fun he => hi (hcalls.1 he.2)) fun he => hi (hcalls.1 he.2)
      · rw [hmem j hji]
    refine ⟨u, ?_, hu.insts, hu.slot, hu.table, fun j => ?_, fun j => ?_⟩
    · simp only [Except.mapError, ok_bind]
      rw [if_neg (by simpa using hno)]
    · simp only [hsame j]
      exact hu.devSet j
    · simp only [hsame j]
      exact hu.hwAddr j

/-- `pdm_unreg_online_offline_cb` calls `udf_offline` for the slots with a card of the driver -/
theorem unreg_swept (h : Loaded c s) : ∃ t, unregOnlineOfflineCb c c.cardType s = .ok t ∧
    Swept c s (List.finRange etinSlotMax) t := by
  unfold unregOnlineOfflineCb
  rcases hk : checkType c.cardType with _ | k
  · have hnone : ∀ k, registered c k = ⟨none, none⟩ := fun k => by
      rw [registered, hk, if_neg (by simp)]
    have hno : ∀ i : SlotId, ¬ offlineCalls c (i : ℕ) s.drv := by
      intro i hcalls
      obtain ⟨k, -, hoff⟩ := offlineCalls_coe.1 hcalls
      rw [h.table, hnone] at hoff
      cases hoff
    exact ⟨s, rfl, h.insts, rfl, fun k => (congrFun h.table k).trans (hnone k),
      fun i => (if_neg fun he => hno i he.2).symm, fun i => (if_neg fun he => hno i he.2).symm⟩
  · have hdrv : s.drv.cardType k = ⟨some c.udfOnline, some c.udfOffline⟩ := by
      rw [h.table, registered, if_pos hk]
    dsimp only
    rw [hdrv]
    refine foldlM_done_total (I := Swept c s) (fun done i _ u _ hu => hu.round h hk i)
      ⟨h.insts.frame rfl rfl rfl rfl, rfl, fun k' => ?_, fun i => ?_, fun i => ?_⟩
    · by_cases hkk : k' = k
      · subst hkk
        exact Function.update_self ..
      · refine (Function.update_of_ne hkk ..).trans ?_
        rw [h.table, registered, hk, if_neg fun he => hkk (Option.some.inj he).symm]
    · rw [if_neg fun he => List.not_mem_nil he.1]
    · rw [if_neg fun he => List.not_mem_nil he.1]

/-- nothing of the module is left -/
structure Unloaded (t : DevSt) : Prop where
  heap : ∀ p, t.heap p = none
  cdev : ∀ i, t.cdev i = none
  devSet : ∀ i, t.devSet i = none
  hwAddr : ∀ i, t.hwAddr i = none
  isr : ∀ i, (t.drv.slot i).isr = none
  table : ∀ k, t.drv.cardType k = ⟨none, none⟩

theorem mem_alerts : i ∈ s.alerts ↔ s.devSet i ≠ none := by simp [DevSt.alerts]

theorem alerts_eq_nil : s.alerts = [] ↔ ∀ i, s.devSet i = none := by
  rw [List.eq_nil_iff_forall_not_mem]
  exact forall_congr' fun i => mem_alerts.not.trans not_not

/-- an instance that is left is one of the alerts -/
theorem Insts.heap_iff (h : Insts s) (p : Ptr) : s.heap p ≠ none ↔ ∃ i ∈ s.alerts, s.devSet i = some p := by
  constructor
  · intro hp
    obtain ⟨x, hx⟩ := Option.ne_none_iff_exists'.1 hp
    have hdev := h.heap p x hx
    exact ⟨x.slot, mem_alerts.2 (by rw [hdev]; exact Option.some_ne_none p), hdev⟩
  · rintro ⟨i, -, hi⟩
    obtain ⟨x, hx, -⟩ := h.devSet i p hi
    rw [hx]
    exact Option.some_ne_none x

/-- **Unloading frees everything iff no `udf_bh_online` failed.** In every run of cards that come and go, opens and
releases after which no file of the module is open, `udf_drv_mod_exit` returns. It prints an alert for exactly the slots
whose instance is still allocated then. There is none, and nothing of the module is left, iff no `udf_bh_online` failed
while it was loaded. -/
theorem unload_clean_iff (c : Cfg) (masked : SlotId → Bool) {ops : List DevOp}
    (hrun : runFrom (devStep c) (DevSt.load c masked) ops = .ok s) (hfiles : ∀ f, s.file f = none) :
    ∃ t, s.udfDrvModExit c = .ok (t.alerts, t) ∧ (∀ p, t.heap p ≠ none ↔ ∃ i ∈ t.alerts, t.devSet i = some p) ∧
      (t.alerts = [] ↔ Always (devStep c) (BhOk c) (DevSt.load c masked) ops) ∧
      (Unloaded t ↔ Always (devStep c) (BhOk c) (DevSt.load c masked) ops) := by
  have hload := load_loaded c masked
  have hs : Loaded c s := runFrom_inv (I := Loaded c) (P := fun _ => True)
    (fun _ _ _ _ ha hb => devStep_loaded ha hb) (fun _ _ => trivial) hload hrun
  obtain ⟨t, ht, hswept⟩ := unreg_swept hs
  have hexit : s.udfDrvModExit c = .ok (t.alerts, t) := by
    unfold DevSt.udfDrvModExit
    rw [ht]
    rfl
  refine ⟨t, hexit, hswept.insts.heap_iff, ?_⟩
  rw [alerts_eq_nil]
  rcases run_lost hload (load_online c masked) hrun with ⟨hall, ho⟩ | ⟨hall, i, hi⟩
  · -- every slot that has a base address had a card of the driver
    have hhw : ∀ i, t.hwAddr i = none := by
      intro i
      rw [hswept.hwAddr]
      by_cases hi : s.hwAddr i = none
      · rw [hi, ite_self]
      · exact if_pos ⟨List.mem_finRange i, offlineCalls_coe.2 (ho.owned i hi)⟩
    have hdev : ∀ i, t.devSet i = none := fun i => hswept.insts.hwAddr i (hhw i)
    have hunloaded : Unloaded t := by
      refine ⟨fun p => ?_, fun i => hswept.insts.cdev ▸ hdev i, hdev, hhw, fun i => ?_, hswept.table⟩
      · by_contra hp
        obtain ⟨i, -, hi⟩ := (hswept.insts.heap_iff p).1 hp
        rw [hdev i] at hi
        cases hi
      · rw [hswept.slot]
        by_contra hisr
        obtain ⟨f, file, hf, -⟩ := hs.isr i hisr
        rw [hfiles f] at hf
        cases hf
    exact ⟨iff_of_true hdev hall, iff_of_true hunloaded hall⟩
  · -- the instance of a lost slot stays
    have hleft : t.devSet i ≠ none := by
      rw [hswept.devSet, if_neg]
      · exact hi.devSet
      · rintro ⟨-, hcalls⟩
        obtain ⟨k, hk, hoff⟩ := offlineCalls_coe.1 hcalls
        exact hi.wedged.typeInfo k hk hoff
    exact ⟨iff_of_false (fun hx => hleft (hx i)) hall, iff_of_false (fun hx => hleft (hx.devSet i)) hall⟩

/-- a card comes, is opened and closed: nothing is left. In another run `udf_bh_online` fails: the alert is printed. -/
theorem unload_clean_closed : let c : Cfg := ⟨1, 10, 11, 12, ⟨none, none⟩⟩
    let env : OnlineEnv := ⟨some 100, 0, true, 0⟩
    (∃ s t, runFrom (devStep c) (DevSt.load c fun _ => true) [.cardOnline 1 1 (some 1000) env, .udfOpen 1 true,
      .udfRelease 0] = .ok s ∧ s.udfDrvModExit c = .ok ([], t) ∧ Unloaded t) ∧
    ∃ s t, runFrom (devStep c) (DevSt.load c fun _ => true) [.cardOnline 1 1 (some 1000) { env with bhOnline := -1 }] =
      .ok s ∧ s.udfDrvModExit c = .ok ([1], t) ∧ t.heap 100 ≠ none := by
  intro c env
  have hrun : ∃ s, runFrom (devStep c) (DevSt.load c fun _ => true) [.cardOnline 1 1 (some 1000) env, .udfOpen 1 true,
      .udfRelease 0] = .ok s ∧
      s.file = Function.update (Function.update (fun _ => none) 0 (some ⟨100, 1, 0, 0⟩)) 0 none := ⟨_, rfl, rfl⟩
  refine ⟨?_, _, _, rfl, rfl, by decide⟩
  obtain ⟨s, hs, hfile⟩ := hrun
  have hfiles : ∀ f, s.file f = none := by
    intro f
    rw [hfile, Function.update_idem, Function.update_apply, ite_self]
  obtain ⟨t, ht, -, halerts, hend⟩ := unload_clean_iff c (fun _ => true) hs hfiles
  have hok : Always (devStep c) (BhOk c) (DevSt.load c fun _ => true) [.cardOnline 1 1 (some 1000) env, .udfOpen 1 true,
      .udfRelease 0] := ⟨fun _ _ => le_refl (0 : ℤ), trivial, trivial, trivial⟩
  exact ⟨s, t, hs, halerts.2 hok ▸ ht, hend.2 hok⟩

end LinuxDrv.Udf
