/-
`udf_online` that fails.

`udf_online` stores the base address of the card, makes a device instance, and calls `udf_bh_online`. A failure of the
second step takes the address back. A failure of the third is returned as it is: the address and the instance stay,
and `pdm_card_online` records no card. So nobody calls `udf_offline` for the slot, and the next `udf_online` finds it
taken. The contract of `cb_online` in `pdm_drv_ext.h` says that it has to clear by itself when it fails.
- `OnlineInv`: a slot with a base address has a card, of a type whose `cb_offline` is `udf_offline`.
- `udfOnline_cases`: a `udf_online` that does not come to `udf_bh_online` fails and leaves the tables.
- `online_clean_iff`: a failed attempt leaves no trace, and every slot without a card can be brought on line, iff no
  `udf_bh_online` fails.
- `wedged_run`: once one has, the slot is refused with -EEXIST, whatever happens.
-/
import LinuxDrv.Udf.DevSafe
import LinuxDrv.Driver.Ioctl

namespace LinuxDrv.Udf

open LinuxDrv.Core LinuxDrv.Driver

/-- `udf_main_init` gives an instance -/
def GivesInst (env : OnlineEnv) (s : DevSt) : Prop :=
  (ukcMalloc env.malloc s).isSome ∧ 0 ≤ env.cdevAdd ∧ env.deviceCreate = true

/-- a `udf_online` comes to `udf_bh_online` -/
def ComesToBh (slot : ℤ) (cardBaseAddr : Option Ptr) (env : OnlineEnv) (s : DevSt) : Prop :=
  (∃ i ∈ checkSlot slot, s.hwAddr i = none) ∧ cardBaseAddr ≠ none ∧ GivesInst env s

instance (env : OnlineEnv) (s : DevSt) : Decidable (GivesInst env s) := inferInstanceAs (Decidable (_ ∧ _ ∧ _))

instance (slot : ℤ) (cardBaseAddr : Option Ptr) (env : OnlineEnv) (s : DevSt) :
    Decidable (ComesToBh slot cardBaseAddr env s) :=
  inferInstanceAs (Decidable ((∃ i ∈ checkSlot slot, _) ∧ _ ∧ _))

/-! ## The properties of a step -/

/-- a `udf_online` that fails leaves both tables, the instances and their devices -/
def NoTrace (c : Cfg) (s : DevSt) : DevOp → Prop
  | .cardOnline slot cardType cardBaseAddr env => onlineCalls c slot cardType s.drv →
    ∀ ret t, udfOnline slot cardBaseAddr env s = .ok (ret, t) → ret < 0 →
      t.hwAddr = s.hwAddr ∧ t.devSet = s.devSet ∧ t.heap = s.heap ∧ t.cdev = s.cdev
  | _ => True

/-- an attempt whose steps all succeed brings a card of the driver on line, in every slot without a card -/
def Retryable (c : Cfg) (s : DevSt) : Prop :=
  ∀ (i : SlotId) (t : TypeId), (s.drv.slot i).typeInfo = none → (s.drv.cardType t).cbOnline = some c.udfOnline →
    ∀ (a : Ptr) (env : OnlineEnv), GivesInst env s → 0 ≤ env.bhOnline →
      ∃ u, cardOnline c (i : ℕ) (t : ℕ) (some a) env s = .ok u ∧ (u.drv.slot i).typeInfo = some t ∧
        u.hwAddr i = some a ∧ u.devSet i = ukcMalloc env.malloc s

/-- a failed attempt leaves no trace, and no slot is lost -/
def OnlineClean (c : Cfg) (s : DevSt) (op : DevOp) : Prop :=
  NoTrace c s op ∧ ∀ t, devStep c s op = .ok t → Retryable c t

/-- a `udf_bh_online` does not fail -/
def BhOk (c : Cfg) (s : DevSt) : DevOp → Prop
  | .cardOnline slot cardType cardBaseAddr env => onlineCalls c slot cardType s.drv →
    ComesToBh slot cardBaseAddr env s → 0 ≤ env.bhOnline
  | _ => True

/-! ## The invariant -/

structure OnlineInv (c : Cfg) (s : DevSt) : Prop where
  cdev : s.cdev = s.devSet
  hwAddr : ∀ i, s.hwAddr i = none → s.devSet i = none
  calls : ∀ t, (s.drv.cardType t).cbOnline = some c.udfOnline ↔ (s.drv.cardType t).cbOffline = some c.udfOffline
  owned : ∀ i, s.hwAddr i ≠ none → ∃ t ∈ (s.drv.slot i).typeInfo, (s.drv.cardType t).cbOffline = some c.udfOffline

section Online

variable {c : Cfg} {s : DevSt} {slot : ℤ} {cardBaseAddr : Option Ptr} {env : OnlineEnv}

/-- a `udf_main_init` that gives no instance leaves the devices -/
theorem mainInit_fails {i : SlotId} (hi : s.cdev i = none) (hno : ¬ GivesInst env s) :
    ∃ n, udfMainInit i env s = .ok (none, { s with insts := n }) := by
  rcases mainInit_cases hi env with hinit | hinit | ⟨p, hp, hinit⟩
  · exact ⟨s.insts, hinit⟩
  · exact ⟨s.insts + 1, hinit⟩
  · -- an instance comes from three steps that succeed
    refine absurd ?_ hno
    unfold udfMainInit at hinit
    rcases hm : ukcMalloc env.malloc s with _ | q
    · simp [hm] at hinit
    · have hq : s.heap q = none := ukcMalloc_eq_some hm
      simp only [hm] at hinit
      by_cases hadd : env.cdevAdd < 0
      · rw [if_pos hadd] at hinit
        simp [udfMainExit] at hinit
      · rw [if_neg hadd] at hinit
        by_cases hdev : env.deviceCreate = false
        · rw [if_pos hdev] at hinit
          simp [udfMainExit] at hinit
        · exact ⟨by rw [hm]; rfl, not_lt.1 hadd, by simpa using hdev⟩

theorem mainInit_gives {i : SlotId} (hgives : GivesInst env s) :
    ∃ p, ukcMalloc env.malloc s = some p ∧ s.heap p = none ∧ udfMainInit i env s = .ok (some p, { s with
      heap := Function.update s.heap p (some ⟨i, none, s.insts⟩)
      insts := s.insts + 1
      cdev := Function.update s.cdev i (some p) }) := by
  obtain ⟨hm, hadd, hdev⟩ := hgives
  obtain ⟨p, hp⟩ := Option.isSome_iff_exists.1 hm
  refine ⟨p, hp, ukcMalloc_eq_some hp, ?_⟩
  unfold udfMainInit
  simp only [hp]
  rw [if_neg (not_lt.2 hadd), if_neg (by rw [hdev]; decide)]

/-- a `udf_online` either does not come to `udf_bh_online`, fails and leaves the tables, or fills them and returns what
`udf_bh_online` does -/
theorem udfOnline_cases (h : OnlineInv c s) (slot : ℤ) (cardBaseAddr : Option Ptr) (env : OnlineEnv) :
    (¬ ComesToBh slot cardBaseAddr env s ∧
      ∃ ret n, udfOnline slot cardBaseAddr env s = .ok (ret, { s with insts := n }) ∧ ret < 0) ∨
    ∃ i a p, checkSlot slot = some i ∧ cardBaseAddr = some a ∧ s.hwAddr i = none ∧ GivesInst env s ∧
      ukcMalloc env.malloc s = some p ∧ udfOnline slot cardBaseAddr env s = .ok (env.bhOnline, { s with
        hwAddr := Function.update s.hwAddr i (some a)
        heap := Function.update s.heap p (some ⟨i, none, s.insts⟩)
        insts := s.insts + 1
        cdev := Function.update s.cdev i (some p)
        devSet := Function.update s.devSet i (some p) }) := by
  have hinval : -einval < 0 := by decide
  have hexist : -eexist < 0 := by decide
  have hnomem : -enomem < 0 := by decide
  unfold udfOnline
  rcases hslot : checkSlot slot with _ | i
  · refine Or.inl ⟨?_, -einval, s.insts, rfl, hinval⟩
    rintro ⟨⟨i, hi, -⟩, -⟩
    rw [hslot] at hi
    cases hi
  rcases cardBaseAddr with _ | a
  · exact Or.inl ⟨fun hcomes => hcomes.2.1 rfl, -einval, s.insts, rfl, hinval⟩
  dsimp only
  by_cases hhw : s.hwAddr i ≠ none
  · rw [if_pos hhw]
    refine Or.inl ⟨?_, -eexist, s.insts, rfl, hexist⟩
    rintro ⟨⟨j, hj, hnone⟩, -⟩
    rw [hslot, Option.mem_some_iff] at hj
    exact hhw (hj ▸ hnone)
  rw [if_neg hhw]
  rw [not_not] at hhw
  have hcdev : s.cdev i = none := h.cdev ▸ h.hwAddr i hhw
  -- on failure the base address is taken back
  have hback : Function.update (Function.update s.hwAddr i (some a)) i none = s.hwAddr := by
    rw [Function.update_idem, ← hhw]
    exact Function.update_eq_self i s.hwAddr
  by_cases hgives : GivesInst env { s with hwAddr := Function.update s.hwAddr i (some a) }
  · obtain ⟨p, hp, -, hinit⟩ :=
      mainInit_gives (s := { s with hwAddr := Function.update s.hwAddr i (some a) }) (i := i) hgives
    rw [hinit]
    exact Or.inr ⟨i, a, p, rfl, rfl, hhw, hgives, hp, rfl⟩
  · obtain ⟨n, hinit⟩ := mainInit_fails (s := { s with hwAddr := Function.update s.hwAddr i (some a) }) hcdev hgives
    rw [hinit]
    refine Or.inl ⟨fun hcomes => hgives hcomes.2.2, -enomem, n, ?_, hnomem⟩
    simp only [ok_bind, hback]

/-! ## What a step keeps -/

theorem OnlineInv.frame (h : OnlineInv c s) {t : DevSt} (hcdev : t.cdev = s.cdev) (hdevSet : t.devSet = s.devSet)
    (hhw : t.hwAddr = s.hwAddr) (hct : t.drv.cardType = s.drv.cardType)
    (hti : ∀ i, (t.drv.slot i).typeInfo = (s.drv.slot i).typeInfo) : OnlineInv c t := by
  refine ⟨by rw [hcdev, hdevSet, h.cdev], ?_, ?_, ?_⟩
  · rw [hhw, hdevSet]
    exact h.hwAddr
  · rw [hct]
    exact h.calls
  · intro i hi
    rw [hhw] at hi
    rw [hti i, hct]
    exact h.owned i hi

/-- `pdm_card_online` after a `udf_online` that left the tables -/
theorem OnlineInv.notOnline (h : OnlineInv c s) (slot cardType ret : ℤ) {n : ℕ} : OnlineInv c { s with
    insts := n
    drv := (pdmCardOnline slot cardType ⟨ret, none⟩ s.drv).2 } := by
  have hct := pdmCardOnline_cardType slot cardType ⟨ret, none⟩ s.drv
  refine ⟨h.cdev, h.hwAddr, by rw [hct]; exact h.calls, fun i hi => ?_⟩
  obtain ⟨t, ht, hoff⟩ := h.owned i hi
  refine ⟨t, ?_, by rw [hct]; exact hoff⟩
  rcases pdmCardOnline_typeInfo slot cardType ret s.drv i with hsame | ⟨t', -, -, hnone, -⟩
  · rw [hsame]
    exact ht
  · rw [hnone] at ht
    cases ht

/-- `pdm_card_online` after a `udf_online` that filled the tables -/
theorem OnlineInv.online (h : OnlineInv c s) {i : SlotId} {a p : Ptr} {n : ℕ} {heap : Ptr → Option Inst}
    (hslot : checkSlot slot = some i) {cardType : ℤ} (hcalls : onlineCalls c slot cardType s.drv) {ret : ℤ}
    (hret : 0 ≤ ret) :
    OnlineInv c { s with
      hwAddr := Function.update s.hwAddr i (some a)
      heap := heap
      insts := n
      cdev := Function.update s.cdev i (some p)
      devSet := Function.update s.devSet i (some p)
      drv := (pdmCardOnline slot cardType ⟨ret, none⟩ s.drv).2 } := by
  obtain ⟨j, hj, t, ht, hnone, hon⟩ := hcalls
  have hji : j = i := Option.some.inj (hj.symm.trans hslot)
  subst hji
  have hct := pdmCardOnline_cardType slot cardType ⟨ret, none⟩ s.drv
  refine ⟨by rw [h.cdev], ?_, by rw [hct]; exact h.calls, ?_⟩
  · intro k hk
    by_cases hkj : k = j
    · subst hkj
      simp at hk
    · simp only [Function.update_of_ne hkj] at hk ⊢
      exact h.hwAddr k hk
  · intro k hk
    rw [hct]
    by_cases hkj : k = j
    · subst hkj
      -- the card is recorded with the type of the driver
      refine ⟨t, ?_, (h.calls t).1 hon⟩
      have hres : 0 ≤ (⟨ret, none⟩ : OnlineRes).ret := hret
      have hok := (online_ok ht hres hnone).2
      have hnum : slot = (k : ℕ) := checkSlot_eq_some hj
      rw [hnum]
      exact hok
    · simp only [Function.update_of_ne hkj] at hk
      obtain ⟨t', ht', hoff⟩ := h.owned k hk
      refine ⟨t', ?_, hoff⟩
      have hother : checkSlot slot ≠ some k := fun he => hkj (Option.some.inj (he.symm.trans hj))
      rw [online_other hother]
      exact ht'

theorem OnlineInv.retryable (h : OnlineInv c s) : Retryable c s := by
  intro i t hnone hon a env hgives hbh
  have hhw : s.hwAddr i = none := by
    by_contra hne
    obtain ⟨t', ht', -⟩ := h.owned i hne
    rw [hnone] at ht'
    cases ht'
  have hcalls : onlineCalls c (i : ℕ) (t : ℕ) s.drv :=
    ⟨i, checkSlot_coe i, t, checkType_coe t, hnone, hon⟩
  unfold cardOnline
  rw [if_pos hcalls]
  rcases udfOnline_cases h (i : ℕ) (some a) env with ⟨hno, -⟩ | ⟨j, a', p, hj, ha, -, -, hp, honline⟩
  · exact absurd ⟨⟨i, checkSlot_coe i, hhw⟩, Option.some_ne_none a, hgives⟩ hno
  rw [checkSlot_coe, Option.some.injEq] at hj
  rw [Option.some.injEq] at ha
  subst hj ha
  rw [honline]
  refine ⟨_, rfl, ?_, Function.update_self .., ?_⟩
  · have hres : 0 ≤ (⟨env.bhOnline, none⟩ : OnlineRes).ret := hbh
    exact (online_ok (checkType_coe t) hres hnone).2
  · exact (Function.update_self ..).trans hp.symm

/-! ## The functions -/

theorem cardOnline_online (h : OnlineInv c s) {cardType : ℤ}
    (hbh : BhOk c s (.cardOnline slot cardType cardBaseAddr env)) :
    ∃ t, cardOnline c slot cardType cardBaseAddr env s = .ok t ∧ OnlineInv c t := by
  unfold cardOnline
  by_cases hcalls : onlineCalls c slot cardType s.drv
  · rw [if_pos hcalls]
    rcases udfOnline_cases h slot cardBaseAddr env with ⟨-, ret, n, honline, -⟩ |
      ⟨i, a, p, hslot, ha, hhw, hgives, -, honline⟩
    · rw [honline]
      exact ⟨_, rfl, h.notOnline slot cardType ret⟩
    · rw [honline]
      have hcomes : ComesToBh slot cardBaseAddr env s :=
        ⟨⟨i, hslot, hhw⟩, by rw [ha]; exact Option.some_ne_none a, hgives⟩
      exact ⟨_, rfl, h.online hslot hcalls (hbh hcalls hcomes)⟩
  · rw [if_neg hcalls]
    exact ⟨_, rfl, h.notOnline slot cardType 0⟩

theorem mainExit_eq {i : SlotId} {p : Ptr} {t : DevSt} (hexit : udfMainExit i p s = .ok t) : t = { s with
    cdev := Function.update s.cdev i (if s.cdev i = some p then none else s.cdev i)
    heap := Function.update s.heap p none } := by
  unfold udfMainExit at hexit
  rcases hp : s.heap p with _ | x
  · simp only [hp] at hexit
    cases hexit
  · simp only [hp] at hexit
    cases hexit
    rfl

/-- `udf_offline` of a slot leaves the other slots, and takes its base address and its instance -/
theorem udfOffline_frame {t : DevSt} {i : SlotId} (hslot : checkSlot slot = some i) (hoff : udfOffline slot s = .ok t) :
    t.hwAddr = Function.update s.hwAddr i none ∧ t.drv = s.drv ∧ (s.cdev = s.devSet →
      t.devSet = Function.update s.devSet i none ∧ t.cdev = Function.update s.cdev i none) := by
  unfold udfOffline at hoff
  simp only [hslot] at hoff
  rcases hi : s.devSet i with _ | p
  · simp only [hi, ok_bind] at hoff
    cases hoff
    refine ⟨rfl, rfl, fun hcdev => ?_⟩
    have hc : s.cdev i = none := hcdev ▸ hi
    exact ⟨by rw [← hi, Function.update_eq_self], by rw [← hc, Function.update_eq_self]⟩
  · simp only [hi] at hoff
    obtain ⟨u, hu, hoff⟩ := bind_eq_ok hoff
    rw [ok_bind] at hoff
    cases hoff
    have hexit := mainExit_eq hu
    subst hexit
    refine ⟨rfl, rfl, fun hcdev => ?_⟩
    have hc : s.cdev i = some p := hcdev ▸ hi
    exact ⟨rfl, by rw [if_pos hc]⟩

theorem cardOffline_online (h : OnlineInv c s) {t : DevSt} (hoff : cardOffline c slot s = .ok t) : OnlineInv c t := by
  have hct := pdmCardOffline_cardType slot s.drv
  have hti := offline_typeInfo slot s.drv
  unfold cardOffline at hoff
  by_cases hcalls : offlineCalls c slot s.drv
  · obtain ⟨i, hi, -⟩ := id hcalls
    dsimp only at hoff
    rw [if_pos hcalls] at hoff
    obtain ⟨hhw, hdrv, hboth⟩ := udfOffline_frame hi hoff
    obtain ⟨hdev, hcdev⟩ := hboth h.cdev
    dsimp only at hhw hdev hcdev hdrv
    refine ⟨by rw [hcdev, hdev, h.cdev], ?_, by rw [hdrv, hct]; exact h.calls, ?_⟩
    · intro j hj
      rw [hhw] at hj
      rw [hdev]
      by_cases hji : j = i
      · subst hji
        exact Function.update_self ..
      · rw [Function.update_of_ne hji] at hj ⊢
        exact h.hwAddr j hj
    · intro j hj
      rw [hhw] at hj
      have hji : j ≠ i := by
        rintro rfl
        exact hj (Function.update_self ..)
      rw [Function.update_of_ne hji] at hj
      rw [hdrv, hct, hti, if_neg fun he => hji (Option.some.inj (he.symm.trans hi))]
      exact h.owned j hj
  · dsimp only at hoff
    rw [if_neg hcalls] at hoff
    cases hoff
    refine ⟨h.cdev, h.hwAddr, by rw [hct]; exact h.calls, fun j hj => ?_⟩
    obtain ⟨t, ht, hcb⟩ := h.owned j hj
    refine ⟨t, ?_, by rw [hct]; exact hcb⟩
    have hother : checkSlot slot ≠ some j := fun hslot => hcalls ⟨j, hslot, t, ht, hcb⟩
    rw [hti, if_neg hother]
    exact ht

/-- `udf_open` leaves the tables -/
theorem udfOpen_frame {i : SlotId} {drvOpen : Bool} {x : ℤ × DevSt} (hopen : udfOpen c i drvOpen s = .ok x) :
    x.2.hwAddr = s.hwAddr ∧ x.2.devSet = s.devSet ∧ x.2.cdev = s.cdev ∧ x.2.drv.cardType = s.drv.cardType ∧
      ∀ j, (x.2.drv.slot j).typeInfo = (s.drv.slot j).typeInfo := by
  unfold udfOpen at hopen
  rcases hi : s.cdev i with _ | p
  · simp only [hi] at hopen
    cases hopen
    exact ⟨rfl, rfl, rfl, rfl, fun _ => rfl⟩
  rcases hp : s.heap p with _ | pDrv
  · simp only [hi, hp] at hopen
    cases hopen
  have hsame := (pdmRequestIrq_spec (pDrv.slot : ℕ) (some c.udfIsr) (some p) s.drv).1
  simp only [hi, hp] at hopen
  split_ifs at hopen
  · cases hopen
    exact ⟨rfl, rfl, rfl, rfl, fun _ => rfl⟩
  · cases hopen
    exact ⟨rfl, rfl, rfl, rfl, fun _ => rfl⟩
  · cases hopen
    exact ⟨rfl, rfl, rfl, hsame.cardType, hsame.typeInfo⟩
  · cases hopen
    exact ⟨rfl, rfl, rfl, hsame.cardType, hsame.typeInfo⟩

/-- so does `udf_release` -/
theorem udfRelease_frame {f : ℕ} {t : DevSt} (hrel : udfRelease f s = .ok t) :
    t.hwAddr = s.hwAddr ∧ t.devSet = s.devSet ∧ t.cdev = s.cdev ∧ t.drv.cardType = s.drv.cardType ∧
      ∀ j, (t.drv.slot j).typeInfo = (s.drv.slot j).typeInfo := by
  unfold udfRelease at hrel
  rcases hf : s.file f with _ | file
  · simp only [hf] at hrel
    cases hrel
    exact ⟨rfl, rfl, rfl, rfl, fun _ => rfl⟩
  rcases hp : s.heap file.privateData with _ | pDrv
  · simp only [hf, hp] at hrel
    cases hrel
  have hsame := (pdmFreeIrq_spec (pDrv.slot : ℕ) s.drv).1
  simp only [hf, hp] at hrel
  cases hrel
  exact ⟨rfl, rfl, rfl, hsame.cardType, hsame.typeInfo⟩

end Online

/-! ## Runs -/

section Runs

variable {c : Cfg} {s t : DevSt}

theorem devStep_online (h : OnlineInv c s) {op : DevOp} (hbh : BhOk c s op) (hstep : devStep c s op = .ok t) :
    OnlineInv c t := by
  cases op with
  | cardOnline slot cardType cardBaseAddr env =>
    obtain ⟨u, hu, hinv⟩ := cardOnline_online h hbh
    have hut : u = t := Except.ok.inj (hu.symm.trans hstep)
    exact hut ▸ hinv
  | cardOffline slot => exact cardOffline_online h hstep
  | udfOpen i drvOpen =>
    simp only [devStep] at hstep
    rcases hopen : udfOpen c i drvOpen s with e | x
    · rw [hopen] at hstep
      cases hstep
    · rw [hopen] at hstep
      cases hstep
      obtain ⟨hhw, hdev, hcdev, hct, hti⟩ := udfOpen_frame hopen
      exact h.frame hcdev hdev hhw hct hti
  | udfRelease f =>
    obtain ⟨hhw, hdev, hcdev, hct, hti⟩ := udfRelease_frame hstep
    exact h.frame hcdev hdev hhw hct hti

/-- the tables after the module was loaded -/
theorem load_online (c : Cfg) (masked : SlotId → Bool) : OnlineInv c (DevSt.load c masked) := by
  refine ⟨rfl, fun _ _ => rfl, fun t => ?_, fun i hi => absurd rfl hi⟩
  have hnone : ¬ (none : Option Ptr) = some c.udfOnline ∧ ¬ (none : Option Ptr) = some c.udfOffline := by simp
  by_cases hany : ∃ t', Accepts c.cardType (some c.udfOnline) (some c.udfOffline) (DrvSt.pdmCtorMngInfo masked) t'
  · obtain ⟨t', ht'⟩ := hany
    have htab : (DevSt.load c masked).drv.cardType =
        Function.update (fun _ => ⟨none, none⟩) t' ⟨some c.udfOnline, some c.udfOffline⟩ := reg_table ht'
    rw [htab]
    by_cases hne : t = t'
    · subst hne
      rw [Function.update_self]
      exact iff_of_true rfl rfl
    · rw [Function.update_of_ne hne]
      exact iff_of_false hnone.1 hnone.2
  · rw [not_exists] at hany
    have htab : (DevSt.load c masked).drv.cardType = fun _ => ⟨none, none⟩ :=
      congrArg DrvSt.cardType (reg_rejected hany).2
    rw [htab]
    exact iff_of_false hnone.1 hnone.2

/-- a `udf_bh_online` that fails leaves the base address -/
theorem bhOk_of_noTrace (h : OnlineInv c s) {op : DevOp} (htrace : NoTrace c s op) : BhOk c s op := by
  cases op with
  | cardOnline slot cardType cardBaseAddr env =>
    intro hcalls hcomes
    by_contra hneg
    rcases udfOnline_cases h slot cardBaseAddr env with ⟨hno, -⟩ | ⟨i, a, p, -, -, hhw, -, -, honline⟩
    · exact hno hcomes
    · have hback := (htrace hcalls _ _ honline (not_le.1 hneg)).1
      have hi := congrFun hback i
      simp only [Function.update_self] at hi
      rw [hhw] at hi
      cases hi
  | cardOffline | udfOpen | udfRelease => trivial

theorem noTrace_of_bhOk (h : OnlineInv c s) {op : DevOp} (hbh : BhOk c s op) : NoTrace c s op := by
  cases op with
  | cardOnline slot cardType cardBaseAddr env =>
    intro hcalls ret t hon hret
    rcases udfOnline_cases h slot cardBaseAddr env with
      ⟨-, ret', n, honline, -⟩ | ⟨i, a, p, hslot, ha, hhw, hgives, -, honline⟩
    · rw [honline] at hon
      cases hon
      exact ⟨rfl, rfl, rfl, rfl⟩
    · rw [honline] at hon
      cases hon
      have hcomes : ComesToBh slot cardBaseAddr env s :=
        ⟨⟨i, hslot, hhw⟩, by rw [ha]; exact Option.some_ne_none a, hgives⟩
      exact absurd hret (not_lt.2 (hbh hcalls hcomes))
  | cardOffline | udfOpen | udfRelease => trivial

/-- **A failed udf_online leaves no trace iff `udf_bh_online` does not fail.** In every run of cards that come and go,
opens and releases: every `udf_online` that fails leaves its tables, the instances and their devices, and after every
step every slot without a card can be brought on line by an attempt whose steps all succeed, iff no `udf_bh_online` that
a `udf_online` comes to fails. -/
theorem online_clean_iff (c : Cfg) (masked : SlotId → Bool) (ops : List DevOp) :
    Always (devStep c) (OnlineClean c) (DevSt.load c masked) ops ↔
      Always (devStep c) (BhOk c) (DevSt.load c masked) ops := by
  refine always_iff (I := OnlineInv c) (fun s op h => ?_) (fun s op t h hbh => devStep_online h hbh)
    (load_online c masked)
  constructor
  · rintro ⟨htrace, -⟩
    exact bhOk_of_noTrace h htrace
  · intro hbh
    exact ⟨noTrace_of_bhOk h hbh, fun t ht => (devStep_online h hbh ht).retryable⟩

/-! ## A slot that is lost -/

/-- the slot has a base address, and no card that an `udf_offline` will be called for -/
structure Wedged (c : Cfg) (i : SlotId) (s : DevSt) : Prop where
  calls : ∀ t, (s.drv.cardType t).cbOnline = some c.udfOnline ↔ (s.drv.cardType t).cbOffline = some c.udfOffline
  hwAddr : s.hwAddr i ≠ none
  typeInfo : ∀ t ∈ (s.drv.slot i).typeInfo, (s.drv.cardType t).cbOffline ≠ some c.udfOffline

theorem Wedged.frame {i : SlotId} (h : Wedged c i s) (hhw : t.hwAddr = s.hwAddr)
    (hct : t.drv.cardType = s.drv.cardType) (hti : (t.drv.slot i).typeInfo = (s.drv.slot i).typeInfo) :
    Wedged c i t := by
  refine ⟨by rw [hct]; exact h.calls, by rw [hhw]; exact h.hwAddr, ?_⟩
  rw [hti, hct]
  exact h.typeInfo

/-- `udf_main_init` leaves the base addresses and the tables of the pdm driver -/
theorem mainInit_frame {i : SlotId} {env : OnlineEnv} {x : Option Ptr × DevSt} (hinit : udfMainInit i env s = .ok x) :
    x.2.hwAddr = s.hwAddr ∧ x.2.drv = s.drv := by
  unfold udfMainInit at hinit
  rcases hm : ukcMalloc env.malloc s with _ | p
  · simp only [hm] at hinit
    cases hinit
    exact ⟨rfl, rfl⟩
  simp only [hm] at hinit
  split_ifs at hinit
  · obtain ⟨u, hu, hinit⟩ := bind_eq_ok hinit
    cases hinit
    have hexit := mainExit_eq hu
    subst hexit
    exact ⟨rfl, rfl⟩
  · obtain ⟨u, hu, hinit⟩ := bind_eq_ok hinit
    cases hinit
    have hexit := mainExit_eq hu
    subst hexit
    exact ⟨rfl, rfl⟩
  · cases hinit
    exact ⟨rfl, rfl⟩

/-- `udf_online` of a slot that is taken is refused -/
theorem udfOnline_taken {i : SlotId} (hi : s.hwAddr i ≠ none) (a : Ptr) (env : OnlineEnv) :
    udfOnline (i : ℕ) (some a) env s = .ok (-eexist, s) := by
  unfold udfOnline
  simp only [checkSlot_coe]
  exact if_pos hi

/-- `udf_online` leaves a slot that is taken -/
theorem udfOnline_frame {slot : ℤ} {a : Option Ptr} {env : OnlineEnv} {x : ℤ × DevSt}
    (hon : udfOnline slot a env s = .ok x) : x.2.drv = s.drv ∧
      ∀ i, s.hwAddr i ≠ none → x.2.hwAddr i ≠ none ∧ (checkSlot slot = some i → x.1 < 0) := by
  have hinval : -einval < 0 := by decide
  have hexist : -eexist < 0 := by decide
  unfold udfOnline at hon
  rcases hslot : checkSlot slot with _ | j
  · simp only [hslot] at hon
    cases hon
    exact ⟨rfl, fun i hi => ⟨hi, fun _ => hinval⟩⟩
  rcases a with _ | a
  · simp only [hslot] at hon
    cases hon
    exact ⟨rfl, fun i hi => ⟨hi, fun _ => hinval⟩⟩
  simp only [hslot] at hon
  by_cases hj : s.hwAddr j ≠ none
  · rw [if_pos hj] at hon
    cases hon
    exact ⟨rfl, fun i hi => ⟨hi, fun _ => hexist⟩⟩
  rw [if_neg hj] at hon
  obtain ⟨⟨p, u⟩, hinit, hon⟩ := bind_eq_ok hon
  obtain ⟨hhw, hdrv⟩ := mainInit_frame hinit
  dsimp only at hhw hdrv
  have hother : ∀ i, s.hwAddr i ≠ none → i ≠ j := by
    rintro i hi rfl
    exact hj hi
  cases p with
  | none =>
    cases hon
    refine ⟨hdrv, fun i hi => ⟨?_, fun he => absurd (Option.some.inj he).symm (hother i hi)⟩⟩
    simp only [hhw, Function.update_of_ne (hother i hi)]
    exact hi
  | some p =>
    cases hon
    refine ⟨hdrv, fun i hi => ⟨?_, fun he => absurd (Option.some.inj he).symm (hother i hi)⟩⟩
    simp only [hhw, Function.update_of_ne (hother i hi)]
    exact hi

/-- `pdm_card_online` leaves a slot lost, unless it records a card there whose `cb_offline` is `udf_offline` -/
theorem Wedged.pdmCardOnline {i : SlotId} {slot cardType ret : ℤ} (h : Wedged c i s) (hhw : t.hwAddr i ≠ none)
    (hdrv : t.drv = (pdmCardOnline slot cardType ⟨ret, none⟩ s.drv).2)
    (hother : ∀ k, checkSlot slot = some i → checkType cardType = some k → (s.drv.slot i).typeInfo = none →
      ((s.drv.cardType k).cbOnline ≠ none → 0 ≤ ret) → (s.drv.cardType k).cbOffline ≠ some c.udfOffline) :
    Wedged c i t := by
  refine ⟨?_, hhw, ?_⟩
  · rw [hdrv, pdmCardOnline_cardType]
    exact h.calls
  · rw [hdrv, pdmCardOnline_cardType]
    rcases pdmCardOnline_typeInfo slot cardType ret s.drv i with hsame | ⟨k, hslot, hk, hnone, hti, hret⟩
    · rw [hsame]
      exact h.typeInfo
    · rw [hti]
      intro k' hk'
      rw [Option.mem_some_iff] at hk'
      subst hk'
      exact hother k hslot hk hnone hret

theorem wedged_cardOnline {i : SlotId} (h : Wedged c i s) {slot cardType : ℤ} {cardBaseAddr : Option Ptr}
    {env : OnlineEnv} (hstep : devStep c s (.cardOnline slot cardType cardBaseAddr env) = .ok t) : Wedged c i t := by
  simp only [devStep, cardOnline] at hstep
  by_cases hcalls : onlineCalls c slot cardType s.drv
  · rw [if_pos hcalls] at hstep
    obtain ⟨⟨ret, u⟩, hon, hstep⟩ := bind_eq_ok hstep
    cases hstep
    obtain ⟨hdrv, htaken⟩ := udfOnline_frame hon
    dsimp only at hdrv htaken
    refine h.pdmCardOnline (htaken i h.hwAddr).1 (by dsimp only; rw [hdrv]) fun k hslot hk _ hret => ?_
    -- the slot was refused
    obtain ⟨j, hj, k', hk', -, hcb⟩ := hcalls
    have hkk : k' = k := Option.some.inj (hk'.symm.trans hk)
    have hneg := (htaken i h.hwAddr).2 hslot
    exact absurd (hret (by rw [← hkk, hcb]; exact Option.some_ne_none _)) (not_le.2 hneg)
  · rw [if_neg hcalls] at hstep
    cases hstep
    -- a card of another driver, or of none
    exact h.pdmCardOnline h.hwAddr rfl fun k hslot hk hnone _ hoff =>
      hcalls ⟨i, hslot, k, hk, hnone, (h.calls k).2 hoff⟩

theorem wedged_cardOffline {i : SlotId} (h : Wedged c i s) {slot : ℤ}
    (hstep : devStep c s (.cardOffline slot) = .ok t) : Wedged c i t := by
  have hct := pdmCardOffline_cardType slot s.drv
  have hti := offline_typeInfo slot s.drv
  simp only [devStep, cardOffline] at hstep
  have hnone : ∀ k ∈ ((pdmCardOffline slot s.drv).slot i).typeInfo,
      ((pdmCardOffline slot s.drv).cardType k).cbOffline ≠ some c.udfOffline := by
    rw [hti, hct]
    split_ifs
    · exact fun k hk => absurd hk (Option.not_mem_none k)
    · exact h.typeInfo
  by_cases hcalls : offlineCalls c slot s.drv
  · rw [if_pos hcalls] at hstep
    obtain ⟨j, hj, k, hk, hoff⟩ := hcalls
    have hij : i ≠ j := by
      rintro rfl
      exact h.typeInfo k hk hoff
    obtain ⟨hhw, hdrv, -⟩ := udfOffline_frame hj hstep
    refine ⟨by rw [hdrv]; dsimp only; rw [hct]; exact h.calls, ?_, by rw [hdrv]; exact hnone⟩
    rw [hhw, Function.update_of_ne hij]
    exact h.hwAddr
  · rw [if_neg hcalls] at hstep
    cases hstep
    exact ⟨by rw [hct]; exact h.calls, h.hwAddr, hnone⟩

/-- a step of the cards and files does not free a slot that is lost -/
theorem wedged_step {i : SlotId} (h : Wedged c i s) {op : DevOp} (hstep : devStep c s op = .ok t) : Wedged c i t := by
  cases op with
  | cardOnline slot cardType cardBaseAddr env => exact wedged_cardOnline h hstep
  | cardOffline slot => exact wedged_cardOffline h hstep
  | udfOpen j drvOpen =>
    simp only [devStep] at hstep
    rcases hopen : udfOpen c j drvOpen s with e | x
    · rw [hopen] at hstep
      cases hstep
    · rw [hopen] at hstep
      cases hstep
      obtain ⟨hhw, -, -, hct, hti⟩ := udfOpen_frame hopen
      exact h.frame hhw hct (hti i)
  | udfRelease f =>
    obtain ⟨hhw, -, -, hct, hti⟩ := udfRelease_frame hstep
    exact h.frame hhw hct (hti i)

/-- **A slot that is lost is refused for ever.** -/
theorem wedged_run {i : SlotId} (h : Wedged c i s) {ops : List DevOp} (hrun : runFrom (devStep c) s ops = .ok t)
    (a : Ptr) (env : OnlineEnv) : udfOnline (i : ℕ) (some a) env t = .ok (-eexist, t) := by
  have hlost : Wedged c i t := runFrom_inv (P := fun _ => True) (fun _ _ _ _ hs hstep => wedged_step hs hstep)
    (fun _ _ => trivial) h hrun
  exact udfOnline_taken hlost.hwAddr a env

end Runs

/-- `udf_bh_online` fails with -EINVAL for the first card of slot 1: no card is recorded, the address and the instance
stay, and in every run from there every `udf_online` of the slot is refused with -EEXIST -/
theorem online_wedges : let c : Cfg := ⟨1, 10, 11, 12, ⟨none, none⟩⟩
    let op : DevOp := .cardOnline 1 1 (some 1000) ⟨some 100, 0, true, -einval⟩
    ¬ Always (devStep c) (OnlineClean c) (DevSt.load c fun _ => true) [op] ∧
    ∃ s, devStep c (DevSt.load c fun _ => true) op = .ok s ∧ (s.drv.slot 1).typeInfo = none ∧
      s.devSet 1 = some 100 ∧ ∀ ops t, runFrom (devStep c) s ops = .ok t →
        ∀ a env, udfOnline 1 (some a) env t = .ok (-eexist, t) := by
  intro c op
  have hload := load_online c fun _ => true
  have hbad : ¬ BhOk c (DevSt.load c fun _ => true) op := fun hbh => absurd (hbh (by decide) (by decide)) (by decide)
  refine ⟨fun h => hbad (bhOk_of_noTrace hload h.1.1), _, rfl, by decide, by decide, ?_⟩
  intro ops t hrun a env
  exact wedged_run (i := 1) ⟨by decide, by decide, by decide⟩ hrun a env

end LinuxDrv.Udf
