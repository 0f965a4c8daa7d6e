/-
A card driver with a fast path (`udf_dbh_ext.c` with `UDF_KDRV_SIFP_HDR_FILE_NAME`, and `slot_info_fast_path.c`).

`udf_bh_online` has the user of the template fill a `sifp_info_t` from the base address of the card (`udf_sifp_init`,
which is not in the repository, so it is any function here), and registers it for the slot; `udf_bh_offline` ends the
registration. The file of the fast path belongs to the pdm driver: it can be open when cards come and go.

A `SifpSt` is the instances of the driver with the table of the fast path. `calls` is history: no code reads it. It has
the call-backs that were called through the file, newest first.
- `udfOnline_dev`, `sifpStep_dev`: it runs as the model of the instances does, where `udf_bh_online` returns
  `sifpRet`.
- `FastPath`: the entry of ETIN_SLOT_SELF is what the card in the slot gave, and empty without a card.
- `fast_path_live`: so every call-back that is called through the file is one of the card that is on line.
- `SelfOnly`: `udf_bh_online` fails for any other slot, so no card of the driver is ever on line there.
-/
import LinuxDrv.Driver.Sifp
import LinuxDrv.Udf.Online

namespace LinuxDrv.Udf

open LinuxDrv.Core LinuxDrv.Driver

structure SifpSt where
  dev : DevSt
  /-- `slot_info` of the entries of `s_sifp_drv` -/
  slotInfo : SifpTable
  calls : List SifpCall

/-- the driver is loaded and nothing is registered for the fast path -/
def SifpSt.load (c : Cfg) (masked : SlotId → Bool) : SifpSt := ⟨DevSt.load c masked, fun _ => sNullInfo, []⟩

/-- `udf_get_slot_hw_base_addr` -/
def udfGetSlotHwBaseAddr (slot : ℤ) (s : DevSt) : Option Ptr := (checkSlot slot).bind s.hwAddr

section Functions

variable (udfSifpInit : Option Ptr → SifpInfo)

/-- `udf_bh_online` -/
def udfBhOnline (slot : ℤ) (s : SifpSt) : ℤ × SifpSt :=
  let x := sifpRegForOnline slot (udfSifpInit (udfGetSlotHwBaseAddr slot s.dev)) s.slotInfo
  (x.1, { s with slotInfo := x.2 })

/-- `udf_bh_offline` -/
def udfBhOffline (slot : ℤ) (s : SifpSt) : SifpSt := { s with slotInfo := sifpUnregForOffline slot s.slotInfo }

namespace SifpSt

/-- `udf_online` -/
def udfOnline (slot : ℤ) (cardBaseAddr : Option Ptr) (env : OnlineEnv) (s : SifpSt) : Except DevFault (ℤ × SifpSt) :=
  match checkSlot slot, cardBaseAddr with
  | some i, some a =>
    if s.dev.hwAddr i ≠ none then .ok (-eexist, s)
    else do
      let (p, d) ← udfMainInit i env { s.dev with hwAddr := Function.update s.dev.hwAddr i (some a) }
      match p with
      | none => .ok (-enomem, { s with dev := { d with hwAddr := Function.update d.hwAddr i none } })
      | some p => .ok (udfBhOnline udfSifpInit slot
          { s with dev := { d with devSet := Function.update d.devSet i (some p) } })
  | _, _ => .ok (-einval, s)

/-- `udf_offline` -/
def udfOffline (slot : ℤ) (s : SifpSt) : Except DevFault SifpSt :=
  match checkSlot slot with
  | none => .ok s
  | some _ => do
    let s := udfBhOffline slot s
    let d ← Udf.udfOffline slot s.dev
    .ok { s with dev := d }

/-- `pdm_card_online`, with the `udf_online` it calls -/
def cardOnline (c : Cfg) (slot cardType : ℤ) (cardBaseAddr : Option Ptr) (env : OnlineEnv) (s : SifpSt) :
    Except DevFault SifpSt := do
  let (ret, s) ← if onlineCalls c slot cardType s.dev.drv then udfOnline udfSifpInit slot cardBaseAddr env s
    else .ok (0, s)
  .ok { s with dev := { s.dev with drv := (pdmCardOnline slot cardType ⟨ret, none⟩ s.dev.drv).2 } }

/-- `pdm_card_offline`, with the `udf_offline` it calls -/
def cardOffline (c : Cfg) (slot : ℤ) (s : SifpSt) : Except DevFault SifpSt := do
  let s' := { s with dev := { s.dev with drv := pdmCardOffline slot s.dev.drv, irqOwner := freedOwner slot s.dev } }
  if offlineCalls c slot s.dev.drv then udfOffline slot s' else .ok s'

end SifpSt

/-! ## Runs -/

/-- cards come and go, and applications use the files of the card driver and of the fast path -/
inductive SifpOp where
  | dev (op : DevOp)
  | sifpRead (nBytes : ℕ) (pOff ret : ℤ)
  | sifpIoctl (cmd : BitVec 32) (op ret : ℤ)

/-- the call-backs that an operation calls -/
def SifpOp.calls (s : SifpSt) : SifpOp → List SifpCall
  | dev _ => []
  | sifpRead nBytes pOff ret => (sifpDrvRead (s.slotInfo 1) nBytes pOff ret).2
  | sifpIoctl cmd op ret => (sifpDrvIoctl (s.slotInfo 1) cmd op ret).2

def sifpStep (c : Cfg) (s : SifpSt) (op : SifpOp) : Except DevFault SifpSt :=
  match op with
  | .dev (.cardOnline slot cardType cardBaseAddr env) => s.cardOnline udfSifpInit c slot cardType cardBaseAddr env
  | .dev (.cardOffline slot) => s.cardOffline c slot
  | .dev op => do
    let d ← devStep c s.dev op
    .ok { s with dev := d }
  | op => .ok { s with calls := op.calls s ++ s.calls }

end Functions

/-! ## The instances run as before -/

/-- what `udf_bh_online` returns -/
def sifpRet (slot : ℤ) : ℤ := if checkSlot slot = some 1 then 0 else -einval

/-- the operation of the instances, where `udf_bh_online` returns that -/
def SifpOp.devOps : SifpOp → List DevOp
  | dev (.cardOnline slot cardType cardBaseAddr env) =>
    [.cardOnline slot cardType cardBaseAddr { env with bhOnline := sifpRet slot }]
  | dev op => [op]
  | sifpRead .. => []
  | sifpIoctl .. => []

section Refinement

variable {udfSifpInit : Option Ptr → SifpInfo} {c : Cfg} {s t : SifpSt} {slot : ℤ} {cardBaseAddr : Option Ptr}
  {env : OnlineEnv}

theorem udfBhOnline_spec (udfSifpInit : Option Ptr → SifpInfo) (slot : ℤ) (s : SifpSt) :
    (udfBhOnline udfSifpInit slot s).1 = sifpRet slot ∧ (udfBhOnline udfSifpInit slot s).2.dev = s.dev := by
  unfold udfBhOnline sifpRet
  by_cases hslot : checkSlot slot = some 1
  · rw [if_pos hslot, sifpTable_reg hslot]
    exact ⟨rfl, rfl⟩
  · rw [if_neg hslot, sifpTable_refused hslot]
    exact ⟨rfl, rfl⟩

/-- `udf_main_init` does not look at what `udf_bh_online` will return -/
theorem udfMainInit_bhOnline (i : SlotId) (env : OnlineEnv) (n : ℤ) (d : DevSt) :
    udfMainInit i { env with bhOnline := n } d = udfMainInit i env d := rfl

theorem udfOnline_dev {ret : ℤ} (h : s.udfOnline udfSifpInit slot cardBaseAddr env = .ok (ret, t)) :
    udfOnline slot cardBaseAddr { env with bhOnline := sifpRet slot } s.dev = .ok (ret, t.dev) := by
  unfold SifpSt.udfOnline at h
  unfold udfOnline
  rcases hslot : checkSlot slot with _ | i
  · simp only [hslot] at h
    cases h
    rfl
  rcases cardBaseAddr with _ | a
  · simp only [hslot] at h
    cases h
    rfl
  simp only [hslot] at h
  dsimp only
  by_cases hhw : s.dev.hwAddr i ≠ none
  · rw [if_pos hhw] at h ⊢
    cases h
    rfl
  rw [if_neg hhw] at h ⊢
  obtain ⟨⟨p, d⟩, hinit, h⟩ := bind_eq_ok h
  rw [udfMainInit_bhOnline, hinit, ok_bind]
  rcases p with _ | p
  · cases h
    rfl
  · have hspec := udfBhOnline_spec udfSifpInit slot
      { s with dev := { d with devSet := Function.update d.devSet i (some p) } }
    have hpair := Except.ok.inj h
    rw [hpair] at hspec
    exact congrArg Except.ok (Prod.ext hspec.1.symm hspec.2.symm)

theorem udfOffline_dev (h : s.udfOffline slot = .ok t) : Udf.udfOffline slot s.dev = .ok t.dev := by
  unfold SifpSt.udfOffline at h
  rcases hslot : checkSlot slot with _ | i
  · rw [hslot] at h
    cases h
    simp [Udf.udfOffline, hslot]
  · rw [hslot] at h
    obtain ⟨d, hd, h⟩ := bind_eq_ok h
    cases h
    exact hd

theorem cardOnline_dev {cardType : ℤ} (h : s.cardOnline udfSifpInit c slot cardType cardBaseAddr env = .ok t) :
    Udf.cardOnline c slot cardType cardBaseAddr { env with bhOnline := sifpRet slot } s.dev = .ok t.dev := by
  unfold SifpSt.cardOnline at h
  unfold Udf.cardOnline
  by_cases hcalls : onlineCalls c slot cardType s.dev.drv
  · rw [if_pos hcalls] at h ⊢
    obtain ⟨⟨ret, u⟩, hon, h⟩ := bind_eq_ok h
    cases h
    rw [udfOnline_dev hon]
    rfl
  · rw [if_neg hcalls] at h ⊢
    cases h
    rfl

theorem cardOffline_dev (h : s.cardOffline c slot = .ok t) : Udf.cardOffline c slot s.dev = .ok t.dev := by
  unfold SifpSt.cardOffline at h
  unfold Udf.cardOffline
  dsimp only at h ⊢
  by_cases hcalls : offlineCalls c slot s.dev.drv
  · rw [if_pos hcalls] at h ⊢
    exact udfOffline_dev h
  · rw [if_neg hcalls] at h ⊢
    cases h
    rfl

/-- **The fast path does not change what the instances do.** -/
theorem sifpStep_dev {op : SifpOp} (h : sifpStep udfSifpInit c s op = .ok t) :
    runFrom (devStep c) s.dev op.devOps = .ok t.dev := by
  have hone : ∀ {o : DevOp} {d : DevSt}, devStep c s.dev o = .ok d → runFrom (devStep c) s.dev [o] = .ok d := by
    intro o d hd
    rw [runFrom_cons, hd]
    rfl
  cases op with
  | dev op =>
    cases op with
    | cardOnline slot cardType cardBaseAddr env => exact hone (cardOnline_dev h)
    | cardOffline slot => exact hone (cardOffline_dev h)
    | udfOpen | udfRelease =>
      obtain ⟨d, hd, h⟩ := bind_eq_ok h
      cases h
      exact hone hd
  | sifpRead | sifpIoctl =>
    cases h
    rfl

end Refinement

/-! ## The entry of a card -/

/-- what the card of ETIN_SLOT_SELF registered -/
def liveInfo (udfSifpInit : Option Ptr → SifpInfo) (d : DevSt) : SifpInfo :=
  match d.hwAddr 1 with
  | some a => udfSifpInit (some a)
  | none => sNullInfo

/-- a card whose `cb_offline` is `udf_offline` is on line in slot `i` -/
def OnLine (c : Cfg) (i : SlotId) (d : DevSt) : Prop :=
  ∃ t ∈ (d.drv.slot i).typeInfo, (d.drv.cardType t).cbOffline = some c.udfOffline

structure FastPath (c : Cfg) (udfSifpInit : Option Ptr → SifpInfo) (s : SifpSt) : Prop where
  calls : ∀ t, (s.dev.drv.cardType t).cbOnline = some c.udfOnline ↔ (s.dev.drv.cardType t).cbOffline = some c.udfOffline
  info : s.slotInfo 1 = liveInfo udfSifpInit s.dev
  owned : s.dev.hwAddr 1 ≠ none → OnLine c 1 s.dev

section Keeps

variable {udfSifpInit : Option Ptr → SifpInfo} {c : Cfg} {s t : SifpSt} {slot : ℤ} {cardBaseAddr : Option Ptr}
  {env : OnlineEnv}

theorem FastPath.frame (h : FastPath c udfSifpInit s) (hhw : t.dev.hwAddr 1 = s.dev.hwAddr 1)
    (hinfo : t.slotInfo 1 = s.slotInfo 1) (hct : t.dev.drv.cardType = s.dev.drv.cardType)
    (hti : ∀ x, (s.dev.drv.slot 1).typeInfo = some x → (t.dev.drv.slot 1).typeInfo = some x) :
    FastPath c udfSifpInit t := by
  refine ⟨by rw [hct]; exact h.calls, ?_, fun hne => ?_⟩
  · rw [hinfo, h.info, liveInfo, liveInfo, hhw]
  · rw [hhw] at hne
    obtain ⟨x, hx, hoff⟩ := h.owned hne
    exact ⟨x, hti x hx, by rw [hct]; exact hoff⟩

theorem checkSlot_ne {i j : SlotId} (hslot : checkSlot slot = some i) (hi : i ≠ j) : checkSlot slot ≠ some j :=
  fun he => hi (Option.some.inj (hslot.symm.trans he))

/-- a `udf_online` fails and leaves both tables, or fills the slot and registers for it -/
theorem SifpSt.udfOnline_cases {ret : ℤ} (h : s.udfOnline udfSifpInit slot cardBaseAddr env = .ok (ret, t)) :
    t.dev.drv = s.dev.drv ∧
    ((ret < 0 ∧ t.slotInfo = s.slotInfo ∧ t.dev.hwAddr = s.dev.hwAddr) ∨
      ∃ i a, checkSlot slot = some i ∧ s.dev.hwAddr i = none ∧ ret = sifpRet slot ∧
        t.dev.hwAddr = Function.update s.dev.hwAddr i (some a) ∧
        t.slotInfo = (sifpRegForOnline slot (udfSifpInit (some a)) s.slotInfo).2) := by
  have hdrv := (udfOnline_frame (udfOnline_dev h)).1
  refine ⟨hdrv, ?_⟩
  have hinval : -einval < 0 := by decide
  have hexist : -eexist < 0 := by decide
  have hnomem : -enomem < 0 := by decide
  unfold SifpSt.udfOnline at h
  rcases hslot : checkSlot slot with _ | i
  · simp only [hslot] at h
    cases h
    exact Or.inl ⟨hinval, rfl, rfl⟩
  rcases cardBaseAddr with _ | a
  · simp only [hslot] at h
    cases h
    exact Or.inl ⟨hinval, rfl, rfl⟩
  simp only [hslot] at h
  by_cases hhw : s.dev.hwAddr i ≠ none
  · rw [if_pos hhw] at h
    cases h
    exact Or.inl ⟨hexist, rfl, rfl⟩
  rw [if_neg hhw] at h
  rw [not_not] at hhw
  obtain ⟨⟨p, d⟩, hinit, h⟩ := bind_eq_ok h
  have hd := (mainInit_frame hinit).1
  dsimp only at hd
  rcases p with _ | p
  · -- the base address is taken back
    cases h
    refine Or.inl ⟨hnomem, rfl, ?_⟩
    dsimp only
    rw [hd, Function.update_idem, ← hhw, Function.update_eq_self]
  · have hpair := Except.ok.inj h
    have hret := (udfBhOnline_spec udfSifpInit slot
      { s with dev := { d with devSet := Function.update d.devSet i (some p) } }).1
    rw [hpair] at hret
    have ht : t = (udfBhOnline udfSifpInit slot
        { s with dev := { d with devSet := Function.update d.devSet i (some p) } }).2 := by rw [hpair]
    refine Or.inr ⟨i, a, rfl, hhw, hret, ?_, ?_⟩
    · rw [ht]
      exact hd
    · rw [ht]
      simp [udfBhOnline, udfGetSlotHwBaseAddr, hslot, hd]

/-- `pdm_card_online` leaves a card that is on line -/
theorem pdmCardOnline_keeps (slot cardType ret : ℤ) (d : DrvSt) (j : SlotId) {x : TypeId}
    (hx : (d.slot j).typeInfo = some x) : ((pdmCardOnline slot cardType ⟨ret, none⟩ d).2.slot j).typeInfo = some x := by
  rcases pdmCardOnline_typeInfo slot cardType ret d j with hsame | ⟨k, -, -, hnone, -⟩
  · exact hsame.trans hx
  · rw [hx] at hnone
    cases hnone

/-- `pdm_card_online` with its `udf_online`: both tables stay, or a card of the driver fills the slot and registers for
it -/
theorem SifpSt.cardOnline_cases {cardType : ℤ}
    (h : s.cardOnline udfSifpInit c slot cardType cardBaseAddr env = .ok t) :
    ∃ ret, t.dev.drv = (Driver.pdmCardOnline slot cardType ⟨ret, none⟩ s.dev.drv).2 ∧
      ((t.slotInfo = s.slotInfo ∧ t.dev.hwAddr = s.dev.hwAddr ∧ (onlineCalls c slot cardType s.dev.drv → ret < 0)) ∨
        onlineCalls c slot cardType s.dev.drv ∧ ret = sifpRet slot ∧ ∃ i a, checkSlot slot = some i ∧
          t.dev.hwAddr = Function.update s.dev.hwAddr i (some a) ∧
          t.slotInfo = (sifpRegForOnline slot (udfSifpInit (some a)) s.slotInfo).2) := by
  unfold SifpSt.cardOnline at h
  by_cases hcalls : onlineCalls c slot cardType s.dev.drv
  · rw [if_pos hcalls] at h
    obtain ⟨⟨ret, u⟩, hon, h⟩ := bind_eq_ok h
    cases h
    obtain ⟨hdrv, hret⟩ := SifpSt.udfOnline_cases hon
    refine ⟨ret, by dsimp only; rw [hdrv], ?_⟩
    rcases hret with ⟨hneg, hinfo, hhw⟩ | ⟨i, a, hslot, -, hret, hhw, hinfo⟩
    · exact Or.inl ⟨hinfo, hhw, fun _ => hneg⟩
    · exact Or.inr ⟨hcalls, hret, i, a, hslot, hhw, hinfo⟩
  · rw [if_neg hcalls] at h
    cases h
    exact ⟨0, rfl, Or.inl ⟨rfl, rfl, fun hc => absurd hc hcalls⟩⟩

/-- a step of the run: a card comes, a card goes, or the tables and the cards stay -/
theorem sifpStep_cases {op : SifpOp} (h : sifpStep udfSifpInit c s op = .ok t) :
    (∃ slot cardType a env, s.cardOnline udfSifpInit c slot cardType a env = .ok t) ∨
    (∃ slot, s.cardOffline c slot = .ok t) ∨
    (t.slotInfo = s.slotInfo ∧ t.dev.hwAddr = s.dev.hwAddr ∧ t.dev.drv.cardType = s.dev.drv.cardType ∧
      ∀ i, (t.dev.drv.slot i).typeInfo = (s.dev.drv.slot i).typeInfo) := by
  cases op with
  | dev op =>
    cases op with
    | cardOnline slot cardType cardBaseAddr env => exact Or.inl ⟨slot, cardType, cardBaseAddr, env, h⟩
    | cardOffline slot => exact Or.inr (Or.inl ⟨slot, h⟩)
    | udfOpen i drvOpen =>
      obtain ⟨d, hd, h⟩ := bind_eq_ok h
      cases h
      simp only [devStep] at hd
      rcases hopen : udfOpen c i drvOpen s.dev with e | x
      · rw [hopen] at hd
        cases hd
      · rw [hopen] at hd
        cases hd
        obtain ⟨hhw, -, -, hct, hti⟩ := udfOpen_frame hopen
        exact Or.inr (Or.inr ⟨rfl, hhw, hct, hti⟩)
    | udfRelease f =>
      obtain ⟨d, hd, h⟩ := bind_eq_ok h
      cases h
      obtain ⟨hhw, -, -, hct, hti⟩ := udfRelease_frame hd
      exact Or.inr (Or.inr ⟨rfl, hhw, hct, hti⟩)
  | sifpRead | sifpIoctl =>
    cases h
    exact Or.inr (Or.inr ⟨rfl, rfl, rfl, fun _ => rfl⟩)

theorem cardOnline_fastPath (h : FastPath c udfSifpInit s) {cardType : ℤ}
    (hstep : s.cardOnline udfSifpInit c slot cardType cardBaseAddr env = .ok t) : FastPath c udfSifpInit t := by
  obtain ⟨ret, hdrv, htables⟩ := SifpSt.cardOnline_cases hstep
  have hct : t.dev.drv.cardType = s.dev.drv.cardType := by rw [hdrv, pdmCardOnline_cardType]
  have hti : ∀ x, (s.dev.drv.slot 1).typeInfo = some x → (t.dev.drv.slot 1).typeInfo = some x := by
    intro x hx
    rw [hdrv]
    exact pdmCardOnline_keeps _ _ _ _ _ hx
  rcases htables with ⟨hinfo, hhw, -⟩ | ⟨hcalls, hret, i, a, hslot, hhw, hinfo⟩
  · exact h.frame (congrFun hhw 1) (congrFun hinfo 1) hct hti
  · by_cases hi : i = 1
    · -- the card of ETIN_SLOT_SELF comes on line and registers
      subst hi
      rw [sifpTable_reg hslot] at hinfo
      refine ⟨by rw [hct]; exact h.calls, ?_, fun _ => ?_⟩
      · rw [liveInfo, hinfo, hhw]
        simp
      · obtain ⟨j, hj, k, hk, hempty, hcb⟩ := hcalls
        obtain rfl : j = 1 := Option.some.inj (hj.symm.trans hslot)
        have hnum : slot = ((1 : SlotId) : ℕ) := checkSlot_eq_some hslot
        have hret0 : ret = 0 := by rw [hret, sifpRet, if_pos hslot]
        refine ⟨k, ?_, by rw [hct]; exact (h.calls k).1 hcb⟩
        rw [hdrv, hnum, hret0]
        exact (online_ok hk (show 0 ≤ (⟨0, none⟩ : OnlineRes).ret from le_rfl) hempty).2
    · rw [sifpTable_refused (checkSlot_ne hslot hi)] at hinfo
      refine h.frame ?_ (congrFun hinfo 1) hct hti
      rw [hhw, Function.update_of_ne (Ne.symm hi)]

theorem cardOffline_fastPath (h : FastPath c udfSifpInit s) (hstep : s.cardOffline c slot = .ok t) :
    FastPath c udfSifpInit t := by
  have hct := pdmCardOffline_cardType slot s.dev.drv
  have hti := offline_typeInfo slot s.dev.drv 1
  unfold SifpSt.cardOffline at hstep
  dsimp only at hstep
  by_cases hcalls : offlineCalls c slot s.dev.drv
  · obtain ⟨i, hslot, -⟩ := id hcalls
    rw [Option.mem_def] at hslot
    simp only [if_pos hcalls, SifpSt.udfOffline, hslot, udfBhOffline] at hstep
    obtain ⟨d, hd, hstep⟩ := bind_eq_ok hstep
    cases hstep
    obtain ⟨hhw, hdrv, -⟩ := udfOffline_frame hslot hd
    dsimp only at hhw hdrv
    have hinfo := sifpTable_unreg slot s.slotInfo
    by_cases hi : i = 1
    · subst hi
      rw [if_pos hslot] at hinfo
      have hnone : d.hwAddr 1 = none := by rw [hhw, Function.update_self]
      refine ⟨?_, ?_, fun hne => absurd hnone hne⟩
      · rw [hdrv, hct]
        exact h.calls
      · rw [liveInfo, hnone, hinfo]
        simp
    · rw [if_neg (checkSlot_ne hslot hi)] at hinfo hti
      refine h.frame ?_ (congrFun hinfo 1) (by rw [hdrv, hct]) fun x hx => ?_
      · rw [hhw, Function.update_of_ne (Ne.symm hi)]
      · rw [hdrv, hti]
        exact hx
  · rw [if_neg hcalls] at hstep
    cases hstep
    refine ⟨by rw [hct]; exact h.calls, h.info, fun hne => ?_⟩
    obtain ⟨x, hx, hoff⟩ := h.owned hne
    refine ⟨x, ?_, by rw [hct]; exact hoff⟩
    have hother : checkSlot slot ≠ some 1 := fun hslot => hcalls ⟨1, hslot, x, hx, hoff⟩
    rw [hti, if_neg hother]
    exact hx

theorem sifpStep_fastPath (h : FastPath c udfSifpInit s) {op : SifpOp} (hstep : sifpStep udfSifpInit c s op = .ok t) :
    FastPath c udfSifpInit t := by
  rcases sifpStep_cases hstep with ⟨_, _, _, _, hon⟩ | ⟨_, hoff⟩ | ⟨hinfo, hhw, hct, hti⟩
  · exact cardOnline_fastPath h hon
  · exact cardOffline_fastPath h hoff
  · exact h.frame (congrFun hhw 1) (congrFun hinfo 1) hct fun x hx => (hti 1).trans hx

theorem load_fastPath (c : Cfg) (udfSifpInit : Option Ptr → SifpInfo) (masked : SlotId → Bool) :
    FastPath c udfSifpInit (SifpSt.load c masked) :=
  ⟨(load_online c masked).calls, rfl, fun h => absurd rfl h⟩

end Keeps

/-! ## Runs -/

section Runs

variable {udfSifpInit : Option Ptr → SifpInfo} {c : Cfg} {s t : SifpSt}

/-- an operation calls call-backs of the card that is on line in ETIN_SLOT_SELF only -/
def CallsOfCard (c : Cfg) (udfSifpInit : Option Ptr → SifpInfo) (s : SifpSt) (op : SifpOp) : Prop :=
  ∀ x ∈ op.calls s, ∃ a, s.dev.hwAddr 1 = some a ∧ x.Of (udfSifpInit (some a)) ∧ OnLine c 1 s.dev

theorem FastPath.callsOfCard (h : FastPath c udfSifpInit s) (op : SifpOp) : CallsOfCard c udfSifpInit s op := by
  intro x hx
  have hof : x.Of (s.slotInfo 1) := by
    cases op with
    | dev op => cases hx
    | sifpRead nBytes pOff ret => exact sifpDrvRead_calls nBytes pOff x hx
    | sifpIoctl cmd op ret => exact sifpDrvIoctl_calls x hx
  rw [h.info, liveInfo] at hof
  rcases hhw : s.dev.hwAddr 1 with _ | a
  · rw [hhw] at hof
    exact absurd hof (not_of_sNullInfo x)
  · rw [hhw] at hof
    exact ⟨a, rfl, hof, h.owned (by rw [hhw]; exact Option.some_ne_none a)⟩

/-- no card of the driver is on line in a slot but ETIN_SLOT_SELF -/
structure SelfOnly (c : Cfg) (s : SifpSt) : Prop where
  calls : ∀ t, (s.dev.drv.cardType t).cbOnline = some c.udfOnline ↔ (s.dev.drv.cardType t).cbOffline = some c.udfOffline
  other : ∀ i, i ≠ 1 → ¬ OnLine c i s.dev

theorem SelfOnly.frame (h : SelfOnly c s) (hct : t.dev.drv.cardType = s.dev.drv.cardType)
    (hti : ∀ i, i ≠ 1 → ∀ x ∈ (t.dev.drv.slot i).typeInfo, (s.dev.drv.slot i).typeInfo = some x) : SelfOnly c t := by
  refine ⟨by rw [hct]; exact h.calls, fun i hi => ?_⟩
  rintro ⟨x, hx, hoff⟩
  rw [hct] at hoff
  exact h.other i hi ⟨x, hti i hi x hx, hoff⟩

/-- a card that `pdm_card_online` records is not one of the driver -/
theorem SelfOnly.pdmCardOnline (h : SelfOnly c s) (slot cardType ret : ℤ)
    (hdrv : t.dev.drv = (pdmCardOnline slot cardType ⟨ret, none⟩ s.dev.drv).2)
    (hret : ∀ i, checkSlot slot = some i → i ≠ 1 → onlineCalls c slot cardType s.dev.drv → ret < 0) : SelfOnly c t := by
  refine ⟨by rw [hdrv, pdmCardOnline_cardType]; exact h.calls, fun i hi => ?_⟩
  rintro ⟨x, hx, hoff⟩
  rw [hdrv, pdmCardOnline_cardType] at hoff
  rw [hdrv] at hx
  rcases pdmCardOnline_typeInfo slot cardType ret s.dev.drv i with hsame | ⟨k, hslot, hk, hnone, hti, hpos⟩
  · rw [hsame] at hx
    exact h.other i hi ⟨x, hx, hoff⟩
  · rw [hti, Option.mem_some_iff] at hx
    subst hx
    have hcb := (h.calls k).2 hoff
    have hneg := hret i hslot hi ⟨i, hslot, k, hk, hnone, hcb⟩
    exact absurd (hpos (by rw [hcb]; exact Option.some_ne_none _)) (not_le.2 hneg)

theorem cardOnline_selfOnly (h : SelfOnly c s) {slot cardType : ℤ} {cardBaseAddr : Option Ptr} {env : OnlineEnv}
    (hstep : s.cardOnline udfSifpInit c slot cardType cardBaseAddr env = .ok t) : SelfOnly c t := by
  obtain ⟨ret, hdrv, hret⟩ := SifpSt.cardOnline_cases hstep
  refine h.pdmCardOnline slot cardType ret hdrv ?_
  intro i hslot hi hcalls
  rcases hret with ⟨-, -, hneg⟩ | ⟨-, hret, -⟩
  · exact hneg hcalls
  · -- registration is refused
    rw [hret, sifpRet, if_neg (checkSlot_ne hslot hi)]
    decide

theorem cardOffline_selfOnly (h : SelfOnly c s) {slot : ℤ} (hstep : s.cardOffline c slot = .ok t) : SelfOnly c t := by
  have hdev := cardOffline_dev hstep
  have hct := pdmCardOffline_cardType slot s.dev.drv
  have hti := offline_typeInfo slot s.dev.drv
  have hdrv : t.dev.drv = Driver.pdmCardOffline slot s.dev.drv := by
    unfold Udf.cardOffline at hdev
    dsimp only at hdev
    split_ifs at hdev with hcalls
    · obtain ⟨i, hslot, -⟩ := hcalls
      exact (udfOffline_frame hslot hdev).2.1
    · rw [← Except.ok.inj hdev]
  refine h.frame (by rw [hdrv, hct]) fun i _ x hx => ?_
  rw [hdrv, hti] at hx
  split_ifs at hx
  · cases hx
  · exact hx

theorem sifpStep_selfOnly (h : SelfOnly c s) {op : SifpOp} (hstep : sifpStep udfSifpInit c s op = .ok t) :
    SelfOnly c t := by
  rcases sifpStep_cases hstep with ⟨_, _, _, _, hon⟩ | ⟨_, hoff⟩ | ⟨-, -, hct, hti⟩
  · exact cardOnline_selfOnly h hon
  · exact cardOffline_selfOnly h hoff
  · exact h.frame hct fun j _ x hx => (hti j).symm.trans hx

theorem load_selfOnly (c : Cfg) (masked : SlotId → Bool) : SelfOnly c (SifpSt.load c masked) := by
  refine ⟨(load_online c masked).calls, fun i _ => ?_⟩
  rintro ⟨x, hx, -⟩
  have hnone : ((DevSt.load c masked).drv.slot i).typeInfo = none := by
    rcases ht : checkType c.cardType with _ | k
    · exact congrArg (fun d => (DrvSt.slot d i).typeInfo)
        (reg_refused fun k hk => absurd (hk.symm.trans ht) (Option.some_ne_none k))
    · obtain ⟨d, hd, -, -, hti, -⟩ := reg_eq ht (ctor_inv masked) rfl c.udfOnline c.udfOffline c.vsn fun _ => ⟨0, none⟩
      exact (congrArg (fun d => (DrvSt.slot d i).typeInfo) hd).trans (hti i)
  have hx' : some x = none := hx.symm.trans hnone
  cases hx'

/-- a run of the card driver and the fast path is a run of the instances -/
theorem sifpRun_dev {ops : List SifpOp} (hrun : runFrom (sifpStep udfSifpInit c) s ops = .ok t) :
    runFrom (devStep c) s.dev (ops.flatMap SifpOp.devOps) = .ok t.dev := by
  induction ops generalizing s with
  | nil =>
    cases hrun
    rfl
  | cons op ops ih =>
    rw [runFrom_cons] at hrun
    obtain ⟨u, hu, hrun⟩ := bind_eq_ok hrun
    have hstep := sifpStep_dev hu
    have hrest := ih hrun
    unfold runFrom at hstep hrest ⊢
    rw [List.flatMap_cons, List.foldlM_append, hstep]
    exact hrest

/-- **With a fast path the driver serves ETIN_SLOT_SELF only.** In every state that a run reaches, no card of the driver
is on line in another slot; and a slot of which a base address is recorded is lost: whatever happens then, an attempt
to bring a card on line there is refused with -EEXIST. -/
theorem fast_path_self_only (masked : SlotId → Bool) {ops : List SifpOp}
    (hrun : runFrom (sifpStep udfSifpInit c) (SifpSt.load c masked) ops = .ok s) {i : SlotId} (hi : i ≠ 1) :
    ¬ OnLine c i s.dev ∧ (s.dev.hwAddr i ≠ none → ∀ ops' t, runFrom (sifpStep udfSifpInit c) s ops' = .ok t →
      ∀ a env, t.udfOnline udfSifpInit (i : ℕ) (some a) env = .ok (-eexist, t)) := by
  have hself : SelfOnly c s := runFrom_inv (P := fun _ => True) (fun _ _ _ _ h hstep => sifpStep_selfOnly h hstep)
    (fun _ _ => trivial) (load_selfOnly c masked) hrun
  refine ⟨hself.other i hi, fun hhw ops' t hrun' a env => ?_⟩
  have hwedged : Wedged c i s.dev := ⟨hself.calls, hhw, fun x hx hoff => hself.other i hi ⟨x, hx, hoff⟩⟩
  have hlost : Wedged c i t.dev := runFrom_inv (P := fun _ => True) (fun _ _ _ _ h hstep => wedged_step h hstep)
    (fun _ _ => trivial) hwedged (sifpRun_dev hrun')
  unfold SifpSt.udfOnline
  simp only [checkSlot_coe]
  rw [if_pos hlost.hwAddr]

end Runs

/-- the first card of the driver is plugged in slot 0: it is refused, and so is every later one -/
theorem fast_path_self_only_slot0 : let c : Cfg := ⟨1, 10, 11, 12, ⟨none, none⟩⟩
    let udfSifpInit : Option Ptr → SifpInfo := fun a => ⟨some 20, a, some 21, some 22, some 23, a, none, none⟩
    let op : SifpOp := .dev (.cardOnline 0 1 (some 1000) ⟨some 100, 0, true, 0⟩)
    ∃ s, sifpStep udfSifpInit c (SifpSt.load c fun _ => true) op = .ok s ∧ (s.dev.drv.slot 0).typeInfo = none ∧
      ∀ ops' t, runFrom (sifpStep udfSifpInit c) s ops' = .ok t →
        ∀ a env, t.udfOnline udfSifpInit 0 (some a) env = .ok (-eexist, t) := by
  intro c udfSifpInit op
  refine ⟨_, rfl, by decide, ?_⟩
  have hrun : runFrom (sifpStep udfSifpInit c) (SifpSt.load c fun _ => true) [op] = .ok _ := rfl
  exact (fast_path_self_only (fun _ => true) hrun (i := 0) (by decide)).2 (by decide)

end LinuxDrv.Udf
