/-
The pdm driver as a kernel module (`dmd.c`): `dmd_init`, `dmd_exit` and the stages of both.

`dmd_init` maps the registers, allocates the device numbers and a class, registers the callbacks of the pdm card and
takes it on line, and adds three more character devices. A stage that fails undoes what it did itself, and then jumps
to `dmd_exit`, which undoes all stages, however far the initialisation came. The interrupt is compiled out.

Every function returns the trace of what it acquired and gave back. `device_destroy` and `cdev_del` of the three devices
ask for nothing; class, device numbers and mappings are given back if their variables are set.
- `runStages_quiet`, `stages_fail`: what a failed initialisation acquired and gave back, before its `dmd_exit`.
- `dmdExit_trace`: every `dmd_exit` deletes the device of `sifp`. So after a failed stage it is deleted once too often.
- `dmd_balanced_iff`: a run of loads and unloads is balanced iff every `dmd_init` succeeds or fails at its first
  mapping, and every `dmd_exit` undoes the only `dmd_init`.
-/
import LinuxDrv.Core.Ledger
import LinuxDrv.Driver.Ioctl
import LinuxDrv.Driver.Hw

namespace LinuxDrv.Driver

open LinuxDrv.Core

def eio : ℤ := 5
def enomem : ℤ := 12

/-- `EPDM_DRV_MINOR_ID_PDM_SELF` and the others -/
inductive MinorId where
  | pdmSelf
  | sysFunc
  | regsInfo
  | slotSelf
deriving DecidableEq

/-- what the pdm driver acquires from the kernel -/
inductive DmdRes where
  | map (i : SlotId)
  | region
  | cls
  | cdev (k : MinorId)
  | device (k : MinorId)
deriving DecidableEq

/-- what the kernel returns to `dmd_init`: whether `ioremap` returns an address, and `class_create` and `device_create`
no error pointer -/
structure DmdEnv where
  ioremap : SlotId → Bool
  allocChrdev : ℤ
  classCreate : Bool
  cdevAdd : MinorId → ℤ
  deviceCreate : MinorId → Bool

/-- the variables of the module, and whether they are set -/
structure DmdSt where
  /-- `vir_addr` of the entries of `s_card_addr` -/
  virAddr : SlotId → Bool
  /-- `g_pdmDevID` is not -1 -/
  pdmDevID : Bool
  pPdmDrvClass : Bool
  /-- `m_pDevice` of the entry of `s_sifp_drv` -/
  sifpDevice : Bool
  drv : DrvSt

/-- a stage of `dmd_init`: what it returns, and what it acquired and gave back -/
abbrev Stage := DmdSt → ℤ × DmdSt × List (ResEv DmdRes)

/-- the addresses of `pdm_drv_main_init` and `pdm_drv_main_exit` -/
def pdmCbOnline : Ptr := 1
def pdmCbOffline : Ptr := 2

/-! ## The registers -/

/-- `pdm_dtor_hw` -/
def pdmDtorHw (s : DmdSt) : DmdSt × List (ResEv DmdRes) :=
  ({ s with virAddr := fun _ => false },
    ((List.finRange etinSlotMax).reverse.filter fun i => s.virAddr i).map fun i => .release (.map i))

/-- the loop of `pdm_ctor_hw` over `s_card_addr` -/
def ctorHwFrom (env : DmdEnv) : List SlotId → Stage
  | [], s => (0, s, [])
  | i :: is, s =>
    if (sCardAddr.get i).phyAddr = 0 then ctorHwFrom env is s
    else if env.ioremap i = false then
      let x := pdmDtorHw { s with virAddr := Function.update s.virAddr i false }
      (-eio, x.1, x.2)
    else
      let x := ctorHwFrom env is { s with virAddr := Function.update s.virAddr i true }
      (x.1, x.2.1, .acquire (.map i) :: x.2.2)

/-- `pdm_ctor_hw` -/
def pdmCtorHw (env : DmdEnv) : Stage := ctorHwFrom env (List.finRange etinSlotMax)

/-! ## The character devices -/

/-- `device_destroy` and `cdev_del` of a minor -/
def minorExit (k : MinorId) : List (ResEv DmdRes) := [.release (.device k), .release (.cdev k)]

/-- `cdev_add` and `device_create` of a minor, and what is undone if they fail -/
def minorInit (k : MinorId) (env : DmdEnv) : ℤ × List (ResEv DmdRes) :=
  if env.cdevAdd k < 0 then (env.cdevAdd k, minorExit k)
  else if env.deviceCreate k = false then (-enomem, .acquire (.cdev k) :: minorExit k)
  else (env.cdevAdd k, [.acquire (.cdev k), .acquire (.device k)])

def pdmDrvMainExit : List (ResEv DmdRes) := minorExit .pdmSelf

def pdmDrvMainInit (env : DmdEnv) : ℤ × List (ResEv DmdRes) := minorInit .pdmSelf env

def sysFuncDrvMainExit : List (ResEv DmdRes) := minorExit .sysFunc

def sysFuncDrvMainInit (env : DmdEnv) : ℤ × List (ResEv DmdRes) := minorInit .sysFunc env

def regsInfoDrvMainExit : List (ResEv DmdRes) := minorExit .regsInfo

def regsInfoDrvMainInit (env : DmdEnv) : ℤ × List (ResEv DmdRes) := minorInit .regsInfo env

/-- `sifp_drv_main_exit`: the device is destroyed if there is one, the character device is deleted anyway -/
def sifpDrvMainExit (s : DmdSt) : DmdSt × List (ResEv DmdRes) :=
  ({ s with sifpDevice := false },
    (if s.sifpDevice then [.release (.device .slotSelf)] else []) ++ [.release (.cdev .slotSelf)])

/-- `sifp_drv_main_init` -/
def sifpDrvMainInit (env : DmdEnv) : Stage := fun s =>
  if env.cdevAdd .slotSelf < 0 then
    let x := sifpDrvMainExit s
    (env.cdevAdd .slotSelf, x.1, x.2)
  else if env.deviceCreate .slotSelf = false then
    let x := sifpDrvMainExit { s with sifpDevice := false }
    (-enomem, x.1, .acquire (.cdev .slotSelf) :: x.2)
  else (env.cdevAdd .slotSelf, { s with sifpDevice := true },
    [.acquire (.cdev .slotSelf), .acquire (.device .slotSelf)])

/-- `sifp_init_all`: `s_mid_2_slot` has one slot -/
def sifpInitAll (env : DmdEnv) : Stage := sifpDrvMainInit env

/-- `sifp_exit_all` -/
def sifpExitAll (s : DmdSt) : DmdSt × List (ResEv DmdRes) := sifpDrvMainExit s

/-! ## The module -/

/-- `pdm_card_online` calls `pdm_drv_main_init` -/
def pdmOnlineCalls (d : DrvSt) : Prop := (d.slot 0).typeInfo = none ∧ (d.cardType 0).cbOnline = some pdmCbOnline

/-- `pdm_card_offline` calls `pdm_drv_main_exit` -/
def pdmOfflineCalls (d : DrvSt) : Prop := ∃ t ∈ (d.slot 0).typeInfo, (d.cardType t).cbOffline = some pdmCbOffline

/-- so does `pdm_unreg_online_offline_cb`, if the pdm card is on line -/
def pdmUnregCalls (d : DrvSt) : Prop :=
  (d.slot 0).typeInfo = some 0 ∧ (d.cardType 0).cbOffline = some pdmCbOffline

instance (d : DrvSt) : Decidable (pdmOnlineCalls d) := inferInstanceAs (Decidable (_ ∧ _))
instance (d : DrvSt) : Decidable (pdmOfflineCalls d) := inferInstanceAs (Decidable (∃ t ∈ (d.slot 0).typeInfo, _))
instance (d : DrvSt) : Decidable (pdmUnregCalls d) := inferInstanceAs (Decidable (_ ∧ _))

def allocChrdevRegion (env : DmdEnv) : Stage := fun s =>
  if env.allocChrdev < 0 then (env.allocChrdev, { s with pdmDevID := false }, [])
  else (env.allocChrdev, { s with pdmDevID := true }, [.acquire .region])

def classCreate (env : DmdEnv) : Stage := fun s =>
  if env.classCreate = false then (-efault, { s with pPdmDrvClass := false }, [])
  else (0, { s with pPdmDrvClass := true }, [.acquire .cls])

/-- the registration: `pdm_ctor_mng_info` has left no card that it could take on line -/
def regCb : Stage := fun s =>
  let x := pdmRegOnlineOfflineCb etindevPdm (some pdmCbOnline) (some pdmCbOffline) ⟨none, none⟩
    (fun _ => ⟨0, none⟩) s.drv
  (x.1, { s with drv := x.2 }, [])

def pdmOnline (env : DmdEnv) : Stage := fun s =>
  let x := if pdmOnlineCalls s.drv then pdmDrvMainInit env else (0, [])
  let y := pdmCardOnline etinSlotPdm etindevPdm ⟨x.1, none⟩ s.drv
  (y.1, { s with drv := y.2 }, x.2)

/-- `pdm_irq_init` -/
def pdmIrqInit : Stage := fun s => (0, s, [])

/-- the stages behind `pdm_ctor_mng_info` -/
def stages (env : DmdEnv) : List Stage :=
  [allocChrdevRegion env, classCreate env, regCb, pdmOnline env,
    fun s => ((sysFuncDrvMainInit env).1, s, (sysFuncDrvMainInit env).2),
    fun s => ((regsInfoDrvMainInit env).1, s, (regsInfoDrvMainInit env).2), sifpInitAll env, pdmIrqInit]

/-- the stages up to the first one that fails -/
def runStages : List Stage → Stage
  | [], s => (0, s, [])
  | f :: fs, s =>
    let x := f s
    if x.1 < 0 then x
    else
      let y := runStages fs x.2.1
      (y.1, y.2.1, x.2.2 ++ y.2.2)

/-- `dmd_exit` -/
def dmdExit (s : DmdSt) : Except Fault (DmdSt × List (ResEv DmdRes)) := do
  let sifp := sifpExitAll s
  let off := if pdmOfflineCalls s.drv then pdmDrvMainExit else []
  let d := pdmCardOffline etinSlotPdm s.drv
  let unreg := if pdmUnregCalls d then pdmDrvMainExit else []
  let d ← pdmUnregOnlineOfflineCb etindevPdm d
  let hw := pdmDtorHw { sifp.1 with drv := d, pPdmDrvClass := false, pdmDevID := false }
  .ok (hw.1, sifp.2 ++ regsInfoDrvMainExit ++ sysFuncDrvMainExit ++ off ++ unreg ++
    (if s.pPdmDrvClass then [.release .cls] else []) ++ (if s.pdmDevID then [.release .region] else []) ++ hw.2)

/-- `dmd_init` -/
def dmdInit (env : DmdEnv) (s : DmdSt) : Except Fault (ℤ × DmdSt × List (ResEv DmdRes)) :=
  let hw := pdmCtorHw env s
  if hw.1 < 0 then .ok hw
  else
    let x := runStages (stages env) { hw.2.1 with drv := DrvSt.pdmCtorMngInfo hw.2.1.drv.masked }
    if x.1 < 0 then do
      let y ← dmdExit x.2.1
      .ok (x.1, y.1, hw.2.2 ++ x.2.2 ++ y.2)
    else .ok (x.1, x.2.1, hw.2.2 ++ x.2.2)

/-! ## Runs -/

/-- the module, what it holds (none once it gave back something that it did not hold), and how many `dmd_init`s
succeeded since the last `dmd_exit` -/
structure DmdSys where
  st : DmdSt
  held : Option (List DmdRes)
  loads : ℕ

inductive DmdOp where
  | init (env : DmdEnv)
  | exit

def dmdStep (s : DmdSys) : DmdOp → Except Fault DmdSys
  | .init env => do
    let (r, t, es) ← dmdInit env s.st
    .ok ⟨t, s.held.bind fun h => heldAfter h es, if r < 0 then s.loads else s.loads + 1⟩
  | .exit => do
    let (t, es) ← dmdExit s.st
    .ok ⟨t, s.held.bind fun h => heldAfter h es, 0⟩

/-- everything that is given back was held, and a `dmd_init` that fails and a `dmd_exit` leave nothing -/
def Balances (s : DmdSys) : DmdOp → Prop
  | .init env => ∃ r t es, dmdInit env s.st = .ok (r, t, es) ∧
    ∃ h, (s.held.bind fun h => heldAfter h es) = some h ∧ (r < 0 → h = [])
  | .exit => ∃ t es, dmdExit s.st = .ok (t, es) ∧ (s.held.bind fun h => heldAfter h es) = some []

/-- all that the kernel is asked for succeeds -/
structure AllOk (env : DmdEnv) : Prop where
  ioremap : env.ioremap 1 = true
  allocChrdev : 0 ≤ env.allocChrdev
  classCreate : env.classCreate = true
  cdevAdd : ∀ k, 0 ≤ env.cdevAdd k
  deviceCreate : ∀ k, env.deviceCreate k = true

/-- a `dmd_init` succeeds, or nothing is loaded and it fails at its mapping; a `dmd_exit` undoes the only `dmd_init` -/
def InOrder (s : DmdSys) : DmdOp → Prop
  | .init env => AllOk env ∨ (s.loads = 0 ∧ env.ioremap 1 = false)
  | .exit => s.loads = 1

/-! ## The registers and the stages -/

section Stages

variable {env : DmdEnv} {s : DmdSt}

theorem dtorHw_trace (s : DmdSt) : (pdmDtorHw s).2 =
    (if s.virAddr 1 then [.release (.map 1)] else []) ++ (if s.virAddr 0 then [.release (.map 0)] else []) := by
  have hrev : (List.finRange etinSlotMax).reverse = [1, 0] := rfl
  unfold pdmDtorHw
  rw [hrev]
  rcases h0 : s.virAddr 0 with _ | _ <;> rcases h1 : s.virAddr 1 with _ | _ <;> simp [h0, h1]

/-- the first slot has no registers; the mapping of the other one fails or not -/
theorem ctorHw_eq (env : DmdEnv) (s : DmdSt) : pdmCtorHw env s =
    if env.ioremap 1 = false then
      (-eio, (pdmDtorHw { s with virAddr := Function.update s.virAddr 1 false }).1,
        (pdmDtorHw { s with virAddr := Function.update s.virAddr 1 false }).2)
    else (0, { s with virAddr := Function.update s.virAddr 1 true }, [.acquire (.map 1)]) := rfl

theorem ctorHw_mapped (hmap : env.ioremap 1 = true) (s : DmdSt) : pdmCtorHw env s =
    (0, { s with virAddr := Function.update s.virAddr 1 true }, [.acquire (.map 1)]) := by
  rw [ctorHw_eq]
  exact if_neg (by rw [hmap]; decide)

theorem runStages_step {f : Stage} {fs : List Stage} {t : DmdSt} {r : ℤ} {es : List (ResEv DmdRes)}
    (h : f s = (r, t, es)) (hr : 0 ≤ r) :
    runStages (f :: fs) s = ((runStages fs t).1, (runStages fs t).2.1, es ++ (runStages fs t).2.2) := by
  rw [runStages, h]
  exact if_neg (not_lt.2 hr)

theorem runStages_append (fs gs : List Stage) (s : DmdSt) : runStages (fs ++ gs) s =
    if (runStages fs s).1 < 0 then runStages fs s
    else ((runStages gs (runStages fs s).2.1).1, (runStages gs (runStages fs s).2.1).2.1,
      (runStages fs s).2.2 ++ (runStages gs (runStages fs s).2.1).2.2) := by
  induction fs generalizing s with
  | nil => rfl
  | cons f fs ih =>
    by_cases hneg : (f s).1 < 0
    · have hstop : ∀ hs, runStages (f :: hs) s = f s := fun hs => if_pos hneg
      rw [List.cons_append, hstop, hstop, if_pos hneg]
    · have hstep : ∀ hs, runStages (f :: hs) s = ((runStages hs (f s).2.1).1, (runStages hs (f s).2.1).2.1,
          (f s).2.2 ++ (runStages hs (f s).2.1).2.2) := fun hs => if_neg hneg
      rw [List.cons_append, hstep, hstep, ih]
      dsimp only
      split_ifs
      · rfl
      · rw [List.append_assoc]

/-- what no stage touches, a run of stages does not touch -/
theorem runStages_quiet {p : ResEv DmdRes → Prop} {fs : List Stage} (hfs : ∀ f ∈ fs, ∀ s, ∀ e ∈ (f s).2.2, p e) :
    ∀ s, ∀ e ∈ (runStages fs s).2.2, p e := by
  induction fs with
  | nil => exact fun s e he => absurd he List.not_mem_nil
  | cons f fs ih =>
    intro s e he
    obtain ⟨hf, hfs⟩ := List.forall_mem_cons.1 hfs
    simp only [runStages] at he
    split_ifs at he
    · exact hf s e he
    · rcases List.mem_append.1 he with he | he
      · exact hf s e he
      · exact ih hfs _ e he

/-- the events of a minor are about its devices -/
theorem minorInit_quiet {k : MinorId} {e : ResEv DmdRes} (he : e ∈ (minorInit k env).2) :
    e.res = .cdev k ∨ e.res = .device k := by
  unfold minorInit minorExit at he
  split_ifs at he <;> simp only [List.mem_cons, List.not_mem_nil, or_false] at he
  · rcases he with rfl | rfl <;> simp [ResEv.res]
  · rcases he with rfl | rfl | rfl <;> simp [ResEv.res]
  · rcases he with rfl | rfl <;> simp [ResEv.res]

/-- the stages before `sifp_init_all` -/
def early (env : DmdEnv) : List Stage := (stages env).take 6

/-- they leave the mappings and the device of `sifp` -/
theorem early_quiet : ∀ f ∈ early env, ∀ s, ∀ e ∈ (f s).2.2, (∀ i, e.res ≠ .map i) ∧ e.res ≠ .cdev .slotSelf := by
  have hminor : ∀ k, k ≠ MinorId.slotSelf → ∀ e ∈ (minorInit k env).2,
      (∀ i, e.res ≠ .map i) ∧ e.res ≠ .cdev .slotSelf := by
    intro k hk e he
    rcases minorInit_quiet he with h | h
    · rw [h]
      exact ⟨fun i => by simp, fun hc => hk (DmdRes.cdev.inj hc)⟩
    · rw [h]
      exact ⟨fun i => by simp, by simp⟩
  have hempty : ∀ e ∈ ([] : List (ResEv DmdRes)), (∀ i, e.res ≠ .map i) ∧ e.res ≠ .cdev .slotSelf :=
    fun e he => absurd he List.not_mem_nil
  have hone : ∀ r : DmdRes, (∀ i, r ≠ .map i) → r ≠ .cdev .slotSelf → ∀ e ∈ [ResEv.acquire r],
      (∀ i, e.res ≠ .map i) ∧ e.res ≠ .cdev .slotSelf := by
    intro r hmap hcdev e he
    rw [List.mem_singleton.1 he]
    exact ⟨hmap, hcdev⟩
  intro f hf s
  simp only [early, stages, List.take_succ_cons, List.take_zero, List.mem_cons, List.not_mem_nil, or_false] at hf
  rcases hf with rfl | rfl | rfl | rfl | rfl | rfl
  · unfold allocChrdevRegion
    split_ifs
    · exact hempty
    · exact hone .region (by simp) (by simp)
  · unfold classCreate
    split_ifs
    · exact hempty
    · exact hone .cls (by simp) (by simp)
  · exact hempty
  · unfold pdmOnline
    dsimp only
    split_ifs
    · exact hminor .pdmSelf (by decide)
    · exact hempty
  · exact hminor .sysFunc (by decide)
  · exact hminor .regsInfo (by decide)

/-- a `sifp_init_all` that fails has deleted its device as often as it added it -/
theorem sifp_fails (hneg : (sifpInitAll env s).1 < 0) :
    (sifpInitAll env s).2.2.count (.acquire (.cdev .slotSelf)) ≤
      (sifpInitAll env s).2.2.count (.release (.cdev .slotSelf)) ∧
    ∀ e ∈ (sifpInitAll env s).2.2, ∀ i, e.res ≠ .map i := by
  unfold sifpInitAll sifpDrvMainInit sifpDrvMainExit at hneg ⊢
  dsimp only at hneg ⊢
  split_ifs at hneg ⊢ with hadd hdev hcreate
  · dsimp only
    exact ⟨by decide, by decide⟩
  · dsimp only
    exact ⟨by decide, by decide⟩
  · dsimp only
    exact ⟨by decide, by decide⟩
  · dsimp only
    exact ⟨by decide, by decide⟩
  · exact absurd hneg hadd

/-- stages that fail have deleted the device of `sifp` as often as they added it, and left the mappings -/
theorem stages_fail (hneg : (runStages (stages env) s).1 < 0) :
    (runStages (stages env) s).2.2.count (.acquire (.cdev .slotSelf)) ≤
      (runStages (stages env) s).2.2.count (.release (.cdev .slotSelf)) ∧
    ∀ e ∈ (runStages (stages env) s).2.2, ∀ i, e.res ≠ .map i := by
  have hquiet := runStages_quiet (@early_quiet env) s
  have hnone : (runStages (early env) s).2.2.count (.acquire (.cdev .slotSelf)) = 0 :=
    List.count_eq_zero.2 fun he => (hquiet _ he).2 rfl
  have hsplit : stages env = early env ++ [sifpInitAll env, pdmIrqInit] := rfl
  rw [hsplit, runStages_append] at hneg ⊢
  split_ifs at hneg ⊢ with hearly
  · exact ⟨by rw [hnone]; exact Nat.zero_le _, fun e he => (hquiet e he).1⟩
  · dsimp only at hneg ⊢
    generalize (runStages (early env) s).2.1 = t at *
    by_cases hsifp : (sifpInitAll env t).1 < 0
    · have hstop : runStages [sifpInitAll env, pdmIrqInit] t = sifpInitAll env t := if_pos hsifp
      obtain ⟨hcount, hmap⟩ := sifp_fails hsifp
      rw [hstop, List.count_append, List.count_append, hnone]
      refine ⟨by omega, fun e he => ?_⟩
      rcases List.mem_append.1 he with he | he
      · exact (hquiet e he).1
      · exact hmap e he
    · -- nothing fails behind it
      rw [runStages_step (r := (sifpInitAll env t).1) rfl (not_lt.1 hsifp)] at hneg
      exact absurd hneg (lt_irrefl 0)

end Stages

/-! ## dmd_exit -/

section Exit

variable {s t : DmdSt} {es : List (ResEv DmdRes)}

/-- the event gives something back, and not the mapping of slot 1 -/
def Gives (e : ResEv DmdRes) : Prop := ∃ r, e = .release r ∧ r ≠ .map 1

theorem gives_minorExit (k : MinorId) : ∀ e ∈ minorExit k, Gives e := by
  intro e he
  rcases List.mem_cons.1 he with rfl | he
  · exact ⟨_, rfl, by simp⟩
  · rw [List.mem_singleton.1 he]
    exact ⟨_, rfl, by simp⟩

theorem gives_one {r : DmdRes} (hr : r ≠ .map 1) : ∀ e ∈ [ResEv.release r], Gives e := by
  intro e he
  rw [List.mem_singleton.1 he]
  exact ⟨r, rfl, hr⟩

theorem gives_ite {c : Prop} [Decidable c] {l : List (ResEv DmdRes)} (hl : ∀ e ∈ l, Gives e) :
    ∀ e ∈ (if c then l else []), Gives e := by
  intro e he
  split_ifs at he
  · exact hl e he
  · exact absurd he List.not_mem_nil

theorem dtorHw_gives (s : DmdSt) : (∀ e ∈ (pdmDtorHw s).2, ∃ r, e = .release r) ∧
    (pdmDtorHw s).2.count (.release (.map 1)) ≤ 1 := by
  rw [dtorHw_trace]
  constructor
  · split_ifs <;> simp
  · split_ifs <;> decide

/-- a `dmd_exit` gives back the device of `sifp` and at most one mapping of slot 1, and acquires nothing -/
theorem dmdExit_trace (h : dmdExit s = .ok (t, es)) : .release (.cdev .slotSelf) ∈ es ∧
    es.count (.release (.map 1)) ≤ 1 ∧ ∀ r, .acquire r ∉ es := by
  unfold dmdExit at h
  obtain ⟨d, -, h⟩ := bind_eq_ok h
  simp only [Except.ok.injEq, Prod.mk.injEq] at h
  obtain ⟨-, rfl⟩ := h
  obtain ⟨hrel, hone⟩ := dtorHw_gives
    { (sifpExitAll s).1 with drv := d, pPdmDrvClass := false, pdmDevID := false }
  have hsifp : .release (.cdev .slotSelf) ∈ (sifpExitAll s).2 := List.mem_append_right _ (List.mem_singleton_self _)
  -- what is given back before the registers
  have hfront : ∀ e ∈ (sifpExitAll s).2 ++ regsInfoDrvMainExit ++ sysFuncDrvMainExit ++
      (if pdmOfflineCalls s.drv then pdmDrvMainExit else []) ++
      (if pdmUnregCalls (pdmCardOffline etinSlotPdm s.drv) then pdmDrvMainExit else []) ++
      (if s.pPdmDrvClass = true then [.release .cls] else []) ++
      (if s.pdmDevID = true then [.release .region] else []), Gives e := by
    simp only [List.forall_mem_append]
    refine ⟨⟨⟨⟨⟨⟨?_, gives_minorExit _⟩, gives_minorExit _⟩, gives_ite (gives_minorExit _)⟩,
      gives_ite (gives_minorExit _)⟩, gives_ite (gives_one (by simp))⟩, gives_ite (gives_one (by simp))⟩
    exact List.forall_mem_append.2 ⟨gives_ite (gives_one (by simp)), gives_one (by simp)⟩
  refine ⟨?_, ?_, ?_⟩
  · simp only [List.mem_append]
    tauto
  · have hzero : ∀ l : List (ResEv DmdRes), (∀ e ∈ l, Gives e) → l.count (.release (.map 1)) = 0 := by
      intro l hl
      refine List.count_eq_zero.2 fun hmem => ?_
      obtain ⟨r, hr, hne⟩ := hl _ hmem
      exact hne (ResEv.release.inj hr).symm
    rw [List.count_append, hzero _ hfront, zero_add]
    exact hone
  · intro r hmem
    rcases List.mem_append.1 hmem with hmem | hmem
    · obtain ⟨q, hq, -⟩ := hfront _ hmem
      cases hq
    · obtain ⟨q, hq⟩ := hrel _ hmem
      cases hq

end Exit

/-! ## A module that is loaded -/

/-- what a `dmd_init` acquires, the last one first -/
def loadedRes : List DmdRes :=
  [.device .slotSelf, .cdev .slotSelf, .device .regsInfo, .cdev .regsInfo, .device .sysFunc, .cdev .sysFunc,
    .device .pdmSelf, .cdev .pdmSelf, .cls, .region, .map 1]

/-- the variables after a `dmd_init` that succeeds -/
structure Loaded (s : DmdSt) : Prop where
  noMap : s.virAddr 0 = false
  virAddr : s.virAddr 1 = true
  pdmDevID : s.pdmDevID = true
  pPdmDrvClass : s.pPdmDrvClass = true
  sifpDevice : s.sifpDevice = true
  typeInfo : (s.drv.slot 0).typeInfo = some 0
  cardType : s.drv.cardType 0 = ⟨some pdmCbOnline, some pdmCbOffline⟩

section Loading

variable {env : DmdEnv} {s : DmdSt}

theorem minorInit_ok (hok : AllOk env) (k : MinorId) :
    minorInit k env = (env.cdevAdd k, [.acquire (.cdev k), .acquire (.device k)]) := by
  rw [minorInit, if_neg (not_lt.2 (hok.cdevAdd k)), if_neg (by rw [hok.deviceCreate k]; decide)]

theorem sifpInitAll_ok (hok : AllOk env) (s : DmdSt) : sifpInitAll env s =
    (env.cdevAdd .slotSelf, { s with sifpDevice := true },
      [.acquire (.cdev .slotSelf), .acquire (.device .slotSelf)]) := by
  unfold sifpInitAll sifpDrvMainInit
  rw [if_neg (not_lt.2 (hok.cdevAdd _)), if_neg (by rw [hok.deviceCreate]; decide)]

/-- the pdm card is on line after its stage, if its callbacks are registered and no card is there -/
theorem pdmOnline_ok (hok : AllOk env) (hcalls : pdmOnlineCalls s.drv) : ∃ r d, 0 ≤ r ∧
    pdmOnline env s = (r, { s with drv := d }, [.acquire (.cdev .pdmSelf), .acquire (.device .pdmSelf)]) ∧
    (d.slot 0).typeInfo = some 0 ∧ d.cardType = s.drv.cardType := by
  have hinit : pdmDrvMainInit env = _ := minorInit_ok hok .pdmSelf
  have ht : checkType etindevPdm = some 0 := rfl
  have hres : 0 ≤ (⟨env.cdevAdd .pdmSelf, none⟩ : OnlineRes).ret := hok.cdevAdd .pdmSelf
  obtain ⟨hret, htype⟩ := online_ok ht hres hcalls.1
  refine ⟨_, _, hret, ?_, htype, pdmCardOnline_cardType _ _ _ _⟩
  unfold pdmOnline
  rw [if_pos hcalls, hinit]
  rfl

/-- after `pdm_ctor_mng_info` the callbacks of the pdm card are registered, and its slot is free -/
theorem regCb_ok {m : SlotId → Bool} (hdrv : s.drv = DrvSt.pdmCtorMngInfo m) :
    ∃ d, regCb s = (0, { s with drv := d }, []) ∧ pdmOnlineCalls d ∧
      d.cardType 0 = ⟨some pdmCbOnline, some pdmCbOffline⟩ := by
  unfold regCb
  rw [hdrv]
  exact ⟨_, rfl, ⟨rfl, rfl⟩, rfl⟩

/-- the stages behind `pdm_ctor_mng_info`, if all goes well -/
theorem stages_ok (hok : AllOk env) {m : SlotId → Bool} (hdrv : s.drv = DrvSt.pdmCtorMngInfo m) :
    ∃ d, runStages (stages env) s = (0, { s with
      pdmDevID := true
      pPdmDrvClass := true
      sifpDevice := true
      drv := d }, loadedRes.dropLast.reverse.map .acquire) ∧
    (d.slot 0).typeInfo = some 0 ∧ d.cardType 0 = ⟨some pdmCbOnline, some pdmCbOffline⟩ := by
  have halloc : ∀ u, allocChrdevRegion env u = (env.allocChrdev, { u with pdmDevID := true }, [.acquire .region]) :=
    fun u => if_neg (not_lt.2 hok.allocChrdev)
  have hcls : ∀ u, classCreate env u = (0, { u with pPdmDrvClass := true }, [.acquire .cls]) :=
    fun u => if_neg (by rw [hok.classCreate]; decide)
  have hminor : ∀ k u, (fun s => ((minorInit k env).1, s, (minorInit k env).2) : Stage) u =
      (env.cdevAdd k, u, [.acquire (.cdev k), .acquire (.device k)]) := by
    intro k u
    rw [minorInit_ok hok k]
  obtain ⟨d, hd, hcalls, hct⟩ := regCb_ok (s := { s with pdmDevID := true, pPdmDrvClass := true }) hdrv
  obtain ⟨r, d', hr, hon, htype, hct'⟩ :=
    pdmOnline_ok (s := { s with pdmDevID := true, pPdmDrvClass := true, drv := d }) hok hcalls
  refine ⟨d', ?_, htype, (congrFun hct' 0).trans hct⟩
  unfold stages
  rw [runStages_step (halloc _) hok.allocChrdev, runStages_step (hcls _) (le_refl 0), runStages_step hd (le_refl 0),
    runStages_step hon hr, runStages_step (hminor .sysFunc _) (hok.cdevAdd _),
    runStages_step (hminor .regsInfo _) (hok.cdevAdd _), runStages_step (sifpInitAll_ok hok _) (hok.cdevAdd _),
    runStages_step (f := pdmIrqInit) rfl (le_refl 0)]
  rfl

theorem runStages_cons {f : Stage} {fs : List Stage} (h : 0 ≤ (runStages (f :: fs) s).1) :
    0 ≤ (f s).1 ∧ 0 ≤ (runStages fs (f s).2.1).1 := by
  rw [runStages] at h
  split_ifs at h with hneg
  · exact absurd hneg (not_lt.2 h)
  · exact ⟨not_lt.1 hneg, h⟩

theorem minorInit_nonneg {k : MinorId} (h : 0 ≤ (minorInit k env).1) :
    0 ≤ env.cdevAdd k ∧ env.deviceCreate k = true := by
  unfold minorInit at h
  split_ifs at h with hadd hdev
  · exact absurd h (not_le.2 hadd)
  · exact absurd h (by dsimp only; decide)
  · exact ⟨not_lt.1 hadd, Bool.eq_true_of_not_eq_false hdev⟩

theorem pdmOnline_nonneg (hcalls : pdmOnlineCalls s.drv) (h : 0 ≤ (pdmOnline env s).1) :
    0 ≤ (pdmDrvMainInit env).1 := by
  refine not_lt.1 fun hneg => not_lt.2 h ?_
  have hslot : checkSlot etinSlotPdm = some 0 := rfl
  have htype : checkType etindevPdm = some 0 := rfl
  unfold pdmOnline pdmCardOnline
  simp only [if_pos hcalls, hslot, htype, hcalls.1, hcalls.2, ne_eq, not_true_eq_false, ↓reduceIte]
  rw [if_pos hneg]
  exact hneg

theorem sifpInitAll_nonneg (h : 0 ≤ (sifpInitAll env s).1) :
    0 ≤ env.cdevAdd .slotSelf ∧ env.deviceCreate .slotSelf = true := by
  unfold sifpInitAll sifpDrvMainInit at h
  dsimp only at h
  split_ifs at h with hadd hdev
  · exact absurd h (not_le.2 hadd)
  · exact absurd h (by dsimp only; decide)
  · exact ⟨not_lt.1 hadd, Bool.eq_true_of_not_eq_false hdev⟩

/-- if no stage fails, nothing does -/
theorem allOk_of_stages {m : SlotId → Bool} (hmap : env.ioremap 1 = true) (hdrv : s.drv = DrvSt.pdmCtorMngInfo m)
    (h : 0 ≤ (runStages (stages env) s).1) : AllOk env := by
  obtain ⟨halloc, h⟩ := runStages_cons h
  obtain ⟨hcls, h⟩ := runStages_cons h
  obtain ⟨-, h⟩ := runStages_cons h
  obtain ⟨hself, h⟩ := runStages_cons h
  obtain ⟨hsys, h⟩ := runStages_cons h
  obtain ⟨hregs, h⟩ := runStages_cons h
  obtain ⟨hsifp, -⟩ := runStages_cons h
  have hallocdrv : (allocChrdevRegion env s).2.1.drv = s.drv := by
    unfold allocChrdevRegion
    split_ifs <;> rfl
  have hclsdrv : ∀ u, (classCreate env u).2.1.drv = u.drv := by
    intro u
    unfold classCreate
    split_ifs <;> rfl
  obtain ⟨d, hd, hcalls, -⟩ := regCb_ok ((hclsdrv _).trans (hallocdrv.trans hdrv))
  rw [hd] at hself
  have hselfInit := minorInit_nonneg (pdmOnline_nonneg hcalls hself)
  have hsysInit := minorInit_nonneg hsys
  have hregsInit := minorInit_nonneg hregs
  have hsifpInit := sifpInitAll_nonneg hsifp
  refine ⟨hmap, ?_, ?_, fun k => ?_, fun k => ?_⟩
  · unfold allocChrdevRegion at halloc
    split_ifs at halloc with hneg
    · exact halloc
    · exact not_lt.1 hneg
  · unfold classCreate at hcls
    split_ifs at hcls with hno
    · exact absurd hcls (by dsimp only; decide)
    · exact Bool.eq_true_of_not_eq_false hno
  · cases k with
    | pdmSelf => exact hselfInit.1
    | sysFunc => exact hsysInit.1
    | regsInfo => exact hregsInit.1
    | slotSelf => exact hsifpInit.1
  · cases k with
    | pdmSelf => exact hselfInit.2
    | sysFunc => exact hsysInit.2
    | regsInfo => exact hregsInit.2
    | slotSelf => exact hsifpInit.2

/-- a `dmd_init` for which all goes well acquires everything once -/
theorem dmdInit_ok (hok : AllOk env) (hmap : s.virAddr 0 = false) :
    ∃ t, dmdInit env s = .ok (0, t, loadedRes.reverse.map .acquire) ∧ Loaded t := by
  obtain ⟨d, hrun, htype, hct⟩ := stages_ok (s := { s with
    virAddr := Function.update s.virAddr 1 true
    drv := DrvSt.pdmCtorMngInfo s.drv.masked }) hok rfl
  unfold dmdInit
  rw [ctorHw_mapped hok.ioremap]
  dsimp only
  rw [if_neg (lt_irrefl 0), hrun]
  have hone : Function.update s.virAddr 1 true 1 = true := Function.update_self ..
  have hzero : Function.update s.virAddr 1 true 0 = false := (Function.update_of_ne (by decide) _ _).trans hmap
  exact ⟨_, if_neg (lt_irrefl 0), ⟨hzero, hone, rfl, rfl, rfl, htype, hct⟩⟩

/-- a `dmd_exit` of a module that is loaded gives everything back in order -/
theorem dmdExit_loaded (h : Loaded s) : ∃ t, dmdExit s = .ok (t, loadedRes.map .release) ∧
    t.virAddr = fun _ => false := by
  have hoff : pdmOfflineCalls s.drv := ⟨0, h.typeInfo, by rw [h.cardType]⟩
  have hempty : ((pdmCardOffline etinSlotPdm s.drv).slot 0).typeInfo = none :=
    (offline_typeInfo etinSlotPdm s.drv 0).trans (if_pos rfl)
  have hno : ¬ pdmUnregCalls (pdmCardOffline etinSlotPdm s.drv) := by
    rintro ⟨htype, -⟩
    rw [hempty] at htype
    cases htype
  have hcb : ((pdmCardOffline etinSlotPdm s.drv).cardType 0).cbOffline = some pdmCbOffline := by
    rw [pdmCardOffline_cardType, h.cardType]
  obtain ⟨d, hunreg⟩ : ∃ d, pdmUnregOnlineOfflineCb etindevPdm (pdmCardOffline etinSlotPdm s.drv) = .ok d :=
    ⟨_, unregSlot_foldlM 0 hcb _ _⟩
  unfold dmdExit
  dsimp only
  rw [hunreg, if_pos hoff, if_neg hno, ok_bind]
  refine ⟨_, congrArg Except.ok (Prod.ext rfl ?_), rfl⟩
  simp only [dtorHw_trace, sifpExitAll, sifpDrvMainExit, h.noMap, h.virAddr, h.pdmDevID, h.pPdmDrvClass,
    h.sifpDevice, ↓reduceIte, Bool.false_eq_true]
  rfl

end Loading

/-! ## Runs -/

/-- what is held after n `dmd_init`s -/
def heldK (n : ℕ) : List DmdRes := (List.replicate n loadedRes).flatten

theorem heldK_succ (n : ℕ) : heldK (n + 1) = loadedRes ++ heldK n := by
  rw [heldK, List.replicate_succ, List.flatten_cons, heldK]

theorem count_heldK (n : ℕ) : (heldK n).count (.map 1) = n := by
  induction n with
  | zero => rfl
  | succ n ih =>
    have hone : loadedRes.count (.map 1) = 1 := by decide
    calc (heldK (n + 1)).count (.map 1) = (loadedRes ++ heldK n).count (.map 1) := by rw [heldK_succ]
      _ = loadedRes.count (.map 1) + (heldK n).count (.map 1) := List.count_append
      _ = n + 1 := by rw [hone, ih, add_comm]

theorem heldK_eq_nil {n : ℕ} : heldK n = [] ↔ n = 0 := by
  refine ⟨fun h => ?_, fun h => h ▸ rfl⟩
  rw [← count_heldK n, h, List.count_nil]

/-- the runs that keep to the order: what n `dmd_init`s acquired is held -/
structure DmdInv (s : DmdSys) : Prop where
  held : s.held = some (heldK s.loads)
  noMap : s.st.virAddr 0 = false
  loaded : 0 < s.loads → Loaded s.st

section Runs

variable {s : DmdSys} {env : DmdEnv}

/-- with nothing mapped in slot 0, a `dmd_init` whose mapping fails does nothing -/
theorem dmdInit_noMap {t : DmdSt} (hmap : env.ioremap 1 = false) (hzero : t.virAddr 0 = false) :
    dmdInit env t = .ok (-eio, { t with virAddr := fun _ => false }, []) := by
  have hone : Function.update t.virAddr 1 false 1 = false := Function.update_self ..
  have hzero' : Function.update t.virAddr 1 false 0 = false := (Function.update_of_ne (by decide) _ _).trans hzero
  have hhw : pdmCtorHw env t = (-eio, { t with virAddr := fun _ => false }, []) := by
    rw [ctorHw_eq, if_pos hmap, dtorHw_trace]
    simp only [hone, hzero', Bool.false_eq_true, ↓reduceIte]
    rfl
  have hneg : -eio < 0 := by decide
  unfold dmdInit
  rw [hhw]
  exact if_pos hneg

/-- one whose mapping succeeds fails unless all goes well; then the device of `sifp` is deleted more often than it is
added, and slot 1 is mapped once -/
theorem dmdInit_mapped {t t' : DmdSt} {r : ℤ} {es : List (ResEv DmdRes)} (hmap : env.ioremap 1 = true)
    (h : dmdInit env t = .ok (r, t', es)) : AllOk env ∨ r < 0 ∧
      es.count (.acquire (.cdev .slotSelf)) < es.count (.release (.cdev .slotSelf)) ∧
      es.count (.acquire (.map 1)) = 1 ∧ es.count (.release (.map 1)) ≤ 1 := by
  unfold dmdInit at h
  rw [ctorHw_mapped hmap] at h
  dsimp only at h
  rw [if_neg (lt_irrefl 0)] at h
  by_cases hneg : (runStages (stages env) { t with
      virAddr := Function.update t.virAddr 1 true
      drv := DrvSt.pdmCtorMngInfo t.drv.masked }).1 < 0
  · rw [if_pos hneg] at h
    obtain ⟨⟨u, fs⟩, hexit, h⟩ := bind_eq_ok h
    simp only [Except.ok.injEq, Prod.mk.injEq] at h
    obtain ⟨rfl, -, rfl⟩ := h
    obtain ⟨hcdev, hmaps⟩ := stages_fail hneg
    obtain ⟨hmem, hone, hnone⟩ := dmdExit_trace hexit
    have hzero : ∀ e : ResEv DmdRes, e.res = .map 1 → List.count e (runStages (stages env) _).2.2 = 0 :=
      fun e he => List.count_eq_zero.2 fun hmem => hmaps e hmem 1 he
    have hacq : ∀ q, fs.count (.acquire q) = 0 := fun q => List.count_eq_zero.2 (hnone q)
    have hpos : 0 < fs.count (.release (.cdev .slotSelf)) := List.count_pos_iff.2 hmem
    refine Or.inr ⟨hneg, ?_, ?_, ?_⟩
    · rw [List.count_append, List.count_append, List.count_append, List.count_append, hacq]
      have hfront : ([.acquire (.map 1)] : List (ResEv DmdRes)).count (.acquire (.cdev .slotSelf)) = 0 := by decide
      rw [hfront]
      omega
    · rw [List.count_append, List.count_append, hzero _ rfl, hacq]
      rfl
    · rw [List.count_append, List.count_append, hzero _ rfl]
      have hfront : ([.acquire (.map 1)] : List (ResEv DmdRes)).count (.release (.map 1)) = 0 := by decide
      rw [hfront]
      omega
  · exact Or.inl (allOk_of_stages hmap rfl (not_lt.1 hneg))

theorem balances_init_iff (hinv : DmdInv s) (env : DmdEnv) : Balances s (.init env) ↔ InOrder s (.init env) := by
  constructor
  · rintro ⟨r, t, es, hinit, h, hheld, hfail⟩
    rw [hinv.held, Option.bind_some] at hheld
    rcases hmap : env.ioremap 1 with _ | _
    · -- nothing is given back
      rw [dmdInit_noMap hmap hinv.noMap] at hinit
      simp only [Except.ok.injEq, Prod.mk.injEq] at hinit
      obtain ⟨rfl, -, rfl⟩ := hinit
      cases hheld
      exact Or.inr ⟨heldK_eq_nil.1 (hfail (by decide)), hmap⟩
    · refine (dmdInit_mapped hmap hinit).imp id fun ⟨hneg, hcdev, hacq, hrel⟩ => ?_
      have hcount := count_heldAfter (.cdev .slotSelf) hheld
      have hcountMap := count_heldAfter (.map 1) hheld
      rw [hfail hneg, List.count_nil] at hcount hcountMap
      -- what is loaded stays mapped; if nothing is loaded, there is no device of sifp to delete
      have hloads : s.loads = 0 := by
        rw [count_heldK] at hcountMap
        omega
      rw [hloads] at hcount
      have hempty : (heldK 0).count (.cdev .slotSelf) = 0 := rfl
      rw [hempty] at hcount
      omega
  · rintro (hok | ⟨hloads, hmap⟩)
    · obtain ⟨t, hinit, -⟩ := dmdInit_ok hok hinv.noMap
      refine ⟨0, t, _, hinit, heldK (s.loads + 1), ?_, fun hneg => absurd hneg (lt_irrefl 0)⟩
      rw [hinv.held, Option.bind_some, heldAfter_acquires, List.reverse_reverse, heldK_succ]
    · refine ⟨_, _, _, dmdInit_noMap hmap hinv.noMap, heldK s.loads, ?_, fun _ => heldK_eq_nil.2 hloads⟩
      rw [hinv.held]
      rfl

theorem balances_exit_iff (hinv : DmdInv s) : Balances s .exit ↔ InOrder s .exit := by
  constructor
  · rintro ⟨t, es, hexit, hheld⟩
    rw [hinv.held, Option.bind_some] at hheld
    rcases hloads : s.loads with _ | n
    · -- there is no device of sifp to delete
      obtain ⟨hmem, -, hnone⟩ := dmdExit_trace hexit
      have hcount := count_heldAfter (.cdev .slotSelf) hheld
      have hacq : es.count (.acquire (.cdev .slotSelf)) = 0 := List.count_eq_zero.2 (hnone _)
      have hpos : 0 < es.count (.release (.cdev .slotSelf)) := List.count_pos_iff.2 hmem
      have hempty : (heldK s.loads).count (.cdev .slotSelf) = 0 := by
        rw [hloads]
        rfl
      rw [List.count_nil, hacq, hempty] at hcount
      omega
    · obtain ⟨u, hloaded, -⟩ := dmdExit_loaded (hinv.loaded (hloads ▸ Nat.succ_pos n))
      rw [hexit] at hloaded
      simp only [Except.ok.injEq, Prod.mk.injEq] at hloaded
      rw [hloaded.2, hloads, heldK_succ, heldAfter_releases, Option.some_inj, heldK_eq_nil] at hheld
      rw [InOrder, hloads, hheld]
  · intro hloads
    have hone : s.loads = 1 := hloads
    obtain ⟨t, hexit, -⟩ := dmdExit_loaded (hinv.loaded (hone ▸ Nat.one_pos))
    refine ⟨t, _, hexit, ?_⟩
    rw [hinv.held, Option.bind_some, hone, heldK_succ, heldAfter_releases]
    rfl

theorem dmdStep_inv (hinv : DmdInv s) {op : DmdOp} (hop : InOrder s op) {t : DmdSys} (hstep : dmdStep s op = .ok t) :
    DmdInv t := by
  cases op with
  | init env =>
    rcases hop with hok | ⟨hloads, hmap⟩
    · obtain ⟨u, hinit, hloaded⟩ := dmdInit_ok hok hinv.noMap
      rw [dmdStep, hinit, ok_bind] at hstep
      cases hstep
      refine ⟨?_, hloaded.noMap, fun _ => hloaded⟩
      dsimp only
      rw [hinv.held, Option.bind_some, heldAfter_acquires, List.reverse_reverse, if_neg (lt_irrefl 0), heldK_succ]
    · rw [dmdStep, dmdInit_noMap hmap hinv.noMap, ok_bind] at hstep
      cases hstep
      refine ⟨?_, rfl, fun hpos => ?_⟩
      · dsimp only
        rw [hinv.held, if_pos (by decide)]
        rfl
      · dsimp only at hpos
        rw [if_pos (by decide), hloads] at hpos
        exact absurd hpos (lt_irrefl 0)
  | exit =>
    have hone : s.loads = 1 := hop
    obtain ⟨u, hexit, hmap⟩ := dmdExit_loaded (hinv.loaded (hone ▸ Nat.one_pos))
    rw [dmdStep, hexit, ok_bind] at hstep
    cases hstep
    refine ⟨?_, by rw [hmap], fun hpos => absurd hpos (lt_irrefl 0)⟩
    dsimp only
    rw [hinv.held, Option.bind_some, hone, heldK_succ, heldAfter_releases]

end Runs

/-- the module before it is loaded -/
def DmdSys.start (masked : SlotId → Bool) : DmdSys :=
  ⟨⟨fun _ => false, false, false, false, DrvSt.pdmCtorMngInfo masked⟩, some [], 0⟩

/-- **Loading and unloading the pdm driver balances iff nothing fails behind the mapping.** In every run of
`dmd_init`s and `dmd_exit`s, with any results of the kernel: each gives back only what is held, and nothing is held
after a failed `dmd_init` and after a `dmd_exit`, iff every `dmd_init` succeeds with all that it asks for, or fails at
its first mapping with nothing loaded, and every `dmd_exit` undoes exactly one `dmd_init`. -/
theorem dmd_balanced_iff (masked : SlotId → Bool) (ops : List DmdOp) :
    Always dmdStep Balances (DmdSys.start masked) ops ↔ Always dmdStep InOrder (DmdSys.start masked) ops := by
  refine always_iff (I := DmdInv) (fun s op h => ?_) (fun s op t h hop hstep => dmdStep_inv h hop hstep)
    ⟨rfl, rfl, fun h => absurd h (lt_irrefl 0)⟩
  cases op with
  | init env => exact balances_init_iff h env
  | exit => exact balances_exit_iff h

/-- the device numbers are not to be had: `dmd_exit` deletes and destroys devices that were never added -/
theorem dmd_init_unbalanced :
    ¬ Always dmdStep Balances (DmdSys.start fun _ => false)
      [.init ⟨fun _ => true, -enomem, true, fun _ => 0, fun _ => true⟩] := by
  rintro ⟨⟨r, t, es, hinit, h, hheld, -⟩, -⟩
  cases hinit
  have hnone : (none : Option (List DmdRes)) = some h := hheld
  cases hnone

end LinuxDrv.Driver
