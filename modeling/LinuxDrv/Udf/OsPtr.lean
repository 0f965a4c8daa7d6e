/-
What a card driver takes for a class and for a device (`IS_OS_PTR_INVALID` in `udf_dev.h`), and what it leaves when it
fails to load.

`class_create` and `device_create` return a pointer to an object, or an error pointer. The comment above
`IS_OS_PTR_INVALID` says that it is a copy of `IS_ERR_OR_NULL`, but its test for error pointers is commented out; the
function of the same name in the pdm driver has it. So an error pointer passes for a class, and for a device.

A module registers its callbacks last. `pdm_reg_online_offline_cb` calls `udf_online` for the cards of the type that are
plugged, and returns what the last of these calls returned. If that is an error, `udf_drv_mod_exit` undoes the steps
that were counted, the registration not among them, and what `udf_online` acquired for the cards stays.

The functions of `udf_drv.c` and `file_op.c` are here with the pointers they get, and with the trace of what they
acquire from the kernel and give back. `udfMainInit_refines`, `reg_refines`, `modInit_refines`: they do what the
functions of `Driver.Ext`, `Udf.Module` and `Udf.Dev` do, which only see whether a pointer is NULL.
- `reg_spec`: what a registration does to the module, and its trace.
- `mainInit_givesBack`: a `udf_main_init` that fails gives back what it acquired.
- `sweep_givesBack_iff`: a `udf_drv_mod_init` that fails in its registration does iff no card got an instance.
- `os_ptr_valid_iff`: classes and devices are valid, and failed calls give back what they acquired, iff no error pointer
  is returned and no registration fails after a card got an instance.
-/
import LinuxDrv.Core.Ledger
import LinuxDrv.Udf.Dev

namespace LinuxDrv.Udf.Os

open LinuxDrv.Core LinuxDrv.Driver

/-- a pointer that `class_create` or `device_create` returns; `err` is `ERR_PTR` -/
inductive OsPtr where
  | null
  | err (e : ℕ)
  | obj (p : Ptr)
deriving DecidableEq

/-- `IS_OS_PTR_INVALID` of the template -/
def isOsPtrInvalid (ptr : OsPtr) : Bool := ptr = .null

/-- a pointer to an object -/
def OsPtr.Valid (ptr : OsPtr) : Prop := ∃ p, ptr = .obj p

/-- an error pointer -/
def OsPtr.IsErr (ptr : OsPtr) : Prop := ∃ e, ptr = .err e

/-- what a card driver acquires from the kernel -/
inductive OsRes where
  | region
  | cls
  | mem (p : Ptr)
  | cdev (i : SlotId)
  | device (i : SlotId)
deriving DecidableEq

/-- `class_create` and `device_create` acquire what they return a pointer to -/
def created (r : OsRes) : OsPtr → List (ResEv OsRes)
  | .obj _ => [.acquire r]
  | _ => []

/-- `udf_drv_t` -/
structure Drv where
  pData : Ptr
  mPDevice : OsPtr
deriving DecidableEq

structure OsSt where
  initStep : ℤ
  pUdfClass : OsPtr
  /-- `g_udf_hw_addr` -/
  hwAddr : SlotId → Option Ptr
  /-- `g_udf_dev_set` -/
  devSet : SlotId → Option Drv

/-- the variables of the module when it is loaded -/
def OsSt.load : OsSt := ⟨0, .null, fun _ => none, fun _ => none⟩

/-- what the kernel returns to `udf_main_init` -/
structure InitEnv where
  malloc : Option Ptr
  cdevAdd : ℤ
  deviceCreate : OsPtr

/-! ## The functions -/

/-- `udf_main_exit` -/
def udfMainExit (i : SlotId) (p : Ptr) : List (ResEv OsRes) :=
  [.release (.device i), .release (.cdev i), .release (.mem p)]

/-- `udf_main_init`: the instance, and the trace -/
def udfMainInit (i : SlotId) (env : InitEnv) : Option Drv × List (ResEv OsRes) :=
  match env.malloc with
  | none => (none, [])
  | some p =>
    if env.cdevAdd < 0 then (none, .acquire (.mem p) :: udfMainExit i p)
    else if isOsPtrInvalid env.deviceCreate then
      (none, .acquire (.mem p) :: .acquire (.cdev i) :: udfMainExit i p)
    else (some ⟨p, env.deviceCreate⟩,
      .acquire (.mem p) :: .acquire (.cdev i) :: created (.device i) env.deviceCreate)

/-- `udf_online` calls `udf_main_init` -/
def initCalls (slot : ℤ) (cardBaseAddr : Option Ptr) (m : OsSt) (i : SlotId) : Prop :=
  checkSlot slot = some i ∧ cardBaseAddr ≠ none ∧ m.hwAddr i = none

/-- `udf_online`; `bh` is what `udf_bh_online` returns -/
def udfOnline (slot : ℤ) (cardBaseAddr : Option Ptr) (env : InitEnv) (bh : ℤ) (m : OsSt) :
    ℤ × OsSt × List (ResEv OsRes) :=
  match checkSlot slot, cardBaseAddr with
  | some i, some a =>
    if m.hwAddr i ≠ none then (-eexist, m, [])
    else
      let x := udfMainInit i env
      match x.1 with
      | none => (-enomem, m, x.2)
      | some d => (bh, { m with
          hwAddr := Function.update m.hwAddr i (some a)
          devSet := Function.update m.devSet i (some d) }, x.2)
  | _, _ => (-einval, m, [])

/-- `udf_offline` -/
def udfOffline (slot : ℤ) (m : OsSt) : OsSt × List (ResEv OsRes) :=
  match checkSlot slot with
  | none => (m, [])
  | some i => ({ m with hwAddr := Function.update m.hwAddr i none, devSet := Function.update m.devSet i none },
      match m.devSet i with
      | some d => udfMainExit i d.pData
      | none => [])

/-- a card that is plugged: its base address, as the pdm driver has it, and what `udf_main_init` and `udf_bh_online` get
for it -/
structure Card where
  baseAddr : Option Ptr
  env : InitEnv
  bh : ℤ

/-- one round of the loop of `pdm_reg_online_offline_cb`, with the `udf_online` that it calls -/
def regSlot (t : TypeId) (d : DrvSt) (cards : SlotId → Card) (x : ℤ × OsSt × List (ResEv OsRes)) (i : SlotId) :
    ℤ × OsSt × List (ResEv OsRes) :=
  if (d.slot i).typeInfo = some t then
    let y := udfOnline (i : ℕ) (cards i).baseAddr (cards i).env (cards i).bh x.2.1
    (y.1, y.2.1, x.2.2 ++ y.2.2)
  else x

/-- `pdm_reg_online_offline_cb` as the module calls it, and what it does to the module; `d` are the tables of the pdm
driver -/
def pdmRegOnlineOfflineCb (c : Cfg) (d : DrvSt) (cards : SlotId → Card) (m : OsSt) : ℤ × OsSt × List (ResEv OsRes) :=
  match checkType c.cardType with
  | none => (-einval, m, [])
  | some t =>
    if (d.cardType t).cbOnline ≠ none ∨ (d.cardType t).cbOffline ≠ none then (-eexist, m, [])
    else (List.finRange etinSlotMax).foldl (regSlot t d cards) (0, m, [])

/-- one round of the loop of `pdm_unreg_online_offline_cb`, with the `udf_offline` that it calls -/
def unregSlot (t : TypeId) (d : DrvSt) (x : OsSt × List (ResEv OsRes)) (i : SlotId) : OsSt × List (ResEv OsRes) :=
  if (d.slot i).typeInfo = some t then
    let y := udfOffline (i : ℕ) x.1
    (y.1, x.2 ++ y.2)
  else x

/-- `pdm_unreg_online_offline_cb` as the module calls it, and what it does to the module -/
def pdmUnregOnlineOfflineCb (c : Cfg) (d : DrvSt) (m : OsSt) : OsSt × List (ResEv OsRes) :=
  match checkType c.cardType with
  | none => (m, [])
  | some t => (List.finRange etinSlotMax).foldl (unregSlot t d) (m, [])

/-- `udf_drv_mod_exit` -/
def udfDrvModExit (c : Cfg) (d : DrvSt) (m : OsSt) : OsSt × List (ResEv OsRes) :=
  let x : OsSt × List (ResEv OsRes) :=
    if 3 ≤ m.initStep then
      let y := pdmUnregOnlineOfflineCb c d m
      ({ y.1 with initStep := y.1.initStep - 1 }, y.2)
    else (m, [])
  let x : OsSt × List (ResEv OsRes) :=
    if 2 ≤ x.1.initStep then
      ({ x.1 with pUdfClass := .null, initStep := x.1.initStep - 1 }, x.2 ++ [.release .cls])
    else x
  if 1 ≤ x.1.initStep then ({ x.1 with initStep := x.1.initStep - 1 }, x.2 ++ [.release .region]) else x

/-- `udf_drv_mod_init` up to `return_ret` -/
def initSteps (c : Cfg) (alloc : ℤ) (cls : OsPtr) (d : DrvSt) (cards : SlotId → Card) (m : OsSt) :
    ℤ × OsSt × List (ResEv OsRes) :=
  let m := { m with devSet := fun _ => none }
  if alloc < 0 then (alloc, m, [])
  else
    let m := { m with initStep := m.initStep + 1, pUdfClass := cls }
    if isOsPtrInvalid cls then (-enomem, { m with pUdfClass := .null }, [.acquire .region])
    else
      let m := { m with initStep := m.initStep + 1 }
      let x := pdmRegOnlineOfflineCb c d cards m
      let es := .acquire .region :: created .cls cls ++ x.2.2
      if x.1 < 0 then (x.1, x.2.1, es) else (x.1, { x.2.1 with initStep := x.2.1.initStep + 1 }, es)

/-- `udf_drv_mod_init` -/
def udfDrvModInit (c : Cfg) (alloc : ℤ) (cls : OsPtr) (d : DrvSt) (cards : SlotId → Card) (m : OsSt) :
    ℤ × OsSt × List (ResEv OsRes) :=
  let x := initSteps c alloc cls d cards m
  if x.1 < 0 then
    let y := udfDrvModExit c d x.2.1
    (x.1, y.1, x.2.2 ++ y.2)
  else x

/-! ## The functions without their pointers -/

section Refines

/-- `udf_main_init` of `Udf.Dev` gives an instance at the same address -/
theorem udfMainInit_refines (i : SlotId) (env : InitEnv) (bh : ℤ) (s : DevSt)
    (hfree : ∀ p ∈ env.malloc, s.heap p = none) :
    ∃ t, Udf.udfMainInit i ⟨env.malloc, env.cdevAdd, !isOsPtrInvalid env.deviceCreate, bh⟩ s =
      .ok ((udfMainInit i env).1.map Drv.pData, t) := by
  unfold Udf.udfMainInit udfMainInit
  rcases hm : env.malloc with _ | p
  · exact ⟨s, rfl⟩
  have hmalloc : ukcMalloc (some p) s = some p := by
    rw [ukcMalloc, Option.filter_some, if_pos (decide_eq_true (hfree p hm))]
  simp only [hmalloc]
  by_cases hadd : env.cdevAdd < 0
  · rw [if_pos hadd, if_pos hadd]
    simp [Udf.udfMainExit]
  rw [if_neg hadd, if_neg hadd]
  by_cases hdev : isOsPtrInvalid env.deviceCreate = true
  · rw [if_pos (by rw [hdev]; rfl), if_pos hdev]
    simp [Udf.udfMainExit]
  · rw [if_neg (by simp [hdev]), if_neg hdev]
    exact ⟨_, rfl⟩

end Refines

/-! ## udf_main_init -/

/-- `udf_main_init` gives an instance: an error pointer for a device passes -/
def InitEnv.Gives (env : InitEnv) : Prop := env.malloc ≠ none ∧ 0 ≤ env.cdevAdd ∧ env.deviceCreate ≠ .null

instance (env : InitEnv) : Decidable env.Gives := inferInstanceAs (Decidable (_ ∧ _ ∧ _))

/-- `device_create`, if it is called, returns no error pointer -/
def InitEnv.NoErr (env : InitEnv) : Prop := env.malloc ≠ none → 0 ≤ env.cdevAdd → ¬ env.deviceCreate.IsErr

/-- an instance has a valid device, and a call that gives none gives back what it acquired -/
def InitValid (i : SlotId) (env : InitEnv) : Prop :=
  (∀ d ∈ (udfMainInit i env).1, d.mPDevice.Valid) ∧
  ((udfMainInit i env).1 = none → GivesBack (owned (udfMainInit i env).2))

section Init

variable {i : SlotId} {env : InitEnv}

/-- a pointer other than NULL is valid unless it is an error pointer -/
theorem valid_iff_of_ne_null {ptr : OsPtr} (h : ptr ≠ .null) : ptr.Valid ↔ ¬ ptr.IsErr := by
  unfold OsPtr.Valid OsPtr.IsErr
  cases ptr with
  | null => exact absurd rfl h
  | err e => simp
  | obj p => simp

/-- a `udf_main_init` that fails makes its calls up to the one that failed, and `udf_main_exit`; one that gives an
instance acquires at least the memory and the character device, and releases nothing -/
theorem mainInit_cases (i : SlotId) (env : InitEnv) :
    (¬ env.Gives ∧ (udfMainInit i env = (none, []) ∨ ∃ p,
      udfMainInit i env = (none, .acquire (.mem p) :: udfMainExit i p) ∨
      udfMainInit i env = (none, .acquire (.mem p) :: .acquire (.cdev i) :: udfMainExit i p))) ∨
    (env.Gives ∧ ∃ p, udfMainInit i env = (some ⟨p, env.deviceCreate⟩,
      .acquire (.mem p) :: .acquire (.cdev i) :: created (.device i) env.deviceCreate)) := by
  unfold InitEnv.Gives udfMainInit
  rcases env.malloc with _ | p
  · exact Or.inl ⟨fun h => h.1 rfl, Or.inl rfl⟩
  by_cases hadd : env.cdevAdd < 0
  · refine Or.inl ⟨fun h => absurd h.2.1 (not_le.2 hadd), Or.inr ⟨p, Or.inl ?_⟩⟩
    simp only [hadd, ↓reduceIte]
  by_cases hdev : env.deviceCreate = .null
  · refine Or.inl ⟨fun h => h.2.2 hdev, Or.inr ⟨p, Or.inr ?_⟩⟩
    simp only [hadd, hdev, isOsPtrInvalid, decide_true, ↓reduceIte]
  · refine Or.inr ⟨⟨Option.some_ne_none p, not_lt.1 hadd, hdev⟩, p, ?_⟩
    simp only [hadd, hdev, isOsPtrInvalid, decide_false, Bool.false_eq_true, ↓reduceIte]

/-- a `udf_main_init` that gives no instance gives back what it acquired -/
theorem mainInit_givesBack (hno : ¬ env.Gives) : GivesBack (owned (udfMainInit i env).2) := by
  rcases mainInit_cases i env with ⟨-, hinit | ⟨p, hinit | hinit⟩⟩ | ⟨hgives, -⟩
  · rw [hinit]
    exact rfl
  · rw [hinit]
    simp [GivesBack, owned, udfMainExit, heldAfter, ResEv.res]
  · rw [hinit]
    simp [GivesBack, owned, udfMainExit, heldAfter, ResEv.res]
  · exact absurd hgives hno

/-- the calls are right iff `device_create`, if it is called, returns no error pointer -/
theorem initValid_iff : InitValid i env ↔ env.NoErr := by
  have hback : (udfMainInit i env).1 = none → GivesBack (owned (udfMainInit i env).2) := by
    intro hnone
    refine mainInit_givesBack fun hgives => ?_
    rcases mainInit_cases i env with ⟨hno, -⟩ | ⟨-, p, hinit⟩
    · exact hno hgives
    · rw [hinit] at hnone
      cases hnone
  refine (and_iff_left hback).trans ?_
  unfold InitEnv.NoErr
  rcases mainInit_cases i env with ⟨hno, hinit⟩ | ⟨⟨hm, hadd, hdev⟩, p, hinit⟩
  · have hnone : (udfMainInit i env).1 = none := by
      rcases hinit with hinit | ⟨p, hinit | hinit⟩ <;> rw [hinit]
    rw [hnone]
    refine iff_of_true (fun d hd => by cases hd) fun hm hadd herr => ?_
    obtain ⟨e, he⟩ := herr
    exact hno ⟨hm, hadd, by rw [he]; exact OsPtr.noConfusion⟩
  · rw [hinit]
    have hvalid := valid_iff_of_ne_null hdev
    exact ⟨fun h _ _ => hvalid.1 (h _ rfl), fun h d hd => by cases hd; exact hvalid.2 (h hm hadd)⟩

end Init

/-! ## The calls of a registration -/

/-- what `udf_online` returns for a card in a slot that is free -/
def Card.ret (card : Card) : ℤ :=
  if card.baseAddr = none then -einval else if card.env.Gives then card.bh else -enomem

/-- its trace -/
def Card.trace (card : Card) (i : SlotId) : List (ResEv OsRes) :=
  if card.baseAddr = none then [] else (udfMainInit i card.env).2

/-- the card gets an instance -/
def Card.Inst (card : Card) : Prop := card.baseAddr ≠ none ∧ card.env.Gives

instance (card : Card) : Decidable card.Inst := inferInstanceAs (Decidable (_ ∧ _))

/-- what the calls of `udf_online` for the slots `js` do to the module -/
structure Swept (cards : SlotId → Card) (js : List SlotId) (m m' : OsSt) : Prop where
  initStep : m'.initStep = m.initStep
  pUdfClass : m'.pUdfClass = m.pUdfClass
  hwAddr : ∀ j ∉ js, m'.hwAddr j = m.hwAddr j
  devSet : ∀ j, ∀ x ∈ m'.devSet j, m.devSet j = some x ∨
    (j ∈ js ∧ (cards j).baseAddr ≠ none ∧ (udfMainInit j (cards j).env).1 = some x)

section Sweep

variable {c : Cfg} {d : DrvSt} {cards : SlotId → Card} {m m' m'' : OsSt} {i : SlotId} {js : List SlotId}

theorem Card.ret_neg_iff {card : Card} : card.ret < 0 ↔ ¬ card.Inst ∨ card.bh < 0 := by
  have hinval : 0 < einval := by decide
  have hnomem : 0 < enomem := by decide
  unfold Card.ret Card.Inst
  by_cases ha : card.baseAddr = none
  · simp [ha, hinval]
  · by_cases hg : card.env.Gives
    · simp [ha, hg]
    · simp [ha, hg, hnomem]

theorem Card.ret_eq_zero_iff {card : Card} : card.ret = 0 ↔ card.Inst ∧ card.bh = 0 := by
  have hinval : -einval ≠ 0 := by decide
  have hnomem : -enomem ≠ 0 := by decide
  unfold Card.ret Card.Inst
  by_cases ha : card.baseAddr = none
  · simp [ha, hinval]
  · by_cases hg : card.env.Gives
    · simp [ha, hg]
    · simp [ha, hg, hnomem]

/-- what a registration returns that calls `udf_online` for the slots `js`, that of the first one last -/
def regRet (cards : SlotId → Card) (js : List SlotId) : ℤ := (js.head?.map fun i => (cards i).ret).getD 0

theorem regRet_neg_iff : regRet cards js < 0 ↔ ∃ i ∈ js.head?, ¬ (cards i).Inst ∨ (cards i).bh < 0 := by
  unfold regRet
  rcases js.head? with _ | i
  · simp
  · simp [Card.ret_neg_iff]

theorem regRet_eq_zero_iff : regRet cards js = 0 ↔ ∀ i ∈ js.head?, (cards i).Inst ∧ (cards i).bh = 0 := by
  unfold regRet
  rcases js.head? with _ | i
  · simp
  · simp [Card.ret_eq_zero_iff]

theorem Swept.refl (cards : SlotId → Card) (m : OsSt) : Swept cards [] m m :=
  ⟨rfl, rfl, fun _ _ => rfl, fun _ _ hx => Or.inl hx⟩

theorem Swept.cons (h : Swept cards [i] m m') (h' : Swept cards js m' m'') : Swept cards (i :: js) m m'' := by
  refine ⟨h'.initStep.trans h.initStep, h'.pUdfClass.trans h.pUdfClass, fun j hj => ?_, fun j x hx => ?_⟩
  · rw [List.mem_cons, not_or] at hj
    rw [h'.hwAddr j hj.2, h.hwAddr j (by simpa using hj.1)]
  · rcases h'.devSet j x hx with hx | ⟨hj, hcard⟩
    · rcases h.devSet j x hx with hx | ⟨hj, hcard⟩
      · exact Or.inl hx
      · exact Or.inr ⟨by rw [List.mem_singleton.1 hj]; exact List.mem_cons_self, hcard⟩
    · exact Or.inr ⟨List.mem_cons_of_mem i hj, hcard⟩

/-- a `udf_online` for a slot that is free -/
theorem udfOnline_free (hfree : m.hwAddr i = none) (cards : SlotId → Card) :
    ∃ m', udfOnline (i : ℕ) (cards i).baseAddr (cards i).env (cards i).bh m =
      ((cards i).ret, m', (cards i).trace i) ∧ Swept cards [i] m m' := by
  have hsame : Swept cards [i] m m := ⟨rfl, rfl, fun _ _ => rfl, fun _ _ hx => Or.inl hx⟩
  unfold udfOnline Card.ret Card.trace
  rw [checkSlot_coe]
  rcases ha : (cards i).baseAddr with _ | a
  · exact ⟨m, rfl, hsame⟩
  simp only [hfree, ne_eq, not_true_eq_false, ↓reduceIte, reduceCtorEq]
  rcases mainInit_cases i (cards i).env with ⟨hno, hinit⟩ | ⟨hgives, p, hinit⟩
  · have hnone : (udfMainInit i (cards i).env).1 = none := by
      rcases hinit with hinit | ⟨p, hinit | hinit⟩ <;> rw [hinit]
    rw [hnone, if_neg hno]
    exact ⟨m, rfl, hsame⟩
  · have hsome := congrArg Prod.fst hinit
    rw [hsome, if_pos hgives]
    refine ⟨_, rfl, rfl, rfl, fun j hj => ?_, fun j x hx => ?_⟩
    · exact Function.update_of_ne (by simpa using hj) ..
    · by_cases hji : j = i
      · subst hji
        refine Or.inr ⟨List.mem_cons_self, by rw [ha]; exact Option.some_ne_none a, ?_⟩
        rw [hsome]
        simpa using hx
      · exact Or.inl (by simpa [hji] using hx)

/-- the loop: it returns what the last `udf_online` returned -/
theorem regSlot_foldl (t : TypeId) (d : DrvSt) (cards : SlotId → Card) (js : List SlotId) (hnd : js.Nodup) :
    ∀ x : ℤ × OsSt × List (ResEv OsRes), (∀ j ∈ js, x.2.1.hwAddr j = none) →
      ∃ m', js.foldl (regSlot t d cards) x =
        (((js.filter fun i => decide ((d.slot i).typeInfo = some t)).getLast?.map fun i => (cards i).ret).getD x.1, m',
          x.2.2 ++ (js.filter fun i => decide ((d.slot i).typeInfo = some t)).flatMap fun i => (cards i).trace i) ∧
        Swept cards (js.filter fun i => decide ((d.slot i).typeInfo = some t)) x.2.1 m' := by
  induction js with
  | nil =>
    rintro ⟨r, m, es⟩ -
    exact ⟨m, by simp, Swept.refl cards m⟩
  | cons j js ih =>
    rintro ⟨r, m, es⟩ hfree
    obtain ⟨hj, hnd⟩ := List.nodup_cons.1 hnd
    rw [List.foldl_cons]
    by_cases hty : (d.slot j).typeInfo = some t
    · obtain ⟨m', honline, hswept⟩ := udfOnline_free (hfree j List.mem_cons_self) cards
      have hround : regSlot t d cards (r, m, es) j = ((cards j).ret, m', es ++ (cards j).trace j) := by
        rw [regSlot, if_pos hty, honline]
      have hfree' : ∀ k ∈ js, m'.hwAddr k = none := fun k hk => by
        have hkj : k ≠ j := fun he => hj (he ▸ hk)
        rw [hswept.hwAddr k (by simpa using hkj)]
        exact hfree k (List.mem_cons_of_mem j hk)
      obtain ⟨m'', hloop, hswept'⟩ := ih hnd (regSlot t d cards (r, m, es) j) (by rw [hround]; exact hfree')
      rw [hround] at hloop hswept'
      rw [hround, hloop, List.filter_cons_of_pos (by simpa using hty), List.flatMap_cons, List.append_assoc]
      refine ⟨m'', ?_, hswept.cons hswept'⟩
      rcases hlast : (js.filter fun i => decide ((d.slot i).typeInfo = some t)).getLast? with _ | k
      · rw [List.getLast?_eq_none_iff.1 hlast]
        rfl
      · rw [List.getLast?_cons, hlast]
        rfl
    · have hround : regSlot t d cards (r, m, es) j = (r, m, es) := if_neg hty
      rw [hround, List.filter_cons_of_neg (by simpa using hty)]
      exact ih hnd (r, m, es) fun k hk => hfree k (List.mem_cons_of_mem j hk)

/-- the tables of the pdm driver take the callbacks of the module -/
def Registers (c : Cfg) (d : DrvSt) (t : TypeId) : Prop :=
  Accepts c.cardType (some c.udfOnline) (some c.udfOffline) d t

theorem Registers.eq {t t' : TypeId} (ht : Registers c d t) (ht' : Registers c d t') : t' = t :=
  Option.some.inj (ht'.1.symm.trans ht.1)

/-- a registration is refused, or calls `udf_online` for the cards of the type, and returns what the last call did -/
theorem reg_spec (c : Cfg) (d : DrvSt) (cards : SlotId → Card) (hfree : ∀ j, m.hwAddr j = none) :
    ((∀ t, ¬ Registers c d t) ∧ ∃ r < 0, pdmRegOnlineOfflineCb c d cards m = (r, m, [])) ∨
    ∃ t m', Registers c d t ∧ pdmRegOnlineOfflineCb c d cards m =
        (regRet cards (bound d t), m', (bound d t).reverse.flatMap fun i => (cards i).trace i) ∧
      Swept cards (bound d t) m m' := by
  unfold pdmRegOnlineOfflineCb Registers Accepts
  rcases ht : checkType c.cardType with _ | t
  · exact Or.inl ⟨fun t h => absurd h.1 (Option.some_ne_none t).symm, -einval, by decide, rfl⟩
  dsimp only
  by_cases htaken : (d.cardType t).cbOnline ≠ none ∨ (d.cardType t).cbOffline ≠ none
  · rw [if_pos htaken]
    refine Or.inl ⟨fun t' h => ?_, -eexist, by decide, rfl⟩
    cases h.1
    rw [h.2.2.2] at htaken
    simp at htaken
  · rw [if_neg htaken]
    rw [not_or, not_not, not_not] at htaken
    obtain ⟨m', hloop, hswept⟩ := regSlot_foldl t d cards (List.finRange etinSlotMax) (List.nodup_finRange _)
      (0, m, []) fun j _ => hfree j
    refine Or.inr ⟨t, m', ⟨rfl, by simp, by simp, ?_⟩, ?_, ?_⟩
    · have heq : d.cardType t = ⟨(d.cardType t).cbOnline, (d.cardType t).cbOffline⟩ := rfl
      rw [heq, htaken.1, htaken.2]
    · rw [hloop, regRet, bound, List.head?_reverse, List.reverse_reverse, List.nil_append]
    · refine ⟨hswept.initStep, hswept.pUdfClass, fun j hj => hswept.hwAddr j ?_, fun j x hx => ?_⟩
      · simpa [bound] using hj
      · rcases hswept.devSet j x hx with hold | ⟨hj, hcard⟩
        · exact Or.inl hold
        · exact Or.inr ⟨by simpa [bound] using hj, hcard⟩

/-- the pdm driver returns the same, if its `cb_online` returns what `udf_online` does -/
theorem reg_refines (c : Cfg) (d : DrvSt) (cards : SlotId → Card) (hfree : ∀ j, m.hwAddr j = none) :
    (pdmRegOnlineOfflineCb c d cards m).1 = (Driver.pdmRegOnlineOfflineCb c.cardType (some c.udfOnline)
      (some c.udfOffline) c.vsn (fun i => ⟨(cards i).ret, none⟩) d).1 := by
  unfold pdmRegOnlineOfflineCb Driver.pdmRegOnlineOfflineCb
  rcases checkType c.cardType with _ | t
  · rfl
  · dsimp only
    by_cases htaken : (d.cardType t).cbOnline ≠ none ∨ (d.cardType t).cbOffline ≠ none
    · rw [if_pos htaken, if_pos htaken]
    · obtain ⟨m', hloop, -⟩ := regSlot_foldl t d cards (List.finRange etinSlotMax) (List.nodup_finRange _) (0, m, [])
        fun j _ => hfree j
      rw [if_neg htaken, if_neg htaken, hloop, regSlot_foldl_fst]

end Sweep

/-! ## Loading and unloading -/

section Load

variable {c : Cfg} {alloc : ℤ} {cls : OsPtr} {d : DrvSt} {cards : SlotId → Card} {m : OsSt}

/-- the module when it comes to its registration -/
def beforeReg (cls : OsPtr) : OsSt := { OsSt.load with initStep := 2, pUdfClass := cls }

/-- a module that has not registered unloads without its cards -/
theorem modExit_two (c : Cfg) (d : DrvSt) (hstep : m.initStep = 2) :
    udfDrvModExit c d m = ({ m with pUdfClass := .null, initStep := 0 }, [.release .cls, .release .region]) := by
  unfold udfDrvModExit
  simp [hstep]

/-- the ways of `udf_drv_mod_init` -/
theorem modInit_cases (c : Cfg) (alloc : ℤ) (cls : OsPtr) (d : DrvSt) (cards : SlotId → Card) :
    (alloc < 0 ∧ udfDrvModInit c alloc cls d cards OsSt.load = (alloc, OsSt.load, [])) ∨
    (0 ≤ alloc ∧ cls = .null ∧
      udfDrvModInit c alloc cls d cards OsSt.load = (-enomem, OsSt.load, [.acquire .region, .release .region])) ∨
    (0 ≤ alloc ∧ cls ≠ .null ∧ ∃ r m es, pdmRegOnlineOfflineCb c d cards (beforeReg cls) = (r, m, es) ∧
      (r < 0 ∧ udfDrvModInit c alloc cls d cards OsSt.load = (r, { m with pUdfClass := .null, initStep := 0 },
          (.acquire .region :: created .cls cls) ++ es ++ [.release .cls, .release .region]) ∨
        0 ≤ r ∧ udfDrvModInit c alloc cls d cards OsSt.load = (r, { m with initStep := 3 },
          (.acquire .region :: created .cls cls) ++ es)) ∧ m.pUdfClass = cls) := by
  unfold udfDrvModInit initSteps
  by_cases halloc : alloc < 0
  · refine Or.inl ⟨halloc, ?_⟩
    simp only [halloc, ↓reduceIte]
    rfl
  refine Or.inr ?_
  by_cases hcls : cls = .null
  · refine Or.inl ⟨not_lt.1 halloc, hcls, ?_⟩
    subst hcls
    rw [if_neg halloc]
    rfl
  refine Or.inr ⟨not_lt.1 halloc, hcls, ?_⟩
  have hvalid : isOsPtrInvalid cls = false := decide_eq_false hcls
  rcases hreg : pdmRegOnlineOfflineCb c d cards (beforeReg cls) with ⟨r, m, es⟩
  have hswept : m.initStep = 2 ∧ m.pUdfClass = cls := by
    rcases reg_spec (m := beforeReg cls) c d cards fun _ => rfl with ⟨-, r', -, hreg'⟩ | ⟨t, m', -, hreg', hswept⟩
    · rw [hreg] at hreg'
      cases hreg'
      exact ⟨rfl, rfl⟩
    · rw [hreg] at hreg'
      cases hreg'
      exact ⟨hswept.initStep, hswept.pUdfClass⟩
  have hbefore : ({ OsSt.load with devSet := fun _ => none, initStep := OsSt.load.initStep + 1 + 1, pUdfClass := cls } :
      OsSt) = beforeReg cls := rfl
  refine ⟨r, m, es, rfl, ?_, hswept.2⟩
  simp only [halloc, hvalid, ↓reduceIte, Bool.false_eq_true, hbefore, hreg]
  by_cases hr : r < 0
  · refine Or.inl ⟨hr, ?_⟩
    simp only [hr, ↓reduceIte]
    rw [modExit_two c d hswept.1]
  · refine Or.inr ⟨not_lt.1 hr, ?_⟩
    simp only [hr, ↓reduceIte, hswept.1]
    rfl

/-- `udf_drv_mod_init` of `Udf.Module` returns the same and comes as far -/
theorem modInit_refines (c : Cfg) (alloc : ℤ) (cls : OsPtr) (d : DrvSt) (cards : SlotId → Card) :
    let x := udfDrvModInit c alloc cls d cards OsSt.load
    ∃ m, Udf.udfDrvModInit c alloc (!isOsPtrInvalid cls) (fun i => ⟨(cards i).ret, none⟩) (ModSt.load d) =
      .ok (x.1, m) ∧ m.initStep = x.2.1.initStep := by
  have hreg := reg_refines (m := beforeReg cls) c d cards fun _ => rfl
  unfold Udf.udfDrvModInit Udf.initSteps
  rcases modInit_cases c alloc cls d cards with
    ⟨halloc, hinit⟩ | ⟨halloc, hcls, hinit⟩ | ⟨halloc, hcls, r, m, es, hr, hinit, -⟩
  · rw [hinit]
    simp only [halloc, ↓reduceIte]
    exact ⟨_, rfl, rfl⟩
  · rw [hinit]
    subst hcls
    simp only [not_lt.2 halloc, isOsPtrInvalid, decide_true, Bool.not_true, ↓reduceIte]
    exact ⟨_, rfl, rfl⟩
  · have hvalid : isOsPtrInvalid cls = false := decide_eq_false hcls
    rw [hr] at hreg
    rcases hdrv : Driver.pdmRegOnlineOfflineCb c.cardType (some c.udfOnline) (some c.udfOffline) c.vsn
      (fun i => ⟨(cards i).ret, none⟩) d with ⟨r', d'⟩
    rw [hdrv] at hreg
    obtain rfl : r = r' := hreg
    simp only [not_lt.2 halloc, hvalid, ↓reduceIte, Bool.not_false, Bool.true_eq_false, ModSt.load, hdrv]
    rcases hinit with ⟨hneg, hinit⟩ | ⟨hok, hinit⟩
    · rw [hinit]
      simp only [hneg, ↓reduceIte]
      exact ⟨_, rfl, rfl⟩
    · rw [hinit]
      simp only [not_lt.2 hok, ↓reduceIte]
      exact ⟨_, rfl, rfl⟩

end Load

/-! ### What a failed registration leaves -/

section Leaves

variable {i j : SlotId} {card : Card} {cls : OsPtr} {cards : SlotId → Card} {js : List SlotId}

/-- the trace of a card without an instance, and of one with an instance -/
theorem trace_cases (card : Card) (i : SlotId) :
    (¬ card.Inst ∧ (card.trace i = [] ∨ ∃ p, card.trace i = .acquire (.mem p) :: udfMainExit i p ∨
      card.trace i = .acquire (.mem p) :: .acquire (.cdev i) :: udfMainExit i p)) ∨
    (card.Inst ∧ ∃ p, card.trace i =
      .acquire (.mem p) :: .acquire (.cdev i) :: created (.device i) card.env.deviceCreate) := by
  unfold Card.Inst Card.trace
  by_cases ha : card.baseAddr = none
  · exact Or.inl ⟨fun h => h.1 ha, Or.inl (if_pos ha)⟩
  rw [if_neg ha]
  rcases mainInit_cases i card.env with ⟨hno, hinit⟩ | ⟨hgives, p, hinit⟩
  · refine Or.inl ⟨fun h => hno h.2, ?_⟩
    rcases hinit with hinit | ⟨p, hinit | hinit⟩
    · exact Or.inl (by rw [hinit])
    · exact Or.inr ⟨p, Or.inl (by rw [hinit])⟩
    · exact Or.inr ⟨p, Or.inr (by rw [hinit])⟩
  · exact Or.inr ⟨⟨ha, hgives⟩, p, by rw [hinit]⟩

/-- the resources of a card -/
theorem trace_res {e : ResEv OsRes} (he : e ∈ card.trace i) :
    e.res = .device i ∨ e.res = .cdev i ∨ ∃ p, e.res = .mem p := by
  rcases trace_cases card i with ⟨-, htr | ⟨p, htr | htr⟩⟩ | ⟨-, p, htr⟩
  · rw [htr] at he
    exact absurd he List.not_mem_nil
  · rw [htr] at he
    simp only [udfMainExit, List.mem_cons, List.not_mem_nil, or_false] at he
    rcases he with rfl | rfl | rfl | rfl <;> simp [ResEv.res]
  · rw [htr] at he
    simp only [udfMainExit, List.mem_cons, List.not_mem_nil, or_false] at he
    rcases he with rfl | rfl | rfl | rfl | rfl <;> simp [ResEv.res]
  · rw [htr, List.mem_cons, List.mem_cons] at he
    rcases he with rfl | rfl | he
    · simp [ResEv.res]
    · simp [ResEv.res]
    · unfold created at he
      split at he
      · rw [List.mem_singleton.1 he]
        exact Or.inl rfl
      · exact absurd he List.not_mem_nil

/-- an instance releases nothing, and without one only the device and the character device are released that were not
acquired -/
theorem trace_release {r : OsRes} (hr : .release r ∈ card.trace i) :
    ¬ card.Inst ∧ (.acquire r ∈ card.trace i ∨ r = .device i ∨ r = .cdev i) := by
  rcases trace_cases card i with ⟨hno, htr | ⟨p, htr | htr⟩⟩ | ⟨-, p, htr⟩
  · rw [htr] at hr
    exact absurd hr List.not_mem_nil
  · rw [htr] at hr ⊢
    simp only [udfMainExit, List.mem_cons, List.not_mem_nil, or_false, ResEv.release.injEq, reduceCtorEq,
      false_or] at hr
    rcases hr with rfl | rfl | rfl <;> simp [hno]
  · rw [htr] at hr ⊢
    simp only [udfMainExit, List.mem_cons, List.not_mem_nil, or_false, ResEv.release.injEq, reduceCtorEq,
      false_or] at hr
    rcases hr with rfl | rfl | rfl <;> simp [hno]
  · rw [htr] at hr
    unfold created at hr
    split at hr <;> simp at hr

/-- a card without an instance gives back what was acquired for it -/
theorem trace_givesBack (hno : ¬ card.Inst) : GivesBack (owned (card.trace i)) := by
  unfold Card.trace
  by_cases ha : card.baseAddr = none
  · rw [if_pos ha]
    exact rfl
  · rw [if_neg ha]
    exact mainInit_givesBack fun hgives => hno ⟨ha, hgives⟩

/-- what is released for one card without having been acquired is not acquired for another one -/
theorem trace_apart (cards : SlotId → Card) (hij : i ≠ j) {r : OsRes} (hr : .release r ∈ (cards i).trace i) :
    .acquire r ∈ (cards i).trace i ∨ .acquire r ∉ (cards j).trace j := by
  rcases (trace_release hr).2 with hacq | rfl | rfl
  · exact Or.inl hacq
  · refine Or.inr fun hacq => hij ?_
    simpa [ResEv.res] using trace_res hacq
  · refine Or.inr fun hacq => hij ?_
    simpa [ResEv.res] using trace_res hacq

/-- the class and the device numbers are given back, whatever `class_create` returned -/
theorem steps_givesBack (cls : OsPtr) :
    GivesBack (owned ((.acquire .region :: created .cls cls) ++ [.release .cls, .release .region])) := by
  cases cls <;> exact rfl

/-- **What a registration that fails leaves.** The module gives back what it acquired iff no card got an instance. -/
theorem sweep_givesBack_iff (cls : OsPtr) (cards : SlotId → Card) (hnd : js.Nodup) :
    GivesBack (owned ((.acquire .region :: created .cls cls) ++ (js.flatMap fun i => (cards i).trace i) ++
      [.release .cls, .release .region])) ↔ ∀ i ∈ js, ¬ (cards i).Inst := by
  constructor
  · intro hback i hi hinst
    rcases trace_cases (cards i) i with ⟨hno, -⟩ | ⟨-, p, htr⟩
    · exact hno hinst
    -- its character device stays
    refine not_givesBack_of_acquire (r := .cdev i) ?_ ?_ hback
    · refine List.mem_append_left _ (List.mem_append_right _ (List.mem_flatMap.2 ⟨i, hi, ?_⟩))
      rw [htr]
      simp
    · intro hrel
      rcases List.mem_append.1 hrel with hrel | hrel
      · rcases List.mem_append.1 hrel with hrel | hrel
        · unfold created at hrel
          split at hrel <;> simp at hrel
        · obtain ⟨j, hj, hrel⟩ := List.mem_flatMap.1 hrel
          have hij : i = j := by simpa [ResEv.res] using trace_res hrel
          subst hij
          exact (trace_release hrel).1 hinst
      · simp at hrel
  · intro hno
    refine GivesBack.insert (steps_givesBack cls) (GivesBack.flatMap (fun i hi => trace_givesBack (hno i hi)) ?_) ?_
    · exact hnd.imp fun hij => ⟨fun r hr => trace_apart cards hij hr, fun r hr => trace_apart cards hij.symm hr⟩
    · intro e he e' he' heq
      obtain ⟨j, hj, he⟩ := List.mem_flatMap.1 he
      have hres : e'.res = .region ∨ e'.res = .cls := by
        unfold created at he'
        split at he'
        · simp only [List.cons_append, List.nil_append, List.mem_cons, List.not_mem_nil, or_false] at he'
          rcases he' with rfl | rfl | rfl | rfl <;> simp [ResEv.res]
        · simp only [List.cons_append, List.nil_append, List.mem_cons, List.not_mem_nil, or_false] at he'
          rcases he' with rfl | rfl | rfl <;> simp [ResEv.res]
      rw [← heq] at hres
      rcases trace_res he with h | h | ⟨p, h⟩ <;> simp [h] at hres

end Leaves

/-! ## Runs -/

/-- what happens to the module: it is loaded and unloaded, with the tables `d` that the pdm driver has then, and cards
come and go -/
inductive OsOp where
  | load (alloc : ℤ) (cls : OsPtr) (d : DrvSt) (cards : SlotId → Card)
  | unload (d : DrvSt)
  | online (slot : ℤ) (cardBaseAddr : Option Ptr) (env : InitEnv) (bh : ℤ)
  | offline (slot : ℤ)

def osNext (c : Cfg) (m : OsSt) : OsOp → OsSt
  | .load alloc cls d cards => (udfDrvModInit c alloc cls d cards OsSt.load).2.1
  | .unload d => (udfDrvModExit c d m).1
  | .online slot cardBaseAddr env bh => (udfOnline slot cardBaseAddr env bh m).2.1
  | .offline slot => (udfOffline slot m).1

def osStep (c : Cfg) (m : OsSt) (op : OsOp) : Except Empty OsSt := .ok (osNext c m op)

/-- a load comes to a `udf_main_init` for the card in slot `i` -/
def loadInits (c : Cfg) (alloc : ℤ) (cls : OsPtr) (d : DrvSt) (cards : SlotId → Card) (i : SlotId) : Prop :=
  0 ≤ alloc ∧ cls ≠ .null ∧ (∃ t, Registers c d t ∧ (d.slot i).typeInfo = some t) ∧ (cards i).baseAddr ≠ none

/-- a call that succeeds has a valid class or device, and one that fails gives back what it acquired -/
def CallValid (c : Cfg) (m : OsSt) : OsOp → Prop
  | .load alloc cls d cards =>
    let x := udfDrvModInit c alloc cls d cards OsSt.load
    (x.1 = 0 → x.2.1.pUdfClass.Valid) ∧ (x.1 < 0 → GivesBack (owned x.2.2)) ∧
      ∀ i, loadInits c alloc cls d cards i → InitValid i (cards i).env
  | .online slot cardBaseAddr env _ => ∀ i, initCalls slot cardBaseAddr m i → InitValid i env
  | _ => True

/-- the devices of all instances are valid -/
def DevicesValid (m : OsSt) : Prop := ∀ i, ∀ d ∈ m.devSet i, d.mPDevice.Valid

/-- a registration that calls `udf_online` for the slots `js`, the last one first -/
structure RegOk (cls : OsPtr) (cards : SlotId → Card) (js : List SlotId) : Prop where
  /-- no error pointer for a device -/
  device : ∀ i ∈ js, (cards i).baseAddr ≠ none → (cards i).env.NoErr
  /-- none for the class, if the last call returns 0 -/
  cls : (∀ i ∈ js.head?, (cards i).Inst ∧ (cards i).bh = 0) → ¬ cls.IsErr
  /-- if the last call fails, no card got an instance -/
  last : ∀ i ∈ js.head?, ¬ (cards i).Inst ∨ (cards i).bh < 0 → ∀ j ∈ js, ¬ (cards j).Inst

/-- no error pointer is returned, and no registration fails after a card got an instance -/
def CallOk (c : Cfg) (m : OsSt) : OsOp → Prop
  | .load alloc cls d cards => 0 ≤ alloc → cls ≠ .null → ∀ t, Registers c d t → RegOk cls cards (bound d t)
  | .online slot cardBaseAddr env _ => ∀ i, initCalls slot cardBaseAddr m i → env.NoErr
  | _ => True

section Runs

variable {c : Cfg} {alloc : ℤ} {cls : OsPtr} {d : DrvSt} {cards : SlotId → Card} {m : OsSt}

theorem loadInits_iff (halloc : 0 ≤ alloc) (hcls : cls ≠ .null) {t : TypeId} (ht : Registers c d t) {i : SlotId} :
    loadInits c alloc cls d cards i ↔ i ∈ bound d t ∧ (cards i).baseAddr ≠ none := by
  rw [mem_bound]
  constructor
  · rintro ⟨-, -, ⟨t', ht', hi⟩, ha⟩
    rw [ht.eq ht'] at hi
    exact ⟨hi, ha⟩
  · exact fun h => ⟨halloc, hcls, ⟨t, ht, h.1⟩, h.2⟩

/-- the parts of the property, for a load whose registration is accepted -/
theorem regOk_iff (halloc : 0 ≤ alloc) (hcls : cls ≠ .null) {t : TypeId} (ht : Registers c d t) :
    RegOk cls cards (bound d t) ↔ (regRet cards (bound d t) = 0 → cls.Valid) ∧
      (regRet cards (bound d t) < 0 → GivesBack (owned ((.acquire .region :: created .cls cls) ++
        ((bound d t).reverse.flatMap fun i => (cards i).trace i) ++ [.release .cls, .release .region]))) ∧
      ∀ i, loadInits c alloc cls d cards i → InitValid i (cards i).env := by
  have hdevice : (∀ i, loadInits c alloc cls d cards i → InitValid i (cards i).env) ↔
      ∀ i ∈ bound d t, (cards i).baseAddr ≠ none → (cards i).env.NoErr := by
    refine forall_congr' fun i => ?_
    rw [loadInits_iff halloc hcls ht, initValid_iff, and_imp]
  rw [hdevice, regRet_eq_zero_iff, regRet_neg_iff, valid_iff_of_ne_null hcls,
    sweep_givesBack_iff cls cards (List.nodup_reverse.2 (bound_nodup d t))]
  simp only [List.mem_reverse]
  constructor
  · intro h
    refine ⟨h.cls, ?_, h.device⟩
    rintro ⟨i, hi, hbad⟩
    exact h.last i hi hbad
  · exact fun h => ⟨h.2.2, h.1, fun i hi hbad => h.2.1 ⟨i, hi, hbad⟩⟩

theorem load_valid_iff : CallValid c m (.load alloc cls d cards) ↔ CallOk c m (.load alloc cls d cards) := by
  unfold CallValid CallOk
  dsimp only
  rcases modInit_cases c alloc cls d cards with
    ⟨halloc, hinit⟩ | ⟨-, hcls, hinit⟩ | ⟨halloc, hcls, r, m', es, hreg, hinit, hstored⟩
  · rw [hinit]
    refine iff_of_true ⟨fun h => absurd h halloc.ne, fun _ => rfl, fun i hi => ?_⟩ fun h => absurd h (not_le.2 halloc)
    exact absurd hi.1 (not_le.2 halloc)
  · rw [hinit]
    refine iff_of_true ⟨fun h => absurd h (by decide), fun _ => by decide, fun i hi => ?_⟩ fun _ h => absurd hcls h
    exact absurd hcls hi.2.1
  rcases reg_spec (m := beforeReg cls) c d cards fun _ => rfl with
    ⟨hno, r', hneg, hreg'⟩ | ⟨t, m'', ht, hreg', -⟩
  · -- the registration is refused
    rw [hreg] at hreg'
    cases hreg'
    obtain ⟨-, hinit⟩ | ⟨hok, -⟩ := hinit
    · rw [hinit, List.append_nil]
      refine iff_of_true ⟨fun h => absurd h hneg.ne, fun _ => steps_givesBack cls, fun i hi => ?_⟩ fun _ _ t ht =>
        absurd ht (hno t)
      obtain ⟨t, ht, -⟩ := hi.2.2.1
      exact absurd ht (hno t)
    · exact absurd hneg (not_lt.2 hok)
  -- it calls `udf_online` for the cards, and fails or not
  rw [hreg] at hreg'
  cases hreg'
  have hcond : (0 ≤ alloc → cls ≠ .null → ∀ t, Registers c d t → RegOk cls cards (bound d t)) ↔
      RegOk cls cards (bound d t) :=
    ⟨fun h => h halloc hcls t ht, fun h _ _ t' ht' => ht.eq ht' ▸ h⟩
  rw [hcond, regOk_iff halloc hcls ht]
  rcases hinit with ⟨hr, hinit⟩ | ⟨hr, hinit⟩
  · rw [hinit]
    exact and_congr_left' (iff_of_true (fun h => absurd h hr.ne) fun h => absurd h hr.ne)
  · rw [hinit]
    simp only [hstored, not_lt.2 hr, false_imp_iff]

theorem callValid_iff (m : OsSt) (op : OsOp) : CallValid c m op ↔ CallOk c m op := by
  cases op with
  | load alloc cls d cards => exact load_valid_iff
  | online slot cardBaseAddr env bh => exact forall₂_congr fun i _ => initValid_iff
  | unload | offline => exact Iff.rfl

/-- an instance that a load leaves is one of a card that was plugged -/
theorem modInit_devSet {j : SlotId} {x : Drv}
    (hx : (udfDrvModInit c alloc cls d cards OsSt.load).2.1.devSet j = some x) :
    loadInits c alloc cls d cards j ∧ (udfMainInit j (cards j).env).1 = some x := by
  rcases modInit_cases c alloc cls d cards with
    ⟨-, hinit⟩ | ⟨-, -, hinit⟩ | ⟨halloc, hcls, r, m, es, hreg, hinit, -⟩
  · rw [hinit] at hx
    cases hx
  · rw [hinit] at hx
    cases hx
  have hdev : m.devSet j = some x := by
    rcases hinit with ⟨-, hinit⟩ | ⟨-, hinit⟩
    · rw [hinit] at hx
      exact hx
    · rw [hinit] at hx
      exact hx
  rcases reg_spec (m := beforeReg cls) c d cards fun _ => rfl with ⟨-, r', -, hreg'⟩ | ⟨t, m', ht, hreg', hswept⟩
  · rw [hreg] at hreg'
    cases hreg'
    cases hdev
  · rw [hreg] at hreg'
    cases hreg'
    rcases hswept.devSet j x hdev with hold | ⟨hj, ha, hgives⟩
    · cases hold
    · exact ⟨⟨halloc, hcls, ⟨t, ht, mem_bound.1 hj⟩, ha⟩, hgives⟩

theorem offline_devSet {slot : ℤ} {j : SlotId} {x : Drv} (hx : (udfOffline slot m).1.devSet j = some x) :
    m.devSet j = some x := by
  unfold udfOffline at hx
  rcases hslot : checkSlot slot with _ | i
  · simp only [hslot] at hx
    exact hx
  simp only [hslot] at hx
  by_cases hji : j = i
  · subst hji
    rw [Function.update_self] at hx
    cases hx
  · rwa [Function.update_of_ne hji] at hx

theorem modExit_devSet {j : SlotId} {x : Drv} (hx : (udfDrvModExit c d m).1.devSet j = some x) :
    m.devSet j = some x := by
  have hloop : ∀ (t : TypeId) (js : List SlotId) (y : OsSt × List (ResEv OsRes)),
      (js.foldl (unregSlot t d) y).1.devSet j = some x → y.1.devSet j = some x := by
    intro t js
    induction js with
    | nil => exact fun y h => h
    | cons i js ih =>
      intro y h
      have hround := ih (unregSlot t d y i) h
      unfold unregSlot at hround
      split_ifs at hround
      · exact offline_devSet hround
      · exact hround
  have hunreg : (pdmUnregOnlineOfflineCb c d m).1.devSet j = some x → m.devSet j = some x := by
    unfold pdmUnregOnlineOfflineCb
    rcases checkType c.cardType with _ | t
    · exact id
    · exact hloop t _ (m, [])
  unfold udfDrvModExit at hx
  dsimp only at hx
  split_ifs at hx
  all_goals first
    | exact hx
    | exact hunreg hx

/-- an instance in the table is an old one, or the one that `udf_main_init` gave -/
theorem udfOnline_devSet {slot : ℤ} {cardBaseAddr : Option Ptr} {env : InitEnv} {bh : ℤ} {j : SlotId} {x : Drv}
    (hx : (udfOnline slot cardBaseAddr env bh m).2.1.devSet j = some x) :
    m.devSet j = some x ∨ ∃ i, initCalls slot cardBaseAddr m i ∧ (udfMainInit i env).1 = some x := by
  unfold udfOnline at hx
  rcases hslot : checkSlot slot with _ | i
  · simp only [hslot] at hx
    exact Or.inl hx
  rcases cardBaseAddr with _ | a
  · simp only [hslot] at hx
    exact Or.inl hx
  simp only [hslot] at hx
  by_cases hhw : m.hwAddr i ≠ none
  · rw [if_pos hhw] at hx
    exact Or.inl hx
  rw [if_neg hhw] at hx
  rcases hinit : (udfMainInit i env).1 with _ | x'
  · simp only [hinit] at hx
    exact Or.inl hx
  simp only [hinit] at hx
  by_cases hji : j = i
  · subst hji
    rw [Function.update_self] at hx
    exact Or.inr ⟨j, ⟨hslot, Option.some_ne_none a, not_not.1 hhw⟩, hinit.trans hx⟩
  · rw [Function.update_of_ne hji] at hx
    exact Or.inl hx

theorem osNext_devices (h : DevicesValid m) {op : OsOp} (hop : CallOk c m op) : DevicesValid (osNext c m op) := by
  intro j x hx
  cases op with
  | load alloc cls d cards =>
    obtain ⟨hcalls, hgives⟩ := modInit_devSet hx
    exact ((callValid_iff m _).2 hop).2.2 j hcalls |>.1 x hgives
  | unload d => exact h j x (modExit_devSet hx)
  | online slot cardBaseAddr env bh =>
    rcases udfOnline_devSet hx with hold | ⟨i, hcalls, hgives⟩
    · exact h j x hold
    · exact (initValid_iff.2 (hop i hcalls)).1 x hgives
  | offline slot => exact h j x (offline_devSet hx)

/-- **A card driver runs on valid classes and devices, and leaves nothing when it fails, iff the kernel returns no error
pointer and no registration fails after a card got an instance.** In every run of loads and unloads of the module and of
cards that come and go, with any tables of the pdm driver, any cards that are plugged and any results of the kernel: a
`udf_drv_mod_init` that returns 0 has stored a valid class, an instance that `udf_main_init` returns has a valid device,
all instances in the table have one, and every `udf_drv_mod_init` and `udf_main_init` that fails gives back exactly once
what it acquired, iff no `class_create` and no `device_create` returns an error pointer, where the other steps of the
call succeed, and in no load the last `udf_online` of the registration fails when a card got an instance. -/
theorem os_ptr_valid_iff (c : Cfg) (ops : List OsOp) :
    Always (osStep c) (fun m op => CallValid c m op ∧ DevicesValid (osNext c m op)) OsSt.load ops ↔
      Always (osStep c) (CallOk c) OsSt.load ops := by
  refine always_iff (I := DevicesValid) (fun m op h => ?_) ?_ fun _ _ hd => by cases hd
  · rw [callValid_iff]
    exact and_iff_left_of_imp fun hop => osNext_devices h hop
  · intro m op m' h hop hstep
    cases hstep
    exact osNext_devices h hop

end Runs

/-- a card driver, and the tables of the pdm driver with a card for it in slot 1 -/
def exCfg : Cfg := ⟨1, 10, 11, 12, ⟨none, none⟩⟩

def exTables : DrvSt := (pdmCardOnline 1 1 ⟨0, none⟩ (DrvSt.pdmCtorMngInfo fun _ => true)).2

/-- `class_create` returns -ENOMEM as an error pointer, and so does `device_create`: the module is loaded with the error
pointer for a class, and the card is on line with one for a device. With valid pointers, `udf_bh_online` fails for the
card that is plugged when the module is loaded: the module is gone, and the instance of the card stays. -/
theorem err_ptr_passes :
    let cards : OsPtr → ℤ → SlotId → Card := fun dev bh _ => ⟨some 1000, ⟨some 100, 0, dev⟩, bh⟩
    let failed := udfDrvModInit exCfg 0 (.obj 200) exTables (cards (.obj 300) (-5)) OsSt.load
    let Right := fun ops => Always (osStep exCfg) (fun m op => CallValid exCfg m op ∧ DevicesValid (osNext exCfg m op))
      OsSt.load ops
    (udfDrvModInit exCfg 0 (.err 12) exTables (cards (.obj 300) 0) OsSt.load).1 = 0 ∧
    (udfDrvModInit exCfg 0 (.err 12) exTables (cards (.obj 300) 0) OsSt.load).2.1.pUdfClass = .err 12 ∧
    (udfMainInit 1 ⟨some 100, 0, .err 12⟩).1 = some ⟨100, .err 12⟩ ∧
    failed.1 = -5 ∧ heldAfter [] failed.2.2 = some [.device 1, .cdev 1, .mem 100] ∧
    ¬ Right [.load 0 (.err 12) exTables (cards (.obj 300) 0)] ∧
    ¬ Right [.load 0 (.obj 200) (DrvSt.pdmCtorMngInfo fun _ => true) (cards (.obj 300) 0),
      .online 1 (some 1000) ⟨some 100, 0, .err 12⟩ 0] ∧
    ¬ Right [.load 0 (.obj 200) exTables (cards (.obj 300) (-5))] := by
  refine ⟨by decide +kernel, by decide +kernel, rfl, by decide +kernel, by decide +kernel, fun h => ?_, fun h => ?_,
    fun h => ?_⟩
  · obtain ⟨p, hp⟩ := h.1.1.1 (by decide +kernel)
    have hcls : (udfDrvModInit exCfg 0 (.err 12) exTables (fun _ => ⟨some 1000, ⟨some 100, 0, .obj 300⟩, 0⟩)
        OsSt.load).2.1.pUdfClass = .err 12 := by decide +kernel
    cases hcls.symm.trans hp
  · obtain ⟨p, hp⟩ := (h.2.1.1 1 ⟨rfl, by decide, rfl⟩).1 ⟨100, .err 12⟩ rfl
    cases hp
  · exact absurd (h.1.1.2.1 (by decide +kernel)) (by decide +kernel)

end LinuxDrv.Udf.Os
