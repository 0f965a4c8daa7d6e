/-
A card driver as a kernel module (`udf_drv.c` of the template): `udf_drv_mod_init` and `udf_drv_mod_exit`.

The module registers its callbacks last, and counts in `s_init_step` how far it came. A step that fails jumps to
`udf_drv_mod_exit`, which undoes as many steps as were counted. So the callbacks are taken back only if
`pdm_reg_online_offline_cb` returned no error.
- `reg_ret`, `reg_table`: what `pdm_reg_online_offline_cb` returns, and what it stores. The two are not related: the
  return value is that of the last `cb_online` called, and the callbacks are stored after the loop, whatever it is.
- `modInit_spec`: `udf_drv_mod_init` returns, and one that fails has given back its device numbers and its class.
- `reg_reports_iff`: the return value tells whether the callbacks were stored, and a failed `udf_drv_mod_init` leaves
  none of them, iff the last `cb_online` of the registration does not fail.
-/
import LinuxDrv.Driver.Callbacks

namespace LinuxDrv.Udf

open LinuxDrv.Core LinuxDrv.Driver

def enomem : ℤ := 12

/-- what a card driver puts in for the names of the template -/
structure Cfg where
  /-- `UDF_CARD_TYPE` -/
  cardType : ℤ
  udfOnline : Ptr
  udfOffline : Ptr
  udfIsr : Ptr
  vsn : DrvVsnInfo

structure ModSt where
  drv : DrvSt
  initStep : ℤ
  /-- the device numbers at `g_devID` are allocated -/
  devID : Bool
  /-- `s_pUdfClass` points to a class -/
  pUdfClass : Bool

/-- the module when it is loaded -/
def ModSt.load (d : DrvSt) : ModSt := ⟨d, 0, false, false⟩

/-- `udf_drv_mod_exit` -/
def udfDrvModExit (c : Cfg) (m : ModSt) : Except Fault ModSt := do
  let m ← if 3 ≤ m.initStep then do
      let d ← pdmUnregOnlineOfflineCb c.cardType m.drv
      .ok { m with drv := d, initStep := m.initStep - 1 }
    else .ok m
  let m := if 2 ≤ m.initStep then { m with pUdfClass := false, initStep := m.initStep - 1 } else m
  .ok (if 1 ≤ m.initStep then { m with devID := false, initStep := m.initStep - 1 } else m)

/-- `udf_drv_mod_init` up to `return_ret`; `alloc` is what `alloc_chrdev_region` returns, `cls` whether `class_create`
returns another pointer than NULL -/
def initSteps (c : Cfg) (alloc : ℤ) (cls : Bool) (res : SlotId → OnlineRes) (m : ModSt) : ℤ × ModSt :=
  if alloc < 0 then (alloc, m)
  else
    let m := { m with devID := true, initStep := m.initStep + 1 }
    if cls = false then (-enomem, { m with pUdfClass := false })
    else
      let m := { m with pUdfClass := true, initStep := m.initStep + 1 }
      let x := pdmRegOnlineOfflineCb c.cardType (some c.udfOnline) (some c.udfOffline) c.vsn res m.drv
      if x.1 < 0 then (x.1, { m with drv := x.2 })
      else (x.1, { m with drv := x.2, initStep := m.initStep + 1 })

/-- `udf_drv_mod_init` -/
def udfDrvModInit (c : Cfg) (alloc : ℤ) (cls : Bool) (res : SlotId → OnlineRes) (m : ModSt) :
    Except Fault (ℤ × ModSt) :=
  let x := initSteps c alloc cls res m
  if x.1 < 0 then do
    let m ← udfDrvModExit c x.2
    .ok (x.1, m)
  else .ok x

/-! ## What a registration returns and what it stores -/

/-- a registration that passes the checks of `pdm_reg_online_offline_cb` -/
def Accepts (cardType : ℤ) (cbOnline cbOffline : Option Ptr) (d : DrvSt) (t : TypeId) : Prop :=
  checkType cardType = some t ∧ cbOnline ≠ none ∧ cbOffline ≠ none ∧ d.cardType t = ⟨none, none⟩

/-- the last `cb_online` that the registration calls does not fail -/
def LastOk (cardType : ℤ) (cbOnline cbOffline : Option Ptr) (res : SlotId → OnlineRes) (d : DrvSt) : Prop :=
  ∀ t i, Accepts cardType cbOnline cbOffline d t → (bound d t).head? = some i → 0 ≤ (res i).ret

section Reg

variable {cardType : ℤ} {f g : Option Ptr} {vsn : DrvVsnInfo} {res : SlotId → OnlineRes} {d : DrvSt} {t : TypeId}

/-- the loop of `pdm_reg_online_offline_cb` returns what the last `cb_online` returned -/
theorem regSlot_foldl_fst (t : TypeId) (drv : CardTypeInfo) (res : SlotId → OnlineRes) (js : List SlotId) :
    ∀ x : ℤ × DrvSt, (js.foldl (regSlot t drv res) x).1 =
      ((js.filter fun i => decide ((x.2.slot i).typeInfo = some t)).getLast?.map fun i => (res i).ret).getD x.1 := by
  induction js with
  | nil => intro x; rfl
  | cons j js ih =>
    intro x
    rw [List.foldl_cons, ih]
    by_cases hj : (x.2.slot j).typeInfo = some t
    · obtain ⟨hsame, -⟩ := callOnline_spec t drv j (res j) x.2
      rw [regSlot, if_pos hj, List.filter_cons_of_pos (by simpa using hj)]
      simp only [hsame.typeInfo]
      cases hl : (js.filter fun i => decide ((x.2.slot i).typeInfo = some t)).getLast? with
      | none => rw [List.getLast?_eq_none_iff.1 hl]; rfl
      | some i => rw [List.getLast?_cons, hl]; rfl
    · rw [regSlot, if_neg hj, List.filter_cons_of_neg (by simpa using hj)]

/-- a registration that does not pass the checks fails and changes nothing -/
theorem reg_rejected (h : ∀ t, ¬ Accepts cardType f g d t) :
    (pdmRegOnlineOfflineCb cardType f g vsn res d).1 < 0 ∧ (pdmRegOnlineOfflineCb cardType f g vsn res d).2 = d := by
  have hinval : -einval < 0 := by decide
  have hexist : -eexist < 0 := by decide
  unfold pdmRegOnlineOfflineCb
  cases ht : checkType cardType with
  | none => exact ⟨hinval, rfl⟩
  | some t =>
    cases f with
    | none => exact ⟨hinval, rfl⟩
    | some f =>
      cases g with
      | none => exact ⟨hinval, rfl⟩
      | some g =>
        have hreg : (d.cardType t).cbOnline ≠ none ∨ (d.cardType t).cbOffline ≠ none := by
          by_contra hno
          push Not at hno
          have heq : d.cardType t = ⟨(d.cardType t).cbOnline, (d.cardType t).cbOffline⟩ := rfl
          rw [hno.1, hno.2] at heq
          exact h t ⟨ht, by simp, by simp, heq⟩
        dsimp only
        rw [if_pos hreg]
        exact ⟨hexist, rfl⟩

/-- a registration that passes the checks returns what the last `cb_online` returned, if one was called -/
theorem reg_ret (h : Accepts cardType f g d t) : (pdmRegOnlineOfflineCb cardType f g vsn res d).1 =
    ((bound d t).head?.map fun i => (res i).ret).getD 0 := by
  obtain ⟨ht, hf, hg, hnone⟩ := h
  obtain ⟨f, rfl⟩ := Option.ne_none_iff_exists'.1 hf
  obtain ⟨g, rfl⟩ := Option.ne_none_iff_exists'.1 hg
  unfold pdmRegOnlineOfflineCb
  simp only [ht, hnone, ne_eq, not_true_eq_false, or_self, ↓reduceIte]
  rw [regSlot_foldl_fst, bound, List.head?_reverse]

/-- it stores the callbacks, whatever the calls returned -/
theorem reg_table (h : Accepts cardType f g d t) : (pdmRegOnlineOfflineCb cardType f g vsn res d).2.cardType =
    Function.update d.cardType t ⟨f, g⟩ := by
  obtain ⟨ht, hf, hg, hnone⟩ := h
  obtain ⟨f, rfl⟩ := Option.ne_none_iff_exists'.1 hf
  obtain ⟨g, rfl⟩ := Option.ne_none_iff_exists'.1 hg
  obtain ⟨hsame, -⟩ := regSlot_foldl t ⟨some f, some g⟩ res (List.finRange etinSlotMax) (0, d)
  unfold pdmRegOnlineOfflineCb
  simp only [ht, hnone, ne_eq, not_true_eq_false, or_self, ↓reduceIte]
  rw [hsame.cardType]

/-- so they are stored by every registration that passes the checks, and by no other -/
theorem reg_table_eq_iff : (pdmRegOnlineOfflineCb cardType f g vsn res d).2.cardType = d.cardType ↔
    ∀ t, ¬ Accepts cardType f g d t := by
  constructor
  · intro heq t h
    have hnew := congrFun (heq.symm.trans (reg_table h)) t
    rw [Function.update_self, h.2.2.2] at hnew
    exact h.2.1 (congrArg CardTypeInfo.cbOnline hnew).symm
  · intro h
    rw [(reg_rejected h).2]

/-- a registration that passes the checks fails iff its last `cb_online` does -/
theorem reg_neg_iff (h : Accepts cardType f g d t) :
    (pdmRegOnlineOfflineCb cardType f g vsn res d).1 < 0 ↔ ¬ LastOk cardType f g res d := by
  rw [reg_ret h]
  have huniq : ∀ t', Accepts cardType f g d t' → t' = t := fun t' h' =>
    Option.some.inj (h'.1.symm.trans h.1)
  constructor
  · intro hneg hok
    cases hb : (bound d t).head? with
    | none => simp [hb] at hneg
    | some i =>
      have := hok t i h hb
      simp only [hb, Option.map_some, Option.getD_some] at hneg
      omega
  · intro hbad
    simp only [LastOk, not_forall, not_le] at hbad
    obtain ⟨t', i, ht', hi, hneg⟩ := hbad
    rw [huniq t' ht'] at hi
    simpa [hi] using hneg

theorem reg_tells_iff : ((pdmRegOnlineOfflineCb cardType f g vsn res d).1 < 0 ↔
    (pdmRegOnlineOfflineCb cardType f g vsn res d).2.cardType = d.cardType) ↔ LastOk cardType f g res d := by
  rw [reg_table_eq_iff]
  by_cases h : ∃ t, Accepts cardType f g d t
  · obtain ⟨t, ht⟩ := h
    have hno : ¬ ∀ t, ¬ Accepts cardType f g d t := fun hno => hno t ht
    rw [reg_neg_iff ht, iff_false_right hno, not_not]
  · push Not at h
    exact iff_of_true (iff_of_true (reg_rejected h).1 h) fun t i ht _ => absurd ht (h t)

end Reg

/-! ## Loading a module -/

/-- `s_card_type_info` has no callback of the module that was not there when it was loaded -/
def NoneLeft (c : Cfg) (d d' : DrvSt) : Prop :=
  ∀ t, ((d'.cardType t).cbOnline = some c.udfOnline → (d.cardType t).cbOnline = some c.udfOnline) ∧
    ((d'.cardType t).cbOffline = some c.udfOffline → (d.cardType t).cbOffline = some c.udfOffline)

theorem NoneLeft.refl (c : Cfg) (d : DrvSt) : NoneLeft c d d := fun _ => ⟨id, id⟩

/-- a module that did not come to its third step takes back the other two -/
theorem modExit_early (c : Cfg) (d : DrvSt) {k : ℤ} (h0 : 0 ≤ k) (h3 : k < 3) :
    udfDrvModExit c ⟨d, k, decide (1 ≤ k), decide (2 ≤ k)⟩ = .ok (ModSt.load d) := by
  have hk : k = 0 ∨ k = 1 ∨ k = 2 := by omega
  rcases hk with rfl | rfl | rfl <;> rfl

/-- `udf_drv_mod_init` returns. One that fails gives back what it allocated, and has the tables as its registration,
if it came to it, left them. -/
theorem modInit_spec (c : Cfg) (alloc : ℤ) (cls : Bool) (res : SlotId → OnlineRes) (d : DrvSt) :
    ∃ r m, udfDrvModInit c alloc cls res (ModSt.load d) = .ok (r, m) ∧ (r < 0 → m = ModSt.load m.drv) ∧
      if alloc < 0 ∨ cls = false then r < 0 ∧ m.drv = d
      else (r, m.drv) = pdmRegOnlineOfflineCb c.cardType (some c.udfOnline) (some c.udfOffline) c.vsn res d := by
  unfold udfDrvModInit initSteps
  by_cases halloc : alloc < 0
  · simp only [halloc, ↓reduceIte, true_or]
    have hexit : udfDrvModExit c (ModSt.load d) = .ok (ModSt.load d) := modExit_early c d (by decide) (by decide)
    rw [hexit]
    exact ⟨alloc, _, rfl, fun _ => rfl, halloc, rfl⟩
  cases cls with
  | false =>
    simp only [halloc, ↓reduceIte, or_true]
    have hexit : udfDrvModExit c ⟨d, 0 + 1, true, false⟩ = .ok (ModSt.load d) :=
      modExit_early c d (by decide) (by decide)
    rw [if_pos (by decide)]
    simp only [ModSt.load] at hexit ⊢
    rw [hexit]
    exact ⟨-enomem, _, rfl, fun _ => rfl, by decide, rfl⟩
  | true =>
    simp only [halloc, ↓reduceIte, Bool.true_eq_false, or_self]
    generalize hx : pdmRegOnlineOfflineCb c.cardType (some c.udfOnline) (some c.udfOffline) c.vsn res
      (ModSt.load d).drv = x
    by_cases hneg : x.1 < 0
    · simp only [hneg, ↓reduceIte]
      have hexit : udfDrvModExit c ⟨x.2, 0 + 1 + 1, true, true⟩ = .ok (ModSt.load x.2) :=
        modExit_early c x.2 (by decide) (by decide)
      simp only [ModSt.load] at hexit ⊢
      rw [hexit]
      exact ⟨x.1, _, rfl, fun _ => rfl, hx.symm⟩
    · simp only [hneg, ↓reduceIte]
      exact ⟨x.1, _, rfl, fun h => absurd h hneg, hx.symm⟩

/-- **Registration reports what it did, iff its last `cb_online` does not fail.** `pdm_reg_online_offline_cb` returns a
negative value exactly when this call stored no callbacks, iff the card of the type in the last slot that has one is
accepted, unless the registration is refused. Under the same condition, if it comes to registering, a
`udf_drv_mod_init` that returns a negative value leaves no callback of its module in the table. -/
theorem reg_reports_iff (cardType : ℤ) (f g : Option Ptr) (vsn : DrvVsnInfo) (res : SlotId → OnlineRes) (d : DrvSt)
    (c : Cfg) (alloc : ℤ) (cls : Bool) :
    (((pdmRegOnlineOfflineCb cardType f g vsn res d).1 < 0 ↔
      (pdmRegOnlineOfflineCb cardType f g vsn res d).2.cardType = d.cardType) ↔ LastOk cardType f g res d) ∧
    ∃ r m, udfDrvModInit c alloc cls res (ModSt.load d) = .ok (r, m) ∧
      ((r < 0 → NoneLeft c d m.drv) ↔
        (0 ≤ alloc → cls = true → LastOk c.cardType (some c.udfOnline) (some c.udfOffline) res d)) := by
  refine ⟨reg_tells_iff, ?_⟩
  obtain ⟨r, m, hrun, -, hspec⟩ := modInit_spec c alloc cls res d
  refine ⟨r, m, hrun, ?_⟩
  by_cases hcame : alloc < 0 ∨ cls = false
  · -- the registration was not reached
    rw [if_pos hcame] at hspec
    refine iff_of_true (fun _ => hspec.2 ▸ NoneLeft.refl c d) fun h0 hcls => ?_
    rcases hcame with h | h
    · omega
    · exact absurd (hcls.symm.trans h) (by decide)
  rw [if_neg hcame] at hspec
  rw [not_or, not_lt, Bool.not_eq_false] at hcame
  simp only [hcame.1, hcame.2, true_imp_iff]
  have hr : r = (pdmRegOnlineOfflineCb c.cardType (some c.udfOnline) (some c.udfOffline) c.vsn res d).1 :=
    congrArg Prod.fst hspec
  have hdrv : m.drv = (pdmRegOnlineOfflineCb c.cardType (some c.udfOnline) (some c.udfOffline) c.vsn res d).2 :=
    congrArg Prod.snd hspec
  by_cases hacc : ∃ t, Accepts c.cardType (some c.udfOnline) (some c.udfOffline) d t
  · obtain ⟨t, ht⟩ := hacc
    have hleft : ¬ NoneLeft c d m.drv := by
      intro hno
      have h := (hno t).1
      rw [hdrv, reg_table ht, Function.update_self, ht.2.2.2] at h
      exact absurd (h rfl) (by simp)
    rw [hr, reg_neg_iff ht]
    exact ⟨fun h => by_contra fun hbad => hleft (h hbad), fun h hbad => absurd h hbad⟩
  · push Not at hacc
    refine iff_of_true (fun _ => ?_) fun t i ht _ => absurd ht (hacc t)
    rw [hdrv, (reg_rejected hacc).2]
    exact NoneLeft.refl c d

/-- the driver refuses the card that is in slot 1 when the module is loaded: the registration returns the error and
stores the callbacks, and they stay in the table after the module is unloaded -/
theorem reg_failed_stored : ∃ r m, udfDrvModInit ⟨1, 10, 11, 12, ⟨none, none⟩⟩ 0 true (fun _ => ⟨-1, none⟩)
      (ModSt.load (pdmCardOnline 1 1 ⟨0, none⟩ (DrvSt.pdmCtorMngInfo fun _ => true)).2) = .ok (r, m) ∧
    r = -1 ∧ m.drv.cardType 1 = ⟨some 10, some 11⟩ ∧ m.initStep = 0 ∧
    (pdmRegOnlineOfflineCb 1 (some 10) (some 11) ⟨none, none⟩ (fun _ => ⟨-1, none⟩)
      (pdmCardOnline 1 1 ⟨0, none⟩ (DrvSt.pdmCtorMngInfo fun _ => true)).2).1 = -1 ∧
    (pdmRegOnlineOfflineCb 1 (some 10) (some 11) ⟨none, none⟩ (fun _ => ⟨-1, none⟩)
      (pdmCardOnline 1 1 ⟨0, none⟩ (DrvSt.pdmCtorMngInfo fun _ => true)).2).2.cardType 1 = ⟨some 10, some 11⟩ :=
  ⟨_, _, rfl, by decide, by decide, by decide, by decide, by decide⟩

end LinuxDrv.Udf
