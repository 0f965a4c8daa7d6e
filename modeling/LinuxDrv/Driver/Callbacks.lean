/-
Registered drivers and plugged cards agree: the calls of the callbacks of `pdm_drv_ext.c`.

The abstract side is the history of calls alone. `active i h` is the driver that slot i has after history h: the one
whose `cb_online` was the last call for the slot, if it succeeded. `Alternate h`: a `cb_online` is only called for a
slot without a driver, a `cb_offline` only for the driver the slot has.
- `Inv d`: the history alternates, and a slot has the driver that is registered for the type of its card.
- `step_inv`: each of the four functions keeps it, provided no `cb_online` called by a registration fails. A `cb_online`
  called by `pdm_card_online` may fail: the card is refused.
- `reg_eq`, `unreg_eq`: what registering and unregistering a driver does, as equations.
- `registry_agrees`: so for every sequence of operations; registering a driver before or after a card is plugged makes
  the same calls and leaves the same state; and a driver that is unregistered and registered again gets its calls for
  the slots its cards are in.
- `sweep_failed_offline`: a `cb_online` that fails in a registration leaves the slot bound to the type, and the driver
  gets a `cb_offline` for it.
-/
import LinuxDrv.Driver.Ext
import LinuxDrv.Core.Outcome

namespace LinuxDrv.Driver

open LinuxDrv.Core

/-! ## Histories of calls -/

/-- the driver of slot `i` after the calls `h` (newest first) -/
def active (i : SlotId) : List CbCall → Option (TypeId × CardTypeInfo)
  | [] => none
  | .online t drv j ret :: h => if j = i then (if 0 ≤ ret then some (t, drv) else none) else active i h
  | .offline _ _ j :: h => if j = i then none else active i h

/-- calls of `cb_online` find no driver in the slot, calls of `cb_offline` find their own -/
def Alternate : List CbCall → Prop
  | [] => True
  | .online _ _ j _ :: h => active j h = none ∧ Alternate h
  | .offline t drv j :: h => active j h = some (t, drv) ∧ Alternate h

/-- the last call of driver `drv` of type `t` for slot `i` was a `cb_online` that succeeded -/
def live (t : TypeId) (drv : CardTypeInfo) (i : SlotId) : List CbCall → Prop
  | [] => False
  | .online t' drv' j ret :: h => if t' = t ∧ drv' = drv ∧ j = i then 0 ≤ ret else live t drv i h
  | .offline t' drv' j :: h => if t' = t ∧ drv' = drv ∧ j = i then False else live t drv i h

/-- every `cb_offline` was called for a slot whose last call by that driver was a `cb_online` that succeeded -/
def Paired : List CbCall → Prop
  | [] => True
  | .online .. :: h => Paired h
  | .offline t drv i :: h => live t drv i h ∧ Paired h

theorem live_of_active {t : TypeId} {drv : CardTypeInfo} {i : SlotId} {h : List CbCall}
    (ha : active i h = some (t, drv)) : live t drv i h := by
  induction h with
  | nil => cases ha
  | cons c h ih =>
    cases c with
    | online t' drv' j ret =>
      by_cases hj : j = i
      · simp only [active, hj, ↓reduceIte] at ha
        split_ifs at ha with hret
        cases ha
        simpa [live, hj] using hret
      · simp only [active, hj, ↓reduceIte] at ha
        simpa [live, hj] using ih ha
    | offline t' drv' j =>
      by_cases hj : j = i
      · simp only [active, hj, ↓reduceIte] at ha
        cases ha
      · simp only [active, hj, ↓reduceIte] at ha
        simpa [live, hj] using ih ha

theorem Alternate.paired {h : List CbCall} (ha : Alternate h) : Paired h := by
  induction h with
  | nil => trivial
  | cons c h ih =>
    cases c with
    | online t drv i ret => exact ih ha.2
    | offline t drv i => exact ⟨live_of_active ha.1, ih ha.2⟩

/-! ## Sweeps over the slots -/

section Sweeps

variable {t : TypeId} {drv : CardTypeInfo} {h : List CbCall}

theorem active_online_map (ret : SlotId → ℤ) (i : SlotId) (js : List SlotId) (hret : ∀ j ∈ js, 0 ≤ ret j) :
    active i (js.map (fun j => .online t drv j (ret j)) ++ h) = if i ∈ js then some (t, drv) else active i h := by
  induction js with
  | nil => simp
  | cons j js ih =>
    have ih := ih fun k hk => hret k (List.mem_cons_of_mem j hk)
    by_cases hj : j = i
    · subst hj
      simp [active, hret j List.mem_cons_self]
    · simp [active, hj, ih, Ne.symm hj]

theorem active_offline_map (i : SlotId) (js : List SlotId) :
    active i (js.map (fun j => .offline t drv j) ++ h) = if i ∈ js then none else active i h := by
  induction js with
  | nil => simp
  | cons j js ih =>
    by_cases hj : j = i
    · simp [active, hj]
    · simp [active, hj, ih, Ne.symm hj]

theorem alternate_online_map (ret : SlotId → ℤ) (hh : Alternate h) (js : List SlotId) (hret : ∀ j ∈ js, 0 ≤ ret j)
    (hnd : js.Nodup) (hjs : ∀ j ∈ js, active j h = none) :
    Alternate (js.map (fun j => .online t drv j (ret j)) ++ h) := by
  induction js with
  | nil => exact hh
  | cons j js ih =>
    have hret' : ∀ k ∈ js, 0 ≤ ret k := fun k hk => hret k (List.mem_cons_of_mem j hk)
    obtain ⟨hj, hnd⟩ := List.nodup_cons.1 hnd
    rw [List.map_cons, List.cons_append]
    refine ⟨?_, ih hret' hnd fun k hk => hjs k (List.mem_cons_of_mem j hk)⟩
    rw [active_online_map ret j js hret', if_neg hj]
    exact hjs j List.mem_cons_self

theorem alternate_offline_map (hh : Alternate h) (js : List SlotId) (hnd : js.Nodup)
    (hjs : ∀ j ∈ js, active j h = some (t, drv)) : Alternate (js.map (fun j => .offline t drv j) ++ h) := by
  induction js with
  | nil => exact hh
  | cons j js ih =>
    obtain ⟨hj, hnd⟩ := List.nodup_cons.1 hnd
    rw [List.map_cons, List.cons_append]
    refine ⟨?_, ih hnd fun k hk => hjs k (List.mem_cons_of_mem j hk)⟩
    rw [active_offline_map, if_neg hj]
    exact hjs j List.mem_cons_self

end Sweeps

/-- the slots whose card is of type `t`, the last one first -/
def bound (d : DrvSt) (t : TypeId) : List SlotId :=
  ((List.finRange etinSlotMax).filter fun i => decide ((d.slot i).typeInfo = some t)).reverse

theorem mem_bound {d : DrvSt} {t : TypeId} {i : SlotId} : i ∈ bound d t ↔ (d.slot i).typeInfo = some t := by
  simp [bound]

theorem bound_nodup (d : DrvSt) (t : TypeId) : (bound d t).Nodup :=
  List.nodup_reverse.2 ((List.nodup_finRange _).filter _)

/-- the part of the tables a callback cannot change -/
structure SameTables (d d' : DrvSt) : Prop where
  cardType : d'.cardType = d.cardType
  vsn : d'.vsn = d.vsn
  typeInfo : ∀ i, (d'.slot i).typeInfo = (d.slot i).typeInfo

theorem SameTables.refl (d : DrvSt) : SameTables d d := ⟨rfl, rfl, fun _ => rfl⟩

theorem SameTables.trans {d d' d'' : DrvSt} (h : SameTables d d') (h' : SameTables d' d'') : SameTables d d'' :=
  ⟨h'.cardType.trans h.cardType, h'.vsn.trans h.vsn, fun i => (h'.typeInfo i).trans (h.typeInfo i)⟩

theorem pdmRequestIrq_spec (slot : ℤ) (isr arg : Option Ptr) (d : DrvSt) :
    SameTables d (pdmRequestIrq slot isr arg d).2 ∧ (pdmRequestIrq slot isr arg d).2.calls = d.calls := by
  unfold pdmRequestIrq
  cases checkSlot slot with
  | none => exact ⟨SameTables.refl d, rfl⟩
  | some i =>
    cases isr with
    | none => exact ⟨SameTables.refl d, rfl⟩
    | some f =>
      dsimp only
      split_ifs
      · exact ⟨SameTables.refl d, rfl⟩
      · exact ⟨SameTables.refl d, rfl⟩
      · refine ⟨⟨rfl, rfl, ?_⟩, rfl⟩
        intro j
        by_cases hj : j = i
        · subst hj; simp [DrvSt.setSlot]
        · simp [DrvSt.setSlot, hj]

theorem callOnline_spec (t : TypeId) (drv : CardTypeInfo) (i : SlotId) (res : OnlineRes) (d : DrvSt) :
    SameTables d (callOnline t drv i res d) ∧
      (callOnline t drv i res d).calls = .online t drv i res.ret :: d.calls := by
  unfold callOnline
  cases res.irq with
  | none => exact ⟨⟨rfl, rfl, fun _ => rfl⟩, rfl⟩
  | some x =>
    obtain ⟨hsame, hcalls⟩ := pdmRequestIrq_spec (i : ℕ) (some x.1) x.2 d
    exact ⟨⟨hsame.cardType, hsame.vsn, hsame.typeInfo⟩, congrArg _ hcalls⟩

/-- the loop of `pdm_reg_online_offline_cb` calls `cb_online` for the slots that have the type -/
theorem regSlot_foldl (t : TypeId) (drv : CardTypeInfo) (res : SlotId → OnlineRes) (js : List SlotId) :
    ∀ x : ℤ × DrvSt, SameTables x.2 (js.foldl (regSlot t drv res) x).2 ∧
      (js.foldl (regSlot t drv res) x).2.calls =
        ((js.filter fun i => decide ((x.2.slot i).typeInfo = some t)).reverse.map
          fun i => .online t drv i (res i).ret) ++ x.2.calls := by
  induction js with
  | nil => intro x; exact ⟨SameTables.refl x.2, rfl⟩
  | cons j js ih =>
    intro x
    rw [List.foldl_cons]
    by_cases hj : (x.2.slot j).typeInfo = some t
    · obtain ⟨hsame, hcalls⟩ := callOnline_spec t drv j (res j) x.2
      obtain ⟨hsame', hcalls'⟩ := ih (regSlot t drv res x j)
      rw [regSlot, if_pos hj] at hsame' hcalls' ⊢
      refine ⟨hsame.trans hsame', ?_⟩
      rw [hcalls', hcalls]
      simp [hsame.typeInfo, hj]
    · rw [regSlot, if_neg hj]
      obtain ⟨hsame', hcalls'⟩ := ih x
      refine ⟨hsame', ?_⟩
      rw [hcalls', List.filter_cons_of_neg (by simpa using hj)]

/-- the loop of `pdm_unreg_online_offline_cb` calls `cb_offline` for the slots that have the type -/
theorem unregSlot_foldlM (t : TypeId) {drv : CardTypeInfo} {g : Ptr} (hg : drv.cbOffline = some g) (js : List SlotId) :
    ∀ d : DrvSt, js.foldlM (unregSlot t drv) d = .ok { d with
      calls := ((js.filter fun i => decide ((d.slot i).typeInfo = some t)).reverse.map fun i => .offline t drv i) ++
        d.calls } := by
  induction js with
  | nil => intro d; rfl
  | cons j js ih =>
    intro d
    rw [List.foldlM_cons]
    by_cases hj : (d.slot j).typeInfo = some t
    · simp [unregSlot, hj, hg, ih, DrvSt.call]
    · simp [unregSlot, hj, ih]

/-! ## The four functions -/

/-- the driver of slot `i`: the one registered for the type of its card -/
def inst (d : DrvSt) (i : SlotId) : Option (TypeId × CardTypeInfo) :=
  match (d.slot i).typeInfo with
  | none => none
  | some t => if (d.cardType t).cbOnline = none then none else some (t, d.cardType t)

structure Inv (d : DrvSt) : Prop where
  both : ∀ t, (d.cardType t).cbOnline = none ↔ (d.cardType t).cbOffline = none
  alternate : Alternate d.calls
  agree : ∀ i, active i d.calls = inst d i

/-- `pdm_reg_online_offline_cb` of a type without a driver -/
theorem reg_eq {cardType : ℤ} {t : TypeId} (ht : checkType cardType = some t) {d : DrvSt} (hd : Inv d)
    (hnone : (d.cardType t).cbOnline = none) (f g : Ptr) (vsn : DrvVsnInfo) (res : SlotId → OnlineRes) :
    ∃ d', (pdmRegOnlineOfflineCb cardType (some f) (some g) vsn res d).2 = d' ∧
      d'.cardType = Function.update d.cardType t ⟨some f, some g⟩ ∧ d'.vsn = Function.update d.vsn t vsn ∧
      (∀ i, (d'.slot i).typeInfo = (d.slot i).typeInfo) ∧
      d'.calls = (bound d t).map (fun i => .online t ⟨some f, some g⟩ i (res i).ret) ++ d.calls := by
  obtain ⟨hsame, hcalls⟩ := regSlot_foldl t ⟨some f, some g⟩ res (List.finRange etinSlotMax) (0, d)
  refine ⟨_, rfl, ?_⟩
  unfold pdmRegOnlineOfflineCb
  simp only [ht]
  rw [if_neg (by simp [hnone, (hd.both t).1 hnone])]
  exact ⟨by rw [hsame.cardType], by rw [hsame.vsn], hsame.typeInfo, hcalls⟩

/-- a registration that is refused changes nothing -/
theorem reg_refused {cardType : ℤ} {f g : Option Ptr} {vsn : DrvVsnInfo} {res : SlotId → OnlineRes} {d : DrvSt}
    (h : ∀ t, checkType cardType = some t → f ≠ none → g ≠ none → (d.cardType t).cbOnline ≠ none) :
    (pdmRegOnlineOfflineCb cardType f g vsn res d).2 = d := by
  unfold pdmRegOnlineOfflineCb
  cases ht : checkType cardType with
  | none => rfl
  | some t =>
    cases f with
    | none => rfl
    | some f =>
      cases g with
      | none => rfl
      | some g => simp only [h t ht (by simp) (by simp), ne_eq, not_false_eq_true, true_or, ↓reduceIte]

/-- no `cb_online` that the registration calls fails, and only registered types are unregistered -/
def Op.SweepOk (d : DrvSt) : Op → Prop
  | reg cardType f g _ res => ∀ t i, checkType cardType = some t → f ≠ none → g ≠ none →
    (d.cardType t).cbOnline = none → (d.slot i).typeInfo = some t → 0 ≤ (res i).ret
  | unreg cardType => ∀ t, checkType cardType = some t → (d.cardType t).cbOnline ≠ none
  | _ => True

theorem reg_inv {cardType : ℤ} {f g : Option Ptr} {vsn : DrvVsnInfo} {res : SlotId → OnlineRes} {d : DrvSt} (h : Inv d)
    (hok : Op.SweepOk d (.reg cardType f g vsn res)) : Inv (pdmRegOnlineOfflineCb cardType f g vsn res d).2 := by
  by_cases hr : ∀ t, checkType cardType = some t → f ≠ none → g ≠ none → (d.cardType t).cbOnline ≠ none
  · rw [reg_refused hr]
    exact h
  push Not at hr
  obtain ⟨t, ht, hf, hg, hnone⟩ := hr
  obtain ⟨f, rfl⟩ := Option.ne_none_iff_exists'.1 hf
  obtain ⟨g, rfl⟩ := Option.ne_none_iff_exists'.1 hg
  obtain ⟨d', hd', hct, -, hty, hcalls⟩ := reg_eq ht h hnone f g vsn res
  rw [hd']
  have hret : ∀ j ∈ bound d t, 0 ≤ (res j).ret := fun j hj =>
    hok t j ht (by simp) (by simp) hnone (mem_bound.1 hj)
  refine ⟨?_, ?_, ?_⟩
  · intro t'
    rw [hct]
    by_cases ht' : t' = t
    · subst ht'; simp
    · simpa [ht'] using h.both t'
  · rw [hcalls]
    apply alternate_online_map (fun i => (res i).ret) h.alternate _ hret (bound_nodup d t)
    intro j hj
    -- no driver was registered for the type
    rw [h.agree, inst, mem_bound.1 hj]
    simp [hnone]
  · intro i
    rw [hcalls, active_online_map (fun i => (res i).ret) i _ hret, h.agree, inst, inst, hty, hct]
    by_cases hi : i ∈ bound d t
    · rw [if_pos hi, mem_bound.1 hi]
      simp
    · rw [if_neg hi]
      cases hti : (d.slot i).typeInfo with
      | none => rfl
      | some t' =>
        have hne : t' ≠ t := fun he => hi (mem_bound.2 (he ▸ hti))
        simp [hne]

/-- `pdm_unreg_online_offline_cb` of a type with a driver: it is cleared, and its cards stay in their slots -/
theorem unreg_eq {cardType : ℤ} {t : TypeId} (ht : checkType cardType = some t) {d : DrvSt} (hd : Inv d)
    (hon : (d.cardType t).cbOnline ≠ none) : pdmUnregOnlineOfflineCb cardType d = .ok { d with
      cardType := Function.update d.cardType t ⟨none, none⟩
      vsn := Function.update d.vsn t ⟨none, none⟩
      calls := (bound d t).map (fun i => .offline t (d.cardType t) i) ++ d.calls } := by
  obtain ⟨g, hg⟩ := Option.ne_none_iff_exists'.1 (mt (hd.both t).2 hon)
  unfold pdmUnregOnlineOfflineCb
  simp only [ht]
  exact unregSlot_foldlM t hg _ _

theorem unreg_inv {cardType : ℤ} {d : DrvSt} (h : Inv d) (hok : Op.SweepOk d (.unreg cardType)) :
    ∃ d', pdmUnregOnlineOfflineCb cardType d = .ok d' ∧ Inv d' := by
  cases ht : checkType cardType with
  | none =>
    unfold pdmUnregOnlineOfflineCb
    exact ⟨d, by simp only [ht], h⟩
  | some t =>
    have hon : (d.cardType t).cbOnline ≠ none := hok t ht
    refine ⟨_, unreg_eq ht h hon, ?_, ?_, ?_⟩
    · intro t'
      by_cases ht' : t' = t
      · subst ht'; simp
      · simpa [ht'] using h.both t'
    · apply alternate_offline_map h.alternate (bound d t) (bound_nodup d t)
      intro j hj
      rw [h.agree, inst, mem_bound.1 hj]
      simp [hon]
    · intro i
      refine (active_offline_map i (bound d t)).trans ?_
      rw [h.agree, inst, inst]
      by_cases hi : i ∈ bound d t
      · rw [if_pos hi, mem_bound.1 hi]
        simp
      · rw [if_neg hi]
        cases hti : (d.slot i).typeInfo with
        | none => simp
        | some t' =>
          have hne : t' ≠ t := fun he => hi (mem_bound.2 (he ▸ hti))
          simp [hne]

theorem setSlot_spec (d : DrvSt) (i : SlotId) (f : SlotInfo → SlotInfo) (hf : ∀ x, (f x).typeInfo = x.typeInfo) :
    SameTables d (d.setSlot i f) := by
  refine ⟨rfl, rfl, ?_⟩
  intro j
  by_cases hj : j = i
  · subst hj; simp [DrvSt.setSlot, hf]
  · simp [DrvSt.setSlot, hj]

theorem setIntReg_spec (i : SlotId) (val : Bool) (d : DrvSt) :
    SameTables d (setIntReg i val d) ∧ (setIntReg i val d).calls = d.calls := by
  unfold setIntReg
  split_ifs
  · exact ⟨⟨rfl, rfl, fun _ => rfl⟩, rfl⟩
  · exact ⟨SameTables.refl d, rfl⟩

theorem pdmDisableInt_spec (slot : ℤ) (d : DrvSt) :
    SameTables d (pdmDisableInt slot d).2 ∧ (pdmDisableInt slot d).2.calls = d.calls := by
  unfold pdmDisableInt
  cases checkSlot slot with
  | none => exact ⟨SameTables.refl d, rfl⟩
  | some i =>
    have hset := setSlot_spec d i (fun x => { x with intEnabled := false }) fun _ => rfl
    obtain ⟨hsame, hcalls⟩ := setIntReg_spec i true (d.setSlot i fun x => { x with intEnabled := false })
    exact ⟨hset.trans hsame, hcalls⟩

theorem pdmFreeIrq_spec (slot : ℤ) (d : DrvSt) :
    SameTables d (pdmFreeIrq slot d) ∧ (pdmFreeIrq slot d).calls = d.calls := by
  unfold pdmFreeIrq
  cases checkSlot slot with
  | none => exact ⟨SameTables.refl d, rfl⟩
  | some i =>
    obtain ⟨hsame, hcalls⟩ := pdmDisableInt_spec slot d
    exact ⟨hsame.trans (setSlot_spec _ i (fun x => { x with isr := none, arg := none }) fun _ => rfl), hcalls⟩

/-- the card of slot `i` is off line -/
theorem offline_eq {slot : ℤ} {i : SlotId} (hi : checkSlot slot = some i) {d : DrvSt} {t : TypeId}
    (ht : (d.slot i).typeInfo = some t) : ∃ d', SameTables d d' ∧ d'.calls = (match (d.cardType t).cbOffline with
      | some _ => .offline t (d.cardType t) i :: d.calls
      | none => d.calls) ∧ pdmCardOffline slot d = d'.setTypeInfo i none := by
  obtain ⟨hs₁, hc₁⟩ := pdmDisableInt_spec slot d
  obtain ⟨hs₂, hc₂⟩ := pdmFreeIrq_spec slot (pdmDisableInt slot d).2
  have hs := hs₁.trans hs₂
  have hc := hc₂.trans hc₁
  unfold pdmCardOffline
  simp only [hi, ht]
  rw [hs.cardType]
  cases (d.cardType t).cbOffline with
  | none => exact ⟨_, hs, hc, rfl⟩
  | some g =>
    exact ⟨(pdmFreeIrq slot (pdmDisableInt slot d).2).call (.offline t (d.cardType t) i),
      ⟨hs.cardType, hs.vsn, hs.typeInfo⟩, congrArg _ hc, rfl⟩

/-- only the driver of slot `i` changes -/
theorem inst_setTypeInfo {d d' : DrvSt} (h : SameTables d d') (i : SlotId) (t : Option TypeId) (j : SlotId) :
    inst (d'.setTypeInfo i t) j = if j = i then
      match t with
      | none => none
      | some t => if (d.cardType t).cbOnline = none then none else some (t, d.cardType t)
    else inst d j := by
  by_cases hj : j = i
  · subst hj
    simp only [inst, DrvSt.setTypeInfo, DrvSt.setSlot, Function.update_self, h.cardType, ↓reduceIte]
  · simp only [inst, DrvSt.setTypeInfo, DrvSt.setSlot, Function.update_of_ne hj, h.cardType, h.typeInfo, hj, ↓reduceIte]

theorem offline_inv {slot : ℤ} {d : DrvSt} (h : Inv d) : Inv (pdmCardOffline slot d) := by
  cases hi : checkSlot slot with
  | none =>
    unfold pdmCardOffline
    simpa only [hi] using h
  | some i =>
    cases ht : (d.slot i).typeInfo with
    | none =>
      unfold pdmCardOffline
      simpa only [hi, ht] using h
    | some t =>
      obtain ⟨d', hsame, hcalls, heq⟩ := offline_eq hi ht
      rw [heq]
      have hct : (d'.setTypeInfo i none).cardType = d.cardType := hsame.cardType
      have hcs : (d'.setTypeInfo i none).calls = d'.calls := rfl
      by_cases hoff : (d.cardType t).cbOffline = none
      · -- no driver: no call, and the slot had none
        rw [hoff] at hcalls
        refine ⟨fun t' => by rw [hct]; exact h.both t', by rw [hcs, hcalls]; exact h.alternate, ?_⟩
        intro j
        rw [hcs, hcalls, inst_setTypeInfo hsame, h.agree]
        by_cases hj : j = i
        · subst hj
          simp [inst, ht, (h.both t).2 hoff]
        · rw [if_neg hj]
      · obtain ⟨g, hg⟩ := Option.ne_none_iff_exists'.1 hoff
        rw [hg] at hcalls
        have hon : (d.cardType t).cbOnline ≠ none := mt (h.both t).1 hoff
        refine ⟨fun t' => by rw [hct]; exact h.both t', ?_, ?_⟩
        · rw [hcs, hcalls]
          refine ⟨?_, h.alternate⟩
          rw [h.agree, inst, ht]
          simp [hon]
        · intro j
          rw [hcs, hcalls, inst_setTypeInfo hsame]
          by_cases hj : j = i
          · subst hj; simp [active]
          · rw [if_neg hj, ← h.agree]
            simp [active, Ne.symm hj]

theorem online_inv {slot cardType : ℤ} {res : OnlineRes} {d : DrvSt} (h : Inv d) :
    Inv (pdmCardOnline slot cardType res d).2 := by
  unfold pdmCardOnline
  cases checkSlot slot with
  | none => exact h
  | some i =>
    cases checkType cardType with
    | none => exact h
    | some t =>
      dsimp only
      by_cases hty : (d.slot i).typeInfo ≠ none
      · rw [if_pos hty]
        exact h
      rw [if_neg hty]
      have hnone : active i d.calls = none := by rw [h.agree, inst, not_not.1 hty]
      cases hon : (d.cardType t).cbOnline with
      | none =>
        refine ⟨h.both, h.alternate, ?_⟩
        intro j
        show active j d.calls = _
        rw [inst_setTypeInfo (SameTables.refl d)]
        by_cases hj : j = i
        · subst hj; simp [hon, hnone]
        · rw [if_neg hj]
          exact h.agree j
      | some f =>
        dsimp only
        obtain ⟨hsame, hcalls⟩ := callOnline_spec t (d.cardType t) i res d
        have halt : Alternate (callOnline t (d.cardType t) i res d).calls := by
          rw [hcalls]
          exact ⟨hnone, h.alternate⟩
        by_cases hret : res.ret < 0
        · -- the card is refused, and the slot stays empty
          rw [if_pos hret]
          refine ⟨fun t' => by rw [hsame.cardType]; exact h.both t', halt, ?_⟩
          intro j
          rw [hcalls, inst, hsame.typeInfo, hsame.cardType]
          by_cases hj : j = i
          · subst hj; simp [active, not_le.2 hret, not_not.1 hty]
          · simp only [active, if_neg (Ne.symm hj)]
            exact h.agree j
        · rw [if_neg hret]
          refine ⟨?_, halt, ?_⟩
          · intro t'
            show ((callOnline t (d.cardType t) i res d).cardType t').cbOnline = none ↔ _
            rw [show ((callOnline t (d.cardType t) i res d).setTypeInfo i (some t)).cardType =
              (callOnline t (d.cardType t) i res d).cardType from rfl, hsame.cardType]
            exact h.both t'
          · intro j
            show active j (callOnline t (d.cardType t) i res d).calls = _
            rw [hcalls, inst_setTypeInfo hsame]
            by_cases hj : j = i
            · subst hj; simp [active, not_lt.1 hret, hon]
            · rw [if_neg hj, ← h.agree]
              simp [active, Ne.symm hj]

theorem step_inv {d : DrvSt} {op : Op} (h : Inv d) (hok : op.SweepOk d) : ∃ d', step d op = .ok d' ∧ Inv d' := by
  cases op with
  | reg cardType f g vsn res => exact ⟨_, rfl, reg_inv h hok⟩
  | unreg cardType => exact unreg_inv h hok
  | online slot cardType res => exact ⟨_, rfl, online_inv h⟩
  | offline slot => exact ⟨_, rfl, offline_inv h⟩

/-! ## Runs -/

theorem ctor_inv (masked : SlotId → Bool) : Inv (DrvSt.pdmCtorMngInfo masked) :=
  ⟨fun _ => ⟨fun _ => rfl, fun _ => rfl⟩, trivial, fun _ => rfl⟩

/-- every `cb_online` succeeds, and only registered types are unregistered -/
def Op.Succeeds (d : DrvSt) : Op → Prop
  | reg _ _ _ _ res => ∀ i, 0 ≤ (res i).ret
  | unreg cardType => ∀ t, checkType cardType = some t → (d.cardType t).cbOnline ≠ none
  | online _ _ res => 0 ≤ res.ret
  | offline _ => True

theorem Op.Succeeds.sweepOk {d : DrvSt} {op : Op} (h : op.Succeeds d) : op.SweepOk d := by
  cases op with
  | reg cardType f g vsn res => exact fun _ i _ _ _ _ _ => h i
  | unreg cardType => exact h
  | online slot cardType res => trivial
  | offline slot => trivial

instance (d : DrvSt) : (op : Op) → Decidable (op.Succeeds d)
  | .reg _ _ _ _ res => inferInstanceAs (Decidable (∀ i, 0 ≤ (res i).ret))
  | .unreg cardType => inferInstanceAs (Decidable (∀ t, checkType cardType = some t → (d.cardType t).cbOnline ≠ none))
  | .online _ _ res => inferInstanceAs (Decidable (0 ≤ res.ret))
  | .offline _ => isTrue trivial

instance (d : DrvSt) : (op : Op) → Decidable (op.SweepOk d)
  | .reg cardType f g _ res => inferInstanceAs (Decidable (∀ t i, checkType cardType = some t → f ≠ none → g ≠ none →
    (d.cardType t).cbOnline = none → (d.slot i).typeInfo = some t → 0 ≤ (res i).ret))
  | .unreg cardType => inferInstanceAs (Decidable (∀ t, checkType cardType = some t → (d.cardType t).cbOnline ≠ none))
  | .online .. | .offline _ => isTrue trivial

theorem run_inv {d : DrvSt} {ops : List Op} (h : Inv d) (hok : Always step Op.SweepOk d ops) :
    ∃ d', runFrom step d ops = .ok d' ∧ Inv d' :=
  runFrom_total (fun _ _ hd hop => step_inv hd hop) h hok

/-- a slot has a driver iff one is registered for the type of its card -/
theorem Inv.active_iff {d : DrvSt} (h : Inv d) (i : SlotId) (t : TypeId) :
    (∃ drv, active i d.calls = some (t, drv)) ↔ (d.cardType t).cbOnline ≠ none ∧ (d.slot i).typeInfo = some t := by
  rw [h.agree, inst]
  cases hty : (d.slot i).typeInfo with
  | none => simp
  | some t' =>
    by_cases hon : (d.cardType t').cbOnline = none
    · simp only [hon, ↓reduceIte, reduceCtorEq, exists_false, Option.some.injEq, false_iff, not_and]
      rintro hne rfl
      exact hne hon
    · simp only [hon, ↓reduceIte, Option.some.injEq, Prod.mk.injEq, exists_and_left, exists_eq', and_true]
      exact ⟨fun he => ⟨he ▸ hon, he⟩, fun hx => hx.2⟩

/-! ## The order of arrival -/

def CbCall.slot : CbCall → SlotId
  | online _ _ i _ => i
  | offline _ _ i => i

/-- the calls for slot `j` -/
def callsOf (j : SlotId) (h : List CbCall) : List CbCall := h.filter fun c => decide (c.slot = j)

/-- a driver whose callbacks only return a value -/
def plainRes (ret : SlotId → ℤ) (i : SlotId) : OnlineRes := ⟨ret i, none⟩

theorem regSlot_foldl_plain (t : TypeId) (drv : CardTypeInfo) (ret : SlotId → ℤ) (js : List SlotId) :
    ∀ x : ℤ × DrvSt, (js.foldl (regSlot t drv (plainRes ret)) x).2 = { x.2 with
      calls := ((js.filter fun i => decide ((x.2.slot i).typeInfo = some t)).reverse.map
        fun i => .online t drv i (ret i)) ++ x.2.calls } := by
  induction js with
  | nil => intro x; rfl
  | cons j js ih =>
    intro x
    rw [List.foldl_cons, ih]
    by_cases hj : (x.2.slot j).typeInfo = some t
    · simp [regSlot, hj, callOnline, plainRes, DrvSt.call]
    · simp [regSlot, hj]

/-- `pdm_reg_online_offline_cb`, when the callbacks only return a value -/
theorem reg_plain {t : TypeId} {d : DrvSt} (hd : Inv d) (hnone : (d.cardType t).cbOnline = none) (f g : Ptr)
    (vsn : DrvVsnInfo) (ret : SlotId → ℤ) :
    (pdmRegOnlineOfflineCb (t : ℕ) (some f) (some g) vsn (plainRes ret) d).2 = { d with
      cardType := Function.update d.cardType t ⟨some f, some g⟩
      vsn := Function.update d.vsn t vsn
      calls := (bound d t).map (fun i => .online t ⟨some f, some g⟩ i (ret i)) ++ d.calls } := by
  have hfold := regSlot_foldl_plain t ⟨some f, some g⟩ ret (List.finRange etinSlotMax) (0, d)
  unfold pdmRegOnlineOfflineCb
  simp only [checkType_coe]
  rw [if_neg (by simp [hnone, (hd.both t).1 hnone]), hfold]
  rfl

theorem callsOf_online_map (t : TypeId) (drv : CardTypeInfo) (ret : SlotId → ℤ) (j : SlotId) (h : List CbCall)
    (js : List SlotId) (hnd : js.Nodup) : callsOf j (js.map (fun i => .online t drv i (ret i)) ++ h) =
      (if j ∈ js then [.online t drv j (ret j)] else []) ++ callsOf j h := by
  induction js with
  | nil => simp [callsOf]
  | cons k js ih =>
    obtain ⟨hk, hnd⟩ := List.nodup_cons.1 hnd
    have ih := ih hnd
    unfold callsOf at ih ⊢
    rw [List.map_cons, List.cons_append, List.filter_cons]
    by_cases hkj : k = j
    · subst hkj
      rw [ih, if_neg hk]
      simp [CbCall.slot]
    · rw [ih]
      simp [CbCall.slot, hkj, Ne.symm hkj]

/-- registering a driver before or after a card of its type is plugged: the same calls for every slot, and the same
tables -/
theorem reg_online_comm {d : DrvSt} (hd : Inv d) {t : TypeId} {i : SlotId} (hnone : (d.cardType t).cbOnline = none)
    (hempty : (d.slot i).typeInfo = none) (f g : Ptr) (vsn : DrvVsnInfo) {ret : SlotId → ℤ} (hret : ∀ j, 0 ≤ ret j) :
    ∃ d₁ d₂,
      runFrom step d [.reg (t : ℕ) (some f) (some g) vsn (plainRes ret), .online (i : ℕ) (t : ℕ) (plainRes ret i)]
        = .ok d₁ ∧
      runFrom step d [.online (i : ℕ) (t : ℕ) (plainRes ret i), .reg (t : ℕ) (some f) (some g) vsn (plainRes ret)]
        = .ok d₂ ∧
      d₁.cardType = d₂.cardType ∧ d₁.vsn = d₂.vsn ∧ d₁.slot = d₂.slot ∧ d₁.masked = d₂.masked ∧
      ∀ j, callsOf j d₁.calls = callsOf j d₂.calls := by
  refine ⟨{ d.setTypeInfo i (some t) with
      cardType := Function.update d.cardType t ⟨some f, some g⟩
      vsn := Function.update d.vsn t vsn
      calls := (i :: bound d t).map (fun i => .online t ⟨some f, some g⟩ i (ret i)) ++ d.calls },
    { d.setTypeInfo i (some t) with
      cardType := Function.update d.cardType t ⟨some f, some g⟩
      vsn := Function.update d.vsn t vsn
      calls := (bound (d.setTypeInfo i (some t)) t).map (fun i => .online t ⟨some f, some g⟩ i (ret i)) ++ d.calls },
    ?_, ?_, rfl, rfl, rfl, rfl, ?_⟩
  · simp only [runFrom, List.foldlM_cons, List.foldlM_nil, step, ok_bind]
    rw [reg_plain hd hnone]
    unfold pdmCardOnline
    simp only [checkSlot_coe, checkType_coe, hempty, ne_eq, not_true_eq_false, ↓reduceIte, Function.update_self,
      plainRes, not_lt.2 (hret i), callOnline]
    rfl
  · have hon : (pdmCardOnline (i : ℕ) (t : ℕ) (plainRes ret i) d).2 = d.setTypeInfo i (some t) := by
      unfold pdmCardOnline
      simp only [checkSlot_coe, checkType_coe, hempty, ne_eq, not_true_eq_false, ↓reduceIte, hnone]
    have hd' : Inv (d.setTypeInfo i (some t)) := hon ▸ online_inv hd
    simp only [runFrom, List.foldlM_cons, List.foldlM_nil, step, ok_bind, hon]
    rw [reg_plain hd' hnone]
    rfl
  · intro j
    have hi : i ∉ bound d t := by rw [mem_bound, hempty]; simp
    dsimp only
    rw [callsOf_online_map _ _ _ _ _ _ (List.nodup_cons.2 ⟨hi, bound_nodup d t⟩),
      callsOf_online_map _ _ _ _ _ _ (bound_nodup _ t)]
    have hmem : j ∈ i :: bound d t ↔ j ∈ bound (d.setTypeInfo i (some t)) t := by
      rw [List.mem_cons, mem_bound, mem_bound]
      by_cases hj : j = i
      · subst hj; simp [DrvSt.setTypeInfo, DrvSt.setSlot]
      · simp [DrvSt.setTypeInfo, DrvSt.setSlot, hj]
    simp only [hmem]

/-- when the driver of type `t` is unregistered, it is cleared, the cards stay in their slots, and its `cb_offline` is
called for exactly the slots with a card of the type; a driver that is registered next gets `cb_online` for exactly
these -/
def SweptAgain (d : DrvSt) (t : TypeId) : Prop :=
  ∃ d₁, step d (.unreg (t : ℕ)) = .ok d₁ ∧ d₁.cardType t = ⟨none, none⟩ ∧
    (∀ i, (d₁.slot i).typeInfo = (d.slot i).typeInfo) ∧
    d₁.calls = (bound d t).map (fun i => .offline t (d.cardType t) i) ++ d.calls ∧
    ∀ f g vsn res, ∃ d₂, step d₁ (.reg (t : ℕ) (some f) (some g) vsn res) = .ok d₂ ∧
      d₂.cardType t = ⟨some f, some g⟩ ∧ (∀ i, (d₂.slot i).typeInfo = (d.slot i).typeInfo) ∧
      d₂.calls = (bound d t).map (fun i => .online t ⟨some f, some g⟩ i (res i).ret) ++ d₁.calls

theorem sweptAgain {d : DrvSt} (hd : Inv d) {t : TypeId} (hon : (d.cardType t).cbOnline ≠ none) : SweptAgain d t := by
  have hunreg := unreg_eq (checkType_coe t) hd hon
  have hsweep : Op.SweepOk d (.unreg (t : ℕ)) := by
    intro t' ht'
    rw [checkType_coe] at ht'
    cases ht'
    exact hon
  obtain ⟨d₁, hd₁, hinv₁⟩ := unreg_inv hd hsweep
  obtain rfl := Except.ok.inj (hunreg.symm.trans hd₁)
  refine ⟨_, hunreg, Function.update_self .., fun _ => rfl, rfl, fun f g vsn res => ?_⟩
  obtain ⟨d₂, hd₂, hcard, -, htype, hcalls⟩ := reg_eq (checkType_coe t) hinv₁ (by simp) f g vsn res
  refine ⟨d₂, congrArg Except.ok hd₂, ?_, htype, hcalls⟩
  rw [hcard, Function.update_self]

/-- **Registry and cards agree in any order of arrival.** A sequence of operations whose `cb_online` calls succeed and
that unregisters registered types only runs to its end. The calls for each slot alternate, and a slot has a driver of
type t iff one is registered and the card is of that type. Registering a driver before or after a card is plugged makes
the same calls and leaves the same tables. A type that is registered gets `cb_online` for exactly the slots its cards
are in; when it is unregistered it gets `cb_offline` for exactly these, the cards stay in them, and when it is
registered again it gets `cb_online` for exactly these. -/
theorem registry_agrees (masked : SlotId → Bool) (ops : List Op)
    (hok : Always step Op.Succeeds (DrvSt.pdmCtorMngInfo masked) ops) :
    ∃ d, runFrom step (DrvSt.pdmCtorMngInfo masked) ops = .ok d ∧ Alternate d.calls ∧
      (∀ i t, (∃ drv, active i d.calls = some (t, drv)) ↔
        (d.cardType t).cbOnline ≠ none ∧ (d.slot i).typeInfo = some t) ∧
      (∀ (t : TypeId) (i : SlotId) f g vsn ret, (d.cardType t).cbOnline = none → (d.slot i).typeInfo = none →
        (∀ j, 0 ≤ ret j) → ∃ d₁ d₂,
        runFrom step d [.reg (t : ℕ) (some f) (some g) vsn (plainRes ret), .online (i : ℕ) (t : ℕ) (plainRes ret i)]
          = .ok d₁ ∧
        runFrom step d [.online (i : ℕ) (t : ℕ) (plainRes ret i), .reg (t : ℕ) (some f) (some g) vsn (plainRes ret)]
          = .ok d₂ ∧
        d₁.cardType = d₂.cardType ∧ d₁.vsn = d₂.vsn ∧ d₁.slot = d₂.slot ∧ d₁.masked = d₂.masked ∧
        ∀ j, callsOf j d₁.calls = callsOf j d₂.calls) ∧
      (∀ (t : TypeId) f g vsn res, (d.cardType t).cbOnline = none →
        (pdmRegOnlineOfflineCb (t : ℕ) (some f) (some g) vsn res d).2.calls =
          (bound d t).map (fun i => .online t ⟨some f, some g⟩ i (res i).ret) ++ d.calls) ∧
      ∀ t : TypeId, (d.cardType t).cbOnline ≠ none → SweptAgain d t := by
  obtain ⟨d, hd, hinv⟩ := run_inv (ctor_inv masked) (hok.mono fun _ _ => Op.Succeeds.sweepOk)
  refine ⟨d, hd, hinv.alternate, hinv.active_iff, ?_, ?_, fun t hon => sweptAgain hinv hon⟩
  · intro t i f g vsn ret hnone hempty hret
    exact reg_online_comm hinv hnone hempty f g vsn hret
  · intro t f g vsn res hnone
    obtain ⟨d', hd', -, -, -, hcalls⟩ := reg_eq (checkType_coe t) hinv hnone f g vsn res
    rw [hd', hcalls]

/-- a card comes and goes and comes again; its driver is registered, unregistered and registered again, which it may be
once more -/
theorem registry_agrees_again : ∃ d, runFrom step (DrvSt.pdmCtorMngInfo fun _ => true)
    [.online 1 1 ⟨0, none⟩, .reg 1 (some 10) (some 11) ⟨none, none⟩ fun _ => ⟨0, none⟩, .unreg 1, .offline 1,
      .reg 1 (some 10) (some 11) ⟨none, none⟩ fun _ => ⟨0, none⟩, .online 1 1 ⟨0, none⟩] = .ok d ∧
    Alternate d.calls ∧ SweptAgain d 1 := by
  obtain ⟨d, hd, halt, -, -, -, hswept⟩ := registry_agrees (fun _ => true)
    [.online 1 1 ⟨0, none⟩, .reg 1 (some 10) (some 11) ⟨none, none⟩ fun _ => ⟨0, none⟩, .unreg 1, .offline 1,
      .reg 1 (some 10) (some 11) ⟨none, none⟩ fun _ => ⟨0, none⟩, .online 1 1 ⟨0, none⟩] (by decide +kernel)
  have hon : (runFrom step (DrvSt.pdmCtorMngInfo fun _ => true)
      [.online 1 1 ⟨0, none⟩, .reg 1 (some 10) (some 11) ⟨none, none⟩ fun _ => ⟨0, none⟩, .unreg 1, .offline 1,
        .reg 1 (some 10) (some 11) ⟨none, none⟩ fun _ => ⟨0, none⟩, .online 1 1 ⟨0, none⟩]).map
        (fun d => (d.cardType 1).cbOnline) = .ok (some 10) := by rfl
  rw [hd] at hon
  have hcb : (d.cardType 1).cbOnline = some 10 := Except.ok.inj hon
  exact ⟨d, hd, halt, hswept 1 (by simp [hcb])⟩

/-! ## Drivers that fail -/

/-- **Callbacks are paired while no registration meets a failure.** A sequence of operations that unregisters registered
types only, in which no `cb_online` called by a registration fails, runs to its end, and a driver's `cb_offline` is only
called for a slot whose last call by that driver was a `cb_online` that succeeded. -/
theorem callbacks_paired (masked : SlotId → Bool) (ops : List Op)
    (hok : Always step Op.SweepOk (DrvSt.pdmCtorMngInfo masked) ops) :
    ∃ d, runFrom step (DrvSt.pdmCtorMngInfo masked) ops = .ok d ∧ Paired d.calls := by
  obtain ⟨d, hd, hinv⟩ := run_inv (ctor_inv masked) hok
  exact ⟨d, hd, hinv.alternate.paired⟩

/-- a driver is registered first and refuses the card, and the card is plugged again -/
theorem callbacks_paired_refused : ∃ d, runFrom step (DrvSt.pdmCtorMngInfo fun _ => true)
    [.reg 1 (some 10) (some 11) ⟨none, none⟩ fun _ => ⟨0, none⟩, .online 1 1 ⟨-1, none⟩, .online 1 1 ⟨0, none⟩,
      .offline 1] = .ok d ∧ Paired d.calls :=
  callbacks_paired (fun _ => true)
    [.reg 1 (some 10) (some 11) ⟨none, none⟩ fun _ => ⟨0, none⟩, .online 1 1 ⟨-1, none⟩, .online 1 1 ⟨0, none⟩,
      .offline 1] (by decide +kernel)

/-- a card is plugged first, its driver is registered and fails, and the card goes: the driver is told that a card went
off line which it never had -/
theorem sweep_failed_offline : ∃ d, runFrom step (DrvSt.pdmCtorMngInfo fun _ => true)
    [.online 1 1 ⟨0, none⟩, .reg 1 (some 10) (some 11) ⟨none, none⟩ fun _ => ⟨-1, none⟩, .offline 1] = .ok d ∧
    d.calls = [.offline 1 ⟨some 10, some 11⟩ 1, .online 1 ⟨some 10, some 11⟩ 1 (-1)] ∧ ¬ Paired d.calls := by
  have hcalls : (runFrom step (DrvSt.pdmCtorMngInfo fun _ => true)
      [.online 1 1 ⟨0, none⟩, .reg 1 (some 10) (some 11) ⟨none, none⟩ fun _ => ⟨-1, none⟩, .offline 1]).map
        DrvSt.calls = .ok [.offline 1 ⟨some 10, some 11⟩ 1, .online 1 ⟨some 10, some 11⟩ 1 (-1)] := by rfl
  cases hd : runFrom step (DrvSt.pdmCtorMngInfo fun _ => true)
      [.online 1 1 ⟨0, none⟩, .reg 1 (some 10) (some 11) ⟨none, none⟩ fun _ => ⟨-1, none⟩, .offline 1] with
  | error x => rw [hd] at hcalls; cases hcalls
  | ok d =>
    rw [hd] at hcalls
    have hc : d.calls = [.offline 1 ⟨some 10, some 11⟩ 1, .online 1 ⟨some 10, some 11⟩ 1 (-1)] := Except.ok.inj hcalls
    refine ⟨d, rfl, hc, ?_⟩
    rw [hc]
    simp [Paired, live]

end LinuxDrv.Driver
