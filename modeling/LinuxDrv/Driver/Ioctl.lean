/-
`pdm_ioctl_card_on_off_line`: what the card ioctl does to the `type_info` of the slots.

- `ioctl_off`: the request to take a card off line succeeds, and the slot is empty.
- `ioctl_on`: the request to put a card on line in an empty slot succeeds if `cb_online` does, and the slot has its
  type.
- `pdmCardOnline_typeInfo`: `pdm_card_online` leaves a slot, or records the type.
- `ioctl_other`: the slots that the request does not name stay as they are.
-/
import LinuxDrv.Driver.Callbacks

namespace LinuxDrv.Driver

variable {m : ℤ} {i : SlotId} {res : OnlineRes} {d : DrvSt}

theorem setTypeInfo_self (d : DrvSt) (i : SlotId) (t : Option TypeId) : ((d.setTypeInfo i t).slot i).typeInfo = t := by
  simp [DrvSt.setTypeInfo, DrvSt.setSlot]

theorem setTypeInfo_ne (d : DrvSt) {i j : SlotId} (hj : j ≠ i) (t : Option TypeId) :
    ((d.setTypeInfo i t).slot j).typeInfo = (d.slot j).typeInfo := by
  simp [DrvSt.setTypeInfo, DrvSt.setSlot, hj]

/-- a slot number passes `IS_SLOT_ERR` -/
theorem not_isSlotErr (i : SlotId) : ¬ isSlotErr (i : ℕ) := by
  rw [isSlotErr, not_or]
  exact ⟨by omega, by have := i.isLt; omega⟩

/-- `pdm_card_offline` empties the slot and leaves the others -/
theorem offline_typeInfo (slot : ℤ) (d : DrvSt) (j : SlotId) : ((pdmCardOffline slot d).slot j).typeInfo =
    if checkSlot slot = some j then none else (d.slot j).typeInfo := by
  cases hi : checkSlot slot with
  | none =>
    unfold pdmCardOffline
    simp [hi]
  | some i =>
    cases ht : (d.slot i).typeInfo with
    | none =>
      have heq : pdmCardOffline slot d = d := by
        unfold pdmCardOffline
        simp only [hi, ht]
      by_cases hj : j = i
      · subst hj; simp [heq, ht]
      · simp [heq, Ne.symm hj]
    | some t =>
      obtain ⟨d', hsame, -, heq⟩ := offline_eq hi ht
      by_cases hj : j = i
      · subst hj; rw [heq, setTypeInfo_self]; simp
      · rw [heq, setTypeInfo_ne d' hj, hsame.typeInfo]; simp [Ne.symm hj]

/-- `pdm_card_online` leaves the other slots -/
theorem online_other {slot cardType : ℤ} {j : SlotId} (hj : checkSlot slot ≠ some j) :
    ((pdmCardOnline slot cardType res d).2.slot j).typeInfo = (d.slot j).typeInfo := by
  unfold pdmCardOnline
  cases hi : checkSlot slot with
  | none => rfl
  | some i =>
    have hji : j ≠ i := fun he => hj (he ▸ hi)
    cases checkType cardType with
    | none => rfl
    | some t =>
      dsimp only
      by_cases hty : (d.slot i).typeInfo ≠ none
      · rw [if_pos hty]
      rw [if_neg hty]
      cases (d.cardType t).cbOnline with
      | none => exact setTypeInfo_ne d hji _
      | some f =>
        have hsame := (callOnline_spec t (d.cardType t) i res d).1
        dsimp only
        split_ifs
        · exact hsame.typeInfo j
        · rw [setTypeInfo_ne _ hji, hsame.typeInfo]

/-- `pdm_card_online` of an empty slot whose `cb_online` succeeds -/
theorem online_ok {cardType : ℤ} {t : TypeId} (ht : checkType cardType = some t) (hres : 0 ≤ res.ret)
    (hnone : (d.slot i).typeInfo = none) : 0 ≤ (pdmCardOnline (i : ℕ) cardType res d).1 ∧
      ((pdmCardOnline (i : ℕ) cardType res d).2.slot i).typeInfo = some t := by
  unfold pdmCardOnline
  simp only [checkSlot_coe, ht]
  rw [if_neg (by simp [hnone])]
  cases (d.cardType t).cbOnline with
  | none => exact ⟨le_rfl, setTypeInfo_self d i _⟩
  | some f =>
    dsimp only
    rw [if_neg (not_lt.2 hres)]
    exact ⟨hres, setTypeInfo_self _ i _⟩

/-- `pdm_card_online` leaves `s_card_type_info` -/
theorem pdmCardOnline_cardType (slot cardType : ℤ) (res : OnlineRes) (d : DrvSt) :
    (pdmCardOnline slot cardType res d).2.cardType = d.cardType := by
  unfold pdmCardOnline
  rcases checkSlot slot with _ | i
  · rfl
  rcases checkType cardType with _ | t
  · rfl
  dsimp only
  by_cases hty : (d.slot i).typeInfo ≠ none
  · rw [if_pos hty]
  rw [if_neg hty]
  rcases (d.cardType t).cbOnline with _ | f
  · rfl
  have hsame := (callOnline_spec t (d.cardType t) i res d).1
  dsimp only
  by_cases hneg : res.ret < 0
  · rw [if_pos hneg]
    exact hsame.cardType
  · rw [if_neg hneg]
    exact hsame.cardType

/-- a failed `cb_online` leaves the slots; so does a call for a slot that has a card -/
theorem pdmCardOnline_typeInfo (slot cardType ret : ℤ) (d : DrvSt) (j : SlotId) :
    ((pdmCardOnline slot cardType ⟨ret, none⟩ d).2.slot j).typeInfo = (d.slot j).typeInfo ∨
    ∃ t, checkSlot slot = some j ∧ checkType cardType = some t ∧ (d.slot j).typeInfo = none ∧
      ((pdmCardOnline slot cardType ⟨ret, none⟩ d).2.slot j).typeInfo = some t ∧
      ((d.cardType t).cbOnline ≠ none → 0 ≤ ret) := by
  by_cases hj : checkSlot slot = some j
  · unfold pdmCardOnline
    rw [hj]
    rcases ht : checkType cardType with _ | t
    · exact Or.inl rfl
    dsimp only
    by_cases hty : (d.slot j).typeInfo ≠ none
    · rw [if_pos hty]
      exact Or.inl rfl
    rw [if_neg hty]
    rw [not_not] at hty
    rcases hon : (d.cardType t).cbOnline with _ | f
    · exact Or.inr ⟨t, rfl, rfl, hty, setTypeInfo_self d j _, fun hne => absurd hon hne⟩
    dsimp only
    by_cases hneg : ret < 0
    · rw [if_pos hneg]
      exact Or.inl ((callOnline_spec t (d.cardType t) j ⟨ret, none⟩ d).1.typeInfo j)
    · rw [if_neg hneg]
      exact Or.inr ⟨t, rfl, rfl, hty, setTypeInfo_self _ j _, fun _ => not_lt.1 hneg⟩
  · exact Or.inl (online_other hj)

/-- so does `pdm_card_offline` -/
theorem pdmCardOffline_cardType (slot : ℤ) (d : DrvSt) : (pdmCardOffline slot d).cardType = d.cardType := by
  rcases hslot : checkSlot slot with _ | i
  · simp only [pdmCardOffline, hslot]
  rcases hty : (d.slot i).typeInfo with _ | t
  · simp only [pdmCardOffline, hslot, hty]
  obtain ⟨d', hsame, -, heq⟩ := offline_eq hslot hty
  rw [heq]
  exact hsame.cardType

theorem ioctl_other {arg : DevMngDrvData} {j : SlotId} (hj : checkSlot arg.slotId ≠ some j) :
    ((pdmIoctlCardOnOffLine m arg res d).2.slot j).typeInfo = (d.slot j).typeInfo := by
  unfold pdmIoctlCardOnOffLine
  split_ifs
  · rfl
  · exact (offline_typeInfo arg.slotId d j).trans (if_neg hj)
  · exact online_other hj

theorem ioctl_off (res : OnlineRes) (d : DrvSt) (hm : ((i : ℕ) : ℤ) ≠ m) :
    (pdmIoctlCardOnOffLine m ⟨(i : ℕ), etindevNull⟩ res d).1 = 0 ∧
    ((pdmIoctlCardOnOffLine m ⟨(i : ℕ), etindevNull⟩ res d).2.slot i).typeInfo = none := by
  unfold pdmIoctlCardOnOffLine
  rw [if_neg (by simp only [not_or]; exact ⟨not_or.1 (not_isSlotErr i), hm, by simp⟩), if_pos rfl]
  exact ⟨rfl, (offline_typeInfo _ d i).trans (if_pos (checkSlot_coe i))⟩

theorem ioctl_on (hm : ((i : ℕ) : ℤ) ≠ m) {x : ETinDev} {t : TypeId} (ht : checkType x = some t) (hres : 0 ≤ res.ret)
    (hnone : (d.slot i).typeInfo = none) : 0 ≤ (pdmIoctlCardOnOffLine m ⟨(i : ℕ), x⟩ res d).1 ∧
      ((pdmIoctlCardOnOffLine m ⟨(i : ℕ), x⟩ res d).2.slot i).typeInfo = some t := by
  have hx : x ≠ etindevNull := by rintro rfl; simp at ht
  have herr : ¬ isCardTypeErr x := by
    intro herr
    simp [checkType, herr] at ht
  unfold pdmIoctlCardOnOffLine
  rw [if_neg (by simp only [not_or]; exact ⟨not_or.1 (not_isSlotErr i), hm, fun h => herr h.2⟩), if_neg hx]
  exact online_ok ht hres hnone

end LinuxDrv.Driver
