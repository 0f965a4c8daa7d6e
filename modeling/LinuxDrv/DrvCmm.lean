/-
What the process manager and the pdm driver share (`drv_cmm_hdr.h`, `pdm_drv_usr.h`): card types, slots, and the
argument of the ioctl that takes a card on or off line.

The enumerations are C ints, which the code range-checks at run time, so a card type or a slot number that comes from
outside is an integer here too. A table index is a `SlotId` or a `TypeId`; `checkSlot` and `checkType` are the range
checks `IS_SLOT_ERR` and `IS_CARD_TYPE_ERR`, and the only way from an integer to an index.
-/
import Mathlib.Tactic

namespace LinuxDrv

/-- `ETinDev_t` -/
abbrev ETinDev := ℤ

def etindevNull : ℤ := -1
def etindevMin : ℤ := 0
def etindevPdm : ℤ := 0
def etindevMio : ℤ := 1
def etindevMax : ℕ := 2

def etinSlotPdm : ℤ := 0
def etinSlotSelf : ℤ := 1
def etinSlotMax : ℕ := 2

/-- `IS_CARD_TYPE_INVALID`: neither a card type nor `ETINDEV_NULL` -/
abbrev isCardTypeInvalid (x : ℤ) : Prop := x < etindevNull ∨ (etindevMax : ℤ) ≤ x

/-- `IS_CARD_TYPE_ERR`: not a card type -/
abbrev isCardTypeErr (x : ℤ) : Prop := x < etindevMin ∨ (etindevMax : ℤ) ≤ x

/-- `IS_SLOT_ERR` -/
abbrev isSlotErr (x : ℤ) : Prop := x < 0 ∨ (etinSlotMax : ℤ) ≤ x

/-- an index into a table of `ETIN_SLOT_MAX` entries -/
abbrev SlotId := Fin etinSlotMax

/-- an index into a table of `ETINDEV_MAX` entries -/
abbrev TypeId := Fin etindevMax

instance : NeZero etinSlotMax := ⟨by decide⟩
instance : NeZero etindevMax := ⟨by decide⟩

/-- the slot a number names, if it passes `IS_SLOT_ERR` -/
def checkSlot (x : ℤ) : Option SlotId :=
  if h : isSlotErr x then none else some ⟨x.toNat, by rw [isSlotErr, not_or] at h; omega⟩

/-- the card type a number names, if it passes `IS_CARD_TYPE_ERR` -/
def checkType (x : ℤ) : Option TypeId :=
  if h : isCardTypeErr x then none else some ⟨x.toNat, by rw [isCardTypeErr, etindevMin, not_or] at h; omega⟩

@[simp] theorem checkSlot_coe (i : SlotId) : checkSlot (i : ℕ) = some i := by
  have h : ¬ isSlotErr (i : ℕ) := by
    rw [isSlotErr, not_or]
    exact ⟨by omega, by have := i.isLt; omega⟩
  simp [checkSlot, h]

@[simp] theorem checkType_coe (t : TypeId) : checkType (t : ℕ) = some t := by
  have h : ¬ isCardTypeErr (t : ℕ) := by
    rw [isCardTypeErr, etindevMin, not_or]
    exact ⟨by omega, by have := t.isLt; omega⟩
  simp [checkType, h]

@[simp] theorem checkType_null : checkType etindevNull = none := rfl

theorem checkType_isSome {x : ℤ} (h : ¬ isCardTypeInvalid x) (hx : x ≠ etindevNull) : (checkType x).isSome := by
  have h' : ¬ isCardTypeErr x := by
    rw [isCardTypeInvalid, not_or] at h
    rw [isCardTypeErr, not_or]
    simp only [etindevNull, etindevMin] at *
    omega
  simp [checkType, h']

/-- a slot number is the number of its entry -/
theorem checkSlot_eq_some {x : ℤ} {i : SlotId} (h : checkSlot x = some i) : x = (i : ℕ) := by
  unfold checkSlot at h
  split_ifs at h with hx
  simp only [Option.some.injEq] at h
  rw [isSlotErr, not_or] at hx
  subst h
  exact (Int.toNat_of_nonneg (by omega)).symm

/-- a card type number is the number of its entry -/
theorem checkType_eq_some {x : ℤ} {t : TypeId} (h : checkType x = some t) : x = (t : ℕ) := by
  unfold checkType at h
  split_ifs at h with hx
  simp only [Option.some.injEq] at h
  rw [isCardTypeErr, etindevMin, not_or] at hx
  subst h
  exact (Int.toNat_of_nonneg (by omega)).symm

/-- `SDevMngDrvData_t` -/
structure DevMngDrvData where
  slotId : ℤ
  cardType : ETinDev
deriving DecidableEq, Repr

/-- the names of the card types, in the order of `ETinDev_t` -/
def cardName : TypeId → String := !["PDM", "MIO"]

/-- `getCardTypeStr` -/
def getCardTypeStr (dev : ETinDev) : Option String := (checkType dev).map cardName

end LinuxDrv
