/-
Commands that are written to the driver (`pdm_drv_write` in `file_op.c`, `sys_func_drv_write` in `sys_func_set.c`).

Both functions look for a command in the buffer of the user by fixed indices, and the second one has `simple_strtoul`
read a number behind it. The count of bytes is compared with 7 once, and looked at nowhere else. A function has no
result if it looks behind the memory of the user. Messages to the log are left out, and so are the registers that they
print.
- `pdmDrvWrite_isSome`, `sysFuncDrvWrite_isSome`: the commands that are read inside their bytes.
- `write_bytes_iff`: these are the commands whose effect depends on the bytes that are written only.
-/
import LinuxDrv.Core.Scan
import LinuxDrv.Driver.Ext

namespace LinuxDrv.Driver

open LinuxDrv.Core

/-! ## pdm_drv_write -/

/-- what `pdm_drv_write` reaches of `pdm_drv_main_t` -/
structure PdmDrvMain where
  mSlot : ℤ
  /-- `card_type` of the entries of `m_cardData` -/
  cardType : SlotId → ℤ
  drv : DrvSt

/-- `pdm_sim_slot_on_off_line` -/
def pdmSimSlotOnOffLine (_slot _type : ℤ) : ℤ := 0

/-- `pdm_get_slot_card_type`: `s_fixed_card_type` -/
def pdmGetSlotCardType (i : SlotId) : ℤ := if i = 0 then etindevPdm else etindevMio

/-- `pdm_ioctl_get_all_card_type` -/
def pdmIoctlGetAllCardType (s : PdmDrvMain) : PdmDrvMain := { s with cardType := pdmGetSlotCardType }

/-- `pdm_reset`, `pdm_enable_master_int` and `pdm_disable_master_int` have no body -/
def pdmReset (s : PdmDrvMain) : PdmDrvMain := s
def pdmEnableMasterInt (s : PdmDrvMain) : PdmDrvMain := s
def pdmDisableMasterInt (s : PdmDrvMain) : PdmDrvMain := s

/-- the condition of the simulation: an 'e', and a slot that is '1' -/
def isSimCmd (pBuf : Buf) (nBytes : ℕ) : Option Bool :=
  if 7 ≤ nBytes then
    pBuf[0]?.bind fun c =>
      if c = ch 'e' then pBuf[1]?.bind fun d => some (decide (ch '1' ≤ d ∧ d ≤ ch '1')) else some false
  else some false

/-- the card type of the simulation -/
def simType (pBuf : Buf) : Option ℤ :=
  pBuf[3]?.bind fun a => pBuf[4]?.bind fun b => pBuf[5]?.bind fun c =>
    if a = ch 'm' ∧ b = ch 'i' ∧ c = ch 'o' then some etindevMio else some etindevNull

/-- the card comes or goes in fact, too -/
def simReal (pBuf : Buf) : Option Bool :=
  pBuf[6]?.bind fun c =>
    if c ≠ 0 ∧ c = ch ' ' then pBuf[7]?.bind fun d => some (decide (d = ch 'r')) else some false

/-- a return value, or the count if it is none of an error -/
def retOr (nBytes : ℕ) (ret : ℤ) : ℤ := if 0 ≤ ret then nBytes else ret

/-- the commands of one letter -/
def letterCmd (pBuf : Buf) (s : PdmDrvMain) : Option PdmDrvMain :=
  pBuf[0]?.bind fun c =>
    if c = ch 'd' then some (pdmIoctlGetAllCardType s)
    else if c = ch 'r' then some (pdmReset s)
    else if c = ch 'm' then
      pBuf[1]?.bind fun d =>
        if d = ch '1' then some (pdmEnableMasterInt s)
        else if d = ch '0' then some (pdmDisableMasterInt s)
        else some s
    else some s

/-- `pdm_drv_write`; `res` is what a `cb_online` returns -/
def pdmDrvWrite (res : OnlineRes) (pBuf : Buf) (nBytes : ℕ) (s : PdmDrvMain) : Option (ℤ × PdmDrvMain) :=
  (isSimCmd pBuf nBytes).bind fun sim =>
    if sim then
      (simType pBuf).bind fun type =>
        let ret := retOr nBytes (pdmSimSlotOnOffLine etinSlotSelf type)
        (simReal pBuf).bind fun real =>
          if real then
            let x := pdmIoctlCardOnOffLine s.mSlot ⟨etinSlotSelf, type⟩ res s.drv
            some (retOr nBytes x.1, { s with drv := x.2 })
          else some (ret, s)
    else (letterCmd pBuf s).bind fun t => some (nBytes, t)

/-! ## sys_func_drv_write -/

/-- what `sys_func_drv_write` reaches -/
structure SysFuncMain where
  hrmOfflineInt : BitVec 32
  blankReg : BitVec 16
deriving DecidableEq

/-- `sys_func_offline_int_notify` -/
def sysFuncOfflineIntNotify (intBmp : BitVec 32) (s : SysFuncMain) : SysFuncMain :=
  { s with hrmOfflineInt := s.hrmOfflineInt ||| intBmp }

/-- `sys_func_ioctl_hrm_tmp_set` -/
def sysFuncIoctlHrmTmpSet (_arg : BitVec 32) (s : SysFuncMain) : SysFuncMain := s

section SysFunc

-- the assignment of the field `BLANK_REG`; the layout of its register is not in the repository
variable (assBlank : BitVec 16 → BitVec 32 → BitVec 16)

/-- `sys_func_ioctl_blank_set` -/
def sysFuncIoctlBlankSet (arg : BitVec 32) (s : SysFuncMain) : SysFuncMain :=
  { s with blankReg := assBlank s.blankReg arg }

/-- the number behind the letter -/
def cmdArg (pBuf : Buf) : Option (BitVec 32) :=
  pBuf[0]?.bind fun c =>
    if c ≠ ch 'd' then (simpleStrtoul (pBuf.drop 1)).bind fun n => some (BitVec.ofNat 32 n) else some 0

/-- `sys_func_drv_write` -/
def sysFuncDrvWrite (pBuf : Buf) (nBytes : ℕ) (s : SysFuncMain) : Option (ℤ × SysFuncMain) :=
  (cmdArg pBuf).bind fun arg => pBuf[0]?.bind fun c =>
    if c = ch 'i' then some (nBytes, sysFuncOfflineIntNotify arg s)
    else if c = ch 'h' then some (nBytes, sysFuncIoctlHrmTmpSet arg s)
    else if c = ch 'b' then some (nBytes, sysFuncIoctlBlankSet assBlank arg s)
    else some (nBytes, s)

end SysFunc

/-! ## Commands that end inside their bytes -/

/-- there is a letter, behind an 'm' a digit, and behind "e1", a type and a blank an eighth byte -/
def CmdEnds (bytes : Buf) : Prop :=
  bytes ≠ [] ∧ (bytes[0]? = some (ch 'm') → 2 ≤ bytes.length) ∧
    ¬ (bytes.length = 7 ∧ bytes[0]? = some (ch 'e') ∧ bytes[1]? = some (ch '1') ∧ bytes[6]? = some (ch ' '))

/-- there is a letter, and behind every letter but 'd' a numeral with a byte that ends it -/
def SysFuncCmdEnds (bytes : Buf) : Prop :=
  bytes ≠ [] ∧ (bytes[0]? = some (ch 'd') ∨ NumeralEnds (bytes.drop 1))

instance (bytes : Buf) : Decidable (CmdEnds bytes) := inferInstanceAs (Decidable (_ ∧ _))
instance (bytes : Buf) : Decidable (SysFuncCmdEnds bytes) := inferInstanceAs (Decidable (_ ∧ _))

section Scans

variable {assBlank : BitVec 16 → BitVec 32 → BitVec 16} {res : OnlineRes} {bytes : Buf}

theorem stable_pdmDrvWrite (res : OnlineRes) (nBytes : ℕ) (s : PdmDrvMain) :
    Stable fun b => pdmDrvWrite res b nBytes s := by
  have hsim : Stable fun b => isSimCmd b nBytes :=
    ((Stable.byte 0).bind fun _ => ((Stable.byte 1).bind fun _ => Stable.const _).ite (Stable.const _)).ite
      (Stable.const _)
  have htype : Stable simType :=
    (Stable.byte 3).bind fun _ => (Stable.byte 4).bind fun _ => (Stable.byte 5).bind fun _ =>
      (Stable.const _).ite (Stable.const _)
  have hreal : Stable simReal :=
    (Stable.byte 6).bind fun _ => ((Stable.byte 7).bind fun _ => Stable.const _).ite (Stable.const _)
  have hletter : Stable fun b => letterCmd b s :=
    (Stable.byte 0).bind fun _ => (Stable.const _).ite ((Stable.const _).ite
      (((Stable.byte 1).bind fun _ => (Stable.const _).ite ((Stable.const _).ite (Stable.const _))).ite
        (Stable.const _)))
  exact hsim.bind fun _ => (htype.bind fun _ => hreal.bind fun _ => (Stable.const _).ite (Stable.const _)).ite
    (hletter.bind fun _ => Stable.const _)

theorem stable_sysFuncDrvWrite (assBlank : BitVec 16 → BitVec 32 → BitVec 16) (nBytes : ℕ) (s : SysFuncMain) :
    Stable fun b => sysFuncDrvWrite assBlank b nBytes s := by
  have harg : Stable cmdArg :=
    (Stable.byte 0).bind fun _ => ((Stable.simpleStrtoul.drop 1).bind fun _ => Stable.const _).ite (Stable.const _)
  exact harg.bind fun _ => (Stable.byte 0).bind fun _ =>
    (Stable.const _).ite ((Stable.const _).ite ((Stable.const _).ite (Stable.const _)))

/-- a command of one letter is read if there is a letter, and behind an 'm' a second byte -/
theorem letterCmd_isSome (b : Buf) (s : PdmDrvMain) :
    (letterCmd b s).isSome ↔ b ≠ [] ∧ (b[0]? = some (ch 'm') → 2 ≤ b.length) := by
  rcases b with _ | ⟨c, _ | ⟨d, b⟩⟩
  · simp [letterCmd]
  · by_cases hm : c = ch 'm'
    · subst hm
      have hnone : letterCmd [ch 'm'] s = none := rfl
      rw [hnone]
      simp
    · unfold letterCmd
      simp only [List.getElem?_cons_zero, Option.bind_some, if_neg hm]
      refine iff_of_true ?_ ⟨List.cons_ne_nil c [], fun h => absurd (Option.some.inj h) hm⟩
      split_ifs <;> rfl
  · unfold letterCmd
    simp only [List.getElem?_cons_zero, List.getElem?_cons_succ, Option.bind_some]
    refine iff_of_true ?_ ⟨List.cons_ne_nil c _, fun _ => by simp⟩
    split_ifs <;> rfl

theorem pdmDrvWrite_letter {b : Buf} {nBytes : ℕ} {s : PdmDrvMain} (hsim : isSimCmd b nBytes = some false) :
    (pdmDrvWrite res b nBytes s).isSome = (letterCmd b s).isSome := by
  unfold pdmDrvWrite
  rw [hsim, Option.bind_some, if_neg Bool.false_ne_true]
  rcases letterCmd b s with _ | t <;> rfl

theorem simType_of_six {b : Buf} (hb : 6 ≤ b.length) : ∃ type, simType b = some type := by
  obtain ⟨c, hc⟩ := byte_of_lt (k := 3) (lt_of_lt_of_le (by decide) hb)
  obtain ⟨d, hd⟩ := byte_of_lt (k := 4) (lt_of_lt_of_le (by decide) hb)
  obtain ⟨e, he⟩ := byte_of_lt (k := 5) (lt_of_lt_of_le (by decide) hb)
  unfold simType
  rw [hc, hd, he]
  simp only [Option.bind_some]
  split_ifs <;> exact ⟨_, rfl⟩

/-- with eight bytes in the buffer, nothing behind it is looked at -/
theorem pdmDrvWrite_of_eight {b : Buf} (hb : 8 ≤ b.length) (nBytes : ℕ) (s : PdmDrvMain) :
    (pdmDrvWrite res b nBytes s).isSome := by
  have hbyte : ∀ k < 8, ∃ c, b[k]? = some c := fun k hk => byte_of_lt (lt_of_lt_of_le hk hb)
  have hsim : ∃ sim, isSimCmd b nBytes = some sim := by
    obtain ⟨c, hc⟩ := hbyte 0 (by decide)
    obtain ⟨d, hd⟩ := hbyte 1 (by decide)
    unfold isSimCmd
    rw [hc, hd]
    simp only [Option.bind_some]
    split_ifs <;> exact ⟨_, rfl⟩
  have hreal : ∃ real, simReal b = some real := by
    obtain ⟨c, hc⟩ := hbyte 6 (by decide)
    obtain ⟨d, hd⟩ := hbyte 7 (by decide)
    unfold simReal
    rw [hc, hd]
    simp only [Option.bind_some]
    split_ifs <;> exact ⟨_, rfl⟩
  have hletter : ∃ t, letterCmd b s = some t := by
    rw [← Option.isSome_iff_exists, letterCmd_isSome]
    refine ⟨fun h => ?_, fun _ => le_trans (by decide) hb⟩
    rw [h] at hb
    exact absurd hb (by decide)
  obtain ⟨sim, hsim⟩ := hsim
  obtain ⟨type, htype⟩ := simType_of_six (le_trans (by decide) hb)
  obtain ⟨real, hreal⟩ := hreal
  obtain ⟨t, hletter⟩ := hletter
  unfold pdmDrvWrite
  rw [hsim, htype, hreal, hletter]
  simp only [Option.bind_some]
  split_ifs <;> rfl

/-- with seven bytes, the simulation is for "e1" -/
theorem isSimCmd_eq {b : Buf} {c d : UInt8} {nBytes : ℕ} (hn : 7 ≤ nBytes) (hc : b[0]? = some c) (hd : b[1]? = some d) :
    isSimCmd b nBytes = some (decide (c = ch 'e' ∧ d = ch '1')) := by
  have hslot : (ch '1' ≤ d ∧ d ≤ ch '1') ↔ d = ch '1' :=
    ⟨fun h => UInt8.le_antisymm h.2 h.1, fun h => h ▸ ⟨UInt8.le_refl _, UInt8.le_refl _⟩⟩
  unfold isSimCmd
  rw [hc, hd, if_pos hn, Option.bind_some]
  by_cases he : c = ch 'e'
  · rw [if_pos he, Option.bind_some]
    simp only [hslot, he, true_and]
  · rw [if_neg he]
    simp only [he, false_and, decide_false]

/-- with seven bytes, the simulation looks at the eighth behind a blank -/
theorem pdmDrvWrite_sim (res : OnlineRes) (s : PdmDrvMain) (hseven : bytes.length = 7)
    (hsim : isSimCmd bytes bytes.length = some true) :
    (pdmDrvWrite res bytes bytes.length s).isSome ↔ bytes[6]? ≠ some (ch ' ') := by
  have hnone : bytes[7]? = none := List.getElem?_eq_none hseven.le
  obtain ⟨type, htype⟩ := simType_of_six (b := bytes) (by omega)
  obtain ⟨f, hf⟩ := byte_of_lt (b := bytes) (k := 6) (by omega)
  unfold pdmDrvWrite
  rw [hsim, htype, hf]
  simp only [Option.bind_some, ↓reduceIte]
  by_cases hblank : f = ch ' '
  · have hreal : simReal bytes = none := by
      unfold simReal
      rw [hf, hnone, hblank]
      rfl
    rw [hreal]
    exact iff_of_false Bool.false_ne_true fun h => h (congrArg some hblank)
  · have hreal : simReal bytes = some false := by
      unfold simReal
      rw [hf, Option.bind_some]
      exact if_neg fun h => hblank h.2
    rw [hreal]
    exact iff_of_true rfl fun h => hblank (Option.some.inj h)

/-- the writes that look at their own bytes only -/
theorem pdmDrvWrite_isSome (res : OnlineRes) (bytes : Buf) (s : PdmDrvMain) :
    (pdmDrvWrite res bytes bytes.length s).isSome ↔ CmdEnds bytes := by
  by_cases height : 8 ≤ bytes.length
  · refine iff_of_true (pdmDrvWrite_of_eight height _ s) ⟨?_, fun _ => ?_, fun h => ?_⟩
    · rintro rfl
      exact absurd height (by decide)
    · exact le_trans (by decide) height
    · exact absurd (h.1 ▸ height) (by decide)
  by_cases hshort : bytes.length < 7
  · -- too short for the simulation
    have hsim : isSimCmd bytes bytes.length = some false := if_neg (not_le.2 hshort)
    rw [pdmDrvWrite_letter hsim, letterCmd_isSome, CmdEnds]
    exact ⟨fun h => ⟨h.1, h.2, fun h7 => hshort.ne h7.1⟩, fun h => ⟨h.1, h.2.1⟩⟩
  have hseven : bytes.length = 7 := by omega
  obtain ⟨c, hc⟩ := byte_of_lt (b := bytes) (k := 0) (by omega)
  obtain ⟨d, hd⟩ := byte_of_lt (b := bytes) (k := 1) (by omega)
  have hcmd := isSimCmd_eq hseven.ge hc hd
  by_cases hsim : c = ch 'e' ∧ d = ch '1'
  · rw [decide_eq_true hsim] at hcmd
    rw [hsim.1] at hc
    rw [hsim.2] at hd
    rw [pdmDrvWrite_sim res s hseven hcmd]
    refine ⟨fun h => ⟨?_, fun _ => by omega, fun h7 => h h7.2.2.2⟩, fun h hblank => h.2.2 ⟨hseven, hc, hd, hblank⟩⟩
    rintro rfl
    cases hseven
  · rw [decide_eq_false hsim] at hcmd
    rw [pdmDrvWrite_letter hcmd, letterCmd_isSome, CmdEnds]
    refine ⟨fun h => ⟨h.1, h.2, fun h7 => hsim ?_⟩, fun h => ⟨h.1, h.2.1⟩⟩
    rw [hc, hd] at h7
    exact ⟨Option.some.inj h7.2.1, Option.some.inj h7.2.2.1⟩

theorem sysFuncDrvWrite_isSome (assBlank : BitVec 16 → BitVec 32 → BitVec 16) (bytes : Buf) (nBytes : ℕ)
    (s : SysFuncMain) : (sysFuncDrvWrite assBlank bytes nBytes s).isSome ↔ SysFuncCmdEnds bytes := by
  rcases bytes with _ | ⟨c, cs⟩
  · exact iff_of_false Bool.false_ne_true fun h => h.1 rfl
  have hwrite : (sysFuncDrvWrite assBlank (c :: cs) nBytes s).isSome ↔ (cmdArg (c :: cs)).isSome := by
    unfold sysFuncDrvWrite
    rcases cmdArg (c :: cs) with _ | arg
    · exact Iff.rfl
    · simp only [List.getElem?_cons_zero, Option.bind_some]
      split_ifs <;> exact Iff.rfl
  rw [hwrite, SysFuncCmdEnds, ← simpleStrtoul_isSome]
  unfold cmdArg
  simp only [List.getElem?_cons_zero, Option.bind_some, List.drop_succ_cons, List.drop_zero]
  by_cases hc : c = ch 'd'
  · rw [if_neg (not_not.2 hc)]
    exact iff_of_true rfl ⟨List.cons_ne_nil c cs, Or.inl (congrArg some hc)⟩
  · rw [if_pos hc]
    rcases simpleStrtoul cs with _ | n
    · refine iff_of_false Bool.false_ne_true fun h => ?_
      rcases h.2 with hd | hnum
      · exact hc (Option.some.inj hd)
      · exact Bool.false_ne_true hnum
    · exact iff_of_true rfl ⟨List.cons_ne_nil c cs, Or.inr rfl⟩

/-- **A command depends on the bytes that are written only, iff it ends inside them.** For all bytes, all states and all
results of a `cb_online`: `pdm_drv_write` of these bytes does the same and returns the same for all that is behind them
iff there is a letter, behind an 'm' a second byte, and they are not seven that begin with "e1" and end with a blank;
`sys_func_drv_write` does so iff there is a letter, which is a 'd' or followed by a numeral and a byte that ends it. -/
theorem write_bytes_iff (assBlank : BitVec 16 → BitVec 32 → BitVec 16) (res : OnlineRes) (bytes : Buf) :
    (∀ s, SameBehind (fun b => pdmDrvWrite res b bytes.length s) bytes ↔ CmdEnds bytes) ∧
    ∀ s, SameBehind (fun b => sysFuncDrvWrite assBlank b bytes.length s) bytes ↔ SysFuncCmdEnds bytes := by
  constructor
  · intro s
    have hsome : ∃ t, (pdmDrvWrite res (bytes ++ t) bytes.length s).isSome :=
      ⟨List.replicate 8 0, pdmDrvWrite_of_eight (by simp) _ s⟩
    exact (sameBehind_iff (stable_pdmDrvWrite res bytes.length s) hsome).trans (pdmDrvWrite_isSome res bytes s)
  · intro s
    have hsome : ∃ t, (sysFuncDrvWrite assBlank (bytes ++ t) bytes.length s).isSome := by
      refine ⟨[0, 0, 0, 0], (sysFuncDrvWrite_isSome assBlank _ _ s).2 ⟨by simp, Or.inr ?_⟩⟩
      rcases bytes with _ | ⟨c, cs⟩
      · exact numeralEnds_zeros []
      · have hzeros := numeralEnds_zeros (cs ++ [0])
        rw [List.append_assoc] at hzeros
        exact hzeros
    exact (sameBehind_iff (stable_sysFuncDrvWrite assBlank bytes.length s) hsome).trans
      (sysFuncDrvWrite_isSome assBlank bytes _ s)

end Scans

/-- the bytes of a text -/
def text (cs : List Char) : Buf := cs.map ch

/-- two bytes, "i1", set one bit before a blank, and two bits before a '2'. Seven bytes, "e1xmio ", take the card on
line before an 'r', and do nothing before another byte. -/
theorem write_looks_behind :
    let s : SysFuncMain := ⟨0, 0⟩
    let d : PdmDrvMain := ⟨0, fun _ => etindevNull, DrvSt.pdmCtorMngInfo fun _ => false⟩
    let ass : BitVec 16 → BitVec 32 → BitVec 16 := fun _ arg => arg.setWidth 16
    sysFuncDrvWrite ass (text ['i', '1', ' ']) 2 s = some (2, ⟨1, 0⟩) ∧
    sysFuncDrvWrite ass (text ['i', '1', '2', ' ']) 2 s = some (2, ⟨12, 0⟩) ∧
    pdmDrvWrite ⟨0, none⟩ (text ['e', '1', 'x', 'm', 'i', 'o', ' ', 'x']) 7 d = some (7, d) ∧
    (∃ t, pdmDrvWrite ⟨0, none⟩ (text ['e', '1', 'x', 'm', 'i', 'o', ' ', 'r']) 7 d = some (7, t) ∧
      (d.drv.slot 1).typeInfo = none ∧ (t.drv.slot 1).typeInfo = some 1) ∧
    ¬ SameBehind (fun b => sysFuncDrvWrite ass b 2 s) (text ['i', '1']) ∧
    ¬ SameBehind (fun b => pdmDrvWrite ⟨0, none⟩ b 7 d) (text ['e', '1', 'x', 'm', 'i', 'o', ' ']) := by
  intro s d ass
  refine ⟨by decide, by decide, rfl, ⟨_, rfl, rfl, rfl⟩, fun h => ?_, fun h => ?_⟩
  · exact absurd (h (text [' ']) (text ['2', ' '])) (by decide)
  · have hboth := h [] (text ['x'])
    cases hboth

end LinuxDrv.Driver
