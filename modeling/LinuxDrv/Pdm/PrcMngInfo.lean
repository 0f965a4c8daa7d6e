/-
`prc_mng_info`, `static_prc_info` and `dynamic_prc_info`: the managers, each of which keeps one process running.

A manager without a child waits in `s_list2Start`; the start timer's callback starts the first one. A static manager
always wants its process, a dynamic one while a card is in its slot: `handleNewType` filters what is observed there.
-/
import LinuxDrv.Pdm.RtPrcInfo

namespace LinuxDrv.Pdm

open LinuxDrv.Core

variable {ε μ : Type} (E : Env ε μ)

namespace PrcMngInfo

/-! ## The list of managers to start -/

/-- `addIn2Start` -/
def addIn2Start (p : MngId) (s : St ε) : Except Fault (St ε) :=
  if p ∈ s.list2Start then .error (.addLinked p)
  else
    let s := if s.list2Start = [] then s.startTimer .start else s
    .ok { s with list2Start := s.list2Start ++ [p] }

/-- `delFrom2Start` -/
def delFrom2Start (p : MngId) (s : St ε) : Except Fault (St ε) :=
  if p ∉ s.list2Start then .error (.delUnlinked p)
  else .ok { s with list2Start := s.list2Start.filter fun q => decide (q ≠ p) }

/-! ## Starting and stopping -/

/-- the arguments of the process of a manager, given the name of its card if it is dynamic -/
def argv (s : St ε) (name : Option String) : MngId → List (Option String)
  | .stat i => [s.exeName, some (binName i), convDig2Str s.selfSlot]
  | .dyn i => [s.exeName, name, convDig2Str (convSlotVir2Phy s.selfSlot i), convDig2Str s.selfSlot]

/-- `sCapture`, then `delFrom2Start` after success: the end of both `subStart` -/
def capture (p : MngId) (name : Option String) (s : St ε) : Except Fault (ℤ × St ε) :=
  let x := RtPrcInfo.sCapture E p (argv s name p) s
  if x.1 < 0 then .ok (x.1, x.2.chk .subStartCapture False)
  else do
    let s ← delFrom2Start p x.2
    .ok (0, s)

/-- `CStaticPrcMngInfo::subStart` and `CDynamicPrcMngInfo::subStart` -/
def subStart (p : MngId) (s : St ε) : Except Fault (ℤ × St ε) :=
  let s := s.chk .subStartChld (s.chld p = none)
  match p with
  | .stat _ => capture E p none s
  | .dyn i =>
    if s.haveCardInserted i = false then do
      let s ← delFrom2Start p (s.chk .subStartCard False)
      .ok (0, s)
    else
      match getCardTypeStr (s.dyn i).cardType with
      | none => .ok (-1, s.chk .subStartName False)
      | some name => capture E p (some name) s

/-- what `CDynamicPrcMngInfo::subStop` does once the child is released: off line, and on line again if the card is
still there -/
def reonline (i : SlotId) (s : St ε) : Except Fault (ℤ × St ε) :=
  let again := s.haveCardInserted i && !s.exitFlag
  let x := s.ioctl E (.subStop again) ⟨slotId i, etindevNull⟩
  if x.1 < 0 then .ok (x.1, x.2.chk .subStopOffline False)
  else
    if again = false then .ok (0, x.2)
    else
      let s := x.2
      let x := s.ioctl E (.subStop again) ⟨slotId i, (s.dyn i).cardType⟩
      if x.1 < 0 then .ok (x.1, x.2.chk .subStopOnline False)
      else do
        let s ← addIn2Start (.dyn i) x.2
        .ok (0, s)

/-- `CStaticPrcMngInfo::subStop` and `CDynamicPrcMngInfo::subStop` -/
def subStop (p : MngId) (s : St ε) : Except Fault (ℤ × St ε) :=
  let s := s.chk .subStopChld (s.chld p ≠ none)
  match s.chld p with
  | none => .error (.nullChld p)
  | some r => do
    let x ← RtPrcInfo.sRelease E r s
    if x.1 < 0 then .ok (x.1, x.2.chk .subStopRelease False)
    else
      match p with
      | .stat _ => do
        let s ← addIn2Start p x.2
        .ok (0, s)
      | .dyn i => reonline E i x.2

/-- `CPrcMngInfo::start` -/
def start (p : MngId) (s : St ε) : Except Fault (St ε) :=
  if s.chld p ≠ none then .ok (s.chk .mngStartChld False)
  else do
    let x ← subStart E p s
    .ok (if x.1 < 0 then x.2.chk .mngStartSub False else x.2)

/-- `CPrcMngInfo::stop` -/
def stop (p : MngId) (s : St ε) : Except Fault (St ε) :=
  if s.chld p = none then .ok s
  else do
    let x ← subStop E p s
    .ok (if x.1 < 0 then x.2.chk .mngStopSub False else x.2)

/-- `CPrcMngInfo::Term4Stop` -/
def term4Stop (p : MngId) (s : St ε) : Except Fault (St ε) :=
  match s.chld p with
  | none => .ok s
  | some r => RtPrcInfo.signalTerm E r s

/-- `CPrcMngInfo::Kill4Stop` -/
def kill4Stop (p : MngId) (s : St ε) : Except Fault (St ε) :=
  match s.chld p with
  | none => .ok s
  | some r => RtPrcInfo.signalKill E r s

/-- `sCheckNeedStart`, the start timer's callback -/
def sCheckNeedStart (s : St ε) : Except Fault (St ε) := do
  let s ← (match s.list2Start.head? with
    | some p => start E p s
    | none => .ok s)
  .ok (if s.list2Start = [] then s.stopTimer .start else s)

/-! ## Cards -/

/-- `ONLINE_FILTER_COUNT` -/
def onlineFilterCount : ℕ := 3

/-- `handleNewType`, step 2: the card is gone -/
def cardGone (i : SlotId) (s : St ε) : Except Fault (St ε) :=
  let s := { s with
    dyn := Function.update s.dyn i { s.dyn i with cardType := etindevNull, cardTypeNew := etindevNull } }
  match s.chld (.dyn i) with
  | some r =>
    let s := s.chk .handleState ((s.rt r).state ≠ .null)
    if (s.rt r).state = .normal then RtPrcInfo.sTerm E r s else .ok s
  | none => do
    let s ← delFrom2Start (.dyn i) s
    .ok (s.ioctl E .handleNewType ⟨slotId i, etindevNull⟩).2

/-- `handleNewType`, step 4, once the new type is through the filter and no process is left -/
def cardCome (i : SlotId) (newCardType : ETinDev) (s : St ε) : Except Fault (St ε) :=
  let s := { s with dyn := Function.update s.dyn i ⟨newCardType, etindevNull, 0⟩ }
  let x := s.ioctl E .handleNewType ⟨slotId i, newCardType⟩
  let s := if x.1 < 0 then x.2.chk .handleOnline False else x.2
  addIn2Start (.dyn i) s

/-- `handleNewType` -/
def handleNewType (i : SlotId) (newCardType : ETinDev) (s : St ε) : Except Fault (St ε) :=
  let d := s.dyn i
  -- 1. no change
  if newCardType = d.cardType then
    .ok { s with dyn := Function.update s.dyn i { d with cardTypeNew := etindevNull } }
  else
  -- 2. off line
  if d.cardType ≠ etindevNull then cardGone E i s
  else
  let s := s.chk .handleNewCard (newCardType ≠ etindevNull)
  -- 3. another new type
  if newCardType ≠ d.cardTypeNew then
    .ok { s with dyn := Function.update s.dyn i { d with cardTypeNew := newCardType, cnt4Filter := 0 } }
  else
  -- 4. on line filter
  let s := { s with dyn := Function.update s.dyn i { d with cnt4Filter := d.cnt4Filter + 1 } }
  if onlineFilterCount ≤ d.cnt4Filter + 1 then
    if s.chld (.dyn i) ≠ none then .ok s else cardCome E i newCardType s
  else .ok s

/-- `s_slot_care_bmp` -/
def dontCareSlot (i : SlotId) : Bool := slotId i ≠ etinSlotSelf

/-- one round of the loop of `sCheckDevChange` -/
def checkDev (cardtype : SlotId → ETinDev) (s : St ε) (i : SlotId) : Except Fault (St ε) :=
  if dontCareSlot i then .ok s
  else if isCardTypeInvalid (cardtype i) then .ok (s.chk .devChangeType False)
  else handleNewType E i (cardtype i) s

/-- `sCheckDevChange`: `ret` and `cardtype` are what `PDM_IOC_GET_ALL_CARD_TYPE` gave -/
def sCheckDevChange (ret : ℤ) (cardtype : SlotId → ETinDev) (s : St ε) : Except Fault (St ε) :=
  if ret < 0 then .ok s else (List.finRange etinSlotMax).foldlM (checkDev E cardtype) s

/-- `sHandleCardChange`: `c` is what was read from the driver -/
def sHandleCardChange (c : DevMngDrvData) (s : St ε) : Except Fault (St ε) :=
  match checkSlot c.slotId with
  | none => .ok s
  | some i =>
    if isCardTypeInvalid c.cardType then .ok s
    else if dontCareSlot i then .ok s
    else handleNewType E i c.cardType s

end PrcMngInfo

end LinuxDrv.Pdm
