/-
The process manager over the pointers of `cplist.h`.

Every function of `rt_prc_info.cpp`, `prc_mng_info.cpp`, `static_prc_info.cpp` and `dynamic_prc_info.cpp` that reaches a
list is given again, over two heaps: one with the nodes of the records and the heads of their four lists, one with the
nodes of the managers and the head of `s_list2Start`. What a list has first and whether it is empty is read off the
links only, and `del` of a node whose links are NULL is the fault `delUnlinked`; `addTail` of a node that is in a list
is no fault here, it does to the links what the code does. The loops have fuel for as many rounds as there are records.

`PtrSt.st` is the rest of the state. Its two fields with abstract lists are history here: no function of this module
reads them. They are carried along to be compared with the links (`Pdm/PtrRefines`).
-/
import LinuxDrv.Pdm.Cplist

namespace LinuxDrv.Pdm

open LinuxDrv.Core

/-! ## listForEach -/

/-- a `listForEach` that returns the first node that meets `p` -/
def CListHead.listForEachFind {A φ : Type} [DecidableEq A] (null stuck : φ) (p : A → Bool) (head : A) (n : ℕ)
    (h : Heap A) : Except φ (Option A) := do
  let pInst ← CListHeader.next null head h
  let pInst ← whileLoop stuck (fun x => decide (x ≠ head) && !p x) (fun x => CListHeader.next null x h) n pInst
  .ok (if pInst = head then none else some pInst)

/-! ## State -/

/-- `s_list2Start` and the managers -/
abbrev MngNode := Lists.Node Unit MngId

structure PtrSt (ε : Type) where
  st : St ε
  prc : Heap PrcNode
  mng : Heap MngNode

namespace PtrSt

variable {ε μ : Type} (E : Env ε μ) (null stuck : Fault)

/-- as many rounds as there are records -/
def rounds : ℕ := etinSlotMax + maxStaticPrcNum

/-- what does not reach a list -/
def upd (q : PtrSt ε) (f : St ε → St ε) : PtrSt ε := { q with st := f q.st }

/-- what does not reach a list, and may fault -/
def lift (f : St ε → Except Fault (St ε)) (q : PtrSt ε) : Except Fault (PtrSt ε) := do
  let s ← f q.st
  .ok { q with st := s }

/-- what does not reach `s_list2Start` -/
def onPrc (f : St ε × Heap PrcNode → Except Fault (St ε × Heap PrcNode)) (q : PtrSt ε) : Except Fault (PtrSt ε) := do
  let x ← f (q.st, q.prc)
  .ok { q with st := x.1, prc := x.2 }

/-- the casts of a node to a record and to a manager; a head is neither -/
def asPrc : PrcNode → Except Fault RecId
  | .entry r => .ok r
  | .head _ => .error stuck

def asMng : MngNode → Except Fault MngId
  | .entry p => .ok p
  | .head _ => .error stuck

/-! ## rt_prc_info -/

/-- `CListHead::accept` of a record -/
def accept (l : ListId) (r : RecId) (q : PtrSt ε) : Except Fault (PtrSt ε) := do
  let hp ← CListHead.accept null (.head l) (.entry r) q.prc
  .ok { q with st := q.st.accept l r, prc := hp }

/-- one round of the loop of `sInitPool` -/
def initPool (q : PtrSt ε) (r : RecId) : Except Fault (PtrSt ε) := do
  let hp ← CListHead.addTail null (.head .pool) (.entry r) q.prc
  .ok { q with st := { q.st with lists := q.st.lists.addTail .pool r }, prc := hp }

def sInitPool (q : PtrSt ε) : Except Fault (PtrSt ε) :=
  (List.finRange (etinSlotMax + maxStaticPrcNum)).foldlM (initPool null) q

def sCapture (p : MngId) (argv : List (Option String)) (q : PtrSt ε) : Except Fault (ℤ × PtrSt ε) :=
  let q := q.upd fun s => s.chk .capturePool (CListHead.isEmpty (.head .pool) q.prc = false)
  match CListHead.getFirstEntry (.head .pool) q.prc with
  | none => .ok (-1, q.upd fun s => s.chk .captureFirst False)
  | some x => do
    let r ← asPrc stuck x
    let y := RtPrcInfo.start E p r argv q.st
    if y.1 < 0 then .ok (-1, { q with st := y.2.chk .captureStart False })
    else do
      let q ← accept null .normal r { q with st := y.2.buildBdAss p r }
      .ok (0, q)

def sRelease (r : RecId) (q : PtrSt ε) : Except Fault (ℤ × PtrSt ε) :=
  let x := RtPrcInfo.stop E r q.st
  if x.1 < 0 then .ok (x.1, { q with st := x.2.chk .releaseStop False })
  else
    match (x.2.rt r).pParent with
    | none => .error (.nullParent r)
    | some p => do
      let q ← accept null .pool r { q with st := (x.2.destroyBdAss p r).clrTimes r }
      .ok (0, q)

def sTerm (r : RecId) (q : PtrSt ε) : Except Fault (PtrSt ε) := do
  let s ← RtPrcInfo.signalTerm E r q.st
  let s := s.clrTimes r
  accept null .exiting r
    { q with st := if CListHead.isEmpty (.head .exiting) q.prc then s.startTimer .term else s }

def sKill (r : RecId) (q : PtrSt ε) : Except Fault (PtrSt ε) := q.onPrc (Pointers.sKill E null r)

/-- the pid is the one of the record -/
def hasPid (s : St ε) (pid : ℤ) : PrcNode → Bool
  | .entry r => decide ((s.rt r).pid = pid)
  | .head _ => false

def sFindObj (q : PtrSt ε) (l : ListId) (pid : ℤ) : Except Fault (Option RecId) := do
  let x ← CListHead.listForEachFind null stuck (hasPid q.st pid) (.head l) rounds q.prc
  match x with
  | none => .ok none
  | some x => do
    let r ← asPrc stuck x
    .ok (some r)

/-! ## prc_mng_info, static_prc_info, dynamic_prc_info -/

def addIn2Start (p : MngId) (q : PtrSt ε) : Except Fault (PtrSt ε) := do
  let s := if CListHead.isEmpty (.head ()) q.mng then q.st.startTimer .start else q.st
  let hm ← CListHead.addTail null (.head ()) (.entry p) q.mng
  .ok { q with st := { s with list2Start := s.list2Start ++ [p] }, mng := hm }

def delFrom2Start (p : MngId) (q : PtrSt ε) : Except Fault (PtrSt ε) := do
  let hm ← CListHeader.del (.delUnlinked p) (.entry p) q.mng
  .ok { q with st := { q.st with list2Start := q.st.list2Start.filter fun x => decide (x ≠ p) }, mng := hm }

def capture (p : MngId) (name : Option String) (q : PtrSt ε) : Except Fault (ℤ × PtrSt ε) := do
  let x ← sCapture E null stuck p (PrcMngInfo.argv q.st name p) q
  if x.1 < 0 then .ok (x.1, x.2.upd fun s => s.chk .subStartCapture False)
  else do
    let q ← delFrom2Start p x.2
    .ok (0, q)

def subStart (p : MngId) (q : PtrSt ε) : Except Fault (ℤ × PtrSt ε) :=
  let q := q.upd fun s => s.chk .subStartChld (s.chld p = none)
  match p with
  | .stat _ => capture E null stuck p none q
  | .dyn i =>
    if q.st.haveCardInserted i = false then do
      let q ← delFrom2Start p (q.upd fun s => s.chk .subStartCard False)
      .ok (0, q)
    else
      match getCardTypeStr (q.st.dyn i).cardType with
      | none => .ok (-1, q.upd fun s => s.chk .subStartName False)
      | some name => capture E null stuck p (some name) q

/-- the end of `CDynamicPrcMngInfo::subStop` -/
def reonline (i : SlotId) (q : PtrSt ε) : Except Fault (ℤ × PtrSt ε) :=
  let again := q.st.haveCardInserted i && !q.st.exitFlag
  let x := q.st.ioctl E (.subStop again) ⟨slotId i, etindevNull⟩
  if x.1 < 0 then .ok (x.1, { q with st := x.2.chk .subStopOffline False })
  else
    if again = false then .ok (0, { q with st := x.2 })
    else
      let y := x.2.ioctl E (.subStop again) ⟨slotId i, (x.2.dyn i).cardType⟩
      if y.1 < 0 then .ok (y.1, { q with st := y.2.chk .subStopOnline False })
      else do
        let q ← addIn2Start null (.dyn i) { q with st := y.2 }
        .ok (0, q)

def subStop (p : MngId) (q : PtrSt ε) : Except Fault (ℤ × PtrSt ε) :=
  let q := q.upd fun s => s.chk .subStopChld (s.chld p ≠ none)
  match q.st.chld p with
  | none => .error (.nullChld p)
  | some r => do
    let x ← sRelease E null r q
    if x.1 < 0 then .ok (x.1, x.2.upd fun s => s.chk .subStopRelease False)
    else
      match p with
      | .stat _ => do
        let q ← addIn2Start null p x.2
        .ok (0, q)
      | .dyn i => reonline E null i x.2

def start (p : MngId) (q : PtrSt ε) : Except Fault (PtrSt ε) :=
  if q.st.chld p ≠ none then .ok (q.upd fun s => s.chk .mngStartChld False)
  else do
    let x ← subStart E null stuck p q
    .ok (if x.1 < 0 then x.2.upd fun s => s.chk .mngStartSub False else x.2)

def stop (p : MngId) (q : PtrSt ε) : Except Fault (PtrSt ε) :=
  if q.st.chld p = none then .ok q
  else do
    let x ← subStop E null p q
    .ok (if x.1 < 0 then x.2.upd fun s => s.chk .mngStopSub False else x.2)

def sCheckNeedStart (q : PtrSt ε) : Except Fault (PtrSt ε) := do
  let q ← (match CListHead.getFirstEntry (.head ()) q.mng with
    | some x => do
      let p ← asMng stuck x
      start E null stuck p q
    | none => .ok q)
  .ok (if CListHead.isEmpty (.head ()) q.mng then q.upd (·.stopTimer .start) else q)

def cardGone (i : SlotId) (q : PtrSt ε) : Except Fault (PtrSt ε) :=
  let q := q.upd fun s => { s with
    dyn := Function.update s.dyn i { s.dyn i with cardType := etindevNull, cardTypeNew := etindevNull } }
  match q.st.chld (.dyn i) with
  | some r =>
    let q := q.upd fun s => s.chk .handleState ((s.rt r).state ≠ .null)
    if (q.st.rt r).state = .normal then sTerm E null r q else .ok q
  | none => do
    let q ← delFrom2Start (.dyn i) q
    .ok (q.upd fun s => (s.ioctl E .handleNewType ⟨slotId i, etindevNull⟩).2)

def cardCome (i : SlotId) (newCardType : ETinDev) (q : PtrSt ε) : Except Fault (PtrSt ε) :=
  let q := q.upd fun s => { s with dyn := Function.update s.dyn i ⟨newCardType, etindevNull, 0⟩ }
  let x := q.st.ioctl E .handleNewType ⟨slotId i, newCardType⟩
  addIn2Start null (.dyn i) { q with st := if x.1 < 0 then x.2.chk .handleOnline False else x.2 }

def handleNewType (i : SlotId) (newCardType : ETinDev) (q : PtrSt ε) : Except Fault (PtrSt ε) :=
  let d := q.st.dyn i
  if newCardType = d.cardType then
    .ok (q.upd fun s => { s with dyn := Function.update s.dyn i { d with cardTypeNew := etindevNull } })
  else if d.cardType ≠ etindevNull then cardGone E null i q
  else
  let q := q.upd fun s => s.chk .handleNewCard (newCardType ≠ etindevNull)
  if newCardType ≠ d.cardTypeNew then
    .ok (q.upd fun s =>
      { s with dyn := Function.update s.dyn i { d with cardTypeNew := newCardType, cnt4Filter := 0 } })
  else
  let q := q.upd fun s => { s with dyn := Function.update s.dyn i { d with cnt4Filter := d.cnt4Filter + 1 } }
  if PrcMngInfo.onlineFilterCount ≤ d.cnt4Filter + 1 then
    if q.st.chld (.dyn i) ≠ none then .ok q else cardCome E null i newCardType q
  else .ok q

def checkDev (cardtype : SlotId → ETinDev) (q : PtrSt ε) (i : SlotId) : Except Fault (PtrSt ε) :=
  if PrcMngInfo.dontCareSlot i then .ok q
  else if isCardTypeInvalid (cardtype i) then .ok (q.upd fun s => s.chk .devChangeType False)
  else handleNewType E null i (cardtype i) q

def sCheckDevChange (ret : ℤ) (cardtype : SlotId → ETinDev) (q : PtrSt ε) : Except Fault (PtrSt ε) :=
  if ret < 0 then .ok q else (List.finRange etinSlotMax).foldlM (checkDev E null cardtype) q

def sHandleCardChange (c : DevMngDrvData) (q : PtrSt ε) : Except Fault (PtrSt ε) :=
  match checkSlot c.slotId with
  | none => .ok q
  | some i =>
    if isCardTypeInvalid c.cardType then .ok q
    else if PrcMngInfo.dontCareSlot i then .ok q
    else handleNewType E null i c.cardType q

/-! ## Timers and signals -/

def sCheckLiveState (q : PtrSt ε) : Except Fault (PtrSt ε) := q.onPrc (Pointers.sCheckLiveState E null stuck rounds)

def sHello4Live (q : PtrSt ε) : Except Fault (PtrSt ε) := q.onPrc (Pointers.sHello4Live null stuck rounds)

def sUpdateLiveState (pid : ℤ) (q : PtrSt ε) : Except Fault (PtrSt ε) := do
  let r ← sFindObj null stuck q .normal pid
  match r with
  | none => .ok q
  | some r => .ok (q.upd (RtPrcInfo.updateRealTimes r))

def sCheckTermTimeout (q : PtrSt ε) : Except Fault (PtrSt ε) := do
  let q ← (match CListHead.getFirstEntry (.head .exiting) q.prc with
    | some x => do
      let r ← asPrc stuck x
      sKill E null r q
    | none => .ok q)
  .ok (if CListHead.isEmpty (.head .exiting) q.prc then q.upd (·.stopTimer .term) else q)

/-- the record's manager buries it -/
def bury (a : Assert) (r : RecId) (q : PtrSt ε) : Except Fault (PtrSt ε) :=
  match (q.st.rt r).pParent with
  | some p => stop E null p q
  | none => .ok (q.upd fun s => s.chk a False)

def sCheckKillTimeout (q : PtrSt ε) : Except Fault (PtrSt ε) := do
  let q ← (match CListHead.getFirstEntry (.head .killing) q.prc with
    | some x => do
      let r ← asPrc stuck x
      bury E null .killTimeoutParent r q
    | none => .ok q)
  .ok (if CListHead.isEmpty (.head .killing) q.prc then q.upd (·.stopTimer .kill) else q)

/-- the three searches of `sBuryChld`: a search is only made if the ones before it found nothing -/
def findChld (q : PtrSt ε) (pid : ℤ) : Except Fault (Option RecId) :=
  sFindObj null stuck q .killing pid >>= fun a => match a with
    | some r => .ok (some r)
    | none => sFindObj null stuck q .exiting pid >>= fun b => match b with
      | some r => .ok (some r)
      | none => sFindObj null stuck q .normal pid

/-- what `sBuryChld` does for a process that `waitpid` returned -/
def buryPid (pid : ℤ) (q : PtrSt ε) : Except Fault (PtrSt ε) := do
  let r ← findChld null stuck q pid
  match r with
  | none => .ok q
  | some r => bury E null .buryParent r q

/-- `sBuryChld`, in at most `n` calls of `waitpid` -/
def sBuryChld : ℕ → PtrSt ε → Except Fault (PtrSt ε)
  | 0, _ => .error .stray
  | n + 1, q =>
    let x := RtPrcInfo.waitAny E q.st
    if x.1 ≤ 0 then .ok { q with st := x.2 }
    else do
      let q ← buryPid E null stuck x.1 { q with st := x.2 }
      sBuryChld n q

/-! ## Start, stop and runs -/

/-- the constructors of the nodes and the heads link each to itself -/
def boot (timer : TimerId → Bool) (needKillPrc : Bool) (exeName : Option String) (selfSlot : ℤ) (env : ε) : PtrSt ε :=
  ⟨Pdm.boot timer needKillPrc exeName selfSlot env, fun a => ⟨some a, some a⟩, fun a => ⟨some a, some a⟩⟩

def processStart (q : PtrSt ε) : Except Fault (PtrSt ε) := do
  let q ← sInitPool null q
  let q ← statics.foldlM (fun q p => addIn2Start null p q) q
  .ok (q.upd fun s => { s with exitFlag := false })

/-- `CDynamicPrcMngInfo::sStop`, then `CStaticPrcMngInfo::sStop` -/
def stopAll (q : PtrSt ε) : Except Fault (PtrSt ε) := do
  let q ← q.lift fun s => ioctlInt E .stateInt { s with exitFlag := true }
  let q ← q.lift (ioctlInt E .masterInt)
  (dynamics.reverse ++ statics.reverse).foldlM (fun q p => stop E null p q) q

def processStop (q : PtrSt ε) : Except Fault (PtrSt ε) := do
  let q ← q.lift (stopSignals E)
  let q ← stopAll E null q
  .ok (q.upd fun s => { s with timer := fun _ => false })

def step (q : PtrSt ε) : Event μ → Except Fault (PtrSt ε)
  | .sCheckNeedStart => sCheckNeedStart E null stuck q
  | .sHello4Live => sHello4Live null stuck q
  | .sUpdateLiveState pid => sUpdateLiveState null stuck pid q
  | .sCheckLiveState => sCheckLiveState E null stuck q
  | .sCheckTermTimeout => sCheckTermTimeout E null stuck q
  | .sCheckKillTimeout => sCheckKillTimeout E null stuck q
  | .sBuryChld n => sBuryChld E null stuck n q
  | .handleNewType i newCardType => handleNewType E null i newCardType q
  | .sCheckDevChange ret cardtype => sCheckDevChange E null ret cardtype q
  | .sHandleCardChange c => sHandleCardChange E null c q
  | .outside m => .ok (q.upd fun s => { s with env := E.outside m s.env })
  | .term4Stop p => q.lift (PrcMngInfo.term4Stop E p)
  | .kill4Stop p => q.lift (PrcMngInfo.kill4Stop E p)
  | .stop p => stop E null p q
  | .processStop => processStop E null q

/-- `CProcessPdm::Start`, then the events `es` -/
def run (q : PtrSt ε) (es : List (Event μ)) : Except Fault (PtrSt ε) :=
  processStart null q >>= fun q => runFrom (step E null stuck) q es

end PtrSt

end LinuxDrv.Pdm
