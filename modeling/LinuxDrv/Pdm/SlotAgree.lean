/-
Agreement of a dynamic manager with the driver's record of its slot.

- `unreapedOf p`: the children of manager p that its calls so far forked and did not reap.
- `RequestsOk`: every request to put the card of the slot on line found `type_info == NULL` and succeeded; every request
  to take it off line found a card and was made when no child of the manager was un-reaped.
- `SlotInv`: without a child `type_info` is the entry of `m_cardType`; with one it is the card type the child was
  started with. Four branches issue the requests; each is looked at once, in `runtime_slot`.
- `slot_agreement` is the result for all runs of callbacks.
-/
import LinuxDrv.Driver.Ioctl
import LinuxDrv.Pdm.Pid

namespace LinuxDrv.Pdm

open LinuxDrv.Core Relation

variable {ε μ : Type} {E : Env ε μ} {V : ETinDev → Prop} {s t : St ε} {os : Os E} {D : SlotDriver E} {i j : SlotId}

/-! ## The driver behind the ioctl -/

theorem slotId_injective : Function.Injective slotId := by
  intro i j h
  exact Fin.ext (Int.ofNat.inj h)

/-- a request for another slot -/
theorem SlotDriver.other (D : SlotDriver E) (hij : j ≠ i) {x : ETinDev} {e e' : ε} {ret : ℤ}
    (h : E.ioctl ⟨slotId j, x⟩ e = (ret, e')) : D.typeInfo i e' = D.typeInfo i e := by
  obtain ⟨res, -, -, he⟩ := D.ioctl h
  unfold SlotDriver.typeInfo
  rw [he]
  refine Driver.ioctl_other ?_
  simp only [slotId, checkSlot_coe]
  exact fun hji => hij (Option.some.inj hji)

/-- a request to take the card off line -/
theorem SlotDriver.off (D : SlotDriver E) (hi : slotId i ≠ etinSlotPdm) {e e' : ε} {ret : ℤ}
    (h : E.ioctl ⟨slotId i, etindevNull⟩ e = (ret, e')) : 0 ≤ ret ∧ D.typeInfo i e' = none := by
  obtain ⟨res, -, hret, he⟩ := D.ioctl h
  obtain ⟨h0, hnone⟩ := Driver.ioctl_off res (D.drv e) hi
  refine ⟨?_, ?_⟩
  · rw [← not_lt, hret, slotId, h0]
    omega
  · unfold SlotDriver.typeInfo
    rw [he]
    exact hnone

/-- a request to put a card on line in an empty slot -/
theorem SlotDriver.on (D : SlotDriver E) (hi : slotId i ≠ etinSlotPdm) {x : ETinDev} {k : TypeId}
    (hk : checkType x = some k) {e e' : ε} {ret : ℤ} (h : E.ioctl ⟨slotId i, x⟩ e = (ret, e'))
    (hnone : D.typeInfo i e = none) : 0 ≤ ret ∧ D.typeInfo i e' = some k := by
  obtain ⟨res, hres, hret, he⟩ := D.ioctl h
  obtain ⟨h0, hsome⟩ := Driver.ioctl_on hi hk hres hnone
  refine ⟨?_, ?_⟩
  · rw [← not_lt, hret]
    exact not_lt.2 h0
  · unfold SlotDriver.typeInfo
    rw [he]
    exact hsome

/-! ## Histories -/

/-- the children of manager `p` that the calls `tr` forked and did not reap: their pids and their arguments -/
def unreapedOf (p : MngId) : List (Call ε) → List (ℤ × List (Option String))
  | [] => []
  | .fork q argv pid :: tr => if q = p then (pid, argv) :: unreapedOf p tr else unreapedOf p tr
  | .waitpid _ ret :: tr => (unreapedOf p tr).filter fun c => decide (c.1 ≠ ret)
  | .kill .. :: tr => unreapedOf p tr
  | .ioctl .. :: tr => unreapedOf p tr

/-- what the call `c` on slot `i`, made after the calls `tr`, must find -/
def RequestOk (D : SlotDriver E) (i : SlotId) (tr : List (Call ε)) : Call ε → Prop
  | .ioctl _ arg ret w => arg.slotId = slotId i →
    if arg.cardType = etindevNull then D.typeInfo i w ≠ none ∧ unreapedOf (.dyn i) tr = []
    else D.typeInfo i w = none ∧ 0 ≤ ret
  | _ => True

def RequestsOk (D : SlotDriver E) (i : SlotId) (tr : List (Call ε)) : Prop :=
  ∀ c tr', c :: tr' <:+ tr → RequestOk D i tr' c

theorem RequestsOk.cons {tr : List (Call ε)} (h : RequestsOk D i tr) {c : Call ε} (hc : RequestOk D i tr c) :
    RequestsOk D i (c :: tr) := by
  intro c' tr' hs
  rcases List.suffix_cons_iff.1 hs with heq | hs
  · obtain ⟨rfl, rfl⟩ := List.cons.inj heq
    exact hc
  · exact h c' tr' hs

theorem RequestsOk.wait {tr : List (Call ε)} (h : RequestsOk D i tr) (arg ret : ℤ) :
    RequestsOk D i (.waitpid arg ret :: tr) := h.cons trivial

/-- between two points of a run nothing happened in slot `i`, and no child of its manager was forked -/
structure Quiet (os : Os E) (D : SlotDriver E) (i : SlotId) (tr : List (Call ε)) (e : ε) (tr' : List (Call ε))
    (e' : ε) : Prop where
  typeInfo : D.typeInfo i e' = D.typeInfo i e
  children : ∀ c ∈ unreapedOf (.dyn i) tr',
    c ∈ unreapedOf (.dyn i) tr ∧ (c.1 ∈ os.unreaped e → c.1 ∈ os.unreaped e')
  requests : RequestsOk D i tr → RequestsOk D i tr'

namespace Quiet

variable {tr tr' tr'' : List (Call ε)} {e e' e'' : ε}

theorem refl (tr : List (Call ε)) (e : ε) : Quiet os D i tr e tr e := ⟨rfl, fun _ hc => ⟨hc, id⟩, id⟩

theorem trans (h : Quiet os D i tr e tr' e') (h' : Quiet os D i tr' e' tr'' e'') : Quiet os D i tr e tr'' e'' := by
  refine ⟨h'.typeInfo.trans h.typeInfo, ?_, fun hr => h'.requests (h.requests hr)⟩
  intro c hc
  obtain ⟨hc', hu'⟩ := h'.children c hc
  obtain ⟨hc'', hu⟩ := h.children c hc'
  exact ⟨hc'', fun hm => hu' (hu hm)⟩

/-- nothing was called but what the environment keeps -/
theorem keep (ht : D.typeInfo i e' = D.typeInfo i e) (hu : os.unreaped e' = os.unreaped e) : Quiet os D i tr e tr e' :=
  ⟨ht, fun _ hc => ⟨hc, fun hm => hu ▸ hm⟩, id⟩

theorem kill {pid k : ℤ} {sig : Sig} (hi : slotId i ≠ etinSlotPdm) (hk : E.kill pid sig e = (k, e')) :
    Quiet os D i tr e (.kill pid sig e :: tr) e' := by
  have hu := (os.kill pid sig e).1
  rw [hk] at hu
  exact ⟨D.kill hk i hi, fun _ hc => ⟨hc, fun hm => hu ▸ hm⟩, fun hr => hr.cons trivial⟩

/-- a request for another slot -/
theorem ioctl (hij : j ≠ i) {site : Site} {x : ETinDev} {ret : ℤ} (h : E.ioctl ⟨slotId j, x⟩ e = (ret, e')) :
    Quiet os D i tr e (.ioctl site ⟨slotId j, x⟩ ret e :: tr) e' := by
  refine ⟨D.other hij h, fun _ hc => ⟨hc, fun hm => (ioctl_children os h).1 ▸ hm⟩, fun hr => hr.cons ?_⟩
  intro hs
  exact absurd (slotId_injective hs) hij

/-- a child of another manager is forked -/
theorem fork {p : MngId} (hp : p ≠ .dyn i) (hi : slotId i ≠ etinSlotPdm) {pid : Pid} (hf : E.fork e = (some pid, e'))
    (argv : List (Option String)) : Quiet os D i tr e (.fork p argv pid :: tr) e' := by
  refine ⟨D.fork hf i hi, ?_, fun hr => hr.cons trivial⟩
  intro c hc
  rw [unreapedOf, if_neg hp] at hc
  exact ⟨hc, fun hm => (os.fork hf).2.1 ▸ Set.mem_insert_of_mem _ hm⟩

/-- a wait reaps only the process it returns -/
theorem wait {arg : ℤ} {w : WaitRet} (hi : slotId i ≠ etinSlotPdm) (hw : E.waitpid arg e = (w, e'))
    (hu : os.unreaped e \ {w.pid} ⊆ os.unreaped e') : Quiet os D i tr e (.waitpid arg w.pid :: tr) e' := by
  refine ⟨D.waitpid hw i hi, ?_, fun hr => hr.cons trivial⟩
  intro c hc
  obtain ⟨hc, hne⟩ := List.mem_filter.1 hc
  exact ⟨hc, fun hm => hu ⟨hm, by simpa using hne⟩⟩

theorem waitpid {pid : ℤ} {w : WaitRet} (hi : slotId i ≠ etinSlotPdm) (hpos : 0 < pid)
    (hw : E.waitpid pid e = (w, e')) : Quiet os D i tr e (.waitpid pid w.pid :: tr) e' := by
  apply wait hi hw
  intro z hz
  rcases os.waitpid hpos hw with ⟨-, -, hu, -⟩ | ⟨-, hpid, hu, -⟩ | ⟨-, -, -, hu, -⟩
  · exact hu ▸ hz.1
  · rw [hu, ← hpid]; exact hz
  · exact hu ▸ hz.1

theorem waitAny {w : WaitRet} (hi : slotId i ≠ etinSlotPdm) (hw : E.waitpid (-1) e = (w, e')) :
    Quiet os D i tr e (.waitpid (-1) w.pid :: tr) e' := by
  apply wait hi hw
  intro z hz
  rcases os.waitAny hw with ⟨-, -, hu, -⟩ | ⟨-, -, hu⟩
  · exact hu ▸ hz
  · exact hu ▸ hz.1

end Quiet

/-! ## The invariant -/

/-- the manager of slot `i` and the driver's record of the slot -/
structure SlotInv (os : Os E) (D : SlotDriver E) (i : SlotId) (s : St ε) : Prop where
  valid : ¬ isCardTypeInvalid (s.dyn i).cardType
  exit : s.exitFlag = false
  idle : s.chld (.dyn i) = none →
    D.typeInfo i s.env = checkType (s.dyn i).cardType ∧ unreapedOf (.dyn i) s.trace = []
  busy : ∀ r, s.chld (.dyn i) = some r → ∃ k, D.typeInfo i s.env = some k ∧
    ∀ c ∈ unreapedOf (.dyn i) s.trace, c.1 = (s.rt r).pid ∧ c.1 ∈ os.unreaped s.env ∧ c.2[1]? = some (some (cardName k))
  waits : s.chld (.dyn i) = none → (s.dyn i).cardType ≠ etindevNull → .dyn i ∈ s.list2Start
  requests : RequestsOk D i s.trace

/-- the manager of slot `i` and its child are as they were, but for a card that is gone while the child runs -/
theorem SlotInv.frame (h : SlotInv os D i s)
    (hcard : (t.dyn i).cardType = (s.dyn i).cardType ∨
      ((t.dyn i).cardType = etindevNull ∧ s.chld (.dyn i) ≠ none))
    (hx : t.exitFlag = s.exitFlag) (hc : t.chld (.dyn i) = s.chld (.dyn i))
    (hrt : ∀ r, s.chld (.dyn i) = some r → (t.rt r).pid = (s.rt r).pid)
    (h2 : .dyn i ∈ s.list2Start → .dyn i ∈ t.list2Start) (hq : Quiet os D i s.trace s.env t.trace t.env) :
    SlotInv os D i t := by
  refine ⟨?_, hx ▸ h.exit, ?_, ?_, ?_, hq.requests h.requests⟩
  · rcases hcard with hcard | ⟨hcard, -⟩
    · rw [hcard]; exact h.valid
    · rw [hcard]; decide
  · intro hn
    rw [hc] at hn
    obtain ⟨hty, hun⟩ := h.idle hn
    rcases hcard with hcard | ⟨-, hne⟩
    · refine ⟨by rw [hq.typeInfo, hcard]; exact hty, List.eq_nil_iff_forall_not_mem.2 ?_⟩
      intro c hm
      have hm' := (hq.children c hm).1
      rw [hun] at hm'
      exact List.not_mem_nil hm'
    · exact absurd hn hne
  · intro r hr
    rw [hc] at hr
    obtain ⟨k, hk, hall⟩ := h.busy r hr
    refine ⟨k, hq.typeInfo.trans hk, ?_⟩
    intro c hm
    obtain ⟨hm', hu⟩ := hq.children c hm
    obtain ⟨hpid, hun, hname⟩ := hall c hm'
    exact ⟨hpid.trans (hrt r hr).symm, hu hun, hname⟩
  · intro hn hcd
    rw [hc] at hn
    rcases hcard with hcard | ⟨-, hne⟩
    · exact h2 (h.waits hn (hcard ▸ hcd))
    · exact absurd hn hne

/-! ## Moves -/

theorem runtime_pidPos (hcore : Core s) (hm : Runtime E V s t) (h : PidPos s) : PidPos t := by
  rcases hm with hm | hm
  · cases hm with
    | outside | timerOff | noStart | waitFail | filter | goneKeep | goneWait | come | errPath =>
      exact h.congr rfl (.of_eq rfl)
    | capture p r name pid e F => exact (h.captured p r (PrcMngInfo.argv s name p) pid e).congr rfl (.of_eq rfl)
    | stopStat i r w e F hc => exact h.released hcore hc rfl rfl
    | stopOff i r w e ret e' F hc => exact h.released hcore hc rfl rfl
    | stopLost i r w e ret e' ret' e'' F hc => exact h.released hcore hc rfl rfl
    | stopAgain i r w e ret e' ret' e'' F hc => exact h.released hcore hc rfl rfl
    | kill r k e F => exact h.congr rfl (kill_pids s r e)
    | counts r x y F => exact h.congr rfl (setRt_pids s r x y)
    | goneTerm i r k e F => exact h.congr rfl (goneTerm_pids s i r e)
  · cases hm with
    | reap => exact h.congr rfl (.of_eq rfl)

/-- a process of another manager is released -/
theorem SlotInv.other (h : SlotInv os D i s) (hcore : Core s) {p : MngId} {r : RecId} (hp : p ≠ .dyn i)
    (hr : s.chld p = some r) (hd : t.dyn = s.dyn) (hx : t.exitFlag = s.exitFlag)
    (hc : t.chld = Function.update s.chld p none) (hrt : t.rt = Function.update s.rt r ⟨.null, -1, 0, 0, none⟩)
    (h2 : .dyn i ∈ s.list2Start → .dyn i ∈ t.list2Start) (hq : Quiet os D i s.trace s.env t.trace t.env) :
    SlotInv os D i t := by
  refine h.frame (Or.inl (by rw [hd])) hx (by rw [hc, Function.update_of_ne (Ne.symm hp)]) ?_ h2 hq
  intro r' hr'
  have hrr : r' ≠ r := fun he => hp (hcore.chld_inj hr (he ▸ hr'))
  rw [hrt, Function.update_of_ne hrr]

/-- the process of the slot has ended: its card is still on line, and the manager has no un-reaped child -/
theorem SlotInv.ended (h : SlotInv os D i s) (hi : slotId i ≠ etinSlotPdm) {r : RecId} (hr : s.chld (.dyn i) = some r)
    (hpos : 0 < (s.rt r).pid) {w : WaitRet} {e : ε} (hw : E.waitpid (s.rt r).pid s.env = (w, e))
    (hok : RtPrcInfo.WaitOk (s.rt r).pid w) : D.typeInfo i e ≠ none ∧
      unreapedOf (.dyn i) (.waitpid (s.rt r).pid w.pid :: s.trace) = [] := by
  obtain ⟨k, hk, hall⟩ := h.busy r hr
  refine ⟨?_, List.eq_nil_iff_forall_not_mem.2 ?_⟩
  · have hty : D.typeInfo i e = some k := (D.waitpid hw i hi).trans hk
    rw [hty]
    exact Option.some_ne_none k
  · intro c hc
    obtain ⟨hc, hne⟩ := List.mem_filter.1 hc
    have hne : c.1 ≠ w.pid := by simpa using hne
    obtain ⟨hpid, hun, -⟩ := hall c hc
    -- either the wait returned its pid, or it was reaped before
    rcases os.waitpid hpos hw with ⟨hnot, -⟩ | ⟨-, heq, -⟩ | ⟨-, -, h0, -⟩
    · exact hnot (hpid ▸ hun)
    · exact hne (hpid.trans heq.symm)
    · rcases hok with h' | ⟨h', -⟩ <;> omega

/-- the slot after its process was released and its card taken off line for good -/
theorem SlotInv.empty (hx : s.exitFlag = false) (hc : s.chld (.dyn i) = none)
    (hcard : (s.dyn i).cardType = etindevNull) (hty : D.typeInfo i s.env = none)
    (hun : unreapedOf (.dyn i) s.trace = []) (hreq : RequestsOk D i s.trace) : SlotInv os D i s := by
  refine ⟨by rw [hcard]; decide, hx, fun _ => ⟨by rw [hty, hcard, checkType_null], hun⟩, ?_, ?_,
    hreq⟩
  · intro r hr
    rw [hc] at hr; cases hr
  · intro _ h
    exact absurd hcard h

/-- the slot after a card was put on line, its manager waiting -/
theorem SlotInv.waiting {k : TypeId} (hx : s.exitFlag = false) (hc : s.chld (.dyn i) = none)
    (hk : checkType (s.dyn i).cardType = some k) (hty : D.typeInfo i s.env = some k)
    (hun : unreapedOf (.dyn i) s.trace = []) (h2 : .dyn i ∈ s.list2Start) (hreq : RequestsOk D i s.trace) :
    SlotInv os D i s := by
  refine ⟨?_, hx, fun _ => ⟨hty.trans hk.symm, hun⟩, ?_, fun _ _ => h2, hreq⟩
  · rw [checkType_eq_some hk, isCardTypeInvalid, not_or, etindevNull]
    have := k.isLt
    omega
  · intro r hr
    rw [hc] at hr; cases hr

/-- the card of slot `j` is gone while its process runs -/
theorem cardOff_cases {r : RecId} (hc : s.chld (.dyn j) = some r) :
    ((s.cardOff j).dyn i).cardType = (s.dyn i).cardType ∨
      (((s.cardOff j).dyn i).cardType = etindevNull ∧ s.chld (.dyn i) ≠ none) := by
  by_cases hji : i = j
  · subst hji
    exact Or.inr ⟨by simp [St.cardOff, St.setDyn], by simp [hc]⟩
  · exact Or.inl (by simp [St.cardOff, St.setDyn, hji])

/-- a process of the slot's manager is started -/
theorem SlotInv.captured (h : SlotInv os D i s) (hi : slotId i ≠ etinSlotPdm) (hnone : s.chld (.dyn i) = none)
    {r : RecId} {k : TypeId} (hk : checkType (s.dyn i).cardType = some k) {pid : Pid} {e : ε}
    (hf : E.fork s.env = (some pid, e)) :
    SlotInv os D i (s.captured (.dyn i) r (PrcMngInfo.argv s (some (cardName k)) (.dyn i)) pid e) := by
  obtain ⟨hty, hun⟩ := h.idle hnone
  have hself : ∀ argv, (s.captured (.dyn i) r argv pid e).chld (.dyn i) = some r := fun argv => by simp [St.captured]
  refine ⟨h.valid, h.exit, ?_, ?_, ?_, h.requests.cons trivial⟩
  · intro hn
    rw [hself] at hn; cases hn
  · intro r' hr'
    rw [hself] at hr'
    cases hr'
    have htype : D.typeInfo i e = some k := by
      calc D.typeInfo i e = D.typeInfo i s.env := D.fork hf i hi
        _ = checkType (s.dyn i).cardType := hty
        _ = some k := hk
    refine ⟨k, htype, ?_⟩
    intro c hc
    simp only [St.captured, unreapedOf, ↓reduceIte, hun, List.mem_singleton] at hc
    subst hc
    refine ⟨by simp [St.captured], ?_, rfl⟩
    exact (os.fork hf).2.1 ▸ Set.mem_insert _ _
  · intro hn
    rw [hself] at hn; cases hn

/-- the valid card types and `ETINDEV_NULL` -/
def ValidType (x : ETinDev) : Prop := ¬ isCardTypeInvalid x

instance : DecidablePred ValidType := fun x => inferInstanceAs (Decidable (¬ isCardTypeInvalid x))

/-! ### Moves of the slot's own manager -/

/-- its process is started, with the name of its card -/
theorem SlotInv.started (h : SlotInv os D i s) (hi : slotId i ≠ etinSlotPdm) (hnone : s.chld (.dyn i) = none)
    {r : RecId} {name : Option String} (hname : name = getCardTypeStr (s.dyn i).cardType) (hsome : name.isSome)
    {pid : Pid} {e : ε} (hf : E.fork s.env = (some pid, e)) :
    SlotInv os D i (s.captured (.dyn i) r (PrcMngInfo.argv s name (.dyn i)) pid e) := by
  obtain ⟨k, hk⟩ : ∃ k, checkType (s.dyn i).cardType = some k := by
    rw [hname, getCardTypeStr, Option.isSome_map] at hsome
    exact Option.isSome_iff_exists.1 hsome
  rw [getCardTypeStr, hk] at hname
  subst hname
  exact h.captured hi hnone hk hf

section Stopped

variable {r : RecId} {w : WaitRet} {e e' e'' : ε} {ret ret' : ℤ}

/-- its process has ended, and the card stays off line -/
theorem SlotInv.stoppedOff (h : SlotInv os D i s) (hi : slotId i ≠ etinSlotPdm) (hc : s.chld (.dyn i) = some r)
    (hpos : 0 < (s.rt r).pid) (hw : E.waitpid (s.rt r).pid s.env = (w, e)) (hok : RtPrcInfo.WaitOk (s.rt r).pid w)
    (hio : E.ioctl ⟨slotId i, etindevNull⟩ e = (ret, e')) (hret : ret < 0 ∨ (0 ≤ ret ∧ s.again i = false)) (F) :
    SlotInv os D i { s.released (.dyn i) r w.pid e with
      env := e', failed := F
      trace := .ioctl (.subStop (s.again i)) ⟨slotId i, etindevNull⟩ ret e :: .waitpid (s.rt r).pid w.pid ::
        s.trace } := by
  obtain ⟨hty, hun⟩ := h.ended hi hc hpos hw hok
  obtain ⟨h0, hoff⟩ := D.off hi hio
  have hcard : (s.dyn i).cardType = etindevNull := by
    rcases hret with hlt | ⟨-, ha⟩
    · omega
    · by_contra hne
      rw [St.again_iff.2 ⟨hne, h.exit⟩] at ha
      cases ha
  refine SlotInv.empty h.exit (Function.update_self ..) hcard hoff hun ?_
  exact (h.requests.wait _ _).cons fun _ => ⟨hty, hun⟩

/-- an empty slot: its card comes on line again -/
theorem SlotInv.online_again (h : SlotInv os D i s) (hi : slotId i ≠ etinSlotPdm) (ha : s.again i = true)
    (hio : E.ioctl ⟨slotId i, etindevNull⟩ e = (ret, e'))
    (hio' : E.ioctl ⟨slotId i, (s.dyn i).cardType⟩ e' = (ret', e'')) : (s.dyn i).cardType ≠ etindevNull ∧
      ∃ k, checkType (s.dyn i).cardType = some k ∧ D.typeInfo i e' = none ∧ 0 ≤ ret' ∧ D.typeInfo i e'' = some k := by
  have hne := (St.again_iff.1 ha).1
  obtain ⟨k, hk⟩ := Option.isSome_iff_exists.1 (checkType_isSome h.valid hne)
  have hoff := (D.off hi hio).2
  obtain ⟨h0, hon⟩ := D.on hi hk hio' hoff
  exact ⟨hne, k, hk, hoff, h0, hon⟩

/-- its process has ended, and the card is on line again -/
theorem SlotInv.stoppedAgain (h : SlotInv os D i s) (hi : slotId i ≠ etinSlotPdm) (hc : s.chld (.dyn i) = some r)
    (hpos : 0 < (s.rt r).pid) (hw : E.waitpid (s.rt r).pid s.env = (w, e)) (hok : RtPrcInfo.WaitOk (s.rt r).pid w)
    (hio : E.ioctl ⟨slotId i, etindevNull⟩ e = (ret, e')) (ha : s.again i = true)
    (hio' : E.ioctl ⟨slotId i, (s.dyn i).cardType⟩ e' = (ret', e'')) (F) :
    SlotInv os D i { (s.released (.dyn i) r w.pid e).linked (.dyn i) with
      env := e'', failed := F
      trace := .ioctl (.subStop true) ⟨slotId i, (s.dyn i).cardType⟩ ret' e' ::
        .ioctl (.subStop true) ⟨slotId i, etindevNull⟩ ret e :: .waitpid (s.rt r).pid w.pid :: s.trace } := by
  obtain ⟨hne, k, hk, hoff, h0, hon⟩ := h.online_again hi ha hio hio'
  obtain ⟨hty, hun⟩ := h.ended hi hc hpos hw hok
  refine SlotInv.waiting h.exit (Function.update_self ..) hk hon hun (List.mem_append_right _ (by simp)) ?_
  have hreq : RequestsOk D i (.ioctl (.subStop true) ⟨slotId i, etindevNull⟩ ret e ::
      .waitpid (s.rt r).pid w.pid :: s.trace) := (h.requests.wait _ _).cons fun _ => ⟨hty, hun⟩
  apply hreq.cons
  intro _
  rw [if_neg hne]
  exact ⟨hoff, h0⟩

end Stopped

section Cards

variable {new : ETinDev} {ret : ℤ} {e : ε}

/-- its card is gone while it waits -/
theorem SlotInv.goneWaiting (h : SlotInv os D i s) (hi : slotId i ≠ etinSlotPdm) (hnone : s.chld (.dyn i) = none)
    (hcard : (s.dyn i).cardType ≠ etindevNull) (hio : E.ioctl ⟨slotId i, etindevNull⟩ s.env = (ret, e)) :
    SlotInv os D i { s.cardOff i with
      list2Start := s.list2Start.filter fun q => decide (q ≠ .dyn i)
      env := e
      trace := .ioctl .handleNewType ⟨slotId i, etindevNull⟩ ret s.env :: s.trace } := by
  obtain ⟨hty, hun⟩ := h.idle hnone
  obtain ⟨k, hk⟩ := Option.isSome_iff_exists.1 (checkType_isSome h.valid hcard)
  refine SlotInv.empty h.exit hnone (by simp [St.cardOff, St.setDyn]) (D.off hi hio).2 hun ?_
  refine h.requests.cons fun _ => ⟨?_, hun⟩
  rw [hty, hk]
  exact Option.some_ne_none k

/-- a card comes into the slot -/
theorem SlotInv.came (h : SlotInv os D i s) (hi : slotId i ≠ etinSlotPdm) (hV : ValidType new)
    (hcard : (s.dyn i).cardType = etindevNull) (hnew : new ≠ etindevNull) (hc : s.chld (.dyn i) = none)
    (hio : E.ioctl ⟨slotId i, new⟩ s.env = (ret, e)) (F) :
    SlotInv os D i { (s.setDyn i ⟨new, etindevNull, 0⟩).linked (.dyn i) with
      env := e, failed := F, trace := .ioctl .handleNewType ⟨slotId i, new⟩ ret s.env :: s.trace } := by
  obtain ⟨hty, hun⟩ := h.idle hc
  rw [hcard, checkType_null] at hty
  obtain ⟨k, hk⟩ := Option.isSome_iff_exists.1 (checkType_isSome hV hnew)
  obtain ⟨h0, hon⟩ := D.on hi hk hio hty
  refine SlotInv.waiting h.exit hc (by simpa [St.linked, St.setDyn] using hk) hon hun
    (List.mem_append_right _ (by simp)) ?_
  apply h.requests.cons
  intro _
  rw [if_neg hnew]
  exact ⟨hty, h0⟩

end Cards

/-! ### All moves -/

theorem plain_slot (hi : slotId i ≠ etinSlotPdm) (hcore : Core s) (hpos : PidPos s) (h : SlotInv os D i s)
    (hm : Move E ValidType .plain s t) : SlotInv os D i t := by
  cases hm with
  | outside m =>
    refine h.frame (Or.inl rfl) rfl rfl (fun _ _ => rfl) id ?_
    exact .keep (D.outside m s.env i hi) (os.outside m s.env).1
  | timerOff | errPath => exact h.frame (Or.inl rfl) rfl rfl (fun _ _ => rfl) id (.refl ..)
  | noStart e F he r =>
    refine h.frame (Or.inl rfl) rfl rfl (fun _ _ => rfl) id ?_
    rcases he with rfl | hf
    · exact .refl ..
    · exact .keep (D.fork hf i hi) (os.forkFail hf).1
  | capture p r name pid e F hp hr hname hf =>
    by_cases hpi : p = .dyn i
    · subst hpi
      obtain ⟨hname, hsome⟩ := hname i rfl
      have hcap := h.started (r := r) hi (hcore.link _ hp) hname hsome hf
      exact hcap.frame (Or.inl rfl) rfl rfl (fun _ _ => rfl) id (.refl ..)
    · refine h.frame (Or.inl rfl) rfl ?_ ?_ ?_ (.fork hpi hi hf _)
      · exact Function.update_of_ne (Ne.symm hpi) _ _
      · intro r' hr'
        have hrr : r' ≠ r := fun he => hcore.chld_not_pool hr' (he ▸ hr)
        simp [St.captured, hrr]
      · intro h2
        simpa [St.captured, Ne.symm hpi] using h2
  | waitFail p r w e F hc hw =>
    exact h.frame (Or.inl rfl) rfl rfl (fun _ _ => rfl) id (.waitpid hi (hpos p r hc) hw)
  | stopStat j r w e F hc hw =>
    refine h.other hcore (by simp) hc rfl rfl rfl rfl ?_ (.waitpid hi (hpos _ r hc) hw)
    intro h2
    exact List.mem_append_left _ h2
  | stopOff j r w e ret e' F hc hw hok hio hret =>
    by_cases hji : j = i
    · subst hji
      exact h.stoppedOff hi hc (hpos _ r hc) hw hok hio hret F
    · refine h.other hcore (by simpa using hji) hc rfl rfl rfl rfl id ?_
      exact (Quiet.waitpid hi (hpos _ r hc) hw).trans (.ioctl hji hio)
  | stopLost j r w e ret e' ret' e'' F hc hw hok hio _ ha hio' hret' =>
    by_cases hji : j = i
    · -- the slot is empty when its card is to come on line again, so that succeeds
      subst hji
      obtain ⟨-, k, -, -, h0, -⟩ := h.online_again hi ha hio hio'
      exact absurd hret' (not_lt.2 h0)
    · refine h.other hcore (by simpa using hji) hc rfl rfl rfl rfl id ?_
      exact ((Quiet.waitpid hi (hpos _ r hc) hw).trans (.ioctl hji hio)).trans (.ioctl hji hio')
  | stopAgain j r w e ret e' ret' e'' F hc hw hok hio _ ha hio' =>
    by_cases hji : j = i
    · subst hji
      exact h.stoppedAgain hi hc (hpos _ r hc) hw hok hio ha hio' F
    · refine h.other hcore (by simpa using hji) hc rfl rfl rfl rfl (fun h2 => List.mem_append_left _ h2) ?_
      exact ((Quiet.waitpid hi (hpos _ r hc) hw).trans (.ioctl hji hio)).trans (.ioctl hji hio')
  | kill r k e F _ _ hk =>
    refine h.frame (Or.inl rfl) rfl rfl ?_ id (.kill hi hk)
    intro r' _
    exact (kill_pids s r e r').1
  | counts r x y F =>
    exact h.frame (Or.inl rfl) rfl rfl (fun r' _ => (setRt_pids s r x y r').1) id (.refl ..)
  | filter j new cnt =>
    refine h.frame (Or.inl ?_) rfl rfl (fun _ _ => rfl) id (.refl ..)
    by_cases hji : i = j
    · subst hji; simp [St.setDyn]
    · simp [St.setDyn, hji]
  | goneTerm j r k e F _ hc _ hk =>
    refine h.frame ?_ rfl rfl ?_ id (.kill hi hk)
    · exact cardOff_cases hc
    · intro r' _
      exact (goneTerm_pids s j r e r').1
  | goneKeep j r F _ hc => exact h.frame (cardOff_cases hc) rfl rfl (fun _ _ => rfl) id (.refl ..)
  | goneWait j ret e hcard hp hio =>
    by_cases hji : j = i
    · subst hji
      exact h.goneWaiting hi (hcore.link _ hp) hcard hio
    · refine h.frame (Or.inl ?_) rfl rfl (fun _ _ => rfl) ?_ (.ioctl hji hio)
      · simp [St.cardOff, St.setDyn, Ne.symm hji]
      · intro h2
        simpa [Ne.symm hji] using h2
  | come j new ret e F hV hcard hnew hc hio =>
    by_cases hji : j = i
    · subst hji
      exact h.came hi hV hcard hnew hc hio F
    · refine h.frame (Or.inl ?_) rfl rfl (fun _ _ => rfl) (fun h2 => List.mem_append_left _ h2) (.ioctl hji hio)
      simp [St.linked, St.setDyn, Ne.symm hji]

/-- every move of a callback keeps the invariant -/
theorem runtime_slot (hi : slotId i ≠ etinSlotPdm) (hcore : Core s) (hpos : PidPos s) (h : SlotInv os D i s)
    (hm : Runtime E ValidType s t) : SlotInv os D i t := by
  rcases hm with hm | hm
  · exact plain_slot hi hcore hpos h hm
  · cases hm with
    | reap w e hw => exact h.frame (Or.inl rfl) rfl rfl (fun _ _ => rfl) id (.waitAny hi hw)

/-! ## Runs -/

theorem ready_slot {timer : TimerId → Bool} {needKillPrc : Bool} {exeName : Option String} {selfSlot : ℤ} {env : ε}
    (h0 : D.typeInfo i env = none) : SlotInv os D i (boot timer needKillPrc exeName selfSlot env).ready := by
  apply SlotInv.empty rfl rfl rfl h0 rfl
  intro c tr hs
  have hs : c :: tr <:+ [] := hs
  simp at hs

theorem ReachedFrom.slot (os : Os E) (D : SlotDriver E) (hi : slotId i ≠ etinSlotPdm) {env : ε}
    (h0 : D.typeInfo i env = none) {es : List (Event μ)} (hes : ∀ e ∈ es, e.runtime = true ∧ e.Observes ValidType)
    (hr : ReachedFrom E env es s) : Core s ∧ PidPos s ∧ SlotInv os D i s := by
  refine hr.runtime_inv (V := ValidType) (I := fun a => PidPos a ∧ SlotInv os D i a) (fun _ h => h) hes
    (fun _ _ _ _ => ⟨?_, ready_slot h0⟩) ?_
  · intro p r hp
    cases hp
  · intro a b ha hm hab
    exact ⟨runtime_pidPos ha hm hab.1, runtime_slot hi ha hab.1 hab.2 hm⟩

/-- the manager and the driver's record of slot `i` agree -/
structure SlotAgrees (D : SlotDriver E) (i : SlotId) (s : St ε) : Prop where
  /-- an online request found the slot empty and succeeded -/
  online : ∀ site x ret w tr, .ioctl site ⟨slotId i, x⟩ ret w :: tr <:+ s.trace → x ≠ etindevNull →
    D.typeInfo i w = none ∧ 0 ≤ ret
  /-- an offline request found a card, and every child the manager had was reaped -/
  offline : ∀ site ret w tr, .ioctl site ⟨slotId i, etindevNull⟩ ret w :: tr <:+ s.trace →
    D.typeInfo i w ≠ none ∧ unreapedOf (.dyn i) tr = []
  /-- an un-reaped child was started with the card type of the slot -/
  child : ∀ c ∈ unreapedOf (.dyn i) s.trace, ∃ k, D.typeInfo i s.env = some k ∧ c.2[1]? = some (some (cardName k))
  idle : s.chld (.dyn i) = none → D.typeInfo i s.env = checkType (s.dyn i).cardType

/-- **The manager of a slot and the driver agree**, in every state that callbacks reach before `CProcessPdm::Stop` when
every `cb_online` succeeds and nobody else takes cards on or off line in the slot. -/
theorem slot_agreement (os : Os E) (D : SlotDriver E) {i : SlotId} (hi : slotId i ≠ etinSlotPdm) {env : ε}
    (h0 : D.typeInfo i env = none) {es : List (Event μ)} (hes : ∀ e ∈ es, e.runtime = true ∧ e.Observes ValidType)
    (hr : ReachedFrom E env es s) : SlotAgrees D i s := by
  obtain ⟨-, -, h⟩ := hr.slot os D hi h0 hes
  refine ⟨?_, ?_, ?_, fun hn => (h.idle hn).1⟩
  · intro site x ret w tr hs hx
    have hreq := h.requests _ _ hs rfl
    rwa [if_neg hx] at hreq
  · intro site ret w tr hs
    have hreq := h.requests _ _ hs rfl
    rwa [if_pos rfl] at hreq
  · intro c hc
    cases hc' : s.chld (.dyn i) with
    | none =>
      rw [(h.idle hc').2] at hc
      cases hc
    | some r =>
      obtain ⟨k, hk, hall⟩ := h.busy r hc'
      exact ⟨k, hk, (hall c hc).2.2⟩

/-- the process of slot 1 is killed, buried and started again; then the card is gone, and the process ends -/
def replug : List (Event ℤ) :=
  startAll ++ killAll ++ [.sBuryChld 8] ++ List.replicate 6 .sCheckNeedStart ++
    [.handleNewType 1 etindevNull, .sBuryChld 8]

theorem slot_agreement_replug : ∃ s, ReachedFrom World.env World.fresh replug s ∧
    World.slotDriver.typeInfo 1 s.env = none ∧ SlotAgrees World.slotDriver 1 s := by
  obtain ⟨s, hs, hf⟩ := exists_reached World.env World.fresh replug
    (fun s => decide (World.slotDriver.typeInfo 1 s.env = none)) (by decide +kernel)
  have hes : ∀ e ∈ replug, e.runtime = true ∧ e.Observes ValidType := by decide
  exact ⟨s, hs, of_decide_eq_true hf, slot_agreement World.os World.slotDriver (i := 1) (by decide) rfl hes hs⟩

end LinuxDrv.Pdm
