/-
The shutdown leaves nothing behind but the cards whose managers wait.

- `signal4Stop_ok`: the signals of the shutdown go to un-reaped children, so none of them fails.
- `Stopped ps`: the managers `ps` have been stopped. Each had no child, or one that had exited, which its stop reaps:
  the record is free again, and the card of a dynamic manager with a child is off line.
- `shutdown_iff`: `CProcessPdm::Stop` returns, and leaves every record in the pool and every slot empty iff no dynamic
  manager waits in `s_list2Start`. `CPrcMngInfo::stop` does nothing for a manager without a child, so nobody takes the
  card of a waiting one off line.
-/
import LinuxDrv.Pdm.Records
import LinuxDrv.Pdm.SlotAgree
import LinuxDrv.Pdm.Stop

namespace LinuxDrv.Pdm

open LinuxDrv.Core Relation

variable {ε μ : Type} {E : Env ε μ} {s t u : St ε} {os : Os E} {D : SlotDriver E} {ps : List MngId}

/-! ## Signals -/

/-- `Term4Stop` and `Kill4Stop` return: they signal un-reaped children -/
theorem signal4Stop_ok (hcore : Core s) (h : PidInv os s) {a : Assert} {sig : Sig} {new : PrcRtState}
    (ha : (a = .signalTermState ∧ sig = .sigterm ∧ new = .exiting) ∨
      (a = .signalKillState ∧ sig = .sigkill ∧ new = .killing)) (p : MngId) :
    ∃ t, signal4Stop E a sig new s p = .ok t ∧ Core t ∧ PidInv os t := by
  unfold signal4Stop
  cases hc : s.chld p with
  | none => exact ⟨s, rfl, hcore, h⟩
  | some r =>
    have hun : (s.rt r).pid ∈ os.unreaped s.env := h.exact ▸ ⟨p, r, hc, rfl⟩
    have ha' : a = .signalKillState ∨ a = .signalTermState := ha.symm.imp And.left And.left
    rcases signal_cases (E := E) a sig new r s ha' with ⟨hk, -⟩ | ⟨hk, F, hF, -, -, hs⟩
    · have := os.killOk sig hun
      omega
    · have hm : Move E AnyType .shut s _ := Move.signal p r sig new a _ _ F hc ha rfl hk hF
      exact ⟨_, hs, move_core hm hcore, effect_pid hcore h (Or.inr hm)⟩

/-- the two loops of signals return -/
theorem stopSignals_ok (hcore : Core s) (h : PidInv os s) : ∃ u, stopSignals E s = .ok u ∧ Core u ∧ PidInv os u := by
  have hsleep : ∀ (n : ℕ) {v : St ε}, Core v → PidInv os v →
      Core { v with env := E.sleep n v.env } ∧ PidInv os { v with env := E.sleep n v.env } := by
    intro n v hv hpv
    have hm : Move E AnyType .shut v { v with env := E.sleep n v.env } := Move.sleep n
    exact ⟨move_core hm hv, effect_pid hv hpv (Or.inr hm)⟩
  rw [stopSignals_eq]
  obtain ⟨t₁, ht₁, hc₁, hp₁⟩ := foldlM_done_total (I := fun _ v => Core v ∧ PidInv os v)
    (fun _ p _ v _ hv => signal4Stop_ok hv.1 hv.2 (Or.inl ⟨rfl, rfl, rfl⟩) p) ⟨hcore, h⟩
  obtain ⟨hc₁, hp₁⟩ := hsleep 2 hc₁ hp₁
  obtain ⟨t₂, ht₂, hc₂, hp₂⟩ := foldlM_done_total (I := fun _ v => Core v ∧ PidInv os v)
    (fun _ p _ v _ hv => signal4Stop_ok hv.1 hv.2 (Or.inr ⟨rfl, rfl, rfl⟩) p) ⟨hc₁, hp₁⟩
  obtain ⟨hc₂, hp₂⟩ := hsleep 1 hc₂ hp₂
  exact ⟨_, by rw [ht₁, ok_bind, ht₂, ok_bind], hc₂, hp₂⟩

/-- every process that the shutdown sends a signal has exited when the managers are stopped -/
def SignalledExited (os : Os E) (s : St ε) : Prop :=
  ∀ u new, stopSignals E s = .ok u → u.trace = new ++ s.trace → ∀ pid sig w, .kill pid sig w ∈ new →
    pid ∈ os.exited u.env

/-- the signals reach every child, and touch neither the lists nor the slots -/
theorem stopSignals_after (hcore : Core s) (hu : stopSignals E s = .ok u) (hx : SignalledExited os s) :
    u.lists = s.lists ∧ u.chld = s.chld ∧ (∀ r ∈ s.lists .pool, u.rt r = s.rt r) ∧ held u ⊆ os.exited u.env ∧
    ∀ i, slotId i ≠ etinSlotPdm → D.typeInfo i u.env = D.typeInfo i s.env := by
  obtain ⟨t₁, t₂, h₁, h₂, rfl, -⟩ := stopSignals_spec hcore hu
  obtain ⟨cs₁, hcs₁, hkill₁, -⟩ := h₁.trace
  obtain ⟨cs₂, hcs₂, -, -⟩ := h₂.trace
  have hpool : ∀ r ∈ s.lists .pool, ∀ p ∈ stopOrder, s.chld p ≠ some r := fun r hr p _ hc => hcore.chld_not_pool hc hr
  refine ⟨h₂.lists.trans h₁.lists, h₂.chld.trans h₁.chld, ?_, ?_, ?_⟩
  · intro r hr
    have hr' : t₂.rt r = t₁.rt r := h₂.miss r fun p hp => by
      show t₁.chld p ≠ some r
      rw [h₁.chld]
      exact hpool r hr p hp
    exact hr'.trans (h₁.miss r (hpool r hr))
  · intro z hz
    obtain ⟨p, r, hc, hz⟩ := hz
    have hcs : s.chld p = some r := by rw [← h₁.chld]; exact h₂.chld ▸ hc
    obtain ⟨e, he⟩ := hkill₁ p (mem_stopOrder p) r hcs
    obtain ⟨st₁, hr₁⟩ := h₁.rt_eq r
    obtain ⟨st₂, hr₂⟩ := h₂.rt_eq r
    have hpid : (s.rt r).pid = z := by
      calc (s.rt r).pid = (t₁.rt r).pid := by rw [hr₁]
        _ = (t₂.rt r).pid := by rw [hr₂]
        _ = z := hz
    have htr : t₂.trace = (cs₂ ++ cs₁) ++ s.trace := by rw [hcs₂, List.append_assoc, ← hcs₁]
    exact hpid ▸ hx _ _ hu htr _ _ _ (List.mem_append_right _ he)
  · intro i hi
    have hkeep : ∀ c pid sig e, D.typeInfo i e = c → D.typeInfo i (E.kill pid sig e).2 = c :=
      fun c pid sig e he => (D.kill rfl i hi).trans he
    calc D.typeInfo i (E.sleep 1 t₂.env) = D.typeInfo i t₂.env := D.sleep 1 t₂.env i hi
      _ = D.typeInfo i (E.sleep 2 t₁.env) := h₂.env _ (hkeep _) rfl
      _ = D.typeInfo i t₁.env := D.sleep 2 t₁.env i hi
      _ = D.typeInfo i s.env := h₁.env _ (hkeep _) rfl

/-! ## Stops -/

/-- the managers `ps` have been stopped, starting from `s` -/
structure Stopped (os : Os E) (D : SlotDriver E) (s : St ε) (ps : List MngId) (t : St ε) : Prop where
  core : Core t
  exit : t.exitFlag = true
  pids : PidInv os t
  ended : held t ⊆ os.exited t.env
  free : ∀ r ∈ t.lists .pool, (t.rt r).state = .null
  gone : ∀ p ∈ ps, t.chld p = none
  rest : ∀ p, p ∉ ps → t.chld p = s.chld p
  slots : ∀ i, slotId i ≠ etinSlotPdm → D.typeInfo i t.env =
    if .dyn i ∈ ps ∧ s.chld (.dyn i) ≠ none then none else D.typeInfo i s.env

theorem stop_pid {p : MngId} (hcore : Core s) (h : PidInv os s) (ht : PrcMngInfo.stop E p s = .ok t) : PidInv os t := by
  have hout := stop_outcome (E := E) (V := AnyType) hcore p
  rw [ht] at hout
  refine (chain_inv (I := fun a => Core a ∧ PidInv os a) (fun x y hm hx => ⟨move_core hm hx.1, ?_⟩) hout ⟨hcore, h⟩).2
  exact plain_pid hx.1 hx.2 hm

/-- a child that has exited is reaped by the wait of its manager's stop -/
theorem waitpid_exited (os : Os E) {pid : ℤ} (hpos : 0 < pid) {e e' : ε} {w : WaitRet} (hx : pid ∈ os.exited e)
    (hw : E.waitpid pid e = (w, e')) : RtPrcInfo.WaitOk pid w ∧ os.exited e \ {pid} ⊆ os.exited e' := by
  rcases os.waitpid hpos hw with ⟨hno, -⟩ | ⟨-, hpid, -, hex⟩ | ⟨-, hno, -⟩
  · exact absurd (os.exited_sub e hx) hno
  · exact ⟨Or.inl hpid, hex⟩
  · exact absurd hx hno

/-- the fields that a stop writes, whatever the kind of the manager -/
theorem stopped_fields (s : St ε) (E : Env ε μ) (p : MngId) (r : RecId) (w : WaitRet) (e : ε) :
    (s.stopped E p r w e).chld = Function.update s.chld p none ∧
    (s.stopped E p r w e).rt = Function.update s.rt r ⟨.null, -1, 0, 0, none⟩ ∧
    (s.stopped E p r w e).lists = s.lists.accept .pool r ∧ (s.stopped E p r w e).exitFlag = s.exitFlag := by
  cases p <;> exact ⟨rfl, rfl, rfl, rfl⟩

/-- a stop takes the card of its manager off line -/
theorem stopped_env (os : Os E) (D : SlotDriver E) (s : St ε) (p : MngId) (r : RecId) (w : WaitRet) (e : ε) :
    os.exited e ⊆ os.exited (s.stopped E p r w e).env ∧ ∀ i, slotId i ≠ etinSlotPdm →
      D.typeInfo i (s.stopped E p r w e).env = if p = .dyn i then none else D.typeInfo i e := by
  cases p with
  | stat j => exact ⟨subset_rfl, fun i _ => by rw [if_neg (by simp)]; rfl⟩
  | dyn j =>
    obtain ⟨⟨ret, e'⟩, hio⟩ : ∃ x, E.ioctl ⟨slotId j, etindevNull⟩ e = x := ⟨_, rfl⟩
    have henv : (s.stopped E (.dyn j) r w e).env = e' := by
      simp only [St.stopped, hio]
    refine ⟨by rw [henv]; exact (ioctl_children os hio).2, ?_⟩
    intro i hi
    rw [henv]
    by_cases hji : j = i
    · subst hji
      rw [if_pos rfl]
      exact (D.off hi hio).2
    · rw [if_neg (by simpa using hji)]
      exact D.other hji hio

/-- a manager without a child is passed over: no card is taken off line -/
theorem Stopped.skip (h : Stopped os D s ps t) {p : MngId} (hp : p ∉ ps) (hc : t.chld p = none) :
    Stopped os D s (ps ++ [p]) t := by
  have hps : ∀ q, q ∈ ps ++ [p] ↔ q ∈ ps ∨ q = p := fun q => by simp
  refine ⟨h.core, h.exit, h.pids, h.ended, h.free, ?_, ?_, ?_⟩
  · intro q hq
    rcases (hps q).1 hq with hq | rfl
    · exact h.gone q hq
    · exact hc
  · intro q hq
    exact h.rest q fun hm => hq ((hps q).2 (Or.inl hm))
  · intro i hi
    rw [h.slots i hi]
    by_cases hpi : p = .dyn i
    · have hsc : s.chld p = none := (h.rest p hp).symm.trans hc
      rw [if_neg (fun hx => hx.2 (hpi ▸ hsc)), if_neg (fun hx => hx.2 (hpi ▸ hsc))]
    · simp [Ne.symm hpi]

/-- one round of the loop of stops -/
theorem stopped_step (h : Stopped os D s ps t) {p : MngId} (hp : p ∉ ps) :
    ∃ u, PrcMngInfo.stop E p t = .ok u ∧ Stopped os D s (ps ++ [p]) u := by
  have hps : ∀ q, q ∈ ps ++ [p] ↔ q ∈ ps ∨ q = p := fun q => by simp
  cases hc : t.chld p with
  | none =>
    have hs : PrcMngInfo.stop E p t = .ok t := by
      unfold PrcMngInfo.stop
      rw [if_pos hc]
    exact ⟨t, hs, h.skip hp hc⟩
  | some r =>
    obtain ⟨⟨w, e⟩, hw⟩ : ∃ x, E.waitpid (t.rt r).pid t.env = x := ⟨_, rfl⟩
    have hpos := h.pids.once.pos p r hc
    obtain ⟨hok, hex⟩ := waitpid_exited os hpos (h.ended ⟨p, r, hc, rfl⟩) hw
    obtain ⟨F, -, ⟨hno, -⟩ | ⟨-, hs⟩⟩ := stop_exit_cases h.core h.exit hc hw
    · exact absurd hok hno
    obtain ⟨hchld, hrt, hlists, hexit⟩ := stopped_fields t E p r w e
    obtain ⟨hex', hty⟩ := stopped_env os D t p r w e
    have hheld : held (t.stopped E p r w e) = held t \ {(t.rt r).pid} :=
      (h.pids.once.released hc hchld hrt h.core).2
    refine ⟨_, hs, stop_core h.core hs, hexit.trans h.exit, stop_pid h.core h.pids hs, ?_, ?_, ?_,
      ?_, ?_⟩
    · calc held (t.stopped E p r w e) = held t \ {(t.rt r).pid} := hheld
        _ ⊆ os.exited t.env \ {(t.rt r).pid} := Set.sdiff_subset_sdiff_left h.ended
        _ ⊆ os.exited e := hex
        _ ⊆ os.exited (t.stopped E p r w e).env := hex'
    · intro r' hr'
      show ((t.stopped E p r w e).rt r').state = .null
      have hr' : r' ∈ (t.stopped E p r w e).lists .pool := hr'
      rw [hlists, Lists.mem_accept] at hr'
      rw [hrt]
      by_cases hrr : r' = r
      · subst hrr; rw [Function.update_self]
      · rw [Function.update_of_ne hrr]
        rcases hr' with ⟨hr', -⟩ | ⟨hr', -⟩
        · exact h.free r' hr'
        · exact absurd hr' hrr
    · intro q hq
      show (t.stopped E p r w e).chld q = none
      rw [hchld]
      by_cases hqp : q = p
      · subst hqp; rw [Function.update_self]
      · rw [Function.update_of_ne hqp]
        exact h.gone q (((hps q).1 hq).resolve_right hqp)
    · intro q hq
      have hqp : q ≠ p := fun he => hq ((hps q).2 (Or.inr he))
      show (t.stopped E p r w e).chld q = s.chld q
      rw [hchld, Function.update_of_ne hqp]
      exact h.rest q fun hm => hq ((hps q).2 (Or.inl hm))
    · intro i hi
      have hsc : s.chld p ≠ none := by rw [← h.rest p hp, hc]; simp
      refine (hty i hi).trans ?_
      by_cases hpi : p = .dyn i
      · rw [if_pos hpi, if_pos ⟨(hps _).2 (Or.inr hpi.symm), hpi ▸ hsc⟩]
      · have hw' : D.typeInfo i e = D.typeInfo i t.env := D.waitpid hw i hi
        rw [if_neg hpi, hw', h.slots i hi]
        simp [Ne.symm hpi]

/-- **The loop of stops** returns, every manager is without a child, and a slot is empty if its manager had one. -/
theorem stopAll_ok (hcore : Core s) (h : PidInv os s) (hended : held s ⊆ os.exited s.env)
    (hfree : ∀ r ∈ s.lists .pool, (s.rt r).state = .null) (hint : ∀ c e, 0 ≤ (E.ioctlInt c e).1) :
    ∃ t, stopAll E s = .ok t ∧ (∀ r, r ∈ t.lists .pool ∧ (t.rt r).state = .null) ∧
      ∀ i, slotId i ≠ etinSlotPdm → D.typeInfo i t.env =
        if s.chld (.dyn i) ≠ none then none else D.typeInfo i s.env := by
  have hio : ∀ c (v : St ε), ioctlInt E c v = .ok { v with env := (E.ioctlInt c v.env).2 } := by
    intro c v
    unfold ioctlInt
    exact if_neg (not_lt.2 (hint c v.env))
  obtain ⟨e, he⟩ : ∃ e, e = (E.ioctlInt .masterInt (E.ioctlInt .stateInt s.env).2).2 := ⟨_, rfl⟩
  obtain ⟨s₁, hs₁⟩ : ∃ s₁, s₁ = { s with exitFlag := true, env := e } := ⟨_, rfl⟩
  have hall : stopAll E s = stopOrder.foldlM (fun s p => PrcMngInfo.stop E p s) s₁ := by
    rw [stopAll_eq, hio, ok_bind, hio, ok_bind, hs₁, he]
  have hm₁ : os.unreaped e = os.unreaped s.env ∧ os.exited s.env ⊆ os.exited e := by
    obtain ⟨hu, hx⟩ := os.ioctlInt .stateInt s.env
    obtain ⟨hu', hx'⟩ := os.ioctlInt .masterInt (E.ioctlInt .stateInt s.env).2
    exact he ▸ ⟨hu'.trans hu, hx.trans hx'⟩
  have hd₁ : ∀ i, slotId i ≠ etinSlotPdm → D.typeInfo i e = D.typeInfo i s.env := fun i hi =>
    he ▸ (D.ioctlInt rfl i hi).trans (D.ioctlInt rfl i hi)
  have hstart : Stopped os D s₁ [] s₁ := by
    refine ⟨?_, by rw [hs₁], ?_, ?_, by rw [hs₁]; exact hfree, fun _ hp => absurd hp List.not_mem_nil, fun _ _ => rfl,
      fun i _ => by simp⟩
    · rw [hs₁]; exact hcore.congr rfl (fun _ => rfl) rfl rfl fun _ _ => rfl
    · rw [hs₁]; exact h.congr rfl (.of_eq rfl) hm₁.1 h.signals
    · rw [hs₁]; exact hended.trans hm₁.2
  obtain ⟨t, ht, hst⟩ := foldlM_done_total (l := stopOrder) (I := fun ps v => Stopped os D s₁ ps v)
    (fun done p rest v hl hv => stopped_step hv fun hm => by
      have hnd := stopOrder_nodup
      rw [← hl] at hnd
      exact (List.nodup_append'.1 hnd).2.2 hm (by simp)) hstart
  refine ⟨t, hall.trans ht, ?_, ?_⟩
  · intro r
    have hmem : r ∈ t.lists .pool := by
      by_contra hno
      obtain ⟨p, hp⟩ := (chld_iff hst.core r).1 hno
      rw [hst.gone p (mem_stopOrder p)] at hp
      cases hp
    exact ⟨hmem, hst.free r hmem⟩
  · intro i hi
    rw [hst.slots i hi, hs₁]
    simp [mem_stopOrder, hd₁ i hi]

/-! ## Shutdown -/

/-- nothing is left: every record is free, and every slot but that of the pdm is empty -/
def ShutdownClean (D : SlotDriver E) (s : St ε) : Prop :=
  (∀ r, r ∈ s.lists .pool ∧ (s.rt r).state = .null) ∧ ∀ i, slotId i ≠ etinSlotPdm → D.typeInfo i s.env = none

/-- a slot that was on line for a manager is empty after the stops, unless the manager waited -/
theorem slot_cleared {i : SlotId} (hcore : Core s) (h : SlotInv os D i s) :
    (if s.chld (.dyn i) ≠ none then none else D.typeInfo i s.env) = none ↔ .dyn i ∉ s.list2Start := by
  cases hc : s.chld (.dyn i) with
  | some r => simp [hcore.not_linked hc]
  | none =>
    rw [if_neg (by simp), (h.idle hc).1]
    constructor
    · intro hnone hm
      have hsome := checkType_isSome h.valid (hcore.card i hm)
      rw [hnone] at hsome
      cases hsome
    · intro hm
      have hcard : (s.dyn i).cardType = etindevNull := by
        by_contra hne
        exact hm (h.waits hc hne)
      rw [hcard, checkType_null]

/-- **The shutdown returns, and leaves nothing behind iff no dynamic manager waits to be started.** -/
theorem shutdown_iff (os : Os E) (D : SlotDriver E) {env : ε} (hu : os.unreaped env = ∅)
    (h0 : ∀ i, slotId i ≠ etinSlotPdm → D.typeInfo i env = none) (hint : ∀ c e, 0 ≤ (E.ioctlInt c e).1)
    {es : List (Event μ)} (hes : ∀ e ∈ es, e.runtime = true ∧ e.Observes ValidType) (hr : ReachedFrom E env es s)
    (hx : SignalledExited os s) : ∃ t, processStop E s = .ok t ∧
      (ShutdownClean D t ↔ ∀ i, slotId i ≠ etinSlotPdm → .dyn i ∉ s.list2Start) := by
  obtain ⟨hcore, hpid⟩ := hr.pid os hu
  obtain ⟨-, ha⟩ := (show Reached E es s from ⟨env, hr⟩).agree fun e he => (hes e he).1
  obtain ⟨u, hsig, hcu, hpu⟩ := stopSignals_ok hcore hpid
  obtain ⟨hlists, hchld, hrt, hended, hslots⟩ := stopSignals_after (D := D) hcore hsig hx
  have hfree : ∀ r ∈ u.lists .pool, (u.rt r).state = .null := by
    intro r hm
    rw [hlists] at hm
    rw [hrt r hm]
    exact ha.state .pool r hm
  obtain ⟨t, ht, hpool, hty⟩ := stopAll_ok (D := D) hcu hpu hended hfree hint
  have hslot : ∀ i, slotId i ≠ etinSlotPdm → (D.typeInfo i t.env = none ↔ .dyn i ∉ s.list2Start) := by
    intro i hi
    rw [hty i hi, hchld, hslots i hi]
    exact slot_cleared hcore (hr.slot os D hi (h0 i hi) hes).2.2
  refine ⟨{ t with timer := fun _ => false }, ?_, ⟨?_, fun hw => ⟨hpool, ?_⟩⟩⟩
  · unfold processStop
    rw [hsig, ok_bind, ht]
    rfl
  · intro hc i hi
    exact (hslot i hi).1 (hc.2 i hi)
  · intro i hi
    exact (hslot i hi).2 (hw i hi)

/-- the processes the shutdown signals are zombies after it -/
def World.signalsEnd (s : St World) : Bool :=
  (stopSignals World.env s).toOption.all fun u => u.trace.all fun c =>
    match c with
    | .kill pid _ _ => decide (0 < pid ∧ pid ∈ u.env.zombies)
    | _ => true

/-- every ioctl so far succeeded -/
def World.ioctlsOk (s : St World) : Bool :=
  s.trace.all fun c =>
    match c with
    | .ioctl _ _ ret _ => decide (0 ≤ ret)
    | .fork .. | .waitpid .. | .kill .. => true

theorem World.signalledExited {s : St World} (h : World.signalsEnd s = true) : SignalledExited World.os s := by
  intro u new hu htr pid sig w hm
  unfold World.signalsEnd at h
  rw [hu] at h
  have hmem : .kill pid sig w ∈ u.trace := htr ▸ List.mem_append_left _ hm
  have hz : 0 < pid ∧ pid ∈ u.env.zombies := of_decide_eq_true (List.all_eq_true.1 h _ hmem)
  exact hz

/-- every process runs -/
theorem shutdown_iff_running : ∃ s t, ReachedFrom World.env World.fresh startAll s ∧
    processStop World.env s = .ok t ∧ ShutdownClean World.slotDriver t := by
  obtain ⟨s, hs, hf⟩ := exists_reached World.env World.fresh startAll
    (fun s => decide (s.list2Start = []) && World.signalsEnd s) (by decide +kernel)
  simp only [Bool.and_eq_true, decide_eq_true_eq] at hf
  have hes : ∀ e ∈ (startAll : List (Event ℤ)), e.runtime = true ∧ e.Observes ValidType := by decide
  have hu : World.os.unreaped World.fresh = ∅ := by simp [World.os, World.unreaped, World.fresh]
  obtain ⟨t, ht, hiff⟩ := shutdown_iff World.os World.slotDriver hu (fun _ _ => rfl) (fun _ _ => le_rfl) hes hs
    (World.signalledExited hf.2)
  exact ⟨s, t, hs, ht, hiff.2 fun i _ => by rw [hf.1]; exact List.not_mem_nil⟩

/-- the static processes run, and a card has come whose manager waits: every process the shutdown signals has exited and
every ioctl succeeds, but the card is still on line -/
theorem shutdown_leaves_waiting : ∃ s t, ReachedFrom World.env World.fresh
      (List.replicate 5 .sCheckNeedStart ++ List.replicate 4 (.handleNewType 1 etindevMio)) s ∧
    SignalledExited World.os s ∧ processStop World.env s = .ok t ∧
    (∀ site arg ret w, .ioctl site arg ret w ∈ t.trace → 0 ≤ ret) ∧
    World.slotDriver.typeInfo 1 t.env = some 1 ∧ ¬ ShutdownClean World.slotDriver t := by
  obtain ⟨s, hs, hf⟩ := exists_reached World.env World.fresh
    (List.replicate 5 .sCheckNeedStart ++ List.replicate 4 (.handleNewType 1 etindevMio))
    (fun s => World.signalsEnd s && (processStop World.env s).toOption.any fun t =>
      decide (World.slotDriver.typeInfo 1 t.env = some 1) && World.ioctlsOk t) (by decide +kernel)
  rw [Bool.and_eq_true] at hf
  obtain ⟨hx, ht⟩ := hf
  cases hst : processStop World.env s with
  | error x => rw [hst] at ht; cases ht
  | ok t =>
    rw [hst] at ht
    obtain ⟨hty, hio⟩ := (Bool.and_eq_true _ _).mp ht
    have hty : World.slotDriver.typeInfo 1 t.env = some 1 := of_decide_eq_true hty
    refine ⟨s, t, hs, World.signalledExited hx, hst, ?_, hty, ?_⟩
    · intro site arg ret w hm
      exact of_decide_eq_true (List.all_eq_true.1 hio _ hm)
    · intro hc
      have hnone := hc.2 1 (by decide)
      rw [hty] at hnone
      cases hnone

end LinuxDrv.Pdm
