/-
The timers make progress: nobody who waits for one is passed over.

Each of the three timers serves the head of a list. What arrives goes to the tail, and what leaves lets the others move
up, so an entry waits for at most as many services as its place in the list, whatever happens in between.
- `start_in_turn`: a manager in `s_list2Start` is forked, or its card is gone. A tick of the start timer serves if the
  fork succeeds: no check before it can fail, since a manager in the list has no child and its card has a name.
- `term_in_turn`: a process that was told to exit is sent SIGKILL or released; every tick of the term timer serves.
- `kill_in_turn`: a process that is being killed is released. A tick of the kill timer serves if the head has ended: one
  that does not die holds up those behind it.
While the entry still waits, the timer runs.
-/
import LinuxDrv.Core.Fifo
import LinuxDrv.Pdm.Lifecycle
import LinuxDrv.Pdm.Restart
import LinuxDrv.Pdm.SlotAgree

namespace LinuxDrv.Pdm

open LinuxDrv.Core Relation

variable {ε μ : Type} {E : Env ε μ} {s t s₀ : St ε}

/-! ## Taking turns -/

/-- a callback is a chain of moves, each of which keeps what moves keep -/
theorem step_chain {I : St ε → Prop} (hI : ∀ a b, Core a → Runtime E ValidType a b → I a → I b) {e : Event μ}
    (he : e.runtime = true ∧ e.Observes ValidType) (h : Core s) (hs : I s) (ht : step E s e = .ok t) :
    Core t ∧ I t := by
  have hout := step_runtime (E := E) (V := ValidType) (fun _ hx => hx) h he.1 he.2
  rw [ht] at hout
  refine chain_inv (I := fun a => Core a ∧ I a) (fun a b hm hx => ⟨?_, hI a b hx.1 hm hx.2⟩) hout ⟨h, hs⟩
  exact hm.elim (fun hm => move_core hm hx.1) fun hm => move_core hm hx.1

/-- If no move takes an entry of the list `q` back, and the callbacks that meet `S` take the first one out, an entry
among the first n is done after n of them. `I` is what moves keep. -/
theorem run_turn {α : Type} {q : St ε → List α} (done : St ε → Prop) {I : St ε → Prop} {x : α}
    {S : St ε → Event μ → Prop} [∀ a e, Decidable (S a e)] (hI : ∀ a b, Core a → Runtime E ValidType a b → I a → I b)
    (hmove : ∀ a b n, Core a → I a → Runtime E ValidType a b → Within q done n x a → Within q done n x b)
    (hserve : ∀ a e b y ys, Core a → I a → S a e → step E a e = .ok b → q a = y :: ys → q b = ys ∧ (x = y → done b))
    {es : List (Event μ)} (hes : ∀ e ∈ es, e.runtime = true ∧ e.Observes ValidType) (h : Core s) (hs : I s) {n : ℕ}
    (hx : x ∈ (q s).take n) (hrun : run E s es = .ok t) :
    I t ∧ Within q done (n - services (step E) S s es) x t := by
  have hkeep : ∀ a e b, (e.runtime = true ∧ e.Observes ValidType) → Core a ∧ I a → step E a e = .ok b →
      Core b ∧ I b := fun a e b he ha hb => step_chain hI he ha.1 ha.2 hb
  have hstep : ∀ a e b m, (e.runtime = true ∧ e.Observes ValidType) → Core a ∧ I a → step E a e = .ok b →
      Within q done m x a → Within q done m x b := by
    intro a e b m he ha hb hw
    refine (step_chain (I := fun c => I c ∧ Within q done m x c) ?_ he ha.1 ⟨ha.2, hw⟩ hb).2.2
    exact fun c d hc hm hx => ⟨hI c d hc hm hx.1, hmove c d m hc hx.1 hm hx.2⟩
  refine ⟨(runFrom_inv (fun a e b he ha hb => hkeep a e b he ha hb) hes ⟨h, hs⟩ hrun).2, ?_⟩
  refine run_within (I := fun a => Core a ∧ I a) hkeep hstep ?_ hes ⟨h, hs⟩ (Or.inr hx) hrun
  intro a e b m he ha hS hb hw
  have hd : done a → done b := by
    intro hda
    have h0 : Within q done 0 x b := hstep a e b 0 he ha hb (Or.inl hda)
    exact h0.resolve_right (by simp)
  cases hl : q a with
  | nil =>
    refine Or.inl (hd (hw.resolve_right ?_))
    simp [hl]
  | cons y ys =>
    obtain ⟨hq, hy⟩ := hserve a e b y ys ha.1 ha.2 hS hb hl
    have hq' : q b = ys ++ [] := hq.trans (List.append_nil ys).symm
    exact hw.serve hd hl hq' hy

/-! ## The list to start -/

/-- the call that takes manager `p` out of the list to start: its process is forked, or its card goes off line -/
def Served (p : MngId) : Call ε → Prop
  | .fork q _ _ => q = p
  | .ioctl .handleNewType arg _ _ => ∃ i, p = .dyn i ∧ arg = ⟨slotId i, etindevNull⟩
  | .ioctl (.subStop _) .. | .waitpid .. | .kill .. => False

/-- the start timer's callback forks: the program has a name, and the system gives it a process -/
def Starts (E : Env ε μ) (s : St ε) : Event μ → Prop
  | .sCheckNeedStart => s.exeName ≠ none ∧ (E.fork s.env).1 ≠ none
  | _ => False

instance (E : Env ε μ) (s : St ε) : (e : Event μ) → Decidable (Starts E s e)
  | .sCheckNeedStart => inferInstanceAs (Decidable (_ ∧ _))
  | .sHello4Live | .sUpdateLiveState _ | .sCheckLiveState | .sCheckTermTimeout | .sCheckKillTimeout | .sBuryChld _
  | .handleNewType .. | .sCheckDevChange .. | .sHandleCardChange _ | .outside _ | .term4Stop _ | .kill4Stop _ | .stop _
  | .processStop => isFalse id

/-- a card whose type was checked -/
def CardsValid (s : St ε) : Prop := ∀ i, ValidType (s.dyn i).cardType

theorem runtime_cardsValid (hm : Runtime E ValidType s t) (h : CardsValid s) : CardsValid t := by
  have hset : ∀ i (d : DynamicPrcMngInfo), ValidType d.cardType → CardsValid (s.setDyn i d) := by
    intro i d hd j
    by_cases hji : j = i
    · subst hji; simpa [St.setDyn] using hd
    · simpa [St.setDyn, hji] using h j
  have hnull : ValidType etindevNull := by decide
  rcases hm with hm | hm
  · cases hm with
    | outside | timerOff | noStart | capture | waitFail | stopStat | stopOff | stopLost | stopAgain | kill | counts
    | errPath => exact h
    | filter i new cnt => exact hset i _ (h i)
    | goneTerm i r k e F => exact hset i _ hnull
    | goneKeep i r F => exact hset i _ hnull
    | goneWait i ret e => exact hset i _ hnull
    | come i new ret e F hV => exact hset i _ hV
  · cases hm with
    | reap => exact h

/-- no callback moves a manager back in the list to start -/
theorem runtime_list2Start {p : MngId} {n : ℕ} (hm : Runtime E ValidType s t) (hsuf : s₀.trace <:+ s.trace)
    (h : Within St.list2Start (fun a : St ε => Since s₀.trace (Served p) a.trace) n p s) :
    Within St.list2Start (fun a : St ε => Since s₀.trace (Served p) a.trace) n p t := by
  have hd : Since s₀.trace (Served p) s.trace → Since s₀.trace (Served p) t.trace :=
    fun hs => hs.mono (hm.elim move_trace move_trace)
  rcases hm with hm | hm
  · cases hm with
    | outside | timerOff | noStart | waitFail | stopOff | stopLost | kill | counts | filter | goneTerm | goneKeep
    | errPath => exact h.congr hd rfl
    | stopStat | stopAgain | come => exact h.append hd rfl
    | capture q r name pid e F =>
      refine h.filter hd rfl fun _ hp => ?_
      have hpq : p = q := by simpa using hp
      exact Since.cons hpq.symm hsuf
    | goneWait i ret e =>
      refine h.filter hd rfl fun _ hp => ?_
      have hpi : p = .dyn i := by simpa using hp
      exact Since.cons ⟨i, hpi, rfl⟩ hsuf
  · cases hm with
    | reap => exact h.congr hd rfl

/-! ### A tick that forks -/

theorem rtStart_forked (p : MngId) (r : RecId) (argv : List (Option String)) {pid : Pid} {e : ε}
    (hexe : s.exeName ≠ none) (hf : E.fork s.env = (some pid, e)) : (RtPrcInfo.start E p r argv s).1 = 0 := by
  simp only [RtPrcInfo.start, St.chk, hexe, ↓reduceIte, hf]

/-- there is a record for a manager that waits, so the manager is forked and leaves the list -/
theorem capture_forked (h : Core s) {p : MngId} (hp : p ∈ s.list2Start) (name : Option String) {pid : Pid} {e : ε}
    (hexe : s.exeName ≠ none) (hf : E.fork s.env = (some pid, e)) : ∃ u, PrcMngInfo.capture E p name s = .ok (0, u) ∧
      u.list2Start = s.list2Start.filter (fun q => decide (q ≠ p)) ∧
      u.trace = .fork p (PrcMngInfo.argv s name p) pid :: s.trace := by
  have hc := h.link p hp
  have hpool := h.pool_ne_nil hc
  obtain ⟨r, rs, hr⟩ := List.exists_cons_of_ne_nil hpool
  have hmem : r ∈ s.lists .pool := by simp [hr]
  have hpar := (h.pool r).2 hmem
  have hhead : (s.lists .pool).head? = some r := by simp [hr]
  have hok := rtStart_forked p r (PrcMngInfo.argv s name p) hexe hf
  unfold PrcMngInfo.capture RtPrcInfo.sCapture
  simp only [St.chk_pos hpool, hhead]
  rcases rtStart_cases (E := E) p r (PrcMngInfo.argv s name p) s with ⟨e', F, -, -, hs⟩ | ⟨pid', e', F, hf', -, hs⟩
  · rw [hs] at hok
    cases hok
  · rw [hf] at hf'
    cases hf'
    refine ⟨?next, ?forked, ?list, ?trace⟩
    case forked =>
      simp only [hs, lt_self_iff_false, ↓reduceIte, PrcMngInfo.delFrom2Start, St.buildBdAss, St.setRt, St.accept,
        St.chk, hc, hpar, hp, not_true_eq_false, Function.update_self, Function.update_idem, ok_bind]
      rfl
    case list => rfl
    case trace => rfl

/-- a manager that waits passes the checks of `subStart`: it has no child, and its card has a name -/
theorem subStart_forked (h : Core s) (hv : CardsValid s) {p : MngId} (hp : p ∈ s.list2Start) {pid : Pid} {e : ε}
    (hexe : s.exeName ≠ none) (hf : E.fork s.env = (some pid, e)) : ∃ u argv, PrcMngInfo.subStart E p s = .ok (0, u) ∧
      u.list2Start = s.list2Start.filter (fun q => decide (q ≠ p)) ∧ u.trace = .fork p argv pid :: s.trace := by
  unfold PrcMngInfo.subStart
  simp only [St.chk_pos (h.link p hp)]
  cases p with
  | stat i =>
    obtain ⟨u, hu, hl, htr⟩ := capture_forked h hp none hexe hf
    exact ⟨u, _, hu, hl, htr⟩
  | dyn i =>
    have hne : (s.dyn i).cardType ≠ etindevNull := h.card i hp
    have hcard : s.haveCardInserted i = true := by simpa [St.haveCardInserted] using hne
    obtain ⟨k, hk⟩ := Option.isSome_iff_exists.1 (checkType_isSome (hv i) hne)
    have hname : getCardTypeStr (s.dyn i).cardType = some (cardName k) := by simp [getCardTypeStr, hk]
    obtain ⟨u, hu, hl, htr⟩ := capture_forked h hp (some (cardName k)) hexe hf
    simp only [hcard, Bool.true_eq_false, ↓reduceIte, hname]
    exact ⟨u, _, hu, hl, htr⟩

/-- a tick that forks takes the first manager out of the list -/
theorem sCheckNeedStart_forked (h : Core s) (hv : CardsValid s) {p : MngId} {ps : List MngId}
    (hl : s.list2Start = p :: ps) {pid : Pid} {e : ε} (hexe : s.exeName ≠ none) (hf : E.fork s.env = (some pid, e))
    (ht : PrcMngInfo.sCheckNeedStart E s = .ok t) :
    t.list2Start = ps ∧ ∃ argv, t.trace = .fork p argv pid :: s.trace := by
  have hp : p ∈ s.list2Start := by simp [hl]
  have hhead : s.list2Start.head? = some p := by simp [hl]
  obtain ⟨u, argv, hu, hul, hut⟩ := subStart_forked h hv hp hexe hf
  have hrest : s.list2Start.filter (fun q => decide (q ≠ p)) = ps := by
    have hnd := h.nodup
    rw [hl] at hnd ⊢
    exact Lists.filter_ne_of_nodup (show ([] ++ p :: ps).Nodup from hnd)
  rw [hrest] at hul
  have hstart : PrcMngInfo.start E p s = .ok u := by
    unfold PrcMngInfo.start
    rw [if_neg (not_not.2 (h.link p hp)), hu]
    rfl
  unfold PrcMngInfo.sCheckNeedStart at ht
  simp only [hhead, hstart, ok_bind, Except.ok.injEq] at ht
  subst ht
  split_ifs
  · exact ⟨hul, argv, hut⟩
  · exact ⟨hul, argv, hut⟩

/-! ### Runs -/

/-- what a run of callbacks keeps that `start_in_turn` needs -/
structure Starting (s₀ s : St ε) : Prop where
  timers : TimersRun s
  cards : CardsValid s
  suffix : s₀.trace <:+ s.trace

theorem runtime_starting (hm : Runtime E ValidType s t) (h : Starting s₀ s) : Starting s₀ t :=
  ⟨runtime_timersRun hm h.timers, runtime_cardsValid hm h.cards, h.suffix.trans (hm.elim move_trace move_trace)⟩

theorem Reached.starting {es : List (Event μ)} (hr : Reached E es s)
    (hes : ∀ e ∈ es, e.runtime = true ∧ e.Observes ValidType) : Core s ∧ Starting s s := by
  obtain ⟨env, hr⟩ := hr
  obtain ⟨hcore, htimers, hcards⟩ := hr.runtime_inv (V := ValidType) (I := fun a => TimersRun a ∧ CardsValid a)
    (fun _ hx => hx) hes (fun _ _ _ _ => ⟨(ready_schedule ..).timers, fun _ => (by decide : ValidType etindevNull)⟩)
    fun a b _ hm hx => ⟨runtime_timersRun hm hx.1, runtime_cardsValid hm hx.2⟩
  exact ⟨hcore, htimers, hcards, List.suffix_rfl⟩

theorem starting_turn {es : List (Event μ)} (h : Core s) (hs : Starting s s)
    (hes : ∀ e ∈ es, e.runtime = true ∧ e.Observes ValidType) (hrun : run E s es = .ok t) {p : MngId} {n : ℕ}
    (hp : p ∈ s.list2Start.take n) : Starting s t ∧
      Within St.list2Start (fun a : St ε => Since s.trace (Served p) a.trace)
        (n - services (step E) (Starts E) s es) p t := by
  refine run_turn (q := St.list2Start) (fun a => Since s.trace (Served p) a.trace) (I := Starting s) (S := Starts E)
    (fun _ _ _ hm hx => runtime_starting hm hx) (fun _ _ _ _ ha hm hw => runtime_list2Start hm ha.suffix hw) ?_ hes h
    hs hp hrun
  intro a e b q qs hc ha hS hb hl
  cases e with
  | sCheckNeedStart =>
    obtain ⟨pid, hpid⟩ := Option.ne_none_iff_exists'.1 hS.2
    obtain ⟨hbl, argv, hbt⟩ := sCheckNeedStart_forked hc ha.cards hl hS.1 (Prod.ext hpid rfl) hb
    refine ⟨hbl, fun hpq => ?_⟩
    rw [hbt]
    exact Since.cons (P := Served p) hpq.symm ha.suffix
  | _ => cases hS

/-- **Managers are started in turn.** In every run of callbacks from a reachable state, a manager among the first n of
`s_list2Start` is forked, or its card goes, by the n-th tick of the start timer at which a process can be forked; and
as long as neither has happened, it has moved up by the number of these ticks and the timer runs. -/
theorem start_in_turn {es₀ es : List (Event μ)} (hes₀ : ∀ e ∈ es₀, e.runtime = true ∧ e.Observes ValidType)
    (hr : Reached E es₀ s) (hes : ∀ e ∈ es, e.runtime = true ∧ e.Observes ValidType) (hrun : run E s es = .ok t)
    {p : MngId} {n : ℕ} (hp : p ∈ s.list2Start.take n) :
    (n ≤ services (step E) (Starts E) s es → Since s.trace (Served p) t.trace) ∧
    (¬ Since s.trace (Served p) t.trace →
      p ∈ t.list2Start.take (n - services (step E) (Starts E) s es) ∧ t.timer .start = true) := by
  obtain ⟨hcore, hstart⟩ := hr.starting hes₀
  obtain ⟨hst, hend⟩ := starting_turn hcore hstart hes hrun hp
  refine ⟨fun hn => ?_, fun hno => ?_⟩
  · rw [Nat.sub_eq_zero_of_le hn] at hend
    exact hend.resolve_right (by simp)
  · have hmem := hend.resolve_left hno
    exact ⟨hmem, hst.timers .start fun hnil => by simp [show t.list2Start = [] from hnil] at hmem⟩

/-- five ticks after the start, the last of the static managers is forked -/
theorem start_in_turn_boot : ∃ s t, Reached (stillEnv 0) [] s ∧
    run (stillEnv 0) s (List.replicate 5 .sCheckNeedStart) = .ok t ∧
    Since s.trace (Served (.stat ⟨4, by decide⟩)) t.trace := by
  obtain ⟨s, hs, hf⟩ := exists_reached (stillEnv 0) 0 []
    (fun s => decide (MngId.stat ⟨4, by decide⟩ ∈ s.list2Start.take 5) &&
      decide (5 ≤ services (step (stillEnv 0)) (Starts (stillEnv 0)) s (List.replicate 5 .sCheckNeedStart)) &&
      (run (stillEnv 0) s (List.replicate 5 .sCheckNeedStart)).toOption.isSome) (by decide +kernel)
  simp only [Bool.and_eq_true, decide_eq_true_eq] at hf
  obtain ⟨⟨hp, hn⟩, hrun⟩ := hf
  cases ht : run (stillEnv 0) s (List.replicate 5 .sCheckNeedStart) with
  | error x => rw [ht] at hrun; cases hrun
  | ok t => exact ⟨s, t, ⟨_, hs⟩, ht, (start_in_turn (by simp) ⟨_, hs⟩ (by decide) ht hp).1 hn⟩

/-! ## The lists of processes that are to end -/

/-- the write that takes record `r` out of list `l`: to a later state, or to NULL -/
def TakenOut (l : ListId) (r : RecId) (w : RecId × PrcRtState × PrcRtState) : Prop :=
  w.1 = r ∧ (w.2.2 = .null ∨ l.state.rank < w.2.2.rank)

/-- the history of writes only grows -/
theorem move_writes {V : ETinDev → Prop} {k : Kind} (hm : Move E V k s t) : s.writes <:+ t.writes := by
  cases hm with
  | outside | timerOff | noStart | waitFail | counts | filter | goneKeep | goneWait | come | errPath | reap | sleep
  | setExit | ioctlInt | timersOff => exact List.suffix_rfl
  | capture | stopStat | stopOff | stopLost | stopAgain | kill | goneTerm | signal => exact List.suffix_cons ..

/-- no callback moves a process back in the list of those told to exit, nor in the list of those being killed -/
theorem runtime_ending {l : ListId} (hl : l = .exiting ∨ l = .killing) {r : RecId} {n : ℕ}
    (hm : Runtime E ValidType s t) (hc : Core s) (ha : Agree s) (hsuf : s₀.writes <:+ s.writes)
    (h : Within (fun a : St ε => a.lists l) (fun a : St ε => Since s₀.writes (TakenOut l r) a.writes) n r s) :
    Within (fun a : St ε => a.lists l) (fun a : St ε => Since s₀.writes (TakenOut l r) a.writes) n r t := by
  have hd : Since s₀.writes (TakenOut l r) s.writes → Since s₀.writes (TakenOut l r) t.writes :=
    fun hs => hs.mono (hm.elim move_writes move_writes)
  -- a record that goes to a later list is done, and one that comes was not in this list
  have hout : ∀ l' {r' old new}, l ≠ l' → t.lists = s.lists.accept l' r' → t.writes = (r', old, new) :: s.writes →
      (new = .null ∨ l.state.rank < new.rank) →
      Within (fun a : St ε => a.lists l) (fun a : St ε => Since s₀.writes (TakenOut l r) a.writes) n r t := by
    intro l' r' old new hne hlt hw hrank
    refine h.filter hd ((congrFun hlt l).trans (Lists.accept_other hne)) fun _ hp => ?_
    have hrr : r = r' := by simpa using hp
    show Since s₀.writes (TakenOut l r) t.writes
    rw [hw]
    exact Since.cons ⟨hrr.symm, hrank⟩ hsuf
  have hnew : ∀ {r' l'}, t.lists = s.lists.accept l' r' → r' ∉ s.lists l →
      Within (fun a : St ε => a.lists l) (fun a : St ε => Since s₀.writes (TakenOut l r) a.writes) n r t := by
    intro r' l' hlt hr'
    by_cases hll : l = l'
    · subst hll
      have hq : t.lists l = s.lists l ++ [r'] := by
        rw [hlt]
        simp [Lists.accept, Lists.addTail, Lists.unlink_of_notMem hr']
      exact h.append hd hq
    · exact h.congr hd ((congrFun hlt l).trans (Lists.accept_of_notMem hll hr'))
  rcases hm with hm | hm
  · cases hm with
    | outside | timerOff | noStart | waitFail | counts | filter | goneKeep | goneWait | come | errPath =>
      exact h.congr hd rfl
    | capture p r' name pid e F _ hr =>
      refine hnew rfl fun hr' => ?_
      rcases hl with rfl | rfl
      · cases hc.wf.disj _ _ r' hr' hr
      · cases hc.wf.disj _ _ r' hr' hr
    | stopStat | stopOff | stopLost | stopAgain =>
      exact hout .pool (by rcases hl with rfl | rfl <;> simp) rfl rfl (Or.inl rfl)
    | goneTerm i r' k e F _ _ hst =>
      refine hnew rfl fun hr' => ?_
      have hls := ha.state l r' hr'
      rw [hst] at hls
      rcases hl with rfl | rfl <;> cases hls
    | kill r' k e F hr =>
      rcases hl with rfl | rfl
      · exact hout .killing (by simp) rfl rfl (Or.inr (by decide))
      · refine hnew rfl fun hr' => ?_
        rcases hr with hr | hr
        · cases hc.wf.disj _ _ r' hr' hr
        · cases hc.wf.disj _ _ r' hr' hr
  · cases hm with
    | reap => exact h.congr hd rfl

/-- a tick of the term timer kills the first process that was told to exit -/
theorem sCheckTermTimeout_kills (h : Core s) (hn : s.needKillPrc = true) {r : RecId} {rs : List RecId}
    (hl : s.lists .exiting = r :: rs) (ht : RtPrcInfo.sCheckTermTimeout E s = .ok t) :
    t.lists .exiting = rs ∧ t.writes = (r, (s.rt r).state, .killing) :: s.writes := by
  have hhead : (s.lists .exiting).head? = some r := by simp [hl]
  have hrest : s.lists.accept .killing r .exiting = rs := Lists.accept_first h.wf (by simp) hl
  unfold RtPrcInfo.sCheckTermTimeout RtPrcInfo.sKill RtPrcInfo.signalKill at ht
  simp only [hhead, hn, Bool.true_eq_false, ↓reduceIte] at ht
  rcases signal_cases (E := E) .signalKillState .sigkill .killing r s (Or.inl rfl) with ⟨-, hs⟩ | ⟨-, F, -, -, -, hs⟩
  · rw [hs] at ht
    cases ht
  · rw [hs] at ht
    simp only [ok_bind, moveTo_eq, Except.ok.injEq] at ht
    subst ht
    split_ifs
    · exact ⟨hrest, rfl⟩
    · exact ⟨hrest, rfl⟩

/-- a manager whose process has ended gives its record back -/
theorem stop_releases (h : Core s) {p : MngId} {r : RecId} (hc : s.chld p = some r)
    (hok : RtPrcInfo.WaitOk (s.rt r).pid (E.waitpid (s.rt r).pid s.env).1) :
    ∃ u, PrcMngInfo.stop E p s = .ok u ∧ u.lists = s.lists.accept .pool r ∧
      u.writes = (r, (s.rt r).state, .null) :: s.writes := by
  have hne : ¬ s.chld p = none := by simp [hc]
  have hw : E.waitpid (s.rt r).pid s.env = ((E.waitpid (s.rt r).pid s.env).1, (E.waitpid (s.rt r).pid s.env).2) := rfl
  unfold PrcMngInfo.stop
  rw [if_neg hne]
  cases p with
  | stat i =>
    rcases subStop_stat_cases h hc hw with ⟨hno, -⟩ | ⟨-, F, -, hs⟩
    · exact absurd hok hno
    · rw [hs]
      exact ⟨_, rfl, rfl, rfl⟩
  | dyn i =>
    rcases subStop_dyn_cases h hc hw rfl rfl with
      ⟨hno, -⟩ | ⟨-, -, n, F, -, hs⟩ | ⟨-, -, -, -, n, F, -, hs⟩ | ⟨-, -, -, -, n, F, -, hs⟩
    · exact absurd hok hno
    all_goals
      rw [hs, ok_bind]
      dsimp only
      split_ifs
      · exact ⟨_, rfl, rfl, rfl⟩
      · exact ⟨_, rfl, rfl, rfl⟩

/-- a tick of the kill timer that finds the first process ended releases it -/
theorem sCheckKillTimeout_releases (h : Core s) {r : RecId} {rs : List RecId} (hl : s.lists .killing = r :: rs)
    (hok : RtPrcInfo.WaitOk (s.rt r).pid (E.waitpid (s.rt r).pid s.env).1)
    (ht : RtPrcInfo.sCheckKillTimeout E s = .ok t) :
    t.lists .killing = rs ∧ t.writes = (r, (s.rt r).state, .null) :: s.writes := by
  have hhead : (s.lists .killing).head? = some r := by simp [hl]
  have hrest : s.lists.accept .pool r .killing = rs := Lists.accept_first h.wf (by simp) hl
  obtain ⟨p, hc, hb⟩ := bury_eq (E := E) h (l := .killing) (r := r) (by simp [hl]) (by simp) .killTimeoutParent
  obtain ⟨u, hu, hul, huw⟩ := stop_releases h hc hok
  unfold RtPrcInfo.sCheckKillTimeout at ht
  simp only [hhead, hb, hu, ok_bind, Except.ok.injEq] at ht
  rw [hul] at ht
  subst ht
  split_ifs
  · exact ⟨(congrFun hul .killing).trans hrest, huw⟩
  · exact ⟨(congrFun hul .killing).trans hrest, huw⟩

/-! ### Runs -/

/-- the term timer's callback kills: the debug build does not suppress it -/
def Kills (s : St ε) : Event μ → Prop
  | .sCheckTermTimeout => s.needKillPrc = true
  | _ => False

/-- the kill timer's callback releases: the first process has ended -/
def Releases (E : Env ε μ) (s : St ε) : Event μ → Prop
  | .sCheckKillTimeout => ∀ r ∈ (s.lists .killing).head?, RtPrcInfo.WaitOk (s.rt r).pid (E.waitpid (s.rt r).pid s.env).1
  | _ => False

instance (s : St ε) : (e : Event μ) → Decidable (Kills s e)
  | .sCheckTermTimeout => inferInstanceAs (Decidable (_ = true))
  | .sCheckNeedStart | .sHello4Live | .sUpdateLiveState _ | .sCheckLiveState | .sCheckKillTimeout | .sBuryChld _
  | .handleNewType .. | .sCheckDevChange .. | .sHandleCardChange _ | .outside _ | .term4Stop _ | .kill4Stop _ | .stop _
  | .processStop => isFalse id

instance (E : Env ε μ) (s : St ε) : (e : Event μ) → Decidable (Releases E s e)
  | .sCheckKillTimeout => inferInstanceAs (Decidable (∀ r ∈ (s.lists .killing).head?, _))
  | .sCheckNeedStart | .sHello4Live | .sUpdateLiveState _ | .sCheckLiveState | .sCheckTermTimeout | .sBuryChld _
  | .handleNewType .. | .sCheckDevChange .. | .sHandleCardChange _ | .outside _ | .term4Stop _ | .kill4Stop _ | .stop _
  | .processStop => isFalse id

/-- what a run of callbacks keeps that the turns of processes need -/
structure Ending (s₀ s : St ε) : Prop where
  agree : Agree s
  timers : TimersRun s
  suffix : s₀.writes <:+ s.writes

theorem runtime_keepsEnding (hc : Core s) (hm : Runtime E ValidType s t) (h : Ending s₀ s) : Ending s₀ t :=
  ⟨runtime_agree hc hm h.agree, runtime_timersRun hm h.timers, h.suffix.trans (hm.elim move_writes move_writes)⟩

theorem Reached.ending {es : List (Event μ)} (hr : Reached E es s) (hes : ∀ e ∈ es, e.runtime = true) :
    Core s ∧ Ending s s :=
  ⟨(hr.agree hes).1, (hr.agree hes).2, (hr.schedule hes).2.timers, List.suffix_rfl⟩

/-- a tick of the term timer that serves takes the first process out of the list -/
theorem kills_serves {a b : St ε} {e : Event μ} {y : RecId} {ys : List RecId} (hc : Core a) (hS : Kills a e)
    (hb : step E a e = .ok b) (hq : a.lists .exiting = y :: ys) : b.lists .exiting = ys ∧
      b.writes = (y, (a.rt y).state, .killing) :: a.writes := by
  cases e with
  | sCheckTermTimeout => exact sCheckTermTimeout_kills hc hS hq hb
  | _ => cases hS

/-- a tick of the kill timer that serves takes the first process out of the list -/
theorem releases_serves {a b : St ε} {e : Event μ} {y : RecId} {ys : List RecId} (hc : Core a) (hS : Releases E a e)
    (hb : step E a e = .ok b) (hq : a.lists .killing = y :: ys) : b.lists .killing = ys ∧
      b.writes = (y, (a.rt y).state, .null) :: a.writes := by
  cases e with
  | sCheckKillTimeout => exact sCheckKillTimeout_releases hc hq (hS y (by simp [hq])) hb
  | _ => cases hS

/-! ### SIGKILL -/

/-- process `pid` is sent SIGKILL -/
def SigkillTo (pid : ℤ) : Call ε → Prop
  | .kill q sig _ => q = pid ∧ sig = .sigkill
  | .fork .. | .waitpid .. | .ioctl .. => False

/-- record `r` goes back to the pool -/
def GivenBack (r : RecId) (w : RecId × PrcRtState × PrcRtState) : Prop := w.1 = r ∧ w.2.2 = .null

/-- since `s₀` process `pid` was sent SIGKILL, or its record `r` was released -/
def Ended (r : RecId) (pid : ℤ) (s₀ s : St ε) : Prop :=
  Since s₀.trace (SigkillTo pid) s.trace ∨ Since s₀.writes (GivenBack r) s.writes

/-- a process that was told to exit waits, until it is sent SIGKILL or released -/
theorem runtime_waits {r : RecId} (hc : Core s) (hm : Runtime E ValidType s t) (hr : r ∈ s.lists .exiting) :
    (r ∈ t.lists .exiting ∧ (t.rt r).pid = (s.rt r).pid ∧ ¬ Since s.writes (TakenOut .exiting r) t.writes) ∨
      Ended r (s.rt r).pid s t := by
  -- another record moves to list `l`
  have hother : ∀ {r' l x old new}, r' ≠ r → t.lists = s.lists.accept l r' → t.rt = Function.update s.rt r' x →
      t.writes = (r', old, new) :: s.writes →
      r ∈ t.lists .exiting ∧ (t.rt r).pid = (s.rt r).pid ∧ ¬ Since s.writes (TakenOut .exiting r) t.writes := by
    intro r' l x old new hne hl hrt hw
    refine ⟨?_, ?_, fun hs => ?_⟩
    · rw [hl, Lists.mem_accept]
      exact Or.inl ⟨hr, hne.symm⟩
    · rw [hrt, Function.update_of_ne hne.symm]
    · rw [hw] at hs
      exact hne hs.of_cons.1
  have hstop : ∀ {r' x}, t.lists = s.lists.accept .pool r' → t.rt = Function.update s.rt r' x →
      t.writes = (r', (s.rt r').state, .null) :: s.writes →
      (r ∈ t.lists .exiting ∧ (t.rt r).pid = (s.rt r).pid ∧ ¬ Since s.writes (TakenOut .exiting r) t.writes) ∨
        Ended r (s.rt r).pid s t := by
    intro r' x hl hrt hw
    by_cases hne : r' = r
    · refine Or.inr (Or.inr ?_)
      rw [hw]
      exact Since.cons (P := GivenBack r) ⟨hne, rfl⟩ List.suffix_rfl
    · exact Or.inl (hother hne hl hrt hw)
  rcases hm with hm | hm
  · cases hm with
    | outside | timerOff | noStart | waitFail | filter | goneKeep | goneWait | come | errPath =>
      exact Or.inl ⟨hr, rfl, Since.not_refl⟩
    | counts r' x y =>
      refine Or.inl ⟨hr, ?_, Since.not_refl⟩
      by_cases hne : r = r'
      · subst hne
        simp [St.setRt]
      · simp [St.setRt, hne]
    | capture p r' name pid e F hp hpool =>
      refine Or.inl (hother ?_ rfl rfl rfl)
      rintro rfl
      cases hc.wf.disj _ _ _ hr hpool
    | stopStat | stopOff | stopLost | stopAgain => exact hstop rfl rfl rfl
    | kill r' k e F =>
      by_cases hne : r' = r
      · subst hne
        exact Or.inr (Or.inl (Since.cons (P := SigkillTo (s.rt r').pid) ⟨rfl, rfl⟩ List.suffix_rfl))
      · exact Or.inl (hother hne rfl (Function.update_idem ..) rfl)
    | goneTerm i r' k e F =>
      refine Or.inl ⟨?_, ?_, fun hs => ?_⟩
      · show r ∈ s.lists.accept .exiting r' .exiting
        rw [Lists.mem_accept]
        by_cases hne : r = r'
        · exact Or.inr ⟨hne, rfl⟩
        · exact Or.inl ⟨hr, hne⟩
      · by_cases hne : r = r'
        · subst hne
          simp [St.moved, St.signalled, St.cardOff, St.setDyn]
        · simp [St.moved, St.signalled, St.cardOff, St.setDyn, hne]
      · rcases hs.of_cons.2 with h | h
        · cases h
        · exact lt_irrefl _ h
  · cases hm with
    | reap => exact Or.inl ⟨hr, rfl, Since.not_refl⟩

/-- since `s₀` process `pid` of record `r` has waited in `s_listExiting`, or it was sent SIGKILL, or released -/
structure Told (r : RecId) (pid : ℤ) (s₀ s : St ε) : Prop where
  trace : s₀.trace <:+ s.trace
  writes : s₀.writes <:+ s.writes
  waits : (r ∈ s.lists .exiting ∧ (s.rt r).pid = pid ∧ ¬ Since s₀.writes (TakenOut .exiting r) s.writes) ∨
    Ended r pid s₀ s

theorem runtime_told {r : RecId} {pid : ℤ} (hc : Core s) (hm : Runtime E ValidType s t) (h : Told r pid s₀ s) :
    Told r pid s₀ t := by
  have htrace : s.trace <:+ t.trace := hm.elim move_trace move_trace
  have hwrites : s.writes <:+ t.writes := hm.elim move_writes move_writes
  refine ⟨h.trace.trans htrace, h.writes.trans hwrites, ?_⟩
  rcases h.waits with ⟨hr, rfl, hno⟩ | hend
  · rcases runtime_waits hc hm hr with ⟨hrt, hpid, hnot⟩ | hend
    · exact Or.inl ⟨hrt, hpid, fun hs => (hs.split h.writes hwrites).elim hno hnot⟩
    · exact Or.inr (hend.imp (fun hs => hs.weaken h.trace) fun hs => hs.weaken h.writes)
  · exact Or.inr (hend.imp (fun hs => hs.mono htrace) fun hs => hs.mono hwrites)

theorem run_told {es : List (Event μ)} {r : RecId} (hes : ∀ e ∈ es, e.runtime = true ∧ e.Observes ValidType)
    (h : Core s) (hr : r ∈ s.lists .exiting) (hrun : run E s es = .ok t) : Told r (s.rt r).pid s t := by
  have hs : Told r (s.rt r).pid s s := ⟨List.suffix_rfl, List.suffix_rfl, Or.inl ⟨hr, rfl, Since.not_refl⟩⟩
  exact (run_runtime_inv (V := ValidType) (I := Told r (s.rt r).pid s) (fun _ hx => hx)
    (fun _ _ hcore hm hx => runtime_told hcore hm hx) hes h hs hrun).2

section Turns

variable {es₀ es : List (Event μ)} {r : RecId} {n : ℕ}

/-- both timers, given what a tick that serves does to the list and to the record at its head -/
theorem ending_turn {l : ListId} {tm : TimerId} (hl : (l = .exiting ∧ tm = .term) ∨ (l = .killing ∧ tm = .kill))
    {S : St ε → Event μ → Prop} [∀ a e, Decidable (S a e)]
    (hserve : ∀ a e b y ys, Core a → S a e → step E a e = .ok b → a.lists l = y :: ys →
      b.lists l = ys ∧ ∃ old new, b.writes = (y, old, new) :: a.writes ∧ (new = .null ∨ l.state.rank < new.rank))
    (hes₀ : ∀ e ∈ es₀, e.runtime = true) (hr : Reached E es₀ s)
    (hes : ∀ e ∈ es, e.runtime = true ∧ e.Observes ValidType) (hrun : run E s es = .ok t)
    (hx : r ∈ (s.lists l).take n) :
    (n ≤ services (step E) S s es → Since s.writes (TakenOut l r) t.writes) ∧
    (¬ Since s.writes (TakenOut l r) t.writes →
      r ∈ (t.lists l).take (n - services (step E) S s es) ∧ t.timer tm = true) := by
  obtain ⟨hcore, hstart⟩ := hr.ending hes₀
  have hl' : l = .exiting ∨ l = .killing := hl.imp And.left And.left
  obtain ⟨hst, hend⟩ := run_turn (q := fun a => a.lists l) (fun a => Since s.writes (TakenOut l r) a.writes)
    (I := Ending s) (S := S) (fun _ _ hc hm hx => runtime_keepsEnding hc hm hx)
    (fun _ _ _ hc ha hm hw => runtime_ending hl' hm hc ha.agree ha.suffix hw) (fun a e b y ys hc ha hS hb hq => by
      obtain ⟨hbl, old, new, hbw, hrank⟩ := hserve a e b y ys hc hS hb hq
      refine ⟨hbl, fun hry => ?_⟩
      rw [hbw]
      exact Since.cons (P := TakenOut l r) ⟨hry.symm, hrank⟩ ha.suffix) hes hcore hstart hx hrun
  refine ⟨fun hn => ?_, fun hno => ?_⟩
  · rw [Nat.sub_eq_zero_of_le hn] at hend
    exact hend.resolve_right (by simp)
  · have hmem := hend.resolve_left hno
    have hne : t.lists l ≠ [] := fun hnil => by simp [hnil] at hmem
    refine ⟨hmem, hst.timers tm ?_⟩
    rcases hl with ⟨rfl, rfl⟩ | ⟨rfl, rfl⟩ <;> exact hne

/-- **Processes told to exit are killed in turn.** In every run of callbacks from a reachable state, a process among
the first n of `s_listExiting` is sent SIGKILL, or released, by the n-th tick of the term timer; until then it has moved
up by the number of ticks and the timer runs. -/
theorem term_in_turn (hes₀ : ∀ e ∈ es₀, e.runtime = true) (hr : Reached E es₀ s)
    (hes : ∀ e ∈ es, e.runtime = true ∧ e.Observes ValidType) (hrun : run E s es = .ok t)
    (hx : r ∈ (s.lists .exiting).take n) :
    (n ≤ services (step E) Kills s es → Ended r (s.rt r).pid s t) ∧
    (¬ Ended r (s.rt r).pid s t →
      r ∈ (t.lists .exiting).take (n - services (step E) Kills s es) ∧ t.timer .term = true) := by
  obtain ⟨hturn, hwait⟩ := ending_turn (S := Kills) (Or.inl ⟨rfl, rfl⟩) (fun a e b y ys hc hS hb hq => by
    obtain ⟨hbl, hbw⟩ := kills_serves hc hS hb hq
    exact ⟨hbl, _, _, hbw, Or.inr (by decide)⟩) hes₀ hr hes hrun hx
  rcases (run_told hes hr.core (List.mem_of_mem_take hx) hrun).waits with ⟨-, -, hno⟩ | hend
  · exact ⟨fun hn => absurd (hturn hn) hno, fun _ => hwait hno⟩
  · exact ⟨fun _ => hend, fun hno => absurd hend hno⟩

/-- a card is unplugged, and its process killed at the next tick -/
theorem term_in_turn_unplugged : ∃ s t, Reached (stillEnv 0) (startAll ++ [.handleNewType 1 etindevNull]) s ∧
    run (stillEnv 0) s [.sCheckTermTimeout] = .ok t ∧ Ended 5 (s.rt 5).pid s t := by
  obtain ⟨s, hs, hf⟩ := exists_reached (stillEnv 0) 0 (startAll ++ [.handleNewType 1 etindevNull])
    (fun s => decide (5 ∈ (s.lists .exiting).take 1) &&
      decide (1 ≤ services (step (stillEnv 0)) Kills s [.sCheckTermTimeout]) &&
      (run (stillEnv 0) s [.sCheckTermTimeout]).toOption.isSome) (by decide +kernel)
  simp only [Bool.and_eq_true, decide_eq_true_eq] at hf
  obtain ⟨⟨hp, hn⟩, hrun⟩ := hf
  cases ht : run (stillEnv 0) s [.sCheckTermTimeout] with
  | error x => rw [ht] at hrun; cases hrun
  | ok t => exact ⟨s, t, ⟨_, hs⟩, ht, (term_in_turn (by decide) ⟨_, hs⟩ (by decide) ht hp).1 hn⟩

/-- **Killed processes are released in turn.** In every run of callbacks from a reachable state, a process among the
first n of `s_listKilling` is released by the n-th tick of the kill timer that finds the head of the list ended; until
then it has moved up by the number of these ticks and the timer runs. -/
theorem kill_in_turn (hes₀ : ∀ e ∈ es₀, e.runtime = true) (hr : Reached E es₀ s)
    (hes : ∀ e ∈ es, e.runtime = true ∧ e.Observes ValidType) (hrun : run E s es = .ok t)
    (hx : r ∈ (s.lists .killing).take n) :
    (n ≤ services (step E) (Releases E) s es → Since s.writes (TakenOut .killing r) t.writes) ∧
    (¬ Since s.writes (TakenOut .killing r) t.writes →
      r ∈ (t.lists .killing).take (n - services (step E) (Releases E) s es) ∧ t.timer .kill = true) := by
  refine ending_turn (Or.inr ⟨rfl, rfl⟩) (fun a e b y ys hc hS hb hq => ?_) hes₀ hr hes hrun hx
  obtain ⟨hbl, hbw⟩ := releases_serves hc hS hb hq
  exact ⟨hbl, _, _, hbw, Or.inl rfl⟩

/-- six processes that answered no hello are killed, and the last one is released at the sixth tick -/
theorem kill_in_turn_all : ∃ s t, Reached (stillEnv 0) (startAll ++ killAll) s ∧
    run (stillEnv 0) s (List.replicate 6 .sCheckKillTimeout) = .ok t ∧
    Since s.writes (TakenOut .killing 5) t.writes := by
  obtain ⟨s, hs, hf⟩ := exists_reached (stillEnv 0) 0 (startAll ++ killAll)
    (fun s => decide (5 ∈ (s.lists .killing).take 6) &&
      decide (6 ≤ services (step (stillEnv 0)) (Releases (stillEnv 0)) s (List.replicate 6 .sCheckKillTimeout)) &&
      (run (stillEnv 0) s (List.replicate 6 .sCheckKillTimeout)).toOption.isSome) (by decide +kernel)
  simp only [Bool.and_eq_true, decide_eq_true_eq] at hf
  obtain ⟨⟨hp, hn⟩, hrun⟩ := hf
  cases ht : run (stillEnv 0) s (List.replicate 6 .sCheckKillTimeout) with
  | error x => rw [ht] at hrun; cases hrun
  | ok t => exact ⟨s, t, ⟨_, hs⟩, ht, (kill_in_turn (by decide) ⟨_, hs⟩ (by decide) ht hp).1 hn⟩

end Turns

end LinuxDrv.Pdm
