/-
The debounce filter of a slot, exactly.

`DynamicPrcMngInfo.observe` is what one observation makes of a manager's card and filter, and `handleNewType` does that
(`handleNewType_observes`). The history has every observation of the slot with the card type it met, newest first.
- `FilterInv`: without a card, m_cardTypeNew and m_cnt4Filter count the streak of equal observations that met no card;
  with a card, the history ends with the four observations that brought it, and then only with its type.
- `observe_inv`: an observation keeps it, whatever the stale counter is and whether a process is still exiting.
- `debounce_exact`: so a card comes exactly when the last four observations are its type and met no card and the manager
  has no child, it goes exactly with the first observation of another type, and the assertion never fails.
-/
import LinuxDrv.Core.History
import LinuxDrv.Pdm.Assoc
import LinuxDrv.Pdm.CardFrame
import LinuxDrv.Pdm.Restart

namespace LinuxDrv.Pdm

open LinuxDrv.Core

variable {ε μ : Type} {E : Env ε μ} {s t : St ε} {i : SlotId}

/-! ## One observation -/

/-- the card and the filter after an observation; `free` says that the manager has no child -/
def DynamicPrcMngInfo.observe (d : DynamicPrcMngInfo) (free : Bool) (o : ETinDev) : DynamicPrcMngInfo :=
  if o = d.cardType then { d with cardTypeNew := etindevNull }
  else if d.cardType ≠ etindevNull then { d with cardType := etindevNull, cardTypeNew := etindevNull }
  else if o ≠ d.cardTypeNew then { d with cardTypeNew := o, cnt4Filter := 0 }
  else if PrcMngInfo.onlineFilterCount ≤ d.cnt4Filter + 1 ∧ free = true then ⟨o, etindevNull, 0⟩
  else { d with cnt4Filter := d.cnt4Filter + 1 }

/-- the observations of a slot, newest first, each with the card type that it met -/
abbrev History := List (ETinDev × ETinDev)

/-- the counter counts the streak that met no card; a card came with a streak, and was observed since then -/
structure FilterInv (h : History) (d : DynamicPrcMngInfo) : Prop where
  waiting : d.cardType = etindevNull → ∀ T, T ≠ etindevNull →
    streak (T, etindevNull) h = if d.cardTypeNew = T then d.cnt4Filter + 1 else 0
  inserted : d.cardType ≠ etindevNull → ∃ k rest, h = List.replicate k (d.cardType, d.cardType) ++
    (List.replicate (PrcMngInfo.onlineFilterCount + 1) (d.cardType, etindevNull) ++ rest)

section Observe

variable {d : DynamicPrcMngInfo} {h : History} {T o : ETinDev} {free : Bool}

theorem observe_same (h1 : o = d.cardType) : d.observe free o = { d with cardTypeNew := etindevNull } := if_pos h1

theorem observe_gone (h1 : o ≠ d.cardType) (h2 : d.cardType ≠ etindevNull) :
    d.observe free o = { d with cardType := etindevNull, cardTypeNew := etindevNull } := by
  rw [DynamicPrcMngInfo.observe, if_neg h1, if_pos h2]

theorem observe_record (h1 : o ≠ d.cardType) (h2 : d.cardType = etindevNull) (h3 : o ≠ d.cardTypeNew) :
    d.observe free o = { d with cardTypeNew := o, cnt4Filter := 0 } := by
  rw [DynamicPrcMngInfo.observe, if_neg h1, if_neg (not_not.2 h2), if_pos h3]

theorem observe_filter (h1 : o ≠ d.cardType) (h2 : d.cardType = etindevNull) (h3 : o = d.cardTypeNew) :
    d.observe free o = if PrcMngInfo.onlineFilterCount ≤ d.cnt4Filter + 1 ∧ free = true then ⟨o, etindevNull, 0⟩
      else { d with cnt4Filter := d.cnt4Filter + 1 } := by
  rw [DynamicPrcMngInfo.observe, if_neg h1, if_neg (not_not.2 h2), if_neg (not_not.2 h3)]

/-- the observation of a type grows its streak and ends the others -/
theorem streak_cons (T o : ETinDev) (h : History) : streak (T, etindevNull) ((o, etindevNull) :: h) =
    if o = T then streak (T, etindevNull) h + 1 else 0 := by
  by_cases ho : o = T
  · subst ho
    rw [streak_cons_self, if_pos rfl]
  · rw [if_neg ho, streak_cons_of_ne fun he => ho (Prod.mk.inj he).1]

/-- a streak of four -/
theorem streak_four (T : ETinDev) (h : History) : PrcMngInfo.onlineFilterCount + 1 ≤ streak (T, etindevNull) h ↔
    h.take (PrcMngInfo.onlineFilterCount + 1) = List.replicate (PrcMngInfo.onlineFilterCount + 1) (T, etindevNull) :=
  le_streak_iff ..

/-- while nothing is inserted, a card of type T comes iff the streak of T is four -/
theorem observe_online (hinv : FilterInv h d) (hcard : d.cardType = etindevNull) (hT : T ≠ etindevNull) :
    (d.observe free o).cardType = T ↔
      free = true ∧ PrcMngInfo.onlineFilterCount + 1 ≤ streak (T, etindevNull) ((o, etindevNull) :: h) := by
  have hstreak := hinv.waiting hcard T hT
  have hnull : etindevNull ≠ T := hT.symm
  rw [streak_cons, hstreak]
  by_cases h1 : o = d.cardType
  · have ho : o ≠ T := fun he => hT (he.symm.trans (h1.trans hcard))
    rw [observe_same h1, if_neg ho, hcard]
    exact iff_of_false hnull fun hx => absurd hx.2 (by decide)
  by_cases h3 : o = d.cardTypeNew
  · rw [observe_filter h1 hcard h3, ← h3]
    by_cases ho : o = T
    · rw [if_pos ho, if_pos ho]
      by_cases hx : PrcMngInfo.onlineFilterCount ≤ d.cnt4Filter + 1 ∧ free = true
      · rw [if_pos hx]
        exact iff_of_true ho ⟨hx.2, Nat.succ_le_succ hx.1⟩
      · rw [if_neg hx]
        exact iff_of_false (fun he => hnull (hcard.symm.trans he)) fun hy => hx ⟨Nat.le_of_succ_le_succ hy.2, hy.1⟩
    · rw [if_neg ho]
      refine iff_of_false ?_ fun hx => absurd hx.2 (by decide)
      split_ifs
      · exact ho
      · exact fun he => hnull (hcard.symm.trans he)
  · rw [observe_record h1 hcard h3]
    refine iff_of_false (fun he => hnull (hcard.symm.trans he)) fun hx => ?_
    by_cases ho : o = T
    · rw [if_pos ho, if_neg fun he => h3 (ho.trans he.symm)] at hx
      exact absurd hx.2 (by decide)
    · rw [if_neg ho] at hx
      exact absurd hx.2 (by decide)

/-- a card stays while its type is observed, and goes with another type -/
theorem observe_offline (hcard : d.cardType ≠ etindevNull) :
    (d.observe free o).cardType = if o = d.cardType then d.cardType else etindevNull := by
  by_cases h1 : o = d.cardType
  · rw [observe_same h1, if_pos h1]
  · rw [observe_gone h1 hcard, if_neg h1]

/-- an observation keeps the invariant -/
theorem observe_inv (hinv : FilterInv h d) (free : Bool) (o : ETinDev) :
    FilterInv ((o, d.cardType) :: h) (d.observe free o) := by
  by_cases hcard : d.cardType = etindevNull
  · rw [hcard]
    constructor
    · -- the streak of the type that is recorded grows with the counter
      intro hstay T hT
      have hstreak := hinv.waiting hcard T hT
      rw [streak_cons, hstreak]
      by_cases h1 : o = d.cardType
      · have ho : o ≠ T := fun he => hT (he.symm.trans (h1.trans hcard))
        rw [observe_same h1, if_neg ho, if_neg hT.symm]
      by_cases h3 : o = d.cardTypeNew
      · rw [observe_filter h1 hcard h3] at hstay ⊢
        by_cases hx : PrcMngInfo.onlineFilterCount ≤ d.cnt4Filter + 1 ∧ free = true
        · rw [if_pos hx] at hstay
          exact absurd (hstay.trans hcard.symm) h1
        · rw [if_neg hx, ← h3]
          split_ifs <;> rfl
      · rw [observe_record h1 hcard h3]
        dsimp only
        by_cases ho : o = T
        · rw [if_pos ho, if_pos ho, if_neg fun he => h3 (ho.trans he.symm)]
        · rw [if_neg ho, if_neg ho]
    · -- a card has come: the streak that brought it is the begin of the history
      intro hcome
      have hfour := (streak_four _ _).1 ((observe_online hinv hcard hcome).1 rfl).2
      refine ⟨0, ((o, etindevNull) :: h).drop (PrcMngInfo.onlineFilterCount + 1), ?_⟩
      rw [List.replicate_zero, List.nil_append, ← hfour, List.take_append_drop]
  · by_cases h1 : o = d.cardType
    · rw [observe_same h1]
      obtain ⟨k, rest, hk⟩ := hinv.inserted hcard
      refine ⟨fun hx => absurd hx hcard, fun _ => ⟨k + 1, rest, ?_⟩⟩
      rw [h1, List.replicate_succ, List.cons_append, ← hk]
    · rw [observe_gone h1 hcard]
      refine ⟨fun _ T hT => ?_, fun hx => absurd rfl hx⟩
      rw [if_neg hT.symm, streak_cons_of_ne fun he => hcard (Prod.mk.inj he).2]

end Observe

/-! ## `handleNewType` -/

theorem cardGone_leaves (i : SlotId) (s : St ε) : Leaves (s.cardOff i).dyn (PrcMngInfo.cardGone E i s) := by
  rw [cardGone_eq]
  rcases s.chld (.dyn i) with _ | r
  · exact Frame.bind (delFrom2Start_leaves _ rfl) fun t ht => ht
  · dsimp only
    split_ifs
    · exact sTerm_leaves r rfl
    · rfl

theorem cardCome_leaves (i : SlotId) (new : ETinDev) {d : SlotId → DynamicPrcMngInfo}
    (hs : Function.update s.dyn i ⟨new, etindevNull, 0⟩ = d) : Leaves d (PrcMngInfo.cardCome E i new s) := by
  unfold PrcMngInfo.cardCome
  apply addIn2Start_leaves
  split_ifs <;> exact hs

/-- `handleNewType` makes of the card and the filter what an observation makes of them -/
theorem handleNewType_observes (i : SlotId) (o : ETinDev) (s : St ε) :
    Leaves (Function.update s.dyn i ((s.dyn i).observe (decide (s.chld (.dyn i) = none)) o))
      (PrcMngInfo.handleNewType E i o s) := by
  rw [handleNewType_eq]
  by_cases h1 : o = (s.dyn i).cardType
  · rw [if_pos h1, observe_same h1]
    rfl
  rw [if_neg h1]
  by_cases h2 : (s.dyn i).cardType = etindevNull
  · rw [if_neg (not_not.2 h2)]
    dsimp only
    by_cases h3 : o = (s.dyn i).cardTypeNew
    · rw [if_neg (not_not.2 h3), observe_filter h1 h2 h3]
      by_cases h4 : PrcMngInfo.onlineFilterCount ≤ (s.dyn i).cnt4Filter + 1
      · rw [if_pos h4]
        by_cases h5 : s.chld (.dyn i) = none
        · rw [if_neg (not_not.2 h5), if_pos ⟨h4, decide_eq_true h5⟩]
          exact cardCome_leaves i o (Function.update_idem ..)
        · rw [if_pos h5, if_neg fun hx => h5 (of_decide_eq_true hx.2)]
          rfl
      · rw [if_neg h4, if_neg fun hx => h4 hx.1]
        rfl
    · rw [if_pos h3, observe_record h1 h2 h3]
      rfl
  · rw [if_pos h2, observe_gone h1 h2]
    exact cardGone_leaves i s

/-- what an event hands to `handleNewType` for slot `i` -/
def Event.observation (i : SlotId) : Event μ → Option ETinDev
  | handleNewType j newCardType => if j = i then some newCardType else none
  | sCheckDevChange ret cardtype =>
    if ret < 0 ∨ PrcMngInfo.dontCareSlot i ∨ isCardTypeInvalid (cardtype i) then none else some (cardtype i)
  | sHandleCardChange c =>
    if checkSlot c.slotId = some i ∧ ¬ isCardTypeInvalid c.cardType ∧ ¬ PrcMngInfo.dontCareSlot i then some c.cardType
    else none
  | _ => none

/-- the card and the filter of slot `i` after an event -/
def observed (i : SlotId) (s : St ε) (e : Event μ) : DynamicPrcMngInfo :=
  match e.observation i with
  | some o => (s.dyn i).observe (decide (s.chld (.dyn i) = none)) o
  | none => s.dyn i

theorem Leaves.slot {d : SlotId → DynamicPrcMngInfo} {x : Except Fault (St ε)} (h : Leaves d x) (i : SlotId) :
    Frame (fun t => t.dyn i) (d i) x := by
  rcases x with e | t
  · trivial
  · exact congrFun h i

/-- what reaches `handleNewType` for slot `j` is observed in slot `i` if they are the same -/
theorem handleNewType_slot (i j : SlotId) (o : ETinDev) (s : St ε) : Frame (fun t => t.dyn i)
    (if j = i then (s.dyn i).observe (decide (s.chld (.dyn i) = none)) o else s.dyn i)
    (PrcMngInfo.handleNewType E j o s) := by
  have hslot := (handleNewType_observes (E := E) j o s).slot i
  by_cases hji : j = i
  · subst hji
    rw [Function.update_self] at hslot
    rwa [if_pos rfl]
  · rw [Function.update_of_ne (Ne.symm hji)] at hslot
    rwa [if_neg hji]

/-- `sCheckDevChange` cares for one slot -/
theorem sCheckDevChange_eq (ret : ℤ) (cardtype : SlotId → ETinDev) (s : St ε) :
    PrcMngInfo.sCheckDevChange E ret cardtype s = if ret < 0 then .ok s
      else if isCardTypeInvalid (cardtype 1) then .ok (s.chk .devChangeType False)
      else PrcMngInfo.handleNewType E 1 (cardtype 1) s := by
  have hslots : List.finRange etinSlotMax = [0, 1] := by decide
  have hround : PrcMngInfo.checkDev E cardtype s 1 = if isCardTypeInvalid (cardtype 1) then
      .ok (s.chk .devChangeType False) else PrcMngInfo.handleNewType E 1 (cardtype 1) s := rfl
  unfold PrcMngInfo.sCheckDevChange
  rw [hslots, ← hround]
  show (if ret < 0 then Except.ok s else PrcMngInfo.checkDev E cardtype s 1 >>= fun t => .ok t) = _
  rcases PrcMngInfo.checkDev E cardtype s 1 with x | t <;> rfl

theorem observed_handed {e : Event μ} {j : SlotId} {o : ETinDev}
    (hobs : e.observation i = if j = i then some o else none) (hstep : step E s e = PrcMngInfo.handleNewType E j o s) :
    Frame (fun t => t.dyn i) (observed i s e) (step E s e) := by
  have hslot := handleNewType_slot (E := E) i j o s
  rw [hstep, observed, hobs]
  by_cases hji : j = i
  · rwa [if_pos hji] at hslot ⊢
  · rwa [if_neg hji] at hslot ⊢

theorem observed_none {e : Event μ} (hobs : e.observation i = none) (hstep : Leaves s.dyn (step E s e)) :
    Frame (fun t => t.dyn i) (observed i s e) (step E s e) := by
  rw [observed, hobs]
  exact hstep.slot i

theorem dontCareSlot_eq_false {j : SlotId} : PrcMngInfo.dontCareSlot j = false ↔ j = 1 := by
  revert j
  decide

/-- **Every event observes the slot at most once**, and does with it what an observation does. -/
theorem step_observed (i : SlotId) (s : St ε) (e : Event μ) :
    Frame (fun t => t.dyn i) (observed i s e) (step E s e) := by
  by_cases hb : e.blind = true
  · apply observed_none _ (step_leaves hb s)
    cases e with
    | handleNewType | sCheckDevChange | sHandleCardChange => cases hb
    | _ => rfl
  cases e with
  | handleNewType j o => exact observed_handed rfl rfl
  | sCheckDevChange ret cardtype =>
    have hstep : step E s (.sCheckDevChange ret cardtype : Event μ) = _ := sCheckDevChange_eq ret cardtype s
    by_cases hret : ret < 0
    · rw [if_pos hret] at hstep
      exact observed_none (if_pos (Or.inl hret)) (hstep ▸ rfl)
    rw [if_neg hret] at hstep
    by_cases hty : isCardTypeInvalid (cardtype 1)
    · rw [if_pos hty] at hstep
      refine observed_none (if_pos (Or.inr ?_)) (hstep ▸ rfl)
      by_cases hi : i = 1
      · exact Or.inr (hi ▸ hty)
      · exact Or.inl (Bool.not_eq_false _ ▸ mt dontCareSlot_eq_false.1 hi)
    · rw [if_neg hty] at hstep
      refine observed_handed ?_ hstep
      by_cases hi : 1 = i
      · subst hi
        rw [if_pos rfl]
        exact if_neg fun hx => hx.elim hret fun hx => hx.elim (by decide) hty
      · rw [if_neg hi]
        exact if_pos (Or.inr (Or.inl (Bool.not_eq_false _ ▸ mt dontCareSlot_eq_false.1 (Ne.symm hi))))
  | sHandleCardChange c =>
    have hstep : step E s (.sHandleCardChange c : Event μ) = PrcMngInfo.sHandleCardChange E c s := rfl
    have hobs : (Event.sHandleCardChange c : Event μ).observation i = if checkSlot c.slotId = some i ∧
      ¬ isCardTypeInvalid c.cardType ∧ ¬ PrcMngInfo.dontCareSlot i then some c.cardType else none := rfl
    unfold PrcMngInfo.sHandleCardChange at hstep
    generalize checkSlot c.slotId = slot at hstep hobs
    rcases slot with _ | j
    · exact observed_none (hobs.trans (if_neg fun hx => by cases hx.1)) (hstep ▸ rfl)
    dsimp only at hstep
    by_cases hty : isCardTypeInvalid c.cardType
    · rw [if_pos hty] at hstep
      exact observed_none (hobs.trans (if_neg fun hx => hx.2.1 hty)) (hstep ▸ rfl)
    rw [if_neg hty] at hstep
    by_cases hcare : PrcMngInfo.dontCareSlot j
    · rw [if_pos hcare] at hstep
      refine observed_none (hobs.trans (if_neg fun hx => ?_)) (hstep ▸ rfl)
      exact hx.2.2 (Option.some.inj hx.1 ▸ hcare)
    · rw [if_neg hcare] at hstep
      refine observed_handed (hobs.trans ?_) hstep
      by_cases hji : j = i
      · subst hji
        rw [if_pos rfl, if_pos ⟨rfl, hty, hcare⟩]
      · rw [if_neg hji, if_neg fun hx => hji (Option.some.inj hx.1)]
  | _ => exact absurd rfl hb

/-! ## Runs -/

/-- an event adds what it observes in slot `i`, with the card type that is there -/
def noteCard (i : SlotId) (s : St ε) (e : Event μ) (h : History) : History :=
  match e.observation i with
  | some o => (o, (s.dyn i).cardType) :: h
  | none => h

/-- `s` is reached by the events `es`, and `h` is the history of slot `i` -/
def ReachedNoting (E : Env ε μ) (i : SlotId) (env : ε) (es : List (Event μ)) (s : St ε) (h : History) : Prop :=
  ∃ timer needKillPrc exeName selfSlot s₀, processStart (boot timer needKillPrc exeName selfSlot env) = .ok s₀ ∧
    runFrom (noting (step E) (noteCard i)) (s₀, []) es = .ok (s, h)

/-- a state that is reached has a history -/
theorem reachedFrom_noting (i : SlotId) {env : ε} {es : List (Event μ)} :
    ReachedFrom E env es s ↔ ∃ h, ReachedNoting E i env es s h := by
  constructor
  · rintro ⟨timer, needKillPrc, exeName, selfSlot, s₀, hs₀, hrun⟩
    obtain ⟨h, hrun⟩ := (runFrom_noting []).1 hrun
    exact ⟨h, timer, needKillPrc, exeName, selfSlot, s₀, hs₀, hrun⟩
  · rintro ⟨h, timer, needKillPrc, exeName, selfSlot, s₀, hs₀, hrun⟩
    exact ⟨timer, needKillPrc, exeName, selfSlot, s₀, hs₀, (runFrom_noting []).2 ⟨h, hrun⟩⟩

theorem ReachedNoting.filterInv {env : ε} {es : List (Event μ)} {h : History} (hr : ReachedNoting E i env es s h) :
    FilterInv h (s.dyn i) := by
  obtain ⟨timer, needKillPrc, exeName, selfSlot, s₀, hs₀, hrun⟩ := hr
  rw [processStart_boot] at hs₀
  cases hs₀
  refine runFrom_inv (I := fun x : St ε × History => FilterInv x.2 (x.1.dyn i)) (P := fun _ => True) ?_
    (fun _ _ => trivial) ?_ hrun
  · rintro ⟨a, ha⟩ e ⟨b, hb⟩ - hinv hstep
    obtain ⟨hstep, rfl⟩ := noting_eq_ok.1 hstep
    have hobs := step_observed (E := E) i a e
    rw [show step E a e = .ok b from hstep] at hobs
    have hdyn : b.dyn i = observed i a e := hobs
    dsimp only
    rw [hdyn, observed, noteCard]
    rcases e.observation i with _ | o
    · exact hinv
    · exact observe_inv hinv _ o
  · refine ⟨fun _ T hT => ?_, fun hx => absurd rfl hx⟩
    exact (if_neg hT.symm).symm

/-- the event `e` takes `s` to `t`, where `h` is the history of slot `i` before it -/
structure Debounced (i : SlotId) (s : St ε) (h : History) (e : Event μ) (t : St ε) : Prop where
  /-- a card of type T comes iff T was observed four times and nothing else, without a card, and no process is left -/
  online : ∀ T, T ≠ etindevNull →
    ((s.dyn i).cardType = etindevNull ∧ (t.dyn i).cardType = T ↔
      ∃ o, e.observation i = some o ∧ s.chld (.dyn i) = none ∧
        ((o, (s.dyn i).cardType) :: h).take (PrcMngInfo.onlineFilterCount + 1) =
          List.replicate (PrcMngInfo.onlineFilterCount + 1) (T, etindevNull))
  /-- a card goes iff another type is observed, and there is no other change -/
  offline : ∀ T, T ≠ etindevNull → (s.dyn i).cardType = T →
    ((t.dyn i).cardType = etindevNull ↔ ∃ o, e.observation i = some o ∧ o ≠ T) ∧
    ((t.dyn i).cardType = T ∨ (t.dyn i).cardType = etindevNull)
  /-- since it came, its type was observed only -/
  first : ∀ T, T ≠ etindevNull → (s.dyn i).cardType = T → ∃ k rest, h = List.replicate k (T, T) ++
    (List.replicate (PrcMngInfo.onlineFilterCount + 1) (T, etindevNull) ++ rest)
  asserted : .handleNewCard ∉ t.failed

/-- with a manager that waits whenever it should, `handleNewType` returns, unless SIGTERM cannot be sent -/
theorem handleNewType_returns (hc : Core s) (hw : Waiting s) (i : SlotId) (o : ETinDev) :
    (∃ t, PrcMngInfo.handleNewType E i o s = .ok t) ∨ PrcMngInfo.handleNewType E i o s = .error .exit := by
  rw [handleNewType_eq]
  by_cases h1 : o = (s.dyn i).cardType
  · rw [if_pos h1]
    exact Or.inl ⟨_, rfl⟩
  rw [if_neg h1]
  by_cases h2 : (s.dyn i).cardType = etindevNull
  · rw [if_neg (not_not.2 h2)]
    dsimp only
    split_ifs
    · exact Or.inl ⟨_, rfl⟩
    · exact Or.inl ⟨_, rfl⟩
    · -- the manager of an empty slot is in no list
      have hl : MngId.dyn i ∉ s.list2Start := fun hl => hc.card i hl h2
      unfold PrcMngInfo.cardCome
      dsimp only
      split_ifs
      · exact Or.inl ⟨_, addIn2Start_ok hl⟩
      · exact Or.inl ⟨_, addIn2Start_ok hl⟩
    · exact Or.inl ⟨_, rfl⟩
  · rw [if_pos h2, cardGone_eq]
    rcases hchld : s.chld (.dyn i) with _ | r
    · have hl : MngId.dyn i ∈ (s.cardOff i).list2Start := hw _ hchld h2
      dsimp only
      rw [PrcMngInfo.delFrom2Start, if_neg (not_not.2 hl)]
      exact Or.inl ⟨_, rfl⟩
    · dsimp only
      by_cases hst : (s.rt r).state = .normal
      · rw [if_pos hst, RtPrcInfo.sTerm, RtPrcInfo.signalTerm]
        rcases signal_cases (E := E) .signalTermState .sigterm .exiting r
          ((s.cardOff i).chk .handleState ((s.rt r).state ≠ .null)) (Or.inr rfl) with
          ⟨-, hs⟩ | ⟨-, F, -, -, -, hs⟩
        · rw [hs]
          exact Or.inr rfl
        · rw [hs]
          exact Or.inl ⟨_, rfl⟩
      · rw [if_neg hst]
        exact Or.inl ⟨_, rfl⟩

theorem ReachedNoting.debounced {env : ε} {es : List (Event μ)} {h : History} (hr : ReachedNoting E i env es s h)
    {e : Event μ} (ht : step E s e = .ok t) : Debounced i s h e t := by
  have hinv := hr.filterInv
  have hobs := step_observed (E := E) i s e
  rw [ht] at hobs
  have hdyn : t.dyn i = observed i s e := hobs
  unfold observed at hdyn
  refine ⟨fun T hT => ?_, fun T hT hcard => ?_, fun T hT hcard => ?_, ?_⟩
  · rcases ho : e.observation i with _ | o
    · rw [ho] at hdyn
      rw [hdyn]
      refine iff_of_false (fun hx => hT (hx.2.symm.trans hx.1)) ?_
      rintro ⟨o, hno, -⟩
      cases hno
    · rw [ho] at hdyn
      rw [hdyn]
      simp only [Option.some.injEq, exists_eq_left']
      by_cases hcard : (s.dyn i).cardType = etindevNull
      · rw [hcard, ← streak_four]
        exact (and_iff_right rfl).trans ((observe_online hinv hcard hT).trans (and_congr_left' decide_eq_true_iff))
      · refine iff_of_false (fun hx => hcard hx.1) fun hx => hcard ?_
        rw [PrcMngInfo.onlineFilterCount, List.take_succ_cons, List.replicate_succ] at hx
        exact (Prod.mk.inj (List.cons.inj hx.2).1).2
  · have hne : (s.dyn i).cardType ≠ etindevNull := hcard ▸ hT
    rcases ho : e.observation i with _ | o
    · rw [ho] at hdyn
      rw [hdyn, hcard]
      refine ⟨iff_of_false hT ?_, Or.inl rfl⟩
      rintro ⟨o, hno, -⟩
      cases hno
    · rw [ho] at hdyn
      dsimp only at hdyn
      rw [hdyn, observe_offline hne, hcard]
      simp only [Option.some.injEq, exists_eq_left']
      by_cases hoT : o = T
      · rw [if_pos hoT]
        exact ⟨iff_of_false hT (not_not.2 hoT), Or.inl rfl⟩
      · rw [if_neg hoT]
        exact ⟨iff_of_true rfl hoT, Or.inr rfl⟩
  · have hin := hinv.inserted (hcard ▸ hT)
    rwa [hcard] at hin
  · obtain ⟨hc, hasserts⟩ := ((reachedFrom_noting i).2 ⟨h, hr⟩).inv (I := fun s => ∀ a ∈ assocAsserts, a ∉ s.failed)
      (fun _ _ _ _ a _ => List.not_mem_nil) fun _ _ _ _ hm h => move_assocAsserts hm h
    have hrun : run E s [e] = .ok t := by
      rw [run, runFrom_cons, ht]
      rfl
    exact (run_inv (fun _ _ _ _ hm h => move_assocAsserts hm h) hc hasserts hrun).2 .handleNewCard (by decide)

/-- **The debounce filter, exactly.** In every run, whatever starts, restarts and burials come between the observations:
a card of type T comes while an observation is handled iff the manager has no child and the last four observations are T
and met no card; a card goes iff an observation is of another type, which is the first since it came; and the assertion
of `handleNewType` never fails. If the ioctls succeed, `handleNewType` returns in every run of callbacks, unless the
SIGTERM for its process cannot be sent. -/
theorem debounce_exact {env : ε} {es : List (Event μ)} {h : History} (hr : ReachedNoting E i env es s h) :
    (∀ e t, step E s e = .ok t → Debounced i s h e t) ∧
    ((∀ arg e, 0 ≤ (E.ioctl arg e).1) → (∀ e ∈ es, e.runtime = true) → ∀ o,
      (∃ t, PrcMngInfo.handleNewType E i o s = .ok t) ∨ PrcMngInfo.handleNewType E i o s = .error .exit) := by
  refine ⟨fun e t ht => hr.debounced ht, fun hio hes o => ?_⟩
  have hreached : Reached E es s := ⟨env, (reachedFrom_noting i).2 ⟨h, hr⟩⟩
  obtain ⟨hc, hs, hok⟩ := hreached.runtime_inv (I := fun s => Schedule s ∧ RestartsOk s.trace) hes
    (fun _ _ _ _ _ => ⟨ready_schedule .., fun _ hm => absurd hm List.not_mem_nil⟩)
    fun a b _ hm h => ⟨runtime_schedule hm h.1, runtime_restartsOk hio hm h.2⟩
  exact handleNewType_returns hc (hs.waiting hok) i o

/-- a card is observed three times without coming, and comes with the fourth observation -/
theorem debounce_exact_come : ∃ s t, ReachedNoting (stillEnv 0) 1 0 (List.replicate 3 (.handleNewType 1 etindevMio)) s
      (List.replicate 3 (etindevMio, etindevNull)) ∧
    step (stillEnv 0) s (.handleNewType 1 etindevMio) = .ok t ∧
    (s.dyn 1).cardType = etindevNull ∧ (t.dyn 1).cardType = etindevMio := by
  have hrun : (runFrom (noting (step (stillEnv 0)) (noteCard 1))
      ((boot (fun _ => false) true (some "pdm") 0 0).ready, [])
      (List.replicate 3 (.handleNewType 1 etindevMio))).toOption.any (fun x =>
        decide (x.2 = List.replicate 3 (etindevMio, etindevNull)) && decide (x.1.chld (.dyn 1) = none) &&
        decide ((x.1.dyn 1).cardType = etindevNull) &&
        (step (stillEnv 0) x.1 (.handleNewType 1 etindevMio)).toOption.isSome) = true := by
    decide +kernel
  rcases hx : runFrom (noting (step (stillEnv 0)) (noteCard 1))
    ((boot (fun _ => false) true (some "pdm") 0 0).ready, [])
    (List.replicate 3 (.handleNewType 1 etindevMio)) with x | ⟨s, h⟩
  · rw [hx] at hrun
    cases hrun
  rw [hx] at hrun
  simp only [Except.toOption, Option.any_some, Bool.and_eq_true, decide_eq_true_eq] at hrun
  obtain ⟨⟨⟨rfl, hchld⟩, hcard⟩, hstep⟩ := hrun
  have hr : ReachedNoting (stillEnv 0) 1 0 (List.replicate 3 (.handleNewType 1 etindevMio)) s
      (List.replicate 3 (etindevMio, etindevNull)) := ⟨_, _, _, _, _, processStart_boot .., hx⟩
  rcases ht : step (stillEnv 0) s (.handleNewType 1 etindevMio) with x | t
  · rw [ht] at hstep
    cases hstep
  · have honline := ((debounce_exact hr).1 _ t ht).online etindevMio (by decide)
    obtain ⟨-, hcome⟩ := honline.2 ⟨etindevMio, rfl, hchld, by rw [hcard]; rfl⟩
    exact ⟨s, t, hr, ht, hcard, hcome⟩

end LinuxDrv.Pdm
