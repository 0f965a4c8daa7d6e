/-
Hello supervision, exactly: whom `sCheckLiveState` kills.

A run is any interleaving of hellos, acks, captures, terms, kills, releases and live checks, on any records, from
`sInitPool` on, with `s_needKillPrc` set. Its history has the ticks, the acks with their pid, the captures with their
record and the checks, newest first; `ticks` and `acks` count in it since a record was captured or a check was made.
- `sHello4Live_spec`, `sUpdateLiveState_spec`, `sCheckLiveState_cases`: what the three callbacks do to the records. The
  last is the loop over the list as it stood at the start, although a killed record leaves the list.
- `LiveInv`: the counters of a record of `s_listNormal` are its ticks and its acks; the others are zero.
- `hello_supervision`: so a check kills exactly the records of `s_listNormal` that miss five acks.
-/
import LinuxDrv.Core.History
import LinuxDrv.Pdm.Outcomes

namespace LinuxDrv.Pdm

open LinuxDrv.Core

variable {ε μ : Type} {E : Env ε μ} {s t : St ε}

/-! ## Operations -/

inductive LiveOp (μ : Type) where
  | sHello4Live
  | sUpdateLiveState (pid : ℤ)
  | sCheckLiveState
  | sCapture (p : MngId) (argv : List (Option String))
  | sTerm (r : RecId)
  | sKill (r : RecId)
  | sRelease (r : RecId)
  | outside (m : μ)

def liveStep (E : Env ε μ) (s : St ε) : LiveOp μ → Except Fault (St ε)
  | .sHello4Live => RtPrcInfo.sHello4Live s
  | .sUpdateLiveState pid => .ok (RtPrcInfo.sUpdateLiveState pid s)
  | .sCheckLiveState => RtPrcInfo.sCheckLiveState E s
  | .sCapture p argv => .ok (RtPrcInfo.sCapture E p argv s).2
  | .sTerm r => RtPrcInfo.sTerm E r s
  | .sKill r => RtPrcInfo.sKill E r s
  | .sRelease r => RtPrcInfo.sRelease E r s >>= fun x => .ok x.2
  | .outside m => .ok { s with env := E.outside m s.env }

/-- no two processes in `s_listNormal` have one pid -/
def DistinctPids (s : St ε) : Prop :=
  ∀ r ∈ s.lists .normal, ∀ r' ∈ s.lists .normal, (s.rt r).pid = (s.rt r').pid → r = r'

instance (s : St ε) : Decidable (DistinctPids s) :=
  inferInstanceAs (Decidable (∀ r ∈ s.lists .normal, ∀ r' ∈ s.lists .normal, _ → _))

/-! ## History -/

inductive LiveEvent where
  | tick
  | ack (pid : ℤ)
  | captured (r : RecId)
  | checked
deriving DecidableEq

/-- what an operation adds to the history -/
def noteLive (E : Env ε μ) (s : St ε) (op : LiveOp μ) (h : List LiveEvent) : List LiveEvent :=
  match op with
  | .sHello4Live => .tick :: h
  | .sUpdateLiveState pid => .ack pid :: h
  | .sCheckLiveState => .checked :: h
  | .sCapture p argv =>
    match (s.lists .pool).head? with
    | some r => if 0 ≤ (RtPrcInfo.sCapture E p argv s).1 then .captured r :: h else h
    | none => h
  | _ => h

/-- a count for record `r` starts with its capture or with a check -/
def Restarts (r : RecId) (x : LiveEvent) : Prop := x = .captured r ∨ x = .checked

instance (r : RecId) : DecidablePred (Restarts r) := fun _ => inferInstanceAs (Decidable (_ ∨ _))

/-- the ticks of `sHello4Live` since the capture of `r` or the last check -/
def ticks (r : RecId) (h : List LiveEvent) : ℕ := countSince (Restarts r) (fun x => x = .tick) h

/-- the acks from `pid` since the capture of `r` or the last check -/
def acks (r : RecId) (pid : ℤ) (h : List LiveEvent) : ℕ := countSince (Restarts r) (fun x => x = .ack pid) h

theorem not_restarts_tick (r : RecId) : ¬ Restarts r .tick := by simp [Restarts]

theorem not_restarts_ack (r : RecId) (pid : ℤ) : ¬ Restarts r (.ack pid) := by simp [Restarts]

theorem counts_tick (r : RecId) (pid : ℤ) (h : List LiveEvent) :
    ticks r (.tick :: h) = ticks r h + 1 ∧ acks r pid (.tick :: h) = acks r pid h := by
  constructor
  · rw [ticks, countSince_cons (not_restarts_tick r), if_pos rfl, ticks]
  · rw [acks, countSince_cons (not_restarts_tick r), if_neg (by simp), acks, add_zero]

theorem counts_ack (r : RecId) (pid z : ℤ) (h : List LiveEvent) : ticks r (.ack z :: h) = ticks r h ∧
    acks r pid (.ack z :: h) = acks r pid h + if z = pid then 1 else 0 := by
  constructor
  · rw [ticks, countSince_cons (not_restarts_ack r z), if_neg (by simp), ticks, add_zero]
  · rw [acks, countSince_cons (not_restarts_ack r z), acks]
    simp

theorem counts_restart {r : RecId} {x : LiveEvent} (hx : Restarts r x) (pid : ℤ) (h : List LiveEvent) :
    ticks r (x :: h) = 0 ∧ acks r pid (x :: h) = 0 :=
  ⟨countSince_cons_reset hx h, countSince_cons_reset hx h⟩

/-- the capture of another record -/
theorem counts_other {r r' : RecId} (hr : r' ≠ r) (pid : ℤ) (h : List LiveEvent) :
    ticks r (.captured r' :: h) = ticks r h ∧ acks r pid (.captured r' :: h) = acks r pid h := by
  have hno : ¬ Restarts r (.captured r') := by simp [Restarts, hr]
  constructor
  · rw [ticks, countSince_cons hno, if_neg (by simp), ticks, add_zero]
  · rw [acks, countSince_cons hno, if_neg (by simp), acks, add_zero]

/-! ## The callbacks -/

/-- the records of `done` have had a tick since `s` -/
structure Ticked (s : St ε) (done : List RecId) (u : St ε) : Prop where
  lists : u.lists = s.lists
  needKillPrc : u.needKillPrc = s.needKillPrc
  rt : ∀ r, u.rt r = if r ∈ done then { s.rt r with nExpTimes := (s.rt r).nExpTimes + 1 } else s.rt r

/-- a tick reaches the records of `s_listNormal`, and nothing else changes of the records -/
theorem sHello4Live_spec (hwf : s.lists.Wf) :
    ∃ t, RtPrcInfo.sHello4Live s = .ok t ∧ Ticked s (s.lists .normal) t := by
  have hloop : RtPrcInfo.sHello4Live s = (s.lists .normal).foldlM (fun s r => .ok (RtPrcInfo.sendHello r s)) s := by
    apply Lists.traverse_eq_foldlM mem_listIds (J := fun s => s.lists.Wf) (fun _ h => h) _ hwf
    rintro u r v hu - ⟨⟩
    exact ⟨hu, Or.inl rfl⟩
  have hnd := hwf.nodup .normal
  rw [hloop]
  have hround : ∀ done r rest u, done ++ r :: rest = s.lists .normal → Ticked s done u →
      ∃ v, (.ok (RtPrcInfo.sendHello r u) : Except Fault (St ε)) = .ok v ∧ Ticked s (done ++ [r]) v := by
    rintro done r rest u hsplit ⟨hl, hn, hrt⟩
    refine ⟨_, rfl, hl, hn, fun r' => ?_⟩
    have hr : r ∉ done := by
      rw [← hsplit] at hnd
      exact fun hm => (List.nodup_append'.1 hnd).2.2 hm List.mem_cons_self
    by_cases hne : r' = r
    · subst hne
      rw [if_pos (List.mem_append_right _ (List.mem_singleton_self r'))]
      have hu := hrt r'
      rw [if_neg hr] at hu
      rw [← hu]
      exact Function.update_self ..
    · have hmem : r' ∈ done ++ [r] ↔ r' ∈ done := by simp [hne]
      simp only [hmem]
      exact (Function.update_of_ne hne ..).trans (hrt r')
  have h0 : Ticked s [] s := ⟨rfl, rfl, fun r => (if_neg List.not_mem_nil).symm⟩
  exact foldlM_done_total hround h0

/-- an ack reaches the record with its pid -/
theorem sUpdateLiveState_spec (hpids : DistinctPids s) (pid : ℤ) :
    (RtPrcInfo.sUpdateLiveState pid s).lists = s.lists ∧
    (RtPrcInfo.sUpdateLiveState pid s).needKillPrc = s.needKillPrc ∧
    ∀ r, (RtPrcInfo.sUpdateLiveState pid s).rt r = if r ∈ s.lists .normal ∧ pid = (s.rt r).pid then
      { s.rt r with nRealTimes := (s.rt r).nRealTimes + 1 } else s.rt r := by
  unfold RtPrcInfo.sUpdateLiveState
  rcases hf : RtPrcInfo.sFindObj s .normal pid with _ | r₀
  · refine ⟨rfl, rfl, fun r => (if_neg ?_).symm⟩
    rintro ⟨hr, hpid⟩
    have hno := List.find?_eq_none.1 hf r hr
    exact hno (decide_eq_true hpid.symm)
  · obtain ⟨hr₀, hpid₀⟩ := sFindObj_some hf
    refine ⟨rfl, rfl, fun r => ?_⟩
    by_cases hr : r = r₀
    · subst hr
      rw [if_pos ⟨hr₀, hpid₀.symm⟩]
      exact Function.update_self ..
    · rw [if_neg fun hx => hr (hpids r hx.1 r₀ hr₀ (hx.2.symm.trans hpid₀.symm))]
      exact Function.update_of_ne hr ..

/-- the process has missed too many acks -/
def Missed (x : RtPrcInfo) : Prop := RtPrcInfo.isLive x RtPrcInfo.diffSpvHello = false

instance (x : RtPrcInfo) : Decidable (Missed x) := inferInstanceAs (Decidable (_ = _))

/-- the signal that a call sends -/
def Call.sent : Call ε → Option (ℤ × Sig)
  | kill pid sig _ => some (pid, sig)
  | _ => none

/-- the records of `done` have been examined since `s` -/
structure Checked (s : St ε) (done : List RecId) (u : St ε) : Prop where
  wf : u.lists.Wf
  needKillPrc : u.needKillPrc = s.needKillPrc
  rt : ∀ r, u.rt r = if r ∈ done then
    { s.rt r with state := if Missed (s.rt r) then .killing else (s.rt r).state, nExpTimes := 0, nRealTimes := 0 }
    else s.rt r
  mem : ∀ l r, r ∈ u.lists l ↔ if r ∈ done ∧ Missed (s.rt r) then l = .killing else r ∈ s.lists l
  sent : ∃ cs, u.trace = cs ++ s.trace ∧
    cs.map Call.sent = (done.filter fun r => decide (Missed (s.rt r))).reverse.map fun r => some ((s.rt r).pid, .sigkill)

/-- the counters are cleared; or the process is killed, unless the signal cannot be sent -/
theorem checkLive_cases (hn : s.needKillPrc = true) (r : RecId) :
    (¬ Missed (s.rt r) ∧ RtPrcInfo.checkLive E r s = .ok (s.clrTimes r)) ∨
    (Missed (s.rt r) ∧
      (((E.kill (s.rt r).pid .sigkill s.env).1 < 0 ∧ RtPrcInfo.checkLive E r s = .error .exit) ∨
        ∃ e F, RtPrcInfo.checkLive E r s =
          .ok { (s.signalled r .sigkill .killing e).moved .killing .kill r with failed := F })) := by
  unfold RtPrcInfo.checkLive
  by_cases hlive : RtPrcInfo.isLive (s.rt r) RtPrcInfo.diffSpvHello = true
  · rw [if_pos hlive]
    exact Or.inl ⟨by simp [Missed, hlive], rfl⟩
  · rw [if_neg hlive]
    refine Or.inr ⟨Bool.eq_false_iff.2 hlive, ?_⟩
    rw [RtPrcInfo.sKill, if_neg (by simp [hn]), RtPrcInfo.signalKill]
    rcases signal_cases (E := E) .signalKillState .sigkill .killing r s (Or.inl rfl) with ⟨hk, hs⟩ | ⟨-, F, -, -, -, hs⟩
    · rw [hs]
      exact Or.inl ⟨hk, rfl⟩
    · rw [hs]
      refine Or.inr ⟨(E.kill (s.rt r).pid .sigkill s.env).2, F, ?_⟩
      simp only [ok_bind, moveTo_eq]
      rfl

theorem checkLive_lists {r : RecId} (ht : RtPrcInfo.checkLive E r s = .ok t) :
    t.lists = s.lists ∨ t.lists = s.lists.accept .killing r := by
  unfold RtPrcInfo.checkLive at ht
  split_ifs at ht
  · cases ht
    exact Or.inl rfl
  · exact sKill_lists ht

/-- **A live check is the loop over the records that were in the list when it started**, once each and in order. -/
theorem sCheckLiveState_eq (hwf : s.lists.Wf) :
    RtPrcInfo.sCheckLiveState E s = (s.lists .normal).foldlM (fun s r => RtPrcInfo.checkLive E r s) s := by
  apply Lists.traverse_eq_foldlM mem_listIds (J := fun s => s.lists.Wf) (fun _ h => h) _ hwf
  intro u r v hu _ hv
  rcases checkLive_lists hv with hl | hl
  · exact ⟨hl ▸ hu, Or.inl (congrFun hl .normal)⟩
  · refine ⟨hl ▸ hu.accept .killing r, Or.inr ?_⟩
    rw [hl, Lists.accept_other (by simp)]

theorem checkLive_round {done : List RecId} {r : RecId} {u v : St ε} (hn : s.needKillPrc = true) (hr : r ∉ done)
    (hu : Checked s done u) (hv : RtPrcInfo.checkLive E r u = .ok v) : Checked s (done ++ [r]) v := by
  have hur : u.rt r = s.rt r := by rw [hu.rt, if_neg hr]
  have hself : r ∈ done ++ [r] := List.mem_append_right _ (List.mem_singleton_self r)
  have hmem : ∀ r', r' ≠ r → (r' ∈ done ++ [r] ↔ r' ∈ done) := fun r' hne => by simp [hne]
  have hold : ∀ l, r ∈ u.lists l ↔ r ∈ s.lists l := fun l => by rw [hu.mem, if_neg fun hx => hr hx.1]
  obtain ⟨cs, htrace, hsent⟩ := hu.sent
  have hcases := checkLive_cases (E := E) (hu.needKillPrc.trans hn) r
  rw [hv, hur] at hcases
  rcases hcases with ⟨hlive, heq⟩ | ⟨hmiss, ⟨-, heq⟩ | ⟨e, F, heq⟩⟩
  · cases heq
    refine ⟨hu.wf, hu.needKillPrc, fun r' => ?_, fun l r' => ?_, cs, htrace, ?_⟩
    · by_cases hne : r' = r
      · subst hne
        rw [if_pos hself, if_neg hlive, ← hur]
        exact Function.update_self ..
      · simp only [hmem r' hne]
        exact (Function.update_of_ne hne ..).trans (hu.rt r')
    · by_cases hne : r' = r
      · subst hne
        rw [if_neg fun hx => hlive hx.2]
        exact hold l
      · simp only [hmem r' hne]
        exact hu.mem l r'
    · rw [hsent, List.filter_append, List.filter_cons_of_neg (by simpa using hlive), List.filter_nil, List.append_nil]
  · cases heq
  · cases heq
    refine ⟨hu.wf.accept .killing r, hu.needKillPrc, fun r' => ?_, fun l r' => ?_, ?_⟩
    · by_cases hne : r' = r
      · subst hne
        rw [if_pos hself, if_pos hmiss, ← hur]
        simp [St.moved, St.signalled]
      · simp only [hmem r' hne]
        refine Eq.trans ?_ (hu.rt r')
        simp [St.moved, St.signalled, hne]
    · have haccept : r' ∈ u.lists.accept .killing r l ↔ (r' ∈ u.lists l ∧ r' ≠ r) ∨ (r' = r ∧ l = .killing) :=
        Lists.mem_accept
      refine haccept.trans ?_
      by_cases hne : r' = r
      · subst hne
        rw [if_pos ⟨hself, hmiss⟩]
        simp
      · simp only [hmem r' hne]
        simpa [hne] using hu.mem l r'
    · refine ⟨.kill (u.rt r).pid .sigkill u.env :: cs, congrArg (_ :: ·) htrace, ?_⟩
      rw [List.map_cons, hsent, List.filter_append, List.filter_cons_of_pos (by simpa using hmiss), List.filter_nil,
        List.reverse_append, hur]
      rfl

/-- SIGKILL cannot be sent to some process -/
def KillFails (E : Env ε μ) : Prop := ∃ pid e, (E.kill pid .sigkill e).1 < 0

/-- the only fault is a signal that cannot be sent -/
theorem checkLive_error {r : RecId} {x : Fault} (h : RtPrcInfo.checkLive E r s = .error x) :
    KillFails E ∧ x = .exit := by
  by_cases hn : s.needKillPrc = true
  · rcases checkLive_cases (E := E) hn r with ⟨-, heq⟩ | ⟨-, ⟨hk, heq⟩ | ⟨e, F, heq⟩⟩
    · rw [heq] at h
      cases h
    · rw [heq] at h
      cases h
      exact ⟨⟨_, _, hk⟩, rfl⟩
    · rw [heq] at h
      cases h
  · unfold RtPrcInfo.checkLive RtPrcInfo.sKill at h
    rw [if_pos (Bool.eq_false_iff.2 hn)] at h
    split_ifs at h

/-- a live check that returns has examined every record of the list; one that does not exits -/
theorem sCheckLiveState_cases (hwf : s.lists.Wf) (hn : s.needKillPrc = true) :
    (KillFails E ∧ RtPrcInfo.sCheckLiveState E s = .error .exit) ∨
    ∃ t, RtPrcInfo.sCheckLiveState E s = .ok t ∧ Checked s (s.lists .normal) t := by
  have hnd := hwf.nodup .normal
  have hround : ∀ done r rest u v, done ++ r :: rest = s.lists .normal → Checked s done u →
      RtPrcInfo.checkLive E r u = .ok v → Checked s (done ++ [r]) v := by
    intro done r rest u v hsplit hu hv
    rw [← hsplit] at hnd
    exact checkLive_round hn (fun hm => (List.nodup_append'.1 hnd).2.2 hm List.mem_cons_self) hu hv
  have h0 : Checked s [] s := by
    refine ⟨hwf, rfl, fun r => (if_neg List.not_mem_nil).symm, fun l r => ?_, [], rfl, rfl⟩
    rw [if_neg fun hx => List.not_mem_nil hx.1]
  have hfault : Outcome (fun _ _ : St ε => True) (fun _ x => KillFails E ∧ x = .exit) s
      (RtPrcInfo.sCheckLiveState E s) := by
    rw [sCheckLiveState_eq hwf]
    refine Outcome.foldlM fun u r _ _ => ?_
    rcases hx : RtPrcInfo.checkLive E r u with x | v
    · exact Outcome.fault (checkLive_error hx)
    · exact Outcome.move trivial
  rcases hrun : RtPrcInfo.sCheckLiveState E s with x | t
  · rw [hrun] at hfault
    obtain ⟨-, -, hk, rfl⟩ := hfault
    exact Or.inl ⟨hk, rfl⟩
  · rw [sCheckLiveState_eq hwf] at hrun
    exact Or.inr ⟨t, rfl, foldlM_done hround h0 hrun⟩

/-! ## Captures, terms, kills and releases -/

/-- nothing changed of the records -/
structure Unmoved (s t : St ε) : Prop where
  lists : t.lists = s.lists
  needKillPrc : t.needKillPrc = s.needKillPrc
  rt : t.rt = s.rt

/-- record `r` is taken to list `l`, with its counters cleared -/
structure Left (s : St ε) (l : ListId) (r : RecId) (t : St ε) : Prop where
  lists : t.lists = s.lists.accept l r
  needKillPrc : t.needKillPrc = s.needKillPrc
  rt : ∃ x : RtPrcInfo, t.rt = Function.update s.rt r x ∧ x.nExpTimes = 0 ∧ x.nRealTimes = 0

/-- record `r` of the pool is taken to `s_listNormal`, with its counters as they are -/
structure Captured (s : St ε) (r : RecId) (t : St ε) : Prop where
  lists : t.lists = s.lists.accept .normal r
  needKillPrc : t.needKillPrc = s.needKillPrc
  rt : ∃ x : RtPrcInfo, t.rt = Function.update s.rt r x ∧ x.nExpTimes = (s.rt r).nExpTimes ∧
    x.nRealTimes = (s.rt r).nRealTimes

theorem sCapture_cases (p : MngId) (argv : List (Option String)) (s : St ε) :
    ((∀ r ∈ (s.lists .pool).head?, (RtPrcInfo.sCapture E p argv s).1 < 0) ∧
      Unmoved s (RtPrcInfo.sCapture E p argv s).2) ∨
    ∃ r, (s.lists .pool).head? = some r ∧ 0 ≤ (RtPrcInfo.sCapture E p argv s).1 ∧
      Captured s r (RtPrcInfo.sCapture E p argv s).2 := by
  rcases hhead : (s.lists .pool).head? with _ | r
  · refine Or.inl ⟨fun r hr => (by cases hr), ?_⟩
    have heq : RtPrcInfo.sCapture E p argv s =
        (-1, (s.chk .capturePool (s.lists .pool ≠ [])).chk .captureFirst False) := by
      unfold RtPrcInfo.sCapture
      dsimp only [St.chk]
      rw [hhead]
    rw [heq]
    exact ⟨rfl, rfl, rfl⟩
  · have heq : RtPrcInfo.sCapture E p argv s =
        let x := RtPrcInfo.start E p r argv (s.chk .capturePool (s.lists .pool ≠ []))
        if x.1 < 0 then (-1, x.2.chk .captureStart False) else (0, (x.2.buildBdAss p r).accept .normal r) := by
      unfold RtPrcInfo.sCapture
      dsimp only [St.chk]
      rw [hhead]
    rcases rtStart_cases (E := E) p r argv (s.chk .capturePool (s.lists .pool ≠ [])) with
      ⟨e, F, -, -, hs⟩ | ⟨pid, e, F, -, -, hs⟩
    · rw [hs] at heq
      rw [heq]
      refine Or.inl ⟨fun r' _ => ?_, rfl, rfl, rfl⟩
      show (-1 : ℤ) < 0
      decide
    · rw [hs] at heq
      rw [heq]
      refine Or.inr ⟨r, rfl, le_refl 0, rfl, rfl, _, Function.update_idem .., ?_⟩
      simp [St.chk]

theorem signal_left {a : Assert} (ha : a = .signalKillState ∨ a = .signalTermState) {sig : Sig} {new : PrcRtState}
    {l : ListId} {tm : TimerId} {r : RecId}
    (ht : (RtPrcInfo.signal E a sig new r s >>= fun s => .ok (RtPrcInfo.moveTo l tm r s)) = .ok t) : Left s l r t := by
  rcases signal_cases (E := E) a sig new r s ha with ⟨-, hs⟩ | ⟨-, F, -, -, -, hs⟩
  · rw [hs] at ht
    cases ht
  · rw [hs] at ht
    simp only [ok_bind, moveTo_eq] at ht
    cases ht
    exact ⟨rfl, rfl, _, Function.update_idem .., rfl, rfl⟩

theorem sKill_left {r : RecId} (hn : s.needKillPrc = true) (ht : RtPrcInfo.sKill E r s = .ok t) :
    Left s .killing r t := by
  rw [RtPrcInfo.sKill, if_neg (by simp [hn])] at ht
  exact signal_left (Or.inl rfl) ht

theorem rtStop_cases (r : RecId) (s : St ε) :
    ((RtPrcInfo.stop E r s).1 < 0 ∧ Unmoved s (RtPrcInfo.stop E r s).2) ∨
    (0 ≤ (RtPrcInfo.stop E r s).1 ∧ (RtPrcInfo.stop E r s).2.lists = s.lists ∧
      (RtPrcInfo.stop E r s).2.needKillPrc = s.needKillPrc ∧
      ∃ x, (RtPrcInfo.stop E r s).2.rt = Function.update s.rt r x) := by
  unfold RtPrcInfo.stop
  dsimp only
  split_ifs
  · exact Or.inr ⟨le_refl 0, rfl, rfl, _, Function.update_idem ..⟩
  · exact Or.inl ⟨(by decide : (-1 : ℤ) < 0), rfl, rfl, rfl⟩

theorem sRelease_left {r : RecId} {n : ℤ} (ht : RtPrcInfo.sRelease E r s = .ok (n, t)) :
    Unmoved s t ∨ Left s .pool r t := by
  unfold RtPrcInfo.sRelease at ht
  dsimp only at ht
  rcases rtStop_cases (E := E) r s with ⟨hret, hun⟩ | ⟨hret, hl, hn, x, hrt⟩
  · rw [if_pos hret] at ht
    cases ht
    exact Or.inl ⟨hun.lists, hun.needKillPrc, hun.rt⟩
  · rw [if_neg (not_lt.2 hret)] at ht
    rcases hpar : ((RtPrcInfo.stop E r s).2.rt r).pParent with _ | p
    · rw [hpar] at ht
      cases ht
    · rw [hpar] at ht
      cases ht
      set u := (RtPrcInfo.stop E r s).2
      have hacc : (u.lists).accept .pool r = s.lists.accept .pool r := by rw [hl]
      have hclear : (((u.destroyBdAss p r).clrTimes r).accept .pool r).rt = Function.update s.rt r
          { (u.destroyBdAss p r).rt r with nExpTimes := 0, nRealTimes := 0 } := by
        show Function.update (Function.update u.rt r _) r _ = _
        rw [hrt, Function.update_idem, Function.update_idem]
      exact Or.inr ⟨hacc, hn, _, hclear, rfl, rfl⟩

/-! ## What every run keeps -/

structure LiveInv (h : List LiveEvent) (s : St ε) : Prop where
  wf : s.lists.Wf
  needKillPrc : s.needKillPrc = true
  /-- outside `s_listNormal` the counters are zero -/
  zero : ∀ r, r ∉ s.lists .normal → (s.rt r).nExpTimes = 0 ∧ (s.rt r).nRealTimes = 0
  /-- inside they are the ticks and the acks -/
  tally : ∀ r, r ∈ s.lists .normal → (s.rt r).nExpTimes = ticks r h ∧ (s.rt r).nRealTimes = acks r (s.rt r).pid h

namespace LiveInv

variable {h : List LiveEvent}

theorem unmoved (hinv : LiveInv h s) (hu : Unmoved s t) : LiveInv h t := by
  obtain ⟨hl, hn, hrt⟩ := hu
  refine ⟨hl ▸ hinv.wf, hn.trans hinv.needKillPrc, ?_, ?_⟩
  · rw [hl, hrt]
    exact hinv.zero
  · rw [hl, hrt]
    exact hinv.tally

theorem left (hinv : LiveInv h s) {l : ListId} (hne : l ≠ .normal) {r : RecId} (hu : Left s l r t) : LiveInv h t := by
  obtain ⟨hl, hn, x, hrt, hexp, hreal⟩ := hu
  have hmem : ∀ r', r' ∈ t.lists .normal ↔ r' ∈ s.lists .normal ∧ r' ≠ r := by
    intro r'
    rw [hl, Lists.mem_accept]
    simp [hne.symm]
  refine ⟨hl ▸ hinv.wf.accept l r, hn.trans hinv.needKillPrc, fun r' hr' => ?_, fun r' hr' => ?_⟩
  · rw [hrt]
    by_cases hrr : r' = r
    · subst hrr
      rw [Function.update_self]
      exact ⟨hexp, hreal⟩
    · rw [Function.update_of_ne hrr]
      exact hinv.zero r' fun hm => hr' ((hmem r').2 ⟨hm, hrr⟩)
  · obtain ⟨hm, hrr⟩ := (hmem r').1 hr'
    rw [hrt, Function.update_of_ne hrr]
    exact hinv.tally r' hm

/-- a record that is captured starts with zero counters, since it was in the pool -/
theorem captured (hinv : LiveInv h s) {r : RecId} (hr : r ∈ s.lists .pool) (hu : Captured s r t) :
    LiveInv (.captured r :: h) t := by
  obtain ⟨hl, hn, x, hrt, hexp, hreal⟩ := hu
  have hnot : r ∉ s.lists .normal := fun hm => by cases hinv.wf.disj _ _ r hr hm
  obtain ⟨hexp0, hreal0⟩ := hinv.zero r hnot
  have hmem : ∀ r', r' ∈ t.lists .normal ↔ r' ∈ s.lists .normal ∧ r' ≠ r ∨ r' = r := by
    intro r'
    rw [hl, Lists.mem_accept]
    simp
  refine ⟨hl ▸ hinv.wf.accept .normal r, hn.trans hinv.needKillPrc, fun r' hr' => ?_, fun r' hr' => ?_⟩
  · have hrr : r' ≠ r := fun he => hr' ((hmem r').2 (Or.inr he))
    rw [hrt, Function.update_of_ne hrr]
    exact hinv.zero r' fun hm => hr' ((hmem r').2 (Or.inl ⟨hm, hrr⟩))
  · by_cases hrr : r' = r
    · subst hrr
      rw [hrt, Function.update_self]
      obtain ⟨htick, hack⟩ := counts_restart (r := r') (Or.inl rfl) x.pid h
      rw [htick, hack]
      exact ⟨hexp.trans hexp0, hreal.trans hreal0⟩
    · have hm : r' ∈ s.lists .normal := ((hmem r').1 hr').elim And.left fun he => absurd he hrr
      rw [hrt, Function.update_of_ne hrr]
      obtain ⟨htick, hack⟩ := counts_other (Ne.symm hrr) (s.rt r').pid h
      rw [htick, hack]
      exact hinv.tally r' hm

theorem tick (hinv : LiveInv h s) (hu : Ticked s (s.lists .normal) t) : LiveInv (.tick :: h) t := by
  refine ⟨hu.lists ▸ hinv.wf, hu.needKillPrc.trans hinv.needKillPrc, fun r hr => ?_, fun r hr => ?_⟩
  · rw [hu.lists] at hr
    rw [hu.rt, if_neg hr]
    exact hinv.zero r hr
  · rw [hu.lists] at hr
    obtain ⟨hexp, hreal⟩ := hinv.tally r hr
    obtain ⟨htick, hack⟩ := counts_tick r (s.rt r).pid h
    rw [hu.rt, if_pos hr]
    dsimp only
    rw [htick, hack, hexp]
    exact ⟨by push_cast; rfl, hreal⟩

theorem ack (hinv : LiveInv h s) (hpids : DistinctPids s) (pid : ℤ) :
    LiveInv (.ack pid :: h) (RtPrcInfo.sUpdateLiveState pid s) := by
  obtain ⟨hl, hn, hrt⟩ := sUpdateLiveState_spec hpids pid
  refine ⟨hl ▸ hinv.wf, hn.trans hinv.needKillPrc, fun r hr => ?_, fun r hr => ?_⟩
  · rw [hl] at hr
    rw [hrt, if_neg fun hx => hr hx.1]
    exact hinv.zero r hr
  · rw [hl] at hr
    obtain ⟨hexp, hreal⟩ := hinv.tally r hr
    obtain ⟨htick, hack⟩ := counts_ack r (s.rt r).pid pid h
    by_cases hpid : pid = (s.rt r).pid
    · rw [hrt, if_pos ⟨hr, hpid⟩]
      dsimp only
      rw [htick, hack, if_pos hpid, hreal]
      exact ⟨hexp, by push_cast; rfl⟩
    · rw [hrt, if_neg fun hx => hpid hx.2, htick, hack, if_neg hpid]
      exact ⟨hexp, hreal⟩

theorem checked (hinv : LiveInv h s) (hu : Checked s (s.lists .normal) t) : LiveInv (.checked :: h) t := by
  have hzero : ∀ r, (t.rt r).nExpTimes = 0 ∧ (t.rt r).nRealTimes = 0 := by
    intro r
    rw [hu.rt]
    by_cases hr : r ∈ s.lists .normal
    · rw [if_pos hr]
      exact ⟨rfl, rfl⟩
    · rw [if_neg hr]
      exact hinv.zero r hr
  refine ⟨hu.wf, hu.needKillPrc.trans hinv.needKillPrc, fun r _ => hzero r, fun r _ => ?_⟩
  obtain ⟨htick, hack⟩ := counts_restart (r := r) (Or.inr rfl) (t.rt r).pid h
  rw [htick, hack]
  exact hzero r

end LiveInv

theorem liveStep_inv {h : List LiveEvent} (hinv : LiveInv h s) (hpids : DistinctPids s) {op : LiveOp μ}
    (ht : liveStep E s op = .ok t) : LiveInv (noteLive E s op h) t := by
  cases op with
  | sHello4Live =>
    obtain ⟨u, hu, htick⟩ := sHello4Live_spec hinv.wf
    cases ht.symm.trans hu
    exact hinv.tick htick
  | sUpdateLiveState pid =>
    cases ht
    exact hinv.ack hpids pid
  | sCheckLiveState =>
    rcases sCheckLiveState_cases (E := E) hinv.wf hinv.needKillPrc with ⟨-, hx⟩ | ⟨u, hu, hchecked⟩
    · cases ht.symm.trans hx
    · cases ht.symm.trans hu
      exact hinv.checked hchecked
  | sCapture p argv =>
    cases ht
    rcases sCapture_cases (E := E) p argv s with ⟨hfail, hun⟩ | ⟨r, hhead, hret, hcap⟩
    · have hnote : noteLive E s (.sCapture p argv : LiveOp μ) h = h := by
        simp only [noteLive]
        rcases hhead : (s.lists .pool).head? with _ | r
        · rfl
        · exact if_neg (not_le.2 (hfail r hhead))
      rw [hnote]
      exact hinv.unmoved hun
    · have hnote : noteLive E s (.sCapture p argv : LiveOp μ) h = .captured r :: h := by
        simp only [noteLive, hhead]
        exact if_pos hret
      rw [hnote]
      exact hinv.captured (List.mem_of_mem_head? hhead) hcap
  | sTerm r => exact hinv.left (by decide) (signal_left (Or.inr rfl) ht)
  | sKill r => exact hinv.left (by decide) (sKill_left hinv.needKillPrc ht)
  | sRelease r =>
    obtain ⟨x, hx, hxt⟩ := bind_eq_ok ht
    cases hxt
    rcases sRelease_left (n := x.1) hx with hun | hleft
    · exact hinv.unmoved hun
    · exact hinv.left (by decide) hleft
  | outside m =>
    cases ht
    exact hinv.unmoved ⟨rfl, rfl, rfl⟩

/-! ## Runs -/

/-- the records after `sInitPool`, with `s_needKillPrc` set -/
def liveStart (timer : TimerId → Bool) (exeName : Option String) (selfSlot : ℤ) (env : ε) : St ε :=
  RtPrcInfo.sInitPool (boot timer true exeName selfSlot env)

theorem liveStart_inv (timer : TimerId → Bool) (exeName : Option String) (selfSlot : ℤ) (env : ε) :
    LiveInv [] (liveStart timer exeName selfSlot env) := by
  unfold liveStart
  rw [sInitPool_boot]
  exact ⟨(ready_core timer true exeName selfSlot env).wf, rfl, fun _ _ => ⟨rfl, rfl⟩, fun _ _ => ⟨rfl, rfl⟩⟩

theorem liveRun_inv {h h' : List LiveEvent} {ops : List (LiveOp μ)} (hinv : LiveInv h s)
    (hpids : Always (liveStep E) (fun s _ => DistinctPids s) s ops)
    (hr : runFrom (noting (liveStep E) (noteLive E)) (s, h) ops = .ok (t, h')) : LiveInv h' t := by
  induction ops generalizing s h with
  | nil =>
    cases hr
    exact hinv
  | cons op ops ih =>
    rw [runFrom_cons] at hr
    obtain ⟨⟨u, hu'⟩, hu, hr⟩ := bind_eq_ok hr
    obtain ⟨hstep, rfl⟩ := noting_eq_ok.1 hu
    obtain ⟨hd, hrest⟩ := hpids
    rw [show liveStep E s op = .ok u from hstep] at hrest
    exact ih (liveStep_inv hinv hd hstep) hrest hr

/-- a live check from `s`, where `h` is the history before it, ends in `t` -/
structure Supervised (s : St ε) (h : List LiveEvent) (t : St ε) : Prop where
  /-- a process of `s_listNormal` is killed iff it misses `DIFF_SPV_HELLO` acks; it stays if it is not -/
  killed : ∀ r ∈ s.lists .normal,
    (r ∈ t.lists .killing ↔ RtPrcInfo.diffSpvHello ≤ (ticks r h : ℤ) - acks r (s.rt r).pid h) ∧
    (r ∈ t.lists .normal ↔ (ticks r h : ℤ) - acks r (s.rt r).pid h < RtPrcInfo.diffSpvHello)
  /-- the signals sent are one SIGKILL for each of these, in the order of the list -/
  sent : ∃ cs, t.trace = cs ++ s.trace ∧ cs.map Call.sent =
    ((s.lists .normal).filter fun r => decide (RtPrcInfo.diffSpvHello ≤ (ticks r h : ℤ) - acks r (s.rt r).pid h)).reverse.map
      fun r => some ((s.rt r).pid, .sigkill)
  /-- every record that was in the list is examined: its counters are cleared -/
  examined : ∀ r ∈ s.lists .normal, (t.rt r).nExpTimes = 0 ∧ (t.rt r).nRealTimes = 0
  /-- the other records are unchanged, and in the lists where they were -/
  other : ∀ r, r ∉ s.lists .normal → t.rt r = s.rt r ∧ ∀ l, r ∈ t.lists l ↔ r ∈ s.lists l

theorem Checked.supervised {h : List LiveEvent} (hinv : LiveInv h s) (hc : Checked s (s.lists .normal) t) :
    Supervised s h t := by
  have hmissed : ∀ r ∈ s.lists .normal, (Missed (s.rt r) ↔
      RtPrcInfo.diffSpvHello ≤ (ticks r h : ℤ) - acks r (s.rt r).pid h) := by
    intro r hr
    obtain ⟨hexp, hreal⟩ := hinv.tally r hr
    rw [Missed, RtPrcInfo.isLive, hexp, hreal, decide_eq_false_iff_not, not_lt]
  refine ⟨fun r hr => ?_, ?_, fun r hr => ?_, fun r hr => ⟨?_, fun l => ?_⟩⟩
  · rw [hc.mem, hc.mem, ← not_le, ← hmissed r hr]
    by_cases hm : Missed (s.rt r)
    · rw [if_pos ⟨hr, hm⟩, if_pos ⟨hr, hm⟩]
      exact ⟨iff_of_true rfl hm, iff_of_false (by decide) (not_not.2 hm)⟩
    · rw [if_neg fun hx => hm hx.2, if_neg fun hx => hm hx.2]
      refine ⟨iff_of_false (fun hk => ?_) hm, iff_of_true hr hm⟩
      cases hinv.wf.disj _ _ r hr hk
  · obtain ⟨cs, htrace, hsent⟩ := hc.sent
    refine ⟨cs, htrace, hsent.trans ?_⟩
    rw [List.filter_congr fun r hr => decide_eq_decide.2 (hmissed r hr)]
  · rw [hc.rt, if_pos hr]
    exact ⟨rfl, rfl⟩
  · rw [hc.rt, if_neg hr]
  · rw [hc.mem, if_neg fun hx => hr hx.1]

/-- **Hello supervision, exactly.** After any interleaving of hellos, acks from any pid, captures, terms, kills, releases
and live checks in which no two processes of `s_listNormal` have one pid, a live check runs its body once for every
record that is in `s_listNormal` when it starts; if it returns, it has killed a process of the list iff the ticks less
the acks from its pid, counted since the later of its capture and the previous check, are at least `DIFF_SPV_HELLO`, it
has sent no other signal, and left all other records as they were. It does not return only if a SIGKILL cannot be sent. -/
theorem hello_supervision (timer : TimerId → Bool) (exeName : Option String) (selfSlot : ℤ) (env : ε)
    {ops : List (LiveOp μ)} {h : List LiveEvent}
    (hpids : Always (liveStep E) (fun s _ => DistinctPids s) (liveStart timer exeName selfSlot env) ops)
    (hr : runFrom (noting (liveStep E) (noteLive E)) (liveStart timer exeName selfSlot env, []) ops = .ok (s, h)) :
    (s.lists .normal).Nodup ∧
    RtPrcInfo.sCheckLiveState E s = (s.lists .normal).foldlM (fun s r => RtPrcInfo.checkLive E r s) s ∧
    ((KillFails E ∧ RtPrcInfo.sCheckLiveState E s = .error .exit) ∨
      ∃ t, RtPrcInfo.sCheckLiveState E s = .ok t ∧ Supervised s h t) := by
  have hinv := liveRun_inv (liveStart_inv timer exeName selfSlot env) hpids hr
  refine ⟨hinv.wf.nodup .normal, sCheckLiveState_eq hinv.wf, ?_⟩
  rcases sCheckLiveState_cases (E := E) hinv.wf hinv.needKillPrc with hx | ⟨t, ht, hc⟩
  · exact Or.inl hx
  · exact Or.inr ⟨t, ht, hc.supervised hinv⟩

/-- two processes have five ticks, and one of them answers once: the other one is killed -/
def missOne : List (LiveOp Unit) :=
  [.sCapture (.dyn 0) [], .sCapture (.dyn 1) []] ++ List.replicate 5 .sHello4Live ++ [.sUpdateLiveState 1]

theorem hello_supervision_one : ∃ s h t,
    runFrom (noting (liveStep (stillEnv 0)) (noteLive (stillEnv 0)))
      (liveStart (fun _ => false) (some "pdm") 0 0, []) missOne = .ok (s, h) ∧
    RtPrcInfo.sCheckLiveState (stillEnv 0) s = .ok t ∧ (0 : RecId) ∈ t.lists .normal ∧ (1 : RecId) ∈ t.lists .killing := by
  have hrun : (runFrom (noting (liveStep (stillEnv 0)) (noteLive (stillEnv 0)))
      (liveStart (fun _ => false) (some "pdm") 0 0, []) missOne).toOption.any (fun x =>
        decide (x.1.lists .normal = [0, 1]) && decide ((x.1.rt 0).pid = 1 ∧ (x.1.rt 1).pid = 2) &&
        decide (x.2 = .ack 1 :: List.replicate 5 .tick ++ [.captured 1, .captured 0])) = true := by
    decide +kernel
  rcases hx : runFrom (noting (liveStep (stillEnv 0)) (noteLive (stillEnv 0)))
    (liveStart (fun _ => false) (some "pdm") 0 0, []) missOne with x | ⟨s, h⟩
  · rw [hx] at hrun
    cases hrun
  rw [hx] at hrun
  simp only [Except.toOption, Option.any_some, Bool.and_eq_true, decide_eq_true_eq] at hrun
  obtain ⟨⟨hnormal, hpid0, hpid1⟩, rfl⟩ := hrun
  obtain ⟨-, -, ⟨⟨pid, e, hk⟩, -⟩ | ⟨t, ht, hsup⟩⟩ :=
    hello_supervision (fun _ => false) (some "pdm") 0 0 (by decide +kernel) hx
  · exact absurd hk (lt_irrefl 0)
  · have h0 := (hsup.killed 0 (by rw [hnormal]; decide)).2
    have h1 := (hsup.killed 1 (by rw [hnormal]; decide)).1
    rw [hpid0] at h0
    rw [hpid1] at h1
    exact ⟨s, _, t, rfl, ht, h0.2 (by decide), h1.2 (by decide)⟩

end LinuxDrv.Pdm
