/-
What the process manager relies on outside: the operating system and the driver of its slots, as assumptions on `Env`.

- `Os E`: `fork` returns a pid that is not one of an un-reaped child; `waitpid` with WNOHANG returns an exited child and
  reaps it, 0 if the child is alive, -1 with ECHILD if it is not an un-reaped child. Children exit at any time: nothing
  here says when, only that an exited child stays exited until it is reaped.
- `SlotDriver E`: the card ioctl runs `pdm_ioctl_card_on_off_line` on the tables of the driver, where every `cb_online`
  succeeds, and nothing else that happens puts a card on or off line in a slot other than that of the pdm itself.
-/
import LinuxDrv.Driver.Ext
import LinuxDrv.Pdm.Outcomes

namespace LinuxDrv.Pdm

variable {ε μ : Type}

/-! ## Processes -/

/-- the children of this process, as the operating system has them -/
structure Os (E : Env ε μ) where
  unreaped : ε → Set ℤ
  exited : ε → Set ℤ
  exited_sub : ∀ e, exited e ⊆ unreaped e
  fork : ∀ {e pid e'}, E.fork e = (some pid, e') →
    pid.1 ∉ unreaped e ∧ unreaped e' = insert pid.1 (unreaped e) ∧ exited e ⊆ exited e'
  forkFail : ∀ {e e'}, E.fork e = (none, e') → unreaped e' = unreaped e ∧ exited e ⊆ exited e'
  waitpid : ∀ {pid e w e'}, 0 < pid → E.waitpid pid e = (w, e') →
    (pid ∉ unreaped e ∧ w = ⟨-1, true⟩ ∧ unreaped e' = unreaped e ∧ exited e ⊆ exited e') ∨
    (pid ∈ unreaped e ∧ w.pid = pid ∧ unreaped e' = unreaped e \ {pid} ∧ exited e \ {pid} ⊆ exited e') ∨
    (pid ∈ unreaped e ∧ pid ∉ exited e ∧ w.pid = 0 ∧ unreaped e' = unreaped e ∧ exited e ⊆ exited e')
  waitAny : ∀ {e w e'}, E.waitpid (-1) e = (w, e') →
    (0 < w.pid ∧ w.pid ∈ unreaped e ∧ unreaped e' = unreaped e \ {w.pid} ∧ exited e \ {w.pid} ⊆ exited e') ∨
    (w.pid ≤ 0 ∧ exited e = ∅ ∧ unreaped e' = unreaped e)
  killOk : ∀ {pid e} sig, pid ∈ unreaped e → 0 ≤ (E.kill pid sig e).1
  kill : ∀ pid sig e, unreaped (E.kill pid sig e).2 = unreaped e ∧ exited e ⊆ exited (E.kill pid sig e).2
  ioctl : ∀ arg e, unreaped (E.ioctl arg e).2 = unreaped e ∧ exited e ⊆ exited (E.ioctl arg e).2
  ioctlInt : ∀ c e, unreaped (E.ioctlInt c e).2 = unreaped e ∧ exited e ⊆ exited (E.ioctlInt c e).2
  sleep : ∀ n e, unreaped (E.sleep n e) = unreaped e ∧ exited e ⊆ exited (E.sleep n e)
  outside : ∀ m e, unreaped (E.outside m e) = unreaped e ∧ exited e ⊆ exited (E.outside m e)

/-! ## Slots -/

/-- no card came or went in a slot other than that of the pdm itself -/
def SameSlots (d d' : Driver.DrvSt) : Prop := ∀ i, slotId i ≠ etinSlotPdm → (d'.slot i).typeInfo = (d.slot i).typeInfo

/-- the driver behind the card ioctl: every `cb_online` that an ioctl calls succeeds, and nobody else puts a card on or
off line -/
structure SlotDriver (E : Env ε μ) where
  drv : ε → Driver.DrvSt
  ioctl : ∀ {arg e ret e'}, E.ioctl arg e = (ret, e') → ∃ res : Driver.OnlineRes, 0 ≤ res.ret ∧
    (ret < 0 ↔ (Driver.pdmIoctlCardOnOffLine etinSlotPdm arg res (drv e)).1 < 0) ∧
    drv e' = (Driver.pdmIoctlCardOnOffLine etinSlotPdm arg res (drv e)).2
  fork : ∀ {e x e'}, E.fork e = (x, e') → SameSlots (drv e) (drv e')
  waitpid : ∀ {pid e w e'}, E.waitpid pid e = (w, e') → SameSlots (drv e) (drv e')
  kill : ∀ {pid sig e k e'}, E.kill pid sig e = (k, e') → SameSlots (drv e) (drv e')
  ioctlInt : ∀ {c e k e'}, E.ioctlInt c e = (k, e') → SameSlots (drv e) (drv e')
  sleep : ∀ n e, SameSlots (drv e) (drv (E.sleep n e))
  outside : ∀ m e, SameSlots (drv e) (drv (E.outside m e))

/-- the card type of slot `i` in the driver -/
def SlotDriver.typeInfo {E : Env ε μ} (D : SlotDriver E) (i : SlotId) (e : ε) : Option TypeId :=
  ((D.drv e).slot i).typeInfo

/-! ## A world for examples -/

/-- the processes and the driver of a small machine -/
structure World where
  alive : List ℤ
  zombies : List ℤ
  drv : Driver.DrvSt

namespace World

/-- nothing runs, and every slot is empty -/
def fresh : World := ⟨[], [], .pdmCtorMngInfo fun _ => true⟩

/-- process `pid` ends -/
def exit (pid : ℤ) (w : World) : World :=
  if pid ∈ w.alive then { w with alive := w.alive.filter fun z => decide (z ≠ pid), zombies := pid :: w.zombies } else w

def reap (pid : ℤ) (w : World) : World :=
  { w with
    alive := w.alive.filter fun z => decide (z ≠ pid)
    zombies := w.zombies.filter fun z => decide (z ≠ pid) }

/-- a pid that no process has -/
def nextPid (w : World) : ℤ := (w.alive ++ w.zombies).foldr max 0 + 1

theorem nextPid_pos (w : World) : 0 < w.nextPid := by
  have hle : ∀ l : List ℤ, 0 ≤ l.foldr max 0 := fun l => by
    induction l with
    | nil => exact le_rfl
    | cons z l ih => exact le_max_of_le_right ih
  have := hle (w.alive ++ w.zombies)
  unfold nextPid
  omega

theorem lt_nextPid {w : World} {z : ℤ} (hz : z ∈ w.alive ++ w.zombies) : z < w.nextPid := by
  have hle : ∀ l : List ℤ, z ∈ l → z ≤ l.foldr max 0 := fun l => by
    induction l with
    | nil => intro h; cases h
    | cons y l ih =>
      intro h
      rcases List.mem_cons.1 h with rfl | h
      · exact le_max_left _ _
      · exact le_max_of_le_right (ih h)
  have := hle _ hz
  unfold nextPid
  omega

/-- `waitpid` with WNOHANG -/
def wait (pid : ℤ) (w : World) : WaitRet × World :=
  if pid = -1 then
    match w.zombies.find? fun z => decide (0 < z) with
    | some z => (⟨z, false⟩, w.reap z)
    | none => (if w.alive = [] then ⟨-1, true⟩ else ⟨0, false⟩, w)
  else if pid ∈ w.zombies then (⟨pid, false⟩, w.reap pid)
  else if pid ∈ w.alive then (⟨0, false⟩, w)
  else (⟨-1, true⟩, w)

/-- every fork succeeds, a signal ends a process, and a process may end at any time -/
def env : Env World ℤ where
  fork w := (some ⟨w.nextPid, w.nextPid_pos⟩, { w with alive := w.nextPid :: w.alive })
  waitpid := wait
  kill pid _ w := (0, w.exit pid)
  ioctl arg w :=
    let x := Driver.pdmIoctlCardOnOffLine etinSlotPdm arg ⟨0, none⟩ w.drv
    (x.1, { w with drv := x.2 })
  ioctlInt _ w := (0, w)
  sleep _ w := w
  outside := exit

def unreaped (w : World) : Set ℤ := {z | 0 < z ∧ (z ∈ w.alive ∨ z ∈ w.zombies)}
def exited (w : World) : Set ℤ := {z | 0 < z ∧ z ∈ w.zombies}

theorem exit_spec (pid : ℤ) (w : World) : unreaped (w.exit pid) = unreaped w ∧ exited w ⊆ exited (w.exit pid) := by
  unfold exit
  split_ifs with h
  · refine ⟨Set.ext ?_, fun z hz => ⟨hz.1, List.mem_cons_of_mem _ hz.2⟩⟩
    intro z
    by_cases hz : z = pid
    · subst hz; simp [unreaped, h]
    · simp [unreaped, hz]
  · exact ⟨rfl, subset_rfl⟩

theorem reap_spec (pid : ℤ) (w : World) :
    unreaped (w.reap pid) = unreaped w \ {pid} ∧ exited w \ {pid} ⊆ exited (w.reap pid) := by
  refine ⟨Set.ext ?_, fun z hz => ⟨hz.1.1, ?_⟩⟩
  · intro z
    by_cases hz : z = pid
    · subst hz; simp [unreaped, reap]
    · simp [unreaped, reap, hz]
  · have hne : z ≠ pid := hz.2
    simpa [reap, hne] using hz.1.2

def os : Os env where
  unreaped := unreaped
  exited := exited
  exited_sub _ := fun _ hz => ⟨hz.1, Or.inr hz.2⟩
  fork := by
    rintro w pid w' ⟨⟩
    refine ⟨?_, Set.ext ?_, subset_rfl⟩
    · intro hz
      exact absurd (lt_nextPid (List.mem_append.2 hz.2)) (lt_irrefl _)
    · intro z
      by_cases hz : z = w.nextPid
      · subst hz; simp [unreaped, w.nextPid_pos]
      · simp [unreaped, hz]
  forkFail := by rintro w w' ⟨⟩
  waitpid := by
    intro pid w r w' hpos hw
    have hne : pid ≠ -1 := by omega
    have hwait : wait pid w = (r, w') := hw
    unfold wait at hwait
    rw [if_neg hne] at hwait
    split_ifs at hwait with hz ha
    · cases hwait
      exact Or.inr (Or.inl ⟨⟨hpos, Or.inr hz⟩, rfl, (reap_spec pid w).1, (reap_spec pid w).2⟩)
    · cases hwait
      exact Or.inr (Or.inr ⟨⟨hpos, Or.inl ha⟩, fun h => hz h.2, rfl, rfl, subset_rfl⟩)
    · cases hwait
      exact Or.inl ⟨fun h => h.2.elim ha hz, rfl, rfl, subset_rfl⟩
  waitAny := by
    intro w r w' hw
    have hwait : wait (-1) w = (r, w') := hw
    unfold wait at hwait
    rw [if_pos rfl] at hwait
    cases hz : w.zombies.find? fun z => decide (0 < z) with
    | some z =>
      rw [hz] at hwait
      cases hwait
      have hpos : 0 < z := by simpa using List.find?_some hz
      exact Or.inl ⟨hpos, ⟨hpos, Or.inr (List.mem_of_find?_eq_some hz)⟩, (reap_spec z w).1, (reap_spec z w).2⟩
    | none =>
      rw [hz] at hwait
      cases hwait
      refine Or.inr ⟨by split_ifs <;> simp, Set.eq_empty_of_forall_notMem fun z h => ?_, rfl⟩
      have hno := List.find?_eq_none.1 hz z h.2
      simp [h.1] at hno
  killOk _ _ := le_rfl
  kill pid _ w := exit_spec pid w
  ioctl _ _ := ⟨rfl, subset_rfl⟩
  ioctlInt _ _ := ⟨rfl, subset_rfl⟩
  sleep _ _ := ⟨rfl, subset_rfl⟩
  outside := exit_spec

theorem exit_drv (pid : ℤ) (w : World) : (w.exit pid).drv = w.drv := by
  unfold exit
  split_ifs <;> rfl

theorem wait_drv (pid : ℤ) (w : World) : (w.wait pid).2.drv = w.drv := by
  unfold wait
  by_cases hp : pid = -1
  · rw [if_pos hp]
    cases w.zombies.find? fun z => decide (0 < z) with
    | some z => rfl
    | none => rfl
  · rw [if_neg hp]
    split_ifs <;> rfl

def slotDriver : SlotDriver env where
  drv := drv
  ioctl := by
    rintro arg w ret w' ⟨⟩
    exact ⟨⟨0, none⟩, le_rfl, Iff.rfl, rfl⟩
  fork := by
    rintro w x w' ⟨⟩ i -
    rfl
  waitpid := by
    intro pid w r w' hw i _
    have hwait : wait pid w = (r, w') := hw
    have hdrv := wait_drv pid w
    rw [hwait] at hdrv
    rw [hdrv]
  kill := by
    rintro pid sig w k w' ⟨⟩ i -
    rw [exit_drv]
  ioctlInt := by
    rintro c w k w' ⟨⟩ i -
    rfl
  sleep _ _ _ _ := rfl
  outside pid w i _ := by
    show ((w.exit pid).drv.slot i).typeInfo = _
    rw [exit_drv]

end World

end LinuxDrv.Pdm
