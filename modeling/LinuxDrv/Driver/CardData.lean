/-
`pdm_drv_read`: how the pdm process gets the records of the cards that changed.

The record of every slot is in one of two lists of `pdm_drv_main_t`: `m_hd2Read` has the ones to read, `m_hdData` the
others. A read copies the records of `m_hd2Read` one by one to the user and moves each one it has copied to
`m_hdData`. It stops where the buffer has no place for a record, and where `copy_to_user` fails; `fault k` says that
the copy of the record k fails. The VFS has checked that the count and the offset behind the buffer are signed
numbers.
- `ReadSt.after`: the state after m records. `foldlM_readBody`: the loop ends after some number of records, for one of
  the two reasons.
- `pdmDrvRead_spec`: so does the read; a fault has it return -EFAULT, whatever it has moved.
- `read_keeps_iff`: so no record is lost iff the first fault, if there is one, is at the first record.
-/
import LinuxDrv.Core.Family
import LinuxDrv.Driver.Ext

namespace LinuxDrv.Driver

open LinuxDrv.Core

/-- a list of `pdm_drv_main_t` -/
inductive CardListId where
  | hdData
  | hd2Read
deriving DecidableEq

/-- the lists of `pdm_drv_main_t`: they have the entry of every slot once -/
structure CardLists where
  lists : Lists CardListId SlotId
  wf : lists.Wf
  total : ∀ x, ∃ l, x ∈ lists l

theorem neg_efault : -efault < 0 := by decide

/-- `sizeof(SDevMngDrvData_t)` -/
def sizeofData : ℕ := 8

/-- the variables of `pdm_drv_read`; `buf` has the records that are in the buffer of the user -/
structure ReadSt where
  lists : Lists CardListId SlotId
  buf : List DevMngDrvData
  ret : ℤ
  nBytes : ℕ
  pOff : ℤ

/-- how the loop is left before its end -/
inductive ReadExit where
  /-- `break` -/
  | brk (s : ReadSt)
  /-- `goto exit` -/
  | exit (s : ReadSt)
  | stray

section Read

variable (fault : ℕ → Bool) (data : SlotId → DevMngDrvData)

/-- the body of the loop -/
def readBody (x : SlotId) (s : ReadSt) : Except ReadExit ReadSt :=
  if s.nBytes < sizeofData then .error (.brk s)
  else if fault s.buf.length then .error (.exit { s with ret := -efault })
  else .ok {
    lists := s.lists.accept .hdData x
    buf := s.buf ++ [data x]
    ret := s.ret + sizeofData
    nBytes := s.nBytes - sizeofData
    pOff := s.pOff + sizeofData }

/-- `pdm_drv_read`; `none` if the traversal strays out of its list -/
def pdmDrvRead (nBytes : ℕ) (pOff : ℤ) (L : Lists CardListId SlotId) : Option ReadSt :=
  match Lists.traverse [.hdData, .hd2Read] ReadSt.lists (readBody fault data) .stray .hd2Read
      ⟨L, [], 0, nBytes, pOff⟩ with
  | .ok s => some s
  | .error (.brk s) => some s
  | .error (.exit s) => some s
  | .error .stray => none

/-- the state when the first `m` records of the queue are read -/
def ReadSt.after (s : ReadSt) (m : ℕ) : ReadSt where
  lists := fun
    | .hdData => s.lists .hdData ++ (s.lists .hd2Read).take m
    | .hd2Read => (s.lists .hd2Read).drop m
  buf := s.buf ++ ((s.lists .hd2Read).take m).map data
  ret := s.ret + sizeofData * m
  nBytes := s.nBytes - sizeofData * m
  pOff := s.pOff + sizeofData * m

end Read

/-! ## The loop -/

section Loop

variable (fault : ℕ → Bool) (data : SlotId → DevMngDrvData) {s : ReadSt} {x : SlotId} {rest : List SlotId}

theorem after_zero (s : ReadSt) : s.after data 0 = s := by
  rcases s with ⟨L, buf, ret, nBytes, pOff⟩
  simp only [ReadSt.after, List.take_zero, List.map_nil, List.append_nil, Nat.cast_zero, mul_zero, add_zero,
    Nat.sub_zero, ReadSt.mk.injEq, and_true]
  funext l
  cases l with
  | hdData => rfl
  | hd2Read => exact List.drop_zero

theorem after_after (s : ReadSt) (m n : ℕ) : (s.after data m).after data n = s.after data (m + n) := by
  simp only [ReadSt.after, ReadSt.mk.injEq, List.take_add, List.map_append, List.append_assoc, Nat.cast_add]
  refine ⟨?_, trivial, by ring, by rw [Nat.sub_sub, mul_add], by ring⟩
  funext l
  cases l with
  | hdData => rfl
  | hd2Read => exact List.drop_drop.trans (by rw [add_comm])

/-- the record at the head of the queue is moved to the tail of `m_hdData` -/
theorem accept_head (hwf : s.lists.Wf) (hq : s.lists .hd2Read = x :: rest) :
    s.lists.accept .hdData x = (s.after data 1).lists := by
  have hx : x ∉ s.lists .hdData := fun h =>
    absurd (hwf.disj .hdData .hd2Read x h (by rw [hq]; exact List.mem_cons_self)) (by decide)
  have hnodup := hwf.nodup .hd2Read
  rw [hq] at hnodup
  funext l
  cases l with
  | hdData =>
    have hkeep : (s.lists .hdData).filter (fun y => decide (y ≠ x)) = s.lists .hdData :=
      List.filter_eq_self.2 fun y hy => decide_eq_true fun h => hx (h ▸ hy)
    simp only [Lists.accept, Lists.addTail, Lists.unlink, Function.update_self, hkeep, ReadSt.after, hq]
    rfl
  | hd2Read =>
    have hrest : (([] : List SlotId) ++ x :: rest).filter (fun y => decide (y ≠ x)) = [] ++ rest :=
      Lists.filter_ne_of_nodup hnodup
    rw [List.nil_append, List.nil_append] at hrest
    rw [Lists.accept_other (by decide), hq, hrest]
    simp only [ReadSt.after, hq]
    rfl

/-- a round that is not the last one -/
theorem readBody_ok (hwf : s.lists.Wf) (hq : s.lists .hd2Read = x :: rest) (hroom : sizeofData ≤ s.nBytes)
    (hfault : fault s.buf.length = false) : readBody fault data x s = .ok (s.after data 1) := by
  rw [readBody, if_neg (not_lt.2 hroom), if_neg (ne_true_of_eq_false hfault), accept_head data hwf hq]
  simp only [ReadSt.after, hq]
  rfl

/-- a traversal of the queue is the loop over its records -/
theorem traverse_readBody (hwf : s.lists.Wf) :
    Lists.traverse [.hdData, .hd2Read] ReadSt.lists (readBody fault data) .stray .hd2Read s =
      (s.lists .hd2Read).foldlM (fun s x => readBody fault data x s) s := by
  refine Lists.traverse_eq_foldlM (J := fun s => s.lists.Wf) (fun l => by cases l <;> decide) (fun _ h => h) ?_ hwf
  intro s x t hs _ hbody
  unfold readBody at hbody
  split_ifs at hbody
  cases hbody
  have hne : CardListId.hd2Read ≠ .hdData := by decide
  exact ⟨hs.accept .hdData x, Or.inr (Lists.accept_other hne)⟩

/-- how many records the buffer has place for -/
def reach (s : ReadSt) : ℕ := min (s.lists .hd2Read).length (s.nBytes / sizeofData)

/-- the loop reads m records without a fault and ends, because the queue or the buffer does, or at a fault -/
theorem foldlM_readBody (queue : List SlotId) : ∀ s : ReadSt, s.lists.Wf → s.lists .hd2Read = queue →
    (∀ x, ∃ l, x ∈ s.lists l) → ∃ m ≤ reach s, (∀ j < m, fault (s.buf.length + j) = false) ∧
      (s.after data m).lists.Wf ∧ (∀ x, ∃ l, x ∈ (s.after data m).lists l) ∧
      ((m = reach s ∧ (queue.foldlM (fun s x => readBody fault data x s) s = .ok (s.after data m) ∨
          queue.foldlM (fun s x => readBody fault data x s) s = .error (.brk (s.after data m)))) ∨
        (m < reach s ∧ fault (s.buf.length + m) = true ∧
          queue.foldlM (fun s x => readBody fault data x s) s =
            .error (.exit { s.after data m with ret := -efault }))) := by
  induction queue with
  | nil =>
    intro s hwf hq htotal
    have hreach : reach s = 0 := by simp [reach, hq]
    refine ⟨0, Nat.zero_le _, fun j hj => absurd hj (Nat.not_lt_zero j), ?_⟩
    rw [after_zero, hreach]
    exact ⟨hwf, htotal, Or.inl ⟨rfl, Or.inl rfl⟩⟩
  | cons x queue ih =>
    intro s hwf hq htotal
    have hlen : (s.lists .hd2Read).length = queue.length + 1 := by rw [hq, List.length_cons]
    rw [List.foldlM_cons]
    by_cases hroom : s.nBytes < sizeofData
    · -- no place for the record
      have hreach : reach s = 0 := by rw [reach, Nat.div_eq_of_lt hroom, Nat.min_zero]
      have hbody : readBody fault data x s = .error (.brk s) := if_pos hroom
      refine ⟨0, Nat.zero_le _, fun j hj => absurd hj (Nat.not_lt_zero j), ?_⟩
      rw [after_zero, hreach, hbody]
      exact ⟨hwf, htotal, Or.inl ⟨rfl, Or.inr rfl⟩⟩
    · have hpos : 0 < s.nBytes / sizeofData := Nat.div_pos (not_lt.1 hroom) (by decide)
      by_cases hfault : fault s.buf.length = true
      · -- the copy of the record fails
        have hbody : readBody fault data x s = .error (.exit { s with ret := -efault }) := by
          rw [readBody, if_neg hroom, if_pos hfault]
        refine ⟨0, Nat.zero_le _, fun j hj => absurd hj (Nat.not_lt_zero j), ?_⟩
        rw [after_zero, hbody]
        exact ⟨hwf, htotal, Or.inr ⟨by rw [reach, hlen]; omega, hfault, rfl⟩⟩
      · rw [Bool.not_eq_true] at hfault
        have hlists := accept_head data hwf hq
        have hqueue : (s.after data 1).lists .hd2Read = queue := by simp [ReadSt.after, hq]
        have hbuf : (s.after data 1).buf.length = s.buf.length + 1 := by simp [ReadSt.after, hq]
        have hreach : reach s = reach (s.after data 1) + 1 := by
          have hn : (s.after data 1).nBytes = s.nBytes - sizeofData := by simp [ReadSt.after]
          unfold reach
          rw [hlen, hqueue, hn]
          unfold sizeofData at *
          omega
        obtain ⟨m, hm, hok, hwf', htotal', hend⟩ := ih (s.after data 1) (hlists ▸ hwf.accept .hdData x) hqueue
          (hlists ▸ Lists.total_accept htotal .hdData x)
        rw [readBody_ok fault data hwf hq (not_lt.1 hroom) hfault, ok_bind]
        rw [after_after, add_comm 1 m] at hwf' htotal' hend
        rw [hbuf, add_assoc, add_comm 1 m] at hend
        refine ⟨m + 1, by omega, fun j hj => ?_, hwf', htotal', ?_⟩
        · cases j with
          | zero => exact hfault
          | succ j =>
            have := hok j (by omega)
            rwa [hbuf, add_assoc, add_comm 1 j] at this
        · rw [hreach, Nat.add_right_cancel_iff, Nat.add_lt_add_iff_right]
          exact hend

/-- what a read does: it ends after m records, and returns their bytes, or -EFAULT if the next copy failed -/
theorem pdmDrvRead_spec (L : CardLists) (nBytes : ℕ) (pOff : ℤ) : let s : ReadSt := ⟨L.lists, [], 0, nBytes, pOff⟩
    ∃ m ≤ reach s, (∀ j < m, fault j = false) ∧
      (s.after data m).lists.Wf ∧ (∀ x, ∃ l, x ∈ (s.after data m).lists l) ∧
      ((m = reach s ∧ pdmDrvRead fault data nBytes pOff L.lists = some (s.after data m)) ∨
        (m < reach s ∧ fault m = true ∧
          pdmDrvRead fault data nBytes pOff L.lists = some { s.after data m with ret := -efault })) := by
  intro s
  obtain ⟨m, hm, hok, hwf, htotal, hend⟩ := foldlM_readBody fault data _ s L.wf rfl L.total
  simp only [List.length_nil, zero_add, s] at hok hend
  unfold pdmDrvRead
  rw [traverse_readBody fault data L.wf]
  refine ⟨m, hm, hok, hwf, htotal, ?_⟩
  rcases hend with ⟨hmax, hloop | hloop⟩ | ⟨hlt, hfault, hloop⟩
  · exact Or.inl ⟨hmax, by rw [hloop]⟩
  · exact Or.inl ⟨hmax, by rw [hloop]⟩
  · exact Or.inr ⟨hlt, hfault, by rw [hloop]⟩

end Loop

/-! ## The property -/

/-- every record stays in one list, and the records are delivered in the order of the queue. A read that returns r ≥ 0
has moved the records of the first r bytes of the queue to `m_hdData` and the offset by r; one that fails has moved
nothing. -/
def ReadKeeps (fault : ℕ → Bool) (data : SlotId → DevMngDrvData) (nBytes : ℕ) (pOff : ℤ) (L : CardLists) : Prop :=
  ∃ s, pdmDrvRead fault data nBytes pOff L.lists = some s ∧
    (s.lists.Wf ∧ ∀ x, ∃ l, x ∈ s.lists l) ∧
    s.buf = ((L.lists .hd2Read).take s.buf.length).map data ∧
    (0 ≤ s.ret → ∃ n : ℕ, s.ret = sizeofData * n ∧ s.buf.length = n ∧
      s.lists .hdData = L.lists .hdData ++ (L.lists .hd2Read).take n ∧
      s.lists .hd2Read = (L.lists .hd2Read).drop n ∧ s.pOff = pOff + s.ret) ∧
    (s.ret < 0 → s.lists = L.lists ∧ s.pOff = pOff)

/-- the records that the buffer has place for -/
def readable (nBytes : ℕ) (L : CardLists) : ℕ := min (L.lists .hd2Read).length (nBytes / sizeofData)

/-- **A read loses no record iff no copy fails behind the first one.** For all contents of the two lists that have every
entry once, every count, every offset and every pattern of failures of `copy_to_user`: `pdm_drv_read` keeps the records,
delivers them in order, accounts for the ones it moved in what it returns, and moves none if it fails, iff the copy of
the first record fails whenever one fails that it comes to. -/
theorem read_keeps_iff (fault : ℕ → Bool) (data : SlotId → DevMngDrvData) (nBytes : ℕ) (pOff : ℤ) (L : CardLists) :
    ReadKeeps fault data nBytes pOff L ↔ ∀ k < readable nBytes L, fault k = true → fault 0 = true := by
  obtain ⟨m, hm, hok, hwf, htotal, hend⟩ := pdmDrvRead_spec fault data L nBytes pOff
  have hlen : ((L.lists .hd2Read).take m).length = m := by
    rw [List.length_take, min_eq_left (hm.trans (min_le_left _ _))]
  rcases hend with ⟨hmax, hread⟩ | ⟨hlt, hfault, hread⟩
  · -- no copy failed
    refine iff_of_true ⟨_, hread, ⟨hwf, htotal⟩, ?_, fun _ => ⟨m, ?_, ?_, rfl, rfl, ?_⟩, fun hneg => ?_⟩ ?_
    · simp only [ReadSt.after, List.nil_append, List.length_map, hlen]
    · simp only [ReadSt.after, zero_add]
    · simp only [ReadSt.after, List.nil_append, List.length_map, hlen]
    · simp only [ReadSt.after, zero_add]
    · simp only [ReadSt.after, sizeofData] at hneg
      omega
    · intro k hk hbad
      rw [hok k (hmax ▸ hk)] at hbad
      exact absurd hbad Bool.false_ne_true
  · constructor
    · rintro ⟨s, hs, -, -, -, hfail⟩ k _ _
      rw [hread] at hs
      cases hs
      -- the offset tells how many records were moved
      have hpOff := (hfail neg_efault).2
      simp only [ReadSt.after, sizeofData] at hpOff
      have hm0 : m = 0 := by omega
      exact hm0 ▸ hfault
    · intro hfirst
      have hm0 : m = 0 := by
        by_contra hne
        have h0 := hfirst m hlt hfault
        rw [hok 0 (Nat.pos_of_ne_zero hne)] at h0
        exact absurd h0 Bool.false_ne_true
      subst hm0
      rw [after_zero] at hread
      refine ⟨_, hread, ⟨L.wf, L.total⟩, rfl, fun hnn => absurd hnn (not_le.2 neg_efault), fun _ => ⟨rfl, rfl⟩⟩

/-- both records are to be read, and the second copy fails -/
def bothToRead : CardLists where
  lists := fun
    | .hdData => []
    | .hd2Read => [0, 1]
  wf := ⟨fun l => by cases l <;> decide, fun l l' x h h' => by
    cases l <;> cases l' <;> first | rfl | exact absurd h List.not_mem_nil | exact absurd h' List.not_mem_nil⟩
  total := fun x => ⟨.hd2Read, by fin_cases x <;> decide⟩

/-- the first record is moved and delivered, the offset is moved behind it, and -EFAULT is returned -/
theorem read_fault_loses : (∃ s, pdmDrvRead (fun k => k == 1) (fun i => ⟨(i : ℕ), 1⟩) 16 0 bothToRead.lists = some s ∧
      s.ret = -efault ∧ s.lists .hdData = [0] ∧ s.lists .hd2Read = [1] ∧ s.pOff = 8) ∧
    ¬ ReadKeeps (fun k => k == 1) (fun i => ⟨(i : ℕ), 1⟩) 16 0 bothToRead := by
  have hread : ∃ s, pdmDrvRead (fun k => k == 1) (fun i => ⟨(i : ℕ), 1⟩) 16 0 bothToRead.lists = some s ∧
      s.ret = -efault ∧ s.lists .hdData = [0] ∧ s.lists .hd2Read = [1] ∧ s.pOff = 8 :=
    ⟨_, rfl, rfl, rfl, rfl, rfl⟩
  refine ⟨hread, ?_⟩
  rintro ⟨t, ht, -, -, -, hfail⟩
  obtain ⟨s, hs, hret, -, -, hpOff⟩ := hread
  have hst : s = t := Option.some.inj (hs.symm.trans ht)
  subst hst
  have := (hfail (hret ▸ neg_efault)).2
  rw [hpOff] at this
  exact absurd this (by decide)

end LinuxDrv.Driver
