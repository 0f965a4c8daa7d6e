/-
Files of a card that is gone.

`DevInv` says that an instance is allocated iff it is the one of its slot, and what is known of a file (`FileOk`): until
an `udf_offline` of its slot runs, its instance is the one its `udf_open` found, it holds the private data of the file,
and nobody else has registered the slot interrupt; afterwards the instance is not allocated any more.
- `udfOnline_inv`, `udfOffline_inv`, `udfOpen_inv`, `udfRelease_inv`: the functions return and keep it, `udf_release`
  if no `udf_offline` of the slot ran since the file was opened. So `devRun_returns`.
- `release_own_iff`: a run only has releases of the right instance and the right registration iff it only has releases
  of files whose card is still there.
-/
import LinuxDrv.Udf.Dev
import LinuxDrv.Driver.IrqSafe

namespace LinuxDrv.Udf

open LinuxDrv.Core LinuxDrv.Driver

/-! ## The two properties of a release -/

/-- a `udf_release` acts on the instance its `udf_open` opened, which is allocated, and the slot interrupt registration
it removes, if there is one, was made by that `udf_open` -/
def ReleasesOwn (s : DevSt) : DevOp → Prop
  | .udfRelease f => ∀ file ∈ s.file f, ∃ pDrv ∈ s.heap file.privateData, pDrv.gen = file.gen ∧
    ((s.drv.slot pDrv.slot).isr ≠ none → s.irqOwner pDrv.slot = some f)
  | _ => True

/-- no `udf_offline` of the slot ran since the file that is released was opened -/
def CardStayed (s : DevSt) : DevOp → Prop
  | .udfRelease f => ∀ file ∈ s.file f, s.offlines file.slot = file.offlines
  | _ => True

instance (s : DevSt) : (op : DevOp) → Decidable (ReleasesOwn s op)
  | .udfRelease f => inferInstanceAs (Decidable (∀ file ∈ s.file f, ∃ pDrv ∈ s.heap file.privateData, _))
  | .cardOnline .. | .cardOffline _ | .udfOpen .. => isTrue trivial

/-! ## The invariant -/

structure FileOk (s : DevSt) (f : ℕ) (file : File) : Prop where
  gen_lt : file.gen < s.insts
  le : file.offlines ≤ s.offlines file.slot
  stale : file.offlines ≠ s.offlines file.slot → ∀ p x, s.heap p = some x → x.gen ≠ file.gen
  fresh : file.offlines = s.offlines file.slot → ∃ x, s.heap file.privateData = some x ∧ x.gen = file.gen ∧
    x.slot = file.slot ∧ x.mPData = some f ∧ ((s.drv.slot file.slot).isr ≠ none → s.irqOwner file.slot = some f)

section File

variable {s t : DevSt} {f : ℕ} {file : File} {i : SlotId}

/-- instances that are made later are none of the file's -/
theorem FileOk.grow (h : FileOk s f file) (hinsts : t.insts = s.insts + 1) (hoffs : t.offlines = s.offlines)
    (hdrv : t.drv = s.drv) (howner : t.irqOwner = s.irqOwner)
    (hnew : ∀ q x, t.heap q = some x → x.gen = s.insts ∨ s.heap q = some x)
    (hold : ∀ q x, s.heap q = some x → t.heap q = some x) : FileOk t f file := by
  obtain ⟨hgen, hle, hstale, hfresh⟩ := h
  refine ⟨hinsts ▸ Nat.lt_succ_of_lt hgen, hoffs ▸ hle, ?_, ?_⟩
  · intro hoff q x hx
    rw [hoffs] at hoff
    rcases hnew q x hx with hxgen | hx
    · exact hxgen ▸ hgen.ne'
    · exact hstale hoff q x hx
  · intro hoff
    rw [hoffs] at hoff
    obtain ⟨x, hx, hrest⟩ := hfresh hoff
    rw [hdrv, howner]
    exact ⟨x, hold _ x hx, hrest⟩

/-- when the instance of a slot is freed, the files of the slot are stale from then on -/
theorem FileOk.unplugged (h : FileOk s f file)
    (hinj : ∀ p q x y, s.heap p = some x → s.heap q = some y → x.gen = y.gen → p = q) (hinsts : t.insts = s.insts)
    (hoffs : t.offlines = Function.update s.offlines i (s.offlines i + 1)) (hdrv : t.drv = s.drv)
    (howner : t.irqOwner = s.irqOwner) (hheap : ∀ q x, t.heap q = some x ↔ s.heap q = some x ∧ x.slot ≠ i) :
    FileOk t f file := by
  obtain ⟨hgen, hle, hstale, hfresh⟩ := h
  by_cases hfi : file.slot = i
  · have hlt : file.offlines < t.offlines file.slot := by
      rw [hoffs, hfi, Function.update_self]
      rw [hfi] at hle
      exact Nat.lt_succ_of_le hle
    refine ⟨hinsts ▸ hgen, hlt.le, ?_, fun hoff => absurd hoff hlt.ne⟩
    intro _ q x hx hxgen
    obtain ⟨hx, hxi⟩ := (hheap q x).1 hx
    by_cases hoff : file.offlines = s.offlines file.slot
    · obtain ⟨y, hy, hygen, hyslot, -, -⟩ := hfresh hoff
      -- the instance of the file was the one of the slot
      have hqp : q = file.privateData := hinj q _ x y hx hy (hxgen.trans hygen.symm)
      rw [hqp, hy, Option.some.injEq] at hx
      exact hxi (hx ▸ hyslot.trans hfi)
    · exact hstale hoff q x hx hxgen
  · have hsame : t.offlines file.slot = s.offlines file.slot := by rw [hoffs, Function.update_of_ne hfi]
    refine ⟨hinsts ▸ hgen, hle.trans_eq hsame.symm, ?_, ?_⟩
    · intro hoff q x hx
      exact hstale (fun he => hoff (he.trans hsame.symm)) q x ((hheap q x).1 hx).1
    · intro hoff
      obtain ⟨x, hx, hxgen, hxslot, hrest⟩ := hfresh (hoff.trans hsame)
      rw [hdrv, howner]
      exact ⟨x, (hheap _ x).2 ⟨hx, fun he => hfi (hxslot.symm.trans he)⟩, hxgen, hxslot, hrest⟩

end File

structure DevInv (s : DevSt) : Prop where
  cdev : s.cdev = s.devSet
  hwAddr : ∀ i, s.hwAddr i = none → s.devSet i = none
  devSet : ∀ i p, s.devSet i = some p → ∃ x, s.heap p = some x ∧ x.slot = i
  heap : ∀ p x, s.heap p = some x → s.devSet x.slot = some p
  gen_lt : ∀ p x, s.heap p = some x → x.gen < s.insts
  gen_inj : ∀ p q x y, s.heap p = some x → s.heap q = some y → x.gen = y.gen → p = q
  file : ∀ f file, s.file f = some file → FileOk s f file

namespace DevInv

variable {s : DevSt} {i : SlotId} {p : Ptr}

/-- the registrations that are left have the owners they had -/
theorem frame (h : DevInv s) {d : DrvSt} {o : SlotId → Option ℕ}
    (hisr : ∀ i, (d.slot i).isr ≠ none → (s.drv.slot i).isr ≠ none ∧ o i = s.irqOwner i) :
    DevInv { s with drv := d, irqOwner := o } := by
  refine ⟨h.cdev, h.hwAddr, h.devSet, h.heap, h.gen_lt, h.gen_inj, ?_⟩
  intro f file hf
  obtain ⟨hgen, hle, hstale, hfresh⟩ := h.file f file hf
  refine ⟨hgen, hle, hstale, ?_⟩
  intro hoff
  obtain ⟨x, hx, hxgen, hxslot, hxdata, hxirq⟩ := hfresh hoff
  refine ⟨x, hx, hxgen, hxslot, hxdata, ?_⟩
  intro hne
  obtain ⟨hold, howner⟩ := hisr file.slot hne
  exact howner.trans (hxirq hold)

/-- an instance is allocated and freed -/
theorem freed (h : DevInv s) : DevInv { s with insts := s.insts + 1 } := by
  refine ⟨h.cdev, h.hwAddr, h.devSet, h.heap, ?_, h.gen_inj, ?_⟩
  · intro p x hx
    exact Nat.lt_succ_of_lt (h.gen_lt p x hx)
  · intro f file hf
    exact (h.file f file hf).grow rfl rfl rfl rfl (fun _ _ hx => Or.inr hx) (fun _ _ hx => hx)

/-- an empty slot gets an instance -/
theorem plugged (h : DevInv s) (a : Ptr) (hp : s.heap p = none) (hi : s.devSet i = none) :
    DevInv { s with
      hwAddr := Function.update s.hwAddr i (some a)
      heap := Function.update s.heap p (some ⟨i, none, s.insts⟩)
      insts := s.insts + 1
      cdev := Function.update s.cdev i (some p)
      devSet := Function.update s.devSet i (some p) } := by
  have hold : ∀ q x, Function.update s.heap p (some ⟨i, none, s.insts⟩) q = some x →
      (q = p ∧ x = ⟨i, none, s.insts⟩) ∨ (q ≠ p ∧ s.heap q = some x) := by
    intro q x hx
    by_cases hq : q = p
    · rw [hq, Function.update_self, Option.some.injEq] at hx
      exact Or.inl ⟨hq, hx.symm⟩
    · rw [Function.update_of_ne hq] at hx
      exact Or.inr ⟨hq, hx⟩
  have hne : ∀ q x, s.heap q = some x → q ≠ p := by
    rintro q x hx rfl
    rw [hp] at hx
    cases hx
  exact {
    cdev := by
      dsimp only
      rw [h.cdev]
    hwAddr := by
      intro j hj
      by_cases hji : j = i
      · subst hji
        simp at hj
      · simp only [Function.update_of_ne hji] at hj ⊢
        exact h.hwAddr j hj
    devSet := by
      intro j q hq
      by_cases hji : j = i
      · subst hji
        simp only [Function.update_self, Option.some.injEq] at hq
        subst hq
        exact ⟨_, Function.update_self .., rfl⟩
      · simp only [Function.update_of_ne hji] at hq
        obtain ⟨x, hx, hxj⟩ := h.devSet j q hq
        exact ⟨x, (Function.update_of_ne (hne q x hx) ..).trans hx, hxj⟩
    heap := by
      intro q x hx
      rcases hold q x hx with ⟨rfl, rfl⟩ | ⟨-, hx⟩
      · exact Function.update_self ..
      · have hslot := h.heap q x hx
        have hxi : x.slot ≠ i := by
          rintro rfl
          rw [hi] at hslot
          cases hslot
        exact (Function.update_of_ne hxi ..).trans hslot
    gen_lt := by
      intro q x hx
      rcases hold q x hx with ⟨-, rfl⟩ | ⟨-, hx⟩
      · exact Nat.lt_succ_self _
      · exact Nat.lt_succ_of_lt (h.gen_lt q x hx)
    gen_inj := by
      intro q r x y hx hy hxy
      rcases hold q x hx with ⟨rfl, rfl⟩ | ⟨-, hxo⟩ <;> rcases hold r y hy with ⟨rfl, rfl⟩ | ⟨-, hyo⟩
      · rfl
      · exact absurd hxy (h.gen_lt r y hyo).ne'
      · exact absurd hxy (h.gen_lt q x hxo).ne
      · exact h.gen_inj q r x y hxo hyo hxy
    file := by
      intro f file hf
      refine (h.file f file hf).grow rfl rfl rfl rfl ?_ ?_
      · intro q x hx
        rcases hold q x hx with ⟨-, rfl⟩ | ⟨-, hx⟩
        · exact Or.inl rfl
        · exact Or.inr hx
      · intro q x hx
        exact (Function.update_of_ne (hne q x hx) ..).trans hx }

/-- the instance of a slot, if it has one, is freed by an `udf_offline` -/
theorem unplugged (h : DevInv s) {heap : Ptr → Option Inst}
    (hheap : ∀ q x, heap q = some x ↔ s.heap q = some x ∧ x.slot ≠ i) :
    DevInv { s with
      cdev := Function.update s.cdev i none
      devSet := Function.update s.devSet i none
      hwAddr := Function.update s.hwAddr i none
      heap := heap
      offlines := Function.update s.offlines i (s.offlines i + 1) } := by
  exact {
    cdev := by
      dsimp only
      rw [h.cdev]
    hwAddr := by
      intro j hj
      by_cases hji : j = i
      · subst hji
        exact Function.update_self ..
      · simp only [Function.update_of_ne hji] at hj ⊢
        exact h.hwAddr j hj
    devSet := by
      intro j q hq
      by_cases hji : j = i
      · subst hji
        simp at hq
      · simp only [Function.update_of_ne hji] at hq
        obtain ⟨x, hx, rfl⟩ := h.devSet j q hq
        exact ⟨x, (hheap q x).2 ⟨hx, hji⟩, rfl⟩
    heap := by
      intro q x hx
      obtain ⟨hx, hxi⟩ := (hheap q x).1 hx
      exact (Function.update_of_ne hxi ..).trans (h.heap q x hx)
    gen_lt := by
      intro q x hx
      exact h.gen_lt q x ((hheap q x).1 hx).1
    gen_inj := by
      intro q r x y hx hy
      exact h.gen_inj q r x y ((hheap q x).1 hx).1 ((hheap r y).1 hy).1
    file := by
      intro f file hf
      exact (h.file f file hf).unplugged h.gen_inj rfl rfl rfl rfl hheap }

/-- the private data of an instance changes -/
theorem setData (h : DevInv s) {x : Inst} (hx : s.heap p = some x) (data : Option ℕ) {d : DrvSt}
    {file : ℕ → Option File} {n : ℕ} {o : SlotId → Option ℕ}
    (hfile : ∀ f file', file f = some file' → FileOk { s with
      drv := d, heap := Function.update s.heap p (some { x with mPData := data }), irqOwner := o } f file') :
    DevInv { s with
      drv := d
      heap := Function.update s.heap p (some { x with mPData := data })
      file := file
      opens := n
      irqOwner := o } := by
  have hold : ∀ q y, Function.update s.heap p (some { x with mPData := data }) q = some y →
      ∃ z, s.heap q = some z ∧ z.slot = y.slot ∧ z.gen = y.gen := by
    intro q y hy
    by_cases hq : q = p
    · rw [hq, Function.update_self, Option.some.injEq] at hy
      exact ⟨x, hq ▸ hx, by rw [← hy], by rw [← hy]⟩
    · rw [Function.update_of_ne hq] at hy
      exact ⟨y, hy, rfl, rfl⟩
  refine ⟨h.cdev, h.hwAddr, ?_, ?_, ?_, ?_, fun f file' hf => ?_⟩
  · intro j q hq
    obtain ⟨y, hy, hyj⟩ := h.devSet j q hq
    by_cases hqp : q = p
    · rw [hqp, hx, Option.some.injEq] at hy
      exact ⟨{ x with mPData := data }, hqp ▸ Function.update_self .., hy ▸ hyj⟩
    · exact ⟨y, (Function.update_of_ne hqp ..).trans hy, hyj⟩
  · intro q y hy
    obtain ⟨z, hz, hslot, -⟩ := hold q y hy
    exact hslot ▸ h.heap q z hz
  · intro q y hy
    obtain ⟨z, hz, -, hgen⟩ := hold q y hy
    exact hgen ▸ h.gen_lt q z hz
  · intro q r y y' hy hy' hyy
    obtain ⟨z, hz, -, hgen⟩ := hold q y hy
    obtain ⟨z', hz', -, hgen'⟩ := hold r y' hy'
    exact h.gen_inj q r z z' hz hz' (hgen.trans (hyy.trans hgen'.symm))
  · obtain ⟨hgen, hle, hstale, hfresh⟩ := hfile f file' hf
    exact ⟨hgen, hle, hstale, hfresh⟩

/-- a file does not see a change of another file's instance and its slot interrupt -/
theorem fileOk_other (h : DevInv s) {x : Inst} (hx : s.heap p = some x) (data : Option ℕ) {d : DrvSt}
    {o : SlotId → Option ℕ} {g : ℕ} {file : File} (hg : s.file g = some file) (hdata : x.mPData ≠ some g)
    (hisr : ∀ j, j ≠ x.slot → (d.slot j).isr = (s.drv.slot j).isr) (howner : ∀ j, j ≠ x.slot → o j = s.irqOwner j) :
    FileOk { s with
      drv := d, heap := Function.update s.heap p (some { x with mPData := data }), irqOwner := o } g file := by
  obtain ⟨hgen, hle, hstale, hfresh⟩ := h.file g file hg
  refine ⟨hgen, hle, ?_, ?_⟩
  · intro hoff q y hy
    by_cases hq : q = p
    · rw [hq] at hy
      simp only [Function.update_self, Option.some.injEq] at hy
      exact hy ▸ hstale hoff p x hx
    · simp only [Function.update_of_ne hq] at hy
      exact hstale hoff q y hy
  · intro hoff
    obtain ⟨y, hy, hygen, hyslot, hydata, hyirq⟩ := hfresh hoff
    have hqp : file.privateData ≠ p := by
      intro he
      rw [he, hx, Option.some.injEq] at hy
      exact hdata (hy ▸ hydata)
    have hslot : file.slot ≠ x.slot := by
      intro he
      have h1 := h.heap _ y hy
      rw [hyslot, he, h.heap p x hx, Option.some.injEq] at h1
      exact hqp h1.symm
    refine ⟨y, (Function.update_of_ne hqp ..).trans hy, hygen, hyslot, hydata, ?_⟩
    intro hne
    have hne' : (s.drv.slot file.slot).isr ≠ none := hisr file.slot hslot ▸ hne
    exact (howner file.slot hslot).trans (hyirq hne')

end DevInv

/-! ## The slot interrupt -/

section Isr

variable (d : DrvSt)

/-- the two ways of `pdm_request_irq` for a slot -/
theorem requestIrq_cases (i : SlotId) (f : Ptr) (arg : Option Ptr) :
    ((pdmRequestIrq (i : ℕ) (some f) arg d).1 < 0 ∧ (pdmRequestIrq (i : ℕ) (some f) arg d).2 = d) ∨
    (¬ (pdmRequestIrq (i : ℕ) (some f) arg d).1 < 0 ∧
      (pdmRequestIrq (i : ℕ) (some f) arg d).2 = d.setSlot i fun x => { x with arg := arg, isr := some f }) := by
  have hdev : -enodev < 0 := by decide
  have hexist : -eexist < 0 := by decide
  unfold pdmRequestIrq
  simp only [checkSlot_coe]
  split_ifs
  · exact Or.inl ⟨hdev, rfl⟩
  · exact Or.inl ⟨hexist, rfl⟩
  · exact Or.inr ⟨lt_irrefl 0, rfl⟩

/-- `pdm_card_online` leaves the isrs, if the callback does -/
theorem pdmCardOnline_isr (slot cardType ret : ℤ) (j : SlotId) :
    ((pdmCardOnline slot cardType ⟨ret, none⟩ d).2.slot j).isr = (d.slot j).isr := by
  have hset : ∀ (e : DrvSt) (i : SlotId) (t : Option TypeId), ((e.setTypeInfo i t).slot j).isr = (e.slot j).isr := by
    intro e i t
    rw [DrvSt.setTypeInfo, setSlot_slot]
    split_ifs with hj
    · rw [hj]
    · rfl
  unfold pdmCardOnline
  rcases checkSlot slot with _ | i
  · rfl
  rcases checkType cardType with _ | t
  · rfl
  dsimp only
  by_cases hty : (d.slot i).typeInfo ≠ none
  · rw [if_pos hty]
  rw [if_neg hty]
  rcases (d.cardType t).cbOnline with _ | f
  · exact hset d i (some t)
  dsimp only
  split_ifs
  · rfl
  · exact hset _ i (some t)

/-- `pdm_card_offline` takes the isr of a slot that has a card, and leaves the others -/
theorem pdmCardOffline_isr (slot : ℤ) (j : SlotId) : ((pdmCardOffline slot d).slot j).isr =
    if checkSlot slot = some j ∧ (d.slot j).typeInfo ≠ none then none else (d.slot j).isr := by
  have hset : ∀ (e : DrvSt) (i : SlotId), ((e.setTypeInfo i none).slot j).isr = (e.slot j).isr := by
    intro e i
    rw [DrvSt.setTypeInfo, setSlot_slot]
    split_ifs with hj
    · rw [hj]
    · rfl
  unfold pdmCardOffline
  rcases hi : checkSlot slot with _ | i
  · simp
  dsimp only
  rcases hty : (d.slot i).typeInfo with _ | t
  · rw [if_neg]
    rintro ⟨hij, hne⟩
    rw [Option.some.injEq] at hij
    exact hne (hij ▸ hty)
  dsimp only
  rw [hset]
  trans ((pdmFreeIrq slot (pdmDisableInt slot d).2).slot j).isr
  · rcases ((pdmFreeIrq slot (pdmDisableInt slot d).2).cardType t).cbOffline with _ | g <;> rfl
  · rw [pdmFreeIrq_slot, pdmDisableInt_slot, hi]
    by_cases hij : i = j
    · subst hij
      simp [hty]
    · have hne : some i ≠ some j := fun he => hij (Option.some.inj he)
      rw [if_neg hne, if_neg hne, if_neg fun he => hne he.1]

end Isr

/-! ## The functions -/

section Functions

variable {s : DevSt} {i : SlotId}

theorem ukcMalloc_eq_some {want : Option Ptr} {p : Ptr} (h : ukcMalloc want s = some p) : s.heap p = none := by
  unfold ukcMalloc at h
  rw [Option.filter_eq_some_iff] at h
  exact of_decide_eq_true h.2

/-- an instance that is allocated and not added is freed again without a trace -/
theorem mainExit_new {s : DevSt} {i : SlotId} {p : Ptr} {x : Inst} {cdev : SlotId → Option Ptr} (hp : s.heap p = none)
    (hcdev : Function.update cdev i (if cdev i = some p then none else cdev i) = s.cdev) :
    udfMainExit i p { s with heap := Function.update s.heap p (some x), insts := s.insts + 1, cdev := cdev } =
      .ok { s with insts := s.insts + 1 } := by
  have hheap : Function.update s.heap p none = s.heap := by
    rw [← hp]
    exact Function.update_eq_self p s.heap
  unfold udfMainExit
  simp only [Function.update_self, Function.update_idem, hheap, hcdev]

/-- the ways of `udf_main_init` -/
theorem mainInit_cases (hi : s.cdev i = none) (env : OnlineEnv) :
    udfMainInit i env s = .ok (none, s) ∨ udfMainInit i env s = .ok (none, { s with insts := s.insts + 1 }) ∨
    ∃ p, s.heap p = none ∧ udfMainInit i env s = .ok (some p, { s with
      heap := Function.update s.heap p (some ⟨i, none, s.insts⟩)
      insts := s.insts + 1
      cdev := Function.update s.cdev i (some p) }) := by
  unfold udfMainInit
  rcases hp : ukcMalloc env.malloc s with _ | p
  · exact Or.inl rfl
  have hfree : s.heap p = none := ukcMalloc_eq_some hp
  dsimp only
  by_cases hadd : env.cdevAdd < 0
  · have hcdev : Function.update s.cdev i (if s.cdev i = some p then none else s.cdev i) = s.cdev := by
      rw [hi, if_neg (by simp), ← hi]
      exact Function.update_eq_self i s.cdev
    rw [if_pos hadd, mainExit_new hfree hcdev]
    exact Or.inr (Or.inl rfl)
  rw [if_neg hadd]
  by_cases hdev : env.deviceCreate = false
  · have hcdev : Function.update (Function.update s.cdev i (some p)) i
        (if Function.update s.cdev i (some p) i = some p then none else Function.update s.cdev i (some p) i) =
          s.cdev := by
      rw [Function.update_self, if_pos rfl, Function.update_idem, ← hi]
      exact Function.update_eq_self i s.cdev
    rw [if_pos hdev, mainExit_new hfree hcdev]
    exact Or.inr (Or.inl rfl)
  · rw [if_neg hdev]
    exact Or.inr (Or.inr ⟨p, hfree, rfl⟩)

theorem udfOnline_inv (h : DevInv s) (slot : ℤ) (cardBaseAddr : Option Ptr) (env : OnlineEnv) :
    ∃ ret t, udfOnline slot cardBaseAddr env s = .ok (ret, t) ∧ DevInv t := by
  unfold udfOnline
  rcases checkSlot slot with _ | i
  · exact ⟨_, s, rfl, h⟩
  rcases cardBaseAddr with _ | a
  · exact ⟨_, s, rfl, h⟩
  dsimp only
  by_cases hhw : s.hwAddr i ≠ none
  · rw [if_pos hhw]
    exact ⟨_, s, rfl, h⟩
  rw [if_neg hhw]
  rw [not_not] at hhw
  have hdev : s.devSet i = none := h.hwAddr i hhw
  have hcdev : s.cdev i = none := h.cdev ▸ hdev
  -- on failure the base address is taken back
  have hback : Function.update (Function.update s.hwAddr i (some a)) i none = s.hwAddr := by
    rw [Function.update_idem, ← hhw]
    exact Function.update_eq_self i s.hwAddr
  rcases mainInit_cases (s := { s with hwAddr := Function.update s.hwAddr i (some a) }) hcdev env with
    hinit | hinit | ⟨p, hp, hinit⟩
  · rw [hinit]
    refine ⟨-enomem, s, ?_, h⟩
    simp only [ok_bind, hback]
  · rw [hinit]
    refine ⟨-enomem, _, ?_, h.freed⟩
    simp only [ok_bind, hback]
  · rw [hinit]
    exact ⟨env.bhOnline, _, rfl, h.plugged a hp hdev⟩

theorem udfOffline_inv (h : DevInv s) (slot : ℤ) : ∃ t, udfOffline slot s = .ok t ∧ DevInv t := by
  unfold udfOffline
  rcases checkSlot slot with _ | i
  · exact ⟨s, rfl, h⟩
  dsimp only
  rcases hi : s.devSet i with _ | p
  · have hcdev : s.cdev i = none := h.cdev ▸ hi
    refine ⟨_, rfl, ?_⟩
    have hinv := @DevInv.unplugged s i h s.heap fun q x => ?_
    · rw [← hcdev, Function.update_eq_self, hcdev, ← hi, Function.update_eq_self, hi] at hinv
      exact hinv
    · constructor
      · intro hx
        refine ⟨hx, ?_⟩
        rintro rfl
        rw [h.heap q x hx] at hi
        cases hi
      · exact And.left
  · obtain ⟨x, hx, hxi⟩ := h.devSet i p hi
    have hcdev : s.cdev i = some p := h.cdev ▸ hi
    have hexit : udfMainExit i p { s with offlines := Function.update s.offlines i (s.offlines i + 1) } =
        .ok { s with
          offlines := Function.update s.offlines i (s.offlines i + 1)
          cdev := Function.update s.cdev i none
          heap := Function.update s.heap p none } := by
      unfold udfMainExit
      simp only [hx, hcdev, ↓reduceIte]
    simp only [hexit, ok_bind]
    refine ⟨_, rfl, h.unplugged fun q y => ?_⟩
    constructor
    · intro hy
      have hqp : q ≠ p := by
        rintro rfl
        rw [Function.update_self] at hy
        cases hy
      rw [Function.update_of_ne hqp] at hy
      refine ⟨hy, fun hyi => hqp ?_⟩
      have := h.heap q y hy
      rw [hyi, hi, Option.some.injEq] at this
      exact this.symm
    · rintro ⟨hy, hyi⟩
      have hqp : q ≠ p := by
        rintro rfl
        rw [hx, Option.some.injEq] at hy
        exact hyi (hy ▸ hxi)
      exact (Function.update_of_ne hqp ..).trans hy

theorem udfOpen_inv (h : DevInv s) (c : Cfg) (i : SlotId) (drvOpen : Bool) :
    ∃ ret t, udfOpen c i drvOpen s = .ok (ret, t) ∧ DevInv t := by
  unfold udfOpen
  rcases hi : s.cdev i with _ | p
  · exact ⟨_, s, rfl, h⟩
  have hdev : s.devSet i = some p := h.cdev ▸ hi
  obtain ⟨x, hx, hxi⟩ := h.devSet i p hdev
  simp only [hx]
  by_cases hdata : x.mPData ≠ none
  · rw [if_pos hdata]
    exact ⟨_, s, rfl, h⟩
  rw [if_neg hdata]
  rw [not_not] at hdata
  by_cases hopen : drvOpen = false
  · rw [if_pos hopen]
    exact ⟨_, s, rfl, h⟩
  rw [if_neg hopen]
  rcases requestIrq_cases s.drv x.slot c.udfIsr (some p) with ⟨hret, hdrv⟩ | ⟨hret, hdrv⟩
  · rw [if_pos hret, hdrv]
    exact ⟨_, s, rfl, h⟩
  rw [if_neg hret, hdrv]
  refine ⟨_, _, rfl, h.setData hx (some s.opens) ?_⟩
  intro f file hf
  by_cases hfo : f = s.opens
  · -- the new file
    rw [hfo, Function.update_self, Option.some.injEq] at hf
    subst hf hfo
    refine ⟨h.gen_lt p x hx, le_refl _, fun hoff => absurd rfl hoff, fun _ => ?_⟩
    refine ⟨_, Function.update_self .., rfl, hxi, rfl, fun _ => ?_⟩
    exact (congrArg _ hxi.symm).trans (Function.update_self ..)
  · rw [Function.update_of_ne hfo] at hf
    refine h.fileOk_other hx _ hf (by rw [hdata]; simp) ?_ ?_
    · intro j hj
      rw [setSlot_slot, if_neg hj]
    · intro j hj
      exact Function.update_of_ne hj ..

/-- the release of a file whose card stayed -/
theorem udfRelease_inv (h : DevInv s) {f : ℕ} (hstay : CardStayed s (.udfRelease f)) :
    ∃ t, udfRelease f s = .ok t ∧ DevInv t := by
  unfold udfRelease
  rcases hf : s.file f with _ | file
  · exact ⟨s, rfl, h⟩
  obtain ⟨x, hx, -, -, hdata, -⟩ := (h.file f file hf).fresh (hstay file hf).symm
  simp only [hx]
  refine ⟨_, rfl, h.setData hx none ?_⟩
  intro g file' hg
  by_cases hgf : g = f
  · rw [hgf, Function.update_self] at hg
    cases hg
  · rw [Function.update_of_ne hgf] at hg
    refine h.fileOk_other hx none hg (by rw [hdata, ne_eq, Option.some.injEq]; exact Ne.symm hgf) ?_ ?_
    · intro j hj
      rw [pdmFreeIrq_slot, checkSlot_coe, if_neg]
      intro he
      exact hj (Option.some.inj he).symm
    · intro j hj
      exact Function.update_of_ne hj ..

theorem cardOnline_inv (h : DevInv s) (c : Cfg) (slot cardType : ℤ) (cardBaseAddr : Option Ptr) (env : OnlineEnv) :
    ∃ t, cardOnline c slot cardType cardBaseAddr env s = .ok t ∧ DevInv t := by
  have hpdm : ∀ (ret : ℤ) (u : DevSt), DevInv u →
      DevInv { u with drv := (pdmCardOnline slot cardType ⟨ret, none⟩ u.drv).2 } := by
    intro ret u hu
    refine hu.frame (o := u.irqOwner) fun j hj => ?_
    rw [pdmCardOnline_isr] at hj
    exact ⟨hj, rfl⟩
  unfold cardOnline
  split_ifs with hcalls
  · obtain ⟨ret, u, hon, hu⟩ := udfOnline_inv h slot cardBaseAddr env
    rw [hon]
    exact ⟨_, rfl, hpdm ret u hu⟩
  · exact ⟨_, rfl, hpdm 0 s h⟩

theorem cardOffline_inv (h : DevInv s) (c : Cfg) (slot : ℤ) : ∃ t, cardOffline c slot s = .ok t ∧ DevInv t := by
  have hpdm : DevInv { s with drv := pdmCardOffline slot s.drv, irqOwner := freedOwner slot s } := by
    refine h.frame fun j hj => ?_
    rw [pdmCardOffline_isr] at hj
    split_ifs at hj with hcard
    · exact absurd rfl hj
    · exact ⟨hj, if_neg hcard⟩
  unfold cardOffline
  dsimp only
  split_ifs with hcalls
  · exact udfOffline_inv hpdm slot
  · exact ⟨_, rfl, hpdm⟩

end Functions

/-! ## Runs -/

theorem load_inv (c : Cfg) (masked : SlotId → Bool) : DevInv (DevSt.load c masked) where
  cdev := rfl
  hwAddr := fun _ _ => rfl
  devSet := fun _ _ h => nomatch h
  heap := fun _ _ h => nomatch h
  gen_lt := fun _ _ h => nomatch h
  gen_inj := fun _ _ _ _ h => nomatch h
  file := fun _ _ h => nomatch h

theorem devStep_inv {c : Cfg} {s : DevSt} {op : DevOp} (h : DevInv s) (hstay : CardStayed s op) :
    ∃ t, devStep c s op = .ok t ∧ DevInv t := by
  cases op with
  | cardOnline slot cardType cardBaseAddr env => exact cardOnline_inv h c slot cardType cardBaseAddr env
  | cardOffline slot => exact cardOffline_inv h c slot
  | udfOpen i drvOpen =>
    obtain ⟨ret, t, hopen, ht⟩ := udfOpen_inv h c i drvOpen
    exact ⟨t, by rw [devStep, hopen]; rfl, ht⟩
  | udfRelease f => exact udfRelease_inv h hstay

/-- where the invariant holds, a release is of the right instance and registration iff the card stayed -/
theorem releasesOwn_iff {s : DevSt} (op : DevOp) (h : DevInv s) : ReleasesOwn s op ↔ CardStayed s op := by
  cases op with
  | udfRelease f =>
    refine forall₂_congr fun file hf => ?_
    obtain ⟨-, -, hstale, hfresh⟩ := h.file f file hf
    constructor
    · rintro ⟨x, hx, hxgen, -⟩
      by_contra hoff
      exact hstale (Ne.symm hoff) _ x hx hxgen
    · intro hoff
      obtain ⟨x, hx, hxgen, hxslot, -, hxirq⟩ := hfresh hoff.symm
      exact ⟨x, hx, hxgen, hxslot ▸ hxirq⟩
  | cardOnline | cardOffline | udfOpen => exact Iff.rfl

/-- if the card stays for every file until it is released, no function follows a pointer to a freed instance -/
theorem devRun_returns (c : Cfg) (masked : SlotId → Bool) {ops : List DevOp}
    (hstay : Always (devStep c) CardStayed (DevSt.load c masked) ops) :
    ∃ t, runFrom (devStep c) (DevSt.load c masked) ops = .ok t ∧ DevInv t :=
  runFrom_total (fun _ _ h hop => devStep_inv h hop) (load_inv c masked) hstay

/-- **A late close is harmless iff the card is still there.** In a run of cards that come and go, opens and releases,
every release acts on the instance its own open found, still allocated, and takes no registration but the one its own
open made, iff every release is of a file for whose slot no `udf_offline` ran since it was opened. -/
theorem release_own_iff (c : Cfg) (masked : SlotId → Bool) (ops : List DevOp) :
    Always (devStep c) ReleasesOwn (DevSt.load c masked) ops ↔
      Always (devStep c) CardStayed (DevSt.load c masked) ops := by
  refine always_iff (I := DevInv) (fun s op h => releasesOwn_iff op h) ?_ (load_inv c masked)
  intro s op t h hstay ht
  obtain ⟨t', ht', hinv⟩ := devStep_inv h hstay
  rw [ht, Except.ok.injEq] at ht'
  exact ht' ▸ hinv

/-- a card is opened, taken out and put in again, its instance gets the address of the old one and is opened too: the
late close of the first file takes the slot interrupt registration of the second. If the address is not used again, it
follows a pointer to freed memory. -/
theorem late_close : let c : Cfg := ⟨1, 10, 11, 12, ⟨none, none⟩⟩
    let env : OnlineEnv := ⟨some 100, 0, true, 0⟩
    ¬ Always (devStep c) ReleasesOwn (DevSt.load c fun _ => true) [.cardOnline 1 1 (some 1000) env, .udfOpen 1 true,
      .cardOffline 1, .cardOnline 1 1 (some 1000) env, .udfOpen 1 true, .udfRelease 0] ∧
    runFrom (devStep c) (DevSt.load c fun _ => true) [.cardOnline 1 1 (some 1000) env, .udfOpen 1 true,
      .cardOffline 1, .udfRelease 0] = .error (.useAfterFree 100) := by
  refine ⟨by decide +kernel, rfl⟩

end LinuxDrv.Udf
