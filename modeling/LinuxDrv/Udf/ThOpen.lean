/-
Opening and releasing the top half of a driver (`th/udf_dth.c`), over both bottom halves.

In user mode the bottom half is a library (`bh_lib/udf_dbh.c`): its handle is a file descriptor, and the registers are
mapped. In kernel mode it is an object (`bh/udf_dbh.c`) that has the address of the registers, and there is nothing to
map. What the kernel and the functions of the user answer is an argument of an open. The kernel gives no block, no
descriptor and no address that is in use.

Every acquisition and release of a block, a descriptor or a mapping is an event of a trace (`Core.Ledger`). `handles`
has the top halves that are open, with what they were opened with.
- `open_spec`, `release_spec`: what an open and a release do to the resources that are held.
- `Leaks`: an open fails after it mapped the registers. It closes the bottom half and does not unmap them, though
  `udf_th_release` does.
- `open_release_exact_iff`: the resources that are held after a sequence of calls are exactly those of the handles that
  are open iff no open of the sequence leaks. `kernel_mode_exact`: in kernel mode none does.
-/
import LinuxDrv.Core.Ledger
import LinuxDrv.Core.Outcome
import LinuxDrv.Driver.Ext
import Mathlib.Data.List.Perm.Basic

namespace LinuxDrv.Udf.Top

open LinuxDrv.Core LinuxDrv.Driver

/-- `DRV_USR_MODE` or not -/
inductive Mode where
  | usr
  | kernel
deriving DecidableEq

/-- what is acquired and released -/
inductive Res where
  | block (p : Ptr)
  | fd (fd : ℤ)
  | map (addr : Ptr) (size : ℕ)
deriving DecidableEq

/-- `SUDF_KDRV_DATA`, the object of the bottom half in kernel mode -/
structure BhObj where
  addr : Ptr
  slot : ℤ
  hwAddr : Option Ptr
deriving DecidableEq

/-- `udf_bh_rep_t` -/
inductive BhRep where
  | fd (fd : ℤ)
  | obj (o : Option BhObj)
deriving DecidableEq

/-- `SUDF_DRV_DATA`, at its address -/
structure ThData where
  addr : Ptr
  slotId : ℤ
  hwAddr : Ptr
  memSize : ℕ
  bhRep : BhRep
deriving DecidableEq

structure ThSt where
  trace : List (ResEv Res)
  handles : List ThData

def ThSt.load : ThSt := ⟨[], []⟩

/-- the answers to an open: the results of the calls that it makes, in their order -/
structure OpenEnv where
  malloc : Option Ptr
  /-- the bottom half in user mode: `open`, the size query (none if it fails), and `mmap` -/
  bhFd : ℤ
  memSize : Option ℕ
  mmap : Option Ptr
  /-- the bottom half in kernel mode: its block, the address of the registers, and its `udf_ctor_drv_ds` -/
  bhMalloc : Option Ptr
  hwBase : Option Ptr
  bhCtor : ℤ
  /-- what the block has for `mem_size` before it is written -/
  memInit : ℕ
  getDrvOpSet : ℤ
  ctor : ℤ

namespace ThSt

/-- what is held -/
def live (s : ThSt) : List Res := (heldAfter [] s.trace).getD []

def acquire (r : Res) (s : ThSt) : ThSt := { s with trace := s.trace ++ [.acquire r] }

def release (r : Res) (s : ThSt) : ThSt := { s with trace := s.trace ++ [.release r] }

end ThSt

/-! ## The kernel -/

/-- `UKC_MALLOC` -/
def ukcMalloc (want : Option Ptr) (s : ThSt) : Option Ptr := want.filter fun p => decide (.block p ∉ s.live)

/-- `UKC_FREE` -/
def ukcFree (p : Ptr) (s : ThSt) : ThSt := s.release (.block p)

def openFd (want : ℤ) (s : ThSt) : ℤ := if 0 ≤ want ∧ .fd want ∈ s.live then -1 else want

/-- the address is the one of a mapping -/
def Res.isMapAt (a : Ptr) : Res → Bool
  | .map b _ => b == a
  | _ => false

def mmap (size : ℕ) (want : Option Ptr) (s : ThSt) : Option Ptr :=
  want.filter fun a => decide (size ≠ 0) && !s.live.any (Res.isMapAt a)

/-! ## Bottom halves -/

namespace BhLib

/-- `udf_bh_open` -/
def udfBhOpen (env : OpenEnv) (s : ThSt) : ℤ × ThSt :=
  let fd := openFd env.bhFd s
  (fd, if 0 ≤ fd then s.acquire (.fd fd) else s)

/-- `udf_bh_release` -/
def udfBhRelease (fd : ℤ) (s : ThSt) : ThSt := s.release (.fd fd)

/-- `udf_bh_capture_hw_addr`: the address, and `*p_mem_size` -/
def udfBhCaptureHwAddr (env : OpenEnv) (s : ThSt) : Option Ptr × ℕ × ThSt :=
  let memSize := env.memSize.getD env.memInit
  match mmap memSize env.mmap s with
  | some a => (some a, memSize, s.acquire (.map a memSize))
  | none => (none, memSize, s)

/-- `udf_bh_release_hw_addr` -/
def udfBhReleaseHwAddr (addr : Ptr) (memSize : ℕ) (s : ThSt) : ThSt := s.release (.map addr memSize)

end BhLib

namespace Bh

/-- `udf_bh_open` -/
def udfBhOpen (slot : ℤ) (env : OpenEnv) (s : ThSt) : Option BhObj × ThSt :=
  match ukcMalloc env.bhMalloc s with
  | none => (none, s)
  | some p =>
    let s := s.acquire (.block p)
    if env.bhCtor < 0 then (none, ukcFree p s) else (some ⟨p, slot, env.hwBase⟩, s)

/-- `udf_bh_release` -/
def udfBhRelease (o : BhObj) (s : ThSt) : ThSt := ukcFree o.addr s

/-- `udf_bh_capture_hw_addr` -/
def udfBhCaptureHwAddr (o : BhObj) (env : OpenEnv) (s : ThSt) : Option Ptr × ℕ × ThSt := (o.hwAddr, env.memInit, s)

/-- `udf_bh_release_hw_addr` -/
def udfBhReleaseHwAddr (_addr : Ptr) (_memSize : ℕ) (s : ThSt) : ThSt := s

end Bh

/-! ### By mode -/

/-- `IS_UDF_BH_REP_ERR` -/
def BhRep.isErr : BhRep → Bool
  | .fd x => decide (x < 0)
  | .obj o => o.isNone

def udfBhOpen (m : Mode) (slot : ℤ) (env : OpenEnv) (s : ThSt) : BhRep × ThSt :=
  match m with
  | .usr =>
    let x := BhLib.udfBhOpen env s
    (.fd x.1, x.2)
  | .kernel =>
    let x := Bh.udfBhOpen slot env s
    (.obj x.1, x.2)

def udfBhRelease (rep : BhRep) (s : ThSt) : ThSt :=
  match rep with
  | .fd fd => BhLib.udfBhRelease fd s
  | .obj (some o) => Bh.udfBhRelease o s
  | .obj none => s

def udfBhCaptureHwAddr (rep : BhRep) (env : OpenEnv) (s : ThSt) : Option Ptr × ℕ × ThSt :=
  match rep with
  | .fd _ => BhLib.udfBhCaptureHwAddr env s
  | .obj (some o) => Bh.udfBhCaptureHwAddr o env s
  | .obj none => (none, env.memInit, s)

def udfBhReleaseHwAddr (rep : BhRep) (addr : Ptr) (memSize : ℕ) (s : ThSt) : ThSt :=
  match rep with
  | .fd _ => BhLib.udfBhReleaseHwAddr addr memSize s
  | .obj _ => Bh.udfBhReleaseHwAddr addr memSize s

/-! ## The top half -/

/-- the labels `err_exit2` and `err_exit` -/
def errExit2 (p : Ptr) (rep : BhRep) (s : ThSt) : ThSt := ukcFree p (udfBhRelease rep s)

/-- `udf_th_open` -/
def udfThOpen (m : Mode) (slot : ℤ) (env : OpenEnv) (s : ThSt) : Option ThData × ThSt :=
  match ukcMalloc env.malloc s with
  | none => (none, s)
  | some p =>
    let x := udfBhOpen m slot env (s.acquire (.block p))
    if x.1.isErr then (none, ukcFree p x.2)
    else
      let y := udfBhCaptureHwAddr x.1 env x.2
      match y.1 with
      | none => (none, errExit2 p x.1 y.2.2)
      | some a =>
        if env.getDrvOpSet < 0 then (none, errExit2 p x.1 y.2.2)
        else if env.ctor < 0 then (none, errExit2 p x.1 y.2.2)
        else
          let d := ⟨p, slot, a, y.2.1, x.1⟩
          (some d, { y.2.2 with handles := d :: y.2.2.handles })

/-- `udf_th_release` -/
def udfThRelease (d : ThData) (s : ThSt) : ThSt :=
  let s := udfBhReleaseHwAddr d.bhRep d.hwAddr d.memSize s
  let s := udfBhRelease d.bhRep s
  let s := ukcFree d.addr s
  { s with handles := s.handles.erase d }

/-! ## Runs -/

/-- a call; a release is one of a handle that is open -/
inductive ThOp where
  | thOpen (slot : ℤ) (env : OpenEnv)
  | thRelease (p : Ptr)

def thStep (m : Mode) (s : ThSt) : ThOp → ThSt
  | .thOpen slot env => (udfThOpen m slot env s).2
  | .thRelease p =>
    match s.handles.find? fun d => decide (d.addr = p) with
    | some d => udfThRelease d s
    | none => s

def thRun (m : Mode) (s : ThSt) (ops : List ThOp) : ThSt := ops.foldl (thStep m) s

/-- the resources of a handle -/
def ThData.res (d : ThData) : List Res :=
  match d.bhRep with
  | .fd fd => [.map d.hwAddr d.memSize, .fd fd, .block d.addr]
  | .obj (some o) => [.block o.addr, .block d.addr]
  | .obj none => [.block d.addr]

/-- the resources that are held are those of the handles that are open, each of them once -/
def Exact (s : ThSt) : Prop := Leaves s.trace (s.handles.flatMap ThData.res)

/-- the open maps the registers and fails afterwards -/
def Leaks (m : Mode) (s : ThSt) : ThOp → Prop
  | .thOpen _ env => m = .usr ∧ ukcMalloc env.malloc s ≠ none ∧ 0 ≤ openFd env.bhFd s ∧
      mmap (env.memSize.getD env.memInit) env.mmap s ≠ none ∧ (env.getDrvOpSet < 0 ∨ env.ctor < 0)
  | .thRelease _ => False

instance (m : Mode) (s : ThSt) (o : ThOp) : Decidable (Leaks m s o) := by
  cases o with
  | thOpen slot env => exact inferInstanceAs (Decidable (_ ∧ _ ∧ _ ∧ _ ∧ _))
  | thRelease p => exact inferInstanceAs (Decidable False)

/-- no open of the sequence leaks -/
def NoLeak (m : Mode) : ThSt → List ThOp → Prop
  | _, [] => True
  | s, o :: ops => ¬ Leaks m s o ∧ NoLeak m (thStep m s o) ops

/-! ## What the kernel gives is not held -/

/-- the resources `rs` are held -/
abbrev Holding (s : ThSt) (rs : List Res) : Prop := Leaves s.trace rs

section Kernel

variable {s : ThSt} {rs : List Res} {r : Res}

theorem mem_live (h : Holding s rs) : r ∈ s.live ↔ r ∈ rs := h.mem_iff

theorem Holding.acquire (h : Holding s rs) (hr : r ∉ rs) : Holding (s.acquire r) (r :: rs) := Leaves.acquire h hr

theorem Holding.release (h : Holding s (r :: rs)) : Holding (s.release r) rs := Leaves.release h

theorem ukcMalloc_eq (h : Holding s rs) (want : Option Ptr) : ukcMalloc want s =
    want.filter fun p => decide (.block p ∉ rs) := by
  unfold ukcMalloc
  congr 1
  funext p
  exact decide_eq_decide.2 (not_congr (mem_live h))

theorem notMem_of_ukcMalloc (h : Holding s rs) {want : Option Ptr} {p : Ptr} (hp : ukcMalloc want s = some p) :
    .block p ∉ rs := by
  rw [ukcMalloc_eq h] at hp
  exact of_decide_eq_true (Option.filter_eq_some_iff.1 hp).2

theorem openFd_eq (h : Holding s rs) (want : ℤ) : openFd want s = if 0 ≤ want ∧ .fd want ∈ rs then -1 else want := by
  unfold openFd
  simp only [mem_live h]

theorem notMem_of_openFd (h : Holding s rs) {want : ℤ} (hfd : 0 ≤ openFd want s) : .fd (openFd want s) ∉ rs := by
  rw [openFd_eq h] at hfd ⊢
  split_ifs at hfd ⊢ with hused
  · exact absurd hfd (by decide)
  · exact fun hm => hused ⟨hfd, hm⟩

theorem any_live (h : Holding s rs) (f : Res → Bool) : s.live.any f = rs.any f := by
  rw [Bool.eq_iff_iff, List.any_eq_true, List.any_eq_true]
  simp only [mem_live h]

theorem mmap_eq (h : Holding s rs) (size : ℕ) (want : Option Ptr) : mmap size want s =
    want.filter fun a => decide (size ≠ 0) && !rs.any (Res.isMapAt a) := by
  unfold mmap
  congr 1
  funext a
  rw [any_live h]

theorem notMem_of_mmap (h : Holding s rs) {size : ℕ} {want : Option Ptr} {a : Ptr} (ha : mmap size want s = some a) :
    .map a size ∉ rs := by
  rw [mmap_eq h] at ha
  have hfree := (Option.filter_eq_some_iff.1 ha).2
  rw [Bool.and_eq_true, Bool.not_eq_true'] at hfree
  intro hm
  have hany : rs.any (Res.isMapAt a) = true := List.any_eq_true.2 ⟨.map a size, hm, by simp [Res.isMapAt]⟩
  rw [hany] at hfree
  exact absurd hfree.2 (by decide)

end Kernel

/-! ## One call -/

section Calls

variable {m : Mode} {s : ThSt} {env : OpenEnv} {slot : ℤ} {rs : List Res} {p : Ptr}

/-- what `udf_bh_open` leaves: the resources of its handle, if it is one -/
def BhRep.res : BhRep → List Res
  | .fd x => [.fd x]
  | .obj (some o) => [.block o.addr]
  | .obj none => []

theorem bhOpen_spec (h : Holding s rs) (m : Mode) (slot : ℤ) (env : OpenEnv) :
    (udfBhOpen m slot env s).2.handles = s.handles ∧
    (((udfBhOpen m slot env s).1.isErr = true ∧ Holding (udfBhOpen m slot env s).2 rs) ∨
      ((udfBhOpen m slot env s).1.isErr = false ∧
        Holding (udfBhOpen m slot env s).2 ((udfBhOpen m slot env s).1.res ++ rs))) := by
  cases m with
  | usr =>
    simp only [udfBhOpen, BhLib.udfBhOpen, BhRep.isErr, BhRep.res]
    by_cases hfd : 0 ≤ openFd env.bhFd s
    · rw [if_pos hfd]
      exact ⟨rfl, Or.inr ⟨decide_eq_false (not_lt.2 hfd), h.acquire (notMem_of_openFd h hfd)⟩⟩
    · rw [if_neg hfd]
      exact ⟨rfl, Or.inl ⟨decide_eq_true (not_le.1 hfd), h⟩⟩
  | kernel =>
    simp only [udfBhOpen, Bh.udfBhOpen]
    rcases hp : ukcMalloc env.bhMalloc s with _ | p
    · exact ⟨rfl, Or.inl ⟨rfl, h⟩⟩
    · have hblock := h.acquire (notMem_of_ukcMalloc h hp)
      dsimp only
      by_cases hctor : env.bhCtor < 0
      · rw [if_pos hctor]
        exact ⟨rfl, Or.inl ⟨rfl, hblock.release⟩⟩
      · rw [if_neg hctor]
        exact ⟨rfl, Or.inr ⟨rfl, hblock⟩⟩

/-- `udf_bh_release` of a valid handle gives back its resources -/
theorem bhRelease_spec {rep : BhRep} (h : Holding s (rep.res ++ rs)) :
    (udfBhRelease rep s).handles = s.handles ∧ Holding (udfBhRelease rep s) rs := by
  rcases rep with x | _ | o
  · exact ⟨rfl, Holding.release h⟩
  · exact ⟨rfl, h⟩
  · exact ⟨rfl, Holding.release h⟩

/-- the resources of a mapping that the bottom half made -/
def BhRep.mapRes (a : Ptr) (memSize : ℕ) : BhRep → List Res
  | .fd _ => [.map a memSize]
  | .obj _ => []

theorem capture_spec (h : Holding s rs) (rep : BhRep) (env : OpenEnv) :
    (udfBhCaptureHwAddr rep env s).2.2.handles = s.handles ∧
    match (udfBhCaptureHwAddr rep env s).1 with
    | none => Holding (udfBhCaptureHwAddr rep env s).2.2 rs
    | some a => Holding (udfBhCaptureHwAddr rep env s).2.2
        (rep.mapRes a (udfBhCaptureHwAddr rep env s).2.1 ++ rs) := by
  rcases rep with x | _ | o
  · simp only [udfBhCaptureHwAddr, BhLib.udfBhCaptureHwAddr, BhRep.mapRes]
    rcases ha : mmap (env.memSize.getD env.memInit) env.mmap s with _ | a
    · exact ⟨rfl, h⟩
    · exact ⟨rfl, h.acquire (notMem_of_mmap h ha)⟩
  · exact ⟨rfl, h⟩
  · simp only [udfBhCaptureHwAddr, Bh.udfBhCaptureHwAddr, BhRep.mapRes]
    rcases o.hwAddr with _ | a
    · exact ⟨trivial, h⟩
    · exact ⟨trivial, h⟩

theorem errExit2_spec {rep : BhRep} {ks : List Res} (h : Holding s (ks ++ (rep.res ++ .block p :: rs))) :
    (errExit2 p rep s).handles = s.handles ∧ Holding (errExit2 p rep s) (ks ++ rs) := by
  have hswap : (ks ++ (rep.res ++ .block p :: rs)).Perm (rep.res ++ (ks ++ .block p :: rs)) :=
    List.perm_append_comm_assoc _ _ _
  have hblock : (rep.res ++ (ks ++ .block p :: rs)).Perm (rep.res ++ .block p :: (ks ++ rs)) :=
    List.perm_middle.append_left _
  have hfirst : Holding s (rep.res ++ .block p :: (ks ++ rs)) := Leaves.perm h (hswap.trans hblock)
  obtain ⟨hhandles, hbh⟩ := bhRelease_spec hfirst
  exact ⟨hhandles, hbh.release⟩

theorem ThData.res_eq (d : ThData) : d.res = d.bhRep.mapRes d.hwAddr d.memSize ++ (d.bhRep.res ++ [.block d.addr]) := by
  rcases d with ⟨addr, slotId, hwAddr, memSize, x | _ | o⟩ <;> rfl

/-- only the library maps the registers -/
theorem mapRes_eq_nil (m : Mode) (slot : ℤ) (env : OpenEnv) (s : ThSt) (a : Ptr) (n : ℕ) :
    (udfBhOpen m slot env s).1.mapRes a n = [] ↔ m ≠ .usr := by
  cases m with
  | usr => exact iff_of_false (List.cons_ne_nil _ _) (fun h => h rfl)
  | kernel => exact iff_of_true rfl (by decide)

/-- the bottom half that an open gets after its block p -/
abbrev afterBh (m : Mode) (slot : ℤ) (env : OpenEnv) (s : ThSt) (p : Ptr) : BhRep × ThSt :=
  udfBhOpen m slot env (s.acquire (.block p))

/-- and the registers -/
abbrev afterCapture (m : Mode) (slot : ℤ) (env : OpenEnv) (s : ThSt) (p : Ptr) : Option Ptr × ℕ × ThSt :=
  udfBhCaptureHwAddr (afterBh m slot env s p).1 env (afterBh m slot env s p).2

/-- an open leaks, in terms of what its steps gave -/
theorem leaks_iff (h : Holding s rs) (hp : ukcMalloc env.malloc s = some p) (m : Mode) (slot : ℤ) :
    Leaks m s (.thOpen slot env) ↔ m = .usr ∧ (afterBh m slot env s p).1.isErr = false ∧
      (afterCapture m slot env s p).1 ≠ none ∧ (env.getDrvOpSet < 0 ∨ env.ctor < 0) := by
  cases m with
  | kernel => simp [Leaks]
  | usr =>
    have hblock := h.acquire (notMem_of_ukcMalloc h hp)
    have hfd : openFd env.bhFd (s.acquire (.block p)) = openFd env.bhFd s := by
      rw [openFd_eq hblock, openFd_eq h]
      simp
    simp only [Leaks, afterCapture, afterBh, udfBhOpen, BhLib.udfBhOpen, BhRep.isErr, hfd, hp,
      decide_eq_false_iff_not, not_lt, udfBhCaptureHwAddr, BhLib.udfBhCaptureHwAddr, true_and, ne_eq, reduceCtorEq,
      not_false_eq_true]
    apply and_congr_right
    intro hnn
    rw [if_pos hnn]
    have hopen := hblock.acquire (r := .fd (openFd env.bhFd s)) (by
      rw [← hfd] at hnn ⊢
      exact notMem_of_openFd hblock hnn)
    have hmmap : mmap (env.memSize.getD env.memInit) env.mmap
        ((s.acquire (.block p)).acquire (.fd (openFd env.bhFd s))) =
        mmap (env.memSize.getD env.memInit) env.mmap s := by
      rw [mmap_eq hopen, mmap_eq h]
      simp [Res.isMapAt]
    rw [hmmap]
    apply and_congr_left
    intro _
    rcases mmap (env.memSize.getD env.memInit) env.mmap s with _ | a
    · simp
    · simp

variable {lk : List Res}

/-- the resources of a state: those that leaked, and those of the handles -/
abbrev Owns (s : ThSt) (lk : List Res) : Prop := Holding s (lk ++ s.handles.flatMap ThData.res)

theorem open_of_bh_err (h : Owns s lk) (hp : ukcMalloc env.malloc s = some p)
    (herr : (afterBh m slot env s p).1.isErr = true) : Owns (udfThOpen m slot env s).2 lk := by
  obtain ⟨hhandles, hbh⟩ := bhOpen_spec (h.acquire (notMem_of_ukcMalloc h hp)) m slot env
  rcases hbh with ⟨-, hbh⟩ | ⟨hok, -⟩
  · have hfreed : Holding (ukcFree p (afterBh m slot env s p).2) _ := hbh.release
    rw [udfThOpen, hp]
    dsimp only
    rw [if_pos herr, Owns, show (ukcFree p (afterBh m slot env s p).2).handles = s.handles from hhandles]
    exact hfreed
  · exact absurd (herr.symm.trans hok) (by decide)

/-- what is held after the registers are captured, or not -/
theorem afterCapture_spec (h : Owns s lk) (hp : ukcMalloc env.malloc s = some p)
    (hok : (afterBh m slot env s p).1.isErr = false) :
    (afterCapture m slot env s p).2.2.handles = s.handles ∧
    match (afterCapture m slot env s p).1 with
    | none => Holding (afterCapture m slot env s p).2.2
        ((afterBh m slot env s p).1.res ++ .block p :: (lk ++ s.handles.flatMap ThData.res))
    | some a => Holding (afterCapture m slot env s p).2.2 ((afterBh m slot env s p).1.mapRes a
        (afterCapture m slot env s p).2.1 ++ ((afterBh m slot env s p).1.res ++
          .block p :: (lk ++ s.handles.flatMap ThData.res))) := by
  obtain ⟨hhandles, hbh⟩ := bhOpen_spec (h.acquire (notMem_of_ukcMalloc h hp)) m slot env
  rcases hbh with ⟨herr, -⟩ | ⟨-, hbh⟩
  · exact absurd (herr.symm.trans hok) (by decide)
  · obtain ⟨hcapture, hheld⟩ := capture_spec hbh (afterBh m slot env s p).1 env
    exact ⟨hcapture.trans hhandles, hheld⟩

theorem open_of_capture_fails (h : Owns s lk) (hp : ukcMalloc env.malloc s = some p)
    (hok : (afterBh m slot env s p).1.isErr = false) (hnone : (afterCapture m slot env s p).1 = none) :
    Owns (udfThOpen m slot env s).2 lk := by
  obtain ⟨hhandles, hheld⟩ := afterCapture_spec h hp hok
  rw [hnone] at hheld
  have hheld' : Holding (afterCapture m slot env s p).2.2 ([] ++ _) := hheld
  obtain ⟨herrh, herr⟩ := errExit2_spec hheld'
  rw [udfThOpen, hp]
  dsimp only
  rw [if_neg (by rw [hok]; decide), hnone]
  dsimp only
  rw [Owns, herrh, hhandles]
  exact herr

section Mapped

variable {a : Ptr}

/-- what fails after the registers are captured leaves their mapping -/
theorem open_of_refused (h : Owns s lk) (hp : ukcMalloc env.malloc s = some p)
    (hok : (afterBh m slot env s p).1.isErr = false) (ha : (afterCapture m slot env s p).1 = some a)
    (hneg : env.getDrvOpSet < 0 ∨ env.ctor < 0) : Owns (udfThOpen m slot env s).2
      ((afterBh m slot env s p).1.mapRes a (afterCapture m slot env s p).2.1 ++ lk) := by
  obtain ⟨hhandles, hheld⟩ := afterCapture_spec h hp hok
  rw [ha] at hheld
  obtain ⟨herrh, herr⟩ := errExit2_spec hheld
  have hexit : (udfThOpen m slot env s).2 =
      errExit2 p (afterBh m slot env s p).1 (afterCapture m slot env s p).2.2 := by
    rw [udfThOpen, hp]
    dsimp only
    rw [if_neg (by rw [hok]; decide), ha]
    dsimp only
    by_cases hset : env.getDrvOpSet < 0
    · rw [if_pos hset]
    · rw [if_neg hset, if_pos (hneg.resolve_left hset)]
  rw [hexit, Owns, herrh, hhandles, List.append_assoc]
  exact herr

theorem open_of_ok (h : Owns s lk) (hp : ukcMalloc env.malloc s = some p)
    (hok : (afterBh m slot env s p).1.isErr = false) (ha : (afterCapture m slot env s p).1 = some a)
    (hset : ¬ env.getDrvOpSet < 0) (hctor : ¬ env.ctor < 0) : Owns (udfThOpen m slot env s).2 lk := by
  obtain ⟨hhandles, hheld⟩ := afterCapture_spec h hp hok
  rw [ha] at hheld
  dsimp only at hheld
  rw [udfThOpen, hp]
  dsimp only
  rw [if_neg (by rw [hok]; decide), ha]
  dsimp only
  rw [if_neg hset, if_neg hctor, Owns]
  dsimp only
  rw [hhandles, List.flatMap_cons, ThData.res_eq]
  -- the resources are those of the new handle, and those of the others
  apply Leaves.perm hheld
  set others := s.handles.flatMap ThData.res
  set bh := (afterBh m slot env s p).1
  set size := (afterCapture m slot env s p).2.1
  calc bh.mapRes a size ++ (bh.res ++ .block p :: (lk ++ others))
      = bh.mapRes a size ++ (bh.res ++ [.block p]) ++ (lk ++ others) := by simp
    List.Perm _ (lk ++ (bh.mapRes a size ++ (bh.res ++ [.block p]) ++ others)) := List.perm_append_comm_assoc _ _ _

end Mapped

/-- an open leaves its resources to its handle, or none; a mapping if it leaks -/
theorem open_spec (h : Owns s lk) (m : Mode) (slot : ℤ) (env : OpenEnv) :
    ∃ lk', Owns (udfThOpen m slot env s).2 (lk' ++ lk) ∧ (lk' = [] ↔ ¬ Leaks m s (.thOpen slot env)) := by
  rcases hp : ukcMalloc env.malloc s with _ | p
  · refine ⟨[], ?_, iff_of_true rfl ?_⟩
    · rw [udfThOpen, hp]
      exact h
    · rintro ⟨-, hne, -⟩
      exact hne hp
  have hleaks := leaks_iff h hp m slot
  rcases hok : (afterBh m slot env s p).1.isErr with _ | _
  · rcases ha : (afterCapture m slot env s p).1 with _ | a
    · refine ⟨[], open_of_capture_fails h hp hok ha, iff_of_true rfl ?_⟩
      rw [hleaks]
      exact fun hl => hl.2.2.1 ha
    · by_cases hneg : env.getDrvOpSet < 0 ∨ env.ctor < 0
      · refine ⟨_, open_of_refused h hp hok ha hneg, ?_⟩
        rw [mapRes_eq_nil, hleaks]
        apply not_congr
        exact ⟨fun hm => ⟨hm, hok, by rw [ha]; exact Option.some_ne_none a, hneg⟩, fun hl => hl.1⟩
      · obtain ⟨hset, hctor⟩ := not_or.1 hneg
        refine ⟨[], open_of_ok h hp hok ha hset hctor, iff_of_true rfl ?_⟩
        rw [hleaks]
        exact fun hl => hneg hl.2.2.2
  · refine ⟨[], open_of_bh_err h hp hok, iff_of_true rfl ?_⟩
    rw [hleaks]
    exact fun hl => absurd (hok.symm.trans hl.2.1) (by decide)

/-- a release gives back the resources of its handle -/
theorem release_spec (h : Owns s lk) {d : ThData} (hd : d ∈ s.handles) : Owns (udfThRelease d s) lk := by
  have hperm : (s.handles.flatMap ThData.res).Perm (d.res ++ (s.handles.erase d).flatMap ThData.res) :=
    (List.perm_cons_erase hd).flatMap_right ThData.res
  have hfirst : Holding s (d.res ++ (lk ++ (s.handles.erase d).flatMap ThData.res)) := by
    apply Leaves.perm h
    calc lk ++ s.handles.flatMap ThData.res
      List.Perm _ (lk ++ (d.res ++ (s.handles.erase d).flatMap ThData.res)) := hperm.append_left lk
      List.Perm _ (d.res ++ (lk ++ (s.handles.erase d).flatMap ThData.res)) := List.perm_append_comm_assoc _ _ _
  rcases d with ⟨addr, slotId, hwAddr, memSize, x | _ | o⟩
  · exact hfirst.release.release.release
  · exact hfirst.release
  · exact hfirst.release.release

/-! ## Sequences of calls -/

theorem step_spec (h : Owns s lk) (m : Mode) (o : ThOp) :
    ∃ lk', Owns (thStep m s o) (lk' ++ lk) ∧ (lk' = [] ↔ ¬ Leaks m s o) := by
  cases o with
  | thOpen slot env => exact open_spec h m slot env
  | thRelease p =>
    refine ⟨[], ?_, iff_of_true rfl id⟩
    dsimp only [thStep]
    split
    next d hd => exact release_spec h (List.mem_of_find?_eq_some hd)
    next => exact h

/-- what leaks stays -/
theorem run_spec (h : Owns s lk) (m : Mode) (ops : List ThOp) :
    ∃ lk', Owns (thRun m s ops) (lk' ++ lk) ∧ (lk' = [] ↔ NoLeak m s ops) := by
  induction ops generalizing s lk with
  | nil => exact ⟨[], h, iff_of_true rfl trivial⟩
  | cons o ops ih =>
    obtain ⟨lk₁, h₁, hiff₁⟩ := step_spec h m o
    obtain ⟨lk₂, h₂, hiff₂⟩ := ih h₁
    refine ⟨lk₂ ++ lk₁, by rwa [List.append_assoc], ?_⟩
    rw [List.append_eq_nil_iff, hiff₁, hiff₂, NoLeak, and_comm]

theorem load_owns : Owns ThSt.load [] := Leaves.nil

/-- nothing else is held iff nothing leaked -/
theorem exact_iff (h : Owns s lk) : Exact s ↔ lk = [] := by
  constructor
  · intro hexact
    have hlen := (Leaves.unique h hexact).length_eq
    rw [List.length_append] at hlen
    exact List.length_eq_zero_iff.1 (by omega)
  · rintro rfl
    exact h

/-- **When opening leaks nothing.** After every sequence of opens, with any of their steps failing, and of releases, in
either mode: the resources that are held are exactly those of the handles that are open, each of them acquired once and
not released, iff no open of the sequence failed after it mapped the registers. -/
theorem open_release_exact_iff (m : Mode) (ops : List ThOp) :
    Exact (thRun m ThSt.load ops) ↔ NoLeak m ThSt.load ops := by
  obtain ⟨lk, howns, hiff⟩ := run_spec load_owns m ops
  rw [List.append_nil] at howns
  exact (exact_iff howns).trans hiff

/-- in kernel mode no open leaks -/
theorem kernel_mode_exact (ops : List ThOp) : Exact (thRun .kernel ThSt.load ops) := by
  have hnoLeak : ∀ s, NoLeak .kernel s ops := by
    induction ops with
    | nil => exact fun _ => trivial
    | cons o ops ih =>
      intro s
      refine ⟨?_, ih _⟩
      cases o with
      | thOpen slot env => exact fun h => absurd h.1 (by decide)
      | thRelease p => exact id
  obtain ⟨lk, howns, hiff⟩ := run_spec load_owns .kernel ops
  rw [List.append_nil] at howns
  exact (exact_iff howns).2 (hiff.2 (hnoLeak _))

/-- an open in user mode whose `udf_ctor_drv_ds` fails, after all else succeeded -/
def ctorFails : ThOp := .thOpen 0
  { malloc := some 0x1000, bhFd := 3, memSize := some 0x28, mmap := some 0x7000, bhMalloc := none, hwBase := none,
    bhCtor := 0, memInit := 0, getDrvOpSet := 0, ctor := -1 }

/-- the mapping is still there, and no handle is open -/
theorem ctorFails_leaks : ¬ ∀ (m : Mode) (ops : List ThOp), Exact (thRun m ThSt.load ops) := by
  intro hall
  have hlive : heldAfter [] (thRun .usr ThSt.load [ctorFails]).trace = some [.map 0x7000 0x28] := by decide
  obtain ⟨⟨held, hheld, hperm⟩, -⟩ := hall .usr [ctorFails]
  obtain rfl : held = [.map 0x7000 0x28] := Option.some.inj (hheld.symm.trans hlive)
  exact absurd hperm.length_eq (by decide)

end Calls

end LinuxDrv.Udf.Top
