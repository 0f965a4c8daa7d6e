/-
Loading an FPGA (`udf_download_fpga_imp` in `fpga_loader.c`).

The function resets the FPGA, feeds it the bytes of a buffer through a register while a clock is enabled, and polls
until the FPGA says that it is done. Every access of a register, of the buffer, and every delay is an event of a
trace. A register holds what was written last, except `fpga_done`: what its reads give comes from outside, as do the
bits of a variable that C does not initialise. The buffer is a piece of memory at the addresses from 0 on.

The macros of `reg_def_toolkit.h` assign a field by one read and one write of its register. The fields of one bit are in
bit 0, `FPGA_LOADER` in the bits 0 to 7, with either byte order.
- `sendData_spec`, `waitDone_spec`: what the two loops do.
- `Keeps`: no bit outside the named fields has changed, and none was written with another value.
- `imp_sequence`, `fpga_sequence`: the whole call.
- `assBit_eq_put`, `isDone_eq_get`, `loader_eq_put`: the accesses are those of the fields that `cpld_cmm_t` defines.
-/
import LinuxDrv.Core.Outcome
import LinuxDrv.Driver.RegDef
import Mathlib.Data.BitVec
import Mathlib.Data.List.Range

namespace LinuxDrv.Udf

/-- a register of `cpld_cmm_t`, by its address -/
abbrev CpldReg := Fin 0x14

def clkEn : CpldReg := 0x0F
def fpgaDone : CpldReg := 0x10
def fpgaProgH : CpldReg := 0x11
def fpgaProgL : CpldReg := 0x12
def fpgaLoader : CpldReg := 0x13

inductive CpldEv where
  | rd (r : CpldReg) (v : BitVec 16)
  | wr (r : CpldReg) (v : BitVec 16)
  /-- the byte at k of the buffer is read -/
  | buf (k : ℤ)
  | sleep (us : ℕ)
deriving DecidableEq

/-- the chip, how often `fpga_done` was read, and what happened -/
structure Cpld where
  reg : CpldReg → BitVec 16
  polls : ℕ
  trace : List CpldEv

/-- the chip before a call -/
def Cpld.start (reg : CpldReg → BitVec 16) : Cpld := ⟨reg, 0, []⟩

/-- the values that the reads of `fpga_done` give, and the unnamed bits of `data_2_write` -/
structure FpgaEnv where
  done : ℕ → BitVec 16
  pad : ℤ → BitVec 8

/-- `FPGA_DONE` is set in a value of its register -/
def isDone (v : BitVec 16) : Bool := v.getLsbD 0

section Imp

variable (env : FpgaEnv) (mem : ℤ → BitVec 8)

/-! ## Registers -/

def rdReg (r : CpldReg) (c : Cpld) : BitVec 16 × Cpld :=
  if r = fpgaDone then
    (env.done c.polls, { c with polls := c.polls + 1, trace := c.trace ++ [.rd r (env.done c.polls)] })
  else (c.reg r, { c with trace := c.trace ++ [.rd r (c.reg r)] })

def wrReg (r : CpldReg) (v : BitVec 16) (c : Cpld) : Cpld :=
  { c with reg := Function.update c.reg r v, trace := c.trace ++ [.wr r v] }

/-- the assignment of a field of one bit -/
def assBit (b : Bool) (v : BitVec 16) : BitVec 16 := if b then v ||| 1#16 else v &&& ~~~1#16

/-- `MT_CHIP_ASS_BF` -/
def mtChipAssBf (r : CpldReg) (b : Bool) (c : Cpld) : Cpld :=
  let x := rdReg env r c
  wrReg r (assBit b x.1) x.2

/-- `MT_CHIP_GET_BIT` of `FPGA_DONE` -/
def mtChipGetDone (c : Cpld) : Bool × Cpld :=
  let x := rdReg env fpgaDone c
  (isDone x.1, x.2)

/-- `ukc_ussleep` -/
def ukcUssleep (us : ℕ) (c : Cpld) : Cpld := { c with trace := c.trace ++ [.sleep us] }

/-! ## udf_download_fpga_imp -/

/-- the loop that sends the data, from a pointer to the byte before the next one -/
def sendData (pBuf pBufEnd : ℤ) (c : Cpld) : Cpld :=
  if pBuf < pBufEnd then
    let c := { c with trace := c.trace ++ [.buf (pBuf + 1)] }
    sendData (pBuf + 1) pBufEnd (wrReg fpgaLoader (env.pad (pBuf + 1) ++ mem (pBuf + 1)) c)
  else c
termination_by (pBufEnd - pBuf).toNat

/-- the loop that waits, n times at most -/
def waitDone : ℕ → Cpld → Bool × Cpld
  | 0, c => (false, c)
  | n + 1, c =>
    let x := mtChipGetDone env c
    if x.1 then x else waitDone n (ukcUssleep 10000 x.2)

/-- `udf_download_fpga_imp` -/
def udfDownloadFpgaImp (nBytes : BitVec 32) (c : Cpld) : ℤ × Cpld :=
  -- clear
  let c := mtChipAssBf env fpgaProgH false c
  let c := mtChipAssBf env fpgaProgL true c
  let c := ukcUssleep 20000 c
  -- cancel clear
  let c := mtChipAssBf env fpgaProgH true c
  let c := mtChipAssBf env fpgaProgL false c
  let c := ukcUssleep 10000 c
  let x := mtChipGetDone env c
  if x.1 then (-1, x.2)
  else
    let c := mtChipAssBf env clkEn true x.2
    let c := sendData env mem (-1) (-1 + nBytes.toNat) c
    let c := mtChipAssBf env clkEn false c
    let x := waitDone env 500 c
    (if x.1 then 0 else -1, x.2)

end Imp

/-! ## Traces -/

/-- the value of the field of a register -/
def fieldVal (r : CpldReg) (v : BitVec 16) : ℕ := if r = fpgaLoader then (v.setWidth 8).toNat else (v.getLsbD 0).toNat

/-- the fields that were written, with their values -/
def fieldWrites (tr : List CpldEv) : List (CpldReg × ℕ) :=
  tr.filterMap fun
    | .wr r v => some (r, fieldVal r v)
    | _ => none

/-- the bytes of the buffer that were read -/
def bufReads (tr : List CpldEv) : List ℤ :=
  tr.filterMap fun
    | .buf k => some k
    | _ => none

/-- the values that reads of `fpga_done` gave -/
def doneReads (tr : List CpldEv) : List (BitVec 16) :=
  tr.filterMap fun
    | .rd r v => if r = fpgaDone then some v else none
    | _ => none

/-- the bit is in a named field of a register that the function assigns -/
def Named (r : CpldReg) (j : ℕ) : Prop := j = 0 ∧ (r = clkEn ∨ r = fpgaProgH ∨ r = fpgaProgL)

/-- the bits outside the named fields are as in old, except in `fpga_loader`, and were never written otherwise -/
structure Keeps (old : CpldReg → BitVec 16) (c : Cpld) : Prop where
  reg : ∀ r, r ≠ fpgaLoader → ∀ j, ¬ Named r j → (c.reg r).getLsbD j = (old r).getLsbD j
  wr : ∀ r v, .wr r v ∈ c.trace → r ≠ fpgaLoader → ∀ j, ¬ Named r j → v.getLsbD j = (old r).getLsbD j

/-- what `udf_download_fpga_imp` does with n bytes -/
structure FpgaSequence (env : FpgaEnv) (mem : ℤ → BitVec 8) (n : ℕ) (old : CpldReg → BitVec 16) (ret : ℤ) (t : Cpld) :
    Prop where
  /-- clear is asserted and released; unless the FPGA is done, the bytes are sent in order with the clock enabled -/
  writes : fieldWrites t.trace = [(fpgaProgH, 0), (fpgaProgL, 1), (fpgaProgH, 1), (fpgaProgL, 0)] ++
    if isDone (env.done 0) then []
    else (clkEn, 1) :: (List.range n).map (fun k : ℕ => (fpgaLoader, (mem k).toNat)) ++ [(clkEn, 0)]
  bufReads : bufReads t.trace = if isDone (env.done 0) then [] else (List.range n).map fun k : ℕ => (k : ℤ)
  /-- `fpga_done` is read once, and then polled 500 times at most -/
  doneReads : doneReads t.trace = (List.range t.polls).map env.done
  polls : t.polls ≤ 501
  ret_eq_zero : ret = 0 ↔ isDone (env.done 0) = false ∧ ∃ k, 1 ≤ k ∧ k ≤ 500 ∧ isDone (env.done k) = true
  ret_or : ret = 0 ∨ ret = -1
  keeps : Keeps old t

/-! ## Steps -/

/-- the reads of `fpga_done` are listed in order -/
def Polled (env : FpgaEnv) (c : Cpld) : Prop := doneReads c.trace = (List.range c.polls).map env.done

/-- what a part of the call does: it writes these fields and reads these bytes of the buffer -/
structure Does (env : FpgaEnv) (ws : List (CpldReg × ℕ)) (bs : List ℤ) (c t : Cpld) : Prop where
  writes : fieldWrites t.trace = fieldWrites c.trace ++ ws
  bufReads : bufReads t.trace = bufReads c.trace ++ bs
  polled : Polled env c → Polled env t
  keeps : ∀ old, Keeps old c → Keeps old t

section Steps

variable {env : FpgaEnv} {mem : ℤ → BitVec 8} {c t u : Cpld} {ws ws' : List (CpldReg × ℕ)} {bs bs' : List ℤ}

theorem Does.refl (c : Cpld) : Does env [] [] c c :=
  ⟨(List.append_nil _).symm, (List.append_nil _).symm, id, fun _ h => h⟩

theorem Does.trans (h : Does env ws bs c t) (h' : Does env ws' bs' t u) : Does env (ws ++ ws') (bs ++ bs') c u where
  writes := by rw [h'.writes, h.writes, List.append_assoc]
  bufReads := by rw [h'.bufReads, h.bufReads, List.append_assoc]
  polled := h'.polled ∘ h.polled
  keeps := fun old hc => h'.keeps old (h.keeps old hc)

theorem assBit_zero (b : Bool) (v : BitVec 16) : (assBit b v).getLsbD 0 = b := by
  cases b <;> simp [assBit]

theorem assBit_ne {j : ℕ} (hj : j ≠ 0) (b : Bool) (v : BitVec 16) : (assBit b v).getLsbD j = v.getLsbD j := by
  cases b with
  | true => simp [assBit, hj]
  | false =>
    simp only [assBit, Bool.false_eq_true, ↓reduceIte, BitVec.getLsbD_and, BitVec.getLsbD_not, BitVec.getLsbD_one]
    by_cases hlt : j < 16
    · simp [hlt, hj]
    · simp [hlt, BitVec.getLsbD_of_ge v j (not_lt.1 hlt)]

theorem ussleep_does (env : FpgaEnv) (us : ℕ) (c : Cpld) : Does env [] [] c (ukcUssleep us c) where
  writes := by simp [ukcUssleep, fieldWrites]
  bufReads := by simp [ukcUssleep, bufReads]
  polled := fun h => by
    unfold Polled at h ⊢
    simpa [ukcUssleep, doneReads] using h
  keeps := fun old h => ⟨h.reg, fun r v hmem => h.wr r v (by simpa [ukcUssleep] using hmem)⟩

/-- a read of `FPGA_DONE` gives the next value -/
theorem getDone_does (env : FpgaEnv) (c : Cpld) : Does env [] [] c (mtChipGetDone env c).2 where
  writes := by simp [mtChipGetDone, rdReg, fieldWrites]
  bufReads := by simp [mtChipGetDone, rdReg, bufReads]
  polled := fun h => by
    unfold Polled at h ⊢
    simp only [mtChipGetDone, rdReg, ↓reduceIte, List.range_succ, List.map_append, List.map_cons, List.map_nil, ← h]
    simp [doneReads]
  keeps := fun old h => ⟨h.reg, fun r v hmem => h.wr r v (by simpa [mtChipGetDone, rdReg] using hmem)⟩

/-- an assignment to a field of one bit is one write -/
theorem assBf_does (env : FpgaEnv) {r : CpldReg} (hr : r = clkEn ∨ r = fpgaProgH ∨ r = fpgaProgL) (b : Bool)
    (c : Cpld) : Does env [(r, b.toNat)] [] c (mtChipAssBf env r b c) := by
  have hdone : r ≠ fpgaDone := by rcases hr with rfl | rfl | rfl <;> decide
  have hloader : r ≠ fpgaLoader := by rcases hr with rfl | rfl | rfl <;> decide
  have hval : ∀ v, fieldVal r (assBit b v) = b.toNat := by
    intro v
    rw [fieldVal, if_neg hloader, assBit_zero]
  have heq : mtChipAssBf env r b c = ⟨Function.update c.reg r (assBit b (c.reg r)), c.polls,
      c.trace ++ [.rd r (c.reg r), .wr r (assBit b (c.reg r))]⟩ := by
    simp [mtChipAssBf, rdReg, wrReg, hdone]
  rw [heq]
  refine ⟨?_, ?_, fun h => ?_, fun old h => ?_⟩
  · simp [fieldWrites, hval]
  · simp [bufReads]
  · unfold Polled at h ⊢
    simpa [doneReads, hdone] using h
  · -- the named bits of r are the bit 0
    have hkept : ∀ j, ¬ Named r j → (assBit b (c.reg r)).getLsbD j = (old r).getLsbD j := by
      intro j hj
      rw [assBit_ne fun h0 => hj ⟨h0, hr⟩]
      exact h.reg r hloader j hj
    refine ⟨fun q hq j hj => ?_, fun q v hmem hq j hj => ?_⟩
    · by_cases hqr : q = r
      · subst hqr
        dsimp only
        rw [Function.update_self]
        exact hkept j hj
      · dsimp only
        rw [Function.update_of_ne hqr]
        exact h.reg q hq j hj
    · simp only [List.mem_append, List.mem_cons, List.not_mem_nil, or_false, reduceCtorEq, false_or,
        CpldEv.wr.injEq] at hmem
      rcases hmem with hold | ⟨rfl, rfl⟩
      · exact h.wr q v hold hq j hj
      · exact hkept j hj

/-- one byte: it is read from the buffer and written to `FPGA_LOADER` -/
theorem sendByte_does (env : FpgaEnv) (mem : ℤ → BitVec 8) (k : ℤ) (c : Cpld) :
    Does env [(fpgaLoader, (mem k).toNat)] [k] c
      (wrReg fpgaLoader (env.pad k ++ mem k) { c with trace := c.trace ++ [.buf k] }) := by
  have hval : fieldVal fpgaLoader (env.pad k ++ mem k) = (mem k).toNat := by
    rw [fieldVal, if_pos rfl, BitVec.setWidth_append_eq_right]
  refine ⟨?_, ?_, fun h => ?_, fun old h => ⟨fun q hq j hj => ?_, fun q v hmem hq j hj => ?_⟩⟩
  · simp [wrReg, fieldWrites, hval]
  · simp [wrReg, bufReads]
  · unfold Polled at h ⊢
    simpa [wrReg, doneReads] using h
  · rw [wrReg]
    dsimp only
    rw [Function.update_of_ne hq]
    exact h.reg q hq j hj
  · simp only [wrReg, List.mem_append, List.mem_cons, List.not_mem_nil, or_false, reduceCtorEq,
      CpldEv.wr.injEq] at hmem
    rcases hmem with hold | ⟨rfl, rfl⟩
    · exact h.wr q v hold hq j hj
    · exact absurd rfl hq

end Steps

/-! ## Loops -/

section Loops

variable {env : FpgaEnv} {mem : ℤ → BitVec 8}

/-- the loop sends n bytes from k on -/
theorem sendData_spec (env : FpgaEnv) (mem : ℤ → BitVec 8) (k : ℤ) (n : ℕ) (c : Cpld) :
    Does env ((List.range n).map fun i : ℕ => (fpgaLoader, (mem (k + i)).toNat)) ((List.range n).map fun i : ℕ => k + i)
      c (sendData env mem (k - 1) (k - 1 + n) c) ∧
    (sendData env mem (k - 1) (k - 1 + n) c).polls = c.polls := by
  induction n generalizing k c with
  | zero =>
    have hstop : sendData env mem (k - 1) (k - 1 + (0 : ℕ)) c = c := by
      rw [sendData, if_neg (by omega)]
    rw [hstop]
    exact ⟨Does.refl c, rfl⟩
  | succ n ih =>
    have hnext : sendData env mem (k - 1) (k - 1 + (n + 1 : ℕ)) c = sendData env mem (k + 1 - 1) (k + 1 - 1 + n)
        (wrReg fpgaLoader (env.pad k ++ mem k) { c with trace := c.trace ++ [.buf k] }) := by
      have hk : k - 1 + 1 = k := by omega
      have hk' : k + 1 - 1 = k := by omega
      have hend : k - 1 + ((n + 1 : ℕ) : ℤ) = k + n := by omega
      rw [sendData, if_pos (by omega), hk, hk', hend]
    obtain ⟨hrest, hpolls⟩ := ih (k + 1) (wrReg fpgaLoader (env.pad k ++ mem k) { c with trace := c.trace ++ [.buf k] })
    have hall := (sendByte_does env mem k c).trans hrest
    have hcast : ∀ i : ℕ, k + ((i + 1 : ℕ) : ℤ) = k + 1 + i := fun i => by omega
    rw [hnext, List.range_succ_eq_map]
    simp only [List.map_cons, List.map_map, Function.comp_def, Nat.succ_eq_add_one, hcast, Nat.cast_zero, add_zero]
    exact ⟨hall, hpolls⟩

/-- the loop polls `fpga_done` until it is set, n times at most -/
theorem waitDone_spec (env : FpgaEnv) (n : ℕ) (c : Cpld) :
    ((waitDone env n c).1 = true ↔ ∃ k < n, isDone (env.done (c.polls + k)) = true) ∧
    Does env [] [] c (waitDone env n c).2 ∧
    (waitDone env n c).2.polls ≤ c.polls + n ∧ (waitDone env n c).2.reg = c.reg := by
  induction n generalizing c with
  | zero => exact ⟨by simp [waitDone], Does.refl c, le_refl _, rfl⟩
  | succ n ih =>
    have hfirst : (mtChipGetDone env c).1 = isDone (env.done c.polls) := by simp [mtChipGetDone, rdReg]
    have hpolls : (mtChipGetDone env c).2.polls = c.polls + 1 := by simp [mtChipGetDone, rdReg]
    have hreg : (mtChipGetDone env c).2.reg = c.reg := by simp [mtChipGetDone, rdReg]
    have hdoes : Does env [] [] c (mtChipGetDone env c).2 := getDone_does env c
    by_cases hset : isDone (env.done c.polls) = true
    · have hstop : waitDone env (n + 1) c = mtChipGetDone env c := by
        rw [waitDone]
        exact if_pos (hfirst.trans hset)
      rw [hstop, hfirst, hpolls]
      exact ⟨iff_of_true hset ⟨0, Nat.succ_pos n, hset⟩, hdoes, by omega, hreg⟩
    · have hnext : waitDone env (n + 1) c = waitDone env n (ukcUssleep 10000 (mtChipGetDone env c).2) := by
        rw [waitDone]
        exact if_neg (by rw [hfirst]; exact hset)
      obtain ⟨hiff, hrest, hle, hsame⟩ := ih (ukcUssleep 10000 (mtChipGetDone env c).2)
      have hslept : (ukcUssleep 10000 (mtChipGetDone env c).2).polls = c.polls + 1 := hpolls
      rw [hslept] at hiff hle
      rw [hnext]
      refine ⟨hiff.trans ?_, (hdoes.trans (ussleep_does env 10000 _)).trans hrest, by omega, hsame.trans hreg⟩
      constructor
      · rintro ⟨k, hk, hdone⟩
        exact ⟨k + 1, by omega, by rwa [add_assoc, add_comm 1 k] at hdone⟩
      · rintro ⟨k, hk, hdone⟩
        rcases k with _ | k
        · exact absurd hdone hset
        · exact ⟨k, by omega, by rwa [add_assoc, add_comm 1 k]⟩

end Loops

/-! ## The call -/

/-- the reset: clear is asserted and released -/
def resetFpga (env : FpgaEnv) (c : Cpld) : Cpld :=
  ukcUssleep 10000 (mtChipAssBf env fpgaProgL false (mtChipAssBf env fpgaProgH true
    (ukcUssleep 20000 (mtChipAssBf env fpgaProgL true (mtChipAssBf env fpgaProgH false c)))))

/-- the bytes are sent with the clock enabled -/
def feedFpga (env : FpgaEnv) (mem : ℤ → BitVec 8) (n : ℕ) (c : Cpld) : Cpld :=
  mtChipAssBf env clkEn false (sendData env mem (-1) (-1 + n) (mtChipAssBf env clkEn true c))

section Call

variable {env : FpgaEnv} {mem : ℤ → BitVec 8}

theorem assBf_polls {r : CpldReg} (hr : r ≠ fpgaDone) (b : Bool) (c : Cpld) :
    (mtChipAssBf env r b c).polls = c.polls := by
  simp [mtChipAssBf, rdReg, wrReg, hr]

theorem assBf_reg_self {r : CpldReg} (hr : r ≠ fpgaDone) (b : Bool) (c : Cpld) :
    ((mtChipAssBf env r b c).reg r).getLsbD 0 = b := by
  have heq : (mtChipAssBf env r b c).reg r = assBit b (c.reg r) := by simp [mtChipAssBf, rdReg, wrReg, hr]
  rw [heq, assBit_zero]

theorem assBf_reg_ne {q r : CpldReg} (hr : r ≠ fpgaDone) (hq : q ≠ r) (b : Bool) (c : Cpld) :
    (mtChipAssBf env r b c).reg q = c.reg q := by
  simp [mtChipAssBf, rdReg, wrReg, hr, hq]

theorem getDone_fst (c : Cpld) : (mtChipGetDone env c).1 = isDone (env.done c.polls) := by simp [mtChipGetDone, rdReg]

theorem getDone_polls (c : Cpld) : (mtChipGetDone env c).2.polls = c.polls + 1 := by simp [mtChipGetDone, rdReg]

theorem getDone_reg (c : Cpld) : (mtChipGetDone env c).2.reg = c.reg := by simp [mtChipGetDone, rdReg]

theorem imp_eq (nBytes : BitVec 32) (c : Cpld) : udfDownloadFpgaImp env mem nBytes c =
    let x := mtChipGetDone env (resetFpga env c)
    if x.1 then (-1, x.2)
    else
      let y := waitDone env 500 (feedFpga env mem nBytes.toNat x.2)
      (if y.1 then 0 else -1, y.2) := rfl

theorem resetFpga_spec (env : FpgaEnv) (c : Cpld) :
    Does env [(fpgaProgH, 0), (fpgaProgL, 1), (fpgaProgH, 1), (fpgaProgL, 0)] [] c (resetFpga env c) ∧
    (resetFpga env c).polls = c.polls ∧ (resetFpga env c).reg clkEn = c.reg clkEn := by
  have hH : fpgaProgH ≠ fpgaDone := by decide
  have hL : fpgaProgL ≠ fpgaDone := by decide
  refine ⟨?_, ?_, ?_⟩
  · have hassert := (assBf_does env (Or.inr (Or.inl rfl)) false c).trans
      ((assBf_does env (Or.inr (Or.inr rfl)) true _).trans (ussleep_does env 20000 _))
    exact hassert.trans ((assBf_does env (Or.inr (Or.inl rfl)) true _).trans
      ((assBf_does env (Or.inr (Or.inr rfl)) false _).trans (ussleep_does env 10000 _)))
  · simp only [resetFpga, ukcUssleep, assBf_polls hH, assBf_polls hL]
  · have hcH : clkEn ≠ fpgaProgH := by decide
    have hcL : clkEn ≠ fpgaProgL := by decide
    simp only [resetFpga, ukcUssleep, assBf_reg_ne hH hcH, assBf_reg_ne hL hcL]

theorem feedFpga_spec (env : FpgaEnv) (mem : ℤ → BitVec 8) (n : ℕ) (c : Cpld) :
    Does env ((clkEn, 1) :: (List.range n).map (fun k : ℕ => (fpgaLoader, (mem k).toNat)) ++ [(clkEn, 0)])
      ((List.range n).map fun k : ℕ => (k : ℤ)) c (feedFpga env mem n c) ∧
    (feedFpga env mem n c).polls = c.polls ∧ ((feedFpga env mem n c).reg clkEn).getLsbD 0 = false := by
  have hclk : clkEn ≠ fpgaDone := by decide
  obtain ⟨hsend, hpolls⟩ := sendData_spec env mem 0 n (mtChipAssBf env clkEn true c)
  simp only [zero_add, zero_sub] at hsend hpolls
  refine ⟨?_, ?_, assBf_reg_self hclk false _⟩
  · have hall := ((assBf_does env (Or.inl rfl) true c).trans hsend).trans (assBf_does env (Or.inl rfl) false _)
    unfold feedFpga
    simpa only [List.nil_append, List.append_nil, Bool.toNat_true, Bool.toNat_false, List.cons_append] using hall
  · rw [feedFpga, assBf_polls hclk, hpolls, assBf_polls hclk]

/-- the polls after the first one -/
theorem exists_poll_iff (env : FpgaEnv) (n : ℕ) : (∃ k < n, isDone (env.done (1 + k)) = true) ↔
    ∃ k, 1 ≤ k ∧ k ≤ n ∧ isDone (env.done k) = true := by
  constructor
  · rintro ⟨k, hk, hset⟩
    exact ⟨1 + k, by omega, by omega, hset⟩
  · rintro ⟨k, hone, hk, hset⟩
    exact ⟨k - 1, by omega, by rwa [Nat.add_sub_cancel' hone]⟩

theorem imp_sequence (env : FpgaEnv) (mem : ℤ → BitVec 8) (nBytes : BitVec 32) (reg : CpldReg → BitVec 16) :
    let x := udfDownloadFpgaImp env mem nBytes (.start reg)
    FpgaSequence env mem nBytes.toNat reg x.1 x.2 ∧
      ((reg clkEn).getLsbD 0 = false → (x.2.reg clkEn).getLsbD 0 = false) := by
  obtain ⟨hreset, hpolls, hclkEn⟩ := resetFpga_spec env (.start reg)
  have hask := hreset.trans (getDone_does env (resetFpga env (.start reg)))
  have hfirst : (mtChipGetDone env (resetFpga env (.start reg))).1 = isDone (env.done 0) := by
    rw [getDone_fst, hpolls]
    rfl
  have hpolls' : (mtChipGetDone env (resetFpga env (.start reg))).2.polls = 1 := by
    rw [getDone_polls, hpolls]
    rfl
  have hclk' : (mtChipGetDone env (resetFpga env (.start reg))).2.reg clkEn = reg clkEn := by
    rw [getDone_reg, hclkEn]
    rfl
  have hpolled : Polled env (.start reg) := rfl
  have hkeeps : Keeps reg (.start reg) := ⟨fun _ _ _ _ => rfl, fun _ _ hmem => absurd hmem List.not_mem_nil⟩
  rw [imp_eq]
  dsimp only
  generalize (mtChipGetDone env (resetFpga env (.start reg))).2 = c at *
  rw [hfirst]
  by_cases hdone : isDone (env.done 0) = true
  · rw [if_pos hdone]
    refine ⟨?_, fun hclk => by rw [hclk', hclk]⟩
    exact {
      writes := by rw [hask.writes, if_pos hdone]; rfl
      bufReads := by rw [hask.bufReads, if_pos hdone]; rfl
      doneReads := hask.polled hpolled
      polls := by rw [hpolls']; decide
      ret_eq_zero := iff_of_false (by dsimp only; decide) fun h => Bool.false_ne_true (h.1.symm.trans hdone)
      ret_or := Or.inr rfl
      keeps := hask.keeps reg hkeeps }
  · rw [if_neg hdone]
    obtain ⟨hfeed, hfed, hoff⟩ := feedFpga_spec env mem nBytes.toNat c
    obtain ⟨hiff, hwait, hle, hsame⟩ := waitDone_spec env 500 (feedFpga env mem nBytes.toNat c)
    have hall := (hask.trans hfeed).trans hwait
    rw [hfed, hpolls'] at hiff hle
    refine ⟨?_, fun _ => by rw [hsame, hoff]⟩
    exact {
      writes := by rw [hall.writes, if_neg hdone]; simp [fieldWrites, Cpld.start]
      bufReads := by rw [hall.bufReads, if_neg hdone]; simp [bufReads, Cpld.start]
      doneReads := hall.polled hpolled
      polls := hle
      ret_eq_zero := by
        rw [← exists_poll_iff, ← hiff, and_iff_right (Bool.eq_false_of_not_eq_true hdone)]
        split_ifs with hset
        · exact iff_of_true rfl hset
        · exact iff_of_false (by dsimp only; decide) hset
      ret_or := by
        dsimp only
        split_ifs
        · exact Or.inl rfl
        · exact Or.inr rfl
      keeps := hall.keeps reg hkeeps }

/-- **Loading an FPGA.** For every buffer, every number of bytes, all values of the registers with the clock disabled,
and all values that `fpga_done` has when it is read: clear is asserted and released; if the FPGA is done then, nothing
is sent; else the bytes of the buffer are written to `FPGA_LOADER`, all and in order, between the write that enables
the clock and the one that disables it, and no other byte of memory is read. The call returns 0 iff the FPGA was not
done at first, and is in one of at most 500 polls, and -1 otherwise. The clock is disabled at the end, and no bit
outside the named fields changes. -/
theorem fpga_sequence (env : FpgaEnv) (mem : ℤ → BitVec 8) (nBytes : BitVec 32) (reg : CpldReg → BitVec 16)
    (hclk : (reg clkEn).getLsbD 0 = false) :
    let x := udfDownloadFpgaImp env mem nBytes (.start reg)
    FpgaSequence env mem nBytes.toNat reg x.1 x.2 ∧ (x.2.reg clkEn).getLsbD 0 = false := by
  obtain ⟨hseq, hoff⟩ := imp_sequence env mem nBytes reg
  exact ⟨hseq, hoff hclk⟩

/-- an FPGA that is done at the second poll -/
def doneAtSecond : FpgaEnv := ⟨fun k => if k = 2 then 1 else 0, fun _ => 0⟩

/-- the bytes 7, 8, 9 and so on -/
def fromSeven (k : ℤ) : BitVec 8 := BitVec.ofInt 8 (k + 7)

theorem fpga_sequence_three :
    let x := udfDownloadFpgaImp doneAtSecond fromSeven 3 (.start fun _ => 0)
    FpgaSequence doneAtSecond fromSeven 3 (fun _ => 0) x.1 x.2 ∧ (x.2.reg clkEn).getLsbD 0 = false ∧ x.1 = 0 ∧
      fieldWrites x.2.trace = [(fpgaProgH, 0), (fpgaProgL, 1), (fpgaProgH, 1), (fpgaProgL, 0), (clkEn, 1),
        (fpgaLoader, 7), (fpgaLoader, 8), (fpgaLoader, 9), (clkEn, 0)] := by
  intro x
  obtain ⟨hseq, hoff⟩ := fpga_sequence doneAtSecond fromSeven 3 (fun _ => 0) rfl
  exact ⟨hseq, hoff, hseq.ret_eq_zero.2 ⟨by decide, 2, by decide, by decide, by decide⟩, hseq.writes.trans (by decide)⟩

end Call

/-! ## The fields -/

section Fields

open LinuxDrv.Core LinuxDrv.Driver

/-- the fields of one bit that the call uses are in bit 0 -/
theorem cpldBits_bit (e : ByteOrder) : cpldBits e .cclkEn = some (clkEn.val, ⟨0, 1⟩) ∧
    cpldBits e .fpgaDone = some (fpgaDone.val, ⟨0, 1⟩) ∧ cpldBits e .fpgaProgH = some (fpgaProgH.val, ⟨0, 1⟩) ∧
      cpldBits e .fpgaProgL = some (fpgaProgL.val, ⟨0, 1⟩) :=
  ⟨cpldBits_eq e _, cpldBits_eq e _, cpldBits_eq e _, cpldBits_eq e _⟩

theorem cpldBits_loader (e : ByteOrder) : cpldBits e .fpgaLoader = some (fpgaLoader.val, ⟨0, 8⟩) := cpldBits_eq e _

/-- the assignment of such a field -/
theorem assBit_eq_put (b : Bool) (v : BitVec 16) : assBit b v = Bits.put ⟨0, 1⟩ b.toNat v := by
  apply BitVec.eq_of_getLsbD_eq
  intro j hj
  rw [Bits.getLsbD_put]
  by_cases h0 : j = 0
  · subst h0
    rw [assBit_zero, if_pos ⟨hj, le_rfl, Nat.one_pos⟩]
    cases b <;> rfl
  · rw [assBit_ne h0, if_neg]
    rintro ⟨-, -, hlt⟩
    exact h0 (Nat.lt_one_iff.1 hlt)

theorem isDone_eq_get (v : BitVec 16) : isDone v = decide (Bits.get ⟨0, 1⟩ v = 1) := by
  have hbit : v.extractLsb' 0 1 = BitVec.ofBool (v.getLsbD 0) := by
    apply BitVec.eq_of_getLsbD_eq
    intro j hj
    obtain rfl : j = 0 := Nat.lt_one_iff.1 hj
    simp
  rw [isDone, Bits.get, hbit]
  cases v.getLsbD 0 <;> rfl

/-- the initialisation of `data_2_write` -/
theorem loader_eq_put (m : BitVec 8) (v : BitVec 16) : Bits.put ⟨0, 8⟩ m.toNat v = v.extractLsb' 8 8 ++ m := by
  apply BitVec.eq_of_getLsbD_eq
  intro j hj
  rw [Bits.getLsbD_put, BitVec.getLsbD_append]
  by_cases hlt : j < 8
  · rw [if_pos ⟨hj, Nat.zero_le j, by simpa using hlt⟩, if_pos hlt, BitVec.ofInt_natCast, Nat.sub_zero]
    simp [hj]
  · rw [if_neg (fun h => hlt (by simpa using h.2.2)), if_neg hlt, BitVec.getLsbD_extractLsb']
    have hhi : j - 8 < 8 := by omega
    simp [hhi, show 8 + (j - 8) = j by omega]

end Fields

end LinuxDrv.Udf
