/-
`regs_info_dev.c`: the registers of the cards as a file, and the position of the file.

The caller hands the position of the file to `regs_info_drv_read` and `regs_info_drv_write` in `*pOff`, and stores back
what they leave there; `regs_info_drv_llseek` sets the position itself. Offsets and counts are even here, so no access
is out of bounds. `OffsetFits` is what the caller promises: the offset behind the bytes of a read or a write is an offset
(`loff_t`).

The abstract side is a sequential file: a write puts its bytes at the position and moves it behind them, a read gets
the bytes there and moves it too. Two reads are one (`seqRead_append`).
- `rawRegRead_apply`, `rawRegWrite_eq`: what `pdm_raw_reg_read` and `pdm_raw_reg_write` do at a position.
- `read_eq`: a read is a read of the sequential file.
- `write_eq`: a write has its bytes put at the position, but leaves the position.
- `sequential_iff`: so a run is one of a sequential file iff its writes are empty.
-/
import LinuxDrv.Driver.Hw
import LinuxDrv.Driver.Ext
import LinuxDrv.Core.Outcome
import Mathlib.Data.List.GetD

namespace LinuxDrv.Driver

open LinuxDrv.Core

/-- the registers, by the slot of their window, and an open file -/
structure RegsFile where
  regs : ℕ → ℤ → UInt8
  fPos : ℤ

/-! ## The file operations -/

def mSize : ℤ := 0x100000000

def seekSet : ℤ := 0
def seekCur : ℤ := 1
def seekEnd : ℤ := 2

/-- `regs_info_drv_read`: what it returns, the buffer, and `*pOff` -/
def regsInfoDrvRead (regs : ℕ → ℤ → UInt8) (pBuf : ℤ → UInt8) (nBytes : ℕ) (pOff : ℤ) : ℤ × (ℤ → UInt8) × ℤ :=
  (nBytes, pdmRawRegRead sCardAddr regs nBytes pOff pBuf, toLoff (pOff + nBytes))

/-- `regs_info_drv_write`: what it returns, the registers, and `*pOff` -/
def regsInfoDrvWrite (regs : ℕ → ℤ → UInt8) (pBuf : ℤ → UInt8) (nBytes : ℕ) (pOff : ℤ) :
    ℤ × (ℕ → ℤ → UInt8) × ℤ :=
  (nBytes, pdmRawRegWrite sCardAddr pBuf nBytes pOff regs, pOff)

/-- `newpos` after the switch of `regs_info_drv_llseek`, if it does not return there -/
def seekPos (off whence fPos : ℤ) : Option ℤ :=
  if whence = seekSet then some off
  else if whence = seekCur then if mSize - fPos ≤ off then none else some (fPos + off)
  else if whence = seekEnd then if 0 ≤ off then none else some (mSize + off)
  else some 0

/-- `regs_info_drv_llseek` -/
def regsInfoDrvLlseek (off whence : ℤ) (f : RegsFile) : ℤ × RegsFile :=
  match seekPos off whence f.fPos with
  | none => (-einval, f)
  | some newpos => if newpos < 0 ∨ mSize ≤ newpos then (-einval, f) else (newpos, { f with fPos := newpos })

/-- the bytes of a buffer; nothing is behind them -/
def bufOf (data : List UInt8) : ℤ → UInt8 := fun k => if 0 ≤ k then data.getD k.toNat 0 else 0

/-- a call of `regs_info_drv_read` for the file: what it returns, the buffer, and the file with `*pOff` stored back -/
def RegsFile.read (f : RegsFile) (pBuf : ℤ → UInt8) (nBytes : ℕ) : ℤ × (ℤ → UInt8) × RegsFile :=
  let x := regsInfoDrvRead f.regs pBuf nBytes f.fPos
  (x.1, x.2.1, { f with fPos := x.2.2 })

/-- a call of `regs_info_drv_write` for the file -/
def RegsFile.write (f : RegsFile) (data : List UInt8) : ℤ × RegsFile :=
  let x := regsInfoDrvWrite f.regs (bufOf data) data.length f.fPos
  (x.1, ⟨x.2.1, x.2.2⟩)

/-! ## Runs -/

inductive RegsOp where
  | llseek (off whence : ℤ) (heven : 2 ∣ off)
  | read (pBuf : ℤ → UInt8) (nBytes : ℕ) (heven : 2 ∣ nBytes)
  | write (data : List UInt8) (heven : 2 ∣ data.length)

def regsNext (f : RegsFile) : RegsOp → RegsFile
  | .llseek off whence _ => (regsInfoDrvLlseek off whence f).2
  | .read pBuf nBytes _ => (f.read pBuf nBytes).2.2
  | .write data _ => (f.write data).2

def regsStep (f : RegsFile) (op : RegsOp) : Except Empty RegsFile := .ok (regsNext f op)

/-- the offset behind the next `nBytes` is an offset; the kernel refuses a call where it is not, before the driver -/
def RegsFile.EndFits (f : RegsFile) (nBytes : ℕ) : Prop := f.fPos + nBytes < 2 ^ 63

instance (f : RegsFile) (nBytes : ℕ) : Decidable (f.EndFits nBytes) := inferInstanceAs (Decidable (_ < _))

/-- what the caller promises -/
def OffsetFits (f : RegsFile) : RegsOp → Prop
  | .llseek _ _ _ => True
  | .read _ nBytes _ => f.EndFits nBytes
  | .write data _ => f.EndFits data.length

instance (f : RegsFile) : ∀ op, Decidable (OffsetFits f op)
  | .llseek _ _ _ => isTrue trivial
  | .read _ nBytes _ => inferInstanceAs (Decidable (f.EndFits nBytes))
  | .write data _ => inferInstanceAs (Decidable (f.EndFits data.length))

/-! ## A sequential file -/

/-- the byte at a position, if a window is there -/
def RegsFile.byteAt (f : RegsFile) (p : ℤ) : Option UInt8 :=
  if cardSelf.phyAddr ≤ p ∧ p < cardSelf.phyAddr + cardSelf.addrSpace then some (f.regs 1 (p - cardSelf.phyAddr))
  else none

/-- the registers with `data` at position `p`; what falls outside the window is lost -/
def putAt (regs : ℕ → ℤ → UInt8) (p : ℤ) (data : List UInt8) : ℕ → ℤ → UInt8 := fun slot off =>
  if slot = 1 ∧ 0 ≤ off ∧ off < cardSelf.addrSpace ∧ p ≤ cardSelf.phyAddr + off ∧
    cardSelf.phyAddr + off < p + data.length
  then bufOf data (cardSelf.phyAddr + off - p) else regs slot off

/-- a write to a sequential file -/
def RegsFile.seqWrite (f : RegsFile) (data : List UInt8) : RegsFile :=
  ⟨putAt f.regs f.fPos data, f.fPos + data.length⟩

/-- the bytes that a read from a sequential file gets -/
def RegsFile.seqBytes (f : RegsFile) : ℤ → UInt8 := fun k => (f.byteAt (f.fPos + k)).getD 0xCC

/-- a read from a sequential file -/
def RegsFile.seqRead (f : RegsFile) (n : ℕ) : RegsFile := { f with fPos := f.fPos + n }

theorem seqWrite_nil (f : RegsFile) : f.seqWrite [] = f := by
  have hput : putAt f.regs f.fPos [] = f.regs := by
    funext slot off
    refine if_neg fun hx => ?_
    have := hx.2.2.2.2
    have := hx.2.2.2.1
    simp only [List.length_nil, Nat.cast_zero] at *
    omega
  rw [RegsFile.seqWrite, hput, List.length_nil, Nat.cast_zero, add_zero]

/-- two reads get the bytes of one -/
theorem seqRead_append (f : RegsFile) (n m : ℕ) : (f.seqRead n).seqRead m = f.seqRead (n + m) ∧
    ∀ k, (f.seqRead n).seqBytes k = f.seqBytes (n + k) := by
  refine ⟨?_, fun k => ?_⟩
  · unfold RegsFile.seqRead
    simp only [RegsFile.mk.injEq, true_and]
    push_cast
    ring
  · show (f.byteAt (f.fPos + n + k)).getD 0xCC = (f.byteAt (f.fPos + (n + k))).getD 0xCC
    rw [add_assoc]

/-! ## What the raw functions do at a position -/

section Raw

variable {nBytes : ℕ} {pOff : ℤ}

theorem cardSelf_phyAddr : (cardSelf.phyAddr : ℤ) = 0xa0000000 := rfl

theorem cardSelf_addrSpace : (cardSelf.addrSpace : ℤ) = 0x2000000 := rfl

theorem copies_eq (h0 : 0 ≤ pOff) (hend : pOff + nBytes < 2 ^ 63) :
    copies sCardAddr nBytes pOff = winCopies cardSelf 1 nBytes pOff := by
  have hpdm : winCopies cardPdm 0 nBytes pOff = [] := by
    have hlen : tmpLen cardPdm nBytes pOff = 0 := by
      rw [tmpLen_eq cardPdm h0 (by omega) (by omega), if_pos (by omega)]
      unfold overlap cardPdm
      dsimp only
      omega
    rw [winCopies, hlen]
    rfl
  simp [copies, sCardAddr, hpdm]

/-- the part of the window, in units -/
theorem two_units (h0 : 0 ≤ pOff) (hend : pOff + nBytes < 2 ^ 63) (hp : 2 ∣ pOff) (hn : 2 ∣ nBytes) :
    2 * (units (tmpLen cardSelf nBytes pOff) : ℤ) =
      max 0 (min (pOff + nBytes) (cardSelf.phyAddr + cardSelf.addrSpace) - max pOff cardSelf.phyAddr) := by
  have hphy := cardSelf_phyAddr
  have hspace := cardSelf_addrSpace
  rw [tmpLen_eq cardSelf h0 (by omega) (by omega), if_pos (by omega)]
  unfold units overlap
  omega

/-- `pdm_raw_reg_read` gets the bytes at the position -/
theorem rawRegRead_apply (h0 : 0 ≤ pOff) (hend : pOff + nBytes < 2 ^ 63) (hp : 2 ∣ pOff) (hn : 2 ∣ nBytes)
    (regs : ℕ → ℤ → UInt8) (pBuf : ℤ → UInt8) (k : ℤ) : pdmRawRegRead sCardAddr regs nBytes pOff pBuf k =
      if 0 ≤ k ∧ k < nBytes then RegsFile.seqBytes ⟨regs, pOff⟩ k else pBuf k := by
  have hloop : pdmRawRegRead sCardAddr regs nBytes pOff pBuf =
      copyUnits (regs 1) (tmpStart cardSelf pOff - cardSelf.phyAddr) (tmpStart cardSelf pOff - pOff)
        (units (tmpLen cardSelf nBytes pOff)) (memset nBytes pBuf) := by
    rw [pdmRawRegRead, copies_eq h0 hend, winCopies_read]
  have hunits := two_units h0 hend hp hn
  have hphy := cardSelf_phyAddr
  have hspace := cardSelf_addrSpace
  rw [hloop, copyUnits_apply]
  unfold memset RegsFile.seqBytes RegsFile.byteAt tmpStart
  dsimp only
  by_cases hk : 0 ≤ k ∧ k < nBytes
  · rw [if_pos hk, if_pos hk]
    by_cases hw : cardSelf.phyAddr ≤ pOff + k ∧ pOff + k < cardSelf.phyAddr + cardSelf.addrSpace
    · rw [if_pos (by omega), if_pos hw, Option.getD_some]
      congr 1
      omega
    · rw [if_neg (by omega), if_neg hw, Option.getD_none]
  · rw [if_neg hk, if_neg hk, if_neg (by omega)]

/-- `pdm_raw_reg_write` puts the bytes at the position -/
theorem rawRegWrite_eq (h0 : 0 ≤ pOff) (data : List UInt8) (hend : pOff + data.length < 2 ^ 63) (hp : 2 ∣ pOff)
    (hn : 2 ∣ data.length) (regs : ℕ → ℤ → UInt8) :
    pdmRawRegWrite sCardAddr (bufOf data) data.length pOff regs = putAt regs pOff data := by
  have hloop : pdmRawRegWrite sCardAddr (bufOf data) data.length pOff regs = Function.update regs 1
      (copyUnits (bufOf data) (tmpStart cardSelf pOff - pOff) (tmpStart cardSelf pOff - cardSelf.phyAddr)
        (units (tmpLen cardSelf data.length pOff)) (regs 1)) := by
    rw [pdmRawRegWrite, copies_eq h0 hend, winCopies_write]
  have hunits := two_units h0 hend hp hn
  rw [hloop]
  funext slot off
  unfold putAt
  by_cases hslot : slot = 1
  · subst hslot
    rw [Function.update_self, copyUnits_apply]
    unfold tmpStart
    by_cases hin : 1 = 1 ∧ 0 ≤ off ∧ off < cardSelf.addrSpace ∧ pOff ≤ cardSelf.phyAddr + off ∧
        cardSelf.phyAddr + off < pOff + data.length
    · rw [if_pos (by omega), if_pos hin]
      congr 1
      omega
    · rw [if_neg (by omega), if_neg hin]
  · rw [Function.update_of_ne hslot, if_neg fun hx => hslot hx.1]

end Raw

/-! ## The operations on the sequential file -/

/-- where the file is between two calls -/
structure PosInv (f : RegsFile) : Prop where
  nonneg : 0 ≤ f.fPos
  lt : f.fPos < 2 ^ 63
  even : 2 ∣ f.fPos

section Ops

variable {f : RegsFile}

/-- no overflow where the caller promises that there is none -/
theorem toLoff_eq {pOff : ℤ} (h0 : 0 ≤ pOff) {nBytes : ℕ} (hend : pOff + nBytes < 2 ^ 63) :
    toLoff (pOff + nBytes) = pOff + nBytes := by
  rw [toLoff, Int.bmod_eq_of_le] <;> omega

/-- a read is a read of the sequential file -/
theorem read_eq (hinv : PosInv f) (pBuf : ℤ → UInt8) {nBytes : ℕ} (hn : 2 ∣ nBytes) (hend : f.EndFits nBytes) :
    f.read pBuf nBytes =
      ((nBytes : ℤ), (fun (k : ℤ) => if 0 ≤ k ∧ k < nBytes then f.seqBytes k else pBuf k), f.seqRead nBytes) := by
  have hbuf := rawRegRead_apply hinv.nonneg hend hinv.even hn f.regs pBuf
  have hpos : toLoff (f.fPos + nBytes) = f.fPos + nBytes := toLoff_eq hinv.nonneg hend
  simp only [RegsFile.read, regsInfoDrvRead, hpos, funext hbuf]
  rfl

/-- a write has its bytes put at the position; the position stays -/
theorem write_eq (hinv : PosInv f) {data : List UInt8} (hn : 2 ∣ data.length) (hend : f.EndFits data.length) :
    f.write data = ((data.length : ℤ), ⟨putAt f.regs f.fPos data, f.fPos⟩) := by
  simp only [RegsFile.write, regsInfoDrvWrite, rawRegWrite_eq hinv.nonneg data hend hinv.even hn]

/-- an empty write does nothing -/
theorem write_nil (hinv : PosInv f) : f.write [] = (0, f) := by
  have hpos : f.fPos + ([] : List UInt8).length = f.fPos := by simp
  have hstays := seqWrite_nil f
  rw [RegsFile.seqWrite, hpos] at hstays
  rw [write_eq hinv (dvd_zero 2) (hpos.trans_lt hinv.lt), hstays]
  rfl

theorem seqRead_inv (hinv : PosInv f) {n : ℕ} (hn : 2 ∣ n) (hend : f.EndFits n) : PosInv (f.seqRead n) := by
  have h0 := hinv.nonneg
  have heven := hinv.even
  refine ⟨?_, hend, ?_⟩
  · show 0 ≤ f.fPos + n
    omega
  · show 2 ∣ f.fPos + n
    omega

/-- the file stands at an even offset after every call -/
theorem regsNext_inv (hinv : PosInv f) {op : RegsOp} (hfit : OffsetFits f op) : PosInv (regsNext f op) := by
  cases op with
  | llseek off whence heven =>
    have hpos : ∀ newpos, seekPos off whence f.fPos = some newpos → 2 ∣ newpos := by
      intro newpos h
      have hf := hinv.even
      have hsize : (2 : ℤ) ∣ mSize := by decide
      unfold seekPos at h
      split_ifs at h
      all_goals
        cases h
        first
        | exact heven
        | exact dvd_add hf heven
        | exact dvd_add hsize heven
        | exact dvd_zero 2
    show PosInv (regsInfoDrvLlseek off whence f).2
    unfold regsInfoDrvLlseek
    rcases hseek : seekPos off whence f.fPos with _ | newpos
    · exact hinv
    · dsimp only
      split_ifs with hout
      · exact hinv
      · rw [not_or, not_lt, not_le] at hout
        exact ⟨hout.1, hout.2.trans (by decide), hpos newpos hseek⟩
  | read pBuf nBytes heven =>
    show PosInv (f.read pBuf nBytes).2.2
    rw [read_eq hinv pBuf heven hfit]
    exact seqRead_inv hinv heven hfit
  | write data heven =>
    show PosInv (f.write data).2
    rw [write_eq hinv heven hfit]
    exact ⟨hinv.nonneg, hinv.lt, hinv.even⟩

end Ops

/-! ## The property -/

/-- a read that returns n gets the n bytes at the position and moves it by n, and a read after it goes on as one read of
both counts does -/
def ReadSeq (f : RegsFile) (pBuf : ℤ → UInt8) (nBytes : ℕ) : Prop :=
  ∀ n : ℕ, (f.read pBuf nBytes).1 = n →
    ((∀ k : ℕ, k < n → (f.read pBuf nBytes).2.1 k = f.seqBytes k) ∧ (f.read pBuf nBytes).2.2 = f.seqRead n) ∧
    ∀ (pNext : ℤ → UInt8) (mBytes : ℕ), 2 ∣ mBytes → (f.read pBuf nBytes).2.2.EndFits mBytes → ∀ m : ℕ,
      ((f.read pBuf nBytes).2.2.read pNext mBytes).1 = m →
        (f.read pBuf (nBytes + mBytes)).1 = n + m ∧
        (∀ k : ℕ, k < n → (f.read pBuf nBytes).2.1 k = (f.read pBuf (nBytes + mBytes)).2.1 k) ∧
        (∀ k : ℕ, k < m → ((f.read pBuf nBytes).2.2.read pNext mBytes).2.1 k =
          (f.read pBuf (nBytes + mBytes)).2.1 (n + k)) ∧
        ((f.read pBuf nBytes).2.2.read pNext mBytes).2.2 = (f.read pBuf (nBytes + mBytes)).2.2

/-- a write that returns n puts n bytes at the position and moves it by n, and with a write after it does what one write
of both buffers does -/
def WriteSeq (f : RegsFile) (data : List UInt8) : Prop :=
  ∀ n : ℕ, (f.write data).1 = n →
    (f.write data).2 = f.seqWrite (data.take n) ∧
    ∀ next : List UInt8, 2 ∣ next.length → (f.write data).2.EndFits next.length → ∀ m : ℕ,
      ((f.write data).2.write next).1 = m →
        (f.write (data ++ next)).1 = n + m ∧ ((f.write data).2.write next).2 = (f.write (data ++ next)).2

/-- the file is used as a sequential file -/
def Sequential (f : RegsFile) : RegsOp → Prop
  | .llseek _ _ _ => True
  | .read pBuf nBytes _ => ReadSeq f pBuf nBytes
  | .write data _ => WriteSeq f data

/-- a write has an empty buffer -/
def EmptyWrite : RegsOp → Prop
  | .write data _ => data = []
  | _ => True

section Property

variable {f : RegsFile}

theorem readSeq (hinv : PosInv f) (pBuf : ℤ → UInt8) {nBytes : ℕ} (hn : 2 ∣ nBytes) (hend : f.EndFits nBytes) :
    ReadSeq f pBuf nBytes := by
  intro n hret
  rw [read_eq hinv pBuf hn hend] at hret ⊢
  obtain rfl : nBytes = n := Int.ofNat_inj.1 hret
  refine ⟨⟨fun k hk => if_pos ⟨by omega, by omega⟩, rfl⟩, ?_⟩
  intro pNext mBytes hm hend' m hret'
  have hinv' := seqRead_inv hinv hn hend
  dsimp only at hend' hret' ⊢
  rw [read_eq hinv' pNext hm hend'] at hret' ⊢
  obtain rfl : mBytes = m := Int.ofNat_inj.1 hret'
  obtain ⟨hstate, hbytes⟩ := seqRead_append f nBytes mBytes
  have hboth : f.EndFits (nBytes + mBytes) := by
    unfold RegsFile.EndFits at hend' ⊢
    push_cast
    rw [← add_assoc]
    exact hend'
  rw [read_eq hinv pBuf (dvd_add hn hm) hboth]
  dsimp only
  refine ⟨by push_cast; rfl, fun k hk => ?_, fun k hk => ?_, hstate⟩
  · rw [if_pos ⟨by omega, by omega⟩, if_pos ⟨by omega, by push_cast; omega⟩]
  · rw [if_pos ⟨by omega, by omega⟩, if_pos ⟨by omega, by push_cast; omega⟩]
    exact hbytes k

/-- a write that is not empty leaves the position where its own bytes are -/
theorem writeSeq_iff (hinv : PosInv f) {data : List UInt8} (hn : 2 ∣ data.length) (hend : f.EndFits data.length) :
    WriteSeq f data ↔ data = [] := by
  constructor
  · intro h
    have hw := write_eq hinv hn hend
    obtain ⟨hmoved, -⟩ := h data.length (by rw [hw])
    rw [hw, List.take_length] at hmoved
    have hpos : f.fPos = f.fPos + data.length := congrArg RegsFile.fPos hmoved
    exact List.length_eq_zero_iff.1 (by omega)
  · rintro rfl n hret
    rw [write_nil hinv] at hret ⊢
    obtain rfl : 0 = n := Int.ofNat_inj.1 hret
    exact ⟨(seqWrite_nil f).symm, fun next _ _ m hm => ⟨by simpa using hm, rfl⟩⟩

theorem sequential_step_iff (hinv : PosInv f) {op : RegsOp} (hfit : OffsetFits f op) :
    Sequential f op ↔ EmptyWrite op := by
  cases op with
  | llseek off whence heven => exact Iff.rfl
  | read pBuf nBytes heven => exact iff_of_true (readSeq hinv pBuf heven hfit) trivial
  | write data heven => exact writeSeq_iff hinv heven hfit

end Property

/-- **The register file is a sequential file iff nothing is written.** For every run of seeks, reads and writes on an
open file, with even offsets and counts and ends that are offsets: every read and write that returns n transfers the n
bytes at the position and moves it by n, and goes with the one after it like one call, iff every write of the run has
an empty buffer. The reads keep to this, and `regs_info_drv_write` leaves the position. -/
theorem sequential_iff (regs : ℕ → ℤ → UInt8) (ops : List RegsOp) (hfit : Always regsStep OffsetFits ⟨regs, 0⟩ ops) :
    Always regsStep Sequential ⟨regs, 0⟩ ops ↔ ∀ op ∈ ops, EmptyWrite op := by
  have hopen : PosInv ⟨regs, 0⟩ := ⟨le_refl 0, pow_pos two_pos 63, dvd_zero 2⟩
  have hkeep : ∀ f op g, PosInv f → OffsetFits f op → EmptyWrite op → regsStep f op = .ok g → PosInv g := by
    intro f op g hinv hop _ hg
    cases hg
    exact regsNext_inv hinv hop
  calc Always regsStep Sequential ⟨regs, 0⟩ ops
    _ ↔ Always regsStep (fun _ op => EmptyWrite op) ⟨regs, 0⟩ ops :=
      always_iff_of (I := PosInv) (fun f op hinv hop => sequential_step_iff hinv hop) hkeep hopen hfit
    _ ↔ ∀ op ∈ ops, EmptyWrite op := always_forall (fun f op => ⟨regsNext f op, rfl⟩) ops

/-- a run with reads and an empty write, in the window of slot 1 -/
theorem sequential_reads : Always regsStep Sequential ⟨fun _ _ => 7, 0⟩
    [.llseek 0xa0000000 seekSet (by decide), .read (fun _ => 0) 2 (by decide), .write [] (by decide),
      .read (fun _ => 0) 4 (by decide)] := by
  refine (sequential_iff _ _ (by decide +kernel)).2 fun op hop => ?_
  fin_cases hop <;> trivial

/-- two writes at the begin of the window of slot 1: each returns 2, the position is not moved, and the second one
overwrites the bytes of the first, where one write of both puts four bytes -/
theorem write_overwrites : let f : RegsFile := ⟨fun _ _ => 0, 0xa0000000⟩
    let g := (f.write [1, 2]).2
    let h := (g.write [3, 4]).2
    let one := (f.write [1, 2, 3, 4]).2
    let ops : List RegsOp :=
      [.llseek 0xa0000000 seekSet (by decide), .write [1, 2] (by decide), .write [3, 4] (by decide)]
    (f.write [1, 2]).1 = 2 ∧ g.fPos = 0xa0000000 ∧ [0, 1, 2, 3].map (g.regs 1) = [1, 2, 0, 0] ∧
    (g.write [3, 4]).1 = 2 ∧ [0, 1, 2, 3].map (h.regs 1) = [3, 4, 0, 0] ∧
    [0, 1, 2, 3].map (one.regs 1) = [1, 2, 3, 4] ∧
    Always regsStep OffsetFits ⟨fun _ _ => 0, 0⟩ ops ∧ ¬ Always regsStep Sequential ⟨fun _ _ => 0, 0⟩ ops := by
  refine ⟨by decide +kernel, by decide +kernel, by decide +kernel, by decide +kernel, by decide +kernel,
    by decide +kernel, by decide +kernel, ?_⟩
  rintro ⟨-, hwrite, -⟩
  have hinv : PosInv ⟨fun _ _ => 0, 0xa0000000⟩ := ⟨by decide, by decide, by decide⟩
  have hempty := (writeSeq_iff hinv (by decide) (by decide)).1 hwrite
  exact absurd hempty (by decide)

end LinuxDrv.Driver
