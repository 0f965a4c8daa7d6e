/-
`regs_info_dev.c`: the position of the register file, for any offsets, counts and values of whence.

`regs_info_drv_llseek` checks the position it moves to, and its sums are guarded. The position is moved by two more
ways: `regs_info_drv_read` adds the count to it and checks nothing, and a whence that the switch does not list leaves
`newpos` at 0. The caller promises no more than that the offset behind the bytes of a read or a write is an offset.
- `seekSums_fit`: no sum of `regs_info_drv_llseek` overflows, wherever the file is.
- `llseek_exact`: a listed whence is refused, or moves the file to the position that is asked for.
- `llseek_other`: any other whence moves it to the begin.
- `position_in_range_iff`: so the position stays in range and the seeks are exact iff no read goes past `m_size` and
  every whence is a listed one.
-/
import LinuxDrv.Driver.RegsInfo

namespace LinuxDrv.Driver

open LinuxDrv.Core

/-- a signed number of 64 bits -/
def Fits (x : ℤ) : Prop := -2 ^ 63 ≤ x ∧ x < 2 ^ 63

instance (x : ℤ) : Decidable (Fits x) := inferInstanceAs (Decidable (_ ∧ _))

/-- the calls on an open file; a write has the bytes of its buffer -/
inductive FileOp where
  | llseek (off whence : ℤ) (hoff : Fits off)
  | read (pBuf : ℤ → UInt8) (nBytes : ℕ)
  | write (data : List UInt8)

def fileNext (f : RegsFile) : FileOp → RegsFile
  | .llseek off whence _ => (regsInfoDrvLlseek off whence f).2
  | .read pBuf nBytes => (f.read pBuf nBytes).2.2
  | .write data => (f.write data).2

def fileStep (f : RegsFile) (op : FileOp) : Except Empty RegsFile := .ok (fileNext f op)

/-- what the caller promises -/
def CallFits (f : RegsFile) : FileOp → Prop
  | .llseek _ _ _ => True
  | .read _ nBytes => f.EndFits nBytes
  | .write data => f.EndFits data.length

instance (f : RegsFile) : ∀ op, Decidable (CallFits f op)
  | .llseek _ _ _ => isTrue trivial
  | .read _ nBytes => inferInstanceAs (Decidable (f.EndFits nBytes))
  | .write data => inferInstanceAs (Decidable (f.EndFits data.length))

theorem mSize_nonneg : 0 ≤ mSize := by decide

/-! ## One seek -/

/-- the sums and differences that `regs_info_drv_llseek` computes -/
def seekSums (off whence fPos : ℤ) : List ℤ :=
  if whence = seekCur then (mSize - fPos) :: if mSize - fPos ≤ off then [] else [fPos + off]
  else if whence = seekEnd then if 0 ≤ off then [] else [mSize + off]
  else []

/-- the position that a seek asks for -/
def requested (off whence fPos : ℤ) : Option ℤ :=
  if whence = seekSet then some off
  else if whence = seekCur then some (fPos + off)
  else if whence = seekEnd then some (mSize + off)
  else none

/-- `SEEK_SET`, `SEEK_CUR` or `SEEK_END` -/
def Listed (whence : ℤ) : Prop := whence = seekSet ∨ whence = seekCur ∨ whence = seekEnd

instance (whence : ℤ) : Decidable (Listed whence) := inferInstanceAs (Decidable (_ ∨ _ ∨ _))

/-- a seek is refused, or moves the file to the position that is asked for -/
def SeekExact (f : RegsFile) (off whence : ℤ) : Prop :=
  regsInfoDrvLlseek off whence f = (-einval, f) ∨
  ∃ newpos, requested off whence f.fPos = some newpos ∧
    regsInfoDrvLlseek off whence f = (newpos, { f with fPos := newpos })

section Seek

variable {f : RegsFile} {off whence : ℤ}

theorem seekSums_fit (h0 : 0 ≤ f.fPos) (hlt : f.fPos < 2 ^ 63) (hoff : Fits off) (whence : ℤ) :
    ∀ x ∈ seekSums off whence f.fPos, Fits x := by
  have hsize : mSize = 2 ^ 32 := rfl
  intro x hx
  unfold Fits at hoff ⊢
  unfold seekSums at hx
  split_ifs at hx
  · rw [List.mem_singleton] at hx
    omega
  · -- the guard before the addition bounds it from above
    rcases List.mem_cons.1 hx with hx | hx
    · omega
    · rw [List.mem_singleton] at hx
      omega
  · exact absurd hx List.not_mem_nil
  · rw [List.mem_singleton] at hx
    omega
  · exact absurd hx List.not_mem_nil

/-- the new position of the switch is the one that is asked for -/
theorem seekPos_requested (hl : Listed whence) {fPos newpos : ℤ} (h : seekPos off whence fPos = some newpos) :
    requested off whence fPos = some newpos := by
  unfold seekPos at h
  unfold requested
  split_ifs at h ⊢
  · exact h
  · exact h
  · exact h
  · rcases hl with hl | hl | hl <;> contradiction

theorem llseek_exact (hl : Listed whence) (f : RegsFile) (off : ℤ) : SeekExact f off whence := by
  unfold SeekExact regsInfoDrvLlseek
  rcases hseek : seekPos off whence f.fPos with _ | newpos
  · exact Or.inl rfl
  · dsimp only
    split_ifs
    · exact Or.inl rfl
    · exact Or.inr ⟨newpos, seekPos_requested hl hseek, rfl⟩

theorem llseek_other (hl : ¬ Listed whence) (f : RegsFile) (off : ℤ) :
    regsInfoDrvLlseek off whence f = (0, { f with fPos := 0 }) := by
  obtain ⟨hset, hcur, hend⟩ : whence ≠ seekSet ∧ whence ≠ seekCur ∧ whence ≠ seekEnd := by
    unfold Listed at hl
    tauto
  have hseek : seekPos off whence f.fPos = some 0 := by
    rw [seekPos, if_neg hset, if_neg hcur, if_neg hend]
  unfold regsInfoDrvLlseek
  rw [hseek]
  exact if_neg (by decide)

/-- a whence that is not listed is neither refused nor a request -/
theorem seekExact_iff : SeekExact f off whence ↔ Listed whence := by
  refine ⟨fun h => ?_, fun hl => llseek_exact hl f off⟩
  by_contra hl
  have hmoved := llseek_other hl f off
  rcases h with hrefused | ⟨newpos, hreq, -⟩
  · rw [hmoved] at hrefused
    have hret : (0 : ℤ) = -einval := congrArg Prod.fst hrefused
    exact absurd hret (by decide)
  · unfold Listed at hl
    unfold requested at hreq
    split_ifs at hreq <;> tauto

/-- a seek leaves the file in range -/
theorem llseek_range (h0 : 0 ≤ f.fPos) (hle : f.fPos ≤ mSize) (off whence : ℤ) :
    0 ≤ (regsInfoDrvLlseek off whence f).2.fPos ∧ (regsInfoDrvLlseek off whence f).2.fPos ≤ mSize := by
  unfold regsInfoDrvLlseek
  rcases seekPos off whence f.fPos with _ | newpos
  · exact ⟨h0, hle⟩
  · dsimp only
    split_ifs with hout
    · exact ⟨h0, hle⟩
    · rw [not_or, not_lt, not_le] at hout
      exact ⟨hout.1, hout.2.le⟩

end Seek

/-! ## Reads and writes -/

section ReadWrite

variable {f : RegsFile}

theorem read_fPos (h0 : 0 ≤ f.fPos) (pBuf : ℤ → UInt8) {nBytes : ℕ} (hend : f.EndFits nBytes) :
    (f.read pBuf nBytes).2.2.fPos = f.fPos + nBytes := toLoff_eq h0 hend

theorem write_fPos (f : RegsFile) (data : List UInt8) : (f.write data).2.fPos = f.fPos := rfl

end ReadWrite

/-! ## Runs -/

/-- the call leaves the file in range; a seek has no overflow, and is refused or exact -/
def InRange (f : RegsFile) (op : FileOp) : Prop :=
  (0 ≤ (fileNext f op).fPos ∧ (fileNext f op).fPos ≤ mSize) ∧
  match op with
  | .llseek off whence _ => (∀ x ∈ seekSums off whence f.fPos, Fits x) ∧ SeekExact f off whence
  | _ => True

/-- a seek has a listed whence; a read ends at `m_size` or before -/
def Within (f : RegsFile) : FileOp → Prop
  | .llseek _ whence _ => Listed whence
  | .read _ nBytes => f.fPos + nBytes ≤ mSize
  | .write _ => True

instance (f : RegsFile) : ∀ op, Decidable (Within f op)
  | .llseek _ whence _ => inferInstanceAs (Decidable (Listed whence))
  | .read _ nBytes => inferInstanceAs (Decidable (f.fPos + nBytes ≤ mSize))
  | .write _ => isTrue trivial

theorem inRange_iff {f : RegsFile} (h0 : 0 ≤ f.fPos) (hle : f.fPos ≤ mSize) {op : FileOp} (hfit : CallFits f op) :
    InRange f op ↔ Within f op := by
  have hsize : mSize = 2 ^ 32 := rfl
  cases op with
  | llseek off whence hoff =>
    have hrange := llseek_range h0 hle off whence
    have hsums := seekSums_fit h0 (by omega) hoff whence
    calc InRange f (.llseek off whence hoff)
      _ ↔ (∀ x ∈ seekSums off whence f.fPos, Fits x) ∧ SeekExact f off whence := and_iff_right hrange
      _ ↔ SeekExact f off whence := and_iff_right hsums
      _ ↔ Listed whence := seekExact_iff
  | read pBuf nBytes =>
    have hpos := read_fPos h0 pBuf hfit
    show (0 ≤ (f.read pBuf nBytes).2.2.fPos ∧ (f.read pBuf nBytes).2.2.fPos ≤ mSize) ∧ True ↔ f.fPos + nBytes ≤ mSize
    rw [hpos]
    exact ⟨fun h => h.1.2, fun h => ⟨⟨by omega, h⟩, trivial⟩⟩
  | write data =>
    have hpos := write_fPos f data
    exact iff_of_true ⟨by rw [fileNext, hpos]; exact ⟨h0, hle⟩, trivial⟩ trivial

/-- **The position stays in range iff the reads do and every whence is listed.** For every run of seeks, reads and
writes from position 0, with any 64-bit offsets, any whence, and any counts with ends that are offsets: after every call
the position is in [0, `m_size`], no sum of a seek overflows, and every seek is refused with -EINVAL or moves to exactly
the position that is asked for, iff every whence is `SEEK_SET`, `SEEK_CUR` or `SEEK_END` and no read goes past
`m_size`. -/
theorem position_in_range_iff (regs : ℕ → ℤ → UInt8) (ops : List FileOp)
    (hfit : Always fileStep CallFits ⟨regs, 0⟩ ops) :
    Always fileStep InRange ⟨regs, 0⟩ ops ↔ Always fileStep Within ⟨regs, 0⟩ ops := by
  refine always_iff_of (I := fun f => 0 ≤ f.fPos ∧ f.fPos ≤ mSize) (fun f op hf hop => inRange_iff hf.1 hf.2 hop) ?_
    ⟨le_refl 0, mSize_nonneg⟩ hfit
  intro f op g hf hop hwithin hg
  cases hg
  exact ((inRange_iff hf.1 hf.2 hop).2 hwithin).1

/-- a seek to the last two bytes, a read of them, and a seek from there that is refused -/
theorem position_at_end : Always fileStep InRange ⟨fun _ _ => 0, 0⟩
    [.llseek (-2) seekEnd (by decide), .read (fun _ => 0) 2, .llseek 0 seekCur (by decide)] :=
  (position_in_range_iff _ _ (by decide +kernel)).2 (by decide +kernel)

/-- a read of four bytes from the last two goes past `m_size`; a seek with whence 3 moves from 2 to 0 and returns 0 -/
theorem position_out_of_range : let f : RegsFile := ⟨fun _ _ => 0, 0xfffffffe⟩
    let g : RegsFile := ⟨fun _ _ => 0, 2⟩
    let reads : List FileOp := [.llseek 0xfffffffe seekSet (by decide), .read (fun _ => 0) 4]
    let seeks : List FileOp := [.llseek 2 seekSet (by decide), .llseek 0 3 (by decide)]
    (f.read (fun _ => 0) 4).2.2.fPos = mSize + 2 ∧
    (regsInfoDrvLlseek 0 3 g).1 = 0 ∧ (regsInfoDrvLlseek 0 3 g).2.fPos = 0 ∧
    (Always fileStep CallFits ⟨fun _ _ => 0, 0⟩ reads ∧ ¬ Always fileStep InRange ⟨fun _ _ => 0, 0⟩ reads) ∧
    (Always fileStep CallFits ⟨fun _ _ => 0, 0⟩ seeks ∧ ¬ Always fileStep InRange ⟨fun _ _ => 0, 0⟩ seeks) := by
  refine ⟨by decide +kernel, rfl, rfl, ⟨by decide +kernel, ?_⟩, by decide +kernel, ?_⟩
  · intro h
    have hread := (inRange_iff (by decide) (by decide) (by decide +kernel)).1 h.2.1
    exact absurd hread (by decide +kernel)
  · intro h
    exact absurd (seekExact_iff.1 h.2.1.2.2) (by decide)

end LinuxDrv.Driver
