/-
The ioctl interfaces of a driver and of its library (`udf_dth_ioctl_if.def` and `udf_dbh_ioctl_if.def`, with the macros
that unfold them, and `udf_ioctl` of `file_op.c`).

An interface is one line of a `.def` file: a direction, a function, and the type of its argument. The file is included
four times. Once it numbers the functions (an enumeration), once it makes an opcode for each of them, once it makes the
functions of the library, which pass their opcode to `ioctl`, and once the table from which the driver takes the
function for a command. The opcode has the number, the type `UDF_IOC_MAGIC`, the size of the argument and the
direction, in 8, 8, 14 and 2 bits.

What the functions of the driver do is an argument. A call is noted in the result of `udf_ioctl`.
- `iocNr_ioc`, `ioc_fields`: the fields of an opcode are read back.
- `nbr_getElem`: the numbers are the positions.
- `ioctl_agrees`: a function of the library reaches the function of the driver with its name, and no command but the
  opcodes reaches any.
- `opcode_upgrade`: new interfaces at the end of a list leave the opcodes of the others as they are.
-/
import LinuxDrv.Core.BitField
import Mathlib.Tactic

namespace LinuxDrv.Udf

open LinuxDrv.Core

def enoioctlcmd : ℤ := 515

/-! ## Opcodes -/

/-- `_IOC_NRSHIFT`, `_IOC_NRBITS` and so on -/
def iocNrBits : Bits := ⟨0, 8⟩
def iocTypeBits : Bits := ⟨8, 8⟩
def iocSizeBits : Bits := ⟨16, 14⟩
def iocDirBits : Bits := ⟨30, 2⟩

/-- `_IOC` -/
def ioc (dir type nr size : ℕ) : BitVec 32 :=
  BitVec.ofNat 32 dir <<< iocDirBits.lsb ||| BitVec.ofNat 32 type <<< iocTypeBits.lsb |||
    BitVec.ofNat 32 nr <<< iocNrBits.lsb ||| BitVec.ofNat 32 size <<< iocSizeBits.lsb

/-- `_IOC_NR` -/
def iocNr (cmd : BitVec 32) : ℕ := iocNrBits.get cmd

/-- `_IO`, `_IOR`, `_IOW`, `_IOWR` -/
def io (type nr : ℕ) : BitVec 32 := ioc 0 type nr 0
def ior (type nr size : ℕ) : BitVec 32 := ioc 2 type nr size
def iow (type nr size : ℕ) : BitVec 32 := ioc 1 type nr size
def iowr (type nr size : ℕ) : BitVec 32 := ioc 3 type nr size

/-- `_ION`, which drops the size -/
def ion (type nr _size : ℕ) : BitVec 32 := io type nr

/-! ## Interfaces -/

/-- the first argument of `UDF_IOCTL_MACRO_ENCAP` -/
inductive Wr where
  | n
  | r
  | w
  | wr
deriving DecidableEq

/-- `_IO##wr` -/
def Wr.ioMacro : Wr → ℕ → ℕ → ℕ → BitVec 32
  | .n => ion
  | .r => ior
  | .w => iow
  | .wr => iowr

/-- `UDF_IOCTL_MACRO_ENCAP(wr, func, type)`, with the size of the type -/
structure IfEntry (φ : Type) where
  wr : Wr
  func : φ
  size : ℕ
  size_lt : size < 2 ^ 14

/-- the lines of a `.def` file; an enumeration has no name twice -/
structure IfList (φ : Type) where
  entries : List (IfEntry φ)
  nodup : (entries.map IfEntry.func).Nodup
  length_le : entries.length ≤ 256

/-- `UDF_IOC_MAGIC`, a character -/
abbrev Magic := BitVec 8

section Expansions

variable {φ : Type} [DecidableEq φ]

/-- `UDF_NBR_OF_IOC_CMD(func)`: the constant of the enumeration that `UDF_IOCTL_MACRO_HDR_AUX` makes -/
def nbr (I : IfList φ) (func : φ) : ℕ := (I.entries.map IfEntry.func).idxOf func

/-- `UDF_OPCODE_OF_IOC_CMD(func)`, as `UDF_IOCTL_MACRO_HDR` makes it -/
def opcode (magic : Magic) (I : IfList φ) (e : IfEntry φ) : BitVec 32 :=
  e.wr.ioMacro magic.toNat (nbr I e.func) e.size

/-- `UDF_IOCTL_MACRO_USR_LIB`: the command that the function of the library gives to `ioctl` -/
def usrLib (magic : Magic) (I : IfList φ) (e : IfEntry φ) : BitVec 32 := opcode magic I e

/-- an entry of `s_tbl` -/
structure DrvTblRow (φ : Type) where
  req : BitVec 32
  func : φ

/-- `s_tbl`, as `UDF_IOCTL_MACRO_DRV_TBL` makes it -/
def drvTbl (magic : Magic) (I : IfList φ) : List (DrvTblRow φ) := I.entries.map fun e => ⟨opcode magic I e, e.func⟩

end Expansions

/-- what `udf_ioctl` returns and leaves, and the functions that it called -/
structure IoctlOut (φ μ : Type) where
  ret : ℤ
  world : μ
  calls : List φ

section Ioctl

variable {φ δ μ : Type}

/-- `udf_ioctl`: `fn` runs a function on `m_pData` and the argument -/
def udfIoctl (fn : φ → δ → BitVec 64 → μ → ℤ × μ) (sTbl : List (DrvTblRow φ)) (cmd : BitVec 32) (pData : δ)
    (arg : BitVec 64) (m : μ) : IoctlOut φ μ :=
  let idx := iocNr cmd
  match sTbl[idx]? with
  | none => ⟨-enoioctlcmd, m, []⟩
  | some row =>
    if cmd ≠ row.req then ⟨-enoioctlcmd, m, []⟩
    else
      let x := fn row.func pData arg m
      ⟨x.1, x.2, [row.func]⟩

end Ioctl

/-! ## The fields of an opcode -/

/-- a number at a shift -/
theorem getLsbD_shift (x k : ℕ) {j : ℕ} (hj : j < 32) :
    (BitVec.ofNat 32 x <<< k).getLsbD j = (decide (k ≤ j) && x.testBit (j - k)) := by
  have hle : decide (k ≤ j) = !decide (j < k) := (decide_eq_decide.2 not_lt.symm).trans decide_not
  have hlt : j - k < 32 := by omega
  rw [BitVec.getLsbD_shiftLeft, BitVec.getLsbD_ofNat, hle, decide_eq_true hj, decide_eq_true hlt]
  simp

/-- a number of w bits has no bit from w on -/
theorem testBit_eq_false {x w j : ℕ} (hx : x < 2 ^ w) (hj : w ≤ j) : x.testBit j = false :=
  Nat.testBit_lt_two_pow (hx.trans_le (Nat.pow_le_pow_right Nat.two_pos hj))

theorem getLsbD_ioc (dir type nr size : ℕ) {j : ℕ} (hj : j < 32) : (ioc dir type nr size).getLsbD j =
    (decide (30 ≤ j) && dir.testBit (j - 30) || decide (8 ≤ j) && type.testBit (j - 8) ||
      decide (0 ≤ j) && nr.testBit (j - 0) || decide (16 ≤ j) && size.testBit (j - 16)) := by
  rw [ioc, BitVec.getLsbD_or, BitVec.getLsbD_or, BitVec.getLsbD_or, getLsbD_shift dir _ hj, getLsbD_shift type _ hj,
    getLsbD_shift nr _ hj, getLsbD_shift size _ hj]
  rfl

/-- bits that are those of a number -/
theorem get_eq_of_testBit {b : Bits} {v : BitVec 32} {x : ℕ} (hx : x < 2 ^ b.width)
    (h : ∀ i < b.width, v.getLsbD (b.lsb + i) = x.testBit i) : b.get v = x := by
  have hext : v.extractLsb' b.lsb b.width = BitVec.ofNat b.width x := by
    apply BitVec.eq_of_getLsbD_eq
    intro i hi
    rw [BitVec.getLsbD_extractLsb', BitVec.getLsbD_ofNat, h i hi]
  rw [Bits.get, hext, BitVec.toNat_ofNat, Nat.mod_eq_of_lt hx]

/-- the fields of an opcode -/
structure IocFields (dir type nr size : ℕ) : Prop where
  iocNr : iocNrBits.get (ioc dir type nr size) = nr
  iocType : iocTypeBits.get (ioc dir type nr size) = type
  iocSize : iocSizeBits.get (ioc dir type nr size) = size
  iocDir : iocDirBits.get (ioc dir type nr size) = dir

/-- `_IOC_NR` reads the number back, whatever the other fields are -/
theorem iocNr_ioc (dir type size : ℕ) {nr : ℕ} (hnr : nr < 2 ^ 8) : iocNr (ioc dir type nr size) = nr := by
  apply get_eq_of_testBit hnr
  intro i hi
  simp only [iocNrBits] at hi ⊢
  rw [getLsbD_ioc _ _ _ _ (by omega), decide_eq_false (show ¬ 30 ≤ 0 + i by omega),
    decide_eq_false (show ¬ 8 ≤ 0 + i by omega), decide_eq_false (show ¬ 16 ≤ 0 + i by omega)]
  simp

/-- the fields do not overlap -/
theorem ioc_fields {dir type nr size : ℕ} (hdir : dir < 2 ^ 2) (htype : type < 2 ^ 8) (hnr : nr < 2 ^ 8)
    (hsize : size < 2 ^ 14) : IocFields dir type nr size where
  iocNr := iocNr_ioc dir type size hnr
  iocType := by
    apply get_eq_of_testBit htype
    intro i hi
    simp only [iocTypeBits] at hi ⊢
    rw [getLsbD_ioc _ _ _ _ (by omega), decide_eq_false (show ¬ 30 ≤ 8 + i by omega),
      decide_eq_false (show ¬ 16 ≤ 8 + i by omega), testBit_eq_false hnr (show 8 ≤ 8 + i - 0 by omega)]
    simp
  iocSize := by
    apply get_eq_of_testBit hsize
    intro i hi
    simp only [iocSizeBits] at hi ⊢
    rw [getLsbD_ioc _ _ _ _ (by omega), decide_eq_false (show ¬ 30 ≤ 16 + i by omega),
      testBit_eq_false htype (show 8 ≤ 16 + i - 8 by omega), testBit_eq_false hnr (show 8 ≤ 16 + i - 0 by omega)]
    simp
  iocDir := by
    apply get_eq_of_testBit hdir
    intro i hi
    simp only [iocDirBits] at hi ⊢
    rw [getLsbD_ioc _ _ _ _ (by omega), testBit_eq_false htype (show 8 ≤ 30 + i - 8 by omega),
      testBit_eq_false hnr (show 8 ≤ 30 + i - 0 by omega), testBit_eq_false hsize (show 14 ≤ 30 + i - 16 by omega)]
    simp

/-! ## One list, four expansions -/

section Agreement

variable {φ : Type} [DecidableEq φ] (magic : Magic) (I : IfList φ)

theorem Wr.ioMacro_nr (x : Wr) (type size : ℕ) {nr : ℕ} (hnr : nr < 256) : iocNr (x.ioMacro type nr size) = nr := by
  cases x <;> exact iocNr_ioc _ _ _ hnr

/-- the enumeration numbers the functions by their positions -/
theorem nbr_getElem {i : ℕ} (hi : i < I.entries.length) : nbr I I.entries[i].func = i := by
  have hi' : i < (I.entries.map IfEntry.func).length := by simpa using hi
  have hget : (I.entries.map IfEntry.func)[i] = I.entries[i].func := List.getElem_map _
  rw [nbr, ← hget]
  exact I.nodup.idxOf_getElem i hi'

/-- the number of an opcode is its position -/
theorem iocNr_opcode {i : ℕ} (hi : i < I.entries.length) : iocNr (opcode magic I I.entries[i]) = i := by
  rw [opcode, nbr_getElem I hi]
  exact Wr.ioMacro_nr _ _ _ (hi.trans_le I.length_le)

theorem drvTbl_getElem? {i : ℕ} (hi : i < I.entries.length) :
    (drvTbl magic I)[i]? = some ⟨opcode magic I I.entries[i], I.entries[i].func⟩ := by
  rw [drvTbl, List.getElem?_map, List.getElem?_eq_getElem hi]
  rfl

/-- the library and the driver agree on the interfaces -/
structure IoctlAgrees (magic : Magic) (I : IfList φ) : Prop where
  /-- the command of a function of the library reaches the function of the driver, and no other -/
  dispatch : ∀ {δ μ : Type} (fn : φ → δ → BitVec 64 → μ → ℤ × μ) i (hi : i < I.entries.length) pData arg m,
    udfIoctl fn (drvTbl magic I) (usrLib magic I I.entries[i]) pData arg m =
      ⟨(fn I.entries[i].func pData arg m).1, (fn I.entries[i].func pData arg m).2, [I.entries[i].func]⟩
  distinct : (I.entries.map (opcode magic I)).Nodup
  /-- any other command is refused -/
  refused : ∀ {δ μ : Type} (fn : φ → δ → BitVec 64 → μ → ℤ × μ) cmd pData arg m,
    cmd ∉ I.entries.map (opcode magic I) → udfIoctl fn (drvTbl magic I) cmd pData arg m = ⟨-enoioctlcmd, m, []⟩

/-- **Library and driver agree on every ioctl**, for every list of interfaces. -/
theorem ioctl_agrees : IoctlAgrees magic I where
  dispatch := by
    intro δ μ fn i hi pData arg m
    rw [udfIoctl, usrLib, iocNr_opcode magic I hi, drvTbl_getElem? magic I hi]
    exact if_neg (not_not.2 rfl)
  distinct := by
    rw [List.nodup_iff_injective_get]
    intro i j hij
    have hi : i.val < I.entries.length := by simpa using i.isLt
    have hj : j.val < I.entries.length := by simpa using j.isLt
    have hop : opcode magic I I.entries[i.val] = opcode magic I I.entries[j.val] := by simpa using hij
    apply Fin.ext
    calc i.val = iocNr (opcode magic I I.entries[i.val]) := (iocNr_opcode magic I hi).symm
      _ = iocNr (opcode magic I I.entries[j.val]) := by rw [hop]
      _ = j.val := iocNr_opcode magic I hj
  refused := by
    intro δ μ fn cmd pData arg m hcmd
    rw [udfIoctl]
    rcases hrow : (drvTbl magic I)[iocNr cmd]? with _ | row
    · rfl
    · have hreq : cmd ≠ row.req := by
        rintro rfl
        obtain ⟨e, he, rfl⟩ := List.mem_map.1 (List.mem_of_getElem? hrow)
        exact hcmd (List.mem_map_of_mem he)
      exact if_pos hreq

end Agreement

/-! ## New interfaces at the end -/

section Upgrade

variable {φ : Type} [DecidableEq φ] (magic : Magic) {I J : IfList φ}

/-- a list that only got new interfaces at its end has the numbers of the old one -/
theorem nbr_upgrade (hpre : I.entries <+: J.entries) {e : IfEntry φ} (he : e ∈ I.entries) :
    nbr J e.func = nbr I e.func := by
  obtain ⟨new, hnew⟩ := hpre
  have hmem : e.func ∈ I.entries.map IfEntry.func := List.mem_map_of_mem he
  rw [nbr, nbr, ← hnew, List.map_append, List.idxOf_append_of_mem hmem]

theorem opcode_upgrade (hpre : I.entries <+: J.entries) {e : IfEntry φ} (he : e ∈ I.entries) :
    opcode magic J e = opcode magic I e := by
  rw [opcode, opcode, nbr_upgrade hpre he]

/-- a library of the old list reaches the same functions in a driver of the new one -/
theorem usrLib_upgrade {δ μ : Type} (hpre : I.entries <+: J.entries) (fn : φ → δ → BitVec 64 → μ → ℤ × μ)
    {e : IfEntry φ} (he : e ∈ I.entries) (pData : δ) (arg : BitVec 64) (m : μ) :
    udfIoctl fn (drvTbl magic J) (usrLib magic I e) pData arg m =
      ⟨(fn e.func pData arg m).1, (fn e.func pData arg m).2, [e.func]⟩ := by
  obtain ⟨i, hi, hei⟩ := List.getElem_of_mem (hpre.subset he)
  have hcmd : usrLib magic I e = usrLib magic J J.entries[i] := by
    rw [hei]
    exact (opcode_upgrade magic hpre he).symm
  rw [hcmd, usrLib, udfIoctl, iocNr_opcode magic J hi, drvTbl_getElem? magic J hi, hei]
  exact if_neg (not_not.2 rfl)

end Upgrade

/-! ## The interfaces of every driver -/

section Files

variable {φ υ : Type}

/-- the line `e` with its function renamed -/
def IfEntry.map {ψ : Type} (f : φ → ψ) (e : IfEntry φ) : IfEntry ψ := ⟨e.wr, f e.func, e.size, e.size_lt⟩

/-- `#include UDF_DRV_IF_DEF_FILE_NAME`: the lines of the user come last -/
def IfList.withUser (fixed : IfList φ) (user : IfList υ) (h : fixed.entries.length + user.entries.length ≤ 256) :
    IfList (φ ⊕ υ) where
  entries := fixed.entries.map (IfEntry.map Sum.inl) ++ user.entries.map (IfEntry.map Sum.inr)
  nodup := by
    have hfixed : (fixed.entries.map (IfEntry.map (ψ := φ ⊕ υ) Sum.inl)).map IfEntry.func =
        (fixed.entries.map IfEntry.func).map Sum.inl := by simp [IfEntry.map]
    have huser : (user.entries.map (IfEntry.map (ψ := φ ⊕ υ) Sum.inr)).map IfEntry.func =
        (user.entries.map IfEntry.func).map Sum.inr := by simp [IfEntry.map]
    rw [List.map_append, hfixed, huser]
    apply List.Nodup.append (fixed.nodup.map Sum.inl_injective) (user.nodup.map Sum.inr_injective)
    simp [List.Disjoint]
  length_le := by simpa using h

/-- the functions of `udf_dth_ioctl_if.def` -/
inductive DthFunc where
  | udfReset
  | udfHello
  | udfEnableInt
  | udfQueryOnline
  | udfGetMemSize
deriving DecidableEq

/-- `udf_dth_ioctl_if.def`, with `sizeof(int)` -/
def udfDthIoctlIf : IfList DthFunc where
  entries := [
    ⟨.n, .udfReset, 4, by decide⟩,
    ⟨.w, .udfHello, 4, by decide⟩,
    ⟨.w, .udfEnableInt, 4, by decide⟩,
    ⟨.w, .udfQueryOnline, 4, by decide⟩,
    ⟨.r, .udfGetMemSize, 4, by decide⟩]
  nodup := by decide
  length_le := by decide

-- `UDF_IOC_MAGIC` is 'c' in the template
example : opcode 0x63#8 udfDthIoctlIf ⟨.w, .udfHello, 4, by decide⟩ = 0x40046301#32 := by decide

/-- the functions of `udf_dbh_ioctl_if.def` -/
inductive DbhFunc where
  | udfRead (bits : ℕ)
  | udfWrite (bits : ℕ)
  | udfEnableSlotInt
  | udfDisableSlotInt
  | udfQuerySlotOnline
  | udfGetMemSize
deriving DecidableEq

/-- `udf_dbh_ioctl_if.def`; an address of 64 bits and a value take 16 bytes -/
def udfDbhIoctlIf : IfList DbhFunc where
  entries := [
    ⟨.r, .udfRead 64, 16, by decide⟩,
    ⟨.w, .udfWrite 64, 16, by decide⟩,
    ⟨.r, .udfRead 32, 16, by decide⟩,
    ⟨.w, .udfWrite 32, 16, by decide⟩,
    ⟨.r, .udfRead 16, 16, by decide⟩,
    ⟨.w, .udfWrite 16, 16, by decide⟩,
    ⟨.r, .udfRead 8, 16, by decide⟩,
    ⟨.w, .udfWrite 8, 16, by decide⟩,
    ⟨.w, .udfEnableSlotInt, 4, by decide⟩,
    ⟨.w, .udfDisableSlotInt, 4, by decide⟩,
    ⟨.w, .udfQuerySlotOnline, 4, by decide⟩,
    ⟨.r, .udfGetMemSize, 4, by decide⟩]
  nodup := by decide
  length_le := by decide

end Files

end LinuxDrv.Udf
