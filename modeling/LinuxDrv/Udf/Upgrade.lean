/-
A library and a driver that were built from different lists of interfaces.

The `.def` files ask that a new interface is put at the end, "for product update/upgrade". The library keeps the opcodes
of the list it was built from, and the driver dispatches by its own table.
- `calls_eq_iff`: which function of the driver a function of the library reaches.
- `upgrade_iff`: all functions of the library reach the functions of their names exactly when each stands at the same
  place in the other list, with the same direction and size. The opcode of a line of direction N has no size, and none
  is compared.
- `upgrade_end`: after an update that puts new interfaces at the end, the old library reaches what it did before, and
  the new library is refused what the old driver does not have.
-/
import LinuxDrv.Udf.IoctlIf

namespace LinuxDrv.Udf

open LinuxDrv.Core

section Upgrade

variable {φ : Type} [DecidableEq φ] (magic : Magic) {I J : IfList φ}

/-- the direction of an opcode -/
def Wr.dir : Wr → ℕ
  | .n => 0
  | .r => 2
  | .w => 1
  | .wr => 3

/-- the size of an opcode: `_ION` drops it -/
def Wr.size : Wr → ℕ → ℕ
  | .n, _ => 0
  | .r, size | .w, size | .wr, size => size

theorem Wr.ioMacro_eq (x : Wr) (type nr size : ℕ) : x.ioMacro type nr size = ioc x.dir type nr (x.size size) := by
  cases x <;> rfl

theorem Wr.dir_injective : Function.Injective Wr.dir := by
  intro x y h
  cases x <;> cases y <;> first | rfl | cases h

theorem Wr.dir_lt (x : Wr) : x.dir < 2 ^ 2 := by cases x <;> decide

theorem Wr.size_lt (x : Wr) {size : ℕ} (h : size < 2 ^ 14) : x.size size < 2 ^ 14 := by
  cases x with
  | n => exact Nat.two_pow_pos 14
  | _ => exact h

omit [DecidableEq φ] in
/-- two lines that stand at one place have one opcode iff they have one direction and one size -/
theorem ioMacro_inj {e e' : IfEntry φ} {nr : ℕ} (hnr : nr < 256) :
    e.wr.ioMacro magic.toNat nr e.size = e'.wr.ioMacro magic.toNat nr e'.size ↔
      e.wr = e'.wr ∧ e.wr.size e.size = e'.wr.size e'.size := by
  rw [Wr.ioMacro_eq, Wr.ioMacro_eq]
  constructor
  · intro h
    have hf := ioc_fields e.wr.dir_lt magic.isLt hnr (e.wr.size_lt e.size_lt)
    have hf' := ioc_fields e'.wr.dir_lt magic.isLt hnr (e'.wr.size_lt e'.size_lt)
    refine ⟨Wr.dir_injective ?_, ?_⟩
    · calc e.wr.dir = iocDirBits.get (ioc e.wr.dir magic.toNat nr (e.wr.size e.size)) := hf.iocDir.symm
        _ = iocDirBits.get (ioc e'.wr.dir magic.toNat nr (e'.wr.size e'.size)) := by rw [h]
        _ = e'.wr.dir := hf'.iocDir
    · calc e.wr.size e.size = iocSizeBits.get (ioc e.wr.dir magic.toNat nr (e.wr.size e.size)) := hf.iocSize.symm
        _ = iocSizeBits.get (ioc e'.wr.dir magic.toNat nr (e'.wr.size e'.size)) := by rw [h]
        _ = e'.wr.size e'.size := hf'.iocSize
  · intro h
    rw [h.1, ← h.1, h.2, h.1]

/-- the line of a driver answers the line of a library: same name, same direction, same size of the argument, which for
a line of direction N is not in the opcode -/
def Same (e e' : IfEntry φ) : Prop := e'.func = e.func ∧ e.wr = e'.wr ∧ e.wr.size e.size = e'.wr.size e'.size

theorem opcode_getElem {i : ℕ} (hi : i < I.entries.length) :
    opcode magic I I.entries[i] = I.entries[i].wr.ioMacro magic.toNat i I.entries[i].size := by
  rw [opcode, nbr_getElem I hi]

/-- a function of a library reaches the function at its own place in the table of the driver, if the opcodes agree, and
nothing else -/
theorem udfIoctl_usrLib {δ μ : Type} (fn : φ → δ → BitVec 64 → μ → ℤ × μ) {i : ℕ} (hi : i < I.entries.length)
    (pData : δ) (arg : BitVec 64) (m : μ) :
    (∃ hj : i < J.entries.length, opcode magic I I.entries[i] = opcode magic J J.entries[i] ∧
      udfIoctl fn (drvTbl magic J) (usrLib magic I I.entries[i]) pData arg m =
        ⟨(fn J.entries[i].func pData arg m).1, (fn J.entries[i].func pData arg m).2, [J.entries[i].func]⟩) ∨
    ((∀ hj : i < J.entries.length, opcode magic I I.entries[i] ≠ opcode magic J J.entries[i]) ∧
      udfIoctl fn (drvTbl magic J) (usrLib magic I I.entries[i]) pData arg m = ⟨-enoioctlcmd, m, []⟩) := by
  rw [udfIoctl, usrLib, iocNr_opcode magic I hi]
  by_cases hj : i < J.entries.length
  · rw [drvTbl_getElem? magic J hj]
    by_cases hop : opcode magic I I.entries[i] = opcode magic J J.entries[i]
    · exact Or.inl ⟨hj, hop, if_neg (not_not.2 hop)⟩
    · exact Or.inr ⟨fun _ => hop, if_pos hop⟩
  · have hnone : (drvTbl magic J)[i]? = none := by
      rw [List.getElem?_eq_none_iff, drvTbl, List.length_map]
      exact not_lt.1 hj
    rw [hnone]
    exact Or.inr ⟨fun h => absurd h hj, rfl⟩

/-- which function is called -/
theorem calls_eq_iff {δ μ : Type} (fn : φ → δ → BitVec 64 → μ → ℤ × μ) {i : ℕ} (hi : i < I.entries.length)
    (pData : δ) (arg : BitVec 64) (m : μ) :
    (udfIoctl fn (drvTbl magic J) (usrLib magic I I.entries[i]) pData arg m).calls = [I.entries[i].func] ↔
      ∃ hj : i < J.entries.length, Same I.entries[i] J.entries[i] := by
  have hnr : i < 256 := hi.trans_le I.length_le
  have hinj : ∀ hj : i < J.entries.length, opcode magic I I.entries[i] = opcode magic J J.entries[i] ↔
      I.entries[i].wr = J.entries[i].wr ∧
        I.entries[i].wr.size I.entries[i].size = J.entries[i].wr.size J.entries[i].size := by
    intro hj
    rw [opcode_getElem magic hi, opcode_getElem magic hj]
    exact ioMacro_inj magic hnr
  rcases udfIoctl_usrLib magic fn hi pData arg m with ⟨hj, hop, h⟩ | ⟨hop, h⟩
  · rw [h]
    constructor
    · intro hcalls
      exact ⟨hj, (List.cons.inj hcalls).1, (hinj hj).1 hop⟩
    · intro hsame
      rw [hsame.2.1]
  · rw [h]
    constructor
    · intro hcalls
      cases hcalls
    · intro hsame
      obtain ⟨hj, -, hwr⟩ := hsame
      exact absurd ((hinj hj).2 hwr) (hop hj)

/-- a function of a library works on a driver -/
def Works (magic : Magic) (I J : IfList φ) (e : IfEntry φ) : Prop :=
  ∀ {δ μ : Type} (fn : φ → δ → BitVec 64 → μ → ℤ × μ) pData arg m,
    udfIoctl fn (drvTbl magic J) (usrLib magic I e) pData arg m =
      ⟨(fn e.func pData arg m).1, (fn e.func pData arg m).2, [e.func]⟩

theorem works_iff {i : ℕ} (hi : i < I.entries.length) :
    Works magic I J I.entries[i] ↔ ∃ hj : i < J.entries.length, Same I.entries[i] J.entries[i] := by
  constructor
  · intro hw
    have hcalls := congrArg IoctlOut.calls (hw (fun _ _ _ _ => (0, ())) () 0 ())
    exact (calls_eq_iff magic _ hi () 0 ()).1 hcalls
  · intro hsame δ μ fn pData arg m
    have hcalls := (calls_eq_iff magic fn hi pData arg m).2 hsame
    rcases udfIoctl_usrLib magic (J := J) fn hi pData arg m with ⟨hj, -, h⟩ | ⟨-, h⟩
    · rw [h] at hcalls ⊢
      rw [(List.cons.inj hcalls).1]
    · rw [h] at hcalls
      cases hcalls

/-- **Which updates are compatible.** Every function of a library that was built from list I works on a driver that was
built from list J exactly when every line of I stands at the same place in J, with the same direction and, unless that
is N, where the opcode has no size, the same size. -/
theorem upgrade_iff (I J : IfList φ) : (∀ e ∈ I.entries, Works magic I J e) ↔
    ∀ i (hi : i < I.entries.length), ∃ hj : i < J.entries.length, Same I.entries[i] J.entries[i] := by
  constructor
  · intro h i hi
    exact (works_iff magic hi).1 (h _ (List.getElem_mem hi))
  · intro h e he
    obtain ⟨i, hi, rfl⟩ := List.getElem_of_mem he
    exact (works_iff magic hi).2 (h i hi)

/-- **New interfaces at the end.** The old library works on the new driver as on the old one. The new library works on
the old driver for the interfaces that it has, and is refused the others without a call. -/
theorem upgrade_end (hpre : I.entries <+: J.entries) :
    (∀ e ∈ I.entries, Works magic I J e ∧ Works magic J I e) ∧
    ∀ e ∈ J.entries, e ∉ I.entries → ∀ {δ μ : Type} (fn : φ → δ → BitVec 64 → μ → ℤ × μ) pData arg m,
      udfIoctl fn (drvTbl magic I) (usrLib magic J e) pData arg m = ⟨-enoioctlcmd, m, []⟩ := by
  have hget : ∀ i (hi : i < I.entries.length), ∃ hj : i < J.entries.length, J.entries[i] = I.entries[i] :=
    fun i hi => ⟨hi.trans_le hpre.length_le, (hpre.getElem hi).symm⟩
  refine ⟨?_, ?_⟩
  · intro e he
    obtain ⟨i, hi, rfl⟩ := List.getElem_of_mem he
    obtain ⟨hj, hsame⟩ := hget i hi
    refine ⟨(works_iff magic hi).2 ⟨hj, ?_⟩, ?_⟩
    · rw [hsame]
      exact ⟨rfl, rfl, rfl⟩
    · rw [← hsame]
      refine (works_iff magic hj).2 ⟨hi, ?_⟩
      rw [hsame]
      exact ⟨rfl, rfl, rfl⟩
  · intro e he hne δ μ fn pData arg m
    obtain ⟨j, hj, rfl⟩ := List.getElem_of_mem he
    have hout : ¬ j < I.entries.length := by
      intro hi
      obtain ⟨_, hsame⟩ := hget j hi
      exact hne (hsame ▸ List.getElem_mem hi)
    rcases udfIoctl_usrLib magic (J := I) fn hj pData arg m with ⟨hi, -⟩ | ⟨-, h⟩
    · exact absurd hi hout
    · exact h

end Upgrade

/-- `udf_get_mem_size` is the last line of `udf_dbh_ioctl_if.def`: a library without it works on the driver, and a
driver without it refuses it -/
theorem upgrade_end_memSize :
    Works 0x63#8 ⟨udfDbhIoctlIf.entries.dropLast, by decide, by decide⟩ udfDbhIoctlIf
      (udfDbhIoctlIf.entries.head (by decide)) ∧
    udfIoctl (fun _ _ _ n => (0, n + 1)) (drvTbl 0x63#8 ⟨udfDbhIoctlIf.entries.dropLast, by decide, by decide⟩)
      (usrLib 0x63#8 udfDbhIoctlIf (udfDbhIoctlIf.entries.getLast (by decide))) () 0 7 = ⟨-enoioctlcmd, 7, []⟩ := by
  obtain ⟨hworks, hrefused⟩ :=
    upgrade_end 0x63#8 (I := ⟨udfDbhIoctlIf.entries.dropLast, by decide, by decide⟩) (J := udfDbhIoctlIf)
      (List.dropLast_prefix _)
  refine ⟨(hworks _ (List.head_mem (by decide))).1, hrefused _ (List.getLast_mem _) ?_ _ _ _ _⟩
  intro hmem
  have hfunc := List.mem_map_of_mem (f := IfEntry.func) hmem
  revert hfunc
  decide

end LinuxDrv.Udf
