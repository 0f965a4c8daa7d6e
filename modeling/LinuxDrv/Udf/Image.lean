/-
Loading an image file into the FPGA (`udf_download_fpga_encap` in `udf_dth_uif.c`).

The file is read into memory of its size with one `read`, and the memory is handed over with that size. A `read` may
give fewer bytes than it is asked for; what is behind them is what `malloc` left there. The size goes through a field
of 32 bits.
- `encap_refines`: the call comes to the registers iff the one of `Udf.Lib` comes to its mapping.
- `image_exact_iff`: the FPGA gets the file or nothing iff `read` gives the whole file and the file is below 4 GiB.
-/
import LinuxDrv.Udf.Fpga
import LinuxDrv.Udf.Lib
import Mathlib.Data.List.GetD

namespace LinuxDrv.Udf.Image

/-- the file, and what the system answers when it is read -/
structure ImageFile where
  content : List (BitVec 8)
  sys : FileEnv
  /-- `read` gives no more than it is asked for -/
  read_le : sys.readRet ≤ content.length

/-- `st_size` -/
def ImageFile.stSize (f : ImageFile) : ℕ := f.content.length

section Encap

variable (f : ImageFile) (heap : ℤ → BitVec 8) (env : FpgaEnv)

/-- the memory after `read`; heap is what `malloc` left there -/
def ImageFile.buf (k : ℤ) : BitVec 8 :=
  if 0 ≤ k ∧ k < f.sys.readRet then f.content.getD k.toNat 0 else heap k

/-- `udf_download_fpga_encap` -/
def udfDownloadFpgaEncap (c : Cpld) : ℤ × Cpld :=
  if f.sys.openRet < 0 then (f.sys.openRet, c)
  else if f.sys.fstatRet < 0 then (f.sys.fstatRet, c)
  else if f.sys.malloc = false then (-1, c)
  else if f.sys.readRet < 0 then (f.sys.readRet, c)
  else udfDownloadFpgaImp env (f.buf heap) (BitVec.ofNat 32 f.stSize) c

end Encap

/-- the bytes that were written to `FPGA_LOADER` -/
def loaderBytes (tr : List CpldEv) : List ℕ :=
  (fieldWrites tr).filterMap fun w => if w.1 = fpgaLoader then some w.2 else none

/-- nothing is written and the call fails, or the file is written -/
def FileOrNothing (content : List (BitVec 8)) (x : ℤ × Cpld) : Prop :=
  (loaderBytes x.2.trace = [] ∧ x.1 < 0) ∨ loaderBytes x.2.trace = content.map BitVec.toNat

section Calls

variable {f : ImageFile} {heap : ℤ → BitVec 8} {env : FpgaEnv}

/-- a call that does not come to the registers fails -/
theorem encap_fails (heap : ℤ → BitVec 8) (env : FpgaEnv) (h : ¬ f.sys.Loads) (c : Cpld) :
    (udfDownloadFpgaEncap f heap env c).1 < 0 ∧ (udfDownloadFpgaEncap f heap env c).2 = c := by
  unfold udfDownloadFpgaEncap
  split_ifs with hopen hstat hmalloc hread
  · exact ⟨hopen, rfl⟩
  · exact ⟨hstat, rfl⟩
  · exact ⟨by dsimp only; decide, rfl⟩
  · exact ⟨hread, rfl⟩
  · exact absurd ⟨not_lt.1 hopen, not_lt.1 hstat, Bool.eq_true_of_not_eq_false hmalloc, not_lt.1 hread⟩ h

theorem encap_loads (h : f.sys.Loads) (c : Cpld) :
    udfDownloadFpgaEncap f heap env c = udfDownloadFpgaImp env (f.buf heap) (BitVec.ofNat 32 f.stSize) c := by
  obtain ⟨hopen, hstat, hmalloc, hread⟩ := h
  unfold udfDownloadFpgaEncap
  rw [if_neg (not_lt.2 hopen), if_neg (not_lt.2 hstat), if_neg (by rw [hmalloc]; decide), if_neg (not_lt.2 hread)]

/-- the registers are reached iff the model of the handles comes to a mapping -/
theorem encap_refines (rep : Fd) (s : LibSt) (c : Cpld) :
    (Udf.udfDownloadFpgaEncap rep f.sys s = .ok none → (udfDownloadFpgaEncap f heap env c).2 = c) ∧
    (Udf.udfDownloadFpgaEncap rep f.sys s ≠ .ok none →
      udfDownloadFpgaEncap f heap env c = udfDownloadFpgaImp env (f.buf heap) (BitVec.ofNat 32 f.stSize) c) := by
  unfold Udf.udfDownloadFpgaEncap
  by_cases h : f.sys.Loads
  · rw [if_pos h]
    refine ⟨fun hnone => ?_, fun _ => encap_loads h c⟩
    rcases hd : udfDownloadFpga s with e | a
    · rw [hd] at hnone
      cases hnone
    · rw [hd] at hnone
      cases hnone
  · rw [if_neg h]
    exact ⟨fun _ => (encap_fails heap env h c).2, fun hne => absurd rfl hne⟩

/-- the bytes that the FPGA gets, unless it is done before -/
theorem loaderBytes_imp (env : FpgaEnv) (mem : ℤ → BitVec 8) (nBytes : BitVec 32) (reg : CpldReg → BitVec 16) :
    loaderBytes (udfDownloadFpgaImp env mem nBytes (.start reg)).2.trace =
      if isDone (env.done 0) then [] else (List.range nBytes.toNat).map fun k : ℕ => (mem k).toNat := by
  have hH : fpgaProgH ≠ fpgaLoader := by decide
  have hL : fpgaProgL ≠ fpgaLoader := by decide
  have hC : clkEn ≠ fpgaLoader := by decide
  rw [loaderBytes, (imp_sequence env mem nBytes reg).1.writes]
  by_cases hdone : isDone (env.done 0) = true
  · simp [hdone, hH, hL]
  · simp [hdone, hH, hL, hC, List.filterMap_map]

/-- an FPGA that is not done at first, and done at the first poll -/
def doneAtFirst : FpgaEnv := ⟨fun k => if k = 0 then 0 else 1, fun _ => 0⟩

/-- a file that comes to the registers is written unless the FPGA is done, if it is read whole and the size is not cut -/
theorem fileOrNothing_of_whole (heap : ℤ → BitVec 8) (env : FpgaEnv) (reg : CpldReg → BitVec 16) (hloads : f.sys.Loads)
    (hread : f.sys.readRet = f.content.length) (hlt : f.content.length < 2 ^ 32) :
    FileOrNothing f.content (udfDownloadFpgaEncap f heap env (.start reg)) := by
  have hsize : (BitVec.ofNat 32 f.stSize).toNat = f.content.length := by
    calc (BitVec.ofNat 32 f.stSize).toNat = f.content.length % 2 ^ 32 := BitVec.toNat_ofNat ..
      _ = f.content.length := Nat.mod_eq_of_lt hlt
  rw [encap_loads hloads]
  obtain ⟨hseq, -⟩ := imp_sequence env (f.buf heap) (BitVec.ofNat 32 f.stSize) reg
  unfold FileOrNothing
  rw [loaderBytes_imp, hsize]
  by_cases hdone : isDone (env.done 0) = true
  · refine Or.inl ⟨if_pos hdone, ?_⟩
    rcases hseq.ret_or with hret | hret
    · exact absurd hdone (by rw [(hseq.ret_eq_zero.1 hret).1]; exact Bool.false_ne_true)
    · rw [hret]
      decide
  · refine Or.inr ?_
    rw [if_neg hdone]
    apply List.ext_getElem
    · rw [List.length_map, List.length_map, List.length_range]
    · intro i hi hi'
      have hilt : i < f.content.length := by rwa [List.length_map] at hi'
      rw [List.getElem_map, List.getElem_map, List.getElem_range, ImageFile.buf, hread,
        if_pos ⟨Int.natCast_nonneg i, Int.ofNat_lt.2 hilt⟩, Int.toNat_natCast, List.getD_eq_getElem _ _ hilt]

/-- if the FPGA, not done at first, gets the file from memory that had no byte as it is in the file, all of the file was
read, and its size was not cut -/
theorem whole_of_fileOrNothing (hloads : f.sys.Loads)
    (h : FileOrNothing f.content
      (udfDownloadFpgaEncap f (fun k => ~~~ f.content.getD k.toNat 0) doneAtFirst (.start fun _ => 0))) :
    f.sys.readRet = f.content.length ∧ f.content.length < 2 ^ 32 := by
  rw [encap_loads hloads] at h
  obtain ⟨hseq, -⟩ := imp_sequence doneAtFirst (f.buf fun k => ~~~ f.content.getD k.toNat 0)
    (BitVec.ofNat 32 f.stSize) fun _ => 0
  have hret := hseq.ret_eq_zero.2 ⟨by decide, 1, le_refl 1, by decide, by decide⟩
  rcases h with ⟨-, hneg⟩ | hbytes
  · exact absurd hneg (not_lt.2 hret.ge)
  rw [loaderBytes_imp, if_neg (by decide)] at hbytes
  have hlen := congrArg List.length hbytes
  rw [List.length_map, List.length_map, List.length_range] at hlen
  have hlt : f.content.length < 2 ^ 32 := hlen ▸ BitVec.isLt _
  refine ⟨le_antisymm f.read_le (not_lt.1 fun hshort => ?_), hlt⟩
  -- the first byte that was not read
  obtain ⟨r, hr⟩ := Int.eq_ofNat_of_zero_le hloads.2.2.2
  rw [hr] at hshort
  have hrlt : r < f.content.length := Int.ofNat_lt.1 hshort
  have hbyte := List.getElem_of_eq hbytes (i := r) (by rw [List.length_map, List.length_range, hlen]; exact hrlt)
  rw [List.getElem_map, List.getElem_map, List.getElem_range] at hbyte
  have hsame := BitVec.eq_of_toNat_eq hbyte
  rw [ImageFile.buf, if_neg fun hk => lt_irrefl _ (hr ▸ hk.2), Int.toNat_natCast,
    List.getD_eq_getElem _ _ hrlt] at hsame
  have hbit := congrArg (fun v => v.getLsbD 0) hsame
  simp at hbit

end Calls

/-- **The FPGA gets the file or nothing iff the file is read whole and is below 4 GiB.** For every file and all
answers of `open`, `fstat`, `malloc` and `read`: whatever `malloc` leaves in the memory, whatever the registers hold
and whenever the FPGA is done, the bytes that are written to `FPGA_LOADER` are none, and the call fails, or they are
the file, iff a call that comes to the registers has read as many bytes as the file has, and these are less than 2^32.
-/
theorem image_exact_iff (f : ImageFile) :
    (∀ heap env reg, FileOrNothing f.content (udfDownloadFpgaEncap f heap env (.start reg))) ↔
      (f.sys.Loads → f.sys.readRet = f.content.length ∧ f.content.length < 2 ^ 32) := by
  constructor
  · intro h hloads
    exact whole_of_fileOrNothing hloads (h _ _ _)
  · intro h heap env reg
    by_cases hloads : f.sys.Loads
    · obtain ⟨hread, hlt⟩ := h hloads
      exact fileOrNothing_of_whole heap env reg hloads hread hlt
    · obtain ⟨hneg, hsame⟩ := encap_fails heap env hloads (.start reg)
      refine Or.inl ⟨?_, hneg⟩
      rw [hsame]
      rfl

/-- a file of two bytes, of which `read` gives the first: the FPGA gets a byte that is not in the file -/
theorem image_short_read :
    let f : ImageFile := ⟨[1, 2], ⟨5, 0, true, 1⟩, by decide⟩
    loaderBytes (udfDownloadFpgaEncap f (fun _ => 0) doneAtFirst (.start fun _ => 0)).2.trace = [1, 0] ∧
      ¬ ∀ heap env reg, FileOrNothing f.content (udfDownloadFpgaEncap f heap env (.start reg)) := by
  intro f
  have hbytes : loaderBytes (udfDownloadFpgaEncap f (fun _ => 0) doneAtFirst (.start fun _ => 0)).2.trace = [1, 0] :=
    loaderBytes_imp doneAtFirst (f.buf fun _ => 0) 2 fun _ => 0
  refine ⟨hbytes, fun h => ?_⟩
  rcases h (fun _ => 0) doneAtFirst fun _ => 0 with ⟨hnone, -⟩ | hfile
  · rw [hbytes] at hnone
    cases hnone
  · rw [hbytes] at hfile
    exact absurd hfile (by decide)

end LinuxDrv.Udf.Image
