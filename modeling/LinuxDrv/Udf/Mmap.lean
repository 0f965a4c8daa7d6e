/-
`udf_mmap`: the window of a card in the memory of a process.

The length and the offset that the process asks for are compared with the size of the window in bytes, and the window
is mapped in page frames. An `unsigned long` has w bits here, and a page has 2^p bytes. `Vma` is what the kernel hands
to the driver: whole pages, and an offset that does not wrap together with their number. Its offset in bytes may wrap
all the same.
- `udfMmap_eq`: the check is made on the sum of both in bytes, modulo 2^w.
- `mmap_in_window_iff`: the frames that are mapped are frames of the card iff that sum does not wrap, or is refused.
-/
import LinuxDrv.Udf.Dev
import LinuxDrv.Driver.Hw

namespace LinuxDrv.Udf

open LinuxDrv.Core LinuxDrv.Driver

/-- the part of `struct vm_area_struct` that `udf_mmap` reads -/
structure Vma (w p : ℕ) where
  vmStart : BitVec w
  vmEnd : BitVec w
  vmPgoff : BitVec w
  start_lt_end : vmStart.toNat < vmEnd.toNat
  start_aligned : 2 ^ p ∣ vmStart.toNat
  end_aligned : 2 ^ p ∣ vmEnd.toNat
  pgoff_le : vmPgoff.toNat + (vmEnd.toNat - vmStart.toNat) / 2 ^ p < 2 ^ w

section Mmap

variable {w p : ℕ}

/-- `pdm_get_pfn` -/
def pdmGetPfn (w p : ℕ) (slot : ℤ) : BitVec w :=
  match checkSlot slot with
  | none => 0
  | some i => BitVec.ofNat w ((sCardAddr.get i).phyAddr >>> p)

/-- `pdm_get_addr_space_size` -/
def pdmGetAddrSpaceSize (w : ℕ) (slot : ℤ) : BitVec w :=
  match checkSlot slot with
  | none => 0
  | some i => BitVec.ofNat w (sCardAddr.get i).addrSpace

/-- `udf_mmap`: the first frame and the length that it hands to `remap_pfn_range`, if it comes to it -/
def udfMmap (slot : ℤ) (vma : Vma w p) : Except ℤ (BitVec w × BitVec w) :=
  let pfn := pdmGetPfn w p slot + vma.vmPgoff
  if (vma.vmPgoff <<< p) + vma.vmEnd - vma.vmStart > pdmGetAddrSpaceSize w slot then .error (-efault)
  else .ok (pfn, vma.vmEnd - vma.vmStart)

/-- the frames that `remap_pfn_range` maps -/
def remapPfnRange (p : ℕ) (pfn size : BitVec w) : List (BitVec w) :=
  (List.range (size.toNat / 2 ^ p)).map fun k => pfn + BitVec.ofNat w k

/-- the bytes that are asked for -/
def Vma.len (vma : Vma w p) : ℕ := vma.vmEnd.toNat - vma.vmStart.toNat

/-- where the bytes that are asked for end, in the window -/
def Vma.bytesEnd (vma : Vma w p) : ℕ := vma.vmPgoff.toNat * 2 ^ p + vma.len

/-- all frames that are mapped are frames of the card -/
def MapsWindow (slot : ℤ) (vma : Vma w p) : Prop :=
  ∀ pfn size, udfMmap slot vma = .ok (pfn, size) → ∀ f ∈ remapPfnRange p pfn size,
    (pdmGetPfn w p slot).toNat ≤ f.toNat ∧
    f.toNat < (pdmGetPfn w p slot).toNat + (pdmGetAddrSpaceSize w slot).toNat / 2 ^ p

/-! ## The check -/

theorem Vma.len_toNat (vma : Vma w p) : (vma.vmEnd - vma.vmStart).toNat = vma.len :=
  BitVec.toNat_sub_of_le (BitVec.le_def.2 vma.start_lt_end.le)

/-- whole pages, and at least one -/
theorem Vma.len_pages (vma : Vma w p) : vma.len = 2 ^ p * (vma.len / 2 ^ p) ∧ 0 < vma.len / 2 ^ p := by
  have hdvd : 2 ^ p ∣ vma.len := Nat.dvd_sub vma.end_aligned vma.start_aligned
  have hpos : 0 < vma.len := Nat.sub_pos_of_lt vma.start_lt_end
  exact ⟨(Nat.mul_div_cancel' hdvd).symm, Nat.div_pos (Nat.le_of_dvd hpos hdvd) (Nat.two_pow_pos p)⟩

/-- the sum of the check, modulo 2^w -/
theorem check_toNat (vma : Vma w p) :
    ((vma.vmPgoff <<< p) + vma.vmEnd - vma.vmStart).toNat = vma.bytesEnd % 2 ^ w := by
  calc ((vma.vmPgoff <<< p) + vma.vmEnd - vma.vmStart).toNat
      = ((vma.vmPgoff <<< p) + (vma.vmEnd - vma.vmStart)).toNat := by
        rw [BitVec.sub_eq_add_neg, BitVec.sub_eq_add_neg, BitVec.add_assoc]
    _ = (vma.vmPgoff.toNat * 2 ^ p % 2 ^ w + vma.len) % 2 ^ w := by
      rw [BitVec.toNat_add, BitVec.toNat_shiftLeft, Nat.shiftLeft_eq, vma.len_toNat]
    _ = vma.bytesEnd % 2 ^ w := Nat.mod_add_mod ..

theorem udfMmap_eq (slot : ℤ) (vma : Vma w p) :
    udfMmap slot vma = if (pdmGetAddrSpaceSize w slot).toNat < vma.bytesEnd % 2 ^ w then .error (-efault)
      else .ok (pdmGetPfn w p slot + vma.vmPgoff, vma.vmEnd - vma.vmStart) := by
  unfold udfMmap
  simp only [gt_iff_lt, BitVec.lt_def, check_toNat]

/-! ## The frames -/

/-- the window of a card does not wrap -/
theorem window_le (hw : 32 ≤ w) (slot : ℤ) :
    (pdmGetPfn w p slot).toNat + (pdmGetAddrSpaceSize w slot).toNat / 2 ^ p ≤ 2 ^ w := by
  have hpow : 2 ^ 32 ≤ 2 ^ w := Nat.pow_le_pow_right two_pos hw
  have hcard : ∀ i : SlotId, (sCardAddr.get i).phyAddr + (sCardAddr.get i).addrSpace < 2 ^ 32 := by decide
  unfold pdmGetPfn pdmGetAddrSpaceSize
  rcases checkSlot slot with _ | i
  · simp
  · have hi := hcard i
    have hpfn : (sCardAddr.get i).phyAddr >>> p ≤ (sCardAddr.get i).phyAddr := by
      rw [Nat.shiftRight_eq_div_pow]
      exact Nat.div_le_self _ _
    have hsize := Nat.div_le_self (sCardAddr.get i).addrSpace (2 ^ p)
    simp only [BitVec.toNat_ofNat]
    rw [Nat.mod_eq_of_lt (by omega), Nat.mod_eq_of_lt (by omega)]
    omega

/-- the frame `k` behind the first one of the card is a frame of the card iff k is below their number -/
theorem frame_iff (hw : 32 ≤ w) (slot : ℤ) {k : ℕ} (hk : k < 2 ^ w) :
    ((pdmGetPfn w p slot).toNat ≤ (pdmGetPfn w p slot + BitVec.ofNat w k).toNat ∧
      (pdmGetPfn w p slot + BitVec.ofNat w k).toNat <
        (pdmGetPfn w p slot).toNat + (pdmGetAddrSpaceSize w slot).toNat / 2 ^ p) ↔
    k < (pdmGetAddrSpaceSize w slot).toNat / 2 ^ p := by
  have hwin := window_le (p := p) hw slot
  have hpfn := (pdmGetPfn w p slot).isLt
  rw [BitVec.toNat_add, BitVec.toNat_ofNat, Nat.mod_eq_of_lt hk]
  generalize (pdmGetPfn w p slot).toNat = pfn at *
  generalize (pdmGetAddrSpaceSize w slot).toNat / 2 ^ p = n at *
  by_cases hwrap : pfn + k < 2 ^ w
  · rw [Nat.mod_eq_of_lt hwrap]
    omega
  · -- a frame that wraps is below the first one
    have hmod : (pfn + k) % 2 ^ w = pfn + k - 2 ^ w := by
      rw [Nat.mod_eq_sub_mod (by omega), Nat.mod_eq_of_lt (by omega)]
    rw [hmod]
    omega

/-- the frames of a mapping that passes the check are frames of the card iff its last byte is a byte of the window -/
theorem frames_iff (hw : 32 ≤ w) (slot : ℤ) (vma : Vma w p) :
    (∀ f ∈ remapPfnRange p (pdmGetPfn w p slot + vma.vmPgoff) (vma.vmEnd - vma.vmStart),
      (pdmGetPfn w p slot).toNat ≤ f.toNat ∧
      f.toNat < (pdmGetPfn w p slot).toNat + (pdmGetAddrSpaceSize w slot).toNat / 2 ^ p) ↔
    vma.bytesEnd ≤ (pdmGetAddrSpaceSize w slot).toNat := by
  obtain ⟨hlen, hpages⟩ := vma.len_pages
  have hpgoff : vma.vmPgoff.toNat + vma.len / 2 ^ p < 2 ^ w := vma.pgoff_le
  have hframe : ∀ k < vma.len / 2 ^ p, pdmGetPfn w p slot + vma.vmPgoff + BitVec.ofNat w k =
      pdmGetPfn w p slot + BitVec.ofNat w (vma.vmPgoff.toNat + k) := by
    intro k _
    rw [BitVec.add_assoc, BitVec.ofNat_add, BitVec.ofNat_toNat, BitVec.setWidth_eq]
  have hend : vma.bytesEnd ≤ (pdmGetAddrSpaceSize w slot).toNat ↔
      vma.vmPgoff.toNat + vma.len / 2 ^ p ≤ (pdmGetAddrSpaceSize w slot).toNat / 2 ^ p := by
    have hbytes : vma.bytesEnd = (vma.vmPgoff.toNat + vma.len / 2 ^ p) * 2 ^ p := by
      rw [Vma.bytesEnd, add_mul, mul_comm (vma.len / 2 ^ p), ← hlen]
    rw [hbytes, Nat.le_div_iff_mul_le (Nat.two_pow_pos p)]
  unfold remapPfnRange
  rw [hend, vma.len_toNat]
  simp only [List.forall_mem_map, List.mem_range]
  constructor
  · intro h
    have hlast := h (vma.len / 2 ^ p - 1) (by omega)
    rw [hframe _ (by omega), frame_iff hw slot (by omega)] at hlast
    omega
  · intro h k hk
    rw [hframe k hk, frame_iff hw slot (by omega)]
    omega

/-- **mmap stays on the card iff the offset in bytes does not wrap.** For `unsigned long`s of 32 bits or more, every
page size, every slot and every mapping that the kernel may ask for: all frames that `udf_mmap` maps are between
`pdm_get_pfn` of the slot and the end of its window iff the offset in bytes plus the length is below 2^w, or what is
left of it modulo 2^w is above the size of the window, so that nothing is mapped. -/
theorem mmap_in_window_iff (hw : 32 ≤ w) (slot : ℤ) (vma : Vma w p) :
    MapsWindow slot vma ↔
      vma.bytesEnd < 2 ^ w ∨ (pdmGetAddrSpaceSize w slot).toNat < vma.bytesEnd % 2 ^ w := by
  unfold MapsWindow
  rw [udfMmap_eq]
  split_ifs with hrefused
  · exact iff_of_true (fun pfn size h => by cases h) (Or.inr hrefused)
  · have hsize := (pdmGetAddrSpaceSize w slot).isLt
    rw [or_iff_left hrefused]
    calc (∀ pfn size, (Except.ok (pdmGetPfn w p slot + vma.vmPgoff, vma.vmEnd - vma.vmStart) : Except ℤ _) =
            .ok (pfn, size) → ∀ f ∈ remapPfnRange p pfn size, (pdmGetPfn w p slot).toNat ≤ f.toNat ∧
            f.toNat < (pdmGetPfn w p slot).toNat + (pdmGetAddrSpaceSize w slot).toNat / 2 ^ p)
        ↔ vma.bytesEnd ≤ (pdmGetAddrSpaceSize w slot).toNat := by
          rw [← frames_iff hw slot vma]
          refine ⟨fun h => h _ _ rfl, fun h pfn size heq => ?_⟩
          cases heq
          exact h
      _ ↔ vma.bytesEnd < 2 ^ w := by
          refine ⟨fun h => h.trans_lt hsize, fun h => ?_⟩
          rw [Nat.mod_eq_of_lt h] at hrefused
          exact not_lt.1 hrefused

end Mmap

/-- the whole window of slot 1 -/
def wholeWindow : Vma 32 12 :=
  ⟨0x40000000, 0x42000000, 0, by decide, by decide, by decide, by decide⟩

theorem mmap_whole_window : MapsWindow 1 wholeWindow ∧
    (udfMmap 1 wholeWindow).toOption = some (0xa0000, 0x2000000) :=
  ⟨(mmap_in_window_iff (by decide) 1 wholeWindow).2 (Or.inl (by decide)), by decide⟩

/-- an offset of 2^20 pages is 0 in bytes, modulo 2^32; so is one of 2^52 pages, modulo 2^64 -/
def farPage : Vma 32 12 :=
  ⟨0x40000000, 0x40001000, 0x100000, by decide, by decide, by decide, by decide⟩

def farPage64 : Vma 64 12 :=
  ⟨0x40000000, 0x40001000, 0x10000000000000, by decide, by decide, by decide, by decide⟩

/-- the page 2^20 pages behind the window of slot 1 is mapped -/
theorem mmap_far_page : (udfMmap 1 farPage).toOption = some (0x1a0000, 0x1000) ∧ ¬ MapsWindow 1 farPage ∧
    ¬ MapsWindow 1 farPage64 := by
  refine ⟨by decide, fun h => ?_, fun h => ?_⟩
  · exact absurd (h 0x1a0000 0x1000 rfl 0x1a0000 (by decide)).2 (by decide)
  · have hmapped : udfMmap 1 farPage64 = .ok (0x100000000a0000, 0x1000) := by
      rw [udfMmap_eq]
      exact if_neg (by decide +kernel)
    exact absurd (h _ _ hmapped 0x100000000a0000 (by decide +kernel)).2 (by decide +kernel)

end LinuxDrv.Udf
