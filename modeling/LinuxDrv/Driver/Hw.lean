/-
`pdm_drv_hw.c`: reading and writing the registers of the cards by their physical addresses.

`s_card_addr` has a window for each slot. `pdm_raw_reg_read` and `pdm_raw_reg_write` go through the table, compute the
part of the window that is asked for, and copy it in units of two bytes. The bounds are signed 64-bit numbers, and j,
the counter of the inner loop, is an int. Both functions access the same places, one from the window to the buffer and
one the other way; `copies` has them in order. `size_t` has 64 bits here; with 32 bits no part is longer than 2^31, and
the loop runs as often.

A window that has a size is mapped, and its addresses are offsets (`loff_t`). Memory may be accessed at any offset, also
outside the buffer and outside the window.
- `goesOn_units`: how often the inner loop runs.
- `tmpLen_eq`: the part of the window that is computed is the part that was asked for.
- `raw_reg_in_bounds_iff`: the accesses are inside the buffer and inside the windows iff that part has an even length in
  every window.
-/
import LinuxDrv.Core.Memory

namespace LinuxDrv.Driver

open LinuxDrv.Core

/-! ## The table -/

/-- an entry of `s_card_addr` -/
structure CardAddr where
  phyAddr : ℕ
  addrSpace : ℕ
  /-- `vir_addr` is not NULL -/
  mapped : Bool
  mapped_of_pos : 0 < addrSpace → mapped = true
  le_loff : phyAddr + addrSpace ≤ 2 ^ 63

/-- the entry of `ETIN_SLOT_PDM` -/
def cardPdm : CardAddr := ⟨0, 0, false, by decide, by decide⟩

/-- the entry of `ETIN_SLOT_SELF` -/
def cardSelf : CardAddr := ⟨0xa0000000, 0x2000000, true, by decide, by decide⟩

/-- `s_card_addr`, after `pdm_ctor_hw` -/
def sCardAddr : List CardAddr := [cardPdm, cardSelf]

/-- the conversion to `loff_t` -/
def toLoff (x : ℤ) : ℤ := x.bmod (2 ^ 64)

/-! ## The copy loops -/

section Window

variable (w : CardAddr) (nBytes : ℕ) (pOff : ℤ)

def tmpStart : ℤ := max pOff w.phyAddr

def tmpEnd : ℤ := min (toLoff (nBytes - 1 + pOff)) (w.addrSpace - 1 + w.phyAddr)

/-- `tmpLen`, or 0 if `tmpEnd >= tmpStart` does not hold -/
def tmpLen : ℕ := (tmpEnd w nBytes pOff - tmpStart w pOff + 1).toNat

/-- the bytes of the window that are asked for -/
def overlap : ℕ := (min (pOff + nBytes) (w.phyAddr + w.addrSpace) - max pOff w.phyAddr).toNat

end Window

/-- `j < tmpLen`, where j is an int that wraps and is converted to a `size_t` of `size` bits -/
def goesOn (size len j : ℕ) : Prop := (j : ℤ).bmod (2 ^ 32) % 2 ^ size < len

/-- how often `for (j = 0; j < tmpLen; j += 2)` runs -/
def units (len : ℕ) : ℕ := (min len (2 ^ 31) + 1) / 2

/-- j goes on for `units` rounds; at 2^31 it becomes negative and is converted to 2^size - 2^31, and no part is longer
than that -/
theorem goesOn_units {size len : ℕ} (hsize : 32 ≤ size) (hlen : len + 2 ^ 31 ≤ 2 ^ size) :
    (∀ k < units len, goesOn size len (2 * k)) ∧ ¬ goesOn size len (2 * units len) := by
  have hwide : (2 : ℤ) ^ 32 ≤ 2 ^ size := pow_le_pow_right₀ (by decide) hsize
  have hlen' : (len : ℤ) + 2 ^ 31 ≤ 2 ^ size := by exact_mod_cast hlen
  -- below 2^31 neither the wrap nor the conversion does anything
  have hsmall : ∀ j : ℕ, j < 2 ^ 31 → (j : ℤ).bmod (2 ^ 32) % 2 ^ size = j := by
    intro j hj
    rw [Int.bmod_eq_of_le (by omega) (by omega), Int.emod_eq_of_lt (by omega) (by omega)]
  unfold goesOn units
  refine ⟨fun k hk => ?_, ?_⟩
  · rw [hsmall (2 * k) (by omega)]
    omega
  · by_cases hl : len < 2 ^ 31 - 1
    · rw [hsmall _ (by omega)]
      omega
    · have hunits : 2 * ((min len (2 ^ 31) + 1) / 2) = 2 ^ 31 := by omega
      have hwrap : ((2 ^ 31 : ℕ) : ℤ).bmod (2 ^ 32) = -2 ^ 31 := by decide
      rw [hunits, hwrap, ← Int.add_emod_right, Int.emod_eq_of_lt (by omega) (by omega)]
      omega

/-- two bytes are copied between the buffer and the window of a slot -/
structure Copy where
  slot : ℕ
  winOff : ℤ
  bufOff : ℤ
deriving DecidableEq

/-- the copies of the inner loop for the window of `slot` -/
def winCopies (w : CardAddr) (slot nBytes : ℕ) (pOff : ℤ) : List Copy :=
  (List.range (units (tmpLen w nBytes pOff))).map fun (j : ℕ) =>
    ⟨slot, tmpStart w pOff - w.phyAddr + 2 * j, tmpStart w pOff - pOff + 2 * j⟩

/-- the copies of both functions, in order -/
def copies (tbl : List CardAddr) (nBytes : ℕ) (pOff : ℤ) : List Copy :=
  tbl.zipIdx.flatMap fun x => winCopies x.1 x.2 nBytes pOff

/-- `memset(pBuf, 0xCCCC, nBytes)` -/
def memset (nBytes : ℕ) (pBuf : ℤ → UInt8) : ℤ → UInt8 := fun k => if 0 ≤ k ∧ k < nBytes then 0xCC else pBuf k

/-- `pdm_raw_reg_read`: the buffer after it -/
def pdmRawRegRead (tbl : List CardAddr) (regs : ℕ → ℤ → UInt8) (nBytes : ℕ) (pOff : ℤ) (pBuf : ℤ → UInt8) : ℤ → UInt8 :=
  (copies tbl nBytes pOff).foldl (fun b c => put2 (regs c.slot) c.winOff c.bufOff b) (memset nBytes pBuf)

/-- `pdm_raw_reg_write`: the registers after it -/
def pdmRawRegWrite (tbl : List CardAddr) (pBuf : ℤ → UInt8) (nBytes : ℕ) (pOff : ℤ) (regs : ℕ → ℤ → UInt8) :
    ℕ → ℤ → UInt8 :=
  (copies tbl nBytes pOff).foldl
    (fun r c => Function.update r c.slot (put2 pBuf c.bufOff c.winOff (r c.slot))) regs

/-- the copies of one window into the buffer are one loop -/
theorem winCopies_read (w : CardAddr) (slot nBytes : ℕ) (pOff : ℤ) (regs : ℕ → ℤ → UInt8) (pBuf : ℤ → UInt8) :
    (winCopies w slot nBytes pOff).foldl (fun b c => put2 (regs c.slot) c.winOff c.bufOff b) pBuf =
      copyUnits (regs slot) (tmpStart w pOff - w.phyAddr) (tmpStart w pOff - pOff) (units (tmpLen w nBytes pOff))
        pBuf := by
  rw [winCopies, List.foldl_map]
  rfl

/-- the copies of one window from the buffer are one loop over the registers of its slot -/
theorem winCopies_write (w : CardAddr) (slot nBytes : ℕ) (pOff : ℤ) (pBuf : ℤ → UInt8) (regs : ℕ → ℤ → UInt8) :
    (winCopies w slot nBytes pOff).foldl
      (fun r c => Function.update r c.slot (put2 pBuf c.bufOff c.winOff (r c.slot))) regs =
    Function.update regs slot (copyUnits pBuf (tmpStart w pOff - pOff) (tmpStart w pOff - w.phyAddr)
      (units (tmpLen w nBytes pOff)) (regs slot)) := by
  have hfold : ∀ (js : List ℕ) (r : ℕ → ℤ → UInt8) (s d : ℤ),
      (js.map fun (j : ℕ) => (⟨slot, d + 2 * j, s + 2 * j⟩ : Copy)).foldl
        (fun r c => Function.update r c.slot (put2 pBuf c.bufOff c.winOff (r c.slot))) r =
      Function.update r slot (js.foldl (fun b (j : ℕ) => put2 pBuf (s + 2 * j) (d + 2 * j) b) (r slot)) := by
    intro js
    induction js with
    | nil =>
      intro r s d
      exact (Function.update_eq_self slot r).symm
    | cons j js ih =>
      intro r s d
      rw [List.map_cons, List.foldl_cons, ih, List.foldl_cons, Function.update_self, Function.update_idem]
  rw [winCopies, hfold]
  rfl

/-! ## Accesses -/

inductive Access where
  | buf (off len : ℤ)
  | win (slot : ℕ) (off len : ℤ)
deriving DecidableEq

/-- the accesses of `pdm_raw_reg_read`: `memset` and the copies -/
def readAccesses (tbl : List CardAddr) (nBytes : ℕ) (pOff : ℤ) : List Access :=
  .buf 0 nBytes :: (copies tbl nBytes pOff).flatMap fun c => [.win c.slot c.winOff 2, .buf c.bufOff 2]

/-- the accesses of `pdm_raw_reg_write` -/
def writeAccesses (tbl : List CardAddr) (nBytes : ℕ) (pOff : ℤ) : List Access :=
  (copies tbl nBytes pOff).flatMap fun c => [.buf c.bufOff 2, .win c.slot c.winOff 2]

/-- the bytes are bytes of the buffer, or addresses inside a mapped window -/
def Access.InBounds (tbl : List CardAddr) (nBytes : ℕ) : Access → Prop
  | buf off len => 0 ≤ off ∧ off + len ≤ nBytes
  | win slot off len => ∃ w ∈ tbl[slot]?, w.mapped = true ∧ 0 ≤ off ∧ off + len ≤ w.addrSpace

instance (tbl : List CardAddr) (nBytes : ℕ) : (a : Access) → Decidable (a.InBounds tbl nBytes)
  | .buf off len => inferInstanceAs (Decidable (0 ≤ off ∧ off + len ≤ nBytes))
  | .win slot off len =>
    inferInstanceAs (Decidable (∃ w ∈ tbl[slot]?, w.mapped = true ∧ 0 ≤ off ∧ off + len ≤ w.addrSpace))

section Bounds

variable {w : CardAddr} {nBytes : ℕ} {pOff : ℤ}

/-- if the end of the buffer is an offset, the part that is computed is the part that is asked for; if it is not, the
addition wraps and nothing is copied -/
theorem tmpLen_eq (w : CardAddr) (h0 : 0 ≤ pOff) (hpOff : pOff < 2 ^ 63) (hn : nBytes < 2 ^ 64) :
    tmpLen w nBytes pOff = if pOff + nBytes ≤ 2 ^ 63 then overlap w nBytes pOff else 0 := by
  unfold tmpLen tmpEnd tmpStart overlap toLoff
  by_cases hend : pOff + nBytes ≤ 2 ^ 63
  · have hsum : ((nBytes : ℤ) - 1 + pOff).bmod (2 ^ 64) = nBytes - 1 + pOff := by
      rw [Int.bmod_eq_of_le] <;> omega
    rw [hsum, if_pos hend]
    omega
  · have hsum : ((nBytes : ℤ) - 1 + pOff).bmod (2 ^ 64) = nBytes - 1 + pOff - 2 ^ 64 := by
      rw [← Int.sub_bmod_right, Int.bmod_eq_of_le] <;> omega
    rw [hsum, if_neg hend]
    omega

/-- the part that is computed ends where the buffer ends or where the window ends -/
theorem tmpLen_ends (w : CardAddr) (h0 : 0 ≤ pOff) (hpOff : pOff < 2 ^ 63) (hn : nBytes < 2 ^ 64)
    (hpos : 0 < tmpLen w nBytes pOff) :
    tmpStart w pOff - pOff + tmpLen w nBytes pOff ≤ nBytes ∧
    tmpStart w pOff - w.phyAddr + tmpLen w nBytes pOff ≤ w.addrSpace ∧
    (tmpStart w pOff - pOff + tmpLen w nBytes pOff = nBytes ∨
      tmpStart w pOff - w.phyAddr + tmpLen w nBytes pOff = w.addrSpace) := by
  rw [tmpLen_eq w h0 hpOff hn] at hpos ⊢
  by_cases hend : pOff + nBytes ≤ 2 ^ 63
  · rw [if_pos hend] at hpos ⊢
    unfold tmpStart
    unfold overlap at hpos ⊢
    omega
  · rw [if_neg hend] at hpos
    omega

/-- a copy is inside the buffer and inside the window -/
def Copy.InBounds (w : CardAddr) (nBytes : ℕ) (c : Copy) : Prop :=
  (0 ≤ c.bufOff ∧ c.bufOff + 2 ≤ nBytes) ∧ w.mapped = true ∧ 0 ≤ c.winOff ∧ c.winOff + 2 ≤ w.addrSpace

/-- the copies of a window are in bounds iff their number of bytes is even, or so large that j stops them -/
theorem winCopies_inBounds_iff (w : CardAddr) (slot : ℕ) (h0 : 0 ≤ pOff) (hpOff : pOff < 2 ^ 63)
    (hn : nBytes < 2 ^ 64) : (∀ c ∈ winCopies w slot nBytes pOff, c.InBounds w nBytes) ↔
      2 ∣ tmpLen w nBytes pOff ∨ 2 ^ 31 < tmpLen w nBytes pOff := by
  have hstart : 0 ≤ tmpStart w pOff - pOff ∧ 0 ≤ tmpStart w pOff - w.phyAddr := by
    unfold tmpStart
    omega
  have hends := tmpLen_ends w h0 hpOff hn
  have hmap : 0 < tmpLen w nBytes pOff → w.mapped = true := by
    intro hpos
    have := (hends hpos).2.1
    exact w.mapped_of_pos (by omega)
  unfold winCopies
  simp only [List.forall_mem_map, List.mem_range, Copy.InBounds]
  generalize tmpLen w nBytes pOff = len at *
  constructor
  · intro hall
    by_contra hodd
    rw [not_or] at hodd
    have hpos : 0 < len := by omega
    -- the last unit has one byte of the part and one behind it
    have hlast := hall ((len + 1) / 2 - 1) (by unfold units; omega)
    obtain ⟨hb, hw, heq⟩ := hends hpos
    omega
  · intro hlen j hj
    have hpos : 0 < len := by
      unfold units at hj
      omega
    have hin : 2 * j + 2 ≤ len := by
      unfold units at hj
      omega
    obtain ⟨hb, hw, -⟩ := hends hpos
    exact ⟨⟨by omega, by omega⟩, hmap hpos, by omega, by omega⟩

theorem copies_inBounds_iff (tbl : List CardAddr) (h0 : 0 ≤ pOff) (hpOff : pOff < 2 ^ 63) (hn : nBytes < 2 ^ 64) :
    (∀ c ∈ copies tbl nBytes pOff, (Access.buf c.bufOff 2).InBounds tbl nBytes ∧
      (Access.win c.slot c.winOff 2).InBounds tbl nBytes) ↔
    ∀ w ∈ tbl, 2 ∣ tmpLen w nBytes pOff ∨ 2 ^ 31 < tmpLen w nBytes pOff := by
  have hslot : ∀ w slot, (w, slot) ∈ tbl.zipIdx → ∀ c ∈ winCopies w slot nBytes pOff,
      ((Access.buf c.bufOff 2).InBounds tbl nBytes ∧ (Access.win c.slot c.winOff 2).InBounds tbl nBytes ↔
        c.InBounds w nBytes) := by
    intro w slot hw c hc
    rw [List.mk_mem_zipIdx_iff_getElem?] at hw
    have hcs : c.slot = slot := by
      obtain ⟨j, -, rfl⟩ := List.mem_map.1 hc
      rfl
    simp only [Access.InBounds, Copy.InBounds, hcs, hw, Option.mem_def, Option.some.injEq, exists_eq_left']
  constructor
  · intro hall w hw
    obtain ⟨slot, hslot'⟩ := List.mem_iff_getElem?.1 hw
    have hzip := List.mk_mem_zipIdx_iff_getElem?.2 hslot'
    refine (winCopies_inBounds_iff w slot h0 hpOff hn).1 fun c hc => ?_
    exact (hslot w slot hzip c hc).1 (hall c (List.mem_flatMap.2 ⟨(w, slot), hzip, hc⟩))
  · intro heven c hc
    obtain ⟨⟨w, slot⟩, hzip, hc⟩ := List.mem_flatMap.1 hc
    have hw : w ∈ tbl := List.mem_of_getElem? (List.mk_mem_zipIdx_iff_getElem?.1 hzip)
    exact (hslot w slot hzip c hc).2 ((winCopies_inBounds_iff w slot h0 hpOff hn).2 (heven w hw) c hc)

end Bounds

/-- if the end of the buffer is an offset, every window has an even number of the bytes that are asked for, or more than
j can count, which only a `size_t` of 64 bits allows -/
def EvenOverlap (tbl : List CardAddr) (nBytes : ℕ) (pOff : ℤ) : Prop :=
  pOff + nBytes ≤ 2 ^ 63 → ∀ w ∈ tbl, 2 ∣ overlap w nBytes pOff ∨ 2 ^ 31 < overlap w nBytes pOff

/-- **Raw register access stays inside the buffer and the window iff no part has an odd length.** For every table, count
and offset, all accesses of `pdm_raw_reg_read`, and all of `pdm_raw_reg_write`, are to bytes of the buffer and to
addresses inside a mapped window iff the part of every window that is asked for has an even length (or one that the
counter of the loop cannot reach), or the offset behind the buffer is not an offset, so that nothing is copied. -/
theorem raw_reg_in_bounds_iff (tbl : List CardAddr) (nBytes : ℕ) (pOff : ℤ) (hn : nBytes < 2 ^ 64) (h0 : 0 ≤ pOff)
    (hpOff : pOff < 2 ^ 63) :
    ((∀ a ∈ readAccesses tbl nBytes pOff, a.InBounds tbl nBytes) ↔ EvenOverlap tbl nBytes pOff) ∧
    ((∀ a ∈ writeAccesses tbl nBytes pOff, a.InBounds tbl nBytes) ↔ EvenOverlap tbl nBytes pOff) := by
  have hcond : EvenOverlap tbl nBytes pOff ↔ ∀ w ∈ tbl, 2 ∣ tmpLen w nBytes pOff ∨ 2 ^ 31 < tmpLen w nBytes pOff := by
    simp only [EvenOverlap, tmpLen_eq _ h0 hpOff hn]
    by_cases hend : pOff + nBytes ≤ 2 ^ 63
    · simp only [hend, ↓reduceIte, true_imp_iff]
    · simp only [hend, ↓reduceIte, false_imp_iff, true_iff]
      exact fun w _ => Or.inl (dvd_zero 2)
  rw [hcond, ← copies_inBounds_iff tbl h0 hpOff hn]
  constructor
  · simp only [readAccesses, List.forall_mem_cons, List.forall_mem_flatMap, List.not_mem_nil, false_imp_iff,
      implies_true, and_true]
    have hmemset : (Access.buf 0 nBytes).InBounds tbl nBytes := ⟨le_refl 0, by omega⟩
    rw [and_iff_right hmemset]
    exact forall₂_congr fun c _ => and_comm
  · simp only [writeAccesses, List.forall_mem_cons, List.forall_mem_flatMap, List.not_mem_nil, false_imp_iff,
      implies_true, and_true]

/-- four bytes at the begin of the window of slot 1: the buffer is cleared, and two units are copied -/
theorem raw_reg_in_bounds_begin : (readAccesses sCardAddr 4 0xa0000000).length = 5 ∧
    ∀ a ∈ readAccesses sCardAddr 4 0xa0000000, a.InBounds sCardAddr 4 := by
  refine ⟨by decide, ((raw_reg_in_bounds_iff sCardAddr 4 0xa0000000 (by decide) (by decide) (by decide)).1).2 ?_⟩
  intro _ w hw
  left
  fin_cases hw <;> decide

/-- one byte is asked for at the begin of the window of slot 1: two are copied into the buffer, and a write takes two
from it. The last byte of the window: a byte behind the window is copied too, or written. -/
theorem raw_reg_odd :
    (∃ a ∈ readAccesses sCardAddr 1 0xa0000000, ¬ a.InBounds sCardAddr 1) ∧
    (∃ a ∈ writeAccesses sCardAddr 1 0xa0000000, ¬ a.InBounds sCardAddr 1) ∧
    (∃ a ∈ readAccesses sCardAddr 3 0xa1ffffff, a = .win 1 0x1ffffff 2 ∧ ¬ a.InBounds sCardAddr 3) ∧
    ∃ a ∈ writeAccesses sCardAddr 3 0xa1ffffff, a = .win 1 0x1ffffff 2 ∧ ¬ a.InBounds sCardAddr 3 := by
  refine ⟨⟨.buf 0 2, ?_, by decide⟩, ⟨.buf 0 2, ?_, by decide⟩, ⟨.win 1 0x1ffffff 2, ?_, rfl, by decide⟩,
    ⟨.win 1 0x1ffffff 2, ?_, rfl, by decide⟩⟩ <;> decide

end LinuxDrv.Driver
