/-
A write of the raw registers and a read of the same range (`pdm_raw_reg_write` and `pdm_raw_reg_read`), for any table of
windows.

A window is memory, and its address space is an interval of offsets. Both functions walk the table and copy the part of
each window that is asked for: `rawRegWrite_spec` and `rawRegRead_spec` say what every register and every byte of the
buffer holds afterwards, for windows that do not overlap.
- `HandedOn`: what the kernel promises of the ranges that it hands on to a driver.
- `bytes_eq`: then the inner loop copies the part of a window that is asked for; j can count it.
- `raw_reg_round_trip`: a read after a write gets the bytes that were written.
-/
import LinuxDrv.Driver.Hw

namespace LinuxDrv.Driver

open LinuxDrv.Core

/-- the address `p` is inside the window -/
def CardAddr.Has (w : CardAddr) (p : ℤ) : Prop := w.phyAddr ≤ p ∧ p < w.phyAddr + w.addrSpace

instance (w : CardAddr) (p : ℤ) : Decidable (w.Has p) := inferInstanceAs (Decidable (_ ∧ _))

/-- the window begins and ends at even addresses -/
def CardAddr.Even (w : CardAddr) : Prop := 2 ∣ w.phyAddr ∧ 2 ∣ w.addrSpace

/-- no address is inside two windows -/
def Apart (tbl : List CardAddr) : Prop := tbl.Pairwise fun v w => ∀ p, ¬ (v.Has p ∧ w.Has p)

/-- what the kernel promises of a read or a write that it hands on to a driver: the offsets of the range are offsets
(`loff_t`), and there is a limit on the count (`MAX_RW_COUNT`, which is `INT_MAX` cut to pages) -/
structure HandedOn (nBytes : ℕ) (pOff : ℤ) : Prop where
  nonneg : 0 ≤ pOff
  end_lt : pOff + nBytes < 2 ^ 63
  count_le : nBytes ≤ 0x7fffffff

/-! ## One window -/

section Window

variable {w : CardAddr} {nBytes : ℕ} {pOff : ℤ}

/-- the bytes of the window that are copied -/
def bytes (w : CardAddr) (nBytes : ℕ) (pOff : ℤ) : ℕ := 2 * units (tmpLen w nBytes pOff)

/-- the byte at address `p` of the window is copied -/
def Copied (w : CardAddr) (nBytes : ℕ) (pOff p : ℤ) : Prop :=
  tmpStart w pOff ≤ p ∧ p < tmpStart w pOff + bytes w nBytes pOff

instance (w : CardAddr) (nBytes : ℕ) (pOff p : ℤ) : Decidable (Copied w nBytes pOff p) :=
  inferInstanceAs (Decidable (_ ∧ _))

theorem overlap_even (hw : w.Even) (hn : 2 ∣ nBytes) (hp : 2 ∣ pOff) : 2 ∣ overlap w nBytes pOff := by
  obtain ⟨hphy, hspace⟩ := hw
  unfold overlap
  omega

theorem bytes_eq (hw : w.Even) (hn : 2 ∣ nBytes) (hp : 2 ∣ pOff) (h : HandedOn nBytes pOff) :
    bytes w nBytes pOff = overlap w nBytes pOff := by
  have heven := overlap_even hw hn hp
  have hend := h.end_lt
  have hcount := h.count_le
  have h0 := h.nonneg
  have hlen : overlap w nBytes pOff ≤ nBytes := by
    unfold overlap
    omega
  unfold bytes units
  rw [tmpLen_eq w h0 (by omega) (by omega), if_pos hend.le]
  omega

/-- the bytes that are copied are the ones that are asked for -/
theorem copied_iff (hw : w.Even) (hn : 2 ∣ nBytes) (hp : 2 ∣ pOff) (h : HandedOn nBytes pOff) (p : ℤ) :
    Copied w nBytes pOff p ↔ w.Has p ∧ pOff ≤ p ∧ p < pOff + nBytes := by
  unfold Copied CardAddr.Has
  rw [bytes_eq hw hn hp h]
  unfold tmpStart overlap
  omega

end Window

/-! ## The loops over the table -/

section Table

variable {nBytes : ℕ} {pOff : ℤ}

/-- what the buffer holds after the windows of `ws`: a byte that one of them has is its register, the others are as
they were -/
theorem read_foldl (regs : ℕ → ℤ → UInt8) (ws : List (CardAddr × ℕ))
    (hapart : ws.Pairwise fun x y => ∀ p, ¬ (Copied x.1 nBytes pOff p ∧ Copied y.1 nBytes pOff p)) :
    ∀ (b : ℤ → UInt8) (k : ℤ),
      let b' := (ws.flatMap fun x => winCopies x.1 x.2 nBytes pOff).foldl
        (fun b c => put2 (regs c.slot) c.winOff c.bufOff b) b
      (∀ x ∈ ws, Copied x.1 nBytes pOff (pOff + k) → b' k = regs x.2 (pOff + k - x.1.phyAddr)) ∧
      ((∀ x ∈ ws, ¬ Copied x.1 nBytes pOff (pOff + k)) → b' k = b k) := by
  induction ws with
  | nil => exact fun b k => ⟨fun x hx => absurd hx List.not_mem_nil, fun _ => rfl⟩
  | cons x ws ih =>
    intro b k
    obtain ⟨hx, hws⟩ := List.pairwise_cons.1 hapart
    rw [List.flatMap_cons, List.foldl_append, winCopies_read]
    obtain ⟨hin, hout⟩ := ih hws (copyUnits (regs x.2) (tmpStart x.1 pOff - x.1.phyAddr) (tmpStart x.1 pOff - pOff)
      (units (tmpLen x.1 nBytes pOff)) b) k
    have hfirst : (tmpStart x.1 pOff - pOff ≤ k ∧ k < tmpStart x.1 pOff - pOff + 2 * units (tmpLen x.1 nBytes pOff)) ↔
        Copied x.1 nBytes pOff (pOff + k) := by
      unfold Copied bytes
      push_cast
      omega
    rw [copyUnits_apply] at hout
    refine ⟨fun y hy hc => ?_, fun hno => ?_⟩
    · rcases List.mem_cons.1 hy with rfl | hy
      · -- no window after it has the byte
        rw [hout fun z hz hz' => hx z hz _ ⟨hc, hz'⟩, if_pos (hfirst.2 hc)]
        congr 1
        ring
      · exact hin y hy hc
    · rw [hout fun z hz => hno z (List.mem_cons_of_mem x hz), if_neg fun h => hno x List.mem_cons_self (hfirst.1 h)]

/-- what the registers hold after the windows of `ws`, which are of different slots -/
theorem write_foldl (pBuf : ℤ → UInt8) (ws : List (CardAddr × ℕ)) (hslots : ws.Pairwise fun x y => x.2 ≠ y.2) :
    ∀ regs : ℕ → ℤ → UInt8,
      let regs' := (ws.flatMap fun x => winCopies x.1 x.2 nBytes pOff).foldl
        (fun r c => Function.update r c.slot (put2 pBuf c.bufOff c.winOff (r c.slot))) regs
      (∀ x ∈ ws, ∀ off, regs' x.2 off = if Copied x.1 nBytes pOff (x.1.phyAddr + off)
        then pBuf (x.1.phyAddr + off - pOff) else regs x.2 off) ∧
      ∀ slot, (∀ x ∈ ws, x.2 ≠ slot) → regs' slot = regs slot := by
  induction ws with
  | nil => exact fun regs => ⟨fun x hx => absurd hx List.not_mem_nil, fun _ _ => rfl⟩
  | cons x ws ih =>
    intro regs
    obtain ⟨hx, hws⟩ := List.pairwise_cons.1 hslots
    rw [List.flatMap_cons, List.foldl_append, winCopies_write]
    obtain ⟨hin, hout⟩ := ih hws (Function.update regs x.2 (copyUnits pBuf (tmpStart x.1 pOff - pOff)
      (tmpStart x.1 pOff - x.1.phyAddr) (units (tmpLen x.1 nBytes pOff)) (regs x.2)))
    refine ⟨fun y hy off => ?_, fun slot hslot => ?_⟩
    · rcases List.mem_cons.1 hy with rfl | hy
      · have hcopied : (tmpStart y.1 pOff - y.1.phyAddr ≤ off ∧
            off < tmpStart y.1 pOff - y.1.phyAddr + 2 * units (tmpLen y.1 nBytes pOff)) ↔
            Copied y.1 nBytes pOff (y.1.phyAddr + off) := by
          unfold Copied bytes
          push_cast
          omega
        rw [hout y.2 fun z hz => (hx z hz).symm, Function.update_self, copyUnits_apply]
        simp only [hcopied]
        split_ifs
        · congr 1
          ring
        · rfl
      · rw [hin y hy off, Function.update_of_ne (hx y hy).symm]
    · rw [hout slot fun z hz => hslot z (List.mem_cons_of_mem x hz),
        Function.update_of_ne (hslot x List.mem_cons_self).symm]

variable {tbl : List CardAddr}

/-- the byte `k` of the buffer after `pdm_raw_reg_read` -/
theorem rawRegRead_spec (hapart : tbl.Pairwise fun v w => ∀ p, ¬ (Copied v nBytes pOff p ∧ Copied w nBytes pOff p))
    (regs : ℕ → ℤ → UInt8) (pBuf : ℤ → UInt8) (k : ℤ) :
    (∀ slot w, tbl[slot]? = some w → Copied w nBytes pOff (pOff + k) →
      pdmRawRegRead tbl regs nBytes pOff pBuf k = regs slot (pOff + k - w.phyAddr)) ∧
    ((∀ w ∈ tbl, ¬ Copied w nBytes pOff (pOff + k)) →
      pdmRawRegRead tbl regs nBytes pOff pBuf k = memset nBytes pBuf k) := by
  have hzip : tbl.zipIdx.Pairwise fun x y => ∀ p, ¬ (Copied x.1 nBytes pOff p ∧ Copied y.1 nBytes pOff p) := by
    rw [← List.zipIdx_map_fst 0 tbl, List.pairwise_map] at hapart
    exact hapart
  obtain ⟨hin, hout⟩ := read_foldl regs tbl.zipIdx hzip (memset nBytes pBuf) k
  refine ⟨fun slot w hw hc => hin (w, slot) (List.mk_mem_zipIdx_iff_getElem?.2 hw) hc, fun hno => ?_⟩
  exact hout fun x hx => hno x.1 (List.mem_of_getElem? (List.mk_mem_zipIdx_iff_getElem?.1 hx))

/-- the registers of a window after `pdm_raw_reg_write` -/
theorem rawRegWrite_spec {slot : ℕ} {w : CardAddr} (hw : tbl[slot]? = some w) (pBuf : ℤ → UInt8)
    (regs : ℕ → ℤ → UInt8) (off : ℤ) : pdmRawRegWrite tbl pBuf nBytes pOff regs slot off =
      if Copied w nBytes pOff (w.phyAddr + off) then pBuf (w.phyAddr + off - pOff) else regs slot off := by
  have hzip : tbl.zipIdx.Pairwise fun x y => x.2 ≠ y.2 := by
    have hnodup : (tbl.zipIdx.map Prod.snd).Nodup := by
      rw [List.zipIdx_map_snd]
      exact List.nodup_range'
    exact List.pairwise_map.1 hnodup
  exact (write_foldl pBuf tbl.zipIdx hzip regs).1 (w, slot) (List.mk_mem_zipIdx_iff_getElem?.2 hw) off

end Table

/-! ## The round trip -/

/-- a read of n bytes after a write of n bytes gets the bytes that are inside a window, and 0xCC for the others, and the
write leaves the registers outside of its range -/
def RoundTrip (tbl : List CardAddr) (nBytes : ℕ) (pOff : ℤ) : Prop :=
  ∀ (regs : ℕ → ℤ → UInt8) (b pBuf : ℤ → UInt8),
    let regs' := pdmRawRegWrite tbl b nBytes pOff regs
    (∀ k : ℤ, 0 ≤ k → k < nBytes → pdmRawRegRead tbl regs' nBytes pOff pBuf k =
      if ∃ w ∈ tbl, w.Has (pOff + k) then b k else 0xCC) ∧
    ∀ slot w, tbl[slot]? = some w → ∀ off, w.Has (w.phyAddr + off) →
      ¬ (pOff ≤ w.phyAddr + off ∧ w.phyAddr + off < pOff + nBytes) → regs' slot off = regs slot off

/-- **What was written is read back.** For every table of windows that do not overlap, with even begins and sizes, every
even offset and every even count, in a range that the kernel hands on: for all registers and buffers, a read after a
write of the same range gets the bytes inside windows and 0xCC for the others, and the write leaves the rest of the
windows. -/
theorem raw_reg_round_trip (tbl : List CardAddr) (nBytes : ℕ) (pOff : ℤ) (hapart : Apart tbl)
    (heven : ∀ w ∈ tbl, w.Even) (hn : 2 ∣ nBytes) (hp : 2 ∣ pOff) (h : HandedOn nBytes pOff) :
    RoundTrip tbl nBytes pOff := by
  have hcopied : ∀ w ∈ tbl, ∀ p, Copied w nBytes pOff p ↔ w.Has p ∧ pOff ≤ p ∧ p < pOff + nBytes :=
    fun w hw => copied_iff (heven w hw) hn hp h
  have hpair : tbl.Pairwise fun v w => ∀ p, ¬ (Copied v nBytes pOff p ∧ Copied w nBytes pOff p) := by
    refine hapart.imp_of_mem fun {v w} hv hw hvw p hboth => hvw p ?_
    exact ⟨((hcopied v hv p).1 hboth.1).1, ((hcopied w hw p).1 hboth.2).1⟩
  intro regs b pBuf
  refine ⟨fun k hk0 hk => ?_, fun slot w hw off _ hout => ?_⟩
  · obtain ⟨hin, hout⟩ := rawRegRead_spec hpair (pdmRawRegWrite tbl b nBytes pOff regs) pBuf k
    by_cases hw : ∃ w ∈ tbl, w.Has (pOff + k)
    · rw [if_pos hw]
      obtain ⟨w, hmem, hhas⟩ := hw
      obtain ⟨slot, hslot⟩ := List.mem_iff_getElem?.1 hmem
      have hc : Copied w nBytes pOff (pOff + k) := (hcopied w hmem _).2 ⟨hhas, by omega, by omega⟩
      have haddr : (w.phyAddr : ℤ) + (pOff + k - w.phyAddr) = pOff + k := by ring
      calc pdmRawRegRead tbl (pdmRawRegWrite tbl b nBytes pOff regs) nBytes pOff pBuf k
          = pdmRawRegWrite tbl b nBytes pOff regs slot (pOff + k - w.phyAddr) := hin slot w hslot hc
        _ = b (pOff + k - pOff) := by rw [rawRegWrite_spec hslot, haddr, if_pos hc]
        _ = b k := by rw [add_sub_cancel_left]
    · rw [if_neg hw, hout fun w hmem hc => hw ⟨w, hmem, ((hcopied w hmem _).1 hc).1⟩]
      exact if_pos ⟨hk0, hk⟩
  · rw [rawRegWrite_spec hw, if_neg]
    intro hc
    exact hout ((hcopied w (List.mem_of_getElem? hw) _).1 hc).2

/-- the windows of `s_card_addr` do not overlap -/
theorem sCardAddr_apart : Apart sCardAddr := by
  refine List.pairwise_cons.2 ⟨fun w _ p hboth => ?_, List.pairwise_singleton _ _⟩
  have hpdm : (cardPdm.phyAddr : ℤ) + cardPdm.addrSpace = 0 := rfl
  have hlo : (cardPdm.phyAddr : ℤ) ≤ p := hboth.1.1
  have hhi := hboth.1.2
  have hphy : (cardPdm.phyAddr : ℤ) = 0 := rfl
  omega

/-- the table of the source: a range that begins before the window of slot 1 and ends inside -/
theorem raw_reg_round_trip_begin : RoundTrip sCardAddr 8 0x9ffffffc ∧ overlap cardSelf 8 0x9ffffffc = 4 := by
  have heven : ∀ w ∈ sCardAddr, w.Even := by
    intro w hw
    fin_cases hw <;> exact ⟨by decide, by decide⟩
  have hrange : HandedOn 8 0x9ffffffc := ⟨by decide, by decide, by decide⟩
  exact ⟨raw_reg_round_trip sCardAddr 8 0x9ffffffc sCardAddr_apart heven (by decide) (by decide) hrange, by decide⟩

end LinuxDrv.Driver
