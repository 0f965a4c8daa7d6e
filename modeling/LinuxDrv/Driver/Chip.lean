/-
Chips: structs of registers (`cpld_cmm_reg_def.h`, `fpga_cmm_reg_def.h`), and the macros that access them
(`MT_CHIP_...` of `reg_def_toolkit.h`).

A struct has words of 16 bits only, so the compiler puts each member right behind the one before it. A gap between two
registers is an array whose length is computed from their addresses; a comment gives the address of each register.

An access reads the word of a register, changes some of its bits and writes it back. A word is taken to hold what was
written to it last. For whoever uses the macros a chip is then a store of the values of its fields (`Fields`), where an
assignment changes one of them.
- `find_of_joined`: if the gaps fit the comments, every register is at the address of its comment.
- `chip_store`: any sequence of accesses does to the words what it does to the fields, with either byte order.
-/
import LinuxDrv.Driver.RegDef

namespace LinuxDrv.Driver

open LinuxDrv.Core

/-! ## Structs -/

section Structs

variable {κ ν : Type}

/-- a member of the struct of a chip -/
inductive Member (κ ν : Type) where
  /-- a register, with the address of its comment; `FPGA_REG_RW` has no fields -/
  | reg (addr : ℕ) (mem : κ) (bf : Option (RegDef ν))
  /-- `FPGA_REG_ADDR_GAP` and `CPLD_REG_ADDR_GAP` -/
  | gap (prev next : ℕ)

namespace Member

def name : Member κ ν → Option κ
  | .reg _ mem _ => some mem
  | .gap _ _ => none

/-- the length of an array is not negative -/
def Compiles : Member κ ν → Prop
  | .reg _ _ _ => True
  | .gap prev next => prev < next

instance : (m : Member κ ν) → Decidable m.Compiles
  | .reg _ _ _ => isTrue trivial
  | .gap prev next => inferInstanceAs (Decidable (prev < next))

/-- a register with fields, and its address -/
def regDef : Member κ ν → Option (ℕ × RegDef ν)
  | .reg addr _ bf => bf.map fun r => (addr, r)
  | .gap _ _ => none

/-- in words -/
def size : Member κ ν → ℕ
  | .reg _ _ _ => 1
  | .gap prev next => next - prev - 1

end Member

structure Chip (κ ν : Type) where
  members : List (Member κ ν)
  nodup : (members.filterMap Member.name).Nodup
  compiles : ∀ m ∈ members, m.Compiles

/-- the register `mem` of a struct that starts at `off`: where it is, and its fields -/
def findFrom [DecidableEq κ] (mem : κ) : ℕ → List (Member κ ν) → Option (ℕ × Option (RegDef ν))
  | _, [] => none
  | off, m :: ms =>
    match m with
    | .reg _ mem' bf => if mem' = mem then some (off, bf) else findFrom mem (off + m.size) ms
    | .gap _ _ => findFrom mem (off + m.size) ms

/-- `chip_addr->mem` -/
def Chip.find [DecidableEq κ] (c : Chip κ ν) (mem : κ) : Option (ℕ × Option (RegDef ν)) := findFrom mem 0 c.members

/-- `sizeof`, in words -/
def Chip.size (c : Chip κ ν) : ℕ := (c.members.map Member.size).sum

end Structs

/-! ## ChipAccess -/

section Access

variable {κ ν : Type} [DecidableEq κ] [DecidableEq ν]

/-- the words of a chip -/
abbrev Words := ℕ → BitVec 16

/-- `chip_addr->mem._bf.name` -/
def Chip.bits (e : ByteOrder) (c : Chip κ ν) (mem : κ) (name : ν) : Option (ℕ × Bits) := do
  let x ← c.find mem
  let r ← x.2
  let b ← r.bf e name
  some (x.1, b)

/-- `MT_CHIP_GET_BF` -/
def mtChipGetBf (e : ByteOrder) (c : Chip κ ν) (mem : κ) (name : ν) (h : Words) : Option ℕ := do
  let x ← c.find mem
  let r ← x.2
  mtChipRegGetBf e r name (h x.1)

/-- `MT_CHIP_ASS_BF` -/
def mtChipAssBf (e : ByteOrder) (c : Chip κ ν) (mem : κ) (name : ν) (val : ℤ) (h : Words) : Option Words := do
  let x ← c.find mem
  let r ← x.2
  let v ← mtChipRegAssBf e r name val (h x.1)
  some (Function.update h x.1 v)

/-- `MT_CHIP_RAW_REG_AND` and `MT_CHIP_RAW_REG_OR`: a register without fields has no `v` -/
def mtChipRawReg (op : BitVec 16 → BitVec 16 → BitVec 16) (c : Chip κ ν) (mem : κ) (mask : BitVec 16) (h : Words) :
    Option Words := do
  let x ← c.find mem
  let _ ← x.2
  some (Function.update h x.1 (op (h x.1) mask))

/-- an access that writes -/
inductive ChipAccess (κ ν : Type) where
  | assBf (mem : κ) (name : ν) (val : ℤ)
  | rawAnd (mem : κ) (mask : BitVec 16)
  | rawOr (mem : κ) (mask : BitVec 16)

namespace ChipAccess

def mem : ChipAccess κ ν → κ
  | .assBf mem _ _ | .rawAnd mem _ | .rawOr mem _ => mem

/-- `MT_CHIP_SET_BIT` -/
def setBit (mem : κ) (name : ν) : ChipAccess κ ν := .assBf mem name 1

/-- `MT_CHIP_CLR_BIT` -/
def clrBit (mem : κ) (name : ν) : ChipAccess κ ν := .assBf mem name 0

def exec (e : ByteOrder) (c : Chip κ ν) (h : Words) : ChipAccess κ ν → Option Words
  | .assBf mem name val => mtChipAssBf e c mem name val h
  | .rawAnd mem mask => mtChipRawReg (· &&& ·) c mem mask h
  | .rawOr mem mask => mtChipRawReg (· ||| ·) c mem mask h

/-- the register has fields, and one of the name if there is a name -/
def Compiles (c : Chip κ ν) : ChipAccess κ ν → Prop
  | .assBf mem name _ => (c.bits .big mem name).isSome = true
  | .rawAnd mem _ | .rawOr mem _ => ((c.find mem).bind Prod.snd).isSome = true

instance (c : Chip κ ν) : (a : ChipAccess κ ν) → Decidable (a.Compiles c)
  | .assBf _ _ _ | .rawAnd _ _ | .rawOr _ _ => inferInstanceAs (Decidable (_ = true))

end ChipAccess

/-- a sequence of accesses -/
def execAll (e : ByteOrder) (c : Chip κ ν) (h : Words) (as : List (ChipAccess κ ν)) : Option Words :=
  as.foldlM (ChipAccess.exec e c) h

/-! ## Fields -/

/-- the values of the fields of a chip -/
abbrev Fields (κ ν : Type) := κ → ν → ℕ

namespace Chip

/-- the part of a word that is the field; a name that no field has reads as 0 -/
def part (c : Chip κ ν) (mem : κ) (name : ν) (v : BitVec 16) : ℕ := ((c.bits .big mem name).map (·.2.get v)).getD 0

/-- the fields as they are in the words -/
def load (c : Chip κ ν) (h : Words) : Fields κ ν := fun mem name =>
  ((c.bits .big mem name).map fun b => b.2.get (h b.1)).getD 0

/-- how many bits the field has -/
def width (c : Chip κ ν) (mem : κ) (name : ν) : ℕ := ((c.bits .big mem name).map (·.2.width)).getD 0

/-- an access as a change of fields: one is assigned modulo its size, or all of a register are masked -/
def assign (c : Chip κ ν) (s : Fields κ ν) : ChipAccess κ ν → Fields κ ν
  | .assBf mem name val => fun m n => if m = mem ∧ n = name then (val % 2 ^ c.width mem name).toNat else s m n
  | .rawAnd mem mask => fun m n => if m = mem then s m n &&& c.part m n mask else s m n
  | .rawOr mem mask => fun m n => if m = mem then s m n ||| c.part m n mask else s m n

end Chip

/-! ## Placement -/

section Placement

variable {k k' : κ} {x y : ℕ × Option (RegDef ν)}

omit [DecidableEq ν] in
theorem findFrom_ge (ms : List (Member κ ν)) {off : ℕ} (h : findFrom k off ms = some x) : off ≤ x.1 := by
  induction ms generalizing off with
  | nil => cases h
  | cons m ms ih =>
    cases m with
    | reg addr mem bf =>
      rw [findFrom] at h
      split_ifs at h
      · cases h
        exact le_rfl
      · exact le_trans (Nat.le_add_right off _) (ih h)
    | gap prev next => exact le_trans (Nat.le_add_right off _) (ih h)

omit [DecidableEq ν] in
/-- two registers are at two places -/
theorem findFrom_inj (ms : List (Member κ ν)) {off : ℕ} (hx : findFrom k off ms = some x)
    (hy : findFrom k' off ms = some y) (hxy : x.1 = y.1) : k = k' := by
  induction ms generalizing off with
  | nil => cases hx
  | cons m ms ih =>
    cases m with
    | gap prev next => exact ih hx hy
    | reg addr mem bf =>
      rw [findFrom] at hx hy
      by_cases hk : mem = k <;> by_cases hk' : mem = k'
      · exact hk.symm.trans hk'
      · rw [if_pos hk] at hx
        rw [if_neg hk'] at hy
        cases hx
        have hlater := findFrom_ge ms hy
        rw [← hxy] at hlater
        exact absurd hlater (Nat.not_succ_le_self off)
      · rw [if_neg hk] at hx
        rw [if_pos hk'] at hy
        cases hy
        have hlater := findFrom_ge ms hx
        rw [hxy] at hlater
        exact absurd hlater (Nat.not_succ_le_self off)
      · rw [if_neg hk] at hx
        rw [if_neg hk'] at hy
        exact ih hx hy

omit [DecidableEq κ] [DecidableEq ν] in
/-- the members continue the address `a`: a register is at the address of its comment, a gap begins behind the last
address -/
def Joined : ℕ → List (Member κ ν) → Prop
  | _, [] => True
  | a, m :: ms =>
    match m with
    | .reg addr _ _ => addr = a ∧ Joined (a + 1) ms
    | .gap prev next => prev + 1 = a ∧ Joined next ms

omit [DecidableEq ν] in
theorem findFrom_of_joined (ms : List (Member κ ν)) {off : ℕ} (hj : Joined off ms) (hc : ∀ m ∈ ms, m.Compiles)
    (hnd : (ms.filterMap Member.name).Nodup) {addr : ℕ} {mem : κ} {bf : Option (RegDef ν)}
    (hm : Member.reg addr mem bf ∈ ms) : findFrom mem off ms = some (addr, bf) := by
  induction ms generalizing off with
  | nil => exact absurd hm List.not_mem_nil
  | cons m ms ih =>
    have hc' : ∀ m ∈ ms, m.Compiles := fun m' hm' => hc m' (List.mem_cons_of_mem m hm')
    cases m with
    | gap prev next =>
      obtain ⟨hprev, hj⟩ := hj
      have hlt : prev < next := hc _ List.mem_cons_self
      have hnext : off + (Member.gap prev next : Member κ ν).size = next := by
        rw [Member.size]
        omega
      rw [findFrom, hnext]
      exact ih hj hc' hnd ((List.mem_cons.1 hm).resolve_left (by simp))
    | reg addr' mem' bf' =>
      obtain ⟨haddr, hj⟩ := hj
      have hname : (Member.reg addr' mem' bf').name = some mem' := rfl
      rw [List.filterMap_cons_some hname, List.nodup_cons] at hnd
      rw [findFrom]
      rcases List.mem_cons.1 hm with he | hm
      · cases he
        rw [if_pos rfl, haddr]
      · have hne : mem' ≠ mem := fun he => hnd.1 (List.mem_filterMap.2 ⟨_, hm, by rw [he, Member.name]⟩)
        rw [if_neg hne]
        exact ih hj hc' hnd.2 hm

omit [DecidableEq ν] in
/-- **The gaps of a struct put its registers where the comments say.** -/
theorem Chip.find_of_joined (c : Chip κ ν) (hj : Joined 0 c.members) {addr : ℕ} {mem : κ} {bf : Option (RegDef ν)}
    (hm : Member.reg addr mem bf ∈ c.members) : c.find mem = some (addr, bf) :=
  findFrom_of_joined c.members hj c.compiles c.nodup hm

end Placement

/-! ## Bits -/

omit [DecidableEq κ] in
theorem bf_some {r : RegDef ν} {e : ByteOrder} {n : ν} {b : Bits} (h : r.bf e n = some b) :
    ∃ p ∈ r.bits, p.1.name = some n ∧ p.2 = b := by
  have hfind : ∃ ps : List (BitField ν × Bits), (∀ q ∈ ps, q ∈ r.bits) ∧
      ∃ p, (ps.find? fun q => decide (q.1.name = some n)) = some p ∧ p.2 = b := by
    cases e with
    | big =>
      simp only [RegDef.bf, r.layout_big, Option.bind_eq_bind, Option.bind_some, Option.bind_eq_some_iff,
        Option.some.injEq] at h
      exact ⟨r.bits, fun _ hq => hq, h⟩
    | little =>
      simp only [RegDef.bf, r.layout_little, Option.bind_eq_bind, Option.bind_some, Option.bind_eq_some_iff,
        Option.some.injEq] at h
      exact ⟨r.bits.reverse, fun _ hq => List.mem_reverse.1 hq, h⟩
  obtain ⟨ps, hps, p, hp, hb⟩ := hfind
  exact ⟨p, hps p (List.mem_of_find?_eq_some hp), by simpa using List.find?_some hp, hb⟩

omit [DecidableEq κ] in
/-- a name means the same bits with both byte orders, or nothing with both -/
theorem bf_same (r : RegDef ν) (e e' : ByteOrder) (n : ν) : r.bf e n = r.bf e' n := by
  have hsub : ∀ e e' b, r.bf e n = some b → r.bf e' n = some b := by
    intro e e' b h
    obtain ⟨p, hp, hn, rfl⟩ := bf_some h
    exact r.bf_eq e' hp hn
  exact Option.ext fun b => ⟨hsub e e' b, hsub e' e b⟩

theorem bf_le {r : RegDef ν} {e : ByteOrder} {n : ν} {b : Bits} (h : r.bf e n = some b) : b.lsb + b.width ≤ 16 := by
  obtain ⟨p, hp, -, rfl⟩ := bf_some h
  exact allocHigh_le r.sum.le hp

omit [DecidableEq κ] in
theorem bf_disjoint {r : RegDef ν} {e : ByteOrder} {n m : ν} {b b' : Bits} (h : r.bf e n = some b)
    (h' : r.bf e m = some b') (hnm : n ≠ m) : b.Disjoint b' := by
  obtain ⟨p, hp, hpn, rfl⟩ := bf_some h
  obtain ⟨q, hq, hqm, rfl⟩ := bf_some h'
  have hpq : p ≠ q := by
    rintro rfl
    exact hnm (Option.some.inj (hpn.symm.trans hqm))
  exact r.bits_disjoint.forall hp hq hpq

variable {c : Chip κ ν} {k k' : κ} {n n' : ν} {b b' : ℕ × Bits}

theorem bits_some {e : ByteOrder} (h : c.bits e k n = some b) :
    ∃ x r, c.find k = some x ∧ x.2 = some r ∧ x.1 = b.1 ∧ r.bf e n = some b.2 := by
  simp only [Chip.bits, Option.bind_eq_bind, Option.bind_eq_some_iff, Option.some.injEq] at h
  obtain ⟨x, hx, r, hr, b₂, hb, rfl⟩ := h
  exact ⟨x, r, hx, hr, rfl, hb⟩

theorem bits_same (c : Chip κ ν) (e e' : ByteOrder) (k : κ) (n : ν) : c.bits e k n = c.bits e' k n := by
  simp only [Chip.bits, bf_same _ e e' n]

/-- the fields of a register do not overlap, and those of two registers are at two places -/
theorem bits_apart {e : ByteOrder} (h : c.bits e k n = some b) (h' : c.bits e k' n' = some b') :
    (k = k' → b.1 = b'.1 ∧ (n ≠ n' → b.2.Disjoint b'.2)) ∧ (k ≠ k' → b.1 ≠ b'.1) := by
  obtain ⟨x, r, hx, hr, hxb, hb⟩ := bits_some h
  obtain ⟨y, r', hy, hr', hyb, hb'⟩ := bits_some h'
  refine ⟨?_, fun hk he => hk (findFrom_inj c.members hx hy (by rw [hxb, hyb, he]))⟩
  rintro rfl
  obtain rfl : x = y := Option.some.inj (hx.symm.trans hy)
  obtain rfl : r = r' := Option.some.inj (hr.symm.trans hr')
  exact ⟨hxb.symm.trans hyb, fun hn => bf_disjoint hb hb' hn⟩

theorem getBf_eq (e : ByteOrder) (c : Chip κ ν) (k : κ) (n : ν) (h : Words) :
    mtChipGetBf e c k n h = (c.bits .big k n).map fun b => b.2.get (h b.1) := by
  rw [bits_same c .big e]
  simp only [mtChipGetBf, Chip.bits, mtChipRegGetBf, Option.bind_eq_bind]
  rcases c.find k with _ | ⟨a, _ | r⟩
  · rfl
  · rfl
  · dsimp only [Option.bind_some]
    cases r.bf e n <;> rfl

theorem assBf_eq (e : ByteOrder) (c : Chip κ ν) (k : κ) (n : ν) (val : ℤ) (h : Words) :
    mtChipAssBf e c k n val h =
      (c.bits .big k n).map fun b => Function.update h b.1 (b.2.put val (h b.1)) := by
  rw [bits_same c .big e]
  simp only [mtChipAssBf, Chip.bits, mtChipRegAssBf, Option.bind_eq_bind]
  rcases c.find k with _ | ⟨a, _ | r⟩
  · rfl
  · rfl
  · dsimp only [Option.bind_some]
    cases r.bf e n <;> rfl

/-! ## Parts of a word -/

section Parts

variable {x : ℕ × Option (RegDef ν)}

theorem part_and (c : Chip κ ν) (k : κ) (n : ν) (v m : BitVec 16) :
    c.part k n (v &&& m) = c.part k n v &&& c.part k n m := by
  rw [Chip.part, Chip.part, Chip.part]
  rcases c.bits .big k n with _ | b
  · exact (Nat.and_self 0).symm
  · show b.2.get (v &&& m) = b.2.get v &&& b.2.get m
    rw [Bits.get, BitVec.extractLsb'_and, BitVec.toNat_and]
    rfl

theorem part_or (c : Chip κ ν) (k : κ) (n : ν) (v m : BitVec 16) :
    c.part k n (v ||| m) = c.part k n v ||| c.part k n m := by
  rw [Chip.part, Chip.part, Chip.part]
  rcases c.bits .big k n with _ | b
  · exact (Nat.or_self 0).symm
  · show b.2.get (v ||| m) = b.2.get v ||| b.2.get m
    rw [Bits.get, BitVec.extractLsb'_or, BitVec.toNat_or]
    rfl

/-- a field that is written reads modulo its size, the others as before -/
theorem part_put (hb : c.bits .big k n = some b) (val : ℤ) (v : BitVec 16) (n' : ν) :
    c.part k n' (b.2.put val v) = if n' = n then (val % 2 ^ c.width k n).toNat else c.part k n' v := by
  by_cases hn : n' = n
  · subst hn
    obtain ⟨x, r, -, -, -, hbf⟩ := bits_some hb
    have hself := Bits.get_put_self (v := v) (x := val) (bf_le hbf)
    rw [if_pos rfl, Chip.part, Chip.width, hb, Option.map_some, Option.map_some, Option.getD_some, Option.getD_some,
      ← hself, Int.toNat_natCast]
  · rw [if_neg hn, Chip.part, Chip.part]
    rcases hb' : c.bits .big k n' with _ | b'
    · rfl
    · exact Bits.get_put_of_disjoint (((bits_apart hb' hb).1 rfl).2 hn)

/-- the fields of a register are the parts of its word -/
theorem load_eq_part (h : Words) (hx : c.find k = some x) (n : ν) : c.load h k n = c.part k n (h x.1) := by
  rw [Chip.load, Chip.part]
  rcases hb : c.bits .big k n with _ | b
  · rfl
  · obtain ⟨y, r, hy, -, hyb, -⟩ := bits_some hb
    obtain rfl : x = y := Option.some.inj (hx.symm.trans hy)
    rw [hyb]
    rfl

/-- what the fields of a chip are after a write to the word of a register -/
theorem load_update (h : Words) (hx : c.find k = some x) (v : BitVec 16) (k' : κ) (n : ν) :
    c.load (Function.update h x.1 v) k' n = if k' = k then c.part k' n v else c.load h k' n := by
  by_cases hk : k' = k
  · subst hk
    rw [if_pos rfl, load_eq_part _ hx, Function.update_self]
  · rw [if_neg hk, Chip.load, Chip.load]
    rcases hb : c.bits .big k' n with _ | b
    · rfl
    · obtain ⟨y, r, hy, -, hyb, -⟩ := bits_some hb
      have hne : b.1 ≠ x.1 := fun he => hk (findFrom_inj c.members hy hx (hyb.trans he))
      rw [Option.map_some, Option.map_some, Function.update_of_ne hne]

end Parts

/-! ## Accesses -/

/-- what an access does to the words and to the fields -/
structure Accessed (c : Chip κ ν) (h h' : Words) (as : List (ChipAccess κ ν)) : Prop where
  fields : c.load h' = as.foldl c.assign (c.load h)
  /-- the words of other registers, and those behind the chip -/
  frame : ∀ i, (∀ a ∈ as, ∀ x, c.find a.mem = some x → x.1 ≠ i) → h' i = h i

omit [DecidableEq ν] in
theorem raw_refines (op : BitVec 16 → BitVec 16 → BitVec 16) (mask : BitVec 16) (h : Words)
    (hk : ((c.find k).bind Prod.snd).isSome = true) : ∃ x, c.find k = some x ∧
      mtChipRawReg op c k mask h = some (Function.update h x.1 (op (h x.1) mask)) := by
  obtain ⟨r, hr⟩ := Option.isSome_iff_exists.1 hk
  obtain ⟨x, hx, hxr⟩ := Option.bind_eq_some_iff.1 hr
  refine ⟨x, hx, ?_⟩
  rw [mtChipRawReg, hx]
  show (x.2 >>= fun _ => _) = _
  rw [hxr]
  rfl

/-- an access leaves the fields of other registers -/
theorem assign_other (c : Chip κ ν) (s : Fields κ ν) {a : ChipAccess κ ν} (hk : k ≠ a.mem) (n : ν) :
    c.assign s a k n = s k n := by
  cases a with
  | assBf mem name val => exact if_neg fun h => hk h.1
  | rawAnd | rawOr => exact if_neg hk

/-- a write to the word of a register does what an access says, if it does so in the register -/
theorem accessed_write (h : Words) {a : ChipAccess κ ν} {x : ℕ × Option (RegDef ν)} (hx : c.find a.mem = some x)
    {v : BitVec 16} (hv : ∀ n, c.part a.mem n v = c.assign (c.load h) a a.mem n) :
    Accessed c h (Function.update h x.1 v) [a] := by
  refine ⟨?_, fun i hi => Function.update_of_ne (hi a List.mem_cons_self x hx).symm _ _⟩
  funext m n
  show _ = c.assign (c.load h) a m n
  rw [load_update h hx]
  by_cases hm : m = a.mem
  · rw [if_pos hm, hm, hv]
  · rw [if_neg hm, assign_other c _ hm]

/-- **An access changes one word, and in it what it says.** -/
theorem exec_refines (c : Chip κ ν) (h : Words) {a : ChipAccess κ ν} (ha : a.Compiles c) :
    ∃ h', (∀ e, a.exec e c h = some h') ∧ Accessed c h h' [a] := by
  cases a with
  | assBf mem name val =>
    obtain ⟨b, hb⟩ := Option.isSome_iff_exists.1 ha
    obtain ⟨x, r, hx, -, hxb, -⟩ := bits_some hb
    refine ⟨Function.update h x.1 (b.2.put val (h x.1)), fun e => ?_, accessed_write h hx fun n => ?_⟩
    · rw [ChipAccess.exec, assBf_eq, hb, hxb, Option.map_some]
    · rw [ChipAccess.mem, part_put hb, ← load_eq_part h hx, Chip.assign]
      simp only [true_and]
  | rawAnd mem mask =>
    obtain ⟨x, hx, hexec⟩ := raw_refines (· &&& ·) mask h ha
    refine ⟨_, fun _ => hexec, accessed_write h hx fun n => ?_⟩
    rw [ChipAccess.mem, part_and, ← load_eq_part h hx, Chip.assign]
    exact (if_pos rfl).symm
  | rawOr mem mask =>
    obtain ⟨x, hx, hexec⟩ := raw_refines (· ||| ·) mask h ha
    refine ⟨_, fun _ => hexec, accessed_write h hx fun n => ?_⟩
    rw [ChipAccess.mem, part_or, ← load_eq_part h hx, Chip.assign]
    exact (if_pos rfl).symm

theorem execAll_refines (c : Chip κ ν) (as : List (ChipAccess κ ν)) (has : ∀ a ∈ as, a.Compiles c) (h : Words) :
    ∃ h', (∀ e, execAll e c h as = some h') ∧ Accessed c h h' as := by
  induction as generalizing h with
  | nil => exact ⟨h, fun _ => rfl, rfl, fun _ _ => rfl⟩
  | cons a as ih =>
    obtain ⟨u, hu, hau⟩ := exec_refines c h (has a List.mem_cons_self)
    obtain ⟨h', hh', hacc⟩ := ih (fun b hb => has b (List.mem_cons_of_mem a hb)) u
    refine ⟨h', fun e => ?_, ?_, fun i hi => ?_⟩
    · rw [execAll, List.foldlM_cons, hu e]
      exact hh' e
    · calc c.load h' = as.foldl c.assign (c.load u) := hacc.fields
        _ = (a :: as).foldl c.assign (c.load h) := by rw [hau.fields]; rfl
    · calc h' i = u i := hacc.frame i fun b hb => hi b (List.mem_cons_of_mem a hb)
        _ = h i := hau.frame i fun b hb => hi b (List.mem_cons.2 (Or.inl (List.mem_singleton.1 hb)))

/-- **A chip is a store of its fields.** In any sequence of accesses that compile, with either byte order, the words end
up the same, every field reads what the sequence makes of the fields, and no word changes but those of the registers
that are accessed. -/
theorem chip_store (c : Chip κ ν) (as : List (ChipAccess κ ν)) (has : ∀ a ∈ as, a.Compiles c) (h : Words) :
    ∃ h', (∀ e, execAll e c h as = some h') ∧ Accessed c h h' as ∧
      ∀ e k n, mtChipGetBf e c k n h' = (c.bits .big k n).map fun _ => as.foldl c.assign (c.load h) k n := by
  obtain ⟨h', hexec, hacc⟩ := execAll_refines c as has h
  refine ⟨h', hexec, hacc, fun e k n => ?_⟩
  rw [getBf_eq, ← hacc.fields, Chip.load]
  cases c.bits .big k n <;> rfl

end Access

/-! ## The chips of a card -/

/-- the members of `cpld_cmm_t` -/
inductive CpldMem where
  | codeSystem
  | codeBoard
  | version
  | testVersion
  | boardType
  | extBomType
  | pcbVersion
  | blankReg
  | id
  | clkEn
  | fpgaDone
  | fpgaProgH
  | fpgaProgL
  | fpgaLoader
deriving DecidableEq

/-- a register with the fields that `cpldCmmT` (`Driver/RegDef`) has at the address -/
def cpldReg (addr : ℕ) (mem : CpldMem) : Member CpldMem CpldField := .reg addr mem (cpldCmmT.lookup addr)

/-- `cpld_cmm_t` -/
def cpldCmm : Chip CpldMem CpldField where
  members :=
    [ cpldReg 0x00 .codeSystem
    , cpldReg 0x01 .codeBoard
    , cpldReg 0x02 .version
    , cpldReg 0x03 .testVersion
    , cpldReg 0x04 .boardType
    , cpldReg 0x05 .extBomType
    , cpldReg 0x06 .pcbVersion
    , cpldReg 0x07 .blankReg
    , cpldReg 0x08 .id
    , .gap 0x08 0x0F
    , cpldReg 0x0F .clkEn
    , cpldReg 0x10 .fpgaDone
    , cpldReg 0x11 .fpgaProgH
    , cpldReg 0x12 .fpgaProgL
    , cpldReg 0x13 .fpgaLoader ]
  nodup := by decide
  compiles := by decide

/-- the members of `fpga_cmm_t` -/
inductive FpgaMem where
  | softVer
  | chipCodeH
  | chipCodeL
  | releaseVer
  | blankReg
  | debugVer
  | hotReset
  | intMask
  | intState
deriving DecidableEq

/-- the names of the fields of `fpga_cmm_t` -/
inductive FpgaField where
  | hotReset
  | intMask
  | int
deriving DecidableEq

/-- `FPGA_REG_UNION` of a field of one bit -/
def fpgaBit (addr : ℕ) (mem : FpgaMem) (name : FpgaField) : Member FpgaMem FpgaField :=
  .reg addr mem (some ⟨[.unnamed 15 (by decide), .named name 1 Nat.one_pos], List.nodup_singleton name, rfl⟩)

/-- `fpga_cmm_t` -/
def fpgaCmm : Chip FpgaMem FpgaField where
  members :=
    [ .reg 0x00 .softVer none
    , .gap 0x00 0x02
    , .reg 0x02 .chipCodeH none
    , .reg 0x03 .chipCodeL none
    , .reg 0x04 .releaseVer none
    , .gap 0x04 0x06
    , .reg 0x06 .blankReg none
    , .gap 0x06 0x08
    , .reg 0x08 .debugVer none
    , .gap 0x08 0x10
    , fpgaBit 0x10 .hotReset .hotReset
    , .gap 0x10 0x20
    , fpgaBit 0x20 .intMask .intMask
    , fpgaBit 0x21 .intState .int
    , .gap 0x21 0x80
    , .gap 0x7F 0x100 ]
  nodup := by decide
  compiles := by decide

/-- the registers of both chips are at the addresses of their comments -/
theorem cpldCmm_find {addr : ℕ} {mem : CpldMem} {bf : Option (RegDef CpldField)}
    (hm : Member.reg addr mem bf ∈ cpldCmm.members) : cpldCmm.find mem = some (addr, bf) := by
  refine cpldCmm.find_of_joined ?_ hm
  simp [cpldCmm, cpldReg, Joined]

theorem fpgaCmm_find {addr : ℕ} {mem : FpgaMem} {bf : Option (RegDef FpgaField)}
    (hm : Member.reg addr mem bf ∈ fpgaCmm.members) : fpgaCmm.find mem = some (addr, bf) := by
  refine fpgaCmm.find_of_joined ?_ hm
  simp [fpgaCmm, fpgaBit, Joined]

/-- `char_cpld_cmm_aux` and `char_fpga_cmm_aux` -/
example : cpldCmm.size = 0x14 ∧ fpgaCmm.size = 0x100 := by decide

/-- the registers that `Driver/RegDef` gives with their addresses are those of the struct -/
theorem cpldCmm_regs : cpldCmm.members.filterMap Member.regDef = cpldCmmT := rfl

/-- the steps of the FPGA loader before the download, on a chip whose bits are all set -/
theorem chip_store_loader : ∃ h', (∀ e, execAll e cpldCmm (fun _ => 0xFFFF#16)
      [.clrBit .fpgaProgH .fpgaProgH, .setBit .fpgaProgL .fpgaProgL, .clrBit .clkEn .cclkEn] = some h') ∧
    (∀ e, mtChipGetBf e cpldCmm .fpgaProgH .fpgaProgH h' = some 0) ∧
    ∀ e, mtChipGetBf e cpldCmm .fpgaLoader .fpgaLoader h' = some 0xFF := by
  obtain ⟨h', hexec, -, hget⟩ := chip_store cpldCmm
    [.clrBit .fpgaProgH .fpgaProgH, .setBit .fpgaProgL .fpgaProgL, .clrBit .clkEn .cclkEn] (by decide)
    fun _ => 0xFFFF#16
  exact ⟨h', hexec, fun e => (hget e _ _).trans (by decide), fun e => (hget e _ _).trans (by decide)⟩

end LinuxDrv.Driver
