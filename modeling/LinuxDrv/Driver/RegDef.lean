/-
The macros that define and access registers with bit-fields (`reg_def_toolkit.h`).

A register is a union of a 16-bit value and a struct of bit-fields. C leaves to the implementation from which end the
fields of a struct are allocated: from the least significant bit on little-endian targets, from the most significant
one on big-endian targets. So `MT_REG_BF_DEF` writes the fields down in the given order on the latter, and in the
reverse order on the former. The macros that walk over the fields exist for 1 to 16 of them; `none` is a definition or
an access that does not compile.

A field has one bit at least: `: 0` is no field in C, it ends the unit of allocation.
- `mtVaForEach_eq`: the recursive macros give the list, or its reverse.
- `RegDef.length_le`: sixteen levels suffice for every register of 16 bits.
- `regDef_same`: the fields are at the same bits with both byte orders, and an assignment changes its field only.
-/
import LinuxDrv.Core.BitField

namespace LinuxDrv.Driver

open LinuxDrv.Core

/-! ## Macros -/

section Macros

variable {β : Type}

/-- `PP_RSEQ_N`: 63, ..., 0 -/
def ppRseqN : List ℕ := (List.range 64).reverse

/-- `PP_ARG_N`: the argument after 63 others; an argument that is no number is `none` -/
def ppArgN (args : List (Option ℕ)) : Option ℕ := args[63]?.join

/-- `PP_NARG` of one argument at least -/
def ppNarg (args : List β) : Option ℕ := ppArgN (args.map (fun _ => none) ++ ppRseqN.map some)

/-- `FW` and `BW` -/
inductive Fbw where
  | fw
  | bw

/-- `MT_VA_FW` and `MT_VA_BW`, on lists of what the delimiter separates -/
def mtVa : Fbw → List β → List β → List β
  | .fw, x, y => x ++ y
  | .bw, x, y => y ++ x

/-- `MT_VA_FOR_EACH_n` -/
def mtVaForEach (fbw : Fbw) : ℕ → List β → Option (List β)
  | 1, x :: _ => some [x]
  | n + 2, x :: args => mtVa fbw [x] <$> mtVaForEach fbw (n + 1) args
  | _, _ => none

/-- `MT_VA_FW_FOR_EACH` and `MT_VA_BW_FOR_EACH`; there are 16 macros that they choose from -/
def mtVaFbwForEach (fbw : Fbw) (args : List β) : Option (List β) := do
  let n ← ppNarg args
  if n ≤ 16 then mtVaForEach fbw n args else none

end Macros

/-! ## Registers -/

/-- `__BYTE_ORDER` -/
inductive ByteOrder where
  | little
  | big
deriving DecidableEq

/-- a bit-field, with or without a name -/
structure BitField (ν : Type) where
  name : Option ν
  width : ℕ
  pos : 0 < width
deriving DecidableEq

variable {ν : Type}

/-- `name : width` -/
def BitField.named (name : ν) (width : ℕ) (pos : 0 < width) : BitField ν := ⟨some name, width, pos⟩

/-- `: width` -/
def BitField.unnamed (width : ℕ) (pos : 0 < width) : BitField ν := ⟨none, width, pos⟩

/-- `MT_REG_BF_DEF`: the fields in the order of their declarations -/
def mtRegBfDef (e : ByteOrder) (fields : List (BitField ν)) : Option (List (BitField ν)) :=
  match e with
  | .little => mtVaFbwForEach .bw fields
  | .big => mtVaFbwForEach .fw fields

/-- the fields of `MT_REG_BF_DEF` with their bits, in the order of their declarations -/
def layout (e : ByteOrder) (fields : List (BitField ν)) : Option (List (BitField ν × Bits)) := do
  let decls ← mtRegBfDef e fields
  match e with
  | .little => some (allocLow BitField.width 0 decls)
  | .big => some (allocHigh BitField.width 16 decls)

/-- the definition of a register: its fields fill 16 bits, and no name is used twice -/
structure RegDef (ν : Type) where
  fields : List (BitField ν)
  nodup : (fields.filterMap BitField.name).Nodup
  sum : widthSum BitField.width fields = 16

section Access

variable [DecidableEq ν]

/-- the bits of `_bf.name` -/
def RegDef.bf (r : RegDef ν) (e : ByteOrder) (name : ν) : Option Bits := do
  let decls ← layout e r.fields
  let p ← decls.find? fun p => decide (p.1.name = some name)
  some p.2

/-- `MT_CHIP_REG_GET_BF` -/
def mtChipRegGetBf (e : ByteOrder) (r : RegDef ν) (name : ν) (v : BitVec 16) : Option ℕ := do
  let b ← r.bf e name
  some (b.get v)

/-- `MT_CHIP_REG_ASS_BF`: the value that is written to the register -/
def mtChipRegAssBf (e : ByteOrder) (r : RegDef ν) (name : ν) (val : ℤ) (v : BitVec 16) : Option (BitVec 16) := do
  let b ← r.bf e name
  some (b.put val v)

end Access

/-! ## The registers of a CPLD -/

/-- the names of the fields of `cpld_cmm_t` -/
inductive CpldField where
  | cpldCodeSystem
  | cpldCodeBoard
  | cpldVersion
  | testVersion
  | boardType
  | boardExtType
  | bomType
  | pcbVersion
  | blankReg
  | systemId
  | slotId
  | cclkEn
  | fpgaDone
  | fpgaProgH
  | fpgaProgL
  | fpgaLoader
deriving DecidableEq

/-- `CPLD_REG_RW_UNION`: the registers have 8 bits, and lie in the low half of 16 -/
def cpldRegRwUnion (fields : List (BitField CpldField)) : List (BitField CpldField) := .unnamed 8 (by decide) :: fields

/-- the register `id` -/
def cpldId : RegDef CpldField where
  fields := cpldRegRwUnion [.named .systemId 2 (by decide), .unnamed 1 (by decide), .named .slotId 5 (by decide)]
  nodup := by decide
  sum := rfl

/-- the registers of `cpld_cmm_t` by their addresses -/
def cpldCmmT : List (ℕ × RegDef CpldField) :=
  [ (0x00, ⟨cpldRegRwUnion [.named .cpldCodeSystem 8 (by decide)], by decide, rfl⟩)
  , (0x01, ⟨cpldRegRwUnion [.named .cpldCodeBoard 8 (by decide)], by decide, rfl⟩)
  , (0x02, ⟨cpldRegRwUnion [.named .cpldVersion 8 (by decide)], by decide, rfl⟩)
  , (0x03, ⟨cpldRegRwUnion [.named .testVersion 8 (by decide)], by decide, rfl⟩)
  , (0x04, ⟨cpldRegRwUnion [.named .boardType 8 (by decide)], by decide, rfl⟩)
  , (0x05, ⟨cpldRegRwUnion [.named .boardExtType 4 (by decide), .named .bomType 4 (by decide)], by decide, rfl⟩)
  , (0x06, ⟨cpldRegRwUnion [.unnamed 4 (by decide), .named .pcbVersion 4 (by decide)], by decide, rfl⟩)
  , (0x07, ⟨cpldRegRwUnion [.named .blankReg 8 (by decide)], by decide, rfl⟩)
  , (0x08, cpldId)
  , (0x0F, ⟨cpldRegRwUnion [.unnamed 7 (by decide), .named .cclkEn 1 (by decide)], by decide, rfl⟩)
  , (0x10, ⟨cpldRegRwUnion [.unnamed 7 (by decide), .named .fpgaDone 1 (by decide)], by decide, rfl⟩)
  , (0x11, ⟨cpldRegRwUnion [.unnamed 7 (by decide), .named .fpgaProgH 1 (by decide)], by decide, rfl⟩)
  , (0x12, ⟨cpldRegRwUnion [.unnamed 7 (by decide), .named .fpgaProgL 1 (by decide)], by decide, rfl⟩)
  , (0x13, ⟨cpldRegRwUnion [.named .fpgaLoader 8 (by decide)], by decide, rfl⟩) ]

/-! ## The macros walk over the fields -/

section Walk

variable {β : Type}

theorem ppNarg_eq {args : List β} (h : args.length ≤ 63) : ppNarg args = some args.length := by
  have hseq : ∀ k, k ≤ 63 → (ppRseqN.map some)[63 - k]? = some (some k) := by decide
  rw [ppNarg, ppArgN, List.getElem?_append_right (by simpa using h), List.length_map, hseq _ h]
  rfl

theorem mtVaForEach_eq (fbw : Fbw) {args : List β} (hne : args ≠ []) : mtVaForEach fbw args.length args =
    some (match fbw with | .fw => args | .bw => args.reverse) := by
  induction args with
  | nil => exact absurd rfl hne
  | cons x args ih =>
    rcases args with _ | ⟨y, ys⟩
    · cases fbw <;> rfl
    · have hrest := ih (List.cons_ne_nil y ys)
      simp only [List.length_cons] at hrest ⊢
      rw [mtVaForEach, hrest]
      cases fbw <;> simp [mtVa]

theorem mtVaFbwForEach_eq (fbw : Fbw) {args : List β} (hne : args ≠ []) (hlen : args.length ≤ 16) :
    mtVaFbwForEach fbw args = some (match fbw with | .fw => args | .bw => args.reverse) := by
  rw [mtVaFbwForEach, ppNarg_eq (by omega)]
  exact (if_pos hlen).trans (mtVaForEach_eq fbw hne)

end Walk

/-- entries that the filter maps to different values are found by their values -/
theorem eq_of_filterMap_nodup {α β : Type} {f : α → Option β} {xs : List α} (hnd : (xs.filterMap f).Nodup) {p q : α}
    (hp : p ∈ xs) (hq : q ∈ xs) {n : β} (hpn : f p = some n) (hqn : f q = some n) : p = q := by
  induction xs with
  | nil => exact absurd hp List.not_mem_nil
  | cons o xs ih =>
    -- an entry that comes later has another value than the first one
    have hlater : ∀ q ∈ xs, f o = some n → f q ≠ some n := by
      intro q hq ho hqn
      rw [List.filterMap_cons_some ho] at hnd
      exact (List.nodup_cons.1 hnd).1 (List.mem_filterMap.2 ⟨q, hq, hqn⟩)
    rcases List.mem_cons.1 hp with rfl | hp'
    · rcases List.mem_cons.1 hq with rfl | hq'
      · rfl
      · exact absurd hqn (hlater q hq' hpn)
    · rcases List.mem_cons.1 hq with rfl | hq'
      · exact absurd hpn (hlater p hp' hqn)
      · refine ih ?_ hp' hq'
        rcases ho : f o with _ | m
        · rwa [List.filterMap_cons_none ho] at hnd
        · rw [List.filterMap_cons_some ho] at hnd
          exact (List.nodup_cons.1 hnd).2

namespace RegDef

variable (r : RegDef ν)

theorem length_le_widthSum (fields : List (BitField ν)) : fields.length ≤ widthSum BitField.width fields := by
  induction fields with
  | nil => exact le_rfl
  | cons f fields ih =>
    have hpos := f.pos
    rw [widthSum_cons, List.length_cons]
    omega

/-- sixteen levels of the macros suffice -/
theorem length_le : r.fields.length ≤ 16 := r.sum ▸ length_le_widthSum r.fields

theorem fields_ne_nil : r.fields ≠ [] := by
  intro hnil
  have hsum := r.sum
  rw [hnil] at hsum
  exact absurd hsum (Nat.zero_ne_add_one 15)

/-- the fields with their bits, in the order of the definition -/
def bits : List (BitField ν × Bits) := allocHigh BitField.width 16 r.fields

theorem layout_big : layout .big r.fields = some r.bits := by
  rw [layout, mtRegBfDef, mtVaFbwForEach_eq .fw r.fields_ne_nil r.length_le]
  rfl

theorem layout_little : layout .little r.fields = some r.bits.reverse := by
  have hrev : allocLow BitField.width 0 r.fields.reverse =
      (allocHigh BitField.width (0 + widthSum BitField.width r.fields) r.fields).reverse := allocLow_reverse r.fields 0
  rw [r.sum] at hrev
  rw [layout, mtRegBfDef, mtVaFbwForEach_eq .bw r.fields_ne_nil r.length_le]
  exact congrArg some hrev

/-- a field, by its name -/
theorem eq_of_name {n : ν} {p q : BitField ν × Bits} (hp : p ∈ r.bits) (hq : q ∈ r.bits) (hpn : p.1.name = some n)
    (hqn : q.1.name = some n) : p = q := by
  have hnd : (r.bits.filterMap fun p => p.1.name).Nodup := by
    have hnames := r.nodup
    rw [← allocHigh_fst r.fields 16, List.filterMap_map] at hnames
    exact hnames
  exact eq_of_filterMap_nodup hnd hp hq hpn hqn

theorem bits_disjoint : r.bits.Pairwise fun p q => p.2.Disjoint q.2 :=
  (allocHigh_pairwise r.sum.le).imp Bits.Above.disjoint

/-- a field of the definition has bits -/
theorem exists_bits {f : BitField ν} (hf : f ∈ r.fields) : ∃ p ∈ r.bits, p.1 = f := by
  rw [← allocHigh_fst r.fields 16] at hf
  exact List.mem_map.1 hf

section Access

variable [DecidableEq ν]

theorem find_eq {n : ν} {p : BitField ν × Bits} (hp : p ∈ r.bits) (hpn : p.1.name = some n)
    {ps : List (BitField ν × Bits)} (hps : ∀ q, q ∈ ps ↔ q ∈ r.bits) :
    (ps.find? fun q => decide (q.1.name = some n)) = some p := by
  rcases hf : ps.find? fun q => decide (q.1.name = some n) with _ | q
  · exact absurd hpn (by simpa using List.find?_eq_none.1 hf p ((hps p).2 hp))
  · have hq := (hps q).1 (List.mem_of_find?_eq_some hf)
    have hqn : q.1.name = some n := by simpa using List.find?_some hf
    exact hf.trans (congrArg some (r.eq_of_name hq hp hqn hpn))

/-- with either byte order, a name means the same bits -/
theorem bf_eq (e : ByteOrder) {n : ν} {p : BitField ν × Bits} (hp : p ∈ r.bits) (hpn : p.1.name = some n) :
    r.bf e n = some p.2 := by
  cases e with
  | big => simp only [bf, layout_big, Option.bind_eq_bind, Option.bind_some, r.find_eq hp hpn fun _ => Iff.rfl]
  | little =>
    simp only [bf, layout_little, Option.bind_eq_bind, Option.bind_some, r.find_eq hp hpn fun _ => List.mem_reverse]

end Access

end RegDef

/-! ## Both byte orders -/

/-- the register r has the bits `ps`: the fields go down from the highest bit, with either byte order -/
structure LaidOut (r : RegDef ν) (ps : List (BitField ν × Bits)) : Prop where
  big : layout .big r.fields = some ps
  little : layout .little r.fields = some ps.reverse
  fields : ps.map Prod.fst = r.fields
  width : ∀ p ∈ ps, p.2.width = p.1.width
  down : ps.Pairwise fun p q => p.2.Above q.2
  disjoint : ps.Pairwise fun p q => p.2.Disjoint q.2
  first : ∀ p ∈ ps.head?, p.2.lsb + p.2.width = 16

/-- what an assignment of x to the field f, of name n, makes of the register -/
structure Assigned [DecidableEq ν] (e : ByteOrder) (r : RegDef ν) (f : BitField ν) (n : ν) (x : ℤ) (v v' : BitVec 16) :
    Prop where
  self : ∃ y, mtChipRegGetBf e r n v' = some y ∧ (y : ℤ) = x % 2 ^ f.width
  other : ∀ g ∈ r.fields, ∀ m, g.name = some m → m ≠ n → mtChipRegGetBf e r m v' = mtChipRegGetBf e r m v
  frame : ∀ b, r.bf e n = some b → ∀ j, ¬ b.Has j → v'.getLsbD j = v.getLsbD j

theorem laidOut (r : RegDef ν) : LaidOut r r.bits where
  big := r.layout_big
  little := r.layout_little
  fields := allocHigh_fst r.fields 16
  width := fun _ hp => allocHigh_width hp
  down := allocHigh_pairwise r.sum.le
  disjoint := r.bits_disjoint
  first := by
    intro p hp
    have hsum := r.sum
    rw [RegDef.bits] at hp
    rcases hfs : r.fields with _ | ⟨f, fs⟩
    · exact absurd hfs r.fields_ne_nil
    · rw [hfs] at hp hsum
      obtain rfl := Option.some.inj hp
      rw [widthSum_cons] at hsum
      dsimp only
      omega

theorem assigned [DecidableEq ν] (e : ByteOrder) (r : RegDef ν) {f : BitField ν} (hf : f ∈ r.fields) {n : ν}
    (hn : f.name = some n) (x : ℤ) (v : BitVec 16) :
    ∃ v', mtChipRegAssBf e r n x v = some v' ∧ Assigned e r f n x v v' := by
  obtain ⟨p, hp, rfl⟩ := r.exists_bits hf
  have hbf := r.bf_eq e hp hn
  refine ⟨p.2.put x v, by rw [mtChipRegAssBf, hbf]; rfl, ?_, ?_, ?_⟩
  · have hfit : p.2.lsb + p.2.width ≤ 16 := allocHigh_le r.sum.le hp
    have hself := Bits.get_put_self (v := v) (x := x) hfit
    rw [allocHigh_width hp] at hself
    exact ⟨_, by rw [mtChipRegGetBf, hbf]; rfl, hself⟩
  · intro g hg m hm hmn
    obtain ⟨q, hq, rfl⟩ := r.exists_bits hg
    have hqp : q ≠ p := by
      rintro rfl
      exact hmn (Option.some.inj (hm.symm.trans hn))
    rw [mtChipRegGetBf, mtChipRegGetBf, r.bf_eq e hq hm]
    exact congrArg some (Bits.get_put_of_disjoint (r.bits_disjoint.forall hq hp hqp))
  · intro b hb j hj
    rw [hbf] at hb
    obtain rfl := Option.some.inj hb
    exact Bits.getLsbD_put_of_not_has hj

/-- **Bit-fields mean the same with both byte orders**, and an assignment of a field is read back from it and changes
nothing else. -/
theorem regDef_same [DecidableEq ν] (r : RegDef ν) : (∃ ps, LaidOut r ps) ∧ ∀ e, ∀ f ∈ r.fields, ∀ n, f.name = some n →
    r.bf .little n = r.bf .big n ∧
      ∀ x v, ∃ v', mtChipRegAssBf e r n x v = some v' ∧ Assigned e r f n x v v' := by
  refine ⟨⟨r.bits, laidOut r⟩, ?_⟩
  intro e f hf n hn
  obtain ⟨p, hp, rfl⟩ := r.exists_bits hf
  have hsame : r.bf .little n = r.bf .big n := by
    calc r.bf .little n = some p.2 := r.bf_eq .little hp hn
      _ = r.bf .big n := (r.bf_eq .big hp hn).symm
  exact ⟨hsame, assigned e r hf hn⟩

theorem regDef_same_slotId : ∃ v', mtChipRegAssBf .little cpldId .slotId 37 0xFFFF#16 = some v' ∧
    Assigned .little cpldId (.named .slotId 5 (by decide)) .slotId 37 0xFFFF#16 v' :=
  ((regDef_same cpldId).2 .little (.named .slotId 5 (by decide)) (by decide) .slotId rfl).2 37 0xFFFF#16

/-! ## The fields of a CPLD -/

/-- the field and where it is, by its name -/
def cpldBits (e : ByteOrder) (n : CpldField) : Option (ℕ × Bits) :=
  cpldCmmT.findSome? fun r => (r.2.bf e n).map fun b => (r.1, b)

/-- the addresses and bits of the named fields of `cpld_cmm_t` -/
def cpldMap : CpldField → ℕ × Bits
  | .cpldCodeSystem => (0x00, ⟨0, 8⟩)
  | .cpldCodeBoard => (0x01, ⟨0, 8⟩)
  | .cpldVersion => (0x02, ⟨0, 8⟩)
  | .testVersion => (0x03, ⟨0, 8⟩)
  | .boardType => (0x04, ⟨0, 8⟩)
  | .boardExtType => (0x05, ⟨4, 4⟩)
  | .bomType => (0x05, ⟨0, 4⟩)
  | .pcbVersion => (0x06, ⟨0, 4⟩)
  | .blankReg => (0x07, ⟨0, 8⟩)
  | .systemId => (0x08, ⟨6, 2⟩)
  | .slotId => (0x08, ⟨0, 5⟩)
  | .cclkEn => (0x0F, ⟨0, 1⟩)
  | .fpgaDone => (0x10, ⟨0, 1⟩)
  | .fpgaProgH => (0x11, ⟨0, 1⟩)
  | .fpgaProgL => (0x12, ⟨0, 1⟩)
  | .fpgaLoader => (0x13, ⟨0, 8⟩)

theorem cpldBits_eq (e : ByteOrder) (n : CpldField) : cpldBits e n = some (cpldMap n) := by
  cases e <;> cases n <;> decide

end LinuxDrv.Driver
