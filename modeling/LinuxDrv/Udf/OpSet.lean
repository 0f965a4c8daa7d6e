/-
The register operations of a card driver (`udf_kdrv_op_set_t`), in kernel mode and in user mode.

A driver is written once, against a set of operations: read and write a register of 64, 32, 16 or 8 bits, enable and
disable the interrupt of the slot, ask whether the card is on line. `get_drv_op_set` gives it the functions of
`udf_dbh_uif.c`, of which there are two. In kernel mode they call the functions of `udf_dbh.c`; in user mode they call
functions of the library with the same names, each of which is an `ioctl` that the driver dispatches to that function.
The argument goes through memory both times: an object of type `ioc_arg_rw##bit_num##_t` on the stack of the caller.

What the card does on an access is an argument (`Bus`), with any side effects. A pointer has 64 bits; the table of open
files is an argument, and so are the interfaces that the user adds to the list, which has at most 256 lines then.
- `udfReadEncap_call`, `udfWriteEncap_call`: a call of either kind is one access of the width that was asked for, at
  `hw_addr` plus the address.
- `op_sets_agree`: every program that uses the set, whatever it does with what it reads, gets the same answers and
  leaves the card and the driver the same in both modes, as if it had accessed the card directly.
- `op_set_closed`: if the file is not open, the card is not accessed, and a read gives all ones.
-/
import LinuxDrv.Core.Words
import LinuxDrv.Udf.IoctlIf
import LinuxDrv.Udf.Mmap

namespace LinuxDrv.Udf

open LinuxDrv.Core LinuxDrv.Driver

/-! ## The machine -/

/-- the `bit_num` of `MT_READ_WRITE_REG_FUNC` -/
inductive RegWidth where
  | w64
  | w32
  | w16
  | w8
deriving DecidableEq

def RegWidth.bytes : RegWidth → ℕ
  | w64 => 8
  | w32 => 4
  | w16 => 2
  | w8 => 1

def RegWidth.bits (w : RegWidth) : ℕ := 8 * w.bytes

/-- the registers of a card: what a volatile access of n bytes reads, and what it does -/
structure Bus (β : Type) where
  load : (n : ℕ) → BitVec 64 → β → BitVec (8 * n) × β
  store : (n : ℕ) → BitVec 64 → BitVec (8 * n) → β → β

structure Machine (β : Type) where
  bus : β
  drv : DrvSt
  /-- the memory of the caller -/
  mem : Bytes 64

/-- `SUDF_KDRV_DATA` -/
structure SudfKdrvData where
  slot : ℤ
  hwAddr : BitVec 64

/-- `pdm_query_online` -/
def pdmQueryOnline (slot : ℤ) : ℤ := if slot ≠ etinSlotSelf then -einval else 1

variable {β υ : Type} (B : Bus β) (big : Bool)

/-! ## The functions of `udf_dbh.c` -/

section Dbh

variable (pInst : SudfKdrvData) (arg : BitVec 64) (m : Machine β)

/-- `udf_read##bit_num`: the member `addr` of the argument is at offset 0, the member `val` at offset 8 -/
def udfRead (n : ℕ) : ℤ × Machine β :=
  let x := B.load n (pInst.hwAddr + Bytes.ld big 8 m.mem arg) m.bus
  (0, { m with bus := x.2, mem := Bytes.st big n m.mem (arg + 8#64) x.1 })

/-- `udf_write##bit_num` -/
def udfWrite (n : ℕ) : ℤ × Machine β :=
  (0, { m with
    bus := B.store n (pInst.hwAddr + Bytes.ld big 8 m.mem arg) (Bytes.ld big n m.mem (arg + 8#64)) m.bus })

/-- the function of `udf_dbh.c` with the name of a line of `udf_dbh_ioctl_if.def` -/
def dbhFn : DbhFunc → ℤ × Machine β
  | .udfRead bits => udfRead B big pInst arg m (bits / 8)
  | .udfWrite bits => udfWrite B big pInst arg m (bits / 8)
  | .udfEnableSlotInt => ((pdmEnableInt pInst.slot m.drv).1, { m with drv := (pdmEnableInt pInst.slot m.drv).2 })
  | .udfDisableSlotInt => (0, { m with drv := (pdmDisableInt pInst.slot m.drv).2 })
  | .udfQuerySlotOnline => (pdmQueryOnline pInst.slot, m)
  | .udfGetMemSize => (0, { m with mem := Bytes.st big 4 m.mem arg (pdmGetAddrSpaceSize 32 pInst.slot) })

end Dbh

/-! ## The two modes -/

/-- the functions that the operations call -/
inductive KFunc where
  | read (w : RegWidth)
  | write (w : RegWidth)
  | enableSlotInt
  | disableSlotInt
  | querySlotOnline
deriving DecidableEq

/-- the size of `ioc_arg_rw##bit_num##_t`, whose address has 8 bytes, is a size of an ioctl -/
theorem argRw_size_lt : 16 < 2 ^ 14 := by decide

/-- the size of an `int` is one -/
theorem argInt_size_lt : 4 < 2 ^ 14 := by decide

/-- the line of `udf_dbh_ioctl_if.def` -/
def KFunc.line : KFunc → IfEntry DbhFunc
  | read .w64 => ⟨.r, .udfRead 64, 16, argRw_size_lt⟩
  | write .w64 => ⟨.w, .udfWrite 64, 16, argRw_size_lt⟩
  | read .w32 => ⟨.r, .udfRead 32, 16, argRw_size_lt⟩
  | write .w32 => ⟨.w, .udfWrite 32, 16, argRw_size_lt⟩
  | read .w16 => ⟨.r, .udfRead 16, 16, argRw_size_lt⟩
  | write .w16 => ⟨.w, .udfWrite 16, 16, argRw_size_lt⟩
  | read .w8 => ⟨.r, .udfRead 8, 16, argRw_size_lt⟩
  | write .w8 => ⟨.w, .udfWrite 8, 16, argRw_size_lt⟩
  | enableSlotInt => ⟨.w, .udfEnableSlotInt, 4, argInt_size_lt⟩
  | disableSlotInt => ⟨.w, .udfDisableSlotInt, 4, argInt_size_lt⟩
  | querySlotOnline => ⟨.w, .udfQuerySlotOnline, 4, argInt_size_lt⟩

/-- what a call of a function with an argument returns and does -/
abbrev Callee (β : Type) := KFunc → BitVec 64 → Machine β → ℤ × Machine β

/-- kernel mode: the functions of `udf_dbh.c`, called with the instance -/
def kernelCall (pInst : SudfKdrvData) : Callee β := fun f arg m => dbhFn B big pInst arg m f.line.func

/-- `ioctl(2)` of the C library on a file of the driver: an error code of the driver becomes -1 -/
def libcRet (ret : ℤ) : ℤ := if ret < 0 then -1 else ret

section UserMode

variable [DecidableEq υ] (magic : Magic) (I : IfList (DbhFunc ⊕ υ))
  (user : υ → SudfKdrvData → BitVec 64 → Machine β → ℤ × Machine β) (files : ℤ → Option SudfKdrvData)

/-- `ioctl(2)`; `files` has the `m_pData` of the files that are open on a device of the driver -/
def ioctl2 (fd : ℤ) (cmd : BitVec 32) (arg : BitVec 64) (m : Machine β) : ℤ × Machine β :=
  match files fd with
  | none => (-1, m)
  | some pData =>
    let fn : DbhFunc ⊕ υ → SudfKdrvData → BitVec 64 → Machine β → ℤ × Machine β := fun f pData arg m =>
      match f with
      | .inl f => dbhFn B big pData arg m f
      | .inr f => user f pData arg m
    let out := udfIoctl fn (drvTbl magic I) cmd pData arg m
    (libcRet out.ret, out.world)

/-- user mode: the function of the library that `UDF_KIOCTL_MACRO_USR_LIB` makes -/
def userCall (fd : ℤ) : Callee β := fun f arg m =>
  ioctl2 B big magic I user files fd (usrLib magic I (f.line.map Sum.inl)) arg m

end UserMode

/-! ## The operations of `udf_dbh_uif.c` -/

section Encap

variable {big} (call : Callee β) (p : BitVec 64)

/-- `udf_read##bit_num##_encap`; p is where the compiler puts `arg` -/
def udfReadEncap (big : Bool) (w : RegWidth) (addr : BitVec 64) (m : Machine β) : BitVec (8 * w.bytes) × Machine β :=
  let mem := Bytes.st big 8 m.mem p addr
  let mem := Bytes.st big w.bytes mem (p + 8#64) (BitVec.allOnes _)
  let x := call (.read w) p { m with mem := mem }
  (Bytes.ld big w.bytes x.2.mem (p + 8#64), x.2)

/-- `udf_write##bit_num##_encap` -/
def udfWriteEncap (big : Bool) (w : RegWidth) (addr : BitVec 64) (val : BitVec (8 * w.bytes)) (m : Machine β) :
    Machine β :=
  let mem := Bytes.st big 8 m.mem p addr
  let mem := Bytes.st big w.bytes mem (p + 8#64) val
  (call (.write w) p { m with mem := mem }).2

end Encap

/-- an operation of the set, with its arguments -/
inductive KOp where
  | read (w : RegWidth) (addr : BitVec 64)
  | write (w : RegWidth) (addr : BitVec 64) (val : BitVec (8 * w.bytes))
  | enableSlotInt
  | disableSlotInt
  | querySlotOnline

/-- the operation as the set that `get_drv_op_set` fills in executes it: its result, if it has one, and the machine
after it. The last three pass NULL. -/
def opSet (call : Callee β) (p : BitVec 64) (m : Machine β) : KOp → Option ℤ × Machine β
  | .read w addr =>
    let x := udfReadEncap call p big w addr m
    (some x.1.toNat, x.2)
  | .write w addr val => (none, udfWriteEncap call p big w addr val m)
  | .enableSlotInt => (none, (call .enableSlotInt 0 m).2)
  | .disableSlotInt => (none, (call .disableSlotInt 0 m).2)
  | .querySlotOnline =>
    let x := call .querySlotOnline 0 m
    (some x.1, x.2)

/-! ## What the operations are for -/

/-- the operation on the card and the driver themselves; `online` is the answer to `udf_query_slot_online` -/
def direct (pInst : SudfKdrvData) (online : ℤ) (x : β × DrvSt) : KOp → Option ℤ × (β × DrvSt)
  | .read w addr =>
    let y := B.load w.bytes (pInst.hwAddr + addr) x.1
    (some y.1.toNat, (y.2, x.2))
  | .write w addr val => (none, (B.store w.bytes (pInst.hwAddr + addr) val x.1, x.2))
  | .enableSlotInt => (none, (x.1, (pdmEnableInt pInst.slot x.2).2))
  | .disableSlotInt => (none, (x.1, (pdmDisableInt pInst.slot x.2).2))
  | .querySlotOnline => (some online, x)

/-- a program that uses the operations: what it has read decides what it does next, and where its stack is -/
abbrev Prog := List (Option ℤ) → KOp × BitVec 64

/-- n operations of a program that has read `h` -/
def Prog.run {σ : Type} (exec : BitVec 64 → σ → KOp → Option ℤ × σ) (prog : Prog) :
    ℕ → List (Option ℤ) → σ → List (Option ℤ) × σ
  | 0, h, s => (h, s)
  | n + 1, h, s =>
    let x := exec (prog h).2 s (prog h).1
    Prog.run exec prog n (x.1 :: h) x.2

/-- two ways to execute programs whose states are related stay related, and the program reads the same -/
theorem Prog.run_rel {σ τ : Type} {exec : BitVec 64 → σ → KOp → Option ℤ × σ}
    {exec' : BitVec 64 → τ → KOp → Option ℤ × τ} {f : σ → τ}
    (hstep : ∀ p s op, exec' p (f s) op = ((exec p s op).1, f (exec p s op).2)) (prog : Prog) (n : ℕ)
    (h : List (Option ℤ)) (s : σ) :
    Prog.run exec' prog n h (f s) = ((Prog.run exec prog n h s).1, f (Prog.run exec prog n h s).2) := by
  induction n generalizing h s with
  | zero => rfl
  | succ n ih =>
    simp only [Prog.run, hstep]
    exact ih _ _

/-! ## One call -/

theorem RegWidth.bytes_le (w : RegWidth) : w.bytes ≤ 8 := by cases w <;> decide

theorem KFunc.line_read (w : RegWidth) : (KFunc.read w).line.func = .udfRead w.bits := by cases w <;> rfl

theorem KFunc.line_write (w : RegWidth) : (KFunc.write w).line.func = .udfWrite w.bits := by cases w <;> rfl

theorem RegWidth.bits_div (w : RegWidth) : w.bits / 8 = w.bytes := Nat.mul_div_cancel_left _ (by decide)

theorem KFunc.line_mem (f : KFunc) : f.line ∈ udfDbhIoctlIf.entries := by
  cases f with
  | read w => cases w <;> simp [KFunc.line, udfDbhIoctlIf]
  | write w => cases w <;> simp [KFunc.line, udfDbhIoctlIf]
  | _ => simp [KFunc.line, udfDbhIoctlIf]

/-- the two members of an argument do not overlap, and neither wraps into the other -/
theorem arg_apart (p : BitVec 64) (w : RegWidth) : Bytes.Apart p 8 (p + 8#64) w.bytes := by
  have := w.bytes_le
  exact Bytes.apart_offset (a := 64) (show 8 ≤ 8 from le_rfl) (by omega)

section Call

variable {B : Bus β} {big : Bool} (pInst : SudfKdrvData) (p addr : BitVec 64) (w : RegWidth) (m : Machine β)

/-- the member `addr` of an argument that has both -/
theorem ld_addr (val : BitVec (8 * w.bytes)) :
    Bytes.ld big 8 (Bytes.st big w.bytes (Bytes.st big 8 m.mem p addr) (p + 8#64) val) p = addr := by
  rw [Bytes.ld_st_apart (arg_apart p w)]
  exact Bytes.ld_st (n := 8) (by omega) addr

/-- a value that was written to the member `val` -/
theorem ld_val (mem : Bytes 64) (val : BitVec (8 * w.bytes)) :
    Bytes.ld big w.bytes (Bytes.st big w.bytes mem (p + 8#64) val) (p + 8#64) = val :=
  Bytes.ld_st (by have := w.bytes_le; omega) val

/-- a call that runs the function of `udf_dbh.c`, whatever it returns -/
def Reaches (B : Bus β) (big : Bool) (pInst : SudfKdrvData) (call : Callee β) : Prop :=
  ∀ f arg m, (call f arg m).2 = (dbhFn B big pInst arg m f.line.func).2

/-- a read is one access of its width, at `hw_addr` plus the address -/
theorem udfReadEncap_call {call : Callee β} (hcall : Reaches B big pInst call) :
    (udfReadEncap call p big w addr m).1 = (B.load w.bytes (pInst.hwAddr + addr) m.bus).1 ∧
    (udfReadEncap call p big w addr m).2.bus = (B.load w.bytes (pInst.hwAddr + addr) m.bus).2 ∧
    (udfReadEncap call p big w addr m).2.drv = m.drv := by
  have hfn : ∀ m' : Machine β, (call (.read w) p m').2 = (udfRead B big pInst p m' w.bytes).2 := by
    intro m'
    rw [hcall, KFunc.line_read]
    simp only [dbhFn, w.bits_div]
  simp only [udfReadEncap, hfn, udfRead, ld_addr, ld_val, and_self]

/-- and so is a write -/
theorem udfWriteEncap_call {call : Callee β} (hcall : Reaches B big pInst call) (val : BitVec (8 * w.bytes)) :
    (udfWriteEncap call p big w addr val m).bus = B.store w.bytes (pInst.hwAddr + addr) val m.bus ∧
    (udfWriteEncap call p big w addr val m).drv = m.drv := by
  have hfn : ∀ m' : Machine β, (call (.write w) p m').2 = (udfWrite B big pInst p m' w.bytes).2 := by
    intro m'
    rw [hcall, KFunc.line_write]
    simp only [dbhFn, w.bits_div]
  simp only [udfWriteEncap, hfn, udfWrite, ld_addr, ld_val, and_self]

/-- an operation does what it is for -/
theorem opSet_direct {call : Callee β} (hcall : Reaches B big pInst call) {online : ℤ}
    (hret : ∀ m : Machine β, (call .querySlotOnline 0 m).1 = online) (p : BitVec 64) (m : Machine β) (op : KOp) :
    direct B pInst online (m.bus, m.drv) op = ((opSet big call p m op).1,
      ((opSet big call p m op).2.bus, (opSet big call p m op).2.drv)) := by
  cases op with
  | read w addr =>
    obtain ⟨hval, hbus, hdrv⟩ := udfReadEncap_call pInst p addr w m hcall
    simp only [direct, opSet, hval, hbus, hdrv]
  | write w addr val =>
    obtain ⟨hbus, hdrv⟩ := udfWriteEncap_call pInst p addr w m hcall val
    simp only [direct, opSet, hbus, hdrv]
  | enableSlotInt =>
    have hfn := hcall .enableSlotInt 0 m
    simp only [direct, opSet, hfn]
    rfl
  | disableSlotInt =>
    have hfn := hcall .disableSlotInt 0 m
    simp only [direct, opSet, hfn]
    rfl
  | querySlotOnline =>
    have hfn := hcall .querySlotOnline 0 m
    simp only [direct, opSet, hfn, hret]
    rfl

/-- two callees that do the same, and answer the same about the card, are the same to a program -/
theorem opSet_congr {call call' : Callee β} (hdo : ∀ f arg m, (call f arg m).2 = (call' f arg m).2)
    (hret : ∀ m, (call .querySlotOnline 0 m).1 = (call' .querySlotOnline 0 m).1) (p : BitVec 64) (m : Machine β)
    (op : KOp) : opSet big call p m op = opSet big call' p m op := by
  cases op with
  | read w addr => simp only [opSet, udfReadEncap, hdo]
  | write w addr val => simp only [opSet, udfWriteEncap, hdo]
  | enableSlotInt | disableSlotInt => simp only [opSet, hdo]
  | querySlotOnline => simp only [opSet, hdo, hret]

end Call

/-! ## Programs -/

section Modes

variable [DecidableEq υ] {B : Bus β} {big : Bool} {magic : Magic} {ifs : IfList υ}
  {hifs : udfDbhIoctlIf.entries.length + ifs.entries.length ≤ 256}
  {user : υ → SudfKdrvData → BitVec 64 → Machine β → ℤ × Machine β} {files : ℤ → Option SudfKdrvData} {fd : ℤ}
  {pInst : SudfKdrvData}

/-- a function of the library reaches the function of the driver with its name -/
theorem userCall_eq (hfd : files fd = some pInst) (f : KFunc) (arg : BitVec 64) (m : Machine β) :
    userCall B big magic (udfDbhIoctlIf.withUser ifs hifs) user files fd f arg m =
      (libcRet (dbhFn B big pInst arg m f.line.func).1, (dbhFn B big pInst arg m f.line.func).2) := by
  have hmem : f.line.map Sum.inl ∈ (udfDbhIoctlIf.withUser ifs hifs).entries :=
    List.mem_append_left _ (List.mem_map_of_mem f.line_mem)
  rw [userCall, ioctl2, hfd]
  dsimp only
  rw [usrLib_upgrade magic (List.prefix_refl _) _ hmem]
  rfl

/-- what a program reads, and what it leaves the card and the driver as, when it has the operations of either mode -/
structure OpSetsAgree (B : Bus β) (big : Bool) (pInst : SudfKdrvData) (user : Callee β) : Prop where
  /-- kernel mode is direct access -/
  kernelMode : ∀ (prog : Prog) n m,
    Prog.run (fun _ x op => direct B pInst (pdmQueryOnline pInst.slot) x op) prog n [] (m.bus, m.drv) =
      let out := Prog.run (opSet big (kernelCall B big pInst)) prog n [] m
      (out.1, (out.2.bus, out.2.drv))
  /-- and so is user mode, but for the error code -/
  userMode : ∀ (prog : Prog) n m,
    Prog.run (fun _ x op => direct B pInst (libcRet (pdmQueryOnline pInst.slot)) x op) prog n [] (m.bus, m.drv) =
      let out := Prog.run (opSet big user) prog n [] m
      (out.1, (out.2.bus, out.2.drv))
  /-- on the slot that can be on line both modes do the same, to the last byte of the caller's memory -/
  same : pInst.slot = etinSlotSelf → ∀ (prog : Prog) n m,
    Prog.run (opSet big user) prog n [] m = Prog.run (opSet big (kernelCall B big pInst)) prog n [] m

variable (magic ifs hifs user) in
/-- **Both modes are direct access.** A program that uses the operations of a card driver gets the same answers in
kernel mode and in user mode and leaves the card and the driver the same, for every card, every byte order, every list
of at most 256 interfaces and every place of the arguments, with addresses of 64 bits; only an error code of
`udf_query_slot_online` becomes -1 on the way. -/
theorem op_sets_agree (hfd : files fd = some pInst) :
    OpSetsAgree B big pInst (userCall B big magic (udfDbhIoctlIf.withUser ifs hifs) user files fd) where
  kernelMode := by
    intro prog n m
    exact Prog.run_rel (f := fun m : Machine β => (m.bus, m.drv))
      (fun p m op => opSet_direct pInst (show Reaches B big pInst (kernelCall B big pInst) from fun _ _ _ => rfl)
        (fun _ => rfl) p m op)
      prog n [] m
  userMode := by
    intro prog n m
    refine Prog.run_rel (f := fun m : Machine β => (m.bus, m.drv)) (fun p m op => opSet_direct pInst ?_ ?_ p m op)
      prog n [] m
    · intro f arg m
      rw [userCall_eq hfd]
    · intro m
      rw [userCall_eq hfd]
      rfl
  same := by
    intro hslot prog n m
    have hquery : libcRet (pdmQueryOnline pInst.slot) = pdmQueryOnline pInst.slot := by
      rw [hslot]
      decide
    have hsame : opSet big (userCall B big magic (udfDbhIoctlIf.withUser ifs hifs) user files fd) =
        opSet big (kernelCall B big pInst) := by
      funext p m op
      refine opSet_congr (fun f arg m => ?_) (fun m => ?_) p m op
      · rw [userCall_eq hfd]
        rfl
      · rw [userCall_eq hfd]
        exact hquery
    rw [hsame]

/-- what an operation answers when its file is not open -/
def closed : KOp → Option ℤ
  | .read w _ => some (2 ^ w.bits - 1)
  | .write .. | .enableSlotInt | .disableSlotInt => none
  | .querySlotOnline => some (-1)

variable (magic ifs hifs user) in
/-- **A closed file.** Without an open file no operation of a program touches the card or the driver, and every read
gives all ones: `arg.val` is as `udf_read##bit_num##_encap` set it before the call. The list of interfaces, which has at
most 256 lines, and the place of the argument, an address of 64 bits, do not matter. -/
theorem op_set_closed (hfd : files fd = none) (prog : Prog) (n : ℕ) (m : Machine β) :
    Prog.run (fun _ x op => (closed op, x)) prog n [] (m.bus, m.drv) =
      let out := Prog.run (opSet big (userCall B big magic (udfDbhIoctlIf.withUser ifs hifs) user files fd)) prog n [] m
      (out.1, (out.2.bus, out.2.drv)) := by
  have hcall : ∀ f arg (m : Machine β),
      userCall B big magic (udfDbhIoctlIf.withUser ifs hifs) user files fd f arg m = (-1, m) := by
    intro f arg m
    rw [userCall, ioctl2, hfd]
  refine Prog.run_rel (f := fun m : Machine β => (m.bus, m.drv)) (fun p m op => ?_) prog n [] m
  cases op with
  | read w addr =>
    have hones : (((BitVec.allOnes (8 * w.bytes)).toNat : ℕ) : ℤ) = 2 ^ w.bits - 1 := by
      rw [BitVec.toNat_allOnes, Nat.cast_pred (Nat.two_pow_pos _), Nat.cast_pow]
      rfl
    simp only [opSet, udfReadEncap, hcall, ld_val, hones, closed]
  | write w addr val => simp only [opSet, udfWriteEncap, hcall, closed]
  | enableSlotInt | disableSlotInt | querySlotOnline => simp only [opSet, hcall, closed]

/-- a card whose registers are plain memory -/
def ramBus : Bus (Bytes 64) where
  load n p m := (Bytes.ld true n m p, m)
  store n p v m := Bytes.st true n m p v

/-- a card of the slot that can be on line, whose driver has no interfaces of its own -/
theorem op_sets_agree_ram : OpSetsAgree ramBus true ⟨etinSlotSelf, 0xf0000000#64⟩
    (userCall ramBus true 0x63#8 (udfDbhIoctlIf.withUser (υ := Empty) ⟨[], by decide, by decide⟩ (by decide))
      (fun f => f.elim) (fun fd => if fd = 3 then some ⟨etinSlotSelf, 0xf0000000#64⟩ else none) 3) :=
  op_sets_agree _ _ _ _ (if_pos rfl)

/-- no file is open -/
theorem op_set_closed_none : Prog.run (fun _ x op => (closed op, x)) (fun _ => (.read .w32 0x10#64, 0x7000#64)) 2 []
      ((fun _ => 0#8 : Bytes 64), DrvSt.pdmCtorMngInfo fun _ => false) =
    let out := Prog.run (opSet true (userCall ramBus true 0x63#8
        (udfDbhIoctlIf.withUser (υ := Empty) ⟨[], by decide, by decide⟩ (by decide)) (fun f => f.elim)
        (fun _ => none) 3)) (fun _ => (.read .w32 0x10#64, 0x7000#64)) 2 []
      ⟨fun _ => 0#8, DrvSt.pdmCtorMngInfo fun _ => false, fun _ => 0#8⟩
    (out.1, (out.2.bus, out.2.drv)) :=
  op_set_closed _ _ _ _ rfl _ 2 ⟨fun _ => 0#8, DrvSt.pdmCtorMngInfo fun _ => false, fun _ => 0#8⟩

end Modes

end LinuxDrv.Udf
