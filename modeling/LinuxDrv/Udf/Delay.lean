/-
The delays of a driver in user mode (`ukc_usr/ukc_delay.c`).

A delay function splits its argument into seconds and nanoseconds, adds them to the time of the clock, and sleeps until
that time with `clock_nanosleep`. The arguments are 32 bits wide and their products wrap. `tv_nsec` is a `long`, of 32
or of 64 bits, and `tv_sec` is wide enough for the seconds.

`clock_nanosleep` with `TIMER_ABSTIME` sleeps until its deadline and returns 0. A signal that comes first ends it, and
it returns `EINTR`, which is positive. The time is that of `CLOCK_MONOTONIC`. What comes from outside is in the world:
how much time passes between the calls, the signals, and how late the thread runs again.
- `normalized_spec`: `set_normalized_timespec` ends, with the same total and the nanoseconds of one second.
- `delay_deadline_exact`: the deadline of every delay is the time plus the duration, and nothing overflows on the way.
- `delay_never_short_iff`: a delay lasts as long as requested iff no signal makes the thread run again before. The
  loop around `clock_nanosleep` was to repeat it after a signal, but it waits for a negative result, which never comes.
-/
import LinuxDrv.Core.Loop
import Mathlib.Tactic

namespace LinuxDrv.Udf

open LinuxDrv.Core

def nsecPerSec : ℤ := 1000000000

/-- `struct timespec` -/
structure Timespec where
  tvSec : ℤ
  tvNsec : ℤ
deriving DecidableEq

/-- the time in nanoseconds -/
def Timespec.ns (t : Timespec) : ℤ := t.tvSec * nsecPerSec + t.tvNsec

structure Timespec.Normal (t : Timespec) : Prop where
  nonneg : 0 ≤ t.tvNsec
  lt : t.tvNsec < nsecPerSec

instance (t : Timespec) : Decidable t.Normal :=
  decidable_of_iff (0 ≤ t.tvNsec ∧ t.tvNsec < nsecPerSec) ⟨fun h => ⟨h.1, h.2⟩, fun h => ⟨h.1, h.2⟩⟩

/-- the type `long` -/
inductive Long where
  | bits32
  | bits64
deriving DecidableEq

def Long.width : Long → ℕ
  | .bits32 => 32
  | .bits64 => 64

inductive DelayFault where
  /-- a signed operation has no value -/
  | overflow
  /-- a loop made more rounds than it was given -/
  | stuck
deriving DecidableEq

/-! ## The deadline -/

/-- the loop of `set_normalized_timespec` for large `nsec` -/
def normDown (n : ℕ) (s : ℤ × ℤ) : Except DelayFault (ℤ × ℤ) :=
  whileLoop .stuck (fun s => decide (nsecPerSec ≤ s.2)) (fun s => do
    let nsec ← checked .overflow 64 (s.2 - nsecPerSec)
    .ok (s.1 + 1, nsec)) n s

/-- the loop of `set_normalized_timespec` for negative `nsec` -/
def normUp (n : ℕ) (s : ℤ × ℤ) : Except DelayFault (ℤ × ℤ) :=
  whileLoop .stuck (fun s => decide (s.2 < 0)) (fun s => do
    let nsec ← checked .overflow 64 (s.2 + nsecPerSec)
    .ok (s.1 - 1, nsec)) n s

/-- `set_normalized_timespec`; `nsec` is an `int64_t` -/
def setNormalizedTimespec (l : Long) (sec nsec : ℤ) (n : ℕ) : Except DelayFault Timespec := do
  let s ← normDown n (sec, nsec)
  let s ← normUp n s
  .ok ⟨s.1, conv l.width s.2⟩

/-- `timespec_add_safe` -/
def timespecAddSafe (l : Long) (lhs rhs : Timespec) (n : ℕ) : Except DelayFault Timespec := do
  let nsec ← checked .overflow l.width (lhs.tvNsec + rhs.tvNsec)
  setNormalizedTimespec l (lhs.tvSec + rhs.tvSec) (conv 64 nsec) n

/-- `ts_inc` -/
def tsInc (l : Long) (seconds nanoseconds : BitVec 32) : Timespec := ⟨seconds.toNat, conv l.width nanoseconds.toNat⟩

/-! ## Sleeping -/

def eintr : ℤ := 4
def einvalNanosleep : ℤ := 22

/-- a signal that comes `after` nanoseconds of a sleep; the thread runs again `late` nanoseconds later -/
structure Signal where
  after : ℕ
  late : ℕ

structure World where
  /-- `CLOCK_MONOTONIC` in nanoseconds -/
  now : ℤ
  /-- what `clock_gettime` returns -/
  gettimeRet : ℤ
  /-- the time that passes between `clock_gettime` and `clock_nanosleep` -/
  lag : ℕ
  /-- the signals, one for each sleep from the next one on; one that comes after the sleep does not disturb it -/
  signals : List Signal
  /-- how much later than its deadline a sleep ends -/
  late : ℕ

/-- `clock_gettime (CLOCK_MONOTONIC, &ts_cur)` -/
def clockGettime (w : World) : ℤ × Timespec := (w.gettimeRet, ⟨w.now / nsecPerSec, w.now % nsecPerSec⟩)

/-- `clock_nanosleep (CLOCK_MONOTONIC, TIMER_ABSTIME, &ts, NULL)` -/
def clockNanosleep (ts : Timespec) (w : World) : ℤ × World :=
  if ¬ ts.Normal then (einvalNanosleep, w)
  else if ts.ns ≤ w.now then (0, w)
  else match w.signals with
    | s :: signals =>
      if w.now + s.after < ts.ns then (eintr, { w with now := w.now + s.after + s.late, signals := signals })
      else (0, { w with now := ts.ns + w.late })
    | [] => (0, { w with now := ts.ns + w.late })

/-- `ukc_sleep_internal` -/
def ukcSleepInternal (l : Long) (seconds nanoseconds : BitVec 32) (n : ℕ) (w : World) : Except DelayFault World :=
  let x := clockGettime w
  if x.1 < 0 then .ok w
  else do
    let ts ← timespecAddSafe l x.2 (tsInc l seconds nanoseconds) n
    let s ← doWhile .stuck (fun s => decide (s.1 < 0)) (fun s => .ok (clockNanosleep ts s.2)) n
      (x.1, { w with now := w.now + w.lag })
    .ok s.2

def ukcSsleep (l : Long) (seconds : BitVec 32) (n : ℕ) (w : World) : Except DelayFault World :=
  ukcSleepInternal l seconds 0 n w

def ukcMssleep (l : Long) (milliseconds : BitVec 32) (n : ℕ) (w : World) : Except DelayFault World :=
  ukcSleepInternal l (milliseconds / 1000) (milliseconds % 1000 * 1000000) n w

def ukcUssleepUsr (l : Long) (microseconds : BitVec 32) (n : ℕ) (w : World) : Except DelayFault World :=
  ukcSleepInternal l (microseconds / 1000000) (microseconds % 1000000 * 1000) n w

def ukcNssleep (l : Long) (nanoseconds : BitVec 32) (n : ℕ) (w : World) : Except DelayFault World :=
  ukcSleepInternal l (nanoseconds / 1000000000) (nanoseconds % 1000000000) n w

/-! ## The four functions -/

inductive DelayFn where
  | ssleep
  | mssleep
  | ussleep
  | nssleep
deriving DecidableEq

namespace DelayFn

def call : DelayFn → Long → BitVec 32 → ℕ → World → Except DelayFault World
  | ssleep => ukcSsleep
  | mssleep => ukcMssleep
  | ussleep => ukcUssleepUsr
  | nssleep => ukcNssleep

/-- the seconds and nanoseconds that it passes on -/
def split (arg : BitVec 32) : DelayFn → BitVec 32 × BitVec 32
  | ssleep => (arg, 0)
  | mssleep => (arg / 1000, arg % 1000 * 1000000)
  | ussleep => (arg / 1000000, arg % 1000000 * 1000)
  | nssleep => (arg / 1000000000, arg % 1000000000)

/-- the unit of the argument in nanoseconds, and how many there are in a second -/
def unit : DelayFn → ℕ
  | ssleep => 1000000000
  | mssleep => 1000000
  | ussleep => 1000
  | nssleep => 1

def perSec : DelayFn → ℕ
  | ssleep => 1
  | mssleep => 1000
  | ussleep => 1000000
  | nssleep => 1000000000

/-- the requested duration in nanoseconds -/
def duration (f : DelayFn) (arg : BitVec 32) : ℕ := arg.toNat * f.unit

/-- the deadline that it sleeps until, from the time `cur` -/
def deadline (f : DelayFn) (l : Long) (arg : BitVec 32) (cur : Timespec) (n : ℕ) : Except DelayFault Timespec :=
  timespecAddSafe l cur (tsInc l (f.split arg).1 (f.split arg).2) n

variable (f : DelayFn) (l : Long) (arg : BitVec 32)

theorem call_eq : f.call l arg = ukcSleepInternal l (f.split arg).1 (f.split arg).2 := by
  cases f <;> rfl

theorem perSec_mul_unit : (f.perSec * f.unit : ℤ) = nsecPerSec := by
  cases f <;> rfl

/-- a rest below k, m times, of which k make at most 2^32 -/
theorem toNat_rest_mul {k m : BitVec 32} (hk : 0 < k.toNat) (hm : 0 < m.toNat) (hkm : k.toNat * m.toNat ≤ 2 ^ 32) :
    (arg % k * m).toNat = arg.toNat % k.toNat * m.toNat := by
  have hrest : arg.toNat % k.toNat < k.toNat := Nat.mod_lt _ hk
  have hlt : arg.toNat % k.toNat * m.toNat < 2 ^ 32 := (Nat.mul_lt_mul_of_pos_right hrest hm).trans_le hkm
  rw [BitVec.toNat_mul, BitVec.toNat_umod, Nat.mod_eq_of_lt hlt]

/-- no product wraps -/
theorem split_toNat : (f.split arg).1.toNat = arg.toNat / f.perSec ∧
    (f.split arg).2.toNat = arg.toNat % f.perSec * f.unit := by
  cases f with
  | ssleep => exact ⟨(Nat.div_one _).symm, by rw [perSec, Nat.mod_one, Nat.zero_mul]; rfl⟩
  | mssleep => exact ⟨BitVec.toNat_udiv, toNat_rest_mul arg (by decide) (by decide) (by decide)⟩
  | ussleep => exact ⟨BitVec.toNat_udiv, toNat_rest_mul arg (by decide) (by decide) (by decide)⟩
  | nssleep => exact ⟨BitVec.toNat_udiv, BitVec.toNat_umod.trans (Nat.mul_one _).symm⟩

theorem rest_lt : ((arg.toNat % f.perSec * f.unit : ℕ) : ℤ) < nsecPerSec := by
  cases f <;> simp only [perSec, unit, nsecPerSec] <;> omega

/-- the two parts of the argument make up the duration -/
theorem parts_eq_duration :
    ((arg.toNat / f.perSec : ℕ) : ℤ) * nsecPerSec + (arg.toNat % f.perSec * f.unit : ℕ) = f.duration arg := by
  have hdiv : ((f.perSec * (arg.toNat / f.perSec) + arg.toNat % f.perSec : ℕ) : ℤ) = arg.toNat := by
    rw [Nat.div_add_mod]
  rw [← f.perSec_mul_unit]
  calc ((arg.toNat / f.perSec : ℕ) : ℤ) * (f.perSec * f.unit) + (arg.toNat % f.perSec * f.unit : ℕ)
      = ((f.perSec * (arg.toNat / f.perSec) + arg.toNat % f.perSec : ℕ) : ℤ) * f.unit := by push_cast; ring
    _ = arg.toNat * f.unit := by rw [hdiv]
    _ = f.duration arg := by rw [duration]; push_cast; rfl

end DelayFn

/-! ## The deadline is exact -/

theorem fits64_iff {x : ℤ} : Fits 64 x ↔ -9223372036854775808 ≤ x ∧ x < 9223372036854775808 := by
  norm_num [Fits]

/-- twice the nanoseconds of a second are a `long` -/
theorem fits_long (l : Long) {x : ℤ} (hlo : 0 ≤ x) (hhi : x < 2 * nsecPerSec) : Fits l.width x := by
  cases l <;> (simp only [nsecPerSec] at hhi; norm_num [Fits, Long.width]; omega)

theorem Long.width_pos (l : Long) : 0 < l.width := by
  cases l <;> decide

theorem normDown_spec (sec : ℤ) {nsec : ℤ} (hfit : Fits 64 nsec) : ∃ s, Returns (fun n => normDown n (sec, nsec)) s ∧
    s.1 * nsecPerSec + s.2 = sec * nsecPerSec + nsec ∧ Fits 64 s.2 ∧ s.2 < nsecPerSec := by
  have hrule : ∃ s, Returns (fun n => normDown n (sec, nsec)) s ∧
      (s.1 * nsecPerSec + s.2 = sec * nsecPerSec + nsec ∧ Fits 64 s.2) ∧ decide (nsecPerSec ≤ s.2) = false := by
    apply returns_whileLoop (fun s => s.2.toNat) _ ⟨rfl, hfit⟩
    rintro ⟨sec', nsec'⟩ ⟨htotal, hfit'⟩ hlarge
    have hlarge' : nsecPerSec ≤ nsec' := of_decide_eq_true hlarge
    rw [fits64_iff] at hfit'
    simp only [nsecPerSec] at hlarge' htotal hfit' ⊢
    have hless : Fits 64 (nsec' - 1000000000) := fits64_iff.2 (by omega)
    exact ⟨_, by rw [checked_of_fits hless, ok_bind], ⟨by dsimp only; omega, hless⟩, by dsimp only; omega⟩
  obtain ⟨s, hs, ⟨htotal, hfit'⟩, hsmall⟩ := hrule
  exact ⟨s, hs, htotal, hfit', not_le.1 (of_decide_eq_false hsmall)⟩

theorem normUp_spec (sec : ℤ) {nsec : ℤ} (hfit : Fits 64 nsec) (hlt : nsec < nsecPerSec) :
    ∃ s, Returns (fun n => normUp n (sec, nsec)) s ∧
      s.1 * nsecPerSec + s.2 = sec * nsecPerSec + nsec ∧ s.2 < nsecPerSec ∧ 0 ≤ s.2 := by
  have hrule : ∃ s, Returns (fun n => normUp n (sec, nsec)) s ∧
      (s.1 * nsecPerSec + s.2 = sec * nsecPerSec + nsec ∧ Fits 64 s.2 ∧ s.2 < nsecPerSec) ∧
        decide (s.2 < 0) = false := by
    apply returns_whileLoop (fun s => (-s.2).toNat) _ ⟨rfl, hfit, hlt⟩
    rintro ⟨sec', nsec'⟩ ⟨htotal, hfit', hlt'⟩ hneg
    have hneg' : nsec' < 0 := of_decide_eq_true hneg
    rw [fits64_iff] at hfit'
    simp only [nsecPerSec] at hlt' htotal hfit' ⊢
    have hmore : Fits 64 (nsec' + 1000000000) := fits64_iff.2 (by omega)
    exact ⟨_, by rw [checked_of_fits hmore, ok_bind], ⟨by dsimp only; omega, hmore, by dsimp only; omega⟩,
      by dsimp only; omega⟩
  obtain ⟨s, hs, ⟨htotal, -, hlt'⟩, hnn⟩ := hrule
  exact ⟨s, hs, htotal, hlt', not_lt.1 (of_decide_eq_false hnn)⟩

/-- `set_normalized_timespec` ends, and keeps the total -/
theorem normalized_spec (l : Long) (sec : ℤ) {nsec : ℤ} (hfit : Fits 64 nsec) :
    ∃ ts, Returns (setNormalizedTimespec l sec nsec) ts ∧ ts.Normal ∧ ts.ns = sec * nsecPerSec + nsec := by
  obtain ⟨⟨sec₁, nsec₁⟩, hdown, htotal₁, hfit₁, hlt₁⟩ := normDown_spec sec hfit
  obtain ⟨⟨sec₂, nsec₂⟩, hup, htotal₂, hlt₂, hnn₂⟩ := normUp_spec sec₁ hfit₁ hlt₁
  dsimp only at htotal₁ htotal₂ hlt₂ hnn₂
  have hconv : conv l.width nsec₂ = nsec₂ :=
    conv_of_fits l.width_pos (fits_long l hnn₂ (by simp only [nsecPerSec] at hlt₂ ⊢; omega))
  refine ⟨⟨sec₂, nsec₂⟩, ?_, ⟨hnn₂, hlt₂⟩, htotal₂.trans htotal₁⟩
  apply hdown.bind
  apply hup.bind
  rw [hconv]
  exact Returns.ok _

variable (f : DelayFn) (l : Long) (arg : BitVec 32)

/-- the nanoseconds that a delay passes on are the ones of `tv_nsec` -/
theorem tsInc_tvNsec : (tsInc l (f.split arg).1 (f.split arg).2).tvNsec = (arg.toNat % f.perSec * f.unit : ℕ) := by
  have hlt := f.rest_lt arg
  rw [tsInc, (f.split_toNat arg).2]
  exact conv_of_fits l.width_pos (fits_long l (by positivity) (by simp only [nsecPerSec] at hlt ⊢; omega))

theorem deadline_spec {cur : Timespec} (hcur : cur.Normal) :
    ∃ ts, Returns (f.deadline l arg cur) ts ∧ ts.Normal ∧ ts.ns = cur.ns + f.duration arg := by
  have hlt := f.rest_lt arg
  have hinc := tsInc_tvNsec f l arg
  obtain ⟨hnn, hcurlt⟩ := hcur
  set rest : ℕ := arg.toNat % f.perSec * f.unit with hrest
  have hsum : Fits l.width (cur.tvNsec + rest) :=
    fits_long l (by positivity) (by simp only [nsecPerSec] at hlt hcurlt ⊢; omega)
  have hsum64 : Fits 64 (cur.tvNsec + rest) := by
    simp only [nsecPerSec] at hlt hcurlt
    exact fits64_iff.2 (by omega)
  obtain ⟨ts, hret, hnormal, htotal⟩ :=
    normalized_spec l (cur.tvSec + (tsInc l (f.split arg).1 (f.split arg).2).tvSec) hsum64
  refine ⟨ts, ?_, hnormal, ?_⟩
  · obtain ⟨n, hn⟩ := hret
    refine ⟨n, fun m hm => ?_⟩
    rw [DelayFn.deadline, timespecAddSafe, hinc, checked_of_fits hsum, ok_bind, conv_of_fits (by decide) hsum64]
    exact hn m hm
  · have hparts := f.parts_eq_duration arg
    rw [← hrest] at hparts
    rw [htotal, Timespec.ns, ← hparts]
    simp only [tsInc, (f.split_toNat arg).1]
    ring

/-- the arithmetic of a delay from the time `cur` -/
structure DelayExact (f : DelayFn) (l : Long) (arg : BitVec 32) (cur : Timespec) : Prop where
  /-- no product of 32 bits wraps -/
  product : (f.split arg).2.toNat = arg.toNat % f.perSec * f.unit
  /-- nor does the conversion to `tv_nsec` -/
  tvNsec : (tsInc l (f.split arg).1 (f.split arg).2).tvNsec = (f.split arg).2.toNat
  ends : ∀ sec nsec, Fits 64 nsec → ∃ ts, Returns (setNormalizedTimespec l sec nsec) ts
  deadline : ∃ ts, Returns (f.deadline l arg cur) ts ∧ ts.Normal ∧ ts.ns = cur.ns + f.duration arg

/-- **Delay arithmetic is exact.** No value overflows, and the deadline is the time plus the requested duration. -/
theorem delay_deadline_exact {cur : Timespec} (hcur : cur.Normal) : DelayExact f l arg cur where
  product := (f.split_toNat arg).2
  tvNsec := by rw [tsInc_tvNsec, (f.split_toNat arg).2]
  ends := by
    intro sec nsec hfit
    obtain ⟨ts, hts, -⟩ := normalized_spec l sec hfit
    exact ⟨ts, hts⟩
  deadline := deadline_spec f l arg hcur

theorem delay_deadline_exact_longest : DelayExact .mssleep .bits32 4294967295 ⟨7, 999999999⟩ :=
  delay_deadline_exact .mssleep .bits32 4294967295 (by decide)

/-! ## How long a delay lasts -/

variable {f l arg} {w : World}

theorem clockGettime_normal (w : World) : (clockGettime w).2.Normal :=
  ⟨Int.emod_nonneg _ (by decide), Int.emod_lt_of_pos _ (by decide)⟩

theorem clockGettime_ns (w : World) : (clockGettime w).2.ns = w.now := Int.ediv_mul_add_emod _ _

/-- a call whose `clock_gettime` succeeds: it makes the deadline and enters the loop -/
theorem call_of_gettime (hok : 0 ≤ w.gettimeRet) (n : ℕ) : f.call l arg n w =
    f.deadline l arg (clockGettime w).2 n >>= fun ts =>
      doWhile .stuck (fun s => decide (s.1 < 0)) (fun s => .ok (clockNanosleep ts s.2)) n
        (w.gettimeRet, { w with now := w.now + w.lag }) >>= fun s => .ok s.2 := by
  rw [f.call_eq]
  exact if_neg (not_lt.2 hok)

/-- `clock_nanosleep` never gives a negative result -/
theorem clockNanosleep_nonneg (ts : Timespec) (w : World) : 0 ≤ (clockNanosleep ts w).1 := by
  unfold clockNanosleep
  by_cases hnormal : ¬ ts.Normal
  · rw [if_pos hnormal]
    exact Int.natCast_nonneg 22
  rw [if_neg hnormal]
  by_cases hpast : ts.ns ≤ w.now
  · rw [if_pos hpast]
  rw [if_neg hpast]
  rcases w.signals with _ | ⟨s, signals⟩
  · exact le_rfl
  · by_cases hcut : w.now + s.after < ts.ns
    · simp only [if_pos hcut]
      exact Int.natCast_nonneg 4
    · simp only [if_neg hcut]
      exact le_rfl

/-- a sleep lasts until its deadline iff the next signal does not make the thread run again before -/
theorem clockNanosleep_reaches {ts : Timespec} (hts : ts.Normal) (w : World) :
    ts.ns ≤ (clockNanosleep ts w).2.now ↔ ∀ s ∈ w.signals.head?, ts.ns ≤ w.now + s.after + s.late := by
  unfold clockNanosleep
  rw [if_neg (not_not.2 hts)]
  by_cases hpast : ts.ns ≤ w.now
  · rw [if_pos hpast]
    exact iff_of_true hpast fun s _ => by omega
  rw [if_neg hpast]
  rcases w.signals with _ | ⟨s, signals⟩
  · exact iff_of_true (by dsimp only; omega) (by simp)
  · simp only [List.head?_cons, Option.mem_def, Option.some.injEq, forall_eq']
    by_cases hcut : w.now + s.after < ts.ns
    · rw [if_pos hcut]
    · rw [if_neg hcut]
      exact iff_of_true (by dsimp only; omega) (by omega)

/-- the loop sleeps once -/
theorem call_returns (f : DelayFn) (l : Long) (arg : BitVec 32) (hok : 0 ≤ w.gettimeRet) :
    ∃ ts : Timespec, ts.Normal ∧ ts.ns = w.now + f.duration arg ∧
      Returns (fun n => f.call l arg n w) (clockNanosleep ts { w with now := w.now + w.lag }).2 := by
  obtain ⟨ts, hret, hnormal, hns⟩ := deadline_spec f l arg (clockGettime_normal w)
  rw [clockGettime_ns] at hns
  refine ⟨ts, hnormal, hns, ?_⟩
  simp only [call_of_gettime hok]
  apply hret.bind
  have hstop : decide ((clockNanosleep ts { w with now := w.now + w.lag }).1 < 0) = false :=
    decide_eq_false (not_lt.2 (clockNanosleep_nonneg ts _))
  have hloop : Returns (fun n => doWhile DelayFault.stuck (fun s : ℤ × World => decide (s.1 < 0))
      (fun s => .ok (clockNanosleep ts s.2)) n (w.gettimeRet, { w with now := w.now + w.lag })) _ :=
    returns_doWhile_once rfl hstop
  exact hloop.bind (Returns.ok _)

/-- **When a delay is not shorter than requested.** If `clock_gettime` succeeds the call returns, and it returns at or
after the requested time iff the first signal, if there is one, does not make the thread run again before. -/
theorem delay_never_short_iff (f : DelayFn) (l : Long) (arg : BitVec 32) (w : World) (hok : 0 ≤ w.gettimeRet) :
    ∃ t, Returns (fun n => f.call l arg n w) t ∧
      (w.now + f.duration arg ≤ t.now ↔ ∀ s ∈ w.signals.head?, f.duration arg ≤ w.lag + s.after + s.late) := by
  obtain ⟨ts, hnormal, hns, hret⟩ := call_returns f l arg hok
  refine ⟨_, hret, ?_⟩
  rw [← hns, clockNanosleep_reaches hnormal, hns]
  refine forall₂_congr fun s _ => ?_
  dsimp only
  omega

/-- the clear pulse of an FPGA of 20 ms; a signal comes after 1 ms -/
def clearPulse : World := ⟨5000000000, 0, 0, [⟨1000000, 0⟩], 0⟩

theorem delay_never_short_iff_clearPulse :
    ∃ t, Returns (fun n => DelayFn.ussleep.call .bits64 20000 n clearPulse) t ∧
      (clearPulse.now + DelayFn.ussleep.duration 20000 ≤ t.now ↔
        ∀ s ∈ clearPulse.signals.head?, DelayFn.ussleep.duration 20000 ≤ clearPulse.lag + s.after + s.late) :=
  delay_never_short_iff .ussleep .bits64 20000 clearPulse (by decide)

/-- it is over after 1 ms -/
theorem clearPulse_short : ¬ ∀ (f : DelayFn) (l : Long) (arg : BitVec 32) (w : World), 0 ≤ w.gettimeRet →
    ∀ t, Returns (fun n => f.call l arg n w) t → w.now + f.duration arg ≤ t.now := by
  intro hall
  have hok : 0 ≤ clearPulse.gettimeRet := by decide
  obtain ⟨ts, hnormal, hns, hret⟩ := call_returns .ussleep .bits64 20000 hok
  have hlong := hall .ussleep .bits64 20000 clearPulse (by decide) _ hret
  rw [← hns, clockNanosleep_reaches hnormal, hns] at hlong
  exact absurd (hlong ⟨1000000, 0⟩ rfl) (by decide)

end LinuxDrv.Udf
