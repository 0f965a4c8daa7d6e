/-
The library of a kernel-mode driver (`th_lib/udf_dth.c` and `th_lib/udf_dth_uif.c` of the template): handles, the
mapping of the registers, and the download of an FPGA image.

A handle is a file descriptor. The registers of its card are mapped when it is opened, and the address and the size of
the mapping are kept in `g_store_cpld_info`, of which there is one for all handles. The user-mode counterpart
(`th/udf_dth.c`) keeps them in the handle.

What the kernel returns is an argument. It gives no descriptor and no address that is in use, maps nothing for a
descriptor that is not open, and has nothing at NULL. `fds` has the mapping that the open of a handle made, and `last`
the handle that the last open returned, if it returned one; no code reads these two.
- `Usable`: a download through the handle writes to its mapping, and its release unmaps it.
- `open_inv`, `release_inv`: `LibInv` is kept. It says that `g_store_cpld_info` is the mapping of the handle opened
  last.
- `handles_independent_iff`: so the handles are independent in a run iff it only uses the handle opened last.
-/
import LinuxDrv.Driver.Ext
import LinuxDrv.Core.Outcome

namespace LinuxDrv.Udf

open LinuxDrv.Core LinuxDrv.Driver

/-- a file descriptor, or a negative error -/
abbrev Fd := ℤ

structure LibSt where
  /-- `g_store_cpld_info.pcpld` -/
  pcpld : Option Ptr
  /-- `g_store_cpld_info.mem_size` -/
  memSize : ℕ
  /-- the sizes of the mappings, by their addresses -/
  maps : Ptr → Option ℕ
  /-- the handles that are open -/
  fds : Fd → Option (Option (Ptr × ℕ))
  last : Option Fd

def LibSt.load : LibSt := ⟨none, 0, fun _ => none, fun _ => none, none⟩

/-- memory is used that is not mapped -/
inductive LibFault where
  | segv
deriving DecidableEq

/-- what the kernel answers to an open: `open`, the size query (none if it fails), and `mmap` -/
structure OpenEnv where
  fd : Fd
  memSize : Option ℕ
  mmap : Option Ptr

/-- what the system answers when the image file is read: `open`, `fstat`, `malloc`, `read` -/
structure FileEnv where
  openRet : ℤ
  fstatRet : ℤ
  malloc : Bool
  readRet : ℤ

/-! ## The kernel -/

def openFd (want : Fd) (s : LibSt) : Fd := if 0 ≤ want ∧ s.fds want ≠ none then -1 else want

def mmap (fd : Fd) (size : ℕ) (want : Option Ptr) (s : LibSt) : Option Ptr :=
  want.filter fun a => 0 ≤ fd ∧ size ≠ 0 ∧ s.maps a = none

def munmap (addr : Option Ptr) (size : ℕ) (maps : Ptr → Option ℕ) : Ptr → Option ℕ :=
  match addr with
  | some a => if size = 0 then maps else Function.update maps a none
  | none => maps

/-! ## The library -/

/-- `udf_get_mem_size` -/
def udfGetMemSize (fd : Fd) (answer : Option ℕ) (memSize : ℕ) : ℕ := if 0 ≤ fd then answer.getD memSize else memSize

/-- `udf_th_capture_hw_addr` -/
def udfThCaptureHwAddr (fd : Fd) (env : OpenEnv) (s : LibSt) : Option Ptr × LibSt :=
  let s := { s with memSize := udfGetMemSize fd env.memSize s.memSize }
  match mmap fd s.memSize env.mmap s with
  | some a => (some a, { s with maps := Function.update s.maps a (some s.memSize) })
  | none => (none, s)

/-- `udf_th_open`; the slot selects the device file only -/
def udfThOpen (env : OpenEnv) (s : LibSt) : Fd × LibSt :=
  let fd := openFd env.fd s
  let x := udfThCaptureHwAddr fd env s
  (fd, { x.2 with
    pcpld := x.1
    fds := if 0 ≤ fd then Function.update s.fds fd (some (x.1.map fun a => (a, x.2.memSize))) else s.fds
    last := if 0 ≤ fd then some fd else none })

/-- `udf_th_release` -/
def udfThRelease (fd : Fd) (s : LibSt) : LibSt :=
  { s with maps := munmap s.pcpld s.memSize s.maps, fds := Function.update s.fds fd none }

/-- `udf_download_fpga`: the mapping whose registers it writes -/
def udfDownloadFpga (s : LibSt) : Except LibFault Ptr :=
  match s.pcpld with
  | some a => if s.maps a = none then .error .segv else .ok a
  | none => .error .segv

/-- the image file can be read -/
def FileEnv.Loads (f : FileEnv) : Prop := 0 ≤ f.openRet ∧ 0 ≤ f.fstatRet ∧ f.malloc = true ∧ 0 ≤ f.readRet

instance (f : FileEnv) : Decidable f.Loads := inferInstanceAs (Decidable (_ ∧ _ ∧ _ ∧ _))

/-- `udf_rep_is_err_encap` -/
def udfRepIsErr (rep : Fd) : Prop := rep ≤ 0

instance (rep : Fd) : Decidable (udfRepIsErr rep) := inferInstanceAs (Decidable (rep ≤ 0))

/-- `udf_open_encap` -/
def udfOpenEncap (_slot : ℤ) (env : OpenEnv) (s : LibSt) : Fd × LibSt := udfThOpen env s

/-- `udf_release_encap` -/
def udfReleaseEncap (rep : Fd) (s : LibSt) : LibSt := udfThRelease rep s

/-- `udf_download_fpga_encap`: the mapping it writes to, if it comes so far -/
def udfDownloadFpgaEncap (_rep : Fd) (f : FileEnv) (s : LibSt) : Except LibFault (Option Ptr) :=
  if f.Loads then some <$> udfDownloadFpga s else .ok none

/-! ## Runs -/

inductive LibOp where
  | openEncap (slot : ℤ) (env : OpenEnv)
  | releaseEncap (rep : Fd)
  | downloadFpgaEncap (rep : Fd) (f : FileEnv)

def libStep (s : LibSt) : LibOp → Except LibFault LibSt
  | .openEncap slot env => .ok (udfOpenEncap slot env s).2
  | .releaseEncap rep => .ok (udfReleaseEncap rep s)
  | .downloadFpgaEncap rep f => (fun _ => s) <$> udfDownloadFpgaEncap rep f s

/-! ## Independence -/

/-- the mapping that the open of a handle made, if the handle is open and has one -/
def LibSt.mapping (s : LibSt) (h : Fd) : Option (Ptr × ℕ) := (s.fds h).join

/-- the mapping of the handle opened last -/
def LibSt.current (s : LibSt) : Option (Ptr × ℕ) := s.last.bind s.mapping

/-- a download through the handle writes to its mapping, and its release unmaps it -/
def Usable (s : LibSt) (h : Fd) : Prop :=
  ∃ m, s.mapping h = some m ∧ s.pcpld = some m.1 ∧ s.memSize = m.2 ∧ s.maps m.1 ≠ none

/-- the kernel gives no descriptor that counts as a handle, or no mapping -/
def OpenFails (env : OpenEnv) (s : LibSt) : Prop :=
  udfRepIsErr (openFd env.fd s) ∨
    mmap (openFd env.fd s) (udfGetMemSize (openFd env.fd s) env.memSize s.memSize) env.mmap s = none

/-- an open that fails leaves the usable handles usable, a release unmaps the mapping of its handle, with its size, or
nothing if it has none, and a download writes to the mapping of its handle, if it comes to writing -/
def Independent (s : LibSt) : LibOp → Prop
  | .openEncap slot env => OpenFails env s → ∀ h, Usable s h → Usable (udfOpenEncap slot env s).2 h
  | .releaseEncap h =>
    match s.mapping h with
    | some m => s.pcpld = some m.1 ∧ s.memSize = m.2
    | none => (udfReleaseEncap h s).maps = s.maps
  | .downloadFpgaEncap h f => udfDownloadFpgaEncap h f s = .ok none ∨
    ∃ m, s.mapping h = some m ∧ udfDownloadFpgaEncap h f s = .ok (some m.1)

/-- no open fails while the handle opened last has a mapping, a handle is released that was opened last, or has no
mapping when the one opened last has none either, and a download is through the handle opened last -/
def UsesLast (s : LibSt) : LibOp → Prop
  | .openEncap _ env => OpenFails env s → s.current = none
  | .releaseEncap h => s.mapping h = s.current
  | .downloadFpgaEncap h f => f.Loads → s.mapping h ≠ none ∧ s.mapping h = s.current

/-! ## The invariant -/

structure LibInv (s : LibSt) : Prop where
  live : ∀ h m, s.mapping h = some m → s.maps m.1 = some m.2 ∧ m.2 ≠ 0
  inj : ∀ h g m m', s.mapping h = some m → s.mapping g = some m' → m.1 = m'.1 → h = g
  store : ∀ m, s.current = some m → s.pcpld = some m.1 ∧ s.memSize = m.2
  last : ∀ a, s.pcpld = some a → s.maps a ≠ none → ∃ m, s.current = some m ∧ m.1 = a

theorem load_libInv : LibInv LibSt.load where
  live := fun _ _ h => nomatch h
  inj := fun _ _ _ _ h => nomatch h
  store := fun _ h => nomatch h
  last := fun _ h => nomatch h

theorem mmap_eq_some {fd : Fd} {size : ℕ} {want : Option Ptr} {s : LibSt} {a : Ptr} (h : mmap fd size want s = some a) :
    0 ≤ fd ∧ size ≠ 0 ∧ s.maps a = none := by
  unfold mmap at h
  rw [Option.filter_eq_some_iff] at h
  exact of_decide_eq_true h.2

theorem openFd_new {want : Fd} {s : LibSt} (h : 0 ≤ openFd want s) : s.fds (openFd want s) = none := by
  unfold openFd at h ⊢
  split_ifs at h ⊢ with hw
  · exact absurd h (by decide)
  · by_contra hne
    exact hw ⟨h, hne⟩

section Invariant

variable {s : LibSt}

theorem mapping_update (fd : Fd) (x : Option (Option (Ptr × ℕ))) (h : Fd) {t : LibSt}
    (ht : t.fds = Function.update s.fds fd x) : t.mapping h = if h = fd then x.join else s.mapping h := by
  unfold LibSt.mapping
  rw [ht]
  by_cases hfd : h = fd
  · rw [hfd, Function.update_self, if_pos rfl]
  · rw [Function.update_of_ne hfd, if_neg hfd]

/-- what an open leaves: nothing is mapped, or a new handle has a new mapping -/
theorem open_cases (env : OpenEnv) (s : LibSt) :
    (∃ n fds, (udfThOpen env s).2 = ⟨none, n, s.maps, fds, (udfThOpen env s).2.last⟩ ∧
      (∀ h, (udfThOpen env s).2.mapping h = s.mapping h) ∧ (udfThOpen env s).2.current = none) ∨
    ∃ a n, n ≠ 0 ∧ s.maps a = none ∧ s.mapping (openFd env.fd s) = none ∧
      (udfThOpen env s).2 = ⟨some a, n, Function.update s.maps a (some n),
        Function.update s.fds (openFd env.fd s) (some (some (a, n))), some (openFd env.fd s)⟩ := by
  generalize hfd : openFd env.fd s = fd
  have hnew : 0 ≤ fd → s.mapping fd = none := by
    rintro h0
    rw [LibSt.mapping, ← hfd, openFd_new (hfd ▸ h0)]
    rfl
  rcases hmap : mmap fd (udfGetMemSize fd env.memSize s.memSize) env.mmap s with _ | a
  · left
    have heq : udfThOpen env s = (fd, ⟨none, udfGetMemSize fd env.memSize s.memSize, s.maps,
        if 0 ≤ fd then Function.update s.fds fd (some none) else s.fds, if 0 ≤ fd then some fd else none⟩) := by
      unfold udfThOpen udfThCaptureHwAddr
      simp only [hfd]
      rw [show mmap fd (udfGetMemSize fd env.memSize s.memSize) env.mmap
        { s with memSize := udfGetMemSize fd env.memSize s.memSize } = none from hmap]
      rfl
    rw [heq]
    refine ⟨_, _, rfl, ?_⟩
    by_cases h0 : 0 ≤ fd
    · simp only [h0, ↓reduceIte]
      have hmapping : ∀ h, LibSt.mapping ⟨none, udfGetMemSize fd env.memSize s.memSize, s.maps,
          Function.update s.fds fd (some none), some fd⟩ h = s.mapping h := by
        intro h
        rw [mapping_update fd (some none) h rfl]
        split_ifs with hh
        · rw [hh, hnew h0]
          rfl
        · rfl
      exact ⟨hmapping, (hmapping fd).trans (hnew h0)⟩
    · simp only [h0, ↓reduceIte]
      exact ⟨fun _ => rfl, rfl⟩
  · right
    obtain ⟨h0, hsize, hfree⟩ := mmap_eq_some hmap
    refine ⟨a, udfGetMemSize fd env.memSize s.memSize, hsize, hfree, hnew h0, ?_⟩
    unfold udfThOpen udfThCaptureHwAddr
    simp only [hfd]
    rw [show mmap fd (udfGetMemSize fd env.memSize s.memSize) env.mmap
      { s with memSize := udfGetMemSize fd env.memSize s.memSize } = some a from hmap]
    simp only [h0, ↓reduceIte, Option.map_some]

/-- an open that maps nothing leaves no handle whose mapping is the one opened last -/
theorem LibInv.unmapped (h : LibInv s) {t : LibSt} (hmaps : t.maps = s.maps) (hmapping : t.mapping = s.mapping)
    (hcur : t.current = none) (hpcpld : t.pcpld = none) : LibInv t := by
  exact {
    live := by
      intro g m hg
      rw [hmapping] at hg
      exact hmaps ▸ h.live g m hg
    inj := by
      intro g g' m m' hg hg'
      rw [hmapping] at hg hg'
      exact h.inj g g' m m' hg hg'
    store := by
      intro m hm
      rw [hcur] at hm
      cases hm
    last := by
      intro a ha
      rw [hpcpld] at ha
      cases ha }

/-- a handle gets a mapping at an address where nothing is mapped -/
theorem LibInv.mapped (h : LibInv s) {a : Ptr} {n : ℕ} (hn : n ≠ 0) (hfree : s.maps a = none) (fd : Fd) :
    LibInv ⟨some a, n, Function.update s.maps a (some n), Function.update s.fds fd (some (some (a, n))), some fd⟩ := by
  -- only the new handle has the new address
  have hold : ∀ g m, s.mapping g = some m → m.1 ≠ a := by
    rintro g m hg rfl
    rw [(h.live g m hg).1] at hfree
    cases hfree
  have hmapping := fun g => mapping_update (s := s) fd (some (some (a, n))) g (t := ⟨some a, n,
    Function.update s.maps a (some n), Function.update s.fds fd (some (some (a, n))), some fd⟩) rfl
  have hcases : ∀ g m, LibSt.mapping ⟨some a, n, Function.update s.maps a (some n),
      Function.update s.fds fd (some (some (a, n))), some fd⟩ g = some m →
      (g = fd ∧ m = (a, n)) ∨ (g ≠ fd ∧ s.mapping g = some m) := by
    intro g m hg
    rw [hmapping] at hg
    split_ifs at hg with hgf
    · exact Or.inl ⟨hgf, (Option.some.inj hg).symm⟩
    · exact Or.inr ⟨hgf, hg⟩
  have hcur : LibSt.current ⟨some a, n, Function.update s.maps a (some n),
      Function.update s.fds fd (some (some (a, n))), some fd⟩ = some (a, n) := (hmapping fd).trans (if_pos rfl)
  exact {
    live := by
      intro g m hg
      rcases hcases g m hg with ⟨-, rfl⟩ | ⟨-, hg⟩
      · exact ⟨Function.update_self .., hn⟩
      · exact ⟨(Function.update_of_ne (hold g m hg) ..).trans (h.live g m hg).1, (h.live g m hg).2⟩
    inj := by
      intro g g' m m' hg hg' haa
      rcases hcases g m hg with ⟨rfl, rfl⟩ | ⟨-, hgo⟩ <;> rcases hcases g' m' hg' with ⟨rfl, rfl⟩ | ⟨-, hgo'⟩
      · rfl
      · exact absurd haa.symm (hold g' m' hgo')
      · exact absurd haa (hold g m hgo)
      · exact h.inj g g' m m' hgo hgo' haa
    store := by
      intro m hm
      rw [hcur, Option.some.injEq] at hm
      subst hm
      exact ⟨rfl, rfl⟩
    last := by
      intro b hb _
      exact ⟨(a, n), hcur, Option.some.inj hb⟩ }

theorem open_inv (h : LibInv s) (env : OpenEnv) : LibInv (udfThOpen env s).2 := by
  rcases open_cases env s with ⟨n, fds, heq, hmapping, hcur⟩ | ⟨a, n, hn, hfree, hnone, heq⟩
  · have hmaps : (udfThOpen env s).2.maps = s.maps := by rw [heq]
    have hpcpld : (udfThOpen env s).2.pcpld = none := by rw [heq]
    exact h.unmapped hmaps (funext hmapping) hcur hpcpld
  · rw [heq]
    exact h.mapped hn hfree _

/-- the handle whose mapping is that of the handle opened last is that handle -/
theorem LibInv.eq_last (h : LibInv s) {g : Fd} {m m' : Ptr × ℕ} (hg : s.mapping g = some m) (hm : s.current = some m')
    (ha : m.1 = m'.1) : s.last = some g ∧ m = m' := by
  unfold LibSt.current at hm
  rcases hl : s.last with _ | l
  · rw [hl] at hm
    cases hm
  · rw [hl, Option.bind_some] at hm
    have hgl : g = l := h.inj g l m m' hg hm ha
    subst hgl
    rw [hg, Option.some.injEq] at hm
    exact ⟨rfl, hm⟩

/-- the address in `g_store_cpld_info` is mapped for the handle that has the mapping -/
theorem LibInv.stored (h : LibInv s) {g : Fd} {m : Ptr × ℕ} (hg : s.mapping g = some m) (ha : s.pcpld = some m.1) :
    s.current = some m := by
  have hlive : s.maps m.1 ≠ none := by
    rw [(h.live g m hg).1]
    simp
  obtain ⟨m', hm', ham⟩ := h.last m.1 ha hlive
  rw [hm', (h.eq_last hg hm' ham.symm).2]

/-- if the handle opened last has no mapping, `g_store_cpld_info` has the address of none -/
theorem LibInv.dangling (h : LibInv s) (hcur : s.current = none) : munmap s.pcpld s.memSize s.maps = s.maps := by
  unfold munmap
  rcases hp : s.pcpld with _ | a
  · rfl
  dsimp only
  split_ifs
  · rfl
  · have hdead : s.maps a = none := by
      by_contra hne
      obtain ⟨m, hm, -⟩ := h.last a hp hne
      rw [hcur] at hm
      cases hm
    rw [← hdead]
    exact Function.update_eq_self a s.maps

theorem release_inv (h : LibInv s) {g : Fd} (hg : s.mapping g = s.current) : LibInv (udfThRelease g s) := by
  have hmapping := fun k => mapping_update (s := s) g none k (t := udfThRelease g s) rfl
  have hold : ∀ k m, (udfThRelease g s).mapping k = some m → k ≠ g ∧ s.mapping k = some m := by
    intro k m hk
    rw [hmapping] at hk
    split_ifs at hk with hkg
    · cases hk
    · exact ⟨hkg, hk⟩
  have hcur : (udfThRelease g s).current = none := by
    show s.last.bind (udfThRelease g s).mapping = none
    rcases hl : s.last with _ | l
    · rfl
    rw [Option.bind_some, hmapping]
    split_ifs with hlg
    · rfl
    · -- g has the mapping of another handle, so there is none
      have hl' : s.current = s.mapping l := by rw [LibSt.current, hl]; rfl
      by_contra hne
      obtain ⟨m, hm⟩ := Option.ne_none_iff_exists'.1 hne
      exact hlg (h.inj l g m m hm (hg.trans (hl'.trans hm)) rfl)
  have hinj : ∀ k k' m m', (udfThRelease g s).mapping k = some m → (udfThRelease g s).mapping k' = some m' →
      m.1 = m'.1 → k = k' := fun k k' m m' hk hk' => h.inj k k' m m' (hold k m hk).2 (hold k' m' hk').2
  rcases hc : s.current with _ | m₀
  · have hmaps : (udfThRelease g s).maps = s.maps := h.dangling hc
    refine ⟨?_, hinj, ?_, ?_⟩
    · intro k m hk
      exact hmaps ▸ h.live k m (hold k m hk).2
    · intro m hm
      rw [hcur] at hm
      cases hm
    · intro a ha hne
      obtain ⟨m, hm, -⟩ := h.last a ha (hmaps ▸ hne)
      rw [hc] at hm
      cases hm
  · obtain ⟨hp, hsize⟩ := h.store m₀ hc
    have hmaps : (udfThRelease g s).maps = Function.update s.maps m₀.1 none := by
      show munmap s.pcpld s.memSize s.maps = _
      rw [hp, munmap, if_neg (hsize ▸ (h.live g m₀ (hg.trans hc)).2)]
    refine ⟨?_, hinj, ?_, ?_⟩
    · intro k m hk
      obtain ⟨hkg, hk⟩ := hold k m hk
      have hne : m.1 ≠ m₀.1 := fun he => hkg (h.inj k g m m₀ hk (hg.trans hc) he)
      rw [hmaps, Function.update_of_ne hne]
      exact h.live k m hk
    · intro m hm
      rw [hcur] at hm
      cases hm
    · intro a ha hne
      rw [hmaps] at hne
      have ha' : m₀.1 = a := Option.some.inj (hp.symm.trans ha)
      rw [← ha', Function.update_self] at hne
      exact absurd rfl hne

end Invariant

/-! ## Runs -/

/-- under the invariant a handle is usable iff its mapping is that of the handle opened last -/
theorem usable_iff {s : LibSt} (h : LibInv s) (g : Fd) : Usable s g ↔ s.mapping g ≠ none ∧ s.mapping g = s.current := by
  constructor
  · rintro ⟨m, hg, hp, -, -⟩
    rw [hg, h.stored hg hp]
    exact ⟨by simp, rfl⟩
  · rintro ⟨hne, hg⟩
    obtain ⟨m, hm⟩ := Option.ne_none_iff_exists'.1 hne
    obtain ⟨hp, hsize⟩ := h.store m (hg.symm.trans hm)
    refine ⟨m, hm, hp, hsize, ?_⟩
    rw [(h.live g m hm).1]
    simp

/-- an open that fails leaves no handle usable that was -/
theorem open_fails_unusable {s : LibSt} (env : OpenEnv) {g : Fd} (hg : Usable s g) :
    ¬ Usable (udfThOpen env s).2 g := by
  rintro ⟨m, hm, hp, -, -⟩
  obtain ⟨m₀, hm₀, -, -, hlive⟩ := hg
  rcases open_cases env s with ⟨n, fds, heq, -, -⟩ | ⟨a, n, -, hfree, hnone, heq⟩
  · rw [heq] at hp
    cases hp
  · have hgf : g ≠ openFd env.fd s := by
      rintro rfl
      rw [hnone] at hm₀
      cases hm₀
    rw [heq] at hm hp
    rw [mapping_update (openFd env.fd s) _ g rfl, if_neg hgf, hm₀, Option.some.injEq] at hm
    have ha : a = m₀.1 := (Option.some.inj hp).trans (hm ▸ rfl)
    exact hlive (ha ▸ hfree)

theorem download_ok {s : LibSt} (h : LibInv s) {g : Fd} {m : Ptr × ℕ} (hg : s.mapping g = some m)
    (hp : s.pcpld = some m.1) : udfDownloadFpga s = .ok m.1 := by
  unfold udfDownloadFpga
  rw [hp]
  simp [(h.live g m hg).1]

/-- a download that does not fault writes at the address in `g_store_cpld_info` -/
theorem download_stored {s : LibSt} {a : Ptr} (hd : udfDownloadFpga s = .ok a) : s.pcpld = some a := by
  unfold udfDownloadFpga at hd
  rcases hp : s.pcpld with _ | b
  · rw [hp] at hd
    cases hd
  · rw [hp] at hd
    dsimp only at hd
    split_ifs at hd
    exact congrArg some (Except.ok.inj hd)

theorem open_independent_iff {s : LibSt} (h : LibInv s) (slot : ℤ) (env : OpenEnv) :
    Independent s (.openEncap slot env) ↔ UsesLast s (.openEncap slot env) := by
  refine forall_congr' fun _ => ?_
  constructor
  · intro huse
    by_contra hne
    obtain ⟨m, hm⟩ := Option.ne_none_iff_exists'.1 hne
    obtain ⟨l, -, hl⟩ := Option.bind_eq_some_iff.1 hm
    have hlu : Usable s l := (usable_iff h l).2 ⟨by rw [hl]; simp, hl.trans hm.symm⟩
    exact open_fails_unusable env hlu (huse l hlu)
  · intro hcur g hg
    obtain ⟨hne, heq⟩ := (usable_iff h g).1 hg
    exact absurd (heq.trans hcur) hne

theorem release_independent_iff {s : LibSt} (h : LibInv s) (g : Fd) :
    Independent s (.releaseEncap g) ↔ UsesLast s (.releaseEncap g) := by
  show (match s.mapping g with
    | some m => s.pcpld = some m.1 ∧ s.memSize = m.2
    | none => (udfReleaseEncap g s).maps = s.maps) ↔ s.mapping g = s.current
  rcases hg : s.mapping g with _ | m
  · constructor
    · intro hmaps
      by_contra hne
      obtain ⟨m, hm⟩ := Option.ne_none_iff_exists'.1 (Ne.symm hne)
      obtain ⟨hp, hsize⟩ := h.store m hm
      obtain ⟨l, -, hl⟩ := Option.bind_eq_some_iff.1 hm
      obtain ⟨hlive, hpos⟩ := h.live l m hl
      -- the mapping of the handle opened last is unmapped
      have hgone := congrFun hmaps m.1
      simp only [udfReleaseEncap, udfThRelease, hp, munmap, if_neg (hsize ▸ hpos), Function.update_self] at hgone
      rw [hlive] at hgone
      cases hgone
    · intro hcur
      exact h.dangling hcur.symm
  · constructor
    · intro hst
      exact (h.stored hg hst.1).symm
    · intro hcur
      exact h.store m hcur.symm

theorem download_independent_iff {s : LibSt} (h : LibInv s) (g : Fd) (f : FileEnv) :
    Independent s (.downloadFpgaEncap g f) ↔ UsesLast s (.downloadFpgaEncap g f) := by
  show (udfDownloadFpgaEncap g f s = .ok none ∨
    ∃ m, s.mapping g = some m ∧ udfDownloadFpgaEncap g f s = .ok (some m.1)) ↔
      (f.Loads → s.mapping g ≠ none ∧ s.mapping g = s.current)
  unfold udfDownloadFpgaEncap
  by_cases hloads : f.Loads
  · rw [if_pos hloads]
    constructor
    · intro hd _
      have hok : ∃ m, s.mapping g = some m ∧ udfDownloadFpga s = .ok m.1 := by
        rcases hd with hd | ⟨m, hm, hd⟩
        · rcases hx : udfDownloadFpga s with e | a <;> rw [hx] at hd <;> cases hd
        · refine ⟨m, hm, ?_⟩
          rcases hx : udfDownloadFpga s with e | a <;> rw [hx] at hd <;> cases hd
          rfl
      obtain ⟨m, hm, hd⟩ := hok
      rw [hm, h.stored hm (download_stored hd)]
      exact ⟨by simp, rfl⟩
    · intro huse
      obtain ⟨hne, heq⟩ := huse hloads
      obtain ⟨m, hm⟩ := Option.ne_none_iff_exists'.1 hne
      have hp := (h.store m (heq.symm.trans hm)).1
      exact Or.inr ⟨m, hm, by rw [download_ok h hm hp]; rfl⟩
  · rw [if_neg hloads]
    exact iff_of_true (Or.inl rfl) fun hl => absurd hl hloads

/-- under the invariant the two properties of a step agree -/
theorem independent_iff {s : LibSt} (op : LibOp) (h : LibInv s) : Independent s op ↔ UsesLast s op := by
  cases op with
  | openEncap slot env => exact open_independent_iff h slot env
  | releaseEncap g => exact release_independent_iff h g
  | downloadFpgaEncap g f => exact download_independent_iff h g f

theorem libStep_inv {s t : LibSt} {op : LibOp} (h : LibInv s) (huse : UsesLast s op) (ht : libStep s op = .ok t) :
    LibInv t := by
  cases op with
  | openEncap slot env =>
    cases ht
    exact open_inv h env
  | releaseEncap g =>
    cases ht
    exact release_inv h huse
  | downloadFpgaEncap g f =>
    simp only [libStep] at ht
    rcases hx : udfDownloadFpgaEncap g f s with e | a <;> rw [hx] at ht <;> cases ht
    exact h

/-- **Handles are independent iff only the one opened last is used.** In a run of opens, releases and downloads, every
download writes to the mapping of its own handle, which is open, every release unmaps the mapping of its own handle, and
every open that fails leaves the others usable, iff the run only uses the handle that was opened last. -/
theorem handles_independent_iff (ops : List LibOp) :
    Always libStep Independent LibSt.load ops ↔ Always libStep UsesLast LibSt.load ops :=
  always_iff (I := LibInv) (fun _ op h => independent_iff op h) (fun _ _ _ h huse ht => libStep_inv h huse ht)
    load_libInv

/-- two handles are opened: a download through the first writes to the mapping of the second, the release of the first
unmaps the mapping of the second, and if the second open fails a download through the first writes at NULL -/
theorem handles_share_store : let e₁ : OpenEnv := ⟨3, some 4096, some 100⟩
    let e₂ : OpenEnv := ⟨4, some 8192, some 200⟩
    let image : FileEnv := ⟨5, 0, true, 10⟩
    ∃ s t, runFrom libStep LibSt.load [.openEncap 1 e₁, .openEncap 1 e₂] = .ok s ∧
      s.mapping 3 = some (100, 4096) ∧ udfDownloadFpgaEncap 3 image s = .ok (some 200) ∧
      (udfReleaseEncap 3 s).maps 200 = none ∧ (udfReleaseEncap 3 s).maps 100 = some 4096 ∧
      ¬ Independent s (.downloadFpgaEncap 3 image) ∧ ¬ Independent s (.releaseEncap 3) ∧
      runFrom libStep LibSt.load [.openEncap 1 e₁, .openEncap 1 ⟨-13, none, none⟩] = .ok t ∧
      t.mapping 3 = some (100, 4096) ∧ udfDownloadFpgaEncap 3 image t = .error .segv := by
  refine ⟨_, _, rfl, rfl, rfl, rfl, rfl, ?_, ?_, rfl, rfl, rfl⟩
  · rintro (h | ⟨m, hm, h⟩)
    · cases h
    · cases hm
      cases h
  · rintro ⟨h, -⟩
    cases h

end LinuxDrv.Udf
