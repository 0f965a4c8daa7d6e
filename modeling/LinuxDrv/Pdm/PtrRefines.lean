/-
The process manager over pointers does what the one over abstract lists does, in every run.

`RepBut X s q`: q has the state s, and its heaps hold the lists of s and nothing else. A manager that is in no list has
links that are NULL, unless none was ever put there: the manager of a slot that has no card, or a manager in X.
`Rep` is `RepBut` for no X.

One lemma a function says that it keeps this (`_same`, a return code too: `RepRet`). The fault that is excused is
`addLinked`. The abstract `addTail` stops there, the code would go on with two damaged rings. `step_outcome` says that
no event ends in it, so that it is no exception of the theorem at the end.
- `pointers_refine`: from the constructors on, in any run of callbacks and shutdown calls, both return the same or end
  in the same fault.
-/
import LinuxDrv.Core.SameUpTo
import LinuxDrv.Pdm.Pointers

namespace LinuxDrv.Pdm

open LinuxDrv.Core

/-! ## Searches -/

section Search

variable {ι A φ : Type} [DecidableEq ι] [DecidableEq A] {null stuck : φ} {heads : ι → A} {h : Heap A} {L : Lists ι A}
  {l : ι}

/-- from a round on: the entries before the current one did not meet `p`, the others are `rest` -/
theorem whileLoop_find (hr : Rings heads h L) (p : A → Bool) (rest : List A) : ∀ (pre : List A) (n : ℕ),
    L l = pre ++ rest → rest.length ≤ n →
    whileLoop stuck (fun x => decide (x ≠ heads l) && !p x) (fun x => CListHeader.next null x h) n
      (rest.head?.getD (heads l)) = .ok ((rest.find? p).getD (heads l)) := by
  induction rest with
  | nil =>
    intro pre n _ _
    exact whileLoop_done (by simp) n
  | cons x rest ih =>
    intro pre n hl hn
    obtain ⟨n, rfl⟩ : ∃ m, n = m + 1 := ⟨n - 1, by rw [List.length_cons] at hn; omega⟩
    rw [List.length_cons] at hn
    have hne : x ≠ heads l := fun he => hr.head_notMem l l (by simp [hl, ← he])
    rw [List.head?_cons, Option.getD_some]
    cases hp : p x with
    | true => rw [List.find?_cons_of_pos hp, whileLoop_done (by simp [hp])]; rfl
    | false =>
      rw [List.find?_cons_of_neg (by simp [hp]), whileLoop_round (by simp [hp, hne]) (next_eq (hr.next_entry hl))]
      exact ih (pre ++ [x]) n (by simp [hl]) (by omega)

/-- **A search finds the first entry of the list that meets `p`.** -/
theorem listForEachFind_rings (hr : Rings heads h L) (p : A → Bool) {n : ℕ} (hn : (L l).length ≤ n) :
    CListHead.listForEachFind null stuck p (heads l) n h = .ok ((L l).find? p) := by
  rw [CListHead.listForEachFind, next_eq (hr.next_head l), ok_bind,
    whileLoop_find hr p (L l) [] n (List.nil_append _).symm hn, ok_bind]
  cases hf : (L l).find? p with
  | none => simp
  | some x =>
    have hne : x ≠ heads l := fun he => hr.head_notMem l l (he ▸ List.mem_of_find?_eq_some hf)
    simp [hne]

end Search

/-! ## Frames -/

section Frames

variable {ι A φ : Type} [DecidableEq ι] [DecidableEq A] {null : φ} {heads : ι → A} {h h' : Heap A} {L : Lists ι A}
  {l : ι} {x a : A}

/-- the neighbours of an entry are in its ring -/
theorem neighbours_mem (hr : Rings heads h L) (hx : x ∈ L l) : ∃ p s, (h x).prev = some p ∧ (h x).next = some s ∧
    p ∈ heads l :: L l ∧ s ∈ heads l :: L l := by
  obtain ⟨xs, p, s, ys, hat⟩ := Rings.exists_around (hr.nodup l) hx
  have hchain := hr.ring l
  rw [hat.ring] at hchain
  have hlinks := (List.isChain_append_cons_cons.1 hchain).2
  exact ⟨p, s, hlinks.1.prev, (List.isChain_cons_cons.1 hlinks.2).1.next, hat.prev_mem, hat.next_mem⟩

theorem del_other (hr : Rings heads h L) (hx : x ∈ L l) (hdel : CListHeader.del null x h = .ok h')
    (ha : ∀ i, a ∉ heads i :: L i) : h' a = h a := by
  obtain ⟨p, s, hp, hs, hpm, hsm⟩ := neighbours_mem hr hx
  rw [CListHeader.del, hp, hs, sIntDel_eq, ok_bind] at hdel
  cases hdel
  have hap : a ≠ p := fun he => ha l (he ▸ hpm)
  have has : a ≠ s := fun he => ha l (he ▸ hsm)
  have hax : a ≠ x := fun he => ha l (he ▸ List.mem_cons_of_mem _ hx)
  simp [Heap.setPrev, Heap.setNext, Heap.splice, hap, has, hax]

theorem addTail_other (hr : Rings heads h L) (hadd : CListHead.addTail null (heads l) x h = .ok h')
    (ha : ∀ i, a ∉ heads i :: L i) (hax : a ≠ x) : h' a = h a := by
  have hp := hr.prev_head l
  rw [addTail_eq hp] at hadd
  cases hadd
  have hlast : (L l).getLast?.getD (heads l) ∈ heads l :: L l := by
    cases hl : (L l).getLast? with
    | none => exact List.mem_cons_self
    | some y => exact List.mem_cons_of_mem _ (List.mem_of_getLast? hl)
  have hap : a ≠ (L l).getLast?.getD (heads l) := fun he => ha l (he ▸ hlast)
  have hah : a ≠ heads l := fun he => ha l (he ▸ List.mem_cons_self)
  simp [Heap.insert, Heap.setPrev, Heap.setNext, hap, hah, hax]

end Frames

/-! ## Representation -/

variable {ε μ : Type} {E : Env ε μ} {null stuck : Fault}

/-- the nodes of `s_list2Start` -/
def waiting (ps : List MngId) : Lists Unit MngNode := fun _ => ps.map Lists.Node.entry

/-- nothing that `addIn2Start` and `delFrom2Start` look at changed, except that a card may have gone -/
structure Untouched (s t : St ε) : Prop where
  lists : t.lists = s.lists
  list2Start : t.list2Start = s.list2Start
  card : ∀ i, (s.dyn i).cardType = etindevNull → (t.dyn i).cardType = etindevNull

/-- the links of a manager that waits no longer, or has never waited -/
def Unlinked (s : St ε) (hm : Heap MngNode) (p : MngId) : Prop :=
  hm (.entry p) = ⟨none, none⟩ ∨ ∃ i, p = .dyn i ∧ (s.dyn i).cardType = etindevNull

structure RepBut (X : MngId → Prop) (s : St ε) (q : PtrSt ε) : Prop where
  st : q.st = s
  prc : Holds q.prc s
  total : ∀ r, ∃ l, r ∈ s.lists l
  mng : Rings Lists.Node.head q.mng (waiting s.list2Start)
  unlinked : ∀ p ∉ s.list2Start, ¬ X p → Unlinked s q.mng p

abbrev Rep (s : St ε) (q : PtrSt ε) : Prop := RepBut (fun _ => False) s q

/-- what a function with a return code returns -/
def RepRet (x : ℤ × St ε) (y : ℤ × PtrSt ε) : Prop := x.1 = y.1 ∧ Rep x.2 y.2

theorem RepRet.intro {s : St ε} {q : PtrSt ε} (n : ℤ) (h : Rep s q) : RepRet (n, s) (n, q) := ⟨rfl, h⟩

/-- the fault of the abstract lists that the code does not have -/
def IsAddLinked (x : Fault) : Prop := ∃ p, x = .addLinked p

variable {X : MngId → Prop} {s t : St ε} {q : PtrSt ε}

namespace RepBut

/-- what does not reach a list -/
theorem untouched (h : RepBut X s q) (hs : Untouched s t) : RepBut X t { q with st := t } where
  st := rfl
  prc := by
    have hp := h.prc
    rw [Holds] at hp ⊢
    rw [hs.lists]
    exact hp
  total := by
    rw [hs.lists]
    exact h.total
  mng := by
    rw [hs.list2Start]
    exact h.mng
  unlinked := by
    rw [hs.list2Start]
    intro p hp hX
    rcases h.unlinked p hp hX with hnull | ⟨i, hi, hcard⟩
    · exact Or.inl hnull
    · exact Or.inr ⟨i, hi, hs.card i hcard⟩

theorem upd (h : RepBut X s q) {f : St ε → St ε} (hs : Untouched s t) (hf : f s = t) : RepBut X t (q.upd f) := by
  rw [PtrSt.upd, h.st, hf]
  exact h.untouched hs

/-- more managers may be left out -/
theorem weaken {Y : MngId → Prop} (h : RepBut X s q) (hXY : ∀ p, X p → Y p) : RepBut Y s q :=
  { h with unlinked := fun p hp hY => h.unlinked p hp fun hX => hY (hXY p hX) }

theorem isEmpty_prc (h : RepBut X s q) (l : ListId) :
    CListHead.isEmpty (Lists.Node.head l) q.prc = decide (s.lists l = []) := Pointers.isEmpty_holds h.prc l

theorem getFirstEntry_prc (h : RepBut X s q) (l : ListId) :
    CListHead.getFirstEntry (Lists.Node.head l) q.prc = (s.lists l).head?.map Lists.Node.entry := by
  rw [getFirstEntry_rings h.prc, nodesOf, List.head?_map]

theorem isEmpty_mng (h : RepBut X s q) :
    CListHead.isEmpty (Lists.Node.head ()) q.mng = decide (s.list2Start = []) := by
  rw [isEmpty_rings h.mng]
  rcases hl : s.list2Start with _ | ⟨p, ps⟩ <;> simp [waiting]

theorem getFirstEntry_mng (h : RepBut X s q) :
    CListHead.getFirstEntry (Lists.Node.head ()) q.mng = s.list2Start.head?.map Lists.Node.entry := by
  rw [getFirstEntry_rings h.mng, waiting, List.head?_map]

end RepBut

/-! ### The operations of the lists -/

theorem accept_rep (null : Fault) (h : RepBut X s q) (l : ListId) (r : RecId) :
    ∃ q', PtrSt.accept null l r q = .ok q' ∧ RepBut X (s.accept l r) q' := by
  obtain ⟨k, hr⟩ := h.total r
  obtain ⟨hp, hacc, hholds⟩ := accept_holds null h.prc l hr
  refine ⟨⟨q.st.accept l r, hp, q.mng⟩, ?_, ?_⟩
  · rw [PtrSt.accept, hacc, ok_bind]
  · exact ⟨by rw [h.st], hholds, Lists.total_accept h.total l r, h.mng, h.unlinked⟩

theorem waiting_addTail (ps : List MngId) (p : MngId) :
    (waiting ps).addTail () (.entry p) = waiting (ps ++ [p]) := by
  funext u
  simp [waiting, Lists.addTail]

theorem waiting_unlink (ps : List MngId) (p : MngId) :
    (waiting ps).unlink (.entry p) = waiting (ps.filter fun x => decide (x ≠ p)) := by
  funext u
  simp only [waiting, Lists.unlink, List.filter_map]
  congr 1
  apply List.filter_congr
  intro x _
  simp

theorem mem_waiting {ps : List MngId} {p : MngId} {u : Unit} : Lists.Node.entry p ∈ waiting ps u ↔ p ∈ ps := by
  simp [waiting]

/-- a manager that does not wait is in no ring -/
theorem notMem_rings {ps : List MngId} {p : MngId} (hp : p ∉ ps) (u : Unit) :
    Lists.Node.entry p ∉ Lists.Node.head u :: waiting ps u := by
  simp [mem_waiting, hp]

/-- the code takes a manager out of the list, or finds that its links are NULL -/
theorem delFrom2Start_same {p : MngId} (h : RepBut X s q)
    (hp : p ∈ s.list2Start ∨ q.mng (.entry p) = ⟨none, none⟩) :
    SameUpTo IsAddLinked (RepBut X) (PrcMngInfo.delFrom2Start p s) (PtrSt.delFrom2Start p q) := by
  by_cases hmem : p ∈ s.list2Start
  · have hnode : Lists.Node.entry p ∈ waiting s.list2Start () := mem_waiting.2 hmem
    obtain ⟨hm, hdel, hrings, hnull⟩ := del_rings (Fault.delUnlinked p) h.mng hnode
    rw [waiting_unlink] at hrings
    have hunlinked : ∀ x ∉ s.list2Start.filter fun y => decide (y ≠ p), ¬ X x → Unlinked s hm x := by
      intro x hx hX
      by_cases hxp : x = p
      · exact Or.inl (hxp ▸ hnull)
      · have hx' : x ∉ s.list2Start := fun hm => hx (List.mem_filter.2 ⟨hm, decide_eq_true hxp⟩)
        rw [Unlinked, del_other h.mng hnode hdel (notMem_rings hx')]
        exact h.unlinked x hx' hX
    rw [PrcMngInfo.delFrom2Start, if_neg (not_not.2 hmem), PtrSt.delFrom2Start, hdel, ok_bind, h.st]
    exact SameUpTo.ok ⟨rfl, h.prc, h.total, hrings, hunlinked⟩
  · have hnull := hp.resolve_left hmem
    rw [PrcMngInfo.delFrom2Start, if_pos hmem, PtrSt.delFrom2Start, CListHeader.del, hnull]
    exact SameUpTo.error _

/-- the code appends a manager that does not wait; its links may be anything -/
theorem addIn2Start_same (p : MngId) (h : RepBut X s q) :
    SameUpTo IsAddLinked (RepBut fun x => X x ∧ x ≠ p) (PrcMngInfo.addIn2Start p s) (PtrSt.addIn2Start null p q) := by
  rw [PrcMngInfo.addIn2Start]
  by_cases hmem : p ∈ s.list2Start
  · rw [if_pos hmem]
    exact SameUpTo.excused ⟨p, rfl⟩ _
  rw [if_neg hmem]
  obtain ⟨hm, hadd, hrings⟩ := addTail_rings null h.mng () (notMem_rings hmem)
  rw [waiting_addTail] at hrings
  have htimer : (if CListHead.isEmpty (Lists.Node.head ()) q.mng then s.startTimer .start else s) =
      if s.list2Start = [] then s.startTimer .start else s := by
    rw [h.isEmpty_mng]
    simp
  rw [PtrSt.addIn2Start, hadd, ok_bind, h.st, htimer]
  have hunlinked : ∀ x ∉ s.list2Start ++ [p], ¬ (X x ∧ x ≠ p) → Unlinked s hm x := by
    intro x hx hX
    rw [List.mem_append, List.mem_singleton, not_or] at hx
    rw [Unlinked, addTail_other h.mng hadd (notMem_rings hx.1) (by simpa using hx.2)]
    exact h.unlinked x hx.1 fun hXx => hX ⟨hXx, hx.2⟩
  refine SameUpTo.ok ?_
  split_ifs
  · exact ⟨rfl, h.prc, h.total, hrings, hunlinked⟩
  · exact ⟨rfl, h.prc, h.total, hrings, hunlinked⟩

/-! ## rt_prc_info -/

theorem chk_congr {a : Assert} {c d : Prop} [Decidable c] [Decidable d] (h : c ↔ d) : s.chk a c = s.chk a d := by
  simp only [St.chk, h]

namespace Untouched

/-- only other fields changed -/
theorem other (hl : t.lists = s.lists) (h2 : t.list2Start = s.list2Start) (hd : t.dyn = s.dyn) : Untouched s t :=
  ⟨hl, h2, fun i hi => by rw [hd, hi]⟩

theorem trans {u : St ε} (h : Untouched s t) (h' : Untouched t u) : Untouched s u :=
  ⟨h'.lists.trans h.lists, h'.list2Start.trans h.list2Start, fun i hi => h'.card i (h.card i hi)⟩

theorem chk (s : St ε) (a : Assert) (c : Prop) [Decidable c] : Untouched s (s.chk a c) := other rfl rfl rfl

theorem start (p : MngId) (r : RecId) (argv : List (Option String)) (s : St ε) :
    Untouched s (RtPrcInfo.start E p r argv s).2 := by
  rcases rtStart_cases (E := E) p r argv s with ⟨e, F, -, -, h⟩ | ⟨pid, e, F, -, -, h⟩
  · rw [h]
    exact other rfl rfl rfl
  · rw [h]
    exact other rfl rfl rfl

theorem stop (r : RecId) (s : St ε) : Untouched s (RtPrcInfo.stop E r s).2 := by
  unfold RtPrcInfo.stop
  dsimp only
  split_ifs
  · exact other rfl rfl rfl
  · exact other rfl rfl rfl

theorem signal {a : Assert} {sig : Sig} {new : PrcRtState} {r : RecId}
    (h : RtPrcInfo.signal E a sig new r s = .ok t) : Untouched s t := by
  unfold RtPrcInfo.signal at h
  dsimp only at h
  split_ifs at h
  cases h
  exact other rfl rfl rfl

end Untouched

/-- the record is the first one of the ring of the pool -/
theorem sCapture_rep (null stuck : Fault) (p : MngId) (argv : List (Option String)) (h : Rep s q) :
    ∃ y, PtrSt.sCapture E null stuck p argv q = .ok y ∧ RepRet (RtPrcInfo.sCapture E p argv s) y ∧
      y.2.st.list2Start = s.list2Start := by
  have hchk : s.chk .capturePool (CListHead.isEmpty (.head .pool) q.prc = false) =
      s.chk .capturePool (s.lists .pool ≠ []) := chk_congr (by rw [h.isEmpty_prc]; simp)
  have hsame := Untouched.chk s .capturePool (s.lists .pool ≠ [])
  unfold RtPrcInfo.sCapture PtrSt.sCapture PtrSt.upd
  dsimp only
  rw [h.st, hchk, h.getFirstEntry_prc]
  generalize s.chk .capturePool (s.lists .pool ≠ []) = u at hsame ⊢
  rw [hsame.lists]
  rcases (s.lists .pool).head? with _ | r
  · exact ⟨_, rfl, ⟨rfl, h.untouched (hsame.trans (Untouched.chk u _ _))⟩, hsame.list2Start⟩
  have hstart := hsame.trans (Untouched.start (E := E) p r argv u)
  dsimp only [Option.map_some, PtrSt.asPrc, ok_bind]
  generalize RtPrcInfo.start E p r argv u = x at hstart ⊢
  obtain ⟨n, v⟩ := x
  by_cases hneg : n < 0
  · rw [if_pos hneg, if_pos hneg]
    exact ⟨_, rfl, ⟨rfl, h.untouched (hstart.trans (Untouched.chk v _ _))⟩, hstart.list2Start⟩
  · rw [if_neg hneg, if_neg hneg]
    have hbuild : Untouched v (v.buildBdAss p r) := Untouched.other rfl rfl rfl
    obtain ⟨q', hq', hrep⟩ := accept_rep null (h.untouched (hstart.trans hbuild)) .normal r
    rw [hq', ok_bind]
    refine ⟨_, rfl, ⟨rfl, hrep⟩, ?_⟩
    calc q'.st.list2Start = v.list2Start := by rw [hrep.st]; rfl
      _ = s.list2Start := hstart.list2Start

theorem sRelease_same (r : RecId) (h : Rep s q) :
    SameUpTo IsAddLinked RepRet (RtPrcInfo.sRelease E r s) (PtrSt.sRelease E null r q) := by
  unfold RtPrcInfo.sRelease PtrSt.sRelease
  dsimp only
  rw [h.st]
  have hstop := Untouched.stop (E := E) r s
  generalize RtPrcInfo.stop E r s = x at hstop ⊢
  obtain ⟨n, v⟩ := x
  by_cases hneg : n < 0
  · rw [if_pos hneg, if_pos hneg]
    exact SameUpTo.ok ⟨rfl, h.untouched (hstop.trans (Untouched.chk v _ _))⟩
  rw [if_neg hneg, if_neg hneg]
  dsimp only at hstop ⊢
  rcases (v.rt r).pParent with _ | p
  · exact SameUpTo.error _
  · have hback : Untouched v ((v.destroyBdAss p r).clrTimes r) := Untouched.other rfl rfl rfl
    obtain ⟨q', hq', hrep⟩ := accept_rep null (h.untouched (hstop.trans hback)) .pool r
    dsimp only
    rw [hq', ok_bind]
    exact SameUpTo.ok ⟨rfl, hrep⟩

/-- the end of `sTerm` and of `sKill`: the test for an empty list is made on the links -/
theorem moveTo_rep (null : Fault) (l : ListId) (tm : TimerId) (r : RecId) (h : Rep s q) (hs : Untouched s t) :
    ∃ q', PtrSt.accept null l r
        ⟨if CListHead.isEmpty (.head l) q.prc then (t.clrTimes r).startTimer tm else t.clrTimes r, q.prc, q.mng⟩ =
          .ok q' ∧ Rep (RtPrcInfo.moveTo l tm r t) q' := by
  have hlists : (t.clrTimes r).lists l = s.lists l := congrFun hs.lists l
  have hclr : Untouched s (if s.lists l = [] then (t.clrTimes r).startTimer tm else t.clrTimes r) := by
    split_ifs
    · exact hs.trans (Untouched.other rfl rfl rfl)
    · exact hs.trans (Untouched.other rfl rfl rfl)
  simp only [h.isEmpty_prc, decide_eq_true_eq, RtPrcInfo.moveTo, hlists]
  exact accept_rep null (h.untouched hclr) l r

theorem sTerm_same (r : RecId) (h : Rep s q) :
    SameUpTo IsAddLinked Rep (RtPrcInfo.sTerm E r s) (PtrSt.sTerm E null r q) := by
  unfold RtPrcInfo.sTerm PtrSt.sTerm
  rw [h.st]
  rcases hsig : RtPrcInfo.signalTerm E r s with x | t
  · exact SameUpTo.error x
  · obtain ⟨q', hq', hrep⟩ := moveTo_rep null .exiting .term r h (Untouched.signal hsig)
    rw [ok_bind, ok_bind, hq']
    exact SameUpTo.ok hrep

theorem sKill_same (r : RecId) (h : Rep s q) :
    SameUpTo IsAddLinked Rep (RtPrcInfo.sKill E r s) (PtrSt.sKill E null r q) := by
  unfold RtPrcInfo.sKill PtrSt.sKill PtrSt.onPrc Pointers.sKill
  dsimp only
  rw [h.st]
  by_cases hneed : s.needKillPrc = false
  · rw [if_pos hneed, if_pos hneed, ok_bind]
    exact SameUpTo.ok (h.untouched (Untouched.other rfl rfl rfl))
  rw [if_neg hneed, if_neg hneed]
  rcases hsig : RtPrcInfo.signalKill E r s with x | t
  · exact SameUpTo.error x
  · obtain ⟨q', hq', hrep⟩ := moveTo_rep null .killing .kill r h (Untouched.signal hsig)
    rw [PtrSt.accept] at hq'
    obtain ⟨hp, hacc, hq'⟩ := bind_eq_ok hq'
    cases hq'
    rw [ok_bind, ok_bind, hacc, ok_bind]
    exact SameUpTo.ok hrep

/-- a search over the links finds what `sFindObj` finds -/
theorem sFindObj_rep (l : ListId) (pid : ℤ) (h : Rep s q) :
    PtrSt.sFindObj null stuck q l pid = .ok (RtPrcInfo.sFindObj s l pid) := by
  have hlen : (nodesOf s.lists l).length ≤ PtrSt.rounds := by
    rw [nodesOf, List.length_map]
    have hnd : (s.lists l).Nodup := List.Nodup.of_map _ (h.prc.wf.nodup l)
    exact le_trans (List.Nodup.length_le_card hnd) (Fintype.card_fin _).le
  have hfind : (nodesOf s.lists l).find? (PtrSt.hasPid s pid) =
      (RtPrcInfo.sFindObj s l pid).map Lists.Node.entry := by
    rw [nodesOf, List.find?_map, RtPrcInfo.sFindObj]
    rfl
  rw [PtrSt.sFindObj, h.st, listForEachFind_rings h.prc _ hlen, ok_bind, hfind]
  cases RtPrcInfo.sFindObj s l pid <;> rfl

/-! ## Starting -/

theorem capture_same {p : MngId} (name : Option String) (h : Rep s q) (hp : p ∈ s.list2Start) :
    SameUpTo IsAddLinked RepRet (PrcMngInfo.capture E p name s) (PtrSt.capture E null stuck p name q) := by
  obtain ⟨⟨n, q'⟩, hq', ⟨hn, hrep⟩, hl⟩ := sCapture_rep (E := E) null stuck p (PrcMngInfo.argv s name p) h
  unfold PrcMngInfo.capture PtrSt.capture
  rw [h.st, hq', ok_bind]
  dsimp only at hn hrep hl ⊢
  rw [hn]
  by_cases hneg : n < 0
  · rw [if_pos hneg, if_pos hneg]
    exact SameUpTo.ok (RepRet.intro n (hrep.upd (Untouched.chk _ .subStartCapture False) rfl))
  · rw [if_neg hneg, if_neg hneg]
    have hp' : p ∈ (RtPrcInfo.sCapture E p (PrcMngInfo.argv s name p) s).2.list2Start := by
      rw [← hrep.st, hl]
      exact hp
    exact (delFrom2Start_same hrep (Or.inl hp')).bind fun _ _ _ hdel => SameUpTo.ok (RepRet.intro 0 hdel)

/-- what follows an assertion that is read off the state -/
theorem RepBut.chk (h : RepBut X s q) (a : Assert) (c : Prop) [Decidable c] :
    RepBut X (s.chk a c) { q with st := s.chk a c } := h.untouched (Untouched.chk s a c)

theorem subStart_same {p : MngId} (h : Rep s q) (hp : p ∈ s.list2Start) :
    SameUpTo IsAddLinked RepRet (PrcMngInfo.subStart E p s) (PtrSt.subStart E null stuck p q) := by
  unfold PrcMngInfo.subStart PtrSt.subStart PtrSt.upd
  dsimp only
  rw [h.st]
  have hchk := h.chk .subStartChld (s.chld p = none)
  have hp' : p ∈ (s.chk .subStartChld (s.chld p = none)).list2Start := hp
  generalize s.chk .subStartChld (s.chld p = none) = u at hchk hp' ⊢
  cases p with
  | stat i => exact capture_same none hchk hp'
  | dyn i =>
    dsimp only
    by_cases hcard : u.haveCardInserted i = false
    · rw [if_pos hcard, if_pos hcard]
      exact (delFrom2Start_same (hchk.chk .subStartCard False) (Or.inl hp')).bind fun _ _ _ hdel =>
        SameUpTo.ok (RepRet.intro 0 hdel)
    rw [if_neg hcard, if_neg hcard]
    cases getCardTypeStr (u.dyn i).cardType with
    | none => exact SameUpTo.ok ⟨rfl, hchk.chk .subStartName False⟩
    | some name => exact capture_same (some name) hchk hp'

theorem start_same {p : MngId} (h : Rep s q) (hp : p ∈ s.list2Start) :
    SameUpTo IsAddLinked Rep (PrcMngInfo.start E p s) (PtrSt.start E null stuck p q) := by
  unfold PrcMngInfo.start PtrSt.start
  rw [h.st]
  by_cases hc : s.chld p ≠ none
  · rw [if_pos hc, if_pos hc]
    exact SameUpTo.ok (h.upd (Untouched.chk s .mngStartChld False) rfl)
  rw [if_neg hc, if_neg hc]
  refine (subStart_same h hp).bind ?_
  rintro ⟨n, u⟩ ⟨m, v⟩ - ⟨hn, hrep⟩
  obtain rfl : n = m := hn
  dsimp only at hrep ⊢
  split_ifs
  · exact SameUpTo.ok (hrep.upd (Untouched.chk u .mngStartSub False) rfl)
  · exact SameUpTo.ok hrep

/-- the start timer's callback: the first manager of the ring is started -/
theorem sCheckNeedStart_same (h : Rep s q) :
    SameUpTo IsAddLinked Rep (PrcMngInfo.sCheckNeedStart E s) (PtrSt.sCheckNeedStart E null stuck q) := by
  unfold PrcMngInfo.sCheckNeedStart PtrSt.sCheckNeedStart
  rw [h.getFirstEntry_mng]
  apply SameUpTo.bind (R := Rep)
  · cases hl : s.list2Start.head? with
    | none => exact SameUpTo.ok h
    | some p => exact start_same h (List.mem_of_head? hl)
  · intro u v _ hrep
    rw [hrep.isEmpty_mng]
    simp only [decide_eq_true_eq]
    split_ifs
    · exact SameUpTo.ok (hrep.upd (Untouched.other rfl rfl rfl) rfl)
    · exact SameUpTo.ok hrep

/-! ## Stopping -/

/-- the manager that was left out is in the list now -/
theorem addIn2Start_rep {p : MngId} (h : RepBut (fun x => x = p) s q) :
    SameUpTo IsAddLinked Rep (PrcMngInfo.addIn2Start p s) (PtrSt.addIn2Start null p q) :=
  (addIn2Start_same p h).mono fun _ _ hrep => hrep.weaken fun _ hx => hx.2 hx.1

theorem Rep.but (h : Rep s q) (p : MngId) : RepBut (fun x => x = p) s q := h.weaken fun _ hx => hx.elim

theorem Untouched.ioctl (site : Site) (arg : DevMngDrvData) (s : St ε) : Untouched s (s.ioctl E site arg).2 :=
  Untouched.other rfl rfl rfl

theorem reonline_same (i : SlotId) (h : Rep s q) :
    SameUpTo IsAddLinked RepRet (PrcMngInfo.reonline E i s) (PtrSt.reonline E null i q) := by
  unfold PrcMngInfo.reonline PtrSt.reonline
  dsimp only
  rw [h.st]
  generalize (s.haveCardInserted i && !s.exitFlag) = again
  have hoff := Untouched.ioctl (E := E) (.subStop again) ⟨slotId i, etindevNull⟩ s
  generalize s.ioctl E (.subStop again) ⟨slotId i, etindevNull⟩ = x at hoff ⊢
  by_cases hneg : x.1 < 0
  · rw [if_pos hneg, if_pos hneg]
    exact SameUpTo.ok (RepRet.intro x.1 (h.untouched (hoff.trans (Untouched.chk x.2 .subStopOffline False))))
  rw [if_neg hneg, if_neg hneg]
  by_cases hagain : again = false
  · rw [if_pos hagain, if_pos hagain]
    exact SameUpTo.ok (RepRet.intro 0 (h.untouched hoff))
  rw [if_neg hagain, if_neg hagain]
  have hon := hoff.trans (Untouched.ioctl (E := E) (.subStop again) ⟨slotId i, (x.2.dyn i).cardType⟩ x.2)
  generalize x.2.ioctl E (.subStop again) ⟨slotId i, (x.2.dyn i).cardType⟩ = y at hon ⊢
  by_cases hneg' : y.1 < 0
  · rw [if_pos hneg', if_pos hneg']
    exact SameUpTo.ok (RepRet.intro y.1 (h.untouched (hon.trans (Untouched.chk y.2 .subStopOnline False))))
  · rw [if_neg hneg', if_neg hneg']
    exact (addIn2Start_rep ((h.but _).untouched hon)).bind fun _ _ _ hadd => SameUpTo.ok (RepRet.intro 0 hadd)

theorem subStop_same (p : MngId) (h : Rep s q) :
    SameUpTo IsAddLinked RepRet (PrcMngInfo.subStop E p s) (PtrSt.subStop E null p q) := by
  unfold PrcMngInfo.subStop PtrSt.subStop
  dsimp only
  have hchk := h.upd (f := fun s => s.chk .subStopChld (s.chld p ≠ none)) (Untouched.chk s _ _) rfl
  generalize (q.upd fun s => s.chk .subStopChld (s.chld p ≠ none)) = v at hchk ⊢
  generalize s.chk .subStopChld (s.chld p ≠ none) = u at hchk ⊢
  rw [hchk.st]
  rcases u.chld p with _ | r
  · exact SameUpTo.error _
  refine (sRelease_same r hchk).bind ?_
  rintro ⟨n, u⟩ ⟨m, v⟩ - ⟨hn, hrep⟩
  obtain rfl : n = m := hn
  dsimp only at hrep ⊢
  by_cases hneg : n < 0
  · rw [if_pos hneg, if_pos hneg]
    exact SameUpTo.ok (RepRet.intro n (hrep.upd (Untouched.chk u .subStopRelease False) rfl))
  rw [if_neg hneg, if_neg hneg]
  cases p with
  | stat i =>
    exact (addIn2Start_rep (Rep.but hrep _)).bind fun _ _ _ hadd => SameUpTo.ok (RepRet.intro 0 hadd)
  | dyn i => exact reonline_same i hrep

theorem stop_same (p : MngId) (h : Rep s q) :
    SameUpTo IsAddLinked Rep (PrcMngInfo.stop E p s) (PtrSt.stop E null p q) := by
  unfold PrcMngInfo.stop PtrSt.stop
  rw [h.st]
  by_cases hc : s.chld p = none
  · rw [if_pos hc, if_pos hc]
    exact SameUpTo.ok h
  rw [if_neg hc, if_neg hc]
  refine (subStop_same p h).bind ?_
  rintro ⟨n, u⟩ ⟨m, v⟩ - ⟨hn, hrep⟩
  obtain rfl : n = m := hn
  dsimp only at hrep ⊢
  split_ifs
  · exact SameUpTo.ok (hrep.upd (Untouched.chk u .mngStopSub False) rfl)
  · exact SameUpTo.ok hrep

/-! ## Cards -/

/-- the links of a manager that waited are read before its card is cleared -/
theorem cardGone_same {i : SlotId} (h : Rep s q) (hcard : (s.dyn i).cardType ≠ etindevNull) :
    SameUpTo IsAddLinked Rep (PrcMngInfo.cardGone E i s) (PtrSt.cardGone E null i q) := by
  have hlinks : MngId.dyn i ∈ s.list2Start ∨ q.mng (.entry (.dyn i)) = ⟨none, none⟩ := by
    by_cases hmem : MngId.dyn i ∈ s.list2Start
    · exact Or.inl hmem
    rcases h.unlinked _ hmem id with hnull | ⟨j, hj, hcard'⟩
    · exact Or.inr hnull
    · cases hj
      exact absurd hcard' hcard
  have hoff : Rep (s.cardOff i) { q with st := s.cardOff i } := by
    refine h.untouched ⟨rfl, rfl, fun j hj => ?_⟩
    by_cases hji : j = i
    · subst hji
      simp [St.cardOff, St.setDyn]
    · simpa [St.cardOff, St.setDyn, hji] using hj
  rw [cardGone_eq]
  unfold PtrSt.cardGone
  have hq : q.upd (fun s => { s with
      dyn := Function.update s.dyn i { s.dyn i with cardType := etindevNull, cardTypeNew := etindevNull } }) =
      { q with st := s.cardOff i } := by
    rw [PtrSt.upd, h.st]
    rfl
  rw [hq]
  dsimp only
  rcases hc : s.chld (.dyn i) with _ | r
  · have hc' : (s.cardOff i).chld (.dyn i) = none := hc
    rw [hc']
    exact (delFrom2Start_same hoff hlinks).bind fun u v _ hdel => SameUpTo.ok (hdel.upd (Untouched.ioctl _ _ u) rfl)
  · have hc' : (s.cardOff i).chld (.dyn i) = some r := hc
    rw [hc']
    dsimp only
    have hchk : Rep ((s.cardOff i).chk .handleState ((s.rt r).state ≠ .null))
        (PtrSt.upd { q with st := s.cardOff i } fun s => s.chk .handleState ((s.rt r).state ≠ .null)) :=
      hoff.upd (Untouched.chk _ _ _) rfl
    have hst : (((s.cardOff i).chk .handleState ((s.rt r).state ≠ .null)).rt r).state = (s.rt r).state := rfl
    rw [hchk.st, hst]
    split_ifs
    · exact sTerm_same r hchk
    · exact SameUpTo.ok hchk

/-- the card of a slot that had none is known, and its manager waits; the links of the manager may be anything -/
theorem cardCome_same (i : SlotId) (new : ETinDev) (h : Rep s q) :
    SameUpTo IsAddLinked Rep (PrcMngInfo.cardCome E i new s) (PtrSt.cardCome E null i new q) := by
  have hcome : RepBut (fun x => x = .dyn i) (s.setDyn i ⟨new, etindevNull, 0⟩)
      { q with st := s.setDyn i ⟨new, etindevNull, 0⟩ } := by
    refine ⟨rfl, h.prc, h.total, h.mng, fun p hp hpi => ?_⟩
    rcases h.unlinked p hp id with hnull | ⟨j, rfl, hcard⟩
    · exact Or.inl hnull
    · have hji : j ≠ i := fun he => hpi (by rw [he])
      exact Or.inr ⟨j, rfl, by simpa [St.setDyn, hji] using hcard⟩
  unfold PrcMngInfo.cardCome PtrSt.cardCome
  have hs : ({ s with dyn := Function.update s.dyn i ⟨new, etindevNull, 0⟩ } : St ε) =
      s.setDyn i ⟨new, etindevNull, 0⟩ := rfl
  have hq : q.upd (fun s => { s with dyn := Function.update s.dyn i ⟨new, etindevNull, 0⟩ }) =
      { q with st := s.setDyn i ⟨new, etindevNull, 0⟩ } := by
    rw [PtrSt.upd, h.st]
    rfl
  rw [hs, hq]
  generalize s.setDyn i ⟨new, etindevNull, 0⟩ = u at hcome ⊢
  have hon := Untouched.ioctl (E := E) .handleNewType ⟨slotId i, new⟩ u
  dsimp only
  generalize u.ioctl E .handleNewType ⟨slotId i, new⟩ = x at hon ⊢
  split_ifs
  · exact addIn2Start_rep (hcome.untouched (hon.trans (Untouched.chk x.2 .handleOnline False)))
  · exact addIn2Start_rep (hcome.untouched hon)

/-- a write to the filter of a slot that keeps its card -/
theorem RepBut.filter (h : RepBut X s q) {i : SlotId} {d : DynamicPrcMngInfo}
    (hd : d.cardType = (s.dyn i).cardType) :
    RepBut X (s.setDyn i d) (q.upd fun s => { s with dyn := Function.update s.dyn i d }) := by
  refine h.upd ⟨rfl, rfl, fun j hj => ?_⟩ rfl
  by_cases hji : j = i
  · subst hji
    simpa [St.setDyn, hd] using hj
  · simpa [St.setDyn, hji] using hj

theorem handleNewType_same (i : SlotId) (new : ETinDev) (h : Rep s q) :
    SameUpTo IsAddLinked Rep (PrcMngInfo.handleNewType E i new s) (PtrSt.handleNewType E null i new q) := by
  rw [handleNewType_eq]
  unfold PtrSt.handleNewType
  dsimp only
  rw [h.st]
  by_cases h1 : new = (s.dyn i).cardType
  · rw [if_pos h1, if_pos h1]
    exact SameUpTo.ok (h.filter rfl)
  rw [if_neg h1, if_neg h1]
  by_cases h2 : (s.dyn i).cardType ≠ etindevNull
  · rw [if_pos h2, if_pos h2]
    exact cardGone_same h h2
  rw [if_neg h2, if_neg h2]
  have hchk : Rep (s.chk .handleNewCard (new ≠ etindevNull))
      (q.upd fun s => s.chk .handleNewCard (new ≠ etindevNull)) := h.upd (Untouched.chk _ _ _) rfl
  by_cases h3 : new ≠ (s.dyn i).cardTypeNew
  · rw [if_pos h3, if_pos h3]
    exact SameUpTo.ok (hchk.filter rfl)
  rw [if_neg h3, if_neg h3]
  have hcount := hchk.filter (i := i) (d := { s.dyn i with cnt4Filter := (s.dyn i).cnt4Filter + 1 }) rfl
  have hchld : (((s.chk .handleNewCard (new ≠ etindevNull)).setDyn i
      { s.dyn i with cnt4Filter := (s.dyn i).cnt4Filter + 1 }).chld (.dyn i)) = s.chld (.dyn i) := rfl
  rw [hcount.st, hchld]
  split_ifs
  · exact SameUpTo.ok hcount
  · exact cardCome_same i new hcount
  · exact SameUpTo.ok hcount

theorem checkDev_same (cardtype : SlotId → ETinDev) (i : SlotId) (h : Rep s q) :
    SameUpTo IsAddLinked Rep (PrcMngInfo.checkDev E cardtype s i) (PtrSt.checkDev E null cardtype q i) := by
  unfold PrcMngInfo.checkDev PtrSt.checkDev
  split_ifs
  · exact SameUpTo.ok h
  · exact SameUpTo.ok (h.upd (Untouched.chk s .devChangeType False) rfl)
  · exact handleNewType_same i _ h

theorem sCheckDevChange_same (ret : ℤ) (cardtype : SlotId → ETinDev) (h : Rep s q) :
    SameUpTo IsAddLinked Rep (PrcMngInfo.sCheckDevChange E ret cardtype s)
      (PtrSt.sCheckDevChange E null ret cardtype q) := by
  unfold PrcMngInfo.sCheckDevChange PtrSt.sCheckDevChange
  split_ifs
  · exact SameUpTo.ok h
  · exact SameUpTo.foldlM (R := fun _ => Rep) (fun i _ _ _ hrep => checkDev_same cardtype i hrep) _ h

theorem sHandleCardChange_same (c : DevMngDrvData) (h : Rep s q) :
    SameUpTo IsAddLinked Rep (PrcMngInfo.sHandleCardChange E c s) (PtrSt.sHandleCardChange E null c q) := by
  unfold PrcMngInfo.sHandleCardChange PtrSt.sHandleCardChange
  cases checkSlot c.slotId with
  | none => exact SameUpTo.ok h
  | some i =>
    dsimp only
    split_ifs
    · exact SameUpTo.ok h
    · exact SameUpTo.ok h
    · exact handleNewType_same i c.cardType h

/-! ## Timers and signals -/

/-- what `addIn2Start` and `delFrom2Start` look at -/
def managers (s : St ε) : List MngId × (SlotId → DynamicPrcMngInfo) := (s.list2Start, s.dyn)

theorem sKill_managers {d : List MngId × (SlotId → DynamicPrcMngInfo)} (r : RecId) (hs : managers s = d) :
    Frame managers d (RtPrcInfo.sKill E r s) := by
  unfold RtPrcInfo.sKill
  split_ifs
  · exact hs
  rcases hsig : RtPrcInfo.signalKill E r s with x | t
  · trivial
  · unfold RtPrcInfo.signalKill RtPrcInfo.signal at hsig
    dsimp only at hsig
    split_ifs at hsig
    cases hsig
    rw [ok_bind, moveTo_eq]
    exact hs

theorem listForEachSafe_managers {d : List MngId × (SlotId → DynamicPrcMngInfo)}
    {body : RecId → St ε → Except Fault (St ε)} (hbody : ∀ r t, managers t = d → Frame managers d (body r t))
    (l : ListId) (hs : managers s = d) : Frame managers d (RtPrcInfo.listForEachSafe l body s) :=
  Lists.traverse_frame hbody .stray l hs

/-- a traversal of a list of records, over the links (`Pdm/Cplist`) and over the abstract lists -/
theorem onPrc_same {x : Except Fault (St ε)} {f : St ε × Heap PrcNode → Except Fault (St ε × Heap PrcNode)}
    (hcore : Core s) (h : Rep s q) (hout : Outcome (Move E AnyType .plain) (FaultAt E) s x)
    (hframe : Frame managers (managers s) x) (hsame : SameOutcome x (f (s, q.prc))) :
    SameUpTo IsAddLinked Rep x (q.onPrc f) := by
  rw [PtrSt.onPrc, h.st]
  rcases x with e | t <;> rcases hf : f (s, q.prc) with e' | ⟨u, hp⟩ <;> rw [hf] at hsame
  · obtain rfl : e = e' := hsame
    exact SameUpTo.error e
  · exact hsame.elim
  · exact hsame.elim
  · obtain ⟨rfl, hholds⟩ := hsame
    have h2 : u.list2Start = s.list2Start := congrArg Prod.fst hframe
    have hd : u.dyn = s.dyn := congrArg Prod.snd hframe
    have hmng := h.mng
    have hunlinked := h.unlinked
    rw [← h2] at hmng hunlinked
    refine SameUpTo.ok ⟨rfl, hholds, (plain_core hcore hout).total, hmng, fun p hp hX => ?_⟩
    rcases hunlinked p hp hX with hnull | ⟨i, hi, hcard⟩
    · exact Or.inl hnull
    · exact Or.inr ⟨i, hi, by rw [hd, hcard]⟩

theorem length_le_rounds (h : Rep s q) (l : ListId) : (s.lists l).length ≤ PtrSt.rounds := by
  have hnd : (s.lists l).Nodup := List.Nodup.of_map _ (h.prc.wf.nodup l)
  exact le_trans hnd.length_le_card (Fintype.card_fin _).le

theorem sCheckLiveState_same (hcore : Core s) (h : Rep s q) :
    SameUpTo IsAddLinked Rep (RtPrcInfo.sCheckLiveState E s) (PtrSt.sCheckLiveState E null stuck q) := by
  have hframe : Frame managers (managers s) (RtPrcInfo.sCheckLiveState E s) := by
    refine listForEachSafe_managers (fun r t ht => ?_) .normal rfl
    unfold RtPrcInfo.checkLive
    split_ifs
    · exact ht
    · exact sKill_managers r ht
  exact onPrc_same hcore h (sCheckLiveState_outcome hcore) hframe
    (Pointers.sCheckLiveState_refines hcore h.prc (length_le_rounds h .normal))

theorem sHello4Live_same (E : Env ε μ) (hcore : Core s) (h : Rep s q) :
    SameUpTo IsAddLinked Rep (RtPrcInfo.sHello4Live s) (PtrSt.sHello4Live null stuck q) := by
  have hframe : Frame managers (managers s) (RtPrcInfo.sHello4Live s) := by
    apply listForEachSafe_managers _ .normal rfl
    exact fun r t ht => ht
  exact onPrc_same hcore h (sHello4Live_outcome (E := E) hcore) hframe
    (Pointers.sHello4Live_refines hcore h.prc (length_le_rounds h .normal))

theorem sUpdateLiveState_same (pid : ℤ) (h : Rep s q) :
    SameUpTo IsAddLinked Rep (.ok (RtPrcInfo.sUpdateLiveState pid s)) (PtrSt.sUpdateLiveState null stuck pid q) := by
  rw [PtrSt.sUpdateLiveState, sFindObj_rep .normal pid h, ok_bind, RtPrcInfo.sUpdateLiveState]
  cases RtPrcInfo.sFindObj s .normal pid with
  | none => exact SameUpTo.ok h
  | some r => exact SameUpTo.ok (h.upd (Untouched.other rfl rfl rfl) rfl)

theorem sCheckTermTimeout_same (h : Rep s q) :
    SameUpTo IsAddLinked Rep (RtPrcInfo.sCheckTermTimeout E s) (PtrSt.sCheckTermTimeout E null stuck q) := by
  unfold RtPrcInfo.sCheckTermTimeout PtrSt.sCheckTermTimeout
  rw [h.getFirstEntry_prc]
  apply SameUpTo.bind (R := Rep)
  · cases (s.lists .exiting).head? with
    | none => exact SameUpTo.ok h
    | some r => exact sKill_same r h
  · intro u v _ hrep
    simp only [hrep.isEmpty_prc, decide_eq_true_eq]
    split_ifs
    · exact SameUpTo.ok (hrep.upd (Untouched.other rfl rfl rfl) rfl)
    · exact SameUpTo.ok hrep

theorem bury_same (a : Assert) (r : RecId) (h : Rep s q) :
    SameUpTo IsAddLinked Rep (RtPrcInfo.bury E a r s) (PtrSt.bury E null a r q) := by
  unfold RtPrcInfo.bury PtrSt.bury
  rw [h.st]
  cases (s.rt r).pParent with
  | none => exact SameUpTo.ok (h.upd (Untouched.chk s a False) rfl)
  | some p => exact stop_same p h

theorem sCheckKillTimeout_same (h : Rep s q) :
    SameUpTo IsAddLinked Rep (RtPrcInfo.sCheckKillTimeout E s) (PtrSt.sCheckKillTimeout E null stuck q) := by
  unfold RtPrcInfo.sCheckKillTimeout PtrSt.sCheckKillTimeout
  rw [h.getFirstEntry_prc]
  apply SameUpTo.bind (R := Rep)
  · cases (s.lists .killing).head? with
    | none => exact SameUpTo.ok h
    | some r => exact bury_same .killTimeoutParent r h
  · intro u v _ hrep
    simp only [hrep.isEmpty_prc, decide_eq_true_eq]
    split_ifs
    · exact SameUpTo.ok (hrep.upd (Untouched.other rfl rfl rfl) rfl)
    · exact SameUpTo.ok hrep

theorem findChld_rep (pid : ℤ) (h : Rep s q) :
    PtrSt.findChld null stuck q pid = .ok (RtPrcInfo.findChld s pid) := by
  simp only [PtrSt.findChld, sFindObj_rep _ pid h, ok_bind, RtPrcInfo.findChld]
  cases RtPrcInfo.sFindObj s .killing pid with
  | some r => rfl
  | none =>
    dsimp only
    cases RtPrcInfo.sFindObj s .exiting pid <;> rfl

theorem buryPid_same (pid : ℤ) (h : Rep s q) :
    SameUpTo IsAddLinked Rep (RtPrcInfo.buryPid E pid s) (PtrSt.buryPid E null stuck pid q) := by
  rw [PtrSt.buryPid, findChld_rep pid h, ok_bind, RtPrcInfo.buryPid]
  cases RtPrcInfo.findChld s pid with
  | none => exact SameUpTo.ok h
  | some r => exact bury_same .buryParent r h

theorem sBuryChld_same (n : ℕ) (h : Rep s q) :
    SameUpTo IsAddLinked Rep (RtPrcInfo.sBuryChld E n s) (PtrSt.sBuryChld E null stuck n q) := by
  induction n generalizing s q with
  | zero => exact SameUpTo.error _
  | succ n ih =>
    unfold RtPrcInfo.sBuryChld PtrSt.sBuryChld
    have hwait : Untouched s (RtPrcInfo.waitAny E s).2 := Untouched.other rfl rfl rfl
    dsimp only
    rw [h.st]
    split_ifs
    · exact SameUpTo.ok (h.untouched hwait)
    · exact (buryPid_same _ (h.untouched hwait)).bind fun _ _ _ hrep => ih hrep

/-! ## Shutdown -/

/-- what does not reach a list -/
theorem lift_same {f : St ε → Except Fault (St ε)} (h : Rep s q) (hf : ∀ t, f s = .ok t → Untouched s t) :
    SameUpTo IsAddLinked Rep (f s) (q.lift f) := by
  rw [PtrSt.lift, h.st]
  rcases hfs : f s with e | t
  · exact SameUpTo.error e
  · exact SameUpTo.ok (h.untouched (hf t hfs))

theorem Untouched.term4Stop {p : MngId} (h : PrcMngInfo.term4Stop E p s = .ok t) : Untouched s t := by
  unfold PrcMngInfo.term4Stop at h
  rcases hc : s.chld p with _ | r <;> simp only [hc] at h
  · cases h
    exact Untouched.other rfl rfl rfl
  · exact Untouched.signal h

theorem Untouched.kill4Stop {p : MngId} (h : PrcMngInfo.kill4Stop E p s = .ok t) : Untouched s t := by
  unfold PrcMngInfo.kill4Stop at h
  rcases hc : s.chld p with _ | r <;> simp only [hc] at h
  · cases h
    exact Untouched.other rfl rfl rfl
  · exact Untouched.signal h

/-- a loop of what does not reach a list -/
theorem Untouched.foldlM {ι : Type} {f : St ε → ι → Except Fault (St ε)} (hf : ∀ u i v, f u i = .ok v → Untouched u v)
    {l : List ι} (h : l.foldlM f s = .ok t) : Untouched s t :=
  foldlM_done (I := fun _ u => Untouched s u) (fun _ i _ u v _ hu hv => hu.trans (hf u i v hv))
    (Untouched.other rfl rfl rfl) h

theorem Untouched.stopSignals (h : Pdm.stopSignals E s = .ok t) : Untouched s t := by
  unfold Pdm.stopSignals at h
  obtain ⟨u, hu, h⟩ := bind_eq_ok h
  obtain ⟨v, hv, h⟩ := bind_eq_ok h
  cases h
  have hterm : Untouched s u := Untouched.foldlM (fun _ _ _ => Untouched.term4Stop) hu
  have hsleep : Untouched u { u with env := E.sleep 2 u.env } := Untouched.other rfl rfl rfl
  have hkill := Untouched.foldlM (fun _ _ _ => Untouched.kill4Stop) hv
  exact ((hterm.trans hsleep).trans hkill).trans (Untouched.other rfl rfl rfl)

theorem Untouched.ioctlInt {c : IntIoc} (h : Pdm.ioctlInt E c s = .ok t) : Untouched s t := by
  unfold Pdm.ioctlInt at h
  dsimp only at h
  split_ifs at h
  cases h
  exact Untouched.other rfl rfl rfl

theorem stopAll_same (h : Rep s q) : SameUpTo IsAddLinked Rep (stopAll E s) (PtrSt.stopAll E null q) := by
  unfold stopAll PtrSt.stopAll
  have hexit : Untouched s { s with exitFlag := true } := Untouched.other rfl rfl rfl
  refine (lift_same (f := fun s => ioctlInt E .stateInt { s with exitFlag := true }) h ?_).bind ?_
  · exact fun t ht => hexit.trans (Untouched.ioctlInt ht)
  intro u v _ hrep
  refine (lift_same (f := ioctlInt E .masterInt) hrep fun t ht => Untouched.ioctlInt ht).bind ?_
  intro u v _ hrep
  exact SameUpTo.foldlM (R := fun _ => Rep) (fun p _ _ _ hr => stop_same p hr) _ hrep

theorem processStop_same (h : Rep s q) : SameUpTo IsAddLinked Rep (processStop E s) (PtrSt.processStop E null q) := by
  unfold processStop PtrSt.processStop
  refine (lift_same h fun t ht => Untouched.stopSignals ht).bind ?_
  intro u v _ hrep
  refine (stopAll_same hrep).bind ?_
  intro u v _ hrep
  exact SameUpTo.ok (hrep.upd (Untouched.other rfl rfl rfl) rfl)

/-! ## Runs -/

/-- **Every event over pointers does what it does over the abstract lists.** -/
theorem step_same (hcore : Core s) (h : Rep s q) (e : Event μ) :
    SameUpTo IsAddLinked Rep (step E s e) (PtrSt.step E null stuck q e) := by
  cases e with
  | sCheckNeedStart => exact sCheckNeedStart_same h
  | sHello4Live => exact sHello4Live_same E hcore h
  | sUpdateLiveState pid => exact sUpdateLiveState_same pid h
  | sCheckLiveState => exact sCheckLiveState_same hcore h
  | sCheckTermTimeout => exact sCheckTermTimeout_same h
  | sCheckKillTimeout => exact sCheckKillTimeout_same h
  | sBuryChld n => exact sBuryChld_same n h
  | handleNewType i new => exact handleNewType_same i new h
  | sCheckDevChange ret cardtype => exact sCheckDevChange_same ret cardtype h
  | sHandleCardChange c => exact sHandleCardChange_same c h
  | outside m => exact SameUpTo.ok (h.upd (Untouched.other rfl rfl rfl) rfl)
  | term4Stop p => exact lift_same h fun t ht => Untouched.term4Stop ht
  | kill4Stop p => exact lift_same h fun t ht => Untouched.kill4Stop ht
  | stop p => exact stop_same p h
  | processStop => exact processStop_same h

theorem nodesOf_addTail (L : Lists ListId RecId) (l : ListId) (r : RecId) :
    nodesOf (L.addTail l r) = (nodesOf L).addTail l (.entry r) := by
  funext k
  by_cases hk : k = l
  · subst hk
    simp [nodesOf, Lists.addTail]
  · simp [nodesOf, Lists.addTail, hk]

/-- the loop of `sInitPool`: the records still to come are in no list -/
theorem initPool_foldlM (null : Fault) (rs : List RecId) : ∀ q : PtrSt ε, Holds q.prc q.st → rs.Nodup →
    (∀ r ∈ rs, ∀ l, r ∉ q.st.lists l) → ∃ q', rs.foldlM (PtrSt.initPool null) q = .ok q' ∧
      q'.st = rs.foldl (fun s r => { s with lists := s.lists.addTail .pool r }) q.st ∧ Holds q'.prc q'.st ∧
      q'.mng = q.mng := by
  induction rs with
  | nil => exact fun q hq _ _ => ⟨q, rfl, rfl, hq, rfl⟩
  | cons r rs ih =>
    intro q hq hnd hnew
    obtain ⟨hr, hnd⟩ := List.nodup_cons.1 hnd
    have hnode : ∀ l, Lists.Node.entry r ∉ Lists.Node.head l :: nodesOf q.st.lists l := by
      intro l
      simpa [mem_nodesOf] using hnew r List.mem_cons_self l
    obtain ⟨hp, hadd, hrings⟩ := addTail_rings null hq .pool hnode
    rw [← nodesOf_addTail] at hrings
    have hround : PtrSt.initPool null q r =
        .ok ⟨{ q.st with lists := q.st.lists.addTail .pool r }, hp, q.mng⟩ := by
      rw [PtrSt.initPool, hadd, ok_bind]
    rw [List.foldlM_cons, hround, ok_bind, List.foldl_cons]
    refine ih ⟨{ q.st with lists := q.st.lists.addTail .pool r }, hp, q.mng⟩ hrings hnd fun r' hr' l hm => ?_
    rcases Lists.mem_addTail.1 hm with hm | ⟨rfl, -⟩
    · exact hnew r' (List.mem_cons_of_mem r hr') l hm
    · exact hr hr'

theorem step_core {E : Env ε μ} {e : Event μ} (hcore : Core s) (h : step E s e = .ok t) : Core t := by
  have hout := step_outcome (E := E) (V := AnyType) (fun _ _ => trivial) hcore (observes_any e)
  rw [h] at hout
  exact chain_inv (I := Core) (fun _ _ hm => move_core hm.choose_spec) hout hcore

section Start

variable (timer : TimerId → Bool) (needKillPrc : Bool) (exeName : Option String) (selfSlot : ℤ) (env : ε)

/-- after `sInitPool`: every record is in the pool, and no manager has been put into a list -/
theorem sInitPool_rep (null : Fault) : ∃ q,
    PtrSt.sInitPool null (PtrSt.boot timer needKillPrc exeName selfSlot env) = .ok q ∧
    RepBut (· ∈ statics) (RtPrcInfo.sInitPool (boot timer needKillPrc exeName selfSlot env)) q := by
  have hprc : Rings (Lists.Node.head (ι := ListId) (α := RecId)) (fun a => ⟨some a, some a⟩) fun _ => [] :=
    Rings.empty (fun _ _ he => Lists.Node.head.inj he) fun _ => rfl
  have hmng : Rings (Lists.Node.head (ι := Unit) (α := MngId)) (fun a => ⟨some a, some a⟩) (waiting []) :=
    Rings.empty (fun _ _ he => Lists.Node.head.inj he) fun _ => rfl
  obtain ⟨q, hq, hst, hholds, hm⟩ := initPool_foldlM null (List.finRange (etinSlotMax + maxStaticPrcNum))
    (PtrSt.boot timer needKillPrc exeName selfSlot env) hprc (List.nodup_finRange _) fun _ _ _ => List.not_mem_nil
  have hst' : q.st = RtPrcInfo.sInitPool (boot timer needKillPrc exeName selfSlot env) := hst
  refine ⟨q, hq, hst', hst' ▸ hholds, ?_, ?_, ?_⟩
  · intro r
    rw [sInitPool_boot]
    exact ⟨.pool, by simp [St.ready]⟩
  · rw [sInitPool_boot, hm]
    exact hmng
  · intro p _ hp
    cases p with
    | stat i => exact absurd (List.mem_map_of_mem (List.mem_finRange i)) hp
    | dyn i =>
      rw [sInitPool_boot]
      exact Or.inr ⟨i, rfl, rfl⟩

/-- each static manager is put into the list once -/
theorem processStart_same (null : Fault) :
    SameUpTo IsAddLinked Rep (processStart (boot timer needKillPrc exeName selfSlot env))
      (PtrSt.processStart null (PtrSt.boot timer needKillPrc exeName selfSlot env)) := by
  obtain ⟨q, hq, hrep⟩ := sInitPool_rep timer needKillPrc exeName selfSlot env null
  unfold processStart PtrSt.processStart
  rw [hq, ok_bind]
  refine (SameUpTo.foldlM (R := fun ps => RepBut (· ∈ ps)) ?_ statics hrep).bind ?_
  · intro p ps u v h
    refine (addIn2Start_same p h).mono fun _ _ hadd => hadd.weaken fun x hx => ?_
    exact (List.mem_cons.1 hx.1).resolve_left hx.2
  · intro u v _ h
    exact SameUpTo.ok ((h.weaken fun p hp => absurd hp List.not_mem_nil).upd (Untouched.other rfl rfl rfl) rfl)

/-- no event tries to put a manager into the list that waits already -/
theorem run_fault {E : Env ε μ} {es : List (Event μ)} {x : Fault} (hcore : Core s) (h : run E s es = .error x) :
    ¬ IsAddLinked x := by
  obtain ⟨t, e, hct, ht⟩ := runFrom_fault (I := Core) (fun _ _ _ => step_core) hcore h
  have hout := step_outcome (E := E) (V := AnyType) (fun _ _ => trivial) hct (observes_any e)
  rw [ht] at hout
  obtain ⟨u, -, hfault⟩ := hout
  rintro ⟨p, rfl⟩
  exact hfault

/-- **The process manager over pointers is the one over abstract lists.** From the constructors on, in any run of
callbacks and shutdown calls and whatever the environment answers, both return the same and the links hold the lists, or
both end in the same fault. So no NULL is dereferenced but by the `del` of a manager that waits no longer. -/
theorem pointers_refine (E : Env ε μ) (null stuck : Fault) (es : List (Event μ)) :
    SameUpTo (fun _ => False) Rep
      (processStart (boot timer needKillPrc exeName selfSlot env) >>= fun s => run E s es)
      (PtrSt.run E null stuck (PtrSt.boot timer needKillPrc exeName selfSlot env) es) := by
  have hrun : SameUpTo IsAddLinked Rep
      (processStart (boot timer needKillPrc exeName selfSlot env) >>= fun s => run E s es)
      (PtrSt.run E null stuck (PtrSt.boot timer needKillPrc exeName selfSlot env) es) := by
    refine (processStart_same timer needKillPrc exeName selfSlot env null).bind fun s q hs hrep => ?_
    rw [processStart_boot] at hs
    cases hs
    show SameUpTo IsAddLinked Rep (runFrom (step E) _ es) (runFrom (PtrSt.step E null stuck) q es)
    refine sameUpTo_run (I := Core) ?_ ?_ (ready_core ..) hrep es
    · exact fun _ _ _ => step_core
    · exact fun _ _ e hcore h => step_same hcore h e
  apply hrun.strict
  intro x hx
  rw [processStart_boot, ok_bind] at hx
  exact run_fault (ready_core ..) hx

end Start

end LinuxDrv.Pdm
