/-
The intrusive list of the process manager (`cplist.h`), over pointers.

A node derives from `CListHeader` and carries its links; the head of a list is a node of its own ring. The functions
follow the source statement by statement, on a heap that gives every node its links. A NULL that is asserted against or
dereferenced is the fault `null`. The loop of `listForEachSafe` has fuel, `stuck` is running out of it.

`Rings heads h L` (see `Core.Ring`) says that the heap holds the lists L.
- `accept_rings`, `addTail_rings`, `del_rings`: the operations of the abstract lists.
- `listForEachSafe_eq_foldlM`: a traversal is the loop over the list as it stood at its start.
- `cplist_refines`: all of it, for any heap and any family of lists on it.
- `traversal_refines`: so the traversals of the process manager, whose state has abstract lists, are those of the code.
-/
import LinuxDrv.Core.Ring
import LinuxDrv.Core.Loop
import LinuxDrv.Pdm.Outcomes

set_option linter.unusedSectionVars false

namespace LinuxDrv.Pdm

open LinuxDrv.Core

variable {ι A σ φ : Type} [DecidableEq ι] [DecidableEq A]

/-! ## CListHeader -/

/-- `CListHeader`: `m_pNext` and `m_pPrev` -/
abbrev CListHeader (A : Type) := Links A

namespace CListHeader

/-- the constructor -/
def ctor (this : A) (h : Heap A) : Heap A := Function.update h this ⟨some this, some this⟩

section

variable (null : φ)

/-- a pointer that must not be NULL -/
def deref (p : Option A) : Except φ A :=
  match p with
  | some a => .ok a
  | none => .error null

def next (this : A) (h : Heap A) : Except φ A := deref null (h this).next

def prev (this : A) (h : Heap A) : Except φ A := deref null (h this).prev

def sIntDel (pPrev pNext : Option A) (h : Heap A) : Except φ (Heap A) := do
  let pPrev ← deref null pPrev
  let pNext ← deref null pNext
  let h := h.setPrev pNext (some pPrev)
  .ok (h.setNext pPrev (some pNext))

def del (this : A) (h : Heap A) : Except φ (Heap A) := do
  let h ← sIntDel null (h this).prev (h this).next h
  .ok ((h.setNext this none).setPrev this none)

end

end CListHeader

/-! ## CListHead -/

namespace CListHead

open CListHeader

section

variable (null : φ)

def isEmpty (this : A) (h : Heap A) : Bool := decide ((h this).next = some this)

def sIntAdd (pNew : A) (pPrev : Option A) (pNext : A) (h : Heap A) : Except φ (Heap A) := do
  let h := h.setPrev pNext (some pNew)
  let h := h.setNext pNew (some pNext)
  let h := h.setPrev pNew pPrev
  let pPrev ← deref null pPrev
  .ok (h.setNext pPrev (some pNew))

def addTail (this pNew : A) (h : Heap A) : Except φ (Heap A) := sIntAdd null pNew (h this).prev this h

def getFirstEntry (this : A) (h : Heap A) : Option A := if isEmpty this h then none else (h this).next

def getLastEntry (this : A) (h : Heap A) : Option A := if isEmpty this h then none else (h this).prev

def accept (this pNew : A) (h : Heap A) : Except φ (Heap A) := do
  let h ← sIntDel null (h pNew).prev (h pNew).next h
  addTail null this pNew h

/-- one round of `listForEachSafe`, and the step to the next node -/
def forStep (heap : σ → Heap A) (body : A → σ → Except φ σ) (r : σ × A × A) : Except φ (σ × A × A) := do
  let s ← body r.2.1 r.1
  let pN ← next null r.2.2 (heap s)
  .ok (s, r.2.2, pN)

/-- `listForEachSafe(pInst, head) body` -/
def listForEachSafe (stuck : φ) (heap : σ → Heap A) (body : A → σ → Except φ σ) (head : A) (n : ℕ) (s : σ) :
    Except φ σ := do
  let pInst ← next null head (heap s)
  let pN ← next null pInst (heap s)
  let r ← whileLoop stuck (fun r => decide (r.2.1 ≠ head)) (forStep null heap body) n (s, pInst, pN)
  .ok r.1

end

end CListHead

open CListHeader CListHead

variable {null stuck : φ} {heads : ι → A} {h : Heap A} {L : Lists ι A} {l : ι} {x : A}

/-! ## Operations -/

theorem next_eq {a : A} (hx : (h x).next = some a) : next null x h = .ok a := by
  rw [next, hx]
  rfl

theorem sIntDel_eq (p s : A) (h : Heap A) : sIntDel null (some p) (some s) h = .ok (h.splice p s) := rfl

theorem addTail_eq {p : A} (hp : (h (heads l)).prev = some p) :
    addTail null (heads l) x h = .ok (h.insert x p (heads l)) := by
  rw [addTail, hp]
  rfl

/-- constructed heads are empty lists -/
theorem ctor_rings {h : Heap A} (hinj : Function.Injective heads)
    (hctor : ∀ i, ctor (heads i) h (heads i) = h (heads i)) : Rings heads h fun _ => [] := by
  apply Rings.empty hinj
  intro i
  rw [← hctor i, ctor, Function.update_self]

theorem addTail_rings (null : φ) (hr : Rings heads h L) (l : ι) (hx : ∀ i, x ∉ heads i :: L i) :
    ∃ h', addTail null (heads l) x h = .ok h' ∧ Rings heads h' (L.addTail l x) := by
  obtain ⟨p, hp, hr'⟩ := hr.insert l hx
  exact ⟨_, addTail_eq hp, hr'⟩

/-- what is taken out of its list is in none -/
theorem notMem_unlink (hr : Rings heads h L) (hx : x ∈ L l) (i : ι) : x ∉ heads i :: L.unlink x i := by
  rw [List.mem_cons, not_or]
  refine ⟨?_, fun hm => (Lists.mem_unlink.1 hm).2 rfl⟩
  rintro rfl
  exact hr.head_notMem i l hx

theorem accept_rings (null : φ) (hr : Rings heads h L) (l : ι) {k : ι} (hx : x ∈ L k) :
    ∃ h', accept null (heads l) x h = .ok h' ∧ Rings heads h' (L.accept l x) := by
  obtain ⟨p, s, hp, hs, hr'⟩ := hr.splice hx
  obtain ⟨h', hadd, hr''⟩ := addTail_rings null hr' l (notMem_unlink hr hx)
  refine ⟨h', ?_, hr''⟩
  rw [accept, hp, hs, sIntDel_eq, ok_bind]
  exact hadd

/-- a node that is linked to itself, as its constructor leaves it, may be accepted too -/
theorem accept_self_rings (null : φ) (hr : Rings heads h L) (l : ι) (hx : ∀ i, x ∉ heads i :: L i)
    (hself : h x = ⟨some x, some x⟩) :
    ∃ h', accept null (heads l) x h = .ok h' ∧ Rings heads h' (L.addTail l x) := by
  have hsplice : h.splice x x = h := by
    funext a
    by_cases ha : a = x
    · subst ha
      simp [Heap.splice, Heap.setNext, Heap.setPrev, hself]
    · simp [Heap.splice, Heap.setNext, Heap.setPrev, ha]
  obtain ⟨h', hadd, hr'⟩ := addTail_rings null hr l hx
  refine ⟨h', ?_, hr'⟩
  rw [accept, hself, sIntDel_eq, ok_bind, hsplice]
  exact hadd

theorem del_rings (null : φ) (hr : Rings heads h L) {k : ι} (hx : x ∈ L k) :
    ∃ h', del null x h = .ok h' ∧ Rings heads h' (L.unlink x) ∧ h' x = ⟨none, none⟩ := by
  obtain ⟨p, s, hp, hs, hr'⟩ := hr.splice hx
  refine ⟨_, by rw [del, hp, hs, sIntDel_eq, ok_bind], ?_, ?_⟩
  · have hother : ∀ i, ∀ a ∈ heads i :: L.unlink x i, a ≠ x := fun i a ha he => notMem_unlink hr hx i (he ▸ ha)
    apply hr'.congr
    · intro i a ha
      rw [Heap.setPrev_next, Heap.setNext_next, if_neg (hother i a ha)]
    · intro i a ha
      rw [Heap.setPrev_prev, if_neg (hother i a ha), Heap.setNext_prev]
  · simp [Heap.setPrev, Heap.setNext]

theorem isEmpty_rings (hr : Rings heads h L) (l : ι) : isEmpty (heads l) h = (L l).isEmpty := by
  rw [isEmpty, hr.next_head]
  rcases hl : L l with _ | ⟨y, ys⟩
  · simp
  · have hne : y ≠ heads l := fun he => hr.head_notMem l l (by rw [hl, ← he]; exact List.mem_cons_self)
    simp [hne]

theorem getFirstEntry_rings (hr : Rings heads h L) (l : ι) : getFirstEntry (heads l) h = (L l).head? := by
  rw [getFirstEntry, isEmpty_rings hr, hr.next_head]
  rcases L l with _ | ⟨y, ys⟩ <;> rfl

theorem getLastEntry_rings (hr : Rings heads h L) (l : ι) : getLastEntry (heads l) h = (L l).getLast? := by
  rw [getLastEntry, isEmpty_rings hr, hr.prev_head]
  rcases L l with _ | ⟨y, ys⟩
  · rfl
  · rw [List.getLast?_cons]
    rfl

/-! ## Traversals -/

section Traversal

variable {heap : σ → Heap A} {body : A → σ → Except φ σ} {R : σ → Lists ι A → Prop}

/-- the current node stayed or left: either way `rest` is what is still to come -/
theorem rest_stays {L' : Lists ι A} {pre rest : List A} (hnd : (L l).Nodup) (hl : L l = pre ++ x :: rest)
    (hleft : L' l = L l ∨ L' l = (L l).filter fun y => decide (y ≠ x)) : ∃ pre', L' l = pre' ++ rest := by
  rcases hleft with hsame | hout
  · exact ⟨pre ++ [x], by simp [hsame, hl]⟩
  · rw [hl] at hnd
    exact ⟨pre, by rw [hout, hl, Lists.filter_ne_of_nodup hnd]⟩

/-- the node after the next one is there to be read, also after the last node, where it is not used -/
theorem lookAhead (null : φ) (hr : Rings heads h L) {pre rest : List A} (hl : L l = pre ++ rest) :
    ∃ pN, next null (rest.head?.getD (heads l)) h = .ok pN ∧
      ∀ y rest', rest = y :: rest' → pN = rest'.head?.getD (heads l) := by
  rcases rest with _ | ⟨y, rest'⟩
  · exact ⟨_, next_eq (hr.next_head l), by simp⟩
  · refine ⟨_, next_eq (hr.next_entry hl), ?_⟩
    intro z rest'' hz
    obtain ⟨-, rfl⟩ := List.cons.inj hz
    rfl

/-- from a round on: the current node is the first one of `rest`, and the node after it is known -/
theorem whileLoop_round_eq (hR : ∀ s L, R s L → Rings heads (heap s) L)
    (hbody : ∀ s L x t, R s L → x ∈ L l → body x s = .ok t →
      ∃ L', R t L' ∧ (L' l = L l ∨ L' l = (L l).filter fun y => decide (y ≠ x)))
    (rest : List A) : ∀ (pre : List A) (s : σ) (L : Lists ι A) (pN : A) (n : ℕ), R s L → L l = pre ++ rest →
      (∀ x rest', rest = x :: rest' → pN = rest'.head?.getD (heads l)) → rest.length ≤ n →
      (whileLoop stuck (fun r => decide (r.2.1 ≠ heads l)) (forStep null heap body) n
        (s, rest.head?.getD (heads l), pN) >>= fun r => .ok r.1) = rest.foldlM (fun s x => body x s) s := by
  induction rest with
  | nil =>
    intro pre s L pN n _ _ _ _
    rw [whileLoop_done (by simp), ok_bind]
    rfl
  | cons x rest ih =>
    intro pre s L pN n hs hl hpN hn
    obtain ⟨n, rfl⟩ : ∃ m, n = m + 1 := ⟨n - 1, by rw [List.length_cons] at hn; omega⟩
    have hx : x ∈ L l := by simp [hl]
    have hne : decide (x ≠ heads l) = true := decide_eq_true fun he => (hR s L hs).head_notMem l l (he ▸ hx)
    rw [hpN x rest rfl, List.foldlM_cons, List.head?_cons, Option.getD_some, whileLoop, if_pos hne]
    rcases hb : body x s with e | t
    · simp only [forStep, hb, error_bind]
    · obtain ⟨L', ht, hlt⟩ := hbody s L x t hs hx hb
      obtain ⟨pre', hpre⟩ := rest_stays ((hR s L hs).wf.nodup l) hl hlt
      -- the node after the next one is read after the body has run
      obtain ⟨pN', hpN', hlook⟩ := lookAhead null (hR t L' ht) hpre
      have hround : forStep null heap body (s, x, rest.head?.getD (heads l)) =
          .ok (t, rest.head?.getD (heads l), pN') := by
        simp only [forStep, hb, ok_bind, hpN']
      rw [hround, ok_bind, ok_bind]
      exact ih pre' t L' pN' n ht hpre hlook (by rw [List.length_cons] at hn; omega)

/-- **A safe traversal is the loop over a snapshot.** If the body keeps a relation of the states to lists on the heap,
and at most takes the current node out of the traversed list, the traversal visits the nodes that the list had at the
start, in order, once each, and ends after as many rounds. -/
theorem listForEachSafe_eq_foldlM (hR : ∀ s L, R s L → Rings heads (heap s) L)
    (hbody : ∀ s L x t, R s L → x ∈ L l → body x s = .ok t →
      ∃ L', R t L' ∧ (L' l = L l ∨ L' l = (L l).filter fun y => decide (y ≠ x)))
    {s : σ} (hs : R s L) {n : ℕ} (hn : (L l).length ≤ n) :
    listForEachSafe null stuck heap body (heads l) n s = (L l).foldlM (fun s x => body x s) s := by
  have hrings := hR s L hs
  obtain ⟨pN, hpN, hlook⟩ := lookAhead null hrings (List.nil_append (L l)).symm
  rw [listForEachSafe, next_eq (hrings.next_head l), ok_bind, hpN, ok_bind]
  exact whileLoop_round_eq hR hbody (L l) [] s L pN n hs (List.nil_append _).symm hlook hn

end Traversal

/-! ## Refinement -/

/-- the body, with a log of the nodes it was run on -/
def logged (body : A → σ → Except φ σ) (x : A) (p : σ × List A) : Except φ (σ × List A) := do
  let t ← body x p.1
  .ok (t, p.2 ++ [x])

/-- what one run of a body may leave of the traversed list -/
theorem moved_or_same {h' : Heap A} (hh : Rings heads h' L ∨ ∃ k, k ≠ l ∧ Rings heads h' (L.accept k x)) :
    ∃ L', Rings heads h' L' ∧ (L' l = L l ∨ L' l = (L l).filter fun y => decide (y ≠ x)) := by
  rcases hh with hsame | ⟨k, hk, hmoved⟩
  · exact ⟨L, hsame, Or.inl rfl⟩
  · exact ⟨_, hmoved, Or.inr (Lists.accept_other hk.symm)⟩

/-- the loop over the nodes `xs` of list `l` has done some of them; the rest is still in the list -/
structure Visited (heads : ι → A) (heap : σ → Heap A) (l : ι) (xs done : List A) (p : σ × List A) : Prop where
  log : p.2 = done
  rest : ∃ L pre rest, done ++ rest = xs ∧ Rings heads (heap p.1) L ∧ L l = pre ++ rest

/-- a traversal whose body does not fail ends, and visits the nodes of the list -/
theorem listForEachSafe_logged {heap : σ → Heap A} {body : A → σ → Except φ σ}
    (hbody : ∀ s L x, Rings heads (heap s) L → x ∈ L l → ∃ t, body x s = .ok t ∧
      (Rings heads (heap t) L ∨ ∃ k, k ≠ l ∧ Rings heads (heap t) (L.accept k x)))
    {s : σ} (hr : Rings heads (heap s) L) : ∃ t,
      Returns (fun n => listForEachSafe null stuck (fun p => heap p.1) (logged body) (heads l) n (s, [])) (t, L l) := by
  have hloop : ∀ n, (L l).length ≤ n →
      listForEachSafe null stuck (fun p => heap p.1) (logged body) (heads l) n (s, []) =
        (L l).foldlM (fun p x => logged body x p) (s, []) := by
    intro n hn
    apply listForEachSafe_eq_foldlM (R := fun p L => Rings heads (heap p.1) L) (fun _ _ h => h) _ hr hn
    intro p L x q hrings hx hq
    obtain ⟨t, ht, hmove⟩ := hbody p.1 L x hrings hx
    rw [logged, ht, ok_bind] at hq
    cases hq
    exact moved_or_same hmove
  have hfold : ∃ p, (L l).foldlM (fun p x => logged body x p) (s, []) = .ok p ∧ Visited heads heap l (L l) (L l) p := by
    apply foldlM_done_total (I := Visited heads heap l (L l))
    · rintro done x rest ⟨u, log⟩ hl ⟨hlog, L', pre, rest', hl', hrings, hpre⟩
      obtain rfl : rest' = x :: rest := List.append_cancel_left (hl'.trans hl.symm)
      dsimp only at hlog hrings
      obtain ⟨t, ht, hmove⟩ := hbody u L' x hrings (by simp [hpre])
      obtain ⟨L'', hrings', hleft⟩ := moved_or_same hmove
      obtain ⟨pre', hpre'⟩ := rest_stays (hrings.wf.nodup l) hpre hleft
      refine ⟨(t, log ++ [x]), by rw [logged, ht, ok_bind], by rw [hlog], L'', pre', rest, ?_, hrings', hpre'⟩
      simpa using hl
    · exact ⟨rfl, L, [], L l, rfl, hr, rfl⟩
  obtain ⟨⟨t, log⟩, hp, hvisited⟩ := hfold
  obtain rfl : log = L l := hvisited.log
  exact ⟨t, (L l).length, fun n hn => (hloop n hn).trans hp⟩

/-- `cplist.h` on a heap that holds the lists L is the abstract lists -/
structure CplistRefines (heads : ι → A) (h : Heap A) (L : Lists ι A) : Prop where
  accept : ∀ {φ : Type} (null : φ) l k x, x ∈ L k →
    ∃ h', CListHead.accept null (heads l) x h = .ok h' ∧ Rings heads h' (L.accept l x)
  addTail : ∀ {φ : Type} (null : φ) l x, (∀ i, x ∉ heads i :: L i) →
    ∃ h', CListHead.addTail null (heads l) x h = .ok h' ∧ Rings heads h' (L.addTail l x)
  del : ∀ {φ : Type} (null : φ) k x, x ∈ L k →
    ∃ h', CListHeader.del null x h = .ok h' ∧ Rings heads h' (L.unlink x)
  /-- the other lists stay as they are -/
  others : ∀ l k x, k ≠ l → (x ∉ L k → L.accept l x k = L k ∧ L.unlink x k = L k) ∧ L.addTail l x k = L k
  isEmpty : ∀ l, CListHead.isEmpty (heads l) h = (L l).isEmpty
  getFirstEntry : ∀ l, CListHead.getFirstEntry (heads l) h = (L l).head?
  /-- a body may fail, may do anything else to its state, and at most moves the current node to another list -/
  forEachSafe : ∀ {σ φ : Type} (null stuck : φ) (heap : σ → Heap A) (body : A → σ → Except φ σ) l (s : σ), heap s = h →
    (∀ s L x t, Rings heads (heap s) L → x ∈ L l → body x s = .ok t →
      Rings heads (heap t) L ∨ ∃ k, k ≠ l ∧ Rings heads (heap t) (L.accept k x)) →
    ∀ n, (L l).length ≤ n →
      listForEachSafe null stuck heap body (heads l) n s = (L l).foldlM (fun s x => body x s) s
  /-- with a body that does not fail, the traversal ends, and a log of the visits has the nodes of the list in order -/
  visits : ∀ {σ φ : Type} (null stuck : φ) (heap : σ → Heap A) (body : A → σ → Except φ σ) l (s : σ), heap s = h →
    (∀ s L x, Rings heads (heap s) L → x ∈ L l → ∃ t, body x s = .ok t ∧
      (Rings heads (heap t) L ∨ ∃ k, k ≠ l ∧ Rings heads (heap t) (L.accept k x))) →
    ∃ t, Returns (fun n => listForEachSafe null stuck (fun p => heap p.1) (logged body) (heads l) n (s, [])) (t, L l)

/-- **The intrusive list refines the abstract lists**, for every heap and every family of rings on it. -/
theorem cplist_refines (hr : Rings heads h L) : CplistRefines heads h L where
  accept := fun null l _ _ hx => accept_rings null hr l hx
  addTail := fun null l _ hx => addTail_rings null hr l hx
  del := by
    intro φ null k x hx
    obtain ⟨h', hdel, hr', -⟩ := del_rings null hr hx
    exact ⟨h', hdel, hr'⟩
  others := by
    intro l k x hk
    exact ⟨fun hx => ⟨Lists.accept_of_notMem hk hx, Lists.unlink_of_notMem hx⟩, Function.update_of_ne hk _ _⟩
  isEmpty := isEmpty_rings hr
  getFirstEntry := getFirstEntry_rings hr
  forEachSafe := by
    intro σ φ null stuck heap body l s hs hbody n hn
    apply listForEachSafe_eq_foldlM (R := fun s L => Rings heads (heap s) L) (fun _ _ h => h) _ (hs ▸ hr) hn
    exact fun s L x t hrings hx ht => moved_or_same (hbody s L x t hrings hx ht)
  visits := by
    intro σ φ null stuck heap body l s hs hbody
    exact listForEachSafe_logged hbody (hs ▸ hr)

/-- two heads, 0 and 1; the first one has the nodes 2 and 3, the second one none -/
def twoRings : Heap ℕ := fun a =>
  match a with
  | 0 => ⟨some 2, some 3⟩
  | 1 => ⟨some 1, some 1⟩
  | 2 => ⟨some 3, some 0⟩
  | 3 => ⟨some 0, some 2⟩
  | _ => ⟨none, none⟩

theorem cplist_refines_twoRings : CplistRefines (fun b : Bool => if b then 1 else 0) twoRings
    (fun b => if b then [] else [2, 3]) := by
  apply cplist_refines
  refine ⟨⟨by decide, ?_⟩, by decide, by decide, ?_⟩
  · rintro (_ | _) (_ | _) x hx hx'
    · rfl
    · exact absurd hx' List.not_mem_nil
    · exact absurd hx List.not_mem_nil
    · rfl
  · rintro (_ | _)
    · have hnext : Linked twoRings 0 2 ∧ Linked twoRings 2 3 ∧ Linked twoRings 3 0 :=
        ⟨⟨rfl, rfl⟩, ⟨rfl, rfl⟩, ⟨rfl, rfl⟩⟩
      simpa using hnext
    · have hself : Linked twoRings 1 1 := ⟨rfl, rfl⟩
      simpa using hself

/-! ## The lists of the process manager -/

/-- `s_listPool`, `s_listNormal`, `s_listExiting`, `s_listKilling`, and the records -/
abbrev PrcNode := Lists.Node ListId RecId

section Prc

variable {ε μ : Type} {E : Env ε μ} {s : St ε} {hp : Heap PrcNode} {r : RecId}

/-- the nodes of the lists of a state -/
def nodesOf (L : Lists ListId RecId) : Lists ListId PrcNode := fun l => (L l).map Lists.Node.entry

/-- the heap holds the lists of the state -/
def Holds (hp : Heap PrcNode) (s : St ε) : Prop := Rings Lists.Node.head hp (nodesOf s.lists)

theorem mem_nodesOf {L : Lists ListId RecId} {l : ListId} : Lists.Node.entry r ∈ nodesOf L l ↔ r ∈ L l := by
  simp [nodesOf]

theorem nodesOf_filter (xs : List RecId) (r : RecId) :
    (xs.filter fun y => decide (y ≠ r)).map (Lists.Node.entry (ι := ListId)) =
      (xs.map Lists.Node.entry).filter fun y => decide (y ≠ Lists.Node.entry r) := by
  rw [List.filter_map]
  congr 1
  apply List.filter_congr
  intro y _
  simp

theorem nodesOf_accept (L : Lists ListId RecId) (l : ListId) (r : RecId) :
    nodesOf (L.accept l r) = (nodesOf L).accept l (Lists.Node.entry r) := by
  funext k
  by_cases hk : k = l
  · subst hk
    simp only [nodesOf, Lists.accept, Lists.addTail, Function.update_self, Lists.unlink, List.map_append,
      nodesOf_filter, List.map_cons, List.map_nil]
  · rw [Lists.accept_other hk, nodesOf, Lists.accept_other hk, nodesOf_filter]
    rfl

theorem accept_holds (null : Fault) (hh : Holds hp s) (l : ListId) {k : ListId} (hr : r ∈ s.lists k) :
    ∃ hp', CListHead.accept null (Lists.Node.head l) (Lists.Node.entry r) hp = .ok hp' ∧ Holds hp' (s.accept l r) := by
  obtain ⟨hp', hacc, hr'⟩ := accept_rings null hh l (mem_nodesOf.2 hr)
  rw [← nodesOf_accept] at hr'
  exact ⟨hp', hacc, hr'⟩

/-- a computation over the heap does what the one over the abstract lists does -/
def SameOutcome : Except Fault (St ε) → Except Fault (St ε × Heap PrcNode) → Prop
  | .ok t, .ok q => q.1 = t ∧ Holds q.2 t
  | .error x, .error y => x = y
  | _, _ => False

/-- the body over the heap does what the one over the abstract lists does -/
def BodyRefines (l : ListId) (body : RecId → St ε → Except Fault (St ε))
    (bodyH : PrcNode → St ε × Heap PrcNode → Except Fault (St ε × Heap PrcNode)) : Prop :=
  ∀ s hp r, Core s → r ∈ s.lists l → Holds hp s → SameOutcome (body r s) (bodyH (Lists.Node.entry r) (s, hp))

variable {l : ListId} {body : RecId → St ε → Except Fault (St ε)}
  {bodyH : PrcNode → St ε × Heap PrcNode → Except Fault (St ε × Heap PrcNode)} {null stuck : Fault}

/-- from a round on: what is still to be visited is still in the list -/
theorem foldlM_refines (hb : Body l body) (hbH : BodyRefines l body bodyH) (rest : List RecId) :
    ∀ (pre : List RecId) (s : St ε) (hp : Heap PrcNode), Core s → Holds hp s → s.lists l = pre ++ rest →
      SameOutcome (rest.foldlM (fun s r => body r s) s)
        ((rest.map Lists.Node.entry).foldlM (fun q x => bodyH x q) (s, hp)) := by
  induction rest with
  | nil => exact fun _ s hp _ hh _ => ⟨rfl, hh⟩
  | cons r rest ih =>
    intro pre s hp hcore hh hl
    have hr : r ∈ s.lists l := by simp [hl]
    have hsame := hbH s hp r hcore hr hh
    rw [List.map_cons, List.foldlM_cons, List.foldlM_cons]
    rcases hbr : body r s with x | t <;> rcases hbq : bodyH (Lists.Node.entry r) (s, hp) with y | ⟨u, hp'⟩
    · rw [hbr, hbq] at hsame
      exact hsame
    · rw [hbr, hbq] at hsame
      exact absurd hsame id
    · rw [hbr, hbq] at hsame
      exact absurd hsame id
    · rw [hbr, hbq] at hsame
      obtain ⟨rfl, hh'⟩ := hsame
      obtain ⟨hcore', hlt⟩ := hb s r u hcore hr hbr
      rw [ok_bind, ok_bind]
      rcases hlt with hlt | hlt
      · exact ih (pre ++ [r]) u hp' hcore' hh' (by simp [hlt, hl])
      · have hnd := hcore.wf.nodup l
        rw [hl] at hnd
        exact ih pre u hp' hcore' hh' (by rw [hlt, hl, Lists.filter_ne_of_nodup hnd])

/-- **The traversals of the process manager are those of the code.** -/
theorem traversal_refines (hcore : Core s) (hb : Body l body) (hbH : BodyRefines l body bodyH) (hh : Holds hp s) {n : ℕ}
    (hn : (s.lists l).length ≤ n) : SameOutcome (RtPrcInfo.listForEachSafe l body s)
      (CListHead.listForEachSafe null stuck Prod.snd bodyH (Lists.Node.head l) n (s, hp)) := by
  have hpointers : CListHead.listForEachSafe null stuck Prod.snd bodyH (Lists.Node.head l) n (s, hp) =
      (nodesOf s.lists l).foldlM (fun q x => bodyH x q) (s, hp) := by
    apply listForEachSafe_eq_foldlM
      (R := fun q L => Core q.1 ∧ Holds q.2 q.1 ∧ L = nodesOf q.1.lists) _ _ ⟨hcore, hh, rfl⟩
    · simpa [nodesOf] using hn
    · rintro q _ ⟨-, hh, rfl⟩
      exact hh
    · rintro ⟨s, hp⟩ _ x ⟨t, hp'⟩ ⟨hcore, hh, rfl⟩ hx hq
      obtain ⟨r, hr, rfl⟩ := List.mem_map.1 hx
      have hsame := hbH s hp r hcore hr hh
      rw [hq] at hsame
      rcases hbr : body r s with y | u
      · rw [hbr] at hsame
        exact absurd hsame id
      · rw [hbr] at hsame
        obtain ⟨rfl, hh'⟩ := hsame
        obtain ⟨hcore', hlt⟩ := hb s r t hcore hr hbr
        refine ⟨_, ⟨hcore', hh', rfl⟩, ?_⟩
        rcases hlt with hlt | hlt
        · exact Or.inl (by rw [nodesOf, nodesOf, hlt])
        · exact Or.inr (by rw [nodesOf, nodesOf, hlt, nodesOf_filter])
  rw [hpointers, listForEachSafe_eq hcore hb]
  exact foldlM_refines hb hbH (s.lists l) [] s hp hcore hh (List.nil_append _).symm

end Prc

/-! ### The callbacks over the heap -/

namespace Pointers

variable {ε μ : Type} (E : Env ε μ) (null stuck : Fault)

/-- `sKill` -/
def sKill (r : RecId) (q : St ε × Heap PrcNode) : Except Fault (St ε × Heap PrcNode) :=
  if q.1.needKillPrc = false then .ok q
  else do
    let s ← RtPrcInfo.signalKill E r q.1
    let s := s.clrTimes r
    let s := if CListHead.isEmpty (Lists.Node.head ListId.killing) q.2 then s.startTimer .kill else s
    let hp ← CListHead.accept null (Lists.Node.head ListId.killing) (Lists.Node.entry r) q.2
    .ok (s.accept .killing r, hp)

/-- the body of the loop of `sCheckLiveState`; the cast makes a head a record, so it must not be one -/
def checkLive (x : PrcNode) (q : St ε × Heap PrcNode) : Except Fault (St ε × Heap PrcNode) :=
  match x with
  | .head _ => .error stuck
  | .entry r =>
    if RtPrcInfo.isLive (q.1.rt r) RtPrcInfo.diffSpvHello then .ok (q.1.clrTimes r, q.2) else sKill E null r q

/-- `sCheckLiveState` -/
def sCheckLiveState (n : ℕ) (q : St ε × Heap PrcNode) : Except Fault (St ε × Heap PrcNode) :=
  CListHead.listForEachSafe null stuck Prod.snd (checkLive E null stuck) (Lists.Node.head ListId.normal) n q

/-- the body of the loop of `sHello4Live` -/
def hello (x : PrcNode) (q : St ε × Heap PrcNode) : Except Fault (St ε × Heap PrcNode) :=
  match x with
  | .head _ => .error stuck
  | .entry r => .ok (RtPrcInfo.sendHello r q.1, q.2)

/-- `sHello4Live` -/
def sHello4Live (n : ℕ) (q : St ε × Heap PrcNode) : Except Fault (St ε × Heap PrcNode) :=
  CListHead.listForEachSafe null stuck Prod.snd (hello stuck) (Lists.Node.head ListId.normal) n q

variable {E null stuck} {s : St ε} {hp : Heap PrcNode}

theorem signalKill_lists {r : RecId} {t : St ε} (h : RtPrcInfo.signalKill E r s = .ok t) : t.lists = s.lists := by
  unfold RtPrcInfo.signalKill RtPrcInfo.signal at h
  dsimp only at h
  split_ifs at h
  cases h
  rfl

theorem isEmpty_holds (hh : Holds hp s) (l : ListId) :
    CListHead.isEmpty (Lists.Node.head l) hp = decide (s.lists l = []) := by
  rw [isEmpty_rings hh]
  rcases hl : s.lists l with _ | ⟨r, rs⟩ <;> simp [nodesOf, hl]

theorem sKill_refines {r : RecId} {k : ListId} (hr : r ∈ s.lists k) (hh : Holds hp s) :
    SameOutcome (RtPrcInfo.sKill E r s) (sKill E null r (s, hp)) := by
  unfold RtPrcInfo.sKill sKill
  by_cases hneed : s.needKillPrc = false
  · rw [if_pos hneed, if_pos hneed]
    exact ⟨rfl, hh⟩
  rw [if_neg hneed, if_neg hneed]
  rcases hsig : RtPrcInfo.signalKill E r s with x | t
  · rfl
  have hlists := signalKill_lists hsig
  -- the timer is started on the same test, and the record is moved from the same lists
  set u := if s.lists .killing = [] then (t.clrTimes r).startTimer .kill else t.clrTimes r with hu
  have hulists : u.lists = s.lists := by
    rw [hu]
    split_ifs <;> exact hlists
  have hholds : Holds hp u := by
    rw [Holds, hulists]
    exact hh
  obtain ⟨hp', hacc, hh'⟩ := accept_holds null hholds .killing (hulists.symm ▸ hr)
  have hmove : RtPrcInfo.moveTo .killing .kill r t = u.accept .killing r := by
    rw [hu, ← hlists]
    rfl
  rw [ok_bind, ok_bind, isEmpty_holds hh, hmove]
  simp only [decide_eq_true_eq, ← hu, hacc, ok_bind]
  exact ⟨rfl, hh'⟩

theorem checkLive_refines : BodyRefines .normal (RtPrcInfo.checkLive E) (checkLive E null stuck) := by
  intro s hp r _ hr hh
  simp only [RtPrcInfo.checkLive, checkLive]
  by_cases hlive : RtPrcInfo.isLive (s.rt r) RtPrcInfo.diffSpvHello = true
  · rw [if_pos hlive, if_pos hlive]
    exact ⟨rfl, hh⟩
  · rw [if_neg hlive, if_neg hlive]
    exact sKill_refines hr hh

theorem hello_refines : BodyRefines .normal (fun r (s : St ε) => .ok (RtPrcInfo.sendHello r s)) (hello stuck) :=
  fun _ _ _ _ _ hh => ⟨rfl, hh⟩

/-- `sCheckLiveState` over the heap is the one over the abstract lists -/
theorem sCheckLiveState_refines (hcore : Core s) (hh : Holds hp s) {n : ℕ} (hn : (s.lists .normal).length ≤ n) :
    SameOutcome (RtPrcInfo.sCheckLiveState E s) (sCheckLiveState E null stuck n (s, hp)) :=
  traversal_refines hcore checkLive_body checkLive_refines hh hn

/-- so is `sHello4Live` -/
theorem sHello4Live_refines (hcore : Core s) (hh : Holds hp s) {n : ℕ} (hn : (s.lists .normal).length ≤ n) :
    SameOutcome (RtPrcInfo.sHello4Live s) (sHello4Live null stuck n (s, hp)) :=
  traversal_refines hcore sendHello_body hello_refines hh hn

end Pointers

end LinuxDrv.Pdm
