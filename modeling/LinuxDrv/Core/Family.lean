/-
Families of lists that share their entries: the abstract side of an intrusive list library.

A node that carries its own links is in at most one list at a time, so moving it is one operation: `accept` takes the
node out of the list it is in and appends it to another. `Lists ι α` is a family of lists over entries α named by ι;
`Wf` says that no entry is listed twice.

`forEachSafe` is a traversal that may change the lists under its feet. It walks by cursors: it holds the current node
and the node after it, and reads the successor of the latter only after the body has run. `traverse_eq_foldlM`: when
the body at most takes the current entry out of the traversed list, the traversal is the plain loop over the list as
it stood at the start. It visits every entry once, in order, and ends.
-/
import LinuxDrv.Core.Outcome
import Mathlib.Data.List.Nodup
import Mathlib.Logic.Function.Basic

set_option linter.unusedSectionVars false

namespace LinuxDrv.Core

variable {ι α σ φ : Type} [DecidableEq ι] [DecidableEq α]

/-- a family of lists -/
abbrev Lists (ι α : Type) := ι → List α

namespace Lists

/-- `x` is taken out of the list that has it -/
def unlink (L : Lists ι α) (x : α) : Lists ι α := fun l => (L l).filter fun y => decide (y ≠ x)

/-- `x` is appended to list `l` -/
def addTail (L : Lists ι α) (l : ι) (x : α) : Lists ι α := Function.update L l (L l ++ [x])

/-- `x` is moved from the list that has it to the tail of list `l` -/
def accept (L : Lists ι α) (l : ι) (x : α) : Lists ι α := (L.unlink x).addTail l x

/-- no entry is linked twice -/
structure Wf (L : Lists ι α) : Prop where
  nodup : ∀ l, (L l).Nodup
  disj : ∀ l l' x, x ∈ L l → x ∈ L l' → l = l'

theorem mem_unlink {L : Lists ι α} {x y : α} {l : ι} : y ∈ L.unlink x l ↔ y ∈ L l ∧ y ≠ x := by
  simp [unlink]

theorem mem_addTail {L : Lists ι α} {x y : α} {l l' : ι} : y ∈ L.addTail l x l' ↔ y ∈ L l' ∨ (y = x ∧ l' = l) := by
  by_cases h : l' = l
  · subst h; simp [addTail]
  · simp [addTail, h]

theorem mem_accept {L : Lists ι α} {x y : α} {l l' : ι} :
    y ∈ L.accept l x l' ↔ (y ∈ L l' ∧ y ≠ x) ∨ (y = x ∧ l' = l) := by
  rw [accept, mem_addTail, mem_unlink]

/-- an entry that was in a list is in one after a move -/
theorem total_accept {L : Lists ι α} (hL : ∀ y, ∃ l, y ∈ L l) (l : ι) (x y : α) : ∃ l', y ∈ L.accept l x l' := by
  by_cases hyx : y = x
  · exact ⟨l, mem_accept.2 (Or.inr ⟨hyx, rfl⟩)⟩
  · obtain ⟨l', hl'⟩ := hL y
    exact ⟨l', mem_accept.2 (Or.inl ⟨hl', hyx⟩)⟩

/-- a list other than the target of a move only shrinks -/
theorem accept_other {L : Lists ι α} {x : α} {l l' : ι} (h : l' ≠ l) :
    L.accept l x l' = (L l').filter fun y => decide (y ≠ x) := by
  simp [accept, addTail, h, unlink]

/-- a list that does not have the entry stays as it is -/
theorem unlink_of_notMem {L : Lists ι α} {x : α} {l : ι} (hx : x ∉ L l) : L.unlink x l = L l := by
  apply List.filter_eq_self.2
  intro y hy
  exact decide_eq_true fun he : y = x => hx (he ▸ hy)

theorem accept_of_notMem {L : Lists ι α} {x : α} {l l' : ι} (h : l' ≠ l) (hx : x ∉ L l') : L.accept l x l' = L l' :=
  (accept_other h).trans (unlink_of_notMem hx)

theorem accept_nil {L : Lists ι α} {l l' : ι} (hne : l' ≠ l) (x : α) (h : L l' = []) : L.accept l x l' = [] := by
  rw [accept_other hne, h, List.filter_nil]

theorem Wf.addTail {L : Lists ι α} (hL : L.Wf) {l : ι} {x : α} (hx : ∀ l', x ∉ L l') : (L.addTail l x).Wf := by
  refine ⟨?_, ?_⟩
  · intro l'
    by_cases h : l' = l
    · subst h
      simp only [Lists.addTail, Function.update_self]
      exact (hL.nodup l').append (List.nodup_singleton x) (List.disjoint_singleton.2 (hx l'))
    · simp only [Lists.addTail, Function.update_of_ne h]
      exact hL.nodup l'
  · intro l₁ l₂ y h₁ h₂
    rw [mem_addTail] at h₁ h₂
    rcases h₁ with h₁ | ⟨rfl, rfl⟩ <;> rcases h₂ with h₂ | ⟨h₂, h₃⟩
    · exact hL.disj l₁ l₂ y h₁ h₂
    · subst h₂; exact absurd h₁ (hx l₁)
    · exact absurd h₂ (hx l₂)
    · exact h₃.symm

theorem Wf.unlink {L : Lists ι α} (hL : L.Wf) (x : α) : (L.unlink x).Wf :=
  ⟨fun l => (hL.nodup l).filter _, fun l l' y h h' => hL.disj l l' y (mem_unlink.1 h).1 (mem_unlink.1 h').1⟩

theorem Wf.accept {L : Lists ι α} (hL : L.Wf) (l : ι) (x : α) : (L.accept l x).Wf :=
  (hL.unlink x).addTail fun _ h => (mem_unlink.1 h).2 rfl

/-- taking an entry out leaves the entries before and after it -/
theorem filter_ne_of_nodup {pre rest : List α} {x : α} (h : (pre ++ x :: rest).Nodup) :
    ((pre ++ x :: rest).filter fun y => decide (y ≠ x)) = pre ++ rest := by
  obtain ⟨-, hxr, hd⟩ := List.nodup_append'.1 h
  have hpre : ∀ y ∈ pre, y ≠ x := fun y hy hyx => hd hy (by simp [hyx])
  have hrest : ∀ y ∈ rest, y ≠ x := fun y hy hyx => (List.nodup_cons.1 hxr).1 (hyx ▸ hy)
  rw [List.filter_append, List.filter_cons_of_neg (by simp), List.filter_eq_self.2 (by simpa using hpre),
    List.filter_eq_self.2 (by simpa using hrest)]

/-- another list accepts the first entry -/
theorem accept_first {L : Lists ι α} (hL : L.Wf) {l l' : ι} (hne : l ≠ l') {x : α} {xs : List α} (hl : L l = x :: xs) :
    L.accept l' x l = xs := by
  have hnd := hL.nodup l
  rw [hl] at hnd
  rw [accept_other hne, hl]
  exact filter_ne_of_nodup (show ([] ++ x :: xs).Nodup from hnd)

/-! ## Cursors -/

/-- what a cursor stands on: the head of a list or an entry -/
inductive Node (ι α : Type) where
  | head (l : ι)
  | entry (x : α)
deriving DecidableEq

/-- the first node of the rest of list `l`: its first entry, or the head again -/
def cur (l : ι) : List α → Node ι α
  | [] => .head l
  | x :: _ => .entry x

/-- the node after `x` in a list -/
def nextIn (l : ι) (x : α) : List α → Node ι α
  | [] => .head l
  | y :: ys => if y = x then cur l ys else nextIn l x ys

/-- the successor of a node; `ids` names the lists. An entry in no list is its own successor. -/
def next (ids : List ι) (L : Lists ι α) : Node ι α → Node ι α
  | .head l => cur l (L l)
  | .entry x =>
    match ids.find? fun l => decide (x ∈ L l) with
    | some l => nextIn l x (L l)
    | none => .entry x

theorem nextIn_append {l : ι} {x : α} {pre rest : List α} (h : x ∉ pre) :
    nextIn l x (pre ++ x :: rest) = cur l rest := by
  induction pre with
  | nil => simp [nextIn]
  | cons y pre ih =>
    obtain ⟨hxy, hx⟩ := not_or.1 (mt List.mem_cons.2 h)
    simp only [List.cons_append, nextIn, if_neg (Ne.symm hxy), ih hx]

theorem next_entry {ids : List ι} (hids : ∀ l, l ∈ ids) {L : Lists ι α} (hL : L.Wf) {l : ι} {x : α}
    {pre rest : List α} (h : L l = pre ++ x :: rest) : next ids L (.entry x) = cur l rest := by
  have hx : x ∈ L l := by simp [h]
  have hfind : ids.find? (fun l => decide (x ∈ L l)) = some l := by
    cases hf : ids.find? (fun l => decide (x ∈ L l)) with
    | none => exact absurd (List.find?_eq_none.1 hf l (hids l)) (by simpa using hx)
    | some l' =>
      have hx' : x ∈ L l' := by simpa using List.find?_some hf
      rw [hL.disj l' l x hx' hx]
  have hpre : x ∉ pre := fun hm => by
    have hnd := hL.nodup l
    rw [h] at hnd
    exact (List.nodup_append'.1 hnd).2.2 hm (by simp)
  simp only [next, hfind, h, nextIn_append hpre]

/-! ## Traversal -/

/-- `for (pInst = head.next(), pN = pInst->next(); pInst != head; pInst = pN, pN = pN->next()) body`. The fuel bounds
the number of rounds; running out of it, or taking the head of another list for an entry, is the fault `stray`. -/
def forEachSafe (next : σ → Node ι α → Node ι α) (body : α → σ → Except φ σ) (stray : φ) (hd : ι) :
    ℕ → Node ι α → Node ι α → σ → Except φ σ
  | 0, pInst, _, s => if pInst = .head hd then .ok s else .error stray
  | n + 1, pInst, pN, s =>
    match pInst with
    | .head l => if l = hd then .ok s else .error stray
    | .entry x => do
      let s ← body x s
      forEachSafe next body stray hd n pN (next s pN) s

variable (ids : List ι) (lists : σ → Lists ι α)

/-- the traversal of list `hd`, with fuel for one round an entry -/
def traverse (body : α → σ → Except φ σ) (stray : φ) (hd : ι) (s : σ) : Except φ σ :=
  let nx := fun s => next ids (lists s)
  forEachSafe nx body stray hd (lists s hd).length (nx s (.head hd)) (nx s (nx s (.head hd))) s

variable {ids lists}

/-- from a round on: the entries before the current one are in `pre`, the cursors stand on the first two of `rest` -/
theorem forEachSafe_eq_foldlM (hids : ∀ l, l ∈ ids) {body : α → σ → Except φ σ} {stray : φ} {hd : ι} {J : σ → Prop}
    (hJ : ∀ s, J s → (lists s).Wf)
    (hbody : ∀ s x t, J s → x ∈ lists s hd → body x s = .ok t →
      J t ∧ (lists t hd = lists s hd ∨ lists t hd = (lists s hd).filter fun y => decide (y ≠ x)))
    (rest : List α) : ∀ (pre : List α) (s : σ) (pN : Node ι α), J s → lists s hd = pre ++ rest →
      (∀ x rest', rest = x :: rest' → pN = cur hd rest') →
      forEachSafe (fun s => next ids (lists s)) body stray hd rest.length (cur hd rest) pN s =
        rest.foldlM (fun s x => body x s) s := by
  induction rest with
  | nil => intro pre s pN _ _ _; simp [forEachSafe, cur]; rfl
  | cons x rest ih =>
    intro pre s pN hs hl hpN
    rw [hpN x rest rfl, List.foldlM_cons, List.length_cons]
    simp only [cur, forEachSafe]
    cases hb : body x s with
    | error e => rfl
    | ok t =>
      obtain ⟨ht, hlt⟩ := hbody s x t hs (by simp [hl]) hb
      -- the current entry stayed or left: either way `rest` is what is still to come
      have hpre : ∃ pre', lists t hd = pre' ++ rest := by
        rcases hlt with hlt | hlt
        · exact ⟨pre ++ [x], by simp [hlt, hl]⟩
        · refine ⟨pre, ?_⟩
          have hnd := (hJ s hs).nodup hd
          rw [hl] at hnd
          rw [hlt, hl, filter_ne_of_nodup hnd]
      obtain ⟨pre', hpre⟩ := hpre
      apply ih pre' t _ ht hpre
      intro y rest' hr
      subst hr
      exact next_entry hids (hJ t ht) hpre

/-- **A safe traversal is the loop over a snapshot.** If the body keeps an invariant under which the lists are well
formed, and at most takes the current entry out of the traversed list, the traversal visits the entries the list had
at the start, in order, once each, and ends. -/
theorem traverse_eq_foldlM (hids : ∀ l, l ∈ ids) {body : α → σ → Except φ σ} {stray : φ} {hd : ι} {J : σ → Prop}
    (hJ : ∀ s, J s → (lists s).Wf)
    (hbody : ∀ s x t, J s → x ∈ lists s hd → body x s = .ok t →
      J t ∧ (lists t hd = lists s hd ∨ lists t hd = (lists s hd).filter fun y => decide (y ≠ x)))
    {s : σ} (hs : J s) :
    traverse ids lists body stray hd s = (lists s hd).foldlM (fun s x => body x s) s := by
  apply forEachSafe_eq_foldlM hids hJ hbody (lists s hd) [] s _ hs rfl
  intro x rest h
  have hfirst : next ids (lists s) (.head hd) = .entry x := by simp only [next, h, cur]
  show next ids (lists s) (next ids (lists s) (.head hd)) = cur hd rest
  rw [hfirst]
  exact next_entry hids (hJ s hs) (h.trans (List.nil_append _).symm)

/-- a traversal whose body leaves a component leaves it, wherever its cursors go -/
theorem traverse_frame {δ : Type} {f : σ → δ} {d : δ} {body : α → σ → Except φ σ}
    (hbody : ∀ x s, f s = d → Frame f d (body x s)) (stray : φ) (hd : ι) {s : σ} (hs : f s = d) :
    Frame f d (traverse ids lists body stray hd s) := by
  suffices hgen : ∀ n (nx : σ → Node ι α → Node ι α) pInst pN s, f s = d →
      Frame f d (forEachSafe nx body stray hd n pInst pN s) from hgen _ _ _ _ s hs
  intro n nx
  induction n with
  | zero =>
    intro pInst pN s hs
    unfold forEachSafe
    split_ifs
    · exact hs
    · trivial
  | succ n ih =>
    intro pInst pN s hs
    unfold forEachSafe
    rcases pInst with l | x
    · dsimp only
      split_ifs
      · exact hs
      · trivial
    · exact (hbody x s hs).bind fun t ht => ih pN (nx t pN) t ht

end Lists

end LinuxDrv.Core
