/-
Rings: circular doubly linked lists whose links are in the nodes.

A heap gives every node two links. `Rings heads h L` says that a heap h holds the lists L, each as a ring that starts
and ends at the head of the list: whoever is next to a node has that node as its previous one. The nodes are of any
type, so a heap may have nodes of other lists too, and nothing is said about their links.

Two operations change a ring. `Heap.splice` joins two nodes, `Heap.insert` puts a node between two others.
- `Rings.splice`: joining the two neighbours of an entry takes the entry out of its list.
- `Rings.insert`: putting a node that is in no list between the last entry and the head appends it to the list.
- `Rings.congr`: the links of nodes that are in no list do not matter.
- `Rings.next_head`, `Rings.next_entry`: the next link leads through the list and back to the head.
-/
import LinuxDrv.Core.Family
import Mathlib.Data.List.Chain

set_option linter.unusedSectionVars false

namespace LinuxDrv.Core

variable {ι A : Type} [DecidableEq ι] [DecidableEq A]

/-- the links of a node -/
structure Links (A : Type) where
  next : Option A
  prev : Option A
deriving DecidableEq

abbrev Heap (A : Type) := A → Links A

namespace Heap

def setNext (h : Heap A) (a : A) (v : Option A) : Heap A := Function.update h a { h a with next := v }

def setPrev (h : Heap A) (a : A) (v : Option A) : Heap A := Function.update h a { h a with prev := v }

variable (h : Heap A) (a b : A) (v : Option A)

theorem setNext_next : (h.setNext a v b).next = if b = a then v else (h b).next := by
  by_cases hb : b = a
  · subst hb; simp [setNext]
  · simp [setNext, hb]

@[simp] theorem setNext_prev : (h.setNext a v b).prev = (h b).prev := by
  by_cases hb : b = a
  · subst hb; simp [setNext]
  · simp [setNext, hb]

theorem setPrev_prev : (h.setPrev a v b).prev = if b = a then v else (h b).prev := by
  by_cases hb : b = a
  · subst hb; simp [setPrev]
  · simp [setPrev, hb]

@[simp] theorem setPrev_next : (h.setPrev a v b).next = (h b).next := by
  by_cases hb : b = a
  · subst hb; simp [setPrev]
  · simp [setPrev, hb]

/-- `s` becomes the node after `p` -/
def splice (p s : A) : Heap A := (h.setPrev s (some p)).setNext p (some s)

/-- `x` is put between `p` and `s` -/
def insert (x p s : A) : Heap A :=
  (((h.setPrev s (some x)).setNext x (some s)).setPrev x (some p)).setNext p (some x)

variable (x p s : A)

theorem splice_next : (h.splice p s a).next = if a = p then some s else (h a).next := by
  rw [splice, setNext_next, setPrev_next]

theorem splice_prev : (h.splice p s a).prev = if a = s then some p else (h a).prev := by
  rw [splice, setNext_prev, setPrev_prev]

theorem insert_next :
    (h.insert x p s a).next = if a = p then some x else if a = x then some s else (h a).next := by
  rw [insert, setNext_next, setPrev_next, setNext_next, setPrev_next]

theorem insert_prev :
    (h.insert x p s a).prev = if a = x then some p else if a = s then some x else (h a).prev := by
  rw [insert, setNext_prev, setPrev_prev, setNext_prev, setPrev_prev]

end Heap

/-! ## Chains -/

/-- b is the node after a -/
structure Linked (h : Heap A) (a b : A) : Prop where
  next : (h a).next = some b
  prev : (h b).prev = some a

variable {h h' : Heap A} {a b x p s : A} {xs ys : List A}

/-- a chain uses the next links of all its nodes but the last, and the previous links of all but the first -/
theorem chain_congr (hchain : xs.IsChain (Linked h)) (hnext : ∀ a ∈ xs.dropLast, (h' a).next = (h a).next)
    (hprev : ∀ b ∈ xs.tail, (h' b).prev = (h b).prev) : xs.IsChain (Linked h') := by
  induction hchain with
  | nil => exact List.IsChain.nil
  | singleton a => exact List.IsChain.singleton a
  | @cons_cons a b ys hab _ ih =>
    rw [List.dropLast_cons_cons] at hnext
    rw [List.tail_cons] at hprev
    have hab' : Linked h' a b :=
      ⟨(hnext a List.mem_cons_self).trans hab.next, (hprev b List.mem_cons_self).trans hab.prev⟩
    refine List.IsChain.cons_cons hab' (ih ?_ ?_)
    · exact fun c hc => hnext c (List.mem_cons_of_mem a hc)
    · exact fun c hc => hprev c (List.mem_cons_of_mem b hc)

/-- a node between two chains is left out -/
theorem chain_splice (hchain : (xs ++ p :: x :: s :: ys).IsChain (Linked h)) (hnd : (xs ++ [p]).Nodup)
    (hp : p ∉ (s :: ys).dropLast) (hs : s ∉ (xs ++ [p]).tail) (hys : s ∉ ys) :
    (xs ++ p :: s :: ys).IsChain (Linked (h.splice p s)) := by
  obtain ⟨hleft, -, hright⟩ := List.isChain_append_cons_cons.1 hchain
  rw [List.isChain_append_cons_cons]
  refine ⟨?_, ⟨?_, ?_⟩, ?_⟩
  · apply chain_congr hleft
    · intro a ha
      rw [List.dropLast_concat] at ha
      rw [Heap.splice_next, if_neg]
      rintro rfl
      exact (List.nodup_append'.1 hnd).2.2 ha List.mem_cons_self
    · intro b hb
      rw [Heap.splice_prev, if_neg (fun he : b = s => hs (he ▸ hb))]
  · rw [Heap.splice_next, if_pos rfl]
  · rw [Heap.splice_prev, if_pos rfl]
  · apply chain_congr (List.isChain_cons_cons.1 hright).2
    · intro a ha
      rw [Heap.splice_next, if_neg (fun he : a = p => hp (he ▸ ha))]
    · intro b hb
      rw [List.tail_cons] at hb
      rw [Heap.splice_prev, if_neg (fun he : b = s => hys (he ▸ hb))]

/-- a node is put between the last two nodes of a chain -/
theorem chain_insert (hchain : (xs ++ [p, s]).IsChain (Linked h)) (hnd : (xs ++ [p]).Nodup)
    (hs : s ∉ (xs ++ [p]).tail) (hx : x ∉ xs ++ [p]) (hxs : x ≠ s) :
    (xs ++ [p, x, s]).IsChain (Linked (h.insert x p s)) := by
  obtain ⟨hleft, -⟩ := List.isChain_append_cons_cons.1 hchain
  have hxp : x ≠ p := fun he => hx (by simp [he])
  rw [List.isChain_append_cons_cons, List.isChain_pair]
  refine ⟨?_, ⟨?_, ?_⟩, ?_, ?_⟩
  · apply chain_congr hleft
    · intro a ha
      rw [List.dropLast_concat] at ha
      rw [Heap.insert_next, if_neg, if_neg]
      · rintro rfl
        exact hx (List.mem_append_left _ ha)
      · rintro rfl
        exact (List.nodup_append'.1 hnd).2.2 ha List.mem_cons_self
    · intro b hb
      rw [Heap.insert_prev, if_neg (fun he : b = x => hx (he ▸ List.mem_of_mem_tail hb)),
        if_neg (fun he : b = s => hs (he ▸ hb))]
  · rw [Heap.insert_next, if_pos rfl]
  · rw [Heap.insert_prev, if_pos rfl]
  · rw [Heap.insert_next, if_neg hxp, if_pos rfl]
  · rw [Heap.insert_prev, if_neg hxs.symm, if_pos rfl]

/-! ## Families of rings -/

/-- the heap holds the lists -/
structure Rings (heads : ι → A) (h : Heap A) (L : Lists ι A) : Prop where
  wf : L.Wf
  heads_inj : Function.Injective heads
  head_notMem : ∀ i j, heads i ∉ L j
  ring : ∀ i, (heads i :: (L i ++ [heads i])).IsChain (Linked h)

namespace Rings

variable {heads : ι → A} {L : Lists ι A} {l : ι}

/-- the nodes of a ring are different -/
theorem nodup (hr : Rings heads h L) (i : ι) : (heads i :: L i).Nodup :=
  List.nodup_cons.2 ⟨hr.head_notMem i i, hr.wf.nodup i⟩

/-- no node is in two rings -/
theorem disj (hr : Rings heads h L) {i j : ι} (hi : a ∈ heads i :: L i) (hj : a ∈ heads j :: L j) : i = j := by
  rcases List.mem_cons.1 hi with rfl | hi
  · rcases List.mem_cons.1 hj with he | hj
    · exact hr.heads_inj he
    · exact absurd hj (hr.head_notMem i j)
  · rcases List.mem_cons.1 hj with rfl | hj
    · exact absurd hi (hr.head_notMem j i)
    · exact hr.wf.disj i j a hi hj

/-- a ring depends on the links of its nodes -/
theorem ring_congr (hr : Rings heads h L) {i : ι} (hnext : ∀ a ∈ heads i :: L i, (h' a).next = (h a).next)
    (hprev : ∀ a ∈ heads i :: L i, (h' a).prev = (h a).prev) :
    (heads i :: (L i ++ [heads i])).IsChain (Linked h') := by
  apply chain_congr (hr.ring i)
  · intro a ha
    rw [← List.cons_append, List.dropLast_concat] at ha
    exact hnext a ha
  · intro b hb
    rw [List.tail_cons, List.mem_append, List.mem_singleton] at hb
    exact hprev b (List.mem_cons.2 hb.symm)

/-- the links of other nodes do not matter -/
theorem congr (hr : Rings heads h L) (hnext : ∀ i, ∀ a ∈ heads i :: L i, (h' a).next = (h a).next)
    (hprev : ∀ i, ∀ a ∈ heads i :: L i, (h' a).prev = (h a).prev) : Rings heads h' L where
  wf := hr.wf
  heads_inj := hr.heads_inj
  head_notMem := hr.head_notMem
  ring := fun i => hr.ring_congr (hnext i) (hprev i)

/-- a ring without the entries: one node that is linked to itself -/
theorem empty (hinj : Function.Injective heads) (hself : ∀ i, h (heads i) = ⟨some (heads i), some (heads i)⟩) :
    Rings heads h fun _ => [] where
  wf := ⟨fun _ => List.nodup_nil, fun _ _ _ hx => absurd hx List.not_mem_nil⟩
  heads_inj := hinj
  head_notMem := fun _ _ => List.not_mem_nil
  ring := by
    intro i
    rw [List.nil_append, List.isChain_pair]
    exact ⟨by rw [hself], by rw [hself]⟩

/-! ### Following the links -/

/-- the node after the head -/
theorem next_head (hr : Rings heads h L) (i : ι) : (h (heads i)).next = some ((L i).head?.getD (heads i)) := by
  have hring := hr.ring i
  rcases hl : L i with _ | ⟨x, xs⟩
  · rw [hl, List.nil_append, List.isChain_pair] at hring
    exact hring.next
  · rw [hl, List.cons_append, List.isChain_cons_cons] at hring
    exact hring.1.next

/-- the node after an entry -/
theorem next_entry (hr : Rings heads h L) {i : ι} {pre rest : List A} (hl : L i = pre ++ x :: rest) :
    (h x).next = some (rest.head?.getD (heads i)) := by
  have hring := hr.ring i
  rw [hl, List.append_assoc, ← List.cons_append] at hring
  obtain ⟨-, hx⟩ := List.isChain_split.1 hring
  rcases rest with _ | ⟨y, ys⟩
  · exact (List.isChain_pair.1 hx).next
  · exact (List.isChain_cons_cons.1 hx).1.next

/-- the node before the head -/
theorem prev_head (hr : Rings heads h L) (i : ι) : (h (heads i)).prev = some ((L i).getLast?.getD (heads i)) := by
  have hring := hr.ring i
  rcases List.eq_nil_or_concat (L i) with hl | ⟨xs, x, hl⟩
  · rw [hl, List.nil_append, List.isChain_pair] at hring
    rw [hl]
    exact hring.prev
  · rw [List.concat_eq_append] at hl
    rw [hl, List.append_assoc, ← List.cons_append] at hring
    obtain ⟨-, hx⟩ := List.isChain_split.1 hring
    rw [hl, List.getLast?_concat]
    exact (List.isChain_pair.1 hx).prev

/-! ### The neighbours of an entry -/

/-- p and s are before and after the entry x in the ring of the head a; they are at no other place of it -/
structure Around (a : A) (l : List A) (x : A) (xs : List A) (p s : A) (ys : List A) : Prop where
  ring : a :: (l ++ [a]) = xs ++ p :: x :: s :: ys
  /-- the ring without x -/
  rest : a :: (l.filter (· ≠ x) ++ [a]) = xs ++ p :: s :: ys
  prev_mem : p ∈ a :: l
  next_mem : s ∈ a :: l
  nodup : (xs ++ [p]).Nodup
  prev_notMem : p ∉ (s :: ys).dropLast
  next_notMem : s ∉ (xs ++ [p]).tail
  next_notMem_rest : s ∉ ys

theorem exists_around {l : List A} (hnd : (a :: l).Nodup) (hx : x ∈ l) : ∃ xs p s ys, Around a l x xs p s ys := by
  obtain ⟨pre, post, hl⟩ := List.append_of_mem hx
  obtain ⟨xs, p, hxs⟩ : ∃ xs p, a :: pre = xs ++ [p] :=
    ⟨_, _, (List.dropLast_concat_getLast (List.cons_ne_nil _ _)).symm⟩
  obtain ⟨s, ys, hys⟩ : ∃ s ys, post ++ [a] = s :: ys := List.exists_cons_of_ne_nil (by simp)
  have hfilter : l.filter (· ≠ x) = pre ++ post := by
    have hnd' := (List.nodup_cons.1 hnd).2
    rw [hl] at hnd'
    rw [hl, Lists.filter_ne_of_nodup hnd']
  -- the nodes of the ring are different, so the two ends are only at the place where the entry was
  rw [hl, ← List.cons_append] at hnd
  obtain ⟨hndl, hndr, hdisj⟩ := List.nodup_append'.1 hnd
  have hp : p ∈ a :: pre := by rw [hxs]; simp
  have hs : s ∈ post ++ [a] := by rw [hys]; simp
  have hhead : a ∉ pre := (List.nodup_cons.1 hndl).1
  have hhead' : a ∉ post := fun hm => hdisj List.mem_cons_self (List.mem_cons_of_mem x hm)
  have hndp : (s :: ys).Nodup := by
    rw [← hys]
    exact (List.nodup_cons.1 hndr).2.append (List.nodup_singleton _) (List.disjoint_singleton.2 hhead')
  refine ⟨xs, p, s, ys, ?_, ?_, ?_, ?_, hxs ▸ hndl, ?_, ?_, (List.nodup_cons.1 hndp).1⟩
  · calc a :: (l ++ [a]) = (a :: pre) ++ x :: (post ++ [a]) := by rw [hl]; simp
      _ = xs ++ p :: x :: s :: ys := by rw [hxs, hys]; simp
  · calc a :: (l.filter (· ≠ x) ++ [a]) = (a :: pre) ++ (post ++ [a]) := by rw [hfilter]; simp
      _ = xs ++ p :: s :: ys := by rw [hxs, hys]; simp
  · rw [hl, ← List.cons_append]
    exact List.mem_append_left _ hp
  · rw [hl]
    rcases List.mem_append.1 hs with hs | hs
    · simp [hs]
    · simp [List.mem_singleton.1 hs]
  · rw [← hys, List.dropLast_concat]
    exact fun hm => hdisj hp (List.mem_cons_of_mem x hm)
  · rw [← hxs, List.tail_cons]
    intro hm
    rcases List.mem_append.1 hs with hs | hs
    · exact hdisj (List.mem_cons_of_mem _ hm) (List.mem_cons_of_mem x hs)
    · exact hhead (List.mem_singleton.1 hs ▸ hm)

/-! ### Operations -/

/-- what is next to an entry, and what is before it, are joined: the entry is out of its list -/
theorem splice (hr : Rings heads h L) (hx : x ∈ L l) : ∃ p s, (h x).prev = some p ∧ (h x).next = some s ∧
    Rings heads (h.splice p s) (L.unlink x) := by
  obtain ⟨xs, p, s, ys, hat⟩ := exists_around (hr.nodup l) hx
  have hchain := hr.ring l
  rw [hat.ring] at hchain
  have hlinks := (List.isChain_append_cons_cons.1 hchain).2
  refine ⟨p, s, hlinks.1.prev, (List.isChain_cons_cons.1 hlinks.2).1.next, hr.wf.unlink x, hr.heads_inj, ?_, ?_⟩
  · exact fun i j hm => hr.head_notMem i j (Lists.mem_unlink.1 hm).1
  intro i
  by_cases hi : i = l
  · subst hi
    rw [Lists.unlink, hat.rest]
    exact chain_splice hchain hat.nodup hat.prev_notMem hat.next_notMem hat.next_notMem_rest
  · have hother : L.unlink x i = L i := Lists.unlink_of_notMem fun hm => hi (hr.wf.disj i l x hm hx)
    rw [hother]
    apply hr.ring_congr
    · intro a ha
      rw [Heap.splice_next, if_neg (fun he : a = p => hi (hr.disj ha (he ▸ hat.prev_mem)))]
    · intro a ha
      rw [Heap.splice_prev, if_neg (fun he : a = s => hi (hr.disj ha (he ▸ hat.next_mem)))]

/-- a node that is in no list is put before the head: it is the last entry of the list -/
theorem insert (hr : Rings heads h L) (l : ι) (hx : ∀ i, x ∉ heads i :: L i) : ∃ p, (h (heads l)).prev = some p ∧
    Rings heads (h.insert x p (heads l)) (L.addTail l x) := by
  obtain ⟨xs, p, hxs⟩ : ∃ xs p, heads l :: L l = xs ++ [p] :=
    ⟨_, _, (List.dropLast_concat_getLast (List.cons_ne_nil _ _)).symm⟩
  have hring : heads l :: (L l ++ [heads l]) = xs ++ [p, heads l] := by
    calc heads l :: (L l ++ [heads l]) = (heads l :: L l) ++ [heads l] := rfl
      _ = xs ++ [p, heads l] := by rw [hxs]; simp
  have hring' : heads l :: (L.addTail l x l ++ [heads l]) = xs ++ [p, x, heads l] := by
    calc heads l :: (L.addTail l x l ++ [heads l]) = (heads l :: L l) ++ [x, heads l] := by simp [Lists.addTail]
      _ = xs ++ [p, x, heads l] := by rw [hxs]; simp
  have hchain := hr.ring l
  rw [hring] at hchain
  have hlink := (List.isChain_append_cons_cons.1 hchain).2.1
  have hp : p ∈ heads l :: L l := by rw [hxs]; simp
  have hhead : ∀ i, x ≠ heads i := fun i he => hx i (he ▸ List.mem_cons_self)
  have hlist : ∀ i, x ∉ L i := fun i hm => hx i (List.mem_cons_of_mem _ hm)
  refine ⟨p, hlink.prev, hr.wf.addTail hlist, hr.heads_inj, ?_, ?_⟩
  · intro i j hm
    rcases Lists.mem_addTail.1 hm with hm | ⟨he, -⟩
    · exact hr.head_notMem i j hm
    · exact hhead i he.symm
  intro i
  by_cases hi : i = l
  · subst hi
    rw [hring']
    apply chain_insert hchain (hxs ▸ hr.nodup i)
    · rw [← hxs, List.tail_cons]
      exact hr.head_notMem i i
    · rw [← hxs]
      exact hx i
    · exact hhead i
  · have hother : L.addTail l x i = L i := Function.update_of_ne hi _ _
    rw [hother]
    apply hr.ring_congr
    · intro a ha
      rw [Heap.insert_next, if_neg (fun he : a = p => hi (hr.disj ha (he ▸ hp))),
        if_neg (fun he : a = x => hx i (he ▸ ha))]
    · intro a ha
      rw [Heap.insert_prev, if_neg (fun he : a = x => hx i (he ▸ ha)),
        if_neg (fun he : a = heads l => hi (hr.disj ha (he ▸ List.mem_cons_self)))]

end Rings

end LinuxDrv.Core
