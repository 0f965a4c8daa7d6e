/-
Resources that are acquired and released.

A trace lists what a program acquired and released, of any type of resources, in order. `heldAfter h es` plays a trace
from the resources that are held: a release takes one copy of its resource out, and fails if there is none.
- `heldAfter_acquires`, `heldAfter_releases`: acquisitions only add, and the newest resources may be given back in
  order.
- `count_heldAfter`: what is held at the end is what was held and acquired, less what was released.
- `Leaves es rs`: the trace leaves the resources rs, each of them held once. It is kept by acquiring a resource that is
  not held, and by releasing one that is.
- `GivesBack`: a trace that gives back all that it acquired, and nothing else. `owned`: the part of a trace that is
  about resources which it acquires itself. `GivesBack.insert`, `GivesBack.append` and `GivesBack.flatMap` compose
  traces whose own parts give back; `not_givesBack_of_acquire` is the way a trace fails to.
-/
import Mathlib.Data.List.Nodup

namespace LinuxDrv.Core

variable {ρ : Type} [DecidableEq ρ]

inductive ResEv (ρ : Type) where
  | acquire (r : ρ)
  | release (r : ρ)
deriving DecidableEq

/-- the resource of an event -/
def ResEv.res : ResEv ρ → ρ
  | .acquire r => r
  | .release r => r

/-- the resources that are held after a trace; none if it released one that was not held -/
def heldAfter : List ρ → List (ResEv ρ) → Option (List ρ)
  | h, [] => some h
  | h, .acquire r :: es => heldAfter (r :: h) es
  | h, .release r :: es => if r ∈ h then heldAfter (h.erase r) es else none

theorem heldAfter_acquires (h : List ρ) (rs : List ρ) :
    heldAfter h (rs.map ResEv.acquire) = some (rs.reverse ++ h) := by
  induction rs generalizing h with
  | nil => rfl
  | cons r rs ih =>
    rw [List.map_cons, heldAfter, ih, List.reverse_cons, List.append_assoc]
    rfl

/-- what is on top is given back in order -/
theorem heldAfter_releases (h : List ρ) (rs : List ρ) : heldAfter (rs ++ h) (rs.map ResEv.release) = some h := by
  induction rs with
  | nil => rfl
  | cons r rs ih =>
    rw [List.map_cons, List.cons_append, heldAfter, if_pos List.mem_cons_self, List.erase_cons_head]
    exact ih

theorem count_heldAfter (r : ρ) {h h' : List ρ} {es : List (ResEv ρ)} (hes : heldAfter h es = some h') :
    h'.count r + es.count (.release r) = h.count r + es.count (.acquire r) := by
  induction es generalizing h with
  | nil =>
    cases hes
    rfl
  | cons e es ih =>
    cases e with
    | acquire q =>
      have hrest := ih hes
      rw [List.count_cons] at hrest
      rw [List.count_cons, List.count_cons]
      simp only [beq_iff_eq, ResEv.acquire.injEq, reduceCtorEq, ↓reduceIte] at hrest ⊢
      omega
    | release q =>
      rw [heldAfter] at hes
      split_ifs at hes with hq
      have hrest := ih hes
      rw [List.count_erase] at hrest
      rw [List.count_cons, List.count_cons]
      simp only [beq_iff_eq, ResEv.release.injEq, reduceCtorEq, ↓reduceIte] at hrest ⊢
      by_cases hrq : q = r
      · have hpos : 0 < h.count r := List.count_pos_iff.2 (hrq ▸ hq)
        rw [if_pos hrq] at hrest ⊢
        omega
      · rw [if_neg hrq] at hrest ⊢
        omega

theorem heldAfter_append (h : List ρ) (es es' : List (ResEv ρ)) :
    heldAfter h (es ++ es') = (heldAfter h es).bind fun h' => heldAfter h' es' := by
  induction es generalizing h with
  | nil => rfl
  | cons e es ih =>
    cases e with
    | acquire r => exact ih (r :: h)
    | release r =>
      rw [List.cons_append, heldAfter, heldAfter]
      by_cases hr : r ∈ h
      · rw [if_pos hr, if_pos hr, ih]
      · rw [if_neg hr, if_neg hr]
        rfl

/-! ## What a trace leaves -/

/-- the trace leaves the resources `rs`, each of them held once; it never released one that was not held -/
structure Leaves (es : List (ResEv ρ)) (rs : List ρ) : Prop where
  held : ∃ h, heldAfter [] es = some h ∧ h.Perm rs
  nodup : rs.Nodup

namespace Leaves

variable {es : List (ResEv ρ)} {rs rs' : List ρ} {r : ρ}

theorem nil : Leaves ([] : List (ResEv ρ)) [] := ⟨⟨[], rfl, List.Perm.refl []⟩, List.nodup_nil⟩

theorem perm (hl : Leaves es rs) (hp : rs.Perm rs') : Leaves es rs' := by
  obtain ⟨⟨h, hes, hh⟩, hnd⟩ := hl
  exact ⟨⟨h, hes, hh.trans hp⟩, hp.nodup_iff.1 hnd⟩

/-- what a trace leaves is determined -/
theorem unique (hl : Leaves es rs) (hl' : Leaves es rs') : rs.Perm rs' := by
  obtain ⟨⟨h, hes, hh⟩, -⟩ := hl
  obtain ⟨⟨h', hes', hh'⟩, -⟩ := hl'
  obtain rfl : h = h' := Option.some.inj (hes.symm.trans hes')
  exact hh.symm.trans hh'

theorem mem_iff (hl : Leaves es rs) : r ∈ (heldAfter [] es).getD [] ↔ r ∈ rs := by
  obtain ⟨⟨h, hes, hh⟩, -⟩ := hl
  rw [hes, Option.getD_some]
  exact hh.mem_iff

theorem acquire (hl : Leaves es rs) (hr : r ∉ rs) : Leaves (es ++ [.acquire r]) (r :: rs) := by
  obtain ⟨⟨h, hes, hh⟩, hnd⟩ := hl
  refine ⟨⟨r :: h, ?_, hh.cons r⟩, List.nodup_cons.2 ⟨hr, hnd⟩⟩
  rw [heldAfter_append, hes]
  rfl

theorem release (hl : Leaves es (r :: rs)) : Leaves (es ++ [.release r]) rs := by
  obtain ⟨⟨h, hes, hh⟩, hnd⟩ := hl
  have hr : r ∈ h := hh.mem_iff.2 List.mem_cons_self
  refine ⟨⟨h.erase r, ?_, ?_⟩, (List.nodup_cons.1 hnd).2⟩
  · rw [heldAfter_append, hes]
    exact if_pos hr
  · have herase := hh.erase r
    rwa [List.erase_cons_head] at herase

end Leaves

/-- all that is acquired is given back once, and nothing else -/
def GivesBack (es : List (ResEv ρ)) : Prop := heldAfter [] es = some []

instance (es : List (ResEv ρ)) : Decidable (GivesBack es) := inferInstanceAs (Decidable (_ = _))

/-- the events of the resources that the trace acquires -/
def owned (es : List (ResEv ρ)) : List (ResEv ρ) := es.filter fun e => decide (.acquire e.res ∈ es)

/-- a trace does the same above whatever else is held -/
theorem heldAfter_frame {h h' : List ρ} {es : List (ResEv ρ)} (hes : heldAfter h es = some h') (more : List ρ) :
    heldAfter (h ++ more) es = some (h' ++ more) := by
  induction es generalizing h with
  | nil =>
    cases hes
    rfl
  | cons e es ih =>
    cases e with
    | acquire r => exact ih hes
    | release r =>
      rw [heldAfter] at hes ⊢
      split_ifs at hes with hr
      rw [if_pos (List.mem_append_left more hr), List.erase_append_left more hr]
      exact ih hes

namespace GivesBack

variable {a b c : List (ResEv ρ)}

theorem held (ha : GivesBack a) (h : List ρ) : heldAfter h a = some h := heldAfter_frame ha h

/-- a trace inside another one, about other resources -/
theorem insert (hac : GivesBack (owned (a ++ c))) (hb : GivesBack (owned b))
    (hother : ∀ e ∈ b, ∀ e' ∈ a ++ c, e.res ≠ e'.res) : GivesBack (owned (a ++ b ++ c)) := by
  -- who owns a resource does not change
  have hout : ∀ e ∈ a ++ c, (.acquire e.res ∈ a ++ b ++ c ↔ .acquire e.res ∈ a ++ c) := by
    intro e he
    have hno : .acquire e.res ∉ b := fun hb => hother _ hb e he rfl
    simp [hno]
  have hin : ∀ e ∈ b, (.acquire e.res ∈ a ++ b ++ c ↔ .acquire e.res ∈ b) := by
    intro e he
    have hno : .acquire e.res ∉ a ++ c := fun hac => hother e he _ hac rfl
    rw [List.mem_append, not_or] at hno
    simp [hno.1, hno.2]
  have hfilter : ∀ l : List (ResEv ρ), (∀ e ∈ l, e ∈ a ++ c) → l.filter (fun e => decide (.acquire e.res ∈ a ++ b ++ c)) =
      l.filter fun e => decide (.acquire e.res ∈ a ++ c) :=
    fun l hl => List.filter_congr fun e he => decide_eq_decide.2 (hout e (hl e he))
  have howned : owned (a ++ b ++ c) = a.filter (fun e => decide (.acquire e.res ∈ a ++ c)) ++ owned b ++
      c.filter (fun e => decide (.acquire e.res ∈ a ++ c)) := by
    rw [← hfilter a fun e he => List.mem_append_left c he, ← hfilter c fun e he => List.mem_append_right a he]
    unfold owned
    rw [List.filter_append, List.filter_append, List.filter_congr fun e he => decide_eq_decide.2 (hin e he)]
  unfold GivesBack at hac ⊢
  rw [owned, List.filter_append, heldAfter_append] at hac
  rw [howned, List.append_assoc, heldAfter_append]
  obtain ⟨h, hh, hrest⟩ := Option.bind_eq_some_iff.1 hac
  rw [hh, Option.bind_some, heldAfter_append, hb.held, Option.bind_some, hrest]

/-- one trace after the other: what one of them releases without having acquired it, the other does not acquire -/
theorem append (ha : GivesBack (owned a)) (hb : GivesBack (owned b))
    (hab : ∀ r, .release r ∈ a → .acquire r ∈ a ∨ .acquire r ∉ b)
    (hba : ∀ r, .release r ∈ b → .acquire r ∈ b ∨ .acquire r ∉ a) : GivesBack (owned (a ++ b)) := by
  have hleft : ∀ e ∈ a, (.acquire e.res ∈ a ++ b ↔ .acquire e.res ∈ a) := by
    intro e he
    rw [List.mem_append, or_iff_left_iff_imp]
    intro hacq
    cases e with
    | acquire r => exact he
    | release r => exact (hab r he).resolve_right (not_not.2 hacq)
  have hright : ∀ e ∈ b, (.acquire e.res ∈ a ++ b ↔ .acquire e.res ∈ b) := by
    intro e he
    rw [List.mem_append, or_iff_right_iff_imp]
    intro hacq
    cases e with
    | acquire r => exact he
    | release r => exact (hba r he).resolve_right (not_not.2 hacq)
  have howned : owned (a ++ b) = owned a ++ owned b := by
    unfold owned
    rw [List.filter_append, List.filter_congr fun e he => decide_eq_decide.2 (hleft e he),
      List.filter_congr fun e he => decide_eq_decide.2 (hright e he)]
  unfold GivesBack at ha ⊢
  rw [howned, heldAfter_append, ha, Option.bind_some, hb]

/-- a list of such traces -/
theorem flatMap {ι : Type} {f : ι → List (ResEv ρ)} {l : List ι} (hf : ∀ i ∈ l, GivesBack (owned (f i)))
    (hapart : l.Pairwise fun i j => (∀ r, .release r ∈ f i → .acquire r ∈ f i ∨ .acquire r ∉ f j) ∧
      ∀ r, .release r ∈ f j → .acquire r ∈ f j ∨ .acquire r ∉ f i) : GivesBack (owned (l.flatMap f)) := by
  induction l with
  | nil => rfl
  | cons i l ih =>
    obtain ⟨hi, hl⟩ := List.pairwise_cons.1 hapart
    rw [List.flatMap_cons]
    refine append (hf i List.mem_cons_self) (ih (fun j hj => hf j (List.mem_cons_of_mem i hj)) hl) ?_ ?_
    · intro r hr
      by_cases hown : .acquire r ∈ f i
      · exact Or.inl hown
      · refine Or.inr fun hacq => ?_
        obtain ⟨j, hj, hacq⟩ := List.mem_flatMap.1 hacq
        exact ((hi j hj).1 r hr).elim hown fun hno => hno hacq
    · intro r hr
      obtain ⟨j, hj, hr⟩ := List.mem_flatMap.1 hr
      exact ((hi j hj).2 r hr).imp_left fun hacq => List.mem_flatMap.2 ⟨j, hj, hacq⟩

end GivesBack

/-- what is acquired and never released is not given back -/
theorem not_givesBack_of_acquire {es : List (ResEv ρ)} {r : ρ} (hacq : .acquire r ∈ es) (hno : .release r ∉ es) :
    ¬ GivesBack (owned es) := by
  intro h
  have hcount := count_heldAfter r h
  have hacq' : .acquire r ∈ owned es := List.mem_filter.2 ⟨hacq, decide_eq_true hacq⟩
  have hno' : .release r ∉ owned es := fun hr => hno (List.mem_of_mem_filter hr)
  have hpos := List.count_pos_iff.2 hacq'
  rw [List.count_eq_zero.2 hno', List.count_nil] at hcount
  omega

end LinuxDrv.Core
