/-
Tables of requests.

A table has a function for every request, and a request finds its row by a number that is part of it. A request that is
not in the table may have the number of a row, so the row is compared with the request.
- `Numbered nr t`: every request of the table has the number of its row.
- `dispatch_eq_some`: then a request is dispatched iff it is in the table, to the function it has there.
-/
import Mathlib.Data.List.Basic

namespace LinuxDrv.Core

variable {ρ φ : Type} {nr : ρ → ℕ} {t : List (ρ × φ)} {req : ρ} {f : φ}

/-- the function for a request -/
def dispatch [DecidableEq ρ] (nr : ρ → ℕ) (t : List (ρ × φ)) (req : ρ) : Option φ :=
  match t[nr req]? with
  | none => none
  | some row => if req ≠ row.1 then none else some row.2

/-- the number of a request is that of its row -/
def Numbered (nr : ρ → ℕ) (t : List (ρ × φ)) : Prop := t.map (fun row => nr row.1) = List.range t.length

instance (nr : ρ → ℕ) (t : List (ρ × φ)) : Decidable (Numbered nr t) := inferInstanceAs (Decidable (_ = _))

theorem Numbered.getElem? (h : Numbered nr t) (hmem : (req, f) ∈ t) : t[nr req]? = some (req, f) := by
  obtain ⟨k, hk⟩ := List.mem_iff_getElem?.1 hmem
  have hlt : k < t.length := (List.getElem?_eq_some_iff.1 hk).1
  have hnr : some (nr req) = some k := by
    calc some (nr req) = (t.map fun row => nr row.1)[k]? := by rw [List.getElem?_map, hk]; rfl
      _ = (List.range t.length)[k]? := by rw [h]
      _ = some k := List.getElem?_range hlt
  rw [Option.some.inj hnr]
  exact hk

/-- a request is dispatched iff it is in the table -/
theorem dispatch_eq_some [DecidableEq ρ] (h : Numbered nr t) : dispatch nr t req = some f ↔ (req, f) ∈ t := by
  unfold dispatch
  constructor
  · intro hreq
    rcases hrow : t[nr req]? with _ | row
    · simp [hrow] at hreq
    · simp only [hrow] at hreq
      split_ifs at hreq with hne
      · obtain rfl := Option.some.inj hreq
        rw [not_not] at hne
        rw [hne]
        exact List.mem_of_getElem? hrow
  · intro hmem
    rw [h.getElem? hmem]
    simp

end LinuxDrv.Core
