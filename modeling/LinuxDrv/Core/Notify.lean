/-
A value that is collected until it is taken, and those who wait for it.

A box holds a value of a type with an operation `op` and its identity `e`. `put a` adds a to the value, and `take` takes
the value and leaves e. A client that polls the box sleeps if it is empty, that is, if the value is e; a put that does
not leave it empty wakes all who sleep. `Box.hist` is history: what was put and what was taken, newest first. For any
such type and any type of clients:
- `collected op e h`: what was put since the last take.
- `Exact op e h`: every take took what was put since the one before. `Exact.conserved`: then all that was put is all
  that was taken with what is collected, so nothing is lost; and nothing is taken twice.
- `Box.run_inv`: in every run from the empty box its value is what is collected, every take was exact, and nobody sleeps
  while the box is not empty.
-/
import Mathlib.Data.List.Basic

namespace LinuxDrv.Core

variable {α κ : Type}

/-! ## History -/

inductive Mail (α : Type) where
  | put (a : α)
  | take (v : α)
deriving DecidableEq

section History

variable (op : α → α → α) (e : α)

/-- what was put since the last take -/
def collected : List (Mail α) → α
  | [] => e
  | .put a :: h => op (collected h) a
  | .take _ :: _ => e

/-- every take took what was put since the one before -/
def Exact : List (Mail α) → Prop
  | [] => True
  | .put _ :: h => Exact h
  | .take v :: h => v = collected op e h ∧ Exact h

/-- all that was put -/
def allPut : List (Mail α) → α
  | [] => e
  | .put a :: h => op (allPut h) a
  | .take _ :: h => allPut h

/-- all that was taken -/
def allTaken : List (Mail α) → α
  | [] => e
  | .put _ :: h => allTaken h
  | .take v :: h => op (allTaken h) v

variable {op e}

theorem Exact.conserved [Std.Associative op] [Std.LawfulIdentity op e] {h : List (Mail α)} (hex : Exact op e h) :
    allPut op e h = op (allTaken op e h) (collected op e h) := by
  induction h with
  | nil => exact (Std.LawfulLeftIdentity.left_id e).symm
  | cons x h ih =>
    cases x with
    | put a =>
      have ih := ih hex
      calc op (allPut op e h) a
          = op (op (allTaken op e h) (collected op e h)) a := by rw [ih]
        _ = op (allTaken op e h) (op (collected op e h) a) := Std.Associative.assoc ..
    | take v =>
      obtain ⟨hv, hex⟩ := hex
      calc allPut op e h
          = op (allTaken op e h) (collected op e h) := ih hex
        _ = op (allTaken op e h) v := by rw [hv]
        _ = op (op (allTaken op e h) v) e := (Std.LawfulRightIdentity.right_id _).symm

end History

/-! ## The box -/

structure Box (α κ : Type) where
  val : α
  waiting : List κ
  hist : List (Mail α)

inductive BoxOp (α κ : Type) where
  | put (a : α)
  | take
  | poll (k : κ)
  | leave (k : κ)

namespace Box

variable [DecidableEq α] [DecidableEq κ] (op : α → α → α) (e : α)

def next (b : Box α κ) : BoxOp α κ → Box α κ
  | .put a => ⟨op b.val a, if op b.val a ≠ e then [] else b.waiting, .put a :: b.hist⟩
  | .take => ⟨e, b.waiting, .take b.val :: b.hist⟩
  | .poll k =>
    let rest := b.waiting.filter fun j => j ≠ k
    { b with waiting := if b.val = e then k :: rest else rest }
  | .leave k => { b with waiting := b.waiting.filter fun j => j ≠ k }

structure Inv (b : Box α κ) : Prop where
  val : b.val = collected op e b.hist
  exact : Exact op e b.hist
  waiting : b.waiting ≠ [] → b.val = e

variable {op e}

omit [DecidableEq α] [DecidableEq κ] in
theorem empty_inv : (⟨e, [], []⟩ : Box α κ).Inv op e := ⟨rfl, trivial, fun _ => rfl⟩

variable {b : Box α κ}

omit [DecidableEq α] [DecidableEq κ] in
/-- nobody waits while there is something in the box -/
theorem Inv.awake (h : b.Inv op e) (hne : b.val ≠ e) : b.waiting = [] := by
  by_contra hw
  exact hne (h.waiting hw)

theorem next_inv (h : b.Inv op e) (o : BoxOp α κ) : (b.next op e o).Inv op e := by
  cases o with
  | put a =>
    refine ⟨congrArg (op · a) h.val, h.exact, fun hw => ?_⟩
    -- all are woken unless the box stays empty
    by_contra hne
    exact hw (if_pos hne)
  | take => exact ⟨rfl, ⟨h.val, h.exact⟩, fun _ => rfl⟩
  | poll k =>
    refine ⟨h.val, h.exact, fun hw => ?_⟩
    by_contra hne
    refine hw ((if_neg hne).trans ?_)
    rw [h.awake hne, List.filter_nil]
  | leave k =>
    refine ⟨h.val, h.exact, fun hw => h.waiting fun hempty => hw ?_⟩
    show b.waiting.filter _ = []
    rw [hempty, List.filter_nil]

theorem run_inv (h : b.Inv op e) (os : List (BoxOp α κ)) : (os.foldl (next op e) b).Inv op e := by
  induction os generalizing b with
  | nil => exact h
  | cons o os ih => exact ih (next_inv h o)

end Box

end LinuxDrv.Core
