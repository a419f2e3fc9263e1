import Mathlib.Tactic.Basic

/-!
# Iterations over a concurrent collection

An iteration that does not lock the collection visits every element that is
there from its beginning to its end and visits no element twice; elements that
come or go meanwhile may be visited or not.  So it is known by the elements
that were there when it began and those it has visited.
-/

/-- An iteration in progress. -/
structure Iteration (κ : Type*) where
  keys : List κ
  seen : List κ := []

namespace Iteration

variable {κ : Type*} [DecidableEq κ]

/-- Visit an element. -/
def visit (it : Iteration κ) (k : κ) : Option (Iteration κ) :=
  if k ∈ it.seen then none else some { it with seen := k :: it.seen }

/-- Every element that has to be visited has been. -/
def complete (it : Iteration κ) : Bool := it.keys.all (· ∈ it.seen)

/-- The element has still to be visited. -/
def Awaits (it : Iteration κ) (k : κ) : Prop := k ∈ it.keys ∧ k ∉ it.seen

omit [DecidableEq κ] in
theorem awaits_start {keys : List κ} {k : κ} (h : k ∈ keys) :
    Awaits { keys := keys } k := ⟨h, by simp⟩

theorem not_awaits_of_complete {it : Iteration κ} (h : it.complete = true) (k : κ) :
    ¬ it.Awaits k := by
  intro hk
  have hseen := List.all_eq_true.mp h k hk.1
  exact hk.2 (by simpa using hseen)

/-- A visit leaves all other elements to be visited. -/
theorem Awaits.of_visit {it it' : Iteration κ} {k k' : κ} (h : it.Awaits k)
    (hvisit : it.visit k' = some it') (hne : k ≠ k') : it'.Awaits k := by
  unfold visit at hvisit
  split at hvisit
  · cases hvisit
  · cases hvisit
    exact ⟨h.1, by simp [hne, h.2]⟩

end Iteration
