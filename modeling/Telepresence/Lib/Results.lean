import Mathlib.Data.List.Forall2

/-!
# Computations that may fail

Computations in `Except`, taken apart: a sequence of two succeeds if both do,
and a loop over a list does if every step does.
-/

namespace Results

variable {α β ε : Type}

variable {f : α → Except ε β}

/-- A sequence of two computations that succeeds. -/
theorem bind_eq_ok {x : Except ε α} {b : β} : (x >>= f) = .ok b ↔ ∃ a, x = .ok a ∧ f a = .ok b := by
  cases x with
  | error e | ok a => simp [bind, Except.bind]

theorem map_eq_ok {x : Except ε α} {f : α → β} {b : β} :
    x.map f = .ok b ↔ ∃ a, x = .ok a ∧ f a = b := by
  cases x with
  | error e | ok a => simp [Except.map]

theorem mapError_eq_ok {δ : Type} {x : Except ε α} {f : ε → δ} {a : α} :
    x.mapError f = .ok a ↔ x = .ok a := by
  cases x with
  | error e | ok a => simp [Except.mapError]

/-- Two outcomes are the same error, or values that are related. -/
inductive Same (r : α → α → Prop) : Except ε α → Except ε α → Prop where
  | error (e : ε) : Same r (.error e) (.error e)
  | ok {a b : α} (h : r a b) : Same r (.ok a) (.ok b)

variable {xs : List α}

/-- A loop that collects its results. -/
theorem mapM_eq_ok {ys : List β} :
    xs.mapM f = .ok ys ↔ List.Forall₂ (fun x y => f x = .ok y) xs ys := by
  induction xs generalizing ys with
  | nil => simp [pure, Except.pure, eq_comm]
  | cons x xs ih =>
    rw [List.mapM_cons, bind_eq_ok]
    simp only [bind_eq_ok, ih]
    constructor
    · rintro ⟨y, hy, zs, hzs, hys⟩
      cases hys
      exact .cons hy hzs
    · intro h
      cases h with
      | cons hy hrest => exact ⟨_, hy, _, hrest, rfl⟩

/-- There are results for all exactly if there is one for each. -/
theorem exists_forall₂_iff :
    (∃ ys, List.Forall₂ (fun x y => f x = .ok y) xs ys) ↔ ∀ x ∈ xs, ∃ y, f x = .ok y := by
  induction xs with
  | nil => simp
  | cons x xs ih =>
    rw [List.forall_mem_cons, ← ih]
    constructor
    · rintro ⟨ys, hys⟩
      cases hys with
      | cons hy hrest => exact ⟨⟨_, hy⟩, _, hrest⟩
    · rintro ⟨⟨y, hy⟩, ys, hys⟩
      exact ⟨y :: ys, .cons hy hys⟩

/-- The results are those of the elements. -/
theorem mem_iff_of_forall₂ {ys : List β} (h : List.Forall₂ (fun x y => f x = .ok y) xs ys) (y : β) :
    y ∈ ys ↔ ∃ x ∈ xs, f x = .ok y := by
  induction h with
  | nil => simp
  | cons hx _ ih => simp [ih, hx, eq_comm]

end Results
