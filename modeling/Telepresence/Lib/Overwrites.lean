import Mathlib.Data.List.Basic

/-!
# Sequences of assignments

A function is overwritten at some points, one after the other.  At each point
only the last assignment matters, so that a sequence may be replayed from an
earlier place: an end of it that has an assignment to the point gives the same
value, wherever it starts from.
-/

namespace Overwrites

open List Function

variable {κ β : Type*} [DecidableEq κ]

/-- Assign from left to right. -/
def overwrite : (κ → β) → List (κ × β) → κ → β
  | v, [] => v
  | v, (k, b) :: as => overwrite (Function.update v k b) as

/-- The assignments to one point. -/
def about (k : κ) (as : List (κ × β)) : List (κ × β) := as.filter fun a => a.1 = k

/-- The assignments lead from one value of the point to another. -/
def Leads (as : List (κ × β)) (k : κ) (b b' : β) : Prop := ∀ v, v k = b → overwrite v as k = b'

variable {v v' : κ → β} {as bs : List (κ × β)} {k : κ} {a b b' : β}

@[simp] theorem overwrite_nil : overwrite v [] = v := rfl

theorem overwrite_append : overwrite v (as ++ bs) = overwrite (overwrite v as) bs := by
  induction as generalizing v with
  | nil => rfl
  | cons a as ih => exact ih

theorem about_append : about k (as ++ bs) = about k as ++ about k bs := filter_append ..

/-- The start makes no difference where the functions agree, or where there is an
assignment. -/
theorem overwrite_congr (h : v k = v' k ∨ about k as ≠ []) :
    overwrite v as k = overwrite v' as k := by
  induction as generalizing v v' with
  | nil =>
    rcases h with h | h
    · exact h
    · exact absurd rfl h
  | cons a as ih =>
    by_cases ha : k = a.1
    · refine ih (.inl ?_)
      rw [ha, update_self, update_self]
    · have habout : about k (a :: as) = about k as :=
        filter_cons_of_neg (by simpa using Ne.symm ha)
      rw [habout] at h
      refine ih ?_
      rw [update_of_ne ha, update_of_ne ha]
      exact h

/-- Assignments to other points may be left out. -/
theorem overwrite_about : overwrite v (about k as) k = overwrite v as k := by
  induction as generalizing v with
  | nil => rfl
  | cons a as ih =>
    by_cases ha : k = a.1
    · have habout : about k (a :: as) = a :: about k as :=
        filter_cons_of_pos (by simpa using ha.symm)
      rw [habout]
      exact ih
    · have habout : about k (a :: as) = about k as :=
        filter_cons_of_neg (by simpa using Ne.symm ha)
      rw [habout, ih]
      exact overwrite_congr (.inl (update_of_ne ha ..).symm)

theorem overwrite_of_about (h : about k as = about k bs) : overwrite v as k = overwrite v bs k := by
  rw [← overwrite_about, h, overwrite_about]

theorem overwrite_of_about_nil (h : about k as = []) : overwrite v as k = v k := by
  rw [← overwrite_about, h, overwrite_nil]

theorem leads_nil : Leads ([] : List (κ × β)) k b b := fun _ hv => hv

/-- All assignments to the point are of one value. -/
theorem leads_of_forall (h : ∀ x ∈ as, x.1 = k → x.2 = b') (hsome : about k as ≠ [] ∨ b = b') :
    Leads as k b b' := by
  induction as generalizing b with
  | nil =>
    rcases hsome with hne | rfl
    · exact absurd rfl hne
    · exact leads_nil
  | cons x as ih =>
    have hrest := fun y hy => h y (mem_cons_of_mem x hy)
    intro v hv
    by_cases hx : x.1 = k
    · refine ih (b := b') hrest (.inr rfl) _ ?_
      subst hx
      rw [update_self]
      exact h x (mem_cons_self ..) rfl
    · have habout : about k (x :: as) = about k as :=
        filter_cons_of_neg (by simpa using hx)
      rw [habout] at hsome
      refine ih hrest hsome _ ?_
      rw [update_of_ne (Ne.symm hx), hv]

theorem about_eq_nil (h : ∀ x ∈ as, x.1 ≠ k) : about k as = [] := by
  refine filter_eq_nil_iff.mpr ?_
  intro x hx
  simpa using h x hx

theorem Leads.append (ha : Leads as k a b) (hb : Leads bs k b b') : Leads (as ++ bs) k a b' := by
  intro v hv
  rw [overwrite_append]
  exact hb _ (ha v hv)

theorem Leads.of_about (h : Leads as k b b') (habout : about k as = about k bs) :
    Leads bs k b b' := by
  intro v hv
  rw [← overwrite_of_about habout]
  exact h v hv

/-- **Replay.**  An end of the sequence keeps what the whole sequence leads to. -/
theorem Leads.of_append (h : Leads (as ++ bs) k b b') : Leads bs k b' b' := by
  intro v hv
  by_cases hbs : about k bs = []
  · rw [overwrite_of_about_nil hbs, hv]
  · have hend := h (fun _ => b) rfl
    rw [overwrite_append] at hend
    exact (overwrite_congr (.inr hbs)).trans hend

theorem Leads.restart (h : Leads as k b b') : Leads as k b' b' := by
  have hall : Leads ([] ++ as) k b b' := h
  exact hall.of_append

end Overwrites
