import Mathlib.Data.Finset.Erase
import Mathlib.Data.Finset.Insert

/-!
# Sets kept up to date by differences

A set is to contain what any of several parties holds.  When one of them
replaces what it holds, only the difference between its old and its new list
is applied to the set: what was dropped is removed, and what was added is
inserted.

* `isDelta_delta`: the difference of two lists, computed by crossing out in the
  old list what is also in the new one, is their difference with
  multiplicities.
* `tracks_iff`: the set is right after such a change exactly if nothing that
  was dropped is still held by anyone.
-/

namespace Deltas

open List

variable {α : Type} [DecidableEq α]

/-! ## The difference of two lists -/

/-- Remove the element at an index by moving the last element there. -/
def swapRemove (xs : List α) (i : Nat) : List α :=
  match xs.getLast? with
  | none => []
  | some last => (xs.set i last).dropLast

/-- Cross out the elements of the second list in the first one; those that are
not there are the added ones. -/
def deltaLoop (old added : List α) : List α → List α × List α
  | [] => (added, old)
  | n :: new =>
      if n ∈ old then deltaLoop (swapRemove old (old.idxOf n)) added new
      else deltaLoop old (added ++ [n]) new

/-- What was added and what was dropped, from the old list to the new one. -/
def delta (old new : List α) : List α × List α :=
  if old = [] then (new, []) else deltaLoop old [] new

omit [DecidableEq α] in
/-- One element is taken out, and the others change places. -/
theorem perm_swapRemove {xs : List α} {i : Nat} {a : α} (h : xs[i]? = some a) :
    xs.Perm (a :: swapRemove xs i) := by
  obtain ⟨hi, ha⟩ := List.getElem?_eq_some_iff.mp h
  have hne : xs ≠ [] := by
    intro hnil
    subst hnil
    exact absurd hi (Nat.not_lt_zero i)
  obtain ⟨front, last, rfl⟩ := (eq_nil_or_concat' xs).resolve_left hne
  simp only [swapRemove, getLast?_concat]
  by_cases hlast : i < front.length
  · rw [set_append_left _ _ hlast, dropLast_concat]
    rw [getElem_append_left hlast] at ha
    have hsplit : front = front.take i ++ a :: front.drop (i + 1) := by
      rw [← ha, getElem_cons_drop, take_append_drop]
    rw [set_eq_take_append_cons_drop, if_pos hlast]
    calc front ++ [last]
        = (front.take i ++ a :: front.drop (i + 1)) ++ [last] := by rw [← hsplit]
      _ = front.take i ++ a :: (front.drop (i + 1) ++ [last]) := by simp
      List.Perm _ (a :: (front.take i ++ (front.drop (i + 1) ++ [last]))) := perm_middle
      List.Perm _ (a :: (front.take i ++ last :: front.drop (i + 1))) :=
        ((perm_append_singleton last _).append_left _).cons a
  · have hlen : i = front.length := by
      rw [length_append, length_singleton] at hi
      omega
    subst hlen
    have heq : last = a := by simpa using ha
    subst heq
    rw [set_append_right _ _ (Nat.le_refl _)]
    simp

/-- What was added and what was dropped, with multiplicities. -/
structure IsDelta (old new added dropped : List α) : Prop where
  added : ∀ a, added.count a = new.count a - old.count a
  dropped : ∀ a, dropped.count a = old.count a - new.count a

theorem count_deltaLoop (old added new : List α) (a : α) :
    (deltaLoop old added new).1.count a = added.count a + (new.count a - old.count a) ∧
      (deltaLoop old added new).2.count a = old.count a - new.count a := by
  induction new generalizing old added with
  | nil => simp [deltaLoop]
  | cons n new ih =>
    rw [deltaLoop]
    split
    · rename_i hmem
      have hget : old[old.idxOf n]? = some n := by
        rw [getElem?_eq_getElem (idxOf_lt_length_iff.mpr hmem), getElem_idxOf]
      have hcount := (perm_swapRemove hget).count_eq a
      obtain ⟨hadded, hdropped⟩ := ih (swapRemove old (old.idxOf n)) added
      rw [count_cons] at hcount ⊢
      split at hcount
      · rename_i heq
        rw [if_pos heq]
        omega
      · rename_i hne
        rw [if_neg hne]
        omega
    · rename_i hmem
      obtain ⟨hadded, hdropped⟩ := ih old (added ++ [n])
      rw [count_append, count_singleton] at hadded
      rw [count_cons]
      split at hadded
      · rename_i heq
        have hzero : old.count a = 0 := by
          rw [count_eq_zero, ← beq_iff_eq.mp heq]
          exact hmem
        rw [if_pos heq]
        omega
      · rename_i hne
        rw [if_neg hne]
        omega

/-- From nothing, everything is added. -/
@[simp] theorem delta_nil_left (new : List α) : delta [] new = (new, []) := rfl

/-- To nothing, everything is dropped. -/
@[simp] theorem delta_nil_right (old : List α) : delta old [] = ([], old) := by
  cases old <;> rfl

/-- **The difference of two lists.** -/
theorem isDelta_delta (old new : List α) :
    IsDelta old new (delta old new).1 (delta old new).2 := by
  rw [delta]
  split
  · rename_i hnil
    subst hnil
    exact ⟨by simp, by simp⟩
  · refine ⟨?_, ?_⟩
    · intro a
      rw [(count_deltaLoop old [] new a).1, count_nil, Nat.zero_add]
    · intro a
      exact (count_deltaLoop old [] new a).2

namespace IsDelta

variable {old new added dropped : List α} (h : IsDelta old new added dropped)
include h

/-- The lists as multisets. -/
theorem coe_eq : (added : Multiset α) = new - old ∧ (dropped : Multiset α) = old - new := by
  simp only [Multiset.ext, Multiset.count_sub, Multiset.coe_count]
  exact ⟨h.added, h.dropped⟩

theorem mem_added {a : α} : a ∈ added ↔ old.count a < new.count a := by
  rw [← count_pos_iff, h.added]
  omega

theorem mem_dropped {a : α} : a ∈ dropped ↔ new.count a < old.count a := by
  rw [← count_pos_iff, h.dropped]
  omega

theorem not_added_of_dropped {a : α} (ha : a ∈ dropped) : a ∉ added := by
  rw [h.mem_added]
  rw [h.mem_dropped] at ha
  omega

theorem mem_new_of_added {a : α} (ha : a ∈ added) : a ∈ new := by
  rw [h.mem_added] at ha
  exact count_pos_iff.mp (by omega)

/-- What is in the old list and was not dropped is in the new list. -/
theorem mem_new_of_old {a : α} (ha : a ∈ old) (hkept : a ∉ dropped) : a ∈ new := by
  rw [h.mem_dropped] at hkept
  have hpos := count_pos_iff.mpr ha
  exact count_pos_iff.mp (by omega)

/-- What is in the new list was in the old one, or was added. -/
theorem old_or_added {a : α} (ha : a ∈ new) : a ∈ old ∨ a ∈ added := by
  by_cases hold : a ∈ old
  · exact .inl hold
  · refine .inr (h.mem_added.mpr ?_)
    rw [count_eq_zero.mpr hold]
    exact count_pos_iff.mpr ha

end IsDelta

/-! ## The set -/

section Loops

variable {β : Type} {S : β → Finset α} {f : β → α → β} {a : α}

/-- A loop that inserts. -/
theorem mem_foldl_insert (hf : ∀ r x, S (f r x) = insert x (S r)) (xs : List α) (r : β) :
    a ∈ S (xs.foldl f r) ↔ a ∈ S r ∨ a ∈ xs := by
  induction xs generalizing r with
  | nil => simp
  | cons x xs ih =>
    rw [foldl_cons, ih, hf, Finset.mem_insert, or_comm (a := a = x), or_assoc, mem_cons]

/-- A loop that removes. -/
theorem mem_foldl_erase (hf : ∀ r x, S (f r x) = (S r).erase x) (xs : List α) (r : β) :
    a ∈ S (xs.foldl f r) ↔ a ∈ S r ∧ a ∉ xs := by
  induction xs generalizing r with
  | nil => simp
  | cons x xs ih =>
    rw [foldl_cons, ih, hf, Finset.mem_erase, and_comm (a := a ≠ x), and_assoc, mem_cons, not_or]

end Loops

/-- **A change of one party.**  A set contained what that party and the others
held.  After the difference has been applied it contains what is held now
exactly if nothing that was dropped is held by the others, or still held by the
party itself. -/
theorem tracks_iff {old new added dropped : List α} (h : IsDelta old new added dropped)
    {before after others : α → Prop} (hbefore : ∀ a, before a ↔ others a ∨ a ∈ old)
    (hafter : ∀ a, after a ↔ before a ∧ a ∉ dropped ∨ a ∈ added) :
    (∀ a, after a ↔ others a ∨ a ∈ new) ↔ ∀ a ∈ dropped, ¬ others a ∧ a ∉ new := by
  constructor
  · intro hright a ha
    have hgone : ¬ after a := by
      rw [hafter]
      intro hstill
      rcases hstill with ⟨_, hkept⟩ | hadded
      · exact hkept ha
      · exact h.not_added_of_dropped ha hadded
    rw [hright] at hgone
    exact not_or.mp hgone
  · intro hfree a
    rw [hafter, hbefore]
    by_cases ha : a ∈ dropped
    · have hadded := h.not_added_of_dropped ha
      have hfree := hfree a ha
      simp [ha, hadded, hfree.1, hfree.2]
    · constructor
      · intro hheld
        rcases hheld with ⟨hothers | hold, _⟩ | hadded
        · exact .inl hothers
        · exact .inr (h.mem_new_of_old hold ha)
        · exact .inr (h.mem_new_of_added hadded)
      · intro hheld
        rcases hheld with hothers | hnew
        · exact .inl ⟨.inl hothers, ha⟩
        · rcases h.old_or_added hnew with hold | hadded
          · exact .inl ⟨.inr hold, ha⟩
          · exact .inr hadded

end Deltas
