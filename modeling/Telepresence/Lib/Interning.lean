import Mathlib.Data.List.Induction
import Telepresence.Lib.Maps

/-!
# Numbering keys by their first occurrence

A map that gives every key a value when it is first asked for it, and the same
value after that.  The value depends on the size of the map at that time only,
that is on the place of the key among the different keys in the order of their
first occurrence.
-/

namespace Interning

open List

variable {α ν : Type} [DecidableEq α]

/-- The value of a key, and the map that knows it. -/
def intern (f : Nat → ν) (m : GoMap α ν) (a : α) : ν × GoMap α ν :=
  match m.lookup a with
  | some v => (v, m)
  | none => (f m.entries.length, m.insert a (f m.entries.length))

/-- Add a key that is not there yet. -/
def extend (keys : List α) (a : α) : List α := if a ∈ keys then keys else keys ++ [a]

/-- The different keys, in the order of their first occurrence. -/
def distinct (as : List α) : List α := as.foldl extend []

/-- The map knows exactly the keys, and has given each the value of its place. -/
structure Interned (f : Nat → ν) (m : GoMap α ν) (keys : List α) : Prop where
  size : m.entries.length = keys.length
  lookup : ∀ a, m.lookup a = if a ∈ keys then some (f (keys.idxOf a)) else none

theorem mem_extend {keys : List α} {a b : α} : b ∈ extend keys a ↔ b ∈ keys ∨ b = a := by
  unfold extend
  split
  · rename_i hmem
    constructor
    · exact Or.inl
    · intro h
      rcases h with h | rfl
      · exact h
      · exact hmem
  · simp

theorem idxOf_extend {keys : List α} {a b : α} (h : b ∈ keys) :
    (extend keys a).idxOf b = keys.idxOf b := by
  unfold extend
  split
  · rfl
  · exact idxOf_append_of_mem h

theorem distinct_append (as : List α) (a : α) : distinct (as ++ [a]) = extend (distinct as) a := by
  rw [distinct, foldl_append]
  rfl

theorem mem_distinct {as : List α} {a : α} : a ∈ distinct as ↔ a ∈ as := by
  induction as using reverseRecOn with
  | nil => rfl
  | append_singleton as b ih =>
    rw [distinct_append, mem_extend, ih, mem_append, mem_singleton]

theorem Interned.empty (f : Nat → ν) : Interned f (∅ : GoMap α ν) [] where
  size := rfl
  lookup := by
    intro a
    simp

/-- **One key.**  It gets the value of its place among the keys. -/
theorem Interned.intern {f : Nat → ν} {m : GoMap α ν} {keys : List α} (h : Interned f m keys)
    (a : α) :
    (intern f m a).1 = f ((extend keys a).idxOf a) ∧
      Interned f (intern f m a).2 (extend keys a) := by
  have hlookup := h.lookup a
  unfold Interning.intern
  by_cases hmem : a ∈ keys
  · have hextend : extend keys a = keys := if_pos hmem
    rw [if_pos hmem] at hlookup
    rw [hlookup, hextend]
    exact ⟨rfl, h⟩
  · have hextend : extend keys a = keys ++ [a] := if_neg hmem
    rw [if_neg hmem] at hlookup
    have hnot : a ∉ m := AList.lookup_eq_none.mp hlookup
    have hplace : (keys ++ [a]).idxOf a = keys.length := by
      rw [idxOf_append_of_notMem hmem]
      simp
    rw [hlookup, hextend]
    refine ⟨?_, ?_, ?_⟩
    · rw [hplace, h.size]
    · rw [AList.entries_insert_of_notMem hnot, length_cons, h.size, length_append]
      rfl
    · intro b
      rw [GoMap.lookup_insert_eq]
      by_cases hb : b = a
      · subst hb
        simp only [if_true, mem_append, mem_singleton, or_true, hplace, h.size]
      · rw [if_neg hb, h.lookup b]
        by_cases hbmem : b ∈ keys
        · rw [if_pos hbmem, if_pos (mem_append_left _ hbmem),
            idxOf_append_of_mem hbmem]
        · rw [if_neg hbmem, if_neg (by simp [hbmem, hb])]

end Interning
