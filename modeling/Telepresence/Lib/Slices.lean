import Mathlib.Tactic.Basic

/-!
# Byte slices with a length and a capacity

A slice is a window on a backing array.  Reading an element checks the index
against the length, and so does `a[n:]`, whose upper bound defaults to the
length; but `a[:n]` is only checked against the **capacity**, so it can
uncover bytes of the backing array that lie beyond the length.

An expression that is out of range panics.  Panics are kept apart from the
errors a function returns: they are the `error` side of `Except Panic`.
-/

/-- The run-time panics of slice and index expressions. -/
inductive Panic where
  | indexOutOfRange
  | sliceBoundsOutOfRange
  deriving DecidableEq, Repr

namespace Panic

variable {α β : Type}

theorem ok_bind (a : α) (f : α → Except Panic β) : (Except.ok a >>= f) = f a := rfl

theorem error_bind (p : Panic) (f : α → Except Panic β) :
    (Except.error p >>= f) = .error p := rfl

/-- A sequence of two computations that succeeds, taken apart. -/
theorem bind_eq_ok {x : Except Panic α} {f : α → Except Panic β} {b : β} :
    (x >>= f) = .ok b ↔ ∃ a, x = .ok a ∧ f a = .ok b := by
  cases x with
  | error p => simp [error_bind]
  | ok a => simp [ok_bind]

end Panic

/-- A byte slice: `mem` is the backing array from the slice's first element up
to its capacity, and the first `len` bytes of it are the slice's contents. -/
structure Slice where
  mem : List UInt8
  len : Nat
  len_le : len ≤ mem.length

namespace Slice

/-- The contents of the slice. -/
def bytes (s : Slice) : List UInt8 := s.mem.take s.len

/-- The slice that holds `data` and has `spare` behind it in its backing
array. -/
def ofData (data spare : List UInt8) : Slice where
  mem := data ++ spare
  len := data.length
  len_le := by simp

/-- The element `s[i]`. -/
def index (s : Slice) (i : Nat) : Except Panic UInt8 :=
  if h : i < s.len then .ok (s.mem.get ⟨i, by have := s.len_le; omega⟩)
  else .error .indexOutOfRange

/-- The slice `s[n:]`. -/
def sliceFrom (s : Slice) (n : Nat) : Except Panic Slice :=
  if n ≤ s.len then
    .ok { mem := s.mem.drop n
          len := s.len - n
          len_le := by have := s.len_le; simp; omega }
  else .error .sliceBoundsOutOfRange

/-- The slice `s[:n]`, which may reach beyond the length up to the capacity. -/
def sliceTo (s : Slice) (n : Nat) : Except Panic Slice :=
  if h : n ≤ s.mem.length then .ok { mem := s.mem, len := n, len_le := h }
  else .error .sliceBoundsOutOfRange

@[simp] theorem ofData_len (data spare : List UInt8) :
    (ofData data spare).len = data.length := rfl

@[simp] theorem ofData_bytes (data spare : List UInt8) :
    (ofData data spare).bytes = data := by
  simp [ofData, bytes]

@[simp] theorem index_ofData_nil (spare : List UInt8) (i : Nat) :
    (ofData [] spare).index i = .error .indexOutOfRange := by
  simp [index]

@[simp] theorem index_ofData_cons (b : UInt8) (data spare : List UInt8) :
    (ofData (b :: data) spare).index 0 = .ok b := by
  simp [index, ofData]

/-- Dropping a prefix of the contents keeps the spare memory. -/
theorem sliceFrom_ofData {data spare : List UInt8} {n : Nat} (h : n ≤ data.length) :
    (ofData data spare).sliceFrom n = .ok (ofData (data.drop n) spare) := by
  simp [sliceFrom, ofData, h, List.drop_append_of_le_length h]

/-- Within the length, `s[:n]` is a prefix of the contents. -/
theorem sliceTo_ofData {data : List UInt8} {n : Nat} (h : n ≤ data.length)
    (spare : List UInt8) :
    ∃ r, (ofData data spare).sliceTo n = .ok r ∧ r.bytes = data.take n := by
  have hcap : n ≤ (ofData data spare).mem.length := by
    simp only [ofData, List.length_append]
    omega
  refine ⟨⟨(ofData data spare).mem, n, hcap⟩, ?_, ?_⟩
  · rw [sliceTo, dif_pos hcap]
  · simp [bytes, ofData, List.take_append_of_le_length h]

/-- Without spare memory, `s[:n]` beyond the length panics. -/
theorem sliceTo_ofData_panics {data : List UInt8} {n : Nat} (h : data.length < n) :
    (ofData data []).sliceTo n = .error .sliceBoundsOutOfRange := by
  have hn : ¬ n ≤ (ofData data []).mem.length := by
    simpa [ofData] using h
  rw [sliceTo, dif_neg hn]

end Slice
