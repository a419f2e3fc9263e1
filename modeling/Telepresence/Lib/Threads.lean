import Mathlib.Data.List.Perm.Basic
import Telepresence.Lib.Runs

/-!
# Threads over a shared state

A concurrent program as a pool of threads that take atomic steps on a shared
state.  A thread is a stack of frames; a step executes its top frame and puts
the frames that remain to be done in its place.  What a frame leaves open (the
outcome of a call outside the program, which key an iteration visits next) is
an argument of the step, so a run is a list of actions.

Proofs about a pool need not know which thread a frame belongs to: `step_cases`
describes a step by the frames of all threads together, up to their order.
-/

namespace Threads

open List

variable {σ φ ω χ : Type*}

/-- A shared state and the threads on it. -/
structure Pool (σ φ : Type*) where
  shared : σ
  threads : List (List φ) := []

/-- Start an operation in a thread of its own, or let a thread take a step. -/
inductive Action (ω χ : Type*) where
  | start (op : ω)
  | run (thread : Nat) (choice : χ)

namespace Pool

/-- All frames, those of one thread after those of the other. -/
def frames (p : Pool σ φ) : List φ := p.threads.flatten

/-- No operation is in progress. -/
def Idle (p : Pool σ φ) : Prop := p.frames = []

/-- The frame that a thread executes next. -/
def top (p : Pool σ φ) (thread : Nat) : Option φ := (p.threads[thread]?).bind List.head?

theorem mem_frames_of_top {p : Pool σ φ} {thread : Nat} {f : φ} (h : p.top thread = some f) :
    f ∈ p.frames := by
  obtain ⟨fs, hfs, hf⟩ := Option.bind_eq_some_iff.mp h
  exact mem_flatten.mpr ⟨fs, mem_of_getElem? hfs, mem_of_mem_head? hf⟩

/-- The thread has the frame before it. -/
theorem exists_of_top {p : Pool σ φ} {thread : Nat} {f : φ} (h : p.top thread = some f) :
    ∃ rest, p.threads[thread]? = some (f :: rest) := by
  obtain ⟨fs, hfs, hhead⟩ := Option.bind_eq_some_iff.mp h
  exact ⟨fs.tail, by rw [hfs, List.cons_head?_tail hhead]⟩

/-- The frame that an action executes passes a test. -/
def passes (test : σ → φ → Bool) (p : Pool σ φ) : Action ω χ → Bool
  | .start _ => true
  | .run thread _ => (p.top thread).all (test p.shared)

theorem test_of_passes {test : σ → φ → Bool} {p : Pool σ φ} {thread : Nat} {choice : χ} {f : φ}
    (h : p.passes test (.run thread choice : Action ω χ) = true) (hf : p.top thread = some f) :
    test p.shared f = true := by
  simpa [passes, hf] using h

end Pool

/-- The steps of a pool whose operations have the given programs and whose
frames are executed by `exec`. -/
def step (program : ω → List φ) (exec : σ → φ → χ → Option (σ × List φ)) (p : Pool σ φ) :
    Action ω χ → Option (Pool σ φ)
  | .start op => some { p with threads := p.threads ++ [program op] }
  | .run thread choice =>
      match p.threads[thread]? with
      | some (f :: rest) =>
          match exec p.shared f choice with
          | some (shared, fs) => some ⟨shared, p.threads.set thread (fs ++ rest)⟩
          | none => none
      | _ => none

/-- A thread is added for each operation, and none is removed. -/
theorem length_threads_of_step {program : ω → List φ} {exec : σ → φ → χ → Option (σ × List φ)}
    {p p' : Pool σ φ} {a : Action ω χ} (h : step program exec p a = some p') :
    p'.threads.length = match a with
      | .start _ => p.threads.length + 1
      | .run _ _ => p.threads.length := by
  cases a with
  | start op =>
    cases h
    simp
  | run thread choice =>
    simp only [step] at h
    split at h
    · split at h
      · cases h
        simp
      · cases h
    · cases h

/-- One element, and the others; and another one in its place. -/
theorem perm_of_getElem? {ts : List φ} {i : Nat} {x : φ} (h : ts[i]? = some x) :
    ts.Perm (x :: ts.eraseIdx i) ∧ ∀ y, (ts.set i y).Perm (y :: ts.eraseIdx i) := by
  obtain ⟨hlt, hget⟩ := List.getElem?_eq_some_iff.mp h
  refine ⟨?_, set_perm_cons_eraseIdx hlt⟩
  rw [← hget]
  exact (getElem_cons_eraseIdx_perm hlt).symm

theorem flatten_perm_of_getElem? {ts : List (List φ)} {i : Nat} {x : List φ}
    (h : ts[i]? = some x) (y : List φ) :
    ts.flatten.Perm (x ++ (ts.eraseIdx i).flatten) ∧
      (ts.set i y).flatten.Perm (y ++ (ts.eraseIdx i).flatten) := by
  obtain ⟨hold, hnew⟩ := perm_of_getElem? h
  exact ⟨hold.flatten, (hnew y).flatten⟩

/-- **What a step does.**  It adds the program of an operation to the frames,
or executes one frame and leaves all others as they are. -/
theorem step_cases {program : ω → List φ} {exec : σ → φ → χ → Option (σ × List φ)}
    {p p' : Pool σ φ} {a : Action ω χ} (h : step program exec p a = some p') :
    (∃ op, a = .start op ∧ p'.shared = p.shared ∧ p'.frames = p.frames ++ program op) ∨
      ∃ thread choice f fs others, a = .run thread choice ∧ p.top thread = some f ∧
        exec p.shared f choice = some (p'.shared, fs) ∧ p.frames.Perm (f :: others) ∧
        p'.frames.Perm (fs ++ others) := by
  cases a with
  | start op =>
    cases h
    exact .inl ⟨op, rfl, rfl, by simp [Pool.frames]⟩
  | run thread choice =>
    simp only [step] at h
    split at h
    · rename_i f rest hthread
      split at h
      · rename_i shared fs hexec
        cases h
        obtain ⟨hold, hnew⟩ := flatten_perm_of_getElem? hthread (fs ++ rest)
        refine .inr ⟨thread, choice, f, fs, rest ++ (p.threads.eraseIdx thread).flatten,
          rfl, by simp [Pool.top, hthread], hexec, hold, ?_⟩
        rw [← append_assoc]
        exact hnew
      · cases h
    · cases h

end Threads
