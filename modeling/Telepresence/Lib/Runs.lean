import Mathlib.Tactic.ByContra

/-!
# Runs of a labelled partial step function

A system is given by a partial function `step : σ → α → Option σ`: in a given
state an action is either disabled (`none`) or leads to exactly one next
state.  All nondeterminism (scheduling, message order, timer expiry) sits in
the choice of the actions, so a run is a list of them.

Three proof rules are packaged here, all by induction on the run.

* `always_of_meets`: an invariant that survives every step meeting a condition
  holds throughout every run all of whose steps meet it.
* `meets_iff_meets`: conditions that agree in invariant states are met by the same
  runs.
* `always_iff_meets`: if, from a state with the invariant, a step meeting the
  condition keeps the invariant and a step violating it destroys the property
  at once, then a run has the property throughout exactly when all its steps
  meet the condition.
-/

namespace Runs

open List

variable {σ α : Type*} (step : σ → α → Option σ)

/-- Execute the actions in order; `none` as soon as one of them is disabled. -/
def run : σ → List α → Option σ
  | s, [] => some s
  | s, a :: as => (step s a).bind fun t => run t as

/-- Every action that the run takes is taken in a state where `cond` allows
it. -/
def Meets (cond : σ → α → Prop) : σ → List α → Prop
  | _, [] => True
  | s, a :: as => ∀ t, step s a = some t → cond s a ∧ Meets cond t as

/-- `P` holds in every state the run passes through, the first and the last
included. -/
def Always (P : σ → Prop) : σ → List α → Prop
  | s, [] => P s
  | s, a :: as => P s ∧ ∀ t, step s a = some t → Always P t as

variable {step}

/-- Actions each of which appends an element to a list in the state. -/
theorem run_appends {β : Type*} {P : List β → σ} {f : β → α}
    (h : ∀ l x, step (P l) (f x) = some (P (l ++ [x]))) (l xs : List β) :
    run step (P l) (xs.map f) = some (P (l ++ xs)) := by
  induction xs generalizing l with
  | nil => simp [run]
  | cons x xs ih => simp [run, h, ih]

/-- First some of the actions, then the others. -/
theorem run_append (s : σ) (as bs : List α) :
    run step s (as ++ bs) = (run step s as).bind fun t => run step t bs := by
  induction as generalizing s with
  | nil => rfl
  | cons a as ih =>
    rw [cons_append, run, run, Option.bind_assoc]
    congr 1
    funext t
    exact ih t

variable {cond : σ → α → Prop} {s : σ} {as : List α}

/-- One step at a time. -/
theorem Meets.cons {t : σ} {a : α} (hstep : step s a = some t) (hc : cond s a)
    (hrest : Meets step cond t as) : Meets step cond s (a :: as) := by
  intro t' ht'
  rw [hstep] at ht'
  cases ht'
  exact ⟨hc, hrest⟩

/-- A condition on the actions alone. -/
theorem meets_of_forall {cond : α → Prop} (h : ∀ a ∈ as, cond a) (s : σ) :
    Meets step (fun _ a => cond a) s as := by
  induction as generalizing s with
  | nil => trivial
  | cons a as ih =>
    intro t _
    exact ⟨h a (mem_cons_self ..), ih (fun b hb => h b (mem_cons_of_mem _ hb)) t⟩

/-- Every step of the run is one that a test lets through. -/
theorem meets_of_test {test : σ → α → Bool} (htest : ∀ s a, test s a = true → cond s a)
    (h : (run (fun s a => if test s a then step s a else none) s as).isSome = true) :
    Meets step cond s as := by
  induction as generalizing s with
  | nil => trivial
  | cons a as ih =>
    obtain ⟨t, ht⟩ := Option.isSome_iff_exists.mp h
    obtain ⟨t', hstep, hrun⟩ := Option.bind_eq_some_iff.mp ht
    dsimp only at hstep
    split at hstep
    · rename_i hpass
      refine Meets.cons hstep (htest s a hpass) (ih ?_)
      rw [hrun]
      rfl
    · cases hstep

variable {P : σ → Prop}

/-- The first state of a run is one it passes through. -/
theorem Always.head (h : Always step P s as) : P s := by
  cases as with
  | nil => exact h
  | cons _ _ => exact h.1

/-- The last state of a run is one it passes through. -/
theorem Always.of_run {t : σ} (h : Always step P s as) (hrun : run step s as = some t) : P t := by
  induction as generalizing s with
  | nil =>
    cases hrun
    exact h
  | cons a as ih =>
    obtain ⟨s', hstep, hrest⟩ := Option.bind_eq_some_iff.mp hrun
    exact ih (h.2 s' hstep) hrest

/-- The last state of the run lacks what the property implies. -/
theorem not_always_of_run {Q : σ → Prop} [DecidablePred Q] (hQ : ∀ t, P t → Q t)
    (h : (run step s as).any (fun t => ¬ Q t) = true) : ¬ Always step P s as := by
  intro halways
  obtain ⟨t, ht, hnot⟩ := (Option.any_eq_true _ _).mp h
  exact of_decide_eq_true hnot (hQ t (halways.of_run ht))

variable {Inv : σ → Prop}

/-- **Safety rule.**  What allowed steps preserve holds in every state of a
run of allowed steps. -/
theorem always_of_meets (hprop : ∀ s, Inv s → P s)
    (hkeep : ∀ s a t, Inv s → cond s a → step s a = some t → Inv t) (hs : Inv s)
    (h : Meets step cond s as) : Always step P s as := by
  induction as generalizing s with
  | nil => exact hprop s hs
  | cons a as ih =>
    refine ⟨hprop s hs, ?_⟩
    intro t ht
    obtain ⟨hc, hrest⟩ := h t ht
    exact ih (hkeep s a t hs hc ht) hrest

/-- What holds of every allowed step from an invariant state holds of every step
of a run of allowed steps. -/
theorem meets_of_meets {cond' : σ → α → Prop}
    (hkeep : ∀ s a t, Inv s → cond s a → step s a = some t → Inv t)
    (himp : ∀ s a t, Inv s → cond s a → step s a = some t → cond' s a) (hs : Inv s)
    (h : Meets step cond s as) : Meets step cond' s as := by
  induction as generalizing s with
  | nil => trivial
  | cons a as ih =>
    intro t ht
    obtain ⟨hc, hrest⟩ := h t ht
    exact ⟨himp s a t hs hc ht, ih (hkeep s a t hs hc ht) hrest⟩

/-- **Step rule.**  Two conditions that agree in invariant states are met by the
same runs, if the steps that meet the first one keep the invariant. -/
theorem meets_iff_meets {cond' : σ → α → Prop}
    (hkeep : ∀ s a t, Inv s → cond s a → step s a = some t → Inv t)
    (hiff : ∀ s a t, Inv s → step s a = some t → (cond s a ↔ cond' s a)) (hs : Inv s) (as : List α) :
    Meets step cond s as ↔ Meets step cond' s as := by
  induction as generalizing s with
  | nil => exact Iff.rfl
  | cons a as ih =>
    refine forall₂_congr fun t ht => ?_
    rw [hiff s a t hs ht]
    refine and_congr_right fun hc => ?_
    exact ih (hkeep s a t hs ((hiff s a t hs ht).mpr hc) ht)

/-- **Exactness rule.**  If allowed steps keep the invariant, the invariant
gives the property, and a forbidden step taken from an invariant state makes
the property fail, then the runs with the property throughout are exactly the
runs of allowed steps. -/
theorem always_iff_meets (hprop : ∀ s, Inv s → P s)
    (hkeep : ∀ s a t, Inv s → cond s a → step s a = some t → Inv t)
    (hbreak : ∀ s a t, Inv s → ¬ cond s a → step s a = some t → ¬ P t) (hs : Inv s) (as : List α) :
    Always step P s as ↔ Meets step cond s as := by
  refine ⟨?_, always_of_meets hprop hkeep hs⟩
  intro h
  induction as generalizing s with
  | nil => trivial
  | cons a as ih =>
    intro t ht
    have hc : cond s a := by
      by_contra hc
      exact hbreak s a t hs hc ht (h.2 t ht).head
    exact ⟨hc, ih (hkeep s a t hs hc ht) (h.2 t ht)⟩

/-- The same, for steps after which the property holds exactly if they are
allowed. -/
theorem always_iff_meets_of_iff (hprop : ∀ s, Inv s → P s)
    (hiff : ∀ s a t, Inv s → step s a = some t → (P t ↔ cond s a) ∧ (P t → Inv t)) (hs : Inv s)
    (as : List α) : Always step P s as ↔ Meets step cond s as := by
  refine always_iff_meets hprop ?_ ?_ hs as
  · intro s a t hs hc ht
    obtain ⟨hP, hkeep⟩ := hiff s a t hs ht
    exact hkeep (hP.mpr hc)
  · intro s a t hs hc ht hP
    exact hc ((hiff s a t hs ht).1.mp hP)

/-! ## Lists in a state -/

section Lists

variable {α : Type*} {P : α → Prop} {l : List α} {x : α}

theorem forall_mem_concat : (∀ y ∈ l ++ [x], P y) ↔ (∀ y ∈ l, P y) ∧ P x := by
  rw [forall_mem_append, forall_mem_singleton]

theorem forall_mem_set {i : Nat} (h : ∀ y ∈ l, P y) (hx : P x) : ∀ y ∈ l.set i x, P y := by
  intro y hy
  rcases mem_or_eq_of_mem_set hy with hy | rfl
  · exact h y hy
  · exact hx

end Lists

end Runs
