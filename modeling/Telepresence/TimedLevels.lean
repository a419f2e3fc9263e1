import Mathlib.Algebra.Group.Int.Defs
import Telepresence.Lib.Runs

/-!
# Temporary log levels

`timedLevel` of `pkg/log`.  Its lock makes each method one step.  To stop a timer
does not stop a callback that it has started, and a callback resets the level,
whichever `Set` has armed the timer.
-/

namespace Telepresence.Log

open Runs

/-- `UnsetLevel`. -/
def unsetLevel : Int := 2 ^ 63 - 1

/-- `timedLevel`, the level that its setter was last given, and the time. -/
structure TimedLevel where
  defaultLevel : Int
  level : Int
  tempLevel : Int := unsetLevel
  expires : Option Int := none
  /-- The timer, and when it will fire, unless it was stopped or has fired. -/
  timer : Option (Option Int) := none
  /-- How many callbacks were started and wait for the lock. -/
  callbacks : Nat := 0
  now : Int := 0

namespace TimedLevel

/-- `Get`. -/
def get (tl : TimedLevel) : Int × Int :=
  match tl.expires with
  | none => (tl.tempLevel, 0)
  | some expires =>
      if tl.tempLevel = unsetLevel then (tl.tempLevel, 0)
      else if expires - tl.now ≤ 0 then (unsetLevel, 0)
      else (tl.tempLevel, expires - tl.now)

/-- `Reset`. -/
def reset (tl : TimedLevel) : TimedLevel :=
  { tl with expires := none, tempLevel := unsetLevel, level := tl.defaultLevel }

/-- `Set`.  A timer that exists is armed again, or a new one is made. -/
def set (tl : TimedLevel) (level duration : Int) : TimedLevel :=
  if level = unsetLevel then tl.reset
  else if duration = 0 then { tl with level, tempLevel := level, expires := none, timer := none }
  else
    let exTime := tl.now + duration
    { tl with level, tempLevel := level, expires := some exTime, timer := some (some exTime) }

/-- The calls, the time, and the timer with its callbacks. -/
inductive Action where
  | set (level duration : Int)
  | reset
  | get
  | wait (n : Nat)
  | fire
  | callback

/-- A call, or time that passes. -/
def step (tl : TimedLevel) : Action → Option TimedLevel
  | .set level duration => some (tl.set level duration)
  | .reset => some tl.reset
  | .get => some tl
  | .wait n => some { tl with now := tl.now + n }
  | .fire =>
      match tl.timer with
      | some (some t) =>
          if t ≤ tl.now then some { tl with timer := some none, callbacks := tl.callbacks + 1 }
          else none
      | _ => none
  | .callback =>
      match tl.callbacks with
      | n + 1 => some { tl.reset with callbacks := n }
      | 0 => none

/-- It sets or resets the level. -/
def Action.sets : Action → Bool
  | .set _ _ | .reset => true
  | _ => false

/-- After `Set` the level is in effect, until it is set or reset or the duration
has elapsed. -/
def Lasts (tl : TimedLevel) (level duration : Int) : Prop :=
  ∀ as tl', run step (tl.set level duration) as = some tl' → (∀ a ∈ as, a.sets = false) →
    (duration ≠ 0 → tl'.now < tl.now + duration) → tl'.level = level

/-- The time is over, or the level is in effect and a callback would not change
it or can come from the timer of this `Set` only. -/
def Kept (level duration due : Int) (tl : TimedLevel) : Prop :=
  duration ≠ 0 ∧ due ≤ tl.now ∨
    tl.level = level ∧ (tl.defaultLevel = level ∨
      tl.callbacks = 0 ∧ ∀ t, tl.timer = some (some t) → duration ≠ 0 ∧ t = due)

theorem Kept.step {level duration due : Int} {tl tl' : TimedLevel} {a : Action}
    (h : tl.Kept level duration due) (ha : a.sets = false) (hstep : tl.step a = some tl') :
    tl'.Kept level duration due := by
  cases a with
  | set | reset => cases ha
  | get =>
    cases hstep
    exact h
  | wait n =>
    cases hstep
    refine h.imp_left fun ⟨hd, hdue⟩ => ⟨hd, ?_⟩
    dsimp only
    omega
  | fire =>
    simp only [TimedLevel.step] at hstep
    split at hstep
    · rename_i t htimer
      split at hstep
      · rename_i hfire
        cases hstep
        rcases h with hdue | ⟨hlevel, hdefault | ⟨_, harmed⟩⟩
        · exact .inl hdue
        · exact .inr ⟨hlevel, .inl hdefault⟩
        · obtain ⟨hd, rfl⟩ := harmed t htimer
          exact .inl ⟨hd, hfire⟩
      · cases hstep
    · cases hstep
  | callback =>
    simp only [TimedLevel.step] at hstep
    split at hstep
    · rename_i n hn
      cases hstep
      rcases h with hdue | ⟨_, hdefault | ⟨hnone, _⟩⟩
      · exact .inl hdue
      · exact .inr ⟨hdefault, .inl hdefault⟩
      · rw [hn] at hnone
        cases hnone
    · cases hstep

theorem set_frame (tl : TimedLevel) (level duration : Int) :
    (tl.set level duration).defaultLevel = tl.defaultLevel ∧
      (tl.set level duration).callbacks = tl.callbacks ∧ (tl.set level duration).now = tl.now := by
  rw [set]
  split
  · exact ⟨rfl, rfl, rfl⟩
  · split <;> exact ⟨rfl, rfl, rfl⟩

theorem kept_set {tl : TimedLevel} {level duration : Int}
    (h : level = tl.defaultLevel ∨ duration < 0 ∨ level ≠ unsetLevel ∧ tl.callbacks = 0) :
    (tl.set level duration).Kept level duration (tl.now + duration) := by
  simp only [set, reset, Kept]
  split
  · grind
  · split
    · grind
    · grind

/-- **How long a level lasts.**  It lasts for its time exactly if no callback of
an earlier timer waits for the lock, unless the level is the default one or the
time is over at once. -/
theorem set_lasts_iff (tl : TimedLevel) (level duration : Int) :
    tl.Lasts level duration ↔
      level = tl.defaultLevel ∨ duration < 0 ∨ level ≠ unsetLevel ∧ tl.callbacks = 0 := by
  constructor
  · intro h
    by_contra hc
    rw [not_or, not_or] at hc
    obtain ⟨hdefault, hd, hc⟩ := hc
    obtain ⟨hsame, hcallbacks, hnow⟩ := set_frame tl level duration
    have hbefore : duration ≠ 0 → (tl.set level duration).now < tl.now + duration := by
      rw [hnow]
      omega
    refine hc ⟨?_, ?_⟩
    · intro hunset
      have hlevel := h [] _ rfl (by simp) hbefore
      rw [set, if_pos hunset] at hlevel
      exact hdefault hlevel.symm
    · by_contra hn
      obtain ⟨n, hn⟩ := Nat.exists_eq_succ_of_ne_zero hn
      have hrun : run step (tl.set level duration) [.callback] =
          some { (tl.set level duration).reset with callbacks := n } := by
        simp [run, step, hcallbacks, hn]
      have hlevel := h _ _ hrun (by simp [Action.sets]) hbefore
      exact hdefault (hlevel.symm.trans hsame)
  · intro hc as tl' hrun has htime
    have hkept : Always step (Kept level duration (tl.now + duration)) _ as :=
      always_of_meets (fun _ h => h) (fun _ _ _ h ha => h.step ha) (kept_set hc)
        (meets_of_forall has _)
    rcases hkept.of_run hrun with ⟨hd, hdue⟩ | ⟨hlevel, _⟩
    · exact absurd (htime hd) (Int.not_lt.mpr hdue)
    · exact hlevel

/-- The timer of the first level has fired when the second one is set. -/
theorem late_callback_resets :
    ∃ tl, run step { defaultLevel := 0, level := 0 } [.set (-4) 5, .wait 5, .fire] = some tl ∧
      ¬ tl.Lasts 4 10 :=
  ⟨_, rfl, fun h => absurd (h [.callback] _ rfl (by simp [Action.sets]) (by decide)) (by decide)⟩

/-- **What `Get` reports** in any run, late callbacks or not: a level is the one
in effect, and there is none only if the default is in effect or the time is
over. -/
theorem get_in_effect (defaultLevel : Int) (as : List Action) :
    Always step (fun tl =>
      (tl.get.1 ≠ unsetLevel → tl.level = tl.get.1) ∧
        (tl.get.1 = unsetLevel →
          tl.level = tl.defaultLevel ∨ ∃ t, tl.expires = some t ∧ t ≤ tl.now))
      { defaultLevel, level := defaultLevel } as := by
  have hmeets : Meets step (fun _ _ => True) { defaultLevel, level := defaultLevel } as :=
    meets_of_forall (fun _ _ => trivial) _
  refine always_of_meets (fun tl (h : tl.level =
    if tl.tempLevel = unsetLevel then tl.defaultLevel else tl.tempLevel) => ⟨?_, ?_⟩) ?_ rfl hmeets
  · grind [get]
  · grind [get]
  · intro tl a tl' h _ hstep
    cases a <;> grind [step, set, reset]

end TimedLevel

end Telepresence.Log
