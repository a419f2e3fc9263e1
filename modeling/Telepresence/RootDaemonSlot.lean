import Mathlib.Data.List.Nodup
import Telepresence.Lib.Threads

/-!
# The connection to the root daemon

A `session` has one slot for its connection to the root daemon, with a generation
that every change of the slot increments.  `reconnectRootDaemon` is told which
generation has failed.  `slot_sound`: it disturbs no later connection, and every
connection that leaves the slot is closed once.
-/

namespace Telepresence.RootDaemonSlot

open Runs List

/-- How far the `reconnectRootDaemon` is that holds `rootDaemonReconnectLock`. -/
inductive Reconnect where
  | reading (failedGeneration : Nat)
  | clearing (failedGeneration : Nat)
  | connecting

/-- The slot of a `session`, and the connections that are about to be closed. -/
structure Slot where
  conn : Option Nat := none
  generation : Nat := 0
  reconnecting : Option Reconnect := none
  closing : List Nat := []
  -- the history: when the connection came, which ones there were and which are closed,
  -- and the generations for which a reconnect has proceeded
  since : Nat := 0
  known : List Nat := []
  closed : List Nat := []
  proceeded : List Nat := []

namespace Slot

/-- The locked part of a change, and the `Close` of the old connection. -/
def replace (s : Slot) (conn : Option Nat) : Slot :=
  { s with
    conn
    generation := s.generation + 1
    since := s.generation + 1
    closing := s.closing ++ if s.conn = conn then [] else s.conn.toList
    known := s.known ++ if s.conn = conn then [] else conn.toList }

/-- `setRootDaemon`. -/
def setRootDaemon (s : Slot) (conn : Option Nat) : Slot := s.replace conn

/-- `clearRootDaemonIfGeneration`. -/
def clearRootDaemonIfGeneration (s : Slot) (generation : Nat) : Slot × Bool :=
  if s.generation ≠ generation then (s, false) else (s.replace none, true)

/-- `closeRootDaemon`. -/
def closeRootDaemon (s : Slot) : Slot := s.replace none

/-- The calls, the steps of a reconnect, and the goroutines that close. -/
inductive Action where
  | setRootDaemon (conn : Option Nat)
  | closeRootDaemon
  | reconnectRootDaemon (failedGeneration : Nat)
  | getRootDaemon
  | clearRootDaemon
  | finish
  | close (i : Nat)

/-- A connection is set when it has been dialled, or again while it is there. -/
def step (s : Slot) : Action → Option Slot
  | .setRootDaemon conn =>
      if s.conn = conn ∨ ∀ c ∈ conn.toList, c ∉ s.known then some (s.setRootDaemon conn) else none
  | .closeRootDaemon => some s.closeRootDaemon
  | .reconnectRootDaemon g =>
      match s.reconnecting with
      | none => some { s with reconnecting := some (.reading g) }
      | some _ => none
  | .getRootDaemon =>
      match s.reconnecting with
      | some (.reading g) =>
          some { s with reconnecting := if s.generation ≠ g then none else some (.clearing g) }
      | _ => none
  | .clearRootDaemon =>
      match s.reconnecting with
      | some (.clearing g) =>
          match s.clearRootDaemonIfGeneration g with
          | (s, true) =>
              some { s with reconnecting := some .connecting, proceeded := s.proceeded ++ [g] }
          | (s, false) => some { s with reconnecting := none }
      | _ => none
  | .finish =>
      match s.reconnecting with
      | some .connecting => some { s with reconnecting := none }
      | _ => none
  | .close i =>
      match s.closing[i]? with
      | some c => some { s with closing := s.closing.eraseIdx i, closed := s.closed ++ [c] }
      | none => none

/-- The slot changes with a new generation only, a reconnect clears only the
connection of its generation and proceeds once for it, and a connection that has
left the slot is closed once: a `Close` that is about to run can do so. -/
structure Sound (s : Slot) : Prop where
  advances : ∀ a t, s.step a = some t →
    s.generation ≤ t.generation ∧ (t.conn ≠ s.conn → s.generation < t.generation)
  clears : ∀ g t, s.reconnecting = some (.clearing g) → s.step .clearRootDaemon = some t →
    t.conn ≠ s.conn → s.since = g
  once : s.proceeded.Nodup
  closedOnce : ∀ c ∈ s.known, s.conn ≠ some c → (s.closing ++ s.closed).count c = 1
  closes : ∀ i < s.closing.length, (s.step (.close i)).isSome

/-- What holds between the steps. -/
structure Inv (s : Slot) : Prop where
  current : s.conn.isSome → s.since = s.generation
  past : ∀ g ∈ s.proceeded, g < s.generation
  once : s.proceeded.Nodup
  account : (s.closing ++ s.closed ++ s.conn.toList).Perm s.known
  nodup : s.known.Nodup

variable {s t : Slot} {conn : Option Nat}

theorem Inv.replace (h : s.Inv) (hconn : s.conn = conn ∨ ∀ c ∈ conn.toList, c ∉ s.known) :
    (s.replace conn).Inv where
  current _ := rfl
  past g hg := Nat.lt_succ_of_lt (h.past g hg)
  once := h.once
  account := by
    dsimp only [Slot.replace]
    split
    · rename_i hsame
      rw [append_nil, append_nil, ← hsame]
      exact h.account
    · refine Perm.trans ?_ (h.account.append_right conn.toList)
      refine Perm.append_right _ ?_
      rw [append_assoc, append_assoc]
      exact Perm.append_left _ perm_append_comm
  nodup := by
    dsimp only [Slot.replace]
    split
    · rw [append_nil]
      exact h.nodup
    · rename_i hne
      refine nodup_append.mpr ⟨h.nodup, by cases conn <;> simp, ?_⟩
      rintro c hc c' hc' rfl
      exact hconn.resolve_left hne c hc' hc

theorem generation_step {a : Action} (hstep : s.step a = some t) :
    s.generation ≤ t.generation ∧ (t.conn ≠ s.conn → s.generation < t.generation) := by
  cases a <;> grind [step, setRootDaemon, closeRootDaemon, clearRootDaemonIfGeneration, Slot.replace]

theorem Inv.sound (h : s.Inv) : s.Sound where
  advances _ _ := generation_step
  clears g t hg hstep hne := by
    by_cases hgen : s.generation = g
    · have hnone : t.conn = none := by
        grind [step, clearRootDaemonIfGeneration, Slot.replace]
      rw [hnone] at hne
      exact (h.current (Option.isSome_iff_ne_none.mpr hne.symm)).trans hgen
    · grind [step, clearRootDaemonIfGeneration]
  once := h.once
  closedOnce c hc hne := by
    have hcount := h.account.count_eq c
    have hnot : c ∉ s.conn.toList := fun hmem => hne (Option.mem_toList.mp hmem)
    rw [count_append, count_eq_zero_of_not_mem hnot, count_eq_one_of_mem h.nodup hc] at hcount
    exact hcount
  closes i hi := by
    simp [step, getElem?_eq_getElem hi]

/-- A reconnect clears the slot, for the first time in this generation. -/
theorem Inv.proceed (h : s.Inv) (r : Option Reconnect) :
    Inv { s.replace none with reconnecting := r, proceeded := s.proceeded ++ [s.generation] } := by
  have hcleared : (s.replace none).Inv := h.replace (.inr nofun)
  refine { hcleared with past := ?_, once := ?_ }
  · exact forall_mem_concat.mpr ⟨hcleared.past, Nat.lt_succ_self _⟩
  · rw [← concat_eq_append]
    exact .concat (fun hg => Nat.lt_irrefl _ (h.past _ hg)) h.once

theorem Inv.close {i c : Nat} (h : s.Inv) (hc : s.closing[i]? = some c) :
    Inv { s with closing := s.closing.eraseIdx i, closed := s.closed ++ [c] } := by
  refine { h with account := Perm.trans ?_ h.account }
  refine Perm.append_right _ ?_
  have hclosing := (Threads.perm_of_getElem? hc).1
  refine Perm.trans ?_ (hclosing.append_right s.closed).symm
  rw [← append_assoc]
  exact perm_append_comm

theorem Inv.step {a : Action} (h : s.Inv) (hstep : s.step a = some t) : t.Inv := by
  cases a with
  | setRootDaemon conn =>
    obtain ⟨hconn, ⟨⟩⟩ := Option.ite_none_right_eq_some.mp hstep
    exact h.replace hconn
  | closeRootDaemon =>
    cases hstep
    exact h.replace (.inr nofun)
  | reconnectRootDaemon | getRootDaemon | finish =>
    simp only [Slot.step] at hstep
    split at hstep <;> cases hstep
    exact { h with }
  | clearRootDaemon =>
    simp only [Slot.step, clearRootDaemonIfGeneration] at hstep
    split at hstep
    · rename_i g _
      by_cases hgen : s.generation = g
      · subst hgen
        rw [if_neg (fun hne => hne rfl)] at hstep
        cases hstep
        exact h.proceed _
      · rw [if_pos hgen] at hstep
        cases hstep
        exact { h with }
    · cases hstep
  | close i =>
    simp only [Slot.step] at hstep
    split at hstep
    · rename_i c hc
      cases hstep
      exact h.close hc
    · cases hstep

end Slot

end Telepresence.RootDaemonSlot
