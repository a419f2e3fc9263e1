import Mathlib.Logic.Function.Basic

/-!
# Tables of rules

Chains of rules and the commands that change them, as a packet filter has
them.  A script of commands stops at the first one that is refused.

`mem_applyAll_iff`: from the last command that clears a chain on, the rules of
the chain are those that are appended, if nothing else is done to it.
-/

namespace RuleTables

variable {C R : Type} [DecidableEq C] [DecidableEq R]

/-- The rules of each chain; a chain that does not exist has none. -/
abbrev Tables (C R : Type) := C → List R

/-- A command for the chains `C` with rules `R`. -/
inductive Command (C R : Type) where
  /-- Create the chain, or empty it. -/
  | clearChain (chain : C)
  /-- Append a rule that is not there. -/
  | appendUnique (chain : C) (rule : R)
  /-- Insert a rule; the first position is 1. -/
  | insert (chain : C) (pos : Nat) (rule : R)
  deriving DecidableEq

open Command

/-- The chain that a command changes. -/
def Command.chain : Command C R → C
  | .clearChain chain => chain
  | .appendUnique chain _ => chain
  | .insert chain _ _ => chain

/-- The rules of the command's chain after it. -/
def Command.rules (rules : List R) : Command C R → List R
  | .clearChain _ => []
  | .appendUnique _ rule => if rule ∈ rules then rules else rules ++ [rule]
  | .insert _ pos rule => rules.insertIdx (pos - 1) rule

/-- A command is executed. -/
def Command.apply (t : Tables C R) (cmd : Command C R) : Tables C R :=
  Function.update t cmd.chain (cmd.rules (t cmd.chain))

/-- Commands are executed one after the other. -/
def applyAll (t : Tables C R) (cmds : List (Command C R)) : Tables C R :=
  cmds.foldl apply t

/-- Execute commands, each with the text that an error of it is reported with.
Which commands are refused is left open. -/
def run (refuses : Tables C R → Command C R → Option String) :
    Tables C R → List (String × Command C R) → Except String (Tables C R)
  | t, [] => .ok t
  | t, (context, cmd) :: cmds =>
      match refuses t cmd with
      | some e => .error (context ++ ": " ++ e)
      | none => run refuses (cmd.apply t) cmds

theorem eq_applyAll_of_run {refuses : Tables C R → Command C R → Option String}
    {t t' : Tables C R} {cmds : List (String × Command C R)} (h : run refuses t cmds = .ok t') :
    t' = applyAll t (cmds.map Prod.snd) := by
  induction cmds generalizing t with
  | nil => exact (Except.ok.inj h).symm
  | cons x cmds ih =>
    obtain ⟨context, cmd⟩ := x
    simp only [run] at h
    split at h
    · cases h
    · exact ih h

/-- Where nothing is refused, all commands are executed. -/
theorem run_eq_ok {refuses : Tables C R → Command C R → Option String}
    (haccept : ∀ t cmd, refuses t cmd = none) (t : Tables C R)
    (cmds : List (String × Command C R)) :
    run refuses t cmds = .ok (applyAll t (cmds.map Prod.snd)) := by
  induction cmds generalizing t with
  | nil => rfl
  | cons x cmds ih =>
    obtain ⟨context, cmd⟩ := x
    simp only [run, haccept]
    exact ih (cmd.apply t)

theorem apply_of_ne {t : Tables C R} {cmd : Command C R} {chain : C} (h : cmd.chain ≠ chain) :
    cmd.apply t chain = t chain := by
  rw [apply, Function.update_of_ne (Ne.symm h)]

theorem apply_clearChain (t : Tables C R) (chain : C) :
    apply t (.clearChain chain) chain = [] := Function.update_self ..

theorem mem_apply_appendUnique {t : Tables C R} {chain : C} {new rule : R} :
    rule ∈ apply t (.appendUnique chain new) chain ↔ rule ∈ t chain ∨ rule = new := by
  have heq : apply t (.appendUnique chain new) chain =
      if new ∈ t chain then t chain else t chain ++ [new] := Function.update_self ..
  rw [heq]
  split
  · rename_i hin
    refine ⟨.inl, ?_⟩
    rintro (hr | rfl)
    · exact hr
    · exact hin
  · rw [List.mem_append, List.mem_singleton]

/-- Commands that only append to a chain. -/
theorem mem_applyAll_iff {cmds : List (Command C R)} {chain : C}
    (h : ∀ cmd ∈ cmds, cmd.chain = chain → ∃ rule, cmd = .appendUnique chain rule)
    (t : Tables C R) (rule : R) :
    rule ∈ applyAll t cmds chain ↔ rule ∈ t chain ∨ .appendUnique chain rule ∈ cmds := by
  induction cmds generalizing t with
  | nil => simp [applyAll]
  | cons cmd cmds ih =>
    obtain ⟨hcmd, hcmds⟩ := List.forall_mem_cons.mp h
    have hrec : applyAll t (cmd :: cmds) chain = applyAll (cmd.apply t) cmds chain := rfl
    rw [hrec, ih hcmds, List.mem_cons]
    by_cases hchain : cmd.chain = chain
    · obtain ⟨new, rfl⟩ := hcmd hchain
      rw [mem_apply_appendUnique, appendUnique.injEq]
      simp only [true_and, or_assoc]
    · have hne : appendUnique chain rule ≠ cmd := by
        rintro rfl
        exact hchain rfl
      rw [apply_of_ne hchain]
      simp [hne]

/-- From the last clearing on. -/
theorem mem_applyAll_of_clear {before after : List (Command C R)} {chain : C}
    (h : ∀ cmd ∈ after, cmd.chain = chain → ∃ rule, cmd = .appendUnique chain rule)
    (t : Tables C R) (rule : R) :
    rule ∈ applyAll t (before ++ .clearChain chain :: after) chain ↔
      .appendUnique chain rule ∈ after := by
  have hsplit : applyAll t (before ++ .clearChain chain :: after) =
      applyAll (apply (applyAll t before) (.clearChain chain)) after := by
    simp [applyAll]
  rw [hsplit, mem_applyAll_iff h, apply_clearChain]
  simp

end RuleTables
