import Mathlib.Order.Basic
import Mathlib.Tactic.ByContra
import Mathlib.Tactic.MkIffOfInductiveProp

/-!
# Longest match

Two lists of patterns compete for an object, and the longest pattern that
contains the object decides.  A tie goes to the second list.

* `Selects.mono`: the decision depends only on the greatest lengths that the
  two lists reach at the object.
* `flat_iff_separated`: when a scan that ignores the lengths decides alike.
-/

namespace LongestMatch

variable {ρ α ℓ : Type*} [Preorder ℓ] (contains : ρ → α → Bool) (len : ρ → ℓ)

/-- The longest pattern that contains `a` is one of `yes`. -/
def Selects (yes no : List ρ) (a : α) : Prop :=
  ∃ p ∈ yes, contains p a ∧ ∀ q ∈ no, contains q a → len q < len p

instance [DecidableLT ℓ] (yes no : List ρ) (a : α) : Decidable (Selects contains len yes no a) :=
  inferInstanceAs (Decidable (∃ p ∈ yes, contains p a ∧ ∀ q ∈ no, contains q a → len q < len p))

variable {contains len} {yes yes' no no' : List ρ} {a : α}

/-- **Monotonicity.**  The first list still wins when its patterns are
replaced by others at least as long, and those of the second list by others
that are no longer. -/
theorem Selects.mono (h : Selects contains len yes no a)
    (hyes : ∀ p ∈ yes, contains p a → ∃ p' ∈ yes', contains p' a ∧ len p ≤ len p')
    (hno : ∀ q ∈ no', contains q a → ∃ q' ∈ no, contains q' a ∧ len q ≤ len q') :
    Selects contains len yes' no' a := by
  obtain ⟨p, hp, hpa, hlonger⟩ := h
  obtain ⟨p', hp', hpa', hle⟩ := hyes p hp hpa
  refine ⟨p', hp', hpa', ?_⟩
  intro q hq hqa
  obtain ⟨q', hq', hqa', hqle⟩ := hno q hq hqa
  exact lt_of_lt_of_le (lt_of_le_of_lt hqle (hlonger q' hq' hqa')) hle

/-- Patterns `main` and `extra` of one side against patterns `no` of the other:
what `extra` contains is contained in a pattern of another list, and inside of
the other side's patterns none of this side's is longer than all of them. -/
@[mk_iff]
structure Separated (contains : ρ → α → Bool) (len : ρ → ℓ) (main extra no : List ρ) :
    Prop where
  extra_inside : ∀ a, ∀ o ∈ extra, contains o a →
    (∃ q ∈ no, contains q a) ∨ ∃ p ∈ main, contains p a
  not_longer : ∀ a, (∃ q ∈ no, contains q a) → ∀ p ∈ main ++ extra, contains p a →
    ∃ q ∈ no, contains q a ∧ ¬ len q < len p

/-- **Flat scans.**  To ask whether some pattern of `main` and no pattern of the
other side contains the object is longest match, with `extra` on the first
side, exactly for separated lists. -/
theorem flat_iff_separated {main extra no : List ρ} :
    (∀ a, ((∃ p ∈ main, contains p a) ∧ ¬ ∃ q ∈ no, contains q a) ↔
        Selects contains len (main ++ extra) no a) ↔
      Separated contains len main extra no := by
  constructor
  · intro h
    refine ⟨?_, ?_⟩
    · intro a o ho hoa
      by_cases hno : ∃ q ∈ no, contains q a
      · exact Or.inl hno
      · have hsel : Selects contains len (main ++ extra) no a :=
          ⟨o, List.mem_append_right _ ho, hoa, fun q hq hqa => absurd ⟨q, hq, hqa⟩ hno⟩
        exact Or.inr ((h a).mpr hsel).1
    · intro a hno p hp hpa
      by_contra hnone
      have hsel : Selects contains len (main ++ extra) no a := by
        refine ⟨p, hp, hpa, ?_⟩
        intro q hq hqa
        by_contra hlt
        exact hnone ⟨q, hq, hqa, hlt⟩
      exact ((h a).mpr hsel).2 hno
  · intro h a
    constructor
    · intro hflat
      obtain ⟨⟨p, hp, hpa⟩, hno⟩ := hflat
      exact ⟨p, List.mem_append_left _ hp, hpa, fun q hq hqa => absurd ⟨q, hq, hqa⟩ hno⟩
    · intro hsel
      obtain ⟨p, hp, hpa, hlonger⟩ := hsel
      have hno : ¬ ∃ q ∈ no, contains q a := by
        intro hno
        obtain ⟨q, hq, hqa, hnot⟩ := h.not_longer a hno p hp hpa
        exact hnot (hlonger q hq hqa)
      refine ⟨?_, hno⟩
      cases List.mem_append.mp hp with
      | inl hmain => exact ⟨p, hmain, hpa⟩
      | inr hextra => exact (h.extra_inside a p hextra hpa).resolve_left hno

theorem separated_nil (main : List ρ) : Separated contains len main [] [] := by
  simp [separated_iff]

/-- Only the members of the first list matter, and of the others which objects
they contain and how long they are. -/
theorem separated_map_iff {main main' extra no : List ρ} {f : ρ → ρ}
    (hcontains : ∀ p a, contains (f p) a = contains p a) (hlen : ∀ p, len (f p) = len p)
    (hmain : ∀ p, p ∈ main ↔ p ∈ main') :
    Separated contains len main (extra.map f) (no.map f) ↔
      Separated contains len main' extra no := by
  have hno : ∀ P : ρ → Prop, (∃ q ∈ no.map f, P q) ↔ ∃ q ∈ no, P (f q) := by simp
  have hextra : ∀ P : ρ → Prop, (∀ q ∈ extra.map f, P q) ↔ ∀ q ∈ extra, P (f q) := by simp
  simp only [separated_iff, List.forall_mem_append, hno, hextra, hcontains, hlen, hmain]

end LongestMatch
