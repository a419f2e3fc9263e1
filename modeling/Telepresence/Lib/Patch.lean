import Mathlib.Tactic.Basic

/-!
# Patches of partial functions

A patch says, for each key, that the key keeps its value, loses it or gets a
new one.  It is what a delta between two maps means, whatever the maps are.

Values are compared by a relation `r`.  A patch *leads to* a function if all
it says agrees with that function, and *covers* the way from `f` to `t` if `f`
and `t` agree wherever the patch says nothing.  A patch that does both turns
`f` into `t`, and patches that lead to `t` do no harm to one another, in
whatever order they are applied.
-/

/-- For each key: nothing, the loss of the value, or a new value. -/
def Patch (K V : Type*) := K → Option (Option V)

namespace Patch

variable {K V : Type*} {r : V → V → Prop}

/-- Apply the patch. -/
def act (p : Patch K V) (f : K → Option V) : K → Option V := fun k => (p k).getD (f k)

/-- First `p`, then `q`. -/
def andThen (p q : Patch K V) : Patch K V := fun k => (q k).or (p k)

theorem act_andThen (p q : Patch K V) (f : K → Option V) :
    act (p.andThen q) f = act q (act p f) := by
  funext k
  simp only [act, andThen]
  cases q k <;> rfl

/-- The functions agree up to `r`. -/
def Same (r : V → V → Prop) (f g : K → Option V) : Prop := ∀ k, Option.Rel r (f k) (g k)

/-- All that the patch says agrees with `t`. -/
def LeadsTo (r : V → V → Prop) (p : Patch K V) (t : K → Option V) : Prop :=
  ∀ k o, p k = some o → Option.Rel r o (t k)

/-- Where the patch says nothing, `f` and `t` agree. -/
def Covers (r : V → V → Prop) (p : Patch K V) (f t : K → Option V) : Prop :=
  ∀ k, p k = none → Option.Rel r (f k) (t k)

section

variable (hr : Equivalence r)

include hr

theorem rel_refl (o : Option V) : Option.Rel r o o := by
  cases o with
  | none => exact .none
  | some v => exact .some (hr.refl v)

theorem rel_symm {o o' : Option V} (h : Option.Rel r o o') : Option.Rel r o' o := by
  cases h with
  | none => exact .none
  | some h => exact .some (hr.symm h)

theorem rel_trans {o o' o'' : Option V} (h : Option.Rel r o o')
    (h' : Option.Rel r o' o'') : Option.Rel r o o'' := by
  cases h with
  | none => exact h'
  | some h =>
    cases h' with
    | some h' => exact .some (hr.trans h h')

theorem Same.refl (f : K → Option V) : Same r f f :=
  fun k => rel_refl hr (f k)

variable {f : K → Option V}

theorem Same.trans {g h : K → Option V} (hfg : Same r f g) (hgh : Same r g h) : Same r f h :=
  fun k => rel_trans hr (hfg k) (hgh k)

variable {p : Patch K V} {t : K → Option V}

theorem LeadsTo.congr {t' : K → Option V} (h : LeadsTo r p t)
    (htt : Same r t t') : LeadsTo r p t' :=
  fun k o ho => rel_trans hr (h k o ho) (htt k)

theorem Covers.congr_left {f' : K → Option V} (h : Covers r p f' t)
    (hff : Same r f f') : Covers r p f t :=
  fun k hk => rel_trans hr (hff k) (h k hk)

end

theorem Same.covers (h : Same r f t) : Covers r p f t :=
  fun k _ => h k

/-- A patch that covers the way to `t` and leads there arrives. -/
theorem act_same (hlead : LeadsTo r p t) (hcov : Covers r p f t) : Same r (act p f) t := by
  intro k
  unfold act
  cases hp : p k with
  | none => exact hcov k hp
  | some o => exact hlead k o hp

/-- A patch that leads to `t` does not disturb another that covers the way. -/
theorem act_covers {q : Patch K V} (hlead : LeadsTo r q t) (hcov : Covers r p f t) :
    Covers r p (act q f) t := by
  intro k hk
  unfold act
  cases hq : q k with
  | none => exact hcov k hk
  | some o => exact hlead k o hq

end Patch
