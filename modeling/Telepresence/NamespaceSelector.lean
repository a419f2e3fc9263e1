import Mathlib.Data.List.Sort
import Mathlib.Data.Prod.Lex
import Mathlib.Data.String.Basic
import Telepresence.Lib.Maps

/-!
# The namespace selector

`pkg/labels`: the selector of the managed namespaces, as it is written in a
manifest, is turned into one list of requirements, which is then converted to a
selector of `k8s.io/apimachinery/pkg/labels`.

That package has its own names of the operators, which the conversion gets by
lowering the case of the others.  A `Library` says what is assumed about it, and
`selector_faithful_iff` for which selectors the result means what the manifest
says.
-/

namespace Telepresence.Labels

open Results List

/-! ## Selectors as they are written -/

/-- `NameLabelKey`. -/
def nameLabelKey : String := "kubernetes.io/metadata.name"

/-- `OperatorIn`. -/
def operatorIn : String := "In"

/-- `OperatorNotIn`. -/
def operatorNotIn : String := "NotIn"

/-- `OperatorExists`. -/
def operatorExists : String := "Exists"

/-- `OperatorNotExists`. -/
def operatorNotExists : String := "DoesNotExist"

/-- `Operator.AsSelectionOperator`, for operators in ASCII. -/
def asSelectionOperator (op : String) : String := op.toLower

/-- `Requirement`. -/
structure Requirement where
  key : String
  operator : String
  values : List String
  deriving DecidableEq

/-- `Selector`. -/
structure Selector where
  matchLabels : GoMap String String := ∅
  matchExpressions : List Requirement := []

/-- What `rqCmp` compares, in this order. -/
def Requirement.sortKey (r : Requirement) : String ×ₗ String ×ₗ List String :=
  toLex (r.key, toLex (r.operator, r.values))

/-- `rqCmp(a, b) <= 0`. -/
def rqLe (a b : Requirement) : Prop := a.sortKey ≤ b.sortKey

instance : DecidableRel rqLe := fun a b => inferInstanceAs (Decidable (a.sortKey ≤ b.sortKey))

namespace Selector

variable (order : GoMap.Order String String) (sel : Selector)

/-- `GetAllRequirements`, for an order in which Go visits a map. -/
def getAllRequirements : List Requirement :=
  let labels := (order.visit sel.matchLabels).map fun e =>
    (⟨e.1, operatorIn, [e.2]⟩ : Requirement)
  (sel.matchExpressions ++ labels).insertionSort rqLe

/-- `Static`. -/
def static : Bool :=
  match sel.matchLabels.entries.length with
  | 0 =>
      match sel.matchExpressions with
      | [m] => m.key = nameLabelKey ∧ m.operator = operatorIn
      | _ => false
  | 1 => (sel.matchLabels.lookup nameLabelKey).isSome
  | _ => false

/-- `StaticNames`. -/
def staticNames : List String :=
  match sel.matchLabels.entries.length with
  | 0 =>
      match sel.matchExpressions with
      | [m] => if m.key = nameLabelKey ∧ m.operator = operatorIn then m.values else []
      | _ => []
  | 1 => (sel.matchLabels.lookup nameLabelKey).toList
  | _ => []

/-- The selector that `refreshFile` sends for one that it has read. -/
def emitted : Selector := { matchExpressions := sel.getAllRequirements order }

end Selector

/-! ## Selectors of the library -/

/-- The operators that `labels.NewRequirement` knows. -/
def operators : List String := ["=", "==", "in", "!=", "notin", "exists", "!", "gt", "lt"]

/-- What is used of `k8s.io/apimachinery/pkg/labels`, and what is assumed about
it: which operators it accepts, and what a requirement matches that was made
with one of them. -/
structure Library (ρ ε : Type) where
  /-- `NewRequirement`, for a key, an operator and values. -/
  newRequirement : String → String → List String → Except ε ρ
  /-- `Requirement.Matches`. -/
  matchesLabels : ρ → GoMap String String → Bool
  /-- Key and values have the form that labels must have. -/
  valid : String → List String → Prop
  operator_mem : ∀ key op vals rq, newRequirement key op vals = .ok rq → op ∈ operators
  in_accepted : ∀ key vals, valid key vals → vals ≠ [] → ∃ rq, newRequirement key "in" vals = .ok rq
  notin_accepted : ∀ key vals, valid key vals → vals ≠ [] →
    ∃ rq, newRequirement key "notin" vals = .ok rq
  exists_accepted : ∀ key, valid key [] → ∃ rq, newRequirement key "exists" [] = .ok rq
  in_matches : ∀ key vals rq ls, newRequirement key "in" vals = .ok rq →
    (matchesLabels rq ls = true ↔ ∃ v, ls.lookup key = some v ∧ v ∈ vals)
  notin_matches : ∀ key vals rq ls, newRequirement key "notin" vals = .ok rq →
    (matchesLabels rq ls = true ↔ ∀ v, ls.lookup key = some v → v ∉ vals)
  exists_matches : ∀ key rq ls, newRequirement key "exists" [] = .ok rq →
    (matchesLabels rq ls = true ↔ ls.lookup key ≠ none)

variable {ρ ε : Type} (lib : Library ρ ε)

/-- A selector of the library, which matches if all its requirements do. -/
def matchesAll (rqs : List ρ) (ls : GoMap String String) : Bool :=
  rqs.all fun rq => lib.matchesLabels rq ls

/-- What `NewLabelsSelector` does with one requirement. -/
def convert (r : Requirement) : Except ε ρ :=
  lib.newRequirement r.key (asSelectionOperator r.operator) r.values

/-- `NewLabelsSelector`. -/
def newLabelsSelector (es : List Requirement) : Except ε (List ρ) := es.mapM (convert lib)

/-- `LabelsSelector`. -/
def Selector.labelsSelector (order : GoMap.Order String String) (sel : Selector) :
    Except ε (List ρ) :=
  newLabelsSelector lib (sel.getAllRequirements order)

/-! ## What the selector of a manifest means -/

/-- The operators of a manifest, with values where they need some, for keys and
values that labels may have. -/
def Requirement.WellFormed (r : Requirement) : Prop :=
  ((r.operator = operatorIn ∨ r.operator = operatorNotIn) ∧ r.values ≠ [] ∨
    (r.operator = operatorExists ∨ r.operator = operatorNotExists) ∧ r.values = []) ∧
    lib.valid r.key r.values

/-- All expressions and labels are well formed. -/
def Selector.WellFormed (sel : Selector) : Prop :=
  (∀ r ∈ sel.matchExpressions, r.WellFormed lib) ∧
    ∀ key val, sel.matchLabels.lookup key = some val → lib.valid key [val]

/-- The meaning of an expression in Kubernetes. -/
def Requirement.Holds (r : Requirement) (ls : GoMap String String) : Prop :=
  (r.operator = operatorIn → ∃ v, ls.lookup r.key = some v ∧ v ∈ r.values) ∧
    (r.operator = operatorNotIn → ∀ v, ls.lookup r.key = some v → v ∉ r.values) ∧
    (r.operator = operatorExists → ls.lookup r.key ≠ none) ∧
    (r.operator = operatorNotExists → ls.lookup r.key = none)

/-- The meaning of a selector in Kubernetes: all labels and all expressions. -/
def Selector.Selects (sel : Selector) (ls : GoMap String String) : Prop :=
  (∀ key val, sel.matchLabels.lookup key = some val → ls.lookup key = some val) ∧
    ∀ r ∈ sel.matchExpressions, r.Holds ls

/-- The selector that is sent converts, and selects what the other one does; and
if it is static, its names are those that it selects by name. -/
structure Faithful (order order' : GoMap.Order String String) (sel : Selector) : Prop where
  converts : ∃ rqs, (sel.emitted order).labelsSelector lib order' = .ok rqs ∧
    ∀ ls, matchesAll lib rqs ls = true ↔ sel.Selects ls
  static : (sel.emitted order).static = true → ∀ name,
    name ∈ (sel.emitted order).staticNames ↔
      ∃ rqs, (sel.emitted order).labelsSelector lib order' = .ok rqs ∧
        matchesAll lib rqs ((∅ : GoMap String String).insert nameLabelKey name) = true

/-! ## The conversion -/

variable {order order' : GoMap.Order String String} {sel : Selector} {r : Requirement}

theorem mem_getAllRequirements : r ∈ sel.getAllRequirements order ↔ r ∈ sel.matchExpressions ∨
    ∃ key val, sel.matchLabels.lookup key = some val ∧ r = ⟨key, operatorIn, [val]⟩ := by
  rw [Selector.getAllRequirements, (perm_insertionSort _ _).mem_iff, mem_append,
    mem_map]
  refine or_congr_right ?_
  constructor
  · intro ⟨⟨key, val⟩, hmem, heq⟩
    exact ⟨key, val, order.mem_visit.mp hmem, heq.symm⟩
  · intro ⟨key, val, hlookup, heq⟩
    exact ⟨⟨key, val⟩, order.mem_visit.mpr hlookup, heq.symm⟩

instance : Std.Total rqLe where
  total a b := le_total a.sortKey b.sortKey

instance : IsTrans Requirement rqLe where
  trans _ _ _ hab hbc := le_trans hab hbc

instance : Std.Antisymm rqLe where
  antisymm a b hab hba := by
    have heq : a.sortKey = b.sortKey := le_antisymm hab hba
    cases a
    cases b
    cases heq
    rfl

/-- The order in which Go visits the map of labels makes no difference. -/
theorem getAllRequirements_congr (order order' : GoMap.Order String String) (sel : Selector) :
    sel.getAllRequirements order = sel.getAllRequirements order' := by
  have hvisit := (order.perm sel.matchLabels).trans (order'.perm sel.matchLabels).symm
  refine List.Perm.eq_of_pairwise' (pairwise_insertionSort rqLe _)
    (pairwise_insertionSort rqLe _) ?_
  exact (perm_insertionSort rqLe _).trans
    (((hvisit.map _).append_left _).trans (perm_insertionSort rqLe _).symm)

/-- Converting what was sent has the same requirements again. -/
theorem mem_getAllRequirements_emitted :
    r ∈ (sel.emitted order).getAllRequirements order' ↔ r ∈ sel.getAllRequirements order := by
  rw [mem_getAllRequirements]
  constructor
  · intro h
    rcases h with h | ⟨key, val, hlookup, _⟩
    · exact h
    · have hempty : (sel.emitted order).matchLabels = ∅ := rfl
      rw [hempty, AList.lookup_empty] at hlookup
      cases hlookup
  · exact .inl

theorem holds_in {key : String} {values : List String} {ls : GoMap String String} :
    (⟨key, operatorIn, values⟩ : Requirement).Holds ls ↔
      ∃ v, ls.lookup key = some v ∧ v ∈ values := by
  simp [Requirement.Holds, operatorIn, operatorNotIn, operatorExists, operatorNotExists]

theorem holds_notIn {key : String} {values : List String} {ls : GoMap String String} :
    (⟨key, operatorNotIn, values⟩ : Requirement).Holds ls ↔
      ∀ v, ls.lookup key = some v → v ∉ values := by
  simp [Requirement.Holds, operatorIn, operatorNotIn, operatorExists, operatorNotExists]

theorem holds_exists {key : String} {values : List String} {ls : GoMap String String} :
    (⟨key, operatorExists, values⟩ : Requirement).Holds ls ↔ ls.lookup key ≠ none := by
  simp [Requirement.Holds, operatorIn, operatorNotIn, operatorExists, operatorNotExists]

variable {lib}

/-- A requirement of another operator than `DoesNotExist` is converted, and keeps
its meaning. -/
theorem convert_spec (hwf : r.WellFormed lib) (hop : r.operator ≠ operatorNotExists) :
    ∃ rq, convert lib r = .ok rq ∧ ∀ ls, lib.matchesLabels rq ls = true ↔ r.Holds ls := by
  obtain ⟨key, op, values⟩ := r
  obtain ⟨⟨hop' | hop', hvalues⟩ | ⟨hop' | hop', hvalues⟩, hvalid⟩ := hwf
  · cases hop'
    have hlower : asSelectionOperator operatorIn = "in" := by decide +kernel
    obtain ⟨rq, hrq⟩ := lib.in_accepted key values hvalid hvalues
    refine ⟨rq, ?_, fun ls => (lib.in_matches key values rq ls hrq).trans holds_in.symm⟩
    show lib.newRequirement key (asSelectionOperator operatorIn) values = .ok rq
    rw [hlower, hrq]
  · cases hop'
    have hlower : asSelectionOperator operatorNotIn = "notin" := by decide +kernel
    obtain ⟨rq, hrq⟩ := lib.notin_accepted key values hvalid hvalues
    refine ⟨rq, ?_, fun ls => (lib.notin_matches key values rq ls hrq).trans holds_notIn.symm⟩
    show lib.newRequirement key (asSelectionOperator operatorNotIn) values = .ok rq
    rw [hlower, hrq]
  · cases hop'
    cases hvalues
    have hlower : asSelectionOperator operatorExists = "exists" := by decide +kernel
    obtain ⟨rq, hrq⟩ := lib.exists_accepted key hvalid
    refine ⟨rq, ?_, fun ls => (lib.exists_matches key rq ls hrq).trans holds_exists.symm⟩
    show lib.newRequirement key (asSelectionOperator operatorExists) [] = .ok rq
    rw [hlower, hrq]
  · exact absurd hop' hop

/-- `DoesNotExist` has another name in the library, and is refused. -/
theorem convert_notExists (lib : Library ρ ε) (hop : r.operator = operatorNotExists) (rq : ρ) :
    convert lib r ≠ .ok rq := by
  intro h
  have hlower : asSelectionOperator operatorNotExists = "doesnotexist" := by decide +kernel
  rw [convert, hop, hlower] at h
  exact absurd (lib.operator_mem _ _ _ _ h) (by decide)

/-- A label to be matched means that its value is the only one allowed. -/
theorem holds_of_label {key val : String} {ls : GoMap String String} :
    (⟨key, operatorIn, [val]⟩ : Requirement).Holds ls ↔ ls.lookup key = some val := by
  simp [holds_in]

/-- The requirements together mean what the selector does. -/
theorem selects_iff (order : GoMap.Order String String) {ls : GoMap String String} :
    sel.Selects ls ↔ ∀ r ∈ sel.getAllRequirements order, r.Holds ls := by
  simp only [mem_getAllRequirements]
  constructor
  · intro ⟨hlabels, hexprs⟩ r hr
    rcases hr with hr | ⟨key, val, hlookup, rfl⟩
    · exact hexprs r hr
    · exact holds_of_label.mpr (hlabels key val hlookup)
  · intro h
    refine ⟨?_, fun r hr => h r (.inl hr)⟩
    intro key val hlookup
    exact holds_of_label.mp (h _ (.inr ⟨key, val, hlookup, rfl⟩))

/-- All requirements are converted, and match together if all of them hold. -/
theorem newLabelsSelector_spec {es : List Requirement} (hwf : ∀ r ∈ es, r.WellFormed lib)
    (hop : ∀ r ∈ es, r.operator ≠ operatorNotExists) :
    ∃ rqs, newLabelsSelector lib es = .ok rqs ∧
      ∀ ls, matchesAll lib rqs ls = true ↔ ∀ r ∈ es, r.Holds ls := by
  obtain ⟨rqs, hrqs⟩ := exists_forall₂_iff.mpr fun r hr => by
    obtain ⟨rq, hrq, _⟩ := convert_spec (hwf r hr) (hop r hr)
    exact ⟨rq, hrq⟩
  refine ⟨rqs, mapM_eq_ok.mpr hrqs, ?_⟩
  intro ls
  rw [matchesAll, all_eq_true]
  constructor
  · intro hall r hr
    obtain ⟨rq, hrq, hmeaning⟩ := convert_spec (hwf r hr) (hop r hr)
    exact (hmeaning ls).mp (hall rq ((mem_iff_of_forall₂ hrqs _).mpr ⟨r, hr, hrq⟩))
  · intro hall rq hrq
    obtain ⟨r, hr, hconvert⟩ := (mem_iff_of_forall₂ hrqs _).mp hrq
    obtain ⟨rq', hrq', hmeaning⟩ := convert_spec (hwf r hr) (hop r hr)
    rw [hconvert] at hrq'
    cases hrq'
    exact (hmeaning ls).mpr (hall r hr)

/-- A static selector that was sent has one requirement, on the name. -/
theorem static_emitted (h : (sel.emitted order).static = true) :
    ∃ values, sel.getAllRequirements order = [⟨nameLabelKey, operatorIn, values⟩] ∧
      (sel.emitted order).staticNames = values := by
  -- what was sent has no labels to match
  have hstatic : (sel.emitted order).static = match sel.getAllRequirements order with
      | [m] => decide (m.key = nameLabelKey ∧ m.operator = operatorIn)
      | _ => false := rfl
  have hnames : (sel.emitted order).staticNames = match sel.getAllRequirements order with
      | [m] => if m.key = nameLabelKey ∧ m.operator = operatorIn then m.values else []
      | _ => [] := rfl
  rw [hstatic] at h
  rw [hnames]
  split at h
  · rename_i m hm
    obtain ⟨hkey, hop⟩ := of_decide_eq_true h
    refine ⟨m.values, ?_, if_pos ⟨hkey, hop⟩⟩
    rw [hm, ← hkey, ← hop]
  · cases h

/-- **The namespace selector means what Kubernetes says** exactly if it does not
use `DoesNotExist`. -/
theorem selector_faithful_iff (lib : Library ρ ε) (order order' : GoMap.Order String String)
    (sel : Selector) (hwf : sel.WellFormed lib) :
    Faithful lib order order' sel ↔
      ∀ r ∈ sel.matchExpressions, r.operator ≠ operatorNotExists := by
  constructor
  · intro ⟨⟨rqs, hrqs, _⟩, _⟩ r hr hop
    have hmem : r ∈ (sel.emitted order).getAllRequirements order' :=
      mem_getAllRequirements_emitted.mpr (mem_getAllRequirements.mpr (.inl hr))
    obtain ⟨rq, hrq⟩ := exists_forall₂_iff.mp ⟨rqs, mapM_eq_ok.mp hrqs⟩ r hmem
    exact convert_notExists lib hop rq hrq
  · intro hop
    have hall : ∀ r ∈ (sel.emitted order).getAllRequirements order',
        r.WellFormed lib ∧ r.operator ≠ operatorNotExists := by
      intro r hr
      rcases mem_getAllRequirements.mp (mem_getAllRequirements_emitted.mp hr) with
        hr | ⟨key, val, hlookup, rfl⟩
      · exact ⟨hwf.1 r hr, hop r hr⟩
      · exact ⟨⟨.inl ⟨.inl rfl, cons_ne_nil _ _⟩, hwf.2 key val hlookup⟩,
          by simp [operatorIn, operatorNotExists]⟩
    obtain ⟨rqs, hrqs, hmeaning⟩ :=
      newLabelsSelector_spec (fun r hr => (hall r hr).1) (fun r hr => (hall r hr).2)
    have hrqs : (sel.emitted order).labelsSelector lib order' = .ok rqs := hrqs
    have hselects : ∀ ls, matchesAll lib rqs ls = true ↔ sel.Selects ls := by
      intro ls
      simp only [hmeaning, mem_getAllRequirements_emitted]
      exact (selects_iff order).symm
    refine ⟨⟨rqs, hrqs, hselects⟩, ?_⟩
    intro hstatic name
    obtain ⟨values, hone, hnames⟩ := static_emitted hstatic
    -- the only requirement is on the name, which is the only label
    have hname : matchesAll lib rqs ((∅ : GoMap String String).insert nameLabelKey name) = true ↔
        name ∈ values := by
      rw [hselects, selects_iff order, hone, forall_mem_singleton, holds_in,
        AList.lookup_insert]
      simp
    rw [hnames, ← hname]
    constructor
    · intro h
      exact ⟨rqs, hrqs, h⟩
    · intro ⟨rqs', hrqs', h⟩
      rw [hrqs] at hrqs'
      cases hrqs'
      exact h

/-! ## Two selectors -/

/-- A library as it is documented, for the operators of a manifest. -/
def documented : Library (String × String × List String) String where
  newRequirement key op vals := if op ∈ operators then .ok (key, op, vals) else .error op
  matchesLabels rq ls :=
    if rq.2.1 = "in" then (ls.lookup rq.1).any (· ∈ rq.2.2)
    else if rq.2.1 = "notin" then (ls.lookup rq.1).all (· ∉ rq.2.2)
    else (ls.lookup rq.1).isSome
  valid _ _ := True
  operator_mem := by
    intro key op vals rq h
    by_contra hop
    rw [if_neg hop] at h
    cases h
  in_accepted _ _ _ _ := ⟨_, rfl⟩
  notin_accepted _ _ _ _ := ⟨_, rfl⟩
  exists_accepted _ _ := ⟨_, rfl⟩
  in_matches := by
    intro key vals rq ls h
    cases h
    simp [Option.any_eq_true]
  notin_matches := by
    intro key vals rq ls h
    cases h
    simp [Option.all_eq_true]
  exists_matches := by
    intro key rq ls h
    cases h
    simp [Option.isSome_iff_ne_none]

/-- Namespaces of two names, without a label and with another one. -/
def twoNames : Selector where
  matchLabels := (∅ : GoMap String String).insert "team" "a"
  matchExpressions := [⟨nameLabelKey, "In", ["dev", "test"]⟩, ⟨"old", "NotIn", ["yes"]⟩,
    ⟨"owner", "Exists", []⟩]

theorem faithful_two_names : Faithful documented .entries .entries twoNames := by
  have hwf : twoNames.WellFormed documented := by
    refine ⟨?_, fun _ _ _ => trivial⟩
    simp [twoNames, Requirement.WellFormed, documented, operatorIn, operatorNotIn, operatorExists,
      operatorNotExists]
  refine (selector_faithful_iff documented .entries .entries twoNames hwf).mpr ?_
  simp [twoNames, operatorNotExists]

/-- A selector for the namespaces without some label is not converted. -/
theorem doesNotExist_refused :
    let sel : Selector := { matchExpressions := [⟨"system", "DoesNotExist", []⟩] }
    sel.WellFormed documented ∧ ¬ Faithful documented .entries .entries sel := by
  intro sel
  have hmem : (⟨"system", "DoesNotExist", []⟩ : Requirement) ∈
      (sel.emitted .entries).getAllRequirements .entries :=
    mem_getAllRequirements_emitted.mpr (mem_getAllRequirements.mpr (.inl (mem_singleton_self _)))
  constructor
  · refine ⟨?_, fun _ _ _ => trivial⟩
    simp [sel, Requirement.WellFormed, documented, operatorNotExists]
  · intro ⟨⟨rqs, hrqs, _⟩, _⟩
    obtain ⟨rq, hrq⟩ := exists_forall₂_iff.mp ⟨rqs, mapM_eq_ok.mp hrqs⟩ _ hmem
    exact convert_notExists documented rfl rq hrq

end Telepresence.Labels
