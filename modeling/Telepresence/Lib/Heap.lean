import Mathlib.Data.List.Forall2

/-!
# Arrays of references

Slices of pointers as arrays of references into a heap.  What an array shows
is what its references stand for; writing a reference to a slot changes none
of it if the new reference stands for the same as the old one, whichever
arrays share it.
-/

namespace Heap

variable {α β : Type}

/-- What the references of an array stand for. -/
def contents (view : Nat → Option β) (arrays : List (List Nat)) (a : Nat) : Option (List β) :=
  (arrays[a]?).bind fun refs => refs.mapM view

/-- Write a reference to a slot of an array. -/
def store (arrays : List (List Nat)) (a slot ref : Nat) : List (List Nat) :=
  arrays.modify a fun refs => refs.set slot ref

variable {view : Nat → Option β} {vs : List β}

theorem mapM_eq_some_iff {refs : List Nat} :
    refs.mapM view = some vs ↔ List.Forall₂ (fun r v => view r = some v) refs vs := by
  induction refs generalizing vs with
  | nil =>
    constructor
    · intro h
      cases h
      exact .nil
    · intro h
      cases h
      rfl
  | cons r refs ih =>
    rw [List.mapM_cons]
    constructor
    · intro h
      obtain ⟨v, hv, h⟩ := Option.bind_eq_some_iff.mp h
      obtain ⟨rest, hrest, h⟩ := Option.bind_eq_some_iff.mp h
      cases h
      exact .cons hv (ih.mp hrest)
    · intro h
      cases h with
      | cons hv hrest =>
        rw [hv, ih.mpr hrest]
        rfl

variable {arrays : List (List Nat)} {a : Nat}

theorem contents_eq_some_iff :
    contents view arrays a = some vs ↔
      ∃ refs, arrays[a]? = some refs ∧ List.Forall₂ (fun r v => view r = some v) refs vs := by
  rw [contents, Option.bind_eq_some_iff]
  constructor
  · intro h
    obtain ⟨refs, hrefs, h⟩ := h
    exact ⟨refs, hrefs, mapM_eq_some_iff.mp h⟩
  · intro h
    obtain ⟨refs, hrefs, h⟩ := h
    exact ⟨refs, hrefs, mapM_eq_some_iff.mpr h⟩

/-- A slot that shows a value has a reference that stands for it. -/
theorem forall₂_getElem? {R : α → β → Prop} {as : List α} {bs : List β}
    (h : List.Forall₂ R as bs) {i : Nat} {b : β} (hb : bs[i]? = some b) :
    ∃ a, as[i]? = some a ∧ R a b := by
  induction h generalizing i with
  | nil => cases hb
  | cons hab _ ih =>
    cases i with
    | zero =>
      cases hb
      exact ⟨_, rfl, hab⟩
    | succ i => exact ih hb

theorem forall₂_set {R : α → β → Prop} {as : List α} {bs : List β} (h : List.Forall₂ R as bs)
    {i : Nat} {a : α} (ha : ∀ b, bs[i]? = some b → R a b) : List.Forall₂ R (as.set i a) bs := by
  induction h generalizing i with
  | nil => exact .nil
  | cons hab htail ih =>
    cases i with
    | zero => exact .cons (ha _ rfl) htail
    | succ i => exact .cons hab (ih ha)

/-- More objects show nothing less. -/
theorem contents_mono {view' : Nat → Option β} (hview : ∀ r v, view r = some v → view' r = some v)
    (h : contents view arrays a = some vs) : contents view' arrays a = some vs := by
  obtain ⟨refs, hrefs, hall⟩ := contents_eq_some_iff.mp h
  refine contents_eq_some_iff.mpr ⟨refs, hrefs, hall.imp ?_⟩
  intro r v hv
  exact hview r v hv

/-- **Sharing.**  A slot that gets a reference to an equal object shows what
it did before, in every array. -/
theorem contents_store {slot ref : Nat}
    (hslot : ∀ refs old v, arrays[a]? = some refs → refs[slot]? = some old →
      view old = some v → view ref = some v) {a' : Nat} (h : contents view arrays a' = some vs) :
    contents view (store arrays a slot ref) a' = some vs := by
  obtain ⟨refs, hrefs, hall⟩ := contents_eq_some_iff.mp h
  by_cases heq : a = a'
  · subst heq
    have hstored : (store arrays a slot ref)[a]? = some (refs.set slot ref) := by
      rw [store, List.getElem?_modify_eq, hrefs]
      rfl
    refine contents_eq_some_iff.mpr ⟨_, hstored, forall₂_set hall ?_⟩
    intro v hv
    obtain ⟨old, hold, hview⟩ := forall₂_getElem? hall hv
    exact hslot refs old v hrefs hold hview
  · have hstored : (store arrays a slot ref)[a']? = some refs := by
      rw [store, List.getElem?_modify_ne _ _ heq, hrefs]
    exact contents_eq_some_iff.mpr ⟨refs, hstored, hall⟩

end Heap
