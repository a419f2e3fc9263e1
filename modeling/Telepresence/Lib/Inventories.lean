import Telepresence.Lib.Maps

/-!
# Objects that come and go

The objects of a kind that a client is told about by events, as an informer of
Kubernetes does: an object is added, replaced or deleted, and the handler of the
event gets the object as it was, as it is, or both.  `held` is what any of the
objects has, and `heldByOthers` what any object with another key has.
-/

namespace Inventories

variable {κ β α : Type} [DecidableEq κ] {keyOf : β → κ}

/-- The events about the objects. -/
inductive Event (κ β : Type) where
  | added (obj : β)
  | updated (obj : β)
  | deleted (key : κ)

/-- The object before the event and after it, and the objects after it.  There
is no such event if the object is there already, or is not there. -/
def change (keyOf : β → κ) (objs : GoMap κ β) :
    Event κ β → Option ((Option β × Option β) × GoMap κ β)
  | .added obj =>
      match objs.lookup (keyOf obj) with
      | none => some ((none, some obj), objs.insert (keyOf obj) obj)
      | some _ => none
  | .updated obj =>
      (objs.lookup (keyOf obj)).map fun old => ((some old, some obj), objs.insert (keyOf obj) obj)
  | .deleted key => (objs.lookup key).map fun old => ((some old, none), objs.erase key)

/-- The key that an event is about. -/
def Event.key (keyOf : β → κ) : Event κ β → κ
  | .added obj => keyOf obj
  | .updated obj => keyOf obj
  | .deleted key => key

/-- Some object has it. -/
def held (parts : β → List α) (objs : GoMap κ β) (a : α) : Prop :=
  ∃ key obj, objs.lookup key = some obj ∧ a ∈ parts obj

/-- Some object with another key has it. -/
def heldByOthers (parts : β → List α) (objs : GoMap κ β) (key : κ) (a : α) : Prop :=
  ∃ key' obj, key' ≠ key ∧ objs.lookup key' = some obj ∧ a ∈ parts obj

/-- What an object has, if there is one. -/
def partsOf (parts : β → List α) (obj : Option β) : List α := (obj.map parts).getD []

theorem held_iff (parts : β → List α) (objs : GoMap κ β) (key : κ) (a : α) :
    held parts objs a ↔ heldByOthers parts objs key a ∨ a ∈ partsOf parts (objs.lookup key) := by
  constructor
  · intro ⟨key', obj, hobj, ha⟩
    by_cases hkey : key' = key
    · subst hkey
      exact .inr (by rw [hobj]; exact ha)
    · exact .inl ⟨key', obj, hkey, hobj, ha⟩
  · intro h
    rcases h with ⟨key', obj, _, hobj, ha⟩ | ha
    · exact ⟨key', obj, hobj, ha⟩
    · cases hobj : objs.lookup key with
      | none => simp [partsOf, hobj] at ha
      | some obj =>
        rw [hobj] at ha
        exact ⟨key, obj, hobj, ha⟩

/-- **What an event changes.**  The object with its key, and no other one. -/
theorem change_spec {objs objs' : GoMap κ β} {e : Event κ β} {old new : Option β}
    (h : change keyOf objs e = some ((old, new), objs')) :
    objs.lookup (e.key keyOf) = old ∧ objs'.lookup (e.key keyOf) = new ∧
      ∀ key, key ≠ e.key keyOf → objs'.lookup key = objs.lookup key := by
  cases e with
  | added obj =>
    simp only [change] at h
    split at h
    · rename_i hnone
      cases h
      exact ⟨hnone, AList.lookup_insert .., fun _ hne => AList.lookup_insert_ne hne⟩
    · cases h
  | updated obj =>
    obtain ⟨old', hold, heq⟩ := Option.map_eq_some_iff.mp h
    cases heq
    exact ⟨hold, AList.lookup_insert .., fun _ hne => AList.lookup_insert_ne hne⟩
  | deleted key =>
    obtain ⟨old', hold, heq⟩ := Option.map_eq_some_iff.mp h
    cases heq
    exact ⟨hold, AList.lookup_erase .., fun _ hne => AList.lookup_erase_ne hne⟩

/-- The new object has the key of the event. -/
theorem keyOf_of_change {objs objs' : GoMap κ β} {e : Event κ β} {old : Option β} {obj : β}
    (h : change keyOf objs e = some ((old, some obj), objs')) : keyOf obj = e.key keyOf := by
  cases e with
  | added obj' | updated obj' | deleted key => grind [change, Event.key, Option.map_eq_some_iff]

/-- What the others have is not changed. -/
theorem heldByOthers_change {parts : β → List α} {objs objs' : GoMap κ β} {e : Event κ β}
    {old new : Option β} (h : change keyOf objs e = some ((old, new), objs')) (a : α) :
    heldByOthers parts objs' (e.key keyOf) a ↔ heldByOthers parts objs (e.key keyOf) a := by
  obtain ⟨_, _, hothers⟩ := change_spec h
  simp only [heldByOthers]
  constructor
  · intro ⟨key, obj, hkey, hobj, ha⟩
    exact ⟨key, obj, hkey, (hothers key hkey).symm.trans hobj, ha⟩
  · intro ⟨key, obj, hkey, hobj, ha⟩
    exact ⟨key, obj, hkey, (hothers key hkey).trans hobj, ha⟩

end Inventories
