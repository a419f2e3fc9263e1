import Telepresence.Lib.Maps

/-!
# The configurations of the mutator

`configWatcher` of `cmd/traffic/cmd/manager/mutator/watcher.go` stores the
configuration of a workload by namespace, and then by name.  Each operation is
one `Compute` on the map of a namespace.  What is stored is a parameter: for
some questions it is the configuration, and for others the pointer to it.

* `Configs.get_put`: what is found once an entry has been written.
* `Configs.get_of_assign`: an entry after `Update` is an old one, or what the
  function returned.
-/

namespace Telepresence.Mutator

/-- `WorkloadKey`. -/
structure WorkloadKey where
  name : String
  ns : String
  kind : String
  deriving DecidableEq

/-- `configWatcher.agentConfigs`: by namespace, and then by name. -/
abbrev Configs (σ : Type) := GoMap String (GoMap String σ)

namespace Configs

variable {σ ε : Type}

/-- `Get`. -/
def get (c : Configs σ) (key ns : String) : Option σ :=
  (c.lookup ns).bind fun scMap => scMap.lookup key

/-- An entry is written to the map of its namespace, or to a new one: `Store`,
with the name and namespace of the configuration. -/
def put (c : Configs σ) (key ns : String) (sc : σ) : Configs σ :=
  c.insert ns (((c.lookup ns).getD ∅).insert key sc)

/-- `Delete`. -/
def delete (c : Configs σ) (name ns : String) : Configs σ :=
  match c.lookup ns with
  | some scMap =>
      let scMap := scMap.erase name
      if scMap.keys.length > 0 then c.insert ns scMap else c.erase ns
  | none => c.erase ns

/-- What `Update` makes of the result of its function, where `none` is nil. -/
def assign (c : Configs σ) (name ns : String) : Except ε (Option σ) → Configs σ
  | .error _ => c
  | .ok (some sc) => c.put name ns sc
  | .ok none =>
      match c.lookup ns with
      | some scMap => c.insert ns (scMap.erase name)
      | none => c

/-- The `Compute` at the end of `GetOrGenerate`: the generated configuration is
stored unless there is one by now. -/
def computeGenerated (c : Configs σ) (name ns : String) (ac : σ) : Configs σ × σ :=
  match c.get name ns with
  | some existing => (c, existing)
  | none => (c.put name ns ac, ac)

/-- What is found after the map of a namespace has been replaced. -/
theorem get_insert (c : Configs σ) (ns : String) (scMap : GoMap String σ) (key ns' : String) :
    get (c.insert ns scMap) key ns' = if ns' = ns then scMap.lookup key else c.get key ns' := by
  rw [get, GoMap.lookup_insert_eq]
  split
  · rfl
  · rfl

/-- **What is found** after an entry has been written. -/
theorem get_put (c : Configs σ) (key ns : String) (sc : σ) (key' ns' : String) :
    (c.put key ns sc).get key' ns' =
      if key' = key ∧ ns' = ns then some sc else c.get key' ns' := by
  rw [put, get_insert]
  by_cases hns : ns' = ns
  · subst hns
    rw [if_pos rfl, GoMap.lookup_insert_eq]
    by_cases hkey : key' = key
    · simp [hkey]
    · rw [if_neg hkey, if_neg fun h => hkey h.1, get]
      cases c.lookup ns' with
      | none | some scMap => rfl
  · rw [if_neg hns, if_neg fun h => hns h.2]

variable {c : Configs σ} {name ns key ns' : String} {scMap : GoMap String σ} {sc t : σ}

theorem get_of_put (h : (c.put name ns sc).get key ns' = some t) :
    key = name ∧ ns' = ns ∧ t = sc ∨ c.get key ns' = some t := by
  rw [get_put] at h
  split at h
  · rename_i hkey
    cases h
    exact .inl ⟨hkey.1, hkey.2, rfl⟩
  · exact .inr h

theorem get_of_erase (h : get (c.erase ns) key ns' = some t) : c.get key ns' = some t := by
  rw [get, GoMap.lookup_erase_eq] at h
  split at h
  · cases h
  · exact h

/-- A namespace has lost an entry. -/
theorem get_of_insert_erase (hns : c.lookup ns = some scMap)
    (h : get (c.insert ns (scMap.erase name)) key ns' = some t) : c.get key ns' = some t := by
  rw [get_insert] at h
  split at h
  · rename_i heq
    subst heq
    rw [get, hns]
    exact (GoMap.lookup_of_erase h).2
  · exact h

theorem get_of_delete (h : (c.delete name ns).get key ns' = some t) : c.get key ns' = some t := by
  unfold delete at h
  split at h
  · rename_i scMap hns
    dsimp only at h
    split at h
    · exact get_of_insert_erase hns h
    · exact get_of_erase h
  · exact get_of_erase h

/-- An entry after `Update` is an old one, or what the function returned. -/
theorem get_of_assign {r : Except ε (Option σ)} (h : (c.assign name ns r).get key ns' = some t) :
    (key = name ∧ ns' = ns ∧ r = .ok (some t)) ∨ c.get key ns' = some t := by
  unfold assign at h
  split at h
  · exact .inr h
  · rcases get_of_put h with ⟨hkey, hns, rfl⟩ | hold
    · exact .inl ⟨hkey, hns, rfl⟩
    · exact .inr hold
  · split at h
    · rename_i scMap hns
      exact .inr (get_of_insert_erase hns h)
    · exact .inr h

end Configs

end Telepresence.Mutator
