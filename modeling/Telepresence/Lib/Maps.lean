import Mathlib.Data.List.AList
import Telepresence.Lib.Results

/-!
# Maps

Go's maps as Mathlib's association lists without duplicate keys.  The order of
the entries has no meaning; a map is known by what `lookup` returns.
-/

/-- A map from `α` to `β`. -/
abbrev GoMap (α β : Type) := AList fun _ : α => β

namespace GoMap

open List Option

variable {α β : Type} [DecidableEq α]

/-- Equality of maps, in a form that evaluates. -/
instance [DecidableEq β] : DecidableEq (GoMap α β) := fun m n =>
  decidable_of_iff (m.entries = n.entries) ⟨AList.ext, congrArg AList.entries⟩

variable {m : GoMap α β} {a : α} {b : β}

theorem mem_entries_iff : (⟨a, b⟩ : Sigma fun _ : α => β) ∈ m.entries ↔ m.lookup a = some b :=
  AList.mem_lookup_iff.symm

theorem lookup_insert_eq (m : GoMap α β) (a k : α) (b : β) :
    (m.insert k b).lookup a = if a = k then some b else m.lookup a := by
  by_cases h : a = k
  · subst h
    simp
  · rw [AList.lookup_insert_ne h, if_neg h]

theorem lookup_erase_eq (m : GoMap α β) (a k : α) :
    (m.erase k).lookup a = if a = k then none else m.lookup a := by
  by_cases h : a = k
  · subst h
    simp
  · rw [AList.lookup_erase_ne h, if_neg h]

/-- An entry after an insertion is the inserted one or an old one. -/
theorem lookup_of_insert {k : α} {c : β} (h : (m.insert k b).lookup a = some c) :
    a = k ∧ c = b ∨ m.lookup a = some c := by
  rw [lookup_insert_eq] at h
  split at h
  · rename_i heq
    exact .inl ⟨heq, (some.inj h).symm⟩
  · exact .inr h

/-- An entry after a deletion is an old one with another key. -/
theorem lookup_of_erase {k : α} {c : β} (h : (m.erase k).lookup a = some c) :
    a ≠ k ∧ m.lookup a = some c := by
  rw [lookup_erase_eq] at h
  split at h
  · cases h
  · rename_i hne
    exact ⟨hne, h⟩

theorem mem_keys_of_lookup (h : m.lookup a = some b) : a ∈ m.keys := by
  rw [← AList.mem_keys, ← AList.lookup_isSome, h]
  rfl

/-- Replace every value. -/
def mapValues (f : β → β) (m : GoMap α β) : GoMap α β where
  entries := m.entries.map fun e => ⟨e.1, f e.2⟩
  nodupKeys := by
    have h := m.nodupKeys
    rw [List.NodupKeys] at h ⊢
    simpa [List.keys, Function.comp_def] using h

omit [DecidableEq α] in
theorem keys_mapValues (f : β → β) (m : GoMap α β) : (mapValues f m).keys = m.keys := by
  simp only [mapValues, AList.keys, List.keys, List.map_map, Function.comp_def]

theorem lookup_mapValues (f : β → β) (m : GoMap α β) (a : α) :
    (mapValues f m).lookup a = (m.lookup a).map f := by
  cases h : m.lookup a with
  | none =>
    rw [AList.lookup_eq_none, AList.mem_keys] at h
    rw [map_none, AList.lookup_eq_none, AList.mem_keys, keys_mapValues]
    exact h
  | some b =>
    rw [map_some, ← mem_entries_iff]
    exact mem_map.mpr ⟨⟨a, b⟩, mem_entries_iff.mpr h, rfl⟩

/-- Delete the keys of a list that are not wanted. -/
def deleteUnless (keep : α → Bool) (ks : List α) (m : GoMap α β) : GoMap α β :=
  ks.foldl (fun m k => if keep k then m else m.erase k) m

theorem lookup_deleteUnless (keep : α → Bool) (ks : List α) (m : GoMap α β) (a : α) :
    (deleteUnless keep ks m).lookup a =
      if a ∈ ks ∧ keep a = false then none else m.lookup a := by
  induction ks generalizing m with
  | nil => simp [deleteUnless]
  | cons k ks ih =>
    have hrec : (deleteUnless keep (k :: ks) m).lookup a =
        (deleteUnless keep ks (if keep k then m else m.erase k)).lookup a := rfl
    rw [hrec, ih]
    by_cases hk : keep k = true
    all_goals
      by_cases hak : a = k
      · subst hak
        simp [hk]
      · simp [hk, hak]

/-- Going through all keys of the map. -/
theorem lookup_deleteUnless_keys (keep : α → Bool) (m : GoMap α β) (a : α) :
    (deleteUnless keep m.keys m).lookup a = if keep a then m.lookup a else none := by
  rw [lookup_deleteUnless]
  by_cases hkeep : keep a = true
  · simp [hkeep]
  · by_cases hmem : a ∈ m.keys
    · simp [hkeep, hmem]
    · have hnone : m.lookup a = none := by
        rw [AList.lookup_eq_none, AList.mem_keys]
        exact hmem
      simp [hkeep, hnone]

theorem mem_keys_iff_isSome : a ∈ m.keys ↔ (m.lookup a).isSome = true := by
  rw [← AList.mem_keys, AList.lookup_isSome]

/-- Delete the keys of a list. -/
def deleteAll (ks : List α) (m : GoMap α β) : GoMap α β := deleteUnless (fun _ => false) ks m

theorem lookup_deleteAll (ks : List α) (m : GoMap α β) (a : α) :
    (deleteAll ks m).lookup a = if a ∈ ks then none else m.lookup a := by
  simp [deleteAll, lookup_deleteUnless]

theorem lookup_union_eq (m n : GoMap α β) (a : α) :
    (m ∪ n).lookup a = (m.lookup a).or (n.lookup a) := by
  cases h : m.lookup a with
  | none =>
    rw [AList.lookup_union_right (AList.lookup_eq_none.mp h), none_or]
  | some b =>
    have hmem : a ∈ m := AList.lookup_isSome.mp (by rw [h]; rfl)
    rw [AList.lookup_union_left hmem, h, some_or]

/-- The entries that satisfy a test. -/
def filter (p : α → β → Bool) (m : GoMap α β) : GoMap α β where
  entries := m.entries.filter fun e => p e.1 e.2
  nodupKeys := m.nodupKeys.sublist List.filter_sublist

theorem lookup_filter (p : α → β → Bool) (m : GoMap α β) (a : α) :
    (m.filter p).lookup a = (m.lookup a).filter (p a) := by
  apply ext
  intro b
  rw [filter_eq_some_iff, ← mem_entries_iff, ← mem_entries_iff]
  simp [filter]

/-! ## Maps made by a loop -/

/-- Store the values of a list under their keys, one after the other. -/
def insertPairs (ys : List (α × β)) (m : GoMap α β) : GoMap α β :=
  ys.foldl (fun m y => m.insert y.1 y.2) m

/-- The last value that was stored under a key is the one that it has. -/
theorem lookup_insertPairs (ys : List (α × β)) (m : GoMap α β) (a : α) :
    (insertPairs ys m).lookup a =
      ((ys.reverse.find? fun y => y.1 = a).map (·.2)).or (m.lookup a) := by
  induction ys generalizing m with
  | nil => rfl
  | cons y ys ih =>
    rw [insertPairs, foldl_cons, ← insertPairs, ih, lookup_insert_eq, reverse_cons, find?_append]
    by_cases h : a = y.1
    · cases ys.reverse.find? fun y => y.1 = a <;> simp [h]
    · simp [h, Ne.symm h]

variable {ys : List (α × β)}

theorem lookup_insertPairs_cases (h : (insertPairs ys m).lookup a = some b) :
    (a, b) ∈ ys ∨ m.lookup a = some b := by
  rw [lookup_insertPairs, or_eq_some_iff] at h
  refine h.imp (fun h => ?_) And.right
  obtain ⟨y, hy, rfl⟩ := map_eq_some_iff.mp h
  have ha : y.1 = a := by simpa using find?_some hy
  exact ha ▸ mem_reverse.mp (mem_of_find?_eq_some hy)

theorem lookup_insertPairs_of_notMem (h : ∀ b, (a, b) ∉ ys) (m : GoMap α β) :
    (insertPairs ys m).lookup a = m.lookup a := by
  have hnone : (ys.reverse.find? fun y => y.1 = a) = none := by
    rw [find?_eq_none]
    intro y hy
    simpa using fun heq : y.1 = a => h y.2 (heq ▸ mem_reverse.mp hy)
  rw [lookup_insertPairs, hnone]
  rfl

/-- The keys of a map that a loop has stored values in. -/
theorem isSome_lookup_insertPairs (ys : List (α × β)) (m : GoMap α β) (a : α) :
    ((insertPairs ys m).lookup a).isSome = true ↔
      (∃ y ∈ ys, y.1 = a) ∨ (m.lookup a).isSome = true := by
  simp [lookup_insertPairs]

/-- A value that no other one of its key competes with is there. -/
theorem lookup_insertPairs_of_mem (hmem : (a, b) ∈ ys) (huniq : ∀ b', (a, b') ∈ ys → b' = b)
    (m : GoMap α β) : (insertPairs ys m).lookup a = some b := by
  have hsome := (isSome_lookup_insertPairs ys ∅ a).mpr (.inl ⟨_, hmem, rfl⟩)
  obtain ⟨b', hb'⟩ := isSome_iff_exists.mp hsome
  have hmem' := (lookup_insertPairs_cases hb').resolve_right (by simp)
  rw [lookup_insertPairs, AList.lookup_empty, or_none] at hb'
  rw [lookup_insertPairs, hb', huniq b' hmem', some_or]

theorem lookup_insertPairs_or {v : Option β} (h : ∀ b, (a, b) ∈ ys ↔ v = some b) (m : GoMap α β) :
    (insertPairs ys m).lookup a = v.or (m.lookup a) := by
  cases v with
  | none => exact lookup_insertPairs_of_notMem (fun b hb => nomatch (h b).mp hb) m
  | some b =>
    exact lookup_insertPairs_of_mem ((h b).mpr rfl) (fun b' hb' => (some.inj ((h b').mp hb')).symm) m

/-- If no two values compete for the key. -/
theorem lookup_insertPairs_iff (h : ∀ b b', (a, b) ∈ ys → (a, b') ∈ ys → b' = b) :
    (insertPairs ys ∅).lookup a = some b ↔ (a, b) ∈ ys :=
  ⟨fun hb => (lookup_insertPairs_cases hb).resolve_right (by simp),
    fun hb => lookup_insertPairs_of_mem hb (fun b' => h b b' hb) ∅⟩

/-- Store each value under its own key. -/
def insertAll (key : β → α) (xs : List β) (m : GoMap α β) : GoMap α β :=
  xs.foldl (fun m x => m.insert (key x) x) m

theorem insertAll_eq (key : β → α) (xs : List β) (m : GoMap α β) :
    insertAll key xs m = insertPairs (xs.map fun x => (key x, x)) m := by
  rw [insertPairs, foldl_map]
  rfl

theorem lookup_insertAll_of_notMem {key : β → α} {xs : List β} (h : a ∉ xs.map key) (m : GoMap α β) :
    (insertAll key xs m).lookup a = m.lookup a := by
  rw [insertAll_eq]
  refine lookup_insertPairs_of_notMem (fun b hb => h ?_) m
  simpa using ⟨b, by simpa using hb⟩

/-- Values with distinct keys are all there. -/
theorem lookup_insertAll_of_mem {key : β → α} {xs : List β} {x : β}
    (hnd : (xs.map key).Nodup) (hx : x ∈ xs) (m : GoMap α β) :
    (insertAll key xs m).lookup (key x) = some x := by
  rw [insertAll_eq]
  have hmem : (key x, x) ∈ xs.map fun x => (key x, x) := mem_map.mpr ⟨x, hx, rfl⟩
  refine lookup_insertPairs_of_mem hmem (fun y hy => ?_) m
  simp only [List.mem_map, Prod.mk.injEq, exists_eq_right_right] at hy
  exact inj_on_of_nodup_map hnd hy.1 hx hy.2

/-- Store every value under another key. -/
def rekey {γ : Type} [DecidableEq γ] (g : α → γ) (m : GoMap α β) : GoMap γ β :=
  insertPairs (m.entries.map fun e => (g e.1, e.2)) ∅

variable {γ : Type}

/-- With distinct new keys nothing gets lost. -/
theorem lookup_rekey_iff [DecidableEq γ] {g : α → γ} (hg : Function.Injective g) (m : GoMap α β)
    (c : γ) (b : β) : (m.rekey g).lookup c = some b ↔ ∃ a, c = g a ∧ m.lookup a = some b := by
  have hmem : ∀ b, (c, b) ∈ m.entries.map (fun e => (g e.1, e.2)) ↔
      ∃ a, c = g a ∧ m.lookup a = some b := by
    intro b
    simp only [List.mem_map, Prod.mk.injEq, Sigma.exists, mem_entries_iff]
    constructor
    · rintro ⟨a, x, hx, rfl, rfl⟩
      exact ⟨a, rfl, hx⟩
    · rintro ⟨a, rfl, hx⟩
      exact ⟨a, b, hx, rfl, rfl⟩
  rw [rekey, lookup_insertPairs_iff ?_, hmem]
  intro b b' hb hb'
  obtain ⟨a, rfl, ha⟩ := (hmem b).mp hb
  obtain ⟨a', heq, ha'⟩ := (hmem b').mp hb'
  rw [← hg heq, ha] at ha'
  exact (some.inj ha').symm

/-- `for x := range xs { m[key(x)] = append(m[key(x)], val(x)) }`. -/
def grouped {γ : Type} (key : γ → α) (val : γ → β) (xs : List γ) : GoMap α (List β) :=
  xs.foldl (fun m x => m.insert (key x) ((m.lookup (key x)).getD [] ++ [val x])) ∅

section

variable (key : γ → α) (val : γ → β) (xs : List γ)

theorem lookup_foldl_grouped (m : GoMap α (List β)) (a : α) :
    (xs.foldl (fun m x => m.insert (key x) ((m.lookup (key x)).getD [] ++ [val x])) m).lookup a =
      if (xs.filter fun x => key x = a) = [] then m.lookup a
      else some ((m.lookup a).getD [] ++ (xs.filter fun x => key x = a).map val) := by
  induction xs generalizing m with
  | nil => simp
  | cons x xs ih =>
    rw [foldl_cons, ih]
    by_cases h : key x = a
    · subst h
      simp
    · simp [h, Ne.symm h]

/-- What has been appended for a key, in the order of the list. -/
theorem lookup_grouped (a : α) : (grouped key val xs).lookup a =
      if (xs.filter fun x => key x = a) = [] then none
      else some ((xs.filter fun x => key x = a).map val) := by
  rw [grouped, lookup_foldl_grouped]
  simp

theorem getD_lookup_grouped (a : α) :
    ((grouped key val xs).lookup a).getD [] = (xs.filter fun x => key x = a).map val := by
  rw [lookup_grouped]
  split <;> simp_all

theorem isSome_lookup_grouped (a : α) :
    ((grouped key val xs).lookup a).isSome = true ↔ ∃ x ∈ xs, key x = a := by
  rw [lookup_grouped]
  split
  · simp_all
  · rename_i h
    obtain ⟨x, hx⟩ := exists_mem_of_ne_nil _ h
    simp only [mem_filter, decide_eq_true_eq] at hx
    simpa using ⟨x, hx⟩

end

/-- Read keys and values from a list, until one of them is refused. -/
def readAll {γ ε : Type} (read : γ → Except ε (α × β)) (xs : List γ) : Except ε (GoMap α β) :=
  xs.foldlM (fun m x => (read x).map fun y => m.insert y.1 y.2) ∅

/-- Reading succeeds if and only if every element is accepted. -/
theorem readAll_eq_ok {ε : Type} {read : γ → Except ε (α × β)} {xs : List γ} :
    readAll read xs = .ok m ↔
      ∃ ys, List.Forall₂ (fun x y => read x = .ok y) xs ys ∧ m = insertPairs ys ∅ := by
  have hfold : ∀ n : GoMap α β,
      xs.foldlM (fun m x => (read x).map fun y => m.insert y.1 y.2) n = .ok m ↔
        ∃ ys, List.Forall₂ (fun x y => read x = .ok y) xs ys ∧ m = insertPairs ys n := by
    induction xs with
    | nil =>
      intro n
      simp [insertPairs, pure, Except.pure, eq_comm]
    | cons x xs ih =>
      intro n
      rw [foldlM_cons, Results.bind_eq_ok]
      simp only [Results.map_eq_ok, ih]
      constructor
      · rintro ⟨_, ⟨y, hy, rfl⟩, ys, hys, rfl⟩
        exact ⟨y :: ys, .cons hy hys, rfl⟩
      · rintro ⟨ys, hys, rfl⟩
        cases hys with
        | cons hy hys => exact ⟨_, ⟨_, hy, rfl⟩, _, hys, rfl⟩
  exact hfold ∅

/-- What has been read comes from the list, and all of it that does not
compete for a key is there. -/
theorem lookup_readAll_iff {ε : Type} {read : γ → Except ε (α × β)} {xs : List γ}
    (h : readAll read xs = .ok m)
    (huniq : ∀ x ∈ xs, ∀ x' ∈ xs, ∀ a b b', read x = .ok (a, b) → read x' = .ok (a, b') → b' = b)
    (a : α) (b : β) : m.lookup a = some b ↔ ∃ x ∈ xs, read x = .ok (a, b) := by
  obtain ⟨ys, hys, rfl⟩ := readAll_eq_ok.mp h
  have hmem := Results.mem_iff_of_forall₂ hys
  rw [← hmem]
  refine lookup_insertPairs_iff ?_
  intro b b' hb hb'
  obtain ⟨x, hx, hread⟩ := (hmem _).mp hb
  obtain ⟨x', hx', hread'⟩ := (hmem _).mp hb'
  exact huniq x hx x' hx' a b b' hread hread'

/-- An order in which Go goes through the entries of its maps. -/
structure Order (α β : Type) where
  visit : GoMap α β → List (Sigma fun _ : α => β)
  perm : ∀ m, (visit m).Perm m.entries

/-- The order of the entries. -/
def Order.entries : Order α β := ⟨AList.entries, fun _ => .refl _⟩

theorem Order.mem_visit (order : Order α β) :
    (⟨a, b⟩ : Sigma fun _ : α => β) ∈ order.visit m ↔ m.lookup a = some b :=
  (order.perm m).mem_iff.trans mem_entries_iff

/-- `for k, v := range m { if p(k, v) { delete(m, k) } }`. -/
def Order.deleteWhere (order : Order α β) (p : α → β → Bool) (m : GoMap α β) : GoMap α β :=
  (order.visit m).foldl (fun n e => if p e.1 e.2 then n.erase e.1 else n) m

theorem lookup_foldl_deleteWhere {p : α → β → Bool} {es : List (Sigma fun _ : α => β)} :
    (es.foldl (fun n e => if p e.1 e.2 then n.erase e.1 else n) m).lookup a = some b ↔
      m.lookup a = some b ∧ ∀ e ∈ es, e.1 = a → p e.1 e.2 = false := by
  induction es generalizing m with
  | nil => simp
  | cons e es ih =>
    rw [foldl_cons, ih, forall_mem_cons]
    by_cases hp : p e.1 e.2 = true
    · rw [if_pos hp, lookup_erase_eq]
      by_cases ha : a = e.1
      · simp [ha, hp]
      · simp [ha, Ne.symm ha]
    · simp [hp]

/-- The entries that remain are those that the test does not name. -/
theorem Order.lookup_deleteWhere {order : Order α β} {p : α → β → Bool} :
    (order.deleteWhere p m).lookup a = some b ↔ m.lookup a = some b ∧ p a b = false := by
  rw [deleteWhere, lookup_foldl_deleteWhere]
  refine and_congr_right fun hb => ?_
  constructor
  · intro h
    exact h ⟨a, b⟩ (order.mem_visit.mpr hb) rfl
  · intro hp ⟨a', b'⟩ he ha
    dsimp only at ha ⊢
    subst ha
    rw [order.mem_visit, hb] at he
    cases he
    exact hp

end GoMap
