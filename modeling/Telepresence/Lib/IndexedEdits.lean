import Mathlib.Data.List.Induction
import Telepresence.Lib.Runs

/-!
# Edits of a list by position

Operations on a list that name an element by its position: append an element,
or put another in the place of one, remove it, or edit it.  A sequence of them
is applied in order and fails where a position does not exist or an edit is
refused.

* Edits keep positions, so all that a sequence of them does to an element is
  what the edits aimed at its position do (`run_edits_iff`).
* Removals from the last position to the first take out the elements they were
  computed for (`run_removals`).
* Afterwards an element is at its `rank`, which is its old position if and only
  if nothing before it is gone.
-/

namespace IndexedEdits

open Runs List Option

variable {α ε : Type*}

/-- What can be done to a list. -/
inductive Op (α ε : Type*) where
  | append (a : α)
  | set (i : Nat) (a : α)
  | remove (i : Nat)
  | edit (i : Nat) (e : ε)

section Apply

variable (app : α → ε → Option α)

/-- One operation, where `app` edits an element. -/
def Op.apply (l : List α) : Op α ε → Option (List α)
  | .append a => some (l ++ [a])
  | .set i a => if i < l.length then some (l.set i a) else none
  | .remove i => if i < l.length then some (l.eraseIdx i) else none
  | .edit i e => l[i]?.bind fun a => (app a e).map (l.set i)

/-- Edits at positions, as operations. -/
def edits (ps : List (Nat × ε)) : List (Op α ε) := ps.map fun p => .edit p.1 p.2

/-- The edits for one position. -/
def aimedAt (ps : List (Nat × ε)) (i : Nat) : List ε := (ps.filter fun p => p.1 = i).map (·.2)

theorem aimedAt_append (ps qs : List (Nat × ε)) (i : Nat) :
    aimedAt (ps ++ qs) i = aimedAt ps i ++ aimedAt qs i := by
  rw [aimedAt, filter_append, map_append]
  rfl

/-- Edits for the same position. -/
theorem aimedAt_map (es : List ε) (i j : Nat) :
    aimedAt (es.map fun e => (i, e)) j = if i = j then es else [] := by
  by_cases h : i = j
  · subst h
    rw [if_pos rfl, aimedAt, List.filter_eq_self.mpr (by simp), List.map_map]
    exact map_id _
  · simp [aimedAt, h]

theorem aimedAt_eq_nil {ps : List (Nat × ε)} {i : Nat} (h : ∀ p ∈ ps, p.1 ≠ i) :
    aimedAt ps i = [] := by
  rw [aimedAt, filter_eq_nil_iff.mpr fun p hp => by simpa using h p hp]
  rfl

theorem aimedAt_flatMap {β : Type*} (ms : List β) (index : β → Nat) (es : β → List ε) (i : Nat) :
    aimedAt (ms.flatMap fun m => (es m).map fun e => (index m, e)) i =
      (ms.filter fun m => index m = i).flatMap es := by
  induction ms with
  | nil => rfl
  | cons m ms ih =>
    rw [flatMap_cons, aimedAt_append, aimedAt_map, ih, filter_cons]
    by_cases h : index m = i <;> simp [h]

variable {app}

/-- **Edits stay with their positions.** -/
theorem run_edits_iff {l l' : List α} {ps : List (Nat × ε)} :
    run (Op.apply app) l (edits ps) = some l' ↔
      (∀ p ∈ ps, p.1 < l.length) ∧ l'.length = l.length ∧
        ∀ i a, l[i]? = some a → run app a (aimedAt ps i) = l'[i]? := by
  induction ps generalizing l with
  | nil =>
    constructor
    · intro h
      cases h
      exact ⟨fun p hp => absurd hp not_mem_nil, rfl, fun i a ha => ha.symm⟩
    · rintro ⟨_, hlen, h⟩
      refine congrArg some (ext_getElem? fun i => ?_)
      cases hi : l[i]? with
      | none =>
        rw [getElem?_eq_none_iff] at hi
        exact (getElem?_eq_none_iff.mpr (hlen ▸ hi)).symm
      | some a => exact h i a hi
  | cons p ps ih =>
    have hcons : ∀ i, aimedAt (p :: ps) i =
        if p.1 = i then p.2 :: aimedAt ps i else aimedAt ps i := by
      intro i
      by_cases hi : p.1 = i <;> simp [aimedAt, hi]
    -- the first edit is for the position `p.1`, the others find the rest as it was
    have hset : ∀ a₁ i a, p.1 < l.length → (l.set p.1 a₁)[i]? = some a →
        p.1 = i ∧ a = a₁ ∨ p.1 ≠ i ∧ l[i]? = some a := by
      intro a₁ i a hlt ha
      rw [getElem?_set] at ha
      by_cases hi : p.1 = i
      · rw [if_pos hi, if_pos hlt] at ha
        cases ha
        exact .inl ⟨hi, rfl⟩
      · rw [if_neg hi] at ha
        exact .inr ⟨hi, ha⟩
    rw [edits, map_cons, ← edits, run, bind_eq_some_iff]
    constructor
    · rintro ⟨l₁, hstep, hrest⟩
      obtain ⟨a₀, ha₀, hmap⟩ := bind_eq_some_iff.mp hstep
      obtain ⟨a₁, happ, rfl⟩ := map_eq_some_iff.mp hmap
      have hlt : p.1 < l.length := (List.getElem?_eq_some_iff.mp ha₀).1
      obtain ⟨hrange, hlen, hat⟩ := ih.mp hrest
      rw [length_set] at hrange hlen
      refine ⟨?_, hlen, ?_⟩
      · intro q hq
        rcases mem_cons.mp hq with rfl | hq
        · exact hlt
        · exact hrange q hq
      · intro i a ha
        rw [hcons]
        by_cases hi : p.1 = i
        · subst hi
          rw [if_pos rfl, run, ← some.inj (ha₀.symm.trans ha), happ, bind_some]
          exact hat _ _ (by rw [getElem?_set_self hlt])
        · rw [if_neg hi]
          exact hat i a (by rw [getElem?_set_ne hi, ha])
    · rintro ⟨hrange, hlen, hat⟩
      have hlt := hrange p mem_cons_self
      have hp := hat p.1 l[p.1] (getElem?_eq_getElem hlt)
      rw [hcons, if_pos rfl, run] at hp
      have hlt' : p.1 < l'.length := hlen ▸ hlt
      rw [getElem?_eq_getElem hlt', bind_eq_some_iff] at hp
      obtain ⟨a₁, happ, hrun⟩ := hp
      refine ⟨l.set p.1 a₁, ?_, ih.mpr ⟨?_, ?_, ?_⟩⟩
      · rw [Op.apply, getElem?_eq_getElem hlt, bind_some, happ]
        rfl
      · intro q hq
        rw [length_set]
        exact hrange q (mem_cons_of_mem _ hq)
      · rw [length_set, hlen]
      · intro i a ha
        obtain ⟨hi, rfl⟩ | ⟨hi, ha⟩ := hset a₁ i a hlt ha
        · subst hi
          rw [hrun, getElem?_eq_getElem hlt']
        · have := hat i a ha
          rw [hcons, if_neg hi] at this
          exact this

/-! ## Removals -/

/-- The positions of the elements that `keep` does not keep, the last one
first. -/
def dropped (keep : α → Bool) (l : List α) : List Nat :=
  (l.zipIdx.reverse.filter fun x => !keep x.1).map (·.2)

theorem dropped_concat (keep : α → Bool) (l : List α) (a : α) :
    dropped keep (l ++ [a]) = (if keep a then [] else [l.length]) ++ dropped keep l := by
  rw [dropped, zipIdx_append, reverse_append, filter_append, map_append,
    ← dropped]
  congr 1
  cases hkeep : keep a <;> simp [hkeep]

theorem dropped_map {β : Type*} (f : β → α) (keep : α → Bool) (l : List β) :
    dropped keep (l.map f) = dropped (fun b => keep (f b)) l := by
  induction l using reverseRecOn with
  | nil => rfl
  | append_singleton l b ih =>
    rw [map_append, map_singleton, dropped_concat, dropped_concat, ih, length_map]

/-- **From the last to the first.**  Each removal leaves the positions before
it alone. -/
theorem run_removals (keep : α → Bool) (l tail : List α) :
    run (Op.apply app) (l ++ tail) ((dropped keep l).map .remove) =
      some (l.filter keep ++ tail) := by
  induction l using reverseRecOn generalizing tail with
  | nil => rfl
  | append_singleton l a ih =>
    rw [dropped_concat, append_assoc, filter_append]
    cases hkeep : keep a with
    | true =>
      rw [if_pos rfl, nil_append, ih]
      simp [hkeep]
    | false =>
      have hremove : Op.apply app (l ++ ([a] ++ tail)) (.remove l.length) = some (l ++ tail) := by
        rw [Op.apply, if_pos (by simp), eraseIdx_append_of_length_le (Nat.le_refl _)]
        simp
      simp only [Bool.false_eq_true, if_false, singleton_append, map_cons, run]
      rw [← singleton_append, hremove, bind_some, ih]
      simp [hkeep]

end Apply

/-! ## Where the elements are afterwards -/

/-- The position that the element at position `k` gets. -/
def rank (keep : α → Bool) (l : List α) (k : Nat) : Nat := ((l.take k).filter keep).length

variable {keep : α → Bool} {l : List α} {k : Nat}

theorem rank_le (keep : α → Bool) (l : List α) (k : Nat) : rank keep l k ≤ k :=
  Nat.le_trans (length_filter_le ..) (length_take_le ..)

theorem getElem?_filter_rank {a : α} (ha : l[k]? = some a) (hkeep : keep a = true) :
    (l.filter keep)[rank keep l k]? = some a := by
  obtain ⟨hlt, rfl⟩ := List.getElem?_eq_some_iff.mp ha
  have hsplit : l = l.take k ++ l[k] :: l.drop (k + 1) := by
    rw [getElem_cons_drop, take_append_drop]
  have hfilter : l.filter keep =
      (l.take k).filter keep ++ l[k] :: (l.drop (k + 1)).filter keep := by
    conv_lhs => rw [hsplit]
    rw [filter_append, filter_cons_of_pos hkeep]
  rw [hfilter, rank, getElem?_append_right (Nat.le_refl _), Nat.sub_self]
  rfl

/-- What stays has come from somewhere. -/
theorem exists_rank {a : α} {j : Nat} (h : (l.filter keep)[j]? = some a) :
    ∃ k, l[k]? = some a ∧ keep a = true ∧ rank keep l k = j := by
  induction l generalizing j with
  | nil => cases h
  | cons b l ih =>
    cases hb : keep b with
    | true =>
      rw [filter_cons_of_pos hb] at h
      cases j with
      | zero =>
        cases h
        exact ⟨0, rfl, hb, rfl⟩
      | succ j =>
        obtain ⟨k, hk, hkeep, hrank⟩ := ih h
        refine ⟨k + 1, hk, hkeep, ?_⟩
        rw [rank, take_succ_cons, filter_cons_of_pos hb, length_cons, ← rank,
          hrank]
    | false =>
      rw [filter_cons_of_neg (by simp [hb])] at h
      obtain ⟨k, hk, hkeep, hrank⟩ := ih h
      refine ⟨k + 1, hk, hkeep, ?_⟩
      rw [rank, take_succ_cons, filter_cons_of_neg (by simp [hb]), ← rank, hrank]

/-- If all before it stay, an element keeps its position. -/
theorem rank_eq_self (hk : k ≤ l.length) (h : ∀ i < k, ∀ b, l[i]? = some b → keep b = true) :
    rank keep l k = k := by
  rw [rank, filter_eq_self.mpr, length_take, Nat.min_eq_left hk]
  intro b hb
  obtain ⟨i, hi, rfl⟩ := mem_iff_getElem.mp hb
  rw [length_take] at hi
  have hik : i < k := by omega
  have hil : i < l.length := by omega
  refine h i hik _ ?_
  rw [getElem_take]
  exact getElem?_eq_getElem hil

/-- If one before it goes, an element moves. -/
theorem rank_lt {i : Nat} {b : α} (hi : i < k) (hb : l[i]? = some b) (hkeep : keep b = false) :
    rank keep l k < k := by
  have hmem : b ∈ l.take k := mem_of_getElem? (by rw [getElem?_take_of_lt hi, hb])
  have hlt : rank keep l k < (l.take k).length :=
    length_filter_lt_length_iff_exists.mpr ⟨b, hmem, by simp [hkeep]⟩
  exact Nat.lt_of_lt_of_le hlt (length_take_le ..)

theorem rank_mono {i : Nat} (h : i ≤ k) : rank keep l i ≤ rank keep l k := by
  have hsub : (l.take i).Sublist (l.take k) := (take_prefix_take_left h).sublist
  exact (hsub.filter keep).length_le

/-- An element that has moved from `k` to `j` stands where the first one that
is gone was, or behind it. -/
theorem not_keep_of_rank_lt {j : Nat} {b : α} (hj : rank keep l k = j) (hlt : j < k)
    (h : ∀ i < j, ∀ b, l[i]? = some b → keep b = true) (hb : l[j]? = some b) : keep b = false := by
  cases hkeep : keep b with
  | false => rfl
  | true =>
    have hjl : j + 1 ≤ l.length := (List.getElem?_eq_some_iff.mp hb).1
    have hself : rank keep l (j + 1) = j + 1 := by
      refine rank_eq_self hjl fun i hi c hc => ?_
      rcases Nat.lt_succ_iff_lt_or_eq.mp hi with hi | rfl
      · exact h i hi c hc
      · cases hb.symm.trans hc
        exact hkeep
    have hmono : rank keep l (j + 1) ≤ rank keep l k := rank_mono hlt
    omega

/-- Two lists are filtered alike: what holds of the elements that stay. -/
theorem forall₂_filter_iff {β : Type*} {R : α → β → Prop} {p : α → Bool} {q : β → Bool}
    {as : List α} {bs : List β} (h : List.Forall₂ (fun a b => p a = q b) as bs) :
    List.Forall₂ R (as.filter p) (bs.filter q) ↔
      ∀ (j : Nat) a b, as[j]? = some a → bs[j]? = some b → p a = true → R a b := by
  induction h with
  | nil =>
    constructor
    · intro _ j a b ha
      cases ha
    · intro _
      exact .nil
  | @cons a b as bs hab _ ih =>
    have hsucc : (∀ (j : Nat) a' b', (a :: as)[j]? = some a' → (b :: bs)[j]? = some b' →
          p a' = true → R a' b') ↔
        (p a = true → R a b) ∧
          ∀ (j : Nat) a' b', as[j]? = some a' → bs[j]? = some b' → p a' = true → R a' b' := by
      constructor
      · intro hall
        exact ⟨hall 0 a b rfl rfl, fun j => hall (j + 1)⟩
      · intro ⟨hzero, hsucc⟩ j a' b' ha' hb'
        cases j with
        | zero =>
          cases ha'
          cases hb'
          exact hzero
        | succ j => exact hsucc j a' b' ha' hb'
    rw [hsucc, ← ih]
    cases hp : p a with
    | true =>
      rw [filter_cons_of_pos hp, filter_cons_of_pos (hab ▸ hp), forall₂_cons]
      simp
    | false =>
      rw [filter_cons_of_neg (by simp [hp]), filter_cons_of_neg (by simp [← hab, hp])]
      simp

end IndexedEdits
