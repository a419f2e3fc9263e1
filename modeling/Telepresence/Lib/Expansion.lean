import Mathlib.Data.List.Infix

/-!
# References in texts

The expressions `$(NAME)` in a text as Kubernetes expands them: the text is
read from left to right, `$$` stands for a single `$`, `$(NAME)` for the value
of a variable, and everything else for itself.

* `parts` reads a text; each part comes with the rest of the text from where it
  starts, which says where it is.
* `view` takes a text apart at its first part.  It is the case distinction
  for all proofs about `parts`.
-/

namespace Expansion

open List

/-- A text, as its characters. -/
abbrev Text := List Char

/-- The text before and after the first closing parenthesis. -/
def cutCloser : Text → Option (Text × Text)
  | [] => none
  | c :: cs => if c = ')' then some ([], cs) else (cutCloser cs).map fun x => (c :: x.1, x.2)

theorem cutCloser_append {n : Text} (hn : ')' ∉ n) (r : Text) :
    cutCloser (n ++ ')' :: r) = some (n, r) := by
  induction n with
  | nil => rfl
  | cons c n ih =>
    have hc : c ≠ ')' := fun h => hn (h ▸ mem_cons_self)
    rw [cons_append, cutCloser, if_neg hc, ih fun h => hn (mem_cons_of_mem _ h)]
    rfl

theorem eq_of_cutCloser {cs n r : Text} (h : cutCloser cs = some (n, r)) :
    cs = n ++ ')' :: r ∧ ')' ∉ n := by
  induction cs generalizing n with
  | nil => cases h
  | cons c cs ih =>
    rw [cutCloser] at h
    split at h
    · rename_i hc
      cases h
      exact ⟨by rw [hc]; rfl, not_mem_nil⟩
    · rename_i hc
      obtain ⟨⟨n', r'⟩, hcut, heq⟩ := Option.map_eq_some_iff.mp h
      cases heq
      obtain ⟨rfl, hn'⟩ := ih hcut
      refine ⟨rfl, ?_⟩
      intro hmem
      rcases mem_cons.mp hmem with heq | hmem
      · exact hc heq.symm
      · exact hn' hmem

theorem cutCloser_eq_none_iff {cs : Text} : cutCloser cs = none ↔ ')' ∉ cs := by
  constructor
  · intro h hmem
    obtain ⟨a, b, rfl, ha⟩ := eq_append_cons_of_mem hmem
    rw [cutCloser_append ha] at h
    cases h
  · intro h
    cases hcut : cutCloser cs with
    | none => rfl
    | some x =>
      rw [(eq_of_cutCloser hcut).1] at h
      exact absurd (by simp) h

/-! ## Reading a text -/

/-- A part of a text.  A `$` that starts no expression is read together with
the character after it. -/
inductive Part where
  | escaped
  | reference (name : Text)
  | pair (c : Char)
  | plain (c : Char)
  deriving DecidableEq

/-- The parts of a text, after some characters that are skipped. -/
def partsFrom : Nat → Text → List (Text × Part)
  | _, [] => []
  | skip + 1, _ :: cs => partsFrom skip cs
  | 0, c :: cs =>
      if c = '$' then
        match cs with
        | [] => [([c], .plain c)]
        | d :: ds =>
            if d = '$' then (c :: d :: ds, .escaped) :: partsFrom 1 (d :: ds)
            else if d = '(' then
              match cutCloser ds with
              | some (n, _) => (c :: d :: ds, .reference n) :: partsFrom (n.length + 2) (d :: ds)
              | none => (c :: d :: ds, .pair d) :: partsFrom 1 (d :: ds)
            else (c :: d :: ds, .pair d) :: partsFrom 1 (d :: ds)
      else (c :: cs, .plain c) :: partsFrom 0 cs

/-- The parts of a text. -/
def parts (cs : Text) : List (Text × Part) := partsFrom 0 cs

theorem partsFrom_eq (k : Nat) (cs : Text) : partsFrom k cs = parts (cs.drop k) := by
  induction cs generalizing k with
  | nil => simp [parts, partsFrom]
  | cons c cs ih =>
    cases k with
    | zero => rfl
    | succ k => exact ih k

/-- The first part of a text, with what follows it. -/
inductive View : Text → Prop where
  | nil : View []
  | dollar : View ['$']
  | escaped (cs : Text) : View ('$' :: '$' :: cs)
  | reference (n r : Text) (hn : ')' ∉ n) : View ('$' :: '(' :: (n ++ ')' :: r))
  | opener (cs : Text) (hcs : ')' ∉ cs) : View ('$' :: '(' :: cs)
  | pair (d : Char) (cs : Text) (hd : d ≠ '$') (hd' : d ≠ '(') : View ('$' :: d :: cs)
  | plain (c : Char) (cs : Text) (hc : c ≠ '$') : View (c :: cs)

theorem view (cs : Text) : View cs := by
  cases cs with
  | nil => exact .nil
  | cons c cs =>
    by_cases hc : c = '$'
    · subst hc
      cases cs with
      | nil => exact .dollar
      | cons d ds =>
        by_cases hd : d = '$'
        · subst hd
          exact .escaped ds
        · by_cases hd' : d = '('
          · subst hd'
            cases hcut : cutCloser ds with
            | none => exact .opener ds (cutCloser_eq_none_iff.mp hcut)
            | some x =>
              obtain ⟨heq, hn⟩ := eq_of_cutCloser hcut
              rw [heq]
              exact .reference x.1 x.2 hn
          · exact .pair d ds hd hd'
    · exact .plain c cs hc

@[simp] theorem parts_nil : parts [] = [] := rfl

@[simp] theorem parts_dollar : parts ['$'] = [(['$'], .plain '$')] := rfl

@[simp] theorem parts_escaped (cs : Text) :
    parts ('$' :: '$' :: cs) = ('$' :: '$' :: cs, .escaped) :: parts cs := rfl

theorem parts_reference {n : Text} (hn : ')' ∉ n) (r : Text) :
    parts ('$' :: '(' :: (n ++ ')' :: r)) =
      ('$' :: '(' :: (n ++ ')' :: r), .reference n) :: parts r := by
  have hstep : parts ('$' :: '(' :: (n ++ ')' :: r)) = ('$' :: '(' :: (n ++ ')' :: r), .reference n) ::
      partsFrom (n.length + 2) ('(' :: (n ++ ')' :: r)) := by
    rw [parts, partsFrom.eq_def]
    simp [cutCloser_append hn]
  have hdrop : ('(' :: (n ++ ')' :: r)).drop (n.length + 2) = r := by simp
  rw [hstep, partsFrom_eq, hdrop]

theorem parts_opener {cs : Text} (hcs : ')' ∉ cs) :
    parts ('$' :: '(' :: cs) = ('$' :: '(' :: cs, .pair '(') :: parts cs := by
  rw [parts, partsFrom.eq_def]
  simp [cutCloser_eq_none_iff.mpr hcs, partsFrom_eq]

theorem parts_pair {d : Char} (hd : d ≠ '$') (hd' : d ≠ '(') (cs : Text) :
    parts ('$' :: d :: cs) = ('$' :: d :: cs, .pair d) :: parts cs := by
  rw [parts, partsFrom.eq_def]
  simp [hd, hd', partsFrom_eq]

theorem parts_plain {c : Char} (hc : c ≠ '$') (cs : Text) :
    parts (c :: cs) = (c :: cs, .plain c) :: parts cs := by
  rw [parts, partsFrom.eq_def]
  simp [hc, partsFrom_eq]

/-- The first part starts at the beginning, and the others after it. -/
theorem exists_parts_eq {cs : Text} (h : cs ≠ []) :
    ∃ p r, parts cs = (cs, p) :: parts r ∧ r.length < cs.length := by
  cases view cs with
  | nil => exact absurd rfl h
  | dollar => exact ⟨_, [], rfl, by simp⟩
  | escaped cs => exact ⟨_, cs, rfl, by simp only [length_cons]; omega⟩
  | reference n r hn => exact ⟨_, r, parts_reference hn r, by simp; omega⟩
  | opener cs hcs => exact ⟨_, cs, parts_opener hcs, by simp only [length_cons]; omega⟩
  | pair d cs hd hd' => exact ⟨_, cs, parts_pair hd hd' cs, by simp only [length_cons]; omega⟩
  | plain c cs hc => exact ⟨_, cs, parts_plain hc cs, by simp⟩

theorem length_le_of_mem_parts {cs s : Text} {p : Part} (h : (s, p) ∈ parts cs) :
    s.length ≤ cs.length := by
  by_cases hcs : cs = []
  · subst hcs
    simp at h
  · obtain ⟨q, r, heq, hr⟩ := exists_parts_eq hcs
    rw [heq] at h
    rcases mem_cons.mp h with hhead | hrest
    · cases hhead
      exact le_rfl
    · have := length_le_of_mem_parts hrest
      omega
termination_by cs.length

/-! ## Expansion -/

/-- What a part stands for. -/
def Part.value (mapping : Text → Text) : Part → Text
  | .escaped => ['$']
  | .reference n => mapping n
  | .pair c => ['$', c]
  | .plain c => [c]

/-- The text with its references replaced. -/
def expand (mapping : Text → Text) (cs : Text) : Text :=
  (parts cs).flatMap fun x => x.2.value mapping

variable (mapping : Text → Text)

@[simp] theorem expand_nil : expand mapping [] = [] := rfl

@[simp] theorem expand_dollar : expand mapping ['$'] = ['$'] := rfl

@[simp] theorem expand_escaped (cs : Text) :
    expand mapping ('$' :: '$' :: cs) = '$' :: expand mapping cs := rfl

theorem expand_reference {n : Text} (hn : ')' ∉ n) (r : Text) :
    expand mapping ('$' :: '(' :: (n ++ ')' :: r)) = mapping n ++ expand mapping r := by
  rw [expand, parts_reference hn]
  rfl

theorem expand_opener {cs : Text} (hcs : ')' ∉ cs) :
    expand mapping ('$' :: '(' :: cs) = '$' :: '(' :: expand mapping cs := by
  rw [expand, parts_opener hcs]
  rfl

theorem expand_pair {d : Char} (hd : d ≠ '$') (hd' : d ≠ '(') (cs : Text) :
    expand mapping ('$' :: d :: cs) = '$' :: d :: expand mapping cs := by
  rw [expand, parts_pair hd hd']
  rfl

theorem expand_plain {c : Char} (hc : c ≠ '$') (cs : Text) :
    expand mapping (c :: cs) = c :: expand mapping cs := by
  rw [expand, parts_plain hc]
  rfl

/-- A text without a `$` stands for itself. -/
theorem expand_append_of_notMem {a : Text} (ha : '$' ∉ a) (cs : Text) :
    expand mapping (a ++ cs) = a ++ expand mapping cs := by
  induction a with
  | nil => rfl
  | cons c a ih =>
    have hc : c ≠ '$' := fun h => ha (h ▸ mem_cons_self)
    rw [cons_append, expand_plain mapping hc, ih fun h => ha (mem_cons_of_mem _ h)]
    rfl

/-- If no reference starts before a closing parenthesis, then what the text
before it stands for depends neither on the variables nor on what follows,
and a new part starts after it. -/
theorem exists_expand_eq {g r : Text} (hg : ')' ∉ g)
    (hnone : ∀ s n, (s, .reference n) ∈ parts (g ++ ')' :: r) → s.length ≤ r.length) :
    ∃ u, ∀ r, (∀ mapping : Text → Text,
      expand mapping (g ++ ')' :: r) = u ++ ')' :: expand mapping r) ∧
        parts r <:+ parts (g ++ ')' :: r) := by
  cases view g with
  | nil =>
    refine ⟨[], fun r => ⟨fun mapping => expand_plain mapping (by decide) r, ?_⟩⟩
    rw [nil_append, parts_plain (by decide)]
    exact suffix_cons _ _
  | dollar =>
    refine ⟨['$'], fun r => ⟨fun mapping => expand_pair mapping (by decide) (by decide) r, ?_⟩⟩
    rw [cons_append, nil_append, parts_pair (by decide) (by decide)]
    exact suffix_cons _ _
  | escaped g =>
    obtain ⟨u, hu⟩ := exists_expand_eq (g := g) (r := r)
      (fun h => hg (mem_cons_of_mem _ (mem_cons_of_mem _ h)))
      (fun s n h => hnone s n (mem_cons_of_mem _ h))
    refine ⟨'$' :: u, fun r => ⟨fun mapping => ?_, (hu r).2.trans (suffix_cons _ _)⟩⟩
    simp [(hu r).1]
  | reference n r hn => exact absurd (by simp) hg
  | opener g hg' =>
    -- together with the parenthesis it is a reference
    have hparts := parts_reference hg' r
    have hlen := hnone _ g (by
      rw [cons_append, cons_append, hparts]
      exact mem_cons_self)
    simp only [length_cons, length_append] at hlen
    omega
  | pair d g hd hd' =>
    obtain ⟨u, hu⟩ := exists_expand_eq (g := g) (r := r)
      (fun h => hg (mem_cons_of_mem _ (mem_cons_of_mem _ h)))
      (fun s n h => hnone s n (by
        rw [cons_append, cons_append, parts_pair hd hd']
        exact mem_cons_of_mem _ h))
    refine ⟨'$' :: d :: u, fun r => ?_⟩
    rw [cons_append, cons_append, parts_pair hd hd']
    refine ⟨fun mapping => ?_, (hu r).2.trans (suffix_cons _ _)⟩
    rw [expand_pair mapping hd hd', (hu r).1]
    rfl
  | plain c g hc =>
    obtain ⟨u, hu⟩ := exists_expand_eq (g := g) (r := r)
      (fun h => hg (mem_cons_of_mem _ h))
      (fun s n h => hnone s n (by
        rw [cons_append, parts_plain hc]
        exact mem_cons_of_mem _ h))
    refine ⟨c :: u, fun r => ?_⟩
    rw [cons_append, parts_plain hc]
    refine ⟨fun mapping => ?_, (hu r).2.trans (suffix_cons _ _)⟩
    rw [expand_plain mapping hc, (hu r).1]
    rfl
termination_by g.length

end Expansion
