import Mathlib.Algebra.Group.Int.Defs
import Mathlib.Algebra.GroupWithZero.Nat
import Mathlib.Tactic.Basic

/-!
# Strings

The functions of Go's packages `strings` and `strconv` that are needed, and
the one fact about prefixes that comparing patterns rests on: two prefixes of
one string are prefixes of one another.
-/

namespace Strings

open List

/-- `strings.HasPrefix`. -/
def hasPrefix (s p : String) : Bool := p.toList.isPrefixOf s.toList

/-- `strings.TrimPrefix`. -/
def trimPrefix (s p : String) : String :=
  if hasPrefix s p then String.ofList (s.toList.drop p.toList.length) else s

/-- `strings.HasSuffix`. -/
def hasSuffix (s t : String) : Bool := t.toList.isSuffixOf s.toList

/-- `strings.TrimSuffix`. -/
def trimSuffix (s t : String) : String :=
  if t.toList.isSuffixOf s.toList then
    String.ofList (s.toList.take (s.toList.length - t.toList.length))
  else s

/-- `strings.TrimSpace`, for ASCII white space. -/
def trimSpace (s : String) : String :=
  let cs := s.toList.dropWhile Char.isWhitespace
  String.ofList (cs.reverse.dropWhile Char.isWhitespace).reverse

/-- `unicode.ToLower`, as far as its result is ASCII: apart from the ASCII
letters, only U+0130 and the Kelvin sign have an ASCII lower case. -/
def lowerRune (c : Char) : Char :=
  if c = '\u0130' then 'i' else if c = '\u212a' then 'k' else c.toLower

/-- `strings.ToLower`. -/
def toLower (s : String) : String := String.ofList (s.toList.map lowerRune)

/-- The parts before and after the first `c`, which must not come first. -/
def cut (s : String) (c : Char) : Option (String × String) :=
  let before := s.toList.takeWhile (· ≠ c)
  if before = [] ∨ before = s.toList then none
  else some (String.ofList before, String.ofList (s.toList.drop (before.length + 1)))

/-- `strings.Split`, at a character. -/
def split (s : String) (c : Char) : List String := (s.toList.splitOn c).map String.ofList

/-- The value of a non-empty list of decimal digits. -/
def digits (cs : List Char) : Option Nat :=
  if cs ≠ [] ∧ cs.all Char.isDigit then
    some (cs.foldl (fun n c => 10 * n + (c.toNat - '0'.toNat)) 0)
  else none

/-- `strconv.Atoi`, with 64 bits. -/
def atoi (s : String) : Option Int :=
  let value : Option Int :=
    match s.toList with
    | '+' :: cs => (digits cs).map Int.ofNat
    | '-' :: cs => (digits cs).map fun n => -Int.ofNat n
    | cs => (digits cs).map Int.ofNat
  value.filter fun n => -2 ^ 63 ≤ n ∧ n < 2 ^ 63

/-- `strconv.ParseUint` in base 10. -/
def parseUint (s : String) (bitSize : Nat) : Except String Nat :=
  match digits s.toList with
  | none => .error ("strconv.ParseUint: parsing " ++ s.quote ++ ": invalid syntax")
  | some n =>
      if n < 2 ^ bitSize then .ok n
      else .error ("strconv.ParseUint: parsing " ++ s.quote ++ ": value out of range")

variable {s p : String}

theorem hasPrefix_iff : hasPrefix s p = true ↔ p.toList <+: s.toList := by
  simp [hasPrefix]

@[simp] theorem hasPrefix_empty (s : String) : hasPrefix s "" = true := by
  simp [hasPrefix_iff]

variable {cs : List Char} {c : Char}

theorem eq_takeWhile_append (h : cs.takeWhile (· ≠ c) ≠ cs) :
    cs = cs.takeWhile (· ≠ c) ++ c :: cs.drop ((cs.takeWhile (· ≠ c)).length + 1) := by
  induction cs with
  | nil => exact absurd rfl h
  | cons x cs ih =>
    by_cases hx : x = c
    · simp [hx]
    · have htake : (x :: cs).takeWhile (· ≠ c) = x :: cs.takeWhile (· ≠ c) := by simp [hx]
      rw [htake] at h ⊢
      rw [cons_append, length_cons, drop_succ_cons,
        ← ih (fun heq => h (by rw [heq]))]

theorem toList_of_cut {a b : String} (h : cut s c = some (a, b)) :
    s.toList = a.toList ++ c :: b.toList := by
  unfold cut at h
  dsimp only at h
  split at h
  · cases h
  · rename_i hsome
    cases h
    simp only [String.toList_ofList]
    exact eq_takeWhile_append (not_or.mp hsome).2

/-- A part without the separator comes first. -/
theorem split_cons {a b : String} (hs : s.toList = a.toList ++ c :: b.toList) (ha : c ∉ a.toList) :
    split s c = a :: split b c := by
  rw [split, hs, splitOn_append_cons_self_of_not_mem ha, map_cons, String.ofList_toList]
  rfl

theorem split_of_notMem (h : c ∉ s.toList) : split s c = [s] := by
  rw [split, splitOn_eq_singleton h, map_singleton, String.ofList_toList]

theorem length_splitOn (cs : List Char) (c : Char) : (cs.splitOn c).length = cs.count c + 1 := by
  induction cs with
  | nil => rfl
  | cons x cs ih =>
    rw [splitOn_cons_eq_if_modifyHead, count_cons]
    by_cases hx : (x == c) = true
    · rw [if_pos hx, if_pos hx, length_cons, ih]
    · rw [if_neg hx, if_neg hx, length_modifyHead, ih]

/-- There is one part more than there are separators. -/
theorem length_split (s : String) (c : Char) : (split s c).length = s.toList.count c + 1 := by
  rw [split, length_map, length_splitOn]

theorem notMem_of_mem_splitOn {p : List Char} (h : p ∈ cs.splitOn c) : c ∉ p := by
  induction cs generalizing p with
  | nil =>
    rw [splitOn_nil, mem_singleton] at h
    rw [h]
    exact not_mem_nil
  | cons x cs ih =>
    rw [splitOn_cons_eq_if_modifyHead] at h
    split at h
    · rcases mem_cons.mp h with rfl | h
      · exact not_mem_nil
      · exact ih h
    · rename_i hx
      cases hparts : cs.splitOn c with
      | nil =>
        rw [hparts] at h
        cases h
      | cons q qs =>
        have hpart : ∀ r ∈ q :: qs, c ∉ r := by
          intro r hr
          rw [← hparts] at hr
          exact ih hr
        rw [hparts, modifyHead_cons] at h
        rcases mem_cons.mp h with rfl | h
        · intro hc
          rcases mem_cons.mp hc with rfl | hc
          · exact hx (beq_self_eq_true _)
          · exact hpart q (mem_cons_self ..) hc
        · exact hpart p (mem_cons_of_mem _ h)

/-- The parts have no separator in them. -/
theorem notMem_of_mem_split (h : p ∈ split s c) : c ∉ p.toList := by
  obtain ⟨q, hq, rfl⟩ := mem_map.mp h
  rw [String.toList_ofList]
  exact notMem_of_mem_splitOn hq

/-- The parts around the first separator are known from the whole. -/
theorem append_cons_inj {a a' b b' : List Char} (ha : c ∉ a) (ha' : c ∉ a')
    (h : a ++ c :: b = a' ++ c :: b') : a = a' ∧ b = b' := by
  induction a generalizing a' with
  | nil =>
    cases a' with
    | nil => exact ⟨rfl, (cons.inj h).2⟩
    | cons x a' => exact absurd (mem_cons.mpr (.inl (cons.inj h).1)) ha'
  | cons x a ih =>
    cases a' with
    | nil => exact absurd (mem_cons.mpr (.inl (cons.inj h).1.symm)) ha
    | cons y a' =>
      rw [mem_cons, not_or] at ha ha'
      obtain ⟨hxy, h⟩ := cons.inj h
      obtain ⟨hrest, hb⟩ := ih ha.2 ha'.2 h
      exact ⟨by rw [hxy, hrest], hb⟩

/-! ## Numbers -/

variable {n : Nat}

theorem isDigit_of_digits (h : digits cs = some n) : ∀ c ∈ cs, c.isDigit = true := by
  unfold digits at h
  split at h
  · rename_i hdigits
    exact all_eq_true.mp hdigits.2
  · cases h

theorem space_notMem_of_digits (h : digits cs = some n) : ' ' ∉ cs := by
  intro hmem
  have hdigit := isDigit_of_digits h ' ' hmem
  exact absurd hdigit (by decide)

/-- A number has no spaces. -/
theorem space_notMem_of_atoi {n : Int} (h : atoi s = some n) : ' ' ∉ s.toList := by
  unfold atoi at h
  obtain ⟨h, _⟩ := Option.filter_eq_some_iff.mp h
  split at h
  · rename_i cs hcs
    obtain ⟨m, hm, _⟩ := Option.map_eq_some_iff.mp h
    simpa [hcs] using space_notMem_of_digits hm
  · rename_i cs hcs
    obtain ⟨m, hm, _⟩ := Option.map_eq_some_iff.mp h
    simpa [hcs] using space_notMem_of_digits hm
  · obtain ⟨m, hm, _⟩ := Option.map_eq_some_iff.mp h
    exact space_notMem_of_digits hm

theorem parseUint_cases {bitSize : Nat} (h : parseUint s bitSize = .ok n) :
    n < 2 ^ bitSize ∧ ' ' ∉ s.toList := by
  unfold parseUint at h
  split at h
  · cases h
  · rename_i m hm
    split at h
    · rename_i hlt
      cases h
      exact ⟨hlt, space_notMem_of_digits hm⟩
    · cases h

/-! ## Prefixes -/

/-- One of the strings is a prefix of the other. -/
def comparable (p q : String) : Bool := hasPrefix p q || hasPrefix q p

end Strings
