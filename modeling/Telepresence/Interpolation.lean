import Telepresence.Lib.Expansion

/-!
# Prefixed references

`prefixInterpolated` of `pkg/agentconfig/container.go` prefixes the names of the
variables that a text refers to.  It is a machine of three states, which keeps
the name that it is reading in a second builder.  `prefixInterpolated_eq` says
what it computes.
-/

namespace Telepresence.AgentConfig

open Expansion List

/-! ## The code -/

/-- The states of `prefixInterpolated`. -/
inductive ScanState where
  | normal | dollarSeen | dollarParenSeen

/-- The variables `st`, `bd` and `ev`. -/
structure Scanner where
  st : ScanState := .normal
  bd : Text := []
  ev : Text := []

/-- The body of the loop. -/
def Scanner.next (pfx : Text) (s : Scanner) (c : Char) : Scanner :=
  match c, s.st with
  | '$', .dollarParenSeen => ⟨.dollarSeen, s.bd ++ s.ev ++ ['$'], []⟩
  | '$', .dollarSeen => { s with st := .normal, bd := s.bd ++ ['$'] }
  | '$', .normal => { s with st := .dollarSeen, bd := s.bd ++ ['$'] }
  | '(', .dollarParenSeen => ⟨.normal, s.bd ++ s.ev ++ ['('], []⟩
  | '(', .dollarSeen => { s with st := .dollarParenSeen, bd := s.bd ++ ['('] }
  | '(', .normal => { s with st := .normal, bd := s.bd ++ ['('] }
  | ')', .dollarParenSeen =>
      if s.ev.length > 0 then ⟨.normal, s.bd ++ pfx ++ s.ev ++ [')'], []⟩
      else { s with st := .normal, bd := s.bd ++ [')'] }
  | ')', _ => { s with st := .normal, bd := s.bd ++ [')'] }
  | c, .dollarParenSeen => { s with ev := s.ev ++ [c] }
  | c, _ => { s with st := .normal, bd := s.bd ++ [c] }

/-- What has been built at the end. -/
def Scanner.result (s : Scanner) : Text := if s.ev.length > 0 then s.bd ++ s.ev else s.bd

/-- `prefixInterpolated`. -/
def prefixInterpolated (str pfx : String) : String :=
  .ofList (str.toList.foldl (Scanner.next pfx.toList) {}).result

/-! ## What it is for -/

/-- The characters of a name. -/
def nameChar (c : Char) : Bool := c ≠ '$' && c ≠ '(' && c ≠ ')'

/-- A name that is not empty, and a closing parenthesis. -/
def nameFollows (cs : Text) : Bool :=
  !(cs.takeWhile nameChar).isEmpty && (cs.dropWhile nameChar).head? == some ')'

/-- Pairs of dollars are copied, the prefix is inserted after the opening
parenthesis of a reference, and everything else is copied. -/
def prefixReferences (pfx : Text) : Text → Text
  | '$' :: '$' :: cs => '$' :: '$' :: prefixReferences pfx cs
  | '$' :: '(' :: cs =>
      '$' :: '(' :: ((if nameFollows cs then pfx else []) ++ prefixReferences pfx cs)
  | c :: cs => c :: prefixReferences pfx cs
  | [] => []

variable {pfx cs : Text} {c : Char}

theorem prefixReferences_of_ne (hc : c ≠ '$') :
    prefixReferences pfx (c :: cs) = c :: prefixReferences pfx cs := by
  rw [prefixReferences]
  all_goals
    intro _ h
    cases h
    exact absurd rfl hc

theorem prefixReferences_dollar (hc : c ≠ '$') (hc' : c ≠ '(') :
    prefixReferences pfx ('$' :: c :: cs) = '$' :: c :: prefixReferences pfx cs := by
  rw [prefixReferences, prefixReferences_of_ne hc]
  all_goals
    intro _ _ h
    cases h
    contradiction

theorem Scanner.result_eq (s : Scanner) : s.result = s.bd ++ s.ev := by
  unfold Scanner.result
  split
  · rfl
  · simp_all

/-- A name may have been read in part. -/
theorem nameFollows_append {n : Text} (hn : n.all nameChar) (cs : Text) :
    nameFollows (n ++ cs) =
      (!(n ++ cs.takeWhile nameChar).isEmpty && (cs.dropWhile nameChar).head? == some ')') := by
  rw [all_eq_true] at hn
  rw [nameFollows, takeWhile_append_of_pos hn, dropWhile_append_of_pos hn]

/-- **The three states.**  In the second one the dollar has been written, and in
the third one the name that has been read is still to be written. -/
theorem scan_eq (pfx cs : Text) :
    (∀ bd, (cs.foldl (Scanner.next pfx) ⟨.normal, bd, []⟩).result = bd ++ prefixReferences pfx cs) ∧
      (∀ bd, (cs.foldl (Scanner.next pfx) ⟨.dollarSeen, bd ++ ['$'], []⟩).result =
        bd ++ prefixReferences pfx ('$' :: cs)) ∧
      ∀ bd n, n.all nameChar → (cs.foldl (Scanner.next pfx) ⟨.dollarParenSeen, bd, n⟩).result =
        bd ++ (if nameFollows (n ++ cs) then pfx else []) ++ (n ++ prefixReferences pfx cs) := by
  induction cs with
  | nil =>
    refine ⟨fun bd => ?_, fun bd => ?_, fun bd n hn => ?_⟩
    · simp [Scanner.result_eq, prefixReferences]
    · simp [Scanner.result_eq, prefixReferences]
    · rw [nameFollows_append hn]
      simp [Scanner.result_eq, prefixReferences]
  | cons c cs ih =>
    obtain ⟨hnormal, hdollar, hparen⟩ := ih
    rcases eq_or_ne c '$' with rfl | hd
    · refine ⟨hdollar, fun bd => ?_, fun bd n hn => ?_⟩
      · simp [Scanner.next, hnormal, prefixReferences]
      · rw [nameFollows_append hn]
        simpa [Scanner.next, nameChar] using hdollar (bd ++ n)
    rcases eq_or_ne c '(' with rfl | ho
    · refine ⟨fun bd => ?_, fun bd => ?_, fun bd n hn => ?_⟩
      · simp [Scanner.next, hnormal, prefixReferences_of_ne hd]
      · simpa [Scanner.next, prefixReferences] using hparen (bd ++ ['$', '(']) [] rfl
      · rw [nameFollows_append hn]
        simp [Scanner.next, nameChar, hnormal, prefixReferences_of_ne hd]
    rcases eq_or_ne c ')' with rfl | hc
    · refine ⟨fun bd => ?_, fun bd => ?_, fun bd n hn => ?_⟩
      · simp [Scanner.next, hnormal, prefixReferences_of_ne hd]
      · simp [Scanner.next, hnormal, prefixReferences_dollar hd ho]
      · rw [nameFollows_append hn]
        cases n <;> simp [Scanner.next, nameChar, hnormal, prefixReferences_of_ne hd]
    · have hname : nameChar c = true := by simp [nameChar, hd, ho, hc]
      refine ⟨fun bd => ?_, fun bd => ?_, fun bd n hn => ?_⟩
      · simp [Scanner.next, hd, ho, hnormal, prefixReferences_of_ne hd]
      · simp [Scanner.next, hd, ho, hnormal, prefixReferences_dollar hd ho]
      · simp [Scanner.next, hparen, hn, hname, prefixReferences_of_ne hd]

/-- **`prefixInterpolated` prefixes the references** and nothing else. -/
theorem prefixInterpolated_eq (str pfx : String) :
    prefixInterpolated str pfx = .ofList (prefixReferences pfx.toList str.toList) := by
  rw [prefixInterpolated, (scan_eq _ _).1, nil_append]

end Telepresence.AgentConfig
