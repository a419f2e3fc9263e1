import Mathlib.Tactic.Basic

/-!
# Regular expressions

The syntax accepted by Go's `regexp` package (RE2's, with Perl's flags) and
the question `MatchString` answers: is there a match anywhere in the text?

An expression is parsed in one pass with a stack, as the package does it.
Runes are numbers, because an escape can name a code point that is no
character.  What the package takes from the Unicode tables is a parameter, and
its limits on the size of an expression (other than the one on repetition
counts) are left out.
-/

namespace Regexp

/-- What the Unicode tables say. -/
structure Unicode where
  /-- The ranges of a category or script, by its name. -/
  table : String → Option (List (Nat × Nat))
  /-- The other runes of a rune's simple case folding orbit. -/
  fold : Nat → List Nat

/-- Tables without any entry, for expressions that need none. -/
def noTables : Unicode := ⟨fun _ => none, fun _ => []⟩

/-- One element of a character class, `(?i)` being in force or not. -/
structure ClassItem where
  negated : Bool
  foldCase : Bool
  ranges : List (Nat × Nat)
  deriving DecidableEq

/-- A character class. -/
structure CharClass where
  negated : Bool
  items : List ClassItem
  deriving DecidableEq

/-- A condition on a position of the text. -/
inductive Assertion where
  | beginText | endText | beginLine | endLine | wordBoundary | noWordBoundary
  deriving DecidableEq

/-- A parsed expression.  `counted` tells `x{n,m}` from `x*`, `x+` and `x?`. -/
inductive Re where
  | empty
  | charClass (c : CharClass)
  | assert (a : Assertion)
  | cat (r s : Re)
  | alt (r s : Re)
  | repeat (counted : Bool) (r : Re) (min : Nat) (max : Option Nat)
  deriving DecidableEq

/-! ## Matching -/

/-- A place in a text: the runes before it, last one first, and those after. -/
structure Cursor where
  before : List Nat
  after : List Nat
  deriving DecidableEq

/-- The rune is in one of the ranges. -/
def inRanges (ranges : List (Nat × Nat)) (r : Nat) : Bool :=
  ranges.any fun range => range.1 ≤ r && r ≤ range.2

/-- The rune is one of the item. -/
def ClassItem.contains (u : Unicode) (item : ClassItem) (r : Nat) : Bool :=
  (inRanges item.ranges r ||
    item.foldCase && (u.fold r).any (inRanges item.ranges)) != item.negated

/-- The rune is one of the class. -/
def CharClass.contains (u : Unicode) (c : CharClass) (r : Nat) : Bool :=
  c.items.any (·.contains u r) != c.negated

/-- The runes of `\w`. -/
def wordRanges : List (Nat × Nat) := [(48, 57), (65, 90), (95, 95), (97, 122)]

/-- There is a rune, and it is one of `\w`. -/
def isWord (r : Option Nat) : Bool := r.any (inRanges wordRanges)

/-- The condition holds at a position. -/
def Assertion.holds (p : Cursor) : Assertion → Bool
  | beginText => p.before.isEmpty
  | endText => p.after.isEmpty
  | beginLine => p.before.head?.all (· == 10)
  | endLine => p.after.head?.all (· == 10)
  | wordBoundary => isWord p.before.head? != isWord p.after.head?
  | noWordBoundary => isWord p.before.head? == isWord p.after.head?

/-- Exactly `n` rounds. -/
def rounds (f : Cursor → List Cursor) : Nat → Cursor → List Cursor
  | 0, p => [p]
  | n + 1, p => (f p).flatMap (rounds f n)

/-- At most `n` rounds that make progress. -/
def upTo (f : Cursor → List Cursor) : Nat → Cursor → List Cursor
  | 0, p => [p]
  | n + 1, p =>
      p :: ((f p).filter fun q => q.after.length < p.after.length).flatMap (upTo f n)

/-- Where a match of the expression that starts at a place can end. -/
def ends (u : Unicode) : Re → Cursor → List Cursor
  | .empty, p => [p]
  | .charClass c, p =>
      match p.after with
      | [] => []
      | r :: rest => if c.contains u r then [⟨r :: p.before, rest⟩] else []
  | .assert a, p => if a.holds p then [p] else []
  | .cat r s, p => (ends u r p).flatMap (ends u s)
  | .alt r s, p => ends u r p ++ ends u s p
  | .repeat _ r min max, p =>
      (rounds (ends u r) min p).flatMap fun q =>
        upTo (ends u r) ((max.map (· - min)).getD q.after.length) q

/-- There is a match at this place or a later one. -/
def searchFrom (u : Unicode) (re : Re) (before : List Nat) : List Nat → Bool
  | [] => ends u re ⟨before, []⟩ != []
  | r :: rest =>
      ends u re ⟨before, r :: rest⟩ != [] || searchFrom u re (r :: before) rest

/-- The runes of a string. -/
def runes (s : String) : List Nat := s.toList.map Char.toNat

/-- `Regexp.MatchString`. -/
def matchString (u : Unicode) (re : Re) (s : String) : Bool :=
  searchFrom u re [] (runes s)

/-! ## Parsing -/

/-- The flags `i`, `m`, `s` and `U`. -/
structure Flags where
  foldCase : Bool := false
  multiLine : Bool := false
  dotNL : Bool := false
  nonGreedy : Bool := false
  deriving DecidableEq

/-- The value of a digit. -/
def digit? (base : Nat) (c : Char) : Option Nat :=
  let v :=
    if '0' ≤ c ∧ c ≤ '9' then some (c.toNat - '0'.toNat)
    else if 'a' ≤ c ∧ c ≤ 'f' then some (c.toNat - 'a'.toNat + 10)
    else if 'A' ≤ c ∧ c ≤ 'F' then some (c.toNat - 'A'.toNat + 10)
    else none
  v.filter (· < base)

/-- The number with these digits, most significant first. -/
def ofDigits (base : Nat) (ds : List Char) : Option Nat :=
  ds.foldlM (fun n c => (digit? base c).map (n * base + ·)) 0

/-- Split a list at the first occurrence of a sublist, which is dropped. -/
def cut (sep : List Char) : List Char → Option (List Char × List Char)
  | [] => none
  | c :: rest =>
      if sep.isPrefixOf (c :: rest) then some ([], (c :: rest).drop sep.length)
      else (cut sep rest).map fun (a, b) => (c :: a, b)

/-- What follows a backslash and stands for one rune. -/
def parseEscape : List Char → Option (Nat × List Char)
  | 'a' :: t => some (7, t)
  | 'f' :: t => some (12, t)
  | 'n' :: t => some (10, t)
  | 'r' :: t => some (13, t)
  | 't' :: t => some (9, t)
  | 'v' :: t => some (11, t)
  | 'x' :: '\x7b' :: t => do
      let (ds, rest) ← cut ['\x7d'] t
      guard (ds ≠ [])
      let r ← ofDigits 16 ds
      guard (r ≤ 0x10FFFF)
      return (r, rest)
  | 'x' :: a :: b :: t => (ofDigits 16 [a, b]).map (·, t)
  | c :: t =>
      if (digit? 8 c).isSome then do
        let ds := c :: (t.take 2).takeWhile fun d => (digit? 8 d).isSome
        -- a single digit other than zero would be a back reference
        guard (c = '0' ∨ 1 < ds.length)
        let r ← ofDigits 8 ds
        return (r, t.drop (ds.length - 1))
      else if c.toNat < 128 ∧ ¬ c.isAlphanum then some (c.toNat, t)
      else none
  | [] => none

/-- The classes `\d`, `\s` and `\w`, and their complements. -/
def perlClass (flags : Flags) (c : Char) : Option ClassItem :=
  match c with
  | 'd' => some ⟨false, flags.foldCase, [(48, 57)]⟩
  | 'D' => some ⟨true, flags.foldCase, [(48, 57)]⟩
  | 's' => some ⟨false, flags.foldCase, [(9, 10), (12, 13), (32, 32)]⟩
  | 'S' => some ⟨true, flags.foldCase, [(9, 10), (12, 13), (32, 32)]⟩
  | 'w' => some ⟨false, flags.foldCase, wordRanges⟩
  | 'W' => some ⟨true, flags.foldCase, wordRanges⟩
  | _ => none

/-- The ranges of `[:name:]`. -/
def posixClass (name : String) : Option (List (Nat × Nat)) :=
  [("alnum", [(48, 57), (65, 90), (97, 122)]), ("alpha", [(65, 90), (97, 122)]),
    ("ascii", [(0, 127)]), ("blank", [(9, 9), (32, 32)]), ("cntrl", [(0, 31), (127, 127)]),
    ("digit", [(48, 57)]), ("graph", [(33, 126)]), ("lower", [(97, 122)]),
    ("print", [(32, 126)]), ("punct", [(33, 47), (58, 64), (91, 96), (123, 126)]),
    ("space", [(9, 13), (32, 32)]), ("upper", [(65, 90)]), ("word", wordRanges),
    ("xdigit", [(48, 57), (65, 70), (97, 102)])].lookup name

/-- A class known by a name, which a leading `^` negates. -/
def namedClass (table : String → Option (List (Nat × Nat))) (flags : Flags) (negated : Bool)
    (name : List Char) : Option ClassItem :=
  match name with
  | '^' :: name => (table (String.ofList name)).map (⟨!negated, flags.foldCase, ·⟩)
  | name => (table (String.ofList name)).map (⟨negated, flags.foldCase, ·⟩)

/-- What follows `\p` or `\P`. -/
def unicodeClass (u : Unicode) (flags : Flags) (negated : Bool) :
    List Char → Option (ClassItem × List Char)
  | '\x7b' :: t => do
      let (name, rest) ← cut ['\x7d'] t
      return (← namedClass u.table flags negated name, rest)
  | c :: t => do return (← namedClass u.table flags negated [c], t)
  | [] => none

/-- One end of a range in a character class. -/
def classChar : List Char → Option (Nat × List Char)
  | '\\' :: t => parseEscape t
  | c :: t => some (c.toNat, t)
  | [] => none

/-- A rune or a range of runes in a character class. -/
def classRange (flags : Flags) (t : List Char) : Option (ClassItem × List Char) := do
  let (lo, t) ← classChar t
  match t with
  | '-' :: c :: t' =>
      if c = ']' then return (⟨false, flags.foldCase, [(lo, lo)]⟩, t)
      let (hi, t) ← classChar (c :: t')
      guard (lo ≤ hi)
      return (⟨false, flags.foldCase, [(lo, hi)]⟩, t)
  | t => return (⟨false, flags.foldCase, [(lo, lo)]⟩, t)

/-- One element of a character class. -/
def classItem (u : Unicode) (flags : Flags) (t : List Char) : Option (ClassItem × List Char) :=
  match t with
  | '[' :: ':' :: t' =>
      match cut [':', ']'] t' with
      | some (name, rest) => do return (← namedClass posixClass flags false name, rest)
      | none => classRange flags t
  | '\\' :: 'p' :: t => unicodeClass u flags false t
  | '\\' :: 'P' :: t => unicodeClass u flags true t
  | '\\' :: c :: t' =>
      match perlClass flags c with
      | some item => some (item, t')
      | none => classRange flags t
  | t => classRange flags t

/-- The elements of a character class up to its closing bracket, which is an
element itself where it comes first. -/
def classItems (u : Unicode) (flags : Flags) :
    Nat → Bool → List Char → Option (List ClassItem × List Char)
  | 0, _, _ => none
  | fuel + 1, first, t =>
      match t, first with
      | ']' :: t, false => some ([], t)
      | t, _ => do
          let (item, t) ← classItem u flags t
          let (items, t) ← classItems u flags fuel false t
          return (item :: items, t)

/-- What follows an opening bracket. -/
def parseClass (u : Unicode) (flags : Flags) (t : List Char) : Option (Re × List Char) :=
  match t with
  | '^' :: t => (classItems u flags (t.length + 1) true t).map fun (items, t) =>
      (.charClass ⟨true, items⟩, t)
  | t => (classItems u flags (t.length + 1) true t).map fun (items, t) =>
      (.charClass ⟨false, items⟩, t)

/-- A number without leading zeros. -/
def parseInt (t : List Char) : Option (Nat × List Char) := do
  let ds := t.takeWhile Char.isDigit
  guard (ds ≠ [] ∧ (ds.head? = some '0' → ds.length = 1))
  return (← ofDigits 10 ds, t.drop ds.length)

/-- What follows an opening brace, if it is a repetition count. -/
def parseRepeat (t : List Char) : Option (Nat × Option Nat × List Char) := do
  let (min, t) ← parseInt t
  match t with
  | '\x7d' :: t => return (min, some min, t)
  | ',' :: '\x7d' :: t => return (min, none, t)
  | ',' :: t =>
      let (max, t) ← parseInt t
      match t with
      | '\x7d' :: t => return (min, some max, t)
      | _ => none
  | _ => none

/-- Nested counts multiply to at most `n`. -/
def repeatIsValid : Re → Nat → Bool
  | .empty, _ | .charClass _, _ | .assert _, _ => true
  | .cat r s, n | .alt r s, n => repeatIsValid r n && repeatIsValid s n
  | .repeat false r _ _, n => repeatIsValid r n
  | .repeat true r min max, n =>
      max == some 0 ||
        (max.getD min ≤ n &&
          repeatIsValid r (if max.getD min = 0 then n else n / max.getD min))

/-- An open group: the flags to return to when it is closed, the alternatives
that are complete and the factors of the current one, last ones first. -/
structure Frame where
  flags : Flags
  alts : List Re := []
  factors : List Re := []

/-- The factors as one expression. -/
def concat (factors : List Re) : Re :=
  match factors with
  | [] => .empty
  | r :: rs => rs.foldl (fun acc s => .cat s acc) r

/-- The expression of a group that is closed. -/
def Frame.close (f : Frame) : Re :=
  f.alts.foldl (fun acc s => .alt s acc) (concat f.factors)

/-- What the parser has read so far. -/
structure ParseState where
  flags : Flags
  frame : Frame
  outer : List Frame
  lastRepeat : Bool

/-- The parser before the first character. -/
def ParseState.init : ParseState := ⟨{}, { flags := {} }, [], false⟩

/-- Another factor has been read. -/
def ParseState.push (st : ParseState) (r : Re) : ParseState :=
  { st with
    frame := { st.frame with factors := r :: st.frame.factors }
    lastRepeat := false }

/-- A literal rune has been read. -/
def ParseState.literal (st : ParseState) (r : Nat) : ParseState :=
  st.push (.charClass ⟨false, [⟨false, st.flags.foldCase, [(r, r)]⟩]⟩)

/-- Apply a repetition to the last factor. -/
def ParseState.repeatLast (st : ParseState) (counted : Bool) (min : Nat) (max : Option Nat) :
    Option ParseState :=
  match st.frame.factors with
  | [] => none
  | r :: rs =>
      let re := .repeat counted r min max
      if st.lastRepeat then none
      else if counted ∧ (2 ≤ min ∨ 2 ≤ max.getD 0) ∧ ¬ repeatIsValid re 1000 then none
      else some { st with
        frame := { st.frame with factors := re :: rs }
        lastRepeat := true }

/-- A group begins. -/
def ParseState.openGroup (st : ParseState) (flags : Flags) : ParseState :=
  { flags := flags, frame := { flags := st.flags }, outer := st.frame :: st.outer,
    lastRepeat := false }

/-- A group ends. -/
def ParseState.closeGroup (st : ParseState) : Option ParseState :=
  match st.outer with
  | [] => none
  | f :: outer =>
      some { flags := st.frame.flags
             frame := { f with factors := st.frame.close :: f.factors }
             outer := outer
             lastRepeat := false }

/-- An alternative ends. -/
def ParseState.bar (st : ParseState) : ParseState :=
  { st with
    frame := { st.frame with alts := concat st.frame.factors :: st.frame.alts, factors := [] }
    lastRepeat := false }

/-- Set or clear a flag. -/
def setFlag (c : Char) (on : Bool) (flags : Flags) : Option Flags :=
  match c with
  | 'i' => some { flags with foldCase := on }
  | 'm' => some { flags with multiLine := on }
  | 's' => some { flags with dotNL := on }
  | 'U' => some { flags with nonGreedy := on }
  | _ => none

/-- The flags after `(?` and whether they open a group.  `saw` tells whether a
flag has been read since the sign. -/
def parseFlags (on saw : Bool) (flags : Flags) : List Char → Option (Flags × Bool × List Char)
  | [] => none
  | '-' :: t => if on then parseFlags false false flags t else none
  | ':' :: t => if on || saw then some (flags, true, t) else none
  | ')' :: t => if on || saw then some (flags, false, t) else none
  | c :: t => (setFlag c on flags).bind fun flags => parseFlags on true flags t

/-- A group with a name. -/
def parseName (st : ParseState) (t : List Char) : Option (ParseState × List Char) := do
  let (name, rest) ← cut ['>'] t
  guard (name ≠ [] ∧ name.all fun c => c.isAlphanum || c == '_')
  return (st.openGroup st.flags, rest)

/-- What follows `(?`. -/
def parsePerlGroup (st : ParseState) (t : List Char) : Option (ParseState × List Char) :=
  match t with
  | 'P' :: '<' :: t => parseName st t
  | '<' :: t => parseName st t
  | t => (parseFlags true false st.flags t).map fun (flags, opens, t) =>
      if opens then (st.openGroup flags, t)
      else ({ st with flags := flags, lastRepeat := false }, t)

/-- A repetition operator may be followed by `?`, which makes it lazy. -/
def dropLazy : List Char → List Char
  | '?' :: t => t
  | t => t

/-- What follows a backslash outside a character class. -/
def parseBackslash (u : Unicode) (st : ParseState) (t : List Char) : Option (ParseState × List Char) :=
  match t with
  | 'A' :: t => some (st.push (.assert .beginText), t)
  | 'b' :: t => some (st.push (.assert .wordBoundary), t)
  | 'B' :: t => some (st.push (.assert .noWordBoundary), t)
  | 'z' :: t => some (st.push (.assert .endText), t)
  | 'C' :: _ => none
  | 'Q' :: t =>
      let (lit, rest) := (cut ['\\', 'E'] t).getD (t, [])
      some (lit.foldl (fun st c => st.literal c.toNat) { st with lastRepeat := false }, rest)
  | 'p' :: t => (unicodeClass u st.flags false t).map fun (item, t) =>
      (st.push (.charClass ⟨false, [item]⟩), t)
  | 'P' :: t => (unicodeClass u st.flags true t).map fun (item, t) =>
      (st.push (.charClass ⟨false, [item]⟩), t)
  | t =>
      match t.head?.bind (perlClass st.flags) with
      | some item => some (st.push (.charClass ⟨false, [item]⟩), t.tail)
      | none => (parseEscape t).map fun (r, t) => (st.literal r, t)

/-- Parse one element of the expression. -/
def parseStep (u : Unicode) (st : ParseState) (c : Char) (t : List Char) :
    Option (ParseState × List Char) :=
  match c with
  | '(' =>
      match t with
      | '?' :: t => parsePerlGroup st t
      | t => some (st.openGroup st.flags, t)
  | '|' => some (st.bar, t)
  | ')' => st.closeGroup.map (·, t)
  | '^' => some (st.push (.assert (if st.flags.multiLine then .beginLine else .beginText)), t)
  | '$' => some (st.push (.assert (if st.flags.multiLine then .endLine else .endText)), t)
  | '.' =>
      let newline := if st.flags.dotNL then [] else [⟨false, false, [(10, 10)]⟩]
      some (st.push (.charClass ⟨true, newline⟩), t)
  | '[' => (parseClass u st.flags t).map fun (re, t) => (st.push re, t)
  | '*' => (st.repeatLast false 0 none).map (·, dropLazy t)
  | '+' => (st.repeatLast false 1 none).map (·, dropLazy t)
  | '?' => (st.repeatLast false 0 (some 1)).map (·, dropLazy t)
  | '\x7b' =>
      match parseRepeat t with
      | none => some (st.literal '\x7b'.toNat, t)
      | some (min, max, t) =>
          if 1000 < min ∨ 1000 < max.getD 0 ∨ max.any (· < min) then none
          else (st.repeatLast true min max).map (·, dropLazy t)
  | '\\' => parseBackslash u st t
  | c => some (st.literal c.toNat, t)

/-- Parse what is left of the expression. -/
def parseLoop (u : Unicode) : Nat → ParseState → List Char → Option Re
  | _, st, [] => if st.outer.isEmpty then some st.frame.close else none
  | 0, _, _ :: _ => none
  | fuel + 1, st, c :: t => (parseStep u st c t).bind fun (st, t) => parseLoop u fuel st t

/-- `regexp.Compile`, the error left out. -/
def compile (u : Unicode) (s : String) : Option Re :=
  parseLoop u s.toList.length ParseState.init s.toList

/-- The characters `regexp.QuoteMeta` escapes. -/
def isMeta (c : Char) : Bool :=
  c ∈ ['\\', '.', '+', '*', '?', '(', ')', '|', '[', ']', '\x7b', '\x7d', '^', '$']

/-- `regexp.QuoteMeta`. -/
def quoteMeta (s : String) : String :=
  String.ofList (s.toList.flatMap fun c => if isMeta c then ['\\', c] else [c])

end Regexp
