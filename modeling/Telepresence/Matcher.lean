import Telepresence.Lib.Maps
import Telepresence.Lib.Regexp
import Telepresence.Lib.Strings

/-!
# Matchers for paths, headers and requests

The package `pkg/matcher`.  A value matches a string exactly, by prefix or by
a regular expression; a path filter is a value with its kind written in front
of it; a request matcher has a list of paths, of which one has to match, and a
map of headers, of which all have to.
-/

namespace Telepresence.Matcher

open Regexp Strings

variable {u : Unicode}

/-- `rxValue`: an expression that compiles. -/
structure RxValue (u : Unicode) where
  pattern : String
  re : Re
  compiled : compile u pattern = some re

/-- `matcher.Value`. -/
inductive Value (u : Unicode) where
  | text (value : String)
  | rx (value : RxValue u)
  | pfx (value : String)

/-- The operators of values. -/
inductive ValueOp where
  | equal | regex | pfx
  deriving DecidableEq

/-- `Value.Op`. -/
def Value.op : Value u → ValueOp
  | text _ => .equal
  | rx _ => .regex
  | pfx _ => .pfx

/-- `Value.String`. -/
def Value.string : Value u → String
  | text value => value
  | rx value => value.pattern
  | pfx value => value

/-- `Value.Matches`. -/
def Value.matches : Value u → String → Bool
  | text value, s => value == s
  | rx value, s => s != "" && matchString u value.re s
  | pfx value, s => hasPrefix s value

/-- `NewEqual`. -/
def newEqual (v : String) : Value u := .text v

/-- `NewPrefix`. -/
def newPrefix (v : String) : Value u := .pfx v

/-- `NewRegex`: a string that does not compile is matched exactly. -/
def newRegex (v : String) : Value u :=
  match h : compile u v with
  | some re => .rx ⟨v, re, h⟩
  | none => newEqual v

/-- `NewValue`. -/
def newValue (v : String) : Value u :=
  if quoteMeta v = v then newEqual v else newRegex v

/-! ## Paths -/

/-- The path filters of a request; one of them has to match. -/
abbrev Paths (u : Unicode) := List (Value u)

/-- The kind of a path filter for a fixed path. -/
def pathEqual : String := ":path-equal:"
/-- The kind of a path filter for a prefix. -/
def pathPrefix : String := ":path-prefix:"
/-- The kind of a path filter for an expression. -/
def pathRegex : String := ":path-regex:"

/-- `splitPath`: the kind of a path filter, colons included, and its value. -/
def splitPath (path : String) : String × String :=
  match path.toList with
  | ':' :: rest =>
      let nxt := rest.idxOf ':'
      if 0 < nxt ∧ nxt < rest.length then
        (String.ofList (path.toList.take (nxt + 2)), String.ofList (path.toList.drop (nxt + 2)))
      else (pathEqual, path)
  | _ => (pathEqual, path)

/-- `PathValue`. -/
def pathValue (path : String) : Value u :=
  let (p, v) := splitPath path
  if p = pathPrefix then newPrefix v
  else if p = pathRegex then newRegex v
  else newEqual v

/-- `NewPaths`. -/
def newPaths (paths : List String) : Paths u := paths.map pathValue

/-- `Paths.Matches`. -/
def pathsMatch (ps : Paths u) (path : String) : Bool :=
  ps.isEmpty || ps.any (·.matches path)

/-! ## Headers -/

/-- A Go map from strings. -/
abbrev StringMap (β : Type) := GoMap String β

/-- The characters of a token: letters, digits and some punctuation. -/
def validHeaderFieldByte (c : Char) : Bool :=
  c.isAlphanum || c ∈ ['!', '#', '$', '%', '&', '\'', '*', '+', '-', '.', '^', '_', '\x60', '|', '~']

/-- The first letter and those after a dash are upper case, the others lower case. -/
def canonicalChars (upper : Bool) : List Char → List Char
  | [] => []
  | c :: cs => (if upper then c.toUpper else c.toLower) :: canonicalChars (c == '-') cs

/-- `textproto.CanonicalMIMEHeaderKey`: a name that is no token stays as it
is. -/
def canonicalMIMEHeaderKey (s : String) : String :=
  if s.toList.all validHeaderFieldByte then String.ofList (canonicalChars true s.toList) else s

/-- `matcher.HeaderMap`. -/
abbrev HeaderMap (u : Unicode) := StringMap (Value u)

/-- `NewHeaders`. -/
def newHeaders (hs : StringMap String) : HeaderMap u :=
  hs.entries.foldl (fun hm e => hm.insert (canonicalMIMEHeaderKey e.1) (newValue e.2)) ∅

/-- `http.Header`, its keys canonical. -/
abbrev Header := StringMap (List String)

/-- `Header.Get`. -/
def Header.get (h : Header) (name : String) : String :=
  ((h.lookup (canonicalMIMEHeaderKey name)).getD []).headD ""

/-- `HeaderMap.Matches`. -/
def headersMatch (m : HeaderMap u) (h : Header) : Bool :=
  m.entries.all fun e => e.2.matches (Header.get h e.1)

/-! ## Requests -/

/-- `matcher.request`. -/
structure Request (u : Unicode) where
  paths : Paths u
  headers : HeaderMap u

/-- `NewRequest`. -/
def newRequest (paths : List String) (hdrs : StringMap String) : Request u where
  paths := newPaths paths
  headers := newHeaders hdrs

/-- `MatchesPathAndHeader`. -/
def Request.matchesPathAndHeader (r : Request u) (path : String) (header : Header) : Bool :=
  pathsMatch r.paths path && (r.headers.entries.isEmpty || headersMatch r.headers header)

end Telepresence.Matcher
