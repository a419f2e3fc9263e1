import Mathlib.Data.List.DropRight
import Telepresence.Lib.Strings

/-!
# Times and their RFC 3339 form

Go's `time.Time` as the date, the clock and the zone offset it is shown with,
and the text that `MarshalJSON` writes and `UnmarshalJSON` reads.

* The text has four digits for the year and whole minutes for the zone, so a
  time outside of the years 0 to 9999 or with a zone of a day or more is
  refused, and the seconds of a zone offset are lost.
* `unmarshalJSON_of_marshalJSON`: what is read back is the time without the
  seconds of its zone offset.
-/

namespace Times

open List Option

/-- The year has a 29th of February. -/
def isLeap (year : Int) : Bool := year % 4 == 0 && (year % 100 != 0 || year % 400 == 0)

/-- `daysIn`: the length of a month. -/
def daysIn (month : Nat) (year : Int) : Nat :=
  if month = 2 then if isLeap year then 29 else 28
  else if month = 4 ∨ month = 6 ∨ month = 9 ∨ month = 11 then 30 else 31

/-- The numbers that make up a date and a clock. -/
def Valid (year : Int) (month day hour minute second nanosecond : Nat) : Prop :=
  (1 ≤ month ∧ month ≤ 12) ∧ (1 ≤ day ∧ day ≤ daysIn month year) ∧ hour < 24 ∧ minute < 60 ∧
    second < 60 ∧ nanosecond < 10 ^ 9

instance (year : Int) (month day hour minute second nanosecond : Nat) :
    Decidable (Valid year month day hour minute second nanosecond) := by
  unfold Valid
  infer_instance

/-- A time, as its calendar and clock show it in a zone `offset` seconds east
of UTC.  Two of them with one offset are the same instant only if they are
equal. -/
structure Time where
  year : Int
  month : Nat
  day : Nat
  hour : Nat
  minute : Nat
  second : Nat
  nanosecond : Nat
  offset : Int
  valid : Valid year month day hour minute second nanosecond
  deriving DecidableEq

namespace Time

/-- The zero value of `time.Time`. -/
def zero : Time where
  year := 1
  month := 1
  day := 1
  hour := 0
  minute := 0
  second := 0
  nanosecond := 0
  offset := 0
  valid := by decide

/-- The days of the year before a month. -/
def daysBefore (month : Nat) (year : Int) : Nat :=
  ((List.range month).map fun m => if m = 0 then 0 else daysIn m year).sum

/-- The seconds since the zero value. -/
def seconds (t : Time) : Int :=
  let y := t.year - 1
  let days := 365 * y + y / 4 - y / 100 + y / 400 + daysBefore t.month t.year + (t.day - 1)
  86400 * days + 3600 * t.hour + 60 * t.minute + t.second - t.offset

/-- `IsZero`. -/
def isZero (t : Time) : Bool := t.seconds == 0 && t.nanosecond == 0

/-- The time without the seconds of its zone offset. -/
def wholeMinuteZone (t : Time) : Time := { t with offset := 60 * t.offset.tdiv 60 }

end Time

/-! ## Writing -/

/-- The last `w` decimal digits of a number. -/
def pad : Nat → Nat → List Char
  | 0, _ => []
  | w + 1, n => pad w (n / 10) ++ [Nat.digitChar (n % 10)]

/-- The digits of a fraction without zeros at the end. -/
def trimZeros (cs : List Char) : List Char := cs.rdropWhile (· == '0')

/-- The fraction of a second, without zeros at its end. -/
def formatFraction (nanosecond : Nat) : List Char :=
  if nanosecond = 0 then [] else '.' :: trimZeros (pad 9 nanosecond)

/-- The offset of a zone, in hours and minutes. -/
def formatZone (offset : Int) : List Char :=
  if offset = 0 then ['Z']
  else
    let zone := offset.tdiv 60
    (if zone < 0 then '-' else '+') ::
      (pad 2 (zone.natAbs / 60) ++ ':' :: pad 2 (zone.natAbs % 60))

/-- `appendFormatRFC3339`, for a year of four digits. -/
def Time.format (t : Time) : List Char :=
  pad 4 t.year.toNat ++ '-' :: (pad 2 t.month ++ '-' :: (pad 2 t.day ++ 'T' ::
    (pad 2 t.hour ++ ':' :: (pad 2 t.minute ++ ':' :: (pad 2 t.second ++
      (formatFraction t.nanosecond ++ formatZone t.offset))))))

/-- `Time.MarshalJSON`. -/
def Time.marshalJSON (t : Time) : Except String String :=
  if t.year < 0 ∨ 9999 < t.year then .error "Time.MarshalJSON: year outside of range [0,9999]"
  else if 24 ≤ (t.offset.tdiv 60).natAbs / 60 then
    .error "Time.MarshalJSON: timezone hour outside of range [0,23]"
  else .ok (String.ofList t.format)

/-! ## Reading -/

/-- A number of `w` digits and what follows it. -/
def number (w : Nat) (cs : List Char) : Option (Nat × List Char) :=
  if cs.length < w then none else (Strings.digits (cs.take w)).map fun n => (n, cs.drop w)

/-- What follows a given character. -/
def expect (c : Char) : List Char → Option (List Char)
  | [] => none
  | x :: cs => if x = c then some cs else none

/-- The value of a list of digits. -/
def value (cs : List Char) : Nat := cs.foldl (fun n c => 10 * n + (c.toNat - '0'.toNat)) 0

/-- The nanoseconds of a fraction, of which nine digits count, and what
follows it. -/
def parseFraction : List Char → Nat × List Char
  | '.' :: cs =>
      let ds := cs.takeWhile Char.isDigit
      if ds = [] then (0, '.' :: cs)
      else (value (ds.take 9) * 10 ^ (9 - ds.length), cs.drop ds.length)
  | cs => (0, cs)

/-- The hours and minutes of a zone offset, in minutes. -/
def parseMinutes (cs : List Char) : Option Nat := do
  let (hours, cs) ← number 2 cs
  let cs ← expect ':' cs
  let (minutes, cs) ← number 2 cs
  if cs ≠ [] ∨ 24 ≤ hours ∨ 60 ≤ minutes then none else some (hours * 60 + minutes)

/-- Read the offset of a zone. -/
def parseZone : List Char → Option Int
  | [] => none
  | sign :: cs =>
      if sign = 'Z' then if cs = [] then some 0 else none
      else if sign = '+' then (parseMinutes cs).map fun m : Nat => 60 * (m : Int)
      else if sign = '-' then (parseMinutes cs).map fun m : Nat => 60 * -(m : Int)
      else none

/-- `parseStrictRFC3339`. -/
def parse (cs : List Char) : Option Time := do
  let (year, cs) ← number 4 cs
  let cs ← expect '-' cs
  let (month, cs) ← number 2 cs
  let cs ← expect '-' cs
  let (day, cs) ← number 2 cs
  let cs ← expect 'T' cs
  let (hour, cs) ← number 2 cs
  let cs ← expect ':' cs
  let (minute, cs) ← number 2 cs
  let cs ← expect ':' cs
  let (second, cs) ← number 2 cs
  let nanosecond := (parseFraction cs).1
  let offset ← parseZone (parseFraction cs).2
  if h : Valid year month day hour minute second nanosecond then
    some ⟨year, month, day, hour, minute, second, nanosecond, offset, h⟩
  else none

/-- `Time.UnmarshalJSON`, of a string. -/
def unmarshalJSON (s : String) : Except String Time :=
  match parse s.toList with
  | none => .error ("parsing time " ++ s.quote ++ " as \"2006-01-02T15:04:05Z07:00\": cannot parse")
  | some t => .ok t

/-! ## Digits -/

theorem digitChar_isDigit {d : Nat} (h : d < 10) : (Nat.digitChar d).isDigit = true := by
  revert d
  decide

theorem digitChar_toNat {d : Nat} (h : d < 10) : (Nat.digitChar d).toNat - '0'.toNat = d := by
  revert d
  decide

theorem length_pad (w n : Nat) : (pad w n).length = w := by
  induction w generalizing n with
  | zero => rfl
  | succ w ih => simp [pad, ih]

variable {w n : Nat}

theorem isDigit_of_mem_pad : ∀ c ∈ pad w n, c.isDigit = true := by
  induction w generalizing n with
  | zero => simp [pad]
  | succ w ih =>
    intro c hc
    rcases mem_append.mp hc with hc | hc
    · exact ih c hc
    · rw [mem_singleton.mp hc]
      exact digitChar_isDigit (Nat.mod_lt n (by decide))

theorem value_append_singleton (cs : List Char) (c : Char) :
    value (cs ++ [c]) = 10 * value cs + (c.toNat - '0'.toNat) := by
  simp [value]

theorem value_pad (w n : Nat) : value (pad w n) = n % 10 ^ w := by
  induction w generalizing n with
  | zero => simp [pad, value, Nat.mod_one]
  | succ w ih =>
    have hdigit : n % 10 < 10 := Nat.mod_lt n (by decide)
    rw [pad, value_append_singleton, ih, digitChar_toNat hdigit, Nat.pow_succ', Nat.mod_mul,
      Nat.add_comm]

theorem value_append_zeros (cs : List Char) (k : Nat) :
    value (cs ++ List.replicate k '0') = value cs * 10 ^ k := by
  induction k with
  | zero => simp
  | succ k ih =>
    rw [replicate_succ', ← append_assoc, value_append_singleton, ih, Nat.pow_succ]
    have hzero : '0'.toNat - '0'.toNat = 0 := rfl
    rw [hzero, Nat.add_zero, Nat.mul_comm 10, Nat.mul_assoc]

variable {cs : List Char}

theorem digits_eq_value (hne : cs ≠ []) (h : ∀ c ∈ cs, c.isDigit = true) :
    Strings.digits cs = some (value cs) := by
  have hall : cs.all Char.isDigit = true := all_eq_true.mpr h
  simp [Strings.digits, value, hne, hall]

/-- A number is read back from its digits. -/
theorem number_pad (hw : 0 < w) (hn : n < 10 ^ w) (cs : List Char) :
    number w (pad w n ++ cs) = some (n, cs) := by
  have hne : pad w n ≠ [] := by
    intro h
    have hlen := length_pad w n
    rw [h] at hlen
    exact absurd hlen (Nat.ne_of_lt hw)
  have htake : (pad w n ++ cs).take w = pad w n := take_left' (length_pad w n)
  have hdrop : (pad w n ++ cs).drop w = cs := drop_left' (length_pad w n)
  have hlen : ¬ (pad w n ++ cs).length < w := by
    rw [length_append, length_pad]
    omega
  rw [number, if_neg hlen, htake, hdrop, digits_eq_value hne isDigit_of_mem_pad, value_pad,
    Nat.mod_eq_of_lt hn, map_some]

theorem value_lt (h : ∀ c ∈ cs, c.isDigit = true) : value cs < 10 ^ cs.length := by
  induction cs using reverseRecOn with
  | nil => simp [value]
  | append_singleton cs c ih =>
    have hlt := ih fun x hx => h x (mem_append_left _ hx)
    have hdigit : c.toNat - '0'.toNat < 10 := by
      have hc := h c (mem_append_right _ (mem_singleton_self c))
      simp only [Char.isDigit, Bool.and_eq_true, decide_eq_true_eq] at hc
      have hle : c.toNat ≤ 57 := hc.2
      have hzero : '0'.toNat = 48 := rfl
      omega
    rw [value_append_singleton, length_append, length_singleton, Nat.pow_succ]
    omega

theorem number_lt {rest : List Char} (h : number w cs = some (n, rest)) : n < 10 ^ w := by
  unfold number at h
  split at h
  · cases h
  · obtain ⟨m, hm, heq⟩ := map_eq_some_iff.mp h
    cases heq
    have hdigits := Strings.isDigit_of_digits hm
    have hne : cs.take w ≠ [] := by
      intro hnil
      rw [hnil] at hm
      cases hm
    rw [digits_eq_value hne hdigits] at hm
    cases hm
    have hlt := value_lt hdigits
    rw [length_take, Nat.min_eq_left (by omega)] at hlt
    exact hlt

theorem expect_cons (c : Char) (cs : List Char) : expect c (c :: cs) = some cs := by
  simp [expect]

/-! ## The fraction -/

/-- Nothing but zeros is cut off. -/
theorem trimZeros_append (cs : List Char) :
    ∃ k, cs = trimZeros cs ++ List.replicate k '0' := by
  induction cs using reverseRecOn with
  | nil => exact ⟨0, rfl⟩
  | append_singleton cs c ih =>
    by_cases hc : c = '0'
    · subst hc
      obtain ⟨k, hk⟩ := ih
      refine ⟨k + 1, ?_⟩
      have htrim : trimZeros (cs ++ ['0']) = trimZeros cs := by simp [trimZeros]
      rw [htrim, replicate_succ', ← append_assoc, ← hk]
    · refine ⟨0, ?_⟩
      have htrim : trimZeros (cs ++ [c]) = cs ++ [c] := by simp [trimZeros, hc]
      rw [htrim, replicate_zero, append_nil]

/-- The text of a zone offset does not begin like a fraction or a digit. -/
theorem formatZone_eq_cons (offset : Int) :
    ∃ c cs, formatZone offset = c :: cs ∧ c.isDigit = false ∧ c ≠ '.' := by
  unfold formatZone
  split
  · exact ⟨'Z', [], rfl, by decide, by decide⟩
  · refine ⟨_, _, rfl, ?_, ?_⟩
    all_goals split <;> decide

theorem parseFraction_format {nanosecond : Nat} (h : nanosecond < 10 ^ 9) {c : Char}
    (hc : c.isDigit = false) (hdot : c ≠ '.') (cs : List Char) :
    parseFraction (formatFraction nanosecond ++ c :: cs) = (nanosecond, c :: cs) := by
  by_cases hzero : nanosecond = 0
  · rw [formatFraction, if_pos hzero, nil_append, hzero]
    unfold parseFraction
    split
    · rename_i hcons
      exact absurd (cons.inj hcons).1 hdot
    · rfl
  · obtain ⟨k, hk⟩ := trimZeros_append (pad 9 nanosecond)
    have hdigits : ∀ x ∈ trimZeros (pad 9 nanosecond), x.isDigit = true := by
      intro x hx
      apply isDigit_of_mem_pad (w := 9) (n := nanosecond)
      rw [hk]
      exact mem_append_left _ hx
    have hvalue : value (trimZeros (pad 9 nanosecond)) * 10 ^ k = nanosecond := by
      rw [← value_append_zeros, ← hk, value_pad, Nat.mod_eq_of_lt h]
    have hlen : (trimZeros (pad 9 nanosecond)).length + k = 9 := by
      have hlen := congrArg length hk
      rw [length_pad, length_append, length_replicate] at hlen
      exact hlen.symm
    have hne : trimZeros (pad 9 nanosecond) ≠ [] := by
      intro hnil
      rw [hnil] at hvalue
      exact hzero (by simpa [value] using hvalue.symm)
    have htake : (trimZeros (pad 9 nanosecond) ++ c :: cs).takeWhile Char.isDigit =
        trimZeros (pad 9 nanosecond) := by
      rw [takeWhile_append_of_pos hdigits, takeWhile_cons_of_neg (by simp [hc]),
        append_nil]
    rw [formatFraction, if_neg hzero, cons_append, parseFraction]
    simp only [htake]
    rw [if_neg hne, drop_left, take_of_length_le (by omega)]
    have hk' : 9 - (trimZeros (pad 9 nanosecond)).length = k := by omega
    rw [hk', hvalue]

/-! ## The zone -/

theorem parseMinutes_format {m : Nat} (h : m / 60 < 24) :
    parseMinutes (pad 2 (m / 60) ++ ':' :: pad 2 (m % 60)) = some m := by
  have hhours : number 2 (pad 2 (m / 60) ++ ':' :: pad 2 (m % 60)) =
      some (m / 60, ':' :: pad 2 (m % 60)) := number_pad (by decide) (by omega) _
  have hminutes : number 2 (pad 2 (m % 60)) = some (m % 60, []) := by
    have hnum := number_pad (w := 2) (n := m % 60) (by decide) (by omega) []
    rwa [append_nil] at hnum
  have hrange : ¬ (([] : List Char) ≠ [] ∨ 24 ≤ m / 60 ∨ 60 ≤ m % 60) := by
    simp only [ne_eq, not_true_eq_false, false_or]
    omega
  simp only [parseMinutes, hhours, expect_cons, hminutes, bind_eq_bind, bind_some,
    hrange, ↓reduceIte, some.injEq]
  omega

theorem parseMinutes_lt {m : Nat} (h : parseMinutes cs = some m) : m / 60 < 24 := by
  simp only [parseMinutes, bind_eq_bind, bind_eq_some_iff] at h
  obtain ⟨hours, _, rest, _, minutes, _, h⟩ := h
  split at h
  · cases h
  · cases h
    omega

theorem parseZone_format {offset : Int} (h : (offset.tdiv 60).natAbs / 60 < 24) :
    parseZone (formatZone offset) = some (60 * offset.tdiv 60) := by
  by_cases hzero : offset = 0
  · subst hzero
    rfl
  · rw [formatZone, if_neg hzero]
    by_cases hneg : offset.tdiv 60 < 0
    all_goals
      simp only [hneg, ↓reduceIte, parseZone, parseMinutes_format h, Char.reduceEq,
        map_some, some.injEq]
      omega

/-- A zone that is read has whole minutes and is less than a day. -/
theorem parseZone_range {offset : Int} (h : parseZone cs = some offset) :
    (60 : Int) ∣ offset ∧ (offset.tdiv 60).natAbs / 60 < 24 := by
  cases cs with
  | nil => cases h
  | cons sign cs =>
    simp only [parseZone] at h
    split at h
    · split at h
      · cases h
        decide
      · cases h
    · split at h
      · obtain ⟨m, hm, rfl⟩ := map_eq_some_iff.mp h
        have hlt := parseMinutes_lt hm
        rw [Int.mul_tdiv_cancel_left _ (by decide)]
        omega
      · split at h
        · obtain ⟨m, hm, rfl⟩ := map_eq_some_iff.mp h
          have hlt := parseMinutes_lt hm
          rw [Int.mul_tdiv_cancel_left _ (by decide)]
          omega
        · cases h

/-! ## The round trip -/

variable {t : Time}

/-- A time is read back from its text, up to the seconds of its zone. -/
theorem parse_format (hyear : 0 ≤ t.year ∧ t.year ≤ 9999)
    (hzone : (t.offset.tdiv 60).natAbs / 60 < 24) : parse t.format = some t.wholeMinuteZone := by
  obtain ⟨⟨_, hmonth⟩, ⟨_, hday⟩, hhour, hminute, hsecond, hnano⟩ := t.valid
  have hdays : daysIn t.month t.year ≤ 31 := by
    unfold daysIn
    split <;> split <;> omega
  obtain ⟨c, cs, hformat, hdigit, hdot⟩ := formatZone_eq_cons t.offset
  have hfraction : parseFraction (formatFraction t.nanosecond ++ formatZone t.offset) =
      (t.nanosecond, formatZone t.offset) := by
    rw [hformat]
    exact parseFraction_format hnano hdigit hdot cs
  have hyearNat : ((t.year.toNat : Nat) : Int) = t.year := Int.toNat_of_nonneg hyear.1
  have hfour : t.year.toNat < 10 ^ 4 := by omega
  have htwo : ∀ n, n < 60 → n < 10 ^ 2 := by omega
  -- not the equation of parse, whose proof evaluates all the matches
  delta parse
  simp only [Time.format, number_pad (w := 4) (by decide) hfour, expect_cons,
    number_pad (w := 2) (by decide) (htwo t.month (by omega)),
    number_pad (w := 2) (by decide) (htwo t.day (by omega)),
    number_pad (w := 2) (by decide) (htwo t.hour (by omega)),
    number_pad (w := 2) (by decide) (htwo t.minute hminute),
    number_pad (w := 2) (by decide) (htwo t.second hsecond), hfraction, parseZone_format hzone,
    bind_eq_bind, bind_some, hyearNat, t.valid, ↓reduceDIte, Time.wholeMinuteZone]

/-- `MarshalJSON` accepts the time. -/
def Time.Marshals (t : Time) : Prop :=
  (0 ≤ t.year ∧ t.year ≤ 9999) ∧ (t.offset.tdiv 60).natAbs / 60 < 24

instance (t : Time) : Decidable t.Marshals := by
  unfold Time.Marshals
  infer_instance

variable {s : String}

theorem marshalJSON_eq_ok : t.marshalJSON = .ok s ↔ t.Marshals ∧ s = String.ofList t.format := by
  unfold Time.marshalJSON Time.Marshals
  split
  · rename_i hyear
    refine ⟨nofun, ?_⟩
    intro h
    omega
  · split
    · refine ⟨nofun, ?_⟩
      intro h
      omega
    · rename_i hyear hzone
      refine ⟨?_, ?_⟩
      · intro h
        exact ⟨by omega, (Except.ok.inj h).symm⟩
      · intro h
        rw [h.2]

/-- **What is read back.** -/
theorem unmarshalJSON_of_marshalJSON (h : t.marshalJSON = .ok s) :
    unmarshalJSON s = .ok t.wholeMinuteZone := by
  obtain ⟨⟨hyear, hzone⟩, rfl⟩ := marshalJSON_eq_ok.mp h
  rw [unmarshalJSON, String.toList_ofList, parse_format hyear hzone]

theorem wholeMinuteZone_eq_self : t.wholeMinuteZone = t ↔ (60 : Int) ∣ t.offset := by
  have hoffset : t.wholeMinuteZone = t ↔ 60 * t.offset.tdiv 60 = t.offset := by
    refine ⟨fun h => congrArg Time.offset h, ?_⟩
    intro h
    unfold Time.wholeMinuteZone
    rw [h]
  rw [hoffset]
  exact ⟨fun h => ⟨_, h.symm⟩, Int.mul_tdiv_cancel'⟩

/-- What has been read can be written, and is then read as the same. -/
theorem marshals_of_unmarshalJSON (h : unmarshalJSON s = .ok t) :
    t.Marshals ∧ t.wholeMinuteZone = t := by
  unfold unmarshalJSON at h
  split at h
  · cases h
  · rename_i t' hparse
    cases h
    delta parse at hparse
    simp only [bind_eq_bind, bind_eq_some_iff] at hparse
    obtain ⟨year, hyear, _, _, _, _, _, _, _, _, _, _, _, _, _, _, _, _, _, _, _, _, offset,
      hoffset, hparse⟩ := hparse
    split at hparse
    · cases hparse
      have hlt : year.1 < 10 ^ 4 := number_lt hyear
      obtain ⟨hminutes, hday⟩ := parseZone_range hoffset
      refine ⟨⟨⟨?_, ?_⟩, hday⟩, wholeMinuteZone_eq_self.mpr hminutes⟩
      · exact Int.natCast_nonneg _
      · show (year.1 : Int) ≤ 9999
        omega
    · cases hparse

end Times
