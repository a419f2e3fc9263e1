import Mathlib.Tactic.Ring
import Telepresence.Lib.Results
import Telepresence.Lib.Slices

/-!
# Unsigned varints

Base-128 little-endian numbers as `encoding/binary` reads and writes them:
seven bits a byte, lowest first, the top bit set on every byte but the last.

* `putUvarint` writes into a scratch buffer of fixed length and panics when
  the buffer is exhausted; `putUvarint_ok_iff` says when that happens.
* `uvarint` reads a number from the front of a byte sequence and reports how
  many bytes it took: a positive count, 0 when the bytes end inside the
  number, a negative count when the number does not fit 64 bits.
* `uvarint_putUvarint`: reading what was written gives the number back, with
  the bytes after it untouched.
-/

namespace Varint

/-- `PutUvarint(buf, x)`: the bytes written to the front of `buf`.  The loop
stores one byte an iteration, so it panics at the first index past the end. -/
def putUvarint : List UInt8 → Nat → Except Panic (List UInt8)
  | [], _ => .error .indexOutOfRange
  | _ :: buf, x =>
      if x < 0x80 then .ok [UInt8.ofNat x]
      else do
        let rest ← putUvarint buf (x / 128)
        .ok (UInt8.ofNat (x % 128 + 128) :: rest)

/-- `MaxVarintLen64`: no 64-bit number takes more bytes. -/
def maxVarintLen64 : Nat := 10

/-- The loop of `Uvarint` at byte number `i`, with `x` accumulated so far.  The
bits of a byte are shifted to position `7 * i`; those of `x` lie below. -/
def uvarintLoop : List UInt8 → Nat → Nat → UInt64 × Int
  | [], _, _ => (0, 0)
  | b :: rest, i, x =>
      if i = maxVarintLen64 then (0, -(i + 1))
      else if b.toNat < 0x80 then
        if i = maxVarintLen64 - 1 ∧ 1 < b.toNat then (0, -(i + 1))
        else (UInt64.ofNat (x + b.toNat * 2 ^ (7 * i)), i + 1)
      else uvarintLoop rest (i + 1) (x + b.toNat % 128 * 2 ^ (7 * i))

/-- `Uvarint(buf)`: the number at the front of `buf` and its byte count. -/
def uvarint (buf : List UInt8) : UInt64 × Int := uvarintLoop buf 0 0

/-- A positive byte count is within the bytes that were read. -/
theorem uvarintLoop_count_le (buf : List UInt8) (i x : Nat) :
    (uvarintLoop buf i x).2 ≤ i + buf.length := by
  induction buf generalizing i x with
  | nil => simp [uvarintLoop]
  | cons b rest ih =>
    simp only [uvarintLoop, List.length_cons]
    split
    · simp only [Nat.cast_add, Nat.cast_one]
      omega
    · split
      · split
        all_goals
          simp only [Nat.cast_add, Nat.cast_one]
          omega
      · have := ih (i + 1) (x + b.toNat % 128 * 2 ^ (7 * i))
        push_cast at this ⊢
        omega

theorem uvarint_count_le (buf : List UInt8) : (uvarint buf).2 ≤ buf.length := by
  simpa [uvarint] using uvarintLoop_count_le buf 0 0

variable {buf bytes : List UInt8}

/-- Something is written, and no more than the buffer holds. -/
theorem putUvarint_length {x : Nat} (h : putUvarint buf x = .ok bytes) :
    0 < bytes.length ∧ bytes.length ≤ buf.length := by
  induction buf generalizing x bytes with
  | nil => simp [putUvarint] at h
  | cons c buf ih =>
    simp only [putUvarint] at h
    split at h
    · cases h
      simp
    · obtain ⟨rest, hrest, h⟩ := Results.bind_eq_ok.mp h
      cases h
      have := ih hrest
      simp only [List.length_cons]
      omega

/-- The scratch buffer suffices exactly for the numbers of at most seven bits
for each of its bytes. -/
theorem putUvarint_ok_iff (c : UInt8) (buf : List UInt8) (x : Nat) :
    (∃ bytes, putUvarint (c :: buf) x = .ok bytes) ↔
      x < 2 ^ (7 * (buf.length + 1)) := by
  induction buf generalizing c x with
  | nil =>
    simp only [putUvarint]
    split
    · simp
      omega
    · simp [bind, Except.bind]
      omega
  | cons d buf ih =>
    have hpow : 2 ^ (7 * ((d :: buf).length + 1)) = 128 * 2 ^ (7 * (buf.length + 1)) := by
      rw [List.length_cons, show 7 * (buf.length + 1 + 1) = 7 + 7 * (buf.length + 1) by ring,
        Nat.pow_add]
    rw [hpow]
    have hsmall : x < 128 → x < 128 * 2 ^ (7 * (buf.length + 1)) := by
      intro hx
      have hpos : 1 ≤ 2 ^ (7 * (buf.length + 1)) := Nat.one_le_two_pow
      omega
    rw [putUvarint]
    split
    · rename_i hx
      simpa using hsmall hx
    · have hdiv := ih d (x / 128)
      rw [Nat.div_lt_iff_lt_mul (by decide), Nat.mul_comm] at hdiv
      rw [← hdiv]
      apply Iff.intro
      · intro hok
        obtain ⟨bytes, h⟩ := hok
        obtain ⟨rest, hrest, _⟩ := Results.bind_eq_ok.mp h
        exact ⟨rest, hrest⟩
      · intro hok
        obtain ⟨rest, hrest⟩ := hok
        exact ⟨_, by rw [hrest]; rfl⟩

/-- The reader's loop gives back what the writer's loop wrote, starting at any
byte position that still leaves room for the number in 64 bits. -/
theorem uvarintLoop_putUvarint {v : Nat} (h : putUvarint buf v = .ok bytes) (rest : List UInt8)
    (i x : Nat) (hi : i < maxVarintLen64) (hv : v * 2 ^ (7 * i) < 2 ^ 64) :
    uvarintLoop (bytes ++ rest) i x =
      (UInt64.ofNat (x + v * 2 ^ (7 * i)), (i + bytes.length : Int)) := by
  induction buf generalizing v bytes i x with
  | nil => simp [putUvarint] at h
  | cons c buf ih =>
    have hten : i ≠ maxVarintLen64 := by omega
    simp only [putUvarint] at h
    split at h
    · rename_i hsmall
      cases h
      have hb : (UInt8.ofNat v).toNat = v := by
        simp
        omega
      -- at the tenth byte only the lowest bit of the number is left
      have hlast : ¬ (i = maxVarintLen64 - 1 ∧ 1 < v) := by
        intro hbad
        obtain ⟨rfl, hgt⟩ := hbad
        simp only [maxVarintLen64] at hv
        omega
      simp [uvarintLoop, hten, hb, hsmall, hlast]
    · rename_i hbig
      obtain ⟨tail, hrest, h⟩ := Results.bind_eq_ok.mp h
      cases h
      have hb : (UInt8.ofNat (v % 128 + 128)).toNat = v % 128 + 128 := by
        simp
        omega
      have hpow : 2 ^ (7 * (i + 1)) = 128 * 2 ^ (7 * i) := by
        rw [show 7 * (i + 1) = 7 + 7 * i by ring, Nat.pow_add]
      have hsplit : v / 128 * (128 * 2 ^ (7 * i)) + v % 128 * 2 ^ (7 * i) =
          v * 2 ^ (7 * i) := by
        conv_rhs => rw [← Nat.div_add_mod v 128]
        ring
      have hv' : v / 128 * 2 ^ (7 * (i + 1)) < 2 ^ 64 := by
        rw [hpow]
        omega
      -- a number that continues after byte `i` leaves byte `i + 1` in range
      have hi' : i + 1 < maxVarintLen64 := by
        by_contra hge
        have hi9 : i = 9 := by
          simp only [maxVarintLen64] at hge hi
          omega
        subst hi9
        omega
      simp only [List.cons_append, uvarintLoop, if_neg hten, hb]
      rw [if_neg (by omega), ih hrest (i + 1) _ hi' hv', hpow]
      have hmod : (v % 128 + 128) % 128 = v % 128 := by omega
      rw [hmod, Nat.add_assoc, Nat.add_comm (v % 128 * 2 ^ (7 * i)), hsplit]
      simp only [List.length_cons]
      push_cast
      ring_nf

/-- **Round trip.**  A 64-bit number read back from the front of the bytes it
was written to, whatever follows. -/
theorem uvarint_putUvarint {v : UInt64} (h : putUvarint buf v.toNat = .ok bytes)
    (rest : List UInt8) : uvarint (bytes ++ rest) = (v, (bytes.length : Int)) := by
  have hv : v.toNat * 2 ^ (7 * 0) < 2 ^ 64 := by
    have := v.toNat_lt
    simpa using this
  have := uvarintLoop_putUvarint h rest 0 0 (by decide) hv
  simpa [uvarint] using this

end Varint
