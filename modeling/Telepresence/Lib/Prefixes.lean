import Mathlib.Data.Nat.Digits.Lemmas
import Telepresence.Lib.Netip

/-!
# Address prefixes

Go's `netip.Prefix`: an address together with a number of leading bits.  An
address is read as the number that its bytes denote, so that two addresses of
one family agree on the bits of a prefix exactly when the quotients by a power
of two agree.

* `Prefix.contains_iff`: what it means for a prefix to contain an address.
* `Addr.mask_eq_mask_iff`: equal masked addresses, as equal quotients.
* `Prefix.quotient_eq`: of two prefixes that contain one address, the longer
  lies in the shorter.
-/

namespace BigEndian

open List

/-- The number that the bytes denote, most significant byte first. -/
def toNat (bs : List UInt8) : Nat := Nat.ofDigits 256 (bs.reverse.map UInt8.toNat)

/-- The lowest bytes of a number, least significant byte first. -/
def lowBytes : Nat → Nat → List UInt8
  | 0, _ => []
  | len + 1, n => UInt8.ofNat n :: lowBytes len (n / 256)

@[simp] theorem length_lowBytes (len n : Nat) : (lowBytes len n).length = len := by
  induction len generalizing n with
  | zero => rfl
  | succ len ih => simp [lowBytes, ih]

/-- The lowest bytes of a number, most significant byte first. -/
def putNat (len n : Nat) : Bytes len := ⟨(lowBytes len n).reverse, by simp⟩

theorem digit_lt {bs : List UInt8} : ∀ d ∈ bs.reverse.map UInt8.toNat, d < 256 := by
  intro d hd
  obtain ⟨b, _, rfl⟩ := mem_map.mp hd
  exact b.toNat_lt

theorem toNat_lt (bs : List UInt8) : toNat bs < 256 ^ bs.length := by
  have h : toNat bs < 256 ^ (bs.reverse.map UInt8.toNat).length :=
    Nat.ofDigits_lt_base_pow_length (by decide) digit_lt
  simpa using h

/-- As many bytes that denote the same number are the same bytes. -/
theorem toNat_inj {bs cs : List UInt8} (hlen : bs.length = cs.length)
    (h : toNat bs = toNat cs) : bs = cs := by
  have hdigits : bs.reverse.map UInt8.toNat = cs.reverse.map UInt8.toNat :=
    Nat.ofDigits_inj_of_len_eq (by decide) (by simpa using hlen) digit_lt digit_lt h
  have hinj : Function.Injective UInt8.toNat := fun _ _ => UInt8.toNat_inj.mp
  exact reverse_injective (hinj.list_map hdigits)

theorem ofDigits_lowBytes (len n : Nat) :
    Nat.ofDigits 256 ((lowBytes len n).map UInt8.toNat) = n % 256 ^ len := by
  induction len generalizing n with
  | zero => simp [lowBytes, Nat.mod_one]
  | succ len ih =>
    rw [lowBytes, map_cons, Nat.ofDigits_cons, ih, Nat.pow_succ', Nat.mod_mul]
    rfl

theorem toNat_append (xs ys : List UInt8) :
    toNat (xs ++ ys) = toNat xs * 256 ^ ys.length + toNat ys := by
  rw [toNat, toNat, toNat, reverse_append, map_append, Nat.ofDigits_append,
    length_map, length_reverse, Nat.mul_comm, Nat.add_comm]

@[simp] theorem toNat_singleton (x : UInt8) : toNat [x] = x.toNat := by
  simp [toNat]

/-- A number of several bytes, without the lowest bits of the first one. -/
theorem toNat_cons_div (x : UInt8) (xs : List UInt8) (k : Nat) :
    toNat (x :: xs) / 2 ^ (8 * xs.length + k) = x.toNat / 2 ^ k := by
  have hlt : toNat xs < 2 ^ (8 * xs.length) := by
    rw [Nat.pow_mul]
    exact toNat_lt xs
  have hcons : toNat (x :: xs) = x.toNat * 2 ^ (8 * xs.length) + toNat xs := by
    rw [Nat.pow_mul, ← singleton_append, toNat_append, toNat_singleton]
  rw [hcons, Nat.pow_add, ← Nat.div_div_eq_div_mul, Nat.add_comm,
    Nat.add_mul_div_right _ _ (Nat.two_pow_pos _), Nat.div_eq_of_lt hlt, Nat.zero_add]

/-- Two numbers that begin with the same bytes agree as far as what follows
agrees. -/
theorem toNat_append_div (pre : List UInt8) {xs ys : List UInt8} {k : Nat}
    (hlen : xs.length = ys.length) (hk : k ≤ 8 * ys.length)
    (h : toNat xs / 2 ^ k = toNat ys / 2 ^ k) :
    toNat (pre ++ xs) / 2 ^ k = toNat (pre ++ ys) / 2 ^ k := by
  have hsplit : 256 ^ ys.length = 2 ^ (8 * ys.length - k) * 2 ^ k := by
    rw [← Nat.pow_add, Nat.sub_add_cancel hk, Nat.pow_mul]
  rw [toNat_append, toNat_append, hlen, hsplit, ← Nat.mul_assoc, Nat.add_comm,
    Nat.add_mul_div_right _ _ (Nat.two_pow_pos _), h, Nat.add_comm (_ * 2 ^ k),
    Nat.add_mul_div_right _ _ (Nat.two_pow_pos _)]

/-- The bytes of a number denote the number, as far as they go. -/
theorem toNat_putNat (len n : Nat) : toNat (putNat len n).1 = n % 256 ^ len := by
  rw [toNat, putNat, reverse_reverse, ofDigits_lowBytes]

end BigEndian

namespace Netip

namespace Addr

/-- The number that the bytes of an address denote. -/
def value (a : Addr) : Nat := BigEndian.toNat a.asSlice

/-- The address of the same family and zone with the given value. -/
def withValue : Addr → Nat → Addr
  | zero, _ => zero
  | v4 _, n => v4 (BigEndian.putNat 4 n)
  | v6 _ zone, n => v6 (BigEndian.putNat 16 n) zone

/-- `Addr.hasZone`. -/
def hasZone : Addr → Bool
  | v6 _ zone => zone ≠ ""
  | _ => false

/-- `Addr.withoutZone`. -/
def withoutZone : Addr → Addr
  | v6 bytes _ => v6 bytes ""
  | a => a

/-- `AddrFromSlice`. -/
def fromSlice (bs : List UInt8) : Option Addr :=
  if h : bs.length = 4 then some (v4 ⟨bs, h⟩)
  else if h : bs.length = 16 then some (v6 ⟨bs, h⟩ "")
  else none

/-- `Addr.IsLoopback`. -/
def isLoopback (a : Addr) : Bool :=
  match a.unmap with
  | zero => false
  | v4 bytes => bytes.1.head? = some 127
  | v6 bytes _ => BigEndian.toNat bytes.1 = 1

/-- The address with its lowest `k` bits cleared. -/
def mask (a : Addr) (k : Nat) : Addr := a.withValue (a.value / 2 ^ k * 2 ^ k)

theorem bitLen_eq (a : Addr) : a.bitLen = 8 * a.asSlice.length := by
  cases a with
  | zero => rfl
  | v4 bytes | v6 bytes zone => rw [asSlice, bytes.2, bitLen]

theorem value_lt (a : Addr) : a.value < 2 ^ a.bitLen := by
  have h : a.value < 256 ^ a.asSlice.length := BigEndian.toNat_lt _
  rw [bitLen_eq, Nat.pow_mul]
  exact h

theorem value_withValue {a : Addr} {n : Nat} (h : n < 2 ^ a.bitLen) :
    (a.withValue n).value = n := by
  cases a with
  | zero =>
    have hzero : n = 0 := by simpa [bitLen] using h
    simp [withValue, value, asSlice, BigEndian.toNat, hzero]
  | v4 bytes | v6 bytes zone =>
    rw [withValue, value, asSlice, BigEndian.toNat_putNat]
    exact Nat.mod_eq_of_lt (by simpa [bitLen] using h)

@[simp] theorem bitLen_withValue (a : Addr) (n : Nat) : (a.withValue n).bitLen = a.bitLen := by
  cases a <;> rfl

@[simp] theorem hasZone_withValue (a : Addr) (n : Nat) :
    (a.withValue n).hasZone = a.hasZone := by
  cases a <;> rfl

@[simp] theorem hasZone_withoutZone (a : Addr) : a.withoutZone.hasZone = false := by
  cases a <;> rfl

@[simp] theorem bitLen_withoutZone (a : Addr) : a.withoutZone.bitLen = a.bitLen := by
  cases a <;> rfl

theorem withoutZone_eq_self {a : Addr} (h : a.hasZone = false) : a.withoutZone = a := by
  cases a with
  | zero | v4 bytes => rfl
  | v6 bytes zone =>
    have hz : zone = "" := by simpa [hasZone] using h
    rw [hz, withoutZone]

/-- As many bytes as an address has are those of an address of its family. -/
theorem fromSlice_spec {a : Addr} (ha : a ≠ zero) {bs : List UInt8}
    (h : bs.length = a.asSlice.length) :
    ∃ b, fromSlice bs = some b ∧ b.bitLen = a.bitLen ∧ b.hasZone = false ∧
      b.value = BigEndian.toNat bs := by
  cases a with
  | zero => exact absurd rfl ha
  | v4 bytes =>
    have hlen : bs.length = 4 := by rw [h, asSlice, bytes.2]
    exact ⟨v4 ⟨bs, hlen⟩, by rw [fromSlice, dif_pos hlen], rfl, rfl, rfl⟩
  | v6 bytes zone =>
    have hlen : bs.length = 16 := by rw [h, asSlice, bytes.2]
    exact ⟨v6 ⟨bs, hlen⟩ "", by rw [fromSlice, dif_neg (by omega), dif_pos hlen], rfl, rfl, rfl⟩

/-- Addresses without a zone are told apart by family and value. -/
theorem eq_of_value_eq {a b : Addr} (ha : a.hasZone = false) (hb : b.hasZone = false)
    (hlen : a.bitLen = b.bitLen) (h : a.value = b.value) : a = b := by
  have hslice : a.asSlice = b.asSlice := by
    have hle : 8 * a.asSlice.length = 8 * b.asSlice.length := by
      rw [← bitLen_eq, ← bitLen_eq, hlen]
    exact BigEndian.toNat_inj (by omega) h
  -- the lengths tell the families apart
  cases a <;> cases b <;> cases hlen
  · rfl
  · exact congrArg v4 (Subtype.ext hslice)
  · rename_i bytes zone bytes' zone'
    have hz : zone = "" := by simpa [hasZone] using ha
    have hz' : zone' = "" := by simpa [hasZone] using hb
    rw [hz, hz', show bytes = bytes' from Subtype.ext hslice]

theorem value_mask (a : Addr) (k : Nat) : (a.mask k).value = a.value / 2 ^ k * 2 ^ k :=
  value_withValue (Nat.lt_of_le_of_lt (Nat.div_mul_le_self _ _) a.value_lt)

@[simp] theorem bitLen_mask (a : Addr) (k : Nat) : (a.mask k).bitLen = a.bitLen :=
  bitLen_withValue _ _

@[simp] theorem hasZone_mask (a : Addr) (k : Nat) : (a.mask k).hasZone = a.hasZone :=
  hasZone_withValue _ _

/-- Addresses of one family agree above the lowest `k` bits if and only if
their quotients by `2 ^ k` agree. -/
theorem mask_eq_mask_iff {a b : Addr} (ha : a.hasZone = false) (hb : b.hasZone = false)
    (hlen : a.bitLen = b.bitLen) (k : Nat) :
    a.mask k = b.mask k ↔ a.value / 2 ^ k = b.value / 2 ^ k := by
  constructor
  · intro h
    have hval : a.value / 2 ^ k * 2 ^ k = b.value / 2 ^ k * 2 ^ k := by
      rw [← value_mask, ← value_mask, h]
    exact Nat.eq_of_mul_eq_mul_right (Nat.two_pow_pos k) hval
  · intro h
    refine eq_of_value_eq (by simpa using ha) (by simpa using hb) (by simpa using hlen) ?_
    rw [value_mask, value_mask, h]

/-- The family of an address that is not the zero value. -/
theorem bitLen_eq_iff_is4_eq {a b : Addr} (ha : a ≠ zero) (hb : b ≠ zero) :
    a.bitLen = b.bitLen ↔ a.is4 = b.is4 := by
  cases a <;> cases b <;> simp_all [bitLen, is4]

end Addr

open Addr

/-- `netip.Prefix`: an address without its zone, and the number of its leading
bits plus one, which is zero for an invalid prefix. -/
structure Prefix where
  addr : Addr
  bitsPlusOne : Nat
  noZone : addr.hasZone = false
  fits : bitsPlusOne = 0 ∨ addr ≠ .zero ∧ bitsPlusOne ≤ addr.bitLen + 1
  deriving DecidableEq

/-- `PrefixFrom`. -/
def prefixFrom (ip : Addr) (bits : Int) : Prefix :=
  if h : ip ≠ .zero ∧ 0 ≤ bits ∧ bits ≤ ip.bitLen then
    { addr := ip.withoutZone
      bitsPlusOne := bits.toNat + 1
      noZone := ip.hasZone_withoutZone
      fits := by
        refine Or.inr ⟨?_, ?_⟩
        · obtain ⟨hip, _⟩ := h
          cases ip <;> simp_all [withoutZone]
        · rw [bitLen_withoutZone]
          omega }
  else
    { addr := ip.withoutZone
      bitsPlusOne := 0
      noZone := ip.hasZone_withoutZone
      fits := Or.inl rfl }

/-- `Prefix{}`. -/
def Prefix.zero : Prefix := ⟨.zero, 0, rfl, Or.inl rfl⟩

/-- `Addr.Prefix`: the prefix of the given length, with the other bits
cleared; `none` stands for the error. -/
def Addr.toPrefix (ip : Addr) (b : Int) : Option Prefix :=
  if b < 0 then none
  else if ip = .zero then some .zero
  else if ip.bitLen < b then none
  else some (prefixFrom (ip.mask (ip.bitLen - b.toNat)) b)

namespace Prefix

/-- `Prefix.IsValid`. -/
def isValid (p : Prefix) : Bool := 0 < p.bitsPlusOne

/-- `Prefix.Bits`, which is `-1` for an invalid prefix. -/
def bits (p : Prefix) : Int := p.bitsPlusOne - 1

/-- The number of bits after those of the prefix. -/
def hostBits (p : Prefix) : Nat := p.addr.bitLen + 1 - p.bitsPlusOne

/-- `Prefix.Masked`. -/
def masked (p : Prefix) : Prefix := (p.addr.toPrefix p.bits).getD .zero

/-- `Prefix.Contains`. -/
def contains (p : Prefix) (ip : Addr) : Bool :=
  p.isValid && !ip.hasZone && ip.bitLen == p.addr.bitLen &&
    ip.value / 2 ^ p.hostBits == p.addr.value / 2 ^ p.hostBits

/-- `Prefix.Overlaps`. -/
def overlaps (p o : Prefix) : Bool :=
  if !p.isValid || !o.isValid then false
  else if p = o then true
  else if p.addr.is4 ≠ o.addr.is4 then false
  else if min p.bits o.bits = 0 then true
  else
    match p.addr.toPrefix (min p.bits o.bits), o.addr.toPrefix (min p.bits o.bits) with
    | some p', some o' => p'.addr = o'.addr
    | _, _ => false

variable {p : Prefix}

theorem isValid_iff : p.isValid ↔ 0 ≤ p.bits := by
  simp only [isValid, bits, decide_eq_true_eq]
  omega

theorem bits_nonneg (h : p.isValid) : 0 ≤ p.bits := isValid_iff.mp h

/-- A valid prefix is one of an address. -/
theorem fits_of_isValid (h : p.isValid) : p.addr ≠ .zero ∧ p.bitsPlusOne ≤ p.addr.bitLen + 1 := by
  have hpos : 0 < p.bitsPlusOne := by simpa [isValid] using h
  exact p.fits.resolve_left hpos.ne'

theorem addr_ne_zero (h : p.isValid) : p.addr ≠ .zero := (fits_of_isValid h).1

theorem bitsPlusOne_le (h : p.isValid) : p.bitsPlusOne ≤ p.addr.bitLen + 1 := (fits_of_isValid h).2

theorem bits_le_bitLen (h : p.isValid) : p.bits ≤ p.addr.bitLen := by
  have hle := bitsPlusOne_le h
  rw [bits]
  omega

theorem hostBits_eq (h : p.isValid) : p.addr.bitLen - p.bits.toNat = p.hostBits := by
  have hpos := bits_nonneg h
  simp only [bits, hostBits] at *
  omega

variable {q : Prefix}

theorem bitLen_eq_iff (hp : p.isValid) (hq : q.isValid) :
    p.addr.bitLen = q.addr.bitLen ↔ p.addr.is4 = q.addr.is4 :=
  bitLen_eq_iff_is4_eq (addr_ne_zero hp) (addr_ne_zero hq)

theorem eq_of_addr_eq (haddr : p.addr = q.addr) (hbits : p.bits = q.bits) : p = q := by
  have hplus : p.bitsPlusOne = q.bitsPlusOne := by
    simp only [bits] at hbits
    omega
  cases p
  cases q
  simp_all

variable {a : Addr}

/-- A prefix contains the addresses of its family, without a zone, that have
its leading bits. -/
theorem contains_iff :
    p.contains a ↔ p.isValid ∧ a.hasZone = false ∧ a.bitLen = p.addr.bitLen ∧
      a.value / 2 ^ p.hostBits = p.addr.value / 2 ^ p.hostBits := by
  simp [contains, and_assoc]

theorem prefixFrom_spec {ip : Addr} {b : Int} (hip : ip ≠ .zero) (hzone : ip.hasZone = false)
    (hb : 0 ≤ b) (hle : b ≤ ip.bitLen) :
    (prefixFrom ip b).isValid ∧ (prefixFrom ip b).addr = ip ∧ (prefixFrom ip b).bits = b := by
  rw [prefixFrom, dif_pos ⟨hip, hb, hle⟩]
  simp [isValid, bits, withoutZone_eq_self hzone, hb]

/-- The prefix of an address contains what has its leading bits. -/
theorem contains_prefixFrom {q : Addr} {n : Nat} (hq : q ≠ .zero) (hzone : q.hasZone = false)
    (hn : n ≤ q.bitLen) :
    (prefixFrom q n).contains a ↔ a.hasZone = false ∧ a.bitLen = q.bitLen ∧
      a.value / 2 ^ (q.bitLen - n) = q.value / 2 ^ (q.bitLen - n) := by
  obtain ⟨hvalid, haddr, hbits⟩ := prefixFrom_spec (b := n) hq hzone (by omega) (by omega)
  rw [contains_iff, ← hostBits_eq hvalid, haddr, hbits, Int.toNat_natCast]
  simp [hvalid]

/-- An address has the leading bits of a prefix that contains it. -/
theorem value_div_eq (h : q.contains a) {k : Nat} (hk : q.hostBits ≤ k) :
    a.value / 2 ^ k = q.addr.value / 2 ^ k := by
  rw [← Nat.add_sub_cancel' hk, Nat.pow_add, ← Nat.div_div_eq_div_mul, ← Nat.div_div_eq_div_mul,
    (contains_iff.mp h).2.2.2]

/-- Of two prefixes that contain one address, the one with fewer bits has the
leading bits of the other. -/
theorem quotient_eq (hp : p.contains a) (hq : q.contains a) (hle : p.bits ≤ q.bits) :
    p.addr.value / 2 ^ p.hostBits = q.addr.value / 2 ^ p.hostBits := by
  obtain ⟨_, _, hplen, hpval⟩ := contains_iff.mp hp
  obtain ⟨_, _, hqlen, _⟩ := contains_iff.mp hq
  have hhost : q.hostBits ≤ p.hostBits := by
    simp only [bits, hostBits] at hle ⊢
    omega
  rw [← hpval, value_div_eq hq hhost]

/-- The result of `Addr.Prefix`, when there is one. -/
theorem toPrefix_spec {ip : Addr} {b : Int} (hip : ip ≠ .zero) (hzone : ip.hasZone = false)
    (hb : 0 ≤ b) (hle : b ≤ ip.bitLen) :
    ∃ q, ip.toPrefix b = some q ∧ q.addr = ip.mask (ip.bitLen - b.toNat) ∧ q.bits = b := by
  have hmask : ip.mask (ip.bitLen - b.toNat) ≠ .zero := by
    cases ip <;> simp_all [mask, withValue]
  refine ⟨_, ?_, (prefixFrom_spec hmask (by simpa using hzone) hb (by simpa using hle)).2⟩
  rw [toPrefix, if_neg (by omega), if_neg hip, if_neg (by omega)]

/-- Two addresses of one family have the same prefix of a length if and only
if their leading bits agree. -/
theorem toPrefix_addr_eq_iff (hp : p.isValid) (hq : q.isValid)
    (hlen : p.addr.bitLen = q.addr.bitLen) {b : Int} (hb : 0 ≤ b) (hle : b ≤ p.addr.bitLen) :
    ∃ p' q', p.addr.toPrefix b = some p' ∧ q.addr.toPrefix b = some q' ∧
      (p'.addr = q'.addr ↔ p.addr.value / 2 ^ (p.addr.bitLen - b.toNat) =
        q.addr.value / 2 ^ (p.addr.bitLen - b.toNat)) := by
  obtain ⟨p', hp', hpaddr, _⟩ := toPrefix_spec (addr_ne_zero hp) p.noZone hb hle
  obtain ⟨q', hq', hqaddr, _⟩ := toPrefix_spec (addr_ne_zero hq) q.noZone hb (hlen ▸ hle)
  refine ⟨p', q', hp', hq', ?_⟩
  rw [hpaddr, hqaddr, ← hlen]
  exact mask_eq_mask_iff p.noZone q.noZone hlen _

/-- Prefixes that contain one address overlap. -/
theorem overlaps_of_contains (hp : p.contains a) (hq : q.contains a) : p.overlaps q := by
  obtain ⟨hpvalid, _, hplen, _⟩ := contains_iff.mp hp
  obtain ⟨hqvalid, _, hqlen, _⟩ := contains_iff.mp hq
  have hlen : p.addr.bitLen = q.addr.bitLen := hplen.symm.trans hqlen
  have hfamily := (bitLen_eq_iff hpvalid hqvalid).mp hlen
  have hpnonneg := bits_nonneg hpvalid
  have hqnonneg := bits_nonneg hqvalid
  have hple := bits_le_bitLen hpvalid
  obtain ⟨p', q', hp', hq', hiff⟩ := toPrefix_addr_eq_iff hpvalid hqvalid hlen
    (b := min p.bits q.bits) (by omega) (by omega)
  have heq : p'.addr = q'.addr := by
    refine hiff.mpr ?_
    cases Int.le_total p.bits q.bits with
    | inl hle =>
      rw [Int.min_eq_left hle, hostBits_eq hpvalid]
      exact quotient_eq hp hq hle
    | inr hle =>
      rw [Int.min_eq_right hle, hlen, hostBits_eq hqvalid]
      exact (quotient_eq hq hp hle).symm
  rw [overlaps]
  simp [hpvalid, hqvalid, hfamily, hp', hq', heq]

/-- The address of a masked prefix, and its bits. -/
theorem masked_eq (h : p.isValid) :
    p.masked.addr = p.addr.mask p.hostBits ∧ p.masked.bits = p.bits := by
  obtain ⟨q, hq, haddr, hbits⟩ :=
    toPrefix_spec (addr_ne_zero h) p.noZone (bits_nonneg h) (bits_le_bitLen h)
  rw [masked, hq, Option.getD_some, ← hostBits_eq h]
  exact ⟨haddr, hbits⟩

theorem masked_addr (h : p.isValid) : p.masked.addr = p.addr.mask p.hostBits := (masked_eq h).1

/-- The number of the first address of a prefix. -/
theorem value_masked (h : p.isValid) :
    p.masked.addr.value = p.addr.value / 2 ^ p.hostBits * 2 ^ p.hostBits := by
  rw [masked_addr h, value_mask]

/-- The addresses of a prefix are those of an interval. -/
theorem contains_iff_value (h : p.isValid) :
    p.contains a ↔ a.hasZone = false ∧ a.bitLen = p.addr.bitLen ∧
      p.masked.addr.value ≤ a.value ∧ a.value < p.masked.addr.value + 2 ^ p.hostBits := by
  have hpos : 0 < 2 ^ p.hostBits := Nat.two_pow_pos _
  have hdiv : a.value / 2 ^ p.hostBits = p.addr.value / 2 ^ p.hostBits ↔
      p.masked.addr.value ≤ a.value ∧ a.value < p.masked.addr.value + 2 ^ p.hostBits := by
    rw [value_masked h]
    generalize p.addr.value / 2 ^ p.hostBits = n
    have hsum := Nat.div_add_mod a.value (2 ^ p.hostBits)
    have hlt := Nat.mod_lt a.value hpos
    constructor
    · intro heq
      rw [heq, Nat.mul_comm] at hsum
      omega
    · intro hbounds
      refine Nat.div_eq_of_lt_le hbounds.1 ?_
      rw [Nat.succ_mul]
      exact hbounds.2
  rw [contains_iff, hdiv]
  simp [h]

/-- Masking changes neither the addresses of a prefix nor its length. -/
theorem masked_spec (p : Prefix) (a : Addr) :
    (p.masked.contains a = p.contains a) ∧ p.masked.bits = p.bits := by
  by_cases hvalid : p.isValid
  · obtain ⟨haddr, hbits⟩ := masked_eq hvalid
    have hplus : p.masked.bitsPlusOne = p.bitsPlusOne := by
      simp only [bits] at hbits
      omega
    have hhost : p.masked.hostBits = p.hostBits := by
      rw [hostBits, hostBits, hplus, haddr, bitLen_mask]
    have hquot : p.masked.addr.value / 2 ^ p.hostBits = p.addr.value / 2 ^ p.hostBits := by
      rw [haddr, value_mask, Nat.mul_div_cancel _ (Nat.two_pow_pos _)]
    refine ⟨?_, hbits⟩
    rw [contains, contains, isValid, isValid, hplus, hhost, hquot, haddr, bitLen_mask]
  · have hzero : p.bitsPlusOne = 0 := by simpa [isValid] using hvalid
    have hmasked : p.masked = .zero := by
      rw [masked, toPrefix, if_pos (by rw [bits, hzero]; decide)]
      rfl
    refine ⟨?_, ?_⟩
    · rw [hmasked, contains, contains, isValid, isValid, hzero]
      rfl
    · rw [hmasked, bits, bits, hzero]
      rfl

/-- A prefix contains its own address. -/
theorem contains_addr (h : p.isValid) : p.contains p.addr :=
  contains_iff.mpr ⟨h, p.noZone, rfl, rfl⟩

/-- A prefix without bits contains its whole family. -/
theorem contains_of_bits_eq_zero (h : p.bits = 0) (hzone : a.hasZone = false)
    (hlen : a.bitLen = p.addr.bitLen) : p.contains a := by
  have hvalid := isValid_iff.mpr h.ge
  have hhost : p.hostBits = p.addr.bitLen := by rw [← hostBits_eq hvalid, h, Int.toNat_zero, Nat.sub_zero]
  refine contains_iff.mpr ⟨hvalid, hzone, hlen, ?_⟩
  rw [hhost, Nat.div_eq_of_lt p.addr.value_lt, Nat.div_eq_of_lt (hlen ▸ a.value_lt)]

/-- The addresses of a prefix, by number. -/
theorem exists_address (hp : p.isValid) {d : Nat} (hd : d < 2 ^ p.hostBits) :
    ∃ a, p.contains a ∧ a.value = p.masked.addr.value + d := by
  have hsum : p.addr.bitLen = (p.addr.bitLen - p.hostBits) + p.hostBits := by
    simp only [hostBits, isValid, decide_eq_true_eq] at *
    omega
  have hlt : p.addr.value / 2 ^ p.hostBits < 2 ^ (p.addr.bitLen - p.hostBits) := by
    refine Nat.div_lt_of_lt_mul ?_
    rw [← Nat.pow_add, Nat.add_comm, ← hsum]
    exact p.addr.value_lt
  have hbound : p.masked.addr.value + d < 2 ^ p.addr.bitLen := by
    have := Nat.mul_le_mul_right (2 ^ p.hostBits) (Nat.succ_le_of_lt hlt)
    rw [← Nat.pow_add, ← hsum, Nat.succ_mul, ← value_masked hp] at this
    omega
  refine ⟨p.addr.withValue (p.masked.addr.value + d), ?_, value_withValue hbound⟩
  refine (contains_iff_value hp).mpr ⟨by simpa using p.noZone, by simp, ?_⟩
  rw [value_withValue hbound]
  omega

/-- A prefix whose addresses are all in another one has at least its bits. -/
theorem bits_le_of_within (hp : p.isValid) (h : ∀ a, p.contains a → q.contains a) :
    q.bits ≤ p.bits := by
  have hq := (contains_iff.mp (h _ (contains_addr hp))).1
  have hpos := Nat.two_pow_pos p.hostBits
  -- the first address and the last one
  obtain ⟨a, ha, hfirst⟩ := exists_address hp hpos
  obtain ⟨b, hb, hlast⟩ := exists_address hp (Nat.sub_lt hpos Nat.one_pos)
  obtain ⟨_, hlen, hlow, _⟩ := (contains_iff_value hq).mp (h a ha)
  obtain ⟨_, _, _, hhigh⟩ := (contains_iff_value hq).mp (h b hb)
  have hhost : p.hostBits ≤ q.hostBits :=
    (Nat.pow_le_pow_iff_right (by decide : 1 < 2)).mp (by omega)
  have hplen := (contains_iff.mp ha).2.2.1
  have := bitsPlusOne_le hq
  simp only [bits, hostBits] at *
  omega

end Prefix

end Netip
