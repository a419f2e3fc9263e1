import Telepresence.Lib.Prefixes

/-!
# The device's own address

`pkg/vif/owned_address.go`: the source address that the device claims for
itself, which is drawn from the top of a range by the index of its interface.
The arithmetic on addresses goes byte by byte, from the last byte on.

* `broadcastAddr_spec`: the broadcast address is the last one of the prefix.
* `addrMinus_spec`: subtracting with borrow is subtraction.
* `ownedAddressIn_spec`: the address is in the upper half of the range, and not
  its last one.
* `ownedAddress_injective`: the IPv6 addresses of interfaces are different.
-/

namespace Telepresence.Vif

open Netip Prefix

/-! ## The code -/

/-- The loop of `broadcastAddr`, over the bytes from the last one on. -/
def fillLoop : Nat → List UInt8 → List UInt8
  | _, [] => []
  | hostBits, b :: bs =>
      if hostBits = 0 then b :: bs
      else
        let n := min hostBits 8
        (b ||| (0xff >>> UInt8.ofNat (8 - n))) :: fillLoop (hostBits - n) bs

/-- `broadcastAddr`. -/
def broadcastAddr (p : Prefix) : Addr :=
  let b := p.masked.addr.asSlice
  let hostBits : Int := b.length * 8 - p.bits
  (Addr.fromSlice (fillLoop hostBits.toNat b.reverse).reverse).getD .zero

/-- The loop of `addrMinus`, over the bytes from the last one on. -/
def minusLoop : UInt64 → List UInt8 → List UInt8
  | _, [] => []
  | n, b :: bs =>
      if n = 0 then b :: bs
      else
        let d := n.toUInt8
        if d ≤ b then (b - d) :: minusLoop (n >>> 8) bs
        else (b.toUInt64 + 0x100 - d.toUInt64).toUInt8 :: minusLoop ((n >>> 8) + 1) bs

/-- `addrMinus`. -/
def addrMinus (a : Addr) (n : UInt64) : Addr :=
  (Addr.fromSlice (minusLoop n a.asSlice.reverse).reverse).getD .zero

/-- `TelepresenceULA6`. -/
def telepresenceULA6 : Prefix :=
  prefixFrom (.v6 ⟨[0xfd, 0, 0, 0, 0, 0, 0x02, 0x46, 0, 0, 0, 0, 0, 0, 0, 0], rfl⟩ "") 64

/-- How far below the broadcast address the own address is. -/
def ownedOffset (hostBits : Nat) (ifaceIndex : UInt32) : UInt64 :=
  let upperHalf : UInt64 := 1 <<< UInt64.ofNat (min (hostBits - 1) 62)
  ifaceIndex.toUInt64 % (upperHalf - 1) + 1

/-- `ownedAddress`, for a given range. -/
def ownedAddressIn (rng : Prefix) (ipv4 : Bool) (ifaceIndex : UInt32) : Option Addr :=
  if !rng.isValid || rng.addr.is4 != ipv4 then none
  else if rng.hostBits < 2 then none
  else some (addrMinus (broadcastAddr rng) (ownedOffset rng.hostBits ifaceIndex))

/-- `ownedAddress`, with the configured and the default virtual subnet. -/
def ownedAddress (virtualSubnet defaultVirtualSubnet : Prefix) (ipv4 : Bool)
    (ifaceIndex : UInt32) : Option Addr :=
  let rng :=
    if ipv4 then
      if virtualSubnet.isValid && virtualSubnet.addr.is4 then virtualSubnet
      else defaultVirtualSubnet
    else telepresenceULA6
  ownedAddressIn rng ipv4 ifaceIndex

/-! ## Filling the host bits -/

/-- The number that bytes denote, least significant byte first. -/
def littleEndian (bs : List UInt8) : Nat := Nat.ofDigits 256 (bs.map UInt8.toNat)

@[simp] theorem littleEndian_nil : littleEndian [] = 0 := rfl

theorem littleEndian_cons (b : UInt8) (bs : List UInt8) :
    littleEndian (b :: bs) = b.toNat + 256 * littleEndian bs := by
  rw [littleEndian, List.map_cons, Nat.ofDigits_cons]
  rfl

theorem toNat_reverse (bs : List UInt8) : BigEndian.toNat bs.reverse = littleEndian bs := by
  rw [BigEndian.toNat, List.reverse_reverse, littleEndian]

@[simp] theorem length_fillLoop (hostBits : Nat) (bs : List UInt8) :
    (fillLoop hostBits bs).length = bs.length := by
  induction bs generalizing hostBits with
  | nil => rfl
  | cons b bs ih =>
    rw [fillLoop]
    split
    · rfl
    · simp [ih]

/-- Setting the lowest bits of a number. -/
theorem or_lowBits (x h : Nat) : x ||| (2 ^ h - 1) = x / 2 ^ h * 2 ^ h + (2 ^ h - 1) := by
  have hlt : 2 ^ h - 1 < 2 ^ h := Nat.sub_lt (Nat.two_pow_pos h) (by decide)
  refine Nat.eq_of_testBit_eq fun i => ?_
  rw [Nat.testBit_or, Nat.mul_comm, Nat.testBit_two_pow_mul_add _ hlt,
    Nat.testBit_two_pow_sub_one, Nat.testBit_div_two_pow]
  by_cases hi : i < h
  · simp [hi]
  · have hsum : i - h + h = i := by omega
    simp [hi, hsum]

/-- The byte that is filled in. -/
theorem toNat_lowBits {n : Nat} (hn : n ≤ 8) (hpos : 0 < n) :
    ((0xff : UInt8) >>> UInt8.ofNat (8 - n)).toNat = 2 ^ n - 1 := by
  interval_cases n <;> rfl

/-- **Filling.**  The loop sets the lowest bits. -/
theorem littleEndian_fillLoop (bs : List UInt8) (h : Nat) (hlen : h ≤ 8 * bs.length) :
    littleEndian (fillLoop h bs) = littleEndian bs / 2 ^ h * 2 ^ h + (2 ^ h - 1) := by
  induction bs generalizing h with
  | nil =>
    have hzero : h = 0 := by simpa using hlen
    simp [fillLoop, hzero]
  | cons b bs ih =>
    have hb : b.toNat < 256 := b.toNat_lt
    rw [fillLoop]
    by_cases hzero : h = 0
    · simp [hzero]
    rw [if_neg hzero, littleEndian_cons, littleEndian_cons, UInt8.toNat_or,
      toNat_lowBits (Nat.min_le_right h 8) (by omega), or_lowBits]
    by_cases hfull : 8 ≤ h
    · -- The whole byte is filled, and the loop goes on.
      have hmin : min h 8 = 8 := by omega
      have hpow : 2 ^ h = 256 * 2 ^ (h - 8) := by
        rw [show h = 8 + (h - 8) by omega, Nat.pow_add]
        simp
      have hdiv : (b.toNat + 256 * littleEndian bs) / 2 ^ h =
          littleEndian bs / 2 ^ (h - 8) := by
        rw [hpow, ← Nat.div_div_eq_div_mul]
        congr 1
        omega
      have hbyte : b.toNat / 2 ^ 8 = 0 := Nat.div_eq_of_lt hb
      have hone : 0 < 2 ^ (h - 8) := Nat.two_pow_pos _
      have hlen' : h - 8 ≤ 8 * bs.length := by
        simp only [List.length_cons] at hlen
        omega
      rw [hmin, hbyte, ih (h - 8) hlen', hdiv, hpow]
      generalize littleEndian bs / 2 ^ (h - 8) = q
      generalize 2 ^ (h - 8) = r at hone
      have hassoc : q * (256 * r) = 256 * (q * r) := by ring
      rw [hassoc]
      omega
    · -- The last bits are in this byte.
      have hmin : min h 8 = h := by omega
      have hdone : h - h = 0 := Nat.sub_self h
      have hrest : fillLoop 0 bs = bs := by cases bs <;> simp [fillLoop]
      have hdvd : 256 = 2 ^ h * 2 ^ (8 - h) := by
        rw [← Nat.pow_add, show h + (8 - h) = 8 by omega]
      have hdiv : (b.toNat + 256 * littleEndian bs) / 2 ^ h =
          b.toNat / 2 ^ h + 2 ^ (8 - h) * littleEndian bs := by
        rw [hdvd, Nat.mul_assoc, Nat.add_mul_div_left _ _ (Nat.two_pow_pos h)]
      have hscale : 2 ^ (8 - h) * littleEndian bs * 2 ^ h = 256 * littleEndian bs := by
        rw [hdvd]
        ring
      rw [hmin, hdone, hrest, hdiv, Nat.add_mul, hscale]
      omega

/-! ## Subtracting with borrow -/

@[simp] theorem length_minusLoop (n : UInt64) (bs : List UInt8) :
    (minusLoop n bs).length = bs.length := by
  induction bs generalizing n with
  | nil => rfl
  | cons b bs ih =>
    rw [minusLoop]
    split
    · rfl
    · dsimp only
      split
      · simp [ih]
      · simp [ih]

/-- **Subtracting.**  As long as the number is not too large, the loop
subtracts it. -/
theorem littleEndian_minusLoop (bs : List UInt8) (n : UInt64) (hn : n.toNat ≤ littleEndian bs) :
    littleEndian (minusLoop n bs) = littleEndian bs - n.toNat := by
  induction bs generalizing n with
  | nil => simp [minusLoop]
  | cons b bs ih =>
    have hb : b.toNat < 256 := b.toNat_lt
    have hbound : n.toNat < 2 ^ 64 := n.toNat_lt
    have hshift : (n >>> 8).toNat = n.toNat / 256 := by
      rw [UInt64.toNat_shiftRight, Nat.shiftRight_eq_div_pow]
      rfl
    have hbyte : n.toUInt8.toNat = n.toNat % 256 := UInt64.toNat_toUInt8 n
    rw [minusLoop]
    by_cases hzero : n = 0
    · simp [hzero]
    rw [if_neg hzero]
    dsimp only
    rw [littleEndian_cons] at hn ⊢
    by_cases hle : n.toUInt8 ≤ b
    · have hle' : n.toNat % 256 ≤ b.toNat := by
        rw [← hbyte]
        exact UInt8.le_iff_toNat_le.mp hle
      have hsub : (b - n.toUInt8).toNat = b.toNat - n.toNat % 256 := by
        rw [UInt8.toNat_sub_of_le _ _ hle, hbyte]
      have hrest : (n >>> 8).toNat ≤ littleEndian bs := by omega
      rw [if_pos hle, littleEndian_cons, ih _ hrest, hsub, hshift]
      omega
    · have hlt : b.toNat < n.toNat % 256 := by
        rw [← hbyte]
        exact Nat.lt_of_not_le fun h => hle (UInt8.le_iff_toNat_le.mpr h)
      have hborrow : ((n >>> 8) + 1).toNat = n.toNat / 256 + 1 := by
        rw [UInt64.toNat_add, hshift]
        change (n.toNat / 256 + 1) % 2 ^ 64 = n.toNat / 256 + 1
        omega
      have hsub : (b.toUInt64 + 0x100 - n.toUInt8.toUInt64).toUInt8.toNat =
          b.toNat + 256 - n.toNat % 256 := by
        rw [UInt64.toNat_toUInt8, UInt64.toNat_sub, UInt64.toNat_add, UInt8.toNat_toUInt64,
          UInt8.toNat_toUInt64, hbyte]
        change (2 ^ 64 - n.toNat % 256 + (b.toNat + 256) % 2 ^ 64) % 2 ^ 64 % 256 = _
        omega
      have hrest : ((n >>> 8) + 1).toNat ≤ littleEndian bs := by omega
      rw [if_neg hle, littleEndian_cons, ih _ hrest, hsub, hborrow]
      omega

/-! ## The addresses -/

section Addresses

variable {p : Prefix} (hp : p.isValid)

include hp

theorem masked_addr_ne_zero : p.masked.addr ≠ .zero :=
  addr_ne_zero (isValid_iff.mpr ((masked_eq hp).2 ▸ bits_nonneg hp))

/-- The broadcast address is the last address of the prefix. -/
theorem broadcastAddr_spec :
    (broadcastAddr p).bitLen = p.addr.bitLen ∧ (broadcastAddr p).hasZone = false ∧
      (broadcastAddr p).value = p.masked.addr.value + (2 ^ p.hostBits - 1) := by
  have hlen : p.masked.addr.bitLen = p.addr.bitLen := by
    rw [masked_addr hp, Addr.bitLen_mask]
  have hbits := bitsPlusOne_le hp
  have hpos : 0 < p.bitsPlusOne := by simpa [isValid] using hp
  have hslice := p.masked.addr.bitLen_eq
  have hhost : ((p.masked.addr.asSlice.length : Int) * 8 - p.bits).toNat = p.hostBits := by
    simp only [bits, hostBits]
    omega
  have hfit : p.hostBits ≤ 8 * p.masked.addr.asSlice.reverse.length := by
    rw [List.length_reverse, ← hslice, hlen, hostBits]
    omega
  have hlength : (fillLoop p.hostBits p.masked.addr.asSlice.reverse).reverse.length =
      p.masked.addr.asSlice.length := by simp
  obtain ⟨b, hb, hblen, hbzone, hbvalue⟩ := Addr.fromSlice_spec (masked_addr_ne_zero hp) hlength
  have hbroadcast : broadcastAddr p = b := by
    rw [broadcastAddr, hhost, hb, Option.getD_some]
  have hmasked : littleEndian p.masked.addr.asSlice.reverse = p.masked.addr.value := rfl
  rw [hbroadcast]
  refine ⟨hblen.trans hlen, hbzone, ?_⟩
  rw [hbvalue, toNat_reverse, littleEndian_fillLoop _ _ hfit, hmasked, value_masked hp,
    Nat.mul_div_cancel _ (Nat.two_pow_pos _)]

end Addresses

/-- Subtracting from an address. -/
theorem addrMinus_spec {a : Addr} (ha : a ≠ .zero) {n : UInt64} (hn : n.toNat ≤ a.value) :
    (addrMinus a n).bitLen = a.bitLen ∧ (addrMinus a n).hasZone = false ∧
      (addrMinus a n).value = a.value - n.toNat := by
  have hlength : (minusLoop n a.asSlice.reverse).reverse.length = a.asSlice.length := by simp
  obtain ⟨b, hb, hblen, hbzone, hbvalue⟩ := Addr.fromSlice_spec ha hlength
  have hminus : addrMinus a n = b := by rw [addrMinus, hb, Option.getD_some]
  rw [hminus]
  refine ⟨hblen, hbzone, ?_⟩
  rw [hbvalue, toNat_reverse, littleEndian_minusLoop _ _ hn]
  rfl

/-- The offset stays within the upper half. -/
theorem ownedOffset_bounds {hostBits : Nat} (h : 2 ≤ hostBits) (ifaceIndex : UInt32) :
    0 < (ownedOffset hostBits ifaceIndex).toNat ∧
      (ownedOffset hostBits ifaceIndex).toNat < 2 ^ (hostBits - 1) := by
  unfold ownedOffset
  generalize hkmin : min (hostBits - 1) 62 = k
  have hle : 2 ^ k ≤ 2 ^ (hostBits - 1) := Nat.pow_le_pow_right (by decide) (by omega)
  have htwo : 2 ^ 1 ≤ 2 ^ k := Nat.pow_le_pow_right (by decide) (by omega)
  have hcap : 2 ^ k ≤ 2 ^ 62 := Nat.pow_le_pow_right (by decide) (by omega)
  have hupper : ((1 : UInt64) <<< UInt64.ofNat k).toNat = 2 ^ k := by
    rw [UInt64.toNat_shiftLeft, UInt64.toNat_ofNat']
    change 1 <<< (k % 2 ^ 64 % 64) % 2 ^ 64 = _
    rw [Nat.mod_eq_of_lt (a := k) (by omega), Nat.mod_eq_of_lt (a := k) (by omega),
      Nat.shiftLeft_eq, Nat.one_mul]
    exact Nat.mod_eq_of_lt (by omega)
  have hsub : ((1 : UInt64) <<< UInt64.ofNat k - 1).toNat = 2 ^ k - 1 := by
    rw [UInt64.toNat_sub_of_le, hupper]
    · rfl
    · rw [UInt64.le_iff_toNat_le, hupper]
      change 1 ≤ _
      omega
  have hmod : ifaceIndex.toNat % (2 ^ k - 1) < 2 ^ k - 1 := Nat.mod_lt _ (by omega)
  have hoffset : (ifaceIndex.toUInt64 % (1 <<< UInt64.ofNat k - 1) + 1).toNat =
      ifaceIndex.toNat % (2 ^ k - 1) + 1 := by
    rw [UInt64.toNat_add, UInt64.toNat_mod, hsub, UInt32.toNat_toUInt64]
    change (ifaceIndex.toNat % _ + 1) % 2 ^ 64 = _
    exact Nat.mod_eq_of_lt (by omega)
  rw [hoffset]
  omega

/-- **The own address** lies in the upper half of the range, below its last
address. -/
theorem ownedAddressIn_spec {rng : Prefix} {ipv4 : Bool} {ifaceIndex : UInt32} {owned : Addr}
    (h : ownedAddressIn rng ipv4 ifaceIndex = some owned) :
    rng.isValid ∧ 2 ≤ rng.hostBits ∧ owned.hasZone = false ∧ owned.bitLen = rng.addr.bitLen ∧
      rng.masked.addr.value + 2 ^ (rng.hostBits - 1) ≤ owned.value ∧
      owned.value < (broadcastAddr rng).value := by
  unfold ownedAddressIn at h
  split at h
  · cases h
  rename_i hcheck
  split at h
  · cases h
  rename_i hsmall
  have hvalid : rng.isValid := by
    simp only [Bool.or_eq_true, not_or, Bool.not_eq_true', Bool.not_eq_false] at hcheck
    exact hcheck.1
  have hhost : 2 ≤ rng.hostBits := by omega
  obtain ⟨hpos, hlt⟩ := ownedOffset_bounds hhost ifaceIndex
  obtain ⟨hlen, _, hvalue⟩ := broadcastAddr_spec hvalid
  have hpow : 2 ^ rng.hostBits = 2 * 2 ^ (rng.hostBits - 1) := by
    rw [← Nat.pow_succ', show (rng.hostBits - 1).succ = rng.hostBits by omega]
  have hne : broadcastAddr rng ≠ .zero := by
    intro hzero
    rw [hzero] at hlen
    have haddr := addr_ne_zero hvalid
    cases hrng : rng.addr with
    | zero => exact haddr hrng
    | v4 bytes | v6 bytes zone =>
      rw [hrng] at hlen
      cases hlen
  have hfits : (ownedOffset rng.hostBits ifaceIndex).toNat ≤ (broadcastAddr rng).value := by omega
  obtain ⟨hmlen, hmzone, hmvalue⟩ := addrMinus_spec hne hfits
  cases h
  refine ⟨hvalid, hhost, hmzone, hmlen.trans hlen, ?_, ?_⟩
  · omega
  · omega

/-- **Unique addresses.**  Each interface has an own IPv6 address, and no two
interfaces have the same one. -/
theorem ownedAddress_injective (virtualSubnet defaultVirtualSubnet : Prefix) :
    (∀ i, (ownedAddress virtualSubnet defaultVirtualSubnet false i).isSome = true) ∧
      Function.Injective (ownedAddress virtualSubnet defaultVirtualSubnet false) := by
  have hsome : ∀ i, ownedAddress virtualSubnet defaultVirtualSubnet false i =
      some (addrMinus (broadcastAddr telepresenceULA6) (ownedOffset 64 i)) := fun _ => rfl
  -- an index is smaller than the half of the range, so it does not wrap
  have hoffset : ∀ i, (ownedOffset 64 i).toNat = i.toNat + 1 := by
    intro i
    have hlt := i.toNat_lt
    rw [ownedOffset, UInt64.toNat_add, UInt64.toNat_mod, UInt32.toNat_toUInt64]
    change (i.toNat % (2 ^ 62 - 1) + 1) % 2 ^ 64 = _
    omega
  have hlast : 2 ^ 64 ≤ (broadcastAddr telepresenceULA6).value := by decide +kernel
  refine ⟨fun i => by rw [hsome]; rfl, ?_⟩
  intro i j heq
  rw [hsome, hsome] at heq
  have hvalue := congrArg Addr.value (Option.some.inj heq)
  have hi := i.toNat_lt
  have hj := j.toNat_lt
  rw [(addrMinus_spec (by decide) (by rw [hoffset]; omega)).2.2,
    (addrMinus_spec (by decide) (by rw [hoffset]; omega)).2.2, hoffset, hoffset] at hvalue
  exact UInt32.toNat_inj.mp (by omega)

end Telepresence.Vif
