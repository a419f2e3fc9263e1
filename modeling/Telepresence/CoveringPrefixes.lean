import Mathlib.Data.FinEnum
import Telepresence.Lib.Maps
import Telepresence.Lib.Prefixes

/-!
# The subnets that cover a set of addresses

`CoveringPrefixes` of `pkg/subnet`.  The addresses are divided by the first
two bytes of an IPv4 address, or the first eight of an IPv6 address.  For each
of the bytes that follow, except the last one, a bitfield remembers its values,
and the prefix of a subnet is as long as these have their leading bits in
common.

* `mask_spec`: all values in a bitfield have the leading bits that `Mask`
  returns.
* `mem_coveringPrefixes`: which prefixes are returned; they depend on the set
  of the addresses only.
* `exists_covering`: every address without a zone is in one of them.
-/

namespace Telepresence.Subnet

open Netip List BigEndian Addr

/-! ## Bitfields -/

/-- `Bitfield256`: a set of bytes. -/
abbrev Bitfield256 := Finset UInt8

/-- The loop of `Mask`, with the number of bits that are still to be tested. -/
def maskLoop (b : Bitfield256) : Nat → Nat → Nat × Nat
  | 0, value => (8, value)
  | testBit + 1, value =>
      if ∀ bv ∈ b, bv.toNat.testBit testBit = false then maskLoop b testBit value
      else if ∀ bv ∈ b, bv.toNat.testBit testBit = true then
        maskLoop b testBit (value ||| 2 ^ testBit)
      else (7 - testBit, value)

/-- `Bitfield256.Mask`. -/
def mask (b : Bitfield256) : Nat × UInt8 :=
  ((maskLoop b 8 0).1, UInt8.ofNat (maskLoop b 8 0).2)

/-- The bits from the given one on are those of all values. -/
def Agrees (b : Bitfield256) (value bit : Nat) : Prop :=
  ∀ bv ∈ b, ∀ j, bit ≤ j → bv.toNat.testBit j = value.testBit j

theorem maskLoop_spec {b : Bitfield256} {t value : Nat} (ht : t ≤ 8) (hvalue : value < 2 ^ 8)
    (hclear : ∀ j, j < t → value.testBit j = false) (hagrees : Agrees b value t) :
    (maskLoop b t value).1 ≤ 8 ∧ (maskLoop b t value).2 < 2 ^ 8 ∧
      Agrees b (maskLoop b t value).2 (8 - (maskLoop b t value).1) := by
  induction t generalizing value with
  | zero => exact ⟨Nat.le_refl 8, hvalue, hagrees⟩
  | succ t ih =>
    rw [maskLoop]
    split
    · rename_i hall
      refine ih (by omega) hvalue (fun j hj => hclear j (by omega)) ?_
      intro bv hbv j hj
      by_cases hjt : j = t
      · subst hjt
        rw [hall bv hbv, hclear j (by omega)]
      · exact hagrees bv hbv j (by omega)
    · split
      · rename_i hall
        have hbit : 2 ^ t < 2 ^ 8 := Nat.pow_lt_pow_right (by decide) (by omega)
        refine ih (by omega) (Nat.or_lt_two_pow hvalue hbit) ?_ ?_
        · intro j hj
          rw [Nat.testBit_or, hclear j (by omega), Nat.testBit_two_pow_of_ne (by omega)]
          rfl
        · intro bv hbv j hj
          rw [Nat.testBit_or]
          by_cases hjt : j = t
          · subst hjt
            rw [hall bv hbv, Nat.testBit_two_pow_self, Bool.or_true]
          · rw [Nat.testBit_two_pow_of_ne (Ne.symm hjt), Bool.or_false]
            exact hagrees bv hbv j (by omega)
      · refine ⟨by dsimp only; omega, hvalue, ?_⟩
        have hbits : 8 - (7 - t) = t + 1 := by omega
        rw [hbits]
        exact hagrees

/-- **The leading bits.**  All values of a bitfield agree with the byte that
`Mask` returns on as many leading bits as it says. -/
theorem mask_spec {b : Bitfield256} {bv : UInt8} (hbv : bv ∈ b) :
    (mask b).1 ≤ 8 ∧
      bv.toNat / 2 ^ (8 - (mask b).1) = (mask b).2.toNat / 2 ^ (8 - (mask b).1) := by
  have hinit : Agrees b 0 8 := by
    intro bv _ j hj
    rw [Nat.zero_testBit]
    exact Nat.testBit_lt_two_pow (Nat.lt_of_lt_of_le bv.toNat_lt (Nat.pow_le_pow_right (by decide) hj))
  obtain ⟨hones, hlt, hagrees⟩ := maskLoop_spec (Nat.le_refl 8) (by decide)
    (fun j _ => Nat.zero_testBit j) hinit
  refine ⟨hones, ?_⟩
  have hvalue : (mask b).2.toNat = (maskLoop b 8 0).2 := by
    rw [mask, UInt8.toNat_ofNat']
    exact Nat.mod_eq_of_lt hlt
  rw [hvalue]
  apply Nat.eq_of_testBit_eq
  intro j
  rw [Nat.testBit_div_two_pow, Nat.testBit_div_two_pow]
  exact hagrees bv hbv _ (Nat.le_add_left ..)

/-- The loop over the bitfields of an IPv6 subnet: the number of leading bits
that the bytes have in common, and the bytes.  It ends with the first byte that
has not all of them. -/
def maskBytes : List Bitfield256 → Nat × List UInt8
  | [] => (0, [])
  | bytes :: byteSets =>
      if (mask bytes).1 ≠ 8 then
        ((mask bytes).1, (mask bytes).2 :: List.replicate byteSets.length 0)
      else (8 + (maskBytes byteSets).1, (mask bytes).2 :: (maskBytes byteSets).2)

theorem length_maskBytes (byteSets : List Bitfield256) :
    (maskBytes byteSets).2.length = byteSets.length := by
  induction byteSets with
  | nil => rfl
  | cons bytes byteSets ih =>
    rw [maskBytes]
    split
    · simp
    · simp [ih]

/-- The bytes that are in the bitfields have the leading bits. -/
theorem maskBytes_spec {xs : List UInt8} {byteSets : List Bitfield256}
    (h : List.Forall₂ (fun x b => x ∈ b) xs byteSets) :
    (maskBytes byteSets).1 ≤ 8 * byteSets.length ∧
      toNat xs / 2 ^ (8 * byteSets.length - (maskBytes byteSets).1) =
        toNat (maskBytes byteSets).2 /
          2 ^ (8 * byteSets.length - (maskBytes byteSets).1) := by
  induction h with
  | nil => exact ⟨Nat.le_refl 0, rfl⟩
  | @cons x bytes xs byteSets hx hrest ih =>
    obtain ⟨hones, hmask⟩ := mask_spec hx
    obtain ⟨hle, ih⟩ := ih
    have hlen : xs.length = byteSets.length := hrest.length_eq
    rw [maskBytes, length_cons]
    split
    · dsimp only
      refine ⟨by omega, ?_⟩
      have hk : 8 * (byteSets.length + 1) - (mask bytes).1 =
          8 * byteSets.length + (8 - (mask bytes).1) := by omega
      have hbytes := toNat_cons_div (mask bytes).2 (replicate byteSets.length 0)
        (8 - (mask bytes).1)
      rw [length_replicate] at hbytes
      rw [hk, hbytes, ← hmask, ← hlen, toNat_cons_div]
    · rename_i height
      rw [not_not] at height
      rw [height, Nat.sub_self, Nat.pow_zero, Nat.div_one, Nat.div_one, UInt8.toNat_inj] at hmask
      dsimp only
      refine ⟨by omega, ?_⟩
      have hk : 8 * (byteSets.length + 1) - (8 + (maskBytes byteSets).1) =
          8 * byteSets.length - (maskBytes byteSets).1 := by omega
      rw [hk, ← hmask]
      refine toNat_append_div [x] ?_ ?_ ih
      · rw [hlen, length_maskBytes]
      · rw [length_maskBytes]
        omega

/-! ## Dividing the addresses -/

/-- How the bytes of an address are used: the first ones identify the subnet,
and the next ones have a bitfield each. -/
structure Division where
  network : Nat
  fields : Nat

/-- IPv4 has 2 byte subnets and one bitfield for the third byte. -/
def Division.ipv4 : Division := ⟨2, 1⟩

/-- IPv6 has 8 byte subnets and seven bitfields. -/
def Division.ipv6 : Division := ⟨8, 7⟩

namespace Division

variable (d : Division)

/-- The body of the loop over the addresses, for the bytes of one of them. -/
def add (subnets : GoMap (List UInt8) (List Bitfield256)) (bytes : List UInt8) :
    GoMap (List UInt8) (List Bitfield256) :=
  let r := bytes.take d.network
  let byteSets := (subnets.lookup r).getD (List.replicate d.fields ∅)
  subnets.insert r (byteSets.mapIdx fun i b => insert (bytes.getD (i + d.network) 0) b)

/-- The prefix of a subnet. -/
def subnet (network : List UInt8) (byteSets : List Bitfield256) : Prefix :=
  prefixFrom ((fromSlice (network ++ (maskBytes byteSets).2 ++ [0])).getD .zero)
    (8 * d.network + (maskBytes byteSets).1)

/-- The subnets of some addresses, given by their bytes. -/
def subnets (addrs : List (List UInt8)) : List Prefix :=
  (addrs.foldl d.add ∅).entries.map fun e => d.subnet e.1 e.2

/-- The values that a byte of the addresses of a subnet has. -/
def values (addrs : List (List UInt8)) (r : List UInt8) (i : Nat) : Bitfield256 :=
  ((addrs.filter fun bytes => bytes.take d.network = r).map
    fun bytes => bytes.getD (i + d.network) 0).toFinset

theorem mem_values {addrs : List (List UInt8)} {r : List UInt8} {i : Nat} {v : UInt8} :
    v ∈ d.values addrs r i ↔
      ∃ bytes ∈ addrs, bytes.take d.network = r ∧ bytes.getD (i + d.network) 0 = v := by
  simp [values, and_assoc]

/-- What the loop has collected. -/
theorem lookup_foldl_add (addrs : List (List UInt8)) (r : List UInt8) :
    (addrs.foldl d.add ∅).lookup r =
      if ∃ bytes ∈ addrs, bytes.take d.network = r then
        some ((List.range d.fields).map (d.values addrs r)) else none := by
  induction addrs using reverseRecOn with
  | nil => simp
  | append_singleton addrs bytes ih =>
    rw [foldl_concat, add, GoMap.lookup_insert_eq]
    by_cases hr : r = bytes.take d.network
    · subst hr
      rw [if_pos rfl, if_pos ⟨bytes, by simp, rfl⟩, Option.some.injEq, ih]
      -- one more value in each bitfield, of an old subnet or a new one
      have hold : (if ∃ bs ∈ addrs, bs.take d.network = bytes.take d.network then
          some ((range d.fields).map (d.values addrs (bytes.take d.network))) else
            none).getD (replicate d.fields ∅) =
          (range d.fields).map (d.values addrs (bytes.take d.network)) := by
        split
        · rfl
        · rename_i hnone
          rw [Option.getD_none]
          refine ext_getElem (by simp) ?_
          intro i _ _
          rw [getElem_replicate, getElem_map, eq_comm, Finset.eq_empty_iff_forall_notMem]
          intro v hv
          obtain ⟨bs, hbs, htake, _⟩ := d.mem_values.mp hv
          exact hnone ⟨bs, hbs, htake⟩
      rw [hold]
      refine ext_getElem (by simp) ?_
      intro i _ _
      rw [getElem_mapIdx, getElem_map, getElem_map, getElem_range]
      ext v
      simp only [Finset.mem_insert, mem_values, mem_append, mem_singleton]
      grind
    · rw [if_neg hr, ih]
      have hmem : (∃ bs ∈ addrs ++ [bytes], bs.take d.network = r) ↔
          ∃ bs ∈ addrs, bs.take d.network = r := by
        simp [Ne.symm hr]
      have hvalues : d.values (addrs ++ [bytes]) r = d.values addrs r := by
        funext i
        ext v
        simp [mem_values, Ne.symm hr]
      simp only [hmem, hvalues]

/-- **The subnets of some addresses.** -/
theorem mem_subnets {addrs : List (List UInt8)} {p : Prefix} :
    p ∈ d.subnets addrs ↔
      ∃ bytes ∈ addrs, p = d.subnet (bytes.take d.network)
        ((List.range d.fields).map (d.values addrs (bytes.take d.network))) := by
  simp only [subnets, mem_map, Sigma.exists, GoMap.mem_entries_iff, d.lookup_foldl_add]
  constructor
  · intro ⟨r, byteSets, h, hp⟩
    split at h
    · rename_i hex
      obtain ⟨bytes, hbytes, rfl⟩ := hex
      cases h
      exact ⟨bytes, hbytes, hp.symm⟩
    · cases h
  · intro ⟨bytes, hbytes, hp⟩
    exact ⟨bytes.take d.network, _, if_pos ⟨bytes, hbytes, rfl⟩, hp.symm⟩

/-- An address of the family that is divided has as many bytes as this. -/
def size : Nat := d.network + d.fields + 1

/-- Numbers that agree as far as they go, apart from the last byte. -/
theorem leading_eq (pre : List UInt8) {xs ys : List UInt8} (x y : UInt8) {k : Nat}
    (hlen : xs.length = ys.length) (hk : k ≤ 8 * ys.length)
    (h : toNat xs / 2 ^ k = toNat ys / 2 ^ k) :
    toNat (pre ++ (xs ++ [x])) / 2 ^ (8 + k) =
      toNat (pre ++ (ys ++ [y])) / 2 ^ (8 + k) := by
  have hlast : ∀ (zs : List UInt8) (z : UInt8),
      toNat (zs ++ [z]) / 2 ^ (8 + k) = toNat zs / 2 ^ k := by
    intro zs z
    have hz : z.toNat < 2 ^ 8 := z.toNat_lt
    rw [toNat_append, toNat_singleton, length_singleton, Nat.pow_one,
      Nat.pow_add, ← Nat.div_div_eq_div_mul]
    congr 1
    omega
  refine toNat_append_div pre ?_ ?_ ?_
  · simp [hlen]
  · rw [length_append, length_singleton]
    omega
  · rw [hlast, hlast, h]

/-- Every address is in the subnet of its network. -/
theorem contains_subnet {addrs : List (List UInt8)} {a : Addr} (hmem : a.asSlice ∈ addrs)
    (hlen : a.asSlice.length = d.size) (hzone : a.hasZone = false) (ha : a ≠ .zero) :
    (d.subnet (a.asSlice.take d.network)
      ((List.range d.fields).map (d.values addrs (a.asSlice.take d.network)))).contains a := by
  rw [size] at hlen
  have hfields : List.Forall₂ (fun x b => x ∈ b) ((a.asSlice.drop d.network).take d.fields)
      ((range d.fields).map (d.values addrs (a.asSlice.take d.network))) := by
    rw [forall₂_iff_get]
    refine ⟨by simp; omega, ?_⟩
    intro i hi _
    rw [length_take, length_drop] at hi
    simp only [get_eq_getElem, getElem_take, getElem_drop, getElem_map,
      getElem_range]
    refine d.mem_values.mpr ⟨a.asSlice, hmem, rfl, ?_⟩
    rw [Nat.add_comm]
    exact (getElem_eq_getD 0).symm
  have hvalues : ((range d.fields).map
      (d.values addrs (a.asSlice.take d.network))).length = d.fields := by simp
  obtain ⟨hones, hdiv⟩ := maskBytes_spec hfields
  have hbytes := length_maskBytes
    ((range d.fields).map (d.values addrs (a.asSlice.take d.network)))
  rw [subnet]
  generalize (range d.fields).map (d.values addrs (a.asSlice.take d.network)) = byteSets at *
  rw [hvalues] at hones hdiv hbytes
  -- the bytes of the address: network, fields and the last one
  obtain ⟨last, hlast⟩ : ∃ last, a.asSlice =
      a.asSlice.take d.network ++ ((a.asSlice.drop d.network).take d.fields ++ [last]) := by
    have hdrop : (a.asSlice.drop (d.network + d.fields)).length = 1 := by
      rw [length_drop]
      omega
    obtain ⟨last, hlast⟩ := length_eq_one_iff.mp hdrop
    refine ⟨last, ?_⟩
    rw [← hlast, ← drop_drop, take_append_drop, take_append_drop]
  have hlen' : (a.asSlice.take d.network ++ (maskBytes byteSets).2 ++ [0]).length =
      a.asSlice.length := by
    simp only [length_append, length_take, hbytes, length_singleton]
    omega
  obtain ⟨q, hq, hqlen, hqzone, hqvalue⟩ := fromSlice_spec ha hlen'
  have hbitLen : q.bitLen = 8 * (d.network + d.fields + 1) := by
    rw [hqlen, bitLen_eq, hlen]
  have hqzero : q ≠ .zero := by
    intro hzero
    rw [hzero, bitLen] at hbitLen
    omega
  have hbits : (8 * d.network + (maskBytes byteSets).1 : Int) =
      ((8 * d.network + (maskBytes byteSets).1 : Nat) : Int) := by
    push_cast
    rfl
  rw [hq, Option.getD_some, hbits, Prefix.contains_prefixFrom hqzero hqzone (by omega)]
  refine ⟨hzone, hqlen.symm, ?_⟩
  have hk : q.bitLen - (8 * d.network + (maskBytes byteSets).1) =
      8 + (8 * d.fields - (maskBytes byteSets).1) := by
    omega
  have hvalue : a.value = toNat
      (a.asSlice.take d.network ++ ((a.asSlice.drop d.network).take d.fields ++ [last])) :=
    congrArg toNat hlast
  rw [hk, hvalue, hqvalue, append_assoc]
  refine leading_eq _ last 0 ?_ ?_ hdiv
  · rw [length_take, length_drop, hbytes]
    omega
  · rw [hbytes]
    omega

end Division

/-! ## All subnets -/

/-- `Addr.Less`, as far as it is used here: addresses without a zone. -/
def less (a b : Addr) : Bool :=
  if a.bitLen = b.bitLen then a.value < b.value else a.bitLen < b.bitLen

/-- The addresses of a family, as bytes. -/
def bytesOf (family : Addr → Bool) (addrs : List Addr) : List (List UInt8) :=
  (addrs.filter family).map asSlice

/-- `CoveringPrefixes`. -/
def coveringPrefixes (addrs : List Addr) : List Prefix :=
  (Division.ipv4.subnets (bytesOf is4 addrs) ++
    Division.ipv6.subnets (bytesOf is6 addrs)).insertionSort fun p q => !less q.addr p.addr

variable {addrs : List Addr} {p : Prefix}

theorem mem_coveringPrefixes :
    p ∈ coveringPrefixes addrs ↔ p ∈ Division.ipv4.subnets (bytesOf is4 addrs) ∨
      p ∈ Division.ipv6.subnets (bytesOf is6 addrs) := by
  rw [coveringPrefixes, (perm_insertionSort _ _).mem_iff, mem_append]

/-- The subnets are determined by the set of the addresses. -/
theorem Division.mem_subnets_congr (d : Division) {xs ys : List (List UInt8)}
    (h : ∀ bytes, bytes ∈ xs ↔ bytes ∈ ys) : p ∈ d.subnets xs ↔ p ∈ d.subnets ys := by
  have hvalues : d.values xs = d.values ys := by
    funext r i
    ext v
    simp only [mem_values, h]
  simp only [mem_subnets, hvalues, h]

theorem mem_coveringPrefixes_congr {xs ys : List Addr} (h : ∀ a, a ∈ xs ↔ a ∈ ys) :
    p ∈ coveringPrefixes xs ↔ p ∈ coveringPrefixes ys := by
  have hbytes : ∀ (family : Addr → Bool) bytes,
      bytes ∈ bytesOf family xs ↔ bytes ∈ bytesOf family ys := by
    intro family bytes
    simp only [bytesOf, mem_map, mem_filter, h]
  rw [mem_coveringPrefixes, mem_coveringPrefixes, Division.mem_subnets_congr _ (hbytes is4),
    Division.mem_subnets_congr _ (hbytes is6)]

/-- An address of a family is in one of its subnets. -/
theorem exists_subnet (d : Division) (family : Addr → Bool) {a : Addr} (hmem : a ∈ addrs)
    (hfamily : family a = true) (hlen : a.asSlice.length = d.size) (ha : a ≠ .zero)
    (hzone : a.hasZone = false) : ∃ p ∈ d.subnets (bytesOf family addrs), p.contains a := by
  have hbytes : a.asSlice ∈ bytesOf family addrs :=
    mem_map.mpr ⟨a, mem_filter.mpr ⟨hmem, hfamily⟩, rfl⟩
  exact ⟨_, d.mem_subnets.mpr ⟨_, hbytes, rfl⟩, d.contains_subnet hbytes hlen hzone ha⟩

/-- **Every address is covered**, unless it has a zone. -/
theorem exists_covering {a : Addr} (hmem : a ∈ addrs) (ha : a ≠ .zero) (hzone : a.hasZone = false) :
    ∃ p ∈ coveringPrefixes addrs, p.contains a := by
  simp only [mem_coveringPrefixes]
  cases a with
  | zero => exact absurd rfl ha
  | v4 bytes =>
    obtain ⟨p, hp, hcontains⟩ := exists_subnet .ipv4 is4 hmem rfl bytes.2 ha hzone
    exact ⟨p, .inl hp, hcontains⟩
  | v6 bytes zone =>
    obtain ⟨p, hp, hcontains⟩ := exists_subnet .ipv6 is6 hmem rfl bytes.2 ha hzone
    exact ⟨p, .inr hp, hcontains⟩

end Telepresence.Subnet
