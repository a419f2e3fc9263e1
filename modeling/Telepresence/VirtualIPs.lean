import Telepresence.Lib.Threads
import Telepresence.Lib.Words
import Telepresence.OwnedAddress

/-!
# Virtual addresses

`pkg/client/rootd/vip/vip.go`: a generator hands out the addresses of a subnet
in turn.  Its counter is a word that every call increments atomically, and the
check that the address is one of the lower half comes after that, so the calls
are modelled as threads of two steps.

* `drawn_spec`: the address that belongs to each value of the counter.
* `contains_alloc`: the addresses that a generator accepts.
* `virtual_addresses_apart`: no two calls return the same address, and no call
  returns the address that the device claims for itself.
-/

namespace Telepresence.VirtualIPs

open Netip Vif Runs Threads Words List Function BigEndian Prefix

/-! ## The code -/

/-- The bytes that `ipV4FromInt` puts in an address. -/
def splitUint32 (v : UInt32) : List UInt8 :=
  [((v &&& 0xff000000) >>> 24).toUInt8, ((v &&& 0x00ff0000) >>> 16).toUInt8,
   ((v &&& 0x0000ff00) >>> 8).toUInt8, (v &&& 0x000000ff).toUInt8]

/-- The bytes that `ipV6FromInts` takes from each of its words. -/
def splitUint64 (v : UInt64) : List UInt8 :=
  [((v &&& 0xff00000000000000) >>> 56).toUInt8, ((v &&& 0x00ff000000000000) >>> 48).toUInt8,
   ((v &&& 0x0000ff0000000000) >>> 40).toUInt8, ((v &&& 0x000000ff00000000) >>> 32).toUInt8,
   ((v &&& 0x00000000ff000000) >>> 24).toUInt8, ((v &&& 0x0000000000ff0000) >>> 16).toUInt8,
   ((v &&& 0x000000000000ff00) >>> 8).toUInt8, (v &&& 0x00000000000000ff).toUInt8]

/-- The word of four bytes, as `intFromIPV4` puts it together. -/
def joinUint32 (v0 v1 v2 v3 : UInt8) : UInt32 :=
  v0.toUInt32 <<< 24 ||| v1.toUInt32 <<< 16 ||| v2.toUInt32 <<< 8 ||| v3.toUInt32

/-- The word of eight bytes, as `intsFromIPV6` puts each of its two together. -/
def joinUint64 (v0 v1 v2 v3 v4 v5 v6 v7 : UInt8) : UInt64 :=
  v0.toUInt64 <<< 56 ||| v1.toUInt64 <<< 48 ||| v2.toUInt64 <<< 40 ||| v3.toUInt64 <<< 32 |||
    v4.toUInt64 <<< 24 ||| v5.toUInt64 <<< 16 ||| v6.toUInt64 <<< 8 ||| v7.toUInt64

/-- `ipV4FromInt`. -/
def ipV4FromInt (v : UInt32) : Addr := .v4 ⟨splitUint32 v, rfl⟩

/-- `intFromIPV4`, which is only called for an IPv4 address. -/
def intFromIPV4 (a : Addr) : UInt32 :=
  match a.asSlice with
  | [v0, v1, v2, v3] => joinUint32 v0 v1 v2 v3
  | _ => 0

/-- `ipV6FromInts`. -/
def ipV6FromInts (hi lo : UInt64) : Addr := Addr.from16 ⟨splitUint64 hi ++ splitUint64 lo, rfl⟩

/-- `intsFromIPV6`. -/
def intsFromIPV6 (a : Addr) : UInt64 × UInt64 :=
  match a.as16.1 with
  | [v0, v1, v2, v3, v4, v5, v6, v7, v8, v9, v10, v11, v12, v13, v14, v15] =>
      (joinUint64 v0 v1 v2 v3 v4 v5 v6 v7, joinUint64 v8 v9 v10 v11 v12 v13 v14 v15)
  | _ => (0, 0)

/-- `ip4Generator` and `vip6Provider`. -/
inductive Generator where
  | ip4 (subnet alloc : Prefix) (nextVirtualIP : UInt32)
  | ip6 (subnet alloc : Prefix) (fixedHi nextLo : UInt64)

/-- The part of the subnet that addresses are allocated from: its lower half,
unless it is a single address. -/
def allocOf (sn : Prefix) : Prefix :=
  if sn.bits < sn.addr.bitLen then prefixFrom sn.masked.addr (sn.bits + 1) else sn

/-- `NewGenerator`. -/
def newGenerator (sn : Prefix) : Generator :=
  let lo := sn.masked.addr
  if lo.is4 then .ip4 sn (allocOf sn) (intFromIPV4 lo)
  else
    let (fixed, loInt) := intsFromIPV6 lo
    .ip6 sn (allocOf sn) fixed loInt

namespace Generator

/-- `Subnet`. -/
def subnet : Generator → Prefix
  | ip4 subnet _ _ => subnet
  | ip6 subnet _ _ _ => subnet

/-- The prefix that `Next` checks an address against. -/
def alloc : Generator → Prefix
  | ip4 _ alloc _ => alloc
  | ip6 _ alloc _ _ => alloc

/-- The counter after the atomic addition. -/
def add : Generator → Generator
  | ip4 subnet alloc next => ip4 subnet alloc (next + 1)
  | ip6 subnet alloc hi next => ip6 subnet alloc hi (next + 1)

/-- The address that the counter stands for. -/
def addr : Generator → Addr
  | ip4 _ _ next => ipV4FromInt next
  | ip6 _ _ hi next => ipV6FromInts hi next

end Generator

open Generator

/-- The error `virtual subnet CIDR %s is exhausted`. -/
structure Exhausted where
  subnet : Prefix

/-- A generator, and what the calls of `Next` returned. -/
structure Shared where
  gen : Generator
  results : List (Except Exhausted Addr) := []

/-- The addresses that were returned. -/
def Shared.addresses (s : Shared) : List Addr := s.results.filterMap Except.toOption

/-- The steps of `Next`: the atomic addition, and the check of the address
that it gave. -/
inductive Frame where
  | add
  | check (nxt : Addr)

open VirtualIPs.Frame

/-- The calls. -/
inductive Operation where
  | next

/-- What a call does first. -/
def program : Operation → List Frame
  | .next => [.add]

/-- One step of a call. -/
def exec (s : Shared) (f : Frame) (_ : Unit) : Option (Shared × List Frame) :=
  match f with
  | .add =>
      let gen := s.gen.add
      some ({ s with gen }, [.check gen.addr])
  | .check nxt =>
      if s.gen.alloc.contains nxt then some ({ s with results := s.results ++ [.ok nxt] }, [])
      else some ({ s with results := s.results ++ [.error ⟨s.gen.subnet⟩] }, [])

/-- The generator, with the calls in progress. -/
abbrev GeneratorPool := Pool Shared Frame

/-- A call begins, or one takes a step. -/
def step : GeneratorPool → Action Operation Unit → Option GeneratorPool := Threads.step program exec

/-- A new generator. -/
def fresh (sn : Prefix) : GeneratorPool := { shared := { gen := newGenerator sn } }

/-! ## Words and addresses -/

theorem splitUint32_eq (v : UInt32) : splitUint32 v = (putNat 4 v.toNat).1 := by
  have hput : (putNat 4 v.toNat).1 =
      [UInt8.ofNat (v.toNat / 2 ^ 24), UInt8.ofNat (v.toNat / 2 ^ 16),
       UInt8.ofNat (v.toNat / 2 ^ 8), UInt8.ofNat (v.toNat / 2 ^ 0)] := by
    simp [putNat, lowBytes, Nat.div_div_eq_div_mul]
  rw [hput, splitUint32]
  simp only [cons.injEq, and_true]
  exact ⟨maskedByte32 v _ 24 (by decide) rfl, maskedByte32 v _ 16 (by decide) rfl,
    maskedByte32 v _ 8 (by decide) rfl, maskedByte32 v _ 0 (by decide) rfl⟩

theorem splitUint64_eq (v : UInt64) : splitUint64 v = (putNat 8 v.toNat).1 := by
  have hput : (putNat 8 v.toNat).1 =
      [UInt8.ofNat (v.toNat / 2 ^ 56), UInt8.ofNat (v.toNat / 2 ^ 48),
       UInt8.ofNat (v.toNat / 2 ^ 40), UInt8.ofNat (v.toNat / 2 ^ 32),
       UInt8.ofNat (v.toNat / 2 ^ 24), UInt8.ofNat (v.toNat / 2 ^ 16),
       UInt8.ofNat (v.toNat / 2 ^ 8), UInt8.ofNat (v.toNat / 2 ^ 0)] := by
    simp [putNat, lowBytes, Nat.div_div_eq_div_mul]
  rw [hput, splitUint64]
  simp only [cons.injEq, and_true]
  exact ⟨maskedByte64 v _ 56 (by decide) rfl, maskedByte64 v _ 48 (by decide) rfl,
    maskedByte64 v _ 40 (by decide) rfl, maskedByte64 v _ 32 (by decide) rfl,
    maskedByte64 v _ 24 (by decide) rfl, maskedByte64 v _ 16 (by decide) rfl,
    maskedByte64 v _ 8 (by decide) rfl, maskedByte64 v _ 0 (by decide) rfl⟩

theorem toNat_joinUint32 (v0 v1 v2 v3 : UInt8) :
    (joinUint32 v0 v1 v2 v3).toNat = toNat [v0, v1, v2, v3] := by
  have hor : (joinUint32 v0 v1 v2 v3).toNat =
      v0.toNat * 2 ^ 24 ||| v1.toNat * 2 ^ 16 ||| v2.toNat * 2 ^ 8 ||| v3.toNat * 2 ^ 0 := by
    simp (disch := decide) only [joinUint32, UInt32.toNat_or, toNat_shiftedByte32,
      UInt32.reduceToNat, UInt8.toNat_toUInt32, Nat.pow_zero, Nat.mul_one]
  rw [hor, ← toNat_singleton, or_shiftedByte [v0] v1 16, or_shiftedByte _ v2 8,
    or_shiftedByte _ v3 0]
  exact Nat.mul_one _

theorem toNat_joinUint64 (v0 v1 v2 v3 v4 v5 v6 v7 : UInt8) :
    (joinUint64 v0 v1 v2 v3 v4 v5 v6 v7).toNat =
      toNat [v0, v1, v2, v3, v4, v5, v6, v7] := by
  have hor : (joinUint64 v0 v1 v2 v3 v4 v5 v6 v7).toNat =
      v0.toNat * 2 ^ 56 ||| v1.toNat * 2 ^ 48 ||| v2.toNat * 2 ^ 40 ||| v3.toNat * 2 ^ 32 |||
        v4.toNat * 2 ^ 24 ||| v5.toNat * 2 ^ 16 ||| v6.toNat * 2 ^ 8 ||| v7.toNat * 2 ^ 0 := by
    simp (disch := decide) only [joinUint64, UInt64.toNat_or, toNat_shiftedByte64,
      UInt64.reduceToNat, UInt8.toNat_toUInt64, Nat.pow_zero, Nat.mul_one]
  rw [hor, ← toNat_singleton, or_shiftedByte [v0] v1 48, or_shiftedByte _ v2 40,
    or_shiftedByte _ v3 32, or_shiftedByte _ v4 24, or_shiftedByte _ v5 16, or_shiftedByte _ v6 8,
    or_shiftedByte _ v7 0]
  exact Nat.mul_one _

/-- The address of a word. -/
theorem value_ipV4FromInt (v : UInt32) : (ipV4FromInt v).value = v.toNat := by
  have hv : v.toNat < 256 ^ 4 := v.toNat_lt
  change toNat (splitUint32 v) = v.toNat
  rw [splitUint32_eq, toNat_putNat, Nat.mod_eq_of_lt hv]

/-- The address of two words. -/
theorem value_ipV6FromInts (hi lo : UInt64) :
    (ipV6FromInts hi lo).value = hi.toNat * 2 ^ 64 + lo.toNat := by
  have hhi : hi.toNat < 256 ^ 8 := hi.toNat_lt
  have hlo : lo.toNat < 256 ^ 8 := lo.toNat_lt
  have hlen : (splitUint64 lo).length = 8 := rfl
  have hpow : 256 ^ 8 = 2 ^ 64 := by norm_num
  change toNat (splitUint64 hi ++ splitUint64 lo) = _
  rw [toNat_append, hlen, splitUint64_eq, splitUint64_eq, toNat_putNat,
    toNat_putNat, Nat.mod_eq_of_lt hhi, Nat.mod_eq_of_lt hlo, hpow]

/-- The word of an address. -/
theorem toNat_intFromIPV4 (bytes : Bytes 4) :
    (intFromIPV4 (.v4 bytes)).toNat = (Addr.v4 bytes).value := by
  match bytes with
  | ⟨[v0, v1, v2, v3], _⟩ => exact toNat_joinUint32 v0 v1 v2 v3

/-- The two words of an address. -/
theorem toNat_intsFromIPV6 (bytes : Bytes 16) (zone : String) :
    (intsFromIPV6 (.v6 bytes zone)).1.toNat * 2 ^ 64 + (intsFromIPV6 (.v6 bytes zone)).2.toNat =
      (Addr.v6 bytes zone).value := by
  match bytes with
  | ⟨[v0, v1, v2, v3, v4, v5, v6, v7, v8, v9, v10, v11, v12, v13, v14, v15], _⟩ =>
    have hsplit := toNat_append [v0, v1, v2, v3, v4, v5, v6, v7]
      [v8, v9, v10, v11, v12, v13, v14, v15]
    have hpow : 256 ^ [v8, v9, v10, v11, v12, v13, v14, v15].length = 2 ^ 64 := by
      norm_num [length_cons]
    rw [hpow, ← toNat_joinUint64, ← toNat_joinUint64] at hsplit
    exact hsplit.symm

/-! ## The addresses that are drawn -/

/-- The address that the given number of additions leads to. -/
def drawn (sn : Prefix) (k : Nat) : Addr := (add^[k] (newGenerator sn)).addr

/-- The number of values of the counter. -/
def counterValues (sn : Prefix) : Nat := if sn.addr.is4 then 2 ^ 32 else 2 ^ 64

@[simp] theorem alloc_add (g : Generator) : g.add.alloc = g.alloc := by cases g <;> rfl

theorem add_iterate_ip4 (sn al : Prefix) (n : UInt32) (k : Nat) :
    add^[k] (.ip4 sn al n) = .ip4 sn al (n + UInt32.ofNat k) := by
  induction k with
  | zero => simp
  | succ k ih =>
    rw [iterate_succ_apply', ih, Generator.add, UInt32.ofNat_add, UInt32.add_assoc]
    rfl

theorem add_iterate_ip6 (sn al : Prefix) (hi n : UInt64) (k : Nat) :
    add^[k] (.ip6 sn al hi n) = .ip6 sn al hi (n + UInt64.ofNat k) := by
  induction k with
  | zero => simp
  | succ k ih =>
    rw [iterate_succ_apply', ih, Generator.add, UInt64.ofNat_add, UInt64.add_assoc]
    rfl

section Drawn

variable {sn : Prefix} (hsn : sn.isValid)

include hsn

/-- **The counter.**  Below a fixed high part, the addresses count up from the
network address, and wrap when all values of the counter are used. -/
theorem drawn_spec :
    ∃ high low, low < counterValues sn ∧ sn.masked.addr.value = high + low ∧
      ∀ k, (drawn sn k).bitLen = sn.addr.bitLen ∧ (drawn sn k).hasZone = false ∧
        (drawn sn k).value = high + (low + k) % counterValues sn := by
  have hmasked := masked_addr hsn
  have hne := addr_ne_zero hsn
  cases haddr : sn.addr with
  | zero => exact absurd haddr hne
  | v4 bytes =>
    have hv4 : ∃ lo, sn.masked.addr = .v4 lo := by
      rw [hmasked, haddr]
      exact ⟨_, rfl⟩
    obtain ⟨lo, hlo⟩ := hv4
    have hgen : newGenerator sn = .ip4 sn (allocOf sn) (intFromIPV4 (.v4 lo)) := by
      rw [newGenerator, hlo]
      rfl
    have hcount : counterValues sn = 2 ^ 32 := by
      rw [counterValues, haddr]
      rfl
    have hbound : (intFromIPV4 (.v4 lo)).toNat < 2 ^ 32 := UInt32.toNat_lt _
    refine ⟨0, (intFromIPV4 (.v4 lo)).toNat, by rw [hcount]; exact hbound, ?_, ?_⟩
    · rw [hlo, toNat_intFromIPV4, Nat.zero_add]
    · intro k
      have hdrawn : drawn sn k = ipV4FromInt (intFromIPV4 (.v4 lo) + UInt32.ofNat k) := by
        rw [drawn, hgen, add_iterate_ip4, Generator.addr]
      rw [hdrawn, hcount]
      refine ⟨rfl, rfl, ?_⟩
      rw [value_ipV4FromInt, UInt32.toNat_add, UInt32.toNat_ofNat', Nat.zero_add, Nat.add_mod_mod]
  | v6 bytes zone =>
    have hv6 : ∃ lo z, sn.masked.addr = .v6 lo z := by
      rw [hmasked, haddr]
      exact ⟨_, _, rfl⟩
    obtain ⟨lo, z, hlo⟩ := hv6
    have hgen : newGenerator sn = .ip6 sn (allocOf sn) (intsFromIPV6 (.v6 lo z)).1
        (intsFromIPV6 (.v6 lo z)).2 := by
      rw [newGenerator, hlo]
      rfl
    have hcount : counterValues sn = 2 ^ 64 := by
      rw [counterValues, haddr]
      rfl
    have hbound : (intsFromIPV6 (.v6 lo z)).2.toNat < 2 ^ 64 := UInt64.toNat_lt _
    refine ⟨(intsFromIPV6 (.v6 lo z)).1.toNat * 2 ^ 64, (intsFromIPV6 (.v6 lo z)).2.toNat,
      by rw [hcount]; exact hbound, ?_, ?_⟩
    · rw [hlo, toNat_intsFromIPV6]
    · intro k
      have hdrawn : drawn sn k = ipV6FromInts (intsFromIPV6 (.v6 lo z)).1
          ((intsFromIPV6 (.v6 lo z)).2 + UInt64.ofNat k) := by
        rw [drawn, hgen, add_iterate_ip6, Generator.addr]
      rw [hdrawn, hcount]
      refine ⟨rfl, rfl, ?_⟩
      rw [value_ipV6FromInts, UInt64.toNat_add, UInt64.toNat_ofNat', Nat.add_mod_mod]

/-- No address is drawn twice before the counter wraps. -/
theorem drawn_inj {i j : Nat} (hi : i < counterValues sn) (hj : j < counterValues sn)
    (h : drawn sn i = drawn sn j) : i = j := by
  obtain ⟨high, low, hlow, _, hspec⟩ := drawn_spec hsn
  have hvi := (hspec i).2.2
  have hvj := (hspec j).2.2
  have hmod : (low + i) % counterValues sn = (low + j) % counterValues sn := by
    rw [h] at hvi
    omega
  have hcong : i ≡ j [MOD counterValues sn] := Nat.ModEq.add_left_cancel' low hmod
  rw [Nat.ModEq, Nat.mod_eq_of_lt hi, Nat.mod_eq_of_lt hj] at hcong
  exact hcong

/-- The network address is not drawn before the counter wraps. -/
theorem drawn_ne_network {k : Nat} (hpos : 0 < k) (hk : k < counterValues sn) :
    drawn sn k ≠ sn.masked.addr := by
  intro h
  obtain ⟨high, low, hlow, hnetwork, hspec⟩ := drawn_spec hsn
  have hv := (hspec k).2.2
  rw [h, hnetwork] at hv
  have hmod : low % counterValues sn = (low + k) % counterValues sn := by
    rw [Nat.mod_eq_of_lt hlow]
    omega
  have hcong : 0 ≡ k [MOD counterValues sn] := Nat.ModEq.add_left_cancel' low hmod
  rw [Nat.ModEq, Nat.zero_mod, Nat.mod_eq_of_lt hk] at hcong
  omega

/-! ## The part that is allocated from -/

/-- **The lower half.**  An address that a generator accepts is one of the
subnet, and where the subnet has more than one address it is below the upper
half. -/
theorem contains_alloc {a : Addr} (h : (allocOf sn).contains a) :
    sn.contains a ∧
      (0 < sn.hostBits → a.value < sn.masked.addr.value + 2 ^ (sn.hostBits - 1)) := by
  have hpos := bits_nonneg hsn
  have hle := bitsPlusOne_le hsn
  unfold allocOf at h
  split at h
  · rename_i hbits
    have hhost : 0 < sn.hostBits := by
      simp only [bits, hostBits] at *
      omega
    have hlo : sn.masked.addr.bitLen = sn.addr.bitLen := by
      rw [masked_addr hsn, Addr.bitLen_mask]
    obtain ⟨hvalid, haddr, hplus⟩ := prefixFrom_spec (masked_addr_ne_zero hsn)
      sn.masked.noZone (b := sn.bits + 1) (by omega) (by rw [hlo]; omega)
    have hhalf : (prefixFrom sn.masked.addr (sn.bits + 1)).hostBits = sn.hostBits - 1 := by
      rw [← hostBits_eq hvalid, ← hostBits_eq hsn, haddr, hplus, hlo]
      omega
    have hpow : 2 ^ sn.hostBits = 2 * 2 ^ (sn.hostBits - 1) := by
      rw [← Nat.pow_succ', show (sn.hostBits - 1).succ = sn.hostBits by omega]
    have hnetwork : (prefixFrom sn.masked.addr (sn.bits + 1)).masked.addr.value =
        sn.masked.addr.value := by
      rw [value_masked hvalid, haddr, hhalf, value_masked hsn, hpow,
        ← Nat.mul_assoc]
      rw [Nat.mul_div_cancel _ (Nat.two_pow_pos _)]
    obtain ⟨hazone, halen, halow, hahigh⟩ := (contains_iff_value hvalid).mp h
    rw [hnetwork] at halow hahigh
    rw [hhalf] at hahigh
    rw [haddr, hlo] at halen
    exact ⟨(contains_iff_value hsn).mpr ⟨hazone, halen, halow, by omega⟩, fun _ => hahigh⟩
  · rename_i hbits
    refine ⟨h, ?_⟩
    intro hhost
    simp only [bits, hostBits] at *
    omega

end Drawn

/-! ## Runs -/

/-- The address that a call has drawn and not checked yet. -/
def Frame.pending : Frame → Option Addr
  | .add => none
  | .check nxt => some nxt

/-- The frame is about to draw an address. -/
def Frame.isAdd : Frame → Bool
  | .add => true
  | .check _ => false

/-- **The invariant.**  The addresses that are returned or still to be checked
are different ones of those that were drawn, and there are no more additions,
made and still to be made, than calls. -/
structure Inv (sn : Prefix) (calls : Nat) (s : Shared) (frames : List Frame) : Prop where
  few : calls < counterValues sn
  counter : ∃ k, s.gen = add^[k] (newGenerator sn) ∧
    k + frames.countP isAdd ≤ calls ∧
    ∀ a ∈ s.addresses ++ frames.filterMap pending, ∃ i, 0 < i ∧ i ≤ k ∧ a = drawn sn i
  distinct : (s.addresses ++ frames.filterMap pending).Nodup
  accepted : ∀ a ∈ s.addresses, (allocOf sn).contains a

section Runs

variable {sn : Prefix} {calls : Nat} {s : Shared} {frames frames' : List Frame}

theorem Inv.perm (h : Inv sn calls s frames) (hperm : frames.Perm frames') :
    Inv sn calls s frames' := by
  have hpending : (s.addresses ++ frames.filterMap pending).Perm
      (s.addresses ++ frames'.filterMap pending) :=
    (hperm.filterMap pending).append_left _
  obtain ⟨k, hgen, hcount, hdrawn⟩ := h.counter
  refine ⟨h.few, ⟨k, hgen, ?_, ?_⟩, hpending.nodup_iff.mp h.distinct, h.accepted⟩
  · rw [← hperm.countP_eq]
    exact hcount
  · intro a ha
    exact hdrawn a (hpending.mem_iff.mpr ha)

theorem alloc_newGenerator (sn : Prefix) : (newGenerator sn).alloc = allocOf sn := by
  rw [newGenerator]
  split
  · rfl
  · rfl

theorem alloc_iterate (g : Generator) (k : Nat) : (add^[k] g).alloc = g.alloc := by
  induction k with
  | zero => rfl
  | succ k ih => rw [iterate_succ_apply', alloc_add, ih]

/-- An addition draws an address that no call has. -/
theorem Inv.add (hsn : sn.isValid) (h : Inv sn calls s (.add :: frames)) :
    Inv sn calls { s with gen := s.gen.add } (.check s.gen.add.addr :: frames) := by
  obtain ⟨k, hgen, hcount, hdrawn⟩ := h.counter
  have hnext : s.gen.add = Generator.add^[k + 1] (newGenerator sn) := by
    rw [hgen, iterate_succ_apply']
  have haddr : s.gen.add.addr = drawn sn (k + 1) := by rw [hnext, drawn]
  have hfew := h.few
  have hpending : (Frame.add :: frames).filterMap Frame.pending =
      frames.filterMap Frame.pending := rfl
  have hcons : (Frame.add :: frames).countP Frame.isAdd = frames.countP Frame.isAdd + 1 :=
    countP_cons_of_pos rfl
  rw [hpending] at hdrawn
  rw [hcons] at hcount
  have hnew : drawn sn (k + 1) ∉ s.addresses ++ frames.filterMap pending := by
    intro hmem
    obtain ⟨i, _, hik, hi⟩ := hdrawn _ hmem
    have heq := drawn_inj hsn (by omega) (by omega) hi
    omega
  have hmiddle : (s.addresses ++ (check (drawn sn (k + 1)) :: frames).filterMap
      pending).Perm
        (drawn sn (k + 1) :: (s.addresses ++ frames.filterMap pending)) :=
    perm_middle
  rw [haddr]
  refine ⟨hfew, ⟨k + 1, hnext, ?_, ?_⟩, ?_, h.accepted⟩
  · have hcheck : (check (drawn sn (k + 1)) :: frames).countP isAdd =
        frames.countP isAdd := by simp [isAdd]
    rw [hcheck]
    omega
  · intro a ha
    rcases mem_cons.mp (hmiddle.mem_iff.mp ha) with heq | hold
    · exact ⟨k + 1, by omega, by omega, heq⟩
    · obtain ⟨i, hpos, hik, hi⟩ := hdrawn a hold
      exact ⟨i, hpos, by omega, hi⟩
  · have hnodup : (drawn sn (k + 1) :: (s.addresses ++ frames.filterMap pending)).Nodup :=
      nodup_cons.mpr ⟨hnew, h.distinct⟩
    exact hmiddle.nodup_iff.mpr hnodup

theorem addresses_ok (s : Shared) (a : Addr) :
    ({ s with results := s.results ++ [.ok a] } : Shared).addresses = s.addresses ++ [a] := by
  simp [Shared.addresses, Except.toOption]

theorem addresses_error (s : Shared) (e : Exhausted) :
    ({ s with results := s.results ++ [.error e] } : Shared).addresses = s.addresses := by
  simp [Shared.addresses, Except.toOption]

/-- A check returns the address, or drops it. -/
theorem Inv.check {nxt : Addr} {fs : List Frame} {s' : Shared}
    (h : Inv sn calls s (.check nxt :: frames)) (hexec : exec s (.check nxt) () = some (s', fs)) :
    Inv sn calls s' (fs ++ frames) := by
  obtain ⟨k, hgen, hcount, hdrawn⟩ := h.counter
  have halloc : s.gen.alloc = allocOf sn := by rw [hgen, alloc_iterate, alloc_newGenerator]
  have hcons : (Frame.check nxt :: frames).countP Frame.isAdd = frames.countP Frame.isAdd := by
    simp [Frame.isAdd]
  rw [hcons] at hcount
  simp only [exec] at hexec
  split at hexec
  · rename_i hcontains
    cases hexec
    have hsame : s.addresses ++ [nxt] ++ frames.filterMap Frame.pending =
        s.addresses ++ (Frame.check nxt :: frames).filterMap Frame.pending := by
      rw [append_assoc]
      rfl
    refine ⟨h.few, ⟨k, hgen, hcount, ?_⟩, ?_, ?_⟩
    · rw [addresses_ok, nil_append, hsame]
      exact hdrawn
    · rw [addresses_ok, nil_append, hsame]
      exact h.distinct
    · rw [addresses_ok]
      exact forall_mem_concat.mpr ⟨h.accepted, halloc ▸ hcontains⟩
  · cases hexec
    have hsub : (s.addresses ++ frames.filterMap Frame.pending).Sublist
        (s.addresses ++ (Frame.check nxt :: frames).filterMap Frame.pending) :=
      (sublist_cons_self nxt _).append_left _
    refine ⟨h.few, ⟨k, hgen, hcount, ?_⟩, ?_, ?_⟩
    · rw [addresses_error, nil_append]
      intro a ha
      exact hdrawn a (hsub.subset ha)
    · rw [addresses_error, nil_append]
      exact h.distinct.sublist hsub
    · rw [addresses_error]
      exact h.accepted

theorem Inv.exec (hsn : sn.isValid) {f : Frame} {fs : List Frame} {s' : Shared}
    (h : Inv sn calls s (f :: frames)) (hexec : exec s f () = some (s', fs)) :
    Inv sn calls s' (fs ++ frames) := by
  cases f with
  | add =>
    cases hexec
    exact h.add hsn
  | check nxt => exact h.check hexec

theorem Inv.start (h : Inv sn calls s frames) (hfew : calls + 1 < counterValues sn)
    (op : Operation) : Inv sn (calls + 1) s (frames ++ program op) := by
  obtain ⟨k, hgen, hcount, hdrawn⟩ := h.counter
  have hpending : (frames ++ program op).filterMap pending =
      frames.filterMap pending := by
    cases op
    simp [program, pending]
  have hadd : (frames ++ program op).countP isAdd = frames.countP isAdd + 1 := by
    cases op
    simp [program, isAdd]
  refine ⟨hfew, ⟨k, hgen, by omega, ?_⟩, ?_, h.accepted⟩
  · rw [hpending]
    exact hdrawn
  · rw [hpending]
    exact h.distinct

end Runs

/-- There are fewer calls than values of the counter. -/
def FewCalls (sn : Prefix) (p : GeneratorPool) : Action Operation Unit → Prop
  | .start _ => p.threads.length + 1 < counterValues sn
  | .run _ _ => True

/-- The invariant of a pool. -/
def PoolInv (sn : Prefix) (p : GeneratorPool) : Prop :=
  Inv sn p.threads.length p.shared p.frames

theorem poolInv_fresh (sn : Prefix) : PoolInv sn (fresh sn) := by
  have hpos : 0 < counterValues sn := by
    rw [counterValues]
    split
    · decide
    · decide
  refine ⟨hpos, ⟨0, rfl, Nat.le_refl 0, ?_⟩, nodup_nil, ?_⟩
  all_goals
    intro a ha
    cases ha

theorem poolInv_step {sn : Prefix} (hsn : sn.isValid) {p p' : GeneratorPool}
    {a : Action Operation Unit} (hinv : PoolInv sn p) (hfew : FewCalls sn p a)
    (hstep : step p a = some p') : PoolInv sn p' := by
  have hlength := length_threads_of_step hstep
  rcases step_cases hstep with
    ⟨op, rfl, hshared, hframes⟩ | ⟨thread, choice, f, fs, others, rfl, _, hexec, hold, hnew⟩
  · have hstart := Inv.start hinv hfew op
    rw [PoolInv, hlength, hshared, hframes]
    exact hstart
  · have hrun := (Inv.perm hinv hold).exec hsn hexec
    rw [PoolInv, hlength]
    exact hrun.perm hnew.symm

/-- What holds of the addresses that were returned, and of the address that
the device claims for itself. -/
def Apart (sn : Prefix) (p : GeneratorPool) : Prop :=
  p.shared.addresses.Nodup ∧
    (∀ a ∈ p.shared.addresses, sn.contains a ∧ a ≠ sn.masked.addr) ∧
    ∀ ipv4 ifaceIndex owned, ownedAddressIn sn ipv4 ifaceIndex = some owned →
      sn.contains owned ∧ owned ≠ broadcastAddr sn ∧ owned ∉ p.shared.addresses

theorem apart_of_inv {sn : Prefix} (hsn : sn.isValid) {p : GeneratorPool} (h : PoolInv sn p) :
    Apart sn p := by
  obtain ⟨k, _, hcount, hdrawn⟩ := h.counter
  have hfew := h.few
  refine ⟨h.distinct.sublist (sublist_append_left _ _), ?_, ?_⟩
  · intro a ha
    obtain ⟨i, hpos, hik, hi⟩ := hdrawn a (mem_append_left _ ha)
    refine ⟨(contains_alloc hsn (h.accepted a ha)).1, ?_⟩
    rw [hi]
    exact drawn_ne_network hsn hpos (by omega)
  · intro ipv4 ifaceIndex owned howned
    obtain ⟨_, hhost, hzone, hlen, hlow, hhigh⟩ := ownedAddressIn_spec howned
    have hbroadcast := (broadcastAddr_spec hsn).2.2
    have hpow : 0 < 2 ^ sn.hostBits := Nat.two_pow_pos _
    have hhalf : 0 < 2 ^ (sn.hostBits - 1) := Nat.two_pow_pos _
    refine ⟨(contains_iff_value hsn).mpr ⟨hzone, hlen, by omega, by omega⟩, ?_, ?_⟩
    · intro heq
      rw [heq] at hhigh
      exact Nat.lt_irrefl _ hhigh
    · intro hmem
      have hlower := (contains_alloc hsn (h.accepted owned hmem)).2 (by omega)
      omega

/-- **Virtual addresses.**  While there are fewer calls than values of the
counter, the calls of `Next` return different addresses of the subnet, none of
them its network address; and the address that the device claims for itself is
an address of the subnet, not its broadcast address, and never one that a call
returned. -/
theorem virtual_addresses_apart (sn : Prefix) (hsn : sn.isValid)
    (as : List (Action Operation Unit)) (hfew : Meets step (FewCalls sn) (fresh sn) as) :
    Always step (Apart sn) (fresh sn) as := by
  refine always_of_meets ?_ ?_ (poolInv_fresh sn) hfew
  · intro p hinv
    exact apart_of_inv hsn hinv
  · intro p a p' hinv hcond hstep
    exact poolInv_step hsn hinv hcond hstep

theorem length_smallSubnet : [(10 : UInt8), 0, 0, 0].length = 4 := rfl

/-- The subnet `10.0.0.0/29`. -/
def smallSubnet : Prefix := prefixFrom (.v4 ⟨[10, 0, 0, 0], length_smallSubnet⟩) 29

/-- Two calls draw their addresses before either checks its own. -/
theorem virtual_addresses_apart_small :
    smallSubnet.isValid ∧
      Meets step (FewCalls smallSubnet) (fresh smallSubnet)
        [.start .next, .start .next, .run 0 (), .run 1 (), .run 1 (), .run 0 ()] ∧
      Always step (Apart smallSubnet) (fresh smallSubnet)
        [.start .next, .start .next, .run 0 (), .run 1 (), .run 1 (), .run 0 ()] := by
  refine ⟨by decide, (and_iff_left_of_imp
    (virtual_addresses_apart smallSubnet (by decide) _)).mpr ?_⟩
  refine Meets.cons rfl (show 1 < counterValues smallSubnet by decide) ?_
  refine Meets.cons rfl (show 2 < counterValues smallSubnet by decide) ?_
  iterate 4 refine Meets.cons rfl trivial ?_
  trivial

end Telepresence.VirtualIPs
