import Telepresence.Lib.Slices

/-!
# IP addresses and ports

Go's packages `net/netip` and `encoding/binary`, as far as they are needed.
An address is four or sixteen bytes; the sixteen bytes of an IPv4 address that
is mapped into IPv6 begin with a fixed string, and `unmap` takes it off.

* `as16_unmap`: unmapping does not change the sixteen bytes of an address.
* `unmap_from16_as16`: the sixteen bytes determine an address without a zone,
  up to unmapping.
-/

/-- A byte array of fixed length. -/
abbrev Bytes (n : Nat) := { bs : List UInt8 // bs.length = n }

namespace BigEndian

/-- `binary.BigEndian.PutUint16`. -/
def putUint16 (v : UInt16) : List UInt8 := [(v >>> 8).toUInt8, v.toUInt8]

/-- `binary.BigEndian.Uint16`. -/
def uint16 : List UInt8 → Except Panic UInt16
  | a :: b :: _ => .ok (a.toUInt16 <<< 8 ||| b.toUInt16)
  | _ => .error .indexOutOfRange

@[simp] theorem length_putUint16 (v : UInt16) : (putUint16 v).length = 2 := rfl

theorem uint16_putUint16 (v : UInt16) (rest : List UInt8) :
    uint16 (putUint16 v ++ rest) = .ok v := by
  have hv : v.toNat < 2 ^ 16 := v.toNat_lt
  have hlow : v.toNat % 2 ^ 8 < 2 ^ 8 := Nat.mod_lt _ (by decide)
  have hhigh : v.toNat >>> 8 % 2 ^ 8 = v.toNat / 2 ^ 8 := by
    rw [Nat.shiftRight_eq_div_pow]
    omega
  have hfit : (v.toNat / 2 ^ 8) <<< 8 % 2 ^ 16 = (v.toNat / 2 ^ 8) <<< 8 := by
    rw [Nat.shiftLeft_eq]
    omega
  have hjoin : (v >>> 8).toUInt8.toUInt16 <<< 8 ||| v.toUInt8.toUInt16 = v := by
    rw [← UInt16.toNat_inj]
    simp only [UInt16.toNat_or, UInt16.toNat_shiftLeft, UInt8.toNat_toUInt16,
      UInt16.toNat_toUInt8, UInt16.toNat_shiftRight]
    change (v.toNat >>> 8 % 2 ^ 8) <<< 8 % 2 ^ 16 ||| v.toNat % 2 ^ 8 = v.toNat
    rw [hhigh, hfit, ← Nat.shiftLeft_add_eq_or_of_lt hlow, Nat.shiftLeft_eq]
    omega
  simp only [putUint16, List.cons_append, List.nil_append, uint16, hjoin]

end BigEndian

namespace Netip

/-- `netip.Addr`: the zero value, an IPv4 address, or an IPv6 address with its
zone. -/
inductive Addr where
  | zero
  | v4 (bytes : Bytes 4)
  | v6 (bytes : Bytes 16) (zone : String)
  deriving DecidableEq

/-- `netip.AddrPort`. -/
structure AddrPort where
  addr : Addr
  port : UInt16
  deriving DecidableEq

/-- What the sixteen bytes of an IPv4-mapped address begin with. -/
def mapped : List UInt8 := [0, 0, 0, 0, 0, 0, 0, 0, 0, 0, 0xff, 0xff]

/-- `net.IP.To4`, for sixteen bytes. -/
def to4 (ip : List UInt8) : Option (List UInt8) :=
  if ip.length = 4 then some ip
  else if ip.length = 16 ∧ ip.take 12 = mapped then some (ip.drop 12)
  else none

namespace Addr

/-- `Addr.Is4`. -/
def is4 : Addr → Bool
  | v4 _ => true
  | _ => false

/-- `Addr.Is6`, which includes the IPv4-mapped addresses. -/
def is6 : Addr → Bool
  | v6 _ _ => true
  | _ => false

/-- `Addr.Is4In6`. -/
def is4In6 : Addr → Bool
  | v6 bytes _ => bytes.1.take 12 = mapped
  | _ => false

/-- `Addr.Unmap`. -/
def unmap : Addr → Addr
  | v6 bytes zone =>
      if bytes.1.take 12 = mapped then v4 ⟨bytes.1.drop 12, by simp [bytes.2]⟩ else v6 bytes zone
  | a => a

/-- `Addr.As16`. -/
def as16 : Addr → Bytes 16
  | zero => ⟨List.replicate 16 0, rfl⟩
  | v4 bytes => ⟨mapped ++ bytes.1, by simp [mapped, bytes.2]⟩
  | v6 bytes _ => bytes

/-- `AddrFrom16`. -/
def from16 (bytes : Bytes 16) : Addr := v6 bytes ""

/-- `Addr.BitLen`. -/
def bitLen : Addr → Nat
  | zero => 0
  | v4 _ => 32
  | v6 _ _ => 128

/-- `Addr.AsSlice`. -/
def asSlice : Addr → List UInt8
  | zero => []
  | v4 bytes => bytes.1
  | v6 bytes _ => bytes.1

/-- Not the zero value, and without a zone. -/
def Valid : Addr → Prop
  | zero => False
  | v4 _ => True
  | v6 _ zone => zone = ""

theorem unmap_valid {a : Addr} (h : a.Valid) : a.unmap.Valid := by
  cases a with
  | zero => exact h
  | v4 bytes => trivial
  | v6 bytes zone =>
    by_cases hm : bytes.1.take 12 = mapped
    · simp [unmap, hm, Valid]
    · simpa [unmap, hm, Valid] using h

@[simp] theorem unmap_unmap (a : Addr) : a.unmap.unmap = a.unmap := by
  cases a with
  | zero | v4 bytes => rfl
  | v6 bytes zone =>
    by_cases h : bytes.1.take 12 = mapped
    all_goals simp [unmap, h]

/-- Unmapping does not change the sixteen bytes. -/
@[simp] theorem as16_unmap (a : Addr) : a.unmap.as16 = a.as16 := by
  cases a with
  | zero | v4 bytes => rfl
  | v6 bytes zone =>
    by_cases h : bytes.1.take 12 = mapped
    · have hjoin : mapped ++ bytes.1.drop 12 = bytes.1 := by
        rw [← h, List.take_append_drop]
      simp only [unmap, h, if_true, as16, hjoin]
    · simp only [unmap, h, if_false]

/-- The sixteen bytes determine an address without a zone, up to unmapping. -/
theorem unmap_from16_as16 {a : Addr} (h : a.Valid) : (from16 a.as16).unmap = a.unmap := by
  cases a with
  | zero => exact h.elim
  | v4 bytes => simp [from16, as16, unmap, mapped]
  | v6 bytes zone =>
    cases h
    rfl

/-- Sixteen bytes are an IPv4 address for `net.IP` if and only if they are one
for `netip`. -/
theorem to4_isSome (bytes : Bytes 16) :
    (to4 bytes.1).isSome = (from16 bytes).unmap.is4 := by
  by_cases h : bytes.1.take 12 = mapped <;> simp [to4, from16, unmap, is4, h, bytes.2]

end Addr

/-- The address and port, unmapped. -/
def AddrPort.unmap (ap : AddrPort) : AddrPort := ⟨ap.addr.unmap, ap.port⟩

end Netip
