import Mathlib.Algebra.BigOperators.Group.List.Basic
import Mathlib.Tactic.NormNum

/-!
# DNS answers between the traffic-manager and the client

`pkg/dnsproxy/rpc.go`: `ToRPC` packs resource records one after the other into
a buffer that has the size `dns.Len` estimates for them, and `FromRPC` unpacks
records until the end of the buffer.  The records and their wire format belong
to the DNS library: a `Format` says what is assumed about it.

The buffer is sent whole, also when the records do not fill it.

* `packLoop_eq`: the buffer is the records, and then the zeros that were left.
* `unpackLoop_bytes`: the records are read back, whatever follows them.
* `survives_iff`: an answer survives exactly if every estimate is exact and the
  code fits in 32 bits.
-/

namespace Telepresence.DnsTransport

open List

/-! ## The wire format -/

/-- What is known of `dns.Len`, `dns.PackRR` without compression and
`dns.UnpackRR`, for records `RR` and errors `E`. -/
structure Format (RR E : Type) where
  /-- `dns.Len`. -/
  len : RR → Nat
  /-- The wire form of a record. -/
  bytes : RR → List UInt8
  /-- The error that `dns.PackRR` gives when the buffer is too small. -/
  overflow : E
  /-- `dns.UnpackRR`. -/
  unpackRR : List UInt8 → Nat → Except E (RR × Nat)
  /-- A record has at least a header. -/
  bytes_pos : ∀ rr, 0 < (bytes rr).length
  /-- `dns.PackRR` writes at most `dns.Len` bytes. -/
  bytes_le_len : ∀ rr, (bytes rr).length ≤ len rr
  /-- `dns.UnpackRR` inverts `dns.PackRR`. -/
  unpackRR_bytes : ∀ before rr rest,
    unpackRR (before ++ bytes rr ++ rest) before.length =
      .ok (rr, before.length + (bytes rr).length)

variable {RR E : Type} (fmt : Format RR E)

/-- `copy(msg[off:], bs)`, where the bytes fit. -/
def writeAt (msg : List UInt8) (off : Nat) (bs : List UInt8) : List UInt8 :=
  msg.take off ++ bs ++ msg.drop (off + bs.length)

/-- `dns.PackRR(rr, msg, off, nil, false)`: the offset after the record, and the
buffer. -/
def Format.packRR (rr : RR) (msg : List UInt8) (off : Nat) : Except E (Nat × List UInt8) :=
  if off + (fmt.bytes rr).length ≤ msg.length then
    .ok (off + (fmt.bytes rr).length, writeAt msg off (fmt.bytes rr))
  else .error fmt.overflow

/-! ## The code -/

/-- The gRPC codes that the two functions use. -/
inductive Code where
  | internal
  | invalidArgument
  deriving DecidableEq, Repr

/-- What `grpcErrors.Errorf` makes of a code, a text and the error that follows it. -/
structure Status (E : Type) where
  code : Code
  text : String
  cause : E
  deriving DecidableEq, Repr

/-- `manager.DNSResponse`. -/
structure DNSResponse where
  rCode : Int32
  rrs : List UInt8
  deriving DecidableEq

/-- The second loop of `ToRPC`. -/
def packLoop : List RR → List UInt8 → Nat → Except E (List UInt8)
  | [], rrb, _ => .ok rrb
  | rr :: rrs, rrb, off =>
      match fmt.packRR rr rrb off with
      | .error err => .error err
      | .ok (off, rrb) => packLoop rrs rrb off

/-- `ToRPC`. -/
def toRPC (rrs : List RR) (rCode : Int64) : Except (Status E) DNSResponse :=
  let l := (rrs.map fmt.len).sum
  match packLoop fmt rrs (List.replicate l 0) 0 with
  | .error err => .error ⟨.internal, "unable to pack DNS reply: ", err⟩
  | .ok rrb => .ok { rCode := rCode.toInt32, rrs := rrb }

/-- `dns.RcodeFormatError`. -/
def rcodeFormatError : Int64 := 1

/-- What `FromRPC` returns. -/
structure Reply (RR E : Type) where
  rrs : List RR
  code : Int64
  err : Option (Status E)
  deriving DecidableEq

/-- The loop of `FromRPC`, for at most `fuel` tests of its condition: nothing
is known of the offset that the library returns for bytes that it did not pack. -/
def unpackLoop (rrb : List UInt8) : Nat → Nat → List RR → Option (Except E (List RR))
  | 0, _, _ => none
  | fuel + 1, off, rrs =>
      if off < rrb.length then
        match fmt.unpackRR rrb off with
        | .error err => some (.error err)
        | .ok (rr, off) => unpackLoop rrb fuel off (rrs ++ [rr])
      else some (.ok rrs)

/-- `FromRPC`. -/
def fromRPC (fuel : Nat) (r : DNSResponse) : Option (Reply RR E) :=
  (unpackLoop fmt r.rrs fuel 0 []).map fun
    | .error err =>
        ⟨[], rcodeFormatError, some ⟨.invalidArgument, "unable to unpack DNS response: ", err⟩⟩
    | .ok rrs => ⟨rrs, r.rCode.toInt64, none⟩

/-- `FromRPC(ToRPC(rrs, c))` returns, with these records and this code. -/
def Survives (rrs : List RR) (c : Int64) : Prop :=
  ∃ rsp, toRPC fmt rrs c = .ok rsp ∧ ∃ fuel, fromRPC fmt fuel rsp = some ⟨rrs, c, none⟩

/-! ## Packing -/

/-- Writing at the end of what has been written so far takes the place of zeros. -/
theorem writeAt_replicate (before bs : List UInt8) (n : Nat) :
    writeAt (before ++ List.replicate n 0) before.length bs =
      before ++ bs ++ List.replicate (n - bs.length) 0 := by
  have hdrop : (before ++ replicate n (0 : UInt8)).drop (before.length + bs.length) =
      replicate (n - bs.length) 0 := by
    rw [drop_append, drop_of_length_le (by omega), nil_append]
    simp
  rw [writeAt, hdrop, take_left]

/-- The wire forms of several records take at most the estimated length. -/
theorem length_flatMap_bytes_le (rrs : List RR) :
    (rrs.flatMap fmt.bytes).length ≤ (rrs.map fmt.len).sum := by
  induction rrs with
  | nil => simp
  | cons rr rrs ih =>
    have := fmt.bytes_le_len rr
    simp only [flatMap_cons, length_append, map_cons, sum_cons]
    omega

/-- The wire forms take the estimated length exactly if each of them does. -/
theorem length_flatMap_bytes_eq_iff (rrs : List RR) :
    (rrs.flatMap fmt.bytes).length = (rrs.map fmt.len).sum ↔
      ∀ rr ∈ rrs, (fmt.bytes rr).length = fmt.len rr := by
  induction rrs with
  | nil => simp
  | cons rr rrs ih =>
    have hfirst := fmt.bytes_le_len rr
    have hrest := length_flatMap_bytes_le fmt rrs
    simp only [flatMap_cons, length_append, map_cons, sum_cons,
      forall_mem_cons, ← ih]
    omega

/-- **The buffer.**  Packing puts the records after what the buffer already
has, and leaves the zeros that they do not use. -/
theorem packLoop_eq (rrs : List RR) (before : List UInt8) (n : Nat)
    (hroom : (rrs.flatMap fmt.bytes).length ≤ n) :
    packLoop fmt rrs (before ++ List.replicate n 0) before.length =
      .ok (before ++ rrs.flatMap fmt.bytes ++
        List.replicate (n - (rrs.flatMap fmt.bytes).length) 0) := by
  induction rrs generalizing before n with
  | nil => simp [packLoop]
  | cons rr rrs ih =>
    simp only [flatMap_cons, length_append] at hroom
    have hpack : fmt.packRR rr (before ++ replicate n 0) before.length =
        .ok ((before ++ fmt.bytes rr).length,
          before ++ fmt.bytes rr ++ replicate (n - (fmt.bytes rr).length) 0) := by
      rw [Format.packRR, if_pos (by simp; omega), writeAt_replicate, length_append]
    rw [packLoop, hpack]
    simp only [ih (before ++ fmt.bytes rr) (n - (fmt.bytes rr).length) (by omega)]
    simp [Nat.sub_sub]

/-- What `ToRPC` returns. -/
theorem toRPC_eq (rrs : List RR) (c : Int64) :
    toRPC fmt rrs c = .ok
      { rCode := c.toInt32
        rrs := rrs.flatMap fmt.bytes ++
          replicate ((rrs.map fmt.len).sum - (rrs.flatMap fmt.bytes).length) 0 } := by
  have h := packLoop_eq fmt rrs [] _ (length_flatMap_bytes_le fmt rrs)
  simp only [nil_append, length_nil] at h
  rw [toRPC, h]

/-! ## Unpacking -/

/-- **The records are read back**, whatever follows them in the buffer. -/
theorem unpackLoop_bytes (rrs : List RR) (before rest : List UInt8) (acc : List RR) (fuel : Nat) :
    unpackLoop fmt (before ++ rrs.flatMap fmt.bytes ++ rest) (rrs.length + fuel)
        before.length acc =
      unpackLoop fmt (before ++ rrs.flatMap fmt.bytes ++ rest) fuel
        (before ++ rrs.flatMap fmt.bytes).length (acc ++ rrs) := by
  induction rrs generalizing before acc with
  | nil => simp
  | cons rr rrs ih =>
    have hpos := fmt.bytes_pos rr
    have hread := fmt.unpackRR_bytes before rr (rrs.flatMap fmt.bytes ++ rest)
    have hrest := ih (before ++ fmt.bytes rr) (acc ++ [rr])
    simp only [flatMap_cons, append_assoc, length_append] at hread hrest ⊢
    rw [length_cons, Nat.add_right_comm, unpackLoop, if_pos (by simp; omega), hread]
    simpa [Nat.add_assoc] using hrest

variable {rrb : List UInt8} {fuel off : Nat} {acc : List RR}

variable {fmt} in
/-- A loop that has returned returns the same with more fuel. -/
theorem unpackLoop_mono {r : Except E (List RR)} (h : unpackLoop fmt rrb fuel off acc = some r)
    (more : Nat) : unpackLoop fmt rrb (fuel + more) off acc = some r := by
  induction fuel generalizing off acc with
  | zero => simp [unpackLoop] at h
  | succ fuel ih =>
    rw [Nat.add_right_comm]
    unfold unpackLoop at h ⊢
    split at h
    case isFalse hend => rwa [if_neg hend]
    case isTrue hmore =>
      rw [if_pos hmore]
      split at h
      case h_1 => exact h
      case h_2 => exact ih h

variable {fmt} in
/-- The loop never drops a record that it has. -/
theorem length_le_of_unpackLoop {out : List RR}
    (h : unpackLoop fmt rrb fuel off acc = some (.ok out)) : acc.length ≤ out.length := by
  induction fuel generalizing off acc with
  | zero => simp [unpackLoop] at h
  | succ fuel ih =>
    unfold unpackLoop at h
    split at h
    case isFalse => simp_all
    case isTrue =>
      split at h
      case h_1 => simp at h
      case h_2 =>
        have := ih h
        simp only [length_append, length_singleton] at this
        omega

variable {fmt} in
/-- Bytes that are left give another record, or an error. -/
theorem length_lt_of_unpackLoop {out : List RR}
    (h : unpackLoop fmt rrb fuel off acc = some (.ok out)) (hleft : off < rrb.length) :
    acc.length < out.length := by
  cases fuel with
  | zero => simp [unpackLoop] at h
  | succ fuel =>
    rw [unpackLoop, if_pos hleft] at h
    split at h
    case h_1 => simp at h
    case h_2 =>
      have := length_le_of_unpackLoop h
      simp only [length_append, length_singleton] at this
      omega

/-- The records come back alone exactly if nothing follows them. -/
theorem unpackLoop_eq_iff (rrs : List RR) (rest : List UInt8) :
    (∃ fuel, unpackLoop fmt (rrs.flatMap fmt.bytes ++ rest) fuel 0 [] = some (.ok rrs)) ↔
      rest = [] := by
  have hread := unpackLoop_bytes fmt rrs [] rest []
  simp only [nil_append, length_nil] at hread
  constructor
  · intro ⟨fuel, h⟩
    by_contra hrest
    have hlater := unpackLoop_mono h rrs.length
    rw [Nat.add_comm, hread] at hlater
    have hpos := length_pos_iff.mpr hrest
    have := length_lt_of_unpackLoop hlater (by simp; omega)
    omega
  · intro hrest
    subst hrest
    refine ⟨rrs.length + 1, ?_⟩
    rw [hread, unpackLoop, if_neg (by simp)]

/-! ## The code of the answer -/

/-- A code survives exactly if it fits in 32 bits. -/
theorem toInt64_toInt32_eq_iff (c : Int64) :
    c.toInt32.toInt64 = c ↔ -2 ^ 31 ≤ c.toInt ∧ c.toInt < 2 ^ 31 := by
  rw [← Int64.toInt_inj, Int32.toInt_toInt64, Int64.toInt_toInt32, Int.bmod_eq_iff (by decide)]
  simp only [Int.sub_self, dvd_zero, and_true]
  norm_num

/-! ## The result -/

/-- `FromRPC` returns these records and this code exactly if the loop does. -/
theorem fromRPC_eq_iff (fuel : Nat) (r : DNSResponse) (rrs : List RR) (c : Int64) :
    fromRPC fmt fuel r = some ⟨rrs, c, none⟩ ↔
      unpackLoop fmt r.rrs fuel 0 [] = some (.ok rrs) ∧ r.rCode.toInt64 = c := by
  rw [fromRPC]
  cases unpackLoop fmt r.rrs fuel 0 [] with
  | none => simp
  | some res => cases res <;> simp

/-- The estimates are exact. -/
def Exact (rrs : List RR) : Prop :=
  ∀ rr ∈ rrs, (fmt.bytes rr).length = fmt.len rr

theorem exact_iff (rrs : List RR) :
    Exact fmt rrs ↔ (rrs.map fmt.len).sum - (rrs.flatMap fmt.bytes).length = 0 := by
  have := length_flatMap_bytes_le fmt rrs
  rw [Exact, ← length_flatMap_bytes_eq_iff]
  omega

theorem survives_iff_parts (rrs : List RR) (c : Int64) :
    Survives fmt rrs c ↔ Exact fmt rrs ∧ c.toInt32.toInt64 = c := by
  have hloop := unpackLoop_eq_iff fmt rrs
    (replicate ((rrs.map fmt.len).sum - (rrs.flatMap fmt.bytes).length) 0)
  rw [replicate_eq_nil_iff, ← exact_iff] at hloop
  simp only [Survives, toRPC_eq, Except.ok.injEq, exists_eq_left', fromRPC_eq_iff,
    exists_and_right, hloop]

/-- **DNS answers over gRPC.**  An answer comes back as it was sent exactly if
`dns.Len` is the length of each record's wire form and the code fits in the
32 bits of the message. -/
theorem survives_iff (rrs : List RR) (c : Int64) :
    Survives fmt rrs c ↔
      (∀ rr ∈ rrs, (fmt.bytes rr).length = fmt.len rr) ∧
        -2 ^ 31 ≤ c.toInt ∧ c.toInt < 2 ^ 31 := by
  rw [survives_iff_parts, toInt64_toInt32_eq_iff, Exact]

/-! ## Text records

A `TXT` record of the root domain with one string, as the library treats it:
it keeps the string with its escapes, and `Len` counts them, but the wire form
has one byte for each character. -/

/-- The characters of one string of a `TXT` record. -/
def Text := { cs : List UInt8 // cs.length < 255 }

instance : DecidableEq Text := inferInstanceAs (DecidableEq { cs : List UInt8 // cs.length < 255 })

/-- How many characters stand for one in a string with escapes: a quote and a
backslash follow a backslash, and a byte that is not printable is `\DDD`. -/
def escapedLen (c : UInt8) : Nat :=
  if c = 34 ∨ c = 92 then 2 else if 32 ≤ c ∧ c < 127 then 1 else 4

theorem escapedLen_pos (c : UInt8) : 1 ≤ escapedLen c := by
  grind [escapedLen]

theorem length_le_escapedLen (cs : List UInt8) : cs.length ≤ (cs.map escapedLen).sum := by
  induction cs with
  | nil => simp
  | cons c cs ih =>
    have := escapedLen_pos c
    simp only [length_cons, map_cons, sum_cons]
    omega

/-- The errors of the library that the text records need. -/
inductive DnsError where
  | overflowPacking
  | overflowUnpacking
  deriving DecidableEq, Repr

/-- Name, type, class, time to live, data length and string length, and the
string. -/
def Text.bytes (t : Text) : List UInt8 :=
  [0, 0, 16, 0, 1, 0, 0, 0, 0, 0, UInt8.ofNat (t.1.length + 1), UInt8.ofNat t.1.length] ++ t.1

/-- The reader of such a record. -/
def Text.unpackRR (msg : List UInt8) (off : Nat) : Except DnsError (Text × Nat) :=
  match msg.drop off with
  | 0 :: 0 :: 16 :: 0 :: 1 :: 0 :: 0 :: 0 :: 0 :: 0 :: _ :: n :: rest =>
      if h : n.toNat ≤ rest.length ∧ n.toNat < 255 then
        .ok (⟨rest.take n.toNat, by rw [List.length_take]; omega⟩, off + (12 + n.toNat))
      else .error .overflowUnpacking
  | _ => .error .overflowUnpacking

theorem Text.unpackRR_bytes (before : List UInt8) (t : Text) (rest : List UInt8) :
    Text.unpackRR (before ++ t.bytes ++ rest) before.length =
      .ok (t, before.length + t.bytes.length) := by
  have hn : (UInt8.ofNat t.1.length).toNat = t.1.length := by
    rw [UInt8.toNat_ofNat']
    exact Nat.mod_eq_of_lt (by have := t.2; omega)
  have hlen : t.bytes.length = 12 + t.1.length := by simp [Text.bytes]; omega
  have hfits : t.1.length ≤ (t.1 ++ rest).length ∧ t.1.length < 255 := ⟨by simp, t.2⟩
  rw [Text.unpackRR, append_assoc, drop_left, hlen, Text.bytes]
  simp only [cons_append, nil_append, hn, dif_pos hfits, take_left]
  rfl

/-- The format of text records. -/
def textFormat : Format Text DnsError where
  len t := 12 + (t.1.map escapedLen).sum
  bytes := Text.bytes
  overflow := .overflowPacking
  unpackRR := Text.unpackRR
  bytes_pos t := by simp [Text.bytes]
  bytes_le_len t := by
    have := length_le_escapedLen t.1
    simp only [Text.bytes, List.length_append, List.length_cons, List.length_nil]
    omega
  unpackRR_bytes := Text.unpackRR_bytes

/-- The string `"a"`, with its quotes. -/
def quotedText : Text := ⟨[34, 97, 34], by decide⟩

/-- The two bytes that the escapes of a quoted text were counted for are sent
as zeros, and the client refuses the whole answer. -/
theorem quoted_text_refused :
    (toRPC textFormat [quotedText] 0).toOption.bind (fromRPC textFormat 3) =
        some ⟨[], rcodeFormatError,
          some ⟨.invalidArgument, "unable to unpack DNS response: ", .overflowUnpacking⟩⟩ ∧
      ¬ Survives textFormat [quotedText] 0 := by
  refine ⟨by decide +kernel, fun h => ?_⟩
  have hexact := ((survives_iff_parts textFormat _ _).mp h).1 quotedText (by simp)
  exact absurd hexact (by decide +kernel)

end Telepresence.DnsTransport
