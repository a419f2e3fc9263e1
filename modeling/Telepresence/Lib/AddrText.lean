import Telepresence.Lib.Prefixes

/-!
# Addresses and prefixes as text

`netip.ParseAddr` and `netip.ParsePrefix`, on the characters of the text.  An
IPv4 address is four decimal fields; an IPv6 address is eight hexadecimal
fields, of which `::` may stand for one or more zero fields and an IPv4 address
for the last two, and it may have a zone.  Why a text is refused is left out.
-/

namespace Netip

/-- The value of a hexadecimal digit. -/
def hexDigit (c : Char) : Option Nat :=
  if '0' ≤ c ∧ c ≤ '9' then some (c.toNat - '0'.toNat)
  else if 'a' ≤ c ∧ c ≤ 'f' then some (c.toNat - 'a'.toNat + 10)
  else if 'A' ≤ c ∧ c ≤ 'F' then some (c.toNat - 'A'.toNat + 10)
  else none

/-- `parseIPv4Fields`, with the fields that are complete, and the value and
the number of digits of the current one. -/
def parseIPv4Fields (fields : List UInt8) (val digLen : Nat) : List Char → Option (List UInt8)
  | [] => if fields.length < 3 then none else some (fields ++ [UInt8.ofNat val])
  | c :: s =>
      if '0' ≤ c ∧ c ≤ '9' then
        let val' := val * 10 + (c.toNat - '0'.toNat)
        if digLen = 1 ∧ val = 0 then none
        else if val' > 255 then none
        else parseIPv4Fields fields val' (digLen + 1) s
      else if c = '.' then
        if digLen = 0 ∨ s = [] then none
        else if fields.length = 3 then none
        else parseIPv4Fields (fields ++ [UInt8.ofNat val]) 0 0 s
      else none

/-- The loop of `parseIPv6` over the hexadecimal fields, of which there may be
as many more as the number says.  It has the bytes so far and the place of the
`::` among them, and it uses the whole text. -/
def parseIPv6Fields : Nat → List UInt8 → Option Nat → List Char →
    Option (List UInt8 × Option Nat)
  | 0, ip, ellipsis, s => if s = [] then some (ip, ellipsis) else none
  | n + 1, ip, ellipsis, s =>
      let digits := (s.takeWhile fun c => (hexDigit c).isSome).filterMap hexDigit
      let acc := digits.foldl (fun acc d => acc * 16 + d) 0
      if digits.length = 0 ∨ digits.length > 4 then none
      else
        match s.drop digits.length with
        | '.' :: _ =>
            if ellipsis = none ∧ ip.length ≠ 12 ∨ ip.length + 4 > 16 then none
            else (parseIPv4Fields [] 0 0 s).map fun fields => (ip ++ fields, ellipsis)
        | [] => some (ip ++ [UInt8.ofNat (acc / 256), UInt8.ofNat acc], ellipsis)
        | ':' :: [] => none
        | ':' :: ':' :: rest =>
            if ellipsis.isSome then none
            else
              let ip := ip ++ [UInt8.ofNat (acc / 256), UInt8.ofNat acc]
              if rest = [] then some (ip, some ip.length)
              else parseIPv6Fields n ip (some ip.length) rest
        | ':' :: rest =>
            parseIPv6Fields n (ip ++ [UInt8.ofNat (acc / 256), UInt8.ofNat acc]) ellipsis rest
        | _ => none

/-- The end of `parseIPv6`: the zero fields that `::` stands for. -/
def expandEllipsis : List UInt8 × Option Nat → Option (List UInt8)
  | (ip, none) => if ip.length < 16 then none else some ip
  | (ip, some ellipsis) =>
      if ip.length < 16 then
        some (ip.take ellipsis ++ List.replicate (16 - ip.length) 0 ++ ip.drop ellipsis)
      else none

/-- `parseIPv6`, without the zone. -/
def parseIPv6 (s : List Char) : Option (List UInt8) :=
  match s with
  | [':', ':'] => some (List.replicate 16 0)
  | ':' :: ':' :: s => (parseIPv6Fields 8 [] (some 0) s).bind expandEllipsis
  | s => (parseIPv6Fields 8 [] none s).bind expandEllipsis

/-- `ParseAddr`. -/
def parseAddr (s : List Char) : Option Addr :=
  match s.find? fun c => c = '.' ∨ c = ':' ∨ c = '%' with
  | some '.' =>
      (parseIPv4Fields [] 0 0 s).bind fun fields =>
        if h : fields.length = 4 then some (.v4 ⟨fields, h⟩) else none
  | some ':' =>
      let zone := s.dropWhile fun c => c ≠ '%'
      if zone = ['%'] then none
      else
        (parseIPv6 (s.takeWhile fun c => c ≠ '%')).bind fun ip =>
          if h : ip.length = 16 then some (.v6 ⟨ip, h⟩ (String.ofList (zone.drop 1))) else none
  | _ => none

/-- The decimal number, without a sign or a leading zero. -/
def parseBits (s : List Char) : Option Nat :=
  if s = [] ∨ s.any (fun c => ¬ ('0' ≤ c ∧ c ≤ '9')) then none
  else if s.length > 1 ∧ s.head? = some '0' then none
  else some (s.foldl (fun n c => n * 10 + (c.toNat - '0'.toNat)) 0)

/-- `ParsePrefix`. -/
def parsePrefix (s : List Char) : Option Prefix :=
  if '/' ∈ s then
    let after := (s.reverse.takeWhile fun c => c ≠ '/').reverse
    let ahead := ((s.reverse.dropWhile fun c => c ≠ '/').drop 1).reverse
    (parseAddr ahead).bind fun ip =>
      if ip.hasZone then none
      else
        (parseBits after).bind fun bits =>
          if bits > ip.bitLen then none else some (prefixFrom ip bits)
  else none

/-- The zero value is not the address of any text. -/
theorem parseAddr_ne_zero {s : List Char} {a : Addr} (h : parseAddr s = some a) : a ≠ .zero := by
  rw [parseAddr] at h
  split at h
  · obtain ⟨fields, _, hfields⟩ := Option.bind_eq_some_iff.mp h
    split at hfields
    · cases hfields
      exact Addr.noConfusion
    · cases hfields
  · dsimp only at h
    split at h
    · cases h
    · obtain ⟨ip, _, hip⟩ := Option.bind_eq_some_iff.mp h
      split at hip
      · cases hip
        exact Addr.noConfusion
      · cases hip
  · cases h

end Netip
