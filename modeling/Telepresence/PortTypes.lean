import Telepresence.Lib.Strings

/-!
# Protocols, ports and port mappings

The package `types`: IP protocols, port identifiers (`8080`, `http/UDP`) and
the port mappings (`9090:8080/UDP`) that an intercept names its pod-ports
with.
-/

namespace Telepresence.Types

/-- `types.Proto`, with its zero value. -/
inductive Proto where
  | zero | tcp | udp | icmp | icmpV6 | sctp
  deriving DecidableEq, Repr

/-- The number of the protocol. -/
def Proto.number : Proto → Nat
  | .zero => 0
  | .tcp => 6
  | .udp => 17
  | .icmp => 1
  | .icmpV6 => 58
  | .sctp => 132

/-- `Proto.String`. -/
def Proto.string : Proto → String
  | .zero | .tcp => "TCP"
  | .udp => "UDP"
  | .icmp => "ICMP"
  | .icmpV6 => "ICMPv6"
  | .sctp => "SCTP"

/-- The conversion `string(proto)`: `Proto` is a byte, so the result is the
rune with that number and not the protocol's name. -/
def Proto.toRune (p : Proto) : String := String.singleton (Char.ofNat p.number)

/-- `ParseProto`. -/
def parseProto (network : String) : Except String Proto :=
  let lower := Strings.toLower network
  if lower ∈ ["", "tcp", "tcp4", "tcp6"] then .ok .tcp
  else if lower ∈ ["udp", "udp4", "udp6"] then .ok .udp
  else if lower = "icmp" then .ok .icmp
  else if lower = "icmpv6" then .ok .icmpV6
  else if lower = "sctp" then .ok .sctp
  else .error ("unsupported protocol: " ++ network.quote)

/-- `FromK8sProtocol`. -/
def fromK8sProtocol (protocol : String) : Proto := (parseProto protocol).toOption.getD .tcp

/-- `ErrNotInteger`. -/
def errNotInteger : String := "not an integer"

/-- `ParsePort`. -/
def parsePort (portStr : String) : Except String Nat :=
  match Strings.atoi portStr with
  | none => .error errNotInteger
  | some port =>
      if port < 1 ∨ port > 65535 then .error (portStr ++ " is not between 1 and 65535")
      else .ok port.toNat

/-- `types.PortAndProto`. -/
structure PortAndProto where
  port : Nat
  proto : Proto
  deriving DecidableEq

/-- `ParsePortAndProto`. -/
def parsePortAndProto (s : String) : Except String PortAndProto :=
  match Strings.cut s '/' with
  | some (port, proto) => do
      let proto ← parseProto proto
      let port ← parsePort port
      return ⟨port, proto⟩
  | none => do
      let port ← parsePort s
      return ⟨port, .tcp⟩

/-! ## Port identifiers -/

/-- `validation.IsDNS1035Label`: the list of what is wrong with the label. -/
def isDNS1035Label (s : String) : List String :=
  let lower (c : Char) := 'a' ≤ c ∧ c ≤ 'z'
  let inner (c : Char) := lower c ∨ c.isDigit ∨ c = '-'
  let shape : Bool :=
    match s.toList with
    | [] => false
    | c :: cs => lower c && cs.all (fun c => inner c) && cs.getLast? != some '-'
  (if s.utf8ByteSize > 63 then ["must be no more than 63 bytes"] else []) ++
    if shape then []
    else ["a DNS-1035 label must consist of lower case alphanumeric characters or '-', " ++
      "start with an alphabetic character, and end with an alphanumeric character " ++
      "(e.g. 'my-name',  or 'abc-123', regex used for validation is " ++
      "'[a-z]([-a-z0-9]*[a-z0-9])?')"]

/-- `ValidatePort`: the error, if any. -/
def validatePort (s : String) : Option String :=
  match parsePort s with
  | .ok _ => none
  | .error err =>
      if err = errNotInteger then
        match isDNS1035Label s with
        | [] => none
        | errs => some (String.intercalate " and " errs)
      else some err

/-- `NewPortIdentifier`. -/
def newPortIdentifier (proto : Proto) (portString : String) : Except String String :=
  match validatePort portString with
  | some err => .error err
  | none => .ok (if proto = .tcp then portString else portString ++ "/" ++ proto.string)

/-- `PortIdentifier.Validate`: the error, if any. -/
def validate (spi : String) : Option String :=
  match Strings.cut spi '/' with
  | none => validatePort spi
  | some (port, proto) =>
      match parseProto proto with
      | .error err => some err
      | .ok _ => validatePort port

/-- `PortIdentifier.ProtoAndNameOrNumber`.  The error of `ParseProto` is
ignored. -/
def protoAndNameOrNumber (spi : String) : Proto × String × Nat :=
  let (s, p) : String × Proto :=
    match Strings.cut spi '/' with
    | none => (spi, .tcp)
    | some (port, proto) => (port, (parseProto proto).toOption.getD .zero)
  match parsePort s with
  | .ok n => (p, "", n)
  | .error _ => (p, s, 0)

/-- `PortIdentifier.String`. -/
def portIdentifierString (spi : String) : String :=
  let (p, s, n) := protoAndNameOrNumber spi
  let text := if s = "" then toString n else s
  if p = .tcp then text else text ++ "/" ++ p.string

/-! ## Port mappings -/

/-- `PortMapping.FromAndTo`. -/
def fromAndTo (pm : String) : String × String × Option String :=
  match Strings.cut pm ':' with
  | some (source, to_) =>
      match validate to_ with
      | some err => ("", to_, some err)
      | none =>
          match newPortIdentifier (protoAndNameOrNumber to_).1 source with
          | .error err => ("", to_, some err)
          | .ok from_ => (from_, to_, none)
  | none =>
      match validate pm with
      | some err => ("", pm, some err)
      | none => (pm, pm, none)

/-- `PortMapping.From`. -/
def mappingFrom (pm : String) : String := (fromAndTo pm).1

/-- `PortMapping.ToAsNumeric`. -/
def toAsNumeric (pm : String) : PortAndProto :=
  let (pr, _, n) := protoAndNameOrNumber (fromAndTo pm).2.1
  ⟨n, pr⟩

/-- `PortMapping.FromNumberAndTo`. -/
def fromNumberAndTo (pm : String) : Except String (Nat × PortAndProto) :=
  match Strings.cut pm ':' with
  | some (source, to_) => do
      let to_ ← parsePortAndProto to_
      let from_ ← Strings.parseUint source 16
      return (from_, to_)
  | none => do
      let to_ ← parsePortAndProto pm
      return (to_.port, to_)

/-! ## What a mapping that parses looks like -/

/-- The rune that `string(proto)` makes is not the name of a protocol, so it
is read as TCP. -/
theorem fromK8sProtocol_toRune (p : Proto) : fromK8sProtocol p.toRune = .tcp := by
  cases p <;> rfl

theorem parsePort_cases {s : String} {n : Nat} (h : parsePort s = .ok n) :
    n < 2 ^ 16 ∧ ' ' ∉ s.toList := by
  unfold parsePort at h
  split at h
  · cases h
  · rename_i port hport
    split at h
    · cases h
    · cases h
      exact ⟨by omega, Strings.space_notMem_of_atoi hport⟩

theorem space_notMem_of_parseProto {s : String} {p : Proto} (h : parseProto s = .ok p) :
    ' ' ∉ s.toList := by
  intro hmem
  have hlower : ' ' ∈ (Strings.toLower s).toList := by
    rw [Strings.toLower, String.toList_ofList]
    exact List.mem_map.mpr ⟨' ', hmem, by decide⟩
  have hnames : ∀ name ∈
      ["", "tcp", "tcp4", "tcp6", "udp", "udp4", "udp6", "icmp", "icmpv6", "sctp"],
      ' ' ∉ name.toList := by decide
  have hname : Strings.toLower s ∈
      ["", "tcp", "tcp4", "tcp6", "udp", "udp4", "udp6", "icmp", "icmpv6", "sctp"] := by
    refine Decidable.byContradiction fun hnot => ?_
    simp only [List.mem_cons, List.not_mem_nil, or_false, not_or] at hnot
    simp [parseProto, hnot] at h
  exact hnames _ hname hlower

/-- Both parsers of a port with a protocol agree. -/
theorem parsePortAndProto_cases {s : String} {pp : PortAndProto}
    (h : parsePortAndProto s = .ok pp) :
    protoAndNameOrNumber s = (pp.proto, "", pp.port) ∧ pp.port < 2 ^ 16 ∧ ' ' ∉ s.toList := by
  unfold parsePortAndProto at h
  unfold protoAndNameOrNumber
  cases hcut : Strings.cut s '/' with
  | none =>
    rw [hcut] at h
    cases hport : parsePort s with
    | error err =>
      rw [hport] at h
      cases h
    | ok n =>
      rw [hport] at h
      cases h
      obtain ⟨hlt, hspace⟩ := parsePort_cases hport
      exact ⟨by simp [hport], hlt, hspace⟩
  | some parts =>
    obtain ⟨port, proto⟩ := parts
    rw [hcut] at h
    cases hproto : parseProto proto with
    | error err =>
      simp only [hproto] at h
      cases h
    | ok p =>
      cases hport : parsePort port with
      | error err =>
        simp only [hproto, hport] at h
        cases h
      | ok n =>
        simp only [hproto, hport] at h
        cases h
        obtain ⟨hlt, hspace⟩ := parsePort_cases hport
        refine ⟨by simp [hproto, hport, Except.toOption], hlt, ?_⟩
        rw [Strings.toList_of_cut hcut]
        simp [hspace, space_notMem_of_parseProto hproto]

/-- **Mappings that parse.**  Their ports fit into sixteen bits, `ToAsNumeric`
agrees with `FromNumberAndTo`, and there are no spaces. -/
theorem fromNumberAndTo_cases {pm : String} {from_ : Nat} {to_ : PortAndProto}
    (h : fromNumberAndTo pm = .ok (from_, to_)) :
    from_ < 2 ^ 16 ∧ toAsNumeric pm = to_ ∧ ' ' ∉ pm.toList := by
  unfold fromNumberAndTo at h
  cases hcut : Strings.cut pm ':' with
  | none =>
    rw [hcut] at h
    cases hto : parsePortAndProto pm with
    | error err =>
      rw [hto] at h
      cases h
    | ok pp =>
      rw [hto] at h
      cases h
      obtain ⟨hproto, hlt, hspace⟩ := parsePortAndProto_cases hto
      refine ⟨hlt, ?_, hspace⟩
      have hsecond : (fromAndTo pm).2.1 = pm := by
        unfold fromAndTo
        rw [hcut]
        dsimp only
        split <;> rfl
      rw [toAsNumeric, hsecond, hproto]
  | some parts =>
    obtain ⟨source, to'⟩ := parts
    rw [hcut] at h
    cases hto : parsePortAndProto to' with
    | error err =>
      simp only [hto] at h
      cases h
    | ok pp =>
      cases hfrom : Strings.parseUint source 16 with
      | error err =>
        simp only [hto, hfrom] at h
        cases h
      | ok n =>
        simp only [hto, hfrom] at h
        cases h
        obtain ⟨hproto, _, hspace⟩ := parsePortAndProto_cases hto
        obtain ⟨hlt, hspace'⟩ := Strings.parseUint_cases hfrom
        refine ⟨hlt, ?_, ?_⟩
        · have hsecond : (fromAndTo pm).2.1 = to' := by
            unfold fromAndTo
            rw [hcut]
            dsimp only
            split
            · rfl
            · split <;> rfl
          rw [toAsNumeric, hsecond, hproto]
        · rw [Strings.toList_of_cut hcut]
          simp [hspace, hspace']

end Telepresence.Types
