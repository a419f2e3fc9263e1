import Telepresence.Lib.Netip

/-!
# Connection IDs

A `ConnID` is a string of bytes that holds the protocol, source and
destination of a connection and is used as a map key.  It has two layouts: 13
bytes when both addresses are IPv4, possibly mapped into IPv6, and 37 bytes
otherwise.  The accessors tell them apart by the length alone.

* `newConnID_cases`: the addresses that decide the layout, and the layout.
* `connID_canonical`: the ID determines protocol, source and destination up to
  mapping and is determined by them, and `Reply` swaps its two ends.
-/

namespace Telepresence.Tunnel

open Netip List Addr BigEndian

/-- `ConnID`, a string of bytes. -/
abbrev ConnID := List UInt8

/-- The switch of `NewConnID` that gives both addresses the same size. -/
def alignAddrs (srcAddr dstAddr : Addr) : Addr × Addr :=
  if srcAddr.is4 then
    if dstAddr.is4In6 then (srcAddr, dstAddr.unmap)
    else if dstAddr.is6 then (.from16 srcAddr.as16, dstAddr)
    else (srcAddr, dstAddr)
  else if srcAddr.is4In6 then
    if dstAddr.is4 then (srcAddr.unmap, dstAddr)
    else if dstAddr.is4In6 then (srcAddr.unmap, dstAddr.unmap)
    else (srcAddr, dstAddr)
  else if dstAddr.is4 then (srcAddr, .from16 dstAddr.as16)
  else (srcAddr, dstAddr)

/-- The bytes of an ID. -/
def layout (proto : UInt8) (srcAddr : List UInt8) (srcPort : UInt16) (dstAddr : List UInt8)
    (dstPort : UInt16) : ConnID :=
  srcAddr ++ (putUint16 srcPort ++ (dstAddr ++ (putUint16 dstPort ++ [proto])))

/-- `NewConnID`; the error is the text of its panic.  The protocol is a byte,
which need not be that of a known one. -/
def newConnID (proto : UInt8) (src dst : AddrPort) : Except String ConnID :=
  let (srcAddr, dstAddr) := alignAddrs src.addr dst.addr
  if srcAddr.bitLen / 8 = 0 then .error "invalid source IP"
  else if dstAddr.bitLen / 8 = 0 then .error "invalid destination IP"
  else .ok (layout proto srcAddr.asSlice src.port dstAddr.asSlice dst.port)

namespace ConnID

/-- `areBothIPv4`. -/
def areBothIPv4 (id : ConnID) : Bool := id.length == 13

/-- `IsSourceIPv4`. -/
def isSourceIPv4 (id : ConnID) : Bool :=
  areBothIPv4 id || decide (id.length > 16) && (to4 (id.take 16)).isSome

/-- `IsDestinationIPv4`. -/
def isDestinationIPv4 (id : ConnID) : Bool :=
  areBothIPv4 id || id.length == 37 && (to4 ((id.drop 18).take 16)).isSome

/-- The array of `n` bytes at `i`. -/
def window (id : ConnID) (i n : Nat) : Except Panic (Bytes n) :=
  if h : i + n ≤ id.length then
    .ok ⟨(id.drop i).take n, by rw [List.length_take, List.length_drop]; omega⟩
  else .error .sliceBoundsOutOfRange

/-- The two bytes at `i`. -/
def portAt (id : ConnID) (i : Nat) : Except Panic UInt16 :=
  if i ≤ id.length then uint16 (id.drop i) else .error .sliceBoundsOutOfRange

/-- `SourceAddr`. -/
def sourceAddr (id : ConnID) : Except Panic Addr :=
  if areBothIPv4 id then (window id 0 4).map .v4
  else (window id 0 16).map fun bs => (from16 bs).unmap

/-- `SourcePort`. -/
def sourcePort (id : ConnID) : Except Panic UInt16 :=
  if areBothIPv4 id then portAt id 4 else portAt id 16

/-- `Source`. -/
def source (id : ConnID) : Except Panic AddrPort := do
  return ⟨← sourceAddr id, ← sourcePort id⟩

/-- `DestinationAddr`. -/
def destinationAddr (id : ConnID) : Except Panic Addr :=
  if areBothIPv4 id then (window id 6 4).map .v4
  else (window id 18 16).map fun bs => (from16 bs).unmap

/-- `DestinationPort`. -/
def destinationPort (id : ConnID) : Except Panic UInt16 :=
  if areBothIPv4 id then portAt id 10 else portAt id 34

/-- `Destination`. -/
def destination (id : ConnID) : Except Panic AddrPort := do
  return ⟨← destinationAddr id, ← destinationPort id⟩

/-- `Protocol`. -/
def protocol (id : ConnID) : Except Panic UInt8 :=
  match id.getLast? with
  | some p => .ok p
  | none => .error .indexOutOfRange

/-- `Reply`; the inner error is the panic of `NewConnID`. -/
def reply (id : ConnID) : Except Panic (Except String ConnID) := do
  return newConnID (← protocol id) (← destination id) (← source id)

end ConnID

open ConnID

/-! ## The two layouts -/

/-- The addresses get the size of IPv4 if both are IPv4 up to mapping, and
sixteen bytes otherwise. -/
theorem alignAddrs_cases {a b : Addr} (ha : a.Valid) (hb : b.Valid) :
    (∃ x y, a.unmap = .v4 x ∧ b.unmap = .v4 y ∧ alignAddrs a b = (.v4 x, .v4 y)) ∨
      ¬ (a.unmap.is4 = true ∧ b.unmap.is4 = true) ∧
        alignAddrs a b = (.from16 a.as16, .from16 b.as16) := by
  cases a with
  | zero => exact ha.elim
  | v4 x =>
    cases b with
    | zero => exact hb.elim
    | v4 y => exact .inl ⟨x, y, rfl, rfl, rfl⟩
    | v6 y zone =>
      cases hb
      by_cases hy : y.1.take 12 = mapped
      · exact .inl ⟨x, ⟨y.1.drop 12, by simp [y.2]⟩, rfl, by simp [unmap, hy],
          by simp [alignAddrs, is4, is4In6, unmap, hy]⟩
      · refine .inr ⟨by simp [unmap, is4, hy], ?_⟩
        simp [alignAddrs, is4, is4In6, is6, from16, as16, hy]
  | v6 x zone =>
    cases ha
    by_cases hx : x.1.take 12 = mapped
    · cases b with
      | zero => exact hb.elim
      | v4 y =>
        exact .inl ⟨⟨x.1.drop 12, by simp [x.2]⟩, y, by simp [unmap, hx], rfl,
          by simp [alignAddrs, is4, is4In6, unmap, hx]⟩
      | v6 y zone =>
        cases hb
        by_cases hy : y.1.take 12 = mapped
        · exact .inl ⟨⟨x.1.drop 12, by simp [x.2]⟩, ⟨y.1.drop 12, by simp [y.2]⟩,
            by simp [unmap, hx], by simp [unmap, hy],
            by simp [alignAddrs, is4, is4In6, unmap, hx, hy]⟩
        · refine .inr ⟨by simp [unmap, is4, hy], ?_⟩
          simp [alignAddrs, is4, is4In6, from16, as16, hx, hy]
    · refine .inr ⟨by simp [unmap, is4, hx], ?_⟩
      cases b with
      | zero => exact hb.elim
      | v4 y => simp [alignAddrs, is4, is4In6, from16, as16, hx]
      | v6 y zone =>
        cases hb
        simp [alignAddrs, is4, is4In6, from16, as16, hx]

variable {src dst : AddrPort}

/-- **The layouts.**  Valid addresses never make `NewConnID` panic. -/
theorem newConnID_cases (p : UInt8) (hs : src.addr.Valid) (hd : dst.addr.Valid) :
    (∃ x y, src.addr.unmap = .v4 x ∧ dst.addr.unmap = .v4 y ∧
        newConnID p src dst = .ok (layout p x.1 src.port y.1 dst.port)) ∨
      ¬ (src.addr.unmap.is4 = true ∧ dst.addr.unmap.is4 = true) ∧
        newConnID p src dst =
          .ok (layout p src.addr.as16.1 src.port dst.addr.as16.1 dst.port) := by
  rcases alignAddrs_cases hs hd with ⟨x, y, hx, hy, halign⟩ | ⟨hnot, halign⟩
  · exact .inl ⟨x, y, hx, hy, by simp [newConnID, halign, bitLen, asSlice]⟩
  · exact .inr ⟨hnot, by simp [newConnID, halign, bitLen, asSlice, from16]⟩

/-- An ID does not tell an address from its unmapped form. -/
theorem newConnID_unmap (p : UInt8) (hs : src.addr.Valid) (hd : dst.addr.Valid) :
    newConnID p src.unmap dst.unmap = newConnID p src dst := by
  have hs' : src.unmap.addr.Valid := unmap_valid hs
  have hd' : dst.unmap.addr.Valid := unmap_valid hd
  rcases newConnID_cases p hs hd with ⟨x, y, hx, hy, heq⟩ | ⟨hnot, heq⟩ <;>
    rcases newConnID_cases p hs' hd' with ⟨x', y', hx', hy', heq'⟩ | ⟨hnot', heq'⟩
  · rw [AddrPort.unmap, unmap_unmap, hx] at hx'
    rw [AddrPort.unmap, unmap_unmap, hy] at hy'
    cases hx'
    cases hy'
    rw [heq, heq']
    rfl
  · refine absurd ⟨?_, ?_⟩ hnot'
    · rw [AddrPort.unmap, unmap_unmap, hx]
      rfl
    · rw [AddrPort.unmap, unmap_unmap, hy]
      rfl
  · rw [AddrPort.unmap, unmap_unmap] at hx' hy'
    refine absurd ⟨?_, ?_⟩ hnot
    · rw [hx']
      rfl
    · rw [hy']
      rfl
  · rw [heq, heq']
    simp only [AddrPort.unmap, as16_unmap]

/-! ## Reading a layout -/

section Layout

variable {n : Nat} (p : UInt8) (s d : Bytes n) (sp dp : UInt16)

theorem length_layout : (layout p s.1 sp d.1 dp).length = 2 * n + 5 := by
  simp only [layout, length_append, length_putUint16, s.2, d.2,
    length_singleton]
  omega

theorem drop_layout_sourcePort : (layout p s.1 sp d.1 dp).drop n =
    putUint16 sp ++ (d.1 ++ (putUint16 dp ++ [p])) :=
  drop_left' s.2

theorem drop_layout_destination : (layout p s.1 sp d.1 dp).drop (n + 2) =
    d.1 ++ (putUint16 dp ++ [p]) := by
  rw [← drop_drop, drop_layout_sourcePort]
  rfl

theorem drop_layout_destinationPort : (layout p s.1 sp d.1 dp).drop (n + 2 + n) =
    putUint16 dp ++ [p] := by
  rw [← drop_drop, drop_layout_destination]
  exact drop_left' d.2

theorem take_layout_source : (layout p s.1 sp d.1 dp).take n = s.1 :=
  take_left' s.2

theorem take_layout_destination : ((layout p s.1 sp d.1 dp).drop (n + 2)).take n = d.1 := by
  rw [drop_layout_destination]
  exact take_left' d.2

theorem window_layout_source : window (layout p s.1 sp d.1 dp) 0 n = .ok s := by
  have hle : 0 + n ≤ (layout p s.1 sp d.1 dp).length := by
    rw [length_layout]
    omega
  rw [window, dif_pos hle]
  congr 1
  exact Subtype.ext (take_layout_source p s d sp dp)

theorem window_layout_destination :
    window (layout p s.1 sp d.1 dp) (n + 2) n = .ok d := by
  have hle : n + 2 + n ≤ (layout p s.1 sp d.1 dp).length := by
    rw [length_layout]
    omega
  rw [window, dif_pos hle]
  congr 1
  exact Subtype.ext (take_layout_destination p s d sp dp)

theorem portAt_layout_source : portAt (layout p s.1 sp d.1 dp) n = .ok sp := by
  have hle : n ≤ (layout p s.1 sp d.1 dp).length := by
    rw [length_layout]
    omega
  rw [portAt, if_pos hle, drop_layout_sourcePort, uint16_putUint16]

theorem portAt_layout_destination :
    portAt (layout p s.1 sp d.1 dp) (n + 2 + n) = .ok dp := by
  have hle : n + 2 + n ≤ (layout p s.1 sp d.1 dp).length := by
    rw [length_layout]
    omega
  rw [portAt, if_pos hle, drop_layout_destinationPort, uint16_putUint16]

theorem protocol_layout : protocol (layout p s.1 sp d.1 dp) = .ok p := by
  simp [protocol, layout]

end Layout

/-- What the accessors return. -/
structure Reads (id : ConnID) (p : UInt8) (src dst : AddrPort) : Prop where
  length : id.length = 13 ∨ id.length = 37
  protocol : protocol id = .ok p
  sourceAddr : sourceAddr id = .ok src.addr
  sourcePort : sourcePort id = .ok src.port
  destinationAddr : destinationAddr id = .ok dst.addr
  destinationPort : destinationPort id = .ok dst.port
  isSourceIPv4 : isSourceIPv4 id = src.addr.is4
  isDestinationIPv4 : isDestinationIPv4 id = dst.addr.is4

variable {id : ConnID} {p : UInt8}

theorem Reads.source (h : Reads id p src dst) : ConnID.source id = .ok src := by
  rw [ConnID.source, h.sourceAddr, h.sourcePort]
  rfl

theorem Reads.destination (h : Reads id p src dst) : ConnID.destination id = .ok dst := by
  rw [ConnID.destination, h.destinationAddr, h.destinationPort]
  rfl

/-- The short layout. -/
theorem reads_layout4 (p : UInt8) (x y : Bytes 4) (sp dp : UInt16) :
    Reads (layout p x.1 sp y.1 dp) p ⟨.v4 x, sp⟩ ⟨.v4 y, dp⟩ := by
  have hlen : (layout p x.1 sp y.1 dp).length = 13 := length_layout p x y sp dp
  have hboth : areBothIPv4 (layout p x.1 sp y.1 dp) = true := by
    rw [areBothIPv4, hlen]
    rfl
  refine ⟨.inl hlen, protocol_layout p x y sp dp, ?_, ?_, ?_, ?_, ?_, ?_⟩
  · rw [sourceAddr, if_pos hboth, window_layout_source]
    rfl
  · rw [sourcePort, if_pos hboth, portAt_layout_source]
  · rw [destinationAddr, if_pos hboth, window_layout_destination p x y sp dp]
    rfl
  · rw [destinationPort, if_pos hboth, portAt_layout_destination p x y sp dp]
  · rw [isSourceIPv4, hboth]
    rfl
  · rw [isDestinationIPv4, hboth]
    rfl

/-- The long layout. -/
theorem reads_layout16 (p : UInt8) (x y : Bytes 16) (sp dp : UInt16) :
    Reads (layout p x.1 sp y.1 dp) p ⟨(from16 x).unmap, sp⟩ ⟨(from16 y).unmap, dp⟩ := by
  have hlen : (layout p x.1 sp y.1 dp).length = 37 := length_layout p x y sp dp
  have hboth : ¬ areBothIPv4 (layout p x.1 sp y.1 dp) = true := by
    rw [areBothIPv4, hlen]
    decide
  refine ⟨.inr hlen, protocol_layout p x y sp dp, ?_, ?_, ?_, ?_, ?_, ?_⟩
  · rw [sourceAddr, if_neg hboth, window_layout_source]
    rfl
  · rw [sourcePort, if_neg hboth, portAt_layout_source]
  · rw [destinationAddr, if_neg hboth, window_layout_destination p x y sp dp]
    rfl
  · rw [destinationPort, if_neg hboth, portAt_layout_destination p x y sp dp]
  · rw [isSourceIPv4, Bool.not_eq_true _ |>.mp hboth, hlen, take_layout_source,
      to4_isSome]
    rfl
  · rw [isDestinationIPv4, Bool.not_eq_true _ |>.mp hboth, hlen,
      take_layout_destination p x y sp dp, to4_isSome]
    rfl

/-- The accessors return what the ID was made of, unmapped. -/
theorem newConnID_reads (p : UInt8) (hs : src.addr.Valid) (hd : dst.addr.Valid) :
    ∃ id, newConnID p src dst = .ok id ∧ Reads id p src.unmap dst.unmap := by
  rcases newConnID_cases p hs hd with ⟨x, y, hx, hy, heq⟩ | ⟨_, heq⟩
  · refine ⟨_, heq, ?_⟩
    rw [AddrPort.unmap, AddrPort.unmap, hx, hy]
    exact reads_layout4 p x y src.port dst.port
  · refine ⟨_, heq, ?_⟩
    rw [AddrPort.unmap, AddrPort.unmap, ← unmap_from16_as16 hs, ← unmap_from16_as16 hd]
    exact reads_layout16 p _ _ src.port dst.port

/-- An ID is read in one way. -/
theorem Reads.unique {p' : UInt8} {src' dst' : AddrPort} (h : Reads id p src dst)
    (h' : Reads id p' src' dst') : p = p' ∧ src = src' ∧ dst = dst' := by
  have hp := h.protocol.symm.trans h'.protocol
  have hs := h.source.symm.trans h'.source
  have hd := h.destination.symm.trans h'.destination
  cases hp
  cases hs
  cases hd
  exact ⟨rfl, rfl, rfl⟩

/-- `Reply` makes the ID of the other direction. -/
theorem Reads.reply (h : Reads id p src dst) : ConnID.reply id = .ok (newConnID p dst src) := by
  rw [ConnID.reply, h.protocol, h.source, h.destination]
  rfl

/-- **Canonical keys.**  For every protocol byte and all valid addresses the
ID has one of the two lengths, its accessors return the protocol and the
unmapped ends, it is the ID of exactly those triples that agree up to mapping,
and `Reply` swaps the ends and is its own inverse. -/
theorem connID_canonical (p : UInt8) (src dst : AddrPort) (hs : src.addr.Valid)
    (hd : dst.addr.Valid) :
    ∃ id, newConnID p src dst = .ok id ∧
      (id.length = 13 ∨ id.length = 37) ∧
      ConnID.protocol id = .ok p ∧
      ConnID.source id = .ok ⟨src.addr.unmap, src.port⟩ ∧
      ConnID.destination id = .ok ⟨dst.addr.unmap, dst.port⟩ ∧
      (∃ a, ConnID.sourceAddr id = .ok a ∧ ConnID.isSourceIPv4 id = a.is4) ∧
      (∃ a, ConnID.destinationAddr id = .ok a ∧ ConnID.isDestinationIPv4 id = a.is4) ∧
      (∀ p' src' dst', Addr.Valid src'.addr → Addr.Valid dst'.addr →
        (newConnID p' src' dst' = .ok id ↔
          p' = p ∧ src'.unmap = src.unmap ∧ dst'.unmap = dst.unmap)) ∧
      ∃ r, ConnID.reply id = .ok (.ok r) ∧ ConnID.source r = ConnID.destination id ∧
        ConnID.destination r = ConnID.source id ∧ ConnID.reply r = .ok (.ok id) := by
  obtain ⟨id, hid, hreads⟩ := newConnID_reads p hs hd
  have hs' : src.unmap.addr.Valid := unmap_valid hs
  have hd' : dst.unmap.addr.Valid := unmap_valid hd
  obtain ⟨r, hr, hrreads⟩ := newConnID_reads p hd' hs'
  have hidem : ∀ ap : AddrPort, ap.unmap.unmap = ap.unmap := by
    intro ap
    simp [AddrPort.unmap]
  rw [hidem, hidem] at hrreads
  refine ⟨id, hid, hreads.length, hreads.protocol, hreads.source, hreads.destination,
    ⟨_, hreads.sourceAddr, hreads.isSourceIPv4⟩,
    ⟨_, hreads.destinationAddr, hreads.isDestinationIPv4⟩, ?_, r, ?_, ?_, ?_, ?_⟩
  · intro p' src' dst' hs₁ hd₁
    constructor
    · intro heq
      obtain ⟨id', hid', hreads'⟩ := newConnID_reads p' hs₁ hd₁
      rw [heq] at hid'
      cases hid'
      exact hreads'.unique hreads
    · rintro ⟨rfl, hsrc, hdst⟩
      rw [← newConnID_unmap p' hs₁ hd₁, hsrc, hdst, newConnID_unmap p' hs hd, hid]
  · rw [hreads.reply, hr]
  · rw [hrreads.source, hreads.destination]
  · rw [hrreads.destination, hreads.source]
  · rw [hrreads.reply, newConnID_unmap p hs hd, hid]

theorem connID_canonical_mixed :
    ∃ id, newConnID 17 ⟨.v4 ⟨[192, 168, 0, 1], rfl⟩, 4⟩
        ⟨.v6 ⟨[0, 0, 0, 0, 0, 0, 0, 0, 0, 0, 255, 255, 192, 168, 3, 8], rfl⟩ "", 8⟩ = .ok id ∧
      id.length = 13 := by
  obtain ⟨id, hid, _⟩ := connID_canonical 17 ⟨.v4 ⟨[192, 168, 0, 1], rfl⟩, 4⟩
    ⟨.v6 ⟨[0, 0, 0, 0, 0, 0, 0, 0, 0, 0, 255, 255, 192, 168, 3, 8], rfl⟩ "", 8⟩ trivial rfl
  refine ⟨id, hid, ?_⟩
  cases hid
  rfl

end Telepresence.Tunnel
