import Telepresence.TunnelHandshake

/-!
# The round trip of the stream handshake

`StreamInfoMessage` writes each of its five numbers as a varint to the same
scratch buffer of eight bytes, which holds numbers below `2 ^ 56`.  A 64-bit
number takes up to ten bytes, so a larger one makes the encoder panic; in
particular every negative duration does.

* `streamInfo_roundTrip_iff`: encoding and decoding the handshake gives the
  same values back exactly when every number is below `2 ^ 56`.
-/

namespace Telepresence.Tunnel

open Varint Panic List

/-- The scratch buffer of `streamInfoMessage`. -/
abbrev scratch : List UInt8 := List.replicate 8 0

theorem putUvarint_scratch_iff (x : Nat) :
    (∃ bytes, putUvarint scratch x = .ok bytes) ↔ x < 2 ^ 56 :=
  putUvarint_ok_iff 0 (replicate 7 0) x

variable {buf bytes : List UInt8} {v : UInt64}

section

variable (h : putUvarint buf v.toNat = .ok bytes)

include h

theorem afterUvarint_putUvarint (rest : List UInt8) : afterUvarint (bytes ++ rest) = some rest := by
  have hpos := (putUvarint_length h).1
  rw [afterUvarint_eq_some, uvarint_putUvarint h rest]
  refine ⟨?_, by simp⟩
  simp only
  omega

variable {field : List UInt8}

section

variable (hv : v.toNat = field.length) (rest : List UInt8)

include hv rest

/-- A length-prefixed field, as the encoder writes it, fits. -/
theorem fieldFits_putUvarint : FieldFits (bytes ++ (field ++ rest)) := by
  unfold FieldFits
  rw [uvarint_putUvarint h]
  simp only [Int.toNat_natCast, length_append]
  omega

theorem afterField_putUvarint : afterField (bytes ++ (field ++ rest)) = some rest := by
  have hpos := (putUvarint_length h).1
  rw [afterField_eq_some, uvarint_putUvarint h]
  simp only [Int.toNat_natCast, length_append, hv]
  refine ⟨by omega, ?_⟩
  rw [← drop_drop, drop_left, drop_left]

theorem fieldBytes_putUvarint : fieldBytes (bytes ++ (field ++ rest)) = field := by
  rw [fieldBytes, uvarint_putUvarint h]
  simp [hv]

end

end

/-- The decoder takes the two length-prefixed fields apart again. -/
theorem setIDs_roundTrip {idLen sessLen id sess : List UInt8} {n m : UInt64}
    (hid : putUvarint scratch n.toNat = .ok idLen) (hn : n.toNat = id.length)
    (hsess : putUvarint scratch m.toNat = .ok sessLen) (hm : m.toNat = sess.length)
    (spare : List UInt8) (s : Stream) :
    setIDs (Slice.ofData (idLen ++ (id ++ (sessLen ++ (sess ++ [])))) spare) s =
      .ok ({ s with id := id, sessionID := sess }, none) := by
  rw [setIDs_fits spare s (fieldFits_putUvarint hid hn _) (afterField_putUvarint hid hn _),
    setSessionID_fits spare _ (fieldFits_putUvarint hsess hm []) (afterField_putUvarint hsess hm []),
    fieldBytes_putUvarint hid hn, fieldBytes_putUvarint hsess hm]

/-- The length of a string as the encoder converts it. -/
theorem ByteString.toNat_ofNat_length (b : ByteString) :
    (UInt64.ofNat b.bytes.length).toNat = b.bytes.length := by
  have := b.length_lt
  rw [UInt64.toNat_ofNat']
  omega

/-- What the encoder and decoder must do together for these values. -/
def RoundTrips (id sessionID : ByteString) (callDelay dialTimeout : Duration) : Prop :=
  ∃ m, streamInfoMessage id sessionID callDelay dialTimeout = .ok m ∧
    ∀ spare s, ∃ s', setConnectInfo (Slice.ofData m spare) s = .ok (s', none) ∧
      s'.id = id.bytes ∧ s'.sessionID = sessionID.bytes ∧
      s'.roundtripLatency = callDelay ∧ s'.dialTimeout = dialTimeout ∧
      s'.peerVersion = version

/-- The encoder succeeds exactly when its five varints can be written. -/
theorem streamInfoMessage_eq_ok {id sess : ByteString} {callDelay dialTimeout : Duration}
    {m : List UInt8} :
    streamInfoMessage id sess callDelay dialTimeout = .ok m ↔
      ∃ delay timeout idLen sessLen,
        putUvarint scratch callDelay.toUInt64.toNat = .ok delay ∧
        putUvarint scratch dialTimeout.toUInt64.toNat = .ok timeout ∧
        putUvarint scratch (UInt64.ofNat id.bytes.length).toNat = .ok idLen ∧
        putUvarint scratch (UInt64.ofNat sess.bytes.length).toNat = .ok sessLen ∧
        m = streamInfo :: ([2] ++ (delay ++ (timeout ++ (idLen ++ (id.bytes ++
          (sessLen ++ (sess.bytes ++ []))))))) := by
  have hver : putUvarint (replicate 8 0) version.toUInt64.toNat = .ok [2] := by decide
  unfold streamInfoMessage
  simp only [hver, ok_bind, bind_eq_ok, pure, Except.pure, Except.ok.injEq, append_assoc,
    append_nil]
  grind

/-- The decoder recovers what the encoder wrote. -/
theorem setConnectInfo_roundTrip {delay timeout idLen sessLen : List UInt8}
    {id sess : ByteString} {callDelay dialTimeout : Duration}
    (hdelay : putUvarint scratch callDelay.toUInt64.toNat = .ok delay)
    (htimeout : putUvarint scratch dialTimeout.toUInt64.toNat = .ok timeout)
    (hid : putUvarint scratch (UInt64.ofNat id.bytes.length).toNat = .ok idLen)
    (hsess : putUvarint scratch (UInt64.ofNat sess.bytes.length).toNat = .ok sessLen)
    (spare : List UInt8) (s : Stream) :
    setConnectInfo (Slice.ofData (streamInfo :: ([2] ++ (delay ++ (timeout ++ (idLen ++
        (id.bytes ++ (sessLen ++ (sess.bytes ++ [])))))))) spare) s =
      .ok ({ s with
        peerVersion := version
        roundtripLatency := callDelay
        dialTimeout := dialTimeout
        id := id.bytes
        sessionID := sess.bytes }, none) := by
  have hver : putUvarint scratch version.toUInt64.toNat = .ok [2] := by decide
  rw [setConnectInfo_header streamInfo spare s (afterUvarint_putUvarint hver _)
      (afterUvarint_putUvarint hdelay _) (afterUvarint_putUvarint htimeout _),
    setIDs_roundTrip hid id.toNat_ofNat_length hsess sess.toNat_ofNat_length,
    uvarint_putUvarint hver, uvarint_putUvarint hdelay, uvarint_putUvarint htimeout]
  rfl

/-- **When the handshake round trips.** `StreamInfoMessage` does not panic and
`setConnectInfo` recovers exactly its arguments if and only if both durations,
as unsigned numbers, and both lengths are below `2 ^ 56`. -/
theorem streamInfo_roundTrip_iff (id sess : ByteString) (callDelay dialTimeout : Duration) :
    RoundTrips id sess callDelay dialTimeout ↔
      callDelay.toUInt64.toNat < 2 ^ 56 ∧ dialTimeout.toUInt64.toNat < 2 ^ 56 ∧
        id.bytes.length < 2 ^ 56 ∧ sess.bytes.length < 2 ^ 56 := by
  simp only [← putUvarint_scratch_iff]
  apply Iff.intro
  · intro h
    obtain ⟨m, hm, _⟩ := h
    obtain ⟨delay, timeout, idLen, sessLen, hdelay, htimeout, hid, hsess, _⟩ :=
      streamInfoMessage_eq_ok.mp hm
    rw [id.toNat_ofNat_length] at hid
    rw [sess.toNat_ofNat_length] at hsess
    exact ⟨⟨_, hdelay⟩, ⟨_, htimeout⟩, ⟨_, hid⟩, ⟨_, hsess⟩⟩
  · intro h
    obtain ⟨⟨delay, hdelay⟩, ⟨timeout, htimeout⟩, ⟨idLen, hid⟩, ⟨sessLen, hsess⟩⟩ := h
    rw [← id.toNat_ofNat_length] at hid
    rw [← sess.toNat_ofNat_length] at hsess
    refine ⟨_, streamInfoMessage_eq_ok.mpr
      ⟨delay, timeout, idLen, sessLen, hdelay, htimeout, hid, hsess, rfl⟩, ?_⟩
    intro spare s
    exact ⟨_, setConnectInfo_roundTrip hdelay htimeout hid hsess spare s, rfl, rfl, rfl, rfl, rfl⟩

/-- A negative dial timeout makes the encoder panic. -/
theorem streamInfoMessage_negative_panics :
    streamInfoMessage ⟨[], by decide⟩ ⟨[], by decide⟩ 0 (-1) = .error .indexOutOfRange := by
  decide

end Telepresence.Tunnel
