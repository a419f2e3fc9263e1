import Telepresence.Lib.Varint

/-!
# Tunnel messages and the stream handshake

The messages of `pkg/tunnel`: one code byte followed by a payload.  A client
opens a stream by sending a `StreamInfo` message (`streamInfoMessage`), which
the server takes apart in `setConnectInfo` when the stream is created
(`newServerStream`).

Received messages are slices, because the bytes come in a buffer that may have
spare capacity and because the decoder works with slice expressions.  The
outer `Except Panic` is a run-time panic, the inner one an error value.
-/

namespace Telepresence.Tunnel

open Varint

/-- A message code is whatever byte arrives first. -/
abbrev MessageCode := UInt8

/-- The code of the first message of a client. -/
def streamInfo : MessageCode := 1
/-- The code of its answer. -/
def streamOK : MessageCode := 2
/-- The code of the end of one direction. -/
def closeSend : MessageCode := 3

/-- Version of the stream protocol. -/
def version : UInt16 := 2

/-- `time.Duration`: nanoseconds as a signed 64-bit number. -/
abbrev Duration := Int64

/-- A string of the language: bytes, of which there are fewer than `2 ^ 63`
because `len` is a non-negative `int`. -/
structure ByteString where
  bytes : List UInt8
  length_lt : bytes.length < 2 ^ 63

/-- The state of one end of a tunnel stream, its gRPC stream apart. -/
structure Stream where
  tag : String
  id : List UInt8 := []
  dialTimeout : Duration := 0
  roundtripLatency : Duration := 0
  sessionID : List UInt8 := []
  syncRatio : UInt32 := 8
  ackWindow : UInt32 := 1
  peerVersion : UInt16 := 0

/-- `msg.Code`: the first byte. -/
def code (m : Slice) : Except Panic MessageCode := m.index 0

/-- `msg.Payload`: the bytes after the code. -/
def payload (m : Slice) : Except Panic Slice := m.sliceFrom 1

/-- `StreamInfoMessage`: five varint-prefixed fields, each varint written to
the same scratch buffer of eight bytes. -/
def streamInfoMessage (id sessionID : ByteString) (callDelay dialTimeout : Duration) :
    Except Panic (List UInt8) := do
  let buf := List.replicate 8 0
  let ver ← putUvarint buf version.toUInt64.toNat
  let delay ← putUvarint buf callDelay.toUInt64.toNat
  let timeout ← putUvarint buf dialTimeout.toUInt64.toNat
  let idLen ← putUvarint buf (UInt64.ofNat id.bytes.length).toNat
  let sessionLen ← putUvarint buf (UInt64.ofNat sessionID.bytes.length).toNat
  return streamInfo ::
    (ver ++ delay ++ timeout ++ idLen ++ id.bytes ++ sessionLen ++ sessionID.bytes)

/-- `StreamOKMessage`: the protocol version in a buffer of four bytes. -/
def streamOKMessage : Except Panic (List UInt8) := do
  let ver ← putUvarint (List.replicate 4 0) version.toUInt64.toNat
  return streamOK :: ver

/-- The error of a handshake that cannot be read. -/
def errMalformedConnect : String := "malformed Connect message"

/-- `net.ErrClosed`. -/
def errClosed : String := "use of closed network connection"

/-- `setConnectInfo`: decode a `StreamInfo` message into the stream.  The
fields are set one by one, so the stream is returned beside the error. -/
def setConnectInfo (m : Slice) (s : Stream) : Except Panic (Stream × Option String) := do
  let pl ← payload m
  let (v, n) := uvarint pl.bytes
  if n ≤ 0 then return (s, some errMalformedConnect)
  let s := { s with peerVersion := v.toUInt16 }
  let pl ← pl.sliceFrom n.toNat
  let (v, n) := uvarint pl.bytes
  if n ≤ 0 then return (s, some errMalformedConnect)
  let s := { s with roundtripLatency := v.toInt64 }
  let pl ← pl.sliceFrom n.toNat
  let (v, n) := uvarint pl.bytes
  if n ≤ 0 then return (s, some errMalformedConnect)
  let s := { s with dialTimeout := v.toInt64 }
  let pl ← pl.sliceFrom n.toNat
  let (v, n) := uvarint pl.bytes
  -- the length is compared with a slice that still starts at the varint
  if n ≤ 0 ∨ v.toNat > pl.len then return (s, some errMalformedConnect)
  let pl ← pl.sliceFrom n.toNat
  let id ← pl.sliceTo v.toNat
  let s := { s with id := id.bytes }
  let pl ← pl.sliceFrom v.toNat
  let (v, n) := uvarint pl.bytes
  if n ≤ 0 ∨ v.toNat > pl.len then return (s, some errMalformedConnect)
  let pl ← pl.sliceFrom n.toNat
  let sessionID ← pl.sliceTo v.toNat
  return ({ s with sessionID := sessionID.bytes }, none)

/-- `stream.Receive`, given what the gRPC stream delivers. -/
def receive (recv : Except String Slice) : Except Panic (Except String Slice) :=
  match recv with
  | .error err => .ok (.error err)
  | .ok m => do
      let c ← code m
      if c = closeSend then return .error errClosed
      return .ok m

/-- `NewServerStream`, given what the gRPC stream delivers first and how it
answers to the message sent back. -/
def newServerStream (tag : String) (recv : Except String Slice)
    (send : List UInt8 → Option String) : Except Panic (Except String Stream) := do
  match ← receive recv with
  | .error err => return .error ("failed to read initial StreamInfo message: " ++ err)
  | .ok m =>
      let c ← code m
      if c ≠ streamInfo then return .error "initial message was not StreamInfo"
      match ← setConnectInfo m { tag := tag } with
      | (_, some err) => return .error ("failed to parse StreamInfo message: " ++ err)
      | (s, none) =>
          match send (← streamOKMessage) with
          | some err => return .error err
          | none => return .ok s

end Telepresence.Tunnel
