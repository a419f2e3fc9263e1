import Telepresence.ConnID
import Telepresence.Lib.Maps
import Telepresence.Lib.Threads

/-!
# The gRPC server of the traffic-agent

A client that intercepts an agent watches for dial requests with `WatchDial`.
To reach the client, the agent calls `CreateClientStream`: it finds the
client's watcher, announces that it waits for a stream, sends a dial request
to the watcher and waits.  The client answers with a `Tunnel` call, which takes
the announcement and hands its stream over.

All these calls run concurrently.  A call is a thread and takes one atomic
access to a map or one operation on a channel at a time.  The channels have no
buffer: what is sent is on offer (`requests`, `streams`) until somebody
receives it, and only then the sender goes on.

* `dialWatchers` maps a session to the channel of a `WatchDial` call.
* `awaitingForwards` maps a session and a connection ID to what a
  `CreateClientStream` call has announced.  The map of a session is never
  removed, so both levels are one map here.
-/

namespace Telepresence.AgentServer

open Telepresence.Tunnel

/-- The session and the connection that a stream is for. -/
abbrev Key := String × ConnID

/-- `awaitingForward`: the channel for the stream, and the call whose context
ends with `doneCh`. -/
structure AwaitingForward where
  streamCh : Nat
  doneCh : Nat

/-- A dial request that a call is sending to a watcher. -/
structure DialRequest where
  call : Nat
  key : Key
  watcher : Nat
  deriving DecidableEq

/-- A stream that a `Tunnel` call is sending. -/
structure Offer where
  tunnel : Nat
  key : Key
  streamCh : Nat
  deriving DecidableEq

/-- `state`, the offers on the channels, the calls whose context has ended, and
what has happened: the announcements that have been taken, and for each stream
that was received what it was for and what its receiver waited for.  Calls and
channels are numbered. -/
structure Shared where
  next : Nat := 0
  dialWatchers : GoMap String Nat := ∅
  awaitingForwards : GoMap Key AwaitingForward := ∅
  requests : List DialRequest := []
  streams : List Offer := []
  done : List Nat := []
  taken : List (Key × Nat) := []
  received : List (Key × Key) := []

/-- What a call has still to do. -/
inductive Frame where
  | watchDial (session : String)
  | serve (session : String) (watcher : Nat)
  | deliver (session : String) (watcher : Nat)
  | unwatch (session : String)
  | createClientStream (key : Key)
  | dial (call : Nat) (key : Key)
  | await (call : Nat) (key : Key) (watcher : Nat)
  | request (call : Nat) (key : Key) (watcher streamCh : Nat)
  | requested (call : Nat) (key : Key) (streamCh : Nat)
  | receive (call : Nat) (key : Key) (streamCh : Nat)
  | tunnel (key : Key)
  | hand (tunnel : Nat) (key : Key) (awf : AwaitingForward)
  | handed (tunnel : Nat) (awf : AwaitingForward)
  | linger (awf : AwaitingForward)
  | cancel (call : Nat)

/-- What is left open in a step: nothing, that the context has ended, that the
client cannot be reached, which offer is received. -/
inductive Choice where
  | next
  | done
  | fail
  | take (sender : Nat)

/-- The operations. -/
inductive Op where
  | watchDial (session : String)
  | createClientStream (key : Key)
  | tunnel (key : Key)
  | cancel (call : Nat)

/-- How an operation begins. -/
def program : Op → List Frame
  | .watchDial session => [.watchDial session]
  | .createClientStream key => [.createClientStream key]
  | .tunnel key => [.tunnel key]
  | .cancel call => [.cancel call]

/-- One step. -/
def exec (sh : Shared) : Frame → Choice → Option (Shared × List Frame)
  -- `WatchDial`
  | .watchDial session, .next =>
      some ({ sh with
        next := sh.next + 1
        dialWatchers := sh.dialWatchers.insert session sh.next }, [.serve session sh.next])
  | .serve session _, .done => some (sh, [.unwatch session])
  | .serve session watcher, .take call =>
      match sh.requests.find? fun r => r.call == call && r.watcher == watcher with
      | none => none
      | some r => some ({ sh with requests := sh.requests.erase r }, [.deliver session watcher])
  | .deliver session watcher, .next => some (sh, [.serve session watcher])
  | .deliver session _, .fail => some (sh, [.unwatch session])
  | .unwatch session, .next =>
      some ({ sh with dialWatchers := sh.dialWatchers.erase session }, [])
  -- `CreateClientStream`; without a watcher it tries again
  | .createClientStream key, .next =>
      some ({ sh with next := sh.next + 1 }, [.dial sh.next key])
  | .dial call key, .next =>
      match sh.dialWatchers.lookup key.1 with
      | none => none
      | some watcher => some (sh, [.await call key watcher])
  | .dial call _, .done => if call ∈ sh.done then some (sh, []) else none
  | .await call key watcher, .next =>
      match sh.awaitingForwards.lookup key with
      | some awf => some (sh, [.request call key watcher awf.streamCh])
      | none =>
          some ({ sh with
            next := sh.next + 1
            awaitingForwards := sh.awaitingForwards.insert key ⟨sh.next, call⟩ },
            [.request call key watcher sh.next])
  | .request call key watcher streamCh, .next =>
      some ({ sh with requests := ⟨call, key, watcher⟩ :: sh.requests },
        [.requested call key streamCh])
  | .requested call key streamCh, .next =>
      if sh.requests.any (·.call == call) then none else some (sh, [.receive call key streamCh])
  | .receive call _ _, .done => if call ∈ sh.done then some (sh, []) else none
  | .receive _ key streamCh, .take tunnel =>
      match sh.streams.find? fun o => o.tunnel == tunnel && o.streamCh == streamCh with
      | none => none
      | some o =>
          some ({ sh with
            streams := sh.streams.erase o
            received := (o.key, key) :: sh.received }, [])
  -- `Tunnel`; without an announcement the agent dials itself
  | .tunnel key, .next =>
      match sh.awaitingForwards.lookup key with
      | none => some (sh, [])
      | some awf =>
          some ({ sh with
            next := sh.next + 1
            awaitingForwards := sh.awaitingForwards.erase key
            taken := (key, awf.streamCh) :: sh.taken }, [.hand sh.next key awf])
  | .hand tunnel key awf, .next =>
      some ({ sh with streams := ⟨tunnel, key, awf.streamCh⟩ :: sh.streams }, [.handed tunnel awf])
  | .handed tunnel awf, .next =>
      if sh.streams.any (·.tunnel == tunnel) then none else some (sh, [.linger awf])
  | .linger awf, .next => if awf.doneCh ∈ sh.done then some (sh, []) else none
  | .cancel call, .next => some ({ sh with done := call :: sh.done }, [])
  | _, _ => none

/-- The server with its calls. -/
abbrev Server := Threads.Pool Shared Frame

/-- What happens next. -/
abbrev Event := Threads.Action Op Choice

/-- One step of the server. -/
abbrev step : Server → Event → Option Server := Threads.step program exec

end Telepresence.AgentServer
