import Telepresence.Lib.Iteration
import Telepresence.Lib.Maps
import Telepresence.Lib.Threads

/-!
# The clients of the traffic-agents

`pkg/client/agentpf/clients.go`: the client daemon keeps a client for every
agent pod that the traffic-manager reports.  A client connects when it is
first used, and has a dial watcher while its pod is intercepted.

The `AgentPodInfo` objects of a report are shared by the watch's snapshot and
by the clients, so they are objects of a heap, as are the clients, their
connections and their dial watchers.  A section under a client's lock is one
step.  A goroutine is an operation that can only proceed once it has been
started; how a call to the agent ends, and whom an iteration visits next, is
a choice of the step.

What each call of `WaitForWorkload` has seen is recorded, which the program does
not do.
-/

namespace Telepresence.AgentPf

open Threads Function

/-! ## Objects -/

/-- `manager.AgentPodInfo`. -/
structure AgentPodInfo where
  podName : String := ""
  ns : String := ""
  workloadName : String := ""
  intercepted : Bool := false
  deriving DecidableEq

/-- The key of a pod in the clients map. -/
def AgentPodInfo.key (ai : AgentPodInfo) : String := ai.podName ++ "." ++ ai.ns

/-- `client`.  The fields `cli` and `cancelClient` are set and cleared
together, with the same connection; `cancelDialWatch` is known by the dial
watcher whose function it is. -/
structure Client where
  key : String := ""
  info : Nat := 0
  cli : Option Nat := none
  cancelDialWatch : Option Nat := none
  connectErr : Bool := false

/-- A gRPC connection. -/
structure Conn where
  client : Nat := 0
  isOpen : Bool := false

/-- A dial watcher: its context, and its loop. -/
structure Watcher where
  client : Nat := 0
  cancelled : Bool := true
  ended : Bool := true

/-- The watcher is in its loop, and its context is not cancelled. -/
def Watcher.running (w : Watcher) : Bool := !w.cancelled && !w.ended

/-- What `WaitForWorkload` returns. -/
inductive WaitResult where
  | ok
  | timeout
  /-- The context of the session ended first. -/
  | canceled
  deriving DecidableEq

/-- A call of `WaitForWorkload`. -/
structure Call where
  name : String := ""
  /-- At some moment of the call the clients were disabled, or a client of the
  workload was in the map. -/
  seen : Bool := false
  result : Option WaitResult := none

/-- `clients`, the map of the watch, and the heap. -/
structure Shared where
  infos : Nat → AgentPodInfo := fun _ => {}
  nextInfo : Nat := 0
  objects : Nat → Client := fun _ => {}
  nextClient : Nat := 0
  conns : Nat → Conn := fun _ => {}
  nextConn : Nat := 0
  watchers : Nat → Watcher := fun _ => {}
  nextWatcher : Nat := 0
  snapMap : GoMap String Nat := ∅
  snapshot : GoMap String Nat := ∅
  clients : GoMap String Nat := ∅
  wlWaiters : GoMap String Nat := ∅
  locked : List String := []
  closedChans : List Nat := []
  nextChan : Nat := 0
  disabled : Bool := false
  /-- The goroutines that close a connection and have not begun. -/
  closing : List (Nat × Nat) := []
  calls : Nat → Call := fun _ => {}
  nextCall : Nat := 0

/-! ## Frames -/

/-- How the calls to an agent end: the dial, and `WatchDial`. -/
structure Outcome where
  dial : Bool
  watch : Bool

/-- What a step leaves open. -/
inductive Choice where
  | go
  | yes
  | stop
  | visit (k : String)
  | dormant (k : String)
  | outcome (o : Outcome)

/-- An iteration that has not begun, or is in progress. -/
abbrev Range := Option (Iteration String)

/-- The steps. -/
inductive Frame where
  | delta (upserts : List (String × AgentPodInfo)) (removals : List String)
  | clearSnapshot
  | deleteMissing (aim : GoMap String Nat) (it : Range)
  | deleteClient (k : String)
  | cancel (ac : Nat)
  | stopWatch (ac w : Nat)
  | cancelWatch (w : Nat)
  | closeClient (ac c : Nat)
  | erase (k : String) (ac : Nat)
  | refreshAll (aim : GoMap String Nat) (it : Iteration String)
  | refresh (ac ai : Nat)
  | addAll (aim : GoMap String Nat) (it : Iteration String)
  | add (k : String) (ai : Nat)
  | ensureConnect (ac : Nat)
  | remove (ac : Nat)
  | dormant (it : Range) (found : Bool)
  | notifyWaiters (it : Range)
  | notifyIP (ac : Nat)
  | notifyWorkload (ac : Nat)
  | takeWaiter (ac : Nat) (name : String)
  | closeWaiter (ch : Nat)
  | waitForWorkload (name : String)
  | loadOrCompute (call : Nat)
  | findWorkload (call : Nat) (it : Iteration String)
  | foundWorkload (call : Nat)
  | wait (call ch : Nat)
  | waitForIP
  | loadOrAdd (k : String) (ai : Nat)
  | dialLoop (w : Nat)
  | dialEnded (ac : Nat)
  | closeConn (ac c : Nat)
  | clearConn (ac c : Nat)
  | cancelAll (it : Range)
  | disable

namespace Shared

/-! ## Sections under a client's lock -/

/-- The information that a client has. -/
def infoOf (s : Shared) (ac : Nat) : AgentPodInfo := s.infos (s.objects ac).info

/-- Change a client. -/
def modify (s : Shared) (ac : Nat) (f : Client → Client) : Shared :=
  { s with objects := update s.objects ac (f (s.objects ac)) }

/-- Change a dial watcher. -/
def modifyWatcher (s : Shared) (w : Nat) (f : Watcher → Watcher) : Shared :=
  { s with watchers := update s.watchers w (f (s.watchers w)) }

/-- A new connection for a client. -/
def connect (s : Shared) (ac : Nat) : Shared :=
  { s.modify ac (fun c => { c with cli := some s.nextConn }) with
    conns := update s.conns s.nextConn { client := ac, isOpen := true }
    nextConn := s.nextConn + 1 }

/-- A new dial watcher for a client. -/
def startWatcher (s : Shared) (ac : Nat) : Shared :=
  { s.modify ac (fun c => { c with cancelDialWatch := some s.nextWatcher }) with
    watchers := update s.watchers s.nextWatcher
      { client := ac, cancelled := false, ended := false }
    nextWatcher := s.nextWatcher + 1 }

/-- The end of `ensureConnectLocked`, with `startDialWatcherLocked`, where
`WatchDial` may fail. -/
def watchDials (s : Shared) (ac : Nat) (watch : Bool) : Shared :=
  if (s.infoOf ac).intercepted && (s.objects ac).cancelDialWatch.isNone && watch then
    s.startWatcher ac
  else s

/-- `ensureConnectLocked`, and what remains to be done. -/
def ensureConnectLocked (s : Shared) (ac : Nat) (o : Outcome) : Shared × List Frame :=
  if (s.objects ac).connectErr then (s, [])
  else if (s.objects ac).cli.isSome then (s.watchDials ac o.watch, [])
  else if o.dial then ((s.connect ac).watchDials ac o.watch, [])
  else (s.modify ac fun c => { c with connectErr := true }, [.remove ac])

/-- The call of a function `cancelDialWatch`. -/
def stopFrames (ac : Nat) : Option Nat → List Frame
  | some w => [.stopWatch ac w]
  | none => []

/-- `refresh`. -/
def refresh (s : Shared) (ac ai : Nat) (o : Outcome) : Shared × List Frame :=
  let oldStatus := (s.infoOf ac).intercepted
  let s := s.modify ac fun c => { c with info := ai }
  if (s.infos ai).intercepted then
    if oldStatus && (s.objects ac).cancelDialWatch.isSome then (s, [])
    else s.ensureConnectLocked ac o
  else if oldStatus then (s, stopFrames ac (s.objects ac).cancelDialWatch)
  else (s, [])

/-- The section of a function `cancelDialWatch`. -/
def stopWatcher (s : Shared) (ac : Nat) : Shared :=
  { s.modify ac (fun c => { c with cancelDialWatch := none }) with
    infos := update s.infos (s.objects ac).info
      { s.infoOf ac with intercepted := false } }

/-! ## The maps -/

/-- Add a client for a pod. -/
def addClient (s : Shared) (k : String) (ai : Nat) : Shared :=
  { s with
    objects := update s.objects s.nextClient { key := k, info := ai }
    nextClient := s.nextClient + 1
    clients := s.clients.insert k s.nextClient }

/-- One upsert of a delta. -/
def upsert (s : Shared) (u : String × AgentPodInfo) : Shared :=
  { s with
    infos := update s.infos s.nextInfo u.2
    nextInfo := s.nextInfo + 1
    snapMap := s.snapMap.insert u.1 s.nextInfo }

/-- One removal of a delta. -/
def removal (s : Shared) (k : String) : Shared :=
  { s with snapMap := s.snapMap.erase k }

/-- `maps.DeltaUpdate`, for the map of the watch. -/
def deltaUpdate (s : Shared) (upserts : List (String × AgentPodInfo)) (removals : List String) :
    Shared :=
  removals.foldl removal (upserts.foldl upsert s)

/-- The pods of the map of the watch that have a name, by their keys. -/
def aim (s : Shared) : GoMap String Nat :=
  s.snapMap.entries.foldl
    (fun aim e =>
      if (s.infos e.2).podName = "" then aim else aim.insert (s.infos e.2).key e.2) ∅

/-- A client of the workload is in the map. -/
def hasWorkload (s : Shared) (name : String) : Bool :=
  s.clients.entries.any fun e => (s.infoOf e.2).workloadName = name

/-- There is a reason for `WaitForWorkload` not to wait. -/
def answers (s : Shared) (name : String) : Bool := s.disabled || s.hasWorkload name

/-- Record what the calls see that have not returned. -/
def look (s : Shared) : Shared :=
  { s with
    calls := fun i =>
      if (s.calls i).result.isNone && s.answers (s.calls i).name then
        { s.calls i with seen := true }
      else s.calls i }

/-- A call begins. -/
def newCall (s : Shared) (name : String) : Shared :=
  { s with
    calls := update s.calls s.nextCall { name, seen := s.answers name }
    nextCall := s.nextCall + 1 }

/-- Store a channel that nobody has closed. -/
def newWaiter (s : Shared) (name : String) : Shared :=
  { s with wlWaiters := s.wlWaiters.insert name s.nextChan, nextChan := s.nextChan + 1 }

/-- Unlock an entry of `wlWaiters`. -/
def unlock (s : Shared) (name : String) : Shared := { s with locked := s.locked.erase name }

/-- A call returns. -/
def finish (s : Shared) (call : Nat) (result : WaitResult) : Shared :=
  { s with calls := update s.calls call { s.calls call with result := some result } }

/-- Close a connection in its goroutine. -/
def closeConn (s : Shared) (ac c : Nat) : Shared :=
  { s with
    closing := s.closing.erase (ac, c)
    conns := update s.conns c { s.conns c with isOpen := false } }

/-- Begin an iteration over the clients. -/
def range (s : Shared) : Iteration String := { keys := s.clients.keys }

/-- An iteration over the clients visits an entry. -/
def visit (s : Shared) (it : Iteration String) (k : String) : Option (Nat × Iteration String) := do
  let ac ← s.clients.lookup k
  let it ← it.visit k
  return (ac, it)

/-- An iteration over the clients has visited every entry that is still there. -/
def visitedAll (s : Shared) (it : Iteration String) : Bool :=
  it.keys.all fun k => k ∈ it.seen || (s.clients.lookup k).isNone

end Shared

/-! ## Steps -/

/-- The client looks dormant, as far as that does not depend on the time and
on other calls. -/
def mayBeDormant (s : Shared) (ac : Nat) : Bool :=
  (s.objects ac).cli.isSome && !(s.infoOf ac).intercepted &&
    (s.wlWaiters.lookup (s.infoOf ac).workloadName).isNone

/-- `cancel`. -/
def cancelFrames (s : Shared) (ac : Nat) : List Frame :=
  Shared.stopFrames ac (s.objects ac).cancelDialWatch ++
    match (s.objects ac).cli with
    | some c => [.closeClient ac c]
    | none => []

/-- `WatchAgentPods` receives a delta, and `updateClients` begins. -/
def receive (s : Shared) (upserts : List (String × AgentPodInfo)) (removals : List String) :
    Shared × List Frame :=
  let s := s.deltaUpdate upserts removals
  if s.snapMap.entries.length > 0 ∧ s.aim.entries.length = 0 then
    ({ s with disabled := true }, [.notifyWaiters none])
  else
    ({ s with snapshot := s.aim },
      [.deleteMissing s.aim none, .refreshAll s.aim { keys := s.aim.keys },
       .addAll s.aim { keys := s.aim.keys }, .dormant none false, .notifyWaiters none])

/-- The steps of `updateClients`. -/
def execUpdate (s : Shared) : Frame → Choice → Option (Shared × List Frame)
  | .delta upserts removals, .go => some (receive s upserts removals)
  | .clearSnapshot, .go => some ({ s with snapMap := ∅ }, [])
  | .deleteMissing aim none, .go => some (s, [.deleteMissing aim (some s.range)])
  | .deleteMissing aim (some it), .visit k => do
      let (_, it) ← s.visit it k
      if (aim.lookup k).isSome then return (s, [.deleteMissing aim (some it)])
      else return (s, [.deleteClient k, .deleteMissing aim (some it)])
  | .deleteMissing _ (some it), .stop => if s.visitedAll it then some (s, []) else none
  | .deleteClient k, .go =>
      match s.clients.lookup k with
      | some ac => some (s, [.cancel ac, .erase k ac])
      | none => some (s, [])
  | .erase k ac, .go =>
      if s.clients.lookup k = some ac then some ({ s with clients := s.clients.erase k }, [])
      else some (s, [])
  | .refreshAll aim it, .visit k => do
      let ai ← aim.lookup k
      let it ← it.visit k
      match s.clients.lookup k with
      | some ac => return (s, [.refresh ac ai, .refreshAll aim it])
      | none => return (s, [.refreshAll aim it])
  | .refreshAll _ it, .stop => if it.complete then some (s, []) else none
  | .refresh ac ai, .outcome o => some (s.refresh ac ai o)
  | .addAll aim it, .visit k => do
      let ai ← aim.lookup k
      let it ← it.visit k
      return (s, [.add k ai, .addAll aim it])
  | .addAll _ it, .stop => if it.complete then some (s, []) else none
  | .add k ai, .go =>
      match s.clients.lookup k with
      | some _ => some (s, [])
      | none =>
          if (s.infos ai).intercepted then
            some (s.addClient k ai, [.ensureConnect s.nextClient])
          else some (s.addClient k ai, [])
  | .dormant none found, .go => some (s, [.dormant (some s.range) found])
  | .dormant (some it) found, .visit k => do
      let (_, it) ← s.visit it k
      return (s, [.dormant (some it) found])
  | .dormant (some it) found, .dormant k => do
      let (ac, it) ← s.visit it k
      if mayBeDormant s ac then
        if found then return (s, [.cancel ac, .dormant (some it) true])
        else return (s, [.dormant (some it) true])
      else none
  | .dormant (some it) _, .stop => if s.visitedAll it then some (s, []) else none
  | _, _ => none

/-- The steps of connections and dial watchers. -/
def execClient (s : Shared) : Frame → Choice → Option (Shared × List Frame)
  | .cancel ac, .go => some (s, cancelFrames s ac)
  | .stopWatch ac w, .go => some (s.stopWatcher ac, [.cancelWatch w])
  | .cancelWatch w, .go =>
      some (s.modifyWatcher w fun x => { x with cancelled := true }, [])
  | .closeClient ac c, .go => some ({ s with closing := (ac, c) :: s.closing }, [])
  | .ensureConnect ac, .outcome o =>
      if ac < s.nextClient then some (s.ensureConnectLocked ac o) else none
  | .remove ac, .go =>
      some ({ s with clients := s.clients.erase (s.objects ac).key }, [])
  | .dialLoop w, .go =>
      if w < s.nextWatcher ∧ (s.watchers w).ended = false then
        some (s.modifyWatcher w fun x => { x with ended := true },
          [.dialEnded (s.watchers w).client])
      else none
  | .dialEnded ac, .go => some (s, Shared.stopFrames ac (s.objects ac).cancelDialWatch)
  | .closeConn ac c, .go =>
      if (ac, c) ∈ s.closing then some (s.closeConn ac c, [.clearConn ac c]) else none
  | .clearConn ac _, .go => some (s.modify ac fun c => { c with cli := none }, [])
  | .waitForIP, .visit k =>
      match s.snapshot.lookup k with
      | some ai => some (s, [.loadOrAdd k ai, .waitForIP])
      | none => none
  | .waitForIP, .stop => some (s, [])
  | .loadOrAdd k ai, .go =>
      match s.clients.lookup k with
      | some ac => some (s, [.ensureConnect ac])
      | none => some (s.addClient k ai, [.ensureConnect s.nextClient])
  | .cancelAll none, .go =>
      -- `WatchAgentPods` has ended, and its map with it.
      some ({ s with snapMap := ∅ }, [.cancelAll (some s.range)])
  | .cancelAll (some it), .visit k => do
      let (ac, it) ← s.visit it k
      return (s, [.cancel ac, .cancelAll (some it)])
  | .cancelAll (some it), .stop => if s.visitedAll it then some (s, [.disable]) else none
  | .disable, .go => some ({ s with disabled := true }, [])
  | _, _ => none

/-- The steps of waiting for a workload.  The function given to `LoadOrCompute`
runs while the entry is locked. -/
def execWait (s : Shared) : Frame → Choice → Option (Shared × List Frame)
  | .notifyWaiters none, .go => some (s, [.notifyWaiters (some s.range)])
  | .notifyWaiters (some it), .visit k => do
      let (ac, it) ← s.visit it k
      return (s, [.notifyIP ac, .notifyWorkload ac, .notifyWaiters (some it)])
  | .notifyWaiters (some it), .stop => if s.visitedAll it then some (s, []) else none
  | .notifyIP _, .go => some (s, [])
  | .notifyIP ac, .yes => some (s, [.ensureConnect ac])
  | .notifyWorkload ac, .go => some (s, [.takeWaiter ac (s.infoOf ac).workloadName])
  | .takeWaiter ac name, .go =>
      if name ∈ s.locked then none
      else
        match s.wlWaiters.lookup name with
        | some ch =>
            some ({ s with wlWaiters := s.wlWaiters.erase name },
              [.ensureConnect ac, .closeWaiter ch])
        | none => some (s, [])
  | .closeWaiter ch, .go => some ({ s with closedChans := ch :: s.closedChans }, [])
  | .waitForWorkload name, .go =>
      if s.disabled then some ((s.newCall name).finish s.nextCall .ok, [])
      else some (s.newCall name, [.loadOrCompute s.nextCall])
  | .loadOrCompute call, .go =>
      match s.wlWaiters.lookup (s.calls call).name with
      | some ch => some (s, [.notifyWaiters none, .wait call ch])
      | none =>
          if (s.calls call).name ∈ s.locked then none
          else
            some ({ s with locked := (s.calls call).name :: s.locked },
              [.findWorkload call s.range])
  | .findWorkload call it, .visit k => do
      let (ac, it) ← s.visit it k
      if (s.infoOf ac).workloadName = (s.calls call).name then return (s, [.foundWorkload call])
      else return (s, [.findWorkload call it])
  | .findWorkload call it, .stop =>
      if s.visitedAll it then
        some (((s.newWaiter (s.calls call).name).unlock (s.calls call).name).finish call .ok, [])
      else none
  | .foundWorkload call, .go => some ((s.unlock (s.calls call).name).finish call .ok, [])
  | .wait call ch, .go => if ch ∈ s.closedChans then some (s.finish call .ok, []) else none
  | .wait call _, .stop => some (s.finish call .timeout, [])
  | .wait call _, .yes => some (s.finish call .canceled, [])
  | _, _ => none

/-- One step, before the calls look around. -/
def execFrame (s : Shared) (f : Frame) (c : Choice) : Option (Shared × List Frame) :=
  (execUpdate s f c).or ((execClient s f c).or (execWait s f c))

/-- One step, after which the calls of `WaitForWorkload` look around. -/
def exec (s : Shared) (f : Frame) (c : Choice) : Option (Shared × List Frame) :=
  (execFrame s f c).map fun r => (r.1.look, r.2)

/-- The operations: calls from outside, and the goroutines. -/
inductive Operation where
  | delta (upserts : List (String × AgentPodInfo)) (removals : List String)
  | clearSnapshot
  | ensureConnect (ac : Nat)
  | waitForIP
  | waitForWorkload (name : String)
  | dialLoop (w : Nat)
  | closeConn (ac c : Nat)
  | cancelAll

/-- What an operation does first. -/
def program : Operation → List Frame
  | .delta upserts removals => [.delta upserts removals]
  | .clearSnapshot => [.clearSnapshot]
  | .ensureConnect ac => [.ensureConnect ac]
  | .waitForIP => [.waitForIP]
  | .waitForWorkload name => [.waitForWorkload name]
  | .dialLoop w => [.dialLoop w]
  | .closeConn ac c => [.closeConn ac c]
  | .cancelAll => [.cancelAll none]

/-- The clients, with the threads that use them. -/
abbrev Clients := Pool Shared Frame

/-- An operation begins, or a thread takes a step. -/
abbrev Event := Action Operation Choice

/-- A step of the client daemon. -/
def step : Clients → Event → Option Clients := Threads.step program exec

/-- `NewClients`. -/
def newClients : Clients := { shared := {} }

end Telepresence.AgentPf
