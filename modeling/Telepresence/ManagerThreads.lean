import Telepresence.Lib.Iteration
import Telepresence.Lib.Threads
import Telepresence.ManagerState
import Telepresence.PortTypes

/-!
# The operations of the traffic-manager as threads

The traffic-manager serves its requests concurrently.  Its maps are concurrent
maps without a common lock, so an operation is a sequence of atomic accesses
to them: here, a stack of frames that `exec` executes one by one.

The value that a `Range` over a concurrent map passes to its callback was read
at some time before the callback runs.

Which finalizers an intercept has when it is removed is left open here; see
`Finalizers`.
-/

namespace Telepresence.Manager

open Telepresence.Types

/-- `ClientSession`. -/
structure ClientSession where
  namespace_ : String
  lastMarked : Int

/-- What the threads share: the client sessions, the agents and intercepts, and
when an agent was last heard of. -/
structure Shared where
  clients : GoMap String ClientSession := ∅
  mgr : State := {}
  agentMarks : GoMap String Int := ∅

/-- A `Range` in progress, with the visits whose callback has still to run. -/
structure Scan (π : Type) where
  iter : Iteration String
  pending : List π := []

/-- A change that `UpdateIntercept` applies. -/
structure Update where
  disposition : Disposition
  message : Option String
  clearPod : Bool

/-- The mutator function. -/
def Update.apply (u : Update) (is : InterceptInfo) : InterceptInfo :=
  { is with
    disposition := u.disposition
    message := u.message.getD is.message
    podIp := if u.clearPod then "" else is.podIp
    podName := if u.clearPod then "" else is.podName }

/-- The callback of the `Range` in `RestoreAgent`. -/
def State.arrivalUpdate (s : State) (is : InterceptInfo) : Option Update :=
  if is.disposition = .removed then none
  else
    let (errCode, errMsg) := s.checkAgentsForIntercept is
    if errCode ≠ .unspecified then some ⟨errCode, some errMsg, false⟩
    else if is.disposition = .noAgent then some ⟨.waiting, some "", false⟩
    else none

/-- The callback of the `Range` in `consolidateAgentSessionIntercepts`. -/
def State.removalUpdate (s : State) (agent : AgentInfo) (is : InterceptInfo) : Option Update :=
  if is.disposition = .removed ∨ agent.podIp ≠ is.podIp then none
  else
    let (errCode, errMsg) := s.checkAgentsForIntercept is
    if errCode ≠ .unspecified then some ⟨errCode, some errMsg, true⟩
    else some ⟨.waiting, none, true⟩

/-- Which sessions are removed: those not heard of since a moment, or those in
a namespace that is not managed. -/
inductive Doom where
  | expired (moment : Int)
  | unmanaged (nss : List String)

/-- Whether a session meets the doom. -/
def Doom.applies (d : Doom) (namespace_ : String) (lastMarked : Int) : Bool :=
  match d with
  | expired moment => lastMarked < moment
  | unmanaged nss => namespace_ ∉ nss

/-! ## Pod-ports -/

/-- The specification of the child intercept for a pod-port. -/
def childSpec (spec : InterceptSpec) (pm : String) (from_ : Nat) (to_ : PortAndProto) :
    InterceptSpec :=
  { spec with
    name := spec.name ++ "-" ++ toString from_ ++ "-" ++ Strings.toLower to_.proto.toRune
    podPorts := []
    localPorts := []
    serviceUid := ""
    servicePortName := ""
    servicePort := 0
    protocol := to_.proto.toRune
    containerPort := from_
    portIdentifier := portIdentifierString (mappingFrom pm)
    targetPort := (toAsNumeric pm).port
    client := "child " ++ pm ++ " " ++ spec.name ++ " " ++ spec.client }

/-- The ID of an intercept. -/
def interceptID (session name : String) : String := session ++ ":" ++ name

/-! ## Frames -/

/-- `CreateInterceptRequest`, with the pod-ports that have no child yet. -/
structure Request where
  session : String
  spec : InterceptSpec
  ports : List String

/-- What a thread has still to do. -/
inductive Frame where
  | addClient (id : String) (client : ClientSession)
  | mark (id : String) (now : Int)
  | addAgent (agent : AgentInfo) (now : Int)
  | restoreAgent (id : String) (agent : AgentInfo) (now : Int)
  | arrive (scan : Option (Scan (String × InterceptInfo)))
  | getClient (req : Request)
  | ensureAgent (req : Request)
  | addIntercept (req : Request) (id : String) (spec : InterceptSpec)
  | loadOrStore (req : Request) (is : InterceptInfo)
  | store (req : Request) (is : InterceptInfo)
  | removeIntercept (id : String)
  | terminate (children : List String)
  | removeSession (id : String)
  | gc (session : String) (scan : Option (Scan String))
  | doomClients (d : Doom) (scan : Option (Scan String))
  | deleteClient (id : String)
  | doomAgents (d : Doom) (scan : Option (Scan String))
  | removeAgentSession (id : String)
  | inactivate (podUid : String)
  | consolidate (agent : AgentInfo) (scan : Option (Scan (String × InterceptInfo)))
  | updateLoad (id : String) (u : Update)
  | updateCas (id : String) (cur : InterceptInfo) (u : Update)

/-- What is left open in a step: nothing, that a call outside of the
traffic-manager fails, which key a `Range` visits, that the callback of the
next visited entry runs, the children that the finalizers of a removed
intercept delete. -/
inductive Choice where
  | next
  | fail
  | visit (key : String)
  | call
  | finalizers (children : List String)

/-- The rest of `AddIntercept` after an intercept has been stored: a child for
the next pod-port, unless it cannot be parsed. -/
def nextChild (req : Request) : List Frame :=
  match req.ports with
  | [] => []
  | pm :: ports =>
      match fromNumberAndTo pm with
      | .error _ => []
      | .ok (from_, to_) =>
          let spec := childSpec req.spec pm from_ to_
          [.addIntercept { req with ports := ports } (interceptID req.session spec.name) spec]

/-- A step of a `Range`: it begins, visits a key, runs a callback or ends.
With `deferred`, the callbacks run after the last visit. -/
def scanStep {σ φ π : Type} (sh : σ) (frame : Option (Scan π) → φ) (keys : List String)
    (read : String → List π) (callback : π → List φ) (deferred : Bool) :
    Option (Scan π) → Choice → Option (σ × List φ)
  | none, .next => some (sh, [frame (some { iter := { keys := keys } })])
  | some scan, .visit key =>
      match scan.iter.visit key with
      | none => none
      | some iter => some (sh, [frame (some ⟨iter, scan.pending ++ read key⟩)])
  | some scan, .call =>
      match scan.pending with
      | [] => none
      | x :: rest =>
          if deferred && !scan.iter.complete then none
          else some (sh, callback x ++ [frame (some { scan with pending := rest })])
  | some scan, .next =>
      if scan.iter.complete && scan.pending.isEmpty then some (sh, []) else none
  | _, _ => none

/-- What a step of a `Range` does. -/
theorem scanStep_cases {σ φ π : Type} {sh sh' : σ} {frame : Option (Scan π) → φ}
    {keys : List String} {read : String → List π} {callback : π → List φ} {deferred : Bool}
    {scan : Option (Scan π)} {c : Choice} {fs : List φ}
    (h : scanStep sh frame keys read callback deferred scan c = some (sh', fs)) :
    sh' = sh ∧
      (scan = none ∧ fs = [frame (some { iter := { keys := keys } })] ∨
      (∃ sc key iter, scan = some sc ∧ sc.iter.visit key = some iter ∧
          fs = [frame (some ⟨iter, sc.pending ++ read key⟩)]) ∨
      (∃ sc x rest, scan = some sc ∧ sc.pending = x :: rest ∧
          fs = callback x ++ [frame (some { sc with pending := rest })]) ∨
      ∃ sc, scan = some sc ∧ sc.iter.complete = true ∧ sc.pending = [] ∧ fs = []) := by
  unfold scanStep at h
  split at h
  · cases h
    exact ⟨rfl, .inl ⟨rfl, rfl⟩⟩
  · rename_i sc key
    split at h
    · cases h
    · rename_i iter hvisit
      cases h
      exact ⟨rfl, .inr (.inl ⟨sc, key, iter, rfl, hvisit, rfl⟩)⟩
  · rename_i sc
    split at h
    · cases h
    · rename_i x rest hpend
      split at h
      · cases h
      · cases h
        exact ⟨rfl, .inr (.inr (.inl ⟨sc, x, rest, rfl, hpend, rfl⟩))⟩
  · rename_i sc
    split at h
    · rename_i hdone
      cases h
      simp only [Bool.and_eq_true, List.isEmpty_iff] at hdone
      exact ⟨rfl, .inr (.inr (.inr ⟨sc, rfl, hdone.1, hdone.2, rfl⟩))⟩
    · cases h
  · cases h

/-- The entry of a key, as a list. -/
def readIntercept (sh : Shared) (key : String) : List (String × InterceptInfo) :=
  (sh.mgr.intercepts.lookup key).toList.map fun is => (key, is)

/-- The intercepts that `gcClientSessionIntercepts` removes. -/
def readSession (sh : Shared) (session key : String) : List String :=
  match sh.mgr.intercepts.lookup key with
  | none => []
  | some is => if is.disposition ≠ .removed ∧ is.clientSession = session then [key] else []

/-- The client sessions that meet the doom. -/
def readClient (sh : Shared) (d : Doom) (key : String) : List String :=
  match sh.clients.lookup key with
  | none => []
  | some client => if d.applies client.namespace_ client.lastMarked then [key] else []

/-- The agent sessions that meet the doom. -/
def readAgent (sh : Shared) (d : Doom) (key : String) : List String :=
  match sh.mgr.agents.lookup key with
  | none => []
  | some agent =>
      if d.applies agent.namespace_ ((sh.agentMarks.lookup key).getD 0) then [key] else []

/-- `pruneSessions` collects the agent sessions before it removes them. -/
def Doom.collects : Doom → Bool
  | expired _ => false
  | unmanaged _ => true

/-- The frame that applies an update, if there is one. -/
def applyUpdate (id : String) : Option Update → List Frame
  | none => []
  | some u => [.updateLoad id u]

namespace Shared

/-- Replace the intercepts. -/
def setIntercepts (sh : Shared) (intercepts : GoMap String InterceptInfo) : Shared :=
  { sh with mgr := { sh.mgr with intercepts := intercepts } }

/-- `Mark`: the time stamp only grows. -/
def mark (sh : Shared) (id : String) (now : Int) : Shared :=
  match sh.clients.lookup id with
  | some client =>
      if client.lastMarked < now then
        { sh with clients := sh.clients.insert id { client with lastMarked := now } }
      else sh
  | none =>
      if (sh.agentMarks.lookup id).getD 0 < now then
        { sh with agentMarks := sh.agentMarks.insert id now }
      else sh

/-- `LoadOrStore` in `RestoreAgent`. -/
def putAgent (sh : Shared) (id : String) (agent : AgentInfo) (now : Int) : Shared :=
  { sh with
    mgr := { sh.mgr with agents := sh.mgr.agents.insert id agent }
    agentMarks := sh.agentMarks.insert id now }

end Shared

/-- Execute a frame: the new shared state and the frames that take its place. -/
def exec (sh : Shared) : Frame → Choice → Option (Shared × List Frame)
  | .addClient id client, .next =>
      -- a duplicate ID is a panic
      if (sh.clients.lookup id).isSome then none
      else some ({ sh with clients := sh.clients.insert id client }, [])
  | .mark id now, .next => some (sh.mark id now, [])
  | .addAgent agent now, .next =>
      if sh.mgr.isInactive agent.podUid then some (sh, [])
      else some (sh, [.restoreAgent ("agent:" ++ agent.podUid) agent now])
  | .restoreAgent id agent now, .next =>
      if (sh.mgr.agents.lookup id).isSome then some (sh, [])
      else some (sh.putAgent id agent now, [.arrive none])
  | .arrive scan, c =>
      scanStep sh .arrive sh.mgr.intercepts.keys (readIntercept sh)
        (fun e => applyUpdate e.1 (sh.mgr.arrivalUpdate e.2)) false scan c
  | .getClient req, .next =>
      match sh.clients.lookup req.session with
      | none => some (sh, [])
      | some _ => some (sh, [.ensureAgent req])
  | .ensureAgent _, .fail => some (sh, [])
  | .ensureAgent req, .next =>
      some (sh, [.addIntercept req (interceptID req.session req.spec.name) req.spec])
  | .addIntercept req id spec, .next =>
      some (sh, [.loadOrStore req (sh.mgr.newIntercept id spec req.session)])
  | .loadOrStore req is, .next =>
      match sh.mgr.intercepts.lookup is.id with
      | none => some (sh.setIntercepts (sh.mgr.intercepts.insert is.id is), nextChild req)
      | some existing =>
          if existing.disposition ≠ .removed then some (sh, [])
          else some (sh, [.store req is])
  | .store req is, .next =>
      some (sh.setIntercepts (sh.mgr.intercepts.insert is.id is), nextChild req)
  | .removeIntercept id, .finalizers children =>
      match sh.mgr.intercepts.lookup id with
      | none => some (sh, [])
      | some _ => some (sh.setIntercepts (sh.mgr.intercepts.erase id), [.terminate children])
  | .terminate [], .next => some (sh, [])
  | .terminate (child :: children), .next =>
      some (sh.setIntercepts (sh.mgr.intercepts.erase child), [.terminate children])
  | .removeSession id, .next =>
      match sh.clients.lookup id with
      | some _ => some ({ sh with clients := sh.clients.erase id }, [.gc id none])
      | none => some (sh, [.removeAgentSession id])
  | .gc session scan, c =>
      scanStep sh (.gc session) sh.mgr.intercepts.keys (readSession sh session)
        (fun id => [.removeIntercept id]) false scan c
  | .doomClients d scan, c =>
      scanStep sh (.doomClients d) sh.clients.keys (readClient sh d)
        (fun id => [.deleteClient id]) false scan c
  | .deleteClient id, .next => some ({ sh with clients := sh.clients.erase id }, [.gc id none])
  | .doomAgents d scan, c =>
      scanStep sh (.doomAgents d) sh.mgr.agents.keys (readAgent sh d)
        (fun id => [.removeAgentSession id]) d.collects scan c
  | .removeAgentSession id, .next =>
      match sh.mgr.agents.lookup id with
      | none => some (sh, [])
      | some agent =>
          some ({ sh with mgr := { sh.mgr with agents := sh.mgr.agents.erase id } },
            [.inactivate agent.podUid, .consolidate agent none])
  | .inactivate podUid, .next =>
      some ({ sh with mgr := { sh.mgr with inactivePods := podUid :: sh.mgr.inactivePods } }, [])
  | .consolidate agent scan, c =>
      scanStep sh (.consolidate agent) sh.mgr.intercepts.keys (readIntercept sh)
        (fun e => applyUpdate e.1 (sh.mgr.removalUpdate agent e.2)) false scan c
  | .updateLoad id u, .next =>
      match sh.mgr.intercepts.lookup id with
      | none => some (sh, [])
      | some cur => some (sh, [.updateCas id cur u])
  | .updateCas id cur u, .next =>
      let new := u.apply cur
      if sh.mgr.intercepts.lookup new.id = some cur then
        some (sh.setIntercepts (sh.mgr.intercepts.insert new.id new), [])
      else some (sh, [.updateLoad id u])
  | _, _ => none

/-- The operations. -/
inductive Operation where
  | addClient (id : String) (client : ClientSession)
  | mark (id : String) (now : Int)
  | addAgent (agent : AgentInfo) (now : Int)
  | addIntercept (session : String) (spec : InterceptSpec)
  | removeIntercept (id : String)
  | removeSession (id : String)
  | expireSessions (clientMoment agentMoment : Int)
  | pruneSessions (nss : List String)

/-- The frames of an operation. -/
def program : Operation → List Frame
  | .addClient id client => [.addClient id client]
  | .mark id now => [.mark id now]
  | .addAgent agent now => [.addAgent agent now]
  | .addIntercept session spec => [.getClient ⟨session, spec, spec.podPorts⟩]
  | .removeIntercept id => [.removeIntercept id]
  | .removeSession id => [.removeSession id]
  | .expireSessions clientMoment agentMoment =>
      [.doomClients (.expired clientMoment) none, .doomAgents (.expired agentMoment) none]
  | .pruneSessions nss =>
      [.doomClients (.unmanaged nss) none, .doomAgents (.unmanaged nss) none]

/-- The traffic-manager with its threads. -/
abbrev World := Threads.Pool Shared Frame

/-- A step of the traffic-manager. -/
abbrev threadStep : World → Threads.Action Operation Choice → Option World :=
  Threads.step program exec

end Telepresence.Manager
