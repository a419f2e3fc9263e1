import Telepresence.ClusterInfo

/-!
# From the pods to the clients

A change of the pods reaches a client in four stages: the timer of the pod
watcher starts a run of `sendIfChanged`, which hands the subnets to the loop of
`changeNotifier`; that, like `SetAdditionalAlsoProxy`, updates the `info` and
computes a message from it; `notify` offers the message to the channel of each
subscriber; and the subscriber takes it from there.

No stage waits for the one before.  The interleaving is that of the
source: each access to a field that is not protected by a lock is a step of its
own, `notify` keeps its lock while it visits the subscribers one by one, and the
initial message of a subscriber is posted after it has been registered.
-/

namespace Telepresence.Cluster

open Netip Runs
open RootDaemon (IPNet Routing)

/-! ## The parties -/

/-- A run of `sendIfChanged`: before it has copied the addresses, before its
comparison, before it sends, and before it records what it has sent. -/
inductive SendRun where
  | started
  | copied (ips : Finset Addr)
  | sending (newSubnets : Finset Prefix)
  | sent (newSubnets : Finset Prefix)

/-- Who updates the `info`. -/
inductive Source where
  | changeNotifier
  | setter
  deriving DecidableEq

/-- What an update of the `info` does next. -/
inductive Update where
  | compare (subnets : List IPNet)
  | writeProxy (subnets : List IPNet)
  | writePods (subnets : Finset Prefix)
  | readRouting
  | readPods (rt : Routing)
  | notify (ci : ClusterInfo)
  | offer (ids : List Nat)

namespace Update

/-- `notify` holds its lock. -/
def locks : Update → Bool
  | offer _ => true
  | _ => false

/-- The `info` is written, and the subscribers are not all told. -/
def dirty : Update → Bool
  | readRouting => true
  | readPods _ => true
  | notify _ => true
  | offer _ => true
  | _ => false

end Update

/-- A subscriber: the message that `subscribe` has still to post, the channel,
and the last message that was received. -/
structure Subscriber where
  posting : Option ClusterInfo
  chan : List ClusterInfo := []
  received : Option ClusterInfo := none

/-- The capacity of the channel of a subscriber. -/
def chanCap : Nat := 3

/-- The last message of a subscriber, once its channel is drained. -/
def Subscriber.last (sub : Subscriber) : Option ClusterInfo := sub.chan.getLast?.or sub.received

/-- The pod watcher, the `info` and the `clusterInfoSubscribers`, with what is in
progress. -/
structure Delivery where
  watcher : PodWatcher
  oldSubnets : Finset Prefix := ∅
  runs : List SendRun := []
  oi : Info
  updates : List (Source × Update) := []
  current : ClusterInfo
  idGen : Nat := 0
  subscribers : GoMap Nat Subscriber := ∅

/-- What may happen next.  The order in which `notify` visits the subscribers is
that of a Go map. -/
inductive DeliveryAction where
  | pod (old new : Option Pod)
  | fire
  | send (run : Nat)
  | setAdditionalAlsoProxy (subnets : List IPNet)
  | update (index : Nat) (order : List Nat)
  | subscribe
  | post (id : Nat)
  | unsubscribe (id : Nat)
  | receive (id : Nat)

namespace Delivery

/-- The lock of the subscribers is taken. -/
def locked (s : Delivery) : Bool := s.updates.any fun x => x.2.locks

/-- The loop of `changeNotifier` waits for subnets. -/
def notifierIdle (s : Delivery) : Bool := s.updates.all fun x => x.1 ≠ .changeNotifier

/-- The non-blocking send to a subscriber: a full channel is passed over. -/
def offerTo (s : Delivery) (id : Nat) : Delivery :=
  match s.subscribers.lookup id with
  | none => s
  | some sub =>
      if sub.chan.length < chanCap then
        { s with
          subscribers := s.subscribers.insert id { sub with chan := sub.chan ++ [s.current] } }
      else s

/-- One step of an update, and what it does after it. -/
def exec (s : Delivery) (order : List Nat) : Update → Option (Delivery × Option Update)
  | .compare subnets =>
      some (s, if s.oi.addAlsoProxy = subnets then none else some (.writeProxy subnets))
  | .writeProxy subnets =>
      some ({ s with oi := { s.oi with addAlsoProxy := subnets } }, some .readRouting)
  | .writePods subnets => some ({ s with oi := s.oi.setPodSubnets subnets }, some .readRouting)
  | .readRouting => some (s, some (.readPods s.oi.routing))
  | .readPods rt => some (s, some (.notify (s.oi.withRouting rt)))
  | .notify ci =>
      if s.locked then none
      else if clusterInfoEqual s.current ci then some (s, none)
      else if order.Perm s.subscribers.keys then
        some ({ s with current := ci }, some (.offer order))
      else none
  | .offer [] => some (s, none)
  | .offer (id :: ids) => some (s.offerTo id, some (.offer ids))

/-- One step of a run of `sendIfChanged`.  The channel to `changeNotifier` has no
buffer. -/
def sendStep (s : Delivery) (run : Nat) : Option Delivery :=
  match s.runs[run]? with
  | none => none
  | some .started => some { s with runs := s.runs.set run (.copied s.watcher.ipsMap) }
  | some (.copied ips) =>
      if coveringSet ips = s.oldSubnets then some { s with runs := s.runs.eraseIdx run }
      else some { s with runs := s.runs.set run (.sending (coveringSet ips)) }
  | some (.sending newSubnets) =>
      if s.notifierIdle then
        some { s with
          runs := s.runs.set run (.sent newSubnets)
          updates := s.updates ++ [(.changeNotifier, .writePods newSubnets)] }
      else none
  | some (.sent newSubnets) =>
      some { s with oldSubnets := newSubnets, runs := s.runs.eraseIdx run }

/-- `subscribe`, up to its unlocking. -/
def register (s : Delivery) : Delivery :=
  let curr := if s.current.dns.kubeIp ≠ [] then some s.current else none
  { s with idGen := s.idGen + 1, subscribers := s.subscribers.insert s.idGen { posting := curr } }

/-- A step of any party; `none` if it has to wait. -/
def step (s : Delivery) : DeliveryAction → Option Delivery
  | .pod old new => some { s with watcher := s.watcher.handle old new }
  | .fire =>
      if s.watcher.timer then
        some { s with watcher := { s.watcher with timer := false }, runs := s.runs ++ [.started] }
      else none
  | .send run => s.sendStep run
  | .setAdditionalAlsoProxy subnets =>
      some { s with updates := s.updates ++ [(.setter, .compare subnets)] }
  | .update index order =>
      match s.updates[index]? with
      | none => none
      | some (src, u) =>
          (s.exec order u).map fun r =>
            { r.1 with
              updates := match r.2 with
                | some u' => s.updates.set index (src, u')
                | none => s.updates.eraseIdx index }
  | .subscribe => if s.locked then none else some s.register
  | .post id =>
      match s.subscribers.lookup id with
      | none => none
      | some sub =>
          match sub.posting with
          | none => none
          | some curr =>
              if sub.chan.length < chanCap then
                some { s with
                  subscribers := s.subscribers.insert id
                    { sub with posting := none, chan := sub.chan ++ [curr] } }
              else none
  | .unsubscribe id =>
      match s.subscribers.lookup id with
      | none => none
      | some sub =>
          if s.locked ∨ sub.posting ≠ none then none
          else some { s with subscribers := s.subscribers.erase id }
  | .receive id =>
      match s.subscribers.lookup id with
      | none => none
      | some sub =>
          match sub.posting, sub.chan with
          | none, ci :: rest =>
              some { s with
                subscribers := s.subscribers.insert id
                  { sub with chan := rest, received := some ci } }
          | _, _ => none

/-- Nothing is pending: no timer, no operation, no message in a channel. -/
structure Quiet (s : Delivery) : Prop where
  timer : s.watcher.timer = false
  runs : s.runs = []
  updates : s.updates = []
  drained : ∀ id sub, s.subscribers.lookup id = some sub → sub.posting = none ∧ sub.chan = []

/-- If nothing is pending, each subscriber has got the present message last, and
its pod subnets are those that cover the present addresses. -/
def UpToDate (s : Delivery) : Prop :=
  s.Quiet → ∀ id sub, s.subscribers.lookup id = some sub →
    sub.received = some s.oi.clusterInfo ∧
      s.oi.clusterInfo.podSubnets = podSubnetsOf (coveringSet s.watcher.ipsMap)

/-- The step overtakes nothing and loses nothing. -/
def Orderly (s : Delivery) : DeliveryAction → Prop
  | .fire => s.runs = []
  | .update index _ => ∀ src u, s.updates[index]? = some (src, u) →
      match u with
      | .writeProxy _ => ∀ x ∈ s.updates, x.2.dirty = false
      | .writePods _ => ∀ x ∈ s.updates, x.2.dirty = false
      | .notify ci => clusterInfoEqual s.current ci = true ∨
          ∀ id sub, s.subscribers.lookup id = some sub → sub.posting = none
      | .offer (id :: _) => ∀ sub, s.subscribers.lookup id = some sub → sub.chan.length < chanCap
      | _ => True
  | _ => True

/-- The manager at its start: the timer is set, though to a time that never
comes, and the subnets of the pods are not known. -/
def start (managerIP : Addr) (base : ClusterInfo) : Delivery :=
  let oi : Info := { base := { base with podSubnets := [] } }
  { watcher := { newPodWatcher managerIP with timer := true }
    oi
    current := oi.clusterInfo }

end Delivery

end Telepresence.Cluster
