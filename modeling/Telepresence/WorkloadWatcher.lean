import Telepresence.WorkloadEvents
import Telepresence.Lib.Inventories
import Telepresence.Lib.Threads

/-!
# The watcher of the workloads

`watcher` of `manager/state` follows the workloads of a namespace through the
informers of Kubernetes.  Each event is added to `events`, and a timer callback
sends what has gathered to the channels of the subscribers.

The callback copies the subscriptions under the lock and sends when it has
released it.  When the context of a subscriber is done, its channel is closed
first and its subscription is removed then.

* `no_send_on_closed`: no callback sends on a closed channel in a run in which a
  channel is closed only while no callback has it still to send to, and no
  callback copies a subscription whose channel is closed.
-/

namespace Telepresence.WorkloadWatch

open List Function

open Workloads (Workload Event EventType)
open Runs Threads

variable {ω : Type}

/-! ## The objects -/

/-- The kind of a Deployment. -/
def deploymentKind : String := "Deployment"
/-- The kind of a ReplicaSet. -/
def replicaSetKind : String := "ReplicaSet"
/-- The kind of a StatefulSet. -/
def statefulSetKind : String := "StatefulSet"
/-- The kind of an Argo Rollout. -/
def rolloutKind : String := "Rollout"

/-- The kinds that there are informers for, as `Subscribe` goes through them. -/
def workloadKinds : List String := [deploymentKind, replicaSetKind, statefulSetKind, rolloutKind]

/-- `meta.OwnerReference`. -/
structure OwnerReference where
  kind : String
  controller : Option Bool
  deriving DecidableEq

/-- A condition of a status. -/
structure Condition where
  type : String
  status : String
  message : String := ""
  deriving DecidableEq

/-- An object, apart from its kind, name and namespace.  `rest` is what
`compareOptions` leaves of the fields that are not here. -/
structure Object (ω : Type) where
  resourceVersion : String := ""
  generation : Int := 0
  managedFields : List String := []
  labels : GoMap String String := ∅
  annotations : GoMap String String := ∅
  ownerReferences : List OwnerReference := []
  conditions : List Condition := []
  status : ω
  rest : ω

/-- What an object is stored by. -/
structure Key where
  kind : String
  ns : String
  name : String
  deriving DecidableEq

/-- What a workload is stored by. -/
def keyOf (wl : Workload (Object ω)) : Key := ⟨wl.kind, wl.ns, wl.name⟩

/-- The namespace and the kinds of a watcher. -/
structure Settings where
  ns : String
  enabledWorkloadKinds : List String

/-- The loop of `hasValidReplicasetOwner`. -/
def ownedBy (enabledKinds : List String) : List OwnerReference → Bool
  | [] => false
  | ref :: refs =>
      if ref.controller = some true ∧ (ref.kind = deploymentKind ∨ ref.kind = rolloutKind) then
        enabledKinds.contains ref.kind
      else ownedBy enabledKinds refs

/-- `hasValidReplicasetOwner`. -/
def hasValidReplicasetOwner (wl : Workload (Object ω)) (enabledKinds : List String) : Bool :=
  ownedBy enabledKinds wl.desc.ownerReferences

/-- `TrafficManagerSelector.Matches`. -/
def trafficManagerMatches (labels : GoMap String String) : Bool :=
  labels.lookup "app" = some "traffic-manager" && labels.lookup "telepresence" = some "manager"

/-! ## What counts as a change -/

/-- The entries of maps that `compareOptions` ignores. -/
def ignoredEntry (key : String) : Bool :=
  key = "telepresence.io/restartedAt" || key = "deployment.kubernetes.io/revision"

/-- An entry as it is compared. -/
def comparedEntry (m : GoMap String String) (key : String) : Option String :=
  if ignoredEntry key then none else m.lookup key

/-- The maps are equal, apart from what is ignored. -/
def mapsEqual (a b : GoMap String String) : Bool :=
  (a.keys ++ b.keys).all fun key => comparedEntry a key = comparedEntry b key

/-- The conditions as they are compared: only the type and the status of those of
a Deployment. -/
def comparedConditions (wl : Workload (Object ω)) : List Condition :=
  if wl.kind = deploymentKind then wl.desc.conditions.map fun c => { c with message := "" }
  else wl.desc.conditions

/-- The other fields of the status, which are not compared for a Deployment. -/
def comparedStatus (wl : Workload (Object ω)) : Option ω :=
  if wl.kind = deploymentKind then none else some wl.desc.status

/-- `cmp.Equal(a, b, compareOptions()...)`.  The namespace, the resource version,
the generation and the managed fields are not compared. -/
def cmpEqual [DecidableEq ω] (a b : Workload (Object ω)) : Bool :=
  a.kind = b.kind && a.name = b.name &&
    mapsEqual a.desc.labels b.desc.labels && mapsEqual a.desc.annotations b.desc.annotations &&
    a.desc.ownerReferences = b.desc.ownerReferences &&
    comparedConditions a = comparedConditions b && comparedStatus a = comparedStatus b &&
    a.desc.rest = b.desc.rest

/-! ## The handlers -/

/-- The object before a change and after it. -/
abbrev Change (ω : Type) := Option (Workload (Object ω)) × Option (Workload (Object ω))

namespace Settings

variable (w : Settings)

/-- `addEventHandler` adds a handler to the informer of the kind. -/
def watches (kind : String) : Bool :=
  w.enabledWorkloadKinds.contains kind && workloadKinds.contains kind

/-- The condition of the handlers. -/
def admits (wl : Workload (Object ω)) : Bool :=
  w.ns = wl.ns && !hasValidReplicasetOwner wl w.enabledWorkloadKinds

/-- `handleEvent` adds the event of a workload. -/
def notManager (wl : Workload (Object ω)) : Bool :=
  !(wl.kind = "Deployment" && trafficManagerMatches wl.desc.labels)

/-- The event that a handler adds: `AddFunc`, `UpdateFunc` and `DeleteFunc` up to
the lock in `handleEvent`. -/
def eventOf [DecidableEq ω] : Change ω → Option (Event (Object ω))
  | (none, some wl) => if w.admits wl && notManager wl then some ⟨.added, wl⟩ else none
  | (some oldWl, some wl) =>
      if w.admits wl then
        if cmpEqual wl oldWl then none
        else if notManager wl then some ⟨.modified, wl⟩
        else none
      else none
  | (some wl, none) => if w.admits wl && notManager wl then some ⟨.deleted, wl⟩ else none
  | (none, none) => none

/-- The initial events of one kind; the lister has the objects of the namespace in
any order. -/
def listed (order : GoMap.Order Key (Workload (Object ω)))
    (store : GoMap Key (Workload (Object ω))) (kind : String) : List (Event (Object ω)) :=
  if w.enabledWorkloadKinds.contains kind then
    (((order.visit store).map (·.2)).filter fun wl =>
      wl.kind = kind && wl.ns = w.ns && !hasValidReplicasetOwner wl w.enabledWorkloadKinds &&
        !(kind = deploymentKind && trafficManagerMatches wl.desc.labels)).map
      fun wl => ⟨.added, wl⟩
  else []

end Settings

/-! ## The watcher and its subscribers -/

/-- The channel of a subscriber, which has one slot, and what the subscriber knows
after what it has received. -/
structure Subscriber (ω : Type) where
  buffer : Option (List (Event (Object ω))) := none
  closed : Bool := false
  view : Key → Option (Workload (Object ω)) := fun _ => none

/-- A call of `Subscribe`, with the kinds that it has still to list. -/
structure Subscribing (ω : Type) where
  todo : List String := workloadKinds
  initialEvents : List (Event (Object ω)) := []

/-- A callback that has released the lock, with the subscribers that it has still
to send to. -/
structure Sending (ω : Type) where
  todo : List Nat
  events : List (Event (Object ω))

/-- `watcher`, with the informers and the calls in progress.  A change is in the
store of an informer before its handler is called; the handlers of one kind are
called one after the other, and `resetting` says which is to reset the timer.
`firing` counts the callbacks that wait for the lock, and `sending` has the others
in the order in which they had it.  At first the timer is set to a time that never
comes.  `done` is the end of the watcher's own context, and `panicked` records a
send on a closed channel. -/
structure Watcher (ω : Type) where
  store : GoMap Key (Workload (Object ω)) := ∅
  queue : String → List (Change ω) := fun _ => []
  resetting : String → Bool := fun _ => false
  timer : Bool := false
  events : List (Event (Object ω)) := []
  firing : Nat := 0
  sending : List (Sending ω) := []
  subscribing : List (Subscribing ω) := []
  subscriptions : List Nat := []
  sub : Nat → Subscriber ω := fun _ => {}
  idGen : Nat := 0
  removing : List Nat := []
  done : Bool := false
  panicked : Bool := false

/-- What may happen next. -/
inductive Action (ω : Type) where
  | change (e : Inventories.Event Key (Workload (Object ω)))
  | handle (kind : String)
  | reset (kind : String)
  | fire
  | take (ss : List Nat)
  | send (callback : Nat)
  | finish (callback : Nat)
  | giveUp (callback : Nat)
  | subscribe
  | list (call : Nat) (order : GoMap.Order Key (Workload (Object ω)))
  | register (call : Nat)
  | receive (id : Nat)
  | close (id : Nat)
  | remove (id : Nat)
  | done

/-- The subscriber applies an event. -/
def applyEvent (view : Key → Option (Workload (Object ω))) (we : Event (Object ω)) :
    Key → Option (Workload (Object ω)) :=
  update view (keyOf we.workload)
    (if we.type = .deleted then none else some we.workload)

namespace Watcher

/-- An informer stores a change, and its handler is told. -/
def change (w : Settings) (s : Watcher ω) (e : Inventories.Event Key (Workload (Object ω))) :
    Option (Watcher ω) :=
  (Inventories.change keyOf s.store e).map fun (n, store) =>
    let kind := (e.key keyOf).kind
    { s with
      store
      queue :=
        if w.watches kind then update s.queue kind (s.queue kind ++ [n]) else s.queue }

/-- The handler of a kind runs up to the end of its locked part. -/
def handle [DecidableEq ω] (w : Settings) (s : Watcher ω) (kind : String) : Option (Watcher ω) :=
  if s.resetting kind then none
  else
    match s.queue kind with
    | [] => none
    | n :: rest =>
        let s := { s with queue := update s.queue kind rest }
        match w.eventOf n with
        | none => some s
        | some we =>
            some { s with
              events := s.events ++ [we]
              resetting := update s.resetting kind true }

/-- The handler resets the timer. -/
def reset (s : Watcher ω) (kind : String) : Option (Watcher ω) :=
  if s.resetting kind then
    some { s with resetting := update s.resetting kind false, timer := true }
  else none

/-- The timer starts its callback. -/
def fire (s : Watcher ω) : Option (Watcher ω) :=
  if s.timer then some { s with timer := false, firing := s.firing + 1 } else none

/-- The locked part of the callback; `range` visits the subscriptions in any
order. -/
def take (s : Watcher ω) (ss : List Nat) : Option (Watcher ω) :=
  if 0 < s.firing ∧ ss.Perm s.subscriptions then
    some { s with
      firing := s.firing - 1
      sending := s.sending ++ [⟨ss, s.events⟩]
      events := [] }
  else none

/-- The callback sends to the next subscriber, or waits for it. -/
def send (s : Watcher ω) (callback : Nat) : Option (Watcher ω) :=
  match s.sending[callback]? with
  | some ⟨id :: rest, events⟩ =>
      if (s.sub id).closed then some { s with panicked := true }
      else
        match (s.sub id).buffer with
        | some _ => none
        | none =>
            some { s with
              sending := s.sending.set callback ⟨rest, events⟩
              sub := update s.sub id { s.sub id with buffer := some events } }
  | _ => none

/-- The callback has sent to all. -/
def finish (s : Watcher ω) (callback : Nat) : Option (Watcher ω) :=
  match s.sending[callback]? with
  | some ⟨[], _⟩ => some { s with sending := s.sending.eraseIdx callback }
  | _ => none

/-- The callback returns since the context of the watcher is done. -/
def giveUp (s : Watcher ω) (callback : Nat) : Option (Watcher ω) :=
  if s.done then some { s with sending := s.sending.eraseIdx callback } else none

/-- `Subscribe` lists the next kind. -/
def list (w : Settings) (s : Watcher ω) (call : Nat)
    (order : GoMap.Order Key (Workload (Object ω))) : Option (Watcher ω) :=
  match s.subscribing[call]? with
  | some ⟨kind :: todo, initialEvents⟩ =>
      some { s with
        subscribing :=
          s.subscribing.set call ⟨todo, initialEvents ++ w.listed order s.store kind⟩ }
  | _ => none

/-- `Subscribe` puts the initial events into its new channel, and registers it. -/
def register (s : Watcher ω) (call : Nat) : Option (Watcher ω) :=
  match s.subscribing[call]? with
  | some ⟨[], initialEvents⟩ =>
      some { s with
        subscribing := s.subscribing.eraseIdx call
        subscriptions := s.subscriptions ++ [s.idGen]
        sub := update s.sub s.idGen { buffer := some initialEvents }
        idGen := s.idGen + 1 }
  | _ => none

/-- The subscriber reads from its channel. -/
def receive (s : Watcher ω) (id : Nat) : Option (Watcher ω) :=
  (s.sub id).buffer.map fun events =>
    { s with
      sub := update s.sub id
        { s.sub id with buffer := none, view := events.foldl applyEvent (s.sub id).view } }

/-- The context of a subscriber is done, and its channel is closed. -/
def close (s : Watcher ω) (id : Nat) : Option (Watcher ω) :=
  if id < s.idGen ∧ (s.sub id).closed = false then
    some { s with
      sub := update s.sub id { s.sub id with closed := true }
      removing := s.removing ++ [id] }
  else none

/-- The subscription is removed. -/
def remove (s : Watcher ω) (id : Nat) : Option (Watcher ω) :=
  if id ∈ s.removing then
    some { s with
      subscriptions := s.subscriptions.filter (· ≠ id)
      removing := s.removing.filter (· ≠ id) }
  else none

/-- One step; `none` if it has to wait, or the program has ended. -/
def step [DecidableEq ω] (w : Settings) (s : Watcher ω) (a : Action ω) : Option (Watcher ω) :=
  if s.panicked then none
  else
    match a with
    | .change e => s.change w e
    | .handle kind => s.handle w kind
    | .reset kind => s.reset kind
    | .fire => s.fire
    | .take ss => s.take ss
    | .send callback => s.send callback
    | .finish callback => s.finish callback
    | .giveUp callback => s.giveUp callback
    | .subscribe => some { s with subscribing := s.subscribing ++ [{}] }
    | .list call order => s.list w call order
    | .register call => s.register call
    | .receive id => s.receive id
    | .close id => s.close id
    | .remove id => s.remove id
    | .done => some { s with done := true }

/-! ## Sends on closed channels -/

/-- No callback has sent on a closed channel. -/
def NoPanic (s : Watcher ω) : Prop := s.panicked = false

/-- A channel is closed only while no callback has it still to send to, and a
callback copies no subscription whose channel is closed. -/
def Undisturbed (s : Watcher ω) : Action ω → Prop
  | .close id => ∀ cb ∈ s.sending, id ∉ cb.todo
  | .take _ => ∀ id ∈ s.subscriptions, (s.sub id).closed = false
  | _ => True

/-- The channels that are still to be sent to are open. -/
structure TodoOpen (s : Watcher ω) : Prop where
  noPanic : s.panicked = false
  opened : ∀ cb ∈ s.sending, ∀ id ∈ cb.todo, (s.sub id).closed = false

variable {w : Settings} {s t : Watcher ω}

/-- A step that leaves the callbacks and the closed channels as they are, or has
less of both. -/
theorem TodoOpen.of_le (h : s.TodoOpen) (hpanicked : t.panicked = s.panicked)
    (hsending : ∀ cb ∈ t.sending, ∀ id ∈ cb.todo, ∃ cb' ∈ s.sending, id ∈ cb'.todo)
    (hclosed : ∀ id, (s.sub id).closed = false → (t.sub id).closed = false) : t.TodoOpen := by
  refine ⟨hpanicked.trans h.noPanic, ?_⟩
  intro cb hcb id hid
  obtain ⟨cb', hcb', hid'⟩ := hsending cb hcb id hid
  exact hclosed id (h.opened cb' hcb' id hid')

/-- The same, if neither changes. -/
theorem TodoOpen.of_eq (h : s.TodoOpen) (hpanicked : t.panicked = s.panicked)
    (hsending : t.sending = s.sending)
    (hclosed : ∀ id, (s.sub id).closed = false → (t.sub id).closed = false) : t.TodoOpen := by
  refine h.of_le hpanicked ?_ hclosed
  rw [hsending]
  exact fun cb hcb _ hid => ⟨cb, hcb, hid⟩

theorem open_update {sub : Nat → Subscriber ω} {id : Nat} {x : Subscriber ω}
    (hx : (sub id).closed = false → x.closed = false) (id' : Nat)
    (hopen : (sub id').closed = false) : (update sub id x id').closed = false := by
  by_cases hid : id' = id
  · subst hid
    rw [update_self]
    exact hx hopen
  · rw [update_of_ne hid]
    exact hopen

section

variable (h : s.TodoOpen)

include h

theorem TodoOpen.take {ss : List Nat} (hcond : s.Undisturbed (.take ss))
    (hstep : s.take ss = some t) : t.TodoOpen := by
  rw [Watcher.take] at hstep
  split at hstep
  · rename_i hguard
    cases hstep
    refine ⟨h.noPanic, Runs.forall_mem_concat.mpr ⟨h.opened, ?_⟩⟩
    intro id hid
    exact hcond id (hguard.2.mem_iff.mp hid)
  · cases hstep

theorem TodoOpen.send {callback : Nat} (hstep : s.send callback = some t) : t.TodoOpen := by
  rw [Watcher.send] at hstep
  split at hstep
  · rename_i id rest events hget
    have hmem : (⟨id :: rest, events⟩ : Sending ω) ∈ s.sending := mem_of_getElem? hget
    rw [if_neg (by rw [h.opened _ hmem id (mem_cons_self ..)]; decide)] at hstep
    split at hstep
    · cases hstep
    · cases hstep
      refine h.of_le rfl ?_ (open_update fun hopen => hopen)
      intro cb hcb id' hid'
      rcases mem_or_eq_of_mem_set hcb with hcb | rfl
      · exact ⟨cb, hcb, hid'⟩
      · exact ⟨_, hmem, mem_cons_of_mem _ hid'⟩
  · cases hstep

theorem TodoOpen.close {id : Nat} (hcond : s.Undisturbed (.close id))
    (hstep : s.close id = some t) : t.TodoOpen := by
  rw [Watcher.close] at hstep
  split at hstep
  · cases hstep
    refine ⟨h.noPanic, ?_⟩
    intro cb hcb id' hid'
    have hne : id' ≠ id := by
      intro heq
      exact hcond cb hcb (heq ▸ hid')
    dsimp only
    rw [update_of_ne hne]
    exact h.opened cb hcb id' hid'
  · cases hstep

theorem TodoOpen.erase (callback : Nat) :
    ({ s with sending := s.sending.eraseIdx callback } : Watcher ω).TodoOpen :=
  h.of_le rfl (fun cb hcb _ hid => ⟨cb, mem_of_mem_eraseIdx hcb, hid⟩) fun _ hopen => hopen

theorem TodoOpen.register {call : Nat} (hstep : s.register call = some t) : t.TodoOpen := by
  rw [Watcher.register] at hstep
  split at hstep
  · cases hstep
    exact h.of_eq rfl rfl (open_update fun _ => rfl)
  · cases hstep

theorem TodoOpen.receive {id : Nat} (hstep : s.receive id = some t) : t.TodoOpen := by
  obtain ⟨events, _, rfl⟩ := Option.map_eq_some_iff.mp hstep
  exact h.of_eq rfl rfl (open_update fun hopen => hopen)

/-- The handlers, the timer and the other parts of `Subscribe` have nothing to do
with the channels. -/
theorem TodoOpen.step [DecidableEq ω] {a : Action ω} (hcond : s.Undisturbed a)
    (hstep : s.step w a = some t) : t.TodoOpen := by
  rw [Watcher.step.eq_def, if_neg (by rw [h.noPanic]; decide)] at hstep
  cases a with
  | change e =>
    obtain ⟨_, _, rfl⟩ := Option.map_eq_some_iff.mp hstep
    exact h.of_eq rfl rfl fun _ hopen => hopen
  | handle kind =>
    simp only [Watcher.handle] at hstep
    split at hstep
    · cases hstep
    · split at hstep
      · cases hstep
      · split at hstep
        all_goals
          cases hstep
          exact h.of_eq rfl rfl fun _ hopen => hopen
  | reset | fire | list | remove =>
    simp only [Watcher.reset, Watcher.fire, Watcher.list, Watcher.remove] at hstep
    split at hstep
    · cases hstep
      exact h.of_eq rfl rfl fun _ hopen => hopen
    · cases hstep
  | take ss => exact h.take hcond hstep
  | send callback => exact h.send hstep
  | finish callback | giveUp callback =>
    simp only [Watcher.finish, Watcher.giveUp] at hstep
    split at hstep
    · cases hstep
      exact h.erase callback
    · cases hstep
  | subscribe | done =>
    cases hstep
    exact h.of_eq rfl rfl fun _ hopen => hopen
  | register call => exact h.register hstep
  | receive id => exact h.receive hstep
  | close id => exact h.close hcond hstep

end

end Watcher

/-- In a run in which the channels are closed in time, no callback sends on a
closed one. -/
theorem no_send_on_closed [DecidableEq ω] (w : Settings) (as : List (Action ω))
    (hcond : Meets (Watcher.step w) Watcher.Undisturbed {} as) :
    Always (Watcher.step w) Watcher.NoPanic {} as := by
  have hstart : Watcher.TodoOpen ({} : Watcher ω) := by
    refine ⟨rfl, ?_⟩
    intro cb hcb
    cases hcb
  refine always_of_meets ?_ ?_ hstart hcond
  · intro s h
    exact h.noPanic
  · intro s a t h hundisturbed hstep
    exact h.step hundisturbed hstep

/-- A test for the condition. -/
def Watcher.undisturbedTest (s : Watcher ω) : Action ω → Bool
  | .close id => s.sending.all fun cb => id ∉ cb.todo
  | .take _ => s.subscriptions.all fun id => !(s.sub id).closed
  | _ => true

theorem Watcher.undisturbed_of_test (s : Watcher ω) (a : Action ω)
    (h : s.undisturbedTest a = true) : s.Undisturbed a := by
  cases a with
  | close id | take ss => simpa [undisturbedTest, Undisturbed] using h
  | _ => trivial

/-- Deployments of the default namespace. -/
def deployments : Settings := ⟨"default", [deploymentKind]⟩

/-- A Deployment with a number of replicas. -/
def echo (replicas : Nat) : Workload (Object Nat) :=
  ⟨deploymentKind, "echo", "default", { status := 0, rest := replicas }⟩

/-- A client subscribes and reads the initial events. -/
def subscribing : List (Action Nat) :=
  [.subscribe, .list 0 .entries, .list 0 .entries, .list 0 .entries, .list 0 .entries,
    .register 0, .receive 0]

/-- A change is handled, and a callback takes the event. -/
def flushing (e : Inventories.Event Key (Workload (Object Nat))) (ss : List Nat) :
    List (Action Nat) :=
  [.change e, .handle deploymentKind, .reset deploymentKind, .fire, .take ss]

/-- A client leaves after the callback. -/
def leavesInTime : List (Action Nat) :=
  subscribing ++ flushing (.added (echo 1)) [0] ++
    ([.send 0, .finish 0, .close 0, .remove 0] : List (Action Nat))

theorem no_send_on_closed_in_time :
    (run (Watcher.step deployments) {} leavesInTime).isSome = true ∧
    Always (Watcher.step deployments) Watcher.NoPanic {} leavesInTime := by
  refine ⟨by decide +kernel, ?_⟩
  exact no_send_on_closed deployments _
    (meets_of_test Watcher.undisturbed_of_test (by decide +kernel))

/-- A client leaves while the callback has still to send to it. -/
def leavesEarly : List (Action Nat) :=
  subscribing ++ flushing (.added (echo 1)) [0] ++ ([.close 0, .send 0] : List (Action Nat))

theorem leaving_client_panics :
    ¬ Always (Watcher.step deployments) Watcher.NoPanic {} leavesEarly :=
  not_always_of_run (Q := fun t => t.panicked = false) (fun _ h => h) (by decide +kernel)

end Telepresence.WorkloadWatch
