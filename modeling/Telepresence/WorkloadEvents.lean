import Telepresence.Cache
import Telepresence.ManagerState

/-!
# The workload events of a client

`workloadInfoWatcher` of `manager/state` tells a client about the workloads of
a namespace.  Workload events, agent deltas and intercept deltas are merged
into one pending event for each workload name, and `sendEvents` sends what is
pending.

A handler goes through the items of what it has received, and each item is
merged into the pending event of its name (`Item.merge`), so what happens to
one name depends on the items with that name only (`lookup_handleItems`).
-/

namespace Telepresence.Workloads

open Telepresence.Manager Telepresence.Cache

variable {ω : Type}

/-! ## Workloads and events -/

/-- `WorkloadInfo.AgentState`. -/
inductive AgentState where
  | noAgent | installed | intercepted
  deriving DecidableEq

/-- `k8sapi.Workload`.  What `rpcWorkload` says about it apart from its kind,
name and namespace (UID, replicas, services, state) is `desc`. -/
structure Workload (ω : Type) where
  kind : String
  name : String
  ns : String
  desc : ω
  deriving DecidableEq

/-- `rpc.WorkloadInfo`. -/
structure WorkloadInfo (ω : Type) extends Workload ω where
  agentState : AgentState
  interceptClients : List String
  deriving DecidableEq

/-- `rpcWorkload`. -/
def rpcWorkload (wl : Workload ω) (as : AgentState) (iClients : List String) : WorkloadInfo ω :=
  { wl with agentState := as, interceptClients := iClients }

/-- `rpc.WorkloadEvent_Type` and `EventType`, which have the same values. -/
inductive EventType where
  | added | modified | deleted
  deriving DecidableEq

/-- `rpc.WorkloadEvent`. -/
structure WorkloadEvent (ω : Type) where
  type : EventType
  workload : WorkloadInfo ω
  deriving DecidableEq

/-- `Event`, from the watcher of the workloads. -/
structure Event (ω : Type) where
  type : EventType
  workload : Workload ω

/-- The pending events, by name. -/
abbrev Pending (ω : Type) := GoMap String (WorkloadEvent ω)

/-- What a handler reads: the state of the manager, and the workloads that
`agentmap.GetWorkload` finds. -/
structure World (ω : Type) where
  state : State
  getWorkload : String → String → Option (Workload ω)
  getWorkload_key : ∀ {name ns wl}, getWorkload name ns = some wl → wl.name = name ∧ wl.ns = ns

namespace World

variable (W : World ω)

/-- The intercept counts: its disposition is one of three. -/
def counts (ii : InterceptInfo) : Bool :=
  match ii.disposition with
  | .active | .waiting | .noAgent => true
  | _ => false

/-- The intercepts, as `Range` visits them. -/
def intercepts : List InterceptInfo := W.state.intercepts.entries.map (·.2)

/-- `getIntercepts`. -/
def getIntercepts (name ns : String) : List String :=
  (W.intercepts.filter fun ii =>
    name = ii.spec.agent ∧ ns = ii.spec.namespace_ ∧ counts ii).map (·.spec.client)

/-- `HasAgent`. -/
def hasAgent (name ns : String) : Bool :=
  W.state.eachAgent.any fun ai => ai.name = name ∧ ai.namespace_ = ns

/-- The body of the loop that fills `ipc`. -/
def addIntercept (ipc : GoMap String (List InterceptInfo)) (ii : InterceptInfo) :
    GoMap String (List InterceptInfo) :=
  if counts ii then ipc.insert ii.spec.agent ((ipc.lookup ii.spec.agent).getD [] ++ [ii]) else ipc

/-- The active intercepts by agent. -/
def ipc : GoMap String (List InterceptInfo) := W.intercepts.foldl addIntercept ∅

/-- `makeInterceptClients(ipc[name])`. -/
def clientsOf (name : String) : List String := ((W.ipc.lookup name).getD []).map (·.spec.client)

/-- What `handleWorkloadEvents` says about a workload. -/
def info (wl : Workload ω) : WorkloadInfo ω :=
  let iClients := W.getIntercepts wl.name wl.ns
  let as :=
    if iClients ≠ [] then AgentState.intercepted
    else if W.hasAgent wl.name wl.ns then .installed
    else .noAgent
  rpcWorkload wl as iClients

theorem lookup_foldl_addIntercept (iis : List InterceptInfo)
    (m : GoMap String (List InterceptInfo)) (name : String) :
    ((iis.foldl addIntercept m).lookup name).getD [] =
      (m.lookup name).getD [] ++ iis.filter fun ii => ii.spec.agent = name ∧ counts ii := by
  have hfold : iis.foldl addIntercept m = (iis.filter counts).foldl
      (fun m ii => m.insert ii.spec.agent ((m.lookup ii.spec.agent).getD [] ++ [id ii])) m :=
    List.foldl_filter.symm
  rw [hfold, GoMap.lookup_foldl_grouped, List.filter_filter, List.map_id]
  split <;> simp_all

/-- The clients of all intercepts that count, whatever their namespace. -/
theorem clientsOf_eq (name : String) :
    W.clientsOf name =
      (W.intercepts.filter fun ii => ii.spec.agent = name ∧ counts ii).map (·.spec.client) := by
  rw [clientsOf, ipc, lookup_foldl_addIntercept]
  simp

end World

/-! ## Merging -/

/-- What a handler goes through. -/
inductive Item (ω : Type) where
  | workload (we : Event ω)
  | agentRemoved (a : AgentInfo)
  | agentUpserted (a : AgentInfo)
  | interceptRemoved (ii : InterceptInfo)
  | interceptUpserted (ii : InterceptInfo)

namespace Item

/-- The name under which its event is pending. -/
def name : Item ω → String
  | .workload we => we.workload.name
  | .agentRemoved a => a.name
  | .agentUpserted a => a.name
  | .interceptRemoved ii => ii.spec.agent
  | .interceptUpserted ii => ii.spec.agent

/-- A pending event with another agent state. -/
def restate (w : WorkloadEvent ω) (as : AgentState) (iClients : List String) : WorkloadEvent ω :=
  { w with workload := { w.workload with agentState := as, interceptClients := iClients } }

/-- The agent state of a workload with an agent. -/
def stateOf (iClients : List String) : AgentState :=
  if iClients = [] then .installed else .intercepted

/-- The function that `handleWorkloadEvents` gives to `Compute`; `none` is
`CancelOp`. -/
def mergeWorkload (W : World ω) (we : Event ω) :
    Option (WorkloadEvent ω) → Option (WorkloadEvent ω)
  | some w =>
      if we.type = .deleted ∧ w.type ≠ .deleted then some ⟨.deleted, w.workload⟩ else none
  | none => some ⟨we.type, W.info we.workload⟩

/-- `onDeleted` of `handleAgentDelta`. -/
def onDeleted (W : World ω) (a : AgentInfo) : Option (WorkloadEvent ω) → Option (WorkloadEvent ω)
  | some w => if w.type = .deleted then none else some (restate w .noAgent [])
  | none =>
      (W.getWorkload a.name a.namespace_).map fun wl => ⟨.modified, rpcWorkload wl .noAgent []⟩

/-- The upserts of `handleAgentDelta`. -/
def onUpserted (W : World ω) (a : AgentInfo) : Option (WorkloadEvent ω) → Option (WorkloadEvent ω) :=
  let iClients := W.getIntercepts a.name a.namespace_
  fun
  | some w =>
      if w.type = .deleted ∨ w.workload.agentState = stateOf iClients then none
      else some (restate w (stateOf iClients) iClients)
  | none =>
      (W.getWorkload a.name a.namespace_).map fun wl =>
        ⟨.added, rpcWorkload wl (stateOf iClients) iClients⟩

/-- The removals of `handleInterceptDelta`.  In a pending event the agent
state is set before the clients are looked at. -/
def mergeRemoval (W : World ω) (ns : String) (ii : InterceptInfo) :
    Option (WorkloadEvent ω) → Option (WorkloadEvent ω) :=
  let iClients := W.clientsOf ii.spec.agent
  fun
  | some w => if w.type = .deleted then none else some (restate w .installed iClients)
  | none =>
      (W.getWorkload ii.spec.agent ns).map fun wl =>
        ⟨.modified, rpcWorkload wl (stateOf iClients) iClients⟩

/-- The upserts of `handleInterceptDelta`. -/
def mergeUpsert (W : World ω) (ns : String) (ii : InterceptInfo) :
    Option (WorkloadEvent ω) → Option (WorkloadEvent ω) :=
  let iClients := W.clientsOf ii.spec.agent
  fun
  | some w => if w.type = .deleted then none else some (restate w (stateOf iClients) iClients)
  | none =>
      (W.getWorkload ii.spec.agent ns).map fun wl =>
        ⟨.modified, rpcWorkload wl (stateOf iClients) iClients⟩

/-- The new event of its name, for a watcher of the namespace. -/
def merge (W : World ω) (ns : String) : Item ω → Option (WorkloadEvent ω) → Option (WorkloadEvent ω)
  | .workload we => mergeWorkload W we
  | .agentRemoved a => onDeleted W a
  | .agentUpserted a => if W.state.isInactive a.podUid then onDeleted W a else onUpserted W a
  | .interceptRemoved ii => mergeRemoval W ns ii
  | .interceptUpserted ii => mergeUpsert W ns ii

/-- The event that is pending afterwards. -/
def update (W : World ω) (ns : String) (i : Item ω) (w : Option (WorkloadEvent ω)) :
    Option (WorkloadEvent ω) :=
  (i.merge W ns w).or w

/-- `Compute`. -/
def handle (W : World ω) (ns : String) (p : Pending ω) (i : Item ω) : Pending ω :=
  match i.merge W ns (p.lookup i.name) with
  | some w => p.insert i.name w
  | none => p

theorem lookup_handle (W : World ω) (ns : String) (p : Pending ω) (i : Item ω) (n : String) :
    (i.handle W ns p).lookup n =
      if n = i.name then i.update W ns (p.lookup n) else p.lookup n := by
  by_cases hn : n = i.name
  · subst hn
    rw [if_pos rfl, handle, update]
    cases i.merge W ns (p.lookup i.name) with
    | none => rfl
    | some w => exact AList.lookup_insert p
  · rw [if_neg hn, handle]
    cases i.merge W ns (p.lookup i.name) with
    | none => rfl
    | some w => exact AList.lookup_insert_ne hn

end Item

/-! ## The handlers -/

/-- The items of workload events. -/
def workloadItems (ns : String) (wes : List (Event ω)) : List (Item ω) :=
  (wes.filter fun we => ns = "" ∨ we.workload.ns = ns).map .workload

/-- The items of an agent delta, with the removals first. -/
def agentItems (order : GoMap.Order String AgentInfo) (delta : Delta String AgentInfo) :
    List (Item ω) :=
  (order.visit delta.removals).map (fun e => .agentRemoved e.2) ++
    (order.visit delta.upserts).map (fun e => .agentUpserted e.2)

/-- The items of an intercept delta, with the removals first. -/
def interceptItems (order : GoMap.Order String InterceptInfo)
    (delta : Delta String InterceptInfo) : List (Item ω) :=
  (order.visit delta.removals).map (fun e => .interceptRemoved e.2) ++
    (order.visit delta.upserts).map (fun e => .interceptUpserted e.2)

/-- The loop of a handler. -/
def handleItems (W : World ω) (ns : String) (p : Pending ω) (items : List (Item ω)) : Pending ω :=
  items.foldl (fun p i => i.handle W ns p) p

/-- `handleWorkloadEvents`, apart from the flush for an empty snapshot. -/
def handleWorkloadEvents (W : World ω) (ns : String) (p : Pending ω) (wes : List (Event ω)) :
    Pending ω :=
  handleItems W ns p (workloadItems ns wes)

/-- `handleAgentDelta`. -/
def handleAgentDelta (W : World ω) (ns : String) (order : GoMap.Order String AgentInfo)
    (p : Pending ω) (delta : Delta String AgentInfo) : Pending ω :=
  handleItems W ns p (agentItems order delta)

/-- `handleInterceptDelta`. -/
def handleInterceptDelta (W : World ω) (ns : String) (order : GoMap.Order String InterceptInfo)
    (p : Pending ω) (delta : Delta String InterceptInfo) : Pending ω :=
  handleItems W ns p (interceptItems order delta)

/-- What happens to a name is what the items with that name do. -/
theorem lookup_handleItems (W : World ω) (ns : String) (p : Pending ω) (items : List (Item ω))
    (n : String) :
    (handleItems W ns p items).lookup n =
      (items.filter fun i => i.name = n).foldl (fun w i => i.update W ns w) (p.lookup n) := by
  induction items generalizing p with
  | nil => rfl
  | cons i items ih =>
    rw [handleItems, List.foldl_cons, ← handleItems, ih, Item.lookup_handle, List.filter_cons]
    by_cases hn : i.name = n
    · rw [if_pos hn.symm, if_pos (decide_eq_true hn), List.foldl_cons]
    · rw [if_neg (Ne.symm hn), if_neg (by simpa using hn)]

end Telepresence.Workloads
