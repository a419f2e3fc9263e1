import Telepresence.ClientSession
import Telepresence.Lib.AddrText

/-!
# Access to pods

`podaccess.go` of `userd/trafficmgr`: the mounts and port forwards to the pods
of ingests and intercepts.  A `podAccessTracker` knows them by namespace,
container and pod IP.  They run under a context that is derived from the context
of the ingest or intercept that started them, and they end when that context or
their own one is cancelled; a cancelled own context also removes the entry.

A round of `start` calls between `initSnapshot` and `cancelUnwanted` is given in
closed form by `lookup_round`: a pod that is not asked for loses its entry, an
entry that exists stays as it is, and otherwise the first call for the pod that
needs anything makes one.
-/

namespace Telepresence.TrafficMgr

open Netip (parseAddr)

/-! ## The code -/

/-- What the code reads of the client's configuration. -/
structure ClientConfig where
  agentPortForward : Bool := true
  useFtp : Bool := false
  /-- The fuseftp server has been started. -/
  fuseftp : Bool := true

/-- `podAccess`.  A context is known by a number. -/
structure PodAccess where
  ctx : Nat
  localPorts : List String
  workload : String
  namespace_ : String
  container : String
  podIP : String
  sftpPort : Int
  ftpPort : Int
  mountPoint : String
  clientMountPoint : String
  localMountPort : Int
  readOnly : Bool
  deriving DecidableEq

/-- `podAccessKey`. -/
structure PodAccessKey where
  namespace_ : String
  container : String
  podIP : String
  deriving DecidableEq

/-- What `startMount` gives to the mounter. -/
structure Mount where
  workload : String
  container : String
  clientMountPoint : String
  mountPoint : String
  localMountPort : Int
  podIP : String
  port : Int
  readOnly : Bool
  deriving DecidableEq

/-- `podAccessSync`, with the context that its own one is derived from, and what
has been started under it. -/
structure PodAccessSync where
  workload : String
  ctx : Nat
  forwards : List String
  mount : Option Mount
  deriving DecidableEq

/-- The answers of the root daemon to `WaitForAgentIP`. -/
inductive AgentIPReply where
  | unavailable
  | ok (localIP : Option String)
  | deadlineExceeded
  | failed (err : String)

namespace PodAccess

/-- The key of the pod. -/
def key (pa : PodAccess) : PodAccessKey := ⟨pa.namespace_, pa.container, pa.podIP⟩

/-- `shouldForward`. -/
def shouldForward (pa : PodAccess) : Bool := !pa.localPorts.isEmpty

/-- `shouldMount`. -/
def shouldMount (pa : PodAccess) : Bool :=
  (0 < pa.ftpPort || 0 < pa.sftpPort) && (0 < pa.localMountPort || pa.clientMountPoint != "")

/-- The arguments of the mounter. -/
def mountWith (pa : PodAccess) (port : Int) : Mount :=
  { workload := pa.workload, container := pa.container, clientMountPoint := pa.clientMountPoint
    mountPoint := pa.mountPoint, localMountPort := pa.localMountPort, podIP := pa.podIP
    port, readOnly := pa.readOnly }

/-- `startMount`, which only logs what it refuses. -/
def startMount (cfg : ClientConfig) (pa : PodAccess) : Option Mount :=
  if (parseAddr pa.podIP.toList).isNone then none
  else if cfg.useFtp then
    if pa.ftpPort = 0 then none
    else if 0 < pa.localMountPort then none
    else if cfg.fuseftp then some (pa.mountWith pa.ftpPort)
    else none
  else if pa.sftpPort = 0 then none
  else some (pa.mountWith pa.sftpPort)

/-- `ensureAccess`. -/
def ensureAccess (cfg : ClientConfig) (waitForAgentIP : String → String → AgentIPReply)
    (pa : PodAccess) : Except String PodAccess :=
  if cfg.agentPortForward then
    if (parseAddr pa.podIP.toList).isNone then .error ("unable to parse IP " ++ pa.podIP)
    else match waitForAgentIP pa.podIP pa.namespace_ with
      | .unavailable => .ok pa
      | .ok (some lip) => .ok { pa with podIP := lip }
      | .ok none => .ok pa
      | .deadlineExceeded =>
          .error ("timeout waiting for port-forward to traffic-agent with pod-ip " ++ pa.podIP ++
            " in namespace " ++ pa.namespace_)
      | .failed err =>
          .error ("unexpected error for port-forward to traffic-agent with pod-ip " ++ pa.podIP ++
            " in namespace " ++ pa.namespace_ ++ ": " ++ err)
  else .ok pa

/-- Something is to be started. -/
def needed (pa : PodAccess) : Bool := pa.shouldForward || pa.shouldMount

/-- The entry that `privateStart` makes, with what it starts. -/
def sync (cfg : ClientConfig) (pa : PodAccess) : PodAccessSync where
  workload := pa.workload
  ctx := pa.ctx
  forwards := if pa.shouldForward then pa.localPorts else []
  mount := if pa.shouldMount then pa.startMount cfg else none

/-- Only the IP can change. -/
theorem eq_of_ensureAccess {cfg : ClientConfig} {reply : String → String → AgentIPReply}
    {pa pa' : PodAccess} (h : pa.ensureAccess cfg reply = .ok pa') :
    pa' = { pa with podIP := pa'.podIP } := by
  unfold ensureAccess at h
  split at h
  · split at h
    · cases h
    · split at h <;> cases h <;> rfl
  · cases h
    rfl

end PodAccess

/-- `podAccessTracker`. -/
structure Tracker where
  alivePods : GoMap PodAccessKey PodAccessSync := ∅
  snapshot : GoMap PodAccessKey Unit := ∅

namespace Tracker

/-- `privateStart`. -/
def privateStart (cfg : ClientConfig) (t : Tracker) (pa : PodAccess) : Tracker :=
  if !pa.shouldForward && !pa.shouldMount then t
  else if (t.alivePods.lookup pa.key).isSome then t
  else { t with alivePods := t.alivePods.insert pa.key (pa.sync cfg) }

/-- `start`. -/
def start (cfg : ClientConfig) (t : Tracker) (pa : PodAccess) : Tracker :=
  privateStart cfg { t with snapshot := t.snapshot.insert pa.key () } pa

/-- `initSnapshot`. -/
def initSnapshot (t : Tracker) : Tracker := { t with snapshot := ∅ }

/-- `cancelUnwanted`. -/
def cancelUnwanted (order : GoMap.Order PodAccessKey PodAccessSync) (t : Tracker) : Tracker :=
  { t with alivePods := order.deleteWhere (fun fk _ => (t.snapshot.lookup fk).isNone) t.alivePods }

/-- A round: `initSnapshot`, the calls of `start`, and `cancelUnwanted`. -/
def round (cfg : ClientConfig) (order : GoMap.Order PodAccessKey PodAccessSync)
    (pas : List PodAccess) (t : Tracker) : Tracker :=
  (pas.foldl (start cfg) t.initSnapshot).cancelUnwanted order

/-! ## One call -/

variable {cfg : ClientConfig} {t : Tracker} {order : GoMap.Order PodAccessKey PodAccessSync}

/-- A pod keeps the entry that it has, and gets one from the first call that
needs anything. -/
theorem lookup_privateStart (pa : PodAccess) (k : PodAccessKey) :
    (privateStart cfg t pa).alivePods.lookup k =
      (t.alivePods.lookup k).or (if pa.needed ∧ pa.key = k then some (pa.sync cfg) else none) := by
  by_cases hneeded : pa.needed = true
  · have hskip : ¬ (!pa.shouldForward && !pa.shouldMount) = true := by
      simpa [PodAccess.needed, or_iff_not_imp_left] using hneeded
    rw [privateStart, if_neg hskip]
    by_cases hk : pa.key = k
    · subst hk
      cases hlive : t.alivePods.lookup pa.key with
      | none => simp [hneeded]
      | some lp => simp [hlive]
    · split
      · simp [hk]
      · simp [hk, Ne.symm hk]
  · have hskip : (!pa.shouldForward && !pa.shouldMount) = true := by
      simpa [PodAccess.needed] using hneeded
    simp [privateStart, hskip, hneeded]

theorem snapshot_privateStart (pa : PodAccess) : (privateStart cfg t pa).snapshot = t.snapshot := by
  unfold privateStart
  split_ifs <;> rfl

/-- What is left after `cancelUnwanted`. -/
theorem lookup_cancelUnwanted {k : PodAccessKey} {lp : PodAccessSync} :
    (t.cancelUnwanted order).alivePods.lookup k = some lp ↔
      t.alivePods.lookup k = some lp ∧ (t.snapshot.lookup k).isSome = true := by
  rw [cancelUnwanted, GoMap.Order.lookup_deleteWhere]
  simp [Option.isSome_iff_ne_none]

/-! ## A round -/

/-- The first call for a pod that needs anything. -/
def starter (pas : List PodAccess) (k : PodAccessKey) : Option PodAccess :=
  pas.find? fun pa => pa.needed && pa.key == k

theorem lookup_foldl_start (pas : List PodAccess) (k : PodAccessKey) :
    (pas.foldl (start cfg) t).alivePods.lookup k =
      (t.alivePods.lookup k).or ((starter pas k).map (·.sync cfg)) := by
  induction pas generalizing t with
  | nil => simp [starter]
  | cons pa pas ih =>
    rw [List.foldl_cons, ih, start, lookup_privateStart, Option.or_assoc]
    by_cases hfirst : pa.needed = true ∧ pa.key = k
    · simp [starter, hfirst]
    · have hnext : starter (pa :: pas) k = starter pas k := by
        rw [starter, List.find?_cons_of_neg (by simpa using hfirst), starter]
      rw [if_neg hfirst, hnext, Option.none_or]

theorem snapshot_foldl_start (pas : List PodAccess) (k : PodAccessKey) :
    ((pas.foldl (start cfg) t).snapshot.lookup k).isSome = true ↔
      (t.snapshot.lookup k).isSome = true ∨ ∃ pa ∈ pas, pa.key = k := by
  induction pas generalizing t with
  | nil => simp
  | cons pa pas ih =>
    rw [List.foldl_cons, ih, start, snapshot_privateStart, GoMap.lookup_insert_eq,
      List.exists_mem_cons_iff]
    by_cases hk : k = pa.key
    · simp [hk]
    · simp [hk, Ne.symm hk]

/-- **A round of calls.**  The pods that are asked for keep the entry they have,
or get one from the first call that needs anything; no other pod keeps one. -/
theorem lookup_round {pas : List PodAccess} {k : PodAccessKey} {lp : PodAccessSync} :
    (t.round cfg order pas).alivePods.lookup k = some lp ↔
      (∃ pa ∈ pas, pa.key = k) ∧
        (t.alivePods.lookup k).or ((starter pas k).map (·.sync cfg)) = some lp := by
  rw [round, lookup_cancelUnwanted, lookup_foldl_start, snapshot_foldl_start]
  simp [initSnapshot, and_comm]

end Tracker

end Telepresence.TrafficMgr
