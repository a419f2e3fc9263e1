import Telepresence.InterceptSpec

/-!
# What the client's session keeps

The agents, intercepts, ingests and workloads that the user daemon knows, as
`pkg/client/userd/trafficmgr` keeps them.  An ingest is identified by workload,
container and namespace; what it knows of its pod is the `AgentInfo` of one of
the workload's agents.
-/

namespace Telepresence.TrafficMgr

/-! ## Agents -/

/-- `manager.AgentInfo_ContainerInfo`. -/
structure ContainerInfo where
  environment : GoMap String String := ∅
  mountPoint : String := ""
  mounts : GoMap String Int := ∅
  deriving DecidableEq

/-- `manager.AgentInfo`. -/
structure AgentInfo where
  name : String
  kind : String := ""
  namespace_ : String
  podName : String
  podIp : String
  sftpPort : Int := 0
  ftpPort : Int := 0
  version : String := ""
  containers : GoMap String ContainerInfo := ∅
  deriving DecidableEq

/-! ## Intercepts -/

/-- `manager.InterceptSpec`. -/
structure InterceptSpec where
  name : String
  agent : String
  namespace_ : String
  containerName : String := ""
  localPorts : List String := []
  extraPorts : List Int := []
  noDefaultPort : Bool := false
  wiretap : Bool := false
  deriving DecidableEq

/-- `manager.InterceptInfo`. -/
structure InterceptInfo where
  id : String
  spec : InterceptSpec
  disposition : Disposition
  message : String := ""
  podIp : String := ""
  sftpPort : Int := 0
  ftpPort : Int := 0
  clientMountPoint : String := ""
  mountPoint : String := ""
  deriving DecidableEq

/-! ## Ingests -/

/-- `ingestKey`. -/
structure IngestKey where
  workload : String
  container : String
  namespace_ : String
  deriving DecidableEq

/-- `ingest`.  The agent that has been chosen has the container: `Ingest` and
`handleAgentSnapshot` look for it first. -/
structure Ingest where
  ingestKey : IngestKey
  agentInfo : AgentInfo
  /-- The identity of the context that `cancel` ends. -/
  ctx : Nat := 0
  localMountPoint : String := ""
  localMountPort : Int := 0
  localPorts : List String := []
  handlerContainer : String := ""
  hasContainer : (agentInfo.containers.lookup ingestKey.container).isSome

/-- `ig.Containers[ig.container]`. -/
def Ingest.containerInfo (ig : Ingest) : ContainerInfo :=
  (ig.agentInfo.containers.lookup ig.ingestKey.container).get ig.hasContainer

/-- `rpc.IngestInfo`. -/
structure IngestInfo where
  workload : String
  workloadKind : String
  container : String
  namespace_ : String
  podIp : String
  sftpPort : Int
  ftpPort : Int
  mountPoint : String
  mounts : GoMap String Int
  clientMountPoint : String
  environment : GoMap String String
  deriving DecidableEq

/-- `ingest.response`.  The source writes the name of the handler's container to
the environment of the agent itself, where each response writes it again. -/
def Ingest.response (ig : Ingest) : IngestInfo :=
  let cn := ig.containerInfo
  { workload := ig.ingestKey.workload
    workloadKind := ig.agentInfo.kind
    container := ig.ingestKey.container
    namespace_ := ig.ingestKey.namespace_
    podIp := ig.agentInfo.podIp
    sftpPort := ig.agentInfo.sftpPort
    ftpPort := ig.agentInfo.ftpPort
    mountPoint := cn.mountPoint
    mounts := cn.mounts
    clientMountPoint := ig.localMountPoint
    environment :=
      if ig.handlerContainer = "" then cn.environment
      else cn.environment.insert "TELEPRESENCE_HANDLER_CONTAINER_NAME" ig.handlerContainer }

/-- `currentIngests`: each ingest is stored under its own key. -/
structure Ingests where
  byKey : GoMap IngestKey Ingest := ∅
  keyed : ∀ key ig, byKey.lookup key = some ig → ig.ingestKey = key

instance : EmptyCollection Ingests := ⟨⟨∅, fun _ _ h => by simp at h⟩⟩

/-! ## Workloads -/

/-- `manager.WorkloadInfo_Kind`. -/
inductive Kind where
  | unspecified | deployment | replicaSet | statefulSet | rollout
  deriving DecidableEq

/-- `WorkloadInfo_Kind.String`. -/
def Kind.toString : Kind → String
  | unspecified => "UNSPECIFIED"
  | deployment => "DEPLOYMENT"
  | replicaSet => "REPLICASET"
  | statefulSet => "STATEFULSET"
  | rollout => "ROLLOUT"

/-- `workload.State`. -/
inductive State where
  | unknown | progressing | available | failure
  deriving DecidableEq

/-- `State.String`. -/
def State.toString : State → String
  | progressing => "Progressing"
  | available => "Available"
  | failure => "Failure"
  | unknown => "Unknown"

/-- `manager.WorkloadInfo_AgentState`. -/
inductive AgentState where
  | noAgent | installed | intercepted
  deriving DecidableEq

/-- `workloadInfoKey`. -/
structure WorkloadInfoKey where
  kind : Kind
  name : String
  deriving DecidableEq

/-- `workloadInfo`, where the service associations `σ` are only copied. -/
structure WorkloadInfo (σ : Type) where
  uid : String
  state : State
  agentState : AgentState
  interceptClients : List String
  desiredReplicas : Int
  readyReplicas : Int
  services : List σ
  deriving DecidableEq

end Telepresence.TrafficMgr
