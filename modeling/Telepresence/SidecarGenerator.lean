import Telepresence.Lib.Interning
import Telepresence.PortTypes

/-!
# Generating the configuration of a sidecar

`GeneratorConfig.Generate` of `pkg/agentmap/generator.go`: the containers of a
pod template, the services that select it and the annotations on it give the
intercepts of the sidecar.  Each container port that an intercept is for gets
an agent port from a counter, and `Sidecar.ProxyPort` gets a proxy port from
that (`pkg/agentconfig`).
-/

namespace Telepresence.AgentMap

open Telepresence.Types Interning

/-! ## Pods, services and sidecars -/

/-- `core.ContainerPort`. -/
structure ContainerPort where
  name : String := ""
  containerPort : Int
  protocol : String := ""
  deriving DecidableEq

/-- `core.Container`. -/
structure CoreContainer where
  name : String
  ports : List ContainerPort := []
  deriving DecidableEq

/-- `intstr.IntOrString`. -/
inductive IntOrString where
  | int (intVal : Int)
  | string (strVal : String)
  deriving DecidableEq

/-- `core.ServicePort`. -/
structure ServicePort where
  name : String := ""
  protocol : String := ""
  appProtocol : Option String := none
  port : Int
  targetPort : IntOrString
  deriving DecidableEq

/-- `core.Service`. -/
structure Service where
  name : String
  uid : String
  ports : List ServicePort
  deriving DecidableEq

/-- A workload with its pod template. -/
structure Workload where
  kind : String
  name : String
  ns : String
  labels : GoMap String String := ∅
  podName : String := ""
  annotations : GoMap String String := ∅
  containers : List CoreContainer

/-- `agentconfig.ReplacePolicy`. -/
inductive ReplacePolicy where
  | intercept | container | inactive
  deriving DecidableEq

/-- `agentconfig.Intercept`. -/
structure Intercept where
  containerPortName : String := ""
  serviceName : String := ""
  serviceUID : String := ""
  servicePortName : String := ""
  targetPortNumeric : Bool
  protocol : Proto
  appProtocol : String := ""
  containerPort : UInt16
  servicePort : UInt16 := 0
  agentPort : UInt16 := 0
  deriving DecidableEq

/-- `agentconfig.Container`. -/
structure Container where
  name : String
  intercepts : List Intercept
  replace : ReplacePolicy
  deriving DecidableEq

/-- `agentconfig.Sidecar`. -/
structure Sidecar where
  agentImage : String
  agentName : String
  ns : String
  workloadName : String
  workloadKind : String
  containers : List Container
  deriving DecidableEq

/-- `GeneratorConfig`. -/
structure GeneratorConfig where
  agentPort : UInt16
  qualifiedAgentImage : String

/-- What `Generate` asks outside this package: `FindServicesForPod` for the
name in an annotation, and `MountPolicies.AddAnnotations`, which can fail. -/
structure Cluster where
  findServicesForPod : Workload → String → Except String (List Service)
  addMountPolicies : GoMap String String → Except String Unit

/-- An error that is returned, or the use of a nil pointer. -/
inductive Failure where
  | error (text : String)
  | nilDereference
  deriving DecidableEq

/-- `agentconfig.ContainerName`. -/
def containerName : String := "traffic-agent"

/-- The conversion `uint16(n)`. -/
def uint16 (n : Int) : UInt16 := UInt16.ofNat (n % 65536).toNat

/-! ## Annotations -/

/-- `k8sapi.String`. -/
def Workload.text (wl : Workload) : String := wl.kind ++ " " ++ wl.name ++ "." ++ wl.ns

/-- `annotation.GetAnnotation`. -/
def getAnnotation (annotations : GoMap String String) (key deprecatedKey : String) : String :=
  match annotations.lookup key with
  | some value => value
  | none => (annotations.lookup deprecatedKey).getD ""

/-- `annotation.DomainPrefix` and `annotation.LegacyDomainPrefix`. -/
def domain : String := "telepresence.io/"

/-- The domain of annotations of old versions. -/
def legacyDomain : String := "telepresence.getambassador.io/"

/-- `portsFromAnnotationValue`. -/
def portsFromAnnotationValue (wl : Workload) (key value : String) :
    Except Failure (List String) :=
  (Strings.split value ',').mapM fun cp =>
    match validate cp with
    | some err => .error (.error
        ("unable to parse annotation " ++ key ++ " of " ++ wl.text ++ ": " ++ err))
    | none => .ok cp

/-- How `portsFromContainerPortsAnnotation` identifies a port. -/
def identifier (pn : ContainerPort) : String :=
  let pi := if pn.name = "" then toString pn.containerPort else pn.name
  if pn.protocol ≠ "TCP" then pi ++ "/" ++ pn.protocol else pi

/-- `portsFromContainerPortsAnnotation`. -/
def portsFromContainerPortsAnnotation (wl : Workload) : Except Failure (List String) :=
  let cpa := getAnnotation wl.annotations (domain ++ "inject-container-ports")
    (legacyDomain ++ "inject-container-ports")
  if cpa = "" then .ok []
  else if cpa = "all" then .ok (wl.containers.flatMap fun cn => cn.ports.map identifier)
  else portsFromAnnotationValue wl (domain ++ "inject-container-ports") cpa

/-- The service ports that the annotation selects. -/
def portsFromServicePortsAnnotation (wl : Workload) : Except Failure (List String) :=
  let ann := getAnnotation wl.annotations (domain ++ "inject-service-ports")
    (legacyDomain ++ "inject-service-port")
  if ann = "" then .ok []
  else portsFromAnnotationValue wl (domain ++ "inject-service-ports") ann

/-! ## Matching ports -/

/-- `filterServicePorts`. -/
def filterServicePorts (svc : Service) (portAnnotations : List String) : List ServicePort :=
  if portAnnotations.isEmpty then svc.ports
  else portAnnotations.flatMap fun pi =>
    let (proto, name, num) := protoAndNameOrNumber pi
    if name ≠ "" then svc.ports.filter fun port => port.name = name
    else svc.ports.filter fun port =>
      let target : Int :=
        match port.targetPort with
        | .int n => n
        | .string _ => 0
      let pn := if target = 0 then port.port else target
      (uint16 pn).toNat = num ∧ fromK8sProtocol port.protocol = proto

/-- The first port of the containers with a property, and its container. -/
def findPort (cns : List CoreContainer) (matched : ContainerPort → Bool) :
    Option (CoreContainer × ContainerPort) :=
  cns.findSome? fun cn => (cn.ports.find? matched).map fun p => (cn, p)

/-- `findContainerMatchingPort`.  No port stands for the index -1. -/
def findContainerMatchingPort (port : ServicePort) (cns : List CoreContainer) :
    Option (CoreContainer × Option ContainerPort) :=
  let proto := if port.protocol ≠ "" then port.protocol else "TCP"
  let protoEqual (p : String) : Bool := p = proto ∨ p = "" ∧ proto = "TCP"
  match port.targetPort with
  | .string portName =>
      (findPort cns fun p => p.name = portName && protoEqual p.protocol).map
        fun (cn, p) => (cn, some p)
  | .int intVal =>
      let portNum := if intVal = 0 then port.port else intVal
      match findPort cns fun p => p.containerPort = portNum && protoEqual p.protocol with
      | some (cn, p) => some (cn, some p)
      | none => (cns.find? fun cn => cn.ports.isEmpty).map fun cn => (cn, none)

/-- `findContainerPort`. -/
def findContainerPort (cns : List CoreContainer) (p : String) :
    Option (CoreContainer × ContainerPort) :=
  let (proto, name, num) := protoAndNameOrNumber p
  findPort (cns.filter fun cn => cn.name ≠ containerName) fun appPort =>
    (name ≠ "" ∧ name = appPort.name ∨ num = (uint16 appPort.containerPort).toNat) ∧
      (proto.string = appPort.protocol ∨ proto = .tcp ∧ appPort.protocol = "")

/-! ## Intercepts -/

/-- An intercept that is to be added to the configuration of a container, the
number of the port that its agent port is looked up with, and whether it is
one without a service. -/
structure Request where
  container : CoreContainer
  number : Int
  intercept : Intercept
  serviceLess : Bool

/-- The request for a service port, unless no container matches it. -/
def serviceRequest (svc : Service) (cns : List CoreContainer) (port : ServicePort) :
    Option Request :=
  match findContainerMatchingPort port cns with
  | none => none
  | some (cn, i) =>
      if cn.name = containerName then none
      else
        let appPort : ContainerPort :=
          match i, port.targetPort with
          | some p, _ => p
          | none, .int intVal => { containerPort := intVal, protocol := port.protocol }
          | none, .string _ => { containerPort := 0, protocol := port.protocol }
        some {
          container := cn
          number := appPort.containerPort
          intercept := {
            serviceName := svc.name
            serviceUID := svc.uid
            servicePortName := port.name
            servicePort := uint16 port.port
            targetPortNumeric := match port.targetPort with
              | .int _ => true
              | .string _ => false
            protocol := fromK8sProtocol port.protocol
            containerPortName := appPort.name
            containerPort := uint16 appPort.containerPort
            appProtocol := port.appProtocol.getD "" }
          serviceLess := false }

/-- The request for a container port. -/
def containerRequest (cn : CoreContainer) (appPort : ContainerPort) : Request where
  container := cn
  number := appPort.containerPort
  intercept := {
    targetPortNumeric := true
    protocol := fromK8sProtocol appPort.protocol
    containerPortName := appPort.name
    containerPort := uint16 appPort.containerPort }
  serviceLess := true

/-- `containerReplacePolicy`. -/
def containerReplacePolicy (existingConfig : Option Sidecar) (cn : CoreContainer) :
    ReplacePolicy :=
  match existingConfig.bind fun sc => sc.containers.find? fun cc => cc.name = cn.name with
  | some cc => cc.replace
  | none => .intercept

/-- Add an intercept to the configuration of its container, or a configuration
for the container.  One without a service is not added if the container has an
intercept for the port. -/
def appendIntercept (serviceLess : Bool) (new : Container) (ic : Intercept) :
    List Container → List Container
  | [] => [{ new with intercepts := [ic] }]
  | cc :: ccs =>
      if cc.name = new.name then
        if serviceLess && cc.intercepts.any (fun eic => eic.containerPort = ic.containerPort) then
          cc :: ccs
        else { cc with intercepts := cc.intercepts ++ [ic] } :: ccs
      else cc :: appendIntercept serviceLess new ic ccs

/-- The container has a configuration already, or gets one at the end. -/
theorem names_appendIntercept (serviceLess : Bool) (new : Container) (ic : Intercept)
    (ccs : List Container) :
    (appendIntercept serviceLess new ic ccs).map (·.name) =
      ccs.map (·.name) ++ if new.name ∈ ccs.map (·.name) then [] else [new.name] := by
  induction ccs with
  | nil => rfl
  | cons cc ccs ih =>
    rw [appendIntercept]
    by_cases hname : cc.name = new.name
    · rw [if_pos hname]
      split <;> simp [hname]
    · rw [if_neg hname, List.map_cons, ih, List.map_cons, List.cons_append]
      simp [Ne.symm hname]

/-- The ports given out so far, and the configurations of the containers. -/
structure Allocation where
  pns : GoMap Int UInt16 := ∅
  ccs : List Container := []

/-- The value for a key of `pns` that is not there yet. -/
def nextAgentPort (cfg : GeneratorConfig) (len : Nat) : UInt16 := cfg.agentPort + UInt16.ofNat len

/-- `agentPortNumberFunc`. -/
def agentPortNumber (cfg : GeneratorConfig) (pns : GoMap Int UInt16) (cnPort : Int) :
    UInt16 × GoMap Int UInt16 := intern (nextAgentPort cfg) pns cnPort

/-- Give a request its agent port, and add its intercept. -/
def Allocation.add (cfg : GeneratorConfig) (existingConfig : Option Sidecar) (st : Allocation)
    (r : Request) : Allocation :=
  let (agentPort, pns) := agentPortNumber cfg st.pns r.number
  let new : Container :=
    { name := r.container.name
      intercepts := []
      replace := containerReplacePolicy existingConfig r.container }
  { pns, ccs := appendIntercept r.serviceLess new { r.intercept with agentPort } st.ccs }

/-- `appendAgentContainerConfigs`. -/
def appendAgentContainerConfigs (cfg : GeneratorConfig) (existingConfig : Option Sidecar)
    (cns : List CoreContainer) (portAnnotations : List String) (st : Allocation) (svc : Service) :
    Allocation :=
  (filterServicePorts svc portAnnotations).foldl
    (fun st port =>
      match serviceRequest svc cns port with
      | none => st
      | some r => st.add cfg existingConfig r) st

/-- The request for a port of the annotation.  A port that is synthesized has
no container, and the pointer to the container is used all the same. -/
def serviceLessRequest (cns : List CoreContainer) (p : String) : Except Failure Request :=
  match findContainerPort cns p with
  | some (cn, appPort) => .ok (containerRequest cn appPort)
  | none =>
      if (protoAndNameOrNumber p).2.1 ≠ "" then
        .error (.error ("found no container port that matches port annotation " ++
          portIdentifierString p))
      else .error .nilDereference

/-- `appendServiceLessAgentContainerConfigs`. -/
def appendServiceLessAgentContainerConfigs (cfg : GeneratorConfig)
    (existingConfig : Option Sidecar) (cns : List CoreContainer) (portAnnotations : List String)
    (st : Allocation) : Except Failure Allocation :=
  portAnnotations.foldlM
    (fun st p => do
      let r ← serviceLessRequest cns p
      return st.add cfg existingConfig r) st

/-! ## Generate -/

/-- `TrafficManagerSelector.Matches`. -/
def isTrafficManager (labels : GoMap String String) : Bool :=
  labels.lookup "app" = some "traffic-manager" ∧ labels.lookup "telepresence" = some "manager"

/-- The containers of the pod, except for the traffic-agent. -/
def Workload.appContainers (wl : Workload) : List CoreContainer :=
  wl.containers.filter fun cn => cn.name ≠ containerName

/-- The error for a container that exposes the port of the agent. -/
def agentPortExposed (cfg : GeneratorConfig) (wl : Workload) : Option String :=
  wl.appContainers.findSome? fun cn =>
    if cn.ports.any fun p => p.containerPort = cfg.agentPort.toNat then
      some ("the " ++ wl.podName ++ "." ++ wl.ns ++ " pod container " ++ cn.name ++
        " is exposing the same port (" ++ toString cfg.agentPort.toNat ++ ") as the " ++
        containerName ++ " sidecar")
    else none

/-- The configurations of the containers that have none yet. -/
def otherContainers (existingConfig : Option Sidecar) (wl : Workload) (ccs : List Container) :
    List Container :=
  wl.appContainers.foldl
    (fun ccs cn =>
      if ccs.any fun cc => cc.name = cn.name then ccs
      else ccs ++ [{ name := cn.name
                     intercepts := []
                     replace := containerReplacePolicy existingConfig cn }]) ccs

/-- `GeneratorConfig.Generate`. -/
def generate (cfg : GeneratorConfig) (cluster : Cluster) (wl : Workload)
    (existingConfig : Option Sidecar) : Except Failure Sidecar :=
  if isTrafficManager wl.labels then
    .error (.error (wl.text ++
      " is the Telepresence Traffic Manager. It can not have a traffic-agent"))
  else
    match agentPortExposed cfg wl with
    | some err => .error (.error err)
    | none => do
        let ann := getAnnotation wl.annotations (domain ++ "inject-service-name")
          (legacyDomain ++ "inject-service-name")
        let svcs ← (cluster.findServicesForPod wl ann).mapError Failure.error
        let servicePorts ← portsFromServicePortsAnnotation wl
        (cluster.addMountPolicies wl.annotations).mapError Failure.error
        let st := svcs.foldl
          (appendAgentContainerConfigs cfg existingConfig wl.containers servicePorts) {}
        let ports ← portsFromContainerPortsAnnotation wl
        let st ← appendServiceLessAgentContainerConfigs cfg existingConfig wl.containers ports st
        return {
          agentImage := cfg.qualifiedAgentImage
          agentName := wl.name
          ns := wl.ns
          workloadName := wl.name
          workloadKind := wl.kind
          containers := otherContainers existingConfig wl st.ccs }

/-! ## The ports of a sidecar -/

/-- The intercepts of a container for a port, if there are any. -/
def Container.interceptTarget (c : Container) (containerPort : UInt16) (proto : Proto) :
    Option (List Intercept) :=
  match c.intercepts.filter fun ic => ic.containerPort = containerPort ∧ ic.protocol = proto with
  | [] => none
  | it => some it

namespace Sidecar

/-- All intercepts. -/
def intercepts (s : Sidecar) : List Intercept := s.containers.flatMap Container.intercepts

/-- `numberOfPossibleIntercepts`. -/
def numberOfPossibleIntercepts (s : Sidecar) : Nat :=
  (s.containers.map fun c => c.intercepts.length).sum

/-- `ProxyPort`. -/
def proxyPort (s : Sidecar) (agentPort : UInt16) : UInt16 :=
  agentPort + 11 + UInt16.ofNat s.numberOfPossibleIntercepts

/-- `InterceptTarget`: the intercepts of the first container that has one for
the port. -/
def interceptTarget (s : Sidecar) (containerPort : UInt16) (proto : Proto) : List Intercept :=
  (s.containers.findSome? fun c => c.interceptTarget containerPort proto).getD []

/-- `InterceptorInactivePort`. -/
def interceptorInactivePort (s : Sidecar) (containerPort : UInt16) (proto : Proto) : UInt16 :=
  match s.interceptTarget containerPort proto with
  | [] => containerPort
  | ic :: it =>
      if (ic :: it).any Intercept.targetPortNumeric then s.proxyPort ic.agentPort
      else containerPort

end Sidecar

end Telepresence.AgentMap
