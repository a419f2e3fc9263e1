import Telepresence.AgentContainer
import Telepresence.InactivePorts
import Telepresence.Lib.IndexedEdits

/-!
# The patch of the injector

`createPatch` of `manager/mutator/agent_injector.go` returns the operations of
a JSON Patch that turn a pod into one with a traffic-agent.  All paths are
computed on the pod as it is before the patch.

The operations on the containers are those of `IndexedEdits`.  A path such as
`/spec/containers/2/env` is for an edit at position 2.  The other members of the
pod do not get in the way (`Pod.patched_eq`), and the operations on them always
succeed (`exists_run_members`).
-/

namespace Telepresence.Injection

open List Option

open AgentMap (ContainerPort IntOrString ReplacePolicy containerName)
open AgentConfig (initContainerName)
open IndexedEdits Runs

variable {ρ : Type}

/-! ## Pods -/

/-- `core.EnvVar`. -/
structure EnvVar (ρ : Type) where
  name : String
  value : String
  valueFrom : Option ρ := none
  deriving DecidableEq

/-- The probes of a container. -/
inductive ProbeKind where
  | livenessProbe | readinessProbe | startupProbe
  deriving DecidableEq

/-- The handlers of a probe that have a port. -/
inductive Handler where
  | httpGet | tcpSocket
  deriving DecidableEq

/-- `core.Container`.  The ports of its probes are by probe and handler, and
`rest` is what is not looked at. -/
structure PodContainer (ρ : Type) where
  name : String
  ports : List ContainerPort := []
  env : Option (List (EnvVar ρ)) := none
  probePort : ProbeKind × Handler → Option IntOrString := fun _ => none
  rest : ρ

/-- `core.Volume`. -/
structure Volume (ρ : Type) where
  name : String
  rest : ρ

/-- The members of a pod apart from its containers.  Each can be absent. -/
structure Members (ρ : Type) where
  annotations : Option (GoMap String String) := none
  labels : Option (GoMap String String) := none
  initContainers : Option (List (PodContainer ρ)) := none
  volumes : Option (List (Volume ρ)) := none
  imagePullSecrets : Option (List String) := none

open Members

/-- `core.Pod`. -/
structure Pod (ρ : Type) extends Members ρ where
  containers : List (PodContainer ρ)

/-! ## JSON Patch -/

/-- What an operation does inside a container: `replace` at `ports/j/name`, at
a probe such as `livenessProbe/httpGet/port` and at `env`, where the value is
the empty list, and `add` at the end of `env`. -/
inductive Edit (ρ : Type) where
  | portName (j : Nat) (name : String)
  | probePort (k : ProbeKind × Handler) (name : String)
  | clearEnv
  | addEnv (e : EnvVar ρ)

/-- A `replace` needs the parent of what it replaces, and an `add` the list. -/
def Edit.apply (cn : PodContainer ρ) : Edit ρ → Option (PodContainer ρ)
  | .portName j name =>
      cn.ports[j]?.map fun p => { cn with ports := cn.ports.set j { p with name := name } }
  | .probePort k name =>
      (cn.probePort k).map fun _ =>
        { cn with probePort := Function.update cn.probePort k (some (.string name)) }
  | .clearEnv => some { cn with env := some [] }
  | .addEnv e => cn.env.map fun env => { cn with env := some (env ++ [e]) }

/-- An operation on a list that can be absent. -/
inductive ListOp (α : Type) where
  | replace (as : List α)
  | elements (op : Op α Empty)

/-- An operation on a member that is a list, which may be missing. -/
def ListOp.apply {α : Type} (m : Option (List α)) : ListOp α → Option (List α)
  | .replace as => some as
  | .elements op => m.bind fun l => op.apply (fun _ e => e.elim) l

/-- An operation on another member of the pod than its containers. -/
inductive MemberOp (ρ : Type) where
  | annotations (am : GoMap String String)
  | labels (lm : GoMap String String)
  | initContainers (op : ListOp (PodContainer ρ))
  | volumes (op : ListOp (Volume ρ))
  | imagePullSecrets (op : ListOp String)

/-- Such an operation is applied. -/
def Members.apply (m : Members ρ) : MemberOp ρ → Option (Members ρ)
  | .annotations am => some { m with annotations := some am }
  | .labels lm => some { m with labels := some lm }
  | .initContainers op => (op.apply m.initContainers).map fun l => { m with initContainers := some l }
  | .volumes op => (op.apply m.volumes).map fun l => { m with volumes := some l }
  | .imagePullSecrets op =>
      (op.apply m.imagePullSecrets).map fun l => { m with imagePullSecrets := some l }

/-- `PatchOperation`. -/
inductive PatchOperation (ρ : Type) where
  | containers (op : Op (PodContainer ρ) (Edit ρ))
  | member (op : MemberOp ρ)

open PatchOperation

namespace Pod

/-- An operation is applied to a pod. -/
def apply (pod : Pod ρ) : PatchOperation ρ → Option (Pod ρ)
  | .containers op =>
      (op.apply Edit.apply pod.containers).map fun cns => { pod with containers := cns }
  | .member op => (pod.toMembers.apply op).map fun m => { m with containers := pod.containers }

/-- The pod after the patch; `none` if an operation fails. -/
def patched (pod : Pod ρ) (patches : List (PatchOperation ρ)) : Option (Pod ρ) :=
  run apply pod patches

end Pod

namespace PatchOperation

/-- The operation, if it is one on the containers. -/
def onContainers : PatchOperation ρ → Option (Op (PodContainer ρ) (Edit ρ))
  | .containers op => some op
  | .member _ => none

/-- The operation, if it is one on another member. -/
def onMembers : PatchOperation ρ → Option (MemberOp ρ)
  | .containers _ => none
  | .member op => some op

theorem filterMap_containers (ops : List (Op (PodContainer ρ) (Edit ρ))) :
    (ops.map containers).filterMap onContainers = ops ∧
      (ops.map containers).filterMap onMembers = [] := by
  induction ops with
  | nil => exact ⟨rfl, rfl⟩
  | cons op ops ih => exact ⟨congrArg (op :: ·) ih.1, ih.2⟩

theorem filterMap_member (ops : List (MemberOp ρ)) :
    (ops.map member).filterMap onContainers = [] ∧
      (ops.map member).filterMap onMembers = ops := by
  induction ops with
  | nil => exact ⟨rfl, rfl⟩
  | cons op ops ih => exact ⟨ih.1, congrArg (op :: ·) ih.2⟩

end PatchOperation

/-- The containers and the other members are patched separately. -/
theorem Pod.patched_eq (pod : Pod ρ) (patches : List (PatchOperation ρ)) :
    pod.patched patches =
      (run (Op.apply Edit.apply) pod.containers
          (patches.filterMap onContainers)).bind fun cns =>
        (run Members.apply pod.toMembers (patches.filterMap onMembers)).map fun m =>
          { m with containers := cns } := by
  induction patches generalizing pod with
  | nil => rfl
  | cons p patches ih =>
    cases p with
    | containers op =>
      simp only [patched, filterMap_cons, onContainers,
        onMembers, run, apply]
      cases op.apply Edit.apply pod.containers with
      | none => rfl
      | some cns => exact ih _
    | member op =>
      simp only [patched, filterMap_cons, onContainers,
        onMembers, run, apply]
      cases pod.toMembers.apply op with
      | none =>
        cases run (Op.apply Edit.apply) pod.containers
          (patches.filterMap onContainers) <;> rfl
      | some m => exact ih _

/-! ## The configuration -/

/-- `agentconfig.Intercept`. -/
structure Intercept extends AgentMap.Intercept where
  headless : Bool := false

/-- `agentconfig.Container`. -/
structure Container where
  name : String
  intercepts : List Intercept := []
  replace : ReplacePolicy

/-- `agentconfig.Sidecar`. -/
structure Sidecar where
  workloadName : String
  workloadKind : String
  containers : List Container
  apiPort : UInt16 := 0
  pullSecrets : List String := []

/-- `PortUniqueIntercepts`. -/
def portUniqueIntercepts (cn : Container) : List Intercept :=
  AgentInit.portUniqueLoop (fun ic => AgentInit.portAndProto ic.toIntercept) [] cn.intercepts

/-- What the manager has from its environment, and what the functions that
build the parts of the agent return for the pod and the configuration. -/
structure Injector (ρ : Type) where
  agentInitContainerEnabled : Bool := true
  /-- `InitContainer`, with the security context of `AgentSecurityContext`. -/
  initContainer : Except String (PodContainer ρ)
  /-- The comparisons of an init container with the one that the pod has. -/
  initContainerEqual : PodContainer ρ → PodContainer ρ → Bool
  /-- `AgentContainer`: the container and annotations. -/
  agentContainer : Except String (PodContainer ρ × GoMap String String)
  agentContainer_name : ∀ x, agentContainer = .ok x → x.1.name = containerName
  containerEqual : PodContainer ρ → PodContainer ρ → Bool
  agentVolumes : Except String (List (Volume ρ))

/-- The first container with a name, and its position. -/
def firstNamed (cns : List (PodContainer ρ)) (name : String) : Option (Nat × PodContainer ρ) :=
  (cns.findIdx? fun cn => cn.name = name).bind fun i => cns[i]?.map fun cn => (i, cn)

theorem firstNamed_eq_some_iff {cns : List (PodContainer ρ)} {name : String} {i : Nat}
    {cn : PodContainer ρ} : firstNamed cns name = some (i, cn) ↔
      cns[i]? = some cn ∧ cn.name = name ∧ ∀ j < i, ∀ cn', cns[j]? = some cn' → cn'.name ≠ name := by
  simp only [firstNamed, bind_eq_some_iff, map_eq_some_iff, Prod.mk.injEq,
    findIdx?_eq_some_iff_getElem]
  constructor
  · intro ⟨j, ⟨hj, hname, hbefore⟩, cn', hcn', hij, heq⟩
    subst hij heq
    obtain ⟨_, rfl⟩ := List.getElem?_eq_some_iff.mp hcn'
    refine ⟨hcn', by simpa using hname, fun k hk cn'' hcn'' => ?_⟩
    obtain ⟨_, rfl⟩ := List.getElem?_eq_some_iff.mp hcn''
    simpa using hbefore k hk
  · intro ⟨hcn, hname, hbefore⟩
    obtain ⟨hi, rfl⟩ := List.getElem?_eq_some_iff.mp hcn
    refine ⟨i, ⟨hi, by simpa using hname, fun j hj => ?_⟩, _, hcn, rfl, rfl⟩
    simpa using hbefore j hj _ (getElem?_eq_getElem (by omega))

/-- What `EachContainer` passes to its function, with the position of the
container. -/
structure Match (ρ : Type) where
  index : Nat
  app : PodContainer ρ
  cc : Container

/-- `EachContainer`. -/
def eachContainer (config : Sidecar) (pod : Pod ρ) : List (Match ρ) :=
  config.containers.filterMap fun cc =>
    (firstNamed pod.containers cc.name).map fun x => ⟨x.1, x.2, cc⟩

/-! ## The parts of the agent -/

/-- `needInitContainer`. -/
def needInitContainer (k : Injector ρ) (config : Sidecar) : Bool :=
  k.agentInitContainerEnabled && config.containers.any fun cc =>
    cc.replace = .intercept && cc.intercepts.any fun ic => ic.headless || ic.targetPortNumeric

/-- `addInitContainer`. -/
def addInitContainer (k : Injector ρ) (pod : Pod ρ) (config : Sidecar) :
    Except String (List (MemberOp ρ)) :=
  let pis := pod.initContainers.getD []
  if needInitContainer k config then do
    let ic ← k.initContainer
    if pis.isEmpty then .ok [.initContainers (.replace [ic])]
    else
      match firstNamed pis ic.name with
      | some (i, oc) =>
          if k.initContainerEqual ic oc then .ok []
          else .ok [.initContainers (.elements (.set i ic))]
      | none => .ok [.initContainers (.elements (.append ic))]
  else
    match firstNamed pis initContainerName with
    | some (i, _) => .ok [.initContainers (.elements (.remove i))]
    | none => .ok []

/-- `addAgentContainer`, for the container that `AgentContainer` returns. -/
def addAgentContainer (k : Injector ρ) (pod : Pod ρ) (acn : PodContainer ρ) :
    List (Op (PodContainer ρ) (Edit ρ)) :=
  match firstNamed pod.containers containerName with
  | some (i, pcn) => if k.containerEqual pcn acn then [] else [.set i acn]
  | none => [.append acn]

/-- `addPullSecrets`. -/
def addPullSecrets (pod : Pod ρ) (config : Sidecar) : List (MemberOp ρ) :=
  let ips := pod.imagePullSecrets.getD []
  if config.pullSecrets.isEmpty then []
  else if ips.isEmpty then [.imagePullSecrets (.replace config.pullSecrets)]
  else (config.pullSecrets.filter fun nps => nps ∉ ips).map fun nps =>
    .imagePullSecrets (.elements (.append nps))

/-- `ExportsVolumeName`. -/
def exportsVolumeName : String := "export-volume"

/-- `addAgentVolumes`. -/
def addAgentVolumes (k : Injector ρ) (pod : Pod ρ) : Except String (List (MemberOp ρ)) :=
  if (pod.volumes.getD []).any fun vol => vol.name = exportsVolumeName then .ok []
  else
    match k.agentVolumes with
    | .error e => .error ("unable to create agent volumes: " ++ e)
    | .ok avs =>
        if avs.isEmpty then .ok []
        else
          match pod.volumes with
          | none => .ok [.volumes (.replace avs)]
          | some _ => .ok (avs.map fun av => .volumes (.elements (.append av)))

/-- `addPodAnnotations`. -/
def addPodAnnotations (pod : Pod ρ) (anns : GoMap String String) : List (MemberOp ρ) :=
  let am := pod.annotations.getD ∅
  let missing := anns.filter fun key _ => (am.lookup key).isNone
  if missing.keys.isEmpty then [] else [.annotations (missing ∪ am)]

/-- `DomainPrefix`. -/
def domain : String := "telepresence.io/"

/-- `addPodLabels`. -/
def addPodLabels (pod : Pod ρ) (config : Sidecar) : List (MemberOp ρ) :=
  let lm := pod.labels.getD ∅
  let missing := [(domain ++ "workloadName", config.workloadName),
    (domain ++ "workloadKind", config.workloadKind),
    (domain ++ "workloadEnabled", "true")].filter fun x => (lm.lookup x.1).isNone
  if missing.isEmpty then [] else [.labels (GoMap.insertPairs missing lm)]

/-! ## The ports -/

/-- The length that a port name may have. -/
def maxPortNameLen : Nat := 15

/-- `hiddenPortName`.  Port names are ASCII. -/
def hiddenPortName (name : String) (ordinal : Nat) : String :=
  let hiddenName := "tm-" ++ name
  if hiddenName.length > maxPortNameLen then
    if ordinal > 0 then
      String.ofList (hiddenName.toList.take (maxPortNameLen - 2) ++ Nat.toDigits 16 ordinal)
    else String.ofList (hiddenName.toList.take maxPortNameLen)
  else hiddenName

/-- `StrVal`, which a number does not have. -/
def strVal : IntOrString → String
  | .int _ => ""
  | .string s => s

/-- The probes and handlers in the order in which they are looked at. -/
def probeHandlers : List (ProbeKind × Handler) :=
  [.livenessProbe, .readinessProbe, .startupProbe].flatMap fun p => [(p, .httpGet), (p, .tcpSocket)]

/-- `hideContainerPorts`, inside the container. -/
def hideContainerPorts (app : PodContainer ρ) (portName : String) : List (Edit ρ) :=
  let hidden := hiddenPortName portName 0
  (app.ports.findIdx? fun p => p.name = portName).toList.map (.portName · hidden) ++
    (probeHandlers.filter fun k => (app.probePort k).map strVal = some portName).map
      (.probePort · hidden)

/-- The names of the ports that are hidden. -/
def Container.hidden (cc : Container) : List String :=
  if cc.replace = .intercept then
    ((portUniqueIntercepts cc).filter fun ic => !(ic.headless || ic.targetPortNumeric)).map
      (·.containerPortName)
  else []

/-- `hidePorts`. -/
def hidePorts (pod : Pod ρ) (config : Sidecar) : List (Nat × Edit ρ) :=
  (eachContainer config pod).flatMap fun m =>
    (m.cc.hidden.flatMap (hideContainerPorts m.app)).map fun e => (m.index, e)

/-! ## The containers that are replaced, and the environments -/

/-- `maybeRemoveAppContainer`. -/
def maybeRemoveAppContainer (pod : Pod ρ) (config : Sidecar) :
    List (Op (PodContainer ρ) (Edit ρ)) :=
  pod.containers.zipIdx.reverse.flatMap fun x =>
    (config.containers.filter fun cc => cc.name = x.1.name ∧ cc.replace = .container).map fun _ =>
      .remove x.2

/-- The first loop of `addContainerTPEnv`. -/
def missingEnv (env : GoMap String String) (cn : PodContainer ρ) : GoMap String String :=
  (cn.env.getD []).foldl
    (fun env e =>
      if e.valueFrom.isNone ∧ (env.lookup e.name).getD "" = e.value then env.erase e.name else env)
    env

/-- The variables that are added. -/
def addedEnv (env : GoMap String String) : List (EnvVar ρ) :=
  (env.keys.mergeSort fun a b => decide (a ≤ b)).map fun k => ⟨k, (env.lookup k).getD "", none⟩

/-- The rest of `addContainerTPEnv`, inside the container. -/
def addContainerTPEnv (cn : PodContainer ρ) (env : GoMap String String) : List (Edit ρ) :=
  if env.keys.isEmpty then []
  else (if cn.env.isNone then [.clearEnv] else []) ++ (addedEnv env).map .addEnv

/-- The loop of `addTPEnv`.  The map is shared, so what is deleted from it for
one container is gone for the next ones. -/
def tpEnvLoop (env : GoMap String String) : List (Match ρ) → List (Nat × Edit ρ)
  | [] => []
  | m :: ms =>
      if m.cc.replace = .container then tpEnvLoop env ms
      else
        (addContainerTPEnv m.app (missingEnv env m.app)).map (fun e => (m.index, e)) ++
          tpEnvLoop (missingEnv env m.app) ms

/-- `addTPEnv`. -/
def addTPEnv (pod : Pod ρ) (config : Sidecar) (env : GoMap String String) : List (Nat × Edit ρ) :=
  tpEnvLoop env (eachContainer config pod)

/-- `EnvAPIHost` and `EnvAPIPort`. -/
def envAPIHost : String := "TELEPRESENCE_API_HOST"

@[inherit_doc envAPIHost]
def envAPIPort : String := "TELEPRESENCE_API_PORT"

/-- The variables for an application, if there is an API server. -/
def Sidecar.tpEnv (config : Sidecar) : GoMap String String :=
  if config.apiPort ≠ 0 then
    GoMap.insertPairs [(envAPIHost, "localhost"), (envAPIPort, toString config.apiPort.toNat)] ∅
  else ∅

/-! ## `createPatch` -/

/-- `createPatch`. -/
def createPatch (k : Injector ρ) (pod : Pod ρ) (config : Sidecar) :
    Except String (List (PatchOperation ρ)) := do
  let init ← addInitContainer k pod config
  let (acn, anns) ← k.agentContainer
  let volumes ← addAgentVolumes k pod
  let anns := anns.insert (domain ++ "inject-traffic-agent") "enabled"
  .ok (init.map .member ++ (addAgentContainer k pod acn).map .containers ++
    (addPullSecrets pod config).map .member ++ volumes.map .member ++
    (edits (hidePorts pod config)).map .containers ++ (addPodAnnotations pod anns).map .member ++
    (addPodLabels pod config).map .member ++ (maybeRemoveAppContainer pod config).map .containers ++
    if config.apiPort ≠ 0 then (edits (addTPEnv pod config config.tpEnv)).map .containers else [])

/-! ## The members -/

variable {m : Members ρ}

/-- An operation on the init containers that have a certain position. -/
theorem apply_initContainers {i : Nat} {cn : PodContainer ρ} {name : String}
    (h : firstNamed (m.initContainers.getD []) name = some (i, cn)) :
    (∃ l, run apply m [.initContainers (.elements (.remove i))] =
        some { m with initContainers := l }) ∧
      ∀ ic, ∃ l, run apply m [.initContainers (.elements (.set i ic))] =
        some { m with initContainers := l } := by
  have hi := (List.getElem?_eq_some_iff.mp (firstNamed_eq_some_iff.mp h).1).1
  cases hm : m.initContainers with
  | none =>
    rw [hm] at hi
    exact absurd hi (Nat.not_lt_zero i)
  | some pis =>
    rw [hm] at hi
    have hi : i < pis.length := hi
    constructor
    · exact ⟨some (pis.eraseIdx i), by simp [run, apply, ListOp.apply, Op.apply, hm, hi]⟩
    · intro ic
      exact ⟨some (pis.set i ic), by simp [run, apply, ListOp.apply, Op.apply, hm, hi]⟩

variable {k : Injector ρ} {pod : Pod ρ}

theorem exists_run_addInitContainer {config : Sidecar} {init : List (MemberOp ρ)}
    (h : addInitContainer k pod config = .ok init) :
    ∃ l, run apply pod.toMembers init = some { pod.toMembers with initContainers := l } := by
  have hsame : ∃ l, run apply pod.toMembers [] =
      some { pod.toMembers with initContainers := l } := ⟨pod.initContainers, rfl⟩
  simp only [addInitContainer] at h
  split at h
  · obtain ⟨ic, hic, h⟩ := Results.bind_eq_ok.mp h
    split at h
    · cases h
      exact ⟨some [ic], rfl⟩
    · rename_i hempty
      split at h
      · rename_i i oc hfirst
        split at h
        · cases h
          exact hsame
        · cases h
          exact (apply_initContainers hfirst).2 ic
      · cases h
        cases hm : pod.initContainers with
        | none =>
          rw [hm] at hempty
          exact absurd rfl hempty
        | some pis =>
          exact ⟨some (pis ++ [ic]), by simp [run, apply, ListOp.apply, Op.apply, hm]⟩
  · split at h
    · rename_i i oc hfirst
      cases h
      exact (apply_initContainers hfirst).1
    · cases h
      exact hsame

theorem exists_run_addPullSecrets (pod : Pod ρ) (config : Sidecar)
    (h : m.imagePullSecrets = pod.imagePullSecrets) :
    ∃ l, run apply m (addPullSecrets pod config) = some { m with imagePullSecrets := l } := by
  simp only [addPullSecrets]
  split
  · exact ⟨m.imagePullSecrets, rfl⟩
  · split
    · exact ⟨_, rfl⟩
    · rename_i hempty
      cases hm : pod.imagePullSecrets with
      | none =>
        rw [hm] at hempty
        exact absurd rfl hempty
      | some ips =>
        obtain ⟨am, lm, ics, vols, _⟩ := m
        cases h.trans hm
        exact ⟨_, run_appends (P := fun l => mk am lm ics vols (some l)) (fun _ _ => rfl) ..⟩

theorem exists_run_addAgentVolumes {volumes : List (MemberOp ρ)}
    (hvolumes : addAgentVolumes k pod = .ok volumes) (h : m.volumes = pod.volumes) :
    ∃ l, run apply m volumes = some { m with volumes := l } := by
  have hsame : ∃ l, run apply m [] = some { m with volumes := l } := ⟨m.volumes, rfl⟩
  simp only [addAgentVolumes] at hvolumes
  split at hvolumes
  · cases hvolumes
    exact hsame
  · split at hvolumes
    · cases hvolumes
    · split at hvolumes
      · cases hvolumes
        exact hsame
      · split at hvolumes
        · cases hvolumes
          exact ⟨_, rfl⟩
        · rename_i vols hpod
          cases hvolumes
          obtain ⟨am, lm, ics, _, ips⟩ := m
          cases h.trans hpod
          exact ⟨_, run_appends (P := fun l => mk am lm ics (some l) ips) (fun _ _ => rfl) ..⟩

/-- Annotations and labels can be set whatever they were. -/
theorem exists_run_metadata (pod : Pod ρ) (config : Sidecar) (anns : GoMap String String)
    (m : Members ρ) :
    ∃ m', run apply m (addPodAnnotations pod anns ++ addPodLabels pod config) = some m' := by
  have hannotations : ∃ m', run apply m (addPodAnnotations pod anns) = some m' := by
    simp only [addPodAnnotations]
    split <;> exact ⟨_, rfl⟩
  obtain ⟨m', hm'⟩ := hannotations
  rw [run_append, hm', bind_some]
  simp only [addPodLabels]
  split <;> exact ⟨_, rfl⟩

/-- **The members of the pod** can be patched. -/
theorem exists_run_members (config : Sidecar) {init volumes : List (MemberOp ρ)}
    (hinit : addInitContainer k pod config = .ok init)
    (hvolumes : addAgentVolumes k pod = .ok volumes) (anns : GoMap String String) :
    ∃ m, run apply pod.toMembers (init ++ addPullSecrets pod config ++ volumes ++
      (addPodAnnotations pod anns ++ addPodLabels pod config)) = some m := by
  obtain ⟨ics, hics⟩ := exists_run_addInitContainer hinit
  obtain ⟨secrets, hsecrets⟩ := exists_run_addPullSecrets pod config
    (m := { pod.toMembers with initContainers := ics }) rfl
  obtain ⟨vols, hvols⟩ := exists_run_addAgentVolumes hvolumes
    (m := { pod.toMembers with initContainers := ics, imagePullSecrets := secrets }) rfl
  rw [run_append, run_append, run_append, hics, bind_some, hsecrets, bind_some, hvols,
    bind_some]
  exact exists_run_metadata pod config anns _

/-- **The containers after the patch.** -/
theorem patched_containers {config : Sidecar} {patches : List (PatchOperation ρ)}
    (h : createPatch k pod config = .ok patches) :
    ∃ acn : PodContainer ρ, acn.name = containerName ∧
      (pod.patched patches).map (·.containers) =
        run (Op.apply Edit.apply) pod.containers
          (addAgentContainer k pod acn ++ edits (hidePorts pod config) ++
            maybeRemoveAppContainer pod config ++
            if config.apiPort ≠ 0 then edits (addTPEnv pod config config.tpEnv) else []) := by
  obtain ⟨init, hinit, h⟩ := Results.bind_eq_ok.mp h
  obtain ⟨⟨acn, anns⟩, hagent, h⟩ := Results.bind_eq_ok.mp h
  obtain ⟨volumes, hvolumes, h⟩ := Results.bind_eq_ok.mp h
  cases h
  refine ⟨acn, k.agentContainer_name _ hagent, ?_⟩
  obtain ⟨m, hm⟩ := exists_run_members config hinit hvolumes
    (anns.insert (domain ++ "inject-traffic-agent") "enabled")
  have htail : ∀ (c : Prop) [Decidable c] (ops : List (Op (PodContainer ρ) (Edit ρ))),
      (if c then ops.map containers else []) =
        (if c then ops else []).map containers := by
    intro c _ ops
    split <;> rfl
  rw [htail, Pod.patched_eq]
  simp only [filterMap_append, (filterMap_containers _).1,
    (filterMap_containers _).2, (filterMap_member _).1,
    (filterMap_member _).2, nil_append, append_nil]
  rw [append_assoc _ (addPodAnnotations pod _), hm]
  cases run (Op.apply Edit.apply) pod.containers _ with
  | none | some cns => rfl

end Telepresence.Injection
