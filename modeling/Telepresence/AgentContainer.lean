import Mathlib.Data.Int.Interval
import Telepresence.Lib.Results

/-!
# The container of the traffic-agent

What `ContainerBuilder.AgentContainer` of `pkg/agentconfig` takes from the
configuration of the sidecar, and what `MarshalTight` strips from it.

The security context is the configured one, or else a copy of the one of the
first container with intercepts; unless the configured one says which group
the agent runs as, it gets a group that nobody else in the pod uses
(`distinctAgentGID_isLeast`).
-/

namespace Telepresence.AgentConfig

open List

variable {ρ : Type}

/-! ## Pods and sidecars -/

/-- `core.SecurityContext`: the group, and all the other fields. -/
structure SecurityContext (ρ : Type) where
  runAsGroup : Option Int := none
  rest : ρ
  deriving DecidableEq

/-- `core.Container`. -/
structure PodContainer (ρ : Type) where
  name : String
  securityContext : Option (SecurityContext ρ) := none
  deriving DecidableEq

/-- `core.PodTemplateSpec`. -/
structure Pod (ρ : Type) where
  runAsGroup : Option Int := none
  containers : List (PodContainer ρ)
  initContainers : List (PodContainer ρ) := []
  deriving DecidableEq

/-- `agentconfig.Container`. -/
structure Container where
  name : String
  envPrefix : String
  hasIntercepts : Bool
  deriving DecidableEq

/-- `agentconfig.Sidecar`. -/
structure Sidecar (ρ : Type) where
  agentName : String
  ns : String
  workloadName : String
  workloadKind : String
  manual : Bool := false
  containers : List Container
  agentImage : String := ""
  pullPolicy : String := ""
  pullSecrets : List String := []
  initResources : Option String := none
  securityContext : Option (SecurityContext ρ) := none
  initSecurityContext : Option (SecurityContext ρ) := none
  deriving DecidableEq

/-- What comes from Kubernetes' types: the other fields of an empty security
context, and a security context with the names in its `$(NAME)` expressions
prefixed, which is done on its JSON text. -/
structure Kubernetes (ρ : Type) where
  emptyRest : ρ
  prefixInterpolated : String → SecurityContext ρ → Except String (SecurityContext ρ)

/-! ## The fields that are stripped -/

/-- The fields of the sidecar that are not needed once the container has been
created, in the order of the source. -/
inductive Field where
  | agentImage | pullPolicy | pullSecrets | initResources | securityContext | initSecurityContext
  deriving DecidableEq

namespace Field

/-- All fields that `MarshalTight` strips. -/
def all : List Field :=
  [.agentImage, .pullPolicy, .pullSecrets, .initResources, .securityContext, .initSecurityContext]

theorem mem_all (f : Field) : f ∈ all := by cases f <;> decide

theorem nodup_all : all.Nodup := by decide

/-- The type of the field. -/
def Value (ρ : Type) : Field → Type
  | .agentImage => String
  | .pullPolicy => String
  | .pullSecrets => List String
  | .initResources => Option String
  | .securityContext => Option (SecurityContext ρ)
  | .initSecurityContext => Option (SecurityContext ρ)

instance [DecidableEq ρ] : (f : Field) → DecidableEq (f.Value ρ)
  | .agentImage => inferInstanceAs (DecidableEq String)
  | .pullPolicy => inferInstanceAs (DecidableEq String)
  | .pullSecrets => inferInstanceAs (DecidableEq (List String))
  | .initResources => inferInstanceAs (DecidableEq (Option String))
  | .securityContext => inferInstanceAs (DecidableEq (Option (SecurityContext ρ)))
  | .initSecurityContext => inferInstanceAs (DecidableEq (Option (SecurityContext ρ)))

/-- What the field is set to. -/
def zero : (f : Field) → f.Value ρ
  | .agentImage => ""
  | .pullPolicy => ""
  | .pullSecrets => []
  | .initResources => none
  | .securityContext => none
  | .initSecurityContext => none

end Field

namespace Sidecar

/-- The value of a field. -/
def get (s : Sidecar ρ) : (f : Field) → f.Value ρ
  | .agentImage => s.agentImage
  | .pullPolicy => s.pullPolicy
  | .pullSecrets => s.pullSecrets
  | .initResources => s.initResources
  | .securityContext => s.securityContext
  | .initSecurityContext => s.initSecurityContext

/-- Assign to a field. -/
def set (s : Sidecar ρ) : (f : Field) → f.Value ρ → Sidecar ρ
  | .agentImage, v => { s with agentImage := v }
  | .pullPolicy, v => { s with pullPolicy := v }
  | .pullSecrets, v => { s with pullSecrets := v }
  | .initResources, v => { s with initResources := v }
  | .securityContext, v => { s with securityContext := v }
  | .initSecurityContext, v => { s with initSecurityContext := v }

/-- What `MarshalTight` encodes. -/
def stripped (s : Sidecar ρ) : Sidecar ρ := Field.all.foldl (fun s f => s.set f f.zero) s

theorem get_set_self (s : Sidecar ρ) (f : Field) (v : f.Value ρ) : (s.set f v).get f = v := by
  cases f <;> rfl

theorem get_set_of_ne (s : Sidecar ρ) {f g : Field} (h : g ≠ f) (v : f.Value ρ) :
    (s.set f v).get g = s.get g := by
  cases f <;> cases g <;> first | rfl | exact absurd rfl h

theorem stripped_eq (s : Sidecar ρ) :
    s.stripped = ⟨s.agentName, s.ns, s.workloadName, s.workloadKind, s.manual, s.containers,
      "", "", [], none, none, none⟩ := by
  simp only [stripped, Field.all, foldl_cons, foldl_nil, set]
  rfl

theorem stripped_set (s : Sidecar ρ) (f : Field) (v : f.Value ρ) :
    (s.set f v).stripped = s.stripped := by
  rw [stripped_eq, stripped_eq]
  cases f <;> rfl

/-- A sidecar is known from its fields. -/
theorem ext_get {s s' : Sidecar ρ} (hrest : s.stripped = s'.stripped)
    (h : ∀ f, s.get f = s'.get f) : s = s' := by
  rw [stripped_eq, stripped_eq, Sidecar.mk.injEq] at hrest
  obtain ⟨agentName, ns, wlName, wlKind, manual, containers, image, policy, secrets, resources, sc,
    isc⟩ := s
  obtain ⟨agentName', ns', wlName', wlKind', manual', containers', image', policy', secrets',
    resources', sc', isc'⟩ := s'
  obtain ⟨rfl, rfl, rfl, rfl, rfl, rfl, _⟩ := hrest
  obtain rfl : image = image' := h .agentImage
  obtain rfl : policy = policy' := h .pullPolicy
  obtain rfl : secrets = secrets' := h .pullSecrets
  obtain rfl : resources = resources' := h .initResources
  obtain rfl : sc = sc' := h .securityContext
  obtain rfl : isc = isc' := h .initSecurityContext
  rfl

end Sidecar

/-! ## The group of the agent -/

/-- `ContainerName` and `InitContainerName`. -/
def containerName : String := "traffic-agent"

/-- `InitContainerName`. -/
def initContainerName : String := "tel-agent-init"

/-- `DefaultAgentGID`. -/
def defaultAgentGID : Int := 7439

/-- The groups that the pod or one of its containers declares. -/
def Pod.usedGIDs (pod : Pod ρ) : List Int :=
  pod.runAsGroup.toList ++
    ((pod.containers ++ pod.initContainers).filter fun cn =>
      cn.name ≠ containerName ∧ cn.name ≠ initContainerName).filterMap fun cn =>
        cn.securityContext.bind SecurityContext.runAsGroup

/-- The loop of `distinctAgentGID`.  It ends after as many rounds as there are
used groups at the latest. -/
def gidLoop (used : List Int) : Nat → Int → Int
  | 0, gid => gid
  | fuel + 1, gid => if gid ∈ used then gidLoop used fuel (gid + 1) else gid

/-- `distinctAgentGID`. -/
def distinctAgentGID (pod : Pod ρ) : Int :=
  gidLoop pod.usedGIDs pod.usedGIDs.length defaultAgentGID

/-- The loop passes used groups only, and ends with one only if it is too
short. -/
theorem gidLoop_spec (used : List Int) (fuel : Nat) (gid : Int) :
    gid ≤ gidLoop used fuel gid ∧
      (∀ g, gid ≤ g → g < gidLoop used fuel gid → g ∈ used) ∧
      (gidLoop used fuel gid ∈ used → gidLoop used fuel gid = gid + fuel) := by
  induction fuel generalizing gid with
  | zero => grind [gidLoop]
  | succ fuel ih =>
    have hnext := ih (gid + 1)
    rw [gidLoop]
    split <;> grind

/-- **The agent's group** is the first one, from the default on, that neither
the pod nor another container declares. -/
theorem distinctAgentGID_isLeast (pod : Pod ρ) :
    IsLeast {gid | defaultAgentGID ≤ gid ∧ gid ∉ pod.usedGIDs} (distinctAgentGID pod) := by
  obtain ⟨hle, hbelow, hlast⟩ :=
    gidLoop_spec pod.usedGIDs pod.usedGIDs.length defaultAgentGID
  rw [← distinctAgentGID] at hle hbelow hlast
  refine ⟨⟨hle, ?_⟩, ?_⟩
  · intro hmem
    -- otherwise there are more used groups than there are
    have hsub : Finset.Icc defaultAgentGID (distinctAgentGID pod) ⊆ pod.usedGIDs.toFinset := by
      intro g hg
      rw [Finset.mem_Icc] at hg
      rw [mem_toFinset]
      rcases eq_or_lt_of_le hg.2 with rfl | hlt
      · exact hmem
      · exact hbelow g hg.1 hlt
    have hcard := (Finset.card_le_card hsub).trans (toFinset_card_le _)
    rw [Int.card_Icc, hlast hmem] at hcard
    omega
  · rintro g ⟨hg, hfree⟩
    exact le_of_not_gt fun hlt => hfree (hbelow g hg hlt)

/-! ## The security context -/

/-- The security context of a configured container in the pod: the one of the
first container with its name. -/
def Pod.securityContextOf (pod : Pod ρ) (name : String) : Option (SecurityContext ρ) :=
  (pod.containers.find? fun app => app.name = name).bind PodContainer.securityContext

/-- `firstAppSecurityContext`. -/
def firstAppSecurityContext (k : Kubernetes ρ) (pod : Pod ρ) :
    List Container → Except String (Option (SecurityContext ρ))
  | [] => .ok none
  | cc :: ccs =>
      match if cc.hasIntercepts then pod.securityContextOf cc.name else none with
      | none => firstAppSecurityContext k pod ccs
      | some sc => (k.prefixInterpolated ("_TEL_APP_" ++ cc.envPrefix) sc).map some

/-- `AgentSecurityContext`, for the configured security context. -/
def agentSecurityContext (k : Kubernetes ρ) (pod : Pod ρ) (ccs : List Container)
    (cfgSc : Option (SecurityContext ρ)) : Except String (SecurityContext ρ) :=
  match cfgSc with
  | some sc =>
      if sc.runAsGroup.isSome then .ok sc
      else .ok { sc with runAsGroup := some (distinctAgentGID pod) }
  | none => do
      let first ← firstAppSecurityContext k pod ccs
      let sc := first.getD { rest := k.emptyRest }
      .ok { sc with runAsGroup := some (distinctAgentGID pod) }

/-- The fields of the container that come from the stripped ones. -/
structure AgentContainer (ρ : Type) where
  image : String
  imagePullPolicy : String
  securityContext : SecurityContext ρ
  deriving DecidableEq

/-- `AgentContainer`, of a configuration that nobody else uses. -/
def agentContainer (k : Kubernetes ρ) (pod : Pod ρ) (config : Sidecar ρ) :
    Except String (AgentContainer ρ) := do
  let securityContext ← agentSecurityContext k pod config.containers config.securityContext
  .ok { image := config.agentImage, imagePullPolicy := config.pullPolicy, securityContext }

/-! ## A workload -/

/-- Security contexts with nothing but a group in them. -/
def groupsOnly : Kubernetes Unit where
  emptyRest := ()
  prefixInterpolated := fun _ sc => .ok sc

/-- The configuration of a workload, and a pod of it. -/
def echo : Sidecar Unit where
  agentName := "echo"
  ns := "default"
  workloadName := "echo"
  workloadKind := "Deployment"
  containers := [⟨"app", "A_", true⟩]
  agentImage := "tel2:2.20.0"
  pullPolicy := "IfNotPresent"

/-- A pod with one container. -/
def echoPod : Pod Unit := { containers := [⟨"app", none⟩] }

end Telepresence.AgentConfig
