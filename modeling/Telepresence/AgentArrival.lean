import Telepresence.AddIntercept

/-!
# The arrival of an agent

`service.ArriveAsAgent` checks what an agent reports about itself, removes the
environment variables that are excluded, and adds a session whose identifier is
made of the identifier of the pod.  An agent that arrives again finds that
session: it is kept as it is, and the answer has no session identifier.

`arrival_usable_iff`: when the answer names a session that carries the report.
-/

namespace Telepresence.Manager

/-- The environments of an agent's containers. -/
abbrev Environments := List (GoMap String String)

/-- `manager.AgentInfo` with the part that only the arrival reads. -/
structure Report where
  info : AgentInfo
  environments : Environments
  deriving DecidableEq

/-- `service`, as far as agents arrive: the state with the environments of each
session, the variables that are excluded, and the cluster's ID. -/
structure Service where
  state : State := {}
  environments : GoMap String Environments := ∅
  excluded : List String := []
  installID : String := ""

/-- `rpc.SessionInfo`. -/
structure SessionInfo where
  sessionId : String
  managerInstallId : String
  deriving DecidableEq

/-- `validateMechanism`. -/
def validateMechanism (mechanism : Mechanism) : Option String :=
  if mechanism.name = "" then some "name must not be empty"
  else if mechanism.product = "" then some "product must not be empty"
  else if mechanism.version = "" then some "version must not be empty"
  else none

/-- `validateAgent`, which numbers the mechanisms from one. -/
def validateAgent (agent : AgentInfo) : Option String :=
  if agent.name = "" then some "name must not be empty"
  else if agent.namespace_ = "" then some "namespace must not be empty"
  else if agent.product = "" then some "product must not be empty"
  else if agent.version = "" then some "version must not be empty"
  else if agent.mechanisms = [] then some "mechanisms must not be empty"
  else
    agent.mechanisms.zipIdx.findSome? fun e => (validateMechanism e.1).map fun msg =>
      "mechanism " ++ toString (e.2 + 1) ++ ": " ++ msg

namespace Service

/-- `removeExcludedEnvVars`. -/
def removeExcludedEnvVars (s : Service) (envVars : GoMap String String) : GoMap String String :=
  GoMap.deleteAll s.excluded envVars

/-- The report as it is stored. -/
def stored (s : Service) (r : Report) : Report :=
  { r with environments := r.environments.map s.removeExcludedEnvVars }

/-- `State.RestoreAgent`, with the identifier that it returns. -/
def restoreAgent (s : Service) (id : String) (r : Report) : Service × String :=
  if (s.state.agents.lookup id).isSome then (s, "")
  else
    ({ s with
        state := s.state.restoreAgent id r.info
        environments := s.environments.insert id r.environments }, id)

/-- `State.AddAgent`. -/
def addAgent (s : Service) (r : Report) : Except GrpcError (Service × String) :=
  if s.state.isInactive r.info.podUid then .error ⟨.aborted, "inactivated pod"⟩
  else .ok (s.restoreAgent ("agent:" ++ r.info.podUid) r)

/-- `ArriveAsAgent`. -/
def arriveAsAgent (s : Service) (r : Report) : Except GrpcError (Service × SessionInfo) :=
  match validateAgent r.info with
  | some val => .error ⟨.invalidArgument, val⟩
  | none => (s.addAgent (s.stored r)).map fun x => (x.1, ⟨x.2, s.installID⟩)

/-- `State.GetAgent`. -/
def getAgent (s : Service) (id : String) : Option Report :=
  (s.state.getAgent id).map fun info => ⟨info, (s.environments.lookup id).getD []⟩

/-- A new session carries what it was made with. -/
theorem getAgent_restoreAgent {s : Service} {id : String} {r : Report}
    (h : s.state.agents.lookup id = none) (hactive : s.state.isInactive r.info.podUid = false) :
    (s.restoreAgent id r).1.getAgent (s.restoreAgent id r).2 = some r := by
  have hstate : (s.state.restoreAgent id r.info).getAgent id = some r.info := by
    simpa [State.restoreAgent, State.getAgent, h, State.isInactive] using hactive
  rw [restoreAgent, if_neg (by simp [h])]
  simp [getAgent, hstate]

end Service

/-- If the arrival succeeds, the answer names a session that carries the
report. -/
def Usable (s : Service) (r : Report) : Prop :=
  ∀ s' session, s.arriveAsAgent r = .ok (s', session) →
    s'.getAgent session.sessionId = some (s.stored r)

/-- **Usable sessions.**  A valid report of a pod that is not inactivated gets
a usable session if and only if the pod has no session yet, or the session with
the empty identifier happens to carry the same report. -/
theorem arrival_usable_iff {s : Service} {r : Report} (hvalid : validateAgent r.info = none)
    (hactive : s.state.isInactive r.info.podUid = false) :
    Usable s r ↔ s.state.agents.lookup ("agent:" ++ r.info.podUid) = none ∨
      s.getAgent "" = some (s.stored r) := by
  have harrive : s.arriveAsAgent r =
      .ok ((s.restoreAgent ("agent:" ++ r.info.podUid) (s.stored r)).1,
        ⟨(s.restoreAgent ("agent:" ++ r.info.podUid) (s.stored r)).2, s.installID⟩) := by
    rw [Service.arriveAsAgent, hvalid, Service.addAgent, if_neg (by simp [Service.stored, hactive])]
    rfl
  have husable : Usable s r ↔
      (s.restoreAgent ("agent:" ++ r.info.podUid) (s.stored r)).1.getAgent
        (s.restoreAgent ("agent:" ++ r.info.podUid) (s.stored r)).2 = some (s.stored r) := by
    simp [Usable, harrive]
  rw [husable]
  cases hlookup : s.state.agents.lookup ("agent:" ++ r.info.podUid) with
  | none => exact iff_of_true (Service.getAgent_restoreAgent hlookup hactive) (.inl rfl)
  | some agent => simp [Service.restoreAgent, hlookup]

/-- An agent that reports a single mechanism. -/
def arriving : Report where
  info := { name := "echo", namespace_ := "default", podName := "echo-1", podIp := "10.0.0.1",
            podUid := "1", product := "telepresence", version := "2.0.0",
            mechanisms := [⟨"tcp", "telepresence", "2.0.0"⟩] }
  environments := []

/-- The first arrival gets a usable session. -/
theorem arrival_usable_first : Usable {} arriving :=
  (arrival_usable_iff (by decide) (by decide)).mpr (.inl (by decide))

/-- An agent that arrives again, with another version, gets the empty session
identifier. -/
theorem arrival_unusable_again :
    ¬ Usable
      { state := { agents := (∅ : GoMap String AgentInfo).insert "agent:1" arriving.info } }
      { arriving with info := { arriving.info with version := "2.1.0" } } := by
  intro h
  have hsession := h _ ⟨"", ""⟩ rfl
  revert hsession
  decide

end Telepresence.Manager
