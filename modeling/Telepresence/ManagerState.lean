import Telepresence.InterceptSpec

/-!
# The state of the traffic-manager

The agents and intercepts the traffic-manager knows (`manager/state`) and the
operations on them, executed one at a time: agents arrive and leave,
intercepts are added and removed, and an agent reviews an intercept
(`service.ReviewIntercept`).

A `Range` over a map visits its entries in the order of the association list.
Fields of an agent or an intercept that no operation here reads (ports,
environment, mounts, time stamps) are left out.
-/

namespace Telepresence.Manager

/-- `AgentInfo.Mechanism`. -/
structure Mechanism where
  name : String
  product : String := ""
  version : String := ""
  deriving DecidableEq

/-- `manager.AgentInfo`. -/
structure AgentInfo where
  name : String
  namespace_ : String
  podName : String
  podIp : String
  podUid : String
  product : String := ""
  version : String := ""
  mechanisms : List Mechanism := []
  deriving DecidableEq

/-- `State`, with the pods that the mutator's map holds as inactivated. -/
structure State where
  agents : GoMap String AgentInfo := ∅
  intercepts : GoMap String InterceptInfo := ∅
  inactivePods : List String := []

/-! ## Agents -/

/-- `mechanismsAreTheSame`. -/
def mechanismsAreTheSame (a b : List Mechanism) : Bool :=
  let goldenMap : GoMap String Mechanism := GoMap.insertAll (·.name) a ∅
  if a.length ≠ b.length ∨ a.length = 0 then false
  else if goldenMap.keys.length ≠ a.length then false
  else b.all fun mechanism =>
    match goldenMap.lookup mechanism.name with
    | none => false
    | some golden => golden.product == mechanism.product && golden.version == mechanism.version

/-- `AgentsAreCompatible`. -/
def agentsAreCompatible (agents : List AgentInfo) : Bool :=
  match agents with
  | [] => false
  | golden :: rest =>
      rest.all fun agent =>
        golden.name == agent.name && golden.product == agent.product &&
          golden.version == agent.version &&
          mechanismsAreTheSame golden.mechanisms agent.mechanisms

/-- `agentHasMechanism`. -/
def agentHasMechanism (agent : AgentInfo) (mechName : String) : Bool :=
  agent.mechanisms.any (·.name == mechName)

namespace State

/-- `IsInactive`. -/
def isInactive (s : State) (podUid : String) : Bool := podUid ∈ s.inactivePods

/-- The agents that `EachAgent` visits. -/
def eachAgent (s : State) : List AgentInfo :=
  (s.agents.entries.map (·.2)).filter fun ag => !s.isInactive ag.podUid

/-- `GetAgent`. -/
def getAgent (s : State) (id : String) : Option AgentInfo :=
  (s.agents.lookup id).filter fun ag => !s.isInactive ag.podUid

/-- The agents that are relevant to an intercept. -/
def agentList (s : State) (spec : InterceptSpec) : List AgentInfo :=
  s.eachAgent.filter fun ai => ai.name == spec.agent && ai.namespace_ == spec.namespace_

/-- The part of `checkAgentsForIntercept` that looks at the agents. -/
def checkAgents (s : State) (spec : InterceptSpec) : Disposition × String :=
  match s.agentList spec with
  | [] => (.noAgent, "No agent found for " ++ spec.agent.quote)
  | agent :: rest =>
      if !agentsAreCompatible (agent :: rest) then
        (.noAgent, "Agents for " ++ spec.agent.quote ++ " are not consistent")
      else if !agentHasMechanism agent spec.mechanism then
        (.noMechanism, "Agents for " ++ spec.agent.quote ++ " do not have mechanism " ++
          spec.mechanism.quote)
      else (.unspecified, "")

/-- `checkAgentsForIntercept`: some error states are not overwritten. -/
def checkAgentsForIntercept (s : State) (intercept : InterceptInfo) : Disposition × String :=
  match intercept.disposition with
  | .noClient | .noPorts | .badArgs | .removed => (intercept.disposition, intercept.message)
  | .unspecified | .active | .waiting | .noAgent | .noMechanism | .agentError =>
      s.checkAgents intercept.spec

/-! ## Operations -/

/-- What the arrival of an agent does to an intercept. -/
def onAgentArrival (s : State) (intercept : InterceptInfo) : InterceptInfo :=
  if intercept.disposition = .removed then intercept
  else
    let (errCode, errMsg) := s.checkAgentsForIntercept intercept
    if errCode ≠ .unspecified then
      { intercept with disposition := errCode, message := errMsg }
    else if intercept.disposition = .noAgent then
      { intercept with disposition := .waiting, message := "" }
    else intercept

/-- `RestoreAgent`. -/
def restoreAgent (s : State) (id : String) (agent : AgentInfo) : State :=
  if (s.agents.lookup id).isSome then s
  else
    let s := { s with agents := s.agents.insert id agent }
    { s with intercepts := GoMap.mapValues s.onAgentArrival s.intercepts }

/-- `AddAgent`. -/
def addAgent (s : State) (agent : AgentInfo) : State :=
  if s.isInactive agent.podUid then s
  else s.restoreAgent ("agent:" ++ agent.podUid) agent

/-- What `consolidateAgentSessionIntercepts` does to an intercept. -/
def onAgentRemoval (s : State) (agent : AgentInfo) (intercept : InterceptInfo) : InterceptInfo :=
  if intercept.disposition = .removed ∨ agent.podIp ≠ intercept.podIp then intercept
  else
    let (errCode, errMsg) := s.checkAgentsForIntercept intercept
    if errCode ≠ .unspecified then
      { intercept with podIp := "", podName := "", disposition := errCode, message := errMsg }
    else { intercept with podIp := "", podName := "", disposition := .waiting }

/-- The state without an agent session; its pod is inactivated. -/
def dropAgent (s : State) (id : String) (agent : AgentInfo) : State :=
  { s with agents := s.agents.erase id, inactivePods := agent.podUid :: s.inactivePods }

/-- `removeAgentSession`. -/
def removeAgentSession (s : State) (id : String) : State :=
  match s.agents.lookup id with
  | none => s
  | some agent =>
      let s := s.dropAgent id agent
      { s with intercepts := GoMap.mapValues (s.onAgentRemoval agent) s.intercepts }

/-- `NewInterceptInfo`. -/
def newInterceptInfo (id : String) (spec : InterceptSpec) (session : String) : InterceptInfo where
  spec := spec
  id := id
  clientSession := session
  disposition := .waiting
  message := "Waiting for Agent approval"

/-- The intercept that `addIntercept` stores. -/
def newIntercept (s : State) (id : String) (spec : InterceptSpec) (session : String) :
    InterceptInfo :=
  let is := newInterceptInfo id spec session
  let (errCode, errMsg) := s.checkAgentsForIntercept is
  if errCode ≠ .unspecified then { is with disposition := errCode, message := errMsg } else is

/-- `addIntercept`. -/
def addIntercept (s : State) (id : String) (spec : InterceptSpec) (session : String) :
    Except String State :=
  let is := s.newIntercept id spec session
  match s.intercepts.lookup id with
  | none => .ok { s with intercepts := s.intercepts.insert id is }
  | some existing =>
      if existing.disposition ≠ .removed then
        .error ("Intercept named " ++ spec.name.quote ++ " already exists")
      else .ok { s with intercepts := s.intercepts.insert id is }

/-- `UpdateIntercept` when nothing interferes. -/
def updateIntercept (s : State) (id : String) (apply : InterceptInfo → InterceptInfo) : State :=
  match s.intercepts.lookup id with
  | none => s
  | some cur => { s with intercepts := s.intercepts.insert id (apply cur) }

/-- `RemoveIntercept`, its finalizers apart. -/
def removeIntercept (s : State) (id : String) : State :=
  { s with intercepts := s.intercepts.erase id }

end State

open State

/-- `manager.ReviewInterceptRequest`. -/
structure ReviewInterceptRequest where
  session : String
  id : String
  disposition : Disposition
  message : String := ""
  podIp : String := ""
  deriving DecidableEq

/-- What a review by an agent does to the intercept. -/
def applyReview (s : State) (agent : AgentInfo) (r : ReviewInterceptRequest)
    (intercept : InterceptInfo) : InterceptInfo :=
  if intercept.spec.namespace_ ≠ agent.namespace_ ∨ intercept.spec.agent ≠ agent.name then intercept
  else if s.isInactive agent.podUid then intercept
  else if intercept.disposition = .noAgent ∨ intercept.disposition = .waiting then
    { intercept with
      disposition := r.disposition
      message := r.message
      podIp := r.podIp
      podName := agent.podName }
  else intercept

/-- `service.ReviewIntercept`. -/
def State.reviewIntercept (s : State) (r : ReviewInterceptRequest) : State :=
  match s.getAgent r.session with
  | none => s
  | some agent => s.updateIntercept r.id (applyReview s agent r)

/-- The operations on the state. -/
inductive Op where
  | addAgent (agent : AgentInfo)
  | restoreAgent (id : String) (agent : AgentInfo)
  | removeAgentSession (id : String)
  | addIntercept (id : String) (spec : InterceptSpec) (session : String)
  | removeIntercept (id : String)
  | reviewIntercept (r : ReviewInterceptRequest)

/-- An operation that fails leaves the state as it is. -/
def Op.apply (s : State) : Op → State
  | addAgent agent => s.addAgent agent
  | restoreAgent id agent => s.restoreAgent id agent
  | removeAgentSession id => s.removeAgentSession id
  | addIntercept id spec session =>
      match s.addIntercept id spec session with
      | .ok t => t
      | .error _ => s
  | removeIntercept id => s.removeIntercept id
  | reviewIntercept r => s.reviewIntercept r

/-! ## What the operations do to an intercept -/

/-- Where the check reports an error, it is either kept or comes from the
agents. -/
theorem checkAgentsForIntercept_cases (s : State) (ic : InterceptInfo) :
    s.checkAgentsForIntercept ic = s.checkAgents ic.spec ∨
      (s.checkAgentsForIntercept ic).1 ≠ .noAgent ∧
        (s.checkAgentsForIntercept ic).1 = ic.disposition ∧ ic.disposition ≠ .unspecified := by
  unfold checkAgentsForIntercept
  cases ic.disposition <;> simp

theorem checkAgents_ne_removed (s : State) (spec : InterceptSpec) :
    (s.checkAgents spec).1 ≠ .removed := by
  unfold checkAgents
  split
  · simp
  · split
    · simp
    · split <;> simp

theorem checkAgentsForIntercept_ne_removed {s : State} {is : InterceptInfo}
    (h : is.disposition ≠ .removed) : (s.checkAgentsForIntercept is).1 ≠ .removed := by
  rcases checkAgentsForIntercept_cases s is with heq | ⟨_, hsame, _⟩
  · rw [heq]
    exact checkAgents_ne_removed s is.spec
  · rw [hsame]
    exact h

theorem newIntercept_ne_removed (s : State) (id session : String) (spec : InterceptSpec) :
    (s.newIntercept id spec session).disposition ≠ .removed := by
  have hcheck : (s.checkAgentsForIntercept (newInterceptInfo id spec session)).1 ≠
      .removed := checkAgentsForIntercept_ne_removed (by simp [newInterceptInfo])
  unfold newIntercept
  dsimp only
  split
  · exact hcheck
  · simp [newInterceptInfo]

/-- What a check of the agents makes of an intercept: it keeps its disposition,
waits, or has the disposition that the agents give reason for. -/
def State.Rechecked (s : State) (ic ic' : InterceptInfo) : Prop :=
  ic'.disposition = ic.disposition ∧ ic.disposition ≠ .noAgent ∨ ic'.disposition = .waiting ∨
    ic'.disposition = (s.checkAgents ic.spec).1

theorem rechecked_of_check {s : State} {ic ic' : InterceptInfo}
    (h : ic'.disposition = (s.checkAgentsForIntercept ic).1) : s.Rechecked ic ic' := by
  rcases checkAgentsForIntercept_cases s ic with heq | ⟨hne, hsame, _⟩
  · exact .inr (.inr (by rw [h, heq]))
  · exact .inl ⟨h.trans hsame, hsame ▸ hne⟩

theorem onAgentArrival_cases (s : State) (ic : InterceptInfo) :
    ((s.onAgentArrival ic).id = ic.id ∧ (s.onAgentArrival ic).clientSession = ic.clientSession ∧
      (s.onAgentArrival ic).spec = ic.spec) ∧ s.Rechecked ic (s.onAgentArrival ic) := by
  unfold onAgentArrival
  by_cases hr : ic.disposition = .removed
  · rw [if_pos hr]
    exact ⟨⟨rfl, rfl, rfl⟩, .inl ⟨rfl, by simp [hr]⟩⟩
  · rw [if_neg hr]
    dsimp only
    split
    · exact ⟨⟨rfl, rfl, rfl⟩, rechecked_of_check rfl⟩
    · split
      · exact ⟨⟨rfl, rfl, rfl⟩, .inr (.inl rfl)⟩
      · rename_i hd
        exact ⟨⟨rfl, rfl, rfl⟩, .inl ⟨rfl, hd⟩⟩

theorem onAgentRemoval_cases (s : State) (agent : AgentInfo) (ic : InterceptInfo) :
    ((s.onAgentRemoval agent ic).id = ic.id ∧
      (s.onAgentRemoval agent ic).clientSession = ic.clientSession ∧
      (s.onAgentRemoval agent ic).spec = ic.spec) ∧
      (agent.podIp ≠ ic.podIp ∧ s.onAgentRemoval agent ic = ic ∨
        s.Rechecked ic (s.onAgentRemoval agent ic)) := by
  unfold onAgentRemoval
  split
  · rename_i hor
    refine ⟨⟨rfl, rfl, rfl⟩, ?_⟩
    rcases hor with hr | hip
    · exact .inr (.inl ⟨rfl, by simp [hr]⟩)
    · exact .inl ⟨hip, rfl⟩
  · dsimp only
    split
    · exact ⟨⟨rfl, rfl, rfl⟩, .inr (rechecked_of_check rfl)⟩
    · exact ⟨⟨rfl, rfl, rfl⟩, .inr (.inr (.inl rfl))⟩

/-- An intercept is added unless there is one with its ID that has not been
removed. -/
theorem apply_addIntercept_cases (s : State) (id : String) (spec : InterceptSpec)
    (session : String) :
    (∃ existing, s.intercepts.lookup id = some existing ∧ existing.disposition ≠ .removed ∧
        (Op.addIntercept id spec session).apply s = s) ∨
      (∀ existing, s.intercepts.lookup id = some existing → existing.disposition = .removed) ∧
        (Op.addIntercept id spec session).apply s =
          { s with intercepts := s.intercepts.insert id (s.newIntercept id spec session) } := by
  simp only [Op.apply, addIntercept]
  cases hlook : s.intercepts.lookup id with
  | none => exact .inr ⟨by simp, rfl⟩
  | some existing =>
    by_cases hr : existing.disposition = .removed
    · exact .inr ⟨by simp [hr], by simp [hr]⟩
    · exact .inl ⟨existing, rfl, hr, by simp [hr]⟩

/-- The review takes effect on the intercept. -/
def Reviewable (s : State) (r : ReviewInterceptRequest) (agent : AgentInfo)
    (ic : InterceptInfo) : Prop :=
  s.getAgent r.session = some agent ∧ s.intercepts.lookup r.id = some ic ∧
    ic.spec.namespace_ = agent.namespace_ ∧ ic.spec.agent = agent.name ∧
    (ic.disposition = .noAgent ∨ ic.disposition = .waiting)

/-- What a review does to an intercept. -/
theorem applyReview_cases {s : State} {r : ReviewInterceptRequest} {agent : AgentInfo}
    {ic : InterceptInfo} (hag : s.getAgent r.session = some agent)
    (hic : s.intercepts.lookup r.id = some ic) :
    Reviewable s r agent ic ∧ (applyReview s agent r ic).disposition = r.disposition ∧
        (applyReview s agent r ic).spec = ic.spec ∨
      ¬ Reviewable s r agent ic ∧ applyReview s agent r ic = ic := by
  have hactive : s.isInactive agent.podUid = false := by
    unfold getAgent at hag
    have := (Option.filter_eq_some_iff.mp hag).2
    simpa using this
  unfold applyReview Reviewable
  by_cases hns : ic.spec.namespace_ = agent.namespace_
  · by_cases hname : ic.spec.agent = agent.name
    · by_cases hd : ic.disposition = .noAgent ∨ ic.disposition = .waiting
      · exact .inl (by simp [hns, hname, hd, hactive, hag, hic])
      · exact .inr (by simp [hns, hname, hd, hactive])
    · exact .inr (by simp [hname])
  · exact .inr (by simp [hns])

/-- One operation after the other. -/
def step (s : State) (op : Op) : Option State := some (op.apply s)

end Telepresence.Manager
