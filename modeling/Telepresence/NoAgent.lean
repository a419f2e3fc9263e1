import Telepresence.Lib.Runs
import Telepresence.ManagerState

/-!
# When the disposition NO_AGENT is stale

An intercept is NO_AGENT when there is no agent for it or when its agents are
inconsistent.  The arrival of an agent revisits every intercept.  The removal
of an agent revisits only the intercepts whose pod IP is that of the agent,
although the removal of an inconsistent agent can make the others consistent,
and an intercept that nobody has approved yet has no pod IP at all.  Besides,
`ReviewIntercept` stores whatever disposition the agent sends.

* `noAgent_never_stale_iff`: in a run of operations NO_AGENT is never stale
  exactly when no removal leaves consistent agents behind for a NO_AGENT
  intercept with another pod IP, and no review sets NO_AGENT without cause.
-/

namespace Telepresence.Manager

open Runs State

/-- NO_AGENT is what the agents that are present give reason for. -/
def NoStale (s : State) : Prop :=
  ∀ id ic, s.intercepts.lookup id = some ic → ic.disposition = .noAgent →
    (s.checkAgentsForIntercept ic).1 = .noAgent

/-- The operation gives no NO_AGENT intercept reason to be revisited without
revisiting it. -/
def Unaffected (s : State) (op : Op) : Prop :=
  match op with
  | .removeAgentSession id =>
      ∀ agent iid ic, s.agents.lookup id = some agent → s.intercepts.lookup iid = some ic →
        ic.disposition = .noAgent → agent.podIp ≠ ic.podIp →
        ((s.dropAgent id agent).checkAgents ic.spec).1 = .noAgent
  | .reviewIntercept r =>
      ∀ agent ic, Reviewable s r agent ic → r.disposition = .noAgent →
        (s.checkAgents ic.spec).1 = .noAgent
  | _ => True

/-! ## One intercept -/

variable {s : State} {ic : InterceptInfo}

theorem checkAgentsForIntercept_noAgent (h : ic.disposition = .noAgent) :
    s.checkAgentsForIntercept ic = s.checkAgents ic.spec := by
  simp [checkAgentsForIntercept, h]

theorem checkAgents_setIntercepts (s : State) (m : GoMap String InterceptInfo)
    (spec : InterceptSpec) :
    checkAgents { s with intercepts := m } spec = s.checkAgents spec := rfl

theorem noStale_iff :
    NoStale s ↔ ∀ id ic, s.intercepts.lookup id = some ic → ic.disposition = .noAgent →
      (s.checkAgents ic.spec).1 = .noAgent := by
  unfold NoStale
  apply Iff.intro
  · intro h id ic hlook hd
    rw [← checkAgentsForIntercept_noAgent hd]
    exact h id ic hlook hd
  · intro h id ic hlook hd
    rw [checkAgentsForIntercept_noAgent hd]
    exact h id ic hlook hd

/-- After a check NO_AGENT is justified. -/
theorem rechecked_noAgent {ic' : InterceptInfo} (h : s.Rechecked ic ic')
    (hd : ic'.disposition = .noAgent) : (s.checkAgents ic.spec).1 = .noAgent := by
  rcases h with ⟨hsame, hne⟩ | hwaiting | hcheck
  · exact absurd (hsame.symm.trans hd) hne
  · rw [hwaiting] at hd
    cases hd
  · rw [← hcheck, hd]

/-- The removal of another agent leaves the intercept alone. -/
theorem onAgentRemoval_of_ne {agent : AgentInfo} (hip : agent.podIp ≠ ic.podIp) :
    s.onAgentRemoval agent ic = ic := by
  unfold onAgentRemoval
  rw [if_pos (.inr hip)]

/-! ## One operation -/

theorem newIntercept_noAgent {id session : String} {spec : InterceptSpec}
    (h : (s.newIntercept id spec session).disposition = .noAgent) :
    (s.checkAgents (s.newIntercept id spec session).spec).1 = .noAgent := by
  have hcheck : s.checkAgentsForIntercept (newInterceptInfo id spec session) =
      s.checkAgents spec := rfl
  unfold newIntercept at h ⊢
  simp only [hcheck] at h ⊢
  by_cases hz : (s.checkAgents spec).1 = .unspecified
  · simp [hz, newInterceptInfo] at h
  · rw [if_pos hz] at h ⊢
    exact h

section

variable (h : NoStale s)

include h

theorem noStale_restoreAgent (id : String) (agent : AgentInfo) :
    NoStale (s.restoreAgent id agent) := by
  unfold restoreAgent
  split
  · exact h
  · rw [noStale_iff]
    intro iid ic hlook hd
    simp only [GoMap.lookup_mapValues, Option.map_eq_some_iff] at hlook
    obtain ⟨old, _, rfl⟩ := hlook
    obtain ⟨⟨_, _, hspec⟩, hcheck⟩ := onAgentArrival_cases _ old
    rw [checkAgents_setIntercepts, hspec]
    exact rechecked_noAgent hcheck hd

theorem noStale_addAgent (agent : AgentInfo) : NoStale (s.addAgent agent) := by
  unfold addAgent
  split
  · exact h
  · exact noStale_restoreAgent h _ agent

theorem noStale_removeAgentSession_iff (id : String) :
    NoStale (s.removeAgentSession id) ↔ Unaffected s (.removeAgentSession id) := by
  unfold removeAgentSession
  cases hag : s.agents.lookup id with
  | none => exact iff_of_true h (by simp [Unaffected, hag])
  | some agent =>
    rw [noStale_iff]
    simp only [checkAgents_setIntercepts, GoMap.lookup_mapValues, Option.map_eq_some_iff]
    apply Iff.intro
    · intro hno agent' iid ic hag' hlook hd hip
      cases hag.symm.trans hag'
      exact hno iid ic ⟨ic, hlook, onAgentRemoval_of_ne hip⟩ hd
    · intro hun iid ic hlook hd
      obtain ⟨old, hold, rfl⟩ := hlook
      obtain ⟨⟨_, _, hspec⟩, ⟨hip, heq⟩ | hcheck⟩ := onAgentRemoval_cases _ agent old
      · rw [heq] at hd ⊢
        exact hun agent iid old hag hold hd hip
      · rw [hspec]
        exact rechecked_noAgent hcheck hd

/-- Storing an intercept keeps the property exactly when the intercept has it. -/
theorem noStale_insert_iff (id : String) (ic : InterceptInfo) :
    NoStale { s with intercepts := s.intercepts.insert id ic } ↔
      (ic.disposition = .noAgent → (s.checkAgents ic.spec).1 = .noAgent) := by
  rw [noStale_iff]
  simp only [checkAgents_setIntercepts, GoMap.lookup_insert_eq]
  apply Iff.intro
  · intro hall hd
    exact hall id ic (by simp) hd
  · intro hic iid ic' hlook hd
    by_cases hid : iid = id
    · rw [if_pos hid] at hlook
      cases hlook
      exact hic hd
    · rw [if_neg hid] at hlook
      exact noStale_iff.mp h iid ic' hlook hd

theorem noStale_addIntercept (id : String) (spec : InterceptSpec) (session : String) :
    NoStale ((Op.addIntercept id spec session).apply s) := by
  have hnew := (noStale_insert_iff h id (s.newIntercept id spec session)).mpr newIntercept_noAgent
  rcases apply_addIntercept_cases s id spec session with ⟨_, _, _, hsame⟩ | ⟨_, hins⟩
  · rw [hsame]
    exact h
  · rw [hins]
    exact hnew

theorem noStale_removeIntercept (id : String) : NoStale (s.removeIntercept id) := by
  rw [noStale_iff]
  intro iid ic hlook hd
  exact noStale_iff.mp h iid ic (GoMap.lookup_of_erase hlook).2 hd

theorem noStale_reviewIntercept_iff (r : ReviewInterceptRequest) :
    NoStale (s.reviewIntercept r) ↔ Unaffected s (.reviewIntercept r) := by
  unfold reviewIntercept
  cases hag : s.getAgent r.session with
  | none => exact iff_of_true h (by simp [Unaffected, Reviewable, hag])
  | some agent =>
    simp only [updateIntercept]
    cases hic : s.intercepts.lookup r.id with
    | none => exact iff_of_true h (by simp [Unaffected, Reviewable, hic])
    | some ic =>
      simp only [noStale_insert_iff h]
      have honly : ∀ agent' ic', Reviewable s r agent' ic' → agent' = agent ∧ ic' = ic := by
        intro agent' ic' hr
        exact ⟨Option.some.inj (hr.1.symm.trans hag), Option.some.inj (hr.2.1.symm.trans hic)⟩
      rcases applyReview_cases hag hic with ⟨hr, hd, hspec⟩ | ⟨hr, hsame⟩
      · rw [hd, hspec]
        apply Iff.intro
        · intro hcheck agent' ic' hr' hdis
          rw [(honly agent' ic' hr').2]
          exact hcheck hdis
        · intro hun hdis
          exact hun agent ic hr hdis
      · rw [hsame]
        apply iff_of_true
        · intro hd
          exact noStale_iff.mp h r.id ic hic hd
        · intro agent' ic' hr'
          obtain ⟨rfl, rfl⟩ := honly agent' ic' hr'
          exact absurd hr' hr

/-- An operation keeps the property exactly when it meets the condition. -/
theorem noStale_apply_iff (op : Op) : NoStale (op.apply s) ↔ Unaffected s op := by
  cases op with
  | addAgent agent => exact iff_of_true (noStale_addAgent h agent) trivial
  | restoreAgent id agent => exact iff_of_true (noStale_restoreAgent h id agent) trivial
  | removeAgentSession id => exact noStale_removeAgentSession_iff h id
  | addIntercept id spec session =>
    exact iff_of_true (noStale_addIntercept h id spec session) trivial
  | removeIntercept id => exact iff_of_true (noStale_removeIntercept h id) trivial
  | reviewIntercept r => exact noStale_reviewIntercept_iff h r

end

/-! ## Runs -/

/-- **When NO_AGENT is never stale.** Starting from the empty state, in every
state of a run of operations NO_AGENT is what the agents give reason for, if
and only if every operation of the run meets the condition. -/
theorem noAgent_never_stale_iff (ops : List Op) :
    Always step NoStale {} ops ↔ Meets step Unaffected {} ops := by
  have hinit : NoStale {} := by
    intro id ic hlook
    simp at hlook
  refine always_iff_meets_of_iff (fun _ h => h) ?_ hinit ops
  intro s op t hs ht
  cases ht
  exact ⟨noStale_apply_iff hs op, id⟩

/-- Two agents of one workload, of different versions. -/
def agentOf (version pod : String) : AgentInfo where
  name := "echo"
  namespace_ := "default"
  podName := "echo-" ++ pod
  podIp := "10.1.0." ++ pod
  podUid := pod
  version := version
  mechanisms := [{ name := "tcp" }]

/-- An intercept of the workload. -/
def echoSpec : InterceptSpec where
  name := "echo"
  agent := "echo"
  namespace_ := "default"
  mechanism := "tcp"

/-- An agent arrives, an intercept is added, a second agent of another version
makes the agents inconsistent and leaves again. -/
def upgradeAborted : List Op :=
  [.addAgent (agentOf "2.24" "1"),
    .addIntercept "s:echo" echoSpec "s",
    .addAgent (agentOf "2.25" "2"),
    .removeAgentSession "agent:2"]

/-- The intercept is still NO_AGENT although its only agent is consistent with
itself and has the mechanism. -/
theorem noAgent_stale_after_removal :
    ∃ s ic, run step {} upgradeAborted = some s ∧ s.intercepts.lookup "s:echo" = some ic ∧
      ic.disposition = .noAgent ∧ (s.checkAgentsForIntercept ic).1 = .unspecified := by
  refine ⟨_, _, rfl, rfl, ?_, ?_⟩
  · decide
  · decide

end Telepresence.Manager
