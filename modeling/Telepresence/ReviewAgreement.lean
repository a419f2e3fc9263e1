import Telepresence.AgentReview
import Telepresence.Lib.Runs

/-!
# Agreement of the agents' reviews

Every pod of a workload reviews the intercepts alone, from a snapshot of its
own that may be old and comes in any order, and the traffic-manager applies a
review to an intercept that still waits without looking at the others.  Two
pods that see two conflicting intercepts in different orders accept different
ones, and both can become active.

* `reviews_agree`: no two active intercepts conflict in any state of a run in
  which every acceptance that takes effect rests on a snapshot that is up to
  date for it: the reviewing agent saw the intercept as it is, and saw every
  intercept that is active now on the same port, active or waiting before it.
-/

namespace Telepresence.Agent

open Icept Regexp Manager Runs Telepresence.Types GoMap State

/-- A review on its way, with the snapshot it rests on. -/
structure Sent where
  fs : FwdState
  cepts : List InterceptInfo
  review : ReviewInterceptRequest

/-- The traffic-manager, its earlier states and the reviews on their way. -/
structure World where
  mgr : State := {}
  past : List State := []
  inFlight : List Sent := []

/-- The filter that `watchIntercepts` applies for an agent. -/
def agentOwned (agent : AgentInfo) (info : InterceptInfo) : Bool :=
  info.spec.namespace_ == agent.namespace_ && info.spec.agent == agent.name &&
    info.disposition ∈ [.waiting, .active, .agentError, .removed]

/-- What an agent gets to see of a state for one of its ports. -/
def snapshot (m : State) (fs : FwdState) (session : String) : List InterceptInfo :=
  match m.getAgent session with
  | none => []
  | some agent =>
      ((m.intercepts.entries.map (·.2)).filter (agentOwned agent)).filter
        fun ii => matchForSpec fs ii.spec

/-- The traffic-manager executes an operation other than a review; an agent
handles the snapshot of a state, the present one or an earlier one, in some
order; a review arrives. -/
inductive Action where
  | manage (op : Op)
  | handle (fs : FwdState) (session : String) (state : Nat) (order : List Nat)
  | deliver (i : Nat)

/-- The operation is a review. -/
def isReview : Op → Bool
  | .reviewIntercept _ => true
  | _ => false

/-- The reviews an agent sends for a list of intercepts. -/
def sendReviews (u : Unicode) (fs : FwdState) (session : String) (cepts : List InterceptInfo) :
    List Sent :=
  (handlePort u fs cepts).2.map fun r => ⟨fs, cepts, { r with session := session }⟩

/-- A step of the manager or of an agent. -/
def step (u : Unicode) (w : World) : Action → Option World
  | .manage op =>
      if isReview op then none
      else some { w with mgr := op.apply w.mgr, past := w.mgr :: w.past }
  | .handle fs session state order =>
      match (w.mgr :: w.past)[state]? with
      | none => none
      | some m =>
          let snap := snapshot m fs session
          if order.isPerm (List.range snap.length) then
            let cepts := order.filterMap (snap[·]?)
            some { w with inFlight := w.inFlight ++ sendReviews u fs session cepts }
          else none
  | .deliver i =>
      match w.inFlight[i]? with
      | none => none
      | some sent =>
          some { mgr := w.mgr.reviewIntercept sent.review
                 past := w.mgr :: w.past
                 inFlight := w.inFlight.eraseIdx i }

/-- Two specifications are about the same port of the same workload. -/
def SameTarget (spec1 spec2 : InterceptSpec) : Prop :=
  spec1.agent = spec2.agent ∧ spec1.namespace_ = spec2.namespace_ ∧
    portOf spec1 = portOf spec2 ∧
    fromK8sProtocol spec1.protocol = fromK8sProtocol spec2.protocol

/-- An active intercept with this ID and specification. -/
def ActiveAt (m : State) (id : String) (spec : InterceptSpec) : Prop :=
  ∃ ic, m.intercepts.lookup id = some ic ∧ ic.disposition = .active ∧ ic.spec = spec

/-- No two active intercepts on one port, wiretaps apart, are in conflict. -/
def Agreement (u : Unicode) (m : State) : Prop :=
  ∀ id1 id2 spec1 spec2, id1 ≠ id2 → ActiveAt m id1 spec1 → ActiveAt m id2 spec2 →
    spec1.wiretap = false → spec2.wiretap = false → SameTarget spec1 spec2 →
    isInConflict u spec1 spec2 = false

/-- The snapshot is up to date for the acceptance of an intercept: the agent
saw it with the specification it has, and saw every intercept that is active
on the same port, as active or as waiting before it. -/
def SnapshotCovers (m : State) (cepts : List InterceptInfo) (id : String)
    (spec : InterceptSpec) : Prop :=
  ∀ (before : List InterceptInfo) (ii : InterceptInfo) (after : List InterceptInfo),
    cepts.filter (fun is => is.disposition == .waiting) = before ++ ii :: after → ii.id = id →
    ii.spec = spec ∧
    ∀ id' spec', id' ≠ id → ActiveAt m id' spec' → spec'.wiretap = false →
      SameTarget spec spec' →
      ∃ other ∈ cepts, (other.disposition = .active ∨ other ∈ before) ∧ other.id = id' ∧
        other.spec = spec'

/-- Every acceptance that takes effect rests on an up-to-date snapshot. -/
def UpToDate (w : World) (a : Action) : Prop :=
  match a with
  | .deliver i =>
      ∀ sent agent ic, w.inFlight[i]? = some sent → Reviewable w.mgr sent.review agent ic →
        sent.review.disposition = .active → ic.spec.wiretap = false →
        SnapshotCovers w.mgr sent.cepts sent.review.id ic.spec
  | _ => True

/-! ## Operations of the traffic-manager -/

theorem checkAgents_ne_active (s : State) (spec : InterceptSpec) :
    (s.checkAgents spec).1 ≠ .active := by
  unfold checkAgents
  split
  · simp
  · split
    · simp
    · split <;> simp

variable {s : State}

theorem rechecked_active {ic ic' : InterceptInfo} (h : s.Rechecked ic ic')
    (hd : ic'.disposition = .active) : ic.disposition = .active := by
  rcases h with ⟨hsame, _⟩ | hwaiting | hcheck
  · exact hsame.symm.trans hd
  · rw [hwaiting] at hd
    cases hd
  · exact absurd (hcheck.symm.trans hd) (checkAgents_ne_active s ic.spec)

theorem newIntercept_ne_active (s : State) (id session : String) (spec : InterceptSpec) :
    (s.newIntercept id spec session).disposition ≠ .active := by
  have hcheck : s.checkAgentsForIntercept (newInterceptInfo id spec session) =
      s.checkAgents spec := rfl
  unfold newIntercept
  simp only [hcheck]
  by_cases hz : (s.checkAgents spec).1 = .unspecified
  · simp [hz, newInterceptInfo]
  · rw [if_pos hz]
    exact checkAgents_ne_active s spec

variable {id : String} {spec : InterceptSpec}

theorem activeAt_restoreAgent {aid : String} {agent : AgentInfo}
    (h : ActiveAt (s.restoreAgent aid agent) id spec) : ActiveAt s id spec := by
  unfold restoreAgent at h
  split at h
  · exact h
  · obtain ⟨ic, hlook, hact, hspec⟩ := h
    simp only [lookup_mapValues, Option.map_eq_some_iff] at hlook
    obtain ⟨old, hold, rfl⟩ := hlook
    obtain ⟨⟨_, _, hkept⟩, hcheck⟩ := onAgentArrival_cases _ old
    exact ⟨old, hold, rechecked_active hcheck hact, hkept ▸ hspec⟩

theorem activeAt_removeAgentSession {aid : String} (h : ActiveAt (s.removeAgentSession aid) id spec) :
    ActiveAt s id spec := by
  unfold removeAgentSession at h
  split at h
  · exact h
  · obtain ⟨ic, hlook, hact, hspec⟩ := h
    simp only [lookup_mapValues, Option.map_eq_some_iff] at hlook
    obtain ⟨old, hold, rfl⟩ := hlook
    obtain ⟨⟨_, _, hkept⟩, ⟨_, heq⟩ | hcheck⟩ := onAgentRemoval_cases _ _ old
    · exact ⟨old, hold, heq ▸ hact, hkept ▸ hspec⟩
    · exact ⟨old, hold, rechecked_active hcheck hact, hkept ▸ hspec⟩

theorem activeAt_addIntercept {nid session : String} {nspec : InterceptSpec}
    (h : ActiveAt ((Op.addIntercept nid nspec session).apply s) id spec) : ActiveAt s id spec := by
  rcases apply_addIntercept_cases s nid nspec session with ⟨_, _, _, hsame⟩ | ⟨_, hins⟩
  · rw [hsame] at h
    exact h
  · rw [hins] at h
    obtain ⟨ic, hlook, hact, hspec⟩ := h
    simp only [lookup_insert_eq] at hlook
    by_cases hid : id = nid
    · rw [if_pos hid] at hlook
      cases hlook
      exact absurd hact (newIntercept_ne_active s nid session nspec)
    · rw [if_neg hid] at hlook
      exact ⟨ic, hlook, hact, hspec⟩

/-- Only a review makes an intercept active. -/
theorem activeAt_of_apply {op : Op} (hop : isReview op = false) (h : ActiveAt (op.apply s) id spec) :
    ActiveAt s id spec := by
  cases op with
  | addAgent agent =>
    simp only [Op.apply, addAgent] at h
    split at h
    · exact h
    · exact activeAt_restoreAgent h
  | restoreAgent aid agent => exact activeAt_restoreAgent h
  | removeAgentSession aid => exact activeAt_removeAgentSession h
  | addIntercept nid nspec session => exact activeAt_addIntercept h
  | removeIntercept rid =>
    obtain ⟨ic, hlook, hact, hspec⟩ := h
    exact ⟨ic, (lookup_of_erase hlook).2, hact, hspec⟩
  | reviewIntercept r => simp [isReview] at hop

/-- What is active after a review was active before, or the review has just
accepted it. -/
theorem activeAt_reviewIntercept {r : ReviewInterceptRequest}
    (h : ActiveAt (s.reviewIntercept r) id spec) :
    ActiveAt s id spec ∨
      id = r.id ∧ r.disposition = .active ∧ ∃ agent ic, Reviewable s r agent ic ∧
        ic.spec = spec := by
  unfold reviewIntercept at h
  cases hag : s.getAgent r.session with
  | none =>
    rw [hag] at h
    exact .inl h
  | some agent =>
    rw [hag] at h
    simp only [updateIntercept] at h
    cases hic : s.intercepts.lookup r.id with
    | none =>
      rw [hic] at h
      exact .inl h
    | some cur =>
      rw [hic] at h
      obtain ⟨ic, hlook, hact, hspec⟩ := h
      simp only [lookup_insert_eq] at hlook
      by_cases hid : id = r.id
      · rw [if_pos hid] at hlook
        cases hlook
        rcases applyReview_cases hag hic with ⟨hr, hd, hsp⟩ | ⟨_, hsame⟩
        · exact .inr ⟨hid, hd ▸ hact, agent, cur, hr, hsp ▸ hspec⟩
        · rw [hsame] at hact hspec
          exact .inl ⟨cur, hid ▸ hic, hact, hspec⟩
      · rw [if_neg hid] at hlook
        exact .inl ⟨ic, hlook, hact, hspec⟩

/-! ## Runs -/

theorem SameTarget.symm {spec1 spec2 : InterceptSpec} (h : SameTarget spec1 spec2) :
    SameTarget spec2 spec1 :=
  ⟨h.1.symm, h.2.1.symm, h.2.2.1.symm, h.2.2.2.symm⟩

variable {u : Unicode}

/-- An acceptance that rests on an up-to-date snapshot conflicts with nothing
that is active. -/
theorem accepted_no_conflict {m : State} {fs : FwdState} {cepts : List InterceptInfo}
    {r : ReviewInterceptRequest} {spec' : InterceptSpec} {id' : String}
    (hr : r ∈ (handlePort u fs cepts).2) (hact : r.disposition = .active)
    (hcov : SnapshotCovers m cepts r.id spec) (hw : spec.wiretap = false) (hne : id' ≠ r.id)
    (hother : ActiveAt m id' spec') (hw' : spec'.wiretap = false) (hsame : SameTarget spec spec') :
    isInConflict u spec spec' = false := by
  obtain ⟨before, ii, after, hsplit, hid, hno⟩ := handlePort_active hr hact
  obtain ⟨rfl, hsaw⟩ := hcov before ii after hsplit hid.symm
  obtain ⟨other, hmem, hor, _, rfl⟩ := hsaw id' spec' hne hother hw' hsame
  exact hno hw other hmem hor hw'

/-- What holds between the steps. -/
structure Inv (u : Unicode) (w : World) : Prop where
  /-- No two active intercepts are in conflict. -/
  agree : Agreement u w.mgr
  /-- Every review on its way comes from the snapshot it carries. -/
  origin : ∀ x ∈ w.inFlight, ∃ r ∈ (handlePort u x.fs x.cepts).2,
    r.id = x.review.id ∧ r.disposition = x.review.disposition

variable {w : World}

theorem inv_manage (h : Inv u w) {op : Op} (hop : isReview op = false) :
    Inv u { w with mgr := op.apply w.mgr, past := w.mgr :: w.past } where
  agree := by
    intro id1 id2 spec1 spec2 hne h1 h2
    exact h.agree id1 id2 spec1 spec2 hne (activeAt_of_apply hop h1) (activeAt_of_apply hop h2)
  origin := h.origin

theorem inv_handle (h : Inv u w) (fs : FwdState) (session : String) (cepts : List InterceptInfo) :
    Inv u { w with inFlight := w.inFlight ++ sendReviews u fs session cepts } where
  agree := h.agree
  origin := by
    intro x hx
    rcases List.mem_append.mp hx with hx | hx
    · exact h.origin x hx
    · obtain ⟨r, hr, rfl⟩ := List.mem_map.mp hx
      exact ⟨r, hr, rfl, rfl⟩

theorem inv_deliver (h : Inv u w) {i : Nat} {sent : Sent} (hsent : w.inFlight[i]? = some sent)
    (hcond : UpToDate w (.deliver i)) :
    Inv u { mgr := w.mgr.reviewIntercept sent.review, past := w.mgr :: w.past,
            inFlight := w.inFlight.eraseIdx i } where
  agree := by
    obtain ⟨r, hr, hid, hdis⟩ := h.origin sent (List.mem_of_getElem? hsent)
    -- the review just applied against an intercept that was active before
    have hnew : ∀ id spec id' spec', (id = sent.review.id ∧
          sent.review.disposition = .active ∧ ∃ agent ic,
            Reviewable w.mgr sent.review agent ic ∧ ic.spec = spec) →
        ActiveAt w.mgr id' spec' → id' ≠ id → spec.wiretap = false → spec'.wiretap = false →
        SameTarget spec spec' → isInConflict u spec spec' = false := by
      intro id spec id' spec' hacc hother hne hw hw' hsame
      obtain ⟨rfl, hact, agent, ic, hrev, rfl⟩ := hacc
      have hcov := hcond sent agent ic hsent hrev hact hw
      rw [← hid] at hcov hne
      exact accepted_no_conflict hr (hdis.trans hact) hcov hw hne hother hw' hsame
    intro id1 id2 spec1 spec2 hne h1 h2 hw1 hw2 hsame
    rcases activeAt_reviewIntercept h1 with hold1 | hnew1
    · rcases activeAt_reviewIntercept h2 with hold2 | hnew2
      · exact h.agree id1 id2 spec1 spec2 hne hold1 hold2 hw1 hw2 hsame
      · rw [isInConflict_comm]
        exact hnew id2 spec2 id1 spec1 hnew2 hold1 hne hw2 hw1 hsame.symm
    · rcases activeAt_reviewIntercept h2 with hold2 | hnew2
      · exact hnew id1 spec1 id2 spec2 hnew1 hold2 hne.symm hw1 hw2 hsame
      · exact absurd (hnew1.1.trans hnew2.1.symm) hne
  origin := fun x hx => h.origin x (List.mem_of_mem_eraseIdx hx)

/-- One step keeps the invariant if it meets the condition. -/
theorem inv_step {w' : World} {a : Action} (h : Inv u w) (hcond : UpToDate w a)
    (hstep : step u w a = some w') : Inv u w' := by
  cases a with
  | manage op =>
    by_cases hop : isReview op = true
    · simp [step, hop] at hstep
    · simp only [step, if_neg hop, Option.some.injEq] at hstep
      subst hstep
      exact inv_manage h (by simpa using hop)
  | handle fs session state order =>
    simp only [step] at hstep
    split at hstep
    · cases hstep
    · split at hstep
      · cases hstep
        exact inv_handle h fs session _
      · cases hstep
  | deliver i =>
    simp only [step] at hstep
    split at hstep
    · cases hstep
    · rename_i sent hsent
      cases hstep
      exact inv_deliver h hsent hcond

/-- **Agreement of reviews.** In every state of a run in which every
acceptance that takes effect rests on an up-to-date snapshot, no two active
intercepts on one port, wiretaps apart, are in conflict. -/
theorem reviews_agree (u : Unicode) (acts : List Action)
    (hmeets : Meets (step u) UpToDate {} acts) :
    Always (step u) (fun w => Agreement u w.mgr) {} acts := by
  have hinit : Inv u {} := by
    refine ⟨?_, by simp⟩
    intro id1 id2 spec1 spec2 _ h1
    obtain ⟨ic, hlook, _⟩ := h1
    simp at hlook
  exact always_of_meets (fun _ h => h.agree) (fun _ _ _ => inv_step) hinit hmeets

/-! ## Two pods -/

/-- A pod of the workload `echo`. -/
def podOf (n : String) : AgentInfo where
  name := "echo"
  namespace_ := "default"
  podName := "echo-" ++ n
  podIp := "10.1.0." ++ n
  podUid := n
  mechanisms := [{ name := "tcp" }]

/-- Port 8080 of a pod. -/
def portState (n : String) : FwdState where
  containerPort := 8080
  protocol := .tcp
  podIp := "10.1.0." ++ n
  container := "app"
  containerStates := ["app"]

/-- An intercept of all traffic to port 8080. -/
def allTraffic (name : String) : InterceptSpec where
  name := name
  agent := "echo"
  namespace_ := "default"
  mechanism := "tcp"
  protocol := "TCP"
  containerPort := 8080

/-- An intercept of the requests below a path. -/
def belowPath (name path : String) : InterceptSpec :=
  { allTraffic name with pathFilters := [":path-prefix:" ++ path] }

/-- Two clients intercept different paths of the same port.  Two pods accept
both intercepts, and the acceptances arrive that the first pod sent for one of
them and the second pod for the other. -/
def twoReviews : List Action :=
  [.manage (.addAgent (podOf "1")),
    .manage (.addAgent (podOf "2")),
    .manage (.addIntercept "a:x" (belowPath "x" "/a") "a"),
    .manage (.addIntercept "b:y" (belowPath "y" "/b") "b"),
    .handle (portState "1") "agent:1" 0 [1, 0],
    .handle (portState "2") "agent:2" 0 [1, 0],
    .deliver 0,
    .deliver 2]

theorem reviews_agree_twoPods :
    (∃ w, run (step noTables) {} twoReviews = some w ∧
      ActiveAt w.mgr "a:x" (belowPath "x" "/a") ∧ ActiveAt w.mgr "b:y" (belowPath "y" "/b")) ∧
    Always (step noTables) (fun w => Agreement noTables w.mgr) {} twoReviews := by
  refine ⟨⟨_, rfl, ⟨_, rfl, rfl, rfl⟩, ⟨_, rfl, rfl, rfl⟩⟩, ?_⟩
  apply reviews_agree
  iterate 6 refine .cons rfl trivial ?_
  refine .cons rfl ?_ (.cons rfl ?_ trivial)
  · -- the first pod sees `x` first, and nothing is active yet
    intro sent agent ic hsent hrev hact hw
    cases hsent
    cases hrev.2.1
    intro before ii after hsplit hid
    rcases before with _ | ⟨b, _ | ⟨c, bs⟩⟩
    · cases hsplit
      refine ⟨rfl, ?_⟩
      rintro id' spec' hne ⟨ic', hlook, hactive, -⟩
      rcases mem_entries_iff.mpr hlook with _ | ⟨_, _ | ⟨_, h⟩⟩
      · cases hactive
      · cases hactive
      · cases h
    · cases hsplit
      exact absurd hid (by decide)
    · cases bs <;> cases hsplit
  · -- the second pod has seen `x`, which is active now, before `y`
    intro sent agent ic hsent hrev hact hw
    cases hsent
    cases hrev.2.1
    intro before ii after hsplit hid
    rcases before with _ | ⟨b, _ | ⟨c, bs⟩⟩
    · cases hsplit
      exact absurd hid (by decide)
    · cases hsplit
      refine ⟨rfl, ?_⟩
      rintro id' spec' hne ⟨ic', hlook, hactive, rfl⟩ _ _
      rcases mem_entries_iff.mpr hlook with _ | ⟨_, _ | ⟨_, h⟩⟩
      · exact ⟨_, .head _, .inr (.head _), rfl, rfl⟩
      · cases hactive
      · cases h
    · cases bs <;> cases hsplit

/-- Two clients intercept all traffic of the same port, and two pods see the
two intercepts in different orders. -/
def twoPods : List Action :=
  [.manage (.addAgent (podOf "1")),
    .manage (.addAgent (podOf "2")),
    .manage (.addIntercept "a:x" (allTraffic "x") "a"),
    .manage (.addIntercept "b:y" (allTraffic "y") "b"),
    .handle (portState "1") "agent:1" 0 [1, 0],
    .handle (portState "2") "agent:2" 0 [0, 1],
    .deliver 0,
    .deliver 1]

/-- Both intercepts become active, and they are in conflict. -/
theorem reviews_disagree :
    ∃ w, run (step noTables) {} twoPods = some w ∧ ¬ Agreement noTables w.mgr := by
  refine ⟨_, rfl, ?_⟩
  intro h
  have hno := h "a:x" "b:y" (allTraffic "x") (allTraffic "y") (by decide)
    ⟨_, rfl, rfl, rfl⟩ ⟨_, rfl, rfl, rfl⟩ rfl rfl ⟨rfl, rfl, rfl, rfl⟩
  have hyes : isInConflict noTables (allTraffic "x") (allTraffic "y") = true := by decide
  rw [hno] at hyes
  cases hyes

end Telepresence.Agent
