import Telepresence.Forwarder
import Telepresence.ManagerState
import Telepresence.PortTypes

/-!
# How a traffic-agent reviews intercepts

For each container port, a traffic-agent keeps a forwarder (`fwdState`).  When
a snapshot of the intercepts arrives, `HandlePort` configures the forwarder
with the active ones and reviews those that wait: an intercept is accepted if
it conflicts with no active intercept and with no waiting one before it in the
snapshot.

* `handlePort_active`: what the agent has checked of an intercept it accepts.
* `firstWins_iff`: when an intercept that is rejected does not cause the
  rejection of a later one.
-/

namespace Telepresence.Agent

open Icept Regexp Manager Fwd Telepresence.Types List

/-- The container port of a specification, converted to `uint16`. -/
def portOf (spec : InterceptSpec) : Nat := (spec.containerPort % 2 ^ 16).toNat

/-- `fwdState`: the port it serves, the containers of the pod and the port's
forwarder. -/
structure FwdState where
  containerPort : Nat
  protocol : Proto
  podIp : String
  container : String
  containerStates : List String
  forwarder : Tcp := {}

/-- `InterceptTarget.MatchForSpec`. -/
def matchForSpec (fs : FwdState) (spec : InterceptSpec) : Bool :=
  portOf spec == fs.containerPort && fromK8sProtocol spec.protocol == fs.protocol

/-- The container whose environment and mounts the intercept gets. -/
def containerOf (fs : FwdState) (ii : InterceptInfo) : String :=
  if ii.spec.containerName = "" then fs.container else ii.spec.containerName

/-- The review of an intercept that nothing speaks against. -/
def reviewContainer (fs : FwdState) (ii : InterceptInfo) : ReviewInterceptRequest :=
  let container := containerOf fs ii
  if container ∈ fs.containerStates then
    { session := "", id := ii.id, disposition := .active, podIp := fs.podIp }
  else
    { session := "", id := ii.id, disposition := .agentError,
      message := "No match for container " ++ container.quote }

/-- `processWiretapIntercept`. -/
def processWiretapIntercept (fs : FwdState) (ii : InterceptInfo) : ReviewInterceptRequest :=
  reviewContainer fs ii

/-- The intercepts that `findConflictingIntercept` compares with, the active
ones first; `earlier` are the waiting ones before the intercept. -/
def findConflictingIntercept (u : Unicode) (ii : InterceptInfo)
    (active earlier : List InterceptInfo) : Option InterceptInfo :=
  (active ++ earlier).find? fun other =>
    !other.spec.wiretap && isInConflict u ii.spec other.spec

/-- The disposition in the text of a rejection. -/
def dispositionText : Disposition → String
  | .active => "active"
  | .waiting => "waiting"
  | .unspecified => "unspecified"
  | .noClient => "no_client"
  | .noAgent => "no_agent"
  | .noMechanism => "no_mechanism"
  | .noPorts => "no_ports"
  | .agentError => "agent_error"
  | .badArgs => "bad_args"
  | .removed => "removed"

/-- `processRegularIntercept`. -/
def processRegularIntercept (u : Unicode) (fs : FwdState) (ii : InterceptInfo)
    (active earlier : List InterceptInfo) : ReviewInterceptRequest :=
  match findConflictingIntercept u ii active earlier with
  | some other =>
      { session := "", id := ii.id, disposition := .agentError,
        message := "conflicts with the currently " ++ dispositionText other.disposition ++
          " intercept " ++ other.id.quote ++ " (" ++ other.spec.client.quote ++ "): " ++
          explainConflict u ii.spec other.spec }
  | none => reviewContainer fs ii

/-- The loop over the waiting intercepts; `earlier` are those already seen. -/
def reviewWaiting (u : Unicode) (fs : FwdState) (active : List InterceptInfo) :
    List InterceptInfo → List InterceptInfo → List ReviewInterceptRequest
  | _, [] => []
  | earlier, ii :: rest =>
      (if ii.spec.wiretap then processWiretapIntercept fs ii
        else processRegularIntercept u fs ii active earlier) ::
        reviewWaiting u fs active (earlier ++ [ii]) rest

/-- `HandlePort`. -/
def handlePort (u : Unicode) (fs : FwdState) (cepts : List InterceptInfo) :
    FwdState × List ReviewInterceptRequest :=
  let active := cepts.filter fun is => is.disposition == .active
  let waiting := cepts.filter fun is => is.disposition == .waiting
  let wiretaps := active.filter fun is => is.spec.wiretap
  let intercepts := active.filter fun is => !is.spec.wiretap
  let forwarder := (fs.forwarder.setWiretapping wiretaps).setIntercepting intercepts
  ({ fs with forwarder := forwarder }, reviewWaiting u fs active [] waiting)

/-! ## What an acceptance tells -/

theorem reviewContainer_id (fs : FwdState) (ii : InterceptInfo) :
    (reviewContainer fs ii).id = ii.id := by
  unfold reviewContainer
  dsimp only
  split <;> rfl

theorem processRegularIntercept_id (u : Unicode) (fs : FwdState) (ii : InterceptInfo)
    (active earlier : List InterceptInfo) :
    (processRegularIntercept u fs ii active earlier).id = ii.id := by
  unfold processRegularIntercept
  split
  · rfl
  · exact reviewContainer_id fs ii

variable {u : Unicode} {fs : FwdState}

/-- The other intercept is no wiretap and conflicts with this one. -/
def Opposes (u : Unicode) (other ii : InterceptInfo) : Prop :=
  other.spec.wiretap = false ∧ isInConflict u ii.spec other.spec = true

instance (u : Unicode) (other ii : InterceptInfo) : Decidable (Opposes u other ii) :=
  inferInstanceAs (Decidable (_ ∧ _))

/-- An intercept is accepted if its container is known and nothing it is
compared with opposes it. -/
theorem processRegularIntercept_active_iff {ii : InterceptInfo}
    {active earlier : List InterceptInfo} :
    (processRegularIntercept u fs ii active earlier).disposition = .active ↔
      containerOf fs ii ∈ fs.containerStates ∧
        ∀ other ∈ active ++ earlier, ¬ Opposes u other ii := by
  unfold processRegularIntercept findConflictingIntercept
  split
  · rename_i other hfind
    have hopposes : Opposes u other ii := by simpa [Opposes] using find?_some hfind
    refine ⟨nofun, fun h => absurd hopposes (h.2 other (mem_of_find?_eq_some hfind))⟩
  · rename_i hnone
    have hall : ∀ other ∈ active ++ earlier, ¬ Opposes u other ii := by
      intro other hother
      simpa [Opposes] using find?_eq_none.mp hnone other hother
    unfold reviewContainer
    dsimp only
    split <;> simp_all

/-- The review of each waiting intercept. -/
theorem getElem?_reviewWaiting {active earlier waiting : List InterceptInfo} (i : Nat) :
    (reviewWaiting u fs active earlier waiting)[i]? = waiting[i]?.map fun ii =>
      if ii.spec.wiretap then processWiretapIntercept fs ii
      else processRegularIntercept u fs ii active (earlier ++ waiting.take i) := by
  induction waiting generalizing earlier i with
  | nil => simp [reviewWaiting]
  | cons ii waiting ih =>
    cases i with
    | zero => simp [reviewWaiting]
    | succ i => simp [reviewWaiting, ih]

/-- The reviews of the loop, one by one. -/
theorem mem_reviewWaiting {active : List InterceptInfo} {earlier waiting : List InterceptInfo}
    {r : ReviewInterceptRequest} (hr : r ∈ reviewWaiting u fs active earlier waiting) :
    ∃ (before : List InterceptInfo) (ii : InterceptInfo) (after : List InterceptInfo),
      waiting = before ++ ii :: after ∧
      r = if ii.spec.wiretap then processWiretapIntercept fs ii
        else processRegularIntercept u fs ii active (earlier ++ before) := by
  obtain ⟨i, hi⟩ := mem_iff_getElem?.mp hr
  rw [getElem?_reviewWaiting] at hi
  obtain ⟨ii, hii, hreview⟩ := Option.map_eq_some_iff.mp hi
  refine ⟨waiting.take i, ii, waiting.drop (i + 1), ?_, hreview.symm⟩
  obtain ⟨hlt, rfl⟩ := List.getElem?_eq_some_iff.mp hii
  simp

/-- **What an acceptance tells.** A review that accepts is about a waiting
intercept of the list; unless that is a wiretap, it conflicts with no
intercept, wiretaps apart, that is active in the list or waits before it. -/
theorem handlePort_active {cepts : List InterceptInfo} {r : ReviewInterceptRequest}
    (hr : r ∈ (handlePort u fs cepts).2) (hact : r.disposition = .active) :
    ∃ (before : List InterceptInfo) (ii : InterceptInfo) (after : List InterceptInfo),
      cepts.filter (fun is => is.disposition == .waiting) = before ++ ii :: after ∧
      r.id = ii.id ∧
      (ii.spec.wiretap = false → ∀ other ∈ cepts, other.disposition = .active ∨ other ∈ before →
        other.spec.wiretap = false → isInConflict u ii.spec other.spec = false) := by
  obtain ⟨before, ii, after, hsplit, heq⟩ := mem_reviewWaiting hr
  refine ⟨before, ii, after, hsplit, ?_, ?_⟩
  · rw [heq]
    split
    · exact reviewContainer_id fs ii
    · exact processRegularIntercept_id u fs ii _ _
  · intro hwire other hmem hother hw
    rw [if_neg (by simp [hwire]), nil_append] at heq
    rw [heq] at hact
    have hcompared : other ∈ cepts.filter (fun is => is.disposition == .active) ++ before := by
      rcases hother with hactive | hbefore
      · exact mem_append_left _ (mem_filter.mpr ⟨hmem, by simp [hactive]⟩)
      · exact mem_append_right _ hbefore
    simpa [Opposes, hw] using (processRegularIntercept_active_iff.mp hact).2 other hcompared

/-! ## First wins -/

/-- The intercepts that `HandlePort` reviews. -/
def waitingOf (cepts : List InterceptInfo) : List InterceptInfo :=
  cepts.filter fun is => is.disposition == .waiting

/-- The waiting intercept is reviewed as active. -/
def ReviewedActive (u : Unicode) (fs : FwdState) (cepts : List InterceptInfo) (i : Nat) : Prop :=
  (handlePort u fs cepts).2[i]?.map ReviewInterceptRequest.disposition = some .active

/-- No intercept that is active opposes this one. -/
def UnopposedByActive (u : Unicode) (cepts : List InterceptInfo) (ii : InterceptInfo) : Prop :=
  ∀ other ∈ cepts, other.disposition = .active → ¬ Opposes u other ii

/-- The review is greedy: of the waiting intercepts with a known container,
wiretaps apart, those become active that are opposed neither by an active one
nor by an earlier one that becomes active. -/
def FirstWins (u : Unicode) (fs : FwdState) (cepts : List InterceptInfo) : Prop :=
  ∀ i ii, (waitingOf cepts)[i]? = some ii → ii.spec.wiretap = false →
    containerOf fs ii ∈ fs.containerStates →
      (ReviewedActive u fs cepts i ↔ UnopposedByActive u cepts ii ∧
        ∀ j < i, ∀ jj, (waitingOf cepts)[j]? = some jj → ReviewedActive u fs cepts j →
          ¬ Opposes u jj ii)

/-- The waiting intercept has a known container, and neither an active
intercept nor one that waits before it opposes it. -/
def Unopposed (u : Unicode) (fs : FwdState) (cepts : List InterceptInfo) (i : Nat)
    (ii : InterceptInfo) : Prop :=
  containerOf fs ii ∈ fs.containerStates ∧ UnopposedByActive u cepts ii ∧
    ∀ j < i, ∀ jj, (waitingOf cepts)[j]? = some jj → ¬ Opposes u jj ii

/-- What opposes an intercept from before is not only such as is opposed
itself. -/
def OpposedByUnopposed (u : Unicode) (fs : FwdState) (cepts : List InterceptInfo) : Prop :=
  ∀ i ii, (waitingOf cepts)[i]? = some ii → ii.spec.wiretap = false →
    containerOf fs ii ∈ fs.containerStates → UnopposedByActive u cepts ii →
      (∃ j < i, ∃ jj, (waitingOf cepts)[j]? = some jj ∧ Opposes u jj ii) →
        ∃ j < i, ∃ jj, (waitingOf cepts)[j]? = some jj ∧ Opposes u jj ii ∧
          Unopposed u fs cepts j jj

/-- What the code reviews as active. -/
theorem reviewedActive_iff {cepts : List InterceptInfo} {i : Nat} {ii : InterceptInfo}
    (hi : (waitingOf cepts)[i]? = some ii) (hregular : ii.spec.wiretap = false) :
    ReviewedActive u fs cepts i ↔ Unopposed u fs cepts i ii := by
  have hreview : ReviewedActive u fs cepts i ↔
      (processRegularIntercept u fs ii (cepts.filter fun is => is.disposition == .active)
        ((waitingOf cepts).take i)).disposition = .active := by
    simp only [ReviewedActive, handlePort, getElem?_reviewWaiting, nil_append]
    rw [← waitingOf, hi]
    simp [hregular]
  rw [hreview, processRegularIntercept_active_iff, Unopposed, forall_mem_append]
  refine and_congr_right fun _ => and_congr ?_ ?_
  · simp [UnopposedByActive]
  · simp only [mem_take_iff_getElem, getElem?_eq_some_iff]
    grind

/-- **First wins** if and only if no waiting intercept is opposed, of those
before it, only by such as are opposed themselves. -/
theorem firstWins_iff (u : Unicode) (fs : FwdState) (cepts : List InterceptInfo) :
    FirstWins u fs cepts ↔ OpposedByUnopposed u fs cepts := by
  refine forall₃_congr fun i ii hi => forall₂_congr fun hregular hknown => ?_
  rw [reviewedActive_iff hi hregular, Unopposed]
  constructor
  · rintro h hactive ⟨j, hj, jj, hjj, hopposes⟩
    by_contra hnone
    refine (h.mpr ⟨hactive, ?_⟩).2.2 j hj jj hjj hopposes
    intro k hk kk hkk hreviewed hkopposes
    exact hnone ⟨k, hk, kk, hkk, hkopposes, (reviewedActive_iff hkk hkopposes.1).mp hreviewed⟩
  · intro h
    constructor
    · rintro ⟨_, hactive, hearlier⟩
      exact ⟨hactive, fun j hj jj hjj _ => hearlier j hj jj hjj⟩
    · rintro ⟨hactive, hgreedy⟩
      refine ⟨hknown, hactive, ?_⟩
      intro j hj jj hjj hopposes
      obtain ⟨k, hk, kk, hkk, hkopposes, hunopposed⟩ := h hactive ⟨j, hj, jj, hjj, hopposes⟩
      exact hgreedy k hk kk hkk ((reviewedActive_iff hkk hkopposes.1).mpr hunopposed) hkopposes

/-- An intercept that waits, with the given headers. -/
def waitingFor (id : String) (headers : List (String × String)) : InterceptInfo where
  spec := { headerFilters := GoMap.insertPairs headers ∅ }
  id := id
  clientSession := ""
  disposition := .waiting
  message := ""

/-- The second intercept is rejected for the first one, and the third one for
the second. -/
theorem rejected_by_rejected :
    ¬ FirstWins noTables ⟨8080, .tcp, "10.0.0.1", "app", ["app"], {}⟩
      [waitingFor "a" [("X", "1")], waitingFor "b" [("X", "1"), ("Y", "2")],
        waitingFor "c" [("Y", "2")]] := by
  intro h
  have hthird := (h 2 _ rfl rfl (by decide)).mpr ⟨by simp [UnopposedByActive, waitingFor], ?_⟩
  · exact absurd hthird (by unfold ReviewedActive; decide +kernel)
  · intro j hj jj hjj hreviewed
    obtain rfl | rfl : j = 0 ∨ j = 1 := by omega
    · cases hjj
      decide +kernel
    · exact absurd hreviewed (by unfold ReviewedActive; decide +kernel)

end Telepresence.Agent
