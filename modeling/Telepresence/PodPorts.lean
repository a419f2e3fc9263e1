import Telepresence.AddIntercept
import Telepresence.AgentReview

/-!
# The children of an intercept

What `AddIntercept` stores for the pod-ports of a request that it accepts, and
how that is read again: by `MatchForSpec`, which finds the port of the pod
that the child is for, and by `PotentialConflict`, which finds the ports that
it occupies.

The child's protocol is the conversion `string(proto)` of a byte, the rune
with the protocol's number.  No reader knows it, and TCP is what they make of
it.

* `podPort_kept`: a child names the port and protocol of its mapping if and
  only if that protocol is TCP.
-/

namespace Telepresence.Manager

open Telepresence.Types Telepresence.Agent List

/-! ## What is stored -/

theorem State.PortsFit.not_taken {s : State} {session : String} {spec : InterceptSpec}
    {ports : List String} (h : s.PortsFit session spec ports) {pm id : String} (hpm : pm ∈ ports)
    (hid : childID session spec pm = some id) : ¬ s.Taken id := by
  obtain ⟨ids, hids, _, hfree⟩ := h
  have hmem : some id ∈ ids.map some := by
    rw [← hids, ← hid]
    exact mem_map.mpr ⟨pm, hpm, rfl⟩
  obtain ⟨id', hid', heq⟩ := mem_map.mp hmem
  cases heq
  exact hfree id hid'

/-- The intercept is as its request says. -/
theorem newIntercept_fields (s : State) (id : String) (spec : InterceptSpec) (session : String) :
    (s.newIntercept id spec session).spec = spec ∧ (s.newIntercept id spec session).id = id ∧
      (s.newIntercept id spec session).clientSession = session := by
  unfold State.newIntercept
  dsimp only
  split
  all_goals exact ⟨rfl, rfl, rfl⟩

/-- The intercept stored under its ID is the child for the mapping. -/
def State.StoresChild (s : State) (session : String) (spec : InterceptSpec) (pm : String)
    (from_ : Nat) (to_ : PortAndProto) (child : InterceptInfo) : Prop :=
  s.intercepts.lookup (interceptID session (childSpec spec pm from_ to_).name) = some child ∧
    child.spec = childSpec spec pm from_ to_ ∧ child.clientSession = session

/-- A loop over pod-ports that fit stores a child for each of them. -/
theorem addChildren_stores {s : State} {session : String} {spec : InterceptSpec}
    {ports : List String} (h : s.PortsFit session spec ports) {pm : String} (hpm : pm ∈ ports) :
    ∃ from_ to_ child, fromNumberAndTo pm = .ok (from_, to_) ∧
      (State.addChildren session spec ports s).1.StoresChild session spec pm from_ to_ child := by
  induction ports generalizing s with
  | nil => cases hpm
  | cons pm' ports ih =>
    obtain ⟨id, hid, hfree, hrest⟩ := State.portsFit_cons.mp h
    rcases addChildren_cons_cases s session spec pm' ports with
      ⟨hfail, _⟩ | ⟨from_, to_, id', hparse, hid', _, heq⟩
    · rcases hfail with hnone | ⟨id', hid', htaken⟩
      · rw [hnone] at hid
        cases hid
      · rw [hid'] at hid
        cases hid
        exact absurd htaken hfree
    · rw [hid'] at hid
      cases hid
      have hfit := hrest (childSpec spec pm' from_ to_)
      rw [heq]
      rcases mem_cons.mp hpm with rfl | hpm
      · have hkey : id = interceptID session (childSpec spec pm from_ to_).name := by
          rw [childID, hparse] at hid'
          exact (Option.some.inj hid').symm
        -- the children after this one have other IDs
        have hlater : ∀ pm' ∈ ports, childID session spec pm' ≠ some id := by
          intro pm' hpm' heq'
          exact hfit.not_taken hpm' heq' (State.taken_put.mpr (.inl rfl))
        have hfields := newIntercept_fields s id (childSpec spec pm from_ to_) session
        refine ⟨from_, to_, _, hparse, ?_, hfields.1, hfields.2.2⟩
        rw [← hkey, lookup_addChildren_of_ne hlater, State.lookup_put, if_pos rfl]
      · exact ih hfit hpm

/-- **Accepted requests.**  The parent is stored, and a child for each
pod-port. -/
theorem addIntercept_stores {sh : Shared} {cluster : Cluster} {cir : CreateInterceptRequest}
    {info : InterceptInfo} (h : (sh.addIntercept cluster cir).2 = .ok info) :
    (sh.addIntercept cluster cir).1.mgr.intercepts.lookup
        (interceptID cir.session cir.spec.name) = some info ∧
      info.spec = cir.spec ∧
      ∀ pm ∈ cir.spec.podPorts, ∃ from_ to_ child, fromNumberAndTo pm = .ok (from_, to_) ∧
        (sh.addIntercept cluster cir).1.mgr.StoresChild cir.session cir.spec pm from_ to_ child := by
  rcases addIntercept_outcome sh cluster cir with ⟨_, err, heq⟩ | ⟨_, s, out, hloop, heq⟩
  · rw [heq] at h
    cases h
  · cases out with
    | some err =>
      rw [heq] at h
      cases h
    | none =>
      have hfit : (sh.putParent cir).PortsFit cir.session cir.spec cir.spec.podPorts := by
        rw [← addChildren_eq_none_iff, hloop]
      rw [heq] at h ⊢
      cases h
      refine ⟨lookup_parent sh cir hloop, (newIntercept_fields _ _ _ _).1, ?_⟩
      intro pm hpm
      have hstores := addChildren_stores hfit hpm
      rw [hloop] at hstores
      exact hstores

/-! ## How the port of a child is read -/

/-- `icept.PotentialConflict`. -/
def potentialConflict (agentName ns : String) (containerPorts : List PortAndProto)
    (info : InterceptInfo) : Bool :=
  match info.disposition with
  | .active | .waiting | .noAgent =>
      !info.spec.wiretap && info.spec.agent == agentName && info.spec.namespace_ == ns &&
        containerPorts.contains ⟨portOf info.spec, fromK8sProtocol info.spec.protocol⟩
  | .unspecified | .noClient | .noMechanism | .noPorts | .agentError | .badArgs | .removed => false

/-- The intercept is one that may be in conflict with others. -/
def Competes (info : InterceptInfo) : Prop :=
  info.disposition ∈ [.active, .waiting, .noAgent] ∧ info.spec.wiretap = false

/-- On its own agent, an intercept that competes is in potential conflict on
the one port that its specification names. -/
theorem potentialConflict_iff {info : InterceptInfo} (h : Competes info)
    (ports : List PortAndProto) :
    potentialConflict info.spec.agent info.spec.namespace_ ports info = true ↔
      ⟨portOf info.spec, fromK8sProtocol info.spec.protocol⟩ ∈ ports := by
  obtain ⟨hdisp, hwiretap⟩ := h
  simp only [mem_cons, not_mem_nil, or_false] at hdisp
  unfold potentialConflict
  rcases hdisp with hd | hd | hd
  all_goals simp [hd, hwiretap]

/-- The intercept is for the container port and protocol, and its readers find
exactly that port. -/
def NamesPort (info : InterceptInfo) (from_ : Nat) (to_ : PortAndProto) : Prop :=
  info.spec.containerPort = from_ ∧ info.spec.targetPort = to_.port ∧
    fromK8sProtocol info.spec.protocol = to_.proto ∧
    (∀ fs : FwdState,
      matchForSpec fs info.spec = true ↔ fs.containerPort = from_ ∧ fs.protocol = to_.proto) ∧
    (Competes info → ∀ ports,
      potentialConflict info.spec.agent info.spec.namespace_ ports info = true ↔
        ⟨from_, to_.proto⟩ ∈ ports)

/-- A child names the port of its mapping if and only if its protocol is read
as that of the mapping. -/
theorem namesPort_childSpec_iff {spec : InterceptSpec} {pm : String} {from_ : Nat}
    {to_ : PortAndProto} {child : InterceptInfo} (hparse : fromNumberAndTo pm = .ok (from_, to_))
    (hspec : child.spec = childSpec spec pm from_ to_) :
    NamesPort child from_ to_ ↔ to_.proto = .tcp := by
  obtain ⟨hlt, htarget, _⟩ := fromNumberAndTo_cases hparse
  have hproto : fromK8sProtocol child.spec.protocol = .tcp := by
    rw [hspec]
    exact fromK8sProtocol_toRune to_.proto
  have hport : portOf child.spec = from_ := by
    rw [hspec, portOf]
    show ((from_ : Int) % 2 ^ 16).toNat = from_
    omega
  constructor
  · intro h
    rw [← h.2.2.1, hproto]
  · intro htcp
    refine ⟨by rw [hspec]; rfl, ?_, by rw [hproto, htcp], ?_, ?_⟩
    · rw [hspec]
      show ((toAsNumeric pm).port : Int) = to_.port
      rw [htarget]
    · intro fs
      rw [matchForSpec, hport, hproto, htcp, Bool.and_eq_true, beq_iff_eq, beq_iff_eq]
      exact ⟨fun h => ⟨h.1.symm, h.2.symm⟩, fun h => ⟨h.1.symm, h.2.symm⟩⟩
    · intro hcompetes ports
      rw [potentialConflict_iff hcompetes, hport, hproto, htcp]

/-- **Pod-ports and protocols.**  For each pod-port of a request that is
accepted there is a stored child, and it names the port and protocol of the
mapping if and only if that protocol is TCP. -/
theorem podPort_kept (sh : Shared) (cluster : Cluster) (cir : CreateInterceptRequest)
    {info : InterceptInfo} (h : (sh.addIntercept cluster cir).2 = .ok info) {pm : String}
    (hpm : pm ∈ cir.spec.podPorts) :
    ∃ from_ to_ child, fromNumberAndTo pm = .ok (from_, to_) ∧
      (sh.addIntercept cluster cir).1.mgr.StoresChild cir.session cir.spec pm from_ to_ child ∧
      (NamesPort child from_ to_ ↔ to_.proto = .tcp) := by
  obtain ⟨_, _, hchildren⟩ := addIntercept_stores h
  obtain ⟨from_, to_, child, hparse, hstores⟩ := hchildren pm hpm
  exact ⟨from_, to_, child, hparse, hstores, namesPort_childSpec_iff hparse hstores.2.1⟩

/-- A traffic-manager with one client. -/
def oneClient : Shared := { clients := (∅ : GoMap String ClientSession).insert "c" ⟨"default", 0⟩ }

/-- A request with one pod-port. -/
def onePort (pm : String) : CreateInterceptRequest := ⟨"c", { name := "echo", podPorts := [pm] }⟩

theorem podPort_kept_tcp :
    ∃ from_ to_ child, fromNumberAndTo "9090:8080" = .ok (from_, to_) ∧
      (oneClient.addIntercept {} (onePort "9090:8080")).1.mgr.StoresChild "c"
        (onePort "9090:8080").spec "9090:8080" from_ to_ child ∧
      (NamesPort child from_ to_ ↔ to_.proto = .tcp) :=
  podPort_kept oneClient {} (onePort "9090:8080") rfl mem_cons_self

/-- The child for the port 9090 with UDP is read as one for TCP. -/
theorem podPort_protocol_lost :
    ∃ info child, (oneClient.addIntercept {} (onePort "9090:8080/UDP")).2 = .ok info ∧
      fromNumberAndTo "9090:8080/UDP" = .ok (9090, ⟨8080, .udp⟩) ∧
      (oneClient.addIntercept {} (onePort "9090:8080/UDP")).1.mgr.StoresChild "c"
        (onePort "9090:8080/UDP").spec "9090:8080/UDP" 9090 ⟨8080, .udp⟩ child ∧
      fromK8sProtocol child.spec.protocol = .tcp ∧ ¬ NamesPort child 9090 ⟨8080, .udp⟩ := by
  refine ⟨_, _, rfl, rfl, ⟨rfl, rfl, rfl⟩, rfl, ?_⟩
  intro h
  cases h.2.2.1

end Telepresence.Manager
