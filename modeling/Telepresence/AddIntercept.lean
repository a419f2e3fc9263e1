import Telepresence.ManagerThreads

/-!
# Adding an intercept with its pod-ports

`State.AddIntercept` as one sequential call, with the errors it returns.  The
intercept is stored first and then, for each pod-port, a child intercept; a
pod-port that does not parse, or a child whose ID is taken, ends the call with
an error and leaves behind what has been stored until then.

What lies outside of the traffic-manager, the look-up of the workload and the
wait for its agents, is an argument.  The finalizers are those of
`Finalizers`.

* `addIntercept_atomic_iff`: a call that fails changes nothing if and only if
  it fails before it stores the intercept or all its pod-ports fit.
-/

namespace Telepresence.Manager

open Telepresence.Types List

/-- The gRPC codes. -/
inductive Code where
  | ok | canceled | unknown | invalidArgument | deadlineExceeded | notFound | alreadyExists
  | permissionDenied | resourceExhausted | failedPrecondition | aborted | outOfRange
  | unimplemented | internal | unavailable | dataLoss | unauthenticated
  deriving DecidableEq

/-- A gRPC error. -/
structure GrpcError where
  code : Code
  message : String

/-- `rpc.CreateInterceptRequest`. -/
structure CreateInterceptRequest where
  session : String
  spec : InterceptSpec

/-- What the calls to the outside return: the error of `GetWorkload` and
whether it says that there is no such workload, and the error of
`ensureAgent`. -/
structure Cluster where
  workloadError : Option (Bool × String) := none
  agentError : Option GrpcError := none

/-- The loop of `AddIntercept` over the pod-ports. -/
def State.addChildren (session : String) (spec : InterceptSpec) :
    List String → State → State × Option GrpcError
  | [], s => (s, none)
  | pm :: ports, s =>
      match fromNumberAndTo pm with
      | .error err => (s, some ⟨.internal, "invalid pod_port " ++ pm.quote ++ ": " ++ err⟩)
      | .ok (from_, to_) =>
          let pmSpec := childSpec spec pm from_ to_
          match s.addIntercept (interceptID session pmSpec.name) pmSpec session with
          | .error msg => (s, some ⟨.alreadyExists, msg⟩)
          | .ok s => addChildren session spec ports s

open State

/-- `State.AddIntercept`. -/
def Shared.addIntercept (sh : Shared) (cluster : Cluster) (cir : CreateInterceptRequest) :
    Shared × Except GrpcError InterceptInfo :=
  let id := interceptID cir.session cir.spec.name
  match sh.clients.lookup cir.session with
  | none => (sh, .error ⟨.notFound, "session " ++ cir.session.quote ++ " not found"⟩)
  | some _ =>
      match cluster.workloadError with
      | some (missing, msg) => (sh, .error ⟨if missing then .notFound else .internal, msg⟩)
      | none =>
          match cluster.agentError with
          | some err => (sh, .error err)
          | none =>
              match sh.mgr.addIntercept id cir.spec cir.session with
              | .error msg => (sh, .error ⟨.alreadyExists, msg⟩)
              | .ok s =>
                  match addChildren cir.session cir.spec cir.spec.podPorts s with
                  | (s, some err) => ({ sh with mgr := s }, .error err)
                  | (s, none) =>
                      ({ sh with mgr := s }, .ok (sh.mgr.newIntercept id cir.spec cir.session))

/-! ## One intercept -/

/-- There is an intercept with the ID that has not been removed. -/
def State.Taken (s : State) (id : String) : Prop :=
  ∃ ic, s.intercepts.lookup id = some ic ∧ ic.disposition ≠ .removed

/-- The state with the intercept stored. -/
def State.put (s : State) (id : String) (spec : InterceptSpec) (session : String) : State :=
  { s with intercepts := s.intercepts.insert id (s.newIntercept id spec session) }

theorem State.addIntercept_cases (s : State) (id : String) (spec : InterceptSpec)
    (session : String) :
    (s.Taken id ∧ ∃ msg, s.addIntercept id spec session = .error msg) ∨
      ¬ s.Taken id ∧ s.addIntercept id spec session = .ok (s.put id spec session) := by
  unfold addIntercept State.Taken
  cases hlook : s.intercepts.lookup id with
  | none => exact .inr ⟨by simp, rfl⟩
  | some ic =>
    by_cases hr : ic.disposition = .removed
    · exact .inr ⟨by simp [hr], by simp [hr, put]⟩
    · exact .inl ⟨⟨ic, rfl, hr⟩, _, if_pos hr⟩

theorem State.lookup_put (s : State) (id id' : String) (spec : InterceptSpec) (session : String) :
    (s.put id spec session).intercepts.lookup id' =
      if id' = id then some (s.newIntercept id spec session) else s.intercepts.lookup id' :=
  GoMap.lookup_insert_eq _ _ _ _

variable {s : State} {id session : String} {spec : InterceptSpec}

theorem State.taken_put {id' : String} :
    (s.put id spec session).Taken id' ↔ id' = id ∨ s.Taken id' := by
  unfold State.Taken
  rw [lookup_put]
  by_cases h : id' = id
  · rw [if_pos h]
    exact ⟨fun _ => .inl h, fun _ => ⟨_, rfl, newIntercept_ne_removed s id session spec⟩⟩
  · rw [if_neg h]
    simp [h]

/-! ## The pod-ports -/

/-- The ID of the child for a pod-port, if that parses. -/
def childID (session : String) (spec : InterceptSpec) (pm : String) : Option String :=
  match fromNumberAndTo pm with
  | .error _ => none
  | .ok (from_, to_) => some (interceptID session (childSpec spec pm from_ to_).name)

/-- All pod-ports parse, and the IDs of the children are different from each
other and not taken. -/
def State.PortsFit (s : State) (session : String) (spec : InterceptSpec) (ports : List String) :
    Prop :=
  ∃ ids : List String, ports.map (childID session spec) = ids.map some ∧ ids.Nodup ∧
    ∀ id ∈ ids, ¬ s.Taken id

/-- A child never has the ID of its parent. -/
theorem childID_ne_parent {pm : String} (h : childID session spec pm = some id) :
    id ≠ interceptID session spec.name := by
  unfold childID at h
  split at h
  · cases h
  · cases h
    intro heq
    have hlen := congrArg String.length heq
    simp only [interceptID, childSpec, String.length_append] at hlen
    have hdash : "-".length = 1 := rfl
    omega

variable {ports : List String}

/-- The first pod-port fits, and the others fit once its child is stored. -/
theorem State.portsFit_cons {pm : String} :
    s.PortsFit session spec (pm :: ports) ↔
      ∃ id, childID session spec pm = some id ∧ ¬ s.Taken id ∧
        ∀ pmSpec, (s.put id pmSpec session).PortsFit session spec ports := by
  constructor
  · rintro ⟨ids, hids, hnodup, hfree⟩
    cases ids with
    | nil => simp at hids
    | cons id ids =>
      simp only [map_cons, cons.injEq] at hids
      obtain ⟨hnotin, hnodup⟩ := nodup_cons.mp hnodup
      refine ⟨id, hids.1, hfree id mem_cons_self, ?_⟩
      intro pmSpec
      refine ⟨ids, hids.2, hnodup, ?_⟩
      intro id' hid'
      rw [taken_put]
      rintro (rfl | htaken)
      · exact hnotin hid'
      · exact hfree id' (mem_cons_of_mem id hid') htaken
  · rintro ⟨id, hid, hfree, hrest⟩
    obtain ⟨ids, hids, hnodup, hfree'⟩ := hrest spec
    have hparts : ∀ id' ∈ ids, id' ≠ id ∧ ¬ s.Taken id' := by
      intro id' hid'
      have hnot := hfree' id' hid'
      rw [taken_put, not_or] at hnot
      exact hnot
    refine ⟨id :: ids, by rw [map_cons, map_cons, hid, hids], ?_, ?_⟩
    · exact nodup_cons.mpr ⟨fun hmem => (hparts id hmem).1 rfl, hnodup⟩
    · intro id' hid'
      rcases mem_cons.mp hid' with rfl | hid'
      · exact hfree
      · exact (hparts id' hid').2

/-- One round of the loop. -/
theorem addChildren_cons_cases (s : State) (session : String) (spec : InterceptSpec)
    (pm : String) (ports : List String) :
    ((childID session spec pm = none ∨ ∃ id, childID session spec pm = some id ∧ s.Taken id) ∧
        ∃ err, addChildren session spec (pm :: ports) s = (s, some err)) ∨
      ∃ from_ to_ id, fromNumberAndTo pm = .ok (from_, to_) ∧
        childID session spec pm = some id ∧ ¬ s.Taken id ∧
        addChildren session spec (pm :: ports) s =
          addChildren session spec ports (s.put id (childSpec spec pm from_ to_) session) := by
  rw [addChildren, childID]
  cases hparse : fromNumberAndTo pm with
  | error err => exact .inl ⟨.inl rfl, _, rfl⟩
  | ok parsed =>
    obtain ⟨from_, to_⟩ := parsed
    dsimp only
    rcases s.addIntercept_cases (interceptID session (childSpec spec pm from_ to_).name)
      (childSpec spec pm from_ to_) session with ⟨htaken, msg, heq⟩ | ⟨hfree, heq⟩
    · rw [heq]
      exact .inl ⟨.inr ⟨_, rfl, htaken⟩, _, rfl⟩
    · rw [heq]
      exact .inr ⟨from_, to_, _, rfl, rfl, hfree, rfl⟩

/-- The loop succeeds if and only if the pod-ports fit. -/
theorem addChildren_eq_none_iff :
    (addChildren session spec ports s).2 = none ↔ s.PortsFit session spec ports := by
  induction ports generalizing s with
  | nil => exact ⟨fun _ => ⟨[], rfl, nodup_nil, by simp⟩, fun _ => rfl⟩
  | cons pm ports ih =>
    rw [portsFit_cons]
    rcases addChildren_cons_cases s session spec pm ports with
      ⟨hfail, err, heq⟩ | ⟨from_, to_, id, _, hid, hfree, heq⟩
    · rw [heq]
      refine ⟨(by intro h; cases h), ?_⟩
      rintro ⟨id, hid, hfree, _⟩
      rcases hfail with hnone | ⟨id', hid', htaken⟩
      · rw [hnone] at hid
        cases hid
      · rw [hid'] at hid
        cases hid
        exact absurd htaken hfree
    · rw [heq, ih]
      constructor
      · rintro ⟨ids, hids, hnodup, hrest⟩
        refine ⟨id, hid, hfree, fun pmSpec => ⟨ids, hids, hnodup, ?_⟩⟩
        intro id' hid'
        have hnot := hrest id' hid'
        rw [taken_put] at hnot ⊢
        exact hnot
      · rintro ⟨id', hid', _, hrest⟩
        rw [hid] at hid'
        cases hid'
        exact hrest _

/-- The loop stores nothing but children. -/
theorem lookup_addChildren_of_ne (h : ∀ pm ∈ ports, childID session spec pm ≠ some id) :
    (addChildren session spec ports s).1.intercepts.lookup id = s.intercepts.lookup id := by
  induction ports generalizing s with
  | nil => rfl
  | cons pm ports ih =>
    rcases addChildren_cons_cases s session spec pm ports with
      ⟨_, err, heq⟩ | ⟨from_, to_, id', _, hid', _, heq⟩
    · rw [heq]
    · have hne : id ≠ id' := by
        intro heq'
        rw [← heq'] at hid'
        exact h pm mem_cons_self hid'
      rw [heq, ih (fun pm' hpm' => h pm' (mem_cons_of_mem pm hpm')), lookup_put,
        if_neg hne]

/-- The loop leaves the parent alone. -/
theorem lookup_addChildren_parent (s : State) (session : String) (spec : InterceptSpec)
    (ports : List String) :
    (addChildren session spec ports s).1.intercepts.lookup
        (interceptID session spec.name) =
      s.intercepts.lookup (interceptID session spec.name) :=
  lookup_addChildren_of_ne fun _ _ hid => childID_ne_parent hid rfl

/-! ## The whole call -/

/-- The call is refused before it stores anything: there is no such client
session, the workload or its agents cannot be had, or the ID is taken. -/
def Shared.Refuses (sh : Shared) (cluster : Cluster) (cir : CreateInterceptRequest) : Prop :=
  sh.clients.lookup cir.session = none ∨ cluster.workloadError.isSome = true ∨
    cluster.agentError.isSome = true ∨ sh.mgr.Taken (interceptID cir.session cir.spec.name)

/-- The state in which the loop over the pod-ports begins. -/
def Shared.putParent (sh : Shared) (cir : CreateInterceptRequest) : State :=
  sh.mgr.put (interceptID cir.session cir.spec.name) cir.spec cir.session

/-- **What `AddIntercept` does.**  It is refused, or its outcome is that of
the loop. -/
theorem addIntercept_outcome (sh : Shared) (cluster : Cluster) (cir : CreateInterceptRequest) :
    (sh.Refuses cluster cir ∧ ∃ err, sh.addIntercept cluster cir = (sh, .error err)) ∨
      ¬ sh.Refuses cluster cir ∧
        ∃ s out, addChildren cir.session cir.spec cir.spec.podPorts (sh.putParent cir) =
            (s, out) ∧
          sh.addIntercept cluster cir =
            ({ sh with mgr := s },
              match out with
              | some err => .error err
              | none => .ok (sh.mgr.newIntercept (interceptID cir.session cir.spec.name) cir.spec
                  cir.session)) := by
  unfold Shared.addIntercept Shared.Refuses
  cases hclient : sh.clients.lookup cir.session with
  | none => exact .inl ⟨.inl rfl, _, rfl⟩
  | some client =>
    cases hworkload : cluster.workloadError with
    | some e => exact .inl ⟨.inr (.inl rfl), _, rfl⟩
    | none =>
      cases hagent : cluster.agentError with
      | some e => exact .inl ⟨.inr (.inr (.inl rfl)), _, rfl⟩
      | none =>
        dsimp only
        rcases sh.mgr.addIntercept_cases (interceptID cir.session cir.spec.name) cir.spec
          cir.session with ⟨htaken, msg, heq⟩ | ⟨hfree, heq⟩
        · rw [heq]
          exact .inl ⟨.inr (.inr (.inr htaken)), _, rfl⟩
        · rw [heq]
          refine .inr ⟨by simp [hfree], _, _, rfl, ?_⟩
          unfold Shared.putParent
          dsimp only
          cases (addChildren cir.session cir.spec cir.spec.podPorts
            (sh.mgr.put (interceptID cir.session cir.spec.name) cir.spec cir.session)) with
          | mk s out => cases out <;> rfl

/-- The parent is stored when the loop ends, whatever its outcome. -/
theorem lookup_parent (sh : Shared) (cir : CreateInterceptRequest) {out : Option GrpcError}
    (h : addChildren cir.session cir.spec cir.spec.podPorts (sh.putParent cir) = (s, out)) :
    s.intercepts.lookup (interceptID cir.session cir.spec.name) =
      some (sh.mgr.newIntercept (interceptID cir.session cir.spec.name) cir.spec cir.session) := by
  have hloop := lookup_addChildren_parent (sh.putParent cir) cir.session cir.spec cir.spec.podPorts
  rw [h] at hloop
  rw [hloop, Shared.putParent, lookup_put, if_pos rfl]

/-- Storing the parent does not take the ID of a child. -/
theorem portsFit_putParent {sh : Shared} {cir : CreateInterceptRequest} :
    (sh.putParent cir).PortsFit cir.session cir.spec cir.spec.podPorts ↔
      sh.mgr.PortsFit cir.session cir.spec cir.spec.podPorts := by
  unfold State.PortsFit
  refine exists_congr fun ids => and_congr_right fun hids => and_congr_right fun _ => ?_
  refine forall₂_congr fun id hid => not_congr ?_
  rw [Shared.putParent, taken_put]
  have hchild : some id ∈ cir.spec.podPorts.map (childID cir.session cir.spec) := by
    rw [hids]
    exact mem_map.mpr ⟨id, hid, rfl⟩
  obtain ⟨pm, _, hpm⟩ := mem_map.mp hchild
  simp [childID_ne_parent hpm]

/-- **All or nothing.**  A call that returns an error leaves the intercepts as
they were if and only if it is refused before it stores the parent or all
pod-ports fit, so that there is no error after that. -/
theorem addIntercept_atomic_iff (sh : Shared) (cluster : Cluster) (cir : CreateInterceptRequest) :
    ((∃ err, (sh.addIntercept cluster cir).2 = .error err) →
        ∀ id, (sh.addIntercept cluster cir).1.mgr.intercepts.lookup id =
          sh.mgr.intercepts.lookup id) ↔
      sh.Refuses cluster cir ∨ sh.mgr.PortsFit cir.session cir.spec cir.spec.podPorts := by
  rcases addIntercept_outcome sh cluster cir with ⟨href, err, heq⟩ | ⟨href, s, out, hloop, heq⟩
  · rw [heq]
    exact ⟨fun _ => .inl href, fun _ _ _ => rfl⟩
  · have hfit : out = none ↔ sh.mgr.PortsFit cir.session cir.spec cir.spec.podPorts := by
      rw [← portsFit_putParent, ← addChildren_eq_none_iff, hloop]
    rw [heq, ← hfit]
    cases out with
    | none =>
      refine ⟨fun _ => .inr rfl, ?_⟩
      rintro _ ⟨err, herr⟩
      cases herr
    | some err =>
      refine ⟨?_, ?_⟩
      · intro h
        -- the parent is there now, and its ID was not taken before
        have hsame := h ⟨err, rfl⟩ (interceptID cir.session cir.spec.name)
        rw [lookup_parent sh cir hloop] at hsame
        exact absurd (.inr (.inr (.inr ⟨_, hsame.symm, newIntercept_ne_removed _ _ _ _⟩))) href
      · rintro (h | h)
        · exact absurd h href
        · cases h

/-- A request whose second pod-port does not parse fails, and its parent and
first child stay. -/
theorem addIntercept_leaves_parent :
    ∃ (sh : Shared) (cir : CreateInterceptRequest) (err : GrpcError),
      (sh.addIntercept {} cir).2 = .error err ∧
        sh.mgr.intercepts.lookup "c:echo" = none ∧
        ((sh.addIntercept {} cir).1.mgr.intercepts.lookup "c:echo").isSome = true := by
  refine ⟨{ clients := (∅ : GoMap String ClientSession).insert "c" ⟨"default", 0⟩ },
    ⟨"c", { name := "echo", agent := "echo", podPorts := ["8080", "nope"] }⟩, ?_⟩
  exact ⟨_, rfl, rfl, rfl⟩

end Telepresence.Manager
