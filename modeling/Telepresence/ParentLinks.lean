import Telepresence.PodPorts

/-!
# From a child to its parent

The only link from a child intercept to its parent is the text that
`AddIntercept` puts into the child's `Client` field,

    child <pod-port> <name of the parent> <client of the parent>

`IsChildIntercept` recognizes the first word and `GetParentIntercept` takes
the third of four words for the name.  `RestoreIntercepts` finds the parents
in the same way after a restart.

A call of `AddIntercept` that fails at a pod-port leaves the parent behind, and
the children of the pod-ports before that one.

* `links_hold_iff`: along a run, restarts included, the links of all stored
  parents hold if and only if no parent is stored whose client starts with
  `child `, and none with a child that has a space in its name or client.
-/

namespace Telepresence.Manager

open Telepresence.Types List GoMap Strings

/-- `IsChildIntercept`. -/
def isChildIntercept (spec : InterceptSpec) : Bool := hasPrefix spec.client "child "

/-- `GetParentIntercept`. -/
def State.getParentIntercept (s : State) (session : String) (spec : InterceptSpec) :
    Option InterceptInfo :=
  match split spec.client ' ' with
  | [_, _, name, _] => s.intercepts.lookup (interceptID session name)
  | _ => none

open State

/-- The first loop of `RestoreIntercepts`, with the children added so far. -/
def State.restoreLoop : List InterceptInfo → State → List InterceptInfo →
    State × List InterceptInfo
  | [], s, addedChildren => (s, addedChildren)
  | intercept :: rest, s, addedChildren =>
      if (s.intercepts.lookup intercept.id).isSome then restoreLoop rest s addedChildren
      else
        restoreLoop rest { s with intercepts := s.intercepts.insert intercept.id intercept }
          (if isChildIntercept intercept.spec then addedChildren ++ [intercept] else addedChildren)

/-- `RestoreIntercepts`: the state, and which parents get a finalizer that
deletes which child. -/
def State.restoreIntercepts (intercepts : List InterceptInfo) (s : State) :
    State × List (String × String) :=
  let (s, addedChildren) := s.restoreLoop intercepts []
  (s, addedChildren.filterMap fun child =>
    (s.getParentIntercept child.clientSession child.spec).map fun parent => (parent.id, child.id))

/-- The intercepts, in the order of the map. -/
def State.stored (s : State) : List InterceptInfo := s.intercepts.entries.map (·.2)

/-! ## Runs -/

instance (s : State) (id : String) : Decidable (s.Taken id) :=
  decidable_of_iff ((s.intercepts.lookup id).any fun ic => ic.disposition ≠ .removed) (by
    simp [State.Taken, Option.any_eq_true])

instance (sh : Shared) (cluster : Cluster) (cir : CreateInterceptRequest) :
    Decidable (sh.Refuses cluster cir) :=
  decidable_of_iff ((sh.clients.lookup cir.session).isNone = true ∨
    cluster.workloadError.isSome = true ∨ cluster.agentError.isSome = true ∨
    sh.mgr.Taken (interceptID cir.session cir.spec.name)) (by
      simp [Shared.Refuses])

/-- The traffic-manager, with the requests whose parents it has stored, also
where the call failed later. -/
structure Managed where
  sh : Shared := {}
  parents : List CreateInterceptRequest := []

/-- What happens to the traffic-manager.  An intercept or session is removed
together with the intercepts that the finalizers delete; a restart restores
the intercepts in some order. -/
inductive Event where
  | addClient (id : String) (client : ClientSession)
  | removeSession (id : String) (finalized : List String)
  | addAgent (agent : AgentInfo)
  | restoreAgent (id : String) (agent : AgentInfo)
  | removeAgentSession (id : String)
  | reviewIntercept (r : ReviewInterceptRequest)
  | removeIntercept (id : String) (finalized : List String)
  | addIntercept (cluster : Cluster) (cir : CreateInterceptRequest)
  | restart (intercepts : List InterceptInfo)

/-- The state without some of the intercepts. -/
def State.dropIntercepts (s : State) (ids : List String) : State :=
  { s with intercepts := GoMap.deleteAll ids s.intercepts }

/-- The IDs of the intercepts that `gcClientSessionIntercepts` removes. -/
def State.sessionIntercepts (s : State) (session : String) : List String :=
  s.intercepts.keys.filter fun key =>
    match s.intercepts.lookup key with
    | none => false
    | some is => is.disposition ≠ .removed ∧ is.clientSession = session

/-- One event. -/
def Managed.step (w : Managed) : Event → Option Managed
  | .addClient id client =>
      some { w with sh := { w.sh with clients := w.sh.clients.insert id client } }
  | .removeSession id finalized =>
      some { w with
        sh := { w.sh with
          clients := w.sh.clients.erase id
          mgr := w.sh.mgr.dropIntercepts (w.sh.mgr.sessionIntercepts id ++ finalized) } }
  | .addAgent agent => some { w with sh := { w.sh with mgr := w.sh.mgr.addAgent agent } }
  | .restoreAgent id agent =>
      some { w with sh := { w.sh with mgr := w.sh.mgr.restoreAgent id agent } }
  | .removeAgentSession id =>
      some { w with sh := { w.sh with mgr := w.sh.mgr.removeAgentSession id } }
  | .reviewIntercept r => some { w with sh := { w.sh with mgr := w.sh.mgr.reviewIntercept r } }
  | .removeIntercept id finalized =>
      some { w with sh := { w.sh with mgr := w.sh.mgr.dropIntercepts (id :: finalized) } }
  | .addIntercept cluster cir =>
      some {
        sh := (w.sh.addIntercept cluster cir).1
        parents := if w.sh.Refuses cluster cir then w.parents else cir :: w.parents }
  | .restart intercepts =>
      if intercepts.isPerm w.sh.mgr.stored then
        some { w with sh := { mgr := (restoreIntercepts intercepts {}).1 } }
      else none

/-- The intercept of the request and its children are linked: where the parent
is stored, it does not look like a child, and every child that is stored looks
like one and leads to the parent. -/
def State.Linked (s : State) (cir : CreateInterceptRequest) : Prop :=
  ∀ parent : InterceptInfo,
    s.intercepts.lookup (interceptID cir.session cir.spec.name) = some parent →
    parent.spec = cir.spec →
    isChildIntercept parent.spec = false ∧
      ∀ pm ∈ cir.spec.podPorts, ∀ (from_ : Nat) (to_ : PortAndProto) (child : InterceptInfo),
        fromNumberAndTo pm = .ok (from_, to_) →
        s.StoresChild cir.session cir.spec pm from_ to_ child →
        isChildIntercept child.spec = true ∧
          s.getParentIntercept child.clientSession child.spec = some parent

/-- All parents are linked. -/
def Managed.Linked (w : Managed) : Prop := ∀ cir ∈ w.parents, w.sh.mgr.Linked cir

/-- The request has pod-ports, and the first of them fits: it gets a child. -/
def Shared.StoresChildren (sh : Shared) (cir : CreateInterceptRequest) : Prop :=
  ∃ pm ports, cir.spec.podPorts = pm :: ports ∧ sh.mgr.PortsFit cir.session cir.spec [pm]

/-- A request that is not refused has a client that does not look like a child,
and if it gets a child, its names survive the text. -/
def Managed.Allows (w : Managed) : Event → Prop
  | .addIntercept cluster cir =>
      w.sh.Refuses cluster cir ∨ hasPrefix cir.spec.client "child " = false ∧
        (w.sh.StoresChildren cir → ' ' ∉ cir.spec.name.toList ∧ ' ' ∉ cir.spec.client.toList)
  | _ => True

/-! ## The text -/

theorem isChildIntercept_childSpec (spec : InterceptSpec) (pm : String) (from_ : Nat)
    (to_ : PortAndProto) : isChildIntercept (childSpec spec pm from_ to_) = true := by
  rw [isChildIntercept, hasPrefix_iff]
  simp only [childSpec, String.toList_append, append_assoc]
  exact prefix_append _ _

variable {spec : InterceptSpec} {pm : String}

/-- Without spaces in the parts, the third word is the name. -/
theorem split_client (from_ : Nat) (to_ : PortAndProto) (hpm : ' ' ∉ pm.toList)
    (hname : ' ' ∉ spec.name.toList) (hclient : ' ' ∉ spec.client.toList) :
    split (childSpec spec pm from_ to_).client ' ' = ["child", pm, spec.name, spec.client] := by
  have hword : ("child " : String) = "child" ++ " " := rfl
  have hspace : (" " : String).toList = [' '] := rfl
  have hchild : (childSpec spec pm from_ to_).client.toList =
      "child".toList ++ ' ' :: (pm ++ " " ++ spec.name ++ " " ++ spec.client).toList := by
    simp only [childSpec, hword, String.toList_append, hspace, append_assoc,
      cons_append, nil_append]
  have hmapping : (pm ++ " " ++ spec.name ++ " " ++ spec.client).toList =
      pm.toList ++ ' ' :: (spec.name ++ " " ++ spec.client).toList := by
    simp only [String.toList_append, hspace, append_assoc, cons_append, nil_append]
  have hparent : (spec.name ++ " " ++ spec.client).toList =
      spec.name.toList ++ ' ' :: spec.client.toList := by
    simp only [String.toList_append, hspace, append_assoc, singleton_append]
  rw [split_cons hchild (by decide), split_cons hmapping hpm,
    split_cons hparent hname, split_of_notMem hclient]

variable {from_ : Nat} {to_ : PortAndProto}

/-- There are four words only if no part has a space. -/
theorem notMem_of_length_split
    (h : (split (childSpec spec pm from_ to_).client ' ').length = 4) :
    ' ' ∉ spec.name.toList ∧ ' ' ∉ spec.client.toList := by
  have hword : ("child " : String).toList.count ' ' = 1 := by decide
  have hspace : (" " : String).toList.count ' ' = 1 := by decide
  rw [length_split] at h
  simp only [childSpec, String.toList_append, count_append, hword, hspace] at h
  constructor
  all_goals exact count_eq_zero.mp (by omega)

variable {s : State}

theorem getParentIntercept_of_fine {session : String}
    (hparse : fromNumberAndTo pm = .ok (from_, to_)) (hname : ' ' ∉ spec.name.toList)
    (hclient : ' ' ∉ spec.client.toList) :
    s.getParentIntercept session (childSpec spec pm from_ to_) =
      s.intercepts.lookup (interceptID session spec.name) := by
  rw [getParentIntercept,
    split_client from_ to_ (fromNumberAndTo_cases hparse).2.2 hname hclient]

theorem notMem_of_getParentIntercept {session : String} {parent : InterceptInfo}
    (h : s.getParentIntercept session (childSpec spec pm from_ to_) = some parent) :
    ' ' ∉ spec.name.toList ∧ ' ' ∉ spec.client.toList := by
  unfold getParentIntercept at h
  split at h
  · rename_i hsplit
    exact notMem_of_length_split (by rw [hsplit]; rfl)
  · cases h

/-! ## What is stored -/

/-- What looks like a child has four words. -/
def Worded (spec : InterceptSpec) : Prop :=
  isChildIntercept spec = true → (split spec.client ' ').length = 4

/-- The key of an intercept is its ID and made of its session and name, and its
text is that of a parent or a child. -/
def KeyOf (key : String) (is : InterceptInfo) : Prop :=
  is.id = key ∧ key = interceptID is.clientSession is.spec.name ∧ Worded is.spec

/-- All intercepts are stored under their keys. -/
def State.WellKeyed (s : State) : Prop :=
  ∀ key is, s.intercepts.lookup key = some is → KeyOf key is

theorem worded_childSpec (hparse : fromNumberAndTo pm = .ok (from_, to_))
    (hname : ' ' ∉ spec.name.toList) (hclient : ' ' ∉ spec.client.toList) :
    Worded (childSpec spec pm from_ to_) := by
  intro _
  rw [split_client from_ to_ (fromNumberAndTo_cases hparse).2.2 hname hclient]
  rfl

variable {cir : CreateInterceptRequest}

/-- Where everything that is stored has its form, a parent is linked whose
client does not look like a child: its children have four words. -/
theorem State.WellKeyed.linked (h : s.WellKeyed)
    (hclient : hasPrefix cir.spec.client "child " = false) : s.Linked cir := by
  intro parent hparent hspec
  refine ⟨by rw [isChildIntercept, hspec]; exact hclient, ?_⟩
  intro pm _ from_ to_ child hparse hchild
  obtain ⟨hlookup, hchildSpec, hsession⟩ := hchild
  have hlooks : isChildIntercept child.spec = true := by
    rw [hchildSpec]
    exact isChildIntercept_childSpec _ _ _ _
  have hwords := (h _ child hlookup).2.2 hlooks
  rw [hchildSpec] at hwords
  obtain ⟨hname, hclient⟩ := notMem_of_length_split hwords
  refine ⟨hlooks, ?_⟩
  rw [hchildSpec, hsession, getParentIntercept_of_fine hparse hname hclient]
  exact hparent

/-- The function changes neither ID nor session nor specification. -/
def KeepsIdentity (f : InterceptInfo → InterceptInfo) : Prop :=
  ∀ is, (f is).id = is.id ∧ (f is).clientSession = is.clientSession ∧ (f is).spec = is.spec

theorem KeepsIdentity.keyOf {f : InterceptInfo → InterceptInfo} (hf : KeepsIdentity f)
    {key : String} {is : InterceptInfo} (h : KeyOf key is) : KeyOf key (f is) := by
  obtain ⟨hid, hsession, hspec⟩ := hf is
  unfold KeyOf
  rw [hid, hsession, hspec]
  exact h

theorem applyReview_keeps (s : State) (agent : AgentInfo) (r : ReviewInterceptRequest) :
    KeepsIdentity (applyReview s agent r) := by
  intro is
  unfold applyReview
  split
  · exact ⟨rfl, rfl, rfl⟩
  · split
    · exact ⟨rfl, rfl, rfl⟩
    · split <;> exact ⟨rfl, rfl, rfl⟩

theorem portsFit_singleton {session : String} :
    s.PortsFit session spec [pm] ↔ ∃ id, childID session spec pm = some id ∧ ¬ s.Taken id := by
  rw [State.portsFit_cons]
  refine exists_congr fun id => and_congr_right fun _ => and_iff_left fun _ => ?_
  exact ⟨[], rfl, nodup_nil, by simp⟩

namespace State.WellKeyed

variable {s : State}

section

variable (h : s.WellKeyed)

include h

theorem mapValues {s' : State} {f : InterceptInfo → InterceptInfo}
    (hf : KeepsIdentity f) (heq : s'.intercepts = GoMap.mapValues f s.intercepts) :
    s'.WellKeyed := by
  intro key is his
  rw [heq, lookup_mapValues] at his
  obtain ⟨is', his', rfl⟩ := Option.map_eq_some_iff.mp his
  exact hf.keyOf (h key is' his')

theorem restoreAgent (id : String) (agent : AgentInfo) : (s.restoreAgent id agent).WellKeyed := by
  unfold State.restoreAgent
  split
  · exact h
  · exact h.mapValues (fun is => (onAgentArrival_cases _ is).1) rfl

theorem addAgent (agent : AgentInfo) : (s.addAgent agent).WellKeyed := by
  unfold State.addAgent
  split
  · exact h
  · exact h.restoreAgent _ agent

theorem removeAgentSession (id : String) : (s.removeAgentSession id).WellKeyed := by
  unfold State.removeAgentSession
  split
  · exact h
  · exact h.mapValues (fun is => (onAgentRemoval_cases _ _ is).1) rfl

theorem reviewIntercept (r : ReviewInterceptRequest) : (s.reviewIntercept r).WellKeyed := by
  unfold State.reviewIntercept
  split
  · exact h
  · rename_i agent _
    unfold updateIntercept
    split
    · exact h
    · rename_i cur hcur
      intro key is his
      rw [lookup_insert_eq] at his
      split at his
      · rename_i hkey
        cases his
        rw [hkey]
        exact (applyReview_keeps s agent r).keyOf (h r.id cur hcur)
      · exact h key is his

theorem dropIntercepts (ids : List String) : (s.dropIntercepts ids).WellKeyed := by
  intro key is his
  rw [State.dropIntercepts, lookup_deleteAll] at his
  split at his
  · cases his
  · exact h key is his

theorem put (session : String) {spec : InterceptSpec} (hworded : Worded spec) :
    (s.put (interceptID session spec.name) spec session).WellKeyed := by
  intro key is his
  rw [lookup_put] at his
  split at his
  · rename_i hkey
    cases his
    obtain ⟨hspec, hid, hsession⟩ :=
      newIntercept_fields s (interceptID session spec.name) spec session
    exact ⟨by rw [hid, hkey], by rw [hspec, hsession, hkey], by rw [hspec]; exact hworded⟩
  · exact h key is his

theorem addChildren (session : String) {spec : InterceptSpec} (hname : ' ' ∉ spec.name.toList)
    (hclient : ' ' ∉ spec.client.toList) (ports : List String) :
    (addChildren session spec ports s).1.WellKeyed := by
  induction ports generalizing s with
  | nil => exact h
  | cons pm ports ih =>
    rcases addChildren_cons_cases s session spec pm ports with
      ⟨_, err, heq⟩ | ⟨from_, to_, id, hparse, hid, _, heq⟩
    · rw [heq]
      exact h
    · have hkey : id = interceptID session (childSpec spec pm from_ to_).name := by
        rw [childID, hparse] at hid
        exact (Option.some.inj hid).symm
      rw [heq, hkey]
      exact ih (h.put session (worded_childSpec hparse hname hclient))

end

theorem addIntercept {w : Managed} (h : w.sh.mgr.WellKeyed) {cluster : Cluster}
    {cir : CreateInterceptRequest} (hallow : w.Allows (.addIntercept cluster cir)) :
    (w.sh.addIntercept cluster cir).1.mgr.WellKeyed := by
  rcases addIntercept_outcome w.sh cluster cir with ⟨_, err, heq⟩ | ⟨href, s, out, hloop, heq⟩
  · rw [heq]
    exact h
  · obtain ⟨hclient, hspaces⟩ := hallow.resolve_left href
    have hparent : (w.sh.putParent cir).WellKeyed :=
      h.put cir.session fun hlooks => by
        rw [isChildIntercept, hclient] at hlooks
        cases hlooks
    rw [heq]
    change s.WellKeyed
    have hs : s = (State.addChildren cir.session cir.spec cir.spec.podPorts
        (w.sh.putParent cir)).1 := by rw [hloop]
    rw [hs]
    by_cases hchild : w.sh.StoresChildren cir
    · exact hparent.addChildren cir.session (hspaces hchild).1 (hspaces hchild).2 _
    · cases hports : cir.spec.podPorts with
      | nil => exact hparent
      | cons pm ports =>
        rcases addChildren_cons_cases (w.sh.putParent cir) cir.session cir.spec pm ports with
          ⟨_, err, heq⟩ | ⟨from_, to_, id, _, hid, hfree, _⟩
        · rw [heq]
          exact hparent
        · exact absurd ⟨pm, ports, hports, portsFit_singleton.mpr ⟨id, hid, fun htaken =>
            hfree (taken_put.mpr (.inr htaken))⟩⟩ hchild

end State.WellKeyed

/-! ## Restarts -/

variable {intercepts : List InterceptInfo}

/-- Where the IDs are new and differ, the loop stores every intercept. -/
theorem lookup_restoreLoop {added : List InterceptInfo} (hnodup : (intercepts.map (·.id)).Nodup)
    (hnew : ∀ is ∈ intercepts, s.intercepts.lookup is.id = none) (key : String) :
    (s.restoreLoop intercepts added).1.intercepts.lookup key =
      (intercepts.find? (·.id == key)).or (s.intercepts.lookup key) := by
  induction intercepts generalizing s added with
  | nil => rfl
  | cons is rest ih =>
    rw [map_cons, nodup_cons] at hnodup
    have hnone := hnew is mem_cons_self
    have hrest : ∀ is' ∈ rest,
        (s.intercepts.insert is.id is).lookup is'.id = none := by
      intro is' his'
      have hne : is'.id ≠ is.id := by
        intro heq
        exact hnodup.1 (mem_map.mpr ⟨is', his', heq⟩)
      rw [lookup_insert_eq, if_neg hne]
      exact hnew is' (mem_cons_of_mem is his')
    rw [restoreLoop, hnone]
    simp only [Option.isSome_none, Bool.false_eq_true, if_false]
    rw [ih hnodup.2 hrest, lookup_insert_eq, find?_cons]
    by_cases hkey : is.id = key
    · have hlast : rest.find? (·.id == key) = none := by
        rw [find?_eq_none]
        intro is' his' heq
        rw [beq_iff_eq] at heq
        exact hnodup.1 (mem_map.mpr ⟨is', his', by rw [heq, hkey]⟩)
      rw [hlast, if_pos hkey.symm, beq_iff_eq.mpr hkey]
      rfl
    · rw [if_neg (fun h => hkey h.symm), beq_eq_false_iff_ne.mpr hkey]

theorem State.WellKeyed.mem_stored_iff (h : s.WellKeyed) {is : InterceptInfo} :
    is ∈ s.stored ↔ s.intercepts.lookup is.id = some is := by
  rw [stored, mem_map]
  constructor
  · rintro ⟨⟨key, is'⟩, hmem, rfl⟩
    have hlook : s.intercepts.lookup key = some is' := mem_entries_iff.mp hmem
    rw [(h key is' hlook).1]
    exact hlook
  · intro hlook
    exact ⟨⟨is.id, is⟩, mem_entries_iff.mpr hlook, rfl⟩

/-- **Restarts.**  Whatever the order in which the stored intercepts are
restored, the map is the same. -/
theorem lookup_restart (h : s.WellKeyed) (hperm : intercepts.Perm s.stored) (key : String) :
    (restoreIntercepts intercepts {}).1.intercepts.lookup key =
      s.intercepts.lookup key := by
  have hids : s.stored.map (·.id) = s.intercepts.keys := by
    rw [stored, map_map]
    refine map_congr_left ?_
    intro e he
    have hlook : s.intercepts.lookup e.1 = some e.2 := mem_entries_iff.mp he
    exact (h e.1 e.2 hlook).1
  have hnodup : (intercepts.map (·.id)).Nodup := by
    rw [(hperm.map _).nodup_iff, hids]
    exact s.intercepts.nodupKeys
  have hmem : ∀ is, is ∈ intercepts ↔ s.intercepts.lookup is.id = some is := by
    intro is
    rw [hperm.mem_iff, h.mem_stored_iff]
  have hloop : (restoreIntercepts intercepts {}).1.intercepts.lookup key =
      (intercepts.find? (·.id == key)).or none := lookup_restoreLoop hnodup (fun _ _ => rfl) key
  rw [hloop, Option.or_none]
  cases hfind : intercepts.find? (·.id == key) with
  | some is =>
    have hid : is.id = key := by simpa using find?_some hfind
    rw [← hid, (hmem is).mp (mem_of_find?_eq_some hfind)]
  | none =>
    rw [find?_eq_none] at hfind
    cases hlook : s.intercepts.lookup key with
    | none => rfl
    | some is =>
      have hid := (h key is hlook).1
      exact absurd (beq_iff_eq.mpr hid) (hfind is ((hmem is).mpr (by rw [hid]; exact hlook)))

theorem State.WellKeyed.restart (h : s.WellKeyed) (hperm : intercepts.Perm s.stored) :
    (restoreIntercepts intercepts {}).1.WellKeyed := by
  intro key is his
  rw [lookup_restart h hperm] at his
  exact h key is his

/-! ## The links -/

/-- The loop leaves alone what is stored already. -/
theorem lookup_addChildren_of_taken {session id : String} {ports : List String}
    (h : s.Taken id) : (addChildren session spec ports s).1.intercepts.lookup id =
      s.intercepts.lookup id := by
  induction ports generalizing s with
  | nil => rfl
  | cons pm ports ih =>
    rcases addChildren_cons_cases s session spec pm ports with
      ⟨_, err, heq⟩ | ⟨from_, to_, id', _, _, hfree, heq⟩
    · rw [heq]
    · have hne : id ≠ id' := by
        rintro rfl
        exact hfree h
      rw [heq, ih (taken_put.mpr (.inr h)), lookup_put, if_neg hne]

/-- The parent of a request that is not refused is stored, and the child of the
first pod-port if it fits, whatever becomes of the call. -/
theorem addIntercept_leaves {sh : Shared} {cluster : Cluster} (href : ¬ sh.Refuses cluster cir) :
    (∃ parent, (sh.addIntercept cluster cir).1.mgr.intercepts.lookup
        (interceptID cir.session cir.spec.name) = some parent ∧ parent.spec = cir.spec) ∧
      (sh.StoresChildren cir → ∃ pm ∈ cir.spec.podPorts, ∃ from_ to_ child,
        fromNumberAndTo pm = .ok (from_, to_) ∧
          (sh.addIntercept cluster cir).1.mgr.StoresChild cir.session cir.spec pm from_ to_ child) := by
  obtain ⟨href', _⟩ | ⟨_, s, out, hloop, heq⟩ := addIntercept_outcome sh cluster cir
  · exact absurd href' href
  rw [heq]
  refine ⟨⟨_, lookup_parent sh cir hloop, (newIntercept_fields _ _ _ _).1⟩, ?_⟩
  rintro ⟨pm, ports, hports, hfit⟩
  obtain ⟨id, hid, hfree⟩ := portsFit_singleton.mp hfit
  have hfree' : ¬ (sh.putParent cir).Taken id := by
    rw [Shared.putParent, taken_put]
    rintro (hparent | htaken)
    · exact childID_ne_parent hid hparent
    · exact hfree htaken
  rw [hports] at hloop ⊢
  rcases addChildren_cons_cases (sh.putParent cir) cir.session cir.spec pm ports with
    ⟨hfail, _⟩ | ⟨from_, to_, id', hparse, hid', _, hcons⟩
  · rcases hfail with hnone | ⟨id', hid', htaken⟩
    · rw [hnone] at hid
      cases hid
    · rw [hid'] at hid
      cases hid
      exact absurd htaken hfree'
  · have hkey : id' = interceptID cir.session (childSpec cir.spec pm from_ to_).name := by
      rw [childID, hparse] at hid'
      exact (Option.some.inj hid').symm
    let s₁ := (sh.putParent cir).put id' (childSpec cir.spec pm from_ to_) cir.session
    have htaken : s₁.Taken id' := taken_put.mpr (.inl rfl)
    have hstored : (addChildren cir.session cir.spec ports s₁).1.intercepts.lookup id' =
        s₁.intercepts.lookup id' := lookup_addChildren_of_taken htaken
    rw [← hcons, hloop, lookup_put, if_pos rfl] at hstored
    have hfields := newIntercept_fields (sh.putParent cir) id' (childSpec cir.spec pm from_ to_)
      cir.session
    exact ⟨pm, mem_cons_self, from_, to_, _, hparse, hkey ▸ hstored, hfields.1, hfields.2.2⟩

/-- The intercepts are well keyed, and no parent looks like a child. -/
def Managed.Inv (w : Managed) : Prop :=
  w.sh.mgr.WellKeyed ∧ ∀ cir ∈ w.parents, hasPrefix cir.spec.client "child " = false

theorem Managed.Inv.step {w w' : Managed} {e : Event} (h : w.Inv) (hallow : w.Allows e)
    (hstep : w.step e = some w') : w'.Inv := by
  obtain ⟨hkeys, hfine⟩ := h
  cases e with
  | addClient id client =>
    cases hstep
    exact ⟨hkeys, hfine⟩
  | removeSession | removeIntercept =>
    cases hstep
    exact ⟨hkeys.dropIntercepts _, hfine⟩
  | addAgent agent =>
    cases hstep
    exact ⟨hkeys.addAgent agent, hfine⟩
  | restoreAgent id agent =>
    cases hstep
    exact ⟨hkeys.restoreAgent id agent, hfine⟩
  | removeAgentSession id =>
    cases hstep
    exact ⟨hkeys.removeAgentSession id, hfine⟩
  | reviewIntercept r =>
    cases hstep
    exact ⟨hkeys.reviewIntercept r, hfine⟩
  | addIntercept cluster cir =>
    cases hstep
    refine ⟨hkeys.addIntercept hallow, ?_⟩
    dsimp only
    split
    · exact hfine
    · rename_i href
      exact forall_mem_cons.mpr ⟨(hallow.resolve_left href).1, hfine⟩
  | restart intercepts =>
    simp only [Managed.step] at hstep
    split at hstep
    · rename_i hperm
      cases hstep
      exact ⟨hkeys.restart (isPerm_iff.mp hperm), hfine⟩
    · cases hstep

/-- A request that is not allowed is not linked once it is stored. -/
theorem not_linked_of_not_allows {w w' : Managed} {e : Event} (hallow : ¬ w.Allows e)
    (hstep : w.step e = some w') : ¬ w'.Linked := by
  cases e with
  | addIntercept cluster cir =>
    obtain ⟨href, hnot⟩ := not_or.mp hallow
    cases hstep
    intro hlinked
    obtain ⟨⟨parent, hparent, hspec⟩, hchildren⟩ := addIntercept_leaves href
    have hlink := hlinked cir (by rw [if_neg href]; exact mem_cons_self) parent hparent hspec
    refine hnot ⟨by rw [← hspec]; exact hlink.1, ?_⟩
    intro hstores
    obtain ⟨pm, hpm, from_, to_, child, hparse, hchild⟩ := hchildren hstores
    have hget := (hlink.2 pm hpm from_ to_ child hparse hchild).2
    rw [hchild.2.1] at hget
    exact notMem_of_getParentIntercept hget
  | _ => exact absurd trivial hallow

/-- **Parents and children.**  In every state of a run, all parents that were
stored are linked, if and only if every request that is not refused is allowed. -/
theorem links_hold_iff (events : List Event) :
    Runs.Always Managed.step Managed.Linked {} events ↔
      Runs.Meets Managed.step Managed.Allows {} events := by
  have hprop : ∀ w : Managed, w.Inv → w.Linked := by
    intro w hw cir hcir
    exact hw.1.linked (hw.2 cir hcir)
  refine Runs.always_iff_meets hprop ?_ ?_ ?_ events
  · intro w e w' hw hallow hstep
    exact hw.step hallow hstep
  · intro w e w' _ hallow hstep
    exact not_linked_of_not_allows hallow hstep
  · refine ⟨?_, ?_⟩
    · intro key is his
      cases his
    · intro cir hcir
      cases hcir

/-- The child of a parent whose client has a space in its name does not lead
to its parent. -/
theorem link_lost :
    ∃ w : Managed,
      Runs.run Managed.step {}
          [.addClient "c" ⟨"default", 0⟩,
            .addIntercept {} ⟨"c", { name := "echo", client := "John Doe", podPorts := ["8080"] }⟩] =
        some w ∧
      ∃ parent child, w.sh.mgr.intercepts.lookup "c:echo" = some parent ∧
        parent.spec.podPorts = ["8080"] ∧
        w.sh.mgr.StoresChild "c" parent.spec "8080" 8080 ⟨8080, .tcp⟩ child ∧
        w.sh.mgr.getParentIntercept "c" child.spec = none :=
  ⟨_, rfl, _, _, rfl, rfl, ⟨rfl, rfl, rfl⟩, rfl⟩

end Telepresence.Manager
