import Telepresence.PodWatcher

/-!
# The pod CIDRs of the nodes

`nodeWatcher` of `manager/cluster` keeps the set of the pod CIDRs of all nodes
that are ready, by the differences that the events about the nodes make.

An update that drops CIDRs and adds others does the first and then, in the
second operand of `||`, would do the other; but the first operand is true.
`subnets_follow_iff` says for which sequences of events the set is right.

The changes are announced on a channel while the lock is held, which the reader of
the channel needs before it reads: `deadlock_free_iff`.
-/

namespace Telepresence.Cluster

open Netip Inventories Deltas Runs List

/-! ## Nodes -/

/-- `core.NodeCondition`. -/
structure NodeCondition where
  type : String
  status : String
  lastTransitionTime : Int
  deriving DecidableEq

/-- `core.Node`, with its name, its conditions and its pod CIDRs. -/
structure Node where
  name : String
  conditions : List NodeCondition
  podCIDRs : List String := []
  podCIDR : String := ""
  deriving DecidableEq

open Node

/-- `compareNodeConditions`. -/
def compareNodeConditions (a b : NodeCondition) : Int :=
  if a.lastTransitionTime < b.lastTransitionTime then -1
  else if b.lastTransitionTime < a.lastTransitionTime then 1
  else if a.status = b.status then 0
  else if a.status = "True" then 1
  else -1

/-- `nodeReady`. -/
def nodeReady (node : Node) : Bool :=
  let lastCond := node.conditions.foldl (fun (lastCond : Option NodeCondition) cond =>
    if cond.type = "Ready" ∧ lastCond.all (fun last => compareNodeConditions cond last > 0) then
      some cond
    else lastCond) none
  lastCond.any fun cond => cond.status = "True"

/-- The pod CIDRs of a node, ready or not.  What cannot be parsed is passed
over. -/
def podPrefixes (node : Node) : List Prefix :=
  let cidrs :=
    if node.podCIDRs.length = 0 ∧ node.podCIDR ≠ "" then [node.podCIDR] else node.podCIDRs
  cidrs.filterMap fun cs => parsePrefix cs.toList

/-- `nodeSubnets`. -/
def nodeSubnets (node : Node) : List Prefix := if !nodeReady node then [] else podPrefixes node

theorem mem_podPrefixes {node : Node} {sn : Prefix} (h : sn ∈ nodeSubnets node) :
    sn ∈ podPrefixes node := by
  rw [nodeSubnets] at h
  split at h
  · cases h
  · exact h

/-- `getSubnetsDelta`: what was added and what was dropped. -/
def getSubnetsDelta (oldSubnets newSubnets : List Prefix) : List Prefix × List Prefix :=
  delta oldSubnets newSubnets

/-- **The deltas are exact**, with multiplicities. -/
theorem deltas_exact (oldIPs newIPs : List Addr) (oldSubnets newSubnets : List Prefix) :
    (((getIPsDelta oldIPs newIPs).1 : Multiset Addr) = newIPs - oldIPs ∧
      ((getIPsDelta oldIPs newIPs).2 : Multiset Addr) = oldIPs - newIPs) ∧
    ((getSubnetsDelta oldSubnets newSubnets).1 : Multiset Prefix) = newSubnets - oldSubnets ∧
      ((getSubnetsDelta oldSubnets newSubnets).2 : Multiset Prefix) = oldSubnets - newSubnets :=
  ⟨(isDelta_delta oldIPs newIPs).coe_eq, (isDelta_delta oldSubnets newSubnets).coe_eq⟩

/-! ## The watcher -/

/-- `nodeWatcher`: the subnets, and how many times a change was announced. -/
structure NodeWatcher where
  subnets : Finset Prefix
  changed : Nat := 0

/-- The error of `newNodeWatcher` that is its own: "no node subnets contain the
traffic manager pod IP", with the quoted address. -/
inductive NodeWatcherError where
  | noNodeSubnetsContain (podIP : Addr)

/-- `newNodeWatcher`, for the nodes that the lister returns. -/
def newNodeWatcher (podIP : Addr) (nodes : List Node) : Except NodeWatcherError NodeWatcher :=
  let sns := nodes.flatMap nodeSubnets
  let viable := sns.any fun sn => sn.contains podIP
  if !viable then .error (.noNodeSubnetsContain podIP) else .ok { subnets := sns.toFinset }

namespace NodeWatcher

/-- `Set.Add`, in the loop of `addLocked`. -/
def addOne (r : Bool × NodeWatcher) (sn : Prefix) : Bool × NodeWatcher :=
  if sn ∈ r.2.subnets then r else (true, { r.2 with subnets := insert sn r.2.subnets })

/-- `Set.Delete`, in the loop of `dropLocked`. -/
def dropOne (r : Bool × NodeWatcher) (ds : Prefix) : Bool × NodeWatcher :=
  if ds ∈ r.2.subnets then (true, { r.2 with subnets := r.2.subnets.erase ds }) else r

/-- `addLocked`, and if anything has changed. -/
def addLocked (w : NodeWatcher) (subnets : List Prefix) : Bool × NodeWatcher :=
  subnets.foldl addOne (false, w)

/-- `dropLocked`, and if anything has changed. -/
def dropLocked (w : NodeWatcher) (subnets : List Prefix) : Bool × NodeWatcher :=
  if w.subnets = ∅ then (false, w) else subnets.foldl dropOne (false, w)

/-- Announce a change, if there is one. -/
def announce (r : Bool × NodeWatcher) : NodeWatcher :=
  if r.1 then { r.2 with changed := r.2.changed + 1 } else r.2

/-- `add`. -/
def add (w : NodeWatcher) (subnets : List Prefix) : NodeWatcher := announce (w.addLocked subnets)

/-- `drop`. -/
def drop (w : NodeWatcher) (subnets : List Prefix) : NodeWatcher := announce (w.dropLocked subnets)

/-- `update`.  The second operand is evaluated only if the first one is
false. -/
def update (w : NodeWatcher) (dropped added : List Prefix) : NodeWatcher :=
  let r := w.dropLocked dropped
  announce (if r.1 then r else r.2.addLocked added)

/-- `onNodeAdded`. -/
def onNodeAdded (w : NodeWatcher) (node : Node) : NodeWatcher :=
  if (nodeSubnets node).length > 0 then w.add (nodeSubnets node) else w

/-- `onNodeDeleted`. -/
def onNodeDeleted (w : NodeWatcher) (node : Node) : NodeWatcher :=
  if (nodeSubnets node).length > 0 then w.drop (nodeSubnets node) else w

/-- The branches of `onNodeUpdated`. -/
def applyDelta (w : NodeWatcher) (added dropped : List Prefix) : NodeWatcher :=
  if added.length > 0 then
    if dropped.length > 0 then w.update dropped added else w.add added
  else if dropped.length > 0 then w.drop dropped
  else w

/-- `onNodeUpdated`. -/
def onNodeUpdated (w : NodeWatcher) (oldNode newNode : Node) : NodeWatcher :=
  let d := getSubnetsDelta (nodeSubnets oldNode) (nodeSubnets newNode)
  w.applyDelta d.1 d.2

/-- The handler of an event, which gets the node as it was and as it is. -/
def handle (w : NodeWatcher) : Option Node → Option Node → NodeWatcher
  | none, some new => w.onNodeAdded new
  | some old, some new => w.onNodeUpdated old new
  | some old, none => w.onNodeDeleted old
  | none, none => w

@[simp] theorem subnets_announce (r : Bool × NodeWatcher) :
    (announce r).subnets = r.2.subnets := by
  rw [announce]
  split
  · rfl
  · rfl

variable {r : Bool × NodeWatcher} {x sn : Prefix}

theorem subnets_addOne (r : Bool × NodeWatcher) (x : Prefix) :
    (addOne r x).2.subnets = insert x r.2.subnets := by
  rw [addOne]
  split
  · rename_i hx
    exact (Finset.insert_eq_of_mem hx).symm
  · rfl

theorem subnets_dropOne (r : Bool × NodeWatcher) (x : Prefix) :
    (dropOne r x).2.subnets = r.2.subnets.erase x := by
  rw [dropOne]
  split
  · rfl
  · rename_i hx
    exact (Finset.erase_eq_of_notMem hx).symm

theorem dropOne_changed : (dropOne r x).1 = true ↔ r.1 = true ∨ x ∈ r.2.subnets := by
  rw [dropOne]
  split
  all_goals
    rename_i hx
    simp [hx]

/-- A deletion stays recorded, whatever the loop does after it. -/
theorem foldl_dropOne_changed (sns : List Prefix) (h : r.1 = true) :
    (sns.foldl dropOne r).1 = true := by
  induction sns generalizing r with
  | nil => exact h
  | cons x sns ih =>
    rw [foldl_cons]
    exact ih (dropOne_changed.mpr (.inl h))

variable {w : NodeWatcher} {sns : List Prefix}

@[simp] theorem mem_addLocked : sn ∈ (w.addLocked sns).2.subnets ↔ sn ∈ w.subnets ∨ sn ∈ sns :=
  mem_foldl_insert (S := fun r => r.2.subnets) subnets_addOne sns (false, w)

@[simp] theorem mem_dropLocked : sn ∈ (w.dropLocked sns).2.subnets ↔ sn ∈ w.subnets ∧ sn ∉ sns := by
  rw [dropLocked]
  split
  · rename_i hempty
    simp [hempty]
  · exact mem_foldl_erase (S := fun r => r.2.subnets) subnets_dropOne sns (false, w)

/-- If the first one is there, the drop has changed something. -/
theorem dropLocked_changed (h : x ∈ w.subnets) : (w.dropLocked (x :: sns)).1 = true := by
  rw [dropLocked, if_neg (Finset.ne_empty_of_mem h), foldl_cons]
  exact foldl_dropOne_changed sns (dropOne_changed.mpr (.inr h))

/-- **An update.**  What was dropped is removed; what was added is inserted only
if nothing was removed. -/
theorem mem_applyDelta {added dropped : List Prefix} (hdropped : ∀ sn ∈ dropped, sn ∈ w.subnets) :
    sn ∈ (w.applyDelta added dropped).subnets ↔
      sn ∈ w.subnets ∧ sn ∉ dropped ∨ dropped = [] ∧ sn ∈ added := by
  cases dropped with
  | nil =>
    cases added with
    | nil => simp [applyDelta]
    | cons y added => simp [applyDelta, add]
  | cons x dropped =>
    have hchanged : (w.dropLocked (x :: dropped)).1 = true :=
      dropLocked_changed (hdropped x (mem_cons_self ..))
    cases added with
    | nil => simp [applyDelta, drop]
    | cons y added => simp [applyDelta, update, hchanged]

/-- What a handler does: it applies the difference of the CIDRs that the node had
and has. -/
theorem handle_eq (w : NodeWatcher) (old new : Option Node) : w.handle old new =
    w.applyDelta (delta (partsOf nodeSubnets old) (partsOf nodeSubnets new)).1
      (delta (partsOf nodeSubnets old) (partsOf nodeSubnets new)).2 := by
  cases old <;> cases new <;>
    simp [handle, onNodeAdded, onNodeUpdated, onNodeDeleted, getSubnetsDelta, applyDelta, partsOf]

end NodeWatcher

/-! ## The events -/

/-- No two nodes have a pod CIDR in common. -/
def Separate (nodes : GoMap String Node) : Prop :=
  ∀ e ∈ nodes.entries, ∀ e' ∈ nodes.entries, e.1 ≠ e'.1 →
    ∀ sn ∈ podPrefixes e.2, sn ∉ podPrefixes e'.2

instance (nodes : GoMap String Node) : Decidable (Separate nodes) :=
  inferInstanceAs (Decidable (∀ e ∈ nodes.entries, ∀ e' ∈ nodes.entries, e.1 ≠ e'.1 →
    ∀ sn ∈ podPrefixes e.2, sn ∉ podPrefixes e'.2))

/-- What a node has, no other one has. -/
theorem Separate.not_heldByOthers {nodes : GoMap String Node} (h : Separate nodes) {key : String}
    {sn : Prefix} (hsn : sn ∈ partsOf nodeSubnets (nodes.lookup key)) :
    ¬ heldByOthers nodeSubnets nodes key sn := by
  intro ⟨key', node', hne, hnode', hsn'⟩
  cases hnode : nodes.lookup key with
  | none =>
    rw [hnode] at hsn
    cases hsn
  | some node =>
    rw [hnode] at hsn
    exact h ⟨key, node⟩ (AList.mem_lookup_iff.mp hnode) ⟨key', node'⟩
      (AList.mem_lookup_iff.mp hnode') (Ne.symm hne) sn (mem_podPrefixes hsn)
      (mem_podPrefixes hsn')

/-- The watcher, and the nodes that exist. -/
structure NodeTracking where
  watcher : NodeWatcher
  nodes : GoMap String Node

namespace NodeTracking

/-- A node is added, updated or deleted, and the handler is told.  Only events
that leave the nodes without a common pod CIDR are considered. -/
def step (s : NodeTracking) (e : Event String Node) : Option NodeTracking :=
  (change name s.nodes e).bind fun c =>
    if Separate c.2 then some ⟨s.watcher.handle c.1.1 c.1.2, c.2⟩ else none

/-- The subnets are those of the nodes that exist. -/
def Follows (s : NodeTracking) : Prop :=
  ∀ sn, sn ∈ s.watcher.subnets ↔ held nodeSubnets s.nodes sn

/-- The node keeps no subnet that it has fewer times than before (which is so if
it was listed twice), and if it has lost any it has gained none. -/
structure OneWay (s : NodeTracking) (e : Event String Node) : Prop where
  dropped : ∀ old new nodes, change name s.nodes e = some ((old, new), nodes) →
    ∀ sn, (partsOf nodeSubnets new).count sn < (partsOf nodeSubnets old).count sn →
      sn ∉ partsOf nodeSubnets new
  noGain : ∀ old new nodes, change name s.nodes e = some ((old, new), nodes) →
    (∃ sn, (partsOf nodeSubnets new).count sn < (partsOf nodeSubnets old).count sn) →
      ∀ sn ∈ partsOf nodeSubnets new, sn ∈ partsOf nodeSubnets old

/-- The watcher has followed nodes with separate subnets. -/
structure Inv (s : NodeTracking) : Prop where
  follows : s.Follows
  separate : Separate s.nodes

variable {s t : NodeTracking} {e : Event String Node}

theorem step_cases (h : s.step e = some t) :
    ∃ old new nodes, change name s.nodes e = some ((old, new), nodes) ∧ Separate nodes ∧
      t = ⟨s.watcher.handle old new, nodes⟩ := by
  obtain ⟨⟨⟨old, new⟩, nodes⟩, hchange, h⟩ := Option.bind_eq_some_iff.mp h
  split at h
  · rename_i hseparate
    cases h
    exact ⟨old, new, nodes, hchange, hseparate, rfl⟩
  · cases h

/-- After an event the subnets are right exactly if the node has kept nothing
that it has dropped, and has not gained anything while dropping something. -/
theorem follows_step_iff (h : s.Inv) {old new : Option Node} {nodes : GoMap String Node}
    (hchange : change name s.nodes e = some ((old, new), nodes)) (hseparate : Separate nodes) :
    Follows ⟨s.watcher.handle old new, nodes⟩ ↔
      (∀ sn, (partsOf nodeSubnets new).count sn < (partsOf nodeSubnets old).count sn →
        sn ∉ partsOf nodeSubnets new) ∧
      ((∃ sn, (partsOf nodeSubnets new).count sn < (partsOf nodeSubnets old).count sn) →
        ∀ sn ∈ partsOf nodeSubnets new, sn ∈ partsOf nodeSubnets old) := by
  obtain ⟨hold, hnew, _⟩ := change_spec hchange
  have hbefore : ∀ sn, sn ∈ s.watcher.subnets ↔
      heldByOthers nodeSubnets s.nodes (e.key name) sn ∨ sn ∈ partsOf nodeSubnets old := by
    intro sn
    rw [h.follows sn, held_iff nodeSubnets s.nodes (e.key name), hold]
  have hright : ∀ sn, held nodeSubnets nodes sn ↔
      heldByOthers nodeSubnets s.nodes (e.key name) sn ∨ sn ∈ partsOf nodeSubnets new := by
    intro sn
    rw [held_iff nodeSubnets nodes (e.key name), hnew, heldByOthers_change hchange]
  have holdOthers : ∀ sn ∈ partsOf nodeSubnets old,
      ¬ heldByOthers nodeSubnets s.nodes (e.key name) sn := by
    intro sn hsn
    rw [← hold] at hsn
    exact h.separate.not_heldByOthers hsn
  have hnewOthers : ∀ sn ∈ partsOf nodeSubnets new,
      ¬ heldByOthers nodeSubnets s.nodes (e.key name) sn := by
    intro sn hsn
    rw [← hnew] at hsn
    rw [← heldByOthers_change hchange]
    exact hseparate.not_heldByOthers hsn
  have hdelta := isDelta_delta (partsOf nodeSubnets old) (partsOf nodeSubnets new)
  have heq := s.watcher.handle_eq old new
  generalize delta (partsOf nodeSubnets old) (partsOf nodeSubnets new) = d at hdelta heq
  obtain ⟨added, dropped⟩ := d
  have hsub : ∀ sn ∈ dropped, sn ∈ partsOf nodeSubnets old := by
    intro sn hsn
    exact count_pos_iff.mp (Nat.zero_lt_of_lt (hdelta.mem_dropped.mp hsn))
  have hhandle : ∀ sn, sn ∈ (s.watcher.handle old new).subnets ↔
      sn ∈ s.watcher.subnets ∧ sn ∉ dropped ∨ dropped = [] ∧ sn ∈ added := by
    intro sn
    rw [heq]
    exact NodeWatcher.mem_applyDelta fun sn hsn => (hbefore sn).mpr (.inr (hsub sn hsn))
  simp only [Follows, hright, ← hdelta.mem_dropped]
  by_cases hnil : dropped = []
  · -- nothing is dropped, so that what was added is inserted
    subst hnil
    have hafter : ∀ sn, sn ∈ (s.watcher.handle old new).subnets ↔
        sn ∈ s.watcher.subnets ∧ sn ∉ ([] : List Prefix) ∨ sn ∈ added := by
      intro sn
      rw [hhandle sn]
      simp
    rw [tracks_iff hdelta hbefore hafter]
    simp
  · -- something is dropped, and nothing is inserted
    obtain ⟨x, hx⟩ := exists_mem_of_ne_nil dropped hnil
    have hafter : ∀ sn, sn ∈ (s.watcher.handle old new).subnets ↔
        sn ∈ s.watcher.subnets ∧ sn ∉ dropped := by
      intro sn
      rw [hhandle sn]
      simp [hnil]
    constructor
    · intro hfollows
      refine ⟨?_, ?_⟩
      · intro sn hsn hkept
        exact ((hafter sn).mp ((hfollows sn).mpr (.inr hkept))).2 hsn
      · intro _ sn hsn
        have hin := ((hafter sn).mp ((hfollows sn).mpr (.inr hsn))).1
        exact ((hbefore sn).mp hin).resolve_left (hnewOthers sn hsn)
    · rintro ⟨hdropped, hgain⟩ sn
      rw [hafter, hbefore]
      constructor
      · rintro ⟨hin, hkept⟩
        refine hin.imp_right ?_
        intro hsn
        by_contra hgone
        have hcount : (partsOf nodeSubnets new).count sn < (partsOf nodeSubnets old).count sn := by
          rw [count_eq_zero_of_not_mem hgone]
          exact count_pos_iff.mpr hsn
        exact hkept (hdelta.mem_dropped.mpr hcount)
      · intro hin
        rcases hin with hothers | hsn
        · exact ⟨.inl hothers, fun hd => holdOthers sn (hsub sn hd) hothers⟩
        · exact ⟨.inr (hgain ⟨x, hx⟩ sn hsn), fun hd => hdropped sn hd hsn⟩

/-- Only an update can go wrong. -/
theorem oneWay_of_not_updated (h : ∀ node, e ≠ .updated node) : s.OneWay e := by
  have hnone : ∀ old new nodes, change name s.nodes e = some ((old, new), nodes) →
      old = none ∨ new = none := by
    intro old new nodes hchange
    cases e with
    | added node =>
      simp only [change] at hchange
      split at hchange
      · cases hchange
        exact .inl rfl
      · cases hchange
    | updated node => exact absurd rfl (h node)
    | deleted key =>
      obtain ⟨node, _, heq⟩ := Option.map_eq_some_iff.mp hchange
      cases heq
      exact .inr rfl
  refine ⟨?_, ?_⟩
  · intro old new nodes hchange sn hlt
    rcases hnone old new nodes hchange with rfl | rfl
    · exact absurd hlt (Nat.not_lt_zero _)
    · exact not_mem_nil
  · intro old new nodes hchange hlt sn hsn
    rcases hnone old new nodes hchange with rfl | rfl
    · obtain ⟨_, hlt⟩ := hlt
      exact absurd hlt (Nat.not_lt_zero _)
    · exact absurd hsn not_mem_nil

/-- The subnets are right after the events that the condition allows. -/
theorem Inv.step (h : s.Inv) (hstep : s.step e = some t) :
    (t.Follows ↔ s.OneWay e) ∧ (t.Follows → t.Inv) := by
  obtain ⟨old, new, nodes, hchange, hseparate, rfl⟩ := step_cases hstep
  refine ⟨?_, fun hfollows => ⟨hfollows, hseparate⟩⟩
  rw [follows_step_iff h hchange hseparate]
  constructor
  · intro ⟨hdropped, hgain⟩
    refine ⟨?_, ?_⟩
    all_goals
      intro old' new' nodes' hchange'
      rw [hchange] at hchange'
      cases hchange'
    · exact hdropped
    · exact hgain
  · intro he
    exact ⟨he.dropped old new nodes hchange, he.noGain old new nodes hchange⟩

end NodeTracking

/-- The new watcher has the subnets of the nodes that were listed. -/
theorem newNodeWatcher_follows {podIP : Addr} {listed : List Node} {nodes : GoMap String Node}
    {w : NodeWatcher}
    (hlisted : ∀ key node, nodes.lookup key = some node ↔ node ∈ listed ∧ node.name = key)
    (hnew : newNodeWatcher podIP listed = .ok w) : NodeTracking.Follows ⟨w, nodes⟩ := by
  simp only [newNodeWatcher] at hnew
  split at hnew
  · cases hnew
  · cases hnew
    intro sn
    rw [mem_toFinset, mem_flatMap]
    constructor
    · intro ⟨node, hnode, hsn⟩
      exact ⟨node.name, node, (hlisted _ _).mpr ⟨hnode, rfl⟩, hsn⟩
    · intro ⟨key, node, hnode, hsn⟩
      exact ⟨node, ((hlisted _ _).mp hnode).1, hsn⟩

/-- **The node watcher tracks the nodes** through a sequence of events, from the
nodes that it found when it was created, exactly if no event makes a node lose
one subnet and gain another, or list a subnet fewer times than before. -/
theorem subnets_follow_iff {podIP : Addr} {listed : List Node} {nodes : GoMap String Node}
    {w : NodeWatcher}
    (hlisted : ∀ key node, nodes.lookup key = some node ↔ node ∈ listed ∧ node.name = key)
    (hseparate : Separate nodes) (hnew : newNodeWatcher podIP listed = .ok w)
    (events : List (Event String Node)) :
    Always NodeTracking.step NodeTracking.Follows ⟨w, nodes⟩ events ↔
      Meets NodeTracking.step NodeTracking.OneWay ⟨w, nodes⟩ events := by
  have hinit : NodeTracking.Inv ⟨w, nodes⟩ := ⟨newNodeWatcher_follows hlisted hnew, hseparate⟩
  refine always_iff_meets_of_iff ?_ ?_ hinit events
  · intro s h
    exact h.follows
  · intro s e t h hstep
    exact h.step hstep

/-! ## A node with another CIDR -/

/-- A node that is ready. -/
def readyNode (name : String) (podCIDRs : List String) : Node :=
  { name, podCIDRs, conditions := [{ type := "Ready", status := "True", lastTransitionTime := 0 }] }

/-- The node of the manager, at first the only one. -/
def managerNode : Node := readyNode "a" ["10.42.0.0/24"]

/-- The address of the manager, in the subnet of its node. -/
def managerNodeAddr : Addr := managerAddr

/-- The nodes of a cluster with one node. -/
def managerNodes : GoMap String Node := (∅ : GoMap String Node).insert "a" managerNode

/-- The watcher of the manager at its start. -/
def managerNodeWatcher : NodeWatcher := { subnets := (nodeSubnets managerNode).toFinset }

theorem newNodeWatcher_managerNode :
    newNodeWatcher managerNodeAddr [managerNode] = .ok managerNodeWatcher := by
  have hviable : ([managerNode].flatMap nodeSubnets).any
      (fun sn => sn.contains managerNodeAddr) = true := by decide +kernel
  simp only [newNodeWatcher, hviable]
  rfl

theorem lookup_managerNodes (key : String) (node : Node) :
    managerNodes.lookup key = some node ↔ node ∈ [managerNode] ∧ node.name = key := by
  rw [managerNodes, GoMap.lookup_insert_eq, mem_singleton]
  split
  · rename_i hkey
    subst hkey
    constructor
    · intro h
      cases h
      exact ⟨rfl, rfl⟩
    · intro h
      rw [h.1]
  · rename_i hkey
    constructor
    · intro h
      cases h
    · intro ⟨hnode, hname⟩
      subst hnode
      exact absurd hname.symm hkey

/-- A second node comes and goes. -/
theorem subnets_follow_second_node :
    (run NodeTracking.step ⟨managerNodeWatcher, managerNodes⟩
      [.added (readyNode "b" ["10.42.1.0/24"]), .deleted "b"]).isSome = true ∧
    Always NodeTracking.step NodeTracking.Follows ⟨managerNodeWatcher, managerNodes⟩
      [.added (readyNode "b" ["10.42.1.0/24"]), .deleted "b"] := by
  refine ⟨by decide +kernel, ?_⟩
  refine (subnets_follow_iff lookup_managerNodes (by decide +kernel) newNodeWatcher_managerNode
    _).mpr ?_
  intro t _
  refine ⟨NodeTracking.oneWay_of_not_updated (by simp), ?_⟩
  intro t' _
  exact ⟨NodeTracking.oneWay_of_not_updated (by simp), trivial⟩

/-- The CIDR of the node is replaced: the old one is dropped, and the new one is
not there. -/
theorem replaced_cidr_missing :
    newNodeWatcher managerNodeAddr [managerNode] = .ok managerNodeWatcher ∧
    ¬ Always NodeTracking.step NodeTracking.Follows ⟨managerNodeWatcher, managerNodes⟩
      [.updated (readyNode "a" ["10.42.1.0/24"])] := by
  refine ⟨newNodeWatcher_managerNode, not_always_of_run (Q := fun t =>
    ∀ node ∈ t.nodes.lookup "a", ∀ sn ∈ nodeSubnets node, sn ∈ t.watcher.subnets) ?_ ?_⟩
  · intro t hfollows node hnode sn hsn
    exact (hfollows sn).mpr ⟨"a", node, hnode, hsn⟩
  · decide +kernel

/-! ## The notifier -/

/-- `changeNotifier` needs the lock for its initial update, reads in its loop, or
has returned. -/
inductive Reader where
  | initial | loop | returned
  deriving DecidableEq

/-- The watcher, the channel `changed`, which has room for ten, and its reader with
the timer. -/
structure Notifier where
  watcher : NodeWatcher
  /-- A handler holds the lock and has a change to announce. -/
  sending : Bool := false
  unread : Nat := 0
  reader : Reader := .initial
  timer : Bool := false

/-- What can happen to the notifier. -/
inductive NotifierAction where
  | handle (old new : Option Node)
  | send
  | initialUpdate
  | receive
  | fire
  | done

namespace Notifier

/-- The event changes the subnets. -/
def changes (s : Notifier) (old new : Option Node) : Bool :=
  (s.watcher.handle old new).changed ≠ s.watcher.changed

/-- Only a handler that sends holds the lock for more than a step. -/
def step (s : Notifier) : NotifierAction → Option Notifier
  | .handle old new =>
      if s.sending then none
      else some { s with watcher := s.watcher.handle old new, sending := s.changes old new }
  | .send =>
      if s.sending && s.unread < 10 then some { s with sending := false, unread := s.unread + 1 }
      else none
  | .initialUpdate =>
      if !s.sending && s.reader = .initial then some { s with reader := .loop } else none
  | .receive =>
      if s.reader = .loop && 0 < s.unread then some { s with unread := s.unread - 1, timer := true }
      else none
  | .fire => if s.timer && !s.sending then some { s with timer := false } else none
  | .done => if s.reader = .loop then some { s with reader := .returned } else none

/-- A handler that holds the lock waits for the reader, which waits for the lock. -/
def deadlocked (s : Notifier) : Bool := s.sending && s.unread = 10 && s.reader = .initial

/-- Before the initial update no handler makes a change after ten others. -/
def Timely (s : Notifier) : NotifierAction → Prop
  | .handle old new => s.reader = .initial → s.changes old new = true → s.unread < 10
  | _ => True

theorem step_deadlocked {s t : Notifier} {a : NotifierAction} (hroom : s.unread ≤ 10)
    (hstep : s.step a = some t) : (t.deadlocked = false ↔ s.Timely a) ∧ t.unread ≤ 10 := by
  cases a <;> grind [step, Timely, deadlocked]

/-- **The watcher does not deadlock** exactly if `changeNotifier` has sent its
initial update before the subnets change for the eleventh time. -/
theorem deadlock_free_iff (w : NodeWatcher) (as : List NotifierAction) :
    Always step (fun s => s.deadlocked = false) { watcher := w } as ↔
      Meets step Timely { watcher := w } as := by
  have hprop : ∀ s : Notifier, s.deadlocked = false ∧ s.unread ≤ 10 → s.deadlocked = false :=
    fun _ h => h.1
  refine always_iff_meets_of_iff hprop ?_ ⟨rfl, Nat.zero_le _⟩ as
  intro s a t hs hstep
  obtain ⟨hiff, hroom⟩ := step_deadlocked hs.2 hstep
  exact ⟨hiff, fun ht => ⟨ht, hroom⟩⟩

/-- A second node. -/
def otherNode : Node := readyNode "b" ["10.42.1.0/24"]

/-- It comes and goes five times, and comes once more. -/
theorem eleventh_change_deadlocks :
    ¬ Always step (fun s => s.deadlocked = false) { watcher := managerNodeWatcher }
      ((replicate 5 [.handle none (some otherNode), .send, .handle (some otherNode) none,
        .send]).flatten ++ [.handle none (some otherNode)]) :=
  not_always_of_run (fun _ h => h) (by decide +kernel)

end Notifier

end Telepresence.Cluster
