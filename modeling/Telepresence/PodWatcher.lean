import Telepresence.CoveringPrefixes
import Telepresence.Lib.AddrText
import Telepresence.Lib.Deltas
import Telepresence.Lib.Inventories
import Telepresence.Lib.Runs

/-!
# The addresses of the pods

`podWatcher` of `manager/cluster` keeps the addresses of the manager and of all
pods in a set, from which the subnets of the cluster are computed.  An event
about a pod changes the set by the difference between the addresses that the
pod had and those that it has.

A set does not know how many pods have an address.  `ipsMap_follows_iff` says
for which events it stays right: those in which no address is dropped that
somebody else has.
-/

namespace Telepresence.Cluster

open Netip Subnet Inventories Deltas Runs List

/-! ## Pods -/

/-- `corev1.Pod`, with its name and the addresses in its status. -/
structure Pod where
  name : String
  ns : String
  podIPs : List String := []
  podIP : String := ""

/-- The key of a pod in the store of an informer. -/
def Pod.key (pod : Pod) : String × String := (pod.ns, pod.name)

/-- `podIPs`.  What cannot be parsed is passed over. -/
def podIPs (pod : Pod) : List Addr :=
  if pod.ns = "kube-system" then []
  else
    let ips :=
      if pod.podIPs.length = 0 then (if pod.podIP = "" then [] else [pod.podIP]) else pod.podIPs
    ips.filterMap fun ip => parseAddr ip.toList

theorem podIPs_ne_zero {pod : Pod} {ip : Addr} (h : ip ∈ podIPs pod) : ip ≠ .zero := by
  rw [podIPs] at h
  split at h
  · cases h
  · obtain ⟨s, _, hs⟩ := mem_filterMap.mp h
    exact parseAddr_ne_zero hs

/-- `getIPsDelta`: what was added and what was dropped. -/
def getIPsDelta (oldIPs newIPs : List Addr) : List Addr × List Addr := delta oldIPs newIPs

/-! ## The watcher -/

/-- `podWatcher`: the addresses, and whether the timer is running that sends
their subnets. -/
structure PodWatcher where
  ipsMap : Finset Addr
  timer : Bool := false

/-- `newPodWatcher`. -/
def newPodWatcher (managerIP : Addr) : PodWatcher := { ipsMap := {managerIP} }

namespace PodWatcher

/-- `addLocked`. -/
def addLocked (w : PodWatcher) (ips : List Addr) : PodWatcher :=
  let r := ips.foldl (fun (r : Finset Addr × Bool) ip =>
    if ip ∈ r.1 then r else (insert ip r.1, true)) (w.ipsMap, false)
  { ipsMap := r.1, timer := w.timer || r.2 }

/-- `dropLocked`. -/
def dropLocked (w : PodWatcher) (ips : List Addr) : PodWatcher :=
  let r := ips.foldl (fun (r : Finset Addr × Bool) ip =>
    if ip ∈ r.1 then (r.1.erase ip, true) else r) (w.ipsMap, false)
  { ipsMap := r.1, timer := w.timer || r.2 }

/-- `update`. -/
def update (w : PodWatcher) (dropped added : List Addr) : PodWatcher :=
  (w.dropLocked dropped).addLocked added

/-- `onPodAdded`. -/
def onPodAdded (w : PodWatcher) (pod : Pod) : PodWatcher :=
  let ipKeys := podIPs pod
  if ipKeys.length > 0 then w.addLocked ipKeys else w

/-- `onPodDeleted`. -/
def onPodDeleted (w : PodWatcher) (pod : Pod) : PodWatcher :=
  let ipKeys := podIPs pod
  if ipKeys.length > 0 then w.dropLocked ipKeys else w

/-- The branches of `onPodUpdated`. -/
def applyDelta (w : PodWatcher) (added dropped : List Addr) : PodWatcher :=
  if added.length > 0 then
    if dropped.length > 0 then w.update dropped added else w.addLocked added
  else if dropped.length > 0 then w.dropLocked dropped
  else w

/-- `onPodUpdated`. -/
def onPodUpdated (w : PodWatcher) (oldPod newPod : Pod) : PodWatcher :=
  let d := getIPsDelta (podIPs oldPod) (podIPs newPod)
  w.applyDelta d.1 d.2

/-- The handler of an event, which gets the pod as it was and as it is. -/
def handle (w : PodWatcher) : Option Pod → Option Pod → PodWatcher
  | none, some new => w.onPodAdded new
  | some old, some new => w.onPodUpdated old new
  | some old, none => w.onPodDeleted old
  | none, none => w

@[simp] theorem mem_addLocked {w : PodWatcher} {ips : List Addr} {ip : Addr} :
    ip ∈ (w.addLocked ips).ipsMap ↔ ip ∈ w.ipsMap ∨ ip ∈ ips := by
  refine mem_foldl_insert (S := Prod.fst) ?_ ips (w.ipsMap, false)
  intro r x
  split
  · rename_i hx
    exact (Finset.insert_eq_of_mem hx).symm
  · rfl

@[simp] theorem mem_dropLocked {w : PodWatcher} {ips : List Addr} {ip : Addr} :
    ip ∈ (w.dropLocked ips).ipsMap ↔ ip ∈ w.ipsMap ∧ ip ∉ ips := by
  refine mem_foldl_erase (S := Prod.fst) ?_ ips (w.ipsMap, false)
  intro r x
  split
  · rfl
  · rename_i hx
    exact (Finset.erase_eq_of_notMem hx).symm

theorem mem_applyDelta {w : PodWatcher} {added dropped : List Addr} {ip : Addr} :
    ip ∈ (w.applyDelta added dropped).ipsMap ↔ ip ∈ w.ipsMap ∧ ip ∉ dropped ∨ ip ∈ added := by
  cases added with
  | nil =>
    cases dropped with
    | nil | cons x dropped => simp [applyDelta]
  | cons y added =>
    cases dropped with
    | nil => simp [applyDelta]
    | cons x dropped => simp [applyDelta, update]

/-- **What a handler does**: it applies the difference of the addresses that the
pod had and has. -/
theorem handle_eq (w : PodWatcher) (old new : Option Pod) : w.handle old new =
    w.applyDelta (delta (partsOf podIPs old) (partsOf podIPs new)).1
      (delta (partsOf podIPs old) (partsOf podIPs new)).2 := by
  cases old <;> cases new <;>
    simp [handle, onPodAdded, onPodUpdated, onPodDeleted, getIPsDelta, applyDelta, partsOf]

end PodWatcher

/-! ## Following the pods -/

/-- The watcher, and the pods that exist. -/
structure Tracking where
  watcher : PodWatcher
  pods : GoMap (String × String) Pod := ∅

namespace Tracking

/-- A pod is added, updated or deleted, and the handler is told. -/
def step (s : Tracking) (e : Event (String × String) Pod) : Option Tracking :=
  (change Pod.key s.pods e).map fun c => ⟨s.watcher.handle c.1.1 c.1.2, c.2⟩

/-- The addresses are those of the manager and of the pods that exist, and
every pod is in the subnets that are computed from them, in whatever order
they come. -/
structure Follows (managerIP : Addr) (s : Tracking) : Prop where
  exact : ∀ ip, ip ∈ s.watcher.ipsMap ↔ ip = managerIP ∨ held podIPs s.pods ip
  published : ∀ ips : List Addr, (∀ ip, ip ∈ ips ↔ ip ∈ s.watcher.ipsMap) →
    ∀ ip, held podIPs s.pods ip → ∃ p ∈ coveringPrefixes ips, p.contains ip

/-- The pod drops no address that the manager has, or another pod, or still the
pod itself (which is so if it had the address twice), and gets none with a
zone. -/
structure Exclusive (managerIP : Addr) (s : Tracking) (e : Event (String × String) Pod) :
    Prop where
  dropped : ∀ old new pods, change Pod.key s.pods e = some ((old, new), pods) →
    ∀ ip, (partsOf podIPs new).count ip < (partsOf podIPs old).count ip →
      ip ≠ managerIP ∧ ¬ heldByOthers podIPs s.pods (e.key Pod.key) ip ∧ ip ∉ partsOf podIPs new
  noZone : ∀ old new pods, change Pod.key s.pods e = some ((old, new), pods) →
    ∀ ip ∈ partsOf podIPs new, ip.hasZone = false

/-- What is needed of a state: the addresses are right, and none has a zone. -/
structure Inv (managerIP : Addr) (s : Tracking) : Prop where
  exact : ∀ ip, ip ∈ s.watcher.ipsMap ↔ ip = managerIP ∨ held podIPs s.pods ip
  noZone : ∀ ip, held podIPs s.pods ip → ip.hasZone = false

variable {managerIP : Addr} {s t : Tracking} {e : Event (String × String) Pod}

theorem Inv.follows (h : s.Inv managerIP) : s.Follows managerIP := by
  refine ⟨h.exact, ?_⟩
  intro ips hips ip hheld
  have ⟨_, pod, _, hip⟩ := hheld
  exact exists_covering ((hips ip).mpr ((h.exact ip).mpr (.inr hheld))) (podIPs_ne_zero hip)
    (h.noZone ip hheld)

/-- After an event the addresses are right exactly if the pod has dropped none
that is still in use. -/
theorem exact_step_iff (h : s.Inv managerIP) {old new : Option Pod}
    {pods : GoMap (String × String) Pod}
    (hchange : change Pod.key s.pods e = some ((old, new), pods)) :
    (∀ ip, ip ∈ (s.watcher.handle old new).ipsMap ↔ ip = managerIP ∨ held podIPs pods ip) ↔
      ∀ ip, (partsOf podIPs new).count ip < (partsOf podIPs old).count ip →
        ip ≠ managerIP ∧ ¬ heldByOthers podIPs s.pods (e.key Pod.key) ip ∧
          ip ∉ partsOf podIPs new := by
  obtain ⟨hold, hnew, _⟩ := change_spec hchange
  have hdelta := isDelta_delta (partsOf podIPs old) (partsOf podIPs new)
  have hbefore : ∀ ip, ip ∈ s.watcher.ipsMap ↔
      (ip = managerIP ∨ heldByOthers podIPs s.pods (e.key Pod.key) ip) ∨
        ip ∈ partsOf podIPs old := by
    intro ip
    rw [h.exact, held_iff podIPs s.pods (e.key Pod.key), hold, or_assoc]
  have hafter : ∀ ip, (ip = managerIP ∨ held podIPs pods ip) ↔
      (ip = managerIP ∨ heldByOthers podIPs s.pods (e.key Pod.key) ip) ∨
        ip ∈ partsOf podIPs new := by
    intro ip
    rw [held_iff podIPs pods (e.key Pod.key), hnew, heldByOthers_change hchange, or_assoc]
  simp only [hafter, PodWatcher.handle_eq]
  rw [tracks_iff hdelta hbefore fun _ => PodWatcher.mem_applyDelta]
  simp only [hdelta.mem_dropped, not_or, and_assoc]

theorem Inv.step (h : s.Inv managerIP) (he : s.Exclusive managerIP e) (hstep : s.step e = some t) :
    t.Inv managerIP := by
  obtain ⟨⟨⟨old, new⟩, pods⟩, hchange, rfl⟩ := Option.map_eq_some_iff.mp hstep
  obtain ⟨_, hnew, _⟩ := change_spec hchange
  refine ⟨(exact_step_iff h hchange).mpr (he.dropped old new pods hchange), ?_⟩
  intro ip hheld
  rcases (held_iff podIPs pods (e.key Pod.key) ip).mp hheld with hothers | hip
  · rw [heldByOthers_change hchange] at hothers
    exact h.noZone ip ((held_iff podIPs s.pods _ ip).mpr (.inl hothers))
  · rw [hnew] at hip
    exact he.noZone old new pods hchange ip hip

/-- An event that is not exclusive leaves an address out, or one that no subnet
contains. -/
theorem not_follows_step (h : s.Inv managerIP) (he : ¬ s.Exclusive managerIP e)
    (hstep : s.step e = some t) : ¬ t.Follows managerIP := by
  obtain ⟨⟨⟨old, new⟩, pods⟩, hchange, rfl⟩ := Option.map_eq_some_iff.mp hstep
  obtain ⟨_, hnew, _⟩ := change_spec hchange
  intro hfollows
  apply he
  refine ⟨?_, ?_⟩
  · intro old' new' pods' hchange'
    rw [hchange] at hchange'
    cases hchange'
    exact (exact_step_iff h hchange).mp hfollows.exact
  · intro old' new' pods' hchange' ip hip
    rw [hchange] at hchange'
    cases hchange'
    have hheld : held podIPs pods ip := by
      rw [held_iff podIPs pods (e.key Pod.key), hnew]
      exact .inr hip
    obtain ⟨p, _, hp⟩ := hfollows.published (s.watcher.handle old new).ipsMap.toList
      (fun _ => Finset.mem_toList) ip hheld
    exact (Prefix.contains_iff.mp hp).2.1

end Tracking

/-- **The pod watcher tracks the pods** through a sequence of events exactly if
no event drops an address that is in use elsewhere, and none brings one with a
zone. -/
theorem ipsMap_follows_iff (managerIP : Addr) (events : List (Event (String × String) Pod)) :
    Always Tracking.step (Tracking.Follows managerIP) { watcher := newPodWatcher managerIP }
      events ↔
    Meets Tracking.step (Tracking.Exclusive managerIP) { watcher := newPodWatcher managerIP }
      events := by
  have hinit : Tracking.Inv managerIP { watcher := newPodWatcher managerIP } := by
    refine ⟨?_, ?_⟩
    · intro ip
      simp [newPodWatcher, held]
    · intro ip ⟨_, _, hlookup, _⟩
      cases hlookup
  refine always_iff_meets ?_ ?_ ?_ hinit events
  · intro s h
    exact h.follows
  · intro s e t h he hstep
    exact h.step he hstep
  · intro s e t h he hstep
    exact Tracking.not_follows_step h he hstep

/-! ## Two pods with one address -/

/-- A pod on the network of its host. -/
def hostPod (name : String) : Pod := { name, ns := "default", podIPs := ["192.168.0.10"] }

/-- The manager has another address. -/
def managerAddr : Addr := .v4 ⟨[10, 42, 0, 5], rfl⟩

/-- One of two pods on the same host is deleted; the other one is no longer in
the set. -/
theorem shared_address_lost :
    ¬ Always Tracking.step (Tracking.Follows managerAddr)
      { watcher := newPodWatcher managerAddr }
      [.added (hostPod "a"), .added (hostPod "b"), .deleted ("default", "a")] := by
  intro h
  have hexact := (h.of_run rfl).exact (.v4 ⟨[192, 168, 0, 10], rfl⟩)
  have hip : (.v4 ⟨[192, 168, 0, 10], rfl⟩ : Addr) ∈ podIPs (hostPod "b") := by decide +kernel
  exact absurd (hexact.mpr (.inr ⟨("default", "b"), hostPod "b", rfl, hip⟩)) (by decide +kernel)

end Telepresence.Cluster
