import Telepresence.ClusterInfoDelivery
import Telepresence.Lib.Threads

/-!
# When clients end up with the current message

The four stages from the pods to the clients, each with what holds of it in
every orderly run.

* `Inv.step`: an orderly step keeps all four in order.
* `last_received_is_current`: when nothing is pending, the last message of each
  subscriber is the current one.
* `first_message_overtakes`: a first message that is posted late is not.
-/

namespace Telepresence.Cluster

open Netip Runs List Option GoMap
open RootDaemon (IPNet Routing)

/-! ## The timer

A handler that changes the addresses sets the timer. -/

namespace PodWatcher

/-- A loop that reports every change. -/
theorem foldl_changed {f : Finset Addr × Bool → Addr → Finset Addr × Bool}
    (hf : ∀ r x, (f r x).2 = true ∨ f r x = r) (ips : List Addr) (r : Finset Addr × Bool) :
    (ips.foldl f r).2 = true ∨ ips.foldl f r = r := by
  induction ips generalizing r with
  | nil => exact .inr rfl
  | cons x ips ih =>
    rw [foldl_cons]
    rcases ih (f r x) with h | h
    · exact .inl h
    · rw [h]
      exact hf r x

theorem addLocked_timer (w : PodWatcher) (ips : List Addr) :
    (w.addLocked ips).timer = true ∨ w.addLocked ips = w := by
  have hloop := foldl_changed (f := fun (r : Finset Addr × Bool) ip =>
    if ip ∈ r.1 then r else (insert ip r.1, true)) (by grind) ips (w.ipsMap, false)
  rcases hloop with h | h
  · exact .inl (by simp [addLocked, h])
  · exact .inr (by simp [addLocked, h])

theorem dropLocked_timer (w : PodWatcher) (ips : List Addr) :
    (w.dropLocked ips).timer = true ∨ w.dropLocked ips = w := by
  have hloop := foldl_changed (f := fun (r : Finset Addr × Bool) ip =>
    if ip ∈ r.1 then (r.1.erase ip, true) else r) (by grind) ips (w.ipsMap, false)
  rcases hloop with h | h
  · exact .inl (by simp [dropLocked, h])
  · exact .inr (by simp [dropLocked, h])

theorem update_timer (w : PodWatcher) (dropped added : List Addr) :
    (w.update dropped added).timer = true ∨ w.update dropped added = w := by
  rw [update]
  rcases addLocked_timer (w.dropLocked dropped) added with hadd | hadd
  · exact .inl hadd
  · rw [hadd]
    exact dropLocked_timer w dropped

theorem handle_timer (w : PodWatcher) (old new : Option Pod) :
    (w.handle old new).timer = true ∨ w.handle old new = w := by
  cases old with
  | none =>
    cases new with
    | none => exact .inr rfl
    | some new =>
      simp only [handle, onPodAdded]
      split
      · exact addLocked_timer w _
      · exact .inr rfl
  | some old =>
    cases new with
    | none =>
      simp only [handle, onPodDeleted]
      split
      · exact dropLocked_timer w _
      · exact .inr rfl
    | some new =>
      simp only [handle, onPodUpdated, applyDelta]
      split
      · split
        · exact update_timer w _ _
        · exact addLocked_timer w _
      · split
        · exact dropLocked_timer w _
        · exact .inr rfl

end PodWatcher

namespace Delivery

/-! ## What holds of each stage

Each stage is described by the data that it depends on, and by the updates in
progress, whose order does not matter. -/

/-- The first stage: what the runs of `sendIfChanged` know of the addresses,
unless the timer is going to start another one. -/
def Fresh (ips : Finset Addr) (oldSubnets : Finset Prefix) : List SendRun → Prop
  | [] => oldSubnets = coveringSet ips
  | .started :: _ => True
  | .copied ips' :: _ => ips' = ips
  | .sending newSubnets :: _ => newSubnets = coveringSet ips
  | .sent newSubnets :: _ => newSubnets = coveringSet ips

/-- The stage of the pods: one run at a time, and the subnets of the IPs are known or on
their way. -/
structure PodsStage (s : Delivery) : Prop where
  oneRun : s.runs.length ≤ 1
  fresh : s.watcher.timer = true ∨ Fresh s.watcher.ipsMap s.oldSubnets s.runs

/-- What was last sent to `changeNotifier`, recorded or not. -/
def lastSent (oldSubnets : Finset Prefix) : List SendRun → Finset Prefix
  | .sent newSubnets :: _ => newSubnets
  | _ => oldSubnets

/-- The second stage: what was last sent is in the `info`, or about to be
written there. -/
structure SubnetsStage (sent : Finset Prefix) (oi : Info) (us : List (Source × Update)) :
    Prop where
  written : ∀ x ∈ us, ∀ subnets, x.2 = .writePods subnets →
    x.1 = .changeNotifier ∧ subnets = sent
  settled : (∀ x ∈ us, ∀ subnets, x.2 ≠ .writePods subnets) →
    oi.base.podSubnets = podSubnetsOf sent

/-- What an update has read or announced is still so. -/
def Carries (oi : Info) (current : ClusterInfo) : Update → Prop
  | .readPods rt => rt = oi.routing
  | .notify ci => ci = oi.clusterInfo
  | .offer _ => current = oi.clusterInfo
  | _ => True

/-- The third stage: the message that is current comes from the present `info`,
or one update is on its way to replace it. -/
structure InfoStage (oi : Info) (current : ClusterInfo) (us : List (Source × Update)) : Prop where
  oneDirty : us.countP (fun x => x.2.dirty) ≤ 1
  carried : ∀ x ∈ us, Carries oi current x.2
  known : us.countP (fun x => x.2.dirty) = 0 → current = oi.clusterInfo
  same : current.uncompared = oi.clusterInfo.uncompared
  kubeIp : oi.base.dns.kubeIp ≠ []

/-- The fourth stage: the last message of a subscriber is the current one, or it
is still to be posted or offered. -/
structure HubStage (current : ClusterInfo) (subscribers : GoMap Nat Subscriber)
    (us : List (Source × Update)) : Prop where
  posting : ∀ id sub, subscribers.lookup id = some sub → ∀ curr, sub.posting = some curr →
    curr = current ∧ sub.chan = [] ∧ sub.received = none
  told : ∀ id sub, subscribers.lookup id = some sub → sub.posting = none →
    sub.last = some current ∨ ∃ x ∈ us, ∃ ids, x.2 = .offer ids ∧ id ∈ ids
  posted : ∀ x ∈ us, x.2.locks = true → ∀ id sub, subscribers.lookup id = some sub →
    sub.posting = none

/-- The invariant: every stage has what the one before it sent. -/
structure Inv (s : Delivery) : Prop where
  pods : s.PodsStage
  subnets : SubnetsStage (lastSent s.oldSubnets s.runs) s.oi s.updates
  info : InfoStage s.oi s.current s.updates
  hub : HubStage s.current s.subscribers s.updates

variable {oi : Info} {current : ClusterInfo} {subscribers : GoMap Nat Subscriber}

section Perm

variable {us vs : List (Source × Update)} (hperm : us.Perm vs)
include hperm

theorem SubnetsStage.perm {sent : Finset Prefix} (h : SubnetsStage sent oi us) :
    SubnetsStage sent oi vs := by
  refine ⟨?_, ?_⟩
  · intro x hx
    exact h.written x (hperm.mem_iff.mpr hx)
  · intro hnone
    exact h.settled fun x hx => hnone x (hperm.mem_iff.mp hx)

theorem InfoStage.perm (h : InfoStage oi current us) :
    InfoStage oi current vs := by
  have hcount := hperm.countP_eq fun x => x.2.dirty
  refine ⟨hcount ▸ h.oneDirty, ?_, ?_, h.same, h.kubeIp⟩
  · intro x hx
    exact h.carried x (hperm.mem_iff.mpr hx)
  · intro hzero
    exact h.known (hcount.trans hzero)

theorem HubStage.perm (h : HubStage current subscribers us) :
    HubStage current subscribers vs := by
  refine ⟨h.posting, ?_, ?_⟩
  · intro id sub hsub hposting
    refine (h.told id sub hsub hposting).imp_right ?_
    intro ⟨x, hx, hoffer⟩
    exact ⟨x, hperm.mem_iff.mp hx, hoffer⟩
  · intro x hx
    exact h.posted x (hperm.mem_iff.mpr hx)

end Perm

/-- The updates after one of them has taken a step. -/
def after (src : Source) (next : Option Update) (others : List (Source × Update)) :
    List (Source × Update) :=
  match next with
  | some u => (src, u) :: others
  | none => others

theorem mem_after {src : Source} {next : Option Update} {others : List (Source × Update)}
    {x : Source × Update} (h : x ∈ after src next others) :
    (∃ u, next = some u ∧ x = (src, u)) ∨ x ∈ others := by
  cases next with
  | none => exact .inr h
  | some u =>
    rcases mem_cons.mp h with rfl | hx
    · exact .inl ⟨u, rfl, rfl⟩
    · exact .inr hx

/-- **What a step of an update is.**  One update takes it, and the others stay
as they are. -/
theorem update_cases {s t : Delivery} {index : Nat} {order : List Nat}
    (h : s.step (.update index order) = some t) :
    ∃ src u r others, s.updates[index]? = some (src, u) ∧ s.exec order u = some r ∧
      s.updates.Perm ((src, u) :: others) ∧ t.updates.Perm (after src r.2 others) ∧
      t = { r.1 with updates := t.updates } := by
  simp only [step] at h
  split at h
  · cases h
  · rename_i src u hget
    obtain ⟨r, hexec, rfl⟩ := map_eq_some_iff.mp h
    obtain ⟨hbefore, hset⟩ := Threads.perm_of_getElem? hget
    refine ⟨src, u, r, s.updates.eraseIdx index, hget, hexec, hbefore, ?_, rfl⟩
    obtain ⟨s', next⟩ := r
    cases next with
    | none => exact List.Perm.refl _
    | some u' => exact hset _

variable {s t : Delivery} {order : List Nat} {src : Source} {u : Update}
  {others : List (Source × Update)} {r : Delivery × Option Update}

/-- An offer changes the subscribers alone. -/
theorem offerTo_eq (s : Delivery) (id : Nat) :
    s.offerTo id = { s with subscribers := (s.offerTo id).subscribers } := by
  rw [offerTo]
  split
  · rfl
  · split
    · rfl
    · rfl

/-- What `notify` does. -/
theorem exec_notify {ci : ClusterInfo} (h : s.exec order (.notify ci) = some r) :
    (clusterInfoEqual s.current ci = true ∧ r = (s, none)) ∨
      (¬ clusterInfoEqual s.current ci = true ∧ order.Perm s.subscribers.keys ∧
        r = ({ s with current := ci }, some (.offer order))) := by
  grind [exec]

/-- An update has no part in the first stage. -/
theorem exec_frame (h : s.exec order u = some r) :
    r.1.watcher = s.watcher ∧ r.1.oldSubnets = s.oldSubnets ∧ r.1.runs = s.runs := by
  cases u with
  | compare _ | writeProxy _ | writePods _ | readRouting | readPods _ =>
    cases h
    exact ⟨rfl, rfl, rfl⟩
  | notify ci => obtain ⟨_, rfl⟩ | ⟨_, _, rfl⟩ := exec_notify h <;> exact ⟨rfl, rfl, rfl⟩
  | offer ids =>
    cases ids with
    | nil =>
      cases h
      exact ⟨rfl, rfl, rfl⟩
    | cons id ids =>
      cases h
      rw [offerTo_eq]
      exact ⟨rfl, rfl, rfl⟩

/-! ## The updates -/

/-- An update that does not write the pod subnets leaves them alone. -/
theorem exec_podSubnets (hu : ∀ subnets, u ≠ .writePods subnets) (h : s.exec order u = some r) :
    r.1.oi.base.podSubnets = s.oi.base.podSubnets ∧ ∀ subnets, r.2 ≠ some (.writePods subnets) := by
  cases u with
  | compare subnets =>
    cases h
    refine ⟨rfl, ?_⟩
    intro subnets'
    dsimp only
    split <;> exact nofun
  | writePods subnets => exact absurd rfl (hu subnets)
  | writeProxy _ | readRouting | readPods _ =>
    cases h
    exact ⟨rfl, nofun⟩
  | notify ci => obtain ⟨_, rfl⟩ | ⟨_, _, rfl⟩ := exec_notify h <;> exact ⟨rfl, nofun⟩
  | offer ids =>
    cases ids with
    | nil =>
      cases h
      exact ⟨rfl, nofun⟩
    | cons id ids =>
      cases h
      rw [offerTo_eq]
      exact ⟨rfl, nofun⟩

theorem SubnetsStage.exec {sent : Finset Prefix}
    (hs : SubnetsStage sent s.oi ((src, u) :: others)) (h : s.exec order u = some r) :
    SubnetsStage sent r.1.oi (after src r.2 others) := by
  by_cases hu : ∃ subnets, u = .writePods subnets
  · obtain ⟨subnets, rfl⟩ := hu
    obtain ⟨_, rfl⟩ := hs.written _ (mem_cons_self ..) subnets rfl
    cases h
    refine ⟨?_, fun _ => rfl⟩
    intro x hx subnets' heq
    rcases mem_after hx with ⟨u', hu', rfl⟩ | hx
    · cases hu'
      cases heq
    · exact hs.written x (mem_cons_of_mem _ hx) subnets' heq
  · have hu : ∀ subnets, u ≠ .writePods subnets := fun subnets heq => hu ⟨subnets, heq⟩
    obtain ⟨hpods, hnext⟩ := exec_podSubnets hu h
    refine ⟨?_, ?_⟩
    · intro x hx subnets heq
      rcases mem_after hx with ⟨u', hu', rfl⟩ | hx
      · cases heq
        exact absurd hu' (hnext subnets)
      · exact hs.written x (mem_cons_of_mem _ hx) subnets heq
    · intro hnone
      rw [hpods]
      apply hs.settled
      intro x hx
      rcases mem_cons.mp hx with rfl | hx
      · exact hu
      · apply hnone
        cases hr : r.2 with
        | none => exact hx
        | some u' => exact mem_cons_of_mem _ hx

/-- An update that has not written yet has nothing that could be out of date. -/
theorem carries_of_clean (h : u.dirty = false) : Carries oi current u := by
  cases u with
  | compare _ | writeProxy _ | writePods _ => trivial
  | readRouting | readPods _ | notify _ | offer _ => cases h

theorem countP_dirty_eq_zero {us : List (Source × Update)} :
    us.countP (fun x => x.2.dirty) = 0 ↔ ∀ x ∈ us, x.2.dirty = false := by
  rw [countP_eq_zero]
  simp only [Bool.not_eq_true]

namespace InfoStage

variable (hs : InfoStage oi current ((src, u) :: others))
include hs

/-- Beside a dirty update, all are clean. -/
theorem others_clean (hu : u.dirty = true) : others.countP (fun x => x.2.dirty) = 0 := by
  have hone := hs.oneDirty
  rw [countP_cons_of_pos (by exact hu)] at hone
  omega

/-- A clean update goes on without having written, or is done. -/
theorem of_clean (hu : u.dirty = false) {next : Option Update}
    (hnext : ∀ u', next = some u' → u'.dirty = false) :
    InfoStage oi current (after src next others) := by
  have hcount : (after src next others).countP (fun x => x.2.dirty) =
      ((src, u) :: others).countP (fun x => x.2.dirty) := by
    rw [countP_cons_of_neg (by simp [hu])]
    cases next with
    | none => rfl
    | some u' => exact countP_cons_of_neg (by simp [hnext u' rfl])
  refine ⟨hcount ▸ hs.oneDirty, ?_, fun hzero => hs.known (hcount ▸ hzero), hs.same, hs.kubeIp⟩
  intro x hx
  rcases mem_after hx with ⟨u', hu', rfl⟩ | hx
  · exact carries_of_clean (hnext u' hu')
  · exact hs.carried x (mem_cons_of_mem _ hx)

end InfoStage

/-- One update is dirty, and no other one. -/
theorem infoStage_of_dirty (hothers : others.countP (fun x => x.2.dirty) = 0) (hu : u.dirty = true)
    (hcarries : Carries oi current u) (hsame : current.uncompared = oi.clusterInfo.uncompared)
    (hkubeIp : oi.base.dns.kubeIp ≠ []) : InfoStage oi current ((src, u) :: others) := by
  have hcount : ((src, u) :: others).countP (fun x => x.2.dirty) = 1 := by
    rw [countP_cons_of_pos (by exact hu), hothers]
  refine ⟨by omega, ?_, by omega, hsame, hkubeIp⟩
  intro x hx
  rcases mem_cons.mp hx with rfl | hx
  · exact hcarries
  · exact carries_of_clean (countP_dirty_eq_zero.mp hothers x hx)

/-- No update is dirty any more. -/
theorem infoStage_of_known (hothers : others.countP (fun x => x.2.dirty) = 0)
    (hknown : current = oi.clusterInfo) (hkubeIp : oi.base.dns.kubeIp ≠ []) :
    InfoStage oi current others := by
  refine ⟨by omega, ?_, fun _ => hknown, by rw [hknown], hkubeIp⟩
  intro x hx
  exact carries_of_clean (countP_dirty_eq_zero.mp hothers x hx)

/-- The third stage, if a write comes when no other update is dirty. -/
theorem InfoStage.exec (hs : InfoStage s.oi s.current ((src, u) :: others))
    (hwrite : (∃ subnets, u = .writeProxy subnets) ∨ (∃ subnets, u = .writePods subnets) →
      ∀ x ∈ others, x.2.dirty = false)
    (h : s.exec order u = some r) : InfoStage r.1.oi r.1.current (after src r.2 others) := by
  cases u with
  | compare subnets =>
    cases h
    exact hs.of_clean rfl (by grind [Update.dirty])
  | writeProxy subnets =>
    cases h
    have hothers := countP_dirty_eq_zero.mpr (hwrite (.inl ⟨subnets, rfl⟩))
    exact infoStage_of_dirty hothers rfl trivial hs.same hs.kubeIp
  | writePods subnets =>
    cases h
    have hothers := countP_dirty_eq_zero.mpr (hwrite (.inr ⟨subnets, rfl⟩))
    exact infoStage_of_dirty hothers rfl trivial hs.same hs.kubeIp
  | readRouting =>
    cases h
    exact infoStage_of_dirty (hs.others_clean rfl) rfl rfl hs.same hs.kubeIp
  | readPods rt =>
    cases h
    have hrt : rt = s.oi.routing := hs.carried _ (mem_cons_self ..)
    refine infoStage_of_dirty (hs.others_clean rfl) rfl ?_ hs.same hs.kubeIp
    rw [hrt]
    rfl
  | notify ci =>
    have hci : ci = s.oi.clusterInfo := hs.carried _ (mem_cons_self ..)
    have hothers := hs.others_clean rfl
    rcases exec_notify h with ⟨hequal, rfl⟩ | ⟨_, _, rfl⟩
    · -- the message is no news
      refine infoStage_of_known hothers ?_ hs.kubeIp
      rw [hci] at hequal
      exact eq_of_clusterInfoEqual hequal hs.same
    · exact infoStage_of_dirty hothers rfl hci (by rw [hci]) hs.kubeIp
  | offer ids =>
    have hknown : s.current = s.oi.clusterInfo := hs.carried _ (mem_cons_self ..)
    have hothers := hs.others_clean rfl
    cases ids with
    | nil =>
      cases h
      exact infoStage_of_known hothers hknown hs.kubeIp
    | cons id ids =>
      cases h
      rw [offerTo_eq]
      exact infoStage_of_dirty hothers rfl hknown hs.same hs.kubeIp

/-- An update that offers nothing to anyone. -/
theorem HubStage.of_not_locks (hs : HubStage current subscribers ((src, u) :: others))
    (hu : ∀ ids, u = .offer ids → ids = []) {next : Option Update} (hnext : ∀ u', next = some u' → u'.locks = false) :
    HubStage current subscribers (after src next others) := by
  refine ⟨hs.posting, ?_, ?_⟩
  · intro id sub hsub hposting
    refine (hs.told id sub hsub hposting).imp_right ?_
    intro ⟨x, hx, ids, hoffer, hid⟩
    rcases mem_cons.mp hx with rfl | hx
    · rw [hu ids hoffer] at hid
      cases hid
    · refine ⟨x, ?_, ids, hoffer, hid⟩
      cases next with
      | none => exact hx
      | some u' => exact mem_cons_of_mem _ hx
  · intro x hx hlocks
    rcases mem_after hx with ⟨u', hu', rfl⟩ | hx
    · rw [hnext u' hu'] at hlocks
      cases hlocks
    · exact hs.posted x (mem_cons_of_mem _ hx) hlocks

/-- An offer that finds room. -/
theorem HubStage.offerTo {id : Nat} {ids : List Nat}
    (hs : HubStage s.current s.subscribers ((src, .offer (id :: ids)) :: others))
    (hroom : ∀ sub, s.subscribers.lookup id = some sub → sub.chan.length < chanCap) :
    HubStage s.current (s.offerTo id).subscribers ((src, .offer ids) :: others) := by
  have hposted := hs.posted _ (mem_cons_self ..) rfl
  -- what an untouched subscriber is still to be told
  have hrest : ∀ id' sub, id' ≠ id → s.subscribers.lookup id' = some sub → sub.posting = none →
      sub.last = some s.current ∨
        ∃ x ∈ (src, Update.offer ids) :: others, ∃ ids, x.2 = .offer ids ∧ id' ∈ ids := by
    intro id' sub hne hsub hposting
    refine (hs.told id' sub hsub hposting).imp_right ?_
    intro ⟨x, hx, ids', hoffer, hid⟩
    rcases mem_cons.mp hx with rfl | hx
    · cases hoffer
      exact ⟨_, mem_cons_self .., ids, rfl, (mem_cons.mp hid).resolve_left hne⟩
    · exact ⟨x, mem_cons_of_mem _ hx, ids', hoffer, hid⟩
  cases hlookup : s.subscribers.lookup id with
  | none =>
    have heq : s.offerTo id = s := by rw [Delivery.offerTo, hlookup]
    rw [heq]
    refine ⟨hs.posting, ?_, fun _ _ _ => hposted⟩
    intro id' sub hsub
    refine hrest id' sub ?_ hsub
    intro hid
    rw [hid, hlookup] at hsub
    cases hsub
  | some sub =>
    have heq : (s.offerTo id).subscribers =
        s.subscribers.insert id { sub with chan := sub.chan ++ [s.current] } := by
      rw [Delivery.offerTo, hlookup]
      simp only [if_pos (hroom sub hlookup)]
    rw [heq]
    have hnone : ∀ id' sub', (s.subscribers.insert id
        { sub with chan := sub.chan ++ [s.current] }).lookup id' = some sub' →
        sub'.posting = none := by
      intro id' sub' hsub'
      rcases lookup_of_insert hsub' with ⟨_, rfl⟩ | hsub'
      · exact hposted id sub hlookup
      · exact hposted id' sub' hsub'
    refine ⟨?_, ?_, fun _ _ _ => hnone⟩
    · intro id' sub' hsub' curr hcurr
      rw [hnone id' sub' hsub'] at hcurr
      cases hcurr
    · intro id' sub' hsub' hposting
      by_cases hid : id' = id
      · subst hid
        rw [AList.lookup_insert] at hsub'
        cases hsub'
        exact .inl (by simp [Subscriber.last])
      · rw [AList.lookup_insert_ne hid] at hsub'
        exact hrest id' sub' hid hsub' hposting

/-- The fourth stage, if no message is announced while a subscriber has still to
post its first one, and every offer finds room. -/
theorem HubStage.exec (hs : HubStage s.current s.subscribers ((src, u) :: others))
    (hnotify : ∀ ci, u = .notify ci → clusterInfoEqual s.current ci = true ∨
      ∀ id sub, s.subscribers.lookup id = some sub → sub.posting = none)
    (hroom : ∀ id ids, u = .offer (id :: ids) →
      ∀ sub, s.subscribers.lookup id = some sub → sub.chan.length < chanCap)
    (h : s.exec order u = some r) :
    HubStage r.1.current r.1.subscribers (after src r.2 others) := by
  cases u with
  | compare subnets =>
    cases h
    exact hs.of_not_locks (by simp) (by grind [Update.locks])
  | writeProxy _ | writePods _ | readRouting | readPods _ =>
    cases h
    exact hs.of_not_locks (by simp) (by simp [Update.locks])
  | notify ci =>
    rcases exec_notify h with ⟨_, rfl⟩ | ⟨hequal, horder, rfl⟩
    · exact hs.of_not_locks (by simp) (by simp)
    · have hposted := (hnotify ci rfl).resolve_left hequal
      refine ⟨?_, ?_, fun _ _ _ => hposted⟩
      · intro id sub hsub curr hcurr
        rw [hposted id sub hsub] at hcurr
        cases hcurr
      · intro id sub hsub _
        have hid : id ∈ order := horder.mem_iff.mpr (mem_keys_of_lookup hsub)
        exact .inr ⟨_, mem_cons_self .., order, rfl, hid⟩
  | offer ids =>
    cases ids with
    | nil =>
      cases h
      exact hs.of_not_locks (by simp) (by simp)
    | cons id ids =>
      cases h
      have hoffer := hs.offerTo (hroom id ids rfl)
      rw [offerTo_eq]
      exact hoffer

/-! ## The other parties -/

section Append

variable {us : List (Source × Update)}

/-- A new update that is not about the pod subnets. -/
theorem SubnetsStage.append {sent : Finset Prefix} (h : SubnetsStage sent oi us)
    (src : Source) (hu : ∀ subnets, u ≠ .writePods subnets) :
    SubnetsStage sent oi (us ++ [(src, u)]) := by
  refine ⟨?_, ?_⟩
  · exact forall_mem_concat.mpr ⟨h.written, fun subnets heq => absurd heq (hu subnets)⟩
  · intro hnone
    exact h.settled fun x hx => hnone x (mem_append_left _ hx)

/-- A new update that has not written yet. -/
theorem InfoStage.append (h : InfoStage oi current us)
    (src : Source) (hu : u.dirty = false) : InfoStage oi current (us ++ [(src, u)]) := by
  have hcount : (us ++ [(src, u)]).countP (fun x => x.2.dirty) =
      us.countP (fun x => x.2.dirty) := by
    rw [countP_append, countP_singleton]
    simp [hu]
  exact ⟨hcount ▸ h.oneDirty, forall_mem_concat.mpr ⟨h.carried, carries_of_clean hu⟩,
    fun hzero => h.known (hcount ▸ hzero), h.same, h.kubeIp⟩

/-- A new update that does not hold the lock. -/
theorem HubStage.append (h : HubStage current subscribers us) (src : Source)
    (hu : u.locks = false) :
    HubStage current subscribers (us ++ [(src, u)]) := by
  refine ⟨h.posting, ?_, ?_⟩
  · intro id sub hsub hposting
    refine (h.told id sub hsub hposting).imp_right ?_
    intro ⟨x, hx, hoffer⟩
    exact ⟨x, mem_append_left _ hx, hoffer⟩
  · refine forall_mem_concat.mpr ⟨h.posted, ?_⟩
    intro hlocks
    rw [hu] at hlocks
    cases hlocks

end Append

/-- There is one run of `sendIfChanged`, if any takes a step. -/
theorem PodsStage.run_eq (h : s.PodsStage) {run : Nat} {x : SendRun}
    (hget : s.runs[run]? = some x) : run = 0 ∧ s.runs = [x] := by
  have hone := h.oneRun
  cases hruns : s.runs with
  | nil =>
    rw [hruns] at hget
    cases hget
  | cons y rest =>
    rw [hruns, length_cons] at hone
    have hnil : rest = [] := length_eq_zero_iff.mp (by omega)
    subst hnil
    rw [hruns] at hget
    cases run with
    | zero =>
      cases hget
      exact ⟨rfl, rfl⟩
    | succ n => cases hget

/-- The only run goes on, and what was last sent is the same. -/
theorem Inv.of_run (h : s.Inv) {oldSubnets : Finset Prefix} {runs : List SendRun}
    (hone : runs.length ≤ 1)
    (hfresh : s.watcher.timer = true ∨ Fresh s.watcher.ipsMap oldSubnets runs)
    (hsent : lastSent oldSubnets runs = lastSent s.oldSubnets s.runs) :
    ({ s with oldSubnets, runs } : Delivery).Inv :=
  ⟨⟨hone, hfresh⟩, hsent ▸ h.subnets, h.info, h.hub⟩

theorem Inv.sendStep (h : s.Inv) {run : Nat} (hstep : s.sendStep run = some t) : t.Inv := by
  have hfresh := h.pods.fresh
  rw [Delivery.sendStep] at hstep
  split at hstep
  · cases hstep
  · rename_i hget
    obtain ⟨rfl, hruns⟩ := h.pods.run_eq hget
    cases hstep
    rw [hruns]
    exact h.of_run (Nat.le_refl 1) (.inr rfl) (by rw [hruns]; rfl)
  · rename_i ips hget
    obtain ⟨rfl, hruns⟩ := h.pods.run_eq hget
    rw [hruns] at hfresh hstep
    split at hstep
    · rename_i hequal
      cases hstep
      refine h.of_run (Nat.zero_le 1) (hfresh.imp_right ?_) (by rw [hruns]; rfl)
      intro hips
      rw [← show ips = s.watcher.ipsMap from hips]
      exact hequal.symm
    · cases hstep
      refine h.of_run (Nat.le_refl 1) (hfresh.imp_right ?_) (by rw [hruns]; rfl)
      exact fun hips => congrArg coveringSet hips
  · rename_i newSubnets hget
    obtain ⟨rfl, hruns⟩ := h.pods.run_eq hget
    rw [hruns] at hfresh hstep
    split at hstep
    · rename_i hidle
      cases hstep
      have hidle : ∀ x ∈ s.updates, x.1 ≠ .changeNotifier := by
        simpa [notifierIdle] using hidle
      refine ⟨⟨Nat.le_refl 1, hfresh⟩, ⟨?_, ?_⟩, h.info.append _ rfl, h.hub.append _ rfl⟩
      · -- the notifier was idle, so what is to be written is what has just been sent
        refine forall_mem_concat.mpr ⟨?_, ?_⟩
        · intro x hx subnets heq
          exact absurd (h.subnets.written x hx subnets heq).1 (hidle x hx)
        · rintro subnets ⟨⟩
          exact ⟨rfl, rfl⟩
      · intro hnone
        exact absurd rfl (hnone _ (mem_append_right _ (mem_singleton_self _)) newSubnets)
    · cases hstep
  · rename_i newSubnets hget
    obtain ⟨rfl, hruns⟩ := h.pods.run_eq hget
    rw [hruns] at hfresh hstep
    cases hstep
    exact h.of_run (Nat.zero_le 1) hfresh (by rw [hruns]; rfl)

section Subscribers

variable {us : List (Source × Update)} (h : HubStage current subscribers us) {id : Nat}
include h

/-- One subscriber is replaced by another that is as well informed. -/
theorem HubStage.insert {sub : Subscriber}
    (hposting : ∀ curr, sub.posting = some curr →
      curr = current ∧ sub.chan = [] ∧ sub.received = none) (htold : sub.posting = none →
      sub.last = some current ∨ ∃ x ∈ us, ∃ ids, x.2 = .offer ids ∧ id ∈ ids)
    (hposted : ∀ x ∈ us, x.2.locks = true → sub.posting = none) :
    HubStage current (subscribers.insert id sub) us := by
  refine ⟨?_, ?_, ?_⟩
  · intro id' sub' hsub'
    rcases lookup_of_insert hsub' with ⟨_, rfl⟩ | hsub'
    · exact hposting
    · exact h.posting id' sub' hsub'
  · intro id' sub' hsub'
    rcases lookup_of_insert hsub' with ⟨rfl, rfl⟩ | hsub'
    · exact htold
    · exact h.told id' sub' hsub'
  · intro x hx hlocks id' sub' hsub'
    rcases lookup_of_insert hsub' with ⟨_, rfl⟩ | hsub'
    · exact hposted x hx hlocks
    · exact h.posted x hx hlocks id' sub' hsub'

/-- A subscriber leaves. -/
theorem HubStage.erase : HubStage current (subscribers.erase id) us := by
  refine ⟨?_, ?_, ?_⟩
  · intro id' sub' hsub'
    exact h.posting id' sub' (lookup_of_erase hsub').2
  · intro id' sub' hsub'
    exact h.told id' sub' (lookup_of_erase hsub').2
  · intro x hx hlocks id' sub' hsub'
    exact h.posted x hx hlocks id' sub' (lookup_of_erase hsub').2

end Subscribers

theorem not_locks_of_not_locked (h : ¬ s.locked = true) : ∀ x ∈ s.updates, x.2.locks = false := by
  intro x hx
  have hany : s.locked = false := by simpa using h
  simpa using any_eq_false.mp hany x hx

/-- Only the subscribers change. -/
theorem Inv.of_hub (h : s.Inv) {idGen : Nat} (hhub : HubStage s.current subscribers s.updates) :
    ({ s with idGen, subscribers } : Delivery).Inv :=
  ⟨⟨h.pods.oneRun, h.pods.fresh⟩, h.subnets, h.info, hhub⟩

/-- A part of an update. -/
theorem Inv.updateStep (h : s.Inv) {index : Nat} (ha : s.Orderly (.update index order))
    (hstep : s.step (.update index order) = some t) : t.Inv := by
  obtain ⟨src, u, r, others, hget, hexec, hbefore, hafter, ht⟩ := update_cases hstep
  have hcond := ha src u hget
  obtain ⟨hwatcher, hold, hruns⟩ := exec_frame hexec
  have hsub : ∀ x ∈ others, x ∈ s.updates := by
    intro x hx
    exact hbefore.mem_iff.mpr (mem_cons_of_mem _ hx)
  have hsubnets := (h.subnets.perm hbefore).exec hexec
  have hinfo : InfoStage r.1.oi r.1.current (after src r.2 others) := by
    refine (h.info.perm hbefore).exec ?_ hexec
    intro hwrite x hx
    rcases hwrite with ⟨subnets, rfl⟩ | ⟨subnets, rfl⟩
    all_goals exact hcond x (hsub x hx)
  have hhub : HubStage r.1.current r.1.subscribers (after src r.2 others) := by
    refine (h.hub.perm hbefore).exec ?_ ?_ hexec
    · intro ci hci
      subst hci
      exact hcond
    · intro id ids hids
      subst hids
      exact hcond
  rw [ht]
  refine ⟨⟨?_, ?_⟩, ?_, hinfo.perm hafter.symm, hhub.perm hafter.symm⟩
  · dsimp only
    rw [hruns]
    exact h.pods.oneRun
  · dsimp only
    rw [hwatcher, hold, hruns]
    exact h.pods.fresh
  · dsimp only
    rw [hold, hruns]
    exact hsubnets.perm hafter.symm

/-- A new subscriber. -/
theorem Inv.register (h : s.Inv) (hlocked : ¬ s.locked = true) : s.register.Inv := by
  -- the manager has an address, so that the first message is posted
  have hkube : s.current.dns.kubeIp ≠ [] := by
    have hsame : s.current.dns.kubeIp = s.oi.base.dns.kubeIp :=
      congrArg (fun x => x.2.2.1) h.info.same
    rw [hsame]
    exact h.info.kubeIp
  refine h.of_hub (h.hub.insert ?_ ?_ ?_)
  · intro curr hcurr
    simp only [if_pos hkube, some.injEq] at hcurr
    exact ⟨hcurr.symm, rfl, rfl⟩
  · intro hnone
    simp only [if_pos hkube] at hnone
    cases hnone
  · intro x hx hlocks
    rw [not_locks_of_not_locked hlocked x hx] at hlocks
    cases hlocks

/-- **One step.**  An orderly step keeps the four stages in order. -/
theorem Inv.step (h : s.Inv) {a : DeliveryAction} (ha : s.Orderly a) (hstep : s.step a = some t) :
    t.Inv := by
  cases a with
  | pod old new =>
    cases hstep
    refine ⟨⟨h.pods.oneRun, ?_⟩, h.subnets, h.info, h.hub⟩
    rcases s.watcher.handle_timer old new with htimer | hsame
    · exact .inl htimer
    · dsimp only
      rw [hsame]
      exact h.pods.fresh
  | fire =>
    have hruns : s.runs = [] := ha
    have hsubnets := h.subnets
    rw [hruns] at hsubnets
    simp only [Delivery.step, hruns] at hstep
    split at hstep
    · cases hstep
      exact ⟨⟨Nat.le_refl 1, .inr trivial⟩, hsubnets, h.info, h.hub⟩
    · cases hstep
  | send run => exact h.sendStep hstep
  | setAdditionalAlsoProxy subnets =>
    cases hstep
    exact ⟨⟨h.pods.oneRun, h.pods.fresh⟩, h.subnets.append _ nofun, h.info.append _ rfl,
      h.hub.append _ rfl⟩
  | update index order => exact h.updateStep ha hstep
  | subscribe =>
    simp only [Delivery.step] at hstep
    split at hstep
    · cases hstep
    · rename_i hlocked
      cases hstep
      exact h.register hlocked
  | post id =>
    simp only [Delivery.step] at hstep
    split at hstep
    · cases hstep
    · rename_i sub hsub
      split at hstep
      · cases hstep
      · rename_i curr hcurr
        split at hstep
        · cases hstep
          obtain ⟨rfl, hchan, _⟩ := h.hub.posting id sub hsub curr hcurr
          refine h.of_hub (h.hub.insert nofun ?_ (fun _ _ _ => rfl))
          intro _
          exact .inl (by simp [Subscriber.last])
        · cases hstep
  | unsubscribe id =>
    simp only [Delivery.step] at hstep
    split at hstep
    · cases hstep
    · split at hstep
      · cases hstep
      · cases hstep
        exact h.of_hub h.hub.erase
  | receive id =>
    simp only [Delivery.step] at hstep
    split at hstep
    · cases hstep
    · rename_i sub hsub
      split at hstep
      · rename_i ci rest hposting hchan
        cases hstep
        refine h.of_hub (h.hub.insert ?_ ?_ (fun _ _ _ => hposting))
        · intro curr hcurr
          rw [hposting] at hcurr
          cases hcurr
        · intro _
          refine (h.hub.told id sub hsub hposting).imp_left ?_
          intro hlast
          rw [← hlast, Subscriber.last, Subscriber.last, hchan, getLast?_cons]
          cases rest.getLast? with
          | none | some _ => rfl
      · cases hstep

theorem Inv.upToDate (h : s.Inv) : s.UpToDate := by
  intro hquiet id sub hsub
  obtain ⟨hposting, hchan⟩ := hquiet.drained id sub hsub
  have hknown : s.current = s.oi.clusterInfo := h.info.known (by rw [hquiet.updates]; rfl)
  refine ⟨?_, ?_⟩
  · rcases h.hub.told id sub hsub hposting with hlast | ⟨x, hx, _⟩
    · rw [Subscriber.last, hchan] at hlast
      rw [← hknown]
      exact hlast
    · rw [hquiet.updates] at hx
      cases hx
  · have hfresh := h.pods.fresh.resolve_left (by simp [hquiet.timer])
    have hsettled := h.subnets.settled (by simp [hquiet.updates])
    rw [hquiet.runs] at hfresh hsettled
    have hcover : s.oldSubnets = coveringSet s.watcher.ipsMap := hfresh
    have hsent : lastSent s.oldSubnets [] = s.oldSubnets := rfl
    rw [Info.podSubnets_clusterInfo, hsettled, hsent, hcover]

theorem inv_start (managerIP : Addr) {base : ClusterInfo} (hkubeIp : base.dns.kubeIp ≠ []) :
    (start managerIP base).Inv := by
  have hnone : ∀ id sub, (start managerIP base).subscribers.lookup id ≠ some sub := by
    intro id sub hsub
    have hempty : (start managerIP base).subscribers = ∅ := rfl
    rw [hempty, AList.lookup_empty] at hsub
    cases hsub
  refine ⟨⟨Nat.zero_le _, .inl rfl⟩, ⟨nofun, fun _ => podSubnetsOf_empty.symm⟩,
    ⟨Nat.zero_le _, nofun, fun _ => rfl, rfl, hkubeIp⟩, ⟨?_, ?_, nofun⟩⟩
  all_goals
    intro id sub hsub
    exact absurd hsub (hnone id sub)

end Delivery

/-- **Clients end up with the current message** in every run in which the timer
does not fire during a run of `sendIfChanged`, the `info` is not written while an
earlier update is on its way, nothing is announced while a subscriber has still
to post its first message, and no channel is full when it is offered one; if the
manager has an address. -/
theorem last_received_is_current (managerIP : Addr) {base : ClusterInfo}
    (hkubeIp : base.dns.kubeIp ≠ []) {as : List DeliveryAction}
    (has : Meets Delivery.step Delivery.Orderly (Delivery.start managerIP base) as) :
    Always Delivery.step Delivery.UpToDate (Delivery.start managerIP base) as := by
  refine always_of_meets ?_ ?_ (Delivery.inv_start managerIP hkubeIp) has
  · intro s h
    exact h.upToDate
  · intro s a t h ha hstep
    exact h.step ha hstep

/-! ## A message that is overtaken -/

/-- A test for orderly steps. -/
def Delivery.orderlyTest (s : Delivery) : DeliveryAction → Bool
  | .fire => s.runs.isEmpty
  | .update index _ =>
      match s.updates[index]? with
      | some (_, .writeProxy _) => s.updates.all fun x => !x.2.dirty
      | some (_, .writePods _) => s.updates.all fun x => !x.2.dirty
      | some (_, .notify ci) => clusterInfoEqual s.current ci ||
          s.subscribers.entries.all fun e => e.2.posting.isNone
      | some (_, .offer (id :: _)) =>
          (s.subscribers.lookup id).all fun sub => sub.chan.length < chanCap
      | _ => true
  | _ => true

theorem Delivery.orderly_of_test (s : Delivery) (a : DeliveryAction)
    (h : s.orderlyTest a = true) : s.Orderly a := by
  cases a with
  | fire => exact isEmpty_iff.mp h
  | update index order =>
    intro src u hget
    simp only [orderlyTest, hget] at h
    cases u with
    | compare _ => trivial
    | writeProxy _ | writePods _ => simpa using h
    | readRouting | readPods _ => trivial
    | notify ci =>
      rcases Bool.or_eq_true_iff.mp h with hequal | hposted
      · exact .inl hequal
      · refine .inr ?_
        intro id sub hsub
        have hnone := all_eq_true.mp hposted _ (mem_entries_iff.mpr hsub)
        exact isNone_iff_eq_none.mp hnone
    | offer ids =>
      cases ids with
      | nil => trivial
      | cons id ids =>
        intro sub hsub
        simpa [hsub] using h
  | pod _ _ => trivial
  | send _ | setAdditionalAlsoProxy _ | subscribe | post _ | unsubscribe _ | receive _ => trivial

/-- A test for states in which nothing is pending. -/
def Delivery.quietTest (s : Delivery) : Bool :=
  !s.watcher.timer && s.runs.isEmpty && s.updates.isEmpty &&
    s.subscribers.entries.all fun e => e.2.posting.isNone && e.2.chan.isEmpty

theorem Delivery.quiet_of_test {s : Delivery} (h : s.quietTest = true) : s.Quiet := by
  simp only [quietTest, Bool.and_eq_true, Bool.not_eq_true', List.isEmpty_iff] at h
  obtain ⟨⟨⟨htimer, hruns⟩, hupdates⟩, hdrained⟩ := h
  refine ⟨htimer, hruns, hupdates, ?_⟩
  intro id sub hsub
  have hsub := List.all_eq_true.mp hdrained _ (GoMap.mem_entries_iff.mpr hsub)
  simpa using hsub

/-- What the manager knows when it starts. -/
def managerInfo : ClusterInfo where
  managerPodIp := [10, 42, 0, 5]
  routing := ⟨[], [], []⟩
  dns := { kubeIp := [10, 42, 0, 5] }

/-- The subnets of the pods are sent for the first time. -/
def firstSubnets : List DeliveryAction :=
  [.fire, .send 0, .send 0, .send 0, .send 0,
    .update 0 [], .update 0 [], .update 0 [], .update 0 [], .update 0 []]

/-- A subnet is to be proxied, while there is a subscriber. -/
def alsoProxy : List DeliveryAction :=
  [.setAdditionalAlsoProxy [⟨[172, 16, 0, 0], 12⟩], .update 0 [], .update 0 [], .update 0 [],
    .update 0 [], .update 0 [0], .update 0 [], .update 0 []]

/-- A client subscribes, and gets its first message and another one. -/
theorem last_received_is_current_one_client :
    (run Delivery.step (Delivery.start managerAddr managerInfo)
      (firstSubnets ++ [.subscribe, .post 0] ++ alsoProxy ++ [.receive 0, .receive 0])).any
        (fun t => t.quietTest && (t.subscribers.lookup 0).isSome) = true ∧
    Always Delivery.step Delivery.UpToDate (Delivery.start managerAddr managerInfo)
      (firstSubnets ++ [.subscribe, .post 0] ++ alsoProxy ++ [.receive 0, .receive 0]) := by
  refine ⟨by decide +kernel, ?_⟩
  exact last_received_is_current managerAddr (by decide)
    (meets_of_test Delivery.orderly_of_test (by decide +kernel))

/-- The other message comes before the first one is posted, which is then the
last that the client gets. -/
theorem first_message_overtakes :
    ¬ Always Delivery.step Delivery.UpToDate (Delivery.start managerAddr managerInfo)
      (firstSubnets ++ [.subscribe] ++ alsoProxy ++ [.post 0, .receive 0, .receive 0]) := by
  refine not_always_of_run (Q := fun t => t.quietTest → (t.subscribers.lookup 0).all fun sub =>
    sub.received = some t.oi.clusterInfo) ?_ (by decide +kernel)
  intro t h hquiet
  refine (all_eq_true _ _).mpr fun sub hsub => decide_eq_true ?_
  exact (h (Delivery.quiet_of_test hquiet) 0 sub hsub).1

end Telepresence.Cluster
