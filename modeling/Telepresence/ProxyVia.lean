import Telepresence.Lib.AddrText
import Telepresence.Lib.Maps

/-!
# Workloads that proxy subnets

`consolidateProxyViaWorkloads` of `rootd/session.go` collects the subnets of the
proxy-via entries by workload, in a map, and then goes through the map to make
the list in which `GetLocalIP` looks for the first subnet that contains a
destination.

* `workload_determined_iff`: the order of that map makes no difference if and
  only if the entries for a destination agree about its workload.
-/

namespace Telepresence.ProxyVia

open Netip List GoMap

/-- `SubnetViaWorkload`. -/
structure SubnetViaWorkload where
  subnet : String
  workload : String

/-- The fields of `session` that are read. -/
structure Session where
  subnetViaWorkloads : List SubnetViaWorkload
  alsoProxySubnets : List Prefix := []
  podSubnets : List Prefix := []
  serviceSubnets : List Prefix := []

open Session

/-- `agentSubnet`. -/
structure AgentSubnet where
  subnet : Prefix
  workload : String

/-- `agentVIP`. -/
structure AgentVIP where
  workload : String
  destinationIP : Addr
  deriving DecidableEq

/-- The subnets of an entry, unless it cannot be read. -/
def Session.subnets (s : Session) (pvx : SubnetViaWorkload) : Option (List Prefix) :=
  match pvx.subnet with
  | "also" => some s.alsoProxySubnets
  | "pods" => some s.podSubnets
  | "service" => some s.serviceSubnets
  | text => (parsePrefix text.toList).map fun sn => [sn]

/-- `desiredVips`. -/
def Session.desiredVips (s : Session) : GoMap String (List Prefix) :=
  s.subnetViaWorkloads.foldl
    (fun m pvx =>
      match s.subnets pvx with
      | none => m
      | some sns => m.insert pvx.workload ((m.lookup pvx.workload).getD [] ++ sns)) ∅

/-- The workload that is registered for a name in the configuration. -/
def registered (wlName : String) : String := if wlName = "local" then "" else wlName

/-- `consolidateProxyViaWorkloads`: the names of the workloads, and
`localTranslationSubnets`. -/
def Session.consolidateProxyViaWorkloads (s : Session) (order : Order String (List Prefix)) :
    List String × List AgentSubnet :=
  let es := order.visit s.desiredVips
  ((es.map Sigma.fst).filter (· ≠ "local"),
    es.flatMap fun e => e.2.map fun sn => ⟨sn, registered e.1⟩)

/-- The subnet for a destination. -/
def Session.subnetFor (s : Session) (order : Order String (List Prefix)) (destinationIP : Addr) :
    Option AgentSubnet :=
  (s.consolidateProxyViaWorkloads order).2.find? fun sn => sn.subnet.contains destinationIP

/-- `GetLocalIP`, for a destination that has no entry in `localTranslationTable`
yet: the virtual IP and what `nextVirtualIP` registers for it.  `next` is the
result of `vipGenerator.Next`. -/
def Session.getLocalIP (s : Session) (order : Order String (List Prefix))
    (next : Except String Addr) (destinationIP : Addr) :
    Except String (Option (Addr × AgentVIP)) :=
  match s.subnetFor order destinationIP with
  | none => .ok none
  | some sn => next.map fun va => some (va, ⟨sn.workload, destinationIP⟩)

/-- Some entry has the workload and a subnet that contains the destination. -/
def Session.Serves (s : Session) (destinationIP : Addr) (w : String) : Prop :=
  ∃ pvx ∈ s.subnetViaWorkloads, pvx.workload = w ∧
    ∃ sns, s.subnets pvx = some sns ∧ ∃ sn ∈ sns, sn.contains destinationIP = true

theorem serves_iff (s : Session) (dest : Addr) (w : String) :
    s.Serves dest w ↔ ∃ sn ∈ (s.desiredVips.lookup w).getD [], sn.contains dest = true := by
  unfold Session.Serves desiredVips
  induction s.subnetViaWorkloads using reverseRecOn with
  | nil => simp
  | append_singleton pvxs pvx ih =>
    rw [foldl_append, foldl_cons, foldl_nil]
    cases hsns : s.subnets pvx with
    | none =>
      rw [← ih]
      grind
    | some sns =>
      rw [lookup_insert_eq]
      grind

/-- A subnet that is found is one of an entry. -/
theorem serves_of_subnetFor {s : Session} {order : Order String (List Prefix)} {dest : Addr}
    {sn : AgentSubnet} (h : s.subnetFor order dest = some sn) :
    ∃ w, s.Serves dest w ∧ registered w = sn.workload := by
  have hcontains : sn.subnet.contains dest = true := by simpa using find?_some h
  have hmem := mem_of_find?_eq_some h
  simp only [consolidateProxyViaWorkloads, mem_flatMap, mem_map, Sigma.exists,
    order.mem_visit] at hmem
  obtain ⟨w, sns, hsns, sn, hsn, rfl⟩ := hmem
  exact ⟨w, (serves_iff s dest w).mpr ⟨sn, by simpa [hsns] using hsn, hcontains⟩, rfl⟩

/-- A list of entries with the workload gives a subnet. -/
theorem exists_mem_subnets {s : Session} {dest : Addr} {w : String} (h : s.Serves dest w)
    {es : List (Sigma fun _ : String => List Prefix)}
    (hes : ∀ e ∈ s.desiredVips.entries, e.1 = w → e ∈ es) :
    ∃ sn ∈ es.flatMap fun e => e.2.map fun sn => (⟨sn, registered e.1⟩ : AgentSubnet),
      sn.subnet.contains dest = true := by
  obtain ⟨sn, hsn, hcontains⟩ := (serves_iff s dest w).mp h
  cases hsns : s.desiredVips.lookup w with
  | none => simp [hsns] at hsn
  | some sns =>
    rw [hsns] at hsn
    have hin := hes ⟨w, sns⟩ (mem_entries_iff.mpr hsns) rfl
    exact ⟨_, mem_flatMap.mpr ⟨_, hin, mem_map.mpr ⟨sn, hsn, rfl⟩⟩, hcontains⟩

theorem not_serves_of_subnetFor {s : Session} {order : Order String (List Prefix)} {dest : Addr}
    (h : s.subnetFor order dest = none) (w : String) : ¬ s.Serves dest w := by
  intro hw
  obtain ⟨sn, hsn, hcontains⟩ := exists_mem_subnets hw fun e he _ =>
    (order.perm _).mem_iff.mpr he
  exact find?_eq_none.mp h sn hsn hcontains

/-- A range that starts with a key. -/
def startingWith (w : String) : Order String (List Prefix) where
  visit m := m.entries.filter (fun e => e.1 = w) ++ m.entries.filter (fun e => ¬ e.1 = w)
  perm m := by simpa using filter_append_perm (fun e => decide (e.1 = w)) m.entries

/-- The subnet that is found can be one of any workload that has one. -/
theorem exists_subnetFor {s : Session} {dest : Addr} {w : String} (h : s.Serves dest w) :
    ∃ sn, s.subnetFor (startingWith w) dest = some sn ∧ sn.workload = registered w := by
  have hes : ∀ e ∈ s.desiredVips.entries, e.1 = w →
      e ∈ s.desiredVips.entries.filter fun e => e.1 = w := by
    simp_all
  obtain ⟨found, hfound⟩ :=
    Option.isSome_iff_exists.mp (find?_isSome.mpr (exists_mem_subnets h hes))
  refine ⟨found, ?_, ?_⟩
  · simp only [subnetFor, consolidateProxyViaWorkloads, startingWith,
      flatMap_append, find?_append, hfound, Option.some_or]
  · have hin := mem_of_find?_eq_some hfound
    simp only [mem_flatMap, mem_filter, mem_map] at hin
    obtain ⟨e, ⟨_, he⟩, _, _, rfl⟩ := hin
    rw [of_decide_eq_true he]

/-- **The workload of a destination** is the same for every order of the map if
and only if no virtual IP can be drawn or all entries for the destination have
the same workload. -/
theorem workload_determined_iff (s : Session) (next : Except String Addr) (dest : Addr) :
    (∀ order order', s.getLocalIP order next dest = s.getLocalIP order' next dest) ↔
      ∀ va, next = .ok va → ∀ w w', s.Serves dest w → s.Serves dest w' →
        registered w = registered w' := by
  constructor
  · rintro h va rfl w w' hw hw'
    obtain ⟨sn, hsn, hreg⟩ := exists_subnetFor hw
    obtain ⟨sn', hsn', hreg'⟩ := exists_subnetFor hw'
    have heq := h (startingWith w) (startingWith w')
    rw [getLocalIP, getLocalIP, hsn, hsn'] at heq
    have hworkload : sn.workload = sn'.workload := by simpa [Except.map] using heq
    rw [← hreg, ← hreg', hworkload]
  · intro h order order'
    rw [getLocalIP, getLocalIP]
    cases hsn : s.subnetFor order dest with
    | none =>
      cases hsn' : s.subnetFor order' dest with
      | none => rfl
      | some sn' =>
        obtain ⟨w, hw, _⟩ := serves_of_subnetFor hsn'
        exact absurd hw (not_serves_of_subnetFor hsn w)
    | some sn =>
      obtain ⟨w, hw, hreg⟩ := serves_of_subnetFor hsn
      cases hsn' : s.subnetFor order' dest with
      | none => exact absurd hw (not_serves_of_subnetFor hsn' w)
      | some sn' =>
        obtain ⟨w', hw', hreg'⟩ := serves_of_subnetFor hsn'
        cases next with
        | error e => rfl
        | ok va => simp only [← hreg, ← hreg', h va rfl w w' hw hw']

/-- One workload for the subnet of the pods, and another one for a part of it. -/
def overlapping : Session where
  subnetViaWorkloads := [⟨"pods", "echo"⟩, ⟨"10.1.0.0/16", "edge"⟩]
  podSubnets := (parsePrefix "10.0.0.0/8".toList).toList

/-- The workload for an address in both subnets depends on the order. -/
theorem workload_by_chance : ∃ va dest, overlapping.getLocalIP (startingWith "echo") (.ok va) dest ≠
    overlapping.getLocalIP (startingWith "edge") (.ok va) dest := by
  exact ⟨.v4 ⟨[246, 246, 0, 1], rfl⟩, .v4 ⟨[10, 1, 2, 3], rfl⟩, by decide +kernel⟩

end Telepresence.ProxyVia
