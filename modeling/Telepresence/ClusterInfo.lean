import Telepresence.PodWatcher
import Telepresence.RoutingPolicy

/-!
# What clients are told about the cluster

`clusterInfo` of `manager/cluster` puts together the message that clients get,
from what is fixed when the manager starts, the subnets of the pods, and the
subnets that are to be proxied in addition.

* `eq_of_clusterInfoEqual`: the comparison that decides if a message is news
  leaves out only what is fixed.
* `coveringSet`, `sortedKeys`: the subnets of a set of addresses, and their list,
  do not depend on the order in which Go visits a map.
-/

namespace Telepresence.Cluster

open Netip Subnet
open RootDaemon (IPNet Routing)

deriving instance DecidableEq for RootDaemon.IPNet
deriving instance DecidableEq for RootDaemon.Routing

/-! ## Sets of subnets -/

/-- `subnet.NewSet` of `subnet.CoveringPrefixes`, for the addresses of a map. -/
def coveringSet (ips : Finset Addr) : Finset Prefix :=
  Quotient.liftOn ips.val (fun addrs => (coveringPrefixes addrs).toFinset) (by
    intro xs ys hperm
    ext p
    rw [List.mem_toFinset, List.mem_toFinset]
    exact mem_coveringPrefixes_congr fun a => hperm.mem_iff)

/-- The comparison in `sortedKeys`. -/
def sortsBefore (p q : Prefix) : Bool :=
  if p.addr = q.addr then p.bits < q.bits else less p.addr q.addr

/-- The same order, by family, value and length. -/
theorem not_sortsBefore_iff {p q : Prefix} :
    (!sortsBefore q p) = true ↔ p.addr.bitLen < q.addr.bitLen ∨
      p.addr.bitLen = q.addr.bitLen ∧ (p.addr.value < q.addr.value ∨
        p.addr.value = q.addr.value ∧ p.bitsPlusOne ≤ q.bitsPlusOne) := by
  rw [sortsBefore]
  split
  · rename_i heq
    rw [heq]
    simp [Prefix.bits]
  · rename_i hne
    have hdiffer : q.addr.bitLen = p.addr.bitLen → q.addr.value ≠ p.addr.value := by
      intro hlen hvalue
      exact hne (Addr.eq_of_value_eq q.noZone p.noZone hlen hvalue)
    rw [less]
    split
    · rename_i hlen
      have := hdiffer hlen
      simp only [Bool.not_eq_true', decide_eq_false_iff_not]
      omega
    · simp only [Bool.not_eq_true', decide_eq_false_iff_not]
      omega

/-- Two subnets that come neither before the other are equal. -/
theorem eq_of_not_sortsBefore {p q : Prefix} (hpq : (!sortsBefore q p) = true)
    (hqp : (!sortsBefore p q) = true) : p = q := by
  rw [not_sortsBefore_iff] at hpq hqp
  have haddr : p.addr = q.addr :=
    Addr.eq_of_value_eq p.noZone q.noZone (by omega) (by omega)
  have hbits : p.bitsPlusOne = q.bitsPlusOne := by omega
  cases p
  cases q
  cases haddr
  cases hbits
  rfl

instance : Std.Total fun p q : Prefix => (!sortsBefore q p) = true where
  total p q := by
    simp only [not_sortsBefore_iff]
    omega

instance : IsTrans Prefix fun p q => (!sortsBefore q p) = true where
  trans p q r hpq hqr := by
    rw [not_sortsBefore_iff] at hpq hqr ⊢
    omega

instance : Std.Antisymm fun p q : Prefix => (!sortsBefore q p) = true where
  antisymm _ _ hpq hqp := eq_of_not_sortsBefore hpq hqp

/-- `sortedKeys`, which is what `AppendSortedTo` appends to nothing. -/
def sortedKeys (s : Finset Prefix) : List Prefix :=
  Quotient.liftOn s.val (List.insertionSort fun p q => (!sortsBefore q p) = true) (by
    intro xs ys hperm
    have hsorted : ∀ l : List Prefix,
        (l.insertionSort fun p q => (!sortsBefore q p) = true).Pairwise
          fun p q => (!sortsBefore q p) = true := fun l => List.pairwise_insertionSort _ l
    refine List.Perm.eq_of_pairwise' (hsorted xs) (hsorted ys) ?_
    exact (List.perm_insertionSort _ xs).trans (hperm.trans (List.perm_insertionSort _ ys).symm))

/-- `iputil.PrefixToRPC`. -/
def prefixToRPC (n : Prefix) : IPNet := ⟨n.addr.asSlice, n.bits⟩

/-- `iputil.PrefixesToRPC`. -/
def prefixesToRPC (n : List Prefix) : List IPNet := n.map prefixToRPC

/-- `PodSubnets` for a set of subnets. -/
def podSubnetsOf (subnets : Finset Prefix) : List IPNet := prefixesToRPC (sortedKeys subnets)

/-- Without subnets the list is empty, as it is before any are known. -/
theorem podSubnetsOf_empty : podSubnetsOf ∅ = [] := by
  have hsorted : sortedKeys ∅ = [] := List.insertionSort_nil _
  rw [podSubnetsOf, hsorted]
  rfl

/-! ## The message -/

/-- `rpc.DNS`, with the fields that the manager sets.  `KubeIp` is nil if it is
empty. -/
structure DNS where
  includeSuffixes : List String := []
  excludeSuffixes : List String := []
  kubeIp : List UInt8
  clusterDomain : String := "cluster.local."
  deriving DecidableEq

/-- `rpc.ClusterInfo`. -/
structure ClusterInfo where
  managerPodIp : List UInt8
  managerPodPort : Int := 0
  injectorSvcIp : List UInt8 := []
  injectorSvcPort : Int := 0
  injectorSvcHost : String := ""
  routing : Routing
  dns : DNS
  serviceSubnet : Option IPNet := none
  serviceCidrs : List (List UInt8) := []
  podSubnets : List IPNet := []
  deriving DecidableEq

/-- `clusterInfoEqual`. -/
def clusterInfoEqual (a b : ClusterInfo) : Bool :=
  if a.podSubnets.length ≠ b.podSubnets.length ∨ a.dns.clusterDomain ≠ b.dns.clusterDomain then
    false
  else
    decide (a.serviceCidrs = b.serviceCidrs) && decide (a.podSubnets = b.podSubnets) &&
      decide (a.routing.alsoProxySubnets = b.routing.alsoProxySubnets) &&
      decide (a.routing.neverProxySubnets = b.routing.neverProxySubnets) &&
      decide (a.routing.allowConflictingSubnets = b.routing.allowConflictingSubnets) &&
      decide (a.dns.includeSuffixes = b.dns.includeSuffixes) &&
      decide (a.dns.excludeSuffixes = b.dns.excludeSuffixes)

/-- What `clusterInfoEqual` does not look at. -/
def ClusterInfo.uncompared (ci : ClusterInfo) :
    (List UInt8 × Int) × (List UInt8 × Int × String) × List UInt8 × Option IPNet :=
  ((ci.managerPodIp, ci.managerPodPort),
    (ci.injectorSvcIp, ci.injectorSvcPort, ci.injectorSvcHost), ci.dns.kubeIp, ci.serviceSubnet)

theorem eq_of_clusterInfoEqual {a b : ClusterInfo} (h : clusterInfoEqual a b = true)
    (hrest : a.uncompared = b.uncompared) : a = b := by
  obtain ⟨_, _, _, _, _, ⟨_, _, _⟩, ⟨_, _, _, _⟩, _, _, _⟩ := a
  obtain ⟨_, _, _, _, _, ⟨_, _, _⟩, ⟨_, _, _, _⟩, _, _, _⟩ := b
  rw [clusterInfoEqual] at h
  split at h
  · cases h
  · rename_i hdomain
    simp only [Bool.and_eq_true, decide_eq_true_eq] at h
    simp only [ne_eq, not_or, not_not] at hdomain
    simp only [ClusterInfo.uncompared, Prod.mk.injEq] at hrest
    simp_all

/-! ## Where it comes from -/

/-- `Prefix.UnmarshalBinary` into a zero prefix, with its error ignored. -/
def unmarshalPrefix (b : List UInt8) : Prefix :=
  match b.getLast? with
  | none => .zero
  | some bits =>
      let addr := b.dropLast
      if addr = [] then prefixFrom .zero bits.toNat
      else
        -- what follows the sixteen bytes of an address is a zone, which a prefix has not
        match Addr.fromSlice (if addr.length > 16 then addr.take 16 else addr) with
        | some a => prefixFrom a bits.toNat
        | none => .zero

/-- `info`: the embedded message, whose pod subnets change, and the subnets to
be proxied in addition. -/
structure Info where
  base : ClusterInfo
  addAlsoProxy : List IPNet := []

namespace Info

/-- The first part of `clusterInfo`: the routing, with the subnets that it does
not have yet. -/
def routing (oi : Info) : Routing :=
  if oi.addAlsoProxy.length > 0 then
    { alsoProxySubnets := oi.addAlsoProxy.foldl
        (fun cps s => if s ∈ cps then cps else cps ++ [s]) oi.base.routing.alsoProxySubnets
      neverProxySubnets := oi.base.routing.neverProxySubnets
      allowConflictingSubnets := oi.base.routing.allowConflictingSubnets }
  else oi.base.routing

/-- The rest of `clusterInfo`, which reads the pod subnets. -/
def withRouting (oi : Info) (rt : Routing) : ClusterInfo where
  managerPodIp := oi.base.managerPodIp
  managerPodPort := oi.base.managerPodPort
  injectorSvcIp := oi.base.injectorSvcIp
  injectorSvcPort := oi.base.injectorSvcPort
  injectorSvcHost := oi.base.injectorSvcHost
  routing := rt
  dns := oi.base.dns
  serviceSubnet := oi.base.serviceCidrs.head?.map fun sc => prefixToRPC (unmarshalPrefix sc)
  serviceCidrs := oi.base.serviceCidrs
  podSubnets := oi.base.podSubnets

/-- `clusterInfo`. -/
def clusterInfo (oi : Info) : ClusterInfo := oi.withRouting oi.routing

/-- `oi.PodSubnets = …` in `watchSubnets`. -/
def setPodSubnets (oi : Info) (subnets : Finset Prefix) : Info :=
  { oi with base := { oi.base with podSubnets := podSubnetsOf subnets } }

@[simp] theorem podSubnets_clusterInfo (oi : Info) :
    oi.clusterInfo.podSubnets = oi.base.podSubnets := rfl

end Info

end Telepresence.Cluster
