import Mathlib.Data.Multiset.OrderedMonoid
import Telepresence.Lib.Runs
import Telepresence.Subnets

/-!
# The router of the virtual network interface

`pkg/vif/router.go`: `UpdateRoutes` keeps the subnets that are routed through
the device and the static routes that override them, and `Routes` tells whether
an address goes through the device, which decides how connections are dialled.

`Routes` scans the two lists without regard to prefix lengths, while the
operating system selects the longest prefix.  The two agree exactly for calls
whose lists are separated.

* `agrees_updateRoutes_iff`: one call of `UpdateRoutes`.
* `routes_agree_iff`: every state of every run.
* `routes_kept_iff`: what a run leaves in the routing table.
-/

namespace Telepresence.Vif

open Netip Subnet LongestMatch Runs List Prefix

/-! ## The code -/

/-- `routing.Route`. -/
structure Route where
  interfaceIndex : Int
  interfaceName : String
  localIP : Addr
  routedNet : Prefix
  gateway : Addr
  default_ : Bool
  deriving DecidableEq

/-- What `Device` says about the TUN device. -/
structure Device where
  index : UInt32
  name : String

/-- `Router`. -/
structure Router where
  device : Device
  staticOverrides : List Route
  routedSubnets : List Prefix
  localDNSRoutes : List Prefix

open Router

/-- What the operating system answers during one call of `UpdateRoutes`. -/
structure OS where
  /-- `routing.GetRoutingTable`, when the default route is looked up. -/
  routingTable : Except String (List Route)
  /-- `routing.GetRoute`. -/
  getRoute : Prefix → Except String Route
  /-- `routing.GetRoutingTable`, when the path of an address is looked up. -/
  tableFor : Addr → Except String (List Route)

/-- `NewRouter`. -/
def newRouter (device : Device) : Router := ⟨device, [], [], []⟩

/-- `routing.DefaultRoute`. -/
def OS.defaultRoute (os : OS) : Except String Route :=
  match os.routingTable with
  | .error err => .error err
  | .ok table =>
    match table.find? Route.default_ with
    | some r => .ok r
    | none => .error "unable to find a default route"

/-- `netip.IPv4Unspecified` or `netip.IPv6Unspecified`, as for the given
address. -/
def unspecified (a : Addr) : Addr :=
  if a.is4 then .v4 ⟨List.replicate 4 0, rfl⟩ else .v6 Addr.zero.as16 ""

/-- `routing.NewRoute`. -/
def newRoute (rn : Prefix) (ifIdx : Int) (ifName : String) : Route where
  routedNet := rn.masked
  interfaceIndex := ifIdx
  interfaceName := ifName
  localIP := unspecified rn.addr
  gateway := unspecified rn.addr
  default_ := false

/-- `sameAddrFamily`. -/
def sameAddrFamily (addr candidate : Addr) : Bool :=
  candidate ≠ .zero && addr.is4 == candidate.is4

/-- `routeVia`. -/
def routeVia (sn : Prefix) (base : Route) : Route :=
  let r := newRoute sn base.interfaceIndex base.interfaceName
  let r := if sameAddrFamily sn.addr base.gateway then { r with gateway := base.gateway } else r
  if sameAddrFamily sn.addr base.localIP then { r with localIP := base.localIP } else r

/-- `routeViaDefault`. -/
def routeViaDefault (sn : Prefix) (dr : Route) : Route := routeVia sn dr

/-- `Router.osRoute`. -/
def osRoute (os : OS) (sn : Prefix) (ourIdx : Int) (ourName : String) : Option Route :=
  match os.getRoute sn with
  | .error _ => none
  | .ok existing =>
    if existing.interfaceIndex = ourIdx ∨ existing.interfaceName = ourName then none
    else some existing

/-- One round of the loop of `mostSpecificRoute`. -/
def moreSpecific (addr : Addr) (ourName : String) (best : Option Route) (r : Route) :
    Option Route :=
  if r.default_ || r.routedNet.bits == 1 || r.interfaceName == ourName then best
  else if !r.routedNet.contains addr then best
  else
    match best with
    | none => some r
    | some b => if r.routedNet.bits > b.routedNet.bits then some r else some b

/-- `mostSpecificRoute`. -/
def mostSpecificRoute (table : List Route) (addr : Addr) (ourName : String) : Option Route :=
  table.foldl (moreSpecific addr ourName) none

/-- `Router.existingRoute`. -/
def existingRoute (os : OS) (addr : Addr) (ourName : String) : Option Route :=
  match os.tableFor addr with
  | .error _ => none
  | .ok table => mostSpecificRoute table addr ourName

/-- `Router.routeViaExisting`. -/
def routeViaExisting (os : OS) (sn : Prefix) (dr : Route) (ourIdx : Int) (ourName : String) :
    Route :=
  match osRoute os sn ourIdx ourName with
  | some existing => routeVia sn existing
  | none =>
    match existingRoute os sn.addr ourName with
    | some existing => routeVia sn existing
    | none => routeViaDefault sn dr

/-- `int(rt.device.Index())`. -/
def Device.ourIdx (d : Device) : Int := d.index.toNat

/-- The route of a never-proxied subnet: that of a local DNS server follows its
existing path, every other one the default route. -/
def Router.neverProxyRoute (rt : Router) (os : OS) (dr : Route) (sn : Prefix) : Route :=
  if rt.localDNSRoutes.contains sn then
    routeViaExisting os sn dr rt.device.ourIdx rt.device.name
  else routeViaDefault sn dr

/-- `Router.UpdateRoutes`.  What it adds to and removes from the routing table
are the two lists of the state; errors from there are only logged. -/
def Router.updateRoutes (rt : Router) (os : OS)
    (pleaseProxy dontProxy dontProxyOverrides : List Prefix) : Router × Option String :=
  let kept := (partition rt.routedSubnets fun _ sn => pleaseProxy.any (sn = ·)).1
  let added := pleaseProxy.filter fun sn => !kept.any (sn = ·)
  let rt := { rt with staticOverrides := [], routedSubnets := kept ++ added }
  match os.defaultRoute with
  | .error err => (rt, some err)
  | .ok dr =>
    let staticRoutes := dontProxy.map (rt.neverProxyRoute os dr) ++
      dontProxyOverrides.map fun sn => newRoute sn rt.device.ourIdx rt.device.name
    ({ rt with staticOverrides := staticRoutes }, none)

/-- `Router.SetLocalDNSRoutes`. -/
def Router.setLocalDNSRoutes (rt : Router) (routes : List Prefix) : Router :=
  { rt with localDNSRoutes := routes }

/-- The route goes through the device. -/
def Device.has (d : Device) (r : Route) : Bool := UInt32.ofInt r.interfaceIndex == d.index

/-- `Router.Routes`. -/
def Router.routes (rt : Router) (addr : Addr) : Bool :=
  rt.routedSubnets.any (·.contains addr) &&
    !rt.staticOverrides.any fun rn => rn.routedNet.contains addr && !rt.device.has rn

/-! ## The installed routes -/

/-- The static routes through the device. -/
def Router.ownOverrides (rt : Router) : List Prefix :=
  (rt.staticOverrides.filter rt.device.has).map Route.routedNet

/-- The static routes through other interfaces. -/
def Router.foreignOverrides (rt : Router) : List Prefix :=
  (rt.staticOverrides.filter fun r => !rt.device.has r).map Route.routedNet

/-- `Routes` tells for every address whether the longest installed prefix that
contains it belongs to the device. -/
def Router.Agrees (rt : Router) : Prop :=
  ∀ a, rt.routes a ↔ LongestIn (rt.routedSubnets ++ rt.ownOverrides) rt.foreignOverrides a

/-- Lists of routed subnets, of subnets with a static route through the device,
and of subnets with a static route through another interface, such that the
second lie in the others and no prefix of the first two is inside of one of the
third at an address where it is longer than all of them. -/
abbrev Compatible (routed own foreign : List Prefix) : Prop :=
  Separated contains bits routed own foreign

/-- The never-proxied subnets of a call whose route goes through the device. -/
def Router.neverProxyOwn (rt : Router) (os : OS) (dr : Route) (dontProxy : List Prefix) :
    List Prefix :=
  dontProxy.filter fun sn => rt.device.has (rt.neverProxyRoute os dr sn)

/-- The never-proxied subnets of a call whose route goes through another
interface. -/
def Router.neverProxyForeign (rt : Router) (os : OS) (dr : Route) (dontProxy : List Prefix) :
    List Prefix :=
  dontProxy.filter fun sn => !rt.device.has (rt.neverProxyRoute os dr sn)

/-- The condition on a call of `UpdateRoutes`.  Without a default route there are
no static routes, and nothing is asked. -/
def Router.Allows (rt : Router) (os : OS)
    (pleaseProxy dontProxy dontProxyOverrides : List Prefix) : Prop :=
  match os.defaultRoute with
  | .error _ => True
  | .ok dr => Compatible pleaseProxy (rt.neverProxyOwn os dr dontProxy ++ dontProxyOverrides)
      (rt.neverProxyForeign os dr dontProxy)

/-! ## One call -/

theorem routes_iff (rt : Router) (a : Addr) :
    rt.routes a ↔ (∃ p ∈ rt.routedSubnets, p.contains a) ∧
      ¬ ∃ q ∈ rt.foreignOverrides, q.contains a := by
  simp only [routes, foreignOverrides, Bool.and_eq_true, any_eq_true,
    Bool.not_eq_true', any_eq_false, mem_map, mem_filter]
  refine and_congr_right fun _ => ?_
  constructor
  · intro h hex
    obtain ⟨q, ⟨r, ⟨hr, hforeign⟩, rfl⟩, hqa⟩ := hex
    exact h r hr ⟨hqa, hforeign⟩
  · intro h r hr hboth
    exact h ⟨r.routedNet, ⟨r, ⟨hr, hboth.2⟩, rfl⟩, hboth.1⟩

/-- A state agrees with the operating system if and only if its lists are
compatible. -/
theorem agrees_iff_compatible (rt : Router) :
    rt.Agrees ↔ Compatible rt.routedSubnets rt.ownOverrides rt.foreignOverrides := by
  simp only [Router.Agrees, routes_iff]
  exact flat_iff_separated

/-- Masking changes neither the addresses of a prefix nor its length. -/
theorem compatible_masked {routed routed' own foreign : List Prefix}
    (h : ∀ p, p ∈ routed ↔ p ∈ routed') :
    Compatible routed (own.map masked) (foreign.map masked) ↔
      Compatible routed' own foreign :=
  separated_map_iff (fun p a => (p.masked_spec a).1) (fun p => (p.masked_spec .zero).2) h

@[simp] theorem routedNet_routeVia (sn : Prefix) (base : Route) :
    (routeVia sn base).routedNet = sn.masked := by
  unfold routeVia
  dsimp only
  split <;> split <;> rfl

@[simp] theorem routedNet_neverProxyRoute (rt : Router) (os : OS) (dr : Route) (sn : Prefix) :
    (rt.neverProxyRoute os dr sn).routedNet = sn.masked := by
  unfold neverProxyRoute routeViaExisting routeViaDefault
  split
  · split
    · exact routedNet_routeVia _ _
    · split
      all_goals exact routedNet_routeVia _ _
  · exact routedNet_routeVia _ _

@[simp] theorem has_newRoute (d : Device) (sn : Prefix) : d.has (newRoute sn d.ourIdx d.name) := by
  have hlt : d.index.toNat < 2 ^ 32 := d.index.toNat_lt
  have hmod : ((d.index.toNat : Int) % 2 ^ 32).toNat = d.index.toNat := by omega
  rw [Device.has, newRoute, Device.ourIdx, UInt32.ofInt, hmod]
  simp

/-- The subnets that stay, and those that go. -/
theorem parts_eq (routed pleaseProxy : List Prefix) :
    partition routed (fun _ sn => pleaseProxy.any (sn = ·)) =
      (routed.filter (· ∈ pleaseProxy), routed.filter (· ∉ pleaseProxy)) := by
  rw [partition_eq (· ∈ pleaseProxy) fun e _ => Bool.eq_iff_iff.mpr (by simp)]
  simp

/-- The subnets that come. -/
theorem added_eq (routed pleaseProxy : List Prefix) :
    (pleaseProxy.filter fun sn => !(routed.filter (· ∈ pleaseProxy)).any (sn = ·)) =
      pleaseProxy.filter (· ∉ routed) := by
  refine filter_congr ?_
  intro sn hsn
  rw [Bool.eq_iff_iff]
  grind

section

variable (rt : Router) (os : OS) (pleaseProxy dontProxy dontProxyOverrides : List Prefix)

theorem updateRoutes_eq :
    (rt.updateRoutes os pleaseProxy dontProxy dontProxyOverrides).1.device = rt.device ∧
      (rt.updateRoutes os pleaseProxy dontProxy dontProxyOverrides).1.routedSubnets =
        rt.routedSubnets.filter (· ∈ pleaseProxy) ++
          pleaseProxy.filter (· ∉ rt.routedSubnets) := by
  unfold updateRoutes
  simp only [parts_eq, added_eq]
  split <;> exact ⟨rfl, rfl⟩

/-- The routed subnets after a call are those asked for. -/
theorem mem_routedSubnets_updateRoutes (p : Prefix) :
    p ∈ (rt.updateRoutes os pleaseProxy dontProxy dontProxyOverrides).1.routedSubnets ↔
      p ∈ pleaseProxy := by
  rw [(updateRoutes_eq rt os pleaseProxy dontProxy dontProxyOverrides).2]
  grind

/-- **One call.**  After a call of `UpdateRoutes` the router agrees with the
operating system if and only if the call meets the condition. -/
theorem agrees_updateRoutes_iff :
    (rt.updateRoutes os pleaseProxy dontProxy dontProxyOverrides).1.Agrees ↔
      rt.Allows os pleaseProxy dontProxy dontProxyOverrides := by
  have hrouted := mem_routedSubnets_updateRoutes rt os pleaseProxy dontProxy dontProxyOverrides
  rw [agrees_iff_compatible, Router.Allows]
  cases hdr : os.defaultRoute with
  | error err =>
    have hown : (rt.updateRoutes os pleaseProxy dontProxy
        dontProxyOverrides).1.ownOverrides = [] := by
      simp [updateRoutes, ownOverrides, hdr]
    have hforeign : (rt.updateRoutes os pleaseProxy dontProxy
        dontProxyOverrides).1.foreignOverrides = [] := by
      simp [updateRoutes, foreignOverrides, hdr]
    rw [hown, hforeign]
    exact iff_of_true (separated_nil _) trivial
  | ok dr =>
    have hown : (rt.updateRoutes os pleaseProxy dontProxy dontProxyOverrides).1.ownOverrides =
        (rt.neverProxyOwn os dr dontProxy ++ dontProxyOverrides).map masked := by
      simp only [updateRoutes, hdr, ownOverrides, neverProxyOwn,
        filter_append, map_append, filter_map, map_map]
      congr 1
      · exact map_congr_left fun sn _ => routedNet_neverProxyRoute rt os dr sn
      · have hall : dontProxyOverrides.filter (rt.device.has ∘ fun sn =>
            newRoute sn rt.device.ourIdx rt.device.name) = dontProxyOverrides :=
          filter_eq_self.mpr fun sn _ => has_newRoute rt.device sn
        rw [hall]
        rfl
    have hforeign : (rt.updateRoutes os pleaseProxy dontProxy
        dontProxyOverrides).1.foreignOverrides =
        (rt.neverProxyForeign os dr dontProxy).map masked := by
      simp only [updateRoutes, hdr, foreignOverrides, neverProxyForeign,
        filter_append, map_append, filter_map, map_map]
      have hnone : dontProxyOverrides.filter ((fun r => !rt.device.has r) ∘ fun sn =>
          newRoute sn rt.device.ourIdx rt.device.name) = [] :=
        filter_eq_nil_iff.mpr fun sn _ => by simp
      rw [hnone, map_nil, append_nil]
      exact map_congr_left fun sn _ => routedNet_neverProxyRoute rt os dr sn
    rw [hown, hforeign]
    exact compatible_masked hrouted

end

/-! ## Runs -/

/-- What is called on a router. -/
inductive Call where
  | updateRoutes (os : OS) (pleaseProxy dontProxy dontProxyOverrides : List Prefix)
  | setLocalDNSRoutes (routes : List Prefix)

/-- One call. -/
def Router.step (rt : Router) : Call → Option Router
  | .updateRoutes os pleaseProxy dontProxy dontProxyOverrides =>
      some (rt.updateRoutes os pleaseProxy dontProxy dontProxyOverrides).1
  | .setLocalDNSRoutes routes => some (rt.setLocalDNSRoutes routes)

/-- The condition on a call, in the state before it. -/
def Router.AllowsCall (rt : Router) : Call → Prop
  | .updateRoutes os pleaseProxy dontProxy dontProxyOverrides =>
      rt.Allows os pleaseProxy dontProxy dontProxyOverrides
  | .setLocalDNSRoutes _ => True

/-- **Routes agree.**  In every state of a run, from a new router on, `Routes`
tells what the operating system does, if and only if every call of
`UpdateRoutes` meets the condition. -/
theorem routes_agree_iff (device : Device) (calls : List Call) :
    Always Router.step Router.Agrees (newRouter device) calls ↔
      Meets Router.step Router.AllowsCall (newRouter device) calls := by
  have hstart : (newRouter device).Agrees :=
    (agrees_iff_compatible _).mpr (separated_nil _)
  refine always_iff_meets_of_iff (fun rt h => h) ?_ hstart calls
  intro rt call rt' hrt hstep
  cases call with
  | updateRoutes os pleaseProxy dontProxy dontProxyOverrides =>
    cases hstep
    exact ⟨agrees_updateRoutes_iff rt os _ _ _, id⟩
  | setLocalDNSRoutes routes =>
    cases hstep
    exact ⟨iff_of_true hrt trivial, id⟩

/-- A host with a default route through interface 2, and the device as
interface 7. -/
def host : OS where
  routingTable := .ok [⟨2, "eth0", .v4 ⟨[192, 168, 1, 5], rfl⟩,
    prefixFrom (.v4 ⟨[0, 0, 0, 0], rfl⟩) 0, .v4 ⟨[192, 168, 1, 1], rfl⟩, true⟩]
  getRoute := fun _ => .error "unable to find route"
  tableFor := fun _ => .ok []

/-- A proxied subnet inside of a never-proxied one: the documentation sends
`10.0.5.1` through the device, and so do the installed routes, but `Routes` does
not. -/
theorem routes_misses_nested_subnet :
    ¬ Always Router.step Router.Agrees (newRouter ⟨7, "tel0"⟩)
      [.updateRoutes host [prefixFrom (.v4 ⟨[10, 0, 5, 0], rfl⟩) 24]
        [prefixFrom (.v4 ⟨[10, 0, 0, 0], rfl⟩) 16] []] := by
  intro h
  have hagrees := h.2 _ rfl (.v4 ⟨[10, 0, 5, 1], rfl⟩)
  revert hagrees
  decide

/-! ## The routing table -/

/-- A router, the addresses that its device owns in each family, the routes that
have been added to the routing table and not been removed, and those of them for
never-proxied subnets. -/
structure Installed where
  router : Router
  owned : Bool → Option Addr
  table : Multiset Route := 0
  neverProxied : List Route := []

namespace Installed

/-- `Router.subnetRoute`. -/
def subnetRoute (s : Installed) (sn : Prefix) : Route :=
  let r := newRoute sn s.router.device.ourIdx s.router.device.name
  match s.owned sn.addr.is4 with
  | some a => { r with localIP := a }
  | none => r

/-- `Router.createRoutesDelta`. -/
def createRoutesDelta (staticOverrides rs : List Route) : List Route × List Route :=
  (rs.filter (· ∉ staticOverrides), staticOverrides.filter (· ∉ rs))

/-- `Router.UpdateRoutes` on Linux, where all changes of the routing table
succeed. -/
def updateRoutes (s : Installed) (os : OS) (pleaseProxy dontProxy dontProxyOverrides : List Prefix) :
    Installed :=
  -- `dropStaticOverrides`
  let table := s.table - s.router.staticOverrides
  let parts := partition s.router.routedSubnets fun _ sn => pleaseProxy.any (sn = ·)
  let added := pleaseProxy.filter fun sn => !parts.1.any (sn = ·)
  let table := table - parts.2.map s.subnetRoute + added.map s.subnetRoute
  let rt := (s.router.updateRoutes os pleaseProxy dontProxy dontProxyOverrides).1
  -- without a default route there are no static routes
  let delta := createRoutesDelta [] rt.staticOverrides
  ⟨rt, s.owned, table + delta.1 - delta.2, rt.staticOverrides.take dontProxy.length⟩

/-- What `Router.Close` leaves in the routing table. -/
def close (s : Installed) : Multiset Route :=
  s.table - s.router.routedSubnets.map s.subnetRoute - s.router.staticOverrides

/-- One call; lists have no duplicates. -/
def step (s : Installed) : Call → Option Installed
  | .updateRoutes os pleaseProxy dontProxy dontProxyOverrides =>
      if pleaseProxy.Nodup ∧ dontProxy.Nodup ∧ dontProxyOverrides.Nodup then
        some (s.updateRoutes os pleaseProxy dontProxy dontProxyOverrides)
      else none
  | .setLocalDNSRoutes routes => some { s with router := s.router.setLocalDNSRoutes routes }

/-- After a call the routes are those that it asks for; after one that fails,
the never-proxy routes that it asks for again are still there. -/
def Keeps (s : Installed) : Call → Prop
  | .updateRoutes os pleaseProxy dontProxy dontProxyOverrides =>
      let t := s.updateRoutes os pleaseProxy dontProxy dontProxyOverrides
      match os.defaultRoute with
      | .ok dr => t.table = ↑(pleaseProxy.map s.subnetRoute ++
          (dontProxy.map (s.router.neverProxyRoute os dr) ++
            dontProxyOverrides.map fun sn =>
              newRoute sn s.router.device.ourIdx s.router.device.name))
      | .error _ => ∀ r ∈ s.neverProxied, r.routedNet ∈ dontProxy.map masked → r ∈ t.table
  | .setLocalDNSRoutes _ => True

/-- Without a default route, no never-proxy route that is in place is asked for
again, unless it is also one of the device's. -/
def Allows (s : Installed) : Call → Prop
  | .updateRoutes os pleaseProxy dontProxy _ => ∀ err, os.defaultRoute = .error err →
      ∀ r ∈ s.neverProxied, r.routedNet ∈ dontProxy.map masked →
        r ∈ pleaseProxy.map s.subnetRoute
  | .setLocalDNSRoutes _ => True

/-- The routes are those of the two lists. -/
structure Inv (s : Installed) : Prop where
  table : s.table = ↑(s.router.routedSubnets.map s.subnetRoute) + ↑s.router.staticOverrides
  nodup : s.router.routedSubnets.Nodup

variable {s : Installed} {os : OS} {pleaseProxy dontProxy dontProxyOverrides : List Prefix}

/-- The routes after a call, whether it fails or not. -/
theorem Inv.updateRoutes (h : s.Inv) (hnodup : pleaseProxy.Nodup) :
    let t := s.updateRoutes os pleaseProxy dontProxy dontProxyOverrides
    t.Inv ∧ t.table = ↑(pleaseProxy.map s.subnetRoute) + ↑t.router.staticOverrides := by
  obtain ⟨hdevice, hrouted⟩ := updateRoutes_eq s.router os pleaseProxy dontProxy dontProxyOverrides
  have hperm : (s.router.routedSubnets.filter (· ∈ pleaseProxy) ++
      pleaseProxy.filter (· ∉ s.router.routedSubnets)).Perm pleaseProxy := by
    refine (perm_ext_iff_of_nodup ?_ hnodup).mpr (by grind)
    refine (h.nodup.filter _).append (hnodup.filter _) ?_
    intro sn hkept hadded
    grind
  have hnew := Multiset.coe_eq_coe.mpr (hperm.map s.subnetRoute)
  have hsplit := Multiset.coe_eq_coe.mpr
    ((filter_append_perm (· ∈ pleaseProxy) s.router.routedSubnets).map s.subnetRoute)
  have htable : (s.updateRoutes os pleaseProxy dontProxy dontProxyOverrides).table =
      ↑(pleaseProxy.map s.subnetRoute) +
        ↑(s.router.updateRoutes os pleaseProxy dontProxy dontProxyOverrides).1.staticOverrides := by
    rw [map_append, ← Multiset.coe_add] at hnew hsplit
    simp only [Installed.updateRoutes, h.table, parts_eq, added_eq, createRoutesDelta,
      add_tsub_cancel_right, ← hnew, ← hsplit, not_mem_nil, not_false_eq_true, decide_not]
    simp
  rw [← hrouted] at hperm hnew
  refine ⟨⟨?_, hperm.nodup_iff.mpr hnodup⟩, htable⟩
  have hroute : (s.updateRoutes os pleaseProxy dontProxy dontProxyOverrides).subnetRoute =
      s.subnetRoute := by
    funext sn
    simp only [subnetRoute, Installed.updateRoutes, hdevice]
  rw [htable, hroute, ← hnew]
  rfl

/-- A call keeps the invariant, and the routes if it meets the condition. -/
theorem Inv.step {t : Installed} {c : Call} (h : s.Inv) (hstep : s.step c = some t) :
    t.Inv ∧ (s.Keeps c ↔ s.Allows c) := by
  cases c with
  | setLocalDNSRoutes routes =>
    cases hstep
    exact ⟨⟨h.table, h.nodup⟩, Iff.rfl⟩
  | updateRoutes os pleaseProxy dontProxy dontProxyOverrides =>
    simp only [Installed.step] at hstep
    split at hstep
    · rename_i hlists
      cases hstep
      obtain ⟨hinv, htable⟩ := h.updateRoutes hlists.1
      refine ⟨hinv, ?_⟩
      simp only [Keeps, Allows, htable]
      cases hdr : os.defaultRoute with
      | ok dr =>
        simp only [Installed.updateRoutes, Router.updateRoutes, hdr]
        exact iff_of_true rfl nofun
      | error err => simp [Installed.updateRoutes, Router.updateRoutes, hdr]
    · cases hstep

end Installed

/-- **No route is leaked or lost** in a run, and none is left by `Close`, if and
only if every call without a default route meets the condition. -/
theorem routes_kept_iff (owned : Bool → Option Addr) (device : Device) (calls : List Call) :
    (Meets Installed.step Installed.Keeps { router := newRouter device, owned } calls ∧
      ∀ t, run Installed.step { router := newRouter device, owned } calls = some t →
        t.close = 0) ↔
      Meets Installed.step Installed.Allows { router := newRouter device, owned } calls := by
  have hstart : Installed.Inv { router := newRouter device, owned } := ⟨rfl, nodup_nil⟩
  have hkeep : ∀ s c t, Installed.Inv s → s.step c = some t → t.Inv :=
    fun _ _ _ h hstep => (h.step hstep).1
  rw [meets_iff_meets (fun s c t h _ => hkeep s c t h)
    (fun _ (c : Call) _ h hstep => (h.step hstep).2) hstart calls, and_iff_left_iff_imp]
  intro hmeets t hrun
  have hinv := (always_of_meets (fun _ h => h) (fun s c t h _ => hkeep s c t h) hstart
    hmeets).of_run hrun
  rw [Installed.close, hinv.table, add_tsub_cancel_left, tsub_self]

/-- A host that has lost its default route. -/
def offline : OS := { host with routingTable := .ok [] }

/-- The same lists, with `10.0.0.0/8` proxied and `10.0.5.0/24` not. -/
def sameLists (os : OS) : Call :=
  .updateRoutes os [prefixFrom (.v4 ⟨[10, 0, 0, 0], rfl⟩) 8]
    [prefixFrom (.v4 ⟨[10, 0, 5, 0], rfl⟩) 24] []

/-- The never-proxied subnet is asked for again while there is no default route,
and its route is gone. -/
theorem never_proxy_route_lost :
    ¬ Meets Installed.step Installed.Keeps
      { router := newRouter ⟨7, "tel0"⟩, owned := fun _ => none }
      [sameLists host, sameLists offline] := by
  intro h
  have hlost := ((h _ rfl).2 _ rfl).1 _ (mem_singleton.mpr rfl) (mem_singleton.mpr rfl)
  revert hlost
  decide +kernel

end Telepresence.Vif
