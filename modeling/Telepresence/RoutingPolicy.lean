import Telepresence.Subnets

/-!
# The routing policy of the root daemon

`pkg/client/rootd/session.go`: the also-proxy and never-proxy subnets that a
session starts with are extended by those that the traffic-manager sends
(`readAdditionalRouting`), each list is simplified on its own (`subnet.Unique`),
and the routes are computed from the two simplified lists
(`computeNeverProxyOverrides`).

The documentation promises that the most specific of the configured subnets
wins.  Simplifying each list on its own keeps only its outermost subnets, so the
promise holds exactly when the outermost subnets decide as all of them do.

* `simplifies_of_readAdditionalRouting`: what the simplified lists keep.
* `proxied_iff`: the computed routes decide as the simplified lists do.
* `most_specific_subnet_wins`: when the most specific subnet wins.
-/

namespace Telepresence.RootDaemon

open Netip Subnet LongestMatch List

/-! ## The code -/

/-- `manager.IPNet`. -/
structure IPNet where
  ip : List UInt8
  mask : Int

/-- `iputil.RPCToPrefix`. -/
def rpcToPrefix (m : IPNet) : Prefix :=
  match Addr.fromSlice m.ip with
  | some a => prefixFrom a m.mask
  | none => .zero

/-- `iputil.RPCsToPrefixes`. -/
def rpcsToPrefixes (n : List IPNet) : List Prefix := n.map rpcToPrefix

/-- `manager.Routing`. -/
structure Routing where
  alsoProxySubnets : List IPNet
  neverProxySubnets : List IPNet
  allowConflictingSubnets : List IPNet

/-- `manager.ClusterInfo`, as far as routing goes. -/
structure ClusterInfo where
  routing : Option Routing

/-- The fields of `session` that decide on routing. -/
structure Session where
  alsoProxySubnets : List Prefix
  neverProxySubnets : List Prefix
  allowConflictingSubnets : List Prefix
  /-- The field `Subnet` of each of the `subnetViaWorkloads`. -/
  subnetViaWorkloads : List String

/-- The error of `validateSubnets`: "`name` subnet `sn` is a loopback subnet. It
is never proxied". -/
structure LoopbackError where
  name : String
  sn : Prefix

/-- `validateSubnets`. -/
def validateSubnets (name : String) (ns : List Prefix) (allowLoopback : Bool) :
    Except LoopbackError (List Prefix) :=
  let ns := unique ns
  match ns.find? fun sn => sn.addr.isLoopback && !allowLoopback with
  | some sn => .error ⟨name, sn⟩
  | none => .ok (unique ns)

/-- `session.alsoProxyVia`. -/
def Session.alsoProxyVia (s : Session) : Bool := s.subnetViaWorkloads.any (· = "also")

/-- `session.readAdditionalRouting`.  A list that fails its validation leaves
the lists before it extended. -/
def Session.readAdditionalRouting (s : Session) (mgrInfo : ClusterInfo) :
    Session × Option LoopbackError :=
  match mgrInfo.routing with
  | none => (s, none)
  | some r =>
    match validateSubnets "also-proxy" (rpcsToPrefixes r.alsoProxySubnets) s.alsoProxyVia with
    | .error err => (s, some err)
    | .ok sns =>
      let s := { s with alsoProxySubnets := unique (s.alsoProxySubnets ++ sns) }
      match validateSubnets "never-proxy" (rpcsToPrefixes r.neverProxySubnets) false with
      | .error err => (s, some err)
      | .ok sns =>
        let s := { s with neverProxySubnets := unique (s.neverProxySubnets ++ sns) }
        match validateSubnets "allow-conflicting" (rpcsToPrefixes r.allowConflictingSubnets)
            false with
        | .error err => (s, some err)
        | .ok sns =>
          ({ s with
              allowConflictingSubnets := unique (s.allowConflictingSubnets ++ sns) }, none)

/-- The also-proxy subnets that are configured: those of the session and those
that the traffic-manager sends. -/
def Session.alsoConfigured (s : Session) (r : Routing) : List Prefix :=
  s.alsoProxySubnets ++ rpcsToPrefixes r.alsoProxySubnets

/-- The never-proxy subnets that are configured. -/
def Session.neverConfigured (s : Session) (r : Routing) : List Prefix :=
  s.neverProxySubnets ++ rpcsToPrefixes r.neverProxySubnets

/-- What `computeNeverProxyOverrides` returns. -/
structure Routes where
  proxy : List Prefix
  neverProxy : List Prefix
  neverProxyOverrides : List Prefix

/-- `computeNeverProxyOverrides`. -/
def computeNeverProxyOverrides (subnets nvp : List Prefix) : Routes :=
  let neverProxy := nvp.filter fun nps => subnets.any fun ds => ds.overlaps nps
  let parts := partition subnets fun i isn =>
    !(subnets.zipIdx.any fun e => i != e.2 && (covers e.1 isn && e.1 != isn) &&
      neverProxy.any fun dsn => covers dsn isn)
  ⟨unique parts.1, neverProxy, parts.2⟩

/-! ## The policy -/

/-- Longest-prefix matching over the computed routes sends the address through
the device. -/
def Routes.Proxied (r : Routes) (a : Addr) : Prop :=
  LongestIn (r.proxy ++ r.neverProxyOverrides) r.neverProxy a

/-- The computed routes proxy an address of a configured subnet if and only if
the most specific configured subnet that contains it is an also-proxy one. -/
def Routes.Follows (r : Routes) (also never : List Prefix) : Prop :=
  ∀ a, (∃ p ∈ also ++ never, p.contains a) → (r.Proxied a ↔ LongestIn also never a)

/-- The subnets of a list that contain an address and are not inside another
one that does, where a subnet without bits counts for nothing. -/
def outermost (l : List Prefix) (a : Addr) : List Prefix :=
  l.filter fun p => p.contains a && l.all fun q => !q.contains a || q.bits ≤ 0 || p.bits ≤ q.bits

/-- A subnet without bits has the address of one with bits, and covers it for
`subnet.Covers`. -/
def SharesAddress (l : List Prefix) : Prop :=
  ∃ z ∈ l, ∃ p ∈ l, z.bits = 0 ∧ 0 < p.bits ∧ z.addr = p.addr

/-- At the address, all also-proxy subnets are inside all never-proxy ones, or
none is. -/
def Uniform (also never : List Prefix) (a : Addr) : Prop :=
  (∀ p ∈ also, p.contains a → ∀ q ∈ never, q.contains a → q.bits < p.bits) ∨
    ∀ p ∈ also, p.contains a → ∀ q ∈ never, q.contains a → p.bits ≤ q.bits

/-- Wherever an also-proxy and a never-proxy subnet meet, the outermost subnets
decide as all of them do; where a subnet without bits covers one with bits, the
two kinds are not interleaved at all. -/
def NestedAlike (also never : List Prefix) : Prop :=
  ∀ a, (∃ p ∈ also, p.contains a) → (∃ q ∈ never, q.contains a) →
    (LongestIn (outermost also a) (outermost never a) a ↔ LongestIn also never a) ∧
      (SharesAddress also ∨ SharesAddress never → Uniform also never a)

/-! ## What the simplified lists keep -/

/-- What `subnet.Covers` implies for two subnets of the list `l`. -/
structure Above (l : List Prefix) (k q : Prefix) : Prop where
  bits_le : k.bits ≤ q.bits
  contains : ∀ a, q.contains a → k.contains a
  pos : ¬ SharesAddress l → 0 < q.bits → 0 < k.bits

theorem Above.refl (l : List Prefix) (q : Prefix) : Above l q q :=
  ⟨le_rfl, fun _ h => h, fun _ h => h⟩

theorem Above.trans {l : List Prefix} {x y z : Prefix} (hxy : Above l x y)
    (hyz : Above l y z) : Above l x z :=
  ⟨le_trans hxy.bits_le hyz.bits_le, fun a h => hxy.contains a (hyz.contains a h),
    fun hl h => hxy.pos hl (hyz.pos hl h)⟩

theorem above_of_covers {l : List Prefix} {x y : Prefix} (hx : x ∈ l) (hy : y ∈ l)
    (h : covers x y) : Above l x y := by
  refine ⟨bits_le_of_covers h, fun a => contains_of_covers h, ?_⟩
  intro hshares hpos
  by_contra hnot
  have hnonneg := Prefix.bits_nonneg (covers_iff.mp h).1
  have hzero : x.bits = 0 := by omega
  exact hshares ⟨x, hx, y, hy, hzero, hpos, addr_eq_of_covers_zero h hzero⟩

/-- `Unique`, on a part of the list. -/
theorem above_unique {l part : List Prefix} (hpart : part ⊆ l) {q : Prefix} (hq : q ∈ part) :
    ∃ k ∈ unique part, Above l k q :=
  exists_kept (fun _ hx _ hy h => (above_of_covers (hpart hx) (hpart hy) h).trans) hq (.refl l q)

/-- A simplified list: a part of the configured one with something above each
configured subnet, in which no subnet covers another. -/
structure Simplifies (l kept : List Prefix) : Prop where
  subset : kept ⊆ l
  above : ∀ q ∈ l, ∃ k ∈ kept, Above l k q
  apart : kept.Pairwise Apart

theorem validateSubnets_spec {name : String} {ns sns l : List Prefix} {allow : Bool}
    (hns : ns ⊆ l) (h : validateSubnets name ns allow = .ok sns) :
    sns ⊆ ns ∧ ∀ q ∈ ns, ∃ k ∈ sns, Above l k q := by
  have hsns : unique (unique ns) = sns := by
    unfold validateSubnets at h
    dsimp only at h
    split at h
    · cases h
    · cases h
      rfl
  have hsub : unique ns ⊆ l := fun x hx => hns (unique_subset ns hx)
  rw [← hsns]
  refine ⟨fun x hx => unique_subset _ (unique_subset _ hx), ?_⟩
  intro q hq
  obtain ⟨k, hk, hkq⟩ := above_unique hns hq
  obtain ⟨k', hk', hkk⟩ := above_unique hsub hk
  exact ⟨k', hk', hkk.trans hkq⟩

/-- Extending a list of the session by a validated one. -/
theorem simplifies_extend {name : String} {old ns sns : List Prefix} {allow : Bool}
    (h : validateSubnets name ns allow = .ok sns) :
    Simplifies (old ++ ns) (unique (old ++ sns)) := by
  obtain ⟨hsub, habove⟩ := validateSubnets_spec (subset_append_right old ns) h
  have hpart : old ++ sns ⊆ old ++ ns :=
    append_subset.mpr ⟨subset_append_left _ _,
      fun x hx => mem_append_right _ (hsub hx)⟩
  refine ⟨fun x hx => hpart (unique_subset _ hx), ?_, unique_pairwise _⟩
  intro q hq
  have hfirst : ∃ k ∈ old ++ sns, Above (old ++ ns) k q := by
    cases mem_append.mp hq with
    | inl hold => exact ⟨q, mem_append_left _ hold, Above.refl _ q⟩
    | inr hns =>
      obtain ⟨k, hk, hkq⟩ := habove q hns
      exact ⟨k, mem_append_right _ hk, hkq⟩
  obtain ⟨k, hk, hkq⟩ := hfirst
  obtain ⟨k', hk', hkk⟩ := above_unique hpart hk
  exact ⟨k', hk', hkk.trans hkq⟩

/-- **The simplified lists.**  After `readAdditionalRouting` each of the two
lists simplifies what was configured for it. -/
theorem simplifies_of_readAdditionalRouting {s s' : Session} {r : Routing}
    (h : s.readAdditionalRouting ⟨some r⟩ = (s', none)) :
    Simplifies (s.alsoConfigured r) s'.alsoProxySubnets ∧
      Simplifies (s.neverConfigured r) s'.neverProxySubnets := by
  unfold Session.readAdditionalRouting at h
  dsimp only at h
  split at h
  · cases h
  · rename_i sns hsns
    split at h
    · cases h
    · rename_i sns' hsns'
      split at h
      · cases h
      · cases h
        exact ⟨simplifies_extend hsns, simplifies_extend hsns'⟩

/-! ## The computed routes -/

/-- The never-proxy subnets that overlap a routed one. -/
def routedNever (subnets nvp : List Prefix) : List Prefix :=
  nvp.filter fun nps => subnets.any fun ds => ds.overlaps nps

/-- The subnet is inside another routed one and inside a never-proxy subnet. -/
def overrides (subnets nvp : List Prefix) (isn : Prefix) : Bool :=
  (subnets.any fun rsn => covers rsn isn && rsn != isn) &&
    (routedNever subnets nvp).any fun dsn => covers dsn isn

/-- The subnets that are routed in the end. -/
def routed (subnets nvp : List Prefix) : List Prefix :=
  unique (subnets.filter fun isn => !overrides subnets nvp isn) ++
    subnets.filter (overrides subnets nvp)

section Routed

variable {subnets nvp : List Prefix} {a : Addr}

theorem overrides_iff {y : Prefix} : overrides subnets nvp y = true ↔
    (∃ r ∈ subnets, covers r y ∧ r ≠ y) ∧ ∃ d ∈ routedNever subnets nvp, covers d y := by
  simp [overrides]

/-- The positions in the list do not matter: what stands at the same position
is the same subnet. -/
theorem proxied_iff_routed : (computeNeverProxyOverrides subnets nvp).Proxied a ↔
    LongestIn (routed subnets nvp) (routedNever subnets nvp) a := by
  have hparts : partition subnets (fun i isn => !(subnets.zipIdx.any fun e =>
      i != e.2 && (covers e.1 isn && e.1 != isn) &&
        (routedNever subnets nvp).any fun dsn => covers dsn isn)) =
      (subnets.filter (fun isn => !overrides subnets nvp isn),
        subnets.filter fun isn => !!overrides subnets nvp isn) := partition_eq _ (by
      intro e he
      refine congrArg (!·) (Bool.eq_iff_iff.mpr ?_)
      simp only [overrides, any_eq_true, Bool.and_eq_true, bne_iff_ne]
      constructor
      · rintro ⟨e', he', ⟨_, hcov⟩, hnever⟩
        exact ⟨⟨e'.1, fst_mem_of_mem_zipIdx he', hcov⟩, hnever⟩
      · rintro ⟨⟨rsn, hrsn, hcov⟩, hnever⟩
        obtain ⟨i, hi⟩ := getElem?_of_mem hrsn
        refine ⟨(rsn, i), mem_zipIdx_iff_getElem?.mpr hi, ⟨?_, hcov⟩, hnever⟩
        intro heq
        have hat := mem_zipIdx_iff_getElem?.mp he
        rw [heq, hi] at hat
        exact hcov.2 (Option.some.inj hat))
  unfold computeNeverProxyOverrides
  dsimp only
  rw [← routedNever, hparts, Routes.Proxied, routed]
  simp

theorem mem_routedNever {p q : Prefix} (hp : p ∈ subnets) (hpa : p.contains a) (hq : q ∈ nvp)
    (hqa : q.contains a) : q ∈ routedNever subnets nvp :=
  mem_filter.mpr ⟨hq, any_eq_true.mpr ⟨p, hp, Prefix.overlaps_of_contains hpa hqa⟩⟩

theorem routed_subset : routed subnets nvp ⊆ subnets := by
  intro p hp
  rcases mem_append.mp hp with hp | hp
  · exact (mem_filter.mp (unique_subset _ hp)).1
  · exact (mem_filter.mp hp).1

/-- A subnet that no other one covers is routed, and so is one that a
never-proxy subnet covers. -/
theorem mem_routed {p : Prefix} (hp : p ∈ subnets)
    (h : (∀ r ∈ subnets, covers r p → r = p) ∨ ∃ d ∈ routedNever subnets nvp, covers d p) :
    p ∈ routed subnets nvp := by
  by_cases hover : overrides subnets nvp p = true
  · exact mem_append_right _ (mem_filter.mpr ⟨hp, hover⟩)
  · have hall : ∀ r ∈ subnets, covers r p → r = p := by
      rcases h with hall | hnever
      · exact hall
      · intro r hr hcov
        by_contra hne
        exact hover (overrides_iff.mpr ⟨⟨r, hr, hcov, hne⟩, hnever⟩)
    have hmem : p ∈ subnets.filter fun isn => !overrides subnets nvp isn :=
      mem_filter.mpr ⟨hp, by simpa using hover⟩
    obtain ⟨k, hk, rfl⟩ := exists_kept (R := fun k => k = p)
      (fun x hx y _ hcov hy => hall x (mem_filter.mp hx).1 (hy ▸ hcov)) hmem rfl
    exact mem_append_left _ hk

/-- What the computed routes proxy is proxied by the given lists. -/
theorem longestIn_of_proxied (h : (computeNeverProxyOverrides subnets nvp).Proxied a) :
    LongestIn subnets nvp a := by
  obtain ⟨p, hp, hpa, hlonger⟩ := proxied_iff_routed.mp h
  have hmem := routed_subset hp
  exact ⟨p, hmem, hpa, fun q hq hqa => hlonger q (mem_routedNever hmem hpa hq hqa) hqa⟩

/-- A subnet that is still routed decides as it did. -/
theorem proxied_of_routed {p : Prefix} (hp : p ∈ routed subnets nvp) (hpa : p.contains a)
    (hlonger : ∀ q ∈ nvp, q.contains a → q.bits < p.bits) :
    (computeNeverProxyOverrides subnets nvp).Proxied a :=
  proxied_iff_routed.mpr ⟨p, hp, hpa, fun q hq => hlonger q (mem_filter.mp hq).1⟩

end Routed

/-- The routes computed from simplified lists decide as the lists do. -/
theorem proxied_iff {also never : List Prefix} (halso : also.Pairwise Apart) (a : Addr) :
    (computeNeverProxyOverrides also never).Proxied a ↔ LongestIn also never a := by
  refine ⟨longestIn_of_proxied, ?_⟩
  rintro ⟨p, hp, hpa, hlonger⟩
  refine proxied_of_routed (mem_routed hp (.inl ?_)) hpa hlonger
  intro r hr hcov
  by_contra hne
  exact (halso.forall hr hp hne).1 hcov

/-! ## When the most specific subnet wins -/

section Decision

variable {l kept : List Prefix} {a : Addr}

theorem mem_outermost {p : Prefix} :
    p ∈ outermost l a ↔ p ∈ l ∧ p.contains a ∧
      ∀ q ∈ l, q.contains a → 0 < q.bits → p.bits ≤ q.bits := by
  simp only [outermost, mem_filter, Bool.and_eq_true, all_eq_true, Bool.or_eq_true,
    Bool.not_eq_true', decide_eq_true_eq]
  refine and_congr_right fun _ => and_congr_right fun _ => forall_congr' fun q =>
    imp_congr_right fun _ => ?_
  cases hq : q.contains a with
  | false => simp
  | true =>
    simp only [Bool.true_eq_false, false_or, true_imp_iff]
    omega

/-- A configured subnet that contains the address has a kept one above it. -/
theorem Simplifies.exists_kept (h : Simplifies l kept) {q : Prefix} (hq : q ∈ l)
    (hqa : q.contains a) : ∃ k ∈ kept, k.contains a ∧ k.bits ≤ q.bits := by
  obtain ⟨k, hk, hkq⟩ := h.above q hq
  exact ⟨k, hk, hkq.contains a hqa, hkq.bits_le⟩

/-- What is kept is outermost. -/
theorem Simplifies.kept_outermost (h : Simplifies l kept) (hshares : ¬ SharesAddress l)
    {p : Prefix} (hp : p ∈ kept) (hpa : p.contains a) : p ∈ outermost l a := by
  refine mem_outermost.mpr ⟨h.subset hp, hpa, ?_⟩
  intro q hq hqa hpos
  obtain ⟨k, hk, hkq⟩ := h.above q hq
  have hkpos : 0 < k.bits := hkq.pos hshares hpos
  have hle : k.bits ≤ q.bits := hkq.bits_le
  -- A kept subnet with fewer bits would cover `p`.
  refine Decidable.byContradiction fun hnot => ?_
  have hne : k ≠ p := by
    intro heq
    rw [heq] at hle
    exact hnot hle
  have hcov : covers k p := covers_of_contains (hkq.contains a hqa) hpa (by omega) hkpos
  exact (h.apart.forall hk hp hne).1 hcov

/-- What is outermost has a kept subnet of the same length. -/
theorem Simplifies.outermost_kept (h : Simplifies l kept) (hshares : ¬ SharesAddress l)
    {p : Prefix} (hp : p ∈ outermost l a) : ∃ k ∈ kept, k.contains a ∧ k.bits = p.bits := by
  obtain ⟨hpl, hpa, hout⟩ := mem_outermost.mp hp
  obtain ⟨k, hk, hkp⟩ := h.above p hpl
  have hka := hkp.contains a hpa
  have hnonneg : 0 ≤ k.bits := Prefix.bits_nonneg (Prefix.contains_iff.mp hka).1
  have hle := hkp.bits_le
  refine ⟨k, hk, hka, ?_⟩
  by_cases hpos : 0 < p.bits
  · have hge := hout k (h.subset hk) hka (hkp.pos hshares hpos)
    omega
  · omega

variable {also never also' never' : List Prefix}

section

variable (halso : Simplifies also also') (hnever : Simplifies never never')

include halso hnever

/-- Without a shared address the simplified lists decide as the outermost
subnets do. -/
theorem longestIn_outermost_iff (hs : ¬ SharesAddress also) (hs' : ¬ SharesAddress never) :
    LongestIn also' never' a ↔ LongestIn (outermost also a) (outermost never a) a := by
  constructor
  · intro h
    refine h.mono ?_ ?_
    · intro p hp hpa
      exact ⟨p, halso.kept_outermost hs hp hpa, hpa, le_rfl⟩
    · intro q hq _
      obtain ⟨k, hk, hka, hbits⟩ := hnever.outermost_kept hs' hq
      exact ⟨k, hk, hka, hbits.ge⟩
  · intro h
    refine h.mono ?_ ?_
    · intro p hp _
      obtain ⟨k, hk, hka, hbits⟩ := halso.outermost_kept hs hp
      exact ⟨k, hk, hka, hbits.ge⟩
    · intro q hq hqa
      exact ⟨q, hnever.kept_outermost hs' hq hqa, hqa, le_rfl⟩

/-- Where the two kinds are not interleaved, any choice of subnets decides
alike. -/
theorem longestIn_iff_of_uniform (halsoa : ∃ p ∈ also, p.contains a)
    (hnevera : ∃ q ∈ never, q.contains a) (h : Uniform also never a) :
    LongestIn also' never' a ↔ LongestIn also never a := by
  obtain ⟨p, hp, hpa⟩ := halsoa
  obtain ⟨q, hq, hqa⟩ := hnevera
  obtain ⟨p', hp', hpa', _⟩ := halso.exists_kept hp hpa
  obtain ⟨q', hq', hqa', _⟩ := hnever.exists_kept hq hqa
  cases h with
  | inl hinside =>
    refine iff_of_true ⟨p', hp', hpa', ?_⟩ ⟨p, hp, hpa, fun r hr hra => hinside p hp hpa r hr hra⟩
    intro r hr hra
    exact hinside p' (halso.subset hp') hpa' r (hnever.subset hr) hra
  | inr houtside =>
    refine iff_of_false ?_ ?_
    · intro hsel
      obtain ⟨r, hr, hra, hlonger⟩ := hsel
      have hlt := hlonger q' hq' hqa'
      have hle := houtside r (halso.subset hr) hra q' (hnever.subset hq') hqa'
      omega
    · intro hsel
      obtain ⟨r, hr, hra, hlonger⟩ := hsel
      have hlt := hlonger q hq hqa
      have hle := houtside r hr hra q hq hqa
      omega

/-- An address outside of all never-proxy subnets, or of all also-proxy ones,
is decided by that. -/
theorem longestIn_iff_of_oneKind (h : ¬ ((∃ p ∈ also, p.contains a) ∧ ∃ q ∈ never, q.contains a)) :
    LongestIn also' never' a ↔ LongestIn also never a := by
  constructor
  · intro hsel
    obtain ⟨p, hp, hpa, _⟩ := hsel
    refine ⟨p, halso.subset hp, hpa, ?_⟩
    intro q hq hqa
    exact absurd ⟨⟨p, halso.subset hp, hpa⟩, ⟨q, hq, hqa⟩⟩ h
  · intro hsel
    obtain ⟨p, hp, hpa, _⟩ := hsel
    obtain ⟨k, hk, hka, _⟩ := halso.exists_kept hp hpa
    refine ⟨k, hk, hka, ?_⟩
    intro q hq hqa
    exact absurd ⟨⟨p, hp, hpa⟩, ⟨q, hnever.subset hq, hqa⟩⟩ h

end

end Decision

/-- The routes of a session. -/
def Session.routes (s : Session) : Routes :=
  computeNeverProxyOverrides s.alsoProxySubnets s.neverProxySubnets

/-- **The most specific subnet wins** for every address if the outermost
subnets decide as all configured subnets do; and, unless a list holds a subnet
without bits with the address of another one of its subnets, only then. -/
theorem most_specific_subnet_wins {s s' : Session} {r : Routing}
    (h : s.readAdditionalRouting ⟨some r⟩ = (s', none)) :
    (NestedAlike (s.alsoConfigured r) (s.neverConfigured r) →
        s'.routes.Follows (s.alsoConfigured r) (s.neverConfigured r)) ∧
      (¬ SharesAddress (s.alsoConfigured r) → ¬ SharesAddress (s.neverConfigured r) →
        s'.routes.Follows (s.alsoConfigured r) (s.neverConfigured r) →
          NestedAlike (s.alsoConfigured r) (s.neverConfigured r)) := by
  obtain ⟨halso, hnever⟩ := simplifies_of_readAdditionalRouting h
  refine ⟨?_, ?_⟩
  · intro hnested a _
    rw [Session.routes, proxied_iff halso.apart]
    by_cases hboth : (∃ p ∈ s.alsoConfigured r, p.contains a) ∧
        ∃ q ∈ s.neverConfigured r, q.contains a
    · obtain ⟨hdecides, huniform⟩ := hnested a hboth.1 hboth.2
      by_cases hshares : SharesAddress (s.alsoConfigured r) ∨ SharesAddress (s.neverConfigured r)
      · exact longestIn_iff_of_uniform halso hnever hboth.1 hboth.2 (huniform hshares)
      · have hnot := not_or.mp hshares
        rw [longestIn_outermost_iff halso hnever hnot.1 hnot.2]
        exact hdecides
    · exact longestIn_iff_of_oneKind halso hnever hboth
  · intro hs hs' hfollows a ha ha'
    refine ⟨?_, fun hshares => absurd hshares (not_or.mpr ⟨hs, hs'⟩)⟩
    obtain ⟨p, hp, hpa⟩ := ha
    rw [← longestIn_outermost_iff halso hnever hs hs', ← proxied_iff halso.apart]
    exact hfollows a ⟨p, mem_append_left _ hp, hpa⟩

/-- A single subnet of each kind. -/
theorem nestedAlike_singleton (p q : Prefix) : NestedAlike [p] [q] := by
  have hout : ∀ (x : Prefix) (a : Addr), x.contains a → outermost [x] a = [x] := by
    intro x a hx
    simp [outermost, hx]
  have hshares : ∀ x : Prefix, ¬ SharesAddress [x] := by
    intro x hx
    obtain ⟨z, hz, y, hy, hzero, hpos, _⟩ := hx
    rw [mem_singleton.mp hz] at hzero
    rw [mem_singleton.mp hy] at hpos
    omega
  intro a hpa hqa
  have hp : p.contains a := by simpa using hpa
  have hq : q.contains a := by simpa using hqa
  rw [hout p a hp, hout q a hq]
  refine ⟨Iff.rfl, fun h => ?_⟩
  cases h with
  | inl h => exact absurd h (hshares p)
  | inr h => exact absurd h (hshares q)

/-- A session before it has read any configuration. -/
def Session.empty : Session := ⟨[], [], [], []⟩

/-- `alsoProxySubnets: [10.0.0.0/16]` and `neverProxySubnets: [10.0.5.0/24]`, as
in the documentation. -/
def documented : Routing := ⟨[⟨[10, 0, 0, 0], 16⟩], [⟨[10, 0, 5, 0], 24⟩], []⟩

/-- In the documented example the most specific subnet wins. -/
theorem documented_follows :
    (Session.empty.readAdditionalRouting ⟨some documented⟩).1.routes.Follows
      (Session.empty.alsoConfigured documented) (Session.empty.neverConfigured documented) := by
  have haccepted : Session.empty.readAdditionalRouting ⟨some documented⟩ =
      ((Session.empty.readAdditionalRouting ⟨some documented⟩).1, none) := rfl
  exact (most_specific_subnet_wins haccepted).1 (nestedAlike_singleton _ _)

/-- A never-proxy subnet between two also-proxy subnets:
`alsoProxySubnets: [10.0.0.0/8, 10.1.2.0/24]` and
`neverProxySubnets: [10.1.0.0/16]`. -/
def sandwiched : Routing :=
  ⟨[⟨[10, 0, 0, 0], 8⟩, ⟨[10, 1, 2, 0], 24⟩], [⟨[10, 1, 0, 0], 16⟩], []⟩

/-- The inner also-proxy subnet is dropped as redundant, and its addresses are
not proxied. -/
theorem inner_subnet_lost :
    (Session.empty.readAdditionalRouting ⟨some sandwiched⟩).2.isNone ∧
      (∀ p ∈ Session.empty.alsoConfigured sandwiched,
        p ∉ Session.empty.neverConfigured sandwiched) ∧
      ¬ (Session.empty.readAdditionalRouting ⟨some sandwiched⟩).1.routes.Follows
        (Session.empty.alsoConfigured sandwiched) (Session.empty.neverConfigured sandwiched) := by
  refine ⟨by decide, by decide, ?_⟩
  intro h
  have hat := h (.v4 ⟨[10, 1, 2, 3], rfl⟩) (by decide)
  revert hat
  unfold Routes.Proxied
  decide

end Telepresence.RootDaemon
