import Telepresence.Lib.Maps
import Telepresence.Lib.Strings

/-!
# The DNS server of the root daemon

`pkg/client/rootd/dns/server.go`: queries are resolved through a cache.  A query
that finds no entry stores a new one, asks the cluster, and fills the entry and
those of the other records of the reply.  Names can be excluded from cluster
lookups; setting the excludes purges cached records.

An entry is shared by pointer between the cache and the call that resolves it.
Calls are modelled one after the other, where calls in progress show as entries
whose channel is still open, so entries can be values.

* `resolveThruCache_of_found`: what is found in the cache is returned as it is.
* `excluded_not_cached_iff`: when an excluded name is not answered from the cache.
-/

namespace Telepresence.Dns

open Strings List

/-! ## Records and queries -/

/-- The data of a resource record. -/
inductive RData where
  | a (ip : List UInt8)
  | aaaa (ip : List UInt8)
  | cname (target : String)
  | other (rrtype : UInt16) (text : String)
  deriving DecidableEq

/-- `dns.TypeA`. -/
def typeA : UInt16 := 1

/-- `dns.TypeAAAA`. -/
def typeAAAA : UInt16 := 28

/-- `dns.TypeCNAME`. -/
def typeCNAME : UInt16 := 5

/-- `dns.RcodeSuccess`. -/
def rcodeSuccess : Int := 0

/-- `dns.RcodeNameError`. -/
def rcodeNameError : Int := 3

/-- `dns.RR`, with its header. -/
structure RR where
  name : String
  class_ : UInt16
  ttl : UInt32
  data : RData
  deriving DecidableEq

/-- `Header().Rrtype`. -/
def RR.rrtype (rr : RR) : UInt16 :=
  match rr.data with
  | .a _ => typeA
  | .aaaa _ => typeAAAA
  | .cname _ => typeCNAME
  | .other t _ => t

/-- `dnsproxy.IsEmptyName`. -/
def isEmptyName (rr : RR) : Bool :=
  match rr.data with
  | .a ip => ip.isEmpty
  | .aaaa ip => ip.isEmpty
  | _ => false

/-- `RRs.PruneEmptyNames`. -/
def pruneEmptyNames (rrs : List RR) : List RR := rrs.filter fun rr => !isEmptyName rr

/-- `dns.Question`.  A name in a query ends in a dot. -/
structure Question where
  host : String
  qtype : UInt16
  qclass : UInt16

/-- The field `Name` of a question. -/
def Question.name (q : Question) : String := q.host ++ "."

/-! ## The server -/

/-- `cacheKey`. -/
structure CacheKey where
  name : String
  qType : UInt16
  deriving DecidableEq

/-- `cacheEntry`, with times in nanoseconds. -/
structure CacheEntry where
  created : Int
  answer : List RR
  rCode : Int
  /-- The channel `wait` is closed. -/
  done : Bool

/-- `cacheTTL`. -/
def cacheTTL : Int := 60 * 1000000000

/-- `cacheEntry.expired`. -/
def CacheEntry.expired (dv : CacheEntry) (now : Int) : Bool := now - dv.created > cacheTTL

/-- `Server`. -/
structure Server where
  excludes : List String
  excludeSuffixes : List String
  includeSuffixes : List String
  search : List String
  /-- The keys of the map `routes`, in the order of their iteration. -/
  routes : List String
  clusterDomain : String
  namespaceDomain : String
  cache : GoMap CacheKey CacheEntry

/-- `excludePrefixes`. -/
def excludePrefixes : List String :=
  ["wpad.", "_grpc_config.", "lb._dns-sd.", "db._dns-sd.", "b._dns-sd.", "win11-vb.",
    "dc.msdcs.", "_ldap._tcp.dc._msdcs."]

/-- `Server.isExcluded`. -/
def Server.isExcluded (s : Server) (name : String) : Bool :=
  s.excludes.contains name ||
    s.search.any fun sp =>
      hasSuffix name ("." ++ sp) && s.excludes.contains (trimSuffix name ("." ++ sp))

/-- The closure `suffixExcluded` of `shouldDoClusterLookup`: `some true` for
included, `some false` for excluded. -/
def Server.suffixExcluded (s : Server) (n : String) : Option Bool :=
  match s.excludeSuffixes.find? (hasSuffix n) with
  | none => none
  | some es =>
      some (s.includeSuffixes.any fun is => es.utf8ByteSize ≤ is.utf8ByteSize && hasSuffix n is)

/-- The loops over search paths and over routes of `shouldDoClusterLookup`. -/
def Server.includedBy (s : Server) (suffixes : List String) (name : String) : Option Bool :=
  (suffixes.find? fun sfx =>
      hasSuffix name ("." ++ sfx) && trimSuffix name ("." ++ sfx) ≠ "").map fun sfx =>
    (s.suffixExcluded (trimSuffix name ("." ++ sfx))).getD true

/-- The loop over the include suffixes of `shouldDoClusterLookup`. -/
def Server.includedBySuffix (s : Server) (name : String) : Bool :=
  match s.includeSuffixes.find? (hasSuffix name) with
  | none => false
  | some sfx =>
      if hasPrefix sfx "." then (s.suffixExcluded (trimSuffix name sfx)).getD true else true

/-- `Server.shouldDoClusterLookup`. -/
def Server.shouldDoClusterLookup (s : Server) (q : Question) : Bool :=
  if excludePrefixes.any (hasPrefix q.name) then false
  else if s.isExcluded q.host then false
  else if !q.host.toList.contains '.' then true
  else
    (s.suffixExcluded q.host).getD <|
      (s.includedBy s.search q.host).getD <|
        (s.includedBy s.routes q.host).getD <|
          hasSuffix q.name ("." ++ s.clusterDomain) || s.includedBySuffix q.host

/-- `dnsTTL`. -/
def dnsTTL : UInt32 := 4

/-- How the answers of the cluster have their time to live lowered. -/
def lowerTTL (rrs : List RR) : List RR := rrs.map fun rr => { rr with ttl := dnsTTL }

/-- An error of a cluster lookup. -/
structure LookupError where
  deadlineOrCanceled : Bool
  text : String

/-- What a lookup in the cluster comes to: a reply, or what `resolveInCluster`
makes of its error. -/
inductive ClusterResult where
  | reply (rrs : List RR) (rCode : Int)
  | failure (rCode : Int) (err : Option LookupError)

/-- The record that `localhost.` resolves to. -/
def localhostAnswer (q : Question) : Option RR :=
  if q.qtype = typeA then some ⟨q.name, q.qclass, 0, .a [127, 0, 0, 1]⟩
  else if q.qtype = typeAAAA then
    some ⟨q.name, q.qclass, 0, .aaaa [0, 0, 0, 0, 0, 0, 0, 0, 0, 0, 0, 0, 0, 0, 0, 1]⟩
  else none

/-- `Server.resolveInCluster`. -/
def Server.resolveInCluster (s : Server) (q : Question) (cluster : ClusterResult) :
    List RR × Int × Option LookupError :=
  if q.name = "localhost." then
    match localhostAnswer q with
    | some rr => ([rr], rcodeSuccess, none)
    | none => ([], rcodeNameError, none)
  else if !s.shouldDoClusterLookup q then ([], rcodeNameError, none)
  else
    match cluster with
    | .reply rrs rCode => (lowerTTL rrs, rCode, none)
    | .failure rCode err => ([], rCode, err)

/-- The other one of the two address types. -/
def otherType (qtype : UInt16) : UInt16 := if qtype = typeAAAA then typeA else typeAAAA

/-- `Server.isNameCachedWithSuccess`. -/
def Server.isNameCachedWithSuccess (s : Server) (q : Question) : Bool :=
  if q.qtype = typeA ∨ q.qtype = typeAAAA then
    let names := q.name ::
      (if hasSuffix q.name s.namespaceDomain then [trimSuffix q.name s.namespaceDomain] else [])
    names.any fun name =>
      match s.cache.lookup ⟨name, otherType q.qtype⟩ with
      | some aRec => aRec.done && aRec.rCode == rcodeSuccess
      | none => false
  else false

/-- `copyRRs`. -/
def copyRRs (rrs : List RR) (qTypes : List UInt16) : List RR × List RR :=
  (rrs.filter fun rr => qTypes.contains rr.rrtype, rrs.filter fun rr => !qTypes.contains rr.rrtype)

/-- The types of records that go into the answer. -/
def answerTypes (q : Question) (dv : CacheEntry) : List UInt16 :=
  if q.qtype ≠ typeCNAME ∧ dv.answer.any (fun rr => rr.rrtype = typeCNAME) then
    [q.qtype, typeCNAME]
  else [q.qtype]

/-- The key that a record is cached under. -/
def RR.key (rr : RR) : CacheKey := ⟨rr.name, rr.rrtype⟩

/-- The entry that a record of a reply is cached in: the old one with a new
answer, or a new one. -/
def recordEntry (rCode now : Int) (oldValue : Option CacheEntry) (rr : RR) : CacheEntry :=
  let rrs := if isEmptyName rr then [] else [rr]
  match oldValue with
  | some oldValue => { oldValue with answer := rrs, rCode := rCode }
  | none => ⟨now, rrs, rCode, true⟩

/-- The body of the loop over the other records of a reply. -/
def cacheRecord (rCode now : Int) (cache : GoMap CacheKey CacheEntry) (rr : RR) :
    GoMap CacheKey CacheEntry :=
  cache.insert rr.key (recordEntry rCode now (cache.lookup rr.key) rr)

/-- The entry that a query finds in the cache. -/
def Server.found (s : Server) (now : Int) (q : Question) : Option CacheEntry :=
  (s.cache.lookup ⟨q.name, q.qtype⟩).filter fun dv => !dv.expired now

/-- The entry that a query stores which finds none. -/
def newEntry (now : Int) : CacheEntry := ⟨now, [], -1, false⟩

/-- The server with the new entry of a query. -/
def Server.addEntry (s : Server) (now : Int) (q : Question) : Server :=
  { s with cache := s.cache.insert ⟨q.name, q.qtype⟩ (newEntry now) }

/-- What becomes of a call of `resolveThruCache`. -/
inductive Outcome where
  /-- It waits for the call that resolves the entry. -/
  | waits
  | returns (s : Server) (answer : List RR) (rCode : Int) (err : Option LookupError)

/-- A name that is cached with success for the other address type exists, so the
query for it does not fail. -/
def Server.recover (s : Server) (q : Question) (rCode : Int) (err : Option LookupError) :
    Int × Option LookupError :=
  if rCode ≠ rcodeSuccess ∧ s.isNameCachedWithSuccess q = true then (rcodeSuccess, none)
  else (rCode, err)

/-- The records of a result that answer the query. -/
def ownAnswer (q : Question) (dv : CacheEntry) (rrs : List RR) : List RR :=
  pruneEmptyNames (copyRRs rrs (answerTypes q dv)).1

/-- The server after a result is stored: the entry `dv` of the query gets its
answer, the other records of a successful result are cached one by one, and the
deferred calls delete the entry of a failed query and close its channel. -/
def Server.storeResult (s : Server) (q : Question) (dv : CacheEntry) (rrs : List RR)
    (rCode : Int) (err : Option LookupError) (now : Int) : Server :=
  let key : CacheKey := ⟨q.name, q.qtype⟩
  let others := (copyRRs rrs (answerTypes q dv)).2
  let dv := { dv with answer := ownAnswer q dv rrs, rCode := rCode }
  let cache := s.cache.insert key dv
  let cache := if rCode = rcodeSuccess then others.foldl (cacheRecord rCode now) cache else cache
  if err.isSome ∨ rCode ≠ rcodeSuccess ∧ rCode ≠ rcodeNameError then
    { s with cache := cache.erase key }
  else { s with cache := cache.insert key { dv with done := true } }

/-- `Server.resolveThruCache`, called at time `now`, with the given result of the
cluster lookup at time `later`. -/
def Server.resolveThruCache (s : Server) (now : Int) (q : Question) (cluster : ClusterResult)
    (later : Int) : Outcome :=
  match s.found now q with
  | some dv => if dv.done then .returns s dv.answer dv.rCode none else .waits
  | none =>
    let dv := newEntry now
    let s := s.addEntry now q
    let (answer, rCode, err) := s.resolveInCluster q cluster
    let rCode := if err.any LookupError.deadlineOrCanceled then rcodeNameError else rCode
    let (rCode, err) := s.recover q rCode err
    .returns (s.storeResult q dv answer rCode err later) (ownAnswer q dv answer) rCode err

/-! ## Excludes -/

/-- The keys that `Server.purgeRecordsFromCache` deletes. -/
def purgedKeys (keyName : String) : List CacheKey :=
  [⟨trimSuffix keyName "." ++ ".", typeA⟩, ⟨trimSuffix keyName "." ++ ".", typeAAAA⟩]

/-- `Server.purgeRecordsFromCache`. -/
def Server.purgeRecordsFromCache (s : Server) (keyName : String) : Server :=
  { s with cache := s.cache.deleteAll (purgedKeys keyName) }

/-- `slice.AppendUnique`. -/
def appendUnique (dest src : List String) : List String :=
  src.foldl (fun dest v => if dest.contains v then dest else dest ++ [v]) dest

/-- `Server.SetExcludes`. -/
def Server.setExcludes (s : Server) (excludes : List String) : Server :=
  let excludes := excludes.map toLower
  (appendUnique s.excludes excludes).foldl Server.purgeRecordsFromCache
    { s with excludes := excludes }

theorem mem_appendUnique {dest src : List String} {v : String} :
    v ∈ appendUnique dest src ↔ v ∈ dest ∨ v ∈ src := by
  induction src generalizing dest with
  | nil => simp [appendUnique]
  | cons w src ih =>
    have hrec : appendUnique dest (w :: src) =
        appendUnique (if dest.contains w then dest else dest ++ [w]) src := rfl
    rw [hrec, ih]
    by_cases hw : w ∈ dest
    · simp only [contains_iff_mem, hw, if_true, mem_cons]
      constructor
      · intro h
        tauto
      · intro h
        rcases h with h | h | h
        · exact Or.inl h
        · exact Or.inl (h ▸ hw)
        · exact Or.inr h
    · simp only [contains_iff_mem, hw, if_false, mem_append, mem_cons]
      tauto

/-- What purging a list of names leaves in the cache. -/
theorem lookup_purge (names : List String) (s : Server) (key : CacheKey) :
    (names.foldl Server.purgeRecordsFromCache s).cache.lookup key =
      if ∃ e ∈ names, key ∈ purgedKeys e then none else s.cache.lookup key := by
  induction names generalizing s with
  | nil => simp
  | cons e names ih =>
    rw [foldl_cons, ih, Server.purgeRecordsFromCache, GoMap.lookup_deleteAll]
    by_cases hhead : key ∈ purgedKeys e
    · simp [hhead]
    · simp [hhead]

/-- The query is for an address type, and its name is one of the old or the new
excludes, up to a final dot. -/
def Server.Purges (s : Server) (excludes : List String) (q : Question) : Prop :=
  (q.qtype = typeA ∨ q.qtype = typeAAAA) ∧
    ∃ e, (e ∈ s.excludes ∨ e ∈ excludes.map toLower) ∧ trimSuffix e "." ++ "." = q.name

instance (s : Server) (excludes : List String) (q : Question) :
    Decidable (s.Purges excludes q) :=
  decidable_of_iff ((q.qtype = typeA ∨ q.qtype = typeAAAA) ∧
      ∃ e ∈ s.excludes ++ excludes.map toLower, trimSuffix e "." ++ "." = q.name) (by
    simp [Server.Purges])

theorem lookup_setExcludes (s : Server) (excludes : List String) (q : Question) :
    (s.setExcludes excludes).cache.lookup ⟨q.name, q.qtype⟩ =
      if s.Purges excludes q then none else s.cache.lookup ⟨q.name, q.qtype⟩ := by
  have hiff : (∃ e ∈ appendUnique s.excludes (excludes.map toLower),
      (⟨q.name, q.qtype⟩ : CacheKey) ∈ purgedKeys e) ↔ s.Purges excludes q := by
    constructor
    · intro h
      obtain ⟨e, he, hkey⟩ := h
      simp only [purgedKeys, mem_cons, not_mem_nil, or_false, CacheKey.mk.injEq] at hkey
      rcases hkey with hkey | hkey
      · exact ⟨Or.inl hkey.2, e, mem_appendUnique.mp he, hkey.1.symm⟩
      · exact ⟨Or.inr hkey.2, e, mem_appendUnique.mp he, hkey.1.symm⟩
    · intro h
      obtain ⟨htype, e, he, hname⟩ := h
      refine ⟨e, mem_appendUnique.mpr he, ?_⟩
      rcases htype with htype | htype
      all_goals simp [purgedKeys, hname, htype]
  rw [Server.setExcludes, lookup_purge]
  simp only [hiff]

/-! ## What was cached -/

/-- There is an answer for the query in the cache, which has not expired. -/
def Server.HasAnswer (s : Server) (now : Int) (q : Question) : Prop :=
  ∃ dv, s.found now q = some dv ∧ dv.done = true

/-- The call returns the answer that `before` has in its cache, and resolves
nothing: the server stays as it is. -/
def Outcome.IsCached (o : Outcome) (before s : Server) (q : Question) : Prop :=
  ∃ dv, before.cache.lookup ⟨q.name, q.qtype⟩ = some dv ∧ o = .returns s dv.answer dv.rCode none

theorem resolveThruCache_of_found {s : Server} {now : Int} {q : Question} {dv : CacheEntry}
    (h : s.found now q = some dv) (cluster : ClusterResult) (later : Int) :
    s.resolveThruCache now q cluster later =
      if dv.done then .returns s dv.answer dv.rCode none else .waits := by
  simp only [Server.resolveThruCache, h]

/-- The cluster is not asked for an excluded name. -/
theorem resolveInCluster_of_excluded {s : Server} {q : Question} (h : s.isExcluded q.host = true)
    (cluster : ClusterResult) : ∃ rrs rCode, s.resolveInCluster q cluster = (rrs, rCode, none) ∧
      (rCode = rcodeSuccess ∨ rCode = rcodeNameError) := by
  have hlookup : s.shouldDoClusterLookup q = false := by
    simp [Server.shouldDoClusterLookup, h]
  unfold Server.resolveInCluster
  split
  · split
    · exact ⟨_, _, rfl, .inl rfl⟩
    · exact ⟨_, _, rfl, .inr rfl⟩
  · simp only [hlookup, Bool.not_false, if_true]
    exact ⟨_, _, rfl, .inr rfl⟩

/-- A result without an error is found again. -/
theorem found_storeResult (s : Server) (q : Question) (rrs : List RR) {rCode : Int}
    (hcode : rCode = rcodeSuccess ∨ rCode = rcodeNameError) (now later : Int) :
    ((s.storeResult q (newEntry now) rrs rCode none later).found now q).isSome = true := by
  have hkeep : ¬ ((none : Option LookupError).isSome = true ∨
      rCode ≠ rcodeSuccess ∧ rCode ≠ rcodeNameError) := by
    simp only [Option.isSome_none, Bool.false_eq_true, false_or, not_and_or, not_not]
    exact hcode
  simp only [Server.storeResult, if_neg hkeep]
  simp [Server.found, CacheEntry.expired, newEntry, cacheTTL]

/-- An excluded name that is not in the cache is looked up, and the cache has an
entry for it afterwards. -/
theorem resolveThruCache_of_excluded {s : Server} {now : Int} {q : Question}
    (hmiss : s.found now q = none) (h : s.isExcluded q.host = true) (cluster : ClusterResult)
    (later : Int) : ∃ t rrs rCode, s.resolveThruCache now q cluster later =
      .returns t rrs rCode none ∧ (t.found now q).isSome = true := by
  obtain ⟨rrs, rCode, hcluster, hcode⟩ :=
    resolveInCluster_of_excluded (s := s.addEntry now q) h cluster
  obtain ⟨code, hrecover, hcode'⟩ : ∃ code, (s.addEntry now q).recover q rCode none = (code, none) ∧
      (code = rcodeSuccess ∨ code = rcodeNameError) := by
    unfold Server.recover
    split
    · exact ⟨_, rfl, .inl rfl⟩
    · exact ⟨_, rfl, hcode⟩
  refine ⟨_, ownAnswer q (newEntry now) rrs, code, ?_,
    found_storeResult (s.addEntry now q) q rrs hcode' now later⟩
  simp only [Server.resolveThruCache, hmiss, hcluster, Option.any_none, Bool.false_eq_true,
    if_false, hrecover]

/-- What the call returns is in the cache already if and only if the entry is
found there. -/
theorem isCached_iff {s t : Server} {now : Int} {q : Question} (hex : t.isExcluded q.host = true)
    (hcache : t.found now q = s.found now q ∨ t.found now q = none) (cluster : ClusterResult) 
    (later : Int) : (t.resolveThruCache now q cluster later).IsCached s t q ↔ t.HasAnswer now q := by
  cases hfound : t.found now q with
  | none =>
    obtain ⟨t', rrs, rCode, hreturns, hnew⟩ := resolveThruCache_of_excluded hfound hex cluster later
    simp only [Server.HasAnswer, hfound, reduceCtorEq, false_and, exists_false, iff_false]
    rintro ⟨dv, -, heq⟩
    rw [hreturns] at heq
    cases heq
    rw [hfound] at hnew
    cases hnew
  | some dv =>
    have hsame : s.found now q = some dv := by
      rcases hcache with h | h
      · exact h.symm.trans hfound
      · rw [hfound] at h
        cases h
    have hlookup : s.cache.lookup ⟨q.name, q.qtype⟩ = some dv :=
      (Option.filter_eq_some_iff.mp hsame).1
    rw [resolveThruCache_of_found hfound]
    simp only [Server.HasAnswer, hfound, Option.some.injEq, Outcome.IsCached, hlookup,
      exists_eq_left']
    cases dv.done <;> simp

/-- **Excluded names.**  After `SetExcludes`, resolving a query for an excluded
name does not return what was cached before, if and only if the query is not
excluded at all, or its records were purged, or there was no valid answer in the
cache. -/
theorem excluded_not_cached_iff (s : Server) (excludes : List String) (q : Question)
    (now : Int) (cluster : ClusterResult) (later : Int) :
    ((s.setExcludes excludes).isExcluded q.host = true →
        ¬ ((s.setExcludes excludes).resolveThruCache now q cluster later).IsCached s
          (s.setExcludes excludes) q) ↔
      (s.setExcludes excludes).isExcluded q.host = false ∨ s.Purges excludes q ∨
        ¬ s.HasAnswer now q := by
  have hfound : (s.setExcludes excludes).found now q =
      if s.Purges excludes q then none else s.found now q := by
    rw [Server.found, lookup_setExcludes]
    by_cases hp : s.Purges excludes q
    · simp [hp]
    · simp [hp, Server.found]
  have hanswers : (s.setExcludes excludes).HasAnswer now q ↔
      ¬ s.Purges excludes q ∧ s.HasAnswer now q := by
    rw [Server.HasAnswer, hfound]
    by_cases hp : s.Purges excludes q
    · simp [hp]
    · simp [hp, Server.HasAnswer]
  cases hex : (s.setExcludes excludes).isExcluded q.host with
  | false => simp
  | true =>
    have hsame : (s.setExcludes excludes).found now q = s.found now q ∨
        (s.setExcludes excludes).found now q = none := by
      rw [hfound]
      split
      · exact .inr rfl
      · exact .inl rfl
    rw [isCached_iff hex hsame, hanswers]
    simp only [true_imp_iff, Bool.true_eq_false, false_or]
    tauto

/-- A server connected to the namespace `default` that has resolved
`echo.default.`. -/
def connected : Server where
  excludes := []
  excludeSuffixes := [".com"]
  includeSuffixes := []
  search := ["tel2-search", "default"]
  routes := ["default"]
  clusterDomain := "cluster.local."
  namespaceDomain := "default."
  cache := (∅ : GoMap CacheKey CacheEntry).insert ⟨"echo.default.", typeA⟩
    ⟨0, [⟨"echo.default.", 1, 4, .a [10, 96, 0, 7]⟩], rcodeSuccess, true⟩

/-- Excluding `echo` excludes `echo.default` as well, but resolving it still
returns the cached address. -/
theorem excluded_name_answered_from_cache :
    (connected.setExcludes ["echo"]).isExcluded "echo.default" = true ∧
      ((connected.setExcludes ["echo"]).resolveThruCache 0 ⟨"echo.default", typeA, 1⟩
        (.failure rcodeNameError none) 0).IsCached connected (connected.setExcludes ["echo"])
          ⟨"echo.default", typeA, 1⟩ := by
  refine ⟨by decide +kernel, _, rfl, rfl⟩

end Telepresence.Dns
