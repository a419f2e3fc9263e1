import Mathlib.Data.List.Induction
import Telepresence.DnsServer

/-!
# What a cluster reply leaves in the DNS cache

A reply to a query for one address type holds the records of both types.  Those
of the queried type answer the query, the others are cached one by one, each
replacing what is there.

* `lookup_cacheRecords`: the loop over the other records keeps the last one of
  each name and type.
* `reply_complete_iff`: when the answer is complete and the cache serves exactly
  the records of the other address type.
-/

namespace Telepresence.Dns

open List Option GoMap

/-! ## Complete answers -/

/-- The records that a reply holds.  Records without an address only stand for
an address family that has none. -/
def held (rrs : List RR) : List RR := pruneEmptyNames (lowerTTL rrs)

/-- An answer that a query for the key can get from the cache at the given time.
An entry that is still being resolved will be answered with what the cluster
replies to that call. -/
def Server.MayServe (s : Server) (key : CacheKey) (now : Int) (answer : List RR) : Prop :=
  ∃ dv, s.cache.lookup key = some dv ∧ dv.expired now = false ∧
    if dv.done then answer = dv.answer
    else ∃ q rrs, q.qtype = key.qType ∧ answer = ownAnswer q (newEntry now) (lowerTTL rrs)

open Server

/-- The call has returned every record of the queried type and every CNAME
record that the reply holds, and from then on the cache serves for the other
address type exactly the records of that type that the reply holds. -/
def Outcome.Complete (o : Outcome) (q : Question) (rrs : List RR) (later : Int) : Prop :=
  ∃ s answer rCode err, o = .returns s answer rCode err ∧
    (∀ rr ∈ held rrs, rr.rrtype = q.qtype ∨ rr.rrtype = typeCNAME → rr ∈ answer) ∧
    ∀ now, later ≤ now → ∀ cached, s.MayServe ⟨q.name, otherType q.qtype⟩ now cached →
      ∀ rr, rr ∈ cached ↔ rr ∈ held rrs ∧ rr.rrtype = otherType q.qtype

/-- The last record of the other address type that the reply has for the name
itself, if the reply is taken for a success. -/
def Server.written (s : Server) (q : Question) (rrs : List RR) (rCode : Int) : Option RR :=
  if rCode = rcodeSuccess ∨ s.isNameCachedWithSuccess q = true then
    ((lowerTTL rrs).filter fun rr =>
      rr.name == q.name && rr.rrtype == otherType q.qtype).getLast?
  else none

/-- The entry of the other address type, unless it has expired. -/
def Server.live (s : Server) (q : Question) (now : Int) : Option CacheEntry :=
  (s.cache.lookup ⟨q.name, otherType q.qtype⟩).filter fun dv => !dv.expired now

/-- The condition: there is no CNAME record; no other call is resolving the other
address type; and either a record is written to the entry of that type, which
then is all that the reply holds of the type, or an entry that is there already
holds exactly that. -/
structure Server.Accumulates (s : Server) (q : Question) (rrs : List RR) (rCode later : Int) :
    Prop where
  noAlias : ∀ rr ∈ rrs, rr.rrtype ≠ typeCNAME
  settled : ∀ dv, s.live q later = some dv → dv.done = true
  single : ∀ last, s.written q rrs rCode = some last →
    (s.cache.lookup ⟨q.name, otherType q.qtype⟩).isNone ∨ (s.live q later).isSome →
    ∀ rr ∈ held rrs, rr.rrtype = otherType q.qtype → rr = last
  current : s.written q rrs rCode = none → ∀ dv, s.live q later = some dv →
    ∀ rr, rr ∈ dv.answer ↔ rr ∈ held rrs ∧ rr.rrtype = otherType q.qtype

/-! ## The loop over the other records -/

/-- Caching a second record under the same key leaves nothing of the first. -/
theorem recordEntry_recordEntry (rCode now : Int) (oldValue : Option CacheEntry) (rr rr' : RR) :
    recordEntry rCode now (some (recordEntry rCode now oldValue rr)) rr' =
      recordEntry rCode now oldValue rr' := by
  cases oldValue <;> rfl

/-- **The loop.**  Of the records with one key, the last one is cached. -/
theorem lookup_cacheRecords (rCode now : Int) (cache : GoMap CacheKey CacheEntry)
    (others : List RR) (key : CacheKey) :
    (others.foldl (cacheRecord rCode now) cache).lookup key =
      match (others.filter fun rr => rr.key = key).getLast? with
      | none => cache.lookup key
      | some rr => some (recordEntry rCode now (cache.lookup key) rr) := by
  induction others using reverseRecOn with
  | nil => rfl
  | append_singleton others rr ih =>
    rw [foldl_append, foldl_cons, foldl_nil, cacheRecord,
      lookup_insert_eq, filter_append]
    by_cases hkey : key = rr.key
    · have hfilter : [rr].filter (fun rr => rr.key = key) = [rr] := by simp [hkey]
      rw [if_pos hkey, hfilter, getLast?_concat, ← hkey, ih]
      cases (others.filter fun rr => rr.key = key).getLast? with
      | none => rfl
      | some before => rw [recordEntry_recordEntry]
    · have hfilter : [rr].filter (fun rr => rr.key = key) = [] := by
        simpa using fun h : rr.key = key => hkey h.symm
      rw [if_neg hkey, hfilter, append_nil, ih]

/-! ## One call -/

section Call

variable {s : Server} {q : Question} {rrs : List RR} {rCode now later : Int}

theorem mem_held {rr : RR} : rr ∈ held rrs ↔ rr ∈ lowerTTL rrs ∧ isEmptyName rr = false := by
  simp [held, pruneEmptyNames]

theorem otherType_ne (hq : q.qtype = typeA ∨ q.qtype = typeAAAA) :
    otherType q.qtype ≠ q.qtype := by
  rcases hq with h | h <;> rw [h] <;> decide

theorem qtype_ne_cname (hq : q.qtype = typeA ∨ q.qtype = typeAAAA) :
    q.qtype ≠ typeCNAME := by
  rcases hq with h | h <;> rw [h] <;> decide

theorem otherType_address (qtype : UInt16) :
    otherType qtype = typeA ∨ otherType qtype = typeAAAA := by
  unfold otherType
  split
  · exact Or.inl rfl
  · exact Or.inr rfl

/-- The answer of a query for an address holds the records of its type. -/
theorem mem_ownAnswer {rr : RR} :
    rr ∈ ownAnswer q (newEntry now) (lowerTTL rrs) ↔ rr ∈ held rrs ∧ rr.rrtype = q.qtype := by
  simp only [ownAnswer, answerTypes, newEntry, any_nil, Bool.false_eq_true, and_false,
    if_false, copyRRs, pruneEmptyNames, mem_filter, contains_cons, contains_nil,
    Bool.or_false, beq_iff_eq, held]
  tauto

/-- The entries of the other address type are not touched by the query's own. -/
theorem lookup_addEntry (hq : q.qtype = typeA ∨ q.qtype = typeAAAA) (name : String) :
    (s.addEntry now q).cache.lookup ⟨name, otherType q.qtype⟩ =
      s.cache.lookup ⟨name, otherType q.qtype⟩ := by
  rw [addEntry, lookup_insert_eq, if_neg]
  intro h
  exact otherType_ne hq (CacheKey.mk.inj h).2

theorem isNameCachedWithSuccess_addEntry (hq : q.qtype = typeA ∨ q.qtype = typeAAAA) :
    (s.addEntry now q).isNameCachedWithSuccess q = s.isNameCachedWithSuccess q := by
  simp only [isNameCachedWithSuccess, lookup_addEntry hq]
  rfl

/-- The response code after recovery. -/
def Server.finalCode (s : Server) (q : Question) (rCode : Int) : Int :=
  if rCode ≠ rcodeSuccess ∧ s.isNameCachedWithSuccess q = true then rcodeSuccess else rCode

theorem finalCode_eq_success_iff :
    s.finalCode q rCode = rcodeSuccess ↔
      rCode = rcodeSuccess ∨ s.isNameCachedWithSuccess q = true := by
  unfold finalCode
  split
  · rename_i h
    exact iff_of_true rfl (Or.inr h.2)
  · rename_i h
    constructor
    · exact Or.inl
    · intro hor
      rcases hor with hcode | hcached
      · exact hcode
      · exact Decidable.byContradiction fun hne => h ⟨hne, hcached⟩

/-- The entry of the other address type in the state `t` after a call. -/
def Server.Stored (s t : Server) (q : Question) (rrs : List RR) (rCode code later : Int) : Prop :=
  t.cache.lookup ⟨q.name, otherType q.qtype⟩ =
    match s.written q rrs rCode with
    | none => s.cache.lookup ⟨q.name, otherType q.qtype⟩
    | some rr => some (recordEntry code later
        (s.cache.lookup ⟨q.name, otherType q.qtype⟩) rr)

section

variable (hq : q.qtype = typeA ∨ q.qtype = typeAAAA)

include hq

/-- What the entry of the other address type is after the result is stored. -/
theorem stored_storeResult (err : Option LookupError) :
    s.Stored ((s.addEntry now q).storeResult q (newEntry now) (lowerTTL rrs)
      (s.finalCode q rCode) err later) q rrs rCode (s.finalCode q rCode) later := by
  have hne : (⟨q.name, otherType q.qtype⟩ : CacheKey) ≠ ⟨q.name, q.qtype⟩ := by
    intro h
    exact otherType_ne hq (CacheKey.mk.inj h).2
  have hothers : ((copyRRs (lowerTTL rrs) (answerTypes q (newEntry now))).2.filter fun rr =>
      rr.key = ⟨q.name, otherType q.qtype⟩) = (lowerTTL rrs).filter fun rr =>
        rr.name == q.name && rr.rrtype == otherType q.qtype := by
    simp only [copyRRs, answerTypes, newEntry, any_nil, Bool.false_eq_true, and_false,
      if_false, List.filter_filter]
    refine List.filter_congr fun rr _ => ?_
    by_cases hkey : rr.name = q.name ∧ rr.rrtype = otherType q.qtype
    · simp [RR.key, hkey.1, hkey.2, otherType_ne hq]
    · have hkey' : ¬ (rr.key = ⟨q.name, otherType q.qtype⟩) := by
        intro h
        exact hkey (CacheKey.mk.inj h)
      have hfalse : (rr.name == q.name && rr.rrtype == otherType q.qtype) = false := by
        simpa using hkey
      simp [hkey', hfalse]
  have hspread : ∀ dv : CacheEntry, (if s.finalCode q rCode = rcodeSuccess then
      (copyRRs (lowerTTL rrs) (answerTypes q (newEntry now))).2.foldl
        (cacheRecord (s.finalCode q rCode) later)
        ((s.addEntry now q).cache.insert ⟨q.name, q.qtype⟩ dv)
      else (s.addEntry now q).cache.insert ⟨q.name, q.qtype⟩ dv).lookup
        ⟨q.name, otherType q.qtype⟩ =
      match s.written q rrs rCode with
      | none => s.cache.lookup ⟨q.name, otherType q.qtype⟩
      | some rr => some (recordEntry (s.finalCode q rCode) later
          (s.cache.lookup ⟨q.name, otherType q.qtype⟩) rr) := by
    intro dv
    by_cases hsuccess : s.finalCode q rCode = rcodeSuccess
    · rw [if_pos hsuccess, lookup_cacheRecords, hothers, written,
        if_pos (finalCode_eq_success_iff.mp hsuccess), lookup_insert_eq, if_neg hne,
        lookup_addEntry hq]
    · rw [if_neg hsuccess, written,
        if_neg (fun h => hsuccess (finalCode_eq_success_iff.mpr h)), lookup_insert_eq,
        if_neg hne, lookup_addEntry hq]
  unfold Server.Stored storeResult
  dsimp only
  split
  · rw [lookup_erase_eq, if_neg hne]
    exact hspread _
  · rw [lookup_insert_eq, if_neg hne]
    exact hspread _

/-- What a call returns that asks the cluster. -/
theorem resolveThruCache_of_reply (hmiss : s.found now q = none) (hname : q.name ≠ "localhost.")
    (hlookup : s.shouldDoClusterLookup q = true) (rrs : List RR) (rCode later : Int) :
    ∃ t, s.resolveThruCache now q (.reply rrs rCode) later =
        .returns t (ownAnswer q (newEntry now) (lowerTTL rrs)) (s.finalCode q rCode) none ∧
      s.Stored t q rrs rCode (s.finalCode q rCode) later := by
  have hyes : (s.addEntry now q).shouldDoClusterLookup q = true := hlookup
  have hresolve : (s.addEntry now q).resolveInCluster q (.reply rrs rCode) =
      (lowerTTL rrs, rCode, none) := by
    simp [resolveInCluster, hname, hyes]
  have hrecover : (s.addEntry now q).recover q rCode none = (s.finalCode q rCode, none) := by
    rw [recover, isNameCachedWithSuccess_addEntry hq, finalCode]
    split <;> rfl
  refine ⟨(s.addEntry now q).storeResult q (newEntry now) (lowerTTL rrs) (s.finalCode q rCode)
    none later, ?_, stored_storeResult hq none⟩
  rw [resolveThruCache, hmiss]
  simp only [hresolve, any_none, Bool.false_eq_true, if_false, hrecover]

/-- Only the lack of CNAME records makes the answer complete. -/
theorem answer_complete_iff : (∀ rr ∈ held rrs, rr.rrtype = q.qtype ∨ rr.rrtype = typeCNAME →
        rr ∈ ownAnswer q (newEntry now) (lowerTTL rrs)) ↔
      ∀ rr ∈ rrs, rr.rrtype ≠ typeCNAME := by
  constructor
  · intro h rr hrr htype
    have hempty : isEmptyName rr = false := by
      cases hdata : rr.data with
      | a ip =>
        rw [RR.rrtype, hdata] at htype
        have hne : typeA ≠ typeCNAME := by decide
        exact absurd htype hne
      | aaaa ip =>
        rw [RR.rrtype, hdata] at htype
        have hne : typeAAAA ≠ typeCNAME := by decide
        exact absurd htype hne
      | cname target | other t text => rw [isEmptyName, hdata]
    have hheld : { rr with ttl := dnsTTL } ∈ held rrs :=
      mem_held.mpr ⟨mem_map_of_mem hrr, hempty⟩
    have hown := mem_ownAnswer.mp (h _ hheld (Or.inr htype))
    exact qtype_ne_cname hq (hown.2.symm.trans htype)
  · intro h rr hrr htype
    refine mem_ownAnswer.mpr ⟨hrr, ?_⟩
    rcases htype with htype | htype
    · exact htype
    · obtain ⟨rr', hrr', rfl⟩ := mem_map.mp (mem_held.mp hrr).1
      exact absurd htype (h rr' hrr')

end

/-- The record that is written is one of the other address type. -/
theorem written_spec {last : RR} (h : s.written q rrs rCode = some last) :
    last ∈ lowerTTL rrs ∧ last.rrtype = otherType q.qtype := by
  unfold written at h
  split at h
  · have hmem := mem_filter.mp (mem_of_getLast? h)
    have hboth : last.name = q.name ∧ last.rrtype = otherType q.qtype := by simpa using hmem.2
    exact ⟨hmem.1, hboth.2⟩
  · cases h

/-- An entry that is still being resolved can come to hold anything. -/
theorem exists_mayServe_ne {t : Server} {key : CacheKey} {dv : CacheEntry}
    (hkey : key.qType = typeA ∨ key.qType = typeAAAA) (hdv : t.cache.lookup key = some dv)
    (hlive : dv.expired now = false) (hopen : dv.done = false) :
    t.MayServe key now [] ∧ ∃ rr, t.MayServe key now [rr] := by
  have hserve : ∀ rrs' : List RR, t.MayServe key now
      (ownAnswer ⟨"", key.qType, 1⟩ (newEntry now) (lowerTTL rrs')) := by
    intro rrs'
    refine ⟨dv, hdv, hlive, ?_⟩
    rw [hopen, if_neg (by decide)]
    exact ⟨⟨"", key.qType, 1⟩, rrs', rfl, rfl⟩
  refine ⟨hserve [], ?_⟩
  rcases hkey with hkey | hkey
  · have h := hserve [⟨"", 1, 4, .a [10, 0, 0, 1]⟩]
    rw [hkey] at h
    exact ⟨_, h⟩
  · have h := hserve [⟨"", 1, 4, .aaaa [10, 0, 0, 1]⟩]
    rw [hkey] at h
    exact ⟨_, h⟩

theorem expired_mono {dv : CacheEntry} (hle : later ≤ now) (h : dv.expired now = false) :
    dv.expired later = false := by
  simp only [CacheEntry.expired, decide_eq_false_iff_not] at h ⊢
  omega

theorem live_eq_some_iff {dv : CacheEntry} :
    s.live q later = some dv ↔
      s.cache.lookup ⟨q.name, otherType q.qtype⟩ = some dv ∧ dv.expired later = false := by
  simp [live, filter_eq_some_iff]

theorem mem_recordEntry_answer {oldValue : Option CacheEntry} {rr last : RR} :
    rr ∈ (recordEntry rCode later oldValue last).answer ↔ isEmptyName rr = false ∧ rr = last := by
  have hanswer : (recordEntry rCode later oldValue last).answer =
      if isEmptyName last then [] else [last] := by cases oldValue <;> rfl
  rw [hanswer]
  cases hempty : isEmptyName last with
  | false =>
    simp only [Bool.false_eq_true, if_false, mem_singleton]
    constructor
    · intro h
      exact ⟨h ▸ hempty, h⟩
    · exact And.right
  | true =>
    simp only [if_true, not_mem_nil, false_iff, not_and]
    intro h heq
    rw [heq, hempty] at h
    cases h

/-- The entry that a record is written to is not new unless there was none. -/
theorem recordEntry_some (old : CacheEntry) (last : RR) :
    (recordEntry rCode later (some old) last).created = old.created ∧
      (recordEntry rCode later (some old) last).done = old.done := ⟨rfl, rfl⟩

end Call

section Cached

variable {s t : Server} {q : Question} {rrs : List RR} {rCode code later : Int}

/-- The cache serves exactly the records of the other address type. -/
def Server.ServesExactly (t : Server) (q : Question) (rrs : List RR) (later : Int) : Prop :=
  ∀ now, later ≤ now → ∀ cached, t.MayServe ⟨q.name, otherType q.qtype⟩ now cached →
    ∀ rr, rr ∈ cached ↔ rr ∈ held rrs ∧ rr.rrtype = otherType q.qtype

section

variable (h : s.Stored t q rrs rCode code later)

include h

/-- An entry that has not expired when the reply is stored is neither newer nor
more resolved afterwards. -/
theorem Server.Stored.of_live {dv : CacheEntry} (hdv : s.live q later = some dv) :
    ∃ dv', t.cache.lookup ⟨q.name, otherType q.qtype⟩ = some dv' ∧
      dv'.expired later = false ∧ dv'.done = dv.done := by
  obtain ⟨hlookup, hlive⟩ := live_eq_some_iff.mp hdv
  rw [Server.Stored, hlookup] at h
  cases hw : s.written q rrs rCode with
  | none =>
    rw [hw] at h
    exact ⟨dv, h, hlive, rfl⟩
  | some last =>
    rw [hw] at h
    exact ⟨_, h, hlive, rfl⟩

theorem settled_of_servesExactly (hserves : t.ServesExactly q rrs later) :
    ∀ dv, s.live q later = some dv → dv.done = true := by
  intro dv hdv
  refine Decidable.byContradiction fun hopen => ?_
  obtain ⟨dv', hdv', hlive, hdone⟩ := h.of_live hdv
  have hopen' : dv'.done = false := by rw [hdone]; simpa using hopen
  obtain ⟨hnone, rr, hsome⟩ :=
    exists_mayServe_ne (otherType_address q.qtype) hdv' hlive hopen'
  have hin := (hserves later (Int.le_refl later) _ hsome rr).mp (mem_singleton_self rr)
  have hout := (hserves later (Int.le_refl later) _ hnone rr).mpr hin
  cases hout

theorem single_of_servesExactly (hserves : t.ServesExactly q rrs later) {last : RR}
    (hw : s.written q rrs rCode = some last)
    (hthere : (s.cache.lookup ⟨q.name, otherType q.qtype⟩).isNone ∨ (s.live q later).isSome) :
    ∀ rr ∈ held rrs, rr.rrtype = otherType q.qtype → rr = last := by
  intro rr hrr htype
  have hstored := h
  rw [Server.Stored, hw] at hstored
  have hmay : t.MayServe ⟨q.name, otherType q.qtype⟩ later (recordEntry code later
      (s.cache.lookup ⟨q.name, otherType q.qtype⟩) last).answer := by
    rcases hthere with hnone | hlive
    · have hlookup : s.cache.lookup ⟨q.name, otherType q.qtype⟩ = none := by simpa using hnone
      rw [hlookup] at hstored ⊢
      exact ⟨_, hstored, by simp [recordEntry, CacheEntry.expired, cacheTTL], rfl⟩
    · obtain ⟨dv, hdv⟩ := isSome_iff_exists.mp hlive
      have hdone := settled_of_servesExactly h hserves dv hdv
      obtain ⟨hlookup, hexp⟩ := live_eq_some_iff.mp hdv
      rw [hlookup] at hstored ⊢
      refine ⟨_, hstored, hexp, ?_⟩
      rw [(recordEntry_some dv last).2, hdone]
      rfl
  exact (mem_recordEntry_answer.mp ((hserves later (Int.le_refl later) _ hmay rr).mpr ⟨hrr, htype⟩)).2

theorem current_of_servesExactly
    (hserves : t.ServesExactly q rrs later) (hw : s.written q rrs rCode = none)
    {dv : CacheEntry} (hdv : s.live q later = some dv) :
    ∀ rr, rr ∈ dv.answer ↔ rr ∈ held rrs ∧ rr.rrtype = otherType q.qtype := by
  have hdone := settled_of_servesExactly h hserves dv hdv
  obtain ⟨hlookup, hexp⟩ := live_eq_some_iff.mp hdv
  rw [Server.Stored, hw, hlookup] at h
  refine hserves later (Int.le_refl later) _ ⟨dv, h, hexp, ?_⟩
  rw [hdone]
  rfl

theorem servesExactly_of_accumulates
    (hacc : s.Accumulates q rrs rCode later) : t.ServesExactly q rrs later := by
  intro now hle cached hmay rr
  obtain ⟨dv', hdv', hexp', hcached⟩ := hmay
  have hexp := expired_mono hle hexp'
  rw [Server.Stored] at h
  cases hw : s.written q rrs rCode with
  | none =>
    rw [hw, hdv'] at h
    have hlive := live_eq_some_iff.mpr ⟨h.symm, hexp⟩
    rw [hacc.settled dv' hlive, if_pos rfl] at hcached
    rw [hcached]
    exact hacc.current hw dv' hlive rr
  | some last =>
    rw [hw, hdv', some.injEq] at h
    -- The entry is new, or it is an old one that has not expired.
    have hthere : (s.cache.lookup ⟨q.name, otherType q.qtype⟩).isNone ∨
        (s.live q later).isSome := by
      cases hlookup : s.cache.lookup ⟨q.name, otherType q.qtype⟩ with
      | none => exact Or.inl rfl
      | some old =>
        rw [hlookup] at h
        have hold : old.expired later = false := by
          rw [h] at hexp
          exact hexp
        exact Or.inr (isSome_iff_exists.mpr
          ⟨old, live_eq_some_iff.mpr ⟨hlookup, hold⟩⟩)
    have hdone : dv'.done = true := by
      rw [h]
      cases hlookup : s.cache.lookup ⟨q.name, otherType q.qtype⟩ with
      | none => rfl
      | some old =>
        rw [hlookup] at h
        have hold : old.expired later = false := by
          rw [h] at hexp
          exact hexp
        exact hacc.settled old (live_eq_some_iff.mpr ⟨hlookup, hold⟩)
    rw [hdone, if_pos rfl] at hcached
    rw [hcached, h, mem_recordEntry_answer]
    constructor
    · intro hrr
      obtain ⟨hmem, htype⟩ := written_spec hw
      rw [hrr.2]
      exact ⟨mem_held.mpr ⟨hmem, hrr.2 ▸ hrr.1⟩, htype⟩
    · intro hrr
      exact ⟨(mem_held.mp hrr.1).2, hacc.single last hw hthere rr hrr.1 hrr.2⟩

end

end Cached

/-- **Complete replies.**  A call that gets a reply from the cluster returns the
records of the queried type and the CNAME records, and leaves the cache with
exactly the records of the other address type, if and only if the reply and the
entry of the other type meet the condition. -/
theorem reply_complete_iff (s : Server) (q : Question) (rrs : List RR) (rCode now later : Int)
    (hq : q.qtype = typeA ∨ q.qtype = typeAAAA) (hmiss : s.found now q = none)
    (hname : q.name ≠ "localhost.") (hlookup : s.shouldDoClusterLookup q = true) :
    (s.resolveThruCache now q (.reply rrs rCode) later).Complete q rrs later ↔
      s.Accumulates q rrs rCode later := by
  obtain ⟨t, hcall, hstored⟩ :=
    resolveThruCache_of_reply hq hmiss hname hlookup rrs rCode later
  constructor
  · intro h
    obtain ⟨t', answer, code, err, hcall', hanswer, hserves⟩ := h
    rw [hcall] at hcall'
    cases hcall'
    exact
      { noAlias := (answer_complete_iff hq).mp hanswer
        settled := settled_of_servesExactly hstored hserves
        single := fun last hw hthere => single_of_servesExactly hstored hserves hw hthere
        current := fun hw dv hdv => current_of_servesExactly hstored hserves hw hdv }
  · intro h
    exact ⟨t, _, _, _, hcall, (answer_complete_iff hq).mpr h.noAlias,
      servesExactly_of_accumulates hstored h⟩

/-- A server with an empty cache. -/
def fresh : Server := { connected with cache := ∅ }

/-- The query for the IPv4 address of `echo.default.`. -/
def echoQuery : Question := ⟨"echo.default", typeA, 1⟩

/-- The IPv4 address of `echo.default.`. -/
def echoA : RR := ⟨"echo.default.", 1, 30, .a [10, 96, 0, 7]⟩

/-- An IPv6 address of `echo.default.`. -/
def echoAAAA (n : UInt8) : RR :=
  ⟨"echo.default.", 1, 30, .aaaa [0xfd, 0, 0, 0, 0, 0, 0, 0, 0, 0, 0, 0, 0, 0, 0, n]⟩

/-- A reply with one address of each family is complete. -/
theorem reply_complete_single :
    (fresh.resolveThruCache 0 echoQuery (.reply [echoA, echoAAAA 7] rcodeSuccess) 1).Complete
      echoQuery [echoA, echoAAAA 7] 1 := by
  refine (reply_complete_iff fresh _ _ _ _ _ (Or.inl rfl) rfl (by decide) (by decide +kernel)).mpr
    ⟨by decide, ?_, ?_, ?_⟩
  · intro dv hdv
    cases hdv
  · intro last hlast _
    have hwritten : fresh.written echoQuery [echoA, echoAAAA 7] rcodeSuccess =
        some { echoAAAA 7 with ttl := 4 } := by decide +kernel
    rw [hwritten] at hlast
    cases hlast
    decide
  · intro _ dv hdv
    cases hdv

/-- Of two addresses of the other family in a reply, only the second one is
served from the cache. -/
theorem cached_address_lost :
    ¬ (fresh.resolveThruCache 0 echoQuery
      (.reply [echoA, echoAAAA 7, echoAAAA 8] rcodeSuccess) 1).Complete
        echoQuery [echoA, echoAAAA 7, echoAAAA 8] 1 := by
  intro h
  obtain ⟨t, answer, rCode, err, hcall, _, hserves⟩ := h
  have hcached : t.MayServe ⟨"echo.default.", typeAAAA⟩ 1 [{ echoAAAA 8 with ttl := 4 }] := by
    cases hcall
    exact ⟨_, rfl, by decide, rfl⟩
  have hlost := (hserves 1 (by decide) _ hcached { echoAAAA 7 with ttl := 4 }).mpr (by decide)
  revert hlost
  decide

end Telepresence.Dns
