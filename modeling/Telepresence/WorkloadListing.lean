import Mathlib.Data.List.Sort
import Telepresence.ClientSession

/-!
# The list of workloads

`session.WorkloadInfoSnapshot` lists the workloads of the requested namespaces
together with the intercepts, ingests and agents that belong to them.  The
workloads are kept by namespace, kind and name, but the maps that the loop joins
them with have the name of the workload as their only key.

* `and_filterMatch_ne_zero_iff`: which workloads a filter selects.
* `mem_workloadInfoSnapshot_iff`: what is listed.
* `unmixed_iff`: the list keeps the namespaces apart exactly if nothing of a
  listed workload's name belongs to another namespace.
-/

namespace Telepresence.TrafficMgr

open List GoMap

/-! ## Filters -/

/-- `rpc.ListRequest_Filter`. -/
abbrev Filter := BitVec 32

namespace Filter

/-- `ListRequest_INTERCEPTS`. -/
def intercepts : Filter := 1
/-- `ListRequest_REPLACEMENTS`. -/
def replacements : Filter := 2
/-- `ListRequest_INGESTS`. -/
def ingests : Filter := 4
/-- `ListRequest_WIRETAPS`. -/
def wiretaps : Filter := 8
/-- `ListRequest_INSTALLED_AGENTS`. -/
def installedAgents : Filter := 16
/-- `ListRequest_EVERYTHING`. -/
def everything : Filter := 31

end Filter

/-- The flag of the kind of engagement that an intercept is. -/
def InterceptInfo.flag (ii : InterceptInfo) : Filter :=
  if ii.spec.noDefaultPort then .replacements
  else if ii.spec.wiretap then .wiretaps
  else .intercepts

/-- `include || filter == 0`. -/
def InterceptInfo.passes (filter : Filter) (ii : InterceptInfo) : Bool :=
  filter &&& ii.flag != 0#32 || filter == 0#32

/-! ## The code -/

/-- The loop over the intercepts of a workload: `filterMatch` and the infos that
are included. -/
def matchIntercepts (filter : Filter) (iis : List InterceptInfo)
    (acc : Filter × List InterceptInfo) : Filter × List InterceptInfo :=
  iis.foldl (fun acc ii =>
    (acc.1 ||| ii.flag, if ii.passes filter then acc.2 ++ [ii] else acc.2)) acc

/-- `filterMatch` before the loop over the intercepts. -/
def filterMatchStart : Filter :=
  .everything &&& ~~~ (.replacements ||| .intercepts ||| .wiretaps)

/-- `filterMatch` at the end. -/
def filterMatch (iis : List InterceptInfo) (ingested installed : Bool) : Filter :=
  let m := iis.foldl (fun m ii => m ||| ii.flag) filterMatchStart
  let m := if ingested then m else m &&& ~~~ .ingests
  if installed then m else m &&& ~~~ .installedAgents

variable {σ : Type}

/-- `rpc.WorkloadInfo`. -/
structure ListedWorkload (σ : Type) where
  name : String
  namespace_ : String
  notInterceptableReason : String
  interceptInfo : List InterceptInfo
  ingestInfo : List IngestInfo
  workloadResourceType : String
  uid : String
  agentVersion : String
  desiredReplicas : Int
  readyReplicas : Int
  services : List σ

/-- A workload that `eachWorkload` goes through. -/
structure Entry (σ : Type) where
  kind : Kind
  name : String
  namespace_ : String
  info : WorkloadInfo σ

/-- The maps that `WorkloadInfoSnapshot` prepares. -/
structure Tables where
  iMap : GoMap String (List InterceptInfo)
  gMap : GoMap String (List IngestInfo)
  sMap : GoMap String String

/-- The function that `getInfosForWorkloads` gives to `eachWorkload`. -/
def listWorkload (t : Tables) (filter : Filter) (e : Entry σ) : Option (ListedWorkload σ) :=
  let iis := (t.iMap.lookup e.name).getD []
  let matched := filterMatch iis (t.gMap.lookup e.name).isSome (t.sMap.lookup e.name).isSome
  if filter != 0#32 && filter &&& matched == 0#32 then none
  else some
    { name := e.name
      namespace_ := e.namespace_
      notInterceptableReason := if e.info.state = .available then "" else e.info.state.toString
      interceptInfo := (matchIntercepts filter iis (filterMatchStart, [])).2
      ingestInfo := (t.gMap.lookup e.name).getD []
      workloadResourceType := e.kind.toString
      uid := e.info.uid
      agentVersion := (t.sMap.lookup e.name).getD ""
      desiredReplicas := e.info.desiredReplicas
      readyReplicas := e.info.readyReplicas
      services := e.info.services }

/-- The key of a workload in `wiMap`. -/
def Entry.wiKey (e : Entry σ) : String :=
  e.kind.toString ++ ":" ++ e.name ++ "." ++ e.namespace_

/-- What the list depends on.  `workloads` is what is known after `ensureWatchers`
has waited for the namespaces that were not watched before.  The name of a
namespace has no dot. -/
structure Session (σ : Type) where
  namespace_ : String
  currentMappedNamespaces : GoMap String Bool := ∅
  currentIntercepts : GoMap String InterceptInfo := ∅
  currentIngests : Ingests := ∅
  currentAgents : List AgentInfo := []
  workloads : GoMap String (GoMap WorkloadInfoKey (WorkloadInfo σ)) := ∅
  labels : ∀ ns ∈ workloads.keys, '.' ∉ ns.toList

/-- The orders in which Go goes through the maps. -/
structure Orders (σ : Type) where
  ingests : GoMap.Order IngestKey Ingest
  workloads : GoMap.Order WorkloadInfoKey (WorkloadInfo σ)
  infos : GoMap.Order String (ListedWorkload σ)

namespace Session

variable (s : Session σ)

/-- `ActualNamespace`. -/
def actualNamespace (ns : String) : String :=
  let ns := if ns = "" then s.namespace_ else ns
  if (s.currentMappedNamespaces.lookup ns).getD false then ns else ""

/-- `getCurrentIntercepts`: sorted by id. -/
def getCurrentIntercepts : List InterceptInfo :=
  (s.currentIntercepts.keys.insertionSort (· ≤ ·)).filterMap s.currentIntercepts.lookup

/-- `eachWorkload`. -/
def eachWorkload (o : Orders σ) (namespaces : List String) : List (Entry σ) :=
  namespaces.flatMap fun ns =>
    match s.workloads.lookup ns with
    | none => []
    | some workloads => (o.workloads.visit workloads).map fun e => ⟨e.1.kind, e.1.name, ns, e.2⟩

/-- `getInfosForWorkloads`. -/
def getInfosForWorkloads (o : Orders σ) (namespaces : List String) (t : Tables)
    (filter : Filter) : List (ListedWorkload σ) :=
  let wiMap := insertPairs
    ((s.eachWorkload o namespaces).filterMap fun e =>
      (listWorkload t filter e).map fun wl => (e.wiKey, wl)) ∅
  ((o.infos.visit wiMap).map fun e => e.2).insertionSort fun a b => a.name ≤ b.name

/-- The namespaces that are listed. -/
def requested (namespaces : List String) : List String :=
  (namespaces.map s.actualNamespace).filter (· ≠ "")

/-- The three maps. -/
def tables (o : Orders σ) (nss : List String) : Tables where
  iMap := grouped (fun ii => ii.spec.agent) id
    (s.getCurrentIntercepts.filter fun ii => ii.spec.namespace_ ∈ nss)
  gMap := grouped (fun e => e.1.workload) (fun e => e.2.response)
    (o.ingests.visit s.currentIngests.byKey)
  sMap :=
    if nss = [s.namespace_] then
      insertPairs (s.currentAgents.map fun a => (a.name, a.version)) ∅
    else ∅

/-- `WorkloadInfoSnapshot`. -/
def workloadInfoSnapshot (o : Orders σ) (namespaces : List String) (filter : Filter) :
    List (ListedWorkload σ) :=
  let nss := s.requested namespaces
  if nss = [] then []
  else s.getInfosForWorkloads o nss (s.tables o nss) filter

end Session

/-! ## What a filter selects -/

theorem matchIntercepts_eq (filter : Filter) (iis : List InterceptInfo)
    (acc : Filter × List InterceptInfo) :
    matchIntercepts filter iis acc =
      (iis.foldl (fun m ii => m ||| ii.flag) acc.1, acc.2 ++ iis.filter (·.passes filter)) := by
  induction iis generalizing acc with
  | nil => simp [matchIntercepts]
  | cons ii iis ih =>
    have hrec : matchIntercepts filter (ii :: iis) acc =
        matchIntercepts filter iis
          (acc.1 ||| ii.flag, if ii.passes filter then acc.2 ++ [ii] else acc.2) := rfl
    rw [hrec, ih]
    by_cases h : ii.passes filter = true <;> simp [h]

theorem and_or_ne_zero_iff (f a b : Filter) :
    f &&& (a ||| b) ≠ 0#32 ↔ f &&& a ≠ 0#32 ∨ f &&& b ≠ 0#32 := by
  rw [BitVec.and_or_distrib_left, ne_eq, BitVec.or_eq_zero_iff]
  tauto

/-- A filter and the flags that a loop has collected. -/
theorem and_foldl_flag_ne_zero_iff (f m : Filter) (iis : List InterceptInfo) :
    f &&& iis.foldl (fun m ii => m ||| ii.flag) m ≠ 0#32 ↔
      f &&& m ≠ 0#32 ∨ ∃ ii ∈ iis, f &&& ii.flag ≠ 0#32 := by
  induction iis generalizing m with
  | nil => simp
  | cons ii iis ih =>
    rw [foldl_cons, ih, and_or_ne_zero_iff, exists_mem_cons_iff, or_assoc]

/-- The flags of intercepts are none of those that are taken away. -/
theorem flag_and_mask {mask : Filter}
    (hmask : mask &&& (.replacements ||| .intercepts ||| .wiretaps) =
      .replacements ||| .intercepts ||| .wiretaps) (ii : InterceptInfo) :
    mask &&& ii.flag = ii.flag := by
  have hflag : ii.flag = (.replacements ||| .intercepts ||| .wiretaps) &&& ii.flag := by
    unfold InterceptInfo.flag
    split_ifs <;> decide
  rw [hflag, ← BitVec.and_assoc, hmask]

/-- What remains of the flags when some are taken away. -/
theorem and_masked_ne_zero_iff (f : Filter) {mask : Filter}
    (hmask : mask &&& (.replacements ||| .intercepts ||| .wiretaps) =
      .replacements ||| .intercepts ||| .wiretaps) (iis : List InterceptInfo) :
    f &&& (iis.foldl (fun m ii => m ||| ii.flag) filterMatchStart &&& mask) ≠ 0#32 ↔
      f &&& (filterMatchStart &&& mask) ≠ 0#32 ∨ ∃ ii ∈ iis, f &&& ii.flag ≠ 0#32 := by
  rw [BitVec.and_comm _ mask, BitVec.and_comm filterMatchStart mask, ← BitVec.and_assoc,
    ← BitVec.and_assoc, and_foldl_flag_ne_zero_iff]
  simp only [BitVec.and_assoc, flag_and_mask hmask]

/-- **Which workloads a filter selects**: those with an intercept of a kind that
it asks for, those with an ingest if it asks for ingests, and those with an
agent if it asks for agents. -/
theorem and_filterMatch_ne_zero_iff (f : Filter) (iis : List InterceptInfo)
    (ingested installed : Bool) :
    f &&& filterMatch iis ingested installed ≠ 0#32 ↔
      (∃ ii ∈ iis, f &&& ii.flag ≠ 0#32) ∨ (ingested = true ∧ f &&& .ingests ≠ 0#32) ∨
        (installed = true ∧ f &&& .installedAgents ≠ 0#32) := by
  have hstart : filterMatchStart = .ingests ||| .installedAgents := by decide
  cases ingested <;> cases installed <;> simp only [filterMatch, Bool.false_eq_true, if_false, if_true]
  case false.false =>
    rw [BitVec.and_assoc, and_masked_ne_zero_iff f (by decide)]
    have hnone : filterMatchStart &&& (~~~Filter.ingests &&& ~~~Filter.installedAgents) = 0#32 := by
      decide
    simp [hnone]
  case false.true =>
    rw [and_masked_ne_zero_iff f (by decide)]
    have hone : filterMatchStart &&& ~~~Filter.ingests = .installedAgents := by decide
    simp [hone, or_comm]
  case true.false =>
    rw [and_masked_ne_zero_iff f (by decide)]
    have hone : filterMatchStart &&& ~~~Filter.installedAgents = .ingests := by decide
    simp [hone, or_comm]
  case true.true =>
    rw [and_foldl_flag_ne_zero_iff, hstart, and_or_ne_zero_iff]
    simp only [true_and]
    exact or_comm

/-! ## Keys of workloads -/

/-- The last dot divides a text in one way only. -/
theorem append_dot_inj {a b c d : List Char} (hb : '.' ∉ b) (hd : '.' ∉ d)
    (h : a ++ '.' :: b = c ++ '.' :: d) : a = c ∧ b = d := by
  have hrev := congrArg reverse h
  simp only [reverse_append, reverse_cons, append_assoc,
    singleton_append] at hrev
  have hcut := congrArg (takeWhile (· != '.')) hrev
  have htake : ∀ x y : List Char, '.' ∉ x →
      (x.reverse ++ '.' :: y).takeWhile (· != '.') = x.reverse := by
    intro x y hx
    rw [takeWhile_append_of_pos]
    · simp
    · intro ch hch
      simp only [bne_iff_ne]
      rintro rfl
      exact hx (mem_reverse.mp hch)
  rw [htake b _ hb, htake d _ hd] at hcut
  have hbd : b = d := reverse_injective hcut
  subst hbd
  exact ⟨append_cancel_right h, rfl⟩

/-- The text of a kind and the text after it are known from the whole. -/
theorem kind_append_inj {k k' : Kind} {a b : List Char}
    (h : k.toString.toList ++ ':' :: a = k'.toString.toList ++ ':' :: b) : k = k' ∧ a = b := by
  cases k <;> cases k' <;> simp [Kind.toString] at h ⊢ <;> exact h

/-- Workloads with the same key in `wiMap` are the same. -/
theorem wiKey_inj {e e' : Entry σ} (hns : '.' ∉ e.namespace_.toList)
    (hns' : '.' ∉ e'.namespace_.toList) (h : e.wiKey = e'.wiKey) :
    e.kind = e'.kind ∧ e.name = e'.name ∧ e.namespace_ = e'.namespace_ := by
  have hchars := congrArg String.toList h
  simp only [Entry.wiKey, String.toList_append, append_assoc] at hchars
  obtain ⟨hkind, hrest⟩ := kind_append_inj (by simpa using hchars)
  obtain ⟨hname, hlast⟩ := append_dot_inj hns hns' (by simpa using hrest)
  exact ⟨hkind, String.toList_injective hname, String.toList_injective hlast⟩

/-! ## What is listed -/

namespace Session

variable {s : Session σ} {o : Orders σ}

variable {nss : List String} {e : Entry σ}

theorem mem_eachWorkload :
    e ∈ s.eachWorkload o nss ↔ e.namespace_ ∈ nss ∧
      ∃ wls, s.workloads.lookup e.namespace_ = some wls ∧
        wls.lookup ⟨e.kind, e.name⟩ = some e.info := by
  rw [eachWorkload, mem_flatMap]
  constructor
  · intro ⟨ns, hns, he⟩
    cases hwls : s.workloads.lookup ns with
    | none => simp [hwls] at he
    | some wls =>
      simp only [hwls, mem_map] at he
      obtain ⟨⟨key, info⟩, hmem, rfl⟩ := he
      exact ⟨hns, wls, hwls, o.workloads.mem_visit.mp hmem⟩
  · intro ⟨hns, wls, hwls, hinfo⟩
    refine ⟨e.namespace_, hns, ?_⟩
    simp only [hwls, mem_map]
    exact ⟨⟨⟨e.kind, e.name⟩, e.info⟩, o.workloads.mem_visit.mpr hinfo, rfl⟩

/-- Two of the workloads with the same key are the same. -/
theorem eq_of_wiKey {e' : Entry σ} (he : e ∈ s.eachWorkload o nss) (he' : e' ∈ s.eachWorkload o nss)
    (h : e.wiKey = e'.wiKey) : e = e' := by
  obtain ⟨_, wls, hwls, hinfo⟩ := mem_eachWorkload.mp he
  obtain ⟨_, wls', hwls', hinfo'⟩ := mem_eachWorkload.mp he'
  obtain ⟨hkind, hname, hns⟩ := wiKey_inj (s.labels _ (mem_keys_of_lookup hwls))
    (s.labels _ (mem_keys_of_lookup hwls')) h
  rw [hns, hwls'] at hwls
  cases hwls
  rw [hkind, hname, hinfo'] at hinfo
  cases e
  cases e'
  simp_all

variable {filter : Filter} {wl : ListedWorkload σ}

theorem mem_getInfosForWorkloads_iff {t : Tables} :
    wl ∈ s.getInfosForWorkloads o nss t filter ↔
      ∃ e ∈ s.eachWorkload o nss, listWorkload t filter e = some wl := by
  simp only [getInfosForWorkloads, (perm_insertionSort _ _).mem_iff, mem_map,
    Sigma.exists, o.infos.mem_visit]
  have hpairs : ∀ key wl, (key, wl) ∈ (s.eachWorkload o nss).filterMap (fun e =>
      (listWorkload t filter e).map fun wl => (e.wiKey, wl)) ↔
        ∃ e ∈ s.eachWorkload o nss, listWorkload t filter e = some wl ∧ e.wiKey = key := by
    intro key wl
    simp [mem_filterMap, Option.map_eq_some_iff]
  have hiff : ∀ key wl, (insertPairs ((s.eachWorkload o nss).filterMap fun e =>
      (listWorkload t filter e).map fun wl => (e.wiKey, wl)) ∅).lookup key = some wl ↔
        ∃ e ∈ s.eachWorkload o nss, listWorkload t filter e = some wl ∧ e.wiKey = key := by
    intro key wl
    rw [lookup_insertPairs_iff ?_, hpairs]
    intro w w' hw hw'
    obtain ⟨e, he, hlist, hkey⟩ := (hpairs _ _).mp hw
    obtain ⟨e', he', hlist', hkey'⟩ := (hpairs _ _).mp hw'
    rw [eq_of_wiKey he' he (hkey'.trans hkey.symm), hlist] at hlist'
    exact (Option.some.inj hlist').symm
  simp only [hiff]
  grind

/-- **What is listed**: each workload of the requested namespaces that the filter
selects. -/
theorem mem_workloadInfoSnapshot_iff {namespaces : List String} :
    wl ∈ s.workloadInfoSnapshot o namespaces filter ↔
      ∃ e ∈ s.eachWorkload o (s.requested namespaces),
        listWorkload (s.tables o (s.requested namespaces)) filter e = some wl := by
  rw [workloadInfoSnapshot]
  split
  · rename_i hnone
    simp [hnone, eachWorkload]
  · exact mem_getInfosForWorkloads_iff

/-! ## What is listed with a workload -/

/-- The intercepts that `iMap` has for a name. -/
def interceptsOf (s : Session σ) (nss : List String) (name : String) : List InterceptInfo :=
  (s.getCurrentIntercepts.filter fun ii => ii.spec.namespace_ ∈ nss).filter
    fun ii => ii.spec.agent = name

theorem mem_interceptsOf {name : String} {ii : InterceptInfo} :
    ii ∈ s.interceptsOf nss name ↔
      ii ∈ s.getCurrentIntercepts ∧ ii.spec.namespace_ ∈ nss ∧ ii.spec.agent = name := by
  rw [interceptsOf, mem_filter, mem_filter]
  simp [and_assoc]

/-- The filter selects a workload with this name. -/
def Selected (s : Session σ) (nss : List String) (filter : Filter) (name : String) : Prop :=
  filter = 0#32 ∨ (∃ ii ∈ s.interceptsOf nss name, filter &&& ii.flag ≠ 0#32) ∨
    ((∃ ik ∈ s.currentIngests.byKey.keys, ik.workload = name) ∧ filter &&& .ingests ≠ 0#32) ∨
    ((nss = [s.namespace_] ∧ ∃ a ∈ s.currentAgents, a.name = name) ∧
      filter &&& .installedAgents ≠ 0#32)

theorem getD_lookup_iMap (nss : List String) (name : String) :
    ((s.tables o nss).iMap.lookup name).getD [] = s.interceptsOf nss name := by
  rw [tables, getD_lookup_grouped, map_id, interceptsOf]

theorem isSome_lookup_gMap (nss : List String) (name : String) :
    ((s.tables o nss).gMap.lookup name).isSome = true ↔
      ∃ ik ∈ s.currentIngests.byKey.keys, ik.workload = name := by
  rw [tables, isSome_lookup_grouped]
  constructor
  · intro ⟨e, he, hname⟩
    exact ⟨e.1, mem_keys_of_lookup (o.ingests.mem_visit.mp he), hname⟩
  · intro ⟨ik, hik, hname⟩
    obtain ⟨ig, hig⟩ := Option.isSome_iff_exists.mp (mem_keys_iff_isSome.mp hik)
    exact ⟨⟨ik, ig⟩, o.ingests.mem_visit.mpr hig, hname⟩

/-- The ingests of a name, with the workload and namespace of their keys. -/
theorem mem_gMap_iff {name : String} {gi : IngestInfo} :
    gi ∈ ((s.tables o nss).gMap.lookup name).getD [] ↔
      ∃ ik ig, s.currentIngests.byKey.lookup ik = some ig ∧ ik.workload = name ∧
        gi = ig.response := by
  rw [tables, getD_lookup_grouped, mem_map]
  constructor
  · intro ⟨⟨ik, ig⟩, he, hgi⟩
    simp only [mem_filter, decide_eq_true_eq, o.ingests.mem_visit] at he
    exact ⟨ik, ig, he.1, he.2, hgi.symm⟩
  · intro ⟨ik, ig, hig, hname, hgi⟩
    refine ⟨⟨ik, ig⟩, ?_, hgi.symm⟩
    simp only [mem_filter, decide_eq_true_eq, o.ingests.mem_visit]
    exact ⟨hig, hname⟩

theorem isSome_lookup_sMap (nss : List String) (name : String) :
    ((s.tables o nss).sMap.lookup name).isSome = true ↔
      nss = [s.namespace_] ∧ ∃ a ∈ s.currentAgents, a.name = name := by
  simp only [tables]
  split
  case isFalse hns => simp [hns]
  case isTrue hns =>
    simp [hns, isSome_lookup_insertPairs]

theorem isSome_listWorkload_iff :
    (∃ wl, listWorkload (s.tables o nss) filter e = some wl) ↔ s.Selected nss filter e.name := by
  rw [Selected, ← isSome_lookup_gMap (o := o) nss, ← isSome_lookup_sMap (o := o) nss,
    ← getD_lookup_iMap (o := o), ← and_filterMatch_ne_zero_iff]
  simp only [listWorkload]
  split
  case isTrue h => simp_all
  case isFalse h =>
    simp only [Bool.and_eq_true, bne_iff_ne, beq_iff_eq, not_and] at h
    simpa using or_iff_not_imp_left.mpr h

/-! ## The result -/

/-- A listed workload has the intercepts and the ingests of its own name and
namespace, and all of those intercepts that pass the filter. -/
structure Unmixed (s : Session σ) (filter : Filter) (wl : ListedWorkload σ) : Prop where
  intercepts : ∀ ii ∈ wl.interceptInfo, ii.spec.agent = wl.name ∧ ii.spec.namespace_ = wl.namespace_
  ingests : ∀ gi ∈ wl.ingestInfo, gi.workload = wl.name ∧ gi.namespace_ = wl.namespace_
  complete : ∀ ii ∈ s.getCurrentIntercepts, ii.spec.agent = wl.name →
    ii.spec.namespace_ = wl.namespace_ → ii.passes filter → ii ∈ wl.interceptInfo

/-- No other namespace has something of this name: no intercept that the list
includes, and no ingest. -/
structure Alone (s : Session σ) (nss : List String) (filter : Filter) (name ns : String) :
    Prop where
  intercepts : ∀ ii ∈ s.getCurrentIntercepts, ii.spec.namespace_ ∈ nss → ii.spec.agent = name →
    ii.passes filter → ii.spec.namespace_ = ns
  ingests : ∀ ik ∈ s.currentIngests.byKey.keys, ik.workload = name → ik.namespace_ = ns

/-- What is listed with a workload comes from the intercepts in the requested
namespaces and from all ingests. -/
theorem listWorkload_fields (h : listWorkload (s.tables o nss) filter e = some wl) :
    wl.name = e.name ∧ wl.namespace_ = e.namespace_ ∧
      wl.interceptInfo = (s.interceptsOf nss e.name).filter (·.passes filter) ∧
      wl.ingestInfo = ((s.tables o nss).gMap.lookup e.name).getD [] := by
  simp only [listWorkload, getD_lookup_iMap, matchIntercepts_eq, nil_append] at h
  split at h
  · cases h
  · cases h
    exact ⟨rfl, rfl, rfl, rfl⟩

theorem unmixed_iff_alone (hns : e.namespace_ ∈ nss)
    (h : listWorkload (s.tables o nss) filter e = some wl) :
    s.Unmixed filter wl ↔ s.Alone nss filter e.name e.namespace_ := by
  obtain ⟨hname, hnamespace, hintercepts, hingests⟩ := listWorkload_fields h
  constructor
  · intro hwl
    refine ⟨?_, ?_⟩
    · intro ii hii hin hagent hpasses
      have hmem : ii ∈ wl.interceptInfo := by
        rw [hintercepts, mem_filter, mem_interceptsOf]
        exact ⟨⟨hii, hin, hagent⟩, hpasses⟩
      rw [(hwl.intercepts ii hmem).2, hnamespace]
    · intro ik hik hworkload
      obtain ⟨ig, hig⟩ := Option.isSome_iff_exists.mp (mem_keys_iff_isSome.mp hik)
      have hmem : ig.response ∈ wl.ingestInfo := by
        rw [hingests, mem_gMap_iff]
        exact ⟨ik, ig, hig, hworkload, rfl⟩
      have hown : ig.ingestKey.namespace_ = wl.namespace_ := (hwl.ingests _ hmem).2
      rw [← s.currentIngests.keyed ik ig hig, hown, hnamespace]
  · intro halone
    refine ⟨?_, ?_, ?_⟩
    · intro ii hii
      rw [hintercepts, mem_filter, mem_interceptsOf] at hii
      obtain ⟨⟨hmem, hin, hagent⟩, hpasses⟩ := hii
      rw [hname, hnamespace]
      exact ⟨hagent, halone.intercepts ii hmem hin hagent hpasses⟩
    · intro gi hgi
      rw [hingests, mem_gMap_iff] at hgi
      obtain ⟨ik, ig, hig, hworkload, rfl⟩ := hgi
      have hkey := s.currentIngests.keyed ik ig hig
      have hown := halone.ingests ik (mem_keys_of_lookup hig) hworkload
      rw [hname, hnamespace, ← hworkload, ← hown, ← hkey]
      exact ⟨rfl, rfl⟩
    · intro ii hmem hagent hnsEq hpasses
      rw [hintercepts, mem_filter, mem_interceptsOf, hnsEq, hnamespace, hagent, hname]
      exact ⟨⟨hmem, hns, rfl⟩, hpasses⟩

end Session

open Session

/-- **Namespaces in the list of workloads.**  Every listed workload has what
belongs to it and nothing else exactly if no workload that is listed shares its
name with an included intercept or with an ingest of another namespace. -/
theorem unmixed_iff (s : Session σ) (o : Orders σ) (namespaces : List String) (filter : Filter) :
    (∀ wl ∈ s.workloadInfoSnapshot o namespaces filter, s.Unmixed filter wl) ↔
      ∀ ns ∈ s.requested namespaces, ∀ wls, s.workloads.lookup ns = some wls →
        ∀ key ∈ wls.keys, s.Selected (s.requested namespaces) filter key.name →
          s.Alone (s.requested namespaces) filter key.name ns := by
  constructor
  · intro h ns hns wls hwls key hkey hselected
    obtain ⟨info, hinfo⟩ := Option.isSome_iff_exists.mp (mem_keys_iff_isSome.mp hkey)
    let e : Entry σ := ⟨key.kind, key.name, ns, info⟩
    have he : e ∈ s.eachWorkload o (s.requested namespaces) :=
      mem_eachWorkload.mpr ⟨hns, wls, hwls, hinfo⟩
    obtain ⟨wl, hwl⟩ := isSome_listWorkload_iff (o := o) (e := e) |>.mpr hselected
    have hlisted := mem_workloadInfoSnapshot_iff.mpr ⟨e, he, hwl⟩
    exact (unmixed_iff_alone (e := e) hns hwl).mp (h wl hlisted)
  · intro h wl hwl
    obtain ⟨e, he, hlist⟩ := mem_workloadInfoSnapshot_iff.mp hwl
    obtain ⟨hns, wls, hwls, hinfo⟩ := mem_eachWorkload.mp he
    have hselected := isSome_listWorkload_iff.mp ⟨wl, hlist⟩
    exact (unmixed_iff_alone hns hlist).mpr
      (h _ hns wls hwls ⟨e.kind, e.name⟩ (mem_keys_of_lookup hinfo) hselected)

/-! ## Two namespaces with a workload of the same name -/

/-- A workload `echo` in two namespaces, with an intercept in the second one. -/
def echoTwice : Session Unit where
  namespace_ := "one"
  currentMappedNamespaces := (∅ : GoMap String Bool).insert "one" true |>.insert "two" true
  currentIntercepts := (∅ : GoMap String InterceptInfo).insert "i"
    { id := "i", spec := { name := "echo", agent := "echo", namespace_ := "two" },
      disposition := .active }
  workloads :=
    let echo : GoMap WorkloadInfoKey (WorkloadInfo Unit) :=
      (∅ : GoMap WorkloadInfoKey (WorkloadInfo Unit)).insert ⟨.deployment, "echo"⟩
        { uid := "u", state := .available, agentState := .noAgent, interceptClients := [],
          desiredReplicas := 1, readyReplicas := 1, services := [] }
    (∅ : GoMap String (GoMap WorkloadInfoKey (WorkloadInfo Unit))).insert "one" echo
      |>.insert "two" echo
  labels := by decide +kernel

/-- The intercept of the second namespace is listed with both workloads. -/
theorem intercept_listed_twice :
    ¬ ∀ wl ∈ echoTwice.workloadInfoSnapshot ⟨.entries, .entries, .entries⟩ ["one", "two"] 0,
      echoTwice.Unmixed 0 wl := by
  intro h
  have hlisted : (echoTwice.workloadInfoSnapshot ⟨.entries, .entries, .entries⟩ ["one", "two"]
      0).any (fun wl => wl.namespace_ == "one" &&
        wl.interceptInfo.any fun ii => ii.spec.namespace_ == "two") = true := by
    decide +kernel
  obtain ⟨wl, hwl, htest⟩ := any_eq_true.mp hlisted
  simp only [Bool.and_eq_true, beq_iff_eq, any_eq_true] at htest
  obtain ⟨hone, ii, hii, htwo⟩ := htest
  have hown := ((h wl hwl).intercepts ii hii).2
  rw [hone, htwo] at hown
  exact absurd hown (by decide)

end Telepresence.TrafficMgr
