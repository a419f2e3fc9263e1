import Telepresence.InterceptSpec

/-!
# Conflicts between intercepts

The package `pkg/icept`, as far as it decides whether two intercepts route the
same traffic.  Both the traffic-manager, before it accepts an intercept, and
the traffic-agents, before they approve one, ask `isInConflict`.
-/

namespace Telepresence.Icept

open Matcher Strings Regexp GoMap

variable {u : Unicode}

/-- The metacharacters that `regexLiteralPrefix` stops at. -/
def isMetacharacter (c : Char) : Bool :=
  c ∈ ['[', ']', '(', ')', '\x7b', '\x7d', '?', '+', '*', '|', '$', '.', '\\', '^']

/-- `regexLiteralPrefix`. -/
def regexLiteralPrefix (pattern : String) : String :=
  if pattern = "" then ""
  else
    let pattern := trimPrefix pattern "^"
    let pattern := trimSuffix pattern ".*"
    String.ofList (pattern.toList.takeWhile fun c => !isMetacharacter c)

/-- `regexCanMatchValue`. -/
def regexCanMatchValue (u : Unicode) (regexPattern : String) (op : ValueOp) (value : String) :
    Bool :=
  if value = "" then true
  else
    let anchored := hasPrefix regexPattern "^"
    match op with
    | .equal =>
        if anchored then
          match compile u regexPattern with
          | none => true
          | some re => matchString u re value
        else true
    | .pfx =>
        if anchored then
          let literal := regexLiteralPrefix regexPattern
          if literal = "" then true
          else hasPrefix value literal || hasPrefix literal value
        else true
    | .regex => true

/-- `valuesCanMatch`. -/
def valuesCanMatch (v1 v2 : Value u) : Bool :=
  let pattern1 := v1.string
  let pattern2 := v2.string
  match v1.op, v2.op with
  | .equal, .equal => pattern1 == pattern2
  | .pfx, .pfx => hasPrefix pattern1 pattern2 || hasPrefix pattern2 pattern1
  | .pfx, .equal => hasPrefix pattern2 pattern1
  | .equal, .pfx => hasPrefix pattern1 pattern2
  | .regex, .regex =>
      if pattern1 = pattern2 then true
      else
        let anchored1 := hasPrefix pattern1 "^"
        let anchored2 := hasPrefix pattern2 "^"
        let prefix1 := regexLiteralPrefix pattern1
        let prefix2 := regexLiteralPrefix pattern2
        if anchored1 && anchored2 then hasPrefix prefix1 prefix2 || hasPrefix prefix2 prefix1
        else true
  | .regex, .equal => regexCanMatchValue u pattern1 .equal pattern2
  | .regex, .pfx => regexCanMatchValue u pattern1 .pfx pattern2
  | .equal, .regex => regexCanMatchValue u pattern2 .equal pattern1
  | .pfx, .regex => regexCanMatchValue u pattern2 .pfx pattern1

/-- `pathsCanMatch`. -/
def pathsCanMatch (u : Unicode) (filter1 filter2 : String) : Bool :=
  valuesCanMatch (u := u) (pathValue filter1) (pathValue filter2)

/-- `pathFiltersOverlap`. -/
def pathFiltersOverlap (u : Unicode) (paths1 paths2 : List String) : Bool :=
  paths1.any fun path1 => paths2.any fun path2 => pathsCanMatch u path1 path2

/-- `isHeaderSubset`. -/
def isHeaderSubset (subset superset : HeaderMap u) : Bool :=
  subset.entries.all fun e =>
    match superset.lookup e.1 with
    | none => false
    | some superValue => valuesCanMatch e.2 superValue

/-- `IsInConflict`. -/
def isInConflict (u : Unicode) (spec1 spec2 : InterceptSpec) : Bool :=
  let hasHeaders1 := !spec1.headerFilters.entries.isEmpty
  let hasHeaders2 := !spec2.headerFilters.entries.isEmpty
  let hasPaths1 := !spec1.pathFilters.isEmpty
  let hasPaths2 := !spec2.pathFilters.isEmpty
  let isGlobal1 := !hasHeaders1 && !hasPaths1
  let isGlobal2 := !hasHeaders2 && !hasPaths2
  if isGlobal1 || isGlobal2 then true
  else if hasHeaders1 && !hasHeaders2 then false
  else if hasHeaders2 && !hasHeaders1 then false
  else if hasHeaders1 then
    let headers1 : HeaderMap u := newHeaders spec1.headerFilters
    let headers2 : HeaderMap u := newHeaders spec2.headerFilters
    let hasHeaderSubset := isHeaderSubset headers1 headers2 || isHeaderSubset headers2 headers1
    if !hasHeaderSubset then false
    else if !hasPaths1 || !hasPaths2 then true
    else pathFiltersOverlap u spec1.pathFilters spec2.pathFilters
  else pathFiltersOverlap u spec1.pathFilters spec2.pathFilters

/-- `ExplainConflict`. -/
def explainConflict (u : Unicode) (spec1 spec2 : InterceptSpec) : String :=
  let hasHeaders1 := !spec1.headerFilters.entries.isEmpty
  let hasHeaders2 := !spec2.headerFilters.entries.isEmpty
  let hasPaths1 := !spec1.pathFilters.isEmpty
  let hasPaths2 := !spec2.pathFilters.isEmpty
  let headers1 : HeaderMap u := newHeaders spec1.headerFilters
  let headers2 : HeaderMap u := newHeaders spec2.headerFilters
  if (!hasHeaders1 && !hasPaths1) || (!hasHeaders2 && !hasPaths2) then
    "one intercept has no filters (intercepts all traffic)"
  else if hasHeaders1 && hasHeaders2 &&
      (isHeaderSubset headers1 headers2 || isHeaderSubset headers2 headers1) &&
      (!hasPaths1 || !hasPaths2 || pathFiltersOverlap u spec1.pathFilters spec2.pathFilters) then
    (if hasPaths1 && hasPaths2 then "header filters and paths" else "header filters") ++ " overlap"
  else if hasPaths1 && hasPaths2 && !hasHeaders1 && !hasHeaders2 then "path filters overlap"
  else "filters would route the same traffic to different destinations"

/-! ## Conflicts are mutual -/

theorem valuesCanMatch_comm (v1 v2 : Value u) : valuesCanMatch v1 v2 = valuesCanMatch v2 v1 := by
  cases v1 <;> cases v2
  case text.text s t => simp [valuesCanMatch, Value.op, Value.string, Bool.beq_comm]
  case rx.rx r1 r2 =>
    simp only [valuesCanMatch, Value.op, Value.string, eq_comm, Bool.and_comm, Bool.or_comm]
  case pfx.pfx p q => simp [valuesCanMatch, Value.op, Value.string, Bool.or_comm]
  all_goals rfl

theorem pathFiltersOverlap_comm (paths1 paths2 : List String) :
    pathFiltersOverlap u paths1 paths2 = pathFiltersOverlap u paths2 paths1 := by
  rw [Bool.eq_iff_iff]
  simp only [pathFiltersOverlap, pathsCanMatch, List.any_eq_true]
  apply Iff.intro
  · intro h
    obtain ⟨p1, h1, p2, h2, hm⟩ := h
    exact ⟨p2, h2, p1, h1, valuesCanMatch_comm (u := u) _ _ ▸ hm⟩
  · intro h
    obtain ⟨p2, h2, p1, h1, hm⟩ := h
    exact ⟨p1, h1, p2, h2, valuesCanMatch_comm (u := u) _ _ ▸ hm⟩

theorem isInConflict_comm (spec1 spec2 : InterceptSpec) :
    isInConflict u spec1 spec2 = isInConflict u spec2 spec1 := by
  unfold isInConflict
  rw [pathFiltersOverlap_comm spec1.pathFilters]
  simp only [Bool.or_comm (isHeaderSubset (newHeaders spec1.headerFilters) _)]
  cases spec1.headerFilters.entries.isEmpty <;> cases spec2.headerFilters.entries.isEmpty <;>
    cases spec1.pathFilters.isEmpty <;> cases spec2.pathFilters.isEmpty <;> rfl

/-- A specification without any filter. -/
def IsGlobal (spec : InterceptSpec) : Prop :=
  spec.headerFilters.entries = [] ∧ spec.pathFilters = []

/-- A specification without any filter conflicts with every other. -/
theorem isInConflict_of_global {spec1 spec2 : InterceptSpec}
    (h : IsGlobal spec1 ∨ IsGlobal spec2) : isInConflict u spec1 spec2 = true := by
  unfold isInConflict
  rcases h with h | h
  all_goals simp [h.1, h.2]

/-! ## The order of the filters -/

/-- No two header names of a specification have the same canonical form. -/
def DistinctNames (hs : StringMap String) : Prop :=
  ∀ a ∈ hs.keys, ∀ b ∈ hs.keys, canonicalMIMEHeaderKey a = canonicalMIMEHeaderKey b → a = b

instance (hs : StringMap String) : Decidable (DistinctNames hs) :=
  inferInstanceAs (Decidable (∀ a ∈ hs.keys, ∀ b ∈ hs.keys, _ → _))

/-- The same filters, the paths and the entries of the header map in another
order. -/
structure Reordered (spec spec' : InterceptSpec) : Prop where
  headers : spec.headerFilters.entries.Perm spec'.headerFilters.entries
  paths : spec.pathFilters.Perm spec'.pathFilters

/-- Headers with distinct names are all in the map. -/
theorem lookup_newHeaders_iff {hs : StringMap String} (h : DistinctNames hs) {k : String}
    {v : Value u} :
    (newHeaders hs : HeaderMap u).lookup k = some v ↔
      ∃ name value, hs.lookup name = some value ∧ canonicalMIMEHeaderKey name = k ∧
        newValue value = v := by
  have hpairs : (newHeaders hs : HeaderMap u) =
      insertPairs (hs.entries.map fun e => (canonicalMIMEHeaderKey e.1, newValue e.2)) ∅ := by
    rw [insertPairs, List.foldl_map]
    rfl
  have hmem : ∀ w : Value u, (k, w) ∈ hs.entries.map
      (fun e => (canonicalMIMEHeaderKey e.1, newValue e.2)) ↔
        ∃ name value, hs.lookup name = some value ∧ canonicalMIMEHeaderKey name = k ∧
          newValue value = w := by
    intro w
    simp only [List.mem_map, Prod.mk.injEq, Sigma.exists, mem_entries_iff]
  rw [hpairs, lookup_insertPairs_iff ?_, hmem]
  intro w w' hw hw'
  obtain ⟨name, value, hvalue, hk, rfl⟩ := (hmem w).mp hw
  obtain ⟨name', value', hvalue', hk', rfl⟩ := (hmem w').mp hw'
  have hname : name' = name := h _ (mem_keys_of_lookup hvalue') _
    (mem_keys_of_lookup hvalue) (hk'.trans hk.symm)
  rw [hname, hvalue] at hvalue'
  cases hvalue'
  rfl

theorem isHeaderSubset_iff {m n : HeaderMap u} :
    isHeaderSubset m n = true ↔ ∀ k v, m.lookup k = some v →
      ∃ w, n.lookup k = some w ∧ valuesCanMatch v w = true := by
  simp only [isHeaderSubset, List.all_eq_true, Sigma.forall, mem_entries_iff]
  refine forall₃_congr fun k v _ => ?_
  cases n.lookup k <;> simp

/-- What is in a map decides, not the order in which it is iterated. -/
theorem isHeaderSubset_congr {m n m' n' : HeaderMap u} (hm : ∀ k, m.lookup k = m'.lookup k)
    (hn : ∀ k, n.lookup k = n'.lookup k) : isHeaderSubset m n = isHeaderSubset m' n' := by
  rw [Bool.eq_iff_iff]
  simp only [isHeaderSubset_iff, hm, hn]

theorem lookup_newHeaders_congr {hs hs' : StringMap String} (h : DistinctNames hs)
    (hperm : hs.entries.Perm hs'.entries) (k : String) :
    (newHeaders hs : HeaderMap u).lookup k = (newHeaders hs').lookup k := by
  have hlookup : ∀ name, hs'.lookup name = hs.lookup name :=
    fun name => (AList.perm_lookup hperm).symm
  have h' : DistinctNames hs' := by
    intro a ha b hb
    exact h a ((hperm.map Sigma.fst).mem_iff.mpr ha) b ((hperm.map Sigma.fst).mem_iff.mpr hb)
  apply Option.ext
  intro v
  simp only [lookup_newHeaders_iff h, lookup_newHeaders_iff h', hlookup]

theorem pathFiltersOverlap_congr {paths1 paths2 paths1' paths2' : List String}
    (h1 : paths1.Perm paths1') (h2 : paths2.Perm paths2') :
    pathFiltersOverlap u paths1 paths2 = pathFiltersOverlap u paths1' paths2' := by
  have hinner : ∀ path1, (paths2.any fun path2 => pathsCanMatch u path1 path2) =
      paths2'.any fun path2 => pathsCanMatch u path1 path2 := fun _ => h2.any_eq
  simp only [pathFiltersOverlap, hinner]
  exact h1.any_eq

/-- **Conflicts are mutual**, and the order of the filters has no influence on
them. -/
theorem isInConflict_symmetric_reordered {spec1 spec2 spec1' spec2' : InterceptSpec}
    (h1 : DistinctNames spec1.headerFilters) (h2 : DistinctNames spec2.headerFilters)
    (hr1 : Reordered spec1 spec1') (hr2 : Reordered spec2 spec2') :
    isInConflict u spec1 spec2 = isInConflict u spec2 spec1 ∧
      isInConflict u spec1' spec2' = isInConflict u spec1 spec2 := by
  refine ⟨isInConflict_comm spec1 spec2, ?_⟩
  have hheaders1 : ∀ k, (newHeaders spec1.headerFilters : HeaderMap u).lookup k =
      (newHeaders spec1'.headerFilters).lookup k := lookup_newHeaders_congr h1 hr1.headers
  have hheaders2 : ∀ k, (newHeaders spec2.headerFilters : HeaderMap u).lookup k =
      (newHeaders spec2'.headerFilters).lookup k := lookup_newHeaders_congr h2 hr2.headers
  unfold isInConflict
  dsimp only
  rw [hr1.headers.isEmpty_eq, hr2.headers.isEmpty_eq, hr1.paths.isEmpty_eq, hr2.paths.isEmpty_eq,
    isHeaderSubset_congr hheaders1 hheaders2, isHeaderSubset_congr hheaders2 hheaders1,
    pathFiltersOverlap_congr hr1.paths hr2.paths]

/-- An intercept with two headers and two paths, in the given order. -/
def bySession (headers : List (String × String)) (paths : List String) : InterceptSpec where
  headerFilters := GoMap.insertPairs headers ∅
  pathFilters := paths

theorem bySession_reordered :
    isInConflict noTables
        (bySession [("x-user", "adam"), ("x-session", "1")] ["/health", ":path-prefix:/api"])
        (bySession [("x-user", "adam")] []) =
      isInConflict noTables
        (bySession [("x-session", "1"), ("x-user", "adam")] [":path-prefix:/api", "/health"])
        (bySession [("x-user", "adam")] []) :=
  (isInConflict_symmetric_reordered (by decide +kernel) (by decide +kernel)
    ⟨by decide +kernel, by decide +kernel⟩ ⟨.refl _, .refl _⟩).2

end Telepresence.Icept
