import Telepresence.Forwarder

/-!
# Wiretaps and the routing of requests

A wiretap only listens, so the destination of a request should not depend on
which wiretaps there are.  It does: a wiretap with filters switches the port to
the HTTP path, and `handleHTTPRequest` looks at intercepts with header filters
and at intercepts with path filters, but not at the one without filters that
the TCP path would have chosen.  And on the HTTP path a wiretap that matches the
request and has a working stream holds the request up: it waits for the body,
which nobody reads.

* `route_independent_iff`: for intercepts without conflicts, a request is
  delivered where it should be, whatever the wiretaps are, unless an unfiltered
  intercept meets a wiretap with filters, or a wiretap holds the request up.
-/

namespace Telepresence.Fwd

open Matcher Regexp Icept List InterceptControllerMap

variable {u : Unicode}

/-- A set of intercepts or wiretaps. -/
structure InterceptSet where
  infos : List InterceptInfo
  nodup_ids : (infos.map (·.id)).Nodup

/-- A set of intercepts that can be active at the same time. -/
structure ActiveSet (u : Unicode) extends InterceptSet where
  noConflict : ∀ a ∈ infos, ∀ b ∈ infos, a ≠ b → isInConflict u a.spec b.spec = false

/-- Some member has filters. -/
def InterceptSet.Filtered (W : InterceptSet) : Prop := ∃ w ∈ W.infos, isHTTP w = true

/-- The forwarder after a snapshot with these intercepts and wiretaps. -/
def configured (f : Tcp) (I W : InterceptSet) : Tcp :=
  (f.setWiretapping W.infos).setIntercepting I.infos

/-! ## What is where -/

section

variable (im : InterceptControllerMap) (S : InterceptSet)

theorem lookup_reconcile (id : String) (ii : InterceptInfo) :
    (im.reconcile S.infos).lookup id = some ii ↔ ii ∈ S.infos ∧ ii.id = id := by
  simp only [reconcile, GoMap.lookup_deleteUnless_keys]
  by_cases hid : id ∈ S.infos.map (·.id)
  · obtain ⟨x, hx, rfl⟩ := mem_map.mp hid
    rw [if_pos (by simpa using hid), GoMap.lookup_insertAll_of_mem S.nodup_ids hx im]
    apply Iff.intro
    · intro h
      cases h
      exact ⟨hx, rfl⟩
    · intro h
      rw [inj_on_of_nodup_map S.nodup_ids hx h.1 h.2.symm]
  · have hnot : ¬ (ii ∈ S.infos ∧ ii.id = id) := by
      intro h
      exact hid (mem_map.mpr ⟨ii, h.1, h.2⟩)
    rw [if_neg (by simpa using hid)]
    exact iff_of_false (by simp) hnot

theorem mem_entries_reconcile (e : Sigma fun _ : String => InterceptInfo) :
    e ∈ (im.reconcile S.infos).entries ↔ e.2 ∈ S.infos ∧ e.2.id = e.1 := by
  rw [← lookup_reconcile im S e.1 e.2]
  exact GoMap.mem_entries_iff

theorem mem_sorted_reconcile
    (ii : InterceptInfo) : ii ∈ (im.reconcile S.infos).sorted ↔ ii ∈ S.infos := by
  simp only [sorted, mem_filterMap, mem_insertionSort]
  apply Iff.intro
  · intro h
    obtain ⟨id, _, hid⟩ := h
    exact ((lookup_reconcile im S id ii).mp hid).1
  · intro h
    have hlook := (lookup_reconcile im S ii.id ii).mpr ⟨h, rfl⟩
    exact ⟨ii.id, GoMap.mem_keys_of_lookup hlook, hlook⟩

theorem isHTTP_reconcile : (im.reconcile S.infos).isHTTP = true ↔ S.Filtered := by
  simp only [InterceptControllerMap.isHTTP, any_eq_true, InterceptSet.Filtered]
  apply Iff.intro
  · intro h
    obtain ⟨e, he, hhttp⟩ := h
    exact ⟨e.2, ((mem_entries_reconcile im S e).mp he).1, hhttp⟩
  · intro h
    obtain ⟨w, hw, hhttp⟩ := h
    exact ⟨⟨w.id, w⟩, (mem_entries_reconcile im S ⟨w.id, w⟩).mpr ⟨hw, rfl⟩, hhttp⟩

end

theorem configured_intercepts (f : Tcp) (I W : InterceptSet) :
    (configured f I W).intercepts = f.intercepts.reconcile I.infos := rfl

theorem configured_secondary (f : Tcp) (I W : InterceptSet) :
    (configured f I W).secondary = true ↔ I.Filtered ∨ W.Filtered := by
  rw [← isHTTP_reconcile f.intercepts I, ← isHTTP_reconcile f.wiretaps W]
  simp [configured, Tcp.setIntercepting, Tcp.setWiretapping, Tcp.setListenerSwitch, Tcp.isHTTP]

/-! ## Where a request should go -/

/-- The intercept has header filters and matches. -/
def HeaderMatch (u : Unicode) (req : HttpRequest) (ic : InterceptInfo) : Prop :=
  ic.spec.headerFilters.entries ≠ [] ∧ shouldInterceptRequest u req ic.spec = true

/-- The intercept has path filters only and matches. -/
def PathMatch (u : Unicode) (req : HttpRequest) (ic : InterceptInfo) : Prop :=
  ic.spec.headerFilters.entries = [] ∧ ic.spec.pathFilters ≠ [] ∧
    shouldInterceptRequest u req ic.spec = true

/-- The destinations that are right for a request. -/
inductive DeliveredTo (u : Unicode) (I : List InterceptInfo) (req : HttpRequest) :
    Destination → Prop
  | header {ic : InterceptInfo} : ic ∈ I → HeaderMatch u req ic → DeliveredTo u I req (.intercept ic)
  | path {ic : InterceptInfo} : (∀ i ∈ I, ¬ HeaderMatch u req i) → ic ∈ I → PathMatch u req ic →
      DeliveredTo u I req (.intercept ic)
  | unfiltered {ic : InterceptInfo} : (∀ i ∈ I, ¬ HeaderMatch u req i) →
      (∀ i ∈ I, ¬ PathMatch u req i) → ic ∈ I → isHTTP ic = false →
      DeliveredTo u I req (.intercept ic)
  | appContainer : (∀ i ∈ I, ¬ HeaderMatch u req i) → (∀ i ∈ I, ¬ PathMatch u req i) →
      (∀ i ∈ I, isHTTP i = true) → DeliveredTo u I req .appContainer

/-- The two passes find a matching intercept with filters if there is one. -/
theorem passes_cases (f : Tcp) (I W : InterceptSet) (req : HttpRequest) :
    (∃ ic ∈ I.infos, HeaderMatch u req ic ∧
      passes u (configured f I W) req = .intercept ic) ∨
    (∀ i ∈ I.infos, ¬ HeaderMatch u req i) ∧ (∃ ic ∈ I.infos, PathMatch u req ic ∧
      passes u (configured f I W) req = .intercept ic) ∨
    (∀ i ∈ I.infos, ¬ HeaderMatch u req i) ∧ (∀ i ∈ I.infos, ¬ PathMatch u req i) ∧
      passes u (configured f I W) req = .appContainer := by
  unfold passes
  simp only [configured_intercepts]
  cases h1 : (f.intercepts.reconcile I.infos).sorted.find? fun ic =>
      !ic.spec.headerFilters.entries.isEmpty && shouldInterceptRequest u req ic.spec with
  | some ic =>
    have hic := (mem_sorted_reconcile f.intercepts I ic).mp (List.mem_of_find?_eq_some h1)
    have hp := List.find?_some h1
    simp only [Bool.and_eq_true, Bool.not_eq_true', List.isEmpty_eq_false_iff] at hp
    exact .inl ⟨ic, hic, hp, rfl⟩
  | none =>
    have hnone : ∀ i ∈ I.infos, ¬ HeaderMatch u req i := by
      intro i hi hm
      have := List.find?_eq_none.mp h1 i ((mem_sorted_reconcile f.intercepts I i).mpr hi)
      simp [hm.1, hm.2] at this
    refine .inr ?_
    cases h2 : (f.intercepts.reconcile I.infos).sorted.find? fun ic =>
        ic.spec.headerFilters.entries.isEmpty && !ic.spec.pathFilters.isEmpty &&
          shouldInterceptRequest u req ic.spec with
    | some ic =>
      have hic := (mem_sorted_reconcile f.intercepts I ic).mp (List.mem_of_find?_eq_some h2)
      have hp := List.find?_some h2
      simp only [Bool.and_eq_true, Bool.not_eq_true', List.isEmpty_eq_false_iff,
        List.isEmpty_iff] at hp
      exact .inl ⟨hnone, ic, hic, ⟨hp.1.1, hp.1.2, hp.2⟩, rfl⟩
    | none =>
      refine .inr ⟨hnone, ?_, rfl⟩
      intro i hi hm
      have := List.find?_eq_none.mp h2 i ((mem_sorted_reconcile f.intercepts I i).mpr hi)
      simp [hm.1, hm.2.1, hm.2.2] at this

theorem not_match_of_unfiltered {ic : InterceptInfo} (req : HttpRequest)
    (h : isHTTP ic = false) : ¬ HeaderMatch u req ic ∧ ¬ PathMatch u req ic := by
  simp only [isHTTP, Bool.or_eq_false_iff, Bool.not_eq_false', List.isEmpty_iff] at h
  exact ⟨fun hm => hm.1 h.1, fun hm => hm.2.1 h.2⟩

/-- When all intercepts have filters, the two passes are right. -/
theorem passes_deliver (f : Tcp) (I W : InterceptSet) (req : HttpRequest)
    (hall : ∀ i ∈ I.infos, isHTTP i = true) :
    DeliveredTo u I.infos req (passes u (configured f I W) req) := by
  rcases passes_cases (u := u) f I W req with
    ⟨ic, hic, hm, hr⟩ | ⟨hno, ic, hic, hm, hr⟩ | ⟨hno, hno', hr⟩
  · rw [hr]
    exact .header hic hm
  · rw [hr]
    exact .path hno hic hm
  · rw [hr]
    exact .appContainer hno hno' hall

/-- Where a request goes that no wiretap holds up. -/
def untapped (u : Unicode) (f : Tcp) (req : HttpRequest) : Destination :=
  if f.secondary then passes u f req else forward f

/-- When all intercepts have filters, the TCP path is only taken without
intercepts, and the destination is the one of the HTTP path. -/
theorem untapped_of_all_filtered (f : Tcp) (I W : InterceptSet) (req : HttpRequest)
    (hall : ∀ i ∈ I.infos, isHTTP i = true) :
    untapped u (configured f I W) req = passes u (configured f I W) req := by
  unfold untapped
  by_cases hsec : (configured f I W).secondary = true
  · rw [if_pos hsec]
  · rw [if_neg hsec]
    rw [configured_secondary, not_or] at hsec
    have hempty : ∀ i, i ∉ I.infos := by
      intro i hi
      exact hsec.1 ⟨i, hi, hall i hi⟩
    have hentries : (f.intercepts.reconcile I.infos).entries = [] := by
      apply eq_nil_iff_forall_not_mem.mpr
      intro e he
      exact hempty e.2 ((mem_entries_reconcile f.intercepts I e).mp he).1
    have hforward : forward (configured f I W) = .appContainer := by
      simp [forward, configured_intercepts, global, hentries]
    rcases passes_cases (u := u) f I W req with
      ⟨ic, hic, _⟩ | ⟨_, ic, hic, _⟩ | ⟨_, _, hr⟩
    · exact absurd hic (hempty ic)
    · exact absurd hic (hempty ic)
    · rw [hforward, hr]

theorem isGlobal_of_unfiltered {ic : InterceptInfo} (h : isHTTP ic = false) :
    IsGlobal ic.spec := by
  simpa [isHTTP, IsGlobal] using h

variable {g : InterceptInfo}

/-- An unfiltered intercept tolerates no other. -/
theorem eq_of_unfiltered (I : ActiveSet u) (hg : g ∈ I.infos) (h : isHTTP g = false) :
    ∀ a ∈ I.infos, a = g := by
  intro a ha
  by_contra hne
  have hconf : isInConflict u a.spec g.spec = true :=
    isInConflict_of_global (.inr (isGlobal_of_unfiltered h))
  rw [I.noConflict a ha g hg hne] at hconf
  cases hconf

/-- The TCP path delivers to the unfiltered intercept. -/
theorem forward_of_unfiltered (f : Tcp) (I : ActiveSet u) (W : InterceptSet) (hg : g ∈ I.infos)
    (h : isHTTP g = false) : forward (configured f I.toInterceptSet W) = .intercept g := by
  have honly : ∀ e ∈ (f.intercepts.reconcile I.infos).entries, e = ⟨g.id, g⟩ := by
    intro e he
    obtain ⟨hmem, hid⟩ := (mem_entries_reconcile f.intercepts I.toInterceptSet e).mp he
    have heq := eq_of_unfiltered I hg h e.2 hmem
    obtain ⟨k, v⟩ := e
    simp only at heq hid
    subst heq hid
    rfl
  have hmem := (mem_entries_reconcile f.intercepts I.toInterceptSet ⟨g.id, g⟩).mpr ⟨hg, rfl⟩
  have hnodup := (f.intercepts.reconcile I.infos).nodupKeys.nodup
  have hentries : (f.intercepts.reconcile I.infos).entries = [⟨g.id, g⟩] := by
    revert honly hmem hnodup
    generalize (f.intercepts.reconcile I.infos).entries = l
    intro honly hmem hnodup
    match l with
    | [] => simp at hmem
    | [e] => rw [honly e (by simp)]
    | e :: e' :: l =>
      have he := honly e (by simp)
      have he' := honly e' (by simp)
      simp [he, he'] at hnodup
  simp [forward, configured_intercepts, global, hentries]

/-- The HTTP path does not see the unfiltered intercept. -/
theorem passes_of_unfiltered (f : Tcp) (I : ActiveSet u) (W : InterceptSet)
    (req : HttpRequest) (hg : g ∈ I.infos) (h : isHTTP g = false) :
    passes u (configured f I.toInterceptSet W) req = .appContainer := by
  have hnot := not_match_of_unfiltered (u := u) req h
  rcases passes_cases (u := u) f I.toInterceptSet W req with
    ⟨ic, hic, hm, _⟩ | ⟨_, ic, hic, hm, _⟩ | ⟨_, _, hr⟩
  · rw [eq_of_unfiltered I hg h ic hic] at hm
    exact absurd hm hnot.1
  · rw [eq_of_unfiltered I hg h ic hic] at hm
    exact absurd hm hnot.2
  · exact hr

/-- The destination of a request in the presence of an unfiltered intercept. -/
theorem untapped_of_unfiltered (f : Tcp) (I : ActiveSet u) (W : InterceptSet) (req : HttpRequest)
    (hg : g ∈ I.infos) (h : isHTTP g = false) :
    (W.Filtered → untapped u (configured f I.toInterceptSet W) req = .appContainer) ∧
      (¬ W.Filtered → untapped u (configured f I.toInterceptSet W) req = .intercept g) := by
  have hI : ¬ I.toInterceptSet.Filtered := by
    intro hf
    obtain ⟨i, hi, hhttp⟩ := hf
    rw [eq_of_unfiltered I hg h i hi, h] at hhttp
    cases hhttp
  apply And.intro
  · intro hW
    rw [untapped, if_pos ((configured_secondary f I.toInterceptSet W).mpr (.inr hW))]
    exact passes_of_unfiltered f I W req hg h
  · intro hW
    have hsec : ¬ (configured f I.toInterceptSet W).secondary = true := by
      rw [configured_secondary, not_or]
      exact ⟨hI, hW⟩
    rw [untapped, if_neg hsec]
    exact forward_of_unfiltered f I W hg h

/-- The application container is the wrong destination when there is an
unfiltered intercept. -/
theorem not_deliveredTo_appContainer {I : List InterceptInfo} {req : HttpRequest} (hg : g ∈ I)
    (h : isHTTP g = false) : ¬ DeliveredTo u I req .appContainer := by
  intro hd
  cases hd with
  | appContainer _ _ hall =>
    rw [hall g hg] at h
    cases h

/-- Where no wiretap holds the request up, it is delivered to the same
destination under both sets, and to the right one, if and only if it is not the
case that one of the intercepts is unfiltered while one of the wiretaps has
filters. -/
theorem untapped_independent_iff (f : Tcp) (I : ActiveSet u) (W1 W2 : InterceptSet)
    (req : HttpRequest) :
    (untapped u (configured f I.toInterceptSet W1) req =
        untapped u (configured f I.toInterceptSet W2) req ∧
      DeliveredTo u I.infos req (untapped u (configured f I.toInterceptSet W1) req)) ↔
      ¬ ((∃ g ∈ I.infos, isHTTP g = false) ∧ (W1.Filtered ∨ W2.Filtered)) := by
  by_cases hg : ∃ g ∈ I.infos, isHTTP g = false
  · obtain ⟨g, hgmem, hgun⟩ := hg
    have hone := untapped_of_unfiltered f I W1 req hgmem hgun
    have htwo := untapped_of_unfiltered f I W2 req hgmem hgun
    apply Iff.intro
    · intro h hbad
      obtain ⟨hsame, hdel⟩ := h
      by_cases h1 : W1.Filtered
      · rw [hone.1 h1] at hdel
        exact not_deliveredTo_appContainer hgmem hgun hdel
      · have h2 : W2.Filtered := hbad.2.resolve_left h1
        rw [hsame, htwo.1 h2] at hdel
        exact not_deliveredTo_appContainer hgmem hgun hdel
    · intro h
      have hW : ¬ W1.Filtered ∧ ¬ W2.Filtered :=
        not_or.mp fun hor => h ⟨⟨g, hgmem, hgun⟩, hor⟩
      rw [hone.2 hW.1, htwo.2 hW.2]
      refine ⟨rfl, ?_⟩
      have hnot := not_match_of_unfiltered (u := u) req hgun
      refine .unfiltered ?_ ?_ hgmem hgun
      · intro i hi
        rw [eq_of_unfiltered I hgmem hgun i hi]
        exact hnot.1
      · intro i hi
        rw [eq_of_unfiltered I hgmem hgun i hi]
        exact hnot.2
  · have hall : ∀ i ∈ I.infos, isHTTP i = true := by
      intro i hi
      by_contra hne
      exact hg ⟨i, hi, by simpa using hne⟩
    refine iff_of_true ?_ (fun h => hg h.1)
    rw [untapped_of_all_filtered f I.toInterceptSet W1 req hall,
      untapped_of_all_filtered f I.toInterceptSet W2 req hall]
    exact ⟨rfl, passes_deliver f I.toInterceptSet W1 req hall⟩

/-- A wiretap of the set matches the request and holds it up. -/
def InterceptSet.HoldsUp (W : InterceptSet) (u : Unicode) (taps : Taps) (req : HttpRequest) : Prop :=
  taps.headerWritten = true ∧
    ∃ w ∈ W.infos, shouldInterceptRequest u req w.spec = true ∧ taps.stream w = .sending

theorem serveTaps_configured (f : Tcp) (I W : InterceptSet) (taps : Taps) (req : HttpRequest) :
    serveTaps u (configured f I W) taps req = true ↔ ¬ W.HoldsUp u taps req := by
  have hmem : ∀ ii, ii ∈ (configured f I W).wiretaps.sorted ↔ ii ∈ W.infos :=
    mem_sorted_reconcile f.wiretaps W
  simp only [serveTaps, serveTap, InterceptSet.HoldsUp, Bool.or_eq_true, Bool.not_eq_true',
    all_eq_true, mem_filter, hmem, decide_eq_true_eq, not_and, not_exists]
  cases taps.headerWritten <;> simp

/-- On the HTTP path a wiretap can hold the request up. -/
theorem route_configured (f : Tcp) (I W : InterceptSet) (taps : Taps) (req : HttpRequest) :
    ((I.Filtered ∨ W.Filtered) ∧ W.HoldsUp u taps req →
        route u (configured f I W) taps req = .undelivered) ∧
      (¬ ((I.Filtered ∨ W.Filtered) ∧ W.HoldsUp u taps req) →
        route u (configured f I W) taps req = untapped u (configured f I W) req) := by
  rw [← configured_secondary f I W]
  unfold route untapped handleHTTPRequest
  constructor
  · rintro ⟨hsec, hholds⟩
    have hserve : ¬ serveTaps u (configured f I W) taps req = true := fun h =>
      (serveTaps_configured f I W taps req).mp h hholds
    rw [if_pos hsec, if_neg hserve]
  · intro hnot
    by_cases hsec : (configured f I W).secondary = true
    · rw [if_pos hsec, if_pos hsec,
        if_pos ((serveTaps_configured f I W taps req).mpr fun h => hnot ⟨hsec, h⟩)]
    · rw [if_neg hsec, if_neg hsec]

/-- **When routing is independent of wiretaps.** For active intercepts without
conflicts, two sets of wiretaps and a request: the request is delivered to the
same destination under both sets, and to the right one, if and only if it is
not the case that one of the intercepts is unfiltered while one of the
wiretaps has filters, and under neither set a wiretap holds the request up on
the HTTP path. -/
theorem route_independent_iff (f : Tcp) (I : ActiveSet u) (W1 W2 : InterceptSet) (taps : Taps)
    (req : HttpRequest) :
    (route u (configured f I.toInterceptSet W1) taps req =
        route u (configured f I.toInterceptSet W2) taps req ∧
      DeliveredTo u I.infos req (route u (configured f I.toInterceptSet W1) taps req)) ↔
      ¬ ((∃ g ∈ I.infos, isHTTP g = false) ∧ (W1.Filtered ∨ W2.Filtered)) ∧
        ∀ W, W = W1 ∨ W = W2 →
          ¬ ((I.toInterceptSet.Filtered ∨ W.Filtered) ∧ W.HoldsUp u taps req) := by
  have hone := route_configured f I.toInterceptSet W1 taps req (u := u)
  have htwo := route_configured f I.toInterceptSet W2 taps req (u := u)
  have hundelivered : ¬ DeliveredTo u I.infos req .undelivered := by
    intro h
    cases h
  constructor
  · rintro ⟨hsame, hdelivered⟩
    have hfree : ∀ W, W = W1 ∨ W = W2 →
        ¬ ((I.toInterceptSet.Filtered ∨ W.Filtered) ∧ W.HoldsUp u taps req) := by
      rintro W (rfl | rfl) hheld
      · rw [hone.1 hheld] at hdelivered
        exact hundelivered hdelivered
      · rw [hsame, htwo.1 hheld] at hdelivered
        exact hundelivered hdelivered
    rw [hone.2 (hfree W1 (.inl rfl)), htwo.2 (hfree W2 (.inr rfl))] at hsame
    rw [hone.2 (hfree W1 (.inl rfl))] at hdelivered
    exact ⟨(untapped_independent_iff f I W1 W2 req).mp ⟨hsame, hdelivered⟩, hfree⟩
  · rintro ⟨hunfiltered, hfree⟩
    rw [hone.2 (hfree W1 (.inl rfl)), htwo.2 (hfree W2 (.inr rfl))]
    exact (untapped_independent_iff f I W1 W2 req).mpr hunfiltered

/-- An intercept without filters on some agent. -/
def plainIntercept : InterceptInfo where
  spec := { name := "echo", agent := "echo" }
  id := "session:echo"
  clientSession := "session"
  disposition := .active
  message := ""

/-- A wiretap on the same port, for one path. -/
def pathWiretap : InterceptInfo where
  spec := { name := "tap", agent := "echo", wiretap := true, pathFilters := ["/api"] }
  id := "other:tap"
  clientSession := "other"
  disposition := .active
  message := ""

/-- The intercept is the only one. -/
def plainActive : ActiveSet noTables where
  infos := [plainIntercept]
  nodup_ids := by decide
  noConflict := by simp

/-- Headers are written, and all streams work. -/
def workingTaps : Taps := ⟨true, fun _ => .sending⟩

/-- Without wiretaps the request goes to the intercept; a wiretap for another
path diverts it to the application container, and one for its own path holds it
up. -/
theorem wiretap_diverts_request :
    route noTables (configured {} plainActive.toInterceptSet ⟨[], by decide⟩) workingTaps
        ⟨"/", ∅⟩ = .intercept plainIntercept ∧
      route noTables (configured {} plainActive.toInterceptSet ⟨[pathWiretap], by decide⟩)
        workingTaps ⟨"/", ∅⟩ = .appContainer ∧
      route noTables (configured {} plainActive.toInterceptSet ⟨[pathWiretap], by decide⟩)
        workingTaps ⟨"/api", ∅⟩ = .undelivered :=
  ⟨rfl, rfl, rfl⟩

end Telepresence.Fwd
