import Telepresence.Cache
import Telepresence.InterceptSpec
import Telepresence.Lib.Runs

/-!
# Filtered subscriptions

The operations of a `cache.Map`, executed one at a time, with subscribers that
filter the entries by key and value.  A delta is filtered by the new value of
an entry, or by its last value if the entry is gone, so a subscriber is never
told that an entry whose value has changed is no longer of interest.

* `replicas_exact_iff`: after a notification and a drain, the replicas hold
  exactly the entries that their filters let through, throughout a run, if and
  only if no write of the run gives an entry that the last snapshot holds and
  a filter lets through a value that this filter stops.
-/

namespace Telepresence.Cache

open Runs List Option

variable {K V : Type} [DecidableEq K]

/-- A filter that does not tell equal values apart. -/
structure Filter (K : Type) {V : Type} (E : Equality V) where
  include_ : Include K V
  respects : Respects E include_

namespace Map

/-- `Compute`. -/
def compute [Inhabited V] (E : Equality V) (m : Map K V) (key : K) (f : Option V → ComputeOp V) : Map K V :=
  match computeOp E f (m.contents.lookup key) with
  | none => m
  | some (w, value) =>
      { m with
        contents := w.apply key m.contents
        subscribers := m.subscribers.map (·.markFor key value) }

/-- What a pass of `notify` does to a subscriber. -/
def visit (ad : AllDelta K V) (sb : Subscription K V) : Subscription K V :=
  if sb.mark then ad.send { sb with mark := false } else sb

/-- The loop of `notify`: another pass as long as something has been sent. -/
def notifyLoop (ad : AllDelta K V) : Nat → List (Subscription K V) → List (Subscription K V)
  | 0, sbs => sbs
  | fuel + 1, sbs =>
      let didSend := sbs.any (·.mark)
      let sbs := sbs.map (visit ad)
      if didSend then notifyLoop ad fuel sbs else sbs

/-- `notify`.  The second pass finds no marks. -/
def notify (E : Equality V) (m : Map K V) : Map K V :=
  { m with
    snapshot := m.contents
    subscribers := notifyLoop (makeDelta E m.snapshot m.contents) 2 m.subscribers }

/-- `Subscribe`. -/
def subscribe (E : Equality V) (m : Map K V) (include_ : Include K V) : Map K V :=
  notify E { m with subscribers := m.subscribers ++ [{ include_ := include_, mark := true }] }

/-- A subscriber reads its channel. -/
def read (m : Map K V) (i : Nat) : Map K V :=
  { m with subscribers := m.subscribers.modify i Subscription.read }

/-- Every subscriber reads its channel. -/
def drain (m : Map K V) : Map K V :=
  { m with subscribers := m.subscribers.map Subscription.read }

end Map

/-- The operations. -/
inductive Op (K : Type) {V : Type} (E : Equality V) where
  | compute (key : K) (f : Option V → ComputeOp V)
  | notify
  | read (i : Nat)
  | subscribe (filter : Filter K E)

/-- One operation after the other. -/
def step [Inhabited V] (E : Equality V) (m : Map K V) : Op K E → Option (Map K V)
  | .compute key f => some (m.compute E key f)
  | .notify => some (m.notify E)
  | .read i => some (m.read i)
  | .subscribe filter => some (m.subscribe E filter.include_)

/-- After a notification and a drain, every replica holds exactly the entries
of the map that its filter lets through. -/
def ReplicasExact (E : Equality V) (m : Map K V) : Prop :=
  ∀ sb ∈ (m.notify E).drain.subscribers,
    Patch.Same E.Rel sb.replica.lookup (filteredMap m.contents sb.include_).lookup

/-- No entry that the snapshot holds and a filter lets through gets a value
that this filter stops. -/
def Stays [Inhabited V] (E : Equality V) (m : Map K V) : Op K E → Prop
  | .compute key f =>
      ∀ fv, computeOp E f (m.contents.lookup key) = some (.put fv, fv) →
        ∀ sb ∈ m.subscribers, ∀ p, m.snapshot.lookup key = some p →
          includes sb.include_ key p = true → includes sb.include_ key fv = true
  | _ => True

/-! ## One notification -/

theorem visit_mark (ad : AllDelta K V) (sb : Subscription K V) : (Map.visit ad sb).mark = false := by
  unfold Map.visit
  split
  · unfold AllDelta.send
    dsimp only
    split <;> rfl
  · rename_i h
    simpa using h

/-- One pass is enough, and the loop ends after the second. -/
theorem notifyLoop_eq (ad : AllDelta K V) (fuel : Nat) (sbs : List (Subscription K V)) :
    Map.notifyLoop ad (fuel + 2) sbs = sbs.map (Map.visit ad) := by
  have hnone : (sbs.map (Map.visit ad)).any (·.mark) = false := by
    simp [visit_mark]
  have hsame : (sbs.map (Map.visit ad)).map (Map.visit ad) = sbs.map (Map.visit ad) := by
    rw [List.map_map]
    apply map_congr_left
    intro sb _
    have hmark := visit_mark ad sb
    rw [Function.comp_apply, Map.visit, if_neg (by simp [hmark])]
  rw [Map.notifyLoop]
  split
  · rw [Map.notifyLoop, hnone, hsame]
    rfl
  · rfl

/-- What holds for a subscriber between the operations. -/
structure SubInv (E : Equality V) (snapshot contents : GoMap K V) (sb : Subscription K V) :
    Prop where
  respects : Respects E sb.include_
  initialized : sb.initialized = true
  /-- It is going to see the filtered snapshot. -/
  view : Patch.Same E.Rel sb.view (filteredMap snapshot sb.include_).lookup
  /-- Without a mark, there is nothing new for it. -/
  quiet : sb.mark = false →
    Patch.Same E.Rel (filteredMap snapshot sb.include_).lookup
      (filteredMap contents sb.include_).lookup
  /-- What was of interest still is. -/
  stay : ∀ k p v, snapshot.lookup k = some p → contents.lookup k = some v →
    includes sb.include_ k p = true → includes sb.include_ k v = true

variable {E : Equality V} {contents : GoMap K V} {sb : Subscription K V}

/-- A subscriber after a notification, once it is going to see the filtered
contents. -/
theorem SubInv.of_view (hresp : Respects E sb.include_) (hinit : sb.initialized = true)
    (hview : Patch.Same E.Rel sb.view (filteredMap contents sb.include_).lookup) :
    SubInv E contents contents sb where
  respects := hresp
  initialized := hinit
  view := hview
  quiet := fun _ => Patch.Same.refl E.equivalence _
  stay := by
    intro k p v hp hv hincl
    rw [hp] at hv
    cases hv
    exact hincl

variable {snapshot : GoMap K V}

/-- The first notification of a new subscriber. -/
theorem SubInv.visit_new (snapshot contents : GoMap K V) {include_ : Include K V}
    (hresp : Respects E include_) :
    SubInv E contents contents (Map.visit (makeDelta E snapshot contents)
      { include_ := include_, mark := true }) := by
  rw [Map.visit, if_pos rfl]
  refine SubInv.of_view (by rw [send_include]; exact hresp) (send_initialized _ _) ?_
  rw [view_send_first E snapshot contents rfl rfl rfl, send_include]
  exact Patch.Same.refl E.equivalence _

section

variable (h : SubInv E snapshot contents sb)

include h

/-- **A notification** brings every subscriber up to date. -/
theorem SubInv.visit :
    SubInv E contents contents (Map.visit (makeDelta E snapshot contents) sb) := by
  unfold Map.visit
  by_cases hmark : sb.mark = true
  · rw [if_pos hmark]
    refine SubInv.of_view (by rw [send_include]; exact h.respects) (send_initialized _ _) ?_
    have hview : ((makeDelta E snapshot contents).send { sb with mark := false }).view =
        ((makeDelta E snapshot contents).patch sb.include_).act sb.view :=
      view_send E snapshot contents h.initialized
    rw [hview, send_include]
    have hcov := (makeDelta_covers h.respects h.stay).congr_left E.equivalence h.view
    exact Patch.act_same (makeDelta_leadsTo E snapshot contents sb.include_) hcov
  · rw [if_neg hmark]
    have hquiet := h.quiet (by simpa using hmark)
    exact SubInv.of_view h.respects h.initialized (h.view.trans E.equivalence hquiet)

/-! ## Writes -/

variable {key : K}

/-- A subscriber after a write, if the write left it unmarked only where there
is nothing new for it and has kept what was of interest. -/
theorem SubInv.write {contents' : GoMap K V} {value : V}
    (hother : ∀ k, k ≠ key → contents'.lookup k = contents.lookup k)
    (hquiet : sb.mark = false → includes sb.include_ key value = false →
      Option.Rel E.Rel ((snapshot.lookup key).filter (includes sb.include_ key))
        ((contents'.lookup key).filter (includes sb.include_ key)))
    (hstay : ∀ p v, snapshot.lookup key = some p → contents'.lookup key = some v →
      includes sb.include_ key p = true → includes sb.include_ key v = true) :
    SubInv E snapshot contents' (sb.markFor key value) := by
  obtain ⟨hincl, hinit, hmark⟩ := markFor_fields sb key value
  refine ⟨?_, ?_, ?_, ?_, ?_⟩
  · rw [hincl]
    exact h.respects
  · rw [hinit]
    exact h.initialized
  · rw [view_markFor, hincl]
    exact h.view
  · rw [hincl]
    intro hunmarked k
    obtain ⟨hm, hvalue⟩ := hmark hunmarked
    have hold := h.quiet hm k
    simp only [lookup_filteredMap] at hold ⊢
    by_cases hk : k = key
    · rw [hk]
      exact hquiet hm hvalue
    · rw [hother k hk]
      exact hold
  · rw [hincl]
    intro k p v hp hv
    by_cases hk : k = key
    · subst hk
      exact hstay p v hp hv
    · rw [hother k hk] at hv
      exact h.stay k p v hp hv

/-- The entry gets a new value. -/
theorem SubInv.put {fv : V}
    (hcond : ∀ p, snapshot.lookup key = some p → includes sb.include_ key p = true →
      includes sb.include_ key fv = true) :
    SubInv E snapshot (contents.insert key fv) (sb.markFor key fv) := by
  apply h.write
  · intro k hk
    exact AList.lookup_insert_ne hk
  · intro _ hfv
    rw [AList.lookup_insert, filter_some, if_neg (by simp [hfv])]
    cases hp : snapshot.lookup key with
    | none => exact .none
    | some p =>
      cases hincl : includes sb.include_ key p with
      | true => rw [hcond p hp hincl] at hfv; cases hfv
      | false =>
        rw [filter_some, if_neg (by simp [hincl])]
        exact .none
  · intro p v hp hv
    rw [AList.lookup_insert] at hv
    cases hv
    exact hcond p hp

/-- The entry is deleted. -/
theorem SubInv.del [Inhabited V] : SubInv E snapshot (contents.erase key)
      (sb.markFor key ((contents.lookup key).getD default)) := by
  apply h.write
  · intro k hk
    exact AList.lookup_erase_ne hk
  · intro hm hvalue
    have hold := h.quiet hm key
    simp only [lookup_filteredMap] at hold
    rw [AList.lookup_erase]
    cases hc : contents.lookup key with
    | none =>
      rw [hc] at hold
      exact hold
    | some v =>
      -- the filter stops the last value, hence also the one in the snapshot
      rw [hc, getD_some] at hvalue
      rw [hc, filter_some, if_neg (by simp [hvalue])] at hold
      exact hold
  · intro p v _ hv
    rw [AList.lookup_erase] at hv
    cases hv

end

/-! ## Runs -/

/-- What holds between the operations. -/
def Inv (E : Equality V) (m : Map K V) : Prop :=
  ∀ sb ∈ m.subscribers, SubInv E m.snapshot m.contents sb

theorem notify_subscribers (E : Equality V) (m : Map K V) :
    (m.notify E).subscribers =
      m.subscribers.map (Map.visit (makeDelta E m.snapshot m.contents)) :=
  notifyLoop_eq _ 0 _

variable {m : Map K V}

theorem inv_notify (h : Inv E m) : Inv E (m.notify E) := by
  intro sb hsb
  rw [notify_subscribers] at hsb
  obtain ⟨old, hold, rfl⟩ := mem_map.mp hsb
  exact (h old hold).visit

theorem visit_include (ad : AllDelta K V) (sb : Subscription K V) :
    (Map.visit ad sb).include_ = sb.include_ := by
  unfold Map.visit
  split
  · rw [send_include]
  · rfl

/-- A notification does not change what a subscriber sees of an entry that its
delta says nothing about. -/
theorem view_visit_of_none {k : K} (hinit : sb.initialized = true)
    (hk : (makeDelta E snapshot contents).patch sb.include_ k = none) :
    (Map.visit (makeDelta E snapshot contents) sb).view k = sb.view k := by
  unfold Map.visit
  split
  · have hview : ((makeDelta E snapshot contents).send { sb with mark := false }).view =
        ((makeDelta E snapshot contents).patch sb.include_).act sb.view :=
      view_send E snapshot contents hinit
    rw [hview, Patch.act, hk]
    rfl
  · rfl

theorem SubInv.read (h : SubInv E snapshot contents sb) : SubInv E snapshot contents sb.read := by
  obtain ⟨hincl, hinit, hmark⟩ := read_fields sb
  refine ⟨?_, ?_, ?_, ?_, ?_⟩
  · rw [hincl]
    exact h.respects
  · rw [hinit]
    exact h.initialized
  · rw [view_read, hincl]
    exact h.view
  · rw [hmark, hincl]
    exact h.quiet
  · rw [hincl]
    exact h.stay

theorem replicasExact_of_inv (h : Inv E m) : ReplicasExact E m := by
  intro sb hsb
  obtain ⟨old, hold, rfl⟩ := mem_map.mp hsb
  have hread := (inv_notify h old hold).read.view
  rw [view_of_drained (read_channel old)] at hread
  exact hread

theorem inv_compute [Inhabited V] (h : Inv E m) {f : Option V → ComputeOp V}
    (hcond : Stays E m (.compute key f)) : Inv E (m.compute E key f) := by
  unfold Map.compute
  cases hop : computeOp E f (m.contents.lookup key) with
  | none => exact h
  | some res =>
    intro sb hsb
    obtain ⟨old, hold, rfl⟩ := mem_map.mp hsb
    unfold computeOp at hop
    split at hop
    · cases hop
    · rename_i fv hf
      split at hop
      · cases hop
      · rename_i hne
        cases hop
        refine (h old hold).put (hcond fv ?_ old hold)
        rw [computeOp, hf]
        exact if_neg hne
    · cases hop
      exact (h old hold).del

theorem inv_step [Inhabited V] {m' : Map K V} {op : Op K E} (h : Inv E m) (hcond : Stays E m op)
    (hstep : step E m op = some m') : Inv E m' := by
  cases op with
  | compute key f =>
    cases hstep
    exact inv_compute h hcond
  | notify =>
    cases hstep
    exact inv_notify h
  | read i =>
    cases hstep
    intro sb hsb
    obtain ⟨j, hj⟩ := mem_iff_getElem?.mp hsb
    simp only [Map.read, getElem?_modify] at hj
    obtain ⟨old, hold, rfl⟩ := map_eq_some_iff.mp hj
    have hinv := h old (mem_of_getElem? hold)
    split
    · exact hinv.read
    · exact hinv
  | subscribe filter =>
    cases hstep
    rw [Inv, Map.subscribe, notify_subscribers, List.forall_mem_map, forall_mem_concat]
    refine ⟨fun old hold => (h old hold).visit, ?_⟩
    exact SubInv.visit_new m.snapshot m.contents filter.respects

/-- A write that makes a filter lose interest leaves the old value in the
replica. -/
theorem not_replicasExact_of_lost [Inhabited V] {m' : Map K V} {op : Op K E} (h : Inv E m)
    (hcond : ¬ Stays E m op) (hstep : step E m op = some m') : ¬ ReplicasExact E m' := by
  cases op with
  | compute key f =>
    cases hstep
    simp only [Stays, not_forall] at hcond
    obtain ⟨fv, hop, sb, hsb, p, hp, hincl, hnot⟩ := hcond
    have hfv : includes sb.include_ key fv = false := by simpa using hnot
    have hsame : sb.markFor key fv = sb := by simp [Subscription.markFor, hfv]
    have hwrite : m.compute E key f =
        { m with contents := m.contents.insert key fv
                 subscribers := m.subscribers.map (·.markFor key fv) } := by
      rw [Map.compute, hop]
      rfl
    rw [hwrite]
    intro hexact
    -- the subscriber still sees the value of the snapshot
    let ad := makeDelta E m.snapshot (m.contents.insert key fv)
    have hnone : ad.patch sb.include_ key = none := by
      simp [ad, patch_makeDelta, hp, hfv]
    have hseen := (h sb hsb).view key
    rw [← view_visit_of_none (h sb hsb).initialized hnone, ← view_read,
      view_of_drained (read_channel _)] at hseen
    simp only [lookup_filteredMap, hp, filter_some, if_pos hincl] at hseen
    -- but its filter stops the new one
    have hmem : Map.visit ad sb ∈ (Map.notify E { m with
        contents := m.contents.insert key fv
        subscribers := m.subscribers.map (·.markFor key fv) }).subscribers := by
      rw [notify_subscribers]
      exact mem_map.mpr ⟨sb, mem_map.mpr ⟨sb, hsb, hsame⟩, rfl⟩
    have hrel := hexact _ (mem_map.mpr ⟨_, hmem, rfl⟩) key
    simp only [(read_fields _).1, visit_include, lookup_filteredMap, AList.lookup_insert,
      filter_some, hfv, Bool.false_eq_true, if_false] at hrel
    have habsurd := Patch.rel_trans E.equivalence (Patch.rel_symm E.equivalence hrel) hseen
    cases habsurd
  | notify | read i | subscribe filter => exact absurd trivial hcond

/-- **Filtered subscriptions.** In every state of a run, a notification and a
drain make every replica equal to the entries that its filter lets through, if
and only if no write of the run gives an entry that the snapshot holds and a
filter lets through a value that this filter stops. -/
theorem replicas_exact_iff [Inhabited V] (E : Equality V) (ops : List (Op K E)) :
    Always (step E) (ReplicasExact E) {} ops ↔ Meets (step E) (Stays E) {} ops := by
  have hinit : Inv E ({} : Map K V) := by
    intro sb hsb
    simp at hsb
  exact always_iff_meets (fun _ => replicasExact_of_inv) (fun _ _ _ => inv_step)
    (fun _ _ _ => not_replicasExact_of_lost) hinit ops

/-- The states in which an agent is sent an intercept. -/
def agentFilter : Filter String (Equality.eq Disposition) where
  include_ := some fun _ d => d ∈ [.waiting, .active, .agentError, .removed]
  respects := by
    intro k v w hvw
    have heq : v = w := by simpa [Equality.eq] using hvw
    rw [heq]

/-- An intercept that an agent has been sent as waiting goes to a state that
the agent's filter stops: the agent keeps it as waiting. -/
theorem replica_keeps_filtered_entry :
    ∃ ops m, Runs.run (step (Equality.eq Disposition)) {} ops = some m ∧
      ¬ ReplicasExact (Equality.eq Disposition) (m : Map String Disposition) := by
  refine ⟨[.subscribe agentFilter, .compute "c:x" (store .waiting), .notify,
    .compute "c:x" (store .noAgent)], _, rfl, ?_⟩
  intro h
  cases h _ mem_cons_self "c:x"

end Telepresence.Cache
