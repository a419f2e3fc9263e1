import Telepresence.Lib.Overwrites
import Telepresence.WorkloadWatcher

/-!
# What subscribers to the workloads know

A subscriber applies its initial list and then the batches that it receives.
`Subscribe` lists the workloads before it registers its channel, so that a batch
that a callback takes in between is not sent to it; and two callbacks that run at
the same time may send to it in the wrong order.

Events are assignments to the key of their workload, and only the last one about a
key matters.  So it does no harm that a subscriber gets events which are older than
its list (`Leads.of_append`), as long as no newer one is missing.

* `subscribers_up_to_date`: once everything is delivered, a subscriber has exactly
  the workloads that there are, in a run in which a callback takes no event about a
  workload that has changed since an unfinished `Subscribe` has listed it,
  callbacks send to a subscriber in the order in which they took their events, and
  no update makes a workload one that is not watched.
-/

namespace Telepresence.WorkloadWatch

open List Option Function Settings Inventories

open Workloads (Workload Event EventType)
open Runs Overwrites

variable {ω : Type}

/-! ## What is compared -/

/-- A workload up to what `compareOptions` ignores. -/
structure Essence (ω : Type) where
  kind : String
  name : String
  labels : String → Option String
  annotations : String → Option String
  ownerReferences : List OwnerReference
  conditions : List Condition
  status : Option ω
  rest : ω

/-- What is compared of a workload. -/
def essence (wl : Workload (Object ω)) : Essence ω where
  kind := wl.kind
  name := wl.name
  labels := comparedEntry wl.desc.labels
  annotations := comparedEntry wl.desc.annotations
  ownerReferences := wl.desc.ownerReferences
  conditions := comparedConditions wl
  status := comparedStatus wl
  rest := wl.desc.rest

theorem mapsEqual_iff {a b : GoMap String String} :
    mapsEqual a b = true ↔ comparedEntry a = comparedEntry b := by
  rw [mapsEqual, List.all_eq_true]
  constructor
  · intro h
    funext key
    by_cases hkey : key ∈ a.keys ++ b.keys
    · exact of_decide_eq_true (h key hkey)
    · obtain ⟨ha, hb⟩ := not_or.mp (List.mem_append.not.mp hkey)
      rw [comparedEntry, comparedEntry, AList.lookup_eq_none.mpr ha, AList.lookup_eq_none.mpr hb]
  · intro h key _
    exact decide_eq_true (congrFun h key)

theorem cmpEqual_iff [DecidableEq ω] {a b : Workload (Object ω)} :
    cmpEqual a b = true ↔ essence a = essence b := by
  simp only [cmpEqual, Bool.and_eq_true, decide_eq_true_eq, mapsEqual_iff, essence,
    Essence.mk.injEq, and_assoc]

namespace Settings

variable (w : Settings)

/-- The watcher reports the workload. -/
def wanted (wl : Workload (Object ω)) : Bool := w.watches wl.kind && w.admits wl && notManager wl

/-- What a subscriber is to know about the workloads in a store. -/
def shown (store : GoMap Key (Workload (Object ω))) (k : Key) : Option (Essence ω) :=
  ((store.lookup k).filter w.wanted).map essence

end Settings

variable {w : Settings} {k : Key}

/-- The labels of the traffic manager are not ignored. -/
theorem wanted_congr {a b : Workload (Object ω)} (h : essence a = essence b) (hns : a.ns = b.ns) :
    w.wanted a = w.wanted b := by
  simp only [essence, Essence.mk.injEq] at h
  obtain ⟨hkind, _, hlabels, _, howners, _⟩ := h
  have happ : a.desc.labels.lookup "app" = b.desc.labels.lookup "app" := congrFun hlabels "app"
  have htelepresence : a.desc.labels.lookup "telepresence" = b.desc.labels.lookup "telepresence" :=
    congrFun hlabels "telepresence"
  simp only [wanted, admits, notManager, hasValidReplicasetOwner,
    trafficManagerMatches, hkind, hns, howners, happ, htelepresence]

/-! ## Events as assignments -/

/-- What an event says. -/
def told (we : Event (Object ω)) : Key × Option (Essence ω) :=
  (keyOf we.workload, if we.type = .deleted then none else some (essence we.workload))

/-- What a subscriber knows, up to what is ignored. -/
def known (view : Key → Option (Workload (Object ω))) (k : Key) : Option (Essence ω) :=
  (view k).map essence

theorem known_foldl (view : Key → Option (Workload (Object ω))) (events : List (Event (Object ω))) :
    known (events.foldl applyEvent view) = overwrite (known view) (events.map told) := by
  induction events generalizing view with
  | nil => rfl
  | cons we events ih =>
    have hone : known (applyEvent view we) =
        update (known view) (told we).1 (told we).2 := by
      funext k
      by_cases hk : k = keyOf we.workload
      · subst hk
        simp only [known, applyEvent, told, update_self]
        split <;> rfl
      · simp only [known, applyEvent, told, update_of_ne hk]
    rw [foldl_cons, ih, hone]
    rfl

variable {we : Event (Object ω)}

/-- Events about other workloads. -/
theorem about_told_eq_nil {events : List (Event (Object ω))}
    (h : ∀ we ∈ events, keyOf we.workload ≠ k) : about k (events.map told) = [] :=
  about_eq_nil (forall_mem_map.mpr h)

/-- What a handler reports says what is shown now, and it reports nothing only if
the same was shown before. -/
theorem leads_toList {event : Option (Event (Object ω))} {b b' : Option (Essence ω)}
    (hsome : ∀ we, event = some we → told we = (k, b')) (hnone : event = none → b = b') :
    Leads (event.toList.map told) k b b' := by
  intro v hv
  cases event with
  | none => exact hv.trans (hnone rfl)
  | some we =>
    rw [toList_some, map_singleton, hsome we rfl]
    exact update_self ..

/-- **What a handler reports.**  If no update makes a workload one that is not
watched, the event says what is shown after the change; and without an event the
same is shown as before. -/
theorem eventOf_spec [DecidableEq ω] {n : Change ω} (hwatches : w.watches k.kind = true)
    (hold : ∀ wl, n.1 = some wl → keyOf wl = k) (hnew : ∀ wl, n.2 = some wl → keyOf wl = k)
    (hstays : ∀ old new, n = (some old, some new) → w.wanted old = true → w.wanted new = true) :
    Leads ((w.eventOf n).toList.map told) k ((n.1.filter w.wanted).map essence)
      ((n.2.filter w.wanted).map essence) := by
  have hwanted : ∀ wl : Workload (Object ω), keyOf wl = k →
      w.wanted wl = (w.admits wl && notManager wl) := by
    intro wl hkey
    have hkind : wl.kind = k.kind := congrArg Key.kind hkey
    rw [wanted, hkind, hwatches, Bool.true_and]
  -- what is equal was watched as well, and the same is shown
  have hequal : ∀ old wl : Workload (Object ω), keyOf old = k → keyOf wl = k →
      cmpEqual wl old = true → essence wl = essence old ∧ w.wanted wl = w.wanted old := by
    intro old wl hkeyOld hkey heq
    have hessence := cmpEqual_iff.mp heq
    exact ⟨hessence, wanted_congr hessence (congrArg Key.ns (hkey.trans hkeyOld.symm))⟩
  refine leads_toList ?_ ?_
  · intro we hwe
    obtain ⟨old | oldWl, new | wl⟩ := n <;> grind [eventOf, told]
  · intro hnone
    obtain ⟨old | oldWl, new | wl⟩ := n <;> grind [eventOf]

/-- An event is about one of the objects. -/
theorem eventOf_workload [DecidableEq ω] {n : Change ω} (h : w.eventOf n = some we) :
    n.1 = some we.workload ∨ n.2 = some we.workload := by
  obtain ⟨old | oldWl, new | wl⟩ := n <;> grind [eventOf]

/-! ## Changes of the store -/

/-- Each object is stored by its own key. -/
def Keyed (store : GoMap Key (Workload (Object ω))) : Prop :=
  ∀ k wl, store.lookup k = some wl → keyOf wl = k

variable {store store' : GoMap Key (Workload (Object ω))} {n : Change ω}
  {e : Inventories.Event Key (Workload (Object ω))}

section

variable (hkeyed : Keyed store)

include hkeyed

theorem shown_of_not_watches (h : ¬ w.watches k.kind = true) : w.shown store k = none := by
  rw [shown]
  cases hlookup : store.lookup k with
  | none => rfl
  | some wl =>
    have hkind : wl.kind = k.kind := congrArg Key.kind (hkeyed k wl hlookup)
    have hnot : ¬ w.wanted wl = true := by
      intro hwant
      rw [wanted, hkind, Bool.and_assoc, Bool.and_eq_true] at hwant
      exact h hwant.1
    rw [filter_some, if_neg hnot]
    rfl

variable (h : change keyOf store e = some (n, store'))

include h

/-- Both objects of a change have its key. -/
theorem keyOf_change : (∀ wl, n.1 = some wl → keyOf wl = e.key keyOf) ∧
      ∀ wl, n.2 = some wl → keyOf wl = e.key keyOf := by
  obtain ⟨old, new⟩ := n
  obtain ⟨hold, _⟩ := change_spec h
  refine ⟨fun wl hwl => hkeyed _ wl (hold.trans hwl), ?_⟩
  rintro wl ⟨⟩
  exact keyOf_of_change h

theorem Keyed.change : Keyed store' := by
  obtain ⟨_, hkey⟩ := keyOf_change hkeyed h
  obtain ⟨old, new⟩ := n
  obtain ⟨_, hnew, hothers⟩ := change_spec h
  intro k wl hwl
  by_cases hk : k = e.key keyOf
  · subst hk
    exact hkey wl (hnew.symm.trans hwl)
  · exact hkeyed k wl ((hothers k hk).symm.trans hwl)

/-- The event of a change, if there is a handler for its kind. -/
def reported [DecidableEq ω] (w : Settings) (kind : String) (n : Change ω) :
    List (Event (Object ω)) :=
  if w.watches kind then (w.eventOf n).toList else []

theorem reported_key [DecidableEq ω] {kind : String}
    (hwe : we ∈ reported w kind n) : keyOf we.workload = e.key keyOf := by
  obtain ⟨hold, hnew⟩ := keyOf_change hkeyed h
  rw [reported] at hwe
  split at hwe
  · rcases eventOf_workload (mem_toList.mp hwe) with hwl | hwl
    · exact hold _ hwl
    · exact hnew _ hwl
  · cases hwe

/-- What is reported leads from what was shown to what is shown. -/
theorem leads_change [DecidableEq ω]
    (hstays : ∀ old new, n = (some old, some new) → w.wanted old = true → w.wanted new = true)
    (k : Key) :
    Leads ((if k.kind = (e.key keyOf).kind then reported w (e.key keyOf).kind n else []).map told)
      k (w.shown store k) (w.shown store' k) := by
  obtain ⟨hkeyOld, hkeyNew⟩ := keyOf_change hkeyed h
  have hkeyed' := hkeyed.change h
  obtain ⟨old, new⟩ := n
  obtain ⟨hold, hnew, hothers⟩ := change_spec h
  by_cases hk : k = e.key keyOf
  · subst hk
    rw [if_pos rfl, reported]
    by_cases hwatches : w.watches (e.key keyOf).kind = true
    · rw [if_pos hwatches, shown, shown, hold, hnew]
      exact eventOf_spec hwatches hkeyOld hkeyNew hstays
    · rw [if_neg hwatches, shown_of_not_watches hkeyed hwatches,
        shown_of_not_watches hkeyed' hwatches]
      exact leads_nil
  · have habout : about k ((if k.kind = (e.key keyOf).kind then
        reported w (e.key keyOf).kind (old, new) else []).map told) = [] := by
      refine about_told_eq_nil ?_
      intro we hwe heq
      split at hwe
      · exact hk (heq.symm.trans (reported_key hkeyed h hwe))
      · cases hwe
    intro v hv
    rw [overwrite_of_about_nil habout, hv, shown, shown, hothers k hk]

end

/-! ## Listing -/

/-- What `Subscribe` lists is what the handlers report. -/
theorem wanted_iff {kind : String} (hkind : kind ∈ workloadKinds) {wl : Workload (Object ω)}
    (hwl : wl.kind = kind) :
    w.wanted wl = true ↔ w.enabledWorkloadKinds.contains kind = true ∧
      (wl.ns = w.ns && !hasValidReplicasetOwner wl w.enabledWorkloadKinds &&
        !(kind = deploymentKind && trafficManagerMatches wl.desc.labels)) = true := by
  have hcontains := contains_iff_mem.mpr hkind
  simp only [wanted, watches, admits, notManager, hwl,
    hcontains, Bool.and_true, Bool.and_eq_true, and_assoc, decide_eq_true_eq, eq_comm (a := w.ns)]
  rfl

theorem mem_listed {order : GoMap.Order Key (Workload (Object ω))} (hkeyed : Keyed store)
    {kind : String} (hkind : kind ∈ workloadKinds) :
    we ∈ w.listed order store kind ↔ we.type = .added ∧ we.workload.kind = kind ∧
      w.wanted we.workload = true ∧ store.lookup (keyOf we.workload) = some we.workload := by
  have hvisit : ∀ wl : Workload (Object ω), wl ∈ (order.visit store).map (·.2) ↔
      store.lookup (keyOf wl) = some wl := by
    intro wl
    constructor
    · intro hmem
      obtain ⟨⟨k, wl'⟩, hvisit, rfl⟩ := mem_map.mp hmem
      have hlookup := order.mem_visit.mp hvisit
      rw [hkeyed k wl' hlookup]
      exact hlookup
    · intro hlookup
      exact mem_map.mpr ⟨⟨keyOf wl, wl⟩, order.mem_visit.mpr hlookup, rfl⟩
  obtain ⟨type, wl⟩ := we
  have hwanted := @wanted_iff ω w kind hkind wl
  rw [listed]
  split
  · rename_i henabled
    simp only [List.mem_map, mem_filter, hvisit, Bool.and_assoc, Bool.and_eq_true (decide _)]
    grind
  · grind

/-- A list of one kind leads to what is shown. -/
theorem leads_listed {order : GoMap.Order Key (Workload (Object ω))} (hkeyed : Keyed store)
    (hkind : k.kind ∈ workloadKinds) :
    Leads ((w.listed order store k.kind).map told) k none (w.shown store k) := by
  have hvalue : ∀ x ∈ (w.listed order store k.kind).map told, x.1 = k →
      x.2 = w.shown store k := by
    intro x hx hkey
    obtain ⟨we, hwe, rfl⟩ := mem_map.mp hx
    obtain ⟨htype, _, hwant, hlookup⟩ := (mem_listed hkeyed hkind).mp hwe
    have hkey : keyOf we.workload = k := hkey
    rw [hkey] at hlookup
    rw [told, htype, shown, hlookup, filter_some, if_pos hwant]
    rfl
  refine leads_of_forall hvalue ?_
  cases hshown : w.shown store k with
  | none => exact .inr rfl
  | some x =>
    obtain ⟨wl, hfilter, _⟩ := map_eq_some_iff.mp hshown
    obtain ⟨hlookup, hwant⟩ := filter_eq_some_iff.mp hfilter
    have hkey := hkeyed k wl hlookup
    have hmem : (⟨.added, wl⟩ : Event (Object ω)) ∈ w.listed order store k.kind := by
      refine (mem_listed hkeyed hkind).mpr ⟨rfl, congrArg Key.kind hkey, hwant, ?_⟩
      rw [hkey]
      exact hlookup
    refine .inl (ne_nil_of_mem (mem_filter.mpr ⟨mem_map_of_mem hmem, ?_⟩))
    exact decide_eq_true hkey

/-! ## Whole runs -/

namespace Watcher

/-- Everything has been delivered to the channels. -/
structure Quiet (s : Watcher ω) : Prop where
  handled : ∀ kind ∈ workloadKinds, s.queue kind = []
  reset : ∀ kind ∈ workloadKinds, s.resetting kind = false
  timer : s.timer = false
  firing : s.firing = 0
  sending : s.sending = []
  goesOn : s.done = false

/-- If everything is delivered, a subscriber that has read its channel knows the
workloads that there are. -/
def UpToDate (w : Settings) (s : Watcher ω) : Prop :=
  s.Quiet → ∀ id ∈ s.subscriptions, (s.sub id).buffer = none →
    ∀ k, known (s.sub id).view k = w.shown s.store k

/-- No update makes a workload one that is not watched; a callback takes no event
about a workload that has changed since an unfinished `Subscribe` has listed it;
and it sends to a subscriber after the callbacks that took their events before. -/
def Orderly (w : Settings) (s : Watcher ω) : Action ω → Prop
  | .change e => ∀ old new store,
      Inventories.change keyOf s.store e = some ((some old, some new), store) →
        w.wanted old = true → w.wanted new = true
  | .take _ => ∀ call ∈ s.subscribing, ∀ we ∈ s.events, we.workload.kind ∉ call.todo →
      known (call.initialEvents.foldl applyEvent fun _ => none) (keyOf we.workload) =
        w.shown s.store (keyOf we.workload)
  | .send callback => ∀ id rest events, s.sending[callback]? = some ⟨id :: rest, events⟩ →
      ∀ cb ∈ s.sending.take callback, id ∉ cb.todo
  | _ => True

/-! ## What is on its way -/

/-- What callbacks have still to send to a subscriber. -/
def batches (id : Nat) (cbs : List (Sending ω)) : List (Event (Object ω)) :=
  (cbs.filter fun cb => id ∈ cb.todo).flatMap Sending.events

/-- What a subscriber is still to get of what the callbacks have taken. -/
def toSend (s : Watcher ω) (id : Nat) : List (Event (Object ω)) :=
  (s.sub id).buffer.getD [] ++ batches id s.sending

/-- The events of a kind that no callback has taken. -/
def pending [DecidableEq ω] (w : Settings) (s : Watcher ω) (kind : String) :
    List (Event (Object ω)) :=
  s.events ++ (s.queue kind).filterMap w.eventOf

variable {s t : Watcher ω} {id : Nat} {cbs cbs' : List (Sending ω)}

theorem batches_append : batches id (cbs ++ cbs') = batches id cbs ++ batches id cbs' := by
  rw [batches, filter_append, flatMap_append]
  rfl

variable {cb : Sending ω}

theorem batches_cons_of_mem (h : id ∈ cb.todo) :
    batches id (cb :: cbs) = cb.events ++ batches id cbs := by
  rw [batches, filter_cons_of_pos (by simpa using h), flatMap_cons]
  rfl

theorem batches_cons_of_notMem (h : id ∉ cb.todo) : batches id (cb :: cbs) = batches id cbs := by
  rw [batches, filter_cons_of_neg (by simpa using h)]
  rfl

theorem batches_eq_nil (h : ∀ cb ∈ cbs, id ∉ cb.todo) : batches id cbs = [] := by
  induction cbs with
  | nil => rfl
  | cons cb cbs ih =>
    rw [batches_cons_of_notMem (h cb (mem_cons_self ..))]
    exact ih fun cb' hcb' => h cb' (mem_cons_of_mem _ hcb')

variable {callback : Nat}

/-- One callback, and those before and after it. -/
theorem split_sending (h : s.sending[callback]? = some cb) :
    s.sending = s.sending.take callback ++ cb :: s.sending.drop (callback + 1) ∧
    (∀ cb', s.sending.set callback cb' =
      s.sending.take callback ++ cb' :: s.sending.drop (callback + 1)) ∧
    s.sending.eraseIdx callback =
      s.sending.take callback ++ s.sending.drop (callback + 1) := by
  obtain ⟨hlt, hget⟩ := List.getElem?_eq_some_iff.mp h
  refine ⟨?_, fun cb' => set_eq_take_append_cons_drop.trans (if_pos hlt),
    eraseIdx_eq_take_drop_succ ..⟩
  rw [← hget, ← drop_eq_getElem_cons hlt, take_append_drop]

/-! ## What holds throughout -/

/-- What is on its way leads to what is shown: for every subscriber from what it
knows, for a call of `Subscribe` from what it has listed, and if a subscriber knows
what is shown already, it does afterwards. -/
structure Tracks [DecidableEq ω] (w : Settings) (s : Watcher ω) : Prop where
  keeps : ∀ k, Leads ((s.pending w k.kind).map told) k (w.shown s.store k) (w.shown s.store k)
  subscribed : ∀ id ∈ s.subscriptions, ∀ k,
    overwrite (known (s.sub id).view) ((s.toSend id ++ s.pending w k.kind).map told) k =
      w.shown s.store k
  listed : ∀ call ∈ s.subscribing, ∀ k, k.kind ∉ call.todo →
    overwrite (fun _ => none) ((call.initialEvents ++ s.pending w k.kind).map told) k =
      w.shown s.store k

/-- The rest of what holds. -/
structure Tidy [DecidableEq ω] (w : Settings) (s : Watcher ω) : Prop where
  keyed : Keyed s.store
  queued : ∀ kind, ∀ n ∈ s.queue kind, ∀ we, w.eventOf n = some we → we.workload.kind = kind
  unwatched : ∀ kind, kind ∉ workloadKinds → s.queue kind = [] ∧ s.resetting kind = false
  timed : s.events ≠ [] → s.timer = true ∨ 0 < s.firing ∨ ∃ kind, s.resetting kind = true
  todoKinds : ∀ call ∈ s.subscribing, call.todo <:+ workloadKinds
  listedKinds : ∀ call ∈ s.subscribing, ∀ we ∈ call.initialEvents, we.workload.kind ∉ call.todo
  nodup : s.subscriptions.Nodup
  old : ∀ id ∈ s.subscriptions, id < s.idGen
  todoNodup : ∀ cb ∈ s.sending, cb.todo.Nodup
  todoOld : ∀ cb ∈ s.sending, ∀ id ∈ cb.todo, id < s.idGen

/-- The watcher tracks what it is told, and keeps its subscriptions in order. -/
structure Inv [DecidableEq ω] (w : Settings) (s : Watcher ω) : Prop extends
  Tracks w s, Tidy w s

variable [DecidableEq ω]

/-- When everything is delivered, nothing is on its way. -/
theorem Inv.upToDate (h : s.Inv w) : s.UpToDate w := by
  intro hquiet id hid hbuffer k
  have hidle : ∀ kind, s.queue kind = [] ∧ s.resetting kind = false := by
    intro kind
    by_cases hkind : kind ∈ workloadKinds
    · exact ⟨hquiet.handled kind hkind, hquiet.reset kind hkind⟩
    · exact h.unwatched kind hkind
  have hevents : s.events = [] := by
    by_contra hne
    rcases h.timed hne with htimer | hfiring | ⟨kind, hreset⟩
    · rw [hquiet.timer] at htimer
      cases htimer
    · rw [hquiet.firing] at hfiring
      cases hfiring
    · rw [(hidle kind).2] at hreset
      cases hreset
  have hpending : s.pending w k.kind = [] := by
    rw [pending, hevents, (hidle k.kind).1]
    rfl
  have htoSend : s.toSend id = [] := by
    rw [toSend, hbuffer, hquiet.sending]
    rfl
  have hend := h.subscribed id hid k
  rw [htoSend, hpending] at hend
  exact hend

/-- The step leaves alone what is on its way. -/
theorem Tracks.of_same (h : s.Tracks w) (hstore : t.store = s.store)
    (hpending : ∀ k : Key, about k ((t.pending w k.kind).map told) =
      about k ((s.pending w k.kind).map told))
    (hsubscribed : ∀ id ∈ t.subscriptions, id ∈ s.subscriptions ∧
      (t.sub id).view = (s.sub id).view ∧ t.toSend id = s.toSend id)
    (hlisted : ∀ call ∈ t.subscribing, call ∈ s.subscribing) : t.Tracks w := by
  have hend : ∀ (v : Key → Option (Essence ω)) (es : List (Event (Object ω))) (k : Key),
      overwrite v ((es ++ t.pending w k.kind).map told) k =
        overwrite v ((es ++ s.pending w k.kind).map told) k := by
    intro v es k
    refine overwrite_of_about ?_
    rw [map_append, map_append, about_append, about_append, hpending k]
  refine ⟨?_, ?_, ?_⟩
  · intro k
    rw [hstore]
    exact (h.keeps k).of_about (hpending k).symm
  · intro id hid k
    obtain ⟨hid, hview, htoSend⟩ := hsubscribed id hid
    rw [hend, hstore, hview, htoSend]
    exact h.subscribed id hid k
  · intro call hcall k hk
    rw [hend, hstore]
    exact h.listed call (hlisted call hcall) k hk

/-- The invariant, as long as the watcher's own context is not done. -/
def Kept (w : Settings) (s : Watcher ω) : Prop := s.done = false → s.Inv w

theorem nodup_workloadKinds : workloadKinds.Nodup := by decide

/-- A batch moves from a callback to the channel, where it is behind all that was
taken before. -/
theorem toSend_send (hi : s.Inv w) {rest : List Nat} {events : List (Event (Object ω))}
    (hget : s.sending[callback]? = some ⟨id :: rest, events⟩)
    (hbefore : ∀ cb ∈ s.sending.take callback, id ∉ cb.todo) (hbuffer : (s.sub id).buffer = none)
    (id' : Nat) :
    ((Function.update s.sub id { s.sub id with buffer := some events } id').buffer.getD [] ++
      batches id' (s.sending.set callback ⟨rest, events⟩)) = s.toSend id' := by
  obtain ⟨hsending, hset, _⟩ := split_sending hget
  rw [toSend, hset]
  nth_rewrite 3 [hsending]
  rw [batches_append, batches_append]
  by_cases hid : id' = id
  · subst hid
    have hrest : id' ∉ rest :=
      (nodup_cons.mp (hi.todoNodup _ (mem_of_getElem? hget))).1
    rw [update_self, hbuffer, batches_eq_nil hbefore, batches_cons_of_notMem hrest,
      batches_cons_of_mem (mem_cons_self ..)]
    rfl
  · rw [update_of_ne hid]
    congr 2
    by_cases hmem : id' ∈ rest
    · rw [batches_cons_of_mem hmem, batches_cons_of_mem (mem_cons_of_mem _ hmem)]
    · have hnot : id' ∉ (⟨id :: rest, events⟩ : Sending ω).todo :=
        by simp [hid, hmem]
      rw [batches_cons_of_notMem hmem, batches_cons_of_notMem hnot]

section

variable (hi : s.Inv w)

include hi

theorem Inv.change {e : Inventories.Event Key (Workload (Object ω))}
    (hcond : s.Orderly w (.change e)) (hstep : s.change w e = some t) : t.Inv w := by
  obtain ⟨⟨n, store'⟩, hchange, ht⟩ := map_eq_some_iff.mp hstep
  have hleads := leads_change hi.keyed hchange fun old new hn => hcond old new store' (hn ▸ hchange)
  have hqueue : ∀ kind, t.queue kind = s.queue kind ++
      if kind = (e.key keyOf).kind ∧ w.watches (e.key keyOf).kind = true then [n] else [] := by
    intro kind
    rw [← ht]
    dsimp only
    by_cases hkind : kind = (e.key keyOf).kind
    · subst hkind
      split <;> simp_all
    · split <;> simp [hkind]
  have hpending : ∀ kind, t.pending w kind = s.pending w kind ++
      if kind = (e.key keyOf).kind then reported w (e.key keyOf).kind n else [] := by
    intro kind
    rw [pending, hqueue, filterMap_append, ← append_assoc]
    cases hevent : w.eventOf n <;> grind [pending, reported]
  subst ht
  refine ⟨⟨?_, ?_, ?_⟩, { hi.toTidy with
    keyed := hi.keyed.change hchange, queued := ?_, unwatched := ?_ }⟩
  · intro k
    rw [hpending, map_append]
    exact ((hi.keeps k).append (hleads k)).restart
  · intro id hid k
    rw [hpending, ← append_assoc, map_append, overwrite_append]
    exact hleads k _ (hi.subscribed id hid k)
  · intro call hcall k hk
    rw [hpending, ← append_assoc, map_append, overwrite_append]
    exact hleads k _ (hi.listed call hcall k hk)
  · intro kind n' hn' we hwe
    rw [hqueue] at hn'
    rcases mem_append.mp hn' with hn' | hn'
    · exact hi.queued kind n' hn' we hwe
    · obtain ⟨hold, hnew⟩ := keyOf_change hi.keyed hchange
      have hkey : keyOf we.workload = e.key keyOf := by grind [eventOf_workload hwe]
      grind [keyOf]
  · intro kind hkind
    obtain ⟨hempty, hreset⟩ := hi.unwatched kind hkind
    refine ⟨?_, hreset⟩
    rw [hqueue, hempty, nil_append]
    refine if_neg ?_
    intro ⟨hsame, hwatches⟩
    rw [← hsame, watches, Bool.and_eq_true] at hwatches
    exact hkind (contains_iff_mem.mp hwatches.2)

/-- The handler moves an event from the queue of its kind to the end of `events`. -/
theorem Inv.handle {kind : String} (hstep : s.handle w kind = some t) : t.Inv w := by
  rw [Watcher.handle] at hstep
  split at hstep
  · cases hstep
  split at hstep
  · cases hstep
  rename_i n rest hqueue
  have ht : t.queue = update s.queue kind rest ∧
      t.events = s.events ++ (w.eventOf n).toList ∧
      t.resetting = if (w.eventOf n).isSome then update s.resetting kind true
        else s.resetting := by
    grind
  obtain ⟨htqueue, htevents, htresetting⟩ := ht
  have hframe : t = { s with
      queue := t.queue, events := t.events, resetting := t.resetting } := by
    grind
  rw [hframe]
  have hkinds : ∀ kind', kind' ∉ workloadKinds → kind' ≠ kind := by
    intro kind' hkind' heq
    have hempty := (hi.unwatched kind' hkind').1
    rw [heq, hqueue] at hempty
    cases hempty
  refine ⟨hi.toTracks.of_same rfl ?_ (fun id hid => ⟨hid, rfl, rfl⟩) (fun _ hcall => hcall),
    { hi.toTidy with queued := ?_, unwatched := ?_, timed := ?_ }⟩
  · intro k
    have hwe : ∀ we, w.eventOf n = some we → we.workload.kind = kind :=
      hi.queued kind n (hqueue ▸ mem_cons_self ..)
    rw [pending, pending]
    dsimp only
    rw [htqueue, htevents]
    by_cases hkind : k.kind = kind
    · rw [hkind, hqueue, update_self]
      cases hevent : w.eventOf n <;> simp [hevent]
    · -- the event is about a workload of another kind
      have habout : about k ((w.eventOf n).toList.map told) = [] := by
        refine about_told_eq_nil ?_
        intro we hmem hkey
        exact hkind ((congrArg Key.kind hkey).symm.trans (hwe we (mem_toList.mp hmem)))
      rw [update_of_ne hkind]
      simp only [map_append, about_append, habout, append_nil]
  · intro kind' n' hn' we hwe
    refine hi.queued kind' n' ?_ we hwe
    dsimp only at hn'
    rw [htqueue, update_apply] at hn'
    split at hn' <;> grind
  · intro kind' hkind'
    obtain ⟨hempty, hreset⟩ := hi.unwatched kind' hkind'
    dsimp only
    rw [htqueue, htresetting, update_of_ne (hkinds kind' hkind')]
    refine ⟨hempty, ?_⟩
    split
    · rw [update_of_ne (hkinds kind' hkind')]
      exact hreset
    · exact hreset
  · intro hne
    dsimp only at hne ⊢
    cases hevent : w.eventOf n with
    | none =>
      rw [htevents, hevent, toList_none, append_nil] at hne
      rw [htresetting, hevent]
      exact hi.timed hne
    | some we => exact .inr (.inr ⟨kind, by simp [htresetting, hevent]⟩)

theorem Inv.reset {kind : String} (hstep : s.reset kind = some t) : t.Inv w := by
  rw [Watcher.reset] at hstep
  split at hstep
  · cases hstep
    refine ⟨hi.toTracks.of_same rfl (fun _ => rfl) (fun id hid => ⟨hid, rfl, rfl⟩)
      (fun _ hcall => hcall), { hi.toTidy with unwatched := ?_, timed := fun _ => .inl rfl }⟩
    intro kind' hkind'
    obtain ⟨hempty, hreset⟩ := hi.unwatched kind' hkind'
    exact ⟨hempty, by simp [update_apply, hreset]⟩
  · cases hstep

theorem Inv.fire (hstep : s.fire = some t) : t.Inv w := by
  rw [Watcher.fire] at hstep
  split at hstep
  · cases hstep
    exact ⟨hi.toTracks.of_same rfl (fun _ => rfl) (fun id hid => ⟨hid, rfl, rfl⟩)
      (fun _ hcall => hcall),
      { hi.toTidy with timed := fun _ => .inr (.inl (Nat.succ_pos _)) }⟩
  · cases hstep

/-- A callback takes the events: those who have subscribed are going to get them,
and those who have listed the workloads know about them. -/
theorem Inv.take {ss : List Nat} (hcond : s.Orderly w (.take ss))
    (hstep : s.take ss = some t) : t.Inv w := by
  rw [Watcher.take] at hstep
  split at hstep
  · rename_i hguard
    obtain ⟨_, hperm⟩ := hguard
    cases hstep
    have hkeeps : ∀ k, Leads (((s.queue k.kind).filterMap w.eventOf).map told) k
        (w.shown s.store k) (w.shown s.store k) := by
      intro k
      have hall := hi.keeps k
      rw [pending, map_append] at hall
      exact hall.of_append
    refine ⟨⟨hkeeps, ?_, ?_⟩, { hi.toTidy with timed := ?_, todoNodup := ?_, todoOld := ?_ }⟩
    · intro id hid k
      have hmem : id ∈ (⟨ss, s.events⟩ : Sending ω).todo := hperm.mem_iff.mpr hid
      have hall := hi.subscribed id hid k
      rw [pending, toSend] at hall ⊢
      dsimp only
      rw [batches_append, batches_cons_of_mem hmem, batches_eq_nil (fun _ hcb => absurd hcb
        not_mem_nil), append_nil, nil_append, ← append_assoc,
        append_assoc]
      exact hall
    · intro call hcall k hk
      have hall := hi.listed call hcall k hk
      rw [pending] at hall ⊢
      dsimp only
      rw [nil_append]
      by_cases habout : about k (s.events.map told) = []
      · rw [← hall]
        refine overwrite_of_about ?_
        simp only [map_append, about_append, habout, nil_append]
      · -- some event about the workload is taken, and the list is newer
        obtain ⟨x, hx⟩ := exists_mem_of_ne_nil _ habout
        obtain ⟨hmem, hkey⟩ := mem_filter.mp hx
        obtain ⟨we, hwe, rfl⟩ := mem_map.mp hmem
        have hkey : keyOf we.workload = k := of_decide_eq_true hkey
        have hkind : we.workload.kind ∉ call.todo := by
          rw [show we.workload.kind = k.kind from congrArg Key.kind hkey]
          exact hk
        have hknown := hcond call hcall we hwe hkind
        rw [hkey, known_foldl] at hknown
        rw [map_append, overwrite_append]
        exact hkeeps k _ hknown
    · exact fun hne => absurd rfl hne
    · refine forall_mem_concat.mpr ⟨hi.todoNodup, ?_⟩
      exact hperm.nodup_iff.mpr hi.nodup
    · refine forall_mem_concat.mpr ⟨hi.todoOld, ?_⟩
      exact fun id hid => hi.old id (hperm.mem_iff.mp hid)
  · cases hstep

theorem Inv.send (hcond : s.Orderly w (.send callback))
    (hstep : s.send callback = some t) : t.Inv w := by
  rw [Watcher.send] at hstep
  split at hstep
  · rename_i id rest events hget
    split at hstep
    · cases hstep
      exact ⟨hi.toTracks.of_same rfl (fun _ => rfl) (fun id hid => ⟨hid, rfl, rfl⟩)
        (fun _ hcall => hcall), { hi.toTidy with }⟩
    · split at hstep
      · cases hstep
      · rename_i hbuffer
        cases hstep
        have hmem := mem_of_getElem? hget
        refine ⟨hi.toTracks.of_same rfl (fun _ => rfl) ?_ (fun _ hcall => hcall),
          { hi.toTidy with todoNodup := ?_, todoOld := ?_ }⟩
        · intro id' hid'
          refine ⟨hid', ?_, toSend_send hi hget (hcond id rest events hget) hbuffer id'⟩
          dsimp only
          rw [update_apply]
          split
          · rename_i hid
            rw [hid]
          · rfl
        · exact forall_mem_set hi.todoNodup (nodup_cons.mp (hi.todoNodup _ hmem)).2
        · exact forall_mem_set hi.todoOld fun id' hid' =>
            hi.todoOld _ hmem id' (mem_cons_of_mem _ hid')
  · cases hstep

theorem Inv.finish (hstep : s.finish callback = some t) : t.Inv w := by
  rw [Watcher.finish] at hstep
  split at hstep
  · rename_i events hget
    cases hstep
    obtain ⟨hsending, _, herase⟩ := split_sending hget
    refine ⟨hi.toTracks.of_same rfl (fun _ => rfl) ?_ (fun _ hcall => hcall),
      { hi.toTidy with
        todoNodup := fun cb hcb => hi.todoNodup cb (mem_of_mem_eraseIdx hcb)
        todoOld := fun cb hcb => hi.todoOld cb (mem_of_mem_eraseIdx hcb) }⟩
    intro id hid
    refine ⟨hid, rfl, ?_⟩
    rw [toSend, toSend]
    dsimp only
    rw [herase]
    nth_rewrite 3 [hsending]
    rw [batches_append, batches_append, batches_cons_of_notMem not_mem_nil]
  · cases hstep

theorem Inv.subscribe :
    ({ s with subscribing := s.subscribing ++ [{}] } : Watcher ω).Inv w := by
  refine ⟨⟨hi.keeps, hi.subscribed, ?_⟩, { hi.toTidy with todoKinds := ?_, listedKinds := ?_ }⟩
  · refine forall_mem_concat.mpr ⟨hi.listed, ?_⟩
    -- nothing is shown of the kinds that are never listed
    intro k hk
    have hnot : ¬ w.watches k.kind = true := by
      intro hwatches
      rw [watches, Bool.and_eq_true] at hwatches
      exact hk (contains_iff_mem.mp hwatches.2)
    have hkeeps := hi.keeps k
    rw [shown_of_not_watches hi.keyed hnot] at hkeeps
    exact (hkeeps _ rfl).trans (shown_of_not_watches hi.keyed hnot).symm
  · exact forall_mem_concat.mpr ⟨hi.todoKinds, suffix_rfl⟩
  · exact forall_mem_concat.mpr ⟨hi.listedKinds, nofun⟩

/-- `Subscribe` lists one more kind: what is pending is not newer than the list. -/
theorem Inv.list {call : Nat} {order : GoMap.Order Key (Workload (Object ω))}
    (hstep : s.list w call order = some t) : t.Inv w := by
  rw [Watcher.list] at hstep
  split at hstep
  · rename_i kind todo initialEvents hget
    cases hstep
    have hmem := mem_of_getElem? hget
    have hsuffix : kind :: todo <:+ workloadKinds := hi.todoKinds _ hmem
    have hkind : kind ∈ workloadKinds := hsuffix.subset (mem_cons_self ..)
    have hnodup : (kind :: todo).Nodup := nodup_workloadKinds.sublist hsuffix.sublist
    have hnew : ∀ we ∈ w.listed order s.store kind, we.workload.kind = kind := by
      intro we hwe
      exact ((mem_listed hi.keyed hkind).mp hwe).2.1
    refine ⟨⟨hi.keeps, hi.subscribed, ?_⟩,
      { hi.toTidy with todoKinds := ?_, listedKinds := ?_ }⟩
    · refine forall_mem_set hi.listed ?_
      intro k hk
      dsimp only at hk ⊢
      by_cases hkk : k.kind = kind
      · subst hkk
        have hbefore : about k (initialEvents.map told) = [] := by
          refine about_told_eq_nil ?_
          intro we hwe hkey
          refine hi.listedKinds _ hmem we hwe ?_
          rw [show we.workload.kind = k.kind from congrArg Key.kind hkey]
          exact mem_cons_self ..
        have hlisted : Leads ((w.listed order s.store k.kind).map told) k none
            (w.shown s.store k) := leads_listed hi.keyed hkind
        have hleads := hlisted.append (hi.keeps k)
        rw [append_assoc, map_append, overwrite_append, map_append]
        exact hleads _ (overwrite_of_about_nil hbefore)
      · have hbefore : k.kind ∉ kind :: todo := by simp [hkk, hk]
        have habout : about k ((w.listed order s.store kind).map told) = [] := by
          refine about_told_eq_nil ?_
          intro we hwe hkey
          exact hkk ((congrArg Key.kind hkey).symm.trans (hnew we hwe))
        rw [← hi.listed _ hmem k hbefore]
        refine overwrite_of_about ?_
        simp only [map_append, about_append, habout, append_nil]
        rfl
    · exact forall_mem_set hi.todoKinds ((suffix_cons kind todo).trans hsuffix)
    · refine forall_mem_set hi.listedKinds (forall_mem_append.mpr ⟨?_, ?_⟩)
      · exact fun we hwe hin => hi.listedKinds _ hmem we hwe (mem_cons_of_mem _ hin)
      · intro we hwe
        rw [hnew we hwe]
        exact (nodup_cons.mp hnodup).1
  · cases hstep

/-- The initial events are in the new channel, and what is pending comes later. -/
theorem Inv.register {call : Nat} (hstep : s.register call = some t) : t.Inv w := by
  rw [Watcher.register] at hstep
  split at hstep
  · rename_i initialEvents hget
    cases hstep
    have hmem := mem_of_getElem? hget
    refine ⟨⟨hi.keeps, ?_, ?_⟩, { hi.toTidy with
      todoKinds := ?_, listedKinds := ?_, nodup := ?_, old := ?_, todoOld := ?_ }⟩
    · refine forall_mem_concat.mpr ⟨?_, ?_⟩
      · intro id hid k
        have hne : id ≠ s.idGen := Nat.ne_of_lt (hi.old id hid)
        rw [toSend]
        dsimp only
        rw [update_of_ne hne]
        exact hi.subscribed id hid k
      · intro k
        have hbatches : batches s.idGen s.sending = [] :=
          batches_eq_nil fun cb hcb hin => lt_irrefl _ (hi.todoOld cb hcb _ hin)
        rw [toSend]
        dsimp only
        rw [hbatches, update_self]
        simp only [getD_some, append_nil]
        exact hi.listed _ hmem k not_mem_nil
    · intro call' hcall
      exact hi.listed call' (mem_of_mem_eraseIdx hcall)
    · intro call' hcall
      exact hi.todoKinds call' (mem_of_mem_eraseIdx hcall)
    · intro call' hcall
      exact hi.listedKinds call' (mem_of_mem_eraseIdx hcall)
    · rw [← concat_eq_append]
      exact .concat (fun hid => Nat.lt_irrefl _ (hi.old _ hid)) hi.nodup
    · exact forall_mem_concat.mpr
        ⟨fun id hid => Nat.lt_succ_of_lt (hi.old id hid), Nat.lt_succ_self _⟩
    · intro cb hcb id hid
      exact Nat.lt_succ_of_lt (hi.todoOld cb hcb id hid)
  · cases hstep

theorem Inv.receive (hstep : s.receive id = some t) : t.Inv w := by
  obtain ⟨events, hbuffer, rfl⟩ := map_eq_some_iff.mp hstep
  refine ⟨⟨hi.keeps, ?_, hi.listed⟩, { hi.toTidy with }⟩
  intro id' hid' k
  have hall := hi.subscribed id' hid' k
  rw [toSend] at hall ⊢
  dsimp only
  by_cases hid : id' = id
  · subst hid
    rw [hbuffer, getD_some, append_assoc, map_append, overwrite_append,
      ← known_foldl] at hall
    rw [update_self]
    exact hall
  · rw [update_of_ne hid]
    exact hall

theorem Inv.close (hstep : s.close id = some t) : t.Inv w := by
  rw [Watcher.close] at hstep
  split at hstep
  · cases hstep
    refine ⟨hi.toTracks.of_same rfl (fun _ => rfl) ?_ (fun _ hcall => hcall),
      { hi.toTidy with }⟩
    intro id' hid'
    rw [toSend, toSend]
    dsimp only
    rw [update_apply]
    split <;> simp_all
  · cases hstep

theorem Inv.remove (hstep : s.remove id = some t) : t.Inv w := by
  rw [Watcher.remove] at hstep
  split at hstep
  · cases hstep
    exact ⟨hi.toTracks.of_same rfl (fun _ => rfl)
      (fun id' hid' => ⟨mem_of_mem_filter hid', rfl, rfl⟩) (fun _ hcall => hcall),
      { hi.toTidy with
        nodup := hi.nodup.filter _
        old := fun id' hid' => hi.old id' (mem_of_mem_filter hid') }⟩
  · cases hstep

end

theorem goesOn_of_step {a : Action ω} (hstep : s.step w a = some t) (hdone : t.done = false) :
    s.done = false := by
  cases a <;> grind [Watcher.step, Watcher.change, Watcher.handle, Watcher.reset, Watcher.fire,
    Watcher.take, Watcher.send, Watcher.finish, Watcher.giveUp, Watcher.list, Watcher.register,
    Watcher.receive, Watcher.close, Watcher.remove, map_eq_some_iff]

theorem Kept.step (h : s.Kept w) {a : Action ω} (hcond : s.Orderly w a)
    (hstep : s.step w a = some t) : t.Kept w := by
  intro hdone
  have hi := h (goesOn_of_step hstep hdone)
  rw [Watcher.step.eq_def] at hstep
  split at hstep
  · cases hstep
  · cases a with
    | change e => exact hi.change hcond hstep
    | handle kind => exact hi.handle hstep
    | reset kind => exact hi.reset hstep
    | fire => exact hi.fire hstep
    | take ss => exact hi.take hcond hstep
    | send callback => exact hi.send hcond hstep
    | finish callback => exact hi.finish hstep
    | giveUp callback =>
      simp only [Watcher.giveUp] at hstep
      split at hstep
      · rename_i hgone
        cases hstep
        exact absurd (hgone.symm.trans hdone) (by decide)
      · cases hstep
    | subscribe =>
      cases hstep
      exact hi.subscribe
    | list call order => exact hi.list hstep
    | register call => exact hi.register hstep
    | receive id => exact hi.receive hstep
    | close id => exact hi.close hstep
    | remove id => exact hi.remove hstep
    | done =>
      cases hstep
      cases hdone

theorem Kept.start : Kept w ({} : Watcher ω) := by
  intro _
  refine ⟨⟨fun k => leads_nil, nofun, nofun⟩,
    ⟨?_, nofun, fun _ _ => ⟨rfl, rfl⟩, fun hne => absurd rfl hne, nofun, nofun, nodup_nil,
      nofun, nofun, nofun⟩⟩
  intro k wl hwl
  rw [AList.lookup_empty] at hwl
  cases hwl

end Watcher

/-- In an orderly run, once everything is delivered a subscriber knows exactly the
workloads that there are, as they are. -/
theorem subscribers_up_to_date [DecidableEq ω] (w : Settings) (as : List (Action ω))
    (hcond : Meets (Watcher.step w) (Watcher.Orderly w) {} as) :
    Always (Watcher.step w) (Watcher.UpToDate w) {} as := by
  have hstart : Watcher.Kept w ({} : Watcher ω) := Watcher.Kept.start
  refine always_of_meets ?_ ?_ hstart hcond
  · intro s h hquiet
    exact (h hquiet.goesOn).upToDate hquiet
  · intro s a t h horderly hstep
    exact h.step horderly hstep

/-- A test for the condition, if nothing is updated and no callback takes events
during a call of `Subscribe`. -/
def Watcher.orderlyTest (s : Watcher ω) : Action ω → Bool
  | .change (.updated _) => false
  | .take _ => s.subscribing.isEmpty
  | .send callback => s.sending.length = 1 && callback = 0
  | _ => true

theorem Watcher.orderly_of_test (w : Settings) (s : Watcher ω) (a : Action ω)
    (h : s.orderlyTest a = true) : s.Orderly w a := by
  cases a with
  | change e =>
    intro old new store hchange
    cases e with
    | added obj =>
      rw [Inventories.change] at hchange
      split at hchange <;> cases hchange
    | updated obj => cases h
    | deleted key =>
      obtain ⟨_, _, heq⟩ := map_eq_some_iff.mp hchange
      cases heq
  | take ss =>
    intro call hcall
    rw [isEmpty_iff.mp h] at hcall
    cases hcall
  | send callback =>
    rw [orderlyTest, Bool.and_eq_true, decide_eq_true_eq, decide_eq_true_eq] at h
    intro id rest events _ cb hcb
    rw [h.2] at hcb
    cases hcb
  | _ => trivial

/-- A Deployment is added before a client subscribes, and deleted later. -/
def comesAndGoes : List (Action Nat) :=
  ([.change (.added (echo 1)), .handle deploymentKind, .reset deploymentKind] :
      List (Action Nat)) ++ subscribing ++
    ([.fire, .take [0], .send 0, .finish 0, .receive 0] : List (Action Nat)) ++
    flushing (.deleted ⟨deploymentKind, "default", "echo"⟩) [0] ++
    ([.send 0, .finish 0, .receive 0] : List (Action Nat))

theorem subscribers_up_to_date_in_time :
    (run (Watcher.step deployments) {} comesAndGoes).isSome = true ∧
    Always (Watcher.step deployments) (Watcher.UpToDate deployments) {} comesAndGoes := by
  refine ⟨by decide +kernel, ?_⟩
  exact subscribers_up_to_date deployments _
    (meets_of_test (Watcher.orderly_of_test deployments) (by decide +kernel))

/-- A Deployment is added after a client has listed the workloads, and its event is
taken before the client is registered. -/
def addedInBetween : List (Action Nat) :=
  ([.subscribe, .list 0 .entries, .list 0 .entries, .list 0 .entries, .list 0 .entries] :
      List (Action Nat)) ++
    flushing (.added (echo 1)) [] ++ ([.finish 0, .register 0, .receive 0] : List (Action Nat))

theorem added_workload_missed :
    ¬ Always (Watcher.step deployments) (Watcher.UpToDate deployments) {} addedInBetween := by
  refine not_always_of_run (Q := fun t =>
    (∀ kind ∈ workloadKinds, (t.queue kind).isEmpty ∧ t.resetting kind = false) →
    t.timer = false → t.firing = 0 → t.sending.isEmpty → t.done = false →
    0 ∈ t.subscriptions → (t.sub 0).buffer.isNone →
      ((t.sub 0).view ⟨deploymentKind, "default", "echo"⟩).isSome =
        ((t.store.lookup ⟨deploymentKind, "default", "echo"⟩).filter deployments.wanted).isSome) ?_
    (by decide +kernel)
  intro t h hkinds htimer hfiring hsending hdone hmem hbuffer
  have hquiet : t.Quiet := ⟨fun kind hkind => isEmpty_iff.mp (hkinds kind hkind).1,
    fun kind hkind => (hkinds kind hkind).2, htimer, hfiring, isEmpty_iff.mp hsending, hdone⟩
  have hsame := congrArg isSome (h hquiet 0 hmem (isNone_iff_eq_none.mp hbuffer)
    ⟨deploymentKind, "default", "echo"⟩)
  rwa [known, isSome_map, shown, isSome_map] at hsame

end Telepresence.WorkloadWatch
