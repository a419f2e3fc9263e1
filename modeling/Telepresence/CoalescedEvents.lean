import Telepresence.Lib.Runs
import Telepresence.WorkloadEvents

/-!
# What a client sees of the workloads

The pending events of `workloadInfoWatcher` are sent from time to time
(`sendEvents`), and a client applies them to its view.  Merging several events
into one must not lose anything: the view has to become what it would be if
each event had been sent by itself.

* A workload event for a name with a pending event is dropped, unless it is a
  delete, so a workload that is deleted and created again stays away, and an
  update of a pending add is lost.
* The removal of one agent sets the state to NO_AGENT even if the workload has
  others.
* A flush by the timer runs beside the loop.  What is merged between its reading
  the pending events and its clearing them is cleared without having been sent.
* `coalescing_loses_nothing`: if every item finds nothing pending for its
  workload, or something that it agrees with, and no flush overlaps with a batch,
  then nothing is lost.
-/

namespace Telepresence.Workloads

open Telepresence.Manager Telepresence.Cache Runs List Function WorkloadEvent

variable {ω : Type}

/-! ## Views -/

/-- What a client knows, by kind and name. -/
abbrev View (ω : Type) := String × String → Option (WorkloadInfo ω)

namespace WorkloadEvent

/-- What a client knows about the workload of an event after it. -/
def result (w : WorkloadEvent ω) : Option (WorkloadInfo ω) :=
  if w.type = .deleted then none else some w.workload

/-- Where a client keeps it. -/
def key (w : WorkloadEvent ω) : String × String := (w.workload.kind, w.workload.name)

/-- The client applies an event. -/
def applyTo (v : View ω) (w : WorkloadEvent ω) : View ω := Function.update v w.key w.result

end WorkloadEvent

/-- What a client is told about a workload, if it is found. -/
def World.tell (W : World ω) (v : View ω) : Option (Workload ω) → View ω
  | some wl => Function.update v (wl.kind, wl.name) (some (W.info wl))
  | none => v

/-- One item by itself: a workload event tells about its workload, and an agent
or an intercept about the workload that it belongs to, as they are. -/
def Item.alone (W : World ω) (ns : String) (v : View ω) : Item ω → View ω
  | .workload we =>
      Function.update v (we.workload.kind, we.workload.name)
        (if we.type = .deleted then none else some (W.info we.workload))
  | .agentRemoved a => W.tell v (W.getWorkload a.name a.namespace_)
  | .agentUpserted a => W.tell v (W.getWorkload a.name a.namespace_)
  | .interceptRemoved ii => W.tell v (W.getWorkload ii.spec.agent ns)
  | .interceptUpserted ii => W.tell v (W.getWorkload ii.spec.agent ns)

/-! ## The watcher and its client -/

/-- A flush that has read the pending events and has not cleared them. -/
structure Flush (ω : Type) where
  evm : Pending ω
  evs : List (WorkloadEvent ω)

/-- The watcher with the view of its client.  `one` records what the view would
be if each item had been sent by itself; nobody reads it. -/
structure Watch (ω : Type) where
  workloadEvents : Pending ω := ∅
  lastEvents : Pending ω := ∅
  flush : Option (Flush ω) := none
  view : View ω
  one : View ω

/-- What the watcher receives, with what it finds when it handles it, or the two
parts of a flush by the timer, which runs in a goroutine of its own. -/
inductive Input (ω : Type) where
  | workloads (W : World ω) (wes : List (Event ω)) (initial : Bool)
  | agents (W : World ω) (order : GoMap.Order String AgentInfo) (delta : Delta String AgentInfo)
  | intercepts (W : World ω) (order : GoMap.Order String InterceptInfo)
      (delta : Delta String InterceptInfo)
  | timer
  | clear

namespace Watch

variable [DecidableEq ω]

/-- The events that `sendEvents` sends: the pending ones, apart from those that
are as they were the last time. -/
def toSend (order : GoMap.Order String (WorkloadEvent ω)) (s : Watch ω) : List (WorkloadEvent ω) :=
  ((order.visit s.workloadEvents).filter fun e =>
    s.lastEvents.lookup e.1 ≠ some e.2).map (·.2)

omit [DecidableEq ω] in
/-- The end of `sendEvents`: `Clear`, and the client applies what is sent. -/
def clear (s : Watch ω) (f : Flush ω) : Watch ω :=
  { s with workloadEvents := ∅, lastEvents := f.evm, view := f.evs.foldl applyTo s.view }

/-- What `sendEvents` reads. -/
def read (order : GoMap.Order String (WorkloadEvent ω)) (s : Watch ω) : Flush ω :=
  ⟨s.workloadEvents, s.toSend order⟩

/-- `sendEvents`, and the client. -/
def sendEvents (order : GoMap.Order String (WorkloadEvent ω)) (s : Watch ω) : Watch ω :=
  s.clear (s.read order)

omit [DecidableEq ω] in
/-- What a handler makes of its items. -/
def handled (W : World ω) (ns : String) (s : Watch ω) (items : List (Item ω)) (p : Pending ω) :
    Watch ω :=
  { s with workloadEvents := p, one := items.foldl (fun v i => i.alone W ns v) s.one }

/-- The loop of `Watch`, and the goroutine of its timer, which only a batch sets
again. -/
def next (order : GoMap.Order String (WorkloadEvent ω)) (ns : String) (s : Watch ω) :
    Input ω → Option (Watch ω)
  | .workloads W wes initial =>
      if wes.isEmpty ∧ initial then some (s.sendEvents order)
      else
        some (s.handled W ns (workloadItems ns wes)
          (handleWorkloadEvents W ns s.workloadEvents wes))
  | .agents W aOrder delta =>
      some (s.handled W ns (agentItems aOrder delta)
        (handleAgentDelta W ns aOrder s.workloadEvents delta))
  | .intercepts W iOrder delta =>
      some (s.handled W ns (interceptItems iOrder delta)
        (handleInterceptDelta W ns iOrder s.workloadEvents delta))
  | .timer => if s.flush.isSome then none else some { s with flush := some (s.read order) }
  | .clear => s.flush.map fun f => { s.clear f with flush := none }

/-- Nothing is lost: if the pending events are sent now, the client sees what
it would see if each item had been sent by itself. -/
def Faithful (order : GoMap.Order String (WorkloadEvent ω)) (s : Watch ω) : Prop :=
  (s.sendEvents order).view = s.one

end Watch

/-! ## When merging is harmless -/

/-- A pending event says that the workload is gone exactly if the workload is
not found, and otherwise describes it as it is found. -/
def Current : Option (WorkloadEvent ω) → Option (Workload ω) → Prop
  | none, _ => True
  | some w, some wl => w.type ≠ .deleted ∧ w.workload.toWorkload = wl
  | some w, none => w.type = .deleted

namespace World

variable (W : World ω)

/-- No agent of the workload remains, and no intercept. -/
def Bare (name ns : String) : Prop := W.hasAgent name ns = false ∧ W.getIntercepts name ns = []

/-- The workload has an agent or an intercept. -/
def Engaged (name ns : String) : Prop := W.hasAgent name ns = true ∨ W.getIntercepts name ns ≠ []

end World

namespace Item

/-- The removal of an agent leaves the workload without any. -/
def LastAgent (W : World ω) (a : AgentInfo) (w : Option (WorkloadEvent ω)) : Prop :=
  Current w (W.getWorkload a.name a.namespace_) ∧
    ((W.getWorkload a.name a.namespace_).isSome → W.Bare a.name a.namespace_)

/-- The pending event, if any, is one that the item can be merged into. -/
def Harmless (W : World ω) (ns : String) (w : Option (WorkloadEvent ω)) : Item ω → Prop
  | .workload we =>
      ∀ e, w = some e →
        if we.type = .deleted then e.workload.kind = we.workload.kind
        else e.type ≠ .deleted ∧ e.workload = W.info we.workload
  | .agentRemoved a => LastAgent W a w
  | .agentUpserted a =>
      if W.state.isInactive a.podUid then LastAgent W a w
      else
        Current w (W.getWorkload a.name a.namespace_) ∧
          ((W.getWorkload a.name a.namespace_).isSome → W.Engaged a.name a.namespace_) ∧
          ∀ e, w = some e → e.workload.agentState = stateOf (W.getIntercepts a.name a.namespace_) →
            e.workload.interceptClients = W.getIntercepts a.name a.namespace_
  | .interceptRemoved ii =>
      Current w (W.getWorkload ii.spec.agent ns) ∧
        ((W.getWorkload ii.spec.agent ns).isSome →
          W.Engaged ii.spec.agent ns ∧ W.clientsOf ii.spec.agent = W.getIntercepts ii.spec.agent ns ∧
            (w.isSome → W.getIntercepts ii.spec.agent ns = []))
  | .interceptUpserted ii =>
      Current w (W.getWorkload ii.spec.agent ns) ∧
        ((W.getWorkload ii.spec.agent ns).isSome →
          W.Engaged ii.spec.agent ns ∧ W.clientsOf ii.spec.agent = W.getIntercepts ii.spec.agent ns)

/-- What a harmless item does to the pending event of its name and to the
view: nothing at all, or the event is the one whose result the view gets. -/
def Sound (i : Item ω) (W : World ω) (ns : String) (w : Option (WorkloadEvent ω)) : Prop :=
  (i.update W ns w = w ∧ ∀ v, i.alone W ns v = v) ∨
    ∃ e, i.update W ns w = some e ∧ e.workload.name = i.name ∧
      (∀ v, i.alone W ns v = e.applyTo v) ∧ ∀ e', w = some e' → e'.workload.kind = e.workload.kind

variable {w : Option (WorkloadEvent ω)}

theorem sound_workload (W : World ω) (ns : String) (we : Event ω)
    (hname : ∀ e, w = some e → e.workload.name = we.workload.name)
    (h : (Item.workload we).Harmless W ns w) : (Item.workload we).Sound W ns w := by
  refine .inr ?_
  cases w with
  | none => exact ⟨⟨we.type, W.info we.workload⟩, rfl, rfl, fun _ => rfl, fun _ he => by cases he⟩
  | some e =>
    have hname := hname e rfl
    have hharmless := h e rfl
    by_cases hdelete : we.type = .deleted
    · rw [if_pos hdelete] at hharmless
      have halone : ∀ (x : WorkloadEvent ω) (v : View ω), x.type = .deleted →
          x.workload = e.workload → (Item.workload we).alone W ns v = x.applyTo v := by
        intro x v htype hworkload
        simp only [alone, applyTo, key, result, hdelete,
          htype, hworkload, hharmless, hname, if_true]
      by_cases htype : e.type = .deleted
      · refine ⟨e, ?_, hname, fun v => halone e v htype rfl, fun e' he' => ?_⟩
        · simp [update, merge, mergeWorkload, htype]
        · cases he'
          rfl
      · refine ⟨⟨.deleted, e.workload⟩, ?_, hname, fun v => halone _ v rfl rfl, fun e' he' => ?_⟩
        · simp [update, merge, mergeWorkload, htype, hdelete]
        · cases he'
          rfl
    · rw [if_neg hdelete] at hharmless
      obtain ⟨htype, hinfo⟩ := hharmless
      refine ⟨e, ?_, hname, fun v => ?_, fun e' he' => ?_⟩
      · simp [update, merge, mergeWorkload, hdelete]
      · simp only [alone, applyTo, key, result, hdelete,
          htype, hinfo, if_false]
        rfl
      · cases he'
        rfl

variable {i : Item ω} {W : World ω} {ns : String}

/-- An item whose workload is not found.  What is pending, if anything, says
that the workload is gone. -/
theorem sound_of_notFound (hcurrent : Current w none) (halone : ∀ v, i.alone W ns v = W.tell v none)
    (hnone : i.merge W ns none = none)
    (hdeleted : ∀ e, e.type = .deleted → i.merge W ns (some e) = none) : i.Sound W ns w := by
  refine .inl ⟨?_, halone⟩
  cases w with
  | none =>
    rw [update, hnone]
    rfl
  | some e =>
    rw [update, hdeleted e hcurrent]
    rfl

variable {wl : Workload ω}

/-- An item whose workload is found.  It writes `as` and `iClients` into the
pending event or into a new one, and these are what the manager has. -/
theorem sound_of_found {as : AgentState} {iClients : List String} {t : EventType}
    (ht : t ≠ .deleted) (hcurrent : Current w (some wl))
    (halone : ∀ v, i.alone W ns v = W.tell v (some wl)) (hname : wl.name = i.name)
    (hinfo : W.info wl = rpcWorkload wl as iClients)
    (hnone : i.merge W ns none = some ⟨t, rpcWorkload wl as iClients⟩)
    (hsome : ∀ e, w = some e → e.type ≠ .deleted →
      i.merge W ns w = some (restate e as iClients) ∨
        i.merge W ns w = none ∧ e.workload = rpcWorkload e.workload.toWorkload as iClients) :
    i.Sound W ns w := by
  refine .inr ?_
  cases w with
  | none =>
    refine ⟨⟨t, rpcWorkload wl as iClients⟩, ?_, hname, fun v => ?_, fun _ he => by cases he⟩
    · rw [update, hnone]
      rfl
    · rw [halone, applyTo, result, if_neg ht, ← hinfo]
      rfl
  | some e =>
    obtain ⟨htype, hwl⟩ := hcurrent
    -- either way the event says what the manager has
    have hevent : ∃ e', i.update W ns (some e) = some e' ∧ e'.type = e.type ∧
        e'.workload = rpcWorkload wl as iClients := by
      rcases hsome e rfl htype with hmerge | ⟨hmerge, hworkload⟩
      · refine ⟨restate e as iClients, ?_, rfl, ?_⟩
        · rw [update, hmerge]
          rfl
        · rw [← hwl]
          rfl
      · refine ⟨e, ?_, rfl, ?_⟩
        · rw [update, hmerge]
          rfl
        · rw [← hwl]
          exact hworkload
    obtain ⟨e', hupdate, htype', hworkload⟩ := hevent
    refine ⟨e', hupdate, ?_, fun v => ?_, fun e'' he'' => ?_⟩
    · rw [hworkload]
      exact hname
    · rw [halone, applyTo, result, htype', if_neg htype,
        key, hworkload, ← hinfo]
      rfl
    · cases he''
      rw [hworkload, ← hwl]
      rfl

theorem info_of_bare (h : W.Bare wl.name wl.ns) : W.info wl = rpcWorkload wl .noAgent [] := by
  simp [World.info, h.1, h.2]

theorem info_of_engaged (h : W.Engaged wl.name wl.ns) :
    W.info wl = rpcWorkload wl (stateOf (W.getIntercepts wl.name wl.ns))
      (W.getIntercepts wl.name wl.ns) := by
  unfold World.info stateOf
  by_cases hclients : W.getIntercepts wl.name wl.ns = []
  · have hagent : W.hasAgent wl.name wl.ns = true := h.resolve_right fun hne => hne hclients
    simp [hclients, hagent]
  · simp [hclients]

/-- The workload of an agent or an intercept that is found has what the
manager knows under that name. -/
theorem info_eq_of_engaged {n : String} (hwl : W.getWorkload n ns = some wl) (h : W.Engaged n ns) :
    W.info wl = rpcWorkload wl (stateOf (W.getIntercepts n ns)) (W.getIntercepts n ns) := by
  obtain ⟨rfl, rfl⟩ := W.getWorkload_key hwl
  exact info_of_engaged h

theorem sound_lastAgent {a : AgentInfo} (hmerge : i.merge W ns = onDeleted W a)
    (hname : i.name = a.name)
    (halone : ∀ v, i.alone W ns v = W.tell v (W.getWorkload a.name a.namespace_))
    (h : LastAgent W a w) : i.Sound W ns w := by
  obtain ⟨hcurrent, hbare⟩ := h
  cases hwl : W.getWorkload a.name a.namespace_ with
  | none =>
    rw [hwl] at hcurrent halone
    refine sound_of_notFound hcurrent halone ?_ ?_
    · rw [hmerge, onDeleted, hwl]
      rfl
    · intro e htype
      rw [hmerge]
      exact if_pos htype
  | some wl =>
    rw [hwl] at hcurrent halone hbare
    obtain ⟨hn, hns⟩ := W.getWorkload_key hwl
    rw [← hn, ← hns] at hbare
    refine sound_of_found (by decide) hcurrent halone (hn.trans hname.symm)
      (info_of_bare (hbare rfl)) (t := .modified) ?_ ?_
    · rw [hmerge, onDeleted, hwl]
      rfl
    · intro e he htype
      rw [hmerge, he]
      exact .inl (if_neg htype)

theorem sound_agentUpserted {a : AgentInfo} (hactive : ¬ W.state.isInactive a.podUid = true)
    (hcurrent : Current w (W.getWorkload a.name a.namespace_))
    (hengaged : (W.getWorkload a.name a.namespace_).isSome → W.Engaged a.name a.namespace_)
    (hclients : ∀ e, w = some e →
      e.workload.agentState = stateOf (W.getIntercepts a.name a.namespace_) →
        e.workload.interceptClients = W.getIntercepts a.name a.namespace_) :
    (Item.agentUpserted a : Item ω).Sound W ns w := by
  have hmerge : (Item.agentUpserted a : Item ω).merge W ns = onUpserted W a :=
    funext fun w => by simp [merge, hactive]
  have halone : ∀ v, (Item.agentUpserted a : Item ω).alone W ns v =
      W.tell v (W.getWorkload a.name a.namespace_) := fun _ => rfl
  cases hwl : W.getWorkload a.name a.namespace_ with
  | none =>
    rw [hwl] at hcurrent halone
    refine sound_of_notFound hcurrent halone ?_ ?_
    · rw [hmerge, onUpserted, hwl]
      rfl
    · intro e htype
      rw [hmerge]
      exact if_pos (.inl htype)
  | some wl =>
    rw [hwl] at hcurrent halone hengaged
    refine sound_of_found (by decide) hcurrent halone (W.getWorkload_key hwl).1
      (info_eq_of_engaged hwl (hengaged rfl)) (t := .added) ?_ ?_
    · rw [hmerge, onUpserted, hwl]
      rfl
    · intro e he htype
      rw [hmerge, he]
      by_cases hstate : e.workload.agentState = stateOf (W.getIntercepts a.name a.namespace_)
      · refine .inr ⟨if_pos (.inr hstate), ?_⟩
        rw [rpcWorkload, ← hstate, ← hclients e he hstate]
      · exact .inl (if_neg fun h => h.elim htype hstate)

/-- An intercept.  What it writes into a pending event is `as`. -/
theorem sound_intercept {n : String} (as : AgentState) (hname : i.name = n)
    (halone : ∀ v, i.alone W ns v = W.tell v (W.getWorkload n ns))
    (hnone : i.merge W ns none = (W.getWorkload n ns).map fun wl =>
      ⟨.modified, rpcWorkload wl (stateOf (W.clientsOf n)) (W.clientsOf n)⟩)
    (hdeleted : ∀ e, e.type = .deleted → i.merge W ns (some e) = none)
    (hsome : ∀ e, e.type ≠ .deleted → i.merge W ns (some e) = some (restate e as (W.clientsOf n)))
    (hcurrent : Current w (W.getWorkload n ns))
    (hfound : (W.getWorkload n ns).isSome → W.Engaged n ns ∧
      W.clientsOf n = W.getIntercepts n ns ∧ (w.isSome → as = stateOf (W.getIntercepts n ns))) :
    i.Sound W ns w := by
  cases hwl : W.getWorkload n ns with
  | none =>
    rw [hwl] at hcurrent halone hnone
    exact sound_of_notFound hcurrent halone hnone hdeleted
  | some wl =>
    rw [hwl] at hcurrent halone hnone hfound
    obtain ⟨hengaged, hclients, has⟩ := hfound rfl
    refine sound_of_found (by decide) hcurrent halone ((W.getWorkload_key hwl).1.trans hname.symm)
      (info_eq_of_engaged hwl hengaged) (t := .modified) ?_ ?_
    · rw [hnone, hclients]
      rfl
    · intro e he htype
      rw [he, hsome e htype, hclients, has (by rw [he]; rfl)]
      exact .inl rfl

/-- **Every item** that is harmless does what it would do by itself. -/
theorem Harmless.sound (hname : ∀ e, w = some e → e.workload.name = i.name)
    (h : i.Harmless W ns w) : i.Sound W ns w := by
  cases i with
  | workload we => exact sound_workload W ns we hname h
  | agentRemoved a => exact sound_lastAgent rfl rfl (fun _ => rfl) h
  | agentUpserted a =>
    simp only [Harmless] at h
    split at h
    · rename_i hinactive
      exact sound_lastAgent (funext fun w => by simp [merge, hinactive]) rfl (fun _ => rfl) h
    · rename_i hactive
      exact sound_agentUpserted hactive h.1 h.2.1 h.2.2
  | interceptRemoved ii =>
    obtain ⟨hcurrent, hfound⟩ := h
    refine sound_intercept (n := ii.spec.agent) .installed rfl (fun _ => rfl) rfl
      (fun e htype => if_pos htype) (fun e htype => if_neg htype) hcurrent ?_
    intro hsome
    obtain ⟨hengaged, hclients, hempty⟩ := hfound hsome
    refine ⟨hengaged, hclients, ?_⟩
    -- INSTALLED is right in a pending event, since no intercept remains
    intro hpending
    rw [hempty hpending]
    rfl
  | interceptUpserted ii =>
    obtain ⟨hcurrent, hfound⟩ := h
    refine sound_intercept (n := ii.spec.agent) (stateOf (W.clientsOf ii.spec.agent)) rfl
      (fun _ => rfl) rfl (fun e htype => if_pos htype)
      (fun e htype => if_neg htype) hcurrent ?_
    intro hsome
    obtain ⟨hengaged, hclients⟩ := hfound hsome
    exact ⟨hengaged, hclients, fun _ => by rw [hclients]⟩

/-- Whatever comes on top of a pending add leaves it an add, unless the
workload is deleted. -/
theorem update_added (W : World ω) (ns : String) {e : WorkloadEvent ω} (he : e.type = .added)
    (hi : ∀ we, i = .workload we → we.type ≠ .deleted) :
    ∃ e', i.update W ns (some e) = some e' ∧ e'.type = .added := by
  have hrestate : ∀ (as : AgentState) (iClients : List String),
      (restate e as iClients).type = .added := fun _ _ => he
  cases i with
  | workload we => exact ⟨e, by simp [update, merge, mergeWorkload, hi we rfl], he⟩
  | agentRemoved a =>
    exact ⟨_, by simp [update, merge, onDeleted, he], hrestate .noAgent []⟩
  | agentUpserted a =>
    simp only [update, merge]
    split
    · exact ⟨_, by simp [onDeleted, he], hrestate .noAgent []⟩
    · simp only [onUpserted]
      split
      · exact ⟨e, rfl, he⟩
      · exact ⟨_, rfl, hrestate _ _⟩
  | interceptRemoved ii =>
    exact ⟨restate e .installed (W.clientsOf ii.spec.agent),
      by simp [update, merge, mergeRemoval, he], hrestate _ _⟩
  | interceptUpserted ii =>
    exact ⟨restate e (stateOf (W.clientsOf ii.spec.agent)) (W.clientsOf ii.spec.agent),
      by simp [update, merge, mergeUpsert, he], hrestate _ _⟩

end Item

/-! ## What is pending and what the client sees -/

/-- The view of the client after the pending events. -/
def shown (p : Pending ω) (v : View ω) : View ω := fun k =>
  match p.lookup k.2 with
  | some w => if w.workload.kind = k.1 then w.result else v k
  | none => v k

/-- What holds between the inputs.  The events of the last time are part of the
view. -/
structure Watch.Inv (s : Watch ω) : Prop where
  named : ∀ n w, s.workloadEvents.lookup n = some w → w.workload.name = n
  shows : s.one = shown s.workloadEvents s.view
  last : ∀ n w, s.lastEvents.lookup n = some w →
    w.workload.name = n ∧ s.view (w.workload.kind, n) = w.result

/-- One item, given what it does to the pending event of its name. -/
theorem shown_handle {W : World ω} {ns : String} {p : Pending ω} {i : Item ω}
    (h : i.Sound W ns (p.lookup i.name)) (v : View ω) :
    shown (i.handle W ns p) v = i.alone W ns (shown p v) := by
  funext k
  obtain ⟨kind, n⟩ := k
  obtain ⟨hsame, halone⟩ | ⟨e, he, hname, halone, hkind⟩ := h
  · rw [halone, shown, shown, Item.lookup_handle]
    by_cases hn : n = i.name
    · rw [if_pos hn, hn, hsame]
    · rw [if_neg hn]
  · rw [halone, applyTo, key, hname, shown, Item.lookup_handle]
    by_cases hn : n = i.name
    · subst hn
      rw [if_pos rfl, he]
      dsimp only
      by_cases hk : e.workload.kind = kind
      · subst hk
        rw [if_pos rfl, update_self]
      · -- another workload of the same name
        rw [if_neg hk, update_of_ne (by simpa using Ne.symm hk), shown]
        dsimp only
        cases hp : p.lookup i.name with
        | none => rfl
        | some w => exact (if_neg fun h => hk ((hkind w hp).symm.trans h)).symm
    · rw [if_neg hn, update_of_ne (by simp [hn]), shown]

/-- The items of an input, one after the other: each finds a pending event that
it can be merged into. -/
def HarmlessAll (W : World ω) (ns : String) : Pending ω → List (Item ω) → Prop
  | _, [] => True
  | p, i :: is => i.Harmless W ns (p.lookup i.name) ∧ HarmlessAll W ns (i.handle W ns p) is

/-- Pending events stay under the names of their workloads. -/
theorem named_handle {W : World ω} {ns : String} {p : Pending ω} {i : Item ω}
    (hnamed : ∀ n w, p.lookup n = some w → w.workload.name = n)
    (h : i.Sound W ns (p.lookup i.name)) (n : String) (w : WorkloadEvent ω)
    (hw : (i.handle W ns p).lookup n = some w) : w.workload.name = n := by
  rw [Item.lookup_handle] at hw
  split at hw
  · rename_i hn
    subst hn
    obtain ⟨hsame, _⟩ | ⟨e, he, hname, _⟩ := h
    · exact hnamed _ w (hsame ▸ hw)
    · rw [he] at hw
      cases hw
      exact hname
  · exact hnamed n w hw

theorem Watch.Inv.handled {s : Watch ω} {W : World ω} {ns : String} {items : List (Item ω)}
    (hinv : s.Inv) (h : HarmlessAll W ns s.workloadEvents items) :
    (s.handled W ns items (handleItems W ns s.workloadEvents items)).Inv := by
  induction items generalizing s with
  | nil => exact hinv
  | cons i items ih =>
    have hsound := h.1.sound fun e he => hinv.named _ e he
    have hstep : (s.handled W ns [i] (i.handle W ns s.workloadEvents)).Inv := by
      refine ⟨fun n w hw => named_handle hinv.named hsound n w hw, ?_, hinv.last⟩
      have hone := shown_handle hsound s.view
      rw [← hinv.shows] at hone
      exact hone.symm
    exact ih hstep h.2

/-! ## Sending -/

/-- The events have different names, so the client ends up with the result of
each. -/
theorem foldl_applyTo {evs : List (WorkloadEvent ω)}
    (hnodup : (evs.map fun e => e.workload.name).Nodup) (v : View ω) :
    (∀ e ∈ evs, (evs.foldl applyTo v) e.key = e.result) ∧
      ∀ k, (∀ e ∈ evs, e.key ≠ k) → (evs.foldl applyTo v) k = v k := by
  induction evs generalizing v with
  | nil => exact ⟨fun e he => absurd he not_mem_nil, fun _ _ => rfl⟩
  | cons e evs ih =>
    rw [map_cons, nodup_cons] at hnodup
    obtain ⟨hmem, hother⟩ := ih hnodup.2 (e.applyTo v)
    constructor
    · intro e' he'
      rcases mem_cons.mp he' with rfl | he'
      · rw [foldl_cons, hother]
        · exact update_self ..
        · intro e'' he'' heq
          refine hnodup.1 (mem_map.mpr ⟨e'', he'', ?_⟩)
          exact congrArg Prod.snd heq
      · exact hmem e' he'
    · intro k hk
      rw [foldl_cons, hother k fun e' he' => hk e' (mem_cons_of_mem _ he')]
      exact update_of_ne (Ne.symm (hk e mem_cons_self)) ..

section Send

variable [DecidableEq ω] (order : GoMap.Order String (WorkloadEvent ω))

theorem mem_toSend {s : Watch ω} {e : WorkloadEvent ω} :
    e ∈ s.toSend order ↔ ∃ n, s.workloadEvents.lookup n = some e ∧
      s.lastEvents.lookup n ≠ some e := by
  simp only [Watch.toSend, mem_map, mem_filter, decide_eq_true_eq]
  constructor
  · intro ⟨x, ⟨hx, hlast⟩, heq⟩
    subst heq
    exact ⟨x.1, order.mem_visit.mp hx, hlast⟩
  · intro ⟨n, hn, hlast⟩
    exact ⟨⟨n, e⟩, ⟨order.mem_visit.mpr hn, hlast⟩, rfl⟩

theorem nodup_toSend {s : Watch ω}
    (hnamed : ∀ n w, s.workloadEvents.lookup n = some w → w.workload.name = n) :
    ((s.toSend order).map fun e => e.workload.name).Nodup := by
  have hkeys : ((order.visit s.workloadEvents).map Sigma.fst).Nodup :=
    ((order.perm s.workloadEvents).map Sigma.fst).nodup_iff.mpr s.workloadEvents.nodupKeys
  have hsub := (filter_sublist (p := fun e => decide (s.lastEvents.lookup e.1 ≠ some e.2))
    (l := order.visit s.workloadEvents)).map Sigma.fst
  have heq : (s.toSend order).map (fun e => e.workload.name) =
      ((order.visit s.workloadEvents).filter fun e =>
        decide (s.lastEvents.lookup e.1 ≠ some e.2)).map Sigma.fst := by
    rw [Watch.toSend, map_map]
    refine map_congr_left ?_
    intro e he
    exact hnamed e.1 e.2 (order.mem_visit.mp (mem_filter.mp he).1)
  rw [heq]
  exact hkeys.sublist hsub

/-- **What the client sees** once the pending events have been sent. -/
theorem view_sendEvents {s : Watch ω} (hinv : s.Inv) :
    (s.sendEvents order).view = shown s.workloadEvents s.view := by
  obtain ⟨hmem, hother⟩ := foldl_applyTo (nodup_toSend order hinv.named) s.view
  have hkey : ∀ n e, s.workloadEvents.lookup n = some e → e.key = (e.workload.kind, n) :=
    fun n e he => by rw [key, hinv.named n e he]
  funext k
  obtain ⟨kind, n⟩ := k
  simp only [Watch.sendEvents, Watch.clear, Watch.read, shown]
  have hsent : ∀ e ∈ s.toSend order, e.key = (kind, n) →
      s.workloadEvents.lookup n = some e ∧ e.workload.kind = kind := by
    intro e he heq
    obtain ⟨n', hn', _⟩ := (mem_toSend order).mp he
    rw [hkey n' e hn', Prod.mk.injEq] at heq
    obtain ⟨rfl, rfl⟩ := heq
    exact ⟨hn', rfl⟩
  cases hp : s.workloadEvents.lookup n with
  | none =>
    refine hother _ fun e he heq => ?_
    rw [hp] at hsent
    cases (hsent e he heq).1
  | some w =>
    dsimp only
    by_cases hk : w.workload.kind = kind
    · rw [if_pos hk, ← hk]
      by_cases hlast : s.lastEvents.lookup n = some w
      · -- it is not sent, but the client has it
        rw [hother]
        · exact (hinv.last n w hlast).2
        · intro e he heq
          obtain ⟨n', hn', hne⟩ := (mem_toSend order).mp he
          rw [hkey n' e hn', Prod.mk.injEq] at heq
          obtain ⟨_, rfl⟩ := heq
          rw [hp] at hn'
          cases hn'
          exact hne hlast
      · rw [← hkey n w hp]
        exact hmem w ((mem_toSend order).mpr ⟨n, hp, hlast⟩)
    · rw [if_neg hk]
      refine hother _ fun e he heq => ?_
      obtain ⟨hn', hkind⟩ := hsent e he heq
      rw [hp] at hn'
      cases hn'
      exact hk hkind

theorem Watch.Inv.sendEvents {s : Watch ω} (hinv : s.Inv) : (s.sendEvents order).Inv := by
  have hview := view_sendEvents order hinv
  refine ⟨?_, ?_, ?_⟩
  · intro n w hw
    rw [Watch.sendEvents, Watch.clear, AList.lookup_empty] at hw
    cases hw
  · have hone : (s.sendEvents order).one = s.one := rfl
    rw [hone, hinv.shows, ← hview]
    funext k
    simp only [shown, Watch.sendEvents, Watch.clear, AList.lookup_empty]
  · intro n w hw
    refine ⟨hinv.named n w hw, ?_⟩
    rw [hview, shown]
    have hlookup : s.workloadEvents.lookup n = some w := hw
    simp only [hlookup, if_true]

/-- A batch does not come in the middle of a flush, and does not merge items that
lose something. -/
def Allowed (ns : String) (s : Watch ω) : Input ω → Prop
  | .workloads W wes _ =>
      s.flush.isNone ∧ HarmlessAll W ns s.workloadEvents (workloadItems ns wes)
  | .agents W aOrder delta =>
      s.flush.isNone ∧ HarmlessAll W ns s.workloadEvents (agentItems aOrder delta)
  | .intercepts W iOrder delta =>
      s.flush.isNone ∧ HarmlessAll W ns s.workloadEvents (interceptItems iOrder delta)
  | .timer | .clear => True

/-- A flush in progress has read what is pending. -/
def Watch.Undisturbed (s : Watch ω) : Prop := ∀ f, s.flush = some f → f = s.read order

omit [DecidableEq ω] in
/-- The invariant is not about the flush. -/
theorem Watch.Inv.of_flush {s : Watch ω} (hinv : s.Inv) (flush : Option (Flush ω)) :
    ({ s with flush } : Watch ω).Inv := ⟨hinv.named, hinv.shows, hinv.last⟩

/-- There is no flush to disturb. -/
theorem Watch.undisturbed_of_isNone {s : Watch ω} (h : s.flush.isNone = true) :
    s.Undisturbed order := by
  intro f hf
  rw [hf] at h
  cases h

theorem inv_next {ns : String} {s s' : Watch ω} {a : Input ω}
    (hinv : s.Inv ∧ s.Undisturbed order) (hallowed : Allowed ns s a)
    (h : s.next order ns a = some s') : s'.Inv ∧ s'.Undisturbed order := by
  obtain ⟨hinv, hflush⟩ := hinv
  cases a with
  | workloads W wes initial =>
    obtain ⟨hnone, hall⟩ := hallowed
    simp only [Watch.next] at h
    split at h
    · cases h
      exact ⟨hinv.sendEvents order, Watch.undisturbed_of_isNone order hnone⟩
    · cases h
      exact ⟨hinv.handled hall, Watch.undisturbed_of_isNone order hnone⟩
  | agents W aOrder delta | intercepts W iOrder delta =>
    obtain ⟨hnone, hall⟩ := hallowed
    cases h
    exact ⟨hinv.handled hall, Watch.undisturbed_of_isNone order hnone⟩
  | timer =>
    simp only [Watch.next] at h
    split at h
    · cases h
    · cases h
      refine ⟨hinv.of_flush _, ?_⟩
      intro f hf
      cases hf
      rfl
  | clear =>
    obtain ⟨f, hf, rfl⟩ := Option.map_eq_some_iff.mp h
    rw [hflush f hf]
    exact ⟨(hinv.sendEvents order).of_flush none, Watch.undisturbed_of_isNone order rfl⟩

/-- A watcher that has just sent everything to a client. -/
def fresh (v : View ω) : Watch ω := { view := v, one := v }

/-- **Coalescing loses nothing** in a run in which each item finds nothing
pending for its workload, or something that it can be merged into, and in which
no flush overlaps with a batch.  An add that is pending stays an add in any
case. -/
theorem coalescing_loses_nothing (ns : String) (v : View ω) (as : List (Input ω))
    (h : Meets (Watch.next order ns) (Allowed ns) (fresh v) as) :
    Always (Watch.next order ns) (Watch.Faithful order) (fresh v) as ∧
      ∀ (W : World ω) (i : Item ω) (e : WorkloadEvent ω), e.type = .added →
        (∀ we, i = .workload we → we.type ≠ .deleted) →
          ∃ e', i.update W ns (some e) = some e' ∧ e'.type = .added := by
  refine ⟨?_, fun W i e he hi => Item.update_added W ns he hi⟩
  have hinit : (fresh v).Inv := by
    refine ⟨?_, ?_, ?_⟩
    · intro n w hw
      rw [fresh, AList.lookup_empty] at hw
      cases hw
    · funext k
      simp only [fresh, shown, AList.lookup_empty]
    · intro n w hw
      rw [fresh, AList.lookup_empty] at hw
      cases hw
  refine always_of_meets (fun s hs => ?_)
    (fun _ _ _ hs hallowed hstep => inv_next order hs hallowed hstep)
    ⟨hinit, Watch.undisturbed_of_isNone order rfl⟩ h
  rw [Watch.Faithful, view_sendEvents order hs.1, hs.1.shows]

end Send

/-! ## The workload echo -/

/-- The workload `echo`. -/
def echo (ready : Nat) : Workload Nat := ⟨"Deployment", "echo", "default", ready⟩

/-- Its agent in a pod. -/
def echoAgent (podUid : String) : AgentInfo where
  name := "echo"
  namespace_ := "default"
  podName := "echo-" ++ podUid
  podIp := "10.0.0.1"
  podUid := podUid

/-- The manager, when `echo` has agents in some pods. -/
def echoWorld (ready : Nat) (pods : List String) : World Nat where
  state := { agents := GoMap.insertAll (·.podUid) (pods.map echoAgent) ∅ }
  getWorkload := fun name ns => some ⟨"Deployment", name, ns, ready⟩
  getWorkload_key := by
    intro name ns wl h
    cases h
    exact ⟨rfl, rfl⟩

/-- The arrival and the removal of an agent. -/
def agentArrives (podUid : String) : Delta String AgentInfo where
  upserts := GoMap.insertAll (·.podUid) [echoAgent podUid] ∅

@[inherit_doc agentArrives]
def agentLeaves (podUid : String) : Delta String AgentInfo where
  removals := GoMap.insertAll (·.podUid) [echoAgent podUid] ∅

/-- The workload is added, its agent arrives before that has been sent, and
later leaves. -/
def echoComesAndGoes : List (Input Nat) :=
  [.workloads (echoWorld 1 []) [⟨.added, echo 1⟩] true,
    .agents (echoWorld 1 ["a"]) .entries (agentArrives "a"), .timer, .clear,
    .agents (echoWorld 1 []) .entries (agentLeaves "a"), .timer, .clear]

/-- Such a run. -/
theorem coalescing_loses_nothing_of_echo :
    Meets (Watch.next .entries "default") (Allowed "default") (fresh fun _ => none)
        echoComesAndGoes ∧
      Always (Watch.next .entries "default") (Watch.Faithful .entries) (fresh fun _ => none)
        echoComesAndGoes := by
  have hmeets : Meets (Watch.next .entries "default") (Allowed "default") (fresh fun _ => none)
      echoComesAndGoes := by
    refine .cons rfl ⟨rfl, ?_, trivial⟩ (.cons rfl ⟨rfl, ⟨?_, ?_, ?_⟩, trivial⟩
      (.cons rfl trivial (.cons rfl trivial (.cons rfl ⟨rfl, ⟨trivial, ?_⟩, trivial⟩
        (.cons rfl trivial (.cons rfl trivial trivial))))))
    · intro e he
      cases he
    · exact ⟨by decide, rfl⟩
    · intro _
      exact .inl (by decide +kernel)
    · intro e he _
      cases he
      decide +kernel
    · intro _
      exact ⟨by decide +kernel, by decide +kernel⟩
  exact ⟨hmeets, (coalescing_loses_nothing .entries "default" _ _ hmeets).1⟩

/-- The client has `echo`. -/
def echoShown : View Nat := fun k =>
  if k = ("Deployment", "echo") then some (rpcWorkload (echo 1) .installed []) else none

/-- **Events are lost.**  A workload that is deleted and added again stays
away, an update of a pending add is dropped, a workload with an agent left has
NO_AGENT, and what comes in the middle of a flush is cleared. -/
theorem events_lost :
    ¬ Always (Watch.next .entries "default") (Watch.Faithful .entries) (fresh echoShown)
        [.workloads (echoWorld 1 ["a"]) [⟨.deleted, echo 1⟩, ⟨.added, echo 1⟩] false] ∧
    ¬ Always (Watch.next .entries "default") (Watch.Faithful .entries) (fresh fun _ => none)
        [.workloads (echoWorld 2 []) [⟨.added, echo 1⟩, ⟨.modified, echo 2⟩] false] ∧
    ¬ Always (Watch.next .entries "default") (Watch.Faithful .entries) (fresh echoShown)
        [.agents (echoWorld 1 ["b"]) .entries (agentLeaves "a")] ∧
    ¬ Always (Watch.next .entries "default") (Watch.Faithful .entries) (fresh fun _ => none)
        [.timer, .workloads (echoWorld 1 []) [⟨.added, echo 1⟩] true, .clear] := by
  refine ⟨?_, ?_, ?_, ?_⟩
  case refine_4 =>
    intro h
    have hview := congrFun (((h.2 _ rfl).2 _ rfl).2 _ rfl) ("Deployment", "echo")
    revert hview
    decide +kernel
  all_goals
    intro h
    have hview := congrFun (h.2 _ rfl) ("Deployment", "echo")
    revert hview
    decide +kernel

end Telepresence.Workloads
