import Mathlib.Data.List.Sort
import Mathlib.Data.String.Basic
import Telepresence.Lib.Threads

/-!
# Subscribers to the namespaces

`namesspacesHandle` of `manager/namespaces` tells its subscribers that the
managed namespaces have changed.  `set` takes the map of the subscribers under
its lock, but the map is a reference: it visits the entries, and sends to each,
when the lock is released.

The steps are those of the source.  A send on a closed channel ends the program;
a map that is written while it is iterated over may do so, and is only recorded.

* `notification_safe_iff`: nothing goes wrong exactly if the map is not written
  while a `set` visits it, and no `set` sends to a subscriber before
  `addSubscriber` does.
-/

namespace Telepresence.Namespaces

open Runs Threads List

/-! ## The code -/

/-- The channel of a subscriber, which has one slot.  `readSince` records that a
notification was read after the last change of the namespaces. -/
structure Channel where
  full : Bool := false
  closed : Bool := false
  readSince : Bool := false

/-- A call of `set`: before it takes the lock, after it has released it, and in
its loop, with the entries that were visited and the one that it sends to. -/
inductive SetRun where
  | starting (namespaces : List String)
  | notifying
  | visiting (visited : List Nat) (ip : Option Nat)

/-- The loop of `set` is running. -/
def SetRun.iterates : SetRun → Bool
  | visiting _ _ => true
  | _ => false

/-- `namesspacesHandle`, with the channels of all subscribers there have been and
the calls in progress: those of `set`, those of `addSubscriber` that have not sent
yet, and those of `removeSubscriber` that have not closed yet.  The identities,
which are unique, are counted.  `raced` records a write of the map during an
iteration, and `panicked` a send on a closed channel. -/
structure Handle where
  namespaces : List String
  interestedParties : List Nat := []
  idGen : Nat := 0
  chan : Nat → Channel := fun _ => {}
  sets : List SetRun := []
  adding : List Nat := []
  closing : List Nat := []
  raced : Bool := false
  panicked : Bool := false

/-- What may happen next. -/
inductive Action where
  | set (namespaces : List String)
  | setLocked (run : Nat)
  | range (run : Nat)
  | visit (run id : Nat)
  | send (run : Nat)
  | finish (run : Nat)
  | addSubscriber
  | post (id : Nat)
  | removeSubscriber (id : Nat)
  | close (id : Nat)
  | receive (id : Nat)

namespace Handle

/-- Some `set` is in its loop. -/
def iterated (h : Handle) : Bool := h.sets.any SetRun.iterates

/-- `interestedParties` is written. -/
def writeParties (h : Handle) (parties : List Nat) : Handle :=
  { h with
    interestedParties := parties
    raced := h.raced || h.iterated }

/-- Change a channel. -/
def onChan (h : Handle) (id : Nat) (f : Channel → Channel) : Handle :=
  { h with chan := Function.update h.chan id (f (h.chan id)) }

/-- The locked part of `set`. -/
def setLocked (h : Handle) (run : Nat) (namespaces : List String) : Handle :=
  let namespaces := namespaces.insertionSort (· ≤ ·)
  if namespaces ≠ h.namespaces then
    { h with
      namespaces
      chan := fun id => { h.chan id with readSince := false }
      sets := h.sets.set run .notifying }
  else { h with sets := h.sets.eraseIdx run }

/-- The `select` in the loop of `set`. -/
def trySend (h : Handle) (id : Nat) : Handle :=
  if (h.chan id).closed then { h with panicked := true }
  else if (h.chan id).full then h
  else h.onChan id fun ch => { ch with full := true }

/-- One step; `none` if the call has to wait, or the program has ended. -/
def step (h : Handle) (a : Action) : Option Handle :=
  if h.panicked then none
  else
    match a with
    | .set namespaces => some { h with sets := h.sets ++ [.starting namespaces] }
    | .setLocked run =>
        match h.sets[run]? with
        | some (.starting namespaces) => some (h.setLocked run namespaces)
        | _ => none
    | .range run =>
        match h.sets[run]? with
        | some .notifying => some { h with sets := h.sets.set run (.visiting [] none) }
        | _ => none
    | .visit run id =>
        match h.sets[run]? with
        | some (.visiting visited none) =>
            if id ∈ h.interestedParties ∧ id ∉ visited then
              some { h with sets := h.sets.set run (.visiting (id :: visited) (some id)) }
            else none
        | _ => none
    | .send run =>
        match h.sets[run]? with
        | some (.visiting visited (some id)) =>
            some (({ h with sets := h.sets.set run (.visiting visited none) } : Handle).trySend id)
        | _ => none
    | .finish run =>
        match h.sets[run]? with
        | some (.visiting visited none) =>
            if ∀ id ∈ h.interestedParties, id ∈ visited then
              some { h with sets := h.sets.eraseIdx run }
            else none
        | _ => none
    | .addSubscriber =>
        some { h.writeParties (h.interestedParties ++ [h.idGen]) with
          idGen := h.idGen + 1
          adding := h.adding ++ [h.idGen]
          chan := Function.update h.chan h.idGen {} }
    | .post id =>
        if id ∈ h.adding ∧ (h.chan id).full = false then
          some { h.onChan id (fun ch => { ch with full := true }) with
            adding := h.adding.filter (· ≠ id) }
        else none
    | .removeSubscriber id =>
        -- the caller has the identity when addSubscriber has returned
        if id ∈ h.adding then none
        else if id ∈ h.interestedParties then
          some { h.writeParties (h.interestedParties.filter (· ≠ id)) with
            closing := h.closing ++ [id] }
        else some h
    | .close id =>
        if id ∈ h.closing then
          some { h.onChan id (fun ch => { ch with closed := true }) with
            closing := h.closing.filter (· ≠ id) }
        else none
    | .receive id =>
        if id ∉ h.adding ∧ (h.chan id).full = true then
          some (h.onChan id fun ch => { ch with full := false, readSince := true })
        else none

/-- No call is in progress. -/
structure Quiet (h : Handle) : Prop where
  sets : h.sets = []
  adding : h.adding = []
  closing : h.closing = []

/-- There was no race and no panic, no call of `addSubscriber` is blocked, and if
nothing is in progress each subscriber has a notification, or has read one since
the last change. -/
structure Safe (h : Handle) : Prop where
  noRace : h.raced = false
  noPanic : h.panicked = false
  neverBlocks : ∀ id ∈ h.adding, (h.chan id).full = false
  notified : h.Quiet → ∀ id ∈ h.interestedParties,
    (h.chan id).full = true ∨ (h.chan id).readSince = true

/-- The map is written only while no `set` visits it, and `set` sends to no
subscriber before `addSubscriber` does. -/
def Calm (h : Handle) : Action → Prop
  | .addSubscriber => h.iterated = false
  | .removeSubscriber id => id ∈ h.interestedParties → h.iterated = false
  | .send run => ∀ visited id, h.sets[run]? = some (.visiting visited (some id)) → id ∉ h.adding
  | _ => True

/-! ## What holds throughout -/

/-- The call of `set` is still going to send to a subscriber. -/
def Reaches (id : Nat) : SetRun → Prop
  | .starting _ => False
  | .notifying => True
  | .visiting visited ip => id ∉ visited ∨ ip = some id

/-- What holds of a handle with the given calls of `set`, whose order does not
matter. -/
structure Inv (h : Handle) (runs : List SetRun) : Prop where
  noRace : h.raced = false
  noPanic : h.panicked = false
  empty : ∀ id ∈ h.adding, (h.chan id).full = false
  told : ∀ id ∈ h.interestedParties, (h.chan id).full = true ∨ (h.chan id).readSince = true ∨
    id ∈ h.adding ∨ ∃ run ∈ runs, Reaches id run
  held : ∀ run ∈ runs, ∀ visited id, run = .visiting visited (some id) →
    id ∈ h.interestedParties
  opened : ∀ id ∈ h.interestedParties, (h.chan id).closed = false
  adding : ∀ id ∈ h.adding, id ∈ h.interestedParties
  closing : ∀ id ∈ h.closing, id ∉ h.interestedParties
  old : ∀ id, id ∈ h.interestedParties ∨ id ∈ h.closing → id < h.idGen

variable {h t : Handle} {runs others : List SetRun} {run : SetRun}

/-- The calls of `set` are different ones, and everyone that they were to reach is
still reached, or has been notified. -/
theorem Inv.setRuns {runs' : List SetRun} (hi : h.Inv runs)
    (htold : ∀ id ∈ h.interestedParties, ∀ run ∈ runs, Reaches id run →
      (h.chan id).full = true ∨ ∃ run' ∈ runs', Reaches id run')
    (hheld : ∀ run ∈ runs', ∀ visited id, run = .visiting visited (some id) →
      id ∈ h.interestedParties) : h.Inv runs' := by
  refine { hi with told := ?_, held := hheld }
  intro id hid
  rcases hi.told id hid with hfull | hread | hadding | ⟨run, hrun, hreaches⟩
  · exact .inl hfull
  · exact .inr (.inl hread)
  · exact .inr (.inr (.inl hadding))
  · exact (htold id hid run hrun hreaches).imp_right fun hruns => .inr (.inr hruns)

theorem Inv.perm {runs' : List SetRun} (hi : h.Inv runs) (hperm : runs.Perm runs') :
    h.Inv runs' :=
  hi.setRuns (fun _ _ run hrun hreaches => .inr ⟨run, hperm.mem_iff.mp hrun, hreaches⟩)
    fun run hrun => hi.held run (hperm.mem_iff.mpr hrun)

/-- The invariant, for the calls that are in progress. -/
def WellKept (h : Handle) : Prop := h.Inv h.sets

theorem Inv.safe (hi : h.Inv h.sets) : h.Safe := by
  refine ⟨hi.noRace, hi.noPanic, hi.empty, ?_⟩
  intro hquiet id hid
  rcases hi.told id hid with hfull | hread | hadding | ⟨run, hrun, _⟩
  · exact .inl hfull
  · exact .inr hread
  · rw [hquiet.adding] at hadding
    cases hadding
  · rw [hquiet.sets] at hrun
    cases hrun

/-- Only what the calls of `set` are is different: one of them has gone on, or is
done, and everyone that it was to reach it still reaches. -/
theorem Inv.goesOn (hi : h.Inv (run :: others)) (next : List SetRun)
    (hreach : ∀ id ∈ h.interestedParties, Reaches id run → ∃ run' ∈ next, Reaches id run')
    (hheld : ∀ run' ∈ next, ∀ visited id, run' = .visiting visited (some id) →
      id ∈ h.interestedParties) : h.Inv (next ++ others) := by
  refine hi.setRuns ?_ ?_
  · intro id hid run' hrun' hreaches
    rcases mem_cons.mp hrun' with rfl | hrun'
    · obtain ⟨run'', hrun'', hreaches⟩ := hreach id hid hreaches
      exact .inr ⟨run'', mem_append_left _ hrun'', hreaches⟩
    · exact .inr ⟨run', mem_append_right _ hrun', hreaches⟩
  · exact forall_mem_append.mpr ⟨hheld, fun run' hrun' => hi.held run' (mem_cons_of_mem _ hrun')⟩

/-- The invariant does not read the calls of `set` that the handle has. -/
theorem Inv.withSets (hi : h.Inv runs) (sets : List SetRun) :
    ({ h with sets } : Handle).Inv runs := { hi with }

/-- A channel changes so that its subscriber is as well informed as before. -/
theorem Inv.onChan (hi : h.Inv runs) (id : Nat) {f : Channel → Channel}
    (hempty : id ∈ h.adding → (f (h.chan id)).full = false)
    (htold : id ∈ h.interestedParties → (f (h.chan id)).full = true ∨
      (f (h.chan id)).readSince = true ∨ id ∈ h.adding ∨ ∃ run ∈ runs, Reaches id run)
    (hopened : id ∈ h.interestedParties → (f (h.chan id)).closed = false) :
    (h.onChan id f).Inv runs := by
  refine { hi with empty := ?_, told := ?_, opened := ?_ }
  · intro id' hid'
    by_cases heq : id' = id
    · subst heq
      simpa [Handle.onChan] using hempty hid'
    · simpa [Handle.onChan, heq] using hi.empty id' hid'
  · intro id' hid'
    by_cases heq : id' = id
    · subst heq
      simpa [Handle.onChan] using htold hid'
    · simpa [Handle.onChan, heq] using hi.told id' hid'
  · intro id' hid'
    by_cases heq : id' = id
    · subst heq
      simpa [Handle.onChan] using hopened hid'
    · simpa [Handle.onChan, heq] using hi.opened id' hid'

theorem not_iterates_of_not_iterated (hi : h.iterated = false) :
    ∀ run ∈ h.sets, ∀ visited ip, run ≠ .visiting visited ip := by
  intro run hrun visited ip heq
  have hnot := any_eq_false.mp hi run hrun
  rw [heq] at hnot
  exact hnot rfl

/-! ## The calls of `set` -/

variable {i : Nat}

theorem Inv.setLocked (hi : h.Inv h.sets) {namespaces : List String}
    (hget : h.sets[i]? = some (.starting namespaces)) :
    (h.setLocked i namespaces).Inv (h.setLocked i namespaces).sets := by
  obtain ⟨hbefore, hset⟩ := perm_of_getElem? hget
  have hi := hi.perm hbefore
  rw [Handle.setLocked]
  dsimp only
  split
  · -- all are to be told, and the call is going to do it
    refine Inv.perm ?_ (hset _).symm
    refine { hi with told := ?_, held := ?_ }
    · intro id _
      exact .inr (.inr (.inr ⟨.notifying, mem_cons_self .., trivial⟩))
    · intro run hrun visited id heq
      rcases mem_cons.mp hrun with rfl | hrun
      · cases heq
      · exact hi.held run (mem_cons_of_mem _ hrun) visited id heq
  · exact (hi.goesOn [] (fun _ _ hreaches => hreaches.elim) nofun).withSets _

theorem Inv.range (hi : h.Inv h.sets) (hget : h.sets[i]? = some .notifying) :
    ({ h with sets := h.sets.set i (.visiting [] none) } : Handle).Inv
      (h.sets.set i (.visiting [] none)) := by
  obtain ⟨hbefore, hset⟩ := perm_of_getElem? hget
  refine Inv.withSets ?_ _
  refine Inv.perm ?_ (hset _).symm
  refine (hi.perm hbefore).goesOn [.visiting [] none] ?_ ?_
  · intro id _ _
    exact ⟨_, mem_singleton_self _, .inl not_mem_nil⟩
  · intro run hrun visited id heq
    rw [mem_singleton.mp hrun] at heq
    cases heq

variable {id : Nat} {visited : List Nat}

theorem Inv.visit (hi : h.Inv h.sets) (hget : h.sets[i]? = some (.visiting visited none))
    (hid : id ∈ h.interestedParties) :
    ({ h with sets := h.sets.set i (.visiting (id :: visited) (some id)) } : Handle).Inv
      (h.sets.set i (.visiting (id :: visited) (some id))) := by
  obtain ⟨hbefore, hset⟩ := perm_of_getElem? hget
  refine Inv.withSets ?_ _
  refine Inv.perm ?_ (hset _).symm
  refine (hi.perm hbefore).goesOn [.visiting (id :: visited) (some id)] ?_ ?_
  · intro id' _ hreaches
    refine ⟨_, mem_singleton_self _, ?_⟩
    rcases hreaches with hnot | hnone
    · by_cases heq : id' = id
      · exact .inr (by rw [heq])
      · exact .inl (not_mem_cons_of_ne_of_not_mem heq hnot)
    · cases hnone
  · intro run hrun visited' id' heq
    rw [mem_singleton.mp hrun] at heq
    cases heq
    exact hid

theorem Inv.finish (hi : h.Inv h.sets) (hget : h.sets[i]? = some (.visiting visited none))
    (hall : ∀ id ∈ h.interestedParties, id ∈ visited) :
    ({ h with sets := h.sets.eraseIdx i } : Handle).Inv (h.sets.eraseIdx i) := by
  obtain ⟨hbefore, _⟩ := perm_of_getElem? hget
  refine Inv.withSets ?_ _
  refine (hi.perm hbefore).goesOn [] ?_ nofun
  intro id hid hreaches
  rcases hreaches with hnot | hnone
  · exact absurd (hall id hid) hnot
  · cases hnone

/-- A subscriber that has been notified need not be reached. -/
theorem Inv.sent (hi : h.Inv (.visiting visited (some id) :: others))
    (hfull : (h.chan id).full = true) : h.Inv (.visiting visited none :: others) := by
  refine hi.setRuns ?_ ?_
  · intro id' _ run hrun hreaches
    rcases mem_cons.mp hrun with rfl | hrun
    · rcases hreaches with hnot | hsame
      · exact .inr ⟨_, mem_cons_self .., .inl hnot⟩
      · cases hsame
        exact .inl hfull
    · exact .inr ⟨run, mem_cons_of_mem _ hrun, hreaches⟩
  · intro run hrun visited' id' heq
    rcases mem_cons.mp hrun with rfl | hrun
    · cases heq
    · exact hi.held run (mem_cons_of_mem _ hrun) visited' id' heq

/-- A send finds the channel open, and leaves a notification there. -/
theorem Inv.send (hi : h.Inv h.sets) (hget : h.sets[i]? = some (.visiting visited (some id)))
    (hid : id ∉ h.adding) :
    (({ h with sets := h.sets.set i (.visiting visited none) } : Handle).trySend id).Inv
      (h.sets.set i (.visiting visited none)) := by
  obtain ⟨hbefore, hset⟩ := perm_of_getElem? hget
  have hi := (hi.perm hbefore).withSets (h.sets.set i (.visiting visited none))
  have hopened := hi.opened id (hi.held _ (mem_cons_self ..) visited id rfl)
  refine Inv.perm ?_ (hset _).symm
  rw [Handle.trySend, if_neg (by rw [hopened]; exact Bool.false_ne_true)]
  split
  · rename_i hfull
    exact hi.sent hfull
  · refine (hi.onChan id (fun hadding => absurd hadding hid) (fun _ => .inl rfl)
      fun _ => hopened).sent ?_
    simp [Handle.onChan]

/-! ## The subscribers -/

section

variable (hi : h.Inv h.sets)

include hi

theorem Inv.addSubscriber (hcalm : h.iterated = false) :
    ({ h.writeParties (h.interestedParties ++ [h.idGen]) with
      idGen := h.idGen + 1
      adding := h.adding ++ [h.idGen]
      chan := Function.update h.chan h.idGen {} } : Handle).Inv h.sets := by
  have hnew : ∀ id, id ∈ h.interestedParties → id ≠ h.idGen := by
    intro id hid heq
    exact absurd (hi.old id (.inl hid)) (by omega)
  refine ⟨?_, hi.noPanic, ?_, ?_, ?_, ?_, ?_, ?_, ?_⟩
  · simp [Handle.writeParties, hi.noRace, hcalm]
  · intro id hid
    rcases mem_append.mp hid with hid | hid
    · simpa [hnew id (hi.adding id hid)] using hi.empty id hid
    · simp [mem_singleton.mp hid]
  · intro id hid
    rcases mem_append.mp hid with hid | hid
    · simp only [Function.update_of_ne (hnew id hid), mem_append]
      rcases hi.told id hid with hfull | hread | hadding | hruns
      · exact .inl hfull
      · exact .inr (.inl hread)
      · exact .inr (.inr (.inl (.inl hadding)))
      · exact .inr (.inr (.inr hruns))
    · exact .inr (.inr (.inl (mem_append_right _ hid)))
  · intro run hrun visited id heq
    exact absurd heq (not_iterates_of_not_iterated hcalm run hrun visited (some id))
  · intro id hid
    rcases mem_append.mp hid with hid | hid
    · simpa [hnew id hid] using hi.opened id hid
    · simp [mem_singleton.mp hid]
  · intro id hid
    rcases mem_append.mp hid with hid | hid
    · exact mem_append_left _ (hi.adding id hid)
    · exact mem_append_right _ hid
  · intro id hid hparty
    rcases mem_append.mp hparty with hparty | hparty
    · exact hi.closing id hid hparty
    · have hlt := hi.old id (.inr hid)
      rw [mem_singleton.mp hparty] at hlt
      exact absurd hlt (Nat.lt_irrefl _)
  · intro id hid
    rcases hid with hid | hid
    · rcases mem_append.mp hid with hid | hid
      · exact Nat.lt_succ_of_lt (hi.old id (.inl hid))
      · rw [mem_singleton.mp hid]
        exact Nat.lt_succ_self _
    · exact Nat.lt_succ_of_lt (hi.old id (.inr hid))

theorem Inv.removeSubscriber (hadding : id ∉ h.adding)
    (hid : id ∈ h.interestedParties) (hcalm : h.iterated = false) :
    ({ h.writeParties (h.interestedParties.filter (· ≠ id)) with
      closing := h.closing ++ [id] } : Handle).Inv h.sets := by
  have hkept : ∀ id', id' ∈ h.interestedParties.filter (· ≠ id) →
      id' ∈ h.interestedParties := fun _ => mem_of_mem_filter
  refine ⟨?_, hi.noPanic, hi.empty, ?_, ?_, ?_, ?_, ?_, ?_⟩
  · simp [Handle.writeParties, hi.noRace, hcalm]
  · intro id' hid'
    exact hi.told id' (hkept id' hid')
  · intro run hrun visited id' heq
    exact absurd heq (not_iterates_of_not_iterated hcalm run hrun visited (some id'))
  · intro id' hid'
    exact hi.opened id' (hkept id' hid')
  · intro id' hid'
    refine mem_filter.mpr ⟨hi.adding id' hid', ?_⟩
    exact decide_eq_true fun heq => hadding (heq ▸ hid')
  · intro id' hid' hparty
    rcases mem_append.mp hid' with hid' | hid'
    · exact hi.closing id' hid' (hkept id' hparty)
    · rw [mem_singleton.mp hid'] at hparty
      exact absurd rfl (of_decide_eq_true (mem_filter.mp hparty).2)
  · intro id' hid'
    rcases hid' with hid' | hid'
    · exact hi.old id' (.inl (hkept id' hid'))
    · rcases mem_append.mp hid' with hid' | hid'
      · exact hi.old id' (.inr hid')
      · rw [mem_singleton.mp hid']
        exact hi.old id (.inl hid)

/-- The initial send of `addSubscriber`. -/
theorem Inv.post (hid : id ∈ h.adding) : ({ h.onChan id (fun ch => { ch with full := true }) with
      adding := h.adding.filter (· ≠ id) } : Handle).Inv h.sets := by
  refine { hi with empty := ?_, told := ?_, opened := ?_, adding := ?_ }
  · intro id' hid'
    obtain ⟨hadding, hne⟩ := mem_filter.mp hid'
    simpa [Handle.onChan, of_decide_eq_true hne] using hi.empty id' hadding
  · intro id' hid'
    by_cases heq : id' = id
    · subst heq
      exact .inl (by simp [Handle.onChan])
    · simpa [Handle.onChan, heq] using hi.told id' hid'
  · intro id' hid'
    by_cases heq : id' = id
    · subst heq
      simpa [Handle.onChan] using hi.opened id' hid'
    · simpa [Handle.onChan, heq] using hi.opened id' hid'
  · intro id' hid'
    exact hi.adding id' (mem_of_mem_filter hid')

theorem Inv.close (hid : id ∈ h.closing) :
    ({ h.onChan id (fun ch => { ch with closed := true }) with
      closing := h.closing.filter (· ≠ id) } : Handle).Inv h.sets := by
  have hparty := hi.closing id hid
  have hchan := hi.onChan id (f := fun ch => { ch with closed := true }) (hi.empty id)
    (fun h => absurd h hparty) (fun h => absurd h hparty)
  refine { hchan with closing := ?_, old := ?_ }
  · intro id' hid'
    exact hchan.closing id' (mem_of_mem_filter hid')
  · intro id' hid'
    exact hchan.old id' (hid'.imp_right mem_of_mem_filter)

/-- **One step.**  A calm step keeps everything safe. -/
theorem Inv.step {a : Action} (ha : h.Calm a) (hstep : h.step a = some t) : t.Inv t.sets := by
  rw [Handle.step.eq_def, if_neg (by simp [hi.noPanic])] at hstep
  cases a with
  | set namespaces =>
    cases hstep
    have hperm : (SetRun.starting namespaces :: h.sets).Perm
        (h.sets ++ [.starting namespaces]) := (perm_append_singleton _ _).symm
    refine Inv.withSets ?_ _
    refine Inv.perm (hi.setRuns ?_ ?_) hperm
    · intro id hid run hrun hreaches
      exact .inr ⟨run, mem_cons_of_mem _ hrun, hreaches⟩
    · intro run hrun visited id heq
      rcases mem_cons.mp hrun with rfl | hrun
      · cases heq
      · exact hi.held run hrun visited id heq
  | setLocked i =>
    dsimp only at hstep
    split at hstep
    · rename_i namespaces hget
      cases hstep
      exact hi.setLocked hget
    · cases hstep
  | range i =>
    dsimp only at hstep
    split at hstep
    · rename_i hget
      cases hstep
      exact hi.range hget
    · cases hstep
  | visit i id =>
    dsimp only at hstep
    split at hstep
    · rename_i visited hget
      split at hstep
      · rename_i hid
        cases hstep
        exact hi.visit hget hid.1
      · cases hstep
    · cases hstep
  | send i =>
    dsimp only at hstep
    split at hstep
    · rename_i visited id hget
      cases hstep
      have hsent := hi.send hget (ha visited id hget)
      have hsets : (({ h with sets := h.sets.set i (.visiting visited none) } :
          Handle).trySend id).sets = h.sets.set i (.visiting visited none) := by
        rw [Handle.trySend]
        split
        · rfl
        · split
          · rfl
          · rfl
      rw [hsets]
      exact hsent
    · cases hstep
  | finish i =>
    dsimp only at hstep
    split at hstep
    · rename_i visited hget
      split at hstep
      · rename_i hall
        cases hstep
        exact hi.finish hget hall
      · cases hstep
    · cases hstep
  | addSubscriber =>
    cases hstep
    exact hi.addSubscriber ha
  | post id =>
    dsimp only at hstep
    split at hstep
    · rename_i hid
      cases hstep
      exact hi.post hid.1
    · cases hstep
  | removeSubscriber id =>
    dsimp only at hstep
    split at hstep
    · cases hstep
    · rename_i hadding
      split at hstep
      · rename_i hid
        cases hstep
        exact hi.removeSubscriber hadding hid (ha hid)
      · cases hstep
        exact hi
  | close id =>
    dsimp only at hstep
    split at hstep
    · rename_i hid
      cases hstep
      exact hi.close hid
    · cases hstep
  | receive id =>
    dsimp only at hstep
    split at hstep
    · rename_i hid
      cases hstep
      exact hi.onChan id (fun hadding => absurd hadding hid.1) (fun _ => .inr (.inl rfl))
        (hi.opened id)
    · cases hstep

/-- A step that is not calm is a race, or leaves `addSubscriber` blocked. -/
theorem not_safe_step {a : Action} (ha : ¬ h.Calm a) (hstep : h.step a = some t) : ¬ t.Safe := by
  intro hsafe
  rw [Handle.step.eq_def, if_neg (by simp [hi.noPanic])] at hstep
  cases a with
  | addSubscriber =>
    cases hstep
    have hrace := hsafe.noRace
    simp only [Handle.writeParties, Bool.or_eq_false_iff] at hrace
    exact ha hrace.2
  | removeSubscriber id =>
    dsimp only at hstep
    split at hstep
    · cases hstep
    · split at hstep
      · cases hstep
        have hrace := hsafe.noRace
        simp only [Handle.writeParties, Bool.or_eq_false_iff] at hrace
        exact ha fun _ => hrace.2
      · rename_i hid
        exact ha fun hparty => absurd hparty hid
  | send i =>
    dsimp only at hstep
    split at hstep
    · rename_i visited id hget
      cases hstep
      apply ha
      intro visited' id' hget'
      rw [hget] at hget'
      cases hget'
      intro hadding
      have hopened := hi.opened id (hi.adding id hadding)
      have hempty := hi.empty id hadding
      -- the slot is taken, and the caller cannot have the channel yet
      have hblocked := hsafe.neverBlocks id
      simp only [Handle.trySend, hopened, hempty, Handle.onChan, Bool.false_eq_true, if_false,
        Function.update_self] at hblocked
      exact absurd (hblocked hadding) (by simp)
    · cases hstep
  | set | setLocked | range | visit | finish | post | close | receive => exact ha trivial

end

end Handle

/-- **Namespace change notification is safe** in a run exactly if every write of
`interestedParties` comes while no `set` visits them, and no `set` sends to a
subscriber whose `addSubscriber` has not sent yet. -/
theorem notification_safe_iff (namespaces : List String) (as : List Action) :
    Always Handle.step Handle.Safe { namespaces } as ↔
      Meets Handle.step Handle.Calm { namespaces } as := by
  have hinit : Handle.WellKept { namespaces } :=
    ⟨rfl, rfl, nofun, nofun, nofun, nofun, nofun, nofun, fun _ h => h.elim nofun nofun⟩
  refine always_iff_meets ?_ ?_ ?_ hinit as
  · intro h hi
    exact Handle.Inv.safe hi
  · intro h a t hi ha hstep
    exact Handle.Inv.step hi ha hstep
  · intro h a t hi ha hstep
    exact Handle.not_safe_step hi ha hstep

/-- The namespaces change after a subscriber is registered and before its initial
notification: `set` fills the only slot, and `addSubscriber` waits for ever. -/
theorem addSubscriber_blocked :
    ¬ Always Handle.step Handle.Safe { namespaces := [] }
      [.addSubscriber, .set ["dev"], .setLocked 0, .range 0, .visit 0 0, .send 0] :=
  not_always_of_run (fun _ h => h.neverBlocks) (by decide +kernel)

end Telepresence.Namespaces
