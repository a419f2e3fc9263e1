import Telepresence.AgentStateFile
import Telepresence.Lib.Threads

/-!
# Concurrent updates of the engagement times

`UpdateLastEngagementTime` reads the whole agent state file, sets the time of
one workload in what it has read and stores the whole file.  There is no lock
around this, so a call can store a file that was read before another call
stored its own.

* `timeIn_update`: the file that a call stores differs from the one it read in
  the time of its own workload only.
* `engagement_times_kept`: if the workloads with a new time at the moment of a
  call's write had one already when the call read the file, its own workload
  apart, then no time is lost.
-/

namespace Telepresence.AgentStates

open Times Threads Runs List Option AgentStateFile

/-! ## The calls -/

/-- What the file holds for a workload; `none` stands for an empty file. -/
def timeIn (yaml : Option Json) (k : WorkloadKey) : Option Time :=
  match yaml.map unmarshalRaw with
  | some (.ok raw) => (raw.lookup k.string).map AgentState.lastEngagementTime
  | _ => none

/-- The file that `UpdateLastEngagementTime` stores, if it does, given what it
has read, the number of the workload's active intercepts and the time. -/
def update (yaml : Option Json) (k : WorkloadKey) (active : Nat) (now : Time) :
    Except String (Option Json) :=
  let store (f : AgentStateFile) : Except String (Option Json) :=
    match (mk (f.agentStates.insert k ⟨now⟩)).marshalJSON with
    | .error e => .error ("error marshalling agent states: " ++ e)
    | .ok data => .ok (some data)
  match yaml with
  | none => store ⟨∅⟩
  | some data =>
      match unmarshalJSON data with
      | .error e => .error ("error unmarshalling agent states: " ++ e)
      | .ok f =>
          let state := (f.agentStates.lookup k).getD ⟨Time.zero⟩
          if state.lastEngagementTime.isZero = false ∧ active = 0 then .ok none else store f

/-- The memory that the calls share.  `written` records the times that were
stored; the calls do not see it. -/
structure Store where
  agentStateYAML : Option Json
  tmConfigMapUpdated : Bool := false
  written : List (WorkloadKey × Time) := []

/-- What a call finds outside of the file. -/
structure Outside where
  activeIntercepts : Nat
  now : Time

/-- The parts of `UpdateLastEngagementTime`.  `seen` is what had been written
when the call read the file. -/
inductive Frame where
  | read (k : WorkloadKey)
  | write (k : WorkloadKey) (time : Time) (data : Json) (seen : List (WorkloadKey × Time))
  | mark

/-- The two parts of a call, with what it finds outside. -/
def exec (sh : Store) : Frame → Outside → Option (Store × List Frame)
  | .read k, o =>
      match update sh.agentStateYAML k o.activeIntercepts o.now with
      | .ok (some data) => some (sh, [.write k o.now.wholeMinuteZone data sh.written])
      | _ => some (sh, [])
  | .write k time data _, _ =>
      some ({ sh with agentStateYAML := some data, written := sh.written ++ [(k, time)] }, [.mark])
  | .mark, _ => some ({ sh with tmConfigMapUpdated := true }, [])

/-- A call of `UpdateLastEngagementTime` for the workload. -/
def updateLastEngagementTime (k : WorkloadKey) : List Frame := [.read k]

/-- The traffic-manager, with the calls in progress. -/
abbrev Manager := Pool Store Frame

/-- A call begins, or one takes a step. -/
def step : Manager → Action WorkloadKey Outside → Option Manager :=
  Threads.step updateLastEngagementTime exec

/-- The manager before the first call. -/
def before (yaml : Option Json) : Manager := { shared := { agentStateYAML := yaml } }

/-! ## What a call changes -/

theorem AgentStateFile.lookup_temp (f : AgentStateFile) (k : WorkloadKey) :
    f.temp.lookup k.string = f.agentStates.lookup k := by
  apply ext
  intro st
  rw [f.lookup_temp_iff]
  constructor
  · rintro ⟨k', heq, hst⟩
    rw [WorkloadKey.string_injective heq]
    exact hst
  · exact fun hst => ⟨k, rfl, hst⟩

variable {data : Json}

/-- The states that were read are read again as they are. -/
theorem stored_of_unmarshalRaw {raw : GoMap String AgentState} (h : unmarshalRaw data = .ok raw)
    {s : String} {st : AgentState} (hst : raw.lookup s = some st) : st.stored = st := by
  cases data with
  | text t => cases h
  | object members =>
    simp only [unmarshalRaw] at h
    split at h
    · cases h
      rw [AList.lookup_empty] at hst
      cases hst
    · cases h
    · obtain ⟨ys, hys, rfl⟩ := GoMap.readAll_eq_ok.mp h
      rcases GoMap.lookup_insertPairs_cases hst with hmem | hempty
      · obtain ⟨m, _, hm⟩ := (Results.mem_iff_of_forall₂ hys _).mp hmem
        obtain ⟨st', hst', heq⟩ := Results.map_eq_ok.mp hm
        cases heq
        exact (AgentState.stored_of_unmarshal hst').2
      · rw [AList.lookup_empty] at hempty
        cases hempty

/-- What is in a file that was written. -/
theorem timeIn_marshalJSON {f : AgentStateFile} (h : f.marshalJSON = .ok data) (k : WorkloadKey) :
    timeIn (some data) k =
      (f.agentStates.lookup k).map fun st => st.stored.lastEngagementTime := by
  obtain ⟨raw, hraw, hlookup⟩ := unmarshalRaw_of_marshalJSON h
  simp only [timeIn, Option.map_some, hraw, hlookup, f.lookup_temp, Option.map_map]
  rfl

/-- What is in a file that was read. -/
theorem timeIn_unmarshalJSON {f : AgentStateFile} (h : unmarshalJSON data = .ok f)
    (k : WorkloadKey) :
    timeIn (some data) k =
      (f.agentStates.lookup k).map fun st => st.stored.lastEngagementTime := by
  obtain ⟨raw, hraw, _, hlookup⟩ := unmarshalJSON_cases h
  simp only [timeIn, map_some, hraw]
  rw [hlookup]
  cases hst : raw.lookup k.string with
  | none => rfl
  | some st => simp only [map_some, stored_of_unmarshalRaw hraw hst]

/-- **A call sets the time of its workload and no other one** in the file that
it has read. -/
theorem timeIn_update {yaml : Option Json} {k : WorkloadKey} {active : Nat} {now : Time}
    (h : update yaml k active now = .ok (some data)) (k' : WorkloadKey) :
    timeIn (some data) k' = if k' = k then some now.wholeMinuteZone else timeIn yaml k' := by
  have hstore : ∀ f : AgentStateFile,
      (mk (f.agentStates.insert k ⟨now⟩)).marshalJSON = .ok data →
        timeIn (some data) k' = if k' = k then some now.wholeMinuteZone
          else (f.agentStates.lookup k').map fun st => st.stored.lastEngagementTime := by
    intro f hf
    rw [timeIn_marshalJSON hf]
    dsimp only
    rw [GoMap.lookup_insert_eq]
    split
    · rfl
    · rfl
  simp only [update] at h
  split at h
  · split at h
    · cases h
    · rename_i hdata
      cases h
      rw [hstore _ hdata]
      rfl
  · rename_i old
    split at h
    · cases h
    · rename_i f hf
      split at h
      · cases h
      · split at h
        · cases h
        · rename_i hdata
          cases h
          rw [hstore _ hdata, timeIn_unmarshalJSON hf]

/-! ## No time is lost -/

/-- A workload with a new time has one of its new times in the file, and every
other one what it had before. -/
structure Kept (initial : Option Json) (yaml : Option Json) (written : List (WorkloadKey × Time)) :
    Prop where
  new : ∀ k t, (k, t) ∈ written → ∃ t', (k, t') ∈ written ∧ timeIn yaml k = some t'
  old : ∀ k, (∀ t, (k, t) ∉ written) → timeIn yaml k = timeIn initial k

/-- When the file is written, every other workload with a new time had one
already when the file was read. -/
def Frame.Current (sh : Store) : Frame → Prop
  | .write k _ _ seen => ∀ k' t, k' ≠ k → (k', t) ∈ sh.written → ∃ t', (k', t') ∈ seen
  | _ => True

/-- The step is not a write of an outdated file. -/
def Allowed (p : Manager) : Action WorkloadKey Outside → Prop
  | .start _ => True
  | .run thread _ => ∀ f, p.top thread = some f → f.Current p.shared

/-- The file that a call is going to write is the one it has read, which was
in order at that time, with the new time in it. -/
def Frame.Sound (initial : Option Json) (sh : Store) : Frame → Prop
  | .write k time data seen =>
      timeIn (some data) k = some time ∧ (∀ x ∈ seen, x ∈ sh.written) ∧
        ∃ yaml, Kept initial yaml seen ∧ ∀ k', k' ≠ k → timeIn (some data) k' = timeIn yaml k'
  | _ => True

/-- What holds between the steps. -/
structure Inv (initial : Option Json) (p : Manager) : Prop where
  kept : Kept initial p.shared.agentStateYAML p.shared.written
  sound : ∀ f ∈ p.frames, f.Sound initial p.shared

variable {initial : Option Json} {sh : Store} {f : Frame}

theorem Frame.Sound.mono {sh' : Store} (h : f.Sound initial sh)
    (hsub : ∀ x ∈ sh.written, x ∈ sh'.written) : f.Sound initial sh' := by
  cases f with
  | write k time data seen => exact ⟨h.1, fun x hx => hsub x (h.2.1 x hx), h.2.2⟩
  | read k | mark => trivial

/-- Writing a file that is not outdated loses nothing. -/
theorem kept_of_write {k : WorkloadKey} {time : Time} {seen : List (WorkloadKey × Time)}
    (hsound : (Frame.write k time data seen).Sound initial sh)
    (hcurrent : (Frame.write k time data seen).Current sh) :
    Kept initial (some data) (sh.written ++ [(k, time)]) := by
  obtain ⟨hown, hseen, yaml, hkept, hothers⟩ := hsound
  constructor
  · intro k' t hmem
    by_cases hk : k' = k
    · subst hk
      exact ⟨time, by simp, hown⟩
    · have hwritten : (k', t) ∈ sh.written := by simpa [hk] using hmem
      obtain ⟨t', ht'⟩ := hcurrent k' t hk hwritten
      obtain ⟨t'', ht'', htime⟩ := hkept.new k' t' ht'
      exact ⟨t'', mem_append_left _ (hseen _ ht''), (hothers k' hk).trans htime⟩
  · intro k' hnone
    have hk : k' ≠ k := by
      rintro rfl
      exact hnone time (by simp)
    rw [hothers k' hk]
    exact hkept.old k' fun t ht => hnone t (mem_append_left _ (hseen _ ht))

/-- What a part of a call does: the file stays in order, what is written only
grows, and what is left of the call is sound. -/
theorem exec_kept {sh' : Store} {o : Outside} {fs : List Frame}
    (hkept : Kept initial sh.agentStateYAML sh.written) (hsound : f.Sound initial sh)
    (hcurrent : f.Current sh) (h : exec sh f o = some (sh', fs)) :
    Kept initial sh'.agentStateYAML sh'.written ∧ (∀ x ∈ sh.written, x ∈ sh'.written) ∧
      ∀ g ∈ fs, g.Sound initial sh' := by
  cases f with
  | read k =>
    simp only [exec] at h
    split at h
    · rename_i data hdata
      cases h
      refine ⟨hkept, fun _ hx => hx, forall_mem_singleton.mpr ?_⟩
      refine ⟨?_, fun _ hx => hx, sh.agentStateYAML, hkept, ?_⟩
      · rw [timeIn_update hdata, if_pos rfl]
      · intro k' hk'
        rw [timeIn_update hdata, if_neg hk']
    · cases h
      exact ⟨hkept, fun _ hx => hx, forall_mem_nil _⟩
  | write k time data seen =>
    cases h
    exact ⟨kept_of_write hsound hcurrent, fun x hx => mem_append_left _ hx,
      forall_mem_singleton.mpr trivial⟩
  | mark =>
    cases h
    exact ⟨hkept, fun _ hx => hx, forall_mem_nil _⟩

theorem inv_step {p p' : Manager} {a : Action WorkloadKey Outside} (hinv : Inv initial p)
    (hallowed : Allowed p a) (h : step p a = some p') : Inv initial p' := by
  obtain ⟨k, rfl, hshared, hframes⟩ | ⟨thread, o, f, fs, others, rfl, htop, hexec, hold, hnew⟩ :=
    Threads.step_cases h
  · refine ⟨by rw [hshared]; exact hinv.kept, ?_⟩
    intro f hf
    rw [hframes, mem_append] at hf
    rw [hshared]
    rcases hf with hf | hf
    · exact hinv.sound f hf
    · rw [mem_singleton.mp hf]
      trivial
  · have hsound := hinv.sound f (Pool.mem_frames_of_top htop)
    obtain ⟨hkept, hgrow, hfs⟩ := exec_kept hinv.kept hsound (hallowed f htop) hexec
    refine ⟨hkept, ?_⟩
    intro g hg
    rcases mem_append.mp (hnew.subset hg) with hg | hg
    · exact hfs g hg
    · exact (hinv.sound g (hold.symm.subset (mem_cons_of_mem _ hg))).mono hgrow

/-- **No engagement time is lost** in a run in which no call writes an
outdated file. -/
theorem engagement_times_kept (initial : Option Json) (as : List (Action WorkloadKey Outside))
    (h : Meets step Allowed (before initial) as) :
    Always step (fun p => Kept initial p.shared.agentStateYAML p.shared.written)
      (before initial) as := by
  have hinit : Inv initial (before initial) := by
    refine ⟨⟨?_, fun _ _ => rfl⟩, ?_⟩
    · exact fun k t ht => absurd ht not_mem_nil
    · exact fun f hf => absurd hf not_mem_nil
  exact always_of_meets (fun _ hinv => hinv.kept)
    (fun _ _ _ hinv hallowed hstep => inv_step hinv hallowed hstep) hinit h

/-! ## Two calls -/

/-- Two workloads, and the times of their calls. -/
def web : WorkloadKey := { dotted with name := "web" }

/-- Another workload. -/
def db : WorkloadKey := { dotted with name := "db", kind := "StatefulSet", kind_label := by decide }

/-- A time. -/
def noon : Time := ⟨2024, 5, 1, 12, 0, 0, 0, 0, by decide⟩

/-- An hour later. -/
def oneOClock : Time := ⟨2024, 5, 1, 13, 0, 0, 0, 0, by decide⟩

/-- One call after the other. -/
def inTurn : List (Action WorkloadKey Outside) :=
  [.start web, .run 0 ⟨1, noon⟩, .run 0 ⟨1, noon⟩, .run 0 ⟨1, noon⟩,
    .start db, .run 1 ⟨1, oneOClock⟩, .run 1 ⟨1, oneOClock⟩, .run 1 ⟨1, oneOClock⟩]

/-- Both calls read the file before one of them writes it. -/
def overlapping : List (Action WorkloadKey Outside) :=
  [.start web, .start db, .run 0 ⟨1, noon⟩, .run 1 ⟨1, oneOClock⟩, .run 0 ⟨1, noon⟩,
    .run 1 ⟨1, oneOClock⟩, .run 0 ⟨1, noon⟩, .run 1 ⟨1, oneOClock⟩]

/-- A test for `Frame.Current`. -/
def Frame.isCurrent (sh : Store) : Frame → Bool
  | .write k _ _ seen => sh.written.all fun x => x.1 = k ∨ seen.any fun y => y.1 = x.1
  | _ => true

theorem Frame.current_of_isCurrent (h : f.isCurrent sh = true) : f.Current sh := by
  cases f with
  | write k time data seen =>
    intro k' t hk hmem
    have hx := all_eq_true.mp h (k', t) hmem
    simp only [decide_eq_true_eq] at hx
    obtain ⟨⟨y, t'⟩, hy, heq⟩ := any_eq_true.mp (hx.resolve_left hk)
    exact ⟨t', by rw [← of_decide_eq_true heq]; exact hy⟩
  | read k | mark => trivial

theorem allowed_of_passes {p : Manager} {a : Action WorkloadKey Outside}
    (h : p.passes (fun sh f => f.isCurrent sh) a = true) : Allowed p a := by
  cases a with
  | start k => trivial
  | run thread o => exact fun f hf => Frame.current_of_isCurrent (Pool.test_of_passes h hf)

/-- Two calls, one after the other: both times are in the file. -/
theorem engagement_times_kept_in_turn :
    (∃ p, run step (before none) inTurn = some p ∧ p.threads.all List.isEmpty = true ∧
      timeIn p.shared.agentStateYAML web = some noon ∧
      timeIn p.shared.agentStateYAML db = some oneOClock) ∧
    Always step (fun p => Kept none p.shared.agentStateYAML p.shared.written)
      (before none) inTurn := by
  have hrun : (run step (before none) inTurn).map (fun p => (p.threads.all isEmpty,
      timeIn p.shared.agentStateYAML web, timeIn p.shared.agentStateYAML db)) =
      some (true, some noon, some oneOClock) := by decide +kernel
  obtain ⟨p, hp, heq⟩ := map_eq_some_iff.mp hrun
  simp only [Prod.mk.injEq] at heq
  refine ⟨⟨p, hp, heq⟩, engagement_times_kept none inTurn ?_⟩
  exact meets_of_test (fun _ _ => allowed_of_passes) (by decide +kernel)

/-- Two calls that overlap: the time of one of them is lost. -/
theorem engagement_time_lost :
    ∃ p, run step (before none) overlapping = some p ∧ p.threads.all List.isEmpty = true ∧
      (web, noon) ∈ p.shared.written ∧ timeIn p.shared.agentStateYAML web = none ∧
      ¬ Kept none p.shared.agentStateYAML p.shared.written := by
  have hrun : (run step (before none) overlapping).map (fun p => (p.threads.all isEmpty,
      p.shared.written, timeIn p.shared.agentStateYAML web)) =
      some (true, [(web, noon), (db, oneOClock)], none) := by decide +kernel
  obtain ⟨p, hp, heq⟩ := map_eq_some_iff.mp hrun
  simp only [Prod.mk.injEq] at heq
  obtain ⟨hidle, hwritten, hweb⟩ := heq
  have hmem : (web, noon) ∈ p.shared.written := by rw [hwritten]; exact mem_cons_self ..
  refine ⟨p, hp, hidle, hmem, hweb, ?_⟩
  intro hkept
  obtain ⟨t, _, ht⟩ := hkept.new web noon hmem
  rw [hweb] at ht
  cases ht

end Telepresence.AgentStates
