import Telepresence.AgentSteps

/-!
# Waiting for a workload

`WaitForWorkload` waits on a channel that `notifyWaiters` closes for a client
of the workload.  The channel is created inside `LoadOrCompute`, by the first
call that finds no client; that the call has just stored the channel is
reported in the same way as that a client exists, so the call does not wait.
The calls that find the channel there do.

* `WaitInv`: what connects the calls, the waiters and the locks.
* `waits_answered`: which steps keep the calls from returning early, and from
  returning another error than the timeout.
-/

namespace Telepresence.AgentPf

open Threads Runs List Function Shared

/-- What the call has returned, if it has, is the timeout error, or it is `nil`
and the call has seen a reason for it. -/
def Call.Right (c : Call) : Prop :=
  ∀ r, c.result = some r → r = .timeout ∨ r = .ok ∧ c.seen = true

/-- The calls are right, and one that waits can return the timeout error at any
time. -/
def Answered (p : Clients) : Prop :=
  (∀ i, (p.shared.calls i).Right) ∧
    ∀ thread call ch, p.top thread = some (.wait call ch) →
      ∃ p', step p (.run thread .stop) = some p' ∧
        (p'.shared.calls call).result = some .timeout

/-! ## The invariant -/

/-- The call of `WaitForWorkload` that a frame belongs to. -/
def Frame.call : Frame → Option Nat
  | .loadOrCompute call | .findWorkload call _ | .foundWorkload call | .wait call _ => some call
  | _ => none

open AgentPf.Frame

/-- The call whose function for `LoadOrCompute` is running. -/
def Frame.computing : Frame → Option Nat
  | .findWorkload call _ | .foundWorkload call => some call
  | _ => none

variable {f : Frame} {i : Nat}

theorem Frame.call_of_computing (h : f.computing = some i) : f.call = some i := by
  cases f <;> simp_all [computing, call]

/-- The call has begun and has not returned. -/
def Pending (s : Shared) (i : Nat) : Prop := i < s.nextCall ∧ (s.calls i).result = none

/-- The entry of the call's workload is locked, and has no channel. -/
def Holds (s : Shared) (i : Nat) : Prop :=
  (s.calls i).name ∈ s.locked ∧ s.wlWaiters.lookup (s.calls i).name = none

/-- No call can find the channel any more. -/
def Retired (s : Shared) (ch : Nat) : Prop :=
  ch < s.nextChan ∧ ∀ name, s.wlWaiters.lookup name ≠ some ch

/-- What a frame relies on. -/
def FrameWaits (s : Shared) : Frame → Prop
  | .loadOrCompute i => Pending s i
  | .findWorkload i _ | .foundWorkload i => Pending s i ∧ Holds s i ∧ (s.calls i).seen = true
  | .wait i ch =>
      Pending s i ∧ ch < s.nextChan ∧
        (s.wlWaiters.lookup (s.calls i).name = some ch ∨ (s.calls i).seen = true)
  | .closeWaiter ch => Retired s ch
  | _ => True

/-- The names of the workloads whose entries are being computed. -/
def computingNames (s : Shared) (fs : List Frame) : List String :=
  (fs.filterMap computing).map fun i => (s.calls i).name

/-- The invariant, for the frames of all threads. -/
structure WaitInv (s : Shared) (fs : List Frame) : Prop where
  answered : ∀ i, (s.calls i).Right
  fresh : ∀ name ch, s.wlWaiters.lookup name = some ch → ch < s.nextChan
  apart : ∀ name name' ch, s.wlWaiters.lookup name = some ch →
    s.wlWaiters.lookup name' = some ch → name = name'
  closed : ∀ ch ∈ s.closedChans, Retired s ch
  frames : ∀ f ∈ fs, FrameWaits s f
  calls : (fs.filterMap call).Nodup
  locks : (computingNames s fs).Nodup

/-- Every call that has not returned has seen what there is to see. -/
def Looked (s : Shared) : Prop :=
  ∀ i, (s.calls i).result = none → s.answers (s.calls i).name = true → (s.calls i).seen = true

variable {s : Shared} {fs : List Frame}

/-- The order of the threads does not matter. -/
theorem WaitInv.perm {fs' : List Frame} (h : WaitInv s fs) (hp : fs.Perm fs') :
    WaitInv s fs' where
  answered := h.answered
  fresh := h.fresh
  apart := h.apart
  closed := h.closed
  frames := fun f hf => h.frames f (hp.mem_iff.mpr hf)
  calls := (hp.filterMap call).nodup_iff.mp h.calls
  locks := ((hp.filterMap computing).map _).nodup_iff.mp h.locks

/-! ## Frames come and go -/

variable {others : List Frame}

theorem WaitInv.drop (h : WaitInv s (f :: others)) : WaitInv s others where
  answered := h.answered
  fresh := h.fresh
  apart := h.apart
  closed := h.closed
  frames := fun g hg => h.frames g (.tail _ hg)
  calls := h.calls.sublist ((sublist_cons_self f others).filterMap _)
  locks := h.locks.sublist (((sublist_cons_self f others).filterMap _).map _)

/-- A call has one frame. -/
theorem WaitInv.call_notMem (h : WaitInv s (f :: others)) (hf : f.call = some i) :
    i ∉ others.filterMap call := by
  have hcalls := h.calls
  rw [filterMap_cons_some hf] at hcalls
  exact (nodup_cons.mp hcalls).1

/-- An entry is computed by one call. -/
theorem WaitInv.name_notMem (h : WaitInv s (f :: others)) (hf : f.computing = some i) :
    (s.calls i).name ∉ computingNames s others := by
  have hlocks := h.locks
  unfold computingNames at hlocks
  rw [filterMap_cons_some hf, map_cons] at hlocks
  exact (nodup_cons.mp hlocks).1

theorem WaitInv.push (h : WaitInv s others) (hf : FrameWaits s f)
    (hcall : ∀ i, f.call = some i → i ∉ others.filterMap call)
    (hname : ∀ i, f.computing = some i → (s.calls i).name ∉ computingNames s others) :
    WaitInv s (f :: others) where
  answered := h.answered
  fresh := h.fresh
  apart := h.apart
  closed := h.closed
  frames := forall_mem_cons.mpr ⟨hf, h.frames⟩
  calls := by
    cases hi : f.call with
    | none =>
      rw [filterMap_cons_none hi]
      exact h.calls
    | some i =>
      rw [filterMap_cons_some hi]
      exact nodup_cons.mpr ⟨hcall i hi, h.calls⟩
  locks := by
    unfold computingNames
    cases hi : f.computing with
    | none =>
      rw [filterMap_cons_none hi]
      exact h.locks
    | some i =>
      rw [filterMap_cons_some hi]
      exact nodup_cons.mpr ⟨hname i hi, h.locks⟩

/-- The frame does not take part in waiting. -/
def Frame.apart : Frame → Bool
  | .closeWaiter _ => false
  | f => f.call.isNone

theorem Frame.apart_of_plain (h : f.plain) : f.apart := by
  cases f <;> first | rfl | cases h

theorem Frame.call_of_apart (h : f.apart) : f.call = none := by
  cases f <;> first | rfl | cases h

theorem Frame.computing_of_apart (h : f.apart) : f.computing = none := by
  cases f <;> first | rfl | cases h

theorem WaitInv.append (h : WaitInv s others) (hfs : ∀ g ∈ fs, g.apart) :
    WaitInv s (fs ++ others) := by
  induction fs with
  | nil => exact h
  | cons f fs ih =>
    obtain ⟨hf, hfs⟩ := forall_mem_cons.mp hfs
    refine (ih hfs).push ?_ ?_ ?_
    · cases f <;> first | exact True.intro | cases hf
    · intro i hi
      rw [call_of_apart hf] at hi
      cases hi
    · intro i hi
      rw [computing_of_apart hf] at hi
      cases hi

/-! ## The state changes -/

/-- The waiters and the calls are the same. -/
structure SameWaiters (s s' : Shared) : Prop where
  calls : s'.calls = s.calls
  nextCall : s'.nextCall = s.nextCall
  wlWaiters : s'.wlWaiters = s.wlWaiters
  locked : s'.locked = s.locked
  closedChans : s'.closedChans = s.closedChans
  nextChan : s'.nextChan = s.nextChan

theorem SameWaiters.refl (s : Shared) : SameWaiters s s := ⟨rfl, rfl, rfl, rfl, rfl, rfl⟩

variable {s' : Shared}

theorem SameWaiters.trans {s'' : Shared} (h : SameWaiters s s') (h' : SameWaiters s' s'') :
    SameWaiters s s'' :=
  ⟨h'.calls.trans h.calls, h'.nextCall.trans h.nextCall, h'.wlWaiters.trans h.wlWaiters,
    h'.locked.trans h.locked, h'.closedChans.trans h.closedChans, h'.nextChan.trans h.nextChan⟩

/-- What a frame relies on survives a change of the state. -/
structure Keeps (s s' : Shared) (f : Frame) : Prop where
  pending : ∀ i, f.call = some i → Pending s i → Pending s' i
  name : ∀ i, f.call = some i → Pending s i → (s'.calls i).name = (s.calls i).name
  seen : ∀ i, f.call = some i → Pending s i → (s.calls i).seen = true → (s'.calls i).seen = true
  holds : ∀ i, f.computing = some i → Pending s i → Holds s i → Holds s' i
  nextChan : s.nextChan ≤ s'.nextChan
  waiter : ∀ i ch, f = .wait i ch → Pending s i →
    s.wlWaiters.lookup (s.calls i).name = some ch →
    s'.wlWaiters.lookup (s.calls i).name = some ch ∨ (s'.calls i).seen = true
  retired : ∀ ch, Retired s ch → Retired s' ch

theorem FrameWaits.of_keeps (hf : FrameWaits s f) (h : Keeps s s' f) : FrameWaits s' f := by
  cases f
  case loadOrCompute i => exact h.pending i rfl hf
  case findWorkload i _ | foundWorkload i =>
    exact ⟨h.pending i rfl hf.1, h.holds i rfl hf.1 hf.2.1, h.seen i rfl hf.1 hf.2.2⟩
  case wait i ch =>
    obtain ⟨hpending, hlt, hwait⟩ := hf
    refine ⟨h.pending i rfl hpending, Nat.lt_of_lt_of_le hlt h.nextChan, ?_⟩
    rw [h.name i rfl hpending]
    rcases hwait with hwait | hseen
    · exact h.waiter i ch rfl hpending hwait
    · exact .inr (h.seen i rfl hpending hseen)
  case closeWaiter ch => exact h.retired ch hf
  all_goals trivial

/-- A call of a frame is pending. -/
theorem WaitInv.pending (h : WaitInv s fs) (hf : f ∈ fs) (hi : f.call = some i) : Pending s i := by
  have hframe := h.frames f hf
  cases f <;> cases hi
  case loadOrCompute => exact hframe
  all_goals exact hframe.1

/-- A call that computes an entry holds it, and will be right to return. -/
theorem WaitInv.holds (h : WaitInv s fs) (hf : f ∈ fs) (hi : f.computing = some i) :
    Holds s i ∧ (s.calls i).seen = true := by
  have hframe := h.frames f hf
  cases f <;> cases hi
  all_goals exact hframe.2

/-- Where the calls of the frames keep their names, the entries that are
computed are the same. -/
theorem computingNames_congr
    (h : ∀ f ∈ fs, ∀ i, f.computing = some i → (s'.calls i).name = (s.calls i).name) :
    computingNames s' fs = computingNames s fs := by
  refine map_congr_left ?_
  intro i hi
  obtain ⟨f, hf, hfi⟩ := mem_filterMap.mp hi
  exact h f hf i hfi

section

variable (h : WaitInv s fs)

include h

/-- **The step rule.**  A change that keeps what every frame relies on, and
whose new channels and results are right. -/
theorem WaitInv.of_keeps (hkeeps : ∀ f ∈ fs, Keeps s s' f)
    (hanswered : ∀ i, (s'.calls i).Right)
    (hfresh : ∀ name ch, s'.wlWaiters.lookup name = some ch → ch < s'.nextChan)
    (hapart : ∀ name name' ch, s'.wlWaiters.lookup name = some ch →
      s'.wlWaiters.lookup name' = some ch → name = name')
    (hclosed : ∀ ch ∈ s'.closedChans, Retired s' ch) : WaitInv s' fs where
  answered := hanswered
  fresh := hfresh
  apart := hapart
  closed := hclosed
  frames := fun f hf => (h.frames f hf).of_keeps (hkeeps f hf)
  calls := h.calls
  locks := by
    rw [computingNames_congr]
    · exact h.locks
    · intro f hf i hi
      have hcall := call_of_computing hi
      exact (hkeeps f hf).name i hcall (h.pending hf hcall)

theorem WaitInv.same (hsame : SameWaiters s s') : WaitInv s' fs := by
  obtain ⟨hcalls, hnext, hwaiters, hlocked, hclosed, hchan⟩ := hsame
  refine h.of_keeps ?_ ?_ ?_ ?_ ?_
  · intro f hf
    constructor <;> simp only [Pending, Holds, Retired, hcalls, hnext, hwaiters, hlocked, hchan]
    all_goals grind
  · rw [hcalls]
    exact h.answered
  · rw [hwaiters, hchan]
    exact h.fresh
  · rw [hwaiters]
    exact h.apart
  · unfold Retired
    rw [hwaiters, hchan, hclosed]
    exact h.closed

theorem WaitInv.look : WaitInv s.look fs ∧ Looked s.look := by
  have hname : ∀ i, (s.look.calls i).name = (s.calls i).name := by
    intro i
    dsimp only [Shared.look]
    split <;> rfl
  have hresult : ∀ i, (s.look.calls i).result = (s.calls i).result := by
    intro i
    dsimp only [Shared.look]
    split <;> rfl
  have hseen : ∀ i, (s.calls i).seen = true → (s.look.calls i).seen = true := by
    intro i hi
    dsimp only [Shared.look]
    split
    · rfl
    · exact hi
  constructor
  · refine h.of_keeps ?_ ?_ h.fresh h.apart h.closed
    · intro f hf
      constructor <;> grind [Pending, Holds, Retired, look]
    · intro i r hr
      exact (h.answered i r (hresult i ▸ hr)).imp_right fun hok => ⟨hok.1, hseen i hok.2⟩
  · intro i hnone hanswers
    rw [hname] at hanswers
    rw [hresult] at hnone
    have hsees : s.answers (s.calls i).name = true := hanswers
    simp [Shared.look, hnone, hsees]

/-- A call returns what it may return. -/
theorem WaitInv.finish (call : Nat) (result : WaitResult)
    (hcall : call ∉ fs.filterMap Frame.call)
    (hright : result = .timeout ∨ result = .ok ∧ (s.calls call).seen = true) :
    WaitInv (s.finish call result) fs := by
  refine h.of_keeps ?_ ?_ h.fresh h.apart h.closed
  · intro f hf
    have hother : ∀ i, f.call = some i → (s.finish call result).calls i = s.calls i := by
      intro i hi
      refine update_of_ne ?_ _ _
      intro heq
      exact hcall (heq ▸ mem_filterMap.mpr ⟨f, hf, hi⟩)
    constructor <;> grind [Pending, Holds, Retired, Shared.finish, call_of_computing]
  · intro i r hr
    rcases eq_or_ne i call with rfl | hne
    · simp only [Shared.finish, update_self, Option.some.injEq] at hr ⊢
      subst hr
      exact hright
    · simp only [Shared.finish, update_of_ne hne] at hr ⊢
      exact h.answered i r hr

theorem WaitInv.newCall (name : String) : WaitInv (s.newCall name) fs := by
  have hother : ∀ i, i ≠ s.nextCall → (s.newCall name).calls i = s.calls i := by
    intro i hi
    exact update_of_ne hi _ _
  refine h.of_keeps ?_ ?_ h.fresh h.apart h.closed
  · intro f hf
    constructor <;> grind [Pending, Holds, Retired, Shared.newCall]
  · intro i
    rcases eq_or_ne i s.nextCall with rfl | hne
    · intro r hr
      simp [Shared.newCall] at hr
    · rw [hother i hne]
      exact h.answered i

variable {name : String}

/-- An entry is unlocked that no other call computes. -/
theorem WaitInv.unlock (hname : name ∉ computingNames s fs) : WaitInv (s.unlock name) fs := by
  refine h.of_keeps ?_ h.answered h.fresh h.apart h.closed
  intro f hf
  refine ⟨fun _ _ hi => hi, fun _ _ _ => rfl, fun _ _ _ hi => hi, ?_, le_rfl,
    fun _ _ _ _ hi => .inl hi, fun _ hch => hch⟩
  intro i hi hpending hholds
  refine ⟨?_, hholds.2⟩
  refine (mem_erase_of_ne ?_).mpr hholds.1
  intro heq
  exact hname (heq ▸ mem_map_of_mem (mem_filterMap.mpr ⟨f, hf, hi⟩))

theorem WaitInv.lock (name : String) : WaitInv { s with locked := name :: s.locked } fs := by
  refine h.of_keeps ?_ h.answered h.fresh h.apart h.closed
  intro f hf
  exact ⟨fun _ _ hi => hi, fun _ _ _ => rfl, fun _ _ _ hi => hi,
    fun _ _ _ hi => ⟨.tail _ hi.1, hi.2⟩, le_rfl, fun _ _ _ _ hi => .inl hi, fun _ hch => hch⟩

/-- A channel is stored where there is none and no other call computes. -/
theorem WaitInv.newWaiter (hname : name ∉ computingNames s fs)
    (hnone : s.wlWaiters.lookup name = none) : WaitInv (s.newWaiter name) fs := by
  have hlookup : ∀ name', (s.newWaiter name).wlWaiters.lookup name' =
      if name' = name then some s.nextChan else s.wlWaiters.lookup name' := by
    intro name'
    exact GoMap.lookup_insert_eq _ _ _ _
  refine h.of_keeps ?_ h.answered ?_ ?_ ?_
  · intro f hf
    have hcomputing : ∀ i, f.computing = some i → (s.calls i).name ≠ name := by
      intro i hi heq
      exact hname (heq ▸ mem_map_of_mem (mem_filterMap.mpr ⟨f, hf, hi⟩))
    constructor <;> grind [Pending, Holds, Retired, newWaiter]
  · intro name' ch hch
    rw [hlookup] at hch
    split at hch
    · cases hch
      exact Nat.lt_succ_self _
    · exact Nat.lt_succ_of_lt (h.fresh name' ch hch)
  · intro a b ch ha hb
    have hafresh := h.fresh a ch
    have hbfresh := h.fresh b ch
    have habapart := h.apart a b ch
    grind
  · intro ch hch
    have hretired := h.closed ch hch
    grind [Retired, newWaiter]

theorem WaitInv.close {ch : Nat} (hch : Retired s ch) :
    WaitInv { s with closedChans := ch :: s.closedChans } fs := by
  refine h.of_keeps ?_ h.answered h.fresh h.apart ?_
  · intro f hf
    exact ⟨fun _ _ hi => hi, fun _ _ _ => rfl, fun _ _ _ hi => hi, fun _ _ _ hi => hi, le_rfl,
      fun _ _ _ _ hi => .inl hi, fun _ hch => hch⟩
  · exact forall_mem_cons.mpr ⟨hch, h.closed⟩

/-- A waiter is taken while there is a reason to answer those who wait. -/
theorem WaitInv.take (hlooked : Looked s) {ch : Nat}
    (hch : s.wlWaiters.lookup name = some ch) (hanswers : s.answers name = true) :
    WaitInv { s with wlWaiters := s.wlWaiters.erase name } (.closeWaiter ch :: fs) := by
  have hlookup : ∀ name', (s.wlWaiters.erase name).lookup name' =
      if name' = name then none else s.wlWaiters.lookup name' := by
    intro name'
    exact GoMap.lookup_erase_eq _ _ _
  have herased : WaitInv { s with wlWaiters := s.wlWaiters.erase name } fs := by
    refine h.of_keeps ?_ h.answered ?_ ?_ ?_
    · intro f hf
      refine ⟨fun _ _ hi => hi, fun _ _ _ => rfl, fun _ _ _ hi => hi, ?_, le_rfl, ?_, ?_⟩
      · grind [Holds]
      · intro i ch' _ hpending hwait
        by_cases hi : (s.calls i).name = name
        · exact .inr (hlooked i hpending.2 (hi ▸ hanswers))
        · left
          rw [hlookup, if_neg hi]
          exact hwait
      · grind [Retired]
    · intro name' ch' hch'
      have hfresh := h.fresh name' ch'
      grind
    · intro a b ch' ha hb
      have hapart := h.apart a b ch'
      grind
    · intro ch' hch'
      have hretired := h.closed ch' hch'
      grind [Retired]
  refine herased.push ⟨h.fresh name ch hch, ?_⟩ (by simp [call]) (by simp [computing])
  intro name' hname'
  have heq := h.apart name name' ch hch
  grind

end

/-! ## Steps -/

/-- A client of the workload is in the map, or the clients are disabled, when
`notifyWaiters` takes the workload's waiter, and when `WaitForWorkload` finds
none; and the session does not end while a call waits. -/
def WaitAllowed (s : Shared) : Frame → Choice → Prop
  | .takeWaiter _ name, _ => s.wlWaiters.lookup name ≠ none → s.answers name = true
  | .loadOrCompute call, _ =>
      s.wlWaiters.lookup (s.calls call).name = none → s.answers (s.calls call).name = true
  | .wait _ _, .yes => False
  | _, _ => True

variable {c : Choice}

/-- A step of waiting keeps the invariant. -/
theorem WaitInv.waitEffect (h : WaitInv s (f :: others)) (hlooked : Looked s)
    (hc : WaitAllowed s f c) (heffect : WaitEffect s c f s' fs) : WaitInv s' (fs ++ others) := by
  cases heffect with
  | pass hf hfs => exact h.drop.append fun g hg => apart_of_plain (hfs g hg)
  | take ac name ch hfree hch =>
    have hanswers : s.answers name = true := hc (by simp [hch])
    have htaken := h.drop.take hlooked hch hanswers
    have hapart : ∀ g ∈ [Frame.ensureConnect ac], g.apart := by
      simp [Frame.apart, Frame.call]
    exact htaken.append hapart
  | close ch => exact h.drop.close (h.frames _ (.head _))
  | begin name =>
    refine (h.drop.newCall name).push ?_ ?_ (by simp [computing])
    · exact ⟨Nat.lt_succ_self _, by simp [Shared.newCall]⟩
    · intro i hi hmem
      cases hi
      obtain ⟨g, hg, hgi⟩ := mem_filterMap.mp hmem
      exact Nat.lt_irrefl _ (h.drop.pending hg hgi).1
  | disabled name hdisabled =>
    refine (h.drop.newCall name).finish _ _ ?_ ?_
    · intro hmem
      obtain ⟨g, hg, hgi⟩ := mem_filterMap.mp hmem
      exact Nat.lt_irrefl _ (h.drop.pending hg hgi).1
    · exact .inr ⟨rfl, by simp [Shared.newCall, Shared.answers, hdisabled]⟩
  | attach call ch hch =>
    have hpending : Pending s call := h.pending (.head _) rfl
    have hwait : WaitInv s (.wait call ch :: others) := by
      refine h.drop.push ⟨hpending, h.fresh _ _ hch, .inl hch⟩ ?_ (by simp [computing])
      intro i hi
      cases hi
      exact h.call_notMem rfl
    have hapart : ∀ g ∈ [Frame.notifyWaiters none], g.apart := by simp [Frame.apart, Frame.call]
    exact hwait.append hapart
  | lock call hnone hfree =>
    have hpending : Pending s call := h.pending (.head _) rfl
    have hseen : (s.calls call).seen = true := hlooked call hpending.2 (hc hnone)
    refine (h.drop.lock _).push ⟨hpending, ⟨mem_cons_self, hnone⟩, hseen⟩ ?_ ?_
    · intro i hi
      cases hi
      exact h.call_notMem rfl
    · intro i hi hmem
      cases hi
      obtain ⟨j, hj, hname⟩ := mem_map.mp hmem
      obtain ⟨g, hg, hgj⟩ := mem_filterMap.mp hj
      have hholds := (h.drop.holds hg hgj).1.1
      exact hfree (hname ▸ hholds)
  | search call it it' | found call it =>
    have hframe : FrameWaits s (.findWorkload call it) := h.frames _ (.head _)
    exact h.drop.push hframe (fun i hi => h.call_notMem hi) fun i hi => h.name_notMem hi
  | create call it =>
    obtain ⟨hholds, hseen⟩ := h.holds (.head _) rfl
    have hname := h.name_notMem (i := call) rfl
    have hstored := h.drop.newWaiter hname hholds.2
    have hunlocked := hstored.unlock hname
    exact hunlocked.finish call .ok (h.call_notMem rfl) (.inr ⟨rfl, hseen⟩)
  | leave call =>
    have hseen := (h.holds (.head _) rfl).2
    have hunlocked := h.drop.unlock (h.name_notMem (i := call) rfl)
    exact hunlocked.finish call .ok (h.call_notMem rfl) (.inr ⟨rfl, hseen⟩)
  | wake call ch hclosed =>
    refine h.drop.finish call .ok (h.call_notMem rfl) (.inr ⟨rfl, ?_⟩)
    obtain ⟨-, -, hwait⟩ : FrameWaits s (.wait call ch) := h.frames _ (.head _)
    exact hwait.resolve_left ((h.closed ch hclosed).2 _)
  | timeout call ch => exact h.drop.finish call .timeout (h.call_notMem rfl) (.inl rfl)
  | canceled call ch hyes =>
    subst hyes
    exact hc.elim

/-! ## Steps that have nothing to do with waiting -/

theorem ensureConnectLocked_apart (s : Shared) (ac : Nat) (o : Outcome) :
    SameWaiters s (s.ensureConnectLocked ac o).1 ∧
      ∀ g ∈ (s.ensureConnectLocked ac o).2, g.apart := by
  refine ⟨?_, fun g hg => apart_of_plain (plain_ensureConnectLocked s ac o g hg)⟩
  exact ensureConnectLocked_induct ac o (.refl s) (fun _ _ => ⟨rfl, rfl, rfl, rfl, rfl, rfl⟩)
    (fun _ h _ _ => h.trans ⟨rfl, rfl, rfl, rfl, rfl, rfl⟩) ⟨rfl, rfl, rfl, rfl, rfl, rfl⟩

theorem stopFrames_apart (ac : Nat) (w : Option Nat) : ∀ g ∈ stopFrames ac w, g.apart := by
  cases w with
  | none => simp [stopFrames]
  | some w => simp [stopFrames, apart, call]

theorem refresh_apart (s : Shared) (ac ai : Nat) (o : Outcome) :
    SameWaiters s (s.refresh ac ai o).1 ∧ ∀ g ∈ (s.refresh ac ai o).2, g.apart := by
  have hnil : ∀ g ∈ ([] : List Frame), g.apart := by simp
  have hinfo : SameWaiters s (s.modify ac fun c => { c with info := ai }) :=
    ⟨rfl, rfl, rfl, rfl, rfl, rfl⟩
  unfold Shared.refresh
  dsimp only
  split
  · split
    · exact ⟨hinfo, hnil⟩
    · obtain ⟨hsame, hfs⟩ :=
        ensureConnectLocked_apart (s.modify ac fun c => { c with info := ai }) ac o
      exact ⟨hinfo.trans hsame, hfs⟩
  · split
    · exact ⟨hinfo, stopFrames_apart _ _⟩
    · exact ⟨hinfo, hnil⟩

theorem receive_apart (s : Shared) (upserts : List (String × AgentPodInfo))
    (removals : List String) :
    SameWaiters s (receive s upserts removals).1 ∧
      ∀ g ∈ (receive s upserts removals).2, g.apart := by
  refine ⟨?_, fun g hg => apart_of_plain (plain_receive s upserts removals g hg)⟩
  refine receive_induct upserts removals (.refl s) ?_ ?_ ?_ ?_ <;> intros <;> rename_i h <;>
    exact h.trans ⟨rfl, rfl, rfl, rfl, rfl, rfl⟩

/-- The steps of `updateClients`, of connections and of dial watchers have
nothing to do with waiting. -/
theorem Effect.waiters (h : Effect s c f s' fs) :
    f.apart ∧ SameWaiters s s' ∧ ∀ g ∈ fs, g.apart := by
  cases h with
  | pass hf hfs =>
    exact ⟨apart_of_plain hf, .refl s, fun g hg => apart_of_plain (hfs g hg)⟩
  | delta upserts removals => exact ⟨rfl, receive_apart s upserts removals⟩
  | refresh ac ai o => exact ⟨rfl, refresh_apart s ac ai o⟩
  | cancel ac =>
    refine ⟨rfl, .refl s, ?_⟩
    intro g hg
    rcases mem_append.mp hg with hg | hg
    · exact stopFrames_apart _ _ g hg
    · split at hg
      · rw [mem_singleton.mp hg]
        rfl
      · cases hg
  | ensureConnect ac o => exact ⟨rfl, ensureConnectLocked_apart s ac o⟩
  | dialEnded ac => exact ⟨rfl, .refl s, stopFrames_apart _ _⟩
  | _ => exact ⟨rfl, ⟨rfl, rfl, rfl, rfl, rfl, rfl⟩, by simp [apart, call]⟩

/-! ## Runs -/

/-- What holds in every state. -/
def WaitsWell (p : Clients) : Prop := WaitInv p.shared p.frames ∧ Looked p.shared

theorem waitsWell_newClients : WaitsWell newClients := by
  refine ⟨?_, ?_⟩
  · constructor <;> simp [newClients, Pool.frames, computingNames, Call.Right]
  · intro i _ hanswers
    cases hanswers

theorem WaitInv.exec {t : Shared} (h : WaitInv s (f :: others)) (hlooked : Looked s)
    (hc : WaitAllowed s f c) (hexec : exec s f c = some (t, fs)) :
    WaitInv t (fs ++ others) ∧ Looked t := by
  obtain ⟨s', rfl, heffect⟩ := exec_effect hexec
  refine WaitInv.look ?_
  rcases heffect with heffect | heffect
  · obtain ⟨-, hsame, hfs⟩ := heffect.waiters
    exact (h.drop.same hsame).append hfs
  · exact h.waitEffect hlooked hc heffect

/-- The condition on the next step of a run. -/
def waitAllowed (p : Clients) : Event → Prop
  | .start _ => True
  | .run thread c => ∀ f, p.top thread = some f → WaitAllowed p.shared f c

theorem WaitsWell.step {p p' : Clients} {a : Event} (h : WaitsWell p) (hc : waitAllowed p a)
    (hstep : step p a = some p') : WaitsWell p' := by
  rcases step_cases hstep with ⟨op, rfl, hshared, hframes⟩ |
    ⟨thread, c, f, fs, others, rfl, htop, hexec, hold, hnew⟩
  · unfold WaitsWell
    rw [hshared, hframes]
    refine ⟨?_, h.2⟩
    refine (h.1.append ?_).perm perm_append_comm
    cases op <;> simp [program, apart, call]
  · obtain ⟨hinv, hlooked⟩ := (h.1.perm hold).exec h.2 (hc f htop) hexec
    exact ⟨hinv.perm hnew.symm, hlooked⟩

/-- A call that waits can time out. -/
theorem timesOut {p : Clients} {thread call ch : Nat}
    (h : p.top thread = some (.wait call ch)) :
    ∃ p', step p (.run thread .stop) = some p' ∧
      (p'.shared.calls call).result = some .timeout := by
  obtain ⟨rest, hrest⟩ := Pool.exists_of_top h
  refine ⟨⟨(p.shared.finish call .timeout).look, p.threads.set thread rest⟩, ?_, ?_⟩
  · simp only [step, Threads.step, hrest]
    rfl
  · simp [Shared.look, Shared.finish]

/-- **Calls wait.**  In a run in which a client of the workload is in the map,
or the clients are disabled, whenever a waiter is taken and whenever a call
finds no waiter, and in which the session does not end while a call waits, a
call of `WaitForWorkload` returns `nil` only if there was such a moment during
the call, and otherwise the timeout error. -/
theorem waits_answered (as : List Event) (h : Meets step waitAllowed newClients as) :
    Always step Answered newClients as := by
  refine always_of_meets ?_ ?_ waitsWell_newClients h
  · intro p hp
    exact ⟨hp.1.answered, fun _ _ _ => timesOut⟩
  · intro p a p' hp hc hstep
    exact hp.step hc hstep

instance (s : Shared) (f : Frame) (c : Choice) : Decidable (WaitAllowed s f c) := by
  unfold WaitAllowed
  split <;> infer_instance

/-- A test of the condition. -/
def waitTest (p : Clients) : Event → Bool
  | .start _ => true
  | .run thread c => (p.top thread).all fun f => decide (WaitAllowed p.shared f c)

theorem waitAllowed_of_waitTest (p : Clients) (a : Event) (h : waitTest p a = true) :
    waitAllowed p a := by
  cases a with
  | start op => trivial
  | run thread c =>
    intro f hf
    simpa [waitTest, hf] using h

/-- A new thread calls `WaitForWorkload`, and finds a channel to wait on. -/
def waitBegins (thread : Nat) : List Event :=
  [.start (.waitForWorkload "echo"), .run thread .go, .run thread .go, .run thread .go,
    .run thread .stop]

/-- The pod goes while a first call looks for its client, so that the call
stores a channel.  Two more calls wait on the channel: one until its time is
over, and the other one until the pod is there again. -/
def echoAwaited : List Event :=
  [podAdded 0 false,
    [.start (.waitForWorkload "echo"), .run 1 .go, .run 1 .go],
    [.start (.delta [] ["echo-0"]), .run 2 .go, .run 2 .go, .run 2 visitPod, .run 2 .go,
      .run 2 .go, .run 2 .go],
    [.run 1 .stop], waitBegins 3, waitBegins 4, [.run 4 .stop], podAdded 5 false,
    [.run 5 .stop, .run 5 .go, .run 5 visitPod, .run 5 .stop, .run 5 .go, .run 5 visitPod,
      .run 5 .go, .run 5 .go, .run 5 .go, .run 5 answer, .run 5 .go],
    [.run 3 .go]].flatten

/-- The results of the first calls. -/
def results (n : Nat) (p : Clients) : List (Option WaitResult) :=
  (List.range n).map fun i => (p.shared.calls i).result

/-- Such a run, with the results of its calls. -/
theorem waits_answered_echo :
    Meets step waitAllowed newClients echoAwaited ∧
      Always step Answered newClients echoAwaited ∧
      (run step newClients echoAwaited).map (results 3) =
        some [some .ok, some .ok, some .timeout] := by
  have hmeets : Meets step waitAllowed newClients echoAwaited :=
    meets_of_test waitAllowed_of_waitTest (by decide +kernel)
  exact ⟨hmeets, waits_answered echoAwaited hmeets, by decide +kernel⟩

/-- A call where there is no client at all, and no other call. -/
def firstCall : List Event :=
  [.start (.waitForWorkload "echo"), .run 0 .go, .run 0 .go, .run 0 .stop]

/-- The first call returns at once. -/
theorem first_call_returns : ¬ Always step Answered newClients firstCall := by
  intro h
  have hlast := ((((h.2 _ rfl).2 _ rfl).2 _ rfl).2 _ rfl)
  rcases hlast.1 0 .ok (by decide) with htimeout | ⟨-, hseen⟩
  · cases htimeout
  · revert hseen
    decide

end Telepresence.AgentPf
