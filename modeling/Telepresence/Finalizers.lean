import Telepresence.InterceptSpec
import Telepresence.Lib.Threads

/-!
# The finalizers of an intercept

An intercept is stored as a pointer to an object that holds its information
and its finalizers.  `UpdateIntercept` replaces the object by a changed clone
if the stored one still has the same information; it does not look at the
finalizers.  `AddIntercept` appends finalizers to the object it has stored
first, wherever the map points by then.

This is the life of one intercept: one `AddIntercept`, and any number of
updates, registrations and removals of it.

* `finalizers_run_once`: if every finalizer is appended to the object that is
  stored, and every update that succeeds replaces an object by one with the
  same finalizers, then every finalizer that has been registered before the
  intercept is removed is executed exactly once by `RemoveIntercept`.
-/

namespace Telepresence.Finalizers

open Threads Runs List

/-- `manager.InterceptInfo` with its time stamp. -/
structure Content where
  info : InterceptInfo
  modifiedAt : Int
  deriving DecidableEq

/-- `Intercept`.  A finalizer is known by its number. -/
structure Intercept where
  content : Content
  finalizers : List Nat

/-- `Intercept.addFinalizer`. -/
def Intercept.addFinalizer (is : Intercept) (finalizer : Nat) : Intercept :=
  { is with finalizers := is.finalizers ++ [finalizer] }

/-- The objects, the one the map points to, and the number of the next
finalizer.  What has been registered for the stored intercept, what had been
when it was removed and what has been executed is recorded. -/
structure Store where
  heap : List Intercept := []
  stored : Option Nat := none
  next : Nat := 0
  registered : List Nat := []
  due : List Nat := []
  executed : List Nat := []

namespace Store

/-- Append the next finalizer to an object. -/
def register (st : Store) (is : Nat) : Store :=
  { st with
    heap := st.heap.modify is (·.addFinalizer st.next)
    next := st.next + 1
    registered := if st.stored.isSome then st.registered ++ [st.next] else st.registered }

/-- Store a new object. -/
def put (st : Store) (is : Intercept) : Store :=
  { st with heap := st.heap ++ [is], stored := some st.heap.length }

/-- The information of an object. -/
def content (st : Store) (is : Nat) : Option Content := (st.heap[is]?).map (·.content)

end Store

/-- What a thread has still to do. -/
inductive Frame where
  | addIntercept (content : Content) (ports : Nat)
  | addChild (is : Nat) (ports : Nat)
  | addFinalizer (is : Nat) (ports : Nat)
  | finalizerLoad
  | finalizerAppend (is : Nat)
  | updateLoad (apply : InterceptInfo → InterceptInfo)
  | updateClone (cur : Nat) (apply : InterceptInfo → InterceptInfo)
  | updateCas (cur : Nat) (new : Intercept) (apply : InterceptInfo → InterceptInfo)
  | removeIntercept
  | terminate (is : Nat)
  | finalize (is : Nat) (i : Nat)

/-- What is left open in a step: nothing, that a child cannot be added, what
time it is. -/
inductive Choice where
  | next
  | fail
  | now (time : Int)

/-- Execute a frame. -/
def exec (st : Store) : Frame → Choice → Option (Store × List Frame)
  | .addIntercept content ports, .next =>
      if st.heap.isEmpty then some (st.put ⟨content, []⟩, [.addChild st.heap.length ports])
      else none
  -- the next pod-port: its child is stored under another ID
  | .addChild _ (_ + 1), .fail => some (st, [])
  | .addChild is (ports + 1), .next => some (st, [.addFinalizer is ports])
  | .addChild _ 0, .next => some (st, [.finalizerLoad])
  | .addFinalizer is ports, .next => some (st.register is, [.addChild is ports])
  -- `AddInterceptFinalizer`
  | .finalizerLoad, .next =>
      match st.stored with
      | none => some (st, [])
      | some is => some (st, [.finalizerAppend is])
  | .finalizerAppend is, .next => some (st.register is, [])
  -- `UpdateIntercept`
  | .updateLoad apply, .next =>
      match st.stored with
      | none => some (st, [])
      | some cur => some (st, [.updateClone cur apply])
  | .updateClone cur apply, .now time =>
      match st.heap[cur]? with
      | none => none
      | some is =>
          some (st, [.updateCas cur { is with content := ⟨apply is.content.info, time⟩ } apply])
  | .updateCas cur new apply, .next =>
      match st.stored with
      | none => some (st, [.updateLoad apply])
      | some is =>
          if st.content is = st.content cur then
            -- the map keeps the stored object if the new one is equal
            if st.content is = some new.content then some (st, []) else some (st.put new, [])
          else some (st, [.updateLoad apply])
  -- `RemoveIntercept`
  | .removeIntercept, .next =>
      match st.stored with
      | none => some (st, [])
      | some is => some ({ st with stored := none, due := st.registered }, [.terminate is])
  | .terminate is, .next =>
      match st.heap[is]? with
      | none => none
      | some o => some (st, [.finalize is o.finalizers.length])
  | .finalize _ 0, .next => some (st, [])
  | .finalize is (i + 1), .next =>
      match (st.heap[is]?).bind fun o => o.finalizers[i]? with
      | none => none
      | some f => some ({ st with executed := st.executed ++ [f] }, [.finalize is i])
  | _, _ => none

/-- The operations besides `AddIntercept`. -/
inductive Operation where
  | addInterceptFinalizer
  | updateIntercept (apply : InterceptInfo → InterceptInfo)
  | removeIntercept

/-- The frames of an operation. -/
def program : Operation → List Frame
  | .addInterceptFinalizer => [.finalizerLoad]
  | .updateIntercept apply => [.updateLoad apply]
  | .removeIntercept => [.removeIntercept]

/-- The threads around one intercept. -/
abbrev World := Pool Store Frame

/-- A step of the traffic-manager with its threads. -/
abbrev threadStep : World → Action Operation Choice → Option World := step program exec

/-- `AddIntercept` is about to store an intercept with a number of pod-ports. -/
def initial (content : Content) (ports : Nat) : World := ⟨{}, [[.addIntercept content ports]]⟩

/-- The frame belongs to a removal that has taken the intercept from the map. -/
def Frame.removing : Frame → Bool
  | .terminate _ | .finalize _ _ => true
  | _ => false

/-- A finalizer is appended to the stored object; an update that succeeds
replaces an object by one with the same finalizers. -/
def Keeps (st : Store) : Frame → Prop
  | .addFinalizer is _ | .finalizerAppend is => ∀ q, st.stored = some q → q = is
  | .updateCas cur new _ =>
      ∀ q o, st.stored = some q → st.heap[q]? = some o → st.content cur = some o.content →
        new.content ≠ o.content → new.finalizers = o.finalizers
  | _ => True

/-! ## Invariant -/

/-- How far a removal has come, by its frame: what was due is still in the
object, or partly in the object and partly executed. -/
def Removing (st : Store) : Frame → Prop
  | .terminate is => ∃ o, st.heap[is]? = some o ∧ st.due <+: o.finalizers ∧ st.executed = []
  | .finalize is i => ∃ o, st.heap[is]? = some o ∧ i ≤ o.finalizers.length ∧
      st.due <+: o.finalizers.take i ++ st.executed.reverse ∧
      (o.finalizers.take i ++ st.executed.reverse).Nodup
  | _ => False

/-- There is at most one removal; without one, what was due has been
executed. -/
def Removal (st : Store) : List Frame → Prop
  | [] => st.due <+: st.executed.reverse ∧ st.executed.Nodup
  | [f] => Removing st f
  | _ => False

/-- An object has no finalizer twice, and none that has yet to come. -/
def Distinct (st : Store) : Prop :=
  ∀ (q : Nat) (o : Intercept), st.heap[q]? = some o →
    o.finalizers.Nodup ∧ ∀ f ∈ o.finalizers, f < st.next

/-- What holds between the steps. -/
structure Inv (st : Store) (frames : List Frame) : Prop where
  /-- The stored object has all registered finalizers. -/
  stored : ∀ q, st.stored = some q → ∃ o, st.heap[q]? = some o ∧ o.finalizers = st.registered
  distinct : Distinct st
  start : st.heap = [] → st.registered = []
  /-- Before the removal, nothing has been executed. -/
  before : st.stored.isSome ∨ st.heap = [] →
    st.executed = [] ∧ frames.filter Frame.removing = []
  removal : Removal st (frames.filter Frame.removing)

variable {st : Store} {frames : List Frame}

theorem Inv.congr {frames' : List Frame} (h : Inv st frames)
    (heq : frames.filter Frame.removing = frames'.filter Frame.removing) : Inv st frames' := by
  refine ⟨h.stored, h.distinct, h.start, ?_, heq ▸ h.removal⟩
  rw [← heq]
  exact h.before

/-- There is at most one removal, so the order of the frames is irrelevant. -/
theorem Inv.perm {frames' : List Frame} (h : Inv st frames) (hperm : frames.Perm frames') :
    Inv st frames' := by
  have hfilter := hperm.filter Frame.removing
  have hrem := h.removal
  apply h.congr
  generalize frames.filter Frame.removing = l at hfilter hrem
  generalize frames'.filter Frame.removing = l' at hfilter
  cases l with
  | nil => exact (nil_perm.mp hfilter).symm
  | cons x xs =>
    cases xs with
    | nil => exact singleton_perm.mp hfilter
    | cons y ys => exact hrem.elim

variable {is q : Nat}

theorem getElem?_register {o : Intercept} :
    (st.register is).heap[q]? = some o ↔ ∃ o', st.heap[q]? = some o' ∧
      o = if is = q then o'.addFinalizer st.next else o' := by
  simp only [Store.register, getElem?_modify]
  cases st.heap[q]? with
  | none => simp
  | some o' => simp [eq_comm]

variable {f : Frame}

/-- Appending a finalizer does not disturb a removal. -/
theorem Removing.register (h : Removing st f) (is : Nat) : Removing (st.register is) f := by
  cases f with
  | terminate q =>
    obtain ⟨o, ho, hdue, hex⟩ := h
    refine ⟨_, getElem?_register.mpr ⟨o, ho, rfl⟩, ?_, hex⟩
    split
    · exact hdue.trans (prefix_append _ _)
    · exact hdue
  | finalize q i =>
    obtain ⟨o, ho, hi, hdue, hnd⟩ := h
    refine ⟨_, getElem?_register.mpr ⟨o, ho, rfl⟩, ?_⟩
    split
    · -- the finalizers that are still to be executed stay where they are
      have htake : (o.addFinalizer st.next).finalizers.take i = o.finalizers.take i :=
        take_append_of_le_length hi
      rw [htake]
      refine ⟨?_, hdue, hnd⟩
      simp only [Intercept.addFinalizer, length_append]
      omega
    · exact ⟨hi, hdue, hnd⟩
  | _ => exact h.elim

variable {st' : Store}

/-- What keeps a removal in progress and what has been executed keeps the
removal clause. -/
theorem Removal.mono (h : Removal st frames) (hdue : st'.due = st.due)
    (hex : st'.executed = st.executed) (hf : ∀ f, Removing st f → Removing st' f) :
    Removal st' frames := by
  cases frames with
  | nil =>
    rw [Removal, hdue, hex]
    exact h
  | cons x xs =>
    cases xs with
    | nil => exact hf x h
    | cons y ys => exact h.elim

theorem Inv.register (h : Inv st frames) (hkeeps : ∀ q, st.stored = some q → q = is) :
    Inv (st.register is) frames where
  stored := by
    intro q hq
    obtain ⟨o, ho, hreg⟩ := h.stored q hq
    refine ⟨_, getElem?_register.mpr ⟨o, ho, rfl⟩, ?_⟩
    have hsome : st.stored.isSome = true := by
      rw [show st.stored = some q from hq]
      rfl
    rw [if_pos (hkeeps q hq).symm]
    simp [Intercept.addFinalizer, Store.register, hsome, hreg]
  distinct := by
    intro q o ho
    obtain ⟨o', ho', rfl⟩ := getElem?_register.mp ho
    obtain ⟨hnd, hlt⟩ := h.distinct q o' ho'
    have hnew : st.next ∉ o'.finalizers := fun hmem => Nat.lt_irrefl _ (hlt _ hmem)
    split
    · refine ⟨?_, ?_⟩
      · simp only [Intercept.addFinalizer]
        rw [← concat_eq_append]
        exact .concat hnew hnd
      · exact Runs.forall_mem_concat.mpr
          ⟨fun f hf => Nat.lt_succ_of_lt (hlt f hf), Nat.lt_succ_self _⟩
    · exact ⟨hnd, fun f hf => Nat.lt_succ_of_lt (hlt f hf)⟩
  start := by
    intro hheap
    have hempty : st.heap = [] := by simpa [Store.register] using hheap
    have hnone : st.stored.isSome = false := by
      cases hst : st.stored with
      | none => rfl
      | some q =>
        obtain ⟨o, ho, _⟩ := h.stored q hst
        simp [hempty] at ho
    simpa [Store.register, hnone] using h.start hempty
  before := by
    intro hb
    apply h.before
    simpa [Store.register] using hb
  removal := h.removal.mono rfl rfl (fun _ hf => hf.register is)

theorem getElem?_put_of_lt {is : Intercept} {o : Intercept} (h : st.heap[q]? = some o) :
    (st.put is).heap[q]? = some o := by
  have hlt : q < st.heap.length := (List.getElem?_eq_some_iff.mp h).1
  simp only [Store.put]
  rw [getElem?_append_left hlt]
  exact h

/-- A new object with all registered finalizers is stored. -/
theorem Inv.put (h : Inv st frames) {is : Intercept} (hfin : is.finalizers = st.registered)
    (hnd : is.finalizers.Nodup) (hlt : ∀ f ∈ is.finalizers, f < st.next)
    (hb : st.stored.isSome ∨ st.heap = []) :
    Inv (st.put is) frames where
  stored := by
    intro q hq
    cases hq
    exact ⟨is, by simp [Store.put], hfin⟩
  distinct := by
    intro q o ho
    simp only [Store.put, getElem?_append] at ho
    split at ho
    · exact h.distinct q o ho
    · rw [getElem?_singleton] at ho
      split at ho
      · cases ho
        exact ⟨hnd, hlt⟩
      · cases ho
  start := by
    intro hheap
    simp [Store.put] at hheap
  before := fun _ => h.before hb
  removal := by
    refine h.removal.mono rfl rfl ?_
    intro f hf
    cases f with
    | terminate q | finalize q i =>
      obtain ⟨o, ho, hrest⟩ := hf
      exact ⟨o, getElem?_put_of_lt ho, hrest⟩
    | _ => exact hf.elim

variable {others : List Frame}

/-- The removal takes the intercept from the map: all registered finalizers
are due. -/
theorem Inv.remove (h : Inv st (.removeIntercept :: others)) (hq : st.stored = some q) :
    Inv { st with stored := none, due := st.registered } (.terminate q :: others) := by
  obtain ⟨o, ho, hreg⟩ := h.stored q hq
  obtain ⟨hex, hnone⟩ := h.before (.inl (by simp [hq]))
  have hothers : others.filter Frame.removing = [] := hnone
  refine ⟨by simp, h.distinct, h.start, ?_, ?_⟩
  · intro hb
    have hheap : st.heap = [] := by simpa using hb
    simp [hheap] at ho
  · rw [filter_cons_of_pos rfl, hothers]
    exact ⟨o, ho, hreg ▸ prefix_rfl, hex⟩

/-- A removal has started, so there is no other one and nothing is stored. -/
theorem Inv.of_removing (h : Inv st (f :: others)) (hf : f.removing = true) :
    Removing st f ∧ others.filter Frame.removing = [] ∧
      ¬ (st.stored.isSome = true ∨ st.heap = []) := by
  have hfilter : (f :: others).filter Frame.removing = f :: others.filter Frame.removing := by
    simp [hf]
  have hrem := h.removal
  rw [hfilter] at hrem
  have hnb : ¬ (st.stored.isSome = true ∨ st.heap = []) := by
    intro hb
    have := (h.before hb).2
    rw [hfilter] at this
    cases this
  cases hrest : others.filter Frame.removing with
  | nil =>
    rw [hrest] at hrem
    exact ⟨hrem, rfl, hnb⟩
  | cons y ys =>
    rw [hrest] at hrem
    exact hrem.elim

variable {fs : List Frame}

/-- The removal takes a step of its own. -/
theorem Inv.advance {executed : List Nat} (h : Inv st (f :: others)) (hf : f.removing = true)
    (hnext : Removal { st with executed := executed } (fs.filter Frame.removing)) :
    Inv { st with executed := executed } (fs ++ others) := by
  obtain ⟨_, hothers, hnb⟩ := h.of_removing hf
  refine ⟨h.stored, h.distinct, h.start, fun hb => absurd hb hnb, ?_⟩
  rw [filter_append, hothers, append_nil]
  exact hnext

variable {c : Choice}

/-- A clone takes the place of the stored object, if that has not changed. -/
theorem Inv.compareAndSwap {cur : Nat} {new : Intercept} {apply : InterceptInfo → InterceptInfo}
    (h : Inv st (.updateCas cur new apply :: others)) (hkeeps : Keeps st (.updateCas cur new apply))
    (hexec : exec st (.updateCas cur new apply) c = some (st', fs)) : Inv st' (fs ++ others) := by
  cases c <;> simp only [exec, reduceCtorEq] at hexec
  split at hexec
  · cases hexec
    exact h.congr rfl
  · rename_i q hq
    obtain ⟨o, ho, hreg⟩ := h.stored q hq
    have hcontent : st.content q = some o.content := by simp [Store.content, ho]
    rw [hcontent] at hexec
    split at hexec
    · rename_i hcur
      split at hexec
      · cases hexec
        exact h.congr rfl
      · rename_i hne
        cases hexec
        -- the clone has the finalizers of the object it replaces
        have hfin : new.finalizers = o.finalizers :=
          hkeeps q o hq ho hcur.symm (fun heq => hne (congrArg some heq.symm))
        obtain ⟨hnd, hlt⟩ := h.distinct q o ho
        rw [← hfin] at hnd hlt hreg
        exact (h.put hreg hnd hlt (.inl (by simp [hq]))).congr rfl
    · cases hexec
      exact h.congr rfl

/-- The loop of `terminate`, from the last finalizer to the first. -/
theorem Inv.finalize {i : Nat} (h : Inv st (.finalize is i :: others))
    (hexec : exec st (.finalize is i) c = some (st', fs)) : Inv st' (fs ++ others) := by
  obtain ⟨⟨o, ho, hi, hdue, hnd⟩, _, _⟩ := h.of_removing rfl
  cases i with
  | zero =>
    cases c <;> simp only [exec, reduceCtorEq] at hexec
    cases hexec
    refine h.advance rfl ⟨?_, ?_⟩
    · simpa using hdue
    · simpa using hnd
  | succ i =>
    cases c <;> simp only [exec, reduceCtorEq] at hexec
    rw [ho] at hexec
    have hlt : i < o.finalizers.length := hi
    simp only [Option.bind_some, getElem?_eq_getElem hlt] at hexec
    cases hexec
    -- the last of the remaining finalizers moves to the executed ones
    have hmove : o.finalizers.take (i + 1) ++ st.executed.reverse =
        o.finalizers.take i ++ (st.executed ++ [o.finalizers[i]]).reverse := by
      rw [take_succ_eq_append_getElem hlt, reverse_append, append_assoc]
      rfl
    rw [hmove] at hdue hnd
    exact h.advance rfl ⟨o, ho, Nat.le_of_lt hlt, hdue, hnd⟩

/-- One step keeps the invariant if it meets the condition. -/
theorem inv_exec (h : Inv st (f :: others)) (hkeeps : Keeps st f)
    (hexec : exec st f c = some (st', fs)) : Inv st' (fs ++ others) := by
  cases f
  case updateCas cur new apply => exact h.compareAndSwap hkeeps hexec
  case finalize is i => exact h.finalize hexec
  case addChild is ports =>
    cases ports <;> cases c <;> simp only [exec, reduceCtorEq] at hexec <;> cases hexec <;>
      exact h.congr rfl
  all_goals cases c <;> simp only [exec, reduceCtorEq] at hexec
  case addIntercept.next content ports =>
    split at hexec
    · rename_i hheap
      cases hexec
      have hempty : st.heap = [] := by simpa using hheap
      have hinv : Inv (st.put ⟨content, []⟩) (.addIntercept content ports :: others) :=
        h.put (h.start hempty).symm (by simp) (by simp) (.inr hempty)
      exact hinv.congr rfl
    · cases hexec
  case addFinalizer.next | finalizerAppend.next =>
    cases hexec
    exact (h.register hkeeps).congr rfl
  case finalizerLoad.next | updateLoad.next | updateClone.now =>
    split at hexec <;> cases hexec <;> exact h.congr rfl
  case removeIntercept.next =>
    split at hexec
    · cases hexec
      exact h.congr rfl
    · rename_i q hq
      cases hexec
      exact h.remove hq
  case terminate.next is =>
    split at hexec
    · cases hexec
    · rename_i o ho
      cases hexec
      obtain ⟨⟨o', ho', hdue, hex⟩, _, _⟩ := h.of_removing rfl
      rw [ho] at ho'
      cases ho'
      refine h.advance rfl ⟨o, ho, Nat.le_refl _, ?_, ?_⟩
      · simpa [hex] using hdue
      · simpa [hex] using (h.distinct is o ho).1

/-- Every step of the run keeps the finalizers. -/
def KeepsFinalizers (p : World) : Action Operation Choice → Prop
  | .start _ => True
  | .run thread _ => ∀ f, p.top thread = some f → Keeps p.shared f

/-- The invariant of the threads. -/
def WorldInv (p : World) : Prop := Inv p.shared p.frames

theorem worldInv_step {p p' : World} {a : Action Operation Choice} (h : WorldInv p)
    (hcond : KeepsFinalizers p a) (hstep : threadStep p a = some p') : WorldInv p' := by
  rcases step_cases hstep with ⟨op, _, hshared, hframes⟩ |
    ⟨thread, choice, f, fs, others, rfl, htop, hexec, hold, hnew⟩
  · rw [WorldInv, hshared, hframes]
    apply h.congr
    cases op <;> simp [program, Frame.removing]
  · exact (inv_exec (h.perm hold) (hcond f htop) hexec).perm hnew.symm

/-- The finalizers that were registered when the intercept was removed have
been executed exactly once, unless the removal is still at it. -/
def RunOnce (p : World) : Prop :=
  (∀ f ∈ p.frames, f.removing = false) → ∀ f ∈ p.shared.due, p.shared.executed.count f = 1

/-- **No finalizer is lost.** In every run in which every finalizer is
appended to the stored object and every update that succeeds replaces an
object by one with the same finalizers, every finalizer that was registered
before the intercept was removed has been executed exactly once when the
removal has ended. -/
theorem finalizers_run_once (content : Content) (ports : Nat)
    (acts : List (Action Operation Choice))
    (hmeets : Meets threadStep KeepsFinalizers (initial content ports) acts) :
    Always threadStep RunOnce (initial content ports) acts := by
  have hinit : WorldInv (initial content ports) := by
    refine ⟨by simp [initial], ?_, fun _ => rfl, fun _ => ⟨rfl, rfl⟩, ?_⟩
    · intro q o ho
      simp [initial] at ho
    · exact ⟨prefix_rfl, nodup_nil⟩
  refine always_of_meets ?_ (fun _ _ _ => worldInv_step) hinit hmeets
  intro p hinv hdone f hf
  have hrem := hinv.removal
  rw [filter_eq_nil_iff.mpr (by simpa using hdone)] at hrem
  obtain ⟨hdue, hnd⟩ := hrem
  exact count_eq_one_of_mem hnd (mem_reverse.mp (hdue.subset hf))

/-- A new intercept. -/
def waiting : Content where
  info := { spec := {}, id := "c:x", clientSession := "c", disposition := .waiting, message := "" }
  modifiedAt := 0

/-- The update that a review makes. -/
def activate (info : InterceptInfo) : InterceptInfo := { info with disposition := .active }

/-- A child is added, the intercept is updated and then removed. -/
def oneAfterTheOther : List (Action Operation Choice) :=
  [.run 0 .next, .run 0 .next, .run 0 .next,
    .start (.updateIntercept activate), .run 1 .next, .run 1 (.now 1), .run 1 .next,
    .start .removeIntercept, .run 2 .next, .run 2 .next, .run 2 .next, .run 2 .next]

theorem finalizers_run_once_oneAfterTheOther :
    Always threadStep RunOnce (initial waiting 1) oneAfterTheOther := by
  apply finalizers_run_once
  iterate 2 refine .cons rfl (by intro f hf; cases hf; trivial) ?_
  refine .cons rfl (by intro f hf; cases hf; intro q hq; cases hq; rfl) ?_
  refine .cons rfl trivial ?_
  iterate 2 refine .cons rfl (by intro f hf; cases hf; trivial) ?_
  refine .cons rfl (by intro f hf; cases hf; intro q o hq ho _ _; cases hq; cases ho; rfl) ?_
  refine .cons rfl trivial ?_
  iterate 4 refine .cons rfl (by intro f hf; cases hf; trivial) ?_
  trivial

/-- An update clones the intercept before the finalizer for a child is
registered and replaces it afterwards: the finalizer is lost. -/
theorem finalizer_lost :
    ∃ content ports acts p, Runs.run threadStep (initial content ports) acts = some p ∧
      ¬ RunOnce p := by
  refine ⟨waiting, 1, [.run 0 .next, .run 0 .next,
    .start (.updateIntercept activate), .run 1 .next, .run 1 (.now 1),
    .run 0 .next,
    .run 1 .next,
    .start .removeIntercept, .run 2 .next, .run 2 .next, .run 2 .next], _, rfl, ?_⟩
  intro h
  exact absurd (h (by decide) 0 (by decide)) (by decide)

end Telepresence.Finalizers
