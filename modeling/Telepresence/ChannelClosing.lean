import Telepresence.Cache
import Telepresence.Lib.Iteration
import Telepresence.Lib.Threads

/-!
# Closing the channel of a subscriber

The operations of a `cache.Map` as threads, with subscribers that go away.
When the `done` channel of a subscriber is closed, a goroutine removes it from
the map and closes its channel.  A notification may have visited the
subscriber before; it is then going to send on a channel that may be closed in
the meantime.

A visit of a `Range` and the callback for what was found are two steps here,
and so are the `select` of `send` and the send that follows it.  A send on a
closed channel, and closing it again, is a panic.

* `no_panic`: nothing panics along a run in which a channel is closed only
  while no notification holds its subscriber.
-/

namespace Telepresence.Closing

open Cache Threads Runs List

variable {K V : Type}

/-- `subscription`, with the state of its channels and whether the map has
it. -/
structure Subscriber (K V : Type) extends Subscription K V where
  done : Bool := false
  closed : Bool := false
  stored : Bool := false

/-- `cache.Map`, with all subscribers there have been, its timer, the keys
whose buckets are locked, and whether there was a panic. -/
structure Shared (K V : Type) where
  contents : GoMap K V := ∅
  snapshot : GoMap K V := ∅
  subscribers : List (Subscriber K V) := []
  armed : Bool := false
  locked : List K := []
  panicked : Bool := false

open Shared

namespace Shared

/-- The map has the subscriber. -/
def isStored (sh : Shared K V) (i : Nat) : Bool := (sh.subscribers[i]?).any (·.stored)

/-- The channel of the subscriber is closed. -/
def isClosed (sh : Shared K V) (i : Nat) : Bool := (sh.subscribers[i]?).any (·.closed)

/-- A `Range` over the subscribers begins. -/
def iterate (sh : Shared K V) : Iteration Nat :=
  { keys := (List.range sh.subscribers.length).filter sh.isStored }

/-- Change a subscriber. -/
def update (sh : Shared K V) (i : Nat) (g : Subscriber K V → Subscriber K V) : Shared K V :=
  { sh with subscribers := sh.subscribers.modify i g }

end Shared

/-- What a thread has still to do.  The numbers of the subscribers that a
`Range` has visited wait for their callback. -/
inductive Frame (K V : Type) where
  | compute (key : K) (f : Option V → ComputeOp V)
  | marking (key : K) (w : Write V) (value : V) (it : Iteration Nat) (visited : List Nat)
  | store (key : K) (w : Write V)
  | rearm
  | fire
  | subscribe (include_ : Include K V)
  | opened (i : Nat)
  | register (i : Nat)
  | awaitDone (i : Nat)
  | unsubscribe (i : Nat)
  | close (i : Nat)
  | notify
  | loop (ad : AllDelta K V) (it : Iteration Nat) (visited : List Nat) (didSend : Bool)
  | send (ad : AllDelta K V) (i : Nat)
  | select (fd : Delta K V) (i : Nat)
  | put (delta : Delta K V) (i : Nat)
  | read (i : Nat)
  | cancel (i : Nat)

/-- What is left open in a step: nothing, which subscriber a `Range` visits,
that the callback for the next one runs, or which case a `select` takes. -/
inductive Choice where
  | next
  | visit (i : Nat)
  | call
  | done
  | receive

/-- Execute a frame. -/
def exec [DecidableEq K] [Inhabited V] (E : Equality V) (sh : Shared K V) :
    Frame K V → Choice → Option (Shared K V × List (Frame K V))
  -- `Compute`
  | .compute key f, .next =>
      if key ∈ sh.locked then none
      else
        match computeOp E f (sh.contents.lookup key) with
        | none => some (sh, [])
        | some (w, value) =>
            some ({ sh with locked := key :: sh.locked }, [.marking key w value sh.iterate []])
  | .marking key w value it visited, .visit i =>
      match it.visit i with
      | none => none
      | some it =>
          some (sh, [.marking key w value it (if sh.isStored i then visited ++ [i] else visited)])
  | .marking key w value it (i :: visited), .call =>
      some (sh.update i fun sb => { sb with toSubscription := sb.markFor key value },
        [.marking key w value it visited])
  | .marking key w _ it [], .next => if it.complete then some (sh, [.store key w]) else none
  | .store key w, .next =>
      some ({ sh with contents := w.apply key sh.contents, locked := sh.locked.erase key },
        [.rearm])
  | .rearm, .next => some ({ sh with armed := true }, [])
  -- the timer
  | .fire, .next =>
      if sh.armed then some ({ sh with armed := false }, [.notify]) else some (sh, [])
  -- `Subscribe`, and the goroutine that it starts
  | .subscribe include_, .next =>
      some ({ sh with subscribers := sh.subscribers ++ [{ include_ := include_ }] },
        [.opened sh.subscribers.length])
  | .opened i, .next =>
      match sh.subscribers[i]? with
      | none => none
      | some sb =>
          if sb.done then some (sh, [.close i])
          else some ({ sh with armed := false }, [.register i])
  | .register i, .next =>
      some (sh.update i fun sb => { sb with stored := true, mark := true },
        [.notify, .awaitDone i])
  | .awaitDone i, .next =>
      match sh.subscribers[i]? with
      | none => none
      | some sb => if sb.done then some (sh, [.unsubscribe i]) else none
  | .unsubscribe i, .next => some (sh.update i fun sb => { sb with stored := false }, [.close i])
  | .close i, .next =>
      if sh.isClosed i then some ({ sh with panicked := true }, [])
      else some (sh.update i fun sb => { sb with closed := true }, [])
  -- `notify`
  | .notify, .next =>
      some ({ sh with snapshot := sh.contents },
        [.loop (makeDelta E sh.snapshot sh.contents) sh.iterate [] false])
  | .loop ad it visited didSend, .visit i =>
      match it.visit i with
      | none => none
      | some it =>
          some (sh, [.loop ad it (if sh.isStored i then visited ++ [i] else visited) didSend])
  | .loop ad it (i :: visited) didSend, .call =>
      match sh.subscribers[i]? with
      | none => none
      | some sb =>
          if sb.mark then
            some (sh.update i fun sb => { sb with mark := false },
              [.send ad i, .loop ad it visited true])
          else some (sh, [.loop ad it visited didSend])
  | .loop ad it [] didSend, .next =>
      if it.complete then
        if didSend then some (sh, [.loop ad sh.iterate [] false]) else some (sh, [])
      else none
  -- `send`
  | .send ad i, .next =>
      match sh.subscribers[i]? with
      | none => none
      | some sb =>
          let fd := ad.filteredDelta sb.initialized sb.include_
          some (sh.update i fun sb => { sb with initialized := true },
            if sb.initialized && fd.upserts.entries.isEmpty && fd.removals.entries.isEmpty then []
            else [.select fd i])
  | .select fd i, choice =>
      match sh.subscribers[i]? with
      | none => none
      | some sb =>
          match choice, sb.channel with
          | .done, _ => if sb.done then some (sh, []) else none
          | .receive, some prevDelta =>
              some (sh.update i fun sb => { sb with channel := none },
                [.put (prevDelta.merge fd) i])
          -- a closed channel yields the zero value
          | .receive, none => if sb.closed then some (sh, [.put (Delta.merge {} fd) i]) else none
          | .next, none => if sb.done || sb.closed then none else some (sh, [.put fd i])
          | _, _ => none
  | .put delta i, .next =>
      match sh.subscribers[i]? with
      | none => none
      | some sb =>
          if sb.closed then some ({ sh with panicked := true }, [])
          else
            match sb.channel with
            | some _ => none
            | none => some (sh.update i fun sb => { sb with channel := some delta }, [])
  -- the subscriber
  | .read i, .next =>
      some (sh.update i fun sb => { sb with toSubscription := sb.toSubscription.read }, [])
  | .cancel i, .next => some (sh.update i fun sb => { sb with done := true }, [])
  | _, _ => none

/-- The operations; the timer can only fire if it is armed. -/
inductive Operation (K V : Type) where
  | compute (key : K) (f : Option V → ComputeOp V)
  | fire
  | subscribe (include_ : Include K V)
  | read (i : Nat)
  | cancel (i : Nat)

/-- The frames of an operation. -/
def program : Operation K V → List (Frame K V)
  | .compute key f => [.compute key f]
  | .fire => [.fire]
  | .subscribe include_ => [.subscribe include_]
  | .read i => [.read i]
  | .cancel i => [.cancel i]

/-- The map with its threads. -/
abbrev World (K V : Type) := Pool (Shared K V) (Frame K V)

/-- A step of the cache with its threads. -/
abbrev threadStep [DecidableEq K] [Inhabited V] (E : Equality V) :
    World K V → Action (Operation K V) Choice → Option (World K V) :=
  step program (exec E)

/-! ## Conditions -/

/-- A notification has visited the subscriber and not yet finished with it. -/
def Frame.Holds (i : Nat) : Frame K V → Prop
  | .loop _ _ visited _ => i ∈ visited
  | .send _ j => i = j
  | .select _ j => i = j
  | .put _ j => i = j
  | _ => False

/-- A channel is closed only while no notification holds its subscriber. -/
def CloseAllowed (p : World K V) : Action (Operation K V) Choice → Prop
  | .start _ => True
  | .run thread _ => ∀ i, p.top thread = some (.close i) → ∀ f ∈ p.frames, ¬ f.Holds i

variable {sh sh' : Shared K V} {i : Nat} {f : Frame K V} {fs : List (Frame K V)}

/-! ## What a step does to the channels -/

/-- The subscriber that a frame of `Subscribe` or of its goroutine is about. -/
def Frame.owner : Frame K V → Option Nat
  | .opened i => some i
  | .register i => some i
  | .awaitDone i => some i
  | .unsubscribe i => some i
  | .close i => some i
  | _ => none

/-- The map does not have the subscriber, neither yet nor any more. -/
def Frame.outside : Frame K V → Option Nat
  | .opened i => some i
  | .register i => some i
  | .close i => some i
  | _ => none

/-- The effect of a step on subscribers and channels. -/
inductive Effect (sh : Shared K V) (f : Frame K V) (sh' : Shared K V) (fs : List (Frame K V)) :
    Prop where
  /-- Nothing is stored, removed or closed; only subscribers that are stored
  are visited. -/
  | quiet (hstored : ∀ i, sh'.isStored i = sh.isStored i)
      (hclosed : ∀ i, sh'.isClosed i = sh.isClosed i)
      (hlength : sh'.subscribers.length = sh.subscribers.length)
      (hpanicked : sh'.panicked = sh.panicked)
      (howner : fs.filterMap Frame.owner = f.owner.toList)
      (houtside : ∀ g ∈ fs, ∀ i, g.outside = some i → f.outside = some i)
      (hholds : ∀ g ∈ fs, ∀ i, g.Holds i → f.Holds i ∨ sh.isStored i = true)
  /-- `Subscribe` makes a channel. -/
  | open_ (include_ : Include K V) (hf : f = .subscribe include_)
      (hsh : sh' = { sh with subscribers := sh.subscribers ++ [{ include_ := include_ }] })
      (hfs : fs = [.opened sh.subscribers.length])
  /-- The subscriber is stored. -/
  | register (i : Nat) (hf : f = .register i)
      (hsh : sh' = sh.update i fun sb => { sb with stored := true, mark := true })
      (hfs : fs = [.notify, .awaitDone i])
  /-- The subscriber is removed. -/
  | unsubscribe (i : Nat) (hf : f = .unsubscribe i)
      (hsh : sh' = sh.update i fun sb => { sb with stored := false }) (hfs : fs = [.close i])
  /-- The channel is closed. -/
  | close (i : Nat) (hf : f = .close i)
      (hsh : sh' = sh.update i fun sb => { sb with closed := true }) (hfs : fs = [])
  /-- A closed channel is closed again. -/
  | closeTwice (i : Nat) (hf : f = .close i) (hclosed : sh.isClosed i = true)
  /-- Something is sent on a closed channel. -/
  | sendClosed (i : Nat) (hf : f.Holds i) (hclosed : sh.isClosed i = true)

theorem getElem?_update (sh : Shared K V) (i j : Nat) (g : Subscriber K V → Subscriber K V) :
    (sh.update i g).subscribers[j]? =
      if i = j then (sh.subscribers[j]?).map g else sh.subscribers[j]? := by
  rw [update, getElem?_modify]
  split <;> simp_all

variable {g : Subscriber K V → Subscriber K V}

theorem isStored_update (sh : Shared K V) (i j : Nat) (hg : ∀ sb, (g sb).stored = sb.stored) :
    (sh.update i g).isStored j = sh.isStored j := by
  rw [isStored, isStored, getElem?_update]
  split
  · cases sh.subscribers[j]? with
    | none => rfl
    | some sb => simp [hg]
  · rfl

theorem isClosed_update (sh : Shared K V) (i j : Nat) (hg : ∀ sb, (g sb).closed = sb.closed) :
    (sh.update i g).isClosed j = sh.isClosed j := by
  rw [isClosed, isClosed, getElem?_update]
  split
  · cases sh.subscribers[j]? with
    | none => rfl
    | some sb => simp [hg]
  · rfl

theorem length_update (sh : Shared K V) (i : Nat) (g : Subscriber K V → Subscriber K V) :
    (sh.update i g).subscribers.length = sh.subscribers.length := length_modify ..

section

variable (howner : fs.filterMap Frame.owner = f.owner.toList)
  (houtside : ∀ g ∈ fs, ∀ i, g.outside = some i → f.outside = some i)
  (hholds : ∀ g ∈ fs, ∀ i, g.Holds i → f.Holds i ∨ sh.isStored i = true)

include howner houtside hholds

/-- A step that leaves the subscribers alone. -/
theorem Effect.same (hsubscribers : sh'.subscribers = sh.subscribers)
    (hpanicked : sh'.panicked = sh.panicked) : Effect sh f sh' fs := by
  refine .quiet ?_ ?_ (by rw [hsubscribers]) hpanicked howner houtside hholds
  · intro i
    rw [isStored, hsubscribers, isStored]
  · intro i
    rw [isClosed, hsubscribers, isClosed]

/-- A step that changes a subscriber, but does not store, remove or close. -/
theorem Effect.of_update (hstored : ∀ sb, (g sb).stored = sb.stored)
    (hclosed : ∀ sb, (g sb).closed = sb.closed) : Effect sh f (sh.update i g) fs :=
  .quiet (fun j => isStored_update sh i j hstored) (fun j => isClosed_update sh i j hclosed)
    (length_update sh i g) rfl howner houtside hholds

end

variable {j : Nat}

/-- A visited subscriber was held before or is stored. -/
theorem mem_visited {visited : List Nat}
    (h : j ∈ if sh.isStored i then visited ++ [i] else visited) :
    j ∈ visited ∨ sh.isStored j = true := by
  split at h
  · rename_i hstored
    rcases mem_append.mp h with h | h
    · exact .inl h
    · rw [mem_singleton.mp h]
      exact .inr hstored
  · exact .inl h

section Effects

variable {sh sh' : Shared K V} {f : Frame K V} {c : Choice} {fs : List (Frame K V)}
  [DecidableEq K] [Inhabited V] {E : Equality V}

/-- The loop of `notify` holds the subscribers that it has visited, until the
callback for each has run. -/
theorem loop_effect {ad : AllDelta K V} {it : Iteration Nat} {visited : List Nat} {didSend : Bool}
    (h : exec E sh (.loop ad it visited didSend) c = some (sh', fs)) :
    Effect sh (.loop ad it visited didSend) sh' fs := by
  cases c with
  | visit i =>
    simp only [exec] at h
    split at h
    · cases h
    · cases h
      exact .same rfl (by simp [Frame.outside])
        (forall_mem_singleton.mpr fun j hj => mem_visited hj) rfl rfl
  | call =>
    cases visited with
    | nil => cases h
    | cons i visited =>
      simp only [exec] at h
      split at h
      · cases h
      · split at h <;> cases h
        · exact .of_update rfl (by simp [Frame.outside])
            (by simp +contextual [Frame.Holds]) (fun _ => rfl) (fun _ => rfl)
        · exact .same rfl (by simp [Frame.outside]) (by simp +contextual [Frame.Holds]) rfl rfl
  | next =>
    cases visited with
    | nil =>
      simp only [exec] at h
      split at h
      · split at h <;> cases h <;>
          exact .same rfl (by simp [Frame.outside]) (by simp [Frame.Holds]) rfl rfl
      · cases h
    | cons i visited => cases h
  | done | receive => cases h

theorem exec_effect (h : exec E sh f c = some (sh', fs)) : Effect sh f sh' fs := by
  cases f
  case loop ad it visited didSend => exact loop_effect h
  case marking key w value it visited =>
    cases visited <;> cases c <;> simp only [exec, reduceCtorEq] at h
    all_goals
      (try split at h) <;> cases h
      first
        | exact .same rfl (by simp [Frame.outside]) (by simp [Frame.Holds]) rfl rfl
        | exact .of_update rfl (by simp [Frame.outside])
            (by simp [Frame.Holds]) (fun _ => rfl) (fun _ => rfl)
  all_goals cases c <;> simp only [exec, reduceCtorEq] at h
  case subscribe.next include_ =>
    cases h
    exact .open_ include_ rfl rfl rfl
  case register.next i =>
    cases h
    exact .register i rfl rfl rfl
  case unsubscribe.next i =>
    cases h
    exact .unsubscribe i rfl rfl rfl
  case close.next i =>
    split at h
    · rename_i hclosed
      exact .closeTwice i rfl hclosed
    · cases h
      exact .close i rfl rfl rfl
  case put.next delta i =>
    split at h
    · cases h
    · rename_i sb hsb
      split at h
      · rename_i hclosed
        refine .sendClosed i rfl ?_
        rw [isClosed, hsb]
        exact hclosed
      · split at h <;> cases h
        exact .of_update rfl (by simp) (by simp) (fun _ => rfl) (fun _ => rfl)
  -- The other steps store, remove and close nothing: they leave the subscribers alone,
  -- or change one of them in another respect.
  all_goals
    repeat' split at h
    all_goals cases h
    all_goals first
      | exact .same rfl (by simp [Frame.outside]) (by simp [Frame.Holds]) rfl rfl
      | exact .of_update rfl (by simp [Frame.outside])
          (by simp [Frame.Holds]) (fun _ => rfl) (fun _ => rfl)

end Effects

/-! ## The invariant -/

/-- The subscribers that frames of `Subscribe` and its goroutines are about. -/
def owners (frames : List (Frame K V)) : List Nat := frames.filterMap Frame.owner

theorem owners_cons (f : Frame K V) (frames : List (Frame K V)) :
    owners (f :: frames) = f.owner.toList ++ owners frames := by
  unfold owners
  cases hf : f.owner with
  | none => rw [filterMap_cons_none hf]; rfl
  | some i => rw [filterMap_cons_some hf]; rfl

theorem owners_append (fs frames : List (Frame K V)) :
    owners (fs ++ frames) = owners fs ++ owners frames := filterMap_append ..

/-- There was no panic; each subscriber has at most one goroutine, and it is
not stored outside of it; a subscriber whose channel is closed is not stored,
has no goroutine any more and is not held by a notification. -/
structure Inv (sh : Shared K V) (frames : List (Frame K V)) : Prop where
  calm : sh.panicked = false
  nodup : (owners frames).Nodup
  bound : ∀ i ∈ owners frames, i < sh.subscribers.length
  outside : ∀ f ∈ frames, ∀ i, f.outside = some i → sh.isStored i = false
  closed : ∀ i, sh.isClosed i = true →
    sh.isStored i = false ∧ i ∉ owners frames ∧ ∀ f ∈ frames, ¬ f.Holds i

theorem owner_of_outside (h : f.outside = some i) : f.owner = some i := by
  cases f <;> simp only [Frame.outside, reduceCtorEq] at h
  all_goals exact h

theorem Inv.perm {frames frames' : List (Frame K V)} (h : Inv sh frames)
    (hperm : frames.Perm frames') : Inv sh frames' := by
  have howners : (owners frames).Perm (owners frames') := hperm.filterMap _
  refine ⟨h.calm, howners.nodup_iff.mp h.nodup, ?_, ?_, ?_⟩
  · intro i hi
    exact h.bound i (howners.mem_iff.mpr hi)
  · intro f hf
    exact h.outside f (hperm.mem_iff.mpr hf)
  · intro i hi
    obtain ⟨hstored, howner, hholds⟩ := h.closed i hi
    refine ⟨hstored, fun hmem => howner (howners.mem_iff.mpr hmem), ?_⟩
    intro f hf
    exact hholds f (hperm.mem_iff.mpr hf)

variable {others : List (Frame K V)}

theorem Inv.quiet (h : Inv sh (f :: others)) (hstored : ∀ i, sh'.isStored i = sh.isStored i)
    (hclosed : ∀ i, sh'.isClosed i = sh.isClosed i)
    (hlength : sh'.subscribers.length = sh.subscribers.length)
    (hpanicked : sh'.panicked = sh.panicked) (howner : fs.filterMap Frame.owner = f.owner.toList)
    (houtside : ∀ g ∈ fs, ∀ i, g.outside = some i → f.outside = some i)
    (hholds : ∀ g ∈ fs, ∀ i, g.Holds i → f.Holds i ∨ sh.isStored i = true) :
    Inv sh' (fs ++ others) := by
  have howners : owners (fs ++ others) = owners (f :: others) := by
    rw [owners_append, owners_cons, owners, howner]
  refine ⟨by rw [hpanicked, h.calm], by rw [howners]; exact h.nodup, ?_, ?_, ?_⟩
  · rw [howners, hlength]
    exact h.bound
  · intro g hg i hi
    rw [hstored]
    rcases mem_append.mp hg with hg | hg
    · exact h.outside f mem_cons_self i (houtside g hg i hi)
    · exact h.outside g (mem_cons_of_mem f hg) i hi
  · intro i hi
    rw [hclosed] at hi
    obtain ⟨hnot, hgone, hfree⟩ := h.closed i hi
    refine ⟨by rw [hstored]; exact hnot, by rw [howners]; exact hgone, ?_⟩
    intro g hg hhold
    rcases mem_append.mp hg with hg | hg
    · rcases hholds g hg i hhold with hhold | hyes
      · exact hfree f mem_cons_self hhold
      · rw [hnot] at hyes
        cases hyes
    · exact hfree g (mem_cons_of_mem f hg) hhold

/-- A new subscriber has an open channel and is not stored. -/
theorem Inv.open_ {include_ : Include K V} (h : Inv sh (.subscribe include_ :: others)) :
    Inv { sh with subscribers := sh.subscribers ++ [{ include_ := include_ }] }
      (.opened sh.subscribers.length :: others) := by
  have hflag : ∀ flag : Subscriber K V → Bool, flag { include_ := include_ } = false →
      ∀ i : Nat, ((sh.subscribers ++ [{ include_ := include_ }])[i]?).any flag =
        (sh.subscribers[i]?).any flag := by
    intro flag hnew i
    rcases Nat.lt_trichotomy i sh.subscribers.length with hlt | heq | hgt
    · rw [getElem?_append_left hlt]
    · subst heq
      simp [hnew]
    · rw [getElem?_eq_none (by simp; omega), getElem?_eq_none (by omega)]
  have hnew : sh.isStored sh.subscribers.length = false := by
    rw [isStored, getElem?_eq_none (Nat.le_refl _)]
    rfl
  have hfresh : sh.subscribers.length ∉ owners others := by
    intro hmem
    exact Nat.lt_irrefl _ (h.bound _ hmem)
  refine ⟨h.calm, nodup_cons.mpr ⟨hfresh, h.nodup⟩, ?_, ?_, ?_⟩
  · intro i hi
    simp only [length_append, length_singleton]
    rcases mem_cons.mp hi with rfl | hi
    · omega
    · have hlt := h.bound i hi
      omega
  · intro g hg i hi
    refine (hflag (·.stored) rfl i).trans ?_
    rcases mem_cons.mp hg with rfl | hg
    · cases hi
      exact hnew
    · exact h.outside g (mem_cons_of_mem _ hg) i hi
  · intro i hi
    have hclosed : sh.isClosed i = true := (hflag (·.closed) rfl i).symm.trans hi
    obtain ⟨hnot, hgone, hfree⟩ := h.closed i hclosed
    refine ⟨(hflag (·.stored) rfl i).trans hnot, ?_, ?_⟩
    · intro hmem
      rcases mem_cons.mp hmem with rfl | hmem
      · rw [isClosed, getElem?_eq_none (Nat.le_refl _)] at hclosed
        cases hclosed
      · exact hgone hmem
    · refine forall_mem_cons.mpr ⟨id, ?_⟩
      intro g hg
      exact hfree g (mem_cons_of_mem _ hg)

theorem isStored_update_of_ne (hne : i ≠ j) (g : Subscriber K V → Subscriber K V) :
    (sh.update i g).isStored j = sh.isStored j := by
  rw [isStored, getElem?_update, if_neg hne, isStored]

theorem isClosed_update_of_ne (hne : i ≠ j) (g : Subscriber K V → Subscriber K V) :
    (sh.update i g).isClosed j = sh.isClosed j := by
  rw [isClosed, getElem?_update, if_neg hne, isClosed]

/-- The frame of a subscriber is the only one about it. -/
theorem Inv.other_outside (h : Inv sh (f :: others)) (hf : f.owner = some i) :
    i ∉ owners others ∧ ∀ g ∈ others, g.outside ≠ some i := by
  have hnodup := h.nodup
  rw [owners_cons, hf] at hnodup
  have hnot := (nodup_cons.mp hnodup).1
  refine ⟨hnot, ?_⟩
  intro g hg hout
  exact hnot (mem_filterMap.mpr ⟨g, hg, owner_of_outside hout⟩)

theorem Inv.not_closed (h : Inv sh (f :: others)) (hf : f.owner = some i) :
    sh.isClosed i = false := by
  cases hclosed : sh.isClosed i with
  | false => rfl
  | true =>
    refine absurd ?_ (h.closed i hclosed).2.1
    rw [owners_cons, hf]
    exact mem_cons_self

/-- The goroutine of a subscriber changes it. -/
theorem Inv.change (h : Inv sh (f :: others)) (fs : List (Frame K V)) (hf : f.owner = some i)
    (howners : (owners fs).Sublist [i])
    (houtside : ∀ g' ∈ fs, ∀ j, g'.outside = some j → (sh.update i g).isStored j = false)
    (hfree : ∀ g' ∈ fs, ∀ j, ¬ g'.Holds j)
    (hclosed : (sh.update i g).isClosed i = true →
      (sh.update i g).isStored i = false ∧ i ∉ owners fs ∧ ∀ g' ∈ others, ¬ g'.Holds i) :
    Inv (sh.update i g) (fs ++ others) := by
  obtain ⟨hnot, hothers⟩ := h.other_outside hf
  have hsub : (owners (fs ++ others)).Sublist (owners (f :: others)) := by
    rw [owners_append, owners_cons, hf]
    exact howners.append_right _
  refine ⟨h.calm, h.nodup.sublist hsub, ?_, ?_, ?_⟩
  · intro j hj
    rw [length_update]
    exact h.bound j (hsub.subset hj)
  · intro g' hg' j hj
    rcases mem_append.mp hg' with hg' | hg'
    · exact houtside g' hg' j hj
    · have hne : i ≠ j := by
        rintro rfl
        exact hothers g' hg' hj
      rw [isStored_update_of_ne hne]
      exact h.outside g' (mem_cons_of_mem _ hg') j hj
  · intro j hj
    by_cases heq : i = j
    · subst heq
      obtain ⟨hstored, hgone, hholds⟩ := hclosed hj
      refine ⟨hstored, ?_, ?_⟩
      · rw [owners_append, mem_append]
        exact not_or.mpr ⟨hgone, hnot⟩
      · exact forall_mem_append.mpr ⟨fun g' hg' => hfree g' hg' i, hholds⟩
    · rw [isClosed_update_of_ne heq] at hj
      obtain ⟨hstored, hgone, hholds⟩ := h.closed j hj
      rw [isStored_update_of_ne heq]
      refine ⟨hstored, fun hmem => hgone (hsub.subset hmem), forall_mem_append.mpr
        ⟨fun g' hg' => hfree g' hg' j, fun g' hg' => hholds g' (mem_cons_of_mem _ hg')⟩⟩

theorem Inv.register (h : Inv sh (.register i :: others)) :
    Inv (sh.update i fun sb => { sb with stored := true, mark := true })
      (.notify :: .awaitDone i :: others) := by
  refine h.change [.notify, .awaitDone i] rfl (List.Sublist.refl _)
    (by simp [Frame.outside]) (by simp [Frame.Holds]) ?_
  intro hclosed
  rw [isClosed_update sh i i (by intro sb; rfl), h.not_closed rfl] at hclosed
  cases hclosed

theorem Inv.unsubscribe (h : Inv sh (.unsubscribe i :: others)) :
    Inv (sh.update i fun sb => { sb with stored := false }) (.close i :: others) := by
  have hnot : (sh.update i fun sb => { sb with stored := false }).isStored i = false := by
    rw [isStored, getElem?_update, if_pos rfl]
    cases sh.subscribers[i]? <;> rfl
  refine h.change [.close i] rfl (List.Sublist.refl _) ?_ (by simp [Frame.Holds]) ?_
  · refine forall_mem_singleton.mpr fun j hj => ?_
    cases hj
    exact hnot
  · intro hclosed
    rw [isClosed_update sh i i (by intro sb; rfl), h.not_closed rfl] at hclosed
    cases hclosed

/-- The channel of a subscriber that no notification holds is closed. -/
theorem Inv.close (h : Inv sh (.close i :: others)) (hfree : ∀ f ∈ others, ¬ f.Holds i) :
    Inv (sh.update i fun sb => { sb with closed := true }) others := by
  refine h.change [] rfl (nil_sublist _) (by simp) (by simp) fun _ => ?_
  rw [isStored_update sh i i (by intro sb; rfl)]
  exact ⟨h.outside _ mem_cons_self i rfl, not_mem_nil, hfree⟩

theorem Inv.exec [DecidableEq K] [Inhabited V] {E : Equality V} {c : Choice}
    (h : Inv sh (f :: others)) (hclose : ∀ i, f = .close i → ∀ g ∈ others, ¬ g.Holds i)
    (hexec : exec E sh f c = some (sh', fs)) : Inv sh' (fs ++ others) := by
  cases exec_effect hexec with
  | quiet hstored hclosed hlength hpanicked howner houtside hholds =>
    exact h.quiet hstored hclosed hlength hpanicked howner houtside hholds
  | open_ include_ hf hsh hfs =>
    subst hf hsh hfs
    exact h.open_
  | register i hf hsh hfs =>
    subst hf hsh hfs
    exact h.register
  | unsubscribe i hf hsh hfs =>
    subst hf hsh hfs
    exact h.unsubscribe
  | close i hf hsh hfs =>
    subst hf hsh hfs
    exact h.close (hclose i rfl)
  | closeTwice i hf hclosed =>
    subst hf
    rw [h.not_closed rfl] at hclosed
    cases hclosed
  | sendClosed i hf hclosed => exact absurd hf ((h.closed i hclosed).2.2 f mem_cons_self)

theorem Inv.start {frames : List (Frame K V)} (h : Inv sh frames) (op : Operation K V) :
    Inv sh (frames ++ program op) := by
  have hnew : ∀ f ∈ program op, f.owner = none ∧ f.outside = none ∧ ∀ i, ¬ f.Holds i := by
    cases op <;> exact forall_mem_singleton.mpr ⟨rfl, rfl, fun _ => id⟩
  have howners : owners (frames ++ program op) = owners frames := by
    rw [owners_append]
    have hnil : owners (program op) = [] :=
      filterMap_eq_nil_iff.mpr fun f hf => (hnew f hf).1
    rw [hnil, append_nil]
  refine ⟨h.calm, by rw [howners]; exact h.nodup, by rw [howners]; exact h.bound, ?_, ?_⟩
  · intro f hf i hi
    rcases mem_append.mp hf with hf | hf
    · exact h.outside f hf i hi
    · rw [(hnew f hf).2.1] at hi
      cases hi
  · intro i hi
    obtain ⟨hnot, hgone, hfree⟩ := h.closed i hi
    refine ⟨hnot, by rw [howners]; exact hgone, ?_⟩
    exact forall_mem_append.mpr ⟨hfree, fun f hf => (hnew f hf).2.2 i⟩

/-! ## Runs -/

/-- **No panic.**  Along a run from the empty map in which a channel is closed
only while no notification holds its subscriber, nothing is sent on a closed
channel and no channel is closed twice. -/
theorem no_panic [DecidableEq K] [Inhabited V] (E : Equality V)
    {actions : List (Action (Operation K V) Choice)}
    (h : Meets (threadStep E) CloseAllowed ⟨{}, []⟩ actions) :
    Always (threadStep E) (fun p : World K V => p.shared.panicked = false) ⟨{}, []⟩ actions := by
  have hprop : ∀ p : World K V, Inv p.shared p.frames → p.shared.panicked = false :=
    fun _ hp => hp.calm
  refine always_of_meets hprop ?_ ?_ h
  · intro p a p' hp hallow hstep
    rcases step_cases hstep with
      ⟨op, _, hsh, hframes⟩ | ⟨thread, c, f, fs, others, rfl, htop, hexec, hold, hnew⟩
    · rw [hsh, hframes]
      exact hp.start op
    · refine ((hp.perm hold).exec ?_ hexec).perm hnew.symm
      rintro i rfl g hg
      exact hallow i htop g (hold.mem_iff.mpr (mem_cons_of_mem _ hg))
  · refine ⟨rfl, nodup_nil, forall_mem_nil _, forall_mem_nil _, ?_⟩
    intro i hi
    cases hi

/-- `Subscribe` runs to its end, and its goroutine waits. -/
def subscribing : List (Action (Operation String Nat) Choice) :=
  [.start (.subscribe none), .run 0 .next, .run 0 .next, .run 0 .next, .run 0 .next,
    .run 0 (.visit 0), .run 0 .call, .run 0 .next, .run 0 .next, .run 0 .next, .run 0 .next,
    .run 0 (.visit 0), .run 0 .call, .run 0 .next]

/-- The subscriber is cancelled, and its goroutine closes the channel. -/
def leaving (thread : Nat) : List (Action (Operation String Nat) Choice) :=
  [.start (.cancel 0), .run thread .next, .run 0 .next, .run 0 .next, .run 0 .next]

theorem no_panic_undisturbed :
    Always (threadStep (Equality.eq Nat))
      (fun p : World String Nat => p.shared.panicked = false) ⟨{}, []⟩
      (subscribing ++ leaving 1) := by
  apply no_panic
  refine Meets.cons rfl trivial ?_
  iterate 13 refine Meets.cons rfl (by intro i hi; cases hi) ?_
  refine Meets.cons rfl trivial ?_
  iterate 3 refine Meets.cons rfl (by intro i hi; cases hi) ?_
  refine Meets.cons rfl ?_ trivial
  intro i hi f hf
  cases hi
  rw [mem_singleton.mp hf]
  exact id

/-- `Store` marks the subscriber, and the timer's notification has taken the
unread delta from its channel. -/
def resending : List (Action (Operation String Nat) Choice) :=
  [.start (.compute "x" (store 1)), .run 1 .next, .run 1 (.visit 0), .run 1 .call, .run 1 .next,
    .run 1 .next, .run 1 .next, .start .fire, .run 2 .next, .run 2 .next, .run 2 (.visit 0),
    .run 2 .call, .run 2 .next, .run 2 .receive]

/-- The channel is closed before the notification puts the merged delta back:
it panics. -/
theorem send_on_closed :
    ∃ p : World String Nat,
      Runs.run (threadStep (Equality.eq Nat)) ⟨{}, []⟩
          (subscribing ++ resending ++ leaving 3 ++ [.run 2 .next]) = some p ∧
        p.shared.panicked = true :=
  ⟨_, rfl, rfl⟩

end Telepresence.Closing
