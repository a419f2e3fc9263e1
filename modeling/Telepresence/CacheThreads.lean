import Telepresence.Cache
import Telepresence.Lib.Iteration
import Telepresence.Lib.Threads

/-!
# The operations of the cache as threads

The operations of a `cache.Map` with unfiltered subscribers.  A write marks
the subscribers under the lock of its bucket, stores the value and arms the
timer; a notification, run by the timer or by `Subscribe`, computes the
difference to the shared snapshot, then clears the mark of each marked
subscriber and sends.  Marks, snapshot and deltas have no common lock.

Taking a snapshot and sending are atomic here, and the snapshot does not wait
for locked buckets.
-/

namespace Telepresence.Replication

open Cache Threads Runs

variable {K V : Type} [DecidableEq K]

/-- `cache.Map` with its timer and the keys whose buckets are locked. -/
structure Shared (K V : Type) extends Map K V where
  armed : Bool := false
  locked : List K := []

namespace Shared

/-- A `Range` over the subscribers begins. -/
def iterate (sh : Shared K V) : Iteration Nat := { keys := List.range sh.subscribers.length }

/-- Change a subscriber. -/
def setSubscriber (sh : Shared K V) (i : Nat) (sb : Subscription K V) : Shared K V :=
  { sh with subscribers := sh.subscribers.set i sb }

end Shared

/-- What a thread has still to do. -/
inductive Frame (K V : Type) where
  | compute (key : K) (f : Option V → ComputeOp V)
  | marking (key : K) (w : Write V) (value : V) (it : Iteration Nat)
  | store (key : K) (w : Write V)
  | rearm
  | fire
  | subscribe
  | register
  | notify
  | loop (ad : AllDelta K V) (it : Iteration Nat) (didSend : Bool)
  | sending (ad : AllDelta K V) (i : Nat) (it : Iteration Nat)
  | read (i : Nat)

/-- What is left open in a step: nothing, or which subscriber a `Range`
visits. -/
inductive Choice where
  | next
  | visit (i : Nat)

/-- Execute a frame. -/
def exec [Inhabited V] (E : Equality V) (sh : Shared K V) :
    Frame K V → Choice → Option (Shared K V × List (Frame K V))
  -- `Compute`
  | .compute key f, .next =>
      if key ∈ sh.locked then none
      else
        match computeOp E f (sh.contents.lookup key) with
        | none => some (sh, [])
        | some (w, value) =>
            some ({ sh with locked := key :: sh.locked }, [.marking key w value sh.iterate])
  | .marking key w value it, .visit i =>
      match it.visit i, sh.subscribers[i]? with
      | some it, some sb =>
          some (sh.setSubscriber i (sb.markFor key value), [.marking key w value it])
      | _, _ => none
  | .marking key w _ it, .next => if it.complete then some (sh, [.store key w]) else none
  | .store key w, .next =>
      some ({ sh with contents := w.apply key sh.contents, locked := sh.locked.erase key },
        [.rearm])
  | .rearm, .next => some ({ sh with armed := true }, [])
  -- the timer
  | .fire, .next =>
      if sh.armed then some ({ sh with armed := false }, [.notify]) else some (sh, [])
  -- `Subscribe`, without a filter
  | .subscribe, .next => some ({ sh with armed := false }, [.register])
  | .register, .next =>
      some ({ sh with subscribers := sh.subscribers ++ [{ include_ := none, mark := true }] },
        [.notify])
  -- `notify`
  | .notify, .next =>
      some ({ sh with snapshot := sh.contents },
        [.loop (makeDelta E sh.snapshot sh.contents) sh.iterate false])
  | .loop ad it didSend, .visit i =>
      match it.visit i, sh.subscribers[i]? with
      | some it, some sb =>
          if sb.mark then some (sh.setSubscriber i { sb with mark := false }, [.sending ad i it])
          else some (sh, [.loop ad it didSend])
      | _, _ => none
  | .loop ad it didSend, .next =>
      if it.complete then
        if didSend then some (sh, [.loop ad sh.iterate false]) else some (sh, [])
      else none
  | .sending ad i it, .next =>
      match sh.subscribers[i]? with
      | none => none
      | some sb => some (sh.setSubscriber i (ad.send sb), [.loop ad it true])
  -- the reader of a subscription
  | .read i, .next =>
      match sh.subscribers[i]? with
      | none => some (sh, [])
      | some sb => some (sh.setSubscriber i sb.read, [])
  | _, _ => none

/-- The operations; the timer can only fire if it is armed. -/
inductive Operation (K V : Type) where
  | compute (key : K) (f : Option V → ComputeOp V)
  | fire
  | subscribe
  | read (i : Nat)

/-- The frames of an operation. -/
def program : Operation K V → List (Frame K V)
  | .compute key f => [.compute key f]
  | .fire => [.fire]
  | .subscribe => [.subscribe]
  | .read i => [.read i]

/-- The map with its threads. -/
abbrev World (K V : Type) := Pool (Shared K V) (Frame K V)

/-- A step of the cache with its threads. -/
abbrev threadStep [Inhabited V] (E : Equality V) :
    World K V → Action (Operation K V) Choice → Option (World K V) :=
  step program (exec E)

end Telepresence.Replication
