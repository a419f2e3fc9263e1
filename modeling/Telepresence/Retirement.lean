import Telepresence.ManagerThreads

/-!
# Retiring a client session

A client session leaves `State.clients` in three ways: `RemoveSession` takes it
out with `LoadAndDelete`, while `expireSessions` and `pruneSessions` go over
the sessions and delete the ID of each that they want to remove.  In all cases
`removeClientSession` follows, for the session that was loaded or visited: its
intercepts are removed and their finalizers run, and its byte counters are
added to the totals.

The sessions are numbered here, as an ID may be used again by `RestoreClient`.
Intercepts are not added, and agents are left out.

* `exec`: what the threads of these operations do, step by step.
* `RetiredOnce`: that nothing happens twice, and everything has happened when
  no operation is in progress.
* `AddsCounters`: what is added to a total.
* `exec_effect`: the few ways in which a step changes what matters for that.
-/

namespace Telepresence.Retirement

open Manager Threads Runs List

/-- The two totals of the traffic-manager. -/
inductive Meter where
  | ingress | egress
  deriving DecidableEq

/-- `ClientSession`. -/
structure Session where
  id : String
  namespace_ : String
  lastMarked : Int
  fromClientBytes : Nat := 0
  toClientBytes : Nat := 0

/-- The session's own counter. -/
def Session.bytes (ss : Session) : Meter → Nat
  | .ingress => ss.fromClientBytes
  | .egress => ss.toClientBytes

/-- `Intercept`.  Its finalizers delete its children, and restore the
container of the workload. -/
structure Intercept where
  session : String
  removed : Bool := false
  children : List String := []

/-- `State`, with all sessions there have been, what has been added to the
totals for which session, and whose finalizers have run. -/
structure Shared where
  sessions : List Session := []
  clients : GoMap String Nat := ∅
  intercepts : GoMap String Intercept := ∅
  totals : List ((Meter × Nat) × Nat) := []
  terminated : List String := []

namespace Shared

/-- `tunnelIngressCounter` and `tunnelEgressCounter`. -/
def tunnelCounter (sh : Shared) (m : Meter) : Nat :=
  ((sh.totals.filter (·.1.1 = m)).map (·.2)).sum % 2 ^ 64

/-- The ID of a session. -/
def idOf (sh : Shared) (t : Nat) : Option String := (sh.sessions[t]?).map (·.id)

/-- Add a session. -/
def arrive (sh : Shared) (ss : Session) : Shared :=
  { sh with
    sessions := sh.sessions ++ [ss]
    clients := sh.clients.insert ss.id sh.sessions.length }

/-- Delete an ID. -/
def depart (sh : Shared) (id : String) : Shared :=
  { sh with clients := sh.clients.erase id }

/-- Delete an intercept. -/
def drop (sh : Shared) (id : String) : Shared :=
  { sh with intercepts := sh.intercepts.erase id }

/-- Change a session. -/
def update (sh : Shared) (t : Nat) (g : Session → Session) : Shared :=
  { sh with sessions := sh.sessions.modify t g }

/-- Add a counter of a session to a total. -/
def addTotal (sh : Shared) (m : Meter) (t : Nat) : Shared :=
  { sh with totals := ((m, t), ((sh.sessions[t]?).map (·.bytes m)).getD 0) :: sh.totals }

/-- The intercepts of the session that `gcClientSessionIntercepts` removes. -/
def readIntercept (sh : Shared) (t : Nat) (key : String) : List String :=
  match sh.intercepts.lookup key with
  | none => []
  | some ic => if ic.removed = false ∧ sh.idOf t = some ic.session then [key] else []

/-- The session that is stored under an ID. -/
def readClient (sh : Shared) (key : String) : List (String × Nat) :=
  (sh.clients.lookup key).toList.map fun t => (key, t)

end Shared

/-- What a thread has still to do. -/
inductive Frame where
  | addClient (id namespace_ : String) (now : Int)
  | mark (id : String) (now : Int)
  | adjustMark (id : String) (diff : Int)
  | traffic (t : Nat) (m : Meter) (bytes : Nat)
  | removeSession (id : String)
  | doomClients (d : Doom) (scan : Option (Scan (String × Nat)))
  | deleteClient (id : String) (t : Nat)
  | gc (t : Nat) (scan : Option (Scan String))
  | removeIntercept (id : String)
  | terminate (id : String) (children : List String)
  | add (m : Meter) (t : Nat)

/-- `removeClientSession`. -/
def retire (t : Nat) : List Frame := [.gc t none, .add .ingress t, .add .egress t]

/-- The callback of `expireSessions` and `pruneSessions`. -/
def doomCallback (sh : Shared) (d : Doom) (e : String × Nat) : List Frame :=
  match sh.sessions[e.2]? with
  | none => []
  | some ss => if d.applies ss.namespace_ ss.lastMarked then [.deleteClient e.1 e.2] else []

/-- Execute a frame. -/
def exec (sh : Shared) : Frame → Choice → Option (Shared × List Frame)
  -- a duplicate ID panics
  | .addClient id namespace_ now, .next =>
      match sh.clients.lookup id with
      | some _ => none
      | none =>
          some (sh.arrive { id := id, namespace_ := namespace_, lastMarked := now }, [])
  | .mark id now, .next =>
      match sh.clients.lookup id with
      | none => some (sh, [])
      | some t =>
          some (sh.update t fun ss =>
            { ss with lastMarked := if ss.lastMarked < now then now else ss.lastMarked }, [])
  | .adjustMark id diff, .next =>
      match sh.clients.lookup id with
      | none => some (sh, [])
      | some t => some (sh.update t fun ss => { ss with lastMarked := ss.lastMarked + diff }, [])
  | .traffic t .ingress bytes, .next =>
      some (sh.update t fun ss => { ss with fromClientBytes := ss.fromClientBytes + bytes }, [])
  | .traffic t .egress bytes, .next =>
      some (sh.update t fun ss => { ss with toClientBytes := ss.toClientBytes + bytes }, [])
  -- `RemoveSession`, of a client
  | .removeSession id, .next =>
      match sh.clients.lookup id with
      | none => some (sh, [])
      | some t => some (sh.depart id, retire t)
  -- `expireSessions` and `pruneSessions`, of clients
  | .doomClients d scan, choice =>
      scanStep sh (.doomClients d) sh.clients.keys sh.readClient (doomCallback sh d) false scan
        choice
  | .deleteClient id t, .next => some (sh.depart id, retire t)
  -- `gcClientSessionIntercepts`
  | .gc t scan, choice =>
      scanStep sh (.gc t) sh.intercepts.keys (sh.readIntercept t)
        (fun id => [.removeIntercept id]) false scan choice
  | .removeIntercept id, .next =>
      match sh.intercepts.lookup id with
      | none => some (sh, [])
      | some ic => some (sh.drop id, [.terminate id ic.children])
  | .terminate id (child :: children), .next =>
      some (sh.drop child, [.terminate id children])
  | .terminate id [], .next => some ({ sh with terminated := id :: sh.terminated }, [])
  -- the totals
  | .add m t, .next => some (sh.addTotal m t, [])
  | _, _ => none

/-- The operations. -/
inductive Operation where
  | addClient (id namespace_ : String) (now : Int)
  | mark (id : String) (now : Int)
  | adjustMark (id : String) (diff : Int)
  | traffic (t : Nat) (m : Meter) (bytes : Nat)
  | removeSession (id : String)
  | doom (d : Doom)

/-- The frames of an operation. -/
def program : Operation → List Frame
  | .addClient id namespace_ now => [.addClient id namespace_ now]
  | .mark id now => [.mark id now]
  | .adjustMark id diff => [.adjustMark id diff]
  | .traffic t m bytes => [.traffic t m bytes]
  | .removeSession id => [.removeSession id]
  | .doom d => [.doomClients d none]

/-- The traffic-manager with its threads. -/
abbrev World := Pool Shared Frame

/-- A step of the traffic-manager with its threads. -/
abbrev threadStep : World → Action Operation Choice → Option World := step program exec

/-! ## What is claimed -/

/-- The session was in `State.clients` and is not any more. -/
def Left (sh : Shared) (t : Nat) : Prop :=
  ∃ id, sh.idOf t = some id ∧ sh.clients.lookup id ≠ some t

/-- Of the intercepts that there were: it is not the child of another one. -/
def TopLevel (initial : GoMap String Intercept) (id : String) : Prop :=
  ∀ pid parent, initial.lookup pid = some parent → id ∉ parent.children

/-- Nothing happens twice, and when no operation is in progress, everything has
happened once for each session that has left: both counters have been added,
and its intercepts are gone with their finalizers executed. -/
def RetiredOnce (initial : GoMap String Intercept) (p : World) : Prop :=
  (∀ m t, (p.shared.totals.map (·.1)).count (m, t) ≤ 1) ∧
    (∀ id, p.shared.terminated.count id ≤ 1) ∧
    (p.Idle → ∀ t, Left p.shared t →
      (∀ m, (p.shared.totals.map (·.1)).count (m, t) = 1) ∧
        ∀ id ic, initial.lookup id = some ic → ic.removed = false →
          p.shared.idOf t = some ic.session →
          p.shared.intercepts.lookup id = none ∧
            (TopLevel initial id → p.shared.terminated.count id = 1))

/-- What is added to a total in a step is the counter of a session that has
left, as it is then, and the total grows by that amount. -/
def AddsCounters (sh sh' : Shared) : Prop :=
  sh'.totals = sh.totals ∨
    ∃ m t ss, Left sh t ∧ sh.sessions[t]? = some ss ∧
      sh'.totals = ((m, t), ss.bytes m) :: sh.totals ∧
      ∀ m', sh'.tunnelCounter m' =
        (sh.tunnelCounter m' + if m' = m then ss.bytes m else 0) % 2 ^ 64

/-- A session is deleted only while it is the one that is stored. -/
def DeleteAllowed (p : World) : Action Operation Choice → Prop
  | .start _ => True
  | .run thread _ =>
      ∀ id t, p.top thread = some (.deleteClient id t) → p.shared.clients.lookup id = some t

/-! ## What is pending -/

/-- The addition to a total that a frame makes. -/
def Frame.adds : Frame → Option (Meter × Nat)
  | .add m t => some (m, t)
  | _ => none

/-- The intercept whose finalizers a frame executes. -/
def Frame.terminates : Frame → Option String
  | .terminate id _ => some id
  | _ => none

/-- The frame will remove the intercept on behalf of the session. -/
def Frame.Collects (t : Nat) (id : String) : Frame → Prop
  | .gc t' none => t' = t
  | .gc t' (some scan) => t' = t ∧ (scan.iter.Awaits id ∨ id ∈ scan.pending)
  | .removeIntercept id' => id' = id
  | _ => False

/-- The intercept is one that is removed along with the session. -/
def Owned (sh : Shared) (t : Nat) (id : String) : Prop :=
  ∃ ic, sh.intercepts.lookup id = some ic ∧ ic.removed = false ∧ sh.idOf t = some ic.session

/-! ## What a step does -/

variable {sh sh' : Shared} {choice : Choice} {fs : List Frame}

/-- A step of a `Range` keeps what has to be collected: it is still to be
visited, or to be called back, or the callback is next. -/
theorem scanStep_collects {t : Nat} {scan : Option (Scan String)} {id : String}
    (h : scanStep sh (.gc t) sh.intercepts.keys (sh.readIntercept t)
      (fun id => [.removeIntercept id]) false scan choice = some (sh', fs)) (howned : Owned sh t id)
    (hcollects : (Frame.gc t scan).Collects t id) : ∃ g ∈ fs, g.Collects t id := by
  obtain ⟨ic, hlookup, hremoved, hsession⟩ := howned
  have hread : sh.readIntercept t id = [id] := by
    simp [Shared.readIntercept, hlookup, hremoved, hsession]
  rcases (scanStep_cases h).2 with ⟨rfl, rfl⟩ | ⟨scan, key, iter, rfl, hvisit, rfl⟩ |
    ⟨scan, x, rest, rfl, hpend, rfl⟩ | ⟨scan, rfl, hdone, hpend, rfl⟩
  · have hkey := GoMap.mem_keys_of_lookup hlookup
    exact ⟨_, mem_singleton_self _, rfl, .inl (Iteration.awaits_start hkey)⟩
  · refine ⟨_, mem_singleton_self _, rfl, ?_⟩
    rcases hcollects.2 with hawaits | hpending
    · by_cases hkey : id = key
      · subst hkey
        exact .inr (by simp [hread])
      · exact .inl (hawaits.of_visit hvisit hkey)
    · exact .inr (mem_append_left _ hpending)
  · rcases hcollects.2 with hawaits | hpending
    · exact ⟨.gc t (some { scan with pending := rest }), by simp, rfl, .inl hawaits⟩
    · rw [hpend] at hpending
      rcases mem_cons.mp hpending with rfl | hrest
      · exact ⟨.removeIntercept id, by simp, rfl⟩
      · exact ⟨.gc t (some { scan with pending := rest }), by simp, rfl, .inr hrest⟩
  · rcases hcollects.2 with hawaits | hpending
    · exact absurd hawaits (Iteration.not_awaits_of_complete hdone _)
    · simp [hpend] at hpending

/-- The frames that a step of a `Range` leaves are those of the callback and
those that go on with the `Range`. -/
theorem mem_scanStep {π : Type} {frame : Option (Scan π) → Frame} {keys : List String}
    {read : String → List π} {callback : π → List Frame} {scan : Option (Scan π)}
    (h : scanStep sh frame keys read callback false scan choice = some (sh', fs)) {g : Frame}
    (hg : g ∈ fs) : (∃ x, g ∈ callback x) ∨ ∃ scan', g = frame scan' := by
  rcases (scanStep_cases h).2 with ⟨_, rfl⟩ | ⟨scan, key, iter, _, _, rfl⟩ |
    ⟨scan, x, rest, _, _, rfl⟩ | ⟨scan, _, _, _, rfl⟩
  · exact .inr ⟨_, mem_singleton.mp hg⟩
  · exact .inr ⟨_, mem_singleton.mp hg⟩
  · rcases mem_append.mp hg with hcall | hrest
    · exact .inl ⟨x, hcall⟩
    · exact .inr ⟨_, mem_singleton.mp hrest⟩
  · cases hg

/-- A frame that neither adds to a total nor executes finalizers. -/
def Frame.Plain (f : Frame) : Prop := f.adds = none ∧ f.terminates = none

theorem plain_of_mem_doomCallback {d : Doom} {e : String × Nat} {g : Frame}
    (h : g ∈ doomCallback sh d e) : g.Plain := by
  unfold doomCallback at h
  split at h
  · cases h
  · split at h
    · rw [mem_singleton.mp h]
      exact ⟨rfl, rfl⟩
    · cases h

@[simp]
theorem idOf_update (sh : Shared) (t : Nat) (g : Session → Session) (hg : ∀ ss, (g ss).id = ss.id)
    (t' : Nat) : (sh.update t g).idOf t' = sh.idOf t' := by
  by_cases ht : t = t'
  · subst ht
    cases hget : sh.sessions[t]? with
    | none => simp [Shared.update, Shared.idOf, hget]
    | some ss => simp [Shared.update, Shared.idOf, hget, hg]
  · simp [Shared.update, Shared.idOf, ht]

/-- What executing a frame can do. -/
inductive Effect (sh : Shared) (f : Frame) : Shared → List Frame → Prop
  | quiet {sh' : Shared} {fs : List Frame} (hids : ∀ t, sh'.idOf t = sh.idOf t)
      (hclients : sh'.clients = sh.clients) (hintercepts : sh'.intercepts = sh.intercepts)
      (htotals : sh'.totals = sh.totals) (hterminated : sh'.terminated = sh.terminated)
      (hf : f.Plain) (hfs : ∀ g ∈ fs, g.Plain)
      (hcollects : ∀ t id, Owned sh t id → f.Collects t id → ∃ g ∈ fs, g.Collects t id) :
      Effect sh f sh' fs
  | arrive (ss : Session) (hf : f = .addClient ss.id ss.namespace_ ss.lastMarked)
      (habsent : sh.clients.lookup ss.id = none) :
      Effect sh f (sh.arrive ss) []
  | depart (id : String) (t : Nat)
      (hf : f = .removeSession id ∧ sh.clients.lookup id = some t ∨ f = .deleteClient id t) :
      Effect sh f (sh.depart id) (retire t)
  | remove (id : String) (ic : Intercept) (hf : f = .removeIntercept id)
      (hlookup : sh.intercepts.lookup id = some ic) :
      Effect sh f (sh.drop id) [.terminate id ic.children]
  | child (id c : String) (cs : List String) (hf : f = .terminate id (c :: cs)) :
      Effect sh f (sh.drop c) [.terminate id cs]
  | finish (id : String) (hf : f = .terminate id []) :
      Effect sh f { sh with terminated := id :: sh.terminated } []
  | total (m : Meter) (t : Nat) (hf : f = .add m t) : Effect sh f (sh.addTotal m t) []

variable {f : Frame}

/-- A step that leaves the state as it is. -/
theorem Effect.same (hf : f.Plain) (hfs : ∀ g ∈ fs, g.Plain)
    (hcollects : ∀ t id, Owned sh t id → f.Collects t id → ∃ g ∈ fs, g.Collects t id) :
    Effect sh f sh fs := .quiet (fun _ => rfl) rfl rfl rfl rfl hf hfs hcollects

/-- A step that changes a session. -/
theorem Effect.session (t : Nat) (g : Session → Session) (hg : ∀ ss, (g ss).id = ss.id)
    (hf : f.Plain) (hcollects : ∀ t id, ¬ f.Collects t id) : Effect sh f (sh.update t g) [] :=
  .quiet (idOf_update sh t g hg) rfl rfl rfl rfl hf (forall_mem_nil _)
    fun t id _ h => absurd h (hcollects t id)

theorem exec_effect (h : exec sh f choice = some (sh', fs)) :
    Effect sh f sh' fs := by
  cases f
  case doomClients d scan =>
    have hsame := (scanStep_cases h).1
    subst hsame
    refine .same ⟨rfl, rfl⟩ ?_ (fun _ _ _ hc => hc.elim)
    intro g hg
    rcases mem_scanStep h hg with ⟨x, hx⟩ | ⟨scan', rfl⟩
    · exact plain_of_mem_doomCallback hx
    · exact ⟨rfl, rfl⟩
  case gc t scan =>
    have hsame := (scanStep_cases h).1
    subst hsame
    refine .same ⟨rfl, rfl⟩ ?_ ?_
    · intro g hg
      rcases mem_scanStep h hg with ⟨x, hx⟩ | ⟨scan', rfl⟩
      · rw [mem_singleton.mp hx]
        exact ⟨rfl, rfl⟩
      · exact ⟨rfl, rfl⟩
    · intro t' id howned hcollects
      have ht : t = t' := by
        cases scan with
        | none => exact hcollects
        | some scan => exact hcollects.1
      subst ht
      exact scanStep_collects h howned hcollects
  case terminate id children =>
    cases children <;> cases choice <;> simp only [exec, reduceCtorEq] at h <;> cases h
    · exact .finish id rfl
    · exact .child id _ _ rfl
  case traffic t m bytes =>
    cases m <;> cases choice <;> simp only [exec, reduceCtorEq] at h <;> cases h <;>
      exact .session _ _ (fun _ => rfl) ⟨rfl, rfl⟩ (fun _ _ hc => hc)
  all_goals cases choice <;> simp only [exec, reduceCtorEq] at h
  case addClient.next id namespace_ now =>
    split at h
    · cases h
    · rename_i habsent
      cases h
      exact .arrive ⟨id, namespace_, now, 0, 0⟩ rfl habsent
  case mark.next | adjustMark.next =>
    split at h
    · cases h
      exact .same ⟨rfl, rfl⟩ (forall_mem_nil _) (fun _ _ _ hc => hc.elim)
    · cases h
      exact .session _ _ (fun _ => rfl) ⟨rfl, rfl⟩ (fun _ _ hc => hc)
  case removeSession.next id =>
    split at h
    · cases h
      exact .same ⟨rfl, rfl⟩ (forall_mem_nil _) (fun _ _ _ hc => hc.elim)
    · rename_i t hlookup
      cases h
      exact .depart id t (.inl ⟨rfl, hlookup⟩)
  case deleteClient.next id t =>
    cases h
    exact .depart id t (.inr rfl)
  case removeIntercept.next id =>
    split at h
    · rename_i hnone
      cases h
      refine .same ⟨rfl, rfl⟩ (forall_mem_nil _) ?_
      rintro t id' ⟨ic, hlookup, _⟩ hcollects
      have hid : id = id' := hcollects
      rw [← hid, hnone] at hlookup
      cases hlookup
    · rename_i ic hlookup
      cases h
      exact .remove id ic rfl hlookup
  case add.next m t =>
    cases h
    exact .total m t rfl

end Telepresence.Retirement
