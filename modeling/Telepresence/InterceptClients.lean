import Mathlib.Logic.Function.Iterate
import Telepresence.WorkloadEvents

/-!
# The intercept clients of a workload

`handleInterceptDelta` writes the clients of a workload's intercepts and its
agent state into the pending event of the workload.

* It collects the intercepts by the name of the agent alone, so the clients of
  intercepts in other namespaces are among them (`World.clientsOf_eq`).
* The removal of an intercept sets the agent state of a pending event to
  INSTALLED even if other intercepts remain (`Item.mergeRemoval`).
* `intercept_clients_agree_iff` says for which deltas what is written agrees
  with the state of the manager all the same.
-/

namespace Telepresence.Workloads

open Telepresence.Manager Telepresence.Cache Item World

variable {ω : Type}

/-! ## The events of one name -/

/-- The removed intercepts with this agent. -/
def removalsOf (delta : Delta String InterceptInfo) (n : String) : Nat :=
  (delta.removals.entries.filter fun e => e.2.spec.agent = n).length

/-- The added or changed intercepts with this agent. -/
def upsertsOf (delta : Delta String InterceptInfo) (n : String) : Nat :=
  (delta.upserts.entries.filter fun e => e.2.spec.agent = n).length

section Name

variable (W : World ω) (ns n : String)

/-- The event after the removal of an intercept. -/
def afterRemoval : Option (WorkloadEvent ω) → Option (WorkloadEvent ω)
  | some w => if w.type = .deleted then some w else some (restate w .installed (W.clientsOf n))
  | none =>
      (W.getWorkload n ns).map fun wl =>
        ⟨.modified, rpcWorkload wl (stateOf (W.clientsOf n)) (W.clientsOf n)⟩

/-- The event after an intercept was added or has changed. -/
def afterUpsert : Option (WorkloadEvent ω) → Option (WorkloadEvent ω)
  | some w =>
      if w.type = .deleted then some w
      else some (restate w (stateOf (W.clientsOf n)) (W.clientsOf n))
  | none =>
      (W.getWorkload n ns).map fun wl =>
        ⟨.modified, rpcWorkload wl (stateOf (W.clientsOf n)) (W.clientsOf n)⟩

variable {n}

theorem update_interceptRemoved {ii : InterceptInfo} (h : ii.spec.agent = n)
    (w : Option (WorkloadEvent ω)) :
    (Item.interceptRemoved ii).update W ns w = afterRemoval W ns n w := by
  subst h
  simp only [update, merge, mergeRemoval, afterRemoval]
  cases w with
  | none => simp
  | some w =>
    dsimp only
    split
    · rfl
    · rfl

theorem update_interceptUpserted {ii : InterceptInfo} (h : ii.spec.agent = n)
    (w : Option (WorkloadEvent ω)) :
    (Item.interceptUpserted ii).update W ns w = afterUpsert W ns n w := by
  subst h
  simp only [update, merge, mergeUpsert, afterUpsert]
  cases w with
  | none => simp
  | some w =>
    dsimp only
    split
    · rfl
    · rfl

theorem foldl_eq_iterate {σ α : Type} {f : σ → α → σ} {g : σ → σ} {xs : List α}
    (h : ∀ x ∈ xs, ∀ s, f s x = g s) (s : σ) : xs.foldl f s = g^[xs.length] s := by
  rw [← List.foldl_const]
  exact List.foldl_ext _ _ s fun s x hx => h x hx s

theorem lookup_handleInterceptDelta (order : GoMap.Order String InterceptInfo) (p : Pending ω)
    (delta : Delta String InterceptInfo) :
    (handleInterceptDelta W ns order p delta).lookup n =
      (afterUpsert W ns n)^[upsertsOf delta n]
        ((afterRemoval W ns n)^[removalsOf delta n] (p.lookup n)) := by
  have hfilter : (interceptItems order delta).filter (fun i : Item ω => i.name = n) =
      ((order.visit delta.removals).filter fun e => e.2.spec.agent = n).map
          (fun e => .interceptRemoved e.2) ++
        ((order.visit delta.upserts).filter fun e => e.2.spec.agent = n).map
          (fun e => .interceptUpserted e.2) := by
    rw [interceptItems, List.filter_append, List.filter_map, List.filter_map]
    rfl
  have hremovals : ((order.visit delta.removals).filter fun e => e.2.spec.agent = n).length =
      removalsOf delta n := ((order.perm _).filter _).length_eq
  have hupserts : ((order.visit delta.upserts).filter fun e => e.2.spec.agent = n).length =
      upsertsOf delta n := ((order.perm _).filter _).length_eq
  rw [handleInterceptDelta, lookup_handleItems, hfilter, List.foldl_append, List.foldl_map,
    List.foldl_map, ← hremovals, ← hupserts]
  have hr : ∀ e ∈ (order.visit delta.removals).filter fun e => e.2.spec.agent = n, ∀ w,
      (Item.interceptRemoved e.2).update W ns w = afterRemoval W ns n w := by
    intro e he w
    exact update_interceptRemoved W ns (by simpa using (List.mem_filter.mp he).2) w
  have hu : ∀ e ∈ (order.visit delta.upserts).filter fun e => e.2.spec.agent = n, ∀ w,
      (Item.interceptUpserted e.2).update W ns w = afterUpsert W ns n w := by
    intro e he w
    exact update_interceptUpserted W ns (by simpa using (List.mem_filter.mp he).2) w
  rw [foldl_eq_iterate hr, foldl_eq_iterate hu]

/-- The event that is written to: the pending one, unless it says that the
workload is gone, or one for a workload that is found. -/
def base (p : Pending ω) (n : String) : Option (WorkloadEvent ω) :=
  match p.lookup n with
  | some w => if w.type = .deleted then none else some w
  | none =>
      (W.getWorkload n ns).map fun wl => ⟨.modified, rpcWorkload wl .noAgent []⟩

/-- Removals and then upserts, when each of them only sets the agent state: a
removal the first one that it finds to `first`, and any other one to `removed`. -/
theorem iterate_outcome {σ : Type} {f g : σ → σ} {x : σ} {y : AgentState → σ}
    {first removed upserted : AgentState} (hf : f x = y first) (hg : g x = y upserted)
    (hfy : ∀ as, f (y as) = y removed) (hgy : ∀ as, g (y as) = y upserted) {k j : Nat}
    (h : 0 < k + j) :
    g^[j] (f^[k] x) = y (if 0 < j then upserted else if k = 1 then first else removed) := by
  have hiterate : ∀ {h : σ → σ} {as : AgentState}, (∀ as', h (y as') = y as) →
      ∀ m as', h^[m + 1] (y as') = y as := by
    intro h as hy m as'
    induction m generalizing as' with
    | zero => exact hy as'
    | succ m ih => rw [Function.iterate_succ_apply, hy, ih]
  have hfirst : ∀ m, f^[m + 1] x = f^[m] (y first) := by
    intro m
    rw [Function.iterate_succ_apply, hf]
  cases j with
  | zero =>
    rw [if_neg (by omega), Function.iterate_zero_apply]
    cases k with
    | zero => omega
    | succ k =>
      rw [hfirst]
      cases k with
      | zero => rfl
      | succ k => rw [if_neg (by omega), hiterate hfy]
  | succ j =>
    rw [if_pos (by omega)]
    cases k with
    | zero =>
      rw [Function.iterate_zero_apply, Function.iterate_succ_apply, hg]
      cases j with
      | zero => rfl
      | succ j => rw [hiterate hgy]
    | succ k =>
      rw [hfirst]
      cases k with
      | zero => rw [Function.iterate_zero_apply, hiterate hgy]
      | succ k => rw [hiterate hfy, hiterate hgy]

/-- The agent state that a delta writes. -/
def writtenState (p : Pending ω) (delta : Delta String InterceptInfo) (n : String) : AgentState :=
  if 0 < upsertsOf delta n ∨ removalsOf delta n = 1 ∧ p.lookup n = none then
    stateOf (W.clientsOf n)
  else .installed

/-- **What a delta writes** for the workloads of its intercepts. -/
theorem lookup_of_base (order : GoMap.Order String InterceptInfo) {p : Pending ω}
    {delta : Delta String InterceptInfo} {b : WorkloadEvent ω} (hb : base W ns p n = some b)
    (htouched : 0 < removalsOf delta n + upsertsOf delta n) :
    (handleInterceptDelta W ns order p delta).lookup n =
      some (restate b (writtenState W p delta n) (W.clientsOf n)) := by
  rw [lookup_handleInterceptDelta, writtenState]
  unfold base at hb
  cases hp : p.lookup n with
  | some w =>
    rw [hp] at hb
    dsimp only at hb
    split at hb
    · cases hb
    · rename_i htype
      cases hb
      have houtcome := iterate_outcome
        (y := fun as => some (restate b as (W.clientsOf n)))
        (f := afterRemoval W ns n) (g := afterUpsert W ns n) (x := some b)
        (if_neg htype) (if_neg htype) (fun _ => if_neg htype) (fun _ => if_neg htype) htouched
      rw [houtcome]
      simp
  | none =>
    rw [hp] at hb
    obtain ⟨wl, hwl, rfl⟩ := Option.map_eq_some_iff.mp hb
    have hcreated : (W.getWorkload n ns).map (fun wl => WorkloadEvent.mk .modified
        (rpcWorkload wl (stateOf (W.clientsOf n)) (W.clientsOf n))) =
          some (restate ⟨.modified, rpcWorkload wl .noAgent []⟩ (stateOf (W.clientsOf n))
            (W.clientsOf n)) := by
      rw [hwl]
      rfl
    have houtcome := iterate_outcome
      (y := fun as => some (restate ⟨.modified, rpcWorkload wl .noAgent []⟩ as (W.clientsOf n)))
      (f := afterRemoval W ns n) (g := afterUpsert W ns n) (x := none)
      hcreated hcreated (fun _ => rfl) (fun _ => rfl) htouched
    rw [houtcome]
    by_cases hupserts : 0 < upsertsOf delta n
    · rw [if_pos hupserts, if_pos (.inl hupserts)]
    · rw [if_neg hupserts]
      by_cases hone : removalsOf delta n = 1
      · rw [if_pos hone, if_pos (.inr ⟨hone, rfl⟩)]
      · rw [if_neg hone, if_neg fun h => h.elim hupserts fun h => hone h.1]

end Name

/-! ## Agreement with the state -/

/-- What is pending for the workload agrees with the state of the manager. -/
structure Agrees (W : World ω) (n : String) (w : WorkloadEvent ω) : Prop where
  clients : w.workload.interceptClients = W.getIntercepts n w.workload.ns
  state : w.workload.agentState = .intercepted ↔ w.workload.interceptClients ≠ []

/-- All that a delta writes agrees with the state. -/
def WritesAgree (W : World ω) (ns : String) (order : GoMap.Order String InterceptInfo)
    (p : Pending ω) (delta : Delta String InterceptInfo) : Prop :=
  ∀ n b w, 0 < removalsOf delta n + upsertsOf delta n → base W ns p n = some b →
    (handleInterceptDelta W ns order p delta).lookup n = some w → Agrees W n w

/-- For every workload that a delta writes to, the intercepts that count are in
its namespace, and if there are any, then the delta has an upsert for the
workload, or a single removal with nothing pending. -/
structure Clear (W : World ω) (p : Pending ω) (delta : Delta String InterceptInfo) (n : String)
    (b : WorkloadEvent ω) : Prop where
  oneNamespace : ∀ ii ∈ W.intercepts, counts ii = true → ii.spec.agent = n →
    ii.spec.namespace_ = b.workload.ns
  stateWritten : (∃ ii ∈ W.intercepts, counts ii = true ∧ ii.spec.agent = n) →
    0 < upsertsOf delta n ∨ removalsOf delta n = 1 ∧ p.lookup n = none

/-- Every event that the delta writes is clear. -/
def WritesClear (W : World ω) (ns : String) (p : Pending ω)
    (delta : Delta String InterceptInfo) : Prop :=
  ∀ n b, 0 < removalsOf delta n + upsertsOf delta n → base W ns p n = some b →
    Clear W p delta n b

theorem clientsOf_ne_nil_iff (W : World ω) (n : String) :
    W.clientsOf n ≠ [] ↔ ∃ ii ∈ W.intercepts, counts ii = true ∧ ii.spec.agent = n := by
  rw [clientsOf_eq, Ne, List.map_eq_nil_iff, List.filter_eq_nil_iff]
  constructor
  · intro h
    by_contra hnone
    refine h ?_
    intro ii hii hboth
    simp only [decide_eq_true_eq] at hboth
    exact hnone ⟨ii, hii, hboth.2, hboth.1⟩
  · intro ⟨ii, hii, hcounts, hname⟩ h
    exact h ii hii (by simp [hcounts, hname])

/-- The clients by name are those by name and namespace exactly if there are no
others. -/
theorem clientsOf_eq_getIntercepts_iff (W : World ω) (n ns : String) :
    W.clientsOf n = W.getIntercepts n ns ↔
      ∀ ii ∈ W.intercepts, counts ii = true → ii.spec.agent = n →
        ii.spec.namespace_ = ns := by
  have hsplit : W.getIntercepts n ns =
      ((W.intercepts.filter fun ii => ii.spec.agent = n ∧ counts ii).filter fun ii =>
        ii.spec.namespace_ = ns).map (·.spec.client) := by
    rw [getIntercepts, List.filter_filter]
    congr 1
    refine List.filter_congr ?_
    intro ii _
    rw [Bool.eq_iff_iff]
    simp only [decide_eq_true_eq, Bool.and_eq_true]
    constructor
    · intro ⟨hname, hns, hcounts⟩
      exact ⟨hns.symm, hname.symm, hcounts⟩
    · intro ⟨hns, hname, hcounts⟩
      exact ⟨hname.symm, hns.symm, hcounts⟩
  rw [clientsOf_eq, hsplit]
  constructor
  · intro h ii hii hcounts hname
    have hlen := congrArg List.length h
    rw [List.length_map, List.length_map] at hlen
    have hself := List.filter_sublist.eq_of_length hlen.symm
    have hmem : ii ∈ W.intercepts.filter fun ii => ii.spec.agent = n ∧ counts ii :=
      List.mem_filter.mpr ⟨hii, by simp [hname, hcounts]⟩
    rw [← hself] at hmem
    simpa using (List.mem_filter.mp hmem).2
  · intro h
    congr 1
    refine (List.filter_eq_self.mpr ?_).symm
    intro ii hii
    obtain ⟨hmem, hboth⟩ := List.mem_filter.mp hii
    simp only [decide_eq_true_eq] at hboth
    simpa using h ii hmem hboth.2 hboth.1

theorem stateOf_eq_intercepted_iff (iClients : List String) :
    stateOf iClients = .intercepted ↔ iClients ≠ [] := by
  unfold stateOf
  split
  all_goals
    rename_i h
    simp [h]

/-- One workload. -/
theorem agrees_iff_clear (W : World ω) (p : Pending ω) (delta : Delta String InterceptInfo)
    (n : String) (b : WorkloadEvent ω) :
    Agrees W n (restate b (writtenState W p delta n) (W.clientsOf n)) ↔
      Clear W p delta n b := by
  have hclients := clientsOf_eq_getIntercepts_iff W n b.workload.ns
  have hne := clientsOf_ne_nil_iff W n
  constructor
  · intro h
    refine ⟨hclients.mp h.clients, ?_⟩
    intro hsome
    by_contra hnot
    have hstate : writtenState W p delta n = .intercepted := h.state.mpr (hne.mpr hsome)
    rw [writtenState, if_neg hnot] at hstate
    cases hstate
  · intro h
    refine ⟨hclients.mpr h.oneNamespace, ?_⟩
    have hgoal : writtenState W p delta n = .intercepted ↔ W.clientsOf n ≠ [] := by
      rw [writtenState]
      split
      · exact stateOf_eq_intercepted_iff _
      · rename_i hnot
        constructor
        · intro hcontra
          cases hcontra
        · intro hsome
          exact absurd (h.stateWritten (hne.mp hsome)) hnot
    exact hgoal

theorem writesAgree_iff (W : World ω) (ns : String) (order : GoMap.Order String InterceptInfo)
    (p : Pending ω) (delta : Delta String InterceptInfo) :
    WritesAgree W ns order p delta ↔ WritesClear W ns p delta := by
  constructor
  · intro h n b htouched hb
    rw [← agrees_iff_clear]
    exact h n b _ htouched hb (lookup_of_base W ns order hb htouched)
  · intro h n b w htouched hb hw
    rw [lookup_of_base W ns order hb htouched] at hw
    cases hw
    exact (agrees_iff_clear W p delta n b).mpr (h n b htouched hb)

/-! ## Sequences of deltas -/

/-- A delta, with what the handler finds when it gets it. -/
structure Received (ω : Type) where
  world : World ω
  delta : Delta String InterceptInfo

/-- The pending events after some deltas. -/
def afterDeltas (ns : String) (order : GoMap.Order String InterceptInfo) (p : Pending ω)
    (ds : List (Received ω)) : Pending ω :=
  ds.foldl (fun p d => handleInterceptDelta d.world ns order p d.delta) p

/-- **Intercept deltas.**  In a sequence of deltas, everything that is written
agrees with the state of the manager if and only if, at each delta, the
intercepts of the workloads that it writes to are in their namespaces, and
removals alone are not merged into pending events while intercepts remain. -/
theorem intercept_clients_agree_iff (ns : String) (order : GoMap.Order String InterceptInfo)
    (p : Pending ω) (ds : List (Received ω)) :
    (∀ before d after, ds = before ++ d :: after →
        WritesAgree d.world ns order (afterDeltas ns order p before) d.delta) ↔
      ∀ before d after, ds = before ++ d :: after →
        WritesClear d.world ns (afterDeltas ns order p before) d.delta := by
  constructor
  · intro h before d after heq
    exact (writesAgree_iff d.world ns order _ d.delta).mp (h before d after heq)
  · intro h before d after heq
    exact (writesAgree_iff d.world ns order _ d.delta).mpr (h before d after heq)

/-! ## One of two intercepts is removed -/

/-- An active intercept of a client on the workload `echo`. -/
def echoIntercept (client : String) : InterceptInfo where
  spec := { name := "echo", client, agent := "echo", namespace_ := "default" }
  id := client ++ ":echo"
  clientSession := client
  disposition := .active
  message := ""

/-- The manager once alice's intercept is gone and bob's remains. -/
def bobOnly : World Unit where
  state := { intercepts := GoMap.insertAll (·.id) [echoIntercept "bob"] ∅ }
  getWorkload := fun name ns => some ⟨"Deployment", name, ns, ()⟩
  getWorkload_key := by
    intro name ns wl h
    cases h
    exact ⟨rfl, rfl⟩

/-- The workload is pending as intercepted by both. -/
def bothPending : Pending Unit :=
  GoMap.insertAll (fun w => w.workload.name)
    [⟨.modified, rpcWorkload ⟨"Deployment", "echo", "default", ()⟩ .intercepted ["alice", "bob"]⟩] ∅

/-- The removal of alice's intercept. -/
def aliceRemoved : Delta String InterceptInfo where
  removals := GoMap.insertAll (·.id) [echoIntercept "alice"] ∅

/-- **Wrong agent state.**  The workload is intercepted by bob, and INSTALLED. -/
theorem intercepted_workload_installed :
    (handleInterceptDelta bobOnly "default" .entries bothPending aliceRemoved).lookup "echo" =
        some ⟨.modified, rpcWorkload ⟨"Deployment", "echo", "default", ()⟩ .installed ["bob"]⟩ ∧
      bobOnly.getIntercepts "echo" "default" = ["bob"] ∧
      ¬ WritesAgree bobOnly "default" .entries bothPending aliceRemoved := by
  have hwritten : (handleInterceptDelta bobOnly "default" .entries bothPending
      aliceRemoved).lookup "echo" = some ⟨.modified,
        rpcWorkload ⟨"Deployment", "echo", "default", ()⟩ .installed ["bob"]⟩ := by
    decide +kernel
  refine ⟨hwritten, by decide +kernel, ?_⟩
  intro h
  have hbase : (base bobOnly "default" bothPending "echo").isSome = true := by decide +kernel
  obtain ⟨b, hb⟩ := Option.isSome_iff_exists.mp hbase
  have hagrees := h "echo" b _ (by decide +kernel) hb hwritten
  exact absurd (hagrees.state.mpr (by decide)) (by decide)

end Telepresence.Workloads
