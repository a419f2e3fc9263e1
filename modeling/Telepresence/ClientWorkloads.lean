import Telepresence.ClientSession
import Telepresence.Lib.Overwrites
import Telepresence.Lib.Runs

/-!
# The client's view of the workloads

`workloadsWatcher` keeps a map of the workloads of a namespace by the deltas of
`WatchWorkloads`, and `WatchWithRetry` opens the stream again when it fails.  A
new stream starts with what exists then, but nothing says what has been deleted
while there was none, and the map is not cleared: there is no `repair`.

* `recovers_of_fits`: the map is right whenever a stream has been read to its end,
  in every run where a stream is only opened while every workload of the map exists.
-/

namespace Telepresence.TrafficMgr

open Runs Overwrites List Function

variable {σ : Type}

/-! ## The code -/

/-- `manager.WorkloadInfo_State`. -/
inductive RpcState where
  | unknown | available | progressing | failure
  deriving DecidableEq

/-- `workload.StateFromRPC`. -/
def stateFromRPC : RpcState → State
  | .available => .available
  | .failure => .failure
  | .progressing => .progressing
  | .unknown => .unknown

/-- `manager.WorkloadInfo`, apart from the kind and the name. -/
structure RpcWorkload (σ : Type) where
  uid : String := ""
  state : RpcState := .unknown
  agentState : AgentState := .noAgent
  interceptClients : List String := []
  desiredReplicas : Int := 0
  readyReplicas : Int := 0
  services : List σ := []
  deriving DecidableEq

open RpcWorkload

/-- The entry for a workload. -/
def RpcWorkload.info (w : RpcWorkload σ) : WorkloadInfo σ where
  uid := w.uid
  state := stateFromRPC w.state
  agentState := w.agentState
  interceptClients := w.interceptClients
  desiredReplicas := w.desiredReplicas
  readyReplicas := w.readyReplicas
  services := w.services

/-- `manager.WorkloadEvent_Type`. -/
inductive WorkloadEventType where
  | added | modified | deleted
  deriving DecidableEq

/-- `manager.WorkloadEvent`. -/
structure WorkloadEvent (σ : Type) where
  type : WorkloadEventType
  key : WorkloadInfoKey
  workload : RpcWorkload σ

open WorkloadEvent

/-- What an event does to a map of workloads that are described by `f`. -/
def WorkloadEvent.apply {β : Type} (f : RpcWorkload σ → β) (m : GoMap WorkloadInfoKey β)
    (we : WorkloadEvent σ) : GoMap WorkloadInfoKey β :=
  if we.type = .deleted then m.erase we.key else m.insert we.key (f we.workload)

/-- The handler of `workloadsWatcher`. -/
def handleDelta (workloads : GoMap WorkloadInfoKey (WorkloadInfo σ))
    (wls : List (WorkloadEvent σ)) : GoMap WorkloadInfoKey (WorkloadInfo σ) :=
  wls.foldl (apply info) workloads

/-- The status codes of failing calls that are told apart. -/
inductive Code where
  | unimplemented | failedPrecondition | other
  deriving DecidableEq

/-- The code is `Unimplemented`, or one of the `permanentCodes`. -/
def Code.permanent (permanentCodes : List Code) (c : Code) : Bool :=
  c = .unimplemented || c ∈ permanentCodes

/-- Where `WatchWithRetry` is.  A stream has deltas that it has not delivered yet;
`started` says that it has delivered one. -/
inductive Watch (σ : Type) where
  | retrying
  | streaming (pending : List (List (WorkloadEvent σ))) (started : Bool)
  | ended

/-- The workloads of the namespace that exist, the client's map for it, and the
watch that keeps it up to date. -/
structure Watching (σ : Type) where
  cluster : GoMap WorkloadInfoKey (RpcWorkload σ) := ∅
  workloads : GoMap WorkloadInfoKey (WorkloadInfo σ) := ∅
  watch : Watch σ := .retrying

/-- What can happen to a watch. -/
inductive WatchAction (σ : Type) where
  /-- Workloads come, change and go, which a stream tells in one delta. -/
  | change (wls : List (WorkloadEvent σ))
  /-- `streamProvider` succeeds. -/
  | connect (order : GoMap.Order WorkloadInfoKey (RpcWorkload σ))
  /-- `streamProvider` or `Recv` fails. -/
  | fail (c : Code)
  /-- `Recv` succeeds, and the delta is handled. -/
  | recv

namespace Watching

/-- The first delta of a stream. -/
def snapshot (s : Watching σ) (order : GoMap.Order WorkloadInfoKey (RpcWorkload σ)) :
    List (WorkloadEvent σ) :=
  (order.visit s.cluster).map fun e => ⟨.added, e.1, e.2⟩

/-- `WatchWithRetry`, as `workloadsWatcher` calls it: there is no `repair`. -/
def step (s : Watching σ) : WatchAction σ → Option (Watching σ)
  | .change wls =>
      some { s with
        cluster := wls.foldl (apply id) s.cluster
        watch := match s.watch with
          | .streaming pending started => .streaming (pending ++ [wls]) started
          | watch => watch }
  | .connect order =>
      match s.watch with
      | .retrying => some { s with watch := .streaming [s.snapshot order] false }
      | _ => none
  | .fail c =>
      match s.watch with
      | .ended => none
      | _ =>
          some { s with watch := if c.permanent [.failedPrecondition] then .ended else .retrying }
  | .recv =>
      match s.watch with
      | .streaming (wls :: pending) _ =>
          some { s with workloads := handleDelta s.workloads wls, watch := .streaming pending true }
      | _ => none

/-! ## What the client sees -/

/-- The entries that the client should have. -/
def expected (s : Watching σ) (key : WorkloadInfoKey) : Option (WorkloadInfo σ) :=
  (s.cluster.lookup key).map info

/-- If a stream has been read to its end, the map has the workloads that exist. -/
def Recovered (s : Watching σ) : Prop :=
  s.watch = .streaming [] true → ∀ key, s.workloads.lookup key = s.expected key

/-- A stream is only opened while every workload of the map exists. -/
def Fits (s : Watching σ) : WatchAction σ → Prop
  | .connect _ => s.workloads.keys ⊆ s.cluster.keys
  | _ => True

instance (s : Watching σ) : ∀ a, Decidable (s.Fits a)
  | .connect _ => inferInstanceAs (Decidable (s.workloads.keys ⊆ s.cluster.keys))
  | .change _ => .isTrue trivial
  | .fail _ => .isTrue trivial
  | .recv => .isTrue trivial

end Watching

/-- The assignment to an entry that an event is. -/
def WorkloadEvent.assign {β : Type} (f : RpcWorkload σ → β) (we : WorkloadEvent σ) :
    WorkloadInfoKey × Option β :=
  (we.key, if we.type = .deleted then none else some (f we.workload))

theorem lookup_foldl_apply {β : Type} (f : RpcWorkload σ → β) (wls : List (WorkloadEvent σ))
    (m : GoMap WorkloadInfoKey β) (key : WorkloadInfoKey) :
    (wls.foldl (apply f) m).lookup key =
      overwrite (fun k => m.lookup k) (wls.map (assign f)) key := by
  induction wls generalizing m with
  | nil => rfl
  | cons we wls ih =>
    rw [foldl_cons, ih, map_cons, assign, overwrite]
    congr 1
    funext k
    by_cases hk : k = we.key
    · subst hk
      rw [update_self, apply]
      split
      · exact AList.lookup_erase ..
      · exact AList.lookup_insert ..
    · rw [update_of_ne hk, apply]
      split
      · exact AList.lookup_erase_ne hk
      · exact AList.lookup_insert_ne hk

/-- What is described by `f` follows what is described in full. -/
theorem overwrite_map {β : Type} (f : RpcWorkload σ → β) (wls : List (WorkloadEvent σ))
    (v : WorkloadInfoKey → Option (RpcWorkload σ)) (key : WorkloadInfoKey) :
    (overwrite v (wls.map (assign id)) key).map f =
      overwrite (fun k => (v k).map f) (wls.map (assign f)) key := by
  induction wls generalizing v with
  | nil => rfl
  | cons we wls ih =>
    rw [map_cons, map_cons]
    refine (ih _).trans (overwrite_congr (.inl ?_))
    by_cases hk : key = we.key
    · subst hk
      simp only [update_self]
      split <;> rfl
    · simp only [update_of_ne hk]

namespace Watching

variable {s t : Watching σ}

/-- What a stream has not delivered yet leads to what the client should have. -/
def Follows (s : Watching σ) : Prop :=
  ∀ pending started, s.watch = .streaming pending started → ∀ key,
    Leads (pending.flatten.map (assign info)) key
      (s.workloads.lookup key) (s.expected key)

theorem leads_snapshot {order : GoMap.Order WorkloadInfoKey (RpcWorkload σ)}
    (h : s.Fits (.connect order)) (key : WorkloadInfoKey) :
    Leads ((s.snapshot order).map (assign info)) key
      (s.workloads.lookup key) (s.expected key) := by
  have hmem : ∀ x, x ∈ (s.snapshot order).map (assign info) ↔
      ∃ k w, s.cluster.lookup k = some w ∧ (k, some w.info) = x := by
    simp [snapshot, assign, order.mem_visit]
  refine leads_of_forall ?_ ?_
  · intro x hx hkey
    obtain ⟨k, w, hw, rfl⟩ := (hmem x).mp hx
    subst hkey
    rw [expected, hw]
    rfl
  · cases hw : s.cluster.lookup key with
    | none =>
      right
      have hkey : key ∉ s.workloads := fun hin => AList.lookup_eq_none.mp hw (h hin)
      rw [expected, hw, AList.lookup_eq_none.mpr hkey]
      rfl
    | some w =>
      left
      intro hnil
      have hin := (hmem (key, some w.info)).mpr ⟨key, w, hw, rfl⟩
      have habout : (key, some w.info) ∈ about key ((s.snapshot order).map
          (assign info)) := mem_filter.mpr ⟨hin, by simp⟩
      rw [hnil] at habout
      cases habout

theorem Follows.step (h : s.Follows) {a : WatchAction σ} (hfits : s.Fits a)
    (hstep : s.step a = some t) : t.Follows := by
  intro pending started hwatch key
  cases a with
  | change wls =>
    cases hstep
    dsimp only at hwatch
    split at hwatch
    · rename_i pending' started' hold
      cases hwatch
      rw [flatten_append, map_append, flatten_singleton]
      refine (h pending' started hold key).append ?_
      intro v hv
      rw [expected, lookup_foldl_apply, overwrite_map]
      exact overwrite_congr (.inl hv)
    · rename_i hnone
      exact absurd hwatch (hnone pending started)
  | connect order =>
    simp only [Watching.step] at hstep
    split at hstep <;> cases hstep
    cases hwatch
    rw [flatten_singleton]
    exact leads_snapshot hfits key
  | fail c =>
    simp only [Watching.step] at hstep
    split at hstep <;> cases hstep
    dsimp only at hwatch
    split at hwatch <;> cases hwatch
  | recv =>
    simp only [Watching.step] at hstep
    split at hstep <;> cases hstep
    rename_i wls _ _ hold
    cases hwatch
    have hall := h _ _ hold key
    rw [flatten_cons, map_append] at hall
    intro v hv
    have hend := hall (fun k => s.workloads.lookup k) rfl
    rw [overwrite_append] at hend
    refine (overwrite_congr (.inl ?_)).trans hend
    rw [hv, handleDelta, lookup_foldl_apply]

end Watching

/-- **Recovery.**  If streams are only opened while every workload of the client's
map exists, the map is right whenever a stream has been read to its end. -/
theorem recovers_of_fits (as : List (WatchAction σ)) (h : Meets Watching.step Watching.Fits {} as) :
    Always Watching.step Watching.Recovered {} as := by
  have hstart : ({} : Watching σ).Follows := fun _ _ hwatch => by cases hwatch
  refine always_of_meets ?_ ?_ hstart h
  · intro s hs hwatch key
    exact hs [] true hwatch key (fun k => s.workloads.lookup k) rfl
  · intro s a t hs hfits hstep
    exact hs.step hfits hstep

/-- A workload comes, changes or goes. -/
def changeOf (type : WorkloadEventType) (name : String) : WatchAction Unit :=
  .change [⟨type, ⟨.deployment, name⟩, {}⟩]

/-- The stream fails and is opened again, with the same workloads. -/
theorem recovers_after_failure :
    Always Watching.step Watching.Recovered {}
      [changeOf .added "echo", .connect .entries, .recv, changeOf .added "web", .recv, .fail .other,
        changeOf .modified "echo", .connect .entries, .recv] :=
  recovers_of_fits _ (meets_of_test (fun _ _ => of_decide_eq_true) (by decide +kernel))

/-- A workload that has been deleted while there was no stream is still there. -/
theorem deleted_workload_stays :
    ¬ Always Watching.step Watching.Recovered {}
      [changeOf .added "echo", changeOf .added "web", .connect .entries, .recv, .fail .other,
        changeOf .deleted "web", .connect .entries, .recv] := by
  intro h
  have hlast := h.of_run rfl rfl ⟨.deployment, "web"⟩
  revert hlast
  decide +kernel

end Telepresence.TrafficMgr
