import Telepresence.Lib.Runs
import Telepresence.PodAccess

/-!
# The mounts and forwards of intercepts

`handleInterceptSnapshot` starts the mounts and forwards of the active intercepts
of a snapshot.  Intercepts of the same pod and container share one entry of the
tracker: it has the ports and the mount of the intercept that made it, and it ends
with that intercept's context, while the others find it and start nothing.

* `forwards_started_iff`: the runs in which every active intercept has what it
  needs are those in which each of them finds its own needs in the entry of its
  pod, made by an intercept that is still there.
-/

namespace Telepresence.TrafficMgr

open Runs Option

/-! ## The code -/

/-- `awaitIntercept`, as far as `setCurrentIntercepts` reads it. -/
structure AwaitIntercept where
  mountPoint : String
  mountPort : Int := 0
  readOnly : Bool := false

/-- `intercept`.  Its context is cancelled when it is no longer current. -/
structure Intercept where
  info : InterceptInfo
  ctx : Nat
  localMountPort : Int := 0
  readOnly : Bool := false
  deriving DecidableEq

namespace Intercept

/-- `localPorts`. -/
def localPorts (ic : Intercept) : List String :=
  if ic.info.spec.localPorts.isEmpty then ic.info.spec.extraPorts.map toString
  else ic.info.spec.localPorts

/-- `podAccess`. -/
def podAccess (ic : Intercept) : PodAccess where
  ctx := ic.ctx
  localPorts := ic.localPorts
  workload := ic.info.spec.agent
  namespace_ := ic.info.spec.namespace_
  podIP := ic.info.podIp
  container := ic.info.spec.containerName
  sftpPort := ic.info.sftpPort
  ftpPort := ic.info.ftpPort
  mountPoint := ic.info.mountPoint
  clientMountPoint := ic.info.clientMountPoint
  localMountPort := ic.localMountPort
  readOnly := ic.readOnly

end Intercept

/-- What stays the same during a session. -/
structure SessionConfig extends ClientConfig where
  isPodDaemon : Bool := false

/-- One call of `handleInterceptSnapshot`: the intercepts, the waiters by name, and
the local IPs that the root daemon gives for a pod IP and a namespace. -/
structure InterceptSnapshot where
  intercepts : List InterceptInfo
  waiters : GoMap String AwaitIntercept := ∅
  localIP : String → String → Option String := fun _ _ => none
  order : GoMap.Order PodAccessKey PodAccessSync := .entries

/-- `currentIntercepts` and the tracker. -/
structure Intercepting where
  current : GoMap String Intercept := ∅
  tracker : Tracker := {}
  nextCtx : Nat := 0

namespace Intercepting

/-- The loop of `setCurrentIntercepts`. -/
def addCurrent (old : GoMap String Intercept) (waiters : GoMap String AwaitIntercept)
    (acc : GoMap String Intercept × Nat) (ii : InterceptInfo) : GoMap String Intercept × Nat :=
  match old.lookup ii.id with
  | some ic =>
      (acc.1.insert ii.id
        { ic with info := { ii with clientMountPoint := ic.info.clientMountPoint } }, acc.2)
  | none =>
      match waiters.lookup ii.spec.name with
      | some aw =>
          (acc.1.insert ii.id
            { info := { ii with clientMountPoint := aw.mountPoint }, ctx := acc.2
              localMountPort := aw.mountPort, readOnly := aw.readOnly }, acc.2 + 1)
      | none => (acc.1.insert ii.id { info := ii, ctx := acc.2 }, acc.2 + 1)

/-- `setCurrentIntercepts`. -/
def setCurrentIntercepts (s : Intercepting) (a : InterceptSnapshot) : Intercepting :=
  let (current, nextCtx) := a.intercepts.foldl (addCurrent s.current a.waiters) (∅, s.nextCtx)
  { s with current, nextCtx }

variable (cfg : SessionConfig)

/-- What the loop does before `pat.start`, for an active intercept. -/
def access (a : InterceptSnapshot) (ic : Intercept) : Except String PodAccess :=
  (ic.podAccess.ensureAccess cfg.toClientConfig fun ip ns => .ok (a.localIP ip ns)).map fun pa =>
    if cfg.isPodDaemon then { pa with ftpPort := 0, sftpPort := 0 } else pa

/-- The calls of `pat.start`: an intercept that is not active is skipped, and so is
one without access. -/
def accesses (s : Intercepting) (a : InterceptSnapshot) : List PodAccess :=
  a.intercepts.filterMap fun ii =>
    if ii.disposition = .active then
      (s.current.lookup ii.id).bind fun ic => (access cfg a ic).toOption
    else none

/-- `handleInterceptSnapshot`. -/
def handle (s : Intercepting) (a : InterceptSnapshot) : Intercepting :=
  let s := s.setCurrentIntercepts a
  { s with tracker := s.tracker.round cfg.toClientConfig a.order (accesses cfg s a) }

/-- The intercepts of a snapshot are the values of a map with their ids as keys. -/
def step (s : Intercepting) (a : InterceptSnapshot) : Option Intercepting :=
  if (a.intercepts.map (·.id)).Nodup then some (s.handle cfg a) else none

/-! ## The property -/

/-- The intercept has local ports or a mount. -/
def demands (ic : Intercept) : Bool :=
  ic.podAccess.shouldForward || (!cfg.isPodDaemon && ic.podAccess.shouldMount)

/-- The context has not been cancelled. -/
def Live (s : Intercepting) (ctx : Nat) : Prop :=
  ∃ id ic, s.current.lookup id = some ic ∧ ic.ctx = ctx

/-- An entry has the ports and the mount that are asked for. -/
def Covers (lp : PodAccessSync) (pa : PodAccess) : Prop :=
  pa.localPorts ⊆ lp.forwards ∧
    ∀ m, pa.shouldMount = true → pa.startMount cfg.toClientConfig = some m → lp.mount = some m

/-- What an intercept needs has been started, under a context that is not cancelled. -/
def Started (s : Intercepting) (a : InterceptSnapshot) (ic : Intercept) : Prop :=
  ∃ pa lp, access cfg a ic = .ok pa ∧ s.tracker.alivePods.lookup pa.key = some lp ∧
    s.Live lp.ctx ∧ Covers cfg lp pa

/-- After a snapshot every active intercept has what it needs. -/
def Right (s : Intercepting) (a : InterceptSnapshot) : Prop :=
  ∀ ii ∈ a.intercepts, ii.disposition = .active →
    ∀ ic, (s.handle cfg a).current.lookup ii.id = some ic → demands cfg ic = true →
      Started cfg (s.handle cfg a) a ic

/-- The entry that the pod has, made by an intercept of this snapshot, or else the
first intercept of the snapshot that makes one, covers what is asked for. -/
def Supplied (s : Intercepting) (a : InterceptSnapshot) (pa : PodAccess) : Prop :=
  match s.tracker.alivePods.lookup pa.key with
  | some lp => (s.setCurrentIntercepts a).Live lp.ctx ∧ Covers cfg lp pa
  | none => ∀ first, Tracker.starter (accesses cfg (s.setCurrentIntercepts a) a) pa.key =
      some first → Covers cfg (first.sync cfg.toClientConfig) pa

/-- Every active intercept that needs anything is supplied. -/
def Fits (s : Intercepting) (a : InterceptSnapshot) : Prop :=
  ∀ ii ∈ a.intercepts, ii.disposition = .active →
    ∀ ic, (s.setCurrentIntercepts a).current.lookup ii.id = some ic → demands cfg ic = true →
      ∃ pa, access cfg a ic = .ok pa ∧ Supplied cfg s a pa

/-! ## One snapshot -/

variable {cfg} {s : Intercepting} {a : InterceptSnapshot}

theorem access_fields {ic : Intercept} {pa : PodAccess} (h : access cfg a ic = .ok pa) :
    pa.ctx = ic.ctx ∧ pa.needed = demands cfg ic := by
  rw [access] at h
  cases hpa : ic.podAccess.ensureAccess cfg.toClientConfig fun ip ns => .ok (a.localIP ip ns) with
  | error e => simp [hpa, Except.map] at h
  | ok pa' =>
    simp only [hpa, Except.map, Except.ok.injEq] at h
    rw [PodAccess.eq_of_ensureAccess hpa] at h
    subst h
    refine ⟨by split <;> rfl, ?_⟩
    cases hd : cfg.isPodDaemon with
    | false => simp only [demands, hd]; rfl
    | true => simp [PodAccess.needed, demands, hd, PodAccess.shouldForward, PodAccess.shouldMount]

theorem mem_accesses {pa : PodAccess} :
    pa ∈ accesses cfg s a ↔ ∃ ii ∈ a.intercepts, ii.disposition = .active ∧
      ∃ ic, s.current.lookup ii.id = some ic ∧ access cfg a ic = .ok pa := by
  have hok : ∀ r : Except String PodAccess, r.toOption = some pa ↔ r = .ok pa := by
    intro r
    cases r <;> simp [Except.toOption]
  simp only [accesses, List.mem_filterMap, ite_none_right_eq_some, bind_eq_some_iff,
    hok]

/-- A started access runs under the context of a current intercept. -/
theorem live_of_mem_accesses {pa : PodAccess} (h : pa ∈ accesses cfg s a) : s.Live pa.ctx := by
  obtain ⟨ii, _, _, ic, hic, hacc⟩ := mem_accesses.mp h
  exact ⟨ii.id, ic, hic, (access_fields hacc).1.symm⟩

/-- What an intercept finds after the round. -/
theorem started_iff_supplied {pa : PodAccess} (hneeded : pa.needed = true)
    (hmem : pa ∈ accesses cfg (s.setCurrentIntercepts a) a) :
    (∃ lp, (s.handle cfg a).tracker.alivePods.lookup pa.key = some lp ∧
      (s.handle cfg a).Live lp.ctx ∧ Covers cfg lp pa) ↔ Supplied cfg s a pa := by
  have hkey : ∃ pa' ∈ accesses cfg (s.setCurrentIntercepts a) a, pa'.key = pa.key := ⟨pa, hmem, rfl⟩
  have hround : ∀ lp, (s.handle cfg a).tracker.alivePods.lookup pa.key = some lp ↔
      (s.tracker.alivePods.lookup pa.key).or ((Tracker.starter
        (accesses cfg (s.setCurrentIntercepts a) a) pa.key).map (·.sync cfg.toClientConfig)) =
          some lp := by
    intro lp
    rw [handle, Tracker.lookup_round]
    simp only [hkey, true_and]
    rfl
  simp only [hround, Supplied]
  cases hold : s.tracker.alivePods.lookup pa.key with
  | some lp =>
    simp only [some_or, some.injEq, exists_eq_left']
    rfl
  | none =>
    obtain ⟨first, hfirst⟩ : ∃ first, Tracker.starter
        (accesses cfg (s.setCurrentIntercepts a) a) pa.key = some first := by
      refine isSome_iff_exists.mp (List.find?_isSome.mpr ⟨pa, hmem, ?_⟩)
      simp [hneeded]
    have hlive := live_of_mem_accesses (List.mem_of_find?_eq_some hfirst)
    simp only [hfirst, none_or, map_some, some.injEq, exists_eq_left',
      forall_eq']
    exact ⟨fun h => h.2, fun h => ⟨hlive, h⟩⟩

theorem right_iff_fits : Right cfg s a ↔ Fits cfg s a := by
  refine forall₂_congr fun ii hii => forall_congr' fun hactive => forall₂_congr fun ic hic =>
    forall_congr' fun hdemands => ?_
  have hone : ∀ pa, access cfg a ic = .ok pa →
      ((∃ lp, (s.handle cfg a).tracker.alivePods.lookup pa.key = some lp ∧
        (s.handle cfg a).Live lp.ctx ∧ Covers cfg lp pa) ↔ Supplied cfg s a pa) := by
    intro pa hacc
    exact started_iff_supplied ((access_fields hacc).2.trans hdemands)
      (mem_accesses.mpr ⟨ii, hii, hactive, ic, hic, hacc⟩)
  constructor
  · intro ⟨pa, lp, hacc, h⟩
    exact ⟨pa, hacc, (hone pa hacc).mp ⟨lp, h⟩⟩
  · intro ⟨pa, hacc, h⟩
    obtain ⟨lp, h⟩ := (hone pa hacc).mpr h
    exact ⟨pa, lp, hacc, h⟩

end Intercepting

/-- **The mounts and forwards of intercepts.**  Every active intercept has what it
needs after each snapshot exactly if in each snapshot it is supplied with that. -/
theorem forwards_started_iff (cfg : SessionConfig) (as : List InterceptSnapshot) :
    Meets (Intercepting.step cfg) (Intercepting.Right cfg) {} as ↔
      Meets (Intercepting.step cfg) (Intercepting.Fits cfg) {} as := by
  have hstart : (fun _ : Intercepting => True) {} := trivial
  exact meets_iff_meets (fun _ _ _ _ _ _ => trivial) (fun _ _ _ _ _ => Intercepting.right_iff_fits)
    hstart as

/-- An active intercept of the only pod of a workload. -/
def onSharedPod (id port : String) : InterceptInfo where
  id := id
  spec := { name := id, agent := "echo", namespace_ := "default", containerName := "app",
            localPorts := [port] }
  disposition := .active
  podIp := "10.0.0.1"

/-- Two intercepts of the same container. -/
def sharedPod : InterceptSnapshot where
  intercepts := [onSharedPod "a" "8080", onSharedPod "b" "9090"]

/-- Of two intercepts of a container, the second one never gets its port. -/
theorem second_port_not_forwarded :
    ¬ Meets (Intercepting.step {}) (Intercepting.Right {}) {} [sharedPod] := by
  intro h
  obtain ⟨hright, _⟩ := h _ rfl
  let ic : Intercept := { info := onSharedPod "b" "9090", ctx := 1 }
  obtain ⟨pa, lp, hacc, hlp, _, hports, _⟩ := hright (onSharedPod "b" "9090")
    (by simp [sharedPod]) rfl ic (by decide +kernel) (by decide +kernel)
  have hmissing : ((Intercepting.access {} sharedPod ic).toOption.any fun pa =>
      ((Intercepting.handle {} {} sharedPod).tracker.alivePods.lookup pa.key).any fun lp =>
        decide (pa.localPorts ⊆ lp.forwards)) = false := by
    decide +kernel
  simp [hacc, Except.toOption, hlp, hports] at hmissing

end Telepresence.TrafficMgr
