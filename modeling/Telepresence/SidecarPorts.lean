import Telepresence.Lib.Results
import Telepresence.SidecarGenerator

/-!
# The ports of a generated sidecar

Which agent ports and proxy ports `Generate` gives out, as a function of what
the services and annotations ask for: the agent port of a request is the
agent's own port plus the place of its container port among the different
ports that are asked for.  Only the first of these numbers is compared with
the ports that the containers of the pod declare.

* `generate_allocated`: the intercepts of a sidecar, from the requests.
* `ports_disjoint_iff`: when the ports are valid and different.
* `portsFree_of_room`: that there is room above the agent's port and nobody
  declares a port there is enough.
-/

namespace Telepresence.AgentMap

open Telepresence.Types Interning List Container Allocation

/-! ## Requests -/

/-- What the services ask for, in the order of the loops. -/
def serviceRequests (svcs : List Service) (portAnnotations : List String)
    (cns : List CoreContainer) : List Request :=
  svcs.flatMap fun svc =>
    (filterServicePorts svc portAnnotations).filterMap (serviceRequest svc cns)

/-- What the annotation of the container ports asks for. -/
def containerRequests (ports : List String) (cns : List CoreContainer) : List Request :=
  ports.filterMap fun p =>
    (findContainerPort cns p).map fun found => containerRequest found.1 found.2

/-- The services of a workload. -/
def servicesOf (cluster : Cluster) (wl : Workload) : List Service :=
  let ann := getAnnotation wl.annotations (domain ++ "inject-service-name")
    (legacyDomain ++ "inject-service-name")
  match cluster.findServicesForPod wl ann with
  | .ok svcs => svcs
  | .error _ => []

/-- The service ports that are annotated. -/
def servicePortsOf (wl : Workload) : List String :=
  match portsFromServicePortsAnnotation wl with
  | .ok ports => ports
  | .error _ => []

/-- The container ports that are annotated. -/
def containerPortsOf (wl : Workload) : List String :=
  match portsFromContainerPortsAnnotation wl with
  | .ok ports => ports
  | .error _ => []

/-- All requests for a workload. -/
def requests (cluster : Cluster) (wl : Workload) : List Request :=
  serviceRequests (servicesOf cluster wl) (servicePortsOf wl) wl.containers ++
    containerRequests (containerPortsOf wl) wl.containers

/-- A request without a service is covered by one for the same port of the same
container. -/
def covered (rs : List Request) (r : Request) : Bool :=
  r.serviceLess && rs.any fun q =>
    q.container.name = r.container.name ∧ q.intercept.containerPort = r.intercept.containerPort

/-- The requests that are not covered by those before them. -/
def kept (rs : List Request) : List Request :=
  rs.foldl (fun ks r => if covered ks r then ks else ks ++ [r]) []

/-- The different container ports, in the order in which they are asked for. -/
def portNumbers (rs : List Request) : List Int := distinct (rs.map Request.number)

/-- The place of the port of a request among them. -/
def place (rs : List Request) (r : Request) : Nat := (portNumbers rs).idxOf r.number

theorem kept_append (rs : List Request) (r : Request) :
    kept (rs ++ [r]) = if covered (kept rs) r then kept rs else kept rs ++ [r] := by
  rw [kept, foldl_append]
  rfl

variable {rs : List Request} {r : Request}

theorem kept_subset (h : r ∈ kept rs) : r ∈ rs := by
  induction rs using reverseRecOn with
  | nil => exact h
  | append_singleton rs q ih =>
    rw [kept_append] at h
    split at h
    · exact mem_append_left _ (ih h)
    · rcases mem_append.mp h with h | h
      · exact mem_append_left _ (ih h)
      · exact mem_append_right _ h

theorem portNumbers_append (rs : List Request) (r : Request) :
    portNumbers (rs ++ [r]) = extend (portNumbers rs) r.number := by
  rw [portNumbers, map_append, map_singleton, distinct_append]
  rfl

theorem mem_portNumbers (h : r ∈ rs) : r.number ∈ portNumbers rs :=
  mem_distinct.mpr (mem_map_of_mem h)

theorem place_append {q : Request} (h : q ∈ rs) : place (rs ++ [r]) q = place rs q := by
  rw [place, portNumbers_append, idxOf_extend (mem_portNumbers h)]
  rfl

theorem place_lt (h : r ∈ rs) : place rs r < (portNumbers rs).length :=
  idxOf_lt_length_of_mem (mem_portNumbers h)

/-! ## The configurations of the containers -/

/-- The intercepts with the names of their containers. -/
def served (ccs : List Container) : List (String × Intercept) :=
  ccs.flatMap fun cc => cc.intercepts.map fun ic => (cc.name, ic)

theorem served_cons (cc : Container) (ccs : List Container) :
    served (cc :: ccs) = cc.intercepts.map (fun ic => (cc.name, ic)) ++ served ccs := rfl

theorem name_of_served {ccs : List Container} {x : String × Intercept} (h : x ∈ served ccs) :
    x.1 ∈ ccs.map name := by
  obtain ⟨cc, hcc, hx⟩ := mem_flatMap.mp h
  obtain ⟨ic, _, rfl⟩ := mem_map.mp hx
  exact mem_map_of_mem hcc

/-- The container has an intercept for the port. -/
def serves (ccs : List Container) (name : String) (port : UInt16) : Bool :=
  (served ccs).any fun x => x.1 = name ∧ x.2.containerPort = port

variable {port : UInt16}

theorem serves_of_notMem {ccs : List Container} {name : String} (h : name ∉ ccs.map Container.name) :
    serves ccs name port = false := by
  rw [serves, any_eq_false]
  intro x hx hport
  have hname : x.1 = name := (of_decide_eq_true hport).1
  exact h (hname ▸ name_of_served hx)

theorem serves_cons (cc : Container) (ccs : List Container) (name : String) (port : UInt16) :
    serves (cc :: ccs) name port =
      ((decide (cc.name = name) && cc.intercepts.any fun eic => eic.containerPort = port) ||
        serves ccs name port) := by
  rw [serves, served_cons, any_append, any_map]
  congr 1
  by_cases h : cc.name = name
  all_goals simp [h, Function.comp_def]

section Append

variable (serviceLess : Bool) (new : Container) (ic : Intercept)

theorem nodup_appendIntercept {ccs : List Container} (h : (ccs.map name).Nodup) :
    ((appendIntercept serviceLess new ic ccs).map name).Nodup := by
  rw [names_appendIntercept]
  split
  · rw [append_nil]
    exact h
  · rename_i hmem
    rw [← concat_eq_append]
    exact .concat hmem h

/-- **One intercept** is added, unless it is without a service and covered. -/
theorem served_appendIntercept {ccs : List Container} (h : (ccs.map name).Nodup) :
    (served (appendIntercept serviceLess new ic ccs)).Perm
      (if serviceLess && serves ccs new.name ic.containerPort then served ccs
       else served ccs ++ [(new.name, ic)]) := by
  induction ccs with
  | nil => simp [appendIntercept, served, serves]
  | cons cc ccs ih =>
    obtain ⟨hnot, hnodup⟩ := nodup_cons.mp h
    unfold appendIntercept
    by_cases hname : cc.name = new.name
    · -- no other container has the name
      have hrest : serves ccs new.name ic.containerPort = false :=
        serves_of_notMem (hname ▸ hnot)
      have hserves : serves (cc :: ccs) new.name ic.containerPort =
          cc.intercepts.any fun eic => eic.containerPort = ic.containerPort := by
        rw [serves_cons, hrest, Bool.or_false, decide_eq_true hname, Bool.true_and]
      rw [if_pos hname, hserves]
      split
      · exact List.Perm.refl _
      · rw [served_cons, served_cons, map_append, append_assoc, append_assoc,
          ← hname]
        exact perm_append_comm.append_left _
    · have hserves : serves (cc :: ccs) new.name ic.containerPort =
          serves ccs new.name ic.containerPort := by
        rw [serves_cons, decide_eq_false hname, Bool.false_and, Bool.false_or]
      rw [if_neg hname, hserves, served_cons]
      refine ((ih hnodup).append_left _).trans ?_
      split
      · exact List.Perm.refl _
      · rw [served_cons, append_assoc]

end Append

/-! ## The loops -/

/-- The intercept of a request, with its agent port. -/
def Request.config (cfg : GeneratorConfig) (rs : List Request) (r : Request) : Intercept :=
  { r.intercept with agentPort := nextAgentPort cfg (place rs r) }

open Request

/-- The loops have handled the requests. -/
structure Allocated (cfg : GeneratorConfig) (rs : List Request) (st : Allocation) : Prop where
  pns : Interned (nextAgentPort cfg) st.pns (portNumbers rs)
  names : (st.ccs.map name).Nodup
  served : (served st.ccs).Perm ((kept rs).map fun r => (r.container.name, r.config cfg rs))

variable {cfg : GeneratorConfig} {existingConfig : Option Sidecar} {rs : List Request}
  {st : Allocation}

theorem Allocated.empty : Allocated cfg [] {} where
  pns := Interned.empty _
  names := nodup_nil
  served := List.Perm.refl _

theorem config_append {q : Request} (h : q ∈ kept rs) :
    q.config cfg (rs ++ [r]) = q.config cfg rs := by
  rw [config, place_append (kept_subset h)]
  rfl

/-- What is served covers the same requests as what was kept. -/
theorem Allocated.serves_eq (h : Allocated cfg rs st) (r : Request) :
    (r.serviceLess && serves st.ccs r.container.name r.intercept.containerPort) =
      covered (kept rs) r := by
  rw [covered, serves, h.served.any_eq, any_map]
  rfl

/-- **One request.** -/
theorem Allocated.add (h : Allocated cfg rs st) (r : Request) :
    Allocated cfg (rs ++ [r]) (st.add cfg existingConfig r) := by
  obtain ⟨hport, hpns⟩ := h.pns.intern r.number
  rw [← portNumbers_append] at hport hpns
  have hccs : (st.add cfg existingConfig r).ccs = appendIntercept r.serviceLess
      { name := r.container.name
        intercepts := []
        replace := containerReplacePolicy existingConfig r.container }
      (r.config cfg (rs ++ [r])) st.ccs := by
    rw [config, place, ← hport]
    rfl
  have hold : (kept rs).map (fun q => (q.container.name, q.config cfg (rs ++ [r]))) =
      (kept rs).map fun q => (q.container.name, q.config cfg rs) := by
    refine map_congr_left fun q hq => ?_
    rw [config_append hq]
  have hcovered := h.serves_eq r
  refine ⟨hpns, ?_, ?_⟩
  · rw [hccs]
    exact nodup_appendIntercept _ _ _ h.names
  · rw [hccs, kept_append]
    refine (served_appendIntercept _ _ _ h.names).trans ?_
    change ((if (r.serviceLess && serves st.ccs r.container.name r.intercept.containerPort) = true
      then _ else _) : List (String × Intercept)).Perm _
    rw [hcovered]
    split
    · rw [hold]
      exact h.served
    · rw [map_append, hold, map_singleton]
      exact h.served.append_right _

/-- Several requests. -/
theorem Allocated.addAll (h : Allocated cfg rs st) (qs : List Request) :
    Allocated cfg (rs ++ qs) (qs.foldl (Allocation.add cfg existingConfig) st) := by
  induction qs generalizing rs st with
  | nil =>
    rw [append_nil]
    exact h
  | cons q qs ih =>
    have hadd : Allocated cfg (rs ++ [q]) (st.add cfg existingConfig q) := h.add q
    have hnext := ih hadd
    rw [append_assoc] at hnext
    exact hnext

theorem appendAgentContainerConfigs_eq (cns : List CoreContainer) (ann : List String)
    (svc : Service) :
    appendAgentContainerConfigs cfg existingConfig cns ann st svc =
      ((filterServicePorts svc ann).filterMap (serviceRequest svc cns)).foldl
        (add cfg existingConfig) st := by
  rw [foldl_filterMap, appendAgentContainerConfigs]
  congr 1
  funext st port
  cases serviceRequest svc cns port with
  | none | some r => rfl

/-- The loop over the services adds their requests. -/
theorem services_eq (svcs : List Service) (cns : List CoreContainer) (ann : List String) :
    svcs.foldl (appendAgentContainerConfigs cfg existingConfig cns ann) st =
      (serviceRequests svcs ann cns).foldl (add cfg existingConfig) st := by
  rw [serviceRequests, foldl_flatMap]
  refine congrArg (fun f => svcs.foldl f st) ?_
  funext st svc
  exact appendAgentContainerConfigs_eq cns ann svc

theorem containerRequests_cons {cns : List CoreContainer} {p : String}
    (h : serviceLessRequest cns p = .ok r) (ports : List String) :
    containerRequests (p :: ports) cns = r :: containerRequests ports cns := by
  unfold serviceLessRequest at h
  split at h
  · rename_i cn appPort hfound
    cases h
    rw [containerRequests, filterMap_cons, hfound]
    rfl
  · split at h
    · cases h
    · cases h

/-- The loop over the annotated container ports adds their requests. -/
theorem serviceLess_eq {cns : List CoreContainer} {ports : List String} {st' : Allocation}
    (h : appendServiceLessAgentContainerConfigs cfg existingConfig cns ports st = .ok st') :
    st' = (containerRequests ports cns).foldl (add cfg existingConfig) st := by
  unfold appendServiceLessAgentContainerConfigs at h
  induction ports generalizing st with
  | nil =>
    cases h
    rfl
  | cons p ports ih =>
    rw [foldlM_cons] at h
    obtain ⟨next, hnext, h⟩ := Results.bind_eq_ok.mp h
    obtain ⟨r, hr, hadd⟩ := Results.bind_eq_ok.mp hnext
    cases hadd
    rw [containerRequests_cons hr]
    exact ih h

/-- The containers that are added at the end have no intercepts. -/
theorem served_otherContainers (wl : Workload) (ccs : List Container) :
    served (otherContainers existingConfig wl ccs) = served ccs := by
  unfold otherContainers
  induction wl.appContainers generalizing ccs with
  | nil => rfl
  | cons cn cns ih =>
    rw [foldl_cons, ih]
    split
    · rfl
    · rw [served, flatMap_append]
      exact append_nil _

/-- What a sidecar is made of. -/
theorem generate_containers {cluster : Cluster} {wl : Workload} {sc : Sidecar}
    (h : generate cfg cluster wl existingConfig = .ok sc) :
    sc.containers = otherContainers existingConfig wl
      ((requests cluster wl).foldl (add cfg existingConfig) {}).ccs := by
  unfold generate at h
  split at h
  · cases h
  split at h
  · cases h
  obtain ⟨svcs, hsvcs, h⟩ := Results.bind_eq_ok.mp h
  obtain ⟨ann, hann, h⟩ := Results.bind_eq_ok.mp h
  obtain ⟨_, _, h⟩ := Results.bind_eq_ok.mp h
  obtain ⟨ports, hports, h⟩ := Results.bind_eq_ok.mp h
  obtain ⟨st, hst, h⟩ := Results.bind_eq_ok.mp h
  cases h
  have hservices : servicesOf cluster wl = svcs := by
    rw [servicesOf, Results.mapError_eq_ok.mp hsvcs]
  have hservicePorts : servicePortsOf wl = ann := by
    rw [servicePortsOf, hann]
  have hcontainerPorts : containerPortsOf wl = ports := by
    rw [containerPortsOf, hports]
  rw [requests, hservices, hservicePorts, hcontainerPorts, foldl_append,
    serviceLess_eq hst, services_eq]

/-- **The intercepts of a sidecar** are those of the requests that are kept,
in some order, each with the agent port of its place. -/
theorem generate_allocated {cluster : Cluster} {wl : Workload} {sc : Sidecar}
    (h : generate cfg cluster wl existingConfig = .ok sc) :
    sc.intercepts.Perm
      ((kept (requests cluster wl)).map (config cfg (requests cluster wl))) := by
  have hall : Allocated cfg (requests cluster wl)
      ((requests cluster wl).foldl (add cfg existingConfig) {}) :=
    Allocated.empty.addAll (requests cluster wl)
  have hsnd : ∀ ccs : List Container,
      ccs.flatMap intercepts = (served ccs).map Prod.snd := by
    intro ccs
    rw [served, map_flatMap]
    refine congrArg (fun f => ccs.flatMap f) ?_
    funext cc
    rw [map_map]
    exact (map_id _).symm
  have hperm := hall.served.map Prod.snd
  rw [map_map] at hperm
  rw [Sidecar.intercepts, hsnd, generate_containers h, served_otherContainers]
  exact hperm

theorem numberOfPossibleIntercepts_eq (s : Sidecar) :
    s.numberOfPossibleIntercepts = s.intercepts.length := by
  rw [Sidecar.numberOfPossibleIntercepts, Sidecar.intercepts, length_flatMap]

/-! ## Disjoint ports -/

/-- A container of the pod declares the port. -/
def Workload.Declares (wl : Workload) (proto : Proto) (n : Int) : Prop :=
  ∃ cn ∈ wl.appContainers, ∃ p ∈ cn.ports,
    fromK8sProtocol p.protocol = proto ∧ p.containerPort = n

/-- The ports that are derived from agent ports: the proxy ports, and the
inactive ports where these are not the container port itself. -/
inductive Sidecar.Derived (s : Sidecar) (proto : Proto) : UInt16 → Prop where
  | proxy {ic : Intercept} (mem : ic ∈ s.intercepts) (same : ic.protocol = proto) :
      Derived s proto (s.proxyPort ic.agentPort)
  | inactive {ic : Intercept} (mem : ic ∈ s.intercepts) (same : ic.protocol = proto)
      (numeric : (s.interceptTarget ic.containerPort proto).any Intercept.targetPortNumeric) :
      Derived s proto (s.interceptorInactivePort ic.containerPort proto)

/-- The agent ports, the ports derived from them and the declared ports are
valid and different, and only one container port belongs to an agent port. -/
structure PortsDisjoint (wl : Workload) (s : Sidecar) : Prop where
  agentValid : ∀ ic ∈ s.intercepts, ic.agentPort ≠ 0
  derivedValid : ∀ proto d, s.Derived proto d → d ≠ 0
  declaredValid : ∀ proto n, wl.Declares proto n → 1 ≤ n ∧ n ≤ 65535
  agentDerived : ∀ ic ∈ s.intercepts, ∀ proto d, s.Derived proto d → ic.agentPort ≠ d
  agentDeclared : ∀ ic ∈ s.intercepts, ∀ n, wl.Declares ic.protocol n →
    (ic.agentPort.toNat : Int) ≠ n
  derivedDeclared : ∀ proto d n, s.Derived proto d → wl.Declares proto n → (d.toNat : Int) ≠ n
  agentDistinct : ∀ ic ∈ s.intercepts, ∀ ic' ∈ s.intercepts, ic.agentPort = ic'.agentPort →
    ic.containerPort = ic'.containerPort ∧ ic.protocol = ic'.protocol
  proxyDistinct : ∀ ic ∈ s.intercepts, ∀ ic' ∈ s.intercepts,
    s.proxyPort ic.agentPort = s.proxyPort ic'.agentPort →
      ic.containerPort = ic'.containerPort ∧ ic.protocol = ic'.protocol

variable {proto : Proto}

theorem mem_of_interceptTarget {c : Container} {it : List Intercept}
    (h : c.interceptTarget port proto = some it) {ic : Intercept} (hic : ic ∈ it) :
    ic ∈ c.intercepts ∧ ic.protocol = proto := by
  unfold interceptTarget at h
  split at h
  · cases h
  · cases h
    obtain ⟨hmem, hmatch⟩ := mem_filter.mp hic
    exact ⟨hmem, (of_decide_eq_true hmatch).2⟩

/-- The targets of a port are intercepts of the sidecar. -/
theorem Sidecar.mem_of_interceptTarget {s : Sidecar} {ic : Intercept}
    (h : ic ∈ s.interceptTarget port proto) : ic ∈ s.intercepts ∧ ic.protocol = proto := by
  unfold Sidecar.interceptTarget at h
  cases hfind : s.containers.findSome? fun c => c.interceptTarget port proto with
  | none =>
    rw [hfind] at h
    cases h
  | some it =>
    rw [hfind, Option.getD_some] at h
    obtain ⟨c, hc, hit⟩ := exists_of_findSome?_eq_some hfind
    obtain ⟨hmem, hproto⟩ := AgentMap.mem_of_interceptTarget hit h
    exact ⟨mem_flatMap.mpr ⟨c, hc, hmem⟩, hproto⟩

/-- An inactive port that is not the container port is a proxy port. -/
theorem derived_cases {s : Sidecar} {d : UInt16} (h : s.Derived proto d) :
    ∃ ic ∈ s.intercepts, ic.protocol = proto ∧ d = s.proxyPort ic.agentPort := by
  cases h with
  | proxy mem same => exact ⟨_, mem, same, rfl⟩
  | inactive mem same numeric =>
    rename_i ic
    cases htarget : s.interceptTarget ic.containerPort proto with
    | nil =>
      rw [htarget] at numeric
      cases numeric
    | cons first rest =>
      have hfirst : first ∈ s.interceptTarget ic.containerPort proto := by
        rw [htarget]
        exact mem_cons_self
      obtain ⟨hmem, hproto⟩ := Sidecar.mem_of_interceptTarget hfirst
      refine ⟨first, hmem, hproto, ?_⟩
      rw [htarget] at numeric
      rw [Sidecar.interceptorInactivePort, htarget]
      exact if_pos numeric

/-! ## The condition -/

/-- The number of the agent port of a request. -/
def agentNumber (cfg : GeneratorConfig) (rs : List Request) (r : Request) : Nat :=
  (cfg.agentPort.toNat + place rs r) % 65536

/-- The number of its proxy port. -/
def proxyNumber (cfg : GeneratorConfig) (rs : List Request) (r : Request) : Nat :=
  (cfg.agentPort.toNat + place rs r + 11 + (kept rs).length) % 65536

/-- **The condition.**  The declared ports are port numbers; the counter and
the numbers that are `11` plus the number of intercepts above it do not reach
a multiple of `2 ^ 16` or a port that is declared for the protocol; there are
not so many ports that the counter wraps around to numbers in use; and no port
is asked for with two protocols. -/
structure PortsFree (cfg : GeneratorConfig) (wl : Workload) (rs : List Request) : Prop where
  inRange : ∀ proto n, wl.Declares proto n → 1 ≤ n ∧ n ≤ 65535
  nonzero : ∀ r ∈ kept rs, agentNumber cfg rs r ≠ 0 ∧ proxyNumber cfg rs r ≠ 0
  undeclared : ∀ r ∈ kept rs, ∀ n, wl.Declares r.intercept.protocol n →
    (agentNumber cfg rs r : Int) ≠ n ∧ (proxyNumber cfg rs r : Int) ≠ n
  apart : ∀ r ∈ kept rs, ∀ q ∈ kept rs,
    place rs r % 65536 ≠ (place rs q + 11 + (kept rs).length) % 65536
  single : ∀ r ∈ kept rs, ∀ q ∈ kept rs, place rs r % 65536 = place rs q % 65536 →
    r.intercept.containerPort = q.intercept.containerPort ∧
      r.intercept.protocol = q.intercept.protocol

section Condition

variable {wl : Workload} {sc : Sidecar}

/-- The agent port of a request, as a number. -/
theorem toNat_agentPort (r : Request) :
    (r.config cfg rs).agentPort.toNat = agentNumber cfg rs r := by
  rw [config, nextAgentPort, UInt16.toNat_add, UInt16.toNat_ofNat', agentNumber,
    Nat.add_mod_mod]

/-- The proxy port of a request, as a number. -/
theorem toNat_proxyPort (hperm : sc.intercepts.Perm ((kept rs).map (config cfg rs)))
    (r : Request) :
    (sc.proxyPort (r.config cfg rs).agentPort).toNat = proxyNumber cfg rs r := by
  have hcount : sc.numberOfPossibleIntercepts = (kept rs).length := by
    rw [numberOfPossibleIntercepts_eq, hperm.length_eq, length_map]
  rw [Sidecar.proxyPort, UInt16.toNat_add, UInt16.toNat_add, toNat_agentPort,
    UInt16.toNat_ofNat', hcount, agentNumber, proxyNumber]
  change (((cfg.agentPort.toNat + place rs r) % 65536 + 11) % 65536 +
    (kept rs).length % 65536) % 65536 = _
  omega

theorem uint16_ne_zero {v : UInt16} : v ≠ 0 ↔ v.toNat ≠ 0 := by
  rw [Ne, ← UInt16.toNat_inj]
  rfl

/-- Over the intercepts of the requests, the ports are disjoint if and only if
the condition holds. -/
theorem portsDisjoint_iff (hperm : sc.intercepts.Perm ((kept rs).map (config cfg rs))) :
    PortsDisjoint wl sc ↔ PortsFree cfg wl rs := by
  have hmem : ∀ ic, ic ∈ sc.intercepts ↔ ∃ r ∈ kept rs, r.config cfg rs = ic := by
    intro ic
    rw [hperm.mem_iff, mem_map]
  have hconfig : ∀ r ∈ kept rs, r.config cfg rs ∈ sc.intercepts := by
    intro r hr
    exact (hmem _).mpr ⟨r, hr, rfl⟩
  constructor
  · intro h
    refine ⟨h.declaredValid, ?_, ?_, ?_, ?_⟩
    · intro r hr
      have hagent := h.agentValid _ (hconfig r hr)
      have hproxy := h.derivedValid _ _ (.proxy (hconfig r hr) rfl)
      rw [uint16_ne_zero, toNat_agentPort] at hagent
      rw [uint16_ne_zero, toNat_proxyPort hperm] at hproxy
      exact ⟨hagent, hproxy⟩
    · intro r hr n hn
      have hagent := h.agentDeclared _ (hconfig r hr) n hn
      have hproxy := h.derivedDeclared _ _ n (.proxy (hconfig r hr) rfl) hn
      rw [toNat_agentPort] at hagent
      rw [toNat_proxyPort hperm] at hproxy
      exact ⟨hagent, hproxy⟩
    · intro r hr q hq heq
      have hne := h.agentDerived _ (hconfig r hr) _ _ (.proxy (hconfig q hq) rfl)
      rw [Ne, ← UInt16.toNat_inj, toNat_agentPort, toNat_proxyPort hperm, agentNumber,
        proxyNumber] at hne
      omega
    · intro r hr q hq heq
      refine h.agentDistinct (r.config cfg rs) (hconfig r hr) (q.config cfg rs) (hconfig q hq) ?_
      rw [← UInt16.toNat_inj, toNat_agentPort, toNat_agentPort, agentNumber, agentNumber]
      omega
  · intro h
    have hderived : ∀ proto d, sc.Derived proto d → ∃ r ∈ kept rs,
        r.intercept.protocol = proto ∧ d.toNat = proxyNumber cfg rs r := by
      intro proto d hd
      obtain ⟨ic, hic, hproto, rfl⟩ := derived_cases hd
      obtain ⟨r, hr, rfl⟩ := (hmem ic).mp hic
      exact ⟨r, hr, hproto, toNat_proxyPort hperm r⟩
    have hagent : ∀ ic ∈ sc.intercepts, ∃ r ∈ kept rs, r.intercept.protocol = ic.protocol ∧
        ic.agentPort.toNat = agentNumber cfg rs r := by
      intro ic hic
      obtain ⟨r, hr, rfl⟩ := (hmem ic).mp hic
      exact ⟨r, hr, rfl, toNat_agentPort r⟩
    have hdistinct : ∀ ic ∈ sc.intercepts, ∀ ic' ∈ sc.intercepts, ic.agentPort = ic'.agentPort →
        ic.containerPort = ic'.containerPort ∧ ic.protocol = ic'.protocol := by
      intro ic hic ic' hic' heq
      obtain ⟨r, hr, rfl⟩ := (hmem ic).mp hic
      obtain ⟨q, hq, rfl⟩ := (hmem ic').mp hic'
      refine h.single r hr q hq ?_
      rw [← UInt16.toNat_inj, toNat_agentPort, toNat_agentPort, agentNumber, agentNumber] at heq
      omega
    refine ⟨?_, ?_, h.inRange, ?_, ?_, ?_, hdistinct, ?_⟩
    · intro ic hic
      obtain ⟨r, hr, _, hport⟩ := hagent ic hic
      rw [uint16_ne_zero, hport]
      exact (h.nonzero r hr).1
    · intro proto d hd
      obtain ⟨r, hr, _, hport⟩ := hderived proto d hd
      rw [uint16_ne_zero, hport]
      exact (h.nonzero r hr).2
    · intro ic hic proto d hd heq
      obtain ⟨r, hr, _, hport⟩ := hagent ic hic
      obtain ⟨q, hq, _, hport'⟩ := hderived proto d hd
      have hapart := h.apart r hr q hq
      rw [← UInt16.toNat_inj, hport, hport', agentNumber, proxyNumber] at heq
      omega
    · intro ic hic n hn
      obtain ⟨r, hr, hproto, hport⟩ := hagent ic hic
      rw [hport]
      exact (h.undeclared r hr n (hproto ▸ hn)).1
    · intro proto d n hd hn
      obtain ⟨r, hr, hproto, hport⟩ := hderived proto d hd
      rw [hport]
      exact (h.undeclared r hr n (hproto ▸ hn)).2
    · intro ic hic ic' hic' heq
      refine hdistinct ic hic ic' hic' ?_
      rw [Sidecar.proxyPort, Sidecar.proxyPort] at heq
      have hplus : ic.agentPort + 11 = ic'.agentPort + 11 := (UInt16.add_left_inj _).mp heq
      exact (UInt16.add_left_inj _).mp hplus

/-- The intercept of a request is for the port that it is looked up with. -/
theorem containerPort_of_mem_requests {cluster : Cluster} {r : Request}
    (h : r ∈ requests cluster wl) : r.intercept.containerPort = uint16 r.number := by
  rcases mem_append.mp h with h | h
  · obtain ⟨svc, _, h⟩ := mem_flatMap.mp h
    obtain ⟨port, _, h⟩ := mem_filterMap.mp h
    unfold serviceRequest at h
    split at h
    · cases h
    · split at h
      · cases h
      · cases h
        rfl
  · obtain ⟨p, _, h⟩ := mem_filterMap.mp h
    obtain ⟨found, _, rfl⟩ := Option.map_eq_some_iff.mp h
    rfl

/-- **Room.**  The ports are free if the counter stays below `2 ^ 16`, every
port has an intercept, no declared port is among the numbers that the counter
runs through or among those of the proxy ports, and no port is asked for with
two protocols. -/
theorem portsFree_of_room {cluster : Cluster} (hpos : 0 < cfg.agentPort.toNat)
    (hroom : cfg.agentPort.toNat + (portNumbers (requests cluster wl)).length + 11 +
      (kept (requests cluster wl)).length ≤ 65536)
    (hserved : (portNumbers (requests cluster wl)).length ≤ (kept (requests cluster wl)).length)
    (hrange : ∀ proto n, wl.Declares proto n → 1 ≤ n ∧ n ≤ 65535)
    (hfree : ∀ proto n, wl.Declares proto n → ∀ k < (portNumbers (requests cluster wl)).length,
      n ≠ (cfg.agentPort.toNat + k : Nat) ∧
        n ≠ (cfg.agentPort.toNat + k + 11 + (kept (requests cluster wl)).length : Nat))
    (hproto : ∀ r ∈ kept (requests cluster wl), ∀ q ∈ kept (requests cluster wl),
      r.number = q.number → r.intercept.protocol = q.intercept.protocol) :
    PortsFree cfg wl (requests cluster wl) := by
  have hplace : ∀ r ∈ kept (requests cluster wl), place (requests cluster wl) r <
      (portNumbers (requests cluster wl)).length := by
    intro r hr
    exact place_lt (kept_subset hr)
  refine ⟨hrange, ?_, ?_, ?_, ?_⟩
  · intro r hr
    have hlt := hplace r hr
    rw [agentNumber, proxyNumber]
    omega
  · intro r hr n hn
    have hlt := hplace r hr
    have hne := hfree _ n hn _ hlt
    rw [agentNumber, proxyNumber]
    omega
  · intro r hr q hq
    have hr' := hplace r hr
    have hq' := hplace q hq
    omega
  · intro r hr q hq heq
    have hr' := hplace r hr
    have hq' := hplace q hq
    have hsame : place (requests cluster wl) r = place (requests cluster wl) q := by omega
    have hnumber : r.number = q.number :=
      (idxOf_inj (mem_portNumbers (kept_subset hr))).mp hsame
    rw [containerPort_of_mem_requests (kept_subset hr),
      containerPort_of_mem_requests (kept_subset hq), hnumber]
    exact ⟨rfl, hproto r hr q hq hnumber⟩

end Condition

/-- **Disjoint ports.**  In a sidecar that `Generate` returns, the agent ports,
the ports derived from them and the declared ports are valid and different if
and only if the numbers that the counter runs through are free. -/
theorem ports_disjoint_iff (cfg : GeneratorConfig) (cluster : Cluster) (wl : Workload)
    (existingConfig : Option Sidecar) (sc : Sidecar)
    (h : generate cfg cluster wl existingConfig = .ok sc) :
    PortsDisjoint wl sc ↔ PortsFree cfg wl (requests cluster wl) :=
  portsDisjoint_iff (generate_allocated h)

/-- A configuration with the agent's default port. -/
def defaultConfig : GeneratorConfig where
  agentPort := 9900
  qualifiedAgentImage := "ghcr.io/telepresenceio/tel2:2.5.4"

/-- A service `echo` with the given ports and numeric target ports. -/
def echoService (ports : List (Int × Int)) : Service where
  name := "echo"
  uid := "1"
  ports := ports.map fun p => { port := p.1, targetPort := .int p.2 }

/-- A cluster in which every workload has one service. -/
def clusterWith (svc : Service) : Cluster where
  findServicesForPod := fun _ _ => .ok [svc]
  addMountPolicies := fun _ => .ok ()

/-- A deployment with one container that declares the ports. -/
def echoDeployment (ports : List Int) : Workload where
  kind := "Deployment"
  name := "echo"
  ns := "default"
  containers := [{ name := "app", ports := ports.map fun p => { containerPort := p } }]

theorem declares_echo {ports : List Int} {n : Int} (h : (echoDeployment ports).Declares proto n) :
    n ∈ ports := by
  obtain ⟨cn, hcn, p, hp, _, rfl⟩ := h
  have happ : cn ∈ (echoDeployment ports).containers := (mem_filter.mp hcn).1
  rw [echoDeployment, mem_singleton] at happ
  subst happ
  obtain ⟨q, hq, rfl⟩ := mem_map.mp hp
  exact hq

/-- One service port on one container port. -/
theorem ports_disjoint_echo :
    ∃ sc, generate defaultConfig (clusterWith (echoService [(80, 8080)]))
        (echoDeployment [8080]) none = .ok sc ∧ PortsDisjoint (echoDeployment [8080]) sc := by
  refine ⟨_, rfl, (ports_disjoint_iff defaultConfig (clusterWith (echoService [(80, 8080)]))
    (echoDeployment [8080]) none _ rfl).mpr ?_⟩
  refine portsFree_of_room (by decide) (by decide) (by decide) ?_ ?_ ?_
  · intro proto n hn
    rw [mem_singleton.mp (declares_echo hn)]
    decide
  · intro proto n hn k hk
    rw [mem_singleton.mp (declares_echo hn)]
    have hone : k < 1 := hk
    have hzero : k = 0 := by omega
    subst hzero
    decide
  · intro r hr q hq _
    have hall : ∀ r ∈ kept (requests (clusterWith (echoService [(80, 8080)]))
        (echoDeployment [8080])), r.intercept.protocol = .tcp := by decide
    rw [hall r hr, hall q hq]

/-- **A declared port is given out.**  The container declares the port after
the agent's, and the service has a second port. -/
theorem declared_port_given_out :
    ∃ sc, generate defaultConfig (clusterWith (echoService [(80, 8080), (81, 8081)]))
        (echoDeployment [8080, 8081, 9901]) none = .ok sc ∧
      ¬ PortsDisjoint (echoDeployment [8080, 8081, 9901]) sc := by
  refine ⟨_, rfl, ?_⟩
  intro h
  refine h.agentDeclared _ (mem_cons_of_mem _ mem_cons_self) 9901 ?_ rfl
  exact ⟨_, mem_cons_self, ⟨"", 9901, ""⟩, by decide, rfl, rfl⟩

end Telepresence.AgentMap
