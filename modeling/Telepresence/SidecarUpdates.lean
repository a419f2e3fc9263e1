import Telepresence.Lib.Heap
import Telepresence.SidecarGenerator
import Telepresence.StoredConfigs

/-!
# Updating a stored sidecar

`configWatcher.Update` of `cmd/traffic/cmd/manager/mutator` hands a clone of
the stored configuration to an updater and stores what it returns, unless that
is an error.  The clone shares the arrays of its slices with the stored
configuration: `Sidecar.Clone` of `pkg/agentconfig` copies each container and
intercept, and writes the references to the copies to these arrays.

Objects are cells of a heap, and slices are references to arrays of
references; a nil slice is an empty array.

* `clone_spec`: cloning changes no configuration, but the clone and the
  original have the same containers.
* `failed_update_keeps_iff`: which failed updates change nothing.
-/

namespace Telepresence.Mutator

open Telepresence.Types Telepresence.AgentMap Heap List Option

/-! ## The heap -/

/-- `agentconfig.Sidecar` in the heap. -/
structure SidecarObject where
  agentImage : String
  agentName : String
  ns : String
  workloadName : String
  workloadKind : String
  containers : Nat
  deriving DecidableEq

/-- `agentconfig.Container` in the heap. -/
structure ContainerObject where
  name : String
  intercepts : Nat
  replace : ReplacePolicy
  deriving DecidableEq

/-- The objects and the arrays. -/
structure Memory where
  sidecars : List SidecarObject := []
  containerArrays : List (List Nat) := []
  containers : List ContainerObject := []
  interceptArrays : List (List Nat) := []
  intercepts : List Intercept := []

open Memory

namespace Memory

/-- The intercepts of an array. -/
def viewIntercepts (m : Memory) (a : Nat) : Option (List Intercept) :=
  contents (fun i => m.intercepts[i]?) m.interceptArrays a

/-- A container with its intercepts. -/
def viewContainer (m : Memory) (c : Nat) : Option Container := do
  let o ← m.containers[c]?
  let intercepts ← m.viewIntercepts o.intercepts
  return { name := o.name, intercepts, replace := o.replace }

/-- The containers of an array. -/
def viewContainers (m : Memory) (a : Nat) : Option (List Container) :=
  contents m.viewContainer m.containerArrays a

/-- A sidecar with its containers. -/
def view (m : Memory) (s : Nat) : Option Sidecar := do
  let o ← m.sidecars[s]?
  let containers ← m.viewContainers o.containers
  return {
    agentImage := o.agentImage
    agentName := o.agentName
    ns := o.ns
    workloadName := o.workloadName
    workloadKind := o.workloadKind
    containers }

/-! ## Clone -/

/-- Copy the intercept in a slot, and store the copy there. -/
def cloneIntercept (a : Nat) (m : Memory) (ii : Nat) : Option Memory := do
  let refs ← m.interceptArrays[a]?
  let ic ← refs[ii]?
  let cic ← m.intercepts[ic]?
  return { m with
    intercepts := m.intercepts ++ [cic]
    interceptArrays := store m.interceptArrays a ii m.intercepts.length }

/-- Copy the container in a slot, store the copy there, and copy its
intercepts. -/
def cloneContainer (a : Nat) (m : Memory) (ci : Nat) : Option Memory := do
  let refs ← m.containerArrays[a]?
  let cn ← refs[ci]?
  let ccn ← m.containers[cn]?
  let ics ← m.interceptArrays[ccn.intercepts]?
  (List.range ics.length).foldlM (cloneIntercept ccn.intercepts)
    { m with
      containers := m.containers ++ [ccn]
      containerArrays := store m.containerArrays a ci m.containers.length }

/-- `Sidecar.Clone`. -/
def clone (m : Memory) (s : Nat) : Option (Memory × Nat) := do
  let cs ← m.sidecars[s]?
  let refs ← m.containerArrays[cs.containers]?
  let m' ← (List.range refs.length).foldlM (cloneContainer cs.containers)
    { m with sidecars := m.sidecars ++ [cs] }
  return (m', m.sidecars.length)

end Memory

/-! ## The updaters -/

/-- The fields of `rpc.InterceptSpec` that say what is intercepted. -/
structure InterceptSpec where
  serviceName : String := ""
  containerName : String := ""
  portIdentifier : String := ""
  noDefaultPort : Bool := false

/-- `PortIdentifier.HasProto`. -/
def hasProto (pi : String) : Bool :=
  match Strings.cut pi '/' with
  | some (port, _) => port ≠ ""
  | none => false

/-- `IsInterceptForService` and `IsInterceptForContainer`, which differ in the
number and the name that they compare. -/
def isInterceptFor (pi : String) (protocol : Proto) (number : UInt16) (name : String) : Bool :=
  let (proto, n, num) := protoAndNameOrNumber pi
  if hasProto pi && proto ≠ protocol then false
  else if n = "" then num = number.toNat
  else n = name

/-- `IsInterceptForService`. -/
def isInterceptForService (pi : String) (ic : Intercept) : Bool :=
  isInterceptFor pi ic.protocol ic.servicePort ic.servicePortName

/-- `IsInterceptForContainer`. -/
def isInterceptForContainer (pi : String) (ic : Intercept) : Bool :=
  isInterceptFor pi ic.protocol ic.containerPort ic.containerPortName

/-- The condition in the loop of `FindIntercept`. -/
def wanted (spec : InterceptSpec) (ic : Intercept) : Bool :=
  (spec.serviceName = "" || spec.serviceName = ic.serviceName) &&
    (spec.portIdentifier = "" ||
      if ic.serviceUID ≠ "" then isInterceptForService spec.portIdentifier ic
      else isInterceptForContainer spec.portIdentifier ic)

/-- How messages name the workload. -/
def workloadText (sc : Sidecar) : String :=
  sc.workloadKind ++ " " ++ sc.workloadName ++ "." ++ sc.ns

/-- `icept.FindContainer`: the index of the container. -/
def findContainer (sc : Sidecar) (spec : InterceptSpec) : Except String Nat :=
  if spec.containerName = "" then
    if sc.containers.length = 1 then .ok 0
    else .error (workloadText sc ++ " has more than one container")
  else
    match sc.containers.findIdx? fun cn => cn.name = spec.containerName with
    | some ci => .ok ci
    | none => .error (workloadText sc ++ " has no container named " ++ spec.containerName)

/-- The message for more than one intercept. -/
def ambiguous (sc : Sidecar) (spec : InterceptSpec) : String :=
  let port := portIdentifierString spec.portIdentifier
  if spec.serviceName = "" ∧ spec.portIdentifier = "" then
    workloadText sc ++ " has multiple interceptable ports.\nPlease specify the service and/or " ++
      "port you want to intercept by passing the --service=<svc> and/or " ++
      "--port=<local:portName/portNumber> flag."
  else if spec.serviceName = "" then
    workloadText sc ++ " has multiple interceptable services with port " ++ port ++
      ".\nPlease specify the service you want to intercept by passing the --service=<svc> flag."
  else if spec.portIdentifier = "" then
    workloadText sc ++ " has multiple interceptable ports in service " ++ spec.serviceName ++
      ".\nPlease specify the port you want to intercept by passing the " ++
      "--port=<local:svcPortName> flag."
  else
    workloadText sc ++ " intercept config is broken. Service " ++ spec.serviceName ++ ", port " ++
      port ++ " is declared more than once\n"

/-- The message for no intercept. -/
def notInterceptable (sc : Sidecar) (spec : InterceptSpec) : String :=
  let port := portIdentifierString spec.portIdentifier
  let ss :=
    if spec.serviceName ≠ "" then
      if spec.portIdentifier ≠ "" then
        " matching service " ++ spec.serviceName ++ ", port " ++ port
      else " matching service " ++ spec.serviceName
    else if spec.portIdentifier ≠ "" then " matching port " ++ port
    else ""
  workloadText sc ++ " has no interceptable port" ++ ss

/-- `icept.FindIntercept`: the index of the container. -/
def findIntercept (sc : Sidecar) (spec : InterceptSpec) : Except String Nat :=
  let found := sc.containers.zipIdx.flatMap fun (cn, ci) =>
    (cn.intercepts.filter (wanted spec)).map fun _ => ci
  match found with
  | [] => .error (notInterceptable sc spec)
  | [ci] =>
      if spec.containerName = "" then .ok ci
      else .ok ((sc.containers.findIdx? fun cx => cx.name = spec.containerName).getD ci)
  | _ :: _ :: _ => .error (ambiguous sc spec)

/-- The container that a specification is about. -/
def InterceptSpec.find (spec : InterceptSpec) (sc : Sidecar) : Except String Nat :=
  if spec.noDefaultPort then findContainer sc spec else findIntercept sc spec

/-- What `restoreAppContainer` sets the policy of the container to. -/
def InterceptSpec.desiredPolicy (spec : InterceptSpec) : ReplacePolicy :=
  if spec.noDefaultPort then .inactive else .intercept

/-- The updaters of the manager.  What they call outside is a parameter: the
error of `EvictPodsWithAgentConfigMismatch`, if any, and the configuration
that `createAgentConfig` makes. -/
inductive Updater where
  | restoreAppContainer (spec : InterceptSpec) (evict : Option String)
  | getOrCreateAgentConfig (agentImage : String) (create : Except String Sidecar)
      (spec : Option InterceptSpec) (rp : ReplacePolicy)

namespace Memory

/-- `cn.Replace = rp`, for a container of a sidecar. -/
def setReplace (m : Memory) (s ci : Nat) (rp : ReplacePolicy) : Option Memory := do
  let o ← m.sidecars[s]?
  let refs ← m.containerArrays[o.containers]?
  let cn ← refs[ci]?
  return { m with containers := m.containers.modify cn fun c => { c with replace := rp } }

/-- `sc.AgentImage = agentImage`. -/
def setAgentImage (m : Memory) (s : Nat) (agentImage : String) : Memory :=
  { m with sidecars := m.sidecars.modify s fun o => { o with agentImage } }

/-- New objects for a container. -/
def newContainer (m : Memory) (cn : Container) : Memory :=
  { m with
    containers := m.containers ++ [
      { name := cn.name, intercepts := m.interceptArrays.length, replace := cn.replace }]
    interceptArrays := m.interceptArrays ++ [
      (List.range cn.intercepts.length).map fun i => m.intercepts.length + i]
    intercepts := m.intercepts ++ cn.intercepts }

/-- New objects for a sidecar. -/
def newSidecar (m : Memory) (sc : Sidecar) : Memory × Nat :=
  let m' := sc.containers.foldl newContainer m
  ({ m' with
      sidecars := m'.sidecars ++ [
        { agentImage := sc.agentImage
          agentName := sc.agentName
          ns := sc.ns
          workloadName := sc.workloadName
          workloadKind := sc.workloadKind
          containers := m'.containerArrays.length }]
      containerArrays := m'.containerArrays ++ [
        (List.range sc.containers.length).map fun i => m.containers.length + i] },
    m'.sidecars.length)

end Memory

/-- The updater of `restoreAppContainer`, for a configuration. -/
def restore (spec : InterceptSpec) (evict : Option String) (m : Memory) (s : Nat) :
    Option (Memory × Except String (Option Nat)) := do
  let sc ← m.view s
  match spec.find sc with
  | .error _ => return (m, .ok (some s))
  | .ok ci =>
      let cn ← sc.containers[ci]?
      if cn.replace = spec.desiredPolicy then return (m, .ok (some s))
      else
        let m' ← m.setReplace s ci spec.desiredPolicy
        match evict with
        | none => return (m', .ok (some s))
        | some err => return (m', .error err)

/-- The second half of the updater of `getOrCreateAgentConfig`. -/
def applyPolicy (spec : Option InterceptSpec) (rp : ReplacePolicy) (m : Memory) (s : Nat) :
    Option (Memory × Except String (Option Nat)) :=
  match spec with
  | none => some (m, .ok (some s))
  | some spec => do
      let sc ← m.view s
      match spec.find sc with
      | .error err => return (m, .error err)
      | .ok ci =>
          let m' ← m.setReplace s ci rp
          return (m', .ok (some s))

/-- Run an updater on a configuration or on nil. -/
def Updater.run (u : Updater) (m : Memory) (sc : Option Nat) :
    Option (Memory × Except String (Option Nat)) :=
  match u, sc with
  | .restoreAppContainer _ _, none => some (m, .ok none)
  | .restoreAppContainer spec evict, some s => restore spec evict m s
  | .getOrCreateAgentConfig agentImage _ spec rp, some s =>
      applyPolicy spec rp (m.setAgentImage s agentImage) s
  | .getOrCreateAgentConfig _ create spec rp, none =>
      match create with
      | .error err => some (m, .error err)
      | .ok sc =>
          let (m', s) := m.newSidecar sc
          applyPolicy spec rp m' s

/-! ## Update and Get -/

/-- The heap, and `agentConfigs`. -/
structure ConfigWatcher where
  memory : Memory := {}
  agentConfigs : Configs Nat := ∅

namespace ConfigWatcher

/-- The pointer that is stored for a workload. -/
def stored (w : ConfigWatcher) (name ns : String) : Option Nat := w.agentConfigs.get name ns

/-- The configuration that `Get` returns. -/
def get (w : ConfigWatcher) (name ns : String) : Option Sidecar :=
  (w.stored name ns).bind w.memory.view

/-- `Update`.  No result stands for the use of a nil pointer. -/
def update (w : ConfigWatcher) (name ns : String) (updater : Updater) :
    Option (ConfigWatcher × Except String (Option Nat)) := do
  let (m, sc) ← match w.stored name ns with
    | some s => do
        let (m, s') ← w.memory.clone s
        pure (m, some s')
    | none => pure (w.memory, none)
  let (memory, result) ← updater.run m sc
  return ({ memory, agentConfigs := w.agentConfigs.assign name ns result }, result)

end ConfigWatcher

open ConfigWatcher

/-! ## What cloning preserves -/

/-- Everything that the one memory shows, the other shows too. -/
structure Shows (m m' : Memory) : Prop where
  sidecars : ∀ (s : Nat) (o : SidecarObject), m.sidecars[s]? = some o → m'.sidecars[s]? = some o
  intercepts : ∀ a ics, m.viewIntercepts a = some ics → m'.viewIntercepts a = some ics
  containers : ∀ a cs, m.viewContainers a = some cs → m'.viewContainers a = some cs

theorem Shows.refl (m : Memory) : Shows m m := ⟨fun _ _ h => h, fun _ _ h => h, fun _ _ h => h⟩

variable {m m' : Memory}

theorem Shows.trans {m'' : Memory} (h : Shows m m') (h' : Shows m' m'') : Shows m m'' where
  sidecars s o hs := h'.sidecars s o (h.sidecars s o hs)
  intercepts a ics ha := h'.intercepts a ics (h.intercepts a ics ha)
  containers a cs ha := h'.containers a cs (h.containers a cs ha)

theorem getElem?_append_of_some {α : Type} {l : List α} {i : Nat} {x : α} (h : l[i]? = some x)
    (l' : List α) : (l ++ l')[i]? = some x := by
  obtain ⟨hlt, _⟩ := List.getElem?_eq_some_iff.mp h
  rw [getElem?_append_left hlt, h]

variable {s : Nat} {sc : Sidecar}

/-- A sidecar shows the fields of its object, and its containers. -/
theorem Memory.view_eq_some (h : m.view s = some sc) :
    ∃ o, m.sidecars[s]? = some o ∧ m.viewContainers o.containers = some sc.containers := by
  obtain ⟨o, ho, h⟩ := bind_eq_some_iff.mp h
  obtain ⟨cs, hcs, h⟩ := bind_eq_some_iff.mp h
  cases h
  exact ⟨o, ho, hcs⟩

/-- Equal objects show equal sidecars. -/
theorem Memory.view_congr {s' : Nat} {o : SidecarObject} (h : m.view s = some sc)
    (ho : m.sidecars[s]? = some o) (ho' : m'.sidecars[s']? = some o)
    (hcs : m'.viewContainers o.containers = some sc.containers) : m'.view s' = some sc := by
  obtain ⟨o', heq, h⟩ := bind_eq_some_iff.mp h
  rw [ho] at heq
  cases heq
  obtain ⟨cs, _, h⟩ := bind_eq_some_iff.mp h
  cases h
  rw [view, ho', bind_eq_bind, bind_some, hcs]
  rfl

theorem Shows.view (h : Shows m m') (hs : m.view s = some sc) : m'.view s = some sc := by
  obtain ⟨o, ho, hcs⟩ := view_eq_some hs
  exact view_congr hs ho (h.sidecars s o ho) (h.containers _ _ hcs)

/-- More intercepts, and arrays that show the same, keep what containers
show. -/
theorem viewContainer_mono (m m' : Memory) (hobjects : m'.containers = m.containers)
    (hintercepts : ∀ a ics, m.viewIntercepts a = some ics → m'.viewIntercepts a = some ics)
    {c : Nat} {cn : Container} (h : m.viewContainer c = some cn) :
    m'.viewContainer c = some cn := by
  obtain ⟨o, ho, h⟩ := bind_eq_some_iff.mp h
  obtain ⟨ics, hics, h⟩ := bind_eq_some_iff.mp h
  cases h
  rw [viewContainer, hobjects, ho, bind_eq_bind, bind_some,
    hintercepts _ _ hics]
  rfl

/-- One intercept is copied. -/
theorem cloneIntercept_spec {a ii : Nat} {ics : List Intercept} (h : m.viewIntercepts a = some ics)
    (hlt : ii < ics.length) : ∃ m', m.cloneIntercept a ii = some m' ∧ Shows m m' := by
  obtain ⟨refs, hrefs, hall⟩ := contents_eq_some_iff.mp h
  obtain ⟨ref, href, hview⟩ := forall₂_getElem? hall (getElem?_eq_getElem hlt)
  have hnew : (m.intercepts ++ [ics[ii]])[m.intercepts.length]? = some ics[ii] := by simp
  have hintercepts : ∀ a' ics', m.viewIntercepts a' = some ics' →
      contents (fun i => (m.intercepts ++ [ics[ii]])[i]?)
        (store m.interceptArrays a ii m.intercepts.length) a' = some ics' := by
    intro a' ics' h'
    refine contents_store ?_ (contents_mono (fun r v hv => getElem?_append_of_some hv _) h')
    intro refs' old v hrefs' hold hv
    rw [hrefs] at hrefs'
    cases hrefs'
    rw [href] at hold
    cases hold
    rw [getElem?_append_of_some hview] at hv
    rw [hnew]
    exact hv
  let m' : Memory := { m with
    intercepts := m.intercepts ++ [ics[ii]]
    interceptArrays := store m.interceptArrays a ii m.intercepts.length }
  refine ⟨m', ?_, ?_⟩
  · rw [cloneIntercept, hrefs, bind_eq_bind, bind_some, href,
      bind_eq_bind, bind_some, hview]
    rfl
  · refine ⟨fun s o hs => hs, hintercepts, ?_⟩
    intro a' cs h'
    refine contents_mono ?_ h'
    intro c cn hcn
    exact viewContainer_mono m m' rfl hintercepts hcn

/-- A loop of steps that succeed and show the same. -/
theorem foldlM_shows {f : Memory → Nat → Option Memory} {P : Memory → Prop} {is : List Nat}
    (hstep : ∀ m, P m → ∀ i ∈ is, ∃ m', f m i = some m' ∧ Shows m m')
    (hkeep : ∀ m m', Shows m m' → P m → P m') (hm : P m) :
    ∃ m', is.foldlM f m = some m' ∧ Shows m m' := by
  induction is generalizing m with
  | nil => exact ⟨m, rfl, Shows.refl m⟩
  | cons i is ih =>
    obtain ⟨m', hm', hshows⟩ := hstep m hm i mem_cons_self
    have hrest : ∀ m, P m → ∀ j ∈ is, ∃ m', f m j = some m' ∧ Shows m m' := by
      intro m hm j hj
      exact hstep m hm j (mem_cons_of_mem _ hj)
    obtain ⟨m'', hm'', hshows'⟩ := ih hrest (hkeep m m' hshows hm)
    refine ⟨m'', ?_, hshows.trans hshows'⟩
    rw [foldlM_cons, hm']
    exact hm''

/-- One container is copied, with its intercepts. -/
theorem cloneContainer_spec {a ci : Nat} {cs : List Container} (h : m.viewContainers a = some cs)
    (hlt : ci < cs.length) : ∃ m', m.cloneContainer a ci = some m' ∧ Shows m m' := by
  obtain ⟨refs, hrefs, hall⟩ := contents_eq_some_iff.mp h
  obtain ⟨cn, hcn, hview⟩ := forall₂_getElem? hall (getElem?_eq_getElem hlt)
  obtain ⟨ccn, hccn, hbind⟩ := bind_eq_some_iff.mp hview
  obtain ⟨ics, hics, _⟩ := bind_eq_some_iff.mp hbind
  obtain ⟨irefs, hirefs, hiall⟩ := contents_eq_some_iff.mp hics
  let added : Memory := { m with containers := m.containers ++ [ccn] }
  let copied : Memory :=
    { added with containerArrays := store m.containerArrays a ci m.containers.length }
  -- the copy stands for what the original stands for
  have hold : ∀ c v, m.viewContainer c = some v → added.viewContainer c = some v := by
    intro c v hc
    obtain ⟨o, ho, hv⟩ := bind_eq_some_iff.mp hc
    rw [viewContainer, getElem?_append_of_some ho]
    exact hv
  have hnew : added.viewContainer m.containers.length = some cs[ci] := by
    have hlast : added.containers[m.containers.length]? = some ccn := by simp [added]
    rw [viewContainer, hlast]
    exact hbind
  have hcontainers : ∀ a' cs', m.viewContainers a' = some cs' →
      contents added.viewContainer copied.containerArrays a' = some cs' := by
    intro a' cs' h'
    refine contents_store ?_ (contents_mono hold h')
    intro refs' old v hrefs' hslot hv
    rw [hrefs] at hrefs'
    cases hrefs'
    rw [hcn] at hslot
    cases hslot
    rw [hold _ _ hview] at hv
    rw [hnew]
    exact hv
  have hcopied : Shows m copied := ⟨fun s o hs => hs, fun a ics ha => ha, hcontainers⟩
  have hloop : ∃ m', (range irefs.length).foldlM (cloneIntercept ccn.intercepts) copied = some m' ∧
      Shows copied m' := by
    refine foldlM_shows (P := fun m => m.viewIntercepts ccn.intercepts = some ics) ?_ ?_ hics
    · intro m hm ii hii
      refine cloneIntercept_spec hm ?_
      rw [← hiall.length_eq]
      exact mem_range.mp hii
    · intro m m' hshows hm
      exact hshows.intercepts _ _ hm
  obtain ⟨m', hm', hshows⟩ := hloop
  refine ⟨m', ?_, hcopied.trans hshows⟩
  rw [cloneContainer, hrefs, bind_eq_bind, bind_some, hcn,
    bind_eq_bind, bind_some, hccn, bind_eq_bind, bind_some, hirefs]
  exact hm'

/-- **Cloning** changes no configuration.  The object of the clone equals that
of the original, so both have the same array of containers. -/
theorem clone_spec (h : m.view s = some sc) :
    ∃ m' o, m.clone s = some (m', m.sidecars.length) ∧ Shows m m' ∧
      m.sidecars[s]? = some o ∧ m'.sidecars[m.sidecars.length]? = some o := by
  obtain ⟨o, ho, hcs⟩ := view_eq_some h
  obtain ⟨refs, hrefs, hall⟩ := contents_eq_some_iff.mp hcs
  let copied : Memory := { m with sidecars := m.sidecars ++ [o] }
  have hcopied : Shows m copied :=
    ⟨fun s' o' hs => getElem?_append_of_some hs _, fun a ics ha => ha, fun a cs ha => ha⟩
  have hloop : ∃ m', (range refs.length).foldlM (cloneContainer o.containers) copied = some m' ∧
      Shows copied m' := by
    refine foldlM_shows (P := fun m => m.viewContainers o.containers = some sc.containers)
      ?_ ?_ hcs
    · intro m hm ci hci
      refine cloneContainer_spec hm ?_
      rw [← hall.length_eq]
      exact mem_range.mp hci
    · intro m m' hshows hm
      exact hshows.containers _ _ hm
  obtain ⟨m', hm', hshows⟩ := hloop
  refine ⟨m', o, ?_, hcopied.trans hshows, ho, hshows.sidecars _ _ (by simp [copied])⟩
  rw [clone, ho, bind_eq_bind, bind_some, hrefs, bind_eq_bind,
    bind_some, hm']
  rfl

/-! ## What the updaters write -/

/-- Every sidecar with the array of containers gets the policy. -/
theorem setReplace_spec {ci : Nat} {cn : Container} (h : m.view s = some sc)
    (hcn : sc.containers[ci]? = some cn) (rp : ReplacePolicy) :
    ∃ m' o, m.setReplace s ci rp = some m' ∧ m.sidecars[s]? = some o ∧
      m'.sidecars = m.sidecars ∧
      ∀ cs, m'.viewContainers o.containers = some cs → ∃ cn', cs[ci]? = some cn' ∧
        cn'.replace = rp := by
  obtain ⟨o, ho, hcs⟩ := view_eq_some h
  obtain ⟨refs, hrefs, hall⟩ := contents_eq_some_iff.mp hcs
  obtain ⟨ref, href, hview⟩ := forall₂_getElem? hall hcn
  obtain ⟨c, hc, _⟩ := bind_eq_some_iff.mp hview
  refine ⟨{ m with containers := m.containers.modify ref fun c => { c with replace := rp } }, o,
    ?_, ho, rfl, ?_⟩
  · rw [setReplace, ho, bind_eq_bind, bind_some, hrefs, bind_eq_bind,
      bind_some, href]
    rfl
  · intro cs hcs'
    obtain ⟨refs', hrefs', hall'⟩ := contents_eq_some_iff.mp hcs'
    change m.containerArrays[o.containers]? = some refs' at hrefs'
    rw [hrefs] at hrefs'
    cases hrefs'
    obtain ⟨cn', hcn', hview'⟩ := forall₂_getElem? hall'.flip href
    obtain ⟨c', hc', hbind⟩ := bind_eq_some_iff.mp hview'
    obtain ⟨ics, _, hcn''⟩ := bind_eq_some_iff.mp hbind
    have hmodified : (m.containers.modify ref fun c => { c with replace := rp })[ref]? =
        some { c with replace := rp } := by
      rw [getElem?_modify_eq, hc]
      rfl
    rw [hmodified] at hc'
    cases hc'
    cases hcn''
    exact ⟨_, hcn', rfl⟩

/-- Setting the image of one sidecar shows in no other. -/
theorem view_setAgentImage {s' : Nat} (hne : s ≠ s') (agentImage : String) :
    (m.setAgentImage s agentImage).view s' = m.view s' := by
  rw [view, setAgentImage, getElem?_modify_ne _ _ hne]
  rfl

/-- An updater that fails has set a policy only in `restoreAppContainer`, when
the eviction of the pods fails. -/
def Updater.LeavesMark : Updater → Option Sidecar → Prop
  | .restoreAppContainer spec evict, some sc =>
      evict.isSome ∧ ∃ ci cn, spec.find sc = .ok ci ∧ sc.containers[ci]? = some cn ∧
        cn.replace ≠ spec.desiredPolicy
  | .restoreAppContainer _ _, none => False
  | .getOrCreateAgentConfig _ _ _ _, _ => False

/-- What makes `restoreAppContainer` fail. -/
theorem restore_error {spec : InterceptSpec} {evict : Option String} {err : String}
    (hview : m.view s = some sc) (h : restore spec evict m s = some (m', .error err)) :
    (Updater.restoreAppContainer spec evict).LeavesMark (some sc) := by
  rw [restore, hview, bind_eq_bind, bind_some] at h
  split at h
  · cases h
  · rename_i ci hfind
    obtain ⟨cn, hcn, h⟩ := bind_eq_some_iff.mp h
    split at h
    · cases h
    · rename_i hne
      obtain ⟨m'', _, h⟩ := bind_eq_some_iff.mp h
      split at h
      · cases h
      · exact ⟨rfl, ci, cn, hfind, hcn, hne⟩

/-- How `restoreAppContainer` fails. -/
theorem restore_of_leavesMark {spec : InterceptSpec} {evict : Option String}
    (hview : m.view s = some sc)
    (h : (Updater.restoreAppContainer spec evict).LeavesMark (some sc)) :
    ∃ (m' : Memory) (err : String) (o : SidecarObject) (ci : Nat) (cn : Container),
      restore spec evict m s = some (m', .error err) ∧
      m.sidecars[s]? = some o ∧ m'.sidecars = m.sidecars ∧ sc.containers[ci]? = some cn ∧
      cn.replace ≠ spec.desiredPolicy ∧
      ∀ cs, m'.viewContainers o.containers = some cs → ∃ cn', cs[ci]? = some cn' ∧
        cn'.replace = spec.desiredPolicy := by
  obtain ⟨hevict, ci, cn, hfind, hcn, hne⟩ := h
  obtain ⟨err, rfl⟩ := isSome_iff_exists.mp hevict
  obtain ⟨m', o, hset, ho, hsame, hpolicy⟩ := setReplace_spec hview hcn spec.desiredPolicy
  refine ⟨m', err, o, ci, cn, ?_, ho, hsame, hcn, hne, hpolicy⟩
  rw [restore, hview, bind_eq_bind, bind_some, hfind]
  change (sc.containers[ci]?).bind _ = _
  rw [hcn, bind_some, if_neg hne]
  change (m.setReplace s ci spec.desiredPolicy).bind _ = _
  rw [hset]
  rfl

/-- `getOrCreateAgentConfig` fails before it sets a policy. -/
theorem applyPolicy_error {spec : Option InterceptSpec} {rp : ReplacePolicy} {err : String}
    (h : applyPolicy spec rp m s = some (m', .error err)) : m' = m := by
  unfold applyPolicy at h
  split at h
  · cases h
  · obtain ⟨sc, _, h⟩ := bind_eq_some_iff.mp h
    split at h
    · cases h
      rfl
    · obtain ⟨m'', _, h⟩ := bind_eq_some_iff.mp h
      cases h

/-! ## Failed updates -/

/-- What is stored for the workload has no dangling or nil pointers. -/
def ConfigWatcher.Sound (w : ConfigWatcher) (name ns : String) : Prop :=
  ∀ s, w.stored name ns = some s → (w.memory.view s).isSome

/-- A failed update changes nothing that `Get` returns. -/
def Keeps (w : ConfigWatcher) (name ns : String) (updater : Updater) : Prop :=
  ∀ w' err, w.update name ns updater = some (w', .error err) → w'.get name ns = w.get name ns

section Update

variable {w : ConfigWatcher} {name ns : String}

/-- Nothing is stored for the workload. -/
theorem keeps_of_not_stored (h : w.stored name ns = none) (updater : Updater) :
    Keeps w name ns updater := by
  intro w' err hupdate
  have hget : w.get name ns = none := by
    rw [ConfigWatcher.get, h]
    rfl
  have hstored : w'.stored name ns = none := by
    rw [update, h] at hupdate
    obtain ⟨_, _, hupdate⟩ := bind_eq_some_iff.mp hupdate
    obtain ⟨⟨memory, result⟩, _, hupdate⟩ := bind_eq_some_iff.mp hupdate
    cases hupdate
    exact h
  rw [hget, ConfigWatcher.get, hstored]
  rfl

/-- An update of a stored configuration runs the updater on the clone. -/
theorem update_of_stored {s : Nat} {updater : Updater} {m : Memory}
    (hstored : w.stored name ns = some s) {s' : Nat}
    (hclone : w.memory.clone s = some (m, s')) {err : String} {w' : ConfigWatcher} :
    w.update name ns updater = some (w', .error err) ↔
      ∃ memory, updater.run m (some s') = some (memory, .error err) ∧
        w' = { w with memory } := by
  rw [update, hstored]
  dsimp only
  rw [hclone]
  change ((updater.run m (some s')).bind _) = _ ↔ _
  rw [bind_eq_some_iff]
  constructor
  · intro h
    obtain ⟨⟨memory, result⟩, hrun, h⟩ := h
    cases h
    exact ⟨memory, hrun, rfl⟩
  · intro h
    obtain ⟨memory, hrun, rfl⟩ := h
    exact ⟨_, hrun, rfl⟩

end Update

/-- **Failed updates.**  An update that fails leaves the configuration that
`Get` returns as it was, unless `restoreAppContainer` finds a container with
another policy and then fails to evict the pods. -/
theorem failed_update_keeps_iff (w : ConfigWatcher) (name ns : String) (updater : Updater)
    (hw : w.Sound name ns) :
    Keeps w name ns updater ↔ ¬ updater.LeavesMark (w.get name ns) := by
  cases hstored : w.stored name ns with
  | none =>
    have hget : w.get name ns = none := by
      rw [ConfigWatcher.get, hstored]
      rfl
    refine ⟨?_, fun _ => keeps_of_not_stored hstored updater⟩
    intro _ hmark
    rw [hget] at hmark
    cases updater with
    | restoreAppContainer spec evict => exact hmark
    | getOrCreateAgentConfig agentImage create spec rp => exact hmark
  | some s =>
    obtain ⟨sc, hview⟩ := isSome_iff_exists.mp (hw s hstored)
    have hget : w.get name ns = some sc := by
      rw [ConfigWatcher.get, hstored, bind_some, hview]
    obtain ⟨m, o, hclone, hshows, ho, hnew⟩ := clone_spec hview
    have hviewClone : m.view w.memory.sidecars.length = some sc := by
      obtain ⟨o', ho', hcs⟩ := view_eq_some hview
      rw [ho] at ho'
      cases ho'
      exact view_congr hview ho hnew (hshows.containers _ _ hcs)
    have hafter : ∀ memory : Memory,
        ({ w with memory } : ConfigWatcher).get name ns = memory.view s := by
      intro memory
      exact congrArg (Option.bind · memory.view) hstored
    rw [hget]
    constructor
    · intro hkeeps hmark
      cases updater with
      | getOrCreateAgentConfig agentImage create spec rp => exact hmark
      | restoreAppContainer spec evict =>
        obtain ⟨m', err, o', ci, cn, hrun, ho', hsame, hcn, hne, hpolicy⟩ :=
          restore_of_leavesMark hviewClone hmark
        have hkept := hkeeps _ err
          ((update_of_stored hstored hclone).mpr ⟨m', hrun, rfl⟩)
        rw [hafter, hget] at hkept
        obtain ⟨o'', ho'', hcs⟩ := view_eq_some hkept
        -- the stored object and the clone have the same containers
        rw [hsame, hshows.sidecars _ _ ho] at ho''
        rw [hnew] at ho'
        cases ho'
        cases ho''
        obtain ⟨cn', hcn', hreplace⟩ := hpolicy _ hcs
        rw [hcn] at hcn'
        cases hcn'
        exact hne hreplace
    · intro hmark w' err hupdate
      obtain ⟨memory, hrun, rfl⟩ := (update_of_stored hstored hclone).mp hupdate
      rw [hafter, hget]
      cases updater with
      | restoreAppContainer spec evict => exact absurd (restore_error hviewClone hrun) hmark
      | getOrCreateAgentConfig agentImage create spec rp =>
        have hlt : s < w.memory.sidecars.length := (List.getElem?_eq_some_iff.mp ho).1
        have hmemory := applyPolicy_error hrun
        rw [hmemory, view_setAgentImage (by omega)]
        exact hshows.view hview

/-- A watcher with the configuration of one workload, whose container is
replaced. -/
def echoWatcher : ConfigWatcher where
  memory := {
    sidecars := [{
      agentImage := "ghcr.io/telepresenceio/tel2:2.5.4"
      agentName := "echo"
      ns := "default"
      workloadName := "echo"
      workloadKind := "Deployment"
      containers := 0 }]
    containerArrays := [[0]]
    containers := [{ name := "app", intercepts := 0, replace := .container }]
    interceptArrays := [[0]]
    intercepts := [{
      targetPortNumeric := true
      protocol := .tcp
      containerPort := 8080
      agentPort := 9900 }] }
  agentConfigs := AList.singleton "default" (AList.singleton "echo" 0)

theorem sound_echoWatcher : echoWatcher.Sound "echo" "default" := by
  intro s hs
  cases hs
  decide

/-- An update that finds no container keeps the configuration. -/
theorem failed_update_keeps_echo :
    echoWatcher.Sound "echo" "default" ∧
      Keeps echoWatcher "echo" "default" (.getOrCreateAgentConfig "tel2" (.error "")
        (some { containerName := "db", noDefaultPort := true }) .container) :=
  ⟨sound_echoWatcher,
    (failed_update_keeps_iff echoWatcher "echo" "default" _ sound_echoWatcher).mpr id⟩

/-- **A failed update that changes the configuration.**  The pods can not be
evicted, but the container is not replaced any more. -/
theorem failed_restore_changes :
    ¬ Keeps echoWatcher "echo" "default" (.restoreAppContainer
      { containerName := "app", noDefaultPort := true } (some "eviction failed")) := by
  intro h
  have hsame := h _ _ rfl
  revert hsame
  decide

end Telepresence.Mutator
