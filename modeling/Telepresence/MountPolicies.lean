import Telepresence.Lib.Runs
import Telepresence.SidecarGenerator

/-!
# Mount policies, and the history of a generator

`Generate` of `pkg/agentmap/generator.go` with the part that
`SidecarGenerator` leaves out: the mount policies of the configuration are
extended by the annotations of the workload, and the result is **assigned to
the configuration** before the mounts of the containers are looked up in it.
The service watcher calls `Generate` for one workload after the other on one
configuration.

* `generate_same`: configurations with the same policies give the same
  sidecars, if the policies that match a mount agree; otherwise it depends on
  the order in which Go goes through a map.
* `generate_ignores_history_iff`: in a sequence of calls, the configuration
  keeps giving the sidecars of a fresh copy if and only if none of the calls
  has annotations that change the policies.
* `policies_wellDefined_iff`: when a nil map and the order of a map make no
  difference.
-/

namespace Telepresence.AgentMap

open Runs List Option GoMap Strings

/-! ## Policies -/

/-- `types.MountPolicy`. -/
inductive MountPolicy where
  | remote | remoteReadOnly | localOnly | ignore
  deriving DecidableEq

/-- `ParseMountPolicy`. -/
def parseMountPolicy (s : String) : Except String MountPolicy :=
  let lower := toLower s
  if lower = "remote" then .ok .remote
  else if lower = "remotereadonly" then .ok .remoteReadOnly
  else if lower = "local" then .ok .localOnly
  else if lower = "ignore" then .ok .ignore
  else .error ("invalid mount policy: " ++ s.quote)

/-- `types.MountPolicies`, which may be a nil map. -/
abbrev MountPolicies := Option (GoMap String MountPolicy)

/-- What `encoding/json` makes of the text of an annotation: a list of
strings, or a map from keys to the names of policies. -/
structure Decoder where
  strings : String → Except String (List String)
  names : String → Except String (GoMap String String)

/-- `getPolicyAnnotations`. -/
def getPolicyAnnotations (dec : Decoder) (anns : GoMap String String) :
    Except String (GoMap String MountPolicy) :=
  let vma := trimSpace ((anns.lookup (domain ++ "mount-policies")).getD "")
  if vma = "" then .ok ∅
  else do
    let names ← dec.names vma
    GoMap.readAll (fun e => (parseMountPolicy e.2).map fun policy => (e.1, policy)) names.entries

/-- `getIgnoreAnnotations`. -/
def getIgnoreAnnotations (dec : Decoder) (anns : GoMap String String) :
    Except String (List String) :=
  let ann := getAnnotation anns (domain ++ "inject-ignore-volume-mounts")
    (legacyDomain ++ "inject-ignore-volume-mounts")
  let vma := trimSpace ann
  if vma = "" then .ok []
  else if hasPrefix vma "[" then dec.strings vma
  else .ok ((split vma ',').map trimSpace)

/-- How a call of `Generate` can end without a sidecar: as in
`SidecarGenerator`, or with an assignment to an entry of a nil map. -/
inductive Stop where
  | failure (f : Failure)
  | nilMap
  deriving DecidableEq

/-- The policies of a map, overridden by those of the annotations. -/
def overridden (m : GoMap String MountPolicy) (policies : GoMap String MountPolicy)
    (ignores : List String) : GoMap String MountPolicy :=
  GoMap.insertPairs (ignores.map fun key => (key, .ignore))
    (GoMap.insertPairs (policies.entries.map fun e => (e.1, e.2)) m)

/-- `MountPolicies.AddAnnotations`. -/
def addAnnotations (dec : Decoder) (iv : MountPolicies) (anns : GoMap String String) :
    Except Stop MountPolicies := do
  let ignores ← (getIgnoreAnnotations dec anns).mapError fun e => .failure (.error e)
  let policies ← (getPolicyAnnotations dec anns).mapError fun e => .failure (.error e)
  if ignores = [] ∧ policies.entries = [] then .ok iv
  else
    match iv with
    | none => .error .nilMap
    | some m => .ok (some (overridden m policies ignores))

/-- `core.VolumeMount`. -/
structure VolumeMount where
  name : String
  mountPath : String

/-- The policies for a mount, in the order of the entries. -/
def matching (iv : MountPolicies) (vm : VolumeMount) : List MountPolicy :=
  (iv.getD ∅).entries.filterMap fun e =>
    if e.1 = vm.name ∨ hasPrefix vm.mountPath e.1 = true then some e.2 else none

/-- `MountPolicies.Get`.  A range over a map starts anywhere: `first` says
which of the policies for the mount it comes to first. -/
def getPolicy (first : Nat) (iv : MountPolicies) (vm : VolumeMount) : MountPolicy :=
  let ps := matching iv vm
  (ps[first % ps.length]?).getD .remote

/-! ## Generate -/

/-- `addBase26`: at most 14 digits. -/
def addBase26 (c : Char) : Nat → Nat → List Char
  | 0, _ => []
  | fuel + 1, v =>
      (if v < 26 then [] else addBase26 c fuel (v / 26)) ++ [Char.ofNat (c.toNat + v % 26)]

/-- `CapsBase26`. -/
def capsBase26 (v : Nat) : String := String.ofList (addBase26 'A' 14 v)

/-- The fields of `agentconfig.Container` that `SidecarGenerator` leaves
out. -/
structure ContainerMounts where
  envPrefix : String
  mountPoint : String
  mountPaths : List String
  mounts : GoMap String MountPolicy
  deriving DecidableEq

/-- `newContainerConfig`, for a container with the given mounts. -/
def newContainerMounts (iv : MountPolicies) (order : Nat → Nat) (volumeMounts : List VolumeMount)
    (name : String) (index : Nat) : ContainerMounts :=
  let mps := volumeMounts.zipIdx.foldl
    (fun mps (vm, i) =>
      let vp := getPolicy (order i) iv vm
      if vp ≠ .ignore then AList.insert vm.mountPath vp mps else mps)
    (∅ : GoMap String MountPolicy)
  let remote := mps.entries.filter fun e => e.2 = .remote ∨ e.2 = .remoteReadOnly
  { envPrefix := capsBase26 index ++ "_"
    mountPoint := "/tel_app_mounts/" ++ name
    mountPaths := (remote.map Sigma.fst).mergeSort fun a b => decide (a ≤ b)
    mounts := mps }

variable {ρ : Type}

/-- `GeneratorConfig`; `rest` stands for the fields that are copied to the
sidecar as they are. -/
structure MountConfig (ρ : Type) extends GeneratorConfig where
  managerNamespace : String
  clusterDomain : String
  mountPolicies : MountPolicies
  rest : ρ

/-- `agentconfig.Sidecar`; `base` has what `SidecarGenerator` models, and
`containerMounts` the other fields of its containers. -/
structure MountedSidecar (ρ : Type) where
  base : Sidecar
  managerHost : String
  mountPolicies : MountPolicies
  containerMounts : List ContainerMounts
  rest : ρ

/-- A call of `Generate`: the workload, the mounts of its containers, the
configuration that it has, the services that are found for its pods, and how
the ranges over the policies go for the mounts of each container. -/
structure Call where
  workload : Workload
  volumeMounts : String → List VolumeMount := fun _ => []
  existingConfig : Option Sidecar := none
  services : Except String (List Service) := .ok []
  order : String → Nat → Nat := fun _ _ => 0

/-- `ManagerHost`. -/
def managerHost (managerNamespace clusterDomain : String) : String :=
  let host := "traffic-manager." ++ managerNamespace
  let trimmed := (clusterDomain.toList.dropWhile (· = '.')).reverse.dropWhile (· = '.')
  if trimmed = [] ∨ '.' ∈ managerNamespace.toList then host
  else host ++ ".svc." ++ String.ofList trimmed.reverse

/-- What `Generate` does before it comes to the mount policies. -/
def Call.prepare (call : Call) (cfg : GeneratorConfig) :
    Except Failure (List Service × List String) :=
  let wl := call.workload
  if isTrafficManager wl.labels then
    .error (.error (wl.text ++
      " is the Telepresence Traffic Manager. It can not have a traffic-agent"))
  else
    match agentPortExposed cfg wl with
    | some err => .error (.error err)
    | none => do
        let svcs ← call.services.mapError Failure.error
        let servicePorts ← portsFromServicePortsAnnotation wl
        return (svcs, servicePorts)

/-- The configurations of the containers. -/
def Call.containers (call : Call) (cfg : GeneratorConfig) (svcs : List Service)
    (servicePorts : List String) : Except Failure (List Container) := do
  let wl := call.workload
  let st := svcs.foldl
    (appendAgentContainerConfigs cfg call.existingConfig wl.containers servicePorts) {}
  let ports ← portsFromContainerPortsAnnotation wl
  let st ← appendServiceLessAgentContainerConfigs cfg call.existingConfig wl.containers ports st
  return otherContainers call.existingConfig wl st.ccs

/-- The sidecar that is returned. -/
def MountConfig.sidecar (cfg : MountConfig ρ) (call : Call) (ccs : List Container) :
    MountedSidecar ρ where
  base := {
    agentImage := cfg.qualifiedAgentImage
    agentName := call.workload.name
    ns := call.workload.ns
    workloadName := call.workload.name
    workloadKind := call.workload.kind
    containers := ccs }
  managerHost := managerHost cfg.managerNamespace cfg.clusterDomain
  mountPolicies := cfg.mountPolicies
  containerMounts := ccs.zipIdx.map fun (cc, index) =>
    newContainerMounts cfg.mountPolicies (call.order cc.name) (call.volumeMounts cc.name) cc.name
      index
  rest := cfg.rest

/-- `GeneratorConfig.Generate`: what it returns, and the configuration after
it. -/
def MountConfig.generate (dec : Decoder) (cfg : MountConfig ρ) (call : Call) :
    Except Stop (MountedSidecar ρ) × MountConfig ρ :=
  match call.prepare cfg.toGeneratorConfig with
  | .error f => (.error (.failure f), cfg)
  | .ok (svcs, servicePorts) =>
      match addAnnotations dec cfg.mountPolicies call.workload.annotations with
      | .error .nilMap => (.error .nilMap, cfg)
      | .error stop => (.error stop, { cfg with mountPolicies := none })
      | .ok iv =>
          let cfg := { cfg with mountPolicies := iv }
          match call.containers cfg.toGeneratorConfig svcs servicePorts with
          | .error f => (.error (.failure f), cfg)
          | .ok ccs => (.ok (cfg.sidecar call ccs), cfg)

/-! ## What annotations do to the policies -/

/-- The policy that is stored under a key. -/
def policyOf (iv : MountPolicies) (key : String) : Option MountPolicy := iv.bind fun m => m.lookup key

/-- The policies are equal as maps of Go are. -/
def SamePolicies (iv iv' : MountPolicies) : Prop :=
  iv.isSome = iv'.isSome ∧ ∀ key, policyOf iv key = policyOf iv' key

theorem SamePolicies.refl (iv : MountPolicies) : SamePolicies iv iv := ⟨rfl, fun _ => rfl⟩

variable {iv iv' : MountPolicies}

theorem SamePolicies.symm (h : SamePolicies iv iv') :
    SamePolicies iv' iv := ⟨h.1.symm, fun key => (h.2 key).symm⟩

theorem SamePolicies.trans {iv'' : MountPolicies} (h : SamePolicies iv iv')
    (h' : SamePolicies iv' iv'') : SamePolicies iv iv'' :=
  ⟨h.1.trans h'.1, fun key => (h.2 key).trans (h'.2 key)⟩

theorem lookup_overridden (m policies : GoMap String MountPolicy) (ignores : List String)
    (key : String) : (overridden m policies ignores).lookup key =
      if key ∈ ignores then some .ignore else (policies.lookup key).or (m.lookup key) := by
  have hignore : ∀ p, (key, p) ∈ ignores.map (fun key => (key, MountPolicy.ignore)) ↔
      (if key ∈ ignores then some .ignore else none) = some p := by
    grind
  have hpolicy : ∀ p, (key, p) ∈ policies.entries.map (fun e => (e.1, e.2)) ↔
      policies.lookup key = some p := by
    simp [← mem_entries_iff]
  rw [overridden, lookup_insertPairs_or hignore, lookup_insertPairs_or hpolicy]
  split
  · rw [some_or]
  · rw [none_or]

variable {dec : Decoder} {anns : GoMap String String}

/-- The annotations can be read. -/
def Reads (dec : Decoder) (anns : GoMap String String) (ignores : List String)
    (policies : GoMap String MountPolicy) : Prop :=
  getIgnoreAnnotations dec anns = .ok ignores ∧ getPolicyAnnotations dec anns = .ok policies

/-- Ignored volumes come before annotated policies, and these before the
configured ones. -/
def effective (iv : MountPolicies) (ignores : List String) (policies : GoMap String MountPolicy)
    (key : String) : Option MountPolicy :=
  if key ∈ ignores then some .ignore else (policies.lookup key).or (policyOf iv key)

variable {ignores : List String} {policies : GoMap String MountPolicy}

/-- The annotations, once they have been read. -/
theorem addAnnotations_eq (h : Reads dec anns ignores policies) (iv : MountPolicies) :
    addAnnotations dec iv anns =
      if ignores = [] ∧ policies.entries = [] then .ok iv
      else
        match iv with
        | none => .error .nilMap
        | some m => .ok (some (overridden m policies ignores)) := by
  simp only [addAnnotations, h.1, h.2]
  rfl

/-- What the annotations make of the policies. -/
theorem policyOf_addAnnotations (h : Reads dec anns ignores policies)
    (hiv : addAnnotations dec iv anns = .ok iv') :
    iv'.isSome = iv.isSome ∧ ∀ key, policyOf iv' key = effective iv ignores policies key := by
  rw [addAnnotations_eq h] at hiv
  split at hiv
  · rename_i hempty
    cases hiv
    refine ⟨rfl, fun key => ?_⟩
    have hnone : policies.lookup key = none := by
      by_contra hne
      obtain ⟨p, hp⟩ := ne_none_iff_exists'.mp hne
      have hmem := mem_entries_iff.mpr hp
      rw [hempty.2] at hmem
      cases hmem
    rw [effective, hempty.1, hnone]
    rfl
  · cases iv with
    | none => cases hiv
    | some m =>
      cases hiv
      exact ⟨rfl, lookup_overridden m policies ignores⟩

/-- Annotations that cannot be read are an error, whatever the policies. -/
theorem addAnnotations_error (h : ¬ ∃ ignores policies, Reads dec anns ignores policies) :
    ∃ e, ∀ iv, addAnnotations dec iv anns = .error (.failure (.error e)) := by
  cases hi : getIgnoreAnnotations dec anns with
  | error e => exact ⟨e, fun iv => by simp only [addAnnotations, hi]; rfl⟩
  | ok ignores =>
    cases hp : getPolicyAnnotations dec anns with
    | error e => exact ⟨e, fun iv => by simp only [addAnnotations, hi, hp]; rfl⟩
    | ok policies => exact absurd ⟨ignores, policies, hi, hp⟩ h

/-- The same policies are extended to the same policies. -/
theorem addAnnotations_same (dec : Decoder) (h : SamePolicies iv iv') (anns : GoMap String String) :
    Results.Same SamePolicies (addAnnotations dec iv anns) (addAnnotations dec iv' anns) := by
  by_cases hread : ∃ ignores policies, Reads dec anns ignores policies
  · obtain ⟨ignores, policies, hread⟩ := hread
    rw [addAnnotations_eq hread, addAnnotations_eq hread]
    split
    · exact .ok h
    · cases iv with
      | none =>
        cases iv' with
        | none => exact .error _
        | some m' => exact absurd h.1 nofun
      | some m =>
        cases iv' with
        | none => exact absurd h.1 nofun
        | some m' =>
          refine .ok ⟨rfl, ?_⟩
          intro key
          have hkey : m.lookup key = m'.lookup key := h.2 key
          simp only [policyOf, bind_some, lookup_overridden, hkey]
  · obtain ⟨e, he⟩ := addAnnotations_error hread
    rw [he, he]
    exact .error _

/-- The annotations say nothing that the policies do not say already.  If they
cannot be read, the policies are nil already. -/
structure Unchanging (dec : Decoder) (iv : MountPolicies) (anns : GoMap String String) :
    Prop where
  ignores : ∀ ignores policies, Reads dec anns ignores policies →
    ∀ key ∈ ignores, policyOf iv key = some .ignore
  policies : ∀ ignores policies, Reads dec anns ignores policies →
    ∀ key policy, policies.lookup key = some policy → key ∉ ignores →
      policyOf iv key = some policy
  unread : (¬ ∃ ignores policies, Reads dec anns ignores policies) → iv = none

theorem unchanging_iff (h : Reads dec anns ignores policies) : Unchanging dec iv anns ↔
      (∀ key ∈ ignores, policyOf iv key = some .ignore) ∧
        ∀ key policy, policies.lookup key = some policy → key ∉ ignores →
          policyOf iv key = some policy := by
  constructor
  · intro hun
    exact ⟨hun.ignores ignores policies h, hun.policies ignores policies h⟩
  · intro ⟨hignores, hpolicies⟩
    have huniq : ∀ ignores' policies', Reads dec anns ignores' policies' →
        ignores' = ignores ∧ policies' = policies := by
      intro ignores' policies' h'
      exact ⟨Except.ok.inj (h'.1.symm.trans h.1), Except.ok.inj (h'.2.symm.trans h.2)⟩
    refine ⟨?_, ?_, fun hno => absurd ⟨_, _, h⟩ hno⟩
    · intro ignores' policies' h'
      rw [(huniq _ _ h').1]
      exact hignores
    · intro ignores' policies' h'
      rw [(huniq _ _ h').1, (huniq _ _ h').2]
      exact hpolicies

/-- Annotations leave the policies as they are exactly if they say nothing
new. -/
theorem samePolicies_iff_unchanging (h : addAnnotations dec iv anns = .ok iv') :
    SamePolicies iv' iv ↔ Unchanging dec iv anns := by
  by_cases hread : ∃ ignores policies, Reads dec anns ignores policies
  · obtain ⟨ignores, policies, hread⟩ := hread
    obtain ⟨hsome, hpolicy⟩ := policyOf_addAnnotations hread h
    simp only [unchanging_iff hread, SamePolicies, hsome, hpolicy, true_and, effective]
    constructor
    · intro hsame
      constructor
      · intro key hkey
        rw [← hsame key, if_pos hkey]
      · intro key policy hpolicy hkey
        rw [← hsame key, if_neg hkey, hpolicy, some_or]
    · intro ⟨hignores, hpolicies⟩ key
      cases hpolicy : policies.lookup key with
      | none => grind
      | some policy => grind
  · obtain ⟨e, he⟩ := addAnnotations_error hread
    rw [he] at h
    cases h

/-- Annotations that cannot be read make the policies nil. -/
theorem samePolicies_none_iff_unchanging {f : Failure}
    (h : addAnnotations dec iv anns = .error (.failure f)) :
    SamePolicies none iv ↔ Unchanging dec iv anns := by
  have hunread : ¬ ∃ ignores policies, Reads dec anns ignores policies := by
    intro ⟨ignores, policies, hread⟩
    rw [addAnnotations_eq hread] at h
    split at h
    · cases h
    · cases iv with
      | none | some m => cases h
  have hnone : Unchanging dec iv anns ↔ iv = none := by
    refine ⟨fun hun => hun.unread hunread, ?_⟩
    intro hiv
    exact ⟨fun _ _ hread => absurd ⟨_, _, hread⟩ hunread,
      fun _ _ hread => absurd ⟨_, _, hread⟩ hunread, fun _ => hiv⟩
  rw [hnone]
  constructor
  · intro hsame
    exact isSome_eq_false_iff.mp hsame.1.symm |> isNone_iff_eq_none.mp
  · intro hiv
    rw [hiv]
    exact SamePolicies.refl none

/-! ## The same policies give the same sidecars -/

theorem mem_matching_iff {vm : VolumeMount} {p : MountPolicy} :
    p ∈ matching iv vm ↔ ∃ key, policyOf iv key = some p ∧
      (key = vm.name ∨ hasPrefix vm.mountPath key = true) := by
  have hlookup : ∀ key, policyOf iv key = (iv.getD ∅).lookup key := by
    intro key
    cases iv with
    | none | some m => rfl
  simp only [matching, mem_filterMap, ite_none_right_eq_some, some.injEq,
    hlookup]
  constructor
  · intro ⟨e, he, hkey, hp⟩
    rw [← hp]
    exact ⟨e.1, mem_entries_iff.mp he, hkey⟩
  · intro ⟨key, hp, hkey⟩
    exact ⟨⟨key, p⟩, mem_entries_iff.mpr hp, hkey, rfl⟩

/-- The policies for each mount of the call agree. -/
def Unambiguous (iv : MountPolicies) (call : Call) : Prop :=
  ∀ name, ∀ vm ∈ call.volumeMounts name, ∀ p ∈ matching iv vm, ∀ p' ∈ matching iv vm, p = p'

theorem getPolicy_cases (first : Nat) (iv : MountPolicies) (vm : VolumeMount) :
    matching iv vm = [] ∧ getPolicy first iv vm = .remote ∨
      getPolicy first iv vm ∈ matching iv vm := by
  unfold getPolicy
  cases hps : matching iv vm with
  | nil => exact .inl ⟨rfl, rfl⟩
  | cons p ps =>
    have hlt : first % (p :: ps).length < (p :: ps).length := Nat.mod_lt _ (Nat.succ_pos _)
    right
    dsimp only
    rw [getElem?_eq_getElem hlt, getD_some]
    exact getElem_mem hlt

/-- Where the policies agree, the order of the map does not matter. -/
theorem getPolicy_eq (h : SamePolicies iv iv') {vm : VolumeMount}
    (hun : ∀ p ∈ matching iv' vm, ∀ p' ∈ matching iv' vm, p = p') (first first' : Nat) :
    getPolicy first iv vm = getPolicy first' iv' vm := by
  have hmem : ∀ p, p ∈ matching iv vm ↔ p ∈ matching iv' vm := by
    intro p
    simp only [mem_matching_iff, h.2]
  obtain ⟨hnil, hremote⟩ | hin := getPolicy_cases first iv vm
  · obtain ⟨_, hremote'⟩ | hin' := getPolicy_cases first' iv' vm
    · rw [hremote, hremote']
    · have hnone := (hmem _).mpr hin'
      rw [hnil] at hnone
      cases hnone
  · obtain ⟨hnil', _⟩ | hin' := getPolicy_cases first' iv' vm
    · have hnone := (hmem _).mp hin
      rw [hnil'] at hnone
      cases hnone
    · exact hun _ ((hmem _).mp hin) _ hin'

theorem newContainerMounts_eq (h : SamePolicies iv iv') {volumeMounts : List VolumeMount}
    (hun : ∀ vm ∈ volumeMounts, ∀ p ∈ matching iv' vm, ∀ p' ∈ matching iv' vm, p = p')
    (order order' : Nat → Nat) (name : String) (index : Nat) :
    newContainerMounts iv order volumeMounts name index =
      newContainerMounts iv' order' volumeMounts name index := by
  have hmounts : ∀ mps : GoMap String MountPolicy, volumeMounts.zipIdx.foldl
      (fun mps (vm, i) =>
        if getPolicy (order i) iv vm ≠ .ignore then
          AList.insert vm.mountPath (getPolicy (order i) iv vm) mps else mps) mps =
      volumeMounts.zipIdx.foldl
      (fun mps (vm, i) =>
        if getPolicy (order' i) iv' vm ≠ .ignore then
          AList.insert vm.mountPath (getPolicy (order' i) iv' vm) mps else mps) mps := by
    intro mps
    apply foldl_ext
    intro mps x hx
    have hvm : x.1 ∈ volumeMounts := fst_mem_of_mem_zipIdx hx
    simp only [getPolicy_eq h (hun x.1 hvm) (order x.2) (order' x.2)]
  simp only [newContainerMounts, hmounts]

/-- The sidecars are equal, as maps of Go are. -/
structure MountedSidecar.Same (s s' : MountedSidecar ρ) : Prop where
  base : s.base = s'.base
  managerHost : s.managerHost = s'.managerHost
  mountPolicies : SamePolicies s.mountPolicies s'.mountPolicies
  containerMounts : s.containerMounts = s'.containerMounts
  rest : s.rest = s'.rest

/-- The configurations differ in the order of their policies at most. -/
def MountConfig.Same (cfg cfg' : MountConfig ρ) : Prop :=
  cfg = { cfg' with mountPolicies := cfg.mountPolicies } ∧
    SamePolicies cfg.mountPolicies cfg'.mountPolicies

variable {cfg cfg' : MountConfig ρ}

theorem sidecar_same (h : cfg.Same cfg') (call : Call) (order : String → Nat → Nat)
    (ccs : List Container) (hun : Unambiguous cfg'.mountPolicies call) :
    (cfg.sidecar call ccs).Same (cfg'.sidecar { call with order } ccs) := by
  obtain ⟨hcfg, hpolicies⟩ := h
  have himage : cfg.qualifiedAgentImage = cfg'.qualifiedAgentImage := by rw [hcfg]
  have hnamespace : cfg.managerNamespace = cfg'.managerNamespace := by rw [hcfg]
  have hdomain : cfg.clusterDomain = cfg'.clusterDomain := by rw [hcfg]
  constructor
  · simp only [MountConfig.sidecar, himage]
  · simp only [MountConfig.sidecar, hnamespace, hdomain]
  · exact hpolicies
  · simp only [MountConfig.sidecar]
    apply map_congr_left
    intro ⟨cc, index⟩ _
    exact newContainerMounts_eq hpolicies (hun cc.name) (call.order cc.name) (order cc.name)
      cc.name index
  · show cfg.rest = cfg'.rest
    rw [hcfg]

/-- **The same policies give the same sidecars**, where the policies for a
mount agree. -/
theorem generate_same (dec : Decoder) (h : cfg.Same cfg') (call : Call) (order : String → Nat → Nat)
    (hun : ∀ iv, addAnnotations dec cfg'.mountPolicies call.workload.annotations = .ok iv →
      Unambiguous iv call) :
    Results.Same MountedSidecar.Same (cfg.generate dec call).1
      (cfg'.generate dec { call with order }).1 := by
  obtain ⟨hcfg, hpolicies⟩ := h
  have hbase : cfg.toGeneratorConfig = cfg'.toGeneratorConfig := by rw [hcfg]
  have hprepare : Call.prepare { call with order } cfg'.toGeneratorConfig =
      call.prepare cfg.toGeneratorConfig := by rw [hbase]; rfl
  have hcontainers : ∀ svcs ports,
      Call.containers { call with order } cfg'.toGeneratorConfig svcs ports =
        call.containers cfg.toGeneratorConfig svcs ports := by
    intro svcs ports
    rw [hbase]
    rfl
  unfold MountConfig.generate
  rw [hprepare]
  cases call.prepare cfg.toGeneratorConfig with
  | error f => exact .error _
  | ok x =>
    obtain ⟨svcs, ports⟩ := x
    dsimp only
    have hadd := addAnnotations_same dec hpolicies call.workload.annotations
    cases hiv' : addAnnotations dec cfg'.mountPolicies call.workload.annotations with
    | error stop =>
      rw [hiv'] at hadd
      generalize addAnnotations dec cfg.mountPolicies call.workload.annotations = r at hadd
      cases hadd
      cases stop with
      | nilMap | failure f => exact .error _
    | ok iv' =>
      rw [hiv'] at hadd
      generalize addAnnotations dec cfg.mountPolicies call.workload.annotations = r at hadd
      cases hadd with
      | ok hiv =>
        rename_i iv
        dsimp only
        rw [hcontainers]
        cases call.containers cfg.toGeneratorConfig svcs ports with
        | error f => exact .error _
        | ok ccs =>
          have hnew : MountConfig.Same { cfg with mountPolicies := iv }
              { cfg' with mountPolicies := iv' } := by
            refine ⟨?_, hiv⟩
            rw [hcfg]
          exact .ok (sidecar_same hnew call order ccs (hun iv' hiv'))

/-! ## Sequences of calls -/

/-- The configuration after a call, unless the call ended the process. -/
def MountConfig.next (dec : Decoder) (cfg : MountConfig ρ) (call : Call) :
    Option (MountConfig ρ) :=
  match cfg.generate dec call with
  | (.error .nilMap, _) => none
  | (_, cfg') => some cfg'

theorem next_cases {call : Call} (h : cfg.next dec call = some cfg') :
    (∃ f, call.prepare cfg.toGeneratorConfig = .error f) ∧ cfg' = cfg ∨
      (∃ x, call.prepare cfg.toGeneratorConfig = .ok x) ∧
        ∃ iv, cfg' = { cfg with mountPolicies := iv } ∧
          (SamePolicies iv cfg.mountPolicies ↔
            Unchanging dec cfg.mountPolicies call.workload.annotations) := by
  unfold MountConfig.next MountConfig.generate at h
  cases hprepare : call.prepare cfg.toGeneratorConfig with
  | error f =>
    rw [hprepare] at h
    cases h
    exact .inl ⟨⟨f, rfl⟩, rfl⟩
  | ok x =>
    refine .inr ⟨⟨x, rfl⟩, ?_⟩
    rw [hprepare] at h
    dsimp only at h
    cases hiv : addAnnotations dec cfg.mountPolicies call.workload.annotations with
    | error stop =>
      rw [hiv] at h
      cases stop with
      | nilMap => cases h
      | failure f =>
        cases h
        exact ⟨none, rfl, samePolicies_none_iff_unchanging hiv⟩
    | ok iv =>
      rw [hiv] at h
      refine ⟨iv, ?_, samePolicies_iff_unchanging hiv⟩
      dsimp only at h
      cases hccs : call.containers cfg.toGeneratorConfig x.1 x.2 with
      | error f | ok ccs =>
        rw [hccs] at h
        cases h
        rfl

/-- If the call comes to the mount policies, its annotations change nothing. -/
def Harmless (dec : Decoder) (cfg : MountConfig ρ) (call : Call) : Prop :=
  ∀ x, call.prepare cfg.toGeneratorConfig = .ok x →
    Unchanging dec cfg.mountPolicies call.workload.annotations

/-- The configuration gives the sidecars that a fresh copy gives, to every
workload with unambiguous policies. -/
def GivesFresh (dec : Decoder) (fresh cfg : MountConfig ρ) : Prop :=
  ∀ (call : Call) (order : String → Nat → Nat),
    (∀ iv, addAnnotations dec fresh.mountPolicies call.workload.annotations = .ok iv →
      Unambiguous iv call) →
    Results.Same MountedSidecar.Same (cfg.generate dec call).1
      (fresh.generate dec { call with order }).1

/-- A workload without containers and annotations shows the policies. -/
def plain : Call where
  workload := { kind := "Deployment", name := "plain", ns := "default", containers := [] }

theorem generate_plain (dec : Decoder) (cfg : MountConfig ρ) :
    ∃ s, (cfg.generate dec plain).1 = .ok s ∧ s.mountPolicies = cfg.mountPolicies :=
  ⟨_, rfl, rfl⟩

theorem samePolicies_of_givesFresh {fresh : MountConfig ρ} (h : GivesFresh dec fresh cfg) :
    SamePolicies cfg.mountPolicies fresh.mountPolicies := by
  obtain ⟨s, hs, hpolicies⟩ := generate_plain dec cfg
  obtain ⟨s', hs', hpolicies'⟩ := generate_plain dec fresh
  have hsame := h plain plain.order fun _ _ _ _ hvm => absurd hvm not_mem_nil
  have hplain : { plain with order := plain.order } = plain := rfl
  rw [hplain, hs, hs'] at hsame
  cases hsame with
  | ok hsame =>
    rw [← hpolicies, ← hpolicies']
    exact hsame.mountPolicies

/-- **History.**  In a sequence of calls, the configuration gives the sidecars
of a fresh copy at every point if and only if the annotations of no call
change the policies. -/
theorem generate_ignores_history_iff (dec : Decoder) (fresh : MountConfig ρ) (calls : List Call) :
    Always (MountConfig.next dec) (GivesFresh dec fresh) fresh calls ↔
      Meets (MountConfig.next dec) (Harmless dec) fresh calls := by
  have hprop : ∀ cfg : MountConfig ρ, cfg.Same fresh → GivesFresh dec fresh cfg :=
    fun _ hsame call order hun => generate_same dec hsame call order hun
  refine always_iff_meets hprop ?_ ?_ ⟨rfl, SamePolicies.refl _⟩ calls
  · intro cfg call cfg' hsame hharmless hnext
    obtain ⟨_, rfl⟩ | ⟨⟨x, hx⟩, iv, rfl, hiff⟩ := next_cases hnext
    · exact hsame
    · obtain ⟨hcfg, hpolicies⟩ := hsame
      have hsteady : SamePolicies iv cfg.mountPolicies := hiff.mpr (hharmless x hx)
      constructor
      · rw [hcfg]
      · exact SamePolicies.trans hsteady hpolicies
  · intro cfg call cfg' hsame hharmful hnext hfresh
    obtain ⟨⟨f, hf⟩, rfl⟩ | ⟨_, iv, rfl, hiff⟩ := next_cases hnext
    · refine hharmful ?_
      intro x hx
      rw [hf] at hx
      cases hx
    · obtain ⟨_, hpolicies⟩ := hsame
      have hnew : SamePolicies iv fresh.mountPolicies := samePolicies_of_givesFresh hfresh
      have hsteady := hiff.mp (SamePolicies.trans hnew (SamePolicies.symm hpolicies))
      exact hharmful fun _ _ => hsteady

/-! ## Well-defined policies -/

/-- The annotations extend the policies as they should, and a range over the
result can go in any order. -/
structure WellDefined (dec : Decoder) (iv : MountPolicies) (anns : GoMap String String)
    (ignores : List String) (policies : GoMap String MountPolicy) (volumeMounts : List VolumeMount)
    (iv' : MountPolicies) : Prop where
  extended : addAnnotations dec iv anns = .ok iv'
  overriding : ∀ key, policyOf iv' key = effective iv ignores policies key
  policy : ∀ vm ∈ volumeMounts, ∀ first first', getPolicy first iv' vm = getPolicy first' iv' vm
  mounts : ∀ order order' name index, newContainerMounts iv' order volumeMounts name index =
    newContainerMounts iv' order' volumeMounts name index

/-- The key is for the mount. -/
def KeyFor (vm : VolumeMount) (key : String) : Prop :=
  key = vm.name ∨ hasPrefix vm.mountPath key = true

/-- A range can come to each of the policies first. -/
theorem exists_getPolicy {vm : VolumeMount} {p : MountPolicy} (h : p ∈ matching iv vm) :
    ∃ first, getPolicy first iv vm = p := by
  obtain ⟨first, hlt, hp⟩ := mem_iff_getElem.mp h
  refine ⟨first, ?_⟩
  rw [getPolicy, Nat.mod_eq_of_lt hlt, getElem?_eq_getElem hlt, getD_some, hp]

/-- **Mount policies** are well defined if and only if nothing is to be stored
in a nil map and the policies of all keys that are for a mount agree. -/
theorem policies_wellDefined_iff (dec : Decoder) (iv : MountPolicies) (anns : GoMap String String)
    (ignores : List String) (policies : GoMap String MountPolicy)
    (hread : Reads dec anns ignores policies) (volumeMounts : List VolumeMount) :
    (∃ iv', WellDefined dec iv anns ignores policies volumeMounts iv') ↔
      (iv = none → ignores = [] ∧ policies.entries = []) ∧
      ∀ vm ∈ volumeMounts, ∀ key key' p p', KeyFor vm key → KeyFor vm key' →
        effective iv ignores policies key = some p →
        effective iv ignores policies key' = some p' → p = p' := by
  have hadd := addAnnotations_eq hread iv
  constructor
  · intro ⟨iv', hiv', hover, hpolicy, _⟩
    constructor
    · rintro rfl
      by_contra hne
      rw [if_neg hne, hiv'] at hadd
      cases hadd
    · intro vm hvm key key' p p' hkey hkey' hp hp'
      rw [← hover] at hp hp'
      obtain ⟨first, rfl⟩ := exists_getPolicy (mem_matching_iff.mpr ⟨key, hp, hkey⟩)
      obtain ⟨first', rfl⟩ := exists_getPolicy (mem_matching_iff.mpr ⟨key', hp', hkey'⟩)
      exact hpolicy vm hvm first first'
  · intro ⟨hnil, hagree⟩
    obtain ⟨iv', hiv'⟩ : ∃ iv', addAnnotations dec iv anns = .ok iv' := by
      rw [hadd]
      split
      · exact ⟨iv, rfl⟩
      · rename_i hne
        cases iv with
        | none => exact absurd (hnil rfl) hne
        | some m => exact ⟨_, rfl⟩
    have hover := (policyOf_addAnnotations hread hiv').2
    have hun : ∀ vm ∈ volumeMounts, ∀ p ∈ matching iv' vm, ∀ p' ∈ matching iv' vm, p = p' := by
      intro vm hvm p hp p' hp'
      simp only [mem_matching_iff, hover] at hp hp'
      obtain ⟨key, hp, hkey⟩ := hp
      obtain ⟨key', hp', hkey'⟩ := hp'
      exact hagree vm hvm key key' p p' hkey hkey' hp hp'
    exact ⟨iv', hiv', hover, fun vm hvm => getPolicy_eq (SamePolicies.refl iv') (hun vm hvm),
      newContainerMounts_eq (SamePolicies.refl iv') hun⟩

/-! ## Two workloads -/

/-- No JSON. -/
def noDecoder : Decoder := ⟨fun _ => .error "json", fun _ => .error "json"⟩

/-- A configuration of the generator. -/
def exampleConfig : MountConfig Unit where
  agentPort := 9900
  qualifiedAgentImage := "tel2"
  managerNamespace := "ambassador"
  clusterDomain := "cluster.local"
  mountPolicies := some ((∅ : GoMap String MountPolicy).insert "/tmp" .localOnly)
  rest := ()

/-- A workload whose annotation says that a volume is to be ignored. -/
def ignoring : Call where
  workload := {
    kind := "Deployment"
    name := "first"
    ns := "default"
    annotations := (∅ : GoMap String String).insert
      "telepresence.io/inject-ignore-volume-mounts" "data"
    containers := [⟨"app", []⟩] }
  volumeMounts := fun _ => [⟨"data", "/data"⟩]

/-- A workload with a volume of the same name and no annotation. -/
def other : Call where
  workload := { kind := "Deployment", name := "second", ns := "default", containers := [⟨"app", []⟩] }
  volumeMounts := fun _ => [⟨"data", "/data"⟩]

/-- The mounts of the first container that a call returns. -/
def mountsOf (r : Except Stop (MountedSidecar Unit)) : Option (List String) :=
  match r with
  | .ok s => (s.containerMounts.head?).map ContainerMounts.mountPaths
  | .error _ => none

/-- After a workload that ignores a volume, a volume of the same name is
missing in the configuration of another workload. -/
theorem ignored_volume_spreads :
    ∃ cfg, exampleConfig.next noDecoder ignoring = some cfg ∧
      mountsOf (exampleConfig.generate noDecoder other).1 = some ["/data"] ∧
      mountsOf (cfg.generate noDecoder other).1 = some [] ∧
      ¬ Results.Same MountedSidecar.Same (cfg.generate noDecoder other).1
        (exampleConfig.generate noDecoder other).1 := by
  have hnext : (exampleConfig.next noDecoder ignoring).map (fun cfg =>
      mountsOf (cfg.generate noDecoder other).1) = some (some []) := by decide +kernel
  have hfresh : mountsOf (exampleConfig.generate noDecoder other).1 = some ["/data"] := by
    decide +kernel
  obtain ⟨cfg, hcfg, hmounts⟩ := map_eq_some_iff.mp hnext
  refine ⟨cfg, hcfg, hfresh, hmounts, ?_⟩
  intro hsame
  have heq : mountsOf (cfg.generate noDecoder other).1 =
      mountsOf (exampleConfig.generate noDecoder other).1 := by
    generalize (cfg.generate noDecoder other).1 = r at hsame ⊢
    generalize (exampleConfig.generate noDecoder other).1 = r' at hsame ⊢
    cases hsame with
    | error stop => rfl
    | ok hsame => simp only [mountsOf, hsame.containerMounts]
  rw [hmounts, hfresh] at heq
  cases heq

/-- The text of a policy annotation. -/
def policyText : String := "\x7b\"/cache\":\"RemoteReadOnly\",\"data\":\"Local\"\x7d"

/-- What JSON makes of that text. -/
def textDecoder : Decoder where
  strings _ := .error "json"
  names text :=
    if text = policyText then
      .ok (((∅ : GoMap String String).insert "/cache" "RemoteReadOnly").insert "data" "Local")
    else .error "json"

/-- A workload with both annotations. -/
def annotated : GoMap String String :=
  ((∅ : GoMap String String).insert "telepresence.io/inject-ignore-volume-mounts" "data").insert
    "telepresence.io/mount-policies" policyText

/-- The policies of its policy annotation. -/
def annotatedPolicies : GoMap String MountPolicy :=
  ((∅ : GoMap String MountPolicy).insert "data" .localOnly).insert "/cache" .remoteReadOnly

/-- The policies that are configured. -/
def configuredPolicies : MountPolicies :=
  some (((∅ : GoMap String MountPolicy).insert "/tmp" .localOnly).insert "/cache" .remote)

/-- The mounts of its container. -/
def mounted : List VolumeMount := [⟨"data", "/data"⟩, ⟨"c", "/cache/a"⟩, ⟨"t", "/tmp"⟩]

instance (vm : VolumeMount) (key : String) : Decidable (KeyFor vm key) :=
  inferInstanceAs (Decidable (_ ∨ _))

/-- One mount is ignored although the other annotation has a policy for it, one
has an annotated policy instead of the configured one, and one the configured
policy. -/
theorem annotated_policies_wellDefined :
    ∃ iv', WellDefined textDecoder configuredPolicies annotated ["data"] annotatedPolicies mounted
      iv' := by
  refine (policies_wellDefined_iff textDecoder _ _ _ _ ⟨by decide +kernel, by rfl⟩ _).mpr
    ⟨by simp [configuredPolicies], ?_⟩
  let keys : List (String × MountPolicy) :=
    [("data", .ignore), ("/cache", .remoteReadOnly), ("/tmp", .localOnly)]
  have hkeys : ∀ key p, effective configuredPolicies ["data"] annotatedPolicies key = some p →
      (key, p) ∈ keys := by
    intro key p hp
    simp only [effective, policyOf, configuredPolicies, annotatedPolicies, mem_singleton,
      lookup_insert_eq, AList.lookup_empty, bind_some] at hp
    grind
  have hagree : ∀ vm ∈ mounted, ∀ e ∈ keys, ∀ e' ∈ keys, KeyFor vm e.1 → KeyFor vm e'.1 →
      e.2 = e'.2 := by decide +kernel
  intro vm hvm key key' p p' hkey hkey' hp hp'
  exact hagree vm hvm (key, p) (hkeys key p hp) (key', p') (hkeys key' p' hp') hkey hkey'

/-- An ignored volume is stored in a nil map, and a volume name and a path
compete for a mount. -/
theorem policies_not_wellDefined :
    addAnnotations noDecoder none ignoring.workload.annotations = .error .nilMap ∧
      ∃ iv', addAnnotations noDecoder (some ((∅ : GoMap String MountPolicy).insert "/data" .localOnly))
          ignoring.workload.annotations = .ok iv' ∧
        ∃ first first', getPolicy first iv' ⟨"data", "/data"⟩ ≠
          getPolicy first' iv' ⟨"data", "/data"⟩ :=
  ⟨by decide +kernel, _, rfl, 0, 1, by decide +kernel⟩

end Telepresence.AgentMap
