import Telepresence.InjectionPatch

/-!
# What the patch is for, and its first steps

The patch of the injector is to remove the containers that the agent replaces,
to give the API variables to the other configured ones, and to leave all of
them alone otherwise (`Hits`).  This module has the steps in which nothing goes
wrong, apart from ports without a name:

1. the container of the agent is added at the end or replaced, so the other
   containers keep their positions (`WithAgent`);
2. ports are renamed at these positions (`run_hidePorts`);
3. containers are removed, from the last to the first (`run_removeContainers`).
-/

namespace Telepresence.Injection

open List Option

open AgentMap (ContainerPort IntOrString ReplacePolicy containerName)
open IndexedEdits Runs

variable {ρ : Type}

/-! ## What the patch is for -/

namespace Sidecar

/-- The agent replaces the container. -/
def replaces (config : Sidecar) (name : String) : Bool :=
  config.containers.any fun cc => cc.name = name ∧ cc.replace = .container

/-- The configuration has a container of the name. -/
def Configures (config : Sidecar) (name : String) : Prop :=
  ∃ cc ∈ config.containers, cc.name = name

/-- The names of the ports of a container that are hidden. -/
def hiddenPorts (config : Sidecar) (name : String) : List String :=
  (config.containers.filter fun cc => cc.name = name).flatMap Container.hidden

/-- The variables that are none of the API server's. -/
def otherEnv (config : Sidecar) (env : Option (List (EnvVar ρ))) : List (EnvVar ρ) :=
  (env.getD []).filter fun e => (config.tpEnv.lookup e.name).isNone

end Sidecar

/-- The variable has the value.  If there are several with its name, the last
one counts. -/
def Gives (env : Option (List (EnvVar ρ))) (name value : String) : Prop :=
  ((env.getD []).reverse.find? fun e => e.name = name) = some ⟨name, value, none⟩

namespace PodContainer

/-- It is not the container of the agent. -/
def isApp (cn : PodContainer ρ) : Bool := cn.name ≠ containerName

/-- The port is the first one with a name that is hidden. -/
def hides (cn : PodContainer ρ) (names : List String) (j : Nat) (p : ContainerPort) : Bool :=
  p.name ∈ names ∧ (cn.ports.findIdx? fun q => q.name = p.name) = some j

/-- The ports after the renames. -/
def renamedPorts (cn : PodContainer ρ) (names : List String) : List ContainerPort :=
  cn.ports.mapIdx fun j p =>
    if cn.hides names j p then { p with name := hiddenPortName p.name 0 } else p

/-- A port of a probe after the renames.  A number is not a name. -/
def renamedRef (names : List String) : IntOrString → IntOrString
  | .int n => .int n
  | .string s => .string (if s ∈ names then hiddenPortName s 0 else s)

/-- The container with its hidden ports renamed. -/
def hide (names : List String) (cn : PodContainer ρ) : PodContainer ρ :=
  { cn with
    ports := cn.renamedPorts names
    probePort := fun k => (cn.probePort k).map (renamedRef names) }

end PodContainer

/-- What the patch may do to a container that stays. -/
structure Right (config : Sidecar) (cn cn' : PodContainer ρ) : Prop where
  same : { cn' with env := cn.env } = cn.hide (config.hiddenPorts cn.name)
  others : config.otherEnv cn'.env = config.otherEnv cn.env
  api : config.Configures cn.name → ∀ n v, config.tpEnv.lookup n = some v → Gives cn'.env n v

/-- The patch hits the containers that it was computed for. -/
def Hits (config : Sidecar) (pod : Pod ρ) (patches : List (PatchOperation ρ)) : Prop :=
  ∃ pod', pod.patched patches = some pod' ∧
    List.Forall₂ (Right config)
      ((pod.containers.filter fun cn => !config.replaces cn.name).filter PodContainer.isApp)
      (pod'.containers.filter PodContainer.isApp) ∧
    containerName ∈ pod'.containers.map (·.name)

/-! ## When it does -/

/-- The names of the containers are distinct, in the pod and in the
configuration, and the container of the agent is not configured. -/
structure Plain (config : Sidecar) (pod : Pod ρ) : Prop where
  podNames : (pod.containers.map (·.name)).Nodup
  configNames : (config.containers.map (·.name)).Nodup
  agent : containerName ∉ config.containers.map (·.name)

/-- The list of the container has the variable. -/
def PodContainer.Lists (cn : PodContainer ρ) (name value : String) : Prop :=
  ⟨name, value, none⟩ ∈ cn.env.getD []

open PodContainer

/-- No container before the position is replaced. -/
def NoneBefore (config : Sidecar) (pod : Pod ρ) (i : Nat) : Prop :=
  ∀ j < i, ∀ cn, pod.containers[j]? = some cn → config.replaces cn.name = false

/-- A configured container that stays has each variable, or no container before
it in the pod is replaced, and neither it nor one before it in the
configuration has the variable in its list.  A port without a name is not
hidden in a container with a probe for a numeric port. -/
structure Aligned (config : Sidecar) (pod : Pod ρ) : Prop where
  env : ∀ before cc after, config.containers = before ++ cc :: after → cc.replace ≠ .container →
    ∀ (i : Nat) app, pod.containers[i]? = some app → app.name = cc.name →
      ∀ n v, config.tpEnv.lookup n = some v →
        Gives app.env n v ∨ NoneBefore config pod i ∧ ¬ app.Lists n v ∧
          ∀ cc' ∈ before, cc'.replace ≠ .container → ∀ app' ∈ pod.containers,
            app'.name = cc'.name → ¬ app'.Lists n v
  ports : ∀ app ∈ pod.containers, config.replaces app.name = false →
    "" ∈ config.hiddenPorts app.name → ∀ k n, app.probePort k ≠ some (.int n)

/-! ## Names and positions -/

section Names

variable {config : Sidecar} {pod : Pod ρ}

section

variable (h : Plain config pod)

include h

theorem Plain.getElem?_inj {i j : Nat} {cn cn' : PodContainer ρ}
    (hi : pod.containers[i]? = some cn) (hj : pod.containers[j]? = some cn')
    (hname : cn.name = cn'.name) : i = j := by
  have hlt : i < (pod.containers.map (·.name)).length := by
    rw [length_map]
    exact (List.getElem?_eq_some_iff.mp hi).1
  refine (List.getElem?_inj hlt h.podNames).mp ?_
  rw [List.getElem?_map, List.getElem?_map, hi, hj, Option.map_some, Option.map_some, hname]

theorem Plain.firstNamed_iff {name : String} {i : Nat}
    {cn : PodContainer ρ} : firstNamed pod.containers name = some (i, cn) ↔
      pod.containers[i]? = some cn ∧ cn.name = name := by
  rw [firstNamed_eq_some_iff]
  constructor
  · intro ⟨hi, hname, _⟩
    exact ⟨hi, hname⟩
  · intro ⟨hi, hname⟩
    refine ⟨hi, hname, ?_⟩
    intro j hj cn' hcn' hname'
    have := h.getElem?_inj hi hcn' (hname.trans hname'.symm)
    omega

/-- There is only one entry for a name. -/
theorem Plain.cc_unique {cc cc' : Container} (hcc : cc ∈ config.containers)
    (hcc' : cc' ∈ config.containers) (hname : cc.name = cc'.name) : cc = cc' :=
  inj_on_of_nodup_map h.configNames hcc hcc' hname

theorem Plain.replaces_iff {cc : Container}
    (hcc : cc ∈ config.containers) : config.replaces cc.name = true ↔ cc.replace = .container := by
  simp only [Sidecar.replaces, List.any_eq_true, decide_eq_true_eq]
  constructor
  · intro ⟨cc', hcc', hname, hreplace⟩
    rw [← h.cc_unique hcc' hcc hname]
    exact hreplace
  · intro hreplace
    exact ⟨cc, hcc, rfl, hreplace⟩

theorem Plain.name_ne {cc : Container} (hcc : cc ∈ config.containers) :
    cc.name ≠ containerName := by
  intro hname
  exact h.agent (hname ▸ mem_map_of_mem hcc)

theorem Plain.agent_stays : config.replaces containerName = false := by
  simp only [Sidecar.replaces, List.any_eq_false, decide_eq_true_eq]
  intro cc hcc ⟨hname, _⟩
  exact h.name_ne hcc hname

theorem Plain.hiddenPorts_agent : config.hiddenPorts containerName = [] := by
  rw [Sidecar.hiddenPorts, filter_eq_nil_iff.mpr]
  · rfl
  · intro cc hcc
    simpa using h.name_ne hcc

/-- Where a position has a container of the pod, `EachContainer` finds the
entries with its name. -/
theorem Plain.filter_eachContainer {i : Nat} {app : PodContainer ρ}
    (hi : pod.containers[i]? = some app) :
    (eachContainer config pod).filter (fun m => m.index = i) =
      (config.containers.filter fun cc => cc.name = app.name).map fun cc => ⟨i, app, cc⟩ := by
  rw [eachContainer]
  induction config.containers with
  | nil => rfl
  | cons cc ccs ih =>
    rw [filterMap_cons, filter_cons]
    by_cases hname : cc.name = app.name
    · rw [h.firstNamed_iff.mpr ⟨hi, hname.symm⟩]
      simp [hname, ih]
    · cases hfirst : firstNamed pod.containers cc.name with
      | none => simp [hname, ih]
      | some x =>
        obtain ⟨j, cn⟩ := x
        obtain ⟨hj, hcn⟩ := h.firstNamed_iff.mp hfirst
        have hne : j ≠ i := by
          intro heq
          subst heq
          cases hi.symm.trans hj
          exact hname hcn.symm
        simp [hname, hne, ih]

end

theorem index_lt_of_mem_eachContainer {m : Match ρ} (hm : m ∈ eachContainer config pod) :
    pod.containers[m.index]? = some m.app ∧ m.app.name = m.cc.name ∧ m.cc ∈ config.containers := by
  obtain ⟨cc, hcc, hmap⟩ := mem_filterMap.mp hm
  obtain ⟨⟨i, cn⟩, hfirst, rfl⟩ := map_eq_some_iff.mp hmap
  obtain ⟨hi, hname, _⟩ := firstNamed_eq_some_iff.mp hfirst
  exact ⟨hi, hname, hcc⟩

end Names

/-! ## The container of the agent -/

/-- The containers once that of the agent is there. -/
structure WithAgent (pod : Pod ρ) (cns : List (PodContainer ρ)) : Prop where
  app : ∀ (i : Nat) cn, cn.name ≠ containerName →
    (cns[i]? = some cn ↔ pod.containers[i]? = some cn)
  names : ∃ tail, cns.map (·.name) = pod.containers.map (·.name) ++ tail ∧
    ∀ n ∈ tail, n = containerName
  agent : containerName ∈ cns.map (·.name)

/-- Lists with the same names. -/
theorem forall₂_isApp {as bs : List (PodContainer ρ)} (h : as.map (·.name) = bs.map (·.name)) :
    List.Forall₂ (fun a b : PodContainer ρ => a.isApp = b.isApp) as bs := by
  rw [← forall₂_eq_eq_eq, forall₂_map_left_iff, forall₂_map_right_iff] at h
  exact h.imp fun a b hab => by rw [isApp, isApp, hab]

theorem WithAgent.filter {pod : Pod ρ} {cns : List (PodContainer ρ)} (h : WithAgent pod cns) :
    cns.filter isApp = pod.containers.filter isApp := by
  obtain ⟨tail, hnames, htail⟩ := h.names
  -- what comes after the containers of the pod is of the agent
  obtain ⟨cns', last, rfl, hcns', hlast⟩ := List.map_eq_append_iff.mp hnames
  have hfilter : last.filter isApp = [] := by
    refine List.filter_eq_nil_iff.mpr fun cn hcn => ?_
    have := htail cn.name (hlast ▸ List.mem_map_of_mem hcn)
    simpa [isApp] using this
  rw [List.filter_append, hfilter, List.append_nil]
  rw [← List.forall₂_eq_eq_eq, forall₂_filter_iff (forall₂_isApp hcns')]
  intro j a b ha hb happ
  have hname : a.name ≠ containerName := by simpa [isApp] using happ
  have hlt := (List.getElem?_eq_some_iff.mp ha).1
  have := (h.app j a hname).mp (by rw [List.getElem?_append_left hlt, ha])
  exact Option.some.inj (this.symm.trans hb)

theorem exists_withAgent (k : Injector ρ) (pod : Pod ρ) {acn : PodContainer ρ}
    (hacn : acn.name = containerName) :
    ∃ cns, run (Op.apply Edit.apply) pod.containers (addAgentContainer k pod acn) = some cns ∧
      WithAgent pod cns := by
  rw [addAgentContainer]
  cases hfirst : firstNamed pod.containers containerName with
  | none =>
    refine ⟨pod.containers ++ [acn], rfl, ?_, ⟨[containerName], ?_, ?_⟩, ?_⟩
    · intro i cn hcn
      by_cases hi : i < pod.containers.length
      · rw [List.getElem?_append_left hi]
      · have hi : pod.containers.length ≤ i := by omega
        rw [List.getElem?_append_right hi, List.getElem?_eq_none hi]
        constructor
        · intro h
          rw [List.mem_singleton.mp (List.mem_of_getElem? h)] at hcn
          exact absurd hacn hcn
        · intro h
          cases h
    · simp [hacn]
    · simp
    · simp [hacn]
  | some x =>
    obtain ⟨i, pcn⟩ := x
    obtain ⟨hi, hpcn, _⟩ := firstNamed_eq_some_iff.mp hfirst
    have hlt := (List.getElem?_eq_some_iff.mp hi).1
    dsimp only
    split
    · refine ⟨pod.containers, rfl, fun _ _ _ => Iff.rfl, ⟨[], by simp, by simp⟩, ?_⟩
      exact hpcn ▸ List.mem_map_of_mem (List.mem_of_getElem? hi)
    · refine ⟨pod.containers.set i acn, by simp [run, Op.apply, hlt], ?_, ⟨[], ?_, by simp⟩, ?_⟩
      · intro j cn hcn
        rw [List.getElem?_set]
        by_cases hij : i = j
        · subst hij
          rw [if_pos rfl, if_pos hlt, hi]
          constructor
          · intro h
            cases h
            exact absurd hacn hcn
          · intro h
            cases h
            exact absurd hpcn hcn
        · rw [if_neg hij]
      · rw [List.append_nil, List.map_set, hacn, ← hpcn]
        refine List.ext_getElem? fun j => ?_
        rw [List.getElem?_set]
        by_cases hij : i = j
        · subst hij
          simp [hlt, (List.getElem?_eq_some_iff.mp hi).2]
        · rw [if_neg hij]
      · rw [List.map_set, hacn]
        exact List.mem_of_getElem? (by rw [List.getElem?_set_self (by simpa using hlt)])

/-! ## The renames -/

namespace PodContainer

/-- What the renames make of a container. -/
def renamed (names : List String) (cn : PodContainer ρ) : PodContainer ρ :=
  { cn with
    ports := cn.renamedPorts names
    probePort := fun k => (cn.probePort k).map fun p =>
      if strVal p ∈ names then .string (hiddenPortName (strVal p) 0) else p }

theorem renamed_nil (cn : PodContainer ρ) : cn.renamed [] = cn := by
  have hports : cn.renamedPorts [] = cn.ports := by
    refine ext_getElem? fun j => ?_
    simp [renamedPorts, hides]
  simp [renamed, hports]

theorem hides_append_of_ne (cn : PodContainer ρ) {names : List String} {n : String} {j : Nat}
    {p : ContainerPort} (h : p.name ≠ n) : cn.hides (names ++ [n]) j p = cn.hides names j p := by
  simp [hides, h]

theorem getElem?_renamedPorts (cn : PodContainer ρ) (names : List String) (j : Nat) :
    (cn.renamedPorts names)[j]? = cn.ports[j]?.map fun p =>
      if cn.hides names j p then { p with name := hiddenPortName p.name 0 } else p := by
  rw [renamedPorts, getElem?_mapIdx]

/-- One more name, and no port has it. -/
theorem renamedPorts_of_none {cn : PodContainer ρ} {n : String}
    (h : (cn.ports.findIdx? fun p => p.name = n) = none) (names : List String) :
    cn.renamedPorts (names ++ [n]) = cn.renamedPorts names := by
  refine ext_getElem? fun j => ?_
  rw [getElem?_renamedPorts, getElem?_renamedPorts]
  refine map_congr fun p hp => ?_
  have hne : p.name ≠ n := by
    have := findIdx?_eq_none_iff.mp h p (mem_of_getElem? hp)
    simpa using this
  rw [hides_append_of_ne cn hne]

/-- One more name, which the port at `j` has. -/
theorem renamedPorts_of_some {cn : PodContainer ρ} {n : String} {j : Nat}
    (h : (cn.ports.findIdx? fun p => p.name = n) = some j) (names : List String) :
    ∃ p, (cn.renamedPorts names)[j]? = some p ∧
      (cn.renamedPorts names).set j { p with name := hiddenPortName n 0 } =
        cn.renamedPorts (names ++ [n]) := by
  obtain ⟨hj, hname, _⟩ := findIdx?_eq_some_iff_getElem.mp h
  have hname : cn.ports[j].name = n := by simpa using hname
  have hp : (cn.renamedPorts names)[j]? = some (if cn.hides names j cn.ports[j] then
      { cn.ports[j] with name := hiddenPortName cn.ports[j].name 0 } else cn.ports[j]) := by
    rw [getElem?_renamedPorts, getElem?_eq_getElem hj]
    rfl
  refine ⟨_, hp, ext_getElem? fun i => ?_⟩
  rw [getElem?_set, getElem?_renamedPorts cn (names ++ [n])]
  by_cases hij : j = i
  · subst hij
    have hhides : cn.hides (names ++ [n]) j cn.ports[j] = true := by simp [hides, hname, h]
    rw [if_pos rfl, if_pos (by simpa [renamedPorts] using hj), getElem?_eq_getElem hj,
      map_some, if_pos hhides, hname]
    split <;> rfl
  · rw [if_neg hij, getElem?_renamedPorts]
    refine map_congr fun p hp => ?_
    by_cases hpn : p.name = n
    · -- the first port with the name is another one
      have hnot : ∀ names', cn.hides names' i p = false := by
        intro names'
        simp [hides, hpn, h, hij]
      rw [hnot, hnot]
    · rw [hides_append_of_ne cn hpn]

/-- Replace the ports of some probes. -/
theorem run_probePorts {cn : PodContainer ρ} {f : ProbeKind × Handler → Bool} {name : String}
    (h : ∀ k, f k = true → (cn.probePort k).isSome) (ks : List (ProbeKind × Handler)) :
    run Edit.apply cn ((ks.filter f).map (.probePort · name)) =
      some { cn with probePort := fun k =>
        if k ∈ ks ∧ f k = true then some (.string name) else cn.probePort k } := by
  induction ks generalizing cn with
  | nil => simp [run]
  | cons k ks ih =>
    cases hk : f k with
    | false =>
      rw [filter_cons_of_neg (by simp [hk]), ih h]
      congr 2
      funext k'
      by_cases hkk : k' = k
      · subst hkk
        simp [hk]
      · simp [hkk]
    | true =>
      obtain ⟨p, hp⟩ := isSome_iff_exists.mp (h k hk)
      rw [filter_cons_of_pos hk, map_cons, run, Edit.apply, hp, map_some,
        bind_some, ih]
      · congr 2
        funext k'
        by_cases hkk : k' = k
        · subst hkk
          simp [hk]
        · simp [hkk]
      · intro k' hk'
        by_cases hkk : k' = k
        · subst hkk
          simp
        · simpa [Function.update_of_ne hkk] using h k' hk'

theorem mem_probeHandlers (k : ProbeKind × Handler) : k ∈ probeHandlers := by
  obtain ⟨p, h⟩ := k
  cases p <;> cases h <;> decide

/-- One more name is hidden. -/
theorem run_hideContainerPorts (cn : PodContainer ρ) (names : List String) (n : String) :
    run Edit.apply (cn.renamed names) (hideContainerPorts cn n) =
      some (cn.renamed (names ++ [n])) := by
  have hports : run Edit.apply (cn.renamed names)
      ((cn.ports.findIdx? fun p => p.name = n).toList.map (.portName · (hiddenPortName n 0))) =
        some { cn.renamed names with ports := cn.renamedPorts (names ++ [n]) } := by
    cases hj : cn.ports.findIdx? fun p => p.name = n with
    | none =>
      rw [renamedPorts_of_none hj]
      rfl
    | some j =>
      obtain ⟨p, hp, hset⟩ := renamedPorts_of_some hj names
      have hp : (cn.renamed names).ports[j]? = some p := hp
      simp only [toList_some, map_cons, map_nil, run, Edit.apply, hp,
        map_some, bind_some]
      rw [← hset]
      rfl
  rw [hideContainerPorts, run_append, hports, bind_some, run_probePorts]
  · congr 1
    rw [renamed, renamed]
    congr 1
    funext k
    simp only [mem_probeHandlers, true_and]
    cases cn.probePort k with
    | none => simp
    | some p =>
      by_cases hp : strVal p = n
      · simp [hp]
      · simp [hp]
  · intro k hk
    cases hp : cn.probePort k with
    | none => simp [hp] at hk
    | some p => simp [renamed, hp]

/-- All names. -/
theorem run_hidden (cn : PodContainer ρ) (names : List String) :
    run Edit.apply cn (names.flatMap (hideContainerPorts cn)) = some (cn.renamed names) := by
  induction names using reverseRecOn with
  | nil => rw [renamed_nil, flatMap_nil, run]
  | append_singleton names n ih =>
    rw [flatMap_append, run_append, ih, bind_some, flatMap_singleton]
    exact run_hideContainerPorts cn names n

end PodContainer

section Phases

variable {config : Sidecar} {pod : Pod ρ} {cns : List (PodContainer ρ)}

section

variable (h : Plain config pod)

include h

theorem Plain.aimedAt_hidePorts {i : Nat} {app : PodContainer ρ}
    (hi : pod.containers[i]? = some app) : aimedAt (hidePorts pod config) i =
      (config.hiddenPorts app.name).flatMap (hideContainerPorts app) := by
  rw [hidePorts, aimedAt_flatMap, h.filter_eachContainer hi, flatMap_map, Sidecar.hiddenPorts,
    flatMap_assoc]

/-- **Ports are renamed** in the containers that they are in. -/
theorem Plain.run_hidePorts (hcns : WithAgent pod cns) :
    run (Op.apply Edit.apply) cns (edits (hidePorts pod config)) =
      some (cns.map fun cn => cn.renamed (config.hiddenPorts cn.name)) := by
  have hnone : ∀ {cn : PodContainer ρ}, cn.name = containerName →
      cn.renamed (config.hiddenPorts cn.name) = cn := by
    intro cn hcn
    rw [hcn, h.hiddenPorts_agent, renamed_nil]
  obtain ⟨tail, hnames, _⟩ := hcns.names
  have hlen : pod.containers.length ≤ cns.length := by
    have := congrArg length hnames
    simp only [length_map, length_append] at this
    omega
  have hindex : ∀ p ∈ hidePorts pod config, p.1 < pod.containers.length := by
    intro p hp
    obtain ⟨m, hm, hp⟩ := mem_flatMap.mp hp
    obtain ⟨e, _, rfl⟩ := mem_map.mp hp
    exact (List.getElem?_eq_some_iff.mp (index_lt_of_mem_eachContainer hm).1).1
  rw [run_edits_iff]
  refine ⟨fun p hp => Nat.lt_of_lt_of_le (hindex p hp) hlen, length_map _, ?_⟩
  intro i cn hcn
  rw [getElem?_map, hcn, map_some]
  by_cases hagent : cn.name = containerName
  · rw [hnone hagent]
    cases hi : pod.containers[i]? with
    | none =>
      rw [aimedAt_eq_nil, run]
      intro p hp heq
      have := hindex p hp
      rw [heq] at this
      rw [getElem?_eq_getElem this] at hi
      cases hi
    | some app =>
      have happ : app.name = containerName := by
        by_contra hne
        cases hcn.symm.trans ((hcns.app i app hne).mpr hi)
        exact hne hagent
      rw [h.aimedAt_hidePorts hi, happ, h.hiddenPorts_agent, flatMap_nil, run]
  · rw [h.aimedAt_hidePorts ((hcns.app i cn hagent).mp hcn)]
    exact cn.run_hidden _

/-- The entries that make the agent replace a container: one, or none. -/
theorem Plain.length_replacing (name : String) :
    (config.containers.filter fun cc => cc.name = name ∧ cc.replace = .container).length =
      if config.replaces name then 1 else 0 := by
  cases hreplaces : config.replaces name with
  | false =>
    simp only [Sidecar.replaces, List.any_eq_false] at hreplaces
    rw [List.filter_eq_nil_iff.mpr hreplaces]
    rfl
  | true =>
    obtain ⟨cc, hcc, hname⟩ := any_eq_true.mp hreplaces
    have hmem : cc ∈ config.containers.filter fun cc =>
        cc.name = name ∧ cc.replace = .container := mem_filter.mpr ⟨hcc, hname⟩
    have hall : ∀ cc' ∈ config.containers.filter fun cc =>
        cc.name = name ∧ cc.replace = .container, cc' = cc := by
      intro cc' hcc'
      obtain ⟨hmem', hname'⟩ := mem_filter.mp hcc'
      simp only [decide_eq_true_eq] at hname hname'
      exact h.cc_unique hmem' hcc (hname'.1.trans hname.1.symm)
    have hnodup := (h.configNames.of_map _).filter
      fun cc => decide (cc.name = name ∧ cc.replace = .container)
    rw [eq_replicate_of_mem hall, nodup_replicate] at hnodup
    have hpos := length_pos_of_mem hmem
    rw [if_pos rfl]
    omega

/-- The removals, by position. -/
theorem Plain.maybeRemoveAppContainer_eq : maybeRemoveAppContainer pod config =
      (dropped (fun cn => !config.replaces cn.name) pod.containers).map .remove := by
  rw [maybeRemoveAppContainer, dropped]
  induction pod.containers.zipIdx.reverse with
  | nil => rfl
  | cons x xs ih =>
    rw [flatMap_cons, ih, filter_cons, map_const', h.length_replacing]
    cases hreplaces : config.replaces x.1.name with
    | false | true => simp

/-- **Containers are removed** if the agent replaces them. -/
theorem Plain.run_removeContainers (hcns : WithAgent pod cns) :
    run (Op.apply Edit.apply) (cns.map fun cn => cn.renamed (config.hiddenPorts cn.name))
        (maybeRemoveAppContainer pod config) =
      some ((cns.filter fun cn => !config.replaces cn.name).map fun cn =>
        cn.renamed (config.hiddenPorts cn.name)) := by
  obtain ⟨tail, hnames, htail⟩ := hcns.names
  obtain ⟨cns', last, rfl, hcns', hlast⟩ := List.map_eq_append_iff.mp hnames
  have hstay : last.filter (fun cn => !config.replaces cn.name) = last := by
    refine List.filter_eq_self.mpr fun cn hcn => ?_
    rw [htail cn.name (hlast ▸ List.mem_map_of_mem hcn), h.agent_stays]
    rfl
  -- the positions depend on the names only
  have hdropped : dropped (fun cn => !config.replaces cn.name) pod.containers =
      dropped (fun cn => !config.replaces cn.name)
        (cns'.map fun cn => cn.renamed (config.hiddenPorts cn.name)) := by
    rw [← dropped_map (fun cn : PodContainer ρ => cn.name) (fun n => !config.replaces n), ← hcns',
      dropped_map, dropped_map]
    rfl
  rw [h.maybeRemoveAppContainer_eq, hdropped, List.map_append, run_removals, List.filter_append,
    hstay, List.map_append, List.filter_map]
  rfl

end

end Phases

end Telepresence.Injection
