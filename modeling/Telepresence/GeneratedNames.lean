import Telepresence.PatchSteps

/-!
# The containers of a generated configuration

The patch of the injector relies on distinct names (`Plain`).  `Generate` adds
a container to the configuration only if it has none with that name, and passes
over the container of the agent.  So it configures each of the others once
(`names_generate`), and what it generates is plain for every pod with distinct
names (`plain_of_generate`).
-/

namespace Telepresence.AgentMap

open List

variable {cns : List CoreContainer} {cn : CoreContainer}

theorem mem_of_findPort {p : ContainerPort → Bool} {port : ContainerPort}
    (h : findPort cns p = some (cn, port)) : cn ∈ cns := by
  obtain ⟨cn', hmem, hfound⟩ := exists_of_findSome?_eq_some h
  obtain ⟨_, _, heq⟩ := Option.map_eq_some_iff.mp hfound
  cases heq
  exact hmem

theorem mem_of_findContainerMatchingPort {port : ServicePort} {i : Option ContainerPort}
    (h : findContainerMatchingPort port cns = some (cn, i)) : cn ∈ cns := by
  simp only [findContainerMatchingPort] at h
  split at h
  · obtain ⟨_, hfound, heq⟩ := Option.map_eq_some_iff.mp h
    cases heq
    exact mem_of_findPort hfound
  · split at h
    · rename_i hfound
      cases h
      exact mem_of_findPort hfound
    · obtain ⟨_, hfound, heq⟩ := Option.map_eq_some_iff.mp h
      cases heq
      exact mem_of_find?_eq_some hfound

variable {cluster : Cluster} {wl : Workload} {r : Request}

/-- Requests are for containers of the workload, and never for the agent. -/
theorem container_of_mem_requests (h : r ∈ requests cluster wl) :
    r.container ∈ wl.appContainers := by
  rcases mem_append.mp h with h | h
  · obtain ⟨svc, _, h⟩ := mem_flatMap.mp h
    obtain ⟨port, _, h⟩ := mem_filterMap.mp h
    unfold serviceRequest at h
    split at h
    · cases h
    · rename_i hfound
      split at h
      · cases h
      · rename_i hname
        cases h
        exact mem_filter.mpr ⟨mem_of_findContainerMatchingPort hfound, decide_eq_true hname⟩
  · obtain ⟨p, _, h⟩ := mem_filterMap.mp h
    obtain ⟨found, hfound, rfl⟩ := Option.map_eq_some_iff.mp h
    exact mem_of_findPort hfound

variable {cfg : GeneratorConfig} {existingConfig : Option Sidecar}

theorem names_foldl_add (rs : List Request) (st : Allocation) :
    (rs.foldl (Allocation.add cfg existingConfig) st).ccs.map (·.name) ⊆
      st.ccs.map (·.name) ++ rs.map (·.container.name) := by
  induction rs generalizing st with
  | nil => simp
  | cons r rs ih =>
    refine List.Subset.trans (ih _) ?_
    simp only [Allocation.add, names_appendIntercept]
    grind

theorem names_otherContainers (existingConfig : Option Sidecar) (wl : Workload)
    {ccs : List Container} (h : (ccs.map (·.name)).Nodup) :
    ((otherContainers existingConfig wl ccs).map (·.name)).Nodup ∧
      ∀ name, name ∈ (otherContainers existingConfig wl ccs).map (·.name) ↔
        name ∈ ccs.map (·.name) ∨ name ∈ wl.appContainers.map (·.name) := by
  unfold otherContainers
  induction wl.appContainers generalizing ccs with
  | nil => simpa using h
  | cons cn cns ih =>
    rw [foldl_cons]
    split
    · obtain ⟨hnodup, hmem⟩ := ih h
      refine ⟨hnodup, ?_⟩
      grind
    · obtain ⟨hnodup, hmem⟩ :=
        @ih (ccs ++ [⟨cn.name, [], containerReplacePolicy existingConfig cn⟩]) (by grind)
      refine ⟨hnodup, ?_⟩
      grind

/-- **What `Generate` makes** has one entry for each container but the agent. -/
theorem names_generate {s : Sidecar} (h : generate cfg cluster wl existingConfig = .ok s) :
    (s.containers.map (·.name)).Nodup ∧
      ∀ name, name ∈ s.containers.map (·.name) ↔ name ∈ wl.appContainers.map (·.name) := by
  have hall : Allocated cfg (requests cluster wl)
      ((requests cluster wl).foldl (Allocation.add cfg existingConfig) {}) :=
    Allocated.empty.addAll (requests cluster wl)
  obtain ⟨hnodup, hmem⟩ := names_otherContainers existingConfig wl hall.names
  rw [generate_containers h]
  refine ⟨hnodup, ?_⟩
  intro name
  rw [hmem, or_iff_right_iff_imp]
  intro hname
  obtain ⟨r, hr, rfl⟩ := mem_map.mp (names_foldl_add _ _ hname)
  exact mem_map_of_mem (container_of_mem_requests hr)

/-- **A generated configuration** has exactly the containers of the workload
other than the agent, and is plain for every pod with distinct names. -/
theorem plain_of_generate {s : Sidecar} (h : generate cfg cluster wl existingConfig = .ok s) :
    (∀ name, name ∈ s.containers.map (·.name) ↔ name ∈ wl.appContainers.map (·.name)) ∧
      ∀ {ρ : Type} (config : Injection.Sidecar) (pod : Injection.Pod ρ),
        config.containers.map (·.name) = s.containers.map (·.name) →
        (pod.containers.map (·.name)).Nodup → Injection.Plain config pod := by
  obtain ⟨hnodup, hnames⟩ := names_generate h
  refine ⟨hnames, ?_⟩
  intro ρ config pod hconfig hpod
  rw [← hconfig] at hnodup hnames
  refine ⟨hpod, hnodup, ?_⟩
  intro hagent
  obtain ⟨cn, hcn, hname⟩ := mem_map.mp ((hnames _).mp hagent)
  exact of_decide_eq_true (mem_filter.mp hcn).2 hname

/-- A deployment with two containers beside a traffic-agent that is there
already; the service targets a port of the first one. -/
def threeContainers : Workload :=
  { echoDeployment [8080] with
    containers := (echoDeployment [8080]).containers ++
      [{ name := "proxy", ports := [{ containerPort := 9090 }] }, { name := containerName }] }

theorem plain_of_generate_three :
    ∃ s, generate defaultConfig (clusterWith (echoService [(80, 8080)])) threeContainers none =
        .ok s ∧
      s.containers.map (·.name) = ["app", "proxy"] ∧
      ∀ name, name ∈ s.containers.map (·.name) ↔
        name ∈ threeContainers.appContainers.map (·.name) := by
  obtain ⟨s, hs, hnames⟩ : ∃ s, generate defaultConfig (clusterWith (echoService [(80, 8080)]))
      threeContainers none = .ok s ∧ s.containers.map (·.name) = ["app", "proxy"] :=
    ⟨_, rfl, rfl⟩
  exact ⟨s, hs, hnames, (plain_of_generate hs).1⟩

end Telepresence.AgentMap
