import Telepresence.AgentContainer
import Telepresence.StoredConfigs

/-!
# Injection after a restart of the traffic-manager

A new traffic-manager has no configurations.  `RegenerateAgentMaps` takes them
from the annotations of the pods, and the next pod of a workload gets the
container that `Inject` builds from them.

* Until the manager is configured, what is in an annotation is stored as it
  is (`get_regenerateAgentMaps`).  `MarshalTight` has stripped it, so the
  container has no image.
* `restart_preserves_injection_iff` says for which configurations the
  container is the same all the same.
-/

namespace Telepresence.AgentConfig

open List Results Mutator

variable {ρ δ : Type}

/-! ## The configurations -/

/-- The JSON texts of the configurations, as far as they are written by
`MarshalTight` and read by `UnmarshalJSON`. -/
structure Codec (ρ δ : Type) where
  encode : Sidecar ρ → δ
  unmarshalJSON : δ → Except String (Sidecar ρ)
  unmarshalJSON_encode : ∀ s : Sidecar ρ, unmarshalJSON (encode s.stripped) = .ok s.stripped

/-- `MarshalTight`, of a configuration that nobody else uses. -/
def Codec.marshalTight (c : Codec ρ δ) (s : Sidecar ρ) : δ := c.encode s.stripped

/-- `configWatcher`, with the configurations. -/
structure ConfigWatcher (ρ : Type) where
  configured : Bool := false
  agentConfigs : Configs (Sidecar ρ) := ∅

namespace ConfigWatcher

/-- `Store`. -/
def store (c : ConfigWatcher ρ) (sc : Sidecar ρ) : ConfigWatcher ρ :=
  { c with agentConfigs := c.agentConfigs.put sc.agentName sc.ns sc }

/-- `Get`. -/
def get (c : ConfigWatcher ρ) (key ns : String) : Option (Sidecar ρ) :=
  c.agentConfigs.get key ns

theorem get_store (c : ConfigWatcher ρ) (sc : Sidecar ρ) (key ns : String) :
    (c.store sc).get key ns =
      if key = sc.agentName ∧ ns = sc.ns then some sc else c.get key ns :=
  Configs.get_put _ _ _ _ _ _

end ConfigWatcher

/-! ## Reading them from the pods -/

/-- Why a pod has no workload. -/
inductive OwnerError where
  | notFound
  | failed (message : String)

/-- What `RegenerateAgentMaps` sees of a pod in the cluster: its phase, the
outcome of the search for its workload, and its annotation. -/
structure PodObject (δ : Type) where
  pendingOrRunning : Bool
  owner : Except OwnerError WorkloadKey
  config : Option δ

/-- `wlPodMap.add`. -/
def addPod (podMap : GoMap WorkloadKey (List (PodObject δ))) (wl : WorkloadKey)
    (pod : PodObject δ) : GoMap WorkloadKey (List (PodObject δ)) :=
  podMap.insert wl ((podMap.lookup wl).getD [] ++ [pod])

/-- The loop of `podList`. -/
def podLoop (podMap : GoMap WorkloadKey (List (PodObject δ))) :
    List (PodObject δ) → Except String (GoMap WorkloadKey (List (PodObject δ)))
  | [] => .ok podMap
  | pod :: pods =>
      if pod.pendingOrRunning then
        match pod.owner with
        | .ok wl => podLoop (addPod podMap wl pod) pods
        | .error .notFound => podLoop podMap pods
        | .error (.failed e) => .error e
      else podLoop podMap pods

/-- `whereWeWatch`. -/
def whereWeWatch (ns : String) : String :=
  if ns = "" then "cluster wide" else "in namespace " ++ ns

/-- `podList`, for a namespace and what the lister says about it. -/
def podList (ns : String) :
    Except String (List (PodObject δ)) → Except String (GoMap WorkloadKey (List (PodObject δ)))
  | .error e => .error ("error listing pods " ++ whereWeWatch ns ++ ": " ++ e)
  | .ok pods => podLoop ∅ pods

/-- What the manager has from its environment. -/
structure Env (ρ : Type) where
  /-- `GeneratorConfig`, of which only the error matters here. -/
  generatorConfig : Except String Unit := .ok ()
  /-- `Generate`, for a workload and the configuration that it has. -/
  generate : WorkloadKey → Option (Sidecar ρ) → Except String (Sidecar ρ)
  enabledWorkloadKinds : List String := ["Deployment", "ReplicaSet", "StatefulSet"]
  agentImage : String
  onDemand : Bool := true
  mutationAware : Bool := true

/-- The state of the loop over the pods of a workload. -/
structure Regeneration (ρ δ : Type) where
  watcher : ConfigWatcher ρ
  wls : GoMap WorkloadKey (Sidecar ρ) := ∅
  podsOfInterest : List (PodObject δ) := []

section Pods

variable [DecidableEq ρ]

/-- A pod with a configuration, once the manager is configured. -/
def regeneratePod (env : Env ρ) (wl : WorkloadKey) (r : Regeneration ρ δ) (pod : PodObject δ)
    (sc : Sidecar ρ) : Regeneration ρ δ :=
  let key : WorkloadKey := ⟨sc.workloadName, sc.ns, sc.workloadKind⟩
  let interest (r : Regeneration ρ δ) (newSc : Option (Sidecar ρ)) : Regeneration ρ δ :=
    if newSc = some sc then r else { r with podsOfInterest := r.podsOfInterest ++ [pod] }
  match r.wls.lookup key with
  | some newSc => interest r (some newSc)
  | none =>
      if sc.workloadKind ∈ env.enabledWorkloadKinds then
        match env.generate wl (some sc) with
        | .error _ => r
        | .ok newSc =>
            interest { r with wls := r.wls.insert key newSc, watcher := r.watcher.store newSc }
              (some newSc)
      else interest r none

/-- The body of the loop over the pods of a workload. -/
def visitPod (codec : Codec ρ δ) (env : Env ρ) (wl : WorkloadKey) (r : Regeneration ρ δ)
    (pod : PodObject δ) : Regeneration ρ δ :=
  match pod.config with
  | none => r
  | some cfgJSON =>
      match codec.unmarshalJSON cfgJSON with
      | .error _ => r
      | .ok sc =>
          if r.watcher.configured then regeneratePod env wl r pod sc
          else { r with watcher := r.watcher.store sc }

/-- The pods that are evicted, with their workload. -/
abbrev Evictions (δ : Type) := List (WorkloadKey × List (PodObject δ))

/-- The body of the loop of `regenerateAgentConfigs`. -/
def visitWorkload (codec : Codec ρ δ) (env : Env ρ) (x : ConfigWatcher ρ × Evictions δ)
    (wp : Sigma fun _ : WorkloadKey => List (PodObject δ)) : ConfigWatcher ρ × Evictions δ :=
  let r := wp.2.foldl (visitPod codec env wp.1) { watcher := x.1 }
  (r.watcher, if r.podsOfInterest.isEmpty then x.2 else x.2 ++ [(wp.1, r.podsOfInterest)])

/-- `regenerateAgentConfigs`.  Go goes through the workloads in any order. -/
def regenerateAgentConfigs (codec : Codec ρ δ) (env : Env ρ)
    (order : GoMap.Order WorkloadKey (List (PodObject δ))) (x : ConfigWatcher ρ × Evictions δ)
    (ns : String) (listed : Except String (List (PodObject δ))) :
    Except String (ConfigWatcher ρ × Evictions δ) := do
  let evictMap ← podList ns listed
  .ok ((order.visit evictMap).foldl (visitWorkload codec env) x)

/-- The namespaces that the manager watches, each with what the lister says
about its pods. -/
abbrev Cluster (δ : Type) := List (String × Except String (List (PodObject δ)))

/-- The loop of `RegenerateAgentMaps`, with the error that ends it. -/
def regenerateLoop (codec : Codec ρ δ) (env : Env ρ)
    (order : GoMap.Order WorkloadKey (List (PodObject δ))) (x : ConfigWatcher ρ × Evictions δ) :
    Cluster δ → (ConfigWatcher ρ × Evictions δ) × Except String Unit
  | [] => (x, .ok ())
  | (ns, listed) :: rest =>
      match regenerateAgentConfigs codec env order x ns listed with
      | .error e => (x, .error e)
      | .ok x' => regenerateLoop codec env order x' rest

/-- `RegenerateAgentMaps`. -/
def regenerateAgentMaps (codec : Codec ρ δ) (env : Env ρ)
    (order : GoMap.Order WorkloadKey (List (PodObject δ))) (c : ConfigWatcher ρ)
    (cluster : Cluster δ) : (ConfigWatcher ρ × Evictions δ) × Except String Unit :=
  match env.generatorConfig with
  | .error e => ((c, []), .error e)
  | .ok _ => regenerateLoop codec env order (c, []) cluster

end Pods

/-! ## Injection -/

/-- What `Inject` sees of a pod: the annotation that tells if an agent is
wanted, the outcome of the search for its workload, and its own template and
the one of the workload. -/
structure Admission (ρ : Type) where
  inject : String
  owner : Option WorkloadKey
  pod : Pod ρ
  wlTemplate : Pod ρ

/-- `AdmissionRequest`. -/
structure Request (ρ : Type) where
  isDelete : Bool := false
  pod : Except String (Admission ρ)

/-- `GetOrGenerate`. -/
def ConfigWatcher.getOrGenerate (env : Env ρ) (c : ConfigWatcher ρ) (wl : WorkloadKey) :
    ConfigWatcher ρ × Except String (Sidecar ρ) :=
  match c.get wl.name wl.ns with
  | some ac => (c, .ok ac)
  | none =>
      match env.generatorConfig with
      | .error e => (c, .error e)
      | .ok _ =>
          match env.generate wl none with
          | .error e => (c, .error e)
          | .ok ac =>
              let (agentConfigs, ac) := c.agentConfigs.computeGenerated wl.name wl.ns ac
              ({ c with agentConfigs }, .ok ac)

/-- The configuration that `Inject` uses for a pod, if it gets an agent. -/
def injectedConfig (env : Env ρ) (c : ConfigWatcher ρ) (a : Admission ρ) :
    ConfigWatcher ρ × Except String (Option (Sidecar ρ)) :=
  let unlessManual (sc : Sidecar ρ) : Option (Sidecar ρ) := if sc.manual then none else some sc
  if a.inject = "false" ∨ a.inject = "disabled" then (c, .ok none)
  else if a.inject = "" ∧ env.onDemand = false then (c, .ok none)
  else if a.inject = "" ∨ a.inject = "enabled" then
    if env.agentImage = "" then (c, .ok none)
    else
      match a.owner with
      | none => (c, .ok none)
      | some wl =>
          if a.inject = "enabled" then
            match c.getOrGenerate env wl with
            | (c', .error e) =>
                (c', .error ("unable to get or generate agent config for workload " ++ wl.ns ++
                  "." ++ wl.name ++ ": " ++ e))
            | (c', .ok sc) => (c', .ok (unlessManual sc))
          else (c, .ok ((c.get wl.name wl.ns).bind unlessManual))
  else (c, .error ("invalid value " ++ a.inject.quote ++
    " for annotation telepresence.io/inject-traffic-agent"))

/-- `Inject`, up to the container of the agent. -/
def inject (k : Kubernetes ρ) (env : Env ρ) (terminating : Bool) (c : ConfigWatcher ρ)
    (req : Request ρ) : ConfigWatcher ρ × Except String (Option (AgentContainer ρ)) :=
  if terminating then (c, .ok none)
  else
    match req.pod with
    | .error e => (c, .error e)
    | .ok a =>
        if req.isDelete then (c, .ok none)
        else
          match injectedConfig env c a with
          | (c', .error e) => (c', .error e)
          | (c', .ok none) => (c', .ok none)
          | (c', .ok (some sc)) =>
              (c', (agentContainer k (if env.mutationAware then a.pod else a.wlTemplate) sc).map some)

/-! ## What is restored -/

/-- The pod is one of those whose annotations are read. -/
structure PodObject.Counts (pod : PodObject δ) : Prop where
  pendingOrRunning : pod.pendingOrRunning = true
  owner : ∃ wl, pod.owner = .ok wl

/-- The annotation of the pod holds the configuration. -/
def PodObject.Carries (codec : Codec ρ δ) (pod : PodObject δ) (sc : Sidecar ρ) : Prop :=
  ∃ d, pod.config = some d ∧ codec.unmarshalJSON d = .ok sc

/-- If the pod has a configuration under this name, then it is this one. -/
def PodObject.Agrees (codec : Codec ρ δ) (pod : PodObject δ) (sc : Sidecar ρ) : Prop :=
  ∀ t, pod.Carries codec t → t.agentName = sc.agentName → t.ns = sc.ns → t = sc

/-- The pod is in the map. -/
def Listed (podMap : GoMap WorkloadKey (List (PodObject δ))) (pod : PodObject δ) : Prop :=
  ∃ wl pods, podMap.lookup wl = some pods ∧ pod ∈ pods

theorem listed_addPod (podMap : GoMap WorkloadKey (List (PodObject δ))) (wl : WorkloadKey)
    (pod p : PodObject δ) : Listed (addPod podMap wl pod) p ↔ p = pod ∨ Listed podMap p := by
  simp only [Listed, addPod, GoMap.lookup_insert_eq]
  constructor
  · intro ⟨wl', pods, hpods, hp⟩
    split at hpods
    · cases hpods
      rcases mem_append.mp hp with hp | hp
      · cases hold : podMap.lookup wl with
        | none => simp [hold] at hp
        | some old => exact .inr ⟨wl, old, hold, by simpa [hold] using hp⟩
      · exact .inl (mem_singleton.mp hp)
    · exact .inr ⟨wl', pods, hpods, hp⟩
  · intro h
    rcases h with rfl | ⟨wl', pods, hpods, hp⟩
    · exact ⟨wl, _, if_pos rfl, by simp⟩
    · by_cases hwl : wl' = wl
      · subst hwl
        exact ⟨wl', _, if_pos rfl, by simp [hpods, hp]⟩
      · exact ⟨wl', pods, by rw [if_neg hwl]; exact hpods, hp⟩

/-- Exactly the pods that count are in the map. -/
theorem listed_podLoop {podMap podMap' : GoMap WorkloadKey (List (PodObject δ))}
    {pods : List (PodObject δ)} (h : podLoop podMap pods = .ok podMap') (p : PodObject δ) :
    Listed podMap' p ↔ p ∈ pods ∧ p.Counts ∨ Listed podMap p := by
  induction pods generalizing podMap with
  | nil =>
    cases h
    simp
  | cons pod pods ih =>
    have hskip : ¬ pod.Counts → podLoop podMap pods = .ok podMap' →
        (Listed podMap' p ↔ p ∈ pod :: pods ∧ p.Counts ∨ Listed podMap p) := by
      intro hnot hrest
      rw [ih hrest, mem_cons]
      constructor
      · intro hp
        exact hp.imp_left fun hp => ⟨.inr hp.1, hp.2⟩
      · intro hp
        rcases hp with ⟨rfl | hp, hcounts⟩ | hp
        · exact absurd hcounts hnot
        · exact .inl ⟨hp, hcounts⟩
        · exact .inr hp
    rw [podLoop] at h
    split at h
    · rename_i hphase
      split at h
      · rename_i wl howner
        have hcounts : pod.Counts := ⟨hphase, wl, howner⟩
        rw [ih h, listed_addPod, mem_cons]
        constructor
        · intro hp
          rcases hp with hp | rfl | hp
          · exact .inl ⟨.inr hp.1, hp.2⟩
          · exact .inl ⟨.inl rfl, hcounts⟩
          · exact .inr hp
        · intro hp
          rcases hp with ⟨rfl | hp, hc⟩ | hp
          · exact .inr (.inl rfl)
          · exact .inl ⟨hp, hc⟩
          · exact .inr (.inr hp)
      · rename_i howner
        refine hskip ?_ h
        intro ⟨_, wl, hwl⟩
        rw [howner] at hwl
        cases hwl
      · cases h
    · rename_i hphase
      exact hskip (fun hcounts => hphase hcounts.pendingOrRunning) h

/-- A loop keeps what every round keeps, and ends with what a round reaches. -/
theorem foldl_reaches {σ α : Type} {f : σ → α → σ} {Inv Goal : σ → Prop} {Hit : α → Prop}
    {xs : List α} (hround : ∀ s, Inv s → ∀ x ∈ xs,
      Inv (f s x) ∧ (Goal s → Goal (f s x)) ∧ (Hit x → Goal (f s x)))
    {s : σ} (hs : Inv s) :
    Inv (xs.foldl f s) ∧ (Goal s → Goal (xs.foldl f s)) ∧
      ((∃ x ∈ xs, Hit x) → Goal (xs.foldl f s)) := by
  induction xs generalizing s with
  | nil => exact ⟨hs, id, fun ⟨x, hx, _⟩ => absurd hx not_mem_nil⟩
  | cons x xs ih =>
    obtain ⟨hinv, hkeep, hhit⟩ := hround s hs x mem_cons_self
    obtain ⟨hinv', hkeep', hhit'⟩ :=
      ih (fun t ht y hy => hround t ht y (mem_cons_of_mem _ hy)) hinv
    refine ⟨hinv', fun hgoal => hkeep' (hkeep hgoal), ?_⟩
    intro ⟨y, hy, hyhit⟩
    rcases mem_cons.mp hy with rfl | hy
    · exact hkeep' (hhit hyhit)
    · exact hhit' ⟨y, hy, hyhit⟩

/-- The configuration is stored under its name. -/
def ConfigWatcher.Holds (c : ConfigWatcher ρ) (sc : Sidecar ρ) : Prop :=
  c.get sc.agentName sc.ns = some sc

variable {c : ConfigWatcher ρ} {sc t : Sidecar ρ}

theorem ConfigWatcher.holds_store (hagrees : t.agentName = sc.agentName → t.ns = sc.ns → t = sc) :
    (c.Holds sc → (c.store t).Holds sc) ∧ (t = sc → (c.store t).Holds sc) := by
  simp only [Holds, ConfigWatcher.get_store]
  by_cases heq : sc.agentName = t.agentName ∧ sc.ns = t.ns
  · rw [if_pos heq, hagrees heq.1.symm heq.2.symm]
    exact ⟨fun _ => rfl, fun _ => rfl⟩
  · rw [if_neg heq]
    refine ⟨id, ?_⟩
    intro ht
    subst ht
    exact absurd ⟨rfl, rfl⟩ heq

section Pods

variable [DecidableEq ρ]

variable {codec : Codec ρ δ} {sc : Sidecar ρ}

/-- A pod that agrees with the configuration, before the manager is
configured. -/
theorem holds_visitPod (env : Env ρ) (wl : WorkloadKey) {r : Regeneration ρ δ} {pod : PodObject δ}
    (hnot : r.watcher.configured = false) (hagrees : pod.Agrees codec sc) :
    (visitPod codec env wl r pod).watcher.configured = false ∧
      (r.watcher.Holds sc → (visitPod codec env wl r pod).watcher.Holds sc) ∧
      (pod.Carries codec sc → (visitPod codec env wl r pod).watcher.Holds sc) := by
  unfold visitPod
  split
  · rename_i hnone
    refine ⟨hnot, id, ?_⟩
    intro ⟨d, hd, _⟩
    rw [hnone] at hd
    cases hd
  · rename_i d hd
    split
    · rename_i e he
      refine ⟨hnot, id, ?_⟩
      intro ⟨d', hd', hsc⟩
      rw [hd] at hd'
      cases hd'
      rw [he] at hsc
      cases hsc
    · rename_i t ht
      rw [hnot, if_neg Bool.false_ne_true]
      obtain ⟨hkeep, hset⟩ := ConfigWatcher.holds_store (c := r.watcher) (hagrees t ⟨d, hd, ht⟩)
      refine ⟨hnot, hkeep, ?_⟩
      intro ⟨d', hd', hsc⟩
      rw [hd] at hd'
      cases hd'
      rw [ht] at hsc
      exact hset (Except.ok.inj hsc)

variable {x : ConfigWatcher ρ × Evictions δ}

/-- The pods of a workload. -/
theorem holds_visitWorkload (env : Env ρ) {wp : Sigma fun _ : WorkloadKey => List (PodObject δ)}
    (hnot : x.1.configured = false) (hagrees : ∀ pod ∈ wp.2, pod.Agrees codec sc) :
    (visitWorkload codec env x wp).1.configured = false ∧
      (x.1.Holds sc → (visitWorkload codec env x wp).1.Holds sc) ∧
      ((∃ pod ∈ wp.2, pod.Carries codec sc) → (visitWorkload codec env x wp).1.Holds sc) := by
  have hround : ∀ r : Regeneration ρ δ, r.watcher.configured = false → ∀ pod ∈ wp.2,
      (visitPod codec env wp.1 r pod).watcher.configured = false ∧
        (r.watcher.Holds sc → (visitPod codec env wp.1 r pod).watcher.Holds sc) ∧
        (pod.Carries codec sc → (visitPod codec env wp.1 r pod).watcher.Holds sc) :=
    fun r hr pod hpod => holds_visitPod env wp.1 hr (hagrees pod hpod)
  exact foldl_reaches (f := visitPod codec env wp.1) hround (s := { watcher := x.1 }) hnot

variable {env : Env ρ} {order : GoMap.Order WorkloadKey (List (PodObject δ))}

/-- The pods of a namespace. -/
theorem holds_regenerateAgentConfigs {x' : ConfigWatcher ρ × Evictions δ} {ns : String}
    {listed : Except String (List (PodObject δ))} (hnot : x.1.configured = false)
    (hagrees : ∀ pods, listed = .ok pods → ∀ pod ∈ pods, pod.Counts → pod.Agrees codec sc)
    (h : regenerateAgentConfigs codec env order x ns listed = .ok x') :
    x'.1.configured = false ∧ (x.1.Holds sc → x'.1.Holds sc) ∧
      ((∃ pods, listed = .ok pods ∧ ∃ pod ∈ pods, pod.Counts ∧ pod.Carries codec sc) →
        x'.1.Holds sc) := by
  obtain ⟨podMap, hpodMap, hx'⟩ := bind_eq_ok.mp h
  cases hx'
  cases listed with
  | error e => cases hpodMap
  | ok pods =>
    have hlisted : ∀ p, Listed podMap p ↔ p ∈ pods ∧ p.Counts := by
      intro p
      rw [listed_podLoop hpodMap p, or_iff_left]
      intro ⟨wl, ps, hps, _⟩
      rw [AList.lookup_empty] at hps
      cases hps
    have hround : ∀ y : ConfigWatcher ρ × Evictions δ, y.1.configured = false →
        ∀ wp ∈ order.visit podMap, (visitWorkload codec env y wp).1.configured = false ∧
          (y.1.Holds sc → (visitWorkload codec env y wp).1.Holds sc) ∧
          ((∃ pod ∈ wp.2, pod.Carries codec sc) →
            (visitWorkload codec env y wp).1.Holds sc) := by
      intro y hy wp hwp
      refine holds_visitWorkload env hy ?_
      intro pod hpod
      obtain ⟨hmem, hcounts⟩ := (hlisted pod).mp ⟨wp.1, wp.2, order.mem_visit.mp hwp, hpod⟩
      exact hagrees pods rfl pod hmem hcounts
    obtain ⟨hnot', hkeep, hhit⟩ := foldl_reaches hround hnot
    refine ⟨hnot', hkeep, ?_⟩
    intro ⟨pods', hpods', pod, hpod, hcounts, hcarries⟩
    cases hpods'
    obtain ⟨wl, ps, hps, hmem⟩ := (hlisted pod).mpr ⟨hpod, hcounts⟩
    exact hhit ⟨⟨wl, ps⟩, order.mem_visit.mpr hps, pod, hmem, hcarries⟩

/-- The pods of all namespaces. -/
theorem holds_regenerateLoop {cluster : Cluster δ} {x' : ConfigWatcher ρ × Evictions δ}
    (hnot : x.1.configured = false)
    (hagrees : ∀ ns pods, (ns, .ok pods) ∈ cluster → ∀ pod ∈ pods, pod.Counts →
      pod.Agrees codec sc) (h : regenerateLoop codec env order x cluster = (x', .ok ())) :
    (x.1.Holds sc → x'.1.Holds sc) ∧
      ((∃ ns pods, (ns, .ok pods) ∈ cluster ∧
        ∃ pod ∈ pods, pod.Counts ∧ pod.Carries codec sc) → x'.1.Holds sc) := by
  induction cluster generalizing x with
  | nil =>
    cases h
    exact ⟨id, fun ⟨_, _, hmem, _⟩ => absurd hmem not_mem_nil⟩
  | cons head rest ih =>
    obtain ⟨ns, listed⟩ := head
    rw [regenerateLoop] at h
    split at h
    · cases h
    · rename_i y hy
      obtain ⟨hnot', hkeep, hhit⟩ := holds_regenerateAgentConfigs hnot
        (fun pods hpods => hagrees ns pods (hpods ▸ mem_cons_self)) hy
      obtain ⟨hkeep', hhit'⟩ :=
        ih hnot' (fun ns' pods hmem => hagrees ns' pods (mem_cons_of_mem _ hmem)) h
      refine ⟨fun hholds => hkeep' (hkeep hholds), ?_⟩
      intro ⟨ns', pods, hmem, hpod⟩
      rcases mem_cons.mp hmem with heq | hmem
      · cases heq
        exact hkeep' (hhit ⟨pods, rfl, hpod⟩)
      · exact hhit' ⟨ns', pods, hmem, hpod⟩

/-- The pods of a workload were injected from the configuration: at least one
of them is there, and none has another configuration for the workload. -/
structure InjectedFrom (codec : Codec ρ δ) (cluster : Cluster δ) (sc : Sidecar ρ) : Prop where
  one : ∃ ns pods, (ns, .ok pods) ∈ cluster ∧
    ∃ pod ∈ pods, pod.Counts ∧ pod.config = some (codec.marshalTight sc)
  all : ∀ ns pods, (ns, .ok pods) ∈ cluster → ∀ pod ∈ pods, pod.Counts →
    ∀ d t, pod.config = some d → codec.unmarshalJSON d = .ok t →
      t.agentName = sc.agentName → t.ns = sc.ns → d = codec.marshalTight sc

/-- **What a new manager has** is what `MarshalTight` has left. -/
theorem get_regenerateAgentMaps {cluster : Cluster δ} (hpods : InjectedFrom codec cluster sc)
    (h : regenerateAgentMaps codec env order {} cluster = (x, .ok ())) :
    x.1.get sc.agentName sc.ns = some sc.stripped := by
  unfold regenerateAgentMaps at h
  split at h
  · cases h
  · have hagrees : ∀ ns pods, (ns, .ok pods) ∈ cluster → ∀ pod ∈ pods, pod.Counts →
        pod.Agrees codec sc.stripped := by
      intro ns pods hmem pod hpod hcounts t ⟨d, hd, ht⟩ hname hns
      rw [Sidecar.stripped_eq] at hname hns
      rw [hpods.all ns pods hmem pod hpod hcounts d t hd ht hname hns, Codec.marshalTight,
        codec.unmarshalJSON_encode] at ht
      exact (Except.ok.inj ht).symm
    obtain ⟨_, hhit⟩ := holds_regenerateLoop rfl hagrees h
    obtain ⟨ns, pods, hmem, pod, hpod, hcounts, hconfig⟩ := hpods.one
    have hholds := hhit ⟨ns, pods, hmem, pod, hpod, hcounts, _, hconfig,
      codec.unmarshalJSON_encode sc⟩
    rw [ConfigWatcher.Holds, Sidecar.stripped_eq] at hholds
    rw [Sidecar.stripped_eq]
    exact hholds

end Pods

/-! ## The next pod -/

/-- The template that the container is built for. -/
def Env.template (env : Env ρ) (a : Admission ρ) : Pod ρ :=
  if env.mutationAware then a.pod else a.wlTemplate

/-- The request is for a new pod of the workload, and an agent is wanted. -/
structure Wanted (env : Env ρ) (req : Request ρ) (a : Admission ρ) (sc : Sidecar ρ) : Prop where
  isDelete : req.isDelete = false
  pod : req.pod = .ok a
  inject : a.inject = "enabled" ∨ a.inject = "" ∧ env.onDemand = true
  agentImage : env.agentImage ≠ ""
  owner : ∃ kind, a.owner = some ⟨sc.agentName, sc.ns, kind⟩
  manual : sc.manual = false

/-- The configuration that is stored is the one that is used. -/
theorem injectedConfig_of_wanted {env : Env ρ} {req : Request ρ} {a : Admission ρ}
    (h : Wanted env req a sc) (hget : c.get sc.agentName sc.ns = some t)
    (hmanual : t.manual = false) : injectedConfig env c a = (c, .ok (some t)) := by
  obtain ⟨kind, howner⟩ := h.owner
  rcases h.inject with hinject | ⟨hinject, hdemand⟩
  · simp [injectedConfig, hinject, h.agentImage, howner, ConfigWatcher.getOrGenerate, hget, hmanual]
  · simp [injectedConfig, hinject, hdemand, h.agentImage, howner, hget, hmanual]

variable {k : Kubernetes ρ}

theorem inject_of_wanted {env : Env ρ} {req : Request ρ} {a : Admission ρ} (h : Wanted env req a sc)
    (hget : c.get sc.agentName sc.ns = some t) (hmanual : t.manual = false) :
    (inject k env false c req).2 = (agentContainer k (env.template a) t).map some := by
  simp only [inject, h.pod, h.isDelete, injectedConfig_of_wanted h hget hmanual, Env.template,
    Bool.false_eq_true, if_false]

/-- Without the configured security context, the agent would get the same. -/
def SecurityContextImplied (k : Kubernetes ρ) (pod : Pod ρ) (sc : Sidecar ρ) : Prop :=
  ∀ configured, sc.securityContext = some configured →
    ∃ first, firstAppSecurityContext k pod sc.containers = .ok first ∧
      configured.rest = (first.getD { rest := k.emptyRest }).rest ∧
      (configured.runAsGroup = none ∨ configured.runAsGroup = some (distinctAgentGID pod))

/-- The configured security context does not matter exactly if it is implied. -/
theorem agentSecurityContext_none_iff {pod : Pod ρ} {s : SecurityContext ρ}
    (h : agentSecurityContext k pod sc.containers sc.securityContext = .ok s) :
    agentSecurityContext k pod sc.containers none = .ok s ↔ SecurityContextImplied k pod sc := by
  unfold SecurityContextImplied
  cases hsc : sc.securityContext with
  | none =>
    rw [hsc] at h
    simp [h]
  | some configured =>
    have hs : s = { configured with
        runAsGroup := some (configured.runAsGroup.getD (distinctAgentGID pod)) } := by
      rw [hsc] at h
      obtain ⟨group, rest⟩ := configured
      cases group with
      | none | some group =>
        cases h
        rfl
    have hgroup : configured.runAsGroup.getD (distinctAgentGID pod) = distinctAgentGID pod ↔
        configured.runAsGroup = none ∨ configured.runAsGroup = some (distinctAgentGID pod) := by
      cases configured.runAsGroup with
      | none | some group => simp
    constructor
    · intro hnone configured' heq
      cases heq
      obtain ⟨first, hfirst, hok⟩ := bind_eq_ok.mp hnone
      have heq := (Except.ok.inj hok).trans hs
      rw [SecurityContext.mk.injEq, Option.some.injEq] at heq
      exact ⟨first, hfirst, heq.2.symm, hgroup.mp heq.1.symm⟩
    · intro himplied
      obtain ⟨first, hfirst, hrest, hgid⟩ := himplied configured rfl
      refine bind_eq_ok.mpr ⟨first, hfirst, ?_⟩
      rw [hs, hrest, hgroup.mpr hgid]

/-- The stripped configuration gives the same container exactly if what was
stripped is empty or implied. -/
theorem agentContainer_stripped_iff {pod : Pod ρ} {c : AgentContainer ρ}
    (h : agentContainer k pod sc = .ok c) :
    agentContainer k pod sc.stripped = .ok c ↔
      sc.agentImage = "" ∧ sc.pullPolicy = "" ∧ SecurityContextImplied k pod sc := by
  obtain ⟨s, hs, hc⟩ := bind_eq_ok.mp h
  cases hc
  rw [← agentSecurityContext_none_iff hs, Sidecar.stripped_eq]
  constructor
  · intro hstripped
    obtain ⟨s', hs', heq⟩ := bind_eq_ok.mp hstripped
    have heq := Except.ok.inj heq
    rw [AgentContainer.mk.injEq] at heq
    obtain ⟨himage, hpolicy, rfl⟩ := heq
    exact ⟨himage.symm, hpolicy.symm, hs'⟩
  · intro ⟨himage, hpolicy, hnone⟩
    refine bind_eq_ok.mpr ⟨s, hnone, ?_⟩
    rw [himage, hpolicy]

/-- **Restart.**  The container of the next pod is the one that the original
configuration gives if and only if that configuration has no image, no pull
policy and no security context but an implied one. -/
theorem restart_preserves_injection_iff [DecidableEq ρ] (k : Kubernetes ρ) (codec : Codec ρ δ)
    (env : Env ρ) (order : GoMap.Order WorkloadKey (List (PodObject δ))) (cluster : Cluster δ)
    (x : ConfigWatcher ρ × Evictions δ) (sc : Sidecar ρ) (req : Request ρ) (a : Admission ρ)
    (c : AgentContainer ρ)
    (hregenerated : regenerateAgentMaps codec env order {} cluster = (x, .ok ()))
    (hpods : InjectedFrom codec cluster sc) (hwanted : Wanted env req a sc)
    (hc : agentContainer k (env.template a) sc = .ok c) :
    (inject k env false x.1 req).2 = .ok (some c) ↔
      sc.agentImage = "" ∧ sc.pullPolicy = "" ∧
        SecurityContextImplied k (env.template a) sc := by
  have hmanual : sc.stripped.manual = false := by
    rw [Sidecar.stripped_eq]
    exact hwanted.manual
  rw [inject_of_wanted hwanted (get_regenerateAgentMaps hpods hregenerated) hmanual,
    map_eq_ok, ← agentContainer_stripped_iff hc]
  constructor
  · intro ⟨c', hc', heq⟩
    cases heq
    exact hc'
  · intro hstripped
    exact ⟨c, hstripped, rfl⟩

/-! ## One pod -/

/-- Annotations that hold the configurations themselves. -/
def plainCodec : Codec Unit (Sidecar Unit) where
  encode := id
  unmarshalJSON := .ok
  unmarshalJSON_encode := fun _ => rfl

/-- An environment in which nothing is generated. -/
def echoEnv : Env Unit where
  generate := fun wl _ => .error ("no configuration for " ++ wl.name)
  agentImage := "tel2:2.20.0"

/-- The cluster with one pod that was injected from the configuration. -/
def clusterOf (sc : Sidecar Unit) : Cluster (Sidecar Unit) :=
  [("default", .ok [⟨true, .ok ⟨"echo", "default", "Deployment"⟩,
    some (plainCodec.marshalTight sc)⟩])]

/-- The next pod of the workload. -/
def nextPod : Admission Unit := ⟨"enabled", some ⟨"echo", "default", "Deployment"⟩, echoPod, echoPod⟩

theorem injectedFrom_clusterOf (sc : Sidecar Unit) :
    InjectedFrom plainCodec (clusterOf sc) sc := by
  constructor
  · exact ⟨_, _, mem_singleton_self _, _, mem_singleton_self _, ⟨rfl, _, rfl⟩, rfl⟩
  · intro ns pods hmem pod hpod _ d t hd _ _ _
    cases mem_singleton.mp hmem
    rw [mem_singleton.mp hpod] at hd
    exact (Option.some.inj hd).symm

theorem wanted_nextPod (sc : Sidecar Unit) (hname : sc.agentName = "echo")
    (hns : sc.ns = "default") (hmanual : sc.manual = false) :
    Wanted echoEnv { pod := .ok nextPod } nextPod sc where
  isDelete := rfl
  pod := rfl
  inject := .inl rfl
  agentImage := by decide
  owner := ⟨"Deployment", by rw [hname, hns]; rfl⟩
  manual := hmanual

/-- A configuration without an image, and with a security context that says
which group the agent has anyway. -/
def bareEcho : Sidecar Unit :=
  { echo with agentImage := "", pullPolicy := "", securityContext := some ⟨some 7439, ()⟩ }

/-- What the manager has after it has seen the pod. -/
def restarted (sc : Sidecar Unit) : ConfigWatcher Unit × Evictions (Sidecar Unit) :=
  (regenerateAgentMaps plainCodec echoEnv .entries {} (clusterOf sc)).1

theorem restart_preserves_bare_injection :
    (inject groupsOnly echoEnv false (restarted bareEcho).1 { pod := .ok nextPod }).2 =
      .ok (some ⟨"", "", ⟨some 7439, ()⟩⟩) := by
  refine (restart_preserves_injection_iff groupsOnly plainCodec echoEnv .entries
    (clusterOf bareEcho) (restarted bareEcho) bareEcho { pod := .ok nextPod } nextPod
    ⟨"", "", ⟨some 7439, ()⟩⟩ rfl (injectedFrom_clusterOf bareEcho)
    (wanted_nextPod bareEcho rfl rfl rfl) rfl).mpr ⟨rfl, rfl, ?_⟩
  intro configured hconfigured
  cases hconfigured
  exact ⟨none, rfl, rfl, .inr rfl⟩

/-- **The image is gone** after a restart. -/
theorem restart_loses_image :
    InjectedFrom plainCodec (clusterOf echo) echo ∧
      (regenerateAgentMaps plainCodec echoEnv .entries {} (clusterOf echo)).2 = .ok () ∧
      agentContainer groupsOnly echoPod echo =
        .ok ⟨"tel2:2.20.0", "IfNotPresent", ⟨some 7439, ()⟩⟩ ∧
      (inject groupsOnly echoEnv false (restarted echo).1 { pod := .ok nextPod }).2 =
        .ok (some ⟨"", "", ⟨some 7439, ()⟩⟩) :=
  ⟨injectedFrom_clusterOf echo, rfl, rfl, rfl⟩

end Telepresence.AgentConfig
