import Telepresence.Lib.Runs
import Telepresence.SidecarGenerator
import Telepresence.StoredConfigs

/-!
# Whose configuration is it

The configurations that `configWatcher` of the mutator holds are stored by
namespace and name, while a workload also has a kind.  `Store`, `Update`,
`Delete` and `GetOrGenerate` are called from many goroutines; each of them
locks the map of the namespace for one `Compute`, and `GetOrGenerate` generates
between two of them.

* `key_generate`: `Generate` makes a configuration for its workload.
* `config_belongs`: as long as no two kinds share a name and a namespace, every
  configuration that is handed out for a workload is the one of that workload;
  any two workloads that differ in their kind only are confused.
-/

namespace Telepresence.Mutator

open AgentMap Runs

/-! ## Store and Update -/

/-- `Store`. -/
def Configs.store (c : Configs Sidecar) (sc : Sidecar) : Configs Sidecar :=
  c.put sc.agentName sc.ns sc

/-- The function that is given to `Update`: from the configuration that is
there, to the one that replaces it; `none` is nil. -/
abbrev Configs.Updater := Option Sidecar → Except String (Option Sidecar)

/-- `Update`.  What it returns is what the function returned. -/
def Configs.update (c : Configs Sidecar) (name ns : String) (updater : Updater) :
    Configs Sidecar × Except String (Option Sidecar) :=
  let r := updater (c.get name ns)
  (c.assign name ns r, r)

open Configs

/-! ## The operations -/

/-- The configurations, the `GetOrGenerate` calls that have found none and are
generating one, and what has been handed out for which workload. -/
structure Watcher where
  agentConfigs : Configs Sidecar := ∅
  generating : List Workload := []
  returned : List (Workload × Sidecar) := []

/-- The operations, each as one `Compute`.  `get` is the call in `Inject`;
`getOrGenerate` is the first part of such a call and `generated` the second
one, which ends the call with the given index. -/
inductive Action where
  | store (sc : Sidecar)
  | update (name ns : String) (updater : Configs.Updater)
  | delete (name ns : String)
  | evictAll (ns : String)
  | get (wl : Workload)
  | getOrGenerate (wl : Workload)
  | generated (i : Nat) (gc : Except String GeneratorConfig) (cluster : Cluster)

namespace Watcher

/-- A configuration is handed out for a workload. -/
def return_ (w : Watcher) (wl : Workload) (sc : Sidecar) : Watcher :=
  { w with returned := w.returned ++ [(wl, sc)] }

/-- The second part of `GetOrGenerate`, for the workload of the call and what
the generator says. -/
def finish (w : Watcher) (wl : Workload) : Except Failure Sidecar → Watcher
  | .error _ => w
  | .ok ac =>
      let (agentConfigs, sc) := w.agentConfigs.computeGenerated wl.name wl.ns ac
      { w with agentConfigs }.return_ wl sc

/-- One operation. -/
def step (w : Watcher) : Action → Option Watcher
  | .store sc => some { w with agentConfigs := w.agentConfigs.store sc }
  | .update name ns updater =>
      some { w with agentConfigs := (w.agentConfigs.update name ns updater).1 }
  | .delete name ns => some { w with agentConfigs := w.agentConfigs.delete name ns }
  | .evictAll ns => some { w with agentConfigs := w.agentConfigs.erase ns }
  | .get wl =>
      match w.agentConfigs.get wl.name wl.ns with
      | some sc => some (w.return_ wl sc)
      | none => some w
  | .getOrGenerate wl =>
      match w.agentConfigs.get wl.name wl.ns with
      | some ac => some (w.return_ wl ac)
      | none => some { w with generating := w.generating ++ [wl] }
  | .generated i gc cluster =>
      match w.generating[i]? with
      | none => none
      | some wl =>
          let w := { w with generating := w.generating.eraseIdx i }
          match gc with
          | .error _ => some w
          | .ok gc => some (w.finish wl (generate gc cluster wl none))

end Watcher

/-! ## Who owns a configuration -/

/-- The configuration is one of the workload. -/
structure BelongsTo (sc : Sidecar) (wl : Workload) : Prop where
  workloadName : sc.workloadName = wl.name
  namespace_ : sc.ns = wl.ns
  workloadKind : sc.workloadKind = wl.kind

/-- Everything handed out for a workload is a configuration of that workload. -/
def Watcher.Belong (w : Watcher) : Prop := ∀ p ∈ w.returned, BelongsTo p.2 p.1

/-- `Generate` makes the configuration of its workload. -/
theorem key_generate {cfg : GeneratorConfig} {cluster : Cluster} {wl : Workload}
    {existingConfig : Option Sidecar} {sc : Sidecar}
    (h : generate cfg cluster wl existingConfig = .ok sc) :
    sc.agentName = wl.name ∧ BelongsTo sc wl := by
  rw [generate] at h
  split at h
  · cases h
  · split at h
    · cases h
    · obtain ⟨_, _, h⟩ := Results.bind_eq_ok.mp h
      obtain ⟨_, _, h⟩ := Results.bind_eq_ok.mp h
      obtain ⟨_, _, h⟩ := Results.bind_eq_ok.mp h
      obtain ⟨_, _, h⟩ := Results.bind_eq_ok.mp h
      obtain ⟨_, _, h⟩ := Results.bind_eq_ok.mp h
      cases h
      exact ⟨rfl, rfl, rfl, rfl⟩

section Kinds

variable (kindOf : String → String → String)

/-- The configuration is one of the only workload with that name and
namespace. -/
structure OwnedBy (name ns : String) (sc : Sidecar) : Prop where
  workloadName : sc.workloadName = name
  namespace_ : sc.ns = ns
  workloadKind : sc.workloadKind = kindOf name ns

/-- The operation is about workloads whose kind is given by their name and
namespace.  What is stored has the name of its workload, and the function of
an `Update` turns configurations of a workload, or nil, into one of them. -/
def Action.Respects : Action → Prop
  | .store sc => sc.agentName = sc.workloadName ∧ sc.workloadKind = kindOf sc.workloadName sc.ns
  | .update name ns updater => ∀ old new, (∀ sc, old = some sc → OwnedBy kindOf name ns sc) →
      updater old = .ok (some new) → OwnedBy kindOf name ns new
  | .delete _ _ | .evictAll _ | .generated _ _ _ => True
  | .get wl | .getOrGenerate wl => wl.kind = kindOf wl.name wl.ns

/-- What is stored under a name belongs to the workload with that name, what is
being generated is for one of these workloads, and what was handed out
belongs. -/
structure Watcher.Inv (w : Watcher) : Prop where
  owned : ∀ {key ns sc}, w.agentConfigs.get key ns = some sc → OwnedBy kindOf key ns sc
  generating : ∀ wl ∈ w.generating, wl.kind = kindOf wl.name wl.ns
  returned : w.Belong

variable {kindOf}

theorem OwnedBy.belongsTo {wl : Workload} {sc : Sidecar} (h : OwnedBy kindOf wl.name wl.ns sc)
    (hkind : wl.kind = kindOf wl.name wl.ns) : BelongsTo sc wl :=
  ⟨h.workloadName, h.namespace_, h.workloadKind.trans hkind.symm⟩

theorem Watcher.Inv.return_ {w : Watcher} (h : w.Inv kindOf) {wl : Workload} {sc : Sidecar}
    (hsc : BelongsTo sc wl) : (w.return_ wl sc).Inv kindOf := by
  exact ⟨h.owned, h.generating, Runs.forall_mem_concat.mpr ⟨h.returned, hsc⟩⟩

/-- Other configurations, all of which are owned. -/
theorem Watcher.Inv.withConfigs {w : Watcher} (h : w.Inv kindOf) {c : Configs Sidecar}
    (hc : ∀ {key ns sc}, c.get key ns = some sc → OwnedBy kindOf key ns sc) :
    ({ w with agentConfigs := c } : Watcher).Inv kindOf :=
  ⟨hc, h.generating, h.returned⟩

/-- **The second part of `GetOrGenerate`.**  What it finds is owned, and what
it generates is too. -/
theorem Watcher.Inv.finish {w : Watcher} (h : w.Inv kindOf) {wl : Workload}
    (hkind : wl.kind = kindOf wl.name wl.ns) (gc : GeneratorConfig) (cluster : Cluster) :
    (w.finish wl (generate gc cluster wl none)).Inv kindOf := by
  cases hgen : generate gc cluster wl none with
  | error e => exact h
  | ok ac =>
    have hac : BelongsTo ac wl := (key_generate hgen).2
    have howned : OwnedBy kindOf wl.name wl.ns ac :=
      ⟨hac.workloadName, hac.namespace_, hac.workloadKind.trans hkind⟩
    unfold Watcher.finish computeGenerated
    cases hget : w.agentConfigs.get wl.name wl.ns with
    | some existing => exact h.return_ ((h.owned hget).belongsTo hkind)
    | none =>
      refine (h.withConfigs ?_).return_ hac
      intro key ns sc hsc
      rcases get_of_put hsc with ⟨rfl, rfl, rfl⟩ | hold
      · exact howned
      · exact h.owned hold

/-- One operation keeps the owners. -/
theorem Watcher.Inv.step {w w' : Watcher} (h : w.Inv kindOf) {a : Action}
    (ha : a.Respects kindOf) (hstep : w.step a = some w') : w'.Inv kindOf := by
  cases a with
  | store sc =>
    cases hstep
    refine h.withConfigs ?_
    intro key ns t ht
    rcases get_of_put ht with ⟨hkey, hns, rfl⟩ | hold
    · rw [hkey, hns, ha.1]
      exact ⟨rfl, rfl, ha.2⟩
    · exact h.owned hold
  | update name ns updater =>
    cases hstep
    refine h.withConfigs ?_
    intro key ns' t ht
    rcases get_of_assign ht with ⟨rfl, rfl, hupdated⟩ | hold
    · exact ha _ t (fun sc hsc => h.owned hsc) hupdated
    · exact h.owned hold
  | delete name ns =>
    cases hstep
    exact h.withConfigs fun ht => h.owned (get_of_delete ht)
  | evictAll ns =>
    cases hstep
    exact h.withConfigs fun ht => h.owned (get_of_erase ht)
  | get wl =>
    simp only [Watcher.step] at hstep
    split at hstep
    · rename_i sc hsc
      cases hstep
      exact h.return_ ((h.owned hsc).belongsTo ha)
    · cases hstep
      exact h
  | getOrGenerate wl =>
    simp only [Watcher.step] at hstep
    split at hstep
    · rename_i sc hsc
      cases hstep
      exact h.return_ ((h.owned hsc).belongsTo ha)
    · cases hstep
      refine ⟨h.owned, ?_, h.returned⟩
      intro wl' hwl'
      rcases List.mem_append.mp hwl' with hwl' | hwl'
      · exact h.generating wl' hwl'
      · rw [List.mem_singleton.mp hwl']
        exact ha
  | generated i gc cluster =>
    simp only [Watcher.step] at hstep
    split at hstep
    · cases hstep
    · rename_i wl hwl
      have hrest : ({ w with generating := w.generating.eraseIdx i } : Watcher).Inv kindOf :=
        ⟨h.owned, fun wl' hwl' => h.generating wl' (List.mem_of_mem_eraseIdx hwl'), h.returned⟩
      split at hstep
      · cases hstep
        exact hrest
      · cases hstep
        exact hrest.finish (h.generating wl (List.mem_of_getElem? hwl)) _ cluster

end Kinds

/-- The configuration that is there is handed out, whoever asks. -/
theorem Watcher.step_getOrGenerate {w : Watcher} {wl : Workload} {ac : Sidecar}
    (h : w.agentConfigs.get wl.name wl.ns = some ac) :
    w.step (.getOrGenerate wl) = some (w.return_ wl ac) := by
  simp only [Watcher.step, h]

/-- Two workloads of different kinds that share their name and namespace: the
second one gets the configuration that was generated for the first. -/
theorem kinds_confused {wl wl' : Workload} {gc : GeneratorConfig} {cluster : Cluster}
    {sc : Sidecar} (hname : wl.name = wl'.name) (hns : wl.ns = wl'.ns) (hkind : wl.kind ≠ wl'.kind)
    (hgen : generate gc cluster wl none = .ok sc) :
    ¬ Always Watcher.step Watcher.Belong {}
      [.getOrGenerate wl, .generated 0 (.ok gc) cluster, .getOrGenerate wl'] := by
  intro halways
  have hfound : (Configs.computeGenerated ∅ wl.name wl.ns sc).1.get wl'.name wl'.ns =
      some sc := by
    rw [← hname, ← hns]
    exact (get_put _ _ _ _ _ _).trans (if_pos ⟨rfl, rfl⟩)
  obtain ⟨_, hbegun⟩ := halways
  obtain ⟨_, hgenerated⟩ := hbegun _ rfl
  have hstored := hgenerated _ rfl
  rw [hgen] at hstored
  have hbelong := hstored.2 _ (Watcher.step_getOrGenerate hfound)
  have hlast := hbelong (wl', sc) (List.mem_append_right _ (List.mem_singleton.mpr rfl))
  exact hkind ((key_generate hgen).2.workloadKind.symm.trans hlast.workloadKind)

/-- **A configuration belongs to its workload**, in every run over workloads
whose name and namespace tell their kind.  Two workloads that share both and
have different kinds are enough for a run in which one of them gets the
configuration of the other. -/
theorem config_belongs (kindOf : String → String → String) (as : List Action) :
    (Meets Watcher.step (fun _ a => a.Respects kindOf) {} as →
      Always Watcher.step Watcher.Belong {} as) ∧
    ∀ (wl wl' : Workload) (gc : GeneratorConfig) (cluster : Cluster) (sc : Sidecar),
      wl.name = wl'.name → wl.ns = wl'.ns → wl.kind ≠ wl'.kind →
        generate gc cluster wl none = .ok sc →
          ¬ Always Watcher.step Watcher.Belong {}
            [.getOrGenerate wl, .generated 0 (.ok gc) cluster, .getOrGenerate wl'] := by
  refine ⟨?_, ?_⟩
  · intro hmeets
    have hinit : Watcher.Inv kindOf {} := ⟨nofun, nofun, nofun⟩
    refine always_of_meets ?_ ?_ hinit hmeets
    · intro w h
      exact h.returned
    · intro w a w' h ha hstep
      exact h.step ha hstep
  · intro wl wl' gc cluster sc hname hns hkind hgen
    exact kinds_confused hname hns hkind hgen

/-! ## Two workloads with one name -/

/-- A workload `web` of some kind. -/
def web (kind : String) : Workload where
  kind
  name := "web"
  ns := "default"
  containers := [{ name := "app" }]

/-- A cluster without services. -/
def noServices : Cluster where
  findServicesForPod := fun _ _ => .ok []
  addMountPolicies := fun _ => .ok ()

/-- A configuration of the generator. -/
def tel2 : GeneratorConfig := ⟨9900, "tel2:2.20.0"⟩

/-- The configuration that is generated for it. -/
def webConfig (kind : String) : Sidecar where
  agentImage := "tel2:2.20.0"
  agentName := "web"
  ns := "default"
  workloadName := "web"
  workloadKind := kind
  containers := [⟨"app", [], .intercept⟩]

/-- The update that `getOrCreateAgentConfig` makes for a Deployment. -/
def setImage : Configs.Updater
  | some sc => .ok (some { sc with agentImage := "tel2:2.21.0" })
  | none => .ok (some (webConfig "Deployment"))

/-- A Deployment whose configuration is generated, updated, read, deleted and
stored again. -/
theorem config_belongs_web :
    Always Watcher.step Watcher.Belong {}
      [.getOrGenerate (web "Deployment"), .generated 0 (.ok tel2) noServices,
        .update "web" "default" setImage, .get (web "Deployment"), .delete "web" "default",
        .store (webConfig "Deployment"), .getOrGenerate (web "Deployment")] ∧
      ¬ Always Watcher.step Watcher.Belong {}
        [.getOrGenerate (web "Deployment"), .generated 0 (.ok tel2) noServices,
          .getOrGenerate (web "StatefulSet")] := by
  refine ⟨?_, ?_⟩
  · refine (config_belongs (fun _ _ => "Deployment") _).1 (meets_of_forall ?_ _)
    intro a ha
    simp only [List.mem_cons, List.not_mem_nil, or_false] at ha
    rcases ha with rfl | rfl | rfl | rfl | rfl | rfl | rfl
    · rfl
    · trivial
    · intro old new hold hnew
      cases old with
      | none =>
        cases hnew
        exact ⟨rfl, rfl, rfl⟩
      | some sc =>
        cases hnew
        have howned := hold sc rfl
        exact ⟨howned.workloadName, howned.namespace_, howned.workloadKind⟩
    · rfl
    · trivial
    · exact ⟨rfl, rfl⟩
    · rfl
  · exact (config_belongs (fun _ _ => "Deployment") []).2 _ _ tel2 noServices
      (webConfig "Deployment") rfl rfl (by decide) (by decide +kernel)

/-- The StatefulSet gets the configuration of the Deployment. -/
theorem statefulSet_gets_deployment :
    ¬ Always Watcher.step Watcher.Belong {}
      [.getOrGenerate (web "Deployment"), .generated 0 (.ok tel2) noServices,
        .getOrGenerate (web "StatefulSet")] := by
  have hgen : generate tel2 noServices (web "Deployment") none = .ok (webConfig "Deployment") := by
    decide +kernel
  exact kinds_confused rfl rfl (by decide) hgen

end Telepresence.Mutator
