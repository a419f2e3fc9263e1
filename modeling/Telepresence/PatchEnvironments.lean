import Telepresence.PatchSteps

/-!
# The environments of the containers

`addTPEnv` goes through the configured containers and shares one map between
them.  A variable that a container already has is deleted from the map, so the
containers that come later do not get it (`lookup_envFor`).  The edits for a
container are aimed at the position that it has in the pod
(`aimedAt_addTPEnv`), and `right_iff` says what a container must have got.
-/

namespace Telepresence.Injection

open List Option

open AgentMap (IntOrString ReplacePolicy)
open IndexedEdits Runs

variable {ρ : Type}

/-! ## The environments -/

section Env

theorem lookup_missingEnv (env : GoMap String String) (cn : PodContainer ρ) (n v : String) :
    (missingEnv env cn).lookup n = some v ↔ env.lookup n = some v ∧ ¬ cn.Lists n v := by
  rw [missingEnv, PodContainer.Lists]
  induction cn.env.getD [] generalizing env with
  | nil => simp
  | cons e es ih =>
    rw [foldl_cons, ih, mem_cons, not_or, ← and_assoc]
    refine and_congr_left fun _ => ?_
    split
    · rename_i hdelete
      obtain ⟨hfrom, hvalue⟩ := hdelete
      rw [GoMap.lookup_erase_eq]
      by_cases hn : n = e.name
      · subst hn
        rw [if_pos rfl]
        constructor
        · intro h
          cases h
        · intro ⟨hlookup, hne⟩
          rw [hlookup, getD_some] at hvalue
          refine absurd ?_ hne
          rw [hvalue, ← isNone_iff_eq_none.mp hfrom]
      · rw [if_neg hn]
        refine ⟨fun h => ⟨h, ?_⟩, fun h => h.1⟩
        intro heq
        exact hn (congrArg EnvVar.name heq)
    · rename_i hkeep
      refine ⟨fun h => ⟨h, ?_⟩, fun h => h.1⟩
      intro heq
      refine hkeep ?_
      rw [← heq, h]
      exact ⟨rfl, rfl⟩

/-- The variables that are left after some containers. -/
def envAfter (env : GoMap String String) (ms : List (Match ρ)) : GoMap String String :=
  ms.foldl (fun env m => if m.cc.replace = .container then env else missingEnv env m.app) env

theorem lookup_envAfter (env : GoMap String String) (ms : List (Match ρ)) (n v : String) :
    (envAfter env ms).lookup n = some v ↔
      env.lookup n = some v ∧ ∀ m ∈ ms, m.cc.replace ≠ .container → ¬ m.app.Lists n v := by
  induction ms generalizing env with
  | nil => simp [envAfter]
  | cons m ms ih =>
    rw [envAfter, foldl_cons, ← envAfter, ih, forall_mem_cons]
    by_cases hm : m.cc.replace = .container
    · simp [hm]
    · simp [hm, lookup_missingEnv, and_assoc]

theorem tpEnvLoop_append (env : GoMap String String) (ms ms' : List (Match ρ)) :
    tpEnvLoop env (ms ++ ms') = tpEnvLoop env ms ++ tpEnvLoop (envAfter env ms) ms' := by
  induction ms generalizing env with
  | nil => rfl
  | cons m ms ih =>
    rw [cons_append, tpEnvLoop, tpEnvLoop, envAfter, foldl_cons, ← envAfter]
    by_cases hm : m.cc.replace = .container
    · rw [if_pos hm, if_pos hm, if_pos hm, ih]
    · rw [if_neg hm, if_neg hm, if_neg hm, ih, append_assoc]

theorem aimedAt_tpEnvLoop_eq_nil {ms : List (Match ρ)} {j : Nat}
    (h : ∀ m ∈ ms, m.index = j → m.cc.replace = .container) (env : GoMap String String) :
    aimedAt (tpEnvLoop env ms) j = [] := by
  induction ms generalizing env with
  | nil => rfl
  | cons m ms ih =>
    rw [forall_mem_cons] at h
    rw [tpEnvLoop]
    split
    · exact ih h.2 env
    · rename_i hm
      rw [aimedAt_append, aimedAt_map, if_neg fun hj => hm (h.1 hj), ih h.2]
      rfl

variable {config : Sidecar} {pod : Pod ρ}

/-- The variables that are left when it is the turn of a container. -/
def envFor (config : Sidecar) (pod : Pod ρ) (before : List Container) (app : PodContainer ρ) :
    GoMap String String :=
  missingEnv (envAfter config.tpEnv (eachContainer { config with containers := before } pod)) app

theorem Plain.lookup_envFor (h : Plain config pod) (before : List Container)
    (app : PodContainer ρ) (n v : String) :
    (envFor config pod before app).lookup n = some v ↔
      config.tpEnv.lookup n = some v ∧ ¬ app.Lists n v ∧
        ∀ cc ∈ before, cc.replace ≠ .container → ∀ app' ∈ pod.containers,
          app'.name = cc.name → ¬ app'.Lists n v := by
  rw [envFor, lookup_missingEnv, lookup_envAfter, and_assoc, and_comm (b := ¬ app.Lists n v)]
  refine and_congr_right fun _ => and_congr_right fun _ => ?_
  constructor
  · intro hall cc hcc hreplace app' happ' hname
    obtain ⟨i, hi⟩ := getElem?_of_mem happ'
    have hfirst := h.firstNamed_iff.mpr ⟨hi, hname⟩
    exact hall ⟨i, app', cc⟩ (mem_filterMap.mpr ⟨cc, hcc, by rw [hfirst]; rfl⟩) hreplace
  · intro hall m hm hreplace
    obtain ⟨hi, hname, hcc⟩ := index_lt_of_mem_eachContainer hm
    exact hall m.cc hcc hreplace m.app (mem_of_getElem? hi) hname

theorem eachContainer_append (before after : List Container) (pod : Pod ρ)
    (hsplit : config.containers = before ++ after) :
    eachContainer config pod = eachContainer { config with containers := before } pod ++
      eachContainer { config with containers := after } pod := by
  rw [eachContainer, hsplit, filterMap_append]
  rfl

variable {app : PodContainer ρ}

/-- The edits for the container of an entry. -/
theorem Plain.aimedAt_addTPEnv (h : Plain config pod) {before after : List Container}
    {cc : Container} (hsplit : config.containers = before ++ cc :: after)
    (hcc : cc.replace ≠ .container) {i : Nat} (hi : pod.containers[i]? = some app)
    (hname : app.name = cc.name) :
    aimedAt (addTPEnv pod config config.tpEnv) i =
      addContainerTPEnv app (envFor config pod before app) := by
  have hmem : ∀ cc' ∈ before ++ after, cc'.name ≠ cc.name := by
    have hnodup := h.configNames
    rw [hsplit, map_append, map_cons, nodup_middle, nodup_cons,
      ← map_append] at hnodup
    intro cc' hcc' heq
    exact hnodup.1 (heq ▸ mem_map_of_mem hcc')
  have hother : ∀ ccs : List Container, (∀ cc' ∈ ccs, cc' ∈ before ++ after) →
      ∀ m ∈ eachContainer { config with containers := ccs } pod, m.index = i →
        m.cc.replace = .container := by
    intro ccs hsub m hm heq
    obtain ⟨hi', hname', hmcc⟩ := index_lt_of_mem_eachContainer hm
    rw [heq] at hi'
    cases hi.symm.trans hi'
    exact absurd (hname'.symm.trans hname) (hmem m.cc (hsub m.cc hmcc))
  have hcons : eachContainer { config with containers := cc :: after } pod =
      ⟨i, app, cc⟩ :: eachContainer { config with containers := after } pod := by
    rw [eachContainer, filterMap_cons, h.firstNamed_iff.mpr ⟨hi, hname⟩]
    rfl
  rw [addTPEnv, eachContainer_append before (cc :: after) pod hsplit, tpEnvLoop_append,
    aimedAt_append, aimedAt_tpEnvLoop_eq_nil
      (hother before fun cc' hcc' => mem_append_left _ hcc'),
    hcons, tpEnvLoop, if_neg hcc, aimedAt_append, aimedAt_map, if_pos rfl,
    aimedAt_tpEnvLoop_eq_nil (hother after fun cc' hcc' => mem_append_right _ hcc')]
  rw [nil_append, append_nil]
  rfl

/-- There is no entry for the position. -/
theorem Plain.aimedAt_addTPEnv_eq_nil {j : Nat}
    (h : ∀ cc ∈ config.containers, cc.replace ≠ .container → ∀ app,
      pod.containers[j]? = some app → app.name ≠ cc.name) (env : GoMap String String) :
    aimedAt (addTPEnv pod config env) j = [] := by
  refine aimedAt_tpEnvLoop_eq_nil ?_ env
  intro m hm heq
  obtain ⟨hi, hname, hcc⟩ := index_lt_of_mem_eachContainer hm
  by_contra hreplace
  exact h m.cc hcc hreplace m.app (heq ▸ hi) hname

/-! ### What is added -/

theorem mem_addedEnv {env : GoMap String String} {e : EnvVar ρ} :
    e ∈ addedEnv env ↔ env.lookup e.name = some e.value ∧ e.valueFrom = none := by
  rw [addedEnv, List.mem_map]
  constructor
  · intro ⟨k, hk, heq⟩
    rw [List.mem_mergeSort, GoMap.mem_keys_iff_isSome] at hk
    obtain ⟨v, hv⟩ := Option.isSome_iff_exists.mp hk
    subst heq
    simp [hv]
  · intro ⟨hlookup, hfrom⟩
    refine ⟨e.name, ?_, ?_⟩
    · rw [List.mem_mergeSort]
      exact GoMap.mem_keys_of_lookup hlookup
    · rw [hlookup, Option.getD_some, ← hfrom]

theorem addedEnv_of_keys {env : GoMap String String} (h : env.keys.isEmpty = true) :
    (addedEnv env : List (EnvVar ρ)) = [] := by
  rw [addedEnv, isEmpty_iff.mp h, mergeSort_nil, map_nil]

variable {cn : PodContainer ρ}

theorem run_addEnv {env : List (EnvVar ρ)} (h : cn.env = some env) (es : List (EnvVar ρ)) :
    run Edit.apply cn (es.map .addEnv) = some { cn with env := some (env ++ es) } := by
  obtain ⟨name, ports, _, probes, rest⟩ := cn
  cases h
  exact run_appends (P := fun l => PodContainer.mk name ports (some l) probes rest) (fun _ _ => rfl) ..

/-- Variables are added to a container with the environment of the one that
the edits were computed for. -/
theorem run_addContainerTPEnv (h : cn.env = app.env) (env : GoMap String String) :
    ∃ cn', run Edit.apply cn (addContainerTPEnv app env) = some cn' ∧
      { cn' with env := cn.env } = cn ∧ cn'.env.getD [] = cn.env.getD [] ++ addedEnv env := by
  rw [addContainerTPEnv]
  split
  · rename_i hempty
    refine ⟨cn, rfl, rfl, ?_⟩
    rw [addedEnv_of_keys hempty, append_nil]
  · cases henv : app.env with
    | none =>
      rw [henv] at h
      refine ⟨{ cn with env := some ([] ++ addedEnv env) }, ?_, ?_, ?_⟩
      · simp only [isNone_none, if_true, singleton_append, run, Edit.apply,
          bind_some]
        exact run_addEnv rfl _
      · rfl
      · rw [h]
        rfl
    | some l =>
      rw [henv] at h
      refine ⟨{ cn with env := some (l ++ addedEnv env) }, ?_, rfl, ?_⟩
      · exact run_addEnv h _
      · rw [h]
        rfl

/-! ### What a container gives -/

theorem Gives.lists {n v : String} (h : Gives cn.env n v) : cn.Lists n v :=
  mem_reverse.mp (mem_of_find?_eq_some h)

variable {m : GoMap String String}

theorem gives_append_iff {env env' : Option (List (EnvVar ρ))}
    (henv : env'.getD [] = env.getD [] ++ addedEnv m) {n v : String}
    (hm : ∀ v', m.lookup n = some v' → v' = v) :
    Gives env' n v ↔ Gives env n v ∨ m.lookup n = some v := by
  rw [Gives, henv, reverse_append, find?_append]
  cases hlookup : m.lookup n with
  | none =>
    have hfind : (addedEnv m : List (EnvVar ρ)).reverse.find? (fun e => e.name = n) = none := by
      rw [find?_eq_none]
      intro e he
      have := (mem_addedEnv.mp (mem_reverse.mp he)).1
      simp only [decide_eq_true_eq]
      intro hn
      rw [hn, hlookup] at this
      cases this
    rw [hfind, none_or, ← Gives]
    simp
  | some v' =>
    obtain rfl := hm v' hlookup
    have hmem : (⟨n, v', none⟩ : EnvVar ρ) ∈ addedEnv m := mem_addedEnv.mpr ⟨hlookup, rfl⟩
    -- the last one with the name is one of the added ones, and they have the value
    have hfind : (addedEnv m : List (EnvVar ρ)).reverse.find? (fun e => e.name = n) =
        some ⟨n, v', none⟩ := by
      cases hfind : (addedEnv m : List (EnvVar ρ)).reverse.find? (fun e => e.name = n) with
      | none =>
        rw [find?_eq_none] at hfind
        exact absurd (decide_eq_true rfl) (hfind _ (mem_reverse.mpr hmem))
      | some e =>
        have hn : e.name = n := by simpa using find?_some hfind
        obtain ⟨hlookup', hfrom⟩ :=
          mem_addedEnv.mp (mem_reverse.mp (mem_of_find?_eq_some hfind))
        rw [hn, hlookup] at hlookup'
        cases hlookup'
        rw [← hn, ← hfrom]
    rw [hfind]
    simp

theorem otherEnv_append {env env' : Option (List (EnvVar ρ))}
    (henv : env'.getD [] = env.getD [] ++ addedEnv m)
    (hm : ∀ n v, m.lookup n = some v → config.tpEnv.lookup n = some v) :
    config.otherEnv env' = config.otherEnv env := by
  have hnil : (addedEnv m : List (EnvVar ρ)).filter
      (fun e => (config.tpEnv.lookup e.name).isNone) = [] := by
    refine filter_eq_nil_iff.mpr fun e he => ?_
    rw [hm _ _ (mem_addedEnv.mp he).1]
    simp
  rw [Sidecar.otherEnv, henv, filter_append, hnil, append_nil]
  rfl

theorem PodContainer.renamed_eq_hide_iff (names : List String) (cn : PodContainer ρ) :
    cn.renamed names = cn.hide names ↔
      ("" ∈ names → ∀ k n, cn.probePort k ≠ some (.int n)) := by
  have hiff : cn.renamed names = cn.hide names ↔
      ∀ k, (cn.renamed names).probePort k = (cn.hide names).probePort k := by
    constructor
    · intro h k
      rw [h]
    · intro h
      rw [renamed, hide]
      congr 1
      funext k
      exact h k
  rw [hiff]
  constructor
  · intro h hempty k n hk
    have := h k
    simp [renamed, hide, hk, strVal, hempty, renamedRef] at this
  · intro h k
    cases hk : cn.probePort k with
    | none => simp [renamed, hide, hk]
    | some p =>
      cases p with
      | int n =>
        have hempty : "" ∉ names := fun hempty => h hempty k n hk
        simp [renamed, hide, hk, strVal, hempty, renamedRef]
      | string s =>
        by_cases hs : s ∈ names
        all_goals simp [renamed, hide, hk, strVal, renamedRef, hs]

/-- A container with its ports renamed and variables from `m` added to it. -/
theorem right_iff {cn' : PodContainer ρ}
    (hsame : { cn' with env := cn.env } = cn.renamed (config.hiddenPorts cn.name))
    (henv : cn'.env.getD [] = cn.env.getD [] ++ addedEnv m)
    (hm : ∀ n v, m.lookup n = some v → config.tpEnv.lookup n = some v) :
    Right config cn cn' ↔
      ("" ∈ config.hiddenPorts cn.name → ∀ k n, cn.probePort k ≠ some (.int n)) ∧
        (config.Configures cn.name → ∀ n v, config.tpEnv.lookup n = some v →
          Gives cn.env n v ∨ m.lookup n = some v) := by
  have hgives : ∀ n v, config.tpEnv.lookup n = some v →
      (Gives cn'.env n v ↔ Gives cn.env n v ∨ m.lookup n = some v) := by
    intro n v hv
    refine gives_append_iff henv fun v' hv' => ?_
    exact some.inj ((hm n v' hv').symm.trans hv)
  rw [← PodContainer.renamed_eq_hide_iff]
  constructor
  · intro h
    refine ⟨hsame.symm.trans h.same, fun hc n v hv => ?_⟩
    exact (hgives n v hv).mp (h.api hc n v hv)
  · intro ⟨hhide, hapi⟩
    refine ⟨hsame.trans hhide, otherEnv_append henv hm, fun hc n v hv => ?_⟩
    exact (hgives n v hv).mpr (hapi hc n v hv)

theorem addContainerTPEnv_eq_nil (h : ∀ n v, m.lookup n ≠ some v) (app : PodContainer ρ) :
    addContainerTPEnv app m = [] := by
  refine if_pos ?_
  rw [List.isEmpty_iff, List.eq_nil_iff_forall_not_mem]
  intro n hn
  obtain ⟨v, hv⟩ := Option.isSome_iff_exists.mp (GoMap.mem_keys_iff_isSome.mp hn)
  exact h n v hv

theorem tpEnvLoop_eq_nil {env : GoMap String String} (h : ∀ n v, env.lookup n ≠ some v)
    (ms : List (Match ρ)) : tpEnvLoop env ms = [] := by
  induction ms generalizing env with
  | nil => rfl
  | cons m ms ih =>
    have hmissing : ∀ n v, (missingEnv env m.app).lookup n ≠ some v := by
      intro n v hv
      exact h n v ((lookup_missingEnv env m.app n v).mp hv).1
    rw [tpEnvLoop]
    split
    · exact ih h
    · rw [addContainerTPEnv_eq_nil hmissing, ih hmissing]
      rfl

/-- Without an API server there is nothing to add. -/
theorem edits_addTPEnv (pod : Pod ρ) (config : Sidecar) :
    (if config.apiPort ≠ 0 then edits (addTPEnv pod config config.tpEnv) else []) =
      (edits (addTPEnv pod config config.tpEnv) : List (Op (PodContainer ρ) (Edit ρ))) := by
  split
  · rfl
  · rename_i hport
    have hempty : ∀ n v, config.tpEnv.lookup n ≠ some v := by
      intro n v
      rw [Sidecar.tpEnv, if_neg hport, AList.lookup_empty]
      simp
    rw [addTPEnv, tpEnvLoop_eq_nil hempty]
    rfl

/-- An edit of the environment. -/
def Edit.OnEnv : Edit ρ → Prop
  | .clearEnv | .addEnv _ => True
  | .portName .. | .probePort .. => False

theorem onEnv_of_mem_addContainerTPEnv {e : Edit ρ} (he : e ∈ addContainerTPEnv app m) :
    e.OnEnv := by
  rw [addContainerTPEnv] at he
  split at he
  · cases he
  · rcases mem_append.mp he with he | he
    · split at he
      · rw [mem_singleton.mp he]
        trivial
      · cases he
    · obtain ⟨x, _, rfl⟩ := mem_map.mp he
      trivial

/-- Such edits keep the rest of the container. -/
theorem same_of_onEnv {es : List (Edit ρ)} (hes : ∀ e ∈ es, e.OnEnv) {cn' : PodContainer ρ}
    (h : run Edit.apply cn es = some cn') : { cn' with env := cn.env } = cn := by
  induction es generalizing cn with
  | nil =>
    cases h
    rfl
  | cons e es ih =>
    rw [forall_mem_cons] at hes
    obtain ⟨cn₁, hstep, hrest⟩ := bind_eq_some_iff.mp h
    have hfirst : ∃ env, cn₁ = { cn with env := env } := by
      cases e with
      | portName | probePort => exact absurd hes.1 id
      | clearEnv =>
        cases hstep
        exact ⟨_, rfl⟩
      | addEnv x =>
        obtain ⟨l, _, rfl⟩ := map_eq_some_iff.mp hstep
        exact ⟨_, rfl⟩
    obtain ⟨env, rfl⟩ := hfirst
    have := congrArg (fun c : PodContainer ρ => { c with env := cn.env }) (ih hes.2 hrest)
    exact this

end Env

end Telepresence.Injection
