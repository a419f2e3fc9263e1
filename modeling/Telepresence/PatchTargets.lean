import Telepresence.PatchEnvironments

/-!
# Which containers the patch hits

The last step of the patch adds variables at the positions that the containers
have in the pod, although containers have been removed.

* A container with one removed before it has moved, and the edits for it hit
  another container or none at all.  What is aimed at the position where it is
  now was meant for a container that has moved as well, so it gets nothing
  (`gives_of_moved`).
* The other containers get what is left in the shared map.
* `patch_hits_iff`: when neither matters, and no port without a name is
  hidden next to a numeric probe.
-/

namespace Telepresence.Injection

open List Option Edit PodContainer

open AgentMap (ContainerPort IntOrString ReplacePolicy containerName)
open IndexedEdits Runs

variable {ρ : Type}

/-! ## The positions after the removals -/

section Positions

variable {config : Sidecar} {pod : Pod ρ} {cns : List (PodContainer ρ)}

/-- The container stays. -/
def Sidecar.keeps (config : Sidecar) (cn : PodContainer ρ) : Bool := !config.replaces cn.name

/-- The edits that add the variables, by position. -/
def envEdits (config : Sidecar) (pod : Pod ρ) (j : Nat) : List (Edit ρ) :=
  aimedAt (addTPEnv pod config config.tpEnv) j

/-- The edits at `j` are for the container of the entry that comes after
`before` in the configuration. -/
structure EntryAt (config : Sidecar) (pod : Pod ρ) (j : Nat) (before : List Container)
    (app : PodContainer ρ) : Prop where
  entry : ∃ cc after, config.containers = before ++ cc :: after ∧ cc.replace ≠ .container ∧
    app.name = cc.name
  position : pod.containers[j]? = some app

variable {j : Nat} {app : PodContainer ρ}

theorem EntryAt.of_mem {cc : Container} (hcc : cc ∈ config.containers)
    (hreplace : cc.replace ≠ .container) (hj : pod.containers[j]? = some app)
    (hname : app.name = cc.name) : ∃ before, EntryAt config pod j before app := by
  obtain ⟨before, after, hsplit⟩ := append_of_mem hcc
  exact ⟨before, ⟨cc, after, hsplit, hreplace, hname⟩, hj⟩

variable {before : List Container}

theorem Plain.envEdits_of_entryAt (h : Plain config pod) (he : EntryAt config pod j before app) :
    envEdits config pod j = addContainerTPEnv app (envFor config pod before app) := by
  obtain ⟨cc, after, hsplit, hreplace, hname⟩ := he.entry
  exact h.aimedAt_addTPEnv hsplit hreplace he.position hname

theorem envEdits_eq_nil (h : ¬ ∃ before app, EntryAt config pod j before app) :
    envEdits config pod j = [] := by
  refine Plain.aimedAt_addTPEnv_eq_nil ?_ config.tpEnv
  intro cc hcc hreplace app hj hname
  obtain ⟨before, he⟩ := EntryAt.of_mem hcc hreplace hj hname
  exact h ⟨before, app, he⟩

section

variable (h : Plain config pod) (hcns : WithAgent pod cns)

include h hcns

/-- The container of an entry stays where it is, next to that of the agent. -/
theorem Plain.entryAt_stays (he : EntryAt config pod j before app) :
    app.isApp = true ∧ cns[j]? = some app ∧ config.keeps app = true ∧
      config.Configures app.name := by
  obtain ⟨cc, after, hsplit, hreplace, hname⟩ := he.entry
  have hcc : cc ∈ config.containers := by
    rw [hsplit]
    exact mem_append_right _ mem_cons_self
  have hne : app.name ≠ containerName := hname ▸ h.name_ne hcc
  refine ⟨by simpa [isApp] using hne, (hcns.app j app hne).mpr he.position, ?_,
    ⟨cc, hcc, hname.symm⟩⟩
  have : config.replaces cc.name ≠ true := fun hr => hreplace ((h.replaces_iff hcc).mp hr)
  simp [Sidecar.keeps, hname, this]

/-- All before the position stay, in the list with the agent as well. -/
theorem Plain.keeps_of_noneBefore
    (hnone : NoneBefore config pod j) (i : Nat) (hi : i < j) (cn : PodContainer ρ)
    (hcn : cns[i]? = some cn) : config.keeps cn = true := by
  rw [Sidecar.keeps, Bool.not_eq_true']
  by_cases hagent : cn.name = containerName
  · rw [hagent]
    exact h.agent_stays
  · exact hnone i hi cn ((hcns.app i cn hagent).mp hcn)

variable {k : Nat}

/-- A container moves if one before it is removed. -/
theorem Plain.rank_lt (hbefore : ¬ NoneBefore config pod k) : rank config.keeps cns k < k := by
  simp only [NoneBefore, not_forall, Bool.not_eq_false] at hbefore
  obtain ⟨i, hi, cn, hcn, hreplaces⟩ := hbefore
  have hne : cn.name ≠ containerName := by
    intro hagent
    rw [hagent, h.agent_stays] at hreplaces
    cases hreplaces
  exact IndexedEdits.rank_lt hi ((hcns.app i cn hne).mpr hcn) (by simp [Sidecar.keeps, hreplaces])

/-- What has moved does not come to the position of a configured container that
has nothing removed before it. -/
theorem Plain.not_noneBefore
    (hrank : rank config.keeps cns k = j) (hlt : j < k) (he : EntryAt config pod j before app) :
    ¬ NoneBefore config pod j := by
  intro hnone
  obtain ⟨_, hj, hkeep, _⟩ := h.entryAt_stays hcns he
  have := not_keep_of_rank_lt hrank hlt (h.keeps_of_noneBefore hcns hnone) hj
  rw [hkeep] at this
  cases this

theorem Plain.rank_eq {cn : PodContainer ρ}
    (hk : cns[k]? = some cn) (hnone : NoneBefore config pod k) : rank config.keeps cns k = k :=
  rank_eq_self (Nat.le_of_lt (List.getElem?_eq_some_iff.mp hk).1)
    (h.keeps_of_noneBefore hcns hnone)

end

end Positions

/-! ## The condition is enough -/

section Sufficient

variable {config : Sidecar} {pod : Pod ρ} {cns : List (PodContainer ρ)}

section

variable (ha : Aligned config pod) (h : Plain config pod)

include ha h

theorem Aligned.gives_or {j : Nat}
    {before : List Container} {app : PodContainer ρ} (he : EntryAt config pod j before app)
    {n v : String} (hv : config.tpEnv.lookup n = some v) : Gives app.env n v ∨
      NoneBefore config pod j ∧ (envFor config pod before app).lookup n = some v := by
  obtain ⟨cc, after, hsplit, hreplace, hname⟩ := he.entry
  rcases ha.env before cc after hsplit hreplace j app he.position hname n v hv with hgives | hnone
  · exact .inl hgives
  · exact .inr ⟨hnone.1, (h.lookup_envFor before app n v).mpr ⟨hv, hnone.2⟩⟩

/-- Variables are added only to containers with nothing removed before them. -/
theorem Aligned.noneBefore {j : Nat} (hne : envEdits config pod j ≠ []) :
    ∃ before app, EntryAt config pod j before app ∧ NoneBefore config pod j := by
  by_contra hcon
  refine hne ?_
  by_cases hentry : ∃ before app, EntryAt config pod j before app
  · obtain ⟨before, app, he⟩ := hentry
    rw [h.envEdits_of_entryAt he]
    refine addContainerTPEnv_eq_nil (fun n v hv => ?_) app
    obtain ⟨hv', hlists, _⟩ := (h.lookup_envFor before app n v).mp hv
    rcases ha.gives_or h he hv' with hgives | hnone
    · exact hlists hgives.lists
    · exact hcon ⟨before, app, he, hnone.1⟩
  · exact envEdits_eq_nil hentry

/-- The edits that a container gets are its own, and give it what it lacks. -/
theorem Aligned.edits_for
    (hcns : WithAgent pod cns) {k : Nat} {cn : PodContainer ρ} (hk : cns[k]? = some cn)
    (hkeep : config.keeps cn = true) :
    ∃ m, envEdits config pod (rank config.keeps cns k) = addContainerTPEnv cn m ∧
      (∀ n v, m.lookup n = some v → config.tpEnv.lookup n = some v) ∧
      (config.Configures cn.name → ∀ n v, config.tpEnv.lookup n = some v →
        Gives cn.env n v ∨ m.lookup n = some v) := by
  -- a configured container that stays has an entry
  have hentry : config.Configures cn.name → ∃ before, EntryAt config pod k before cn := by
    intro ⟨cc, hcc, hname⟩
    have hne : cn.name ≠ containerName := hname ▸ h.name_ne hcc
    refine EntryAt.of_mem hcc ?_ ((hcns.app k cn hne).mp hk) hname.symm
    intro hreplace
    have := (h.replaces_iff hcc).mpr hreplace
    simp [Sidecar.keeps, ← hname, this] at hkeep
  have hempty : ∀ n v, (∅ : GoMap String String).lookup n = some v →
      config.tpEnv.lookup n = some v := by
    intro n v hv
    cases hv
  rcases Nat.lt_or_eq_of_le (rank_le config.keeps cns k) with hlt | heq
  · -- it has moved: nothing is aimed at where it is now
    have hnil : envEdits config pod (rank config.keeps cns k) = [] := by
      by_contra hne
      obtain ⟨before, app, he, hnone⟩ := ha.noneBefore h hne
      exact h.not_noneBefore hcns rfl hlt he hnone
    refine ⟨∅, hnil, hempty, fun hc n v hv => ?_⟩
    obtain ⟨before, he⟩ := hentry hc
    rcases ha.gives_or h he hv with hgives | hnone
    · exact .inl hgives
    · have := h.rank_eq hcns hk hnone.1
      omega
  · rw [heq]
    by_cases hat : ∃ before app, EntryAt config pod k before app
    · obtain ⟨before, app, he⟩ := hat
      obtain ⟨_, hk', _, _⟩ := h.entryAt_stays hcns he
      obtain rfl : cn = app := some.inj (hk.symm.trans hk')
      refine ⟨envFor config pod before cn, h.envEdits_of_entryAt he, ?_, ?_⟩
      · intro n v hv
        exact ((h.lookup_envFor before cn n v).mp hv).1
      · intro _ n v hv
        exact (ha.gives_or h he hv).imp_right (·.2)
    · refine ⟨∅, envEdits_eq_nil hat, hempty, fun hc => ?_⟩
      obtain ⟨before, he⟩ := hentry hc
      exact absurd ⟨before, cn, he⟩ hat

end

end Sufficient

/-! ## And needed -/

section Necessary

variable {config : Sidecar} {pod : Pod ρ} {cns : List (PodContainer ρ)}

/-- All application containers that stay are right after their edits. -/
def AllRight (config : Sidecar) (pod : Pod ρ) (cns : List (PodContainer ρ)) : Prop :=
  ∀ (k : Nat) cn, cns[k]? = some cn → config.keeps cn = true → cn.isApp = true →
    ∃ cn', run apply (cn.renamed (config.hiddenPorts cn.name))
        (envEdits config pod (rank config.keeps cns k)) = some cn' ∧ Right config cn cn'

section

variable (hr : AllRight config pod cns) (h : Plain config pod) (hcns : WithAgent pod cns)

include hr h hcns

/-- A container that has moved has all variables already.  Nothing is aimed at
where it is now, since the container that was there has moved as well. -/
theorem AllRight.gives_of_moved {k : Nat} {before : List Container} {app : PodContainer ρ}
    (he : EntryAt config pod k before app) (hbefore : ¬ NoneBefore config pod k) {n v : String}
    (hv : config.tpEnv.lookup n = some v) : Gives app.env n v := by
  induction k using Nat.strong_induction_on generalizing before app n v with
  | _ k ih =>
    obtain ⟨happ, hk, hkeep, hconf⟩ := h.entryAt_stays hcns he
    have hlt := h.rank_lt hcns hbefore
    have hnil : envEdits config pod (rank config.keeps cns k) = [] := by
      by_cases hentry : ∃ before app, EntryAt config pod (rank config.keeps cns k) before app
      · obtain ⟨before', app', he'⟩ := hentry
        have hbefore' := h.not_noneBefore hcns rfl hlt he'
        rw [h.envEdits_of_entryAt he']
        refine addContainerTPEnv_eq_nil (fun n v hv => ?_) app'
        obtain ⟨hv', hlists, _⟩ := (h.lookup_envFor before' app' n v).mp hv
        exact hlists (ih _ hlt he' hbefore' hv').lists
      · exact envEdits_eq_nil hentry
    obtain ⟨cn', hrun, hright⟩ := hr k app hk hkeep happ
    rw [hnil] at hrun
    cases hrun
    exact hright.api hconf n v hv

/-- The edits of the environments leave the renames as they are. -/
theorem AllRight.ports {app : PodContainer ρ} (happ : app ∈ pod.containers)
    (hreplaces : config.replaces app.name = false) (hempty : "" ∈ config.hiddenPorts app.name)
    (k : ProbeKind × Handler) (n : Int) : app.probePort k ≠ some (.int n) := by
  obtain ⟨i, hi⟩ := getElem?_of_mem happ
  have hne : app.name ≠ containerName := by
    intro hagent
    rw [hagent, h.hiddenPorts_agent] at hempty
    cases hempty
  obtain ⟨cn', hrun, hright⟩ := hr i app ((hcns.app i app hne).mpr hi)
    (by simp [Sidecar.keeps, hreplaces]) (by simpa [isApp] using hne)
  have honEnv : ∀ e ∈ envEdits config pod (rank config.keeps cns i), e.OnEnv := by
    intro e hmem
    by_cases hentry : ∃ before app, EntryAt config pod (rank config.keeps cns i) before app
    · obtain ⟨before, app', he⟩ := hentry
      rw [h.envEdits_of_entryAt he] at hmem
      exact onEnv_of_mem_addContainerTPEnv hmem
    · rw [envEdits_eq_nil hentry] at hmem
      cases hmem
  have hsame : { cn' with env := app.env } = app.renamed (config.hiddenPorts app.name) :=
    same_of_onEnv honEnv hrun
  exact (app.renamed_eq_hide_iff _).mp (hsame.symm.trans hright.same) hempty k n

theorem AllRight.aligned : Aligned config pod := by
  refine ⟨?_, fun app happ hreplaces hempty => hr.ports h hcns happ hreplaces hempty⟩
  intro before cc after hsplit hreplace i app hi hname n v hv
  have he : EntryAt config pod i before app := ⟨⟨cc, after, hsplit, hreplace, hname⟩, hi⟩
  by_cases hnone : NoneBefore config pod i
  · obtain ⟨happ, hk, hkeep, hconf⟩ := h.entryAt_stays hcns he
    obtain ⟨cn', hrun, hright⟩ := hr i app hk hkeep happ
    rw [h.rank_eq hcns hk hnone, h.envEdits_of_entryAt he] at hrun
    have hrenamed : (app.renamed (config.hiddenPorts app.name)).env = app.env := rfl
    obtain ⟨cn'', hrun', hsame, henv⟩ :=
      run_addContainerTPEnv hrenamed (envFor config pod before app)
    obtain rfl : cn' = cn'' := some.inj (hrun.symm.trans hrun')
    have hiff : Right config app cn' ↔ _ := right_iff hsame henv fun n v hv =>
      ((h.lookup_envFor before app n v).mp hv).1
    rcases (hiff.mp hright).2 hconf n v hv with hgives | hlookup
    · exact .inl hgives
    · exact .inr ⟨hnone, ((h.lookup_envFor before app n v).mp hlookup).2⟩
  · exact .inl (hr.gives_of_moved h hcns he hnone hv)

end

end Necessary

/-! ## The patch as a whole -/

section Patch

variable {config : Sidecar} {pod : Pod ρ} {cns : List (PodContainer ρ)}

/-- The containers that stay, with their ports renamed. -/
def staying (config : Sidecar) (cns : List (PodContainer ρ)) : List (PodContainer ρ) :=
  (cns.filter config.keeps).map fun cn => cn.renamed (config.hiddenPorts cn.name)

variable {patches : List (PatchOperation ρ)}

/-- **The four steps.**  What is left to do are the edits of the environments. -/
theorem Plain.run_patch (h : Plain config pod) {k : Injector ρ}
    (hpatch : createPatch k pod config = .ok patches) :
    ∃ cns, WithAgent pod cns ∧ (pod.patched patches).map (·.containers) =
      run (Op.apply apply) (staying config cns) (edits (addTPEnv pod config config.tpEnv)) := by
  obtain ⟨acn, hacn, hcontainers⟩ := patched_containers hpatch
  obtain ⟨cns, hagent, hcns⟩ := exists_withAgent k pod hacn
  refine ⟨cns, hcns, ?_⟩
  rw [hcontainers, edits_addTPEnv, run_append, run_append, run_append, hagent, bind_some,
    h.run_hidePorts hcns, bind_some, h.run_removeContainers hcns]
  rfl

theorem name_of_run {es : List (Edit ρ)} {cn cn' : PodContainer ρ}
    (h : run apply cn es = some cn') : cn'.name = cn.name := by
  induction es generalizing cn with
  | nil =>
    cases h
    rfl
  | cons e es ih =>
    obtain ⟨cn₁, hstep, hrest⟩ := bind_eq_some_iff.mp h
    have hname : cn₁.name = cn.name := by
      cases e with
      | portName | probePort | addEnv =>
        obtain ⟨_, _, rfl⟩ := map_eq_some_iff.mp hstep
        rfl
      | clearEnv =>
        cases hstep
        rfl
    exact (ih hrest).trans hname

/-- The containers afterwards, one by one. -/
theorem run_envEdits_iff {cns' : List (PodContainer ρ)} :
    run (Op.apply apply) (staying config cns) (edits (addTPEnv pod config config.tpEnv)) =
        some cns' ↔
      (∀ p ∈ addTPEnv pod config config.tpEnv, p.1 < (cns.filter config.keeps).length) ∧
        cns'.length = (cns.filter config.keeps).length ∧
          ∀ (j : Nat) cn, (cns.filter config.keeps)[j]? = some cn →
            run apply (cn.renamed (config.hiddenPorts cn.name)) (envEdits config pod j) =
              cns'[j]? := by
  rw [run_edits_iff, staying, length_map]
  refine and_congr_right fun _ => and_congr_right fun _ => forall_congr' fun j => ?_
  rw [getElem?_map]
  constructor
  · intro hat cn hcn
    exact hat _ (by rw [hcn, map_some])
  · intro hat cn hcn
    obtain ⟨cn₀, hcn₀, rfl⟩ := map_eq_some_iff.mp hcn
    exact hat cn₀ hcn₀

/-- The positions have the names that they had. -/
theorem names_of_run_envEdits {cns' : List (PodContainer ρ)}
    (hrun : run (Op.apply apply) (staying config cns)
      (edits (addTPEnv pod config config.tpEnv)) = some cns') :
    (cns.filter config.keeps).map (·.name) = cns'.map (·.name) := by
  obtain ⟨_, hlen, hat⟩ := run_envEdits_iff.mp hrun
  refine ext_getElem? fun j => ?_
  rw [getElem?_map, getElem?_map]
  cases hj : (cns.filter config.keeps)[j]? with
  | none =>
    rw [getElem?_eq_none_iff, ← hlen, ← getElem?_eq_none_iff] at hj
    rw [hj]
  | some cn =>
    have hcn := hat j cn hj
    cases hj' : cns'[j]? with
    | none =>
      have hlt := (List.getElem?_eq_some_iff.mp hj).1
      rw [getElem?_eq_none_iff] at hj'
      omega
    | some cn' =>
      rw [hj'] at hcn
      rw [map_some, map_some, name_of_run hcn]
      rfl

/-- What the patch says about the containers of the pod, once the agent is
among them. -/
theorem WithAgent.filter_keeps (hcns : WithAgent pod cns) :
    (pod.containers.filter fun cn => !config.replaces cn.name).filter isApp =
      (cns.filter config.keeps).filter isApp := by
  rw [filter_comm, ← hcns.filter, filter_comm]
  rfl

theorem allRight_of_hits (hcns : WithAgent pod cns)
    (hpatched : (pod.patched patches).map (·.containers) =
      run (Op.apply apply) (staying config cns) (edits (addTPEnv pod config config.tpEnv)))
    (h : Hits config pod patches) : AllRight config pod cns := by
  obtain ⟨pod', hpod', hright, _⟩ := h
  rw [hpod', map_some] at hpatched
  rw [hcns.filter_keeps,
    forall₂_filter_iff (forall₂_isApp (names_of_run_envEdits hpatched.symm))] at hright
  obtain ⟨_, hlen, hat⟩ := run_envEdits_iff.mp hpatched.symm
  intro k cn hk hkeep happ
  have hrank := getElem?_filter_rank hk hkeep
  have hlt : rank config.keeps cns k < pod'.containers.length := by
    rw [hlen]
    exact (List.getElem?_eq_some_iff.mp hrank).1
  refine ⟨pod'.containers[rank config.keeps cns k], ?_, ?_⟩
  · rw [hat _ cn hrank, getElem?_eq_getElem hlt]
  · exact hright _ cn _ hrank (getElem?_eq_getElem hlt) happ

section

variable (ha : Aligned config pod) (h : Plain config pod) (hcns : WithAgent pod cns)

include ha h hcns

/-- A container that stays, in the end. -/
theorem Aligned.exists_right {j : Nat} {cn : PodContainer ρ}
    (hj : (cns.filter config.keeps)[j]? = some cn) :
    ∃ cn', run apply (cn.renamed (config.hiddenPorts cn.name)) (envEdits config pod j) =
        some cn' ∧ (cn.isApp = true → Right config cn cn') := by
  obtain ⟨k, hk, hkeep, rfl⟩ := exists_rank hj
  obtain ⟨m, hedits, hm, hgives⟩ := ha.edits_for h hcns hk hkeep
  have hrenamed : (cn.renamed (config.hiddenPorts cn.name)).env = cn.env := rfl
  obtain ⟨cn', hrun, hsame, henv⟩ := run_addContainerTPEnv hrenamed m
  refine ⟨cn', by rw [hedits, hrun], fun happ => ?_⟩
  have hne : cn.name ≠ containerName := by simpa [isApp] using happ
  have hmem := mem_of_getElem? ((hcns.app k cn hne).mp hk)
  have hiff : Right config cn cn' ↔ _ := right_iff hsame henv hm
  refine hiff.mpr ⟨?_, hgives⟩
  exact ha.ports cn hmem (by simpa [Sidecar.keeps] using hkeep)

/-- The positions of the edits exist. -/
theorem Aligned.positions :
    ∀ p ∈ addTPEnv pod config config.tpEnv, p.1 < (cns.filter config.keeps).length := by
  intro p hp
  have hne : envEdits config pod p.1 ≠ [] := by
    have hmem : p.2 ∈ envEdits config pod p.1 :=
      mem_map_of_mem (mem_filter.mpr ⟨hp, by simp⟩)
    exact ne_nil_of_mem hmem
  obtain ⟨before, app, he, hnone⟩ := ha.noneBefore h hne
  obtain ⟨_, hk, hkeep, _⟩ := h.entryAt_stays hcns he
  have hrank := getElem?_filter_rank hk hkeep
  rw [h.rank_eq hcns hk hnone] at hrank
  exact (List.getElem?_eq_some_iff.mp hrank).1

theorem Aligned.hits (hpatched : (pod.patched patches).map (·.containers) =
      run (Op.apply apply) (staying config cns) (edits (addTPEnv pod config config.tpEnv))) :
    Hits config pod patches := by
  let cns' := (cns.filter config.keeps).mapIdx fun j cn =>
    (run apply (cn.renamed (config.hiddenPorts cn.name)) (envEdits config pod j)).getD cn
  have hat : ∀ (j : Nat) cn, (cns.filter config.keeps)[j]? = some cn → ∃ cn',
      run apply (cn.renamed (config.hiddenPorts cn.name)) (envEdits config pod j) =
        some cn' ∧ cns'[j]? = some cn' ∧ (cn.isApp = true → Right config cn cn') := by
    intro j cn hj
    obtain ⟨cn', hrun, hright⟩ := ha.exists_right h hcns hj
    refine ⟨cn', hrun, ?_, hright⟩
    rw [getElem?_mapIdx, hj, map_some, hrun, getD_some]
  have hrun : run (Op.apply apply) (staying config cns)
      (edits (addTPEnv pod config config.tpEnv)) = some cns' := by
    refine run_envEdits_iff.mpr ⟨ha.positions h hcns, length_mapIdx, fun j cn hj => ?_⟩
    obtain ⟨cn', hcn', hj', _⟩ := hat j cn hj
    rw [hcn', hj']
  have hnames := names_of_run_envEdits hrun
  rw [hrun] at hpatched
  obtain ⟨pod', hpod', hcontainers⟩ := map_eq_some_iff.mp hpatched
  refine ⟨pod', hpod', ?_, ?_⟩
  · rw [hcontainers, hcns.filter_keeps, forall₂_filter_iff (forall₂_isApp hnames)]
    intro j cn cn' hj hj' happ
    obtain ⟨cn'', _, hj'', hright⟩ := hat j cn hj
    obtain rfl : cn' = cn'' := some.inj (hj'.symm.trans hj'')
    exact hright happ
  · rw [hcontainers, ← hnames]
    obtain ⟨cn, hcn, hname⟩ := mem_map.mp hcns.agent
    refine mem_map.mpr ⟨cn, mem_filter.mpr ⟨hcn, ?_⟩, hname⟩
    rw [Sidecar.keeps, hname, h.agent_stays]
    rfl

end

/-- A plain pod and configuration. -/
theorem Plain.hits_iff (h : Plain config pod) {k : Injector ρ}
    (hpatch : createPatch k pod config = .ok patches) :
    Hits config pod patches ↔ Aligned config pod := by
  obtain ⟨cns, hcns, hpatched⟩ := h.run_patch hpatch
  constructor
  · intro hhits
    exact (allRight_of_hits hcns hpatched hhits).aligned h hcns
  · intro ha
    exact ha.hits h hcns hpatched

/-- **The patch hits the containers it was computed for** if the pod and the
configuration are plain and aligned, and plain ones have to be aligned. -/
theorem patch_hits_iff (k : Injector ρ) (pod : Pod ρ) (config : Sidecar)
    (patches : List (PatchOperation ρ)) (hpatch : createPatch k pod config = .ok patches) :
    (Plain config pod ∧ Aligned config pod → Hits config pod patches) ∧
      (Plain config pod → Hits config pod patches → Aligned config pod) := by
  constructor
  · intro ⟨h, ha⟩
    exact (h.hits_iff hpatch).mpr ha
  · intro h hhits
    exact (h.hits_iff hpatch).mp hhits

end Patch

/-! ## Pods with two containers -/

/-- An injector whose agent is a container without further parts. -/
def bareInjector : Injector Unit where
  initContainer := .error "no init container"
  initContainerEqual := fun _ _ => true
  agentContainer := .ok ({ name := containerName, env := some [], rest := () }, ∅)
  agentContainer_name := by
    intro x h
    cases h
    rfl
  containerEqual := fun _ _ => true
  agentVolumes := .ok []

/-- A web server, with a probe that refers to its port by name. -/
def web (env : Option (List (EnvVar Unit))) : PodContainer Unit where
  name := "web"
  ports := [{ name := "http", containerPort := 8080 }]
  env := env
  probePort := fun k => if k = (.livenessProbe, .httpGet) then some (.string "http") else none
  rest := ()

/-- A container without ports. -/
def cache : PodContainer Unit := { name := "cache", rest := () }

/-- An intercept of a port by its name. -/
def httpIntercept : Intercept where
  containerPortName := "http"
  targetPortNumeric := false
  protocol := .tcp
  containerPort := 8080
  agentPort := 9900

/-- The port of the web server is intercepted, and there is an API server. -/
def webConfig (replace : ReplacePolicy) : Sidecar where
  workloadName := "web"
  workloadKind := "Deployment"
  containers := [⟨"web", [httpIntercept], .intercept⟩, ⟨"cache", [], replace⟩]
  apiPort := 9980

theorem webConfig_plain (replace : ReplacePolicy) {pod : Pod Unit}
    (hpod : (pod.containers.map (·.name)).Nodup) : Plain (webConfig replace) pod := by
  have hnames : (webConfig replace).containers.map (·.name) = ["web", "cache"] := rfl
  refine ⟨hpod, ?_, ?_⟩
  all_goals
    rw [hnames]
    decide +kernel

/-- The cache is replaced, and comes last. -/
def webFirst : Pod Unit := { containers := [web none, cache] }

/-- **Such a pod.**  The patch hits the web server. -/
theorem patch_hits_webFirst :
    ∃ patches, createPatch bareInjector webFirst (webConfig .container) = .ok patches ∧
      Plain (webConfig .container) webFirst ∧ Aligned (webConfig .container) webFirst ∧
        Hits (webConfig .container) webFirst patches := by
  have hplain : Plain (webConfig .container) webFirst :=
    webConfig_plain .container (by decide +kernel)
  have hlists : ∀ app ∈ webFirst.containers, ∀ n v, ¬ app.Lists n v := by
    intro app happ n v h
    rcases mem_cons.mp happ with rfl | happ
    · cases h
    · rw [mem_singleton.mp happ] at h
      cases h
  have haligned : Aligned (webConfig .container) webFirst := by
    refine ⟨?_, ?_⟩
    · intro before cc after hsplit hreplace i app hi hname n v hv
      have happ := mem_of_getElem? hi
      refine .inr ⟨?_, hlists app happ n v, fun cc' _ _ app' happ' _ => hlists app' happ' n v⟩
      -- the entry that is not replaced is the first one, and so is its container
      have hcc : cc ∈ (webConfig .container).containers := by
        rw [hsplit]
        exact mem_append_right _ mem_cons_self
      rcases mem_cons.mp hcc with rfl | hcc
      · have hweb : webFirst.containers[0]? = some (web none) := rfl
        obtain rfl : i = 0 := hplain.getElem?_inj hi hweb hname
        intro j hj
        exact absurd hj (Nat.not_lt_zero j)
      · rw [mem_singleton.mp hcc] at hreplace
        exact absurd rfl hreplace
    · intro app happ _ hempty k n
      rcases mem_cons.mp happ with rfl | happ
      · exact absurd hempty (by decide +kernel)
      · rw [mem_singleton.mp happ] at hempty
        exact absurd hempty (by decide +kernel)
  refine ⟨_, rfl, hplain, haligned, ?_⟩
  exact (patch_hits_iff bareInjector webFirst (webConfig .container) _ rfl).1 ⟨hplain, haligned⟩

/-- The cache is replaced, and comes first. -/
def cacheFirst : Pod Unit := { containers := [cache, web none] }

/-- The web server has the variables, and the cache stays. -/
def webHasEnv : Pod Unit where
  containers := [web (some [⟨envAPIHost, "localhost", none⟩, ⟨envAPIPort, "9980", none⟩]), cache]

/-- **The patch misses.**  With the cache removed, the variables of the web
server go to the agent.  And the cache gets no variables if the web server has
them. -/
theorem patch_misses :
    (∃ patches, createPatch bareInjector cacheFirst (webConfig .container) = .ok patches ∧
      ¬ Hits (webConfig .container) cacheFirst patches) ∧
    ∃ patches, createPatch bareInjector webHasEnv (webConfig .inactive) = .ok patches ∧
      ¬ Hits (webConfig .inactive) webHasEnv patches := by
  refine ⟨⟨_, rfl, ?_⟩, ⟨_, rfl, ?_⟩⟩
  · intro h
    have haligned := ((webConfig_plain .container (by decide +kernel)).hits_iff (k := bareInjector)
      rfl).mp h
    rcases haligned.env [] _ _ rfl (by decide) 1 (web none) rfl rfl envAPIHost "localhost"
      (by decide +kernel) with hgives | ⟨hnone, _⟩
    · cases hgives
    · exact absurd (hnone 0 (by decide) cache rfl) (by decide +kernel)
  · intro h
    have haligned := ((webConfig_plain .inactive (by decide +kernel)).hits_iff (k := bareInjector)
      rfl).mp h
    rcases haligned.env [_] _ [] rfl (by decide) 1 cache rfl rfl envAPIHost "localhost"
      (by decide +kernel) with hgives | ⟨_, _, hlists⟩
    · cases hgives
    · exact hlists _ mem_cons_self (by decide) _ mem_cons_self rfl mem_cons_self

end Telepresence.Injection
