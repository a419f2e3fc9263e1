import Mathlib.Data.List.Dedup
import Telepresence.ManagerState

/-!
# Agents in any order

`AgentsAreCompatible` compares every agent of a list with the first one, and
the list comes from a map, so that any agent can be the first.  The comparison
of the mechanisms checks that those of the first agent have distinct names, and
looks the others' up among them.

* `mechanismsAreTheSame_iff`: what the comparison says of two lists.
* `compatible_in_any_order_iff`: the order has no influence if and only if no
  agent repeats a mechanism while another agent agrees with all of them.
-/

namespace Telepresence.Manager

open List GoMap Mechanism

/-! ## Mechanisms -/

section Mechanisms

variable {a b : List Mechanism}

/-- The map has as many entries as the list if and only if the names are
distinct. -/
theorem length_keys_insertAll :
    (GoMap.insertAll name a ∅).keys.length = a.length ↔ (a.map name).Nodup := by
  have hpairs : insertAll name a ∅ =
      insertPairs (a.map fun m => (m.name, m)) ∅ := by
    rw [insertPairs, foldl_map]
    rfl
  have hmem : ∀ k, k ∈ (insertAll name a ∅).keys ↔
      k ∈ (a.map name).dedup := by
    intro k
    rw [hpairs, mem_keys_iff_isSome, isSome_lookup_insertPairs]
    simp
  have hperm := (perm_ext_iff_of_nodup (AList.keys_nodup _) (nodup_dedup _)).mpr hmem
  rw [hperm.length_eq, ← length_map (f := name)]
  constructor
  · intro hlen
    exact dedup_eq_self.mp ((dedup_sublist _).eq_of_length hlen)
  · intro hnodup
    rw [hnodup.dedup]

/-- The first list is not empty and has distinct names, and the second one is
as long and has nothing else. -/
theorem mechanismsAreTheSame_iff :
    mechanismsAreTheSame a b = true ↔
      a.length = b.length ∧ a ≠ [] ∧ (a.map name).Nodup ∧ ∀ m ∈ b, m ∈ a := by
  have hlookup : ∀ (hnodup : (a.map name).Nodup) (m : Mechanism),
      (((insertAll name a ∅).lookup m.name).any fun golden =>
        golden.product == m.product && golden.version == m.version) = true ↔ m ∈ a := by
    intro hnodup m
    by_cases hname : m.name ∈ a.map name
    · obtain ⟨golden, hgolden, hsame⟩ := mem_map.mp hname
      rw [← hsame, lookup_insertAll_of_mem hnodup hgolden]
      simp only [Option.any_some, Bool.and_eq_true, beq_iff_eq]
      constructor
      · intro hrest
        have heq : golden = m := by
          cases golden
          cases m
          simp_all
        exact heq ▸ hgolden
      · intro hm
        rw [inj_on_of_nodup_map hnodup hgolden hm hsame]
        exact ⟨rfl, rfl⟩
    · rw [lookup_insertAll_of_notMem hname]
      refine iff_of_false (by simp) fun hm => hname (mem_map_of_mem hm)
  unfold mechanismsAreTheSame
  dsimp only
  by_cases hlen : a.length = b.length
  · by_cases hnil : a = []
    · simp [hnil]
    · have hpos := length_pos_iff.mpr hnil
      rw [if_neg (by omega)]
      by_cases hnodup : (a.map name).Nodup
      · rw [if_neg (not_not.mpr (length_keys_insertAll.mpr hnodup)), all_eq_true]
        simp only [hlen, hnil, hnodup, ne_eq, not_false_eq_true, true_and]
        refine forall₂_congr fun m _ => ?_
        rw [← hlookup hnodup m]
        cases (insertAll name a ∅).lookup m.name <;> rfl
      · rw [if_pos (mt length_keys_insertAll.mp hnodup)]
        simp [hnodup]
  · simp [hlen]

/-- Where the names of the second list are distinct too, the lists differ at
most by their order. -/
theorem perm_of_same (h : mechanismsAreTheSame a b = true) (hb : (b.map name).Nodup) :
    a.Perm b := by
  obtain ⟨hlen, _, _, hsub⟩ := mechanismsAreTheSame_iff.mp h
  exact ((subperm_of_subset (hb.of_map _) hsub).perm_of_length_le (by omega)).symm

end Mechanisms

/-! ## Agents -/

section Agents

/-- What `AgentsAreCompatible` asks of an agent that is not the first. -/
def Agrees (golden agent : AgentInfo) : Prop :=
  golden.name = agent.name ∧ golden.product = agent.product ∧ golden.version = agent.version ∧
    mechanismsAreTheSame golden.mechanisms agent.mechanisms = true

/-- No mechanism is repeated. -/
def DistinctMechanisms (agent : AgentInfo) : Prop := (agent.mechanisms.map name).Nodup

/-- Where one agent agrees with all of them, none repeats a mechanism. -/
def NoneRepeats (agents : List AgentInfo) : Prop :=
  ∀ golden ∈ agents, (∀ agent ∈ agents, Agrees golden agent) →
    ∀ agent ∈ agents, DistinctMechanisms agent

theorem agentsAreCompatible_cons {golden : AgentInfo} {rest : List AgentInfo} :
    agentsAreCompatible (golden :: rest) = true ↔ ∀ agent ∈ rest, Agrees golden agent := by
  simp [agentsAreCompatible, Agrees, and_assoc]

theorem Agrees.distinct {golden agent : AgentInfo} (h : Agrees golden agent) :
    DistinctMechanisms golden :=
  (mechanismsAreTheSame_iff.mp h.2.2.2).2.2.1

/-- An agent that agrees with another one agrees with itself. -/
theorem Agrees.self {golden agent : AgentInfo} (h : Agrees golden agent) :
    Agrees golden golden := by
  obtain ⟨_, hnil, hnodup, _⟩ := mechanismsAreTheSame_iff.mp h.2.2.2
  exact ⟨rfl, rfl, rfl, mechanismsAreTheSame_iff.mpr ⟨rfl, hnil, hnodup, fun _ hm => hm⟩⟩

variable {agents agents' : List AgentInfo}

section

variable (h : NoneRepeats agents)

include h

/-- A single agent, or all agents agree with each other. -/
theorem alike_of_compatible (hcompatible : agentsAreCompatible agents = true) :
    (∃ agent, agents = [agent]) ∨ ∀ x ∈ agents, ∀ y ∈ agents,
      Agrees x y ∧ x.mechanisms.Perm y.mechanisms := by
  cases agents with
  | nil => cases hcompatible
  | cons golden rest =>
    cases rest with
    | nil => exact .inl ⟨golden, rfl⟩
    | cons agent rest =>
      have hrest := agentsAreCompatible_cons.mp hcompatible
      have hall : ∀ x ∈ golden :: agent :: rest, Agrees golden x :=
        forall_mem_cons.mpr ⟨(hrest agent mem_cons_self).self, hrest⟩
      have hdistinct := h golden mem_cons_self hall
      have hperm : ∀ x ∈ golden :: agent :: rest, golden.mechanisms.Perm x.mechanisms :=
        fun x hx => perm_of_same (hall x hx).2.2.2 (hdistinct x hx)
      refine .inr fun x hx y hy => ?_
      have hxy : x.mechanisms.Perm y.mechanisms := (hperm x hx).symm.trans (hperm y hy)
      obtain ⟨hname, hproduct, hversion, hmechanisms⟩ := hall x hx
      obtain ⟨hname', hproduct', hversion', _⟩ := hall y hy
      refine ⟨⟨hname.symm.trans hname', hproduct.symm.trans hproduct',
        hversion.symm.trans hversion', ?_⟩, hxy⟩
      obtain ⟨_, hnil, _, _⟩ := mechanismsAreTheSame_iff.mp hmechanisms
      refine mechanismsAreTheSame_iff.mpr ⟨hxy.length_eq, ?_, hdistinct x hx,
        fun m hm => hxy.mem_iff.mpr hm⟩
      intro hempty
      exact hnil (perm_nil.mp (hempty ▸ hperm x hx))

theorem NoneRepeats.perm (hperm : agents'.Perm agents) : NoneRepeats agents' := by
  simpa only [NoneRepeats, hperm.mem_iff] using h

/-- The agents are compatible in every order in which they are in one. -/
theorem compatible_of_perm (hperm : agents'.Perm agents)
    (hcompatible : agentsAreCompatible agents = true) : agentsAreCompatible agents' = true := by
  obtain ⟨agent, rfl⟩ | halike := alike_of_compatible h hcompatible
  · rw [perm_singleton.mp hperm]
    exact hcompatible
  · cases agents' with
    | nil =>
      rw [nil_perm.mp hperm] at hcompatible
      cases hcompatible
    | cons golden rest =>
      refine agentsAreCompatible_cons.mpr fun agent hagent => (halike golden ?_ agent ?_).1
      · exact hperm.mem_iff.mp mem_cons_self
      · exact hperm.mem_iff.mp (mem_cons_of_mem _ hagent)

theorem compatible_eq_of_perm (hperm : agents'.Perm agents) :
    agentsAreCompatible agents' = agentsAreCompatible agents :=
  Bool.eq_iff_iff.mpr
    ⟨compatible_of_perm (h.perm hperm) hperm.symm, compatible_of_perm h hperm⟩

/-- Compatible agents have the same mechanisms. -/
theorem hasMechanism_eq (hcompatible : agentsAreCompatible agents = true)
    {x y : AgentInfo} (hx : x ∈ agents) (hy : y ∈ agents) (mechName : String) :
    agentHasMechanism x mechName = agentHasMechanism y mechName := by
  obtain ⟨agent, rfl⟩ | halike := alike_of_compatible h hcompatible
  · rw [mem_singleton.mp hx, mem_singleton.mp hy]
  · exact (halike x hx y hy).2.any_eq

end

/-- If the order has no influence, the condition holds: with an agent first
that agrees with all of them they are compatible, and with one first that
repeats a mechanism they are not. -/
theorem noneRepeats_of_order_free
    (h : ∀ agents', agents'.Perm agents →
      agentsAreCompatible agents' = agentsAreCompatible agents) :
    NoneRepeats agents := by
  intro golden hgolden hall agent hagent
  have hfirst : agentsAreCompatible (golden :: agents.erase golden) = true :=
    agentsAreCompatible_cons.mpr fun x hx => hall x (mem_of_mem_erase hx)
  have hsecond : agentsAreCompatible (agent :: agents.erase agent) = true := by
    rw [h _ (perm_cons_erase hagent).symm, ← h _ (perm_cons_erase hgolden).symm, hfirst]
  by_cases heq : golden = agent
  · exact heq ▸ (hall golden hgolden).distinct
  · exact (agentsAreCompatible_cons.mp hsecond golden
      ((mem_erase_of_ne heq).mpr hgolden)).distinct

variable {s s' : State}

/-- The same agents and inactivated pods, the map iterated in another order. -/
def SameAgents (s s' : State) : Prop :=
  s'.agents.entries.Perm s.agents.entries ∧ s'.inactivePods = s.inactivePods

theorem SameAgents.agentList (h : SameAgents s s') (spec : InterceptSpec) :
    (s'.agentList spec).Perm (s.agentList spec) := by
  unfold State.agentList State.eachAgent State.isInactive
  rw [h.2]
  exact ((h.1.map _).filter _).filter _

theorem checkAgents_eq {spec : InterceptSpec} (h : NoneRepeats (s.agentList spec))
    (hsame : SameAgents s s') : s'.checkAgents spec = s.checkAgents spec := by
  have hperm := hsame.agentList spec
  have hcompatible := compatible_eq_of_perm h hperm
  unfold State.checkAgents
  generalize hlist : s.agentList spec = agents at *
  generalize hlist' : s'.agentList spec = agents' at *
  cases agents with
  | nil => rw [perm_nil.mp hperm]
  | cons agent rest =>
    cases agents' with
    | nil => cases nil_perm.mp hperm
    | cons agent' rest' =>
      dsimp only
      rw [hcompatible]
      by_cases hc : agentsAreCompatible (agent :: rest) = true
      · rw [hasMechanism_eq h hc (hperm.mem_iff.mp mem_cons_self) mem_cons_self]
      · simp [hc]

end Agents

/-- **Any order.**  The order of the agents has no influence if and only if no
agent repeats a mechanism while one agrees with all of them; and then it has
none on what is found out about an intercept. -/
theorem compatible_in_any_order_iff (agents : List AgentInfo) :
    ((∀ agents', agents'.Perm agents →
        agentsAreCompatible agents' = agentsAreCompatible agents) ↔ NoneRepeats agents) ∧
      (NoneRepeats agents → ∀ (s s' : State) (intercept : InterceptInfo),
        s.agentList intercept.spec = agents → SameAgents s s' →
          s'.checkAgentsForIntercept intercept = s.checkAgentsForIntercept intercept) := by
  refine ⟨⟨noneRepeats_of_order_free, fun h agents' => compatible_eq_of_perm h⟩, ?_⟩
  rintro h s s' intercept rfl hsame
  unfold State.checkAgentsForIntercept
  rw [checkAgents_eq h hsame]

/-- An agent of the deployment with mechanisms of the given names. -/
def agentWith (podUid : String) (mechanisms : List String) : AgentInfo where
  name := "echo"
  namespace_ := "default"
  podName := podUid
  podIp := ""
  podUid := podUid
  mechanisms := mechanisms.map fun name => { name := name }

/-- Two agents, one of which repeats a mechanism, are compatible in one order
only. -/
theorem compatible_in_one_order :
    [agentWith "1" ["tcp", "http"], agentWith "2" ["tcp", "tcp"]].Perm
        [agentWith "2" ["tcp", "tcp"], agentWith "1" ["tcp", "http"]] ∧
      agentsAreCompatible [agentWith "1" ["tcp", "http"], agentWith "2" ["tcp", "tcp"]] = true ∧
      agentsAreCompatible [agentWith "2" ["tcp", "tcp"], agentWith "1" ["tcp", "http"]] = false :=
  ⟨.swap .., by decide +kernel, by decide +kernel⟩

end Telepresence.Manager
