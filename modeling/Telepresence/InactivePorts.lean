import Telepresence.Lib.Prefixes
import Telepresence.Lib.RuleTables
import Telepresence.SidecarPorts

/-!
# The init container and the inactive port

While no intercept is active for a port that a service targets by number, the
traffic-agent writes to a proxy port and relies on the init container having
redirected it to the container port.  The agent looks at all intercepts of the
port to decide this.  The init container goes through a list that has only the
first intercept for each agent port and protocol, and installs the rule if
that one has a numeric target port.

* `mem_portUniqueIntercepts_iff`: which intercepts are in that list.
* `inactive_port_redirected_iff`: the rule that the agent relies on is there
  if and only if the protocol is TCP or UDP and the first intercept with the
  agent port has a numeric target port.
-/

namespace Telepresence.AgentInit

open AgentMap Telepresence.Types Netip RuleTables List

/-! ## The rules -/

/-- The chains of the table `nat` that are used. -/
inductive Chain where
  | preRouting
  | output
  | telPreRouting (proto : Proto)
  | telOutput (proto : Proto)
  | telMeshBypass
  deriving DecidableEq

/-- The name of a chain. -/
def Chain.name : Chain → String
  | .preRouting => "PREROUTING"
  | .output => "OUTPUT"
  | .telPreRouting proto => "TEL_PREROUTING_" ++ proto.string
  | .telOutput proto => "TEL_OUTPUT_" ++ proto.string
  | .telMeshBypass => "TEL_MESH_BYPASS"

/-- The conditions of a rule. -/
inductive Condition where
  | proto (proto : Proto)
  | out (loopback : String)
  | destination (ip : Addr)
  | destinationIn (subnet : Prefix)
  | destinationNotIn (subnet : Prefix)
  | dport (port : UInt16)
  | notDport (port : UInt16)
  | owner (flag id : String)
  | notOwner (flag id : String)
  deriving DecidableEq

/-- What a rule does with a packet. -/
inductive Target where
  | jump (chain : Chain)
  | redirect (port : UInt16)
  | dnat (destination : AddrPort)
  | accept
  | return
  deriving DecidableEq

/-- A rule: its conditions and its target. -/
structure Rule where
  conditions : List Condition
  target : Target
  deriving DecidableEq

/-- The parts of the configuration that the init container reads. -/
structure Config extends Sidecar where
  meshDialSubnets : List Prefix := []

/-- A command, with what an error of it is reported as. -/
abbrev Step := String × Command Chain Rule

/-- Clear a chain, or fail with the text of the source. -/
def clearChain (chain : Chain) : Step :=
  ("failed to clear chain " ++ chain.name, .clearChain chain)

/-- Append a rule unless it is there, or fail with the text of the source. -/
def appendRule (chain : Chain) (rule : Rule) : Step :=
  ("failed to append rule to " ++ chain.name, .appendUnique chain rule)

/-! ## The intercepts -/

/-- The `PortAndProto` of an intercept. -/
def portAndProto (ic : Intercept) : UInt16 × Proto := (ic.agentPort, ic.protocol)

/-- The loop of `PortUniqueIntercepts`, with the keys met so far, for any model
of an intercept. -/
def portUniqueLoop {α : Type} (key : α → UInt16 × Proto) (um : List (UInt16 × Proto)) :
    List α → List α
  | [] => []
  | ic :: ics =>
      if key ic ∈ um then portUniqueLoop key um ics
      else ic :: portUniqueLoop key (key ic :: um) ics

/-- `PortUniqueIntercepts`. -/
def portUniqueIntercepts (cn : Container) : List Intercept :=
  portUniqueLoop portAndProto [] cn.intercepts

/-! ## `configureIptables` -/

/-- The rule that sends the container port to the agent port. -/
def redirectRule (proto : Proto) (ic : Intercept) : Rule :=
  ⟨[.proto proto, .dport ic.containerPort], .redirect ic.agentPort⟩

/-- The rule that sends `podIP:port` to `podIP:containerPort`. -/
def dnatRule (proto : Proto) (podIP : Addr) (port containerPort : UInt16) : Rule :=
  ⟨[.proto proto, .destination podIP, .dport port], .dnat ⟨podIP, containerPort⟩⟩

/-- The commands for one intercept. -/
def interceptSteps (c : Config) (podIP : Addr) (proto : Proto) (ic : Intercept) : List Step :=
  if proto = ic.protocol then
    [appendRule (.telPreRouting proto) (redirectRule proto ic),
      appendRule (.telOutput proto) (redirectRule proto ic)] ++
    if ic.targetPortNumeric then
      [appendRule (.telOutput proto)
        (dnatRule proto podIP (c.proxyPort ic.agentPort) ic.containerPort)]
    else []
  else []

/-- The commands for all intercepts. -/
def allInterceptSteps (c : Config) (podIP : Addr) (proto : Proto) : List Step :=
  c.containers.flatMap fun cn => (portUniqueIntercepts cn).flatMap (interceptSteps c podIP proto)

/-- Some intercept has the protocol. -/
def hasRule (c : Config) (proto : Proto) : Bool :=
  c.containers.any fun cn => (portUniqueIntercepts cn).any fun ic => proto = ic.protocol

/-- The commands that direct the traffic of a protocol into its chains. -/
def directSteps (flag id loopback : String) (localHostCIDR : Prefix) (podIP : Addr)
    (proto : Proto) : List Step :=
  let jump := Target.jump (.telOutput proto)
  [("failed to append prerouting rule to direct to " ++ (Chain.telPreRouting proto).name,
      .appendUnique .preRouting ⟨[.proto proto], .jump (.telPreRouting proto)⟩),
    ("failed to insert ! " ++ flag ++ " rule in OUTPUT",
      .insert .output 1 ⟨[.out loopback, .proto proto, .notOwner flag id], jump⟩),
    ("failed to insert pod IP ! " ++ flag ++ " rule in OUTPUT",
      .insert .output 1 ⟨[.proto proto, .destination podIP, .notOwner flag id], jump⟩),
    ("failed to insert " ++ flag ++ " rule in OUTPUT",
      .insert .output 1
        ⟨[.out loopback, .proto proto, .destinationNotIn localHostCIDR, .owner flag id], jump⟩),
    ("failed to insert pod IP " ++ flag ++ " rule in OUTPUT",
      .insert .output 1 ⟨[.proto proto, .destination podIP, .owner flag id], jump⟩)]

/-- The commands for one protocol. -/
def protoSteps (c : Config) (flag id loopback : String) (localHostCIDR : Prefix) (podIP : Addr)
    (proto : Proto) : List Step :=
  if hasRule c proto then
    clearChain (.telPreRouting proto) :: clearChain (.telOutput proto) ::
      (allInterceptSteps c podIP proto ++ directSteps flag id loopback localHostCIDR podIP proto)
  else []

/-- `familySubnets`. -/
def familySubnets (subnets : List Prefix) (v4 : Bool) : List Prefix :=
  subnets.filter fun sn => sn.addr.is4 = v4

/-- `meshBypassTarget`: the commands and the target. -/
def meshBypassTarget (c : Config) (v4 : Bool) : List Step × Target :=
  match familySubnets c.meshDialSubnets v4 with
  | [] => ([], .return)
  | meshSubnets =>
      (clearChain .telMeshBypass ::
        (meshSubnets.map fun sn => appendRule .telMeshBypass ⟨[.destinationIn sn], .return⟩) ++
          [appendRule .telMeshBypass ⟨[], .accept⟩],
        .jump .telMeshBypass)

/-- `insertMeshBypassRules`. -/
def insertMeshBypassRules (c : Config) (flag id : String) (pos : Nat) (v4 : Bool) : List Step :=
  let (steps, target) := meshBypassTarget c v4
  let insert (proto : Proto) (pos : Nat) : Step :=
    ("failed to insert " ++ flag ++ " rule in OUTPUT",
      .insert .output pos ⟨[.proto proto, .owner flag id, .notDport 53], target⟩)
  steps ++ [insert .tcp pos, insert .udp (pos + 1)]

/-- The commands of `configureIptables`; four rules are inserted for each
protocol that has any. -/
def steps (c : Config) (flag id loopback : String) (localHostCIDR : Prefix) (podIP : Addr) :
    List Step :=
  let outputInsertCount := 4 * ([Proto.tcp, .udp].filter (hasRule c)).length
  ([Proto.tcp, .udp].flatMap fun proto =>
    protoSteps c flag id loopback localHostCIDR podIP proto) ++
    insertMeshBypassRules c flag id (1 + outputInsertCount) podIP.is4

/-- The number in an environment variable, if it is set. -/
def lookupID (env : GoMap String String) (name : String) : Except String (Option String) :=
  match env.lookup name with
  | none | some "" => .ok none
  | some id =>
      match Strings.parseUint id 32 with
      | .error e => .error ("invalid " ++ name ++ " " ++ id.quote ++ ": " ++ e)
      | .ok n => .ok (some (toString n))

/-- `trafficAgentOwner`, for a process with the given environment and user. -/
def trafficAgentOwner (env : GoMap String String) (uid : Nat) : Except String (String × String) := do
  match ← lookupID env "AGENT_GID" with
  | some gid => return ("--gid-owner", gid)
  | none =>
      match ← lookupID env "AGENT_UID" with
      | some id => return ("--uid-owner", id)
      | none => return ("--uid-owner", toString uid)

/-- The tables of a new pod: only the chains that are always there have rules,
those of a service mesh for instance. -/
def newPod (preRouting output : List Rule) : Tables Chain Rule
  | .preRouting => preRouting
  | .output => output
  | _ => []

/-- `configureIptables`, on tables and with an `iptables` that may refuse
commands. -/
def configureIptables (c : Config) (refuses : Tables Chain Rule → Command Chain Rule → Option String)
    (env : GoMap String String) (uid : Nat) (loopback : String) (localHostCIDR : Prefix)
    (podIP : Addr) (tables : Tables Chain Rule) : Except String (Tables Chain Rule) := do
  let (flag, id) ← trafficAgentOwner env uid
  run refuses tables (steps c flag id loopback localHostCIDR podIP)

/-! ## What is installed -/

variable {ic : Intercept}

theorem mem_portUniqueLoop_iff {um : List (UInt16 × Proto)} {ics : List Intercept} :
    ic ∈ portUniqueLoop portAndProto um ics ↔
      portAndProto ic ∉ um ∧ ics.find? (fun x => portAndProto x = portAndProto ic) = some ic := by
  induction ics generalizing um with
  | nil => simp [portUniqueLoop]
  | cons x ics ih =>
    by_cases hkey : portAndProto x = portAndProto ic
    · -- the first intercept with the key: `ic` is found only if it is this one
      rw [find?_cons_of_pos (by simpa using hkey), Option.some.injEq, portUniqueLoop]
      split
      · rename_i hum
        rw [ih, ← hkey]
        exact ⟨fun h => absurd hum h.1, fun h => absurd hum h.1⟩
      · rename_i hum
        rw [hkey] at hum
        rw [mem_cons, ih, hkey]
        simp only [mem_cons, not_true_eq_false, false_and, or_false, hum,
          not_false_eq_true, true_and]
        exact eq_comm
    · rw [find?_cons_of_neg (by simpa using hkey), portUniqueLoop]
      have hne : ic ≠ x := by
        rintro rfl
        exact hkey rfl
      split
      · exact ih
      · rw [mem_cons, ih, mem_cons, not_or]
        simp [hne, Ne.symm hkey]

variable {cn : Container}

/-- An intercept is in the list if it is the container's first one with its
agent port and protocol. -/
theorem mem_portUniqueIntercepts_iff :
    ic ∈ portUniqueIntercepts cn ↔
      cn.intercepts.find? (fun x => portAndProto x = portAndProto ic) = some ic := by
  simp [portUniqueIntercepts, mem_portUniqueLoop_iff]

/-- An intercept's key is in the list. -/
theorem exists_mem_portUniqueIntercepts (h : ic ∈ cn.intercepts) :
    ∃ ic' ∈ portUniqueIntercepts cn, portAndProto ic' = portAndProto ic := by
  have hsome : (cn.intercepts.find? fun x => portAndProto x = portAndProto ic).isSome = true :=
    find?_isSome.mpr ⟨ic, h, by simp⟩
  obtain ⟨ic', hic'⟩ := Option.isSome_iff_exists.mp hsome
  have hkey : portAndProto ic' = portAndProto ic := by simpa using find?_some hic'
  exact ⟨ic', mem_portUniqueIntercepts_iff.mpr (by rw [hkey]; exact hic'), hkey⟩

section Steps

variable {c : Config} {flag id loopback : String} {localHostCIDR : Prefix} {podIP : Addr}
  {proto proto' : Proto}

variable {x : Step}

/-- A command for an intercept appends to one of the two chains of the
protocol. -/
theorem cases_of_mem_allInterceptSteps (h : x ∈ allInterceptSteps c podIP proto) :
    ∃ rule, x.2 = .appendUnique (.telPreRouting proto) rule ∨
      x.2 = .appendUnique (.telOutput proto) rule := by
  obtain ⟨cn, _, hx⟩ := mem_flatMap.mp h
  obtain ⟨ic, _, hx⟩ := mem_flatMap.mp hx
  unfold interceptSteps at hx
  split at hx
  · split at hx
    · simp only [cons_append, nil_append, mem_cons, not_mem_nil, or_false] at hx
      obtain rfl | rfl | rfl := hx
      · exact ⟨_, .inl rfl⟩
      all_goals exact ⟨_, .inr rfl⟩
    · simp only [append_nil, mem_cons, not_mem_nil, or_false] at hx
      obtain rfl | rfl := hx
      · exact ⟨_, .inl rfl⟩
      · exact ⟨_, .inr rfl⟩
  · cases hx

variable {port containerPort : UInt16}

theorem dnatRule_inj {port' containerPort' : UInt16} :
    dnatRule proto podIP port containerPort = dnatRule proto podIP port' containerPort' ↔
      port' = port ∧ containerPort' = containerPort := by
  simp only [dnatRule, Rule.mk.injEq, cons.injEq, Condition.dport.injEq, Target.dnat.injEq,
    AddrPort.mk.injEq, true_and, and_true]
  rw [eq_comm, eq_comm (a := containerPort)]

theorem map_interceptSteps (ic : Intercept) :
    (interceptSteps c podIP proto ic).map Prod.snd =
      if proto = ic.protocol then
        [.appendUnique (.telPreRouting proto) (redirectRule proto ic),
          .appendUnique (.telOutput proto) (redirectRule proto ic)] ++
        if ic.targetPortNumeric then
          [.appendUnique (.telOutput proto)
            (dnatRule proto podIP (c.proxyPort ic.agentPort) ic.containerPort)]
        else []
      else [] := by
  unfold interceptSteps
  split
  · split <;> rfl
  · rfl

/-- The rule for a proxy port is that of an intercept in the list. -/
theorem dnatRule_mem_iff :
    .appendUnique (.telOutput proto) (dnatRule proto podIP port containerPort) ∈
        (allInterceptSteps c podIP proto).map Prod.snd ↔
      ∃ cn ∈ c.containers, ∃ ic ∈ portUniqueIntercepts cn, ic.protocol = proto ∧
        ic.targetPortNumeric = true ∧ c.proxyPort ic.agentPort = port ∧
          ic.containerPort = containerPort := by
  have hstep : ∀ ic, .appendUnique (.telOutput proto) (dnatRule proto podIP port containerPort) ∈
      (interceptSteps c podIP proto ic).map Prod.snd ↔ ic.protocol = proto ∧
        ic.targetPortNumeric = true ∧ c.proxyPort ic.agentPort = port ∧
          ic.containerPort = containerPort := by
    intro ic
    have hredirect : dnatRule proto podIP port containerPort ≠ redirectRule proto ic := by
      intro h
      cases congrArg Rule.target h
    rw [map_interceptSteps]
    by_cases hproto : proto = ic.protocol
    · rw [if_pos hproto, ← hproto]
      by_cases hnumeric : ic.targetPortNumeric = true
      · rw [if_pos hnumeric]
        simp only [cons_append, nil_append, mem_cons, Command.appendUnique.injEq,
          hredirect, dnatRule_inj, reduceCtorEq, and_false, false_or, not_mem_nil,
          or_false, true_and, hnumeric]
      · rw [if_neg hnumeric]
        simp only [append_nil, mem_cons, Command.appendUnique.injEq, hredirect,
          reduceCtorEq, false_and, and_false, not_mem_nil, or_false, hnumeric]
    · rw [if_neg hproto]
      simp only [not_mem_nil, Ne.symm hproto, false_and]
  simp only [allInterceptSteps, map_flatMap, mem_flatMap, hstep]

/-- The commands that are given after the chains are cleared touch the output
chain of no other protocol, and append to that of this one. -/
theorem chain_of_mem_direct (h : x ∈ directSteps flag id loopback localHostCIDR podIP proto) :
    x.2.chain = .preRouting ∨ x.2.chain = .output := by
  simp only [directSteps, mem_cons, not_mem_nil, or_false] at h
  obtain rfl | rfl | rfl | rfl | rfl := h
  · exact .inl rfl
  all_goals exact .inr rfl

theorem chain_of_mem_protoSteps (h : x ∈ protoSteps c flag id loopback localHostCIDR podIP proto')
    (hchain : x.2.chain = .telOutput proto) : proto' = proto := by
  unfold protoSteps at h
  split at h
  · simp only [mem_cons, mem_append] at h
    obtain rfl | rfl | h | h := h
    · cases hchain
    · cases hchain
      rfl
    · obtain ⟨rule, hx | hx⟩ := cases_of_mem_allInterceptSteps h
      · rw [hx] at hchain
        cases hchain
      · rw [hx] at hchain
        cases hchain
        rfl
    · rcases chain_of_mem_direct h with hx | hx <;> rw [hx] at hchain <;> cases hchain
  · cases h

theorem chain_of_mem_meshBypass {pos : Nat} {v4 : Bool}
    (h : x ∈ insertMeshBypassRules c flag id pos v4) : x.2.chain ≠ .telOutput proto := by
  have htarget : ∀ x ∈ (meshBypassTarget c v4).1, x.2.chain = .telMeshBypass := by
    intro x hx
    unfold meshBypassTarget at hx
    split at hx
    · cases hx
    · simp only [cons_append, mem_cons, mem_append, mem_map,
        not_mem_nil, or_false] at hx
      obtain rfl | ⟨_, _, rfl⟩ | rfl := hx
      all_goals rfl
  simp only [insertMeshBypassRules, mem_append, mem_cons, not_mem_nil,
    or_false] at h
  obtain h | rfl | rfl := h
  · rw [htarget x h]
    nofun
  · nofun
  · nofun

variable {t : Tables Chain Rule}

/-- After the chain has been cleared, only the commands for the intercepts of
the protocol append to it. -/
theorem dnatRule_mem_of_split (before : List (Command Chain Rule)) {rest : List Step}
    (hrest : ∀ x ∈ rest, x.2.chain ≠ .telOutput proto) :
    dnatRule proto podIP port containerPort ∈
        applyAll t (before ++ .clearChain (.telOutput proto) ::
          (allInterceptSteps c podIP proto ++
            (directSteps flag id loopback localHostCIDR podIP proto ++ rest)).map Prod.snd)
          (.telOutput proto) ↔
      .appendUnique (.telOutput proto) (dnatRule proto podIP port containerPort) ∈
        (allInterceptSteps c podIP proto).map Prod.snd := by
  have hother : ∀ x ∈ directSteps flag id loopback localHostCIDR podIP proto ++ rest,
      x.2.chain ≠ .telOutput proto := by
    intro x hx
    rcases mem_append.mp hx with hx | hx
    · rcases chain_of_mem_direct hx with h | h <;> rw [h] <;> nofun
    · exact hrest x hx
  rw [mem_applyAll_of_clear]
  · rw [map_append, mem_append, or_iff_left]
    intro h
    obtain ⟨x, hx, heq⟩ := mem_map.mp h
    exact hother x hx (by rw [heq]; rfl)
  · intro cmd hcmd hchain
    obtain ⟨x, hx, rfl⟩ := mem_map.mp hcmd
    rcases mem_append.mp hx with hx | hx
    · obtain ⟨rule, heq | heq⟩ := cases_of_mem_allInterceptSteps hx
      · rw [heq] at hchain
        cases hchain
      · exact ⟨rule, heq⟩
    · exact absurd hchain (hother x hx)

theorem protoSteps_of_hasRule (hrule : hasRule c proto = true) :
    protoSteps c flag id loopback localHostCIDR podIP proto =
      clearChain (.telPreRouting proto) :: clearChain (.telOutput proto) ::
        (allInterceptSteps c podIP proto ++
          directSteps flag id loopback localHostCIDR podIP proto) := if_pos hrule

/-- **What is in the output chain of a protocol**: for TCP and UDP the rules
that are appended for its intercepts. -/
theorem dnatRule_mem_output_iff (hproto : proto = .tcp ∨ proto = .udp)
    (hrule : hasRule c proto = true) :
    dnatRule proto podIP port containerPort ∈
        applyAll t ((steps c flag id loopback localHostCIDR podIP).map Prod.snd)
          (.telOutput proto) ↔
      .appendUnique (.telOutput proto) (dnatRule proto podIP port containerPort) ∈
        (allInterceptSteps c podIP proto).map Prod.snd := by
  have hsteps : ∃ pos, steps c flag id loopback localHostCIDR podIP =
      protoSteps c flag id loopback localHostCIDR podIP .tcp ++
        (protoSteps c flag id loopback localHostCIDR podIP .udp ++
          insertMeshBypassRules c flag id pos podIP.is4) := by
    refine ⟨1 + 4 * ([Proto.tcp, .udp].filter (hasRule c)).length, ?_⟩
    rw [steps, flatMap_cons, flatMap_cons, flatMap_nil, append_nil,
      append_assoc]
  obtain ⟨pos, hsteps⟩ := hsteps
  rcases hproto with rfl | rfl
  · rw [hsteps, protoSteps_of_hasRule hrule, cons_append, cons_append, append_assoc,
      map_cons, map_cons]
    refine dnatRule_mem_of_split [.clearChain (.telPreRouting .tcp)] ?_
    intro x hx
    rcases mem_append.mp hx with hx | hx
    · intro hchain
      cases chain_of_mem_protoSteps hx hchain
    · exact chain_of_mem_meshBypass hx
  · rw [hsteps, protoSteps_of_hasRule hrule, cons_append, cons_append, append_assoc,
      map_append, map_cons, map_cons, ← singleton_append, ← append_assoc]
    exact dnatRule_mem_of_split _ fun x hx => chain_of_mem_meshBypass hx

/-- No command is about the output chain of another protocol. -/
theorem output_unchanged (hproto : ¬ (proto = .tcp ∨ proto = .udp)) (rule : Rule) :
    rule ∈ applyAll t ((steps c flag id loopback localHostCIDR podIP).map Prod.snd)
      (.telOutput proto) ↔ rule ∈ t (.telOutput proto) := by
  have hchain : ∀ cmd ∈ (steps c flag id loopback localHostCIDR podIP).map Prod.snd,
      cmd.chain ≠ .telOutput proto := by
    intro cmd hcmd
    obtain ⟨x, hx, rfl⟩ := mem_map.mp hcmd
    rcases mem_append.mp hx with hx | hx
    · obtain ⟨proto', hproto', hx⟩ := mem_flatMap.mp hx
      intro hchain
      obtain rfl := chain_of_mem_protoSteps hx hchain
      exact hproto (by simpa using hproto')
    · exact chain_of_mem_meshBypass hx
  rw [mem_applyAll_iff fun cmd hcmd h => absurd h (hchain cmd hcmd), or_iff_left]
  exact fun h => hchain _ h rfl

end Steps

/-- Where `iptables` accepts every command, all of them are executed. -/
theorem configureIptables_eq_ok {c : Config}
    {refuses : Tables Chain Rule → Command Chain Rule → Option String}
    (haccept : ∀ t cmd, refuses t cmd = none) {env : GoMap String String} {uid : Nat}
    {flag id : String} (howner : trafficAgentOwner env uid = .ok (flag, id)) (loopback : String)
    (localHostCIDR : Prefix) (podIP : Addr) (tables : Tables Chain Rule) :
    configureIptables c refuses env uid loopback localHostCIDR podIP tables =
      .ok (applyAll tables ((steps c flag id loopback localHostCIDR podIP).map Prod.snd)) := by
  unfold configureIptables
  rw [Results.bind_eq_ok]
  exact ⟨(flag, id), howner, run_eq_ok haccept _ _⟩

/-! ## Agreement with the agent -/

/-- The first intercept with the port's agent port and protocol, in one of the
containers, is for the port and has a numeric target port; and the protocol is
TCP or UDP. -/
def FirstNumeric (s : Sidecar) (containerPort : UInt16) (proto : Proto) : Prop :=
  (proto = .tcp ∨ proto = .udp) ∧
    ∃ agentPort, (s.interceptTarget containerPort proto).head?.map Intercept.agentPort =
        some agentPort ∧
      ∃ cn ∈ s.containers, ∃ ic,
        cn.intercepts.find? (fun x => portAndProto x = (agentPort, proto)) = some ic ∧
          ic.targetPortNumeric = true ∧ ic.containerPort = containerPort

/-- The port that the agent writes to instead of the container port. -/
theorem inactivePort_of_ne {s : Sidecar} {containerPort : UInt16} {proto : Proto}
    (h : s.interceptorInactivePort containerPort proto ≠ containerPort) :
    ∃ first, (s.interceptTarget containerPort proto).head? = some first ∧
      s.interceptorInactivePort containerPort proto = s.proxyPort first.agentPort := by
  unfold Sidecar.interceptorInactivePort at h ⊢
  split at h
  · exact absurd rfl h
  · rename_i first it htarget
    split at h
    · rename_i hnumeric
      exact ⟨first, by rw [htarget]; rfl, if_pos hnumeric⟩
    · exact absurd rfl h

theorem hasRule_of_mem {c : Config} (hcn : cn ∈ c.containers) (hic : ic ∈ cn.intercepts) :
    hasRule c ic.protocol = true := by
  obtain ⟨ic', hic', hkey⟩ := exists_mem_portUniqueIntercepts hic
  refine any_eq_true.mpr ⟨cn, hcn, any_eq_true.mpr ⟨ic', hic', ?_⟩⟩
  exact decide_eq_true (congrArg Prod.snd hkey).symm

theorem proxyPort_injective (s : Sidecar) : Function.Injective s.proxyPort := by
  intro a b h
  simpa [Sidecar.proxyPort] using h

/-- **Agreement on the inactive port.**  Once `configureIptables` has
succeeded, a port that the agent writes to in place of the container port is
redirected to it if and only if the first intercept with its agent port and
protocol has a numeric target port. -/
theorem inactive_port_redirected_iff (c : Config)
    (refuses : Tables Chain Rule → Command Chain Rule → Option String)
    (env : GoMap String String) (uid : Nat) (loopback : String) (localHostCIDR : Prefix)
    (podIP : Addr) (preRouting output : List Rule) (t : Tables Chain Rule)
    (hok : configureIptables c refuses env uid loopback localHostCIDR podIP
      (newPod preRouting output) = .ok t)
    (containerPort : UInt16) (proto : Proto)
    (hport : c.interceptorInactivePort containerPort proto ≠ containerPort) :
    dnatRule proto podIP (c.interceptorInactivePort containerPort proto) containerPort ∈
        t (.telOutput proto) ↔
      FirstNumeric c.toSidecar containerPort proto := by
  obtain ⟨⟨flag, id⟩, _, hrun⟩ := Results.bind_eq_ok.mp hok
  rw [eq_applyAll_of_run hrun]
  obtain ⟨first, hfirst, hq⟩ := inactivePort_of_ne hport
  obtain ⟨hmem, hproto⟩ := Sidecar.mem_of_interceptTarget (mem_of_mem_head? hfirst)
  obtain ⟨cn, hcn, hmem⟩ := mem_flatMap.mp hmem
  by_cases htcp : proto = .tcp ∨ proto = .udp
  · rw [dnatRule_mem_output_iff htcp (hproto ▸ hasRule_of_mem hcn hmem), dnatRule_mem_iff, hq]
    simp only [FirstNumeric, htcp, true_and, hfirst, Option.map_some, Option.some.injEq,
      exists_eq_left', mem_portUniqueIntercepts_iff]
    constructor
    · rintro ⟨cn', hcn', ic, hfind, hic, hnumeric, hproxy, hcontainer⟩
      have hkey : portAndProto ic = (first.agentPort, proto) := by
        rw [portAndProto, proxyPort_injective _ hproxy, hic]
      rw [hkey] at hfind
      exact ⟨cn', hcn', ic, hfind, hnumeric, hcontainer⟩
    · rintro ⟨cn', hcn', ic, hfind, hnumeric, hcontainer⟩
      have hkey : portAndProto ic = (first.agentPort, proto) := by simpa using find?_some hfind
      obtain ⟨hagent, hic⟩ := Prod.mk.inj hkey
      refine ⟨cn', hcn', ic, ?_, hic, hnumeric, by rw [hagent], hcontainer⟩
      rw [hkey]
      exact hfind
  · rw [output_unchanged htcp]
    simp [newPod, FirstNumeric, htcp]

/-- Two services for one container port: one targets it by name and one by
number. -/
def byName : Intercept where
  serviceName := "web"
  targetPortNumeric := false
  protocol := .tcp
  containerPort := 8080
  agentPort := 9900

/-- An intercept of a numeric target port. -/
def byNumber : Intercept where
  serviceName := "web-admin"
  targetPortNumeric := true
  protocol := .tcp
  containerPort := 8080
  agentPort := 9900

/-- A sidecar with these two intercepts, in the given order. -/
def webConfig (ics : List Intercept) : Config where
  agentImage := "tel2"
  agentName := "web"
  ns := "default"
  workloadName := "web"
  workloadKind := "Deployment"
  containers := [⟨"web", ics, .intercept⟩]

/-- The address of the pod. -/
def podIP : Addr := .v4 ⟨[10, 0, 0, 7], rfl⟩

/-- The addresses of the loopback device. -/
def localHost : Prefix := prefixFrom (.v4 ⟨[127, 0, 0, 0], rfl⟩) 8

/-- The rules of the pod, with an `iptables` that accepts everything. -/
def webTables (ics : List Intercept) : Except String (Tables Chain Rule) :=
  configureIptables (webConfig ics) (fun _ _ => none) ∅ 0 "lo" localHost podIP (newPod [] [])

theorem webTables_eq_ok (ics : List Intercept) : ∃ t, webTables ics = .ok t ∧
    t = applyAll (newPod [] []) ((steps (webConfig ics) "--uid-owner" "0" "lo" localHost
      podIP).map Prod.snd) :=
  ⟨_, configureIptables_eq_ok (fun _ _ => rfl) rfl "lo" localHost podIP _, rfl⟩

/-- With the numeric service first, the proxy port is redirected. -/
theorem inactive_port_redirected_by_number :
    ∃ t, webTables [byNumber, byName] = .ok t ∧
      (webConfig [byNumber, byName]).interceptorInactivePort 8080 .tcp = 9913 ∧
      dnatRule .tcp podIP 9913 8080 ∈ t (.telOutput .tcp) := by
  obtain ⟨t, ht, _⟩ := webTables_eq_ok [byNumber, byName]
  have hport : (webConfig [byNumber, byName]).interceptorInactivePort 8080 .tcp = 9913 := by decide
  refine ⟨t, ht, hport, ?_⟩
  have hne : (webConfig [byNumber, byName]).interceptorInactivePort 8080 .tcp ≠ 8080 := by
    rw [hport]
    decide
  have hiff := inactive_port_redirected_iff _ _ _ _ _ _ _ _ _ t ht 8080 .tcp hne
  rw [hport] at hiff
  exact hiff.mpr ⟨.inl rfl, 9900, by decide, _, mem_singleton_self _, byNumber, by decide, rfl, rfl⟩

/-- With the named service first, the agent writes to a proxy port that
nothing redirects. -/
theorem inactive_port_not_redirected :
    ∃ t, webTables [byName, byNumber] = .ok t ∧
      (webConfig [byName, byNumber]).interceptorInactivePort 8080 .tcp = 9913 ∧
      dnatRule .tcp podIP 9913 8080 ∉ t (.telOutput .tcp) := by
  obtain ⟨t, ht, rfl⟩ := webTables_eq_ok [byName, byNumber]
  exact ⟨_, ht, by decide, by decide +kernel⟩

end Telepresence.AgentInit
