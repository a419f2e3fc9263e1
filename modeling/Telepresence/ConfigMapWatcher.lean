import Telepresence.NamespaceSelector
import Telepresence.Lib.Runs

/-!
# The watcher of the manager's ConfigMap

`manager/config`: each time the ConfigMap changes, `refreshFile` compares its
parts with what it has, and sends a changed namespace selector and changed admin
commands on channels of one slot.  A send that finds the slot taken is given up.

* `last_received_is_described`: nothing is lost in a run in which a change finds
  the slot of its channel free, a selector does not become absent when it was
  empty (or the other way), and an empty text does not describe new commands where
  there was no text before.
-/

namespace Telepresence.ManagerConfig

open Labels Runs List Option

/-! ## The code -/

/-- The parsers of the parts of a ConfigMap; `none` is an error. -/
structure Parsers (C : Type) where
  selector : String → Option Selector
  agentEnv : String → Option (List String)
  adminCommands : String → Option C

/-- `config`, with its channels, and what was received from them last.  Texts
that are nil are empty, and a nil requirement is `none`. -/
structure Config (C : Type) where
  clientYAML : String := ""
  agentStateYAML : String := ""
  adminCommandsYAML : String := ""
  agentEnv : List String := []
  namespaceSelector : List (Option Requirement) := [none]
  selectorChannel : Option (Option Selector) := none
  commandsChannel : Option C := none
  receivedSelector : Option (Option Selector) := none
  receivedCommands : Option C := none

variable {C : Type}

namespace Config

/-- The part of `refreshFile` about the client configuration. -/
def refreshClient (c : Config C) : Option String → Config C
  | some yml => { c with clientYAML := yml }
  | none => { c with clientYAML := "" }

/-- The part of `refreshFile` about the environment of agents. -/
def refreshAgentEnv (p : Parsers C) (c : Config C) : Option String → Config C
  | some yml =>
      match p.agentEnv yml with
      | some excluded => { c with agentEnv := excluded.insertionSort (· ≤ ·) }
      | none => c
  | none => { c with agentEnv := [] }

/-- The part of `refreshFile` about the namespace selector. -/
def refreshSelector (p : Parsers C) (order : GoMap.Order String String) (c : Config C) :
    Option String → Config C
  | some yml =>
      match p.selector yml with
      | none => c
      | some nsSelector =>
          let es := nsSelector.getAllRequirements order
          if es.map some ≠ c.namespaceSelector ∧ c.selectorChannel = none then
            { c with
              selectorChannel := some (some { matchExpressions := es })
              namespaceSelector := es.map some }
          else c
  | none =>
      if c.namespaceSelector.length > 0 ∧ c.selectorChannel = none then
        { c with selectorChannel := some none, namespaceSelector := [] }
      else c

/-- The part of `refreshFile` about the state of agents. -/
def refreshAgentState (c : Config C) : Option String → Config C
  | some yml => { c with agentStateYAML := yml }
  | none => { c with agentStateYAML := "" }

/-- The part of `refreshFile` about the admin commands. -/
def refreshAdminCommands (p : Parsers C) (c : Config C) : Option String → Config C
  | some yml =>
      if yml = c.adminCommandsYAML then c
      else
        match p.adminCommands yml with
        | none => c
        | some al =>
            match c.commandsChannel with
            | none => { c with commandsChannel := some al, adminCommandsYAML := yml }
            | some _ => c
  | none => { c with adminCommandsYAML := "" }

/-- `refreshFile`. -/
def refreshFile (p : Parsers C) (order : GoMap.Order String String) (c : Config C)
    (mapData : GoMap String String) : Config C :=
  let c := c.refreshClient (mapData.lookup "client.yaml")
  let c := c.refreshAgentEnv p (mapData.lookup "agent-env.yaml")
  let c := c.refreshSelector p order (mapData.lookup "namespace-selector.yaml")
  let c := c.refreshAgentState (mapData.lookup "agent-state.yaml")
  c.refreshAdminCommands p (mapData.lookup "admin-commands.yaml")

/-- A changed selector finds its channel free, and does not become empty when it
was absent, or absent when it was empty. -/
def SelectorFits (p : Parsers C) (order : GoMap.Order String String)
    (described : Option (Option Selector)) (c : Config C) : Option String → Prop
  | some yml => ∀ sel, p.selector yml = some sel →
      ((sel.getAllRequirements order).map some ≠ c.namespaceSelector →
        c.selectorChannel = none) ∧
      (sel.getAllRequirements order = [] → described ≠ some none)
  | none => (c.namespaceSelector ≠ [] → c.selectorChannel = none) ∧
      ∀ sel, described = some (some sel) → sel.matchExpressions ≠ []

/-- Changed commands find their channel free, and an empty text where there was
none describes the commands that there were last. -/
def CommandsFit (p : Parsers C) (commands : Option C) (c : Config C) : Option String → Prop
  | some yml => ∀ al, p.adminCommands yml = some al →
      (yml ≠ c.adminCommandsYAML → c.commandsChannel = none) ∧
      (yml = "" → c.adminCommandsYAML = "" → commands = some al)
  | none => True

end Config

/-- `watch.Event` about the ConfigMap. -/
inductive WatchEvent where
  | added (data : GoMap String String)
  | modified (data : GoMap String String)
  | deleted
  | other

/-- What `configMapEventHandler` gives to `refreshFile`. -/
def WatchEvent.contents : WatchEvent → Option (GoMap String String)
  | added data => some data
  | modified data => some data
  | deleted => some ∅
  | other => none

/-! ## Whole runs -/

/-- The watcher, with what the contents so far have described last. -/
structure Watch (C : Type) where
  config : Config C := {}
  described : Option (Option Selector) := none
  commands : Option C := none

/-- An event is handled, in some order of the maps, or a channel is read. -/
inductive Action where
  | event (order : GoMap.Order String String) (e : WatchEvent)
  | receiveSelector
  | receiveCommands

/-- The selector that contents describe: nil if there is none, and nothing if it
cannot be parsed. -/
def describedBy (p : Parsers C) : Option String → Option (Option Selector)
  | none => some none
  | some yml => (p.selector yml).map fun sel => some (sel.emitted .entries)

/-- The admin commands of contents that hold valid ones. -/
def commandsOf (p : Parsers C) (text : Option String) : Option C := text.bind p.adminCommands

namespace Watch

variable (p : Parsers C)

/-- An event is handled, or a channel is read. -/
def step (s : Watch C) : Action → Option (Watch C)
  | .event order e =>
      match e.contents with
      | none => some s
      | some data =>
          some
            { config := s.config.refreshFile p order data
              described :=
                (describedBy p (data.lookup "namespace-selector.yaml")).or s.described
              commands := (commandsOf p (data.lookup "admin-commands.yaml")).or s.commands }
  | .receiveSelector =>
      s.config.selectorChannel.map fun sel =>
        { s with config :=
          { s.config with selectorChannel := none, receivedSelector := some sel } }
  | .receiveCommands =>
      s.config.commandsChannel.map fun al =>
        { s with config :=
          { s.config with commandsChannel := none, receivedCommands := some al } }

/-- If both channels are drained, the last selector and the last commands that
were received are those described last. -/
def Delivered (s : Watch C) : Prop :=
  s.config.selectorChannel = none → s.config.commandsChannel = none →
    s.config.receivedSelector = s.described ∧ s.config.receivedCommands = s.commands

/-- An event fits, and so does every read. -/
def Fits (s : Watch C) : Action → Prop
  | .event order e => ∀ data, e.contents = some data →
      Config.SelectorFits p order s.described s.config (data.lookup "namespace-selector.yaml") ∧
        Config.CommandsFit p s.commands s.config (data.lookup "admin-commands.yaml")
  | _ => True

end Watch

/-! ## The parts -/

/-- What `namespaceSelector` is after a selector has been sent; the one nil entry
at the start forces the first change. -/
inductive Remembered : Option (Option Selector) → List (Option Requirement) → Prop
  | start : Remembered none [none]
  | absent : Remembered (some none) []
  | sent (es : List Requirement) :
      Remembered (some (some { matchExpressions := es })) (es.map some)

namespace Config

/-- The fields of the namespace selector. -/
def selectorPart (c : Config C) :
    Option (Option Selector) × Option (Option Selector) × List (Option Requirement) :=
  (c.selectorChannel, c.receivedSelector, c.namespaceSelector)

/-- The fields of the admin commands. -/
def commandsPart (c : Config C) : Option C × Option C × String :=
  (c.commandsChannel, c.receivedCommands, c.adminCommandsYAML)

/-- The selector that was sent last, and that the next one is compared with, is
the one described last. -/
structure SelectorSent (c : Config C) (described : Option (Option Selector)) : Prop where
  sent : c.selectorChannel.or c.receivedSelector = described
  compared : Remembered described c.namespaceSelector

/-- The commands that were sent last, and whose text the next one is compared
with, are the last valid ones. -/
structure CommandsSent (p : Parsers C) (c : Config C) (commands : Option C) : Prop where
  sent : c.commandsChannel.or c.receivedCommands = commands
  compared : c.adminCommandsYAML ≠ "" → p.adminCommands c.adminCommandsYAML = commands

variable {p : Parsers C} {order : GoMap.Order String String} {c c' : Config C}
  {described : Option (Option Selector)} {commands : Option C} {text : Option String}

@[simp] theorem refreshClient_parts : (c.refreshClient text).selectorPart = c.selectorPart ∧
    (c.refreshClient text).commandsPart = c.commandsPart := by
  cases text <;> exact ⟨rfl, rfl⟩

@[simp] theorem refreshAgentEnv_parts :
    (c.refreshAgentEnv p text).selectorPart = c.selectorPart ∧
      (c.refreshAgentEnv p text).commandsPart = c.commandsPart := by
  unfold refreshAgentEnv
  split
  · split <;> exact ⟨rfl, rfl⟩
  · exact ⟨rfl, rfl⟩

@[simp] theorem refreshSelector_commandsPart :
    (c.refreshSelector p order text).commandsPart = c.commandsPart := by
  unfold refreshSelector
  split
  · split
    · rfl
    · dsimp only
      split <;> rfl
  · split <;> rfl

@[simp] theorem refreshAgentState_parts :
    (c.refreshAgentState text).selectorPart = c.selectorPart ∧
      (c.refreshAgentState text).commandsPart = c.commandsPart := by
  cases text <;> exact ⟨rfl, rfl⟩

@[simp] theorem refreshAdminCommands_selectorPart :
    (c.refreshAdminCommands p text).selectorPart = c.selectorPart := by
  unfold refreshAdminCommands
  split
  · split
    · rfl
    · split
      · rfl
      · split <;> rfl
  · rfl

theorem SelectorSent.of_part (h : c.SelectorSent described)
    (hpart : c'.selectorPart = c.selectorPart) : c'.SelectorSent described := by
  obtain ⟨hchannel, hreceived, hcompared⟩ : c'.selectorChannel = c.selectorChannel ∧
      c'.receivedSelector = c.receivedSelector ∧
      c'.namespaceSelector = c.namespaceSelector := by
    simpa only [selectorPart, Prod.mk.injEq] using hpart
  refine ⟨?_, ?_⟩
  · rw [hchannel, hreceived]
    exact h.sent
  · rw [hcompared]
    exact h.compared

theorem SelectorFits.of_part (h : SelectorFits p order described c text)
    (hpart : c'.selectorPart = c.selectorPart) : SelectorFits p order described c' text := by
  obtain ⟨hchannel, -, hcompared⟩ : c'.selectorChannel = c.selectorChannel ∧
      c'.receivedSelector = c.receivedSelector ∧
      c'.namespaceSelector = c.namespaceSelector := by
    simpa only [selectorPart, Prod.mk.injEq] using hpart
  cases text with
  | none | some yml =>
    rw [SelectorFits, hchannel, hcompared]
    exact h

theorem CommandsSent.of_part (h : c.CommandsSent p commands)
    (hpart : c'.commandsPart = c.commandsPart) : c'.CommandsSent p commands := by
  obtain ⟨hchannel, hreceived, hcompared⟩ : c'.commandsChannel = c.commandsChannel ∧
      c'.receivedCommands = c.receivedCommands ∧
      c'.adminCommandsYAML = c.adminCommandsYAML := by
    simpa only [commandsPart, Prod.mk.injEq] using hpart
  refine ⟨?_, ?_⟩
  · rw [hchannel, hreceived]
    exact h.sent
  · rw [hcompared]
    exact h.compared

theorem CommandsFit.of_part (h : CommandsFit p commands c text)
    (hpart : c'.commandsPart = c.commandsPart) : CommandsFit p commands c' text := by
  obtain ⟨hchannel, -, hcompared⟩ : c'.commandsChannel = c.commandsChannel ∧
      c'.receivedCommands = c.receivedCommands ∧
      c'.adminCommandsYAML = c.adminCommandsYAML := by
    simpa only [commandsPart, Prod.mk.injEq] using hpart
  cases text with
  | none => exact trivial
  | some yml =>
    rw [CommandsFit, hchannel, hcompared]
    exact h

theorem SelectorSent.refresh (h : c.SelectorSent described)
    (hfits : SelectorFits p order described c text) :
    (c.refreshSelector p order text).SelectorSent ((describedBy p text).or described) := by
  cases text with
  | none =>
    obtain ⟨hfree, hempty⟩ := hfits
    rw [refreshSelector, describedBy, some_or]
    split
    · exact ⟨rfl, .absent⟩
    · -- nothing is sent, so that the last selector was absent as well
      rename_i hnot
      have hnil : c.namespaceSelector = [] := by
        by_contra hne
        exact hnot ⟨length_pos_iff.mpr hne, hfree hne⟩
      have hsame : described = some none := by
        have hcompared := h.compared
        rw [hnil] at hcompared
        generalize hl : ([] : List (Option Requirement)) = l at hcompared
        cases hcompared with
        | start => cases hl
        | absent => rfl
        | sent es => exact absurd (map_eq_nil_iff.mp hl.symm) (hempty _ rfl)
      rw [← hsame]
      exact h
  | some yml =>
    rw [refreshSelector, describedBy]
    cases hparse : p.selector yml with
    | none => exact h
    | some sel =>
      obtain ⟨hfree, hempty⟩ := hfits sel hparse
      have hemitted : sel.emitted .entries =
          { matchExpressions := sel.getAllRequirements order } := by
        rw [Selector.emitted, getAllRequirements_congr .entries order]
      rw [map_some, some_or, hemitted]
      dsimp only
      split
      · exact ⟨rfl, .sent _⟩
      · -- the requirements are those of the last selector
        rename_i hnot
        have heq : (sel.getAllRequirements order).map some = c.namespaceSelector := by
          by_contra hne
          exact hnot ⟨hne, hfree hne⟩
        have hsame :
            described = some (some { matchExpressions := sel.getAllRequirements order }) := by
          have hcompared := h.compared
          rw [← heq] at hcompared
          generalize hl : (sel.getAllRequirements order).map some = l at hcompared
          cases hcompared with
          | start =>
            have hmem : (none : Option Requirement) ∈
                (sel.getAllRequirements order).map some := by
              rw [hl]
              exact mem_singleton_self _
            obtain ⟨r, -, hr⟩ := mem_map.mp hmem
            cases hr
          | absent => exact absurd rfl (hempty (map_eq_nil_iff.mp hl))
          | sent es => rw [map_injective_iff.mpr (some_injective _) hl]
        rw [← hsame]
        exact h

theorem CommandsSent.refresh (h : c.CommandsSent p commands)
    (hfits : CommandsFit p commands c text) :
    (c.refreshAdminCommands p text).CommandsSent p ((commandsOf p text).or commands) := by
  cases text with
  | none => exact ⟨h.sent, fun hne => absurd rfl hne⟩
  | some yml =>
    have hof : commandsOf p (some yml) = p.adminCommands yml := rfl
    rw [refreshAdminCommands, hof]
    cases hparse : p.adminCommands yml with
    | none =>
      split
      · exact h
      · exact h
    | some al =>
      obtain ⟨hfree, hempty⟩ := hfits al hparse
      rw [some_or]
      split
      · -- the same text, which nothing is sent for
        rename_i heq
        have hsame : commands = some al := by
          by_cases hnil : yml = ""
          · exact hempty hnil (heq ▸ hnil)
          · rw [← h.compared (heq ▸ hnil), ← heq, hparse]
        rw [← hsame]
        exact h
      · rename_i hne
        rw [hfree hne]
        exact ⟨rfl, fun _ => hparse⟩

end Config

/-! ## Whole runs of the watcher -/

namespace Watch

variable {p : Parsers C} {s t : Watch C}

/-- What was sent last is what was described last. -/
structure Sent (p : Parsers C) (s : Watch C) : Prop where
  selector : s.config.SelectorSent s.described
  commands : s.config.CommandsSent p s.commands

theorem Sent.start : Sent p ({} : Watch C) :=
  ⟨⟨rfl, .start⟩, ⟨rfl, fun hne => absurd rfl hne⟩⟩

theorem Sent.delivered (h : Sent p s) : s.Delivered := by
  intro hselector hcommands
  have hdescribed := h.selector.sent
  have hlast := h.commands.sent
  rw [hselector, none_or] at hdescribed
  rw [hcommands, none_or] at hlast
  exact ⟨hdescribed, hlast⟩

theorem Sent.step {a : Action} (h : Sent p s) (hfits : Fits p s a)
    (hstep : Watch.step p s a = some t) : Sent p t := by
  cases a with
  | event order e =>
    rw [Watch.step] at hstep
    cases hcontents : e.contents with
    | none =>
      rw [hcontents] at hstep
      cases hstep
      exact h
    | some data =>
      rw [hcontents] at hstep
      cases hstep
      obtain ⟨hselector, hcommands⟩ := hfits data hcontents
      refine ⟨?_, ?_⟩
      · -- the parts before and after the selector's leave its fields alone
        have hpart : ((s.config.refreshClient (data.lookup "client.yaml")).refreshAgentEnv p
            (data.lookup "agent-env.yaml")).selectorPart = s.config.selectorPart := by simp
        have hsent := (h.selector.of_part hpart).refresh (hselector.of_part hpart)
        exact hsent.of_part (by simp [Config.refreshFile])
      · exact (h.commands.of_part (by simp)).refresh (hcommands.of_part (by simp))
  | receiveSelector =>
    rw [Watch.step] at hstep
    obtain ⟨sel, hchannel, rfl⟩ := map_eq_some_iff.mp hstep
    have hsent := h.selector.sent
    rw [hchannel, some_or] at hsent
    exact ⟨⟨hsent, h.selector.compared⟩, ⟨h.commands.sent, h.commands.compared⟩⟩
  | receiveCommands =>
    rw [Watch.step] at hstep
    obtain ⟨al, hchannel, rfl⟩ := map_eq_some_iff.mp hstep
    have hsent := h.commands.sent
    rw [hchannel, some_or] at hsent
    exact ⟨⟨h.selector.sent, h.selector.compared⟩, ⟨hsent, h.commands.compared⟩⟩

end Watch

/-- In a run whose events all fit, whenever both channels are drained the last
selector and the last commands received are those that the contents described
last. -/
theorem last_received_is_described (p : Parsers C) (as : List Action)
    (hfits : Meets (Watch.step p) (Watch.Fits p) {} as) :
    Always (Watch.step p) Watch.Delivered {} as := by
  have hstart : Watch.Sent p {} := Watch.Sent.start
  refine always_of_meets ?_ ?_ hstart hfits
  · intro s hsent
    exact hsent.delivered
  · intro s a t hsent hfit hstep
    exact hsent.step hfit hstep

/-- Parsers of texts that are one name of a namespace, or one command. -/
def nameParsers : Parsers String where
  selector name := some { matchExpressions := [⟨nameLabelKey, "In", [name]⟩] }
  agentEnv name := some [name]
  adminCommands command := some command

/-- A ConfigMap with a selector and a command. -/
def contentsWith (selector command : String) : GoMap String String :=
  ((∅ : GoMap String String).insert "namespace-selector.yaml" selector).insert
    "admin-commands.yaml" command

/-- Both channels are free, and both texts are there. -/
def Watch.fitsTest (s : Watch String) : Action → Bool
  | .event _ e =>
      s.config.selectorChannel.isNone && s.config.commandsChannel.isNone &&
        e.contents.any fun data =>
          (data.lookup "namespace-selector.yaml").isSome &&
            decide (data.lookup "admin-commands.yaml" ≠ some "")
  | _ => true

theorem Watch.fits_of_test (s : Watch String) (a : Action) (h : s.fitsTest a = true) :
    Watch.Fits nameParsers s a := by
  cases a with
  | receiveSelector | receiveCommands => trivial
  | event order e =>
    intro data hdata
    simp only [fitsTest, hdata, any_some, Bool.and_eq_true, isNone_iff_eq_none,
      decide_eq_true_eq] at h
    obtain ⟨⟨hselector, hcommands⟩, hthere, hnonempty⟩ := h
    refine ⟨?_, ?_⟩
    · obtain ⟨name, hname⟩ := isSome_iff_exists.mp hthere
      rw [hname]
      intro sel hsel
      cases hsel
      refine ⟨fun _ => hselector, ?_⟩
      intro hempty
      have hmem : (⟨nameLabelKey, "In", [name]⟩ : Requirement) ∈
          Selector.getAllRequirements order
            { matchExpressions := [⟨nameLabelKey, "In", [name]⟩] } :=
        mem_getAllRequirements.mpr (.inl (mem_singleton_self _))
      rw [hempty] at hmem
      cases hmem
    · cases hcommand : data.lookup "admin-commands.yaml" with
      | none => trivial
      | some command =>
        rw [hcommand] at hnonempty
        intro al hal
        exact ⟨fun _ => hcommands, fun hnil => absurd (congrArg some hnil) hnonempty⟩

/-- Two selectors and two commands, each read before the next change. -/
theorem described_read_in_time :
    (run (Watch.step nameParsers) {}
      [.event .entries (.added (contentsWith "dev" "list")), .receiveSelector, .receiveCommands,
        .event .entries (.modified (contentsWith "test" "quit")), .receiveSelector,
        .receiveCommands]).isSome = true ∧
    Always (Watch.step nameParsers) Watch.Delivered {}
      [.event .entries (.added (contentsWith "dev" "list")), .receiveSelector, .receiveCommands,
        .event .entries (.modified (contentsWith "test" "quit")), .receiveSelector,
        .receiveCommands] := by
  refine ⟨by decide +kernel, ?_⟩
  exact last_received_is_described nameParsers _
    (meets_of_test Watch.fits_of_test (by decide +kernel))

/-- The second selector comes before the first one is read, and is given up. -/
theorem second_selector_lost :
    ¬ Always (Watch.step nameParsers) Watch.Delivered {}
      [.event .entries (.added (contentsWith "dev" "list")),
        .event .entries (.modified (contentsWith "test" "list")), .receiveSelector,
        .receiveCommands] := by
  refine not_always_of_run (Q := fun t => t.config.selectorChannel.isNone →
    t.config.commandsChannel.isNone →
      t.config.receivedSelector.map (Option.map Selector.matchExpressions) =
        t.described.map (Option.map Selector.matchExpressions)) ?_ (by decide +kernel)
  intro t h hselector hcommands
  rw [(h (isNone_iff_eq_none.mp hselector) (isNone_iff_eq_none.mp hcommands)).1]

end Telepresence.ManagerConfig
