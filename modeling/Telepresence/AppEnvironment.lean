import Mathlib.Data.List.Sort
import Telepresence.Lib.Expansion
import Telepresence.MountPolicies

/-!
# The agent's copy of an app container's environment

`appendAppContainerEnv` of `pkg/agentconfig` gives the agent the environment of
an app container: the names get a prefix, and so do the names in `$(NAME)`
expressions.  `AppEnvironment` of the agent takes the prefix off again.

The names in the values are found with a regular expression, which knows
nothing of what Kubernetes makes of the value.

* A match of the regular expression can be the end of `$$(NAME)`, which is an
  escaped `$` and no reference, and it can name a variable that is not
  defined.  Kubernetes keeps the text in both cases, and the prefix with it.
* `app_environment_copied`: the values are the same if each match is a
  reference to an earlier variable; where no reference starts inside a match,
  they are the same only then.
-/

namespace Telepresence.AppEnvironment

open Expansion Telepresence.AgentMap List

/-! ## The environment in Kubernetes -/

/-- `core.EnvVar`, with a literal value.  Kubernetes wants a name, and no `=`
in it. -/
structure EnvVar where
  name : Text
  value : Text
  named : name ≠ [] := by decide +kernel
  noEquals : '=' ∉ name := by decide +kernel

/-- The text of a reference, which stays when there is no such variable. -/
def verbatim (n : Text) : Text := '$' :: '(' :: (n ++ [')'])

/-- The value of a reference, given the variables that are known, the last one
first. -/
def resolve (known : List (Text × Text)) (n : Text) : Text := (known.lookup n).getD (verbatim n)

/-- The variables with their values, the last one first.  They are expanded in
order. -/
def evaluate (known : List (Text × Text)) : List EnvVar → List (Text × Text)
  | [] => known
  | e :: es => evaluate ((e.name, expand (resolve known) e.value) :: known) es

/-! ## The copy -/

/-- `envRxReplace`, which is `\$\(([^)]+)\)`, at the beginning of a text: what
its group matches, and the text after the match. -/
def envRx : Text → Option (Text × Text)
  | c :: d :: cs =>
      if c = '$' ∧ d = '(' then (cutCloser cs).filter fun x => x.1 ≠ [] else none
  | _ => none

/-- The matches in a text, after some characters that are skipped, each as the
text from its beginning and its group. -/
def matchesFrom : Nat → Text → List (Text × Text)
  | _, [] => []
  | skip + 1, _ :: cs => matchesFrom skip cs
  | 0, c :: cs =>
      match envRx (c :: cs) with
      | some (g, _) => (c :: cs, g) :: matchesFrom (g.length + 2) cs
      | none => matchesFrom 0 cs

/-- The matches of `envRxReplace`, each with its key. -/
def rxMatches (cs : Text) : List (Text × Text) := matchesFrom 0 cs

/-- `Regexp.ReplaceAllString` for `envRxReplace`, given the replacement of a
match. -/
def replaceFrom (repl : Text → Text) : Nat → Text → Text
  | _, [] => []
  | skip + 1, _ :: cs => replaceFrom repl skip cs
  | 0, c :: cs =>
      match envRx (c :: cs) with
      | some (g, _) => repl g ++ replaceFrom repl (g.length + 2) cs
      | none => c :: replaceFrom repl 0 cs

/-- Replace every match. -/
def replaceAll (repl : Text → Text) (cs : Text) : Text := replaceFrom repl 0 cs

/-- A character of a name in a template; those outside of ASCII are left out. -/
def isNameRune (c : Char) : Bool := c.isAlphanum || c = '_'

/-- `regexp.extract`: the name after a `$`, and the length of its expression. -/
def extract : Text → Option (Text × Nat)
  | [] => none
  | c :: cs =>
      if c = '{' then
        let name := cs.takeWhile isNameRune
        if name ≠ [] ∧ (cs.drop name.length).head? = some '}' then some (name, name.length + 2)
        else none
      else
        let name := (c :: cs).takeWhile isNameRune
        if name ≠ [] then some (name, name.length) else none

/-- `Regexp.expand`: a template with the names of its groups replaced. -/
def templateFrom (submatch : Text → Text) : Nat → Text → Text
  | _, [] => []
  | skip + 1, _ :: cs => templateFrom submatch skip cs
  | 0, c :: cs =>
      if c = '$' then
        if cs.head? = some '$' then '$' :: templateFrom submatch 1 cs
        else
          match extract cs with
          | none => '$' :: templateFrom submatch 0 cs
          | some (name, k) => submatch name ++ templateFrom submatch k cs
      else c :: templateFrom submatch 0 cs

/-- The groups of a match of `envRxReplace`. -/
def submatch (g name : Text) : Text :=
  if name = ['0'] then verbatim g else if name = ['1'] then g else []

/-- `agentconfig.Container`.  The prefix is made by `CapsBase26`. -/
structure Container where
  name : Text
  envPrefix : Text
  capitals : ∀ c ∈ envPrefix, c.isUpper = true ∨ c = '_' := by decide +kernel
  mounts : GoMap Text MountPolicy := ∅

theorem capitals_of_all {text : Text}
    (h : text.all (fun c => c.isUpper || c == '_') = true) :
    ∀ c ∈ text, c.isUpper = true ∨ c = '_' := by
  intro c hc
  simpa using all_eq_true.mp h c hc

/-- `EnvPrefixApp + cc.EnvPrefix`. -/
def Container.pfx (cc : Container) : Text :=
  ['_', 'T', 'E', 'L', '_', 'A', 'P', 'P', '_'] ++ cc.envPrefix

theorem Container.notMem_pfx (cc : Container) {c : Char} (hc : c.isUpper = false) (hc' : c ≠ '_') :
    c ∉ cc.pfx := by
  intro h
  rcases mem_append.mp h with h | h
  · have hall : ∀ d ∈ ['_', 'T', 'E', 'L', '_', 'A', 'P', 'P', '_'],
        d.isUpper = true ∨ d = '_' := capitals_of_all (by decide)
    rcases hall c h with h | h
    · rw [hc] at h
      cases h
    · exact hc' h
  · rcases cc.capitals c h with h | h
    · rw [hc] at h
      cases h
    · exact hc' h

/-- The template for the replacements. -/
def Container.pfxReplace (cc : Container) : Text :=
  '$' :: '(' :: (cc.pfx ++ ['$', '1', ')'])

/-- The value of a variable with the names in it prefixed. -/
def Container.prefixed (cc : Container) (value : Text) : Text :=
  replaceAll (fun g => templateFrom (submatch g) 0 cc.pfxReplace) value

/-- `appendAppContainerEnv`. -/
def appendAppContainerEnv (env : List EnvVar) (cc : Container) (es : List EnvVar) : List EnvVar :=
  es ++ env.map fun e =>
    { name := cc.pfx ++ e.name
      value := cc.prefixed e.value
      named := List.append_ne_nil_of_right_ne_nil _ e.named
      noEquals := fun h => (List.mem_append.mp h).elim (cc.notMem_pfx (by decide) (by decide)) e.noEquals }

/-! ## What the agent reports -/

/-- `strings.SplitN`, at the first `=`. -/
def splitPair (env : Text) : Option (Text × Text) :=
  if '=' ∈ env then
    some (env.takeWhile (· ≠ '='), (env.dropWhile (· ≠ '=')).tail)
  else none

/-- The variables that are not passed on. -/
def skipKeys : List Text :=
  ["HOME".toList, "PATH".toList, "HOSTNAME".toList, "AGENT_CONFIG".toList]

/-- The mounts with one of the policies, sorted and joined with colons. -/
def joinMounts (mounts : GoMap Text MountPolicy) (policies : List MountPolicy) : Option Text :=
  let paths := (mounts.entries.filter fun e => e.2 ∈ policies).map Sigma.fst
  if paths = [] then none
  else some (([':'] : Text).intercalate (paths.insertionSort fun a b => String.ofList a ≤ String.ofList b))

/-- `AppEnvironment`, given the environment of the agent's process. -/
def appEnvironment (osEnv : List Text) (ag : Container) : GoMap Text Text :=
  let own := osEnv.filter fun env => !("_TEL_".toList.isPrefixOf env || ag.pfx.isPrefixOf env)
  let app := osEnv.filter fun env => ag.pfx.isPrefixOf env
  let fullEnv := GoMap.insertPairs
    ((own.filterMap splitPair).filter fun pair => pair.1 ∉ skipKeys) ∅
  let fullEnv := GoMap.insertPairs
    ((app.filterMap splitPair).map fun pair => (pair.1.drop ag.pfx.length, pair.2)) fullEnv
  let fullEnv := fullEnv.insert "TELEPRESENCE_CONTAINER".toList ag.name
  let fullEnv := match joinMounts ag.mounts [.localOnly] with
    | some paths => fullEnv.insert "TELEPRESENCE_LOCAL_MOUNTS".toList paths
    | none => fullEnv
  match joinMounts ag.mounts [.remote, .remoteReadOnly] with
  | some paths => fullEnv.insert "TELEPRESENCE_MOUNTS".toList paths
  | none => fullEnv

/-! ## The regular expression -/

/-- What the regular expression matches. -/
theorem envRx_eq_some_iff {cs g r : Text} :
    envRx cs = some (g, r) ↔ cs = '$' :: '(' :: (g ++ ')' :: r) ∧ g ≠ [] ∧ ')' ∉ g := by
  constructor
  · intro h
    unfold envRx at h
    split at h
    · split at h
      · rename_i heq
        obtain ⟨rfl, rfl⟩ := heq
        obtain ⟨hcut, hg⟩ := Option.filter_eq_some_iff.mp h
        obtain ⟨rfl, hcloser⟩ := eq_of_cutCloser hcut
        exact ⟨rfl, by simpa using hg, hcloser⟩
      · cases h
    · cases h
  · intro ⟨hcs, hg, hcloser⟩
    subst hcs
    simp [envRx, cutCloser_append hcloser, hg]

theorem envRx_of_ne {c : Char} (hc : c ≠ '$') (cs : Text) : envRx (c :: cs) = none := by
  cases cs with
  | nil => rfl
  | cons d cs => simp [envRx, hc]

theorem envRx_of_ne' {d : Char} (hd : d ≠ '(') (cs : Text) : envRx ('$' :: d :: cs) = none := by
  simp [envRx, hd]

theorem envRx_of_notMem {cs : Text} (h : ')' ∉ cs) : envRx cs = none := by
  cases hrx : envRx cs with
  | none => rfl
  | some x =>
    obtain ⟨heq, _, _⟩ := envRx_eq_some_iff (g := x.1) (r := x.2) |>.mp hrx
    rw [heq] at h
    exact absurd (by simp) h

theorem matchesFrom_eq (k : Nat) (cs : Text) : matchesFrom k cs = rxMatches (cs.drop k) := by
  induction cs generalizing k with
  | nil => simp [rxMatches, matchesFrom]
  | cons c cs ih =>
    cases k with
    | zero => rfl
    | succ k => exact ih k

theorem replaceFrom_eq (repl : Text → Text) (k : Nat) (cs : Text) :
    replaceFrom repl k cs = replaceAll repl (cs.drop k) := by
  induction cs generalizing k with
  | nil => simp [replaceAll, replaceFrom]
  | cons c cs ih =>
    cases k with
    | zero => rfl
    | succ k => exact ih k

theorem rxMatches_of_none {c : Char} {cs : Text} (h : envRx (c :: cs) = none) :
    rxMatches (c :: cs) = rxMatches cs := by
  rw [rxMatches, matchesFrom, h]
  rfl

theorem replaceAll_of_none {repl : Text → Text} {c : Char} {cs : Text}
    (h : envRx (c :: cs) = none) : replaceAll repl (c :: cs) = c :: replaceAll repl cs := by
  rw [replaceAll, replaceFrom, h]
  rfl

section Match

variable {g : Text} (hg : g ≠ []) (hcloser : ')' ∉ g) (r : Text)

include hg hcloser

theorem envRx_match : envRx ('$' :: '(' :: (g ++ ')' :: r)) = some (g, r) :=
  envRx_eq_some_iff.mpr ⟨rfl, hg, hcloser⟩

theorem rxMatches_match :
    rxMatches ('$' :: '(' :: (g ++ ')' :: r)) =
      ('$' :: '(' :: (g ++ ')' :: r), g) :: rxMatches r := by
  have hdrop : ('(' :: (g ++ ')' :: r)).drop (g.length + 2) = r := by simp
  rw [rxMatches, matchesFrom, envRx_match hg hcloser]
  dsimp only
  rw [matchesFrom_eq, hdrop]

theorem replaceAll_match (repl : Text → Text) :
    replaceAll repl ('$' :: '(' :: (g ++ ')' :: r)) = repl g ++ replaceAll repl r := by
  have hdrop : ('(' :: (g ++ ')' :: r)).drop (g.length + 2) = r := by simp
  rw [replaceAll, replaceFrom, envRx_match hg hcloser]
  dsimp only
  rw [replaceFrom_eq, hdrop]

end Match

theorem replaceAll_of_notMem {repl : Text → Text} {cs : Text} (h : ')' ∉ cs) :
    replaceAll repl cs = cs := by
  induction cs with
  | nil => rfl
  | cons c cs ih =>
    rw [replaceAll_of_none (envRx_of_notMem h), ih fun hmem => h (mem_cons_of_mem _ hmem)]

/-- The template gives the reference to the prefixed name. -/
theorem template_eq (cc : Container) (g : Text) :
    templateFrom (submatch g) 0 cc.pfxReplace = verbatim (cc.pfx ++ g) := by
  have hplain : ∀ a : Text, '$' ∉ a → templateFrom (submatch g) 0 (a ++ ['$', '1', ')']) =
      a ++ g ++ [')'] := by
    intro a ha
    induction a with
    | nil => rfl
    | cons c a ih =>
      have hc : c ≠ '$' := fun h => ha (h ▸ mem_cons_self)
      rw [cons_append, templateFrom, if_neg hc, ih fun h => ha (mem_cons_of_mem _ h)]
      rfl
  have hpfx : '$' ∉ '(' :: cc.pfx := by
    intro h
    rcases mem_cons.mp h with h | h
    · cases h
    · exact cc.notMem_pfx (by decide) (by decide) h
  have hopen : templateFrom (submatch g) 0 cc.pfxReplace =
      '$' :: templateFrom (submatch g) 0 ('(' :: cc.pfx ++ ['$', '1', ')']) := rfl
  rw [hopen, hplain _ hpfx, verbatim]
  rfl

/-! ## One value -/

theorem verbatim_append (n cs : Text) : verbatim n ++ cs = '$' :: '(' :: (n ++ ')' :: cs) := by
  simp [verbatim]

theorem prefixed_of_none (cc : Container) {c : Char} {cs : Text} (h : envRx (c :: cs) = none) :
    cc.prefixed (c :: cs) = c :: cc.prefixed cs :=
  replaceAll_of_none h

theorem prefixed_match (cc : Container) {g : Text} (hg : g ≠ []) (hcloser : ')' ∉ g) (r : Text) :
    cc.prefixed ('$' :: '(' :: (g ++ ')' :: r)) =
      '$' :: '(' :: ((cc.pfx ++ g) ++ ')' :: cc.prefixed r) := by
  rw [Container.prefixed, replaceAll_match hg hcloser, template_eq, verbatim_append]
  rfl

/-- Each match in the value is a reference to an earlier variable. -/
def Refers (earlier : List Text) (v : Text) : Prop :=
  ∀ s g, (s, g) ∈ rxMatches v → (s, .reference g) ∈ parts v ∧ g ∈ earlier

/-- A reference starts inside a match. -/
def Swallows (v : Text) : Prop :=
  ∃ s g t n, (s, g) ∈ rxMatches v ∧ (t, .reference n) ∈ parts v ∧
    t.length < s.length ∧ s.length < t.length + (g.length + 3)

/-- `r` is what follows the first part of `v`. -/
structure Rest (v r : Text) : Prop where
  lt : r.length < v.length
  parts : ∃ p, parts v = (v, p) :: parts r

/-- **What happens to the beginning of a value.**  It stays, it is a reference
and gets the prefix, or it is an escaped `$` that the regular expression takes
for the beginning of a reference. -/
inductive Copy (cc : Container) (m m' : Text → Text) (v : Text) : Prop where
  | nil (hv : v = [])
  | same (r a : Text) (hrest : Rest v r) (hrx : rxMatches v = rxMatches r)
      (hv : expand m v = a ++ expand m r)
      (hv' : expand m' (cc.prefixed v) = a ++ expand m' (cc.prefixed r))
  | reference (r n : Text) (hrest : Rest v r) (hrx : rxMatches v = (v, n) :: rxMatches r)
      (href : (v, .reference n) ∈ parts v) (hv : expand m v = m n ++ expand m r)
      (hv' : expand m' (cc.prefixed v) = m' (cc.pfx ++ n) ++ expand m' (cc.prefixed r))
  | escaped (s g r : Text) (hs : s.length + 1 = v.length) (hr : s.length = r.length + (g.length + 3))
      (hrx : rxMatches v = (s, g) :: rxMatches r) (hparts : ∀ p, (s, p) ∉ parts v)
      (hv : (∀ t n, (t, .reference n) ∈ parts v → t.length < s.length → t.length ≤ r.length) →
        parts r <:+ parts v ∧ ∃ a b, expand m v = a ++ (b ++ expand m r) ∧
          expand m' (cc.prefixed v) = a ++ (cc.pfx ++ (b ++ expand m' (cc.prefixed r))))

/-- The escaped `$` at the beginning, with a match after it. -/
theorem copy_escaped (cc : Container) (m m' : Text → Text) {g : Text} (hg : g ≠ [])
    (hcloser : ')' ∉ g) (r : Text) :
    Copy cc m m' ('$' :: '$' :: '(' :: (g ++ ')' :: r)) := by
  have hparts : parts ('$' :: '$' :: '(' :: (g ++ ')' :: r)) =
      ('$' :: '$' :: '(' :: (g ++ ')' :: r), .escaped) ::
        ('(' :: (g ++ ')' :: r), .plain '(') :: parts (g ++ ')' :: r) := by
    rw [parts_escaped, parts_plain (by decide)]
  refine .escaped ('$' :: '(' :: (g ++ ')' :: r)) g r rfl (by simp; omega) ?_ ?_ ?_
  · rw [rxMatches_of_none (envRx_of_ne' (by decide) _), rxMatches_match hg hcloser]
  · intro p hmem
    rw [hparts, mem_cons, mem_cons] at hmem
    rcases hmem with hmem | hmem | hmem
    · have hlen := congrArg (fun x => x.1.length) hmem
      simp at hlen
    · cases hmem
    · have hlen := length_le_of_mem_parts hmem
      simp only [length_cons, length_append] at hlen
      omega
  · intro hnone
    have hnone' : ∀ t n, (t, .reference n) ∈ parts (g ++ ')' :: r) → t.length ≤ r.length := by
      intro t n hmem
      have hlen := length_le_of_mem_parts hmem
      refine hnone t n ?_ ?_
      · rw [hparts]
        exact mem_cons_of_mem _ (mem_cons_of_mem _ hmem)
      · simp only [length_cons, length_append] at hlen ⊢
        omega
    obtain ⟨u, hu⟩ := exists_expand_eq hcloser hnone'
    have hpfx : '$' ∉ cc.pfx := cc.notMem_pfx (by decide) (by decide)
    refine ⟨?_, ['$', '('], u ++ [')'], ?_, ?_⟩
    · rw [hparts]
      exact ((hu r).2.trans (suffix_cons _ _)).trans (suffix_cons _ _)
    · rw [expand_escaped, expand_plain m (by decide), (hu r).1]
      simp
    · rw [prefixed_of_none cc (envRx_of_ne' (by decide) _), prefixed_match cc hg hcloser,
        expand_escaped, expand_plain m' (by decide), append_assoc,
        expand_append_of_notMem m' hpfx, (hu _).1]
      simp

theorem copy_cases (cc : Container) {m m' : Text → Text} (hempty : m' [] = m []) (v : Text) :
    Copy cc m m' v := by
  cases view v with
  | nil => exact .nil rfl
  | dollar => exact .same [] ['$'] ⟨by simp, _, rfl⟩ rfl rfl rfl
  | escaped cs =>
    cases hrx : envRx ('$' :: cs) with
    | some x =>
      obtain ⟨heq, hg, hcloser⟩ := envRx_eq_some_iff (g := x.1) (r := x.2) |>.mp hrx
      cases heq
      exact copy_escaped cc m m' hg hcloser x.2
    | none =>
      have hrx' := envRx_of_ne' (d := '$') (by decide) cs
      refine .same cs ['$'] ⟨by simp only [length_cons]; omega, _, rfl⟩ ?_ rfl ?_
      · rw [rxMatches_of_none hrx', rxMatches_of_none hrx]
      · rw [prefixed_of_none cc hrx', prefixed_of_none cc hrx]
        rfl
  | reference n r hn =>
    have hrest : Rest ('$' :: '(' :: (n ++ ')' :: r)) r :=
      ⟨by simp; omega, _, parts_reference hn r⟩
    by_cases hnil : n = []
    · -- the regular expression wants a name
      subst hnil
      have hrx : envRx ('$' :: '(' :: ')' :: r) = none := by simp [envRx, cutCloser]
      have hopen := envRx_of_ne (c := '(') (by decide) (')' :: r)
      have hclose := envRx_of_ne (c := ')') (by decide) r
      refine .same r (m []) hrest ?_ (expand_reference m hn r) ?_
      · rw [nil_append, rxMatches_of_none hrx, rxMatches_of_none hopen,
          rxMatches_of_none hclose]
      · rw [nil_append, prefixed_of_none cc hrx, prefixed_of_none cc hopen,
          prefixed_of_none cc hclose, ← hempty]
        exact expand_reference m' hn _
    · refine .reference r n hrest (rxMatches_match hnil hn r) ?_ (expand_reference m hn r) ?_
      · rw [parts_reference hn]
        exact mem_cons_self
      · have hn' : ')' ∉ cc.pfx ++ n := fun h =>
          (mem_append.mp h).elim (cc.notMem_pfx (by decide) (by decide)) hn
        rw [prefixed_match cc hnil hn, expand_reference m' hn']
  | opener cs hcs =>
    have hv : ')' ∉ '$' :: '(' :: cs := by simp [hcs]
    have hv' : ')' ∉ '(' :: cs := by simp [hcs]
    refine .same cs ['$', '('] ⟨by simp only [length_cons]; omega, _, parts_opener hcs⟩
      ?_ (expand_opener m hcs) ?_
    · rw [rxMatches_of_none (envRx_of_notMem hv), rxMatches_of_none (envRx_of_notMem hv')]
    · have hsame : cc.prefixed cs = cs := replaceAll_of_notMem hcs
      rw [prefixed_of_none cc (envRx_of_notMem hv), prefixed_of_none cc (envRx_of_notMem hv'),
        hsame]
      exact expand_opener m' hcs
  | pair d cs hd hd' =>
    refine .same cs ['$', d] ⟨by simp only [length_cons]; omega, _, parts_pair hd hd' cs⟩
      ?_ (expand_pair m hd hd' cs) ?_
    · rw [rxMatches_of_none (envRx_of_ne' hd' cs), rxMatches_of_none (envRx_of_ne hd cs)]
    · rw [prefixed_of_none cc (envRx_of_ne' hd' cs), prefixed_of_none cc (envRx_of_ne hd cs)]
      exact expand_pair m' hd hd' _
  | plain c cs hc =>
    refine .same cs [c] ⟨by simp, _, parts_plain hc cs⟩ (rxMatches_of_none (envRx_of_ne hc cs))
      (expand_plain m hc cs) ?_
    rw [prefixed_of_none cc (envRx_of_ne hc cs)]
    exact expand_plain m' hc _

theorem length_le_of_mem_rxMatches {cs s g : Text} (h : (s, g) ∈ rxMatches cs) :
    s.length ≤ cs.length := by
  cases cs with
  | nil => simp [rxMatches, matchesFrom] at h
  | cons c cs =>
    cases hrx : envRx (c :: cs) with
    | none =>
      rw [rxMatches_of_none hrx] at h
      have := length_le_of_mem_rxMatches h
      simp only [length_cons]
      omega
    | some x =>
      obtain ⟨heq, hg, hcloser⟩ := envRx_eq_some_iff (g := x.1) (r := x.2) |>.mp hrx
      cases heq
      rw [rxMatches_match hg hcloser] at h
      rcases mem_cons.mp h with heq | h
      · cases heq
        exact le_rfl
      · have := length_le_of_mem_rxMatches h
        simp only [length_cons, length_append]
        omega
termination_by cs.length

/-- The references of the value are those after its beginning too. -/
theorem Refers.rest {earlier : List Text} {v r : Text} (h : Refers earlier v) (hrest : Rest v r)
    (hsub : ∀ x ∈ rxMatches r, x ∈ rxMatches v) : Refers earlier r := by
  intro s g hmem
  obtain ⟨href, hearlier⟩ := h s g (hsub _ hmem)
  obtain ⟨p, hp⟩ := hrest.parts
  rw [hp] at href
  rcases mem_cons.mp href with heq | href
  · cases heq
    have := length_le_of_mem_rxMatches hmem
    have := hrest.lt
    omega
  · exact ⟨href, hearlier⟩

theorem Swallows.of_rest {v r : Text} (h : Swallows r)
    (hsub : ∀ x ∈ rxMatches r, x ∈ rxMatches v) (hparts : parts r <:+ parts v) : Swallows v := by
  obtain ⟨s, g, t, n, hs, ht, hlen⟩ := h
  exact ⟨s, g, t, n, hsub _ hs, hparts.subset ht, hlen⟩

/-- The values of the references in the original and in the copy. -/
structure Renames (pfx : Text) (earlier : List Text) (m m' : Text → Text) : Prop where
  known : ∀ n ∈ earlier, m' (pfx ++ n) = m n
  unknown : ∀ n, n ∉ earlier → m n = verbatim n ∧ m' (pfx ++ n) = verbatim (pfx ++ n)
  empty : m' [] = m []

/-- References to earlier variables are copied. -/
theorem expand_prefixed {cc : Container} {earlier : List Text} {m m' : Text → Text}
    (hm : Renames cc.pfx earlier m m') {v : Text} (h : Refers earlier v) :
    expand m' (cc.prefixed v) = expand m v := by
  cases copy_cases cc hm.empty v with
  | nil hv =>
    subst hv
    rfl
  | same r a hrest hrx hv hv' =>
    have := hrest.lt
    rw [hv, hv', expand_prefixed hm (h.rest hrest fun x hx => hrx ▸ hx)]
  | reference r n hrest hrx href hv hv' =>
    have := hrest.lt
    obtain ⟨_, hearlier⟩ := h v n (hrx ▸ mem_cons_self)
    rw [hv, hv', hm.known n hearlier,
      expand_prefixed hm (h.rest hrest fun x hx => hrx ▸ mem_cons_of_mem _ hx)]
  | escaped s g r hs hr hrx hparts hv =>
    exact absurd (h s g (hrx ▸ mem_cons_self)).1 (hparts _)
termination_by v.length

/-- The copy is never shorter, and it is longer for each match that is not a
reference to an earlier variable. -/
theorem refers_of_length {cc : Container} {earlier : List Text} {m m' : Text → Text}
    (hm : Renames cc.pfx earlier m m') {v : Text} (h : ¬ Swallows v) :
    (expand m v).length ≤ (expand m' (cc.prefixed v)).length ∧
      ((expand m' (cc.prefixed v)).length ≤ (expand m v).length → Refers earlier v) := by
  have hpfx : 0 < cc.pfx.length := by simp [Container.pfx]
  cases copy_cases cc hm.empty v with
  | nil hv =>
    subst hv
    exact ⟨le_rfl, fun _ s g hmem => absurd hmem not_mem_nil⟩
  | same r a hrest hrx hv hv' =>
    have := hrest.lt
    obtain ⟨p, hp⟩ := hrest.parts
    obtain ⟨hle, hrefers⟩ := refers_of_length hm (v := r) fun hr =>
      h (hr.of_rest (fun x hx => hrx ▸ hx) (hp ▸ suffix_cons _ _))
    rw [hv, hv', length_append, length_append]
    refine ⟨by omega, ?_⟩
    intro hlen s g hmem
    rw [hrx] at hmem
    obtain ⟨href, hearlier⟩ := hrefers (by omega) s g hmem
    exact ⟨hp ▸ mem_cons_of_mem _ href, hearlier⟩
  | reference r n hrest hrx href hv hv' =>
    have := hrest.lt
    obtain ⟨p, hp⟩ := hrest.parts
    obtain ⟨hle, hrefers⟩ := refers_of_length hm (v := r) fun hr =>
      h (hr.of_rest (fun x hx => hrx ▸ mem_cons_of_mem _ hx) (hp ▸ suffix_cons _ _))
    rw [hv, hv', length_append, length_append]
    by_cases hn : n ∈ earlier
    · rw [hm.known n hn]
      refine ⟨by omega, ?_⟩
      intro hlen s g hmem
      rw [hrx] at hmem
      rcases mem_cons.mp hmem with heq | hmem
      · cases heq
        exact ⟨href, hn⟩
      · obtain ⟨href', hearlier⟩ := hrefers (by omega) s g hmem
        exact ⟨hp ▸ mem_cons_of_mem _ href', hearlier⟩
    · obtain ⟨hvalue, hvalue'⟩ := hm.unknown n hn
      have hlen : (m' (cc.pfx ++ n)).length = (m n).length + cc.pfx.length := by
        rw [hvalue, hvalue']
        simp only [verbatim, length_cons, length_append, length_nil]
        omega
      exact ⟨by omega, fun hlt => absurd hlt (by omega)⟩
  | escaped s g r hs hr hrx hparts hv =>
    have hnone : ∀ t n, (t, .reference n) ∈ parts v → t.length < s.length →
        t.length ≤ r.length := by
      intro t n ht hlt
      by_contra hgt
      exact h ⟨s, g, t, n, hrx ▸ mem_cons_self, ht, hlt, by omega⟩
    obtain ⟨hsuffix, a, b, hvalue, hvalue'⟩ := hv hnone
    obtain ⟨hle, _⟩ := refers_of_length hm (v := r) fun hswallows =>
      h (hswallows.of_rest (fun x hx => hrx ▸ mem_cons_of_mem _ hx) hsuffix)
    rw [hvalue, hvalue']
    simp only [length_append]
    exact ⟨by omega, fun hlt => absurd hlt (by omega)⟩
termination_by v.length

/-! ## The whole environment -/

/-- A variable under its name in the copy. -/
def Container.rename (cc : Container) (x : Text × Text) : Text × Text := (cc.pfx ++ x.1, x.2)

/-- Each match in a value is a reference to an earlier variable. -/
def RefersAll (earlier : List Text) : List EnvVar → Prop
  | [] => True
  | e :: es => Refers earlier e.value ∧ RefersAll (e.name :: earlier) es

theorem evaluate_append (known : List (Text × Text)) (es es' : List EnvVar) :
    evaluate known (es ++ es') = evaluate (evaluate known es) es' := by
  induction es generalizing known with
  | nil => rfl
  | cons e es ih => exact ih _

/-- The variables that were known stay. -/
theorem exists_evaluate_eq (known : List (Text × Text)) (es : List EnvVar) :
    ∃ new, evaluate known es = new ++ known ∧ new.length = es.length ∧
      ∀ x ∈ new, ∃ e ∈ es, e.name = x.1 := by
  induction es generalizing known with
  | nil => exact ⟨[], rfl, rfl, fun x hx => absurd hx not_mem_nil⟩
  | cons e es ih =>
    obtain ⟨new, heq, hlen, hnames⟩ := ih ((e.name, expand (resolve known) e.value) :: known)
    refine ⟨new ++ [(e.name, expand (resolve known) e.value)], ?_, ?_, ?_⟩
    · rw [evaluate, heq, append_assoc]
      rfl
    · simp [hlen]
    · intro x hx
      rcases mem_append.mp hx with hx | hx
      · obtain ⟨e', he', hname⟩ := hnames x hx
        exact ⟨e', mem_cons_of_mem _ he', hname⟩
      · rw [mem_singleton.mp hx]
        exact ⟨e, mem_cons_self, rfl⟩

theorem exists_of_mem_evaluate {es : List EnvVar} {x : Text × Text} (h : x ∈ evaluate [] es) :
    ∃ e ∈ es, e.name = x.1 := by
  obtain ⟨new, heq, _, hnames⟩ := exists_evaluate_eq [] es
  rw [heq, append_nil] at h
  exact hnames x h

theorem lookup_eq_none_iff {known : List (Text × Text)} {n : Text} :
    known.lookup n = none ↔ n ∉ known.map Prod.fst := by
  simp only [List.lookup_eq_none_iff, List.mem_map, not_exists, not_and, bne_iff_ne]
  constructor
  all_goals
    intro h x hx heq
    exact h x hx heq.symm

/-- The prefixed names are looked up among the prefixed variables. -/
theorem lookup_rename (cc : Container) {known others : List (Text × Text)} (n : Text)
    (hothers : ∀ x ∈ others, ¬ cc.pfx <+: x.1) :
    (known.map cc.rename ++ others).lookup (cc.pfx ++ n) = known.lookup n := by
  induction known with
  | nil =>
    rw [map_nil, nil_append, lookup_nil, lookup_eq_none_iff]
    intro h
    obtain ⟨x, hx, heq⟩ := mem_map.mp h
    exact hothers x hx (heq ▸ prefix_append _ _)
  | cons x known ih =>
    rw [map_cons, cons_append, lookup_cons, lookup_cons, ih]
    have hbeq : (cc.pfx ++ n == (cc.rename x).1) = (n == x.1) := by
      rw [Bool.eq_iff_iff, beq_iff_eq, beq_iff_eq]
      exact append_right_inj _
    rw [hbeq]
    rfl

theorem renames_resolve (cc : Container) {known others : List (Text × Text)}
    (hknown : ∀ x ∈ known, x.1 ≠ []) (hothers : ∀ x ∈ others, ¬ cc.pfx <+: x.1)
    (hnamed : ∀ x ∈ others, x.1 ≠ []) :
    Renames cc.pfx (known.map Prod.fst) (resolve known)
      (resolve (known.map cc.rename ++ others)) := by
  refine ⟨?_, ?_, ?_⟩
  · intro n hn
    rw [resolve, resolve, lookup_rename cc n hothers]
    cases hlookup : known.lookup n with
    | none => exact absurd hn (lookup_eq_none_iff.mp hlookup)
    | some v => rfl
  · intro n hn
    rw [resolve, resolve, lookup_rename cc n hothers, lookup_eq_none_iff.mpr hn]
    exact ⟨rfl, rfl⟩
  · have hnone : known.lookup [] = none := by
      rw [lookup_eq_none_iff]
      intro h
      obtain ⟨x, hx, heq⟩ := mem_map.mp h
      exact hknown x hx heq
    have hnone' : (known.map cc.rename ++ others).lookup [] = none := by
      rw [lookup_eq_none_iff]
      intro h
      obtain ⟨x, hx, heq⟩ := mem_map.mp h
      rcases mem_append.mp hx with hx | hx
      · obtain ⟨y, _, rfl⟩ := mem_map.mp hx
        simp [Container.rename, Container.pfx] at heq
      · exact hnamed x hx heq
    rw [resolve, resolve, hnone, hnone']

section Copy

variable {cc : Container} {others : List (Text × Text)} (hothers : ∀ x ∈ others, ¬ cc.pfx <+: x.1)
  (hnamed : ∀ x ∈ others, x.1 ≠ [])

include hothers hnamed

/-- The variables of the copy, one after the other. -/
theorem evaluate_copy {known : List (Text × Text)} (hknown : ∀ x ∈ known, x.1 ≠ [])
    {env : List EnvVar} (h : RefersAll (known.map Prod.fst) env) :
    evaluate (known.map cc.rename ++ others) (appendAppContainerEnv env cc []) =
      (evaluate known env).map cc.rename ++ others := by
  induction env generalizing known with
  | nil => rfl
  | cons e env ih =>
    obtain ⟨hrefers, hrest⟩ := h
    have hvalue := expand_prefixed (renames_resolve cc hknown hothers hnamed) hrefers
    have hknown' : ∀ x ∈ (e.name, expand (resolve known) e.value) :: known, x.1 ≠ [] :=
      forall_mem_cons.mpr ⟨e.named, hknown⟩
    have hstep := ih hknown' hrest
    rw [evaluate, ← hstep, ← hvalue]
    rfl

theorem refersAll_of_evaluate {known : List (Text × Text)} (hknown : ∀ x ∈ known, x.1 ≠ [])
    {env : List EnvVar} (hswallows : ∀ e ∈ env, ¬ Swallows e.value)
    (h : evaluate (known.map cc.rename ++ others) (appendAppContainerEnv env cc []) =
      (evaluate known env).map cc.rename ++ others) :
    RefersAll (known.map Prod.fst) env := by
  induction env generalizing known with
  | nil => trivial
  | cons e env ih =>
    have hm := renames_resolve cc hknown hothers hnamed
    -- the value of the variable itself, in the original and in the copy
    obtain ⟨new, hnew, hlen, _⟩ :=
      exists_evaluate_eq ((e.name, expand (resolve known) e.value) :: known) env
    obtain ⟨new', hnew', hlen', _⟩ := exists_evaluate_eq
      ((cc.pfx ++ e.name, expand (resolve (known.map cc.rename ++ others)) (cc.prefixed e.value)) ::
        (known.map cc.rename ++ others)) (appendAppContainerEnv env cc [])
    have hlength : (appendAppContainerEnv env cc []).length = env.length := by
      simp [appendAppContainerEnv]
    have heq : new' ++ (cc.pfx ++ e.name,
        expand (resolve (known.map cc.rename ++ others)) (cc.prefixed e.value)) ::
          (known.map cc.rename ++ others) =
        new.map cc.rename ++ cc.rename (e.name, expand (resolve known) e.value) ::
          (known.map cc.rename ++ others) := by
      have hcopy := hnew'.symm.trans (h.trans (by rw [evaluate, hnew]))
      rw [hcopy]
      simp
    obtain ⟨_, hhead⟩ := append_inj heq (by rw [hlen', hlength, length_map, hlen])
    have hvalue : expand (resolve (known.map cc.rename ++ others)) (cc.prefixed e.value) =
        expand (resolve known) e.value := congrArg Prod.snd (cons_eq_cons.mp hhead).1
    refine ⟨(refers_of_length hm (hswallows e mem_cons_self)).2 (by rw [hvalue]), ?_⟩
    have hknown' : ∀ x ∈ (e.name, expand (resolve known) e.value) :: known, x.1 ≠ [] :=
      forall_mem_cons.mpr ⟨e.named, hknown⟩
    refine ih hknown' (fun e' he' => hswallows e' (mem_cons_of_mem _ he')) ?_
    rw [← evaluate, ← h, ← hvalue]
    rfl

end Copy

/-! ## The agent's report -/

/-- The names that `AppEnvironment` gives values of its own. -/
def Container.Overwrites (ag : Container) (n : Text) : Prop :=
  n = "TELEPRESENCE_CONTAINER".toList ∨
    n = "TELEPRESENCE_LOCAL_MOUNTS".toList ∧ (joinMounts ag.mounts [.localOnly]).isSome ∨
    n = "TELEPRESENCE_MOUNTS".toList ∧ (joinMounts ag.mounts [.remote, .remoteReadOnly]).isSome

/-- The process of the agent has the variables of the container. -/
def Carries (osEnv : List Text) (cc : Container) (vars : List (Text × Text)) : Prop :=
  ∀ env, cc.pfx <+: env →
    (env ∈ osEnv ↔ ∃ n v, vars.lookup (cc.pfx ++ n) = some v ∧ env = cc.pfx ++ n ++ '=' :: v)

theorem splitPair_append {k : Text} (hk : '=' ∉ k) (v : Text) :
    splitPair (k ++ '=' :: v) = some (k, v) := by
  have htake : (k ++ '=' :: v).takeWhile (· ≠ '=') = k := by
    rw [takeWhile_append_of_pos fun c hc => by simpa using fun h : c = '=' => hk (h ▸ hc)]
    simp
  have hdrop : (k ++ '=' :: v).dropWhile (· ≠ '=') = '=' :: v := by
    rw [dropWhile_append_of_pos fun c hc => by simpa using fun h : c = '=' => hk (h ▸ hc)]
    simp
  rw [splitPair, if_pos (by simp), htake, hdrop]
  rfl

theorem mem_of_lookup {vars : List (Text × Text)} {n v : Text} (h : vars.lookup n = some v) :
    ∃ x ∈ vars, x.1 = n := by
  by_contra hnone
  have hmem : n ∉ vars.map Prod.fst := by
    intro hn
    obtain ⟨x, hx, heq⟩ := mem_map.mp hn
    exact hnone ⟨x, hx, heq⟩
  rw [lookup_eq_none_iff.mpr hmem] at h
  cases h

/-- The pairs that the second loop of `AppEnvironment` stores. -/
def ownVars (osEnv : List Text) (ag : Container) : List (Text × Text) :=
  ((osEnv.filter fun env => ag.pfx.isPrefixOf env).filterMap splitPair).map
    fun pair => (pair.1.drop ag.pfx.length, pair.2)

theorem lookup_of_mem_ownVars {osEnv : List Text} {ag : Container} {n v : Text}
    (h : ∀ v', (n, v') ∈ ownVars osEnv ag ↔ v' = v) (hn : ¬ ag.Overwrites n) :
    (appEnvironment osEnv ag).lookup n = some v := by
  simp only [Container.Overwrites, not_or, not_and] at hn
  obtain ⟨hcontainer, hlocal, hremote⟩ := hn
  have hinsert : ∀ (m : GoMap Text Text) (k : Text) (paths : Option Text),
      (n = k → ¬ paths.isSome = true) →
        (match paths with | some p => m.insert k p | none => m).lookup n = m.lookup n := by
    intro m k paths hne
    cases paths with
    | none => rfl
    | some p =>
      rw [GoMap.lookup_insert_eq, if_neg fun heq => hne heq rfl]
  simp only [appEnvironment]
  refine (hinsert _ _ _ hremote).trans ((hinsert _ _ _ hlocal).trans ?_)
  rw [GoMap.lookup_insert_eq, if_neg hcontainer]
  exact GoMap.lookup_insertPairs_of_mem ((h v).mpr rfl) (fun v' hv' => (h v').mp hv') _

/-- `AppEnvironment` reports what the process has under the prefix. -/
theorem lookup_appEnvironment {osEnv : List Text} {cc : Container} {vars : List (Text × Text)}
    (hcarries : Carries osEnv cc vars) (hequals : ∀ x ∈ vars, '=' ∉ x.1) {n v : Text}
    (h : vars.lookup (cc.pfx ++ n) = some v) (hn : ¬ cc.Overwrites n) :
    (appEnvironment osEnv cc).lookup n = some v := by
  have hkey : ∀ n v, vars.lookup (cc.pfx ++ n) = some v → '=' ∉ cc.pfx ++ n := by
    intro n v hlookup
    obtain ⟨x, hx, heq⟩ := mem_of_lookup hlookup
    rw [← heq]
    exact hequals x hx
  refine lookup_of_mem_ownVars (fun v' => ?_) hn
  simp only [ownVars, mem_map, mem_filterMap, mem_filter, isPrefixOf_iff_prefix]
  constructor
  · intro ⟨pair, ⟨env, ⟨hmem, hprefix⟩, hsplit⟩, heq⟩
    obtain ⟨n', v'', hlookup, rfl⟩ := (hcarries env hprefix).mp hmem
    rw [splitPair_append (hkey n' v'' hlookup)] at hsplit
    cases hsplit
    simp only [drop_left, Prod.mk.injEq] at heq
    obtain ⟨rfl, rfl⟩ := heq
    rw [h] at hlookup
    exact (Option.some.inj hlookup).symm
  · intro heq
    subst heq
    have hprefix : cc.pfx <+: cc.pfx ++ n ++ '=' :: v' := by
      rw [append_assoc]
      exact prefix_append _ _
    exact ⟨(cc.pfx ++ n, v'), ⟨_, ⟨(hcarries _ hprefix).mpr ⟨n, v', h, rfl⟩, hprefix⟩,
      splitPair_append (hkey n v' h) v'⟩, by simp⟩

/-- The copy has the values of the original, and `AppEnvironment` reports
them. -/
structure SameEnvironment (env : List EnvVar) (cc : Container) (es : List EnvVar) : Prop where
  values : evaluate [] (appendAppContainerEnv env cc es) =
    (evaluate [] env).map cc.rename ++ evaluate [] es
  reported : ∀ osEnv, Carries osEnv cc (evaluate [] (appendAppContainerEnv env cc es)) →
    ∀ n v, (evaluate [] env).lookup n = some v → ¬ cc.Overwrites n →
      (appEnvironment osEnv cc).lookup n = some v

theorem evaluate_appendAppContainerEnv (env : List EnvVar) (cc : Container) (es : List EnvVar) :
    evaluate [] (appendAppContainerEnv env cc es) =
      evaluate ([].map cc.rename ++ evaluate [] es) (appendAppContainerEnv env cc []) :=
  evaluate_append [] es _

/-- **The copy.**  If each match in a value is a reference to an earlier
variable, then the copy has the values of the original.  If moreover no
reference starts inside a match, then this is the only way. -/
theorem app_environment_copied (env : List EnvVar) (cc : Container) (es : List EnvVar)
    (hes : ∀ e ∈ es, ¬ cc.pfx <+: e.name) :
    (RefersAll [] env → SameEnvironment env cc es) ∧
      ((∀ e ∈ env, ¬ Swallows e.value) → SameEnvironment env cc es → RefersAll [] env) := by
  have hothers : ∀ x ∈ evaluate [] es, ¬ cc.pfx <+: x.1 := by
    intro x hx
    obtain ⟨e, he, hname⟩ := exists_of_mem_evaluate hx
    rw [← hname]
    exact hes e he
  have hnamed : ∀ x ∈ evaluate [] es, x.1 ≠ [] := by
    intro x hx
    obtain ⟨e, _, hname⟩ := exists_of_mem_evaluate hx
    rw [← hname]
    exact e.named
  constructor
  · intro hrefers
    have hvalues : evaluate [] (appendAppContainerEnv env cc es) =
        (evaluate [] env).map cc.rename ++ evaluate [] es := by
      rw [evaluate_appendAppContainerEnv]
      exact evaluate_copy hothers hnamed (forall_mem_nil _) hrefers
    refine ⟨hvalues, ?_⟩
    intro osEnv hcarries n v hlookup hn
    refine lookup_appEnvironment hcarries ?_ ?_ hn
    · intro x hx
      obtain ⟨e, _, hname⟩ := exists_of_mem_evaluate hx
      rw [← hname]
      exact e.noEquals
    · rw [hvalues, lookup_rename cc n hothers]
      exact hlookup
  · intro hswallows hsame
    refine refersAll_of_evaluate hothers hnamed (forall_mem_nil _) hswallows ?_
    rw [← evaluate_appendAppContainerEnv]
    exact hsame.values

/-! ## Two environments -/

/-- The container of the workload `echo`. -/
def echoContainer : Container where
  name := "app".toList
  envPrefix := "A_".toList
  capitals := capitals_of_all (by decide +kernel)

/-- A variable that refers to an earlier one. -/
def greeting : List EnvVar :=
  [{ name := "NAME".toList, value := "world".toList },
   { name := "GREETING".toList, value := "hello $(NAME)".toList }]

theorem app_environment_copied_greeting :
    (∀ e ∈ ([] : List EnvVar), ¬ echoContainer.pfx <+: e.name) ∧
      SameEnvironment greeting echoContainer [] := by
  refine ⟨forall_mem_nil _, (app_environment_copied greeting echoContainer []
    (forall_mem_nil _)).1 ⟨?_, ?_, trivial⟩⟩
  · intro s g hmem
    have hnone : rxMatches "world".toList = [] := by decide +kernel
    rw [hnone] at hmem
    exact absurd hmem not_mem_nil
  · intro s g hmem
    have hone : rxMatches "hello $(NAME)".toList = [("$(NAME)".toList, "NAME".toList)] := by decide +kernel
    rw [hone] at hmem
    obtain ⟨hs, hg⟩ := Prod.mk.inj (mem_singleton.mp hmem)
    rw [hs, hg]
    exact ⟨by decide +kernel, by decide +kernel⟩

/-- **An escaped dollar.**  The value of the variable is `cost: $(PRICE)` in the
app container and has the prefix in the agent. -/
theorem escaped_dollar_prefixed :
    evaluate [] [{ name := "TEXT".toList, value := "cost: $$(PRICE)".toList }] =
        [("TEXT".toList, "cost: $(PRICE)".toList)] ∧
      evaluate [] (appendAppContainerEnv
          [{ name := "TEXT".toList, value := "cost: $$(PRICE)".toList }] echoContainer []) =
        [("_TEL_APP_A_TEXT".toList, "cost: $(_TEL_APP_A_PRICE)".toList)] ∧
      ¬ SameEnvironment [{ name := "TEXT".toList, value := "cost: $$(PRICE)".toList }]
        echoContainer [] := by
  have hcopy : evaluate [] (appendAppContainerEnv
      [{ name := "TEXT".toList, value := "cost: $$(PRICE)".toList }] echoContainer []) =
      [("_TEL_APP_A_TEXT".toList, "cost: $(_TEL_APP_A_PRICE)".toList)] := by decide +kernel
  refine ⟨by decide +kernel, hcopy, ?_⟩
  intro hsame
  have hvalues := hsame.values
  rw [hcopy] at hvalues
  exact absurd hvalues (by decide +kernel)

/-! ## Several containers -/

/-- The loop of `addBase26`, with the room that is left in its buffer; an index
out of range is `none`. -/
def addBase26Loop (c : Char) : Nat → Nat → Text → Option Text
  | 0, _, _ => none
  | i + 1, v, b =>
      let b := Char.ofNat (c.toNat + v % 26) :: b
      if v < 26 then some b else addBase26Loop c i (v / 26) b

theorem addBase26Loop_eq {n v : Nat} (h : v < 26 ^ (n + 1)) (c : Char) (b : Text) :
    addBase26Loop c (n + 1) v b = some (addBase26 c (n + 1) v ++ b) := by
  induction n generalizing v b with
  | zero =>
    have hv : v < 26 := by simpa using h
    simp [addBase26Loop, addBase26, hv]
  | succ n ih =>
    rw [addBase26Loop, addBase26]
    split
    · rfl
    · rw [ih (by omega)]
      simp

theorem digit_spec (v : Nat) : (Char.ofNat ('A'.toNat + v % 26)).toNat = 65 + v % 26 ∧
    (Char.ofNat ('A'.toNat + v % 26)).isUpper = true := by
  have hall : ∀ d < 26, (Char.ofNat ('A'.toNat + d)).toNat = 65 + d ∧
      (Char.ofNat ('A'.toNat + d)).isUpper = true := by decide
  exact hall _ (Nat.mod_lt v (by decide))

theorem isUpper_of_mem_addBase26 {n v : Nat} {c : Char} (h : c ∈ addBase26 'A' n v) :
    c.isUpper = true := by
  induction n generalizing v with
  | zero => cases h
  | succ n ih =>
    rw [addBase26, mem_append, mem_singleton] at h
    rcases h with h | rfl
    · split at h
      · cases h
      · exact ih h
    · exact (digit_spec v).2

/-- The number can be read off its digits. -/
theorem value_addBase26 {n v : Nat} (h : v < 26 ^ (n + 1)) :
    (addBase26 'A' (n + 1) v).foldl (fun n c => n * 26 + (c.toNat - 65)) 0 = v := by
  induction n generalizing v with
  | zero =>
    have hv : v < 26 := by simpa using h
    rw [addBase26, if_pos hv, nil_append, foldl_cons, foldl_nil, (digit_spec v).1]
    omega
  | succ n ih =>
    rw [addBase26, foldl_append, foldl_cons, foldl_nil, (digit_spec v).1]
    split
    · simp
      omega
    · rw [ih (by omega)]
      omega

theorem capsBase26_injective : Function.Injective fun v : UInt64 => capsBase26 v.toNat := by
  intro v w h
  have hlt : ∀ v : UInt64, v.toNat < 26 ^ (13 + 1) := fun v => v.toNat_lt.trans (by decide)
  have hdigits : addBase26 'A' 14 v.toNat = addBase26 'A' 14 w.toNat := String.ofList_injective h
  rw [← UInt64.toNat_inj, ← value_addBase26 (hlt v), hdigits, value_addBase26 (hlt w)]

section Containers

variable (iv iv' : MountPolicies) (order order' : Nat → Nat) (vms vms' : List VolumeMount)
  (name name' : String) {i j : UInt64}

theorem toList_envPrefix (index : Nat) :
    (newContainerMounts iv order vms name index).envPrefix.toList =
      addBase26 'A' 14 index ++ ['_'] := by
  simp [newContainerMounts, capsBase26]

/-- The container of `newContainerConfig`, with what `AppEnvironment` reads. -/
def newContainer (index : UInt64) : Container :=
  let mounts := newContainerMounts iv order vms name index.toNat
  { name := name.toList
    envPrefix := mounts.envPrefix.toList
    mounts := mounts.mounts.rekey String.toList
    capitals := by
      intro c hc
      rw [toList_envPrefix] at hc
      exact (mem_append.mp hc).imp isUpper_of_mem_addBase26 mem_singleton.mp }

/-- Only the prefix of the same container is the beginning of a variable. -/
theorem pfx_prefix_iff {text : Text} :
    (newContainer iv' order' vms' name' j).pfx <+: (newContainer iv order vms name i).pfx ++ text ↔
      i = j := by
  constructor
  · intro ⟨rest, h⟩
    simp only [Container.pfx, newContainer, toList_envPrefix, append_assoc,
      append_cancel_left_eq] at h
    have hletters : ∀ v, '_' ∉ addBase26 'A' 14 v := fun v hmem =>
      absurd (isUpper_of_mem_addBase26 hmem) (by decide)
    have hdigits := (Strings.append_cons_inj (hletters _) (hletters _) h).1
    exact capsBase26_injective (congrArg String.ofList hdigits.symm)
  · rintro rfl
    simp [Container.pfx, newContainer, toList_envPrefix]

end Containers

/-- **The prefixes separate the containers.**  A variable that was made for one
of them is one of its own, with the name it had, and it makes no difference to
another. -/
theorem container_prefixes_separate :
    (∀ v : UInt64, addBase26Loop 'A' 14 v.toNat [] = some (capsBase26 v.toNat).toList) ∧
    (Function.Injective fun v : UInt64 => capsBase26 v.toNat) ∧
    ∀ iv order vms name i iv' order' vms' name' j (e : EnvVar) (value : Text) (l l' : List Text),
      let env := (newContainer iv order vms name i).pfx ++ e.name ++ '=' :: value
      let ag := newContainer iv' order' vms' name' j
      (i = j → ownVars (l ++ env :: l') ag = ownVars l ag ++ (e.name, value) :: ownVars l' ag ∧
          (¬ ag.Overwrites e.name → (∀ v, (e.name, v) ∈ ownVars (l ++ l') ag → v = value) →
            (appEnvironment (l ++ env :: l') ag).lookup e.name = some value)) ∧
        (i ≠ j → appEnvironment (l ++ env :: l') ag = appEnvironment (l ++ l') ag) := by
  refine ⟨?_, capsBase26_injective, ?_⟩
  · intro v
    rw [addBase26Loop_eq (v.toNat_lt.trans (by decide)), capsBase26, String.toList_ofList, append_nil]
  intro iv order vms name i iv' order' vms' name' j e value l l' env ag
  have hown : ag.pfx.isPrefixOf env = true ↔ i = j := by
    rw [ isPrefixOf_iff_prefix, show env = _ from append_assoc ..]
    exact pfx_prefix_iff ..
  refine ⟨?_, ?_⟩
  · intro hij
    have hpfx : (newContainer iv order vms name i).pfx = ag.pfx := by
      subst hij
      simp [ag, Container.pfx, newContainer, toList_envPrefix]
    have hsplit : splitPair env = some (ag.pfx ++ e.name, value) :=
      hpfx ▸ splitPair_append (fun h => (mem_append.mp h).elim
        (Container.notMem_pfx _ (by decide) (by decide)) e.noEquals) value
    have hvars : ownVars (l ++ env :: l') ag =
        ownVars l ag ++ (e.name, value) :: ownVars l' ag := by
      simp [ownVars, filter_cons_of_pos (hown.mpr hij), filterMap_cons_some hsplit]
    refine ⟨hvars, fun hn honly => lookup_of_mem_ownVars (fun v => ?_) hn⟩
    simp only [ownVars, filter_append, filterMap_append, map_append, mem_append] at honly
    rw [hvars, mem_append, mem_cons, Prod.mk.injEq]
    grind [ownVars]
  · intro hij
    have hnot : ag.pfx.isPrefixOf env = false := Bool.eq_false_iff.mpr fun h => hij (hown.mp h)
    have htel : "_TEL_".toList.isPrefixOf env = true := rfl
    simp only [appEnvironment, filter_append, filter_cons, hnot, htel, Bool.true_or, Bool.not_true,
      Bool.false_eq_true, if_false]

/-- A variable `TELEPRESENCE_CONTAINER` of the container itself is hidden by the
one with the container's name. -/
theorem container_variable_hidden :
    let cc := newContainer none (fun _ => 0) [] "app" 0
    let e : EnvVar := ⟨"TELEPRESENCE_CONTAINER".toList, ['x'], by decide, by decide⟩
    (appEnvironment [cc.pfx ++ e.name ++ '=' :: e.value] cc).lookup e.name = some "app".toList ∧
      (appEnvironment [cc.pfx ++ e.name ++ '=' :: e.value] cc).lookup e.name ≠ some e.value := by
  decide +kernel

end Telepresence.AppEnvironment
