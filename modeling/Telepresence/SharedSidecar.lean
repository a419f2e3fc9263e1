import Telepresence.AgentContainer
import Telepresence.Lib.Threads

/-!
# One sidecar configuration for all requests

`configWatcher.Get` hands the same `*Sidecar` to every admission request, and
`MarshalTight` clears six of its fields while it encodes it.  The requests run
concurrently, and a step is a read or a write of one field.

* A call that saves a field while another call has it cleared restores the
  empty value.  A container for which the field is read at that time has the
  empty value too.
* `shared_sidecar_stable`: if no field is read while it is cleared, all fields
  have their original values in the end, and so have all containers.
-/

namespace Telepresence.AgentConfig

open Threads Runs List Sidecar

variable {ρ : Type}

/-! ## The calls -/

/-- The memory that the calls share.  `built` records the containers with the
pods they were built for; the calls do not see it. -/
structure Shared (ρ : Type) where
  sidecar : Sidecar ρ
  built : List (Pod ρ × AgentContainer ρ) := []

/-- A value that `MarshalTight` keeps in a local variable. -/
abbrev Saved (ρ : Type) := (f : Field) × f.Value ρ

/-- The parts of `MarshalTight`, and of `AgentContainer` after its call of
`MarshalTight`.  `todo` is what is left of the fields to save, to clear or to
restore. -/
inductive Frame (ρ : Type) where
  | save (todo : List Field) (saved : List (Saved ρ))
  | clear (todo : List Field) (saved : List (Saved ρ))
  | encode (saved : List (Saved ρ))
  | restore (todo : List (Saved ρ))
  | image (pod : Pod ρ)
  | pullPolicy (pod : Pod ρ) (image : String)
  | securityContext (pod : Pod ρ) (image pullPolicy : String)

namespace Frame

/-- One step of a call. -/
def exec (k : Kubernetes ρ) (sh : Shared ρ) : Frame ρ → Unit → Option (Shared ρ × List (Frame ρ))
  | .save (f :: todo) saved, _ => some (sh, [.save todo (saved ++ [⟨f, sh.sidecar.get f⟩])])
  | .save [] saved, _ => some (sh, [.clear Field.all saved])
  | .clear (f :: todo) saved, _ =>
      some ({ sh with sidecar := sh.sidecar.set f f.zero }, [.clear todo saved])
  | .clear [] saved, _ => some (sh, [.encode saved])
  | .encode saved, _ => some (sh, [.restore saved])
  | .restore (x :: todo), _ =>
      some ({ sh with sidecar := sh.sidecar.set x.1 x.2 }, [.restore todo])
  | .restore [], _ => some (sh, [])
  | .image pod, _ => some (sh, [.pullPolicy pod sh.sidecar.agentImage])
  | .pullPolicy pod img, _ => some (sh, [.securityContext pod img sh.sidecar.pullPolicy])
  | .securityContext pod img policy, _ =>
      match agentSecurityContext k pod sh.sidecar.containers sh.sidecar.securityContext with
      | .error _ => some (sh, [])
      | .ok sc => some ({ sh with built := sh.built ++ [(pod, ⟨img, policy, sc⟩)] }, [])

/-- The field that is read. -/
def reads : Frame ρ → Option Field
  | .save (f :: _) _ => some f
  | .image _ => some .agentImage
  | .pullPolicy _ _ => some .pullPolicy
  | .securityContext _ _ _ => some .securityContext
  | _ => none

end Frame

/-- The calls that share the configuration. -/
inductive Call (ρ : Type) where
  | marshalTight
  | agentContainer (pod : Pod ρ)

/-- What a call does first. -/
def Call.program : Call ρ → List (Frame ρ)
  | .marshalTight => [.save Field.all []]
  | .agentContainer pod => [.save Field.all [], .image pod]

/-- The configuration, with the calls in progress. -/
abbrev Manager (ρ : Type) := Pool (Shared ρ) (Frame ρ)

/-- A call begins, or one takes a step. -/
def step (k : Kubernetes ρ) : Manager ρ → Action (Call ρ) Unit → Option (Manager ρ) :=
  Threads.step Call.program (Frame.exec k)

/-- The manager before the first call. -/
def before (config : Sidecar ρ) : Manager ρ := { shared := { sidecar := config } }

/-! ## What stays -/

/-- The sidecar is as it was once no call is in progress, and the containers
are those of the original configuration. -/
structure Stable (k : Kubernetes ρ) (config : Sidecar ρ) (p : Manager ρ) : Prop where
  sidecar : p.Idle → p.shared.sidecar = config
  built : ∀ x ∈ p.shared.built, agentContainer k x.1 config = .ok x.2

/-- The field that is read, if any, has its original value: no call has
cleared it and not restored it yet. -/
def Frame.ReadsOriginal (config : Sidecar ρ) (sh : Shared ρ) (fr : Frame ρ) : Prop :=
  ∀ f, fr.reads = some f → sh.sidecar.get f = config.get f

/-- The next step reads the original values. -/
def Allowed (config : Sidecar ρ) (p : Manager ρ) : Action (Call ρ) Unit → Prop
  | .start _ => True
  | .run thread _ => ∀ fr, p.top thread = some fr → fr.ReadsOriginal config p.shared

/-- The values that a call has in its local variables are the original ones,
and there is one for each field. -/
def Frame.Sound (config : Sidecar ρ) : Frame ρ → Prop
  | .save todo saved => saved.map Sigma.fst ++ todo = Field.all ∧ ∀ x ∈ saved, x.2 = config.get x.1
  | .clear todo saved =>
      todo.Nodup ∧ saved.map Sigma.fst = Field.all ∧ ∀ x ∈ saved, x.2 = config.get x.1
  | .encode saved => saved.map Sigma.fst = Field.all ∧ ∀ x ∈ saved, x.2 = config.get x.1
  | .restore todo => ∀ x ∈ todo, x.2 = config.get x.1
  | .image _ => True
  | .pullPolicy _ img => img = config.agentImage
  | .securityContext _ img policy => img = config.agentImage ∧ policy = config.pullPolicy

/-- The call has cleared the field and is going to restore it. -/
def Frame.Owes (f : Field) : Frame ρ → Prop
  | .clear todo _ => f ∉ todo
  | .encode _ => True
  | .restore todo => ∃ x ∈ todo, x.1 = f
  | _ => False

/-- What holds between the steps, of the frames of all calls.  A field without
its original value is one that some call is going to restore. -/
structure Inv (k : Kubernetes ρ) (config : Sidecar ρ) (sh : Shared ρ) (frames : List (Frame ρ)) :
    Prop where
  rest : sh.sidecar.stripped = config.stripped
  sound : ∀ fr ∈ frames, fr.Sound config
  owed : ∀ f, sh.sidecar.get f = config.get f ∨ ∃ fr ∈ frames, fr.Owes f
  built : ∀ x ∈ sh.built, agentContainer k x.1 config = .ok x.2

variable {k : Kubernetes ρ} {config : Sidecar ρ} {sh : Shared ρ}

theorem Inv.congr {frames frames' : List (Frame ρ)} (h : Inv k config sh frames)
    (hmem : ∀ fr, fr ∈ frames ↔ fr ∈ frames') : Inv k config sh frames' := by
  refine ⟨h.rest, fun fr hfr => h.sound fr ((hmem fr).mpr hfr), ?_, h.built⟩
  intro f
  rcases h.owed f with hget | ⟨fr, hfr, howes⟩
  · exact .inl hget
  · exact .inr ⟨fr, (hmem fr).mp hfr, howes⟩

variable {fr : Frame ρ} {fs others : List (Frame ρ)}

/-- Executing a frame keeps the invariant if what is left of the frame is
sound, owes what the frame owed unless it has just been restored, and owes
what has just been cleared. -/
theorem Inv.replace {sh' : Shared ρ} (h : Inv k config sh (fr :: others))
    (hrest : sh'.sidecar.stripped = sh.sidecar.stripped) (hsound : ∀ g ∈ fs, g.Sound config)
    (howed : ∀ f, sh'.sidecar.get f = config.get f ∨ (∃ g ∈ fs, g.Owes f) ∨
      sh'.sidecar.get f = sh.sidecar.get f ∧ ¬ fr.Owes f)
    (hbuilt : ∀ x ∈ sh'.built, agentContainer k x.1 config = .ok x.2) :
    Inv k config sh' (fs ++ others) := by
  refine ⟨hrest.trans h.rest, ?_, ?_, hbuilt⟩
  · intro g hg
    rcases mem_append.mp hg with hg | hg
    · exact hsound g hg
    · exact h.sound g (mem_cons_of_mem _ hg)
  · intro f
    rcases howed f with hget | ⟨g, hg, howes⟩ | ⟨hsame, hnot⟩
    · exact .inl hget
    · exact .inr ⟨g, mem_append_left _ hg, howes⟩
    · rcases h.owed f with hget | ⟨g, hg, howes⟩
      · exact .inl (hsame.trans hget)
      · rcases mem_cons.mp hg with rfl | hg
        · exact absurd howes hnot
        · exact .inr ⟨g, mem_append_right _ hg, howes⟩

/-- A frame that only reads. -/
theorem Inv.read (h : Inv k config sh (fr :: others)) (hsound : ∀ g ∈ fs, g.Sound config)
    (howed : ∀ f, fr.Owes f → ∃ g ∈ fs, g.Owes f) : Inv k config sh (fs ++ others) := by
  refine h.replace rfl hsound ?_ h.built
  intro f
  by_cases howes : fr.Owes f
  · exact .inr (.inl (howed f howes))
  · exact .inr (.inr ⟨rfl, howes⟩)

/-- The container of a call that has read original values only. -/
theorem agentContainer_of_sound {pod : Pod ρ} {image pullPolicy : String} {sc : SecurityContext ρ}
    (hrest : sh.sidecar.stripped = config.stripped)
    (hsound : (Frame.securityContext pod image pullPolicy).Sound config)
    (horiginal : (Frame.securityContext pod image pullPolicy).ReadsOriginal config sh)
    (hsc : agentSecurityContext k pod sh.sidecar.containers sh.sidecar.securityContext = .ok sc) :
    agentContainer k pod config = .ok ⟨image, pullPolicy, sc⟩ := by
  obtain ⟨rfl, rfl⟩ := hsound
  have hcontainers : sh.sidecar.containers = config.containers := by
    rw [stripped_eq, stripped_eq, mk.injEq] at hrest
    exact hrest.2.2.2.2.2.1
  have hconfigured : sh.sidecar.securityContext = config.securityContext :=
    horiginal .securityContext rfl
  rw [hcontainers, hconfigured] at hsc
  simp only [agentContainer, hsc]
  rfl

/-- What a part of a call does. -/
theorem inv_exec {sh' : Shared ρ} (hinv : Inv k config sh (fr :: others))
    (horiginal : fr.ReadsOriginal config sh) (h : fr.exec k sh () = some (sh', fs)) :
    Inv k config sh' (fs ++ others) := by
  have hsound := hinv.sound fr mem_cons_self
  cases fr with
  | save todo saved =>
    obtain ⟨hfields, hsaved⟩ := hsound
    cases todo with
    | nil =>
      cases h
      rw [append_nil] at hfields
      exact hinv.read (forall_mem_singleton.mpr ⟨Field.nodup_all, hfields, hsaved⟩)
        (fun _ howes => howes.elim)
    | cons f todo =>
      cases h
      refine hinv.read (forall_mem_singleton.mpr ⟨?_, ?_⟩) (fun _ howes => howes.elim)
      · simpa using hfields
      · exact Runs.forall_mem_concat.mpr ⟨hsaved, horiginal f rfl⟩
  | clear todo saved =>
    obtain ⟨hnodup, hfields, hsaved⟩ := hsound
    cases todo with
    | nil =>
      cases h
      exact hinv.read (forall_mem_singleton.mpr ⟨hfields, hsaved⟩)
        (fun _ _ => ⟨_, mem_singleton_self _, trivial⟩)
    | cons g todo =>
      cases h
      obtain ⟨hg, hnodup⟩ := nodup_cons.mp hnodup
      refine hinv.replace (stripped_set _ g _)
        (forall_mem_singleton.mpr ⟨hnodup, hfields, hsaved⟩) ?_ hinv.built
      intro f
      by_cases hf : f ∈ todo
      · -- still to be cleared, so this call does not owe it yet
        have hne : f ≠ g := fun heq => hg (heq ▸ hf)
        exact .inr (.inr ⟨get_set_of_ne _ hne _,
          fun howes => howes (mem_cons_of_mem _ hf)⟩)
      · exact .inr (.inl ⟨_, mem_singleton_self _, hf⟩)
  | encode saved =>
    cases h
    refine hinv.read (forall_mem_singleton.mpr hsound.2) ?_
    intro f _
    have hf : f ∈ saved.map Sigma.fst := by
      rw [hsound.1]
      exact f.mem_all
    obtain ⟨x, hx, hxf⟩ := mem_map.mp hf
    exact ⟨_, mem_singleton_self _, x, hx, hxf⟩
  | restore todo =>
    cases todo with
    | nil =>
      cases h
      refine hinv.read (forall_mem_nil _) ?_
      intro f ⟨x, hx, _⟩
      exact absurd hx not_mem_nil
    | cons x todo =>
      cases h
      refine hinv.replace (stripped_set _ x.1 _)
        (forall_mem_singleton.mpr fun y hy => hsound y (mem_cons_of_mem _ hy)) ?_
        hinv.built
      intro f
      by_cases hf : f = x.1
      · subst hf
        exact .inl ((get_set_self _ x.1 _).trans (hsound x mem_cons_self))
      · by_cases howes : ∃ y ∈ todo, y.1 = f
        · exact .inr (.inl ⟨_, mem_singleton_self _, howes⟩)
        · refine .inr (.inr ⟨get_set_of_ne _ hf _, ?_⟩)
          intro ⟨y, hy, hyf⟩
          rcases mem_cons.mp hy with rfl | hy
          · exact hf hyf.symm
          · exact howes ⟨y, hy, hyf⟩
  | image pod =>
    cases h
    exact hinv.read (forall_mem_singleton.mpr (horiginal .agentImage rfl))
      (fun _ howes => howes.elim)
  | pullPolicy pod image =>
    cases h
    exact hinv.read (forall_mem_singleton.mpr ⟨hsound, horiginal .pullPolicy rfl⟩)
      (fun _ howes => howes.elim)
  | securityContext pod image pullPolicy =>
    simp only [Frame.exec] at h
    split at h
    · cases h
      exact hinv.read (forall_mem_nil _) (fun _ howes => howes.elim)
    · rename_i sc hsc
      cases h
      refine hinv.replace rfl (forall_mem_nil _) (fun f => .inr (.inr ⟨rfl, id⟩)) ?_
      exact Runs.forall_mem_concat.mpr
        ⟨hinv.built, agentContainer_of_sound hinv.rest hsound horiginal hsc⟩

/-- A new call has read nothing yet. -/
theorem Call.sound_of_mem_program {c : Call ρ} (h : fr ∈ c.program) : fr.Sound config := by
  have hsave : (Frame.save Field.all []).Sound config :=
    ⟨rfl, fun _ hx => absurd hx not_mem_nil⟩
  cases c with
  | marshalTight =>
    rw [mem_singleton.mp h]
    exact hsave
  | agentContainer pod =>
    rcases mem_cons.mp h with rfl | h
    · exact hsave
    · rw [mem_singleton.mp h]
      trivial

theorem inv_step {p p' : Manager ρ} {a : Action (Call ρ) Unit}
    (hinv : Inv k config p.shared p.frames) (hallowed : Allowed config p a)
    (h : step k p a = some p') : Inv k config p'.shared p'.frames := by
  obtain ⟨c, rfl, hshared, hframes⟩ | ⟨thread, _, fr, fs, others, rfl, htop, hexec, hold, hnew⟩ :=
    Threads.step_cases h
  · rw [hshared, hframes]
    refine ⟨hinv.rest, ?_, ?_, hinv.built⟩
    · intro fr hfr
      rcases mem_append.mp hfr with hfr | hfr
      · exact hinv.sound fr hfr
      · exact Call.sound_of_mem_program hfr
    · intro f
      rcases hinv.owed f with hget | ⟨fr, hfr, howes⟩
      · exact .inl hget
      · exact .inr ⟨fr, mem_append_left _ hfr, howes⟩
  · have hinv' := inv_exec (hinv.congr fun _ => hold.mem_iff) (hallowed fr htop) hexec
    exact hinv'.congr fun _ => hnew.symm.mem_iff

theorem Inv.stable {p : Manager ρ} (h : Inv k config p.shared p.frames) : Stable k config p := by
  refine ⟨?_, h.built⟩
  intro hidle
  refine ext_get h.rest ?_
  intro f
  rcases h.owed f with hget | ⟨fr, hfr, _⟩
  · exact hget
  · rw [hidle] at hfr
    exact absurd hfr not_mem_nil

/-- **The shared configuration is stable** in a run in which no call reads a
field that another call has cleared. -/
theorem shared_sidecar_stable (k : Kubernetes ρ) (config : Sidecar ρ)
    (as : List (Action (Call ρ) Unit)) (h : Meets (step k) (Allowed config) (before config) as) :
    Always (step k) (Stable k config) (before config) as := by
  have hinit : Inv k config (before config).shared (before config).frames :=
    ⟨rfl, fun _ hfr => absurd hfr not_mem_nil, fun _ => .inl rfl,
      fun _ hx => absurd hx not_mem_nil⟩
  exact always_of_meets (fun _ hinv => hinv.stable)
    (fun _ _ _ hinv hallowed hstep => inv_step hinv hallowed hstep) hinit h

/-! ## Two requests -/

/-- The thread takes some steps. -/
def steps (n thread : Nat) : List (Action (Call Unit) Unit) := List.replicate n (.run thread ())

/-- One request after the other. -/
def inTurn : List (Action (Call Unit) Unit) :=
  .start (.agentContainer echoPod) :: steps 25 0 ++ .start (.agentContainer echoPod) :: steps 25 1

/-- The second request saves the fields after the first one has cleared them,
and restores them after the first one has restored them. -/
def overlapping : List (Action (Call Unit) Unit) :=
  .start (.agentContainer echoPod) :: .start (.agentContainer echoPod) ::
    (steps 13 0 ++ steps 7 1 ++ steps 12 0 ++ steps 18 1)

/-- A test for `Frame.ReadsOriginal`. -/
def Frame.readsOriginal (sh : Shared Unit) (fr : Frame Unit) : Bool :=
  fr.reads.all fun f => sh.sidecar.get f = echo.get f

theorem allowed_of_readsOriginal (p : Manager Unit) (a : Action (Call Unit) Unit)
    (h : p.passes Frame.readsOriginal a = true) : Allowed echo p a := by
  cases a with
  | start c => trivial
  | run thread o =>
    intro fr htop f hf
    have htest := Pool.test_of_passes h htop
    simpa [Frame.readsOriginal, hf] using htest

theorem shared_sidecar_stable_in_turn :
    Meets (step groupsOnly) (Allowed echo) (before echo) inTurn ∧
      Always (step groupsOnly) (Stable groupsOnly echo) (before echo) inTurn := by
  have hmeets : Meets (step groupsOnly) (Allowed echo) (before echo) inTurn :=
    meets_of_test allowed_of_readsOriginal (by decide +kernel)
  exact ⟨hmeets, shared_sidecar_stable groupsOnly echo inTurn hmeets⟩

/-- **The image is lost** when two requests overlap, and the second container
has none. -/
theorem shared_image_lost : ∃ p, run (step groupsOnly) (before echo) overlapping = some p ∧
    p.Idle ∧ p.shared.sidecar.agentImage = "" ∧ echo.agentImage = "tel2:2.20.0" ∧
    (∃ x ∈ p.shared.built, x.2.image = "") ∧ ¬ Stable groupsOnly echo p := by
  have hrun : (run (step groupsOnly) (before echo) overlapping).map (fun p =>
      (p.frames.length, p.shared.sidecar.agentImage,
        p.shared.built.map fun x => x.2.image)) = some (0, "", ["tel2:2.20.0", ""]) := by
    decide +kernel
  obtain ⟨p, hp, hview⟩ := Option.map_eq_some_iff.mp hrun
  simp only [Prod.mk.injEq] at hview
  obtain ⟨hframes, himage, hbuilt⟩ := hview
  have hidle : p.Idle := length_eq_zero_iff.mp hframes
  refine ⟨p, hp, hidle, himage, rfl, ?_, ?_⟩
  · have hmem : "" ∈ p.shared.built.map fun x => x.2.image := by
      rw [hbuilt]
      decide
    exact mem_map.mp hmem
  · intro hstable
    rw [hstable.sidecar hidle] at himage
    exact absurd himage (by decide)

end Telepresence.AgentConfig
