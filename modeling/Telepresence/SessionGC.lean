import Telepresence.ManagerThreads

/-!
# Intercepts of live client sessions

When a client session is removed, `gcClientSessionIntercepts` goes through the
intercepts once and removes those of the client.  `AddIntercept` looks up the
client at its beginning and stores the intercept much later, so it can store
one for a client whose intercepts have already been collected.

* `intercepts_live`: if every intercept is stored while its client session is
  there, then whenever no operation is in progress every intercept belongs to
  a client session that is there.  Until then, some thread is still going to
  remove each intercept without a client (`Collects`).
-/

namespace Telepresence.Manager

open Threads Runs List GoMap

/-- The frame is going to remove the intercept, which belongs to the session. -/
def Frame.Collects : Frame → String → String → Prop
  | .gc session none, s, _ => session = s
  | .gc session (some scan), s, id =>
      session = s ∧ (id ∈ scan.pending ∨ scan.iter.Awaits id)
  | .removeIntercept id', _, id => id' = id
  | _, _, _ => False

/-- No intercept is marked as removed; the collection would skip it. -/
def NotRemoved (sh : Shared) : Prop :=
  ∀ id ic, sh.mgr.intercepts.lookup id = some ic → ic.disposition ≠ .removed

/-- The frame is not going to mark an intercept as removed. -/
def Frame.Sound : Frame → Prop
  | .loadOrStore _ is | .store _ is => is.disposition ≠ .removed
  | .arrive (some scan) | .consolidate _ (some scan) =>
      ∀ e ∈ scan.pending, e.2.disposition ≠ .removed
  | .updateLoad _ u | .updateCas _ _ u => u.disposition ≠ .removed
  | _ => True

/-- If the frame stores an intercept, then the client session is there. -/
def StoresLive (sh : Shared) : Frame → Prop
  | .loadOrStore _ is =>
      sh.mgr.intercepts.lookup is.id = none → is.clientSession ∈ sh.clients
  | .store _ is => is.clientSession ∈ sh.clients
  | _ => True

/-! ## Steps -/

variable {π : Type} {sh sh' : Shared} {keys : List String} {deferred : Bool} {c : Choice}
  {fs : List Frame}

theorem arrivalUpdate_ne_removed {s : State} {is : InterceptInfo} {u : Update}
    (h : is.disposition ≠ .removed) (hu : s.arrivalUpdate is = some u) :
    u.disposition ≠ .removed := by
  unfold State.arrivalUpdate at hu
  rw [if_neg h] at hu
  dsimp only at hu
  split at hu
  · cases hu
    exact checkAgentsForIntercept_ne_removed h
  · split at hu
    · cases hu
      simp
    · cases hu

theorem removalUpdate_ne_removed {s : State} {agent : AgentInfo} {is : InterceptInfo} {u : Update}
    (h : is.disposition ≠ .removed) (hu : s.removalUpdate agent is = some u) :
    u.disposition ≠ .removed := by
  unfold State.removalUpdate at hu
  split at hu
  · cases hu
  · dsimp only at hu
    split at hu
    · cases hu
      exact checkAgentsForIntercept_ne_removed h
    · cases hu
      simp

/-- What a step can do to the intercepts and the client sessions. -/
inductive Effect (sh : Shared) (f : Frame) : Shared → List Frame → Prop where
  /-- No intercept changes and no client session goes. -/
  | quiet {sh' : Shared} {fs : List Frame} (hint : sh'.mgr.intercepts = sh.mgr.intercepts)
      (hcl : ∀ s ∈ sh.clients, s ∈ sh'.clients) (hf : ∀ s id, ¬ f.Collects s id) :
      Effect sh f sh' fs
  /-- An intercept is stored. -/
  | put (req : Request) (is : InterceptInfo)
      (hf : f = .loadOrStore req is ∧ sh.mgr.intercepts.lookup is.id = none ∨ f = .store req is) :
      Effect sh f (sh.setIntercepts (sh.mgr.intercepts.insert is.id is)) (nextChild req)
  /-- An intercept is deleted. -/
  | delete (id : String) (fs : List Frame) (hf : ∀ s id', f.Collects s id' → id' = id) :
      Effect sh f (sh.setIntercepts (sh.mgr.intercepts.erase id)) fs
  /-- The intercept to be deleted is not there. -/
  | absent (id : String) (hf : f = .removeIntercept id)
      (hid : sh.mgr.intercepts.lookup id = none) : Effect sh f sh []
  /-- A client session goes, and its intercepts are going to be collected. -/
  | dropClient (id : String) (hf : ∀ s id', ¬ f.Collects s id') :
      Effect sh f { sh with clients := sh.clients.erase id } [.gc id none]
  /-- An intercept is updated. -/
  | swap (id : String) (cur : InterceptInfo) (u : Update) (fs : List Frame)
      (hf : f = .updateCas id cur u) (hcur : sh.mgr.intercepts.lookup (u.apply cur).id = some cur) :
      Effect sh f (sh.setIntercepts (sh.mgr.intercepts.insert (u.apply cur).id (u.apply cur))) fs
  /-- The collection takes a step. -/
  | collect (session : String) (scan : Option (Scan String)) (c : Choice) (fs : List Frame)
      (hf : f = .gc session scan)
      (hstep : scanStep sh (.gc session) sh.mgr.intercepts.keys (readSession sh session)
        (fun id => [.removeIntercept id]) false scan c = some (sh, fs)) :
      Effect sh f sh fs

variable {id : String}

theorem mem_mark_clients {s : String} {now : Int} (h : s ∈ sh.clients) :
    s ∈ (sh.mark id now).clients := by
  unfold Shared.mark
  split
  · split
    · exact AList.mem_insert _ |>.mpr (.inr h)
    · exact h
  · split <;> exact h

theorem mark_intercepts (sh : Shared) (id : String) (now : Int) :
    (sh.mark id now).mgr.intercepts = sh.mgr.intercepts := by
  unfold Shared.mark
  split
  · split <;> rfl
  · split <;> rfl

variable {f : Frame}

/-- A step that leaves the shared state as it is. -/
theorem Effect.same (hf : ∀ s id, ¬ f.Collects s id) : Effect sh f sh fs :=
  .quiet rfl (fun _ h => h) hf

/-- A step of a `Range` other than the collection. -/
theorem Effect.of_scanStep {frame : Option (Scan π) → Frame} {read : String → List π}
    {callback : π → List Frame} {scan : Option (Scan π)}
    (h : scanStep sh frame keys read callback deferred scan c = some (sh', fs))
    (hf : ∀ s id, ¬ f.Collects s id) : Effect sh f sh' fs := by
  rw [(scanStep_cases h).1]
  exact .same hf

/-- **What a step does** to the intercepts and the client sessions. -/
theorem exec_effect (h : exec sh f c = some (sh', fs)) : Effect sh f sh' fs := by
  cases f
  case arrive | doomClients | doomAgents | consolidate =>
    exact .of_scanStep h (fun _ _ => False.elim)
  case gc session scan =>
    have hsame := (scanStep_cases h).1
    subst hsame
    exact .collect session scan c fs rfl h
  case terminate children =>
    cases c <;> cases children <;> simp only [exec, reduceCtorEq] at h
    · cases h
      exact .same (fun _ _ => False.elim)
    · cases h
      exact .delete _ _ (fun _ _ => False.elim)
  all_goals cases c <;> simp only [exec, reduceCtorEq] at h
  case addClient.next id client =>
    split at h
    · cases h
    · cases h
      exact .quiet rfl (fun s hs => (AList.mem_insert _).mpr (.inr hs)) (fun _ _ => False.elim)
  case mark.next id now =>
    cases h
    exact .quiet (mark_intercepts sh id now) (fun _ => mem_mark_clients) (fun _ _ => False.elim)
  case loadOrStore.next req is =>
    split at h
    · rename_i hnone
      cases h
      exact .put req is (.inl ⟨rfl, hnone⟩)
    · split at h <;> cases h <;> exact .same (fun _ _ => False.elim)
  case store.next req is =>
    cases h
    exact .put req is (.inr rfl)
  case removeIntercept.finalizers id n =>
    split at h
    · rename_i hnone
      cases h
      exact .absent id rfl hnone
    · cases h
      exact .delete id _ (fun _ _ heq => heq.symm)
  case removeSession.next id =>
    split at h
    · cases h
      exact .dropClient id (fun _ _ => False.elim)
    · cases h
      exact .same (fun _ _ => False.elim)
  case deleteClient.next id =>
    cases h
    exact .dropClient id (fun _ _ => False.elim)
  case updateCas.next id cur u =>
    split at h
    · rename_i hcur
      cases h
      exact .swap id cur u _ rfl hcur
    · cases h
      exact .same (fun _ _ => False.elim)
  -- The other steps touch neither the intercepts nor the client sessions.
  all_goals
    (try split at h) <;> cases h <;>
      exact .quiet rfl (fun _ hs => hs) (fun _ _ => False.elim)

/-! ## No intercept is marked as removed -/

theorem nextChild_sound (req : Request) : ∀ g ∈ nextChild req, g.Sound := by
  intro g hg
  unfold nextChild at hg
  split at hg
  · simp at hg
  · split at hg
    · simp at hg
    · rw [mem_singleton.mp hg]
      trivial

theorem applyUpdate_sound {u : Option Update} (h : ∀ v, u = some v → v.disposition ≠ .removed) :
    ∀ g ∈ applyUpdate id u, g.Sound := by
  intro g hg
  cases u with
  | none => simp [applyUpdate] at hg
  | some v =>
    rw [mem_singleton.mp hg]
    exact h v rfl

/-- A `Range` over the intercepts that updates some of them. -/
theorem scanStep_sound {frame : Option (Scan (String × InterceptInfo)) → Frame}
    {update : InterceptInfo → Option Update} {scan : Option (Scan (String × InterceptInfo))}
    (h : scanStep sh frame keys (readIntercept sh) (fun e => applyUpdate e.1 (update e.2)) false
      scan c = some (sh', fs))
    (hframe : ∀ sc, (frame (some sc)).Sound ↔ ∀ e ∈ sc.pending, e.2.disposition ≠ .removed)
    (hupdate : ∀ is u, is.disposition ≠ .removed → update is = some u → u.disposition ≠ .removed)
    (hf : (frame scan).Sound) (hn : NotRemoved sh) : ∀ g ∈ fs, g.Sound := by
  intro g hg
  rcases (scanStep_cases h).2 with ⟨_, rfl⟩ | ⟨sc, key, iter, rfl, _, rfl⟩ |
    ⟨sc, x, rest, rfl, hpend, rfl⟩ | ⟨sc, _, _, _, rfl⟩
  · rw [mem_singleton.mp hg, hframe]
    simp
  · rw [mem_singleton.mp hg, hframe]
    intro e he
    rcases mem_append.mp he with he | he
    · exact (hframe sc).mp hf e he
    · simp only [readIntercept, mem_map, Option.mem_toList] at he
      obtain ⟨is, his, rfl⟩ := he
      exact hn key is his
  · have hok := (hframe sc).mp hf
    rw [hpend] at hok
    rcases mem_append.mp hg with hg | hg
    · exact applyUpdate_sound (fun v => hupdate x.2 v (hok x (by simp))) g hg
    · rw [mem_singleton.mp hg, hframe]
      exact fun e he => hok e (mem_cons_of_mem x he)
  · simp at hg

/-- A `Range` that removes what it finds. -/
theorem scanStep_sound_of_removes {frame : Option (Scan π) → Frame} {read : String → List π}
    {remove : π → Frame} {scan : Option (Scan π)}
    (h : scanStep sh frame keys read (fun x => [remove x]) deferred scan c = some (sh', fs))
    (hframe : ∀ sc, (frame (some sc)).Sound) (hremove : ∀ x, (remove x).Sound) :
    ∀ g ∈ fs, g.Sound := by
  rcases (scanStep_cases h).2 with ⟨_, rfl⟩ | ⟨sc, key, iter, _, _, rfl⟩ |
    ⟨sc, x, rest, _, _, rfl⟩ | ⟨sc, _, _, _, rfl⟩
  · exact forall_mem_singleton.mpr (hframe _)
  · exact forall_mem_singleton.mpr (hframe _)
  · exact forall_mem_cons.mpr ⟨hremove x, forall_mem_singleton.mpr (hframe _)⟩
  · exact forall_mem_nil _

/-- The frames that a step leaves behind are sound. -/
theorem exec_sound (h : exec sh f c = some (sh', fs)) (hf : f.Sound) (hn : NotRemoved sh) :
    ∀ g ∈ fs, g.Sound := by
  cases f
  case arrive scan =>
    exact scanStep_sound h (fun _ => Iff.rfl) (fun _ _ => arrivalUpdate_ne_removed) hf hn
  case consolidate agent scan =>
    exact scanStep_sound h (fun _ => Iff.rfl) (fun _ _ => removalUpdate_ne_removed) hf hn
  case gc | doomClients | doomAgents =>
    exact scanStep_sound_of_removes h (fun _ => trivial) (fun _ => trivial)
  case terminate children =>
    cases c <;> cases children <;> simp only [exec, reduceCtorEq] at h <;> cases h
    · exact forall_mem_nil _
    · exact forall_mem_singleton.mpr trivial
  all_goals cases c <;> simp only [exec, reduceCtorEq] at h
  case addIntercept.next req id spec =>
    cases h
    exact forall_mem_singleton.mpr (newIntercept_ne_removed sh.mgr id req.session spec)
  case loadOrStore.next req is =>
    split at h
    · cases h
      exact nextChild_sound req
    · split at h <;> cases h
      · exact forall_mem_nil _
      · exact forall_mem_singleton.mpr hf
  case store.next req is =>
    cases h
    exact nextChild_sound req
  case updateLoad.next | updateCas.next =>
    split at h <;> cases h
    · exact forall_mem_nil _
    · exact forall_mem_singleton.mpr hf
  case removeAgentSession.next id =>
    split at h <;> cases h
    · exact forall_mem_nil _
    · exact forall_mem_cons.mpr ⟨trivial, forall_mem_singleton.mpr trivial⟩
  -- The others leave nothing behind, or a frame that holds no intercept.
  all_goals
    (try split at h) <;> cases h <;>
      first | exact forall_mem_nil _ | exact forall_mem_singleton.mpr trivial

/-- The intercepts that a step leaves behind are not marked as removed. -/
theorem exec_notRemoved (h : exec sh f c = some (sh', fs)) (hf : f.Sound) (hn : NotRemoved sh) :
    NotRemoved sh' := by
  intro id ic hlook
  cases exec_effect h with
  | quiet hint _ _ =>
    rw [hint] at hlook
    exact hn id ic hlook
  | put req is hput =>
    have hsound : is.disposition ≠ .removed := by
      rcases hput with ⟨rfl, _⟩ | rfl <;> exact hf
    simp only [Shared.setIntercepts, lookup_insert_eq] at hlook
    split at hlook
    · cases hlook
      exact hsound
    · exact hn id ic hlook
  | delete id' _ _ =>
    exact hn id ic (lookup_of_erase hlook).2
  | absent _ _ _ | dropClient _ _ => exact hn id ic hlook
  | swap id' cur u _ hcas _ =>
    subst hcas
    simp only [Shared.setIntercepts, lookup_insert_eq] at hlook
    split at hlook
    · cases hlook
      exact hf
    · exact hn id ic hlook
  | collect _ _ _ _ _ _ => exact hn id ic hlook

/-! ## Every intercept has a client or is going to be collected -/

/-- The collection forgets no intercept of its session before that has been
removed. -/
theorem collect_keeps {session : String} {scan : Option (Scan String)}
    (h : scanStep sh (.gc session) sh.mgr.intercepts.keys (readSession sh session)
      (fun id => [.removeIntercept id]) false scan c = some (sh, fs)) (hn : NotRemoved sh)
    {ic : InterceptInfo} (hlook : sh.mgr.intercepts.lookup id = some ic)
    (hf : (Frame.gc session scan).Collects ic.clientSession id) :
    ∃ g ∈ fs, g.Collects ic.clientSession id := by
  rcases (scanStep_cases h).2 with ⟨rfl, rfl⟩ | ⟨sc, key, iter, rfl, hvisit, rfl⟩ |
    ⟨sc, x, rest, rfl, hpend, rfl⟩ | ⟨sc, rfl, hdone, hpend, rfl⟩
  · -- the collection begins with all keys that are there
    exact ⟨_, mem_singleton.mpr rfl, hf,
      .inr (Iteration.awaits_start (mem_keys_of_lookup hlook))⟩
  · obtain ⟨rfl, hwill⟩ := hf
    refine ⟨_, mem_singleton.mpr rfl, rfl, ?_⟩
    rcases hwill with hpend | hawaits
    · exact .inl (mem_append_left _ hpend)
    · by_cases heq : id = key
      · subst heq
        have hread : readSession sh ic.clientSession id = [id] := by
          simp [readSession, hlook, hn id ic hlook]
        exact .inl (by simp [hread])
      · exact .inr (hawaits.of_visit hvisit heq)
  · obtain ⟨rfl, hwill⟩ := hf
    rcases hwill with hin | hin
    · rw [hpend] at hin
      rcases mem_cons.mp hin with rfl | hin
      · exact ⟨_, mem_cons_self, rfl⟩
      · exact ⟨_, mem_cons_of_mem _ (mem_singleton.mpr rfl), rfl, .inl hin⟩
    · exact ⟨_, mem_cons_of_mem _ (mem_singleton.mpr rfl), rfl, .inr hin⟩
  · obtain ⟨_, hwill⟩ := hf
    rcases hwill with hin | hawaits
    · simp [hpend] at hin
    · exact absurd hawaits (Iteration.not_awaits_of_complete hdone id)

/-- An intercept after a step was there before, and then its client session
or the frame that is going to remove it has a successor; or it has just been
stored for a client session that is there. -/
theorem exec_keeps (h : exec sh f c = some (sh', fs)) (hlive : StoresLive sh f) (hn : NotRemoved sh)
    {ic : InterceptInfo} (hlook : sh'.mgr.intercepts.lookup id = some ic) :
    (∃ old, sh.mgr.intercepts.lookup id = some old ∧ old.clientSession = ic.clientSession ∧
      (ic.clientSession ∈ sh.clients →
        ic.clientSession ∈ sh'.clients ∨ ∃ g ∈ fs, g.Collects ic.clientSession id) ∧
      (f.Collects ic.clientSession id → ∃ g ∈ fs, g.Collects ic.clientSession id)) ∨
    ic.clientSession ∈ sh'.clients := by
  cases exec_effect h with
  | quiet hint hcl hf =>
    rw [hint] at hlook
    exact .inl ⟨ic, hlook, rfl, fun hs => .inl (hcl _ hs), fun hc => absurd hc (hf _ _)⟩
  | put req is hput =>
    simp only [Shared.setIntercepts, lookup_insert_eq] at hlook
    split at hlook
    · cases hlook
      rcases hput with ⟨rfl, hnone⟩ | rfl
      · exact .inr (hlive hnone)
      · exact .inr hlive
    · refine .inl ⟨ic, hlook, rfl, .inl, ?_⟩
      intro hc
      rcases hput with ⟨rfl, _⟩ | rfl <;> exact hc.elim
  | delete id' _ hf =>
    obtain ⟨hne, hold⟩ := lookup_of_erase hlook
    exact .inl ⟨ic, hold, rfl, .inl, fun hc => absurd (hf _ _ hc) hne⟩
  | absent id' hf hid =>
    refine .inl ⟨ic, hlook, rfl, .inl, ?_⟩
    intro hc
    rw [hf] at hc
    have hsame : id' = id := hc
    rw [hsame, hlook] at hid
    cases hid
  | dropClient id' hf =>
    refine .inl ⟨ic, hlook, rfl, ?_, fun hc => absurd hc (hf _ _)⟩
    intro hs
    by_cases heq : ic.clientSession = id'
    · exact .inr ⟨_, mem_singleton.mpr rfl, heq.symm⟩
    · exact .inl (AList.mem_erase.mpr ⟨heq, hs⟩)
  | swap id' cur u _ hcas hcur =>
    simp only [Shared.setIntercepts, lookup_insert_eq] at hlook
    split at hlook
    · rename_i hid
      cases hlook
      refine .inl ⟨cur, hid ▸ hcur, rfl, .inl, ?_⟩
      intro hc
      rw [hcas] at hc
      exact hc.elim
    · refine .inl ⟨ic, hlook, rfl, .inl, ?_⟩
      intro hc
      rw [hcas] at hc
      exact hc.elim
  | collect session scan c fs hf hstep =>
    subst hf
    exact .inl ⟨ic, hlook, rfl, .inl, collect_keeps hstep hn hlook⟩

/-- What holds between the steps. -/
structure LiveInv (p : World) : Prop where
  /-- An intercept belongs to a client session that is there, or some thread
  is going to remove it. -/
  covered : ∀ id ic, p.shared.mgr.intercepts.lookup id = some ic →
    ic.clientSession ∈ p.shared.clients ∨ ∃ f ∈ p.frames, f.Collects ic.clientSession id
  notRemoved : NotRemoved p.shared
  sound : ∀ f ∈ p.frames, f.Sound

/-- Every intercept is stored while its client session is there. -/
def StoresForLiveClient (p : World) : Action Operation Choice → Prop
  | .start _ => True
  | .run thread _ => ∀ f, p.top thread = some f → StoresLive p.shared f

theorem program_sound (op : Operation) : ∀ f ∈ program op, f.Sound := by
  cases op with
  | expireSessions | pruneSessions =>
    exact forall_mem_cons.mpr ⟨trivial, forall_mem_singleton.mpr trivial⟩
  | _ => exact forall_mem_singleton.mpr trivial

theorem liveInv_step {p p' : World} {a : Action Operation Choice} (h : LiveInv p)
    (hcond : StoresForLiveClient p a) (hstep : threadStep p a = some p') : LiveInv p' := by
  rcases step_cases hstep with ⟨op, _, hshared, hframes⟩ |
    ⟨thread, choice, f, fs, others, rfl, htop, hexec, hold, hnew⟩
  · refine ⟨?_, hshared ▸ h.notRemoved, ?_⟩
    · intro id ic hlook
      rw [hshared] at hlook ⊢
      rcases h.covered id ic hlook with hcl | ⟨f, hf, hc⟩
      · exact .inl hcl
      · exact .inr ⟨f, by rw [hframes]; exact mem_append_left _ hf, hc⟩
    · intro f hf
      rw [hframes] at hf
      rcases mem_append.mp hf with hf | hf
      · exact h.sound f hf
      · exact program_sound op f hf
  · have hf : f.Sound := h.sound f (hold.mem_iff.mpr mem_cons_self)
    refine ⟨?_, exec_notRemoved hexec hf h.notRemoved, ?_⟩
    · intro id ic hlook
      rcases exec_keeps hexec (hcond f htop) h.notRemoved hlook with
        ⟨old, hlook', hsame, hclient, hframe⟩ | hcl
      · have hfs : (∃ g ∈ fs, g.Collects ic.clientSession id) →
            ∃ g ∈ p'.frames, g.Collects ic.clientSession id := by
          intro hg
          obtain ⟨g, hg, hc⟩ := hg
          exact ⟨g, hnew.mem_iff.mpr (mem_append_left _ hg), hc⟩
        have hcov := h.covered id old hlook'
        rw [hsame] at hcov
        rcases hcov with hcl | ⟨g, hg, hc⟩
        · exact (hclient hcl).imp_right hfs
        · rcases mem_cons.mp (hold.mem_iff.mp hg) with rfl | hg
          · exact .inr (hfs (hframe hc))
          · exact .inr ⟨g, hnew.mem_iff.mpr (mem_append_right _ hg), hc⟩
      · exact .inl hcl
    · intro g hg
      rcases mem_append.mp (hnew.mem_iff.mp hg) with hg | hg
      · exact exec_sound hexec hf h.notRemoved g hg
      · exact h.sound g (hold.mem_iff.mpr (mem_cons_of_mem f hg))

/-- Every intercept belongs to a client session that is there. -/
def InterceptsLive (sh : Shared) : Prop :=
  ∀ id ic, sh.mgr.intercepts.lookup id = some ic → ic.clientSession ∈ sh.clients

/-- **Intercepts of live clients.** In every run in which every intercept is
stored while its client session is there, and in every state of it in which no
operation is in progress, every intercept belongs to a client session that is
there. -/
theorem intercepts_live (acts : List (Action Operation Choice))
    (hmeets : Meets threadStep StoresForLiveClient ⟨{}, []⟩ acts) :
    Always threadStep (fun p => p.Idle → InterceptsLive p.shared) ⟨{}, []⟩ acts := by
  have hinit : LiveInv ⟨{}, []⟩ := by
    refine ⟨?_, ?_, by simp [Pool.frames]⟩
    all_goals
      intro id ic hlook
      simp at hlook
  refine always_of_meets ?_ (fun _ _ _ => liveInv_step) hinit hmeets
  intro p hinv hidle id ic hlook
  rcases hinv.covered id ic hlook with hcl | ⟨f, hf, _⟩
  · exact hcl
  · rw [hidle] at hf
    simp at hf

/-- An intercept of the workload `echo`. -/
def echoIntercept : InterceptSpec where
  name := "x"
  agent := "echo"
  namespace_ := "default"
  mechanism := "tcp"

instance (sh : Shared) (f : Frame) : Decidable (StoresLive sh f) := by
  cases f <;> unfold StoresLive <;> infer_instance

theorem storesForLiveClient_of_passes (p : World) (a : Action Operation Choice)
    (h : p.passes (fun sh f => decide (StoresLive sh f)) a = true) : StoresForLiveClient p a := by
  cases a with
  | start op => trivial
  | run thread c => exact fun f hf => of_decide_eq_true (Pool.test_of_passes h hf)

/-- A new thread makes the session of a client. -/
def clientArrives (thread : Nat) (id : String) : List (Action Operation Choice) :=
  [.start (.addClient id ⟨"default", 0⟩), .run thread .next]

/-- A new thread adds an intercept for the client. -/
def interceptAdded (thread : Nat) (id : String) : List (Action Operation Choice) :=
  [.start (.addIntercept id echoIntercept), .run thread .next, .run thread .next,
    .run thread .next, .run thread .next]

/-- Two clients have an intercept each, and the session of one is removed. -/
def sessionEnds : List (Action Operation Choice) :=
  clientArrives 0 "c" ++ interceptAdded 1 "c" ++ clientArrives 2 "d" ++ interceptAdded 3 "d" ++
  [.start (.removeSession "c"), .run 4 .next, .run 4 .next, .run 4 (.visit "d:x"),
    .run 4 (.visit "c:x"), .run 4 .call, .run 4 (.finalizers []), .run 4 .next, .run 4 .next]

/-- The intercept of the other client is left. -/
theorem intercepts_live_sessionEnds :
    Meets threadStep StoresForLiveClient ⟨{}, []⟩ sessionEnds ∧
      Always threadStep (fun p => p.Idle → InterceptsLive p.shared) ⟨{}, []⟩ sessionEnds ∧
      (Runs.run threadStep ⟨{}, []⟩ sessionEnds).map (fun p =>
        (p.frames.length, p.shared.clients.keys, p.shared.mgr.intercepts.keys)) =
          some (0, ["d"], ["d:x"]) := by
  have hmeets : Meets threadStep StoresForLiveClient ⟨{}, []⟩ sessionEnds :=
    meets_of_test storesForLiveClient_of_passes (by decide +kernel)
  exact ⟨hmeets, intercepts_live sessionEnds hmeets, by decide +kernel⟩

/-- A pod of the workload `echo`. -/
def echoPod : AgentInfo where
  name := "echo"
  namespace_ := "default"
  podName := "echo-1"
  podIp := "10.1.0.1"
  podUid := "1"
  mechanisms := [{ name := "tcp" }]

/-- The session of a client is removed while `AddIntercept` waits for the
agent, and the intercept is stored afterwards. -/
theorem orphaned_intercept :
    ∃ acts p, Runs.run threadStep ⟨{}, []⟩ acts = some p ∧ p.Idle ∧
      ¬ InterceptsLive p.shared := by
  refine ⟨[.start (.addClient "c" ⟨"default", 0⟩), .run 0 .next,
    .start (.addIntercept "c" echoIntercept),
    .run 1 .next,
    -- an agent arrives, and `ensureAgent` succeeds
    .start (.addAgent echoPod 0), .run 2 .next, .run 2 .next, .run 2 .next, .run 2 .next,
    .run 1 .next,
    -- the session is removed, and its intercepts are collected
    .start (.removeSession "c"), .run 3 .next, .run 3 .next, .run 3 .next,
    .run 1 .next, .run 1 .next], _, rfl, rfl, ?_⟩
  intro h
  exact absurd (h "c:x" _ rfl) (by decide)

end Telepresence.Manager
