import Telepresence.AgentServer

/-!
# Dial requests reach a running watcher

`WatchDial` stores its channel under the client's session when it starts and
deletes the session's entry, whosever it is, when it ends.  Where two calls of
one session overlap, the first to end takes the entry of the other away.

* `watchers_served_iff`: along a run, the entry of a session with running
  watchers is one of them, and so is every watcher that a dial request is
  under way to, if and only if no call starts or ends in a way that one can
  tell from the state before the step.
-/

namespace Telepresence.AgentServer

open Telepresence.Tunnel List

/-- The session and channel of a `WatchDial` call in its loop. -/
def Frame.watches : Frame → Option (String × Nat)
  | .serve session watcher => some (session, watcher)
  | .deliver session watcher => some (session, watcher)
  | _ => none

/-- The session and watcher of a call that is going to send a dial request. -/
def Frame.dials : Frame → Option (String × Nat)
  | .await _ key watcher => some (key.1, watcher)
  | .request _ key watcher _ => some (key.1, watcher)
  | _ => none

/-- A call of the session reads the channel. -/
def Running (frames : List Frame) (session : String) (watcher : Nat) : Prop :=
  ∃ f ∈ frames, f.watches = some (session, watcher)

/-- A dial request of the session is under way to the watcher. -/
def Pending (sh : Shared) (frames : List Frame) (session : String) (watcher : Nat) : Prop :=
  (∃ f ∈ frames, f.dials = some (session, watcher)) ∨
    ∃ r ∈ sh.requests, r.key.1 = session ∧ r.watcher = watcher

/-- Where a session has running watchers, its entry is one of them, and so is
every watcher that a dial request is under way to. -/
def Served (sh : Shared) (frames : List Frame) : Prop :=
  ∀ session, (∃ watcher, Running frames session watcher) →
    (∃ watcher, sh.dialWatchers.lookup session = some watcher ∧ Running frames session watcher) ∧
      ∀ watcher, Pending sh frames session watcher → Running frames session watcher

/-- A watcher starts while another one of the session is running or no dial
request of the session is under way; it ends while no other one of the session
is running, or its entry has been replaced and no dial request is under way to
it; it deletes the entry while no watcher of the session is running. -/
def Frame.Allowed (sh : Shared) (frames : List Frame) : Frame → Choice → Prop
  | .watchDial session, _ =>
      (∃ watcher, Running frames session watcher) ∨ ∀ watcher, ¬ Pending sh frames session watcher
  | .serve session watcher, .done =>
      (∃ other, other ≠ watcher ∧ Running frames session other) →
        sh.dialWatchers.lookup session ≠ some watcher ∧ ¬ Pending sh frames session watcher
  | .deliver session watcher, .fail =>
      (∃ other, other ≠ watcher ∧ Running frames session other) →
        sh.dialWatchers.lookup session ≠ some watcher ∧ ¬ Pending sh frames session watcher
  | .unwatch session, _ => ∀ watcher, ¬ Running frames session watcher
  | _, _ => True

/-- The step of a thread is allowed. -/
def WatchAllowed (p : Server) : Event → Prop
  | .start _ => True
  | .run thread choice => ∀ f, p.top thread = some f → f.Allowed p.shared p.frames choice

/-! ## What a step does to the watchers -/

/-- The effect of a step on watchers and dial requests. -/
inductive WatchEffect (sh : Shared) (f : Frame) (c : Choice) (sh' : Shared) (fs : List Frame) :
    Prop where
  /-- The watchers stay, and there are no new dial requests. -/
  | quiet (hmap : sh'.dialWatchers = sh.dialWatchers) (hnext : sh.next ≤ sh'.next)
      (hrequests : ∀ r ∈ sh'.requests, r ∈ sh.requests ∨ f.dials = some (r.key.1, r.watcher))
      (hwatches : fs.filterMap Frame.watches = f.watches.toList)
      (hdials : ∀ g ∈ fs, ∀ x, g.dials = some x → f.dials = some x)
      (hallowed : ∀ frames, f.Allowed sh frames c)
  /-- A call finds a watcher. -/
  | load (call : Nat) (key : Key) (watcher : Nat) (hf : f = .dial call key)
      (hmap : sh.dialWatchers.lookup key.1 = some watcher) (hsh : sh' = sh)
      (hfs : fs = [.await call key watcher])
  /-- A watcher starts. -/
  | store (session : String) (hf : f = .watchDial session)
      (hsh : sh' = { sh with
        next := sh.next + 1
        dialWatchers := sh.dialWatchers.insert session sh.next })
      (hfs : fs = [.serve session sh.next])
  /-- A watcher leaves its loop. -/
  | leave (session : String) (watcher : Nat) (hf : f.watches = some (session, watcher))
      (hdials : f.dials = none) (hsh : sh' = sh) (hfs : fs = [.unwatch session])
      (hallowed : ∀ frames, f.Allowed sh frames c ↔
        ((∃ other, other ≠ watcher ∧ Running frames session other) →
          sh.dialWatchers.lookup session ≠ some watcher ∧ ¬ Pending sh frames session watcher))
  /-- The entry of the session is deleted. -/
  | delete (session : String) (hf : f = .unwatch session)
      (hsh : sh' = { sh with dialWatchers := sh.dialWatchers.erase session }) (hfs : fs = [])

variable {sh sh' : Shared} {f : Frame} {c : Choice} {fs : List Frame}

theorem exec_watchEffect (h : exec sh f c = some (sh', fs)) : WatchEffect sh f c sh' fs := by
  cases f <;> cases c <;> simp only [exec, reduceCtorEq] at h
  case watchDial.next session =>
    cases h
    exact .store session rfl rfl rfl
  case serve.done session watcher | deliver.fail session watcher =>
    cases h
    exact .leave session watcher rfl rfl rfl rfl (fun _ => Iff.rfl)
  case serve.take session watcher call =>
    split at h <;> cases h
    exact .quiet rfl (Nat.le_refl _) (fun r hr => .inl (mem_of_mem_erase hr)) rfl
      (by simp [Frame.dials]) (fun _ => trivial)
  case unwatch.next session =>
    cases h
    exact .delete session rfl rfl rfl
  case dial.next call key =>
    split at h
    · cases h
    · rename_i watcher hwatcher
      cases h
      exact .load call key watcher rfl hwatcher rfl rfl
  case request.next call key watcher streamCh =>
    cases h
    refine .quiet rfl (Nat.le_refl _) ?_ rfl (by simp [Frame.dials]) (fun _ => trivial)
    exact forall_mem_cons.mpr ⟨.inr rfl, fun r hr => .inl hr⟩
  -- The other steps change neither the watchers nor the dial requests.
  all_goals
    (try split at h) <;> cases h <;>
      exact .quiet rfl (by simp) (fun r hr => .inl hr) rfl (by simp [Frame.dials])
        (fun _ => trivial)

/-! ## The invariant -/

/-- The running watchers, with their sessions. -/
def watchers (frames : List Frame) : List (String × Nat) := frames.filterMap Frame.watches

variable {frames : List Frame} {session : String} {watcher : Nat}

theorem running_iff : Running frames session watcher ↔ (session, watcher) ∈ watchers frames :=
  mem_filterMap.symm

theorem watchers_cons (f : Frame) (frames : List Frame) :
    watchers (f :: frames) = f.watches.toList ++ watchers frames := by
  unfold watchers
  cases hf : f.watches with
  | none => rw [filterMap_cons_none hf]; rfl
  | some x => rw [filterMap_cons_some hf]; rfl

theorem watchers_append (fs frames : List Frame) :
    watchers (fs ++ frames) = watchers fs ++ watchers frames := filterMap_append ..

/-- The state is served, no two watchers share a channel, and the numbers to
come are not in use. -/
structure WatchInv (sh : Shared) (frames : List Frame) : Prop where
  served : Served sh frames
  nodup : (watchers frames).Nodup
  running : ∀ session watcher, Running frames session watcher → watcher < sh.next
  entries : ∀ session watcher,
    sh.dialWatchers.lookup session = some watcher → watcher < sh.next
  pending : ∀ session watcher, Pending sh frames session watcher → watcher < sh.next

variable {frames' : List Frame}

/-- With the same watchers and no more dial requests, nothing changes. -/
theorem WatchInv.of_same (h : WatchInv sh frames) (hmap : sh'.dialWatchers = sh.dialWatchers)
    (hnext : sh.next ≤ sh'.next) (hwatchers : (watchers frames').Perm (watchers frames))
    (hpending : ∀ session watcher,
      Pending sh' frames' session watcher → Pending sh frames session watcher) :
    WatchInv sh' frames' := by
  have hrunning : ∀ session watcher,
      Running frames' session watcher ↔ Running frames session watcher := by
    intro session watcher
    rw [running_iff, running_iff, hwatchers.mem_iff]
  refine ⟨?_, hwatchers.nodup_iff.mpr h.nodup, ?_, ?_, ?_⟩
  · rintro session ⟨watcher, hrun⟩
    obtain ⟨⟨w, hentry, hw⟩, hpend⟩ := h.served session ⟨watcher, (hrunning _ _).mp hrun⟩
    refine ⟨⟨w, by rw [hmap]; exact hentry, (hrunning _ _).mpr hw⟩, ?_⟩
    intro w' hw'
    exact (hrunning _ _).mpr (hpend w' (hpending _ _ hw'))
  · intro session watcher hrun
    exact Nat.lt_of_lt_of_le (h.running session watcher ((hrunning _ _).mp hrun)) hnext
  · intro session watcher hentry
    rw [hmap] at hentry
    exact Nat.lt_of_lt_of_le (h.entries session watcher hentry) hnext
  · intro session watcher hpend
    exact Nat.lt_of_lt_of_le (h.pending session watcher (hpending _ _ hpend)) hnext

theorem pending_perm (h : frames.Perm frames') :
    Pending sh frames session watcher ↔ Pending sh frames' session watcher := by
  simp only [Pending, h.mem_iff]

theorem running_perm (h : frames.Perm frames') :
    Running frames session watcher ↔ Running frames' session watcher := by
  simp only [Running, h.mem_iff]

theorem WatchInv.perm (h : WatchInv sh frames) (hperm : frames.Perm frames') :
    WatchInv sh frames' :=
  h.of_same rfl (Nat.le_refl _) (hperm.symm.filterMap _) (fun _ _ => (pending_perm hperm).mpr)

theorem Served.perm (h : Served sh frames) (hperm : frames.Perm frames') : Served sh frames' := by
  intro session
  have hserved := h session
  simp only [running_perm hperm, pending_perm hperm] at hserved
  exact hserved

theorem allowed_perm (h : frames.Perm frames') (hallow : f.Allowed sh frames c) :
    f.Allowed sh frames' c := by
  cases f with
  | watchDial session =>
    simpa only [Frame.Allowed, running_perm h, pending_perm h] using hallow
  | serve session watcher =>
    cases c with
    | done => simpa only [Frame.Allowed, running_perm h, pending_perm h] using hallow
    | _ => exact trivial
  | deliver session watcher =>
    cases c with
    | fail => simpa only [Frame.Allowed, running_perm h, pending_perm h] using hallow
    | _ => exact trivial
  | unwatch session => simpa only [Frame.Allowed, running_perm h] using hallow
  | _ => exact trivial

/-! ## Steps -/

variable {others : List Frame}

/-- Where no watcher comes or goes. -/
theorem WatchInv.quiet (h : WatchInv sh (f :: others)) (hmap : sh'.dialWatchers = sh.dialWatchers)
    (hnext : sh.next ≤ sh'.next)
    (hrequests : ∀ r ∈ sh'.requests, r ∈ sh.requests ∨ f.dials = some (r.key.1, r.watcher))
    (hwatches : fs.filterMap Frame.watches = f.watches.toList)
    (hdials : ∀ g ∈ fs, ∀ x, g.dials = some x → f.dials = some x) :
    WatchInv sh' (fs ++ others) := by
  refine h.of_same hmap hnext ?_ ?_
  · rw [watchers_append, watchers_cons, watchers, hwatches]
  · rintro session watcher (⟨g, hg, hdial⟩ | ⟨r, hr, hsession, hwatcher⟩)
    · rcases mem_append.mp hg with hg | hg
      · exact .inl ⟨f, mem_cons_self, hdials g hg _ hdial⟩
      · exact .inl ⟨g, mem_cons_of_mem f hg, hdial⟩
    · rcases hrequests r hr with hr | hdial
      · exact .inr ⟨r, hr, hsession, hwatcher⟩
      · refine .inl ⟨f, mem_cons_self, ?_⟩
        rw [hdial, hsession, hwatcher]

variable {w : Nat}

theorem running_cons_iff : Running (f :: others) session w ↔
    f.watches = some (session, w) ∨ Running others session w := exists_mem_cons_iff ..

theorem pending_cons_iff : Pending sh (f :: others) session w ↔
    f.dials = some (session, w) ∨ Pending sh others session w := by
  rw [Pending, Pending, exists_mem_cons_iff, or_assoc]

theorem running_cons_of_none (hf : f.watches = none) :
    Running (f :: others) session w ↔ Running others session w := by
  simp [running_cons_iff, hf]

theorem pending_cons_of_none (hf : f.dials = none) :
    Pending sh (f :: others) session w ↔ Pending sh others session w := by
  simp [pending_cons_iff, hf]

/-- Frames that neither watch nor dial do not matter. -/
theorem watchInv_cons_iff (hwatches : f.watches = none) (hdials : f.dials = none) :
    WatchInv sh (f :: others) ↔ WatchInv sh others := by
  have hsame : watchers (f :: others) = watchers others := by
    rw [watchers_cons, hwatches]
    rfl
  constructor <;> intro h <;> refine h.of_same rfl (Nat.le_refl _) (.of_eq (by rw [hsame])) ?_ <;>
    exact fun s w => by simp [pending_cons_of_none hdials]

/-- A call that finds a watcher finds a running one, if there is any. -/
theorem WatchInv.load {call : Nat} {key : Key} (h : WatchInv sh others)
    (hmap : sh.dialWatchers.lookup key.1 = some watcher) :
    WatchInv sh (.await call key watcher :: others) := by
  have hrunning : ∀ s w, Running (.await call key watcher :: others) s w ↔ Running others s w :=
    fun s w => running_cons_of_none rfl
  have hpending : ∀ s w, Pending sh (.await call key watcher :: others) s w ↔
      some (key.1, watcher) = some (s, w) ∨ Pending sh others s w := fun s w => pending_cons_iff
  refine ⟨?_, by rw [watchers_cons]; exact h.nodup, ?_, h.entries, ?_⟩
  · rintro s ⟨w, hrun⟩
    simp only [hrunning, hpending] at hrun ⊢
    obtain ⟨⟨w', hentry, hw'⟩, hpend⟩ := h.served s ⟨w, hrun⟩
    refine ⟨⟨w', hentry, hw'⟩, ?_⟩
    rintro w'' (heq | hw'')
    · cases heq
      cases hmap.symm.trans hentry
      exact hw'
    · exact hpend w'' hw''
  · intro s w hrun
    exact h.running s w ((hrunning s w).mp hrun)
  · intro s w hpend
    rcases (hpending s w).mp hpend with heq | hpend
    · cases heq
      exact h.entries _ _ hmap
    · exact h.pending s w hpend

/-- The state after a watcher has stored its channel. -/
def Shared.watch (sh : Shared) (session : String) : Shared :=
  { sh with next := sh.next + 1, dialWatchers := sh.dialWatchers.insert session sh.next }

theorem lookup_watch (sh : Shared) (session s : String) :
    (sh.watch session).dialWatchers.lookup s =
      if s = session then some sh.next else sh.dialWatchers.lookup s :=
  GoMap.lookup_insert_eq ..

/-- The new watcher takes over the entry.  Requests that are under way were
sent to a watcher that is running, or there are none. -/
theorem Served.store (h : Served sh others)
    (hallow : (∃ w, Running others session w) ∨ ∀ w, ¬ Pending sh others session w) :
    Served (sh.watch session) (.serve session sh.next :: others) := by
  have hpending : ∀ s w, Pending (sh.watch session) (.serve session sh.next :: others) s w →
      Pending sh others s w := fun s w hw => (pending_cons_of_none rfl).mp hw
  have hkeep : ∀ s w, Running others s w → Running (.serve session sh.next :: others) s w :=
    fun s w hw => running_cons_iff.mpr (.inr hw)
  rintro s ⟨w, hrun⟩
  by_cases hs : s = session
  · subst hs
    refine ⟨⟨sh.next, by rw [lookup_watch, if_pos rfl], running_cons_iff.mpr (.inl rfl)⟩, ?_⟩
    intro w' hw'
    rcases hallow with hrunning | hnone
    · exact hkeep s w' ((h s hrunning).2 w' (hpending s w' hw'))
    · exact absurd (hpending s w' hw') (hnone w')
  · have hrun' : Running others s w := by
      rcases running_cons_iff.mp hrun with heq | hrun
      · cases heq
        exact absurd rfl hs
      · exact hrun
    obtain ⟨⟨w', hentry, hw'⟩, hpend⟩ := h s ⟨w, hrun'⟩
    refine ⟨⟨w', by rw [lookup_watch, if_neg hs, hentry], hkeep s w' hw'⟩, ?_⟩
    intro w'' hw''
    exact hkeep s w'' (hpend w'' (hpending s w'' hw''))

/-- A watcher that starts takes over the entry. -/
theorem WatchInv.store (h : WatchInv sh others)
    (hallow : (∃ w, Running others session w) ∨ ∀ w, ¬ Pending sh others session w) :
    WatchInv (sh.watch session) (.serve session sh.next :: others) := by
  refine ⟨h.served.store hallow, ?_, ?_, ?_, ?_⟩
  · rw [watchers_cons]
    refine nodup_cons.mpr ⟨fun hmem => ?_, h.nodup⟩
    exact Nat.lt_irrefl _ (h.running session sh.next (running_iff.mpr hmem))
  · intro s w hrun
    rcases running_cons_iff.mp hrun with heq | hrun
    · cases heq
      exact Nat.lt_succ_self _
    · exact Nat.lt_succ_of_lt (h.running s w hrun)
  · intro s w hentry
    rcases GoMap.lookup_of_insert hentry with ⟨_, rfl⟩ | hold
    · exact Nat.lt_succ_self _
    · exact Nat.lt_succ_of_lt (h.entries s w hold)
  · intro s w hpend
    exact Nat.lt_succ_of_lt (h.pending s w ((pending_cons_of_none rfl).mp hpend))

/-- A watcher leaves. -/
theorem WatchInv.leave (h : WatchInv sh (f :: others)) (hf : f.watches = some (session, watcher))
    (hdials : f.dials = none)
    (hallow : (∃ other, other ≠ watcher ∧ Running (f :: others) session other) →
      sh.dialWatchers.lookup session ≠ some watcher ∧
        ¬ Pending sh (f :: others) session watcher) : WatchInv sh others := by
  have hstill : ∀ s w, Running others s w → Running (f :: others) s w :=
    fun s w hw => running_cons_iff.mpr (.inr hw)
  have hpending : ∀ s w, Pending sh others s w → Pending sh (f :: others) s w :=
    fun s w => (pending_cons_of_none hdials).mpr
  have hnodup := h.nodup
  rw [watchers_cons, hf] at hnodup
  obtain ⟨hgone, hnodup⟩ := nodup_cons.mp hnodup
  refine ⟨?_, hnodup, fun s w hw => h.running s w (hstill s w hw), h.entries,
    fun s w hw => h.pending s w (hpending s w hw)⟩
  rintro s ⟨w, hrun⟩
  obtain ⟨⟨w', hentry, hw'⟩, hpend⟩ := h.served s ⟨w, hstill s w hrun⟩
  -- whoever is running and is not this watcher still is
  have hkept : ∀ w'', Running (f :: others) s w'' → (s = session → w'' ≠ watcher) →
      Running others s w'' := by
    intro w'' hw'' hne
    rcases running_cons_iff.mp hw'' with heq | hw''
    · cases hf.symm.trans heq
      exact absurd rfl (hne rfl)
    · exact hw''
  have hother : s = session → sh.dialWatchers.lookup session ≠ some watcher ∧
      ¬ Pending sh (f :: others) session watcher := by
    rintro rfl
    refine hallow ⟨w, ?_, hstill s w hrun⟩
    rintro rfl
    exact hgone (running_iff.mp hrun)
  refine ⟨⟨w', hentry, hkept w' hw' ?_⟩, ?_⟩
  · rintro rfl rfl
    exact (hother rfl).1 hentry
  · intro w'' hw''
    refine hkept w'' (hpend w'' (hpending s w'' hw'')) ?_
    rintro rfl rfl
    exact (hother rfl).2 (hpending s w'' hw'')

/-- The entry of a session without watchers is deleted. -/
theorem WatchInv.delete (h : WatchInv sh others) (hallow : ∀ w, ¬ Running others session w) :
    WatchInv { sh with dialWatchers := sh.dialWatchers.erase session } others := by
  refine ⟨?_, h.nodup, h.running, fun s w hentry => h.entries s w (GoMap.lookup_of_erase hentry).2,
    h.pending⟩
  rintro s ⟨w, hrun⟩
  have hne : s ≠ session := by
    rintro rfl
    exact hallow w hrun
  obtain ⟨⟨w', hentry, hw'⟩, hpend⟩ := h.served s ⟨w, hrun⟩
  refine ⟨⟨w', ?_, hw'⟩, hpend⟩
  show (sh.dialWatchers.erase session).lookup s = some w'
  rw [GoMap.lookup_erase_eq, if_neg hne, hentry]

/-- **Allowed steps** keep the invariant. -/
theorem WatchInv.exec (h : WatchInv sh (f :: others)) (hallow : f.Allowed sh (f :: others) c)
    (hexec : exec sh f c = some (sh', fs)) : WatchInv sh' (fs ++ others) := by
  cases exec_watchEffect hexec with
  | quiet hmap hnext hrequests hwatches hdials _ =>
    exact h.quiet hmap hnext hrequests hwatches hdials
  | load call key watcher hf hmap hsh hfs =>
    subst hf hsh hfs
    exact ((watchInv_cons_iff rfl rfl).mp h).load hmap
  | store session hf hsh hfs =>
    subst hf hsh hfs
    simp only [Frame.Allowed, running_cons_iff, pending_cons_iff, Frame.watches, Frame.dials,
      reduceCtorEq, false_or] at hallow
    exact ((watchInv_cons_iff rfl rfl).mp h).store hallow
  | leave session watcher hf hdials hsh hfs hiff =>
    subst hsh hfs
    exact (watchInv_cons_iff rfl rfl).mpr (h.leave hf hdials ((hiff _).mp hallow))
  | delete session hf hsh hfs =>
    subst hf hsh hfs
    simp only [Frame.Allowed, running_cons_iff, Frame.watches, reduceCtorEq, false_or] at hallow
    exact ((watchInv_cons_iff rfl rfl).mp h).delete hallow

/-- **Other steps** destroy the property. -/
theorem not_served_of_not_allowed (h : WatchInv sh (f :: others))
    (hallow : ¬ f.Allowed sh (f :: others) c) (hexec : AgentServer.exec sh f c = some (sh', fs)) :
    ¬ Served sh' (fs ++ others) := by
  cases exec_watchEffect hexec with
  | quiet _ _ _ _ _ hallowed => exact absurd (hallowed _) hallow
  | load call key watcher hf _ _ _ =>
    subst hf
    exact absurd trivial hallow
  | store session hf hsh hfs =>
    subst hf hsh hfs
    simp only [Frame.Allowed, running_cons_iff, pending_cons_iff, Frame.watches, Frame.dials,
      reduceCtorEq, false_or, not_or, not_exists, not_forall, not_not] at hallow
    obtain ⟨hnone, w, hpend⟩ := hallow
    intro hserved
    -- the request that is under way cannot be meant for the new watcher
    have hrun := (hserved session ⟨sh.next, running_cons_iff.mpr (.inl rfl)⟩).2 w
      ((pending_cons_of_none rfl).mpr hpend)
    have hlt := ((watchInv_cons_iff rfl rfl).mp h).pending session w hpend
    rcases running_cons_iff.mp hrun with heq | hrun
    · cases heq
      omega
    · exact hnone w hrun
  | leave session watcher hf hdials hsh hfs hiff =>
    subst hsh hfs
    rw [hiff, Classical.not_imp] at hallow
    obtain ⟨⟨other, hne, hother⟩, hstill⟩ := hallow
    have hnodup := h.nodup
    rw [watchers_cons, hf] at hnodup
    have hgone := (nodup_cons.mp hnodup).1
    intro hserved
    have hother' : Running ([.unwatch session] ++ others) session other := by
      rcases running_cons_iff.mp hother with heq | hother
      · cases hf.symm.trans heq
        exact absurd rfl hne
      · exact running_cons_iff.mpr (.inr hother)
    obtain ⟨⟨w, hentry, hw⟩, hpend⟩ := hserved session ⟨other, hother'⟩
    have hnot : ¬ Running ([.unwatch session] ++ others) session watcher :=
      fun hrun => hgone (running_iff.mp ((running_cons_of_none rfl).mp hrun))
    refine hstill ⟨?_, ?_⟩
    · intro hmap
      cases hmap.symm.trans hentry
      exact hnot hw
    · intro hp
      refine hnot (hpend watcher ?_)
      rw [pending_cons_of_none hdials] at hp
      exact (pending_cons_of_none rfl).mpr hp
  | delete session hf hsh hfs =>
    subst hf hsh hfs
    simp only [Frame.Allowed, running_cons_iff, Frame.watches, reduceCtorEq, false_or, not_forall,
      not_not] at hallow
    obtain ⟨w, hrun⟩ := hallow
    intro hserved
    obtain ⟨⟨w', hentry, _⟩, _⟩ := hserved session ⟨w, hrun⟩
    exact absurd rfl (GoMap.lookup_of_erase hentry).1

/-- Calls that have just started change nothing. -/
theorem WatchInv.start (h : WatchInv sh frames) (op : Op) : WatchInv sh (frames ++ program op) := by
  have hwatches : ∀ f ∈ program op, f.watches = none ∧ f.dials = none := by
    cases op <;> exact forall_mem_singleton.mpr ⟨rfl, rfl⟩
  refine h.of_same rfl (Nat.le_refl _) ?_ ?_
  · rw [watchers_append]
    have hnil : watchers (program op) = [] :=
      filterMap_eq_nil_iff.mpr fun f hf => (hwatches f hf).1
    rw [hnil, append_nil]
  · rintro session watcher (⟨f, hf, hdial⟩ | hr)
    · rcases mem_append.mp hf with hf | hf
      · exact .inl ⟨f, hf, hdial⟩
      · rw [(hwatches f hf).2] at hdial
        cases hdial
    · exact .inr hr

/-- **Dial watchers.**  In every state of a run, each session with running
`WatchDial` calls is served, if and only if all steps of the run are
allowed. -/
theorem watchers_served_iff (events : List Event) :
    Runs.Always step (fun p => Served p.shared p.frames) ⟨{}, []⟩ events ↔
      Runs.Meets step WatchAllowed ⟨{}, []⟩ events := by
  have hprop : ∀ p : Server, WatchInv p.shared p.frames → Served p.shared p.frames :=
    fun _ hp => hp.served
  refine Runs.always_iff_meets hprop ?_ ?_ ?_ events
  · intro p e p' hp hallow hstep
    rcases Threads.step_cases hstep with
      ⟨op, _, hsh, hframes⟩ | ⟨thread, c, f, fs, others, rfl, htop, hexec, hold, hnew⟩
    · rw [hsh, hframes]
      exact hp.start op
    · have hf := allowed_perm hold (hallow f htop)
      exact ((hp.perm hold).exec hf hexec).perm hnew.symm
  · intro p e p' hp hallow hstep hserved
    rcases Threads.step_cases hstep with
      ⟨op, rfl, _, _⟩ | ⟨thread, c, f, fs, others, rfl, htop, hexec, hold, hnew⟩
    · exact hallow trivial
    · refine not_served_of_not_allowed (hp.perm hold) ?_ hexec (hserved.perm hnew)
      intro hf
      refine hallow ?_
      intro f' htop'
      rw [htop] at htop'
      cases htop'
      exact allowed_perm hold.symm hf
  · refine ⟨?_, nodup_nil, ?_, ?_, ?_⟩
    · rintro session ⟨w, f, hf, _⟩
      cases hf
    · rintro session w ⟨f, hf, _⟩
      cases hf
    · intro session w hentry
      cases hentry
    · rintro session w (⟨f, hf, _⟩ | ⟨r, hr, _⟩)
      · cases hf
      · cases hr

/-- A client reconnects before its first call has ended.  When that ends, the
second call is running and has no entry. -/
theorem watcher_lost :
    ∃ p : Server,
      Runs.run step ⟨{}, []⟩
          [.start (.watchDial "c"), .run 0 .next, .start (.watchDial "c"), .run 1 .next,
            .run 0 .done, .run 0 .next] = some p ∧
        Running p.frames "c" 1 ∧ p.shared.dialWatchers.lookup "c" = none :=
  ⟨_, rfl, ⟨_, mem_cons_self, rfl⟩, rfl⟩

end Telepresence.AgentServer
