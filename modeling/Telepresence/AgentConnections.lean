import Telepresence.AgentSteps

/-!
# Who owns a connection to an agent

A connection belongs to the client whose `cli` it is, and a dial watcher to
the client whose `cancelDialWatch` ends it; both have to go before the client
leaves the map.  Three things can come between: a client may be connected
after it has left the map; the goroutine that closes a connection clears
whatever connection its client has by then, and the function that ends a dial
watcher clears whatever watcher is there; and `remove` deletes by the key, so
that a client can be deleted in another's place.

* `ConnInv`: every open connection and every running watcher is owned or on
  its way to the end.
* `connections_owned`: which steps keep it so.
-/

namespace Telepresence.AgentPf

open Threads Runs List Function

/-! ## The property -/

/-- The client is in the map. -/
def InMap (s : Shared) (ac : Nat) : Prop := ∃ k, s.clients.lookup k = some ac

/-- No call, no update and no goroutine that closes a connection is in
progress. -/
def Quiescent (p : Clients) : Prop := p.Idle ∧ p.shared.closing = []

/-- Every open connection is that of a client in the map, and a client that is
not in the map has neither an open connection nor a running dial watcher. -/
def Owned (p : Clients) : Prop :=
  Quiescent p →
    (∀ c, (p.shared.conns c).isOpen = true →
      ∃ ac, InMap p.shared ac ∧ (p.shared.objects ac).cli = some c) ∧
    ∀ ac, ¬ InMap p.shared ac →
      (∀ c, (p.shared.conns c).client = ac → (p.shared.conns c).isOpen = false) ∧
      ∀ w, (p.shared.watchers w).client = ac → (p.shared.watchers w).running = false

/-! ## The invariant -/

/-- The connection is about to be closed. -/
def Closing (s : Shared) (fs : List Frame) (c : Nat) : Prop :=
  ∃ ac, (ac, c) ∈ s.closing ∨ .closeClient ac c ∈ fs

/-- The dial watcher is about to be cancelled. -/
def Stopping (fs : List Frame) (w : Nat) : Prop :=
  .cancelWatch w ∈ fs ∨ ∃ ac, .stopWatch ac w ∈ fs

/-- The invariant, for the frames of all threads. -/
structure ConnInv (s : Shared) (fs : List Frame) : Prop where
  known : ∀ k ac, s.clients.lookup k = some ac → ac < s.nextClient
  fresh : ∀ ac c, (s.objects ac).cli = some c → c < s.nextConn
  client : ∀ ac c, (s.objects ac).cli = some c → (s.conns c).client = ac
  conns : ∀ c, (s.conns c).isOpen = true →
    Closing s fs c ∨ ∃ ac, InMap s ac ∧ (s.objects ac).cli = some c
  watchers : ∀ w, (s.watchers w).running = true →
    Stopping fs w ∨ InMap s (s.watchers w).client ∧
      (s.objects (s.watchers w).client).cancelDialWatch = some w

/-- With nothing on its way to the end, everything is owned. -/
theorem ConnInv.owned {p : Clients} (h : ConnInv p.shared p.frames) : Owned p := by
  rintro ⟨hidle, hclosing⟩
  have hconns : ∀ c, (p.shared.conns c).isOpen = true →
      ∃ ac, InMap p.shared ac ∧ (p.shared.objects ac).cli = some c := by
    intro c hc
    refine (h.conns c hc).resolve_left ?_
    rintro ⟨ac, hmem | hmem⟩
    · rw [hclosing] at hmem
      cases hmem
    · rw [hidle] at hmem
      cases hmem
  refine ⟨hconns, ?_⟩
  intro ac hac
  constructor
  · intro c hclient
    by_contra hopen
    obtain ⟨ac', hin, hcli⟩ := hconns c (by simpa using hopen)
    rw [h.client ac' c hcli] at hclient
    exact hac (hclient ▸ hin)
  · intro w hclient
    by_contra hrunning
    rcases h.watchers w (by simpa using hrunning) with hstopping | ⟨hin, -⟩
    · rw [hidle] at hstopping
      simp [Stopping] at hstopping
    · exact hac (hclient ▸ hin)

/-- The frame ends a connection or a dial watcher. -/
def Frame.ends : Frame → Bool
  | .closeClient _ _ | .cancelWatch _ | .stopWatch _ _ => true
  | _ => false

variable {f : Frame}

theorem Frame.ends_of_plain (h : f.plain) : f.ends = false := by
  cases f <;> first | rfl | cases h

variable {others : List Frame}

theorem mem_of_ends {g : Frame} (hf : f.ends = false) (hg : g.ends = true) (h : g ∈ f :: others) :
    g ∈ others := by
  refine (mem_cons.mp h).resolve_left ?_
  rintro rfl
  rw [hf] at hg
  cases hg

variable {s : Shared}

theorem Closing.drop {c : Nat} (hf : f.ends = false) (h : Closing s (f :: others) c) :
    Closing s others c := by
  obtain ⟨ac, hmem⟩ := h
  exact ⟨ac, hmem.imp_right (mem_of_ends hf rfl)⟩

theorem Stopping.drop {w : Nat} (hf : f.ends = false) (h : Stopping (f :: others) w) :
    Stopping others w := by
  rcases h with hmem | ⟨ac, hmem⟩
  · exact .inl (mem_of_ends hf rfl hmem)
  · exact .inr ⟨ac, mem_of_ends hf rfl hmem⟩

theorem Stopping.append {w : Nat} (h : Stopping others w) (fs : List Frame) :
    Stopping (fs ++ others) w := by
  rcases h with hmem | ⟨ac, hmem⟩
  · exact .inl (mem_append_right fs hmem)
  · exact .inr ⟨ac, mem_append_right fs hmem⟩

theorem Closing.append {c : Nat} (h : Closing s others c) (fs : List Frame) :
    Closing s (fs ++ others) c := by
  obtain ⟨ac, hmem⟩ := h
  exact ⟨ac, hmem.imp_right (mem_append_right fs)⟩

variable {fs : List Frame}

/-- Other frames, which end what these end. -/
theorem ConnInv.frames {fs' : List Frame} (h : ConnInv s fs)
    (hclosing : ∀ c, Closing s fs c → Closing s fs' c)
    (hstopping : ∀ w, (s.watchers w).running = true → Stopping fs w → Stopping fs' w) :
    ConnInv s fs' where
  known := h.known
  fresh := h.fresh
  client := h.client
  conns := fun c hc => (h.conns c hc).imp_left (hclosing c)
  watchers := fun w hw => (h.watchers w hw).imp_left (hstopping w hw)

/-- A frame may go if it ends nothing, and any frame may come. -/
theorem ConnInv.replace (h : ConnInv s (f :: others)) (hf : f.ends = false) :
    ConnInv s (fs ++ others) :=
  h.frames (fun _ hclosing => (hclosing.drop hf).append fs)
    fun _ _ hstopping => (hstopping.drop hf).append fs

theorem ConnInv.perm {fs' : List Frame} (h : ConnInv s fs) (hp : fs.Perm fs') : ConnInv s fs' :=
  h.frames (by simp only [Closing, hp.mem_iff, imp_self, implies_true])
    (by simp only [Stopping, hp.mem_iff, imp_self, implies_true])

/-! ## Changes that concern no connection -/

/-- The clients, their connections and their dial watchers are the same. -/
structure SameConns (s s' : Shared) : Prop where
  conns : s'.conns = s.conns
  nextConn : s'.nextConn = s.nextConn
  watchers : s'.watchers = s.watchers
  clients : s'.clients = s.clients
  nextClient : s'.nextClient = s.nextClient
  closing : s'.closing = s.closing
  cli : ∀ ac, (s'.objects ac).cli = (s.objects ac).cli
  cancelDialWatch : ∀ ac, (s'.objects ac).cancelDialWatch = (s.objects ac).cancelDialWatch

theorem SameConns.refl (s : Shared) : SameConns s s :=
  ⟨rfl, rfl, rfl, rfl, rfl, rfl, fun _ => rfl, fun _ => rfl⟩

variable {s' : Shared}

theorem SameConns.trans {s'' : Shared} (h : SameConns s s') (h' : SameConns s' s'') :
    SameConns s s'' where
  conns := h'.conns.trans h.conns
  nextConn := h'.nextConn.trans h.nextConn
  watchers := h'.watchers.trans h.watchers
  clients := h'.clients.trans h.clients
  nextClient := h'.nextClient.trans h.nextClient
  closing := h'.closing.trans h.closing
  cli := fun ac => (h'.cli ac).trans (h.cli ac)
  cancelDialWatch := fun ac => (h'.cancelDialWatch ac).trans (h.cancelDialWatch ac)

theorem ConnInv.same (h : ConnInv s fs) (hsame : SameConns s s') : ConnInv s' fs := by
  obtain ⟨hconns, hnext, hwatchers, hclients, hnextClient, hclosing, hcli, hcancel⟩ := hsame
  constructor
  · rw [hclients, hnextClient]
    exact h.known
  · simp only [hcli, hnext]
    exact h.fresh
  · simp only [hcli, hconns]
    exact h.client
  · simp only [hconns, hcli, Closing, InMap, hclosing, hclients]
    exact h.conns
  · simp only [hwatchers, hcancel, InMap, hclients]
    exact h.watchers

/-- A change of a client that sets no connection, and clears only what is on its
way to the end. -/
theorem ConnInv.modify (h : ConnInv s fs) {ac : Nat} {f : Client → Client}
    (hfresh : ∀ c, (f (s.objects ac)).cli = some c → (s.objects ac).cli = some c)
    (hcli : ∀ c, (s.objects ac).cli = some c → (s.conns c).isOpen = true →
      (f (s.objects ac)).cli = some c ∨ Closing s fs c)
    (hcancel : ∀ w, (s.objects ac).cancelDialWatch = some w → (s.watchers w).running = true →
      (f (s.objects ac)).cancelDialWatch = some w ∨ Stopping fs w) :
    ConnInv (s.modify ac f) fs := by
  have hold : ∀ ac' c, ((s.modify ac f).objects ac').cli = some c →
      (s.objects ac').cli = some c := by
    intro ac' c
    simp only [Shared.modify, update_apply]
    grind
  refine ⟨h.known, fun ac' c hc => h.fresh ac' c (hold ac' c hc),
    fun ac' c hc => h.client ac' c (hold ac' c hc), ?_, ?_⟩
  · intro c hc
    rcases h.conns c hc with hclosing | ⟨ac', hin, hcli'⟩
    · exact .inl hclosing
    · rcases eq_or_ne ac' ac with rfl | hne
      · refine (hcli c hcli' hc).symm.imp_right fun hnew => ⟨ac', hin, ?_⟩
        simpa [Shared.modify] using hnew
      · exact .inr ⟨ac', hin, by simpa [Shared.modify, update_of_ne hne] using hcli'⟩
  · intro w hw
    rcases h.watchers w hw with hmem | ⟨hin, hcancel'⟩
    · exact .inl hmem
    · rcases eq_or_ne (s.watchers w).client ac with rfl | hne
      · refine (hcancel w hcancel' hw).symm.imp_right fun hnew => ⟨hin, ?_⟩
        simpa [Shared.modify] using hnew
      · exact .inr ⟨hin, by simpa [Shared.modify, update_of_ne hne] using hcancel'⟩

theorem sameConns_receive (s : Shared) (upserts : List (String × AgentPodInfo))
    (removals : List String) : SameConns s (receive s upserts removals).1 := by
  refine receive_induct upserts removals (.refl s) ?_ ?_ ?_ ?_ <;> intros <;> rename_i h <;>
    exact h.trans ⟨rfl, rfl, rfl, rfl, rfl, rfl, fun _ => rfl, fun _ => rfl⟩

/-- Waiting for a workload concerns no connection. -/
theorem WaitEffect.conns {c : Choice} (h : WaitEffect s c f s' fs) :
    SameConns s s' ∧ f.ends = false := by
  cases h with
  | pass hf hfs => exact ⟨.refl s, Frame.ends_of_plain hf⟩
  | _ => exact ⟨⟨rfl, rfl, rfl, rfl, rfl, rfl, fun _ => rfl, fun _ => rfl⟩, rfl⟩

/-! ## Connections come and go -/

section
variable {s : Shared} {fs : List Frame}

section

variable (h : ConnInv s fs)

include h

/-- A client in the map is connected. -/
theorem ConnInv.connect {ac : Nat} (hcli : (s.objects ac).cli = none)
    (hin : InMap s ac) : ConnInv (s.connect ac) fs where
  known := h.known
  fresh := by
    intro ac' c hc
    have hfresh := h.fresh ac' c
    simp only [Shared.connect, Shared.modify, update_apply] at hc ⊢
    grind
  client := by
    intro ac' c hc
    have hfresh := h.fresh ac' c
    have hclient := h.client ac' c
    simp only [Shared.connect, Shared.modify, update_apply] at hc ⊢
    grind
  conns := by
    intro c hc
    rcases eq_or_ne c s.nextConn with rfl | hne
    · exact .inr ⟨ac, hin, by simp [Shared.connect, Shared.modify]⟩
    · have hopen : (s.conns c).isOpen = true := by
        simpa only [Shared.connect, update_of_ne hne] using hc
      rcases h.conns c hopen with hclosing | ⟨ac', hin', hcli'⟩
      · exact .inl hclosing
      · refine .inr ⟨ac', hin', ?_⟩
        simp only [Shared.connect, Shared.modify, update_apply]
        grind
  watchers := by
    intro w hw
    rcases h.watchers w hw with hmem | ⟨hin', hcancel⟩
    · exact .inl hmem
    · refine .inr ⟨hin', ?_⟩
      simp only [Shared.connect, Shared.modify, update_apply]
      grind

/-- A dial watcher is started for a client in the map. -/
theorem ConnInv.startWatcher {ac : Nat}
    (hcancel : (s.objects ac).cancelDialWatch = none) (hin : InMap s ac) :
    ConnInv (s.startWatcher ac) fs where
  known := h.known
  fresh := by
    intro ac' c hc
    have hfresh := h.fresh ac' c
    simp only [Shared.startWatcher, Shared.modify, update_apply] at hc ⊢
    grind
  client := by
    intro ac' c hc
    have hclient := h.client ac' c
    simp only [Shared.startWatcher, Shared.modify, update_apply] at hc ⊢
    grind
  conns := by
    intro c hc
    rcases h.conns c hc with hclosing | ⟨ac', hin', hcli'⟩
    · exact .inl hclosing
    · refine .inr ⟨ac', hin', ?_⟩
      simp only [Shared.startWatcher, Shared.modify, update_apply]
      grind
  watchers := by
    intro w hw
    rcases eq_or_ne w s.nextWatcher with rfl | hne
    · have hclient : ((s.startWatcher ac).watchers s.nextWatcher).client = ac := by
        simp [Shared.startWatcher]
      rw [hclient]
      exact .inr ⟨hin, by simp [Shared.startWatcher, Shared.modify]⟩
    · have heq : (s.startWatcher ac).watchers w = s.watchers w := update_of_ne hne _ _
      rw [heq] at hw ⊢
      rcases h.watchers w hw with hmem | ⟨hin', hcancel'⟩
      · exact .inl hmem
      · refine .inr ⟨hin', ?_⟩
        simp only [Shared.startWatcher, Shared.modify, update_apply]
        grind

/-- A client is added under a key that has none. -/
theorem ConnInv.addClient {k : String} (ai : Nat)
    (hk : s.clients.lookup k = none) : ConnInv (s.addClient k ai) fs := by
  have hlookup : ∀ k', (s.addClient k ai).clients.lookup k' =
      if k' = k then some s.nextClient else s.clients.lookup k' := by
    intro k'
    exact GoMap.lookup_insert_eq _ _ _ _
  have hin : ∀ ac, InMap s ac → InMap (s.addClient k ai) ac ∧ ac ≠ s.nextClient := by
    rintro ac ⟨k', hk'⟩
    have hknown := h.known k' ac hk'
    refine ⟨⟨k', ?_⟩, Nat.ne_of_lt hknown⟩
    grind
  have hobject : ∀ ac, ac ≠ s.nextClient → (s.addClient k ai).objects ac = s.objects ac :=
    fun ac hac => update_of_ne hac _ _
  constructor
  · intro k' ac hac
    have hknown := h.known k' ac
    grind [Shared.addClient]
  · intro ac c hc
    have hfresh := h.fresh ac c
    simp only [Shared.addClient, update_apply] at hc ⊢
    grind
  · intro ac c hc
    have hclient := h.client ac c
    simp only [Shared.addClient, update_apply] at hc ⊢
    grind
  · intro c hc
    rcases h.conns c hc with hclosing | ⟨ac, hac, hcli⟩
    · exact .inl hclosing
    · obtain ⟨hac', hne⟩ := hin ac hac
      exact .inr ⟨ac, hac', by rw [hobject ac hne]; exact hcli⟩
  · intro w hw
    rcases h.watchers w hw with hmem | ⟨hac, hcancel⟩
    · exact .inl hmem
    · obtain ⟨hac', hne⟩ := hin _ hac
      refine .inr ⟨hac', ?_⟩
      change ((s.addClient k ai).objects (s.watchers w).client).cancelDialWatch = some w
      rw [hobject _ hne]
      exact hcancel

/-- What the client has is on its way to the end. -/
def Ending (s : Shared) (fs : List Frame) (ac : Nat) : Prop :=
  (∀ c, (s.objects ac).cli = some c → (s.conns c).isOpen = true → Closing s fs c) ∧
    ∀ w, (s.objects ac).cancelDialWatch = some w → (s.watchers w).running = true → Stopping fs w

/-- A client leaves the map when what it has is on its way to the end. -/
theorem ConnInv.erase {k : String} (hending : ∀ ac, s.clients.lookup k = some ac → Ending s fs ac) :
    ConnInv { s with clients := s.clients.erase k } fs := by
  have hlookup : ∀ k', (s.clients.erase k).lookup k' =
      if k' = k then none else s.clients.lookup k' := by
    intro k'
    exact GoMap.lookup_erase_eq _ _ _
  have hin : ∀ ac, InMap s ac →
      InMap { s with clients := s.clients.erase k } ac ∨ Ending s fs ac := by
    rintro ac ⟨k', hk'⟩
    rcases eq_or_ne k' k with rfl | hne
    · exact .inr (hending ac hk')
    · refine .inl ⟨k', ?_⟩
      rw [hlookup, if_neg hne]
      exact hk'
  refine ⟨?_, h.fresh, h.client, ?_, ?_⟩
  · intro k' ac hac
    have hknown := h.known k' ac
    grind
  · intro c hc
    rcases h.conns c hc with hclosing | ⟨ac, hac, hcli⟩
    · exact .inl hclosing
    · rcases hin ac hac with hac | hend
      · exact .inr ⟨ac, hac, hcli⟩
      · exact .inl (hend.1 c hcli hc)
  · intro w hw
    rcases h.watchers w hw with hmem | ⟨hac, hcancel⟩
    · exact .inl hmem
    · rcases hin _ hac with hac | hend
      · exact .inr ⟨hac, hcancel⟩
      · exact .inl (hend.2 w hcancel hw)

/-- A dial watcher that does not run any more needs no owner. -/
theorem ConnInv.modifyWatcher (w : Nat) {g : Watcher → Watcher}
    (hrunning : ∀ x, (g x).running = false) : ConnInv (s.modifyWatcher w g) fs where
  known := h.known
  fresh := h.fresh
  client := h.client
  conns := h.conns
  watchers := by
    intro w' hw'
    have hne : w' ≠ w := by
      rintro rfl
      simp [Shared.modifyWatcher, hrunning] at hw'
    have heq : (s.modifyWatcher w g).watchers w' = s.watchers w' := update_of_ne hne _ _
    rw [heq] at hw' ⊢
    exact h.watchers w' hw'

theorem ConnInv.closeConn (ac c : Nat) : ConnInv (s.closeConn ac c) fs where
  known := h.known
  fresh := h.fresh
  client := by
    intro ac' c' hc'
    have hclient := h.client ac' c' hc'
    simp only [Shared.closeConn, update_apply] at hclient ⊢
    grind
  conns := by
    intro c' hc'
    have hne : c' ≠ c := by
      rintro rfl
      simp [Shared.closeConn] at hc'
    have hopen : (s.conns c').isOpen = true := by
      simpa only [Shared.closeConn, update_of_ne hne] using hc'
    rcases h.conns c' hopen with ⟨ac', hmem | hmem⟩ | howned
    · refine .inl ⟨ac', .inl ((mem_erase_of_ne ?_).mpr hmem)⟩
      intro heq
      cases heq
      exact hne rfl
    · exact .inl ⟨ac', .inr hmem⟩
    · exact .inr howned
  watchers := h.watchers

/-! ## `ensureConnect` and `refresh` -/

theorem ConnInv.ensureConnectLocked (ac : Nat) (o : Outcome)
    (hin : o.dial = true ∨ o.watch = true → InMap s ac) :
    ConnInv (s.ensureConnectLocked ac o).1 fs := by
  have hboth : ConnInv (s.ensureConnectLocked ac o).1 fs ∧
      (s.ensureConnectLocked ac o).1.clients = s.clients := by
    refine ensureConnectLocked_induct (P := fun s' => ConnInv s' fs ∧ s'.clients = s.clients)
      ac o ⟨h, rfl⟩ ?_ ?_ ⟨h.modify (fun _ hc => hc) (fun _ hc _ => .inl hc) fun _ hw _ => .inl hw, rfl⟩
    · exact fun hcli hdial => ⟨h.connect hcli (hin (.inl hdial)), rfl⟩
    · rintro s' ⟨h', hclients⟩ hcancel hwatch
      refine ⟨h'.startWatcher hcancel ?_, hclients⟩
      unfold InMap
      rw [hclients]
      exact hin (.inr hwatch)
  exact hboth.1

theorem ConnInv.refresh (ac ai : Nat) (o : Outcome)
    (hin : o.dial = true ∨ o.watch = true → InMap s ac) : ConnInv (s.refresh ac ai o).1 fs := by
  have hinfo : ConnInv (s.modify ac fun c => { c with info := ai }) fs :=
    h.modify (fun _ hc => hc) (fun _ hc _ => .inl hc) fun _ hw _ => .inl hw
  unfold Shared.refresh
  dsimp only
  split
  · split
    · exact hinfo
    · exact hinfo.ensureConnectLocked ac o hin
  · split
    all_goals exact hinfo

end

/-! ## Frames that are done -/

/-- The function that ends a dial watcher clears it, or one that is on its way
to the end. -/
theorem ConnInv.stopWatcher {ac w : Nat} (h : ConnInv s (.stopWatch ac w :: fs))
    (hending : ∀ w', (s.objects ac).cancelDialWatch = some w' →
      (s.watchers w').running = true → w' = w ∨ Stopping fs w') :
    ConnInv (s.stopWatcher ac) (.cancelWatch w :: fs) := by
  have hpush : ConnInv s (.cancelWatch w :: fs) := by
    refine h.frames ?_ ?_
    · intro c hclosing
      simpa [Closing] using hclosing
    · intro w' _ hstopping
      simp only [Stopping, mem_cons, Frame.stopWatch.injEq, reduceCtorEq, false_or] at *
      grind
  have hcleared : ConnInv (s.modify ac fun c => { c with cancelDialWatch := none })
      (.cancelWatch w :: fs) := by
    refine hpush.modify (fun _ hc => hc) (fun _ hc _ => .inl hc) ?_
    intro w' hw' hrunning
    rcases hending w' hw' hrunning with rfl | hstopping
    · exact .inr (.inl (.head _))
    · exact .inr (hstopping.append [.cancelWatch w])
  exact hcleared.same ⟨rfl, rfl, rfl, rfl, rfl, rfl, fun _ => rfl, fun _ => rfl⟩

/-- The frame that has cancelled a watcher may go. -/
theorem ConnInv.cancelWatch {w : Nat} (h : ConnInv s (.cancelWatch w :: fs))
    (hw : (s.watchers w).running = false) : ConnInv s fs := by
  refine h.frames (fun c hclosing => by simpa [Closing] using hclosing) ?_
  intro w' hw' hstopping
  have hne : w' ≠ w := by
    intro heq
    rw [heq, hw] at hw'
    cases hw'
  simpa [Stopping, hne] using hstopping

theorem ConnInv.closeClient {ac c : Nat} (h : ConnInv s (.closeClient ac c :: fs)) :
    ConnInv { s with closing := (ac, c) :: s.closing } fs where
  known := h.known
  fresh := h.fresh
  client := h.client
  conns := by
    intro c' hc'
    rcases h.conns c' hc' with ⟨ac', hmem | hmem⟩ | howned
    · exact .inl ⟨ac', .inl (.tail _ hmem)⟩
    · rcases mem_cons.mp hmem with heq | hmem
      · cases heq
        exact .inl ⟨ac, .inl (.head _)⟩
      · exact .inl ⟨ac', .inr hmem⟩
    · exact .inr howned
  watchers := by
    intro w hw
    refine (h.watchers w hw).imp_left ?_
    intro hstopping
    simpa [Stopping] using hstopping

end

/-! ## Steps -/

/-- What has to hold before a step, with the frames of all threads: an agent
is reached only for a client in the map, a client leaves the map only when
what it has is on its way to the end, and only such connections and watchers
are cleared. -/
def ConnAllowed (s : Shared) (fs : List Frame) : Frame → Choice → Prop
  | .refresh ac _, .outcome o | .ensureConnect ac, .outcome o =>
      o.dial = true ∨ o.watch = true → InMap s ac
  | .erase k ac, _ => s.clients.lookup k = some ac → Ending s fs ac
  | .remove ac, _ => ∀ ac', s.clients.lookup (s.objects ac).key = some ac' → Ending s fs ac'
  | .stopWatch ac _, _ =>
      ∀ w', (s.objects ac).cancelDialWatch = some w' → (s.watchers w').running = true →
        Stopping fs w'
  | .clearConn ac _, _ =>
      ∀ c, (s.objects ac).cli = some c → (s.conns c).isOpen = true → Closing s fs c
  | _, _ => True

theorem Ending.drop {ac : Nat} (hf : f.ends = false) (h : Ending s (f :: others) ac) :
    Ending s others ac := by
  constructor
  · intro c hcli hopen
    exact (h.1 c hcli hopen).drop hf
  · intro w hw hrunning
    exact (h.2 w hw hrunning).drop hf

variable {c : Choice}

theorem ConnInv.effect (h : ConnInv s (f :: others)) (hc : ConnAllowed s (f :: others) f c)
    (heffect : Effect s c f s' fs) : ConnInv s' (fs ++ others) := by
  cases heffect with
  | pass hf hfs => exact h.replace (Frame.ends_of_plain hf)
  | delta upserts removals => exact (h.replace rfl).same (sameConns_receive s upserts removals)
  | erase k ac hk =>
    refine ConnInv.erase (h.replace rfl) ?_
    intro ac' hac'
    rw [hk] at hac'
    cases hac'
    exact (hc hk).drop rfl
  | refresh ac ai o hout =>
    subst hout
    exact (h.replace rfl).refresh ac ai o hc
  | addIntercepted k ai hk | addIdle k ai hk | loadOrAdd k ai hk =>
    exact (h.replace rfl).addClient ai hk
  | cancel ac | dialEnded ac => exact h.replace rfl
  | stopWatch ac w =>
    refine h.stopWatcher ?_
    intro w' hw' hrunning
    have hstopping := hc w' hw' hrunning
    simp only [Stopping, mem_cons, Frame.stopWatch.injEq, reduceCtorEq, false_or] at *
    grind
  | cancelWatch w =>
    have hcancelled := h.modifyWatcher w (g := fun x => { x with cancelled := true }) fun _ => rfl
    refine hcancelled.cancelWatch ?_
    simp [Shared.modifyWatcher, Watcher.running]
  | closeClient ac con => exact h.closeClient
  | ensureConnect ac o hout =>
    subst hout
    exact (h.replace rfl).ensureConnectLocked ac o hc
  | remove ac =>
    refine ConnInv.erase (h.replace rfl) ?_
    intro ac' hac'
    exact (hc ac' hac').drop rfl
  | dialLoop w hw hended =>
    exact (h.replace rfl).modifyWatcher w fun x => by simp [Watcher.running]
  | closeConn ac con hmem => exact (h.replace rfl).closeConn ac con
  | clearConn ac con =>
    refine ConnInv.modify (h.replace rfl) nofun ?_ fun _ hw _ => .inl hw
    intro c' hcli hopen
    exact .inr ((hc c' hcli hopen).drop rfl)
  | _ =>
    exact (h.replace rfl).same ⟨rfl, rfl, rfl, rfl, rfl, rfl, fun _ => rfl, fun _ => rfl⟩

theorem ConnInv.exec {t : Shared} (h : ConnInv s (f :: others))
    (hc : ConnAllowed s (f :: others) f c) (hexec : exec s f c = some (t, fs)) :
    ConnInv t (fs ++ others) := by
  obtain ⟨s', rfl, heffect⟩ := exec_effect hexec
  have hinv : ConnInv s' (fs ++ others) := by
    rcases heffect with heffect | heffect
    · exact h.effect hc heffect
    · obtain ⟨hsame, hf⟩ := heffect.conns
      exact (h.replace hf).same hsame
  exact hinv.same ⟨rfl, rfl, rfl, rfl, rfl, rfl, fun _ => rfl, fun _ => rfl⟩

/-! ## Runs -/

/-- What holds in every state. -/
def ConnsWell (p : Clients) : Prop := ConnInv p.shared p.frames

theorem connsWell_newClients : ConnsWell newClients := by
  constructor <;> simp [newClients, Watcher.running]

/-- The condition on the next step of a run. -/
def connAllowed (p : Clients) : Event → Prop
  | .start _ => True
  | .run thread c => ∀ f, p.top thread = some f → ConnAllowed p.shared p.frames f c

theorem ConnAllowed.perm {fs' : List Frame} (h : ConnAllowed s fs f c) (hp : fs.Perm fs') :
    ConnAllowed s fs' f c := by
  unfold ConnAllowed Ending Closing Stopping at *
  simpa only [hp.mem_iff] using h

theorem ConnsWell.step {p p' : Clients} {a : Event} (h : ConnsWell p) (hc : connAllowed p a)
    (hstep : step p a = some p') : ConnsWell p' := by
  rcases step_cases hstep with ⟨op, rfl, hshared, hframes⟩ |
    ⟨thread, c, f, fs, others, rfl, htop, hexec, hold, hnew⟩
  · unfold ConnsWell
    rw [hshared, hframes]
    have hnew : ConnInv p.shared (program op ++ p.frames) :=
      ConnInv.frames h (fun _ hc => hc.append _) fun _ _ hw => hw.append _
    exact hnew.perm perm_append_comm
  · exact ((ConnInv.perm h hold).exec ((hc f htop).perm hold) hexec).perm hnew.symm

/-- **Connections are owned.**  In a run in which agents are reached only for
clients in the map, in which a client leaves the map only when its connection
and its dial watcher are on their way to the end, and in which only such
connections and watchers are cleared from a client, every quiescent state has
every open connection and every running watcher with a client in the map. -/
theorem connections_owned (as : List Event) (h : Meets step connAllowed newClients as) :
    Always step Owned newClients as := by
  refine always_of_meets ?_ ?_ connsWell_newClients h
  · intro p hp
    exact ConnInv.owned hp
  · intro p a p' hp hc hstep
    exact hp.step hc hstep

/-- A test of the condition, for steps that find the client in order. -/
def connTest (s : Shared) : Frame → Bool
  | .refresh ac _ | .ensureConnect ac => s.clients.lookup (s.objects ac).key = some ac
  | .erase _ ac =>
      ((s.objects ac).cli.all fun c => s.closing.any (·.2 = c)) &&
        (s.objects ac).cancelDialWatch.isNone
  | .stopWatch ac w => (s.objects ac).cancelDialWatch = some w
  | .clearConn ac _ => (s.objects ac).cli.all fun c => !(s.conns c).isOpen
  | .remove _ => false
  | _ => true

theorem connAllowed_of_passes (p : Clients) (a : Event) (h : p.passes connTest a = true) :
    connAllowed p a := by
  cases a with
  | start op => trivial
  | run thread c =>
    intro f hf
    have htest := Pool.test_of_passes h hf
    have hmem := Pool.mem_frames_of_top hf
    cases f <;> first | exact True.intro | simp [connTest] at htest
    case refresh | ensureConnect =>
      cases c <;> first | exact True.intro | exact fun _ => ⟨_, htest⟩
    case erase k ac =>
      intro _
      refine ⟨?_, ?_⟩
      · intro con hcon _
        have hany := htest.1
        simp only [hcon, Option.all_some, any_eq_true, decide_eq_true_eq] at hany
        obtain ⟨token, hclosing, rfl⟩ := hany
        exact ⟨token.1, .inl hclosing⟩
      · intro w hw
        rw [htest.2] at hw
        cases hw
    case stopWatch ac w =>
      intro w' hw' _
      rw [htest] at hw'
      cases hw'
      exact .inr ⟨ac, hmem⟩
    case clearConn ac con =>
      intro con' hcon' hopen
      simp [hcon', hopen] at htest

/-- The pod goes, and its client is cancelled and deleted. -/
def podRemoved : List Event :=
  [.start (.delta [] ["echo-0"]), .run 1 .go, .run 1 .go, .run 1 visitPod, .run 1 .go, .run 1 .go,
    .run 1 .go, .run 1 .go, .run 1 .go, .run 1 .go]

/-- The update ends, and the connection is closed. -/
def connectionClosed : List Event :=
  [.run 1 .stop, .run 1 .stop, .run 1 .stop, .run 1 .go, .run 1 .stop, .run 1 .go, .run 1 .stop,
    .start (.closeConn 0 0), .run 2 .go, .run 2 .go]

/-- A pod is reported and removed again; its client has a connection and a
dial watcher meanwhile. -/
def podComesAndGoes : List Event :=
  podAdded 0 true ++ [.run 0 answer] ++ updateEnds 0 ++ podRemoved ++ connectionClosed

theorem connections_owned_echo :
    Meets step connAllowed newClients podComesAndGoes ∧
      Always step Owned newClients podComesAndGoes := by
  have hmeets : Meets step connAllowed newClients podComesAndGoes :=
    meets_of_test connAllowed_of_passes (by decide +kernel)
  exact ⟨hmeets, connections_owned podComesAndGoes hmeets⟩

/-- `WaitForIP` finds the client of a pod, and connects it only when the pod
has gone. -/
def connectedLate : List Event :=
  [podAdded 0 false, updateEnds 0, [.start .waitForIP, .run 1 visitPod, .run 1 .go],
    [.start (.delta [] ["echo-0"]), .run 2 .go, .run 2 .go, .run 2 visitPod, .run 2 .go,
      .run 2 .go, .run 2 .go, .run 2 .stop, .run 2 .stop, .run 2 .stop, .run 2 .go, .run 2 .stop,
      .run 2 .go, .run 2 .stop],
    [.run 1 answer, .run 1 .stop]].flatten

/-- The connection stays open, and its client is not in the map. -/
theorem connected_late :
    ∃ p, run step newClients connectedLate = some p ∧ ¬ Owned p := by
  refine ⟨_, rfl, ?_⟩
  intro h
  obtain ⟨ac, ⟨k, hk⟩, -⟩ := (h ⟨rfl, rfl⟩).1 0 rfl
  cases hk

end Telepresence.AgentPf
