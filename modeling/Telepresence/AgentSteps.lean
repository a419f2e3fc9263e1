import Telepresence.AgentClients

/-!
# What a step of the agent clients does

The steps of `AgentClients`, turned around: from a step that was taken to its
effect.  Most steps only decide what is done next (`pass`); the others are one
constructor each.

* `Effect`, `execUpdate_effect`, `execClient_effect`: connections and dial
  watchers.
* `WaitEffect`, `execWait_effect`: the calls of `WaitForWorkload`.
-/

namespace Telepresence.AgentPf

open Option

/-- The frame has neither to end a watcher or a connection nor to answer a
call. -/
def Frame.plain : Frame → Bool
  | .stopWatch _ _ | .cancelWatch _ | .closeClient _ _ | .clearConn _ _ | .closeWaiter _
  | .loadOrCompute _ | .findWorkload _ _ | .foundWorkload _ | .wait _ _ => false
  | _ => true

/-- The effect of a step of `updateClients`, or of a connection or a dial
watcher. -/
inductive Effect (s : Shared) (c : Choice) : Frame → Shared → List Frame → Prop where
  | pass {f : Frame} {fs : List Frame} (hf : f.plain)
      (hfs : ∀ g ∈ fs, g.plain) : Effect s c f s fs
  | delta (upserts : List (String × AgentPodInfo)) (removals : List String) :
      Effect s c (.delta upserts removals) (receive s upserts removals).1
        (receive s upserts removals).2
  | clearSnapshot : Effect s c .clearSnapshot { s with snapMap := ∅ } []
  | erase (k : String) (ac : Nat) (hk : s.clients.lookup k = some ac) :
      Effect s c (.erase k ac) { s with clients := s.clients.erase k } []
  | refresh (ac ai : Nat) (o : Outcome) (hc : c = .outcome o) :
      Effect s c (.refresh ac ai) (s.refresh ac ai o).1 (s.refresh ac ai o).2
  | addIntercepted (k : String) (ai : Nat) (hk : s.clients.lookup k = none) :
      Effect s c (.add k ai) (s.addClient k ai) [.ensureConnect s.nextClient]
  | addIdle (k : String) (ai : Nat) (hk : s.clients.lookup k = none) :
      Effect s c (.add k ai) (s.addClient k ai) []
  | loadOrAdd (k : String) (ai : Nat) (hk : s.clients.lookup k = none) :
      Effect s c (.loadOrAdd k ai) (s.addClient k ai) [.ensureConnect s.nextClient]
  | cancel (ac : Nat) : Effect s c (.cancel ac) s (cancelFrames s ac)
  | stopWatch (ac w : Nat) : Effect s c (.stopWatch ac w) (s.stopWatcher ac) [.cancelWatch w]
  | cancelWatch (w : Nat) :
      Effect s c (.cancelWatch w) (s.modifyWatcher w fun x => { x with cancelled := true }) []
  | closeClient (ac con : Nat) :
      Effect s c (.closeClient ac con) { s with closing := (ac, con) :: s.closing } []
  | ensureConnect (ac : Nat) (o : Outcome) (hc : c = .outcome o) (hac : ac < s.nextClient) :
      Effect s c (.ensureConnect ac) (s.ensureConnectLocked ac o).1 (s.ensureConnectLocked ac o).2
  | remove (ac : Nat) :
      Effect s c (.remove ac) { s with clients := s.clients.erase (s.objects ac).key } []
  | dialLoop (w : Nat) (hw : w < s.nextWatcher) (hended : (s.watchers w).ended = false) :
      Effect s c (.dialLoop w) (s.modifyWatcher w fun x => { x with ended := true })
        [.dialEnded (s.watchers w).client]
  | dialEnded (ac : Nat) :
      Effect s c (.dialEnded ac) s (Shared.stopFrames ac (s.objects ac).cancelDialWatch)
  | closeConn (ac con : Nat) (hmem : (ac, con) ∈ s.closing) :
      Effect s c (.closeConn ac con) (s.closeConn ac con) [.clearConn ac con]
  | clearConn (ac con : Nat) :
      Effect s c (.clearConn ac con) (s.modify ac fun x => { x with cli := none }) []
  | cancelAll :
      Effect s c (.cancelAll none) { s with snapMap := ∅ }
        [.cancelAll (some s.range)]
  | disable : Effect s c .disable { s with disabled := true } []

/-- The effect of a step of waiting for a workload. -/
inductive WaitEffect (s : Shared) (c : Choice) : Frame → Shared → List Frame → Prop where
  | pass {f : Frame} {fs : List Frame} (hf : f.plain) (hfs : ∀ g ∈ fs, g.plain) :
      WaitEffect s c f s fs
  | take (ac : Nat) (name : String) (ch : Nat) (hfree : name ∉ s.locked)
      (hch : s.wlWaiters.lookup name = some ch) :
      WaitEffect s c (.takeWaiter ac name) { s with wlWaiters := s.wlWaiters.erase name }
        [.ensureConnect ac, .closeWaiter ch]
  | close (ch : Nat) :
      WaitEffect s c (.closeWaiter ch) { s with closedChans := ch :: s.closedChans } []
  | begin (name : String) :
      WaitEffect s c (.waitForWorkload name) (s.newCall name) [.loadOrCompute s.nextCall]
  | disabled (name : String) (hdisabled : s.disabled = true) :
      WaitEffect s c (.waitForWorkload name) ((s.newCall name).finish s.nextCall .ok) []
  | attach (call ch : Nat) (hch : s.wlWaiters.lookup (s.calls call).name = some ch) :
      WaitEffect s c (.loadOrCompute call) s [.notifyWaiters none, .wait call ch]
  | lock (call : Nat) (hnone : s.wlWaiters.lookup (s.calls call).name = none)
      (hfree : (s.calls call).name ∉ s.locked) :
      WaitEffect s c (.loadOrCompute call) { s with locked := (s.calls call).name :: s.locked }
        [.findWorkload call s.range]
  | search (call : Nat) (it it' : Iteration String) :
      WaitEffect s c (.findWorkload call it) s [.findWorkload call it']
  | found (call : Nat) (it : Iteration String) :
      WaitEffect s c (.findWorkload call it) s [.foundWorkload call]
  | create (call : Nat) (it : Iteration String) :
      WaitEffect s c (.findWorkload call it)
        (((s.newWaiter (s.calls call).name).unlock (s.calls call).name).finish call .ok) []
  | leave (call : Nat) :
      WaitEffect s c (.foundWorkload call) ((s.unlock (s.calls call).name).finish call .ok) []
  | wake (call ch : Nat) (hch : ch ∈ s.closedChans) :
      WaitEffect s c (.wait call ch) (s.finish call .ok) []
  | timeout (call ch : Nat) : WaitEffect s c (.wait call ch) (s.finish call .timeout) []
  | canceled (call ch : Nat) (hc : c = .yes) :
      WaitEffect s c (.wait call ch) (s.finish call .canceled) []

/-! ## Inversion -/

variable {s s' : Shared} {f : Frame} {c : Choice} {fs : List Frame}

/-- An iteration ends, and nothing is left to be done. -/
theorem effect_of_stop {done : Bool} (hf : f.plain)
    (h : (if done then some (s, []) else none) = some (s', fs)) : Effect s c f s' fs := by
  cases done with
  | true =>
    cases h
    exact .pass hf (by simp)
  | false => cases h

theorem execUpdate_effect (h : execUpdate s f c = some (s', fs)) : Effect s c f s' fs := by
  unfold execUpdate at h
  split at h
  case h_1 upserts removals =>
    injection h with h
    have hs : s' = (receive s upserts removals).1 := by rw [h]
    have hfs : fs = (receive s upserts removals).2 := by rw [h]
    rw [hs, hfs]
    exact .delta upserts removals
  case h_2 =>
    cases h
    exact .clearSnapshot
  case h_3 | h_14 =>
    cases h
    exact .pass rfl (by simp [Frame.plain])
  case h_4 aim it k =>
    obtain ⟨⟨ac, it'⟩, hvisit, h⟩ := bind_eq_some_iff.mp h
    dsimp only at h
    split at h <;> cases h <;> exact .pass rfl (by simp [Frame.plain])
  case h_5 | h_9 | h_12 | h_17 => exact effect_of_stop rfl h
  case h_6 k => split at h <;> cases h <;> exact .pass rfl (by simp [Frame.plain])
  case h_7 k ac =>
    split at h
    · rename_i hk
      cases h
      exact .erase k ac hk
    · cases h
      exact .pass rfl (by simp)
  case h_8 aim it k =>
    obtain ⟨ai, hai, h⟩ := bind_eq_some_iff.mp h
    obtain ⟨it', hit, h⟩ := bind_eq_some_iff.mp h
    split at h <;> cases h <;> exact .pass rfl (by simp [Frame.plain])
  case h_10 ac ai o =>
    injection h with h
    have hs : s' = (s.refresh ac ai o).1 := by rw [h]
    have hfs : fs = (s.refresh ac ai o).2 := by rw [h]
    rw [hs, hfs]
    exact .refresh ac ai o rfl
  case h_11 aim it k =>
    obtain ⟨ai, hai, h⟩ := bind_eq_some_iff.mp h
    obtain ⟨it', hit, h⟩ := bind_eq_some_iff.mp h
    cases h
    exact .pass rfl (by simp [Frame.plain])
  case h_13 k ai =>
    split at h
    · cases h
      exact .pass rfl (by simp)
    · rename_i hk
      split at h
      · cases h
        exact .addIntercepted k ai hk
      · cases h
        exact .addIdle k ai hk
  case h_15 it found k =>
    obtain ⟨⟨ac, it'⟩, hvisit, h⟩ := bind_eq_some_iff.mp h
    cases h
    exact .pass rfl (by simp [Frame.plain])
  case h_16 it found k =>
    obtain ⟨⟨ac, it'⟩, hvisit, h⟩ := bind_eq_some_iff.mp h
    dsimp only at h
    split at h
    · split at h <;> cases h <;> exact .pass rfl (by simp [Frame.plain])
    · cases h
  case h_18 => cases h

theorem execClient_effect (h : execClient s f c = some (s', fs)) : Effect s c f s' fs := by
  unfold execClient at h
  split at h
  case h_1 ac =>
    cases h
    exact .cancel ac
  case h_2 ac w =>
    cases h
    exact .stopWatch ac w
  case h_3 w =>
    cases h
    exact .cancelWatch w
  case h_4 ac con =>
    cases h
    exact .closeClient ac con
  case h_5 ac o =>
    split at h
    · rename_i hac
      injection h with h
      have hs : s' = (s.ensureConnectLocked ac o).1 := by rw [h]
      have hfs : fs = (s.ensureConnectLocked ac o).2 := by rw [h]
      rw [hs, hfs]
      exact .ensureConnect ac o rfl hac
    · cases h
  case h_6 ac =>
    cases h
    exact .remove ac
  case h_7 w =>
    split at h
    · rename_i hw
      cases h
      exact .dialLoop w hw.1 hw.2
    · cases h
  case h_8 ac =>
    cases h
    exact .dialEnded ac
  case h_9 ac con =>
    split at h
    · rename_i hmem
      cases h
      exact .closeConn ac con hmem
    · cases h
  case h_10 ac con =>
    cases h
    exact .clearConn ac con
  case h_11 | h_16 =>
    split at h
    · cases h
      exact .pass rfl (by simp [Frame.plain])
    · cases h
  case h_12 =>
    cases h
    exact .pass rfl (by simp)
  case h_13 k ai =>
    split at h
    · cases h
      exact .pass rfl (by simp [Frame.plain])
    · rename_i hk
      cases h
      exact .loadOrAdd k ai hk
  case h_14 =>
    cases h
    exact .cancelAll
  case h_15 it k =>
    obtain ⟨⟨ac, it'⟩, hvisit, h⟩ := bind_eq_some_iff.mp h
    cases h
    exact .pass rfl (by simp [Frame.plain])
  case h_17 =>
    cases h
    exact .disable
  case h_18 => cases h

theorem execWait_effect (h : execWait s f c = some (s', fs)) : WaitEffect s c f s' fs := by
  unfold execWait at h
  split at h
  case h_1 | h_4 | h_5 | h_6 =>
    cases h
    exact .pass rfl (by simp [Frame.plain])
  case h_2 it k =>
    obtain ⟨⟨ac, it'⟩, hvisit, h⟩ := bind_eq_some_iff.mp h
    cases h
    exact .pass rfl (by simp [Frame.plain])
  case h_3 it =>
    split at h
    · cases h
      exact .pass rfl (by simp)
    · cases h
  case h_7 ac name =>
    split at h
    · cases h
    · rename_i hfree
      split at h
      · rename_i ch hch
        cases h
        exact .take ac name ch hfree hch
      · cases h
        exact .pass rfl (by simp)
  case h_8 ch =>
    cases h
    exact .close ch
  case h_9 name =>
    split at h
    · rename_i hdisabled
      cases h
      exact .disabled name hdisabled
    · cases h
      exact .begin name
  case h_10 call =>
    split at h
    · rename_i ch hch
      cases h
      exact .attach call ch hch
    · rename_i hnone
      split at h
      · cases h
      · rename_i hfree
        cases h
        exact .lock call hnone hfree
  case h_11 call it k =>
    obtain ⟨⟨ac, it'⟩, hvisit, h⟩ := bind_eq_some_iff.mp h
    dsimp only at h
    split at h
    · cases h
      exact .found call it
    · cases h
      exact .search call it it'
  case h_12 call it =>
    split at h
    · cases h
      exact .create call it
    · cases h
  case h_13 call =>
    cases h
    exact .leave call
  case h_14 call ch =>
    split at h
    · rename_i hch
      cases h
      exact .wake call ch hch
    · cases h
  case h_15 call ch =>
    cases h
    exact .timeout call ch
  case h_16 call ch =>
    cases h
    exact .canceled call ch rfl
  case h_17 => cases h

/-- **What a step does.** -/
theorem exec_effect {t : Shared} (h : exec s f c = some (t, fs)) :
    ∃ s', t = s'.look ∧ (Effect s c f s' fs ∨ WaitEffect s c f s' fs) := by
  obtain ⟨⟨s', fs'⟩, hexec, heq⟩ := map_eq_some_iff.mp h
  cases heq
  refine ⟨s', rfl, ?_⟩
  rcases or_eq_some_iff.mp hexec with hexec | ⟨-, hexec⟩
  · exact .inl (execUpdate_effect hexec)
  rcases or_eq_some_iff.mp hexec with hexec | ⟨-, hexec⟩
  · exact .inl (execClient_effect hexec)
  · exact .inr (execWait_effect hexec)

/-! ## Sections

What the elementary changes keep, the sections keep that are made of them. -/

section

variable {P : Shared → Prop}

theorem watchDials_induct (ac : Nat) (watch : Bool) (h : P s)
    (hstart : (s.objects ac).cancelDialWatch = none → watch = true → P (s.startWatcher ac)) :
    P (s.watchDials ac watch) := by
  unfold Shared.watchDials
  split
  · rename_i hnew
    simp only [Bool.and_eq_true] at hnew
    exact hstart (by simpa using hnew.1.2) hnew.2
  · exact h

theorem ensureConnectLocked_induct (ac : Nat) (o : Outcome) (h : P s)
    (hconnect : (s.objects ac).cli = none → o.dial = true → P (s.connect ac))
    (hstart : ∀ s, P s → (s.objects ac).cancelDialWatch = none → o.watch = true →
      P (s.startWatcher ac))
    (herr : P (s.modify ac fun c => { c with connectErr := true })) :
    P (s.ensureConnectLocked ac o).1 := by
  unfold Shared.ensureConnectLocked
  split
  · exact h
  · split
    · exact watchDials_induct ac o.watch h (hstart s h)
    · rename_i hcli
      split
      · have hc := hconnect (by simpa using hcli) ‹_›
        exact watchDials_induct ac o.watch hc (hstart _ hc)
      · exact herr

theorem receive_induct (upserts : List (String × AgentPodInfo)) (removals : List String) (h : P s)
    (hupsert : ∀ s u, P s → P (Shared.upsert s u))
    (hremoval : ∀ s k, P s → P (Shared.removal s k))
    (hdisabled : ∀ s, P s → P { s with disabled := true })
    (hsnapshot : ∀ s, P s → P { s with snapshot := s.aim }) :
    P (receive s upserts removals).1 := by
  have hdelta : P (s.deltaUpdate upserts removals) :=
    List.foldlRecOn removals _ (List.foldlRecOn upserts _ h fun s hs u _ => hupsert s u hs)
      fun s hs k _ => hremoval s k hs
  unfold receive
  dsimp only
  split
  · exact hdisabled _ hdelta
  · exact hsnapshot _ hdelta

end

theorem plain_receive (s : Shared) (upserts : List (String × AgentPodInfo))
    (removals : List String) : ∀ g ∈ (receive s upserts removals).2, g.plain := by
  unfold receive
  dsimp only
  split <;> simp [Frame.plain]

theorem plain_ensureConnectLocked (s : Shared) (ac : Nat) (o : Outcome) :
    ∀ g ∈ (s.ensureConnectLocked ac o).2, g.plain := by
  unfold Shared.ensureConnectLocked
  split
  · simp
  · split
    · simp
    · split <;> simp [Frame.plain]

/-! ## Updates with one pod -/

/-- A pod of the workload `echo`. -/
def echoPod (intercepted : Bool) : AgentPodInfo :=
  { podName := "echo-0", ns := "default", workloadName := "echo", intercepted }

/-- Visit the pod. -/
def visitPod : Choice := .visit "echo-0.default"

/-- The agent answers. -/
def answer : Choice := .outcome { dial := true, watch := true }

/-- A new thread learns of the pod, and adds its client. -/
def podAdded (thread : Nat) (intercepted : Bool) : List Event :=
  [.start (.delta [("echo-0", echoPod intercepted)] []), .run thread .go, .run thread .go,
    .run thread .stop, .run thread visitPod, .run thread .stop, .run thread visitPod,
    .run thread .go]

/-- An update ends, once it has added what there is to add. -/
def updateEnds (thread : Nat) : List Event :=
  [.run thread .stop, .run thread .go, .run thread visitPod, .run thread .stop, .run thread .go,
    .run thread visitPod, .run thread .go, .run thread .go, .run thread .go, .run thread .stop]

end Telepresence.AgentPf
