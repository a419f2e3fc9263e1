import Telepresence.AgentServer

/-!
# Dial requests and tunnels meet

`CreateClientStream` announces under the session and connection ID that it
waits for a stream.  Only a `Tunnel` call removes the announcement; a call
that gives up waiting leaves it behind, and a later call for the same ID takes
it for its own: it waits on the old channel, and the `Tunnel` call that brings
its stream ends as soon as it is there, since the context that it waits for
has ended long ago.

* `forwards_meet_iff`: along a run, every announcement belongs to a call that
  is waiting, a stream is received only by a call that waits for its ID, and
  the next tunnel for a waiting call finds its announcement, if and only if
  no call gives up waiting while its announcement is stored.
-/

namespace Telepresence.AgentServer

open Telepresence.Tunnel List

/-- The call, key and channel of a `CreateClientStream` call that has
announced itself. -/
def Frame.waits : Frame → Option (Nat × Key × Nat)
  | .request call key _ streamCh => some (call, key, streamCh)
  | .requested call key streamCh => some (call, key, streamCh)
  | .receive call key streamCh => some (call, key, streamCh)
  | _ => none

/-- The number of a `CreateClientStream` call. -/
def Frame.callID : Frame → Option Nat
  | .dial call _ => some call
  | .await call _ _ => some call
  | .request call _ _ _ => some call
  | .requested call _ _ => some call
  | .receive call _ _ => some call
  | _ => none

/-- The announcement that a `Tunnel` call has taken, before it sends. -/
def Frame.hands : Frame → Option (Key × Nat)
  | .hand _ key awf => some (key, awf.streamCh)
  | _ => none

/-- The call waits for a stream for the key on the channel. -/
def Waiting (frames : List Frame) (call : Nat) (key : Key) (streamCh : Nat) : Prop :=
  ∃ f ∈ frames, f.waits = some (call, key, streamCh)

/-- Every announcement is that of a call that is waiting on its channel; a
stream goes to a call that waits for its key; and where a call is waiting, its
channel is the one that is announced, or a tunnel for the key has taken it. -/
structure Met (sh : Shared) (frames : List Frame) : Prop where
  announced : ∀ key awf, sh.awaitingForwards.lookup key = some awf →
    Waiting frames awf.doneCh key awf.streamCh
  received : ∀ keys ∈ sh.received, keys.1 = keys.2
  waiting : ∀ call key streamCh, Waiting frames call key streamCh →
    (∃ awf, sh.awaitingForwards.lookup key = some awf ∧ awf.streamCh = streamCh) ∨
      (key, streamCh) ∈ sh.taken

/-- A call gives up waiting only after its announcement has been taken. -/
def Frame.Patient (sh : Shared) : Frame → Choice → Prop
  | .receive call key _, .done =>
      ∀ awf, sh.awaitingForwards.lookup key = some awf → awf.doneCh ≠ call
  | _, _ => True

/-- The step of a thread is allowed. -/
def ForwardAllowed (p : Server) : Event → Prop
  | .start _ => True
  | .run thread choice => ∀ f, p.top thread = some f → f.Patient p.shared choice

/-! ## What a step does to the announcements -/

/-- The effect of a step on announcements and streams. -/
inductive ForwardEffect (sh : Shared) (f : Frame) (c : Choice) (sh' : Shared) (fs : List Frame) :
    Prop where
  /-- Nothing changes, but a call may end that has not announced itself. -/
  | quiet (hmap : sh'.awaitingForwards = sh.awaitingForwards) (hnext : sh.next ≤ sh'.next)
      (hstreams : sh'.streams = sh.streams) (htaken : sh'.taken = sh.taken)
      (hreceived : sh'.received = sh.received)
      (hwaits : fs.filterMap Frame.waits = f.waits.toList)
      (hcalls : (fs.filterMap Frame.callID).Sublist f.callID.toList)
      (hhands : ∀ g ∈ fs, g.hands = none) (hpatient : f.Patient sh c)
  /-- A call starts. -/
  | create (key : Key) (hf : f = .createClientStream key)
      (hsh : sh' = { sh with next := sh.next + 1 }) (hfs : fs = [.dial sh.next key])
  /-- A call finds an announcement. -/
  | join (call : Nat) (key : Key) (watcher : Nat) (awf : AwaitingForward)
      (hf : f = .await call key watcher) (hmap : sh.awaitingForwards.lookup key = some awf)
      (hsh : sh' = sh) (hfs : fs = [.request call key watcher awf.streamCh])
  /-- A call announces itself. -/
  | announce (call : Nat) (key : Key) (watcher : Nat) (hf : f = .await call key watcher)
      (hmap : sh.awaitingForwards.lookup key = none)
      (hsh : sh' = { sh with
        next := sh.next + 1
        awaitingForwards := sh.awaitingForwards.insert key ⟨sh.next, call⟩ })
      (hfs : fs = [.request call key watcher sh.next])
  /-- A call gives up. -/
  | giveUp (call : Nat) (key : Key) (streamCh : Nat) (hf : f = .receive call key streamCh)
      (hc : c = .done) (hsh : sh' = sh) (hfs : fs = [])
  /-- A call receives a stream. -/
  | receive (call : Nat) (key : Key) (o : Offer) (hf : f = .receive call key o.streamCh)
      (hmem : o ∈ sh.streams) (hc : c ≠ .done)
      (hsh : sh' = { sh with
        streams := sh.streams.erase o
        received := (o.key, key) :: sh.received })
      (hfs : fs = [])
  /-- A tunnel takes an announcement. -/
  | take (key : Key) (awf : AwaitingForward) (hf : f = .tunnel key)
      (hmap : sh.awaitingForwards.lookup key = some awf)
      (hsh : sh' = { sh with
        next := sh.next + 1
        awaitingForwards := sh.awaitingForwards.erase key
        taken := (key, awf.streamCh) :: sh.taken })
      (hfs : fs = [.hand sh.next key awf])
  /-- A tunnel sends its stream. -/
  | send (tunnel : Nat) (key : Key) (awf : AwaitingForward) (hf : f = .hand tunnel key awf)
      (hsh : sh' = { sh with streams := ⟨tunnel, key, awf.streamCh⟩ :: sh.streams })
      (hfs : fs = [.handed tunnel awf])

variable {sh sh' : Shared} {f : Frame} {c : Choice} {fs : List Frame}

theorem exec_forwardEffect (h : exec sh f c = some (sh', fs)) : ForwardEffect sh f c sh' fs := by
  cases f <;> cases c <;> simp only [exec, reduceCtorEq] at h
  case createClientStream.next key =>
    cases h
    exact .create key rfl rfl rfl
  case await.next call key watcher =>
    split at h
    · rename_i awf hawf
      cases h
      exact .join call key watcher awf rfl hawf rfl rfl
    · rename_i hnone
      cases h
      exact .announce call key watcher rfl hnone rfl rfl
  case receive.done call key streamCh =>
    split at h <;> cases h
    exact .giveUp call key streamCh rfl rfl rfl rfl
  case receive.take call key streamCh tunnel =>
    split at h
    · cases h
    · rename_i o ho
      have hch : o.streamCh = streamCh := by
        have hfound := find?_some ho
        simp only [Bool.and_eq_true, beq_iff_eq] at hfound
        exact hfound.2
      cases h
      subst hch
      exact .receive call key o rfl (mem_of_find?_eq_some ho) (by simp) rfl rfl
  case tunnel.next key =>
    split at h
    · cases h
      exact .quiet rfl (Nat.le_refl _) rfl rfl rfl rfl (List.Sublist.refl _) (by simp) trivial
    · rename_i awf hawf
      cases h
      exact .take key awf rfl hawf rfl rfl
  case hand.next tunnel key awf =>
    cases h
    exact .send tunnel key awf rfl rfl rfl
  -- The other steps leave the announcements and the streams alone.
  all_goals
    (try split at h) <;> cases h
    exact .quiet rfl (by simp) rfl rfl rfl rfl (by simp [Frame.callID]) (by simp [Frame.hands])
      trivial

/-! ## The invariant -/

/-- The channel was made for the key: it is announced or has been taken. -/
def Owns (sh : Shared) (key : Key) (streamCh : Nat) : Prop :=
  (∃ awf, sh.awaitingForwards.lookup key = some awf ∧ awf.streamCh = streamCh) ∨
    (key, streamCh) ∈ sh.taken

/-- What is known of the channels: those on which streams are sent have been
taken, each was made for one key, one that has been taken is no longer
announced, and the numbers to come are not in use. -/
structure Channels (sh : Shared) : Prop where
  offered : ∀ o ∈ sh.streams, (o.key, o.streamCh) ∈ sh.taken
  owner : ∀ key key' streamCh, Owns sh key streamCh → Owns sh key' streamCh → key = key'
  gone : ∀ key streamCh, (key, streamCh) ∈ sh.taken →
    ∀ key' awf, sh.awaitingForwards.lookup key' = some awf → awf.streamCh ≠ streamCh
  fresh : ∀ key streamCh, Owns sh key streamCh → streamCh < sh.next

/-- What is known of the calls: their numbers differ, and the announcement
that a `Tunnel` call holds has been taken. -/
structure Calls (sh : Shared) (frames : List Frame) : Prop where
  nodup : (frames.filterMap Frame.callID).Nodup
  fresh : ∀ call ∈ frames.filterMap Frame.callID, call < sh.next
  hands : ∀ f ∈ frames, ∀ x, f.hands = some x → x ∈ sh.taken

/-- All of this. -/
structure ForwardInv (sh : Shared) (frames : List Frame) : Prop where
  met : Met sh frames
  channels : Channels sh
  calls : Calls sh frames

variable {frames : List Frame} {call streamCh : Nat} {key : Key}

theorem Met.owns (h : Met sh frames) (hw : Waiting frames call key streamCh) :
    Owns sh key streamCh :=
  h.waiting call key streamCh hw

theorem callID_of_waits (h : f.waits = some (call, key, streamCh)) : f.callID = some call := by
  cases f <;> simp only [Frame.waits, reduceCtorEq] at h
  all_goals
    cases h
    rfl

variable {frames' : List Frame}

theorem waiting_perm (h : frames.Perm frames') :
    Waiting frames call key streamCh ↔ Waiting frames' call key streamCh := by
  simp only [Waiting, h.mem_iff]

theorem Met.perm (h : Met sh frames) (hperm : frames.Perm frames') : Met sh frames' := by
  refine ⟨?_, h.received, ?_⟩
  · intro key awf hawf
    exact (waiting_perm hperm).mp (h.announced key awf hawf)
  · intro call key streamCh hw
    exact h.waiting call key streamCh ((waiting_perm hperm).mpr hw)

theorem Calls.perm (h : Calls sh frames) (hperm : frames.Perm frames') : Calls sh frames' := by
  have hcalls := hperm.filterMap Frame.callID
  refine ⟨hcalls.nodup_iff.mp h.nodup, ?_, ?_⟩
  · intro call hcall
    exact h.fresh call (hcalls.mem_iff.mpr hcall)
  · intro f hf
    exact h.hands f (hperm.mem_iff.mpr hf)

theorem ForwardInv.perm (h : ForwardInv sh frames) (hperm : frames.Perm frames') :
    ForwardInv sh frames' :=
  ⟨h.met.perm hperm, h.channels, h.calls.perm hperm⟩

variable {others : List Frame}

theorem waiting_cons_iff :
    Waiting (f :: others) call key streamCh ↔
      f.waits = some (call, key, streamCh) ∨ Waiting others call key streamCh := by
  simp [Waiting]

/-- Frames that do not wait do not matter. -/
theorem met_cons_iff (hf : f.waits = none) : Met sh (f :: others) ↔ Met sh others := by
  have hwaiting : ∀ call key streamCh, Waiting (f :: others) call key streamCh ↔
      Waiting others call key streamCh := by simp [waiting_cons_iff, hf]
  constructor <;> rintro ⟨hannounced, hreceived, howns⟩ <;>
    exact ⟨by simpa only [hwaiting] using hannounced, hreceived, by simpa only [hwaiting] using howns⟩

/-- A call goes on to wait for a channel that was made for its key. -/
theorem Met.add (h : Met sh others) (hf : f.waits = some (call, key, streamCh))
    (howns : Owns sh key streamCh) : Met sh (f :: others) := by
  refine ⟨?_, h.received, ?_⟩
  · intro key' awf hawf
    exact waiting_cons_iff.mpr (.inr (h.announced key' awf hawf))
  · intro call' key' streamCh' hw
    rcases waiting_cons_iff.mp hw with heq | hw
    · cases hf.symm.trans heq
      exact howns
    · exact h.owns hw

/-- Other calls go on, and those that end or go on keep their number. -/
theorem Calls.replace (h : Calls sh (f :: others)) (fs : List Frame) (hnext : sh.next ≤ sh'.next)
    (htaken : ∀ x ∈ sh.taken, x ∈ sh'.taken)
    (hcalls : (fs.filterMap Frame.callID).Sublist f.callID.toList)
    (hhands : ∀ g ∈ fs, ∀ x, g.hands = some x → x ∈ sh'.taken) : Calls sh' (fs ++ others) := by
  have hsub : ((fs ++ others).filterMap Frame.callID).Sublist
      ((f :: others).filterMap Frame.callID) := by
    rw [filterMap_append, filterMap_cons]
    cases hf : f.callID with
    | none =>
      rw [hf] at hcalls
      rw [sublist_nil.mp hcalls]
      exact List.Sublist.refl _
    | some call =>
      rw [hf] at hcalls
      exact hcalls.append_right _
  refine ⟨h.nodup.sublist hsub, ?_, ?_⟩
  · intro call hcall
    exact Nat.lt_of_lt_of_le (h.fresh call (hsub.subset hcall)) hnext
  · intro g hg x hx
    rcases mem_append.mp hg with hg | hg
    · exact hhands g hg x hx
    · exact htaken x (h.hands g (mem_cons_of_mem f hg) x hx)

/-- A call goes on, without an announcement. -/
theorem Calls.next {g : Frame} (h : Calls sh (f :: others)) (hnext : sh.next ≤ sh'.next)
    (htaken : sh'.taken = sh.taken) (hcall : g.callID = f.callID) (hg : g.hands = none) :
    Calls sh' (g :: others) := by
  refine h.replace [g] hnext (fun x hx => by rw [htaken]; exact hx) ?_ ?_
  · rw [filterMap_cons, hcall]
    cases f.callID <;> exact List.Sublist.refl _
  · simp [hg]

/-- A call ends. -/
theorem Calls.finish (h : Calls sh (f :: others)) (hnext : sh'.next = sh.next)
    (htaken : sh'.taken = sh.taken) : Calls sh' others :=
  h.replace [] (by omega) (fun x hx => by rw [htaken]; exact hx) (nil_sublist _)
    (forall_mem_nil _)

/-! ## Steps -/

theorem ForwardInv.quiet (h : ForwardInv sh (f :: others))
    (hmap : sh'.awaitingForwards = sh.awaitingForwards) (hnext : sh.next ≤ sh'.next)
    (hstreams : sh'.streams = sh.streams) (htaken : sh'.taken = sh.taken)
    (hreceived : sh'.received = sh.received) (hwaits : fs.filterMap Frame.waits = f.waits.toList)
    (hcalls : (fs.filterMap Frame.callID).Sublist f.callID.toList)
    (hhands : ∀ g ∈ fs, g.hands = none) : ForwardInv sh' (fs ++ others) := by
  have hwaiting : ∀ call key streamCh, Waiting (fs ++ others) call key streamCh ↔
      Waiting (f :: others) call key streamCh := by
    intro call key streamCh
    have hfs : (∃ g ∈ fs, g.waits = some (call, key, streamCh)) ↔
        f.waits = some (call, key, streamCh) := by
      rw [← mem_filterMap, hwaits, Option.mem_toList]
    rw [waiting_cons_iff, ← hfs]
    simp only [Waiting, mem_append, or_and_right, exists_or]
  have howns : ∀ key streamCh, Owns sh' key streamCh ↔ Owns sh key streamCh := by
    intro key streamCh
    rw [Owns, Owns, hmap, htaken]
  refine ⟨⟨?_, ?_, ?_⟩, ⟨?_, ?_, ?_, ?_⟩, ?_⟩
  · intro key awf hawf
    rw [hmap] at hawf
    exact (hwaiting _ _ _).mpr (h.met.announced key awf hawf)
  · rw [hreceived]
    exact h.met.received
  · intro call key streamCh hw
    exact (howns key streamCh).mpr (h.met.owns ((hwaiting _ _ _).mp hw))
  · rw [hstreams, htaken]
    exact h.channels.offered
  · intro key key' streamCh ho ho'
    exact h.channels.owner key key' streamCh ((howns _ _).mp ho) ((howns _ _).mp ho')
  · rw [htaken, hmap]
    exact h.channels.gone
  · intro key streamCh ho
    exact Nat.lt_of_lt_of_le (h.channels.fresh key streamCh ((howns _ _).mp ho)) hnext
  · refine h.calls.replace fs hnext (fun x hx => by rw [htaken]; exact hx) hcalls ?_
    intro g hg x hx
    rw [hhands g hg] at hx
    cases hx

theorem ForwardInv.create (h : ForwardInv sh (.createClientStream key :: others)) :
    ForwardInv { sh with next := sh.next + 1 } (.dial sh.next key :: others) := by
  have hmet : Met sh (.dial sh.next key :: others) :=
    (met_cons_iff rfl).mpr ((met_cons_iff rfl).mp h.met)
  refine ⟨⟨hmet.announced, hmet.received, hmet.waiting⟩,
    ⟨h.channels.offered, h.channels.owner, h.channels.gone, ?_⟩, ⟨?_, ?_, ?_⟩⟩
  · intro key' streamCh ho
    exact Nat.lt_succ_of_lt (h.channels.fresh key' streamCh ho)
  · refine nodup_cons.mpr ⟨?_, h.calls.nodup⟩
    intro hmem
    exact Nat.lt_irrefl _ (h.calls.fresh sh.next hmem)
  · refine forall_mem_cons.mpr ⟨Nat.lt_succ_self _, ?_⟩
    intro call hcall
    exact Nat.lt_succ_of_lt (h.calls.fresh call hcall)
  · refine forall_mem_cons.mpr ⟨fun x hx => (by cases hx), ?_⟩
    intro f hf
    exact h.calls.hands f (mem_cons_of_mem _ hf)

variable {awf : AwaitingForward}

theorem ForwardInv.join {watcher : Nat} (h : ForwardInv sh (.await call key watcher :: others))
    (hmap : sh.awaitingForwards.lookup key = some awf) :
    ForwardInv sh (.request call key watcher awf.streamCh :: others) :=
  ⟨((met_cons_iff rfl).mp h.met).add rfl (.inl ⟨awf, hmap, rfl⟩), h.channels,
    h.calls.next (Nat.le_refl _) rfl rfl rfl⟩

/-- The channels when a call announces itself. -/
theorem owns_announce_iff (call : Nat) (hmap : sh.awaitingForwards.lookup key = none) {key' : Key} :
    Owns { sh with
        next := sh.next + 1
        awaitingForwards := sh.awaitingForwards.insert key ⟨sh.next, call⟩ } key' streamCh ↔
      key' = key ∧ streamCh = sh.next ∨ Owns sh key' streamCh := by
  unfold Owns
  dsimp only
  rw [GoMap.lookup_insert_eq]
  by_cases hkey : key' = key
  · subst hkey
    rw [if_pos rfl, hmap]
    simp [eq_comm]
  · rw [if_neg hkey]
    simp [hkey]

theorem ForwardInv.announce {watcher : Nat} (h : ForwardInv sh (.await call key watcher :: others))
    (hmap : sh.awaitingForwards.lookup key = none) :
    ForwardInv { sh with
        next := sh.next + 1
        awaitingForwards := sh.awaitingForwards.insert key ⟨sh.next, call⟩ }
      (.request call key watcher sh.next :: others) := by
  have howns : ∀ key' streamCh, _ ↔ key' = key ∧ streamCh = sh.next ∨ Owns sh key' streamCh :=
    fun key' streamCh => owns_announce_iff call hmap
  have hlook : ∀ key' awf,
      (sh.awaitingForwards.insert key ⟨sh.next, call⟩).lookup key' = some awf →
      key' = key ∧ awf = ⟨sh.next, call⟩ ∨ sh.awaitingForwards.lookup key' = some awf :=
    fun key' awf => GoMap.lookup_of_insert
  have hmet := (met_cons_iff rfl).mp h.met
  refine ⟨⟨?_, h.met.received, ?_⟩, ⟨h.channels.offered, ?_, ?_, ?_⟩,
    h.calls.next (Nat.le_succ _) rfl rfl rfl⟩
  · intro key' awf hawf
    rcases hlook key' awf hawf with ⟨rfl, rfl⟩ | hawf
    · exact waiting_cons_iff.mpr (.inl rfl)
    · exact waiting_cons_iff.mpr (.inr (hmet.announced key' awf hawf))
  · intro call' key' streamCh hw
    refine (howns key' streamCh).mpr ?_
    rcases waiting_cons_iff.mp hw with heq | hw
    · cases heq
      exact .inl ⟨rfl, rfl⟩
    · exact .inr (hmet.owns hw)
  · intro key₁ key₂ streamCh ho₁ ho₂
    rcases (howns key₁ streamCh).mp ho₁ with ⟨hkey₁, hch⟩ | hold₁
    · rcases (howns key₂ streamCh).mp ho₂ with ⟨hkey₂, _⟩ | hold₂
      · rw [hkey₁, hkey₂]
      · exact absurd (h.channels.fresh _ _ hold₂) (by omega)
    · rcases (howns key₂ streamCh).mp ho₂ with ⟨_, hch⟩ | hold₂
      · exact absurd (h.channels.fresh _ _ hold₁) (by omega)
      · exact h.channels.owner _ _ _ hold₁ hold₂
  · intro key' streamCh htaken key'' awf hawf
    rcases hlook key'' awf hawf with ⟨rfl, rfl⟩ | hawf
    · have hlt := h.channels.fresh _ _ (.inr htaken)
      exact (Nat.ne_of_lt hlt).symm
    · exact h.channels.gone key' streamCh htaken key'' awf hawf
  · intro key' streamCh ho
    rcases (howns key' streamCh).mp ho with ⟨_, rfl⟩ | ho
    · exact Nat.lt_succ_self _
    · exact Nat.lt_succ_of_lt (h.channels.fresh _ _ ho)

/-- A call that ends does no harm if no announcement is its own. -/
theorem Met.finish (h : Met sh (f :: others)) (hf : f.waits = some (call, key, streamCh))
    (hnot : ∀ awf, sh.awaitingForwards.lookup key = some awf →
      awf.doneCh = call → awf.streamCh ≠ streamCh) : Met sh others := by
  refine ⟨?_, h.received, ?_⟩
  · intro key' awf hawf
    rcases waiting_cons_iff.mp (h.announced key' awf hawf) with heq | hw
    · rw [hf] at heq
      cases heq
      exact absurd rfl (hnot awf hawf rfl)
    · exact hw
  · intro call' key' streamCh' hw
    exact h.waiting call' key' streamCh' (waiting_cons_iff.mpr (.inr hw))

theorem ForwardInv.giveUp (h : ForwardInv sh (.receive call key streamCh :: others))
    (hpatient : ∀ awf, sh.awaitingForwards.lookup key = some awf → awf.doneCh ≠ call) :
    ForwardInv sh others := by
  refine ⟨h.met.finish rfl ?_, h.channels, h.calls.finish rfl rfl⟩
  intro awf hawf hdone
  exact absurd hdone (hpatient awf hawf)

theorem ForwardInv.receive {o : Offer} (h : ForwardInv sh (.receive call key o.streamCh :: others))
    (hmem : o ∈ sh.streams) :
    ForwardInv { sh with
        streams := sh.streams.erase o
        received := (o.key, key) :: sh.received } others := by
  have htaken := h.channels.offered o hmem
  have hmet : Met sh others := by
    refine h.met.finish rfl ?_
    intro awf hawf _
    exact h.channels.gone _ _ htaken key awf hawf
  refine ⟨⟨hmet.announced, ?_, hmet.waiting⟩,
    ⟨?_, h.channels.owner, h.channels.gone, h.channels.fresh⟩, h.calls.finish rfl rfl⟩
  · refine forall_mem_cons.mpr ⟨?_, h.met.received⟩
    have howns : Owns sh key o.streamCh := h.met.owns (waiting_cons_iff.mpr (.inl rfl))
    exact h.channels.owner _ _ _ (.inr htaken) howns
  · intro o' ho'
    exact h.channels.offered o' (mem_of_mem_erase ho')

theorem ForwardInv.take (h : ForwardInv sh (.tunnel key :: others))
    (hmap : sh.awaitingForwards.lookup key = some awf) :
    ForwardInv { sh with
        next := sh.next + 1
        awaitingForwards := sh.awaitingForwards.erase key
        taken := (key, awf.streamCh) :: sh.taken } (.hand sh.next key awf :: others) := by
  have hlook : ∀ key' awf', (sh.awaitingForwards.erase key).lookup key' = some awf' →
      key' ≠ key ∧ sh.awaitingForwards.lookup key' = some awf' :=
    fun key' awf' => GoMap.lookup_of_erase
  -- the channel that was announced is now one that has been taken
  have howns : ∀ key' streamCh, Owns { sh with
        next := sh.next + 1
        awaitingForwards := sh.awaitingForwards.erase key
        taken := (key, awf.streamCh) :: sh.taken } key' streamCh ↔ Owns sh key' streamCh := by
    intro key' streamCh
    unfold Owns
    dsimp only
    rw [GoMap.lookup_erase_eq, mem_cons]
    by_cases hkey : key' = key
    · subst hkey
      rw [if_pos rfl, hmap]
      simp [eq_comm]
    · rw [if_neg hkey]
      simp [hkey]
  have hmet : Met sh (.hand sh.next key awf :: others) :=
    (met_cons_iff rfl).mpr ((met_cons_iff rfl).mp h.met)
  refine ⟨⟨?_, h.met.received, ?_⟩, ⟨?_, ?_, ?_, ?_⟩, ?_⟩
  · intro key' awf' hawf
    exact hmet.announced key' awf' (hlook key' awf' hawf).2
  · intro call key' streamCh hw
    exact (howns key' streamCh).mpr (hmet.owns hw)
  · intro o ho
    exact mem_cons_of_mem _ (h.channels.offered o ho)
  · intro key₁ key₂ streamCh ho₁ ho₂
    exact h.channels.owner _ _ _ ((howns _ _).mp ho₁) ((howns _ _).mp ho₂)
  · intro key' streamCh htaken key'' awf' hawf
    obtain ⟨hne, hawf⟩ := hlook key'' awf' hawf
    rcases mem_cons.mp htaken with heq | htaken
    · cases heq
      intro hch
      exact hne (h.channels.owner _ _ _ (.inl ⟨awf', hawf, hch⟩) (.inl ⟨awf, hmap, rfl⟩))
    · exact h.channels.gone key' streamCh htaken key'' awf' hawf
  · intro key' streamCh ho
    exact Nat.lt_succ_of_lt (h.channels.fresh _ _ ((howns _ _).mp ho))
  · refine h.calls.replace [_] (Nat.le_succ _) (fun _ hx => mem_cons_of_mem _ hx)
      (List.Sublist.refl _) (forall_mem_singleton.mpr ?_)
    intro x hx
    cases hx
    exact mem_cons_self

theorem ForwardInv.send {tunnel : Nat} (h : ForwardInv sh (.hand tunnel key awf :: others)) :
    ForwardInv { sh with streams := ⟨tunnel, key, awf.streamCh⟩ :: sh.streams }
      (.handed tunnel awf :: others) := by
  have hmet : Met sh (.handed tunnel awf :: others) :=
    (met_cons_iff rfl).mpr ((met_cons_iff rfl).mp h.met)
  refine ⟨⟨hmet.announced, hmet.received, hmet.waiting⟩,
    ⟨?_, h.channels.owner, h.channels.gone, h.channels.fresh⟩,
    h.calls.next (Nat.le_refl _) rfl rfl rfl⟩
  refine forall_mem_cons.mpr ⟨?_, h.channels.offered⟩
  exact h.calls.hands _ mem_cons_self _ rfl

/-- **Patient steps** keep the invariant. -/
theorem ForwardInv.exec (h : ForwardInv sh (f :: others)) (hpatient : f.Patient sh c)
    (hexec : exec sh f c = some (sh', fs)) : ForwardInv sh' (fs ++ others) := by
  cases exec_forwardEffect hexec with
  | quiet hmap hnext hstreams htaken hreceived hwaits hcalls hhands _ =>
    exact h.quiet hmap hnext hstreams htaken hreceived hwaits hcalls hhands
  | create key hf hsh hfs =>
    subst hf hsh hfs
    exact h.create
  | join call key watcher awf hf hmap hsh hfs =>
    subst hf hsh hfs
    exact h.join hmap
  | announce call key watcher hf hmap hsh hfs =>
    subst hf hsh hfs
    exact h.announce hmap
  | giveUp call key streamCh hf hc hsh hfs =>
    subst hf hc hsh hfs
    exact h.giveUp hpatient
  | receive call key o hf hmem _ hsh hfs =>
    subst hf hsh hfs
    exact h.receive hmem
  | take key awf hf hmap hsh hfs =>
    subst hf hsh hfs
    exact h.take hmap
  | send tunnel key awf hf hsh hfs =>
    subst hf hsh hfs
    exact h.send

/-- A call that gives up while its announcement is stored leaves it behind. -/
theorem not_met_of_not_patient (h : ForwardInv sh (f :: others)) (hpatient : ¬ f.Patient sh c)
    (hexec : AgentServer.exec sh f c = some (sh', fs)) : ¬ Met sh' (fs ++ others) := by
  cases exec_forwardEffect hexec with
  | giveUp call key streamCh hf hc hsh hfs =>
    subst hf hc hsh hfs
    simp only [Frame.Patient, not_forall, not_not] at hpatient
    obtain ⟨awf, hawf, hdone⟩ := hpatient
    intro hmet
    obtain ⟨g, hg, hwaits⟩ := hmet.announced key awf hawf
    rw [hdone] at hwaits
    have hnot := (nodup_cons.mp h.calls.nodup).1
    exact hnot (mem_filterMap.mpr ⟨g, hg, callID_of_waits hwaits⟩)
  | quiet _ _ _ _ _ _ _ _ hallowed => exact absurd hallowed hpatient
  | create | join | announce | take | send =>
    subst_vars
    exact absurd trivial hpatient
  | receive call key o hf _ hc _ _ =>
    subst hf
    cases c with
    | done => exact absurd rfl hc
    | _ => exact absurd trivial hpatient

/-- Calls that have just started change nothing. -/
theorem ForwardInv.start (h : ForwardInv sh frames) (op : Op) :
    ForwardInv sh (frames ++ program op) := by
  have hnew : ∀ f ∈ program op, f.waits = none ∧ f.callID = none ∧ f.hands = none := by
    cases op <;> exact forall_mem_singleton.mpr ⟨rfl, rfl, rfl⟩
  have hwaiting : ∀ call key streamCh, Waiting (frames ++ program op) call key streamCh →
      Waiting frames call key streamCh := by
    rintro call key streamCh ⟨f, hf, hw⟩
    rcases mem_append.mp hf with hf | hf
    · exact ⟨f, hf, hw⟩
    · rw [(hnew f hf).1] at hw
      cases hw
  have hcalls : (frames ++ program op).filterMap Frame.callID = frames.filterMap Frame.callID := by
    rw [filterMap_append, filterMap_eq_nil_iff.mpr fun f hf => (hnew f hf).2.1,
      append_nil]
  refine ⟨⟨?_, h.met.received, ?_⟩, h.channels, ⟨?_, ?_, ?_⟩⟩
  · intro key awf hawf
    obtain ⟨f, hf, hw⟩ := h.met.announced key awf hawf
    exact ⟨f, mem_append_left _ hf, hw⟩
  · intro call key streamCh hw
    exact h.met.waiting call key streamCh (hwaiting _ _ _ hw)
  · rw [hcalls]
    exact h.calls.nodup
  · rw [hcalls]
    exact h.calls.fresh
  · intro f hf x hx
    rcases mem_append.mp hf with hf | hf
    · exact h.calls.hands f hf x hx
    · rw [(hnew f hf).2.2] at hx
      cases hx

/-- **Dial requests and tunnels.**  They meet in every state of a run if and
only if no call of the run gives up waiting while its announcement is
stored. -/
theorem forwards_meet_iff (events : List Event) :
    Runs.Always step (fun p => Met p.shared p.frames) ⟨{}, []⟩ events ↔
      Runs.Meets step ForwardAllowed ⟨{}, []⟩ events := by
  have hprop : ∀ p : Server, ForwardInv p.shared p.frames → Met p.shared p.frames :=
    fun _ hp => hp.met
  refine Runs.always_iff_meets hprop ?_ ?_ ?_ events
  · intro p e p' hp hallow hstep
    rcases Threads.step_cases hstep with
      ⟨op, _, hsh, hframes⟩ | ⟨thread, c, f, fs, others, rfl, htop, hexec, hold, hnew⟩
    · rw [hsh, hframes]
      exact hp.start op
    · exact ((hp.perm hold).exec (hallow f htop) hexec).perm hnew.symm
  · intro p e p' hp hallow hstep hmet
    rcases Threads.step_cases hstep with
      ⟨op, rfl, _, _⟩ | ⟨thread, c, f, fs, others, rfl, htop, hexec, hold, hnew⟩
    · exact hallow trivial
    · refine not_met_of_not_patient (hp.perm hold) ?_ hexec (hmet.perm hnew)
      intro hf
      refine hallow ?_
      intro f' htop'
      rw [htop] at htop'
      cases htop'
      exact hf
  · have howns : ∀ key streamCh, ¬ Owns {} key streamCh := by
      rintro key streamCh (⟨awf, hawf, _⟩ | htaken)
      · cases hawf
      · cases htaken
    refine ⟨⟨?_, forall_mem_nil _, ?_⟩, ⟨forall_mem_nil _, ?_, ?_, ?_⟩,
      ⟨nodup_nil, forall_mem_nil _, forall_mem_nil _⟩⟩
    · intro key awf hawf
      cases hawf
    · rintro call key streamCh ⟨f, hf, _⟩
      cases hf
    · intro key key' streamCh ho
      exact absurd ho (howns key streamCh)
    · intro key streamCh htaken
      cases htaken
    · intro key streamCh ho
      exact absurd ho (howns key streamCh)

/-- A call times out after its dial request was received.  It has returned,
and its announcement is still there. -/
theorem announcement_left :
    ∃ (p : Server) (awf : AwaitingForward),
      Runs.run step ⟨{}, []⟩
          [.start (.watchDial "c"), .run 0 .next, .start (.createClientStream ("c", [1])),
            .run 1 .next, .run 1 .next, .run 1 .next, .run 1 .next, .run 0 (.take 1),
            .run 1 .next, .start (.cancel 1), .run 2 .next, .run 1 .done] = some p ∧
        p.frames.filterMap Frame.callID = [] ∧
        p.shared.awaitingForwards.lookup ("c", [1]) = some awf ∧ awf.doneCh = 1 :=
  ⟨_, _, rfl, rfl, rfl, rfl⟩

end Telepresence.AgentServer
