import Telepresence.Lib.Runs

/-!
# Reading a tunnel as a connection

`streamConn.Read` turns the messages of a tunnel into a stream of bytes.  The
receiving of a message cannot be interrupted, so `readMore` leaves it to a
goroutine and waits for the first of its result, the read deadline and a call
of `SetReadDeadline`.  A `Read` that does not take the result leaves its
goroutine behind, and the message that this receives, or has just received, is
lost.

Reads exclude each other by a lock.  Only messages with the code `Normal` are
modelled, as payloads, and the connection is not closed.  A time is a number
of nanoseconds, and 0 is no deadline.

* `Inv.step`: no byte is lost when a goroutine receives a message only while
  its `Read` waits for it, and a `Read` gives up only while there are no bytes
  in its channel.
* `read_delivers`: along a run of such events the bytes that are read are those
  that are received.
-/

namespace Telepresence.StreamConn

open Runs List Option

/-- A payload. -/
abbrev Bytes := List UInt8

/-- The goroutine of a `readMore`, with the deadline of its context. -/
structure Receiver where
  id : Nat
  deadline : Int

/-- A `Read` in the `select` of its first or second `readMore`: the size of its
buffer, its goroutine and deadline, and what the channel of the goroutine
holds (`none` for an error). -/
structure Wait where
  size : Nat
  again : Bool
  id : Nat
  deadline : Int
  msgCh : Option (Option Bytes) := none

/-- `streamConn`, what its stream has in store, the `Read` that holds the lock,
the goroutines, the payloads that have been received and the bytes that have
been read. -/
structure State where
  incoming : List Bytes := []
  lastIncoming : Option Bytes := none
  offset : Nat := 0
  readDeadline : Int := 0
  now : Int := 0
  reader : Option Wait := none
  receivers : List Receiver := []
  next : Nat := 0
  received : List Bytes := []
  output : Bytes := []

namespace State

/-- `readMore`, up to its `select`. -/
def readMore (s : State) (size : Nat) (again : Bool) : State :=
  let s := { s with offset := 0 }
  if s.readDeadline ≠ 0 ∧ s.readDeadline < s.now then { s with reader := none }
  else
    { s with
      reader := some { size := size, again := again, id := s.next, deadline := s.readDeadline }
      receivers := ⟨s.next, s.readDeadline⟩ :: s.receivers
      next := s.next + 1 }

/-- The end of `Read`: bytes are copied into the buffer. -/
def copy (s : State) (size : Nat) : State :=
  let pl := s.lastIncoming.getD []
  let copied := (pl.drop s.offset).take size
  { s with
    offset := s.offset + copied.length
    output := s.output ++ copied
    lastIncoming := if s.offset + copied.length = pl.length then none else s.lastIncoming
    reader := none }

/-- `Read` when there is a message: one without more bytes is followed by
another. -/
def readMessage (s : State) (size : Nat) : State :=
  if (s.lastIncoming.getD []).length ≤ s.offset then s.readMore size true else s.copy size

/-- `Read`, up to its first `select`. -/
def read (s : State) (size : Nat) : State :=
  match s.lastIncoming with
  | none => s.readMore size false
  | some _ => s.readMessage size

/-- The `Read` that holds the lock waits for the goroutine. -/
def waitsFor (s : State) (id : Nat) : Bool := s.reader.any (·.id == id)

/-- A goroutine puts its result into its channel. -/
def put (s : State) (id : Nat) (msg : Option Bytes) : State :=
  { s with
    receivers := s.receivers.filter (·.id ≠ id)
    reader := s.reader.map fun w => if w.id = id then { w with msgCh := some msg } else w }

/-- The context of a goroutine has ended: its deadline has passed, or its
`Read` has returned and cancelled it. -/
def contextDone (s : State) (r : Receiver) : Bool :=
  r.deadline ≠ 0 ∧ (r.deadline ≤ s.now ∨ s.waitsFor r.id = false)

end State

/-- What can happen: a message arrives, time passes, `SetReadDeadline` is
called and its signal is taken or not, `Read` is called, the `Receive` of a
goroutine returns a message or an error, and the `select` takes the deadline
or the result. -/
inductive Event where
  | arrive (payload : Bytes)
  | elapse (time : Nat)
  | setReadDeadline (t : Option Int) (signalled : Bool)
  | read (size : Nat)
  | receive (id : Nat)
  | abort (id : Nat)
  | deadline
  | result

/-- One event. -/
def step (s : State) : Event → Option State
  | .arrive payload => some { s with incoming := s.incoming ++ [payload] }
  | .elapse time => some { s with now := s.now + time }
  | .setReadDeadline t signalled =>
      if !signalled then some { s with readDeadline := t.getD 0 }
      else if s.reader.isSome then some { s with readDeadline := t.getD 0, reader := none }
      else none
  | .read size => if s.reader.isSome then none else some (s.read size)
  | .receive id =>
      match s.receivers.find? (·.id == id), s.incoming with
      | some _, payload :: incoming =>
          some { s.put id (some payload) with
            incoming := incoming
            received := s.received ++ [payload] }
      | _, _ => none
  -- only a stream whose `Receive` heeds the context returns this error
  | .abort id =>
      match s.receivers.find? (·.id == id) with
      | none => none
      | some r => if s.contextDone r then some (s.put id none) else none
  | .deadline =>
      match s.reader with
      | none => none
      | some w =>
          if w.deadline ≠ 0 ∧ w.deadline ≤ s.now then some { s with reader := none } else none
  | .result =>
      match s.reader with
      | none => none
      | some w =>
          match w.msgCh with
          | none => none
          | some none => some { s with lastIncoming := none, reader := none }
          | some (some payload) =>
              let s := { s with lastIncoming := some payload }
              some (if w.again then s.copy w.size else s.readMessage w.size)

/-! ## What is claimed of reading -/

namespace State

/-- The bytes of the last message that have not been read. -/
def remainder (s : State) : Bytes := (s.lastIncoming.getD []).drop s.offset

/-- The bytes in the channel that the `Read` waits on. -/
def held (s : State) : Bytes :=
  match s.reader with
  | none => []
  | some w => (w.msgCh.bind id).getD []

/-- What was read is a prefix of what was received, and all of it once there is
nothing left. -/
def Delivers (s : State) : Prop :=
  s.output <+: s.received.flatten ∧
    (s.incoming = [] → s.reader = none → s.remainder = [] → s.output = s.received.flatten)

/-- A goroutine receives a message with bytes only while its `Read` waits for
it, and a `Read` gives up only while there are no bytes in its channel. -/
def Allows (s : State) : Event → Prop
  | .receive id => s.waitsFor id = true ∨ ∀ payload, s.incoming.head? = some payload → payload = []
  | .deadline => s.held = []
  | .setReadDeadline _ true => s.held = []
  | _ => True

end State

/-- The account of the bytes.  A message that is kept has bytes that have not
been read or none at all, and what a `Read` waits for begins a new message. -/
structure Inv (s : State) : Prop where
  account : s.output ++ (s.remainder ++ s.held) = s.received.flatten
  kept : ∀ pl, s.lastIncoming = some pl → pl = [] ∨ s.offset < pl.length
  waiting : ∀ w, s.reader = some w → s.lastIncoming.getD [] = [] ∧ s.offset = 0
  single : ∀ w, s.reader = some w → w.msgCh.isSome = true →
    ∀ r ∈ s.receivers, r.id ≠ w.id

namespace Inv

variable {s : State}

theorem held_eq_nil (h : s.reader = none) : s.held = [] := by
  rw [State.held, h]

/-- A message without bytes to read is empty. -/
theorem kept_nil (h : Inv s) (hlen : (s.lastIncoming.getD []).length ≤ s.offset) :
    s.lastIncoming.getD [] = [] := by
  cases hlast : s.lastIncoming with
  | none => rfl
  | some pl =>
    rw [hlast, getD_some] at hlen
    rcases h.kept pl hlast with rfl | hlt
    · rfl
    · omega

theorem remainder_eq_nil (h : s.lastIncoming.getD [] = []) : s.remainder = [] := by
  rw [State.remainder, h, drop_nil]

section

variable (h : Inv s)

include h

/-- The next `readMore` of a `Read` that has no bytes to return. -/
theorem readMore (hreader : s.held = []) (hlast : s.lastIncoming.getD [] = [])
    (size : Nat) (again : Bool) : Inv (s.readMore size again) := by
  have hrem := remainder_eq_nil hlast
  have haccount : s.output ++ ((s.lastIncoming.getD []).drop 0 ++ []) = s.received.flatten := by
    have haccount := h.account
    rw [hrem, hreader] at haccount
    rw [hlast]
    exact haccount
  have hkept : ∀ pl, s.lastIncoming = some pl → pl = [] ∨ 0 < pl.length := by
    intro pl hpl
    rw [hpl, getD_some] at hlast
    exact .inl hlast
  unfold State.readMore
  dsimp only
  split
  · refine ⟨haccount, hkept, ?_, ?_⟩
    all_goals
      intro w hw
      cases hw
  · refine ⟨haccount, hkept, ?_, ?_⟩
    · intro w _
      exact ⟨hlast, rfl⟩
    · intro w hw hmsg
      cases hw
      cases hmsg

/-- Copying moves bytes from the message to the reader. -/
theorem copy (hreader : s.reader = none)
    (hoffset : s.offset ≤ (s.lastIncoming.getD []).length) (size : Nat) : Inv (s.copy size) := by
  generalize hpl : s.lastIncoming.getD [] = pl at hoffset
  have hlen : ((pl.drop s.offset).take size).length = min size (pl.length - s.offset) := by
    rw [length_take, length_drop]
  have hremainder : (s.copy size).remainder = (pl.drop s.offset).drop size := by
    unfold State.copy State.remainder
    dsimp only
    rw [hpl, hlen]
    split
    · rw [getD_none, drop_nil, drop_drop, drop_eq_nil_of_le (by omega)]
    · rw [hpl, drop_drop]
      rcases Nat.le_total size (pl.length - s.offset) with hle | hle
      · rw [Nat.min_eq_left hle]
      · rw [drop_eq_nil_of_le (by omega), drop_eq_nil_of_le (by omega)]
  refine ⟨?_, ?_, ?_, ?_⟩
  · have haccount := h.account
    rw [held_eq_nil hreader, append_nil, State.remainder, hpl] at haccount
    rw [hremainder, held_eq_nil rfl, append_nil]
    show s.output ++ ((s.lastIncoming.getD []).drop s.offset).take size ++
      (pl.drop s.offset).drop size = s.received.flatten
    rw [hpl, append_assoc, take_append_drop]
    exact haccount
  · intro pl' hpl'
    simp only [State.copy, hpl, hlen] at hpl' ⊢
    split at hpl'
    · cases hpl'
    · rw [hpl', getD_some] at hpl
      subst hpl
      right
      omega
  all_goals
    intro w hw
    cases hw

theorem readMessage (hreader : s.reader = none) (size : Nat) : Inv (s.readMessage size) := by
  unfold State.readMessage
  split
  · rename_i hle
    exact h.readMore (held_eq_nil hreader) (h.kept_nil hle) size true
  · exact h.copy hreader (by omega) size

theorem read (hreader : s.reader = none) (size : Nat) : Inv (s.read size) := by
  unfold State.read
  split
  · rename_i hnone
    exact h.readMore (held_eq_nil hreader) (by rw [hnone]; rfl) size false
  · exact h.readMessage hreader size

/-- A `Read` gives up while there are no bytes in its channel. -/
theorem giveUp (hheld : s.held = []) : Inv { s with reader := none } := by
  refine ⟨?_, h.kept, ?_, ?_⟩
  · have haccount := h.account
    rw [hheld] at haccount
    exact haccount
  all_goals
    intro w hw
    cases hw

/-- The message in the channel becomes the last message. -/
theorem takeResult {w : Wait} {payload : Bytes} (hw : s.reader = some w)
    (hmsg : w.msgCh = some (some payload)) :
    Inv { s with lastIncoming := some payload, reader := none } := by
  obtain ⟨hlast, hoffset⟩ := h.waiting w hw
  refine ⟨?_, ?_, ?_, ?_⟩
  · have haccount := h.account
    rw [remainder_eq_nil hlast, nil_append, State.held, hw] at haccount
    simp only [hmsg, bind_some, id_eq, getD_some] at haccount
    show s.output ++ (payload.drop s.offset ++ []) = s.received.flatten
    rw [hoffset, drop_zero, append_nil]
    exact haccount
  · intro pl hpl
    cases hpl
    show payload = [] ∨ s.offset < payload.length
    rw [hoffset]
    cases payload with
    | nil => exact .inl rfl
    | cons b bs => exact .inr (Nat.succ_pos _)
  all_goals
    intro w hw
    cases hw

/-- A goroutine puts its result into its channel. -/
theorem put {id : Nat} {r : Receiver} (hr : r ∈ s.receivers) (hid : r.id = id)
    (msg : Option Bytes) :
    (s.put id msg).held = (if s.waitsFor id = true then msg.getD [] else s.held) ∧
      (s.waitsFor id = true → s.held = []) ∧
      ∀ w, (s.put id msg).reader = some w →
        (s.lastIncoming.getD [] = [] ∧ s.offset = 0) ∧
          (w.msgCh.isSome = true → ∀ r ∈ (s.put id msg).receivers, r.id ≠ w.id) := by
  cases hreader : s.reader with
  | none =>
    refine ⟨?_, ?_, ?_⟩
    · simp [State.held, State.put, State.waitsFor, hreader]
    · intro hwait
      simp [State.waitsFor, hreader] at hwait
    · intro w hw
      simp [State.put, hreader] at hw
  | some w₀ =>
    by_cases hw₀ : w₀.id = id
    · have hempty : w₀.msgCh = none := by
        cases hmsg : w₀.msgCh with
        | none => rfl
        | some m => exact absurd (by rw [hid, hw₀]) (h.single w₀ hreader (by rw [hmsg]; rfl) r hr)
      refine ⟨?_, ?_, ?_⟩
      · simp [State.held, State.put, State.waitsFor, hreader, hw₀]
      · intro _
        simp [State.held, hreader, hempty]
      · intro w hw
        refine ⟨h.waiting w₀ hreader, ?_⟩
        intro _ r' hr'
        have hfilter := (mem_filter.mp hr').2
        simp only [State.put, hreader, map_some, if_pos hw₀, some.injEq] at hw
        rw [← hw]
        show r'.id ≠ w₀.id
        rw [hw₀]
        exact of_decide_eq_true hfilter
    · refine ⟨?_, ?_, ?_⟩
      · simp [State.held, State.put, State.waitsFor, hreader, hw₀]
      · intro hwait
        simp [State.waitsFor, hreader, hw₀] at hwait
      · intro w hw
        simp only [State.put, hreader, map_some, if_neg hw₀, some.injEq] at hw
        subst hw
        refine ⟨h.waiting w₀ hreader, ?_⟩
        intro hmsg r' hr'
        exact h.single w₀ hreader hmsg r' (mem_filter.mp hr').1

/-- A message is received by a goroutine whose `Read` waits for it, or it is
empty. -/
theorem receive {r : Receiver} (hr : r ∈ s.receivers) (payload : Bytes)
    (incoming : List Bytes) (hallow : s.waitsFor r.id = true ∨ payload = []) :
    Inv { s.put r.id (some payload) with
      incoming := incoming
      received := s.received ++ [payload] } := by
  obtain ⟨hheld, hnone, hwaiting⟩ := h.put hr rfl (some payload)
  have haccount := h.account
  have hput : s.output ++ (s.remainder ++ (s.put r.id (some payload)).held) =
      (s.received ++ [payload]).flatten := by
    rw [flatten_append, flatten_singleton, hheld]
    by_cases hwait : s.waitsFor r.id = true
    · rw [hnone hwait, append_nil] at haccount
      rw [if_pos hwait, ← haccount, getD_some, append_assoc]
    · rw [if_neg hwait, haccount, hallow.resolve_left hwait, append_nil]
  exact ⟨hput, h.kept, fun w hw => (hwaiting w hw).1, fun w hw => (hwaiting w hw).2⟩

/-- The `Receive` of a goroutine returns an error. -/
theorem abort {r : Receiver} (hr : r ∈ s.receivers) : Inv (s.put r.id none) := by
  obtain ⟨hheld, hnone, hwaiting⟩ := h.put hr rfl none
  have haccount := h.account
  have hput : s.output ++ (s.remainder ++ (s.put r.id none).held) = s.received.flatten := by
    rw [hheld]
    by_cases hwait : s.waitsFor r.id = true
    · rw [hnone hwait] at haccount
      rw [if_pos hwait]
      exact haccount
    · rw [if_neg hwait]
      exact haccount
  exact ⟨hput, h.kept, fun w hw => (hwaiting w hw).1, fun w hw => (hwaiting w hw).2⟩

/-- The result in the channel is an error. -/
theorem takeError {w : Wait} (hw : s.reader = some w) (hmsg : w.msgCh = some none) :
    Inv { s with lastIncoming := none, reader := none } := by
  obtain ⟨hlast, _⟩ := h.waiting w hw
  have haccount := h.account
  rw [remainder_eq_nil hlast, State.held, hw] at haccount
  simp only [hmsg, bind_some, id_eq, getD_none, append_nil] at haccount
  refine ⟨?_, ?_, ?_, ?_⟩
  · show s.output ++ (([] : Bytes).drop s.offset ++ []) = s.received.flatten
    rw [drop_nil, append_nil, append_nil]
    exact haccount
  · intro pl hpl
    cases hpl
  all_goals
    intro w hw
    cases hw

/-- **Allowed events** keep the account. -/
theorem step {s' : State} {e : Event} (hallow : s.Allows e)
    (hstep : step s e = some s') : Inv s' := by
  cases e with
  | arrive payload | elapse time =>
    cases hstep
    exact ⟨h.account, h.kept, h.waiting, h.single⟩
  | setReadDeadline t signalled =>
    simp only [StreamConn.step] at hstep
    split at hstep
    · cases hstep
      exact ⟨h.account, h.kept, h.waiting, h.single⟩
    · rename_i hsignalled
      have hheld : s.held = [] := by
        cases signalled with
        | true => exact hallow
        | false => exact absurd rfl hsignalled
      split at hstep
      · cases hstep
        have hgiven := h.giveUp hheld
        exact ⟨hgiven.account, hgiven.kept, hgiven.waiting, hgiven.single⟩
      · cases hstep
  | read size =>
    simp only [StreamConn.step] at hstep
    split at hstep
    · cases hstep
    · rename_i hreader
      cases hstep
      exact h.read (not_isSome_iff_eq_none.mp hreader) size
  | receive id =>
    simp only [StreamConn.step] at hstep
    split at hstep
    · rename_i r payload incoming hfind hincoming
      cases hstep
      obtain rfl : r.id = id := by simpa using find?_some hfind
      refine h.receive (mem_of_find?_eq_some hfind) payload incoming ?_
      exact hallow.imp_right fun hempty => hempty payload (by rw [hincoming]; rfl)
    · cases hstep
  | abort id =>
    simp only [StreamConn.step] at hstep
    split at hstep
    · cases hstep
    · rename_i r hfind
      obtain rfl : r.id = id := by simpa using find?_some hfind
      split at hstep
      · cases hstep
        exact h.abort (mem_of_find?_eq_some hfind)
      · cases hstep
  | deadline =>
    simp only [StreamConn.step] at hstep
    split at hstep
    · cases hstep
    · split at hstep
      · cases hstep
        exact h.giveUp hallow
      · cases hstep
  | result =>
    simp only [StreamConn.step] at hstep
    split at hstep
    · cases hstep
    · rename_i w hw
      split at hstep
      · cases hstep
      · rename_i hmsg
        cases hstep
        exact h.takeError hw hmsg
      · rename_i payload hmsg
        cases hstep
        have htaken := h.takeResult hw hmsg
        obtain ⟨_, hoffset⟩ := h.waiting w hw
        -- neither end of `Read` looks at who held the lock
        split
        · exact htaken.copy rfl (by rw [hoffset]; exact Nat.zero_le _) w.size
        · exact htaken.readMessage rfl w.size

theorem delivers : s.Delivers := by
  refine ⟨⟨s.remainder ++ s.held, h.account⟩, ?_⟩
  intro _ hreader hremainder
  have haccount := h.account
  rw [hremainder, held_eq_nil hreader, append_nil, append_nil] at haccount
  exact haccount

end

end Inv

/-- **Reading delivers the stream.**  Along a run of allowed events, the bytes
that were read are a prefix of those that were received, and all of them once
nothing is left. -/
theorem read_delivers (now : Int) {events : List Event}
    (h : Meets step State.Allows { now := now } events) :
    Always step State.Delivers { now := now } events := by
  have hprop : ∀ s, Inv s → s.Delivers := fun _ hs => hs.delivers
  refine always_of_meets hprop (fun _ _ _ hs hallow hstep => hs.step hallow hstep) ?_ h
  refine ⟨rfl, ?_, ?_, ?_⟩
  · intro pl hpl
    cases hpl
  all_goals
    intro w hw
    cases hw

/-- Two messages are read in three pieces, the deadline passes while there is
no third one. -/
theorem read_delivers_pieces :
    Always step State.Delivers {}
      [.arrive [1, 2, 3], .arrive [4], .read 2, .receive 0, .result, .read 2, .read 2, .receive 1,
        .result, .setReadDeadline (some 5) false, .read 2, .elapse 5, .deadline] := by
  apply read_delivers
  refine Meets.cons rfl trivial (Meets.cons rfl trivial ?_)
  refine Meets.cons rfl trivial (Meets.cons rfl (.inl rfl) (Meets.cons rfl trivial ?_))
  refine Meets.cons rfl trivial (Meets.cons rfl trivial ?_)
  refine Meets.cons rfl (.inl rfl) (Meets.cons rfl trivial (Meets.cons rfl trivial ?_))
  exact Meets.cons rfl trivial (Meets.cons rfl trivial (Meets.cons rfl rfl trivial))

/-- The deadline of a `Read` passes before the first message arrives.  Its
goroutine receives that message, and the next `Read` returns the second. -/
theorem message_lost :
    ∃ s : State,
      Runs.run step {}
          [.setReadDeadline (some 5) false, .read 10, .elapse 5, .deadline,
            .setReadDeadline none false, .arrive [1, 2], .receive 0, .arrive [3], .read 10,
            .receive 1, .result] = some s ∧
        s.received = [[1, 2], [3]] ∧ s.output = [3] ∧ ¬ s.Delivers := by
  refine ⟨_, rfl, rfl, rfl, ?_⟩
  intro h
  exact absurd h.1 (by decide)

end Telepresence.StreamConn
