import Telepresence.TunnelMessage

/-!
# When the stream handshake is safe

`setConnectInfo` compares each declared length with a slice that still starts
at the length's own varint, and only then strips the varint.  A length that
exceeds what follows the varint by at most the varint's size slips through:
the slice expressions that come next leave the received bytes.  Besides,
`Code` reads the first byte of a message that may be empty.

* `newServerStream_safe_iff`: the handshake neither panics nor reads beyond
  the received bytes exactly for the messages in which that does not happen.
-/

namespace Telepresence.Tunnel

open Varint Panic List Slice

/-- What is left of a payload after a varint; `none` when there is none. -/
def afterUvarint (pl : List UInt8) : Option (List UInt8) :=
  if (uvarint pl).2 ≤ 0 then none else some (pl.drop (uvarint pl).2.toNat)

/-- What is left of a payload after a length-prefixed field; `none` when the
decoder rejects the length. -/
def afterField (pl : List UInt8) : Option (List UInt8) :=
  if (uvarint pl).2 ≤ 0 ∨ pl.length < (uvarint pl).1.toNat then none
  else some (pl.drop ((uvarint pl).2.toNat + (uvarint pl).1.toNat))

/-- The length prefix at the front of `pl` is malformed, or declares more
bytes than `pl` has in all, or no more than follow the prefix.  What is left
out is a length between the last two. -/
def FieldFits (pl : List UInt8) : Prop :=
  (uvarint pl).2 ≤ 0 ∨ pl.length < (uvarint pl).1.toNat ∨
    (uvarint pl).2.toNat + (uvarint pl).1.toNat ≤ pl.length

instance (pl : List UInt8) : Decidable (FieldFits pl) := by
  unfold FieldFits; infer_instance

/-- Both length prefixes of a `StreamInfo` payload fit, as far as the decoder
gets to see them. -/
def LengthsFit (pl : List UInt8) : Prop :=
  ∀ fields, ((afterUvarint pl).bind afterUvarint).bind afterUvarint = some fields →
    FieldFits fields ∧ ∀ rest, afterField fields = some rest → FieldFits rest

/-- The message is not empty and, if it is a `StreamInfo`, its lengths fit. -/
def HandshakeFits (data : List UInt8) : Prop :=
  match data with
  | [] => False
  | c :: pl => c = streamInfo → LengthsFit pl

/-- The part of `setConnectInfo` that reads the session ID. -/
def setSessionID (pl : Slice) (s : Stream) : Except Panic (Stream × Option String) := do
  let (v, n) := uvarint pl.bytes
  if n ≤ 0 ∨ v.toNat > pl.len then return (s, some errMalformedConnect)
  let pl ← pl.sliceFrom n.toNat
  let sessionID ← pl.sliceTo v.toNat
  return ({ s with sessionID := sessionID.bytes }, none)

/-- The part of `setConnectInfo` that reads both length-prefixed fields. -/
def setIDs (pl : Slice) (s : Stream) : Except Panic (Stream × Option String) := do
  let (v, n) := uvarint pl.bytes
  if n ≤ 0 ∨ v.toNat > pl.len then return (s, some errMalformedConnect)
  let pl ← pl.sliceFrom n.toNat
  let id ← pl.sliceTo v.toNat
  let pl ← pl.sliceFrom v.toNat
  setSessionID pl { s with id := id.bytes }

/-- The bytes of a length-prefixed field that fits. -/
def fieldBytes (pl : List UInt8) : List UInt8 :=
  (pl.drop (uvarint pl).2.toNat).take (uvarint pl).1.toNat

theorem payload_ofData_cons (c : UInt8) (pl spare : List UInt8) :
    payload (ofData (c :: pl) spare) = .ok (ofData pl spare) := by
  simp [payload, sliceFrom_ofData]

variable {pl rest : List UInt8}

theorem afterUvarint_eq_some :
    afterUvarint pl = some rest ↔
      ¬ (uvarint pl).2 ≤ 0 ∧ pl.drop (uvarint pl).2.toNat = rest := by
  unfold afterUvarint
  split <;> simp_all

theorem afterField_eq_some :
    afterField pl = some rest ↔
      ¬ ((uvarint pl).2 ≤ 0 ∨ pl.length < (uvarint pl).1.toNat) ∧
        pl.drop ((uvarint pl).2.toNat + (uvarint pl).1.toNat) = rest := by
  unfold afterField
  split <;> simp_all

theorem afterField_eq_none :
    afterField pl = none ↔ (uvarint pl).2 ≤ 0 ∨ pl.length < (uvarint pl).1.toNat := by
  unfold afterField
  split <;> simp_all

theorem afterUvarint_isInfix (h : afterUvarint pl = some rest) : rest <:+: pl := by
  obtain ⟨_, rfl⟩ := afterUvarint_eq_some.mp h
  exact (drop_suffix _ _).isInfix

theorem afterField_isInfix (h : afterField pl = some rest) : rest <:+: pl := by
  obtain ⟨_, rfl⟩ := afterField_eq_some.mp h
  exact (drop_suffix _ _).isInfix

theorem fieldBytes_isInfix (pl : List UInt8) : fieldBytes pl <:+: pl :=
  ( take_prefix _ _).isInfix.trans (drop_suffix _ _).isInfix

/-- Stripping a varint stays within the received bytes. -/
theorem sliceFrom_uvarint (pl spare : List UInt8) :
    (ofData pl spare).sliceFrom (uvarint pl).2.toNat =
      .ok (ofData (pl.drop (uvarint pl).2.toNat) spare) := by
  apply sliceFrom_ofData
  have := uvarint_count_le pl
  omega

/-- A payload without three varints is rejected. -/
theorem setConnectInfo_malformed (c : UInt8) (spare : List UInt8) (s : Stream)
    (h : ((afterUvarint pl).bind afterUvarint).bind afterUvarint = none) :
    ∃ s', setConnectInfo (ofData (c :: pl) spare) s =
      .ok (s', some errMalformedConnect) := by
  unfold setConnectInfo
  simp only [payload_ofData_cons, ofData_bytes, ok_bind]
  by_cases h1 : (uvarint pl).2 ≤ 0
  · exact ⟨s, by simp [h1, pure, Except.pure]⟩
  have e1 : afterUvarint pl = some (pl.drop (uvarint pl).2.toNat) := by
    simp [afterUvarint, h1]
  simp only [if_neg h1, sliceFrom_uvarint, ok_bind, ofData_bytes]
  simp only [e1, Option.bind_some] at h
  generalize pl.drop (uvarint pl).2.toNat = pl₁ at h ⊢
  by_cases h2 : (uvarint pl₁).2 ≤ 0
  · exact ⟨_, by rw [if_pos h2]; rfl⟩
  have e2 : afterUvarint pl₁ = some (pl₁.drop (uvarint pl₁).2.toNat) := by
    simp [afterUvarint, h2]
  simp only [e2, Option.bind_some] at h
  have h3 : (uvarint (pl₁.drop (uvarint pl₁).2.toNat)).2 ≤ 0 := by
    by_contra hpos
    simp [afterUvarint, hpos] at h
  exact ⟨_, by rw [if_neg h2, if_pos h3]; rfl⟩

/-- With three varints in front, the decoder sets three fields from them and
goes on to the length-prefixed fields. -/
theorem setConnectInfo_header {pl₁ pl₂ pl₃ : List UInt8} (c : UInt8) (spare : List UInt8)
    (s : Stream) (h1 : afterUvarint pl = some pl₁) (h2 : afterUvarint pl₁ = some pl₂)
    (h3 : afterUvarint pl₂ = some pl₃) :
    setConnectInfo (ofData (c :: pl) spare) s =
      setIDs (ofData pl₃ spare)
        { s with
          peerVersion := (uvarint pl).1.toUInt16
          roundtripLatency := (uvarint pl₁).1.toInt64
          dialTimeout := (uvarint pl₂).1.toInt64 } := by
  obtain ⟨n1, e1⟩ := afterUvarint_eq_some.mp h1
  obtain ⟨n2, e2⟩ := afterUvarint_eq_some.mp h2
  obtain ⟨n3, e3⟩ := afterUvarint_eq_some.mp h3
  unfold setConnectInfo setIDs setSessionID
  simp only [payload_ofData_cons, ofData_bytes, ok_bind, if_neg n1, if_neg n2,
    if_neg n3, sliceFrom_uvarint, e1, e2, e3]

/-- A field that fits is cut out of the received bytes, and so is the rest. -/
theorem cut_field (spare : List UInt8) (hfit : FieldFits pl) (h : afterField pl = some rest) :
    (ofData (pl.drop (uvarint pl).2.toNat) spare).sliceFrom (uvarint pl).1.toNat =
        .ok (ofData rest spare) ∧
      ∃ r, (ofData (pl.drop (uvarint pl).2.toNat) spare).sliceTo (uvarint pl).1.toNat =
        .ok r ∧ r.bytes = fieldBytes pl := by
  obtain ⟨hacc, hrest⟩ := afterField_eq_some.mp h
  have hlen : (uvarint pl).1.toNat ≤ (pl.drop (uvarint pl).2.toNat).length := by
    unfold FieldFits at hfit
    simp only [length_drop]
    omega
  refine ⟨?_, sliceTo_ofData hlen spare⟩
  rw [sliceFrom_ofData hlen, drop_drop, hrest]

/-- A field that does not fit passes the check, and in a buffer without spare
memory the slice expression that follows is out of bounds. -/
theorem cut_field_panics (h : ¬ FieldFits pl) :
    ¬ ((uvarint pl).2 ≤ 0 ∨ pl.length < (uvarint pl).1.toNat) ∧
      (ofData (pl.drop (uvarint pl).2.toNat) []).sliceTo (uvarint pl).1.toNat =
        .error .sliceBoundsOutOfRange := by
  unfold FieldFits at h
  have hcount := uvarint_count_le pl
  refine ⟨by omega, ?_⟩
  apply sliceTo_ofData_panics
  simp only [length_drop]
  omega

/-- A rejected length of the session ID is an error. -/
theorem setSessionID_rejects (spare : List UInt8) (s : Stream) (h : afterField pl = none) :
    setSessionID (ofData pl spare) s = .ok (s, some errMalformedConnect) := by
  unfold setSessionID
  simp only [ofData_bytes, ofData_len]
  rw [if_pos (afterField_eq_none.mp h)]
  rfl

theorem setSessionID_fits (spare : List UInt8) (s : Stream) (hfit : FieldFits pl)
    (h : afterField pl = some rest) :
    setSessionID (ofData pl spare) s =
      .ok ({ s with sessionID := fieldBytes pl }, none) := by
  obtain ⟨hacc, _⟩ := afterField_eq_some.mp h
  obtain ⟨_, r, hr, hbytes⟩ := cut_field spare hfit h
  unfold setSessionID
  simp only [ofData_bytes, ofData_len]
  rw [if_neg hacc, sliceFrom_uvarint, ok_bind, hr, ok_bind, hbytes]
  rfl

theorem setSessionID_panics (s : Stream) (h : ¬ FieldFits pl) :
    setSessionID (ofData pl []) s = .error .sliceBoundsOutOfRange := by
  obtain ⟨hacc, hcut⟩ := cut_field_panics h
  unfold setSessionID
  simp only [ofData_bytes, ofData_len]
  rw [if_neg hacc, sliceFrom_uvarint, ok_bind, hcut, error_bind]

/-- A rejected length of the connection ID is an error. -/
theorem setIDs_rejects (spare : List UInt8) (s : Stream) (h : afterField pl = none) :
    setIDs (ofData pl spare) s = .ok (s, some errMalformedConnect) := by
  unfold setIDs
  simp only [ofData_bytes, ofData_len]
  rw [if_pos (afterField_eq_none.mp h)]
  rfl

theorem setIDs_fits (spare : List UInt8) (s : Stream) (hfit : FieldFits pl)
    (h : afterField pl = some rest) :
    setIDs (ofData pl spare) s =
      setSessionID (ofData rest spare) { s with id := fieldBytes pl } := by
  obtain ⟨hacc, _⟩ := afterField_eq_some.mp h
  obtain ⟨hrest, r, hr, hbytes⟩ := cut_field spare hfit h
  unfold setIDs
  simp only [ofData_bytes, ofData_len]
  rw [if_neg hacc, sliceFrom_uvarint, ok_bind, hr, ok_bind, hrest, ok_bind, hbytes]

theorem setIDs_panics (s : Stream) (h : ¬ FieldFits pl) :
    setIDs (ofData pl []) s = .error .sliceBoundsOutOfRange := by
  obtain ⟨hacc, hcut⟩ := cut_field_panics h
  unfold setIDs
  simp only [ofData_bytes, ofData_len]
  rw [if_neg hacc, sliceFrom_uvarint, ok_bind, hcut, error_bind]

/-- Both fields are cut out of the received bytes when they fit. -/
theorem setIDs_safe (spare : List UInt8) (s : Stream) (hfit : FieldFits pl)
    (hrest : ∀ rest, afterField pl = some rest → FieldFits rest) :
    ∃ s' err, setIDs (ofData pl spare) s = .ok (s', err) ∧
      (err = none → s'.id <:+: pl ∧ s'.sessionID <:+: pl) := by
  cases h : afterField pl with
  | none => exact ⟨s, _, setIDs_rejects spare s h, by simp⟩
  | some rest =>
    rw [setIDs_fits spare s hfit h]
    cases h' : afterField rest with
    | none => exact ⟨_, _, setSessionID_rejects spare _ h', by simp⟩
    | some rest' =>
      refine ⟨_, _, setSessionID_fits spare _ (hrest rest h) h', ?_⟩
      intro _
      exact ⟨fieldBytes_isInfix pl, (fieldBytes_isInfix rest).trans (afterField_isInfix h)⟩

/-- When a field does not fit, a buffer without spare memory makes the decoder
panic. -/
theorem setIDs_overruns (s : Stream)
    (h : ¬ (FieldFits pl ∧ ∀ rest, afterField pl = some rest → FieldFits rest)) :
    setIDs (ofData pl []) s = .error .sliceBoundsOutOfRange := by
  by_cases hfit : FieldFits pl
  · have hrest : ¬ ∀ rest, afterField pl = some rest → FieldFits rest := by
      intro hall
      exact h ⟨hfit, hall⟩
    push Not at hrest
    obtain ⟨rest, hafter, hbad⟩ := hrest
    rw [setIDs_fits [] s hfit hafter, setSessionID_panics _ hbad]
  · exact setIDs_panics s hfit

/-- The three varints in front of the fields, one by one. -/
theorem header_eq_some {fields : List UInt8}
    (h : ((afterUvarint pl).bind afterUvarint).bind afterUvarint = some fields) :
    ∃ pl₁ pl₂, afterUvarint pl = some pl₁ ∧ afterUvarint pl₁ = some pl₂ ∧
      afterUvarint pl₂ = some fields := by
  obtain ⟨pl₂, h12, h3⟩ := Option.bind_eq_some_iff.mp h
  obtain ⟨pl₁, h1, h2⟩ := Option.bind_eq_some_iff.mp h12
  exact ⟨pl₁, pl₂, h1, h2, h3⟩

theorem setConnectInfo_safe (c : UInt8) (spare : List UInt8) (s : Stream) (hfit : LengthsFit pl) :
    ∃ s' err, setConnectInfo (ofData (c :: pl) spare) s = .ok (s', err) ∧
      (err = none → s'.id <:+: pl ∧ s'.sessionID <:+: pl) := by
  cases h : ((afterUvarint pl).bind afterUvarint).bind afterUvarint with
  | none =>
    obtain ⟨s', hs'⟩ := setConnectInfo_malformed c spare s h
    exact ⟨s', _, hs', by simp⟩
  | some fields =>
    obtain ⟨pl₁, pl₂, h1, h2, h3⟩ := header_eq_some h
    obtain ⟨hfirst, hsecond⟩ := hfit fields h
    have hin : fields <:+: pl :=
      (afterUvarint_isInfix h3).trans ((afterUvarint_isInfix h2).trans (afterUvarint_isInfix h1))
    rw [setConnectInfo_header c spare s h1 h2 h3]
    obtain ⟨s', err, hs', hids⟩ := setIDs_safe spare _ hfirst hsecond
    refine ⟨s', err, hs', ?_⟩
    intro herr
    exact ⟨(hids herr).1.trans hin, (hids herr).2.trans hin⟩

theorem setConnectInfo_overruns (c : UInt8) (s : Stream) (h : ¬ LengthsFit pl) :
    setConnectInfo (ofData (c :: pl) []) s = .error .sliceBoundsOutOfRange := by
  unfold LengthsFit at h
  push Not at h
  obtain ⟨fields, hheader, hbad⟩ := h
  obtain ⟨pl₁, pl₂, h1, h2, h3⟩ := header_eq_some hheader
  rw [setConnectInfo_header c [] s h1 h2 h3]
  apply setIDs_overruns
  push Not
  exact hbad

/-- What the handshake must guarantee for a received message, whatever buffer
it arrives in and however the peer answers: it ends with a stream or an error,
and the identifiers of the stream are cut out of the received bytes. -/
def HandshakeSafe (data : List UInt8) : Prop :=
  ∀ tag spare send, ∃ r, newServerStream tag (.ok (ofData data spare)) send = .ok r ∧
    ∀ s, r = .ok s → s.id <:+: data ∧ s.sessionID <:+: data

theorem newServerStream_empty (tag : String) (spare : List UInt8)
    (send : List UInt8 → Option String) :
    newServerStream tag (.ok (ofData [] spare)) send = .error .indexOutOfRange := by
  simp [newServerStream, receive, code, error_bind]

/-- A message with another code is answered with an error. -/
theorem newServerStream_other {c : UInt8} (tag : String) (pl spare : List UInt8)
    (send : List UInt8 → Option String) (hc : c ≠ streamInfo) :
    ∃ err, newServerStream tag (.ok (ofData (c :: pl) spare)) send = .ok (.error err) := by
  by_cases hclose : c = closeSend
  · refine ⟨"failed to read initial StreamInfo message: " ++ errClosed, ?_⟩
    simp [newServerStream, receive, code, hclose, pure, Except.pure, ok_bind]
  · refine ⟨"initial message was not StreamInfo", ?_⟩
    simp [newServerStream, receive, code, hclose, hc, pure, Except.pure, ok_bind]

/-- A `StreamInfo` is handed to the decoder; what the decoder makes of it
decides the outcome. -/
theorem newServerStream_streamInfo (tag : String) (pl spare : List UInt8)
    (send : List UInt8 → Option String) :
    newServerStream tag (.ok (ofData (streamInfo :: pl) spare)) send =
      (setConnectInfo (ofData (streamInfo :: pl) spare) { tag := tag } >>= fun r =>
        match r with
        | (_, some err) => .ok (.error ("failed to parse StreamInfo message: " ++ err))
        | (s, none) =>
          match send [streamOK, 2] with
          | some err => .ok (.error err)
          | none => .ok (.ok s)) := by
  have hclose : streamInfo ≠ closeSend := by decide
  have hok : streamOKMessage = .ok [streamOK, 2] := by decide
  simp only [newServerStream, receive, code, hok, pure, Except.pure, ok_bind,
    index_ofData_cons, if_neg hclose]
  rfl

/-- A handshake whose lengths fit is safe. -/
theorem handshakeSafe_of_fits {data : List UInt8} (h : HandshakeFits data) :
    HandshakeSafe data := by
  intro tag spare send
  cases data with
  | nil => exact h.elim
  | cons c pl =>
    by_cases hc : c = streamInfo
    · subst hc
      obtain ⟨s, err, hset, hids⟩ := setConnectInfo_safe streamInfo spare { tag } (h rfl)
      rw [newServerStream_streamInfo, hset, ok_bind]
      cases err with
      | some err => exact ⟨_, rfl, by simp⟩
      | none =>
        obtain ⟨hid, hsess⟩ := hids rfl
        have hpl : pl <:+: streamInfo :: pl := (suffix_cons _ _).isInfix
        cases send [streamOK, 2] with
        | some err => exact ⟨_, rfl, by simp⟩
        | none =>
          refine ⟨_, rfl, ?_⟩
          intro s' hs'
          cases hs'
          exact ⟨hid.trans hpl, hsess.trans hpl⟩
    · obtain ⟨err, herr⟩ := newServerStream_other tag pl spare send hc
      exact ⟨_, herr, by simp⟩

/-- **When the handshake is safe.** Decoding the first message of a stream
ends with a stream or an error, and reads nothing but the received bytes,
exactly when the message is not empty and every length in it that the decoder
accepts is covered by the bytes that follow its varint. -/
theorem newServerStream_safe_iff (data : List UInt8) :
    HandshakeSafe data ↔ HandshakeFits data := by
  refine ⟨?_, handshakeSafe_of_fits⟩
  intro h
  -- a buffer without spare memory shows every overrun
  obtain ⟨r, hr, _⟩ := h "" [] (fun _ => none)
  cases data with
  | nil => simp [newServerStream_empty] at hr
  | cons c pl =>
    intro hc
    subst hc
    by_contra hbad
    rw [newServerStream_streamInfo, setConnectInfo_overruns _ _ hbad] at hr
    simp [error_bind] at hr

/-- An empty first message makes the server panic, and so does a message that
ends right after the length of its connection ID. -/
theorem newServerStream_overruns : ¬ HandshakeSafe [] ∧ ¬ HandshakeSafe [1, 2, 0, 0, 1] := by
  apply And.intro
  · intro h
    obtain ⟨r, hr, _⟩ := h "SRV" [] (fun _ => none)
    have hpanic : newServerStream "SRV" (.ok (ofData [] [])) (fun _ => none) =
        .error .indexOutOfRange := by rfl
    rw [hpanic] at hr
    cases hr
  · intro h
    obtain ⟨r, hr, _⟩ := h "SRV" [] (fun _ => none)
    have hpanic : newServerStream "SRV" (.ok (ofData [1, 2, 0, 0, 1] [])) (fun _ => none) =
        .error .sliceBoundsOutOfRange := by rfl
    rw [hpanic] at hr
    cases hr

end Telepresence.Tunnel
