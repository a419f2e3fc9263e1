import Telepresence.CacheThreads

/-!
# Replication through the cache

A subscriber whose mark is cleared by a notification that does not have the
write it was marked for in its delta loses the update: a write marks before it
stores, and one notification can take the next snapshot while another one has
still to send.

* `replicas_agree`: if, whenever a notification clears a mark, no write is
  between locking and storing and the contents are those of the snapshot it
  sends, and no notification takes a snapshot while another one has still to
  send, then in every quiescent state all replicas agree with the contents.
-/

namespace Telepresence.Replication

open Cache Threads Runs List

variable {K V : Type} [DecidableEq K]

/-- No operation in progress, no armed timer, all channels drained. -/
def Quiescent (p : World K V) : Prop :=
  p.Idle ∧ p.shared.armed = false ∧ ∀ sb ∈ p.shared.subscribers, sb.channel = none

/-- In a quiescent state every replica agrees with the contents. -/
def ReplicasAgree (E : Equality V) (p : World K V) : Prop :=
  Quiescent p → ∀ sb ∈ p.shared.subscribers,
    Patch.Same E.Rel sb.replica.lookup p.shared.contents.lookup

/-! ## What the frames are about to do -/

namespace Frame

/-- The delta that a notification sends. -/
def delta : Frame K V → Option (AllDelta K V)
  | .loop ad _ _ | .sending ad _ _ => some ad
  | _ => none

/-- A notification has cleared the mark of the subscriber and is going to
send. -/
def Sends : Frame K V → Nat → Prop
  | .sending _ j _, i => j = i
  | _, _ => False

/-- A write is between locking its bucket and storing the value. -/
def Critical : Frame K V → Prop
  | .marking _ _ _ _ | .store _ _ => True
  | _ => False

/-- The write has still to mark the subscriber. -/
def WillMark : Frame K V → Nat → Prop
  | .marking _ _ _ it, i => it.Awaits i
  | _, _ => False

/-- If the subscriber is marked now, the thread is going to look at it or to
arm the timer. -/
def Attends : Frame K V → Nat → Prop
  | .marking _ _ _ _, _ | .store _ _, _ | .rearm, _ | .register, _ | .notify, _ => True
  | .loop _ it _, i | .sending _ _ it, i => it.Awaits i
  | _, _ => False

end Frame

/-- When a notification clears a mark, no write is between locking and
storing, and the snapshot it sends, the shared one and the contents agree;
when a notification takes a snapshot, no other one is about to send, and no
subscriber is marked if another one is in its loop. -/
def Allowed (E : Equality V) (sh : Shared K V) (F : Frame K V → Prop) :
    Frame K V → Choice → Prop
  | .loop ad _ _, .visit i =>
      ∀ sb, sh.subscribers[i]? = some sb → sb.mark = true →
        (∀ g, F g → ¬ g.Critical) ∧
        Patch.Same E.Rel ad.snapshot.lookup sh.snapshot.lookup ∧
        Patch.Same E.Rel sh.snapshot.lookup sh.contents.lookup
  | .notify, .next =>
      (∀ g i, F g → ¬ g.Sends i) ∧
        ((∃ g, F g ∧ g.delta.isSome = true) → ∀ sb ∈ sh.subscribers, sb.mark = false)
  | _, _ => True

/-! ## Invariant -/

/-- Why what an initialized subscriber is going to see agrees with the
snapshot, or will: it does, or a notification is about to send it a delta that
makes it so, or it is marked and every notification under way has such a delta
and one of them has still to visit it. -/
def Viewed (E : Equality V) (snapshot : GoMap K V) (F : Frame K V → Prop) (i : Nat)
    (sb : Subscription K V) : Prop :=
  Patch.Same E.Rel sb.view snapshot.lookup ∨
  (∃ g ad, F g ∧ g.delta = some ad ∧ g.Sends i ∧
    Patch.Covers E.Rel (ad.patch none) sb.view snapshot.lookup) ∨
  sb.mark = true ∧ (∃ g, F g ∧ g.delta.isSome = true ∧ g.Attends i) ∧
    ∀ g ad, F g → g.delta = some ad →
      Patch.Covers E.Rel (ad.patch none) sb.view snapshot.lookup

/-- What holds for a subscriber between the steps. -/
structure SubOk (E : Equality V) (sh : Shared K V) (F : Frame K V → Prop) (i : Nat)
    (sb : Subscription K V) : Prop where
  unfiltered : sb.include_ = none
  /-- A write in its critical section has marked it or is going to. -/
  critical : ∀ g, F g → g.Critical → sb.mark = true ∨ g.WillMark i
  /-- Without a mark, nothing has been stored since the last snapshot. -/
  unmarked : sb.mark = false → Patch.Same E.Rel sh.snapshot.lookup sh.contents.lookup
  /-- A mark is going to be looked at. -/
  attended : sb.mark = true → sh.armed = true ∨ ∃ g, F g ∧ g.Attends i
  /-- Before the first snapshot is sent, there is nothing. -/
  fresh : sb.initialized = false →
    sb.channel = none ∧ sb.replica = ∅ ∧ (sb.mark = true ∨ ∃ g, F g ∧ g.Sends i)
  viewed : sb.initialized = true → Viewed E sh.snapshot F i sb

/-- What holds between the steps. -/
structure Inv (E : Equality V) (sh : Shared K V) (F : Frame K V → Prop) : Prop where
  /-- A delta is the difference between two maps. -/
  deltas : ∀ g ad, F g → g.delta = some ad →
    ∃ previous current, ad = makeDelta E previous current
  /-- What is about to be sent leads to the snapshot. -/
  current : ∀ g ad i, F g → g.delta = some ad → g.Sends i →
    Patch.Same E.Rel ad.snapshot.lookup sh.snapshot.lookup
  subs : ∀ i sb, sh.subscribers[i]? = some sb → SubOk E sh F i sb

variable {E : Equality V}

/-- A delta leads to its own snapshot. -/
theorem leadsTo_snapshot {ad : AllDelta K V}
    (h : ∃ previous current, ad = makeDelta E previous current) :
    Patch.LeadsTo E.Rel (ad.patch none) ad.snapshot.lookup := by
  obtain ⟨previous, current, rfl⟩ := h
  exact makeDelta_leadsTo E previous current none

/-! ## Steps

A step replaces the frame `f` by the frames `fs`; the frames `others` stay. -/

section Steps

variable {E : Equality V} {sh sh' : Shared K V} {f : Frame K V} {fs others : List (Frame K V)}

variable {i : Nat} {sb : Subscription K V}

/-- How a subscriber is seen, for a step that changes neither what it is going
to see nor the snapshot. -/
theorem Viewed.replace {snapshot : GoMap K V} {sb' : Subscription K V}
    (h : Viewed E snapshot (· ∈ f :: others) i sb) (hview : sb'.view = sb.view)
    (hmark : sb.mark = true → sb'.mark = true)
    (hdelta : ∀ g ∈ fs, g.delta = none ∨ g.delta = f.delta) (hsends : ¬ f.Sends i)
    (hloop : sb.mark = true → f.delta.isSome = true → f.Attends i →
      ∃ g ∈ fs, g.delta.isSome = true ∧ g.Attends i) :
    Viewed E snapshot (· ∈ fs ++ others) i sb' := by
  rw [Viewed, hview]
  rcases h with hv | ⟨g, ad, hg, had, hs, hcov⟩ | ⟨hm, ⟨g, hg, hd, ha⟩, hall⟩
  · exact .inl hv
  · rcases mem_cons.mp hg with rfl | hg
    · exact absurd hs hsends
    · exact .inr (.inl ⟨g, ad, mem_append_right _ hg, had, hs, hcov⟩)
  · refine .inr (.inr ⟨hmark hm, ?_, ?_⟩)
    · rcases mem_cons.mp hg with rfl | hg
      · obtain ⟨g', hg', hd', ha'⟩ := hloop hm hd ha
        exact ⟨g', mem_append_left _ hg', hd', ha'⟩
      · exact ⟨g, mem_append_right _ hg, hd, ha⟩
    · intro g' ad hg' had
      rcases mem_append.mp hg' with hg' | hg'
      · rcases hdelta g' hg' with hnone | hsame
        · rw [hnone] at had
          cases had
        · exact hall f ad mem_cons_self (hsame ▸ had)
      · exact hall g' ad (mem_cons_of_mem f hg') had

/-- A subscriber that a step leaves as it is. -/
theorem SubOk.replace (h : SubOk E sh (· ∈ f :: others) i sb) (hsnap : sh'.snapshot = sh.snapshot)
    (hcont : sb.mark = true ∨ sh'.contents = sh.contents)
    (hdelta : ∀ g ∈ fs, g.delta = none ∨ g.delta = f.delta) (hsends : ¬ f.Sends i)
    (hcrit : ∀ g ∈ fs, g.Critical → sb.mark = true ∨ g.WillMark i)
    (hatt : sb.mark = true → sh.armed = true ∨ f.Attends i →
      sh'.armed = true ∨ ∃ g ∈ fs, g.Attends i)
    (hloop : sb.mark = true → f.delta.isSome = true → f.Attends i →
      ∃ g ∈ fs, g.delta.isSome = true ∧ g.Attends i) :
    SubOk E sh' (· ∈ fs ++ others) i sb where
  unfiltered := h.unfiltered
  critical := by
    intro g hg hc
    rcases mem_append.mp hg with hg | hg
    · exact hcrit g hg hc
    · exact h.critical g (mem_cons_of_mem f hg) hc
  unmarked := by
    intro hm
    rcases hcont with hmark | hcont
    · rw [hm] at hmark
      cases hmark
    · rw [hsnap, hcont]
      exact h.unmarked hm
  attended := by
    intro hm
    have hnew : sh.armed = true ∨ f.Attends i → sh'.armed = true ∨
        ∃ g, g ∈ fs ++ others ∧ g.Attends i := by
      intro ha
      rcases hatt hm ha with ha | ⟨g, hg, ha⟩
      · exact .inl ha
      · exact .inr ⟨g, mem_append_left _ hg, ha⟩
    rcases h.attended hm with ha | ⟨g, hg, ha⟩
    · exact hnew (.inl ha)
    · rcases mem_cons.mp hg with rfl | hg
      · exact hnew (.inr ha)
      · exact .inr ⟨g, mem_append_right _ hg, ha⟩
  fresh := by
    intro hinit
    obtain ⟨hch, hrep, hor⟩ := h.fresh hinit
    refine ⟨hch, hrep, ?_⟩
    rcases hor with hm | ⟨g, hg, hs⟩
    · exact .inl hm
    · rcases mem_cons.mp hg with rfl | hg
      · exact absurd hs hsends
      · exact .inr ⟨g, mem_append_right _ hg, hs⟩
  viewed := by
    intro hinit
    rw [hsnap]
    exact (h.viewed hinit).replace rfl id hdelta hsends hloop

/-- The same for a frame that goes on as another one with its delta. -/
theorem SubOk.next {g : Frame K V} (h : SubOk E sh (· ∈ f :: others) i sb)
    (hsnap : sh'.snapshot = sh.snapshot) (harmed : sh'.armed = sh.armed)
    (hcont : sb.mark = true ∨ sh'.contents = sh.contents) (hdelta : g.delta = f.delta)
    (hsends : ¬ f.Sends i) (hcrit : g.Critical → sb.mark = true ∨ g.WillMark i)
    (hatt : sb.mark = true → f.Attends i → g.Attends i) :
    SubOk E sh' (· ∈ [g] ++ others) i sb := by
  refine h.replace hsnap hcont (forall_mem_singleton.mpr (.inr hdelta)) hsends
    (forall_mem_singleton.mpr hcrit) ?_ ?_
  · intro hm ha
    rw [harmed]
    exact ha.imp_right fun ha => ⟨g, mem_singleton.mpr rfl, hatt hm ha⟩
  · exact fun hm hd ha => ⟨g, mem_singleton.mpr rfl, hdelta ▸ hd, hatt hm ha⟩

/-- The clauses about the deltas, for a step that computes none. -/
theorem Inv.replace (h : Inv E sh (· ∈ f :: others))
    (hsnap : sh'.snapshot = sh.snapshot)
    (hdelta : ∀ g ∈ fs, g.delta = none ∨ g.delta = f.delta)
    (hcur : ∀ g ∈ fs, ∀ ad i, g.delta = some ad → g.Sends i →
      Patch.Same E.Rel ad.snapshot.lookup sh.snapshot.lookup)
    (hsubs : ∀ i sb, sh'.subscribers[i]? = some sb → SubOk E sh' (· ∈ fs ++ others) i sb) :
    Inv E sh' (· ∈ fs ++ others) where
  deltas := by
    intro g ad hg had
    rcases mem_append.mp hg with hg | hg
    · rcases hdelta g hg with hnone | hsame
      · rw [hnone] at had
        cases had
      · exact h.deltas f ad mem_cons_self (hsame ▸ had)
    · exact h.deltas g ad (mem_cons_of_mem f hg) had
  current := by
    intro g ad i hg had hs
    rw [hsnap]
    rcases mem_append.mp hg with hg | hg
    · exact hcur g hg ad i had hs
    · exact h.current g ad i (mem_cons_of_mem f hg) had hs
  subs := hsubs

/-- The same for a step that leaves no delta behind. -/
theorem Inv.replace_quiet (h : Inv E sh (· ∈ f :: others))
    (hsnap : sh'.snapshot = sh.snapshot) (hdelta : ∀ g ∈ fs, g.delta = none)
    (hsubs : ∀ i sb, sh'.subscribers[i]? = some sb → SubOk E sh' (· ∈ fs ++ others) i sb) :
    Inv E sh' (· ∈ fs ++ others) := by
  refine h.replace hsnap (fun g hg => .inl (hdelta g hg)) ?_ hsubs
  intro g hg ad i had
  rw [hdelta g hg] at had
  cases had

omit [DecidableEq K] in
theorem getElem?_setSubscriber {j : Nat} {sb' x : Subscription K V}
    (hi : sh.subscribers[i]? = some sb) :
    (sh.setSubscriber i sb').subscribers[j]? = some x ↔
      j = i ∧ x = sb' ∨ j ≠ i ∧ sh.subscribers[j]? = some x := by
  have hlt : i < sh.subscribers.length := (List.getElem?_eq_some_iff.mp hi).1
  simp only [Shared.setSubscriber, getElem?_set, hlt, if_true]
  by_cases hij : i = j
  · simp [hij, eq_comm]
  · have hji : ¬ j = i := fun h => hij h.symm
    simp [hij, hji]

omit [DecidableEq K] in
theorem awaits_iterate (hi : sh.subscribers[i]? = some sb) : sh.iterate.Awaits i :=
  Iteration.awaits_start (List.mem_range.mpr (List.getElem?_eq_some_iff.mp hi).1)

/-- A step of a frame without a delta that changes neither contents nor
snapshot nor subscribers. -/
theorem Inv.pass (h : Inv E sh (· ∈ f :: others))
    (hcont : sh'.contents = sh.contents) (hsnap : sh'.snapshot = sh.snapshot)
    (hsubs : sh'.subscribers = sh.subscribers)
    (hf : f.delta = none) (hfs : ∀ g ∈ fs, g.delta = none)
    (hcrit : ∀ g ∈ fs, g.Critical → ∀ i sb, sh.subscribers[i]? = some sb →
      sb.mark = true ∨ g.WillMark i)
    (hatt : ∀ i, sh.armed = true ∨ f.Attends i → sh'.armed = true ∨ ∃ g ∈ fs, g.Attends i) :
    Inv E sh' (· ∈ fs ++ others) := by
  have hsend : ∀ (g : Frame K V) i, g.delta = none → ¬ g.Sends i := by
    intro g i hg hs
    cases g <;> first | exact hs.elim | cases hg
  refine h.replace_quiet hsnap hfs ?_
  intro i sb hi
  rw [hsubs] at hi
  refine (h.subs i sb hi).replace hsnap (.inr hcont) (fun g hg => .inl (hfs g hg))
    (hsend f i hf) (fun g hg hc => hcrit g hg hc i sb hi) (fun _ => hatt i) ?_
  intro _ hd
  rw [hf] at hd
  cases hd

/-! ### Writes -/

variable {it it' : Iteration Nat}

/-- Marking one subscriber. -/
theorem Inv.mark {key : K} {w : Write V} {value : V}
    (h : Inv E sh (· ∈ Frame.marking key w value it :: others)) (hvisit : it.visit i = some it')
    (hi : sh.subscribers[i]? = some sb) :
    Inv E (sh.setSubscriber i (sb.markFor key value))
      (· ∈ [Frame.marking key w value it'] ++ others) := by
  have hok := h.subs i sb hi
  have hmarked : (sb.markFor key value).mark = true := by
    unfold Subscription.markFor
    cases hm : sb.mark <;> simp [hm, includes, hok.unfiltered]
  obtain ⟨hincl, hinit, _⟩ := markFor_fields sb key value
  refine h.replace_quiet rfl (forall_mem_singleton.mpr rfl) ?_
  intro j x hj
  rcases (getElem?_setSubscriber hi).mp hj with ⟨rfl, rfl⟩ | ⟨hne, hj⟩
  · refine ⟨hincl.trans hok.unfiltered, fun _ _ _ => .inl hmarked, ?_, ?_, ?_, ?_⟩
    · intro hm
      rw [hmarked] at hm
      cases hm
    · exact fun _ => .inr ⟨_, mem_cons_self, trivial⟩
    · intro hfresh
      rw [hinit] at hfresh
      obtain ⟨hch, hrep, _⟩ := hok.fresh hfresh
      refine ⟨?_, ?_, .inl hmarked⟩
      · unfold Subscription.markFor
        split <;> exact hch
      · unfold Subscription.markFor
        split <;> exact hrep
    · intro hin
      rw [hinit] at hin
      exact (hok.viewed hin).replace (view_markFor sb key value) (fun _ => hmarked)
        (forall_mem_singleton.mpr (.inl rfl)) id (fun _ hd => absurd hd Bool.false_ne_true)
  · refine (h.subs j x hj).next rfl rfl (.inr rfl) rfl id ?_ (fun _ _ => trivial)
    intro _
    rcases (h.subs j x hj).critical _ mem_cons_self trivial with hm | hw
    · exact .inl hm
    · exact .inr (hw.of_visit hvisit hne)

/-- All subscribers are marked when the value is stored. -/
theorem Inv.store {key : K} {w : Write V} {contents : GoMap K V} {locked : List K}
    (h : Inv E sh (· ∈ Frame.store key w :: others)) :
    Inv E { sh with contents := contents, locked := locked } (· ∈ [Frame.rearm] ++ others) := by
  refine h.replace_quiet rfl (forall_mem_singleton.mpr rfl) ?_
  intro i sb hi
  have hmark : sb.mark = true := by
    rcases (h.subs i sb hi).critical _ mem_cons_self trivial with hm | hw
    · exact hm
    · exact hw.elim
  exact (h.subs i sb hi).next rfl rfl (.inl hmark) rfl id False.elim fun _ _ => trivial

/-! ### Subscribing and reading -/

theorem Inv.register (h : Inv E sh (· ∈ Frame.register :: others)) :
    Inv E { sh with subscribers := sh.subscribers ++ [{ include_ := none, mark := true }] }
      (· ∈ [Frame.notify] ++ others) := by
  refine h.replace_quiet rfl (forall_mem_singleton.mpr rfl) ?_
  intro i sb hi
  rw [getElem?_append] at hi
  split at hi
  · exact (h.subs i sb hi).next rfl rfl (.inr rfl) rfl id False.elim fun _ _ => trivial
  · rw [getElem?_singleton] at hi
    split at hi
    · cases hi
      refine ⟨rfl, fun _ _ _ => .inl rfl, ?_, ?_, fun _ => ⟨rfl, rfl, .inl rfl⟩, ?_⟩
      · intro hm
        cases hm
      · exact fun _ => .inr ⟨_, mem_cons_self, trivial⟩
      · intro hinit
        cases hinit
    · cases hi

/-- What a subscriber is going to see does not change when it reads. -/
theorem Inv.read (h : Inv E sh (· ∈ Frame.read i :: others)) (hi : sh.subscribers[i]? = some sb) :
    Inv E (sh.setSubscriber i sb.read) (· ∈ [] ++ others) := by
  refine h.replace_quiet rfl (forall_mem_nil _) ?_
  intro j x hj
  have hkeep : ∀ {j : Nat} {y : Subscription K V}, sh.subscribers[j]? = some y →
      SubOk E (sh.setSubscriber i sb.read) (· ∈ [] ++ others) j y := by
    intro j y hy
    exact (h.subs j y hy).replace rfl (.inr rfl) (forall_mem_nil _) id (forall_mem_nil _)
      (fun _ ha => ha.imp_right False.elim) (fun _ hd => absurd hd Bool.false_ne_true)
  rcases (getElem?_setSubscriber hi).mp hj with ⟨rfl, rfl⟩ | ⟨_, hj⟩
  · have hok := hkeep hi
    obtain ⟨hincl, hinit, hmark⟩ := read_fields sb
    refine ⟨hincl.trans hok.unfiltered, ?_, ?_, ?_, ?_, ?_⟩
    · rw [hmark]
      exact hok.critical
    · rw [hmark]
      exact hok.unmarked
    · rw [hmark]
      exact hok.attended
    · rw [hmark, hinit]
      intro hfresh
      obtain ⟨hch, hrest⟩ := hok.fresh hfresh
      have hsame : sb.read = sb := by
        unfold Subscription.read
        rw [hch]
      rw [hsame]
      exact ⟨hch, hrest⟩
    · rw [hinit, Viewed, view_read, hmark]
      exact hok.viewed
  · exact hkeep hj

/-! ### Notifications -/

/-- A notification takes a snapshot: all marked subscribers are where the
previous snapshot was, and its delta covers the way from there. -/
theorem Inv.notify (h : Inv E sh (· ∈ Frame.notify :: others))
    (hcond : Allowed E sh (· ∈ Frame.notify :: others) .notify .next) :
    Inv E { sh with snapshot := sh.contents }
      (· ∈ [Frame.loop (makeDelta E sh.snapshot sh.contents) sh.iterate false] ++ others) := by
  obtain ⟨hsends, hlooping⟩ := hcond
  have hothers : ∀ g ∈ others, g ∈ Frame.notify :: others := fun g hg => mem_cons_of_mem _ hg
  refine ⟨?_, ?_, ?_⟩
  · intro g ad hg had
    rcases mem_cons.mp hg with rfl | hg
    · cases had
      exact ⟨_, _, rfl⟩
    · exact h.deltas g ad (hothers g hg) had
  · intro g ad i hg _ hs
    rcases mem_cons.mp hg with rfl | hg
    · exact hs.elim
    · exact absurd hs (hsends g i (hothers g hg))
  · intro i sb hi
    have hok := h.subs i sb hi
    refine ⟨hok.unfiltered, ?_, fun _ => Patch.Same.refl E.equivalence _, ?_, ?_, ?_⟩
    · refine forall_mem_cons.mpr ⟨False.elim, ?_⟩
      exact fun g hg => hok.critical g (hothers g hg)
    · exact fun _ => .inr ⟨_, mem_cons_self, awaits_iterate hi⟩
    · intro hfresh
      obtain ⟨hch, hrep, hor⟩ := hok.fresh hfresh
      rcases hor with hm | ⟨g, hg, hs⟩
      · exact ⟨hch, hrep, .inl hm⟩
      · exact absurd hs (hsends g i hg)
    · intro hinit
      -- the subscriber sees the previous snapshot
      have hview : Patch.Same E.Rel sb.view sh.snapshot.lookup := by
        rcases hok.viewed hinit with hv | ⟨g, _, hg, _, hs, _⟩ | ⟨hm, ⟨g, hg, hd, _⟩, _⟩
        · exact hv
        · exact absurd hs (hsends g i hg)
        · have hunmarked := hlooping ⟨g, hg, hd⟩ sb (mem_of_getElem? hi)
          rw [hm] at hunmarked
          cases hunmarked
      cases hm : sb.mark with
      | false => exact .inl (hview.trans E.equivalence (hok.unmarked hm))
      | true =>
        refine .inr (.inr ⟨hm, ⟨_, mem_cons_self, rfl, awaits_iterate hi⟩, ?_⟩)
        intro g ad hg had
        rcases mem_cons.mp hg with rfl | hg
        · cases had
          have hcov : Patch.Covers E.Rel ((makeDelta E sh.snapshot sh.contents).patch none)
              sh.snapshot.lookup sh.contents.lookup :=
            makeDelta_covers (respects_none E) (fun _ _ _ _ _ _ => rfl)
          exact hcov.congr_left E.equivalence hview
        · have hunmarked := hlooping ⟨g, hothers g hg, by rw [had]; rfl⟩ sb
            (mem_of_getElem? hi)
          rw [hm] at hunmarked
          cases hunmarked

variable {ad : AllDelta K V} {didSend : Bool}

section

variable (h : Inv E sh (· ∈ Frame.loop ad it didSend :: others))

include h

/-- A notification visits a subscriber that is not marked. -/
theorem Inv.skip
    (hvisit : it.visit i = some it') (hi : sh.subscribers[i]? = some sb) (hmark : sb.mark = false) :
    Inv E sh (· ∈ [Frame.loop ad it' didSend] ++ others) := by
  refine h.replace rfl (forall_mem_singleton.mpr (.inr rfl))
    (forall_mem_singleton.mpr fun _ _ _ => False.elim) ?_
  intro j x hj
  have hawaits : x.mark = true → it.Awaits j → it'.Awaits j := by
    intro hm ha
    refine ha.of_visit hvisit ?_
    intro hji
    rw [hji, hi] at hj
    cases hj
    rw [hm] at hmark
    cases hmark
  exact (h.subs j x hj).next rfl rfl (.inr rfl) rfl id False.elim hawaits

/-- A notification clears a mark. -/
theorem Inv.clear
    (hvisit : it.visit i = some it') (hi : sh.subscribers[i]? = some sb) (hmark : sb.mark = true)
    (hcond : Allowed E sh (· ∈ Frame.loop ad it didSend :: others) (.loop ad it didSend)
      (.visit i)) : Inv E (sh.setSubscriber i { sb with mark := false })
      (· ∈ [Frame.sending ad i it'] ++ others) := by
  obtain ⟨hcrit, hsnap, hcont⟩ := hcond sb hi hmark
  have hothers : ∀ g ∈ others, g ∈ Frame.loop ad it didSend :: others :=
    fun g hg => mem_cons_of_mem _ hg
  refine h.replace rfl (forall_mem_singleton.mpr (.inr rfl)) ?_ ?_
  · intro g hg ad' j had _
    rw [mem_singleton.mp hg] at had
    cases had
    exact hsnap
  · intro j x hj
    rcases (getElem?_setSubscriber hi).mp hj with ⟨rfl, rfl⟩ | ⟨hne, hj⟩
    · have hok := h.subs j sb hi
      refine ⟨hok.unfiltered, ?_, fun _ => hcont, ?_, ?_, ?_⟩
      · refine forall_mem_cons.mpr ⟨False.elim, ?_⟩
        exact fun g hg hc => absurd hc (hcrit g (hothers g hg))
      · intro hm
        cases hm
      · intro hfresh
        obtain ⟨hch, hrep, _⟩ := hok.fresh hfresh
        exact ⟨hch, hrep, .inr ⟨_, mem_cons_self, rfl⟩⟩
      · intro hinit
        rcases hok.viewed hinit with hv | ⟨g, ad', hg, had, hs, hcov⟩ | ⟨_, _, hall⟩
        · exact .inl hv
        · rcases mem_cons.mp hg with rfl | hg
          · exact hs.elim
          · exact .inr (.inl ⟨g, ad', mem_append_right _ hg, had, hs, hcov⟩)
        · exact .inr (.inl ⟨_, ad, mem_cons_self, rfl, rfl,
            hall _ ad mem_cons_self rfl⟩)
    · exact (h.subs j x hj).next rfl rfl (.inr rfl) rfl id False.elim
        fun _ ha => ha.of_visit hvisit hne

/-- A notification ends a pass. -/
theorem Inv.endPass
    (hdone : it.complete = true) (hfs : ∀ g ∈ fs, ∃ it', g = Frame.loop ad it' false) :
    Inv E sh (· ∈ fs ++ others) := by
  have hdelta : ∀ g ∈ fs, g.delta = none ∨ g.delta = (Frame.loop ad it didSend).delta := by
    intro g hg
    obtain ⟨it', rfl⟩ := hfs g hg
    exact .inr rfl
  refine h.replace rfl hdelta ?_ ?_
  · intro g hg ad' i _ hs
    obtain ⟨it', rfl⟩ := hfs g hg
    exact hs.elim
  · intro i sb hi
    have hnot : ¬ (Frame.loop ad it didSend).Attends i :=
      Iteration.not_awaits_of_complete hdone i
    refine (h.subs i sb hi).replace rfl (.inr rfl) hdelta id ?_ ?_ ?_
    · intro g hg hc
      obtain ⟨it', rfl⟩ := hfs g hg
      exact hc.elim
    · exact fun _ ha => .inl (ha.resolve_right hnot)
    · exact fun _ _ ha => absurd ha hnot

end

/-- A notification sends. -/
theorem Inv.send (h : Inv E sh (· ∈ Frame.sending ad i it :: others))
    (hi : sh.subscribers[i]? = some sb) :
    Inv E (sh.setSubscriber i (ad.send sb)) (· ∈ [Frame.loop ad it true] ++ others) := by
  have hself : Frame.sending ad i it ∈ Frame.sending ad i it :: others := mem_cons_self
  have hcur := h.current _ ad i hself rfl rfl
  have hlead : Patch.LeadsTo E.Rel (ad.patch none) sh.snapshot.lookup :=
    (leadsTo_snapshot (h.deltas _ ad hself rfl)).congr E.equivalence hcur
  refine h.replace rfl (forall_mem_singleton.mpr (.inr rfl))
    (forall_mem_singleton.mpr fun _ _ _ => False.elim) ?_
  intro j x hj
  rcases (getElem?_setSubscriber hi).mp hj with ⟨rfl, rfl⟩ | ⟨hne, hj⟩
  · have hok := h.subs j sb hi
    refine ⟨(send_include ad sb).trans hok.unfiltered, ?_, ?_, ?_, ?_, ?_⟩
    · rw [send_mark]
      refine forall_mem_cons.mpr ⟨False.elim, ?_⟩
      exact fun g hg => hok.critical g (mem_cons_of_mem _ hg)
    · rw [send_mark]
      exact hok.unmarked
    · rw [send_mark]
      intro hm
      rcases hok.attended hm with ha | ⟨g, hg, ha⟩
      · exact .inl ha
      · rcases mem_cons.mp hg with rfl | hg
        · exact .inr ⟨_, mem_cons_self, ha⟩
        · exact .inr ⟨g, mem_append_right _ hg, ha⟩
    · rw [send_initialized]
      intro hfresh
      cases hfresh
    · intro _
      obtain ⟨previous, current, rfl⟩ := h.deltas _ ad hself rfl
      cases hinit : sb.initialized with
      | false =>
        -- the first snapshot
        obtain ⟨hch, hrep, _⟩ := hok.fresh hinit
        rw [Viewed, view_send_first E previous current hinit hch hrep, hok.unfiltered]
        exact .inl hcur
      | true =>
        rw [Viewed, view_send E previous current hinit, hok.unfiltered]
        rcases hok.viewed hinit with hv | ⟨g, ad', hg, had, hs, hcov⟩ | ⟨_, _, hall⟩
        · exact .inl (Patch.act_same hlead hv.covers)
        · rcases mem_cons.mp hg with rfl | hg
          · cases had
            exact .inl (Patch.act_same hlead hcov)
          · exact .inr (.inl ⟨g, ad', mem_append_right _ hg, had, hs,
              Patch.act_covers hlead hcov⟩)
        · exact .inl (Patch.act_same hlead (hall _ _ hself rfl))
  · exact (h.subs j x hj).next rfl rfl (.inr rfl) rfl (fun hs => hne hs.symm) False.elim
      fun _ ha => ha

end Steps

/-! ## Runs -/

/-- One step keeps the invariant if it is allowed. -/
theorem inv_exec [Inhabited V] {sh sh' : Shared K V} {f : Frame K V} {others fs : List (Frame K V)}
    {c : Choice} (h : Inv E sh (· ∈ f :: others)) (hcond : Allowed E sh (· ∈ f :: others) f c)
    (hexec : exec E sh f c = some (sh', fs)) : Inv E sh' (· ∈ fs ++ others) := by
  cases f <;> cases c <;> simp only [exec, reduceCtorEq] at hexec
  case compute.next key f =>
    split at hexec
    · cases hexec
    · split at hexec
      · cases hexec
        exact h.pass rfl rfl rfl rfl (forall_mem_nil _) (forall_mem_nil _)
          (fun _ ha => ha.imp_right False.elim)
      · cases hexec
        refine h.pass rfl rfl rfl rfl (forall_mem_singleton.mpr rfl) ?_
          (fun _ _ => .inr ⟨_, mem_singleton.mpr rfl, trivial⟩)
        intro g hg _ i sb hi
        rw [mem_singleton.mp hg]
        exact .inr (awaits_iterate hi)
  case marking.visit key w value it i =>
    split at hexec
    · rename_i it' sb hvisit hi
      cases hexec
      exact h.mark hvisit hi
    · cases hexec
  case marking.next key w value it =>
    split at hexec
    · rename_i hdone
      cases hexec
      refine h.pass rfl rfl rfl rfl (forall_mem_singleton.mpr rfl) ?_
        (fun _ _ => .inr ⟨_, mem_singleton.mpr rfl, trivial⟩)
      intro g hg _ i sb hi
      rcases (h.subs i sb hi).critical _ mem_cons_self trivial with hm | hw
      · exact .inl hm
      · exact absurd hw (Iteration.not_awaits_of_complete hdone i)
    · cases hexec
  case store.next key w =>
    cases hexec
    exact h.store
  case register.next =>
    cases hexec
    exact h.register
  case notify.next =>
    cases hexec
    exact h.notify hcond
  case loop.visit ad it didSend i =>
    split at hexec
    · rename_i it' sb hvisit hi
      split at hexec
      · rename_i hmark
        cases hexec
        exact h.clear hvisit hi hmark hcond
      · rename_i hmark
        cases hexec
        exact h.skip hvisit hi (by simpa using hmark)
    · cases hexec
  case loop.next ad it didSend =>
    split at hexec
    · rename_i hdone
      split at hexec <;> cases hexec
      · exact h.endPass hdone (fun g hg => ⟨_, mem_singleton.mp hg⟩)
      · exact h.endPass hdone (by simp)
    · cases hexec
  case sending.next ad i it =>
    split at hexec
    · cases hexec
    · rename_i sb hi
      cases hexec
      exact h.send hi
  case read.next i =>
    split at hexec
    · cases hexec
      exact h.pass rfl rfl rfl rfl (forall_mem_nil _) (forall_mem_nil _)
        (fun _ ha => ha.imp_right False.elim)
    · rename_i sb hi
      cases hexec
      exact h.read hi
  -- The other steps change nothing that the invariant is about.
  all_goals
    (try split at hexec) <;> cases hexec <;>
      exact h.pass rfl rfl rfl rfl (by simp [Frame.delta]) (by simp [Frame.Critical])
        (by simp [Frame.Attends])

/-- Every step of the run is allowed. -/
def Orderly (E : Equality V) (p : World K V) : Action (Operation K V) Choice → Prop
  | .start _ => True
  | .run thread choice =>
      ∀ f, p.top thread = some f → Allowed E p.shared (· ∈ p.frames) f choice

/-- The invariant of the threads. -/
def WorldInv (E : Equality V) (p : World K V) : Prop := Inv E p.shared (· ∈ p.frames)

/-- A frame that neither holds a delta nor marks changes nothing for the
others. -/
theorem Inv.add {sh : Shared K V} {F : Frame K V → Prop} (h : Inv E sh F) {new : Frame K V}
    (hdelta : new.delta = none) (hcrit : ¬ new.Critical) : Inv E sh (fun g => F g ∨ g = new) := by
  have hold : ∀ {g ad}, F g ∨ g = new → g.delta = some ad → F g := by
    intro g ad hg had
    rcases hg with hg | rfl
    · exact hg
    · rw [hdelta] at had
      cases had
  refine ⟨?_, ?_, ?_⟩
  · exact fun g ad hg had => h.deltas g ad (hold hg had) had
  · exact fun g ad i hg had => h.current g ad i (hold hg had) had
  · intro i sb hi
    have hok := h.subs i sb hi
    refine ⟨hok.unfiltered, ?_, hok.unmarked, ?_, ?_, ?_⟩
    · intro g hg hc
      rcases hg with hg | rfl
      · exact hok.critical g hg hc
      · exact absurd hc hcrit
    · exact fun hm => (hok.attended hm).imp_right fun ⟨g, hg, ha⟩ => ⟨g, .inl hg, ha⟩
    · intro hfresh
      obtain ⟨hch, hrep, hor⟩ := hok.fresh hfresh
      exact ⟨hch, hrep, hor.imp_right fun ⟨g, hg, hs⟩ => ⟨g, .inl hg, hs⟩⟩
    · intro hinit
      rcases hok.viewed hinit with hv | ⟨g, ad, hg, hrest⟩ | ⟨hm, ⟨g, hg, hrest⟩, hall⟩
      · exact .inl hv
      · exact .inr (.inl ⟨g, ad, .inl hg, hrest⟩)
      · exact .inr (.inr ⟨hm, ⟨g, .inl hg, hrest⟩,
          fun g' ad hg' had => hall g' ad (hold hg' had) had⟩)

/-- An operation that starts has done nothing yet. -/
theorem WorldInv.start {p p' : World K V} (h : WorldInv E p) (op : Operation K V)
    (hshared : p'.shared = p.shared) (hframes : p'.frames = p.frames ++ program op) :
    WorldInv E p' := by
  have hone : ∃ new, program op = [new] ∧ new.delta = none ∧ ¬ new.Critical := by
    cases op <;> exact ⟨_, rfl, rfl, id⟩
  obtain ⟨new, hprog, hdelta, hcrit⟩ := hone
  have hafter : (fun g => g ∈ p'.frames) = (fun g => g ∈ p.frames ∨ g = new) := by
    funext g
    rw [hframes, hprog, mem_append, mem_singleton]
  rw [WorldInv, hshared, hafter]
  exact h.add hdelta hcrit

theorem worldInv_step [Inhabited V] {p p' : World K V} {a : Action (Operation K V) Choice}
    (h : WorldInv E p) (hcond : Orderly E p a) (hstep : threadStep E p a = some p') :
    WorldInv E p' := by
  rcases step_cases hstep with ⟨op, _, hshared, hframes⟩ |
    ⟨thread, choice, f, fs, others, rfl, htop, hexec, hold, hnew⟩
  · exact h.start op hshared hframes
  · have hbefore : (fun g => g ∈ p.frames) = (fun g => g ∈ f :: others) :=
      funext fun g => propext hold.mem_iff
    have hafter : (fun g => g ∈ p'.frames) = (fun g => g ∈ fs ++ others) :=
      funext fun g => propext hnew.mem_iff
    have hallowed := hcond f htop
    rw [WorldInv, hbefore] at h
    rw [hbefore] at hallowed
    rw [WorldInv, hafter]
    exact inv_exec h hallowed hexec

/-- **Replication.** In every run in which notifications and writes do not
get into each other's way, all replicas agree with the contents in every
quiescent state. -/
theorem replicas_agree [Inhabited V] (E : Equality V)
    (acts : List (Action (Operation K V) Choice))
    (hmeets : Meets (threadStep E) (Orderly E) ⟨{}, []⟩ acts) :
    Always (threadStep E) (ReplicasAgree E) ⟨{}, []⟩ acts := by
  have hinit : WorldInv E (⟨{}, []⟩ : World K V) := by
    refine ⟨?_, ?_, ?_⟩ <;> simp [Pool.frames]
  refine always_of_meets ?_ (fun _ _ _ => worldInv_step) hinit hmeets
  intro p hinv hquiet sb hsb
  obtain ⟨hidle, harmed, hdrained⟩ := hquiet
  obtain ⟨i, hi⟩ := mem_iff_getElem?.mp hsb
  have hok := hinv.subs i sb hi
  have hnone : ∀ g, ¬ g ∈ p.frames := by
    rw [hidle]
    simp
  -- nothing is left to be done, so there is no mark
  have hmark : sb.mark = false := by
    by_contra hm
    rcases hok.attended (by simpa using hm) with ha | ⟨g, hg, _⟩
    · rw [harmed] at ha
      cases ha
    · exact hnone g hg
  have hview : Patch.Same E.Rel sb.view p.shared.snapshot.lookup := by
    cases hinit : sb.initialized with
    | false =>
      obtain ⟨_, _, hm | ⟨g, hg, _⟩⟩ := hok.fresh hinit
      · rw [hmark] at hm
        cases hm
      · exact absurd hg (hnone g)
    | true =>
      rcases hok.viewed hinit with hv | ⟨g, _, hg, _⟩ | ⟨_, ⟨g, hg, _⟩, _⟩
      · exact hv
      all_goals exact absurd hg (hnone g)
  rw [view_of_drained (hdrained sb hsb)] at hview
  exact hview.trans E.equivalence (hok.unmarked hmark)

/-- A value is stored, and a client subscribes and reads. -/
def storeThenSubscribe : List (Action (Operation String Nat) Choice) :=
  [.start (.compute "x" (store 1)), .run 0 .next, .run 0 .next, .run 0 .next, .run 0 .next,
    .start .subscribe, .run 1 .next, .run 1 .next, .run 1 .next, .run 1 (.visit 0), .run 1 .next,
    .run 1 .next, .run 1 (.visit 0), .run 1 .next,
    .start (.read 0), .run 2 .next]

theorem replicas_agree_storeThenSubscribe :
    Always (threadStep (Equality.eq Nat)) (ReplicasAgree (Equality.eq Nat)) ⟨{}, []⟩
      storeThenSubscribe := by
  apply replicas_agree
  refine .cons rfl trivial ?_
  iterate 4 refine .cons rfl (by intro f hf; cases hf; trivial) ?_
  refine .cons rfl trivial ?_
  iterate 2 refine .cons rfl (by intro f hf; cases hf; trivial) ?_
  refine .cons rfl ?_ ?_
  · -- no other notification is under way
    intro f hf
    cases hf
    refine ⟨?_, ?_⟩
    · intro g i hg
      cases mem_singleton.mp hg
      exact id
    · intro hlooping
      obtain ⟨g, hg, hd⟩ := hlooping
      cases mem_singleton.mp hg
      cases hd
  refine .cons rfl ?_ ?_
  · -- the notification sends the contents
    intro f hf
    cases hf
    intro sb _ _
    refine ⟨?_, Patch.Same.refl (Equality.eq Nat).equivalence _,
      Patch.Same.refl (Equality.eq Nat).equivalence _⟩
    intro g hg
    cases mem_singleton.mp hg
    exact id
  iterate 2 refine .cons rfl (by intro f hf; cases hf; trivial) ?_
  refine .cons rfl ?_ ?_
  · intro f hf
    cases hf
    intro sb hi hm
    cases hi
    cases hm
  refine .cons rfl (by intro f hf; cases hf; trivial) ?_
  refine .cons rfl trivial ?_
  exact .cons rfl (by intro f hf; cases hf; trivial) trivial

/-- A write marks a subscriber that is still marked for another one; the
notification for that one clears the mark before the value is stored, and the
next notification finds no mark: the update is lost. -/
theorem update_lost :
    ∃ acts p, Runs.run (threadStep (Equality.eq Nat)) ⟨{}, []⟩ acts = some p ∧
      ¬ ReplicasAgree (Equality.eq Nat) (p : World String Nat) := by
  refine ⟨[.start .subscribe, .run 0 .next, .run 0 .next, .run 0 .next, .run 0 (.visit 0),
      .run 0 .next, .run 0 .next, .run 0 (.visit 0), .run 0 .next, .start (.read 0), .run 1 .next,
    -- the first value is stored, and the timer fires
    .start (.compute "x" (store 1)), .run 2 .next, .run 2 (.visit 0), .run 2 .next, .run 2 .next,
      .run 2 .next, .start .fire, .run 3 .next, .run 3 .next,
    -- the second write marks, the notification sends, and the value is stored
    .start (.compute "y" (store 2)), .run 4 .next, .run 4 (.visit 0), .run 4 .next,
      .run 3 (.visit 0), .run 3 .next, .run 4 .next, .run 4 .next,
      .run 3 .next, .run 3 (.visit 0), .run 3 .next,
    -- the timer fires again, and the subscriber reads
    .start .fire, .run 5 .next, .run 5 .next, .run 5 (.visit 0), .run 5 .next,
      .start (.read 0), .run 6 .next], _, rfl, ?_⟩
  intro h
  have hagree := h ⟨rfl, rfl, by
    intro sb hsb
    cases hsb with
    | head => rfl
    | tail _ hsb => cases hsb⟩
  -- the replica has no value for the second key
  cases hagree _ mem_cons_self "y"

end Telepresence.Replication
