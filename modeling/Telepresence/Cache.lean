import Telepresence.Lib.Maps
import Telepresence.Lib.Patch

/-!
# The cache

`cache.Map` is a concurrent map that sends its changes to subscribers.  A
change marks the subscribers that are interested in it; a notification
compares the map with the snapshot that the one before took and sends the
difference to the marked subscribers, and a subscriber that reads the deltas
keeps a replica (`ClientMap.Watch`).

Maps are values here: that the deltas of several subscribers share a map is
not modelled.

* `toPatch_merge`: merging a delta into an unread one is applying it later.
* `makeDelta_leadsTo`, `makeDelta_covers`: the delta between two maps leads to
  the new one and covers the way from the old one, up to `equal`.
* `view_send`, `view_send_first`: what a delta that has been sent does to what
  its subscriber is going to see.
-/

namespace Telepresence.Cache

open Option GoMap

variable {K V : Type} [DecidableEq K]

/-- The function a map compares its values with; it has to be an
equivalence. -/
structure Equality (V : Type) where
  equal : V → V → Bool
  refl : ∀ v, equal v v = true
  symm : ∀ {v w}, equal v w = true → equal w v = true
  trans : ∀ {u v w}, equal u v = true → equal v w = true → equal u w = true

/-- The values are equal for the map. -/
def Equality.Rel (E : Equality V) (v w : V) : Prop := E.equal v w = true

theorem Equality.equivalence (E : Equality V) : Equivalence E.Rel :=
  ⟨E.refl, E.symm, E.trans⟩

/-- Equality itself. -/
def Equality.eq (V : Type) [DecidableEq V] : Equality V where
  equal v w := v == w
  refl := by simp
  symm := by
    intro v w h
    rw [beq_iff_eq] at h ⊢
    exact h.symm
  trans := by
    intro u v w huv hvw
    rw [beq_iff_eq] at huv hvw ⊢
    exact huv.trans hvw

/-! ## Deltas -/

/-- `Delta`. -/
structure Delta (K V : Type) where
  upserts : GoMap K V := ∅
  removals : GoMap K V := ∅

/-- `Delta.Merge`. -/
def Delta.merge (delta other : Delta K V) : Delta K V where
  upserts :=
    if delta.upserts.entries.isEmpty then other.upserts
    else GoMap.deleteAll other.removals.keys (other.upserts ∪ delta.upserts)
  removals :=
    if delta.removals.entries.isEmpty then other.removals
    else GoMap.deleteAll other.upserts.keys (other.removals ∪ delta.removals)

/-- What `ClientMap.Watch` does with a delta: it stores the upserts, then
deletes the removals. -/
def Delta.applyTo (delta : Delta K V) (replica : GoMap K V) : GoMap K V :=
  GoMap.deleteAll delta.removals.keys (delta.upserts ∪ replica)

/-- `allDelta`. -/
structure AllDelta (K V : Type) where
  snapshot : GoMap K V
  upserts : GoMap K V
  removals : GoMap K V

open AllDelta

/-- `makeDelta`: the difference between the previous snapshot and the current
contents, which become the next snapshot. -/
def makeDelta (E : Equality V) (previous current : GoMap K V) : AllDelta K V where
  snapshot := current
  upserts := current.filter fun k v =>
    !((previous.lookup k).any fun prev => E.equal prev v)
  removals := previous.filter fun k _ => !(current.lookup k).isSome

/-- A filter; `none` is Go's `nil`. -/
abbrev Include (K V : Type) := Option (K → V → Bool)

/-- The subscriber is interested in the entry. -/
def includes (include_ : Include K V) (k : K) (v : V) : Bool :=
  match include_ with
  | none => true
  | some f => f k v

/-- `filteredMap`. -/
def filteredMap (m : GoMap K V) (include_ : Include K V) : GoMap K V :=
  match include_ with
  | none => m
  | some f => m.filter f

/-- `filteredDelta`. -/
def AllDelta.filteredDelta (ad : AllDelta K V) (initialized : Bool) (include_ : Include K V) :
    Delta K V :=
  if initialized then ⟨filteredMap ad.upserts include_, filteredMap ad.removals include_⟩
  else ⟨filteredMap ad.snapshot include_, ∅⟩

/-! ## Subscriptions -/

/-- `subscription`, with the replica of the reader.  The channel holds at most
one delta. -/
structure Subscription (K V : Type) where
  include_ : Include K V
  initialized : Bool := false
  mark : Bool := false
  channel : Option (Delta K V) := none
  replica : GoMap K V := ∅

open Subscription

/-- `allDelta.send`. -/
def AllDelta.send (ad : AllDelta K V) (sb : Subscription K V) : Subscription K V :=
  let fd := ad.filteredDelta sb.initialized sb.include_
  if sb.initialized && fd.upserts.entries.isEmpty && fd.removals.entries.isEmpty then sb
  else
    { sb with
      initialized := true
      channel :=
        match sb.channel with
        | some prevDelta => some (prevDelta.merge fd)
        | none => some fd }

/-- The reader receives a delta, if there is one. -/
def Subscription.read (sb : Subscription K V) : Subscription K V :=
  match sb.channel with
  | none => sb
  | some delta => { sb with channel := none, replica := delta.applyTo sb.replica }

/-- `markSubscribers`, for one subscriber. -/
def Subscription.markFor (sb : Subscription K V) (key : K) (value : V) : Subscription K V :=
  if !sb.mark && includes sb.include_ key value then { sb with mark := true } else sb

/-- `cache.Map`: its contents, the snapshot of the last notification and the
subscribers. -/
structure Map (K V : Type) where
  contents : GoMap K V := ∅
  snapshot : GoMap K V := ∅
  subscribers : List (Subscription K V) := []

/-! ## Writing -/

/-- `xsync.ComputeOp` with the new value. -/
inductive ComputeOp (V : Type) where
  | cancel
  | update (v : V)
  | delete

/-- What `Compute` does to the map. -/
inductive Write (V : Type) where
  | put (v : V)
  | del

/-- The function that `Compute` passes on: what is written, if anything, and
the value that the subscribers are marked for. -/
def computeOp [Inhabited V] (E : Equality V) (f : Option V → ComputeOp V) (loaded : Option V) :
    Option (Write V × V) :=
  match f loaded with
  | .cancel => none
  | .update fv =>
      if loaded.any (fun v => E.equal fv v) then none else some (.put fv, fv)
  | .delete => some (.del, loaded.getD default)

/-- The map after a write. -/
def Write.apply (w : Write V) (key : K) (m : GoMap K V) : GoMap K V :=
  match w with
  | .put v => m.insert key v
  | .del => m.erase key

/-- The function of `Store`. -/
def store (value : V) : Option V → ComputeOp V := fun _ => .update value

/-- The function of `Delete`. -/
def delete : Option V → ComputeOp V
  | none => .cancel
  | some _ => .delete

/-! ## What the operations leave alone -/

theorem send_include (ad : AllDelta K V) (sb : Subscription K V) :
    (ad.send sb).include_ = sb.include_ := by
  unfold send
  dsimp only
  split <;> rfl

theorem send_initialized (ad : AllDelta K V) (sb : Subscription K V) :
    (ad.send sb).initialized = true := by
  unfold send
  dsimp only
  split
  · rename_i h
    simp only [Bool.and_eq_true] at h
    exact h.1.1
  · rfl

theorem send_mark (ad : AllDelta K V) (sb : Subscription K V) : (ad.send sb).mark = sb.mark := by
  unfold send
  dsimp only
  split <;> rfl

theorem read_channel (sb : Subscription K V) : sb.read.channel = none := by
  cases h : sb.channel with
  | none | some delta => simp only [Subscription.read, h]

theorem read_fields (sb : Subscription K V) :
    sb.read.include_ = sb.include_ ∧ sb.read.initialized = sb.initialized ∧
      sb.read.mark = sb.mark := by
  unfold Subscription.read
  split <;> exact ⟨rfl, rfl, rfl⟩

omit [DecidableEq K] in
theorem markFor_fields (sb : Subscription K V) (key : K) (value : V) :
    (sb.markFor key value).include_ = sb.include_ ∧
      (sb.markFor key value).initialized = sb.initialized ∧
      ((sb.markFor key value).mark = false →
        sb.mark = false ∧ includes sb.include_ key value = false) := by
  unfold markFor
  cases hm : sb.mark <;> cases hi : includes sb.include_ key value <;> simp [hm]

/-! ## Deltas as patches -/

/-- What the delta means. -/
def Delta.toPatch (delta : Delta K V) : Patch K V := fun k =>
  if (delta.removals.lookup k).isSome then some none else (delta.upserts.lookup k).map some

theorem lookup_applyTo (delta : Delta K V) (replica : GoMap K V) (k : K) :
    (delta.applyTo replica).lookup k = delta.toPatch.act replica.lookup k := by
  simp only [Delta.applyTo, Patch.act, Delta.toPatch, lookup_deleteAll,
    mem_keys_iff_isSome, lookup_union_eq]
  split
  · rfl
  · cases delta.upserts.lookup k <;> rfl

/-- No key is both set and removed. -/
def Delta.Disjoint (delta : Delta K V) : Prop :=
  ∀ k, (delta.upserts.lookup k).isSome = true → delta.removals.lookup k = none

theorem lookup_eq_none_of_isEmpty {m : GoMap K V} (h : m.entries.isEmpty = true) (k : K) :
    m.lookup k = none := by
  rw [AList.lookup_eq_none, AList.mem_keys, AList.keys, List.isEmpty_iff.mp h]
  simp

theorem merge_upserts (delta other : Delta K V) (k : K) :
    (delta.merge other).upserts.lookup k =
      if delta.upserts.entries.isEmpty then other.upserts.lookup k
      else if (other.removals.lookup k).isSome then none
      else (other.upserts.lookup k).or (delta.upserts.lookup k) := by
  simp only [Delta.merge]
  split
  · rfl
  · simp only [lookup_deleteAll, mem_keys_iff_isSome, lookup_union_eq]

theorem merge_removals (delta other : Delta K V) (k : K) :
    (delta.merge other).removals.lookup k =
      if delta.removals.entries.isEmpty then other.removals.lookup k
      else if (other.upserts.lookup k).isSome then none
      else (other.removals.lookup k).or (delta.removals.lookup k) := by
  simp only [Delta.merge]
  split
  · rfl
  · simp only [lookup_deleteAll, mem_keys_iff_isSome, lookup_union_eq]

/-- **Merging.** A delta merged into an unread one has the effect of both, one
after the other. -/
theorem toPatch_merge {delta other : Delta K V} (h : other.Disjoint) :
    (delta.merge other).toPatch = delta.toPatch.andThen other.toPatch := by
  funext k
  have hdis := h k
  have hu : delta.upserts.entries.isEmpty = true → delta.upserts.lookup k = none :=
    fun he => lookup_eq_none_of_isEmpty he k
  have hr : delta.removals.entries.isEmpty = true → delta.removals.lookup k = none :=
    fun he => lookup_eq_none_of_isEmpty he k
  simp only [Delta.toPatch, Patch.andThen, merge_upserts, merge_removals]
  by_cases heu : delta.upserts.entries.isEmpty = true <;>
    by_cases her : delta.removals.entries.isEmpty = true
  all_goals
    cases hou : other.upserts.lookup k with
    | some v =>
      -- the key gets a new value, whatever the first delta says
      have hor : other.removals.lookup k = none := hdis (by rw [hou]; rfl)
      simp [heu, her, hor]
    | none =>
      cases hor : other.removals.lookup k with
      | some w => simp [her]
      | none => simp [heu, her, hu, hr]

theorem disjoint_merge {delta other : Delta K V} (h : delta.Disjoint) (h' : other.Disjoint) :
    (delta.merge other).Disjoint := by
  intro k
  have hd := h k
  have ho := h' k
  rw [merge_upserts, merge_removals]
  -- what the later delta says of the key decides, unless it does not mention it
  cases hou : other.upserts.lookup k <;> cases hor : other.removals.lookup k <;> grind

/-- **Merging unread deltas is composition.** -/
theorem merge_composes {delta other : Delta K V} (h : delta.Disjoint) (h' : other.Disjoint)
    (m : GoMap K V) :
    (∀ k, ((delta.merge other).applyTo m).lookup k = (other.applyTo (delta.applyTo m)).lookup k) ∧
      (delta.merge other).Disjoint := by
  refine ⟨?_, disjoint_merge h h'⟩
  intro k
  have happly : (delta.applyTo m).lookup = delta.toPatch.act m.lookup :=
    funext (lookup_applyTo delta m)
  rw [lookup_applyTo, lookup_applyTo, happly, toPatch_merge h', Patch.act_andThen]

/-- A key that was upserted is removed later. -/
theorem merge_composes_removed :
    let stored : Delta Nat String := { upserts := AList.insert 1 "a" ∅ }
    let removed : Delta Nat String := { removals := AList.insert 1 "a" ∅ }
    ((stored.merge removed).applyTo ∅).lookup 1 = none ∧ (stored.merge removed).Disjoint := by
  intro stored removed
  have hstored : stored.Disjoint := fun _ _ => rfl
  have hremoved : removed.Disjoint := nofun
  obtain ⟨hlookup, hdisjoint⟩ := merge_composes hstored hremoved ∅
  exact ⟨(hlookup 1).trans rfl, hdisjoint⟩

/-! ## The delta between two maps -/

/-- The filter does not tell values apart that are equal for the map. -/
def Respects (E : Equality V) (include_ : Include K V) : Prop :=
  ∀ k v w, E.equal v w = true → includes include_ k v = includes include_ k w

omit [DecidableEq K] in
theorem respects_none (E : Equality V) : Respects E (none : Include K V) :=
  fun _ _ _ _ => rfl

theorem lookup_filteredMap (m : GoMap K V) (include_ : Include K V) (k : K) :
    (filteredMap m include_).lookup k = (m.lookup k).filter (includes include_ k) := by
  cases include_ with
  | none => cases h : m.lookup k <;> simp [filteredMap, includes, h, Option.filter]
  | some f => exact lookup_filter f m k

section

variable (E : Equality V) (previous current : GoMap K V)

theorem lookup_upserts (k : K) : (makeDelta E previous current).upserts.lookup k =
      (current.lookup k).filter fun v => !((previous.lookup k).any fun p => E.equal p v) :=
  lookup_filter _ current k

theorem lookup_removals (k : K) : (makeDelta E previous current).removals.lookup k =
      (previous.lookup k).filter fun _ => !(current.lookup k).isSome :=
  lookup_filter _ previous k

/-- The delta for a subscriber that has been sent the first snapshot. -/
def AllDelta.patch (ad : AllDelta K V) (include_ : Include K V) : Patch K V :=
  (ad.filteredDelta true include_).toPatch

/-- What the delta says about a key: it is removed if the subscriber was
interested in it and it is gone, and set if the subscriber is interested in
its new value. -/
theorem patch_makeDelta (include_ : Include K V) (k : K) :
    (makeDelta E previous current).patch include_ k =
      match previous.lookup k, current.lookup k with
      | some p, none => if includes include_ k p then some none else none
      | some p, some v =>
        if !E.equal p v && includes include_ k v then some (some v) else none
      | none, some v => if includes include_ k v then some (some v) else none
      | none, none => none := by
  simp only [patch, filteredDelta, if_true, Delta.toPatch, lookup_filteredMap,
    lookup_upserts, lookup_removals]
  cases previous.lookup k with
  | none =>
    cases current.lookup k with
    | none => simp
    | some v => cases hv : includes include_ k v <;> simp [hv]
  | some p =>
    cases current.lookup k with
    | none => cases hp : includes include_ k p <;> simp [hp]
    | some v =>
      cases he : E.equal p v <;> cases hv : includes include_ k v <;>
        simp [he, hv]

theorem disjoint_makeDelta (initialized : Bool) (include_ : Include K V) :
    ((makeDelta E previous current).filteredDelta initialized include_).Disjoint := by
  intro k hu
  cases initialized with
  | false => rfl
  | true =>
    simp only [filteredDelta, if_true, lookup_filteredMap, lookup_upserts,
      lookup_removals] at hu ⊢
    cases hc : current.lookup k with
    | none => simp [hc] at hu
    | some v => cases previous.lookup k <;> simp

/-- The delta leads to the filtered new contents. -/
theorem makeDelta_leadsTo (include_ : Include K V) :
    Patch.LeadsTo E.Rel ((makeDelta E previous current).patch include_)
      (filteredMap current include_).lookup := by
  intro k o ho
  rw [patch_makeDelta] at ho
  simp only [lookup_filteredMap]
  cases hp : previous.lookup k with
  | none =>
    cases hc : current.lookup k with
    | none => simp [hp, hc] at ho
    | some v =>
      simp only [hp, hc, ite_none_right_eq_some, some.injEq] at ho
      obtain ⟨hv, rfl⟩ := ho
      rw [filter_some, if_pos hv]
      exact .some (E.refl v)
  | some p =>
    cases hc : current.lookup k with
    | none =>
      simp only [hp, hc, ite_none_right_eq_some, some.injEq] at ho
      obtain ⟨_, rfl⟩ := ho
      exact Option.Rel.none
    | some v =>
      simp only [hp, hc, ite_none_right_eq_some, some.injEq,
        Bool.and_eq_true] at ho
      obtain ⟨⟨_, hv⟩, rfl⟩ := ho
      rw [filter_some, if_pos hv]
      exact .some (E.refl v)

end

/-- The delta covers the way from the filtered old contents, unless the filter
has lost interest in an entry that it had before. -/
theorem makeDelta_covers {E : Equality V} {previous current : GoMap K V} {include_ : Include K V}
    (hresp : Respects E include_)
    (hstay : ∀ k p v, previous.lookup k = some p → current.lookup k = some v →
      includes include_ k p = true → includes include_ k v = true) :
    Patch.Covers E.Rel ((makeDelta E previous current).patch include_)
      (filteredMap previous include_).lookup (filteredMap current include_).lookup := by
  intro k hk
  rw [patch_makeDelta] at hk
  simp only [lookup_filteredMap]
  cases hp : previous.lookup k with
  | none =>
    cases hc : current.lookup k with
    | none => exact Option.Rel.none
    | some v =>
      simp only [hp, hc, ite_eq_right_iff, reduceCtorEq, imp_false, Bool.not_eq_true] at hk
      simp [Option.filter, hk]
  | some p =>
    cases hc : current.lookup k with
    | none =>
      simp only [hp, hc, ite_eq_right_iff, reduceCtorEq, imp_false, Bool.not_eq_true] at hk
      simp [Option.filter, hk]
    | some v =>
      simp only [hp, hc, ite_eq_right_iff, reduceCtorEq, imp_false, Bool.and_eq_true,
        Bool.not_eq_true', not_and, Bool.not_eq_true] at hk
      cases he : E.equal p v with
      | true =>
        have hsame := hresp k p v he
        cases hv : includes include_ k v with
        | true =>
          rw [Option.filter_some, Option.filter_some, if_pos (hsame.trans hv), if_pos hv]
          exact .some he
        | false => simp [Option.filter, hsame, hv]
      | false =>
        have hv := hk he
        have hpf : includes include_ k p = false := by
          by_contra hpt
          have := hstay k p v hp hc (by simpa using hpt)
          rw [hv] at this
          cases this
        simp [Option.filter, hv, hpf]

/-! ## What a subscriber is going to see -/

/-- The replica after the delta in the channel has been read. -/
def Subscription.view (sb : Subscription K V) : K → Option V :=
  match sb.channel with
  | none => sb.replica.lookup
  | some delta => delta.toPatch.act sb.replica.lookup

theorem view_read (sb : Subscription K V) : sb.read.view = sb.view := by
  cases h : sb.channel with
  | none => simp only [Subscription.read, h]
  | some delta =>
    funext k
    simp only [Subscription.read, Subscription.view, h, lookup_applyTo]

theorem view_markFor (sb : Subscription K V) (key : K) (value : V) :
    (sb.markFor key value).view = sb.view := by
  unfold markFor
  split <;> rfl

theorem view_of_drained {sb : Subscription K V} (h : sb.channel = none) :
    sb.view = sb.replica.lookup := by
  unfold view
  rw [h]

theorem view_put (sb : Subscription K V) {fd : Delta K V} (hfd : fd.Disjoint) :
    view { sb with
      initialized := true
      channel :=
        match sb.channel with
        | some prevDelta => some (prevDelta.merge fd)
        | none => some fd } = fd.toPatch.act sb.view := by
  unfold view
  cases sb.channel with
  | none => rfl
  | some prevDelta =>
    dsimp only
    rw [toPatch_merge hfd, Patch.act_andThen]

/-- **Sending a delta** to a subscriber that has got the first snapshot. -/
theorem view_send (E : Equality V) (previous current : GoMap K V) {sb : Subscription K V}
    (hinit : sb.initialized = true) :
    ((makeDelta E previous current).send sb).view =
      ((makeDelta E previous current).patch sb.include_).act sb.view := by
  have hfd := disjoint_makeDelta E previous current true sb.include_
  unfold send
  rw [hinit]
  dsimp only
  split
  · -- nothing to send
    rename_i hempty
    simp only [Bool.true_and, Bool.and_eq_true] at hempty
    funext k
    have hu := lookup_eq_none_of_isEmpty hempty.1 k
    have hr := lookup_eq_none_of_isEmpty hempty.2 k
    simp [Patch.act, patch, Delta.toPatch, hu, hr]
  · exact view_put sb hfd

/-- Sending the first snapshot. -/
theorem view_send_first (E : Equality V) (previous current : GoMap K V) {sb : Subscription K V}
    (hinit : sb.initialized = false) (hch : sb.channel = none) (hrep : sb.replica = ∅) :
    ((makeDelta E previous current).send sb).view = (filteredMap current sb.include_).lookup := by
  have hfd := disjoint_makeDelta E previous current false sb.include_
  unfold send
  rw [hinit]
  dsimp only
  rw [if_neg (by simp), view_put sb hfd, view_of_drained hch, hrep]
  funext k
  simp only [Patch.act, Delta.toPatch, filteredDelta]
  cases h : (filteredMap current sb.include_).lookup k <;> simp [makeDelta, h]

end Telepresence.Cache
