import Telepresence.Retirement

/-!
# A client session is retired once

What `removeClientSession` does for a session is pending from the moment in
which the session leaves `State.clients`: with `RemoveSession` these two are
one atomic step.  With `expireSessions` and `pruneSessions` they are as well,
if the session that was visited is still the one that is stored when its ID is
deleted.  Otherwise it is retired for a second time, and a session that has
been restored under the ID meanwhile is never retired.

* `Inv`: what has been added to the totals and what is still to be added,
  taken together, has each session that has left once; and the same for the
  finalizers of the intercepts.
* `Inv.addsCounters`: what a step adds to the totals.
* `retired_once`: along a run in which a session is deleted only while it is
  still the one that is stored under its ID, the effects happen exactly once
  for each session that has left.
-/

namespace Telepresence.Retirement

open Manager Threads Runs List GoMap

/-! ## The invariant -/

/-- The additions made, and those that are pending. -/
def ledger (sh : Shared) (frames : List Frame) : List (Meter × Nat) :=
  sh.totals.map (·.1) ++ frames.filterMap Frame.adds

/-- The intercepts whose finalizers were executed or will be. -/
def spent (sh : Shared) (frames : List Frame) : List String :=
  sh.terminated ++ frames.filterMap Frame.terminates

/-- The additions of a session are made or pending once it has left, and not
before. -/
structure Counted (sh : Shared) (frames : List Frame) : Prop where
  keyed : ∀ id t, sh.clients.lookup id = some t → sh.idOf t = some id
  left : ∀ m t, Left sh t → (ledger sh frames).count (m, t) = 1
  present : ∀ m t, ¬ Left sh t → (ledger sh frames).count (m, t) = 0

/-- The finalizers of an intercept are executed or pending once it is no longer
stored, and not before; only a child may go without. -/
structure Finalizing (initial : GoMap String Intercept) (sh : Shared) (frames : List Frame) :
    Prop where
  stored : ∀ id ic, sh.intercepts.lookup id = some ic →
    initial.lookup id = some ic ∧ (spent sh frames).count id = 0
  once : ∀ id, (spent sh frames).count id ≤ 1
  top : ∀ id ic, initial.lookup id = some ic → TopLevel initial id →
    sh.intercepts.lookup id = none → (spent sh frames).count id = 1
  children : ∀ id cs, .terminate id cs ∈ frames →
    ∃ ic, initial.lookup id = some ic ∧ ∀ c ∈ cs, c ∈ ic.children

/-- As long as an intercept of a session that has left is stored, there is a
frame that will remove it. -/
def Collecting (sh : Shared) (frames : List Frame) : Prop :=
  ∀ t id, Left sh t → Owned sh t id → ∃ f ∈ frames, f.Collects t id

/-- What every run keeps, for the intercepts that there were initially. -/
structure Inv (initial : GoMap String Intercept) (sh : Shared) (frames : List Frame) : Prop where
  counted : Counted sh frames
  finalizing : Finalizing initial sh frames
  collecting : Collecting sh frames

/-! ## The invariant is kept -/

section Keeping

variable {initial : GoMap String Intercept} {sh sh' : Shared} {f : Frame}
  {frames frames' fs others : List Frame}

/-- The order of the frames does not matter for the ledger. -/
theorem ledger_perm (hp : frames.Perm frames') : (ledger sh frames).Perm (ledger sh frames') :=
  (hp.filterMap _).append_left _

theorem spent_perm (hp : frames.Perm frames') : (spent sh frames).Perm (spent sh frames') :=
  (hp.filterMap _).append_left _

/-- Who has left depends on the sessions and the clients only. -/
theorem left_congr (hids : ∀ t, sh'.idOf t = sh.idOf t) (hclients : sh'.clients = sh.clients)
    (t : Nat) : Left sh' t ↔ Left sh t := by
  unfold Left
  rw [hids, hclients]

/-- The ledger is what matters of the frames and the totals. -/
theorem Counted.congr (h : Counted sh frames) (hids : ∀ t, sh'.idOf t = sh.idOf t)
    (hclients : sh'.clients = sh.clients)
    (hledger : (ledger sh' frames').Perm (ledger sh frames)) : Counted sh' frames' := by
  refine ⟨?_, ?_, ?_⟩
  · intro id t hlookup
    rw [hids]
    exact h.keyed id t (hclients ▸ hlookup)
  · intro m t hleft
    rw [hledger.count_eq]
    exact h.left m t ((left_congr hids hclients t).mp hleft)
  · intro m t hleft
    rw [hledger.count_eq]
    exact h.present m t fun hl => hleft ((left_congr hids hclients t).mpr hl)

/-- The finalizers depend on the intercepts and on what is spent only. -/
theorem Finalizing.congr (h : Finalizing initial sh frames)
    (hintercepts : sh'.intercepts = sh.intercepts)
    (hspent : (spent sh' frames').Perm (spent sh frames))
    (hchildren : ∀ id cs, .terminate id cs ∈ frames' → .terminate id cs ∈ frames) :
    Finalizing initial sh' frames' := by
  refine ⟨?_, ?_, ?_, ?_⟩
  · intro id ic hlookup
    rw [hspent.count_eq]
    exact h.stored id ic (hintercepts ▸ hlookup)
  · intro id
    rw [hspent.count_eq]
    exact h.once id
  · intro id ic hinitial htop hlookup
    rw [hspent.count_eq]
    exact h.top id ic hinitial htop (hintercepts ▸ hlookup)
  · intro id cs hmem
    exact h.children id cs (hchildren id cs hmem)

/-- Only what the threads have to do matters, not in which order they come. -/
theorem Inv.perm (h : Inv initial sh frames) (hp : frames.Perm frames') :
    Inv initial sh frames' := by
  refine ⟨h.counted.congr (fun _ => rfl) rfl (ledger_perm hp.symm),
    h.finalizing.congr rfl (spent_perm hp.symm) fun _ _ => hp.mem_iff.mpr, ?_⟩
  intro t id hleft howned
  obtain ⟨g, hg, hcollects⟩ := h.collecting t id hleft howned
  exact ⟨g, hp.mem_iff.mp hg, hcollects⟩

section

variable (h : Collecting sh (f :: others)) (hback : ∀ t id, Left sh' t → Owned sh' t id → Left sh t ∧ Owned sh t id)

include h hback

/-- What is collected is collected further when the executed frame passes it
on. -/
theorem Collecting.congr
    (hcollects : ∀ t id, Owned sh t id → f.Collects t id → ∃ g ∈ fs, g.Collects t id) :
    Collecting sh' (fs ++ others) := by
  intro t id hleft howned
  obtain ⟨hl, ho⟩ := hback t id hleft howned
  obtain ⟨g, hg, hgc⟩ := h t id hl ho
  rcases mem_cons.mp hg with rfl | hg
  · obtain ⟨g', hg', hgc'⟩ := hcollects t id ho hgc
    exact ⟨g', mem_append_left _ hg', hgc'⟩
  · exact ⟨g, mem_append_right _ hg, hgc⟩

/-- The same for a frame that collects nothing and leaves nothing to do. -/
theorem Collecting.done (hcollects : ∀ t id, ¬ f.Collects t id) : Collecting sh' others :=
  nil_append others ▸ h.congr hback fun t id _ hc => absurd hc (hcollects t id)

end

/-- Plain frames add nothing to the totals. -/
theorem filterMap_adds_of_plain (hfs : ∀ g ∈ fs, g.Plain) : fs.filterMap Frame.adds = [] :=
  filterMap_eq_nil_iff.mpr fun g hg => (hfs g hg).1

theorem filterMap_terminates_of_plain (hfs : ∀ g ∈ fs, g.Plain) :
    fs.filterMap Frame.terminates = [] :=
  filterMap_eq_nil_iff.mpr fun g hg => (hfs g hg).2

variable {id : String}

theorem terminate_not_plain {cs : List String} : ¬ (Frame.terminate id cs).Plain :=
  fun h => nomatch h.2

/-- A step that touches nothing that the invariant is about. -/
theorem Inv.quiet (h : Inv initial sh (f :: others)) (hids : ∀ t, sh'.idOf t = sh.idOf t)
    (hclients : sh'.clients = sh.clients) (hintercepts : sh'.intercepts = sh.intercepts)
    (htotals : sh'.totals = sh.totals) (hterminated : sh'.terminated = sh.terminated)
    (hf : f.Plain) (hfs : ∀ g ∈ fs, g.Plain)
    (hcollects : ∀ t id, Owned sh t id → f.Collects t id → ∃ g ∈ fs, g.Collects t id) :
    Inv initial sh' (fs ++ others) := by
  have howned : ∀ t id, Owned sh' t id → Owned sh t id := by
    rintro t id ⟨ic, hlookup, hremoved, hsession⟩
    exact ⟨ic, hintercepts ▸ hlookup, hremoved, hids t ▸ hsession⟩
  refine ⟨h.counted.congr hids hclients (.of_eq ?_), h.finalizing.congr hintercepts (.of_eq ?_) ?_,
    h.collecting.congr (fun t id hl ho => ⟨(left_congr hids hclients t).mp hl, howned t id ho⟩)
      hcollects⟩
  · simp [ledger, htotals, filterMap_adds_of_plain hfs, hf.1]
  · simp [spent, hterminated, filterMap_terminates_of_plain hfs, hf.2]
  · intro id cs hmem
    rcases mem_append.mp hmem with hnew | hold
    · exact absurd (hfs _ hnew) terminate_not_plain
    · exact mem_cons_of_mem _ hold

theorem ledger_cons_of_plain (hf : f.Plain) : ledger sh (f :: others) = ledger sh others := by
  simp [ledger, hf.1]

theorem spent_cons_of_plain (hf : f.Plain) : spent sh (f :: others) = spent sh others := by
  simp [spent, hf.2]

/-! ### A session comes -/

/-- The next session is not there yet. -/
theorem idOf_length (sh : Shared) : sh.idOf sh.sessions.length = none := by
  simp [Shared.idOf]

/-- The session that arrives is the next one. -/
theorem idOf_arrive_length (sh : Shared) (ss : Session) :
    (sh.arrive ss).idOf sh.sessions.length = some ss.id := by
  simp [Shared.idOf, Shared.arrive]

variable {ss : Session} {t : Nat}

/-- The other sessions stay as they are. -/
theorem idOf_arrive_of_ne (ht : t ≠ sh.sessions.length) : (sh.arrive ss).idOf t = sh.idOf t := by
  simp only [Shared.idOf, Shared.arrive]
  rcases Nat.lt_or_ge t sh.sessions.length with hlt | hge
  · rw [getElem?_append_left hlt]
  · rw [getElem?_eq_none hge, getElem?_eq_none (by simp; omega)]

/-- A new session has its own number, so that its ID was used before does not
matter. -/
theorem left_arrive (habsent : sh.clients.lookup ss.id = none) (t : Nat) :
    Left (sh.arrive ss) t ↔ t ≠ sh.sessions.length ∧ Left sh t := by
  have hlookup : ∀ id, (sh.arrive ss).clients.lookup id =
      if id = ss.id then some sh.sessions.length else sh.clients.lookup id :=
    fun id => lookup_insert_eq sh.clients id ss.id _
  constructor
  · rintro ⟨id, hid, hne⟩
    rw [hlookup] at hne
    by_cases ht : t = sh.sessions.length
    · rw [ht, idOf_arrive_length] at hid
      cases hid
      rw [if_pos rfl, ht] at hne
      exact absurd rfl hne
    · rw [idOf_arrive_of_ne ht] at hid
      refine ⟨ht, id, hid, ?_⟩
      split at hne
      · rename_i hsame
        rw [hsame, habsent]
        exact Option.some_ne_none _ ∘ Eq.symm
      · exact hne
  · rintro ⟨ht, id, hid, hne⟩
    refine ⟨id, idOf_arrive_of_ne ht ▸ hid, ?_⟩
    rw [hlookup]
    split
    · intro heq
      cases heq
      exact ht rfl
    · exact hne

theorem Counted.arrive (h : Counted sh frames) (habsent : sh.clients.lookup ss.id = none) :
    Counted (sh.arrive ss) frames := by
  have hnew : ¬ Left sh sh.sessions.length := by
    rintro ⟨id, hid, _⟩
    rw [idOf_length] at hid
    cases hid
  refine ⟨?_, ?_, ?_⟩
  · intro id t hlookup
    rcases lookup_of_insert hlookup with ⟨rfl, rfl⟩ | hlookup
    · exact idOf_arrive_length sh ss
    · have hold := h.keyed id t hlookup
      have ht : t ≠ sh.sessions.length := by
        rintro rfl
        rw [idOf_length] at hold
        cases hold
      rw [idOf_arrive_of_ne ht]
      exact hold
  · intro m t hleft
    exact h.left m t ((left_arrive habsent t).mp hleft).2
  · intro m t hleft
    by_cases ht : t = sh.sessions.length
    · exact h.present m t (ht ▸ hnew)
    · exact h.present m t fun hl => hleft ((left_arrive habsent t).mpr ⟨ht, hl⟩)

theorem Inv.arrive (h : Inv initial sh (f :: others)) (hf : f.Plain)
    (hcollects : ∀ t id, ¬ f.Collects t id) (habsent : sh.clients.lookup ss.id = none) :
    Inv initial (sh.arrive ss) others := by
  have hcounted : Counted sh others :=
    h.counted.congr (fun _ => rfl) rfl (.of_eq (ledger_cons_of_plain hf).symm)
  refine ⟨hcounted.arrive habsent, h.finalizing.congr rfl (.of_eq (spent_cons_of_plain hf).symm)
    fun id cs hmem => mem_cons_of_mem _ hmem, h.collecting.done ?_ hcollects⟩
  rintro t id hleft ⟨ic, hlookup, hremoved, hsession⟩
  obtain ⟨ht, hl⟩ := (left_arrive habsent t).mp hleft
  exact ⟨hl, ic, hlookup, hremoved, idOf_arrive_of_ne ht ▸ hsession⟩

/-! ### A session goes -/

/-- Exactly one more session has left. -/
theorem left_depart (hid : sh.idOf t = some id) (hlookup : sh.clients.lookup id = some t)
    (t' : Nat) : Left (sh.depart id) t' ↔ Left sh t' ∨ t' = t := by
  have herase : ∀ k, (sh.depart id).clients.lookup k =
      if k = id then none else sh.clients.lookup k := fun k => lookup_erase_eq sh.clients k id
  constructor
  · rintro ⟨k, hk, hne⟩
    by_cases ht : t' = t
    · exact .inr ht
    · refine .inl ⟨k, hk, ?_⟩
      rw [herase] at hne
      split at hne
      · rename_i hsame
        rw [hsame, hlookup]
        intro heq
        cases heq
        exact ht rfl
      · exact hne
  · rintro (⟨k, hk, hne⟩ | rfl)
    · refine ⟨k, hk, ?_⟩
      rw [herase]
      split
      · exact Option.some_ne_none _ ∘ Eq.symm
      · exact hne
    · refine ⟨id, hid, ?_⟩
      rw [herase, if_pos rfl]
      exact Option.some_ne_none _ ∘ Eq.symm

/-- The session that leaves is entered once for each meter. -/
theorem count_ledger_retire (id : String) (m : Meter) (t t' : Nat) :
    (ledger (sh.depart id) (retire t ++ others)).count (m, t') =
      (ledger sh others).count (m, t') + if t' = t then 1 else 0 := by
  have hledger : (ledger (sh.depart id) (retire t ++ others)).Perm
      ([(.ingress, t), (.egress, t)] ++ ledger sh others) := by
    simp only [ledger, filterMap_append]
    exact perm_append_comm_assoc _ _ _
  rw [hledger.count_eq, count_append, Nat.add_comm]
  congr 1
  by_cases ht : t' = t
  · subst ht
    cases m <;> simp
  · cases m <;> simp [ht, Ne.symm ht]

/-- **A session that goes is retired.**  This is where it matters that the
session was stored: its additions become pending exactly when it leaves. -/
theorem Inv.depart (h : Inv initial sh (f :: others)) (hf : f.Plain)
    (hcollects : ∀ t id, ¬ f.Collects t id) (hlookup : sh.clients.lookup id = some t) :
    Inv initial (sh.depart id) (retire t ++ others) := by
  have hid : sh.idOf t = some id := h.counted.keyed id t hlookup
  have hpresent : ¬ Left sh t := by
    rintro ⟨id', hid', hne⟩
    rw [hid] at hid'
    cases hid'
    exact hne hlookup
  refine ⟨⟨?_, ?_, ?_⟩, h.finalizing.congr rfl (.of_eq ?_) ?_, ?_⟩
  · intro k t' hk
    exact h.counted.keyed k t' (lookup_of_erase hk).2
  · intro m t' hleft
    rw [count_ledger_retire, ← ledger_cons_of_plain hf]
    by_cases ht : t' = t
    · rw [if_pos ht, ht, h.counted.present m t hpresent]
    · rw [if_neg ht]
      exact h.counted.left m t' (((left_depart hid hlookup t').mp hleft).resolve_right ht)
  · intro m t' hleft
    have hnot := fun hl => hleft ((left_depart hid hlookup t').mpr hl)
    rw [count_ledger_retire, ← ledger_cons_of_plain hf, if_neg (fun ht => hnot (.inr ht))]
    exact h.counted.present m t' fun hl => hnot (.inl hl)
  · exact (spent_cons_of_plain hf).symm
  · intro k cs hmem
    simp only [retire, cons_append, nil_append, mem_cons, reduceCtorEq,
      false_or] at hmem
    exact mem_cons_of_mem _ hmem
  · intro t' k hleft howned
    rcases (left_depart hid hlookup t').mp hleft with hl | rfl
    · obtain ⟨g, hg, hgc⟩ := h.collecting t' k hl howned
      rcases mem_cons.mp hg with rfl | hg
      · exact absurd hgc (hcollects t' k)
      · exact ⟨g, mem_append_right _ hg, hgc⟩
    · exact ⟨.gc t' none, mem_cons_self, rfl⟩

/-! ### An intercept is removed -/

variable {k : String} {ic : Intercept}

/-- What is there after a removal was there before. -/
theorem lookup_of_lookup_drop (h : (sh.drop id).intercepts.lookup k = some ic) :
    k ≠ id ∧ sh.intercepts.lookup k = some ic := lookup_of_erase h

theorem lookup_drop_of_ne (hne : k ≠ id) :
    (sh.drop id).intercepts.lookup k = sh.intercepts.lookup k := by
  rw [Shared.drop, lookup_erase_eq, if_neg hne]

/-- What a session owns after a removal it owned before. -/
theorem Owned.of_drop (h : Owned (sh.drop id) t k) : k ≠ id ∧ Owned sh t k := by
  obtain ⟨ic, hlookup, hremoved, hsession⟩ := h
  obtain ⟨hne, hold⟩ := lookup_of_lookup_drop hlookup
  exact ⟨hne, ic, hold, hremoved, hsession⟩

/-- The intercept goes, and its finalizers are about to run. -/
theorem Finalizing.remove (h : Finalizing initial sh (.removeIntercept id :: others))
    (hlookup : sh.intercepts.lookup id = some ic) :
    Finalizing initial (sh.drop id) (.terminate id ic.children :: others) := by
  obtain ⟨hinitial, hunspent⟩ := h.stored id ic hlookup
  have hspent : ∀ k, (spent (sh.drop id) (.terminate id ic.children :: others)).count k =
      (spent sh (.removeIntercept id :: others)).count k + if k = id then 1 else 0 := by
    intro k
    have hperm : (spent (sh.drop id) (.terminate id ic.children :: others)).Perm
        (id :: spent sh (.removeIntercept id :: others)) := perm_middle
    rw [hperm.count_eq, count_cons]
    by_cases hk : k = id
    · simp [hk]
    · simp [hk, Ne.symm hk]
  refine ⟨?_, ?_, ?_, ?_⟩
  · intro k ic' hk
    obtain ⟨hne, hold⟩ := lookup_of_lookup_drop hk
    rw [hspent, if_neg hne]
    exact h.stored k ic' hold
  · intro k
    rw [hspent]
    split
    · rename_i hk
      rw [hk, hunspent]
    · exact h.once k
  · intro k ic' hk htop hnone
    rw [hspent]
    split
    · rename_i hid
      rw [hid, hunspent]
    · rename_i hne
      exact h.top k ic' hk htop (lookup_drop_of_ne hne ▸ hnone)
  · intro k cs hmem
    rcases mem_cons.mp hmem with heq | hmem
    · cases heq
      exact ⟨ic, hinitial, fun c hc => hc⟩
    · exact h.children k cs (mem_cons_of_mem _ hmem)

theorem Inv.remove (h : Inv initial sh (.removeIntercept id :: others))
    (hlookup : sh.intercepts.lookup id = some ic) :
    Inv initial (sh.drop id) (.terminate id ic.children :: others) := by
  refine ⟨h.counted.congr (fun _ => rfl) rfl (.of_eq rfl), h.finalizing.remove hlookup, ?_⟩
  intro t k hleft howned
  obtain ⟨hne, ho⟩ := howned.of_drop
  obtain ⟨g, hg, hgc⟩ := h.collecting t k hleft ho
  rcases mem_cons.mp hg with rfl | hg
  · exact absurd hgc.symm hne
  · exact ⟨g, mem_cons_of_mem _ hg, hgc⟩

/-- The finalizer of an intercept that deletes a child. -/
theorem Inv.child {c : String} {cs : List String}
    (h : Inv initial sh (.terminate id (c :: cs) :: others)) :
    Inv initial (sh.drop c) (.terminate id cs :: others) := by
  obtain ⟨ic, hinitial, hcs⟩ := h.finalizing.children id (c :: cs) mem_cons_self
  refine ⟨h.counted.congr (fun _ => rfl) rfl (.of_eq rfl), ⟨?_, h.finalizing.once, ?_, ?_⟩, ?_⟩
  · intro k ic' hk
    exact h.finalizing.stored k ic' (lookup_of_lookup_drop hk).2
  · intro k ic' hk htop hnone
    have hne : k ≠ c := by
      rintro rfl
      exact htop id ic hinitial (hcs k mem_cons_self)
    exact h.finalizing.top k ic' hk htop (lookup_drop_of_ne hne ▸ hnone)
  · intro k cs' hmem
    rcases mem_cons.mp hmem with heq | hmem
    · cases heq
      exact ⟨ic, hinitial, fun c' hc' => hcs c' (mem_cons_of_mem _ hc')⟩
    · exact h.finalizing.children k cs' (mem_cons_of_mem _ hmem)
  · intro t k hleft howned
    obtain ⟨g, hg, hgc⟩ := h.collecting t k hleft howned.of_drop.2
    rcases mem_cons.mp hg with rfl | hg
    · exact hgc.elim
    · exact ⟨g, mem_cons_of_mem _ hg, hgc⟩

/-! ### The other steps -/

theorem Inv.finish (h : Inv initial sh (.terminate id [] :: others)) :
    Inv initial { sh with terminated := id :: sh.terminated } others := by
  refine ⟨h.counted.congr (fun _ => rfl) rfl (.of_eq rfl), h.finalizing.congr rfl ?_ ?_,
    h.collecting.done (fun _ _ hl ho => ⟨hl, ho⟩) (fun _ _ hc => hc)⟩
  · exact perm_middle.symm
  · intro id' cs hmem
    exact mem_cons_of_mem _ hmem

theorem Inv.total {m : Meter} (h : Inv initial sh (.add m t :: others)) :
    Inv initial (sh.addTotal m t) others := by
  refine ⟨h.counted.congr (fun _ => rfl) rfl ?_, h.finalizing.congr rfl (.of_eq rfl) ?_,
    h.collecting.done (fun _ _ hl ho => ⟨hl, ho⟩) (fun _ _ hc => hc)⟩
  · exact perm_middle.symm
  · intro id' cs hmem
    exact mem_cons_of_mem _ hmem

/-- Executing a frame keeps the invariant, when a session that is deleted is
the one that is stored. -/
theorem Inv.exec {choice : Choice} (h : Inv initial sh (f :: others))
    (hexec : exec sh f choice = some (sh', fs))
    (hallowed : ∀ id t, f = .deleteClient id t → sh.clients.lookup id = some t) :
    Inv initial sh' (fs ++ others) := by
  cases exec_effect hexec with
  | quiet hids hclients hintercepts htotals hterminated hf hfs hcollects =>
    exact h.quiet hids hclients hintercepts htotals hterminated hf hfs hcollects
  | arrive ss hf habsent =>
    subst hf
    exact h.arrive ⟨rfl, rfl⟩ (fun _ _ hc => hc) habsent
  | depart id t hf =>
    rcases hf with ⟨rfl, hlookup⟩ | rfl
    · exact h.depart ⟨rfl, rfl⟩ (fun _ _ hc => hc) hlookup
    · exact h.depart ⟨rfl, rfl⟩ (fun _ _ hc => hc) (hallowed id t rfl)
  | remove id ic hf hlookup =>
    subst hf
    exact h.remove hlookup
  | child id c cs hf =>
    subst hf
    exact h.child
  | finish id hf =>
    subst hf
    exact h.finish
  | total m t hf =>
    subst hf
    exact h.total

/-! ### The amounts -/

/-- A total after an addition. -/
theorem tunnelCounter_addTotal {m : Meter} (hss : sh.sessions[t]? = some ss) (m' : Meter) :
    (sh.addTotal m t).tunnelCounter m' =
      (sh.tunnelCounter m' + if m' = m then ss.bytes m else 0) % 2 ^ 64 := by
  simp only [Shared.tunnelCounter, Shared.addTotal, hss, Option.map_some, Option.getD_some]
  by_cases hm : m' = m
  · subst hm
    simp only [filter_cons, decide_true, if_true, map_cons, sum_cons]
    rw [Nat.add_comm, Nat.mod_add_mod]
  · simp only [filter_cons, decide_eq_true_eq, if_neg (Ne.symm hm), if_neg hm, Nat.add_zero,
      Nat.mod_mod]

/-- An addition that is pending is one for a session that has left. -/
theorem Counted.left_of_add {m : Meter} (h : Counted sh (.add m t :: others)) : Left sh t := by
  by_contra hnot
  have hzero := h.present m t hnot
  simp [ledger, Frame.adds] at hzero

/-- **The amounts.**  A step adds nothing to the totals, or the counter that a
session has which has left. -/
theorem Inv.addsCounters {choice : Choice} (h : Inv initial sh (f :: others))
    (hexec : Retirement.exec sh f choice = some (sh', fs)) : AddsCounters sh sh' := by
  cases exec_effect hexec with
  | quiet _ _ _ htotals _ _ _ _ => exact .inl htotals
  | total m t hf =>
    subst hf
    have hleft := h.counted.left_of_add
    obtain ⟨id, hid, -⟩ := hleft
    obtain ⟨ss, hss, -⟩ := Option.map_eq_some_iff.mp hid
    refine .inr ⟨m, t, ss, h.counted.left_of_add, hss, ?_, tunnelCounter_addTotal hss⟩
    simp [Shared.addTotal, hss]
  | arrive | depart | remove | child | finish => exact .inl rfl

/-- The first frames of an operation are plain. -/
theorem program_plain (op : Operation) : ∀ g ∈ program op, g.Plain := by
  cases op <;> exact forall_mem_singleton.mpr ⟨rfl, rfl⟩

/-- Starting an operation keeps the invariant: nothing is pending yet. -/
theorem Inv.start (h : Inv initial sh frames) (op : Operation) :
    Inv initial sh (frames ++ program op) := by
  refine ⟨h.counted.congr (fun _ => rfl) rfl (.of_eq ?_), h.finalizing.congr rfl (.of_eq ?_) ?_, ?_⟩
  · simp [ledger, filterMap_adds_of_plain (program_plain op)]
  · simp [spent, filterMap_terminates_of_plain (program_plain op)]
  · intro id cs hmem
    rcases mem_append.mp hmem with hold | hnew
    · exact hold
    · exact absurd (program_plain op _ hnew) terminate_not_plain
  · intro t id hleft howned
    obtain ⟨g, hg, hgc⟩ := h.collecting t id hleft howned
    exact ⟨g, mem_append_left _ hg, hgc⟩

/-- In the beginning there are no sessions. -/
theorem inv_initial (intercepts : GoMap String Intercept) :
    Inv intercepts { intercepts := intercepts } [] := by
  have hleft : ∀ t, ¬ Left { intercepts := intercepts } t := by
    rintro t ⟨id, hid, _⟩
    simp [Shared.idOf] at hid
  refine ⟨⟨?_, fun m t h => absurd h (hleft t), fun _ _ _ => rfl⟩,
    ⟨fun id ic h => ⟨h, rfl⟩, fun _ => Nat.zero_le 1, ?_, fun _ _ h => absurd h not_mem_nil⟩,
    fun t _ h => absurd h (hleft t)⟩
  · intro id t h
    simp at h
  · intro id ic h _ hnone
    rw [h] at hnone
    cases hnone

end Keeping

/-! ## Whole runs -/

/-- In a state with the invariant everything is retired once. -/
theorem Inv.retiredOnce {initial : GoMap String Intercept} {p : World}
    (h : Inv initial p.shared p.frames) : RetiredOnce initial p := by
  have hle : ∀ m t, (p.shared.totals.map (·.1)).count (m, t) ≤
      (ledger p.shared p.frames).count (m, t) := by
    intro m t
    rw [ledger, count_append]
    omega
  refine ⟨?_, ?_, ?_⟩
  · intro m t
    have hm := hle m t
    by_cases hleft : Left p.shared t
    · rw [h.counted.left m t hleft] at hm
      exact hm
    · rw [h.counted.present m t hleft] at hm
      omega
  · intro id
    have honce := h.finalizing.once id
    rw [spent, count_append] at honce
    omega
  · intro hidle t hleft
    have hframes : p.frames = [] := hidle
    have hledger : ledger p.shared p.frames = p.shared.totals.map (·.1) := by
      simp [ledger, hframes]
    have hspent : spent p.shared p.frames = p.shared.terminated := by
      simp [spent, hframes]
    refine ⟨fun m => hledger ▸ h.counted.left m t hleft, ?_⟩
    intro id ic hinitial hremoved hsession
    have hnone : p.shared.intercepts.lookup id = none := by
      cases hlookup : p.shared.intercepts.lookup id with
      | none => rfl
      | some ic' =>
        have hic := (h.finalizing.stored id ic' hlookup).1
        rw [hinitial] at hic
        cases hic
        obtain ⟨g, hg, _⟩ := h.collecting t id hleft ⟨ic, hlookup, hremoved, hsession⟩
        rw [hframes] at hg
        cases hg
    exact ⟨hnone, fun htop => hspent ▸ h.finalizing.top id ic hinitial htop hnone⟩

/-- A step that is allowed keeps the invariant. -/
theorem inv_step {initial : GoMap String Intercept} {p p' : World}
    {a : Action Operation Choice} (hp : Inv initial p.shared p.frames) (hallowed : DeleteAllowed p a)
    (hstep : threadStep p a = some p') : Inv initial p'.shared p'.frames := by
  rcases step_cases hstep with ⟨op, rfl, hshared, hframes⟩ |
    ⟨thread, choice, f, fs, others, rfl, htop, hexec, hold, hnew⟩
  · rw [hshared, hframes]
    exact hp.start op
  · refine ((hp.perm hold).exec hexec ?_).perm hnew.symm
    rintro id t rfl
    exact hallowed id t htop

/-- A step adds to the totals what the counters of a session say. -/
theorem addsCounters_step {initial : GoMap String Intercept} {p p' : World}
    {a : Action Operation Choice} (hp : Inv initial p.shared p.frames)
    (hstep : threadStep p a = some p') : AddsCounters p.shared p'.shared := by
  rcases step_cases hstep with ⟨op, rfl, hshared, _⟩ |
    ⟨thread, choice, f, fs, others, rfl, _, hexec, hold, _⟩
  · exact .inl (congrArg Shared.totals hshared)
  · exact (hp.perm hold).addsCounters hexec

/-- **A session is retired once.**  Whatever intercepts there are, along every
run of additions and removals of sessions in which `expireSessions` and
`pruneSessions` delete a session only while it is the one stored under its ID,
nothing is counted or finalized twice, and all is done for the sessions that
have left when no operation is in progress.  What a step adds to a total is the
counter that the session has at that moment. -/
theorem retired_once (intercepts : GoMap String Intercept)
    (actions : List (Action Operation Choice))
    (hmeets : Meets threadStep DeleteAllowed ⟨{ intercepts := intercepts }, []⟩ actions) :
    Always threadStep (RetiredOnce intercepts) ⟨{ intercepts := intercepts }, []⟩ actions ∧
      Meets threadStep (fun p a => ∀ p', threadStep p a = some p' → AddsCounters p.shared p'.shared)
        ⟨{ intercepts := intercepts }, []⟩ actions := by
  have hkeep : ∀ (p : World) a p', Inv intercepts p.shared p.frames → DeleteAllowed p a →
      threadStep p a = some p' → Inv intercepts p'.shared p'.frames := fun _ _ _ => inv_step
  constructor
  · exact always_of_meets (fun p hp => Inv.retiredOnce hp) hkeep (inv_initial intercepts) hmeets
  · refine meets_of_meets hkeep ?_ (inv_initial intercepts) hmeets
    intro p a _ hp _ _ p' hstep
    exact addsCounters_step hp hstep

/-- An intercept with a child, both of session `c`. -/
def oneIntercept : GoMap String Intercept :=
  AList.insert "c:api" { session := "c", children := ["c:api/metrics"] }
    (AList.insert "c:api/metrics" { session := "c" } ∅)

/-- A client with 100 bytes of traffic that has not been heard of since time 0
is expired at time 10.  Another 5 bytes come before they are counted. -/
def expired : List (Action Operation Choice) :=
  [.start (.addClient "c" "default" 0), .run 0 .next,
    .start (.traffic 0 .ingress 100), .run 1 .next,
    .start (.doom (.expired 10)), .run 2 .next, .run 2 (.visit "c"), .run 2 .call, .run 2 .next,
    -- `removeClientSession`
    .run 2 .next, .run 2 (.visit "c:api"), .run 2 .call, .run 2 .next, .run 2 .next, .run 2 .next,
    .run 2 (.visit "c:api/metrics"), .run 2 .next,
    .start (.traffic 0 .egress 5), .run 3 .next,
    .run 2 .next, .run 2 .next, .run 2 .next]

/-- Such a run, in which the session of a client with traffic expires. -/
theorem retired_once_expired :
    Meets threadStep DeleteAllowed ⟨{ intercepts := oneIntercept }, []⟩ expired ∧
      (Runs.run threadStep ⟨{ intercepts := oneIntercept }, []⟩ expired).map
        (fun p => (p.shared.tunnelCounter .ingress, p.shared.tunnelCounter .egress)) =
          some (100, 5) ∧
      Always threadStep (RetiredOnce oneIntercept) ⟨{ intercepts := oneIntercept }, []⟩ expired := by
  have hmeets : Meets threadStep DeleteAllowed ⟨{ intercepts := oneIntercept }, []⟩ expired := by
    refine Meets.cons rfl trivial ?_
    refine Meets.cons rfl (by intro id t h; cases h) ?_
    refine Meets.cons rfl trivial ?_
    refine Meets.cons rfl (by intro id t h; cases h) ?_
    refine Meets.cons rfl trivial ?_
    iterate 3 refine Meets.cons rfl (by intro id t h; cases h) ?_
    -- the session is deleted
    refine Meets.cons rfl (by intro id t h; cases h; rfl) ?_
    iterate 8 refine Meets.cons rfl (by intro id t h; cases h) ?_
    refine Meets.cons rfl trivial ?_
    iterate 4 refine Meets.cons rfl (by intro id t h; cases h) ?_
    trivial
  exact ⟨hmeets, rfl, (retired_once oneIntercept expired hmeets).1⟩

/-- A client with 100 bytes of traffic is visited by `expireSessions`, then
removed by `RemoveSession`, and then deleted and retired by `expireSessions`
as well. -/
def removedAndExpired : List (Action Operation Choice) :=
  [.start (.addClient "c" "default" 0), .run 0 .next,
    .start (.traffic 0 .ingress 100), .run 1 .next,
    .start (.doom (.expired 10)), .run 2 .next, .run 2 (.visit "c"),
    .start (.removeSession "c"), .run 3 .next, .run 3 .next, .run 3 .next, .run 3 .next,
    .run 3 .next,
    .run 2 .call, .run 2 .next, .run 2 .next, .run 2 .next, .run 2 .next, .run 2 .next, .run 2 .next]

/-- The session is counted twice: 200 bytes are added to the total. -/
theorem counted_twice :
    ∃ p, Runs.run threadStep ⟨{}, []⟩ removedAndExpired = some p ∧
      (p.Idle ∧ (p.shared.sessions.map (·.bytes .ingress)) = [100] ∧
        p.shared.tunnelCounter .ingress = 200) ∧ ¬ RetiredOnce ∅ p := by
  refine ⟨_, rfl, ⟨rfl, rfl, rfl⟩, ?_⟩
  intro h
  have hle := h.1 .ingress 0
  revert hle
  decide

end Telepresence.Retirement
