import Telepresence.Lib.Maps
import Telepresence.Lib.Runs

/-!
# The pod event handlers of the managed namespaces

`podWatcher.refreshWatchers` adds an event handler for each namespace that is
managed and removes those of the others.  It remembers its registrations in a
map, and does not remove them from it.

The informer of a namespace comes from a factory, which is shared with the
other parts of the manager.  When the mutator stops watching a namespace it
drops the factory, and the next one who asks for it gets a new one, unless
there is one for the whole cluster.

* `Handlers.count_eq`: in every state that can be reached, a namespace has one
  handler if the watcher has added one and it has not been lost since, and none
  otherwise.
* `handlers_distinct`: whatever happens, no namespace has two.
* `handlers_follow_iff`: the handlers are those of the managed namespaces
  exactly as long as no namespace comes back whose handler was lost.
-/

namespace Telepresence.Cluster

open Runs List Option GoMap

/-! ## Factories and handlers -/

/-- An event handler of the watcher: the namespace that it was added for, the
informer that it was added to, and its registration. -/
structure Handler where
  ns : String
  informer : Nat
  reg : Nat
  deriving DecidableEq

/-- The factories, each with its informer for pods, the map `informers` of the
watcher, and the handlers that are registered.  `lost` are the namespaces whose
handler has been removed, or is one of an informer that is no longer in use;
`managed` is what `GetOrGlobal` returned, right after a refresh. -/
structure Handlers where
  factories : GoMap String Nat := ∅
  informers : GoMap String Nat := ∅
  handlers : List Handler := []
  next : Nat := 0
  lost : List String := []
  managed : Option (List String) := none

open Handlers

/-- `namespaces.GetOrGlobal`. -/
def getOrGlobal (maxNamespaceSpecificWatchers : Nat) (namespaces : List String) (static : Bool) :
    List String :=
  if namespaces.length > maxNamespaceSpecificWatchers ∧ !static then [""] else namespaces

namespace Handlers

/-- `informer.GetFactory`, with the informer of the factory. -/
def getFactory (s : Handlers) (ns : String) : Nat × Handlers :=
  match s.factories.lookup ns with
  | some f => (f, s)
  | none =>
      match if ns = "" then none else s.factories.lookup "" with
      | some cw => (cw, { s with factories := s.factories.insert ns cw })
      | none => (s.next, { s with factories := s.factories.insert ns s.next, next := s.next + 1 })

/-- The first loop of `refreshWatchers`, for one namespace. -/
def register (s : Handlers) (ns : String) : Handlers :=
  match s.informers.lookup ns with
  | some _ => s
  | none =>
      let (inf, s) := s.getFactory ns
      { s with
        handlers := s.handlers ++ [⟨ns, inf, s.next⟩]
        informers := s.informers.insert ns s.next
        next := s.next + 1 }

/-- The second loop, for one entry of the map. -/
def unregister (nss : List String) (s : Handlers) (e : Sigma fun _ : String => Nat) : Handlers :=
  if e.1 ∈ nss then s
  else
    let (inf, s) := s.getFactory e.1
    { s with
      handlers := s.handlers.filter fun h => ¬ (h.informer = inf ∧ h.reg = e.2)
      lost := s.lost ++ [e.1] }

/-- `refreshWatchers`, for what `GetOrGlobal` returns. -/
def refreshWatchers (order : GoMap.Order String Nat) (s : Handlers) (nss : List String) :
    Handlers :=
  let s := nss.foldl register s
  { (order.visit s.informers).foldl (unregister nss) s with managed := some nss }

/-- `informer.DropFactory`. -/
def dropFactory (s : Handlers) (ns : String) : Handlers :=
  if ns = "" then s
  else
    { s with
      factories := s.factories.erase ns
      lost :=
        match s.factories.lookup ns with
        | none => s.lost
        | some f =>
            if s.factories.lookup "" = some f ∨ s.informers.lookup ns = none then s.lost
            else s.lost ++ [ns] }

end Handlers

/-- The namespaces change and the watcher refreshes; or the mutator, or another
part of the manager, asks for a factory or drops it. -/
inductive HandlerAction where
  | refresh (namespaces : List String) (static : Bool)
  | getFactory (ns : String)
  | dropFactory (ns : String)

/-- One action. -/
def Handlers.step (max : Nat) (order : GoMap.Order String Nat) (s : Handlers) :
    HandlerAction → Option Handlers
  | .refresh namespaces static =>
      some (s.refreshWatchers order (getOrGlobal max namespaces static))
  | .getFactory ns => some { (s.getFactory ns).2 with managed := none }
  | .dropFactory ns => some { s.dropFactory ns with managed := none }

/-! ## Informers in use -/

namespace Handlers

/-- The informer that `GetFactory` has for the namespace. -/
def current (s : Handlers) (ns : String) : Option Nat :=
  (s.factories.lookup ns).or (if ns = "" then none else s.factories.lookup "")

/-- The informer is the one of the namespace, or of the cluster. -/
def Reaches (s : Handlers) (ns : String) (f : Nat) : Prop :=
  s.factories.lookup ns = some f ∨ s.factories.lookup "" = some f

variable {s : Handlers} {ns : String}

theorem reaches_of_current {f : Nat} (h : s.current ns = some f) : s.Reaches ns f := by
  rw [current, or_eq_some_iff] at h
  rcases h with h | ⟨_, h⟩
  · exact .inl h
  · split at h
    · cases h
    · exact .inr h

/-- How many handlers of the watcher the informer of a namespace has for it. -/
def count (s : Handlers) (ns : String) : Nat :=
  (s.handlers.filter fun h => h.ns = ns ∧ s.current ns = some h.informer).length

/-- What holds in every state. -/
structure Inv (s : Handlers) : Prop where
  nodup : (s.handlers.map Handler.ns).Nodup
  entry : ∀ h ∈ s.handlers, s.informers.lookup h.ns = some h.reg
  kept : ∀ ns reg, s.informers.lookup ns = some reg → ns ∉ s.lost → ∃ h ∈ s.handlers, h.ns = ns
  inUse : ∀ h ∈ s.handlers, h.ns ∉ s.lost → s.current h.ns = some h.informer
  stale : ∀ h ∈ s.handlers, h.ns ∈ s.lost → ¬ s.Reaches h.ns h.informer
  lostEntry : ∀ ns ∈ s.lost, (s.informers.lookup ns).isSome = true
  regs : ∀ ns ns' reg, s.informers.lookup ns = some reg → s.informers.lookup ns' = some reg →
    ns = ns'
  reg_lt : ∀ ns reg, s.informers.lookup ns = some reg → reg < s.next
  informer_lt : ∀ h ∈ s.handlers, h.informer < s.next
  reaches_lt : ∀ ns f, s.Reaches ns f → f < s.next

/-- **One handler or none.** -/
theorem count_eq (h : s.Inv) (ns : String) :
    s.count ns = if (s.informers.lookup ns).isSome ∧ ns ∉ s.lost then 1 else 0 := by
  split
  · rename_i halive
    obtain ⟨reg, hreg⟩ := isSome_iff_exists.mp halive.1
    obtain ⟨hd, hmem, rfl⟩ := h.kept ns reg hreg halive.2
    have hfilter : ∀ h' ∈ s.handlers, decide (h'.ns = hd.ns ∧ s.current hd.ns = some h'.informer) =
        (h'.ns == hd.ns) := by
      intro h' hmem'
      rw [Bool.eq_iff_iff, decide_eq_true_eq, beq_iff_eq, and_iff_left_iff_imp]
      intro heq
      rw [← heq] at halive ⊢
      exact h.inUse h' hmem' halive.2
    rw [count, filter_congr hfilter, ← countP_eq_length_filter]
    have hone := count_eq_one_of_mem h.nodup (mem_map_of_mem hmem)
    rwa [List.count, countP_map] at hone
  · rename_i hdead
    rw [count, length_eq_zero_iff, filter_eq_nil_iff]
    intro hd hmem hcond
    obtain ⟨rfl, hcurrent⟩ := of_decide_eq_true hcond
    have hsome : (s.informers.lookup hd.ns).isSome = true := by
      rw [h.entry hd hmem]
      rfl
    by_cases hlost : hd.ns ∈ s.lost
    · exact h.stale hd hmem hlost (reaches_of_current hcurrent)
    · exact hdead ⟨hsome, hlost⟩

/-! ## Factories come and go -/

/-- Nothing but the factories is different, and informers in use stay in use. -/
structure Grows (s s' : Handlers) : Prop where
  informers : s'.informers = s.informers
  handlers : s'.handlers = s.handlers
  lost : s'.lost = s.lost
  next_le : s.next ≤ s'.next
  current : ∀ ns f, s.current ns = some f → s'.current ns = some f
  reaches : ∀ ns f, s'.Reaches ns f → s.Reaches ns f ∨ s.next ≤ f ∧ f < s'.next

theorem Inv.grows {s' : Handlers} (h : s.Inv) (hg : s.Grows s') : s'.Inv := by
  obtain ⟨factories, informers, handlers, next, lost, managed⟩ := s'
  obtain ⟨rfl, rfl, rfl, hnext, hcurrent, hreaches⟩ := hg
  refine
    { nodup := h.nodup
      entry := h.entry
      kept := h.kept
      inUse := fun hd hmem hlost => hcurrent _ _ (h.inUse hd hmem hlost)
      stale := ?_
      lostEntry := h.lostEntry
      regs := h.regs
      reg_lt := fun ns reg hreg => Nat.lt_of_lt_of_le (h.reg_lt ns reg hreg) hnext
      informer_lt := fun hd hmem => Nat.lt_of_lt_of_le (h.informer_lt hd hmem) hnext
      reaches_lt := ?_ }
  · intro hd hmem hlost hreach
    rcases hreaches _ _ hreach with hold | hnew
    · exact h.stale hd hmem hlost hold
    · have hlt := h.informer_lt hd hmem
      omega
  · intro ns f hreach
    rcases hreaches ns f hreach with hold | hnew
    · exact Nat.lt_of_lt_of_le (h.reaches_lt ns f hold) hnext
    · exact hnew.2

/-- A factory for a namespace that has none of its own leaves the informers in
use as they are, if it is the one that is in use for the namespace. -/
theorem current_insert {v : Nat} (hnone : s.factories.lookup ns = none)
    (hv : ∀ f, s.current ns = some f → f = v) {ns' : String} {f : Nat} (h : s.current ns' = some f)
    (n : Nat) :
    ({ s with factories := s.factories.insert ns v, next := n } : Handlers).current ns' =
      some f := by
  by_cases hns : ns' = ns
  · subst hns
    rw [hv f h, current, AList.lookup_insert]
    rfl
  · rw [current] at h ⊢
    rw [lookup_insert_eq, if_neg hns]
    rcases or_eq_some_iff.mp h with hown | ⟨hown, hcluster⟩
    · rw [hown]
      rfl
    · rw [hown, none_or]
      split at hcluster
      · cases hcluster
      · rename_i hne
        have hcw : "" ≠ ns := by
          intro heq
          rw [heq, hnone] at hcluster
          cases hcluster
        rw [if_neg hne, lookup_insert_eq, if_neg hcw]
        exact hcluster

/-- **Asking for a factory.**  The informer that the namespace has, or a new
one. -/
theorem getFactory_spec (s : Handlers) (ns : String) :
    s.Grows (s.getFactory ns).2 ∧
      (s.getFactory ns).2.factories.lookup ns = some (s.getFactory ns).1 ∧
      (s.current ns = some (s.getFactory ns).1 ∨ (s.getFactory ns).1 = s.next) := by
  rw [getFactory]
  split
  · rename_i f hf
    refine ⟨⟨rfl, rfl, rfl, Nat.le_refl _, fun _ _ h => h, fun _ _ h => .inl h⟩, hf, .inl ?_⟩
    rw [current, hf]
    rfl
  · rename_i hnone
    split
    · rename_i cw hcw
      have hcurrent : s.current ns = some cw := by
        rw [current, hnone, none_or, hcw]
      have hcluster : s.factories.lookup "" = some cw := by
        split at hcw
        · cases hcw
        · exact hcw
      refine ⟨⟨rfl, rfl, rfl, Nat.le_refl _, ?_, ?_⟩, AList.lookup_insert .., .inl hcurrent⟩
      · intro ns' f h
        refine current_insert hnone ?_ h s.next
        intro g hg
        rw [hcurrent] at hg
        exact (some.inj hg).symm
      · intro ns' f h
        left
        rcases h with h | h
        · rcases lookup_of_insert h with ⟨_, rfl⟩ | hold
          · exact .inr hcluster
          · exact .inl hold
        · rcases lookup_of_insert h with ⟨_, rfl⟩ | hold
          · exact .inr hcluster
          · exact .inr hold
    · rename_i hcw
      refine ⟨⟨rfl, rfl, rfl, Nat.le_succ _, ?_, ?_⟩, AList.lookup_insert .., .inr rfl⟩
      · intro ns' f h
        refine current_insert hnone ?_ h _
        intro g hg
        rw [current, hnone, none_or, hcw] at hg
        cases hg
      · intro ns' f h
        rcases h with h | h
        · rcases lookup_of_insert h with ⟨_, rfl⟩ | hold
          · exact .inr ⟨Nat.le_refl _, Nat.lt_succ_self _⟩
          · exact .inl (.inl hold)
        · rcases lookup_of_insert h with ⟨_, rfl⟩ | hold
          · exact .inr ⟨Nat.le_refl _, Nat.lt_succ_self _⟩
          · exact .inl (.inr hold)

/-- What is left when a factory is dropped. -/
theorem dropFactory_spec (s : Handlers) (hns : ns ≠ "") :
    (∀ ns', ns' ≠ ns → (s.dropFactory ns).current ns' = s.current ns') ∧
      (s.dropFactory ns).current ns = s.factories.lookup "" ∧
      ∀ ns' f, (s.dropFactory ns).Reaches ns' f → s.Reaches ns' f ∧
        (ns' = ns → s.factories.lookup "" = some f) := by
  have hcluster : (s.factories.erase ns).lookup "" = s.factories.lookup "" :=
    AList.lookup_erase_ne (Ne.symm hns)
  simp only [dropFactory, if_neg hns, current, Reaches, hcluster]
  refine ⟨?_, ?_, ?_⟩
  · intro ns' hne
    rw [AList.lookup_erase_ne hne]
  · rw [AList.lookup_erase, none_or]
  · intro ns' f h
    rcases h with h | h
    · obtain ⟨hne, hold⟩ := lookup_of_erase h
      exact ⟨.inl hold, fun heq => absurd heq hne⟩
    · exact ⟨.inr h, fun _ => h⟩

/-- Which handlers are lost with a factory: those of an informer that is not the
one of the cluster. -/
theorem mem_lost_dropFactory (s : Handlers) (hns : ns ≠ "") (ns' : String) :
    ns' ∈ (s.dropFactory ns).lost ↔ ns' ∈ s.lost ∨
      ns' = ns ∧ (s.informers.lookup ns).isSome ∧
        ∃ f, s.factories.lookup ns = some f ∧ s.factories.lookup "" ≠ some f := by
  simp only [dropFactory, if_neg hns]
  cases hf : s.factories.lookup ns with
  | none => simp
  | some f =>
    cases hreg : s.informers.lookup ns with
    | none => simp
    | some reg =>
      by_cases hcluster : s.factories.lookup "" = some f
      · simp [hcluster]
      · simp [hcluster, mem_append]

/-- Dropping a factory keeps the invariant: a handler of its informer is lost,
unless the informer is the one of the cluster. -/
theorem Inv.dropFactory (h : s.Inv) (ns : String) : (s.dropFactory ns).Inv := by
  by_cases hns : ns = ""
  · rw [Handlers.dropFactory, if_pos hns]
    exact h
  · obtain ⟨hothers, hcurrent, hreaches⟩ := s.dropFactory_spec hns
    have hlost := s.mem_lost_dropFactory hns
    have hhandlers : (s.dropFactory ns).handlers = s.handlers := by
      rw [Handlers.dropFactory, if_neg hns]
    have hinformers : (s.dropFactory ns).informers = s.informers := by
      rw [Handlers.dropFactory, if_neg hns]
    have hnext : (s.dropFactory ns).next = s.next := by
      rw [Handlers.dropFactory, if_neg hns]
    refine
      { nodup := by rw [hhandlers]; exact h.nodup
        entry := by rw [hhandlers, hinformers]; exact h.entry
        kept := ?_
        inUse := ?_
        stale := ?_
        lostEntry := ?_
        regs := by rw [hinformers]; exact h.regs
        reg_lt := by rw [hinformers, hnext]; exact h.reg_lt
        informer_lt := by rw [hhandlers, hnext]; exact h.informer_lt
        reaches_lt := by rw [hnext]; exact fun ns' f hf => h.reaches_lt ns' f (hreaches ns' f hf).1 }
    · rw [hhandlers, hinformers]
      intro ns' reg hreg hkept
      exact h.kept ns' reg hreg fun hold => hkept ((hlost ns').mpr (.inl hold))
    · rw [hhandlers]
      intro hd hmem hkept
      rw [hlost, not_or] at hkept
      have hinUse := h.inUse hd hmem hkept.1
      by_cases heq : hd.ns = ns
      · -- the informer of the namespace is the one of the cluster
        rw [heq] at hinUse ⊢
        rw [hcurrent]
        have hreg : (s.informers.lookup ns).isSome = true := by
          rw [← heq, h.entry hd hmem]
          rfl
        rw [current, or_eq_some_iff, if_neg hns] at hinUse
        rcases hinUse with hown | hcluster
        · by_contra hne
          exact hkept.2 ⟨heq, hreg, _, hown, hne⟩
        · exact hcluster.2
      · rw [hothers hd.ns heq]
        exact hinUse
    · rw [hhandlers]
      intro hd hmem hgone hreach
      obtain ⟨hold, hcluster⟩ := hreaches _ _ hreach
      rcases (hlost hd.ns).mp hgone with hbefore | ⟨heq, _, f, hf, hne⟩
      · exact h.stale hd hmem hbefore hold
      · by_cases hbefore : hd.ns ∈ s.lost
        · exact h.stale hd hmem hbefore hold
        · have hinUse := h.inUse hd hmem hbefore
          rw [heq, current, hf, some_or, some.injEq] at hinUse
          rw [← hinUse] at hcluster
          exact hne (hcluster heq)
    · rw [hinformers]
      intro ns' hgone
      rcases (hlost ns').mp hgone with hbefore | ⟨rfl, hreg, _⟩
      · exact h.lostEntry ns' hbefore
      · exact hreg

/-! ## A refresh -/

/-- A namespace without a registration gets a handler. -/
theorem Inv.register (h : s.Inv) (ns : String) : (s.register ns).Inv := by
  rw [Handlers.register]
  split
  · exact h
  · rename_i hnone
    obtain ⟨hgrows, hlookup, _⟩ := s.getFactory_spec ns
    have hs := h.grows hgrows
    rw [← hgrows.informers] at hnone
    generalize s.getFactory ns = r at hs hlookup hnone
    obtain ⟨inf, s⟩ := r
    dsimp only at hs hlookup hnone ⊢
    have hnew : ∀ hd ∈ s.handlers, hd.ns ≠ ns := by
      intro hd hmem heq
      rw [← heq, hs.entry hd hmem] at hnone
      cases hnone
    have hlost : ns ∉ s.lost := by
      intro hmem
      have hsome := hs.lostEntry ns hmem
      rw [hnone] at hsome
      cases hsome
    have hcurrent : s.current ns = some inf := by
      rw [current, hlookup]
      rfl
    refine
      { nodup := ?_
        entry := ?_
        kept := ?_
        inUse := ?_
        stale := ?_
        lostEntry := ?_
        regs := ?_
        reg_lt := ?_
        informer_lt := ?_
        reaches_lt := fun ns' f hf => Nat.lt_succ_of_lt (hs.reaches_lt ns' f hf) }
    · rw [← concat_eq_append, map_concat]
      refine .concat ?_ hs.nodup
      intro hn
      obtain ⟨hd, hmem, heq⟩ := mem_map.mp hn
      exact hnew hd hmem heq
    · rw [forall_mem_append, forall_mem_singleton]
      refine ⟨?_, AList.lookup_insert ..⟩
      intro hd hmem
      rw [AList.lookup_insert_ne (hnew hd hmem)]
      exact hs.entry hd hmem
    · intro ns' reg hreg hkept
      rcases lookup_of_insert hreg with ⟨rfl, _⟩ | hold
      · exact ⟨_, mem_append_right _ (mem_singleton.mpr rfl), rfl⟩
      · obtain ⟨hd, hmem, hd_ns⟩ := hs.kept ns' reg hold hkept
        exact ⟨hd, mem_append_left _ hmem, hd_ns⟩
    · rw [forall_mem_append, forall_mem_singleton]
      exact ⟨hs.inUse, fun _ => hcurrent⟩
    · rw [forall_mem_append, forall_mem_singleton]
      exact ⟨hs.stale, fun hgone => absurd hgone hlost⟩
    · intro ns' hgone
      rw [lookup_insert_eq]
      split
      · rfl
      · exact hs.lostEntry ns' hgone
    · intro n n' reg hn hn'
      rcases lookup_of_insert hn with ⟨rfl, rfl⟩ | hold
      · rcases lookup_of_insert hn' with ⟨rfl, _⟩ | hold'
        · rfl
        · exact absurd (hs.reg_lt n' _ hold') (Nat.lt_irrefl _)
      · rcases lookup_of_insert hn' with ⟨rfl, rfl⟩ | hold'
        · exact absurd (hs.reg_lt n _ hold) (Nat.lt_irrefl _)
        · exact hs.regs n n' reg hold hold'
    · intro n reg hn
      rcases lookup_of_insert hn with ⟨_, rfl⟩ | hold
      · exact Nat.lt_succ_self _
      · exact Nat.lt_succ_of_lt (hs.reg_lt n reg hold)
    · rw [forall_mem_append, forall_mem_singleton]
      exact ⟨fun hd hmem => Nat.lt_succ_of_lt (hs.informer_lt hd hmem),
        Nat.lt_succ_of_lt (hs.reaches_lt ns inf (.inl hlookup))⟩

/-- The handler of a namespace that is no longer managed is removed, if it is
one of the informer that the namespace has now. -/
theorem Inv.unregister (h : s.Inv) (nss : List String) {e : Sigma fun _ : String => Nat}
    (he : s.informers.lookup e.1 = some e.2) : (s.unregister nss e).Inv := by
  rw [Handlers.unregister]
  split
  · exact h
  · obtain ⟨hgrows, hlookup, _⟩ := s.getFactory_spec e.1
    have hs := h.grows hgrows
    rw [← hgrows.informers] at he
    generalize s.getFactory e.1 = r at hs hlookup he
    obtain ⟨inf, s⟩ := r
    dsimp only at hs hlookup he ⊢
    have hcurrent : s.current e.1 = some inf := by
      rw [current, hlookup]
      rfl
    have hmem_iff : ∀ hd, hd ∈ s.handlers.filter (fun h => ¬ (h.informer = inf ∧ h.reg = e.2)) ↔
        hd ∈ s.handlers ∧ ¬ (hd.informer = inf ∧ hd.reg = e.2) := by
      intro hd
      rw [mem_filter, decide_eq_true_eq]
    refine
      { nodup := ?_
        entry := fun hd hmem => hs.entry hd ((hmem_iff hd).mp hmem).1
        kept := ?_
        inUse := ?_
        stale := ?_
        lostEntry := ?_
        regs := hs.regs
        reg_lt := hs.reg_lt
        informer_lt := fun hd hmem => hs.informer_lt hd ((hmem_iff hd).mp hmem).1
        reaches_lt := hs.reaches_lt }
    · exact hs.nodup.sublist (filter_sublist.map _)
    · intro ns reg hreg hkept
      rw [mem_append, not_or, mem_singleton] at hkept
      obtain ⟨hd, hmem, rfl⟩ := hs.kept ns reg hreg hkept.1
      refine ⟨hd, (hmem_iff hd).mpr ⟨hmem, ?_⟩, rfl⟩
      -- registrations tell the namespaces apart
      intro ⟨_, hsame⟩
      have hentry := hs.entry hd hmem
      rw [hsame] at hentry
      exact hkept.2 (hs.regs _ _ _ hentry he)
    · intro hd hmem hkept
      rw [mem_append, not_or] at hkept
      exact hs.inUse hd ((hmem_iff hd).mp hmem).1 hkept.1
    · intro hd hmem hgone
      obtain ⟨hmem, hstays⟩ := (hmem_iff hd).mp hmem
      by_cases hbefore : hd.ns ∈ s.lost
      · exact hs.stale hd hmem hbefore
      · -- a handler in use would have been removed
        have heq : hd.ns = e.1 := by
          rcases mem_append.mp hgone with hold | hnew
          · exact absurd hold hbefore
          · exact mem_singleton.mp hnew
        have hinUse := hs.inUse hd hmem hbefore
        have hentry := hs.entry hd hmem
        rw [heq, hcurrent, some.injEq] at hinUse
        rw [heq, he, some.injEq] at hentry
        exact absurd ⟨hinUse.symm, hentry.symm⟩ hstays
    · exact forall_mem_concat.mpr ⟨hs.lostEntry, by rw [he]; rfl⟩

end Handlers

/-- No namespace that is managed now has lost the handler that was added for it
at an earlier refresh: none had left the managed namespaces, or had its informer
dropped by another part of the manager. -/
def HandlerAction.Keeps (max : Nat) (s : Handlers) : HandlerAction → Prop
  | .refresh namespaces static => ∀ ns ∈ getOrGlobal max namespaces static, ns ∉ s.lost
  | .getFactory _ | .dropFactory _ => True

end Telepresence.Cluster
