import Telepresence.Forwarder
import Telepresence.Lib.Threads

/-!
# A connection on its way through the TCP forwarder

The forwarder of `Forwarder` as threads.  Whether a connection is inspected
request by request or handed over as a whole is decided when it is accepted,
by the listener switch.  Which intercepts and wiretaps get it as a whole is
looked up later, by `Forward`, and what they are is read later still, when the
stream to the client is created.  In the meantime the intercepts may be
replaced: `reconcile` puts the new `InterceptInfo` into the controllers that
are there.

The controllers are numbered, as connections keep references to them.

* `calls_simulate`: undisturbed, `SetIntercepting` and `SetWiretapping` are those
  of `Forwarder`.
* `handed_unfiltered`: nothing with filters gets a connection as a whole along
  a run in which connections are accepted while the switch is right, and sets
  with filters come while no connection is on its way.
-/

namespace Telepresence.TcpForwarding

open Fwd Threads Runs List GoMap

/-- `interceptControllerMap`, with the numbers of the controllers. -/
abbrev ControllerMap := GoMap String Nat

namespace ControllerMap

/-- `sorted`: the controllers, sorted by ID. -/
def sorted (im : ControllerMap) : List Nat := (im.keys.insertionSort (· ≤ ·)).filterMap im.lookup

/-- `global`. -/
def global (im : ControllerMap) : Except String (Option Nat) :=
  match im.entries with
  | [] => .ok none
  | [e] => .ok (some e.2)
  | _ => .error "multiple intercepts found when requesting the global intercept"

/-- `isHTTP`. -/
def isHTTP (controllers : List InterceptInfo) (im : ControllerMap) : Bool :=
  im.entries.any fun e => (controllers[e.2]?).any Fwd.isHTTP

end ControllerMap

/-- The first loop of `reconcile`: the controller of an ID gets the new
information, or a controller is made. -/
def reconcileLoop : List InterceptInfo → List InterceptInfo × ControllerMap →
    List InterceptInfo × ControllerMap
  | [], s => s
  | ii :: iis, (controllers, im) =>
      match im.lookup ii.id with
      | some ic => reconcileLoop iis (controllers.set ic ii, im)
      | none => reconcileLoop iis (controllers ++ [ii], im.insert ii.id controllers.length)

/-- `reconcile`. -/
def reconcile (controllers : List InterceptInfo) (im : ControllerMap) (iis : List InterceptInfo) :
    List InterceptInfo × ControllerMap :=
  let (controllers, im) := reconcileLoop iis (controllers, im)
  (controllers, deleteUnless (fun id => id ∈ iis.map (·.id)) im.keys im)

/-- `fwd.tcp`: the controllers that there have been, its two maps, the switch
once `Serve` has made it, and to what connections have been handed. -/
structure Shared where
  controllers : List InterceptInfo := []
  intercepts : ControllerMap := ∅
  wiretaps : ControllerMap := ∅
  listenerSwitch : Option Bool := none
  accepting : Bool := false
  targetPort : Nat := 0
  handed : List InterceptInfo := []

/-- `tcp.IsHTTP`. -/
def Shared.isHTTP (sh : Shared) : Bool :=
  sh.intercepts.isHTTP sh.controllers || sh.wiretaps.isHTTP sh.controllers

/-- What a thread has still to do. -/
inductive Frame where
  | setIntercepting (infos : List InterceptInfo)
  | setWiretapping (infos : List InterceptInfo)
  | setListenerSwitch
  | serve
  | startAccepting
  | accept
  | forward
  | handing (controllers : List Nat)

/-- What is left open in a step: nothing, to which controller a connection or
a tap of it is handed next, or for which one there is no stream. -/
inductive Choice where
  | next
  | hand (i : Nat)
  | fail (i : Nat)

/-- Execute a frame. -/
def exec (sh : Shared) : Frame → Choice → Option (Shared × List Frame)
  | .setIntercepting infos, .next =>
      let (controllers, intercepts) := reconcile sh.controllers sh.intercepts infos
      some ({ sh with controllers := controllers, intercepts := intercepts },
        [.setListenerSwitch])
  | .setWiretapping infos, .next =>
      let (controllers, wiretaps) := reconcile sh.controllers sh.wiretaps infos
      some ({ sh with controllers := controllers, wiretaps := wiretaps }, [.setListenerSwitch])
  | .setListenerSwitch, .next =>
      some ({ sh with listenerSwitch := sh.listenerSwitch.map fun _ => sh.isHTTP }, [])
  -- `Serve`
  | .serve, .next =>
      some ({ sh with listenerSwitch := some false }, [.setListenerSwitch, .startAccepting])
  | .startAccepting, .next => some ({ sh with accepting := true }, [])
  -- `listenerSwitch.Serve`, for one connection; the secondary listener's
  -- connections are inspected request by request
  | .accept, .next =>
      if sh.accepting then
        if sh.listenerSwitch = some true then some (sh, []) else some (sh, [.forward])
      else none
  -- `Forward`
  | .forward, .next =>
      match sh.intercepts.global with
      | .error _ => some (sh, [])
      | .ok intercept =>
          let wtIntercepts := if sh.targetPort > 0 then sh.wiretaps.sorted else []
          some (sh, [.handing (intercept.toList ++ wtIntercepts)])
  -- `interceptConn`, in any order
  | .handing ics, .hand i =>
      match (ics[i]?).bind (sh.controllers[·]?) with
      | none => none
      | some ii => some ({ sh with handed := ii :: sh.handed }, [.handing (ics.eraseIdx i)])
  | .handing ics, .fail i => some (sh, [.handing (ics.eraseIdx i)])
  | .handing [], .next => some (sh, [])
  | _, _ => none

/-- The operations. -/
inductive Operation where
  | setIntercepting (infos : List InterceptInfo)
  | setWiretapping (infos : List InterceptInfo)
  | serve
  | accept

/-- The frames of an operation. -/
def program : Operation → List Frame
  | .setIntercepting infos => [.setIntercepting infos]
  | .setWiretapping infos => [.setWiretapping infos]
  | .serve => [.serve]
  | .accept => [.accept]

/-- The forwarder with its threads. -/
abbrev World := Pool Shared Frame

/-- A step of the forwarder with its threads. -/
abbrev threadStep : World → Action Operation Choice → Option World := step program exec

/-! ## Conditions -/

/-- A connection has been accepted and still has to be handed over. -/
def Frame.InFlight : Frame → Prop
  | .forward => True
  | .handing ics => ics ≠ []
  | _ => False

/-- Intercepts or wiretaps with filters are set only while no connection is in
flight, and a connection is accepted for the TCP path only while there are
none. -/
def Frame.Allowed (sh : Shared) (frames : List Frame) : Frame → Prop
  | .setIntercepting infos | .setWiretapping infos =>
      (∀ ii ∈ infos, Fwd.isHTTP ii = false) ∨ ∀ f ∈ frames, ¬ f.InFlight
  | .accept => sh.listenerSwitch = some true ∨ sh.isHTTP = false
  | _ => True

/-- The step of a thread is allowed. -/
def HandAllowed (p : World) : Action Operation Choice → Prop
  | .start _ => True
  | .run thread _ => ∀ f, p.top thread = some f → f.Allowed p.shared p.frames

/-! ## Reconciling -/

/-- The controller has no filters. -/
def Clean (controllers : List InterceptInfo) (ic : Nat) : Prop :=
  ∀ ii, controllers[ic]? = some ii → Fwd.isHTTP ii = false

/-- The loop keeps the entries that are there, and what it puts into a
controller, in any case that of an ID which it is given, is one of the
intercepts. -/
theorem reconcileLoop_spec (iis controllers : List InterceptInfo) (im : ControllerMap) :
    (∀ id ic, im.lookup id = some ic →
        (reconcileLoop iis (controllers, im)).2.lookup id = some ic) ∧
      (∀ (ic : Nat) ii, (reconcileLoop iis (controllers, im)).1[ic]? = some ii →
        ii ∈ iis ∨ controllers[ic]? = some ii) ∧
      ∀ id ∈ iis.map (·.id), ∀ (ic : Nat) ii,
        (reconcileLoop iis (controllers, im)).2.lookup id = some ic →
        (reconcileLoop iis (controllers, im)).1[ic]? = some ii → ii ∈ iis := by
  induction iis generalizing controllers im with
  | nil => simp [reconcileLoop]
  | cons ii iis ih =>
    rw [reconcileLoop]
    cases hlook : im.lookup ii.id with
    | some ic =>
      obtain ⟨hkept, hput, hown⟩ := ih (controllers.set ic ii) im
      simp only [getElem?_set] at hput
      grind
    | none =>
      obtain ⟨hkept, hput, hown⟩ := ih (controllers ++ [ii]) (im.insert ii.id controllers.length)
      simp only [lookup_insert_eq, getElem?_append] at hkept hput
      grind

variable {controllers : List InterceptInfo} {ic : Nat} {ii : InterceptInfo}

/-- Reconciling with intercepts that have no filters leaves none with
filters in the map. -/
theorem reconcile_clean {iis : List InterceptInfo} (hiis : ∀ ii ∈ iis, Fwd.isHTTP ii = false)
    (controllers : List InterceptInfo) (im : ControllerMap) :
    (∀ ic, Clean controllers ic → Clean (reconcile controllers im iis).1 ic) ∧
      ∀ id ic, (reconcile controllers im iis).2.lookup id = some ic →
        Clean (reconcile controllers im iis).1 ic := by
  obtain ⟨-, hput, hown⟩ := reconcileLoop_spec iis controllers im
  constructor
  · intro ic hclean ii hii
    rcases hput ic ii hii with hmem | hold
    · exact hiis ii hmem
    · exact hclean ii hold
  · intro id ic hic ii hii
    simp only [reconcile, lookup_deleteUnless_keys] at hic
    split at hic
    · rename_i hmem
      exact hiis ii (hown id (of_decide_eq_true hmem) ic ii hic hii)
    · cases hic

/-! ## The invariant -/

/-- Neither an intercept nor a wiretap has filters. -/
def Shared.Unfiltered (sh : Shared) : Prop :=
  (∀ id ic, sh.intercepts.lookup id = some ic → Clean sh.controllers ic) ∧
    ∀ id ic, sh.wiretaps.lookup id = some ic → Clean sh.controllers ic

variable {im : ControllerMap}

theorem clean_of_isHTTP (h : im.isHTTP controllers = false) {id : String}
    (hic : im.lookup id = some ic) : Clean controllers ic := by
  intro ii hii
  have hentry := any_eq_false.mp h ⟨id, ic⟩ (mem_entries_iff.mpr hic)
  rw [hii] at hentry
  exact Bool.not_eq_true _ |>.mp hentry

variable {sh : Shared}

theorem unfiltered_of_isHTTP (h : sh.isHTTP = false) : sh.Unfiltered := by
  obtain ⟨hintercepts, hwiretaps⟩ := Bool.or_eq_false_iff.mp h
  exact ⟨fun _ _ => clean_of_isHTTP hintercepts, fun _ _ => clean_of_isHTTP hwiretaps⟩

/-- While a connection is in flight nothing has filters; nothing that is going
to get a connection has filters, and nothing that got one had any. -/
structure Inv (sh : Shared) (frames : List Frame) : Prop where
  handed : ∀ ii ∈ sh.handed, Fwd.isHTTP ii = false
  unfiltered : (∃ f ∈ frames, f.InFlight) → sh.Unfiltered
  handing : ∀ ics, .handing ics ∈ frames → ∀ ic ∈ ics, Clean sh.controllers ic

variable {frames : List Frame}

theorem Inv.perm {frames' : List Frame} (h : Inv sh frames) (hperm : frames.Perm frames') :
    Inv sh frames' := by
  refine ⟨h.handed, ?_, ?_⟩
  · rintro ⟨f, hf, hflight⟩
    exact h.unfiltered ⟨f, hperm.mem_iff.mpr hf, hflight⟩
  · intro ics hics
    exact h.handing ics (hperm.mem_iff.mpr hics)

variable {sh' : Shared} {f : Frame} {fs others : List Frame}

/-- A frame that has nothing to do with connections comes and goes. -/
theorem Inv.replace (h : Inv sh (f :: others)) (hhanded : sh'.handed = sh.handed)
    (hcontrollers : sh'.controllers = sh.controllers) (hintercepts : sh'.intercepts = sh.intercepts)
    (hwiretaps : sh'.wiretaps = sh.wiretaps) (hflight : ∀ g ∈ fs, g.InFlight → f.InFlight)
    (hfs : ∀ ics, .handing ics ∈ fs → ∀ ic ∈ ics, Clean sh.controllers ic) :
    Inv sh' (fs ++ others) := by
  have hunfiltered : sh'.Unfiltered ↔ sh.Unfiltered := by
    unfold Shared.Unfiltered
    rw [hcontrollers, hintercepts, hwiretaps]
  refine ⟨by rw [hhanded]; exact h.handed, ?_, ?_⟩
  · rintro ⟨g, hg, hin⟩
    rw [hunfiltered]
    rcases mem_append.mp hg with hg | hg
    · exact h.unfiltered ⟨f, mem_cons_self, hflight g hg hin⟩
    · exact h.unfiltered ⟨g, mem_cons_of_mem f hg, hin⟩
  · intro ics hics ic hic
    rw [hcontrollers]
    rcases mem_append.mp hics with hics | hics
    · exact hfs ics hics ic hic
    · exact h.handing ics (mem_cons_of_mem f hics) ic hic

/-- A set is replaced. -/
theorem Inv.set {infos : List InterceptInfo} (h : Inv sh (f :: others))
    (hallow : (∀ ii ∈ infos, Fwd.isHTTP ii = false) ∨ ∀ g ∈ f :: others, ¬ g.InFlight)
    (hhanded : sh'.handed = sh.handed) (hkeep : (∀ ii ∈ infos, Fwd.isHTTP ii = false) →
      (∀ ic, Clean sh.controllers ic → Clean sh'.controllers ic) ∧
        (sh.Unfiltered → sh'.Unfiltered)) : Inv sh' (.setListenerSwitch :: others) := by
  refine ⟨by rw [hhanded]; exact h.handed, ?_, ?_⟩
  · rintro ⟨g, hg, hin⟩
    rcases mem_cons.mp hg with rfl | hg
    · exact hin.elim
    · rcases hallow with hclean | hnone
      · exact (hkeep hclean).2 (h.unfiltered ⟨g, mem_cons_of_mem f hg, hin⟩)
      · exact absurd hin (hnone g (mem_cons_of_mem f hg))
  · intro ics hics ic hic
    rcases mem_cons.mp hics with heq | hics
    · cases heq
    · rcases hallow with hclean | hnone
      · exact (hkeep hclean).1 ic (h.handing ics (mem_cons_of_mem f hics) ic hic)
      · -- a connection with something to hand over would be in flight
        refine absurd ?_ (hnone _ (mem_cons_of_mem f hics))
        rintro rfl
        cases hic

theorem Inv.accept (h : Inv sh (.accept :: others)) (hclean : sh.Unfiltered) :
    Inv sh (.forward :: others) := by
  refine ⟨h.handed, fun _ => hclean, ?_⟩
  intro ics hics ic hic
  rcases mem_cons.mp hics with heq | hics
  · cases heq
  · exact h.handing ics (mem_cons_of_mem _ hics) ic hic

theorem lookup_of_mem_sorted (h : ic ∈ im.sorted) : ∃ id, im.lookup id = some ic := by
  obtain ⟨id, _, hid⟩ := mem_filterMap.mp h
  exact ⟨id, hid⟩

theorem lookup_of_global (h : im.global = .ok (some ic)) : ∃ id, im.lookup id = some ic := by
  unfold ControllerMap.global at h
  split at h
  · cases h
  · rename_i e he
    cases h
    exact ⟨e.1, mem_entries_iff.mp (by rw [he]; exact mem_singleton.mpr rfl)⟩
  · cases h

/-- What `Forward` looks up has no filters. -/
theorem Shared.Unfiltered.forward (h : sh.Unfiltered) {intercept : Option Nat}
    (hglobal : sh.intercepts.global = .ok intercept) :
    ∀ ic ∈ intercept.toList ++ (if sh.targetPort > 0 then sh.wiretaps.sorted else []),
      Clean sh.controllers ic := by
  intro ic hic
  rcases mem_append.mp hic with hic | hic
  · rw [Option.mem_toList] at hic
    rw [hic] at hglobal
    obtain ⟨id, hid⟩ := lookup_of_global hglobal
    exact h.1 id ic hid
  · split at hic
    · obtain ⟨id, hid⟩ := lookup_of_mem_sorted hic
      exact h.2 id ic hid
    · cases hic

/-- A connection that is being handed on is handed to clean controllers. -/
theorem Inv.hand {ics : List Nat} {c : Choice} (h : Inv sh (.handing ics :: others))
    (hexec : TcpForwarding.exec sh (.handing ics) c = some (sh', fs)) : Inv sh' (fs ++ others) := by
  have hclean := h.handing ics mem_cons_self
  have hkept : ∀ i, Inv sh ([.handing (ics.eraseIdx i)] ++ others) := by
    intro i
    refine h.replace rfl rfl rfl rfl ?_ ?_
    · intro g hg hin heq
      rw [mem_singleton.mp hg, heq] at hin
      exact hin rfl
    · intro ics' hics' ic hic
      cases mem_singleton.mp hics'
      exact hclean ic (mem_of_mem_eraseIdx hic)
  cases c with
  | hand i =>
    simp only [TcpForwarding.exec] at hexec
    split at hexec
    · cases hexec
    · rename_i ii hii
      cases hexec
      obtain ⟨ic, hic, hget⟩ := Option.bind_eq_some_iff.mp hii
      refine ⟨forall_mem_cons.mpr ⟨?_, h.handed⟩, (hkept i).unfiltered, (hkept i).handing⟩
      exact hclean ic (mem_of_getElem? hic) ii hget
  | fail i =>
    simp only [TcpForwarding.exec] at hexec
    cases hexec
    exact hkept i
  | next =>
    cases ics with
    | nil =>
      cases hexec
      exact h.replace rfl rfl rfl rfl (fun g hg => absurd hg not_mem_nil)
        fun ics hics => absurd hics not_mem_nil
    | cons ic ics => cases hexec

/-- **Allowed steps** keep the invariant. -/
theorem Inv.exec {c : Choice} (h : Inv sh (f :: others)) (hallow : f.Allowed sh (f :: others))
    (hexec : exec sh f c = some (sh', fs)) : Inv sh' (fs ++ others) := by
  cases f
  case handing ics => exact h.hand hexec
  all_goals cases c <;> simp only [TcpForwarding.exec, reduceCtorEq] at hexec
  case setIntercepting.next infos =>
    cases hexec
    refine h.set hallow rfl ?_
    intro hclean
    obtain ⟨hkeep, hnew⟩ := reconcile_clean hclean sh.controllers sh.intercepts
    exact ⟨hkeep, fun hun => ⟨hnew, fun id ic hic => hkeep ic (hun.2 id ic hic)⟩⟩
  case setWiretapping.next infos =>
    cases hexec
    refine h.set hallow rfl ?_
    intro hclean
    obtain ⟨hkeep, hnew⟩ := reconcile_clean hclean sh.controllers sh.wiretaps
    exact ⟨hkeep, fun hun => ⟨fun id ic hic => hkeep ic (hun.1 id ic hic), hnew⟩⟩
  case setListenerSwitch.next | serve.next | startAccepting.next =>
    cases hexec
    exact h.replace rfl rfl rfl rfl (by simp [Frame.InFlight]) (by simp)
  case accept.next =>
    split at hexec
    · split at hexec
      · cases hexec
        exact h.replace rfl rfl rfl rfl (by simp) (by simp)
      · rename_i hswitch
        cases hexec
        rcases hallow with htrue | hfalse
        · exact absurd htrue hswitch
        · exact h.accept (unfiltered_of_isHTTP hfalse)
    · cases hexec
  case forward.next =>
    split at hexec
    · cases hexec
      exact h.replace rfl rfl rfl rfl (by simp) (by simp)
    · rename_i intercept hglobal
      cases hexec
      refine h.replace rfl rfl rfl rfl (fun _ _ _ => trivial) ?_
      intro ics hics
      cases mem_singleton.mp hics
      exact (h.unfiltered ⟨.forward, mem_cons_self, trivial⟩).forward hglobal

theorem Inv.start (h : Inv sh frames) (op : Operation) : Inv sh (frames ++ program op) := by
  have hnew : ∀ f ∈ program op, ¬ f.InFlight := by
    cases op <;> exact forall_mem_singleton.mpr id
  have hnone : ∀ ics, Frame.handing ics ∉ program op := by
    intro ics hics
    cases op <;> simp [program] at hics
  refine ⟨h.handed, ?_, ?_⟩
  · rintro ⟨f, hf, hin⟩
    rcases mem_append.mp hf with hf | hf
    · exact h.unfiltered ⟨f, hf, hin⟩
    · exact absurd hin (hnew f hf)
  · exact fun ics hics => h.handing ics ((mem_append.mp hics).resolve_right (hnone ics))

theorem allowed_perm {frames' : List Frame} (h : frames.Perm frames') (hallow : f.Allowed sh frames) :
    f.Allowed sh frames' := by
  cases f with
  | setIntercepting | setWiretapping => simpa only [Frame.Allowed, h.mem_iff] using hallow
  | accept => exact hallow
  | _ => exact trivial

/-! ## Without references -/

/-- Maps with numbers stand for maps with values: every entry has a controller
of its own, and the controller has the value. -/
structure Stands (controllers : List InterceptInfo) (maps : Bool → ControllerMap)
    (values : Bool → InterceptControllerMap) : Prop where
  value : ∀ b id, ((maps b).lookup id).bind (controllers[·]?) = (values b).lookup id
  bound : ∀ b id ic, (maps b).lookup id = some ic → ic < controllers.length
  own : ∀ b b' id id' ic, (maps b).lookup id = some ic → (maps b').lookup id' = some ic →
    b = b' ∧ id = id'

theorem lookup_update {β : Type} (maps : Bool → GoMap String β) (b b' : Bool) (im : GoMap String β)
    (id : String) : (Function.update maps b im b').lookup id =
      if b' = b then im.lookup id else (maps b').lookup id := by
  rw [Function.update_apply]
  split <;> rfl

variable {maps : Bool → ControllerMap} {values : Bool → InterceptControllerMap}

/-- One round of the first loop of `reconcile` is an insertion. -/
theorem Stands.insert (h : Stands controllers maps values) (b : Bool) (ii : InterceptInfo) :
    Stands (reconcileLoop [ii] (controllers, maps b)).1
      (Function.update maps b (reconcileLoop [ii] (controllers, maps b)).2)
      (Function.update values b ((values b).insert ii.id ii)) := by
  obtain ⟨hvalue, hbound, hown⟩ := h
  cases hic : (maps b).lookup ii.id with
  | some ic =>
    simp only [reconcileLoop, hic, Function.update_eq_self]
    refine ⟨?_, by simpa using hbound, hown⟩
    intro b' id
    rw [lookup_update, lookup_insert_eq]
    cases hid : (maps b').lookup id <;> grind
  | none =>
    simp only [reconcileLoop, hic]
    refine ⟨?_, ?_, ?_⟩
    all_goals simp only [lookup_update, lookup_insert_eq, length_append, length_singleton]
    · intro b' id
      cases hid : (maps b').lookup id <;> grind
    · grind
    · grind

theorem Stands.delete (h : Stands controllers maps values) (b : Bool) (keep : String → Bool) :
    Stands controllers (Function.update maps b (deleteUnless keep (maps b).keys (maps b)))
      (Function.update values b (deleteUnless keep (values b).keys (values b))) := by
  obtain ⟨hvalue, hbound, hown⟩ := h
  refine ⟨?_, ?_, ?_⟩
  all_goals simp only [lookup_update, lookup_deleteUnless_keys]
  · grind
  · grind
  · grind

/-- **Reconciling** is that of the values. -/
theorem Stands.reconcile (h : Stands controllers maps values) (b : Bool)
    (iis : List InterceptInfo) :
    Stands (reconcile controllers (maps b) iis).1
      (Function.update maps b (reconcile controllers (maps b) iis).2)
      (Function.update values b ((values b).reconcile iis)) := by
  have hloop : Stands (reconcileLoop iis (controllers, maps b)).1
      (Function.update maps b (reconcileLoop iis (controllers, maps b)).2)
      (Function.update values b (insertAll (·.id) iis (values b))) := by
    induction iis generalizing controllers maps values with
    | nil => simpa [reconcileLoop, insertAll] using h
    | cons ii iis ih =>
      have hrest := ih (h.insert b ii)
      simp only [Function.update_self, Function.update_idem] at hrest
      cases hic : (maps b).lookup ii.id <;> simp only [reconcileLoop, hic] at hrest ⊢ <;>
        exact hrest
  have hdelete := hloop.delete b fun id => id ∈ iis.map (·.id)
  simp only [Function.update_self, Function.update_idem] at hdelete
  exact hdelete

/-- A map with numbers has filters if and only if the map it stands for does. -/
theorem Stands.isHTTP_eq (h : Stands controllers maps values) (b : Bool) :
    (maps b).isHTTP controllers = (values b).isHTTP := by
  rw [Bool.eq_iff_iff, ControllerMap.isHTTP, InterceptControllerMap.isHTTP, any_eq_true,
    any_eq_true]
  simp only [Sigma.exists, mem_entries_iff, Option.any_eq_true, ← h.value b,
    Option.bind_eq_some_iff]
  grind

/-- The map of the wiretaps, or that of the intercepts. -/
def Shared.mapOf (sh : Shared) (wiretaps : Bool) : ControllerMap :=
  if wiretaps then sh.wiretaps else sh.intercepts

/-- The wiretaps, or the intercepts. -/
def valuesOf (f : Tcp) (wiretaps : Bool) : InterceptControllerMap :=
  if wiretaps then f.wiretaps else f.intercepts

/-- The forwarder stands for the one without references. -/
structure Simulates (sh : Shared) (f : Tcp) : Prop where
  stands : Stands sh.controllers sh.mapOf (valuesOf f)
  listenerSwitch : sh.listenerSwitch = some f.secondary

/-- A call of `SetWiretapping`, or of `SetIntercepting`. -/
structure SetCall where
  wiretaps : Bool
  infos : List InterceptInfo

/-- A call, without references. -/
def SetCall.apply (f : Tcp) (call : SetCall) : Tcp :=
  if call.wiretaps then f.setWiretapping call.infos else f.setIntercepting call.infos

/-- Calls one after the other, the first one by the given thread. -/
def inTurn : Nat → List SetCall → List (Action Operation Choice)
  | _, [] => []
  | thread, call :: calls =>
      [.start (if call.wiretaps then .setWiretapping call.infos else .setIntercepting call.infos),
        .run thread .next, .run thread .next] ++ inTurn (thread + 1) calls

/-- **One call**, undisturbed, is that of the forwarder without references. -/
theorem Simulates.run_cons {f : Tcp} (h : Simulates sh f) (threads : List (List Frame))
    (call : SetCall) (calls : List SetCall) :
    ∃ sh', Runs.run threadStep ⟨sh, threads⟩ (inTurn threads.length (call :: calls)) =
        Runs.run threadStep ⟨sh', threads ++ [[]]⟩ (inTurn (threads.length + 1) calls) ∧
      Simulates sh' (call.apply f) := by
  obtain ⟨wiretaps, infos⟩ := call
  have hstands := h.stands.reconcile wiretaps infos
  have hvalues : Function.update (valuesOf f) wiretaps ((valuesOf f wiretaps).reconcile infos) =
      valuesOf (SetCall.apply f ⟨wiretaps, infos⟩) := by
    funext b
    cases wiretaps <;> cases b <;> rfl
  rw [hvalues] at hstands
  have hhttp := congr (congrArg Bool.or (hstands.isHTTP_eq false)) (hstands.isHTTP_eq true)
  cases wiretaps
  all_goals
    refine ⟨_, by simp [Runs.run, inTurn, Threads.step, program, exec]; rfl, ?_, ?_⟩
    · convert hstands using 1
      · rfl
      · funext b
        cases b <;> rfl
    · simp only [h.listenerSwitch, Option.map_some]
      exact congrArg some hhttp

theorem Simulates.run_inTurn {f : Tcp} (h : Simulates sh f) (threads : List (List Frame))
    (calls : List SetCall) :
    ∃ p, Runs.run threadStep ⟨sh, threads⟩ (inTurn threads.length calls) = some p ∧
      Simulates p.shared (calls.foldl SetCall.apply f) := by
  induction calls generalizing sh threads f with
  | nil => exact ⟨_, rfl, h⟩
  | cons call calls ih =>
    obtain ⟨sh', hrun, hsim⟩ := h.run_cons threads call calls
    obtain ⟨p, hrest, hp⟩ := ih hsim (threads ++ [[]])
    rw [length_append] at hrest
    exact ⟨p, hrun.trans hrest, hp⟩

/-! ## Runs -/

/-- **Filters are not bypassed.**  Along a run of allowed steps, whatever got a
connection as a whole had no filters. -/
theorem handed_unfiltered (targetPort : Nat) {actions : List (Action Operation Choice)}
    (h : Meets threadStep HandAllowed ⟨{ targetPort := targetPort }, []⟩ actions) :
    Always threadStep (fun p => ∀ ii ∈ p.shared.handed, Fwd.isHTTP ii = false)
      ⟨{ targetPort := targetPort }, []⟩ actions := by
  have hprop : ∀ p : World, Inv p.shared p.frames →
      ∀ ii ∈ p.shared.handed, Fwd.isHTTP ii = false := fun _ hp => hp.handed
  refine always_of_meets hprop ?_ ?_ h
  · intro p a p' hp hallow hstep
    rcases step_cases hstep with
      ⟨op, _, hsh, hframes⟩ | ⟨thread, c, f, fs, others, rfl, htop, hexec, hold, hnew⟩
    · rw [hsh, hframes]
      exact hp.start op
    · exact ((hp.perm hold).exec (allowed_perm hold (hallow f htop)) hexec).perm hnew.symm
  · refine ⟨forall_mem_nil _, ?_, ?_⟩
    · rintro ⟨f, hf, _⟩
      cases hf
    · intro ics hics
      cases hics

/-- An intercept without filters. -/
def everything : InterceptInfo where
  spec := { name := "all", agent := "echo" }
  id := "c:all"
  clientSession := "c"
  disposition := .active
  message := ""

/-- An intercept for one path. -/
def onePath : InterceptInfo where
  spec := { name := "path", agent := "echo", pathFilters := [":path-prefix:/x"] }
  id := "d:path"
  clientSession := "d"
  disposition := .active
  message := ""

/-- The forwarder serves. -/
def serving : List (Action Operation Choice) :=
  [.start .serve, .run 0 .next, .run 0 .next, .run 0 .next]

/-- A connection is handed over before an intercept with a filter comes. -/
def oneAfterTheOther : List (Action Operation Choice) :=
  serving ++ [.start (.setIntercepting [everything]), .run 1 .next, .run 1 .next,
    .start .accept, .run 2 .next, .run 2 .next, .run 2 (.hand 0),
    .start (.setIntercepting [onePath]), .run 3 .next]

theorem handed_unfiltered_oneAfterTheOther :
    Always threadStep (fun p => ∀ ii ∈ p.shared.handed, Fwd.isHTTP ii = false) ⟨{}, []⟩
      oneAfterTheOther := by
  apply handed_unfiltered
  refine Meets.cons rfl trivial ?_
  iterate 3 refine Meets.cons rfl (by intro f hf; cases hf; trivial) ?_
  refine Meets.cons rfl trivial ?_
  refine Meets.cons rfl (by intro f hf; cases hf; exact .inl (by decide)) ?_
  refine Meets.cons rfl (by intro f hf; cases hf; trivial) ?_
  refine Meets.cons rfl trivial ?_
  refine Meets.cons rfl (by intro f hf; cases hf; exact .inr rfl) ?_
  iterate 2 refine Meets.cons rfl (by intro f hf; cases hf; trivial) ?_
  refine Meets.cons rfl trivial ?_
  refine Meets.cons rfl ?_ trivial
  intro f hf
  cases hf
  right
  -- nothing is left to be handed over
  refine forall_mem_cons.mpr ⟨fun h => h rfl, ?_⟩
  exact forall_mem_singleton.mpr id

/-- A connection is accepted while there are no filters; the intercept that it
is handed to has come since, and has one. -/
theorem filter_bypassed :
    ∃ p : World,
      Runs.run threadStep ⟨{}, []⟩
          (serving ++ [.start .accept, .run 1 .next, .start (.setIntercepting [onePath]),
            .run 2 .next, .run 2 .next, .run 1 .next, .run 1 (.hand 0)]) = some p ∧
        p.shared.handed = [onePath] ∧ Fwd.isHTTP onePath = true :=
  ⟨_, rfl, rfl, rfl⟩

/-- **Undisturbed calls.**  After `Serve`, any number of calls one after the
other do to the maps and the switch what they do to a forwarder without
references. -/
theorem calls_simulate (targetPort : Nat) (calls : List SetCall) :
    ∃ p, Runs.run threadStep ⟨{ targetPort := targetPort }, []⟩ (serving ++ inTurn 1 calls) =
        some p ∧ Simulates p.shared (calls.foldl SetCall.apply {}) := by
  rw [run_append]
  refine Simulates.run_inTurn ⟨⟨?_, ?_, ?_⟩, rfl⟩ [[]] calls
  · rintro (_ | _) _ <;> rfl
  · rintro (_ | _) _ _ ⟨⟩
  · rintro (_ | _) _ _ _ _ ⟨⟩

end Telepresence.TcpForwarding
