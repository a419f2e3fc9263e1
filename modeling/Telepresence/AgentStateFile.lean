import Telepresence.Lib.Times
import Telepresence.StoredConfigs

/-!
# The agent state file

The traffic-manager keeps the time at which each workload was last engaged in
a file of JSON.  A workload's key is written as its kind, its name and its
namespace with dots between them, and read by splitting at the dots.

A kind and a namespace have no dots, so the written keys of two workloads are
different (`WorkloadKey.string_injective`); but a name may have dots, and a
key with more than three parts is refused.

* `file_round_trips_iff`: a file is read back as it was exactly if no name in
  it has a dot and the times in it are ones that JSON can hold.
-/

namespace Telepresence.AgentStates

open Times List Option GoMap Results Strings

/-- A workload of Kubernetes.  Its kind is an identifier and its namespace a
label, so they have no dots; its name is a domain name, which may have some. -/
structure WorkloadKey extends Mutator.WorkloadKey where
  ns_label : '.' ∉ ns.toList
  kind_label : '.' ∉ kind.toList
  deriving DecidableEq

/-- `WorkloadKey.String`. -/
def WorkloadKey.string (k : WorkloadKey) : String := k.kind ++ "." ++ k.name ++ "." ++ k.ns

/-- `AgentState`. -/
structure AgentState where
  lastEngagementTime : Time
  deriving DecidableEq

/-- `AgentStateFile`. -/
structure AgentStateFile where
  agentStates : GoMap WorkloadKey AgentState

/-- JSON documents, as far as they are made of texts and objects. -/
inductive Json where
  | text (s : String)
  | object (members : List (String × Json))

/-- The member of an object; of several with one name the last one counts. -/
def Json.member (members : List (String × Json)) (name : String) : Option Json :=
  (members.reverse.find? fun m => m.1 = name).map Prod.snd

/-! ## Writing -/

/-- `json.Marshal` of an agent's state. -/
def AgentState.marshal (s : AgentState) : Except String Json :=
  match s.lastEngagementTime.marshalJSON with
  | .error e => .error ("json: error calling MarshalJSON for type time.Time: " ++ e)
  | .ok t => .ok (.object [("lastEngagementTime", .text t)])

/-- The `temp` of `MarshalJSON`. -/
def AgentStateFile.temp (f : AgentStateFile) : GoMap String AgentState :=
  f.agentStates.rekey WorkloadKey.string

/-- `AgentStateFile.MarshalJSON`. -/
def AgentStateFile.marshalJSON (f : AgentStateFile) : Except String Json := do
  let members ← f.temp.entries.mapM fun e => e.2.marshal.map fun v => (e.1, v)
  .ok (.object [("agentStates", .object members)])

/-! ## Reading -/

/-- `json.Unmarshal` of an agent's state. -/
def AgentState.unmarshal : Json → Except String AgentState
  | .text _ => .error "json: cannot unmarshal string into Go value of type manager.AgentState"
  | .object members =>
      match Json.member members "lastEngagementTime" with
      | none => .ok ⟨Time.zero⟩
      | some (.text s) => (unmarshalJSON s).map AgentState.mk
      | some (.object _) => .error "Time.UnmarshalJSON: input is not a JSON string"

/-- `json.Unmarshal` into the struct `raw`. -/
def unmarshalRaw : Json → Except String (GoMap String AgentState)
  | .text _ => .error "json: cannot unmarshal string into Go value of type struct"
  | .object members =>
      match Json.member members "agentStates" with
      | none => .ok ∅
      | some (.text _) =>
          .error "json: cannot unmarshal string into Go struct field .agentStates of type map"
      | some (.object states) =>
          readAll (fun m => (AgentState.unmarshal m.2).map fun s => (m.1, s)) states

/-- The key that is made of the parts of a string. -/
def WorkloadKey.parse (keyStr : String) : Except String WorkloadKey :=
  match h : split keyStr '.' with
  | [kind, name, ns] =>
      .ok { name, ns, kind
            ns_label := notMem_of_mem_split (by rw [h]; simp)
            kind_label := notMem_of_mem_split (by rw [h]; simp) }
  | _ => .error ("invalid key format: " ++ keyStr)

/-- `AgentStateFile.UnmarshalJSON`. -/
def AgentStateFile.unmarshalJSON (data : Json) : Except String AgentStateFile := do
  let raw ← unmarshalRaw data
  let states ← readAll (fun e => (WorkloadKey.parse e.1).map fun k => (k, e.2)) raw.entries
  .ok ⟨states⟩

/-! ## Keys -/

namespace WorkloadKey

theorem toList_string (k : WorkloadKey) :
    k.string.toList = k.kind.toList ++ '.' :: (k.name.toList ++ '.' :: k.ns.toList) := by
  simp [string]

/-- Distinct workloads have distinct keys in the file. -/
theorem string_injective : Function.Injective string := by
  intro k k' h
  have hlist := congrArg String.toList h
  rw [k.toList_string, k'.toList_string] at hlist
  obtain ⟨hkind, hrest⟩ := append_cons_inj k.kind_label k'.kind_label hlist
  -- the namespace comes after the last dot, so the rest is compared from its end
  have hrev := congrArg List.reverse hrest
  simp only [reverse_append, reverse_cons, append_assoc, singleton_append]
    at hrev
  obtain ⟨hns, hname⟩ := append_cons_inj (by simpa using k.ns_label)
    (by simpa using k'.ns_label) hrev
  obtain ⟨⟨name, ns, kind⟩, hns', hkind'⟩ := k
  rw [mk.injEq, Mutator.WorkloadKey.mk.injEq]
  exact ⟨String.toList_inj.mp (reverse_inj.mp hname),
    String.toList_inj.mp (reverse_inj.mp hns), String.toList_inj.mp hkind⟩

variable {k : WorkloadKey}

/-- A key is read from the three parts it has. -/
theorem parse_eq_ok {s : String} :
    parse s = .ok k ↔ split s '.' = [k.kind, k.name, k.ns] := by
  unfold parse
  split
  · rename_i kind name ns hsplit
    constructor
    · intro h
      rw [← Except.ok.inj h]
      exact hsplit
    · intro h
      have hparts := hsplit.symm.trans h
      simp only [List.cons.injEq, and_true] at hparts
      obtain ⟨⟨name', ns', kind'⟩, _, _⟩ := k
      obtain ⟨rfl, rfl, rfl⟩ := hparts
      rfl
  · rename_i hparts
    refine ⟨nofun, ?_⟩
    intro h
    exact absurd h (hparts _ _ _)

theorem split_string (k : WorkloadKey) :
    split k.string '.' = k.kind :: split (k.name ++ "." ++ k.ns) '.' :=
  split_cons (by rw [k.toList_string]; simp) k.kind_label

/-- A key is read back exactly if the name has no dot. -/
theorem parse_string_iff (k : WorkloadKey) :
    parse k.string = .ok k ↔ '.' ∉ k.name.toList := by
  rw [parse_eq_ok]
  constructor
  · intro h
    apply notMem_of_mem_split (s := k.string)
    rw [h]
    simp
  · intro hname
    rw [k.split_string, split_cons (a := k.name) (b := k.ns) (by simp) hname,
      split_of_notMem k.ns_label]

/-- No key but the written one is read. -/
theorem parse_string {k' : WorkloadKey} (h : parse k.string = .ok k') :
    k' = k := by
  have hparts := parse_eq_ok.mp h
  have hlen : (split k.string '.').length = 3 := by rw [hparts]; rfl
  rw [length_split, k.toList_string, count_append, count_cons_self,
    count_append, count_cons_self] at hlen
  have hname : '.' ∉ k.name.toList := by
    rw [← count_eq_zero]
    omega
  rw [(parse_string_iff k).mpr hname] at h
  exact (Except.ok.inj h).symm

/-- What is read as a key is written as it was. -/
theorem string_of_parse {s : String} (h : parse s = .ok k) :
    k.string = s := by
  have hparts := parse_eq_ok.mp h
  have hlist : s.toList = ['.'].intercalate (s.toList.splitOn '.') :=
    (intercalate_splitOn '.').symm
  have hsplit : s.toList.splitOn '.' = [k.kind.toList, k.name.toList, k.ns.toList] := by
    have hmap := congrArg (List.map String.toList) hparts
    simpa [split, List.map_map, Function.comp_def] using hmap
  apply String.toList_inj.mp
  rw [k.toList_string, hlist, hsplit]
  simp [List.intercalate]

end WorkloadKey

open WorkloadKey

/-! ## States -/

variable {s : AgentState}

namespace AgentState

/-- The state as it is read back. -/
def stored (s : AgentState) : AgentState := ⟨s.lastEngagementTime.wholeMinuteZone⟩

theorem marshal_eq_ok : (∃ v, s.marshal = .ok v) ↔ s.lastEngagementTime.Marshals := by
  unfold marshal
  cases h : s.lastEngagementTime.marshalJSON with
  | error e =>
    have hnot : ¬ s.lastEngagementTime.Marshals := by
      intro hm
      rw [marshalJSON_eq_ok.mpr ⟨hm, rfl⟩] at h
      cases h
    simp [hnot]
  | ok t => simp [(marshalJSON_eq_ok.mp h).1]

theorem unmarshal_of_marshal {v : Json} (h : s.marshal = .ok v) :
    unmarshal v = .ok s.stored := by
  unfold marshal at h
  split at h
  · cases h
  · rename_i t ht
    cases h
    simp only [unmarshal, Json.member, reverse_singleton, find?_cons,
      decide_true, map_some, unmarshalJSON_of_marshalJSON ht, Except.map, stored]

/-- What has been read can be written, and is then read as the same. -/
theorem stored_of_unmarshal {v : Json} (h : unmarshal v = .ok s) :
    s.lastEngagementTime.Marshals ∧ s.stored = s := by
  cases v with
  | text t => cases h
  | object members =>
    simp only [unmarshal] at h
    split at h
    · cases h
      decide
    · rename_i t _
      cases ht : unmarshalJSON t with
      | error e =>
        rw [ht] at h
        cases h
      | ok time =>
        rw [ht] at h
        cases h
        obtain ⟨hm, heq⟩ := marshals_of_unmarshalJSON ht
        exact ⟨hm, by rw [stored, heq]⟩
    · cases h

end AgentState

open AgentState

/-! ## The file -/

namespace AgentStateFile

theorem lookup_temp_iff (f : AgentStateFile) (s : String) (st : AgentState) :
    f.temp.lookup s = some st ↔ ∃ k : WorkloadKey, s = k.string ∧ f.agentStates.lookup k = some st :=
  lookup_rekey_iff string_injective f.agentStates s st

theorem marshalJSON_eq_ok {f : AgentStateFile} {data : Json} :
    f.marshalJSON = .ok data ↔ ∃ members,
      List.Forall₂ (fun e m => (e.2.marshal.map fun v => (e.1, v)) = .ok m) f.temp.entries members ∧
        data = .object [("agentStates", .object members)] := by
  unfold marshalJSON
  rw [bind_eq_ok]
  simp only [mapM_eq_ok, Except.ok.injEq]
  exact exists_congr fun members => and_congr_right fun _ => eq_comm

/-- A file is written exactly if all times in it can be. -/
theorem marshalJSON_isOk_iff (f : AgentStateFile) : (∃ data, f.marshalJSON = .ok data) ↔
    ∀ k st, f.agentStates.lookup k = some st → st.lastEngagementTime.Marshals := by
  have hentries : (∃ data, f.marshalJSON = .ok data) ↔
      ∀ e ∈ f.temp.entries, ∃ m, (e.2.marshal.map fun v => (e.1, v)) = .ok m := by
    rw [← exists_forall₂_iff]
    simp only [marshalJSON_eq_ok]
    constructor
    · rintro ⟨_, members, hmembers, _⟩
      exact ⟨members, hmembers⟩
    · rintro ⟨members, hmembers⟩
      exact ⟨_, members, hmembers, rfl⟩
  rw [hentries]
  constructor
  · intro h k st hst
    have hentry : (⟨k.string, st⟩ : Sigma fun _ : String => AgentState) ∈ f.temp.entries :=
      mem_entries_iff.mpr ((f.lookup_temp_iff _ _).mpr ⟨k, rfl, hst⟩)
    obtain ⟨m, hm⟩ := h _ hentry
    obtain ⟨v, hv, _⟩ := map_eq_ok.mp hm
    exact marshal_eq_ok.mp ⟨v, hv⟩
  · intro h e he
    obtain ⟨k, _, hk⟩ := (f.lookup_temp_iff _ _).mp (mem_entries_iff.mp he)
    obtain ⟨v, hv⟩ := marshal_eq_ok.mpr (h k _ hk)
    exact ⟨(e.1, v), map_eq_ok.mpr ⟨v, hv, rfl⟩⟩

/-- **What is read of a written file**, before the keys are taken apart. -/
theorem unmarshalRaw_of_marshalJSON {f : AgentStateFile} {data : Json}
    (h : f.marshalJSON = .ok data) : ∃ raw, unmarshalRaw data = .ok raw ∧
      ∀ s, raw.lookup s = (f.temp.lookup s).map stored := by
  obtain ⟨members, hmembers, rfl⟩ := marshalJSON_eq_ok.mp h
  refine ⟨(f.temp.mapValues stored).rekey id, ?_, ?_⟩
  · simp only [unmarshalRaw, Json.member, reverse_singleton, find?_cons, decide_true,
      map_some]
    refine readAll_eq_ok.mpr ⟨_, ?_, rfl⟩
    rw [mapValues, List.map_map, List.forall₂_map_right_iff]
    refine hmembers.flip.imp ?_
    intro m e hm
    obtain ⟨v, hv, rfl⟩ := map_eq_ok.mp hm
    exact map_eq_ok.mpr ⟨e.2.stored, unmarshal_of_marshal hv, rfl⟩
  · intro s
    apply ext
    intro st
    rw [lookup_rekey_iff Function.injective_id, ← lookup_mapValues]
    simp

/-- **What is read of any file.**  All its keys are ones that can be read,
and under each of them is what is read before the keys are taken apart. -/
theorem unmarshalJSON_cases {data : Json} {g : AgentStateFile}
    (h : unmarshalJSON data = .ok g) : ∃ raw, unmarshalRaw data = .ok raw ∧
      (∀ s st, raw.lookup s = some st → ∃ k : WorkloadKey, k.string = s ∧ parse s = .ok k) ∧
      ∀ k : WorkloadKey, g.agentStates.lookup k = raw.lookup k.string := by
  obtain ⟨raw, hraw, h⟩ := bind_eq_ok.mp h
  obtain ⟨states, hstates, h⟩ := bind_eq_ok.mp h
  cases h
  have hread : ∀ (e : Sigma fun _ : String => AgentState) k st,
      ((parse e.1).map fun k => (k, e.2)) = .ok (k, st) ↔
        parse e.1 = .ok k ∧ e.2 = st := by
    intro e k st
    simp [map_eq_ok]
  have hkeys : ∀ s st, raw.lookup s = some st →
      ∃ k : WorkloadKey, k.string = s ∧ parse s = .ok k := by
    intro s st hst
    obtain ⟨ys, hys, _⟩ := readAll_eq_ok.mp hstates
    obtain ⟨y, hy⟩ := exists_forall₂_iff.mp ⟨ys, hys⟩ ⟨s, st⟩ (mem_entries_iff.mpr hst)
    obtain ⟨k, hk, _⟩ := map_eq_ok.mp hy
    exact ⟨k, string_of_parse hk, hk⟩
  refine ⟨raw, hraw, hkeys, ?_⟩
  have huniq : ∀ e ∈ raw.entries, ∀ e' ∈ raw.entries, ∀ k st st',
      ((parse e.1).map fun k => (k, e.2)) = .ok (k, st) →
        ((parse e'.1).map fun k => (k, e'.2)) = .ok (k, st') → st' = st := by
    intro e he e' he' k st st' hk hk'
    obtain ⟨hparse, rfl⟩ := (hread e k st).mp hk
    obtain ⟨hparse', rfl⟩ := (hread e' k st').mp hk'
    have hsame : e.1 = e'.1 :=
      (string_of_parse hparse).symm.trans (string_of_parse hparse')
    have hlookup := mem_entries_iff.mp he
    rw [hsame, mem_entries_iff.mp he'] at hlookup
    exact Option.some.inj hlookup
  intro k
  apply ext
  intro st
  rw [lookup_readAll_iff hstates huniq k st]
  constructor
  · rintro ⟨e, he, hk⟩
    obtain ⟨hparse, rfl⟩ := (hread e k st).mp hk
    rw [string_of_parse hparse]
    exact mem_entries_iff.mp he
  · intro hst
    obtain ⟨k', _, hk'⟩ := hkeys _ _ hst
    rw [parse_string hk'] at hk'
    exact ⟨⟨k.string, st⟩, mem_entries_iff.mpr hst, (hread _ k st).mpr ⟨hk', rfl⟩⟩

theorem unmarshalJSON_isOk {data : Json} {raw : GoMap String AgentState}
    (hraw : unmarshalRaw data = .ok raw)
    (hkeys : ∀ s st, raw.lookup s = some st → ∃ k, parse s = .ok k) :
    ∃ g, unmarshalJSON data = .ok g := by
  have hall : ∀ e ∈ raw.entries, ∃ y, ((parse e.1).map fun k => (k, e.2)) = .ok y := by
    intro e he
    obtain ⟨k, hk⟩ := hkeys _ _ (mem_entries_iff.mp he)
    exact ⟨(k, e.2), map_eq_ok.mpr ⟨k, hk, rfl⟩⟩
  obtain ⟨ys, hys⟩ := exists_forall₂_iff.mpr hall
  exact ⟨_, bind_eq_ok.mpr ⟨raw, hraw, bind_eq_ok.mpr
    ⟨_, readAll_eq_ok.mpr ⟨ys, hys, rfl⟩, rfl⟩⟩⟩

/-- The files have the same states. -/
def Same (g f : AgentStateFile) : Prop := ∀ k, g.agentStates.lookup k = f.agentStates.lookup k

/-- A file is written, and what is written is read as the same file. -/
def RoundTrips (f : AgentStateFile) : Prop :=
  ∃ data g, f.marshalJSON = .ok data ∧ unmarshalJSON data = .ok g ∧ g.Same f

end AgentStateFile

/-- JSON holds the time: its year has four digits at most, and its zone offset
is in whole minutes and less than a day. -/
def AgentState.Fits (s : AgentState) : Prop :=
  s.lastEngagementTime.Marshals ∧ (60 : Int) ∣ s.lastEngagementTime.offset

theorem AgentState.stored_eq_self : s.stored = s ↔ (60 : Int) ∣ s.lastEngagementTime.offset := by
  rw [← wholeMinuteZone_eq_self]
  exact ⟨fun h => congrArg lastEngagementTime h, congrArg mk⟩

/-- **The round trip of the file.**  A file is read back as it was, and
distinct keys are written differently, if and only if no name in it has a dot
and JSON holds its times. -/
theorem file_round_trips_iff (f : AgentStateFile) :
    (f.RoundTrips ∧ ∀ k k' : WorkloadKey, k.string = k'.string → k = k') ↔
      ∀ k st, f.agentStates.lookup k = some st → '.' ∉ k.name.toList ∧ st.Fits := by
  constructor
  · rintro ⟨⟨data, g, hdata, hg, hsame⟩, _⟩ k st hst
    obtain ⟨raw, hraw, hkeys, hlookup⟩ := AgentStateFile.unmarshalJSON_cases hg
    obtain ⟨raw', hraw', hstored⟩ := AgentStateFile.unmarshalRaw_of_marshalJSON hdata
    rw [hraw] at hraw'
    cases hraw'
    have hread : raw.lookup k.string = some st := by rw [← hlookup, hsame, hst]
    have htemp : f.temp.lookup k.string = some st := (f.lookup_temp_iff _ _).mpr ⟨k, rfl, hst⟩
    have hst' : st.stored = st := by
      rw [hstored, htemp] at hread
      exact Option.some.inj hread
    obtain ⟨k', _, hk'⟩ := hkeys _ _ hread
    rw [parse_string hk'] at hk'
    exact ⟨k.parse_string_iff.mp hk', f.marshalJSON_isOk_iff.mp ⟨data, hdata⟩ k st hst,
      stored_eq_self.mp hst'⟩
  · intro h
    refine ⟨?_, fun k k' heq => string_injective heq⟩
    obtain ⟨data, hdata⟩ := f.marshalJSON_isOk_iff.mpr fun k st hst => (h k st hst).2.1
    obtain ⟨raw, hraw, hstored⟩ := AgentStateFile.unmarshalRaw_of_marshalJSON hdata
    have hmem : ∀ s st, raw.lookup s = some st ↔
        ∃ k : WorkloadKey, s = k.string ∧ f.agentStates.lookup k = some st := by
      intro s st
      rw [hstored, map_eq_some_iff]
      simp only [f.lookup_temp_iff]
      constructor
      · rintro ⟨st', ⟨k, hk, hst'⟩, rfl⟩
        exact ⟨k, hk, by rw [hst', stored_eq_self.mpr (h k st' hst').2.2]⟩
      · rintro ⟨k, hk, hst⟩
        exact ⟨st, ⟨k, hk, hst⟩, stored_eq_self.mpr (h k st hst).2.2⟩
    have hkeys : ∀ s st, raw.lookup s = some st → ∃ k, parse s = .ok k := by
      intro s st hst
      obtain ⟨k, rfl, hk⟩ := (hmem s st).mp hst
      exact ⟨k, k.parse_string_iff.mpr (h k st hk).1⟩
    obtain ⟨g, hg⟩ := AgentStateFile.unmarshalJSON_isOk hraw hkeys
    refine ⟨data, g, hdata, hg, ?_⟩
    obtain ⟨raw', hraw', _, hlookup⟩ := AgentStateFile.unmarshalJSON_cases hg
    rw [hraw] at hraw'
    cases hraw'
    intro k
    apply ext
    intro st
    rw [hlookup, hmem]
    constructor
    · rintro ⟨k', heq, hst⟩
      rw [string_injective heq]
      exact hst
    · exact fun hst => ⟨k, rfl, hst⟩

/-- A Deployment whose name has a dot. -/
def dotted : WorkloadKey where
  name := "my.app"
  ns := "default"
  kind := "Deployment"
  ns_label := by decide
  kind_label := by decide

/-- Its file, with the zero time. -/
def dottedFile : AgentStateFile := ⟨(∅ : GoMap WorkloadKey AgentState).insert dotted ⟨Time.zero⟩⟩

/-- The file of a workload with a dot in its name is written, but reading it
fails. -/
theorem dotted_name_refused :
    dottedFile.marshalJSON.bind AgentStateFile.unmarshalJSON =
        .error "invalid key format: Deployment.my.app.default" ∧
      ¬ dottedFile.RoundTrips := by
  have hread : dottedFile.marshalJSON.bind AgentStateFile.unmarshalJSON =
      .error "invalid key format: Deployment.my.app.default" := by rfl
  refine ⟨hread, ?_⟩
  rintro ⟨data, g, hdata, hg, _⟩
  rw [hdata] at hread
  exact absurd (hread.symm.trans hg) nofun

end Telepresence.AgentStates
