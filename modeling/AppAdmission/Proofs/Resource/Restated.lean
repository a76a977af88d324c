import AppAdmission.Proofs.Instant
import AppAdmission.Proofs.Json.Spelled
import AppAdmission.Proofs.Resource.Written

/-!
# What is written for what was given

A stored object is read from a tree that spells an object, and what is written for it says the same again,
key by key: the fields with types of their own as they were given, a default for what was missing, and
besides them the same keys. A free value is the same exactly if it is frank; others were replaced by what
their texts stand for.
-/

namespace AppAdmission

open Json (Source present)

theorem Members.sort_map {α : Type} (f : α → Json) (ms : List (String × α)) :
    sort (ms.map fun m => (m.1, f m.2)) = (sort ms).map fun m => (m.1, f m.2) := by
  refine ext_of_sorted (sorted_sort _) ((sorted_map f).2 (sorted_sort ms)) fun key => ?_
  rw [find?_sort, ← List.map_reverse, find?_map, find?_map, find?_sort]

namespace Json

/-- Besides some names there are the same members, and the values that are the same are the frank ones. -/
def SameBesides (names : List String) (given written : Json) : Prop :=
  ∀ key ∉ names, (written.find? key).isSome = (given.find? key).isSome ∧
    ∀ v, given.find? key = some v → (written.find? key = some v ↔ v.frankB = true)

namespace Source

variable {α : Type} {names : List String} {s : Source} {fs : Fields} {others : Dict Json}

/-- An open record is read from an object that has its fields, each once, and other members that are
kept. -/
theorem exists_of_openRecord (h : openRecord names s = some (fs, others)) :
    ∃ members reach all es, s = .obj members reach ∧ keyed members = some all ∧
      fs = all.filter (fun m => names.contains m.1) ∧ (fs.map (·.1)).Nodup ∧
      ((all.filter fun m => !names.contains m.1).mapM fun m => (keep m.2).map fun j => (m.1, j)) = some es ∧
      others = .ofMembers es := by
  cases s with
  | obj members reach =>
    obtain ⟨all, keys, h⟩ := Option.bind_eq_some_iff.1 h
    obtain ⟨fs', picked, h⟩ := Option.bind_eq_some_iff.1 h
    obtain ⟨es, kept, same⟩ := Option.bind_eq_some_iff.1 h
    cases same
    unfold pick at picked
    simp only at picked
    split at picked
    · next unique =>
      cases picked
      exact ⟨members, reach, all, es, rfl, keys, rfl, uniqueB_iff.1 unique, kept, rfl⟩
    · cases picked
  | null | bool _ | num _ | str _ | arr _ _ => cases h

/-- Where every member is read, each key has what is read from its last member. -/
theorem find?_of_mapM {read : Source → Option Json} {ms : Fields} {es : List (String × Json)}
    (h : (ms.mapM fun m => (read m.2).map fun j => (m.1, j)) = some es) :
    (∀ m ∈ ms, ∃ j, read m.2 = some j) ∧
      ∀ key, Members.find? key es.reverse = (Members.find? key ms.reverse).bind read := by
  induction ms generalizing es with
  | nil =>
    cases h
    exact ⟨nofun, fun _ => rfl⟩
  | cons m rest ih =>
    rw [List.mapM_cons] at h
    obtain ⟨e, first, h⟩ := Option.bind_eq_some_iff.1 h
    obtain ⟨es', others, h⟩ := Option.bind_eq_some_iff.1 h
    obtain ⟨j, own, rfl⟩ := Option.map_eq_some_iff.1 first
    cases h
    obtain ⟨each, found⟩ := ih others
    refine ⟨List.forall_mem_cons.2 ⟨⟨j, own⟩, each⟩, fun key => ?_⟩
    rw [List.reverse_cons, List.reverse_cons, Members.find?_append, Members.find?_append, found]
    cases later : Members.find? key rest.reverse with
    | none =>
      by_cases same : m.1 = key
      · simp [Members.find?, same, own]
      · simp [Members.find?, same]
    | some src =>
      obtain ⟨k, kept⟩ := each _ (List.mem_reverse.1 (Members.mem_of_find? later))
      simp [kept]

/-- Members with keys that are spelled are spelled. -/
theorem spelledMembers_of_keyed {members : List (Option String × Source)} {all : Fields}
    (keys : keyed members = some all) (each : ∀ m ∈ all, ∃ v, m.2.spelled = some v) :
    ∃ vs, spelledMembers members = some vs ∧
      (all.mapM fun m => m.2.spelled.map fun j => (m.1, j)) = some vs := by
  induction members generalizing all with
  | nil =>
    cases keys
    exact ⟨[], rfl, rfl⟩
  | cons m rest ih =>
    obtain ⟨key, s⟩ := m
    unfold keyed at keys
    split at keys
    · next k all' others =>
      cases keys
      obtain ⟨⟨v, first⟩, later⟩ := List.forall_mem_cons.1 each
      obtain ⟨vs, spells, read⟩ := ih others later
      refine ⟨(k, v) :: vs, ?_, ?_⟩
      · simp only [spelledMembers, first, spells]
      · rw [List.mapM_cons, read, first]
        rfl
    · cases keys

/-- Where the fields are spelled and the other members are kept, every member is spelled. -/
theorem spelled_of_parts {all : Fields}
    (once : ((all.filter fun m => names.contains m.1).map (·.1)).Nodup)
    (own : ∀ name ∈ names, ∀ src, Members.find? name (all.filter fun m => names.contains m.1) = some src →
      ∃ v, src.spelled = some v)
    (keeps : ∀ m ∈ all.filter fun m => !names.contains m.1, ∃ j, m.2.keep = some j) :
    ∀ m ∈ all, ∃ v, m.2.spelled = some v := by
  intro m there
  cases named : names.contains m.1 with
  | true =>
    have picked : m ∈ all.filter fun m => names.contains m.1 := List.mem_filter.2 ⟨there, named⟩
    exact own m.1 (List.contains_iff_mem.1 named) m.2 (Members.find?_of_mem_once once picked)
  | false =>
    obtain ⟨j, kept⟩ := keeps m (List.mem_filter.2 ⟨there, by rw [named]; rfl⟩)
    obtain ⟨v, spells, -⟩ := spelled_of_keep kept
    exact ⟨v, spells⟩

/-- What an open record is read from spells an object with its fields and with its other members. -/
theorem spelled_of_openRecord (h : openRecord names s = some (fs, others))
    (own : ∀ name ∈ names, ∀ src, Members.find? name fs = some src → ∃ v, src.spelled = some v) :
    ∃ ms, s.spelled = some (.obj ms) ∧
      (∀ name ∈ names, Members.find? name ms = (Members.find? name fs).bind spelled) ∧
      SameBesides names (.obj ms) (.obj others.entries) := by
  obtain ⟨members, reach, all, es, rfl, keys, rfl, once, kept, rfl⟩ := exists_of_openRecord h
  obtain ⟨keeps, others⟩ := find?_of_mapM kept
  obtain ⟨vs, spells, read⟩ := spelledMembers_of_keyed keys (spelled_of_parts once own keeps)
  obtain ⟨-, found⟩ := find?_of_mapM read
  refine ⟨Members.sort vs, by rw [spelled, spells]; rfl, fun name named => ?_, fun key other => ?_⟩
  · have picked : Members.find? name (all.filter fun m => names.contains m.1) =
        Members.find? name all.reverse := by
      rw [← Members.find?_reverse once, List.filter_reverse.symm,
        Members.find?_filter (List.contains_iff_mem.2 named)]
    rw [Members.find?_sort, found, picked]
  · have own : (!names.contains key) = true := by simpa using other
    have left : Members.find? key (all.filter fun m => !names.contains m.1).reverse =
        Members.find? key all.reverse := by
      rw [← List.filter_reverse]
      exact @Members.find?_filter String Source _ (fun k => !names.contains k) key own all.reverse
    have free : find? key (.obj (OrderedMap.ofMembers es).entries) =
        (Members.find? key all.reverse).bind keep := by
      rw [← left, ← others key]
      exact Members.find?_sort key es
    rw [free, find?, Members.find?_sort, found]
    cases there : Members.find? key all.reverse with
    | none => simp
    | some src =>
      have among : (key, src) ∈ all := List.mem_reverse.1 (Members.mem_of_find? there)
      obtain ⟨j, kept⟩ := keeps _ (List.mem_filter.2 ⟨among, own⟩)
      obtain ⟨v, spells, same⟩ := spelled_of_keep kept
      simp [kept, spells, same]

/-- What an open record keeps besides its fields are free values under other names. -/
theorem free_of_openRecord (h : openRecord names s = some (fs, others)) :
    ∀ e ∈ others.entries, e.1 ∉ names ∧ ∃ src : Source, src.keep = some e.2 := by
  obtain ⟨-, kept, apart⟩ := Carried.from_openRecord h
  intro e there
  obtain ⟨src, -, own, -⟩ := kept _ (List.mem_map_of_mem there)
  exact ⟨apart e there, src, own⟩

theorem spelled_of_text {v : String} (h : text s = some v) : s.spelled = some (.str v) := by
  cases s with
  | str t =>
    cases t with
    | none => cases h
    | some t =>
      cases h
      rfl
  | null | bool _ | num _ | arr _ _ | obj _ _ => cases h

/-- Members that are texts are spelled as they are. -/
theorem mapM_spelled_of_text {all : Fields} {es : List (String × String)}
    (h : (all.mapM fun m => (text m.2).map fun v => (m.1, v)) = some es) :
    (all.mapM fun m => m.2.spelled.map fun j => (m.1, j)) = some (es.map fun e => (e.1, .str e.2)) := by
  induction all generalizing es with
  | nil =>
    cases h
    rfl
  | cons m rest ih =>
    rw [List.mapM_cons] at h
    obtain ⟨e, first, h⟩ := Option.bind_eq_some_iff.1 h
    obtain ⟨es', others, h⟩ := Option.bind_eq_some_iff.1 h
    obtain ⟨v, own, rfl⟩ := Option.map_eq_some_iff.1 first
    cases h
    rw [List.mapM_cons, ih others, spelled_of_text own]
    rfl

theorem spelled_of_labels {d : Dict String} (h : labels s = some d) : s.spelled = some (.ofLabels d) := by
  cases s with
  | obj members reach =>
    obtain ⟨all, keys, h⟩ := Option.bind_eq_some_iff.1 h
    obtain ⟨es, texts, same⟩ := Option.bind_eq_some_iff.1 h
    cases same
    have spells := mapM_spelled_of_text texts
    obtain ⟨each, -⟩ := find?_of_mapM spells
    obtain ⟨vs, spelled, read⟩ := spelledMembers_of_keyed keys each
    obtain rfl := Option.some.inj (read.symm.trans spells)
    rw [Source.spelled, spelled, Option.map_some, Members.sort_map]
    rfl
  | null | bool _ | num _ | str _ | arr _ _ => cases h

/-- The other members of an open record are written beside its fields. -/
theorem sameBesides_written {fields : List (String × Option Json)} {ms : List (String × Json)}
    (once : (fields.map (·.1)).Nodup) (canonical : ∀ e ∈ others.entries, e.2.canonicalB = true)
    (same : SameBesides (fields.map (·.1)) (.obj ms) (.obj others.entries)) :
    SameBesides (fields.map (·.1)) (.obj ms) (normalise (.obj (present fields ++ others.entries))) := by
  intro key apart
  rw [find?_normalise_free once apart, map_normalise_get? canonical]
  exact same key apart

namespace Fields

variable {name : String} {read : Source → Option α} {write : α → Json}

/-- A field that may be left out is missing, or it is read from what is given. -/
theorem orElse_cases {d x : α} (h : fs.orElse name read d = some x) :
    (Members.find? name fs = none ∧ x = d) ∨
      ∃ src, Members.find? name fs = some src ∧ read src = some x := by
  unfold orElse at h
  split at h
  · next missing => exact Or.inl ⟨missing, (Option.some.inj h).symm⟩
  · next src there => exact Or.inr ⟨src, there, h⟩

/-- A field that may be null is missing or null, or it is read from what is given. -/
theorem optional_cases {x : Option α} (h : fs.optional name read = some x) :
    (x = none ∧ (Members.find? name fs = none ∨ Members.find? name fs = some .null)) ∨
      ∃ src a, Members.find? name fs = some src ∧ read src = some a ∧ x = some a := by
  rcases orElse_cases h with ⟨missing, rfl⟩ | ⟨src, there, value⟩
  · exact Or.inl ⟨rfl, Or.inl missing⟩
  · cases x with
    | none =>
      cases src with
      | null => exact Or.inl ⟨rfl, Or.inr there⟩
      | bool _ | num _ | str _ | arr _ _ | obj _ _ =>
        obtain ⟨a, -, same⟩ := Option.map_eq_some_iff.1 value
        cases same
    | some a => exact Or.inr ⟨src, a, there, (Wire.nullable_eq_some_some_iff.1 value).2, rfl⟩

theorem spelled_of_orElse {d x : α} (h : fs.orElse name read d = some x)
    (spells : ∀ src a, read src = some a → ∃ v, src.spelled = some v) (src : Source)
    (there : Members.find? name fs = some src) : ∃ v, src.spelled = some v := by
  rcases orElse_cases h with ⟨missing, -⟩ | ⟨src', there', value⟩
  · rw [missing] at there
    cases there
  · obtain rfl := Option.some.inj (there.symm.trans there')
    exact spells src x value

theorem spelled_of_optional {x : Option α} (h : fs.optional name read = some x)
    (spells : ∀ src a, read src = some a → ∃ v, src.spelled = some v) (src : Source)
    (there : Members.find? name fs = some src) : ∃ v, src.spelled = some v := by
  rcases optional_cases h with ⟨-, missing | null⟩ | ⟨src', a, there', value, -⟩
  · rw [missing] at there
    cases there
  · obtain rfl := Option.some.inj (there.symm.trans null)
    exact ⟨.null, rfl⟩
  · obtain rfl := Option.some.inj (there.symm.trans there')
    exact spells src a value

/-- A text that may be left out is what was spelled for it. -/
theorem text_eq {d x : String} (h : fs.orElse name text d = some x) :
    some (.str x) = some (((Members.find? name fs).bind spelled).getD (.str d)) := by
  rcases orElse_cases h with ⟨missing, rfl⟩ | ⟨src, there, value⟩
  · rw [missing]
    rfl
  · rw [there, Option.bind_some, spelled_of_text value]
    rfl

/-- A value that may be null is what was spelled for it. -/
theorem optional_eq {x : Option α} (h : fs.optional name read = some x)
    (spells : ∀ src a, read src = some a → src.spelled = some (write a)) (solid : ∀ a, write a ≠ .null) :
    x.map write = ((Members.find? name fs).bind spelled).filter (· ≠ .null) := by
  rcases optional_cases h with ⟨rfl, missing | null⟩ | ⟨src, a, there, value, rfl⟩
  · rw [missing]
    rfl
  · rw [null]
    rfl
  · have kept : decide (write a ≠ .null) = true := decide_eq_true (solid a)
    rw [there, Option.bind_some, spells src a value, Option.filter_some, if_pos kept]
    rfl

end Fields

end Source

end Json

namespace ObjectMeta

/-- No point in time is written for none, and for one that was given a text that denotes the same one. -/
inductive RestatesInstant : Option Json → Option Json → Prop where
  | missing : RestatesInstant none none
  | null : RestatesInstant (some .null) none
  | same {v w : String} {t : Instant} (given : Instant.parse? v.toList = some t)
      (written : Instant.parse? w.toList = some t) : RestatesInstant (some (.str v)) (some (.str w))

/-- Metadata that is written says the same as metadata that was given. -/
structure Restates (given written : Json) : Prop where
  name : written.find? "name" = some ((given.find? "name").getD (.str ""))
  namespaceName : written.find? "namespace" = (given.find? "namespace").filter (· ≠ .null)
  labels : written.find? "labels" = (given.find? "labels").filter (· ≠ .null)
  annotations : written.find? "annotations" = (given.find? "annotations").filter (· ≠ .null)
  resourceVersion : written.find? "resourceVersion" = (given.find? "resourceVersion").filter (· ≠ .null)
  deletionTimestamp :
    RestatesInstant (given.find? "deletionTimestamp") (written.find? "deletionTimestamp")
  extra : Json.SameBesides fieldNames given written

theorem spelled_of_readInstant {s : Source} {t : Instant} (h : readInstant s = some t) :
    ∃ v : String, s.spelled = some (.str v) ∧ Instant.parse? v.toList = some t := by
  obtain ⟨v, read, same⟩ := Option.bind_eq_some_iff.1 h
  exact ⟨v, Source.spelled_of_text read, same⟩

/-- What is written for a point in time that was read denotes the same one. -/
theorem restatesInstant_of_optional {fs : Source.Fields} {name : String} {t : Option Instant}
    (h : fs.optional name readInstant = some t) :
    RestatesInstant ((Members.find? name fs).bind Source.spelled) (t.map fun t => .str t.render) := by
  rcases Source.Fields.optional_cases h with ⟨same, missing | null⟩ | ⟨src, t, there, read, same⟩
  · rw [same, missing]
    exact .missing
  · rw [same, null]
    exact .null
  · obtain ⟨v, spells, parsed⟩ := spelled_of_readInstant read
    rw [same, there, Option.bind_some, spells]
    exact .same parsed (Instant.parse?_render (Instant.valid_of_parse? parsed))

/-- Metadata is read field by field. -/
theorem fields_of_decode {s : Source} {m : ObjectMeta} (h : decode s = some m) :
    ∃ fs, s.openRecord fieldNames = some (fs, m.extra) ∧
      fs.orElse "name" Source.text "" = some m.name ∧
      fs.optional "namespace" Source.text = some m.namespaceName ∧
      fs.optional "labels" Source.labels = some m.labels ∧
      fs.optional "annotations" Source.labels = some m.annotations ∧
      fs.optional "resourceVersion" Source.text = some m.resourceVersion ∧
      fs.optional "deletionTimestamp" readInstant = some m.deletionTimestamp := by
  unfold decode at h
  simp only [Option.bind_eq_bind, Option.bind_eq_some_iff] at h
  obtain ⟨⟨fs, extra⟩, opened, _, name, _, space, _, labels, _, notes, _, revision, _, deletion, same⟩ := h
  cases same
  exact ⟨fs, opened, name, space, labels, notes, revision, deletion⟩

/-- What is written for metadata that was read says the same. -/
theorem restates_of_decode {s : Source} {m : ObjectMeta} (h : decode s = some m) :
    ∃ ms, s.spelled = some (.obj ms) ∧ Restates (.obj ms) m.toJson.normalise := by
  obtain ⟨fs, opened, name, space, labels, notes, revision, deletion⟩ := fields_of_decode h
  have text (src : Source) (a : String) (read : Source.text src = some a) : ∃ v, src.spelled = some v :=
    ⟨_, Source.spelled_of_text read⟩
  have map (src : Source) (a : Dict String) (read : Source.labels src = some a) :
      ∃ v, src.spelled = some v := ⟨_, Source.spelled_of_labels read⟩
  have instant (src : Source) (t : Instant) (read : readInstant src = some t) :
      ∃ v, src.spelled = some v := by
    obtain ⟨v, spells, -⟩ := spelled_of_readInstant read
    exact ⟨_, spells⟩
  have own : ∀ name ∈ fieldNames, ∀ src, Members.find? name fs = some src → ∃ v, src.spelled = some v := by
    simp only [fieldNames, List.forall_mem_cons]
    exact ⟨Source.Fields.spelled_of_orElse name text, Source.Fields.spelled_of_optional space text,
      Source.Fields.spelled_of_optional labels map, Source.Fields.spelled_of_optional notes map,
      Source.Fields.spelled_of_optional revision text, Source.Fields.spelled_of_optional deletion instant,
      List.forall_mem_nil _⟩
  obtain ⟨ms, spells, typed, free⟩ := Source.spelled_of_openRecord opened own
  have given (name : String) (there : name ∈ fieldNames) :
      (Json.obj ms).find? name = (Members.find? name fs).bind Source.spelled := typed name there
  have written : m.Written m.toJson.normalise :=
    written_normalise fun e there => (Source.free_of_openRecord opened e there).1
  refine ⟨ms, spells, ?_, ?_, ?_, ?_, ?_, ?_, ?_⟩
  · rw [written.name, given "name" (by decide), ← Source.Fields.text_eq name]
  · rw [written.namespaceName, given "namespace" (by decide)]
    exact Source.Fields.optional_eq space (fun _ _ => Source.spelled_of_text) fun _ => Json.noConfusion
  · rw [written.labels, given "labels" (by decide)]
    exact Source.Fields.optional_eq labels (fun _ _ => Source.spelled_of_labels) fun _ => Json.noConfusion
  · rw [written.annotations, given "annotations" (by decide)]
    exact Source.Fields.optional_eq notes (fun _ _ => Source.spelled_of_labels) fun _ => Json.noConfusion
  · rw [written.resourceVersion, given "resourceVersion" (by decide)]
    exact Source.Fields.optional_eq revision (fun _ _ => Source.spelled_of_text) fun _ => Json.noConfusion
  · rw [written.deletionTimestamp, given "deletionTimestamp" (by decide)]
    exact restatesInstant_of_optional deletion
  · rw [toJson_eq]
    refine Source.sameBesides_written m.once_members (fun e there => ?_) free
    obtain ⟨-, src, kept⟩ := Source.free_of_openRecord opened e there
    exact Source.canonicalB_of_keep kept

end ObjectMeta

namespace StoredObject

/-- An object that is written says the same as one that was given. -/
structure Restates (given written : Json) : Prop where
  apiVersion : written.find? "apiVersion" = some ((given.find? "apiVersion").getD (.str ""))
  kind : written.find? "kind" = some ((given.find? "kind").getD (.str ""))
  metadata : ∃ meta', written.find? "metadata" = some meta' ∧
    ObjectMeta.Restates ((given.find? "metadata").getD (.obj [])) meta'
  body : Json.SameBesides fieldNames given written

/-- Objects are read field by field. -/
theorem fields_of_decode {s : Source} {o : StoredObject} (h : decode s = some o) :
    ∃ fs, s.openRecord fieldNames = some (fs, o.body) ∧
      fs.orElse "apiVersion" Source.text "" = some o.apiVersion ∧
      fs.orElse "kind" Source.text "" = some o.kind ∧
      fs.orElse "metadata" ObjectMeta.decode {} = some o.metadata := by
  unfold decode at h
  simp only [Option.bind_eq_bind, Option.bind_eq_some_iff] at h
  obtain ⟨⟨fs, body⟩, opened, _, apiVersion, _, kind, _, metadata, same⟩ := h
  cases same
  exact ⟨fs, opened, apiVersion, kind, metadata⟩

/-- What is written for an object that was read says the same. -/
theorem restates_of_decode {s : Source} {o : StoredObject} (h : decode s = some o) :
    ∃ ms, s.spelled = some (.obj ms) ∧ Restates (.obj ms) o.toJson.normalise := by
  obtain ⟨fs, opened, apiVersion, kind, metadata⟩ := fields_of_decode h
  have text (src : Source) (a : String) (read : Source.text src = some a) : ∃ v, src.spelled = some v :=
    ⟨_, Source.spelled_of_text read⟩
  have meta' (src : Source) (m : ObjectMeta) (read : ObjectMeta.decode src = some m) :
      ∃ v, src.spelled = some v := by
    obtain ⟨ms, spells, -⟩ := ObjectMeta.restates_of_decode read
    exact ⟨_, spells⟩
  have own : ∀ name ∈ fieldNames, ∀ src, Members.find? name fs = some src → ∃ v, src.spelled = some v := by
    simp only [fieldNames, List.forall_mem_cons]
    exact ⟨Source.Fields.spelled_of_orElse apiVersion text, Source.Fields.spelled_of_orElse kind text,
      Source.Fields.spelled_of_orElse metadata meta', List.forall_mem_nil _⟩
  obtain ⟨ms, spells, typed, free⟩ := Source.spelled_of_openRecord opened own
  have given (name : String) (there : name ∈ fieldNames) :
      (Json.obj ms).find? name = (Members.find? name fs).bind Source.spelled := typed name there
  have written : o.Written o.toJson.normalise :=
    written_normalise fun e there => (Source.free_of_openRecord opened e there).1
  refine ⟨ms, spells, ?_, ?_, ⟨_, written.metadata, ?_⟩, ?_⟩
  · rw [written.apiVersion, given "apiVersion" (by decide), ← Source.Fields.text_eq apiVersion]
  · rw [written.kind, given "kind" (by decide), ← Source.Fields.text_eq kind]
  · rw [given "metadata" (by decide)]
    rcases Source.Fields.orElse_cases metadata with ⟨missing, same⟩ | ⟨src, there, read⟩
    · obtain ⟨ms', spells', restates⟩ := ObjectMeta.restates_of_decode (s := .obj [] 0) (m := {}) rfl
      cases spells'
      rw [missing, same]
      exact restates
    · obtain ⟨ms', spells', restates⟩ := ObjectMeta.restates_of_decode read
      rw [there, Option.bind_some, spells']
      exact restates
  · rw [toJson_eq]
    refine Source.sameBesides_written o.once_members (fun e there => ?_) free
    obtain ⟨-, src, kept⟩ := Source.free_of_openRecord opened e there
    exact Source.canonicalB_of_keep kept

/-- **What is written back.** Whatever an object is read from spells a JSON object, and the object that is
written back says the same: defaults for what was missing, the same point in time, and under every key
without a type of its own exactly the value that was given, unless an object in it stands for a text. A
document that is looked at again spells itself. -/
theorem decode_restates {s : Source} {o : StoredObject} (read : decode s = some o) :
    (∃ ms, s.spelled = some (.obj ms) ∧ Restates (.obj ms) o.toJson.normalise) ∧
      ∀ given : Json, given.canonicalB = true → s = .ofJson given → Restates given o.toJson.normalise := by
  obtain ⟨ms, spells, restates⟩ := restates_of_decode read
  refine ⟨⟨ms, spells, restates⟩, ?_⟩
  rintro given free rfl
  rw [Source.spelled_ofJson, Json.normalise_of_canonicalB given free] at spells
  rw [Option.some.inj spells]
  exact restates

/-- An object with free members, a null and a point in time away from Greenwich. -/
def guardedDocument : Json :=
  .obj [("data", .null), ("metadata", .obj [("deletionTimestamp", .str "2024-05-01t10:00:00.5+02:00"),
    ("finalizers", .arr [.str "keep"]), ("labels", .obj [("a", .str "")]), ("namespace", .null)])]

/-- A text with a key twice, in which the data stands for another text. -/
def repeatedText : String :=
  "\x7b\"data\": 1, \"spec\": [null], \"data\": \x7b\"" ++ Source.embeddedKey ++ "\": \"2\"\x7d\x7d"

/-- The guarded object keeps its finalizers, its data and the time of its deletion, and the object of the
text keeps its free member that stands for nothing else. -/
theorem decode_restates_guarded :
    (∃ o meta' w t, decode (.ofJson guardedDocument) = some o ∧
      o.toJson.normalise.find? "data" = some .null ∧ o.toJson.normalise.find? "metadata" = some meta' ∧
      meta'.find? "finalizers" = some (.arr [.str "keep"]) ∧ meta'.find? "namespace" = none ∧
      meta'.find? "deletionTimestamp" = some (.str w) ∧ Instant.parse? w.toList = some t ∧
      Instant.parse? "2024-05-01t10:00:00.5+02:00".toList = some t) ∧
    ∃ s o, Source.ofChars? repeatedText.toList = some s ∧ decode s = some o ∧
      o.toJson.normalise.find? "spec" = some (.arr [.null]) ∧
      o.toJson.normalise.find? "data" ≠ some (.obj [(Source.embeddedKey, .str "2")]) := by
  constructor
  · have readable : (decode (.ofJson guardedDocument)).isSome = true := by decide +kernel
    obtain ⟨o, read⟩ := Option.isSome_iff_exists.1 readable
    obtain ⟨-, -, ⟨meta', there, restates⟩, body⟩ :=
      (decode_restates read).2 guardedDocument (by decide +kernel) rfl
    have data := ((body "data" (by decide)).2 .null (by decide +kernel)).2 rfl
    have finalizers := ((restates.extra "finalizers" (by decide)).2 _ rfl).2 rfl
    have times := restates.deletionTimestamp
    have given : ((guardedDocument.find? "metadata").getD (.obj [])).find? "deletionTimestamp" =
      some (.str "2024-05-01t10:00:00.5+02:00") := by decide +kernel
    rw [given] at times
    generalize written : meta'.find? "deletionTimestamp" = time at times
    cases times with
    | same given written' =>
      exact ⟨o, meta', _, _, read, data, there, finalizers, restates.namespaceName, written, written', given⟩
  · have legible : (Source.ofChars? repeatedText.toList).isSome = true := by decide +kernel
    obtain ⟨s, scanned⟩ := Option.isSome_iff_exists.1 legible
    have readable : ((Source.ofChars? repeatedText.toList).bind decode).isSome = true := by decide +kernel
    rw [scanned] at readable
    obtain ⟨o, read⟩ := Option.isSome_iff_exists.1 readable
    have spelled : (Source.ofChars? repeatedText.toList).bind Source.spelled =
        some (.obj [("data", .obj [(Source.embeddedKey, .str "2")]), ("spec", .arr [.null])]) := by
      decide +kernel
    rw [scanned, Option.bind_some] at spelled
    obtain ⟨ms, spells, restates⟩ := (decode_restates read).1
    obtain rfl : _ = ms := Json.obj.inj (Option.some.inj (spelled.symm.trans spells))
    refine ⟨s, o, scanned, read, ((restates.body "spec" (by decide)).2 _ rfl).2 rfl, fun same => ?_⟩
    have frank := ((restates.body "data" (by decide)).2 _ rfl).1 same
    cases frank

/-- Where a free member is an object with the key of embedded texts alone, another value is written back, in
the metadata as beside it. -/
theorem not_restated_embedding :
    (¬∀ (given : Json) (o : StoredObject), given.canonicalB = true → decode (.ofJson given) = some o →
      ∀ m m', given.find? "metadata" = some m → o.toJson.normalise.find? "metadata" = some m' →
        ∀ key ∉ ObjectMeta.fieldNames, m'.find? key = m.find? key) ∧
    ¬∀ (given : Json) (o : StoredObject), given.canonicalB = true → decode (.ofJson given) = some o →
      ∀ key ∉ fieldNames, o.toJson.normalise.find? key = given.find? key := by
  constructor
  · intro same
    have written := same
      (.obj [("metadata", .obj [("name", .str "a"), ("x", .obj [(Source.embeddedKey, .str "2")])])])
      { metadata := { name := "a", extra := .ofMembers [("x", .ofNat 2)] } } (by decide +kernel)
      (by decide +kernel) _ (.obj [("name", .str "a"), ("x", .ofNat 2)]) rfl (by decide +kernel) "x"
      (by decide)
    exact absurd written (by decide +kernel)
  · intro same
    have written := same (.obj [("spec", .obj [(Source.embeddedKey, .str "2")])])
      { body := .ofMembers [("spec", .ofNat 2)] } (by decide +kernel) (by decide +kernel) "spec" (by decide)
    exact absurd written (by decide +kernel)

end StoredObject

end AppAdmission
