import AppAdmission.Proofs.Resource.Restated
import AppAdmission.Proofs.Resource.Typed
import AppAdmission.Store.Memory

/-!
# Typed resources in a store

Apps, clusters, releases and config maps have one layout: a type, which clusters and releases do without,
metadata, and other members. From the layout follows the stored form, and from the stored form the
resource is read again. It comes back exactly if its free values are plain, and then it also comes back
from a store, with the revision that the store gave it.
-/

namespace AppAdmission

open Json (Source present)

namespace Json.Source

variable {names : List String} {ms : List (String × Json)} {rest others : Dict Json}

/-- Other members that are carried over were each kept. -/
theorem keep_of_keptOthers (sorted : Members.Sorted ms)
    (found : ∀ key ∉ names, Members.find? key ms = rest.get? key)
    (apart : ∀ e ∈ rest.entries, e.1 ∉ names) (h : keptOthers names ms = some others) :
    ∀ e ∈ rest.entries, ∃ j, keep (ofJson e.2) = some j ∧ others.get? e.1 = some j := by
  unfold keptOthers at h
  rw [filter_eq_entries sorted found apart] at h
  obtain ⟨es, kept, rfl⟩ := Option.map_eq_some_iff.1 h
  have read : ((rest.entries.map fun e => (e.1, ofJson e.2)).mapM fun m =>
      (keep m.2).map fun j => (m.1, j)) = some es := by
    rw [List.mapM_map]
    exact kept
  obtain ⟨keeps, same⟩ := find?_of_mapM read
  intro e there
  obtain ⟨j, own⟩ := keeps _ (List.mem_map_of_mem there)
  refine ⟨j, own, ?_⟩
  have entry : Members.find? e.1 rest.entries = some e.2 := Members.find?_of_mem rest.sorted there
  rw [OrderedMap.get?, OrderedMap.ofMembers, Members.find?_sort, same, ← List.map_reverse,
    Members.find?_map, Members.find?_reverse (Members.nodup_of_sorted rest.sorted), entry]
  exact own

/-- A map that is read from a free value is the value. -/
theorem eq_of_labels {j : Json} (free : j.canonicalB = true) {d : Dict String}
    (h : labels (ofJson j) = some d) : j = .ofLabels d := by
  have spells := spelled_of_labels h
  rw [spelled_ofJson, normalise_of_canonicalB j free] at spells
  exact Option.some.inj spells

end Json.Source

namespace Json

/-- A record of free values that is brought in order has its fields and its other members. -/
theorem exists_normalise_record {fields : List (String × Option Json)} {rest : Dict Json}
    (once : (fields.map (·.1)).Nodup) (apart : ∀ e ∈ rest.entries, e.1 ∉ fields.map (·.1))
    (free : ∀ e ∈ rest.entries, e.2.canonicalB = true) :
    ∃ ms, (obj (present fields ++ rest.entries)).normalise = obj ms ∧ Members.Sorted ms ∧
      (∀ f ∈ fields, Members.find? f.1 ms = f.2.map normalise) ∧
      ∀ key ∉ fields.map (·.1), Members.find? key ms = rest.get? key := by
  refine ⟨_, rfl, Members.sorted_sort _, fun f there => ?_, fun key other => ?_⟩
  · have missing := OrderedMap.get?_eq_none_of_apart apart (List.mem_map_of_mem there)
    exact find?_normalise_field once there missing
  · exact (find?_normalise_free once other).trans (map_normalise_get? free key)

end Json

namespace ObjectMeta

/-- Metadata that comes back from the stored form is plain. -/
theorem plain_of_reread {m m' : ObjectMeta} (fit : m.Fit)
    (first : decode (.ofJson m.toJson.normalise) = some m') {s : Source} (second : decode s = some m) :
    m.Plain := by
  obtain ⟨ms, same, sorted, -, found⟩ := Json.exists_normalise_record m.once_members fit.apart fit.free
  rw [toJson_eq, same] at first
  obtain ⟨kept, -⟩ := (decode_obj_iff sorted).1 first
  obtain ⟨fs, opened, -⟩ := fields_of_decode second
  intro e there
  obtain ⟨j, again, -⟩ := Source.keep_of_keptOthers sorted found fit.apart kept e there
  obtain ⟨-, src, own⟩ := Source.free_of_openRecord opened e there
  exact Source.plainB_of_keep (fit.free e there) (Source.frankB_of_keep own) again

end ObjectMeta

/-- How a resource is laid out: its type if it has one, its metadata, and its other members. -/
structure Layout where
  apiVersion : Option String
  kind : Option String
  metadata : ObjectMeta
  body : Dict Json

namespace Layout

/-- The members with types of their own. -/
def members (l : Layout) : List (String × Option Json) :=
  [("apiVersion", l.apiVersion.map .str), ("kind", l.kind.map .str), ("metadata", some l.metadata.toJson)]

/-- A resource as JSON. -/
def toJson (l : Layout) : Json := .obj (present l.members ++ l.body.entries)

/-- A resource in the stored form, where a missing type is empty. -/
def stored (l : Layout) : StoredObject where
  apiVersion := l.apiVersion.getD ""
  kind := l.kind.getD ""
  metadata := l.metadata
  body := l.body

/-- No member is there twice, and the other members are free values. -/
structure Fit (l : Layout) : Prop where
  metadata : l.metadata.Fit
  apart : ∀ e ∈ l.body.entries, e.1 ∉ StoredObject.fieldNames
  free : ∀ e ∈ l.body.entries, e.2.canonicalB = true

/-- No free value has an object that begins as one that stands for an embedded text. -/
structure Plain (l : Layout) : Prop where
  metadata : l.metadata.Plain
  body : ∀ e ∈ l.body.entries, e.2.plainB = true

/-- A layout with one other member. -/
theorem fit_single {apiVersion kind : Option String} {m : ObjectMeta} (fit : m.Fit) {key : String}
    (apart : key ∉ StoredObject.fieldNames) {j : Json} (free : j.canonicalB = true) :
    Fit ⟨apiVersion, kind, m, .insert .empty key j⟩ :=
  ⟨fit, List.forall_mem_singleton.2 apart, List.forall_mem_singleton.2 free⟩

theorem once_members (l : Layout) : (l.members.map (·.1)).Nodup := by
  show StoredObject.fieldNames.Nodup
  decide

variable {l : Layout} (fit : l.Fit)

include fit

/-- Plain resources are read in the stored form. -/
theorem decode_normalise_toJson (plain : l.Plain) :
    StoredObject.decode (.ofJson l.toJson.normalise) = some l.stored := by
  obtain ⟨ms, same, sorted, field, body⟩ := Json.exists_normalise_record l.once_members fit.apart fit.free
  have text (name : String) (v : Option String) (own : StoredObject.fieldNames.contains name = true)
      (there : (name, v.map .str) ∈ l.members) :
      (Source.given StoredObject.fieldNames ms).orElse name Source.text "" = some (v.getD "") := by
    rw [Source.orElse_given own, field _ there]
    cases v <;> rfl
  have metadata : Members.find? "metadata" ms = some l.metadata.toJson.normalise :=
    field _ (.tail _ (.tail _ (.head _)))
  rw [toJson, same]
  refine (StoredObject.decode_obj_iff sorted).2 ⟨?_, ?_, ?_, ?_⟩
  · exact Source.keptOthers_of_plain sorted body fit.apart fit.free plain.body
  · exact text _ _ (by decide) (.head _)
  · exact text _ _ (by decide) (.tail _ (.head _))
  · exact (Source.orElse_given_of_member (by decide) metadata _ _).trans
      (ObjectMeta.decode_normalise_toJson fit.metadata plain.metadata)

/-- Of a resource that is read in the stored form the metadata is read and each other member is kept. -/
theorem kept_of_decode {o : StoredObject} (h : StoredObject.decode (.ofJson l.toJson.normalise) = some o) :
    ObjectMeta.decode (.ofJson l.metadata.toJson.normalise) = some o.metadata ∧
      ∀ e ∈ l.body.entries, ∃ j, Source.keep (.ofJson e.2) = some j ∧ o.body.get? e.1 = some j := by
  obtain ⟨ms, same, sorted, field, body⟩ := Json.exists_normalise_record l.once_members fit.apart fit.free
  have metadata : Members.find? "metadata" ms = some l.metadata.toJson.normalise :=
    field _ (.tail _ (.tail _ (.head _)))
  rw [toJson, same] at h
  obtain ⟨kept, -, -, read⟩ := (StoredObject.decode_obj_iff sorted).1 h
  have given : StoredObject.fieldNames.contains "metadata" = true := by decide
  rw [Source.orElse_given_of_member given metadata] at read
  exact ⟨read, Source.keep_of_keptOthers sorted body fit.apart kept⟩

end Layout

/-! ## Typed resources behind stored objects -/

section

variable {o : StoredObject} (apart : ∀ e ∈ o.body.entries, e.1 ∉ StoredObject.fieldNames)

include apart

theorem StoredObject.exists_written :
    ∃ ms, o.toJson.normalise = .obj ms ∧ Members.Sorted ms ∧ o.Written (.obj ms) := by
  obtain ⟨ms, same, sorted⟩ := Json.exists_normalise_obj (present o.members ++ o.body.entries)
  have written := StoredObject.written_normalise apart
  rw [StoredObject.toJson_eq, same] at written
  exact ⟨ms, (congrArg Json.normalise o.toJson_eq).trans same, sorted, written⟩

/-- Behind a stored object is an App if its metadata and its specification can be read. -/
theorem App.toTyped?_iff {a : App} : o.toTyped? decode = some a ↔
    o.apiVersion = a.apiVersion ∧ o.kind = a.kind ∧
      ObjectMeta.decode (.ofJson o.metadata.toJson.normalise) = some a.metadata ∧
      ∃ j, o.body.get? "spec" = some j ∧ AppSpec.decode (.ofJson j.normalise) = some a.spec := by
  obtain ⟨ms, same, sorted, written⟩ := StoredObject.exists_written apart
  have spec : (fields ms).need "spec" AppSpec.decode =
      (o.body.get? "spec").bind fun j => AppSpec.decode (.ofJson j.normalise) := by
    have member : Members.find? "spec" ms = _ := written.body "spec" (by decide)
    rw [Source.Fields.need, fields, Source.find?_given (by decide), member]
    cases o.body.get? "spec" <;> rfl
  rw [StoredObject.toTyped?, same, decode_obj_iff sorted, spec, fields,
    Source.orElse_given_of_member (by decide) written.apiVersion,
    Source.orElse_given_of_member (by decide) written.kind,
    Source.orElse_given_of_member (by decide) written.metadata]
  simp [Source.text, Source.ofJson, Option.bind_eq_some_iff]

/-- Behind a stored object is a cluster if its metadata can be read. -/
theorem Cluster.toTyped?_iff {c : Cluster} : o.toTyped? decode = some c ↔
    ObjectMeta.decode (.ofJson o.metadata.toJson.normalise) = some c.metadata := by
  obtain ⟨ms, same, sorted, written⟩ := StoredObject.exists_written apart
  rw [StoredObject.toTyped?, same, decode_obj_iff sorted,
    Source.orElse_given_of_member (by decide) written.metadata]

/-- Behind a stored object is a release if its metadata and its components can be read. -/
theorem Release.toTyped?_iff {r : Release} : o.toTyped? decode = some r ↔
    ObjectMeta.decode (.ofJson o.metadata.toJson.normalise) = some r.metadata ∧
      (o.body.get? "spec").elim (some []) (fun j => decodeSpec (.ofJson j.normalise)) =
        some r.components := by
  obtain ⟨ms, same, sorted, written⟩ := StoredObject.exists_written apart
  have member : Members.find? "spec" ms = _ := written.body "spec" (by decide)
  rw [StoredObject.toTyped?, same, decode_obj_iff sorted,
    Source.orElse_given_of_member (by decide) written.metadata, Source.orElse_given (by decide), member]
  cases o.body.get? "spec" <;> rfl

/-- Behind a stored object is a config map if its metadata and its data can be read. -/
theorem ConfigMap.toTyped?_iff {c : ConfigMap} : o.toTyped? decode = some c ↔
    o.apiVersion = c.apiVersion ∧ o.kind = c.kind ∧
      ObjectMeta.decode (.ofJson o.metadata.toJson.normalise) = some c.metadata ∧
      (o.body.get? "data").elim (some .empty) (fun j => Source.labels (.ofJson j.normalise)) =
        some c.data := by
  obtain ⟨ms, same, sorted, written⟩ := StoredObject.exists_written apart
  have member : Members.find? "data" ms = _ := written.body "data" (by decide)
  rw [StoredObject.toTyped?, same, decode_obj_iff sorted,
    Source.orElse_given_of_member (by decide) written.apiVersion,
    Source.orElse_given_of_member (by decide) written.kind,
    Source.orElse_given_of_member (by decide) written.metadata, Source.orElse_given (by decide), member]
  cases o.body.get? "data" <;> simp [Source.text, Source.ofJson]

end

/-- The types of resources. -/
inductive ResourceType where
  | app
  | cluster
  | release
  | configMap
  deriving DecidableEq, Repr

namespace ResourceType

/-- The resources of a type. -/
abbrev Value : ResourceType → Type
  | app => App
  | cluster => Cluster
  | release => Release
  | configMap => ConfigMap

/-- How a resource is read. -/
def decode : (t : ResourceType) → Source → Option t.Value
  | app => App.decode
  | cluster => Cluster.decode
  | release => Release.decode
  | configMap => ConfigMap.decode

/-- How a resource is written. -/
def toJson : (t : ResourceType) → t.Value → Json
  | app => App.toJson
  | cluster => Cluster.toJson
  | release => Release.toJson
  | configMap => ConfigMap.toJson

/-- The metadata of a resource. -/
def metadata : (t : ResourceType) → t.Value → ObjectMeta
  | app => App.metadata
  | cluster => Cluster.metadata
  | release => Release.metadata
  | configMap => ConfigMap.metadata

/-- A resource with other metadata. -/
def withMetadata : (t : ResourceType) → t.Value → ObjectMeta → t.Value
  | app, a, m => { a with metadata := m }
  | cluster, c, m => { c with metadata := m }
  | release, r, m => { r with metadata := m }
  | configMap, c, m => { c with metadata := m }

/-- A resource with another revision. -/
def revised (t : ResourceType) (x : t.Value) (revision : String) : t.Value :=
  t.withMetadata x { t.metadata x with resourceVersion := some revision }

/-- The metadata of a resource has no field twice, its free members are free values, its time of deletion
exists, and the priorities of an App fit in 32 bits. -/
def Fit : (t : ResourceType) → t.Value → Prop
  | app, a => a.metadata.Fit ∧ a.spec.Fit
  | cluster, c => c.metadata.Fit
  | release, r => r.metadata.Fit
  | configMap, c => c.metadata.Fit

/-- No free member of the metadata has an object that begins as one that stands for an embedded text, and
the data of a config map does not begin so either. -/
def Plain : (t : ResourceType) → t.Value → Prop
  | app, a => a.metadata.Plain
  | cluster, c => c.metadata.Plain
  | release, r => r.metadata.Plain
  | configMap, c => c.metadata.Plain ∧ (Json.ofLabels c.data).plainB = true

/-- How a resource is laid out. -/
def layout : (t : ResourceType) → t.Value → Layout
  | app, a => ⟨some a.apiVersion, some a.kind, a.metadata, .insert .empty "spec" a.spec.toJson.normalise⟩
  | cluster, c => ⟨none, none, c.metadata, .empty⟩
  | release, r => ⟨none, none, r.metadata, .insert .empty "spec" (Release.specJson r.components)⟩
  | configMap, c => ⟨some c.apiVersion, some c.kind, c.metadata, .insert .empty "data" (.ofLabels c.data)⟩

/-- A resource is written as it is laid out. -/
theorem normalise_toJson (t : ResourceType) (x : t.Value) :
    (t.toJson x).normalise = (t.layout x).toJson.normalise := by
  cases t with
  | app =>
    show Json.obj (Members.sort [_, _, _, ("spec", _)]) = .obj (Members.sort [_, _, _, ("spec", _)])
    rw [Json.normalise_normalise]
    rfl
  | cluster | release | configMap => rfl

variable {t : ResourceType} {x : t.Value}

theorem fit_layout (fit : t.Fit x) : (t.layout x).Fit := by
  cases t with
  | app => exact Layout.fit_single fit.1 (by decide) (Json.canonicalB_normalise _)
  | cluster => exact ⟨fit, nofun, nofun⟩
  | release => exact Layout.fit_single fit (by decide) (Release.canonicalB_specJson x.components)
  | configMap => exact Layout.fit_single fit (by decide) (Json.canonicalB_ofLabels x.data)

theorem plain_layout (plain : t.Plain x) : (t.layout x).Plain := by
  cases t with
  | app => exact ⟨plain, List.forall_mem_singleton.2 x.spec.plainB_normalise_toJson⟩
  | cluster => exact ⟨plain, nofun⟩
  | release => exact ⟨plain, List.forall_mem_singleton.2 (Release.plainB_specJson x.components)⟩
  | configMap => exact ⟨plain.1, List.forall_mem_singleton.2 plain.2⟩

/-- In the stored form a resource has another revision if the stored object has. -/
theorem stored_revised (revision : String) : (t.layout (t.revised x revision)).stored =
    { (t.layout x).stored with metadata := { t.metadata x with resourceVersion := some revision } } := by
  cases t <;> rfl

theorem metadata_stored : (t.layout x).stored.metadata = t.metadata x := by
  cases t <;> rfl

theorem fit_revised (fit : t.Fit x) (revision : String) : t.Fit (t.revised x revision) := by
  cases t with
  | app => exact ⟨⟨fit.1.apart, fit.1.free, fit.1.deletion⟩, fit.2⟩
  | cluster | release | configMap => exact ⟨fit.apart, fit.free, fit.deletion⟩

theorem plain_revised (plain : t.Plain x) (revision : String) : t.Plain (t.revised x revision) := by
  cases t <;> exact plain

section

variable (fit : t.Fit x)

include fit

/-- Plain resources go into the stored form. -/
theorem ofJson?_toJson (plain : t.Plain x) :
    StoredObject.ofJson? (t.toJson x) = some (t.layout x).stored := by
  rw [StoredObject.ofJson?, normalise_toJson]
  exact Layout.decode_normalise_toJson (fit_layout fit) (plain_layout plain)

/-- Plain resources come back from the stored form. -/
theorem toTyped?_stored (plain : t.Plain x) : (t.layout x).stored.toTyped? t.decode = some x := by
  have laidOut := fit_layout fit
  have apart : ∀ e ∈ (t.layout x).stored.body.entries, e.1 ∉ StoredObject.fieldNames := laidOut.apart
  have metadata := ObjectMeta.decode_normalise_toJson laidOut.metadata (plain_layout plain).metadata
  cases t with
  | app =>
    have spec : AppSpec.decode (.ofJson x.spec.toJson.normalise.normalise) = some x.spec := by
      rw [Json.normalise_normalise]
      exact AppSpec.decode_normalise_toJson fit.2
    exact (App.toTyped?_iff apart).2 ⟨rfl, rfl, metadata, _, OrderedMap.get?_insert_self _ _ _, spec⟩
  | cluster => exact (Cluster.toTyped?_iff apart).2 metadata
  | release =>
    have spec := Release.decodeSpec_specJson x.components
    rw [← Json.normalise_of_canonicalB _ (Release.canonicalB_specJson x.components)] at spec
    exact (Release.toTyped?_iff apart).2 ⟨metadata, spec⟩
  | configMap =>
    have data : Source.labels (.ofJson (Json.ofLabels x.data).normalise) = some x.data := by
      rw [Json.normalise_ofLabels]
      exact Source.labels_ofJson_ofLabels x.data
    exact (ConfigMap.toTyped?_iff apart).2 ⟨rfl, rfl, metadata, data⟩

/-- Resources that come back from the stored form are plain. -/
theorem plain_of_toTyped? {o : StoredObject} (first : StoredObject.ofJson? (t.toJson x) = some o)
    (second : o.toTyped? t.decode = some x) : t.Plain x := by
  rw [StoredObject.ofJson?, normalise_toJson] at first
  obtain ⟨metadata, body⟩ := Layout.kept_of_decode (fit_layout fit) first
  obtain ⟨fs, opened, -⟩ := StoredObject.fields_of_decode first
  have apart : ∀ e ∈ o.body.entries, e.1 ∉ StoredObject.fieldNames := fun e there =>
    (Source.free_of_openRecord opened e there).1
  cases t with
  | app =>
    obtain ⟨-, -, again, -⟩ := (App.toTyped?_iff apart).1 second
    exact ObjectMeta.plain_of_reread fit.1 metadata again
  | cluster => exact ObjectMeta.plain_of_reread fit metadata ((Cluster.toTyped?_iff apart).1 second)
  | release => exact ObjectMeta.plain_of_reread fit metadata ((Release.toTyped?_iff apart).1 second).1
  | configMap =>
    obtain ⟨-, -, again, data⟩ := (ConfigMap.toTyped?_iff apart).1 second
    refine ⟨ObjectMeta.plain_of_reread fit metadata again, ?_⟩
    obtain ⟨j, kept, there⟩ := body ("data", .ofLabels x.data) (List.mem_singleton_self _)
    have free := Source.canonicalB_of_keep kept
    rw [there, Option.elim_some, Json.normalise_of_canonicalB j free] at data
    obtain rfl := Source.eq_of_labels free data
    exact (Source.keep_ofJson_iff free).1 kept

/-- What is put into a store for a plain resource is found under its key and read as the resource with
its new revision. -/
theorem reads_insert (plain : t.Plain x) (s : MemoryStore) (kind : ResourceKind) :
    ∃ o, (s.insert kind (t.layout x).stored).peek kind (t.metadata x).namespaceName (t.metadata x).name =
        some o ∧
      o.toTyped? t.decode = some (t.revised x (toString (s.revision + 1))) := by
  refine ⟨_, ?_, toTyped?_stored (fit_revised fit (toString (s.revision + 1))) (plain_revised plain _)⟩
  rw [stored_revised, ← metadata_stored]
  exact OrderedMap.get?_insert_self _ _ _

end

/-- **Typed resources in a store.** A resource goes into the stored form and comes back from it exactly if
no free value in it begins as an object that stands for an embedded text. Then what is put into a store
for it is found under its namespace and its name, and is read as the resource with only its revision
replaced. -/
theorem survives_store (t : ResourceType) (x : t.Value) (fit : t.Fit x) :
    ((∃ o, StoredObject.ofJson? (t.toJson x) = some o ∧ o.toTyped? t.decode = some x) ↔ t.Plain x) ∧
      (t.Plain x → ∃ o, StoredObject.ofJson? (t.toJson x) = some o ∧
        ∀ (s : MemoryStore) (kind : ResourceKind), ∃ o',
          (s.insert kind o).peek kind (t.metadata x).namespaceName (t.metadata x).name = some o' ∧
            o'.toTyped? t.decode = some (t.revised x (toString (s.revision + 1)))) := by
  refine ⟨⟨?_, fun plain => ?_⟩, fun plain => ?_⟩
  · rintro ⟨o, first, second⟩
    exact plain_of_toTyped? fit first second
  · exact ⟨_, ofJson?_toJson fit plain, toTyped?_stored fit plain⟩
  · exact ⟨_, ofJson?_toJson fit plain, reads_insert fit plain⟩

/-- A config map that is being deleted, with finalizers. -/
def guardedMap : ConfigMap where
  metadata :=
    { name := "a", namespaceName := some "b",
      deletionTimestamp := Instant.parse? "2024-05-01T10:00:00.5Z".toList
      extra := .ofMembers [("finalizers", .arr [.str "keep"])] }
  data := .ofMembers [("values", "x: 1")]

/-- The guarded config map comes back from an empty store as its first revision. -/
theorem survives_store_guarded :
    ∃ o o', StoredObject.ofJson? guardedMap.toJson = some o ∧ o.toTyped? ConfigMap.decode = some guardedMap ∧
      ((default : MemoryStore).insert .configMap o).peek .configMap (some "b") "a" = some o' ∧
      o'.toTyped? ConfigMap.decode =
        some { guardedMap with metadata := { guardedMap.metadata with resourceVersion := some "1" } } := by
  have fit : configMap.Fit guardedMap :=
    ⟨by decide +kernel, by decide +kernel, fun _ there => Instant.valid_of_parse? there⟩
  have plain : configMap.Plain guardedMap := ⟨by unfold ObjectMeta.Plain; decide +kernel, by decide +kernel⟩
  obtain ⟨back, stored⟩ := survives_store configMap guardedMap fit
  obtain ⟨o, first, second⟩ := back.2 plain
  obtain ⟨_, again, found⟩ := stored plain
  obtain rfl := Option.some.inj (first.symm.trans again)
  obtain ⟨o', there, read⟩ := found default .configMap
  exact ⟨o, o', first, second, there, read⟩

/-- A config map is not stored if the first key of its data is that of embedded texts. -/
theorem not_survives_embedding : ¬∀ (t : ResourceType) (x : t.Value), t.Fit x →
    ∃ o, StoredObject.ofJson? (t.toJson x) = some o ∧ o.toTyped? t.decode = some x := by
  intro back
  let c : ConfigMap :=
    { metadata := { name := "a" }, data := .ofMembers [(Source.embeddedKey, "2"), ("a", "")] }
  have fit : configMap.Fit c := ⟨nofun, nofun, nofun⟩
  obtain ⟨o, stored, -⟩ := back configMap c fit
  have lost : StoredObject.ofJson? c.toJson = none := by decide +kernel
  cases lost.symm.trans stored

end ResourceType

end AppAdmission
