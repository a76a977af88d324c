import AppAdmission.Proofs.Json.Slot
import AppAdmission.Proofs.Json.Spelled
import AppAdmission.Proofs.Resource.Stored

/-!
# Written records in order

A record that is written and brought in order has its fields under their names and its free members under
their keys. The order in which they were written is gone, so a reader finds them by their keys.
-/

namespace AppAdmission

open Json (present)

namespace Members

variable {α : Type} {ms : List (String × α)}

theorem nodup_of_sorted (sorted : Sorted ms) : (ms.map (·.1)).Nodup :=
  Json.uniqueB_iff.1 (Json.Source.uniqueB_of_sorted sorted)

end Members

/-- A name that no entry of a map has is not found. -/
theorem OrderedMap.get?_eq_none_of_apart {α : Type} {names : List String} {d : Dict α}
    (apart : ∀ e ∈ d.entries, e.1 ∉ names) {name : String} (there : name ∈ names) : d.get? name = none := by
  refine Members.find?_eq_none_of_key fun among => ?_
  obtain ⟨e, entry, same⟩ := List.mem_map.1 among
  exact apart e entry (same ▸ there)

namespace Json

variable {fields : List (String × Option Json)} {rest : Dict Json}

/-- A record that is written and brought in order has its fields and its free members. -/
theorem find?_normalise_record (once : (fields.map (·.1)).Nodup) (key : String) :
    (normalise (obj (present fields ++ rest.entries))).find? key =
      ((rest.get? key).or (Members.find? key (present fields))).map normalise := by
  have typed : Members.find? key (present fields).reverse = Members.find? key (present fields) :=
    Members.find?_reverse ((keys_present fields).nodup once)
  have free : Members.find? key rest.entries.reverse = rest.get? key :=
    Members.find?_reverse (Members.nodup_of_sorted rest.sorted)
  rw [normalise, find?, find?_sort_normaliseMembers, List.reverse_append, Members.find?_append, typed, free]

theorem find?_normalise_field (once : (fields.map (·.1)).Nodup) {f : String × Option Json}
    (there : f ∈ fields) (apart : rest.get? f.1 = none) :
    (normalise (obj (present fields ++ rest.entries))).find? f.1 = f.2.map normalise := by
  rw [find?_normalise_record once, apart, find?_present once there]
  rfl

/-- The free values of a map are in order already. -/
theorem map_normalise_get? (free : ∀ e ∈ rest.entries, e.2.canonicalB = true) (key : String) :
    (rest.get? key).map normalise = rest.get? key := by
  cases there : rest.get? key with
  | none => rfl
  | some v => exact congrArg some (normalise_of_canonicalB v (free (key, v) (Members.mem_of_find? there)))

theorem find?_normalise_free (once : (fields.map (·.1)).Nodup) {key : String}
    (apart : key ∉ fields.map (·.1)) :
    (normalise (obj (present fields ++ rest.entries))).find? key = (rest.get? key).map normalise := by
  have missing : Members.find? key (present fields) = none :=
    Members.find?_eq_none_of_key fun there => apart ((keys_present fields).subset there)
  rw [find?_normalise_record once, missing, Option.or_none]

end Json

namespace ObjectMeta

/-- The members of written metadata with types of their own. -/
def members (m : ObjectMeta) : List (String × Option Json) :=
  [("name", some (.str m.name)), ("namespace", m.namespaceName.map .str),
    ("labels", m.labels.map .ofLabels), ("annotations", m.annotations.map .ofLabels),
    ("resourceVersion", m.resourceVersion.map .str),
    ("deletionTimestamp", m.deletionTimestamp.map fun t => .str t.render)]

theorem toJson_eq (m : ObjectMeta) : m.toJson = .obj (present m.members ++ m.extra.entries) := by
  simp [toJson, members]

theorem keys_members (m : ObjectMeta) : m.members.map (·.1) = fieldNames := rfl

theorem once_members (m : ObjectMeta) : (m.members.map (·.1)).Nodup := by
  rw [keys_members]
  decide

/-- The members of some metadata are in an object. -/
structure Written (m : ObjectMeta) (j : Json) : Prop where
  name : j.find? "name" = some (.str m.name)
  namespaceName : j.find? "namespace" = m.namespaceName.map .str
  labels : j.find? "labels" = m.labels.map .ofLabels
  annotations : j.find? "annotations" = m.annotations.map .ofLabels
  resourceVersion : j.find? "resourceVersion" = m.resourceVersion.map .str
  deletionTimestamp : j.find? "deletionTimestamp" = m.deletionTimestamp.map fun t => .str t.render
  extra : ∀ key ∉ fieldNames, j.find? key = (m.extra.get? key).map Json.normalise

/-- Metadata that has no field twice is written with its members. -/
theorem written_normalise {m : ObjectMeta} (apart : ∀ e ∈ m.extra.entries, e.1 ∉ fieldNames) :
    m.Written m.toJson.normalise := by
  have field (name : String) (v : Option Json) (there : (name, v) ∈ m.members) :
      m.toJson.normalise.find? name = v.map Json.normalise := by
    have named : name ∈ fieldNames := m.keys_members ▸ List.mem_map_of_mem there
    rw [toJson_eq]
    exact Json.find?_normalise_field m.once_members there (OrderedMap.get?_eq_none_of_apart apart named)
  have texts (o : Option String) : (o.map Json.str).map Json.normalise = o.map .str := by
    cases o <;> rfl
  have maps (o : Option (Dict String)) : (o.map Json.ofLabels).map Json.normalise = o.map .ofLabels := by
    cases o with
    | none => rfl
    | some d => exact congrArg some (Json.normalise_ofLabels d)
  refine ⟨?_, ?_, ?_, ?_, ?_, ?_, fun key other => ?_⟩
  · exact field _ _ (.head _)
  · exact (field _ _ (.tail _ (.head _))).trans (texts _)
  · exact (field _ _ (.tail _ (.tail _ (.head _)))).trans (maps _)
  · exact (field _ _ (.tail _ (.tail _ (.tail _ (.head _))))).trans (maps _)
  · exact (field _ _ (.tail _ (.tail _ (.tail _ (.tail _ (.head _)))))).trans (texts _)
  · refine (field _ _ (.tail _ (.tail _ (.tail _ (.tail _ (.tail _ (.head _))))))).trans ?_
    cases m.deletionTimestamp <;> rfl
  · rw [toJson_eq]
    exact Json.find?_normalise_free m.once_members (m.keys_members ▸ other)

end ObjectMeta

namespace StoredObject

/-- The members of a written object with types of their own. -/
def members (o : StoredObject) : List (String × Option Json) :=
  [("apiVersion", some (.str o.apiVersion)), ("kind", some (.str o.kind)),
    ("metadata", some o.metadata.toJson)]

theorem toJson_eq (o : StoredObject) : o.toJson = .obj (present o.members ++ o.body.entries) := rfl

theorem keys_members (o : StoredObject) : o.members.map (·.1) = fieldNames := rfl

theorem once_members (o : StoredObject) : (o.members.map (·.1)).Nodup := by
  rw [keys_members]
  decide

/-- The members of a stored object are in an object. -/
structure Written (o : StoredObject) (j : Json) : Prop where
  apiVersion : j.find? "apiVersion" = some (.str o.apiVersion)
  kind : j.find? "kind" = some (.str o.kind)
  metadata : j.find? "metadata" = some o.metadata.toJson.normalise
  body : ∀ key ∉ fieldNames, j.find? key = (o.body.get? key).map Json.normalise

/-- A stored object that has no field twice is written with its members. -/
theorem written_normalise {o : StoredObject} (apart : ∀ e ∈ o.body.entries, e.1 ∉ fieldNames) :
    o.Written o.toJson.normalise := by
  have field (name : String) (v : Option Json) (there : (name, v) ∈ o.members) :
      o.toJson.normalise.find? name = v.map Json.normalise := by
    have named : name ∈ fieldNames := o.keys_members ▸ List.mem_map_of_mem there
    rw [toJson_eq]
    exact Json.find?_normalise_field o.once_members there (OrderedMap.get?_eq_none_of_apart apart named)
  refine ⟨?_, ?_, ?_, fun key other => ?_⟩
  · exact field _ _ (.head _)
  · exact field _ _ (.tail _ (.head _))
  · exact field _ _ (.tail _ (.tail _ (.head _)))
  · rw [toJson_eq]
    exact Json.find?_normalise_free o.once_members (o.keys_members ▸ other)

end StoredObject

end AppAdmission
