import AppAdmission.Proofs.Resource.Metadata
import AppAdmission.Resource.Stored

/-!
# Records behind stored objects

What is read from the stored form of a cluster, and how it depends on the labels of the object. Among
the free members of an object there may be some that stand for its labels or for its metadata; these
then decide what is read, and the labels do not matter.
-/

namespace AppAdmission

open Json (Source)

namespace Json

theorem normaliseMembers_eq_map (ms : List (String × Json)) :
    normaliseMembers ms = ms.map fun m => (m.1, normalise m.2) := by
  induction ms with
  | nil => rfl
  | cons m rest ih => rw [normaliseMembers, ih, List.map_cons]

/-- In the free value of an object the last of several members under a key is found. -/
theorem find?_sort_normaliseMembers (key : String) (ms : List (String × Json)) :
    Members.find? key (Members.sort (normaliseMembers ms)) =
      (Members.find? key ms.reverse).map normalise := by
  rw [Members.find?_sort, normaliseMembers_eq_map, ← List.map_reverse, Members.find?_map]

theorem normalise_ofLabels (d : Dict String) : normalise (ofLabels d) = ofLabels d := by
  have texts : normaliseMembers (d.entries.map fun e => (e.1, str e.2)) =
      d.entries.map fun e => (e.1, str e.2) := by
    rw [normaliseMembers_eq_map, List.map_map]
    rfl
  unfold ofLabels
  rw [normalise, texts, Members.sort_of_sorted ((Members.sorted_map str).2 d.sorted)]

theorem find?_optional_ne {key other : String} (apart : key ≠ other) (value : Option Json) :
    Members.find? key (optional other value).reverse = none := by
  cases value with
  | none => rfl
  | some v => simp [optional, Members.find?, apart.symm]

/-- A member that may be left out is either hidden by a later one under its key, or it is put in. -/
theorem normalise_optional {key : String} {front back : List (String × Json)}
    (fresh : Members.find? key front.reverse = none) :
    (∀ v v', normalise (obj (front ++ optional key v ++ back)) =
        normalise (obj (front ++ optional key v' ++ back))) ∨
      ∃ ms, Members.Sorted ms ∧ Members.find? key ms = none ∧
        ∀ v, normalise (obj (front ++ optional key v ++ back)) =
          obj (v.elim ms fun j => Members.insert key (normalise j) ms) := by
  have found (name : String) (v : Option Json) : Members.find? name
      (Members.sort (normaliseMembers (front ++ optional key v ++ back))) =
        ((Members.find? name back.reverse).or ((Members.find? name (optional key v).reverse).or
          (Members.find? name front.reverse))).map normalise := by
    rw [find?_sort_normaliseMembers, List.reverse_append, List.reverse_append, Members.find?_append,
      Members.find?_append]
  cases hidden : Members.find? key back.reverse with
  | some j =>
    left
    intro v v'
    refine congrArg obj (Members.ext_of_sorted (Members.sorted_sort _) (Members.sorted_sort _) ?_)
    intro name
    rw [found, found]
    by_cases same : name = key
    · rw [same, hidden]
      rfl
    · rw [find?_optional_ne same, find?_optional_ne same]
  | none =>
    right
    refine ⟨Members.sort (normaliseMembers (front ++ optional key none ++ back)),
      Members.sorted_sort _, ?_, ?_⟩
    · rw [found, hidden, fresh]
      rfl
    · intro v
      cases v with
      | none => rfl
      | some j =>
        refine congrArg obj (Members.ext_of_sorted (Members.sorted_sort _)
          (Members.sorted_insert (Members.sorted_sort _)) ?_)
        intro name
        rw [Option.elim_some]
        by_cases same : name = key
        · rw [same, found, hidden, Members.find?_insert_self]
          simp [optional, Members.find?]
        · rw [Members.find?_insert_ne _ _ same, found, found, find?_optional_ne same,
            find?_optional_ne same]

end Json

namespace ObjectMeta

/-- Metadata with other labels. -/
def relabelled (m : ObjectMeta) (labels : Option (Dict String)) : ObjectMeta :=
  { m with labels := labels }

/-- The labels stand among the other members. -/
theorem toJson_relabelled (m : ObjectMeta) :
    ∃ front back, Members.find? "labels" front.reverse = none ∧
      ∀ labels, (m.relabelled labels).toJson =
        .obj (front ++ Json.optional "labels" (labels.map Json.ofLabels) ++ back) := by
  refine ⟨("name", .str m.name) :: Json.optional "namespace" (m.namespaceName.map .str),
    Json.optional "annotations" (m.annotations.map Json.ofLabels)
      ++ (Json.optional "resourceVersion" (m.resourceVersion.map .str)
      ++ (Json.optional "deletionTimestamp" (m.deletionTimestamp.map fun t => .str t.render)
      ++ m.extra.entries)), ?_, ?_⟩
  · rw [List.reverse_cons, Members.find?_append, Json.find?_optional_ne (by decide)]
    rfl
  · intro labels
    unfold toJson relabelled
    simp only [List.append_assoc]

/-- Metadata is also read without its labels. -/
theorem decode_of_insert_labels {ms : List (String × Json)} {m : ObjectMeta} {value : Json}
    (sorted : Members.Sorted ms) (bare : Members.find? "labels" ms = none)
    (h : decode (.ofJson (.obj (Members.insert "labels" value ms))) = some m) :
    decode (.ofJson (.obj ms)) = some (m.relabelled none) := by
  obtain ⟨kept, name, space, -, notes, revision, deletion⟩ :=
    (decode_obj_iff (Members.sorted_insert sorted)).1 h
  have missing : (fields ms).optional "labels" Source.labels = some none :=
    (Source.optional_given_eq_none_iff (by decide)).2 (Or.inl bare)
  rw [Source.keptOthers_insert (by decide)] at kept
  unfold fields at name space notes revision deletion
  simp (disch := decide) only [Source.orElse_given_insert_ne, Source.optional_given_insert_ne]
    at name space notes revision deletion
  exact (decode_obj_iff sorted).2 ⟨kept, name, space, missing, notes, revision, deletion⟩

/-- The metadata that is read from some metadata in the stored form. -/
def reread? (m : ObjectMeta) : Option ObjectMeta := decode (.ofJson m.toJson.normalise)

/-- The labels that are read are those of the metadata, unless the labels do not matter at all. -/
theorem reread?_relabelled (m : ObjectMeta) :
    (∀ labels labels', (m.relabelled labels).reread? = (m.relabelled labels').reread?) ∨
      ∃ r : ObjectMeta, ∀ labels, (m.relabelled labels).reread? = some (r.relabelled labels) := by
  obtain ⟨front, back, fresh, split⟩ := m.toJson_relabelled
  unfold reread?
  simp only [split]
  rcases Json.normalise_optional fresh with hidden | ⟨ms, sorted, bare, shown⟩
  · left
    intro labels labels'
    rw [hidden]
  · simp only [shown]
    cases read : decode (.ofJson (.obj ms)) with
    | none =>
      left
      have unread (labels : Option (Dict String)) :
          decode (.ofJson (.obj ((labels.map Json.ofLabels).elim ms fun j =>
            Members.insert "labels" (Json.normalise j) ms))) = none := by
        cases labels with
        | none => exact read
        | some d =>
          refine Option.eq_none_iff_forall_not_mem.2 fun r there => ?_
          rw [decode_of_insert_labels sorted bare there] at read
          cases read
      intro labels labels'
      rw [unread, unread]
    | some r =>
      right
      refine ⟨r, fun labels => ?_⟩
      cases labels with
      | none =>
        obtain ⟨-, -, -, labels, -⟩ := (decode_obj_iff sorted).1 read
        have missing : (fields ms).optional "labels" Source.labels = some none :=
          (Source.optional_given_eq_none_iff (by decide)).2 (Or.inl bare)
        have none : r.labels = none := Option.some.inj (labels.symm.trans missing)
        rw [Option.map_none, Option.elim_none, read, relabelled, ← none]
      | some d =>
        rw [Option.map_some, Option.elim_some, Json.normalise_ofLabels]
        exact decode_insert_labels sorted read

end ObjectMeta

namespace StoredObject

/-- The object with other labels. -/
def relabelled (o : StoredObject) (labels : Option (Dict String)) : StoredObject :=
  { o with metadata := o.metadata.relabelled labels }

/-- Of a cluster the metadata is read, or the free member that stands for it. -/
theorem toTyped?_cluster (o : StoredObject) : o.toTyped? Cluster.decode =
    match Members.find? "metadata" o.body.entries.reverse with
    | some j => (ObjectMeta.decode (.ofJson j.normalise)).map Cluster.mk
    | none => o.metadata.reread?.map Cluster.mk := by
  have found : Members.find? "metadata" (Members.sort (Json.normaliseMembers
      ([("apiVersion", .str o.apiVersion), ("kind", .str o.kind), ("metadata", o.metadata.toJson)]
        ++ o.body.entries))) =
      ((Members.find? "metadata" o.body.entries.reverse).or (some o.metadata.toJson)).map
        Json.normalise := by
    rw [Json.find?_sort_normaliseMembers, List.reverse_append, Members.find?_append]
    rfl
  unfold toTyped? toJson Cluster.decode
  rw [Json.normalise, Source.record_ofJson _ (Members.sorted_sort _), Option.bind_eq_bind, Option.bind_some,
    Source.Fields.orElse, Source.find?_given (by decide), found]
  cases Members.find? "metadata" o.body.entries.reverse with
  | none => exact Option.map_eq_bind.symm
  | some j => exact Option.map_eq_bind.symm

/-- The labels of the cluster that is read are those of the object, unless they do not matter at all. -/
theorem toTyped?_relabelled (o : StoredObject) :
    (∀ labels labels', (o.relabelled labels).toTyped? Cluster.decode =
        (o.relabelled labels').toTyped? Cluster.decode) ∨
      ∃ m : ObjectMeta, ∀ labels, (o.relabelled labels).toTyped? Cluster.decode =
        some { metadata := m.relabelled labels } := by
  simp only [toTyped?_cluster, relabelled]
  cases Members.find? "metadata" o.body.entries.reverse with
  | some j => exact Or.inl fun _ _ => rfl
  | none =>
    rcases o.metadata.reread?_relabelled with same | ⟨m, read⟩
    · exact Or.inl fun labels labels' => congrArg (Option.map Cluster.mk) (same labels labels')
    · exact Or.inr ⟨m, fun labels => congrArg (Option.map Cluster.mk) (read labels)⟩

end StoredObject

end AppAdmission
