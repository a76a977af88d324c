import AppAdmission.Proofs.Resource.Places

/-!
# What an App says of its document

The fields of an App on which defaults depend, in terms of the document it is read from. A field that
may be null is lacking if it is missing or null; a label is a member of the labels.
-/

namespace AppAdmission

open Json (Source)

/-- There is nothing at a place, or null. -/
def Json.Lacks (doc : Json) (place : List String) : Prop :=
  doc.at? place = none ∨ doc.at? place = some .null

namespace ObjectMeta

/-- Metadata is only read from an object. -/
theorem obj_of_decode {j : Json} {m : ObjectMeta} (h : decode (.ofJson j) = some m) :
    ∃ ms, j = .obj ms := by
  cases j with
  | obj ms => exact ⟨ms, rfl⟩
  | null | bool _ | num _ | str _ | arr _ => cases h

/-- The namespace of metadata is the text under its name. -/
theorem space_eq {ms : List (String × Json)} {m : ObjectMeta}
    (free : (Json.obj ms).canonicalB = true) (h : decode (.ofJson (.obj ms)) = some m) :
    m.space = match Members.find? "namespace" ms with
      | some (.str space) => space
      | _ => "" := by
  obtain ⟨-, -, found, -⟩ := (decode_obj_iff (Json.canonicalB_obj_iff.1 free).1).1 h
  unfold space
  cases given : m.namespaceName with
  | none =>
    rw [given] at found
    rcases (Source.optional_given_eq_none_iff (by decide)).1 found with missing | null
    · rw [missing]
      rfl
    · rw [null]
      rfl
  | some space =>
    rw [given] at found
    obtain ⟨j, there, -, read⟩ := (Source.optional_given_eq_some_iff (by decide)).1 found
    rw [there, Source.text_ofJson_iff.1 read]
    rfl

end ObjectMeta

namespace KubeConfig

variable {ks : List (String × Json)} {k : KubeConfig}

theorem inCluster_eq_false_iff (sorted : Members.Sorted ks)
    (h : decode (.ofJson (.obj ks)) = some k) :
    k.inCluster = false ↔ Members.find? "inCluster" ks ≠ some (.bool true) := by
  obtain ⟨found, -⟩ := (decode_obj_iff sorted).1 h
  rw [Source.Fields.orElse, fields, Source.find?_given (by decide)] at found
  cases there : Members.find? "inCluster" ks with
  | none =>
    rw [there] at found
    simp [← Option.some.inj found]
  | some j =>
    rw [there] at found
    cases j with
    | bool b =>
      have same : b = k.inCluster := Option.some.inj found
      simp [same]
    | null | num _ | str _ | arr _ | obj _ => cases found

theorem secret_isNone_iff (sorted : Members.Sorted ks) (h : decode (.ofJson (.obj ks)) = some k) :
    k.secret.isNone ↔
      Members.find? "secret" ks = none ∨ Members.find? "secret" ks = some .null := by
  obtain ⟨-, found⟩ := (decode_obj_iff sorted).1 h
  exact Source.isNone_iff_of_optional (by decide) found

end KubeConfig

namespace App

/-- The namespace that a document names. -/
def spaceIn (doc : Json) : String :=
  match doc.at? ["metadata", "namespace"] with
  | some (.str space) => space
  | _ => ""

namespace ReadFrom

variable {doc : Json} {a : App} {ss : List (String × Json)}

/-- The metadata of an App is that of its document, or there is none. -/
theorem metadata_cases (r : ReadFrom doc a) (spec : doc.at? ["spec"] = some (.obj ss)) :
    (doc.at? ["metadata"] = none ∧ a.metadata = {}) ∨
      ∃ ms, doc.at? ["metadata"] = some (.obj ms) ∧
        ObjectMeta.decode (.ofJson (.obj ms)) = some a.metadata := by
  cases there : doc.at? ["metadata"] with
  | some j =>
    have read := decode_metadata r.free r.read there
    obtain ⟨ms, rfl⟩ := ObjectMeta.obj_of_decode read
    exact Or.inr ⟨ms, rfl, read⟩
  | none =>
    obtain ⟨ms, rfl, -⟩ := Json.at?_object spec
    have missing : Members.find? "metadata" ms = none := by
      rw [← there]
      exact (Json.at?_member (Json.at?_nil (.obj ms)) "metadata").symm
    obtain ⟨-, -, metadata, -⟩ := (decode_obj_iff (Json.canonicalB_obj_iff.1 r.free).1).1 r.read
    rw [Source.Fields.orElse, fields, Source.find?_given (by decide), missing] at metadata
    exact Or.inl ⟨rfl, (Option.some.inj metadata).symm⟩

/-- The labels of an App are the members of the labels in its document. -/
theorem at?_label (r : ReadFrom doc a) (spec : doc.at? ["spec"] = some (.obj ss)) (key : String) :
    doc.at? ["metadata", "labels", key] = (a.metadata.label? key).map .str := by
  have split : doc.at? ["metadata", "labels", key] =
      (doc.at? ["metadata"]).bind fun child => child.at? ["labels", key] :=
    Json.at?_append doc ["metadata"] ["labels", key]
  rcases r.metadata_cases spec with ⟨missing, same⟩ | ⟨ms, there, read⟩
  · rw [split, missing, same]
    rfl
  · rw [split, there]
    exact ObjectMeta.at?_label (Json.canonicalB_at? r.free there) read key

/-- The cluster of an App is the label in its document, unless that is empty. -/
theorem clusterName?_eq_some_iff (r : ReadFrom doc a) (spec : doc.at? ["spec"] = some (.obj ss))
    {cluster : String} : a.clusterName? = some cluster ↔
      doc.at? ["metadata", "labels", clusterLabel] = some (.str cluster) ∧ cluster ≠ "" := by
  rw [r.at?_label spec]
  unfold clusterName?
  rw [Option.filter_eq_some_iff]
  simp

theorem label?_eq_none_iff (r : ReadFrom doc a) (spec : doc.at? ["spec"] = some (.obj ss))
    {key : String} : a.metadata.label? key = none ↔
      doc.at? ["metadata", "labels", key] = none := by
  rw [r.at?_label spec, Option.map_eq_none_iff]

/-- The namespace of an App is the one that its document names. -/
theorem space_eq (r : ReadFrom doc a) (spec : doc.at? ["spec"] = some (.obj ss)) :
    a.space = spaceIn doc := by
  unfold space spaceIn
  rcases r.metadata_cases spec with ⟨missing, same⟩ | ⟨ms, there, read⟩
  · have nothing : doc.at? (["metadata"] ++ ["namespace"]) = none := by
      rw [Json.at?_append, missing, Option.bind_none]
    rw [List.singleton_append] at nothing
    rw [nothing, same]
    rfl
  · have member := Json.at?_member there "namespace"
    rw [List.singleton_append] at member
    rw [member]
    exact ObjectMeta.space_eq (Json.canonicalB_at? r.free there) read

/-- An App has no configuration if its document has none. -/
theorem config_isNone_iff (r : ReadFrom doc a) (spec : doc.at? ["spec"] = some (.obj ss)) :
    a.spec.config.isNone ↔ doc.Lacks configPlace := by
  obtain ⟨-, -, -, -, config, -⟩ := (AppSpec.decode_obj_iff (Json.sorted_at? r.free spec)).1
    (decode_spec r.free r.read spec)
  have member : doc.at? configPlace = Members.find? "config" ss := Json.at?_member spec "config"
  unfold Json.Lacks
  rw [member]
  exact Source.isNone_iff_of_optional (by decide) config

/-- An App lacks access data if its document has an object for the access to a cluster that does not
stay in its own cluster and names no access data. -/
theorem lacksAccess_iff (r : ReadFrom doc a) (spec : doc.at? ["spec"] = some (.obj ss))
    (shape : ∀ j, doc.at? ["spec", "kubeConfig"] = some j → j ≠ .null → ∃ ks, j = .obj ks) :
    (a.spec.kubeConfig.any fun k => !k.inCluster && k.secret.isNone) = true ↔
      (∃ ks, doc.at? ["spec", "kubeConfig"] = some (.obj ks)) ∧
        doc.at? ["spec", "kubeConfig", "inCluster"] ≠ some (.bool true) ∧ doc.Lacks accessPlace := by
  obtain ⟨-, -, -, -, -, -, -, kube⟩ := (AppSpec.decode_obj_iff (Json.sorted_at? r.free spec)).1
    (decode_spec r.free r.read spec)
  have member : doc.at? ["spec", "kubeConfig"] = Members.find? "kubeConfig" ss :=
    Json.at?_member spec "kubeConfig"
  cases given : a.spec.kubeConfig with
  | none =>
    rw [given] at kube
    have lacks := (Source.optional_given_eq_none_iff (by decide)).1 kube
    rw [← member] at lacks
    constructor
    · intro h
      cases h
    · rintro ⟨⟨ks, there⟩, -⟩
      rw [there] at lacks
      rcases lacks with h | h <;> cases h
  | some k =>
    rw [given] at kube
    obtain ⟨j, there, solid, read⟩ := (Source.optional_given_eq_some_iff (by decide)).1 kube
    obtain ⟨ks, rfl⟩ := shape j (member.trans there) solid
    have place := member.trans there
    have sorted := Json.sorted_at? r.free place
    have stays : doc.at? ["spec", "kubeConfig", "inCluster"] = Members.find? "inCluster" ks :=
      Json.at?_member place "inCluster"
    have secret : doc.at? accessPlace = Members.find? "secret" ks := Json.at?_member place "secret"
    rw [Option.any_some, Bool.and_eq_true, Bool.not_eq_true', stays,
      KubeConfig.inCluster_eq_false_iff sorted read, KubeConfig.secret_isNone_iff sorted read]
    unfold Json.Lacks
    rw [secret]
    constructor
    · intro h
      exact ⟨⟨ks, place⟩, h⟩
    · rintro ⟨-, h⟩
      exact h

end ReadFrom

end App

end AppAdmission
