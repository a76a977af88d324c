import AppAdmission.Proofs.Resource.Metadata
import AppAdmission.Resource.App

/-!
# Apps in a document

An App read from a free document, and what is read after a value was put at a place of the document.
Each field of what is read depends on one member only, so the App changes where the document does.
-/

namespace AppAdmission

open Json (Source)

namespace NamespacedRef

theorem decode_toJson (r : NamespacedRef) : decode (.ofJson r.toJson) = some r := rfl

theorem canonicalB_toJson (r : NamespacedRef) : r.toJson.canonicalB = true := by
  refine Json.canonicalB_obj_iff.2 ⟨?_, ?_⟩
  · exact Members.sorted_of_keys ["name", "namespace"] rfl (by decide)
  · simp [Json.canonicalB]

end NamespacedRef

namespace AppConfig

theorem decode_toJson (c : AppConfig) : decode (.ofJson c.toJson) = some c := by
  obtain ⟨configMap, secret⟩ := c
  cases configMap <;> cases secret <;> rfl

theorem canonicalB_toJson (c : AppConfig) : c.toJson.canonicalB = true := by
  obtain ⟨configMap, secret⟩ := c
  refine Json.canonicalB_obj_iff.2 ⟨?_, ?_⟩
  · cases configMap <;> cases secret
    · exact Members.sorted_nil
    · exact Members.sorted_of_keys ["secret"] rfl (by decide)
    · exact Members.sorted_of_keys ["configMap"] rfl (by decide)
    · exact Members.sorted_of_keys ["configMap", "secret"] rfl (by decide)
  · cases configMap <;> cases secret <;> simp [Json.optional, NamespacedRef.canonicalB_toJson]

end AppConfig

namespace ExtraConfig

/-- A source whose priority fits in 32 bits is read as it is written. -/
theorem decode_toJson {e : ExtraConfig} (fits : e.priority < 0x100000000) :
    decode (.ofJson e.toJson) = some e := by
  obtain ⟨kind, name, space, priority⟩ := e
  have read : Source.smaller 0x100000000 (.ofJson (.ofNat priority)) = some priority :=
    Source.smaller_int fits
  have known : SourceKind.decode (.str (some kind.name)) = some kind := by
    cases kind <;> rfl
  obtain ⟨fs, picked, kind, name, space, priority⟩ : ∃ fs,
      Source.record ["kind", "name", "namespace", "priority"]
        (.ofJson (toJson ⟨kind, name, space, priority⟩)) = some fs ∧
      fs.orElse "kind" SourceKind.decode .configMap = some kind ∧
      fs.need "name" Source.text = some name ∧
      fs.orElse "namespace" Source.text "" = some space ∧
      fs.orElse "priority" (Source.smaller 0x100000000) defaultPriority = some priority :=
    ⟨_, rfl, known, rfl, rfl, read⟩
  unfold decode
  rw [picked, Option.bind_eq_bind, Option.bind_some, kind, name, space, priority]
  rfl

theorem canonicalB_toJson (e : ExtraConfig) : e.toJson.canonicalB = true := by
  refine Json.canonicalB_obj_iff.2 ⟨?_, ?_⟩
  · exact Members.sorted_of_keys ["kind", "name", "namespace", "priority"] rfl (by decide)
  · simp [Json.canonicalB, Json.ofNat]

end ExtraConfig

namespace KubeConfig

/-- The fields of the access to a cluster in an object. -/
def fields (ms : List (String × Json)) : Source.Fields := Source.given ["inCluster", "secret"] ms

theorem decode_obj_iff {ms : List (String × Json)} (sorted : Members.Sorted ms) {k : KubeConfig} :
    decode (.ofJson (.obj ms)) = some k ↔
      (fields ms).orElse "inCluster" Source.flag false = some k.inCluster ∧
      (fields ms).optional "secret" NamespacedRef.decode = some k.secret := by
  unfold decode fields
  rw [Source.record_ofJson _ sorted]
  constructor
  · intro h
    simp only [Option.bind_eq_bind, Option.bind_some, Option.bind_eq_some_iff] at h
    obtain ⟨_, inCluster, _, secret, same⟩ := h
    cases same
    exact ⟨inCluster, secret⟩
  · rintro ⟨inCluster, secret⟩
    simp only [Option.bind_eq_bind, Option.bind_some, inCluster, secret]
    rfl

theorem decode_insert_secret {ms : List (String × Json)} {k : KubeConfig} (sorted : Members.Sorted ms)
    (h : decode (.ofJson (.obj ms)) = some k) (r : NamespacedRef) :
    decode (.ofJson (.obj (Members.insert "secret" r.toJson ms))) =
      some { k with secret := some r } := by
  obtain ⟨inCluster, -⟩ := (decode_obj_iff sorted).1 h
  refine (decode_obj_iff (Members.sorted_insert sorted)).2 ⟨?_, ?_⟩
  · exact (Source.orElse_given_insert_ne (by decide)).trans inCluster
  · exact Source.optional_given_insert_self (by decide) (fun h => by cases h) r.decode_toJson

end KubeConfig

namespace AppSpec

/-- The fields of what an App asks for in an object. -/
def fields (ms : List (String × Json)) : Source.Fields :=
  Source.given ["name", "namespace", "catalog", "version", "config", "userConfig", "extraConfigs",
    "kubeConfig"] ms

theorem decode_obj_iff {ms : List (String × Json)} (sorted : Members.Sorted ms) {s : AppSpec} :
    decode (.ofJson (.obj ms)) = some s ↔
      (fields ms).orElse "name" Source.text "" = some s.name ∧
      (fields ms).orElse "namespace" Source.text "" = some s.space ∧
      (fields ms).orElse "catalog" Source.text "" = some s.catalog ∧
      (fields ms).orElse "version" Source.text "" = some s.version ∧
      (fields ms).optional "config" AppConfig.decode = some s.config ∧
      (fields ms).optional "userConfig" AppConfig.decode = some s.userConfig ∧
      (fields ms).optional "extraConfigs" (Source.list ExtraConfig.decode) = some s.extraConfigs ∧
      (fields ms).optional "kubeConfig" KubeConfig.decode = some s.kubeConfig := by
  unfold decode fields
  rw [Source.record_ofJson _ sorted]
  constructor
  · intro h
    simp only [Option.bind_eq_bind, Option.bind_some, Option.bind_eq_some_iff] at h
    obtain ⟨_, name, _, space, _, catalog, _, version, _, config, _, user, _, extras, _, kube,
      same⟩ := h
    cases same
    exact ⟨name, space, catalog, version, config, user, extras, kube⟩
  · rintro ⟨name, space, catalog, version, config, user, extras, kube⟩
    simp only [Option.bind_eq_bind, Option.bind_some, name, space, catalog, version, config, user,
      extras, kube]
    rfl

variable {ms : List (String × Json)} {s : AppSpec}

theorem decode_insert_config (sorted : Members.Sorted ms) (h : decode (.ofJson (.obj ms)) = some s)
    (c : AppConfig) : decode (.ofJson (.obj (Members.insert "config" c.toJson ms))) =
      some { s with config := some c } := by
  obtain ⟨name, space, catalog, version, -, user, extras, kube⟩ := (decode_obj_iff sorted).1 h
  have given : (fields (Members.insert "config" c.toJson ms)).optional "config" AppConfig.decode =
      some (some c) :=
    Source.optional_given_insert_self (by decide) (fun h => by cases h) c.decode_toJson
  rw [decode_obj_iff (Members.sorted_insert sorted)]
  unfold fields at *
  simp (disch := decide) only [Source.orElse_given_insert_ne, Source.optional_given_insert_ne]
  exact ⟨name, space, catalog, version, given, user, extras, kube⟩

theorem decode_insert_kubeConfig {j : Json} {k : KubeConfig} (sorted : Members.Sorted ms)
    (h : decode (.ofJson (.obj ms)) = some s) (there : j ≠ .null)
    (read : KubeConfig.decode (.ofJson j) = some k) :
    decode (.ofJson (.obj (Members.insert "kubeConfig" j ms))) =
      some { s with kubeConfig := some k } := by
  obtain ⟨name, space, catalog, version, config, user, extras, -⟩ := (decode_obj_iff sorted).1 h
  have given : (fields (Members.insert "kubeConfig" j ms)).optional "kubeConfig" KubeConfig.decode =
      some (some k) := Source.optional_given_insert_self (by decide) there read
  rw [decode_obj_iff (Members.sorted_insert sorted)]
  unfold fields at *
  simp (disch := decide) only [Source.orElse_given_insert_ne, Source.optional_given_insert_ne]
  exact ⟨name, space, catalog, version, config, user, extras, given⟩

theorem decode_insert_extraConfigs {items : List Json} {es : List ExtraConfig}
    (sorted : Members.Sorted ms) (h : decode (.ofJson (.obj ms)) = some s)
    (read : Source.list ExtraConfig.decode (.ofJson (.arr items)) = some es) :
    decode (.ofJson (.obj (Members.insert "extraConfigs" (.arr items) ms))) =
      some { s with extraConfigs := some es } := by
  obtain ⟨name, space, catalog, version, config, user, -, kube⟩ := (decode_obj_iff sorted).1 h
  have given : (fields (Members.insert "extraConfigs" (.arr items) ms)).optional "extraConfigs"
      (Source.list ExtraConfig.decode) = some (some es) :=
    Source.optional_given_insert_self (by decide) (fun h => by cases h) read
  rw [decode_obj_iff (Members.sorted_insert sorted)]
  unfold fields at *
  simp (disch := decide) only [Source.orElse_given_insert_ne, Source.optional_given_insert_ne]
  exact ⟨name, space, catalog, version, config, user, given, kube⟩

end AppSpec

namespace App

/-- The fields of an App in an object. -/
def fields (ms : List (String × Json)) : Source.Fields :=
  Source.given ["apiVersion", "kind", "metadata", "spec"] ms

theorem decode_obj_iff {ms : List (String × Json)} (sorted : Members.Sorted ms) {a : App} :
    decode (.ofJson (.obj ms)) = some a ↔
      (fields ms).orElse "apiVersion" Source.text "application.giantswarm.io/v1alpha1" =
        some a.apiVersion ∧
      (fields ms).orElse "kind" Source.text "App" = some a.kind ∧
      (fields ms).orElse "metadata" ObjectMeta.decode {} = some a.metadata ∧
      (fields ms).need "spec" AppSpec.decode = some a.spec := by
  unfold decode fields
  rw [Source.record_ofJson _ sorted]
  constructor
  · intro h
    simp only [Option.bind_eq_bind, Option.bind_some, Option.bind_eq_some_iff] at h
    obtain ⟨_, apiVersion, _, kind, _, metadata, _, spec, same⟩ := h
    cases same
    exact ⟨apiVersion, kind, metadata, spec⟩
  · rintro ⟨apiVersion, kind, metadata, spec⟩
    simp only [Option.bind_eq_bind, Option.bind_some, apiVersion, kind, metadata, spec]
    rfl

variable {doc : Json} {a : App}

/-- What an App asks for is read from its place in the document. -/
theorem decode_spec (free : doc.canonicalB = true) (h : decode (.ofJson doc) = some a) {j : Json}
    (there : doc.at? ["spec"] = some j) : AppSpec.decode (.ofJson j) = some a.spec := by
  obtain ⟨ms, rfl, member⟩ := Json.at?_object there
  obtain ⟨-, -, -, spec⟩ := (decode_obj_iff (Json.canonicalB_obj_iff.1 free).1).1 h
  rw [Source.Fields.need, fields, Source.find?_given (by decide), member] at spec
  exact spec

theorem decode_metadata (free : doc.canonicalB = true) (h : decode (.ofJson doc) = some a) {j : Json}
    (there : doc.at? ["metadata"] = some j) : ObjectMeta.decode (.ofJson j) = some a.metadata := by
  obtain ⟨ms, rfl, member⟩ := Json.at?_object there
  obtain ⟨-, -, metadata, -⟩ := (decode_obj_iff (Json.canonicalB_obj_iff.1 free).1).1 h
  rw [Source.Fields.orElse, fields, Source.find?_given (by decide), member] at metadata
  exact metadata

/-- An App with another value at a place of what it asks for. -/
theorem decode_put_spec {key : String} {value : Json} {ss : List (String × Json)} {spec : AppSpec}
    (free : doc.canonicalB = true) (h : decode (.ofJson doc) = some a)
    (there : doc.at? ["spec"] = some (.obj ss))
    (read : AppSpec.decode (.ofJson (.obj (Members.insert key value ss))) = some spec) :
    decode (.ofJson (doc.put ["spec", key] value)) = some { a with spec := spec } := by
  have step : doc.put ["spec", key] value = doc.put ["spec"] (.obj (Members.insert key value ss)) :=
    Json.put_append there [key] value
  obtain ⟨ms, rfl, -⟩ := Json.at?_object there
  have sorted := (Json.canonicalB_obj_iff.1 free).1
  obtain ⟨apiVersion, kind, metadata, -⟩ := (decode_obj_iff sorted).1 h
  rw [step, Json.put, Json.put_nil, decode_obj_iff (Members.sorted_insert sorted)]
  unfold fields at *
  simp (disch := decide) only [Source.orElse_given_insert_ne, Source.need_given_insert_self]
  exact ⟨apiVersion, kind, metadata, read⟩

/-- An App with another value at a place of its metadata. -/
theorem decode_put_metadata {key : String} {value : Json} {ls : List (String × Json)} {m : ObjectMeta}
    (free : doc.canonicalB = true) (h : decode (.ofJson doc) = some a)
    (there : doc.at? ["metadata"] = some (.obj ls))
    (read : ObjectMeta.decode (.ofJson (.obj (Members.insert key value ls))) = some m) :
    decode (.ofJson (doc.put ["metadata", key] value)) = some { a with metadata := m } := by
  have step : doc.put ["metadata", key] value =
      doc.put ["metadata"] (.obj (Members.insert key value ls)) :=
    Json.put_append there [key] value
  obtain ⟨ms, rfl, -⟩ := Json.at?_object there
  have sorted := (Json.canonicalB_obj_iff.1 free).1
  obtain ⟨apiVersion, kind, -, spec⟩ := (decode_obj_iff sorted).1 h
  rw [step, Json.put, Json.put_nil, decode_obj_iff (Members.sorted_insert sorted)]
  unfold fields at *
  simp (disch := decide) only [Source.orElse_given_insert_ne, Source.orElse_given_insert_self,
    Source.need_given_insert_ne]
  exact ⟨apiVersion, kind, read, spec⟩

end App

end AppAdmission
