import AppAdmission.Proofs.Instant
import AppAdmission.Proofs.Resource.App
import AppAdmission.Proofs.Resource.Reread

/-!
# Typed resources in the stored form

What is written for a typed resource is read as the resource again when it is brought in order first, and
its specification stands in the stored form as a free value. Only the free members of the metadata can
stand in the way, and the data of a config map, which is a free value there.
-/

namespace AppAdmission

open Json (Source present)

namespace Json

/-- An object that is brought in order has its members in order. -/
theorem exists_normalise_obj (members : List (String × Json)) :
    ∃ ms, (obj members).normalise = obj ms ∧ Members.Sorted ms :=
  ⟨_, rfl, Members.sorted_sort _⟩

end Json

namespace ObjectMeta

/-- The metadata has no field twice, its free members are free values, and its time of deletion exists. -/
structure Fit (m : ObjectMeta) : Prop where
  apart : ∀ e ∈ m.extra.entries, e.1 ∉ fieldNames
  free : ∀ e ∈ m.extra.entries, e.2.canonicalB = true
  deletion : ∀ t ∈ m.deletionTimestamp, t.Valid

/-- No free member has an object that begins as one that stands for an embedded text. -/
def Plain (m : ObjectMeta) : Prop := ∀ e ∈ m.extra.entries, e.2.plainB = true

theorem readInstant_render {t : Instant} (valid : t.Valid) :
    readInstant (.ofJson (.str t.render)) = some t := by
  have text : Source.text (.ofJson (.str t.render)) = some t.render := rfl
  rw [readInstant, text, Option.bind_eq_bind, Option.bind_some]
  exact Instant.parse?_render valid

/-- Plain metadata is read as it was written. -/
theorem decode_normalise_toJson {m : ObjectMeta} (fit : m.Fit) (plain : m.Plain) :
    decode (.ofJson m.toJson.normalise) = some m := by
  have written : m.Written m.toJson.normalise := written_normalise fit.apart
  obtain ⟨ms, same, sorted⟩ := Json.exists_normalise_obj (present m.members ++ m.extra.entries)
  rw [toJson_eq, same] at written ⊢
  have texts (v : String) : Source.text (.ofJson (.str v)) = some v := rfl
  refine (decode_obj_iff sorted).2 ⟨?_, ?_, ?_, ?_, ?_, ?_, ?_⟩
  · refine Source.keptOthers_of_plain sorted (fun key other => ?_) fit.apart fit.free plain
    exact (written.extra key other).trans (Json.map_normalise_get? fit.free key)
  · exact (Source.orElse_given_of_member (by decide) written.name _ _).trans (texts m.name)
  · exact Source.optional_given_of_written (by decide) written.namespaceName nofun fun v _ => texts v
  · exact Source.optional_given_of_written (by decide) written.labels nofun
      fun d _ => Source.labels_ofJson_ofLabels d
  · exact Source.optional_given_of_written (by decide) written.annotations nofun
      fun d _ => Source.labels_ofJson_ofLabels d
  · exact Source.optional_given_of_written (by decide) written.resourceVersion nofun fun v _ => texts v
  · exact Source.optional_given_of_written (by decide) written.deletionTimestamp nofun
      fun t there => readInstant_render (fit.deletion t there)

end ObjectMeta

namespace Json.Source

/-- A list is read as it was written if its items are. -/
theorem list_ofJson {α : Type} {read : Source → Option α} {write : α → Json} {as : List α}
    (each : ∀ a ∈ as, read (ofJson (write a)) = some a) :
    list read (ofJson (.arr (as.map write))) = some as := by
  have items : ofJson (.arr (as.map write)) = .arr (as.map fun a => ofJson (write a)) 0 := by
    rw [ofJson, ofItems_eq_map, List.map_map]
    rfl
  rw [items, list, List.mapM_map]
  exact Wire.mapM_eq_some_iff.2 (List.forall₂_same.2 each)

end Json.Source

namespace AppConfig

theorem plainB_toJson (c : AppConfig) : c.toJson.plainB = true := by
  obtain ⟨configMap, secret⟩ := c
  cases configMap <;> cases secret <;> rfl

end AppConfig

namespace KubeConfig

theorem canonicalB_toJson (k : KubeConfig) : k.toJson.canonicalB = true := by
  obtain ⟨inCluster, secret⟩ := k
  refine Json.canonicalB_obj_iff.2 ⟨?_, ?_⟩
  · cases secret
    · exact Members.sorted_of_keys ["inCluster"] rfl (by decide)
    · exact Members.sorted_of_keys ["inCluster", "secret"] rfl (by decide)
  · cases secret <;> simp [Json.canonicalB, Json.optional, NamespacedRef.canonicalB_toJson]

theorem plainB_toJson (k : KubeConfig) : k.toJson.plainB = true := by
  obtain ⟨inCluster, secret⟩ := k
  cases secret <;> rfl

theorem decode_toJson (k : KubeConfig) : decode (.ofJson k.toJson) = some k := by
  obtain ⟨inCluster, secret⟩ := k
  cases secret <;> rfl

end KubeConfig

namespace ExtraConfig

theorem plainB_toJson (e : ExtraConfig) : e.toJson.plainB = true := rfl

theorem canonicalB_list (es : List ExtraConfig) : (Json.arr (es.map toJson)).canonicalB = true := by
  refine Json.canonicalB_arr_iff.2 fun j there => ?_
  obtain ⟨e, -, rfl⟩ := List.mem_map.1 there
  exact e.canonicalB_toJson

theorem plainB_list (es : List ExtraConfig) : (Json.arr (es.map toJson)).plainB = true := by
  refine Json.plainItemsB_iff.2 fun j there => ?_
  obtain ⟨e, -, rfl⟩ := List.mem_map.1 there
  exact e.plainB_toJson

end ExtraConfig

namespace AppSpec

/-- The priorities of the extra configuration sources fit in 32 bits. -/
def Fit (s : AppSpec) : Prop := ∀ e ∈ s.extraConfigs.getD [], e.priority < 0x100000000

/-- The members of what an App asks for. -/
def members (s : AppSpec) : List (String × Option Json) :=
  [("name", some (.str s.name)), ("namespace", some (.str s.space)), ("catalog", some (.str s.catalog)),
    ("version", some (.str s.version)), ("config", s.config.map AppConfig.toJson),
    ("userConfig", s.userConfig.map AppConfig.toJson),
    ("extraConfigs", s.extraConfigs.map fun es => .arr (es.map ExtraConfig.toJson)),
    ("kubeConfig", s.kubeConfig.map KubeConfig.toJson)]

theorem toJson_eq (s : AppSpec) :
    s.toJson = .obj (present s.members ++ (OrderedMap.empty : Dict Json).entries) := by
  simp [toJson, members, OrderedMap.empty]

/-- The values of the members are plain free values already. -/
theorem settled_members (s : AppSpec) : ∀ f ∈ s.members, f.1 ≠ Source.embeddedKey ∧
    ∀ j ∈ f.2, j.canonicalB = true ∧ j.plainB = true := by
  have text (v : String) : ∀ j ∈ some (Json.str v), j.canonicalB = true ∧ j.plainB = true := by
    rintro _ ⟨⟩
    exact ⟨rfl, rfl⟩
  have config (o : Option AppConfig) :
      ∀ j ∈ o.map AppConfig.toJson, j.canonicalB = true ∧ j.plainB = true := by
    intro j there
    obtain ⟨c, -, rfl⟩ := Option.map_eq_some_iff.1 there
    exact ⟨c.canonicalB_toJson, c.plainB_toJson⟩
  have extras (j : Json) (there : j ∈ s.extraConfigs.map fun es => .arr (es.map ExtraConfig.toJson)) :
      j.canonicalB = true ∧ j.plainB = true := by
    obtain ⟨es, -, rfl⟩ := Option.map_eq_some_iff.1 there
    exact ⟨ExtraConfig.canonicalB_list es, ExtraConfig.plainB_list es⟩
  have kube (j : Json) (there : j ∈ s.kubeConfig.map KubeConfig.toJson) :
      j.canonicalB = true ∧ j.plainB = true := by
    obtain ⟨k, -, rfl⟩ := Option.map_eq_some_iff.1 there
    exact ⟨k.canonicalB_toJson, k.plainB_toJson⟩
  unfold members
  simp only [List.forall_mem_cons]
  exact ⟨⟨by decide, text s.name⟩, ⟨by decide, text s.space⟩, ⟨by decide, text s.catalog⟩,
    ⟨by decide, text s.version⟩, ⟨by decide, config s.config⟩, ⟨by decide, config s.userConfig⟩,
    ⟨by decide, extras⟩, ⟨by decide, kube⟩, List.forall_mem_nil _⟩

theorem plainB_normalise_toJson (s : AppSpec) : s.toJson.normalise.plainB = true := by
  rw [toJson_eq]
  refine Json.plainB_normalise_obj fun m there => ?_
  rcases List.mem_append.1 there with there | none
  · obtain ⟨other, settled⟩ := s.settled_members _ (Json.mem_present_iff.1 there)
    obtain ⟨free, plain⟩ := settled m.2 rfl
    rw [Json.normalise_of_canonicalB m.2 free]
    exact ⟨other, plain⟩
  · cases none

theorem keys_members (s : AppSpec) : s.members.map (·.1) = ["name", "namespace", "catalog", "version",
    "config", "userConfig", "extraConfigs", "kubeConfig"] := rfl

/-- What an App asks for is read as it was written. -/
theorem decode_normalise_toJson {s : AppSpec} (fit : s.Fit) :
    decode (.ofJson s.toJson.normalise) = some s := by
  have once : (s.members.map (·.1)).Nodup := by
    rw [keys_members]
    decide
  obtain ⟨ms, same, sorted⟩ :=
    Json.exists_normalise_obj (present s.members ++ (OrderedMap.empty : Dict Json).entries)
  have written (name : String) (v : Option Json) (there : (name, v) ∈ s.members) :
      Members.find? name ms = v := by
    have found := @Json.find?_normalise_field _ .empty once _ there rfl
    rw [same] at found
    refine found.trans ?_
    cases v with
    | none => rfl
    | some j => exact congrArg some (Json.normalise_of_canonicalB j ((s.settled_members _ there).2 j rfl).1)
  have text (name v : String) (there : (name, some (.str v)) ∈ s.members) :
      (fields ms).orElse name Source.text "" = some v := by
    have named : name ∈ s.members.map (·.1) := List.mem_map_of_mem there
    exact Source.orElse_given_of_member (List.contains_iff_mem.2 named) (written _ _ there) _ _
  have extras (es : List ExtraConfig) (there : es ∈ s.extraConfigs) : Source.list ExtraConfig.decode
      (.ofJson (.arr (es.map ExtraConfig.toJson))) = some es := by
    refine Source.list_ofJson fun e among => ExtraConfig.decode_toJson (fit e ?_)
    rw [Option.mem_def.1 there]
    exact among
  rw [toJson_eq, same]
  refine (decode_obj_iff sorted).2 ⟨?_, ?_, ?_, ?_, ?_, ?_, ?_, ?_⟩
  · exact text _ _ (by simp [members])
  · exact text _ _ (by simp [members])
  · exact text _ _ (by simp [members])
  · exact text _ _ (by simp [members])
  · exact Source.optional_given_of_written (by decide) (written _ _ (by simp [members])) nofun
      fun c _ => c.decode_toJson
  · exact Source.optional_given_of_written (by decide) (written _ _ (by simp [members])) nofun
      fun c _ => c.decode_toJson
  · exact Source.optional_given_of_written (by decide) (written _ _ (by simp [members])) nofun extras
  · exact Source.optional_given_of_written (by decide) (written _ _ (by simp [members])) nofun
      fun k _ => k.decode_toJson

end AppSpec

namespace Release

/-- The specification of a release as JSON. -/
def specJson (cs : List Component) : Json := .obj [("components", .arr (cs.map Component.toJson))]

theorem canonicalB_specJson (cs : List Component) : (specJson cs).canonicalB = true := by
  have component (c : Component) : c.toJson.canonicalB = true := by
    refine Json.canonicalB_obj_iff.2 ⟨?_, by simp [Json.canonicalB]⟩
    exact Members.sorted_of_keys ["name", "version"] rfl (by decide)
  have listed : (Json.arr (cs.map Component.toJson)).canonicalB = true := by
    refine Json.canonicalB_arr_iff.2 fun j there => ?_
    obtain ⟨c, -, rfl⟩ := List.mem_map.1 there
    exact component c
  refine Json.canonicalB_obj_iff.2 ⟨List.pairwise_singleton _ _, ?_⟩
  simpa using listed

theorem plainB_specJson (cs : List Component) : (specJson cs).plainB = true := by
  have listed : (Json.arr (cs.map Component.toJson)).plainB = true := by
    refine Json.plainItemsB_iff.2 fun j there => ?_
    obtain ⟨c, -, rfl⟩ := List.mem_map.1 there
    rfl
  refine Json.plainB_obj_iff.2 ⟨?_, ?_⟩
  · rintro _ ⟨⟩
    exact (by decide : "components" ≠ Source.embeddedKey)
  · simpa using listed

theorem decodeSpec_specJson (cs : List Component) : decodeSpec (.ofJson (specJson cs)) = some cs := by
  have listed : Source.list Component.decode (.ofJson (.arr (cs.map Component.toJson))) = some cs :=
    Source.list_ofJson fun c _ => rfl
  have sorted : Members.Sorted [("components", Json.arr (cs.map Component.toJson))] :=
    List.pairwise_singleton _ _
  rw [decodeSpec, specJson, Source.record_ofJson _ sorted, Option.bind_eq_bind, Option.bind_some,
    Source.orElse_given_of_member (by decide) rfl, listed]

end Release

/-! ## Records of objects in order -/

section

variable {ms : List (String × Json)} (sorted : Members.Sorted ms)

include sorted

theorem StoredObject.decode_obj_iff {o : StoredObject} : decode (.ofJson (.obj ms)) = some o ↔
    Source.keptOthers fieldNames ms = some o.body ∧
      (Source.given fieldNames ms).orElse "apiVersion" Source.text "" = some o.apiVersion ∧
      (Source.given fieldNames ms).orElse "kind" Source.text "" = some o.kind ∧
      (Source.given fieldNames ms).orElse "metadata" ObjectMeta.decode {} = some o.metadata := by
  unfold decode
  rw [Source.openRecord_ofJson _ sorted]
  constructor
  · intro h
    simp only [Option.bind_eq_bind, Option.bind_eq_some_iff, Option.map_eq_some_iff] at h
    obtain ⟨_, ⟨body, kept, rfl⟩, _, apiVersion, _, kind, _, metadata, same⟩ := h
    cases same
    exact ⟨kept, apiVersion, kind, metadata⟩
  · rintro ⟨kept, apiVersion, kind, metadata⟩
    simp only [kept, Option.map_some, Option.bind_eq_bind, Option.bind_some, apiVersion, kind, metadata]
    rfl

theorem Cluster.decode_obj_iff {c : Cluster} : decode (.ofJson (.obj ms)) = some c ↔
    (Source.given ["metadata"] ms).orElse "metadata" ObjectMeta.decode {} = some c.metadata := by
  unfold decode
  rw [Source.record_ofJson _ sorted, Option.bind_eq_bind, Option.bind_some]
  constructor
  · intro h
    obtain ⟨m, metadata, same⟩ := Option.bind_eq_some_iff.1 h
    cases same
    exact metadata
  · intro metadata
    rw [metadata]
    rfl

theorem Release.decode_obj_iff {r : Release} : decode (.ofJson (.obj ms)) = some r ↔
    (Source.given ["metadata", "spec"] ms).orElse "metadata" ObjectMeta.decode {} = some r.metadata ∧
      (Source.given ["metadata", "spec"] ms).orElse "spec" decodeSpec [] = some r.components := by
  unfold decode
  rw [Source.record_ofJson _ sorted]
  constructor
  · intro h
    simp only [Option.bind_eq_bind, Option.bind_some, Option.bind_eq_some_iff] at h
    obtain ⟨_, metadata, _, components, same⟩ := h
    cases same
    exact ⟨metadata, components⟩
  · rintro ⟨metadata, components⟩
    simp only [Option.bind_eq_bind, Option.bind_some, metadata, components]
    rfl

theorem ConfigMap.decode_obj_iff {c : ConfigMap} : decode (.ofJson (.obj ms)) = some c ↔
    (Source.given ["apiVersion", "kind", "metadata", "data"] ms).orElse "apiVersion" Source.text "v1" =
        some c.apiVersion ∧
      (Source.given ["apiVersion", "kind", "metadata", "data"] ms).orElse "kind" Source.text "ConfigMap" =
        some c.kind ∧
      (Source.given ["apiVersion", "kind", "metadata", "data"] ms).orElse "metadata" ObjectMeta.decode {} =
        some c.metadata ∧
      (Source.given ["apiVersion", "kind", "metadata", "data"] ms).orElse "data" Source.labels .empty =
        some c.data := by
  unfold decode
  rw [Source.record_ofJson _ sorted]
  constructor
  · intro h
    simp only [Option.bind_eq_bind, Option.bind_some, Option.bind_eq_some_iff] at h
    obtain ⟨_, apiVersion, _, kind, _, metadata, _, data, same⟩ := h
    cases same
    exact ⟨apiVersion, kind, metadata, data⟩
  · rintro ⟨apiVersion, kind, metadata, data⟩
    simp only [Option.bind_eq_bind, Option.bind_some, apiVersion, kind, metadata, data]
    rfl

end

end AppAdmission
