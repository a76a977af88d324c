import AppAdmission.Proofs.Instant
import AppAdmission.Proofs.Json.Slot
import AppAdmission.Resource.Stored

/-!
# Resources on the wire

How each resource is read and written, field by field. All they carry are the free members of metadata
and of stored objects.
-/

namespace AppAdmission

open Json (Source Slot Wire Carried)

namespace NamespacedRef

/-- The fields of a reference. -/
def slots : List (Slot NamespacedRef) :=
  [.orElse "name" .text (·.name) "" (Wire.blank_text _),
    .orElse "namespace" .text (·.space) "" (Wire.blank_text _)]

/-- References on the wire. -/
def wire : Wire NamespacedRef :=
  .record slots (by decide) decode toJson (fun _ => [])
    (by
      rintro s ⟨⟩
      simp [slots, decode, Option.bind_eq_some_iff]
      rfl)
    (fun _ => rfl) fun _ => rfl

@[simp] theorem carried_wire : wire.carried = fun _ => [] := rfl

end NamespacedRef

namespace AppConfig

/-- The fields of a pair of references. -/
def slots : List (Slot AppConfig) :=
  [.optional "configMap" NamespacedRef.wire nofun (·.configMap),
    .optional "secret" NamespacedRef.wire nofun (·.secret)]

/-- Pairs of references on the wire. -/
def wire : Wire AppConfig :=
  .record slots (by decide) decode toJson (fun _ => [])
    (by
      rintro s ⟨⟩
      simp [slots, decode, Option.bind_eq_some_iff]
      rfl)
    (fun ⟨c, s⟩ => by cases c <;> cases s <;> rfl) fun _ => by simp [slots]

@[simp] theorem carried_wire : wire.carried = fun _ => [] := rfl

end AppConfig

namespace KubeConfig

/-- The fields of the access to a cluster. -/
def slots : List (Slot KubeConfig) :=
  [.orElse "inCluster" .flag (·.inCluster) false (Wire.blank_flag _),
    .optional "secret" NamespacedRef.wire nofun (·.secret)]

/-- The access to a cluster on the wire. -/
def wire : Wire KubeConfig :=
  .record slots (by decide) decode toJson (fun _ => [])
    (by
      rintro s ⟨⟩
      simp [slots, decode, Option.bind_eq_some_iff]
      rfl)
    (fun ⟨_, s⟩ => by cases s <;> rfl) fun _ => by simp [slots]

@[simp] theorem carried_wire : wire.carried = fun _ => [] := rfl

end KubeConfig

/-- The kinds of extra configuration on the wire. -/
def SourceKind.wire : Wire SourceKind :=
  .leaf decode (fun k => .str k.name) (fun {_ k} _ _ => by cases k <;> rfl) fun _ => rfl

theorem SourceKind.blank_configMap : SourceKind.wire.Blank .configMap :=
  ⟨⟨.str (some "configMap"), rfl⟩, rfl⟩

namespace ExtraConfig

/-- The fields of an extra configuration source. -/
def slots : List (Slot ExtraConfig) :=
  [.orElse "kind" SourceKind.wire (·.kind) .configMap SourceKind.blank_configMap,
    .needed "name" .text (·.name),
    .orElse "namespace" .text (·.space) "" (Wire.blank_text _),
    .orElse "priority" (.natural 0x100000000 (by decide)) (·.priority) defaultPriority
      (Wire.blank_natural (by decide))]

/-- Extra configuration sources on the wire. -/
def wire : Wire ExtraConfig :=
  .record slots (by decide) decode toJson (fun _ => [])
    (by
      rintro s ⟨⟩
      simp [slots, decode, Option.bind_eq_some_iff]
      rfl)
    (fun _ => rfl) fun _ => rfl

@[simp] theorem carried_wire : wire.carried = fun _ => [] := rfl

end ExtraConfig

namespace AppSpec

/-- The fields of what an App asks for. -/
def slots : List (Slot AppSpec) :=
  [.orElse "name" .text (·.name) "" (Wire.blank_text _),
    .orElse "namespace" .text (·.space) "" (Wire.blank_text _),
    .orElse "catalog" .text (·.catalog) "" (Wire.blank_text _),
    .orElse "version" .text (·.version) "" (Wire.blank_text _),
    .optional "config" AppConfig.wire nofun (·.config),
    .optional "userConfig" AppConfig.wire nofun (·.userConfig),
    .optional "extraConfigs" ExtraConfig.wire.list nofun (·.extraConfigs),
    .optional "kubeConfig" KubeConfig.wire nofun (·.kubeConfig)]

/-- What an App asks for on the wire. -/
def wire : Wire AppSpec :=
  .record slots (by decide) decode toJson (fun _ => [])
    (by
      rintro s ⟨⟩
      simp [slots, decode, Option.bind_eq_some_iff]
      rfl)
    (fun ⟨_, _, _, _, c, u, e, k⟩ => by cases c <;> cases u <;> cases e <;> cases k <;> rfl)
    fun _ => by simp [slots]

@[simp] theorem carried_wire : wire.carried = fun _ => [] := rfl

end AppSpec

namespace ObjectMeta

theorem readInstant_eq_some_iff {s : Source} {t : Instant} :
    readInstant s = some t ↔ ∃ v, s = .str (some v) ∧ Instant.parse? v.toList = some t := by
  unfold readInstant
  cases s with
  | str v => cases v <;> simp [Source.text]
  | null | bool _ | num _ | arr _ _ | obj _ _ => simp [Source.text]

/-- Points in time on the wire. -/
def instant : Wire Instant :=
  .leaf readInstant (fun t => .str t.render)
    (fun h _ => by
      obtain ⟨v, -, read⟩ := readInstant_eq_some_iff.1 h
      exact readInstant_eq_some_iff.2 ⟨_, rfl, Instant.parse?_render (Instant.valid_of_parse? read)⟩)
    fun _ => rfl

@[simp] theorem carried_instant : instant.carried = fun _ => [] := rfl

/-- The fields of metadata with types of their own. -/
def slots : List (Slot ObjectMeta) :=
  [.orElse "name" .text (·.name) "" (Wire.blank_text _),
    .optional "namespace" .text Wire.solid_text (·.namespaceName),
    .optional "labels" .labels Wire.solid_labels (·.labels),
    .optional "annotations" .labels Wire.solid_labels (·.annotations),
    .optional "resourceVersion" .text Wire.solid_text (·.resourceVersion),
    .optional "deletionTimestamp" instant nofun (·.deletionTimestamp)]

/-- Metadata on the wire. -/
def wire : Wire ObjectMeta :=
  .openRecord slots (by decide) (·.extra) decode toJson (fun m => Carried.others m.extra)
    (by
      rintro s ⟨⟩
      simp [slots, decode, Option.bind_eq_some_iff]
      rfl)
    (fun _ => by
      simp [slots, toJson]
      exact ⟨rfl, rfl⟩)
    fun _ => by simp [slots]

@[simp] theorem carried_wire : wire.carried = fun m => Carried.others m.extra := rfl

theorem blank_default : wire.Blank {} := ⟨⟨.obj [] 0, rfl⟩, rfl⟩

end ObjectMeta

namespace App

/-- The fields of an App. -/
def slots : List (Slot App) :=
  [.orElse "apiVersion" .text (·.apiVersion) "application.giantswarm.io/v1alpha1" (Wire.blank_text _),
    .orElse "kind" .text (·.kind) "App" (Wire.blank_text _),
    .orElse "metadata" ObjectMeta.wire (·.metadata) {} ObjectMeta.blank_default,
    .needed "spec" AppSpec.wire (·.spec)]

/-- Apps on the wire. -/
def wire : Wire App :=
  .record slots (by decide) decode toJson
    (fun a => (ObjectMeta.wire.carried a.metadata).map Carried.deeper)
    (by
      rintro s ⟨⟩
      simp [slots, decode, Option.bind_eq_some_iff]
      rfl)
    (fun _ => rfl) fun _ => by simp [slots]

end App

namespace Cluster

/-- The field of a cluster. -/
def slots : List (Slot Cluster) :=
  [.orElse "metadata" ObjectMeta.wire (·.metadata) {} ObjectMeta.blank_default]

/-- Clusters on the wire. -/
def wire : Wire Cluster :=
  .record slots (by decide) decode toJson
    (fun c => (ObjectMeta.wire.carried c.metadata).map Carried.deeper)
    (by
      rintro s ⟨⟩
      simp [slots, decode, Option.bind_eq_some_iff]
      rfl)
    (fun _ => rfl) fun _ => by simp [slots]

end Cluster

namespace Component

/-- The fields of a component. -/
def slots : List (Slot Component) :=
  [.needed "name" .text (·.name), .needed "version" .text (·.version)]

/-- Components on the wire. -/
def wire : Wire Component :=
  .record slots (by decide) decode toJson (fun _ => [])
    (by
      rintro s ⟨⟩
      simp [slots, decode, Option.bind_eq_some_iff]
      rfl)
    (fun _ => rfl) fun _ => rfl

@[simp] theorem carried_wire : wire.carried = fun _ => [] := rfl

end Component

namespace Release

/-- The field of the specification of a release. -/
def specSlots : List (Slot (List Component)) :=
  [.orElse "components" Component.wire.list id [] (Wire.blank_list_nil _)]

/-- Specifications of releases on the wire. -/
def specWire : Wire (List Component) :=
  .record specSlots (by decide) decodeSpec
    (fun cs => .obj [("components", .arr (cs.map Component.toJson))]) (fun _ => [])
    (by
      intro s cs
      simp [specSlots, decodeSpec, Option.bind_eq_some_iff]
      rfl)
    (fun _ => rfl) fun _ => by simp [specSlots]

@[simp] theorem carried_specWire : specWire.carried = fun _ => [] := rfl

theorem blank_spec_nil : specWire.Blank [] := ⟨⟨.obj [] 0, rfl⟩, rfl⟩

/-- The fields of a release. -/
def slots : List (Slot Release) :=
  [.orElse "metadata" ObjectMeta.wire (·.metadata) {} ObjectMeta.blank_default,
    .orElse "spec" specWire (·.components) [] blank_spec_nil]

/-- Releases on the wire. -/
def wire : Wire Release :=
  .record slots (by decide) decode toJson
    (fun r => (ObjectMeta.wire.carried r.metadata).map Carried.deeper)
    (by
      rintro s ⟨⟩
      simp [slots, decode, Option.bind_eq_some_iff]
      rfl)
    (fun _ => rfl) fun _ => by simp [slots]

end Release

namespace ConfigMap

/-- The fields of a config map. -/
def slots : List (Slot ConfigMap) :=
  [.orElse "apiVersion" .text (·.apiVersion) "v1" (Wire.blank_text _),
    .orElse "kind" .text (·.kind) "ConfigMap" (Wire.blank_text _),
    .orElse "metadata" ObjectMeta.wire (·.metadata) {} ObjectMeta.blank_default,
    .orElse "data" .labels (·.data) .empty (Wire.blank_labels _)]

/-- Config maps on the wire. -/
def wire : Wire ConfigMap :=
  .record slots (by decide) decode toJson
    (fun c => (ObjectMeta.wire.carried c.metadata).map Carried.deeper)
    (by
      rintro s ⟨⟩
      simp [slots, decode, Option.bind_eq_some_iff]
      rfl)
    (fun _ => rfl) fun _ => by simp [slots]

end ConfigMap

namespace StoredObject

/-- The fields of a stored object with types of their own. -/
def slots : List (Slot StoredObject) :=
  [.orElse "apiVersion" .text (·.apiVersion) "" (Wire.blank_text _),
    .orElse "kind" .text (·.kind) "" (Wire.blank_text _),
    .orElse "metadata" ObjectMeta.wire (·.metadata) {} ObjectMeta.blank_default]

/-- Stored objects on the wire. -/
def wire : Wire StoredObject :=
  .openRecord slots (by decide) (·.body) decode toJson
    (fun o => (ObjectMeta.wire.carried o.metadata).map Carried.deeper ++ Carried.others o.body)
    (by
      rintro s ⟨⟩
      simp [slots, decode, Option.bind_eq_some_iff]
      rfl)
    (fun _ => rfl) fun _ => by simp [slots]

end StoredObject

end AppAdmission
