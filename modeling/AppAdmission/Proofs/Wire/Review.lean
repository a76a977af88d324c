import AppAdmission.Proofs.Json.Slot
import AppAdmission.Review

/-!
# Reviews on the wire

How reviews are read and written. A request carries the object under review and the one before it,
where null stands for none.
-/

namespace AppAdmission

open Json (Source Slot Wire Carried)

namespace GroupVersionKind

/-- The fields of the kind of an object. -/
def slots : List (Slot GroupVersionKind) :=
  [.orElse "group" .text (·.group) "" (Wire.blank_text _),
    .orElse "version" .text (·.version) "" (Wire.blank_text _),
    .orElse "kind" .text (·.kind) "" (Wire.blank_text _)]

/-- Kinds of objects on the wire. -/
def wire : Wire GroupVersionKind :=
  .record slots (by decide) decode toJson (fun _ => [])
    (by
      rintro s ⟨⟩
      simp [slots, decode, Option.bind_eq_some_iff]
      rfl)
    (fun _ => rfl) fun _ => rfl

@[simp] theorem carried_wire : wire.carried = fun _ => [] := rfl

theorem blank_default : wire.Blank {} := ⟨⟨.obj [] 0, rfl⟩, rfl⟩

end GroupVersionKind

namespace Verb

/-- Verbs on the wire. -/
def wire : Wire Verb :=
  .leaf decode (fun v => .str v.name) (fun {_ v} _ _ => by cases v <;> rfl) fun _ => rfl

@[simp] theorem carried_wire : wire.carried = fun _ => [] := rfl

end Verb

namespace UserInfo

/-- The fields of who asks. -/
def slots : List (Slot UserInfo) :=
  [.orElse "username" .text (·.username) "" (Wire.blank_text _),
    .orElse "groups" Wire.text.list (·.groups) [] (Wire.blank_list_nil _)]

/-- Who asks on the wire. -/
def wire : Wire UserInfo :=
  .record slots (by decide) decode toJson (fun _ => [])
    (by
      rintro s ⟨⟩
      simp [slots, decode, Option.bind_eq_some_iff]
      rfl)
    (fun _ => rfl) fun _ => by simp [slots]

@[simp] theorem carried_wire : wire.carried = fun _ => [] := rfl

theorem blank_default : wire.Blank {} := ⟨⟨.obj [] 0, rfl⟩, rfl⟩

end UserInfo

namespace ReviewRequest

/-- The fields of a request. -/
def slots : List (Slot ReviewRequest) :=
  [.needed "uid" .text (·.uid),
    .orElse "kind" GroupVersionKind.wire (·.kind) {} GroupVersionKind.blank_default,
    .orElse "namespace" .text (·.space) "" (Wire.blank_text _),
    .orElse "name" .text (·.name) "" (Wire.blank_text _),
    .needed "operation" Verb.wire (·.operation),
    .orElse "userInfo" UserInfo.wire (·.userInfo) {} UserInfo.blank_default,
    .freeOrNull "object" (·.object),
    .freeOrNull "oldObject" (·.oldObject),
    .orNull "dryRun" .flag Wire.solid_flag (·.dryRun)]

/-- Requests on the wire. -/
def wire : Wire ReviewRequest :=
  .record slots (by decide) decode toJson
    (fun r => (Wire.freeOption.carried r.object ++ Wire.freeOption.carried r.oldObject).map
      Carried.deeper)
    (by
      rintro s ⟨⟩
      simp [slots, decode, Option.bind_eq_some_iff]
      rfl)
    (fun _ => rfl) fun _ => by simp [slots]

end ReviewRequest

namespace ReviewStatus

/-- The fields of a status. -/
def slots : List (Slot ReviewStatus) :=
  [.orElse "message" .text (·.message) "" (Wire.blank_text _),
    .optional "code" (.natural 0x10000 (by decide)) Wire.solid_natural (·.code)]

/-- Statuses on the wire. -/
def wire : Wire ReviewStatus :=
  .record slots (by decide) decode toJson (fun _ => [])
    (by
      rintro s ⟨⟩
      simp [slots, decode, Option.bind_eq_some_iff]
      rfl)
    (fun _ => by
      simp [slots, toJson]
      exact ⟨rfl, rfl⟩)
    fun _ => by simp [slots]

@[simp] theorem carried_wire : wire.carried = fun _ => [] := rfl

end ReviewStatus

namespace ReviewResponse

/-- The fields of an answer. -/
def slots : List (Slot ReviewResponse) :=
  [.needed "uid" .text (·.uid),
    .needed "allowed" .flag (·.allowed),
    .optional "patch" .text Wire.solid_text (·.patch),
    .optional "patchType" .text Wire.solid_text (·.patchType),
    .optional "status" ReviewStatus.wire nofun (·.status)]

/-- Answers on the wire. -/
def wire : Wire ReviewResponse :=
  .record slots (by decide) decode toJson (fun _ => [])
    (by
      rintro s ⟨⟩
      simp [-Bool.exists_bool, slots, decode, Option.bind_eq_some_iff]
      rfl)
    (fun _ => by
      simp [slots, toJson]
      exact ⟨rfl, rfl, rfl⟩)
    fun _ => by simp [slots]

@[simp] theorem carried_wire : wire.carried = fun _ => [] := rfl

end ReviewResponse

namespace AdmissionReview

/-- The fields of an envelope. -/
def slots : List (Slot AdmissionReview) :=
  [.orElse "apiVersion" .text (·.apiVersion) "admission.k8s.io/v1" (Wire.blank_text _),
    .orElse "kind" .text (·.kind) "AdmissionReview" (Wire.blank_text _),
    .optional "request" ReviewRequest.wire nofun (·.request),
    .optional "response" ReviewResponse.wire nofun (·.response)]

/-- Envelopes on the wire. -/
def wire : Wire AdmissionReview :=
  .record slots (by decide) decode toJson
    (fun r => (r.request.toList.flatMap ReviewRequest.wire.carried).map Carried.deeper)
    (by
      rintro s ⟨⟩
      simp [slots, decode, Option.bind_eq_some_iff]
      rfl)
    (fun _ => by
      simp [slots, toJson]
      exact ⟨rfl, rfl, rfl⟩)
    fun _ => by simp [slots]

end AdmissionReview

end AppAdmission
