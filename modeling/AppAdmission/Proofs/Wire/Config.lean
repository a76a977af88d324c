import AppAdmission.Config.Basic
import AppAdmission.Proofs.Json.Slot

/-!
# Configuration on the wire

How the configuration of the webhooks is read and written, field by field. It carries nothing.
-/

namespace AppAdmission

open Json (Source Slot Wire)

namespace PolicyConfig

/-- The lists. -/
def slots : List (Slot PolicyConfig) :=
  [.orElse "appBlacklist" Wire.text.list (·.appBlacklist) [] (Wire.blank_list_nil _),
    .orElse "catalogBlacklist" Wire.text.list (·.catalogBlacklist) [] (Wire.blank_list_nil _),
    .orElse "groupWhitelist" Wire.text.list (·.groupWhitelist) [] (Wire.blank_list_nil _),
    .orElse "userWhitelist" Wire.text.list (·.userWhitelist) [] (Wire.blank_list_nil _),
    .orElse "namespaceBlacklist" Wire.text.list (·.namespaceBlacklist) [] (Wire.blank_list_nil _)]

/-- The lists on the wire. -/
def wire : Wire PolicyConfig :=
  .record slots (by decide) decode toJson (fun _ => [])
    (by
      rintro s ⟨⟩
      simp [slots, decode, Option.bind_eq_some_iff]
      rfl)
    (fun _ => rfl) fun _ => by simp [slots]

@[simp] theorem carried_wire : wire.carried = fun _ => [] := rfl

theorem blank_default : wire.Blank {} := ⟨⟨.obj [] 0, rfl⟩, rfl⟩

end PolicyConfig

namespace ComplianceProfile

/-- Profiles on the wire. -/
def wire : Wire ComplianceProfile :=
  .leaf decode (fun p => .str p.name) (fun {_ p} _ _ => by cases p <;> rfl) fun _ => rfl

@[simp] theorem carried_wire : wire.carried = fun _ => [] := rfl

theorem blank_default : wire.Blank .pssCompliance := ⟨⟨.str (some "pss-compliance"), rfl⟩, rfl⟩

end ComplianceProfile

namespace ComplianceConfig

theorem blank_providers : Wire.text.list.Blank ["aws", "azure", "kvm"] :=
  ⟨⟨.arr [.str (some "aws"), .str (some "azure"), .str (some "kvm")] 0, rfl⟩, rfl⟩

/-- The options. -/
def slots : List (Slot ComplianceConfig) :=
  [.orElse "provider" .text (·.provider) "" (Wire.blank_text _),
    .orElse "vintageProviders" Wire.text.list (·.vintageProviders) ["aws", "azure", "kvm"]
      blank_providers,
    .orElse "profile" ComplianceProfile.wire (·.profile) .pssCompliance ComplianceProfile.blank_default,
    .orNull "cutoffVersion" .text Wire.solid_text (·.cutoffVersion),
    .orNull "baselineArtifactName" .text Wire.solid_text (·.baselineArtifactName),
    .orNull "baselineArtifactContent" .text Wire.solid_text (·.baselineArtifactContent)]

/-- The options on the wire. -/
def wire : Wire ComplianceConfig :=
  .record slots (by decide) decode toJson (fun _ => [])
    (by
      rintro s ⟨⟩
      simp [slots, decode, Option.bind_eq_some_iff]
      rfl)
    (fun _ => rfl) fun _ => by simp [slots]

@[simp] theorem carried_wire : wire.carried = fun _ => [] := rfl

theorem blank_default : wire.Blank {} := ⟨⟨.obj [] 0, rfl⟩, rfl⟩

end ComplianceConfig

namespace WebhookConfig

/-- The parts of a configuration. -/
def slots : List (Slot WebhookConfig) :=
  [.orElse "policy" PolicyConfig.wire (·.policy) {} PolicyConfig.blank_default,
    .orElse "compliance" ComplianceConfig.wire (·.compliance) {} ComplianceConfig.blank_default]

/-- Configurations on the wire. -/
def wire : Wire WebhookConfig :=
  .record slots (by decide) decode toJson (fun _ => [])
    (by
      rintro s ⟨⟩
      simp [slots, decode, Option.bind_eq_some_iff]
      rfl)
    (fun _ => rfl) fun _ => by simp [slots]

end WebhookConfig

end AppAdmission
