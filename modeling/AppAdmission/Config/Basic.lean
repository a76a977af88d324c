import AppAdmission.Json.Record
import AppAdmission.Json.Printer
import AppAdmission.Version.Parser

/-!
# Configuration

The configuration of the webhooks as it is written, and the compliance settings that follow from
it: a profile supplies what is not given, and the cutoff must be a version.
-/

namespace AppAdmission

open Json (Source)

/-- The lists that access control goes by. -/
structure PolicyConfig where
  appBlacklist : List String := []
  catalogBlacklist : List String := []
  groupWhitelist : List String := []
  userWhitelist : List String := []
  namespaceBlacklist : List String := []
  deriving DecidableEq, Repr

namespace PolicyConfig

/-- The names of the lists. -/
def fieldNames : List String :=
  ["appBlacklist", "catalogBlacklist", "groupWhitelist", "userWhitelist", "namespaceBlacklist"]

/-- Reads the lists. -/
def decode (s : Source) : Option PolicyConfig := do
  let fs ← s.record fieldNames
  return {
    appBlacklist := ← fs.orElse "appBlacklist" Source.texts []
    catalogBlacklist := ← fs.orElse "catalogBlacklist" Source.texts []
    groupWhitelist := ← fs.orElse "groupWhitelist" Source.texts []
    userWhitelist := ← fs.orElse "userWhitelist" Source.texts []
    namespaceBlacklist := ← fs.orElse "namespaceBlacklist" Source.texts [] }

/-- The lists as JSON. -/
def toJson (c : PolicyConfig) : Json :=
  .obj [("appBlacklist", .ofStrings c.appBlacklist), ("catalogBlacklist", .ofStrings c.catalogBlacklist),
    ("groupWhitelist", .ofStrings c.groupWhitelist), ("userWhitelist", .ofStrings c.userWhitelist),
    ("namespaceBlacklist", .ofStrings c.namespaceBlacklist)]

end PolicyConfig

/-- The baselines that are known by name. -/
inductive ComplianceProfile where
  | pssCompliance
  | pspRemoval
  deriving DecidableEq, Repr

namespace ComplianceProfile

/-- The name of a profile. -/
def name : ComplianceProfile → String
  | pssCompliance => "pss-compliance"
  | pspRemoval => "psp-removal"

/-- The profile of a name. -/
def ofName? (name : String) : Option ComplianceProfile :=
  if name = "pss-compliance" then some pssCompliance
  else if name = "psp-removal" then some pspRemoval
  else none

/-- Reads a profile. -/
def decode (s : Source) : Option ComplianceProfile := do
  ofName? (← s.variant)

/-- The first release that gets the baseline. -/
def cutoff : ComplianceProfile → String
  | pssCompliance => "19.2.0"
  | pspRemoval => "19.0.0"

/-- The name of the artifact that holds the baseline. -/
def artifactName : ComplianceProfile → String
  | pssCompliance => "pss-compliance-patch"
  | pspRemoval => "psp-removal-patch"

/-- The values that the artifact holds. -/
def artifactContent : ComplianceProfile → String
  | pssCompliance | pspRemoval => "global:\n  podSecurityStandards:\n    enforced: true\n"

end ComplianceProfile

/-- The compliance options as written. -/
structure ComplianceConfig where
  provider : String := ""
  vintageProviders : List String := ["aws", "azure", "kvm"]
  profile : ComplianceProfile := .pssCompliance
  cutoffVersion : Option String := none
  baselineArtifactName : Option String := none
  baselineArtifactContent : Option String := none
  deriving DecidableEq, Repr

namespace ComplianceConfig

/-- The names of the options. -/
def fieldNames : List String :=
  ["provider", "vintageProviders", "profile", "cutoffVersion", "baselineArtifactName",
    "baselineArtifactContent"]

/-- Reads the options. -/
def decode (s : Source) : Option ComplianceConfig := do
  let fs ← s.record fieldNames
  return {
    provider := ← fs.orElse "provider" Source.text ""
    vintageProviders := ← fs.orElse "vintageProviders" Source.texts ["aws", "azure", "kvm"]
    profile := ← fs.orElse "profile" ComplianceProfile.decode .pssCompliance
    cutoffVersion := ← fs.optional "cutoffVersion" Source.text
    baselineArtifactName := ← fs.optional "baselineArtifactName" Source.text
    baselineArtifactContent := ← fs.optional "baselineArtifactContent" Source.text }

/-- The options as JSON; one that is not given is null. -/
def toJson (c : ComplianceConfig) : Json :=
  .obj [("provider", .str c.provider), ("vintageProviders", .ofStrings c.vintageProviders),
    ("profile", .str c.profile.name), ("cutoffVersion", .orNull (c.cutoffVersion.map .str)),
    ("baselineArtifactName", .orNull (c.baselineArtifactName.map .str)),
    ("baselineArtifactContent", .orNull (c.baselineArtifactContent.map .str))]

end ComplianceConfig

/-- The configuration of the webhooks. -/
structure WebhookConfig where
  policy : PolicyConfig := {}
  compliance : ComplianceConfig := {}
  deriving DecidableEq, Repr

namespace WebhookConfig

/-- Reads a configuration. -/
def decode (s : Source) : Option WebhookConfig := do
  let fs ← s.record ["policy", "compliance"]
  return {
    policy := ← fs.orElse "policy" PolicyConfig.decode {}
    compliance := ← fs.orElse "compliance" ComplianceConfig.decode {} }

/-- A configuration as JSON. -/
def toJson (c : WebhookConfig) : Json :=
  .obj [("policy", c.policy.toJson), ("compliance", c.compliance.toJson)]

end WebhookConfig

/-- A version that is not one: the text and what is wrong with it. -/
structure InvalidVersion where
  raw : String
  fault : Version.Fault
  deriving DecidableEq, Repr

namespace InvalidVersion

/-- The wording of the error. -/
def message (e : InvalidVersion) : String :=
  "invalid version '" ++ e.raw ++ "': " ++ e.fault.message

end InvalidVersion

namespace Version

/-- Reads a version; an error holds the text as it was given. -/
def read (raw : String) : Except InvalidVersion Version :=
  (parse raw).mapError fun fault => ⟨raw, fault⟩

end Version

/-- The compliance settings in force. The providers are in order, each once. -/
structure ComplianceSettings where
  provider : String
  vintageProviders : List String
  cutoff : Version
  artifactName : String
  artifactContent : String
  deriving DecidableEq, Repr

namespace ComplianceConfig

/-- The texts of a list in order, each once. -/
def distinct (texts : List String) : List String :=
  (Members.sort (texts.map fun t => (t, ()))).map (·.1)

/-- The settings that follow from the options. -/
def resolve (c : ComplianceConfig) : Except InvalidVersion ComplianceSettings := do
  let cutoff ← Version.read (c.cutoffVersion.getD c.profile.cutoff)
  return {
    provider := c.provider
    vintageProviders := distinct c.vintageProviders
    cutoff := cutoff
    artifactName := c.baselineArtifactName.getD c.profile.artifactName
    artifactContent := c.baselineArtifactContent.getD c.profile.artifactContent }

end ComplianceConfig

end AppAdmission
