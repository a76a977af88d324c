import AppAdmission.Admission.Webhook
import AppAdmission.Admission.Catalog
import AppAdmission.Admission.Compliance
import AppAdmission.Admission.Defaults

/-!
# The built-in webhooks

The two webhooks for Apps and their chains: policy and then catalogs for the validating one, defaults
and then the baseline for the mutating one.
-/

namespace AppAdmission

/-- The validators for Apps, in order. -/
def builtinValidators (policy : PolicyConfig) : List (Validator App) :=
  [policyValidator policy, catalogValidator]

/-- The mutators for Apps, in order. -/
def builtinMutators (settings : ComplianceSettings) : List (Mutator App) :=
  [Defaults.mutator, Compliance.mutator settings]

/-- The validating webhook for Apps. -/
def validatingWebhook (policy : PolicyConfig) : Webhook App :=
  { resource := "app", chain := .validating (builtinValidators policy) }

/-- The mutating webhook for Apps. -/
def mutatingWebhook (settings : ComplianceSettings) : Webhook App :=
  { resource := "app", chain := .mutating (builtinMutators settings) }

end AppAdmission
