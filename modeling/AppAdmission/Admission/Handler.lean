import AppAdmission.Decision
import AppAdmission.Policy
import AppAdmission.Review

/-!
# Handlers

What a webhook runs on a request whose object has been read. A validator gives a verdict; a
mutator proposes operations on the object. Both are decisions, so they may look at the store.
-/

namespace AppAdmission

open Json (Source)

/-- Objects that can be reviewed. -/
class Reviewable (T : Type) where
  /-- Reads an object. -/
  decode : Source → Option T
  /-- The object is being torn down. -/
  isBeingDeleted : T → Bool

instance : Reviewable App := ⟨App.decode, App.isBeingDeleted⟩

/-- A request whose object has been read. -/
structure AdmissionRequest (T : Type) where
  uid : String
  operation : Verb
  actor : Actor
  object : T
  dryRun : Bool

/-- What a validator says. -/
inductive Verdict where
  | allow
  | deny (reason : String)
  | abstain
  deriving DecidableEq, Repr

/-- A handler that judges requests. -/
structure Validator (T : Type) where
  name : String
  validate : AdmissionRequest T → Decision Verdict

/-- A handler that proposes edits. No operations mean no change. -/
structure Mutator (T : Type) where
  name : String
  mutate : AdmissionRequest T → Decision (List Patch.Operation)

/-- The verdict of a ruling. -/
def Policy.Ruling.verdict : Policy.Ruling → Verdict
  | .allow => .allow
  | .deny reason => .deny reason

/-- The validator that applies the policy. -/
def policyValidator (c : PolicyConfig) : Validator App where
  name := "policy"
  validate request := return (Policy.inspect c request.actor request.object).verdict

end AppAdmission
