import AppAdmission.Store.Call
import AppAdmission.Patch.Apply
import AppAdmission.Config.Basic

/-!
# Admission errors

Why a decision could not be made. Every error has two wordings: the full one, for those who run
the webhooks, and a public one for the reply, which holds nothing of what a store or a record said.
-/

namespace AppAdmission

/-- Why a decision could not be made. -/
inductive AdmissionError where
  | invalidRequest (reason : String)
  | store (operation : String) (source : StoreError)
  | clusterNotFound (cluster : String)
  | ambiguousCluster (cluster : String) (count : Nat)
  | missingVersion (subject what : String)
  | invalidVersion (subject : String) (source : InvalidVersion)
  | invalidPatch (handler : String) (source : Patch.Fault)
  | cancelled (operation : String)
  | serialization
  deriving DecidableEq, Repr

namespace AdmissionError

/-- The full wording; there is none of its own for an object that does not convert. -/
def message? : AdmissionError → Option String
  | invalidRequest reason => some ("invalid admission request: " ++ reason)
  | store operation source => some (operation ++ " failed: " ++ source.message)
  | clusterNotFound cluster => some ("no cluster named '" ++ cluster ++ "' found")
  | ambiguousCluster cluster count =>
    some ("found " ++ toString count ++ " clusters named '" ++ cluster ++ "', expected exactly one")
  | missingVersion subject what => some (subject ++ " has no " ++ what)
  | invalidVersion subject source => some (subject ++ ": " ++ source.message)
  | invalidPatch handler source =>
    some ("handler '" ++ handler ++ "' produced an invalid patch: " ++ source.message)
  | cancelled operation => some ("request cancelled during " ++ operation)
  | serialization => none

/-- The wording for the reply. -/
def publicMessage : AdmissionError → String
  | invalidRequest reason => "invalid admission request: " ++ reason
  | store operation _ => "internal error: " ++ operation ++ " failed"
  | clusterNotFound cluster => "internal error: cluster '" ++ cluster ++ "' not found"
  | ambiguousCluster cluster _ => "internal error: cluster '" ++ cluster ++ "' is ambiguous"
  | missingVersion subject _ => "internal error: release version of " ++ subject ++ " unavailable"
  | invalidVersion subject _ => "internal error: release version of " ++ subject ++ " unavailable"
  | invalidPatch handler _ => "internal error: " ++ handler ++ " mutation failed"
  | cancelled _ => "request cancelled"
  | serialization => "internal error: response encoding failed"

end AdmissionError

end AppAdmission
