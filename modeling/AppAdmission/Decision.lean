import AppAdmission.Program
import AppAdmission.Error

/-!
# Decisions

A decision is a program that may fail. All its calls to the store go through `storeCall`, which
asks first whether the request is still wanted and reports a call that was abandoned.
-/

namespace AppAdmission

/-- A program that may fail. -/
abbrev Decision (α : Type) := ExceptT AdmissionError Program α

namespace Decision

variable {α : Type}

/-- A decision given as a program. -/
def ofProgram (p : Program (Except AdmissionError α)) : Decision α := ExceptT.mk p

/-- The program of a decision. -/
def program (d : Decision α) : Program (Except AdmissionError α) := ExceptT.run d

/-- Fails if the request is no longer wanted. -/
def ensureActive (operation : String) : Decision Unit :=
  ofProgram <| .poll fun cancelled =>
    .done (if cancelled then .error (.cancelled operation) else .ok ())

/-- The result of a call under the name of its purpose. -/
def settle (operation : String) (c : StoreCall) :
    Option c.Reply → Except AdmissionError (Except StoreError c.Answer)
  | none => .error (.cancelled operation)
  | some reply => .ok reply

/-- Makes a call; its failure is a value. -/
def tryCall (operation : String) (c : StoreCall) : Decision (Except StoreError c.Answer) := do
  ensureActive operation
  ofProgram <| .call c fun reply => .done (settle operation c reply)

/-- Makes a call; its failure is the failure of the decision. -/
def storeCall (operation : String) (c : StoreCall) : Decision c.Answer := do
  match ← tryCall operation c with
  | .ok answer => return answer
  | .error e => throw (.store operation e)

/-- A value that may be missing because an object does not convert. -/
def converted (value : Option α) : Decision α :=
  match value with
  | some a => return a
  | none => throw .serialization

end Decision

end AppAdmission
