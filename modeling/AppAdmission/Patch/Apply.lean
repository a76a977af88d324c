import AppAdmission.Patch.Operation
import AppAdmission.Patch.Pointer

/-!
# Applying patches

An operation walks from the root of the document to the parent of its target and acts there;
the document around the parent is rebuilt as it was. An operation that fails leaves nothing behind. A
patch applies its operations in order and stops at the first that fails, with the document as it is
then.
-/

namespace AppAdmission

namespace Patch

/-- Why an operation does not apply. -/
inductive Fault where
  | malformedPointer (path : String)
  | missingPath (path : String)
  | invalidIndex (path : String)
  | rootRemoval
  deriving DecidableEq, Repr

/-- The wording of a fault. -/
def Fault.message : Fault → String
  | malformedPointer path => "malformed pointer '" ++ path ++ "'"
  | missingPath path => "path '" ++ path ++ "' does not exist"
  | invalidIndex path => "invalid array index in '" ++ path ++ "'"
  | rootRemoval => "cannot remove the document root"

namespace Operation

/-- The operation on an object that has, or is to have, the target as a member. -/
def onObject (op : Operation) (key : String) (members : List (String × Json)) :
    Except Fault (List (String × Json)) :=
  match op, Members.find? key members with
  | add _ value, _ => .ok (Members.insert key value members)
  | replace path _, none => .error (.missingPath path)
  | replace _ value, some _ => .ok (Members.replace key value members)
  | remove path, none => .error (.missingPath path)
  | remove _, some _ => .ok (Members.erase key members)

/-- The operation on an array at an index. -/
def atIndex (op : Operation) (i : Nat) (items : List Json) : Except Fault (List Json) :=
  match op with
  | add path value => if i ≤ items.length then .ok (items.insertIdx i value) else .error (.invalidIndex path)
  | replace path value => if i < items.length then .ok (items.set i value) else .error (.invalidIndex path)
  | remove path => if i < items.length then .ok (items.eraseIdx i) else .error (.invalidIndex path)

/-- The operation on an array. An addition at `-` goes to the end. -/
def onArray (op : Operation) (token : String) (items : List Json) : Except Fault (List Json) :=
  match op, token with
  | add _ value, "-" => .ok (items ++ [value])
  | op, token =>
    match Pointer.index? token with
    | some i => op.atIndex i items
    | none => .error (.invalidIndex op.path)

/-- The operation on the whole document. -/
def onRoot : Operation → Except Fault Json
  | add _ value => .ok value
  | replace _ value => .ok value
  | remove _ => .error .rootRemoval

/-- The operation on the value that is the parent of its target. -/
def onParent (op : Operation) (token : String) : Json → Except Fault Json
  | .obj members => (op.onObject token members).map .obj
  | .arr items => (op.onArray token items).map .arr
  | _ => .error (.missingPath op.path)

/-- The operation within a value, `tokens` leading from there to the target. -/
def within (op : Operation) : List String → Json → Except Fault Json
  | [], _ => op.onRoot
  | [token], doc => op.onParent token doc
  | token :: next :: rest, doc =>
    match doc with
    | .obj members =>
      match Members.find? token members with
      | none => .error (.missingPath op.path)
      | some child => do
        let child ← op.within (next :: rest) child
        return .obj (Members.replace token child members)
    | .arr items =>
      match Pointer.index? token with
      | none => .error (.invalidIndex op.path)
      | some i =>
        match items[i]? with
        | none => .error (.invalidIndex op.path)
        | some child => do
          let child ← op.within (next :: rest) child
          return .arr (items.set i child)
    | _ => .error (.missingPath op.path)

/-- The document after the operation. -/
def apply (op : Operation) (doc : Json) : Except Fault Json :=
  match Pointer.tokens? op.path with
  | none => .error (.malformedPointer op.path)
  | some tokens => op.within tokens doc

end Operation

/-- Applies operations in order: the document that is left, and the fault that stopped it. -/
def run : List Operation → Json → Json × Option Fault
  | [], doc => (doc, none)
  | op :: rest, doc =>
    match op.apply doc with
    | .ok doc => run rest doc
    | .error fault => (doc, some fault)

/-- The document after all operations. -/
def apply (ops : List Operation) (doc : Json) : Except Fault Json :=
  match run ops doc with
  | (doc, none) => .ok doc
  | (_, some fault) => .error fault

end Patch

end AppAdmission
