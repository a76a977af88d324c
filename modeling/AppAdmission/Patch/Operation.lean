import AppAdmission.Json.Record
import AppAdmission.Json.Printer

/-!
# Patch operations

The three operations of JSON Patch (RFC 6902) that a reply may carry, and how they are written and
read. An operation is an object whose member `op` names it, or an array that begins with the name.
-/

namespace AppAdmission.Patch

open Json (Source)

/-- An operation on the document at the place that the pointer `path` names. -/
inductive Operation where
  | add (path : String) (value : Json)
  | replace (path : String) (value : Json)
  | remove (path : String)
  deriving DecidableEq, Repr

namespace Operation

/-- The pointer of an operation. -/
def path : Operation → String
  | add p _ => p
  | replace p _ => p
  | remove p => p

/-- The operation as JSON. -/
def toJson : Operation → Json
  | add p v => .obj [("op", .str "add"), ("path", .str p), ("value", v)]
  | replace p v => .obj [("op", .str "replace"), ("path", .str p), ("value", v)]
  | remove p => .obj [("op", .str "remove"), ("path", .str p)]

/-- The operation of a given name whose members are given. -/
def ofMembers (name : String) (members : Source.Fields) : Option Operation := do
  let fs ← Source.pick (if name = "remove" then ["path"] else ["path", "value"]) members
  let path ← fs.need "path" Source.text
  match name with
  | "add" => return add path (← fs.need "value" Source.keep)
  | "replace" => return replace path (← fs.need "value" Source.keep)
  | "remove" => return remove path
  | _ => none

/-- Reads an operation. The members of an object are put aside until the name is known, so that each
must be fit for it, also one that is not used. -/
def decode : Source → Option Operation
  | .obj members _ => do
    let ms ← Source.keyed members
    let name ← (← Source.pick ["op"] ms).need "op" Source.text
    let others := ms.filter fun m => m.1 != "op"
    if others.all fun m => m.2.asideB then ofMembers name others else none
  | .arr [tag, path] _ => do
    if (← tag.text) = "remove" then return remove (← path.text) else none
  | .arr [tag, path, value] _ => do
    let name ← tag.text
    let path ← path.text
    let value ← value.keep
    if name = "add" then return add path value
    else if name = "replace" then return replace path value
    else none
  | _ => none

end Operation

/-- A patch as JSON. -/
def toJson (ops : List Operation) : Json := .arr (ops.map Operation.toJson)

/-- Reads a patch. -/
def decode : Source → Option (List Operation) := Source.list Operation.decode

end AppAdmission.Patch
