import AppAdmission.Resource.Stored

/-!
# Objects of an API server

The form in which an API server takes and gives objects. Their metadata has a fixed set of fields:
others are dropped, and so are those that are null. Points in time are in whole seconds. The type of
an object is known only if both its API version and its kind are.
-/

namespace AppAdmission.ApiServer

open Json (Source)

/-- How a field of a loose record is read and written again. -/
abbrev Reader := Source → Option Json

/-- The members of a loose record with some field: each must be null or fit, and the last counts. -/
def looseField (members : Source.Fields) (name : String) (read : Reader) :
    Option (List (String × Json)) := do
  let given ← (members.filter fun m => m.1 == name).mapM fun m => Source.nullable read m.2
  return Json.optional name given.getLast?.join

/-- Reads a loose record: an object with some fields, in the order in which they are written. -/
def loose (fields : List (String × Reader)) : Reader
  | .obj members _ => do
    let ms ← Source.keyed members
    let parts ← fields.mapM fun f => looseField ms f.1 f.2
    return .obj parts.flatten
  | _ => none

/-- A text. -/
def text : Reader := fun s => (Source.text s).map .str

/-- A truth value. -/
def flag : Reader := fun s => (Source.flag s).map .bool

/-- A signed integer of 64 bits. -/
def integer : Reader := fun s => do
  let n ← Source.integer s
  if n < 0x8000000000000000 then return .ofInt n else none

/-- A map of texts. -/
def labels : Reader := fun s => (Source.labels s).map .ofLabels

/-- A point in time, in whole seconds. -/
def time : Reader := fun s => (ObjectMeta.readInstant s).map fun t => .str t.renderWhole

/-- A list. -/
def list (read : Reader) : Reader := fun s => (Source.list read s).map .arr

/-- A text that must be written, empty if it is not given. -/
def textOrEmpty (name : String) (record : Json) : List (String × Json) :=
  [(name, (record.find? name).getD (.str ""))]

/-- A field that is written only if it is given. -/
def ifGiven (name : String) (record : Json) : List (String × Json) :=
  Json.optional name (record.find? name)

/-- A reference to the owner of an object. -/
def ownerReference : Reader := fun s => do
  let r ← loose [("apiVersion", text), ("blockOwnerDeletion", flag), ("controller", flag),
    ("kind", text), ("name", text), ("uid", text)] s
  return .obj (textOrEmpty "apiVersion" r ++ ifGiven "blockOwnerDeletion" r ++ ifGiven "controller" r
    ++ textOrEmpty "kind" r ++ textOrEmpty "name" r ++ textOrEmpty "uid" r)

/-- A note on who set which fields. -/
def managedFields : Reader :=
  loose [("apiVersion", text), ("fieldsType", text), ("fieldsV1", Source.keep), ("manager", text),
    ("operation", text), ("subresource", text), ("time", time)]

/-- The metadata of an object. -/
def metadata : Reader :=
  loose [("annotations", labels), ("creationTimestamp", time), ("deletionGracePeriodSeconds", integer),
    ("deletionTimestamp", time), ("finalizers", list text), ("generateName", text),
    ("generation", integer), ("labels", labels), ("managedFields", list managedFields), ("name", text),
    ("namespace", text), ("ownerReferences", list ownerReference), ("resourceVersion", text),
    ("selfLink", text), ("uid", text)]

/-- The metadata of a list. -/
def listMetadata : Reader :=
  loose [("continue", text), ("remainingItemCount", integer), ("resourceVersion", text),
    ("selfLink", text)]

/-- What is known of the type of an object while its members are gone through. -/
structure TypeSearch where
  apiVersion : Option String := none
  kind : Option String := none
  failed : Bool := false

namespace TypeSearch

/-- Takes up one of the two fields. A second one, or one that is no text, ends the search. -/
def take (found : Option String) (value : Source) : Option (Option String) :=
  match found, value with
  | none, .str s => some s
  | _, _ => none

/-- Goes through the members: those that were taken up are gone, whether or not the type becomes
known, and the others remain. -/
def run (t : TypeSearch) : Source.Fields → TypeSearch × Source.Fields
  | [] => (t, [])
  | (k, v) :: rest =>
    if t.failed then (t, (k, v) :: rest)
    else if k = "apiVersion" then
      match take t.apiVersion v with
      | some s => run { t with apiVersion := s } rest
      | none => ({ t with failed := true }, rest)
    else if k = "kind" then
      match take t.kind v with
      | some s => run { t with kind := s } rest
      | none => ({ t with failed := true }, rest)
    else
      let (t, kept) := run t rest
      (t, (k, v) :: kept)

/-- The type as members of the object, if it is known. -/
def members (t : TypeSearch) : List (String × Json) :=
  match t.failed, t.apiVersion, t.kind with
  | false, some v, some k => [("apiVersion", .str v), ("kind", .str k)]
  | _, _, _ => []

end TypeSearch

/-- An object of which everything but its type and its metadata is given as one value: its members
join theirs. A value that has no members takes the place of the whole, which is no object then. -/
def joined (typeAndMeta : List (String × Json)) : Json → Json
  | .obj members => .obj (typeAndMeta ++ members)
  | .null => .obj typeAndMeta
  | other => other

/-- Reads an object: its type, its metadata and everything else, as the members of one value. -/
def object : Reader
  | .obj members _ => do
    let ms ← Source.keyed members
    let fs ← Source.pick ["metadata"] ms
    let meta' ← fs.orElse "metadata" metadata (.obj [])
    let others := ms.filter fun m => m.1 != "metadata"
    if others.all fun m => m.2.asideB then
      let (type, rest) := TypeSearch.run {} others
      return joined (type.members ++ [("metadata", meta')]) (← Source.keepOthers rest)
    else none
  | _ => none

/-- Reads a list of objects. -/
def objects : Source → Option (List Json)
  | .obj members _ => do
    let ms ← Source.keyed members
    let fs ← Source.pick ["metadata", "items"] ms
    let _ ← fs.orElse "metadata" listMetadata (.obj [])
    let others := ms.filter fun m => m.1 != "metadata" && m.1 != "items"
    if others.all fun m => m.2.asideB then
      match ← fs.need "items" (Source.nullable (Source.list object)) with
      | some items => return items
      | none => return []
    else none
  | _ => none

end AppAdmission.ApiServer
