import AppAdmission.Patch.Operation
import AppAdmission.Text.Base64
import AppAdmission.Text.Split

/-!
# Admission reviews

The envelope in which requests for admission arrive and answers go back. An answer may carry a
patch, which travels as the base64 form of its JSON.
-/

namespace AppAdmission

open Json (Source)

/-- The kind of the object under review. -/
structure GroupVersionKind where
  group : String := ""
  version : String := ""
  kind : String := ""
  deriving DecidableEq, Repr

namespace GroupVersionKind

/-- Reads the kind of an object. -/
def decode (s : Source) : Option GroupVersionKind := do
  let fs ← s.record ["group", "version", "kind"]
  return {
    group := ← fs.orElse "group" Source.text ""
    version := ← fs.orElse "version" Source.text ""
    kind := ← fs.orElse "kind" Source.text "" }

/-- The kind of an object as JSON. -/
def toJson (k : GroupVersionKind) : Json :=
  .obj [("group", .str k.group), ("version", .str k.version), ("kind", .str k.kind)]

end GroupVersionKind

/-- What is to be done to the object. -/
inductive Verb where
  | create
  | update
  | delete
  | connect
  deriving DecidableEq, Repr

namespace Verb

/-- The name of an operation. -/
def name : Verb → String
  | create => "CREATE"
  | update => "UPDATE"
  | delete => "DELETE"
  | connect => "CONNECT"

/-- The operation of a name. -/
def ofName? (name : String) : Option Verb :=
  [create, update, delete, connect].find? fun v => v.name == name

/-- Reads an operation. -/
def decode (s : Source) : Option Verb := do
  ofName? (← s.variant)

/-- The operations that write the object. -/
def writes : Verb → Bool
  | create | update => true
  | delete | connect => false

end Verb

/-- Who asks. -/
structure UserInfo where
  username : String := ""
  groups : List String := []
  deriving DecidableEq, Repr

namespace UserInfo

/-- Reads who asks. -/
def decode (s : Source) : Option UserInfo := do
  let fs ← s.record ["username", "groups"]
  return {
    username := ← fs.orElse "username" Source.text ""
    groups := ← fs.orElse "groups" Source.texts [] }

/-- Who asks as JSON. -/
def toJson (u : UserInfo) : Json :=
  .obj [("username", .str u.username), ("groups", .ofStrings u.groups)]

end UserInfo

/-- A request for admission. -/
structure ReviewRequest where
  uid : String
  kind : GroupVersionKind := {}
  space : String := ""
  name : String := ""
  operation : Verb
  userInfo : UserInfo := {}
  object : Option Json := none
  oldObject : Option Json := none
  dryRun : Option Bool := none
  deriving DecidableEq

namespace ReviewRequest

/-- Reads a request. -/
def decode (s : Source) : Option ReviewRequest := do
  let fs ← s.record ["uid", "kind", "namespace", "name", "operation", "userInfo", "object",
    "oldObject", "dryRun"]
  return {
    uid := ← fs.need "uid" Source.text
    kind := ← fs.orElse "kind" GroupVersionKind.decode {}
    space := ← fs.orElse "namespace" Source.text ""
    name := ← fs.orElse "name" Source.text ""
    operation := ← fs.need "operation" Verb.decode
    userInfo := ← fs.orElse "userInfo" UserInfo.decode {}
    object := ← fs.optional "object" Source.keep
    oldObject := ← fs.optional "oldObject" Source.keep
    dryRun := ← fs.optional "dryRun" Source.flag }

/-- A request as JSON; a part that is not given is null. -/
def toJson (r : ReviewRequest) : Json :=
  .obj [("uid", .str r.uid), ("kind", r.kind.toJson), ("namespace", .str r.space),
    ("name", .str r.name), ("operation", .str r.operation.name), ("userInfo", r.userInfo.toJson),
    ("object", .orNull r.object), ("oldObject", .orNull r.oldObject),
    ("dryRun", .orNull (r.dryRun.map .bool))]

end ReviewRequest

/-- Why a request was not admitted. -/
structure ReviewStatus where
  message : String := ""
  code : Option Nat := none
  deriving DecidableEq, Repr

namespace ReviewStatus

/-- Reads a status. -/
def decode (s : Source) : Option ReviewStatus := do
  let fs ← s.record ["message", "code"]
  return {
    message := ← fs.orElse "message" Source.text ""
    code := ← fs.optional "code" (Source.smaller 0x10000) }

/-- A status as JSON. -/
def toJson (s : ReviewStatus) : Json :=
  .obj (("message", .str s.message) :: Json.optional "code" (s.code.map .ofNat))

end ReviewStatus

/-- The answer to a request. -/
structure ReviewResponse where
  uid : String
  allowed : Bool
  patch : Option String := none
  patchType : Option String := none
  status : Option ReviewStatus := none
  deriving DecidableEq, Repr

/-- Why the patch of an answer cannot be read. -/
inductive PatchFault where
  | notBase64
  | notPatch
  deriving DecidableEq, Repr

namespace ReviewResponse

/-- Reads an answer. -/
def decode (s : Source) : Option ReviewResponse := do
  let fs ← s.record ["uid", "allowed", "patch", "patchType", "status"]
  return {
    uid := ← fs.need "uid" Source.text
    allowed := ← fs.need "allowed" Source.flag
    patch := ← fs.optional "patch" Source.text
    patchType := ← fs.optional "patchType" Source.text
    status := ← fs.optional "status" ReviewStatus.decode }

/-- An answer as JSON. -/
def toJson (r : ReviewResponse) : Json :=
  .obj ([("uid", .str r.uid), ("allowed", .bool r.allowed)]
    ++ Json.optional "patch" (r.patch.map .str)
    ++ Json.optional "patchType" (r.patchType.map .str)
    ++ Json.optional "status" (r.status.map ReviewStatus.toJson))

/-- Admission without changes. -/
def allow (uid : String) : ReviewResponse := { uid := uid, allowed := true }

/-- A refusal with its message and code. -/
def deny (uid message : String) (code : Nat) : ReviewResponse :=
  { uid := uid, allowed := false, status := some { message := message, code := some code } }

/-- The text in which a patch travels. -/
def encodePatch (ops : List Patch.Operation) : String :=
  String.ofList (Base64.encode (Utf8.encode (Patch.toJson ops).renderChars))

/-- The answer with a patch. An empty one is not attached. -/
def withPatch (r : ReviewResponse) (ops : List Patch.Operation) : ReviewResponse :=
  if ops.isEmpty then r
  else { r with patch := some (encodePatch ops), patchType := some "JSONPatch" }

/-- The message of a refusal. -/
def message? (r : ReviewResponse) : Option String :=
  r.status.map ReviewStatus.message

/-- The patch of an answer, empty if none is attached. -/
def decodePatch (r : ReviewResponse) : Except PatchFault (List Patch.Operation) :=
  match r.patch with
  | none => .ok []
  | some text =>
    match Base64.decode? text.toList with
    | none => .error .notBase64
    | some bytes =>
      match (Source.ofBytes? bytes).bind Patch.decode with
      | some ops => .ok ops
      | none => .error .notPatch

end ReviewResponse

/-- The envelope of requests and answers. -/
structure AdmissionReview where
  apiVersion : String := "admission.k8s.io/v1"
  kind : String := "AdmissionReview"
  request : Option ReviewRequest := none
  response : Option ReviewResponse := none
  deriving DecidableEq

namespace AdmissionReview

/-- Reads an envelope. -/
def decode (s : Source) : Option AdmissionReview := do
  let fs ← s.record ["apiVersion", "kind", "request", "response"]
  return {
    apiVersion := ← fs.orElse "apiVersion" Source.text "admission.k8s.io/v1"
    kind := ← fs.orElse "kind" Source.text "AdmissionReview"
    request := ← fs.optional "request" ReviewRequest.decode
    response := ← fs.optional "response" ReviewResponse.decode }

/-- An envelope as JSON. -/
def toJson (r : AdmissionReview) : Json :=
  .obj ([("apiVersion", .str r.apiVersion), ("kind", .str r.kind)]
    ++ Json.optional "request" (r.request.map ReviewRequest.toJson)
    ++ Json.optional "response" (r.response.map ReviewResponse.toJson))

/-- The envelope of an answer, with the version of the request. -/
def respond (apiVersion : String) (response : ReviewResponse) : AdmissionReview :=
  { apiVersion := apiVersion, response := some response }

end AdmissionReview

/-- The content type names JSON, with or without parameters. -/
def isJsonContentType (value : String) : Bool :=
  let media := value.toList.takeWhile (· != ';')
  (Text.trim media).map Text.lowerAscii == "application/json".toList

end AppAdmission
