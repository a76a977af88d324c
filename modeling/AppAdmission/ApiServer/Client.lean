import AppAdmission.ApiServer.Selector
import AppAdmission.ApiServer.Object
import AppAdmission.Text.Quoted

/-!
# Calls to an API server

Each store call is one request to an API server. `prepare` makes the request, or finds that it
cannot be made; `interpret` reads the reply. A reply with an error status tells by its own code what
went wrong, if it is of the form in which API servers report errors.
-/

namespace AppAdmission.ApiServer

open Json (Source)

/-- A request to an API server. -/
structure Request where
  method : String
  uri : String
  body : Option Json := none
  deriving DecidableEq

/-- The reply of an API server. -/
structure Reply where
  status : Nat
  body : List UInt8

/-- A failure of the transport or of the server. -/
def backend {α : Type} (message : String) : Except StoreError α := .error (.backend message)

/-- Characters that a path may hold. -/
def isPathChar (c : Char) : Bool :=
  let n := c.toNat
  n == 0x21 || n == 0x22 || (0x24 ≤ n && n ≤ 0x3B) || n == 0x3D || (0x40 ≤ n && n ≤ 0x5F) ||
    (0x61 ≤ n && n ≠ 0x7F)

/-- Characters that a query may hold. -/
def isQueryChar (c : Char) : Bool :=
  let n := c.toNat
  n == 0x21 || (0x24 ≤ n && n ≤ 0x3B) || n == 0x3D || (0x3F ≤ n && n ≠ 0x7F)

/-- Why nothing can be sent to an address. -/
inductive AddressFault where
  | tooLong
  | strayCharacter
  deriving DecidableEq, Repr

/-- The wording of a fault. -/
def AddressFault.message : AddressFault → String
  | tooLong => "uri too long"
  | strayCharacter => "invalid uri character"

/-- The number of bytes that an address may have. -/
def addressLimit : Nat := 65534

/-- The address as it is sent, without a fragment, if it is short enough and its characters are in
order. -/
def sendable (address : List Char) : Except AddressFault String :=
  if addressLimit < (Utf8.encode address).length then .error .tooLong
  else
    let cs := address.takeWhile (· != '#')
    let path := cs.takeWhile (· != '?')
    let query := (cs.dropWhile (· != '?')).drop 1
    if path.all isPathChar && query.all isQueryChar then .ok (String.ofList cs)
    else .error .strayCharacter

/-- A request to an address. -/
def requestTo (method : String) (address : List Char) (body : Option Json) :
    Except StoreError Request :=
  match sendable address with
  | .ok uri => .ok { method := method, uri := uri, body := body }
  | .error fault => backend ("Failed to build request: failed to build request: " ++ fault.message)

/-- A request about one object, which must have a name. -/
def requestNamed (method : String) (kind : ResourceKind) (space : Option String) (name : String)
    (ending : List Char) (body : Option Json) : Except StoreError Request :=
  if name = "" then
    backend "Failed to build request: failed to validate request: A non-empty name is required"
  else requestTo method (kind.path space ++ '/' :: name.toList ++ ending) body

/-- An object with the type of its kind where it names none. -/
def withType (kind : ResourceKind) (o : StoredObject) : StoredObject :=
  { o with
    apiVersion := if o.apiVersion = "" then kind.coordinates.apiVersion else o.apiVersion
    kind := if o.kind = "" then kind.name else o.kind }

/-- An object in the form in which it is sent. -/
def outgoing (kind : ResourceKind) (o : StoredObject) : Except StoreError Json :=
  match object (.ofJson (withType kind o).toJson.normalise) with
  | some (.obj members) => .ok (.normalise (.obj members))
  | some _ => backend "Error deserializing response"
  | none => backend "object conversion failed"

/-- A text in the metadata of an object that is sent. -/
def metadataText? (j : Json) (key : String) : Option String :=
  match (j.find? "metadata").bind (·.find? key) with
  | some (.str s) => some s
  | _ => none

/-- The request for a call. -/
def prepare : StoreCall → Except StoreError Request
  | .get kind space name => requestNamed "GET" kind space name [] none
  | .list kind filter => requestTo "GET" (kind.path filter.space ++ '?' :: filter.query) none
  | .create kind o => do
    let j ← outgoing kind o
    requestTo "POST" (kind.path (metadataText? j "namespace") ++ ['?']) (some j)
  | .update kind o => do
    let j ← outgoing kind o
    requestNamed "PUT" kind (metadataText? j "namespace") ((metadataText? j "name").getD "") ['?'] (some j)

/-- An error as an API server reports it. -/
structure ErrorReport where
  status : String
  message : String
  reason : String
  code : Nat
  deriving DecidableEq, Repr

namespace ErrorReport

/-- Reads a report. -/
def decode (s : Source) : Option ErrorReport := do
  let fs ← s.record ["status", "message", "reason", "code"]
  return {
    status := ← fs.need "status" Source.text
    message := ← fs.orElse "message" Source.text ""
    reason := ← fs.orElse "reason" Source.text ""
    code := ← fs.need "code" (Source.smaller 0x10000) }

/-- The wording of a report. -/
def describe (r : ErrorReport) : String :=
  "ApiError: " ++ r.message ++ ": " ++ r.reason ++ " (ErrorResponse \x7b status: "
    ++ Text.quoteText r.status ++ ", message: " ++ Text.quoteText r.message ++ ", reason: "
    ++ Text.quoteText r.reason ++ ", code: " ++ toString r.code ++ " \x7d)"

/-- The failure of a call about an object of a name. -/
def failure (r : ErrorReport) (kind : ResourceKind) (name : String) : StoreError :=
  if r.code = 404 then .notFound kind name
  else if r.code = 409 ∧ r.reason = "AlreadyExists" then .alreadyExists kind name
  else .backend r.describe

end ErrorReport

/-- The phrase that goes with an error status. -/
def reasonPhrase (status : Nat) : String :=
  match status with
  | 400 => "Bad Request"
  | 401 => "Unauthorized"
  | 402 => "Payment Required"
  | 403 => "Forbidden"
  | 404 => "Not Found"
  | 405 => "Method Not Allowed"
  | 406 => "Not Acceptable"
  | 407 => "Proxy Authentication Required"
  | 408 => "Request Timeout"
  | 409 => "Conflict"
  | 410 => "Gone"
  | 411 => "Length Required"
  | 412 => "Precondition Failed"
  | 413 => "Payload Too Large"
  | 414 => "URI Too Long"
  | 415 => "Unsupported Media Type"
  | 416 => "Range Not Satisfiable"
  | 417 => "Expectation Failed"
  | 418 => "I'm a teapot"
  | 421 => "Misdirected Request"
  | 422 => "Unprocessable Entity"
  | 423 => "Locked"
  | 424 => "Failed Dependency"
  | 425 => "Too Early"
  | 426 => "Upgrade Required"
  | 428 => "Precondition Required"
  | 429 => "Too Many Requests"
  | 431 => "Request Header Fields Too Large"
  | 451 => "Unavailable For Legal Reasons"
  | 500 => "Internal Server Error"
  | 501 => "Not Implemented"
  | 502 => "Bad Gateway"
  | 503 => "Service Unavailable"
  | 504 => "Gateway Timeout"
  | 505 => "HTTP Version Not Supported"
  | 506 => "Variant Also Negotiates"
  | 507 => "Insufficient Storage"
  | 508 => "Loop Detected"
  | 510 => "Not Extended"
  | 511 => "Network Authentication Required"
  | _ => "<unknown status code>"

/-- The report of a reply with an error status: the one it holds, or one made from the status. -/
def reportOf (status : Nat) (text : List Char) : ErrorReport :=
  match (Source.ofChars? text).bind ErrorReport.decode with
  | some r => r
  | none =>
    { status := toString status ++ " " ++ reasonPhrase status
      message := Text.quoteText (String.ofList text)
      reason := "Failed to parse error data"
      code := status }

/-- The wording for a reply that is no UTF-8. -/
def notText (body : List UInt8) : String :=
  match Utf8.firstFault 0 (Utf8.decode body) with
  | some (i, _, true) => "UTF-8 Error: incomplete utf-8 byte sequence from index " ++ toString i
  | some (i, width, false) =>
    "UTF-8 Error: invalid utf-8 sequence of " ++ toString width ++ " bytes from index " ++ toString i
  | none => ""

/-- The text of a reply, or the failure that it stands for. -/
def settle (kind : ResourceKind) (name : String) (r : Reply) : Except StoreError (List Char) :=
  match Utf8.decode? r.body with
  | none => backend (notText r.body)
  | some text =>
    if 400 ≤ r.status ∧ r.status ≤ 599 then .error ((reportOf r.status text).failure kind name)
    else .ok text

/-- What a reply must hold. -/
def expect {α : Type} (read : Source → Option α) (text : List Char) : Except StoreError α :=
  match (Source.ofChars? text).bind read with
  | some a => .ok a
  | none => backend "Error deserializing response"

/-- An object as it is stored. -/
def incoming (j : Json) : Except StoreError StoredObject :=
  match StoredObject.ofJson? j with
  | some o => .ok o
  | none => backend "object conversion failed"

/-- The one object of a reply. -/
def interpretOne (kind : ResourceKind) (name : String) (r : Reply) : Except StoreError StoredObject := do
  incoming (← expect object (← settle kind name r))

/-- The name of the object that is sent. -/
def sentName (kind : ResourceKind) (o : StoredObject) : String :=
  match outgoing kind o with
  | .ok j => (metadataText? j "name").getD ""
  | .error _ => ""

/-- What the reply to a call comes to. -/
def interpret : (c : StoreCall) → Reply → c.Reply
  | .get kind _ name, r => interpretOne kind name r
  | .list kind filter, r => do
    (← expect objects (← settle kind (filter.name.getD "") r)).mapM incoming
  | .create kind o, r => interpretOne kind (sentName kind o) r
  | .update kind o, r => interpretOne kind (sentName kind o) r

/-- Makes a call to a server: the requests that were sent, and what came of it. -/
def perform (server : Request → Reply) (c : StoreCall) : List Request × c.Reply :=
  match prepare c with
  | .error e => ([], .error e)
  | .ok request => ([request], interpret c (server request))

end AppAdmission.ApiServer
