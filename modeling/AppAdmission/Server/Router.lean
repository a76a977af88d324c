import AppAdmission.Admission.Builtin
import AppAdmission.Metrics.Exposition
import AppAdmission.Server.Timeout
import AppAdmission.Text.FormEncoded

/-!
# Routes

The requests that the server answers: reviews for the two webhooks, a sign of life, and the metrics.
A caller of a webhook may give a timeout in the query, which can only shorten the server's own. When
the time is up the request is cancelled, and the reply says so.
-/

namespace AppAdmission

/-- A request as it comes in. -/
structure HttpRequest where
  method : String
  target : String
  headers : List (String × String)
  body : List UInt8

/-- A response as it goes out. -/
structure HttpResponse where
  status : Nat
  contentType : Option String := none
  allow : Option String := none
  body : String := ""
  deriving DecidableEq, Repr

namespace HttpRequest

/-- What follows the scheme and the host in a full address; nothing if there is no scheme. -/
def afterHost : List Char → List Char
  | ':' :: '/' :: '/' :: rest => rest.dropWhile fun c => !(c == '/' || c == '?')
  | _ :: rest => afterHost rest
  | [] => []

/-- The path and the query of the target, without its fragment. A target that begins with a slash
holds no more than that; any other is a full address, or names a host alone. -/
def resource (r : HttpRequest) : List Char :=
  match r.target.toList.takeWhile (· != '#') with
  | '/' :: rest => '/' :: rest
  | address => afterHost address

/-- The path that is asked for. -/
def path (r : HttpRequest) : String := String.ofList (r.resource.takeWhile (· != '?'))

/-- The query, empty if there is none. -/
def query (r : HttpRequest) : List Char := (r.resource.dropWhile (· != '?')).drop 1

/-- A character that a header may show. -/
def isVisible (c : Char) : Bool := (0x20 ≤ c.toNat && c.toNat < 0x7F) || c == '\t'

/-- The first content type, if it is all visible. -/
def contentType? (r : HttpRequest) : Option String :=
  match r.headers.find? fun h => h.1.toList.map Text.lowerAscii == "content-type".toList with
  | some h => if h.2.toList.all isVisible then some h.2 else none
  | none => none

/-- The timeouts in the query. -/
def timeouts (r : HttpRequest) : List String :=
  ((FormEncoded.pairs r.query).filter fun p => p.1 == "timeout").map (·.2)

end HttpRequest

namespace HttpResponse

/-- A page of text. -/
def plain (status : Nat) (body : String) : HttpResponse :=
  { status := status, contentType := some "text/plain; charset=utf-8", body := body }

/-- No such page. -/
def notFound : HttpResponse := { status := 404 }

/-- A page that is not for this method. -/
def methodNotAllowed (allow : String) : HttpResponse := { status := 405, allow := some allow }

/-- The reply of a webhook. -/
def ofReply (r : WebhookReply) : HttpResponse :=
  { status := r.status, contentType := some "application/json", body := r.body }

/-- The response without its body. -/
def headOnly (r : HttpResponse) : HttpResponse := { r with body := "" }

end HttpResponse

/-- What the server works with. The time for a request is in nanoseconds. -/
structure Service where
  validating : Webhook App
  mutating : Webhook App
  requestTimeout : Nat

namespace Service

/-- The service for a configuration. -/
def build (config : WebhookConfig) (requestTimeout : Nat) : Except InvalidVersion Service := do
  let settings ← config.compliance.resolve
  return {
    validating := validatingWebhook config.policy
    mutating := mutatingWebhook settings
    requestTimeout := requestTimeout }

/-- The pages of the server. -/
inductive Page where
  | mutate
  | validate
  | health
  | metrics
  deriving DecidableEq, Repr

/-- The page at a path. -/
def page? (path : String) : Option Page :=
  if path = "/mutate/app" then some .mutate
  else if path = "/validate/app" then some .validate
  else if path = "/healthz" then some .health
  else if path = "/metrics" then some .metrics
  else none

/-- What a request comes to before any webhook is run: a response at once, a review within a time, or
an overflow of the timeout. -/
inductive Intake where
  | respond (response : HttpResponse)
  | review (webhook : Webhook App) (deadline : Nat)
  | overflow

/-- The greatest size of a body. -/
def bodyLimit : Nat := 2 * 1024 * 1024

/-- Takes in a request for a review. The timeouts in the query come before the body. -/
def takeReview (s : Service) (webhook : Webhook App) (r : HttpRequest) : Intake :=
  let tooLarge := HttpResponse.plain 413 "Failed to buffer the request body: length limit exceeded"
  let within (deadline : Nat) : Intake :=
    if bodyLimit < r.body.length then .respond tooLarge else .review webhook deadline
  match r.timeouts with
  | [] => within s.requestTimeout
  | [raw] =>
    if bodyLimit < r.body.length then .respond tooLarge
    else match Timeout.parse raw with
      | .duration d => within (min d s.requestTimeout)
      | .notTimeout => within s.requestTimeout
      | .overflow => .overflow
  | _ =>
    .respond (.plain 400 "Failed to deserialize query string: duplicate field `timeout`")

/-- Takes in a request for a page that is only looked at. -/
def takeLook (response : HttpResponse) (r : HttpRequest) : Intake :=
  if r.method = "GET" then .respond response
  else if r.method = "HEAD" then .respond response.headOnly
  else .respond (.methodNotAllowed "GET,HEAD")

/-- Takes in a request. -/
def take (s : Service) (metrics : Registry) (r : HttpRequest) : Intake :=
  match page? r.path with
  | none => .respond .notFound
  | some .health => takeLook (.plain 200 "ok") r
  | some .metrics =>
    takeLook { status := 200, contentType := some "text/plain; version=0.0.4",
               body := Exposition.render metrics } r
  | some .mutate =>
    if r.method = "POST" then s.takeReview s.mutating r else .respond (.methodNotAllowed "POST")
  | some .validate =>
    if r.method = "POST" then s.takeReview s.validating r else .respond (.methodNotAllowed "POST")

/-- What the server answers, and what it keeps. -/
structure Served (σ : Type) where
  response : HttpResponse
  deadline : Option Nat
  metrics : Registry
  state : σ

/-- Serves a request whose handling takes the given time. Nothing comes back for an overflow of the
timeout. -/
def serve {σ : Type} (s : Service) (env : Environment σ) (seconds : Binary64) (r : HttpRequest)
    (metrics : Registry) (state : σ) : Option (Served σ) :=
  match s.take metrics r with
  | .overflow => none
  | .respond response => some { response := response, deadline := none, metrics := metrics, state := state }
  | .review webhook deadline =>
    let ((outcome, reply), state) := (webhook.handle r.contentType? r.body).run env state
    some {
      response := .ofReply reply
      deadline := some deadline
      metrics := metrics.noteAll (outcome.events webhook.labels seconds)
      state := state }

end Service

end AppAdmission
