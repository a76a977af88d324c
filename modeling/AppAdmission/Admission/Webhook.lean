import AppAdmission.Admission.Handler

/-!
# Webhooks

A webhook takes the bytes of a request and answers it: it reads the envelope, reads the object under
review, runs its handlers one after another, and puts the outcome into an envelope. Validators stop at
the first denial. Each mutator sees the object with the operations of all earlier ones applied, and
the reply carries all operations in order. Objects that are being torn down are always let through.
Every problem ends in a reply.
-/

namespace AppAdmission

/-- The handlers of a webhook. -/
inductive Chain (T : Type) where
  | validating (validators : List (Validator T))
  | mutating (mutators : List (Mutator T))

/-- A webhook for a resource. -/
structure Webhook (T : Type) where
  resource : String
  chain : Chain T

/-- The name of the kind of a webhook. -/
def Webhook.kindName {T : Type} (w : Webhook T) : String :=
  match w.chain with
  | .validating _ => "validating"
  | .mutating _ => "mutating"

/-- How a request ended, for those who count. -/
inductive Outcome where
  | invalidRequest
  | rejected
  | internalError
  | successful
  deriving DecidableEq, Repr

/-- What goes back to the caller. -/
structure WebhookReply where
  status : Nat
  body : String
  deriving DecidableEq, Repr

/-- What a chain of handlers comes to. -/
inductive ChainResult where
  | allowed (ops : List Patch.Operation)
  | denied (reason : String)
  deriving DecidableEq

namespace Webhook

open Json (Source)

variable {T : Type}

/-- A reply that is no review. -/
def clientError (status : Nat) (message : String) : WebhookReply :=
  { status := status, body := (Json.obj [("error", .str message)]).render }

/-- Runs validators until one denies. -/
def runValidators (request : AdmissionRequest T) : List (Validator T) → Decision ChainResult
  | [] => return .allowed []
  | v :: rest => do
    match ← v.validate request with
    | .deny reason => return .denied reason
    | .allow | .abstain => runValidators request rest

/-- The document after the operations of a handler. -/
def patched (handler : String) (ops : List Patch.Operation) (document : Json) : Decision Json :=
  match Patch.apply ops document with
  | .ok document => return document
  | .error fault => throw (.invalidPatch handler fault)

/-- The request with the object that the document now holds. After the last handler no one looks at
it any more. -/
def reread [Reviewable T] (isLast : Bool) (request : AdmissionRequest T) (document : Json) :
    Decision (AdmissionRequest T) :=
  if isLast then return request
  else do
    let object ← Decision.converted (Reviewable.decode (Source.ofJson document))
    return { request with object := object }

/-- A mutating chain part way through: the request for the next handler, the document as the handlers
so far left it, and their operations. -/
structure Progress (T : Type) where
  request : AdmissionRequest T
  document : Json
  ops : List Patch.Operation := []

/-- Takes in what a handler returned. No operations change nothing. -/
def Progress.accept [Reviewable T] (p : Progress T) (isLast : Bool) (handler : String)
    (ops : List Patch.Operation) : Decision (Progress T) :=
  if ops.isEmpty then return p
  else do
    let document ← patched handler ops p.document
    let request ← reread isLast p.request document
    return { request := request, document := document, ops := p.ops ++ ops }

/-- Runs mutators, each on the document as the earlier ones left it. -/
def Progress.run [Reviewable T] (p : Progress T) : List (Mutator T) → Decision (Progress T)
  | [] => return p
  | m :: rest => do
    let ops ← m.mutate p.request
    let p ← p.accept rest.isEmpty m.name ops
    p.run rest

/-- Runs mutators on a request and its document. -/
def runMutators [Reviewable T] (request : AdmissionRequest T) (document : Json)
    (mutators : List (Mutator T)) : Decision ChainResult := do
  let last ← Progress.run { request := request, document := document } mutators
  return .allowed last.ops

/-- Runs the handlers. Nothing is mutated in a dry run. -/
def runChain [Reviewable T] (chain : Chain T) (request : AdmissionRequest T) (document : Json) :
    Decision ChainResult :=
  match chain with
  | .validating validators => runValidators request validators
  | .mutating mutators =>
    if request.dryRun then return .allowed [] else runMutators request document mutators

/-- Reads the object of a request: the request to handle and the document, or the reason why there
is none. -/
def readRequest [Reviewable T] (wire : ReviewRequest) :
    Except AdmissionError (AdmissionRequest T × Json) :=
  match wire.object with
  | none | some .null => .error (.invalidRequest "request carries no object")
  | some document =>
    match (Reviewable.decode (Source.ofJson document) : Option T) with
    | none =>
      let kind := if wire.kind.kind = "" then "object" else wire.kind.kind
      .error (.invalidRequest ("object is not a valid " ++ kind))
    | some object =>
      .ok ({ uid := wire.uid, operation := wire.operation,
             actor := ⟨wire.userInfo.username, wire.userInfo.groups⟩,
             object := object, dryRun := wire.dryRun.getD false }, document)

/-- The answer for what the handlers came to. -/
def conclude (uid : String) : Except AdmissionError ChainResult → Outcome × ReviewResponse
  | .ok (.allowed ops) => (.successful, (ReviewResponse.allow uid).withPatch ops)
  | .ok (.denied reason) => (.rejected, .deny uid reason 403)
  | .error e => (.internalError, .deny uid e.publicMessage 500)

/-- Decides on a request. -/
def decide [Reviewable T] (chain : Chain T) (wire : ReviewRequest) :
    Program (Outcome × ReviewResponse) :=
  if wire.operation.writes then
    match readRequest (T := T) wire with
    | .error e => return (.invalidRequest, .deny wire.uid e.publicMessage 400)
    | .ok (request, document) =>
      if Reviewable.isBeingDeleted request.object then return (.successful, .allow wire.uid)
      else do
        let result ← (runChain chain request document).program
        return conclude wire.uid result
  else return (.successful, .allow wire.uid)

/-- The reply to a request, and how it ended. -/
def handle [Reviewable T] (w : Webhook T) (contentType : Option String) (body : List UInt8) :
    Program (Outcome × WebhookReply) :=
  if !contentType.any isJsonContentType then
    return (.invalidRequest, clientError 415 "expected content type application/json")
  else match (Source.ofBytes? body).bind AdmissionReview.decode with
    | none => return (.invalidRequest, clientError 400 "malformed admission review")
    | some review =>
      match review.request with
      | none => return (.invalidRequest, clientError 400 "admission review has no request")
      | some wire => do
        let (outcome, response) ← decide w.chain wire
        return (outcome,
          { status := 200, body := (AdmissionReview.respond review.apiVersion response).toJson.render })

end Webhook

end AppAdmission
