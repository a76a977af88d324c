import AppAdmission.Proofs.Admission.Ending
import AppAdmission.Proofs.Review

/-!
# What a webhook replies

The whole decision table of a webhook, for any bytes and any chain. A request is refused before it is
read, or answered with an envelope that can be read back. The answer admits what does not write, what
is being torn down, dry runs of mutating chains and whatever the handlers pass; everything else is
refused, with a code and a message that say why.
-/

namespace AppAdmission.Webhook

open Json (Source)

variable {T σ : Type} [Reviewable T] {env : Environment σ} {chain : Chain T} {wire : ReviewRequest}
  {s : σ}

/-- The handlers of a chain are to run: the request writes an object that can be read and is not being
torn down, and it is no dry run of a mutating chain. -/
structure Handled (chain : Chain T) (wire : ReviewRequest) (object : T) (document : Json) : Prop where
  writes : wire.operation.writes = true
  came : wire.object = some document
  read : object? T wire = some object
  kept : Reviewable.isBeingDeleted object = false
  free : ∀ ms, chain = .mutating ms → wire.dryRun ≠ some true

/-- The handlers of a chain are to run on a request, and this is what they come to. -/
def ComesTo (env : Environment σ) (chain : Chain T) (wire : ReviewRequest) (s : σ)
    (result : Except AdmissionError ChainResult) : Prop :=
  ∃ object document t, Handled chain wire object document ∧
    Ends env (requestFor wire object) document s chain result t

/-- The answer to a request is the one that the state of its object and the end of its chain call
for. -/
structure Decided (env : Environment σ) (chain : Chain T) (wire : ReviewRequest) (s : σ)
    (response : ReviewResponse) : Prop where
  uid : response.uid = wire.uid
  /-- Admitted is what does not write, what is being torn down, what a mutating chain is not to touch,
  and what passes all handlers. -/
  allowed : response.allowed = true ↔ (wire.operation = .delete ∨ wire.operation = .connect) ∨
    ∃ object : T, object? T wire = some object ∧ (Reviewable.isBeingDeleted object = true ∨
      ((∃ ms, chain = .mutating ms) ∧ wire.dryRun = some true) ∨
      ∃ ops, ComesTo env chain wire s (.ok (.allowed ops)))
  admitted : response.allowed = true → response.status = none
  refused : response.allowed = false → ∃ message code,
    response.status = some ⟨message, some code⟩ ∧ (code = 400 ∨ code = 403 ∨ code = 500)
  unread : (∃ message, response.status = some ⟨message, some 400⟩) ↔
    wire.operation.writes = true ∧ object? T wire = none
  denied : ∀ reason, response.status = some ⟨reason, some 403⟩ ↔
    ComesTo env chain wire s (.ok (.denied reason))
  failed : ∀ message, response.status = some ⟨message, some 500⟩ ↔
    ∃ e, ComesTo env chain wire s (.error e) ∧ message = e.publicMessage
  patch : ∀ text, response.patch = some text ↔ ∃ ms ops, chain = .mutating ms ∧ ops ≠ [] ∧
    ComesTo env chain wire s (.ok (.allowed ops)) ∧ text = ReviewResponse.encodePatch ops
  patchType : response.patchType = response.patch.map fun _ => "JSONPatch"

theorem writes_eq_false_iff {v : Verb} : v.writes = false ↔ v = .delete ∨ v = .connect := by
  cases v <;> simp [Verb.writes]

/-- Of handlers that run, the end is what the chain comes to. -/
theorem comesTo_iff {object : T} {document : Json} (handled : Handled chain wire object document)
    (result : Except AdmissionError ChainResult) : ComesTo env chain wire s result ↔
      (Decision.eval env (runChain chain (requestFor wire object) document) s).1 = result := by
  have free : ∀ ms, chain = .mutating ms → (requestFor wire object).dryRun = false :=
    fun ms h => dryRun_requestFor (handled.free ms h)
  constructor
  · rintro ⟨other, document', t, again, ends⟩
    obtain rfl : document = document' := Option.some.inj (handled.came.symm.trans again.came)
    obtain rfl : object = other := Option.some.inj (handled.read.symm.trans again.read)
    rw [(eval_runChain_iff free).2 ends]
  · rintro rfl
    exact ⟨object, document, _, handled, (eval_runChain_iff free).1 rfl⟩

omit [Reviewable T] in
/-- Validators that pass come to no operations. -/
theorem Judged.ops_eq_nil {request : AdmissionRequest T} {vs : List (Validator T)} {t : σ}
    {result : Except AdmissionError ChainResult} {ops : List Patch.Operation}
    (judged : Judged env request vs s result t) (passes : result = .ok (.allowed ops)) : ops = [] := by
  induction judged with
  | passed _ =>
    cases passes
    rfl
  | onward _ _ _ ih => exact ih passes
  | denied _ => cases passes
  | failed _ => cases passes

/-- Only a mutating chain comes to operations. -/
theorem ComesTo.mutating {ops : List Patch.Operation}
    (comes : ComesTo env chain wire s (.ok (.allowed ops))) (edits : ops ≠ []) :
    ∃ ms, chain = .mutating ms := by
  obtain ⟨object, document, t, -, ends⟩ := comes
  cases chain with
  | validating vs =>
    cases ends with
    | judged judged => exact absurd (judged.ops_eq_nil rfl) edits
  | mutating ms => exact ⟨ms, rfl⟩

/-- A request that is let through without asking the handlers. -/
theorem Decided.through (asked : ∀ result, ¬ComesTo env chain wire s result)
    (reads : wire.operation.writes = false ∨ ∃ object : T, object? T wire = some object ∧
      (Reviewable.isBeingDeleted object = true ∨
        (∃ ms, chain = .mutating ms) ∧ wire.dryRun = some true)) :
    Decided env chain wire s (.allow wire.uid) where
  uid := rfl
  allowed := by
    constructor
    · intro _
      rcases reads with h | ⟨object, read, torn | dry⟩
      · exact Or.inl (writes_eq_false_iff.1 h)
      · exact Or.inr ⟨object, read, Or.inl torn⟩
      · exact Or.inr ⟨object, read, Or.inr (Or.inl dry)⟩
    · intro _
      rfl
  admitted _ := rfl
  refused h := by cases h
  unread := by
    constructor
    · rintro ⟨message, h⟩
      cases h
    · rintro ⟨writes, none⟩
      rcases reads with h | ⟨object, read, _⟩
      · rw [writes] at h
        cases h
      · rw [none] at read
        cases read
  denied reason := by
    constructor
    · intro h
      cases h
    · intro h
      exact absurd h (asked _)
  failed message := by
    constructor
    · intro h
      cases h
    · rintro ⟨e, h, _⟩
      exact absurd h (asked _)
  patch text := by
    constructor
    · intro h
      cases h
    · rintro ⟨_, _, _, _, h, _⟩
      exact absurd h (asked _)
  patchType := rfl

/-- A request whose object cannot be read. -/
theorem Decided.unreadable {message : String} (writes : wire.operation.writes = true)
    (none : object? T wire = none) :
    Decided env chain wire s (.deny wire.uid message 400) := by
  have asked : ∀ result, ¬ComesTo env chain wire s result := by
    rintro result ⟨object, document, t, handled, _⟩
    rw [handled.read] at none
    cases none
  refine ⟨rfl, ?_, fun h => ?_, fun _ => ⟨message, 400, rfl, Or.inl rfl⟩,
    ⟨fun _ => ⟨writes, none⟩, fun _ => ⟨message, rfl⟩⟩, ?_, ?_, ?_, rfl⟩
  · constructor
    · intro h
      cases h
    · rintro (h | ⟨object, read, _⟩)
      · rw [writes_eq_false_iff.2 h] at writes
        cases writes
      · rw [none] at read
        cases read
  · cases h
  · intro reason
    constructor
    · intro h
      simp [ReviewResponse.deny] at h
    · intro h
      exact absurd h (asked _)
  · intro reason
    constructor
    · intro h
      simp [ReviewResponse.deny] at h
    · rintro ⟨e, h, _⟩
      exact absurd h (asked _)
  · intro text
    constructor
    · intro h
      cases h
    · rintro ⟨_, _, _, _, h, _⟩
      exact absurd h (asked _)

/-- Where the handlers run, only what passes them is admitted. -/
theorem Handled.admits_iff {object : T} {document : Json}
    (handled : Handled chain wire object document) :
    ((wire.operation = .delete ∨ wire.operation = .connect) ∨
      ∃ object : T, object? T wire = some object ∧ (Reviewable.isBeingDeleted object = true ∨
        ((∃ ms, chain = .mutating ms) ∧ wire.dryRun = some true) ∨
        ∃ ops, ComesTo env chain wire s (.ok (.allowed ops)))) ↔
    ∃ ops, ComesTo env chain wire s (.ok (.allowed ops)) := by
  constructor
  · rintro (h | ⟨other, read, torn | ⟨⟨ms, h⟩, dry⟩ | passes⟩)
    · have writes := handled.writes
      rw [writes_eq_false_iff.2 h] at writes
      cases writes
    · obtain rfl : object = other := Option.some.inj (handled.read.symm.trans read)
      rw [handled.kept] at torn
      cases torn
    · exact absurd dry (handled.free ms h)
    · exact passes
  · intro passes
    exact Or.inr ⟨object, handled.read, Or.inr (Or.inr passes)⟩

/-- The status of an answer says how the chain ended. -/
theorem status_conclude (uid : String) (result : Except AdmissionError ChainResult) :
    (conclude uid result).2.status = match result with
      | .ok (.allowed _) => none
      | .ok (.denied reason) => some ⟨reason, some 403⟩
      | .error e => some ⟨e.publicMessage, some 500⟩ := by
  match result with
  | .ok (.allowed ops) => exact status_withPatch (.allow uid) ops
  | .ok (.denied reason) => rfl
  | .error e => rfl

/-- The patch of an answer is what the chain came to, unless that is nothing. -/
theorem patch_conclude_iff {uid text : String} {result : Except AdmissionError ChainResult} :
    (conclude uid result).2.patch = some text ↔
      ∃ ops, result = .ok (.allowed ops) ∧ ops ≠ [] ∧ text = ReviewResponse.encodePatch ops := by
  match result with
  | .ok (.denied reason) => simp [conclude, ReviewResponse.deny]
  | .error e => simp [conclude, ReviewResponse.deny]
  | .ok (.allowed []) => simp [conclude, ReviewResponse.withPatch, ReviewResponse.allow]
  | .ok (.allowed (op :: rest)) =>
    rw [conclude, withPatch_of_ne_nil _ (List.cons_ne_nil op rest)]
    simp [eq_comm]

theorem patchType_conclude (uid : String) (result : Except AdmissionError ChainResult) :
    (conclude uid result).2.patchType = (conclude uid result).2.patch.map fun _ => "JSONPatch" := by
  match result with
  | .ok (.denied reason) => rfl
  | .error e => rfl
  | .ok (.allowed []) => rfl
  | .ok (.allowed (op :: rest)) => rfl

/-- A request whose handlers run is answered as their end says. -/
theorem Decided.concluded {object : T} {document : Json} {result : Except AdmissionError ChainResult}
    (handled : Handled chain wire object document) (comes : ComesTo env chain wire s result) :
    Decided env chain wire s (conclude wire.uid result).2 := by
  have same : ∀ other, ComesTo env chain wire s other ↔ result = other := by
    intro other
    rw [comesTo_iff handled, (comesTo_iff handled _).1 comes]
  constructor
  · match result with
    | .ok (.allowed ops) => exact uid_withPatch (.allow wire.uid) ops
    | .ok (.denied reason) => rfl
    | .error e => rfl
  · rw [handled.admits_iff, allowed_conclude_iff]
    simp only [same]
  · intro allowed
    obtain ⟨ops, rfl⟩ := allowed_conclude_iff.1 allowed
    exact status_conclude wire.uid _
  · intro refused
    rw [status_conclude]
    match result with
    | .ok (.allowed ops) => simp [conclude, ReviewResponse.allow] at refused
    | .ok (.denied reason) => exact ⟨reason, 403, rfl, Or.inr (Or.inl rfl)⟩
    | .error e => exact ⟨e.publicMessage, 500, rfl, Or.inr (Or.inr rfl)⟩
  · rw [status_conclude, handled.read]
    match result with
    | .ok (.allowed ops) => simp
    | .ok (.denied reason) => simp
    | .error e => simp
  · intro reason
    rw [status_conclude, same]
    match result with
    | .ok (.allowed ops) => simp
    | .ok (.denied reason) => simp
    | .error e => simp
  · intro message
    rw [status_conclude]
    simp only [same]
    match result with
    | .ok (.allowed ops) => simp
    | .ok (.denied reason) => simp
    | .error e => simp [eq_comm]
  · intro text
    rw [patch_conclude_iff]
    simp only [same]
    constructor
    · rintro ⟨ops, rfl, edits, written⟩
      obtain ⟨ms, mutates⟩ := comes.mutating edits
      exact ⟨ms, ops, mutates, edits, rfl, written⟩
    · rintro ⟨ms, ops, -, edits, ends, written⟩
      exact ⟨ops, ends, edits, written⟩
  · exact patchType_conclude wire.uid result

/-- The answer to any request is decided, whatever the handlers and the store do. -/
theorem decided_run (env : Environment σ) (chain : Chain T) (wire : ReviewRequest) (s : σ) :
    ∃ outcome response t, (decide chain wire).run env s = ((outcome, response), t) ∧
      Decided env chain wire s response := by
  cases writes : wire.operation.writes with
  | false =>
    refine ⟨_, _, _, run_decide_reading writes s, .through ?_ (Or.inl writes)⟩
    rintro result ⟨object, document, t, handled, _⟩
    exact absurd (writes.symm.trans handled.writes) (by decide)
  | true =>
    cases read : object? T wire with
    | none =>
      obtain ⟨reason, unread⟩ := readRequest_of_none read
      exact ⟨_, _, _, run_decide_unread writes unread s, .unreadable writes read⟩
    | some object =>
      obtain ⟨document, came, -⟩ := exists_document read
      have given := readRequest_of_object came read
      -- the handlers of a request that can be read are passed over in two cases
      by_cases spared : Reviewable.isBeingDeleted object = true ∨
          (∃ ms, chain = .mutating ms) ∧ wire.dryRun = some true
      · have asked : ∀ result, ¬ComesTo env chain wire s result := by
          rintro result ⟨other, _, _, handled, _⟩
          obtain rfl : object = other := Option.some.inj (read.symm.trans handled.read)
          rcases spared with torn | ⟨⟨ms, mutates⟩, dry⟩
          · exact absurd (torn.symm.trans handled.kept) (by decide)
          · exact handled.free ms mutates dry
        have answer : Decided env chain wire s (.allow wire.uid) :=
          .through asked (Or.inr ⟨object, read, spared⟩)
        cases torn : Reviewable.isBeingDeleted object with
        | true => exact ⟨_, _, _, run_decide_deleted writes given torn s, answer⟩
        | false =>
          rcases spared with h | ⟨⟨ms, rfl⟩, dry⟩
          · rw [torn] at h
            cases h
          · have nothing : runChain (.mutating ms) (requestFor wire object) document =
                return .allowed [] := by
              simp [runChain, requestFor, dry]
            refine ⟨_, _, _, run_decide_chain writes given torn s, ?_⟩
            rw [nothing]
            exact answer
      · have handled : Handled chain wire object document := by
          constructor
          · exact writes
          · exact came
          · exact read
          · exact Bool.eq_false_iff.2 fun torn => spared (Or.inl torn)
          · exact fun ms mutates dry => spared (Or.inr ⟨⟨ms, mutates⟩, dry⟩)
        refine ⟨_, _, _, run_decide_chain writes given handled.kept s, .concluded handled ?_⟩
        exact (comesTo_iff handled _).2 rfl

/-- The codes of answers fit. -/
theorem Decided.fits {response : ReviewResponse} (h : Decided env chain wire s response) :
    response.Fits := by
  intro status given code there
  cases admitted : response.allowed with
  | true =>
    rw [h.admitted admitted] at given
    cases given
  | false =>
    obtain ⟨message, c, same, which⟩ := h.refused admitted
    rw [same] at given
    cases given
    cases there
    omega

/-- The content type of a request names JSON. -/
def IsJson (contentType : Option String) : Prop :=
  ∃ value, contentType = some value ∧ isJsonContentType value = true

theorem isJson_iff {contentType : Option String} :
    contentType.any isJsonContentType = true ↔ IsJson contentType := by
  cases contentType <;> simp [IsJson]

/-- A body that holds a request is answered as the request is decided. -/
theorem handle_of_read {w : Webhook T} {contentType : Option String} {body : List UInt8}
    {review : AdmissionReview} (json : IsJson contentType)
    (read : AdmissionReview.ofBytes? body = some review) (given : review.request = some wire) :
    handle w contentType body = (decide w.chain wire).bind fun answer => .done (answer.1,
      { status := 200,
        body := (AdmissionReview.respond review.apiVersion answer.2).toJson.render }) := by
  unfold AdmissionReview.ofBytes? at read
  unfold handle
  simp only [isJson_iff.2 json, Bool.not_true, Bool.false_eq_true, if_false, read, given]
  rfl

/-- The reply to a request whose handlers came to a result, in an envelope of the version. -/
def replyTo (apiVersion uid : String) (result : Except AdmissionError ChainResult) :
    Outcome × WebhookReply :=
  ((conclude uid result).1,
    { status := 200, body := (AdmissionReview.respond apiVersion (conclude uid result).2).toJson.render })

/-- The handlers of a chain are to run on the request that a body holds. -/
structure Reviewed (chain : Chain T) (contentType : Option String) (body : List UInt8)
    (review : AdmissionReview) (wire : ReviewRequest) (object : T) (document : Json) : Prop where
  json : IsJson contentType
  read : AdmissionReview.ofBytes? body = some review
  given : review.request = some wire
  handled : Handled chain wire object document

/-- A request whose handlers are to run is answered as they end. -/
theorem Reviewed.handle_eq {w : Webhook T} {contentType : Option String} {body : List UInt8}
    {review : AdmissionReview} {object : T} {document : Json}
    (reviewed : Reviewed w.chain contentType body review wire object document) :
    handle w contentType body =
      (runChain w.chain (requestFor wire object) document).program.bind fun result =>
        .done (replyTo review.apiVersion wire.uid result) := by
  obtain ⟨json, read, given, handled⟩ := reviewed
  have decided : decide w.chain wire =
      (runChain w.chain (requestFor wire object) document).program.bind fun result =>
        .done (conclude wire.uid result) := by
    have whole := readRequest_of_object handled.came handled.read
    have kept : Reviewable.isBeingDeleted (requestFor wire object).object = false := handled.kept
    simp only [decide, handled.writes, whole, kept, if_true, Bool.false_eq_true, if_false]
    rfl
  rw [handle_of_read json read given, decided, Program.bind_assoc]
  rfl

theorem Reviewed.run_handle {w : Webhook T} {contentType : Option String} {body : List UInt8}
    {review : AdmissionReview} {object : T} {document : Json}
    (reviewed : Reviewed w.chain contentType body review wire object document) (s : σ) :
    (handle w contentType body).run env s = (replyTo review.apiVersion wire.uid
        (Decision.eval env (runChain w.chain (requestFor wire object) document) s).1,
      (Decision.eval env (runChain w.chain (requestFor wire object) document) s).2) := by
  rw [reviewed.handle_eq, Program.run_bind]
  rfl

theorem no_request_iff {body : List UInt8} :
    (∀ review, AdmissionReview.ofBytes? body = some review → review.request = none) ↔
      ¬∃ review wire, AdmissionReview.ofBytes? body = some review ∧ review.request = some wire := by
  constructor
  · rintro none ⟨review, wire, read, given⟩
    rw [none review read] at given
    cases given
  · intro h review read
    cases given : review.request with
    | none => rfl
    | some wire => exact absurd ⟨review, wire, read, given⟩ h

theorem run_handle_unsupported {w : Webhook T} {contentType : Option String} (h : ¬IsJson contentType)
    (body : List UInt8) (s : σ) : (handle w contentType body).run env s =
      ((.invalidRequest, clientError 415 "expected content type application/json"), s) := by
  have other : contentType.any isJsonContentType = false :=
    Bool.eq_false_iff.2 fun json => h (isJson_iff.1 json)
  simp [handle, other, Program.run]

/-- A body that holds no request is refused. -/
theorem run_handle_unread {w : Webhook T} {contentType : Option String} {body : List UInt8}
    (json : IsJson contentType)
    (h : ∀ review, AdmissionReview.ofBytes? body = some review → review.request = none) (s : σ) :
    ∃ message, (handle w contentType body).run env s =
      ((.invalidRequest, clientError 400 message), s) := by
  unfold handle
  rw [isJson_iff.2 json]
  cases read : AdmissionReview.ofBytes? body with
  | none =>
    unfold AdmissionReview.ofBytes? at read
    rw [read]
    exact ⟨_, rfl⟩
  | some review =>
    have none := h review read
    unfold AdmissionReview.ofBytes? at read
    simp only [read, none]
    exact ⟨_, rfl⟩

/-- A request is answered as it is decided, in an envelope of its version. -/
theorem run_handle_read {w : Webhook T} {contentType : Option String} {body : List UInt8}
    {review : AdmissionReview} (json : IsJson contentType)
    (read : AdmissionReview.ofBytes? body = some review) (given : review.request = some wire)
    {t : σ} {outcome : Outcome} {response : ReviewResponse}
    (ran : (decide w.chain wire).run env s = ((outcome, response), t)) :
    (handle w contentType body).run env s = ((outcome,
      { status := 200,
        body := (AdmissionReview.respond review.apiVersion response).toJson.render }), t) := by
  rw [handle_of_read json read given, Program.run_bind, ran]
  rfl

/-- **The reply of a webhook is decided, and it fails closed.** A body is refused with 415 exactly if
it is not called JSON, otherwise with 400 exactly if it holds no request. Every request is answered
with 200 and an envelope that reads back with the version of the request and no request of its own, in
which the answer is decided: nothing is admitted but for the reasons that `Decided` lists. -/
theorem handle_decided (env : Environment σ) (w : Webhook T) (contentType : Option String)
    (body : List UInt8) (s : σ) :
    ∃ outcome reply t, (handle w contentType body).run env s = ((outcome, reply), t) ∧
      (reply.status = 415 ↔ ¬IsJson contentType) ∧
      (reply.status = 400 ↔ IsJson contentType ∧
        ∀ review, AdmissionReview.ofBytes? body = some review → review.request = none) ∧
      (reply.status = 200 ↔ IsJson contentType ∧
        ∃ review wire, AdmissionReview.ofBytes? body = some review ∧ review.request = some wire) ∧
      (reply.status = 200 → ∃ review wire response,
        AdmissionReview.ofBytes? body = some review ∧ review.request = some wire ∧
        AdmissionReview.ofBytes? (Utf8.encode reply.body.toList) =
          some { apiVersion := review.apiVersion, kind := "AdmissionReview",
                 request := none, response := some response } ∧
        Decided env w.chain wire s response) := by
  by_cases json : IsJson contentType
  · by_cases full : ∃ review wire, AdmissionReview.ofBytes? body = some review ∧
        review.request = some wire
    · have given : ¬∀ review, AdmissionReview.ofBytes? body = some review → review.request = none :=
        fun none => no_request_iff.1 none full
      obtain ⟨review, wire, read, request⟩ := full
      obtain ⟨outcome, response, t, ran, decided⟩ := decided_run env w.chain wire s
      refine ⟨_, _, _, run_handle_read json read request ran, ?_, ?_, ?_, ?_⟩
      · simp [json]
      · simp [given]
      · simp only [json, true_and, true_iff]
        exact ⟨review, wire, read, request⟩
      · intro _
        exact ⟨review, wire, response, read, request,
          AdmissionReview.ofBytes?_render_respond decided.fits, decided⟩
    · have empty := no_request_iff.2 full
      obtain ⟨message, ran⟩ : ∃ message, (handle w contentType body).run env s =
          ((.invalidRequest, clientError 400 message), s) := run_handle_unread json empty s
      refine ⟨_, _, _, ran, ?_, ?_, ?_, ?_⟩
      · simp [clientError, json]
      · simp only [clientError, json, true_and, true_iff]
        exact empty
      · simp only [clientError, full, and_false, iff_false]
        decide
      · simp [clientError]
  · refine ⟨_, _, _, run_handle_unsupported json body s, ?_, ?_, ?_, ?_⟩
    · simp [clientError, json]
    · simp [clientError, json]
    · simp [clientError, json]
    · simp [clientError]

/-- The small App as it is read. -/
def smallApp : App := { metadata := { name := "small" }, spec := {} }

/-- An envelope with the request to create the small App. -/
def smallReview : AdmissionReview where
  request := some smallRequest

/-- The envelope as it is sent. -/
def smallBody : List UInt8 := Utf8.encode smallReview.toJson.renderChars

/-- Every chain is to run on the request to create the small App. -/
theorem reviewed_small (chain : Chain App) : Reviewed chain (some "application/json") smallBody
    smallReview smallRequest smallApp smallDocument where
  json := ⟨_, rfl, by decide +kernel⟩
  read := by decide +kernel
  given := rfl
  handled := ⟨rfl, rfl, rfl, rfl, fun _ _ => by decide⟩

end AppAdmission.Webhook
