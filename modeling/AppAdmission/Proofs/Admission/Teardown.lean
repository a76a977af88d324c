import AppAdmission.Admission.Builtin
import AppAdmission.Proofs.Admission.Reply
import AppAdmission.Proofs.Json.Free
import AppAdmission.Proofs.Resource.Reading

/-!
# Objects that are being torn down

A document that carries the time of its deletion is answered without any handler and without the store.
The answer depends on one thing: whether an App can be read from the document. If so it is let through as
it is; if not, the request is refused for its object, since the time of deletion is looked up in the App
and not in the document.
-/

namespace AppAdmission

open Json (Source)

/-- The document carries the time of its deletion. -/
def Json.TornDown (doc : Json) : Prop :=
  ∃ stamp time, doc.at? ["metadata", "deletionTimestamp"] = some (.str stamp) ∧
    Instant.parse? stamp.toList = some time

/-- The time of deletion in metadata is the one in the document. -/
theorem ObjectMeta.deletionTimestamp_eq_some_iff {ms : List (String × Json)} {m : ObjectMeta}
    (sorted : Members.Sorted ms) (read : decode (.ofJson (.obj ms)) = some m) {time : Instant} :
    m.deletionTimestamp = some time ↔ ∃ stamp,
      Members.find? "deletionTimestamp" ms = some (.str stamp) ∧
        Instant.parse? stamp.toList = some time := by
  obtain ⟨-, -, -, -, -, -, deletion⟩ := (decode_obj_iff sorted).1 read
  rw [← Option.some.injEq, ← deletion, fields, Source.optional_given_eq_some_iff (by decide)]
  constructor
  · rintro ⟨j, there, -, parsed⟩
    obtain ⟨stamp, text, parsed⟩ := Option.bind_eq_some_iff.1 parsed
    obtain rfl := Source.text_ofJson_iff.1 text
    exact ⟨stamp, there, parsed⟩
  · rintro ⟨stamp, there, parsed⟩
    have solid : Json.str stamp ≠ .null := Json.noConfusion
    exact ⟨.str stamp, there, solid, parsed⟩

/-- An App that is read from a document with the time of its deletion is being torn down. -/
theorem App.isBeingDeleted_of_tornDown {doc : Json} {a : App} (r : ReadFrom doc a)
    (torn : doc.TornDown) : a.isBeingDeleted = true := by
  obtain ⟨stamp, time, there, parsed⟩ := torn
  obtain ⟨ms, metadata, member⟩ := Json.at?_pair there
  have read := decode_metadata r.free r.read metadata
  have sorted := Json.sorted_at? r.free metadata
  have deleted : a.metadata.deletionTimestamp = some time :=
    (ObjectMeta.deletionTimestamp_eq_some_iff sorted read).2 ⟨stamp, member, parsed⟩
  unfold isBeingDeleted
  rw [deleted, Option.isSome_some]

namespace Webhook

variable {chain : Chain App} {wire : ReviewRequest} {document : Json}

/-- An App that is being torn down is let through at once. -/
theorem decide_tornDown {a : App} (writes : wire.operation.writes = true)
    (came : wire.object = some document) (r : App.ReadFrom document a) (torn : document.TornDown) :
    decide chain wire = .done (.successful, .allow wire.uid) := by
  have solid : document ≠ .null := by
    rintro rfl
    obtain ⟨_, _, there, _⟩ := torn
    cases there
  have read : object? App wire = some a := by
    unfold object?
    rw [came]
    cases document with
    | null => exact absurd rfl solid
    | bool | num | str | arr | obj => exact r.read
  have given := readRequest_of_object came read
  have deleted : Reviewable.isBeingDeleted (requestFor wire a).object = true :=
    App.isBeingDeleted_of_tornDown r torn
  unfold decide
  simp only [writes, given, deleted, if_true, Program.pure_eq]

/-- A document from which no App can be read is refused at once, whatever else it carries. -/
theorem decide_unread (writes : wire.operation.writes = true) (came : wire.object = some document)
    (unread : App.decode (.ofJson document) = none) : ∃ reason,
      decide chain wire =
        .done (.invalidRequest, .deny wire.uid (AdmissionError.invalidRequest reason).publicMessage 400) := by
  have none : object? App wire = none := by
    unfold object?
    rw [came]
    cases document with
    | null => rfl
    | bool | num | str | arr | obj => exact unread
  obtain ⟨reason, refused⟩ := readRequest_of_none none
  refine ⟨reason, ?_⟩
  unfold decide
  simp only [writes, refused, if_true, Program.pure_eq]

/-- A request is answered from its decision, in an envelope of its version. -/
theorem handle_of_decide {w : Webhook App} {contentType : Option String} {body : List UInt8}
    {review : AdmissionReview} {outcome : Outcome} {response : ReviewResponse}
    (json : IsJson contentType) (read : AdmissionReview.ofBytes? body = some review)
    (given : review.request = some wire)
    (decided : decide w.chain wire = .done (outcome, response)) :
    handle w contentType body = .done (outcome,
      { status := 200, body := (AdmissionReview.respond review.apiVersion response).toJson.render }) := by
  rw [handle_of_read json read given, decided]
  rfl

/-- **Teardown is let through as long as an App can be read.** A request to write a document with the time
of its deletion is answered with no handler run and no question asked, under any chain: with an admission
and no patch if an App can be read from the document, and with a refusal otherwise. -/
theorem handle_tornDown (w : Webhook App) {contentType : Option String} {body : List UInt8}
    {review : AdmissionReview} (json : IsJson contentType)
    (read : AdmissionReview.ofBytes? body = some review) (given : review.request = some wire)
    (writes : wire.operation.writes = true) (came : wire.object = some document)
    (torn : document.TornDown) : ∃ outcome response,
      handle w contentType body = .done (outcome,
        { status := 200,
          body := (AdmissionReview.respond review.apiVersion response).toJson.render }) ∧
      (response = .allow wire.uid ↔ ∃ a, App.decode (.ofJson document) = some a) ∧
      (App.decode (.ofJson document) = none → ∃ reason,
        response = .deny wire.uid (AdmissionError.invalidRequest reason).publicMessage 400) := by
  cases app : App.decode (.ofJson document) with
  | some a =>
    obtain ⟨source, -, envelope⟩ := Option.bind_eq_some_iff.1 read
    have free := AdmissionReview.canonicalB_object envelope given came
    have decided : decide w.chain wire = _ := decide_tornDown writes came ⟨free, app⟩ torn
    refine ⟨_, _, handle_of_decide json read given decided, ?_, nofun⟩
    exact ⟨fun _ => ⟨a, rfl⟩, fun _ => rfl⟩
  | none =>
    obtain ⟨reason, decided⟩ : ∃ reason, decide w.chain wire = .done (_, .deny wire.uid _ 400) :=
      decide_unread writes came app
    refine ⟨_, _, handle_of_decide json read given decided, ?_, fun _ => ⟨reason, rfl⟩⟩
    constructor
    · intro same
      cases same
    · rintro ⟨_, same⟩
      cases same

/-- A document with the time of its deletion. -/
def leavingDocument : Json :=
  .obj [("metadata", .obj [("deletionTimestamp", .str "2024-05-01T10:00:00Z"), ("name", .str "hello")]),
    ("spec", .obj [])]

/-- An envelope with a request to update it. -/
def leavingReview : AdmissionReview where
  request := some { uid := "uid-42", operation := .update, object := some leavingDocument }

theorem tornDown_leavingDocument : leavingDocument.TornDown :=
  ⟨"2024-05-01T10:00:00Z", ⟨2024, 5, 1, 10, 0, 0, 0⟩, rfl, rfl⟩

theorem handle_tornDown_leaving : ∃ outcome response,
    handle (validatingWebhook {}) (some "application/json")
        (Utf8.encode leavingReview.toJson.renderChars) =
      .done (outcome,
        { status := 200,
          body := (AdmissionReview.respond leavingReview.apiVersion response).toJson.render }) ∧
      response = .allow "uid-42" := by
  have json : IsJson (some "application/json") := ⟨_, rfl, by decide +kernel⟩
  have read : AdmissionReview.ofBytes? (Utf8.encode leavingReview.toJson.renderChars) =
      some leavingReview := by decide +kernel
  obtain ⟨outcome, response, answered, through, -⟩ :=
    handle_tornDown (validatingWebhook {}) json read rfl rfl rfl tornDown_leavingDocument
  exact ⟨outcome, response, answered, through.2 ⟨_, rfl⟩⟩

/-- A document with the time of its deletion and no specification is refused, under every chain. -/
theorem decide_tornDown_refused : ∃ document : Json, document.TornDown ∧ ∀ chain : Chain App,
    decide chain
        { uid := "uid-42", kind := { kind := "App" }, operation := .update, object := some document } =
      .done (.invalidRequest,
        .deny "uid-42" "invalid admission request: object is not a valid App" 400) := by
  refine ⟨.obj [("metadata", .obj [("deletionTimestamp", .str "2024-05-01T10:00:00Z"),
    ("name", .str "hello")])], ?_, fun chain => rfl⟩
  exact ⟨"2024-05-01T10:00:00Z", ⟨2024, 5, 1, 10, 0, 0, 0⟩, rfl, rfl⟩

end Webhook

end AppAdmission
