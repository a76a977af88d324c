import AppAdmission.Proofs.Admission.Decide
import AppAdmission.Proofs.Patch.Sequence
import AppAdmission.Store.Environment

/-!
# What a mutating chain keeps track of

A chain of mutators holds three views of one object: the document, the object read from it, and
the operations so far. `Course` is a run of a chain that goes through, as the list of its turns: what
each handler was given and what it returned. The invariant `Progress.Tracks` says that the document is
the first one with all operations applied, and `Holds` that the request is for the object of the
document; the first is kept by every turn, the second by every turn but the last.
-/

namespace AppAdmission.Webhook

open Json (Source)

variable {T σ : Type} [Reviewable T] {env : Environment σ}

/-- One turn of a chain: what the handler was given, and the operations it returned. -/
structure Turn (T : Type) where
  given : AdmissionRequest T
  ops : List Patch.Operation

/-- The operations of some turns, in order. -/
def operationsOf (turns : List (Turn T)) : List Patch.Operation :=
  turns.flatMap Turn.ops

omit [Reviewable T] in
@[simp] theorem operationsOf_nil : operationsOf ([] : List (Turn T)) = [] := rfl

omit [Reviewable T] in
@[simp] theorem operationsOf_cons (turn : Turn T) (rest : List (Turn T)) :
    operationsOf (turn :: rest) = turn.ops ++ operationsOf rest := rfl

/-- A run of handlers that goes through: each is given the request as it stands and returns
operations, which are taken in before the next one runs. -/
inductive Course (env : Environment σ) :
    List (Mutator T) → Progress T → σ → List (Turn T) → Progress T → σ → Prop where
  | done (p : Progress T) (s : σ) : Course env [] p s [] p s
  | turn {m : Mutator T} {rest : List (Mutator T)} {p q r : Progress T} {s u v t : σ}
      {ops : List Patch.Operation} {turns : List (Turn T)}
      (answered : Decision.eval env (m.mutate p.request) s = (.ok ops, u))
      (accepted : Decision.eval env (p.accept rest.isEmpty m.name ops) u = (.ok q, v))
      (onward : Course env rest q v turns r t) :
      Course env (m :: rest) p s (⟨p.request, ops⟩ :: turns) r t

/-- The runs that succeed are the ones that go through. -/
theorem eval_run_ok_iff {ms : List (Mutator T)} {p q : Progress T} {s t : σ} :
    Decision.eval env (p.run ms) s = (.ok q, t) ↔ ∃ turns, Course env ms p s turns q t := by
  induction ms generalizing p s with
  | nil =>
    rw [Progress.run, Decision.eval_pure_ok_iff]
    constructor
    · rintro ⟨rfl, rfl⟩
      exact ⟨[], .done p s⟩
    · rintro ⟨turns, course⟩
      cases course
      exact ⟨rfl, rfl⟩
  | cons m rest ih =>
    rw [Progress.run]
    constructor
    · intro ran
      obtain ⟨ops, u, answered, ran⟩ := Decision.eval_bind_ok_iff.1 ran
      obtain ⟨next, v, accepted, ran⟩ := Decision.eval_bind_ok_iff.1 ran
      obtain ⟨turns, course⟩ := ih.1 ran
      exact ⟨_, .turn answered accepted course⟩
    · rintro ⟨turns, course⟩
      cases course with
      | turn answered accepted onward =>
        rw [Decision.eval_bind_of_ok answered, Decision.eval_bind_of_ok accepted]
        exact ih.2 ⟨_, onward⟩

/-- A chain of mutators is allowed if it goes through, with the operations it ends with. -/
theorem eval_runMutators_ok_iff {ms : List (Mutator T)} {request : AdmissionRequest T}
    {document : Json} {s t : σ} {result : ChainResult} :
    Decision.eval env (runMutators request document ms) s = (.ok result, t) ↔
      ∃ last, Decision.eval env (Progress.run ⟨request, document, []⟩ ms) s = (.ok last, t) ∧
        result = .allowed last.ops := by
  unfold runMutators
  rw [Decision.eval_bind_ok_iff]
  constructor
  · rintro ⟨last, u, ran, rest⟩
    obtain ⟨rfl, rfl⟩ := Decision.eval_pure_ok_iff.1 rest
    exact ⟨last, ran, rfl⟩
  · rintro ⟨last, ran, rfl⟩
    exact ⟨last, t, ran, rfl⟩

/-- The request is for the object that the document holds. -/
def Progress.Holds (p : Progress T) : Prop :=
  Reviewable.decode (Source.ofJson p.document) = some p.request.object

/-- The document is the first one with all operations applied, and apart from its object the request
is the first one. -/
structure Progress.Tracks (wire : ReviewRequest) (document : Json) (p : Progress T) : Prop where
  applied : Patch.apply p.ops document = .ok p.document
  same : p.request = requestFor wire p.request.object

omit [Reviewable T] in
theorem Progress.Tracks.start (wire : ReviewRequest) (document : Json) (object : T) :
    Tracks wire document ⟨requestFor wire object, document, []⟩ :=
  ⟨rfl, rfl⟩

omit [Reviewable T] in
theorem eval_patched_ok_iff {handler : String} {ops : List Patch.Operation} {document result : Json}
    {s t : σ} : Decision.eval env (patched handler ops document) s = (.ok result, t) ↔
      Patch.apply ops document = .ok result ∧ s = t := by
  unfold patched
  cases Patch.apply ops document <;> simp

/-- The request changes in its object only, which after any handler but the last is read again. -/
theorem eval_reread_ok {isLast : Bool} {request next : AdmissionRequest T} {document : Json} {s t : σ}
    (h : Decision.eval env (reread isLast request document) s = (.ok next, t)) :
    next = { request with object := next.object } ∧ s = t ∧ (isLast = false →
      Reviewable.decode (Source.ofJson document) = some next.object) := by
  cases isLast with
  | true =>
    obtain ⟨rfl, rfl⟩ := Decision.eval_pure_ok_iff.1 h
    exact ⟨rfl, rfl, fun notLast => by cases notLast⟩
  | false =>
    obtain ⟨object, u, read, rest⟩ := Decision.eval_bind_ok_iff.1 h
    obtain ⟨decoded, rfl⟩ := Decision.eval_converted_ok_iff.1 read
    obtain ⟨rfl, rfl⟩ := Decision.eval_pure_ok_iff.1 rest
    exact ⟨rfl, rfl, fun _ => decoded⟩

/-- What a handler returned is taken in by applying it to the document and reading the object again,
except after the last handler; the store is not asked. -/
theorem eval_accept_ok {p q : Progress T} {isLast : Bool} {handler : String}
    {ops : List Patch.Operation} {s t : σ}
    (h : Decision.eval env (p.accept isLast handler ops) s = (.ok q, t)) :
    s = t ∧ Patch.apply ops p.document = .ok q.document ∧ q.ops = p.ops ++ ops ∧
      q.request = { p.request with object := q.request.object } ∧
      (isLast = false → p.Holds → q.Holds) := by
  unfold Progress.accept at h
  split at h
  · next none =>
    obtain ⟨rfl, rfl⟩ := Decision.eval_pure_ok_iff.1 h
    obtain rfl := List.isEmpty_iff.1 none
    exact ⟨rfl, rfl, (List.append_nil _).symm, rfl, fun _ holds => holds⟩
  · obtain ⟨document, u, ran, h⟩ := Decision.eval_bind_ok_iff.1 h
    obtain ⟨next, v, read, h⟩ := Decision.eval_bind_ok_iff.1 h
    obtain ⟨applied, rfl⟩ := eval_patched_ok_iff.1 ran
    obtain ⟨same, rfl, fresh⟩ := eval_reread_ok read
    obtain ⟨rfl, rfl⟩ := Decision.eval_pure_ok_iff.1 h
    exact ⟨rfl, applied, rfl, same, fun notLast _ => fresh notLast⟩

/-- Taking in operations keeps the invariant. -/
theorem Progress.Tracks.accept {wire : ReviewRequest} {document : Json} {p q : Progress T}
    {isLast : Bool} {handler : String} {ops : List Patch.Operation} {s t : σ}
    (tracks : p.Tracks wire document)
    (h : Decision.eval env (p.accept isLast handler ops) s = (.ok q, t)) :
    q.Tracks wire document := by
  obtain ⟨-, applied, more, same, -⟩ := eval_accept_ok h
  constructor
  · rw [more, Patch.apply_append_of_ok tracks.applied]
    exact applied
  · rw [same, tracks.same]
    rfl

/-- A run that goes through keeps the invariant and gathers the operations of its turns. -/
theorem Course.tracks {ms : List (Mutator T)} {p q : Progress T} {s t : σ} {turns : List (Turn T)}
    {wire : ReviewRequest} {document : Json} (course : Course env ms p s turns q t)
    (tracks : p.Tracks wire document) :
    q.Tracks wire document ∧ q.ops = p.ops ++ operationsOf turns := by
  induction course with
  | done p s => exact ⟨tracks, (List.append_nil _).symm⟩
  | turn answered accepted onward ih =>
    obtain ⟨-, -, more, -⟩ := eval_accept_ok accepted
    obtain ⟨tracks, gathered⟩ := ih (tracks.accept accepted)
    refine ⟨tracks, ?_⟩
    rw [gathered, more, operationsOf_cons, List.append_assoc]

/-- Each handler of a run that goes through is given the object of the document as the operations of
all earlier turns leave it. -/
theorem Course.given {ms : List (Mutator T)} {p q : Progress T} {s t : σ} {turns : List (Turn T)}
    {wire : ReviewRequest} {document : Json} (course : Course env ms p s turns q t)
    (tracks : p.Tracks wire document) (holds : p.Holds) {k : Nat} {m : Mutator T}
    (at_k : ms[k]? = some m) :
    ∃ turn d object, turns[k]? = some turn ∧
      (∃ before after, Decision.eval env (m.mutate turn.given) before = (.ok turn.ops, after)) ∧
      Patch.apply (p.ops ++ operationsOf (turns.take k)) document = .ok d ∧
      Reviewable.decode (Source.ofJson d) = some object ∧ turn.given = requestFor wire object := by
  induction course generalizing k with
  | done p s => simp at at_k
  | @turn m' rest p q r s u v t ops turns answered accepted onward ih =>
    cases k with
    | zero =>
      obtain rfl : m' = m := by simpa using at_k
      refine ⟨_, p.document, p.request.object, rfl, ⟨s, u, answered⟩, ?_, holds, tracks.same⟩
      simpa using tracks.applied
    | succ k =>
      have at_k : rest[k]? = some m := by simpa using at_k
      have more : rest.isEmpty = false := by
        cases rest with
        | nil => simp at at_k
        | cons _ _ => rfl
      obtain ⟨-, -, grown, -, fresh⟩ := eval_accept_ok accepted
      obtain ⟨turn, d, object, found, ran, applied, read, same⟩ :=
        ih (tracks.accept accepted) (fresh more holds) at_k
      refine ⟨turn, d, object, by simpa using found, ran, ?_, read, same⟩
      rw [List.take_succ_cons, operationsOf_cons, ← List.append_assoc, ← grown]
      exact applied

/-- **A mutating chain tracks its document.** If a request that writes, is no dry run and is not about
an object being torn down is allowed, its chain went through. The operations of the reply, applied to
the object as it came, give the document that the chain ended with, and every handler was given the
object of the document with the operations of all handlers before it applied. -/
theorem decide_mutating_tracks {ms : List (Mutator T)} {wire : ReviewRequest} {document : Json}
    {object : T} {s t : σ} {outcome : Outcome} {response : ReviewResponse}
    (writes : wire.operation.writes = true) (came : wire.object = some document)
    (read : object? T wire = some object) (wet : wire.dryRun ≠ some true)
    (kept : Reviewable.isBeingDeleted object = false)
    (ran : (decide (.mutating ms) wire).run env s = ((outcome, response), t))
    (allowed : response.allowed = true) :
    ∃ last turns,
      Decision.eval env (Progress.run ⟨requestFor wire object, document, []⟩ ms) s = (.ok last, t) ∧
      Course env ms ⟨requestFor wire object, document, []⟩ s turns last t ∧
      response = (ReviewResponse.allow wire.uid).withPatch last.ops ∧
      last.ops = operationsOf turns ∧
      Patch.apply last.ops document = .ok last.document ∧
      ∀ k m, ms[k]? = some m → ∃ turn d object, turns[k]? = some turn ∧
        (∃ before after, Decision.eval env (m.mutate turn.given) before = (.ok turn.ops, after)) ∧
        Patch.apply (operationsOf (turns.take k)) document = .ok d ∧
        Reviewable.decode (Source.ofJson d) = some object ∧ turn.given = requestFor wire object := by
  have holds : Progress.Holds ⟨requestFor wire object, document, []⟩ := by
    obtain ⟨d, came', decoded⟩ := exists_document read
    rw [came] at came'
    cases came'
    exact decoded
  obtain ⟨ops, chain, answer⟩ :=
    run_decide_allowed writes (readRequest_of_object came read) kept ran allowed
  rw [runChain_mutating wet] at chain
  obtain ⟨last, through, same⟩ := eval_runMutators_ok_iff.1 chain
  cases same
  obtain ⟨turns, course⟩ := eval_run_ok_iff.1 through
  obtain ⟨tracks, gathered⟩ := course.tracks (.start wire document object)
  refine ⟨last, turns, through, course, answer, gathered, tracks.applied, ?_⟩
  intro k m at_k
  obtain ⟨turn, d, object, found, answered, applied, decoded, given⟩ :=
    course.given (.start wire document object) holds at_k
  exact ⟨turn, d, object, found, answered, applied, decoded, given⟩

/-- A mutator that labels every App. -/
def labelling : Mutator App where
  name := "labelling"
  mutate _ := return [.add "/metadata/labels" (.obj []), .add "/metadata/labels/seen" (.str "yes")]

/-- A mutator that marks the Apps on which it finds the label. -/
def marking : Mutator App where
  name := "marking"
  mutate request :=
    return if request.object.metadata.label? "seen" = some "yes"
      then [.add "/metadata/labels/marked" (.str "yes")] else []

/-- A small App as it is sent. -/
def smallDocument : Json :=
  .obj [("metadata", .obj [("name", .str "small")]), ("spec", .obj [])]

/-- A request to create the small App. -/
def smallRequest : ReviewRequest where
  uid := "u"
  operation := .create
  object := some smallDocument

/-- The second mutator acts on what the first did, and both edits are in the reply. -/
theorem decide_mutating_tracks_small :
    ∃ (last : Progress App) (turns : List (Turn App)), last.ops = operationsOf turns ∧
      Patch.apply last.ops smallDocument = .ok last.document ∧
      last.document = .obj [("metadata", .obj [("labels", .obj [("marked", .str "yes"),
        ("seen", .str "yes")]), ("name", .str "small")]), ("spec", .obj [])] := by
  have read : object? App smallRequest = some { metadata := { name := "small" }, spec := {} } := rfl
  have admitted : ((decide (.mutating [labelling, marking]) smallRequest).run
      MemoryStore.environment {}).1.2.allowed = true := by decide +kernel
  have ends : (Decision.eval MemoryStore.environment
      (Progress.run ⟨requestFor smallRequest { metadata := { name := "small" }, spec := {} },
        smallDocument, []⟩ [labelling, marking]) {}).1.toOption.map Progress.document =
      some (.obj [("metadata", .obj [("labels", .obj [("marked", .str "yes"),
        ("seen", .str "yes")]), ("name", .str "small")]), ("spec", .obj [])]) := by decide +kernel
  rcases ran : (decide (.mutating [labelling, marking]) smallRequest).run
    MemoryStore.environment {} with ⟨⟨outcome, response⟩, t⟩
  rw [ran] at admitted
  obtain ⟨last, turns, through, -, -, gathered, applied, -⟩ :=
    decide_mutating_tracks rfl rfl read (by decide) rfl ran admitted
  rw [through] at ends
  exact ⟨last, turns, gathered, applied, Option.some.inj ends⟩

end AppAdmission.Webhook
