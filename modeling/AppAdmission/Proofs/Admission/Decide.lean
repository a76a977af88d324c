import AppAdmission.Admission.Webhook
import AppAdmission.Proofs.Decision

/-!
# The branches of a decision

A request is let through at once if it does not write, refused at once if its object cannot be
read, let through again if the object is being torn down, and otherwise answered as its chain of
handlers says. Each branch is one equation about the run.
-/

namespace AppAdmission.Webhook

open Json (Source)

variable {T σ : Type} [Reviewable T] {env : Environment σ} {chain : Chain T} {wire : ReviewRequest}

/-- The object of a request, if there is one and it can be read. -/
def object? (T : Type) [Reviewable T] (wire : ReviewRequest) : Option T :=
  match wire.object with
  | none | some .null => none
  | some document => Reviewable.decode (Source.ofJson document)

/-- The request that handlers get when the object is the given one. -/
def requestFor (wire : ReviewRequest) (object : T) : AdmissionRequest T :=
  { uid := wire.uid, operation := wire.operation,
    actor := ⟨wire.userInfo.username, wire.userInfo.groups⟩,
    object := object, dryRun := wire.dryRun.getD false }

/-- A request whose object can be read is read as it is. -/
theorem readRequest_of_object {document : Json} {object : T} (h : wire.object = some document)
    (read : object? T wire = some object) :
    readRequest wire = .ok (requestFor wire object, document) := by
  unfold object? at read
  unfold readRequest
  rw [h] at read ⊢
  cases document <;> simp_all [requestFor]

/-- A request without an object that fits is refused. -/
theorem readRequest_of_none (h : object? T wire = none) :
    ∃ reason, readRequest (T := T) wire = .error (.invalidRequest reason) := by
  unfold object? at h
  unfold readRequest
  split
  · exact ⟨_, rfl⟩
  · exact ⟨_, rfl⟩
  · next d hd e =>
    rw [e] at h
    simp only at h
    rw [h]
    exact ⟨_, rfl⟩

/-- An object that is read is that of a document. -/
theorem exists_document {object : T} (h : object? T wire = some object) :
    ∃ document, wire.object = some document ∧
      Reviewable.decode (Source.ofJson document) = some object := by
  unfold object? at h
  split at h
  · cases h
  · cases h
  · next document _ e => exact ⟨document, e, h⟩

theorem run_decide_reading (h : wire.operation.writes = false) (s : σ) :
    (decide chain wire).run env s = ((.successful, .allow wire.uid), s) := by
  simp [decide, h, Program.run]

theorem run_decide_unread {e : AdmissionError} (h : wire.operation.writes = true)
    (unread : readRequest (T := T) wire = .error e) (s : σ) :
    (decide chain wire).run env s = ((.invalidRequest, .deny wire.uid e.publicMessage 400), s) := by
  simp [decide, h, unread, Program.run]

theorem run_decide_deleted {request : AdmissionRequest T} {document : Json}
    (h : wire.operation.writes = true) (read : readRequest wire = .ok (request, document))
    (deleted : Reviewable.isBeingDeleted request.object = true) (s : σ) :
    (decide chain wire).run env s = ((.successful, .allow wire.uid), s) := by
  simp [decide, h, read, deleted, Program.run]

theorem run_decide_chain {request : AdmissionRequest T} {document : Json}
    (h : wire.operation.writes = true) (read : readRequest wire = .ok (request, document))
    (kept : Reviewable.isBeingDeleted request.object = false) (s : σ) :
    (decide chain wire).run env s =
      (conclude wire.uid (Decision.eval env (runChain chain request document) s).1,
        (Decision.eval env (runChain chain request document) s).2) := by
  simp only [decide, h, read, kept, if_true, Bool.false_eq_true, if_false]
  exact Decision.run_program_bind _ _ s

@[simp] theorem uid_withPatch (r : ReviewResponse) (ops : List Patch.Operation) :
    (r.withPatch ops).uid = r.uid := by
  unfold ReviewResponse.withPatch
  split <;> rfl

@[simp] theorem allowed_withPatch (r : ReviewResponse) (ops : List Patch.Operation) :
    (r.withPatch ops).allowed = r.allowed := by
  unfold ReviewResponse.withPatch
  split <;> rfl

@[simp] theorem status_withPatch (r : ReviewResponse) (ops : List Patch.Operation) :
    (r.withPatch ops).status = r.status := by
  unfold ReviewResponse.withPatch
  split <;> rfl

theorem withPatch_of_ne_nil (r : ReviewResponse) {ops : List Patch.Operation} (edits : ops ≠ []) :
    r.withPatch ops = { r with
      patch := some (ReviewResponse.encodePatch ops), patchType := some "JSONPatch" } := by
  unfold ReviewResponse.withPatch
  rw [if_neg]
  rwa [List.isEmpty_iff]

/-- The answer for a chain is an admission exactly if the chain came to one. -/
theorem allowed_conclude_iff {uid : String} {result : Except AdmissionError ChainResult} :
    (conclude uid result).2.allowed = true ↔ ∃ ops, result = .ok (.allowed ops) := by
  match result with
  | .ok (.allowed ops) => simp [conclude, ReviewResponse.allow]
  | .ok (.denied reason) => simp [conclude, ReviewResponse.deny]
  | .error e => simp [conclude, ReviewResponse.deny]

/-- A request whose handlers run and that is admitted is one whose chain came to an admission, and the
answer carries the operations of the chain. -/
theorem run_decide_allowed {request : AdmissionRequest T} {document : Json} {s t : σ}
    {outcome : Outcome} {response : ReviewResponse} (writes : wire.operation.writes = true)
    (read : readRequest wire = .ok (request, document))
    (kept : Reviewable.isBeingDeleted request.object = false)
    (ran : (decide chain wire).run env s = ((outcome, response), t))
    (allowed : response.allowed = true) :
    ∃ ops, Decision.eval env (runChain chain request document) s = (.ok (.allowed ops), t) ∧
      response = (ReviewResponse.allow wire.uid).withPatch ops := by
  rw [run_decide_chain writes read kept] at ran
  obtain ⟨concluded, left⟩ := Prod.mk.inj ran
  have admitted : (conclude wire.uid
      (Decision.eval env (runChain chain request document) s).1).2.allowed = true := by
    rw [concluded]
    exact allowed
  obtain ⟨ops, ok⟩ := allowed_conclude_iff.1 admitted
  refine ⟨ops, Prod.ext ok left, ?_⟩
  rw [ok] at concluded
  exact (congrArg Prod.snd concluded).symm

omit [Reviewable T] in
/-- A request that is no dry run is handled as none. -/
theorem dryRun_requestFor {object : T} (wet : wire.dryRun ≠ some true) :
    (requestFor wire object).dryRun = false := by
  unfold requestFor
  rcases h : wire.dryRun with _ | _ | _
  · rfl
  · rfl
  · exact absurd h wet

/-- Unless it is a dry run, a request runs through the mutators. -/
theorem runChain_mutating {ms : List (Mutator T)} {object : T} {document : Json}
    (wet : wire.dryRun ≠ some true) : runChain (.mutating ms) (requestFor wire object) document =
      runMutators (requestFor wire object) document ms := by
  have free : (requestFor wire object).dryRun = false := dryRun_requestFor wet
  unfold runChain
  simp only [free, Bool.false_eq_true, if_false]

theorem run_decide_mutating {ms : List (Mutator T)} {object : T} {document : Json}
    (writes : wire.operation.writes = true) (wet : wire.dryRun ≠ some true)
    (read : readRequest wire = .ok (requestFor wire object, document))
    (kept : Reviewable.isBeingDeleted object = false) (s : σ) :
    (decide (.mutating ms) wire).run env s =
      (conclude wire.uid (Decision.eval env (runMutators (requestFor wire object) document ms) s).1,
        (Decision.eval env (runMutators (requestFor wire object) document ms) s).2) := by
  rw [run_decide_chain writes read kept, runChain_mutating wet]

end AppAdmission.Webhook
