import AppAdmission.Proofs.Admission.Reply
import AppAdmission.Proofs.Transcript

/-!
# How validators are heard

Validators are heard in the order in which they stand until one of them denies or fails. What that one
says is the reply, and none after it is run: all that happens during the request happens while those up to
it are heard. An allowance decides nothing, so that validators which only ever allow or abstain may stand
anywhere.
-/

namespace AppAdmission.Webhook

variable {T σ : Type} {env : Environment σ} {request : AdmissionRequest T} {v : Validator T}
  {vs rest : List (Validator T)} {s t u : σ} {result : Except AdmissionError ChainResult}
  {answer : Except AdmissionError Verdict} {events : List Event}

/-- What is decided by the answer of a validator alone: a denial and a failure are the last word. -/
def lastWord? : Except AdmissionError Verdict → Option (Except AdmissionError ChainResult)
  | .ok (.deny reason) => some (.ok (.denied reason))
  | .error e => some (.error e)
  | .ok .allow | .ok .abstain => none

/-- Validators are heard one after another and none of them has the last word. The events are all that
happens meanwhile. -/
inductive Passed (env : Environment σ) (request : AdmissionRequest T) :
    List (Validator T) → σ → List Event → σ → Prop where
  | nil (s : σ) : Passed env request [] s [] s
  | cons {v : Validator T} {rest : List (Validator T)} {answer : Except AdmissionError Verdict}
      {events : List Event} {s u t : σ} (said : Decision.eval env (v.validate request) s = (answer, u))
      (mild : lastWord? answer = none) (others : Passed env request rest u events t) :
      Passed env request (v :: rest) s (Decision.transcript env (v.validate request) s ++ events) t

/-- How a hearing goes: all validators are heard and the request is allowed, or the first one that denies
or fails is the last to be heard. -/
inductive Hearing (env : Environment σ) (request : AdmissionRequest T) (vs : List (Validator T)) (s : σ) :
    Except AdmissionError ChainResult → List Event → σ → Prop where
  | allowed {events : List Event} {t : σ} (passed : Passed env request vs s events t) :
      Hearing env request vs s (.ok (.allowed [])) events t
  | decided {front later : List (Validator T)} {v : Validator T} {events : List Event} {u t : σ}
      {answer : Except AdmissionError Verdict} {result : Except AdmissionError ChainResult}
      (order : vs = front ++ v :: later) (passed : Passed env request front s events u)
      (said : Decision.eval env (v.validate request) u = (answer, t))
      (last : lastWord? answer = some result) :
      Hearing env request vs s result (events ++ Decision.transcript env (v.validate request) u) t

/-- A validator that lets a request pass and leaves no trace: whatever is the case, it allows or
abstains. -/
def Lenient (env : Environment σ) (request : AdmissionRequest T) (v : Validator T) : Prop :=
  ∀ s, ∃ answer, Decision.eval env (v.validate request) s = (answer, s) ∧ lastWord? answer = none

/-- After an answer that is not the last word the hearing goes on. -/
theorem Hearing.cons (said : Decision.eval env (v.validate request) s = (answer, u))
    (mild : lastWord? answer = none) (hearing : Hearing env request rest u result events t) :
    Hearing env request (v :: rest) s result
      (Decision.transcript env (v.validate request) s ++ events) t := by
  cases hearing with
  | allowed passed => exact .allowed (.cons said mild passed)
  | decided order passed said' last =>
    rw [← List.append_assoc, order]
    exact .decided (List.cons_append ..).symm (.cons said mild passed) said' last

theorem eval_runValidators_of_mild (said : Decision.eval env (v.validate request) s = (answer, u))
    (mild : lastWord? answer = none) (vs : List (Validator T)) :
    Decision.eval env (runValidators request (v :: vs)) s =
      Decision.eval env (runValidators request vs) u := by
  rw [eval_runValidators_cons, said]
  match answer, mild with
  | .ok .allow, _ => rfl
  | .ok .abstain, _ => rfl

theorem eval_runValidators_of_last (said : Decision.eval env (v.validate request) s = (answer, t))
    (last : lastWord? answer = some result) (vs : List (Validator T)) :
    Decision.eval env (runValidators request (v :: vs)) s = (result, t) := by
  rw [eval_runValidators_cons, said]
  match answer, last with
  | .ok (.deny reason), rfl => rfl
  | .error e, rfl => rfl

theorem transcript_runValidators_of_mild
    (said : Decision.eval env (v.validate request) s = (answer, u)) (mild : lastWord? answer = none)
    (vs : List (Validator T)) :
    Decision.transcript env (runValidators request (v :: vs)) s =
      Decision.transcript env (v.validate request) s ++
        Decision.transcript env (runValidators request vs) u := by
  match answer, mild with
  | .ok .allow, _ => exact Decision.transcript_bind_of_ok said
  | .ok .abstain, _ => exact Decision.transcript_bind_of_ok said

theorem transcript_runValidators_of_last
    (said : Decision.eval env (v.validate request) s = (answer, t))
    (last : lastWord? answer = some result) (vs : List (Validator T)) :
    Decision.transcript env (runValidators request (v :: vs)) s =
      Decision.transcript env (v.validate request) s := by
  match answer, last with
  | .ok (.deny reason), _ =>
    exact (Decision.transcript_bind_of_ok said).trans (List.append_nil _)
  | .error e, _ => exact Decision.transcript_bind_of_error said

/-- Validators that are passed hand on to those after them. -/
theorem Passed.runs {front : List (Validator T)} (passed : Passed env request front s events u)
    (vs : List (Validator T)) :
    Decision.eval env (runValidators request (front ++ vs)) s =
        Decision.eval env (runValidators request vs) u ∧
      Decision.transcript env (runValidators request (front ++ vs)) s =
        events ++ Decision.transcript env (runValidators request vs) u := by
  induction passed with
  | nil s => exact ⟨rfl, rfl⟩
  | cons said mild _ ih =>
    obtain ⟨ran, happened⟩ := ih
    rw [List.cons_append, eval_runValidators_of_mild said mild,
      transcript_runValidators_of_mild said mild, ran, happened, List.append_assoc]
    exact ⟨rfl, rfl⟩

/-- Running validators comes to how they are heard, and nothing else happens. -/
theorem Hearing.runs (hearing : Hearing env request vs s result events t) :
    Decision.eval env (runValidators request vs) s = (result, t) ∧
      Decision.transcript env (runValidators request vs) s = events := by
  cases hearing with
  | allowed passed =>
    obtain ⟨ran, happened⟩ := passed.runs []
    rw [List.append_nil] at ran happened
    exact ⟨ran, happened.trans (List.append_nil _)⟩
  | decided order passed said last =>
    rw [order, (passed.runs _).1, (passed.runs _).2, eval_runValidators_of_last said last,
      transcript_runValidators_of_last said last]
    exact ⟨rfl, rfl⟩

/-- A hearing goes one way or the other. -/
theorem exists_hearing (env : Environment σ) (request : AdmissionRequest T) (vs : List (Validator T))
    (s : σ) : ∃ result events t, Hearing env request vs s result events t := by
  induction vs generalizing s with
  | nil => exact ⟨_, _, _, .allowed (.nil s)⟩
  | cons v rest ih =>
    rcases said : Decision.eval env (v.validate request) s with ⟨answer, u⟩
    cases last : lastWord? answer with
    | none =>
      obtain ⟨result, events, t, hearing⟩ := ih u
      exact ⟨result, _, t, hearing.cons said last⟩
    | some result => exact ⟨result, _, u, .decided rfl (.nil s) said last⟩

/-- Lenient validators in front change nothing. -/
theorem eval_runValidators_lenient {extra : List (Validator T)}
    (lenient : ∀ v ∈ extra, Lenient env request v) (vs : List (Validator T)) (s : σ) :
    Decision.eval env (runValidators request (extra ++ vs)) s =
      Decision.eval env (runValidators request vs) s := by
  induction extra with
  | nil => rfl
  | cons v rest ih =>
    obtain ⟨answer, said, mild⟩ := lenient v List.mem_cons_self s
    rw [List.cons_append, eval_runValidators_of_mild said mild]
    exact ih fun w there => lenient w (List.mem_cons_of_mem _ there)

/-- Nor do they anywhere else. -/
theorem eval_runValidators_inserted {extra : List (Validator T)}
    (lenient : ∀ v ∈ extra, Lenient env request v) (front back : List (Validator T)) (s : σ) :
    Decision.eval env (runValidators request (front ++ extra ++ back)) s =
      Decision.eval env (runValidators request (front ++ back)) s := by
  induction front generalizing s with
  | nil => exact eval_runValidators_lenient lenient back s
  | cons v front ih =>
    rw [List.append_assoc, List.cons_append, List.cons_append, ← List.append_assoc]
    rcases said : Decision.eval env (v.validate request) s with ⟨answer, u⟩
    cases last : lastWord? answer with
    | none =>
      rw [eval_runValidators_of_mild said last, eval_runValidators_of_mild said last, ih]
    | some result =>
      -- the extra validators are not run at all, lenient or not
      rw [eval_runValidators_of_last said last, eval_runValidators_of_last said last]

variable [Reviewable T] {w : Webhook T} {contentType : Option String} {body : List UInt8}
  {review : AdmissionReview} {wire : ReviewRequest} {object : T} {document : Json}

/-- **The first denial or failure is the reply.** A request that validators are to be heard on is
answered as the hearing goes, and during the request nothing happens but what happens in the hearing: the
validators after the first one that denies or fails are not run. Validators that are lenient with the
request may be put in anywhere, in any number, and the run of the webhook is the same. -/
theorem handle_hearing (env : Environment σ) (chain : w.chain = .validating vs)
    (reviewed : Reviewed w.chain contentType body review wire object document) (s : σ) :
    (∃ result events t, Hearing env (requestFor wire object) vs s result events t) ∧
    (∀ result events t, Hearing env (requestFor wire object) vs s result events t →
      (handle w contentType body).run env s = (replyTo review.apiVersion wire.uid result, t) ∧
        (handle w contentType body).transcript env s = events) ∧
    (∀ front back extra, vs = front ++ back →
      (∀ v ∈ extra, Lenient env (requestFor wire object) v) →
      (handle { w with chain := .validating (front ++ extra ++ back) } contentType body).run env s =
        (handle w contentType body).run env s) := by
  refine ⟨exists_hearing env _ vs s, ?_, ?_⟩
  · intro result events t hearing
    obtain ⟨ran, happened⟩ := hearing.runs
    constructor
    · rw [reviewed.run_handle, chain, runChain, ran]
    · rw [reviewed.handle_eq, Program.transcript_bind, chain]
      exact (List.append_nil _).trans happened
  · intro front back extra order lenient
    have free : ∀ ms, Chain.validating (front ++ extra ++ back) = .mutating ms →
        wire.dryRun ≠ some true := by
      intro ms same
      cases same
    have handled : Handled (.validating (front ++ extra ++ back)) wire object document :=
      { reviewed.handled with free := free }
    have reviewed' : Reviewed (Webhook.chain { w with chain := .validating (front ++ extra ++ back) })
        contentType body review wire object document := { reviewed with handled := handled }
    rw [reviewed'.run_handle, reviewed.run_handle, chain, order, runChain, runChain,
      eval_runValidators_inserted lenient]

/-- A validator that always says the same. -/
def saying (verdict : Verdict) : Validator App where
  name := "saying"
  validate _ := return verdict

/-- A webhook with validators. -/
def panel (verdicts : List Verdict) : Webhook App where
  resource := "app"
  chain := .validating (verdicts.map saying)

/-- The first of two denials is the reply, also if an allowance stands in front of it. -/
theorem handle_hearing_sample :
    (handle (panel [.abstain, .deny "first", .deny "second"]) (some "application/json") smallBody).run
        MemoryStore.environment {} =
      (replyTo smallReview.apiVersion "u" (.ok (.denied "first")), {}) ∧
    (handle (panel [.abstain, .allow, .deny "first", .deny "second"]) (some "application/json")
        smallBody).run MemoryStore.environment {} =
      (replyTo smallReview.apiVersion "u" (.ok (.denied "first")), {}) := by
  obtain ⟨-, goes, inserted⟩ := handle_hearing MemoryStore.environment rfl
    (reviewed_small (panel [.abstain, .deny "first", .deny "second"]).chain) {}
  have passed : Passed MemoryStore.environment (requestFor smallRequest smallApp)
      [saying .abstain] {} [] {} := .cons rfl rfl (.nil _)
  have hearing : Hearing MemoryStore.environment (requestFor smallRequest smallApp)
      [saying .abstain, saying (.deny "first"), saying (.deny "second")] {} (.ok (.denied "first")) [] {} :=
    .decided rfl passed rfl rfl
  have ran := (goes _ _ _ hearing).1
  have lenient : ∀ v ∈ [saying .allow],
      Lenient MemoryStore.environment (requestFor smallRequest smallApp) v := by
    intro v there s
    rw [List.mem_singleton.1 there]
    exact ⟨.ok .allow, rfl, rfl⟩
  exact ⟨ran, (inserted [saying .abstain] _ _ rfl lenient).trans ran⟩

end AppAdmission.Webhook
