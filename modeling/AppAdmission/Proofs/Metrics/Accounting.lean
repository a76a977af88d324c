import AppAdmission.Metrics.Counter
import AppAdmission.Proofs.Admission.Reply

/-!
# Requests and their counts

How a request ended can be told from its reply alone. What is counted under the labels of a webhook is
therefore the number of its replies, once in total and once by their ending, and no request is missed or
counted twice, whatever the handlers and the store do.
-/

namespace AppAdmission

/-- How a request ended, as its answer shows it. -/
def ReviewResponse.ending? (r : ReviewResponse) : Option Outcome :=
  if r.allowed then some .successful
  else match r.status.bind ReviewStatus.code with
    | some 400 => some .invalidRequest
    | some 403 => some .rejected
    | some 500 => some .internalError
    | _ => none

namespace WebhookReply

/-- The answer in the envelope of a reply. -/
def answer? (r : WebhookReply) : Option ReviewResponse :=
  (AdmissionReview.ofBytes? (Utf8.encode r.body.toList)).bind AdmissionReview.response

/-- How a request ended, as its reply shows it. -/
def ending? (r : WebhookReply) : Option Outcome :=
  if r.status = 415 ∨ r.status = 400 then some .invalidRequest
  else if r.status = 200 then r.answer?.bind ReviewResponse.ending?
  else none

end WebhookReply

namespace Webhook

variable {T σ : Type} [Reviewable T] {env : Environment σ} {chain : Chain T} {wire : ReviewRequest}

/-- What the handlers came to shows in the answer. -/
theorem ending?_conclude (uid : String) (result : Except AdmissionError ChainResult) :
    (conclude uid result).2.ending? = some (conclude uid result).1 := by
  match result with
  | .ok (.allowed ops) => simp [conclude, ReviewResponse.ending?, ReviewResponse.allow]
  | .ok (.denied reason) => rfl
  | .error e => rfl

/-- The outcome of a decision shows in its answer. -/
theorem ending?_decide (env : Environment σ) (chain : Chain T) (wire : ReviewRequest) (s : σ) :
    ((decide chain wire).run env s).1.2.ending? = some ((decide chain wire).run env s).1.1 := by
  cases writes : wire.operation.writes with
  | false =>
    rw [run_decide_reading writes]
    rfl
  | true =>
    cases read : readRequest (T := T) wire with
    | error e =>
      rw [run_decide_unread writes read]
      rfl
    | ok given =>
      obtain ⟨request, document⟩ := given
      cases torn : Reviewable.isBeingDeleted request.object with
      | true =>
        rw [run_decide_deleted writes read torn]
        rfl
      | false =>
        rw [run_decide_chain writes read torn]
        exact ending?_conclude _ _

/-- The outcome of a request shows in its reply. -/
theorem ending?_handle (env : Environment σ) (w : Webhook T) (contentType : Option String)
    (body : List UInt8) (s : σ) :
    ((w.handle contentType body).run env s).1.2.ending? =
      some ((w.handle contentType body).run env s).1.1 := by
  by_cases json : IsJson contentType
  · by_cases full : ∃ review wire, AdmissionReview.ofBytes? body = some review ∧
        review.request = some wire
    · obtain ⟨review, wire, read, given⟩ := full
      have shown := ending?_decide env w.chain wire s
      obtain ⟨outcome, response, t, ran, decided⟩ := decided_run env w.chain wire s
      rw [ran] at shown
      rw [run_handle_read json read given ran]
      have answer : WebhookReply.answer? ⟨200, (AdmissionReview.respond review.apiVersion
          response).toJson.render⟩ = some response := by
        unfold WebhookReply.answer?
        rw [AdmissionReview.ofBytes?_render_respond decided.fits]
        rfl
      unfold WebhookReply.ending?
      simp only [answer]
      exact shown
    · obtain ⟨message, ran⟩ : ∃ message, (handle w contentType body).run env s =
          ((.invalidRequest, clientError 400 message), s) :=
        run_handle_unread json (no_request_iff.2 full) s
      rw [ran]
      rfl
  · rw [run_handle_unsupported json]
    rfl

end Webhook

namespace Tally

/-- A request is counted in total and by its outcome, under its labels. -/
theorem counts_noteAll_events (t : Tally) (outcome : Outcome) (labels : MetricLabels)
    (seconds : Binary64) (c : Counter) (l : MetricLabels) :
    (t.noteAll (outcome.events labels seconds)).counts c l =
      t.counts c l + if labels = l ∧ (c = .total ∨ c = outcome.counter) then 1 else 0 := by
  by_cases same : labels = l
  · subst same
    by_cases total : c = .total
    · have other : c ≠ outcome.counter := by
        rw [total]
        cases outcome <;> simp [Outcome.counter]
      simp [noteAll, Outcome.events, note, total, total ▸ other]
    · simp [noteAll, Outcome.events, note, total]
      split <;> rfl
  · have other : l ≠ labels := fun h => same h.symm
    simp [noteAll, Outcome.events, note, same, other]

/-- Its duration is observed under its labels. -/
theorem durations_noteAll_events (t : Tally) (outcome : Outcome) (labels : MetricLabels)
    (seconds : Binary64) (l : MetricLabels) :
    (t.noteAll (outcome.events labels seconds)).durations l =
      if labels = l then t.durations l ++ [.finite seconds] else t.durations l := by
  simp [noteAll, Outcome.events, note, eq_comm]

end Tally

/-- A request to a webhook for any kind of resource, and how long it takes to answer it. -/
structure Visit where
  {T : Type}
  [reviewable : Reviewable T]
  webhook : Webhook T
  contentType : Option String
  body : List UInt8
  seconds : Binary64

namespace Visit

/-- The labels under which a visit is counted. -/
def labels (v : Visit) : MetricLabels := v.webhook.labels

/-- What a visit comes to. -/
def answer (v : Visit) : Program (Outcome × WebhookReply) :=
  let _ := v.reviewable
  v.webhook.handle v.contentType v.body

theorem ending?_answer {σ : Type} (env : Environment σ) (v : Visit) (s : σ) :
    (v.answer.run env s).1.2.ending? = some (v.answer.run env s).1.1 :=
  let _ := v.reviewable
  Webhook.ending?_handle env v.webhook v.contentType v.body s

end Visit

/-- A reply and the labels of the webhook that gave it. -/
abbrev Entry := MetricLabels × WebhookReply

/-- Visits answered one after another, each counted when it is answered: the replies, in order, the tally
and the state that are left. -/
def receive {σ : Type} (env : Environment σ) : List Visit → Tally → σ → List Entry × Tally × σ
  | [], t, s => ([], t, s)
  | v :: rest, t, s =>
    let ((outcome, reply), s') := v.answer.run env s
    let (entries, left) := receive env rest (t.noteAll (outcome.events v.labels v.seconds)) s'
    ((v.labels, reply) :: entries, left)

/-- The number of visits to webhooks with some labels. -/
def visitCount (visits : List Visit) (l : MetricLabels) : Nat :=
  visits.countP fun v => v.labels = l

/-- The number of replies of webhooks with some labels that show an ending. -/
def endingCount (entries : List Entry) (l : MetricLabels) (outcome : Outcome) : Nat :=
  entries.countP fun e => e.1 = l ∧ e.2.ending? = some outcome

/-- In total as many requests are counted as by their endings, and as many durations are observed. -/
structure Tally.Balanced (t : Tally) (l : MetricLabels) : Prop where
  endings : t.counts .total l = t.counts .invalidRequest l + t.counts .rejected l +
    t.counts .internalError l + t.counts .successful l
  durations : t.counts .total l = t.durationCount l

/-- A tally goes on from another one by exactly the visits that were answered.

* `answered`: each visit has its reply;
* `total`, `observed`: each visit is counted once and its duration observed once, under its labels;
* `ended`: each counter of an outcome grows by the replies that show this outcome;
* `apart`: nothing changes under labels that no visit has. -/
structure Accounts (visits : List Visit) (entries : List Entry) (before after : Tally) : Prop where
  answered : entries.map Prod.fst = visits.map Visit.labels
  total : ∀ l, after.counts .total l = before.counts .total l + visitCount visits l
  observed : ∀ l, after.durationCount l = before.durationCount l + visitCount visits l
  ended : ∀ outcome l,
    after.counts outcome.counter l = before.counts outcome.counter l + endingCount entries l outcome
  balanced : ∀ l, before.Balanced l → after.Balanced l
  apart : ∀ l, (∀ v ∈ visits, v.labels ≠ l) →
    (∀ c, after.counts c l = before.counts c l) ∧ after.durations l = before.durations l

namespace Accounts

variable {visits : List Visit} {entries : List Entry} {before middle after : Tally}

theorem nil (t : Tally) : Accounts [] [] t t := by
  constructor
  · rfl
  · exact fun _ => rfl
  · exact fun _ => rfl
  · exact fun _ _ => rfl
  · exact fun _ same => same
  · exact fun _ _ => ⟨fun _ => rfl, rfl⟩

/-- One visit more is counted once more. -/
theorem cons {v : Visit} {outcome : Outcome} {reply : WebhookReply} (shown : reply.ending? = some outcome)
    (rest : Accounts visits entries
      (before.noteAll (outcome.events v.labels v.seconds)) after) :
    Accounts (v :: visits) ((v.labels, reply) :: entries) before after := by
  have counts := before.counts_noteAll_events outcome v.labels v.seconds
  have durations := before.durations_noteAll_events outcome v.labels v.seconds
  have apart : ∀ c : Outcome, Counter.total ≠ c.counter := by
    intro c
    cases c <;> simp [Outcome.counter]
  have same : ∀ c d : Outcome, c.counter = d.counter ↔ c = d := by
    intro c d
    cases c <;> cases d <;> simp [Outcome.counter]
  have length (l : MetricLabels) :
      (before.noteAll (outcome.events v.labels v.seconds)).durationCount l =
        before.durationCount l + if v.labels = l then 1 else 0 := by
    unfold Tally.durationCount
    rw [durations]
    split <;> simp
  constructor
  · simp [rest.answered]
  · intro l
    rw [rest.total, counts]
    simp only [visitCount, List.countP_cons]
    by_cases h : v.labels = l
    · simp only [h, true_and, true_or, if_true, decide_true]
      omega
    · simp [h]
  · intro l
    rw [rest.observed, length]
    simp only [visitCount, List.countP_cons]
    by_cases h : v.labels = l
    · simp only [h, if_true, decide_true]
      omega
    · simp [h]
  · intro c l
    rw [rest.ended, counts]
    simp only [endingCount, List.countP_cons, shown, Option.some.injEq, same, (apart c).symm, false_or]
    by_cases h : v.labels = l ∧ outcome = c
    · simp [h.1, h.2]
      omega
    · have other : ¬(v.labels = l ∧ c = outcome) := fun h' => h ⟨h'.1, h'.2.symm⟩
      simp [h, other]
  · intro l balance
    refine rest.balanced l ⟨?_, ?_⟩
    · simp only [counts, balance.endings]
      cases outcome <;> by_cases h : v.labels = l <;> simp [h, Outcome.counter] <;> omega
    · rw [counts, length, balance.durations]
      simp
  · intro l others
    have other : v.labels ≠ l := others v List.mem_cons_self
    obtain ⟨kept, kept'⟩ := rest.apart l fun w there => others w (List.mem_cons_of_mem v there)
    refine ⟨fun c => ?_, ?_⟩
    · rw [kept, counts]
      simp [other]
    · rw [kept', durations]
      simp [other]

end Accounts

/-- Visits are accounted for, from any tally on. -/
theorem accounts_receive {σ : Type} (env : Environment σ) (visits : List Visit) (t : Tally) (s : σ) :
    Accounts visits (receive env visits t s).1 t (receive env visits t s).2.1 := by
  induction visits generalizing t s with
  | nil => exact .nil t
  | cons v rest ih => exact .cons (v.ending?_answer env s) (ih _ _)

/-- **Every request is accounted for exactly once.** Whatever is sent to whichever webhooks, and whatever
their handlers and the store do, the tally that they share grows under the labels of each webhook by its
requests in total and by its replies of each ending, and by nothing under other labels; begun afresh, the
endings add up to the total, and so do the durations. -/
theorem requests_accounted {σ : Type} (env : Environment σ) (visits : List Visit) (s : σ) :
    (∀ t, Accounts visits (receive env visits t s).1 t (receive env visits t s).2.1) ∧
      ∀ l, (receive env visits {} s).2.1.Balanced l :=
  ⟨fun t => accounts_receive env visits t s,
    fun l => (accounts_receive env visits {} s).balanced l ⟨rfl, rfl⟩⟩

end AppAdmission
