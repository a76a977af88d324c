import AppAdmission.Proofs.Admission.Tracking

/-!
# How chains end

A chain of handlers ends in one of three ways: it goes through to its end, a validator denies, or
something fails. The relations say which, handler by handler: `Judged` for validators, `Course` and
`Broken` for mutators. They are what running the chain computes, for every store.
-/

namespace AppAdmission.Webhook

open Json (Source)

variable {T σ : Type} {env : Environment σ}

/-- Validators asked in order, each only if all before it allowed or abstained: they pass together,
or one of them denies, or one fails. -/
inductive Judged (env : Environment σ) (request : AdmissionRequest T) :
    List (Validator T) → σ → Except AdmissionError ChainResult → σ → Prop where
  | passed (s : σ) : Judged env request [] s (.ok (.allowed [])) s
  | onward {v : Validator T} {rest : List (Validator T)} {s u t : σ} {verdict : Verdict}
      {result : Except AdmissionError ChainResult}
      (said : Decision.eval env (v.validate request) s = (.ok verdict, u))
      (mild : ∀ reason, verdict ≠ .deny reason) (others : Judged env request rest u result t) :
      Judged env request (v :: rest) s result t
  | denied {v : Validator T} {rest : List (Validator T)} {s t : σ} {reason : String}
      (said : Decision.eval env (v.validate request) s = (.ok (.deny reason), t)) :
      Judged env request (v :: rest) s (.ok (.denied reason)) t
  | failed {v : Validator T} {rest : List (Validator T)} {s t : σ} {e : AdmissionError}
      (said : Decision.eval env (v.validate request) s = (.error e, t)) :
      Judged env request (v :: rest) s (.error e) t

/-- After a first verdict that is no denial the others are asked, otherwise it is the end. -/
theorem eval_runValidators_cons {request : AdmissionRequest T} {v : Validator T}
    {rest : List (Validator T)} {s : σ} :
    Decision.eval env (runValidators request (v :: rest)) s =
      match Decision.eval env (v.validate request) s with
      | (.ok (.deny reason), t) => (.ok (.denied reason), t)
      | (.ok .allow, t) | (.ok .abstain, t) => Decision.eval env (runValidators request rest) t
      | (.error e, t) => (.error e, t) := by
  rw [runValidators, Decision.eval_bind]
  rcases Decision.eval env (v.validate request) s with ⟨_ | _ | _ | _, t⟩ <;> rfl

/-- Running validators comes to how they judge. -/
theorem eval_runValidators_iff {request : AdmissionRequest T} {vs : List (Validator T)} {s t : σ}
    {result : Except AdmissionError ChainResult} :
    Decision.eval env (runValidators request vs) s = (result, t) ↔
      Judged env request vs s result t := by
  induction vs generalizing s with
  | nil =>
    rw [runValidators, Decision.eval_pure, Prod.mk.injEq]
    constructor
    · rintro ⟨rfl, rfl⟩
      exact .passed s
    · intro judged
      cases judged
      exact ⟨rfl, rfl⟩
  | cons v rest ih =>
    rw [eval_runValidators_cons]
    constructor
    · intro ran
      rcases said : Decision.eval env (v.validate request) s with ⟨e | verdict, u⟩ <;>
        rw [said] at ran
      · cases ran
        exact .failed said
      · cases verdict with
        | deny reason =>
          cases ran
          exact .denied said
        | allow => exact .onward said (fun _ h => nomatch h) (ih.1 ran)
        | abstain => exact .onward said (fun _ h => nomatch h) (ih.1 ran)
    · intro judged
      cases judged with
      | @onward _ _ _ u _ verdict _ said mild others =>
        rw [said]
        cases verdict with
        | deny reason => exact absurd rfl (mild reason)
        | allow => exact ih.2 others
        | abstain => exact ih.2 others
      | denied said => rw [said]
      | failed said => rw [said]

variable [Reviewable T]

/-- Mutators run in order until something fails: a handler itself, its operations on the document, or
the object of the document that they leave for the next handler. -/
inductive Broken (env : Environment σ) :
    List (Mutator T) → Progress T → σ → AdmissionError → σ → Prop where
  | refused {m : Mutator T} {rest : List (Mutator T)} {p : Progress T} {s t : σ} {e : AdmissionError}
      (answered : Decision.eval env (m.mutate p.request) s = (.error e, t)) :
      Broken env (m :: rest) p s e t
  | unfit {m : Mutator T} {rest : List (Mutator T)} {p : Progress T} {s t : σ}
      {ops : List Patch.Operation} {fault : Patch.Fault}
      (answered : Decision.eval env (m.mutate p.request) s = (.ok ops, t))
      (unfit : Patch.apply ops p.document = .error fault) :
      Broken env (m :: rest) p s (.invalidPatch m.name fault) t
  | unread {m : Mutator T} {rest : List (Mutator T)} {p : Progress T} {s t : σ}
      {ops : List Patch.Operation} {document : Json}
      (answered : Decision.eval env (m.mutate p.request) s = (.ok ops, t)) (edits : ops ≠ [])
      (applied : Patch.apply ops p.document = .ok document) (more : rest ≠ [])
      (unread : (Reviewable.decode (Source.ofJson document) : Option T) = none) :
      Broken env (m :: rest) p s .serialization t
  | onward {m : Mutator T} {rest : List (Mutator T)} {p q : Progress T} {s u v t : σ}
      {ops : List Patch.Operation} {e : AdmissionError}
      (answered : Decision.eval env (m.mutate p.request) s = (.ok ops, u))
      (accepted : Decision.eval env (p.accept rest.isEmpty m.name ops) u = (.ok q, v))
      (broken : Broken env rest q v e t) : Broken env (m :: rest) p s e t

omit [Reviewable T] in
theorem eval_patched_error_iff {handler : String} {ops : List Patch.Operation} {document : Json}
    {s t : σ} {e : AdmissionError} :
    Decision.eval env (patched handler ops document) s = (.error e, t) ↔
      ∃ fault, Patch.apply ops document = .error fault ∧ e = .invalidPatch handler fault ∧ s = t := by
  unfold patched
  cases Patch.apply ops document with
  | error fault => simp [eq_comm]
  | ok document => simp

theorem eval_reread_error_iff {isLast : Bool} {request : AdmissionRequest T} {document : Json}
    {s t : σ} {e : AdmissionError} :
    Decision.eval env (reread isLast request document) s = (.error e, t) ↔
      isLast = false ∧ (Reviewable.decode (Source.ofJson document) : Option T) = none ∧
        e = .serialization ∧ s = t := by
  unfold reread
  cases isLast with
  | true => simp
  | false =>
    cases (Reviewable.decode (Source.ofJson document) : Option T) with
    | none => simp [Decision.converted, eq_comm]
    | some object => simp [Decision.converted]

/-- What a handler returned cannot be taken in if it does not apply, or if an object for the next
handler cannot be read from what it leaves. -/
theorem eval_accept_error_iff {p : Progress T} {isLast : Bool} {handler : String}
    {ops : List Patch.Operation} {s t : σ} {e : AdmissionError} :
    Decision.eval env (p.accept isLast handler ops) s = (.error e, t) ↔ s = t ∧
      ((∃ fault, Patch.apply ops p.document = .error fault ∧ e = .invalidPatch handler fault) ∨
        (isLast = false ∧ ops ≠ [] ∧ ∃ document, Patch.apply ops p.document = .ok document ∧
          (Reviewable.decode (Source.ofJson document) : Option T) = none ∧ e = .serialization)) := by
  unfold Progress.accept
  cases ops with
  | nil => simp
  | cons op rest =>
    simp only [List.isEmpty_cons, Bool.false_eq_true, if_false, Decision.eval_bind_error_iff,
      eval_patched_error_iff, eval_patched_ok_iff, eval_reread_error_iff]
    constructor
    · rintro (⟨fault, unfit, rfl, rfl⟩ | ⟨document, _, ⟨applied, rfl⟩, broken⟩)
      · exact ⟨rfl, Or.inl ⟨fault, unfit, rfl⟩⟩
      · rcases broken with ⟨more, unread, rfl, rfl⟩ | ⟨_, _, _, h⟩
        · exact ⟨rfl, Or.inr ⟨more, by simp, document, applied, unread, rfl⟩⟩
        · cases h
    · rintro ⟨rfl, ⟨fault, unfit, rfl⟩ | ⟨more, -, document, applied, unread, rfl⟩⟩
      · exact Or.inl ⟨fault, unfit, rfl, rfl⟩
      · exact Or.inr ⟨document, s, ⟨applied, rfl⟩, Or.inl ⟨more, unread, rfl, rfl⟩⟩

/-- The runs that fail are the ones that break. -/
theorem eval_run_error_iff {ms : List (Mutator T)} {p : Progress T} {s t : σ} {e : AdmissionError} :
    Decision.eval env (p.run ms) s = (.error e, t) ↔ Broken env ms p s e t := by
  induction ms generalizing p s with
  | nil =>
    rw [Progress.run]
    constructor
    · intro h
      cases h
    · intro h
      cases h
  | cons m rest ih =>
    rw [Progress.run, Decision.eval_bind_error_iff]
    constructor
    · rintro (refused | ⟨ops, u, answered, ran⟩)
      · exact .refused refused
      rcases Decision.eval_bind_error_iff.1 ran with broken | ⟨q, v, accepted, ran⟩
      · obtain ⟨rfl, ⟨fault, unfit, rfl⟩ | ⟨more, edits, document, applied, unread, rfl⟩⟩ :=
          eval_accept_error_iff.1 broken
        · exact .unfit answered unfit
        · exact .unread answered edits applied (by simpa using more) unread
      · exact .onward answered accepted (ih.1 ran)
    · intro broken
      cases broken with
      | refused answered => exact Or.inl answered
      | @unfit _ _ _ _ _ ops fault answered unfit =>
        refine Or.inr ⟨ops, t, answered, Decision.eval_bind_error_iff.2 (Or.inl ?_)⟩
        exact eval_accept_error_iff.2 ⟨rfl, Or.inl ⟨fault, unfit, rfl⟩⟩
      | @unread _ _ _ _ _ ops document answered edits applied more unread =>
        refine Or.inr ⟨ops, t, answered, Decision.eval_bind_error_iff.2 (Or.inl ?_)⟩
        exact eval_accept_error_iff.2
          ⟨rfl, Or.inr ⟨by simpa using more, edits, document, applied, unread, rfl⟩⟩
      | @onward _ _ _ q _ u v _ ops _ answered accepted broken =>
        refine Or.inr ⟨ops, u, answered, Decision.eval_bind_error_iff.2 (Or.inr ?_)⟩
        exact ⟨q, v, accepted, ih.2 broken⟩

/-- How a chain ends on a request and its document when all its handlers may run: it passes with
operations, it denies, or it fails. -/
inductive Ends (env : Environment σ) (request : AdmissionRequest T) (document : Json) (s : σ) :
    Chain T → Except AdmissionError ChainResult → σ → Prop where
  | judged {vs : List (Validator T)} {result : Except AdmissionError ChainResult} {t : σ}
      (judged : Judged env request vs s result t) :
      Ends env request document s (.validating vs) result t
  | mutated {ms : List (Mutator T)} {turns : List (Turn T)} {last : Progress T} {t : σ}
      (course : Course env ms ⟨request, document, []⟩ s turns last t) :
      Ends env request document s (.mutating ms) (.ok (.allowed last.ops)) t
  | broken {ms : List (Mutator T)} {e : AdmissionError} {t : σ}
      (broken : Broken env ms ⟨request, document, []⟩ s e t) :
      Ends env request document s (.mutating ms) (.error e) t

/-- Running a chain comes to how it ends, unless it is a mutating one in a dry run. -/
theorem eval_runChain_iff {chain : Chain T} {request : AdmissionRequest T} {document : Json} {s t : σ}
    {result : Except AdmissionError ChainResult}
    (free : ∀ ms, chain = .mutating ms → request.dryRun = false) :
    Decision.eval env (runChain chain request document) s = (result, t) ↔
      Ends env request document s chain result t := by
  cases chain with
  | validating vs =>
    constructor
    · intro ran
      exact .judged (eval_runValidators_iff.1 ran)
    · rintro ⟨judged⟩
      exact eval_runValidators_iff.2 judged
  | mutating ms =>
    have wet : runChain (.mutating ms) request document = runMutators request document ms := by
      simp [runChain, free ms rfl]
    rw [wet]
    constructor
    · intro ran
      cases result with
      | ok result =>
        obtain ⟨last, through, rfl⟩ := eval_runMutators_ok_iff.1 ran
        obtain ⟨turns, course⟩ := eval_run_ok_iff.1 through
        exact .mutated course
      | error e =>
        rcases Decision.eval_bind_error_iff.1 ran with broken | ⟨_, _, _, h⟩
        · exact .broken (eval_run_error_iff.1 broken)
        · cases h
    · intro ends
      cases ends with
      | mutated course => exact eval_runMutators_ok_iff.2 ⟨_, eval_run_ok_iff.2 ⟨_, course⟩, rfl⟩
      | broken broken => exact Decision.eval_bind_error_iff.2 (Or.inl (eval_run_error_iff.2 broken))

end AppAdmission.Webhook
