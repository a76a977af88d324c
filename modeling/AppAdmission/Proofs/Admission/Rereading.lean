import AppAdmission.Proofs.Admission.Reply

/-!
# When the object is read again

After operations of a mutator the object is read again for the next one, and not after the last one, for
which there is none. The shortcut is seen in one case only: a chain goes through and the operations of its
last mutator leave a document from which no object can be read. Mutators that never return operations may
therefore stand anywhere but at the end of such a chain.
-/

namespace AppAdmission

/-- A mutator that never returns operations. -/
def Mutator.Idle {T : Type} (m : Mutator T) : Prop := ∀ request, m.mutate request = pure []

namespace Webhook

open Json (Source)

variable {T σ : Type} [Reviewable T] {env : Environment σ} {request : AdmissionRequest T}
  {document : Json} {m : Mutator T} {ms front back idle : List (Mutator T)} {p q : Progress T} {s t u : σ}
  {ops : List Patch.Operation}

/-- Runs mutators without the shortcut: whoever returns operations, the object is read again. -/
def Progress.runPlainly (p : Progress T) : List (Mutator T) → Decision (Progress T)
  | [] => return p
  | m :: rest => do
    let ops ← m.mutate p.request
    let p ← p.accept false m.name ops
    p.runPlainly rest

/-- Runs mutators on a request and its document without the shortcut. -/
def runMutatorsPlainly (request : AdmissionRequest T) (document : Json) (mutators : List (Mutator T)) :
    Decision ChainResult := do
  let last ← Progress.runPlainly { request := request, document := document } mutators
  return .allowed last.ops

theorem accept_nil (p : Progress T) (isLast : Bool) (handler : String) :
    p.accept isLast handler [] = pure p := rfl

theorem runPlainly_append (p : Progress T) (front back : List (Mutator T)) :
    p.runPlainly (front ++ back) = p.runPlainly front >>= fun q => q.runPlainly back := by
  induction front generalizing p with
  | nil => rw [List.nil_append, Progress.runPlainly, pure_bind]
  | cons m front ih =>
    simp only [List.cons_append, Progress.runPlainly, bind_assoc, ih]

/-- Mutators that others follow run without the shortcut. -/
theorem run_append (p : Progress T) (front : List (Mutator T)) (more : back ≠ []) :
    p.run (front ++ back) = p.runPlainly front >>= fun q => q.run back := by
  induction front generalizing p with
  | nil => rw [List.nil_append, Progress.runPlainly, pure_bind]
  | cons m front ih =>
    -- whatever is left of the front, the handler at its head is not the last one of all
    have notLast : (front ++ back).isEmpty = false := by simp [more]
    simp only [List.cons_append, Progress.run, Progress.runPlainly, bind_assoc, ih, notLast]

theorem runPlainly_idle (silent : ∀ m ∈ idle, m.Idle) (p : Progress T) :
    p.runPlainly idle = pure p := by
  induction idle with
  | nil => rfl
  | cons m rest ih =>
    rw [Progress.runPlainly, silent m List.mem_cons_self, pure_bind, accept_nil, pure_bind]
    exact ih fun w there => silent w (List.mem_cons_of_mem _ there)

theorem run_idle (silent : ∀ m ∈ idle, m.Idle) (p : Progress T) : p.run idle = pure p := by
  induction idle with
  | nil => rfl
  | cons m rest ih =>
    rw [Progress.run, silent m List.mem_cons_self, pure_bind, accept_nil, pure_bind]
    exact ih fun w there => silent w (List.mem_cons_of_mem _ there)

/-- Idle mutators that others follow change nothing. -/
theorem runMutators_inserted (silent : ∀ m ∈ idle, m.Idle) (more : back ≠ [])
    (request : AdmissionRequest T) (document : Json) :
    runMutators request document (front ++ idle ++ back) =
      runMutators request document (front ++ back) := by
  have skipped (p : Progress T) : p.run (front ++ idle ++ back) = p.run (front ++ back) := by
    rw [run_append p (front ++ idle) more, runPlainly_append, run_append p front more, bind_assoc]
    simp only [runPlainly_idle silent, pure_bind]
  unfold runMutators
  rw [skipped]

/-- Idle mutators at the end take away the shortcut. -/
theorem runMutators_appended (silent : ∀ m ∈ idle, m.Idle) (present : idle ≠ [])
    (request : AdmissionRequest T) (document : Json) (ms : List (Mutator T)) :
    runMutators request document (ms ++ idle) = runMutatorsPlainly request document ms := by
  unfold runMutators runMutatorsPlainly
  rw [run_append _ ms present]
  simp only [run_idle silent, bind_pure]

/-- With a last mutator: the others run without the shortcut, and what it returns is taken with it. -/
theorem runMutators_concat (request : AdmissionRequest T) (document : Json) (front : List (Mutator T))
    (m : Mutator T) : runMutators request document (front ++ [m]) =
      Progress.runPlainly ⟨request, document, []⟩ front >>= fun q => m.mutate q.request >>= fun ops =>
        q.accept true m.name ops >>= fun last => pure (.allowed last.ops) := by
  unfold runMutators
  rw [run_append _ front (List.cons_ne_nil m [])]
  simp only [Progress.run, bind_pure, bind_assoc, List.isEmpty_nil]

theorem runMutatorsPlainly_concat (request : AdmissionRequest T) (document : Json)
    (front : List (Mutator T)) (m : Mutator T) : runMutatorsPlainly request document (front ++ [m]) =
      Progress.runPlainly ⟨request, document, []⟩ front >>= fun q => m.mutate q.request >>= fun ops =>
        q.accept false m.name ops >>= fun last => pure (.allowed last.ops) := by
  unfold runMutatorsPlainly
  rw [runPlainly_append]
  simp only [Progress.runPlainly, bind_pure, bind_assoc]

/-- A chain goes through, and the operations of its last mutator leave a document from which no object
can be read. All operations are those that the chain came to. -/
inductive Spoils (env : Environment σ) (p : Progress T) (s : σ) :
    List (Mutator T) → List Patch.Operation → σ → Prop where
  | last {front : List (Mutator T)} {m : Mutator T} {q : Progress T} {u t : σ}
      {ops : List Patch.Operation} {document : Json}
      (through : Decision.eval env (p.runPlainly front) s = (.ok q, u))
      (answered : Decision.eval env (m.mutate q.request) u = (.ok ops, t)) (edits : ops ≠ [])
      (applied : Patch.apply ops q.document = .ok document)
      (unread : (Reviewable.decode (Source.ofJson document) : Option T) = none) :
      Spoils env p s (front ++ [m]) (q.ops ++ ops) t

theorem accept_unfit {fault : Patch.Fault} (unfit : Patch.apply ops p.document = .error fault)
    (isLast : Bool) (handler : String) :
    p.accept isLast handler ops = throw (.invalidPatch handler fault) := by
  have edits : ops.isEmpty = false := by
    cases ops with
    | nil => cases unfit
    | cons op rest => rfl
  rw [Progress.accept, edits, patched, unfit]
  rfl

theorem accept_applied (edits : ops ≠ []) (applied : Patch.apply ops p.document = .ok document)
    (isLast : Bool) (handler : String) : p.accept isLast handler ops =
      reread isLast p.request document >>= fun request => pure ⟨request, document, p.ops ++ ops⟩ := by
  have edits' : ops.isEmpty = false := List.isEmpty_eq_false_iff.2 edits
  rw [Progress.accept, edits', patched, applied]
  rfl

theorem reread_some {object : T}
    (read : Reviewable.decode (Source.ofJson document) = some object) :
    reread false request document = pure { request with object := object } := by
  unfold reread
  rw [read]
  rfl

theorem reread_none (unread : (Reviewable.decode (Source.ofJson document) : Option T) = none) :
    reread false request document = throw .serialization := by
  unfold reread
  rw [unread]
  rfl

/-- The shortcut leaves the operations as they are unless no object can be read. -/
theorem eq_or_unread (p : Progress T) (handler : String) (ops : List Patch.Operation) :
    ((p.accept true handler ops >>= fun last => pure (ChainResult.allowed last.ops)) =
        p.accept false handler ops >>= fun last => pure (ChainResult.allowed last.ops)) ∨
      ∃ document, ops ≠ [] ∧ Patch.apply ops p.document = .ok document ∧
        (Reviewable.decode (Source.ofJson document) : Option T) = none := by
  by_cases edits : ops = []
  · rw [edits]
    exact Or.inl rfl
  · cases applied : Patch.apply ops p.document with
    | error fault =>
      rw [accept_unfit applied, accept_unfit applied]
      exact Or.inl rfl
    | ok document =>
      cases read : (Reviewable.decode (Source.ofJson document) : Option T) with
      | some object =>
        rw [accept_applied edits applied, accept_applied edits applied, reread_some read]
        exact Or.inl rfl
      | none => exact Or.inr ⟨document, edits, rfl, read⟩

/-- A chain that spoils its document is allowed, and without the shortcut it fails. -/
theorem Spoils.runs (spoils : Spoils env ⟨request, document, []⟩ s ms ops t) :
    Decision.eval env (runMutators request document ms) s = (.ok (.allowed ops), t) ∧
      Decision.eval env (runMutatorsPlainly request document ms) s = (.error .serialization, t) := by
  cases spoils with
  | last through answered edits applied unread =>
    rw [runMutators_concat, runMutatorsPlainly_concat, Decision.eval_bind_of_ok through,
      Decision.eval_bind_of_ok through, Decision.eval_bind_of_ok answered,
      Decision.eval_bind_of_ok answered, accept_applied edits applied, accept_applied edits applied,
      reread_none unread]
    exact ⟨rfl, rfl⟩

/-- Any other chain comes to the same without the shortcut. -/
theorem eval_runMutators_plainly (sound : ∀ ops t, ¬Spoils env ⟨request, document, []⟩ s ms ops t) :
    Decision.eval env (runMutators request document ms) s =
      Decision.eval env (runMutatorsPlainly request document ms) s := by
  rcases List.eq_nil_or_concat ms with rfl | ⟨front, m, rfl⟩
  · rfl
  · rw [List.concat_eq_append] at *
    rw [runMutators_concat, runMutatorsPlainly_concat, Decision.eval_bind, Decision.eval_bind]
    rcases through : Decision.eval env (Progress.runPlainly ⟨request, document, []⟩ front) s with
      ⟨e | q, u⟩
    · rfl
    · dsimp only
      rw [Decision.eval_bind, Decision.eval_bind]
      rcases answered : Decision.eval env (m.mutate q.request) u with ⟨e | ops, v⟩
      · rfl
      · rcases eq_or_unread q m.name ops with same | ⟨document', edits, applied, unread⟩
        · exact congrArg (fun d => Decision.eval env d v) same
        · exact absurd (.last through answered edits applied unread) (sound _ _)

variable {w : Webhook T} {contentType : Option String} {body : List UInt8} {review : AdmissionReview}
  {wire : ReviewRequest} {object : T} {ms' : List (Mutator T)}

/-- The webhook with other mutators. -/
def withMutators (w : Webhook T) (ms : List (Mutator T)) : Webhook T :=
  { w with chain := .mutating ms }

/-- A request that mutators are to run on is answered as they end. -/
theorem Reviewed.run_mutators
    (reviewed : Reviewed (.mutating ms) contentType body review wire object document)
    (w : Webhook T) (ms' : List (Mutator T)) (s : σ) :
    (handle (w.withMutators ms') contentType body).run env s = (replyTo review.apiVersion wire.uid
        (Decision.eval env (runMutators (requestFor wire object) document ms') s).1,
      (Decision.eval env (runMutators (requestFor wire object) document ms') s).2) := by
  have wet := reviewed.handled.free ms rfl
  have handled : Handled (.mutating ms') wire object document :=
    { reviewed.handled with free := fun _ _ => wet }
  have reviewed' : Reviewed (w.withMutators ms').chain contentType body review wire object document :=
    { reviewed with handled := handled }
  rw [reviewed'.run_handle, withMutators, runChain_mutating wet]

/-- A request whose document is spoilt is allowed with all operations. -/
theorem Spoils.allowed (spoils : Spoils env ⟨requestFor wire object, document, []⟩ s ms ops t)
    (reviewed : Reviewed (.mutating ms) contentType body review wire object document) (w : Webhook T) :
    (handle (w.withMutators ms) contentType body).run env s =
      (replyTo review.apiVersion wire.uid (.ok (.allowed ops)), t) := by
  rw [reviewed.run_mutators w ms, spoils.runs.1]

/-- With idle mutators at the end the same request is refused. -/
theorem Spoils.refused (spoils : Spoils env ⟨requestFor wire object, document, []⟩ s ms ops t)
    (reviewed : Reviewed (.mutating ms) contentType body review wire object document) (w : Webhook T)
    (silent : ∀ m ∈ idle, m.Idle) (present : idle ≠ []) :
    (handle (w.withMutators (ms ++ idle)) contentType body).run env s =
      (replyTo review.apiVersion wire.uid (.error .serialization), t) := by
  rw [reviewed.run_mutators w, runMutators_appended silent present, spoils.runs.2]

/-- Where no mutators are to run, it does not matter which ones do not. -/
theorem decide_of_spared (spared : ∀ (object : T) document, ¬Handled (.mutating ms) wire object document)
    (ms' : List (Mutator T)) : decide (.mutating ms) wire = decide (.mutating ms') wire := by
  unfold decide
  split
  · next writes =>
    cases read : object? T wire with
    | none =>
      obtain ⟨reason, unread⟩ := readRequest_of_none read
      simp only [unread]
    | some object =>
      obtain ⟨document, came, -⟩ := exists_document read
      simp only [readRequest_of_object came read]
      split
      · rfl
      · next kept =>
        have dry : wire.dryRun = some true := by
          by_contra wet
          exact spared object document ⟨writes, came, read, Bool.eq_false_iff.2 kept, fun _ _ => wet⟩
        simp [runChain, requestFor, dry]
  · rfl

/-- Chains of mutators that come to the same are indistinguishable. -/
theorem run_handle_congr (same : ∀ review wire (object : T) document,
      Reviewed (.mutating ms) contentType body review wire object document →
        Decision.eval env (runMutators (requestFor wire object) document ms) s =
          Decision.eval env (runMutators (requestFor wire object) document ms') s) :
    (handle (w.withMutators ms) contentType body).run env s =
      (handle (w.withMutators ms') contentType body).run env s := by
  by_cases reviewed : ∃ review wire object document,
      Reviewed (.mutating ms) contentType body review wire object document
  · obtain ⟨review, wire, object, document, reviewed⟩ := reviewed
    rw [reviewed.run_mutators w ms, reviewed.run_mutators w ms', same _ _ _ _ reviewed]
  · unfold handle withMutators
    split
    · rfl
    · next other =>
      split
      · rfl
      · next review read =>
        split
        · rfl
        · next wire given =>
          have json : IsJson contentType := isJson_iff.1 (by simpa using other)
          have spared : ∀ (object : T) document, ¬Handled (.mutating ms) wire object document :=
            fun object document handled =>
              reviewed ⟨review, wire, object, document, json, read, given, handled⟩
          simp only [decide_of_spared spared ms']

/-- **The shortcut is seen in one case.** Mutators that never return operations may be put in anywhere
before the last mutator, and every run of the webhook is the same. Put after the last one they leave the
run as it is exactly if it is not one of a chain that goes through and whose last operations leave a
document without a readable object; such a request is allowed with all operations, and with idle mutators
at the end it is refused. In the same case, and in no other, running the mutators differs from running
them with the object read again after all operations. -/
theorem handle_idle (env : Environment σ) (w : Webhook T) (ms : List (Mutator T))
    (silent : ∀ m ∈ idle, m.Idle) (contentType : Option String) (body : List UInt8) (s : σ) :
    (∀ front back, ms = front ++ back → back ≠ [] →
      (handle (w.withMutators (front ++ idle ++ back)) contentType body).run env s =
        (handle (w.withMutators ms) contentType body).run env s) ∧
    (idle ≠ [] → ((handle (w.withMutators (ms ++ idle)) contentType body).run env s =
        (handle (w.withMutators ms) contentType body).run env s ↔
      ¬∃ review wire object document ops t,
        Reviewed (.mutating ms) contentType body review wire object document ∧
        Spoils env ⟨requestFor wire object, document, []⟩ s ms ops t)) ∧
    (∀ review wire object document ops t,
      Reviewed (.mutating ms) contentType body review wire object document →
      Spoils env ⟨requestFor wire object, document, []⟩ s ms ops t →
      (handle (w.withMutators ms) contentType body).run env s =
          (replyTo review.apiVersion wire.uid (.ok (.allowed ops)), t) ∧
        (idle ≠ [] → (handle (w.withMutators (ms ++ idle)) contentType body).run env s =
          (replyTo review.apiVersion wire.uid (.error .serialization), t))) ∧
    (∀ request document, Decision.eval env (runMutators request document ms) s =
        Decision.eval env (runMutatorsPlainly request document ms) s ↔
      ¬∃ ops t, Spoils env ⟨request, document, []⟩ s ms ops t) := by
  refine ⟨?_, ?_, ?_, ?_⟩
  · rintro front back rfl more
    refine (run_handle_congr ?_).symm
    intro review wire object document _
    rw [runMutators_inserted silent more]
  · intro present
    constructor
    · rintro same ⟨review, wire, object, document, ops, t, reviewed, spoils⟩
      rw [spoils.allowed reviewed, spoils.refused reviewed w silent present] at same
      cases same
    · intro sound
      refine (run_handle_congr ?_).symm
      intro review wire object document reviewed
      rw [runMutators_appended silent present]
      exact eval_runMutators_plainly fun ops t spoils =>
        sound ⟨review, wire, object, document, ops, t, reviewed, spoils⟩
  · intro review wire object document ops t reviewed spoils
    exact ⟨spoils.allowed reviewed w, spoils.refused reviewed w silent⟩
  · intro request document
    constructor
    · rintro same ⟨ops, t, spoils⟩
      obtain ⟨allowed, failed⟩ := spoils.runs
      rw [allowed, failed] at same
      cases same
    · intro sound
      exact eval_runMutators_plainly fun ops t spoils => sound ⟨ops, t, spoils⟩

/-- A mutator without operations. -/
def resting : Mutator App where
  name := "resting"
  mutate _ := return []

theorem idle_resting : resting.Idle := fun _ => rfl

/-- A mutator that leaves a document without a readable App. -/
def spoiling : Mutator App where
  name := "spoiling"
  mutate _ := return [.replace "/spec" (.str "nothing")]

/-- A webhook without handlers. -/
def plainWebhook : Webhook App := { resource := "app", chain := .mutating [] }

/-- Between a mutator and one that acts on what it did, a mutator without operations changes nothing. -/
theorem handle_idle_sample :
    (handle (plainWebhook.withMutators [labelling, resting, marking]) (some "application/json")
        smallBody).run MemoryStore.environment {} =
      (handle (plainWebhook.withMutators [labelling, marking]) (some "application/json")
        smallBody).run MemoryStore.environment {} := by
  have silent : ∀ m ∈ [resting], m.Idle := by
    intro m there
    rw [List.mem_singleton.1 there]
    exact idle_resting
  obtain ⟨inserted, -⟩ := handle_idle MemoryStore.environment plainWebhook [labelling, marking] silent
    (some "application/json") smallBody {}
  exact inserted [labelling] [marking] rfl (List.cons_ne_nil _ _)

/-- A mutator without operations after the one that spoils the document turns the admission into a
refusal. -/
theorem handle_idle_seen :
    (handle (plainWebhook.withMutators [spoiling]) (some "application/json") smallBody).run
        MemoryStore.environment {} =
      (replyTo smallReview.apiVersion "u" (.ok (.allowed [.replace "/spec" (.str "nothing")])), {}) ∧
    (handle (plainWebhook.withMutators [spoiling, resting]) (some "application/json") smallBody).run
        MemoryStore.environment {} =
      (replyTo smallReview.apiVersion "u" (.error .serialization), {}) ∧
    (conclude "u" (.ok (.allowed [.replace "/spec" (.str "nothing")]))).2.allowed = true ∧
    (conclude "u" (.error .serialization)).2.allowed = false := by
  have reviewed := reviewed_small (.mutating [])
  refine ⟨?_, ?_, rfl, rfl⟩
  · rw [reviewed.run_mutators plainWebhook [spoiling]]
    rfl
  · rw [reviewed.run_mutators plainWebhook [spoiling, resting]]
    rfl

end Webhook

end AppAdmission
