import AppAdmission.Admission.Builtin
import AppAdmission.Proofs.Admission.Compliance

/-!
# From handlers to chains

A property of decisions that passes from steps to the whole and holds of what is decided at once holds
of a chain if it holds of its handlers, and of the built-in handlers if it holds of what they ask for.
-/

namespace AppAdmission

/-- A property of decisions that passes from steps to the whole and holds of what is decided at once. -/
structure Decision.Closed (P : (α : Type) → Decision α → Prop) : Prop
    extends Decision.Composable P where
  throw {α : Type} (e : AdmissionError) : P α (MonadExcept.throw e)

theorem Decision.Closed.immediate {P : (α : Type) → Decision α → Prop} (closed : Decision.Closed P)
    {α : Type} {d : Decision α} (immediate : d.Immediate) : P α d := by
  obtain ⟨e | a, rfl⟩ := immediate
  · exact closed.throw e
  · exact closed.pure a

variable {P : (α : Type) → Decision α → Prop}

/-- Defaults look up at most the version of the operator. -/
theorem Defaults.operations_of_composable (composable : Decision.Composable P)
    (look : ∀ cluster, P _ (operatorVersion cluster)) (operation : Verb) (a : App) :
    P _ (operations operation a) := by
  unfold operations
  split
  · exact composable.pure _
  · split
    · exact composable.pure _
    · refine composable.bind ?_ fun _ => composable.pure _
      unfold label
      split
      · exact composable.pure _
      · exact composable.bind (look _) fun _ => composable.pure _

namespace Webhook

variable {T : Type} {request : AdmissionRequest T}

theorem runValidators_of_composable (composable : Decision.Composable P) {vs : List (Validator T)}
    (each : ∀ v ∈ vs, P _ (v.validate request)) : P _ (runValidators request vs) := by
  induction vs with
  | nil => exact composable.pure _
  | cons v rest ih =>
    have others := ih fun w there => each w (List.mem_cons_of_mem v there)
    refine composable.bind (each v List.mem_cons_self) fun verdict => ?_
    cases verdict with
    | deny reason => exact composable.pure _
    | allow | abstain => exact others

variable [Reviewable T]

theorem accept_of_closed (closed : Decision.Closed P) (p : Progress T) (isLast : Bool)
    (handler : String) (ops : List Patch.Operation) : P _ (p.accept isLast handler ops) := by
  unfold Progress.accept
  split
  · exact closed.pure _
  · refine closed.bind ?_ fun document => closed.bind ?_ fun _ => closed.pure _
    · unfold patched
      split
      · exact closed.pure _
      · exact closed.throw _
    · unfold reread
      split
      · exact closed.pure _
      · exact closed.bind (closed.immediate (.converted _)) fun _ => closed.pure _

theorem run_of_closed (closed : Decision.Closed P) {ms : List (Mutator T)}
    (each : ∀ m ∈ ms, ∀ request, P _ (m.mutate request)) (p : Progress T) : P _ (p.run ms) := by
  induction ms generalizing p with
  | nil => exact closed.pure p
  | cons m rest ih =>
    refine closed.bind (each m List.mem_cons_self p.request) fun ops => ?_
    refine closed.bind (accept_of_closed closed p _ _ _) fun q => ?_
    exact ih (fun n there => each n (List.mem_cons_of_mem m there)) q

theorem runMutators_of_closed (closed : Decision.Closed P) {ms : List (Mutator T)}
    (each : ∀ m ∈ ms, ∀ request, P _ (m.mutate request)) (request : AdmissionRequest T)
    (document : Json) : P _ (runMutators request document ms) :=
  closed.bind (run_of_closed closed each _) fun _ => closed.pure _

end Webhook

end AppAdmission
