import AppAdmission.Admission.Builtin
import AppAdmission.Proofs.Admission.Compliance
import AppAdmission.Proofs.Admission.Defaults
import AppAdmission.Proofs.Admission.Tracking

/-!
# What the built-in mutating chain does to a document

The chain edits four places of a document and no others. `Edits` says what is put where; the effects
of the two handlers, one after the other on the same document, make up the effect of the chain.
-/

namespace AppAdmission

open Json (Source)

variable {σ : Type} {env : Environment σ} {settings : ComplianceSettings} {s t : σ}

/-- What is put at the four places of an App's document: a label, a configuration, access data, and a
reference at the end of the extra configuration. -/
structure Edits where
  label : Option String
  config : Option AppConfig
  access : Option NamespacedRef
  extra : Option ExtraConfig

namespace Edits

/-- The document with the edits. -/
def on (e : Edits) (doc : Json) : Json :=
  (Defaults.filledIn doc e.label e.config e.access).putIf App.extrasPlace
    (e.extra.map fun x => .arr (Compliance.extraItems doc ++ [x.toJson]))

/-- The App with the edits. -/
def app (e : Edits) (a : App) : App :=
  Compliance.extended (Defaults.filled a e.label e.config e.access) e.extra

/-- The places that are edited. -/
def places : List (List String) :=
  [App.labelPlace, App.configPlace, App.accessPlace, App.extrasPlace]

end Edits

theorem Json.at?_putIf_of_apart {place path : List String} (h : Json.Apart place path) (doc : Json)
    (value : Option Json) : (doc.putIf place value).at? path = doc.at? path := by
  cases value with
  | none => rfl
  | some value => exact Json.at?_put_of_apart h doc value

/-- Apart from the places that are edited a document stays as it is. -/
theorem Edits.at?_on {path : List String} (h : ∀ place ∈ places, Json.Apart place path) (e : Edits)
    (doc : Json) : (e.on doc).at? path = doc.at? path := by
  unfold on Defaults.filledIn
  rw [Json.at?_putIf_of_apart (h App.extrasPlace (by decide)),
    Json.at?_putIf_of_apart (h App.accessPlace (by decide)),
    Json.at?_putIf_of_apart (h App.configPlace (by decide)),
    Json.at?_putIf_of_apart (h App.labelPlace (by decide))]

/-- What the first handler puts in leaves the extra configuration as it is. -/
theorem extraItems_filledIn (doc : Json) (label : Option String) (config : Option AppConfig)
    (access : Option NamespacedRef) :
    Compliance.extraItems (Defaults.filledIn doc label config access) = Compliance.extraItems doc := by
  unfold Compliance.extraItems Defaults.filledIn
  rw [Json.at?_putIf_of_apart (by decide), Json.at?_putIf_of_apart (by decide),
    Json.at?_putIf_of_apart (by decide)]

theorem Edits.extendedIn_filledIn (doc : Json) (label : Option String) (config : Option AppConfig)
    (access : Option NamespacedRef) (extra : Option ExtraConfig) :
    Compliance.extendedIn (Defaults.filledIn doc label config access) extra =
      (Edits.mk label config access extra).on doc := by
  cases extra with
  | none => rfl
  | some x =>
    unfold Compliance.extendedIn Edits.on
    rw [Option.elim_some, extraItems_filledIn]
    rfl

theorem space_filled (a : App) (label : Option String) (config : Option AppConfig)
    (access : Option NamespacedRef) : (Defaults.filled a label config access).space = a.space := by
  cases label <;> cases config <;> cases access <;> rfl

/-- A chain of two mutators that goes through is two runs, the second one on the document and the
object that the first one left. -/
theorem eval_runMutators_pair {T : Type} [Reviewable T] {first second : Mutator T}
    {request : AdmissionRequest T} {document : Json} {ops : List Patch.Operation}
    (holds : Reviewable.decode (Source.ofJson document) = some request.object)
    (ran : Decision.eval env (Webhook.runMutators request document [first, second]) s =
      (.ok (.allowed ops), t)) :
    ∃ ops1 ops2 mid result object u,
      Decision.eval env (first.mutate request) s = (.ok ops1, u) ∧
      Patch.apply ops1 document = .ok mid ∧ Reviewable.decode (Source.ofJson mid) = some object ∧
      Decision.eval env (second.mutate { request with object := object }) u = (.ok ops2, t) ∧
      Patch.apply ops2 mid = .ok result ∧ ops = ops1 ++ ops2 := by
  obtain ⟨last, through, same⟩ := Webhook.eval_runMutators_ok_iff.1 ran
  cases same
  obtain ⟨turns, course⟩ := Webhook.eval_run_ok_iff.1 through
  cases course with
  | turn answered accepted onward =>
    obtain ⟨rfl, applied, grown, same, fresh⟩ := Webhook.eval_accept_ok accepted
    cases onward with
    | turn answered' accepted' onward' =>
      obtain ⟨rfl, applied', grown', -, -⟩ := Webhook.eval_accept_ok accepted'
      cases onward' with
      | done =>
        rw [same] at answered'
        refine ⟨_, _, _, _, _, _, answered, applied, fresh rfl holds, answered', applied', ?_⟩
        rw [grown', grown]
        rfl

/-- **The built-in chain makes its edits.** The operations of a chain that goes through turn the
document into the one with the edits, from which the App with the edits is read. -/
theorem eval_builtin_ok {request : AdmissionRequest App} {document : Json}
    {ops : List Patch.Operation} (r : App.ReadFrom document request.object)
    (ran : Decision.eval env (Webhook.runMutators request document (builtinMutators settings)) s =
      (.ok (.allowed ops), t)) :
    ∃ (e : Edits) (state : Compliance.State) (u : σ),
      Defaults.Labelled env request.operation request.object s e.label u ∧
      e.config = Defaults.configFor request.operation request.object ∧
      e.access = Defaults.accessFor request.operation request.object ∧
      Compliance.Settled env settings
        (Defaults.filled request.object e.label e.config e.access) request.dryRun u state t ∧
      e.extra = state.appends settings request.object.space ∧
      Patch.apply ops document = .ok (e.on document) ∧
      App.ReadFrom (e.on document) (e.app request.object) := by
  obtain ⟨ops1, ops2, mid, result, object, u, answered, applied, decoded, answered', applied', rfl⟩ :=
    eval_runMutators_pair r.read ran
  obtain ⟨label, labelled, rfl⟩ := Defaults.eval_operations_iff.1 answered
  obtain ⟨rfl, r'⟩ := Defaults.patchFor_effect r applied
  obtain rfl : Defaults.filled request.object label (Defaults.configFor request.operation
      request.object) (Defaults.accessFor request.operation request.object) = object :=
    Option.some.inj (r'.read.symm.trans decoded)
  obtain ⟨state, v, evaluated, rest⟩ := Decision.eval_bind_ok_iff.1 answered'
  obtain ⟨rfl, rfl⟩ := Decision.eval_pure_ok_iff.1 rest
  have settled := Compliance.Settled.of_eval evaluated
  obtain ⟨edited, r''⟩ := settled.effect r' applied'
  rw [space_filled, Edits.extendedIn_filledIn] at edited
  rw [space_filled] at r''
  refine ⟨⟨label, Defaults.configFor request.operation request.object,
    Defaults.accessFor request.operation request.object,
    state.appends settings request.object.space⟩, state, u, labelled, rfl, rfl, settled, rfl, ?_, ?_⟩
  · exact (Patch.apply_append_of_ok applied).trans (applied'.trans (congrArg Except.ok edited))
  · rw [← edited]
    exact r''

end AppAdmission
