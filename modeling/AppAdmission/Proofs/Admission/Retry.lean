import AppAdmission.Proofs.Admission.Artifact
import AppAdmission.Proofs.Admission.Frame

/-!
# The built-in chain on its own result

What the chain puts into a document is what it looks for: an App that was given what it lacked
lacks nothing, and one whose extra configuration ends with the reference is left as it is. A request
that was allowed can therefore be sent again with its patch applied. It is allowed once more, with
nothing left to change, and the store keeps its objects apart from the revision of the artifact.
-/

namespace AppAdmission

open Json (Source)

variable {settings : ComplianceSettings} {verb : Verb} {a : App}

namespace Defaults

variable {σ : Type} {env : Environment σ} {s t : σ} {label : Option String}
  {config : Option AppConfig} {access : Option NamespacedRef}

theorem config_filled : (filled a label config access).spec.config = config.or a.spec.config := by
  cases label <;> cases config <;> cases access <;> rfl

theorem kubeConfig_filled : (filled a label config access).spec.kubeConfig =
    access.elim a.spec.kubeConfig fun ref => a.spec.kubeConfig.map fun k => { k with secret := some ref } := by
  cases label <;> cases config <;> cases access <;> rfl

theorem label?_filled (key : String) : (filled a label config access).metadata.label? key =
    (label.elim a (a.withLabel operatorVersionLabel)).metadata.label? key := by
  cases label <;> cases config <;> cases access <;> rfl

theorem label?_withLabel_self {key value : String} (h : a.metadata.labels.isSome = true) :
    (a.withLabel key value).metadata.label? key = some value := by
  obtain ⟨labels, there⟩ := Option.isSome_iff_exists.1 h
  unfold App.withLabel ObjectMeta.label?
  rw [there, Option.map_some, Option.bind_some, OrderedMap.get?_insert_self]

theorem label?_withLabel_ne {key other value : String} (h : other ≠ key) :
    (a.withLabel key value).metadata.label? other = a.metadata.label? other := by
  unfold App.withLabel ObjectMeta.label?
  cases a.metadata.labels with
  | none => rfl
  | some labels => rw [Option.map_some, Option.bind_some, Option.bind_some, OrderedMap.get?_insert_ne _ _ h]

/-- What an App is given does not change its cluster. -/
theorem clusterName?_filled : (filled a label config access).clusterName? = a.clusterName? := by
  unfold App.clusterName?
  rw [label?_filled]
  cases label with
  | none => rfl
  | some version => rw [Option.elim_some, label?_withLabel_ne (by decide)]

theorem newCluster?_filled : newCluster? verb (filled a label config access) = newCluster? verb a := by
  unfold newCluster?
  rw [clusterName?_filled]

/-- An App that was given a configuration, if it lacked one, is given none. -/
theorem configFor_filled : configFor verb (filled a label (configFor verb a) access) = none := by
  unfold configFor
  rw [config_filled, newCluster?_filled]
  cases a.spec.config with
  | some c => simp
  | none => cases newCluster? verb a <;> rfl

/-- An App that was given access data, if it lacked them, is given none. -/
theorem accessFor_filled : accessFor verb (filled a label config (accessFor verb a)) = none := by
  unfold accessFor
  rw [kubeConfig_filled, newCluster?_filled]
  cases new : newCluster? verb a with
  | none => simp
  | some cluster =>
    cases a.spec.kubeConfig with
    | none => rfl
    | some k =>
      by_cases lacks : (!k.inCluster && k.secret.isNone) = true
      · simp [lacks]
      · simp [lacks]

theorem isBeingDeleted_filled : (filled a label config access).isBeingDeleted = a.isBeingDeleted := by
  cases label <;> cases config <;> cases access <;> rfl

/-- The label is looked up in a store that keeps its faults. -/
theorem Labelled.healthy {s t : MemoryStore} (healthy : s.Healthy)
    (h : Labelled MemoryStore.environment verb a s label t) : t.Healthy := by
  cases h with
  | given _ _ found => exact healthy.eval found
  | kept => exact healthy
  | passed => exact healthy

/-- An App that was given its label is given none. -/
theorem Labelled.again {u : σ} (h : Labelled env verb a s label t) :
    Labelled env verb (filled a label config access) u none u := by
  cases h with
  | @given cluster version _ _ isNew _ _ =>
    refine .kept (newCluster?_filled.trans isNew) ?_ u
    have labels := labels_isSome (clusterName?_of_newCluster? isNew)
    rw [label?_filled, Option.elim_some, label?_withLabel_self labels, Option.isSome_some]
  | kept isNew has =>
    refine .kept (newCluster?_filled.trans isNew) ?_ u
    rw [label?_filled, Option.elim_none, has]
  | passed unasked => exact .passed (newCluster?_filled.trans unasked) u

end Defaults

namespace Compliance

open MemoryStore (environment)

variable {extra : Option ExtraConfig} {s t : MemoryStore}

theorem configFor_extended : Defaults.configFor verb (extended a extra) = Defaults.configFor verb a := by
  cases extra <;> rfl

theorem accessFor_extended : Defaults.accessFor verb (extended a extra) = Defaults.accessFor verb a := by
  cases extra <;> rfl

theorem isBeingDeleted_extended : (extended a extra).isBeingDeleted = a.isBeingDeleted := by
  cases extra <;> rfl

/-- Extra configuration has no part in the label. -/
theorem labelled_extended {σ : Type} {env : Environment σ} {s t : σ} {label : Option String}
    (h : Defaults.Labelled env verb a s label t) :
    Defaults.Labelled env verb (extended a extra) s label t := by
  cases extra with
  | none => exact h
  | some e =>
    cases h with
    | given isNew lacks found => exact .given isNew lacks found
    | @kept cluster isNew has =>
      have isNew' : Defaults.newCluster? verb (extended a (some e)) = some cluster := isNew
      exact .kept isNew' has s
    | passed unasked =>
      have unasked' : Defaults.newCluster? verb (extended a (some e)) = none := unasked
      exact .passed unasked' s

/-- Looking up a release does not touch the store. -/
theorem readOnly_releaseVersion (cluster : String) :
    MemoryStore.ReadOnly (ReleaseLookup.releaseVersion cluster) :=
  .bind (.bind (.storeCall (Or.inr rfl)) fun found =>
      .immediate (ReleaseLookup.immediate_single cluster found))
    fun record => .immediate (ReleaseLookup.immediate_releaseOf cluster record)

theorem Settled.eval_mutator {σ : Type} {env : Environment σ} {s t : σ} {state : State}
    {request : AdmissionRequest App}
    (h : Settled env settings request.object request.dryRun s state t) :
    Decision.eval env ((mutator settings).mutate request) s = (.ok state.patch, t) :=
  Decision.eval_bind_of_ok h.eval

/-- An evaluation of what an evaluation left has nothing to append, and changes no more than the
revision of the artifact. -/
theorem Settled.again {state : State} (healthy : s.Healthy)
    (h : Settled environment settings a false s state t) :
    ∃ state' u, Settled environment settings (extended a (state.appends settings a.space)) false
        t state' u ∧
      state'.patch = [] ∧ MemoryStore.AlikeBut (artifactKey settings a.space) u t := by
  cases h with
  | notApplicable outside =>
    exact ⟨.notApplicable, s, .notApplicable outside s, rfl, MemoryStore.Alike.but ⟨rfl, rfl⟩ _⟩
  | alreadyPatched inside last ensured =>
    obtain ⟨u, again, alike⟩ := eval_ensureArtifact_again healthy ensured
    exact ⟨.alreadyPatched, u, .alreadyPatched inside last again, rfl, alike⟩
  | @belowCutoff cluster release _ _ inside other found old =>
    obtain ⟨-, u, again, alike⟩ := (readOnly_releaseVersion cluster).again found
    exact ⟨.belowCutoff release, u, .belowCutoff inside other again old, rfl, alike.but _⟩
  | patchRequired inside _ found _ ensured =>
    obtain ⟨u, again, alike⟩ := eval_ensureArtifact_again (healthy.eval found) ensured
    have last : (a.extraConfigs ++ [canonicalRef settings a.space]).getLast? =
        some (canonicalRef settings a.space) := List.getLast?_concat
    exact ⟨.alreadyPatched, u, .alreadyPatched inside last again, rfl, alike⟩

end Compliance

/-- Two mutators that have nothing to change are allowed without a patch. -/
theorem eval_runMutators_idle {σ T : Type} [Reviewable T] {env : Environment σ} {s u t : σ}
    {first second : Mutator T} {request : AdmissionRequest T} (document : Json)
    (answered : Decision.eval env (first.mutate request) s = (.ok [], u))
    (answered' : Decision.eval env (second.mutate request) u = (.ok [], t)) :
    Decision.eval env (Webhook.runMutators request document [first, second]) s =
      (.ok (.allowed []), t) := by
  have through : Decision.eval env (Webhook.Progress.run ⟨request, document, []⟩ [first, second]) s =
      (.ok ⟨request, document, []⟩, t) :=
    Webhook.eval_run_ok_iff.2 ⟨_, .turn answered rfl (.turn answered' rfl (.done _ _))⟩
  exact Webhook.eval_runMutators_ok_iff.2 ⟨_, through, rfl⟩

/-- The chain on its own result has nothing left to change. -/
theorem eval_builtin_again {request : AdmissionRequest App} {document : Json} {s t : MemoryStore}
    {ops : List Patch.Operation} (healthy : s.Healthy) (r : App.ReadFrom document request.object)
    (wet : request.dryRun = false)
    (ran : Decision.eval MemoryStore.environment
      (Webhook.runMutators request document (builtinMutators settings)) s = (.ok (.allowed ops), t)) :
    ∃ result object u, Patch.apply ops document = .ok result ∧ App.ReadFrom result object ∧
      object.isBeingDeleted = request.object.isBeingDeleted ∧
      Decision.eval MemoryStore.environment (Webhook.runMutators { request with object := object }
        result (builtinMutators settings)) t = (.ok (.allowed []), u) ∧
      MemoryStore.AlikeBut (Compliance.artifactKey settings request.object.space) u t := by
  obtain ⟨⟨label, config, access, extra⟩, state, v, labelled, given, given', settled, appended,
    applied, r'⟩ := eval_builtin_ok r ran
  dsimp only at labelled given given' settled appended
  subst given given'
  rw [wet] at settled
  obtain ⟨state', u, settled', idle, alike⟩ := settled.again (labelled.healthy healthy)
  rw [space_filled, ← appended] at settled'
  rw [space_filled] at alike
  refine ⟨_, _, u, applied, r', ?_, eval_runMutators_idle _ (u := t) ?_ ?_, alike⟩
  · unfold Edits.app
    rw [Compliance.isBeingDeleted_extended, Defaults.isBeingDeleted_filled]
  · refine Defaults.eval_operations_iff.2 ⟨none, Compliance.labelled_extended labelled.again, ?_⟩
    unfold Edits.app
    rw [Compliance.configFor_extended, Compliance.accessFor_extended, Defaults.accessFor_filled]
    rw [Defaults.configFor_filled]
    rfl
  · rw [← idle]
    refine Compliance.Settled.eval_mutator ?_
    rw [wet]
    exact settled'

/-- The request with a document in the place of its object. -/
def ReviewRequest.withObject (wire : ReviewRequest) (document : Json) : ReviewRequest :=
  { wire with object := some document }

/-- A document from which an App is read is the object of the request that carries it. -/
theorem App.ReadFrom.object? {document : Json} (r : App.ReadFrom document a) (wire : ReviewRequest) :
    Webhook.object? App (wire.withObject document) = some a := by
  have read := r.read
  unfold Webhook.object? ReviewRequest.withObject
  cases document with
  | null => cases read
  | bool _ | num _ | str _ | arr _ | obj _ => exact read

/-- **A retry changes nothing.** A request that writes, is no dry run and was allowed is sent again
with its patch applied to its document, to the store as it left it. It is allowed without a patch,
and the store then holds the same objects, apart from the revision of the artifact. Documents that
arrive are free, see `ReviewRequest.canonicalB_object`. -/
theorem decide_builtin_retry {wire : ReviewRequest} {document : Json} {s t : MemoryStore}
    {outcome : Outcome} {response : ReviewResponse} (healthy : s.Healthy)
    (writes : wire.operation.writes = true) (wet : wire.dryRun ≠ some true)
    (came : wire.object = some document) (free : document.canonicalB = true)
    (ran : (Webhook.decide (mutatingWebhook settings).chain wire).run MemoryStore.environment s =
      ((outcome, response), t))
    (allowed : response.allowed = true) :
    ∃ object ops result u, App.decode (.ofJson document) = some object ∧
      response = (ReviewResponse.allow wire.uid).withPatch ops ∧
      Patch.apply ops document = .ok result ∧
      (Webhook.decide (mutatingWebhook settings).chain (wire.withObject result)).run
        MemoryStore.environment t = ((.successful, .allow wire.uid), u) ∧
      MemoryStore.AlikeBut (Compliance.artifactKey settings object.space) u t := by
  have writes' (result : Json) : (wire.withObject result).operation.writes = true := writes
  cases given : Webhook.object? App wire with
  | none =>
    obtain ⟨reason, unread⟩ := Webhook.readRequest_of_none given
    rw [Webhook.run_decide_unread writes unread] at ran
    cases ran
    cases allowed
  | some object =>
    obtain ⟨document', came', decoded⟩ := Webhook.exists_document given
    rw [came] at came'
    cases came'
    have r : App.ReadFrom document object := ⟨free, decoded⟩
    have read := Webhook.readRequest_of_object came given
    cases deleted : object.isBeingDeleted with
    | true =>
      rw [Webhook.run_decide_deleted writes read deleted] at ran
      cases ran
      refine ⟨object, [], document, s, decoded, rfl, rfl, ?_, MemoryStore.Alike.but ⟨rfl, rfl⟩ _⟩
      have again := Webhook.readRequest_of_object rfl (r.object? wire)
      exact Webhook.run_decide_deleted (writes' document) again deleted s
    | false =>
      obtain ⟨ops, chain, answer⟩ :=
        Webhook.run_decide_allowed writes read deleted ran allowed
      have through : Decision.eval MemoryStore.environment (Webhook.runMutators
          (Webhook.requestFor wire object) document (builtinMutators settings)) s =
            (.ok (.allowed ops), t) := by
        rw [← Webhook.runChain_mutating wet]
        exact chain
      obtain ⟨result, object', u, applied, r', kept, idle, alike⟩ :=
        eval_builtin_again healthy r (Webhook.dryRun_requestFor wet) through
      refine ⟨object, ops, result, u, decoded, answer, applied, ?_, alike⟩
      have again := Webhook.readRequest_of_object rfl (r'.object? wire)
      refine (Webhook.run_decide_mutating (writes' result) wet again (kept.trans deleted) t).trans ?_
      exact congrArg (fun out => (Webhook.conclude wire.uid out.1, out.2)) idle

/-- The App of the sample is edited once: the first request has a patch and creates the artifact, the
second one has no patch. -/
theorem decide_builtin_retry_sample :
    ∃ (ops : List Patch.Operation) (result : Json) (t u : MemoryStore), ops ≠ [] ∧
      Patch.apply ops sampleDocument = .ok result ∧
      (t.objects.get? (Compliance.artifactKey sampleSettings "ns")).isSome = true ∧
      (Webhook.decide (mutatingWebhook sampleSettings).chain (sampleRequest.withObject result)).run
        MemoryStore.environment t = ((.successful, .allow "u"), u) ∧
      MemoryStore.AlikeBut (Compliance.artifactKey sampleSettings "ns") u t := by
  have facts : ∀ out, (Webhook.decide (mutatingWebhook sampleSettings).chain sampleRequest).run
      MemoryStore.environment sampleStore = out → out.1.2.allowed = true ∧ out.1.2.patch.isSome = true ∧
        (out.2.objects.get? (Compliance.artifactKey sampleSettings "ns")).isSome = true := by
    rintro _ rfl
    decide +kernel
  rcases ran : (Webhook.decide (mutatingWebhook sampleSettings).chain sampleRequest).run
    MemoryStore.environment sampleStore with ⟨⟨outcome, response⟩, t⟩
  obtain ⟨admitted, edited, created⟩ := facts _ ran
  obtain ⟨object, ops, result, u, decoded, answer, applied, again, alike⟩ :=
    decide_builtin_retry (fun _ _ => rfl) rfl (by decide) rfl (by decide +kernel) ran admitted
  have read : App.decode (.ofJson sampleDocument) = some sampleApp := rfl
  obtain rfl : sampleApp = object := Option.some.inj (read.symm.trans decoded)
  refine ⟨ops, result, t, u, ?_, applied, created, again, alike⟩
  rintro rfl
  rw [answer] at edited
  cases edited

end AppAdmission
