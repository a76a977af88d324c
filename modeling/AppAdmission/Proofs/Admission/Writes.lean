import AppAdmission.Proofs.Admission.History
import AppAdmission.Proofs.Admission.Reply
import AppAdmission.Proofs.Admission.Retry
import AppAdmission.Proofs.Store.Wavering

/-!
# What requests write

The one thing that requests write is the artifact. Where it is there already, it is put back under the
name that was read from the store, which is the name that was asked for. Everything else that a store
holds stays as it is, whatever is made to fail and whenever requests are given up.
-/

namespace AppAdmission

open MemoryStore (wavering)

variable {settings : ComplianceSettings} {key : StoreKey} {x : MemoryStore × List Interest}

/-- What keeps an object in whatever store passes from steps to the whole. -/
theorem Decision.keeps_closed : Closed fun _ d => ∀ x, Keeps key d x where
  pure a := .immediate (.pure a)
  bind first rest x := .bind (first x) fun a y _ => rest a y
  throw e := .immediate (.throw e)

namespace Compliance

theorem keeps_refreshArtifact {space : String} (other : key ≠ artifactKey settings space)
    (x : MemoryStore × List Interest) :
    (refreshArtifact (artifact settings space) space).Keeps key x := by
  unfold refreshArtifact
  refine .bind (.storeCall (fun _ given => by cases given) _ x) fun current y ran => ?_
  -- the metadata that is written back is that of the object which was asked for
  have found : StoreKey.of .configMap current = artifactKey settings space :=
    MemoryStore.key_of_answer_get (Decision.eval_storeCall_wavering ran)
  refine .bind (.storeCall (fun o given => ?_) _ y) fun _ z _ => .immediate (.pure ()) z
  cases given
  exact fun same => other (same.trans found)

theorem keeps_ensureArtifact {space : String} {dryRun : Bool}
    (other : dryRun = false → key ≠ artifactKey settings space) (x : MemoryStore × List Interest) :
    (ensureArtifact settings space dryRun).Keeps key x := by
  cases dryRun with
  | true => exact .immediate (.pure ()) x
  | false =>
    have apart := other rfl
    unfold ensureArtifact
    simp only [Bool.false_eq_true, if_false]
    refine .bind (.ensureActive _ x) fun _ y _ => ?_
    refine .bind (.tryCall (fun o given => ?_) _ y) fun reply z _ => ?_
    · cases given
      exact apart
    · match reply with
      | .ok _ => exact .immediate (.pure ()) z
      | .error (.alreadyExists _ _) => exact keeps_refreshArtifact apart z
      | .error (.notFound _ _) => exact .immediate (.throw _) z
      | .error (.backend _) => exact .immediate (.throw _) z

/-- An evaluation writes only where the baseline is for the App, and only the artifact of its
namespace. -/
theorem keeps_evaluate {a : App} {dryRun : Bool}
    (other : applicableCluster? settings a ≠ none → dryRun = false → key ≠ artifactKey settings a.space)
    (x : MemoryStore × List Interest) : (evaluate settings a dryRun).Keeps key x := by
  by_cases outside : applicableCluster? settings a = none
  · unfold evaluate
    rw [outside]
    exact .immediate (.pure _) x
  · exact evaluate_of_composable Decision.keeps_closed.toComposable
      (fun cluster => .looking (ReleaseLookup.looking_releaseVersion cluster))
      (keeps_ensureArtifact (other outside)) x

theorem applicableCluster?_filled {a : App} {label : Option String} {config : Option AppConfig}
    {access : Option NamespacedRef} : applicableCluster? settings
      (Defaults.filled a label config access) = applicableCluster? settings a := by
  unfold applicableCluster?
  rw [Defaults.clusterName?_filled]

/-- The baseline is for Apps with a cluster on the providers that are named. -/
theorem applicableCluster?_ne_none_iff {a : App} : applicableCluster? settings a ≠ none ↔
    settings.provider ∈ settings.vintageProviders ∧
      ∃ cluster, a.metadata.label? clusterLabel = some cluster ∧ cluster ≠ "" := by
  unfold applicableCluster? App.clusterName?
  by_cases vintage : settings.provider ∈ settings.vintageProviders
  · simp [vintage]
  · simp [vintage]

end Compliance

namespace Webhook

open Compliance (applicableCluster? artifactKey)

/-- The mutating chain writes only where the baseline is for the App as it came. -/
theorem keeps_runMutators {request : AdmissionRequest App} {document : Json}
    (r : App.ReadFrom document request.object)
    (other : applicableCluster? settings request.object ≠ none → request.dryRun = false →
      key ≠ artifactKey settings request.object.space) (x : MemoryStore × List Interest) :
    (runMutators request document (builtinMutators settings)).Keeps key x := by
  refine .bind ?_ fun _ y _ => .immediate (.pure _) y
  refine .bind (.looking (Defaults.looking_operations _ _) x) fun ops y answered => ?_
  refine .bind (accept_of_closed Decision.keeps_closed _ _ _ _ y) fun q z accepted => ?_
  obtain ⟨rfl, applied, -, same, fresh⟩ := eval_accept_ok accepted
  -- what the first handler puts in changes neither the cluster of the App nor its namespace
  obtain ⟨label, -, rfl⟩ := Defaults.eval_operations_iff.1 answered
  obtain ⟨-, r'⟩ := Defaults.patchFor_effect r applied
  have object : q.request.object = Defaults.filled request.object label
      (Defaults.configFor request.operation request.object)
      (Defaults.accessFor request.operation request.object) :=
    Option.some.inj ((fresh rfl r.read).symm.trans r'.read)
  have dryRun : q.request.dryRun = request.dryRun := by rw [same]
  have evaluated : (Compliance.evaluate settings q.request.object q.request.dryRun).Keeps key y := by
    refine Compliance.keeps_evaluate ?_ y
    rw [object, dryRun, Compliance.applicableCluster?_filled, space_filled]
    exact other
  refine .bind (.bind evaluated fun _ z _ => .immediate (.pure _) z) fun _ z _ => ?_
  refine .bind (accept_of_closed Decision.keeps_closed _ _ _ _ z) fun _ u _ => ?_
  exact .immediate (.pure _) u

/-- The validating chain writes nothing. -/
theorem keeps_runValidators (policy : PolicyConfig) (request : AdmissionRequest App)
    (x : MemoryStore × List Interest) :
    (runValidators request (builtinValidators policy)).Keeps key x := by
  refine runValidators_of_composable Decision.keeps_closed.toComposable (fun v there => ?_) x
  rcases List.mem_cons.1 there with rfl | there
  · exact .immediate (.pure _)
  · obtain rfl := List.mem_singleton.1 there
    exact .looking (looking_catalogValidator request)

section Handled

variable {T : Type} [Reviewable T]

/-- A decision keeps what its chain keeps, if its handlers are to run. -/
theorem get?_decide {chain : Chain T} {wire : ReviewRequest}
    (keeps : ∀ object document, Handled chain wire object document →
      (runChain chain (requestFor wire object) document).Keeps key x) :
    ((decide chain wire).run wavering x).2.1.objects.get? key = x.1.objects.get? key := by
  by_cases writes : wire.operation.writes = true
  · cases read : object? T wire with
    | none =>
      obtain ⟨reason, unread⟩ := readRequest_of_none read
      rw [run_decide_unread writes unread]
    | some object =>
      obtain ⟨document, came, -⟩ := exists_document read
      have read' := readRequest_of_object came read
      cases deleted : Reviewable.isBeingDeleted object with
      | true => rw [run_decide_deleted writes read' deleted]
      | false =>
        rw [run_decide_chain writes read' deleted]
        by_cases dry : ∃ ms, chain = .mutating ms ∧ wire.dryRun = some true
        · obtain ⟨ms, rfl, dryRun⟩ := dry
          have nothing : runChain (.mutating ms) (requestFor wire object) document =
              pure (.allowed []) := by
            simp [runChain, requestFor, dryRun]
          rw [nothing, Decision.eval_pure]
        · refine keeps object document ⟨writes, came, read, deleted, fun ms mutating dryRun => ?_⟩
          exact dry ⟨ms, mutating, dryRun⟩
  · rw [run_decide_reading (Bool.eq_false_iff.2 writes)]

/-- A webhook keeps what its chain keeps, if a request is read and its handlers are to run. -/
theorem get?_handle {w : Webhook T} {contentType : Option String} {body : List UInt8}
    (keeps : ∀ review wire object document, IsJson contentType →
      AdmissionReview.ofBytes? body = some review → review.request = some wire →
      Handled w.chain wire object document →
      (runChain w.chain (requestFor wire object) document).Keeps key x) :
    ((handle w contentType body).run wavering x).2.1.objects.get? key = x.1.objects.get? key := by
  by_cases json : IsJson contentType
  · by_cases full : ∃ review wire, AdmissionReview.ofBytes? body = some review ∧
        review.request = some wire
    · obtain ⟨review, wire, read, given⟩ := full
      have kept := get?_decide fun object document => keeps review wire object document json read given
      rcases ran : (decide w.chain wire).run wavering x with ⟨⟨outcome, response⟩, y⟩
      rw [run_handle_read json read given ran]
      rw [ran] at kept
      exact kept
    · obtain ⟨message, ran⟩ : ∃ message, (handle w contentType body).run wavering x =
          ((.invalidRequest, clientError 400 message), x) :=
        run_handle_unread json (no_request_iff.2 full) x
      rw [ran]
  · rw [run_handle_unsupported json]

end Handled

end Webhook

namespace Delivery

variable (policy : PolicyConfig)

/-- The delivery calls for the artifact in the namespace of an App: it asks the mutating webhook to
create or update the App, which is not being torn down, for good; the App names a cluster, and the
baseline is for the provider. -/
structure CallsFor (settings : ComplianceSettings) (d : Delivery) (app : App) : Prop where
  mutating : d.mutating = true
  json : Webhook.IsJson d.contentType
  request : ∃ review wire, AdmissionReview.ofBytes? d.body = some review ∧
    review.request = some wire ∧ (wire.operation = .create ∨ wire.operation = .update) ∧
    wire.dryRun ≠ some true ∧ Webhook.object? App wire = some app
  kept : app.isBeingDeleted = false
  cluster : ∃ cluster, app.metadata.label? clusterLabel = some cluster ∧ cluster ≠ ""
  vintage : settings.provider ∈ settings.vintageProviders

/-- What a delivery does not call for stays as it is. -/
theorem get?_answer {d : Delivery}
    (other : ∀ app, d.CallsFor settings app → key ≠ Compliance.artifactKey settings app.space) :
    ((d.answer policy settings).run wavering x).2.1.objects.get? key = x.1.objects.get? key := by
  cases mutating : d.mutating with
  | false =>
    have sent : d.answer policy settings =
        Webhook.handle (validatingWebhook policy) d.contentType d.body := by
      simp [answer, mutating]
    rw [sent]
    refine Webhook.get?_handle fun _ wire object _ _ _ _ _ => ?_
    exact Webhook.keeps_runValidators policy (Webhook.requestFor wire object) x
  | true =>
    have sent : d.answer policy settings =
        Webhook.handle (mutatingWebhook settings) d.contentType d.body := by
      simp [answer, mutating]
    rw [sent]
    refine Webhook.get?_handle fun review wire object document json read given handled => ?_
    have wet : wire.dryRun ≠ some true := handled.free _ rfl
    show (Webhook.runChain (.mutating (builtinMutators settings)) _ _).Keeps key x
    rw [Webhook.runChain_mutating wet]
    obtain ⟨document', came, decoded⟩ := Webhook.exists_document handled.read
    obtain rfl := Option.some.inj (handled.came.symm.trans came)
    have free : document.canonicalB = true := by
      obtain ⟨source, -, read⟩ := Option.bind_eq_some_iff.1 read
      exact AdmissionReview.canonicalB_object read given came
    refine Webhook.keeps_runMutators ⟨free, decoded⟩ (fun applicable _ => ?_) x
    obtain ⟨vintage, cluster⟩ := Compliance.applicableCluster?_ne_none_iff.1 applicable
    refine other object ⟨mutating, json, ⟨review, wire, read, given, ?_, wet, handled.read⟩,
      handled.kept, cluster, vintage⟩
    have writes := handled.writes
    cases verb : wire.operation <;> simp [verb, Verb.writes] at writes ⊢

/-- **Only artifacts are written.** Whatever is delivered to the two webhooks over whatever store, with
any of its operations made to fail and any requests given up at any of their questions, every object
that is no config map with the name of the artifact stays as it is, its revision too. A delivery that
changes anything asks the mutating webhook, for good, to create or update an App that is not being torn
down and that names a cluster, on a provider that the baseline is for, and it changes the artifact in
the namespace of this App alone. -/
theorem deliveries_write_artifacts (settings : ComplianceSettings) :
    (∀ (ds : List Delivery) (x : MemoryStore × List Interest) (key : StoreKey),
      (key.kind = .configMap → key.name ≠ settings.artifactName) →
      ((ds.mapM (answer policy settings)).run wavering x).2.1.objects.get? key =
        x.1.objects.get? key) ∧
    ∀ (d : Delivery) (x : MemoryStore × List Interest) (key : StoreKey),
      ((d.answer policy settings).run wavering x).2.1.objects.get? key ≠ x.1.objects.get? key →
      ∃ app, d.CallsFor settings app ∧ key = Compliance.artifactKey settings app.space := by
  constructor
  · intro ds x key other
    have apart : ∀ space, key ≠ Compliance.artifactKey settings space := by
      rintro space rfl
      exact other rfl rfl
    induction ds generalizing x with
    | nil => rfl
    | cons d rest ih =>
      rw [List.mapM_cons, Program.bind_eq, Program.run_bind, Program.bind_eq, Program.run_bind]
      exact (ih _).trans (get?_answer policy fun app _ => apart app.space)
  · intro d x key changed
    by_contra none
    refine changed (get?_answer policy fun app calls same => ?_)
    exact none ⟨app, calls, same⟩

/-- Deliveries that stay wanted leave the store that they leave when they are served. -/
theorem left_wavering_nil (ds : List Delivery) (s : MemoryStore) :
    ((ds.mapM (answer policy settings)).run wavering (s, [])).2.1 =
      (serve policy settings ds s).2 := by
  rw [MemoryStore.run_wavering_nil]
  rfl

/-- The sample App is created and judged: its cluster stays as it is, and what changes is the artifact in
the namespace of an App that it was called for. -/
theorem deliveries_write_artifacts_sample :
    (serve {} sampleSettings [sample true, sample false] sampleStore).2.objects.get?
        ⟨.cluster, "", "c1"⟩ = sampleStore.objects.get? ⟨.cluster, "", "c1"⟩ ∧
      (serve {} sampleSettings [sample true, sample false] sampleStore).2.objects.get?
          (Compliance.artifactKey sampleSettings "ns") ≠
        sampleStore.objects.get? (Compliance.artifactKey sampleSettings "ns") ∧
      ∃ app, (sample true).CallsFor sampleSettings app ∧
        Compliance.artifactKey sampleSettings "ns" =
          Compliance.artifactKey sampleSettings app.space := by
  obtain ⟨keeps, calls⟩ := deliveries_write_artifacts {} sampleSettings
  have kept := keeps [sample true, sample false] (sampleStore, []) ⟨.cluster, "", "c1"⟩ nofun
  rw [left_wavering_nil] at kept
  have changed : ((answer {} sampleSettings (sample true)).run wavering
        (sampleStore, [])).2.1.objects.get? (Compliance.artifactKey sampleSettings "ns") ≠
      sampleStore.objects.get? (Compliance.artifactKey sampleSettings "ns") := by
    decide +kernel
  exact ⟨kept, by decide +kernel, calls _ (sampleStore, []) _ changed⟩

end Delivery

end AppAdmission
