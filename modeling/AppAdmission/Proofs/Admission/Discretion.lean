import AppAdmission.Proofs.Admission.Handlers
import AppAdmission.Proofs.Admission.History
import AppAdmission.Proofs.Agreement
import AppAdmission.Proofs.Metrics.Accounting
import AppAdmission.Proofs.Resource.Stored

/-!
# What a reply keeps to itself

Two stores are told apart by their replies only through what they answer, not through the errors with
which they fail, nor through a release label that no release can be read from. The one exception is the
creation of the artifact, which fails in its own way if the artifact is there.
-/

namespace AppAdmission

/-- The error says that the object is there already. -/
def StoreError.SaysExists : StoreError → Prop
  | alreadyExists _ _ => True
  | notFound _ _ | backend _ => False

/-- The release label is missing or blank, or no version can be read from it. -/
def StoredObject.NamesNoRelease (o : StoredObject) : Prop :=
  ∀ raw, o.metadata.label? releaseVersionLabel = some raw →
    (Text.trim raw.toList).isEmpty = true ∨ ∃ e, Version.read raw = .error e

/-- Events that differ in nothing but what a backend keeps to itself.

* `same`: the same happened;
* `failed`: the same call failed, with any errors, but of a creation both say that the object is there, or
  neither does;
* `unreleased`: the one record of a cluster was found, and it differs in its labels, but either way it
  names no release. -/
inductive Event.Alike : Event → Event → Prop where
  | same (e : Event) : Alike e e
  | failed {c : StoreCall} {e e' : StoreError} (there : c.op = .create → (e.SaysExists ↔ e'.SaysExists)) :
      Alike (.called c (some (.error e))) (.called c (some (.error e')))
  | unreleased {filter : ListFilter} {o : StoredObject} {labels labels' : Option (Dict String)}
      (bad : (o.relabelled labels).NamesNoRelease) (bad' : (o.relabelled labels').NamesNoRelease) :
      Alike (.called (.list .cluster filter) (some (.ok [o.relabelled labels])))
        (.called (.list .cluster filter) (some (.ok [o.relabelled labels'])))

/-- No release can be read from the record of the cluster. -/
def Cluster.Unreleased (record : Cluster) : Prop :=
  ∀ raw, record.releaseLabel? = some raw → ∃ e, Version.read raw = .error e

/-- A record that is read from an object with other labels names no release if the object does not. -/
theorem StoredObject.NamesNoRelease.unreleased {o : StoredObject} {labels : Option (Dict String)}
    (bad : (o.relabelled labels).NamesNoRelease) (m : ObjectMeta) :
    Cluster.Unreleased { metadata := m.relabelled labels } := by
  intro raw labelled
  obtain ⟨there, solid⟩ := Option.filter_eq_some_iff.1 labelled
  rcases bad raw there with blank | unread
  · rw [blank] at solid
    cases solid
  · exact unread

namespace Decision

variable {α β : Type}

/-- Whatever alike events a decision goes through, what comes of it is the same, as far as it is shown. -/
def Discreet (d : Decision α) : Prop := d.Agree Event.Alike Eq d

namespace Discreet

theorem closed : Closed fun _ d => Discreet d where
  pure _ := Agree.pure rfl
  bind first rest := Agree.bind first fun _ _ same => same ▸ rest _
  throw _ := Agree.throw rfl

theorem ensureActive (operation : String) : Discreet (Decision.ensureActive operation) := by
  refine .poll fun b b' answers => ?_
  cases answers
  cases b with
  | true => exact .done (.error rfl)
  | false => exact .done (.ok rfl)

end Discreet

/-- The replies to a call are alike if the events are. -/
theorem agree_tryCall (operation : String) (c : StoreCall) :
    (tryCall operation c).Agree Event.Alike
      (fun reply reply' => Event.Alike (.called c (some reply)) (.called c (some reply')))
      (tryCall operation c) := by
  refine Agree.bind (Discreet.ensureActive operation) fun _ _ _ => ?_
  refine .call fun reply reply' answers => .done ?_
  cases answers with
  | same =>
    cases reply with
    | none => exact .error rfl
    | some reply => exact .ok (.same _)
  | failed there => exact .ok (.failed there)
  | unreleased bad bad' => exact .ok (.unreleased bad bad')

/-- Two failures of a call look the same. -/
theorem agree_storeCall (operation : String) (c : StoreCall) :
    (storeCall operation c).Agree Event.Alike
      (fun answer answer' => Event.Alike (.called c (some (.ok answer))) (.called c (some (.ok answer'))))
      (storeCall operation c) := by
  refine Agree.bind (agree_tryCall operation c) fun reply reply' answers => ?_
  cases answers with
  | same =>
    cases reply with
    | error e => exact Agree.throw rfl
    | ok answer => exact Agree.pure (.same _)
  | failed there => exact Agree.throw rfl
  | unreleased bad bad' => exact Agree.pure (.unreleased bad bad')

/-- Only the records of clusters may differ. -/
theorem Discreet.storeCall (operation : String) {c : StoreCall}
    (other : ∀ filter, c ≠ .list .cluster filter) : Discreet (Decision.storeCall operation c) := by
  refine (agree_storeCall operation c).mono fun answer answer' answers => ?_
  cases answers with
  | same => rfl
  | unreleased => exact absurd rfl (other _)

end Decision

namespace ReleaseLookup

open Decision (Discreet)

/-- Records of a cluster that are the same or both name no release. -/
def RecordsAlike (record record' : Cluster) : Prop :=
  record = record' ∨ record.Unreleased ∧ record'.Unreleased

/-- The record of a cluster is looked up alike. -/
theorem agree_cluster (name : String) :
    (cluster name).Agree Event.Alike RecordsAlike (cluster name) := by
  refine Decision.Agree.bind (Decision.agree_storeCall _ _) fun found found' answers => ?_
  cases answers with
  | same =>
    have same : Discreet (single name found) := Discreet.closed.immediate (immediate_single name found)
    exact same.mono fun _ _ h => Or.inl h
  | @unreleased _ o labels labels' bad bad' =>
    show Decision.Agree _ _ (Decision.converted _) (Decision.converted _)
    rcases o.toTyped?_relabelled with hidden | ⟨m, read⟩
    · rw [hidden labels labels']
      have same : Discreet (Decision.converted ((o.relabelled labels').toTyped? Cluster.decode)) :=
        Discreet.closed.immediate (.converted _)
      exact same.mono fun _ _ h => Or.inl h
    · rw [read, read]
      exact Decision.Agree.pure (Or.inr ⟨bad.unreleased m, bad'.unreleased m⟩)

/-- Without a release the reason is not shown. -/
theorem releaseOf_unreleased (name : String) {record : Cluster} (bad : record.Unreleased) :
    ∃ e, releaseOf name record = throw e ∧
      e.publicMessage = (AdmissionError.missingVersion ("cluster '" ++ name ++ "'") "").publicMessage := by
  unfold releaseOf
  cases labelled : record.releaseLabel? with
  | none => exact ⟨_, rfl, rfl⟩
  | some raw =>
    obtain ⟨e, unread⟩ := bad raw labelled
    simp only [unread]
    exact ⟨_, rfl, rfl⟩

theorem discreet_releaseVersion (name : String) : Discreet (releaseVersion name) := by
  refine Decision.Agree.bind (agree_cluster name) fun record record' alike => ?_
  rcases alike with rfl | ⟨bad, bad'⟩
  · exact Discreet.closed.immediate (immediate_releaseOf name record)
  · obtain ⟨e, thrown, shown⟩ := releaseOf_unreleased name bad
    obtain ⟨e', thrown', shown'⟩ := releaseOf_unreleased name bad'
    rw [thrown, thrown']
    exact Decision.Agree.throw (shown.trans shown'.symm)

theorem discreet_operatorVersion (name : String) : Discreet (Defaults.operatorVersion name) := by
  have closed := Discreet.closed
  refine closed.bind (discreet_releaseVersion name) fun v => ?_
  refine closed.bind (.storeCall _ nofun) fun o => ?_
  refine closed.bind (closed.immediate (.converted _)) fun release => ?_
  split
  · exact closed.pure _
  · exact closed.throw _

end ReleaseLookup

namespace Compliance

open Decision (Discreet)

variable {settings : ComplianceSettings}

theorem discreet_refreshArtifact (desired : StoredObject) (space : String) :
    Discreet (refreshArtifact desired space) := by
  have closed := Discreet.closed
  refine closed.bind (.storeCall _ nofun) fun current => ?_
  exact closed.bind (.storeCall _ nofun) fun _ => closed.pure _

/-- If the artifact cannot be created, then because it is there already in both stores or in neither. -/
theorem discreet_ensureArtifact (space : String) (dryRun : Bool) :
    Discreet (ensureArtifact settings space dryRun) := by
  have closed := Discreet.closed
  cases dryRun with
  | true => exact closed.pure ()
  | false =>
    refine closed.bind (.ensureActive _) fun _ => ?_
    refine Decision.Agree.bind (Decision.agree_tryCall _ _) fun reply reply' answers => ?_
    cases answers with
    | same =>
      match reply with
      | .ok _ => exact closed.pure ()
      | .error (.alreadyExists _ _) => exact discreet_refreshArtifact _ _
      | .error (.notFound _ _) => exact closed.throw _
      | .error (.backend _) => exact closed.throw _
    | @failed _ e e' there =>
      have iff : e.SaysExists ↔ e'.SaysExists := there rfl
      cases e with
      | alreadyExists =>
        cases e' with
        | alreadyExists => exact discreet_refreshArtifact _ _
        | notFound | backend => exact absurd (iff.1 trivial) id
      | notFound | backend =>
        cases e' with
        | alreadyExists => exact absurd (iff.2 trivial) id
        | notFound | backend => exact Decision.Agree.throw rfl

end Compliance

namespace Webhook

/-- The webhooks that are built in. -/
inductive BuiltIn : Webhook App → Prop where
  | validating (policy : PolicyConfig) : BuiltIn (validatingWebhook policy)
  | mutating (settings : ComplianceSettings) : BuiltIn (mutatingWebhook settings)

theorem BuiltIn.discreet_runChain {w : Webhook App} (builtIn : w.BuiltIn)
    (request : AdmissionRequest App) (document : Json) :
    (runChain w.chain request document).Discreet := by
  have closed := Decision.Discreet.closed
  cases builtIn with
  | validating policy =>
    refine runValidators_of_composable closed.toComposable fun v there => ?_
    rcases List.mem_cons.1 there with rfl | there
    · exact closed.pure _
    · obtain rfl := List.mem_singleton.1 there
      exact closed.bind (.storeCall _ nofun) fun _ => closed.pure _
  | mutating settings =>
    unfold runChain mutatingWebhook
    dsimp only
    split
    · exact closed.pure _
    · refine runMutators_of_closed closed (fun m there request => ?_) request document
      rcases List.mem_cons.1 there with rfl | there
      · exact Defaults.operations_of_composable closed.toComposable
          ReleaseLookup.discreet_operatorVersion _ _
      · obtain rfl := List.mem_singleton.1 there
        refine closed.bind ?_ fun _ => closed.pure _
        exact Compliance.evaluate_of_composable closed.toComposable
          ReleaseLookup.discreet_releaseVersion (Compliance.discreet_ensureArtifact _ _)

theorem BuiltIn.agree_decide {w : Webhook App} (builtIn : w.BuiltIn) (wire : ReviewRequest) :
    (decide w.chain wire).Agree Event.Alike Eq (decide w.chain wire) := by
  unfold decide
  split
  · split
    · exact .done rfl
    · split
      · exact .done rfl
      · refine .bind (builtIn.discreet_runChain _ _) fun result result' shown => .done ?_
        cases shown with
        | ok same => rw [same]
        | error same =>
          simp only [conclude, same]
  · exact .done rfl

theorem BuiltIn.agree_handle {w : Webhook App} (builtIn : w.BuiltIn) (contentType : Option String)
    (body : List UInt8) :
    (handle w contentType body).Agree Event.Alike Eq (handle w contentType body) := by
  unfold handle
  split
  · exact .done rfl
  · split
    · exact .done rfl
    · split
      · exact .done rfl
      · refine .bind (builtIn.agree_decide _) fun decided decided' same => .done ?_
        rw [same]

/-- **No backend detail reaches the wire.** Wherever a request to a built-in webhook is answered with two
stores, if their answers to the same calls differ in nothing but the errors of calls that fail in both,
or in the labels of the one record of a cluster that either way names no release, then the calls are the
same, the replies are the same to the byte, and so is every count, however long either took. -/
theorem BuiltIn.handle_discreet {w : Webhook App} (builtIn : w.BuiltIn) (contentType : Option String)
    (body : List UInt8) {σ τ : Type} (env : Environment σ) (env' : Environment τ) (s : σ) (s' : τ)
    (alike : Event.Matched Event.Alike ((handle w contentType body).transcript env s)
      ((handle w contentType body).transcript env' s')) :
    Event.calls ((handle w contentType body).transcript env s) =
        Event.calls ((handle w contentType body).transcript env' s') ∧
      ((handle w contentType body).run env s).1.2 = ((handle w contentType body).run env' s').1.2 ∧
      ∀ (t : Tally) (seconds seconds' : Binary64),
        (t.noteAll (((handle w contentType body).run env s).1.1.events w.labels seconds)).counts =
          (t.noteAll (((handle w contentType body).run env' s').1.1.events w.labels seconds')).counts := by
  obtain ⟨same, calls⟩ := (builtIn.agree_handle contentType body).plays
    (Program.plays_run env _ s) (Program.plays_run env' _ s') alike
  refine ⟨calls, congrArg Prod.snd same, fun t seconds seconds' => ?_⟩
  funext c l
  rw [same, Tally.counts_noteAll_events, Tally.counts_noteAll_events]

end Webhook

/-- A store that knows one cluster and fails every other call, always in the same way. -/
def lameStore (cluster : StoredObject) (e : StoreError) : Environment Unit where
  poll s := (false, s)
  answer s c := match c with
    | .list .cluster _ => (some (.ok [cluster]), s)
    | _ => (some (.error e), s)

/-- Such stores answer alike if neither cluster names a release. -/
theorem matched_lameStore {o : StoredObject} {labels labels' : Option (Dict String)}
    (bad : (o.relabelled labels).NamesNoRelease) (bad' : (o.relabelled labels').NamesNoRelease)
    {e e' : StoreError} (other : ¬e.SaysExists) (other' : ¬e'.SaysExists) {α : Type} (p : Program α) :
    Event.Matched Event.Alike (p.transcript (lameStore (o.relabelled labels) e) ())
      (p.transcript (lameStore (o.relabelled labels') e') ()) := by
  intro i event event' at' at'' same
  rcases Program.mem_transcript_unit (List.mem_of_getElem? at') with rfl | ⟨c, rfl⟩
  · rcases Program.mem_transcript_unit (List.mem_of_getElem? at'') with rfl | ⟨_, rfl⟩
    · exact .same _
    · cases same
  · rcases Program.mem_transcript_unit (List.mem_of_getElem? at'') with rfl | ⟨_, rfl⟩
    · cases same
    · cases same
      match c with
      | .list .cluster _ => exact .unreleased bad bad'
      | .list .app _ | .list .catalog _ | .list .release _ | .list .configMap _ | .get .. | .create ..
      | .update .. => exact .failed fun _ => iff_of_false other other'

/-- A label that cannot be read in one store is missing in the other, and the errors of the two have
nothing in common; a request to either webhook fails over both of them with the same reply. -/
theorem Webhook.BuiltIn.handle_discreet_sample :
    let broken := lameStore (({ metadata := { name := "c1" } } : StoredObject).relabelled
      (some (.ofMembers [(releaseVersionLabel, "latest")]))) (.backend "10.0.0.7 refused the connection")
    let other := lameStore (({ metadata := { name := "c1" } } : StoredObject).relabelled none)
      (.notFound .catalog "giantswarm")
    ∀ w ∈ [validatingWebhook {}, mutatingWebhook sampleSettings],
      ((handle w (Delivery.sample true).contentType (Delivery.sample true).body).run broken ()).1.1 =
          .internalError ∧
        ((handle w (Delivery.sample true).contentType (Delivery.sample true).body).run broken ()).1.2 =
          ((handle w (Delivery.sample true).contentType (Delivery.sample true).body).run other ()).1.2 := by
  intro broken other w there
  have bad : (({ metadata := { name := "c1" } } : StoredObject).relabelled
      (some (.ofMembers [(releaseVersionLabel, "latest")]))).NamesNoRelease := by
    intro raw labelled
    cases labelled
    exact Or.inr ⟨_, rfl⟩
  have bad' : (({ metadata := { name := "c1" } } : StoredObject).relabelled none).NamesNoRelease := by
    intro raw labelled
    cases labelled
  have builtIn : w.BuiltIn := by
    rcases List.mem_cons.1 there with rfl | there
    · exact .validating _
    · obtain rfl := List.mem_singleton.1 there
      exact .mutating _
  have fails : ∀ w ∈ [validatingWebhook {}, mutatingWebhook sampleSettings],
      ((handle w (Delivery.sample true).contentType (Delivery.sample true).body).run broken ()).1.1 =
        .internalError := by
    decide +kernel
  obtain ⟨-, same, -⟩ := builtIn.handle_discreet (Delivery.sample true).contentType
    (Delivery.sample true).body broken other () () (matched_lameStore bad bad' id id _)
  exact ⟨fails w there, same⟩

end AppAdmission
