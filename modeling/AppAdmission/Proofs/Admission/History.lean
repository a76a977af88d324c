import AppAdmission.Proofs.Admission.Frame
import AppAdmission.Proofs.Admission.Handlers
import AppAdmission.Proofs.Admission.Tending
import Mathlib.Tactic.Choose

/-!
# Requests one after another

A webhook reads no config maps and writes nothing else. What it replies is therefore the same in all
stores that concur, as is the set of namespaces to whose artifacts it tends, and a row of requests can
be taken apart: each reply is the one to the request alone, and the order leaves no trace but revisions.
-/

namespace AppAdmission

open MemoryStore (environment)

variable {α β : Type} {settings : ComplianceSettings}

/-- In stores that concur a program comes to the same, and tends to the artifacts of the same
namespaces. -/
def Program.Uniform (settings : ComplianceSettings) (p : Program α) : Prop :=
  ∀ s : MemoryStore, s.Healthy → ∃ a spaces, ∀ t : MemoryStore, t.Healthy → MemoryStore.Concur s t →
    ∃ u, p.run environment t = (a, u) ∧ Compliance.Tended settings spaces t u

namespace Program.Uniform

theorem done (a : α) : Uniform settings (.done a) :=
  fun _ _ => ⟨a, [], fun t _ _ => ⟨t, rfl, .of_objects rfl⟩⟩

theorem bind {p : Program α} {f : α → Program β} (first : Uniform settings p)
    (rest : ∀ a, Uniform settings (f a)) : Uniform settings (p.bind f) := by
  intro s healthy
  obtain ⟨a, spaces, same⟩ := first s healthy
  obtain ⟨s', ran, tended⟩ := same s healthy (.refl s)
  obtain ⟨b, spaces', same'⟩ := rest a s' (healthy.run ran)
  refine ⟨b, spaces ++ spaces', fun t healthy' concur => ?_⟩
  obtain ⟨t', ran', tended'⟩ := same t healthy' concur
  have onward : MemoryStore.Concur s' t' := (tended.concur.symm.trans concur).trans tended'.concur
  obtain ⟨u, ran'', tended''⟩ := same' t' (healthy'.run ran') onward
  refine ⟨u, ?_, tended'.trans tended''⟩
  rw [Program.run_bind, ran', ran'']

end Program.Uniform

/-- A decision whose program is uniform. -/
def Decision.Uniform (settings : ComplianceSettings) (d : Decision α) : Prop :=
  d.program.Uniform settings

namespace Decision.Uniform

theorem looking {d : Decision α} (looking : d.Looking) : Uniform settings d := by
  intro s healthy
  refine ⟨(Decision.eval environment d s).1, [], fun t healthy' concur => ?_⟩
  obtain ⟨result, -⟩ := MemoryStore.eval_looking looking healthy healthy' concur
  obtain ⟨-, left⟩ := MemoryStore.eval_looking looking healthy' healthy concur.symm
  exact ⟨(Decision.eval environment d t).2, Prod.ext result.symm rfl, .of_objects left⟩

theorem bind {d : Decision α} {f : α → Decision β} (first : Uniform settings d)
    (rest : ∀ a, Uniform settings (f a)) : Uniform settings (d >>= f) := by
  have whole : (d >>= f).program = d.program.bind (ExceptT.bindCont f) := rfl
  unfold Uniform
  rw [whole]
  refine Program.Uniform.bind first fun result => ?_
  cases result with
  | error e => exact .done _
  | ok a => exact rest a

theorem closed : Closed fun _ d => Uniform settings d where
  pure a := looking (.pure a)
  bind := bind
  throw e := looking (.throw e)

end Decision.Uniform

namespace Compliance

open Decision (Uniform)

theorem uniform_ensureArtifact (space : String) (dryRun : Bool) :
    Uniform settings (ensureArtifact settings space dryRun) := by
  cases dryRun with
  | true => exact .looking (.pure ())
  | false =>
    intro s _
    refine ⟨.ok (), [space], fun t healthy _ => ?_⟩
    obtain ⟨u, ran, ensured⟩ := eval_ensureArtifact settings space healthy
    exact ⟨u, ran, .of_ensured ensured⟩

theorem uniform_evaluate (a : App) (dryRun : Bool) : Uniform settings (evaluate settings a dryRun) :=
  evaluate_of_composable Uniform.closed.toComposable
    (fun cluster => .looking (ReleaseLookup.looking_releaseVersion cluster))
    (uniform_ensureArtifact a.space dryRun)

end Compliance

theorem Defaults.looking_operations (operation : Verb) (a : App) : (operations operation a).Looking :=
  operations_of_composable Decision.Looking.composable ReleaseLookup.looking_operatorVersion operation a

theorem looking_catalogValidator (request : AdmissionRequest App) :
    (catalogValidator.validate request).Looking :=
  .bind (.look _ ⟨Or.inr rfl, nofun⟩) fun _ => .pure _

namespace Webhook

open Decision (Uniform)

variable {T : Type} [Reviewable T]

/-- Handlers that are uniform make a chain that is. -/
inductive UniformChain (settings : ComplianceSettings) : Chain T → Prop where
  | validating {vs : List (Validator T)}
      (each : ∀ v ∈ vs, ∀ request, Uniform settings (v.validate request)) :
      UniformChain settings (.validating vs)
  | mutating {ms : List (Mutator T)} (each : ∀ m ∈ ms, ∀ request, Uniform settings (m.mutate request)) :
      UniformChain settings (.mutating ms)

theorem UniformChain.runChain {chain : Chain T} (h : UniformChain settings chain)
    (request : AdmissionRequest T) (document : Json) :
    Uniform settings (Webhook.runChain chain request document) := by
  cases h with
  | validating each =>
    exact runValidators_of_composable Uniform.closed.toComposable fun v there => each v there request
  | mutating each =>
    unfold Webhook.runChain
    dsimp only
    split
    · exact .looking (.pure _)
    · exact runMutators_of_closed Uniform.closed each request document

theorem UniformChain.decide {chain : Chain T} (h : UniformChain settings chain)
    (wire : ReviewRequest) : (Webhook.decide chain wire).Uniform settings := by
  unfold Webhook.decide
  split
  · split
    · exact .done _
    · split
      · exact .done _
      · exact .bind (h.runChain _ _) fun _ => .done _
  · exact .done _

theorem UniformChain.handle {w : Webhook T} (h : UniformChain settings w.chain)
    (contentType : Option String) (body : List UInt8) :
    (Webhook.handle w contentType body).Uniform settings := by
  unfold Webhook.handle
  split
  · exact .done _
  · split
    · exact .done _
    · split
      · exact .done _
      · exact .bind (h.decide _) fun _ => .done _

end Webhook

/-- A request as it is sent: to which of the two webhooks, under which content type, in which bytes. -/
structure Delivery where
  mutating : Bool
  contentType : Option String
  body : List UInt8

namespace Delivery

/-- What a delivery comes to at the built-in webhooks. -/
def answer (policy : PolicyConfig) (settings : ComplianceSettings) (d : Delivery) :
    Program (Outcome × WebhookReply) :=
  let w := if d.mutating then mutatingWebhook settings else validatingWebhook policy
  Webhook.handle w d.contentType d.body

/-- Deliveries answered one after another: the answers, in order, and the store that they leave. -/
def serve (policy : PolicyConfig) (settings : ComplianceSettings) (ds : List Delivery)
    (s : MemoryStore) : List (Outcome × WebhookReply) × MemoryStore :=
  (ds.mapM (answer policy settings)).run environment s

variable (policy : PolicyConfig)

theorem uniformChain_validating :
    Webhook.UniformChain settings (validatingWebhook policy).chain := by
  refine .validating fun v there request => ?_
  rcases List.mem_cons.1 there with rfl | there
  · exact .looking (.pure _)
  · obtain rfl := List.mem_singleton.1 there
    exact .looking (looking_catalogValidator request)

theorem uniformChain_mutating : Webhook.UniformChain settings (mutatingWebhook settings).chain := by
  refine .mutating fun m there request => ?_
  rcases List.mem_cons.1 there with rfl | there
  · exact .looking (Defaults.looking_operations _ _)
  · obtain rfl := List.mem_singleton.1 there
    exact .bind (Compliance.uniform_evaluate _ _) fun _ => .looking (.pure _)

theorem uniform_answer (d : Delivery) : (d.answer policy settings).Uniform settings := by
  unfold answer
  split
  · exact uniformChain_mutating.handle _ _
  · exact (uniformChain_validating policy).handle _ _

/-- Deliveries one after another in a store that concurs with a given one: the replies are those to each
alone, and the namespaces tended to are those of each. -/
theorem serve_eq {s : MemoryStore} (out : Delivery → (Outcome × WebhookReply) × List String)
    (alone : ∀ d t, MemoryStore.Healthy t → MemoryStore.Concur s t → ∃ u,
      (d.answer policy settings).run environment t = ((out d).1, u) ∧
        Compliance.Tended settings (out d).2 t u)
    (ds : List Delivery) {t : MemoryStore} (healthy : t.Healthy) (concur : MemoryStore.Concur s t) :
    ∃ u, serve policy settings ds t = (ds.map fun d => (out d).1, u) ∧
      Compliance.Tended settings (ds.flatMap fun d => (out d).2) t u := by
  induction ds generalizing t with
  | nil => exact ⟨t, rfl, .of_objects rfl⟩
  | cons d rest ih =>
    obtain ⟨t', ran, tended⟩ := alone d t healthy concur
    obtain ⟨u, others, tended'⟩ := ih (healthy.run ran) (concur.trans tended.concur)
    refine ⟨u, ?_, tended.trans tended'⟩
    unfold serve at others ⊢
    rw [List.mapM_cons, Program.bind_eq, Program.run_bind, ran, Program.bind_eq, Program.run_bind, others]
    rfl

/-- **Replies depend neither on history nor on order.** Whatever is delivered to the two webhooks over a
store without faults, each delivery is answered as if it came alone to the store as it was at first; and
in whatever order the deliveries come, the store is left with the same objects, revisions aside. -/
theorem answers_independent (settings : ComplianceSettings) {s : MemoryStore}
    (healthy : s.Healthy) (ds : List Delivery) :
    (serve policy settings ds s).1 =
        ds.map (fun d => ((d.answer policy settings).run environment s).1) ∧
      ∀ ds' : List Delivery, ds.Perm ds' → ∀ key,
        ((serve policy settings ds s).2.objects.get? key).map StoredObject.unrevised =
          ((serve policy settings ds' s).2.objects.get? key).map StoredObject.unrevised := by
  have uniform (d : Delivery) : (d.answer policy settings).Uniform settings := uniform_answer policy d
  choose reply spaces alone using fun d => uniform d s healthy
  have runs := fun ds => serve_eq policy (fun d => (reply d, spaces d)) alone ds healthy (.refl s)
  obtain ⟨u, ran, tended⟩ := runs ds
  refine ⟨?_, fun ds' perm key => ?_⟩
  · rw [ran]
    refine List.map_congr_left fun d _ => ?_
    obtain ⟨_, single, -⟩ := alone d s healthy (.refl s)
    rw [single]
  · obtain ⟨u', ran', tended'⟩ := runs ds'
    have same : ∀ x, x ∈ ds.flatMap spaces ↔ x ∈ ds'.flatMap spaces := by
      intro x
      simp only [List.mem_flatMap, perm.mem_iff]
    rw [ran, ran']
    exact (tended.congr same).unrevised_eq tended' key

/-- The request to create the sample App, sent to one of the webhooks. -/
def sample (mutating : Bool) : Delivery where
  mutating := mutating
  contentType := some "application/json"
  body := Utf8.encode ({ request := some sampleRequest : AdmissionReview }).toJson.renderChars

/-- The sample App is edited by one webhook and refused by the other, in either order, and the artifact is
in the store afterwards. -/
theorem answers_independent_sample :
    ((serve {} sampleSettings [sample true, sample false] sampleStore).1.map Prod.fst =
        [.successful, .rejected] ∧
      ((serve {} sampleSettings [sample true, sample false] sampleStore).2.objects.get?
        (Compliance.artifactKey sampleSettings "ns")).isSome = true) ∧
      (serve {} sampleSettings [sample true, sample false] sampleStore).1 =
        [sample true, sample false].map
          (fun d => ((d.answer {} sampleSettings).run environment sampleStore).1) ∧
      ∀ key,
        ((serve {} sampleSettings [sample true, sample false] sampleStore).2.objects.get? key).map
            StoredObject.unrevised =
          ((serve {} sampleSettings [sample false, sample true] sampleStore).2.objects.get? key).map
            StoredObject.unrevised := by
  have healthy : sampleStore.Healthy := fun _ _ => rfl
  obtain ⟨alone, order⟩ :=
    answers_independent {} sampleSettings healthy [sample true, sample false]
  refine ⟨?_, alone, order _ (.swap _ _ _)⟩
  decide +kernel

end Delivery

end AppAdmission
