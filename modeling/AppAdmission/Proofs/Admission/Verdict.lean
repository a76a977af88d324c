import AppAdmission.Proofs.Admission.Retry

/-!
# Mutation and the policy

The mutating chain adds references, and the policy judges references. Those that are added lead to the
namespace of the App itself, before and behind the ones that are there, so they can change what the
policy says only if it protects this namespace, and then only to a refusal that names it.
-/

namespace AppAdmission

open Json (Source)

/-- An entry protects the namespace by how it begins or ends. -/
def PolicyConfig.Guards (c : PolicyConfig) (space : String) : Prop :=
  ∃ entry ∈ c.wildcards, Policy.startsB entry space = true ∨ Policy.endsB entry space = true

/-- What is protected in another way than by its full name is guarded. -/
theorem PolicyConfig.guards_of_isBlacklisted {c : PolicyConfig} {space : String}
    (other : ¬c.fixedNamespaces.contains space = true) (h : c.isBlacklisted space = true) :
    c.Guards space := by
  unfold isBlacklisted at h
  rcases Bool.or_eq_true_iff.1 h with fixed | guarded
  · exact absurd fixed other
  · obtain ⟨entry, there, fits⟩ := List.any_eq_true.1 guarded
    exact ⟨entry, there, Bool.or_eq_true_iff.1 fits⟩

namespace Policy

variable {a b : App} {c : PolicyConfig} {actor : Actor}

/-- The policy sees the same of both Apps, but that the second one takes configuration from its own
namespace besides, before and after what the first one takes. -/
structure Extends (a b : App) : Prop where
  space : b.space = a.space
  name : b.spec.name = a.spec.name
  catalog : b.spec.catalog = a.spec.catalog
  references : ∃ before after,
    referencedNamespaces b = before ++ referencedNamespaces a ++ after ∧
      ∀ space ∈ before ++ after, space = a.space

theorem Extends.refl (a : App) : Extends a a :=
  ⟨rfl, rfl, rfl, [], [], by simp, by simp⟩

theorem Extends.trans {d : App} (h : Extends a b) (h' : Extends b d) : Extends a d := by
  refine ⟨h'.space.trans h.space, h'.name.trans h.name, h'.catalog.trans h.catalog, ?_⟩
  obtain ⟨before, after, within, own⟩ := h.references
  obtain ⟨before', after', within', own'⟩ := h'.references
  refine ⟨before' ++ before, after ++ after', by simp [within, within'], ?_⟩
  rw [h.space] at own'
  intro space there
  simp only [List.mem_append] at there own own'
  rcases there with (there | there) | there | there
  · exact own' space (.inl there)
  · exact own space (.inl there)
  · exact own space (.inr there)
  · exact own' space (.inr there)

/-- With elements around them, the first that is found among some is still found, unless one of those
around them is. -/
theorem find?_around {α : Type} (p : α → Bool) (before xs after : List α) :
    (before ++ xs ++ after).find? p = xs.find? p ∨
      ∃ x ∈ before ++ after, (before ++ xs ++ after).find? p = some x := by
  rw [List.find?_append, List.find?_append]
  cases first : before.find? p with
  | some x => exact .inr ⟨x, List.mem_append_left _ (List.mem_of_find?_eq_some first), rfl⟩
  | none =>
    cases among : xs.find? p with
    | some x => exact .inl rfl
    | none =>
      cases last : after.find? p with
      | none => exact .inl rfl
      | some x => exact .inr ⟨x, List.mem_append_right _ (List.mem_of_find?_eq_some last), rfl⟩

/-- The policy says the same of both Apps, or it guards their namespace and refuses the second one for
it. -/
theorem Extends.inspect (h : Extends a b) (c : PolicyConfig) (actor : Actor) :
    inspect c actor b = inspect c actor a ∨
      inspect c actor b = .deny (referenceReason a.space) ∧ a.space ≠ "" ∧ c.Guards a.space := by
  have chart : chartReason b.spec = chartReason a.spec := by
    unfold chartReason
    rw [h.name, h.catalog]
  unfold Policy.inspect
  rw [h.space, h.name, h.catalog, chart]
  split
  · exact .inl rfl
  · split
    · exact .inl rfl
    · next other =>
      split
      · exact .inl rfl
      · obtain ⟨before, after, within, own⟩ := h.references
        rw [within]
        rcases find?_around c.isBlacklisted before (referencedNamespaces a) after with
          same | ⟨space, around, found⟩
        · exact .inl (by rw [same])
        · obtain rfl := own space around
          have named : a.space ∈ referencedNamespaces b := by
            rw [within]
            exact List.mem_of_find?_eq_some found
          have nonempty : a.space ≠ "" := by
            simpa using (List.mem_filter.1 named).2
          rw [found]
          exact .inr ⟨rfl, nonempty,
            PolicyConfig.guards_of_isBlacklisted other (List.find?_some found)⟩

theorem configNamespaces_none : configNamespaces none = [] := rfl

theorem configNamespaces_clusterValues (space cluster : String) :
    configNamespaces (some (Defaults.clusterValues space cluster)) = [space, space] := rfl

/-- Defaults add references to the App's own namespace where it had no configuration. -/
theorem extends_filled (verb : Verb) (a : App) (label : Option String) (access : Option NamespacedRef) :
    Extends a (Defaults.filled a label (Defaults.configFor verb a) access) := by
  generalize config_eq : Defaults.configFor verb a = config
  have user : (Defaults.filled a label config access).spec.userConfig = a.spec.userConfig := by
    cases label <;> cases config <;> cases access <;> rfl
  have extras : (Defaults.filled a label config access).extraConfigs = a.extraConfigs := by
    cases label <;> cases config <;> cases access <;> rfl
  refine ⟨space_filled a label config access, ?_, ?_, ?_⟩
  · cases label <;> cases config <;> cases access <;> rfl
  · cases label <;> cases config <;> cases access <;> rfl
  · unfold referencedNamespaces
    rw [Defaults.config_filled, user, extras]
    cases config with
    | none => exact ⟨[], [], by simp, by simp⟩
    | some values =>
      obtain ⟨cluster, -, lacks, rfl⟩ := given_eq_some_iff.1 config_eq
      have unset : a.spec.config = none := Option.isNone_iff_eq_none.1 lacks
      refine ⟨[a.space, a.space].filter (· != ""), [], ?_, by simp⟩
      rw [Option.some_or, unset, configNamespaces_clusterValues, configNamespaces_none]
      simp only [List.filter_append, List.append_assoc, List.nil_append, List.append_nil]

/-- The baseline adds a reference to the App's own namespace at the end. -/
theorem extends_extended (settings : ComplianceSettings) (a : App) (state : Compliance.State) :
    Extends a (Compliance.extended a (state.appends settings a.space)) := by
  cases state with
  | patchRequired ops =>
    refine ⟨rfl, rfl, rfl, [], [a.space].filter (· != ""), ?_, by simp⟩
    have extras : (Compliance.extended a
        ((Compliance.State.patchRequired ops).appends settings a.space)).extraConfigs =
          a.extraConfigs ++ [Compliance.canonicalRef settings a.space] := rfl
    unfold referencedNamespaces
    rw [extras, List.map_append, ← List.append_assoc, List.filter_append]
    rfl
  | notApplicable | alreadyPatched | belowCutoff => exact .refl a

/-- **Mutation changes the verdict only through the App's own namespace.** Where the built-in chain goes
through on the document of an App, its operations apply, and an App is read from the result of which the
policy says the same as of the first one, unless the first one has a namespace that is protected by how
it begins or ends. Even then what is refused is refused still, and what is allowed is allowed or refused
for this namespace. Documents that arrive are free, see `ReviewRequest.canonicalB_object`. -/
theorem inspect_mutated {σ : Type} {env : Environment σ} {settings : ComplianceSettings}
    {request : AdmissionRequest App} {document : Json} {ops : List Patch.Operation} {s t : σ}
    (free : document.canonicalB = true) (read : App.decode (.ofJson document) = some request.object)
    (ran : Decision.eval env (Webhook.runMutators request document (builtinMutators settings)) s =
      (.ok (.allowed ops), t)) (c : PolicyConfig) (actor : Actor) :
    ∃ result mutated, Patch.apply ops document = .ok result ∧
      App.decode (.ofJson result) = some mutated ∧
      (request.object.space = "" ∨ ¬c.Guards request.object.space →
        inspect c actor mutated = inspect c actor request.object) ∧
      (∀ reason, inspect c actor request.object = .deny reason →
        ∃ reason', inspect c actor mutated = .deny reason') ∧
      (inspect c actor request.object = .allow → inspect c actor mutated = .allow ∨
        inspect c actor mutated = .deny (referenceReason request.object.space)) := by
  obtain ⟨e, state, _, -, config, -, -, extra, applied, r⟩ := eval_builtin_ok ⟨free, read⟩ ran
  have widened : Extends request.object (e.app request.object) := by
    unfold Edits.app
    rw [config, extra]
    refine (extends_filled request.operation request.object e.label e.access).trans ?_
    rw [← space_filled request.object e.label (Defaults.configFor request.operation request.object)
      e.access]
    exact extends_extended settings _ state
  refine ⟨_, _, applied, r.read, ?_⟩
  rcases widened.inspect c actor with same | ⟨refused, named, guarded⟩
  · rw [same]
    exact ⟨fun _ => rfl, fun reason denied => ⟨reason, denied⟩, .inl⟩
  · refine ⟨?_, fun _ _ => ⟨_, refused⟩, fun _ => .inr refused⟩
    rintro (unnamed | unguarded)
    · exact absurd unnamed named
    · exact absurd guarded unguarded

/-- The sample App in a namespace that a policy protects by how it begins. -/
def guardedDocument : Json := sampleDocument.put ["metadata", "namespace"] (.str "kube-apps")

/-- That App as it is read. -/
def guardedApp : App :=
  { sampleApp with metadata := { sampleApp.metadata with namespaceName := some "kube-apps" } }

/-- What the policy says of an App that refers to nothing changes when the App is given references. -/
theorem inspect_mutated_sample :
    ∃ (ops : List Patch.Operation) (result : Json) (mutated : App),
      Patch.apply ops guardedDocument = .ok result ∧ App.decode (.ofJson result) = some mutated ∧
      inspect { namespaceBlacklist := ["kube-"] } {} guardedApp = .allow ∧
      inspect { namespaceBlacklist := ["kube-"] } {} mutated = .deny (referenceReason "kube-apps") ∧
      inspect { namespaceBlacklist := ["-system"] } {} mutated =
        inspect { namespaceBlacklist := ["-system"] } {} guardedApp := by
  let request := Webhook.requestFor sampleRequest guardedApp
  let course := Decision.eval MemoryStore.environment
    (Webhook.runMutators request guardedDocument (builtinMutators sampleSettings)) sampleStore
  have verdict : (allowedOps? course.1).bind (fun ops =>
      (Patch.apply ops guardedDocument).toOption.bind fun result =>
        (App.decode (.ofJson result)).map (inspect { namespaceBlacklist := ["kube-"] } {})) =
      some (.deny (referenceReason "kube-apps")) := by
    decide +kernel
  obtain ⟨ops, came, verdict⟩ := Option.bind_eq_some_iff.1 verdict
  have ran : course = (.ok (.allowed ops), course.2) := Prod.ext (allowedOps?_eq_some came) rfl
  have free : guardedDocument.canonicalB = true := by decide +kernel
  have unguarded : ¬PolicyConfig.Guards { namespaceBlacklist := ["-system"] } "kube-apps" := by
    rintro ⟨entry, there, fits⟩
    obtain rfl : entry = "-system" := by simpa [PolicyConfig.wildcards] using (List.mem_filter.1 there).1
    revert fits
    decide
  obtain ⟨result, mutated, applied, read, same, -⟩ :=
    inspect_mutated free rfl ran { namespaceBlacklist := ["-system"] } {}
  rw [applied] at verdict
  simp only [Except.toOption, Option.bind_some, read, Option.map_some, Option.some.injEq] at verdict
  exact ⟨ops, result, mutated, applied, read, by decide, verdict, same (.inr unguarded)⟩

end Policy

end AppAdmission
