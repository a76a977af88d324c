import AppAdmission.Proofs.Admission.Frame
import AppAdmission.Proofs.Admission.Tending
import AppAdmission.Proofs.Store.Crowd
import AppAdmission.Proofs.Store.Listing

/-!
# Evaluations at the same time

Any number of evaluations for Apps of one namespace see to one artifact. Creating it, finding it there,
reading it and replacing it are separate calls, and other evaluations come in between. Still each call can
only tend to the artifact: it never disappears once it is there, its metadata are the ones it had, and
after the first evaluation that has seen to it its content is the configured one.
-/

namespace AppAdmission.Compliance

open MemoryStore (environment answer_get answer_create answer_create_again answer_update)

variable {settings : ComplianceSettings} {space : String} {s t u : MemoryStore} {told : Bool}

/-- What evaluations for a namespace do to a store: they tend to its artifact, or do nothing. -/
def Turns (settings : ComplianceSettings) (space : String) (s t : MemoryStore) : Prop :=
  t.faults = s.faults ∧ ∃ spaces, (∀ x ∈ spaces, x = space) ∧ Tended settings spaces s t

/-- The artifact is there with its type and its content, under metadata of any kind. -/
def InPlace (settings : ComplianceSettings) (space : String) (s : MemoryStore) : Prop :=
  ∃ o, s.objects.get? (artifactKey settings space) = some o ∧
    o = { artifact settings space with metadata := o.metadata }

theorem eq_of_unrevised_eq {desired o : StoredObject} {m : ObjectMeta}
    (h : o.unrevised = { desired with metadata := m }) : o = { desired with metadata := o.metadata } := by
  cases o
  cases h
  rfl

namespace Turns

theorem of_objects (faults : t.faults = s.faults) (objects : t.objects = s.objects) :
    Turns settings space s t :=
  ⟨faults, [], nofun, .of_objects objects⟩

theorem of_ensured (faults : t.faults = s.faults) (ensured : Ensured settings space s t) :
    Turns settings space s t :=
  ⟨faults, [space], fun _ there => List.mem_singleton.1 there, .of_ensured ensured⟩

theorem refl (s : MemoryStore) : Turns settings space s s := of_objects rfl rfl

theorem trans (h : Turns settings space s t) (h' : Turns settings space t u) :
    Turns settings space s u := by
  obtain ⟨faults, spaces, only, tended⟩ := h
  obtain ⟨faults', spaces', only', tended'⟩ := h'
  refine ⟨faults'.trans faults, spaces ++ spaces', fun x there => ?_, tended.trans tended'⟩
  exact (List.mem_append.1 there).elim (only x) (only' x)

theorem healthy (h : Turns settings space s t) (healthy : s.Healthy) : t.Healthy := by
  intro op kind
  rw [h.1]
  exact healthy op kind

theorem concur (h : Turns settings space s t) : MemoryStore.Concur s t :=
  h.2.choose_spec.2.concur

/-- The artifact is as it was, or as it is put in the place of what was there. -/
theorem placed (h : Turns settings space s t) :
    t.objects.get? (artifactKey settings space) = s.objects.get? (artifactKey settings space) ∨
      ∃ o, t.objects.get? (artifactKey settings space) = some o ∧
        o.unrevised = restored settings space (s.objects.get? (artifactKey settings space)) := by
  obtain ⟨-, spaces, -, tended⟩ := h
  by_cases there : space ∈ spaces
  · exact Or.inr (tended.placed space there)
  · exact Or.inl (tended.get?_of_not_mem there)

/-- An artifact that is there stays, with the metadata that it has apart from the revision. -/
theorem kept (h : Turns settings space s t) {o : StoredObject}
    (there : s.objects.get? (artifactKey settings space) = some o) :
    ∃ o', t.objects.get? (artifactKey settings space) = some o' ∧
      { o'.metadata with resourceVersion := none } = { o.metadata with resourceVersion := none } := by
  rcases h.placed with same | ⟨o', got, same⟩
  · exact ⟨o, same.trans there, rfl⟩
  · rw [there] at same
    exact ⟨o', got, congrArg StoredObject.metadata same⟩

/-- An artifact with its content keeps it. -/
theorem inPlace (h : Turns settings space s t) (right : InPlace settings space s) :
    InPlace settings space t := by
  obtain ⟨o, there, whole⟩ := right
  rcases h.placed with same | ⟨o', got, same⟩
  · exact ⟨o, same.trans there, whole⟩
  · rw [there] at same
    exact ⟨o', got, eq_of_unrevised_eq same⟩

end Turns

theorem inPlace_of_ensured (ensured : Ensured settings space s t) : InPlace settings space t := by
  obtain ⟨placed, put, same⟩ := ensured
  refine ⟨placed, by rw [put, OrderedMap.get?_insert_self], ?_⟩
  cases there : s.objects.get? (artifactKey settings space) with
  | none =>
    rw [there] at same
    exact eq_of_unrevised_eq (m := (artifact settings space).metadata) same
  | some o =>
    rw [there] at same
    exact eq_of_unrevised_eq same

/-- An evaluation for a namespace turns the store no further than that. It fails only with its own
cancellation, and succeeds only when the artifact is in its place. -/
def bounds (settings : ComplianceSettings) (space : String) : Bounds (Except AdmissionError State) where
  turns := Turns settings space
  ends told result s :=
    match result with
    | .error e => told = true ∧ ∃ operation, e = .cancelled operation
    | .ok _ => InPlace settings space s
  refl := Turns.refl
  trans := Turns.trans
  stable {_ result _ _} ended turned := by
    cases result with
    | error e => exact ended
    | ok state => exact turned.inPlace ended

theorem leaves_bounds : Decision.Leaves (bounds settings space) :=
  fun operation _ => ⟨rfl, operation, rfl⟩

/-- The artifact that is there is replaced, whatever other evaluations do to it in the meantime: what is
put there is what would be put there if nothing had happened. -/
theorem safe_refreshArtifact (healthy : s.Healthy) {o : StoredObject}
    (there : s.objects.get? (artifactKey settings space) = some o) (state : State) :
    (refreshArtifact (artifact settings space) space >>= fun _ => pure state).Safe
      (bounds settings space) told s := by
  unfold refreshArtifact
  simp only [bind_assoc, pure_bind]
  refine Decision.safe_storeCall_bind leaves_bounds fun t turned => ?_
  obtain ⟨current, got, -⟩ := turned.kept there
  have healthy_t := turned.healthy healthy
  refine ⟨current, _, answer_get (healthy_t _ _) got, Turns.of_objects rfl rfl, ?_⟩
  have got' : (t.count .get .configMap).objects.get? (artifactKey settings space) = some current := got
  refine Decision.safe_storeCall_bind leaves_bounds fun u turned' => ?_
  obtain ⟨latest, found, same⟩ := turned'.kept got'
  have desired : refreshed (artifact settings space) current = restored settings space (some latest) :=
    congrArg (fun m => { artifact settings space with metadata := m }) same.symm
  have healthy_u : u.Healthy := turned'.healthy healthy_t
  have key : StoreKey.of .configMap (restored settings space (some latest)) =
      artifactKey settings space := key_restored found
  have ensured : Ensured settings space (u.count .update .configMap) _ := ensured_write found
  rw [desired]
  exact ⟨_, _, answer_update (healthy_u _ _) (key.symm ▸ found) rfl, .of_ensured rfl ensured,
    inPlace_of_ensured ensured⟩

/-- The artifact is created or replaced. -/
theorem safe_ensureArtifact (healthy : s.Healthy) (state : State) :
    (ensureArtifact settings space false >>= fun _ => pure state).Safe
      (bounds settings space) told s := by
  unfold ensureArtifact
  simp only [Bool.false_eq_true, if_false, bind_assoc]
  refine Decision.safe_ensureActive_bind leaves_bounds ?_
  refine Decision.safe_tryCall_bind leaves_bounds fun t turned => ?_
  have healthy_t := turned.healthy healthy
  cases there : t.objects.get? (artifactKey settings space) with
  | none =>
    have ensured : Ensured settings space (t.count .create .configMap) _ := ensured_write there
    exact ⟨_, _, answer_create (healthy_t _ _) there, .of_ensured rfl ensured,
      inPlace_of_ensured ensured⟩
  | some o =>
    have healthy_u : (t.count .create .configMap).Healthy := healthy_t
    exact ⟨_, _, answer_create_again (healthy_t _ _) there, Turns.of_objects rfl rfl,
      safe_refreshArtifact healthy_u there state⟩

/-- A decision that only looks finds what it would find in the store at first. -/
theorem safe_looking_bind {α : Type} {d : Decision α} (looking : d.Looking)
    {f : α → Decision State} {a : α} {s : MemoryStore} (healthy : s.Healthy)
    (found : (Decision.eval environment d s).1 = .ok a)
    (rest : ∀ t, Turns settings space s t → (f a).Safe (bounds settings space) told t) :
    (d >>= f).Safe (bounds settings space) told s := by
  induction looking generalizing s with
  | pure b =>
    obtain rfl := Except.ok.inj found
    rw [pure_bind]
    exact rest s (.refl s)
  | throw e => cases found
  | @look operation c looks =>
    refine Decision.safe_storeCall_bind leaves_bounds fun t turned => ?_
    obtain ⟨reply, -⟩ := healthy.answer_looks looks (turned.healthy healthy) turned.concur
    obtain ⟨-, counted⟩ := (turned.healthy healthy).answer_looks looks healthy turned.concur.symm
    rcases answered : s.answer c with ⟨e | answer, s'⟩
    · rw [MemoryStore.eval_storeCall_of_error answered] at found
      cases found
    · rw [MemoryStore.eval_storeCall_of_ok answered] at found
      obtain rfl := Except.ok.inj found
      rw [answered] at reply
      have counts : Turns settings space t (t.count c.op c.kind) := .of_objects rfl rfl
      exact ⟨answer, t.count c.op c.kind, Prod.ext reply.symm counted, counts,
        rest _ (turned.trans counts)⟩
  | @bind _ _ d g first others ih ih' =>
    rcases ran : Decision.eval environment d s with ⟨e | b, u⟩
    · rw [Decision.eval_bind, ran] at found
      cases found
    · rw [Decision.eval_bind_of_ok ran] at found
      rw [bind_assoc]
      refine ih healthy (congrArg Prod.fst ran) fun t turned => ?_
      have left := (MemoryStore.eval_looking first healthy healthy (.refl s)).2
      rw [ran] at left
      have concur : MemoryStore.Concur t u :=
        turned.concur.symm.trans (MemoryStore.Concur.of_objects left)
      obtain ⟨same, -⟩ := MemoryStore.eval_looking (others b) (turned.healthy healthy)
        (healthy.eval ran) concur
      exact ih' b (turned.healthy healthy) (same.trans found) fun t' later =>
        rest t' (turned.trans later)

/-- What the store holds brings the evaluation of an App to the artifact. -/
def Reaches (settings : ComplianceSettings) (a : App) (s : MemoryStore) : Prop :=
  ∃ cluster, applicableCluster? settings a = some cluster ∧
    (a.extraConfigs.getLast? = some (canonicalRef settings a.space) ∨
      ∃ release, (Decision.eval environment (ReleaseLookup.releaseVersion cluster) s).1 = .ok release ∧
        release.ltB settings.cutoff = false)

/-- The evaluation of an App of the namespace that gets to the artifact is safe. -/
theorem safe_evaluate {a : App} (healthy : s.Healthy) (reaches : Reaches settings a s)
    (there : a.space = space) :
    (evaluate settings a false).Safe (bounds settings space) told s := by
  subst there
  obtain ⟨cluster, inside, onward⟩ := reaches
  unfold evaluate
  simp only [inside]
  split
  · exact safe_ensureArtifact healthy _
  · next other =>
    obtain ⟨release, found, recent⟩ := onward.resolve_left other
    refine safe_looking_bind (ReleaseLookup.looking_releaseVersion cluster) healthy found
      fun t turned => ?_
    rw [recent, if_neg Bool.false_ne_true]
    exact safe_ensureArtifact (turned.healthy healthy) _

/-- **Evaluations at the same time keep one artifact with its content.** Any number of evaluations, of Apps
of one namespace that get to the artifact, run over a store without faults, their calls in any order and
each of them cancelled at any moment. In every state that is reached

* an evaluation that failed was cancelled, and failed with that;
* there is one object at most under the name of the artifact;
* once an evaluation has succeeded, the artifact has its content from then on;
* an artifact that was there at first is there, with the metadata that it had, apart from the revision. -/
theorem evaluations_refresh {ι : Type} [DecidableEq ι] {apps : ι → App} (healthy : s.Healthy)
    (one : ∀ i, (apps i).space = space) (reaches : ∀ i, Reaches settings (apps i) s)
    {p : Crowd ι (Except AdmissionError State)}
    (run : Crowd.Steps (.start (fun i => (evaluate settings (apps i) false).program) s) p) :
    (∀ i e, p.programs i = .done (.error e) →
        p.cancelled i = true ∧ ∃ operation, e = .cancelled operation) ∧
      (p.store.select .configMap { space := some space, name := some settings.artifactName }).length ≤ 1 ∧
      (∀ i state, p.programs i = .done (.ok state) → ∀ q, Crowd.Steps p q → ∃ o,
        q.store.objects.get? (artifactKey settings space) = some o ∧
          o = { artifact settings space with metadata := o.metadata }) ∧
      ∀ o, s.objects.get? (artifactKey settings space) = some o → ∃ o',
        p.store.objects.get? (artifactKey settings space) = some o' ∧
          { o'.metadata with resourceVersion := none } = { o.metadata with resourceVersion := none } := by
  have safe : ∀ i, ((evaluate settings (apps i) false).program).Safe (bounds settings space) false s :=
    fun i => safe_evaluate healthy (reaches i) (one i)
  obtain ⟨sound, turned⟩ := (Crowd.sound_start safe).steps run
  refine ⟨fun i e failed => ?_, MemoryStore.length_select_le_one _ _ _ _, fun i state ended q later => ?_,
    fun o there => turned.kept there⟩
  · obtain ⟨told, known, ended⟩ := sound i
    rw [failed] at ended
    exact ⟨known ended.1, ended.2⟩
  · obtain ⟨_, _, ended'⟩ := sound i
    rw [ended] at ended'
    exact (sound.steps later).2.inPlace ended'

/-- A program has come to a success. -/
def succeededB {α : Type} : Program (Except AdmissionError α) → Bool
  | .done (.ok _) => true
  | _ => false

theorem exists_of_succeededB {α : Type} {p : Program (Except AdmissionError α)}
    (h : succeededB p = true) : ∃ a, p = .done (.ok a) := by
  unfold succeededB at h
  split at h
  · exact ⟨_, rfl⟩
  · cases h

/-- Two evaluations of the sample App, call by call in turns. -/
def sampleCrowd : Crowd Bool (Except AdmissionError State) :=
  (List.replicate 9 [true, false]).flatten.foldl Crowd.turn
    (.start (fun _ => (evaluate sampleSettings sampleApp false).program) sampleStore)

/-- Both succeed, the one that comes second with a replacement, and there is one artifact with its
content. -/
theorem evaluations_refresh_sample :
    (∃ state state', sampleCrowd.programs true = .done (.ok state) ∧
      sampleCrowd.programs false = .done (.ok state')) ∧
    (sampleCrowd.store.select .configMap
      { space := some "ns", name := some sampleSettings.artifactName }).length ≤ 1 ∧
    ∃ o, sampleCrowd.store.objects.get? (artifactKey sampleSettings "ns") = some o ∧
      o = { artifact sampleSettings "ns" with metadata := o.metadata } := by
  have healthy : sampleStore.Healthy := fun _ _ => rfl
  have reaches : Reaches sampleSettings sampleApp sampleStore :=
    ⟨"c1", rfl, Or.inr ⟨⟨19, 3, 0, [], []⟩, rfl, by decide⟩⟩
  have run : Crowd.Steps (.start (fun _ => (evaluate sampleSettings sampleApp false).program)
      sampleStore) sampleCrowd := Crowd.steps_turns _ _
  obtain ⟨-, single, placed, -⟩ :=
    evaluations_refresh healthy (fun _ => rfl) (fun _ => reaches) run
  have both : succeededB (sampleCrowd.programs true) = true ∧
      succeededB (sampleCrowd.programs false) = true := by decide +kernel
  obtain ⟨state, ended⟩ := exists_of_succeededB both.1
  obtain ⟨state', ended'⟩ := exists_of_succeededB both.2
  exact ⟨⟨state, state', ended, ended'⟩, single, placed true state ended sampleCrowd .refl⟩

end AppAdmission.Compliance
