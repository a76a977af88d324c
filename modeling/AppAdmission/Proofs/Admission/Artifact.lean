import AppAdmission.Admission.Compliance
import AppAdmission.Proofs.Store.Memory

/-!
# The artifact in a store in memory

Without faults the artifact is put under its key whether it is there or not, and nothing else is
touched. What is there afterwards is what would be put there again: a second time changes no more
than its revision.
-/

namespace AppAdmission.Compliance

variable {settings : ComplianceSettings} {space : String} {s t : MemoryStore}

/-- Where the artifact of a namespace is kept. -/
def artifactKey (settings : ComplianceSettings) (space : String) : StoreKey :=
  ⟨.configMap, space, settings.artifactName⟩

/-- What is put in the place of an object, or where there is none. -/
def restored (settings : ComplianceSettings) (space : String) (current : Option StoredObject) :
    StoredObject :=
  current.elim (artifact settings space) (refreshed (artifact settings space))

theorem unrevised_restored (current : Option StoredObject) :
    (restored settings space current).unrevised = restored settings space current := by
  cases current <;> rfl

/-- What was put in a place is put there again. -/
theorem restored_again {placed : StoredObject} {current : Option StoredObject}
    (h : placed.unrevised = restored settings space current) :
    restored settings space (some placed) = restored settings space current := by
  have kept : restored settings space (some placed) =
      { artifact settings space with metadata := placed.unrevised.metadata } := rfl
  rw [kept, h]
  cases current <;> rfl

/-- The key of what is put in a place is that of the artifact. -/
theorem key_restored {current : Option StoredObject}
    (h : s.objects.get? (artifactKey settings space) = current) :
    StoreKey.of .configMap (restored settings space current) = artifactKey settings space := by
  cases current with
  | none => rfl
  | some o => exact (MemoryStore.key_of_get? h).symm

/-- The artifact was put in its place, and nothing else was done to the objects. -/
def Ensured (settings : ComplianceSettings) (space : String) (s t : MemoryStore) : Prop :=
  ∃ placed, t.objects = s.objects.insert (artifactKey settings space) placed ∧
    placed.unrevised = restored settings space (s.objects.get? (artifactKey settings space))

theorem ensured_write {current : Option StoredObject}
    (h : s.objects.get? (artifactKey settings space) = current) :
    Ensured settings space s (s.write .configMap (restored settings space current)).2 := by
  refine ⟨(s.write .configMap (restored settings space current)).1, ?_, ?_⟩
  · rw [← key_restored h]
    exact MemoryStore.objects_write s .configMap _
  · rw [MemoryStore.unrevised_write, unrevised_restored, h]

/-- The artifact that is there is replaced. -/
theorem eval_refreshArtifact (h : s.Healthy) {current : StoredObject}
    (there : s.objects.get? (artifactKey settings space) = some current) :
    ∃ t, Decision.eval MemoryStore.environment
        (refreshArtifact (artifact settings space) space) s = (.ok (), t) ∧
      Ensured settings space s t := by
  have key := key_restored there
  have got : s.answer (.get .configMap (some space) (artifact settings space).name) =
      (.ok current, s.count .get .configMap) := MemoryStore.answer_get (h _ _) there
  have healthy : (s.count .get .configMap).Healthy := h
  have replaced := MemoryStore.answer_update (o := restored settings space (some current))
    (healthy _ _) (key.symm ▸ there) rfl
  have ensured : Ensured settings space ((s.count .get .configMap).count .update .configMap) _ :=
    ensured_write there
  refine ⟨_, ?_, ensured⟩
  unfold refreshArtifact
  rw [Decision.eval_bind_of_ok (MemoryStore.eval_storeCall_of_ok got)]
  exact Decision.eval_bind_of_ok (MemoryStore.eval_storeCall_of_ok replaced)

/-- Without faults the artifact is put in its place. -/
theorem eval_ensureArtifact (settings : ComplianceSettings) (space : String) (h : s.Healthy) :
    ∃ t, Decision.eval MemoryStore.environment (ensureArtifact settings space false) s =
        (.ok (), t) ∧ Ensured settings space s t := by
  have active : Decision.eval MemoryStore.environment
      (Decision.ensureActive "ensure compliance artifact") s = (.ok (), s) := rfl
  unfold ensureArtifact
  simp only [Bool.false_eq_true, if_false]
  rw [Decision.eval_bind_of_ok active]
  cases there : s.objects.get? (artifactKey settings space) with
  | none =>
    have created : s.answer (.create .configMap (artifact settings space)) = _ :=
      MemoryStore.answer_create (h _ _) there
    have ensured : Ensured settings space (s.count .create .configMap) _ := ensured_write there
    refine ⟨_, ?_, ensured⟩
    rw [Decision.eval_bind_of_ok (MemoryStore.eval_tryCall _ _ _), created]
    rfl
  | some current =>
    have found : s.answer (.create .configMap (artifact settings space)) = _ :=
      MemoryStore.answer_create_again (h _ _) there
    have healthy : (s.count .create .configMap).Healthy := h
    obtain ⟨t, ran, ensured⟩ := eval_refreshArtifact healthy there
    refine ⟨t, ?_, ensured⟩
    rw [Decision.eval_bind_of_ok (MemoryStore.eval_tryCall _ _ _), found]
    exact ran

/-- What was put in its place a second time differs from the first time in its revision alone. -/
theorem Ensured.again {u : MemoryStore} (first : Ensured settings space s t)
    (second : Ensured settings space t u) :
    MemoryStore.AlikeBut (artifactKey settings space) u t := by
  obtain ⟨placed, put, same⟩ := first
  obtain ⟨placed', put', same'⟩ := second
  have there : t.objects.get? (artifactKey settings space) = some placed := by
    rw [put, OrderedMap.get?_insert_self]
  constructor
  · intro other ne
    rw [put', OrderedMap.get?_insert_ne _ _ ne]
  · rw [there, restored_again same, ← same] at same'
    rw [put', OrderedMap.get?_insert_self, there]
    exact congrArg some same'

/-- Seeing to the artifact a second time goes through and changes no more than its revision. -/
theorem eval_ensureArtifact_again (h : s.Healthy)
    (ran : Decision.eval MemoryStore.environment (ensureArtifact settings space false) s = (.ok (), t)) :
    ∃ u, Decision.eval MemoryStore.environment (ensureArtifact settings space false) t = (.ok (), u) ∧
      MemoryStore.AlikeBut (artifactKey settings space) u t := by
  obtain ⟨t', ran', first⟩ := eval_ensureArtifact settings space h
  rw [ran] at ran'
  cases ran'
  obtain ⟨u, again, second⟩ := eval_ensureArtifact settings space (h.eval ran)
  exact ⟨u, again, first.again second⟩

end AppAdmission.Compliance
