import AppAdmission.Admission.Compliance
import AppAdmission.Proofs.Decision
import AppAdmission.Proofs.Patch.Sequence
import AppAdmission.Proofs.Resource.Places

/-!
# What the baseline comes to

An evaluation settles on one of four states. The one that calls for a patch appends the canonical
reference to the extra configuration, both in the document and in the App that is then read.
-/

namespace AppAdmission

open Json (Source)

namespace Compliance

variable {σ : Type} {env : Environment σ} {settings : ComplianceSettings} {a : App} {dryRun : Bool}
  {s t : σ} {state : State}

/-- What passes from steps to the whole holds of an evaluation if it holds of the lookup of a release and
of the upkeep of the artifact. -/
theorem evaluate_of_composable {P : (α : Type) → Decision α → Prop} (composable : Decision.Composable P)
    (look : ∀ cluster, P _ (ReleaseLookup.releaseVersion cluster))
    (ensure : P _ (ensureArtifact settings a.space dryRun)) : P _ (evaluate settings a dryRun) := by
  have ensured (state : State) : P _ (ensureArtifact settings a.space dryRun >>= fun _ => pure state) :=
    composable.bind ensure fun _ => composable.pure state
  unfold evaluate
  split
  · exact composable.pure _
  · split
    · exact ensured _
    · refine composable.bind (look _) fun release => ?_
      split
      · exact composable.pure _
      · exact ensured _

/-- The state on which an evaluation settles, and what it asks the store for on the way. -/
inductive Settled (env : Environment σ) (settings : ComplianceSettings) (a : App) (dryRun : Bool) :
    σ → State → σ → Prop where
  | notApplicable (outside : applicableCluster? settings a = none) (s : σ) :
      Settled env settings a dryRun s .notApplicable s
  | alreadyPatched {cluster : String} {s t : σ} (inside : applicableCluster? settings a = some cluster)
      (last : a.extraConfigs.getLast? = some (canonicalRef settings a.space))
      (ensured : Decision.eval env (ensureArtifact settings a.space dryRun) s = (.ok (), t)) :
      Settled env settings a dryRun s .alreadyPatched t
  | belowCutoff {cluster : String} {release : Version} {s t : σ}
      (inside : applicableCluster? settings a = some cluster)
      (other : a.extraConfigs.getLast? ≠ some (canonicalRef settings a.space))
      (found : Decision.eval env (ReleaseLookup.releaseVersion cluster) s = (.ok release, t))
      (old : release.ltB settings.cutoff = true) :
      Settled env settings a dryRun s (.belowCutoff release) t
  | patchRequired {cluster : String} {release : Version} {s u t : σ}
      (inside : applicableCluster? settings a = some cluster)
      (other : a.extraConfigs.getLast? ≠ some (canonicalRef settings a.space))
      (found : Decision.eval env (ReleaseLookup.releaseVersion cluster) s = (.ok release, u))
      (recent : release.ltB settings.cutoff = false)
      (ensured : Decision.eval env (ensureArtifact settings a.space dryRun) u = (.ok (), t)) :
      Settled env settings a dryRun s (.patchRequired (appendOps settings a)) t

/-- An evaluation that succeeds settles. -/
theorem Settled.of_eval (h : Decision.eval env (evaluate settings a dryRun) s = (.ok state, t)) :
    Settled env settings a dryRun s state t := by
  unfold evaluate at h
  cases inside : applicableCluster? settings a with
  | none =>
    rw [inside] at h
    obtain ⟨rfl, rfl⟩ := Decision.eval_pure_ok_iff.1 h
    exact .notApplicable inside s
  | some cluster =>
    simp only [inside] at h
    split at h
    · next last =>
      obtain ⟨_, u, ensured, h⟩ := Decision.eval_bind_ok_iff.1 h
      obtain ⟨rfl, rfl⟩ := Decision.eval_pure_ok_iff.1 h
      exact .alreadyPatched inside last ensured
    · next other =>
      obtain ⟨release, u, found, h⟩ := Decision.eval_bind_ok_iff.1 h
      split at h
      · next old =>
        obtain ⟨rfl, rfl⟩ := Decision.eval_pure_ok_iff.1 h
        exact .belowCutoff inside other found old
      · next recent =>
        obtain ⟨_, v, ensured, h⟩ := Decision.eval_bind_ok_iff.1 h
        obtain ⟨rfl, rfl⟩ := Decision.eval_pure_ok_iff.1 h
        exact .patchRequired inside other found (Bool.eq_false_iff.2 recent) ensured

/-- An evaluation that settles succeeds. -/
theorem Settled.eval (h : Settled env settings a dryRun s state t) :
    Decision.eval env (evaluate settings a dryRun) s = (.ok state, t) := by
  unfold evaluate
  cases h with
  | notApplicable outside => rw [outside, Decision.eval_pure]
  | alreadyPatched inside last ensured =>
    simp only [inside, last, if_true]
    rw [Decision.eval_bind_of_ok ensured, Decision.eval_pure]
  | belowCutoff inside other found old =>
    simp only [inside, other, if_false]
    rw [Decision.eval_bind_of_ok found, if_pos old, Decision.eval_pure]
  | patchRequired inside other found recent ensured =>
    simp only [inside, other, if_false]
    rw [Decision.eval_bind_of_ok found, recent, if_neg (by decide),
      Decision.eval_bind_of_ok ensured, Decision.eval_pure]

/-- The reference that a state appends. -/
def State.appends (settings : ComplianceSettings) (space : String) : State → Option ExtraConfig
  | patchRequired _ => some (canonicalRef settings space)
  | _ => none

/-- The array of extra configuration in a document, empty if there is none. -/
def extraItems (doc : Json) : List Json :=
  match doc.at? App.extrasPlace with
  | some (.arr items) => items
  | _ => []

theorem extraItems_of_arr {doc : Json} {items : List Json}
    (h : doc.at? App.extrasPlace = some (.arr items)) : extraItems doc = items := by
  unfold extraItems
  rw [h]

/-- An App without extra configuration has none in its document. -/
theorem extraItems_eq_nil {doc : Json} (r : App.ReadFrom doc a) (h : a.extraConfigs = []) :
    extraItems doc = [] := by
  unfold extraItems
  split
  · next items there =>
    have read := App.decode_extras r.free r.read there
    rw [h, Source.ofJson, Source.list, Source.ofItems_eq_map] at read
    cases items with
    | nil => rfl
    | cons j rest =>
      rw [List.map_cons, List.mapM_cons] at read
      obtain ⟨_, _, read⟩ := Option.bind_eq_some_iff.1 read
      obtain ⟨_, _, read⟩ := Option.bind_eq_some_iff.1 read
      cases read
  · rfl

theorem canonicalRef_fits (space : String) : (canonicalRef settings space).priority < 0x100000000 := by
  show ExtraConfig.maxPriority < 0x100000000
  decide

/-- The operations that append the reference put the longer array in its place, and the App that is
then read has the reference at the end. -/
theorem appendOps_effect {doc result : Json} (r : App.ReadFrom doc a)
    (h : Patch.apply (appendOps settings a) doc = .ok result) :
    result = doc.put App.extrasPlace
        (.arr (extraItems doc ++ [(canonicalRef settings a.space).toJson])) ∧
      App.ReadFrom result (a.withExtras (a.extraConfigs ++ [canonicalRef settings a.space])) := by
  unfold appendOps at h
  by_cases empty : a.extraConfigs = []
  · simp only [empty, List.isEmpty_nil, if_true] at h
    obtain ⟨mid, first, second⟩ := Patch.apply_cons_ok_iff.1 h
    obtain ⟨rfl, started, r'⟩ := r.apply_start first
    obtain ⟨items, there, rfl, r''⟩ :=
      r'.apply_append (canonicalRef_fits a.space) ((Patch.apply_singleton _ _).symm.trans second)
    obtain rfl : [] = items := by simpa [started] using there
    rw [extraItems_eq_nil r empty, Json.put_put, empty] at *
    exact ⟨rfl, r''⟩
  · have more : a.extraConfigs.isEmpty = false := by simpa using empty
    simp only [more, Bool.false_eq_true, if_false] at h
    obtain ⟨items, there, rfl, r'⟩ :=
      r.apply_append (canonicalRef_fits a.space) ((Patch.apply_singleton _ _).symm.trans h)
    rw [extraItems_of_arr there]
    exact ⟨rfl, r'⟩

/-- The App with a reference at the end of its extra configuration, if there is one to append. -/
def extended (a : App) (extra : Option ExtraConfig) : App :=
  extra.elim a fun e => a.withExtras (a.extraConfigs ++ [e])

/-- The document with a reference at the end of its extra configuration, if there is one. -/
def extendedIn (doc : Json) (extra : Option ExtraConfig) : Json :=
  extra.elim doc fun e => doc.put App.extrasPlace (.arr (extraItems doc ++ [e.toJson]))

/-- The patch of a state on which an evaluation settles appends what the state calls for. -/
theorem Settled.effect {doc result : Json} (settled : Settled env settings a dryRun s state t)
    (r : App.ReadFrom doc a) (h : Patch.apply state.patch doc = .ok result) :
    result = extendedIn doc (state.appends settings a.space) ∧
      App.ReadFrom result (extended a (state.appends settings a.space)) := by
  cases settled with
  | patchRequired => exact appendOps_effect r h
  | notApplicable | alreadyPatched | belowCutoff =>
    cases h
    exact ⟨rfl, r⟩

end Compliance

end AppAdmission
