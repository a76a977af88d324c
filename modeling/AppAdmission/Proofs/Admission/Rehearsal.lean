import AppAdmission.Proofs.Admission.Conduct
import AppAdmission.Proofs.Admission.Traceless

/-!
# Rehearsals

A dry run is the evaluation without the upkeep of the artifact. Up to there the two ask the same
questions, and what they make of the answers is settled by then, so that over the same store a rehearsal
shows what the evaluation would come to, unless the upkeep fails. It asks for nothing but the record of
the cluster and leaves the store as it is.
-/

namespace AppAdmission

open MemoryStore (wavering)

namespace Compliance

variable {σ : Type} {env : Environment σ} {settings : ComplianceSettings} {app : App}

/-- What a rehearsal and the evaluation come to: the same, or the rehearsal a state that counts on the
artifact and the evaluation the failure of its upkeep. -/
inductive Previews : Except AdmissionError State → Except AdmissionError State → Prop where
  | same (result : Except AdmissionError State) : Previews result result
  | unkept {state : State} (upholds : state.Upholds) (e : AdmissionError) :
      Previews (.ok state) (.error e)

/-- A state after the upkeep is previewed by the state. -/
theorem previews_ensured (space : String) (state : State) (upholds : state.Upholds) (s : σ) :
    Previews (.ok state) (Decision.eval env
      (ensureArtifact settings space false >>= fun _ => pure state) s).1 := by
  rw [Decision.eval_bind]
  rcases Decision.eval env (ensureArtifact settings space false) s with ⟨e | _, t⟩
  · exact .unkept upholds e
  · exact .same (.ok state)

/-- Over the same store, whatever it answers, the rehearsal previews the evaluation. -/
theorem previews_evaluate (env : Environment σ) (settings : ComplianceSettings) (app : App) (s : σ) :
    Previews (Decision.eval env (evaluate settings app true) s).1
      (Decision.eval env (evaluate settings app false) s).1 := by
  have rehearsed (state : State) :
      (ensureArtifact settings app.space true >>= fun _ => pure state) = pure state := rfl
  unfold evaluate
  cases applicableCluster? settings app with
  | none => exact .same _
  | some cluster =>
    simp only [rehearsed]
    split
    · exact previews_ensured app.space .alreadyPatched trivial s
    · rw [Decision.eval_bind, Decision.eval_bind]
      rcases Decision.eval env (ReleaseLookup.releaseVersion cluster) s with ⟨e | release, t⟩
      · exact .same (.error e)
      · simp only
        split
        · exact .same _
        · exact previews_ensured app.space (.patchRequired _) trivial t

/-- All that a rehearsal asks for is a list. -/
theorem Course.spared {h : List Event} {result : Except AdmissionError State}
    (course : Course settings app true h result) : ∀ c ∈ Event.calls h, c.op = .list := by
  obtain ⟨first, rest, r, rfl, lists, upkept, -⟩ := course.upkept
  intro c there
  rw [Event.calls_append, upkept.spared rfl, List.append_nil] at there
  exact lists c there

/-- A rehearsal only looks. -/
theorem looking_evaluate (settings : ComplianceSettings) (app : App) :
    (evaluate settings app true).Looking :=
  evaluate_of_composable Decision.Looking.composable ReleaseLookup.looking_releaseVersion (.pure ())

/-- **A dry run is a faithful preview.** Over a store in memory, whatever it holds and is made to fail,
and whether the request stays wanted or is given up at any of its questions, a rehearsal leaves the
objects and the revisions as they are and makes no call other than lists. Every state that the evaluation
comes to over the same store is the one that the rehearsal shows, with the same patch, and every failure
that the rehearsal shows is the failure of the evaluation. -/
theorem evaluate_rehearsal (settings : ComplianceSettings) (app : App)
    (x : MemoryStore × List Interest) :
    ((Decision.eval wavering (evaluate settings app true) x).2.1.objects = x.1.objects ∧
      (Decision.eval wavering (evaluate settings app true) x).2.1.revision = x.1.revision) ∧
    (∀ c ∈ Event.calls (Decision.transcript wavering (evaluate settings app true) x), c.op = .list) ∧
    (∀ state, (Decision.eval wavering (evaluate settings app false) x).1 = .ok state →
      (Decision.eval wavering (evaluate settings app true) x).1 = .ok state) ∧
    ∀ e, (Decision.eval wavering (evaluate settings app true) x).1 = .error e →
      (Decision.eval wavering (evaluate settings app false) x).1 = .error e := by
  have untouched := Decision.Preserves.looking (looking_evaluate settings app)
    (fun _ nothing => MemoryStore.contents_answer_of_given nothing) x
  have played := Decision.plays_eval wavering (evaluate settings app true) x
  have previews := previews_evaluate wavering settings app x
  refine ⟨Prod.mk.inj untouched, (Course.of_plays played).spared, ?_, ?_⟩
  · intro state came
    rw [came] at previews
    generalize (Decision.eval wavering (evaluate settings app true) x).1 = preview at previews ⊢
    cases previews with
    | same => rfl
  · intro e failed
    rw [failed] at previews
    generalize (Decision.eval wavering (evaluate settings app false) x).1 = result at previews ⊢
    cases previews with
    | same => rfl

/-- The patch that the evaluation of the sample App comes to is the one that its rehearsal shows. -/
theorem evaluate_rehearsal_sample :
    (Decision.eval wavering (evaluate sampleSettings sampleApp true) (tendedStore, [])).1 =
        .ok (.patchRequired (appending sampleSettings sampleApp)) ∧
      (Decision.eval wavering (evaluate sampleSettings sampleApp true) (tendedStore, [])).2.1.objects =
        tendedStore.objects := by
  obtain ⟨⟨objects, -⟩, -, shown, -⟩ := evaluate_rehearsal sampleSettings sampleApp (tendedStore, [])
  exact ⟨shown _ (by decide +kernel), objects⟩

end Compliance

end AppAdmission
