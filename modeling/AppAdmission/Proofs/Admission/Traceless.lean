import AppAdmission.Proofs.Admission.Evaluation
import AppAdmission.Proofs.Store.Wavering

/-!
# Evaluations that fail

An evaluation writes at most once, and nothing that it does after the write can fail. One that fails
has therefore left the store as it was, whatever the store is made to fail and at whatever question the
request is given up. The one thing that is asked for is that the store does not act on a call whose
answer is never heard.
-/

namespace AppAdmission

open MemoryStore (wavering)

namespace MemoryStore

variable {α : Type} {s : MemoryStore} {x y : MemoryStore × List Interest}

/-- The objects of a store and its count of revisions. -/
def contents (s : MemoryStore) : OrderedMap StoreKey StoredObject × Nat := (s.objects, s.revision)

/-- A call without an object writes nothing. -/
theorem contents_answer_of_given {c : StoreCall} (nothing : c.given? = none) (s : MemoryStore) :
    (s.answer c).2.contents = s.contents := by
  cases Effect.of_answer s c with
  | kept _ objects revision => rw [contents, objects, revision, contents]
  | wrote _ _ _ _ _ _ given =>
    obtain ⟨o, asked, -⟩ := given
    rw [nothing] at asked
    cases asked

/-- A call that fails writes nothing. -/
theorem contents_answer_of_error {c : StoreCall} {e : StoreError} (failed : (s.answer c).1 = .error e) :
    (s.answer c).2.contents = s.contents := by
  cases Effect.of_answer s c with
  | kept _ objects revision => rw [contents, objects, revision, contents]
  | wrote _ _ written =>
    rw [failed] at written
    cases c <;> cases written

/-- The request hears of every call that the store acts on. -/
def Heard (x : MemoryStore × List Interest) : Prop := .lostAfter ∉ x.2

/-- What is heard is the answer of the store; what is not heard was not acted on. -/
theorem Heard.answer (heard : Heard x) (c : StoreCall) :
    ((wavering.answer x c).1 = some (x.1.answer c).1 ∨
      (wavering.answer x c).1 = none ∧ (wavering.answer x c).2.1 = x.1) ∧
    Heard (wavering.answer x c).2 := by
  obtain ⟨s, _ | ⟨i, later⟩⟩ := x
  · exact ⟨.inl rfl, heard⟩
  · obtain ⟨now, heard'⟩ := List.ne_and_not_mem_of_not_mem_cons heard
    cases i with
    | wanted => exact ⟨.inl rfl, heard'⟩
    | lostBefore => exact ⟨.inr ⟨rfl, rfl⟩, heard'⟩
    | lostAfter => exact absurd rfl now

theorem Heard.poll (heard : Heard x) : Heard (wavering.poll x).2 := by
  obtain ⟨s, _ | ⟨i, later⟩⟩ := x
  · exact heard
  · exact (List.ne_and_not_mem_of_not_mem_cons heard).2

theorem Heard.run (heard : Heard x) (p : Program α) : Heard (p.run wavering x).2 := by
  induction p generalizing x with
  | done a => exact heard
  | poll next ih => exact ih _ heard.poll
  | call c next ih => exact ih _ (heard.answer c).2

theorem Heard.eval {d : Decision α} {result : Except AdmissionError α} (heard : Heard x)
    (ran : Decision.eval wavering d x = (result, y)) : Heard y := by
  have left : (Decision.eval wavering d x).2 = y := congrArg Prod.snd ran
  rw [← left]
  exact heard.run d.program

end MemoryStore

namespace Decision

open MemoryStore (Heard)

variable {α β : Type} {x y : MemoryStore × List Interest} {d : Decision α}

/-- The decision does not fail. -/
def Sure (d : Decision α) (x : MemoryStore × List Interest) : Prop :=
  ∃ a, (eval wavering d x).1 = .ok a

/-- If the decision fails, the contents of the store are what they were. -/
def Traceless (d : Decision α) (x : MemoryStore × List Interest) : Prop :=
  ∀ e y, eval wavering d x = (.error e, y) → y.1.contents = x.1.contents

theorem Preserves.left {γ : Type} {f : MemoryStore → γ} {result : Except AdmissionError α}
    (preserves : Preserves f d x) (ran : eval wavering d x = (result, y)) : f y.1 = f x.1 := by
  unfold Preserves at preserves
  rw [ran] at preserves
  exact preserves

namespace Traceless

theorem of_preserves (preserves : Preserves MemoryStore.contents d x) : Traceless d x :=
  fun _ _ failed => preserves.left failed

theorem immediate (h : d.Immediate) (x : MemoryStore × List Interest) : Traceless d x :=
  .of_preserves (.immediate h x)

/-- After a first step that changed something, nothing may fail; after one that did not, what follows
is to leave no trace either. -/
theorem bind {f : α → Decision β} (first : Traceless d x)
    (rest : ∀ a y, eval wavering d x = (.ok a, y) →
      Sure (f a) y ∨ y.1.contents = x.1.contents ∧ Traceless (f a) y) : Traceless (d >>= f) x := by
  intro e z failed
  rcases eval_bind_error_iff.1 failed with failed | ⟨a, y, went, failed⟩
  · exact first e z failed
  · rcases rest a y went with ⟨b, sure⟩ | ⟨same, traceless⟩
    · rw [failed] at sure
      cases sure
    · exact (traceless e z failed).trans same

/-- A call that is not answered was not acted on. -/
theorem tryCall (heard : Heard x) (operation : String) (c : StoreCall) :
    Traceless (tryCall operation c) x := by
  have active := Preserves.ensureActive (f := MemoryStore.contents) operation x
  refine bind (.of_preserves active) fun _ y went => .inr ⟨active.left went, ?_⟩
  intro e z failed
  have settled : settle operation c (wavering.answer y c).1 = .error e := congrArg Prod.fst failed
  have left : (wavering.answer y c).2 = z := congrArg Prod.snd failed
  rcases ((heard.eval went).answer c).1 with answered | ⟨-, same⟩
  · rw [answered] at settled
    cases settled
  · rw [← left, same]

theorem storeCall (heard : Heard x) (operation : String) (c : StoreCall) :
    Traceless (storeCall operation c) x := by
  refine bind (tryCall heard operation c) fun reply y tried => ?_
  have answered := eval_tryCall_wavering tried
  cases reply with
  | ok answer => exact .inl ⟨answer, rfl⟩
  | error e =>
    have same := MemoryStore.contents_answer_of_error (congrArg Prod.fst answered)
    rw [answered] at same
    exact .inr ⟨same, immediate (.throw _) y⟩

end Traceless

/-- A call without an object leaves the contents, whether it is answered or not. -/
theorem Preserves.reading {c : StoreCall} (nothing : c.given? = none) (operation : String)
    (x : MemoryStore × List Interest) :
    Preserves MemoryStore.contents (Decision.storeCall operation c) x :=
  .storeCall (MemoryStore.contents_answer_of_given nothing) operation x

end Decision

namespace Compliance

open Decision (Traceless Preserves)
open MemoryStore (Heard)

variable {settings : ComplianceSettings} {space : String} {dryRun : Bool}
  {x : MemoryStore × List Interest}

/-- The update comes last. -/
theorem traceless_refreshArtifact (heard : Heard x) (desired : StoredObject) (space : String) :
    Traceless (refreshArtifact desired space) x := by
  have fetch := Preserves.reading (c := .get .configMap (some space) desired.name) rfl
    "get compliance artifact" x
  unfold refreshArtifact
  refine .bind (.of_preserves fetch) fun current y got => .inr ⟨fetch.left got, ?_⟩
  exact .bind (.storeCall (heard.eval got) _ _) fun _ _ _ => .inl ⟨(), rfl⟩

/-- A creation that succeeds comes last, and one that fails wrote nothing. -/
theorem traceless_ensureArtifact (heard : Heard x) :
    Traceless (ensureArtifact settings space dryRun) x := by
  cases dryRun with
  | true => exact .immediate (.pure ()) x
  | false =>
    have active := Preserves.ensureActive (f := MemoryStore.contents) "ensure compliance artifact" x
    unfold ensureArtifact
    simp only [Bool.false_eq_true, if_false]
    refine .bind (.of_preserves active) fun _ y went => .inr ⟨active.left went, ?_⟩
    have heard' := heard.eval went
    refine .bind (.tryCall heard' _ _) fun reply z tried => ?_
    have answered := Decision.eval_tryCall_wavering tried
    have heard'' := heard'.eval tried
    match reply with
    | .ok _ => exact .inl ⟨(), rfl⟩
    | .error e =>
      have same := MemoryStore.contents_answer_of_error (congrArg Prod.fst answered)
      rw [answered] at same
      refine .inr ⟨same, ?_⟩
      cases e with
      | alreadyExists => exact traceless_refreshArtifact heard'' _ _
      | notFound | backend => exact .immediate (.throw _) z

theorem traceless_evaluate (heard : Heard x) (settings : ComplianceSettings) (app : App)
    (dryRun : Bool) : Traceless (evaluate settings app dryRun) x := by
  -- what follows the upkeep of the artifact is a state
  have ensured {y : MemoryStore × List Interest} (heard : Heard y) (state : State) :
      Traceless (ensureArtifact settings app.space dryRun >>= fun _ => pure state) y :=
    .bind (traceless_ensureArtifact heard) fun _ _ _ => .inl ⟨state, rfl⟩
  unfold evaluate
  split
  · exact .immediate (.pure _) x
  · next cluster _ =>
    split
    · exact ensured heard _
    · have looked := Preserves.looking (ReleaseLookup.looking_releaseVersion cluster)
        (fun _ nothing => MemoryStore.contents_answer_of_given nothing) x
      refine .bind (.of_preserves looked) fun release y found => .inr ⟨looked.left found, ?_⟩
      split
      · exact .immediate (.pure _) y
      · exact ensured (heard.eval found) _

/-- **An evaluation that fails leaves no trace.** Whatever the store holds and is made to fail, whatever
the settings and the App, and at whatever questions the request is given up: if the evaluation fails
then the objects of the store and its count of revisions are what they were before. The store may not act
on a call of which the request never hears. -/
theorem evaluate_traceless (settings : ComplianceSettings) (app : App) (dryRun : Bool)
    {s t : MemoryStore} {interests later : List Interest} {e : AdmissionError}
    (heard : Interest.lostAfter ∉ interests)
    (failed : Decision.eval wavering (evaluate settings app dryRun) (s, interests) =
      (.error e, (t, later))) : t.objects = s.objects ∧ t.revision = s.revision := by
  have same : t.contents = s.contents :=
    traceless_evaluate (x := (s, interests)) heard settings app dryRun e (t, later) failed
  exact Prod.mk.inj same

/-- The artifact is there and cannot be replaced. The update is tried, and the store holds what it
held. -/
theorem evaluate_traceless_sample :
    ∃ t e, Decision.eval wavering (evaluate sampleSettings sampleApp false)
        (tendedStore.failOn .update .configMap (.backend "down"), []) = (.error e, (t, [])) ∧
      t.calls .update .configMap = 1 ∧ t.objects = tendedStore.objects ∧
      t.revision = tendedStore.revision := by
  obtain ⟨t, failed, tried⟩ : ∃ t, Decision.eval wavering (evaluate sampleSettings sampleApp false)
      (tendedStore.failOn .update .configMap (.backend "down"), []) =
        (.error (.store "update compliance artifact" (.backend "down")), (t, [])) ∧
      t.calls .update .configMap = 1 := ⟨_, rfl, by decide +kernel⟩
  obtain ⟨objects, revision⟩ :=
    evaluate_traceless sampleSettings sampleApp false List.not_mem_nil failed
  exact ⟨t, _, failed, tried, objects, revision⟩

/-- A store that acts on a call of which the request never hears keeps what it did. -/
example : (Decision.eval wavering (evaluate sampleSettings sampleApp false)
    (sampleStore, [.wanted, .wanted, .wanted, .wanted, .lostAfter])).2.1.revision =
      sampleStore.revision + 1 := by decide +kernel

end Compliance

end AppAdmission
