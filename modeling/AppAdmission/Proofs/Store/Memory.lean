import AppAdmission.Proofs.Decision
import AppAdmission.Proofs.Members
import AppAdmission.Store.Environment

/-!
# Decisions over a store in memory

Calls are counted but never change which calls are made to fail, so a store without faults stays
without them. A decision that only reads depends on the objects and the faults alone and leaves both
as they are; made again it comes to the same.
-/

namespace AppAdmission

/-- The object without its revision. -/
def StoredObject.unrevised (o : StoredObject) : StoredObject :=
  { o with metadata := { o.metadata with resourceVersion := none } }

namespace MemoryStore

variable {α β : Type} {s t : MemoryStore}

/-- No operation is made to fail. -/
def Healthy (s : MemoryStore) : Prop :=
  ∀ op kind, s.faults op kind = none

/-- Stores with the same objects and the same faults. -/
structure Alike (s t : MemoryStore) : Prop where
  objects : s.objects = t.objects
  faults : s.faults = t.faults

/-- Stores with the same objects, apart from the revision of the one under a key. -/
structure AlikeBut (key : StoreKey) (s t : MemoryStore) : Prop where
  others : ∀ other, other ≠ key → s.objects.get? other = t.objects.get? other
  unrevised : (s.objects.get? key).map StoredObject.unrevised =
    (t.objects.get? key).map StoredObject.unrevised

theorem Alike.but (h : Alike s t) (key : StoreKey) : AlikeBut key s t := by
  constructor
  · intro other _
    rw [h.objects]
  · rw [h.objects]

theorem Alike.trans {u : MemoryStore} (h : Alike s t) (h' : Alike t u) : Alike s u :=
  ⟨h.objects.trans h'.objects, h.faults.trans h'.faults⟩

theorem Alike.symm (h : Alike s t) : Alike t s :=
  ⟨h.objects.symm, h.faults.symm⟩

/-- An object that is found is under its own key. -/
theorem key_of_get? {key : StoreKey} {o : StoredObject} (h : s.objects.get? key = some o) :
    key = StoreKey.of key.kind o :=
  s.keyed (key, o) (Members.mem_of_find? h)

theorem faults_perform (s : MemoryStore) (c : StoreCall) : (s.perform c).2.faults = s.faults := by
  cases c with
  | get kind space name =>
    unfold perform
    dsimp only
    split <;> rfl
  | list kind filter => rfl
  | create kind o =>
    unfold perform
    dsimp only
    split <;> rfl
  | update kind o =>
    unfold perform
    dsimp only
    split
    · rfl
    · split <;> rfl

/-- Answering a call leaves the faults as they are. -/
theorem faults_answer (s : MemoryStore) (c : StoreCall) : (s.answer c).2.faults = s.faults := by
  unfold answer
  dsimp only
  split
  · rfl
  · exact faults_perform _ c

/-- Whatever a program does, the faults stay as they are. -/
theorem faults_run (p : Program α) (s : MemoryStore) : (p.run environment s).2.faults = s.faults := by
  induction p generalizing s with
  | done a => rfl
  | poll next ih => exact ih _ s
  | call c next ih =>
    have step : (environment.answer s c).2.faults = s.faults := faults_answer s c
    exact (ih _ _).trans step

theorem Healthy.run {p : Program α} {a : α} (h : s.Healthy) (ran : p.run environment s = (a, t)) :
    t.Healthy := by
  intro op kind
  have same : (p.run environment s).2.faults = s.faults := faults_run p s
  rw [ran] at same
  rw [same]
  exact h op kind

theorem Healthy.eval {d : Decision α} {result : Except AdmissionError α} (h : s.Healthy)
    (ran : Decision.eval environment d s = (result, t)) : t.Healthy :=
  h.run ran

/-- A call that is made to fail gives that failure, and is only counted. -/
theorem answer_of_fault {c : StoreCall} {e : StoreError} (fault : s.faults c.op c.kind = some e) :
    s.answer c = (c.fail e, s.count c.op c.kind) := by
  unfold MemoryStore.answer
  have fault' : (s.count c.op c.kind).faults c.op c.kind = some e := fault
  simp only [fault']
  rfl

/-- A call that is not made to fail is performed. -/
theorem answer_of_faults {c : StoreCall} (none : s.faults c.op c.kind = none) :
    s.answer c = (s.count c.op c.kind).perform c := by
  unfold MemoryStore.answer
  have none' : (s.count c.op c.kind).faults c.op c.kind = Option.none := none
  simp only [none']

/-- Without faults every call is performed. -/
theorem Healthy.answer (h : s.Healthy) (c : StoreCall) :
    s.answer c = (s.count c.op c.kind).perform c :=
  answer_of_faults (h c.op c.kind)

section Answers

variable {kind : ResourceKind} {o current : StoredObject}

/-- An object that is there is got. -/
theorem answer_get {space : Option String} {name : String} (none : s.faults .get kind = none)
    (there : s.peek kind space name = some current) :
    s.answer (.get kind space name) = (.ok current, s.count .get kind) := by
  have there' : (s.count .get kind).peek kind space name = some current := there
  rw [answer_of_faults none]
  simp only [perform, StoreCall.op, StoreCall.kind, there']

/-- An object that is missing is not found. -/
theorem answer_get_missing {space : Option String} {name : String} (none : s.faults .get kind = none)
    (absent : s.peek kind space name = .none) :
    s.answer (.get kind space name) = (.error (.notFound kind name), s.count .get kind) := by
  have absent' : (s.count .get kind).peek kind space name = .none := absent
  rw [answer_of_faults none]
  simp only [perform, StoreCall.op, StoreCall.kind, absent']

/-- Listed is what a filter asks for. -/
theorem answer_list {filter : ListFilter} (none : s.faults .list kind = none) :
    s.answer (.list kind filter) = (.ok (s.select kind filter), s.count .list kind) := by
  rw [answer_of_faults none]
  rfl

/-- An object that is missing is created. -/
theorem answer_create (none : s.faults .create kind = none)
    (absent : s.objects.get? (.of kind o) = .none) :
    s.answer (.create kind o) =
      (.ok ((s.count .create kind).write kind o).1, ((s.count .create kind).write kind o).2) := by
  have absent' : (s.count .create kind).objects.get? (.of kind o) = .none := absent
  rw [answer_of_faults none]
  simp only [perform, StoreCall.op, StoreCall.kind, absent']

/-- An object that is there is not created again. -/
theorem answer_create_again (none : s.faults .create kind = none)
    (there : s.objects.get? (.of kind o) = some current) :
    s.answer (.create kind o) = (.error (.alreadyExists kind o.name), s.count .create kind) := by
  have there' : (s.count .create kind).objects.get? (.of kind o) = some current := there
  rw [answer_of_faults none]
  simp only [perform, StoreCall.op, StoreCall.kind, there']

/-- An update that is based on the object which is there replaces it. -/
theorem answer_update (none : s.faults .update kind = none)
    (there : s.objects.get? (.of kind o) = some current) (based : currentB o current = true) :
    s.answer (.update kind o) =
      (.ok ((s.count .update kind).write kind o).1, ((s.count .update kind).write kind o).2) := by
  have there' : (s.count .update kind).objects.get? (.of kind o) = some current := there
  rw [answer_of_faults none]
  simp only [perform, StoreCall.op, StoreCall.kind, there', based, if_true]

/-- An update of an object that is missing does not find it. -/
theorem answer_update_missing (none : s.faults .update kind = none)
    (absent : s.objects.get? (.of kind o) = .none) :
    s.answer (.update kind o) = (.error (.notFound kind o.name), s.count .update kind) := by
  have absent' : (s.count .update kind).objects.get? (.of kind o) = .none := absent
  rw [answer_of_faults none]
  simp only [perform, StoreCall.op, StoreCall.kind, absent']

/-- An update that is not based on the object which is there is refused. -/
theorem answer_update_stale (none : s.faults .update kind = none)
    (there : s.objects.get? (.of kind o) = some current) (stale : currentB o current = false) :
    s.answer (.update kind o) =
      (.error (conflict kind o.name (o.metadata.resourceVersion.getD "")), s.count .update kind) := by
  have there' : (s.count .update kind).objects.get? (.of kind o) = some current := there
  rw [answer_of_faults none]
  simp only [perform, StoreCall.op, StoreCall.kind, there', stale, Bool.false_eq_true, if_false]

end Answers

theorem unrevised_write (s : MemoryStore) (kind : ResourceKind) (o : StoredObject) :
    (s.write kind o).1.unrevised = o.unrevised := rfl

theorem objects_write (s : MemoryStore) (kind : ResourceKind) (o : StoredObject) :
    (s.write kind o).2.objects = s.objects.insert (StoreKey.of kind o) (s.write kind o).1 := rfl

theorem eval_tryCall (operation : String) (c : StoreCall) (s : MemoryStore) :
    Decision.eval environment (Decision.tryCall operation c) s = (.ok (s.answer c).1, (s.answer c).2) :=
  rfl

theorem eval_storeCall_of_ok {operation : String} {c : StoreCall} {answer : c.Answer}
    (h : s.answer c = (.ok answer, t)) :
    Decision.eval environment (Decision.storeCall operation c) s = (.ok answer, t) := by
  unfold Decision.storeCall
  rw [Decision.eval_bind, eval_tryCall, h]
  rfl

theorem eval_storeCall_of_error {operation : String} {c : StoreCall} {e : StoreError}
    (h : s.answer c = (.error e, t)) :
    Decision.eval environment (Decision.storeCall operation c) s = (.error (.store operation e), t) := by
  unfold Decision.storeCall
  rw [Decision.eval_bind, eval_tryCall, h]
  rfl

/-- The result of a decision depends on the objects and the faults alone, and it leaves both. -/
def ReadOnly (d : Decision α) : Prop :=
  ∀ s t, Alike s t → (Decision.eval environment d s).1 = (Decision.eval environment d t).1 ∧
    Alike (Decision.eval environment d s).2 s

namespace ReadOnly

theorem immediate {d : Decision α} (h : d.Immediate) : ReadOnly d := by
  obtain ⟨result, rfl⟩ := h
  exact fun _ _ _ => ⟨rfl, rfl, rfl⟩

theorem bind {d : Decision α} {f : α → Decision β} (first : ReadOnly d)
    (rest : ∀ a, ReadOnly (f a)) : ReadOnly (d >>= f) := by
  intro s t same
  obtain ⟨result, left⟩ := first s t same
  have left' := (first t s same.symm).2
  rw [Decision.eval_bind, Decision.eval_bind]
  rcases Decision.cases_of_agree result with ⟨e, s', t', ran, ran'⟩ | ⟨a, s', t', ran, ran'⟩
  · rw [ran] at left ⊢
    rw [ran']
    exact ⟨rfl, left⟩
  · rw [ran] at left ⊢
    rw [ran'] at left' ⊢
    obtain ⟨same', left''⟩ := rest a s' t' (left.trans (same.trans left'.symm))
    exact ⟨same', left''.trans left⟩

/-- A call that gets or lists objects only reads. -/
theorem answer {c : StoreCall} (reads : c.op = .get ∨ c.op = .list) (same : Alike s t) :
    (s.answer c).1 = (t.answer c).1 ∧ Alike (s.answer c).2 s := by
  unfold MemoryStore.answer
  have faults : (s.count c.op c.kind).faults = (t.count c.op c.kind).faults := same.faults
  simp only [faults]
  split
  · exact ⟨rfl, rfl, rfl⟩
  · cases c with
    | get kind space name =>
      have found : (s.count .get kind).peek kind space name = (t.count .get kind).peek kind space name := by
        unfold peek
        rw [show (s.count .get kind).objects = (t.count .get kind).objects from same.objects]
      simp only [perform, StoreCall.op, StoreCall.kind, found]
      split <;> exact ⟨rfl, rfl, rfl⟩
    | list kind filter =>
      refine ⟨?_, rfl, rfl⟩
      show Except.ok (select _ kind filter) = Except.ok (select _ kind filter)
      unfold select
      rw [show (s.count _ _).objects = (t.count _ _).objects from same.objects]
    | create kind o => simp [StoreCall.op] at reads
    | update kind o => simp [StoreCall.op] at reads

theorem storeCall {operation : String} {c : StoreCall} (reads : c.op = .get ∨ c.op = .list) :
    ReadOnly (Decision.storeCall operation c) := by
  intro s t same
  obtain ⟨reply, left⟩ := answer reads same
  rcases Decision.cases_of_agree reply with ⟨e, s', t', ran, ran'⟩ | ⟨a, s', t', ran, ran'⟩
  · rw [ran] at left
    rw [eval_storeCall_of_error ran, eval_storeCall_of_error ran']
    exact ⟨rfl, left⟩
  · rw [ran] at left
    rw [eval_storeCall_of_ok ran, eval_storeCall_of_ok ran']
    exact ⟨rfl, left⟩

/-- A reading decision made again, in the store that it left, comes to the same. -/
theorem again {d : Decision α} {a : α} (h : ReadOnly d)
    (ran : Decision.eval environment d s = (.ok a, t)) :
    Alike t s ∧ ∃ u, Decision.eval environment d t = (.ok a, u) ∧ Alike u t := by
  have left := (h s s ⟨rfl, rfl⟩).2
  rw [ran] at left
  obtain ⟨result, left'⟩ := h t s left
  rw [ran] at result
  rcases ran' : Decision.eval environment d t with ⟨result', u⟩
  rw [ran'] at result left'
  cases result
  exact ⟨left, u, rfl, left'⟩

end ReadOnly

end MemoryStore

end AppAdmission
