import AppAdmission.Proofs.Store.Revision

/-!
# A store as a finite map

Clients put resources in, make calls and make operations fail, in any order. What the store then answers
is determined by two things that can be read off what happened: under which key what was written last,
and which operation was last told to fail how. The map is looked up by key where an object is got,
and by what the objects say of themselves where they are listed; both come to the same because every
object is under its own key.
-/

namespace AppAdmission

/-- An update names no revision, or that of the object which is there. -/
def StoredObject.BasedOn (o current : StoredObject) : Prop :=
  ∀ revision, o.metadata.resourceVersion = some revision →
    current.metadata.resourceVersion = some revision

/-- What a client may do to a store: put a resource in, call, or make an operation on a kind fail. -/
inductive Action where
  | insert (kind : ResourceKind) (resource : Json)
  | call (c : StoreCall)
  | failOn (op : StoreOp) (kind : ResourceKind) (e : StoreError)

/-- The object that an action is to write, if it is to write one. -/
def Action.given? : Action → Option (ResourceKind × StoredObject)
  | insert kind resource => (StoredObject.ofJson? resource).map fun o => (kind, o)
  | call c => c.given?.map fun o => (c.kind, o)
  | failOn .. => none

/-- The failure that an operation on a kind was last told to give. -/
def injected (op : StoreOp) (kind : ResourceKind) : List Action → Option StoreError
  | [] => none
  | .failOn op' kind' e :: later =>
    (injected op kind later).or (if op = op' ∧ kind = kind' then some e else none)
  | .insert .. :: later => injected op kind later
  | .call _ :: later => injected op kind later

/-- The object that was written last under a key, as it was written. -/
def lastWrite (key : StoreKey) : List Deed → Option StoredObject
  | [] => none
  | d :: later =>
    (lastWrite key later).or (d.written?.bind fun w => if w.1 = key then some w.2 else none)

namespace MemoryStore

variable {s t : MemoryStore}

/-- Takes an action. A resource without a stored form is not put in. -/
def act (s : MemoryStore) : Action → Option Deed × MemoryStore
  | .insert kind resource =>
    match StoredObject.ofJson? resource with
    | some o => (some (.inserted kind (s.write kind o).1), s.insert kind o)
    | none => (none, s)
  | .call c => (some (.called c (s.answer c).1), (s.answer c).2)
  | .failOn op kind e => (none, s.failOn op kind e)

/-- Takes actions one after another: what came of them, and the store that they leave. -/
def play : List Action → MemoryStore → List Deed × MemoryStore
  | [], s => ([], s)
  | a :: rest, s => ((s.act a).1.toList ++ (play rest (s.act a).2).1, (play rest (s.act a).2).2)

/-- The store answers as a finite map of objects does, apart from the operations that are made to
fail. -/
structure Represents (s : MemoryStore) (held : StoreKey → Option StoredObject)
    (fault : StoreOp → ResourceKind → Option StoreError) : Prop where
  /-- Every object is held under the key that it names itself. -/
  keyed : ∀ key o, held key = some o → key = .of key.kind o
  /-- A call that is made to fail gives that failure. -/
  fails : ∀ c e, fault c.op c.kind = some e → (s.answer c).1 = c.fail e
  /-- An object that is held is got. -/
  got : ∀ kind space name o, fault .get kind = none → held ⟨kind, space.getD "", name⟩ = some o →
    (s.answer (.get kind space name)).1 = .ok o
  /-- What is not held is not found. -/
  missing : ∀ kind space name, fault .get kind = none → held ⟨kind, space.getD "", name⟩ = none →
    (s.answer (.get kind space name)).1 = .error (.notFound kind name)
  /-- The objects of a kind that are asked for are listed in order of their keys, each once. -/
  lists : ∀ kind filter, fault .list kind = none →
    ∃ os, (s.answer (.list kind filter)).1 = .ok os ∧
      os.Pairwise (fun a b => StoreKey.of kind a < StoreKey.of kind b) ∧
      ∀ o, o ∈ os ↔ held (.of kind o) = some o ∧ filter.Asks o
  /-- To get an object is to list it alone. -/
  alone : ∀ kind space name o, fault .get kind = none → fault .list kind = none →
    ((s.answer (.get kind (some space) name)).1 = .ok o ↔
      (s.answer (.list kind { space := some space, name := some name })).1 = .ok [o])
  /-- An object is created exactly if its key is free. -/
  creates : ∀ kind o, fault .create kind = none →
    ((∃ o', (s.answer (.create kind o)).1 = .ok o') ↔ held (.of kind o) = none) ∧
    ((∃ current, held (.of kind o) = some current) →
      (s.answer (.create kind o)).1 = .error (.alreadyExists kind o.name))
  /-- An object is updated exactly if its key is taken, by one that the update is based on. -/
  updates : ∀ kind o, fault .update kind = none →
    ((∃ o', (s.answer (.update kind o)).1 = .ok o') ↔
      ∃ current, held (.of kind o) = some current ∧ o.BasedOn current) ∧
    (held (.of kind o) = none → (s.answer (.update kind o)).1 = .error (.notFound kind o.name))
  /-- What is written is what was given, with the next revision. -/
  written : ∀ a, ∀ d ∈ (s.act a).1, ∀ w ∈ d.written?, ∃ kind o, a.given? = some (kind, o) ∧
    w.1 = .of kind o ∧ w.2.unrevised = o.unrevised ∧ w.2.Revised (s.revision + 1) ∧
    (s.act a).2.revision = s.revision + 1
  /-- A resource that has a stored form is put in, whatever is there. -/
  inserts : ∀ kind resource o, StoredObject.ofJson? resource = some o →
    ∃ d ∈ (s.act (.insert kind resource)).1, d.Writes (.of kind o)
  /-- An action that fails or is not to write leaves the objects and the revision. -/
  leaves : ∀ a, (∀ d ∈ (s.act a).1, d.written? = none) →
    (s.act a).2.objects = s.objects ∧ (s.act a).2.revision = s.revision

theorem basedOn_iff (o current : StoredObject) : currentB o current = true ↔ o.BasedOn current := by
  unfold currentB StoredObject.BasedOn
  cases o.metadata.resourceVersion with
  | none => simp
  | some r => simp

/-- An action leaves the objects and the revision, or it puts in what it is given with the next
revision. -/
inductive Outcome (s : MemoryStore) (a : Action) (deed : Option Deed) (t : MemoryStore) : Prop where
  | kept (nothing : ∀ d ∈ deed, d.written? = none) (objects : t.objects = s.objects)
      (revision : t.revision = s.revision)
  | wrote (d : Deed) (kind : ResourceKind) (o o' : StoredObject) (came : deed = some d)
      (given : a.given? = some (kind, o)) (written : d.written? = some (.of kind o, o'))
      (same : o'.unrevised = o.unrevised) (revised : o'.Revised (s.revision + 1))
      (objects : t.objects = s.objects.insert (.of kind o) o') (revision : t.revision = s.revision + 1)

theorem act_insert {kind : ResourceKind} {resource : Json} {o : StoredObject}
    (read : StoredObject.ofJson? resource = some o) (s : MemoryStore) :
    s.act (.insert kind resource) = (some (.inserted kind (s.write kind o).1), s.insert kind o) := by
  simp only [act, read]

theorem act_insert_unread {kind : ResourceKind} {resource : Json}
    (unread : StoredObject.ofJson? resource = none) (s : MemoryStore) :
    s.act (.insert kind resource) = (none, s) := by
  simp only [act, unread]

theorem Outcome.of_act (s : MemoryStore) (a : Action) : Outcome s a (s.act a).1 (s.act a).2 := by
  cases a with
  | insert kind resource =>
    cases read : StoredObject.ofJson? resource with
    | none =>
      rw [act_insert_unread read]
      exact .kept (by simp) rfl rfl
    | some o =>
      rw [act_insert read]
      exact .wrote _ kind o _ rfl (by simp [Action.given?, read]) rfl rfl rfl rfl rfl
  | call c =>
    cases Effect.of_answer s c with
    | kept nothing objects revision =>
      refine .kept ?_ objects revision
      intro d came
      cases came
      exact nothing
    | wrote key o' written revised objects revision given =>
      obtain ⟨o, asked, rfl, same⟩ := given
      exact .wrote _ c.kind o o' rfl (by simp [Action.given?, asked]) written same revised objects revision
  | failOn op kind e => exact .kept (by simp [act]) rfl rfl

/-- Every store answers as the map of its own objects does. -/
theorem represents_self (s : MemoryStore) : s.Represents s.objects.get? s.faults where
  keyed _ _ there := key_of_get? there
  fails c e fault := by rw [answer_of_fault fault]
  got kind space name o fault there := by rw [answer_get fault there]
  missing kind space name fault absent := by rw [answer_get_missing fault absent]
  lists kind filter fault := by
    refine ⟨s.select kind filter, ?_, s.pairwise_select kind filter, s.mem_select_iff kind filter⟩
    rw [answer_list fault]
  alone kind space name o fault fault' := by
    rw [answer_list fault', Except.ok.injEq, select_eq_singleton_iff]
    cases there : s.objects.get? ⟨kind, space, name⟩ with
    | none =>
      have absent : s.peek kind (some space) name = none := there
      rw [answer_get_missing fault absent]
      simp
    | some o' =>
      have there' : s.peek kind (some space) name = some o' := there
      rw [answer_get fault there']
      simp
  creates kind o fault := by
    cases there : s.objects.get? (.of kind o) with
    | none =>
      rw [answer_create fault there]
      simp
    | some current =>
      rw [answer_create_again fault there]
      simp
  updates kind o fault := by
    cases there : s.objects.get? (.of kind o) with
    | none =>
      rw [answer_update_missing fault there]
      simp
    | some current =>
      cases based : currentB o current with
      | true =>
        have based' : o.BasedOn current := (basedOn_iff o current).1 based
        rw [answer_update fault there based]
        simp [based']
      | false =>
        have stale : ¬o.BasedOn current := by
          intro based'
          rw [(basedOn_iff o current).2 based'] at based
          cases based
        rw [answer_update_stale fault there based]
        simp [stale]
  written a d came w written := by
    cases Outcome.of_act s a with
    | kept nothing =>
      rw [nothing d came] at written
      cases written
    | wrote d' kind o o' came' given written' same revised objects revision =>
      rw [came'] at came
      cases came
      rw [written'] at written
      cases written
      exact ⟨kind, o, given, rfl, same, revised, revision⟩
  inserts kind resource o read := by
    rw [act_insert read]
    exact ⟨_, rfl, _, rfl⟩
  leaves a silent := by
    cases Outcome.of_act s a with
    | kept nothing objects revision => exact ⟨objects, revision⟩
    | wrote d kind o o' came given written =>
      rw [silent d came] at written
      cases written

theorem lastWrite_append (key : StoreKey) (deeds later : List Deed) :
    lastWrite key (deeds ++ later) = (lastWrite key later).or (lastWrite key deeds) := by
  induction deeds with
  | nil => simp [lastWrite]
  | cons d rest ih =>
    rw [List.cons_append, lastWrite, lastWrite, ih, Option.or_assoc]

/-- After an action an object is the one that the action wrote, or else the one from before it. -/
theorem get?_act (s : MemoryStore) (a : Action) (key : StoreKey) :
    (s.act a).2.objects.get? key = (lastWrite key (s.act a).1.toList).or (s.objects.get? key) := by
  cases Outcome.of_act s a with
  | kept nothing objects =>
    have silent : lastWrite key (s.act a).1.toList = none := by
      cases came : (s.act a).1 with
      | none => rfl
      | some d => simp [lastWrite, nothing d came]
    rw [objects, silent, Option.none_or]
  | wrote d kind o o' came _ written _ _ objects _ =>
    rw [objects, came]
    by_cases own : key = .of kind o
    · subst own
      simp [lastWrite, written]
    · rw [OrderedMap.get?_insert_ne _ _ own]
      simp [lastWrite, written, Ne.symm own]

/-- What an action makes fail fails, and otherwise what failed before. -/
theorem faults_act (s : MemoryStore) (a : Action) (op : StoreOp) (kind : ResourceKind) :
    (s.act a).2.faults op kind = (injected op kind [a]).or (s.faults op kind) := by
  cases a with
  | insert kind' resource =>
    cases read : StoredObject.ofJson? resource with
    | none => rw [act_insert_unread read]; rfl
    | some o => rw [act_insert read]; rfl
  | call c => exact congrFun (congrFun (faults_answer s c) op) kind
  | failOn op' kind' e =>
    by_cases same : op = op' ∧ kind = kind'
    · simp [act, failOn, injected, same]
    · simp [act, failOn, injected, same]

theorem injected_cons (op : StoreOp) (kind : ResourceKind) (a : Action) (later : List Action) :
    injected op kind (a :: later) = (injected op kind later).or (injected op kind [a]) := by
  cases a <;> simp [injected]

/-- Whatever was done, under a key there is what was written there last, and an operation fails as it
was last told to. -/
theorem play_eq (actions : List Action) (s : MemoryStore) :
    (∀ key, (play actions s).2.objects.get? key =
        (lastWrite key (play actions s).1).or (s.objects.get? key)) ∧
      ∀ op kind, (play actions s).2.faults op kind =
        (injected op kind actions).or (s.faults op kind) := by
  induction actions generalizing s with
  | nil => exact ⟨fun _ => rfl, fun _ _ => rfl⟩
  | cons a rest ih =>
    obtain ⟨objects, faults⟩ := ih (s.act a).2
    constructor
    · intro key
      rw [play, objects, get?_act, lastWrite_append, Option.or_assoc]
    · intro op kind
      rw [play, faults, faults_act, injected_cons op kind a rest, Option.or_assoc]

/-- **A store is a finite map.** Whatever resources are put in, calls are made and failures are set up,
in any order, the store answers as the map does that has under each key the object that was written there
last, as it was written, and each operation fails as it was last told to. Revisions here have no upper
end, where the counter of a store has `2 ^ 64`. -/
theorem play_represents (actions : List Action) :
    (play actions {}).2.Represents (fun key => lastWrite key (play actions {}).1)
      fun op kind => injected op kind actions := by
  obtain ⟨objects, faults⟩ := play_eq actions {}
  have held : (fun key => lastWrite key (play actions {}).1) = (play actions {}).2.objects.get? := by
    funext key
    rw [objects key]
    exact (Option.or_none).symm
  have fault : (fun op kind => injected op kind actions) = (play actions {}).2.faults := by
    funext op kind
    rw [faults op kind]
    exact (Option.or_none).symm
  rw [held, fault]
  exact represents_self _

end MemoryStore

end AppAdmission
