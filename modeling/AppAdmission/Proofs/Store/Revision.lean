import AppAdmission.Proofs.Json.Numeral
import AppAdmission.Proofs.Store.Listing

/-!
# Revisions and stale updates

Clients of a store take their steps one at a time: they put objects in or make calls, and a run is the
row of what came of their steps, in whatever order they were taken. Every write gives its object a
revision that is new to the store. The revision of an object therefore tells whether it is still the one
that was seen, and an update that names a revision goes through exactly if nobody wrote under the key
since.
-/

namespace AppAdmission

/-- The object has the revision of a number. -/
def StoredObject.Revised (o : StoredObject) (n : Nat) : Prop :=
  o.metadata.resourceVersion = some (toString n)

/-- Numbers with the same text are the same. -/
theorem toString_nat_inj {m n : Nat} (h : toString m = toString n) : m = n := by
  have digits : Nat.toDigits 10 m = Nat.toDigits 10 n := String.ofList_injective h
  rw [← Number.decimalValue_toDigits m, digits, Number.decimalValue_toDigits]

theorem StoredObject.Revised.unique {o : StoredObject} {m n : Nat} (h : o.Revised m) (h' : o.Revised n) :
    m = n :=
  toString_nat_inj (Option.some.inj (h.symm.trans h'))

/-- The object that a call is to write. -/
def StoreCall.given? : StoreCall → Option StoredObject
  | get .. => none
  | list .. => none
  | create _ o => some o
  | update _ o => some o

/-- What a step of a client came to: an object as it was put in, or a call and its reply. -/
inductive Deed where
  | inserted (kind : ResourceKind) (written : StoredObject)
  | called (c : StoreCall) (reply : c.Reply)

namespace Deed

/-- What was written, and under which key. -/
def written? : Deed → Option (StoreKey × StoredObject)
  | inserted kind o => some (.of kind o, o)
  | called (.create kind _) (.ok o) => some (.of kind o, o)
  | called (.update kind _) (.ok o) => some (.of kind o, o)
  | called _ _ => none

/-- The objects that a client sees, and their keys. -/
def shown : Deed → List (StoreKey × StoredObject)
  | inserted kind o => [(.of kind o, o)]
  | called (.list kind _) (.ok os) => os.map fun o => (.of kind o, o)
  | called (.get kind _ _) (.ok o) => [(.of kind o, o)]
  | called (.create kind _) (.ok o) => [(.of kind o, o)]
  | called (.update kind _) (.ok o) => [(.of kind o, o)]
  | called _ (.error _) => []

/-- A call that wrote was given what it wrote, revision aside. -/
def Gives (key : StoreKey) (o : StoredObject) : Deed → Prop
  | inserted .. => True
  | called c _ => ∃ given, c.given? = some given ∧ key = .of c.kind given ∧
      o.unrevised = given.unrevised

/-- Something was written under a key. -/
def Writes (d : Deed) (key : StoreKey) : Prop := ∃ o, d.written? = some (key, o)

/-- Where both wrote, the second gave a higher revision than the first. -/
def Newer (d d' : Deed) : Prop :=
  ∀ w ∈ d.written?, ∀ w' ∈ d'.written?, ∃ m n, w.2.Revised m ∧ w'.2.Revised n ∧ m < n

end Deed

namespace MemoryStore

variable {s t u : MemoryStore} {d : Deed} {deeds deeds' : List Deed} {key : StoreKey}

/-- One step of one client. -/
inductive Step : MemoryStore → Deed → MemoryStore → Prop where
  | insert (s : MemoryStore) (kind : ResourceKind) (o : StoredObject) :
      Step s (.inserted kind (s.write kind o).1) (s.insert kind o)
  | call (s : MemoryStore) (c : StoreCall) : Step s (.called c (s.answer c).1) (s.answer c).2

/-- Any number of steps of any clients, one after another. -/
inductive Run : MemoryStore → List Deed → MemoryStore → Prop where
  | nil (s : MemoryStore) : Run s [] s
  | cons {s t u : MemoryStore} {d : Deed} {deeds : List Deed} (step : Step s d t)
      (rest : Run t deeds u) : Run s (d :: deeds) u

/-- A run is cut in two where its row of deeds is. -/
theorem Run.of_append (run : Run s (deeds ++ deeds') u) : ∃ t, Run s deeds t ∧ Run t deeds' u := by
  induction deeds generalizing s with
  | nil => exact ⟨s, .nil s, run⟩
  | cons d rest ih =>
    cases run with
    | cons step onward =>
      obtain ⟨t, first, second⟩ := ih onward
      exact ⟨t, .cons step first, second⟩

/-- Nothing is made to fail, and the revision of every object is one that the store has given. -/
structure Sound (s : MemoryStore) : Prop where
  healthy : s.Healthy
  revised : ∀ key o, s.objects.get? key = some o → ∃ n, o.Revised n ∧ n ≤ s.revision

theorem sound_empty : Sound {} where
  healthy _ _ := rfl
  revised _ _ there := by cases there

/-- What a step does: it leaves the objects alone, or it puts one in with the next revision, and if
that was a call then the object of the call. -/
inductive Effect (s : MemoryStore) (d : Deed) (t : MemoryStore) : Prop where
  | kept (nothing : d.written? = none) (objects : t.objects = s.objects)
      (revision : t.revision = s.revision)
  | wrote (key : StoreKey) (o : StoredObject) (written : d.written? = some (key, o))
      (revised : o.Revised (s.revision + 1)) (objects : t.objects = s.objects.insert key o)
      (revision : t.revision = s.revision + 1) (given : d.Gives key o)

theorem Effect.of_answer (s : MemoryStore) (c : StoreCall) :
    Effect s (.called c (s.answer c).1) (s.answer c).2 := by
  rcases fault : s.faults c.op c.kind with _ | e
  · cases c with
    | get kind space name =>
      replace fault : s.faults .get kind = none := fault
      rcases there : s.peek kind space name with _ | current
      · rw [answer_get_missing fault there]
        exact .kept rfl rfl rfl
      · rw [answer_get fault there]
        exact .kept rfl rfl rfl
    | list kind filter =>
      replace fault : s.faults .list kind = none := fault
      rw [answer_list fault]
      exact .kept rfl rfl rfl
    | create kind o =>
      replace fault : s.faults .create kind = none := fault
      rcases there : s.objects.get? (.of kind o) with _ | current
      · rw [answer_create fault there]
        exact .wrote _ _ rfl rfl rfl rfl ⟨o, rfl, rfl, rfl⟩
      · rw [answer_create_again fault there]
        exact .kept rfl rfl rfl
    | update kind o =>
      replace fault : s.faults .update kind = none := fault
      rcases there : s.objects.get? (.of kind o) with _ | current
      · rw [answer_update_missing fault there]
        exact .kept rfl rfl rfl
      · rcases based : currentB o current with _ | _
        · rw [answer_update_stale fault there based]
          exact .kept rfl rfl rfl
        · rw [answer_update fault there based]
          exact .wrote _ _ rfl rfl rfl rfl ⟨o, rfl, rfl, rfl⟩
  · rw [answer_of_fault fault]
    cases c <;> exact .kept rfl rfl rfl

theorem Effect.of_step (step : Step s d t) : Effect s d t := by
  cases step with
  | insert kind o => exact .wrote _ _ rfl rfl rfl rfl trivial
  | call c => exact .of_answer s c

theorem faults_step (step : Step s d t) : t.faults = s.faults := by
  cases step with
  | insert kind o => rfl
  | call c => exact faults_answer s c

/-- A step keeps a store sound, and revisions only go up. -/
theorem Sound.step (sound : s.Sound) (step : Step s d t) : t.Sound ∧ s.revision ≤ t.revision := by
  have healthy : t.Healthy := by
    intro op kind
    rw [faults_step step]
    exact sound.healthy op kind
  cases Effect.of_step step with
  | kept _ objects revision =>
    refine ⟨⟨healthy, ?_⟩, revision.ge⟩
    rw [objects, revision]
    exact sound.revised
  | wrote k o _ revised objects revision =>
    refine ⟨⟨healthy, ?_⟩, by omega⟩
    intro key o' there
    rw [objects] at there
    by_cases same : key = k
    · subst same
      rw [OrderedMap.get?_insert_self] at there
      cases there
      exact ⟨_, revised, by omega⟩
    · rw [OrderedMap.get?_insert_ne _ _ same] at there
      obtain ⟨n, revised', le⟩ := sound.revised key o' there
      exact ⟨n, revised', by omega⟩

theorem Sound.run (sound : s.Sound) (run : Run s deeds t) : t.Sound ∧ s.revision ≤ t.revision := by
  induction run with
  | nil s => exact ⟨sound, Nat.le_refl _⟩
  | cons step _ ih =>
    obtain ⟨sound', le⟩ := sound.step step
    obtain ⟨sound'', le'⟩ := ih sound'
    exact ⟨sound'', Nat.le_trans le le'⟩

/-- What a client sees in a step is there after it. -/
theorem get?_of_shown (healthy : s.Healthy) (step : Step s d t) {o : StoredObject}
    (shown : (key, o) ∈ d.shown) : t.objects.get? key = some o := by
  cases step with
  | insert kind o' =>
    obtain ⟨rfl, rfl⟩ := Prod.mk.inj (List.mem_singleton.1 shown)
    exact OrderedMap.get?_insert_self _ _ _
  | call c =>
    cases c with
    | get kind space name =>
      cases there : s.peek kind space name with
      | none =>
        rw [answer_get_missing (healthy _ _) there] at shown
        cases shown
      | some o' =>
        rw [answer_get (healthy _ _) there] at shown ⊢
        obtain ⟨rfl, rfl⟩ := Prod.mk.inj (List.mem_singleton.1 shown)
        have found : s.objects.get? ⟨kind, space.getD "", name⟩ = some o := there
        rw [key_of_get? found] at found
        exact found
    | list kind filter =>
      rw [answer_list (healthy _ _)] at shown ⊢
      obtain ⟨o', listed, same⟩ := List.mem_map.1 shown
      obtain ⟨rfl, rfl⟩ := Prod.mk.inj same
      exact ((s.mem_select_iff kind filter o').1 listed).1
    | create kind o' =>
      cases there : s.objects.get? (.of kind o') with
      | none =>
        rw [answer_create (healthy _ _) there] at shown ⊢
        obtain ⟨rfl, rfl⟩ := Prod.mk.inj (List.mem_singleton.1 shown)
        exact OrderedMap.get?_insert_self _ _ _
      | some current =>
        rw [answer_create_again (healthy _ _) there] at shown
        cases shown
    | update kind o' =>
      cases there : s.objects.get? (.of kind o') with
      | none =>
        rw [answer_update_missing (healthy _ _) there] at shown
        cases shown
      | some current =>
        cases based : currentB o' current with
        | false =>
          rw [answer_update_stale (healthy _ _) there based] at shown
          cases shown
        | true =>
          rw [answer_update (healthy _ _) there based] at shown ⊢
          obtain ⟨rfl, rfl⟩ := Prod.mk.inj (List.mem_singleton.1 shown)
          exact OrderedMap.get?_insert_self _ _ _

/-- Every write in a run gives a revision, and one above those that were given before the run. -/
theorem Run.revised (run : Run s deeds t) (sound : s.Sound) :
    ∀ d ∈ deeds, ∀ w ∈ d.written?, ∃ n, w.2.Revised n ∧ s.revision < n := by
  induction run with
  | nil s => exact fun _ there => nomatch there
  | cons step rest ih =>
    intro d there w written
    rcases List.mem_cons.1 there with rfl | later
    · cases Effect.of_step step with
      | kept nothing => rw [nothing] at written; cases written
      | wrote key o written' revised =>
        rw [written'] at written
        cases written
        exact ⟨_, revised, Nat.lt_succ_self _⟩
    · obtain ⟨sound', le⟩ := sound.step step
      obtain ⟨n, revised, lt⟩ := ih sound' d later w written
      exact ⟨n, revised, by omega⟩

/-- Of two writes in a run the later one gives the higher revision. -/
theorem Run.newer (run : Run s deeds t) (sound : s.Sound) : deeds.Pairwise Deed.Newer := by
  induction run with
  | nil s => exact .nil
  | cons step rest ih =>
    obtain ⟨sound', -⟩ := sound.step step
    refine List.pairwise_cons.2 ⟨?_, ih sound'⟩
    intro d' later w written w' written'
    obtain ⟨n, revised', lt⟩ := rest.revised sound' d' later w' written'
    cases Effect.of_step step with
    | kept nothing => rw [nothing] at written; cases written
    | wrote key o written'' revised objects revision =>
      rw [written''] at written
      cases written
      exact ⟨_, n, revised, revised', by omega⟩

/-- After a run the object under a key is the one from before it, if nobody wrote there, and otherwise
one with a revision that was not given before. -/
theorem Run.since (run : Run s deeds t) (sound : s.Sound) (key : StoreKey) :
    ((∀ d ∈ deeds, ¬d.Writes key) ∧ t.objects.get? key = s.objects.get? key) ∨
      ((∃ d ∈ deeds, d.Writes key) ∧
        ∃ o n, t.objects.get? key = some o ∧ o.Revised n ∧ s.revision < n) := by
  induction run with
  | nil s => exact .inl ⟨fun _ => List.not_mem_nil.elim, rfl⟩
  | @cons s s' t d deeds step rest ih =>
    obtain ⟨sound', le⟩ := sound.step step
    rcases ih sound' with ⟨nobody, same⟩ | ⟨⟨d', later, writes⟩, o, n, there, revised, lt⟩
    · cases Effect.of_step step with
      | kept nothing objects =>
        refine .inl ⟨?_, by rw [same, objects]⟩
        intro d' there
        rcases List.mem_cons.1 there with rfl | later
        · rintro ⟨o, written⟩
          rw [nothing] at written
          cases written
        · exact nobody d' later
      | wrote k o written revised objects revision =>
        by_cases own : key = k
        · subst own
          have there : t.objects.get? key = some o := by
            rw [same, objects, OrderedMap.get?_insert_self]
          exact .inr ⟨⟨d, List.mem_cons_self, o, written⟩, o, _, there, revised, Nat.lt_succ_self _⟩
        · refine .inl ⟨?_, by rw [same, objects, OrderedMap.get?_insert_ne _ _ own]⟩
          intro d' there
          rcases List.mem_cons.1 there with rfl | later
          · rintro ⟨o', written'⟩
            rw [written] at written'
            cases written'
            exact own rfl
          · exact nobody d' later
    · exact .inr ⟨⟨d', List.mem_cons_of_mem _ later, writes⟩, o, n, there, revised, by omega⟩

/-- An update goes through exactly if it is based on the object that is there, and a refused one leaves
all objects as they are. -/
theorem answer_update_iff (healthy : s.Healthy) {kind : ResourceKind} {o current : StoredObject}
    (there : s.objects.get? (.of kind o) = some current) :
    ((∃ o', (s.answer (.update kind o)).1 = .ok o') ↔ currentB o current = true) ∧
      ((∀ o', (s.answer (.update kind o)).1 ≠ .ok o') →
        (s.answer (.update kind o)).2.objects = s.objects) := by
  cases based : currentB o current with
  | true =>
    rw [answer_update (healthy _ _) there based]
    refine ⟨⟨fun _ => rfl, fun _ => ⟨_, rfl⟩⟩, ?_⟩
    intro refused
    exact absurd rfl (refused _)
  | false =>
    rw [answer_update_stale (healthy _ _) there based]
    refine ⟨⟨?_, fun based => absurd based (by decide)⟩, fun _ => rfl⟩
    rintro ⟨o', ran⟩
    cases ran

/-- An update that names the revision of one object is based on another exactly if that has this
revision too. -/
theorem currentB_iff {o seen current : StoredObject} {n : Nat} (revised : seen.Revised n)
    (named : o.metadata.resourceVersion = seen.metadata.resourceVersion) :
    currentB o current = true ↔ current.Revised n := by
  unfold currentB
  rw [named, revised]
  exact beq_iff_eq

/-- **No update is lost.** However the steps of any clients of a store follow each other, every write
gives its object a revision above those given before. An update with the revision of an object that was
seen under its key, in a reply or as it was written, goes through if and only if nobody wrote under the
key since, and if it is refused every object stays as it is. Revisions here have no upper end, where the
counter of a store has `2 ^ 64`. -/
theorem no_lost_update {deeds : List Deed} (run : Run {} deeds t) :
    (∀ d ∈ deeds, ∀ w ∈ d.written?, ∃ n, w.2.Revised n) ∧ deeds.Pairwise Deed.Newer ∧
      ∀ before d since kind seen o, deeds = before ++ d :: since →
        (StoreKey.of kind o, seen) ∈ d.shown →
        o.metadata.resourceVersion = seen.metadata.resourceVersion →
        ((∃ o', (t.answer (.update kind o)).1 = .ok o') ↔ ∀ d' ∈ since, ¬d'.Writes (.of kind o)) ∧
          ((∀ o', (t.answer (.update kind o)).1 ≠ .ok o') →
            (t.answer (.update kind o)).2.objects = t.objects) := by
  refine ⟨?_, run.newer sound_empty, ?_⟩
  · intro d there w written
    obtain ⟨n, revised, -⟩ := run.revised sound_empty d there w written
    exact ⟨n, revised⟩
  · rintro before d since kind seen o rfl shown named
    obtain ⟨s, earlier, later⟩ := run.of_append
    obtain ⟨sound, -⟩ := sound_empty.run earlier
    cases later with
    | cons step rest =>
      have there := get?_of_shown sound.healthy step shown
      obtain ⟨sound', -⟩ := sound.step step
      obtain ⟨sound'', -⟩ := sound'.run rest
      obtain ⟨m, revised, le⟩ := sound'.revised _ _ there
      rcases rest.since sound' (.of kind o) with
        ⟨nobody, same⟩ | ⟨⟨d', later, writes⟩, current, n, there', revised', lt⟩
      · rw [there] at same
        obtain ⟨through, kept⟩ := answer_update_iff sound''.healthy same
        refine ⟨?_, kept⟩
        rw [through, currentB_iff revised named]
        exact ⟨fun _ => nobody, fun _ => revised⟩
      · obtain ⟨through, kept⟩ := answer_update_iff sound''.healthy there'
        refine ⟨?_, kept⟩
        rw [through, currentB_iff revised named]
        constructor
        · intro same
          have := same.unique revised'
          omega
        · intro nobody
          exact absurd writes (nobody d' later)

/-- Of two clients that got the same object the first one to update it succeeds, the other one is refused
and changes nothing. -/
theorem no_lost_update_sample :
    ∃ (s t : MemoryStore) (seen : StoredObject),
      (s.answer (.get .configMap none "settings")).1 = .ok seen ∧
      t = (s.answer (.update .configMap seen)).2 ∧
      (∃ o, (s.answer (.update .configMap seen)).1 = .ok o) ∧
      (∀ o, (t.answer (.update .configMap seen)).1 ≠ .ok o) ∧
      (t.answer (.update .configMap seen)).2.objects = t.objects := by
  let unrevised : StoredObject := { metadata := { name := "settings" } }
  let seen : StoredObject := (write {} .configMap unrevised).1
  let reading : StoreCall := .get .configMap none "settings"
  let writing : StoreCall := .update .configMap seen
  let first : MemoryStore := ({} : MemoryStore).insert .configMap unrevised
  let s := (first.answer reading).2
  have put : Step {} (.inserted .configMap seen) first := .insert {} .configMap unrevised
  have read : Run {} [.inserted .configMap seen, .called reading (.ok seen)] s :=
    .cons put (.cons (.call first reading) (.nil s))
  have written : Run {} [.inserted .configMap seen, .called reading (.ok seen),
      .called writing (s.answer writing).1] (s.answer writing).2 :=
    .cons put (.cons (.call first reading) (.cons (.call s writing) (.nil _)))
  have shown : (StoreKey.of .configMap seen, seen) ∈ (Deed.called reading (.ok seen)).shown :=
    List.mem_singleton_self _
  obtain ⟨-, -, fresh⟩ := no_lost_update read
  obtain ⟨-, -, stale⟩ := no_lost_update written
  obtain ⟨through, -⟩ := fresh [_] _ [] .configMap seen seen rfl shown rfl
  obtain ⟨through', kept⟩ := stale [_] _ [_] .configMap seen seen rfl shown rfl
  have refused : ∀ o, ((s.answer writing).2.answer writing).1 ≠ .ok o := by
    intro o ran
    exact through'.1 ⟨o, ran⟩ _ (List.mem_singleton_self _) ⟨_, rfl⟩
  exact ⟨s, _, seen, rfl, rfl, through.2 fun _ => List.not_mem_nil.elim, refused, kept refused⟩

end MemoryStore

end AppAdmission
