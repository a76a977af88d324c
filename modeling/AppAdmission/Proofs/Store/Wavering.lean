import AppAdmission.Proofs.Store.Concur
import AppAdmission.Proofs.Store.Revision

/-!
# A store that requests give up on

A request may be given up at any of its questions, and when that happens during a call the store may
or may not have done what it was asked for. What a decision keeps under a key, it keeps however its
request fares and whatever the store is made to fail. A call changes no object but the one that it is
given.
-/

namespace AppAdmission

/-- Whether a request is still wanted at a question, and if it is given up during a call, whether
before the store has acted or after. -/
inductive Interest where
  | wanted
  | lostBefore
  | lostAfter
  deriving DecidableEq

/-- A store in memory, for requests of which the interest at each question is laid down; when that is
used up they stay wanted. -/
def MemoryStore.wavering : Environment (MemoryStore × List Interest) where
  poll
    | (s, []) => (false, (s, []))
    | (s, i :: later) => (i != .wanted, (s, later))
  answer
    | (s, []), c => (some (s.answer c).1, ((s.answer c).2, []))
    | (s, .wanted :: later), c => (some (s.answer c).1, ((s.answer c).2, later))
    | (s, .lostBefore :: later), _ => (none, (s, later))
    | (s, .lostAfter :: later), c => (none, ((s.answer c).2, later))

open MemoryStore (wavering)

namespace MemoryStore

variable {s : MemoryStore} {x : MemoryStore × List Interest} {key : StoreKey}

/-- A request that stays wanted is answered as by the store alone. -/
theorem run_wavering_nil {α : Type} (p : Program α) (s : MemoryStore) :
    p.run wavering (s, []) = ((p.run environment s).1, ((p.run environment s).2, [])) := by
  induction p generalizing s with
  | done a => rfl
  | poll next ih => exact ih _ s
  | call c next ih => exact ih _ _

theorem poll_wavering (x : MemoryStore × List Interest) : (wavering.poll x).2.1 = x.1 := by
  obtain ⟨s, _ | ⟨i, later⟩⟩ := x <;> rfl

/-- A reply is that of the store; without one the store may have acted or not. -/
theorem answer_wavering (x : MemoryStore × List Interest) (c : StoreCall) :
    (wavering.answer x c).1 = some (x.1.answer c).1 ∧ (wavering.answer x c).2.1 = (x.1.answer c).2 ∨
      (wavering.answer x c).1 = none ∧
        ((wavering.answer x c).2.1 = x.1 ∨ (wavering.answer x c).2.1 = (x.1.answer c).2) := by
  obtain ⟨s, _ | ⟨_ | _ | _, later⟩⟩ := x
  · exact .inl ⟨rfl, rfl⟩
  · exact .inl ⟨rfl, rfl⟩
  · exact .inr ⟨rfl, .inl rfl⟩
  · exact .inr ⟨rfl, .inr rfl⟩

/-- A call leaves the object under a key as it is, unless it is given one for this key. -/
theorem get?_answer {c : StoreCall} (apart : ∀ o, c.given? = some o → key ≠ .of c.kind o)
    (s : MemoryStore) : (s.answer c).2.objects.get? key = s.objects.get? key := by
  cases Effect.of_answer s c with
  | kept _ objects => rw [objects]
  | wrote _ o _ _ objects _ given =>
    obtain ⟨o', asked, rfl, -⟩ := given
    rw [objects, OrderedMap.get?_insert_ne _ _ (apart o' asked)]

/-- An object that is got is the one of the namespace and the name. -/
theorem key_of_answer_get {kind : ResourceKind} {space : Option String} {name : String}
    {o : StoredObject} (got : (s.answer (.get kind space name)).1 = .ok o) :
    StoreKey.of kind o = ⟨kind, space.getD "", name⟩ := by
  rcases fault : s.faults .get kind with _ | e
  · rcases there : s.peek kind space name with _ | current
    · rw [answer_get_missing fault there] at got
      cases got
    · rw [answer_get fault there] at got
      cases got
      exact (key_of_get? there).symm
  · rw [answer_of_fault fault] at got
    cases got

end MemoryStore

namespace Decision

variable {α β γ : Type} {key : StoreKey} {f : MemoryStore → γ} {x y : MemoryStore × List Interest}
  {d : Decision α}

/-- What is observed of the store is the same after the decision as before it. -/
def Preserves (f : MemoryStore → γ) (d : Decision α) (x : MemoryStore × List Interest) : Prop :=
  f (eval wavering d x).2.1 = f x.1

namespace Preserves

theorem immediate (h : d.Immediate) (x : MemoryStore × List Interest) : Preserves f d x := by
  obtain ⟨result, rfl⟩ := h
  rfl

/-- What the second step is asked to preserve may depend on what the first one came to. -/
theorem bind {next : α → Decision β} (first : Preserves f d x)
    (rest : ∀ a y, eval wavering d x = (.ok a, y) → Preserves f (next a) y) :
    Preserves f (d >>= next) x := by
  unfold Preserves at *
  rw [eval_bind]
  rcases ran : eval wavering d x with ⟨e | a, y⟩
  · rw [ran] at first
    exact first
  · rw [ran] at first
    exact (rest a y ran).trans first

theorem ensureActive (operation : String) (x : MemoryStore × List Interest) :
    Preserves f (ensureActive operation) x := by
  show f (wavering.poll x).2.1 = f x.1
  rw [MemoryStore.poll_wavering]

/-- A call preserves what answering it does. -/
theorem tryCall {c : StoreCall} (kept : ∀ s, f (s.answer c).2 = f s) (operation : String)
    (x : MemoryStore × List Interest) : Preserves f (tryCall operation c) x := by
  refine bind (ensureActive operation x) fun _ y _ => ?_
  show f (wavering.answer y c).2.1 = f y.1
  rcases MemoryStore.answer_wavering y c with ⟨-, left⟩ | ⟨-, left | left⟩
  · rw [left, kept]
  · rw [left]
  · rw [left, kept]

theorem storeCall {c : StoreCall} (kept : ∀ s, f (s.answer c).2 = f s) (operation : String)
    (x : MemoryStore × List Interest) : Preserves f (storeCall operation c) x := by
  refine bind (tryCall kept operation x) fun reply y _ => ?_
  cases reply with
  | ok answer => exact immediate (.pure _) y
  | error e => exact immediate (.throw _) y

/-- A decision that only looks preserves what calls without an object preserve. -/
theorem looking (looking : d.Looking)
    (kept : ∀ c : StoreCall, c.given? = none → ∀ s, f (s.answer c).2 = f s)
    (x : MemoryStore × List Interest) : Preserves f d x := by
  induction looking generalizing x with
  | pure a => exact immediate (.pure a) x
  | throw e => exact immediate (.throw e) x
  | @look operation c looks =>
    refine storeCall (kept c ?_) operation x
    rcases looks.1 with reads | reads <;> cases c <;> simp [StoreCall.op, StoreCall.given?] at reads ⊢
  | bind _ _ first rest => exact bind (first x) fun a y _ => rest a y

end Preserves

/-- The decision leaves the object under a key as it is. -/
def Keeps (key : StoreKey) (d : Decision α) (x : MemoryStore × List Interest) : Prop :=
  (eval wavering d x).2.1.objects.get? key = x.1.objects.get? key

namespace Keeps

theorem immediate (h : d.Immediate) (x : MemoryStore × List Interest) : Keeps key d x :=
  Preserves.immediate (f := fun s => s.objects.get? key) h x

/-- What the second step is asked to keep may depend on what the first one came to. -/
theorem bind {f : α → Decision β} (first : Keeps key d x)
    (rest : ∀ a y, eval wavering d x = (.ok a, y) → Keeps key (f a) y) : Keeps key (d >>= f) x :=
  Preserves.bind (f := fun s => s.objects.get? key) first rest

theorem ensureActive (operation : String) (x : MemoryStore × List Interest) :
    Keeps key (ensureActive operation) x :=
  Preserves.ensureActive (f := fun s => s.objects.get? key) operation x

/-- A call keeps what is under a key, unless it is given an object for it. -/
theorem tryCall {c : StoreCall} (apart : ∀ o, c.given? = some o → key ≠ .of c.kind o)
    (operation : String) (x : MemoryStore × List Interest) : Keeps key (tryCall operation c) x :=
  Preserves.tryCall (f := fun s => s.objects.get? key) (MemoryStore.get?_answer apart) operation x

theorem storeCall {c : StoreCall} (apart : ∀ o, c.given? = some o → key ≠ .of c.kind o)
    (operation : String) (x : MemoryStore × List Interest) : Keeps key (storeCall operation c) x :=
  Preserves.storeCall (f := fun s => s.objects.get? key) (MemoryStore.get?_answer apart) operation x

/-- A decision that only looks keeps everything. -/
theorem looking (looking : d.Looking) (x : MemoryStore × List Interest) : Keeps key d x := by
  refine Preserves.looking (f := fun s => s.objects.get? key) looking (fun c nothing => ?_) x
  refine MemoryStore.get?_answer fun o given => ?_
  rw [nothing] at given
  cases given

end Keeps

/-- A reply that is heard is that of the store, which has then acted. -/
theorem eval_tryCall_wavering {operation : String} {c : StoreCall} {reply : c.Reply}
    (ran : eval wavering (tryCall operation c) x = (.ok reply, y)) : x.1.answer c = (reply, y.1) := by
  obtain ⟨_, z, active, called⟩ := eval_bind_ok_iff.1 ran
  have polled : z.1 = x.1 := by
    have left : (wavering.poll x).2 = z := congrArg Prod.snd active
    rw [← left, MemoryStore.poll_wavering]
  have settled : settle operation c (wavering.answer z c).1 = .ok reply := congrArg Prod.fst called
  have left : (wavering.answer z c).2 = y := congrArg Prod.snd called
  rcases MemoryStore.answer_wavering z c with ⟨heard, acted⟩ | ⟨unheard, -⟩
  · rw [heard] at settled
    rw [left] at acted
    rw [← polled, ← Except.ok.inj settled, acted]
  · rw [unheard] at settled
    cases settled

theorem eval_storeCall_wavering {operation : String} {c : StoreCall} {answer : c.Answer}
    (ran : eval wavering (storeCall operation c) x = (.ok answer, y)) :
    (x.1.answer c).1 = .ok answer := by
  obtain ⟨reply, z, tried, ran⟩ := eval_bind_ok_iff.1 ran
  rw [eval_tryCall_wavering tried]
  cases reply with
  | ok answer' =>
    obtain ⟨rfl, -⟩ := eval_pure_ok_iff.1 ran
    rfl
  | error e => cases ran

end Decision

end AppAdmission
