import AppAdmission.Proofs.Store.Memory

/-!
# Stores that differ in their config maps

Config maps are written by decisions and never decided upon. Stores that concur hold the same objects
of every other kind, so a decision that only looks at such objects comes to the same in both and
leaves the objects as they are.
-/

namespace AppAdmission

/-- The key is not that of a config map. -/
def StoreKey.otherB (key : StoreKey) : Bool := key.kind != .configMap

/-- The call looks at objects other than config maps. -/
def StoreCall.Looks (c : StoreCall) : Prop :=
  (c.op = .get ∨ c.op = .list) ∧ c.kind ≠ .configMap

/-- A decision that only looks, and only at objects other than config maps. -/
inductive Decision.Looking : ∀ {α : Type}, Decision α → Prop where
  | pure {α : Type} (a : α) : Looking (Pure.pure a : Decision α)
  | throw {α : Type} (e : AdmissionError) : Looking (MonadExcept.throw e : Decision α)
  | look (operation : String) {c : StoreCall} (looks : c.Looks) :
      Looking (Decision.storeCall operation c)
  | bind {α β : Type} {d : Decision α} {f : α → Decision β} (first : Looking d)
      (rest : ∀ a, Looking (f a)) : Looking (d >>= f)

theorem Decision.Looking.composable : Decision.Composable fun _ d => Decision.Looking d := ⟨.pure, .bind⟩

theorem Decision.Looking.immediate {α : Type} {d : Decision α} (h : d.Immediate) : Looking d := by
  obtain ⟨e | a, rfl⟩ := h
  · exact .throw e
  · exact .pure a

namespace MemoryStore

variable {α : Type} {s t u : MemoryStore}

/-- The stores hold the same objects, config maps aside. -/
def Concur (s t : MemoryStore) : Prop :=
  (s.objects.entries.filter fun e => e.1.otherB) = t.objects.entries.filter fun e => e.1.otherB

namespace Concur

theorem refl (s : MemoryStore) : Concur s s := rfl

theorem symm (h : Concur s t) : Concur t s := Eq.symm h

theorem trans (h : Concur s t) (h' : Concur t u) : Concur s u := Eq.trans h h'

theorem of_objects (h : t.objects = s.objects) : Concur s t := by
  unfold Concur
  rw [h]

/-- A config map may be put in. -/
theorem of_insert {key : StoreKey} {o : StoredObject} (map : key.kind = .configMap)
    (put : t.objects = s.objects.insert key o) : Concur s t := by
  have config : key.otherB = false := by simp [StoreKey.otherB, map]
  unfold Concur
  rw [put]
  exact (Members.filter_insert StoreKey.otherB config o s.objects.entries).symm

theorem get? (h : Concur s t) {key : StoreKey} (other : key.kind ≠ .configMap) :
    s.objects.get? key = t.objects.get? key := by
  have kept : key.otherB = true := by simpa [StoreKey.otherB] using other
  have found (s : MemoryStore) :
      Members.find? key (s.objects.entries.filter fun e => e.1.otherB) = s.objects.get? key :=
    Members.find?_filter kept s.objects.entries
  rw [← found s, ← found t]
  exact congrArg (Members.find? key) h

theorem select (h : Concur s t) {kind : ResourceKind} (other : kind ≠ .configMap)
    (filter : ListFilter) : s.select kind filter = t.select kind filter := by
  -- what is listed is listed from among the objects that are no config maps
  have among (s : MemoryStore) :
      (s.objects.entries.filter fun e => e.1.kind == kind && filter.matchesB e.2) =
        (s.objects.entries.filter fun e => e.1.otherB).filter
          fun e => e.1.kind == kind && filter.matchesB e.2 := by
    rw [List.filter_filter]
    refine List.filter_congr fun e _ => ?_
    by_cases same : e.1.kind = kind
    · simp [StoreKey.otherB, same, other]
    · simp [same]
  unfold MemoryStore.select
  rw [among s, among t]
  exact congrArg (fun es => (List.filter _ es).map _) h

end Concur

/-- A look is answered from the objects that are no config maps, and only counted. -/
theorem Healthy.answer_looks {c : StoreCall} (looks : c.Looks) (healthy : s.Healthy)
    (healthy' : t.Healthy) (h : Concur s t) :
    (s.answer c).1 = (t.answer c).1 ∧ (s.answer c).2 = s.count c.op c.kind := by
  obtain ⟨reads, other⟩ := looks
  rw [healthy.answer, healthy'.answer]
  cases c with
  | get kind space name =>
    have found : (s.count .get kind).peek kind space name = (t.count .get kind).peek kind space name :=
      h.get? other
    simp only [perform, StoreCall.op, StoreCall.kind, found]
    split <;> exact ⟨rfl, rfl⟩
  | list kind filter => exact ⟨congrArg Except.ok (h.select other filter), rfl⟩
  | create | update => simp [StoreCall.op] at reads

/-- A decision that only looks comes to the same in stores that concur, and leaves the objects. -/
theorem eval_looking {d : Decision α} (looking : d.Looking) (healthy : s.Healthy) (healthy' : t.Healthy)
    (h : Concur s t) :
    (Decision.eval environment d s).1 = (Decision.eval environment d t).1 ∧
      (Decision.eval environment d s).2.objects = s.objects := by
  induction looking generalizing s t with
  | pure a => exact ⟨rfl, rfl⟩
  | throw e => exact ⟨rfl, rfl⟩
  | @look operation c looks =>
    obtain ⟨reply, counted⟩ := healthy.answer_looks looks healthy' h
    have left : (s.answer c).2.objects = s.objects := by
      rw [counted]
      rfl
    rcases Decision.cases_of_agree reply with ⟨e, s', t', ran, ran'⟩ | ⟨a, s', t', ran, ran'⟩
    · rw [ran] at left
      rw [eval_storeCall_of_error ran, eval_storeCall_of_error ran']
      exact ⟨rfl, left⟩
    · rw [ran] at left
      rw [eval_storeCall_of_ok ran, eval_storeCall_of_ok ran']
      exact ⟨rfl, left⟩
  | @bind _ _ d f _ _ first rest =>
    obtain ⟨result, left⟩ := first healthy healthy' h
    obtain ⟨-, left'⟩ := first healthy' healthy h.symm
    rw [Decision.eval_bind, Decision.eval_bind]
    rcases Decision.cases_of_agree result with ⟨e, s', t', ran, ran'⟩ | ⟨a, s', t', ran, ran'⟩
    · rw [ran] at left ⊢
      rw [ran']
      exact ⟨rfl, left⟩
    · rw [ran] at left ⊢
      rw [ran'] at left' ⊢
      have onward : Concur s' t' :=
        ((Concur.of_objects left).symm.trans h).trans (Concur.of_objects left')
      obtain ⟨result', left''⟩ := rest a (healthy.eval ran) (healthy'.eval ran') onward
      exact ⟨result', left''.trans left⟩

end MemoryStore

end AppAdmission
