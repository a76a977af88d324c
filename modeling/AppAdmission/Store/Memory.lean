import AppAdmission.Store.Call

/-!
# A store in memory

Objects under their kind, namespace and name, in that order, with one counter from which every
successful write takes the revision of its object. Calls are counted, and a store can be told to
fail an operation on a kind.
-/

namespace AppAdmission

/-- Where a store keeps an object. -/
structure StoreKey where
  kind : ResourceKind
  space : String
  name : String
  deriving DecidableEq, Repr

namespace StoreKey

/-- Keys in order of kind, namespace and name. -/
def Less (a b : StoreKey) : Prop :=
  a.kind.index < b.kind.index ∨
    a.kind.index = b.kind.index ∧ (a.space < b.space ∨ a.space = b.space ∧ a.name < b.name)

instance : LT StoreKey := ⟨Less⟩

instance : DecidableLT StoreKey := fun a b =>
  inferInstanceAs (Decidable (a.kind.index < b.kind.index ∨
    a.kind.index = b.kind.index ∧ (a.space < b.space ∨ a.space = b.space ∧ a.name < b.name)))

theorem lt_iff {a b : StoreKey} : a < b ↔ a.kind.index < b.kind.index ∨
    a.kind.index = b.kind.index ∧ (a.space < b.space ∨ a.space = b.space ∧ a.name < b.name) :=
  Iff.rfl

theorem kind_eq_of_index_eq {a b : ResourceKind} (h : a.index = b.index) : a = b := by
  cases a <;> cases b <;> first | rfl | simp [ResourceKind.index] at h

instance : KeyOrder StoreKey where
  lt_irrefl a h := by
    rcases lt_iff.1 h with h | ⟨_, h | ⟨_, h⟩⟩
    · exact Nat.lt_irrefl _ h
    · exact String.lt_irrefl _ h
    · exact String.lt_irrefl _ h
  lt_trans {a b c} hab hbc := by
    rcases lt_iff.1 hab with h1 | ⟨k1, h1⟩ <;> rcases lt_iff.1 hbc with h2 | ⟨k2, h2⟩
    · exact lt_iff.2 (Or.inl (Nat.lt_trans h1 h2))
    · exact lt_iff.2 (Or.inl (k2 ▸ h1))
    · exact lt_iff.2 (Or.inl (k1 ▸ h2))
    · refine lt_iff.2 (Or.inr ⟨k1.trans k2, ?_⟩)
      rcases h1 with h1 | ⟨s1, h1⟩ <;> rcases h2 with h2 | ⟨s2, h2⟩
      · exact Or.inl (String.lt_trans h1 h2)
      · exact Or.inl (s2 ▸ h1)
      · exact Or.inl (s1 ▸ h2)
      · exact Or.inr ⟨s1.trans s2, String.lt_trans h1 h2⟩
  lt_of_not_lt {a b} h hne := by
    rw [lt_iff] at h
    refine lt_iff.2 ?_
    by_cases hk : b.kind.index < a.kind.index
    · exact Or.inl hk
    · have hk' : b.kind.index = a.kind.index :=
        Nat.le_antisymm (Nat.not_lt.1 fun hl => h (Or.inl hl)) (Nat.not_lt.1 hk)
      refine Or.inr ⟨hk', ?_⟩
      by_cases hs : a.space = b.space
      · refine Or.inr ⟨hs.symm, KeyOrder.lt_of_not_lt (fun hl => h ?_) fun hn => hne ?_⟩
        · exact Or.inr ⟨hk'.symm, Or.inr ⟨hs, hl⟩⟩
        · obtain ⟨ak, as, an⟩ := a
          obtain ⟨bk, bs, bn⟩ := b
          cases hs
          cases hn
          cases kind_eq_of_index_eq hk'
          rfl
      · exact Or.inl (KeyOrder.lt_of_not_lt (fun hl => h (Or.inr ⟨hk'.symm, Or.inl hl⟩)) hs)

/-- The key of an object of a kind. -/
def of (kind : ResourceKind) (o : StoredObject) : StoreKey := ⟨kind, o.space, o.name⟩

theorem keyed_empty : ∀ e ∈ (OrderedMap.empty : OrderedMap StoreKey StoredObject).entries,
    e.1 = of e.1.kind e.2 := by
  intro e h
  cases h

end StoreKey

/-- A store in memory. Every object is under its own key. -/
structure MemoryStore where
  objects : OrderedMap StoreKey StoredObject := .empty
  revision : Nat := 0
  calls : StoreOp → ResourceKind → Nat := fun _ _ => 0
  faults : StoreOp → ResourceKind → Option StoreError := fun _ _ => none
  keyed : ∀ e ∈ objects.entries, e.1 = StoreKey.of e.1.kind e.2 := by exact StoreKey.keyed_empty

namespace MemoryStore

instance : Inhabited MemoryStore := ⟨{}⟩

/-- The object under a key, looked at without a call. -/
def peek (s : MemoryStore) (kind : ResourceKind) (space : Option String) (name : String) :
    Option StoredObject :=
  s.objects.get? ⟨kind, space.getD "", name⟩

/-- An object put under its own key leaves every object under its own key. -/
theorem keyed_insert (s : MemoryStore) (kind : ResourceKind) (o : StoredObject) :
    ∀ e ∈ (s.objects.insert (StoreKey.of kind o) o).entries, e.1 = StoreKey.of e.1.kind e.2 := by
  intro e h
  rcases Members.mem_insert h with rfl | h
  · rfl
  · exact s.keyed e h

/-- Writes an object with the next revision; the object as written. -/
def write (s : MemoryStore) (kind : ResourceKind) (o : StoredObject) : StoredObject × MemoryStore :=
  let revision := s.revision + 1
  let o := { o with metadata := { o.metadata with resourceVersion := some (toString revision) } }
  (o, { s with
    objects := s.objects.insert (StoreKey.of kind o) o
    revision := revision
    keyed := s.keyed_insert kind o })

/-- Puts an object in without a call, whatever is there. -/
def insert (s : MemoryStore) (kind : ResourceKind) (o : StoredObject) : MemoryStore :=
  (s.write kind o).2

/-- Makes every later operation on a kind fail. -/
def failOn (s : MemoryStore) (op : StoreOp) (kind : ResourceKind) (e : StoreError) : MemoryStore :=
  { s with faults := fun o k => if o = op ∧ k = kind then some e else s.faults o k }

/-- Counts a call. -/
def count (s : MemoryStore) (op : StoreOp) (kind : ResourceKind) : MemoryStore :=
  { s with calls := fun o k => if o = op ∧ k = kind then s.calls o k + 1 else s.calls o k }

/-- The objects of a kind that a filter asks for, in order. -/
def select (s : MemoryStore) (kind : ResourceKind) (filter : ListFilter) : List StoredObject :=
  (s.objects.entries.filter fun e => e.1.kind == kind && filter.matchesB e.2).map (·.2)

/-- The error of an update whose revision is not the current one. -/
def conflict (kind : ResourceKind) (name expected : String) : StoreError :=
  .backend ("conflict updating " ++ kind.name ++ " '" ++ name ++ "': revision " ++ expected ++ " is stale")

/-- The update of an object is based on the revision that is there, or on none. -/
def currentB (o current : StoredObject) : Bool :=
  match o.metadata.resourceVersion with
  | none => true
  | some r => current.metadata.resourceVersion == some r

/-- Answers a call that is not made to fail. -/
def perform (s : MemoryStore) : (c : StoreCall) → c.Reply × MemoryStore
  | .get kind space name =>
    match s.peek kind space name with
    | some o => (.ok o, s)
    | none => (.error (.notFound kind name), s)
  | .list kind filter => (.ok (s.select kind filter), s)
  | .create kind o =>
    match s.objects.get? (StoreKey.of kind o) with
    | some _ => (.error (.alreadyExists kind o.name), s)
    | none => let (o, s) := s.write kind o; (.ok o, s)
  | .update kind o =>
    match s.objects.get? (StoreKey.of kind o) with
    | none => (.error (.notFound kind o.name), s)
    | some current =>
      if currentB o current then let (o, s) := s.write kind o; (.ok o, s)
      else (.error (conflict kind o.name (o.metadata.resourceVersion.getD "")), s)

/-- Answers a call: it is counted, and it fails if it is made to. -/
def answer (s : MemoryStore) (c : StoreCall) : c.Reply × MemoryStore :=
  let s := s.count c.op c.kind
  match s.faults c.op c.kind with
  | some e => (.error e, s)
  | none => s.perform c

/-- All objects with their keys, in order. -/
def dump (s : MemoryStore) : List (StoreKey × StoredObject) := s.objects.entries

end MemoryStore

end AppAdmission
