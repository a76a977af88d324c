import AppAdmission.Proofs.Store.Memory

/-!
# What is listed

Objects are listed by what they say of themselves, and they are under the keys that they name. What is
listed can therefore be looked up, in the order of the keys, and a filter for one key lists at most the
object under it.
-/

namespace AppAdmission

/-- What a filter asks of an object. -/
structure ListFilter.Asks (f : ListFilter) (o : StoredObject) : Prop where
  space : ∀ wanted, f.space = some wanted → o.space = wanted
  name : ∀ wanted, f.name = some wanted → o.name = wanted
  labels : ∀ label ∈ f.labels.entries, o.metadata.label? label.1 = some label.2

theorem ListFilter.admitsB_iff (wanted : Option String) (value : String) :
    admitsB wanted value = true ↔ ∀ w, wanted = some w → value = w := by
  cases wanted with
  | none => simp [admitsB]
  | some w => simp [admitsB]

theorem ListFilter.matchesB_iff (f : ListFilter) (o : StoredObject) :
    f.matchesB o = true ↔ f.Asks o := by
  simp only [matchesB, Bool.and_eq_true, List.all_eq_true, beq_iff_eq, admitsB_iff]
  constructor
  · rintro ⟨⟨space, name⟩, labels⟩
    exact ⟨space, name, labels⟩
  · intro asks
    exact ⟨⟨asks.space, asks.name⟩, asks.labels⟩

namespace MemoryStore

/-- The objects that are listed are those under the keys of the kind that are asked for. -/
theorem mem_select_iff (s : MemoryStore) (kind : ResourceKind) (filter : ListFilter)
    (o : StoredObject) :
    o ∈ s.select kind filter ↔ s.objects.get? (.of kind o) = some o ∧ filter.Asks o := by
  unfold select
  rw [← ListFilter.matchesB_iff]
  constructor
  · intro listed
    obtain ⟨e, asked, rfl⟩ := List.mem_map.1 listed
    obtain ⟨there, wanted⟩ := List.mem_filter.1 asked
    simp only [Bool.and_eq_true, beq_iff_eq] at wanted
    have own : e.1 = .of kind e.2 := by
      rw [← wanted.1]
      exact s.keyed e there
    rw [← own]
    exact ⟨Members.find?_of_mem s.objects.sorted there, wanted.2⟩
  · rintro ⟨there, wanted⟩
    refine List.mem_map.2 ⟨(.of kind o, o), List.mem_filter.2 ⟨Members.mem_of_find? there, ?_⟩, rfl⟩
    simpa [StoreKey.of] using wanted

/-- Objects are listed in strict order of their keys. -/
theorem pairwise_select (s : MemoryStore) (kind : ResourceKind) (filter : ListFilter) :
    (s.select kind filter).Pairwise fun a b => StoreKey.of kind a < StoreKey.of kind b := by
  unfold select
  refine List.pairwise_map.2 ((s.objects.sorted.filter _).imp_of_mem ?_)
  intro a b listed listed' before
  have own : ∀ e ∈ s.objects.entries.filter fun e => e.1.kind == kind && filter.matchesB e.2,
      e.1 = .of kind e.2 := by
    intro e asked
    obtain ⟨there, wanted⟩ := List.mem_filter.1 asked
    simp only [Bool.and_eq_true, beq_iff_eq] at wanted
    rw [← wanted.1]
    exact s.keyed e there
  rw [← own a listed, ← own b listed']
  exact before

/-- The objects of a kind and a name in all namespaces. -/
def records (s : MemoryStore) (kind : ResourceKind) (name : String) : List StoredObject :=
  (s.objects.entries.filter fun e => e.1.kind == kind && e.1.name == name).map (·.2)

/-- What is listed for a name is what is kept under it, whatever the namespace. -/
theorem select_named (s : MemoryStore) (kind : ResourceKind) (name : String) :
    s.select kind (.named name) = s.records kind name := by
  unfold select records
  congr 1
  refine List.filter_congr fun e there => ?_
  have own : e.1.name = e.2.name := congrArg StoreKey.name (s.keyed e there)
  rw [own]
  simp [ListFilter.matchesB, ListFilter.named, ListFilter.admitsB, OrderedMap.empty]

theorem asks_of_key_iff (kind : ResourceKind) (space name : String) (o : StoredObject) :
    ListFilter.Asks { space := some space, name := some name } o ↔
      StoreKey.of kind o = ⟨kind, space, name⟩ := by
  constructor
  · intro asked
    rw [StoreKey.of, asked.space space rfl, asked.name name rfl]
  · intro same
    have space_eq : o.space = space := congrArg StoreKey.space same
    have name_eq : o.name = name := congrArg StoreKey.name same
    exact ⟨by simp [space_eq], by simp [name_eq], fun _ there => nomatch there⟩

/-- Of a kind, a namespace and a name there is one object at most. -/
theorem length_select_le_one (s : MemoryStore) (kind : ResourceKind) (space name : String) :
    (s.select kind { space := some space, name := some name }).length ≤ 1 := by
  have only : ∀ o ∈ s.select kind { space := some space, name := some name },
      StoreKey.of kind o = ⟨kind, space, name⟩ := by
    intro o listed
    exact (asks_of_key_iff kind space name o).1 ((s.mem_select_iff _ _ o).1 listed).2
  have sorted := s.pairwise_select kind { space := some space, name := some name }
  match s.select kind { space := some space, name := some name }, only, sorted with
  | [], _, _ => exact Nat.zero_le 1
  | [_], _, _ => exact Nat.le_refl 1
  | x :: y :: _, only, sorted =>
    have before : StoreKey.of kind x < StoreKey.of kind y :=
      List.rel_of_pairwise_cons sorted List.mem_cons_self
    rw [only x (by simp), only y (by simp)] at before
    exact absurd before (KeyOrder.lt_irrefl _)

/-- The list for a namespace and a name is one object exactly if this is the one under the key. -/
theorem select_eq_singleton_iff (s : MemoryStore) (kind : ResourceKind) (space name : String)
    (o : StoredObject) :
    s.select kind { space := some space, name := some name } = [o] ↔
      s.objects.get? ⟨kind, space, name⟩ = some o := by
  have among := s.mem_select_iff kind { space := some space, name := some name } o
  constructor
  · intro alone
    obtain ⟨there, asked⟩ := among.1 (by rw [alone]; exact List.mem_singleton_self o)
    rw [(asks_of_key_iff kind space name o).1 asked] at there
    exact there
  · intro there
    have own : StoreKey.of kind o = ⟨kind, space, name⟩ := (key_of_get? there).symm
    have listed : o ∈ s.select kind { space := some space, name := some name } := by
      refine among.2 ⟨?_, (asks_of_key_iff kind space name o).2 own⟩
      rw [own]
      exact there
    obtain ⟨o', alone⟩ := List.length_eq_one_iff.1
      (Nat.le_antisymm (s.length_select_le_one kind space name) (List.length_pos_of_mem listed))
    rw [alone] at listed ⊢
    rw [List.mem_singleton.1 listed]

end MemoryStore

end AppAdmission
