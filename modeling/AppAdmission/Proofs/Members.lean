import AppAdmission.OrderedMap

/-!
# Members in order

Laws of the operations on members. In a list whose keys are in order a value put under a key that is
there takes the place of the old one, and every key is there once.
-/

namespace AppAdmission.Members

variable {κ α β : Type} [LT κ] [DecidableLT κ] [DecidableEq κ]

omit [LT κ] [DecidableLT κ] in
theorem mem_of_find? {key : κ} {value : α} {ms : List (κ × α)} (h : find? key ms = some value) :
    (key, value) ∈ ms := by
  induction ms with
  | nil => cases h
  | cons m rest ih =>
    obtain ⟨k, v⟩ := m
    unfold find? at h
    split at h
    · next same =>
      cases same
      cases h
      exact List.mem_cons_self
    · exact List.mem_cons_of_mem _ (ih h)

omit [DecidableLT κ] [DecidableEq κ] in
/-- Whether members are in order is seen from their keys. -/
theorem sorted_of_keys {ms : List (κ × α)} (keys : List κ) (same : ms.map (·.1) = keys)
    (sorted : keys.Pairwise (· < ·)) : Sorted ms := by
  rw [← same] at sorted
  exact List.pairwise_map.1 sorted

omit [LT κ] [DecidableLT κ] in
theorem find?_map (f : α → β) (key : κ) (ms : List (κ × α)) :
    find? key (ms.map fun m => (m.1, f m.2)) = (find? key ms).map f := by
  induction ms with
  | nil => rfl
  | cons m rest ih =>
    by_cases same : m.1 = key
    · simp [find?, same]
    · simp [find?, same, ih]

omit [LT κ] [DecidableLT κ] in
/-- Among the members that are kept a key is found as among all. -/
theorem find?_filter {keep : κ → Bool} {key : κ} (h : keep key = true) (ms : List (κ × α)) :
    find? key (ms.filter fun m => keep m.1) = find? key ms := by
  induction ms with
  | nil => rfl
  | cons m rest ih =>
    by_cases same : m.1 = key
    · simp [find?, same, h]
    · by_cases kept : keep m.1 = true
      · simp [find?, same, kept, ih]
      · simp [find?, same, kept, ih]

omit [LT κ] [DecidableLT κ] in
theorem find?_filter_not {keep : κ → Bool} {key : κ} (h : keep key = false) (ms : List (κ × α)) :
    find? key (ms.filter fun m => keep m.1) = none := by
  induction ms with
  | nil => rfl
  | cons m rest ih =>
    by_cases kept : keep m.1 = true
    · have other : m.1 ≠ key := by
        intro same
        rw [same, h] at kept
        cases kept
      simp [find?, other, kept, ih]
    · simp [kept, ih]

omit [LT κ] [DecidableLT κ] in
/-- A value that is put in the place of another is found. -/
theorem find?_replace_self {key : κ} {old : α} {ms : List (κ × α)} (there : find? key ms = some old)
    (value : α) : find? key (replace key value ms) = some value := by
  induction ms with
  | nil => cases there
  | cons m rest ih =>
    obtain ⟨k, v⟩ := m
    by_cases same : k = key
    · simp [replace, find?, same]
    · have later : find? key rest = some old := by simpa [find?, same] using there
      simp [replace, find?, same, ih later]

omit [LT κ] [DecidableLT κ] in
theorem find?_replace_ne {key other : κ} (value : α) (ms : List (κ × α)) (h : other ≠ key) :
    find? other (replace key value ms) = find? other ms := by
  induction ms with
  | nil => rfl
  | cons m rest ih =>
    obtain ⟨k, v⟩ := m
    by_cases same : k = key
    · simp [replace, find?, same, h.symm]
    · simp [replace, find?, same, ih]

omit [LT κ] [DecidableLT κ] in
/-- A value that is put in its own place changes nothing. -/
theorem replace_self {key : κ} {value : α} {ms : List (κ × α)} (there : find? key ms = some value) :
    replace key value ms = ms := by
  induction ms with
  | nil => rfl
  | cons m rest ih =>
    obtain ⟨k, v⟩ := m
    by_cases same : k = key
    · obtain rfl : v = value := by simpa [find?, same] using there
      simp [replace, same]
    · have later : find? key rest = some value := by simpa [find?, same] using there
      simp [replace, same, ih later]

omit [LT κ] [DecidableLT κ] in
theorem replace_replace (key : κ) (first second : α) (ms : List (κ × α)) :
    replace key second (replace key first ms) = replace key second ms := by
  induction ms with
  | nil => rfl
  | cons m rest ih =>
    obtain ⟨k, v⟩ := m
    by_cases same : k = key
    · simp [replace, same]
    · simp [replace, same, ih]

omit [LT κ] [DecidableLT κ] in
theorem find?_erase_self (key : κ) (ms : List (κ × α)) : find? key (erase key ms) = none :=
  @find?_filter_not κ α _ (fun k => decide (k ≠ key)) key (by simp) ms

omit [LT κ] [DecidableLT κ] in
theorem find?_erase_ne {key other : κ} (ms : List (κ × α)) (h : other ≠ key) :
    find? other (erase key ms) = find? other ms :=
  @find?_filter κ α _ (fun k => decide (k ≠ key)) other (by simpa using h) ms

omit [LT κ] [DecidableLT κ] in
/-- Nothing is taken out under a key that is not there. -/
theorem erase_of_missing {key : κ} {ms : List (κ × α)} (missing : find? key ms = none) :
    erase key ms = ms := by
  refine List.filter_eq_self.2 fun m there => ?_
  induction ms with
  | nil => cases there
  | cons first rest ih =>
    have other : first.1 ≠ key := by
      intro same
      simp [find?, same] at missing
    have later : find? key rest = none := by simpa [find?, other] using missing
    rcases List.mem_cons.1 there with rfl | there
    · simpa using other
    · exact ih later there

omit [LT κ] [DecidableLT κ] in
/-- A value that is put in the place of another is kept if that is. -/
theorem filter_replace {keep : κ → Bool} {key : κ} (h : keep key = true) (value : α)
    (ms : List (κ × α)) : (replace key value ms).filter (fun m => keep m.1) =
      replace key value (ms.filter fun m => keep m.1) := by
  induction ms with
  | nil => rfl
  | cons m rest ih =>
    obtain ⟨k, v⟩ := m
    by_cases same : k = key
    · simp [replace, same, h]
    · by_cases kept : keep k = true
      · simp [replace, same, kept, ih]
      · simp [replace, same, kept, ih]

/-- Members that are not looked at may be put in. -/
theorem filter_insert (keep : κ → Bool) {key : κ} (h : keep key = false) (value : α)
    (ms : List (κ × α)) :
    (insert key value ms).filter (fun m => keep m.1) = ms.filter fun m => keep m.1 := by
  induction ms with
  | nil => simp [insert, h]
  | cons m rest ih =>
    obtain ⟨k, v⟩ := m
    unfold insert
    split
    · simp [h]
    · split
      · next same => simp [h, same]
      · simp [ih, List.filter_cons]

/-- A second value under a key takes the place of the first. -/
theorem insert_insert [KeyOrder κ] (key : κ) (first second : α) (ms : List (κ × α)) :
    insert key second (insert key first ms) = insert key second ms := by
  have least : ¬ key < key := KeyOrder.lt_irrefl key
  induction ms with
  | nil => simp [insert, least]
  | cons m rest ih =>
    obtain ⟨k, v⟩ := m
    by_cases before : key < k
    · simp [insert, before, least]
    · by_cases same : k = key
      · simp [insert, same, least]
      · simp [insert, before, same, ih]

omit [DecidableLT κ] in
/-- In order, a member is the one that is found under its key. -/
theorem find?_of_mem [KeyOrder κ] {key : κ} {value : α} {ms : List (κ × α)} (sorted : Sorted ms)
    (h : (key, value) ∈ ms) : find? key ms = some value := by
  induction ms with
  | nil => cases h
  | cons m rest ih =>
    obtain ⟨first, others⟩ := List.pairwise_cons.1 sorted
    rcases List.mem_cons.1 h with same | later
    · rw [← same]
      simp [find?]
    · have other : m.1 ≠ key := by
        intro same
        have before := first _ later
        rw [same] at before
        exact KeyOrder.lt_irrefl key before
      simp [find?, other, ih others later]

omit [DecidableLT κ] in
theorem lt_of_find? {key k : κ} {v value : α} {rest : List (κ × α)}
    (sorted : Sorted ((k, v) :: rest)) (h : find? key rest = some value) : k < key :=
  (List.pairwise_cons.1 sorted).1 _ (mem_of_find? h)

/-- Replacing a value that is there is the same as putting one in. -/
theorem replace_eq_insert [KeyOrder κ] {key : κ} {old : α} (value : α) {ms : List (κ × α)}
    (sorted : Sorted ms) (there : find? key ms = some old) :
    replace key value ms = insert key value ms := by
  induction ms with
  | nil => cases there
  | cons m rest ih =>
    obtain ⟨k, v⟩ := m
    by_cases same : k = key
    · have least : ¬ key < key := KeyOrder.lt_irrefl key
      simp [replace, insert, same, least]
    · have later : find? key rest = some old := by simpa [find?, same] using there
      have after : ¬ key < k := by
        intro before
        exact KeyOrder.lt_irrefl k (KeyOrder.lt_trans (lt_of_find? sorted later) before)
      simp [replace, insert, same, after, ih (List.pairwise_cons.1 sorted).2 later]

omit [DecidableLT κ] [DecidableEq κ] in
/-- No member before or after the one under a key has the same key. -/
theorem not_mem_of_sorted [KeyOrder κ] {k : κ} {v : α} {rest : List (κ × α)}
    (sorted : Sorted ((k, v) :: rest)) : k ∉ rest.map Prod.fst := by
  intro h
  obtain ⟨m, there, same⟩ := List.mem_map.1 h
  have after := (List.pairwise_cons.1 sorted).1 m there
  rw [same] at after
  exact KeyOrder.lt_irrefl k after

theorem insert_last [KeyOrder κ] {key : κ} {value : α} {ms : List (κ × α)}
    (after : ∀ m ∈ ms, m.1 < key) : insert key value ms = ms ++ [(key, value)] := by
  induction ms with
  | nil => rfl
  | cons m rest ih =>
    obtain ⟨k, v⟩ := m
    have first : k < key := after _ List.mem_cons_self
    have before : ¬ key < k := fun h => KeyOrder.lt_irrefl k (KeyOrder.lt_trans first h)
    have other : k ≠ key := by
      rintro rfl
      exact KeyOrder.lt_irrefl k first
    have later := ih fun m h => after m (List.mem_cons_of_mem _ h)
    simp [insert, before, other, later]

/-- Members that are in order stay as they are when they are sorted. -/
theorem sort_of_sorted [KeyOrder κ] {ms : List (κ × α)} (sorted : Sorted ms) : sort ms = ms := by
  have all : ∀ acc : List (κ × α), Sorted (acc ++ ms) →
      ms.foldl (fun acc m => insert m.1 m.2 acc) acc = acc ++ ms := by
    intro acc h
    induction ms generalizing acc with
    | nil => simp
    | cons m rest ih =>
      have after : ∀ a ∈ acc, a.1 < m.1 :=
        fun a there => (List.pairwise_append.1 h).2.2 a there m List.mem_cons_self
      have whole : acc ++ m :: rest = acc ++ [m] ++ rest := by simp
      rw [List.foldl_cons, insert_last after, whole]
      refine ih (List.pairwise_cons.1 sorted).2 _ ?_
      rw [← whole]
      exact h
  exact all [] sorted

theorem map_insert (f : α → β) (key : κ) (value : α) (ms : List (κ × α)) :
    insert key (f value) (ms.map fun m => (m.1, f m.2)) =
      (insert key value ms).map fun m => (m.1, f m.2) := by
  induction ms with
  | nil => rfl
  | cons m rest ih =>
    obtain ⟨k, v⟩ := m
    by_cases before : key < k
    · simp [insert, before]
    · by_cases same : k = key
      · subst same
        simp [insert, before]
      · simp [insert, before, same, ih]

omit [DecidableLT κ] [DecidableEq κ] in
theorem sorted_map (f : α → β) {ms : List (κ × α)} :
    Sorted (ms.map fun m => (m.1, f m.2)) ↔ Sorted ms := by
  unfold Sorted
  rw [List.pairwise_map]

omit [DecidableLT κ] in
/-- In order, members are determined by what is found under each key. -/
theorem ext_of_sorted [KeyOrder κ] {ms ms' : List (κ × α)} (sorted : Sorted ms) (sorted' : Sorted ms')
    (same : ∀ key, find? key ms = find? key ms') : ms = ms' := by
  have nodup {ms : List (κ × α)} (sorted : Sorted ms) : ms.Nodup := by
    refine sorted.imp ?_
    rintro a _ before rfl
    exact KeyOrder.lt_irrefl a.1 before
  have perm : ms.Perm ms' := by
    refine (List.perm_ext_iff_of_nodup (nodup sorted) (nodup sorted')).2 fun e => ?_
    constructor
    · intro h
      exact mem_of_find? (same e.1 ▸ find?_of_mem sorted h)
    · intro h
      exact mem_of_find? ((same e.1).symm ▸ find?_of_mem sorted' h)
  refine List.Perm.eq_of_pairwise ?_ sorted sorted' perm
  intro a b _ _ before after
  exact absurd (KeyOrder.lt_trans before after) (KeyOrder.lt_irrefl a.1)

/-- A member that was taken out can be put in again. -/
theorem insert_erase [KeyOrder κ] {key : κ} {value : α} {ms : List (κ × α)} (sorted : Sorted ms)
    (there : find? key ms = some value) : insert key value (erase key ms) = ms := by
  refine ext_of_sorted (sorted_insert (sorted_erase sorted)) sorted fun other => ?_
  by_cases same : other = key
  · rw [same, find?_insert_self, there]
  · rw [find?_insert_ne value _ same, find?_erase_ne ms same]

omit [LT κ] [DecidableLT κ] in
theorem find?_append (key : κ) (ms ms' : List (κ × α)) :
    find? key (ms ++ ms') = (find? key ms).or (find? key ms') := by
  induction ms with
  | nil => rfl
  | cons m rest ih =>
    by_cases same : m.1 = key
    · simp [find?, same]
    · simp [find?, same, ih]

omit [LT κ] [DecidableLT κ] in
theorem find?_eq_none_of_key {key : κ} {ms : List (κ × α)} (h : key ∉ ms.map Prod.fst) :
    find? key ms = none := by
  induction ms with
  | nil => rfl
  | cons m rest ih =>
    rw [List.map_cons, List.mem_cons, not_or] at h
    rw [find?, if_neg (Ne.symm h.1), ih h.2]

omit [LT κ] [DecidableLT κ] in
/-- Where no key occurs twice the order does not matter. -/
theorem find?_reverse {key : κ} {ms : List (κ × α)} (once : (ms.map Prod.fst).Nodup) :
    find? key ms.reverse = find? key ms := by
  induction ms with
  | nil => rfl
  | cons m rest ih =>
    obtain ⟨fresh, once'⟩ := List.nodup_cons.1 once
    rw [List.reverse_cons, find?_append, ih once']
    by_cases own : m.1 = key
    · have absent : find? key rest = none := find?_eq_none_of_key (own ▸ fresh)
      simp [find?, own, absent]
    · simp [find?, own]

omit [LT κ] [DecidableLT κ] in
/-- Where no key occurs twice a member is the one that is found under its key. -/
theorem find?_of_mem_once {ms : List (κ × α)} (once : (ms.map Prod.fst).Nodup) {m : κ × α}
    (there : m ∈ ms) : find? m.1 ms = some m.2 := by
  induction ms with
  | nil => cases there
  | cons n rest ih =>
    obtain ⟨fresh, once'⟩ := List.nodup_cons.1 once
    rcases List.mem_cons.1 there with rfl | later
    · exact if_pos rfl
    · have other : n.1 ≠ m.1 := fun same => fresh (List.mem_map.2 ⟨m, later, same.symm⟩)
      exact (if_neg other).trans (ih once' later)

/-- Of several values under a key the last one is found when members are sorted. -/
theorem find?_sort (key : κ) (ms : List (κ × α)) : find? key (sort ms) = find? key ms.reverse := by
  have all : ∀ acc : List (κ × α), find? key (ms.foldl (fun acc m => insert m.1 m.2 acc) acc) =
      (find? key ms.reverse).or (find? key acc) := by
    induction ms with
    | nil => exact fun acc => rfl
    | cons m rest ih =>
      intro acc
      rw [List.foldl_cons, ih, List.reverse_cons, find?_append, Option.or_assoc]
      congr 1
      by_cases same : m.1 = key
      · simp [find?, same, find?_insert_self]
      · simp [find?, same, find?_insert_ne _ _ (Ne.symm same)]
  have whole := all []
  rw [show find? key ([] : List (κ × α)) = none from rfl, Option.or_none] at whole
  exact whole

theorem find?_sort_of_once {ms : List (κ × α)} (once : (ms.map Prod.fst).Nodup) (key : κ) :
    find? key (sort ms) = find? key ms := by
  rw [find?_sort, find?_reverse once]

theorem mem_of_mem_sort {ms : List (κ × α)} {m : κ × α} (h : m ∈ sort ms) : m ∈ ms := by
  have all : ∀ (rest acc : List (κ × α)),
      m ∈ rest.foldl (fun acc m => insert m.1 m.2 acc) acc → m ∈ acc ∨ m ∈ rest := by
    intro rest
    induction rest with
    | nil => exact fun acc h => Or.inl h
    | cons n rest ih =>
      intro acc h
      rcases ih _ h with h | h
      · rcases mem_insert h with rfl | h
        · exact Or.inr List.mem_cons_self
        · exact Or.inl h
      · exact Or.inr (List.mem_cons_of_mem _ h)
  rcases all ms [] h with h | h
  · cases h
  · exact h

end AppAdmission.Members
