import AppAdmission.Proofs.Json.Wire

/-!
# Records by their fields

A record is read field by field and written field by field, so what holds of the values of its fields
holds of the record. `Slot` says of a field how its value is read and written, what a missing one is read
as, and which values are left out when it is written. A record is then a list of slots; an open one has
free members besides.
-/

namespace AppAdmission.Json

open Source

variable {ρ : Type}

/-! ## Members that are written only if they have a value -/

/-- The members that have a value. -/
def present (ms : List (String × Option Json)) : List (String × Json) :=
  ms.filterMap fun m => m.2.map fun j => (m.1, j)

@[simp] theorem present_nil : present [] = [] := rfl

@[simp] theorem present_cons (k : String) (v : Option Json) (ms : List (String × Option Json)) :
    present ((k, v) :: ms) = optional k v ++ present ms := by
  cases v <;> rfl

@[simp] theorem optional_some (k : String) (j : Json) : optional k (some j) = [(k, j)] := rfl

theorem mem_present_iff {ms : List (String × Option Json)} {m : String × Json} :
    m ∈ present ms ↔ (m.1, some m.2) ∈ ms := by
  unfold present
  simp only [List.mem_filterMap, Option.map_eq_some_iff]
  constructor
  · rintro ⟨⟨k, v⟩, there, j, rfl, rfl⟩
    exact there
  · intro there
    exact ⟨_, there, m.2, rfl, rfl⟩

theorem keys_present (ms : List (String × Option Json)) :
    ((present ms).map (·.1)).Sublist (ms.map (·.1)) := by
  induction ms with
  | nil => exact .slnil
  | cons m rest ih =>
    obtain ⟨k, v⟩ := m
    cases v with
    | none => exact ih.cons k
    | some j => exact ih.cons_cons k

/-- Each of the members is found under its key, if it has a value. -/
theorem find?_present {ms : List (String × Option Json)} (once : (ms.map (·.1)).Nodup)
    {m : String × Option Json} (there : m ∈ ms) : Members.find? m.1 (present ms) = m.2 := by
  induction ms with
  | nil => cases there
  | cons n rest ih =>
    obtain ⟨fresh, once'⟩ := List.nodup_cons.1 once
    obtain ⟨k, v⟩ := n
    have absent : Members.find? k (present rest) = none :=
      Members.find?_eq_none_of_key fun h => fresh ((keys_present rest).subset h)
    rcases List.mem_cons.1 there with rfl | later
    · cases v with
      | none => exact absent
      | some j => exact if_pos rfl
    · have other : k ≠ m.1 := by
        rintro rfl
        exact fresh (List.mem_map.2 ⟨m, later, rfl⟩)
      cases v with
      | none => exact ih once' later
      | some j => exact (if_neg other).trans (ih once' later)

theorem uniqueB_iff {ks : List String} : uniqueB ks = true ↔ ks.Nodup := by
  induction ks with
  | nil => simp [uniqueB]
  | cons k rest ih => simp [uniqueB, ih]

/-- The members of a written object that are fields are picked, and the others are not looked at. -/
theorem pick_nested {names : List String} {ms others : List (String × Json)} (level : Nat)
    (once : names.Nodup) (fields : (ms.map (·.1)).Sublist names)
    (apart : ∀ m ∈ others, m.1 ∉ names) :
    pick names ((ms ++ others).map fun m => (m.1, nested level m.2)) =
      some (ms.map fun m => (m.1, nested level m.2)) := by
  have picked : ((ms ++ others).map fun m => (m.1, nested level m.2)).filter
      (fun m => names.contains m.1) = ms.map fun m => (m.1, nested level m.2) := by
    have own : ms.filter (fun m => names.contains m.1) = ms :=
      List.filter_eq_self.2 fun m there =>
        List.contains_iff_mem.2 (fields.subset (List.mem_map_of_mem there))
    have none : others.filter (fun m => names.contains m.1) = [] :=
      List.filter_eq_nil_iff.2 fun m there h => apart m there (List.contains_iff_mem.1 h)
    rw [List.filter_map, List.filter_append]
    simp only [Function.comp_def, own, none, List.append_nil]
  have unique : uniqueB ((ms.map fun m => (m.1, nested level m.2)).map (·.1)) = true := by
    rw [uniqueB_iff, List.map_map]
    exact fields.nodup once
  unfold pick
  simp only [picked, unique, if_true]

/-! ## Fields -/

/-- A field of a record. -/
structure Slot (ρ : Type) where
  name : String
  Value : Type
  wire : Wire Value
  get : ρ → Value
  /-- What a missing one is read as; there is none if it must be given. -/
  default : Option Value
  /-- The value is left out when the record is written. -/
  hides : Value → Bool
  blank : ∀ d ∈ default, wire.Blank d
  hidden : ∀ v, hides v = true → default = some v

namespace Slot

/-- Reads the field. -/
def reads (f : Slot ρ) (fs : Fields) : Option f.Value :=
  match f.default with
  | none => fs.need f.name f.wire.read
  | some d => fs.orElse f.name f.wire.read d

/-- The field of a record as it is written. -/
def member (f : Slot ρ) (r : ρ) : String × Option Json :=
  (f.name, if f.hides (f.get r) then none else some (f.wire.write (f.get r)))

/-- What the value of the field carries, seen from the record. -/
def carried (f : Slot ρ) (r : ρ) : List Carried :=
  (f.wire.carried (f.get r)).map Carried.deeper

variable {α : Type} {f : Slot ρ} {fs : Fields} {v : f.Value} {r : ρ}

theorem reads_eq_some_iff : f.reads fs = some v ↔
    (∃ s, Members.find? f.name fs = some s ∧ f.wire.read s = some v) ∨
      Members.find? f.name fs = none ∧ f.default = some v := by
  unfold reads
  cases f.default with
  | none => cases h : Members.find? f.name fs <;> simp [Fields.need, h]
  | some d => cases h : Members.find? f.name fs <;> simp [Fields.orElse, h]

/-- The value of a field can be read from something, also if it was missing. -/
theorem exists_of_reads (h : f.reads fs = some v) : ∃ s, f.wire.read s = some v := by
  rcases reads_eq_some_iff.1 h with ⟨s, -, read⟩ | ⟨-, missing⟩
  · exact ⟨s, read⟩
  · exact (f.blank v missing).readable

/-- What the value of a field carries was kept from the member that was given. -/
theorem kept_of_reads (h : f.reads fs = some v) {c : Carried} (own : c ∈ f.wire.carried v) :
    ∃ s, (f.name, s) ∈ fs ∧ c.From s := by
  rcases reads_eq_some_iff.1 h with ⟨s, found, read⟩ | ⟨-, missing⟩
  · exact ⟨s, Members.mem_of_find? found, f.wire.kept read c own⟩
  · rw [(f.blank v missing).bare] at own
    cases own

/-- The field is read as it was written exactly if what it carries returns. -/
theorem reads_member_iff {level : Nat} (readable : ∃ s, f.wire.read s = some (f.get r))
    (found : Members.find? f.name fs = (f.member r).2.map (nested level)) :
    f.reads fs = some (f.get r) ↔ ∀ c ∈ f.wire.carried (f.get r), c.Returns level := by
  obtain ⟨s, read⟩ := readable
  unfold member at found
  simp only at found
  rw [reads_eq_some_iff]
  split at found
  · next left =>
    have missing := f.hidden _ left
    have nothing := (f.blank _ missing).bare
    rw [found, nothing]
    simp [missing]
  · rw [found, ← f.wire.back read level]
    simp

/-- A field that must be given. -/
def needed (name : String) (w : Wire α) (get : ρ → α) : Slot ρ where
  name := name
  Value := α
  wire := w
  get := get
  default := none
  hides _ := false
  blank := nofun
  hidden := nofun

/-- A field that has a value if it is not given. -/
def orElse (name : String) (w : Wire α) (get : ρ → α) (d : α) (blank : w.Blank d) : Slot ρ where
  name := name
  Value := α
  wire := w
  get := get
  default := some d
  hides _ := false
  blank _ h := by
    obtain rfl := Option.some.inj h
    exact blank
  hidden := nofun

/-- A field that may be null or missing, and is left out if it has no value. -/
def optional (name : String) (w : Wire α) (solid : ∀ a, w.write a ≠ .null) (get : ρ → Option α) :
    Slot ρ where
  name := name
  Value := Option α
  wire := w.option solid
  get := get
  default := some none
  hides := Option.isNone
  blank _ h := by
    obtain rfl := Option.some.inj h
    exact w.blank_option_none solid
  hidden v h := by rw [Option.isNone_iff_eq_none.1 h]

/-- A field that may be null or missing, and is null if it has no value. -/
def orNull (name : String) (w : Wire α) (solid : ∀ a, w.write a ≠ .null) (get : ρ → Option α) : Slot ρ :=
  orElse name (w.option solid) get none (w.blank_option_none solid)

/-- A field with a free value that may be null or missing, and is null if it has no value. -/
def freeOrNull (name : String) (get : ρ → Option Json) : Slot ρ :=
  orElse name .freeOption get none Wire.blank_freeOption_none

@[simp] theorem carried_needed {name : String} {w : Wire α} {get : ρ → α} :
    (needed name w get).carried r = (w.carried (get r)).map Carried.deeper := rfl

@[simp] theorem carried_orElse {name : String} {w : Wire α} {get : ρ → α} {d : α} {blank : w.Blank d} :
    (orElse name w get d blank).carried r = (w.carried (get r)).map Carried.deeper := rfl

@[simp] theorem carried_optional {name : String} {w : Wire α} {solid : ∀ a, w.write a ≠ .null}
    {get : ρ → Option α} : (optional name w solid get).carried r =
      ((get r).toList.flatMap w.carried).map Carried.deeper := rfl

@[simp] theorem carried_orNull {name : String} {w : Wire α} {solid : ∀ a, w.write a ≠ .null}
    {get : ρ → Option α} : (orNull name w solid get).carried r =
      ((get r).toList.flatMap w.carried).map Carried.deeper := rfl

@[simp] theorem carried_freeOrNull {name : String} {get : ρ → Option Json} :
    (freeOrNull name get).carried r = (Wire.freeOption.carried (get r)).map Carried.deeper := rfl

@[simp] theorem member_needed {name : String} {w : Wire α} {get : ρ → α} :
    (needed name w get).member r = (name, some (w.write (get r))) := rfl

@[simp] theorem member_orElse {name : String} {w : Wire α} {get : ρ → α} {d : α} {blank : w.Blank d} :
    (orElse name w get d blank).member r = (name, some (w.write (get r))) := rfl

@[simp] theorem member_optional {name : String} {w : Wire α} {solid : ∀ a, w.write a ≠ .null}
    {get : ρ → Option α} : (optional name w solid get).member r = (name, (get r).map w.write) := by
  unfold member optional
  simp only
  cases get r <;> rfl

end Slot

/-! ## Records -/

theorem mem_of_keyed {members : List (Option String × Source)} {fs : Fields}
    (h : keyed members = some fs) : ∀ m ∈ fs, (some m.1, m.2) ∈ members := by
  induction members generalizing fs with
  | nil =>
    cases h
    exact nofun
  | cons m rest ih =>
    unfold keyed at h
    split at h
    · next k fs' named others =>
      cases h
      intro n there
      rcases List.mem_cons.1 there with rfl | there
      · rw [← named]
        exact List.mem_cons_self
      · exact List.mem_cons_of_mem m (ih others n there)
    · cases h

theorem mem_of_pick {names : List String} {members fs : Fields} (h : pick names members = some fs) :
    ∀ m ∈ fs, m ∈ members ∧ m.1 ∈ names := by
  unfold pick at h
  simp only at h
  split at h
  · cases h
    intro m there
    obtain ⟨among, named⟩ := List.mem_filter.1 there
    exact ⟨among, List.contains_iff_mem.1 named⟩
  · cases h

/-- The fields that a record reader finds are members of what is read, or items of it. -/
theorem Carried.from_record {names : List String} {s : Source} {fs : Fields}
    (h : Source.record names s = some fs) {m : String × Source} (there : m ∈ fs) {c : Carried}
    (own : c.From m.2) : c.deeper.From s := by
  cases s with
  | arr items reach =>
    rw [Source.record] at h
    split at h
    · cases h
      exact from_item (List.of_mem_zip there).2 own
    · cases h
  | obj members reach =>
    obtain ⟨ms, read, picked⟩ := Option.bind_eq_some_iff.1 h
    have member := mem_of_keyed read m (mem_of_pick picked m there).1
    exact from_member member own
  | null | bool _ | num _ | str _ => cases h

theorem keys_member (slots : List (Slot ρ)) (r : ρ) :
    ((present (slots.map fun f => f.member r)).map (·.1)).Sublist (slots.map Slot.name) := by
  have keys := keys_present (slots.map fun f => f.member r)
  rwa [List.map_map] at keys

/-- What holds of the fields of a record holds of the record. -/
theorem reads_present_iff {slots : List (Slot ρ)} {fs : Fields} {r : ρ} {level : Nat}
    (once : (slots.map Slot.name).Nodup)
    (readable : ∀ f ∈ slots, ∃ s, f.wire.read s = some (f.get r))
    (found : ∀ name, Members.find? name fs =
      (Members.find? name (present (slots.map fun f => f.member r))).map (nested (level + 1))) :
    (∀ f ∈ slots, f.reads fs = some (f.get r)) ↔
      ∀ c ∈ slots.flatMap fun f => f.carried r, c.Returns level := by
  have names : ((slots.map fun f => f.member r).map (·.1)).Nodup := by
    rw [List.map_map]
    exact once
  have each : ∀ f ∈ slots, (f.reads fs = some (f.get r) ↔
      ∀ c ∈ f.wire.carried (f.get r), c.Returns (level + 1)) := by
    intro f there
    refine Slot.reads_member_iff (readable f there) ?_
    have own : Members.find? (f.member r).1 (present (slots.map fun f => f.member r)) = (f.member r).2 :=
      find?_present names (List.mem_map_of_mem there)
    exact (found f.name).trans (congrArg (Option.map (nested (level + 1))) own)
  simp only [List.mem_flatMap, Slot.carried, List.mem_map]
  constructor
  · rintro all _ ⟨f, there, c, own, rfl⟩
    exact Carried.returns_deeper_iff.2 ((each f there).1 (all f there) c own)
  · intro all f there
    exact (each f there).2 fun c own => Carried.returns_deeper_iff.1 (all _ ⟨f, there, c, own, rfl⟩)

theorem wholeB_present {slots : List (Slot ρ)} {r : ρ}
    (readable : ∀ f ∈ slots, ∃ s, f.wire.read s = some (f.get r))
    (each : ∀ c ∈ slots.flatMap fun f => f.carried r, c.value.wholeB = true) :
    ∀ m ∈ present (slots.map fun f => f.member r), m.2.wholeB = true := by
  intro m there
  obtain ⟨f, among, same⟩ := List.mem_map.1 (mem_present_iff.1 there)
  obtain ⟨s, read⟩ := readable f among
  obtain ⟨-, shown⟩ := Prod.mk.inj same
  split at shown
  · cases shown
  · rw [← Option.some.inj shown]
    refine f.wire.whole read fun c own => each c.deeper ?_
    exact List.mem_flatMap.2 ⟨f, among, List.mem_map_of_mem own⟩

/-- A record of some fields. -/
def Wire.record (slots : List (Slot ρ)) (once : (slots.map Slot.name).Nodup)
    (read : Source → Option ρ) (write : ρ → Json) (carried : ρ → List Carried)
    (reads : ∀ {s r}, read s = some r ↔ ∃ fs, Source.record (slots.map Slot.name) s = some fs ∧
      ∀ f ∈ slots, f.reads fs = some (f.get r))
    (writes : ∀ r, write r = .obj (present (slots.map fun f => f.member r)))
    (carries : ∀ r, carried r = slots.flatMap fun f => f.carried r) : Wire ρ where
  read := read
  write := write
  carried := carried
  kept {s r} h _ there := by
    obtain ⟨fs, given, each⟩ := reads.1 h
    rw [carries] at there
    obtain ⟨f, among, moved⟩ := List.mem_flatMap.1 there
    obtain ⟨c, own, rfl⟩ := List.mem_map.1 moved
    obtain ⟨part, member, came⟩ := Slot.kept_of_reads (each f among) own
    exact Carried.from_record given member came
  back {s r} h level := by
    obtain ⟨fs, given, each⟩ := reads.1 h
    have picked : Source.record (slots.map Slot.name) (nested level (write r)) = some
        ((present (slots.map fun f => f.member r)).map fun m => (m.1, nested (level + 1) m.2)) := by
      rw [writes, record_nested]
      have alone := pick_nested (level + 1) once (keys_member slots r) (List.forall_mem_nil _)
      rwa [List.append_nil] at alone
    have found (name : String) : _ := Members.find?_map (nested (level + 1)) name
      (present (slots.map fun f => f.member r))
    rw [reads, picked, carries,
      ← reads_present_iff once (fun f there => Slot.exists_of_reads (each f there)) found]
    simp
  whole {s r} h each := by
    obtain ⟨fs, given, reads⟩ := reads.1 h
    rw [carries] at each
    rw [writes]
    exact wholeMembersB_iff.2 (wholeB_present (fun f there => Slot.exists_of_reads (reads f there)) each)

/-! ## Open records -/

/-- The other members of an open record as they are carried. -/
def Carried.others (rest : Dict Json) : List Carried :=
  rest.entries.map fun e => { steps := 1, optional := false, value := e.2 }

theorem Carried.from_openRecord {names : List String} {s : Source} {fs : Fields} {rest : Dict Json}
    (h : Source.openRecord names s = some (fs, rest)) :
    (∀ m ∈ fs, ∀ c : Carried, c.From m.2 → c.deeper.From s) ∧
      (∀ c ∈ Carried.others rest, c.From s) ∧ ∀ e ∈ rest.entries, e.1 ∉ names := by
  cases s with
  | obj members reach =>
    obtain ⟨ms, read, h⟩ := Option.bind_eq_some_iff.1 h
    obtain ⟨fs', picked, h⟩ := Option.bind_eq_some_iff.1 h
    obtain ⟨others, kept, same⟩ := Option.bind_eq_some_iff.1 h
    cases same
    have other : ∀ e ∈ (OrderedMap.ofMembers others).entries, ∃ m ∈ ms, m.1 ∉ names ∧ m.1 = e.1 ∧
        m.2.keep = some e.2 := by
      intro e there
      obtain ⟨m, left, same⟩ := Wire.exists_of_mapM kept e (Members.mem_of_mem_sort there)
      obtain ⟨among, unnamed⟩ := List.mem_filter.1 left
      obtain ⟨j, own, rfl⟩ := Option.map_eq_some_iff.1 same
      exact ⟨m, among, by simpa using unnamed, rfl, own⟩
    refine ⟨fun m there c own => ?_, fun c there => ?_, fun e there => ?_⟩
    · have member := mem_of_keyed read m (mem_of_pick picked m there).1
      exact from_member member own
    · obtain ⟨e, given, rfl⟩ := List.mem_map.1 there
      obtain ⟨m, among, -, -, own⟩ := other e given
      exact ⟨m.2, .member (mem_of_keyed read m among) .here, own, nofun⟩
    · obtain ⟨m, -, unnamed, same, -⟩ := other e there
      rwa [← same]
  | null | bool _ | num _ | str _ | arr _ _ => cases h

theorem keys_of_kept {f : Json → Option Json} {ms ms' : List (String × Json)}
    (h : (ms.mapM fun m => (f m.2).map fun j => (m.1, j)) = some ms') : ms'.map (·.1) = ms.map (·.1) := by
  induction Wire.mapM_eq_some_iff.1 h with
  | nil => rfl
  | cons first others ih =>
    obtain ⟨j, -, rfl⟩ := Option.map_eq_some_iff.1 first
    rw [List.map_cons, List.map_cons, ih (Wire.mapM_eq_some_iff.2 others)]

/-- The other members are kept as they are exactly if each of them returns. -/
theorem ofMembers_kept_iff {rest : Dict Json} {level : Nat} :
    ((rest.entries.mapM fun e => (keep (nested (level + 1) e.2)).map fun j => (e.1, j)).map
        .ofMembers = some rest) ↔ ∀ c ∈ Carried.others rest, c.Returns level := by
  have returns : (∀ c ∈ Carried.others rest, c.Returns level) ↔
      ∀ e ∈ rest.entries, keep (nested (level + 1) e.2) = some e.2 := by
    rw [Carried.others, List.forall_mem_map]
    simp [Carried.Returns]
  rw [returns]
  constructor
  · intro h
    obtain ⟨others, kept, same⟩ := Option.map_eq_some_iff.1 h
    have paired := Wire.mapM_eq_some_iff.1 kept
    have keys : others.map (·.1) = rest.entries.map (·.1) :=
      keys_of_kept (f := fun j => keep (nested (level + 1) j)) kept
    have stays : others = rest.entries := by
      have sorted := Members.sorted_of_keys _ keys (List.pairwise_map.2 rest.sorted)
      rw [← Members.sort_of_sorted sorted, ← same]
      rfl
    rw [stays, List.forall₂_same] at paired
    intro e there
    obtain ⟨j, own, same⟩ := Option.map_eq_some_iff.1 (paired e there)
    rw [own, ← same]
  · intro each
    have kept : (rest.entries.mapM fun e => (keep (nested (level + 1) e.2)).map fun j => (e.1, j)) =
        some rest.entries := by
      refine Wire.mapM_eq_some_iff.2 (List.forall₂_same.2 fun e there => ?_)
      rw [each e there]
      rfl
    rw [kept, Option.map_some, Wire.ofMembers_entries]

/-- A written object is read as an open record by its fields, if the other members can be kept. -/
theorem openRecord_nested {names : List String} {ms others : List (String × Json)} (level : Nat)
    (once : names.Nodup) (fields : (ms.map (·.1)).Sublist names) (apart : ∀ m ∈ others, m.1 ∉ names) :
    Source.openRecord names (nested level (.obj (ms ++ others))) =
      (others.mapM fun m => (keep (nested (level + 1) m.2)).map fun j => (m.1, j)).map
        fun kept => (ms.map fun m => (m.1, nested (level + 1) m.2), .ofMembers kept) := by
  have left : ((ms ++ others).map fun m => (m.1, nested (level + 1) m.2)).filter
      (fun m => !names.contains m.1) = others.map fun m => (m.1, nested (level + 1) m.2) := by
    have none : ms.filter (fun m => !names.contains m.1) = [] :=
      List.filter_eq_nil_iff.2 fun m there => by
        simpa using fields.subset (List.mem_map_of_mem there)
    have own : others.filter (fun m => !names.contains m.1) = others :=
      List.filter_eq_self.2 fun m there => by simpa using apart m there
    rw [List.filter_map, List.filter_append]
    simp only [Function.comp_def, own, none, List.nil_append]
  rw [nested, Source.openRecord, nestedMembers_eq_map, keyed_map, Option.bind_eq_bind, Option.bind_some]
  simp only [pick_nested (level + 1) once fields apart, left, Option.bind_eq_bind, Option.bind_some,
    List.mapM_map, Function.comp_def]
  cases others.mapM fun m => (keep (nested (level + 1) m.2)).map fun j => (m.1, j) <;> rfl

/-- A record of some fields and free members besides. -/
def Wire.openRecord (slots : List (Slot ρ)) (once : (slots.map Slot.name).Nodup) (rest : ρ → Dict Json)
    (read : Source → Option ρ) (write : ρ → Json) (carried : ρ → List Carried)
    (reads : ∀ {s r}, read s = some r ↔ ∃ fs,
      Source.openRecord (slots.map Slot.name) s = some (fs, rest r) ∧
      ∀ f ∈ slots, f.reads fs = some (f.get r))
    (writes : ∀ r, write r = .obj (present (slots.map fun f => f.member r) ++ (rest r).entries))
    (carries : ∀ r, carried r = (slots.flatMap fun f => f.carried r) ++ Carried.others (rest r)) :
    Wire ρ where
  read := read
  write := write
  carried := carried
  kept {s r} h c there := by
    obtain ⟨fs, given, each⟩ := reads.1 h
    obtain ⟨fields, others, -⟩ := Carried.from_openRecord given
    rw [carries] at there
    rcases List.mem_append.1 there with there | there
    · obtain ⟨f, among, moved⟩ := List.mem_flatMap.1 there
      obtain ⟨c, own, rfl⟩ := List.mem_map.1 moved
      obtain ⟨part, member, came⟩ := Slot.kept_of_reads (each f among) own
      exact fields _ member c came
    · exact others c there
  back {s r} h level := by
    obtain ⟨fs, given, each⟩ := reads.1 h
    obtain ⟨-, -, apart⟩ := Carried.from_openRecord given
    have picked : Source.openRecord (slots.map Slot.name) (nested level (write r)) =
        ((rest r).entries.mapM fun e => (keep (nested (level + 1) e.2)).map fun j => (e.1, j)).map
          fun others => ((present (slots.map fun f => f.member r)).map
            fun m => (m.1, nested (level + 1) m.2), .ofMembers others) := by
      rw [writes]
      exact openRecord_nested level once (keys_member slots r) apart
    have found (name : String) : _ := Members.find?_map (nested (level + 1)) name
      (present (slots.map fun f => f.member r))
    have fields := reads_present_iff once (fun f there => Slot.exists_of_reads (each f there)) found
    rw [reads, picked, carries, List.forall_mem_append, ← fields, ← ofMembers_kept_iff]
    simp only [Option.map_eq_some_iff, Prod.mk.injEq]
    constructor
    · rintro ⟨fs, ⟨others, kept, rfl, same⟩, each⟩
      exact ⟨each, others, kept, same⟩
    · rintro ⟨each, others, kept, same⟩
      exact ⟨_, ⟨others, kept, rfl, same⟩, each⟩
  whole {s r} h each := by
    obtain ⟨fs, given, reads⟩ := reads.1 h
    rw [carries] at each
    rw [writes]
    refine wholeMembersB_iff.2 fun m there => ?_
    rcases List.mem_append.1 there with there | there
    · exact wholeB_present (fun f there => Slot.exists_of_reads (reads f there))
        (fun c own => each c (List.mem_append_left _ own)) m there
    · exact each _ (List.mem_append_right _ (List.mem_map_of_mem there))

end AppAdmission.Json
