import Mathlib.Data.List.Nodup
import AppAdmission.Json.Printer
import AppAdmission.Proofs.Json.Lasting
import AppAdmission.Proofs.Json.Record

/-!
# Values on the wire

How values of a type are read and written, with the laws that make the two agree: what was read is
written so that it is read as the same value again. Free values are carried through. They are the one
thing that may fail to come back, so each type says which ones a value carries and where they are written,
and the value comes back exactly if they do.
-/

namespace AppAdmission.Json

open Source

/-- A free value that is carried by another value: how many containers down it is written, and whether
null would stand for no value there. -/
structure Carried where
  steps : Nat
  optional : Bool
  value : Json

namespace Carried

/-- Carried by what is one container further out. -/
def deeper (c : Carried) : Carried := { c with steps := c.steps + 1 }

/-- It was kept from a part of what was read, where it is written again. -/
def From (s : Source) (c : Carried) : Prop :=
  ∃ part, Inside c.steps s part ∧ part.keep = some c.value ∧ (c.optional = true → part ≠ .null)

/-- It is kept as it is when the value that carries it is written at a level. -/
def Returns (level : Nat) (c : Carried) : Prop :=
  keep (nested (level + c.steps) c.value) = some c.value ∧ (c.optional = true → c.value ≠ .null)

theorem returns_deeper_iff {level : Nat} {c : Carried} :
    c.deeper.Returns level ↔ c.Returns (level + 1) := by
  have same : level + (c.steps + 1) = level + 1 + c.steps := by omega
  unfold Returns deeper
  rw [same]

theorem from_item {c : Carried} {s : Source} {items : List Source} {reach : Nat} (among : s ∈ items)
    (h : c.From s) : c.deeper.From (.arr items reach) := by
  obtain ⟨part, down, kept⟩ := h
  exact ⟨part, .item among down, kept⟩

theorem from_member {c : Carried} {m : Option String × Source} {members : List (Option String × Source)}
    {reach : Nat} (among : m ∈ members) (h : c.From m.2) : c.deeper.From (.obj members reach) := by
  obtain ⟨part, down, kept⟩ := h
  exact ⟨part, .member among down, kept⟩

end Carried

/-- How values of a type are read and written, and what they carry. -/
structure Wire (α : Type) where
  read : Source → Option α
  write : α → Json
  carried : α → List Carried
  /-- What is carried was kept where it is written. -/
  kept : ∀ {s a}, read s = some a → ∀ c ∈ carried a, c.From s
  /-- What was read comes back if what it carries does. -/
  back : ∀ {s a}, read s = some a → ∀ level,
    (read (nested level (write a)) = some a ↔ ∀ c ∈ carried a, c.Returns level)
  /-- What was read holds no numbers of its own but integers. -/
  whole : ∀ {s a}, read s = some a → (∀ c ∈ carried a, c.value.wholeB = true) → (write a).wholeB = true

namespace Wire

variable {α : Type}

@[simp] theorem flatMap_bare (as : List α) : (as.flatMap fun _ => ([] : List Carried)) = [] :=
  List.flatMap_eq_nil_iff.2 fun _ _ => rfl

/-- A value that can be read and carries nothing: one that may stand for what is missing. -/
structure Blank (w : Wire α) (a : α) : Prop where
  readable : ∃ s, w.read s = some a
  bare : w.carried a = []

/-- A type that carries nothing. -/
def leaf (read : Source → Option α) (write : α → Json)
    (back : ∀ {s a}, read s = some a → ∀ level, read (nested level (write a)) = some a)
    (whole : ∀ {s a}, read s = some a → (write a).wholeB = true) : Wire α where
  read := read
  write := write
  carried _ := []
  kept _ := nofun
  back h level := ⟨fun _ => nofun, fun _ => back h level⟩
  whole h _ := whole h

/-- Texts. -/
def text : Wire String :=
  leaf Source.text .str (fun _ _ => rfl) fun _ => rfl

/-- Truth values. -/
def flag : Wire Bool :=
  leaf Source.flag .bool (fun _ _ => rfl) fun _ => rfl

@[simp] theorem carried_text : text.carried = fun _ => [] := rfl

@[simp] theorem carried_flag : flag.carried = fun _ => [] := rfl

theorem blank_text (v : String) : text.Blank v := ⟨⟨.str (some v), rfl⟩, rfl⟩

theorem blank_flag (v : Bool) : flag.Blank v := ⟨⟨.bool v, rfl⟩, rfl⟩

theorem solid_text : ∀ v, text.write v ≠ .null := nofun

theorem solid_flag : ∀ v, flag.write v ≠ .null := nofun

theorem lt_of_smaller {bound n : Nat} {s : Source} (h : smaller bound s = some n) : n < bound := by
  obtain ⟨k, -, h⟩ := Option.bind_eq_some_iff.1 h
  split at h
  · cases h
    omega
  · cases h

theorem wholeB_ofNat {n : Nat} (h : n < 0x10000000000000000) : (ofNat n).wholeB = true := by
  show Number.fitsB n = true
  unfold Number.fitsB
  simp only [Bool.and_eq_true, decide_eq_true_eq]
  omega

/-- Natural numbers below a bound. -/
def natural (bound : Nat) (fits : bound ≤ 0x10000000000000000) : Wire Nat :=
  leaf (smaller bound) ofNat (fun h _ => smaller_int (lt_of_smaller h))
    fun h => wholeB_ofNat ((lt_of_smaller h).trans_le fits)

@[simp] theorem carried_natural {bound : Nat} {fits : bound ≤ 0x10000000000000000} :
    (natural bound fits).carried = fun _ => [] := rfl

theorem solid_natural {bound : Nat} {fits : bound ≤ 0x10000000000000000} :
    ∀ v, (natural bound fits).write v ≠ .null := nofun

theorem blank_natural {bound v : Nat} {fits : bound ≤ 0x10000000000000000} (h : v < bound) :
    (natural bound fits).Blank v := ⟨⟨.num (some (.int v)), smaller_int h⟩, rfl⟩

theorem ofMembers_entries (d : Dict α) : OrderedMap.ofMembers d.entries = d :=
  OrderedMap.ext_entries (Members.sort_of_sorted d.sorted)

theorem labels_nested (d : Dict String) (level : Nat) : labels (nested level (ofLabels d)) = some d := by
  have entries : (d.entries.map fun e => (e.1, nested (level + 1) (str e.2))).mapM
      (fun m => (Source.text m.2).map fun v => (m.1, v)) = some d.entries := by
    induction d.entries with
    | nil => rfl
    | cons e rest ih =>
      rw [List.map_cons, List.mapM_cons, ih]
      rfl
  have read : labels (nested level (ofLabels d)) = some (.ofMembers d.entries) := by
    rw [ofLabels, nested, labels, nestedMembers_eq_map, keyed_map, Option.bind_eq_bind, Option.bind_some,
      List.map_map, Function.comp_def, entries]
    rfl
  rw [read, ofMembers_entries]

/-- Maps of texts. -/
def labels : Wire (Dict String) :=
  leaf Source.labels ofLabels (fun _ _ => labels_nested _ _) fun _ => by
    refine wholeMembersB_iff.2 fun m there => ?_
    obtain ⟨e, -, rfl⟩ := List.mem_map.1 there
    rfl

@[simp] theorem carried_labels : labels.carried = fun _ => [] := rfl

theorem solid_labels : ∀ v, labels.write v ≠ .null := nofun

theorem blank_labels (v : Dict String) : labels.Blank v :=
  ⟨⟨nested 1 (ofLabels v), labels_nested v 1⟩, rfl⟩

theorem nested_eq_null_iff {level : Nat} {j : Json} : nested level j = .null ↔ j = .null := by
  cases j <;> simp [nested]

theorem nullable_eq_some_some_iff {read : Source → Option α} {s : Source} {a : α} :
    nullable read s = some (some a) ↔ s ≠ .null ∧ read s = some a := by
  cases s <;> simp [nullable]

/-- Free values that may be missing. -/
def freeOption : Wire (Option Json) where
  read := nullable keep
  write := orNull
  carried o := o.toList.map fun j => { steps := 0, optional := true, value := j }
  kept {s o} h c there := by
    obtain ⟨j, given, rfl⟩ := List.mem_map.1 there
    obtain rfl := Option.mem_toList.1 given
    obtain ⟨present, read⟩ := nullable_eq_some_some_iff.1 h
    exact ⟨s, .here, read, fun _ => present⟩
  back {s o} h level := by
    cases o with
    | none => exact ⟨fun _ => nofun, fun _ => rfl⟩
    | some j =>
      show nullable keep (nested level j) = some (some j) ↔ _
      rw [nullable_eq_some_some_iff, Ne, nested_eq_null_iff]
      simp [Carried.Returns, and_comm]
  whole {s o} h each := by
    cases o with
    | none => rfl
    | some j => exact each _ (List.mem_singleton_self _)

/-- Values that may be null. -/
def option (w : Wire α) (solid : ∀ a, w.write a ≠ .null) : Wire (Option α) where
  read := nullable w.read
  write o := orNull (o.map w.write)
  carried o := o.toList.flatMap w.carried
  kept {s o} h c there := by
    obtain ⟨a, given, own⟩ := List.mem_flatMap.1 there
    obtain rfl := Option.mem_toList.1 given
    exact w.kept (nullable_eq_some_some_iff.1 h).2 c own
  back {s o} h level := by
    cases o with
    | none => exact ⟨fun _ => nofun, fun _ => rfl⟩
    | some a =>
      have present : nested level (w.write a) ≠ .null := mt nested_eq_null_iff.1 (solid a)
      show nullable w.read (nested level (w.write a)) = some (some a) ↔ _
      rw [nullable_eq_some_some_iff, w.back (nullable_eq_some_some_iff.1 h).2 level]
      simp [present]
  whole {s o} h each := by
    cases o with
    | none => rfl
    | some a =>
      refine w.whole (nullable_eq_some_some_iff.1 h).2 fun c own => each c ?_
      exact List.mem_flatMap.2 ⟨a, List.mem_singleton_self a, own⟩

theorem mapM_eq_some_iff {β : Type} {f : β → Option α} {xs : List β} {as : List α} :
    xs.mapM f = some as ↔ List.Forall₂ (fun x a => f x = some a) xs as := by
  induction xs generalizing as with
  | nil => cases as <;> simp
  | cons x rest ih =>
    simp only [List.mapM_cons, Option.bind_eq_bind, Option.bind_eq_some_iff, ih, List.forall₂_cons_left_iff]
    constructor
    · rintro ⟨a, first, as', others, same⟩
      cases same
      exact ⟨a, as', first, others, rfl⟩
    · rintro ⟨a, as', first, others, rfl⟩
      exact ⟨a, first, as', others, rfl⟩

theorem exists_of_mapM {β : Type} {f : β → Option α} {xs : List β} {as : List α}
    (h : xs.mapM f = some as) : ∀ a ∈ as, ∃ x ∈ xs, f x = some a := by
  induction mapM_eq_some_iff.1 h with
  | nil => exact nofun
  | @cons x b _ _ first others ih =>
    intro a there
    rcases List.mem_cons.1 there with rfl | there
    · exact ⟨x, List.mem_cons_self, first⟩
    · obtain ⟨y, among, read⟩ := ih (mapM_eq_some_iff.2 others) a there
      exact ⟨y, List.mem_cons_of_mem x among, read⟩

theorem nestedItems_eq_map (level : Nat) (items : List Json) :
    nestedItems level items = items.map (nested level) := by
  induction items with
  | nil => rfl
  | cons j rest ih => rw [nestedItems, ih, List.map_cons]

theorem exists_of_list {read : Source → Option α} {s : Source} {as : List α}
    (h : Source.list read s = some as) : ∃ items reach, s = .arr items reach ∧
      ∀ a ∈ as, ∃ item ∈ items, read item = some a := by
  cases s with
  | arr items reach => exact ⟨items, reach, rfl, exists_of_mapM h⟩
  | null | bool _ | num _ | str _ | obj _ _ => cases h

/-- Lists. -/
def list (w : Wire α) : Wire (List α) where
  read := Source.list w.read
  write as := .arr (as.map w.write)
  carried as := as.flatMap fun a => (w.carried a).map Carried.deeper
  kept {s as} h _ there := by
    obtain ⟨a, given, moved⟩ := List.mem_flatMap.1 there
    obtain ⟨c, own, rfl⟩ := List.mem_map.1 moved
    obtain ⟨items, reach, rfl, read⟩ := exists_of_list h
    obtain ⟨item, among, first⟩ := read a given
    exact Carried.from_item among (w.kept first c own)
  back {s as} h level := by
    obtain ⟨items, reach, rfl, read⟩ := exists_of_list h
    have each : ∀ a ∈ as, (w.read (nested (level + 1) (w.write a)) = some a ↔
        ∀ c ∈ w.carried a, c.Returns (level + 1)) := by
      intro a given
      obtain ⟨item, -, first⟩ := read a given
      exact w.back first (level + 1)
    show (nestedItems (level + 1) (as.map w.write)).mapM w.read = some as ↔ _
    rw [mapM_eq_some_iff, nestedItems_eq_map, List.map_map, List.forall₂_map_left_iff, List.forall₂_same]
    simp only [List.mem_flatMap, List.mem_map]
    constructor
    · rintro all _ ⟨a, given, c, own, rfl⟩
      exact Carried.returns_deeper_iff.2 ((each a given).1 (all a given) c own)
    · intro all a given
      exact (each a given).2 fun c own => Carried.returns_deeper_iff.1 (all _ ⟨a, given, c, own, rfl⟩)
  whole {s as} h each := by
    obtain ⟨items, reach, rfl, read⟩ := exists_of_list h
    refine wholeItemsB_iff.2 fun j there => ?_
    obtain ⟨a, given, rfl⟩ := List.mem_map.1 there
    obtain ⟨item, -, first⟩ := read a given
    refine w.whole first fun c own => each c.deeper ?_
    exact List.mem_flatMap.2 ⟨a, given, List.mem_map_of_mem own⟩

theorem blank_option_none (w : Wire α) (solid : ∀ a, w.write a ≠ .null) : (w.option solid).Blank none :=
  ⟨⟨.null, rfl⟩, rfl⟩

theorem blank_freeOption_none : freeOption.Blank none := ⟨⟨.null, rfl⟩, rfl⟩

theorem blank_list_nil (w : Wire α) : w.list.Blank [] := ⟨⟨.arr [] 0, rfl⟩, rfl⟩

@[simp] theorem carried_list (w : Wire α) :
    w.list.carried = fun as => as.flatMap fun a => (w.carried a).map Carried.deeper := rfl

end Wire

end AppAdmission.Json
