/-!
# Finite maps in order of their keys

A map is the list of its entries in strictly increasing order of their keys, so two maps with
the same entries are equal. The operations on plain lists of members come first, because JSON objects
use them too; `OrderedMap` adds the proof that the list is in order. A `Dict` has text for its keys,
ordered by code point, which is the order of their UTF-8 bytes.
-/

namespace AppAdmission

/-- A strict total order of keys. -/
class KeyOrder (κ : Type) [LT κ] : Prop where
  lt_irrefl : ∀ a : κ, ¬a < a
  lt_trans : ∀ {a b c : κ}, a < b → b < c → a < c
  lt_of_not_lt : ∀ {a b : κ}, ¬a < b → a ≠ b → b < a

instance : KeyOrder String where
  lt_irrefl := String.lt_irrefl
  lt_trans := String.lt_trans
  lt_of_not_lt := fun h hne => Decidable.byContradiction fun hn =>
    hne (String.le_antisymm (String.not_lt.1 hn) (String.not_lt.1 h))

namespace Members

variable {κ α : Type}

section Keys

variable [LT κ] [DecidableLT κ] [DecidableEq κ]

/-- The keys are in strictly increasing order. -/
def Sorted (ms : List (κ × α)) : Prop :=
  ms.Pairwise fun a b => a.1 < b.1

instance (ms : List (κ × α)) : Decidable (Sorted ms) :=
  inferInstanceAs (Decidable (ms.Pairwise _))

/-- The value under a key. -/
def find? (key : κ) : List (κ × α) → Option α
  | [] => none
  | (k, v) :: rest => if k = key then some v else find? key rest

/-- Puts a value under a key, in its place in the order. -/
def insert (key : κ) (value : α) : List (κ × α) → List (κ × α)
  | [] => [(key, value)]
  | (k, v) :: rest =>
    if key < k then (key, value) :: (k, v) :: rest
    else if k = key then (key, value) :: rest
    else (k, v) :: insert key value rest

/-- Puts a value in the place of the one under a key that is there. -/
def replace (key : κ) (value : α) : List (κ × α) → List (κ × α)
  | [] => []
  | (k, v) :: rest => if k = key then (k, value) :: rest else (k, v) :: replace key value rest

/-- Takes a key out. -/
def erase (key : κ) (ms : List (κ × α)) : List (κ × α) :=
  ms.filter fun m => decide (m.1 ≠ key)

/-- The members in order of their keys; of several under one key the last is kept. -/
def sort (ms : List (κ × α)) : List (κ × α) :=
  ms.foldl (fun acc m => insert m.1 m.2 acc) []

omit [DecidableLT κ] [DecidableEq κ] in
theorem sorted_nil : Sorted ([] : List (κ × α)) := List.Pairwise.nil

theorem mem_insert {key : κ} {value : α} {ms : List (κ × α)} {m : κ × α}
    (h : m ∈ insert key value ms) : m = (key, value) ∨ m ∈ ms := by
  induction ms with
  | nil => simpa [insert] using h
  | cons x rest ih =>
    obtain ⟨k, v⟩ := x
    simp only [insert] at h
    split at h
    · simpa using h
    · split at h
      · rcases List.mem_cons.1 h with h | h
        · exact Or.inl h
        · exact Or.inr (List.mem_cons_of_mem _ h)
      · rcases List.mem_cons.1 h with h | h
        · exact Or.inr (h ▸ List.mem_cons_self)
        · exact (ih h).imp id (List.mem_cons_of_mem _)

theorem sorted_insert [KeyOrder κ] {key : κ} {value : α} {ms : List (κ × α)} (h : Sorted ms) :
    Sorted (insert key value ms) := by
  induction ms with
  | nil => simp [insert, Sorted]
  | cons x rest ih =>
    obtain ⟨k, v⟩ := x
    obtain ⟨hk, hr⟩ := List.pairwise_cons.1 h
    simp only [insert]
    split
    · next hlt =>
      refine List.pairwise_cons.2 ⟨fun m hm => ?_, h⟩
      rcases List.mem_cons.1 hm with rfl | hm
      · exact hlt
      · exact KeyOrder.lt_trans hlt (hk m hm)
    · split
      · next he => subst he; exact List.pairwise_cons.2 ⟨hk, hr⟩
      · next hlt hne =>
        refine List.pairwise_cons.2 ⟨fun m hm => ?_, ih hr⟩
        rcases mem_insert hm with rfl | hm
        · exact KeyOrder.lt_of_not_lt hlt (Ne.symm hne)
        · exact hk m hm

omit [DecidableLT κ] in
theorem sorted_erase {key : κ} {ms : List (κ × α)} (h : Sorted ms) :
    Sorted (erase key ms) :=
  List.Pairwise.filter _ h

theorem sorted_foldl_insert [KeyOrder κ] {ms acc : List (κ × α)} (h : Sorted acc) :
    Sorted (ms.foldl (fun acc m => insert m.1 m.2 acc) acc) := by
  induction ms generalizing acc with
  | nil => exact h
  | cons m rest ih => exact ih (sorted_insert h)

theorem sorted_sort [KeyOrder κ] (ms : List (κ × α)) : Sorted (sort ms) :=
  sorted_foldl_insert sorted_nil

theorem find?_insert_self (key : κ) (value : α) (ms : List (κ × α)) :
    find? key (insert key value ms) = some value := by
  induction ms with
  | nil => simp [insert, find?]
  | cons x rest ih =>
    obtain ⟨k, v⟩ := x
    simp only [insert]
    split
    · simp [find?]
    · split
      · simp [find?]
      · next hne => simp [find?, hne, ih]

theorem find?_insert_ne {key other : κ} (value : α) (ms : List (κ × α))
    (h : other ≠ key) : find? other (insert key value ms) = find? other ms := by
  induction ms with
  | nil => simp [insert, find?, h.symm]
  | cons x rest ih =>
    obtain ⟨k, v⟩ := x
    simp only [insert]
    split
    · simp [find?, h.symm]
    · split
      · next he => subst he; simp [find?, h.symm]
      · simp [find?, ih]

end Keys

end Members

/-- A finite map from ordered keys. -/
structure OrderedMap (κ α : Type) [LT κ] where
  entries : List (κ × α)
  sorted : Members.Sorted entries

/-- A finite map from text. -/
abbrev Dict (α : Type) := OrderedMap String α

namespace OrderedMap

variable {κ α : Type} [LT κ]

theorem ext_entries {a b : OrderedMap κ α} (h : a.entries = b.entries) : a = b := by
  cases a; cases b; cases h; rfl

instance [DecidableEq κ] [DecidableEq α] : DecidableEq (OrderedMap κ α) := fun a b =>
  if h : a.entries = b.entries then isTrue (ext_entries h)
  else isFalse fun e => h (e ▸ rfl)

/-- The map without entries. -/
def empty : OrderedMap κ α := ⟨[], List.Pairwise.nil⟩

instance : Inhabited (OrderedMap κ α) := ⟨empty⟩

/-- The map has no entries. -/
def isEmpty (d : OrderedMap κ α) : Bool :=
  d.entries.isEmpty

variable [DecidableLT κ] [DecidableEq κ]

/-- The value under a key. -/
def get? (d : OrderedMap κ α) (key : κ) : Option α :=
  Members.find? key d.entries

/-- Takes a key out. -/
def erase (d : OrderedMap κ α) (key : κ) : OrderedMap κ α :=
  ⟨Members.erase key d.entries, Members.sorted_erase d.sorted⟩

variable [KeyOrder κ]

/-- Puts a value under a key. -/
def insert (d : OrderedMap κ α) (key : κ) (value : α) : OrderedMap κ α :=
  ⟨Members.insert key value d.entries, Members.sorted_insert d.sorted⟩

/-- The map of a list of members; of several under one key the last is kept. -/
def ofMembers (ms : List (κ × α)) : OrderedMap κ α :=
  ⟨Members.sort ms, Members.sorted_sort ms⟩

@[simp] theorem get?_insert_self (d : OrderedMap κ α) (key : κ) (value : α) :
    (d.insert key value).get? key = some value :=
  Members.find?_insert_self key value d.entries

theorem get?_insert_ne (d : OrderedMap κ α) {key other : κ} (value : α) (h : other ≠ key) :
    (d.insert key value).get? other = d.get? other :=
  Members.find?_insert_ne value d.entries h

end OrderedMap

end AppAdmission
