import AppAdmission.Json.Source

/-!
# Reading records

How values of fixed shapes are read from JSON. A closed record names its fields: it is given as an
object, in which other members are skipped, or as an array of its fields in order, of which the last
ones may be left out. An open record keeps the other members. Either way a field may be given only
once. There is no conversion between kinds of values: a text is read only from a text.
-/

namespace AppAdmission.Json.Source

variable {α : Type}

/-- The fields of a record that were given. -/
abbrev Fields := List (String × Source)

/-- No name occurs twice. -/
def uniqueB : List String → Bool
  | [] => true
  | k :: rest => !rest.contains k && uniqueB rest

/-- The members of an object, if every key is a text. -/
def keyed : List (Option String × Source) → Option Fields
  | [] => some []
  | (k, s) :: rest =>
    match k, keyed rest with
    | some k, some fs => some ((k, s) :: fs)
    | _, _ => none

/-- The members with the given names, each of which must occur at most once. -/
def pick (names : List String) (members : Fields) : Option Fields :=
  let fs := members.filter fun m => names.contains m.1
  if uniqueB (fs.map (·.1)) then some fs else none

/-- The fields of a closed record. -/
def record (names : List String) : Source → Option Fields
  | arr items _ => if items.length ≤ names.length then some (names.zip items) else none
  | obj members _ => do pick names (← keyed members)
  | _ => none

/-- The fields of an open record, and its other members as free values. -/
def openRecord (names : List String) : Source → Option (Fields × Dict Json)
  | obj members _ => do
    let ms ← keyed members
    let fs ← pick names ms
    let others ← (ms.filter fun m => !names.contains m.1).mapM fun m => (keep m.2).map fun j => (m.1, j)
    return (fs, .ofMembers others)
  | _ => none

/-- A field that must be given. -/
def Fields.need (fs : Fields) (name : String) (read : Source → Option α) : Option α :=
  (Members.find? name fs).bind read

/-- A field that may be left out. -/
def Fields.orElse (fs : Fields) (name : String) (read : Source → Option α) (default : α) :
    Option α :=
  match Members.find? name fs with
  | none => some default
  | some s => read s

/-- A value that may be null. -/
def nullable (read : Source → Option α) : Source → Option (Option α)
  | null => some none
  | s => (read s).map some

/-- A field that may be left out or null. -/
def Fields.optional (fs : Fields) (name : String) (read : Source → Option α) : Option (Option α) :=
  fs.orElse name (nullable read) none

/-- A truth value. -/
def flag : Source → Option Bool
  | bool b => some b
  | _ => none

/-- An integer. -/
def integer : Source → Option Int
  | num (some (.int n)) => some n
  | _ => none

/-- A natural number below a bound. -/
def smaller (bound : Nat) (s : Source) : Option Nat := do
  let n ← s.integer
  if 0 ≤ n ∧ n < bound then some n.toNat else none

/-- A list. -/
def list (read : Source → Option α) : Source → Option (List α)
  | arr items _ => items.mapM read
  | _ => none

/-- A list of texts. -/
def texts : Source → Option (List String) := list text

/-- A map of texts. -/
def labels : Source → Option (Dict String)
  | obj members _ => do
    let entries ← (← keyed members).mapM fun m => (text m.2).map fun v => (m.1, v)
    return .ofMembers entries
  | _ => none

/-- The name of a variant that carries nothing: a text, or an object with the one member `null`. -/
def variant : Source → Option String
  | str s => s
  | obj [(k, null)] _ => k
  | _ => none

end AppAdmission.Json.Source
