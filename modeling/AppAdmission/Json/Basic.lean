import AppAdmission.OrderedMap
import AppAdmission.Binary64.Basic

/-!
# JSON values

A value is a tree; an object is the list of its members as they are written. Two readings of an
object meet here: a record that is written keeps the order of its members, and a free value, one that
only passes through, holds them in order of their keys with every key once. `normalise` goes from the
first to the second, and `canonicalB` tells whether a tree is of the second kind.
-/

namespace AppAdmission

/-- A number: an integer that fits in 64 bits, signed or unsigned, or a double. -/
inductive Number where
  | int (value : Int)
  | float (value : Binary64)
  deriving DecidableEq, Repr

namespace Number

/-- The integers that stay integers when they are read. -/
def fitsB (n : Int) : Bool :=
  -0x8000000000000000 ≤ n && n < 0x10000000000000000

end Number

/-- A JSON value. -/
inductive Json where
  | null
  | bool (value : Bool)
  | num (value : Number)
  | str (value : String)
  | arr (items : List Json)
  | obj (members : List (String × Json))
  deriving Repr

namespace Json

instance : Inhabited Json := ⟨null⟩

mutual

/-- Equality of values can be decided. -/
def decEq : (a b : Json) → Decidable (a = b)
  | null, null => isTrue rfl
  | bool a, bool b => if h : a = b then isTrue (h ▸ rfl) else isFalse (by simpa using h)
  | num a, num b => if h : a = b then isTrue (h ▸ rfl) else isFalse (by simpa using h)
  | str a, str b => if h : a = b then isTrue (h ▸ rfl) else isFalse (by simpa using h)
  | arr a, arr b => match decEqItems a b with
    | isTrue h => isTrue (h ▸ rfl)
    | isFalse h => isFalse (by simpa using h)
  | obj a, obj b => match decEqMembers a b with
    | isTrue h => isTrue (h ▸ rfl)
    | isFalse h => isFalse (by simpa using h)
  | null, bool _ | null, num _ | null, str _ | null, arr _ | null, obj _ => isFalse (by simp)
  | bool _, null | bool _, num _ | bool _, str _ | bool _, arr _ | bool _, obj _ => isFalse (by simp)
  | num _, null | num _, bool _ | num _, str _ | num _, arr _ | num _, obj _ => isFalse (by simp)
  | str _, null | str _, bool _ | str _, num _ | str _, arr _ | str _, obj _ => isFalse (by simp)
  | arr _, null | arr _, bool _ | arr _, num _ | arr _, str _ | arr _, obj _ => isFalse (by simp)
  | obj _, null | obj _, bool _ | obj _, num _ | obj _, str _ | obj _, arr _ => isFalse (by simp)

/-- `decEq` on the items of arrays. -/
def decEqItems : (a b : List Json) → Decidable (a = b)
  | [], [] => isTrue rfl
  | [], _ :: _ => isFalse (by simp)
  | _ :: _, [] => isFalse (by simp)
  | x :: xs, y :: ys => match decEq x y with
    | isFalse h => isFalse (by simp [h])
    | isTrue h => match decEqItems xs ys with
      | isFalse h => isFalse (by simp [h])
      | isTrue hs => isTrue (by rw [h, hs])

/-- `decEq` on the members of objects. -/
def decEqMembers : (a b : List (String × Json)) → Decidable (a = b)
  | [], [] => isTrue rfl
  | [], _ :: _ => isFalse (by simp)
  | _ :: _, [] => isFalse (by simp)
  | (j, x) :: xs, (k, y) :: ys =>
    if hk : j = k then
      match decEq x y with
      | isFalse h => isFalse (by simp [h])
      | isTrue h => match decEqMembers xs ys with
        | isFalse h => isFalse (by simp [h])
        | isTrue hs => isTrue (by rw [hk, h, hs])
    else isFalse (by simp [hk])

end

instance : DecidableEq Json := decEq

mutual

/-- The free value of a written tree: in every object the members stand in order of their keys,
and of several under one key the last is kept. -/
def normalise : Json → Json
  | arr items => arr (normaliseItems items)
  | obj members => obj (Members.sort (normaliseMembers members))
  | j => j

/-- `normalise` on the items of an array. -/
def normaliseItems : List Json → List Json
  | [] => []
  | j :: rest => normalise j :: normaliseItems rest

/-- `normalise` on the values of members. -/
def normaliseMembers : List (String × Json) → List (String × Json)
  | [] => []
  | (k, j) :: rest => (k, normalise j) :: normaliseMembers rest

end

mutual

/-- Every object in the tree has its members in strict order of their keys. -/
def canonicalB : Json → Bool
  | arr items => canonicalItemsB items
  | obj members => decide (Members.Sorted members) && canonicalMembersB members
  | _ => true

/-- `canonicalB` on the items of an array. -/
def canonicalItemsB : List Json → Bool
  | [] => true
  | j :: rest => canonicalB j && canonicalItemsB rest

/-- `canonicalB` on the values of members. -/
def canonicalMembersB : List (String × Json) → Bool
  | [] => true
  | (_, j) :: rest => canonicalB j && canonicalMembersB rest

end

/-- An integer. -/
def ofInt (n : Int) : Json := num (.int n)

/-- A natural number. -/
def ofNat (n : Nat) : Json := num (.int n)

/-- An array of texts. -/
def ofStrings (ss : List String) : Json := arr (ss.map str)

/-- A map of texts. -/
def ofLabels (d : Dict String) : Json := obj (d.entries.map fun e => (e.1, str e.2))

/-- The member of an object, if there is one. -/
def find? (key : String) : Json → Option Json
  | obj members => Members.find? key members
  | _ => none

/-- A member that is written only if it has a value. -/
def optional (key : String) (value : Option Json) : List (String × Json) :=
  value.toList.map fun v => (key, v)

/-- A value, or `null` for none. -/
def orNull (value : Option Json) : Json := value.getD null

end Json

end AppAdmission
