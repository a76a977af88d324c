import AppAdmission.Resource.Stored

/-!
# Store calls

What may be asked of a store of objects, what it answers, and how it may fail.
-/

namespace AppAdmission

/-- Why a store call failed. -/
inductive StoreError where
  | notFound (kind : ResourceKind) (name : String)
  | alreadyExists (kind : ResourceKind) (name : String)
  | backend (message : String)
  deriving DecidableEq, Repr

/-- The wording of a failure. -/
def StoreError.message : StoreError → String
  | notFound kind name => kind.name ++ " '" ++ name ++ "' not found"
  | alreadyExists kind name => kind.name ++ " '" ++ name ++ "' already exists"
  | backend message => "store backend error: " ++ message

/-- Which objects a list is to hold. -/
structure ListFilter where
  space : Option String := none
  name : Option String := none
  labels : Dict String := .empty
  deriving DecidableEq

namespace ListFilter

/-- The objects of a name, in any namespace. -/
def named (name : String) : ListFilter := { name := some name }

/-- A restriction holds if there is none or the value is the one asked for. -/
def admitsB (wanted : Option String) (value : String) : Bool :=
  match wanted with
  | none => true
  | some w => value == w

/-- The object is one of those asked for. -/
def matchesB (f : ListFilter) (o : StoredObject) : Bool :=
  admitsB f.space o.space && admitsB f.name o.name &&
    f.labels.entries.all fun e => o.metadata.label? e.1 == some e.2

end ListFilter

/-- The operations of a store. -/
inductive StoreOp where
  | get
  | list
  | create
  | update
  deriving DecidableEq, Repr

namespace StoreOp

/-- The name of an operation. -/
def name : StoreOp → String
  | get => "get"
  | list => "list"
  | create => "create"
  | update => "update"

end StoreOp

/-- A call to a store. -/
inductive StoreCall where
  | get (kind : ResourceKind) (space : Option String) (name : String)
  | list (kind : ResourceKind) (filter : ListFilter)
  | create (kind : ResourceKind) (object : StoredObject)
  | update (kind : ResourceKind) (object : StoredObject)
  deriving DecidableEq

namespace StoreCall

/-- The operation of a call. -/
def op : StoreCall → StoreOp
  | get .. => .get
  | list .. => .list
  | create .. => .create
  | update .. => .update

/-- The kind of objects that a call is about. -/
def kind : StoreCall → ResourceKind
  | get k _ _ => k
  | list k _ => k
  | create k _ => k
  | update k _ => k

/-- What a call answers: objects for a list, else one object. -/
abbrev Answer : StoreCall → Type
  | list .. => List StoredObject
  | _ => StoredObject

/-- What a call comes to. -/
abbrev Reply (c : StoreCall) := Except StoreError c.Answer

/-- The failure of a call with any error. -/
def fail (c : StoreCall) (e : StoreError) : c.Reply := .error e

end StoreCall

end AppAdmission
