import AppAdmission.Yaml.Property

/-!
# Tokens

What a text consists of once its layout is made explicit: the start and end of every indented
collection is a token of its own, and so is the sign that a key follows. An anchor is known by its
number, which is how many names were in use before it. Giving a name again does not raise that
count, so that the next new name then shares its number.
-/

namespace AppAdmission.Yaml

/-- The tokens of YAML. -/
inductive Token where
  | directive (value : Directive)
  | documentStart
  | documentEnd
  | blockSequenceStart
  | blockMappingStart
  | blockEnd
  | flowSequenceStart
  | flowSequenceEnd
  | flowMappingStart
  | flowMappingEnd
  | blockEntry
  | flowEntry
  | key
  | value
  | anchor (number : Nat)
  | aliasOf (number : Nat)
  | tag (value : TagText)
  | scalar (style : ScalarStyle) (text : String)
  deriving DecidableEq, Repr

/-- The names that anchors gave, with their numbers, the latest first; and how many names these
are. -/
structure AnchorNames where
  numbers : List (String × Nat) := []
  count : Nat := 0

namespace AnchorNames

/-- The number of a name. -/
def find? (a : AnchorNames) (name : String) : Option Nat :=
  (a.numbers.find? fun p => p.1 == name).map (·.2)

/-- Gives a name. -/
def give (a : AnchorNames) (name : String) : AnchorNames :=
  ⟨(name, a.count) :: a.numbers, if (a.find? name).isSome then a.count else a.count + 1⟩

end AnchorNames

end AppAdmission.Yaml
