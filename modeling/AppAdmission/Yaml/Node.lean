import AppAdmission.Yaml.Scalar

/-!
# Nodes

A document as a tree. An alias stays what it is, the number of an anchor, and is looked up in the
document when it is read: so a node may stand for one that holds it.
-/

namespace AppAdmission.Yaml

/-- What may stand before a node: the number of its anchor, and the bytes of its tag in full. -/
structure Properties where
  anchor : Option Nat := none
  tag : Option (List UInt8) := none
  deriving DecidableEq, Repr

/-- A node of a document. -/
inductive Node where
  | scalar (properties : Properties) (style : ScalarStyle) (text : String)
  | sequence (properties : Properties) (items : List Node)
  | mapping (properties : Properties) (entries : List (Node × Node))
  | aliasOf (number : Nat)
  deriving Repr

namespace Node

/-- The node where nothing is written. -/
def empty : Node := .scalar {} .plain ""

instance : Inhabited Node := ⟨empty⟩

/-- What stands before a node; nothing before an alias. -/
def properties : Node → Properties
  | scalar p _ _ | sequence p _ | mapping p _ => p
  | aliasOf _ => {}

/-- A node with the number of its anchor. -/
def own (n : Node) : List (Nat × Node) :=
  (n.properties.anchor.map fun k => (k, n)).toList

mutual

/-- The anchored nodes of a tree, in the order in which they begin. -/
def anchored : Node → List (Nat × Node)
  | sequence p items => own (sequence p items) ++ anchoredItems items
  | mapping p entries => own (mapping p entries) ++ anchoredEntries entries
  | n => own n

/-- The anchored nodes among the items of a sequence. -/
def anchoredItems : List Node → List (Nat × Node)
  | [] => []
  | n :: rest => anchored n ++ anchoredItems rest

/-- The anchored nodes among the keys and values of a mapping. -/
def anchoredEntries : List (Node × Node) → List (Nat × Node)
  | [] => []
  | (k, v) :: rest => anchored k ++ anchored v ++ anchoredEntries rest

end

end Node

/-- A document, held by its outermost node. -/
structure Document where
  root : Node
  deriving Repr

namespace Document

/-- The node of an anchor's number: of those that share it, the one that begins last. -/
def find? (d : Document) (number : Nat) : Option Node :=
  ((d.root.anchored.filter fun a => a.1 == number).getLast?).map (·.2)

/-- The node that a node stands for. -/
def follow (d : Document) : Node → Node
  | .aliasOf number => (d.find? number).getD .empty
  | n => n

end Document

end AppAdmission.Yaml
