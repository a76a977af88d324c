import AppAdmission.Yaml.Node
import AppAdmission.Yaml.Layout.Reader

/-!
# Reading documents

The tokens of a text are put together to one tree. A text holds at most one document; a text
without any is an empty one.
-/

namespace AppAdmission.Yaml

/-- What the handles of tags stand for. -/
abbrev Handles := List (String × List UInt8)

/-- The handles that every document has. -/
def Handles.builtin : Handles :=
  [("!", Utf8.encode ['!']), ("!!", Utf8.encode "tag:yaml.org,2002:".toList)]

namespace Node

/-- A tag in full. -/
def fullTag? (handles : Handles) (t : TagText) : Option (List UInt8) :=
  if t.handle.isEmpty then some t.suffix
  else (handles.find? fun h => h.1 == t.handle).map fun h => h.2 ++ t.suffix

/-- Reads what stands before a node: an anchor, a tag, or both in either order. -/
def readProperties (handles : Handles) : List Token → Option (Properties × List Token)
  | .anchor n :: .tag t :: rest => (fullTag? handles t).map fun tag => (⟨some n, some tag⟩, rest)
  | .tag t :: .anchor n :: rest => (fullTag? handles t).map fun tag => (⟨some n, some tag⟩, rest)
  | .anchor n :: rest => some (⟨some n, none⟩, rest)
  | .tag t :: rest => (fullTag? handles t).map fun tag => (⟨none, some tag⟩, rest)
  | rest => some ({}, rest)

/-- A node of which at most an anchor and a tag are written; nothing if they are not either. -/
def ofProperties (p : Properties) (ts : List Token) : Option (Node × List Token) :=
  if p = {} then none else some (.scalar p .plain "", ts)

/-- Where a node stands: in a block; in a block after a key or its colon, where the items of a
sequence need no deeper column; or between brackets. -/
inductive Position where
  | block
  | entry
  | flow
  deriving DecidableEq, Repr

/-- A reader takes a node from the front of a row of tokens. -/
abbrev Reader := List Token → Option (Node × List Token)

/-- The next token is one of these. -/
def nextIn (kinds : List Token) : List Token → Bool
  | t :: _ => kinds.contains t
  | [] => false

/-- The empty node if one of these tokens comes next. -/
def emptyBefore (kinds : List Token) (read : Reader) : Reader := fun ts =>
  if nextIn kinds ts then some (empty, ts) else read ts

/-- Reads a colon and the value after it; without a colon the value is empty. -/
def readValue (kinds : List Token) (read : Reader) : Reader
  | .value :: rest => emptyBefore kinds read rest
  | ts => some (empty, ts)

/-- Reads a comma, which is not due before the first item. -/
def readComma (first : Bool) : List Token → Option (List Token)
  | .flowEntry :: rest => if first then some (.flowEntry :: rest) else some rest
  | ts => if first then some ts else none

section Collections

variable (read : Position → Reader)

/-- Reads the items of an indented sequence. -/
def readItems : Nat → List Token → Option (List Node × List Token)
  | 0, _ => none
  | fuel + 1, .blockEntry :: rest => do
    let (n, rest) ← emptyBefore [.blockEntry, .blockEnd] (read .block) rest
    let (ns, rest) ← readItems fuel rest
    return (n :: ns, rest)
  | _ + 1, .blockEnd :: rest => some ([], rest)
  | _ + 1, _ => none

/-- Reads the items of a sequence that has no column of its own. -/
def readLooseItems : Nat → List Token → Option (List Node × List Token)
  | 0, _ => none
  | fuel + 1, .blockEntry :: rest => do
    let (n, rest) ← emptyBefore [.blockEntry, .key, .value, .blockEnd] (read .block) rest
    let (ns, rest) ← readLooseItems fuel rest
    return (n :: ns, rest)
  | _ + 1, ts => some ([], ts)

/-- Reads the entries of an indented mapping. -/
def readEntries : Nat → List Token → Option (List (Node × Node) × List Token)
  | 0, _ => none
  | fuel + 1, .key :: rest => do
    let (k, rest) ← emptyBefore [.key, .value, .blockEnd] (read .entry) rest
    let (v, rest) ← readValue [.key, .value, .blockEnd] (read .entry) rest
    let (es, rest) ← readEntries fuel rest
    return ((k, v) :: es, rest)
  | _ + 1, .blockEnd :: rest => some ([], rest)
  | _ + 1, _ => none

/-- Reads a pair among the items between brackets. An empty key takes the token along that ends
it. -/
def readPair : Reader := fun ts => do
  let (k, rest) ←
    if nextIn [.value, .flowEntry, .flowSequenceEnd] ts then some (empty, ts.drop 1)
    else read .flow ts
  let (v, rest) ← readValue [.flowEntry, .flowSequenceEnd] (read .flow) rest
  return (.mapping {} [(k, v)], rest)

/-- Reads an item between brackets. -/
def readFlowItem : Reader
  | .key :: rest => readPair read rest
  | ts => read .flow ts

/-- Reads the items between brackets. -/
def readFlowItems : Nat → Bool → List Token → Option (List Node × List Token)
  | 0, _, _ => none
  | _ + 1, _, .flowSequenceEnd :: rest => some ([], rest)
  | fuel + 1, first, ts => do
    match ← readComma first ts with
    | .flowSequenceEnd :: rest => return ([], rest)
    | ts =>
      let (n, rest) ← readFlowItem read ts
      let (ns, rest) ← readFlowItems fuel false rest
      return (n :: ns, rest)

/-- Reads an entry between braces. -/
def readFlowEntry : List Token → Option ((Node × Node) × List Token)
  | .key :: rest => do
    let (k, rest) ← emptyBefore [.value, .flowEntry, .flowMappingEnd] (read .flow) rest
    let (v, rest) ← readValue [.flowEntry, .flowMappingEnd] (read .flow) rest
    return ((k, v), rest)
  | ts => do
    let (k, rest) ← read .flow ts
    return ((k, empty), rest)

/-- Reads the entries between braces. -/
def readFlowEntries : Nat → Bool → List Token → Option (List (Node × Node) × List Token)
  | 0, _, _ => none
  | _ + 1, _, .flowMappingEnd :: rest => some ([], rest)
  | fuel + 1, first, ts => do
    match ← readComma first ts with
    | .flowMappingEnd :: rest => return ([], rest)
    | ts =>
      let (e, rest) ← readFlowEntry read ts
      let (es, rest) ← readFlowEntries fuel false rest
      return (e :: es, rest)

end Collections

/-- Reads a node. A node within another has one unit of `fuel` less. -/
def read (handles : Handles) : Nat → Position → Reader
  | 0, _, _ => none
  | _ + 1, _, .aliasOf n :: rest => some (.aliasOf n, rest)
  | fuel + 1, position, ts => do
    let inner := read handles fuel
    let (p, ts) ← readProperties handles ts
    match ts with
    | .scalar style text :: rest => return (.scalar p style text, rest)
    | .flowSequenceStart :: rest => return (← readFlowItems inner fuel true rest).map (.sequence p) id
    | .flowMappingStart :: rest => return (← readFlowEntries inner fuel true rest).map (.mapping p) id
    | .blockEntry :: _ =>
      if position = .entry then return (← readLooseItems inner fuel ts).map (.sequence p) id
      else ofProperties p ts
    | .blockSequenceStart :: rest =>
      if position = .flow then ofProperties p ts
      else return (← readItems inner fuel rest).map (.sequence p) id
    | .blockMappingStart :: rest =>
      if position = .flow then ofProperties p ts
      else return (← readEntries inner fuel rest).map (.mapping p) id
    | _ => ofProperties p ts

end Node

namespace Document

/-- The directives before a document, and the tokens after them. -/
def directives : List Token → List Directive × List Token
  | .directive d :: rest => ((d :: (directives rest).1), (directives rest).2)
  | ts => ([], ts)

/-- The versions that directives give. -/
def versions (ds : List Directive) : List (Nat × Nat) :=
  ds.filterMap fun d => match d with
    | .version major minor => some (major, minor)
    | .handle .. => none

/-- The handles that directives give. -/
def handles (ds : List Directive) : Handles :=
  ds.filterMap fun d => match d with
    | .version .. => none
    | .handle name start => some (name, start)

/-- The handles for a document after these directives, which must give at most one version, 1.1 or
1.2, and no handle twice. -/
def handles? (ds : List Directive) : Option Handles :=
  if (versions ds).length ≤ 1 && (versions ds).all (fun v => v == (1, 1) || v == (1, 2)) &&
      decide ((handles ds).map (·.1)).Nodup then
    some (handles ds ++ Handles.builtin)
  else none

/-- Tokens of a document without content. -/
def emptyB : List Token → Bool
  | .directive _ :: _ | .documentStart :: _ | .documentEnd :: _ | [] => true
  | _ => false

/-- Reads the outermost node of a document. Its depth is less than the number of its tokens. -/
def readRoot (handles : Handles) : Node.Reader := fun ts =>
  Node.read handles (2 * ts.length + 2) .block ts

/-- Reads a document from its first token on. -/
def read : Node.Reader := fun ts => do
  match directives ts with
  | (ds, .documentStart :: rest) =>
    let hs ← handles? ds
    if emptyB rest then return (.empty, rest) else readRoot hs rest
  | ([], ts) => readRoot Handles.builtin ts
  | _ => none

/-- The document of a row of tokens. -/
def ofTokens? (ts : List Token) : Option Document :=
  if ts.isEmpty then some ⟨.empty⟩
  else do
    let (root, rest) ← read ts
    if rest.all (· == .documentEnd) then return ⟨root⟩ else none

/-- The document that a text holds. -/
def ofText? (cs : List Char) : Option Document := do
  ofTokens? (← Token.ofGlyphs? (← Glyph.ofText? cs))

end Document

end AppAdmission.Yaml
