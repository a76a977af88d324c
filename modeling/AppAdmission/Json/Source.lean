import AppAdmission.Json.Token
import AppAdmission.Text.Utf8

/-!
# JSON as it is given

A `Source` is the tree that a reader of JSON text looks at before it knows what it keeps. Texts
and numbers that cannot be kept are still in it, and so are repeated members. Containers record how
deep the text is nested at their deepest point, counted from the outermost value, because a value is
kept only if that is at most 127 levels. The tree is built from tokens by a machine with a stack, so
no depth of nesting is a problem for what is skipped.

A value may also be given as a text that holds its JSON: as an object with one key that says so. Where
a free value is kept, such an object is the value of its text.
-/

namespace AppAdmission.Json

/-- JSON as it is given: texts and numbers may be unfit to keep, and members may repeat. -/
inductive Source where
  | null
  | bool (value : Bool)
  | num (value : Option Number)
  | str (value : Option String)
  | arr (items : List Source) (reach : Nat)
  | obj (members : List (Option String × Source)) (reach : Nat)

namespace Source

/-- How deep values may be nested that are kept. -/
def maxDepth : Nat := 127

/-- The deepest level of nesting within a value; zero without containers. -/
def reach : Source → Nat
  | arr _ r => r
  | obj _ r => r
  | _ => 0

/-- A container that is not yet closed: its level, the deepest level within, and its contents,
last one first. -/
inductive Frame where
  | items (level reach : Nat) (done : List Source)
  | members (level reach : Nat) (done : List (Option String × Source)) (key : Option String)

/-- The level of an open container. -/
def Frame.level : Frame → Nat
  | items level _ _ => level
  | members level _ _ _ => level

/-- What the next token may be. -/
inductive Expect where
  | value
  | itemOrClose
  | keyOrClose
  | key
  | colon
  | commaOrClose

/-- A tree in the making: open containers, innermost first, or the finished tree. -/
inductive Builder where
  | building (stack : List Frame) (expect : Expect)
  | finished (result : Source)

/-- The level that a container opened now would have. -/
def nextLevel : List Frame → Nat
  | [] => 1
  | f :: _ => f.level + 1

/-- Puts a finished value where it belongs. -/
def Builder.add (v : Source) : List Frame → Builder
  | [] => finished v
  | .items level r done :: rest => building (.items level (max r v.reach) (v :: done) :: rest) .commaOrClose
  | .members level r done key :: rest =>
    building (.members level (max r v.reach) ((key, v) :: done) key :: rest) .commaOrClose

/-- A token where a value may begin. -/
def Builder.beginValue (stack : List Frame) : Token → Option Builder
  | .null => some (add .null stack)
  | .bool b => some (add (.bool b) stack)
  | .num n => some (add (.num n) stack)
  | .str s => some (add (.str s) stack)
  | .openBracket =>
    let level := nextLevel stack
    some (building (.items level level [] :: stack) .itemOrClose)
  | .openBrace =>
    let level := nextLevel stack
    some (building (.members level level [] none :: stack) .keyOrClose)
  | _ => none

/-- A token that closes the innermost container. -/
def Builder.close : List Frame → Token → Option Builder
  | .items _ r done :: rest, .closeBracket => some (add (.arr done.reverse r) rest)
  | .members _ r done _ :: rest, .closeBrace => some (add (.obj done.reverse r) rest)
  | _, _ => none

/-- A token where a key must stand. -/
def Builder.takeKey : List Frame → Token → Option Builder
  | .members level r done _ :: rest, .str s => some (building (.members level r done s :: rest) .colon)
  | _, _ => none

/-- One token; nothing if it is out of place. -/
def Builder.step : Builder → Token → Option Builder
  | finished _, _ => none
  | building stack .value, t => beginValue stack t
  | building stack .itemOrClose, t => if t = .closeBracket then close stack t else beginValue stack t
  | building stack .keyOrClose, t => if t = .closeBrace then close stack t else takeKey stack t
  | building stack .key, t => takeKey stack t
  | building stack .colon, t => if t = .colon then some (building stack .value) else none
  | building stack .commaOrClose, t =>
    if t = .comma then match stack with
      | .items .. :: _ => some (building stack .value)
      | .members .. :: _ => some (building stack .key)
      | [] => none
    else close stack t

/-- Builds on from a given state. -/
def Builder.run : Builder → List Token → Option Source
  | finished s, [] => some s
  | building _ _, [] => none
  | b, t :: rest =>
    match b.step t with
    | some b => run b rest
    | none => none

/-- The tree of a row of tokens. -/
def ofTokens? (ts : List Token) : Option Source :=
  Builder.run (.building [] .value) ts

/-- The tree of a text in which faults stand for bytes that spell no character. -/
def ofPieces? (cs : List (Option Char)) : Option Source := do
  ofTokens? (← Token.scan cs)

/-- The tree of a text. -/
def ofChars? (cs : List Char) : Option Source :=
  ofPieces? (cs.map some)

/-- The tree of a text given as bytes. -/
def ofBytes? (bytes : List UInt8) : Option Source :=
  ofPieces? ((Utf8.decode bytes).map Utf8.Piece.char?)

mutual

/-- A value looked at again as JSON that is given; nothing about it stands in the way of keeping it. -/
def ofJson : Json → Source
  | .null => null
  | .bool b => bool b
  | .num n => num (some n)
  | .str s => str (some s)
  | .arr items => arr (ofItems items) 0
  | .obj members => obj (ofMembers members) 0

/-- `ofJson` on the items of an array. -/
def ofItems : List Json → List Source
  | [] => []
  | j :: rest => ofJson j :: ofItems rest

/-- `ofJson` on the members of an object. -/
def ofMembers : List (String × Json) → List (Option String × Source)
  | [] => []
  | (k, j) :: rest => (some k, ofJson j) :: ofMembers rest

end

mutual

/-- Every text and number in a value is fit to keep. -/
def soundB : Source → Bool
  | null | bool _ => true
  | num n => n.isSome
  | str s => s.isSome
  | arr items _ => soundItemsB items
  | obj members _ => soundMembersB members

/-- `soundB` on the items of an array. -/
def soundItemsB : List Source → Bool
  | [] => true
  | s :: rest => soundB s && soundItemsB rest

/-- `soundB` on the members of an object. -/
def soundMembersB : List (Option String × Source) → Bool
  | [] => true
  | (k, s) :: rest => k.isSome && soundB s && soundMembersB rest

end

/-- A value that can be put aside to be looked at later: it is sound and not nested too deep. -/
def asideB (s : Source) : Bool :=
  decide (s.reach ≤ maxDepth) && s.soundB

/-- The key that says that the value beside it is a text with the JSON that is meant. -/
def embeddedKey : String := "$serde_json::private::RawValue"

/-- A text. -/
def text : Source → Option String
  | str s => s
  | _ => none

/-- The text that an object stands for if `embeddedKey` comes first in it: there is none if another
member follows or the value is no text. -/
def embeddedText? : List (Option String × Source) → Option (Option String)
  | (some k, s) :: rest =>
    if k = embeddedKey then some (if rest.isEmpty then s.text else none) else none
  | _ => none

mutual

/-- The value kept as a free one, whatever its depth; `embedded` gives the values of embedded
texts. -/
def keepAny (embedded : String → Option Json) : Source → Option Json
  | null => some .null
  | bool b => some (.bool b)
  | num n => n.map .num
  | str s => s.map .str
  | arr items _ => (keepItems embedded items).map .arr
  | obj members _ =>
    match embeddedText? members with
    | some t => t.bind embedded
    | none => (keepMembers embedded members).map fun ms => .obj (Members.sort ms)

/-- `keepAny` on the items of an array. -/
def keepItems (embedded : String → Option Json) : List Source → Option (List Json)
  | [] => some []
  | s :: rest =>
    match keepAny embedded s, keepItems embedded rest with
    | some j, some js => some (j :: js)
    | _, _ => none

/-- `keepAny` on the members of an object. -/
def keepMembers (embedded : String → Option Json) :
    List (Option String × Source) → Option (List (String × Json))
  | [] => some []
  | (k, s) :: rest =>
    match k, keepAny embedded s, keepMembers embedded rest with
    | some k, some j, some ms => some ((k, j) :: ms)
    | _, _, _ => none

end

/-- The value kept as a free one if it is not nested too deep. -/
def keepShallow (embedded : String → Option Json) (s : Source) : Option Json :=
  if s.reach ≤ maxDepth then s.keepAny embedded else none

/-- The free value of an embedded text, in which texts may be embedded again, `fuel - 1` deep. -/
def embeddedWithin : Nat → String → Option Json
  | 0, _ => none
  | fuel + 1, t => (ofChars? t.toList).bind (keepShallow (embeddedWithin fuel))

/-- The free value of an embedded text. A text is longer than any that is embedded in it, so its
length bounds how deep they go. -/
def embedded (t : String) : Option Json := embeddedWithin t.length t

/-- The value kept as a free one: every text and number in it must be fit to keep, every embedded
text must be JSON, and it must not be nested too deep. -/
def keep (s : Source) : Option Json := s.keepShallow embedded

/-- The members that other readers left over, kept as one free value. No brace closes them, so that
an embedded text that comes first is the value whatever follows. -/
def keepOthers (members : List (String × Source)) : Option Json :=
  match members with
  | (k, s) :: _ =>
    if k = embeddedKey then s.text.bind embedded
    else do
      let ms ← members.mapM fun m => m.2.keep.map fun j => (m.1, j)
      return .obj (Members.sort ms)
  | [] => some (.obj [])

end Source

/-- The free value of a text. -/
def parse? (cs : List Char) : Option Json := do
  (← Source.ofChars? cs).keep

end AppAdmission.Json
