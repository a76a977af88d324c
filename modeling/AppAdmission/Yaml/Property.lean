import AppAdmission.Yaml.Scalar
import AppAdmission.Text.Blank
import AppAdmission.Text.Utf8

/-!
# Properties and directives

What may stand before a node: an anchor, which names it, and a tag, which names its kind; and the
directives before a document, which give its version of YAML and the handles that its tags may use.
-/

namespace AppAdmission.Yaml

/-- A tag as written: a handle, which may be empty, and what follows it. That is bytes, because a
percent sign and two digits may spell any. -/
structure TagText where
  handle : String
  suffix : List UInt8
  deriving DecidableEq, Repr

/-- A directive. -/
inductive Directive where
  | version (major minor : Nat)
  | handle (handle : String) (start : List UInt8)
  deriving DecidableEq, Repr

namespace Property

/-- The characters of a name, and what follows them. -/
def word (gs : List Glyph) : Scanned :=
  ⟨(gs.takeWhile fun g => isWord g.char).map (·.char), gs.dropWhile fun g => isWord g.char⟩

/-- A name may end before a gap or one of the indicators here. -/
def nameEndsB : List Glyph → Bool
  | g :: _ => isGap g.char || "?:,]\x7d%@\x60".toList.contains g.char
  | [] => true

/-- Reads the name of an anchor. -/
def anchorName (gs : List Glyph) : Option (String × List Glyph) :=
  let w := word gs
  if !w.text.isEmpty && nameEndsB w.rest then some (String.ofList w.text, w.rest) else none

/-- A character that may stand in a tag; between angle brackets and in directives, brackets and
commas may too. -/
def isTagChar (wide : Bool) (c : Char) : Bool :=
  isWord c || ";/?:@&=+$.!~*'()".toList.contains c || (wide && ",[]".toList.contains c)

/-- How many bytes are to follow an escaped one that begins a character. -/
def followers? (b : UInt8) : Option Nat :=
  if b < 0x80 then some 0
  else if 0xC0 ≤ b && b < 0xE0 then some 1
  else if 0xE0 ≤ b && b < 0xF0 then some 2
  else if 0xF0 ≤ b && b < 0xF8 then some 3
  else none

/-- How many bytes are to follow an escaped one, of which `owed` were to follow those before it. Only
this much is asked of them: whether they spell a character stays open. -/
def owedAfter? (owed : Nat) (b : UInt8) : Option Nat :=
  if owed = 0 then followers? b
  else if 0x80 ≤ b && b < 0xC0 then some (owed - 1)
  else none

/-- The byte that two digits after a percent sign give. -/
def escapedByte? (x y : Glyph) : Option UInt8 := do
  let a ← DoubleQuoted.hexValue? x.char
  let b ← DoubleQuoted.hexValue? y.char
  return (16 * a + b).toUInt8

/-- A part of a tag that was read, and what follows it. -/
structure TagPart where
  bytes : List UInt8
  rest : List Glyph

/-- Reads a part of a tag, with the bytes read before in `done`, last one first. Within an escaped
character `owed` counts the bytes that are still to come. -/
def tagPart (wide : Bool) (done : List UInt8) (owed : Nat) : List Glyph → Option TagPart
  | [] => if owed = 0 then some ⟨done.reverse, []⟩ else none
  | g :: rest =>
    if g.char = '%' then
      match rest with
      | x :: y :: rest => do
        let b ← escapedByte? x y
        tagPart wide (b :: done) (← owedAfter? owed b) rest
      | _ => none
    else if owed ≠ 0 then none
    else if isTagChar wide g.char then
      tagPart wide ((Utf8.encode [g.char]).reverse ++ done) 0 rest
    else some ⟨done.reverse, g :: rest⟩

/-- What counts of a part of a tag: a zero byte ends it. -/
def cutAtZero (bytes : List UInt8) : List UInt8 :=
  bytes.takeWhile (· ≠ 0)

/-- Reads a handle: an exclamation mark, a name, and if `closed` there is one, another mark. -/
def handle (gs : List Glyph) : Option (Scanned × Bool) :=
  match gs with
  | g :: rest =>
    if g.char = '!' then
      let w := word rest
      if Glyph.beginsB '!' w.rest then some (⟨'!' :: w.text ++ ['!'], w.rest.drop 1⟩, true)
      else some (⟨'!' :: w.text, w.rest⟩, false)
    else none
  | [] => none

/-- A tag may end before a gap and, between brackets, before a comma. -/
def tagEndsB (flow : Bool) (gs : List Glyph) : Bool :=
  Glyph.gapNextB gs || (flow && Glyph.beginsB ',' gs)

/-- Reads a tag in angle brackets, after the opening one. -/
def verbatim (gs : List Glyph) : Option (TagText × List Glyph) := do
  let s ← tagPart true [] 0 gs
  if !s.bytes.isEmpty && Glyph.beginsB '>' s.rest then
    return (⟨"", cutAtZero s.bytes⟩, s.rest.drop 1)
  else none

/-- Reads a tag with a handle or without one. A lone exclamation mark is a tag of its own. -/
def shorthand (gs : List Glyph) : Option (TagText × List Glyph) := do
  let (h, closed) ← handle gs
  let s ← tagPart false [] 0 h.rest
  if closed then
    if s.bytes.isEmpty then none
    else return (⟨String.ofList h.text, cutAtZero s.bytes⟩, s.rest)
  else
    let suffix := cutAtZero (Utf8.encode (h.text.drop 1) ++ s.bytes)
    if suffix.isEmpty then return (⟨"", Utf8.encode ['!']⟩, s.rest)
    else return (⟨"!", suffix⟩, s.rest)

/-- Reads a tag from its exclamation mark on. -/
def tag (flow : Bool) (gs : List Glyph) : Option (TagText × List Glyph) := do
  let (t, rest) ← if Glyph.beginsB '<' (gs.drop 1) then verbatim (gs.drop 2) else shorthand gs
  if tagEndsB flow rest then return (t, rest) else none

end Property

namespace Directive

/-- Reads one part of a version, of at most nine digits. -/
def number (gs : List Glyph) : Option (Nat × List Glyph) :=
  let digits := (gs.takeWhile fun g => Text.isDigit g.char).map (·.char)
  if digits.isEmpty || 9 < digits.length then none
  else some (Text.decimalValue digits, gs.drop digits.length)

/-- Reads a version. -/
def versionValue (gs : List Glyph) : Option (Directive × List Glyph) := do
  let (major, gs) ← number (Glyph.dropSpaces gs)
  if !Glyph.beginsB '.' gs then none
  let (minor, gs) ← number (gs.drop 1)
  return (.version major minor, gs)

/-- Reads a handle and what it stands for. -/
def handleValue (gs : List Glyph) : Option (Directive × List Glyph) := do
  let (h, closed) ← Property.handle (Glyph.dropSpaces gs)
  if !closed && h.text ≠ ['!'] then none
  match h.rest with
  | g :: _ =>
    if !isSpace g.char then none
    let s ← Property.tagPart true [] 0 (Glyph.dropSpaces h.rest)
    if s.bytes.isEmpty || !Glyph.gapNextB s.rest then none
    return (.handle (String.ofList h.text) (Property.cutAtZero s.bytes), s.rest)
  | [] => none

/-- Reads a directive, after the percent sign, to the end of its line. -/
def read (gs : List Glyph) : Option (Directive × List Glyph) := do
  let w := Property.word gs
  if !Glyph.gapNextB w.rest then none
  let (d, rest) ←
    if w.text = "YAML".toList then versionValue w.rest
    else if w.text = "TAG".toList then handleValue w.rest
    else none
  return (d, ← Glyph.endLine? rest)

end Directive

end AppAdmission.Yaml
