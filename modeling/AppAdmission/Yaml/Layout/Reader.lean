import AppAdmission.Yaml.Layout

/-!
# Reading tokens

The text is taken token by token; the first character tells which kind comes. Nothing is returned if
some character can begin no token, or if the layout does not allow it where it stands.
-/

namespace AppAdmission.Yaml.Layout

/-- A directive. -/
def directive (l : Layout) (rest : List Glyph) : Option Next := do
  let l ← (l.closeBeyond (-1)).dropKey
  let (d, rest) ← Directive.read rest
  return ((l.allowKey false).push (.directive d), rest)

/-- A line that begins or ends a document; `rest` begins with its three characters. -/
def documentMark (l : Layout) (t : Token) (rest : List Glyph) : Option Next := do
  let l ← (l.closeBeyond (-1)).dropKey
  return ((l.allowKey false).push t, rest.drop 3)

/-- An opening bracket or brace. -/
def flowStart (l : Layout) (t : Token) (g : Glyph) (rest : List Glyph) : Option Next := do
  let l ← l.noteKey g
  return ((l.enter.allowKey true).push t, rest)

/-- A closing bracket or brace. -/
def flowEnd (l : Layout) (t : Token) (rest : List Glyph) : Option Next := do
  let l ← l.dropKey
  return ((l.leave.allowKey false).push t, rest)

/-- A comma between brackets. -/
def flowEntry (l : Layout) (rest : List Glyph) : Option Next := do
  let l ← l.dropKey
  return ((l.allowKey true).push .flowEntry, rest)

/-- A dash before an item. -/
def blockEntry (l : Layout) (g : Glyph) (rest : List Glyph) : Option Next :=
  if l.flow || l.keyAllowed then do
    let l ← (l.openAt g.column l.tokens.length .blockSequenceStart).dropKey
    return ((l.allowKey true).push .blockEntry, rest)
  else none

/-- A question mark before a key. -/
def explicitKey (l : Layout) (g : Glyph) (rest : List Glyph) : Option Next :=
  if l.flow || l.keyAllowed then do
    let l ← (l.openAt g.column l.tokens.length .blockMappingStart).dropKey
    return ((l.allowKey !l.flow).push .key, rest)
  else none

/-- A colon before a value: what stands before it on the line is a key, or else it belongs to a
question mark. -/
def colon (l : Layout) (g : Glyph) (rest : List Glyph) : Option Next :=
  match l.keyStart with
  | some k =>
    let l := (l.insert k.before .key).openAt k.column k.before .blockMappingStart
    some (({ l with keyStart := none }.allowKey false).push .value, rest)
  | none =>
    if l.flow || l.keyAllowed then
      let l := l.openAt g.column l.tokens.length .blockMappingStart
      some ((l.allowKey !l.flow).push .value, rest)
    else none

/-- An asterisk and the name of an anchor, which must have been given. -/
def aliasOf (l : Layout) (g : Glyph) (rest : List Glyph) : Option Next := do
  let l ← l.noteKey g
  let (name, rest) ← Property.anchorName rest
  return ((l.allowKey false).push (.aliasOf (← l.anchors.find? name)), rest)

/-- An ampersand and the name of an anchor. -/
def anchor (l : Layout) (g : Glyph) (rest : List Glyph) : Option Next := do
  let l ← l.noteKey g
  let (name, rest) ← Property.anchorName rest
  let l := (l.allowKey false).push (.anchor l.anchors.count)
  return ({ l with anchors := l.anchors.give name }, rest)

/-- A tag; `gs` begins with its exclamation mark. -/
def tag (l : Layout) (g : Glyph) (gs : List Glyph) : Option Next := do
  let l ← l.noteKey g
  let (t, rest) ← Property.tag l.flow gs
  return ((l.allowKey false).push (.tag t), rest)

/-- A block of text. -/
def block (l : Layout) (folded : Bool) (rest : List Glyph) : Option Next := do
  let l ← l.dropKey
  let s ← Block.read folded l.indent rest
  return ((l.allowKey true).push (.scalar .block (String.ofList s.text)), s.rest)

/-- A text in quotation marks. -/
def quoted (l : Layout) (g : Glyph) (read : Option Scanned) : Option Next := do
  let l ← l.noteKey g
  let s ← read
  return ((l.allowKey false).push (.scalar .quoted (String.ofList s.text)), s.rest)

/-- A plain text; after one that ends with its line a key may begin. -/
def plain (l : Layout) (g : Glyph) (gs : List Glyph) : Option Next := do
  let l ← l.noteKey g
  let r ← Plain.read l.flow (l.indent + 1) [] [] gs
  return ((l.allowKey r.brokeLine).push (.scalar .plain (String.ofList r.text)), r.rest)

/-- A character with which no plain text begins, unless a word follows at once. -/
def isIndicator (c : Char) : Bool :=
  "-?:,[]\x7b\x7d#&*!|>'\"%@\x60".toList.contains c

/-- A plain text may begin here. A dash may begin one if neither space nor tab follows; a question
mark or colon outside of brackets if no gap follows. -/
def plainStartB (flow : Bool) (g : Glyph) (rest : List Glyph) : Bool :=
  !(isGap g.char || isIndicator g.char) ||
    (g.char == '-' && !(rest.head?.any fun h => isSpace h.char)) ||
    (!flow && (g.char == '?' || g.char == ':') && !Glyph.gapNextB rest)

/-- The token that begins at `g`. -/
def token (l : Layout) (g : Glyph) (rest : List Glyph) : Option Next :=
  let gs := g :: rest
  let c := g.char
  if g.column = 0 && c = '%' then l.directive rest
  else if Glyph.threefoldB '-' gs then l.documentMark .documentStart gs
  else if Glyph.threefoldB '.' gs then l.documentMark .documentEnd gs
  else if c = '[' then l.flowStart .flowSequenceStart g rest
  else if c = '\x7b' then l.flowStart .flowMappingStart g rest
  else if c = ']' then l.flowEnd .flowSequenceEnd rest
  else if c = '\x7d' then l.flowEnd .flowMappingEnd rest
  else if c = ',' then l.flowEntry rest
  else if c = '-' && Glyph.gapNextB rest then l.blockEntry g rest
  else if c = '?' && (l.flow || Glyph.gapNextB rest) then l.explicitKey g rest
  else if c = ':' && (l.flow || Glyph.gapNextB rest) then l.colon g rest
  else if c = '*' then l.aliasOf g rest
  else if c = '&' then l.anchor g rest
  else if c = '!' then l.tag g gs
  else if c = '|' && !l.flow then l.block false rest
  else if c = '>' && !l.flow then l.block true rest
  else if c = '\'' then l.quoted g (SingleQuoted.read [] [] rest)
  else if c = '"' then l.quoted g (DoubleQuoted.read [] (.text []) rest)
  else if plainStartB l.flow g rest then l.plain g gs
  else none

/-- The end of the text closes all indented collections. -/
def finish (l : Layout) : Option (List Token) := do
  let l ← (l.closeBeyond (-1)).dropKey
  return l.tokens.reverse

/-- Reads token after token. Every token takes a character, so `fuel` beyond their number is never
used up. -/
def run : Nat → Layout → List Glyph → Option (List Token)
  | 0, _, _ => none
  | fuel + 1, l, gs =>
    match l.toToken gs with
    | (l, []) => l.finish
    | (l, g :: rest) => do
      let l ← l.expireKeys g
      let (l, rest) ← (l.closeBeyond g.column).token g rest
      run fuel l rest

end AppAdmission.Yaml.Layout

namespace AppAdmission.Yaml.Token

/-- The tokens of a text that is laid out. -/
def ofGlyphs? (gs : List Glyph) : Option (List Token) :=
  Layout.run (gs.length + 1) {} gs

end AppAdmission.Yaml.Token
