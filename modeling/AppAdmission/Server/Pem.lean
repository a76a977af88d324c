import AppAdmission.Text.Base64

/-!
# PEM files

Certificates and keys as text: sections between a line that begins one and a line that ends it, with
Base64 in between. What stands outside of sections is skipped, and so are sections of other kinds. The
bytes of a file are handled as characters, one for each.
-/

namespace AppAdmission.Pem

/-- The kinds of sections that are known. -/
inductive Kind where
  | certificate
  | publicKey
  | rsaPrivateKey
  | privateKey
  | ecPrivateKey
  | revocationList
  | certificateRequest
  | echConfigList
  deriving DecidableEq, Repr

namespace Kind

/-- The label of a kind. -/
def label : Kind → String
  | certificate => "CERTIFICATE"
  | publicKey => "PUBLIC KEY"
  | rsaPrivateKey => "RSA PRIVATE KEY"
  | privateKey => "PRIVATE KEY"
  | ecPrivateKey => "EC PRIVATE KEY"
  | revocationList => "X509 CRL"
  | certificateRequest => "CERTIFICATE REQUEST"
  | echConfigList => "ECHCONFIG"

/-- All kinds. -/
def all : List Kind :=
  [certificate, publicKey, rsaPrivateKey, privateKey, ecPrivateKey, revocationList,
    certificateRequest, echConfigList]

/-- The kind of a label. -/
def ofLabel? (label : List Char) : Option Kind :=
  all.find? fun k => k.label.toList == label

/-- A key of a server. -/
def privateB : Kind → Bool
  | rsaPrivateKey | privateKey | ecPrivateKey => true
  | _ => false

end Kind

/-- A section: its kind and the bytes that it holds. -/
structure Section where
  kind : Kind
  bytes : List UInt8
  deriving DecidableEq, Repr

/-- The sections of a file up to its end or its first fault, and whether there is no fault. -/
structure Contents where
  sections : List Section
  intact : Bool
  deriving DecidableEq, Repr

/-- The lines of a text, each with the line feed or carriage return that ends it. -/
def lines (cs : List Char) : List (List Char) :=
  go [] cs
where
  /-- Goes on with a line of which some characters are known. -/
  go (line : List Char) : List Char → List (List Char)
    | [] => if line.isEmpty then [] else [line]
    | c :: rest =>
      if c = '\n' || c = '\r' then (line ++ [c]) :: go [] rest else go (line ++ [c]) rest

/-- How a line starts that begins a section. -/
def beginMark : List Char := "-----BEGIN ".toList

/-- How a line starts that ends a section with this label. -/
def endMark (label : List Char) : List Char :=
  "-----END ".toList ++ label ++ "-----".toList

/-- What closes a line that begins a section: dashes, blanks and the ends of lines. -/
def isTrailer (c : Char) : Bool :=
  c == '-' || c == '\n' || c == '\r' || c == ' '

/-- The label in a line that begins a section; its trailer must hold five dashes. -/
def label? (line : List Char) : Option (List Char) :=
  let trailer := ((line.reverse.takeWhile isTrailer).reverse).dropWhile (· != '-')
  if trailer.count '-' = 5 then
    some ((line.take (line.length - trailer.length)).drop beginMark.length)
  else none

/-- A reader between two lines: the label of the section it is in, if any, and the lines of Base64 it
has gathered, last one first. -/
structure State where
  label : Option (List Char) := none
  body : List (List Char) := []

/-- What a line does. -/
inductive Step where
  | fault
  | found (s : Section)
  | next (state : State)

/-- The end of a section: its bytes if its kind is known. -/
def close (label : List Char) (body : List (List Char)) : Step :=
  match Kind.ofLabel? label with
  | none => .next {}
  | some kind =>
    match Base64.decodeLoose? body.reverse.flatten with
    | some bytes => .found ⟨kind, bytes⟩
    | none => .fault

/-- One line. A section that begins within another takes its place, and what was gathered is
kept. -/
def step (state : State) (line : List Char) : Step :=
  if beginMark.isPrefixOf line then
    match label? line with
    | some label => .next { state with label := some label }
    | none => .fault
  else match state.label with
    | none => .next state
    | some label =>
      if (endMark label).isPrefixOf line then close label state.body
      else .next { state with body := line :: state.body }

/-- Reads line by line; a section that is not closed at the end is a fault. -/
def run : State → List (List Char) → Contents
  | state, [] => ⟨[], state.label.isNone⟩
  | state, line :: rest =>
    match step state line with
    | .fault => ⟨[], false⟩
    | .next state => run state rest
    | .found s => let c := run {} rest; { c with sections := s :: c.sections }

/-- The sections of a file. -/
def read (bytes : List UInt8) : Contents :=
  run {} (lines (bytes.map fun b => Char.ofNat b.toNat))

end AppAdmission.Pem
