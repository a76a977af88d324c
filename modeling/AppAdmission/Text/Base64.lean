/-!
# Base64

The standard alphabet of RFC 4648. `encode` pads its last group; `decode?` accepts only what
`encode` writes; `decodeLoose?` also takes text that lacks padding or is broken into lines.
-/

namespace AppAdmission.Base64

/-- The character for a value below 64. -/
def letter (n : Nat) : Char :=
  if n < 26 then Char.ofNat (65 + n)
  else if n < 52 then Char.ofNat (71 + n)
  else if n < 62 then Char.ofNat (n - 4)
  else if n = 62 then '+' else '/'

/-- The value that a character stands for. -/
def value? (c : Char) : Option Nat :=
  if 'A' ≤ c && c ≤ 'Z' then some (c.toNat - 65)
  else if 'a' ≤ c && c ≤ 'z' then some (c.toNat - 71)
  else if '0' ≤ c && c ≤ '9' then some (c.toNat + 4)
  else if c = '+' then some 62
  else if c = '/' then some 63
  else none

/-- Bytes as text: three bytes are four letters, and `=` fills up the last group. -/
def encode : List UInt8 → List Char
  | [] => []
  | [a] => [letter (a.toNat / 4), letter (a.toNat % 4 * 16), '=', '=']
  | [a, b] =>
    [letter (a.toNat / 4), letter (a.toNat % 4 * 16 + b.toNat / 16), letter (b.toNat % 16 * 4), '=']
  | a :: b :: c :: rest =>
    letter (a.toNat / 4) :: letter (a.toNat % 4 * 16 + b.toNat / 16)
      :: letter (b.toNat % 16 * 4 + c.toNat / 64) :: letter (c.toNat % 64) :: encode rest

/-- One byte from two letters whose spare bits are zero. -/
def last1? (w x : Char) : Option (List UInt8) := do
  let w ← value? w
  let x ← value? x
  if x % 16 = 0 then some [UInt8.ofNat (w * 4 + x / 16)] else none

/-- Two bytes from three letters whose spare bits are zero. -/
def last2? (w x y : Char) : Option (List UInt8) := do
  let w ← value? w
  let x ← value? x
  let y ← value? y
  if y % 4 = 0 then some [UInt8.ofNat (w * 4 + x / 16), UInt8.ofNat (x % 16 * 16 + y / 4)] else none

/-- Three bytes from four values. -/
def group (w x y z : Nat) : List UInt8 :=
  [UInt8.ofNat (w * 4 + x / 16), UInt8.ofNat (x % 16 * 16 + y / 4), UInt8.ofNat (y % 4 * 64 + z)]

/-- The bytes of a padded text whose spare bits are zero. -/
def decode? : List Char → Option (List UInt8)
  | [] => some []
  | [w, x, '=', '='] => last1? w x
  | [w, x, y, '='] => last2? w x y
  | w :: x :: y :: z :: rest => do
    let w ← value? w
    let x ← value? x
    let y ← value? y
    let z ← value? z
    let tail ← decode? rest
    return group w x y z ++ tail
  | _ => none

/-- The whole bytes in a row of six-bit values; bits left over at the end are dropped. -/
def pack : List Nat → List UInt8
  | w :: x :: y :: z :: rest => group w x y z ++ pack rest
  | [w, x, y] => [UInt8.ofNat (w * 4 + x / 16), UInt8.ofNat (x % 16 * 16 + y / 4)]
  | [w, x] => [UInt8.ofNat (w * 4 + x / 16)]
  | _ => []

/-- Letters that make up bytes, with no more padding after them than fills up the last group. -/
def paddedB (letters padding : Nat) : Bool :=
  if letters % 4 < 2 then letters % 4 == 0 && padding == 0 else letters % 4 + padding ≤ 4

/-- White space of ASCII: the blank, the tabs, the form feed and the ends of lines. -/
def isSpace (c : Char) : Bool :=
  c == ' ' || ('\t' ≤ c && c ≤ '\r')

/-- The bytes of a text that may be broken by white space and may lack its padding. -/
def decodeLoose? (cs : List Char) : Option (List UInt8) := do
  let cs := cs.filter fun c => !isSpace c
  let letters := cs.takeWhile (· != '=')
  let padding := cs.dropWhile (· != '=')
  if padding.all (· == '=') && paddedB letters.length padding.length then
    return pack (← letters.mapM value?)
  else none

end AppAdmission.Base64
