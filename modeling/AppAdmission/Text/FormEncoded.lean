import AppAdmission.Text.Split
import AppAdmission.Text.Utf8

/-!
# Form encoding

The form in which names and values stand in the query of a URL. Reading is lenient: a percent sign
without two hexadecimal digits stands for itself, and bytes that are no UTF-8 become U+FFFD.
-/

namespace AppAdmission.FormEncoded

/-- Characters that stand for themselves. -/
def isPlain (b : UInt8) : Bool :=
  let n := b.toNat
  (48 ≤ n && n ≤ 57) || (65 ≤ n && n ≤ 90) || (97 ≤ n && n ≤ 122) ||
    n == 42 || n == 45 || n == 46 || n == 95

/-- A hexadecimal digit in upper case. -/
def hexDigit (n : Nat) : Char :=
  if n < 10 then Char.ofNat (48 + n) else Char.ofNat (55 + n)

/-- One byte in a query. -/
def encodeByte (b : UInt8) : List Char :=
  if isPlain b then [Char.ofNat b.toNat]
  else if b = 32 then ['+']
  else ['%', hexDigit (b.toNat / 16), hexDigit (b.toNat % 16)]

/-- A text in a query. -/
def encode (s : String) : List Char :=
  (Utf8.encode s.toList).flatMap encodeByte

/-- The value of a hexadecimal digit. -/
def hexValue? (b : UInt8) : Option Nat :=
  let n := b.toNat
  if 48 ≤ n ∧ n ≤ 57 then some (n - 48)
  else if 65 ≤ n ∧ n ≤ 70 then some (n - 55)
  else if 97 ≤ n ∧ n ≤ 102 then some (n - 87)
  else none

/-- The bytes that a piece of a query stands for. -/
def decodeBytes : List UInt8 → List UInt8
  | [] => []
  | 0x25 :: x :: y :: rest =>
    match hexValue? x, hexValue? y with
    | some a, some b => UInt8.ofNat (a * 16 + b) :: decodeBytes rest
    | _, _ => 0x25 :: decodeBytes (x :: y :: rest)
  | b :: rest => (if b = 0x2B then 0x20 else b) :: decodeBytes rest

/-- The text that a piece of a query stands for. -/
def decode (cs : List Char) : String :=
  String.ofList (Utf8.decodeLossy (decodeBytes (Utf8.encode cs)))

/-- The names and values of a query, in order; empty pieces are skipped. -/
def pairs (query : List Char) : List (String × String) :=
  ((Text.splitOn '&' query).filter fun p => !p.isEmpty).map fun p =>
    (decode (p.takeWhile (· != '=')), decode ((p.dropWhile (· != '=')).drop 1))

end AppAdmission.FormEncoded
