import AppAdmission.Server.Timeout

/-!
# Command-line options

What the command line says: where the configuration is, how much time a request has, and the request
itself but for its body.
-/

namespace AppAdmission

/-- The options of the command line. The time for a request is in seconds. -/
structure Options where
  configPath : Option String := none
  requestTimeout : Nat := 10
  method : String := "POST"
  target : String := "/validate/app"
  deriving DecidableEq, Repr

namespace Options

/-- How the command is used. -/
def usage : String :=
  "usage: app-admission [--config FILE] [--request-timeout-secs SECONDS] METHOD TARGET < BODY"

/-- A number of seconds: decimal digits that fit in 64 bits. -/
def seconds? (s : String) : Option Nat :=
  let cs := s.toList
  if !cs.isEmpty && cs.all Text.isDigit && Text.decimalValue cs < Timeout.wordBound then
    some (Text.decimalValue cs)
  else none

/-- Reads the arguments, the method and the target last. -/
def read (o : Options) : List String → Option Options
  | "--config" :: path :: rest => read { o with configPath := some path } rest
  | "--request-timeout-secs" :: s :: rest => do
    read { o with requestTimeout := ← seconds? s } rest
  | [method, target] => some { o with method := method, target := target }
  | _ => none

end Options

end AppAdmission
