import AppAdmission.Config.Yaml
import AppAdmission.Server.Options
import AppAdmission.Server.Router
import AppAdmission.Store.Environment

/-!
# Command line

Answers one request against an empty store: the method and the target are arguments, the body is
standard input, and the response goes to standard output.
-/

open AppAdmission

/-- Reads the configuration; without a file it is the default one. -/
def loadConfig : Option String → IO (Except ConfigFault WebhookConfig)
  | none => return .ok {}
  | some path => do
    let file ← try pure (some (← IO.FS.readBinFile path)) catch _ => pure none
    return WebhookConfig.ofFile (file.map fun bytes => bytes.toList)

/-- Reads standard input to its end. -/
partial def readAll (stream : IO.FS.Stream) (done : ByteArray) : IO ByteArray := do
  let chunk ← stream.read 65536
  if chunk.isEmpty then return done else readAll stream (done ++ chunk)

/-- Answers one request; the exit code is zero if the response says so. -/
def answerRequest (service : Service) (o : Options) : IO UInt32 := do
  let body ← readAll (← IO.getStdin) .empty
  let request : HttpRequest := {
    method := o.method
    target := o.target
    headers := [("Content-Type", "application/json")]
    body := body.toList }
  match service.serve MemoryStore.environment (.zero false) request {} {} with
  | none =>
    IO.eprintln "the timeout of the request is too large"
    return 1
  | some served =>
    IO.println served.response.body
    return if served.response.status = 200 then 0 else 1

/-- Runs the command. -/
def main (args : List String) : IO UInt32 := do
  match ({} : Options).read args with
  | none =>
    IO.eprintln Options.usage
    return 2
  | some o =>
    match ← loadConfig o.configPath with
    | .error .unreadable =>
      IO.eprintln "failed to read config"
      return 1
    | .error .malformed =>
      IO.eprintln "failed to parse config"
      return 1
    | .ok config =>
      match Service.build config (o.requestTimeout * Timeout.second) with
      | .error e =>
        IO.eprintln ("invalid cutoff version: " ++ e.message)
        return 1
      | .ok service => answerRequest service o
