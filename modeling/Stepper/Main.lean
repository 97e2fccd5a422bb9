import Stepper.CommandLine.Run

/-!
The command: reads variables and the prelude file, prints, and exits.
-/

namespace Stepper.CommandLine

/-- The variables that a run looks at. -/
def settingNames : List String :=
  ["STEPWISE_MAX_EXPANSIONS", "STEPWISE_LOG_LEVEL", "STEPWISE_RECURSION_LIMIT"]

def readVariables : IO Variables := do
  let pairs ← settingNames.mapM fun name => do
    let value ← IO.getEnv name
    return (name, value)
  return fun name => (pairs.lookup name).join

def readFile (path : String) : IO FileRead := do
  if Files.longestPath < path.utf8ByteSize then return .nameTooLong
  if (pathParts path).any fun part => decide (Files.longestPart < part.utf8ByteSize) then
    return .nameTooLong
  try
    let text ← IO.FS.readFile path
    return .contents text
  catch
    | .noFileOrDirectory .. => return .missing
    | .inappropriateType _ code _ => return if code = 20 then .notDirectory else .directory
    | problem => return .failed (toString problem)

/-- The file that the arguments name, read before the run. -/
def readPrelude (texts : List String) : IO FileRead :=
  match parse texts with
  | .ok { prelude := .value path, .. } => readFile (plainPath path)
  | _ => pure .missing

end Stepper.CommandLine

open Stepper CommandLine in
def main (texts : List String) : IO UInt32 := do
  let vars ← readVariables
  let file ← readPrelude texts
  match run vars (fun _ => file) texts with
  | .ok outcome =>
    IO.print outcome.output
    IO.eprint outcome.errors
    return outcome.code.toUInt32
  | .error failure =>
    IO.eprintln failure.message
    return 1
