import ExchangeClient.CommandLine.Run
import Std.Time.DateTime.Timestamp

/-!
# The program

Reads the arguments, the variables and the file of settings, runs the command
and prints what it comes to. This build reaches no exchange: every request fails
as it does on a machine without a network.
-/

namespace ExchangeClient.CommandLine

/-- The variables that settings are read from. -/
def variableNames : List String :=
  ["TOKENOMY_ADDRESS", "TOKENOMY_V1_ADDRESS", "TOKENOMY_TOKEN", "TOKENOMY_SECRET",
    "TOKENOMY_TIMEOUT_SECS", "TOKENOMY_INSECURE", "TOKENOMY_RECONNECT_DELAY_SECS", "TOKENOMY_DEBUG"]

def readVariables : IO (List (String × String)) :=
  variableNames.filterMapM fun name => do
    pure ((← IO.getEnv name).map (name, ·))

/-- The first file of settings that can be read. -/
def readFile (path : String) : IO (Option Settings.File) := do
  for (name, format) in Settings.candidates path do
    if let .ok text ← (IO.FS.readFile name).toBaseIO then
      return format.map (⟨name, ·, text⟩)
  return none

/-- A world without a network. -/
def offline (now : Instant) : World :=
  { now
    transport := fun _ => .error (.http "Network is unreachable (os error 101)")
    attempt := .unreachable
    peer := fun _ _ => [] }

/-- Runs the program and says how it ends. -/
def runProgram (args : List String) : IO UInt32 := do
  let config := match Invocation.read args with
    | .ok i => i.config
    | .error _ => none
  let file ← match config with
    | some path => readFile path
    | none => pure none
  let now : Instant := ⟨(← Std.Time.Timestamp.now).toMillisecondsSinceUnixEpoch.toInt⟩
  let t := run (offline now) (fun _ => file) (← readVariables) args
  (← IO.getStdout).putStr t.output
  if let some complaint := t.complaint? then
    (← IO.getStderr).putStr (complaint ++ "\n")
  return UInt32.ofNat t.exitCode

end ExchangeClient.CommandLine

def main (args : List String) : IO UInt32 := ExchangeClient.CommandLine.runProgram args
