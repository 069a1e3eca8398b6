/-
The program: runs a command over an empty store.

The retention in the environment is that of the settings. What the command writes goes to the standard output, what it
reports to the error output.
-/
import Depot.Command.Manage
import Depot.Settings.Component
import Depot.World

namespace Depot

/-- the variables of the retention that are set in the environment -/
def environment : IO Settings.Variables := do
  let mut found := #[]
  for name in ["CLEANUP_RETENTION_DAYS", "CLEANUP_PAGE_SIZE"] do
    if let some value ← IO.getEnv name then found := found.push (name, value)
  return ⟨found.toList, []⟩

def runProgram (arguments : List String) : IO UInt32 := do
  match Settings.Retention.ofVariables (← environment) with
  | .error e =>
    IO.eprintln e.message
    return 1
  | .ok r =>
    let site := { Site.standard .top with retentionDays := some r.days, pageSize := some r.pageSize }
    let run := World.fresh.perform site (Command.manage · arguments)
    IO.print run.state.output
    match run.outcome with
    | .ok exit =>
      IO.eprint exit.errors
      return exit.code.toUInt32
    | .error e =>
      IO.eprintln e.message
      return 1

end Depot

def main (arguments : List String) : IO UInt32 :=
  Depot.runProgram arguments
