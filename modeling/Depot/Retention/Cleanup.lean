/-
The cleanup: every cleaner in turn against one cutoff.

A cleaner that fails does not stop the others. After all have run, the failures are reported together by the cleaners'
names, or the numbers of deleted items are given by name.
-/
import Depot.Retention.Kinds

namespace Depot.Retention

variable {I : Interface}

/-- a cleaner's name, and how its run ended -/
abbrev Outcome := String × Except Failure Nat

def runCleaner (cutoff : Time.Timestamp) (c : Cleaner I) : Prog I Outcome := do
  let outcome ← (c.execute cutoff).attempt
  match outcome with
  | .ok _ => pure (c.name, outcome)
  | .error _ =>
    Prog.record (.cleanupFailed c.name)
    pure (c.name, outcome)

def failedNames (outcomes : List Outcome) : List String :=
  outcomes.filterMap fun (name, outcome) =>
    match outcome with
    | .ok _ => none
    | .error _ => some name

/-- numbers by name with one more; a name that is there keeps its place and takes the new number -/
def setCount (counts : List (String × Nat)) (name : String) (n : Nat) : List (String × Nat) :=
  if counts.any (·.1 == name) then counts.map fun c => if c.1 == name then (name, n) else c
  else counts ++ [(name, n)]

def countsOf (outcomes : List Outcome) : List (String × Nat) :=
  outcomes.foldl (fun counts (name, outcome) =>
    match outcome with
    | .ok n => setCount counts name n
    | .error _ => counts) []

/-- runs every cleaner, and gives the numbers of deleted items by name -/
def runCleanup (cleaners : List (Cleaner I)) (cutoff : Time.Timestamp) : Prog I (List (String × Nat)) := do
  let outcomes ← cleaners.mapM (runCleaner cutoff)
  match failedNames outcomes with
  | [] => pure (countsOf outcomes)
  | failed => .fail (.cleanup failed)

/-- the items of a page where the setting is missing -/
def defaultPageSize : Int := 100

/-- a page size given, or else that of the settings -/
def pageSizeOf (site : Site) (size : Option Int) : Int :=
  size.getD (site.pageSize.getD defaultPageSize)

def defaultCleaners (site : Site) (size : Option Int) : Except Failure (List (Cleaner service)) :=
  [Kind.executions, .files].mapM fun k => Cleaner.ofSize (k.items site) (pageSizeOf site size)

def cleanup (site : Site) (size : Option Int) (cutoff : Time.Timestamp) : Op (List (String × Nat)) :=
  match defaultCleaners site size with
  | .ok cleaners => runCleanup cleaners cutoff
  | .error e => .fail e

end Depot.Retention
