/-
The kinds of records that expire: executions that have ended, and files.

An execution expires with the tree below it, which is deleted in one transaction. A file is deleted by the file
service, its content before its row. The oldest come first. A negative number of items cannot be asked for, and for
none of them no statement is made.
-/
import Depot.Files
import Depot.Retention.Cleaner

namespace Depot.Retention

variable {α : Type}

/-- asks for so many rows, by a statement that needs the cutoff in UTC -/
def pageOf (cutoff : Time.Timestamp) (limit : Int) (ask : Time.Timestamp → Nat → Op (List α)) : Op (List α) :=
  if limit < 0 then .fail (.fault .negativeLimit)
  else do
    let utc ← Files.inUtc cutoff
    if limit = 0 then pure [] else ask utc limit.toNat

def expiredExecutions (cutoff : Time.Timestamp) : Op (List Execution) := do
  let utc ← Files.inUtc cutoff
  Prog.ofReply (← Op.ask (.selectExecutions utc))

/-- finished executions that no other one started, with their trees -/
def executions : ExpiredItems service where
  Item := Execution
  name := "historic executions"
  count cutoff := do
    let utc ← Files.inUtc cutoff
    let n ← Prog.ofReply (← Op.ask (.countExecutions utc))
    pure n
  fetchPage cutoff limit :=
    pageOf cutoff limit fun utc n => do Prog.ofReply (← Op.ask (.pageExecutions utc n))
  deleteOne e := do
    let n ← Prog.ofReply (← Op.ask (.deleteExecution e.id))
    pure (0 < n)
  describe e := pure e.description

def files (site : Site) : ExpiredItems service where
  Item := Entry
  name := "files"
  count cutoff := do
    let n ← Files.count (.before cutoff)
    pure n
  fetchPage cutoff limit :=
    pageOf cutoff limit fun utc n => do Prog.ofReply (← Op.ask (.pageFiles (.before utc) n))
  deleteOne e := Files.delete site e.space e.id
  describe e := pure e.description

/-- the kinds in the order of the cleanup -/
inductive Kind where
  | executions
  | files
  deriving DecidableEq, Repr

def Kind.items (site : Site) : Kind → ExpiredItems service
  | .executions => Retention.executions
  | .files => Retention.files site

end Depot.Retention
