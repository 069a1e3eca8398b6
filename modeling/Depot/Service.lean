/-
The calls that the file service makes: to the bucket, to the database, and to its own surroundings.

A call to the bucket or the database is one request or one statement, and happens whole or not at all. Deleting an
execution with its tree is one transaction. A reply that can be a fault says so in its type.
-/
import Depot.Bucket
import Depot.Entry
import Depot.Execution
import Depot.Prog
import Depot.Stream

namespace Depot

/-- what the bucket says about an object that it did not delete -/
structure Refused where
  key : Option String
  text : Option String
  deriving DecidableEq, Repr

inductive Call where
  /-- keeps an object -/
  | putObject (key : String) (content : ByteArray) (metadata : Metadata)
  /-- gives the content of an object -/
  | getObject (key : String)
  /-- gives the texts kept with an object -/
  | headObject (key : String)
  /-- removes an object, if there is one -/
  | deleteObject (key : String)
  /-- gives a page of the keys that start with a text and come after a key -/
  | listObjects (start : String) (after : Option String)
  /-- removes many objects, and says which it did not remove -/
  | deleteObjects (keys : List String)
  /-- gives the rows of files asked for -/
  | selectFiles (q : FileQuery)
  /-- counts the rows of files asked for -/
  | countFiles (q : FileQuery)
  /-- gives the oldest rows of files asked for -/
  | pageFiles (q : FileQuery) (limit : Nat)
  /-- adds a row for a file -/
  | insertFile (e : Entry)
  /-- removes the rows of files asked for, and counts them -/
  | deleteFiles (q : FileQuery)
  /-- gives the expired executions -/
  | selectExecutions (cutoff : Time.Timestamp)
  /-- counts the expired executions -/
  | countExecutions (cutoff : Time.Timestamp)
  /-- gives the oldest expired executions -/
  | pageExecutions (cutoff : Time.Timestamp) (limit : Nat)
  /-- removes an execution with its tree, and counts the rows -/
  | deleteExecution (id : String)
  /-- gives the time -/
  | now
  /-- gives an id for an upload -/
  | freshId
  /-- reads a stream to its end -/
  | drain (s : Stream)
  /-- closes a stream -/
  | close (s : Stream)
  /-- closes the content of an object that was given -/
  | closeContent
  /-- creates an empty temporary file -/
  | createTemporary (folder : Disk.Path)
  /-- replaces the content of a file -/
  | writeFile (path : Disk.Path) (content : ByteArray)
  /-- gives the content of a file -/
  | readFile (path : Disk.Path)
  /-- removes a file, if there is one -/
  | removeFile (path : Disk.Path)
  /-- writes to the standard output -/
  | print (text : String)

abbrev Call.Reply : Call → Type
  | .putObject .. | .deleteObject _ | .insertFile _ | .close _ | .removeFile _ => Except Fault Unit
  | .getObject _ | .readFile _ => Except Fault ByteArray
  | .headObject _ => Except Fault Metadata
  | .listObjects .. => Except Fault Page
  | .deleteObjects _ => Except Fault (List Refused)
  | .selectFiles _ | .pageFiles .. => Except Fault (List Entry)
  | .countFiles _ | .deleteFiles _ | .countExecutions _ | .deleteExecution _ => Except Fault Nat
  | .selectExecutions _ | .pageExecutions .. => Except Fault (List Execution)
  | .now => Time.Timestamp
  | .freshId => String
  | .drain _ => Reading
  | .createTemporary _ => Except Fault Disk.Path
  | .closeContent | .writeFile .. | .print _ => Unit

abbrev service : Interface := ⟨Call, Call.Reply⟩

/-- an operation of the file service -/
abbrev Op := Prog service

namespace Op

variable {α : Type}

def ask (c : Call) : Op c.Reply :=
  Prog.ask (I := service) c

/-- an operation whose faults of a kind are put on record and accounted for as a task that failed -/
def account (kind : Fault → Bool) (event : Event) (task : Task) (p : Op α) : Op α :=
  p.rescue fun
    | .fault f => if kind f then .note event (.fail (.storage task f)) else .fail (.fault f)
    | failure => .fail failure

end Op

end Depot
